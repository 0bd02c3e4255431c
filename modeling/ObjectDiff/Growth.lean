import ObjectDiff.Library

/-!
# What processing never undoes

Nothing `process_file` does deletes or replaces: objects are added to the heap and an
existing one changes only when `def_func` gives a declared `CFunction` its definition's
signature; a context record is never replaced; headers only gain names. `ObjState.Extends`
says this of two states, and every operation and every run keeps it, returning or raising.
With a fresh `Context` per library, every state `main`'s collection reaches is coherent.
-/

namespace ObjectDiff

/-- A `CFunction` without its signature: what `def_func` leaves of it. -/
def CObj.eraseSignature : CObj → CObj
  | .function die name _ _ static => .function die name .void [] static
  | o => o

lemma CObj.eraseSignature_eq_function {o : CObj} {die : Nat} {name : Option String}
    {static : Bool} (h : o.eraseSignature = .function die name .void [] static) :
    ∃ returnType args, o = .function die name returnType args static := by
  cases o <;> simp_all [CObj.eraseSignature]

@[simp] lemma CObj.eraseSignature_setSignature (returnType : CRef)
    (args : List (CRef × Option String)) (o : CObj) :
    (o.setSignature returnType args).eraseSignature = o.eraseSignature := by
  cases o <;> rfl

namespace PyDict

variable {κ ν : Type} [DecidableEq κ]

lemma keys_modify (m : PyDict κ ν) (k : κ) (f : ν → ν) :
    (m.modify k f).map Prod.fst = m.map Prod.fst := by
  induction m with
  | nil => rfl
  | cons p m ih =>
    obtain ⟨k', v⟩ := p
    by_cases h : k' = k <;> simp [PyDict.modify, h, ih]

lemma nodup_keys_set {m : PyDict κ ν} (hm : (m.map Prod.fst).Nodup) (k : κ) (v : ν) :
    ((m.set k v).map Prod.fst).Nodup := by
  rw [keys_set]
  split_ifs with hk
  · exact hm
  · exact hm.append (List.nodup_singleton k) (List.disjoint_singleton.2 hk)

end PyDict

/-- `h` with the names of `l` filed in order, each with its entry and line. -/
def HeaderFile.fileAll (h : HeaderFile) (l : List (Option String × CRef × Nat)) : HeaderFile :=
  l.foldl (fun h f => h.file f.1 f.2.1 f.2.2) h

/-- `defs` and `def_lines` have the same names, in the same order. -/
def HeaderFile.Aligned (h : HeaderFile) : Prop :=
  h.defs.map Prod.fst = h.defLines.map Prod.fst

namespace HeaderFile

@[simp] lemma fileAll_nil (h : HeaderFile) : h.fileAll [] = h := rfl

lemma fileAll_append (h : HeaderFile) (l₁ l₂ : List (Option String × CRef × Nat)) :
    h.fileAll (l₁ ++ l₂) = (h.fileAll l₁).fileAll l₂ :=
  List.foldl_append _ _ _ _

lemma fileAll_path (h : HeaderFile) (l : List (Option String × CRef × Nat)) :
    (h.fileAll l).path = h.path := by
  induction l generalizing h with
  | nil => rfl
  | cons f l ih => exact ih _

lemma Aligned.file {h : HeaderFile} (hh : h.Aligned) (name : Option String) (entry : CRef)
    (line : Nat) : (h.file name entry line).Aligned := by
  unfold Aligned at hh ⊢
  rw [HeaderFile.file, PyDict.keys_set, PyDict.keys_set, hh]

lemma Aligned.fileAll {h : HeaderFile} (hh : h.Aligned) (l : List (Option String × CRef × Nat)) :
    (h.fileAll l).Aligned := by
  induction l generalizing h with
  | nil => exact hh
  | cons f l ih => exact ih (hh.file _ _ _)

lemma defs_isSome_fileAll {h : HeaderFile} {n : Option String}
    (hn : (h.defs.get n).isSome) (l : List (Option String × CRef × Nat)) :
    ((h.fileAll l).defs.get n).isSome := by
  induction l generalizing h with
  | nil => exact hn
  | cons f l ih =>
    refine ih ?_
    by_cases hnf : n = f.1 <;> simp [HeaderFile.file, PyDict.get_set, hnf, hn]

end HeaderFile

/-- `s'` is `s` with objects, context records and headers added, a declared function's
signature set, and names filed into headers. A new context record holds a non-static
`CFunction` of its name, and a new header is `HeaderFile(path)` of its key with names
filed into it. -/
structure ObjState.Extends (s s' : ObjState) : Prop where
  heap_length : s.types.heap.length ≤ s'.types.heap.length
  heap_cell : ∀ a < s.types.heap.length,
    (s'.types.heap[a]?).map CObj.eraseSignature = (s.types.heap[a]?).map CObj.eraseSignature
  funcs : ∀ n p, s.funcs.get n = some p → s'.funcs.get n = some p
  funcs_new : ∀ n p, s.funcs.get n = none → s'.funcs.get n = some p →
    ∃ die returnType args, s'.types.heap[p.1]? = some (.function die n returnType args false)
  headers_kept : ∀ k h, s.headers.get k = some h → ∃ l, s'.headers.get k = some (h.fileAll l)
  headers_new : ∀ k h', s.headers.get k = none → s'.headers.get k = some h' →
    ∃ l, h' = HeaderFile.fileAll ⟨k, [], []⟩ l
  headers_nodup : (s.headers.map Prod.fst).Nodup → (s'.headers.map Prod.fst).Nodup

namespace ObjState.Extends

variable {s s₁ s₂ : ObjState}

lemma of_eq (hheap : s'.types.heap = s.types.heap) (hfuncs : s'.funcs = s.funcs)
    (hheaders : s'.headers = s.headers) : ObjState.Extends s s' where
  heap_length := hheap ▸ le_rfl
  heap_cell _ _ := by rw [hheap]
  funcs _ _ h := hfuncs ▸ h
  funcs_new _ _ hn hn' := by rw [hfuncs, hn] at hn'; cases hn'
  headers_kept _ _ hk := ⟨[], hheaders ▸ hk⟩
  headers_new _ _ hk hk' := by rw [hheaders, hk] at hk'; cases hk'
  headers_nodup h := hheaders ▸ h

lemma function_kept (h : ObjState.Extends s s') {a die : Nat} {name : Option String}
    {returnType : CRef} {args : List (CRef × Option String)} {static : Bool}
    (ha : s.types.heap[a]? = some (.function die name returnType args static)) :
    ∃ returnType' args', s'.types.heap[a]? = some (.function die name returnType' args' static) := by
  have hcell := h.heap_cell a (List.getElem?_eq_some_iff.1 ha).1
  rw [ha] at hcell
  rcases ho : s'.types.heap[a]? with _ | o
  · simp [ho] at hcell
  · simp only [ho, Option.map_some', Option.some.injEq] at hcell
    obtain ⟨returnType', args', rfl⟩ := CObj.eraseSignature_eq_function hcell
    exact ⟨returnType', args', rfl⟩

lemma header_cases (h : ObjState.Extends s s') {k : String} {h' : HeaderFile}
    (hk' : s'.headers.get k = some h') :
    (∃ l, h' = HeaderFile.fileAll ⟨k, [], []⟩ l) ∨
      ∃ h₀ l, s.headers.get k = some h₀ ∧ h' = h₀.fileAll l := by
  rcases hk : s.headers.get k with _ | h₀
  · exact .inl (h.headers_new k h' hk hk')
  · obtain ⟨l, hl⟩ := h.headers_kept k h₀ hk
    rw [hk', Option.some.injEq] at hl
    exact .inr ⟨h₀, l, rfl, hl⟩

lemma refl (s : ObjState) : ObjState.Extends s s := of_eq rfl rfl rfl

lemma trans (h₁ : ObjState.Extends s s₁) (h₂ : ObjState.Extends s₁ s₂) : ObjState.Extends s s₂ where
  heap_length := h₁.heap_length.trans h₂.heap_length
  heap_cell a ha := (h₂.heap_cell a (lt_of_lt_of_le ha h₁.heap_length)).trans (h₁.heap_cell a ha)
  funcs n p h := h₂.funcs n p (h₁.funcs n p h)
  funcs_new n p hn hn₂ := by
    rcases hn₁ : s₁.funcs.get n with _ | p₁
    · exact h₂.funcs_new n p hn₁ hn₂
    · rw [h₂.funcs n p₁ hn₁, Option.some.injEq] at hn₂
      obtain ⟨die, _, _, ha⟩ := h₁.funcs_new n p₁ hn hn₁
      exact hn₂ ▸ ⟨die, h₂.function_kept ha⟩
  headers_kept k h hk := by
    obtain ⟨l₁, hk₁⟩ := h₁.headers_kept k h hk
    obtain ⟨l₂, hk₂⟩ := h₂.headers_kept k _ hk₁
    exact ⟨l₁ ++ l₂, by rw [HeaderFile.fileAll_append, hk₂]⟩
  headers_new k h' hk hk₂ := by
    rcases h₂.header_cases hk₂ with hnew | ⟨h₁', l₂, hk₁, rfl⟩
    · exact hnew
    · obtain ⟨l₁, rfl⟩ := h₁.headers_new k h₁' hk hk₁
      exact ⟨l₁ ++ l₂, (HeaderFile.fileAll_append _ _ _).symm⟩
  headers_nodup h := h₂.headers_nodup (h₁.headers_nodup h)

lemma of_frame {t : TypeState} (hf : Frame s.types.heap.length s.types.heap t) :
    ObjState.Extends s { s with types := t } where
  heap_length := hf.1
  heap_cell a ha := by rw [hf.2 a ha]
  funcs _ _ h := h
  funcs_new _ _ hn hn' := by rw [hn] at hn'; cases hn'
  headers_kept _ _ hk := ⟨[], hk⟩
  headers_new _ _ hk hk' := by rw [hk] at hk'; cases hk'
  headers_nodup := id

lemma of_headers {hs : PyDict String HeaderFile}
    (hkept : ∀ k h, s.headers.get k = some h → ∃ l, hs.get k = some (h.fileAll l))
    (hnew : ∀ k h', s.headers.get k = none → hs.get k = some h' →
      ∃ l, h' = HeaderFile.fileAll ⟨k, [], []⟩ l)
    (hnodup : (s.headers.map Prod.fst).Nodup → (hs.map Prod.fst).Nodup) :
    ObjState.Extends s { s with headers := hs } :=
  ⟨le_rfl, fun _ _ => rfl, fun _ _ h => h, fun _ _ hn hn' => by simp [hn] at hn', hkept, hnew,
    hnodup⟩

lemma of_record {name : Option String} (hn : s.funcs.get name = none) {a : Nat}
    (ha : ∃ die returnType args,
      s.types.heap[a]? = some (.function die name returnType args false))
    (defined : Bool) : ObjState.Extends s { s with funcs := s.funcs.set name (a, defined) } where
  heap_length := le_rfl
  heap_cell _ _ := rfl
  funcs n p h := by
    by_cases hnm : n = name
    · rw [hnm, hn] at h
      cases h
    · simpa [PyDict.get_set, hnm] using h
  funcs_new n p hn' h := by
    by_cases hnm : n = name
    · subst hnm
      simp only [PyDict.get_set, if_true, Option.some.injEq] at h
      subst h
      exact ha
    · simp [PyDict.get_set, hnm, hn'] at h
  headers_kept _ _ hk := ⟨[], hk⟩
  headers_new _ _ hk hk' := by rw [hk] at hk'; cases hk'
  headers_nodup := id

end ObjState.Extends

/-- What every state `main` reaches from a fresh `Context` and `header_files` satisfies:
each context record holds a non-static `CFunction` of its name, `header_files` has each key
once, and each header is named by its key and has the same names in `defs` as in
`def_lines`. -/
structure ObjState.Coherent (s : ObjState) : Prop where
  funcs_named : ∀ n p, s.funcs.get n = some p →
    ∃ die returnType args, s.types.heap[p.1]? = some (.function die n returnType args false)
  header_path : ∀ k h, s.headers.get k = some h → h.path = k
  header_aligned : ∀ k h, s.headers.get k = some h → h.Aligned
  headers_nodup : (s.headers.map Prod.fst).Nodup

lemma ObjState.Extends.coherent {s s' : ObjState} (h : ObjState.Extends s s')
    (hs : s.Coherent) : s'.Coherent where
  funcs_named n p hp := by
    rcases hn : s.funcs.get n with _ | p₀
    · exact h.funcs_new n p hn hp
    · rw [h.funcs n p₀ hn, Option.some.injEq] at hp
      obtain ⟨die, _, _, ha⟩ := hs.funcs_named n p₀ hn
      exact hp ▸ ⟨die, h.function_kept ha⟩
  header_path k h' hk' := by
    rcases h.header_cases hk' with ⟨l, rfl⟩ | ⟨h₀, l, hk, rfl⟩
    · exact HeaderFile.fileAll_path _ l
    · exact (HeaderFile.fileAll_path h₀ l).trans (hs.header_path k h₀ hk)
  header_aligned k h' hk' := by
    rcases h.header_cases hk' with ⟨l, rfl⟩ | ⟨h₀, l, hk, rfl⟩
    · exact HeaderFile.Aligned.fileAll (show HeaderFile.Aligned ⟨k, [], []⟩ from rfl) l
    · exact (hs.header_aligned k h₀ hk).fileAll l
  headers_nodup := h.headers_nodup hs.headers_nodup

/-- `x` extends every state it runs from, whether it returns or raises. -/
def Extending {α : Type} (x : ObjM α) : Prop :=
  ∀ s, ObjState.Extends s (x s).2

namespace Extending

variable {α β : Type}

lemma bind {x : ObjM α} {f : α → ObjM β} (hx : Extending x) (hf : ∀ a, Extending (f a)) :
    Extending (x >>= f) := fun s => by
  have := hx s
  rw [PyM.bind_apply]
  revert this
  rcases x s with ⟨_ | a, s'⟩
  · exact id
  · exact fun h => h.trans (hf a s')

lemma of_state {x : ObjM α} (h : ∀ s, (x s).2 = s) : Extending x := fun s => by
  rw [h s]
  exact ObjState.Extends.refl s

lemma ret (a : α) : Extending (pure a : ObjM α) := of_state fun _ => rfl

lemma raise (e : Err) : Extending (throw e : ObjM α) := of_state fun _ => rfl

lemma liftExcept (x : Except Err α) : Extending (ObjectDiff.liftExcept x : ObjM α) :=
  of_state fun _ => by cases x <;> rfl

lemma attr (key : String) (v : Option α) : Extending (ObjectDiff.attr key v : ObjM α) :=
  of_state fun _ => by cases v <;> rfl

lemma getDie (u : CompUnit) (off : Nat) : Extending (ObjectDiff.getDie u off : ObjM Die) :=
  of_state fun _ => by unfold ObjectDiff.getDie; cases u.get? off <;> rfl

lemma ite {c : Prop} [Decidable c] {x y : ObjM α} (hx : Extending x) (hy : Extending y) :
    Extending (if c then x else y) := by
  split
  · exact hx
  · exact hy

lemma onSymtab (x : PyM (Option (PyDict String Bool)) α) : Extending (ObjectDiff.onSymtab x) :=
  fun _ => ObjState.Extends.of_eq rfl rfl rfl

lemma of_run {x : ObjM α} (hx : Extending x) {s s' : ObjState}
    {r : Except Err α} (h : x s = (r, s')) : ObjState.Extends s s' := by
  simpa only [h] using hx s

lemma onTypes {x : RecM α} (hx : ∀ σ, Frame σ.heap.length σ.heap (x σ).2) :
    Extending (ObjectDiff.onTypes x) := fun s => by
  simpa only [onTypes_apply] using ObjState.Extends.of_frame (hx s.types)

end Extending

/-! ### The operations of `process_file` -/

lemma alloc_frame (o : CObj) (σ : TypeState) : Frame σ.heap.length σ.heap (alloc o σ).2 :=
  ⟨by simp, fun b hb => by simp [List.getElem?_append_left hb]⟩

lemma dieToFunclikeArgs_frame (u : CompUnit) (fuel : Nat) (d : Die) (σ : TypeState) :
    Frame σ.heap.length σ.heap (dieToFunclikeArgs u (dieToCtype u fuel) d σ).2 := by
  by_cases htag : d.tag = .subroutineType ∨ d.tag = .subprogram
  · exact (Inv.dieToFunclikeArgs (I := Frame σ.heap.length σ.heap) (fun _ _ _ => trivial)
      (fun _ _ d' _ => Inv.of_state fun σ₁ hσ₁ => hσ₁.trans (dieToCtype_frame u fuel d' σ₁))
      htag).state ⟨le_rfl, fun _ _ => rfl⟩
  · simp only [dieToFunclikeArgs, if_pos (not_or.1 htag), PyM.bind_apply, PyM.throw_apply]
    exact ⟨le_rfl, fun _ _ => rfl⟩

lemma newCFunction_extending (u : CompUnit) (fuel : Nat) (d : Die) (static : Bool) :
    Extending (newCFunction u fuel d static) := by
  refine Extending.onTypes fun σ => ?_
  simp only [PyM.bind_apply]
  have h₁ := dieToFunclikeArgs_frame u fuel d σ
  revert h₁
  rcases dieToFunclikeArgs u (dieToCtype u fuel) d σ with ⟨_ | ⟨rt, args⟩, σ₁⟩
  · exact id
  · exact fun h₁ => by simpa using h₁.trans (alloc_frame _ σ₁)

lemma newCFunction_ok {u : CompUnit} {fuel : Nat} {d : Die} {static : Bool} {s s₁ : ObjState}
    {a : Nat} {returnType : CRef} {args : List (CRef × Option String)}
    (h : newCFunction u fuel d static s = (.ok (a, returnType, args), s₁)) :
    s₁.types.heap[a]? = some (.function d.offset (dieGetName d) returnType args static) := by
  simp only [newCFunction, onTypes_apply, PyM.bind_apply] at h
  revert h
  rcases dieToFunclikeArgs u (dieToCtype u fuel) d s.types with ⟨_ | ⟨rt, args'⟩, σ⟩
  · rintro ⟨⟩
  · simp only [alloc_apply, PyM.pure_apply, Prod.mk.injEq, Except.ok.injEq]
    rintro ⟨⟨rfl, rfl, rfl⟩, rfl⟩
    simp

lemma func_apply (name : Option String) (s : ObjState) :
    func name s = (.ok ((s.funcs.get name).map Prod.fst), s) := rfl

lemma PyM.bind_pure_snd {σ α β : Type} (x : PyM σ α) (g : α → β) (s : σ) :
    ((x >>= fun a => pure (g a)) s).2 = (x s).2 := by
  rw [PyM.bind_apply]
  rcases x s with ⟨_ | _, _⟩ <;> rfl

lemma newCFunction_bind_extends {β : Type} {u : CompUnit} {fuel : Nat} {d : Die}
    {static : Bool} {f : Nat × CRef × List (CRef × Option String) → ObjM β} {s : ObjState}
    (hf : ∀ a returnType args s₁,
      newCFunction u fuel d static s = (.ok (a, returnType, args), s₁) →
        ObjState.Extends s₁ (f (a, returnType, args) s₁).2) :
    ObjState.Extends s ((newCFunction u fuel d static >>= f) s).2 := by
  have hnew := newCFunction_extending u fuel d static s
  rw [PyM.bind_apply]
  revert hnew
  rcases hn : newCFunction u fuel d static s with ⟨_ | ⟨a, returnType, args⟩, s₁⟩
  · exact id
  · exact fun h => h.trans (hf a returnType args s₁ hn)

lemma defFunc_extends (ctxName : String) {a : Nat} {name : Option String} (returnType : CRef)
    (args : List (CRef × Option String)) (inline : Bool) {s : ObjState}
    (ha : ∃ die returnType' args',
      s.types.heap[a]? = some (.function die name returnType' args' false)) :
    ObjState.Extends s (defFunc ctxName a name returnType args inline s).2 := by
  simp only [defFunc, PyM.bind_apply, PyM.get_apply]
  rcases hn : s.funcs.get name with _ | ⟨f, _ | _⟩
  · exact ObjState.Extends.of_record hn ha true
  · simp only [Bool.false_eq_true, if_false]
    refine ⟨by simp, fun b _ => ?_, fun _ _ h => h, fun _ _ hn' h => by simp [hn'] at h,
      fun _ _ hk => ⟨[], hk⟩, fun _ _ hk hk' => by simp [hk] at hk', id⟩
    simp only [onTypes_apply, updateObj_apply, List.getElem?_modify]
    by_cases hfb : f = b <;> cases s.types.heap[b]? <;> simp [hfb]
  · simp only [if_true]
    cases inline
    · exact Extending.raise _ s
    · exact Extending.ret _ s

lemma declare_extending (u : CompUnit) (fuel : Nat) (d : Die) :
    Extending (do
      match ← func (dieGetName d) with
      | some cfunc => return CRef.obj cfunc
      | none =>
        let (cfunc, _) ← newCFunction u fuel d false
        declFunc cfunc (dieGetName d)
        return .obj cfunc) := fun s => by
  rw [PyM.bind_apply, func_apply]
  rcases hn : s.funcs.get (dieGetName d) with _ | p
  · dsimp only [Option.map_none']
    refine newCFunction_bind_extends fun a _ _ s₁ hnew => ?_
    have hn₁ : s₁.funcs.get (dieGetName d) = none := by
      rw [← hn, ← (newCFunction_frame u fuel d false s).1, hnew]
    rw [PyM.bind_pure_snd, declFunc_apply]
    exact ObjState.Extends.of_record hn₁ ⟨_, _, _, newCFunction_ok hnew⟩ false
  · exact ObjState.Extends.refl s

lemma dieToCtypeOrFunc_extending (ctxName : String) (u : CompUnit) (t : SymbolTable)
    (fuel : Nat) (d : Die) : Extending (dieToCtypeOrFunc ctxName u t fuel d) := by
  unfold dieToCtypeOrFunc
  split
  · exact Extending.onTypes (dieToCtype_frame u fuel d)
  · refine Extending.bind (Extending.onSymtab _) fun ⟨inObj, static⟩ => ?_
    dsimp only
    split_ifs
    · exact Extending.bind (newCFunction_extending _ _ _ _) fun _ => Extending.ret _
    · refine fun s => newCFunction_bind_extends fun a returnType args s₁ hnew => ?_
      rw [PyM.bind_pure_snd]
      exact defFunc_extends ctxName returnType args d.inline ⟨_, _, _, newCFunction_ok hnew⟩
    · exact declare_extending u fuel d

lemma getOrCreate_extending (path : String) : Extending (getOrCreate path) := fun s => by
  rw [getOrCreate_apply]
  split
  · rename_i hnone
    refine ObjState.Extends.of_headers (fun k h hk => ?_) (fun k h' hk hk' => ?_)
      (fun h => PyDict.nodup_keys_set h _ _)
    · have hkp : k ≠ path := fun hkp => by rw [hkp] at hk; simp [hk] at hnone
      exact ⟨[], by simpa [PyDict.get_set, hkp] using hk⟩
    · by_cases hkp : k = path
      · subst hkp
        simp only [PyDict.get_set, if_true, Option.some.injEq] at hk'
        exact ⟨[], hk'.symm⟩
      · simp [PyDict.get_set, hkp, hk] at hk'
  · exact ObjState.Extends.refl s

lemma fileDef_extending (path : String) (name : Option String) (entry : CRef) (line : Nat) :
    Extending (fileDef path name entry line) := fun s => by
  rw [fileDef_apply]
  refine ObjState.Extends.of_headers (fun k h hk => ?_) (fun k h' hk hk' => ?_)
    (fun h => by rwa [PyDict.keys_modify])
  · by_cases hkp : k = path
    · subst hkp
      exact ⟨[(name, entry, line)], by simp [PyDict.get_modify, hk]; rfl⟩
    · exact ⟨[], by simp [PyDict.get_modify, hkp, hk]⟩
  · simp only [PyDict.get_modify] at hk'
    split at hk' <;> simp_all

lemma createFileEntries_extending (removePrefixes : String → String) (dirs : List String) :
    ∀ xs, Extending (createFileEntries removePrefixes dirs xs)
  | [] => Extending.ret _
  | _ :: xs => Extending.bind (Extending.liftExcept _) fun _ =>
      Extending.bind (getOrCreate_extending _) fun _ =>
        Extending.bind (createFileEntries_extending removePrefixes dirs xs) fun _ =>
          Extending.ret _

lemma processDie_extending (ctxName : String) (u : CompUnit) (symtab : SymbolTable)
    (fuel : Nat) (fileEntries : List String) (d : Die) :
    Extending (processDie ctxName u symtab fuel fileEntries d) := by
  have htypes : ∀ (d' : Die), Extending (onTypes (dieGetAtType u (dieToCtype u fuel) d')) :=
    fun d' => Extending.onTypes (dieGetAtType_frame (dieToCtype_frame u fuel) d')
  unfold processDie
  split
  · exact Extending.ret _
  · refine Extending.bind (Extending.liftExcept _) fun declFile =>
      Extending.bind (Extending.attr _ _) fun declLine => Extending.ite ?_ ?_
    · split
      · refine Extending.bind (Extending.getDie _ _) fun spec => ?_
        dsimp only
        refine Extending.ite (Extending.bind (Extending.raise _) fun _ => ?_)
          (Extending.bind (Extending.ret _) fun _ => ?_) <;>
        exact Extending.bind (htypes spec) fun _ =>
          Extending.bind (Extending.onTypes (alloc_frame _)) fun _ => fileDef_extending _ _ _ _
      · exact Extending.bind (Extending.onSymtab _) fun _ =>
          Extending.bind (htypes d) fun _ =>
            Extending.bind (Extending.onTypes (alloc_frame _)) fun _ => fileDef_extending _ _ _ _
    · exact Extending.ite (Extending.ret _) (Extending.bind
        (dieToCtypeOrFunc_extending _ _ _ _ _) fun _ => fileDef_extending _ _ _ _)

lemma processDies_extending (ctxName : String) (u : CompUnit) (symtab : SymbolTable)
    (fuel : Nat) (fileEntries : List String) :
    ∀ ds, Extending (processDies ctxName u symtab fuel fileEntries ds)
  | [] => Extending.ret _
  | d :: ds => Extending.bind (processDie_extending ctxName u symtab fuel fileEntries d) fun _ =>
      processDies_extending ctxName u symtab fuel fileEntries ds

lemma processFile_extending (ctxName : String) (removePrefixes : String → String) (fuel : Nat)
    (obj : ObjFile) : Extending (processFile ctxName removePrefixes fuel obj) := by
  unfold processFile
  split
  · exact Extending.ret _
  · exact Extending.bind (fun _ => ObjState.Extends.of_eq rfl rfl rfl) fun _ =>
      Extending.bind (createFileEntries_extending _ _ _) fun _ => processDies_extending _ _ _ _ _ _

lemma processFiles_extending (ctxName : String) (removePrefixes : String → String) (fuel : Nat) :
    ∀ objs, Extending (processFiles ctxName removePrefixes fuel objs)
  | [] => Extending.ret _
  | obj :: objs => Extending.bind (processFile_extending ctxName removePrefixes fuel obj) fun _ =>
      processFiles_extending ctxName removePrefixes fuel objs

/-- Every run of `main`'s loop over the objects of a library, whether it ends or raises,
extends the state it starts from: heap objects are only added, and an existing one changes
only in the signature of a `CFunction`; a name's record in the context, once made, is never
replaced and never changes its `defined` flag, and a new one holds a non-static `CFunction`
of its name; headers are never lost and change only by names filed into them, and a
header created on the way is `HeaderFile(path)` of its key with names filed into it. -/
theorem processFiles_extends (ctxName : String) (removePrefixes : String → String)
    (fuel : Nat) (objs : List ObjFile) (s : ObjState) :
    ObjState.Extends s (processFiles ctxName removePrefixes fuel objs s).2 :=
  processFiles_extending ctxName removePrefixes fuel objs s

lemma ObjState.Coherent.fresh_context {s : ObjState} (hs : s.Coherent) :
    ({ s with funcs := [] } : ObjState).Coherent :=
  ⟨fun _ _ h => (by cases h), hs.header_path, hs.header_aligned, hs.headers_nodup⟩

/-- From a coherent state, such as `main`'s empty `header_files`, every run of `main`'s
collection over the libraries, whether it ends or raises, leaves a coherent state: each
context record holds a non-static `CFunction` of its name, so the `f` of `def_func`'s
`f.return_type = ...` is always a function; and each header is named by its key and has
the same names, in the same order, in `defs` and `def_lines`. -/
theorem processLibraries_coherent (ctxPrefix : String) (removePrefixes : String → String)
    (fuel : Nat) : ∀ (libs : List (String × List ObjFile)) (s : ObjState), s.Coherent →
    (processLibraries ctxPrefix removePrefixes fuel libs s).2.Coherent
  | [], _, hs => hs
  | (name, objs) :: libs, s, hs => by
    simp only [processLibraries, PyM.bind_apply, PyM.modify_apply]
    have hrun := (processFiles_extending (ctxPrefix ++ name) removePrefixes fuel objs
      { s with funcs := [] }).coherent hs.fresh_context
    revert hrun
    rcases processFiles (ctxPrefix ++ name) removePrefixes fuel objs { s with funcs := [] }
      with ⟨_ | _, s₁⟩
    · exact id
    · exact processLibraries_coherent ctxPrefix removePrefixes fuel libs s₁

theorem processLibraries_coherent_empty :
    ObjState.empty.Coherent ∧
      (processLibraries "vendor_" id 20 [("lib", [objB, objA])] .empty).2.Coherent :=
  have hempty : ObjState.empty.Coherent :=
    ⟨fun _ _ h => (by cases h), fun _ _ h => (by cases h), fun _ _ h => (by cases h),
      List.nodup_nil⟩
  ⟨hempty, processLibraries_coherent "vendor_" id 20 [("lib", [objB, objA])] .empty hempty⟩

end ObjectDiff
