import ObjectDiff.Termination

/-!
# What single calls return

Specifications of one call of `die_to_ctype`, `die_get_at_type` and the parameter loop of
`die_to_funclike_args`, each followed by a run of the model on a small unit where the
script departs from its specification: a type entered inside a cycle is built twice, a
`KeyError` raised below a referenced type is reported as `void`, and a parameter's name is
looked up on the wrong entry.
-/

namespace ObjectDiff

lemma dieToCtype_cached (u : CompUnit) (fuel : Nat) {d : Die} {s : TypeState} {r : CRef}
    (h : s.cache d.offset = some r) : dieToCtype u (fuel + 1) d s = (.ok r, s) := by
  rw [dieToCtype_succ, h]

/-- The empty cache and heap. -/
def TypeState.empty : TypeState := ⟨[], fun _ => none⟩

/-- Entered at the typedef, the cycle `node_t -> struct node -> node_t *` builds the typedef
twice: the pointer inside the structure links to the first object (cell 1), the cache
and every later call answer with the second (cell 3). -/
theorem nodeTypedef_built_twice :
    let run : Except Err CRef × TypeState := dieToCtype nodeUnit 25 nodeTypedef .empty
    run.1 = .ok (.obj 3) ∧
      run.2.heap[0]? = some (.struct 2 (some "node") [(some "next", .obj 2)] [(some "next", 0)]) ∧
      run.2.heap[2]? = some (.pointer 4 (.obj 1)) ∧
      run.2.heap[1]? = some (.typedef 1 "node_t" (.obj 0)) ∧
      (dieToCtype nodeUnit 25 nodeTypedef run.2).1 = .ok (.obj 3) := by
  decide

lemma dieGetAtType_of_type_none (u : CompUnit) (recurse : Die → RecM CRef) {d : Die}
    (h : d.type = none) (s : TypeState) : dieGetAtType u recurse d s = (.ok .void, s) := by
  simp [dieGetAtType, h, PyM.tryCatch_apply, PyM.bind_apply]

lemma dieGetAtType_of_type_some (u : CompUnit) (recurse : Die → RecM CRef) {d t : Die}
    (h : (d.type >>= u.get?) = some t) (s : TypeState) :
    dieGetAtType u recurse d s = match recurse t s with
      | (.error (.keyError _), s') => (.ok .void, s')
      | r => r := by
  obtain ⟨off, hoff, hget⟩ := Option.bind_eq_some.mp h
  simp only [dieGetAtType, PyM.tryCatch_apply, PyM.bind_apply, hoff, attr_some, getDie, hget,
    PyM.pure_apply]
  rcases recurse t s with ⟨e | r, s'⟩
  · cases e <;> rfl
  · rfl

/-- A typedef of a structure whose member lacks `DW_AT_data_member_location`. -/
def badMemberUnit : CompUnit where
  dies := [{ offset := 1, tag := .typedef, name := some "s_t", type := some 2 },
    { offset := 2, tag := .structureType, name := some "s", children := [3] },
    { offset := 3, tag := .member, name := some "x", type := some 4 },
    { offset := 4, tag := .baseType, name := some "int" }]
  top := [1, 2]
  lineProgram := ⟨4, [], []⟩

/-- The structure of `badMemberUnit`. -/
def badMemberStruct : Die :=
  { offset := 2, tag := .structureType, name := some "s", children := [3] }

/-- `die_get_at_type` on the typedef answers `void` although the typedef has `DW_AT_type`:
reconstructing the structure raised `KeyError`, which is masked. The structure stays
cached half built, and a later `die_to_ctype` of it returns that object without raising,
while reconstructing it afresh raises. -/
theorem dieGetAtType_masks_member_keyError :
    let typedef : Die := { offset := 1, tag := .typedef, name := some "s_t", type := some 2 }
    let run := dieGetAtType badMemberUnit (dieToCtype badMemberUnit 10) typedef .empty
    typedef.type = some 2 ∧ run.1 = .ok .void ∧
      (dieToCtype badMemberUnit 10 badMemberStruct run.2).1 = .ok (.obj 0) ∧
      run.2.heap[0]? = some (.struct 2 (some "s") [(some "x", .obj 1)] []) ∧
      (dieToCtype badMemberUnit 10 badMemberStruct .empty).1 =
        .error (.keyError "DW_AT_data_member_location") := by
  decide

/-- The children `die_to_funclike_args` turns into arguments. -/
def Die.isArg (c : Die) : Bool :=
  c.tag == .formalParameter || c.tag == .unspecifiedParameters

lemma paramName_ok {σ : Type} {d a : Die} {s s' : σ} {y : Option String}
    (h : paramName d a s = (.ok y, s')) :
    y = if d.name.isSome then a.name else none := by
  unfold paramName at h
  split at h
  · rcases hn : a.name with _ | n <;>
      simp only [hn, attr, map_eq_pure_bind, PyM.bind_apply, PyM.throw_apply, PyM.pure_apply] at h <;>
      cases h
    simp_all
  · cases h; simp_all

lemma funclikeArgs_names {u : CompUnit} {recurse : Die → RecM CRef} {d : Die} :
    ∀ {cs : List Die} {s s' : TypeState} {args : List (CRef × Option String)},
    funclikeArgs u recurse d cs s = (.ok args, s') →
    args.map Prod.snd = (cs.filter Die.isArg).map fun c =>
      if c.tag = .formalParameter ∧ d.name.isSome then c.name else none
  | [], _, _, _, h => by cases h; rfl
  | c :: cs, s, s', args, h => by
    simp only [funclikeArgs] at h
    by_cases hp : c.tag = .formalParameter
    · have hc : c.isArg := by simp [Die.isArg, hp]
      rw [if_pos hp] at h
      obtain ⟨y, s₁, hy, h⟩ := PyM.bind_ok h
      obtain ⟨t, _, -, h⟩ := PyM.bind_ok h
      obtain ⟨t', _, -, h⟩ := PyM.bind_ok h
      obtain ⟨ty, _, -, h⟩ := PyM.bind_ok h
      obtain ⟨rest, _, hrest, h⟩ := PyM.bind_ok h
      cases h
      simp [List.filter_cons, hc, hp, paramName_ok hy, funclikeArgs_names hrest]
    · rw [if_neg hp] at h
      by_cases hu : c.tag = .unspecifiedParameters
      · rw [if_pos hu] at h
        obtain ⟨rest, _, hrest, h⟩ := PyM.bind_ok h
        cases h
        simp [List.filter_cons, Die.isArg, hu, funclikeArgs_names hrest]
      · have hc : c.isArg = false := by simp [Die.isArg, hp, hu]
        rw [if_neg hu] at h
        split at h
        · simp [List.filter_cons, hc, funclikeArgs_names h]
        · cases h

/-- A subroutine type `void (*)(int x)`: the unnamed type, its named parameter, `int`. -/
def callbackUnit : CompUnit where
  dies := [{ offset := 1, tag := .subroutineType, children := [2] },
    { offset := 2, tag := .formalParameter, name := some "x", type := some 3 },
    { offset := 3, tag := .baseType, name := some "int" }]
  top := [1]
  lineProgram := ⟨4, [], []⟩

/-- The parameter named `x` of an unnamed subroutine type gets no name, and a named
subprogram whose parameter has no name raises `KeyError` where the parameter should get
none. -/
theorem funclikeArgs_parameter_name :
    let callback : Die := { offset := 1, tag := .subroutineType, children := [2] }
    let prototype : Die := { offset := 5, tag := .subprogram, name := some "f", children := [6] }
    let protoUnit : CompUnit := ⟨[prototype, { offset := 6, tag := .formalParameter, type := some 3 },
      { offset := 3, tag := .baseType, name := some "int" }], [5], ⟨4, [], []⟩⟩
    (callbackUnit.get? 2).map Die.name = some (some "x") ∧
      (dieToFunclikeArgs callbackUnit (dieToCtype callbackUnit 5) callback .empty).1 =
        .ok (.void, [(.obj 0, none)]) ∧
      (dieToFunclikeArgs protoUnit (dieToCtype protoUnit 5) prototype .empty).1 =
        .error (.keyError "DW_AT_name") := by
  decide

/-! ### The cache across calls -/

lemma dieToCtype_keeps_entry (u : CompUnit) {o : Nat} {r : CRef} :
    ∀ fuel d, Inv (fun s : TypeState => s.cache o = some r) (fun _ => True) (dieToCtype u fuel d)
  | 0, _ => Inv.raise trivial
  | fuel + 1, d => fun s hs => by
    rw [dieToCtype_succ]
    rcases hc : s.cache d.offset with _ | r'
    · have hne : o ≠ d.offset := fun h => by rw [← h, hs] at hc; cases hc
      have hset : ∀ (c : CObj) (s : TypeState), s.cache o = some r →
          (cacheObj d c s).2.cache o = some r := fun c s h => by
        simpa [cacheObj_apply, Function.update_noteq hne] using h
      exact Inv.buildCtype (J := fun _ s => s.cache o = some r) (fun _ _ _ => trivial) hset hset
        (fun _ _ _ h => h) (fun _ _ h => h) (fun _ _ d' _ => by
          split
          · exact fun _ => dieToCtype_keeps_entry u fuel d'
          · exact dieToCtype_keeps_entry u fuel d') s hs
    · exact hs

/-- The two branches that return the object their `DW_AT_type` refers to instead of one
of their own: a pointer to a subroutine type, and a `const` or `volatile` over an array. -/
def PassesThrough (u : CompUnit) (d : Die) (h : Heap) (r : CRef) : Prop :=
  (d.tag = .pointerType ∧ ∃ t e, d.type = some t ∧ u.get? t = some e ∧ e.tag = .subroutineType) ∨
    ((d.tag = .constType ∨ d.tag = .volatileType) ∧ isCArray h r = true)

lemma Triple.of_true {σ α : Type} {P : σ → Prop} (x : PyM σ α) :
    Triple P x (fun _ _ => True) (fun _ _ => True) := fun s _ => by
  rcases x s with ⟨_ | _, _⟩ <;> trivial

lemma buildCtype_commits {u : CompUnit} {recurse : Die → RecM CRef}
    (hrec : ∀ d' o r, Inv (fun s : TypeState => s.cache o = some r) (fun _ => True) (recurse d'))
    (d : Die) :
    Triple (fun _ => True) (buildCtype u recurse d)
      (fun r s => s.cache d.offset = some r ∨ PassesThrough u d s.heap r) (fun _ _ => True) := by
  have hcommit : ∀ {P : TypeState → Prop} (c : CObj), Triple P (cacheCtype d c)
      (fun r s => s.cache d.offset = some r ∨ PassesThrough u d s.heap r) (fun _ _ => True) :=
    fun c s _ => by simp [cacheCtype_apply]
  have hthen : ∀ {α : Type} {P : TypeState → Prop} {f : α → RecM CRef} (x : RecM α),
      (∀ a, Triple (fun _ => True) (f a)
        (fun r s => s.cache d.offset = some r ∨ PassesThrough u d s.heap r) (fun _ _ => True)) →
      Triple P (x >>= f)
        (fun r s => s.cache d.offset = some r ∨ PassesThrough u d s.heap r) (fun _ _ => True) :=
    fun x hf => Triple.bind (Triple.of_true x) hf
  have hloop : ∀ (c : CObj) (x : Nat → RecM Unit),
      (∀ a, Inv (fun s : TypeState => s.cache d.offset = some (.obj a)) (fun _ => True) (x a)) →
      Triple (fun _ => True) (cacheObj d c >>= fun a => x a >>= fun _ => pure (CRef.obj a))
        (fun r s => s.cache d.offset = some r ∨ PassesThrough u d s.heap r) (fun _ _ => True) :=
    fun c x hx => Triple.bind (R := fun a s => s.cache d.offset = some (.obj a))
      (fun s _ => by simp [cacheObj_apply]) fun a =>
        Triple.bind (Triple.conseq (hx a) (fun _ h => h) (fun _ _ h => h) fun _ _ _ => trivial)
          fun _ => Triple.ret fun _ h => .inl h
  have hupd : ∀ a o r f, Inv (fun s : TypeState => s.cache o = some r) (fun _ => True)
      (updateObj a f) := fun _ _ _ _ _ h => h
  cases htag : d.tag with
  | pointerType =>
    simp only [buildCtype, htag]
    refine hthen _ fun of => ?_
    split
    · rename_i t hty
      refine Triple.bind (Triple.getDie (Q := fun e _ => u.get? t = some e)
        (fun e he _ _ => he) fun _ _ _ => trivial) fun e => ?_
      split_ifs with hsub
      · exact Triple.ret fun _ he => .inr (.inl ⟨htag, t, e, hty, he, hsub⟩)
      · exact hthen _ fun _ => hcommit _
    · exact hcommit _
  | arrayType | subroutineType | baseType =>
    simp only [buildCtype, htag]
    exact hthen _ fun _ => hcommit _
  | structureType | unionType =>
    simp only [buildCtype, htag]
    exact hloop _ _ fun a => Inv.memberLoop (fun _ _ _ => trivial) (hupd a _ _)
      fun _ _ _ _ _ d' _ => hrec d' _ _
  | enumerationType =>
    simp only [buildCtype, htag]
    exact hloop _ _ fun a => Inv.enumLoop (fun _ _ _ => trivial) (hupd a _ _)
  | constType | volatileType =>
    simp only [buildCtype, htag]
    refine hthen _ fun of => Triple.bind (Triple.get (Q := fun s₀ s => s = s₀) fun _ _ => rfl)
      fun s₀ => ?_
    split_ifs with harr
    · exact Triple.ret fun s hs => .inr (.inr ⟨by simp [htag], hs ▸ harr⟩)
    all_goals exact hthen _ fun _ => hcommit _
  | typedef =>
    simp only [buildCtype, htag]
    exact hthen _ fun _ => hthen _ fun _ => hcommit _
  | _ =>
    simp only [buildCtype, htag]
    exact Triple.raise fun _ _ => trivial

/-- The cache of `die_to_ctype` as a memo table. Every entry present when a call starts is
still there, unchanged, when the call ends, whether it returns or raises. A call that
returns `r` for `d` leaves `r` in the cache under `d`'s offset, so that every later call
on `d` returns `r` and changes nothing; the only exceptions are a pointer to a subroutine
type and a `const` or `volatile` over an array, which return the object they refer to
without caching it. -/
theorem dieToCtype_memo (u : CompUnit) (fuel : Nat) (d : Die) (s : TypeState) :
    (∀ o r, s.cache o = some r → (dieToCtype u fuel d s).2.cache o = some r) ∧
      ∀ r s', dieToCtype u fuel d s = (.ok r, s') →
        (s'.cache d.offset = some r ∧ ∀ fuel', dieToCtype u (fuel' + 1) d s' = (.ok r, s')) ∨
          PassesThrough u d s'.heap r := by
  refine ⟨fun o r h => (dieToCtype_keeps_entry u fuel d).state h, fun r s' hrun => ?_⟩
  have hc : s'.cache d.offset = some r ∨ PassesThrough u d s'.heap r := by
    cases fuel with
    | zero => cases hrun
    | succ fuel =>
      have := buildCtype_commits (u := u) (fun d' _ _ => dieToCtype_keeps_entry u fuel d') d s trivial
      rw [dieToCtype_succ] at hrun
      split at hrun
      · rename_i r₀ h₀
        cases hrun
        exact .inl h₀
      · rwa [hrun] at this
  exact hc.imp (fun h => ⟨h, fun fuel' => dieToCtype_cached u fuel' h⟩) id

end ObjectDiff
