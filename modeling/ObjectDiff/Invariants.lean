import ObjectDiff.Triple

/-!
# Invariants of the reconstruction

`Inv I E x`: run from a state satisfying `I`, `x` returns or raises in a state satisfying
`I`, and whatever it raises satisfies `E`. Each combinator and each helper of
`die_to_ctype` gets one lemma; `Inv.buildCtype` then derives an invariant of one level of
`die_to_ctype` from what creating an object, assigning a member and the nested calls do.
Termination and the frame of a call are instances of it.
-/

namespace ObjectDiff

/-- Structures and unions: the entries cached before their members are resolved. -/
def Die.isAggregate (d : Die) : Bool :=
  d.tag == .structureType || d.tag == .unionType

/-- The offsets `die_to_funclike_args` reconstructs: the entry's own `DW_AT_type` and its
formal parameters'. -/
def funclikeRefs (u : CompUnit) (d : Die) : List Nat :=
  d.type.toList ++ (u.children d).filterMap fun c =>
    if c.tag = .formalParameter then c.type else none

/-- The offsets whose entries `buildCtype` passes to the reconstruction: a member's or
parameter's `DW_AT_type` for structures, unions and subroutine types, and the entry's own
`DW_AT_type` for subroutine types and the kinds that wrap one type. -/
def typeRefs (u : CompUnit) (d : Die) : List Nat :=
  match d.tag with
  | .structureType | .unionType =>
    (u.children d).filterMap fun c => if c.tag = .member then c.type else none
  | .subroutineType => funclikeRefs u d
  | .pointerType | .arrayType | .constType | .volatileType | .typedef => d.type.toList
  | _ => []

/-- `x` keeps `I`, and every exception it raises satisfies `E`. -/
def Inv {α : Type} (I : TypeState → Prop) (E : Err → Prop) (x : RecM α) : Prop :=
  Triple I x (fun _ => I) (fun e s => E e ∧ I s)

namespace Inv

variable {α β : Type} {I : TypeState → Prop} {E : Err → Prop}

lemma bind {x : RecM α} {f : α → RecM β} (hx : Inv I E x) (hf : ∀ a, Inv I E (f a)) :
    Inv I E (x >>= f) :=
  Triple.bind hx hf

lemma ret (a : α) : Inv I E (pure a) := Triple.ret fun _ h => h

lemma raise {e : Err} (he : E e) : Inv I E (throw e : RecM α) := Triple.raise fun _ h => ⟨he, h⟩

lemma raise_bind {e : Err} {f : α → RecM β} (he : E e) : Inv I E (throw e >>= f) := by
  intro s hs
  rw [PyM.bind_apply]
  exact ⟨he, hs⟩

lemma get : Inv I E (get : RecM TypeState) := Triple.get fun _ h => h

lemma map {x : RecM α} {f : α → β} (hx : Inv I E x) : Inv I E (f <$> x) := by
  rw [map_eq_pure_bind]
  exact bind hx fun _ => ret _

lemma tryCatch {x : RecM α} {h : Err → RecM α} (hx : Inv I E x)
    (hh : ∀ e, E e → Inv I E (h e)) : Inv I E (tryCatch x h) :=
  Triple.tryCatch hx fun e s ⟨he, hs⟩ => hh e he s hs

lemma of_cache {d : Die} {o : CObj}
    (h : ∀ s, I s → I (cacheObj d o s).2) : Inv I E (cacheCtype d o) := fun s hs => by
  simpa [cacheCtype_apply, cacheObj_apply] using h s hs

lemma state {x : RecM α} (h : Inv I E x) {s : TypeState} (hs : I s) : I (x s).2 := by
  have := h s hs
  revert this
  rcases x s with ⟨_ | _, _⟩
  · exact And.right
  · exact id

lemma of_state {x : RecM α} (h : ∀ s, I s → I (x s).2) : Inv I (fun _ => True) x := by
  intro s hs
  have := h s hs
  revert this
  rcases x s with ⟨_ | _, _⟩
  · exact And.intro trivial
  · exact id

section Helpers

variable (hE : ∀ e, e ≠ .outOfFuel → (∀ m, e ≠ .valueError m) → E e)
include hE

lemma attr {key : String} {v : Option α} : Inv I E (ObjectDiff.attr key v) := by
  cases v
  · exact raise (hE _ (by simp) (by simp))
  · exact ret _

lemma attr_bind {key : String} {v : Option α} {f : α → RecM β}
    (hf : ∀ a, v = some a → Inv I E (f a)) : Inv I E (ObjectDiff.attr key v >>= f) := by
  cases v with
  | some a => simp only [ObjectDiff.attr, pure_bind]; exact hf a rfl
  | none => exact raise_bind (hE _ (by simp) (by simp))

lemma getDie_bind {u : CompUnit} {off : Nat} {f : Die → RecM β}
    (hf : ∀ d, u.get? off = some d → Inv I E (f d)) : Inv I E (ObjectDiff.getDie u off >>= f) := by
  unfold ObjectDiff.getDie
  split <;> rename_i h
  · simp only [pure_bind]; exact hf _ h
  · exact raise_bind (hE _ (by simp) (by simp))

lemma dieGetAtType {u : CompUnit} {recurse : Die → RecM CRef} {d : Die}
    (hrec : ∀ t, d.type = some t → ∀ d', u.get? t = some d' → Inv I E (recurse d')) :
    Inv I E (ObjectDiff.dieGetAtType u recurse d) := by
  unfold ObjectDiff.dieGetAtType
  refine tryCatch (attr_bind hE fun t ht => getDie_bind hE fun d' hd' => hrec t ht d' hd')
    fun e he => ?_
  split
  · exact ret _
  · exact raise he

lemma funclikeArgs {u : CompUnit} {recurse : Die → RecM CRef} {d : Die} :
    ∀ {cs : List Die}, (∀ c ∈ cs, c.tag = .formalParameter → ∀ t, c.type = some t →
      ∀ d', u.get? t = some d' → Inv I E (recurse d')) →
    Inv I E (ObjectDiff.funclikeArgs u recurse d cs)
  | [], _ => ret _
  | c :: cs, hrec => by
    have ih : Inv I E (ObjectDiff.funclikeArgs u recurse d cs) :=
      funclikeArgs fun c' hc' => hrec c' (List.mem_cons_of_mem _ hc')
    simp only [ObjectDiff.funclikeArgs]
    refine Triple.ite (fun htag => ?_) fun _ => Triple.ite (fun _ => bind ih fun _ => ret _)
      fun _ => Triple.ite (fun _ => ih) fun _ => raise (hE _ (by simp) (by simp))
    have hc := hrec c (List.mem_cons_self _ _) htag
    refine bind (Triple.ite (fun _ => map (attr hE)) fun _ => ret _) fun y =>
      attr_bind hE fun t ht => getDie_bind hE fun d' hd' => bind (hc t ht d' hd') fun ty =>
        bind ih fun _ => ret _

lemma dieToFunclikeArgs {u : CompUnit} {recurse : Die → RecM CRef} {d : Die}
    (hrec : ∀ t ∈ funclikeRefs u d, ∀ d', u.get? t = some d' → Inv I E (recurse d'))
    (htag : d.tag = .subroutineType ∨ d.tag = .subprogram) :
    Inv I E (ObjectDiff.dieToFunclikeArgs u recurse d) := by
  simp only [funclikeRefs, List.mem_append, Option.mem_toList, List.mem_filterMap] at hrec
  have hcheck : ¬(d.tag ≠ .subroutineType ∧ d.tag ≠ .subprogram) := by
    rcases htag with h | h <;> simp [h]
  simp only [ObjectDiff.dieToFunclikeArgs, if_neg hcheck]
  refine bind (ret _) fun _ => bind (dieGetAtType hE fun t ht => hrec t (.inl ht)) fun _ =>
    bind (funclikeArgs hE fun c hc hct t ht => hrec t (.inr ⟨c, ?_, ?_⟩)) fun _ => ret _
  · simpa [CompUnit.children] using hc
  · simp [hct, ht]

lemma memberLoop {u : CompUnit} {recurse : Die → RecM CRef} {a : Nat} {withOffsets : Bool}
    (hupd : ∀ f, Inv I E (updateObj a f)) :
    ∀ {cs : List Die}, (∀ c ∈ cs, c.tag = .member → ∀ t, c.type = some t →
      ∀ d', u.get? t = some d' → Inv I E (recurse d')) →
    Inv I E (ObjectDiff.memberLoop u recurse a withOffsets cs)
  | [], _ => ret _
  | c :: cs, hrec => by
    have ih : Inv I E (ObjectDiff.memberLoop u recurse a withOffsets cs) :=
      memberLoop hupd fun c' hc' => hrec c' (List.mem_cons_of_mem _ hc')
    simp only [ObjectDiff.memberLoop]
    split
    · rename_i htag
      refine bind (dieGetAtType hE (hrec c (List.mem_cons_self _ _) htag)) fun ty =>
        bind (hupd _) fun _ => ?_
      split
      · exact attr_bind hE fun _ _ => bind (hupd _) fun _ => ih
      · exact bind (ret _) fun _ => ih
    · exact bind (ret _) fun _ => ih

lemma enumLoop {a : Nat} (hupd : ∀ f, Inv I E (updateObj a f)) :
    ∀ {cs : List Die}, Inv I E (ObjectDiff.enumLoop a cs)
  | [] => ret _
  | c :: cs => by
    simp only [ObjectDiff.enumLoop]
    split
    · exact attr_bind hE fun _ _ => bind (hupd _) fun _ => enumLoop hupd
    · exact enumLoop hupd

lemma buildCtype {J : Nat → TypeState → Prop} {u : CompUnit} {recurse : Die → RecM CRef}
    {d : Die}
    (hcache : ∀ o, ∀ s, I s → I (cacheObj d o s).2)
    (hopen : ∀ o, ∀ s, I s → J s.heap.length (cacheObj d o s).2)
    (hupd : ∀ a f, Inv (J a) E (updateObj a f)) (hexit : ∀ a s, J a s → I s)
    (hrec : ∀ t ∈ typeRefs u d, ∀ d', u.get? t = some d' →
      if d.isAggregate then ∀ a, Inv (J a) E (recurse d') else Inv I E (recurse d')) :
    Inv I E (ObjectDiff.buildCtype u recurse d) := by
  have hctype : ∀ o, Inv I E (cacheCtype d o) := fun o => of_cache (hcache o)
  have hobj : ∀ o, Triple I (cacheObj d o) J (fun e s => E e ∧ I s) := fun o s hs => by
    simpa only [cacheObj_apply] using hopen o s hs
  have hloop : ∀ (x : Nat → RecM Unit), (∀ a, Inv (J a) E (x a)) → ∀ o,
      Inv I E (cacheObj d o >>= fun a => x a >>= fun _ => pure (CRef.obj a)) :=
    fun x hx o => Triple.bind (hobj o) fun a => Triple.conseq (bind (hx a) fun _ => ret _)
      (fun _ h => h) (fun _ s h => hexit a s h) (fun _ s h => ⟨h.1, hexit a s h.2⟩)
  by_cases hagg : d.isAggregate
  · simp only [if_pos hagg] at hrec
    have htags : d.tag = .structureType ∨ d.tag = .unionType := by
      simpa [Die.isAggregate] using hagg
    have hmem : ∀ c ∈ u.children d, c.tag = .member → ∀ t, c.type = some t →
        t ∈ typeRefs u d := fun c hc hct t ht => by
      rcases htags with h | h <;> simpa [typeRefs, h] using ⟨c, hc, by simp [hct, ht]⟩
    have hmembers : ∀ a w, Inv (J a) E (ObjectDiff.memberLoop u recurse a w (u.children d)) :=
      fun a w => memberLoop hE (hupd a) fun c hc hct t ht d' hd' =>
        hrec t (hmem c hc hct t ht) d' hd' a
    rcases htags with htag | htag <;> simp only [ObjectDiff.buildCtype, htag] <;>
      exact hloop _ (fun a => hmembers a _) _
  · simp only [if_neg hagg] at hrec
    have hown : d.type.toList ⊆ typeRefs u d → Inv I E (ObjectDiff.dieGetAtType u recurse d) :=
      fun h => dieGetAtType hE fun t ht => hrec t (h (by simp [ht]))
    cases htag : d.tag with
    | pointerType =>
      simp only [ObjectDiff.buildCtype, htag]
      refine bind (hown (by simp [typeRefs, htag])) fun of => ?_
      split
      · exact getDie_bind hE fun _ _ => by
          split
          · exact ret _
          · exact bind (ret _) fun _ => hctype _
      · exact hctype _
    | arrayType =>
      simp only [ObjectDiff.buildCtype, htag]
      exact bind (hown (by simp [typeRefs, htag])) fun _ => hctype _
    | constType | volatileType =>
      simp only [ObjectDiff.buildCtype, htag]
      refine bind (hown (by simp [typeRefs, htag])) fun of => bind get fun _ => ?_
      split
      · exact ret _
      · exact bind (ret _) fun _ => hctype _
    | subroutineType =>
      simp only [ObjectDiff.buildCtype, htag]
      exact bind (dieToFunclikeArgs hE (by simpa [typeRefs, htag] using hrec) (.inl htag))
        fun _ => hctype _
    | baseType =>
      simp only [ObjectDiff.buildCtype, htag]
      exact attr_bind hE fun _ _ => hctype _
    | typedef =>
      simp only [ObjectDiff.buildCtype, htag]
      exact attr_bind hE fun _ _ => bind (hown (by simp [typeRefs, htag])) fun _ => hctype _
    | enumerationType =>
      simp only [ObjectDiff.buildCtype, htag]
      exact hloop _ (fun a => enumLoop hE (hupd a)) _
    | structureType | unionType => simp [Die.isAggregate, htag] at hagg
    | _ => simp only [ObjectDiff.buildCtype, htag]; exact raise (hE _ (by simp) (by simp))

end Helpers

end Inv

end ObjectDiff
