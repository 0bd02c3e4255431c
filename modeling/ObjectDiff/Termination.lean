import ObjectDiff.Invariants
import Mathlib.Logic.Relation

/-!
# `die_to_ctype` terminates

Python's `die_to_ctype` has no recursion bound of its own: it stops because a structure or
union is cached before its members are resolved, so a cycle of type references that
passes through one is cut the second time round. Entries of other kinds are cached only
after the entries they refer to, so the measure is not the size of the graph but the
number of structures and unions still uncached, and below it the depth of the acyclic
graph of references made by other entries. Any fuel above `n * (n + 2)`, for a unit of
`n` DIEs, is enough from any cache state.
-/

namespace ObjectDiff

/-- `d` refers to `d'`, and `d` is neither a structure nor a union. -/
def PlainRef (u : CompUnit) (d' d : Die) : Prop :=
  d.isAggregate = false ∧ ∃ t ∈ typeRefs u d, u.get? t = some d'

/-- Every cycle of type references passes through a structure or union: no cycle is made
of references from other entries only. -/
def AggregateCycles (u : CompUnit) : Prop :=
  ∀ d, ¬Relation.TransGen (PlainRef u) d d

/-- Every offset cached in `s` is still cached in `s'`. -/
def Grows (s s' : TypeState) : Prop :=
  ∀ t, (s.cache t).isSome → (s'.cache t).isSome

lemma Grows.refl (s : TypeState) : Grows s s := fun _ h => h

lemma Grows.trans {s₁ s₂ s₃ : TypeState} (h₁ : Grows s₁ s₂) (h₂ : Grows s₂ s₃) :
    Grows s₁ s₃ := fun t h => h₂ t (h₁ t h)

/-- A state property that survives every addition to the cache. -/
def Upward (I : TypeState → Prop) : Prop :=
  ∀ s s', I s → Grows s s' → I s'

lemma Inv.of_grows {α : Type} {I : TypeState → Prop} (hI : Upward I) {x : RecM α}
    (h : ∀ s, I s → (x s).1 ≠ Except.error .outOfFuel ∧ Grows s (x s).2) :
    Inv I (· ≠ .outOfFuel) x := by
  intro s hs
  obtain ⟨hne, hg⟩ := h s hs
  revert hne hg
  rcases x s with ⟨_ | _, s'⟩
  · exact fun hne hg => ⟨fun he => hne (by rw [he]), hI _ _ hs hg⟩
  · exact fun _ hg => hI _ _ hs hg

lemma Inv.run_of_outOfFuel {α : Type} {I : TypeState → Prop} {x : RecM α} {s : TypeState}
    (h : Inv I (· ≠ .outOfFuel) x) (hs : I s) :
    (x s).1 ≠ Except.error .outOfFuel ∧ I (x s).2 := by
  have := h s hs
  revert this
  rcases x s with ⟨_ | _, s'⟩
  · exact fun ⟨he, hI⟩ => ⟨fun h => he (Except.error.inj h), hI⟩
  · exact fun hI => ⟨Except.noConfusion, hI⟩

lemma grows_cacheObj (d : Die) (o : CObj) (s : TypeState) : Grows s (cacheObj d o s).2 := by
  intro t ht
  by_cases h : t = d.offset <;> simp [cacheObj_apply, Function.update, h, ht]

lemma countP_lt_countP {α : Type} {p q : α → Bool} : ∀ {l : List α},
    (∀ x ∈ l, p x → q x) → (∃ x ∈ l, q x ∧ ¬p x) → l.countP p < l.countP q
  | [], _, ⟨x, hx, _⟩ => absurd hx (List.not_mem_nil x)
  | a :: l, hpq, ⟨x, hx, hqx, hpx⟩ => by
    have hpq' : ∀ y ∈ l, p y → q y := fun y hy => hpq y (List.mem_cons_of_mem a hy)
    have hle := List.countP_mono_left hpq'
    have ha := hpq a (List.mem_cons_self a l)
    have hstep : (if p a then 1 else 0) ≤ (if q a then 1 else 0) := by
      by_cases hpa : p a = true
      · simp [hpa, ha hpa]
      · simp [hpa]
    rw [List.countP_cons, List.countP_cons]
    rcases List.mem_cons.mp hx with rfl | hx
    · have : (if p x then 1 else 0) < (if q x then 1 else 0) := by simp [hqx, hpx]
      omega
    · have := countP_lt_countP hpq' ⟨x, hx, hqx, hpx⟩
      omega

/-- Structures and unions of the unit that `s` has not cached. -/
def openAggregates (u : CompUnit) (s : TypeState) : Nat :=
  u.dies.countP fun d => d.isAggregate && (s.cache d.offset).isNone

lemma openAggregates_le {u : CompUnit} {s s' : TypeState} (hg : Grows s s') :
    openAggregates u s' ≤ openAggregates u s :=
  List.countP_mono_left fun d _ h => by
    simp only [Bool.and_eq_true, Option.isNone_iff_eq_none] at h ⊢
    refine ⟨h.1, Option.not_isSome_iff_eq_none.mp fun hs => ?_⟩
    simpa [h.2] using hg _ hs

lemma openAggregates_lt {u : CompUnit} {s s' : TypeState} {d : Die} (hg : Grows s s')
    (hd : d ∈ u.dies) (hagg : d.isAggregate) (hs : s.cache d.offset = none)
    (hs' : (s'.cache d.offset).isSome) : openAggregates u s' < openAggregates u s := by
  refine countP_lt_countP (fun x _ h => ?_) ⟨d, hd, by simp [hagg, hs], fun h => by simp_all⟩
  simp only [Bool.and_eq_true, Option.isNone_iff_eq_none] at h ⊢
  refine ⟨h.1, Option.not_isSome_iff_eq_none.mp fun hx => ?_⟩
  simpa [h.2] using hg _ hx

lemma exists_rank {u : CompUnit} (hcyc : AggregateCycles u) : ∃ rank : Die → Nat,
    (∀ d, rank d ≤ u.dies.length) ∧ ∀ d d', PlainRef u d' d → rank d' < rank d := by
  classical
  refine ⟨fun d => u.dies.countP fun x => decide (Relation.TransGen (PlainRef u) x d),
    fun _ => List.countP_le_length _, fun d d' h => countP_lt_countP ?_ ?_⟩
  · intro x _ hx
    simp only [decide_eq_true_eq] at hx ⊢
    exact hx.tail h
  · obtain ⟨-, t, -, ht⟩ := id h
    exact ⟨d', CompUnit.get?_mem ht, by simpa using Relation.TransGen.single h,
      by simpa using hcyc d'⟩

lemma aggregateCycles_of_rank {u : CompUnit} (rank : Die → Nat)
    (h : ∀ d ∈ u.dies, ∀ d', PlainRef u d' d → rank d' < rank d) : AggregateCycles u := by
  have hmem : ∀ {d' d}, PlainRef u d' d → d' ∈ u.dies := fun ⟨_, _, _, ht⟩ => CompUnit.get?_mem ht
  have key : ∀ a b, Relation.TransGen (PlainRef u) a b → b ∈ u.dies → rank a < rank b := by
    intro a b hab
    induction hab with
    | single hr => exact fun hb => h _ hb _ hr
    | tail _ hr ih => exact fun hc => (ih (hmem hr)).trans (h _ hc _ hr)
  intro d hd
  obtain ⟨_, hr, _⟩ := Relation.TransGen.head'_iff.mp hd
  exact lt_irrefl _ (key d d hd (hmem hr))

/-- `die_to_ctype` terminates on every DIE of a unit whose cycles of type references all
pass through a structure or union, from every cache state: fuel above `n * (n + 2)` for
`n` DIEs never runs out. -/
theorem dieToCtype_terminates (u : CompUnit) (hcyc : AggregateCycles u) (fuel : Nat)
    (hfuel : u.dies.length * (u.dies.length + 2) < fuel) (d : Die) (hd : d ∈ u.dies)
    (s : TypeState) : (dieToCtype u fuel d s).1 ≠ .error .outOfFuel := by
  obtain ⟨rank, hrank, hlt⟩ := exists_rank hcyc
  set N := u.dies.length
  have key : ∀ n, ∀ d ∈ u.dies, ∀ s, openAggregates u s * (N + 1) + rank d < n →
      (dieToCtype u n d s).1 ≠ Except.error .outOfFuel ∧ Grows s (dieToCtype u n d s).2 := by
    intro n
    induction n with
    | zero => intro _ _ _ h; omega
    | succ n ih =>
      intro d hd s hμ
      rw [dieToCtype_succ]
      split
      · exact ⟨Except.noConfusion, Grows.refl s⟩
      · rename_i hnone
        have hup : Upward (Grows s) := fun _ _ h₁ h₂ => h₁.trans h₂
        let J : Nat → TypeState → Prop := fun _ s' =>
          Grows s s' ∧ (d.isAggregate → (s'.cache d.offset).isSome)
        have hupJ : ∀ a, Upward (J a) := fun _ _ _ hs hg => ⟨hs.1.trans hg, fun h => hg _ (hs.2 h)⟩
        refine (Inv.buildCtype (I := Grows s) (J := J) (fun _ h _ => h)
          (fun o s' hs => hs.trans (grows_cacheObj d o s'))
          (fun o s' hs => ⟨hs.trans (grows_cacheObj d o s'), fun _ => by simp [cacheObj_apply]⟩)
          (fun a f s' hs => hupJ a _ _ hs (Grows.refl s')) (fun _ _ h => h.1)
          fun t ht d' hd' => ?_).run_of_outOfFuel (Grows.refl s)
        have step : ∀ s', J 0 s' → openAggregates u s' * (N + 1) + rank d' < n := by
          intro s' ⟨hg, hc⟩
          have hle := Nat.mul_le_mul_right (N + 1) (openAggregates_le (u := u) hg)
          have hr := hrank d'
          by_cases hagg : d.isAggregate
          · have hlt' := openAggregates_lt hg hd hagg hnone (hc hagg)
            have := Nat.mul_le_mul_right (N + 1) (Nat.succ_le_of_lt hlt')
            rw [Nat.succ_mul] at this
            omega
          · have := hlt d d' ⟨by simpa using hagg, t, ht, hd'⟩
            omega
        have hcall : ∀ a, Inv (J a) (· ≠ .outOfFuel) (dieToCtype u n d') := fun a =>
          Inv.of_grows (hupJ a) fun s' hs' => ih d' (CompUnit.get?_mem hd') s' (step s' hs')
        split
        · exact hcall
        · rename_i hagg
          exact Triple.conseq (hcall 0) (fun s' hs => ⟨hs, by simp [hagg]⟩) (fun _ _ h => h.1)
            (fun _ _ h => ⟨h.1, h.2.1⟩)
  have hopen : openAggregates u s * (N + 1) ≤ N * (N + 1) :=
    Nat.mul_le_mul_right _ (List.countP_le_length _)
  have hN : N * (N + 2) = N * (N + 1) + N := Nat.mul_succ N (N + 1)
  exact (key fuel d hd s (by have := hrank d; omega)).1

/-- `typedef struct node node_t; struct node { node_t *next; };` -/
def nodeUnit : CompUnit where
  dies := [{ offset := 1, tag := .typedef, name := some "node_t", type := some 2 },
    { offset := 2, tag := .structureType, name := some "node", children := [3] },
    { offset := 3, tag := .member, name := some "next", type := some 4,
      dataMemberLocation := some 0 },
    { offset := 4, tag := .pointerType, type := some 1 }]
  top := [1, 2]
  lineProgram := ⟨4, [], []⟩

/-- The typedef of `nodeUnit`. -/
def nodeTypedef : Die := { offset := 1, tag := .typedef, name := some "node_t", type := some 2 }

lemma nodeUnit_aggregateCycles : AggregateCycles nodeUnit := by
  refine aggregateCycles_of_rank (fun d => if d.offset = 4 then 2 else if d.offset = 1 then 1 else 0)
    fun d hd d' ⟨hagg, t, ht, hget⟩ => ?_
  simp only [nodeUnit, List.mem_cons, List.mem_singleton, List.not_mem_nil, or_false] at hd
  rcases hd with rfl | rfl | rfl | rfl <;>
    simp_all [typeRefs, Die.isAggregate, CompUnit.get?, CompUnit.children, nodeUnit] <;>
    (subst hget; decide)

theorem dieToCtype_terminates_node : AggregateCycles nodeUnit ∧ nodeTypedef ∈ nodeUnit.dies ∧
    (dieToCtype nodeUnit 25 nodeTypedef ⟨[], fun _ => none⟩).1 ≠ .error .outOfFuel :=
  ⟨nodeUnit_aggregateCycles, by simp [nodeUnit, nodeTypedef],
    dieToCtype_terminates nodeUnit nodeUnit_aggregateCycles 25 (by decide) nodeTypedef
      (by simp [nodeUnit, nodeTypedef]) _⟩

end ObjectDiff
