import ObjectDiff.Reconstruct

/-!
# A program logic for `PyM`

`Triple P x Q E`: run from a state satisfying `P`, `x` either returns `a` in a state
satisfying `Q a` or raises `e` in a state satisfying `E e`. A raise keeps its state, so
`E` constrains states too. The rules follow the combinators the model is written with;
the reconstruction's loops are handled by induction on the list with these rules.
-/

namespace ObjectDiff

/-- A run of `x` from a `P` state returns into `Q` or raises into `E`. -/
def Triple {σ α : Type} (P : σ → Prop) (x : PyM σ α) (Q : α → σ → Prop)
    (E : Err → σ → Prop) : Prop :=
  ∀ s, P s → match x s with
    | (.ok a, s') => Q a s'
    | (.error e, s') => E e s'

namespace Triple

variable {σ α β : Type} {P P' : σ → Prop} {Q Q' : α → σ → Prop} {E E' : Err → σ → Prop}

lemma conseq {x : PyM σ α} (h : Triple P x Q E) (hp : ∀ s, P' s → P s)
    (hq : ∀ a s, Q a s → Q' a s) (he : ∀ e s, E e s → E' e s) : Triple P' x Q' E' := by
  intro s hs
  have := h s (hp s hs)
  revert this
  rcases x s with ⟨_ | a, s'⟩
  · exact he _ s'
  · exact hq a s'

lemma ret {a : α} (h : ∀ s, P s → Q a s) : Triple P (pure a) Q E := h

lemma raise {e : Err} (h : ∀ s, P s → E e s) : Triple P (throw e : PyM σ α) Q E := h

lemma bind {x : PyM σ α} {f : α → PyM σ β} {R : α → σ → Prop} {Q : β → σ → Prop}
    (hx : Triple P x R E) (hf : ∀ a, Triple (R a) (f a) Q E) : Triple P (x >>= f) Q E := by
  intro s hs
  have := hx s hs
  rw [PyM.bind_apply]
  revert this
  rcases x s with ⟨_ | a, s'⟩
  · exact id
  · exact hf a s'

lemma tryCatch {x : PyM σ α} {h : Err → PyM σ α} {F : Err → σ → Prop}
    (hx : Triple P x Q F) (hh : ∀ e, Triple (F e) (h e) Q E) :
    Triple P (tryCatch x h) Q E := by
  intro s hs
  have := hx s hs
  rw [PyM.tryCatch_apply]
  revert this
  rcases x s with ⟨_ | a, s'⟩
  · exact hh _ s'
  · exact id

lemma get {Q : σ → σ → Prop} (h : ∀ s, P s → Q s s) : Triple P (get : PyM σ σ) Q E := h

lemma modify {f : σ → σ} {Q : Unit → σ → Prop} (h : ∀ s, P s → Q () (f s)) : Triple P (modify f : PyM σ Unit) Q E := h

lemma attr {key : String} {v : Option α}
    (hs : ∀ a, v = some a → ∀ s, P s → Q a s) (hn : v = none → ∀ s, P s → E (.keyError key) s) :
    Triple P (ObjectDiff.attr key v) Q E := by
  cases v with
  | some a => exact hs a rfl
  | none => exact hn rfl

lemma getDie {u : CompUnit} {off : Nat} {Q : Die → σ → Prop}
    (hs : ∀ d, u.get? off = some d → ∀ s, P s → Q d s)
    (hn : u.get? off = none → ∀ s, P s → E (.invalidRef off) s) :
    Triple P (ObjectDiff.getDie u off) Q E := by
  unfold ObjectDiff.getDie
  split <;> rename_i h
  · exact hs _ h
  · exact hn h

lemma ite {c : Prop} [Decidable c] {x y : PyM σ α} (hx : c → Triple P x Q E)
    (hy : ¬c → Triple P y Q E) : Triple P (if c then x else y) Q E := by
  split <;> rename_i h
  · exact hx h
  · exact hy h

end Triple

end ObjectDiff
