import ObjectDiff.Dwarf

/-!
# The objects the script builds, and how it raises

`odiff.c`'s classes are not part of the sources; the script only constructs them with
keyword arguments and assigns their fields, so each becomes a heap cell with those fields.
Python objects are shared by reference, so a cell is named by its address in an arena
heap and every link between objects is a `CRef`. `CVoid` and `CEllipsis` are module-level
singletons. Code runs in `PyM`, an exception monad over a state that an exception does
not roll back, as Python's `try`/`except` does not.
-/

namespace ObjectDiff

/-- The exceptions the script raises, by class, with the key or message Python gives
them. `invalidRef` and `outOfFuel` belong to the model: a reference that names no DIE of
the unit, and a recursion deeper than the fuel given. -/
inductive Err where
  | keyError (key : String)
  | typeError (msg : String)
  | valueError (msg : String)
  | indexError
  | assertionError
  | structError
  | zeroDivisionError
  | invalidRef (off : Nat)
  | outOfFuel
deriving DecidableEq, Repr

/-- Results can be compared, so that runs of the model are checked by `decide`. -/
instance instDecidableEqExcept {ε α : Type} [DecidableEq ε] [DecidableEq α] :
    DecidableEq (Except ε α)
  | .error e, .error e' => decidable_of_iff (e = e') ⟨congrArg _, Except.error.inj⟩
  | .ok a, .ok a' => decidable_of_iff (a = a') ⟨congrArg _, Except.ok.inj⟩
  | .error _, .ok _ => isFalse Except.noConfusion
  | .ok _, .error _ => isFalse Except.noConfusion

/-- A link to a C object: one of the two singletons or a heap cell. -/
inductive CRef where
  | void
  | ellipsis
  | obj (addr : Nat)
deriving DecidableEq, Repr

/-- An `OrderedDict` (or `dict`): assigning a present key keeps its position. -/
abbrev PyDict (κ ν : Type) := List (κ × ν)

/-- `d[k] = v`. -/
def PyDict.set {κ ν : Type} [DecidableEq κ] : PyDict κ ν → κ → ν → PyDict κ ν
  | [], k, v => [(k, v)]
  | (k', v') :: rest, k, v =>
    if k' = k then (k, v) :: rest else (k', v') :: PyDict.set rest k v

/-- `d[k]`, or `None` when `k` is missing. -/
def PyDict.get {κ ν : Type} [DecidableEq κ] : PyDict κ ν → κ → Option ν
  | [], _ => none
  | (k', v) :: rest, k => if k' = k then some v else PyDict.get rest k

/-- `d[k] = f(d[k])` for a present key; nothing for a missing one. -/
def PyDict.modify {κ ν : Type} [DecidableEq κ] : PyDict κ ν → κ → (ν → ν) → PyDict κ ν
  | [], _, _ => []
  | (k', v) :: rest, k, f =>
    if k' = k then (k', f v) :: rest else (k', v) :: PyDict.modify rest k f

/-- The fields of `CStruct`, `CUnion`, ..., `CFunction` and `CVariable` that the script
sets. `die` is the offset of the DIE the object was built from. -/
inductive CObj where
  | pointer (die : Nat) (of : CRef)
  | array (die : Nat) (of : CRef) (length : Option Nat)
  | struct (die : Nat) (name : Option String) (members : PyDict (Option String) CRef)
      (memberOffsets : PyDict (Option String) Nat)
  | union (die : Nat) (name : Option String) (members : PyDict (Option String) CRef)
  | enum (die : Nat) (name : Option String) (members : PyDict (Option String) Int)
  | const (die : Nat) (of : CRef)
  | volatile (die : Nat) (of : CRef)
  | functionPtr (die : Nat) (returnType : CRef) (args : List (CRef × Option String))
  | primitive (die : Nat) (name : String)
  | typedef (die : Nat) (name : String) (of : CRef)
  | function (die : Nat) (name : Option String) (returnType : CRef)
      (args : List (CRef × Option String)) (static : Bool)
  | variable (die : Nat) (type : CRef) (name : Option String) (externLinkage static : Bool)
deriving DecidableEq, Repr

/-- The shared object heap; an address is an index. -/
abbrev Heap := List CObj

/-- Code of the script, raising `Err`, over a state kept across exceptions. -/
abbrev PyM (σ α : Type) := ExceptT Err (StateM σ) α

section Monad

variable {σ α β : Type}

lemma PyM.bind_apply (x : PyM σ α) (f : α → PyM σ β) (s : σ) :
    (x >>= f) s = match x s with
      | (.ok a, s') => f a s'
      | (.error e, s') => (.error e, s') := by
  simp only [bind, ExceptT.bind, ExceptT.mk, StateT.bind]
  rcases x s with ⟨_ | _, _⟩ <;> rfl

@[simp] lemma PyM.pure_apply (a : α) (s : σ) : (pure a : PyM σ α) s = (.ok a, s) := rfl

@[simp] lemma PyM.throw_apply (e : Err) (s : σ) : (throw e : PyM σ α) s = (.error e, s) := rfl

@[simp] lemma PyM.get_apply (s : σ) : (get : PyM σ σ) s = (.ok s, s) := rfl

@[simp] lemma PyM.set_apply (s' s : σ) : (set s' : PyM σ PUnit) s = (.ok ⟨⟩, s') := rfl

@[simp] lemma PyM.modify_apply (f : σ → σ) (s : σ) :
    (modify f : PyM σ Unit) s = (.ok (), f s) := rfl

lemma PyM.map_apply (f : α → β) (x : PyM σ α) (s : σ) :
    (f <$> x) s = match x s with
      | (.ok a, s') => (.ok (f a), s')
      | (.error e, s') => (.error e, s') := by
  show (ExceptT.map f x) s = _
  simp only [ExceptT.map, ExceptT.mk, bind, StateT.bind]
  rcases x s with ⟨_ | _, _⟩ <;> rfl

lemma PyM.tryCatch_apply (x : PyM σ α) (h : Err → PyM σ α) (s : σ) :
    (tryCatch x h : PyM σ α) s = match x s with
      | (.ok a, s') => (.ok a, s')
      | (.error e, s') => h e s' := by
  show (ExceptT.tryCatch x h) s = _
  simp only [ExceptT.tryCatch, ExceptT.mk, bind, StateT.bind]
  rcases x s with ⟨_ | _, _⟩ <;> rfl

lemma PyM.bind_ok {x : PyM σ α} {f : α → PyM σ β} {s s'' : σ} {b : β}
    (h : (x >>= f) s = (.ok b, s'')) : ∃ a s', x s = (.ok a, s') ∧ f a s' = (.ok b, s'') := by
  rw [PyM.bind_apply] at h
  split at h
  · exact ⟨_, _, ‹_›, h⟩
  · cases h

lemma PyM.bind_error {x : PyM σ α} {f : α → PyM σ β} {s s'' : σ} {e : Err}
    (h : (x >>= f) s = (.error e, s'')) :
    x s = (.error e, s'') ∨ ∃ a s', x s = (.ok a, s') ∧ f a s' = (.error e, s'') := by
  rw [PyM.bind_apply] at h
  revert h
  rcases x s with ⟨_ | a, s'⟩ <;> intro h
  · cases h
    exact .inl rfl
  · exact .inr ⟨a, s', rfl, h⟩

lemma PyM.bind_of_ok {x : PyM σ α} {f : α → PyM σ β} {s s' : σ} {a : α}
    (h : x s = (.ok a, s')) : (x >>= f) s = f a s' := by
  rw [PyM.bind_apply, h]

/-- Run code over a part `view s` of the state, writing back what it leaves with
`update`. -/
def PyM.lift {τ : Type} (view : σ → τ) (update : τ → σ → σ) (x : PyM τ α) : PyM σ α :=
  fun s => ((x (view s)).1, update (x (view s)).2 s)

lemma PyM.lift_apply {τ : Type} (view : σ → τ) (update : τ → σ → σ) (x : PyM τ α) (s : σ) :
    PyM.lift view update x s = ((x (view s)).1, update (x (view s)).2 s) := rfl

/-- An `Except` value as code that returns or raises it. -/
def liftExcept : Except Err α → PyM σ α
  | .ok a => pure a
  | .error e => throw e

@[simp] lemma liftExcept_ok (a : α) (s : σ) : (liftExcept (.ok a) : PyM σ α) s = (.ok a, s) := rfl

@[simp] lemma liftExcept_error (e : Err) (s : σ) :
    (liftExcept (.error e) : PyM σ α) s = (.error e, s) := rfl

/-- `d.attributes[key].value`: a missing attribute raises `KeyError(key)`. -/
def attr (key : String) : Option α → PyM σ α
  | some v => pure v
  | none => throw (.keyError key)

@[simp] lemma attr_some (key : String) (v : α) (s : σ) : (attr key (some v) : PyM σ α) s = (.ok v, s) :=
  rfl

@[simp] lemma attr_none (key : String) (s : σ) :
    (attr key (none : Option α) : PyM σ α) s = (.error (.keyError key), s) := rfl

end Monad

end ObjectDiff
