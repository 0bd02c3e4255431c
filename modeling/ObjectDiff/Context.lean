import ObjectDiff.Members
import ObjectDiff.SymbolTable

/-!
# The context and `die_to_ctype_or_func`

A `Context` keeps, per function name, the `CFunction` the objects of one library share and
whether it has been defined. The one-definition check is stated over that view with an
abstract machine (`odrStep`); each call of `die_to_ctype_or_func` refines one step of it and
a run of calls refines a run. The machine raises exactly when a name's first event is a
definition and a later definition of it is not inline.
-/

namespace ObjectDiff

/-- A `HeaderFile`: the entry filed under each name and its declaration line. -/
structure HeaderFile where
  path : String
  defs : PyDict (Option String) CRef
  defLines : PyDict (Option String) Nat
deriving DecidableEq, Repr

/-- The state while an object is processed: the shared heap with this unit's
`ctype_cache`, the symbol table's `_static_cache`, the context's `funcs` (per name, the
address of its `CFunction` and whether it is defined) and `header_files`. -/
structure ObjState where
  types : TypeState
  staticCache : Option (PyDict String Bool)
  funcs : PyDict (Option String) (Nat × Bool)
  headers : PyDict String HeaderFile

/-- Code of `process_file` and below. -/
abbrev ObjM := PyM ObjState

/-- Reconstruction, which sees the heap and the unit's cache only. -/
def onTypes {α : Type} (x : RecM α) : ObjM α :=
  PyM.lift ObjState.types (fun t s => { s with types := t }) x

/-- A call of `is_static` on the object's symbol table. -/
def onSymtab {α : Type} (x : PyM (Option (PyDict String Bool)) α) : ObjM α :=
  PyM.lift ObjState.staticCache (fun c s => { s with staticCache := c }) x

@[simp] lemma onTypes_apply {α : Type} (x : RecM α) (s : ObjState) :
    onTypes x s = ((x s.types).1, { s with types := (x s.types).2 }) := rfl

@[simp] lemma onSymtab_apply {α : Type} (x : PyM (Option (PyDict String Bool)) α) (s : ObjState) :
    onSymtab x s = ((x s.staticCache).1, { s with staticCache := (x s.staticCache).2 }) := rfl

/-- The message of the `ValueError` of `def_func`; an f-string shows `None` as `None`. -/
def odrMessage (name : Option String) (ctxName : String) : String :=
  "ODR violation: function " ++ name.getD "None" ++ " is defined twice in context " ++ ctxName

/-- `Context.func`: the address of the name's `CFunction`, if it has a record. -/
def func (name : Option String) : ObjM (Option Nat) := do
  return ((← get).funcs.get name).map Prod.fst

/-- `Context.decl_func` of the `CFunction` at `a`. -/
def declFunc (a : Nat) (name : Option String) : ObjM Unit :=
  modify fun s => { s with funcs := s.funcs.set name (a, false) }

lemma declFunc_apply (a : Nat) (name : Option String) (s : ObjState) :
    declFunc a name s = (.ok (), { s with funcs := s.funcs.set name (a, false) }) := rfl

/-- `f.return_type = ...; f.args = ...` on a `CFunction`. -/
def CObj.setSignature (returnType : CRef) (args : List (CRef × Option String)) : CObj → CObj
  | .function die name _ _ static => .function die name returnType args static
  | o => o

/-- `Context.def_func` of the `CFunction` at `a`, with its name and signature. A record
that is only declared takes the signature and stays not defined. -/
def defFunc (ctxName : String) (a : Nat) (name : Option String) (returnType : CRef)
    (args : List (CRef × Option String)) (inline : Bool) : ObjM Unit := do
  let s ← get
  match s.funcs.get name with
  | none => set { s with funcs := s.funcs.set name (a, true) }
  | some (f, defined) =>
    if defined then
      if inline then pure () else throw (.valueError (odrMessage name ctxName))
    else onTypes (updateObj f (CObj.setSignature returnType args))

/-- `die_to_funclike_args(die)` and the `CFunction` built from it: its address and
signature. -/
def newCFunction (u : CompUnit) (fuel : Nat) (d : Die) (static : Bool) :
    ObjM (Nat × CRef × List (CRef × Option String)) := onTypes do
  let (returnType, args) ← dieToFunclikeArgs u (dieToCtype u fuel) d
  let a ← alloc (.function d.offset (dieGetName d) returnType args static)
  return (a, returnType, args)

/-- `die_to_ctype_or_func` in the object with unit `u` and symbol table `symtab`. -/
def dieToCtypeOrFunc (ctxName : String) (u : CompUnit) (symtab : SymbolTable) (fuel : Nat)
    (d : Die) : ObjM CRef :=
  if d.tag ≠ .subprogram then onTypes (dieToCtype u fuel d) else do
  let funcName := dieGetName d
  let (inObj, static) ← onSymtab (isStatic symtab funcName)
  if static then
    let (cfunc, _) ← newCFunction u fuel d true
    return .obj cfunc
  else if inObj then
    let (cfunc, returnType, args) ← newCFunction u fuel d false
    defFunc ctxName cfunc funcName returnType args d.inline
    return .obj cfunc
  else
    match ← func funcName with
    | some cfunc => return .obj cfunc
    | none =>
      let (cfunc, _) ← newCFunction u fuel d false
      declFunc cfunc funcName
      return .obj cfunc

/-- The calls of `die_to_ctype_or_func` that one object makes, on its DIEs in order. -/
def objectCalls (ctxName : String) (u : CompUnit) (symtab : SymbolTable) (fuel : Nat) :
    List Die → ObjM Unit
  | [] => pure ()
  | d :: ds => do
    let _ ← dieToCtypeOrFunc ctxName u symtab fuel d
    objectCalls ctxName u symtab fuel ds

/-- Objects processed one after another into one context, each with its unit, symbol
table and the DIEs it passes to `die_to_ctype_or_func`; every object starts with an empty
`ctype_cache` and no `_static_cache`. -/
def contextCalls (ctxName : String) (fuel : Nat) :
    List (CompUnit × SymbolTable × List Die) → ObjM Unit
  | [] => pure ()
  | (u, symtab, ds) :: objs => do
    modify fun s => { s with types := { s.types with cache := fun _ => none }, staticCache := none }
    objectCalls ctxName u symtab fuel ds
    contextCalls ctxName fuel objs

/-! ## The check as a machine over names -/

/-- What one call of `die_to_ctype_or_func` asks of the context: a definition (the name
is a non-local function or object symbol of the DIE's object), a reference (it is no
symbol there), or nothing (not a subprogram, or a local symbol). -/
inductive CtxEvent where
  | define (name : Option String) (inline : Bool)
  | reference (name : Option String)
  | skip
deriving DecidableEq, Repr

namespace CtxEvent

/-- The event concerns name `n`. -/
def touches (n : Option String) : CtxEvent → Bool
  | define m _ | reference m => m = n
  | skip => false

def isDefine : CtxEvent → Bool
  | define .. => true
  | _ => false

end CtxEvent

/-- The event of a DIE, given the answer `(in_obj, static)` of `is_static`. -/
def ctxEvent (d : Die) (answer : Bool × Bool) : CtxEvent :=
  if d.tag ≠ .subprogram ∨ answer.2 then .skip
  else if answer.1 then .define (dieGetName d) d.inline
  else .reference (dieGetName d)

/-- The event of a DIE of an object whose symbol table decodes. -/
def dieEvent (symtab : SymbolTable) (d : Die) : CtxEvent :=
  match buildStaticCache symtab with
  | .ok c => ctxEvent d (staticLookup c (dieGetName d))
  | .error _ => .skip

/-- The events of a run of `contextCalls`. -/
def callEvents : List (CompUnit × SymbolTable × List Die) → List CtxEvent
  | [] => []
  | (_, symtab, ds) :: objs => ds.map (dieEvent symtab) ++ callEvents objs

/-- The context as the check sees it: per name, no record, or whether it is defined. -/
abbrev OdrView := Option String → Option Bool

/-- The check's view of `funcs`. -/
def odrView (funcs : PyDict (Option String) (Nat × Bool)) : OdrView :=
  fun n => (funcs.get n).map Prod.snd

/-- One event; `none` when `def_func` raises. -/
def odrStep (v : OdrView) : CtxEvent → Option OdrView
  | .define n inline => match v n with
    | none => some (Function.update v n (some true))
    | some true => if inline then some v else none
    | some false => some v
  | .reference n => if v n = none then some (Function.update v n (some false)) else some v
  | .skip => some v

/-- A run of events. -/
def odrRun : List CtxEvent → OdrView → Option OdrView
  | [], v => some v
  | e :: es, v => (odrStep v e).bind (odrRun es)

/-- Some name's first event is a definition, and a later definition of it is not
inline. -/
def OdrViolation (es : List CtxEvent) : Prop :=
  ∃ n pre inline mid post, es = pre ++ .define n inline :: (mid ++ .define n false :: post) ∧
    ∀ e ∈ pre, e.touches n = false

/-- `odrStep` on the record of one name; `none` when it raises. -/
def flagStep (n : Option String) (b : Option Bool) : CtxEvent → Option (Option Bool)
  | .define m inline =>
    if m = n then
      match b with
      | none => some (some true)
      | some true => if inline then some (some true) else none
      | some false => some (some false)
    else some b
  | .reference m => if m = n then some (b.or (some false)) else some b
  | .skip => some b

/-- From the record state `b` of `n`, the events make `def_func` raise for `n`. -/
def RaisesFor (n : Option String) : Option Bool → List CtxEvent → Prop
  | _, [] => False
  | b, e :: es => match flagStep n b e with
    | none => True
    | some b' => RaisesFor n b' es

lemma odrStep_some {v v' : OdrView} {e : CtxEvent} (h : odrStep v e = some v')
    (n : Option String) : flagStep n (v n) e = some (v' n) := by
  cases e with
  | define m inline =>
    by_cases hm : m = n
    · subst hm
      rcases hv : v m with _ | _ | _ <;> cases inline <;> simp [odrStep, hv] at h <;>
        subst h <;> simp [flagStep, hv]
    · rcases hv : v m with _ | _ | _ <;> cases inline <;> simp [odrStep, hv] at h <;>
        subst h <;> simp [flagStep, hm, Function.update_noteq (Ne.symm hm)]
  | reference m =>
    by_cases hm : m = n
    · subst hm
      by_cases hv : v m = none <;> simp [odrStep, hv] at h <;> subst h <;> simp [flagStep, hv]
      exact Option.or_of_isSome (Option.ne_none_iff_isSome.mp hv)
    · by_cases hv : v m = none <;> simp [odrStep, hv] at h <;> subst h <;>
        simp [flagStep, hm, Function.update_noteq (Ne.symm hm)]
  | skip =>
    simp only [odrStep, Option.some.injEq] at h
    simp [flagStep, h]

lemma odrStep_none {v : OdrView} {e : CtxEvent} (h : odrStep v e = none) :
    ∃ n, flagStep n (v n) e = none := by
  cases e with
  | define m inline =>
    refine ⟨m, ?_⟩
    simp only [odrStep] at h
    rcases hv : v m with _ | _ | _ <;> simp only [hv] at h <;> cases inline <;>
      simp_all [flagStep]
  | reference m => simp only [odrStep] at h; split at h <;> cases h
  | skip => cases h

lemma odrRun_eq_none_iff : ∀ (es : List CtxEvent) (v : OdrView),
    odrRun es v = none ↔ ∃ n, RaisesFor n (v n) es
  | [], v => by simp [odrRun, RaisesFor]
  | e :: es, v => by
    rcases h : odrStep v e with _ | v'
    · obtain ⟨n, hn⟩ := odrStep_none h
      simp only [odrRun, h, Option.none_bind, true_iff]
      exact ⟨n, by simp [RaisesFor, hn]⟩
    · simp only [odrRun, h, Option.some_bind, odrRun_eq_none_iff es v', RaisesFor,
        odrStep_some h]

lemma flagStep_false (n : Option String) (e : CtxEvent) :
    flagStep n (some false) e = some (some false) := by
  cases e <;> simp only [flagStep] <;> split_ifs <;> rfl

lemma raisesFor_false (n : Option String) : ∀ es, ¬RaisesFor n (some false) es
  | [] => id
  | e :: es => by
    simp only [RaisesFor, flagStep_false]
    exact raisesFor_false n es

lemma flagStep_of_touches_false {n : Option String} {e : CtxEvent} (h : e.touches n = false)
    (b : Option Bool) : flagStep n b e = some b := by
  cases e <;> simp_all [flagStep, CtxEvent.touches]

lemma raisesFor_true_cons (n : Option String) (e : CtxEvent) (es : List CtxEvent) :
    RaisesFor n (some true) (e :: es) ↔ e = .define n false ∨ RaisesFor n (some true) es := by
  cases e with
  | define m inline =>
    by_cases hm : m = n
    · subst hm
      cases inline <;> simp [RaisesFor, flagStep]
    · simp [RaisesFor, flagStep, hm]
  | reference m => by_cases hm : m = n <;> simp [RaisesFor, flagStep, hm]
  | skip => simp [RaisesFor, flagStep]

lemma exists_cons_eq_append_cons {α : Type} {x e : α} {es : List α} :
    (∃ mid post, e :: es = mid ++ x :: post) ↔ e = x ∨ ∃ mid post, es = mid ++ x :: post := by
  constructor
  · rintro ⟨mid, post, h⟩
    rcases List.cons_eq_append_iff.mp h with ⟨rfl, h'⟩ | ⟨mid', rfl, h'⟩
    · cases h'
      exact .inl rfl
    · exact .inr ⟨mid', post, h'⟩
  · rintro (rfl | ⟨mid, post, rfl⟩)
    · exact ⟨[], es, rfl⟩
    · exact ⟨e :: mid, post, rfl⟩

lemma raisesFor_true_iff (n : Option String) : ∀ es,
    RaisesFor n (some true) es ↔ ∃ mid post, es = mid ++ .define n false :: post
  | [] => by simp [RaisesFor]
  | e :: es => by
    rw [raisesFor_true_cons, raisesFor_true_iff n es, exists_cons_eq_append_cons]

lemma raisesFor_none_iff (n : Option String) : ∀ es,
    RaisesFor n none es ↔ ∃ pre inline mid post,
      es = pre ++ .define n inline :: (mid ++ .define n false :: post) ∧
      ∀ e ∈ pre, e.touches n = false
  | [] => by simp [RaisesFor]
  | e :: es => by
    constructor
    · intro h
      by_cases ht : e.touches n
      · cases e with
        | define m inline =>
          obtain rfl : m = n := by simpa [CtxEvent.touches] using ht
          simp only [RaisesFor, flagStep, if_true, raisesFor_true_iff] at h
          obtain ⟨mid, post, rfl⟩ := h
          exact ⟨[], inline, mid, post, rfl, by simp⟩
        | reference m =>
          obtain rfl : m = n := by simpa [CtxEvent.touches] using ht
          simp only [RaisesFor, flagStep, if_true, Option.none_or] at h
          exact (raisesFor_false m es h).elim
        | skip => simp [CtxEvent.touches] at ht
      · rw [Bool.not_eq_true] at ht
        simp only [RaisesFor, flagStep_of_touches_false ht] at h
        obtain ⟨pre, inline, mid, post, rfl, hpre⟩ := (raisesFor_none_iff n es).mp h
        refine ⟨e :: pre, inline, mid, post, rfl, ?_⟩
        simpa [ht] using hpre
    · rintro ⟨pre, inline, mid, post, hes, hpre⟩
      rcases List.cons_eq_append_iff.mp hes with ⟨rfl, h⟩ | ⟨pre', rfl, h⟩
      · cases h
        simp only [RaisesFor, flagStep, if_true, raisesFor_true_iff]
        exact ⟨mid, post, rfl⟩
      · have ht : e.touches n = false := hpre e (List.mem_cons_self _ _)
        simp only [RaisesFor, flagStep_of_touches_false ht]
        exact (raisesFor_none_iff n es).mpr
          ⟨pre', inline, mid, post, h, fun x hx => hpre x (List.mem_cons_of_mem _ hx)⟩

lemma odrRun_eq_none_iff_violation (es : List CtxEvent) :
    odrRun es (fun _ => none) = none ↔ OdrViolation es := by
  simp only [odrRun_eq_none_iff, raisesFor_none_iff, OdrViolation]

lemma flagStep_flag {n : Option String} {b b' : Option Bool} {e : CtxEvent}
    (h : flagStep n b e = some b') :
    b' = b.or (if e.touches n then some e.isDefine else none) := by
  cases e with
  | define m inline =>
    by_cases hm : m = n
    · subst hm
      rcases b with _ | _ | _ <;> cases inline <;> simp [flagStep] at h <;> subst h <;>
        simp [CtxEvent.touches, CtxEvent.isDefine]
    · simp [flagStep, hm] at h
      simp [h, CtxEvent.touches, hm]
  | reference m =>
    by_cases hm : m = n
    · subst hm
      rcases b with _ | _ | _ <;> simp [flagStep] at h <;> subst h <;>
        simp [CtxEvent.touches, CtxEvent.isDefine]
    · simp [flagStep, hm] at h
      simp [h, CtxEvent.touches, hm]
  | skip =>
    simp [flagStep] at h
    simp [h, CtxEvent.touches]

lemma odrRun_flag : ∀ {es : List CtxEvent} {v v' : OdrView}, odrRun es v = some v' →
    ∀ n, v' n = (v n).or ((es.find? (·.touches n)).map CtxEvent.isDefine)
  | [], v, v', h, n => by cases h; simp
  | e :: es, v, v', h, n => by
    obtain ⟨v₁, h₁, h⟩ := Option.bind_eq_some.mp h
    rw [odrRun_flag h n, flagStep_flag (odrStep_some h₁ n), Option.or_assoc, List.find?_cons]
    by_cases ht : e.touches n <;> simp [ht]

/-! ## The calls refine the machine -/

lemma odrView_set (funcs : PyDict (Option String) (Nat × Bool)) (n : Option String) (a : Nat)
    (b : Bool) : odrView (funcs.set n (a, b)) = Function.update (odrView funcs) n (some b) := by
  funext m
  by_cases h : m = n
  · subst h
    simp [odrView, PyDict.get_set]
  · simp [odrView, PyDict.get_set, h]

lemma dieToCtype_inv_valueError (u : CompUnit) : ∀ fuel d,
    Inv (fun _ => True) (fun e => ∀ m, e ≠ .valueError m) (dieToCtype u fuel d)
  | 0, _ => fun _ _ => ⟨fun _ => Err.noConfusion, trivial⟩
  | fuel + 1, d => by
    simp only [dieToCtype]
    refine Inv.bind Inv.get fun s => ?_
    split
    · exact Inv.ret _
    · exact Inv.buildCtype (J := fun _ _ => True) (fun _ _ h => h) (fun _ _ _ => trivial)
        (fun _ _ _ => trivial) (fun _ _ _ _ => trivial) (fun _ _ _ => trivial)
        (fun _ _ d' _ => by
          split
          · exact fun _ => dieToCtype_inv_valueError u fuel d'
          · exact dieToCtype_inv_valueError u fuel d')

lemma newCFunction_ne_valueError {u : CompUnit} {fuel : Nat} {d : Die} (hd : d.tag = .subprogram)
    (static : Bool) (s : ObjState) (m : String) :
    (newCFunction u fuel d static s).1 ≠ .error (.valueError m) := by
  have hargs : Inv (fun _ => True) (fun e => ∀ m, e ≠ .valueError m)
      (dieToFunclikeArgs u (dieToCtype u fuel) d) :=
    Inv.dieToFunclikeArgs (fun _ _ h => h) (fun _ _ d' _ => dieToCtype_inv_valueError u fuel d')
      (.inr hd)
  have := hargs s.types trivial
  simp only [newCFunction, onTypes_apply, PyM.bind_apply]
  revert this
  rcases dieToFunclikeArgs u (dieToCtype u fuel) d s.types with ⟨e | _, _⟩
  · exact fun h he => h.1 m (by cases he; rfl)
  · exact fun _ => by simp [alloc_apply]

lemma defFunc_ok {ctxName : String} {a : Nat} {n : Option String} {returnType : CRef}
    {args : List (CRef × Option String)} {inline : Bool} {s s' : ObjState} {x : Unit}
    (h : defFunc ctxName a n returnType args inline s = (.ok x, s')) :
    odrStep (odrView s.funcs) (.define n inline) = some (odrView s'.funcs) ∧
      s'.staticCache = s.staticCache := by
  simp only [defFunc, PyM.bind_apply, PyM.get_apply] at h
  rcases hl : s.funcs.get n with _ | ⟨f, _ | _⟩ <;> simp only [hl] at h
  · cases h
    simp [odrStep, odrView, hl, odrView_set]
  · cases h
    simp [odrStep, odrView, hl]
  · cases inline <;> simp at h <;> cases h
    simp [odrStep, odrView, hl]

lemma defFunc_error {ctxName : String} {a : Nat} {n : Option String} {returnType : CRef}
    {args : List (CRef × Option String)} {inline : Bool} {s s' : ObjState} {e : Err}
    (h : defFunc ctxName a n returnType args inline s = (.error e, s')) :
    odrStep (odrView s.funcs) (.define n inline) = none ∧ e = .valueError (odrMessage n ctxName) := by
  simp only [defFunc, PyM.bind_apply, PyM.get_apply] at h
  rcases hl : s.funcs.get n with _ | ⟨f, _ | _⟩ <;> simp only [hl] at h
  · cases h
  · cases h
  · cases inline <;> simp at h <;> cases h
    simp [odrStep, odrView, hl]

/-- What a call must do for the machine: on return, advance the context's view by the
call's event and keep the symbol-table cache right; on a `ValueError`, be the ODR error of
an event the machine refuses. Other exceptions are not constrained. -/
def CallSpec {α : Type} (ctxName : String) (t : SymbolTable) (v : OdrView) (ev : CtxEvent) :
    Except Err α × ObjState → Prop
  | (.ok _, s') => odrStep v ev = some (odrView s'.funcs) ∧ StaticCacheOk t s'.staticCache
  | (.error (.valueError m), _) => odrStep v ev = none ∧ ∃ n, m = odrMessage n ctxName
  | (.error _, _) => True

lemma callSpec_error {α : Type} {ctxName : String} {t : SymbolTable} {v : OdrView}
    {ev : CtxEvent} {e : Err} (he : ∀ m, e ≠ .valueError m) (s' : ObjState) :
    CallSpec (α := α) ctxName t v ev (.error e, s') := by
  cases e <;> simp_all [CallSpec]

lemma onSymtab_isStatic {t : SymbolTable} {c : PyDict String Bool} (hc : buildStaticCache t = .ok c)
    {s : ObjState} (hm : StaticCacheOk t s.staticCache) (name : Option String) :
    onSymtab (isStatic t name) s = (.ok (staticLookup c name), { s with staticCache := some c }) := by
  simp [isStatic_ok hc hm]

lemma staticCacheOk_some {t : SymbolTable} {c : PyDict String Bool} (hc : buildStaticCache t = .ok c) :
    StaticCacheOk t (some c) := by
  rintro _ ⟨⟩
  exact hc

lemma newCFunction_frame (u : CompUnit) (fuel : Nat) (d : Die) (static : Bool) (s : ObjState) :
    (newCFunction u fuel d static s).2.funcs = s.funcs ∧
      (newCFunction u fuel d static s).2.staticCache = s.staticCache := ⟨rfl, rfl⟩

lemma callSpec_newCFunction_bind {α : Type} {ctxName : String} {t : SymbolTable} {v : OdrView}
    {ev : CtxEvent} {u : CompUnit} {fuel : Nat} {d : Die} (hd : d.tag = .subprogram)
    {static : Bool} {s : ObjState} {f : Nat × CRef × List (CRef × Option String) → ObjM α}
    (hf : ∀ p s₂, s₂.funcs = s.funcs → s₂.staticCache = s.staticCache →
      CallSpec ctxName t v ev (f p s₂)) :
    CallSpec ctxName t v ev ((newCFunction u fuel d static >>= f) s) := by
  have hfr := newCFunction_frame u fuel d static s
  have hne : ∀ m, (newCFunction u fuel d static s).1 ≠ .error (.valueError m) :=
    newCFunction_ne_valueError hd static s
  rw [PyM.bind_apply]
  revert hfr hne
  rcases newCFunction u fuel d static s with ⟨e | p, s₂⟩
  · exact fun _ hne => callSpec_error (fun m h => hne m (by rw [h])) _
  · exact fun hfr _ => hf p s₂ hfr.1 hfr.2

lemma dieToCtypeOrFunc_spec (ctxName : String) (u : CompUnit) {t : SymbolTable} (fuel : Nat)
    (d : Die) {c : PyDict String Bool} (hc : buildStaticCache t = .ok c) (s : ObjState)
    (hm : StaticCacheOk t s.staticCache) :
    CallSpec ctxName t (odrView s.funcs) (dieEvent t d) (dieToCtypeOrFunc ctxName u t fuel d s) := by
  have hev : dieEvent t d = ctxEvent d (staticLookup c (dieGetName d)) := by simp [dieEvent, hc]
  rw [hev]
  by_cases hd : d.tag = .subprogram
  · have hok := staticCacheOk_some hc
    rw [dieToCtypeOrFunc, if_neg (not_not.mpr hd), PyM.bind_of_ok (onSymtab_isStatic hc hm _)]
    rcases hl : staticLookup c (dieGetName d) with ⟨inObj, static⟩
    simp only [ctxEvent, hd, ne_eq, not_true_eq_false, false_or]
    cases static
    · cases inObj
      · -- a reference: answered from the context, or declared there
        simp only [Bool.false_eq_true, if_false, PyM.bind_apply, func, PyM.get_apply,
          PyM.pure_apply]
        rcases hf : s.funcs.get (dieGetName d) with _ | ⟨a, b⟩
        · refine callSpec_newCFunction_bind hd fun p s₂ hs₂ hs₂' => ?_
          rw [PyM.bind_of_ok (declFunc_apply _ _ _)]
          simp only [PyM.pure_apply, CallSpec, odrView_set, hs₂, hs₂', hok, and_true]
          simp [odrStep, odrView, hf]
        · simp [CallSpec, odrStep, odrView, hf, hok]
      · -- a definition
        simp only [Bool.false_eq_true, if_false, if_true]
        refine callSpec_newCFunction_bind hd fun ⟨a, rt, args⟩ s₂ hs₂ hs₂' => ?_
        rw [PyM.bind_apply]
        rcases hdef : defFunc ctxName a (dieGetName d) rt args d.inline s₂ with ⟨e | _, s₃⟩
        · obtain ⟨hstep, rfl⟩ := defFunc_error hdef
          exact ⟨by rw [← hs₂]; exact hstep, _, rfl⟩
        · obtain ⟨hstep, hsc⟩ := defFunc_ok hdef
          exact ⟨by rw [← hs₂]; exact hstep, by rw [hsc, hs₂']; exact hok⟩
    · -- a local symbol: a function of its own
      simp only [if_true]
      refine callSpec_newCFunction_bind hd fun p s₂ hs₂ hs₂' => ?_
      simp [CallSpec, odrStep, hs₂, hs₂', hok]
  · rw [dieToCtypeOrFunc, if_pos hd]
    have := dieToCtype_inv_valueError u fuel d s.types trivial
    simp only [ctxEvent, hd, ne_eq, not_false_eq_true, true_or, if_true, onTypes_apply]
    revert this
    rcases dieToCtype u fuel d s.types with ⟨e | _, _⟩
    · exact fun h => callSpec_error h.1 _
    · exact fun _ => ⟨rfl, hm⟩

/-- What a run of calls must do for the machine: on return, its events from view `v` lead
to the context's final view; on a `ValueError`, they raise, and it is the ODR error. -/
def RunSpec (ctxName : String) (v : OdrView) (es : List CtxEvent) :
    Except Err Unit × ObjState → Prop
  | (.ok _, s') => odrRun es v = some (odrView s'.funcs)
  | (.error (.valueError m), _) => odrRun es v = none ∧ ∃ n, m = odrMessage n ctxName
  | (.error _, _) => True

lemma odrRun_append : ∀ (es₁ es₂ : List CtxEvent) (v : OdrView),
    odrRun (es₁ ++ es₂) v = (odrRun es₁ v).bind (odrRun es₂)
  | [], _, _ => rfl
  | e :: es₁, es₂, v => by
    simp only [List.cons_append, odrRun]
    cases odrStep v e <;> simp [odrRun_append es₁ es₂]

lemma runSpec_append {ctxName : String} {v v₁ : OdrView} {es₁ es₂ : List CtxEvent}
    (h₁ : odrRun es₁ v = some v₁) {r : Except Err Unit × ObjState}
    (h : RunSpec ctxName v₁ es₂ r) : RunSpec ctxName v (es₁ ++ es₂) r := by
  rcases r with ⟨(_ | _ | _ | _ | _ | _ | _ | _) | _, _⟩ <;>
    simp_all [RunSpec, odrRun_append]

lemma runSpec_of_prefix {ctxName : String} {v : OdrView} {es₁ : List CtxEvent} (es₂ : List CtxEvent)
    {r : Except Err Unit × ObjState} (h : RunSpec ctxName v es₁ r) (hr : ∀ x s', r ≠ (.ok x, s')) :
    RunSpec ctxName v (es₁ ++ es₂) r := by
  rcases r with ⟨(_ | _ | _ | _ | _ | _ | _ | _) | _, _⟩ <;>
    simp_all [RunSpec, odrRun_append]

lemma objectCalls_spec (ctxName : String) (u : CompUnit) {t : SymbolTable} (fuel : Nat)
    {c : PyDict String Bool} (hc : buildStaticCache t = .ok c) : ∀ (ds : List Die) (s : ObjState),
    StaticCacheOk t s.staticCache →
    RunSpec ctxName (odrView s.funcs) (ds.map (dieEvent t)) (objectCalls ctxName u t fuel ds s)
  | [], s, _ => by simp [objectCalls, RunSpec, odrRun]
  | d :: ds, s, hm => by
    have hcall := dieToCtypeOrFunc_spec ctxName u fuel d hc s hm
    simp only [objectCalls, PyM.bind_apply]
    revert hcall
    rcases dieToCtypeOrFunc ctxName u t fuel d s with ⟨e | _, s₁⟩
    · intro hcall
      rcases e with _ | _ | _ | _ | _ | _ | _ | _ <;> simp_all [CallSpec, RunSpec, odrRun]
    · rintro ⟨hstep, hm₁⟩
      have h₁ : odrRun [dieEvent t d] (odrView s.funcs) = some (odrView s₁.funcs) := by
        simp [odrRun, hstep]
      exact runSpec_append h₁ (objectCalls_spec ctxName u fuel hc ds s₁ hm₁)

lemma contextCalls_spec (ctxName : String) (fuel : Nat) :
    ∀ (objs : List (CompUnit × SymbolTable × List Die)), (∀ o ∈ objs, ∃ c, buildStaticCache o.2.1 = .ok c) →
    ∀ s, RunSpec ctxName (odrView s.funcs) (callEvents objs) (contextCalls ctxName fuel objs s)
  | [], _, s => by simp [contextCalls, RunSpec, callEvents, odrRun]
  | (u, t, ds) :: objs, hsym, s => by
    obtain ⟨c, hc⟩ := hsym _ (List.mem_cons_self _ _)
    have hobj := objectCalls_spec ctxName u fuel hc ds
      { s with types := { s.types with cache := fun _ => none }, staticCache := none } (by simp [StaticCacheOk])
    simp only [contextCalls, PyM.bind_apply, PyM.modify_apply, callEvents]
    revert hobj
    rcases objectCalls ctxName u t fuel ds
      { s with types := { s.types with cache := fun _ => none }, staticCache := none } with ⟨e | _, s₁⟩
    · exact fun h => runSpec_of_prefix _ h (by simp)
    · exact fun h => runSpec_append h (contextCalls_spec ctxName fuel objs
        (fun o ho => hsym o (List.mem_cons_of_mem _ ho)) s₁)

lemma odrView_nil : odrView [] = fun _ => none := rfl

/-- What a run of calls into a fresh context must end in: it raises the ODR error exactly on
an ODR violation of its events, and after a run that returns, a name's record is defined
exactly when the name's first event is a definition. -/
def OdrOutcome (ctxName : String) (es : List CtxEvent) (run : Except Err Unit × ObjState) : Prop :=
  ((∃ n, run.1 = .error (.valueError (odrMessage n ctxName))) ↔ OdrViolation es) ∧
    (run.1 = .ok () → ∀ n, odrView run.2.funcs n = (es.find? (·.touches n)).map CtxEvent.isDefine)

/-- Calls of `die_to_ctype_or_func` over objects into a fresh context, whose symbol tables
decode and which raise nothing but `ValueError`s, end as `OdrOutcome` says. -/
theorem contextCalls_odr (ctxName : String) (fuel : Nat) (objs : List (CompUnit × SymbolTable × List Die))
    (s : ObjState) (hfresh : s.funcs = []) (hsym : ∀ o ∈ objs, ∃ c, buildStaticCache o.2.1 = .ok c)
    (hok : ∀ e, (contextCalls ctxName fuel objs s).1 = .error e → ∃ m, e = .valueError m) :
    OdrOutcome ctxName (callEvents objs) (contextCalls ctxName fuel objs s) := by
  have hspec := contextCalls_spec ctxName fuel objs hsym s
  rw [hfresh, odrView_nil] at hspec
  revert hspec hok
  rcases contextCalls ctxName fuel objs s with ⟨e | _, s'⟩ <;> intro hok hspec
  · obtain ⟨m, rfl⟩ := hok e rfl
    obtain ⟨hnone, n, rfl⟩ := hspec
    exact ⟨⟨fun _ => (odrRun_eq_none_iff_violation _).mp hnone, fun _ => ⟨n, rfl⟩⟩,
      fun h => by cases h⟩
  · refine ⟨⟨fun ⟨_, h⟩ => (by cases h), fun hv => ?_⟩, fun _ n => ?_⟩
    · have := (odrRun_eq_none_iff_violation _).mpr hv
      simp [RunSpec] at hspec
      rw [hspec] at this
      cases this
    · simp only [RunSpec] at hspec
      rw [odrRun_flag hspec n]
      simp

/-- A fresh object state. -/
def ObjState.empty : ObjState := ⟨.empty, none, [], []⟩

/-- A symbol table whose one record is the global function `f` (`st_info` 0x12). -/
def fSymtab : SymbolTable :=
  ⟨[1, 0, 0, 0, 0, 0, 0, 0, 0, 0, 0, 0, 0x12, 0, 0, 0], 16, 16, fun _ => "f"⟩

/-- A symbol table without records. -/
def noSymtab : SymbolTable := ⟨[], 16, 0, fun _ => ""⟩

/-- `void f(void)` as a unit's only DIE, inline or not. -/
def fUnit (inline : Bool) : CompUnit :=
  ⟨[{ offset := 1, tag := .subprogram, name := some "f", inline := inline }], [1], ⟨4, [], []⟩⟩

/-- An object that only refers to `f`: it has no symbol `f`. -/
def fDeclaring : CompUnit × SymbolTable × List Die := (fUnit false, noSymtab, (fUnit false).dies)

/-- An object that defines `f`. -/
def fDefining (inline : Bool) : CompUnit × SymbolTable × List Die :=
  (fUnit inline, fSymtab, (fUnit inline).dies)

theorem contextCalls_odr_declared :
    let objs := [fDeclaring, fDefining false, fDefining false]
    ObjState.empty.funcs = [] ∧ (∀ o ∈ objs, ∃ c, buildStaticCache o.2.1 = .ok c) ∧
      (∀ e, (contextCalls "lib" 10 objs .empty).1 = .error e → ∃ m, e = .valueError m) ∧
      OdrOutcome "lib" (callEvents objs) (contextCalls "lib" 10 objs .empty) :=
  have hsym : ∀ o ∈ [fDeclaring, fDefining false, fDefining false],
      ∃ c, buildStaticCache o.2.1 = .ok c := by
    simp only [List.mem_cons, List.not_mem_nil, or_false]
    rintro o (rfl | rfl | rfl) <;> exact ⟨_, rfl⟩
  have hok : ∀ e, (contextCalls "lib" 10 [fDeclaring, fDefining false, fDefining false] .empty).1 =
      .error e → ∃ m, e = .valueError m := fun e h => by
    have hrun : (contextCalls "lib" 10 [fDeclaring, fDefining false, fDefining false] .empty).1 =
        .ok () := by decide
    rw [hrun] at h
    cases h
  ⟨rfl, hsym, hok, contextCalls_odr "lib" 10 _ _ rfl hsym hok⟩

/-- `f` declared, then defined twice: nothing is raised and the record stays not defined.
`f` defined inline, then defined again not inline: the ODR error is raised. -/
theorem odr_check_declared_and_inline_first :
    (contextCalls "lib" 10 [fDeclaring, fDefining false, fDefining false] .empty).1 = .ok () ∧
      (contextCalls "lib" 10 [fDeclaring, fDefining false, fDefining false] .empty).2.funcs =
        [(some "f", (0, false))] ∧
      (contextCalls "lib" 10 [fDefining true, fDefining false] .empty).1 =
        .error (.valueError "ODR violation: function f is defined twice in context lib") := by
  decide

end ObjectDiff
