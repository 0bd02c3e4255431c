import ObjectDiff.CType
import Mathlib.Logic.Function.Basic

/-!
# Reconstructing C types from DIEs

`die_get_name`, `die_get_at_type`, `die_to_funclike_args`, `cache_ctype` and
`die_to_ctype` of `headerdiff.py`. Python's recursion has no bound; here it takes fuel,
one unit per nested `die_to_ctype` call, and runs out with `Err.outOfFuel`. The part of
`die_to_ctype` after its cache lookup misses is `buildCtype`, over an arbitrary
reconstruction `recurse` of the entries it refers to.
-/

namespace ObjectDiff

/-- What `die_to_ctype` changes: the heap, and the unit's `ctype_cache` from DIE offsets
to cached objects. -/
structure TypeState where
  heap : Heap
  cache : Nat → Option CRef

/-- Code that reconstructs types. -/
abbrev RecM := PyM TypeState

/-- Create an object; its address is the heap's length. -/
def alloc (o : CObj) : RecM Nat := do
  let s ← get
  set { s with heap := s.heap ++ [o] }
  return s.heap.length

/-- `ctype_cache[off] = r`. -/
def setCache (off : Nat) (r : CRef) : RecM Unit :=
  modify fun s => { s with cache := Function.update s.cache off (some r) }

/-- Assign fields of the object at an address. -/
def updateObj (a : Nat) (f : CObj → CObj) : RecM Unit :=
  modify fun s => { s with heap := s.heap.modify f a }

/-- `cu.get_DIE_from_refaddr`. -/
def getDie {σ : Type} (u : CompUnit) (off : Nat) : PyM σ Die :=
  match u.get? off with
  | some d => pure d
  | none => throw (.invalidRef off)

/-- `isinstance(of, CArray)`. -/
def isCArray (h : Heap) : CRef → Bool
  | .obj a => match h[a]? with
    | some (.array ..) => true
    | _ => false
  | _ => false

/-- `members[k] = v` on a structure's or union's member dictionary. -/
def CObj.setMember (k : Option String) (v : CRef) : CObj → CObj
  | .struct die name ms offs => .struct die name (ms.set k v) offs
  | .union die name ms => .union die name (ms.set k v)
  | o => o

/-- `member_offsets[k] = v` on a structure. -/
def CObj.setMemberOffset (k : Option String) (v : Nat) : CObj → CObj
  | .struct die name ms offs => .struct die name ms (offs.set k v)
  | o => o

/-- `members[k] = v` on an enumeration. -/
def CObj.setEnumerator (k : Option String) (v : Int) : CObj → CObj
  | .enum die name ms => .enum die name (ms.set k v)
  | o => o

/-- `die_get_name`. -/
def dieGetName (d : Die) : Option String := d.name

/-- `die_get_at_type`: a `KeyError` raised anywhere inside, not only by the missing
attribute, is answered with `CVoid`. -/
def dieGetAtType (u : CompUnit) (recurse : Die → RecM CRef) (d : Die) : RecM CRef :=
  tryCatch (do recurse (← getDie u (← attr "DW_AT_type" d.type))) fun
    | .keyError _ => pure .void
    | e => throw e

/-- The name `die_to_funclike_args` gives parameter `a` of `d`: `a`'s `DW_AT_name`, read
when `d`, not `a`, has one. -/
def paramName {σ : Type} (d a : Die) : PyM σ (Option String) :=
  if d.name.isSome then some <$> attr "DW_AT_name" a.name else pure none

/-- The loop of `die_to_funclike_args` over the children of `d`. -/
def funclikeArgs (u : CompUnit) (recurse : Die → RecM CRef) (d : Die) :
    List Die → RecM (List (CRef × Option String))
  | [] => pure []
  | a :: cs => do
    if a.tag = .formalParameter then
      let argName ← paramName d a
      let ty ← recurse (← getDie u (← attr "DW_AT_type" a.type))
      return (ty, argName) :: (← funclikeArgs u recurse d cs)
    else if a.tag = .unspecifiedParameters then
      return (.ellipsis, none) :: (← funclikeArgs u recurse d cs)
    else if a.tag.isSkippedChild then funclikeArgs u recurse d cs
    else throw (.typeError ("What is a " ++ a.tag.name ++ " function DIE child?"))

/-- `die_to_funclike_args`. -/
def dieToFunclikeArgs (u : CompUnit) (recurse : Die → RecM CRef) (d : Die) :
    RecM (CRef × List (CRef × Option String)) := do
  if d.tag ≠ .subroutineType ∧ d.tag ≠ .subprogram then
    throw (.valueError ("Wrong DIE tag " ++ d.tag.name ++ " for a function/funcptr"))
  let returnType ← dieGetAtType u recurse d
  let args ← funclikeArgs u recurse d (u.children d)
  return (returnType, args)

/-- `cache_ctype` of a newly created object, returning its address. -/
def cacheObj (d : Die) (o : CObj) : RecM Nat := do
  let a ← alloc o
  setCache d.offset (.obj a)
  return a

/-- `cache_ctype`. -/
def cacheCtype (d : Die) (o : CObj) : RecM CRef := do
  return .obj (← cacheObj d o)

/-- The `array_length` left by the loop over an array's children: the bound of the last
subrange that has one. -/
def arrayLength : Option Nat → List Die → Option Nat
  | len, [] => len
  | len, c :: cs => match c.tag, c.upperBound with
    | .subrangeType, some ub => arrayLength (some (ub + 1)) cs
    | _, _ => arrayLength len cs

/-- The member loop of a structure (`withOffsets`) or union at address `a`. -/
def memberLoop (u : CompUnit) (recurse : Die → RecM CRef) (a : Nat) (withOffsets : Bool) :
    List Die → RecM Unit
  | [] => pure ()
  | m :: cs => do
    if m.tag = .member then
      let membName := dieGetName m
      updateObj a (CObj.setMember membName (← dieGetAtType u recurse m))
      if withOffsets then
        let loc ← attr "DW_AT_data_member_location" m.dataMemberLocation
        updateObj a (CObj.setMemberOffset membName loc)
    memberLoop u recurse a withOffsets cs

/-- The enumerator loop of an enumeration at address `a`. -/
def enumLoop (a : Nat) : List Die → RecM Unit
  | [] => pure ()
  | m :: cs => do
    if m.tag = .enumerator then
      let v ← attr "DW_AT_const_value" m.constValue
      updateObj a (CObj.setEnumerator (dieGetName m) v)
    enumLoop a cs

/-- `die_to_ctype` once its cache lookup has missed. -/
def buildCtype (u : CompUnit) (recurse : Die → RecM CRef) (d : Die) : RecM CRef := do
  match d.tag with
  | .pointerType =>
    let of ← dieGetAtType u recurse d
    match d.type with
    | some t =>
      -- the pointee of a pointer to a subroutine type is already a function pointer
      if (← getDie u t).tag = .subroutineType then return of
      cacheCtype d (.pointer d.offset of)
    | none => cacheCtype d (.pointer d.offset of)
  | .arrayType =>
    let len := arrayLength none (u.children d)
    cacheCtype d (.array d.offset (← dieGetAtType u recurse d) len)
  | .structureType =>
    let a ← cacheObj d (.struct d.offset (dieGetName d) [] [])
    memberLoop u recurse a true (u.children d)
    return .obj a
  | .unionType =>
    let a ← cacheObj d (.union d.offset (dieGetName d) [])
    memberLoop u recurse a false (u.children d)
    return .obj a
  | .enumerationType =>
    let a ← cacheObj d (.enum d.offset (dieGetName d) [])
    enumLoop a (u.children d)
    return .obj a
  | .constType | .volatileType =>
    let of ← dieGetAtType u recurse d
    if isCArray (← get).heap of then return of
    cacheCtype d (if d.tag = .constType then .const d.offset of else .volatile d.offset of)
  | .subroutineType =>
    let (returnType, args) ← dieToFunclikeArgs u recurse d
    cacheCtype d (.functionPtr d.offset returnType args)
  | .baseType =>
    let name ← attr "DW_AT_name" d.name
    cacheCtype d (.primitive d.offset (if name = "_Bool" then "bool" else name))
  | .typedef =>
    let name ← attr "DW_AT_name" d.name
    cacheCtype d (.typedef d.offset name (← dieGetAtType u recurse d))
  | tag => throw (.typeError ("What is a type " ++ tag.name ++ "?"))

/-- `die_to_ctype`, with fuel. -/
def dieToCtype (u : CompUnit) : Nat → Die → RecM CRef
  | 0, _ => throw .outOfFuel
  | fuel + 1, d => do
    match (← get).cache d.offset with
    | some r => return r
    | none => buildCtype u (dieToCtype u fuel) d

end ObjectDiff

namespace ObjectDiff

@[simp] lemma alloc_apply (o : CObj) (s : TypeState) :
    alloc o s = (.ok s.heap.length, { s with heap := s.heap ++ [o] }) := rfl

@[simp] lemma setCache_apply (off : Nat) (r : CRef) (s : TypeState) :
    setCache off r s = (.ok (), { s with cache := Function.update s.cache off (some r) }) := rfl

@[simp] lemma updateObj_apply (a : Nat) (f : CObj → CObj) (s : TypeState) :
    updateObj a f s = (.ok (), { s with heap := s.heap.modify f a }) := rfl

lemma cacheObj_apply (d : Die) (o : CObj) (s : TypeState) :
    cacheObj d o s = (.ok s.heap.length,
      ⟨s.heap ++ [o], Function.update s.cache d.offset (some (.obj s.heap.length))⟩) := rfl

lemma cacheCtype_apply (d : Die) (o : CObj) (s : TypeState) :
    cacheCtype d o s = (.ok (.obj s.heap.length),
      ⟨s.heap ++ [o], Function.update s.cache d.offset (some (.obj s.heap.length))⟩) := rfl

lemma dieToCtype_succ (u : CompUnit) (fuel : Nat) (d : Die) (s : TypeState) :
    dieToCtype u (fuel + 1) d s = match s.cache d.offset with
      | some r => (.ok r, s)
      | none => buildCtype u (dieToCtype u fuel) d s := by
  simp only [dieToCtype, PyM.bind_apply, PyM.get_apply]
  cases s.cache d.offset <;> rfl

end ObjectDiff
