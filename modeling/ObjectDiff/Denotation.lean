import ObjectDiff.Reconstruct

/-!
# The C type an entry denotes, and the C type a model reads as

`denote` is DWARF's reading of an entry and `readOff` the reading of a model object, both
with fuel, since a malformed unit may loop. A typedef reads as the type it names, an array
as one dimension per subrange, a subroutine type as a function type, and aggregates by
their entry. A qualifier is pushed down through arrays and merged, as C does (C11 6.7.3p9
and p5).
-/

namespace ObjectDiff

mutual

/-- C types, with aggregates and enumerations named by their entry. -/
inductive CTy where
  | void
  | ellipsis
  | prim (name : String)
  | ptr (of : CTy)
  | qual (isConst isVolatile : Bool) (of : CTy)
  | array (of : CTy) (length : Option Nat)
  | func (ret : CTy) (params : CTys)
  | agg (die : Nat)

/-- Parameter lists. -/
inductive CTys where
  | nil
  | cons (t : CTy) (ts : CTys)

end

deriving instance DecidableEq, Repr for CTy

/-- `t` qualified by `const` and/or `volatile`. -/
def qualify (isConst isVolatile : Bool) : CTy → CTy
  | .array t n => .array (qualify isConst isVolatile t) n
  | .qual c v t => .qual (c || isConst) (v || isVolatile) t
  | t => .qual isConst isVolatile t

/-- The spelling of a base type: `_Bool` and `<stdbool.h>`'s `bool` name one type. -/
def cPrimName (name : String) : String :=
  if name = "_Bool" then "bool" else name

/-! ### DWARF's reading of an entry -/

/-- The bounds of an array entry's dimensions, outermost first: one per subrange child,
`upper_bound + 1` or unknown; an entry with no subrange has one unknown bound. -/
def arrayDims (u : CompUnit) (d : Die) : List (Option Nat) :=
  match (u.children d).filter (·.tag = .subrangeType) with
  | [] => [none]
  | subs => subs.map fun c => c.upperBound.map (· + 1)

/-- An array of `t` with the given dimensions, outermost first. -/
def arrayOf (t : CTy) (dims : List (Option Nat)) : CTy :=
  dims.foldr (fun n acc => .array acc n) t

/-- The type a `DW_AT_type` reference denotes; a missing one is `void`. -/
def refType (u : CompUnit) (rec : Die → Option CTy) : Option Nat → Option CTy
  | none => some .void
  | some t => (u.get? t).bind rec

/-- The parameter types of a subroutine type's children: formal parameters by their
type, `DW_TAG_unspecified_parameters` as `...`; other children add nothing. -/
def paramTypes (u : CompUnit) (rec : Die → Option CTy) : List Die → Option CTys
  | [] => some .nil
  | a :: cs =>
    if a.tag = .formalParameter then do
      let t ← (a.type.bind u.get?).bind rec
      return .cons t (← paramTypes u rec cs)
    else if a.tag = .unspecifiedParameters then CTys.cons .ellipsis <$> paramTypes u rec cs
    else paramTypes u rec cs

/-- One level of DWARF's reading, over a reading `rec` of the entries referred to. -/
def denoteStep (u : CompUnit) (rec : Die → Option CTy) (d : Die) : Option CTy :=
  match d.tag with
  | .baseType => d.name.map fun n => .prim (cPrimName n)
  | .pointerType => CTy.ptr <$> refType u rec d.type
  | .constType => qualify true false <$> refType u rec d.type
  | .volatileType => qualify false true <$> refType u rec d.type
  | .typedef => refType u rec d.type
  | .arrayType => (arrayOf · (arrayDims u d)) <$> refType u rec d.type
  | .subroutineType => do
    let r ← refType u rec d.type
    return .func r (← paramTypes u rec (u.children d))
  | .structureType | .unionType | .enumerationType => some (.agg d.offset)
  | _ => none

/-- The C type an entry denotes, following at most `fuel` references. -/
def denote (u : CompUnit) : Nat → Die → Option CTy
  | 0, _ => none
  | fuel + 1, d => denoteStep u (denote u fuel) d

/-! ### The type a model reads as -/

/-- The parameter types of a `CFunctionPtr`'s `args`, over a reading `rec` of links. -/
def readArgs (rec : CRef → Option CTy) : List (CRef × Option String) → Option CTys
  | [] => some .nil
  | (r, _) :: args => do
    let t ← rec r
    return .cons t (← readArgs rec args)

/-- The type an object reads as, over a reading `rec` of the links it holds. -/
def readCell (rec : CRef → Option CTy) : CObj → Option CTy
  | .primitive _ name => some (.prim name)
  | .pointer _ of => CTy.ptr <$> rec of
  | .const _ of => qualify true false <$> rec of
  | .volatile _ of => qualify false true <$> rec of
  | .typedef _ _ of => rec of
  | .array _ of length => (CTy.array · length) <$> rec of
  | .functionPtr _ returnType args => do
    let r ← rec returnType
    return .ptr (.func r (← readArgs rec args))
  | .struct die .. | .union die .. | .enum die .. => some (.agg die)
  | .function .. | .variable .. => none

/-- One level of the reading of a link. -/
def readStep (h : Heap) (rec : CRef → Option CTy) : CRef → Option CTy
  | .void => some .void
  | .ellipsis => some .ellipsis
  | .obj a => h[a]?.bind (readCell rec)

/-- The C type a link reads as, following at most `fuel` links. -/
def readOff (h : Heap) : Nat → CRef → Option CTy
  | 0, _ => none
  | fuel + 1, r => readStep h (readOff h fuel) r

/-! ### Two dimensions collapse into one -/

/-- `int`, `int[3][4]` and `int[7][4]`. -/
def matrixUnit : CompUnit where
  dies := [
    { offset := 1, tag := .baseType, name := some "int" },
    { offset := 2, tag := .arrayType, type := some 1, children := [3, 4] },
    { offset := 3, tag := .subrangeType, upperBound := some 2 },
    { offset := 4, tag := .subrangeType, upperBound := some 3 },
    { offset := 5, tag := .arrayType, type := some 1, children := [6, 7] },
    { offset := 6, tag := .subrangeType, upperBound := some 6 },
    { offset := 7, tag := .subrangeType, upperBound := some 3 }]
  top := []
  lineProgram := ⟨4, [], []⟩

/-- The entry of `int[3][4]`. -/
def int34 : Die := { offset := 2, tag := .arrayType, type := some 1, children := [3, 4] }

/-- The entry of `int[7][4]`. -/
def int74 : Die := { offset := 5, tag := .arrayType, type := some 1, children := [6, 7] }

/-- The array branch keeps the bound of the last subrange only: `int[3][4]` and
`int[7][4]` both reconstruct to an array of 4 `int`s, two models that read as one type
for two entries that denote different ones. -/
theorem dieToCtype_collapses_dimensions :
    let run₃₄ : Except Err CRef × TypeState := dieToCtype matrixUnit 4 int34 ⟨[], fun _ => none⟩
    let run₇₄ : Except Err CRef × TypeState := dieToCtype matrixUnit 4 int74 ⟨[], fun _ => none⟩
    denote matrixUnit 2 int34 = some (.array (.array (.prim "int") (some 4)) (some 3)) ∧
      denote matrixUnit 2 int74 = some (.array (.array (.prim "int") (some 4)) (some 7)) ∧
      run₃₄.1 = .ok (.obj 1) ∧ run₇₄.1 = .ok (.obj 1) ∧
      readOff run₃₄.2.heap 2 (.obj 1) = some (.array (.prim "int") (some 4)) ∧
      readOff run₇₄.2.heap 2 (.obj 1) = some (.array (.prim "int") (some 4)) := by
  decide

end ObjectDiff
