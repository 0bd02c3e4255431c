import Mathlib.Data.List.Basic

/-!
# Debugging information read by `headerdiff.py`

The entries the script reads through pyelftools: the debugging information entries
(DIEs) of one compilation unit, addressed by their offset, with exactly the attributes
the script consults; the header of the unit's line-number program; and an object file,
of which only the first unit is processed. Type references are offsets into the unit.
-/

namespace ObjectDiff

/-- `s.startswith(prefix)`. -/
def pyStartswith (s pre : String) : Bool :=
  pre.data.isPrefixOf s.data

/-- `s.endswith(suffix)`. -/
def pyEndswith (s suf : String) : Bool :=
  suf.data.isSuffixOf s.data

/-- DWARF tags: the ones the script names, and any other by its full name. -/
inductive Tag where
  | pointerType | arrayType | structureType | unionType | enumerationType
  | constType | volatileType | subroutineType | baseType | typedef
  | subrangeType | member | enumerator | formalParameter | unspecifiedParameters
  | variable | inlinedSubroutine | lexicalBlock | subprogram | label
  | other (name : String)
deriving DecidableEq, Repr

/-- The tag's DWARF name, as the script's error messages print it. -/
def Tag.name : Tag → String
  | .pointerType => "DW_TAG_pointer_type"
  | .arrayType => "DW_TAG_array_type"
  | .structureType => "DW_TAG_structure_type"
  | .unionType => "DW_TAG_union_type"
  | .enumerationType => "DW_TAG_enumeration_type"
  | .constType => "DW_TAG_const_type"
  | .volatileType => "DW_TAG_volatile_type"
  | .subroutineType => "DW_TAG_subroutine_type"
  | .baseType => "DW_TAG_base_type"
  | .typedef => "DW_TAG_typedef"
  | .subrangeType => "DW_TAG_subrange_type"
  | .member => "DW_TAG_member"
  | .enumerator => "DW_TAG_enumerator"
  | .formalParameter => "DW_TAG_formal_parameter"
  | .unspecifiedParameters => "DW_TAG_unspecified_parameters"
  | .variable => "DW_TAG_variable"
  | .inlinedSubroutine => "DW_TAG_inlined_subroutine"
  | .lexicalBlock => "DW_TAG_lexical_block"
  | .subprogram => "DW_TAG_subprogram"
  | .label => "DW_TAG_label"
  | .other name => name

/-- The children `die_to_funclike_args` skips: the five kinds it lists, and every tag whose
name starts with `DW_TAG_GNU` or ends in `_type`. -/
def Tag.isSkippedChild (t : Tag) : Bool :=
  decide (t ∈ [.variable, .inlinedSubroutine, .lexicalBlock, .subprogram, .label]) ||
    pyStartswith t.name "DW_TAG_GNU" || pyEndswith t.name "_type"

/-- A DIE with the attributes the script reads; a missing attribute is `none` (or
`false` for the flags whose presence alone is tested). -/
structure Die where
  offset : Nat
  tag : Tag
  name : Option String := none
  type : Option Nat := none
  upperBound : Option Nat := none
  dataMemberLocation : Option Nat := none
  constValue : Option Int := none
  declFile : Option Nat := none
  declLine : Option Nat := none
  specification : Option Nat := none
  external : Bool := false
  inline : Bool := false
  children : List Nat := []

/-- An entry of the line program's file table. -/
structure FileEntry where
  name : String
  dirIndex : Nat

/-- The header of a unit's line-number program. The script never reads `version`. -/
structure LineProgram where
  version : Nat
  includeDirectory : List String
  fileEntry : List FileEntry

/-- A compilation unit: its DIEs, the offsets of the top DIE's children, and its line
program. -/
structure CompUnit where
  dies : List Die
  top : List Nat
  lineProgram : LineProgram

namespace CompUnit

/-- The DIE at an offset (`get_DIE_from_refaddr`). -/
def get? (u : CompUnit) (off : Nat) : Option Die :=
  u.dies.find? (·.offset = off)

/-- `iter_children`. -/
def children (u : CompUnit) (d : Die) : List Die :=
  d.children.filterMap u.get?

lemma get?_offset {u : CompUnit} {off : Nat} {d : Die} (h : u.get? off = some d) :
    d.offset = off := by
  simpa using List.find?_some h

lemma get?_mem {u : CompUnit} {off : Nat} {d : Die} (h : u.get? off = some d) :
    d ∈ u.dies :=
  List.mem_of_find?_eq_some h

end CompUnit

end ObjectDiff
