import ObjectDiff.CType

/-!
# The symbol table

`is_static` of `headerdiff.py`. Its first call on a section decodes the raw record buffer
with `ELF_SYM_STRUCT` (`'<I8xB'`: the name offset, eight skipped bytes and `st_info`) and
keeps, for every function or object symbol, whether its binding is local; every call then
answers from that cache. The cache is an attribute of the section object, so it is state
here: `none` until the first call builds it.
-/

namespace ObjectDiff

/-- `STB_LOCAL`. -/
def stbLocal : Nat := 0

/-- `STT_OBJECT`. -/
def sttObject : Nat := 1

/-- `STT_FUNC`. -/
def sttFunc : Nat := 2

/-- What `is_static` reads of a `SymbolTableSection`: the bytes that
`stream.read(entsize * num_symbols())` returned from `sh_offset`, `sh_entsize`, `sh_size`
(through `num_symbols()`), and the string table's `get_string`. -/
structure SymbolTable where
  buf : List UInt8
  entsize : Nat
  size : Nat
  getString : Nat → String

/-- pyelftools' `num_symbols()`: `sh_size // sh_entsize`, which raises `ZeroDivisionError`
when `sh_entsize` is 0. -/
def SymbolTable.numSymbols (t : SymbolTable) : Except Err Nat :=
  if t.entsize = 0 then .error .zeroDivisionError else .ok (t.size / t.entsize)

/-- `range(0, stop, step)`; a zero step raises `ValueError`. -/
def pyRange (stop step : Nat) : Except Err (List Nat) :=
  if step = 0 then .error (.valueError "range() arg 3 must not be zero")
  else .ok (List.range' 0 ((stop + step - 1) / step) step)

/-- An unsigned little-endian integer. -/
def leUInt (bs : List UInt8) : Nat :=
  bs.foldr (fun b n => b.toNat + 256 * n) 0

/-- `ELF_SYM_STRUCT.unpack`: exactly 13 bytes, else `struct.error`. -/
def elfSymUnpack (bs : List UInt8) : Except Err (Nat × Nat) :=
  if bs.length = 13 then .ok (leUInt (bs.take 4), (bs.getD 12 0).toNat) else .error .structError

/-- The loop of `is_static` over the record positions, filling `static`. -/
def staticScan (t : SymbolTable) : List Nat → PyDict String Bool → Except Err (PyDict String Bool)
  | [], static => .ok static
  | pos :: ps, static => do
    let (stName, stInfo) ← elfSymUnpack ((t.buf.drop pos).take 13)
    if stInfo &&& 0xF = sttFunc ∨ stInfo &&& 0xF = sttObject then
      staticScan t ps (static.set (t.getString stName) (stInfo >>> 4 = stbLocal))
    else staticScan t ps static

/-- The cache the first call of `is_static` builds. `buf` is what the read of
`entsize * num_symbols()` bytes returned. -/
def buildStaticCache (t : SymbolTable) : Except Err (PyDict String Bool) := do
  let _ ← t.numSymbols
  staticScan t (← pyRange t.buf.length t.entsize) []

lemma buildStaticCache_of_pos {t : SymbolTable} (he : 0 < t.entsize) :
    buildStaticCache t = pyRange t.buf.length t.entsize >>= fun ps => staticScan t ps [] := by
  simp only [buildStaticCache, SymbolTable.numSymbols, if_neg (Nat.pos_iff_ne_zero.1 he)]
  rfl

/-- The answer of `is_static` from its cache: `(True, local)` for a cached name, else
`(False, False)`; `None` is never a key. -/
def staticLookup (cache : PyDict String Bool) (name : Option String) : Bool × Bool :=
  match name.bind cache.get with
  | some b => (true, b)
  | none => (false, false)

/-- `is_static`, over the section's `_static_cache`. -/
def isStatic (t : SymbolTable) (name : Option String) :
    PyM (Option (PyDict String Bool)) (Bool × Bool) := do
  match ← get with
  | some cache => return staticLookup cache name
  | none =>
    match buildStaticCache t with
    | .ok cache =>
      set (some cache)
      return staticLookup cache name
    | .error e => throw e

/-- A built cache of the section is the one its buffer decodes to. -/
def StaticCacheOk (t : SymbolTable) (m : Option (PyDict String Bool)) : Prop :=
  ∀ c, m = some c → buildStaticCache t = .ok c

lemma isStatic_ok {t : SymbolTable} {c : PyDict String Bool} (hc : buildStaticCache t = .ok c)
    {m : Option (PyDict String Bool)} (hm : StaticCacheOk t m) (name : Option String) :
    isStatic t name m = (.ok (staticLookup c name), some c) := by
  cases m with
  | none => simp [isStatic, PyM.bind_apply, PyM.map_apply, hc]
  | some c' =>
    obtain rfl : c' = c := by simpa [hc] using (hm c' rfl).symm
    simp [isStatic, PyM.bind_apply]

end ObjectDiff
