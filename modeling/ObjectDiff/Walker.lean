import ObjectDiff.Context
import Mathlib.Data.List.Forall2

/-!
# `process_file`

`process_file` makes one `HeaderFile` per entry of the first unit's file table
(`get_or_create`, keyed by the prefix-stripped path; `remove_prefixes` is a parameter) and
files every top DIE with `DW_AT_decl_file` under its entry's header, by name, with its
`DW_AT_decl_line`. The index is Python's `file_entries[k - 1]` in every DWARF version:
`k = 0` picks the last entry, and a 0-based DWARF 5 table shifts each DIE to the entry
before its own.
-/

namespace ObjectDiff

/-- Python's `l[i]`: a negative index counts from the end; out of range raises
`IndexError`. -/
def pyIndex {α : Type} (l : List α) (i : Int) : Except Err α :=
  let j := if i < 0 then i + l.length else i
  match (if 0 ≤ j then l[j.toNat]? else none) with
  | some x => .ok x
  | none => .error .indexError

lemma pyIndex_eq_ok {α : Type} {l : List α} {i : Int} {x : α} (h : pyIndex l i = .ok x) :
    0 ≤ (if i < 0 then i + l.length else i) ∧
      l[(if i < 0 then i + (l.length : Int) else i).toNat]? = some x := by
  simp only [pyIndex] at h
  generalize (if i < 0 then i + (l.length : Int) else i) = j at h ⊢
  by_cases h0 : 0 ≤ j
  · simp only [h0, if_true] at h
    split at h
    · rename_i hget
      cases h
      exact ⟨h0, hget⟩
    · cases h
  · simp [h0] at h

lemma pyIndex_mem {α : Type} {l : List α} {i : Int} {x : α} (h : pyIndex l i = .ok x) : x ∈ l :=
  List.getElem?_mem (pyIndex_eq_ok h).2

lemma forall₂_getElem?_some {α β : Type} {R : α → β → Prop} {l₁ : List α} {l₂ : List β}
    (h : List.Forall₂ R l₁ l₂) {n : Nat} {x : α} (hx : l₁[n]? = some x) :
    ∃ y, l₂[n]? = some y ∧ R x y := by
  induction h generalizing n with
  | nil => cases hx
  | cons hab _ ih =>
    cases n with
    | zero =>
      simp only [List.getElem?_cons_zero, Option.some.injEq] at hx ⊢
      exact ⟨_, rfl, hx ▸ hab⟩
    | succ n => simpa using ih (by simpa using hx)

lemma pyIndex_forall₂ {α β : Type} {R : α → β → Prop} {l₁ : List α} {l₂ : List β}
    (h : List.Forall₂ R l₁ l₂) {i : Int} {x : α} (hx : pyIndex l₁ i = .ok x) :
    ∃ y, pyIndex l₂ i = .ok y ∧ R x y := by
  obtain ⟨h0, hget⟩ := pyIndex_eq_ok hx
  rw [h.length_eq] at h0 hget
  obtain ⟨y, hy, hxy⟩ := forall₂_getElem?_some h hget
  exact ⟨y, by simp only [pyIndex, if_pos h0, hy], hxy⟩

/-- The path `process_file` gives a file entry: the directory its `dir_index` names, `/`,
the name, with the prefixes stripped; a bare name when the index is 0. -/
def fileEntryPath (removePrefixes : String → String) (includeDirectories : List String)
    (x : FileEntry) : Except Err String :=
  if x.dirIndex ≠ 0 then do
    let dir ← pyIndex includeDirectories ((x.dirIndex : Int) - 1)
    return removePrefixes (dir ++ "/" ++ x.name)
  else .ok x.name

/-- `get_or_create(header_files, path, lambda path: HeaderFile(path))`; the header is
named by its key. -/
def getOrCreate (path : String) : ObjM String := do
  let s ← get
  if (s.headers.get path).isNone then set { s with headers := s.headers.set path ⟨path, [], []⟩ }
  return path

/-- The list comprehension building `file_entries`. -/
def createFileEntries (removePrefixes : String → String) (includeDirectories : List String) :
    List FileEntry → ObjM (List String)
  | [] => pure []
  | x :: xs => do
    let hdr ← getOrCreate (← liftExcept (fileEntryPath removePrefixes includeDirectories x))
    return hdr :: (← createFileEntries removePrefixes includeDirectories xs)

/-- `decl_file.defs[name] = entry` and `decl_file.def_lines[name] = decl_line`. -/
def HeaderFile.file (name : Option String) (entry : CRef) (line : Nat) (h : HeaderFile) :
    HeaderFile :=
  { h with defs := h.defs.set name entry, defLines := h.defLines.set name line }

/-- Filing into the header with key `path`. -/
def fileDef (path : String) (name : Option String) (entry : CRef) (line : Nat) : ObjM Unit :=
  modify fun s => { s with headers := s.headers.modify path (HeaderFile.file name entry line) }

/-- One pass of the loop of `process_file` over the top DIEs, with the file entries'
header keys. -/
def processDie (ctxName : String) (u : CompUnit) (symtab : SymbolTable) (fuel : Nat)
    (fileEntries : List String) (d : Die) : ObjM Unit :=
  match d.declFile with
  | none => pure ()
  | some k => do
    let declFile ← liftExcept (pyIndex fileEntries ((k : Int) - 1))
    let declLine ← attr "DW_AT_decl_line" d.declLine
    if d.tag = .variable then
      match d.specification with
      | some spec =>
        let varSpecDie ← getDie u spec
        let name := dieGetName varSpecDie
        if name = none then throw .assertionError
        let type ← onTypes (dieGetAtType u (dieToCtype u fuel) varSpecDie)
        let entry ← onTypes (alloc (.variable d.offset type name d.external false))
        fileDef declFile name (.obj entry) declLine
      | none =>
        let (_, static) ← onSymtab (isStatic symtab (dieGetName d))
        let type ← onTypes (dieGetAtType u (dieToCtype u fuel) d)
        let entry ← onTypes (alloc (.variable d.offset type (dieGetName d) d.external static))
        fileDef declFile (dieGetName d) (.obj entry) declLine
    else if dieGetName d = none then pure ()
    else
      let entry ← dieToCtypeOrFunc ctxName u symtab fuel d
      fileDef declFile (dieGetName d) entry declLine

/-- The loop of `process_file` over the top DIEs. -/
def processDies (ctxName : String) (u : CompUnit) (symtab : SymbolTable) (fuel : Nat)
    (fileEntries : List String) : List Die → ObjM Unit
  | [] => pure ()
  | d :: ds => do
    processDie ctxName u symtab fuel fileEntries d
    processDies ctxName u symtab fuel fileEntries ds

/-- What `process_file` reads of an object: its symbol table and its first compilation
unit, if it has one. -/
structure ObjFile where
  symtab : SymbolTable
  firstUnit : Option CompUnit

/-- `process_file` into context `ctxName`. The object's unit and symbol table are new, so
their caches start empty. -/
def processFile (ctxName : String) (removePrefixes : String → String) (fuel : Nat)
    (obj : ObjFile) : ObjM Unit :=
  match obj.firstUnit with
  | none => pure ()
  | some u => do
    modify fun s => { s with types := { s.types with cache := fun _ => none }, staticCache := none }
    let fileEntries ← createFileEntries removePrefixes u.lineProgram.includeDirectory
      u.lineProgram.fileEntry
    processDies ctxName u obj.symtab fuel fileEntries (u.top.filterMap u.get?)

/-- The objects of one library processed in order into one context, as `main` does. -/
def processFiles (ctxName : String) (removePrefixes : String → String) (fuel : Nat) :
    List ObjFile → ObjM Unit
  | [] => pure ()
  | obj :: objs => do
    processFile ctxName removePrefixes fuel obj
    processFiles ctxName removePrefixes fuel objs

/-- `main`'s collection over `LIBRARIES`, each given by its name and the objects it
processes, into one `header_files`: every library gets a fresh
`Context(ctxPrefix + lib.name)`. Objects that fail to build are left out of the list. -/
def processLibraries (ctxPrefix : String) (removePrefixes : String → String) (fuel : Nat) :
    List (String × List ObjFile) → ObjM Unit
  | [] => pure ()
  | (name, objs) :: libs => do
    modify fun s => { s with funcs := [] }
    processFiles (ctxPrefix ++ name) removePrefixes fuel objs
    processLibraries ctxPrefix removePrefixes fuel libs

namespace PyDict

variable {κ ν : Type} [DecidableEq κ]

lemma get_modify (m : PyDict κ ν) (k k' : κ) (f : ν → ν) :
    (m.modify k f).get k' = if k' = k then (m.get k).map f else m.get k' := by
  induction m with
  | nil => simp [PyDict.modify, PyDict.get]
  | cons p m ih =>
    obtain ⟨k₀, v₀⟩ := p
    by_cases h : k₀ = k
    · subst h
      by_cases h' : k₀ = k'
      · subst h'
        simp [PyDict.modify, PyDict.get]
      · simp [PyDict.modify, PyDict.get, h', Ne.symm h']
    · by_cases h' : k₀ = k'
      · subst h'
        simp [PyDict.modify, PyDict.get, h]
      · simp [PyDict.modify, PyDict.get, h, h', ih]

end PyDict

/-! ## Filing -/

/-- `x` leaves `header_files` as it found them, whether it returns or raises. -/
def KeepsHeaders {α : Type} (x : ObjM α) : Prop :=
  ∀ s, (x s).2.headers = s.headers

namespace KeepsHeaders

variable {α β : Type}

lemma bind {x : ObjM α} {f : α → ObjM β} (hx : KeepsHeaders x) (hf : ∀ a, KeepsHeaders (f a)) :
    KeepsHeaders (x >>= f) := fun s => by
  have := hx s
  rw [PyM.bind_apply]
  revert this
  rcases x s with ⟨_ | a, s'⟩
  · exact id
  · exact fun h => (hf a s').trans h

lemma ret (a : α) : KeepsHeaders (pure a : ObjM α) := fun _ => rfl

lemma onTypes (x : RecM α) : KeepsHeaders (ObjectDiff.onTypes x) := fun _ => rfl

lemma onSymtab (x : PyM (Option (PyDict String Bool)) α) : KeepsHeaders (ObjectDiff.onSymtab x) :=
  fun _ => rfl

end KeepsHeaders

lemma defFunc_keepsHeaders (ctxName : String) (a : Nat) (name : Option String) (returnType : CRef)
    (args : List (CRef × Option String)) (inline : Bool) :
    KeepsHeaders (defFunc ctxName a name returnType args inline) := fun s => by
  simp only [defFunc, PyM.bind_apply, PyM.get_apply]
  rcases s.funcs.get name with _ | ⟨f, _ | _⟩ <;> (try cases inline) <;> rfl

lemma newCFunction_keepsHeaders (u : CompUnit) (fuel : Nat) (d : Die) (static : Bool) :
    KeepsHeaders (newCFunction u fuel d static) :=
  KeepsHeaders.onTypes _

lemma dieToCtypeOrFunc_keepsHeaders (ctxName : String) (u : CompUnit) (t : SymbolTable)
    (fuel : Nat) (d : Die) : KeepsHeaders (dieToCtypeOrFunc ctxName u t fuel d) := by
  unfold dieToCtypeOrFunc
  split
  · exact KeepsHeaders.onTypes _
  · refine KeepsHeaders.bind (KeepsHeaders.onSymtab _) fun ⟨inObj, static⟩ => ?_
    dsimp only
    split_ifs
    · exact KeepsHeaders.bind (newCFunction_keepsHeaders _ _ _ _) fun ⟨_, _⟩ => KeepsHeaders.ret _
    · exact KeepsHeaders.bind (newCFunction_keepsHeaders _ _ _ _) fun ⟨_, _, _⟩ =>
        KeepsHeaders.bind (defFunc_keepsHeaders _ _ _ _ _ _) fun _ => KeepsHeaders.ret _
    · refine KeepsHeaders.bind (fun _ => rfl) fun o => ?_
      cases o
      · exact KeepsHeaders.bind (newCFunction_keepsHeaders _ _ _ _) fun ⟨_, _⟩ =>
          KeepsHeaders.bind (fun _ => rfl) fun _ => KeepsHeaders.ret _
      · exact KeepsHeaders.ret _

/-- The name `process_file` files a top DIE under: for a variable with
`DW_AT_specification`, the specification's name; else the DIE's own. -/
def fileName (u : CompUnit) (d : Die) : Option String :=
  if d.tag = .variable then
    match d.specification with
    | some spec => (u.get? spec).bind dieGetName
    | none => dieGetName d
  else dieGetName d

lemma KeepsHeaders.of_run {α : Type} {x : ObjM α} (hx : KeepsHeaders x) {s s' : ObjState}
    {r : Except Err α} (h : x s = (r, s')) : s'.headers = s.headers := by
  have := hx s
  rwa [h] at this

lemma fileDef_apply (path : String) (name : Option String) (entry : CRef) (line : Nat)
    (s : ObjState) : fileDef path name entry line s =
      (.ok (), { s with headers := s.headers.modify path (HeaderFile.file name entry line) }) := rfl

lemma processDie_headers {ctxName : String} {u : CompUnit} {symtab : SymbolTable} {fuel : Nat}
    {fileEntries : List String} {d : Die} {k : Nat} {p n : String} (hk : d.declFile = some k)
    (hp : pyIndex fileEntries ((k : Int) - 1) = .ok p) (hn : fileName u d = some n)
    {s s' : ObjState} (h : processDie ctxName u symtab fuel fileEntries d s = (.ok (), s')) :
    ∃ entry line, d.declLine = some line ∧
      s'.headers = s.headers.modify p (HeaderFile.file (some n) entry line) := by
  simp only [processDie, hk] at h
  rw [PyM.bind_of_ok (by rw [hp]; rfl)] at h
  rcases hl : d.declLine with _ | line
  · simp [hl, PyM.bind_apply] at h
    cases h
  rw [hl, PyM.bind_of_ok (attr_some _ _ _)] at h
  by_cases hv : d.tag = .variable
  · simp only [fileName, hv, if_true] at hn
    simp only [hv, if_true] at h
    rcases hsp : d.specification with _ | sp <;> simp only [hsp] at hn h
    · -- no specification: the variable's own name
      obtain ⟨_, s₁, h₁, h⟩ := PyM.bind_ok h
      obtain ⟨_, s₂, h₂, h⟩ := PyM.bind_ok h
      obtain ⟨e, s₃, h₃, h⟩ := PyM.bind_ok h
      rw [fileDef_apply, hn] at h
      cases h
      refine ⟨.obj e, line, rfl, ?_⟩
      rw [(KeepsHeaders.onTypes _).of_run h₃, (KeepsHeaders.onTypes _).of_run h₂,
        (KeepsHeaders.onSymtab _).of_run h₁]
    · -- the specification's name
      rcases hd' : u.get? sp with _ | d'
      · simp [hd'] at hn
      · simp only [hd', Option.some_bind] at hn
        rw [PyM.bind_of_ok (show getDie u sp s = (.ok d', s) by simp [getDie, hd'])] at h
        simp only [hn, reduceCtorEq, if_false, pure_bind] at h
        obtain ⟨_, s₂, h₂, h⟩ := PyM.bind_ok h
        obtain ⟨e, s₃, h₃, h⟩ := PyM.bind_ok h
        rw [fileDef_apply] at h
        cases h
        refine ⟨.obj e, line, rfl, ?_⟩
        rw [(KeepsHeaders.onTypes _).of_run h₃, (KeepsHeaders.onTypes _).of_run h₂]
  · simp only [fileName, hv, if_false] at hn
    simp only [hv, if_false, hn, reduceCtorEq] at h
    obtain ⟨e, s₁, h₁, h⟩ := PyM.bind_ok h
    rw [fileDef_apply] at h
    cases h
    exact ⟨e, line, rfl, by rw [(dieToCtypeOrFunc_keepsHeaders _ _ _ _ _).of_run h₁]⟩

lemma getOrCreate_apply (path : String) (s : ObjState) :
    getOrCreate path s = (.ok path, if (s.headers.get path).isNone then
      { s with headers := s.headers.set path ⟨path, [], []⟩ } else s) := by
  simp only [getOrCreate, PyM.bind_apply, PyM.get_apply]
  split <;> rfl

lemma createFileEntries_ok (removePrefixes : String → String) (dirs : List String) :
    ∀ {xs : List FileEntry} {s s' : ObjState} {paths : List String},
    createFileEntries removePrefixes dirs xs s = (.ok paths, s') →
    List.Forall₂ (fun x p => fileEntryPath removePrefixes dirs x = .ok p) xs paths ∧
      ∀ p, (s.headers.get p).isSome ∨ p ∈ paths → (s'.headers.get p).isSome
  | [], s, s', paths, h => by
    cases h
    exact ⟨.nil, fun _ h => h.resolve_right (List.not_mem_nil _)⟩
  | x :: xs, s, s', paths, h => by
    simp only [createFileEntries] at h
    obtain ⟨p, s₁, h₁, h⟩ := PyM.bind_ok h
    rcases hx : fileEntryPath removePrefixes dirs x with _ | p' <;> rw [hx] at h₁ <;> cases h₁
    obtain ⟨_, s₂, h₂, h⟩ := PyM.bind_ok h
    rw [getOrCreate_apply] at h₂
    cases h₂
    obtain ⟨ps, s₃, h₃, h⟩ := PyM.bind_ok h
    cases h
    obtain ⟨hall, hgrow⟩ := createFileEntries_ok removePrefixes dirs h₃
    refine ⟨.cons hx hall, fun q hq => hgrow q ?_⟩
    rcases hq with hq | hq | ⟨_, hq⟩
    · refine .inl ?_
      split
      · by_cases hqp : q = p <;> simp [PyDict.get_set, hqp, hq]
      · exact hq
    · refine .inl ?_
      split
      · simp [PyDict.get_set]
      · rename_i hnone
        exact Option.ne_none_iff_isSome.1 (by simpa using hnone)
    · exact .inr hq

end ObjectDiff
