import ObjectDiff.Members
import Mathlib.Algebra.Order.Field.Rat
import Mathlib.Algebra.Order.BigOperators.Group.List
import Mathlib.Tactic.Linarith

/-!
# `diff_objects` of `funcdiff.py`

`diff_objects` cuts each `objdump -rd` text at `Disassembly of section .`, files the
functions of the code-section chunks by name, and classifies each vendor function against
the candidate's of its name: `missing` (0), `equivalent` (1) or `different` (the ratio of
`make_diff_table`); the object's similarity is their mean. Parsing, `equivalent` and the
ratio are parameters (`FuncOps`), the HTML is kept as the list of reports, and a chunk with
no line makes `lines[0]` raise `IndexError`.
-/

namespace ObjectDiff

/-! ### The text of a dump -/

/-- The line boundaries of `str.splitlines`. -/
def isLineBoundary (c : Char) : Bool :=
  c.toNat ∈ [0x0a, 0x0b, 0x0c, 0x0d, 0x1c, 0x1d, 0x1e, 0x85, 0x2028, 0x2029]

/-- `str.splitlines` over the characters left, with the current line reversed in `acc`:
`\r\n` is one boundary, and a final boundary ends no extra line. -/
def splitlinesAux : List Char → List Char → List String
  | [], acc => if acc = [] then [] else [String.mk acc.reverse]
  | '\r' :: '\n' :: rest, acc => String.mk acc.reverse :: splitlinesAux rest []
  | c :: rest, acc =>
    if isLineBoundary c then String.mk acc.reverse :: splitlinesAux rest []
    else splitlinesAux rest (c :: acc)

/-- `s.splitlines()`. -/
def splitlines (s : String) : List String :=
  splitlinesAux s.data []

lemma splitlinesAux_eq_nil_iff (cs acc : List Char) :
    splitlinesAux cs acc = [] ↔ cs = [] ∧ acc = [] := by
  induction cs, acc using splitlinesAux.induct with
  | case1 => simp [splitlinesAux]
  | case2 acc h => simp [splitlinesAux, h]
  | case3 => simp [splitlinesAux]
  | case4 c rest acc hcr hb => simp [splitlinesAux, hcr, hb]
  | case5 c rest acc hcr hb ih => simp [splitlinesAux, hcr, hb, ih]

lemma splitlines_eq_nil_iff (s : String) : splitlines s = [] ↔ s = "" := by
  simp [splitlines, splitlinesAux_eq_nil_iff, String.ext_iff]

/-- `str.split(sep)` for a non-empty `sep`, over the characters left, with the current
piece reversed in `acc`. Every step consumes a character, so the text's length plus one
is enough `fuel`. -/
def pySplitAux (sep : List Char) : Nat → List Char → List Char → List String
  | 0, s, acc => [String.mk (acc.reverse ++ s)]
  | _ + 1, [], acc => [String.mk acc.reverse]
  | fuel + 1, c :: rest, acc =>
    if sep.isPrefixOf (c :: rest) then
      String.mk acc.reverse :: pySplitAux sep fuel ((c :: rest).drop sep.length) []
    else pySplitAux sep fuel rest (c :: acc)

/-- `s.split(sep)`. -/
def pySplit (s sep : String) : List String :=
  pySplitAux sep.data (s.length + 1) s.data []

lemma pySplitAux_ne_nil (sep : List Char) : ∀ fuel cs acc, pySplitAux sep fuel cs acc ≠ []
  | 0, _, _ => by simp [pySplitAux]
  | _ + 1, [], _ => by simp [pySplitAux]
  | fuel + 1, c :: rest, acc => by
    unfold pySplitAux
    split_ifs
    · simp
    · exact pySplitAux_ne_nil sep fuel rest (c :: acc)

lemma intercalate_cons_of_ne_nil {α : Type} (sep a : List α) {l : List (List α)} (hl : l ≠ []) :
    sep.intercalate (a :: l) = a ++ sep ++ sep.intercalate l := by
  obtain ⟨b, l, rfl⟩ := List.exists_cons_of_ne_nil hl
  simp [List.intercalate, List.intersperse_cons_cons]

lemma pySplitAux_intercalate (sep : List Char) : ∀ fuel cs acc,
    sep.intercalate ((pySplitAux sep fuel cs acc).map String.data) = acc.reverse ++ cs
  | 0, cs, acc => by simp [pySplitAux, List.intercalate]
  | _ + 1, [], acc => by simp [pySplitAux, List.intercalate]
  | fuel + 1, c :: rest, acc => by
    unfold pySplitAux
    split_ifs with hpre
    · rw [List.map_cons, intercalate_cons_of_ne_nil _ _ (by simpa using pySplitAux_ne_nil sep fuel _ []),
        pySplitAux_intercalate sep fuel, List.reverse_nil, List.nil_append, List.append_assoc,
        List.prefix_iff_eq_append.1 (List.isPrefixOf_iff_prefix.1 hpre)]
    · rw [pySplitAux_intercalate sep fuel rest (c :: acc)]
      simp

lemma sep_free_of_clear {sep acc cs : List Char} (hsep : sep ≠ [])
    (h : ∀ i < acc.length, ¬ sep <+: (acc.reverse ++ cs).drop i) : ¬ sep <:+: acc.reverse := by
  rintro ⟨s, t, hst⟩
  have hlen : s.length < acc.length := by
    have := congrArg List.length hst
    simp only [List.length_append, List.length_reverse] at this
    have := List.length_pos.2 hsep
    omega
  refine h s.length hlen ⟨t ++ cs, ?_⟩
  rw [← hst]
  simp

lemma pySplitAux_sep_free (sep : List Char) (hsep : sep ≠ []) : ∀ fuel cs acc, cs.length < fuel →
    (∀ i < acc.length, ¬ sep <+: (acc.reverse ++ cs).drop i) →
    ∀ piece ∈ pySplitAux sep fuel cs acc, ¬ sep <:+: piece.data
  | 0, _, _, hf, _ => absurd hf (Nat.not_lt_zero _)
  | _ + 1, [], acc, _, hclear => by
    simp only [pySplitAux, List.mem_singleton]
    rintro _ rfl
    exact sep_free_of_clear hsep hclear
  | fuel + 1, c :: rest, acc, hf, hclear => by
    unfold pySplitAux
    split_ifs with hpre
    · intro piece hmem
      rcases List.mem_cons.1 hmem with rfl | hmem
      · exact sep_free_of_clear hsep hclear
      · refine pySplitAux_sep_free sep hsep fuel _ [] ?_ (fun i hi => absurd hi (Nat.not_lt_zero _))
          piece hmem
        have := List.length_pos.2 hsep
        simp only [List.length_cons, List.length_drop] at hf ⊢
        omega
    · refine pySplitAux_sep_free sep hsep fuel rest (c :: acc) (by simpa using hf) ?_
      intro i hi
      rw [List.reverse_cons, List.append_assoc, List.singleton_append]
      rcases Nat.lt_succ_iff_lt_or_eq.1 (by simpa using hi) with hi | rfl
      · exact hclear i hi
      · rw [List.drop_left' (List.length_reverse _)]
        exact fun h => hpre (List.isPrefixOf_iff_prefix.2 h)

/-- How `diff_objects` cuts a dump: the chunks joined by `Disassembly of section .` give
back the dump, so nothing is lost, and no chunk contains the separator, so each chunk after
the first is the text of one section. -/
theorem pySplit_sections (dump : String) :
    List.intercalate "Disassembly of section .".data
        ((pySplit dump "Disassembly of section .").map String.data) = dump.data ∧
      ∀ chunk ∈ pySplit dump "Disassembly of section .",
        ¬ "Disassembly of section .".data <:+: chunk.data :=
  ⟨pySplitAux_intercalate _ _ _ [],
    pySplitAux_sep_free _ (by decide) _ _ [] (Nat.lt_succ_self _) fun _ hi => absurd hi (Nat.not_lt_zero _)⟩

/-- The chunks of a dump after each `Disassembly of section .`, as lines. -/
def sectionsOf (dump : String) : List (List String) :=
  ((pySplit dump "Disassembly of section .").drop 1).map splitlines

/-- `is_funcion_section`. -/
def isFuncionSection (name : String) : Bool :=
  pyStartswith name "text." || pyStartswith name "tcm_code"

/-! ### `diff_objects` -/

/-- What `diff_objects` uses of `odiff.asm` and `odiff.html`: `Function(lines)`,
`f.name`, `f.equivalent(g)`, and the similarity `make_diff_table` returns for the lines
of two functions. -/
structure FuncOps (F : Type) where
  parse : List String → F
  name : F → String
  equivalent : F → F → Bool
  diffRatio : F → F → ℚ

/-- A function's `status`. -/
inductive FuncStatus where
  | missing
  | equivalent
  | different
deriving DecidableEq, Repr

/-- What the HTML shows for one vendor function. -/
structure FuncReport where
  name : String
  status : FuncStatus
  similarity : ℚ
deriving DecidableEq, Repr

variable {F : Type}

/-- The loop filing a dump's code-section functions by name. -/
def collectFuncs (ops : FuncOps F) :
    List (List String) → PyDict String F → Except Err (PyDict String F)
  | [], funcs => .ok funcs
  | [] :: _, _ => .error .indexError
  | (l0 :: ls) :: rest, funcs =>
    if isFuncionSection l0 then
      let f := ops.parse (l0 :: ls)
      collectFuncs ops rest (funcs.set (ops.name f) f)
    else collectFuncs ops rest funcs

/-- One iteration of the loop over `vendor_funcs`. -/
def diffFunc (ops : FuncOps F) (reFuncs : PyDict String F) (funcName : String) (f : F) :
    FuncReport :=
  match reFuncs.get funcName with
  | none => ⟨funcName, .missing, 0⟩
  | some g => if ops.equivalent f g then ⟨funcName, .equivalent, 1⟩
    else ⟨funcName, .different, ops.diffRatio f g⟩

/-- `diff_objects` on the two dumps: the reports, the similarity and `all_equivalent`. -/
def diffObjects (ops : FuncOps F) (vendorDump reDump : String) :
    Except Err (List FuncReport × ℚ × Bool) := do
  let vendorFuncs ← collectFuncs ops (sectionsOf vendorDump) []
  let reFuncs ← collectFuncs ops (sectionsOf reDump) []
  let reports := vendorFuncs.map fun (funcName, f) => diffFunc ops reFuncs funcName f
  let similarities := reports.map FuncReport.similarity
  return (reports,
    if similarities = [] then 1 else similarities.sum / similarities.length,
    similarities.all (· = 1))

/-! ### What the loops build -/

/-- A chunk whose first line names a code section. -/
def isCodeSection : List String → Bool
  | [] => false
  | l0 :: _ => isFuncionSection l0

/-- The dump's code-section functions by name, in order, repeats included. -/
def funcPairs (ops : FuncOps F) (sections : List (List String)) : List (String × F) :=
  (sections.filter isCodeSection).map fun lines => (ops.name (ops.parse lines), ops.parse lines)

/-- The names of a dump's code-section functions, in order, repeats included. -/
def codeFuncNames (ops : FuncOps F) (sections : List (List String)) : List String :=
  (funcPairs ops sections).map Prod.fst

/-- A dump's functions by name: one entry per name, where it first occurs, holding the
last function of that name. -/
def funcTable (ops : FuncOps F) (sections : List (List String)) : PyDict String F :=
  PyDict.setAll [] (funcPairs ops sections)

lemma collectFuncs_ok (ops : FuncOps F) {sections : List (List String)}
    (h : ∀ lines ∈ sections, lines ≠ []) (funcs : PyDict String F) :
    collectFuncs ops sections funcs = .ok (funcs.setAll (funcPairs ops sections)) := by
  induction sections generalizing funcs with
  | nil => rfl
  | cons lines rest ih =>
    have hrest := ih fun l hl => h l (List.mem_cons_of_mem _ hl)
    obtain ⟨l0, ls, rfl⟩ := List.exists_cons_of_ne_nil (h lines (List.mem_cons_self _ _))
    by_cases hc : isFuncionSection l0 <;> simp [collectFuncs, funcPairs, isCodeSection, hc, hrest]

lemma collectFuncs_eq_error (ops : FuncOps F) {sections : List (List String)}
    (h : [] ∈ sections) (funcs : PyDict String F) :
    collectFuncs ops sections funcs = .error .indexError := by
  induction sections generalizing funcs with
  | nil => cases h
  | cons lines rest ih =>
    match lines, h with
    | [], _ => rfl
    | l0 :: ls, h =>
      have hrest := ih (List.mem_of_ne_of_mem (List.cons_ne_nil l0 ls).symm h)
      by_cases hc : isFuncionSection l0 <;> simp [collectFuncs, hc, hrest]

namespace PyDict

variable {κ ν : Type} [DecidableEq κ]

lemma get_eq_none_iff (m : PyDict κ ν) (k : κ) : m.get k = none ↔ k ∉ m.map Prod.fst := by
  induction m with
  | nil => simp [PyDict.get]
  | cons p m ih => by_cases h : p.1 = k <;> simp [PyDict.get, h, ih, Ne.symm]

lemma get_of_mem {m : PyDict κ ν} (hnd : (m.map Prod.fst).Nodup) {k : κ} {v : ν}
    (h : (k, v) ∈ m) : m.get k = some v := by
  induction m with
  | nil => cases h
  | cons p m ih =>
    simp only [List.map_cons, List.nodup_cons] at hnd
    rcases List.mem_cons.1 h with rfl | h
    · simp [PyDict.get]
    · have hk : p.1 ≠ k := fun e => hnd.1 (e ▸ List.mem_map_of_mem Prod.fst h)
      simp [PyDict.get, hk, ih hnd.2 h]

lemma nodup_keys_setAll (m : PyDict κ ν) (hm : (m.map Prod.fst).Nodup) (l : List (κ × ν)) :
    ((m.setAll l).map Prod.fst).Nodup := by
  induction l generalizing m with
  | nil => exact hm
  | cons p l ih =>
    refine ih _ ?_
    rw [keys_set]
    split_ifs with hp
    · exact hm
    · exact hm.append (List.nodup_singleton _) (List.disjoint_singleton.2 hp)

end PyDict

lemma funcTable_keys (ops : FuncOps F) (sections : List (List String)) :
    (funcTable ops sections).map Prod.fst = firstOccurrences (codeFuncNames ops sections) :=
  PyDict.keys_setAll_nil _

lemma funcTable_get_eq_none_iff (ops : FuncOps F) (sections : List (List String)) (k : String) :
    (funcTable ops sections).get k = none ↔ k ∉ codeFuncNames ops sections := by
  simp [funcTable, codeFuncNames, PyDict.get_setAll, PyDict.get, PyDict.get_eq_none_iff,
    List.map_reverse]

lemma funcTable_get_of_mem {ops : FuncOps F} {sections : List (List String)} {k : String} {f : F}
    (h : (k, f) ∈ funcTable ops sections) : (funcTable ops sections).get k = some f :=
  PyDict.get_of_mem (PyDict.nodup_keys_setAll [] List.nodup_nil _) h

/-! ### The classification -/

/-- How `diff_objects` classifies a vendor function `f` against the candidate's function of
its name, if any. -/
def Classified (ops : FuncOps F) (f : F) : Option F → FuncReport → Prop
  | none, r => r.status = .missing ∧ r.similarity = 0
  | some g, r =>
    if ops.equivalent f g then r.status = .equivalent ∧ r.similarity = 1
    else r.status = .different ∧ r.similarity = ops.diffRatio f g

lemma diffFunc_name (ops : FuncOps F) (reFuncs : PyDict String F) (k : String) (f : F) :
    (diffFunc ops reFuncs k f).name = k := by
  unfold diffFunc
  split
  · rfl
  · split <;> rfl

lemma diffFunc_classified (ops : FuncOps F) (reFuncs : PyDict String F) (k : String) (f : F) :
    Classified ops f (reFuncs.get k) (diffFunc ops reFuncs k f) := by
  unfold diffFunc
  cases reFuncs.get k with
  | none => exact ⟨rfl, rfl⟩
  | some g => by_cases he : ops.equivalent f g <;> simp [Classified, he]

lemma Classified.missing_iff {ops : FuncOps F} {f : F} {og : Option F} {r : FuncReport}
    (h : Classified ops f og r) : r.status = .missing ↔ og = none := by
  cases og with
  | none => simpa using h.1
  | some g => by_cases he : ops.equivalent f g <;> simp [Classified, he] at h <;> simp [h.1]

lemma Classified.similarity_le_one {ops : FuncOps F} (hratio : ∀ f g, ops.diffRatio f g ≤ 1)
    {f : F} {og : Option F} {r : FuncReport} (h : Classified ops f og r) : r.similarity ≤ 1 := by
  cases og with
  | none => simp [h.2]
  | some g =>
    by_cases he : ops.equivalent f g <;> simp only [Classified, he] at h
    · simp [h.2]
    · exact h.2 ▸ hratio f g

/-! ### The object's similarity -/

lemma sum_eq_length_iff {xs : List ℚ} (h : ∀ x ∈ xs, x ≤ 1) :
    xs.sum = xs.length ↔ ∀ x ∈ xs, x = 1 := by
  induction xs with
  | nil => simp
  | cons x xs ih =>
    simp only [List.mem_cons, forall_eq_or_imp] at h ⊢
    have hs : xs.sum ≤ xs.length := by
      simpa using List.sum_le_card_nsmul xs 1 h.2
    rw [List.sum_cons, List.length_cons, Nat.cast_succ, ← ih h.2]
    constructor
    · intro he
      constructor <;> linarith [h.1]
    · rintro ⟨rfl, he⟩
      rw [he, add_comm]

lemma mean_eq_one_iff {xs : List ℚ} (h : ∀ x ∈ xs, x ≤ 1) :
    (if xs = [] then 1 else xs.sum / xs.length) = 1 ↔ ∀ x ∈ xs, x = 1 := by
  split_ifs with hxs
  · simp [hxs]
  · have hlen : (xs.length : ℚ) ≠ 0 := by simpa using hxs
    rw [div_eq_one_iff_eq hlen, sum_eq_length_iff h]

lemma mean_le_one {xs : List ℚ} (h : ∀ x ∈ xs, x ≤ 1) :
    (if xs = [] then 1 else xs.sum / xs.length) ≤ 1 := by
  split_ifs with hxs
  · exact le_rfl
  · have hlen : (0 : ℚ) < xs.length := by simpa [List.length_pos] using hxs
    exact div_le_one_of_le₀ (by simpa using List.sum_le_card_nsmul xs 1 h) hlen.le

/-- What `diff_objects` returns for two dumps, over the dictionaries of their
code-section functions: one report per distinct vendor name, in order of first
occurrence, each classified against the candidate's function of that name; the mean of
the similarities, 1 for none; and `all_equivalent` exactly when every similarity, or the
mean, is 1. -/
def DiffSpec (ops : FuncOps F) (vendorDump reDump : String) :
    List FuncReport × ℚ × Bool → Prop
  | (reports, similarity, allEquivalent) =>
    reports.map FuncReport.name = firstOccurrences (codeFuncNames ops (sectionsOf vendorDump)) ∧
    (∀ r ∈ reports, ∃ f, (funcTable ops (sectionsOf vendorDump)).get r.name = some f ∧
      Classified ops f ((funcTable ops (sectionsOf reDump)).get r.name) r) ∧
    (∀ r ∈ reports, r.status = .missing ↔ r.name ∉ codeFuncNames ops (sectionsOf reDump)) ∧
    (reports = [] → similarity = 1) ∧
    (reports ≠ [] → similarity * reports.length = (reports.map FuncReport.similarity).sum) ∧
    (allEquivalent = true ↔ ∀ r ∈ reports, r.similarity = 1) ∧
    (allEquivalent = true ↔ similarity = 1) ∧
    ((∃ r ∈ reports, r.status = .missing) → allEquivalent = false ∧ similarity < 1)

theorem diffObjects_spec (ops : FuncOps F) (hratio : ∀ f g, ops.diffRatio f g ≤ 1)
    (vendorDump reDump : String) (hv : ∀ lines ∈ sectionsOf vendorDump, lines ≠ [])
    (hr : ∀ lines ∈ sectionsOf reDump, lines ≠ []) :
    ∃ out, diffObjects ops vendorDump reDump = .ok out ∧ DiffSpec ops vendorDump reDump out := by
  set vendor := funcTable ops (sectionsOf vendorDump)
  set re := funcTable ops (sectionsOf reDump)
  set reports := vendor.map fun p => diffFunc ops re p.1 p.2 with hreports
  set sims := reports.map FuncReport.similarity
  have hclass : ∀ r ∈ reports, ∃ f, vendor.get r.name = some f ∧ Classified ops f (re.get r.name) r := by
    intro r hr
    obtain ⟨⟨k, f⟩, hk, rfl⟩ := List.mem_map.1 hr
    rw [diffFunc_name]
    exact ⟨f, funcTable_get_of_mem hk, diffFunc_classified ops re k f⟩
  have hle : ∀ x ∈ sims, x ≤ 1 := by
    simp only [sims, List.mem_map]
    rintro _ ⟨r, hr, rfl⟩
    obtain ⟨f, -, hc⟩ := hclass r hr
    exact hc.similarity_le_one hratio
  have hall : sims.all (· = 1) = true ↔ ∀ r ∈ reports, r.similarity = 1 := by simp [sims]
  refine ⟨(reports, if sims = [] then 1 else sims.sum / sims.length, sims.all (· = 1)), ?_, ?_⟩
  · rw [diffObjects, collectFuncs_ok ops hv, collectFuncs_ok ops hr]
    rfl
  refine ⟨?_, fun r hr => hclass r hr, fun r hr => ?_, fun h => by simp [sims, h], fun h => ?_,
    hall, ?_, ?_⟩
  · simp only [hreports, List.map_map, Function.comp_def, diffFunc_name]
    exact funcTable_keys ops _
  · obtain ⟨f, -, hc⟩ := hclass r hr
    rw [hc.missing_iff, funcTable_get_eq_none_iff]
  · have hlen : (reports.length : ℚ) ≠ 0 := by simpa using h
    simp [sims, h, div_mul_cancel₀ _ hlen]
  · rw [hall, mean_eq_one_iff hle]
    simp [sims]
  · rintro ⟨r, hr, hm⟩
    obtain ⟨f, -, hc⟩ := hclass r hr
    have h0 : r.similarity = 0 := by
      cases hg : re.get r.name with
      | none => rw [hg] at hc; exact hc.2
      | some g => exact absurd (hc.missing_iff.1 hm) (by simp [hg])
    have hne : ¬∀ x ∈ sims, x = 1 := fun h => by simpa [h0] using h _ (List.mem_map_of_mem _ hr)
    exact ⟨by simpa using hne, lt_of_le_of_ne (mean_le_one hle) (mt (mean_eq_one_iff hle).1 hne)⟩

/-- Functions as their lines, named by their first line, with the ratio 1/2. -/
def linesOps : FuncOps (List String) :=
  ⟨id, fun lines => lines.headD "", (· == ·), fun _ _ => 1 / 2⟩

/-- A dump with the one function section `text.f`. -/
def oneFuncDump : String :=
  "Disassembly of section .text.f:\nret\n"

theorem diffObjects_spec_one_missing :
    (∀ f g, linesOps.diffRatio f g ≤ 1) ∧ (∀ lines ∈ sectionsOf oneFuncDump, lines ≠ []) ∧
      (∀ lines ∈ sectionsOf "", lines ≠ []) ∧
      ∃ out, diffObjects linesOps oneFuncDump "" = .ok out ∧ DiffSpec linesOps oneFuncDump "" out :=
  have hratio : ∀ f g, linesOps.diffRatio f g ≤ 1 := fun _ _ => show (1 / 2 : ℚ) ≤ 1 by norm_num
  ⟨hratio, by decide, by decide, diffObjects_spec linesOps hratio _ _ (by decide) (by decide)⟩

/-! ### When `diff_objects` raises -/

/-- `diff_objects` returns exactly when no chunk after a `Disassembly of section .` of
either dump is empty (a dump ending in the separator, or two separators in a row, leave
one), and otherwise it raises `IndexError` at `lines[0]`: no other error can escape. -/
theorem diffObjects_ok_iff (ops : FuncOps F) (vendorDump reDump : String) :
    ((∃ out, diffObjects ops vendorDump reDump = .ok out) ↔
      "" ∉ (pySplit vendorDump "Disassembly of section .").drop 1 ∧
        "" ∉ (pySplit reDump "Disassembly of section .").drop 1) ∧
      ∀ e, diffObjects ops vendorDump reDump = .error e → e = .indexError := by
  have hsec : ∀ dump, [] ∈ sectionsOf dump ↔
      "" ∈ (pySplit dump "Disassembly of section .").drop 1 :=
    fun dump => by simp [sectionsOf, ← List.map_tail, splitlines_eq_nil_iff]
  have hok : ∀ dump, [] ∉ sectionsOf dump → ∀ lines ∈ sectionsOf dump, lines ≠ [] :=
    fun _ h lines hl => by rintro rfl; exact h hl
  simp only [← hsec]
  by_cases hv : [] ∈ sectionsOf vendorDump
  · have herr : diffObjects ops vendorDump reDump = .error .indexError := by
      rw [diffObjects, collectFuncs_eq_error ops hv]; rfl
    simp [herr, hv]
  by_cases hr : [] ∈ sectionsOf reDump
  · have herr : diffObjects ops vendorDump reDump = .error .indexError := by
      rw [diffObjects, collectFuncs_ok ops (hok _ hv), collectFuncs_eq_error ops hr]; rfl
    simp [herr, hr]
  · obtain ⟨out, hout⟩ : ∃ out, diffObjects ops vendorDump reDump = .ok out := by
      rw [diffObjects, collectFuncs_ok ops (hok _ hv), collectFuncs_ok ops (hok _ hr)]
      exact ⟨_, rfl⟩
    simp [hout, hv, hr]

/-! ### Which sections are compared -/

lemma splitlinesAux_head (cs acc : List Char) {l : String} {ls : List String}
    (h : splitlinesAux cs acc = l :: ls) :
    ∃ pre rest, l.data = acc.reverse ++ pre ∧ cs = pre ++ rest ∧
      (∀ c ∈ pre, isLineBoundary c = false) ∧
      (rest = [] ∨ ∃ c r, rest = c :: r ∧ isLineBoundary c = true) := by
  induction cs, acc using splitlinesAux.induct generalizing l ls with
  | case1 => simp [splitlinesAux] at h
  | case2 acc hacc =>
    simp only [splitlinesAux, hacc, if_false, List.cons.injEq] at h
    exact ⟨[], [], by simp [← h.1], by simp, by simp, .inl rfl⟩
  | case3 rest acc =>
    simp only [splitlinesAux, List.cons.injEq] at h
    exact ⟨[], _, by simp [← h.1], rfl, by simp, .inr ⟨_, _, rfl, by decide⟩⟩
  | case4 c rest acc _ hb =>
    simp only [splitlinesAux, hb, if_true, List.cons.injEq] at h
    exact ⟨[], _, by simp [← h.1], rfl, by simp, .inr ⟨_, _, rfl, hb⟩⟩
  | case5 c rest acc hcr hb ih =>
    rw [splitlinesAux] at h
    · rw [if_neg hb] at h
      obtain ⟨pre, r, hl, hrest, hpre, hr⟩ := ih h
      refine ⟨c :: pre, r, by simp [hl], by simp [hrest], ?_, hr⟩
      simp only [List.mem_cons, forall_eq_or_imp]
      exact ⟨by simpa using hb, hpre⟩
    · exact hcr

lemma isPrefixOf_first_line {p pre rest : List Char} (hp : ∀ c ∈ p, isLineBoundary c = false)
    (hrest : rest = [] ∨ ∃ c r, rest = c :: r ∧ isLineBoundary c = true) :
    p.isPrefixOf pre = p.isPrefixOf (pre ++ rest) := by
  rw [Bool.eq_iff_iff, List.isPrefixOf_iff_prefix, List.isPrefixOf_iff_prefix]
  refine ⟨fun h => h.trans (List.prefix_append _ _), fun h => ?_⟩
  rcases hrest with rfl | ⟨c, r, rfl, hc⟩
  · rwa [List.append_nil] at h
  have hcp : c ∉ p := fun hm => by simp [hp c hm] at hc
  have hpre : pre ++ [c] <+: pre ++ c :: r := by simp
  rcases List.prefix_or_prefix_of_prefix h hpre with h' | h'
  · rcases List.prefix_concat_iff.1 h' with rfl | h''
    · exact absurd (by simp) hcp
    · exact h''
  · exact absurd (h'.subset (by simp)) hcp

lemma isCodeSection_splitlines (chunk : String) :
    isCodeSection (splitlines chunk) = isFuncionSection chunk := by
  unfold splitlines
  rcases h : splitlinesAux chunk.data [] with _ | ⟨l, ls⟩
  · obtain rfl : chunk = "" := String.ext ((splitlinesAux_eq_nil_iff _ _).1 h).1
    rfl
  · obtain ⟨pre, rest, hl, hc, -, hrest⟩ := splitlinesAux_head _ _ h
    have hstarts : ∀ pfx : String, (∀ c ∈ pfx.data, isLineBoundary c = false) →
        pyStartswith l pfx = pyStartswith chunk pfx := fun pfx hp => by
      simp only [pyStartswith, hl, hc, List.reverse_nil, List.nil_append]
      exact isPrefixOf_first_line hp hrest
    simp only [isCodeSection, isFuncionSection]
    rw [hstarts "text." (by decide), hstarts "tcm_code" (by decide)]

/-- The functions `diff_objects` collects from a dump are those of the chunks after each
`Disassembly of section .` whose text begins with `text.` or `tcm_code`, in order: the
sections whose name has one of these prefixes, each parsed from its lines. -/
theorem funcPairs_sections (ops : FuncOps F) (dump : String) :
    funcPairs ops (sectionsOf dump) =
      (((pySplit dump "Disassembly of section .").drop 1).filter isFuncionSection).map
        fun chunk => (ops.name (ops.parse (splitlines chunk)), ops.parse (splitlines chunk)) := by
  simp only [funcPairs, sectionsOf, List.filter_map, List.map_map]
  congr 1
  exact List.filter_congr fun chunk _ => isCodeSection_splitlines chunk

/-! ### An object against itself -/

/-- Diffing a dump against itself, with an `equivalent` that holds of every function and
itself, finds every vendor function present and equivalent: one report per distinct
code-section function name, in order of first occurrence, each `equivalent` with similarity
1; the object's similarity is 1 and `all_equivalent` holds, whenever no chunk of the dump is
empty. -/
theorem diffObjects_self (ops : FuncOps F) (hrefl : ∀ f, ops.equivalent f f = true)
    (dump : String) (h : ∀ lines ∈ sectionsOf dump, lines ≠ []) :
    ∃ reports, diffObjects ops dump dump = .ok (reports, 1, true) ∧
      reports.map FuncReport.name = firstOccurrences (codeFuncNames ops (sectionsOf dump)) ∧
      ∀ r ∈ reports, r.status = .equivalent ∧ r.similarity = 1 := by
  set table := funcTable ops (sectionsOf dump)
  set reports := table.map fun p => diffFunc ops table p.1 p.2
  have hnames : reports.map FuncReport.name = firstOccurrences (codeFuncNames ops (sectionsOf dump)) := by
    simp only [reports, List.map_map, Function.comp_def, diffFunc_name]
    exact funcTable_keys ops _
  have hone : ∀ r ∈ reports, r.status = .equivalent ∧ r.similarity = 1 := by
    simp only [reports, List.mem_map]
    rintro _ ⟨p, hp, rfl⟩
    simp [diffFunc, funcTable_get_of_mem hp, hrefl]
  have hsims : ∀ x ∈ reports.map FuncReport.similarity, x = 1 := by
    simp only [List.mem_map]
    rintro _ ⟨r, hr, rfl⟩
    exact (hone r hr).2
  set sims := reports.map FuncReport.similarity
  have hrun : diffObjects ops dump dump =
      .ok (reports, if sims = [] then 1 else sims.sum / sims.length, sims.all (· = 1)) := by
    rw [diffObjects, collectFuncs_ok ops h]
    rfl
  have hall : sims.all (· = 1) = true := List.all_eq_true.2 fun x hx => by simp [hsims x hx]
  refine ⟨reports, ?_, hnames, hone⟩
  rw [hrun, (mean_eq_one_iff fun x hx => (hsims x hx).le).2 hsims, hall]

theorem diffObjects_self_one :
    (∀ f, linesOps.equivalent f f = true) ∧ (∀ lines ∈ sectionsOf oneFuncDump, lines ≠ []) ∧
      ∃ reports, diffObjects linesOps oneFuncDump oneFuncDump = .ok (reports, 1, true) ∧
        reports.map FuncReport.name =
          firstOccurrences (codeFuncNames linesOps (sectionsOf oneFuncDump)) ∧
        ∀ r ∈ reports, r.status = .equivalent ∧ r.similarity = 1 :=
  have hrefl : ∀ f, linesOps.equivalent f f = true := fun f => beq_self_eq_true f
  ⟨hrefl, by decide, diffObjects_self linesOps hrefl oneFuncDump (by decide)⟩

end ObjectDiff
