import ObjectDiff.SymbolTable
import ObjectDiff.Members

/-!
# What the symbol-table cache answers

On a buffer of little-endian ELF32 records of `sh_entsize ≥ 13` bytes, the scan of
`is_static` assigns each function or object record's name to whether its binding is local,
a later record overwriting an earlier one. A cached name is one that some such record has,
with the binding of the last one; with distinct names, neither the order of the records nor
that of the queries matters.
-/

namespace ObjectDiff

/-- A buffer of `sh_entsize`-byte records, `sh_entsize ≥ 13`. -/
structure SymbolTable.Records (t : SymbolTable) (recs : List (List UInt8)) : Prop where
  entsize_ge : 13 ≤ t.entsize
  length_eq : ∀ r ∈ recs, r.length = t.entsize
  buf_eq : t.buf = recs.flatten

/-- The name of a record: the string at its `st_name`, the little-endian word it starts
with. -/
def symName (t : SymbolTable) (r : List UInt8) : String :=
  t.getString (leUInt (r.take 4))

/-- `st_info`: the byte at offset 12 of an ELF32 symbol. -/
def symInfo (r : List UInt8) : Nat :=
  (r.getD 12 0).toNat

/-- Function and object symbols: `st_info & 0xF` is `STT_FUNC` or `STT_OBJECT`. -/
def isFuncOrObject (r : List UInt8) : Bool :=
  symInfo r &&& 0xF = sttFunc ∨ symInfo r &&& 0xF = sttObject

/-- The answer for `s` read off the records: `(True, b)` when some function or object
record is named `s`, `b` telling whether the binding `st_info >> 4` of the last one is
`STB_LOCAL`, and `(False, False)` when none is. -/
def recordsAnswer (t : SymbolTable) (recs : List (List UInt8)) (s : String) : Bool × Bool :=
  match (recs.filter fun r => isFuncOrObject r ∧ symName t r = s).getLast? with
  | some r => (true, symInfo r >>> 4 = stbLocal)
  | none => (false, false)

/-- The entry a record adds to the cache. -/
def symEntry (t : SymbolTable) (r : List UInt8) : Option (String × Bool) :=
  if isFuncOrObject r then some (symName t r, symInfo r >>> 4 = stbLocal) else none

/-! ### The scan -/

lemma pyRange_mul (n : Nat) {e : Nat} (he : 0 < e) :
    pyRange (n * e) e = .ok (List.range' 0 n e) := by
  have hn : (n * e + e - 1) / e = n := by
    apply Nat.div_eq_of_lt_le
    · omega
    · rw [Nat.succ_mul]; omega
  simp [pyRange, Nat.pos_iff_ne_zero.1 he, hn]

lemma length_flatten_of_length_eq {e : Nat} :
    ∀ {recs : List (List UInt8)}, (∀ r ∈ recs, r.length = e) → recs.flatten.length = recs.length * e
  | [], _ => by simp
  | r :: recs, h => by
    rw [List.flatten_cons, List.length_append, h r (List.mem_cons_self _ _),
      length_flatten_of_length_eq fun r' hr' => h r' (List.mem_cons_of_mem _ hr'),
      List.length_cons, Nat.succ_mul, Nat.add_comm]

lemma elfSymUnpack_record {r rest : List UInt8} (hr : 13 ≤ r.length) :
    elfSymUnpack ((r ++ rest).take 13) = .ok (leUInt (r.take 4), symInfo r) := by
  have h13 : (r ++ rest).take 13 = r.take 13 := List.take_append_of_le_length hr
  simp [elfSymUnpack, h13, hr, List.take_take, symInfo, List.getD_eq_getElem?_getD,
    List.getElem?_take, List.getElem?_eq_getElem (show 12 < r.length by omega)]

lemma staticScan_records (t : SymbolTable) (hent : 13 ≤ t.entsize) :
    ∀ (recs : List (List UInt8)) (pre : List UInt8) (static : PyDict String Bool),
      (∀ r ∈ recs, r.length = t.entsize) → t.buf = pre ++ recs.flatten →
      staticScan t (List.range' pre.length recs.length t.entsize) static =
        .ok (static.setAll (recs.filterMap (symEntry t)))
  | [], _, static, _, _ => rfl
  | r :: recs, pre, static, hlen, hbuf => by
    have hr := hlen r (List.mem_cons_self _ _)
    have hslice : (t.buf.drop pre.length).take 13 = (r ++ recs.flatten).take 13 := by
      rw [hbuf, List.flatten_cons, List.drop_left]
    have ih := fun st => staticScan_records t hent recs (pre ++ r) st
      (fun r' hr' => hlen r' (List.mem_cons_of_mem _ hr')) (by simp [hbuf])
    rw [List.length_append, hr] at ih
    rw [List.length_cons, List.range'_succ, staticScan, hslice,
      elfSymUnpack_record (hr ▸ hent)]
    dsimp only [bind, Except.bind]
    by_cases hfo : symInfo r &&& 0xF = sttFunc ∨ symInfo r &&& 0xF = sttObject <;>
      simp [hfo, ih, symEntry, isFuncOrObject, symName]

lemma buildStaticCache_records {t : SymbolTable} {recs : List (List UInt8)}
    (h : t.Records recs) :
    buildStaticCache t = .ok (PyDict.setAll [] (recs.filterMap (symEntry t))) := by
  have hlen := length_flatten_of_length_eq h.length_eq
  have he : 0 < t.entsize := by have := h.entsize_ge; omega
  rw [buildStaticCache_of_pos he, h.buf_eq, hlen, pyRange_mul _ he]
  exact staticScan_records t h.entsize_ge recs [] [] h.length_eq (by simp [h.buf_eq])

/-! ### What the cache answers -/

lemma get_setAll_symEntry (t : SymbolTable) (s : String) (recs : List (List UInt8)) :
    (PyDict.setAll [] (recs.filterMap (symEntry t))).get s =
      (recs.filter fun r => isFuncOrObject r ∧ symName t r = s).getLast?.map
        fun r => decide (symInfo r >>> 4 = stbLocal) := by
  induction recs using List.reverseRecOn with
  | nil => rfl
  | append_singleton recs r ih =>
    by_cases hfo : isFuncOrObject r
    · by_cases hs : symName t r = s
      · simp [List.filterMap_append, symEntry, hfo, PyDict.setAll_concat, PyDict.get_set, hs]
      · simp [List.filterMap_append, symEntry, hfo, PyDict.setAll_concat, PyDict.get_set, Ne.symm hs, hs, ih]
    · simp [List.filterMap_append, symEntry, hfo, ih]

lemma staticLookup_records (t : SymbolTable) (recs : List (List UInt8)) (s : String) :
    staticLookup (PyDict.setAll [] (recs.filterMap (symEntry t))) (some s) =
      recordsAnswer t recs s := by
  simp only [staticLookup, Option.some_bind, get_setAll_symEntry, recordsAnswer]
  cases (recs.filter fun r => isFuncOrObject r ∧ symName t r = s).getLast? <;> rfl

/-! ### Every call -/

lemma isStatic_calls {t : SymbolTable} {c : PyDict String Bool}
    (hc : buildStaticCache t = .ok c) :
    ∀ (qs : List String) {m : Option (PyDict String Bool)}, StaticCacheOk t m →
      (qs.mapM fun s => isStatic t (some s)) m =
        (.ok (qs.map fun s => staticLookup c (some s)), if qs = [] then m else some c)
  | [], _, _ => rfl
  | q :: qs, m, hm => by
    have hc' : StaticCacheOk t (some c) := fun c' h => by cases h; exact hc
    rw [List.mapM_cons, PyM.bind_apply, isStatic_ok hc hm]
    simp only [PyM.bind_apply, isStatic_calls hc qs hc']
    cases qs <;> rfl

lemma recordsAnswer_perm {t : SymbolTable} {recs recs' : List (List UInt8)}
    (hnd : ((recs.filter isFuncOrObject).map (symName t)).Nodup) (hp : recs'.Perm recs)
    (s : String) : recordsAnswer t recs' s = recordsAnswer t recs s := by
  have hone : (recs.filter fun r => isFuncOrObject r ∧ symName t r = s).length ≤ 1 := by
    have hsub : ((recs.filter fun r => isFuncOrObject r ∧ symName t r = s).map
        (symName t)).Nodup := ((List.monotone_filter_right recs fun r h => by simp_all).map _).nodup hnd
    have hrep : (recs.filter fun r => isFuncOrObject r ∧ symName t r = s).map (symName t) =
        List.replicate _ s :=
      List.eq_replicate_iff.2 ⟨List.length_map _ _, fun b hb => by
        obtain ⟨r, hr, rfl⟩ := List.mem_map.1 hb
        exact (of_decide_eq_true (List.mem_filter.1 hr).2).2⟩
    exact List.nodup_replicate.1 (hrep ▸ hsub)
  have heq : (recs'.filter fun r => isFuncOrObject r ∧ symName t r = s) =
      recs.filter fun r => isFuncOrObject r ∧ symName t r = s := by
    have hperm := hp.filter fun r => isFuncOrObject r ∧ symName t r = s
    rcases h : (recs.filter fun r => isFuncOrObject r ∧ symName t r = s) with _ | ⟨a, _ | ⟨b, l⟩⟩
    · exact List.perm_nil.1 (h ▸ hperm)
    · exact List.perm_singleton.1 (h ▸ hperm)
    · rw [h] at hone; simp at hone
  rw [recordsAnswer, heq, recordsAnswer]

/-- Every call of `is_static` on a table of little-endian ELF32 records, the first, which
builds the cache, and every later one, which reads it, answers `(True, b)` for a name that
a function or object record has, `b` the binding of the last such record, and
`(False, False)` otherwise. With distinct function and object names, no answer depends on
the order of the records or of the queries. -/
theorem isStatic_answers (t : SymbolTable) (recs : List (List UInt8)) (h : t.Records recs)
    (qs : List String) :
    (∃ c, buildStaticCache t = .ok c ∧
      (qs.mapM fun s => isStatic t (some s)) none =
        (.ok (qs.map (recordsAnswer t recs)), if qs = [] then none else some c)) ∧
    (((recs.filter isFuncOrObject).map (symName t)).Nodup →
      ∀ recs' : List (List UInt8), recs'.Perm recs → ∀ qs' : List String,
        ((qs'.mapM fun s => isStatic { t with buf := recs'.flatten } (some s)) none).1 =
          .ok (qs'.map (recordsAnswer t recs))) := by
  have hnone : ∀ t', StaticCacheOk t' none := fun _ _ h => by cases h
  refine ⟨⟨_, buildStaticCache_records h, ?_⟩, fun hnd recs' hp qs' => ?_⟩
  · rw [isStatic_calls (buildStaticCache_records h) qs (hnone t)]
    simp only [staticLookup_records]
  · have h' : SymbolTable.Records { t with buf := recs'.flatten } recs' :=
      ⟨h.entsize_ge, fun r hr => h.length_eq r (hp.subset hr), rfl⟩
    rw [isStatic_calls (buildStaticCache_records h') qs' (hnone _)]
    simp only [staticLookup_records]
    exact congrArg _ (List.map_congr_left fun s _ => recordsAnswer_perm hnd hp s)

/-- Two ELF32 symbols of 16 bytes: a global function `f` (`st_info` 0x12) and a local
object `x` (`st_info` 0x01). -/
def pairRecords : List (List UInt8) :=
  [[1, 0, 0, 0, 0, 0, 0, 0, 0, 0, 0, 0, 0x12, 0, 0, 0],
   [2, 0, 0, 0, 0, 0, 0, 0, 0, 0, 0, 0, 0x01, 0, 0, 0]]

/-- The table of `pairRecords`. -/
def pairTable : SymbolTable :=
  ⟨pairRecords.flatten, 16, 32, fun n => if n = 1 then "f" else "x"⟩

theorem isStatic_answers_pair :
    pairTable.Records pairRecords ∧
    ((∃ c, buildStaticCache pairTable = .ok c ∧
      (["x", "f", "y"].mapM fun s => isStatic pairTable (some s)) none =
        (.ok (["x", "f", "y"].map (recordsAnswer pairTable pairRecords)),
          if ["x", "f", "y"] = [] then none else some c)) ∧
    (((pairRecords.filter isFuncOrObject).map (symName pairTable)).Nodup →
      ∀ recs' : List (List UInt8), recs'.Perm pairRecords → ∀ qs' : List String,
        ((qs'.mapM fun s => isStatic { pairTable with buf := recs'.flatten } (some s)) none).1 =
          .ok (qs'.map (recordsAnswer pairTable pairRecords)))) :=
  have h : pairTable.Records pairRecords := ⟨by decide, by decide, rfl⟩
  ⟨h, isStatic_answers pairTable pairRecords h ["x", "f", "y"]⟩

example : ["x", "f", "y"].map (recordsAnswer pairTable pairRecords) =
    [(true, true), (true, false), (false, false)] := by
  decide

/-! ### When the first call raises -/

lemma staticScan_ok_iff (t : SymbolTable) :
    ∀ (ps : List Nat) (static : PyDict String Bool),
      ((∃ c, staticScan t ps static = .ok c) ↔ ∀ p ∈ ps, p + 13 ≤ t.buf.length) ∧
        ∀ e, staticScan t ps static = .error e → e = .structError
  | [], _ => ⟨⟨fun _ _ h => (by cases h), fun _ => ⟨_, rfl⟩⟩, fun _ h => (by cases h)⟩
  | p :: ps, static => by
    have hlen : ((t.buf.drop p).take 13).length = 13 ↔ p + 13 ≤ t.buf.length := by
      simp only [List.length_take, List.length_drop]
      omega
    by_cases hp : p + 13 ≤ t.buf.length
    · have hunpack : elfSymUnpack ((t.buf.drop p).take 13) =
          .ok (leUInt (((t.buf.drop p).take 13).take 4),
            ((((t.buf.drop p).take 13).getD 12 0)).toNat) := if_pos (hlen.2 hp)
      rw [staticScan, hunpack]
      dsimp only [bind, Except.bind]
      split_ifs <;> simpa [hp] using staticScan_ok_iff t ps _
    · have hunpack : elfSymUnpack ((t.buf.drop p).take 13) = .error .structError :=
        if_neg (mt hlen.1 hp)
      rw [staticScan, hunpack]
      exact ⟨⟨fun ⟨_, h⟩ => (by cases h), fun h => absurd (h p (List.mem_cons_self _ _)) hp⟩,
        fun _ h => by cases h; rfl⟩

lemma forall_range_iff {L e : Nat} (he : 0 < e) :
    (∀ p ∈ List.range' 0 ((L + e - 1) / e) e, p + 13 ≤ L) ↔ L = 0 ∨ 13 ≤ L - e * ((L - 1) / e) := by
  simp only [List.mem_range', Nat.zero_add, forall_exists_index, and_imp]
  rcases Nat.eq_zero_or_pos L with rfl | hL
  · simp [Nat.div_eq_of_lt (Nat.sub_lt he Nat.one_pos)]
  · have hn : (L + e - 1) / e = (L - 1) / e + 1 := by
      rw [show L + e - 1 = L - 1 + e by omega, Nat.add_div_right _ he]
    have hlast : e * ((L - 1) / e) ≤ L - 1 := Nat.mul_div_le (L - 1) e
    rw [hn]
    constructor
    · intro h
      exact .inr (by have := h _ ((L - 1) / e) (Nat.lt_succ_self _) rfl; omega)
    · rintro (h | h) p i hi rfl
      · omega
      · have : e * i ≤ e * ((L - 1) / e) := Nat.mul_le_mul_left e (Nat.lt_succ_iff.1 hi)
        omega

/-- The first call of `is_static`, which builds the cache, raises exactly when
`sh_entsize` is 0, with the `ZeroDivisionError` of `num_symbols()`, or when the buffer's last
record, counting a partial one, is shorter than the 13 bytes `ELF_SYM_STRUCT` unpacks, with
`struct.error`; every other buffer is decoded. -/
theorem buildStaticCache_result (t : SymbolTable) :
    (t.entsize = 0 → buildStaticCache t = .error .zeroDivisionError) ∧
    (0 < t.entsize →
      ((∃ c, buildStaticCache t = .ok c) ↔
        t.buf.length = 0 ∨ 13 ≤ t.buf.length - t.entsize * ((t.buf.length - 1) / t.entsize)) ∧
      ∀ e, buildStaticCache t = .error e → e = .structError) := by
  refine ⟨fun h0 => by simp [buildStaticCache, SymbolTable.numSymbols, h0, bind, Except.bind],
    fun he => ?_⟩
  have hrange : pyRange t.buf.length t.entsize =
      .ok (List.range' 0 ((t.buf.length + t.entsize - 1) / t.entsize) t.entsize) := by
    simp [pyRange, Nat.pos_iff_ne_zero.1 he]
  rw [buildStaticCache_of_pos he, hrange, ← forall_range_iff he]
  exact staticScan_ok_iff t _ []

end ObjectDiff
