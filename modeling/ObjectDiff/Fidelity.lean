import ObjectDiff.Denotation
import Mathlib.Data.List.Nodup

/-!
# What the reconstruction reads as

On a well-formed unit, every model `die_to_ctype` returns reads as the type its entry
denotes (a subroutine type's as a pointer to it), from any cache whose entries already do.
Each condition of `WellFormed` is needed: `die_get_at_type` turns a `KeyError` into `void`,
the array branch keeps one bound, a subroutine type becomes a function pointer, and a
qualified `CArray` is returned as it is. A reading survives every later step (`Agrees`).
-/

namespace ObjectDiff

/-! ### Fuel -/

/-- `g` answers every query `f` answers, the same way. -/
def OptLe {α β : Type} (f g : α → Option β) : Prop :=
  ∀ a b, f a = some b → g a = some b

lemma OptLe.refl {α β : Type} (f : α → Option β) : OptLe f f := fun _ _ h => h

lemma OptLe.trans {α β : Type} {f g k : α → Option β} (h₁ : OptLe f g) (h₂ : OptLe g k) :
    OptLe f k := fun a b h => h₂ a b (h₁ a b h)

section Denote

variable {u : CompUnit} {rec rec' : Die → Option CTy}

lemma refType_mono (h : OptLe rec rec') : OptLe (refType u rec) (refType u rec') := by
  rintro (_ | off) t ht
  · exact ht
  · obtain ⟨e, he, hr⟩ := Option.bind_eq_some.1 ht
    exact Option.bind_eq_some.2 ⟨e, he, h _ _ hr⟩

lemma paramTypes_mono (h : OptLe rec rec') : OptLe (paramTypes u rec) (paramTypes u rec') := by
  intro cs
  induction cs with
  | nil => exact fun _ h => h
  | cons a cs ih =>
    intro ps hps
    simp only [paramTypes] at hps ⊢
    split_ifs at hps ⊢
    · simp only [Option.bind_eq_bind, Option.bind_eq_some, Option.pure_def,
        Option.some.injEq] at hps ⊢
      obtain ⟨t, ⟨e, he, ht⟩, ts, hts, rfl⟩ := hps
      exact ⟨t, ⟨e, he, h _ _ ht⟩, ts, ih ts hts, rfl⟩
    · simp only [Option.map_eq_map, Option.map_eq_some'] at hps ⊢
      obtain ⟨ts, hts, rfl⟩ := hps
      exact ⟨ts, ih ts hts, rfl⟩
    · exact ih ps hps

lemma denoteStep_mono (h : OptLe rec rec') : OptLe (denoteStep u rec) (denoteStep u rec') := by
  intro d t ht
  have href := refType_mono (u := u) h d.type
  unfold denoteStep at ht ⊢
  split at ht <;> try simp only [Option.map_eq_map, Option.map_eq_some', Option.bind_eq_bind,
    Option.bind_eq_some, Option.pure_def, Option.some.injEq] at ht ⊢
  all_goals first
    | exact ht
    | exact href _ ht
    | (obtain ⟨t', ht', rfl⟩ := ht; exact ⟨t', href _ ht', rfl⟩)
    | (obtain ⟨r, hr, ps, hps, rfl⟩ := ht
       exact ⟨r, href _ hr, ps, paramTypes_mono h _ _ hps, rfl⟩)

lemma denote_succ_mono (n : Nat) : OptLe (denote u n) (denote u (n + 1)) := by
  induction n with
  | zero => exact fun _ _ h => by cases h
  | succ n ih => exact denoteStep_mono ih

lemma denote_mono {n m : Nat} (hnm : n ≤ m) : OptLe (denote u n) (denote u m) := by
  induction hnm with
  | refl => exact OptLe.refl _
  | step _ ih => exact ih.trans (denote_succ_mono _)

end Denote

/-- `d` denotes `t`, following references as deep as needed. -/
def Denotes (u : CompUnit) (d : Die) (t : CTy) : Prop :=
  ∃ n, denote u n d = some t

/-- The parameters of a subroutine type's children denote `ps`. -/
def ParamsDenote (u : CompUnit) (cs : List Die) (ps : CTys) : Prop :=
  ∃ n, paramTypes u (denote u n) cs = some ps

lemma Denotes.unique {u : CompUnit} {d : Die} {t t' : CTy} (h : Denotes u d t)
    (h' : Denotes u d t') : t = t' := by
  obtain ⟨n, hn⟩ := h
  obtain ⟨m, hm⟩ := h'
  have := denote_mono (u := u) (le_max_left n m) d t hn
  rwa [denote_mono (u := u) (le_max_right n m) d t' hm, Option.some.injEq, eq_comm] at this

/-! ### Readings survive the heap's later steps -/

/-- An object with the member dictionaries of an aggregate emptied: what a reading sees. -/
def CObj.erase : CObj → CObj
  | .struct die name _ _ => .struct die name [] []
  | .union die name _ => .union die name []
  | .enum die name _ => .enum die name []
  | o => o

@[simp] lemma readCell_erase (rec : CRef → Option CTy) (o : CObj) :
    readCell rec o.erase = readCell rec o := by
  cases o <;> rfl

/-- Every object of `h` is in `h'` at its address, up to its members. -/
def Agrees (h h' : Heap) : Prop :=
  ∀ (a : Nat) (o : CObj), h[a]? = some o → ∃ o', h'[a]? = some o' ∧ o'.erase = o.erase

lemma Agrees.refl (h : Heap) : Agrees h h := fun _ o ho => ⟨o, ho, rfl⟩

lemma Agrees.trans {h₁ h₂ h₃ : Heap} (h₁₂ : Agrees h₁ h₂) (h₂₃ : Agrees h₂ h₃) : Agrees h₁ h₃ :=
  fun a o ho => by
    obtain ⟨o₂, ho₂, he₂⟩ := h₁₂ a o ho
    obtain ⟨o₃, ho₃, he₃⟩ := h₂₃ a o₂ ho₂
    exact ⟨o₃, ho₃, he₃.trans he₂⟩

lemma agrees_append (h : Heap) (o : CObj) : Agrees h (h ++ [o]) :=
  fun _ o' ho => ⟨o', by rw [List.getElem?_append_left (List.getElem?_eq_some_iff.1 ho).1, ho], rfl⟩

lemma agrees_modify (h : Heap) {f : CObj → CObj} (hf : ∀ o, (f o).erase = o.erase) (a : Nat) :
    Agrees h (h.modify f a) := fun b o ho => by
  by_cases hab : a = b
  · subst hab
    exact ⟨f o, by simp [List.getElem?_modify, ho], hf o⟩
  · exact ⟨o, by rw [List.getElem?_modify_ne _ _ hab]; exact ho, rfl⟩

section Read

variable {rec rec' : CRef → Option CTy}

lemma readArgs_mono (h : OptLe rec rec') : OptLe (readArgs rec) (readArgs rec') := by
  intro args
  induction args with
  | nil => exact fun _ h => h
  | cons p args ih =>
    intro ps hps
    simp only [readArgs, Option.bind_eq_bind, Option.bind_eq_some, Option.pure_def,
      Option.some.injEq] at hps ⊢
    obtain ⟨t, ht, ts, hts, rfl⟩ := hps
    exact ⟨t, h _ _ ht, ts, ih ts hts, rfl⟩

lemma readCell_mono (h : OptLe rec rec') : OptLe (readCell rec) (readCell rec') := by
  intro o t ht
  cases o <;> simp only [readCell, Option.map_eq_map, Option.map_eq_some', Option.bind_eq_bind,
    Option.bind_eq_some, Option.pure_def, Option.some.injEq] at ht ⊢
  all_goals first
    | exact ht
    | exact h _ _ ht
    | (obtain ⟨t', ht', rfl⟩ := ht; exact ⟨t', h _ _ ht', rfl⟩)
    | (obtain ⟨r, hr, ps, hps, rfl⟩ := ht
       exact ⟨r, h _ _ hr, ps, readArgs_mono h _ _ hps, rfl⟩)

lemma readStep_mono {h h' : Heap} (hh : Agrees h h') (hrec : OptLe rec rec') :
    OptLe (readStep h rec) (readStep h' rec') := by
  rintro (_ | _ | a) t ht
  · exact ht
  · exact ht
  · obtain ⟨o, ho, hc⟩ := Option.bind_eq_some.1 ht
    obtain ⟨o', ho', he⟩ := hh a o ho
    refine Option.bind_eq_some.2 ⟨o', ho', ?_⟩
    rw [← readCell_erase, he, readCell_erase]
    exact readCell_mono hrec _ _ hc

lemma readOff_mono {h h' : Heap} (hh : Agrees h h') {n m : Nat} (hnm : n ≤ m) :
    OptLe (readOff h n) (readOff h' m) := by
  induction n generalizing m with
  | zero => exact fun _ _ h => by cases h
  | succ n ih =>
    obtain ⟨m, rfl⟩ : ∃ m', m = m' + 1 := ⟨m - 1, by omega⟩
    exact readStep_mono hh (ih (by omega))

end Read

/-- `r` reads as `t` in `h`, following links as deep as needed. -/
def Reads (h : Heap) (r : CRef) (t : CTy) : Prop :=
  ∃ n, readOff h n r = some t

/-- `args` read as the parameter list `ps` in `h`. -/
def ArgsRead (h : Heap) (args : List (CRef × Option String)) (ps : CTys) : Prop :=
  ∃ n, readArgs (readOff h n) args = some ps

lemma Reads.mono {h h' : Heap} (hh : Agrees h h') {r : CRef} {t : CTy} (hr : Reads h r t) :
    Reads h' r t :=
  let ⟨n, hn⟩ := hr
  ⟨n, readOff_mono hh le_rfl r t hn⟩

lemma ArgsRead.mono {h h' : Heap} (hh : Agrees h h') {args : List (CRef × Option String)}
    {ps : CTys} (ha : ArgsRead h args ps) : ArgsRead h' args ps :=
  let ⟨n, hn⟩ := ha
  ⟨n, readArgs_mono (readOff_mono hh le_rfl) args ps hn⟩

lemma Reads.unique {h : Heap} {r : CRef} {t t' : CTy} (ht : Reads h r t) (ht' : Reads h r t') :
    t = t' := by
  obtain ⟨n, hn⟩ := ht
  obtain ⟨m, hm⟩ := ht'
  have := readOff_mono (Agrees.refl h) (le_max_left n m) r t hn
  rwa [readOff_mono (Agrees.refl h) (le_max_right n m) r t' hm, Option.some.injEq,
    eq_comm] at this

/-! ### One dimension -/

lemma arrayLength_cons_of_ne {c : Die} (hc : c.tag ≠ .subrangeType) (len : Option Nat)
    (cs : List Die) : arrayLength len (c :: cs) = arrayLength len cs := by
  simp only [arrayLength]
  split
  · simp_all
  · rfl

lemma arrayLength_cons_of_eq {c : Die} (hc : c.tag = .subrangeType) (len : Option Nat)
    (cs : List Die) : arrayLength len (c :: cs) = arrayLength ((c.upperBound.map (· + 1)).or len) cs := by
  simp only [arrayLength, hc]
  cases c.upperBound <;> rfl

lemma arrayLength_filter (len : Option Nat) (cs : List Die) :
    arrayLength len cs = arrayLength len (cs.filter (·.tag = .subrangeType)) := by
  induction cs generalizing len with
  | nil => rfl
  | cons c cs ih =>
    by_cases hc : c.tag = .subrangeType
    · rw [List.filter_cons_of_pos (by simpa using hc), arrayLength_cons_of_eq hc,
        arrayLength_cons_of_eq hc, ih]
    · rw [List.filter_cons_of_neg (by simpa using hc), arrayLength_cons_of_ne hc, ih]

lemma arrayOf_arrayDims {u : CompUnit} {d : Die}
    (hone : ((u.children d).filter (·.tag = .subrangeType)).length ≤ 1) (t : CTy) :
    arrayOf t (arrayDims u d) = .array t (arrayLength none (u.children d)) := by
  rw [arrayLength_filter]
  unfold arrayDims
  have hsub : ∀ c ∈ (u.children d).filter (·.tag = .subrangeType), c.tag = .subrangeType :=
    fun c hc => by simpa using (List.mem_filter.1 hc).2
  generalize (u.children d).filter (·.tag = .subrangeType) = subs at hone hsub ⊢
  match subs, hone, hsub with
  | [], _, _ => rfl
  | [c], _, hsub =>
    rw [arrayLength_cons_of_eq (hsub c (List.mem_singleton_self c))]
    simp [arrayOf, arrayLength]
  | _ :: _ :: _, hone, _ => simp at hone

/-! ### Models and well-formed units -/

/-- The entries whose model is a `CArray`: arrays, and `const` or `volatile` over one,
whose branch returns the array unwrapped. -/
inductive ArrayLike (u : CompUnit) : Die → Prop
  | array {d : Die} : d.tag = .arrayType → ArrayLike u d
  | qual {d e : Die} {off : Nat} : (d.tag = .constType ∨ d.tag = .volatileType) →
      d.type = some off → u.get? off = some e → ArrayLike u e → ArrayLike u d

/-- What a model of `d` reads as when `d` denotes `t`: a subroutine type is modelled by a
function pointer. -/
def modelType (d : Die) (t : CTy) : CTy :=
  if d.tag = .subroutineType then .ptr t else t

/-- `r` models `d` in `h`: it reads as what `d` denotes, and is a `CArray` only for an
array-like entry. -/
def Models (u : CompUnit) (d : Die) (h : Heap) (r : CRef) : Prop :=
  ∃ t, Denotes u d t ∧ Reads h r (modelType d t) ∧ (isCArray h r = true → ArrayLike u d)

/-- What `die_get_at_type` returns for a `DW_AT_type` reference: `void` for none, else a
model of the entry referred to. -/
def RefModel (u : CompUnit) : Option Nat → Heap → CRef → Prop
  | none, _, r => r = .void
  | some off, h, r => ∃ e, u.get? off = some e ∧ Models u e h r

/-- Every cached entry holds a model of its DIE. -/
def CacheSound (u : CompUnit) (s : TypeState) : Prop :=
  ∀ d ∈ u.dies, ∀ r, s.cache d.offset = some r → Models u d s.heap r

/-- A property of heaps that every later heap keeps. -/
def Stable (P : Heap → Prop) : Prop :=
  ∀ h h', P h → Agrees h h' → P h'

/-- The units on which `die_to_ctype` models every entry faithfully. -/
structure WellFormed (u : CompUnit) : Prop where
  offsets_nodup : (u.dies.map (·.offset)).Nodup
  named : ∀ d ∈ u.dies, d.tag = .baseType ∨ d.tag = .typedef → d.name.isSome
  located : ∀ d ∈ u.dies, d.tag = .structureType → ∀ c ∈ u.children d, c.tag = .member →
    c.dataMemberLocation.isSome
  valued : ∀ d ∈ u.dies, d.tag = .enumerationType → ∀ c ∈ u.children d,
    c.tag = .enumerator → c.constValue.isSome
  typed_params : ∀ d ∈ u.dies, d.tag = .subroutineType → ∀ c ∈ u.children d,
    c.tag = .formalParameter → c.type.isSome ∧ (d.name.isSome → c.name.isSome)
  one_dim : ∀ d ∈ u.dies, d.tag = .arrayType →
    ((u.children d).filter (·.tag = .subrangeType)).length ≤ 1
  funcs_by_pointer : ∀ d ∈ u.dies, d.tag ≠ .pointerType → ∀ e ∈ d.type.bind u.get?,
    e.tag ≠ .subroutineType
  qualified_arrays : ∀ d ∈ u.dies, d.tag = .constType ∨ d.tag = .volatileType →
    ∀ off e, d.type = some off → u.get? off = some e → ArrayLike u e → ∀ t, Denotes u e t →
    qualify (decide (d.tag = .constType)) (decide (d.tag = .volatileType)) t = t

/-! ### Facts about models -/

/-- Whether an object is a `CArray`. -/
def CObj.isArray : CObj → Bool
  | .array .. => true
  | _ => false

@[simp] lemma CObj.isArray_erase (o : CObj) : o.erase.isArray = o.isArray := by
  cases o <;> rfl

lemma isCArray_obj (h : Heap) (a : Nat) : isCArray h (.obj a) = (h[a]?.map CObj.isArray).getD false := by
  simp only [isCArray]
  rcases h[a]? with _ | o
  · rfl
  · cases o <;> rfl

lemma Reads.obj {h : Heap} {a : Nat} {o : CObj} (ho : h[a]? = some o) {n : Nat} {t : CTy}
    (hc : readCell (readOff h n) o = some t) : Reads h (.obj a) t :=
  ⟨n + 1, by simp only [readOff, readStep, ho, Option.some_bind, hc]⟩

lemma Reads.cell {h : Heap} {a : Nat} {t : CTy} (hr : Reads h (.obj a) t) :
    ∃ o, h[a]? = some o ∧ ∃ n, readCell (readOff h n) o = some t := by
  obtain ⟨_ | n, hn⟩ := hr
  · cases hn
  · obtain ⟨o, ho, hc⟩ := Option.bind_eq_some.1 hn
    exact ⟨o, ho, n, hc⟩

lemma Reads.void (h : Heap) : Reads h .void .void := ⟨1, rfl⟩

lemma Reads.ellipsis (h : Heap) : Reads h .ellipsis .ellipsis := ⟨1, rfl⟩

lemma Reads.array_of_isCArray {h : Heap} {r : CRef} {t : CTy} (hr : Reads h r t)
    (hc : isCArray h r = true) : ∃ t' n, t = .array t' n := by
  rcases r with _ | _ | a
  · cases hc
  · cases hc
  obtain ⟨o, ho, n, hcell⟩ := hr.cell
  rw [isCArray_obj, ho] at hc
  cases o with
  | array _ _ len =>
    simp only [readCell, Option.map_eq_map, Option.map_eq_some'] at hcell
    obtain ⟨t', -, rfl⟩ := hcell
    exact ⟨t', len, rfl⟩
  | _ => simp [CObj.isArray] at hc

lemma isCArray_of_agrees {h h' : Heap} (hh : Agrees h h') {r : CRef} {t : CTy}
    (hr : Reads h r t) (hc : isCArray h' r = true) : isCArray h r = true := by
  rcases r with _ | _ | a
  · cases hc
  · cases hc
  obtain ⟨o, ho, -⟩ := hr.cell
  obtain ⟨o', ho', he⟩ := hh a o ho
  rw [isCArray_obj, ho'] at hc
  rw [isCArray_obj, ho, Option.map_some', Option.getD_some, ← CObj.isArray_erase, ← he,
    CObj.isArray_erase]
  simpa using hc

lemma Models.mono {u : CompUnit} {d : Die} {h h' : Heap} {r : CRef} (hm : Models u d h r)
    (hh : Agrees h h') : Models u d h' r :=
  let ⟨t, hd, hr, harr⟩ := hm
  ⟨t, hd, hr.mono hh, fun hc => harr (isCArray_of_agrees hh hr hc)⟩

lemma RefModel.mono {u : CompUnit} {ot : Option Nat} {h h' : Heap} {r : CRef}
    (hm : RefModel u ot h r) (hh : Agrees h h') : RefModel u ot h' r := by
  cases ot with
  | none => exact hm
  | some off =>
    obtain ⟨e, he, hme⟩ := hm
    exact ⟨e, he, hme.mono hh⟩

lemma CacheSound.of_agrees {u : CompUnit} {s : TypeState} (hs : CacheSound u s) {h' : Heap}
    (hh : Agrees s.heap h') : CacheSound u { s with heap := h' } :=
  fun d hd r hr => (hs d hd r hr).mono hh

/-! ### Parameter lists -/

section Params

variable {u : CompUnit} {c : Die} {cs : List Die} {ps : CTys}

lemma ParamsDenote.nil (u : CompUnit) : ParamsDenote u [] .nil := ⟨0, rfl⟩

lemma ParamsDenote.cons_formal (hc : c.tag = .formalParameter) {off : Nat} (hty : c.type = some off)
    {e : Die} (he : u.get? off = some e) {t : CTy} (ht : Denotes u e t) (hps : ParamsDenote u cs ps) :
    ParamsDenote u (c :: cs) (.cons t ps) := by
  obtain ⟨n, hn⟩ := ht
  obtain ⟨m, hm⟩ := hps
  refine ⟨max n m, ?_⟩
  simp only [paramTypes, if_pos hc, hty, Option.some_bind, he, Option.bind_eq_bind,
    denote_mono (le_max_left n m) e t hn, paramTypes_mono (denote_mono (le_max_right n m)) cs ps hm]
  rfl

lemma ParamsDenote.cons_unspecified (hc : c.tag = .unspecifiedParameters)
    (hps : ParamsDenote u cs ps) : ParamsDenote u (c :: cs) (.cons .ellipsis ps) := by
  obtain ⟨m, hm⟩ := hps
  exact ⟨m, by simp [paramTypes, hc, hm]⟩

lemma ParamsDenote.cons_other (hc : c.tag ≠ .formalParameter)
    (hu : c.tag ≠ .unspecifiedParameters) (hps : ParamsDenote u cs ps) :
    ParamsDenote u (c :: cs) ps := by
  obtain ⟨m, hm⟩ := hps
  exact ⟨m, by simp [paramTypes, hc, hu, hm]⟩

lemma ArgsRead.nil (h : Heap) : ArgsRead h [] .nil := ⟨0, rfl⟩

lemma ArgsRead.cons {h : Heap} {r : CRef} {t : CTy} (hr : Reads h r t) (name : Option String)
    {args : List (CRef × Option String)} (ha : ArgsRead h args ps) :
    ArgsRead h ((r, name) :: args) (.cons t ps) := by
  obtain ⟨n, hn⟩ := hr
  obtain ⟨m, hm⟩ := ha
  refine ⟨max n m, ?_⟩
  simp only [readArgs, Option.bind_eq_bind, readOff_mono (Agrees.refl h) (le_max_left n m) r t hn,
    readArgs_mono (readOff_mono (Agrees.refl h) (le_max_right n m)) args ps hm]
  rfl

end Params

/-! ### A program logic for models -/

/-- Run from a state whose cache holds models and whose heap satisfies `P`, `x` raises no
`KeyError`, or returns `a` into a state whose cache holds models, whose heap agrees with
the first and satisfies `Q a`. -/
def Sound (u : CompUnit) {α : Type} (P : Heap → Prop) (x : RecM α) (Q : α → Heap → Prop) :
    Prop :=
  ∀ s, CacheSound u s → P s.heap → match x s with
    | (.ok a, s') => CacheSound u s' ∧ Agrees s.heap s'.heap ∧ Q a s'.heap
    | (.error e, _) => ∀ k, e ≠ .keyError k

namespace Sound

variable {u : CompUnit} {α β : Type} {P P' : Heap → Prop} {Q Q' : α → Heap → Prop}

lemma conseq {x : RecM α} (hx : Sound u P x Q) (hp : ∀ h, P' h → P h)
    (hq : ∀ a h, Q a h → Q' a h) : Sound u P' x Q' := fun s hs hps => by
  have := hx s hs (hp _ hps)
  revert this
  rcases x s with ⟨_ | a, s'⟩
  · exact id
  · exact fun ⟨hs', hag, hq'⟩ => ⟨hs', hag, hq _ _ hq'⟩

lemma frame {x : RecM α} (hx : Sound u P x Q) {F : Heap → Prop} (hF : Stable F) :
    Sound u (fun h => P h ∧ F h) x (fun a h => Q a h ∧ F h) := fun s hs ⟨hps, hfs⟩ => by
  have := hx s hs hps
  revert this
  rcases x s with ⟨_ | a, s'⟩
  · exact id
  · exact fun ⟨hs', hag, hq⟩ => ⟨hs', hag, hq, hF _ _ hfs hag⟩

lemma ret {a : α} (h : ∀ hp, P hp → Q a hp) : Sound u P (pure a) Q :=
  fun _ hs hps => ⟨hs, Agrees.refl _, h _ hps⟩

lemma raise {e : Err} (he : ∀ k, e ≠ .keyError k) : Sound u P (throw e : RecM α) Q :=
  fun _ _ _ => he

lemma bind {x : RecM α} {f : α → RecM β} {R : α → Heap → Prop} {Q : β → Heap → Prop}
    (hx : Sound u P x R) (hf : ∀ a, Sound u (R a) (f a) Q) : Sound u P (x >>= f) Q :=
  fun s hs hps => by
    have h₁ := hx s hs hps
    rw [PyM.bind_apply]
    generalize x s = r₁ at h₁ ⊢
    rcases r₁ with ⟨_ | a, s₁⟩
    · exact h₁
    · obtain ⟨hs₁, hag₁, hr⟩ := h₁
      have h₂ := hf a s₁ hs₁ hr
      dsimp only
      generalize f a s₁ = r₂ at h₂ ⊢
      rcases r₂ with ⟨_ | b, s₂⟩
      · exact h₂
      · exact ⟨h₂.1, hag₁.trans h₂.2.1, h₂.2.2⟩

lemma get_bind {f : TypeState → RecM β} {Q : β → Heap → Prop}
    (hf : ∀ s₀ : TypeState, Sound u (fun h => h = s₀.heap ∧ P h) (f s₀) Q) :
    Sound u P (get >>= f) Q := fun s hs hps => by
  simpa only [PyM.bind_apply, PyM.get_apply] using hf s s hs ⟨rfl, hps⟩

lemma getDie_bind {off : Nat} {f : Die → RecM β} {Q : β → Heap → Prop}
    (hf : ∀ e, u.get? off = some e → Sound u P (f e) Q) : Sound u P (getDie u off >>= f) Q := by
  unfold getDie
  split
  · simpa only [pure_bind] using hf _ ‹_›
  · exact fun _ _ _ => by simp [PyM.bind_apply]

lemma tryCatch {x : RecM α} {h : Err → RecM α} (hx : Sound u P x Q)
    (hh : ∀ e, (∀ k, e ≠ .keyError k) → h e = throw e) : Sound u P (tryCatch x h) Q :=
  fun s hs hps => by
    have h₁ := hx s hs hps
    rw [PyM.tryCatch_apply]
    generalize x s = r at h₁ ⊢
    rcases r with ⟨_ | a, s'⟩
    · dsimp only
      rw [hh _ h₁]
      exact h₁
    · exact h₁

lemma updateObj {a : Nat} {f : CObj → CObj} (hf : ∀ o, (f o).erase = o.erase) (hP : Stable P) :
    Sound u P (ObjectDiff.updateObj a f) (fun _ => P) := fun s hs hps => by
  have hag := agrees_modify s.heap hf a
  exact ⟨hs.of_agrees hag, hag, hP _ _ hps hag⟩

section Cache

variable (hnd : (u.dies.map (·.offset)).Nodup) {d : Die} (hd : d ∈ u.dies) {o : CObj}
include hnd hd

lemma cacheObj {Q : Nat → Heap → Prop}
    (h : ∀ hp, P hp → Models u d (hp ++ [o]) (.obj hp.length) ∧ Q hp.length (hp ++ [o])) :
    Sound u P (ObjectDiff.cacheObj d o) Q := fun s hs hps => by
  rw [cacheObj_apply]
  obtain ⟨hm, hq⟩ := h _ hps
  refine ⟨fun d' hd' r hr => ?_, agrees_append _ _, hq⟩
  by_cases hoff : d'.offset = d.offset
  · obtain rfl : d' = d := List.inj_on_of_nodup_map hnd hd' hd hoff
    simp only [Function.update_same, Option.some.injEq] at hr
    exact hr ▸ hm
  · simp only [Function.update_noteq hoff] at hr
    exact (hs d' hd' r hr).mono (agrees_append _ _)

lemma cacheCtype {Q : CRef → Heap → Prop}
    (h : ∀ hp, P hp → Models u d (hp ++ [o]) (.obj hp.length) ∧ Q (.obj hp.length) (hp ++ [o])) :
    Sound u P (ObjectDiff.cacheCtype d o) Q :=
  bind (cacheObj hnd hd (Q := fun a hp => Models u d hp (.obj a) ∧ Q (.obj a) hp) fun hp hps =>
    ⟨(h hp hps).1, h hp hps⟩) fun _ => ret fun _ h => h.2

lemma cacheCtype_models (h : ∀ hp, P hp → Models u d (hp ++ [o]) (.obj hp.length)) :
    Sound u P (ObjectDiff.cacheCtype d o) (fun r h => Models u d h r) :=
  cacheCtype hnd hd fun hp hps => ⟨h hp hps, h hp hps⟩

lemma cacheObj_models (h : ∀ hp, P hp → Models u d (hp ++ [o]) (.obj hp.length)) :
    Sound u P (ObjectDiff.cacheObj d o) (fun a h => Models u d h (.obj a)) :=
  cacheObj hnd hd fun hp hps => ⟨h hp hps, h hp hps⟩

end Cache

lemma framed {x : RecM α} (hx : Sound u (fun _ => True) x Q) {F : Heap → Prop} (hF : Stable F) :
    Sound u F x (fun a h => Q a h ∧ F h) :=
  (hx.frame hF).conseq (fun _ h => ⟨trivial, h⟩) fun _ _ h => h

end Sound

@[simp] lemma CObj.erase_setMember (k : Option String) (v : CRef) (o : CObj) :
    (o.setMember k v).erase = o.erase := by
  cases o <;> rfl

@[simp] lemma CObj.erase_setMemberOffset (k : Option String) (v : Nat) (o : CObj) :
    (o.setMemberOffset k v).erase = o.erase := by
  cases o <;> rfl

@[simp] lemma CObj.erase_setEnumerator (k : Option String) (v : Int) (o : CObj) :
    (o.setEnumerator k v).erase = o.erase := by
  cases o <;> rfl

lemma stable_models {u : CompUnit} (d : Die) (r : CRef) : Stable fun h => Models u d h r :=
  fun _ _ hm hh => hm.mono hh

lemma stable_refModel {u : CompUnit} (ot : Option Nat) (r : CRef) :
    Stable fun h => RefModel u ot h r :=
  fun _ _ hm hh => hm.mono hh

/-! ### One step of the reconstruction -/

section Steps

variable {u : CompUnit} {recurse : Die → RecM CRef}
  (hrec : ∀ e ∈ u.dies, Sound u (fun _ => True) (recurse e) (fun r h => Models u e h r))
include hrec

lemma dieGetAtType_sound (d : Die) :
    Sound u (fun _ => True) (dieGetAtType u recurse d) (fun r h => RefModel u d.type h r) := by
  unfold dieGetAtType
  cases d.type with
  | none =>
    intro s hs _
    simp only [attr, PyM.tryCatch_apply, PyM.bind_apply, PyM.throw_apply, PyM.pure_apply]
    exact ⟨hs, Agrees.refl _, rfl⟩
  | some off =>
    refine Sound.tryCatch ?_ fun e he => ?_
    · simp only [attr, pure_bind]
      exact Sound.getDie_bind fun e he =>
        (hrec e (CompUnit.get?_mem he)).conseq (fun _ _ => trivial) fun _ _ hm => ⟨e, he, hm⟩
    · cases e <;> simp_all

lemma memberLoop_sound (a : Nat) (w : Bool) {F : Heap → Prop} (hF : Stable F) :
    ∀ {cs : List Die}, (w = true → ∀ c ∈ cs, c.tag = .member → c.dataMemberLocation.isSome) →
    Sound u F (memberLoop u recurse a w cs) (fun _ => F)
  | [], _ => Sound.ret fun _ h => h
  | c :: cs, hloc => by
    have ih := memberLoop_sound a w hF fun hw c' hc' => hloc hw c' (List.mem_cons_of_mem _ hc')
    simp only [memberLoop]
    split
    · rename_i htag
      refine Sound.bind ((dieGetAtType_sound hrec c).framed hF) fun _ =>
        Sound.bind ((Sound.updateObj (CObj.erase_setMember _ _) hF).conseq (fun _ h => h.2)
          fun _ _ h => h) fun _ => ?_
      split
      · rename_i hw
        obtain ⟨loc, hl⟩ := Option.isSome_iff_exists.1 (hloc hw c (List.mem_cons_self _ _) htag)
        simp only [hl, attr, pure_bind]
        exact Sound.bind (Sound.updateObj (CObj.erase_setMemberOffset _ _) hF) fun _ => ih
      · exact Sound.bind (Sound.ret fun _ h => h) fun _ => ih
    · exact Sound.bind (Sound.ret fun _ h => h) fun _ => ih

omit hrec in
lemma enumLoop_sound (a : Nat) {F : Heap → Prop} (hF : Stable F) :
    ∀ {cs : List Die}, (∀ c ∈ cs, c.tag = .enumerator → c.constValue.isSome) →
    Sound u F (enumLoop a cs) (fun _ => F)
  | [], _ => Sound.ret fun _ h => h
  | c :: cs, hval => by
    have ih := enumLoop_sound a hF fun c' hc' => hval c' (List.mem_cons_of_mem _ hc')
    simp only [enumLoop]
    split
    · rename_i htag
      obtain ⟨v, hv⟩ := Option.isSome_iff_exists.1 (hval c (List.mem_cons_self _ _) htag)
      simp only [hv, attr, pure_bind]
      exact Sound.bind (Sound.updateObj (CObj.erase_setEnumerator _ _) hF) fun _ => ih
    · exact ih

lemma funclikeArgs_sound (d : Die) :
    ∀ {cs : List Die}, (∀ c ∈ cs, c ∈ u.dies) →
    (∀ c ∈ cs, c.tag = .formalParameter → c.type.isSome ∧ (d.name.isSome → c.name.isSome)) →
    (∀ c ∈ cs, c.tag = .formalParameter → ∀ e ∈ c.type.bind u.get?, e.tag ≠ .subroutineType) →
    Sound u (fun _ => True) (funclikeArgs u recurse d cs)
      (fun args h => ∃ ps, ParamsDenote u cs ps ∧ ArgsRead h args ps)
  | [], _, _, _ => Sound.ret fun _ _ => ⟨.nil, .nil u, .nil _⟩
  | c :: cs, hmem, hparams, hnsub => by
    have ih := funclikeArgs_sound d (fun c' hc' => hmem c' (List.mem_cons_of_mem _ hc'))
      (fun c' hc' => hparams c' (List.mem_cons_of_mem _ hc'))
      (fun c' hc' => hnsub c' (List.mem_cons_of_mem _ hc'))
    simp only [funclikeArgs]
    split_ifs with hformal hunspec hskip
    · obtain ⟨hty, hname⟩ := hparams c (List.mem_cons_self _ _) hformal
      obtain ⟨off, hoff⟩ := Option.isSome_iff_exists.1 hty
      have hpn : Sound u (fun _ => True) (paramName d c : RecM (Option String)) fun _ _ => True := by
        unfold paramName
        split_ifs with hd
        · obtain ⟨n, hn⟩ := Option.isSome_iff_exists.1 (hname hd)
          simp only [hn, attr, map_pure]
          exact Sound.ret fun _ _ => trivial
        · exact Sound.ret fun _ _ => trivial
      refine Sound.bind hpn fun y => ?_
      simp only [hoff, attr, pure_bind]
      refine Sound.getDie_bind fun e he => Sound.bind ((hrec e (CompUnit.get?_mem he)).conseq
        (fun _ _ => trivial) fun _ _ h => h) fun ty => Sound.bind (ih.framed (stable_models e ty))
        fun args => Sound.ret ?_
      rintro h ⟨⟨ps, hps, hargs⟩, t, hden, hr, -⟩
      have hsub := hnsub c (List.mem_cons_self _ _) hformal e (by simp [hoff, he])
      refine ⟨.cons t ps, .cons_formal hformal hoff he hden hps, .cons ?_ y hargs⟩
      simpa [modelType, hsub] using hr
    · refine Sound.bind ih fun args => Sound.ret fun h ⟨ps, hps, hargs⟩ =>
        ⟨.cons .ellipsis ps, .cons_unspecified hunspec hps, .cons (.ellipsis h) none hargs⟩
    · exact ih.conseq (fun _ h => h) fun _ _ ⟨ps, hps, hargs⟩ =>
        ⟨ps, .cons_other hformal hunspec hps, hargs⟩
    · exact Sound.raise fun _ => Err.noConfusion

lemma dieToFunclikeArgs_sound (hwf : WellFormed u) {d : Die} (hd : d ∈ u.dies)
    (hsub : d.tag = .subroutineType) :
    Sound u (fun _ => True) (dieToFunclikeArgs u recurse d) fun p h =>
      RefModel u d.type h p.1 ∧ ∃ ps, ParamsDenote u (u.children d) ps ∧ ArgsRead h p.2 ps := by
  have hchild : ∀ c ∈ u.children d, c ∈ u.dies := fun c hc => by
    obtain ⟨_, -, hc⟩ := List.mem_filterMap.1 hc
    exact CompUnit.get?_mem hc
  simp only [dieToFunclikeArgs, hsub, ne_eq, not_true_eq_false, false_and, if_false, pure_bind]
  exact Sound.bind (dieGetAtType_sound hrec d) fun ret =>
    Sound.bind ((funclikeArgs_sound hrec d hchild (hwf.typed_params d hd hsub) fun c hc hf =>
      hwf.funcs_by_pointer c (hchild c hc) (by simp [hf])).framed (stable_refModel _ ret))
      fun args => Sound.ret fun _ ⟨hargs, hret⟩ => ⟨hret, hargs⟩

end Steps

/-! ### Models of the objects `buildCtype` creates -/

section Kinds

variable {u : CompUnit} {d : Die} {hp : Heap}

lemma RefModel.denotes {ot : Option Nat} {r : CRef} (hm : RefModel u ot hp r)
    (hnsub : ∀ e ∈ ot.bind u.get?, e.tag ≠ .subroutineType) :
    ∃ t, (∃ n, refType u (denote u n) ot = some t) ∧ Reads hp r t ∧
      (isCArray hp r = true → ∃ off e, ot = some off ∧ u.get? off = some e ∧ ArrayLike u e) := by
  cases ot with
  | none =>
    cases (hm : r = .void)
    exact ⟨.void, ⟨0, rfl⟩, .void hp, fun h => by cases h⟩
  | some off =>
    obtain ⟨e, he, t, ⟨n, hn⟩, hr, harr⟩ := hm
    have hnot : e.tag ≠ .subroutineType := hnsub e (by simp [he])
    refine ⟨t, ⟨n, by simp [refType, he, hn]⟩, by simpa [modelType, hnot] using hr,
      fun hc => ⟨off, e, rfl, he, harr hc⟩⟩

lemma isCArray_new (o : CObj) : isCArray (hp ++ [o]) (.obj hp.length) = o.isArray := by
  rw [isCArray_obj, List.getElem?_concat_length]
  rfl

lemma models_wrap {g : CTy → CTy} {K : CRef → CObj}
    (hden : ∀ rec, denoteStep u rec d = g <$> refType u rec d.type)
    (hread : ∀ rec of, readCell rec (K of) = g <$> rec of)
    (harr : ∀ of, (K of).isArray = true → ArrayLike u d) (hdsub : d.tag ≠ .subroutineType)
    (hnsub : ∀ e ∈ d.type.bind u.get?, e.tag ≠ .subroutineType)
    {of : CRef} (hof : RefModel u d.type hp of) : Models u d (hp ++ [K of]) (.obj hp.length) := by
  obtain ⟨t, ⟨n, hn⟩, ⟨m, hm⟩, -⟩ := hof.denotes hnsub
  refine ⟨g t, ⟨n + 1, by rw [denote, hden, hn]; rfl⟩, ?_, fun hc => harr of ?_⟩
  · rw [modelType, if_neg hdsub]
    refine Reads.obj (List.getElem?_concat_length _ _) (n := m) ?_
    rw [hread, readOff_mono (agrees_append hp _) le_rfl of t hm]
    rfl
  · rwa [isCArray_new] at hc

lemma models_agg (hagg : d.tag = .structureType ∨ d.tag = .unionType ∨ d.tag = .enumerationType)
    {o : CObj} (hread : ∀ rec, readCell rec o = some (.agg d.offset)) (harr : o.isArray = false) :
    Models u d (hp ++ [o]) (.obj hp.length) := by
  have hden : Denotes u d (.agg d.offset) :=
    ⟨1, by rcases hagg with h | h | h <;> simp [denote, denoteStep, h]⟩
  have hdsub : d.tag ≠ .subroutineType := by rcases hagg with h | h | h <;> simp [h]
  refine ⟨_, hden, ?_, fun hc => by rw [isCArray_new, harr] at hc; cases hc⟩
  rw [modelType, if_neg hdsub]
  exact Reads.obj (n := 0) (List.getElem?_concat_length _ _) (hread _)

lemma models_functionPtr (hsub : d.tag = .subroutineType)
    (hnsub : ∀ e ∈ d.type.bind u.get?, e.tag ≠ .subroutineType)
    {ret : CRef} {args : List (CRef × Option String)} (hret : RefModel u d.type hp ret)
    (hargs : ∃ ps, ParamsDenote u (u.children d) ps ∧ ArgsRead hp args ps) :
    Models u d (hp ++ [.functionPtr d.offset ret args]) (.obj hp.length) := by
  obtain ⟨t, ⟨n, hn⟩, ⟨m, hm⟩, -⟩ := hret.denotes hnsub
  obtain ⟨ps, ⟨k, hk⟩, ⟨j, hj⟩⟩ := hargs
  have hag := agrees_append hp (.functionPtr d.offset ret args)
  refine ⟨.func t ps, ⟨max n k + 1, ?_⟩, ?_, fun hc => by rw [isCArray_new] at hc; cases hc⟩
  · simp only [denote, denoteStep, hsub, Option.bind_eq_bind,
      refType_mono (denote_mono (le_max_left n k)) _ _ hn,
      paramTypes_mono (denote_mono (le_max_right n k)) _ _ hk]
    rfl
  · rw [modelType, if_pos hsub]
    refine Reads.obj (n := max m j) (List.getElem?_concat_length _ _) ?_
    simp only [readCell, Option.bind_eq_bind, readOff_mono hag (le_max_left m j) _ _ hm,
      readArgs_mono (readOff_mono hag (le_max_right m j)) _ _ hj]
    rfl

lemma models_primitive (htag : d.tag = .baseType) {name : String} (hname : d.name = some name) :
    Models u d (hp ++ [.primitive d.offset (if name = "_Bool" then "bool" else name)])
      (.obj hp.length) := by
  refine ⟨.prim (cPrimName name), ⟨1, by simp [denote, denoteStep, htag, hname]⟩, ?_,
    fun hc => by rw [isCArray_new] at hc; cases hc⟩
  rw [modelType, if_neg (show d.tag ≠ .subroutineType by simp [htag])]
  exact Reads.obj (n := 0) (List.getElem?_concat_length _ _) rfl

end Kinds

/-! ### `die_to_ctype` returns models -/

section Build

variable {u : CompUnit} (hwf : WellFormed u) {recurse : Die → RecM CRef}
  (hrec : ∀ e ∈ u.dies, Sound u (fun _ => True) (recurse e) (fun r h => Models u e h r))
include hwf hrec

omit hrec in
lemma models_qual_array {d : Die} (hd : d ∈ u.dies)
    (hq : d.tag = .constType ∨ d.tag = .volatileType) {hp : Heap} {of : CRef}
    (hof : RefModel u d.type hp of) (harr : isCArray hp of = true) : Models u d hp of := by
  have hnsub := hwf.funcs_by_pointer d hd (by rcases hq with h | h <;> simp [h])
  obtain ⟨t, ⟨n, hn⟩, hr, hal⟩ := hof.denotes hnsub
  obtain ⟨off, e, hty, he, hale⟩ := hal harr
  have hden : denote u n e = some t := by simpa [refType, hty, he] using hn
  have hfix := hwf.qualified_arrays d hd hq off e hty he hale t ⟨n, hden⟩
  have hdsub : d.tag ≠ .subroutineType := by rcases hq with h | h <;> simp [h]
  refine ⟨t, ⟨n + 1, ?_⟩, by rwa [modelType, if_neg hdsub], fun _ => .qual hq hty he hale⟩
  rcases hq with h | h <;> simp [h] at hfix <;>
    simp [denote, denoteStep, h, hty, refType, he, hden, hfix]

omit hwf hrec in
lemma models_ptr_subroutine {d : Die} (htag : d.tag = .pointerType) {off : Nat}
    (hty : d.type = some off) {e : Die} (he : u.get? off = some e) (hsub : e.tag = .subroutineType)
    {hp : Heap} {of : CRef} (hof : RefModel u (some off) hp of) : Models u d hp of := by
  obtain ⟨e', he', t, ⟨n, hn⟩, hr, -⟩ := hof
  obtain rfl : e' = e := Option.some.inj (he'.symm.trans he)
  rw [modelType, if_pos hsub] at hr
  refine ⟨.ptr t, ⟨n + 1, by simp [denote, denoteStep, htag, hty, refType, he, hn]⟩,
    by rwa [modelType, if_neg (by simp [htag])], fun hc => ?_⟩
  obtain ⟨_, _, h⟩ := hr.array_of_isCArray hc
  cases h

lemma qualBranch_sound {d : Die} (hd : d ∈ u.dies) (hq : d.tag = .constType ∨ d.tag = .volatileType)
    {g : CTy → CTy} {K : CRef → CObj} (hden : ∀ rec, denoteStep u rec d = g <$> refType u rec d.type)
    (hread : ∀ rec of, readCell rec (K of) = g <$> rec of) (hK : ∀ of, (K of).isArray = false) :
    Sound u (fun _ => True) (do
      let of ← dieGetAtType u recurse d
      if isCArray (← get).heap of then return of
      cacheCtype d (K of)) (fun r h => Models u d h r) := by
  have hdsub : d.tag ≠ .subroutineType := by rcases hq with h | h <;> simp [h]
  have hdptr : d.tag ≠ .pointerType := by rcases hq with h | h <;> simp [h]
  refine Sound.bind (dieGetAtType_sound hrec d) fun of => Sound.get_bind fun s₀ => ?_
  split_ifs with harr
  · exact Sound.ret fun _ ⟨hh, hof⟩ => models_qual_array hwf hd hq hof (hh ▸ harr)
  · simp only [pure_bind]
    exact Sound.cacheCtype_models hwf.offsets_nodup hd fun _ ⟨_, hof⟩ =>
      models_wrap hden hread (fun of h => by rw [hK] at h; cases h) hdsub
        (hwf.funcs_by_pointer d hd hdptr) hof

lemma buildCtype_sound {d : Die} (hd : d ∈ u.dies) :
    Sound u (fun _ => True) (buildCtype u recurse d) (fun r h => Models u d h r) := by
  have hnd := hwf.offsets_nodup
  have hnsub := hwf.funcs_by_pointer d hd
  have hget := dieGetAtType_sound hrec d
  cases htag : d.tag with
  | pointerType =>
    simp only [buildCtype, htag]
    have hwrap : (∀ e ∈ d.type.bind u.get?, e.tag ≠ .subroutineType) → ∀ of,
        Sound u (RefModel u d.type · of) (cacheCtype d (.pointer d.offset of))
          (fun r h => Models u d h r) := fun hns _ =>
      Sound.cacheCtype_models hnd hd fun _ hof => models_wrap (g := CTy.ptr)
        (K := CObj.pointer d.offset) (fun _ => by simp [denoteStep, htag]) (fun _ _ => rfl)
        (fun _ h => by cases h) (by simp [htag]) hns hof
    refine Sound.bind hget fun of => ?_
    split
    · rename_i off hty
      refine Sound.getDie_bind fun e he => ?_
      split_ifs with hsub
      · exact Sound.ret fun _ hof => models_ptr_subroutine htag hty he hsub (hty ▸ hof)
      · simpa only [pure_bind] using hwrap (by simp [hty, he, hsub]) of
    · exact hwrap (by simp [*]) of
  | arrayType =>
    simp only [buildCtype, htag]
    exact Sound.bind hget fun _ => Sound.cacheCtype_models hnd hd fun _ hof =>
      models_wrap (g := (CTy.array · (arrayLength none (u.children d))))
        (K := (CObj.array d.offset · (arrayLength none (u.children d))))
        (fun _ => by simp only [denoteStep, htag, arrayOf_arrayDims (hwf.one_dim d hd htag)])
        (fun _ _ => rfl) (fun _ _ => .array htag) (by simp [htag]) (hnsub (by simp [htag])) hof
  | structureType | unionType =>
    simp only [buildCtype, htag]
    refine Sound.bind (Sound.cacheObj_models hnd hd fun _ _ =>
      models_agg (by simp [htag]) (fun _ => rfl) rfl) fun a =>
      Sound.bind (memberLoop_sound hrec a _ (stable_models d (.obj a)) ?_) fun _ =>
        Sound.ret fun _ h => h
    first
      | exact fun _ c hc hm => hwf.located d hd htag c hc hm
      | exact fun h => by cases h
  | enumerationType =>
    simp only [buildCtype, htag]
    exact Sound.bind (Sound.cacheObj_models hnd hd fun _ _ =>
      models_agg (by simp [htag]) (fun _ => rfl) rfl) fun a =>
      Sound.bind (enumLoop_sound a (stable_models d (.obj a)) (hwf.valued d hd htag)) fun _ =>
        Sound.ret fun _ h => h
  | constType =>
    simp only [buildCtype, htag, ↓reduceIte]
    exact qualBranch_sound hwf hrec hd (.inl htag) (g := qualify true false)
      (fun _ => by simp [denoteStep, htag]) (fun _ _ => rfl) fun _ => rfl
  | volatileType =>
    simp only [buildCtype, htag, ↓reduceIte]
    exact qualBranch_sound hwf hrec hd (.inr htag) (g := qualify false true)
      (fun _ => by simp [denoteStep, htag]) (fun _ _ => rfl) fun _ => rfl
  | subroutineType =>
    simp only [buildCtype, htag]
    exact Sound.bind (dieToFunclikeArgs_sound hrec hwf hd htag) fun _ =>
      Sound.cacheCtype_models hnd hd fun _ ⟨hret, hargs⟩ =>
        models_functionPtr htag (hnsub (by simp [htag])) hret hargs
  | baseType =>
    simp only [buildCtype, htag]
    obtain ⟨name, hname⟩ := Option.isSome_iff_exists.1 (hwf.named d hd (.inl htag))
    simp only [hname, attr, pure_bind]
    exact Sound.cacheCtype_models hnd hd fun _ _ => models_primitive htag hname
  | typedef =>
    simp only [buildCtype, htag]
    obtain ⟨name, hname⟩ := Option.isSome_iff_exists.1 (hwf.named d hd (.inr htag))
    simp only [hname, attr, pure_bind]
    exact Sound.bind hget fun _ => Sound.cacheCtype_models hnd hd fun _ hof =>
      models_wrap (g := id) (K := CObj.typedef d.offset name) (fun _ => by simp [denoteStep, htag]) (fun _ _ => (id_map _).symm)
        (fun _ h => by cases h) (by simp [htag]) (hnsub (by simp [htag])) hof
  | _ => simp only [buildCtype, htag]; exact Sound.raise fun _ => Err.noConfusion

end Build

lemma dieToCtype_sound {u : CompUnit} (hwf : WellFormed u) :
    ∀ fuel, ∀ d ∈ u.dies, Sound u (fun _ => True) (dieToCtype u fuel d) (fun r h => Models u d h r)
  | 0, _, _ => fun _ _ _ => by simp [dieToCtype]
  | fuel + 1, d, hd => fun s hs hp => by
    rw [dieToCtype_succ]
    rcases hc : s.cache d.offset with _ | r
    · exact buildCtype_sound hwf (dieToCtype_sound hwf fuel) hd s hs hp
    · exact ⟨hs, Agrees.refl _, hs d hd r hc⟩

lemma cacheSound_empty (u : CompUnit) (h : Heap) : CacheSound u ⟨h, fun _ => none⟩ :=
  fun _ _ _ hr => by cases hr

/-- On a well-formed unit, from a cache of models, the object `die_to_ctype(d)` returns
reads as the C type `d` denotes; a subroutine type's object, a `CFunctionPtr`, as a
pointer to it. -/
theorem dieToCtype_reads_denotation (u : CompUnit) (hwf : WellFormed u) (fuel : Nat) (d : Die)
    (hd : d ∈ u.dies) (s : TypeState) (hs : CacheSound u s) (r : CRef) (s' : TypeState)
    (hrun : dieToCtype u fuel d s = (.ok r, s')) :
    ∃ t, Denotes u d t ∧ Reads s'.heap r (if d.tag = .subroutineType then .ptr t else t) := by
  have := dieToCtype_sound hwf fuel d hd s hs trivial
  rw [hrun] at this
  obtain ⟨-, -, t, hden, hr, -⟩ := this
  exact ⟨t, hden, hr⟩

/-- `typedef void (*cb_t)(int); struct s { cb_t f; int v[4]; };` -/
def cbUnit : CompUnit where
  dies := [
    { offset := 1, tag := .baseType, name := some "int" },
    { offset := 2, tag := .pointerType, type := some 3 },
    { offset := 3, tag := .subroutineType, children := [4] },
    { offset := 4, tag := .formalParameter, type := some 1 },
    { offset := 5, tag := .typedef, name := some "cb_t", type := some 2 },
    { offset := 6, tag := .structureType, name := some "s", children := [7, 8] },
    { offset := 7, tag := .member, name := some "f", type := some 5, dataMemberLocation := some 0 },
    { offset := 8, tag := .member, name := some "v", type := some 9, dataMemberLocation := some 4 },
    { offset := 9, tag := .arrayType, type := some 1, children := [10] },
    { offset := 10, tag := .subrangeType, upperBound := some 3 }]
  top := []
  lineProgram := ⟨4, [], []⟩

/-- The entry of `cb_t`. -/
def cbTypedef : Die := { offset := 5, tag := .typedef, name := some "cb_t", type := some 2 }

lemma cbUnit_wellFormed : WellFormed cbUnit where
  offsets_nodup := by decide
  named := by decide
  located := by decide
  valued := by decide
  typed_params := by decide
  one_dim := by decide
  funcs_by_pointer := by decide
  qualified_arrays := fun d hd hq => absurd hq (by revert d; decide)

theorem dieToCtype_reads_denotation_cb :
    WellFormed cbUnit ∧ cbTypedef ∈ cbUnit.dies ∧ CacheSound cbUnit ⟨[], fun _ => none⟩ ∧
      dieToCtype cbUnit 8 cbTypedef ⟨[], fun _ => none⟩ =
        (.ok (.obj 2), (dieToCtype cbUnit 8 cbTypedef ⟨[], fun _ => none⟩).2) ∧
      ∃ t, Denotes cbUnit cbTypedef t ∧
        Reads (dieToCtype cbUnit 8 cbTypedef ⟨[], fun _ => none⟩).2.heap (.obj 2)
          (if cbTypedef.tag = .subroutineType then .ptr t else t) :=
  have hrun : dieToCtype cbUnit 8 cbTypedef ⟨[], fun _ => none⟩ =
      (.ok (.obj 2), (dieToCtype cbUnit 8 cbTypedef ⟨[], fun _ => none⟩).2) :=
    Prod.ext (by decide) rfl
  have hd : cbTypedef ∈ cbUnit.dies := CompUnit.get?_mem (show cbUnit.get? 5 = some cbTypedef from rfl)
  ⟨cbUnit_wellFormed, hd, cacheSound_empty _ _, hrun,
    dieToCtype_reads_denotation cbUnit cbUnit_wellFormed 8 cbTypedef hd _ (cacheSound_empty _ _)
      _ _ hrun⟩

/-- Two entries that are not subroutine types and whose models, built one after the
other, read as one type denote that type: entries denoting different types never get
models that read alike. -/
theorem dieToCtype_same_reading (u : CompUnit) (hwf : WellFormed u) (fuel : Nat) (d₁ d₂ : Die)
    (hd₁ : d₁ ∈ u.dies) (hd₂ : d₂ ∈ u.dies) (hsub₁ : d₁.tag ≠ .subroutineType)
    (hsub₂ : d₂.tag ≠ .subroutineType) (s : TypeState) (hs : CacheSound u s) (r₁ r₂ : CRef)
    (s₁ s₂ : TypeState) (hrun₁ : dieToCtype u fuel d₁ s = (.ok r₁, s₁))
    (hrun₂ : dieToCtype u fuel d₂ s₁ = (.ok r₂, s₂)) (t : CTy) (hr₁ : Reads s₂.heap r₁ t)
    (hr₂ : Reads s₂.heap r₂ t) : Denotes u d₁ t ∧ Denotes u d₂ t := by
  have h₁ := dieToCtype_sound hwf fuel d₁ hd₁ s hs trivial
  rw [hrun₁] at h₁
  obtain ⟨hs₁, -, t₁, hden₁, hm₁, -⟩ := h₁
  have h₂ := dieToCtype_sound hwf fuel d₂ hd₂ s₁ hs₁ trivial
  rw [hrun₂] at h₂
  obtain ⟨-, hag, t₂, hden₂, hm₂, -⟩ := h₂
  rw [modelType, if_neg hsub₁] at hm₁
  rw [modelType, if_neg hsub₂] at hm₂
  exact ⟨(hm₁.mono hag).unique hr₁ ▸ hden₁, hm₂.unique hr₂ ▸ hden₂⟩

/-- The entry of `void (*)(int)`, which `cb_t` names. -/
def cbPointer : Die := { offset := 2, tag := .pointerType, type := some 3 }

/-- `cb_t` and the pointer type it names get two objects, a `CTypedef` and the
`CFunctionPtr` it wraps, which read alike; both entries denote that type. -/
theorem dieToCtype_same_reading_cb :
    let run₁ : Except Err CRef × TypeState := dieToCtype cbUnit 8 cbTypedef ⟨[], fun _ => none⟩
    let run₂ : Except Err CRef × TypeState := dieToCtype cbUnit 8 cbPointer run₁.2
    let t : CTy := .ptr (.func .void (.cons (.prim "int") .nil))
    WellFormed cbUnit ∧ cbTypedef ∈ cbUnit.dies ∧ cbPointer ∈ cbUnit.dies ∧
      cbTypedef.tag ≠ .subroutineType ∧ cbPointer.tag ≠ .subroutineType ∧
      CacheSound cbUnit ⟨[], fun _ => none⟩ ∧ run₁ = (.ok (.obj 2), run₁.2) ∧
      run₂ = (.ok (.obj 1), run₂.2) ∧ Reads run₂.2.heap (.obj 2) t ∧ Reads run₂.2.heap (.obj 1) t ∧
      (Denotes cbUnit cbTypedef t ∧ Denotes cbUnit cbPointer t) :=
  have hd₁ : cbTypedef ∈ cbUnit.dies :=
    CompUnit.get?_mem (show cbUnit.get? 5 = some cbTypedef from rfl)
  have hd₂ : cbPointer ∈ cbUnit.dies :=
    CompUnit.get?_mem (show cbUnit.get? 2 = some cbPointer from rfl)
  have hrun₁ : dieToCtype cbUnit 8 cbTypedef ⟨[], fun _ => none⟩ =
      (.ok (.obj 2), (dieToCtype cbUnit 8 cbTypedef ⟨[], fun _ => none⟩).2) :=
    Prod.ext (by decide) rfl
  have hrun₂ : dieToCtype cbUnit 8 cbPointer (dieToCtype cbUnit 8 cbTypedef ⟨[], fun _ => none⟩).2 =
      (.ok (.obj 1), (dieToCtype cbUnit 8 cbPointer
        (dieToCtype cbUnit 8 cbTypedef ⟨[], fun _ => none⟩).2).2) :=
    Prod.ext (by decide) rfl
  have hr₁ : Reads (dieToCtype cbUnit 8 cbPointer
      (dieToCtype cbUnit 8 cbTypedef ⟨[], fun _ => none⟩).2).2.heap (.obj 2)
      (.ptr (.func .void (.cons (.prim "int") .nil))) := ⟨4, by decide⟩
  have hr₂ : Reads (dieToCtype cbUnit 8 cbPointer
      (dieToCtype cbUnit 8 cbTypedef ⟨[], fun _ => none⟩).2).2.heap (.obj 1)
      (.ptr (.func .void (.cons (.prim "int") .nil))) := ⟨4, by decide⟩
  ⟨cbUnit_wellFormed, hd₁, hd₂, by decide, by decide, cacheSound_empty _ _, hrun₁, hrun₂, hr₁, hr₂,
    dieToCtype_same_reading cbUnit cbUnit_wellFormed 8 cbTypedef cbPointer hd₁ hd₂ (by decide)
      (by decide) _ (cacheSound_empty _ _) _ _ _ _ hrun₁ hrun₂ _ hr₁ hr₂⟩

end ObjectDiff
