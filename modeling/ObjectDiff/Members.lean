import ObjectDiff.Calls
import Mathlib.Data.List.Nodup

/-!
# The members of structures, unions and enumerations

The member loops assign into `OrderedDict`s keyed by `die_get_name`, `None` for every
unnamed child: one entry per distinct key, at its first child's position, holding the last
one's value. Each member's type is what `die_get_at_type` returns from the state the loop
has reached (`MemberTypes`); with distinct names there is one member per child, in order.
-/

namespace ObjectDiff

namespace PyDict

variable {κ ν : Type} [DecidableEq κ]

/-- Assign the pairs of `l`, in order. -/
def setAll (m : PyDict κ ν) (l : List (κ × ν)) : PyDict κ ν :=
  l.foldl (fun m p => m.set p.1 p.2) m

@[simp] lemma setAll_nil (m : PyDict κ ν) : m.setAll [] = m := rfl

@[simp] lemma setAll_cons (m : PyDict κ ν) (p : κ × ν) (l : List (κ × ν)) :
    m.setAll (p :: l) = (m.set p.1 p.2).setAll l := rfl

lemma setAll_concat (m : PyDict κ ν) (l : List (κ × ν)) (p : κ × ν) :
    m.setAll (l ++ [p]) = (m.setAll l).set p.1 p.2 := by
  simp [setAll, List.foldl_append]

lemma keys_set (m : PyDict κ ν) (k : κ) (v : ν) :
    (m.set k v).map Prod.fst = if k ∈ m.map Prod.fst then m.map Prod.fst else m.map Prod.fst ++ [k] := by
  induction m with
  | nil => simp [PyDict.set]
  | cons p m ih =>
    by_cases h : p.1 = k
    · simp [PyDict.set, h]
    · by_cases hk : k ∈ m.map Prod.fst <;> simp_all [PyDict.set, Ne.symm h]

lemma get_set (m : PyDict κ ν) (k k' : κ) (v : ν) :
    (m.set k v).get k' = if k' = k then some v else m.get k' := by
  induction m with
  | nil => simp [PyDict.set, PyDict.get, eq_comm]
  | cons p m ih =>
    obtain ⟨k₀, v₀⟩ := p
    by_cases h : k₀ = k
    · subst h
      by_cases h' : k' = k₀ <;> simp [PyDict.set, PyDict.get, h', Ne.symm]
    · by_cases h' : k' = k₀
      · subst h'
        simp [PyDict.set, PyDict.get, h]
      · simp [PyDict.set, PyDict.get, h, ih, Ne.symm h']

lemma get_append (l₁ l₂ : PyDict κ ν) (k : κ) :
    PyDict.get (l₁ ++ l₂) k = (l₁.get k).or (l₂.get k) := by
  induction l₁ with
  | nil => rfl
  | cons p l ih => by_cases h : p.1 = k <;> simp [PyDict.get, h, ih]

lemma set_of_not_mem {m : PyDict κ ν} {k : κ} (v : ν) (h : k ∉ m.map Prod.fst) :
    m.set k v = m ++ [(k, v)] := by
  induction m with
  | nil => rfl
  | cons p m ih =>
    simp only [List.map_cons, List.mem_cons, not_or] at h
    simp [PyDict.set, Ne.symm h.1, ih h.2]

end PyDict

/-- Keys in the order of their first occurrence, each once. -/
def firstOccurrences {κ : Type} [DecidableEq κ] (ks : List κ) : List κ :=
  ks.foldl (fun acc k => if k ∈ acc then acc else acc ++ [k]) []

namespace PyDict

variable {κ ν : Type} [DecidableEq κ]

lemma keys_setAll (m : PyDict κ ν) (l : List (κ × ν)) :
    (m.setAll l).map Prod.fst =
      (l.map Prod.fst).foldl (fun acc k => if k ∈ acc then acc else acc ++ [k]) (m.map Prod.fst) := by
  induction l generalizing m with
  | nil => rfl
  | cons p l ih => simp only [setAll_cons, ih, List.map_cons, List.foldl_cons, keys_set]

lemma keys_setAll_nil (l : List (κ × ν)) :
    (PyDict.setAll [] l).map Prod.fst = firstOccurrences (l.map Prod.fst) :=
  keys_setAll [] l

lemma get_setAll (m : PyDict κ ν) (l : List (κ × ν)) (k : κ) :
    (m.setAll l).get k = (PyDict.get l.reverse k).or (m.get k) := by
  induction l generalizing m with
  | nil => simp [PyDict.get]
  | cons p l ih =>
    obtain ⟨k₀, v₀⟩ := p
    rw [setAll_cons, ih, get_set, List.reverse_cons, get_append]
    by_cases h : k₀ = k
    · cases PyDict.get l.reverse k <;> simp [PyDict.get, h]
    · cases PyDict.get l.reverse k <;> simp [PyDict.get, h, Ne.symm h]

lemma setAll_nil_of_nodup {l : List (κ × ν)} (h : (l.map Prod.fst).Nodup) :
    PyDict.setAll [] l = l := by
  induction l using List.reverseRecOn with
  | nil => rfl
  | append_singleton l p ih =>
    simp only [List.map_append, List.map_singleton, List.nodup_append, List.nodup_singleton,
      true_and, List.disjoint_singleton] at h
    rw [setAll_concat, ih h.1]
    exact set_of_not_mem _ h.2

end PyDict

/-- Heap cells below `n` are those of `h`, and the heap has at least `n` cells. -/
def Frame (n : Nat) (h : Heap) (s : TypeState) : Prop :=
  n ≤ s.heap.length ∧ ∀ b < n, s.heap[b]? = h[b]?

lemma Frame.trans {n : Nat} {h : Heap} {s s' : TypeState} (h₁ : Frame n h s)
    (h₂ : Frame s.heap.length s.heap s') : Frame n h s' :=
  ⟨h₁.1.trans h₂.1, fun b hb => (h₂.2 b (lt_of_lt_of_le hb h₁.1)).trans (h₁.2 b hb)⟩

lemma Frame.cacheObj {n : Nat} {h : Heap} {s : TypeState} (hs : Frame n h s) (d : Die) (o : CObj) :
    Frame n h (cacheObj d o s).2 := by
  refine ⟨by have := hs.1; simp [cacheObj_apply]; omega, fun b hb => ?_⟩
  rw [cacheObj_apply, List.getElem?_append_left (lt_of_lt_of_le hb hs.1)]
  exact hs.2 b hb

lemma Frame.updateObj {n : Nat} {h : Heap} {s : TypeState} (hs : Frame n h s) {a : Nat}
    (ha : n ≤ a) (f : CObj → CObj) : Frame n h (updateObj a f s).2 :=
  ⟨by simpa using hs.1, fun b hb => by
    simpa [List.getElem?_modify_ne _ _ (show a ≠ b by omega)] using hs.2 b hb⟩

lemma dieToCtype_frame (u : CompUnit) :
    ∀ fuel d s, Frame s.heap.length s.heap (dieToCtype u fuel d s).2
  | 0, _, s => ⟨le_rfl, fun _ _ => rfl⟩
  | fuel + 1, d, s => by
    rw [dieToCtype_succ]
    split
    · exact ⟨le_rfl, fun _ _ => rfl⟩
    · have hcall : ∀ d' (I : TypeState → Prop), (∀ s₁ s₂, I s₁ →
          Frame s₁.heap.length s₁.heap s₂ → I s₂) → Inv I (fun _ => True) (dieToCtype u fuel d') :=
        fun d' I hI => Inv.of_state fun s₁ hs₁ => hI s₁ _ hs₁ (dieToCtype_frame u fuel d' s₁)
      have : Inv (Frame s.heap.length s.heap) (fun _ => True)
          (buildCtype u (dieToCtype u fuel) d) := Inv.buildCtype (I := Frame s.heap.length s.heap)
        (J := fun a s' => Frame s.heap.length s.heap s' ∧ s.heap.length ≤ a) (fun _ _ _ => trivial)
        (fun o s' hs => hs.cacheObj d o) (fun o s' hs => ⟨hs.cacheObj d o, hs.1⟩)
        (fun a f s' hs => ⟨hs.1.updateObj hs.2 f, hs.2⟩) (fun _ _ h => h.1)
        (fun t _ d' _ => by
          split
          · exact fun a => hcall d' _ fun _ _ h₁ h₂ => ⟨h₁.1.trans h₂, h₁.2⟩
          · exact hcall d' _ fun _ _ h₁ h₂ => h₁.trans h₂)
      exact this.state ⟨le_rfl, fun _ _ => rfl⟩

lemma dieGetAtType_frame {u : CompUnit} {recurse : Die → RecM CRef}
    (hrec : ∀ d' σ, Frame σ.heap.length σ.heap (recurse d' σ).2) (c : Die) (σ : TypeState) :
    Frame σ.heap.length σ.heap (dieGetAtType u recurse c σ).2 := by
  have hcall : ∀ d', Inv (Frame σ.heap.length σ.heap) (fun _ => True) (recurse d') :=
    fun d' => Inv.of_state fun σ₁ hσ₁ => hσ₁.trans (hrec d' σ₁)
  exact (Inv.dieGetAtType (fun _ _ _ => trivial) (fun _ _ d' _ => hcall d') (u := u)
    (d := c)).state ⟨le_rfl, fun _ _ => rfl⟩

/-- One pass of the member loop on the cell: the member's type, then, for structures,
its offset. -/
def memberAssign (withOffsets : Bool) (c : Die) (t : CRef) (o : CObj) : CObj :=
  if withOffsets then
    (o.setMember (dieGetName c) t).setMemberOffset (dieGetName c) (c.dataMemberLocation.getD 0)
  else o.setMember (dieGetName c) t

/-- The calls of `die_get_at_type` the member loop of cell `a` makes for the member children
`cs`, from state `σ`: each call is made from the state the previous pass left, with the cell
assigned, and `ts` are their results in child order. -/
def MemberTypes (u : CompUnit) (recurse : Die → RecM CRef) (a : Nat) (w : Bool) :
    List Die → TypeState → List CRef → Prop
  | [], _, [] => True
  | c :: cs, σ, t :: ts => ∃ σ', dieGetAtType u recurse c σ = (.ok t, σ') ∧
      MemberTypes u recurse a w cs { σ' with heap := σ'.heap.modify (memberAssign w c t) a } ts
  | _, _, _ => False

lemma MemberTypes.length_eq {u : CompUnit} {recurse : Die → RecM CRef} {a : Nat} {w : Bool} :
    ∀ {cs : List Die} {σ : TypeState} {ts : List CRef}, MemberTypes u recurse a w cs σ ts →
      ts.length = cs.length
  | [], _, [], _ => rfl
  | _ :: _, _, _ :: _, ⟨_, _, h⟩ => congrArg (· + 1) h.length_eq

lemma memberLoop_cons_of_ne {u : CompUnit} {recurse : Die → RecM CRef} {a : Nat} {w : Bool}
    {c : Die} (hm : c.tag ≠ .member) (cs : List Die) (s : TypeState) :
    memberLoop u recurse a w (c :: cs) s = memberLoop u recurse a w cs s := by
  simp only [memberLoop, if_neg hm, PyM.bind_apply, PyM.pure_apply]

lemma memberLoop_cons_member {u : CompUnit} {recurse : Die → RecM CRef} {a : Nat} {w : Bool}
    {c : Die} (hm : c.tag = .member) {cs : List Die} {s s' : TypeState}
    (h : memberLoop u recurse a w (c :: cs) s = (.ok (), s')) :
    ∃ t s₁, dieGetAtType u recurse c s = (.ok t, s₁) ∧ (w → c.dataMemberLocation.isSome) ∧
      memberLoop u recurse a w cs { s₁ with heap := s₁.heap.modify (memberAssign w c t) a } =
        (.ok (), s') := by
  simp only [memberLoop, if_pos hm] at h
  obtain ⟨t, s₁, ht, h⟩ := PyM.bind_ok h
  obtain ⟨_, _, hs₂, h⟩ := PyM.bind_ok h
  cases hs₂
  refine ⟨t, s₁, ht, ?_⟩
  split at h
  · rename_i hw
    obtain ⟨loc, _, hloc, h⟩ := PyM.bind_ok h
    obtain ⟨_, _, hs₃, h⟩ := PyM.bind_ok h
    cases hs₃
    rcases hl : c.dataMemberLocation with _ | l <;> simp only [hl, attr] at hloc <;> cases hloc
    refine ⟨fun _ => rfl, ?_⟩
    convert h using 3
    simp only [List.modify_modify_eq]
    congr 1
    funext o
    simp [memberAssign, hw, hl]
  · rename_i hw
    obtain ⟨_, _, hunit, h⟩ := PyM.bind_ok h
    cases hunit
    refine ⟨fun hw' => absurd hw' hw, ?_⟩
    convert h using 4
    funext o
    simp [memberAssign, hw]

lemma memberLoop_cell {u : CompUnit} {recurse : Die → RecM CRef} {a : Nat} {w : Bool}
    (hrec : ∀ d' σ, Frame σ.heap.length σ.heap (recurse d' σ).2) :
    ∀ {cs : List Die} {s s' : TypeState}, a < s.heap.length →
    memberLoop u recurse a w cs s = (.ok (), s') →
    ∃ ts, MemberTypes u recurse a w (cs.filter (·.tag = .member)) s ts ∧
      (w → ∀ c ∈ cs.filter (·.tag = .member), c.dataMemberLocation.isSome) ∧
      s'.heap[a]? = (s.heap[a]?).map fun o =>
        ((cs.filter (·.tag = .member)).zip ts).foldl (fun o p => memberAssign w p.1 p.2 o) o
  | [], s, s', _, h => by
    cases h
    exact ⟨[], trivial, by simp, by simp⟩
  | c :: cs, s, s', ha, h => by
    by_cases hm : c.tag = .member
    · obtain ⟨t, s₁, ht, hw, hloop⟩ := memberLoop_cons_member hm h
      have hf := dieGetAtType_frame (u := u) hrec c s
      rw [ht] at hf
      obtain ⟨ts, hts, hlocs, hcell⟩ :=
        memberLoop_cell hrec (by simpa using lt_of_lt_of_le ha hf.1) hloop
      simp only [List.filter_cons, hm, decide_True, if_true, List.mem_cons]
      refine ⟨t :: ts, ⟨s₁, ht, hts⟩, fun hw' c' hc' => ?_, ?_⟩
      · rcases hc' with rfl | hc'
        · exact hw hw'
        · exact hlocs hw' c' hc'
      · rw [hcell, List.getElem?_modify_eq, hf.2 a ha]
        cases s.heap[a]? <;> rfl
    · rw [memberLoop_cons_of_ne hm] at h
      simpa [hm] using memberLoop_cell hrec ha h

lemma enumLoop_cell {a : Nat} :
    ∀ {cs : List Die} {s s' : TypeState}, enumLoop a cs s = (.ok (), s') →
    (∀ c ∈ cs.filter (·.tag = .enumerator), c.constValue.isSome) ∧
      s'.heap[a]? = (s.heap[a]?).map fun o => (cs.filter (·.tag = .enumerator)).foldl
        (fun o c => o.setEnumerator (dieGetName c) (c.constValue.getD 0)) o
  | [], s, s', h => by
    cases h
    exact ⟨by simp, by simp⟩
  | c :: cs, s, s', h => by
    simp only [enumLoop] at h
    split at h
    · rename_i he
      obtain ⟨v, _, hv, h⟩ := PyM.bind_ok h
      obtain ⟨_, s₁, hs₁, h⟩ := PyM.bind_ok h
      cases hs₁
      rcases hc : c.constValue with _ | k <;> simp only [hc, attr] at hv <;> cases hv
      obtain ⟨hvals, hcell⟩ := enumLoop_cell h
      refine ⟨fun c' hc' => ?_, ?_⟩
      · simp only [List.filter_cons, he, decide_True, if_true, List.mem_cons] at hc'
        rcases hc' with rfl | hc'
        · simp [hc]
        · exact hvals c' hc'
      · rw [hcell, List.getElem?_modify_eq]
        cases s.heap[a]? <;> simp [he, hc]
    · rename_i he
      obtain ⟨_, _, hunit, h⟩ := PyM.bind_ok h
      cases hunit
      obtain ⟨hvals, hcell⟩ := enumLoop_cell h
      exact ⟨by simpa [he] using hvals, by simpa [he] using hcell⟩

lemma foldl_memberAssign_struct (die : Nat) (n : Option String) :
    ∀ (l : List (Die × CRef)) (M : PyDict (Option String) CRef) (O : PyDict (Option String) Nat),
    l.foldl (fun o p => memberAssign true p.1 p.2 o) (.struct die n M O) =
      .struct die n (M.setAll (l.map fun p => (dieGetName p.1, p.2)))
        (O.setAll (l.map fun p => (dieGetName p.1, p.1.dataMemberLocation.getD 0)))
  | [], _, _ => rfl
  | _ :: l, _, _ => foldl_memberAssign_struct die n l _ _

lemma foldl_memberAssign_union (die : Nat) (n : Option String) :
    ∀ (l : List (Die × CRef)) (M : PyDict (Option String) CRef),
    l.foldl (fun o p => memberAssign false p.1 p.2 o) (.union die n M) =
      .union die n (M.setAll (l.map fun p => (dieGetName p.1, p.2)))
  | [], _ => rfl
  | _ :: l, _ => foldl_memberAssign_union die n l _

lemma foldl_setEnumerator (die : Nat) (n : Option String) :
    ∀ (cs : List Die) (M : PyDict (Option String) Int),
    cs.foldl (fun o c => o.setEnumerator (dieGetName c) (c.constValue.getD 0)) (CObj.enum die n M) =
      .enum die n (M.setAll (cs.map fun c => (dieGetName c, c.constValue.getD 0)))
  | [], _ => rfl
  | _ :: cs, _ => foldl_setEnumerator die n cs _

lemma map_zip_of_length {α β γ : Type} {l₁ : List α} {l₂ : List β}
    (h : l₁.length ≤ l₂.length) (f : α → γ) : (l₁.zip l₂).map (fun p => f p.1) = l₁.map f :=
  calc (l₁.zip l₂).map (fun p => f p.1) = ((l₁.zip l₂).map Prod.fst).map f := by
        rw [List.map_map]; rfl
    _ = l₁.map f := by rw [List.map_fst_zip l₁ l₂ h]

lemma setAll_nil_map_zip {α κ ν : Type} [DecidableEq κ] (f : α → κ) {l : List α} {vs : List ν}
    (hlen : vs.length = l.length) (h : (l.map f).Nodup) :
    PyDict.setAll [] ((l.map f).zip vs) = (l.map f).zip vs :=
  PyDict.setAll_nil_of_nodup (by rwa [List.map_fst_zip _ _ (by simp [hlen])])

lemma setAll_nil_map_of_nodup {α κ ν : Type} [DecidableEq κ] (f : α → κ) (g : α → ν)
    {l : List α} (h : (l.map f).Nodup) :
    PyDict.setAll [] (l.map fun c => (f c, g c)) = l.map fun c => (f c, g c) :=
  PyDict.setAll_nil_of_nodup (by rw [List.map_map]; exact h)

lemma map_zip_fst {α β γ : Type} (f : α → γ) (l₁ : List α) (l₂ : List β) :
    (l₁.zip l₂).map (fun p => (f p.1, p.2)) = (l₁.map f).zip l₂ := by
  rw [List.zip_map_left]
  rfl

/-- What `die_to_ctype` of a structure, union or enumeration `d`, called from `s`, returns
(`r`) and leaves in its new cell: the cell holds what its loop assigned in child order, each
member child's `die_get_name` to the value `die_get_at_type` returned for it from the state
the loop had reached (and, in a structure, to its `DW_AT_data_member_location`), or each
enumerator child's name to its `DW_AT_const_value`; with pairwise distinct names, that is
one member per child, in child order. Other DIEs are not constrained. -/
def AggregateModel (u : CompUnit) (recurse : Die → RecM CRef) (d : Die) (s : TypeState)
    (r : CRef) (cell : Option CObj) : Prop :=
  let a := s.heap.length
  let ms := (u.children d).filter (·.tag = .member)
  let es := (u.children d).filter (·.tag = .enumerator)
  match d.tag with
  | .structureType => r = .obj a ∧ ∃ ts,
      MemberTypes u recurse a true ms (cacheObj d (.struct d.offset (dieGetName d) [] []) s).2 ts ∧
      (∀ c ∈ ms, c.dataMemberLocation.isSome) ∧
      cell = some (.struct d.offset (dieGetName d) (PyDict.setAll [] ((ms.map dieGetName).zip ts))
        (PyDict.setAll [] (ms.map fun c => (dieGetName c, c.dataMemberLocation.getD 0)))) ∧
      ((ms.map dieGetName).Nodup → cell = some (.struct d.offset (dieGetName d)
        ((ms.map dieGetName).zip ts) (ms.map fun c => (dieGetName c, c.dataMemberLocation.getD 0))))
  | .unionType => r = .obj a ∧ ∃ ts,
      MemberTypes u recurse a false ms (cacheObj d (.union d.offset (dieGetName d) []) s).2 ts ∧
      cell = some (.union d.offset (dieGetName d) (PyDict.setAll [] ((ms.map dieGetName).zip ts))) ∧
      ((ms.map dieGetName).Nodup →
        cell = some (.union d.offset (dieGetName d) ((ms.map dieGetName).zip ts)))
  | .enumerationType => r = .obj a ∧ (∀ c ∈ es, c.constValue.isSome) ∧
      cell = some (.enum d.offset (dieGetName d)
        (PyDict.setAll [] (es.map fun c => (dieGetName c, c.constValue.getD 0)))) ∧
      ((es.map dieGetName).Nodup → cell = some (.enum d.offset (dieGetName d)
        (es.map fun c => (dieGetName c, c.constValue.getD 0))))
  | _ => True

/-- On a cache miss, a structure, union or enumeration is modelled by a new cell holding
what its loop assigned. -/
theorem dieToCtype_members (u : CompUnit) (fuel : Nat) (d : Die) (s s' : TypeState) (r : CRef)
    (hmiss : s.cache d.offset = none) (h : dieToCtype u (fuel + 1) d s = (.ok r, s')) :
    AggregateModel u (dieToCtype u fuel) d s r s'.heap[s.heap.length]? := by
  rw [dieToCtype_succ, hmiss] at h
  unfold AggregateModel
  split
  · rename_i ht
    simp only [buildCtype, ht, PyM.bind_of_ok (cacheObj_apply _ _ _)] at h
    obtain ⟨_, s₂, hl, h⟩ := PyM.bind_ok h
    cases h
    obtain ⟨ts, hts, hlocs, hcell⟩ := memberLoop_cell (dieToCtype_frame u fuel) (by simp) hl
    have hlen := hts.length_eq
    have hcell' := hcell
    simp only [List.getElem?_concat_length, Option.map_some', foldl_memberAssign_struct,
      map_zip_fst, map_zip_of_length (Nat.le_of_eq hlen.symm)
        (fun c => (dieGetName c, c.dataMemberLocation.getD 0))] at hcell'
    refine ⟨rfl, ts, hts, hlocs rfl, hcell', fun hnd => ?_⟩
    rw [hcell', setAll_nil_map_zip dieGetName hlen hnd, setAll_nil_map_of_nodup dieGetName _ hnd]
  · rename_i ht
    simp only [buildCtype, ht, PyM.bind_of_ok (cacheObj_apply _ _ _)] at h
    obtain ⟨_, s₂, hl, h⟩ := PyM.bind_ok h
    cases h
    obtain ⟨ts, hts, -, hcell⟩ := memberLoop_cell (dieToCtype_frame u fuel) (by simp) hl
    have hlen := hts.length_eq
    have hcell' := hcell
    simp only [List.getElem?_concat_length, Option.map_some', foldl_memberAssign_union,
      map_zip_fst] at hcell'
    refine ⟨rfl, ts, hts, hcell', fun hnd => ?_⟩
    rw [hcell', setAll_nil_map_zip dieGetName hlen hnd]
  · rename_i ht
    simp only [buildCtype, ht, PyM.bind_of_ok (cacheObj_apply _ _ _)] at h
    obtain ⟨_, s₂, hl, h⟩ := PyM.bind_ok h
    cases h
    obtain ⟨hvals, hcell⟩ := enumLoop_cell hl
    simp only [List.getElem?_concat_length, Option.map_some', foldl_setEnumerator] at hcell
    refine ⟨rfl, hvals, hcell, fun hnd => ?_⟩
    rw [hcell, setAll_nil_map_of_nodup dieGetName _ hnd]
  · trivial

/-- `struct s { union { int a; }; union { int b; }; }`: two unnamed members at offsets 0
and 4. -/
def anonUnit : CompUnit where
  dies := [{ offset := 1, tag := .structureType, name := some "s", children := [2, 3] },
    { offset := 2, tag := .member, type := some 4, dataMemberLocation := some 0 },
    { offset := 3, tag := .member, type := some 5, dataMemberLocation := some 4 },
    { offset := 4, tag := .unionType, children := [6] },
    { offset := 5, tag := .unionType, children := [7] },
    { offset := 6, tag := .member, name := some "a", type := some 8, dataMemberLocation := some 0 },
    { offset := 7, tag := .member, name := some "b", type := some 8, dataMemberLocation := some 0 },
    { offset := 8, tag := .baseType, name := some "int" }]
  top := [1]
  lineProgram := ⟨4, [], []⟩

/-- The structure of `anonUnit`. -/
def anonStruct : Die := { offset := 1, tag := .structureType, name := some "s", children := [2, 3] }

theorem dieToCtype_members_anon :
    let run := dieToCtype anonUnit 10 anonStruct .empty
    TypeState.empty.cache anonStruct.offset = none ∧ run = (.ok (.obj 0), run.2) ∧
      AggregateModel anonUnit (dieToCtype anonUnit 9) anonStruct .empty (.obj 0) run.2.heap[0]? :=
  have hrun : dieToCtype anonUnit 10 anonStruct .empty =
      (.ok (.obj 0), (dieToCtype anonUnit 10 anonStruct .empty).2) := Prod.ext (by decide) rfl
  ⟨rfl, hrun, dieToCtype_members anonUnit 9 anonStruct .empty _ _ rfl hrun⟩

/-- The two unnamed members of `anonUnit`'s structure share the key `None`: its model has
one member, the second union (cell 3) at the first one's place, with the second offset. -/
theorem anonymous_members_merged :
    let run := dieToCtype anonUnit 10 anonStruct .empty
    ((anonUnit.children anonStruct).filter (·.tag = .member)).length = 2 ∧
      run.1 = .ok (.obj 0) ∧
      run.2.heap[0]? = some (.struct 1 (some "s") [(none, .obj 3)] [(none, 4)]) := by
  decide

end ObjectDiff
