import ObjectDiff.Growth
import ObjectDiff.FuncDiff
import Mathlib.Data.String.Basic
import Mathlib.Data.List.Sort

/-!
# The header report of `main`

`main` writes one `<article>` per vendor header under `components/`, in key order: the
header's source and, when the candidate has a header of the same key, `make_diff_table` of
both headers' entries with their `def_lines[k]`. `to_source`, `sorted_defs` and
`make_diff_table` are in `odiff`, not among the sources, and are parameters. The report of
two coherent collections never raises and is exactly these articles, then the footer.
-/

namespace ObjectDiff

/-- What the report uses of `odiff`: `to_source`, `sorted_defs`, and `make_diff_table` on
the two lists of entries, from which the loop derives the names, offsets and texts it
passes with them. -/
structure ReportOps where
  toSource : HeaderFile → String
  sortedDefs : HeaderFile → List (Option String × CRef)
  makeDiffTable : List (Nat × Option String × CRef) → List (Nat × Option String × CRef) →
    String × ℚ

/-- `html.write(text)`. -/
def write (text : String) : PyM String Unit :=
  modify (· ++ text)

/-- `[(h.def_lines[k], k, v) for k, v in ...]` over a header's `def_lines`. -/
def defEntries (defLines : PyDict (Option String) Nat) :
    List (Option String × CRef) → Except Err (List (Nat × Option String × CRef))
  | [] => .ok []
  | (k, v) :: kvs =>
    match defLines.get k with
    | none => .error (.keyError (k.getD "None"))
    | some line => do return (line, k, v) :: (← defEntries defLines kvs)

/-- One pass of the report loop: the `<article>` of vendor header `vhdrName`. -/
def headerArticle (ops : ReportOps) (reHeaders : PyDict String HeaderFile) (vhdrName : String)
    (vhdr : HeaderFile) : PyM String Unit := do
  write ("<article class=\"hdr\"><h1>" ++ vhdrName ++ "</h1>")
  match reHeaders.get vhdrName with
  | none =>
    write "Not there!"
    write ("<pre><code>" ++ ops.toSource vhdr ++ "</code></pre>")
  | some rehdr =>
    write ("<pre><code>" ++ ops.toSource vhdr ++ "</code></pre>")
    let originalA ← liftExcept (defEntries vhdr.defLines (ops.sortedDefs vhdr))
    let originalB ← liftExcept (defEntries rehdr.defLines (ops.sortedDefs rehdr))
    let (content, _) := ops.makeDiffTable originalA originalB
    write content
  write "</article>"

/-- The loop over the vendor headers, skipping those outside `components/`. -/
def reportLoop (ops : ReportOps) (reHeaders : PyDict String HeaderFile) :
    List (String × HeaderFile) → PyM String Unit
  | [] => pure ()
  | (vhdrName, vhdr) :: hdrs => do
    if pyStartswith vhdrName "components/" then headerArticle ops reHeaders vhdrName vhdr
    reportLoop ops reHeaders hdrs

/-- The end of `main`: the loop over `sorted(vendor_header_files.items())`, then
`HTML_FOOTER`. -/
def headerReport (ops : ReportOps) (footer : String)
    (vendorHeaders reHeaders : PyDict String HeaderFile) : PyM String Unit := do
  reportLoop ops reHeaders (vendorHeaders.mergeSort fun a b => decide (a.1 ≤ b.1))
  write footer

/-! ### What the report says -/

/-- `[(h.def_lines[k], k, v) for k, v in h.sorted_defs]`, when every line is there. -/
def linedDefs (ops : ReportOps) (h : HeaderFile) : List (Nat × Option String × CRef) :=
  (ops.sortedDefs h).map fun kv => ((h.defLines.get kv.1).getD 0, kv.1, kv.2)

/-- What the article of vendor header `vhdr` holds between its heading and its end, when
every `def_lines[k]` it looks up is there; `rehdr` is the candidate's header of the same
key, if any. -/
def articleBody (ops : ReportOps) (vhdr : HeaderFile) : Option HeaderFile → String
  | none => "Not there!" ++ "<pre><code>" ++ ops.toSource vhdr ++ "</code></pre>"
  | some rehdr => "<pre><code>" ++ ops.toSource vhdr ++ "</code></pre>" ++
      (ops.makeDiffTable (linedDefs ops vhdr) (linedDefs ops rehdr)).1

/-- The `<article>` of vendor header `vhdr` under key `vhdrName`: the heading, the body, the
end. -/
def articleText (ops : ReportOps) (reHeaders : PyDict String HeaderFile) (vhdrName : String)
    (vhdr : HeaderFile) : String :=
  "<article class=\"hdr\"><h1>" ++ vhdrName ++ "</h1>" ++
    articleBody ops vhdr (reHeaders.get vhdrName) ++ "</article>"

variable {ops : ReportOps}

lemma defEntries_eq (defLines : PyDict (Option String) Nat) :
    ∀ {kvs : List (Option String × CRef)}, (∀ kv ∈ kvs, (defLines.get kv.1).isSome) →
      defEntries defLines kvs = .ok (kvs.map fun kv => ((defLines.get kv.1).getD 0, kv.1, kv.2))
  | [], _ => rfl
  | (k, v) :: kvs, h => by
    obtain ⟨line, hline⟩ := Option.isSome_iff_exists.1 (h (k, v) (List.mem_cons_self _ _))
    simp [defEntries, hline, defEntries_eq defLines fun kv hkv => h kv (List.mem_cons_of_mem _ hkv)]

lemma HeaderFile.Aligned.defLines_isSome {h : HeaderFile} (hh : h.Aligned) {k : Option String}
    (hk : (h.defs.get k).isSome) : (h.defLines.get k).isSome := by
  rw [← Option.ne_none_iff_isSome, Ne, PyDict.get_eq_none_iff, not_not] at hk ⊢
  exact hh ▸ hk

lemma headerArticle_text (reHeaders : PyDict String HeaderFile) (vhdrName : String)
    (vhdr : HeaderFile) (hv : ∀ kv ∈ ops.sortedDefs vhdr, (vhdr.defLines.get kv.1).isSome)
    (hre : ∀ rehdr, reHeaders.get vhdrName = some rehdr →
      ∀ kv ∈ ops.sortedDefs rehdr, (rehdr.defLines.get kv.1).isSome) (html : String) :
    headerArticle ops reHeaders vhdrName vhdr html =
      (.ok (), html ++ articleText ops reHeaders vhdrName vhdr) := by
  simp only [headerArticle, articleText, write, PyM.bind_apply, PyM.modify_apply]
  rcases hr : reHeaders.get vhdrName with _ | rehdr
  · simp only [articleBody, PyM.bind_apply, PyM.modify_apply, String.append_assoc]
  · simp only [articleBody, linedDefs, defEntries_eq _ hv, defEntries_eq _ (hre rehdr hr),
      liftExcept_ok, PyM.bind_apply, PyM.modify_apply, String.append_assoc]

lemma append_join_cons (html t : String) (ts : List String) :
    html ++ String.join (t :: ts) = html ++ t ++ String.join ts := by
  simp only [String.join_eq, List.map_cons, List.flatten_cons, String.ext_iff, String.data_append,
    List.append_assoc]

lemma reportLoop_text (reHeaders : PyDict String HeaderFile) :
    ∀ (hdrs : List (String × HeaderFile)),
      (∀ p ∈ hdrs, ∀ kv ∈ ops.sortedDefs p.2, (p.2.defLines.get kv.1).isSome) →
      (∀ p ∈ hdrs, ∀ rehdr, reHeaders.get p.1 = some rehdr →
        ∀ kv ∈ ops.sortedDefs rehdr, (rehdr.defLines.get kv.1).isSome) →
      ∀ html, reportLoop ops reHeaders hdrs html = (.ok (), html ++ String.join
        ((hdrs.filter fun p => pyStartswith p.1 "components/").map fun p =>
          articleText ops reHeaders p.1 p.2))
  | [], _, _, html => by simp [reportLoop, String.join]
  | (vhdrName, vhdr) :: hdrs, hv, hre, html => by
    have hrest := reportLoop_text reHeaders hdrs
      (fun p hp => hv p (List.mem_cons_of_mem _ hp)) (fun p hp => hre p (List.mem_cons_of_mem _ hp))
    cases hc : pyStartswith vhdrName "components/" with
    | false =>
      simp only [reportLoop, hc, Bool.false_eq_true, if_false, List.filter_cons, PyM.bind_apply,
        PyM.pure_apply, hrest]
    | true =>
      simp only [reportLoop, hc, if_true, List.filter_cons, PyM.bind_apply,
        headerArticle_text reHeaders vhdrName vhdr (hv _ (List.mem_cons_self _ _))
          (hre _ (List.mem_cons_self _ _)), hrest, List.map_cons, append_join_cons]

lemma headerReport_text (ops : ReportOps)
    (hsorted : ∀ h kv, kv ∈ ops.sortedDefs h → (h.defs.get kv.1).isSome) (footer : String)
    (vendor re : ObjState) (hv : vendor.Coherent) (hr : re.Coherent) (html : String) :
    headerReport ops footer vendor.headers re.headers html = (.ok (), html ++ String.join
      (((vendor.headers.mergeSort fun a b => decide (a.1 ≤ b.1)).filter
        fun p => pyStartswith p.1 "components/").map fun p =>
          articleText ops re.headers p.1 p.2) ++ footer) := by
  have hlines : ∀ s : ObjState, s.Coherent → ∀ k h, s.headers.get k = some h →
      ∀ kv ∈ ops.sortedDefs h, (h.defLines.get kv.1).isSome :=
    fun s hs k h hk kv hkv => (hs.header_aligned k h hk).defLines_isSome (hsorted h kv hkv)
  simp only [headerReport, PyM.bind_apply, write, PyM.modify_apply, reportLoop_text re.headers _
    (fun p hp => hlines vendor hv p.1 p.2
      (PyDict.get_of_mem hv.headers_nodup (List.mem_mergeSort.1 hp)))
    (fun _ _ => hlines re hr _) html]

/-- When `sorted_defs` lists names of the header's `defs`, the report of two coherent
collections, such as those `main` makes, returns: every `def_lines[k]` it looks up is
there, for the vendor headers and the candidate's alike. -/
theorem headerReport_returns (ops : ReportOps)
    (hsorted : ∀ h kv, kv ∈ ops.sortedDefs h → (h.defs.get kv.1).isSome) (footer : String)
    (vendor re : ObjState) (hv : vendor.Coherent) (hr : re.Coherent) (html : String) :
    (headerReport ops footer vendor.headers re.headers html).1 = .ok () := by
  rw [headerReport_text ops hsorted footer vendor re hv hr html]

/-- `odiff` as far as the report needs: `sorted_defs` lists `defs` as they are. -/
def listingOps : ReportOps :=
  ⟨fun _ => "", fun h => h.defs, fun _ _ => ("", 1)⟩

/-- A collection that filed `f` at line 3 of `components/a.h`. -/
def componentsState : ObjState :=
  ⟨.empty, none, [], [("components/a.h", ⟨"components/a.h", [(some "f", .void)], [(some "f", 3)]⟩)]⟩

lemma listingOps_sortedDefs (h : HeaderFile) (kv : Option String × CRef)
    (hkv : kv ∈ listingOps.sortedDefs h) : (h.defs.get kv.1).isSome := by
  rw [← Option.ne_none_iff_isSome, Ne, PyDict.get_eq_none_iff, not_not]
  exact List.mem_map_of_mem _ hkv

lemma componentsState_coherent : componentsState.Coherent :=
  have hheader : ∀ k h, componentsState.headers.get k = some h →
      k = "components/a.h" ∧ h = ⟨"components/a.h", [(some "f", .void)], [(some "f", 3)]⟩ :=
    fun k h hk => by
      by_cases hkey : "components/a.h" = k
      · subst hkey
        simp only [componentsState, PyDict.get, if_true, Option.some.injEq] at hk
        exact ⟨rfl, hk.symm⟩
      · simp [componentsState, PyDict.get, hkey] at hk
  ⟨fun _ _ h => (by cases h), fun k h hk => by obtain ⟨rfl, rfl⟩ := hheader k h hk; rfl,
    fun k h hk => by obtain ⟨rfl, rfl⟩ := hheader k h hk; rfl, by decide⟩

theorem headerReport_returns_components :
    (∀ h kv, kv ∈ listingOps.sortedDefs h → (h.defs.get kv.1).isSome) ∧ componentsState.Coherent ∧
      (headerReport listingOps "" componentsState.headers componentsState.headers "").1 = .ok () :=
  ⟨listingOps_sortedDefs, componentsState_coherent, headerReport_returns listingOps
    listingOps_sortedDefs "" componentsState componentsState componentsState_coherent
    componentsState_coherent ""⟩

/-! ### The articles of the report -/

lemma PyDict.mem_of_get {κ ν : Type} [DecidableEq κ] {m : PyDict κ ν} {k : κ} {v : ν}
    (h : m.get k = some v) : (k, v) ∈ m := by
  induction m with
  | nil => cases h
  | cons p m ih =>
    obtain ⟨k', v'⟩ := p
    simp only [PyDict.get] at h
    split_ifs at h with hk
    · cases h
      exact hk ▸ List.mem_cons_self _ _
    · exact List.mem_cons_of_mem _ (ih h)

lemma keys_mergeSort_sorted (headers : PyDict String HeaderFile) :
    ((headers.mergeSort fun a b => decide (a.1 ≤ b.1)).map Prod.fst).Sorted (· ≤ ·) := by
  have h : (headers.mergeSort fun a b => decide (a.1 ≤ b.1)).Pairwise
      fun a b => decide (a.1 ≤ b.1) = true := @List.sorted_mergeSort _ (fun a b => decide (a.1 ≤ b.1))
    (fun _ _ _ h₁ h₂ => decide_eq_true (le_trans (of_decide_eq_true h₁) (of_decide_eq_true h₂)))
    (fun a b => by simpa using le_total a.1 b.1) headers
  exact List.pairwise_map.2 (h.imp of_decide_eq_true)

/-- The report of two coherent collections, when `sorted_defs` lists names of `defs`, is
the articles of the vendor headers whose key starts with `components/`, one per header in
strictly increasing order of the keys, then the footer; each article is `articleText`: its
heading, the header's source with `Not there!` or the diff table, and its end. -/
theorem headerReport_articles (ops : ReportOps)
    (hsorted : ∀ h kv, kv ∈ ops.sortedDefs h → (h.defs.get kv.1).isSome) (footer : String)
    (vendor re : ObjState) (hv : vendor.Coherent) (hr : re.Coherent) (html : String) :
    ∃ shown : List (String × HeaderFile),
      (shown.map Prod.fst).Sorted (· < ·) ∧
      (∀ k h, (k, h) ∈ shown ↔ vendor.headers.get k = some h ∧ pyStartswith k "components/") ∧
      headerReport ops footer vendor.headers re.headers html = (.ok (), html ++
        String.join (shown.map fun p => articleText ops re.headers p.1 p.2) ++ footer) := by
  have hnodup : ((vendor.headers.mergeSort fun a b => decide (a.1 ≤ b.1)).map Prod.fst).Nodup :=
    ((List.mergeSort_perm _ _).map Prod.fst).nodup_iff.2 hv.headers_nodup
  refine ⟨_, ((keys_mergeSort_sorted _).lt_of_le hnodup).sublist
    ((List.filter_sublist _).map Prod.fst), fun k h => ?_,
    headerReport_text ops hsorted footer vendor re hv hr html⟩
  rw [List.mem_filter, List.mem_mergeSort]
  exact and_congr_left' ⟨PyDict.get_of_mem hv.headers_nodup, PyDict.mem_of_get⟩

theorem headerReport_articles_components :
    (∀ h kv, kv ∈ listingOps.sortedDefs h → (h.defs.get kv.1).isSome) ∧ componentsState.Coherent ∧
      ∃ shown : List (String × HeaderFile),
        (shown.map Prod.fst).Sorted (· < ·) ∧
        (∀ k h, (k, h) ∈ shown ↔
          componentsState.headers.get k = some h ∧ pyStartswith k "components/") ∧
        headerReport listingOps "" componentsState.headers componentsState.headers "" = (.ok (),
          String.join (shown.map fun p => articleText listingOps componentsState.headers p.1 p.2)) := by
  refine ⟨listingOps_sortedDefs, componentsState_coherent, ?_⟩
  simpa only [String.empty_append, String.append_empty] using headerReport_articles listingOps listingOps_sortedDefs "" componentsState
    componentsState componentsState_coherent componentsState_coherent ""

end ObjectDiff
