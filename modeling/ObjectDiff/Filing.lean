import ObjectDiff.Growth

/-!
# What `process_file` files

A returning `process_file` files exactly the named top DIEs of its unit: a name is in a
header afterwards when it was there before or when a top DIE filed under it resolves to
that header's file entry (`FilesInto`). The headers are exactly those of the file entries'
paths, and `def_lines` ends with the line of the last DIE filed under each name.
-/

namespace ObjectDiff

namespace KeepsHeaders

variable {α : Type}

lemma raise (e : Err) : KeepsHeaders (throw e : ObjM α) := fun _ => rfl

lemma liftExcept (x : Except Err α) : KeepsHeaders (ObjectDiff.liftExcept x : ObjM α) :=
  fun _ => by cases x <;> rfl

lemma attr (key : String) (v : Option α) : KeepsHeaders (ObjectDiff.attr key v : ObjM α) :=
  fun _ => by cases v <;> rfl

lemma raise_bind {β : Type} (e : Err) (f : α → ObjM β) : KeepsHeaders (throw e >>= f) :=
  fun _ => rfl

lemma getDie (u : CompUnit) (off : Nat) : KeepsHeaders (ObjectDiff.getDie u off : ObjM Die) :=
  fun _ => by unfold ObjectDiff.getDie; cases u.get? off <;> rfl

end KeepsHeaders

/-- `x` leaves the headers as they are, or files `n` into one header whose key satisfies
`Q`. -/
def FilesInto {α : Type} (Q : String → Prop) (n : Option String) (x : ObjM α) : Prop :=
  ∀ s, (x s).2.headers = s.headers ∨
    ∃ p entry line, Q p ∧ (x s).2.headers = s.headers.modify p (HeaderFile.file n entry line)

namespace FilesInto

variable {α β : Type} {Q : String → Prop} {n : Option String}

lemma of_keeps {x : ObjM α} (hx : KeepsHeaders x) : FilesInto Q n x :=
  fun s => .inl (hx s)

lemma bind {x : ObjM α} {f : α → ObjM β} (hx : KeepsHeaders x) {R : α → Prop}
    (hR : ∀ s a s', x s = (.ok a, s') → R a) (hf : ∀ a, R a → FilesInto Q n (f a)) :
    FilesInto Q n (x >>= f) := fun s => by
  have hs := hx s
  rw [PyM.bind_apply]
  revert hs
  rcases hrun : x s with ⟨_ | a, s'⟩
  · exact .inl
  · intro hs
    rw [← hs]
    exact hf a (hR s a s' hrun) s'

lemma keeps_bind {x : ObjM α} {f : α → ObjM β} (hx : KeepsHeaders x)
    (hf : ∀ a, FilesInto Q n (f a)) : FilesInto Q n (x >>= f) :=
  bind hx (R := fun _ => True) (fun _ _ _ _ => trivial) fun a _ => hf a

lemma fileDef {p : String} (hp : Q p) (entry : CRef) (line : Nat) :
    FilesInto Q n (ObjectDiff.fileDef p n entry line) :=
  fun _ => .inr ⟨p, entry, line, hp, rfl⟩

lemma ite {c : Prop} [Decidable c] {x y : ObjM α} (hx : FilesInto Q n x) (hy : FilesInto Q n y) :
    FilesInto Q n (if c then x else y) := by
  split
  · exact hx
  · exact hy

lemma names {m : Option String} {x : ObjM α} (hx : FilesInto Q m x) (s : ObjState) {p : String}
    {hdr : HeaderFile} {n : Option String} (h : (x s).2.headers.get p = some hdr)
    (hn : (hdr.defs.get n).isSome) :
    (∃ h₀, s.headers.get p = some h₀ ∧ (h₀.defs.get n).isSome) ∨ (Q p ∧ m = n) := by
  rcases hx s with heq | ⟨p', entry, line, hq, heq⟩
  · rw [heq] at h
    exact .inl ⟨hdr, h, hn⟩
  · rw [heq, PyDict.get_modify] at h
    split_ifs at h with hpp
    · subst hpp
      obtain ⟨h₀, hh₀, rfl⟩ := Option.map_eq_some'.1 h
      by_cases hnm : n = m
      · exact .inr ⟨hq, hnm.symm⟩
      · exact .inl ⟨h₀, hh₀, by simpa [HeaderFile.file, PyDict.get_set, hnm] using hn⟩
    · exact .inl ⟨hdr, h, hn⟩

end FilesInto

lemma liftExcept_ok_of_run {σ α : Type} {x : Except Err α} {s s' : σ} {a : α}
    (h : (ObjectDiff.liftExcept x : PyM σ α) s = (.ok a, s')) : x = .ok a := by
  cases x <;> cases h
  rfl

lemma getDie_ok_of_run {σ : Type} {u : CompUnit} {off : Nat} {s s' : σ} {d : Die}
    (h : (getDie u off : PyM σ Die) s = (.ok d, s')) : u.get? off = some d := by
  revert h
  unfold getDie
  rcases u.get? off with _ | d' <;> intro h <;> cases h
  rfl

lemma processDie_filesInto (ctxName : String) (u : CompUnit) (symtab : SymbolTable)
    (fuel : Nat) (fileEntries : List String) (d : Die) :
    FilesInto (fun p => ∃ k, d.declFile = some k ∧ pyIndex fileEntries ((k : Int) - 1) = .ok p)
      (fileName u d) (processDie ctxName u symtab fuel fileEntries d) := by
  unfold processDie
  rcases hk : d.declFile with _ | k
  · exact FilesInto.of_keeps (KeepsHeaders.ret _)
  refine FilesInto.bind (KeepsHeaders.liftExcept _) (fun _ _ _ h => liftExcept_ok_of_run h)
    fun declFile hp => FilesInto.keeps_bind (KeepsHeaders.attr _ _) fun declLine => ?_
  -- the filing that ends every branch that files
  have hfile : ∀ {β : Type} (name : Option String) (x : ObjM β) (g : β → CRef), KeepsHeaders x →
      name = fileName u d → FilesInto (fun p => ∃ k', some k = some k' ∧
        pyIndex fileEntries ((k' : Int) - 1) = .ok p) (fileName u d)
        (x >>= fun entry => fileDef declFile name (g entry) declLine) := by
    rintro β name x g hx rfl
    exact FilesInto.keeps_bind hx fun _ => FilesInto.fileDef ⟨k, rfl, hp⟩ _ _
  split_ifs with hv
  · split
    · rename_i spec hsp
      refine FilesInto.bind (KeepsHeaders.getDie _ _) (fun _ _ _ h => getDie_ok_of_run h)
        fun d' hd' => ?_
      dsimp only
      refine FilesInto.ite (FilesInto.of_keeps (KeepsHeaders.raise_bind _ _))
        (FilesInto.keeps_bind (KeepsHeaders.ret _) fun _ => ?_)
      exact FilesInto.keeps_bind (KeepsHeaders.onTypes _) fun _ =>
        hfile (dieGetName d') _ _ (KeepsHeaders.onTypes _) (by simp [fileName, hv, hsp, hd'])
    · rename_i hsp
      exact FilesInto.keeps_bind (KeepsHeaders.onSymtab _) fun _ =>
        FilesInto.keeps_bind (KeepsHeaders.onTypes _) fun _ =>
          hfile (dieGetName d) _ _ (KeepsHeaders.onTypes _) (by simp [fileName, hv, hsp])
  · exact FilesInto.of_keeps (KeepsHeaders.ret _)
  · exact hfile (dieGetName d) _ (fun entry => entry) (dieToCtypeOrFunc_keepsHeaders _ _ _ _ _)
      (by simp [fileName, hv])

/-! ### Every name filed comes from a DIE -/

lemma processDies_names (ctxName : String) (u : CompUnit) (symtab : SymbolTable) (fuel : Nat)
    (fileEntries : List String) :
    ∀ (ds : List Die) (s : ObjState) {p : String} {hdr : HeaderFile} {n : Option String},
      (processDies ctxName u symtab fuel fileEntries ds s).2.headers.get p = some hdr →
      (hdr.defs.get n).isSome →
      (∃ h₀, s.headers.get p = some h₀ ∧ (h₀.defs.get n).isSome) ∨
        ∃ d ∈ ds, ∃ k, d.declFile = some k ∧ pyIndex fileEntries ((k : Int) - 1) = .ok p ∧
          fileName u d = n
  | [], _, _, _, _, h, hn => .inl ⟨_, h, hn⟩
  | d :: ds, s, p, hdr, n, h, hn => by
    have hfiled : ∀ {h₁ : HeaderFile},
        (processDie ctxName u symtab fuel fileEntries d s).2.headers.get p = some h₁ →
        (h₁.defs.get n).isSome → (∃ h₀, s.headers.get p = some h₀ ∧ (h₀.defs.get n).isSome) ∨
          ∃ d' ∈ d :: ds, ∃ k, d'.declFile = some k ∧
            pyIndex fileEntries ((k : Int) - 1) = .ok p ∧ fileName u d' = n := fun h₁ hn₁ => by
      rcases (processDie_filesInto ctxName u symtab fuel fileEntries d).names s h₁ hn₁ with
        hbefore | ⟨⟨k, hk, hp⟩, hname⟩
      · exact .inl hbefore
      · exact .inr ⟨d, List.mem_cons_self _ _, k, hk, hp, hname⟩
    simp only [processDies, PyM.bind_apply] at h
    revert h hfiled
    rcases processDie ctxName u symtab fuel fileEntries d s with ⟨_ | _, s₁⟩
    · exact fun hfiled h => hfiled h hn
    · intro hfiled h
      rcases processDies_names ctxName u symtab fuel fileEntries ds s₁ h hn with
        ⟨h₁, hh₁, hn₁⟩ | ⟨d', hd', k, hk, hp, hname⟩
      · exact hfiled hh₁ hn₁
      · exact .inr ⟨d', List.mem_cons_of_mem _ hd', k, hk, hp, hname⟩

/-- `x` changes nothing filed: under every name, every header holds the entry and the line
it held before, and a header `x` makes holds none. -/
def KeepsFiled {α : Type} (x : ObjM α) : Prop :=
  ∀ s p n, ((x s).2.headers.get p).bind (·.defs.get n) = (s.headers.get p).bind (·.defs.get n) ∧
    ((x s).2.headers.get p).bind (·.defLines.get n) = (s.headers.get p).bind (·.defLines.get n)

namespace KeepsFiled

variable {α β : Type}

lemma of_keeps {x : ObjM α} (hx : KeepsHeaders x) : KeepsFiled x :=
  fun s _ _ => by rw [hx s]; exact ⟨rfl, rfl⟩

lemma bind {x : ObjM α} {f : α → ObjM β} (hx : KeepsFiled x) (hf : ∀ a, KeepsFiled (f a)) :
    KeepsFiled (x >>= f) := fun s p n => by
  have hs := hx s p n
  rw [PyM.bind_apply]
  revert hs
  rcases x s with ⟨_ | a, s'⟩
  · exact id
  · rintro ⟨hdefs, hlines⟩
    obtain ⟨hdefs', hlines'⟩ := hf a s' p n
    exact ⟨hdefs'.trans hdefs, hlines'.trans hlines⟩

lemma names {x : ObjM α} (hx : KeepsFiled x) {s : ObjState} {p : String} {hdr : HeaderFile}
    {n : Option String} (h : (x s).2.headers.get p = some hdr) (hn : (hdr.defs.get n).isSome) :
    ∃ h₀, s.headers.get p = some h₀ ∧ (h₀.defs.get n).isSome := by
  have hdefs := (hx s p n).1
  rw [h, Option.some_bind] at hdefs
  obtain ⟨e, he⟩ := Option.isSome_iff_exists.1 hn
  obtain ⟨h₀, hh₀, he₀⟩ := Option.bind_eq_some.1 (hdefs ▸ he)
  exact ⟨h₀, hh₀, by rw [he₀]; rfl⟩

end KeepsFiled

lemma getOrCreate_keepsFiled (path : String) : KeepsFiled (getOrCreate path) :=
  fun s p n => by
    rw [getOrCreate_apply]
    split_ifs with hnone
    · by_cases hp : p = path
      · subst hp
        rw [Option.isNone_iff_eq_none.1 hnone]
        simp [PyDict.get_set, PyDict.get]
      · simp [PyDict.get_set, hp]
    · exact ⟨rfl, rfl⟩

lemma createFileEntries_keepsFiled (removePrefixes : String → String) (dirs : List String) :
    ∀ xs, KeepsFiled (createFileEntries removePrefixes dirs xs)
  | [] => KeepsFiled.of_keeps (KeepsHeaders.ret _)
  | _ :: xs => KeepsFiled.bind (KeepsFiled.of_keeps (KeepsHeaders.liftExcept _)) fun _ =>
      KeepsFiled.bind (getOrCreate_keepsFiled _) fun _ =>
        KeepsFiled.bind (createFileEntries_keepsFiled removePrefixes dirs xs) fun _ =>
          KeepsFiled.of_keeps (KeepsHeaders.ret _)

lemma processFile_names (ctxName : String) (removePrefixes : String → String) (fuel : Nat)
    (obj : ObjFile) (s : ObjState) {p : String} {hdr : HeaderFile} {n : Option String}
    (h : (processFile ctxName removePrefixes fuel obj s).2.headers.get p = some hdr)
    (hn : (hdr.defs.get n).isSome) :
    (∃ h₀, s.headers.get p = some h₀ ∧ (h₀.defs.get n).isSome) ∨
      ∃ u, obj.firstUnit = some u ∧ ∃ d ∈ u.top.filterMap u.get?, ∃ k x, d.declFile = some k ∧
        pyIndex u.lineProgram.fileEntry ((k : Int) - 1) = .ok x ∧
        fileEntryPath removePrefixes u.lineProgram.includeDirectory x = .ok p ∧ fileName u d = n := by
  rcases hu : obj.firstUnit with _ | u
  · simp only [processFile, hu] at h
    exact .inl ⟨hdr, h, hn⟩
  simp only [processFile, hu] at h
  rw [PyM.bind_apply] at h
  simp only [PyM.modify_apply] at h
  obtain ⟨s₀, h, hs₀⟩ : ∃ s₀ : ObjState,
      ((createFileEntries removePrefixes u.lineProgram.includeDirectory u.lineProgram.fileEntry >>=
        fun paths => processDies ctxName u obj.symtab fuel paths (u.top.filterMap u.get?))
        s₀).2.headers.get p = some hdr ∧ s₀.headers = s.headers := ⟨_, h, rfl⟩
  have hbefore : ∀ {h₁ : HeaderFile}, s₀.headers.get p = some h₁ → (h₁.defs.get n).isSome →
      ∃ h₀, s.headers.get p = some h₀ ∧ (h₀.defs.get n).isSome := fun hh₁ hn₁ =>
    ⟨_, hs₀ ▸ hh₁, hn₁⟩
  rw [PyM.bind_apply] at h
  revert h
  rcases hc : createFileEntries removePrefixes u.lineProgram.includeDirectory
    u.lineProgram.fileEntry s₀ with ⟨_ | paths, s₁⟩
  · intro h
    obtain ⟨_, hh₀, hn₀⟩ := (createFileEntries_keepsFiled _ _ _).names (by rw [hc]; exact h) hn
    exact .inl (hbefore hh₀ hn₀)
  · intro h
    rcases processDies_names ctxName u obj.symtab fuel paths _ s₁ h hn with
      ⟨h₁, hh₁, hn₁⟩ | ⟨d, hd, k, hk, hp, hname⟩
    · obtain ⟨_, hh₀, hn₀⟩ := (createFileEntries_keepsFiled _ _ _).names (by rw [hc]; exact hh₁) hn₁
      exact .inl (hbefore hh₀ hn₀)
    · obtain ⟨x, hx, hxp⟩ := pyIndex_forall₂ (createFileEntries_ok _ _ hc).1.flip hp
      exact .inr ⟨u, rfl, d, hd, k, x, hk, hx, hxp, hname⟩

/-! ### Which headers there are -/

lemma processDies_isSome (ctxName : String) (u : CompUnit) (symtab : SymbolTable) (fuel : Nat)
    (fileEntries : List String) : ∀ (ds : List Die) (s : ObjState) (p : String),
      ((processDies ctxName u symtab fuel fileEntries ds s).2.headers.get p).isSome =
        (s.headers.get p).isSome
  | [], _, _ => rfl
  | d :: ds, s, p => by
    have hstep : ((processDie ctxName u symtab fuel fileEntries d s).2.headers.get p).isSome =
        (s.headers.get p).isSome := by
      rcases processDie_filesInto ctxName u symtab fuel fileEntries d s with heq | ⟨_, _, _, -, heq⟩
      · rw [heq]
      · rw [heq, PyDict.get_modify]
        split_ifs with hpp <;> simp [hpp]
    simp only [processDies, PyM.bind_apply]
    revert hstep
    rcases processDie ctxName u symtab fuel fileEntries d s with ⟨_ | _, s₁⟩
    · exact id
    · exact fun hstep => (processDies_isSome ctxName u symtab fuel fileEntries ds s₁ p).trans hstep

lemma createFileEntries_isSome (removePrefixes : String → String) (dirs : List String) :
    ∀ {xs : List FileEntry} {s s' : ObjState} {paths : List String},
      createFileEntries removePrefixes dirs xs s = (.ok paths, s') →
      ∀ p, (s'.headers.get p).isSome → (s.headers.get p).isSome ∨ p ∈ paths
  | [], _, _, _, h => by
    cases h
    exact fun _ => .inl
  | x :: xs, s, s', paths, h => by
    simp only [createFileEntries] at h
    obtain ⟨path, s₁, h₁, h⟩ := PyM.bind_ok h
    rcases hx : fileEntryPath removePrefixes dirs x with _ | p' <;> rw [hx] at h₁ <;> cases h₁
    obtain ⟨_, s₂, h₂, h⟩ := PyM.bind_ok h
    rw [getOrCreate_apply] at h₂
    cases h₂
    obtain ⟨ps, s₃, h₃, h⟩ := PyM.bind_ok h
    cases h
    intro q hq
    rcases createFileEntries_isSome removePrefixes dirs h₃ q hq with hq | hq
    · split at hq
      · by_cases hqp : q = path
        · exact .inr (hqp ▸ List.mem_cons_self _ _)
        · exact .inl (by simpa [PyDict.get_set, hqp] using hq)
      · exact .inl hq
    · exact .inr (List.mem_cons_of_mem _ hq)

lemma mem_paths_iff {removePrefixes : String → String} {dirs : List String}
    {xs : List FileEntry} {paths : List String}
    (h : List.Forall₂ (fun x p => fileEntryPath removePrefixes dirs x = .ok p) xs paths)
    (p : String) : p ∈ paths ↔ ∃ x ∈ xs, fileEntryPath removePrefixes dirs x = .ok p := by
  induction h with
  | nil => simp
  | cons hxy _ ih =>
    simp only [List.mem_cons, ih, exists_eq_or_imp, hxy, Except.ok.injEq]
    exact or_congr_left eq_comm

lemma processFile_isSome (ctxName : String) (removePrefixes : String → String) (fuel : Nat)
    (obj : ObjFile) (u : CompUnit) (hu : obj.firstUnit = some u) {s s' : ObjState}
    (h : processFile ctxName removePrefixes fuel obj s = (.ok (), s')) (p : String) :
    (s'.headers.get p).isSome ↔ (s.headers.get p).isSome ∨
      ∃ x ∈ u.lineProgram.fileEntry,
        fileEntryPath removePrefixes u.lineProgram.includeDirectory x = .ok p := by
  simp only [processFile, hu] at h
  obtain ⟨_, s₀, h₀, h⟩ := PyM.bind_ok h
  obtain ⟨paths, s₁, h₁, h⟩ := PyM.bind_ok h
  have hs₀ : s₀.headers = s.headers := by cases h₀; rfl
  have hs' : s' = (processDies ctxName u obj.symtab fuel paths (u.top.filterMap u.get?) s₁).2 := by
    rw [h]
  rw [hs', processDies_isSome, ← hs₀, ← mem_paths_iff (createFileEntries_ok removePrefixes _ h₁).1]
  exact ⟨createFileEntries_isSome removePrefixes _ h₁ p,
    (createFileEntries_ok removePrefixes _ h₁).2 p⟩

/-- After a returning run of `process_file` over objects, `header_files` has a header for
exactly the keys it had and the paths of the file entries of the objects' units: no
header is made but for a file entry, and none is dropped. -/
theorem processFiles_headers (ctxName : String) (removePrefixes : String → String)
    (fuel : Nat) (objs : List ObjFile) (s s' : ObjState)
    (h : processFiles ctxName removePrefixes fuel objs s = (.ok (), s')) (p : String) :
    (s'.headers.get p).isSome ↔ (s.headers.get p).isSome ∨
      ∃ obj ∈ objs, ∃ u, obj.firstUnit = some u ∧ ∃ x ∈ u.lineProgram.fileEntry,
        fileEntryPath removePrefixes u.lineProgram.includeDirectory x = .ok p := by
  induction objs generalizing s with
  | nil =>
    cases h
    simp
  | cons obj objs ih =>
    simp only [processFiles] at h
    obtain ⟨_, s₁, h₁, h₂⟩ := PyM.bind_ok h
    have hfile : (s₁.headers.get p).isSome ↔ (s.headers.get p).isSome ∨
        ∃ u, obj.firstUnit = some u ∧ ∃ x ∈ u.lineProgram.fileEntry,
          fileEntryPath removePrefixes u.lineProgram.includeDirectory x = .ok p := by
      rcases hu : obj.firstUnit with _ | u
      · simp only [processFile, hu] at h₁
        cases h₁
        simp
      · simp [processFile_isSome ctxName removePrefixes fuel obj u hu h₁ p]
    rw [ih s₁ h₂, hfile]
    simp only [List.mem_cons, exists_eq_or_imp, or_assoc]

theorem processFiles_headers_a :
    processFiles "lib" id 20 [objA] .empty =
        (.ok (), (processFiles "lib" id 20 [objA] .empty).2) ∧
      (((processFiles "lib" id 20 [objA] .empty).2.headers.get "a.c").isSome ↔
        (ObjState.empty.headers.get "a.c").isSome ∨
          ∃ obj ∈ [objA], ∃ u, obj.firstUnit = some u ∧ ∃ x ∈ u.lineProgram.fileEntry,
            fileEntryPath id u.lineProgram.includeDirectory x = .ok "a.c") :=
  have hrun := Prod.ext (by decide) rfl
  ⟨hrun, processFiles_headers "lib" id 20 [objA] .empty _ hrun "a.c"⟩

/-! ### What a returning `process_file` files -/

lemma processDies_files {ctxName : String} {u : CompUnit} {symtab : SymbolTable} {fuel : Nat}
    {fileEntries : List String} {ds : List Die} {s s' : ObjState}
    (h : processDies ctxName u symtab fuel fileEntries ds s = (.ok (), s')) {d : Die}
    (hd : d ∈ ds) {k : Nat} {p n : String} (hk : d.declFile = some k)
    (hp : pyIndex fileEntries ((k : Int) - 1) = .ok p) (hn : fileName u d = some n)
    (hs : (s.headers.get p).isSome) :
    ∃ hdr, s'.headers.get p = some hdr ∧ (hdr.defs.get (some n)).isSome := by
  induction ds generalizing s with
  | nil => cases hd
  | cons d₀ ds ih =>
    simp only [processDies] at h
    obtain ⟨_, s₁, h₁, h₂⟩ := PyM.bind_ok h
    obtain ⟨h₀, hh₀⟩ := Option.isSome_iff_exists.1 hs
    rcases List.mem_cons.1 hd with rfl | hd
    · obtain ⟨entry, line, -, hs₁⟩ := processDie_headers hk hp hn h₁
      obtain ⟨l, hl⟩ := ((processDies_extending ctxName u symtab fuel fileEntries ds).of_run
        h₂).headers_kept p (h₀.file (some n) entry line)
        (by rw [hs₁, PyDict.get_modify, if_pos rfl, hh₀]; rfl)
      exact ⟨_, hl, HeaderFile.defs_isSome_fileAll (by simp [HeaderFile.file, PyDict.get_set]) l⟩
    · obtain ⟨l, hl⟩ := ((processDie_extending ctxName u symtab fuel fileEntries d₀).of_run
        h₁).headers_kept p h₀ hh₀
      exact ih h₂ hd (by simp [hl])

lemma processFile_files_die (ctxName : String) (removePrefixes : String → String) (fuel : Nat)
    (obj : ObjFile) (u : CompUnit) (hu : obj.firstUnit = some u) (s s' : ObjState)
    (h : processFile ctxName removePrefixes fuel obj s = (.ok (), s'))
    (d : Die) (hd : d ∈ u.top.filterMap u.get?) (k : Nat) (hk : d.declFile = some k)
    (x : FileEntry) (hx : pyIndex u.lineProgram.fileEntry ((k : Int) - 1) = .ok x)
    (p : String) (hp : fileEntryPath removePrefixes u.lineProgram.includeDirectory x = .ok p)
    (n : String) (hn : fileName u d = some n) :
    ∃ hdr, s'.headers.get p = some hdr ∧ (hdr.defs.get (some n)).isSome := by
  simp only [processFile, hu] at h
  obtain ⟨_, s₀, -, h⟩ := PyM.bind_ok h
  obtain ⟨paths, s₁, h₁, h⟩ := PyM.bind_ok h
  obtain ⟨hall, hheaders⟩ := createFileEntries_ok removePrefixes _ h₁
  obtain ⟨p', hp', hxp⟩ := pyIndex_forall₂ hall hx
  rw [hp, Except.ok.injEq] at hxp
  subst hxp
  exact processDies_files h hd hk hp' hn (hheaders p (.inr (pyIndex_mem hp')))

/-- A returning `process_file` files exactly the named top DIEs: a name is in the header
with key `p` afterwards if and only if it was there before, or a top DIE filed under that
name has a `DW_AT_decl_file` that Python's indexing resolves to a file entry whose path is
`p`. -/
theorem processFile_filed_iff (ctxName : String) (removePrefixes : String → String)
    (fuel : Nat) (obj : ObjFile) (u : CompUnit) (hu : obj.firstUnit = some u) (s s' : ObjState)
    (h : processFile ctxName removePrefixes fuel obj s = (.ok (), s')) (p n : String) :
    (∃ hdr, s'.headers.get p = some hdr ∧ (hdr.defs.get (some n)).isSome) ↔
      (∃ h₀, s.headers.get p = some h₀ ∧ (h₀.defs.get (some n)).isSome) ∨
        ∃ d ∈ u.top.filterMap u.get?, ∃ k x, d.declFile = some k ∧
          pyIndex u.lineProgram.fileEntry ((k : Int) - 1) = .ok x ∧
          fileEntryPath removePrefixes u.lineProgram.includeDirectory x = .ok p ∧
          fileName u d = some n := by
  have hs' : (processFile ctxName removePrefixes fuel obj s).2 = s' := by rw [h]
  constructor
  · rintro ⟨hdr, hp, hn⟩
    rcases processFile_names ctxName removePrefixes fuel obj s (hs' ▸ hp) hn with
      hbefore | ⟨u', hu', d, hd, k, x, hk, hx, hpx, hname⟩
    · exact .inl hbefore
    · rw [hu, Option.some.injEq] at hu'
      subst hu'
      exact .inr ⟨d, hd, k, x, hk, hx, hpx, hname⟩
  · rintro (⟨h₀, hh₀, hn₀⟩ | ⟨d, hd, k, x, hk, hx, hpx, hname⟩)
    · obtain ⟨l, hl⟩ :=
        ((processFile_extending ctxName removePrefixes fuel obj).of_run h).headers_kept p h₀ hh₀
      exact ⟨_, hl, HeaderFile.defs_isSome_fileAll hn₀ l⟩
    · exact processFile_files_die ctxName removePrefixes fuel obj u hu s s' h d hd k hk x hx p hpx
        n hname

theorem processFile_filed_iff_a :
    ∃ u, objA.firstUnit = some u ∧
      processFile "lib" id 20 objA .empty = (.ok (), (processFile "lib" id 20 objA .empty).2) ∧
      ((∃ hdr, (processFile "lib" id 20 objA .empty).2.headers.get "a.c" = some hdr ∧
          (hdr.defs.get (some "m")).isSome) ↔
        (∃ h₀, ObjState.empty.headers.get "a.c" = some h₀ ∧ (h₀.defs.get (some "m")).isSome) ∨
          ∃ d ∈ u.top.filterMap u.get?, ∃ k x, d.declFile = some k ∧
            pyIndex u.lineProgram.fileEntry ((k : Int) - 1) = .ok x ∧
            fileEntryPath id u.lineProgram.includeDirectory x = .ok "a.c" ∧
            fileName u d = some "m") :=
  have hrun : (processFile "lib" id 20 objA .empty).1 = .ok () := by decide
  ⟨_, rfl, Prod.ext hrun rfl,
    processFile_filed_iff "lib" id 20 objA _ rfl .empty _ (Prod.ext hrun rfl) "a.c" "m"⟩

/-! ### The line each name ends with -/

/-- The key of the header and the name under which the loop of `process_file` files DIE
`d`, where `resolve` gives the key of the header a `DW_AT_decl_file` value picks; `none`
when the DIE is skipped or filed under no name. -/
def filedUnder (u : CompUnit) (resolve : Nat → Option String) (d : Die) :
    Option (String × String) := do
  let k ← d.declFile
  return (← resolve k, ← fileName u d)

/-- The key of the header the loop files `DW_AT_decl_file` value `k` into:
`file_entries[k - 1]`. -/
def entryKey (fileEntries : List String) (k : Nat) : Option String :=
  (pyIndex fileEntries ((k : Int) - 1)).toOption

/-- The same key read from the unit: the path of `lp['file_entry'][k - 1]`. -/
def entryPath (removePrefixes : String → String) (u : CompUnit) (k : Nat) : Option String :=
  (pyIndex u.lineProgram.fileEntry ((k : Int) - 1)).toOption.bind fun x =>
    (fileEntryPath removePrefixes u.lineProgram.includeDirectory x).toOption

/-- The line DIE `d` writes to `def_lines[n]` of the header with key `p`, if it writes
one. -/
def declLineAt (u : CompUnit) (resolve : Nat → Option String) (p n : String) (d : Die) :
    Option Nat :=
  if filedUnder u resolve d = some (p, n) then d.declLine else none

lemma filedUnder_eq_some {u : CompUnit} {resolve : Nat → Option String} {d : Die}
    {p n : String} : filedUnder u resolve d = some (p, n) ↔
      ∃ k, d.declFile = some k ∧ resolve k = some p ∧ fileName u d = some n := by
  simp [filedUnder, Option.bind_eq_some]

lemma entryKey_eq_some {fileEntries : List String} {k : Nat} {p : String} :
    entryKey fileEntries k = some p ↔ pyIndex fileEntries ((k : Int) - 1) = .ok p := by
  unfold entryKey
  cases pyIndex fileEntries ((k : Int) - 1) <;> simp [Except.toOption]

lemma entryKey_eq_entryPath {removePrefixes : String → String} {u : CompUnit}
    {paths : List String} (hall : List.Forall₂
      (fun x p => fileEntryPath removePrefixes u.lineProgram.includeDirectory x = .ok p)
      u.lineProgram.fileEntry paths) :
    entryKey paths = entryPath removePrefixes u := funext fun k => by
  unfold entryKey entryPath
  rcases hx : pyIndex u.lineProgram.fileEntry ((k : Int) - 1) with _ | x
  · rcases hp : pyIndex paths ((k : Int) - 1) with _ | p
    · rfl
    · obtain ⟨x, hx', -⟩ := pyIndex_forall₂ hall.flip hp
      rw [hx] at hx'
      cases hx'
  · obtain ⟨p, hp, hxp⟩ := pyIndex_forall₂ hall hx
    simp [hp, hxp, Except.toOption]

lemma FilesInto.defLine {α : Type} {Q : String → Prop} {m : Option String} {x : ObjM α}
    (hx : FilesInto Q m x) (s : ObjState) (p : String) (n : Option String) (hne : Q p → m ≠ n) :
    ((x s).2.headers.get p).bind (·.defLines.get n) = (s.headers.get p).bind (·.defLines.get n) := by
  rcases hx s with heq | ⟨p', entry, line, hq, heq⟩
  · rw [heq]
  · rw [heq, PyDict.get_modify]
    split_ifs with hpp
    · subst hpp
      cases s.headers.get p <;> simp [HeaderFile.file, PyDict.get_set, Ne.symm (hne hq)]
    · rfl

lemma processDie_defLine {ctxName : String} {u : CompUnit} {symtab : SymbolTable} {fuel : Nat}
    {fileEntries : List String} {d : Die} {s s' : ObjState}
    (h : processDie ctxName u symtab fuel fileEntries d s = (.ok (), s'))
    (hs : ∀ q ∈ fileEntries, (s.headers.get q).isSome) (p n : String) :
    (s'.headers.get p).bind (·.defLines.get (some n)) =
      (declLineAt u (entryKey fileEntries) p n d).or
        ((s.headers.get p).bind (·.defLines.get (some n))) := by
  by_cases hf : filedUnder u (entryKey fileEntries) d = some (p, n)
  · obtain ⟨k, hk, hp, hn⟩ := filedUnder_eq_some.1 hf
    obtain ⟨entry, line, hline, hs'⟩ := processDie_headers hk (entryKey_eq_some.1 hp) hn h
    obtain ⟨hdr, hhdr⟩ := Option.isSome_iff_exists.1 (hs p (pyIndex_mem (entryKey_eq_some.1 hp)))
    simp [declLineAt, hf, hline, hs', PyDict.get_modify, hhdr, HeaderFile.file, PyDict.get_set]
  · have hs' : s' = (processDie ctxName u symtab fuel fileEntries d s).2 := by rw [h]
    rw [declLineAt, if_neg hf, Option.none_or, hs']
    exact (processDie_filesInto ctxName u symtab fuel fileEntries d).defLine s p (some n)
      fun ⟨k, hk, hp⟩ hn => hf (filedUnder_eq_some.2 ⟨k, hk, entryKey_eq_some.2 hp, hn⟩)

lemma processDies_defLine (ctxName : String) (u : CompUnit) (symtab : SymbolTable)
    (fuel : Nat) (fileEntries : List String) (p n : String) :
    ∀ (ds : List Die) (s s' : ObjState),
      processDies ctxName u symtab fuel fileEntries ds s = (.ok (), s') →
      (∀ q ∈ fileEntries, (s.headers.get q).isSome) →
      (s'.headers.get p).bind (·.defLines.get (some n)) =
        (ds.filterMap (declLineAt u (entryKey fileEntries) p n)).getLast?.or
          ((s.headers.get p).bind (·.defLines.get (some n)))
  | [], s, s', h, _ => by
    cases h
    rfl
  | d :: ds, s, s', h, hs => by
    simp only [processDies] at h
    obtain ⟨_, s₁, h₁, h₂⟩ := PyM.bind_ok h
    have hs₁ : ∀ q ∈ fileEntries, (s₁.headers.get q).isSome := fun q hq => by
      obtain ⟨h₀, hh₀⟩ := Option.isSome_iff_exists.1 (hs q hq)
      obtain ⟨l, hl⟩ := ((processDie_extending ctxName u symtab fuel fileEntries d).of_run
        h₁).headers_kept q h₀ hh₀
      simp [hl]
    rw [processDies_defLine ctxName u symtab fuel fileEntries p n ds s₁ s' h₂ hs₁,
      processDie_defLine h₁ hs p n, List.filterMap_cons]
    cases declLineAt u (entryKey fileEntries) p n d with
    | none => rfl
    | some line =>
      simp only [List.getLast?_cons]
      cases (ds.filterMap (declLineAt u (entryKey fileEntries) p n)).getLast? <;> rfl

/-- After a returning `process_file`, `def_lines[n]` of the header with key `p` holds the
`DW_AT_decl_line` of the last top DIE filed under `n` into that header, or, when there is
none, what it held before: a later DIE of the same name and header overwrites the line an
earlier one filed. -/
theorem processFile_defLine (ctxName : String) (removePrefixes : String → String)
    (fuel : Nat) (obj : ObjFile) (u : CompUnit) (hu : obj.firstUnit = some u) (s s' : ObjState)
    (h : processFile ctxName removePrefixes fuel obj s = (.ok (), s')) (p n : String) :
    (s'.headers.get p).bind (·.defLines.get (some n)) =
      ((u.top.filterMap u.get?).filterMap
        (declLineAt u (entryPath removePrefixes u) p n)).getLast?.or
        ((s.headers.get p).bind (·.defLines.get (some n))) := by
  simp only [processFile, hu] at h
  obtain ⟨_, s₀, h₀, h⟩ := PyM.bind_ok h
  obtain ⟨paths, s₁, h₁, h⟩ := PyM.bind_ok h
  obtain ⟨hall, hheaders⟩ := createFileEntries_ok removePrefixes _ h₁
  have hlines := (createFileEntries_keepsFiled removePrefixes u.lineProgram.includeDirectory
    u.lineProgram.fileEntry s₀ p (some n)).2
  have hs₀ : s₀.headers = s.headers := by cases h₀; rfl
  rw [h₁, hs₀] at hlines
  rw [processDies_defLine ctxName u obj.symtab fuel paths p n _ s₁ s' h
    fun q hq => hheaders q (.inr hq), entryKey_eq_entryPath hall, hlines]

/-- An object that files the variable `v` twice into `a.c`, at lines 2 and 9, as
`extern int v;` followed by `int v;` would. -/
def objTwice : ObjFile :=
  ⟨noSymtab,
    some ⟨[{ offset := 1, tag := .variable, name := some "v", declFile := some 1,
             declLine := some 2 },
           { offset := 2, tag := .variable, name := some "v", declFile := some 1,
             declLine := some 9 }],
      [1, 2], ⟨4, [], [⟨"a.c", 0⟩]⟩⟩⟩

theorem processFile_defLine_twice :
    ∃ u, objTwice.firstUnit = some u ∧
      processFile "lib" id 20 objTwice .empty =
        (.ok (), (processFile "lib" id 20 objTwice .empty).2) ∧
      ((processFile "lib" id 20 objTwice .empty).2.headers.get "a.c").bind
          (·.defLines.get (some "v")) =
        ((u.top.filterMap u.get?).filterMap (declLineAt u (entryPath id u) "a.c" "v")).getLast?.or
          ((ObjState.empty.headers.get "a.c").bind (·.defLines.get (some "v"))) ∧
      ((processFile "lib" id 20 objTwice .empty).2.headers.get "a.c").bind
          (·.defLines.get (some "v")) = some 9 :=
  have hrun : (processFile "lib" id 20 objTwice .empty).1 = .ok () := by decide
  ⟨_, rfl, Prod.ext hrun rfl,
    processFile_defLine "lib" id 20 objTwice _ rfl .empty _ (Prod.ext hrun rfl) "a.c" "v",
    by decide⟩

end ObjectDiff
