import ObjectDiff.Growth

/-!
# The ODR check over `main`'s collection

The loop of `process_file` hands a top DIE to `die_to_ctype_or_func` only when it has
`DW_AT_decl_file`, is no variable and has a name; everything else it does leaves the context
alone (`LeavesContext`). A run over a library's objects is therefore a run of the context
machine on those DIEs' events, and a library raises the ODR error exactly when its own
events hold a violation. A definition after a declaration promotes the shared `CFunction`
in place, with the definition's signature, without marking the record defined.
-/

namespace ObjectDiff

/-- The event a top DIE gives the context in the loop of `process_file`: a DIE without
`DW_AT_decl_file` or without a name never reaches `die_to_ctype_or_func`, and a variable,
which is no subprogram, gives none. -/
def loopEvent (symtab : SymbolTable) (d : Die) : CtxEvent :=
  if d.declFile.isSome ∧ (dieGetName d).isSome then dieEvent symtab d else .skip

/-- The events of `process_file` on an object, in the order of its top DIEs. -/
def fileEvents (obj : ObjFile) : List CtxEvent :=
  match obj.firstUnit with
  | none => []
  | some u => (u.top.filterMap u.get?).map (loopEvent obj.symtab)

lemma dieEvent_of_ne_subprogram {t : SymbolTable} {d : Die} (hd : d.tag ≠ .subprogram) :
    dieEvent t d = .skip := by
  unfold dieEvent
  split <;> simp [ctxEvent, hd]

/-! ### Code that leaves the context alone -/

/-- From a state whose symbol-table cache is right, `x` raises no `ValueError`, and returns
with the same `funcs` and the cache still right. -/
def LeavesContext {α : Type} (t : SymbolTable) (x : ObjM α) : Prop :=
  ∀ s, StaticCacheOk t s.staticCache → match x s with
    | (.ok _, s') => s'.funcs = s.funcs ∧ StaticCacheOk t s'.staticCache
    | (.error e, _) => ∀ m, e ≠ .valueError m

namespace LeavesContext

variable {t : SymbolTable} {α β : Type}

lemma ret (a : α) : LeavesContext t (pure a : ObjM α) := fun _ hm => ⟨rfl, hm⟩

lemma raise {e : Err} (he : ∀ m, e ≠ .valueError m) : LeavesContext t (throw e : ObjM α) :=
  fun _ _ => he

lemma raise_bind {e : Err} (he : ∀ m, e ≠ .valueError m) {f : α → ObjM β} :
    LeavesContext t (throw e >>= f) :=
  fun _ _ => he

lemma bind {x : ObjM α} {f : α → ObjM β} (hx : LeavesContext t x)
    (hf : ∀ a, LeavesContext t (f a)) : LeavesContext t (x >>= f) := fun s hm => by
  have h := hx s hm
  rw [PyM.bind_apply]
  revert h
  rcases x s with ⟨_ | a, s₁⟩
  · exact id
  · rintro ⟨hf₁, hm₁⟩
    have h := hf a s₁ hm₁
    dsimp only
    revert h
    rcases f a s₁ with ⟨_ | _, _⟩
    · exact id
    · exact fun ⟨hf₂, hm₂⟩ => ⟨hf₂.trans hf₁, hm₂⟩

lemma liftExcept {x : Except Err α} (hx : ∀ m, x ≠ .error (.valueError m)) :
    LeavesContext t (ObjectDiff.liftExcept x) := by
  cases x with
  | error e => exact raise fun m he => hx m (by rw [he])
  | ok a => exact ret a

lemma attr (key : String) (v : Option α) : LeavesContext t (ObjectDiff.attr key v) := by
  cases v
  · exact raise fun _ => Err.noConfusion
  · exact ret _

lemma getDie (u : CompUnit) (off : Nat) : LeavesContext t (ObjectDiff.getDie u off : ObjM Die) := by
  unfold ObjectDiff.getDie
  split
  · exact ret _
  · exact raise fun _ => Err.noConfusion

lemma onTypes {x : RecM α} (hx : Inv (fun _ => True) (fun e => ∀ m, e ≠ .valueError m) x) :
    LeavesContext t (ObjectDiff.onTypes x) := fun s hm => by
  have h := hx s.types trivial
  rw [onTypes_apply]
  revert h
  rcases x s.types with ⟨_ | _, _⟩
  · exact And.left
  · exact fun _ => ⟨rfl, hm⟩

lemma alloc (o : CObj) : LeavesContext t (ObjectDiff.onTypes (ObjectDiff.alloc o)) :=
  fun _ hm => ⟨rfl, hm⟩

lemma isStatic {c : PyDict String Bool} (hc : buildStaticCache t = .ok c) (name : Option String) :
    LeavesContext t (onSymtab (ObjectDiff.isStatic t name)) := fun s hm => by
  rw [onSymtab_isStatic hc hm]
  exact ⟨rfl, staticCacheOk_some hc⟩

lemma fileDef (path : String) (name : Option String) (entry : CRef) (line : Nat) :
    LeavesContext t (ObjectDiff.fileDef path name entry line) := fun _ hm => ⟨rfl, hm⟩

lemma callSpec {x : ObjM α} (hx : LeavesContext t x) (ctxName : String) {s : ObjState}
    (hm : StaticCacheOk t s.staticCache) : CallSpec ctxName t (odrView s.funcs) .skip (x s) := by
  have h := hx s hm
  revert h
  rcases x s with ⟨_ | _, _⟩
  · exact fun he => callSpec_error he _
  · exact fun ⟨hf, hm'⟩ => ⟨by rw [hf]; rfl, hm'⟩

end LeavesContext

section Steps

variable {ctxName : String} {t : SymbolTable} {α β : Type} {v : OdrView} {ev : CtxEvent}

lemma callSpec_bind_leaves {x : ObjM α} {f : α → ObjM β} {s : ObjState}
    (hx : CallSpec ctxName t v ev (x s)) (hf : ∀ a, LeavesContext t (f a)) :
    CallSpec ctxName t v ev ((x >>= f) s) := by
  rw [PyM.bind_apply]
  revert hx
  rcases x s with ⟨e | a, s₁⟩
  · intro h
    cases e <;> exact h
  · rintro ⟨hstep, hm₁⟩
    have h := hf a s₁ hm₁
    dsimp only
    revert h
    rcases f a s₁ with ⟨_ | _, _⟩
    · exact fun he => callSpec_error he _
    · exact fun ⟨hf₂, hm₂⟩ => ⟨by rw [hf₂]; exact hstep, hm₂⟩

lemma leaves_bind_callSpec {x : ObjM α} {f : α → ObjM β} (hx : LeavesContext t x)
    {s : ObjState} (hm : StaticCacheOk t s.staticCache)
    (hf : ∀ a s₁, s₁.funcs = s.funcs → StaticCacheOk t s₁.staticCache →
      CallSpec ctxName t (odrView s.funcs) ev (f a s₁)) :
    CallSpec ctxName t (odrView s.funcs) ev ((x >>= f) s) := by
  have h := hx s hm
  rw [PyM.bind_apply]
  revert h
  rcases x s with ⟨_ | a, s₁⟩
  · exact fun he => callSpec_error he _
  · exact fun ⟨hf₁, hm₁⟩ => hf a s₁ hf₁ hm₁

end Steps

lemma pyIndex_ne_valueError {α : Type} (l : List α) (i : Int) (m : String) :
    pyIndex l i ≠ .error (.valueError m) := by
  intro h
  simp only [pyIndex] at h
  split at h <;> cases h

lemma fileEntryPath_ne_valueError (removePrefixes : String → String) (dirs : List String)
    (x : FileEntry) (m : String) : fileEntryPath removePrefixes dirs x ≠ .error (.valueError m) := by
  unfold fileEntryPath
  split
  · have := pyIndex_ne_valueError dirs ((x.dirIndex : Int) - 1) m
    revert this
    cases pyIndex dirs ((x.dirIndex : Int) - 1) <;> simp [bind, Except.bind, pure, Except.pure]
  · simp

lemma createFileEntries_leaves (t : SymbolTable) (removePrefixes : String → String)
    (dirs : List String) : ∀ xs, LeavesContext t (createFileEntries removePrefixes dirs xs)
  | [] => LeavesContext.ret _
  | x :: xs => LeavesContext.bind
      (LeavesContext.liftExcept (fileEntryPath_ne_valueError removePrefixes dirs x)) fun _ =>
      LeavesContext.bind (fun s hm => by rw [getOrCreate_apply]; split_ifs <;> exact ⟨rfl, hm⟩)
        fun _ => LeavesContext.bind (createFileEntries_leaves t removePrefixes dirs xs) fun _ =>
          LeavesContext.ret _

/-! ### One pass of the loop is one step of the machine -/

lemma dieGetAtType_leaves (t : SymbolTable) (u : CompUnit) (fuel : Nat) (d : Die) :
    LeavesContext t (onTypes (dieGetAtType u (dieToCtype u fuel) d)) :=
  LeavesContext.onTypes (Inv.dieGetAtType (fun _ _ h => h)
    fun _ _ d' _ => dieToCtype_inv_valueError u fuel d')

lemma processDie_spec (ctxName : String) (u : CompUnit) {t : SymbolTable}
    {c : PyDict String Bool} (hc : buildStaticCache t = .ok c) (fuel : Nat)
    (fileEntries : List String) (d : Die) (s : ObjState) (hm : StaticCacheOk t s.staticCache) :
    CallSpec ctxName t (odrView s.funcs) (loopEvent t d)
      (processDie ctxName u t fuel fileEntries d s) := by
  unfold processDie
  rcases hk : d.declFile with _ | k
  · rw [show loopEvent t d = .skip by simp [loopEvent, hk]]
    exact ⟨rfl, hm⟩
  refine leaves_bind_callSpec (LeavesContext.liftExcept (pyIndex_ne_valueError _ _)) hm
    fun declFile s₁ hf₁ hm₁ => ?_
  rw [← hf₁]
  refine leaves_bind_callSpec (LeavesContext.attr _ _) hm₁ fun declLine s₂ hf₂ hm₂ => ?_
  rw [← hf₂]
  split_ifs with hv hn
  · -- a variable: no subprogram, so no event
    have hsub : d.tag ≠ .subprogram := by rw [hv]; decide
    rw [show loopEvent t d = .skip by simp [loopEvent, dieEvent_of_ne_subprogram hsub]]
    refine LeavesContext.callSpec ?_ ctxName hm₂
    split
    · refine LeavesContext.bind (LeavesContext.getDie _ _) fun d' => ?_
      dsimp only
      split
      · exact LeavesContext.raise_bind fun _ => Err.noConfusion
      · exact LeavesContext.bind (LeavesContext.ret _) fun _ =>
          LeavesContext.bind (dieGetAtType_leaves t u fuel d') fun _ =>
            LeavesContext.bind (LeavesContext.alloc _) fun _ => LeavesContext.fileDef _ _ _ _
    · exact LeavesContext.bind (LeavesContext.isStatic hc _) fun _ =>
        LeavesContext.bind (dieGetAtType_leaves t u fuel d) fun _ =>
          LeavesContext.bind (LeavesContext.alloc _) fun _ => LeavesContext.fileDef _ _ _ _
  · -- no name: skipped
    rw [show loopEvent t d = .skip by simp [loopEvent, hn]]
    exact ⟨rfl, hm₂⟩
  · -- handed to `die_to_ctype_or_func`
    rw [show loopEvent t d = dieEvent t d by
      simp [loopEvent, hk, Option.ne_none_iff_isSome.1 hn]]
    exact callSpec_bind_leaves (dieToCtypeOrFunc_spec ctxName u fuel d hc s₂ hm₂) fun _ =>
      LeavesContext.fileDef _ _ _ _

/-! ### A run of `process_file` is a run of the machine -/

lemma runSpec_cons_of_error {ctxName : String} {t : SymbolTable} {v : OdrView} {ev : CtxEvent}
    (es : List CtxEvent) {e : Err} {s' : ObjState}
    (h : CallSpec (α := Unit) ctxName t v ev (.error e, s')) :
    RunSpec ctxName v (ev :: es) (.error e, s') := by
  cases e with
  | valueError m => exact ⟨by simp [odrRun, h.1], h.2⟩
  | _ => trivial

lemma leaves_bind_runSpec {ctxName : String} {t : SymbolTable} {es : List CtxEvent} {α : Type}
    {x : ObjM α} {f : α → ObjM Unit} (hx : LeavesContext t x) {s : ObjState}
    (hm : StaticCacheOk t s.staticCache)
    (hf : ∀ a s₁, s₁.funcs = s.funcs → StaticCacheOk t s₁.staticCache →
      RunSpec ctxName (odrView s.funcs) es (f a s₁)) :
    RunSpec ctxName (odrView s.funcs) es ((x >>= f) s) := by
  have h := hx s hm
  rw [PyM.bind_apply]
  revert h
  rcases x s with ⟨e | a, s₁⟩
  · intro he
    cases e with
    | valueError m => exact absurd rfl (he m)
    | _ => trivial
  · exact fun ⟨hf₁, hm₁⟩ => hf a s₁ hf₁ hm₁

lemma processDies_spec (ctxName : String) (u : CompUnit) {t : SymbolTable}
    {c : PyDict String Bool} (hc : buildStaticCache t = .ok c) (fuel : Nat)
    (fileEntries : List String) : ∀ (ds : List Die) (s : ObjState),
      StaticCacheOk t s.staticCache → RunSpec ctxName (odrView s.funcs) (ds.map (loopEvent t))
        (processDies ctxName u t fuel fileEntries ds s)
  | [], s, _ => by simp [processDies, RunSpec, odrRun]
  | d :: ds, s, hm => by
    have hcall := processDie_spec ctxName u hc fuel fileEntries d s hm
    simp only [processDies, PyM.bind_apply, List.map_cons]
    revert hcall
    rcases processDie ctxName u t fuel fileEntries d s with ⟨e | _, s₁⟩
    · exact runSpec_cons_of_error _
    · rintro ⟨hstep, hm₁⟩
      have h₁ : odrRun [loopEvent t d] (odrView s.funcs) = some (odrView s₁.funcs) := by
        simp [odrRun, hstep]
      exact runSpec_append h₁ (processDies_spec ctxName u hc fuel fileEntries ds s₁ hm₁)

lemma processFile_spec (ctxName : String) (removePrefixes : String → String) (fuel : Nat)
    (obj : ObjFile) {c : PyDict String Bool} (hc : buildStaticCache obj.symtab = .ok c)
    (s : ObjState) :
    RunSpec ctxName (odrView s.funcs) (fileEvents obj)
      (processFile ctxName removePrefixes fuel obj s) := by
  unfold fileEvents
  rcases hu : obj.firstUnit with _ | u
  · simp [processFile, hu, RunSpec, odrRun]
  simp only [processFile, hu]
  rw [PyM.bind_of_ok (PyM.modify_apply _ s)]
  exact leaves_bind_runSpec (createFileEntries_leaves obj.symtab removePrefixes _ _)
    (fun _ h => Option.noConfusion h) fun paths s₁ hf₁ hm₁ => by
      rw [← hf₁]
      exact processDies_spec ctxName u hc fuel paths _ s₁ hm₁

lemma processFiles_spec (ctxName : String) (removePrefixes : String → String) (fuel : Nat) :
    ∀ (objs : List ObjFile), (∀ obj ∈ objs, ∃ c, buildStaticCache obj.symtab = .ok c) →
      ∀ s, RunSpec ctxName (odrView s.funcs) (objs.flatMap fileEvents)
        (processFiles ctxName removePrefixes fuel objs s)
  | [], _, s => by simp [processFiles, RunSpec, odrRun]
  | obj :: objs, hsym, s => by
    obtain ⟨c, hc⟩ := hsym obj (List.mem_cons_self _ _)
    have hobj := processFile_spec ctxName removePrefixes fuel obj hc s
    simp only [processFiles, PyM.bind_apply, List.flatMap_cons]
    revert hobj
    rcases processFile ctxName removePrefixes fuel obj s with ⟨e | _, s₁⟩
    · exact fun h => runSpec_of_prefix _ h (by simp)
    · exact fun h => runSpec_append h (processFiles_spec ctxName removePrefixes fuel objs
        (fun o ho => hsym o (List.mem_cons_of_mem _ ho)) s₁)

/-! ### The ODR check of `main`, library by library -/

lemma OdrOutcome.of_runSpec {ctxName : String} {es : List CtxEvent}
    {r : Except Err Unit × ObjState} (h : RunSpec ctxName (fun _ => none) es r)
    (hok : ∀ e, r.1 = .error e → ∃ m, e = .valueError m) : OdrOutcome ctxName es r := by
  rcases r with ⟨e | _, s'⟩
  · obtain ⟨m, rfl⟩ := hok e rfl
    obtain ⟨hnone, n, rfl⟩ := h
    exact ⟨⟨fun _ => (odrRun_eq_none_iff_violation _).mp hnone, fun _ => ⟨n, rfl⟩⟩,
      fun h => by cases h⟩
  · have hrun : odrRun es (fun _ => none) = some (odrView s'.funcs) := h
    refine ⟨⟨fun ⟨_, h⟩ => (by cases h), fun hv => ?_⟩, fun _ n => ?_⟩
    · have := (odrRun_eq_none_iff_violation _).mpr hv
      rw [hrun] at this
      cases this
    · rw [odrRun_flag hrun n]
      simp

/-- `main`'s collection of one library: its objects, each with a symbol table that decodes,
processed by `process_file` into a fresh context and raising nothing but `ValueError`s, end
as the machine of `die_to_ctype_or_func` says on the events of the DIEs the loop hands to
it: the ODR error exactly on an ODR violation of those events, and after a run that
returns, a name's record is defined exactly when the name's first event is a
definition. -/
theorem processFiles_odr (ctxName : String) (removePrefixes : String → String) (fuel : Nat)
    (objs : List ObjFile) (s : ObjState) (hfresh : s.funcs = [])
    (hsym : ∀ obj ∈ objs, ∃ c, buildStaticCache obj.symtab = .ok c)
    (hok : ∀ e, (processFiles ctxName removePrefixes fuel objs s).1 = .error e →
      ∃ m, e = .valueError m) :
    OdrOutcome ctxName (objs.flatMap fileEvents) (processFiles ctxName removePrefixes fuel objs s) := by
  have h := processFiles_spec ctxName removePrefixes fuel objs hsym s
  rw [hfresh, odrView_nil] at h
  exact OdrOutcome.of_runSpec h hok

theorem processFiles_odr_twice :
    ObjState.empty.funcs = [] ∧ (∀ obj ∈ [objA, objA], ∃ c, buildStaticCache obj.symtab = .ok c) ∧
      (∀ e, (processFiles "lib" id 20 [objA, objA] .empty).1 = .error e →
        ∃ m, e = .valueError m) ∧
      OdrOutcome "lib" ([objA, objA].flatMap fileEvents)
        (processFiles "lib" id 20 [objA, objA] .empty) ∧
      (processFiles "lib" id 20 [objA, objA] .empty).1 =
        .error (.valueError "ODR violation: function m is defined twice in context lib") :=
  have hsym : ∀ obj ∈ [objA, objA], ∃ c, buildStaticCache obj.symtab = .ok c := fun obj hobj => by
    rw [List.mem_pair, or_self] at hobj
    exact hobj ▸ ⟨_, rfl⟩
  have hrun : (processFiles "lib" id 20 [objA, objA] .empty).1 =
      .error (.valueError "ODR violation: function m is defined twice in context lib") := by decide
  have hok : ∀ e, (processFiles "lib" id 20 [objA, objA] .empty).1 = .error e →
      ∃ m, e = .valueError m := fun e he => ⟨_, (Except.error.inj (hrun.symm.trans he)).symm⟩
  ⟨rfl, hsym, hok, processFiles_odr "lib" id 20 [objA, objA] .empty rfl hsym hok, hrun⟩

lemma processLibraries_spec (ctxPrefix : String) (removePrefixes : String → String)
    (fuel : Nat) : ∀ (libs : List (String × List ObjFile)),
      (∀ lib ∈ libs, ∀ obj ∈ lib.2, ∃ c, buildStaticCache obj.symtab = .ok c) → ∀ s,
      match processLibraries ctxPrefix removePrefixes fuel libs s with
      | (.ok _, _) => ∀ lib ∈ libs, ¬ OdrViolation (lib.2.flatMap fileEvents)
      | (.error (.valueError m), _) => ∃ lib ∈ libs, OdrViolation (lib.2.flatMap fileEvents) ∧
          ∃ n, m = odrMessage n (ctxPrefix ++ lib.1)
      | (.error _, _) => True
  | [], _, _ => fun _ h => by cases h
  | (name, objs) :: libs, hsym, s => by
    have hlib := processFiles_spec (ctxPrefix ++ name) removePrefixes fuel objs
      (hsym _ (List.mem_cons_self _ _)) { s with funcs := [] }
    dsimp only at hlib
    rw [odrView_nil] at hlib
    simp only [processLibraries]
    rw [PyM.bind_of_ok (PyM.modify_apply _ s), PyM.bind_apply]
    revert hlib
    rcases processFiles (ctxPrefix ++ name) removePrefixes fuel objs { s with funcs := [] } with
      ⟨e | _, s₁⟩
    · -- this library raises
      intro hlib
      rcases e with _ | _ | m | _ | _ | _ | _ | _ <;> try trivial
      obtain ⟨hnone, n, rfl⟩ := hlib
      exact ⟨(name, objs), List.mem_cons_self _ _, (odrRun_eq_none_iff_violation _).mp hnone, n, rfl⟩
    · -- this library returns, with no violation: the rest decides
      intro hlib
      have hnv : ¬ OdrViolation (objs.flatMap fileEvents) := fun hv => by
        have := (odrRun_eq_none_iff_violation _).mpr hv
        rw [show odrRun _ _ = some _ from hlib] at this
        cases this
      have ih := processLibraries_spec ctxPrefix removePrefixes fuel libs
        (fun l hl => hsym l (List.mem_cons_of_mem _ hl)) s₁
      dsimp only
      revert ih
      rcases processLibraries ctxPrefix removePrefixes fuel libs s₁ with ⟨e | _, _⟩
      · rcases e with _ | _ | m | _ | _ | _ | _ | _ <;> try exact fun _ => trivial
        rintro ⟨lib, hl, hv, n, rfl⟩
        exact ⟨lib, List.mem_cons_of_mem _ hl, hv, n, rfl⟩
      · intro ih lib hl
        rcases List.mem_cons.1 hl with rfl | hl
        · exact hnv
        · exact ih lib hl

/-- `main`'s collection over libraries, each into a context of its own: when every symbol
table decodes and the collection raises nothing but `ValueError`s, it raises the ODR error
of a library's context exactly when some library's own events hold an ODR violation. A name
defined once in each of two libraries never raises. -/
theorem processLibraries_odr (ctxPrefix : String) (removePrefixes : String → String)
    (fuel : Nat) (libs : List (String × List ObjFile)) (s : ObjState)
    (hsym : ∀ lib ∈ libs, ∀ obj ∈ lib.2, ∃ c, buildStaticCache obj.symtab = .ok c)
    (hok : ∀ e, (processLibraries ctxPrefix removePrefixes fuel libs s).1 = .error e →
      ∃ m, e = .valueError m) :
    (∃ n, ∃ lib ∈ libs, (processLibraries ctxPrefix removePrefixes fuel libs s).1 =
        .error (.valueError (odrMessage n (ctxPrefix ++ lib.1)))) ↔
      ∃ lib ∈ libs, OdrViolation (lib.2.flatMap fileEvents) := by
  have h := processLibraries_spec ctxPrefix removePrefixes fuel libs hsym s
  revert h hok
  rcases processLibraries ctxPrefix removePrefixes fuel libs s with ⟨e | _, _⟩ <;> intro hok h
  · obtain ⟨m, rfl⟩ := hok e rfl
    obtain ⟨lib, hl, hv, n, rfl⟩ := h
    exact ⟨fun _ => ⟨lib, hl, hv⟩, fun _ => ⟨n, lib, hl, rfl⟩⟩
  · exact ⟨fun ⟨_, _, _, he⟩ => (by cases he), fun ⟨lib, hl, hv⟩ => absurd hv (h lib hl)⟩

theorem processLibraries_odr_two_libraries :
    (∀ lib ∈ [("a", [objA]), ("b", [objA])], ∀ obj ∈ lib.2,
        ∃ c, buildStaticCache obj.symtab = .ok c) ∧
      (∀ e, (processLibraries "vendor_" id 20 [("a", [objA]), ("b", [objA])] .empty).1 =
        .error e → ∃ m, e = .valueError m) ∧
      ((∃ n, ∃ lib ∈ [("a", [objA]), ("b", [objA])],
          (processLibraries "vendor_" id 20 [("a", [objA]), ("b", [objA])] .empty).1 =
            .error (.valueError (odrMessage n ("vendor_" ++ lib.1)))) ↔
        ∃ lib ∈ [("a", [objA]), ("b", [objA])], OdrViolation (lib.2.flatMap fileEvents)) ∧
      (processLibraries "vendor_" id 20 [("a", [objA]), ("b", [objA])] .empty).1 = .ok () :=
  have hsym : ∀ lib ∈ [("a", [objA]), ("b", [objA])], ∀ obj ∈ lib.2,
      ∃ c, buildStaticCache obj.symtab = .ok c := fun lib hlib obj hobj => by
    rw [List.mem_pair] at hlib
    rcases hlib with rfl | rfl <;>
      · rw [List.mem_singleton] at hobj
        exact hobj ▸ ⟨_, rfl⟩
  have hrun : (processLibraries "vendor_" id 20 [("a", [objA]), ("b", [objA])] .empty).1 =
      .ok () := by decide
  have hok : ∀ e, (processLibraries "vendor_" id 20 [("a", [objA]), ("b", [objA])] .empty).1 =
      .error e → ∃ m, e = .valueError m := fun e he => by rw [hrun] at he; cases he
  ⟨hsym, hok, processLibraries_odr "vendor_" id 20 _ .empty hsym hok, hrun⟩

/-! ### Promotion in place -/

lemma newCFunction_eq_ok {u : CompUnit} {fuel : Nat} {d : Die} {static : Bool} {s s₂ : ObjState}
    {b : Nat} {rt : CRef} {args : List (CRef × Option String)}
    (h : newCFunction u fuel d static s = (.ok (b, rt, args), s₂)) :
    ∃ σ, dieToFunclikeArgs u (dieToCtype u fuel) d s.types = (.ok (rt, args), σ) ∧
      b = σ.heap.length ∧ s₂ = { s with types :=
        { σ with heap := σ.heap ++ [.function d.offset (dieGetName d) rt args static] } } := by
  simp only [newCFunction, onTypes_apply, PyM.bind_apply] at h
  revert h
  rcases dieToFunclikeArgs u (dieToCtype u fuel) d s.types with ⟨_ | ⟨rt', args'⟩, σ⟩
  · rintro ⟨⟩
  · simp only [alloc_apply, PyM.pure_apply, Prod.mk.injEq, Except.ok.injEq]
    rintro ⟨⟨rfl, rfl, rfl⟩, rfl⟩
    exact ⟨σ, rfl, rfl, rfl⟩

/-- A definition of a name whose record is only declared promotes the record's `CFunction`
in place: `def_func` writes the return type and parameters `die_to_funclike_args` gives for
the definition, names included, into the cell every holder of the record refers to, and
leaves the record as it is, not marked defined. The definition's own `CFunction`, a new cell
with that signature, is what the call returns. -/
theorem dieToCtypeOrFunc_promotes (ctxName : String) (u : CompUnit) (t : SymbolTable)
    (fuel : Nat) (d : Die) (c : PyDict String Bool) (hc : buildStaticCache t = .ok c)
    (hd : d.tag = .subprogram) (hdef : staticLookup c (dieGetName d) = (true, false))
    (s : ObjState) (hm : StaticCacheOk t s.staticCache) (a : Nat)
    (ha : s.funcs.get (dieGetName d) = some (a, false)) (hcell : a < s.types.heap.length)
    (r : CRef) (s' : ObjState) (h : dieToCtypeOrFunc ctxName u t fuel d s = (.ok r, s')) :
    ∃ rt args σ, dieToFunclikeArgs u (dieToCtype u fuel) d s.types = (.ok (rt, args), σ) ∧
      r = .obj σ.heap.length ∧
      s'.types.heap[σ.heap.length]? = some (.function d.offset (dieGetName d) rt args false) ∧
      s'.types.heap[a]? = (s.types.heap[a]?).map (CObj.setSignature rt args) ∧
      s'.funcs = s.funcs := by
  rw [dieToCtypeOrFunc, if_neg (not_not.2 hd), PyM.bind_of_ok (onSymtab_isStatic hc hm _),
    hdef] at h
  simp only [Bool.false_eq_true, if_false, if_true] at h
  obtain ⟨⟨b, rt, args⟩, s₂, h₂, h⟩ := PyM.bind_ok h
  obtain ⟨σ, hargs, rfl, rfl⟩ := newCFunction_eq_ok h₂
  obtain ⟨_, s₃, h₃, h⟩ := PyM.bind_ok h
  cases h
  have hframe := dieToFunclikeArgs_frame u fuel d s.types
  rw [hargs] at hframe
  have hab : a ≠ σ.heap.length := Nat.ne_of_lt (Nat.lt_of_lt_of_le hcell hframe.1)
  simp only [defFunc, PyM.bind_apply, PyM.get_apply, ha, Bool.false_eq_true, if_false,
    onTypes_apply, updateObj_apply, Prod.mk.injEq] at h₃
  obtain ⟨-, rfl⟩ := h₃
  refine ⟨rt, args, σ, hargs, rfl, ?_, ?_, rfl⟩
  · simp [List.getElem?_modify_ne _ _ hab]
  · rw [List.getElem?_modify_eq, List.getElem?_append_left (Nat.lt_of_lt_of_le hcell hframe.1),
      hframe.2 a hcell]
    rfl

/-- `extern void f(int y);`: a unit whose subprogram `f` has the parameter `y`. -/
def declaringF : CompUnit :=
  ⟨[{ offset := 1, tag := .subprogram, name := some "f", children := [2] },
    { offset := 2, tag := .formalParameter, name := some "y", type := some 3 },
    { offset := 3, tag := .baseType, name := some "int" }], [1], ⟨4, [], []⟩⟩

/-- `void f(int x) { ... }`: the same subprogram with the parameter `x`. -/
def definingF : CompUnit :=
  ⟨[{ offset := 1, tag := .subprogram, name := some "f", children := [2] },
    { offset := 2, tag := .formalParameter, name := some "x", type := some 3 },
    { offset := 3, tag := .baseType, name := some "int" }], [1], ⟨4, [], []⟩⟩

/-- The subprogram DIE `f` of both units. -/
def fDie : Die := { offset := 1, tag := .subprogram, name := some "f", children := [2] }

/-- The context after an object declaring `f` (it has no symbol `f`), as the next object
starts in it: with its own type cache and no `_static_cache`. -/
def afterDeclaringF : ObjState :=
  let s := (contextCalls "lib" 10 [(declaringF, noSymtab, [fDie])] .empty).2
  { s with types := { s.types with cache := fun _ => none }, staticCache := none }

/-- Scenario C: after the declaration, the definition of `f` writes its parameter `x` into
the `CFunction` of `f`'s record, cell 1. -/
theorem dieToCtypeOrFunc_promotes_scenarioC :
    buildStaticCache fSymtab = .ok [("f", false)] ∧ fDie.tag = .subprogram ∧
      staticLookup [("f", false)] (dieGetName fDie) = (true, false) ∧
      StaticCacheOk fSymtab afterDeclaringF.staticCache ∧
      afterDeclaringF.funcs.get (dieGetName fDie) = some (1, false) ∧
      1 < afterDeclaringF.types.heap.length ∧
      dieToCtypeOrFunc "lib" definingF fSymtab 10 fDie afterDeclaringF =
        (.ok (.obj 3), (dieToCtypeOrFunc "lib" definingF fSymtab 10 fDie afterDeclaringF).2) ∧
      (∃ rt args σ, dieToFunclikeArgs definingF (dieToCtype definingF 10) fDie
          afterDeclaringF.types = (.ok (rt, args), σ) ∧ CRef.obj 3 = .obj σ.heap.length ∧
        (dieToCtypeOrFunc "lib" definingF fSymtab 10 fDie afterDeclaringF).2.types.heap[σ.heap.length]? =
          some (.function fDie.offset (dieGetName fDie) rt args false) ∧
        (dieToCtypeOrFunc "lib" definingF fSymtab 10 fDie afterDeclaringF).2.types.heap[1]? =
          (afterDeclaringF.types.heap[1]?).map (CObj.setSignature rt args) ∧
        (dieToCtypeOrFunc "lib" definingF fSymtab 10 fDie afterDeclaringF).2.funcs =
          afterDeclaringF.funcs) ∧
      (dieToCtypeOrFunc "lib" definingF fSymtab 10 fDie afterDeclaringF).2.types.heap[1]? =
        some (.function 1 (some "f") .void [(.obj 2, some "x")] false) :=
  have hc : buildStaticCache fSymtab = .ok [("f", false)] := rfl
  have hm : StaticCacheOk fSymtab afterDeclaringF.staticCache := fun _ h => Option.noConfusion h
  have ha : afterDeclaringF.funcs.get (dieGetName fDie) = some (1, false) := by decide
  have hcell : 1 < afterDeclaringF.types.heap.length := by decide
  have hrun : dieToCtypeOrFunc "lib" definingF fSymtab 10 fDie afterDeclaringF =
      (.ok (.obj 3), (dieToCtypeOrFunc "lib" definingF fSymtab 10 fDie afterDeclaringF).2) :=
    Prod.ext (by decide) rfl
  ⟨hc, rfl, rfl, hm, ha, hcell, hrun,
    dieToCtypeOrFunc_promotes "lib" definingF fSymtab 10 fDie _ hc rfl rfl afterDeclaringF hm 1 ha
      hcell _ _ hrun, by decide⟩

end ObjectDiff
