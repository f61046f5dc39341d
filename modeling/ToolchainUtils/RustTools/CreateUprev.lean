import ToolchainUtils.RustTools.RustUprev

/-!
`rust_tools/rust_uprev.py`: `prepare_uprev`, `create_rust_uprev`, `remove_rust_uprev`,
`remove_rust_bootstrap_version` and `main`, as the calls of `run_step` they make and the code
between them. What a step's function does is the world's, as in `RustUprev`; so are the
ebuilds `find_ebuild_for_package`, `find_ebuild_for_rust_version` and
`get_rust_bootstrap_version` find. A run that raises stops at once: no code of the script
catches an exception.
-/

set_option autoImplicit false

namespace ToolchainUtils.RustTools

section Prepare

/-- `self <= other` of the `NamedTuple` `RustVersion`: the tuples compared item by item. -/
def RustVersion.le (v w : RustVersion) : Bool :=
  v.major < w.major || v.major == w.major &&
    (v.minor < w.minor || v.minor == w.minor && v.patch ≤ w.patch)

/-- `os.path.basename(path)`: what follows the last `/`. -/
def basename (path : String) : String := (path.splitOn "/").getLastD ""

/-- The `if template is None` of `prepare_uprev`: the template's ebuild and version, from
`find_ebuild_for_package("rust")` (`ebuildForPackage`) and the ebuild's name, or from
`find_ebuild_for_rust_version(template)`. -/
def findTemplate (template : Option RustVersion) (ebuildForPackage : Except String String)
    (ebuildForRustVersion : RustVersion → Except String String) :
    Except String (String × RustVersion) :=
  match template with
  | none => do
    let ebuildPath ← ebuildForPackage
    let templateVersion ← RustVersion.parseFromEbuild (basename ebuildPath)
    return (ebuildPath, templateVersion)
  | some template => do
    let ebuildPath ← ebuildForRustVersion template
    return (ebuildPath, template)

/-- `prepare_uprev(rust_version, template)`: `None` when the requested version is not newer
than the template's, else the template's version, its ebuild and the version of
`rust-bootstrap` (`get_rust_bootstrap_version()`). -/
def prepareUprev (rustVersion : RustVersion) (template : Option RustVersion)
    (ebuildForPackage : Except String String)
    (ebuildForRustVersion : RustVersion → Except String String)
    (bootstrapVersion : Except String RustVersion) : Except String PyVal := do
  let (ebuildPath, templateVersion) ← findTemplate template ebuildForPackage ebuildForRustVersion
  let bootstrapVersion ← bootstrapVersion
  if rustVersion.le templateVersion then return .none
  return .tuple [templateVersion.toPy, .str ebuildPath, bootstrapVersion.toPy]

end Prepare

section Scripts

/-- `x`, then `k` on what it returned, in the state it left; what `x` raises propagates. -/
def andThen {α β : Type} (x : Except String α × StepState)
    (k : α → StepState → Except String β × StepState) : Except String β × StepState :=
  match x with
  | (.ok a, s) => k a s
  | (.error e, s) => (.error e, s)

/-- `a, b, c = obj`: `ValueError` when `obj` has another number of items, `TypeError` when it
is not iterable. -/
def unpackTriple (obj : PyVal) : Except String (PyVal × PyVal × PyVal) :=
  match obj.items with
  | some [a, b, c] => .ok (a, b, c)
  | some _ => .error "ValueError"
  | none => .error "TypeError"

/-- The steps `create_rust_uprev` runs after `prepare uprev`; `build packages` only without
`--skip_compile`. -/
def createSteps (skipCompile : Bool) : List Step :=
  [plainStep "fetch bootstrap distfiles", plainStep "fetch rust distfiles",
    plainStep "update bootstrap ebuild", plainStep "update bootstrap manifest",
    plainStep "update bootstrap version", plainStep "copy patches",
    plainStep "create host ebuild", plainStep "update host manifest to add new version",
    plainStep "create target ebuild", plainStep "update target manifest to add new version"] ++
  (if skipCompile then [] else [plainStep "build packages"]) ++
  [plainStep "insert host version into rust packages",
    plainStep "insert target version into rust packages", plainStep "upgrade virtual/rust"]

/-- `create_rust_uprev(rust_version, template, skip_compile, run_step)`, after the steps that
returned `results`. -/
def createRustUprev (skipCompile : Bool) (fn : String → List PyVal → Except String PyVal)
    (results : List PyVal) (s : StepState) : Except String (List PyVal) × StepState :=
  andThen (performStep s prepareUprevStep (fn prepareUprevStep.name results)) fun prepared s =>
    match unpackTriple prepared with
    | .error e => (.error e, s)
    | .ok (_, .none, _) => (.ok (results ++ [prepared]), s)
    | .ok _ => runSteps fn (createSteps skipCompile) (results ++ [prepared]) s

/-- `remove_rust_uprev(rust_version, run_step)`, `ebuildForPackage name` being what
`find_ebuild_for_package(name)` returns or raises. -/
def removeRustUprev (fn : String → List PyVal → Except String PyVal)
    (ebuildForPackage : String → Except String String) (results : List PyVal)
    (s : StepState) : Except String (List PyVal) × StepState :=
  andThen (runSteps fn [findRustVersionStep, plainStep "remove patches",
      plainStep "remove target ebuild", plainStep "remove host ebuild"] results s)
    fun results s =>
  andThen (ebuildForPackage "rust", s) fun _ s =>
  andThen (runSteps fn [plainStep "update target manifest to delete old version",
      plainStep "remove target version from rust packages"] results s) fun results s =>
  andThen (ebuildForPackage "rust-host", s) fun _ s =>
  runSteps fn [plainStep "update host manifest to delete old version",
    plainStep "remove host version from rust packages", plainStep "remove virtual/rust"] results s

/-- `remove_rust_bootstrap_version(version, run_step)`. -/
def removeRustBootstrapVersion (fn : String → List PyVal → Except String PyVal)
    (ebuildForPackage : String → Except String String) (results : List PyVal)
    (s : StepState) : Except String (List PyVal) × StepState :=
  andThen (runSteps fn [plainStep "remove old bootstrap ebuild"] results s) fun results s =>
  andThen (ebuildForPackage "rust-bootstrap", s) fun _ s =>
  runSteps fn [plainStep "update bootstrap manifest to delete old version"] results s

/-- `prepare_uprev_from_json(completed_steps["prepare uprev"])[2]`, the bootstrap version
`roll` removes. -/
def bootstrapVersionToRemove (completedSteps : List (String × PyVal)) : Except String PyVal :=
  match completedSteps.lookup prepareUprevStep.name with
  | none => .error "KeyError"
  | some saved =>
    match prepareUprevFromJson saved with
    | .ok (.tuple [_, _, bootstrapVersion]) => .ok bootstrapVersion
    | .ok _ => .error "TypeError"
    | .error e => .error e

/-- The steps `roll` runs before `create_rust_uprev`; `build cross compiler` only without
`--skip_cross_compiler`. -/
def rollSteps (skipCrossCompiler : Bool) : List Step :=
  plainStep "create new repo" :: if skipCrossCompiler then [] else [plainStep "build cross compiler"]

/-- `main`'s `roll`. -/
def rollRustUprev (skipCrossCompiler skipCompile noUpload : Bool)
    (fn : String → List PyVal → Except String PyVal)
    (ebuildForPackage : String → Except String String) (s : StepState) :
    Except String (List PyVal) × StepState :=
  andThen (runSteps fn (rollSteps skipCrossCompiler) [] s) fun results s =>
  andThen (createRustUprev skipCompile fn results s) fun results s =>
  andThen (removeRustUprev fn ebuildForPackage results s) fun results s =>
  andThen (bootstrapVersionToRemove s.completedSteps, s) fun _ s =>
  andThen (removeRustBootstrapVersion fn ebuildForPackage results s) fun results s =>
  if noUpload then (.ok results, s)
  else runSteps fn [plainStep "create rust uprev CL"] results s

/-- The subcommands of `rust_uprev.py` and the flags each reads. -/
inductive Subcommand
  | create (skipCompile : Bool)
  | remove
  | removeBootstrap
  | roll (skipCrossCompiler skipCompile noUpload : Bool)

/-- `main()` from the state file: `completed_steps` loaded from it, then the subcommand. -/
def rustUprevMain (cmd : Subcommand) (fn : String → List PyVal → Except String PyVal)
    (ebuildForPackage : String → Except String String)
    (stateFile : Option (List (String × Json))) : Except String (List PyVal) × StepState :=
  let s := StepState.load stateFile
  match cmd with
  | .create skipCompile => createRustUprev skipCompile fn [] s
  | .remove => removeRustUprev fn ebuildForPackage [] s
  | .removeBootstrap => removeRustBootstrapVersion fn ebuildForPackage [] s
  | .roll skipCrossCompiler skipCompile noUpload =>
    rollRustUprev skipCrossCompiler skipCompile noUpload fn ebuildForPackage s

end Scripts

section Calls

/-!
### What a run does to `completed_steps`

Every piece of the script is a sequence of `perform_step` calls with code between them, and
ends at the first exception. So a run returns after calls that all returned, or raises after
such calls and at most one more, the one that raised. From that alone: a run calls the
function of a step only when the step is not in `completed_steps`, never twice, and adds the
result of each call that returned.
-/

/-- `t` is reached from `s` by calls of `perform_step` that each returned. -/
inductive Performs : StepState → StepState → Prop
  | refl (s : StepState) : Performs s s
  | tail {s t u : StepState} (step : Step) (stepFn : Except String PyVal) (v : PyVal) :
      Performs s t → performStep t step stepFn = (.ok v, u) → Performs s u

/-- How a piece of the script started in `s` can end: when it returns, after calls of
`perform_step` that all returned; when it raises, after such calls and possibly one that
raised. -/
def Completes {α : Type} (s : StepState) : Except String α × StepState → Prop
  | (.ok _, t) => Performs s t
  | (.error _, t) => Performs s t ∨
      ∃ u step stepFn e, Performs s u ∧ performStep u step stepFn = (.error e, t)

theorem Performs.trans {s t u : StepState} (h₁ : Performs s t) (h₂ : Performs t u) :
    Performs s u := by
  induction h₂ with
  | refl => exact h₁
  | tail step stepFn v _ h ih => exact .tail step stepFn v ih h

theorem Completes.of_performs {α : Type} {s t : StepState} {x : Except String α × StepState}
    (h₁ : Performs s t) (h₂ : Completes t x) : Completes s x := by
  obtain ⟨_ | _, u⟩ := x
  · rcases h₂ with h₂ | ⟨w, step, stepFn, e, hw, h⟩
    exacts [.inl (h₁.trans h₂), .inr ⟨w, step, stepFn, e, h₁.trans hw, h⟩]
  · exact h₁.trans h₂

theorem completes_pure {α : Type} (s : StepState) (x : Except String α) : Completes s (x, s) := by
  cases x
  exacts [.inl (.refl s), .refl s]

theorem completes_andThen {α β : Type} {s : StepState} {x : Except String α × StepState}
    {k : α → StepState → Except String β × StepState} (hx : Completes s x)
    (hk : ∀ a t, x = (.ok a, t) → Completes t (k a t)) : Completes s (andThen x k) := by
  obtain ⟨_ | a, t⟩ := x
  · exact hx
  · exact Completes.of_performs hx (hk a t rfl)

theorem completes_performStep (s : StepState) (step : Step) (stepFn : Except String PyVal) :
    Completes s (performStep s step stepFn) := by
  rcases h : performStep s step stepFn with ⟨_ | v, t⟩
  · exact .inr ⟨s, step, stepFn, _, .refl s, h⟩
  · exact .tail step stepFn v (.refl s) h

theorem runSteps_cons (fn : String → List PyVal → Except String PyVal) (step : Step)
    (steps : List Step) (results : List PyVal) (s : StepState) :
    runSteps fn (step :: steps) results s =
      andThen (performStep s step (fn step.name results)) fun v t =>
        runSteps fn steps (results ++ [v]) t := by
  simp only [runSteps, andThen]
  rcases performStep s step (fn step.name results) with ⟨_ | _, _⟩ <;> rfl

theorem completes_runSteps (fn : String → List PyVal → Except String PyVal) (steps : List Step) :
    ∀ (results : List PyVal) (s : StepState), Completes s (runSteps fn steps results s) := by
  induction steps with
  | nil => exact fun results s => completes_pure s (.ok results)
  | cons step steps ih =>
    intro results s
    rw [runSteps_cons]
    exact completes_andThen (completes_performStep _ _ _) fun v t _ => ih _ t

theorem completes_createRustUprev (skipCompile : Bool)
    (fn : String → List PyVal → Except String PyVal) (results : List PyVal) (s : StepState) :
    Completes s (createRustUprev skipCompile fn results s) := by
  refine completes_andThen (completes_performStep _ _ _) fun prepared t _ => ?_
  split
  · exact completes_pure t _
  · exact completes_pure t _
  · exact completes_runSteps fn _ _ t

theorem completes_removeRustUprev (fn : String → List PyVal → Except String PyVal)
    (ebuildForPackage : String → Except String String) (results : List PyVal) (s : StepState) :
    Completes s (removeRustUprev fn ebuildForPackage results s) :=
  completes_andThen (completes_runSteps fn _ _ s) fun _ t _ =>
    completes_andThen (completes_pure t _) fun _ t _ =>
      completes_andThen (completes_runSteps fn _ _ t) fun _ t _ =>
        completes_andThen (completes_pure t _) fun _ t _ => completes_runSteps fn _ _ t

theorem completes_removeRustBootstrapVersion (fn : String → List PyVal → Except String PyVal)
    (ebuildForPackage : String → Except String String) (results : List PyVal) (s : StepState) :
    Completes s (removeRustBootstrapVersion fn ebuildForPackage results s) :=
  completes_andThen (completes_runSteps fn _ _ s) fun _ t _ =>
    completes_andThen (completes_pure t _) fun _ t _ => completes_runSteps fn _ _ t

theorem completes_rollRustUprev (skipCrossCompiler skipCompile noUpload : Bool)
    (fn : String → List PyVal → Except String PyVal)
    (ebuildForPackage : String → Except String String) (s : StepState) :
    Completes s (rollRustUprev skipCrossCompiler skipCompile noUpload fn ebuildForPackage s) := by
  refine completes_andThen (completes_runSteps fn _ _ s) fun _ t _ =>
    completes_andThen (completes_createRustUprev skipCompile fn _ t) fun _ t _ =>
      completes_andThen (completes_removeRustUprev fn ebuildForPackage _ t) fun _ t _ =>
        completes_andThen (completes_pure t _) fun _ t _ =>
          completes_andThen (completes_removeRustBootstrapVersion fn ebuildForPackage _ t)
            fun results t _ => ?_
  split
  · exact completes_pure t _
  · exact completes_runSteps fn _ _ t

theorem completes_rustUprevMain (cmd : Subcommand)
    (fn : String → List PyVal → Except String PyVal)
    (ebuildForPackage : String → Except String String)
    (stateFile : Option (List (String × Json))) :
    Completes (StepState.load stateFile) (rustUprevMain cmd fn ebuildForPackage stateFile) := by
  cases cmd with
  | create skipCompile => exact completes_createRustUprev skipCompile fn [] _
  | remove => exact completes_removeRustUprev fn ebuildForPackage [] _
  | removeBootstrap => exact completes_removeRustBootstrapVersion fn ebuildForPackage [] _
  | roll skipCrossCompiler skipCompile noUpload =>
    exact completes_rollRustUprev skipCrossCompiler skipCompile noUpload fn ebuildForPackage _

/-- The names of the steps in `completed_steps`. -/
def stepNames (completedSteps : List (String × PyVal)) : List String :=
  completedSteps.map Prod.fst

theorem lookup_eq_none_iff_not_mem {name : String} {completedSteps : List (String × PyVal)} :
    completedSteps.lookup name = none ↔ name ∉ stepNames completedSteps := by
  simp only [List.lookup_eq_none_iff, stepNames, List.mem_map, not_exists, not_and, bne_iff_ne,
    ne_eq]
  exact ⟨fun h p hp hk => h p hp hk.symm, fun h p hp hk => h p hp hk.symm⟩

theorem stepNames_append (l₁ l₂ : List (String × PyVal)) :
    stepNames (l₁ ++ l₂) = stepNames l₁ ++ stepNames l₂ := List.map_append _ _ _

theorem stepNames_singleton (name : String) (v : PyVal) : stepNames [(name, v)] = [name] := rfl

theorem performStep_ok {s t : StepState} {step : Step} {stepFn : Except String PyVal}
    {v : PyVal} (h : performStep s step stepFn = (.ok v, t)) :
    t = s ∨ step.name ∉ stepNames s.completedSteps ∧
      t.completedSteps = s.completedSteps ++ [(step.name, step.stored v)] ∧
      t.called = s.called ++ [step.name] := by
  unfold performStep at h
  split at h
  · exact .inl (Prod.ext_iff.1 h).2.symm
  · rename_i hl
    split at h <;> cases h
    exact .inr ⟨lookup_eq_none_iff_not_mem.1 hl, rfl, rfl⟩

theorem performStep_error {s t : StepState} {step : Step} {stepFn : Except String PyVal}
    {e : String} (h : performStep s step stepFn = (.error e, t)) :
    t = s ∨ step.name ∉ stepNames s.completedSteps ∧ t.completedSteps = s.completedSteps ∧
      t.called = s.called ++ [step.name] := by
  unfold performStep at h
  split at h
  · exact .inl (Prod.ext_iff.1 h).2.symm
  · rename_i hl
    split at h <;> cases h
    exact .inr ⟨lookup_eq_none_iff_not_mem.1 hl, rfl, rfl⟩

theorem Performs.grows {s t : StepState} (h : Performs s t) :
    ∃ new : List (String × PyVal), t.completedSteps = s.completedSteps ++ new ∧
      t.called = s.called ++ stepNames new ∧ (stepNames new).Nodup ∧
      ∀ name ∈ stepNames new, name ∉ stepNames s.completedSteps := by
  induction h with
  | refl => exact ⟨[], by simp, by simp [stepNames], List.nodup_nil, nofun⟩
  | tail step stepFn v _ hstep ih =>
    obtain ⟨new, hc, hcall, hnd, hnew⟩ := ih
    rcases performStep_ok hstep with rfl | ⟨hfresh, hc', hcall'⟩
    · exact ⟨new, hc, hcall, hnd, hnew⟩
    · rw [hc, stepNames_append, List.mem_append, not_or] at hfresh
      refine ⟨new ++ [(step.name, step.stored v)], by rw [hc', hc, List.append_assoc],
        by rw [hcall', hcall, stepNames_append, stepNames_singleton, List.append_assoc], ?_, ?_⟩
      · rw [stepNames_append, stepNames_singleton]
        exact List.nodup_append.2 ⟨hnd, List.nodup_singleton _, List.disjoint_singleton.2 hfresh.2⟩
      · rw [stepNames_append, stepNames_singleton]
        intro name hname
        rcases List.mem_append.1 hname with hname | hname
        exacts [hnew name hname, List.mem_singleton.1 hname ▸ hfresh.1]

theorem Completes.calls {α : Type} {s : StepState} {x : Except String α × StepState}
    (h : Completes s x) :
    ∃ (new : List (String × PyVal)) (extra : List String),
      x.2.completedSteps = s.completedSteps ++ new ∧
      x.2.called = s.called ++ stepNames new ++ extra ∧ extra.length ≤ 1 ∧
      (stepNames new ++ extra).Nodup ∧
      ∀ name ∈ stepNames new ++ extra, name ∉ stepNames s.completedSteps := by
  have returned : ∀ {t}, Performs s t → ∃ (new : List (String × PyVal)) (extra : List String),
      t.completedSteps = s.completedSteps ++ new ∧
      t.called = s.called ++ stepNames new ++ extra ∧ extra.length ≤ 1 ∧
      (stepNames new ++ extra).Nodup ∧
      ∀ name ∈ stepNames new ++ extra, name ∉ stepNames s.completedSteps := fun ht => by
    obtain ⟨new, hc, hcall, hnd, hnew⟩ := ht.grows
    exact ⟨new, [], hc, by rw [hcall, List.append_nil], Nat.zero_le _,
      by rwa [List.append_nil], by rwa [List.append_nil]⟩
  obtain ⟨_ | _, t⟩ := x
  · rcases h with h | ⟨u, step, stepFn, e, hu, hstep⟩
    · exact returned h
    rcases performStep_error hstep with rfl | ⟨hfresh, hc', hcall'⟩
    · exact returned hu
    obtain ⟨new, hc, hcall, hnd, hnew⟩ := hu.grows
    rw [hc, stepNames_append, List.mem_append, not_or] at hfresh
    refine ⟨new, [step.name], by rw [hc', hc], by rw [hcall', hcall], le_refl _,
      List.nodup_append.2 ⟨hnd, List.nodup_singleton _, List.disjoint_singleton.2 hfresh.2⟩,
      fun name hname => ?_⟩
    rcases List.mem_append.1 hname with hname | hname
    exacts [hnew name hname, List.mem_singleton.1 hname ▸ hfresh.1]
  · exact returned h

theorem Completes.mirrored {α : Type} {s : StepState} {x : Except String α × StepState}
    (h : Completes s x) (hs : s.Mirrored) : x.2.Mirrored := by
  have hp : ∀ {t}, Performs s t → t.Mirrored := fun ht => by
    induction ht with
    | refl => exact hs
    | tail step stepFn v _ hstep ih => simpa [hstep] using performStep_mirrored step stepFn ih
  obtain ⟨_ | _, t⟩ := x
  · rcases h with h | ⟨u, step, stepFn, e, hu, hstep⟩
    · exact hp h
    · simpa [hstep] using performStep_mirrored step stepFn (hp hu)
  · exact hp h

theorem stepNames_dumpSteps (completedSteps : List (String × PyVal)) :
    (dumpSteps completedSteps).map Prod.fst = stepNames completedSteps := by
  simp [dumpSteps, stepNames]

theorem stepNames_load (stateFile : Option (List (String × Json))) :
    stepNames (StepState.load stateFile).completedSteps = (stateFile.getD []).map Prod.fst := by
  cases stateFile <;> simp [StepState.load, loadCompletedSteps, stepNames]

theorem rustUprevMain_calls_each_step_once (cmd : Subcommand)
    (fn : String → List PyVal → Except String PyVal)
    (ebuildForPackage : String → Except String String)
    (stateFile : Option (List (String × Json))) :
    ∃ (new : List (String × PyVal)) (extra : List String),
      (rustUprevMain cmd fn ebuildForPackage stateFile).2.stateFile.getD [] =
        stateFile.getD [] ++ dumpSteps new ∧
      (rustUprevMain cmd fn ebuildForPackage stateFile).2.called = stepNames new ++ extra ∧
      extra.length ≤ 1 ∧ (stepNames new ++ extra).Nodup ∧
      ∀ name ∈ stepNames new ++ extra, name ∉ (stateFile.getD []).map Prod.fst := by
  have hrun := completes_rustUprevMain cmd fn ebuildForPackage stateFile
  have hload := StepState.load_mirrored stateFile
  obtain ⟨new, extra, hc, hcall, hlen, hnd, hfresh⟩ := hrun.calls
  refine ⟨new, extra, ?_, by simpa [StepState.load] using hcall, hlen, hnd,
    by simpa only [stepNames_load] using hfresh⟩
  rw [hrun.mirrored hload, hc]
  simpa [dumpSteps] using hload.symm

/-- A run of `main`: its subcommand and the world it sees. -/
structure MainRun where
  cmd : Subcommand
  fn : String → List PyVal → Except String PyVal
  ebuildForPackage : String → Except String String

/-- `main` run with each of `runs` in turn, each from the state file the one before left: the
state file at the end. -/
def stateFileAfter (runs : List MainRun) (stateFile : Option (List (String × Json))) :
    Option (List (String × Json)) :=
  runs.foldl (fun f r => (rustUprevMain r.cmd r.fn r.ebuildForPackage f).2.stateFile) stateFile

theorem stepNames_prefix_stateFileAfter (runs : List MainRun) :
    ∀ stateFile : Option (List (String × Json)),
      (stateFile.getD []).map Prod.fst <+: ((stateFileAfter runs stateFile).getD []).map Prod.fst := by
  induction runs with
  | nil => exact fun _ => List.prefix_refl _
  | cons r runs ih =>
    intro stateFile
    obtain ⟨new, -, hfile, -⟩ := rustUprevMain_calls_each_step_once r.cmd r.fn r.ebuildForPackage
      stateFile
    refine List.IsPrefix.trans ?_ (ih _)
    rw [hfile, List.map_append]
    exact List.prefix_append _ _

theorem rustUprev_completed_step_never_rerun (stateFile : Option (List (String × Json)))
    (pre mid : List MainRun) (r r' : MainRun) :
    ∀ name ∈ stepNames (rustUprevMain r.cmd r.fn r.ebuildForPackage
        (stateFileAfter pre stateFile)).2.completedSteps,
      name ∉ (rustUprevMain r'.cmd r'.fn r'.ebuildForPackage
        (stateFileAfter (pre ++ r :: mid) stateFile)).2.called := by
  intro name hname hcalled
  set run := rustUprevMain r.cmd r.fn r.ebuildForPackage (stateFileAfter pre stateFile)
  have hfile : (run.2.stateFile.getD []).map Prod.fst = stepNames run.2.completedSteps := by
    rw [(completes_rustUprevMain r.cmd r.fn r.ebuildForPackage _).mirrored
      (StepState.load_mirrored _), stepNames_dumpSteps]
  have hafter : stateFileAfter (pre ++ r :: mid) stateFile = stateFileAfter mid run.2.stateFile := by
    simp [stateFileAfter, List.foldl_append, run]
  obtain ⟨new, extra, -, hcall, -, -, hfresh⟩ := rustUprevMain_calls_each_step_once r'.cmd r'.fn
    r'.ebuildForPackage (stateFileAfter (pre ++ r :: mid) stateFile)
  rw [hcall] at hcalled
  refine hfresh name hcalled ?_
  rw [hafter]
  exact (stepNames_prefix_stateFileAfter mid _).subset (hfile ▸ hname)

/-- `roll` in a world where every step returns `None`. -/
def rollAnsweringNone : MainRun := ⟨.roll false false false, fun _ _ => .ok .none, fun _ => .ok ""⟩

theorem repo_created_once_across_rolls :
    "create new repo" ∉ (rustUprevMain rollAnsweringNone.cmd rollAnsweringNone.fn
      rollAnsweringNone.ebuildForPackage
      (stateFileAfter ([] ++ rollAnsweringNone :: []) none)).2.called :=
  rustUprev_completed_step_never_rerun none [] [] rollAnsweringNone rollAnsweringNone
    "create new repo" (by decide)

end Calls

section NotNewer

/-!
### A version not newer than the template

`prepare_uprev` returns `None` when the requested version is not newer than the template's,
and `create_rust_uprev` unpacks its result into three names before it looks at
`template_ebuild`: the unpacking raises `TypeError`. `perform_step` has saved the `None`,
and `prepare_uprev_from_json` gives `None` back on every later run.
-/

@[simp] theorem andThen_ok {α β : Type} (a : α) (s : StepState)
    (k : α → StepState → Except String β × StepState) : andThen (.ok a, s) k = k a s := rfl

@[simp] theorem andThen_error {α β : Type} (e : String) (s : StepState)
    (k : α → StepState → Except String β × StepState) :
    andThen (.error e, s) k = (.error e, s) := rfl

theorem prepareUprev_not_newer {rustVersion templateVersion : RustVersion}
    {template : Option RustVersion} {ebuildForPackage : Except String String}
    {ebuildForRustVersion : RustVersion → Except String String}
    {bootstrapVersion : Except String RustVersion} {ebuildPath : String} {b : RustVersion}
    (htemplate : findTemplate template ebuildForPackage ebuildForRustVersion =
      .ok (ebuildPath, templateVersion))
    (hb : bootstrapVersion = .ok b) (hle : rustVersion.le templateVersion = true) :
    prepareUprev rustVersion template ebuildForPackage ebuildForRustVersion bootstrapVersion =
      .ok .none := by
  simp [prepareUprev, htemplate, hb, hle, bind, Except.bind, pure, Except.pure]

theorem createRustUprev_of_prepared_none {skipCompile : Bool}
    {fn : String → List PyVal → Except String PyVal} {results : List PyVal} {s t : StepState}
    (h : performStep s prepareUprevStep (fn prepareUprevStep.name results) = (.ok .none, t)) :
    createRustUprev skipCompile fn results s = (.error "TypeError", t) := by
  simp only [createRustUprev, h, andThen_ok]
  rfl

theorem runSteps_plain_returns (fn : String → List PyVal → Except String PyVal)
    (steps : List Step) (hplain : ∀ st ∈ steps, st.resultFromJson = none)
    (hfn : ∀ st ∈ steps, ∀ results, ∃ v, fn st.name results = .ok v) :
    ∀ (results : List PyVal) (s : StepState), ∃ vs t, runSteps fn steps results s = (.ok vs, t) ∧
      (∀ st ∈ steps, (t.completedSteps.lookup st.name).isSome) ∧
      ∀ name ∉ steps.map Step.name, t.completedSteps.lookup name = s.completedSteps.lookup name := by
  induction steps with
  | nil => exact fun results s => ⟨results, s, rfl, nofun, fun _ _ => rfl⟩
  | cons st steps ih =>
    intro results s
    have hplain' := fun st' h => hplain st' (List.mem_cons_of_mem st h)
    have hfn' := fun st' h => hfn st' (List.mem_cons_of_mem st h)
    -- the first step returns, restored or called
    obtain ⟨v, s', hstep, hs'⟩ : ∃ v s', performStep s st (fn st.name results) = (.ok v, s') ∧
        (s'.completedSteps.lookup st.name).isSome ∧
        ∀ name ≠ st.name, s'.completedSteps.lookup name = s.completedSteps.lookup name := by
      unfold performStep
      split
      · next saved hl =>
        exact ⟨saved, s, by simp [Step.restore, hplain st (List.mem_cons_self _ _)],
          by simp [hl], fun _ _ => rfl⟩
      · obtain ⟨v, hv⟩ := hfn st (List.mem_cons_self _ _) results
        refine ⟨v, _, by rw [hv], by simp [List.lookup_append], fun name hne => ?_⟩
        have hb : [(st.name, st.stored v)].lookup name = none :=
          List.lookup_eq_none_iff.2 (by simpa using hne)
        simp [List.lookup_append, hb]
    obtain ⟨vs, t, hrun, hdone, hkeep⟩ := ih hplain' hfn' (results ++ [v]) s'
    refine ⟨vs, t, by rw [runSteps_cons, hstep, andThen_ok, hrun], fun st' hst' => ?_,
      fun name hname => ?_⟩
    · rcases List.mem_cons.1 hst' with rfl | hst'
      · by_cases hin : st'.name ∈ steps.map Step.name
        · obtain ⟨st'', hst'', he⟩ := List.mem_map.1 hin
          exact he ▸ hdone st'' hst''
        · rw [hkeep _ hin]
          exact hs'.1
      · exact hdone st' hst'
    · simp only [List.map_cons, List.mem_cons, not_or] at hname
      rw [hkeep name hname.2, hs'.2 name hname.1]

theorem runSteps_plain_saved (fn : String → List PyVal → Except String PyVal)
    (steps : List Step) (hplain : ∀ st ∈ steps, st.resultFromJson = none) (s : StepState)
    (hsaved : ∀ st ∈ steps, (s.completedSteps.lookup st.name).isSome) :
    ∀ results : List PyVal, ∃ vs, runSteps fn steps results s = (.ok vs, s) := by
  induction steps with
  | nil => exact fun results => ⟨results, rfl⟩
  | cons st steps ih =>
    intro results
    obtain ⟨saved, hl⟩ := Option.isSome_iff_exists.1 (hsaved st (List.mem_cons_self _ _))
    have hstep : performStep s st (fn st.name results) = (.ok saved, s) := by
      simp [performStep, hl, Step.restore, hplain st (List.mem_cons_self _ _)]
    rw [runSteps_cons, hstep, andThen_ok]
    exact ih (fun st' h => hplain st' (List.mem_cons_of_mem st h))
      (fun st' h => hsaved st' (List.mem_cons_of_mem st h)) _

theorem rollSteps_plain (skipCrossCompiler : Bool) :
    ∀ st ∈ rollSteps skipCrossCompiler, st.resultFromJson = none := by
  cases skipCrossCompiler <;> simp [rollSteps, plainStep]

theorem prepare_not_mem_rollSteps (skipCrossCompiler : Bool) :
    prepareUprevStep.name ∉ (rollSteps skipCrossCompiler).map Step.name := by
  cases skipCrossCompiler <;> simp [rollSteps, plainStep, prepareUprevStep]

/-- Rust 1.58.0 asked for over the template 1.59.0: `prepare uprev` gives `None`, and every
other step `None` too. -/
def notNewerAnswers (name : String) (_ : List PyVal) : Except String PyVal :=
  if name = "prepare uprev" then
    prepareUprev ⟨1, 58, 0⟩ (some ⟨1, 59, 0⟩) (.error "") (fun _ => .ok "rust-1.59.0.ebuild")
      (.ok ⟨1, 57, 0⟩)
  else .ok .none

end NotNewer

end ToolchainUtils.RustTools
