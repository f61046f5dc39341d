import ToolchainUtils.RustTools.RustVersion
import Mathlib.Data.List.Forall2
import Mathlib.Data.List.Nodup

/-!
`rust_tools/rust_uprev.py`: `perform_step`, which runs a step of an uprev once and records
its result in the state file, `main`'s loading of that file, and the `result_from_json`
functions the steps pass, so that a run stopped by a failing step resumes after the steps it
completed. Python values are modelled as far as the steps' results need them (`None`, ints,
strings, lists and tuples), and `json.dump` and `json.load` at the level of JSON values, the
text being the `json` module's.
-/

set_option autoImplicit false

namespace ToolchainUtils.RustTools

section Values

/-- A Python value a step returns, or `json.load` gives back. -/
inductive PyVal where
  | none
  | int (i : Int)
  | str (s : String)
  | list (xs : List PyVal)
  | tuple (xs : List PyVal)
  deriving Repr

inductive Json where
  | null
  | num (i : Int)
  | str (s : String)
  | arr (xs : List Json)
  deriving Repr

mutual
/-- How `json.dump` writes a value: a list and a tuple alike as an array. -/
def PyVal.toJson : PyVal → Json
  | .none => .null
  | .int i => .num i
  | .str s => .str s
  | .list xs => .arr (PyVal.toJsonList xs)
  | .tuple xs => .arr (PyVal.toJsonList xs)

/-- `PyVal.toJson` on each item. -/
def PyVal.toJsonList : List PyVal → List Json
  | [] => []
  | x :: xs => x.toJson :: PyVal.toJsonList xs
end

mutual
/-- How `json.load` reads a value: an array as a list. -/
def Json.toPy : Json → PyVal
  | .null => .none
  | .num i => .int i
  | .str s => .str s
  | .arr xs => .list (Json.toPyList xs)

/-- `Json.toPy` on each item. -/
def Json.toPyList : List Json → List PyVal
  | [] => []
  | x :: xs => x.toPy :: Json.toPyList xs
end

/-- A `RustVersion`, the tuple of its three ints. -/
def RustVersion.toPy (v : RustVersion) : PyVal := .tuple [.int v.major, .int v.minor, .int v.patch]

/-- Python's truth value of `obj`, as `if not obj` reads it. -/
def PyVal.truthy : PyVal → Bool
  | .none => false
  | .int i => i != 0
  | .str s => s != ""
  | .list xs => !xs.isEmpty
  | .tuple xs => !xs.isEmpty

/-- The items `*obj` and an unpacking assignment take from `obj`: those of a list or a
tuple, the characters of a string, and none of a value that is not iterable. -/
def PyVal.items : PyVal → Option (List PyVal)
  | .list xs => some xs
  | .tuple xs => some xs
  | .str s => some (s.toList.map fun c => .str c.toString)
  | _ => Option.none

/-- `RustVersion(*obj)`: the three items of `obj`, whose types a `NamedTuple` does not
check. -/
def rustVersionOfItems (obj : PyVal) : Except String PyVal :=
  match obj.items with
  | some [major, minor, patch] => .ok (.tuple [major, minor, patch])
  | _ => .error "TypeError"

/-- `prepare_uprev_from_json(obj)`. -/
def prepareUprevFromJson (obj : PyVal) : Except String PyVal :=
  if !obj.truthy then .ok .none
  else
    match obj.items with
    | some [version, ebuildPath, bootstrapVersion] => do
      let version ← rustVersionOfItems version
      let bootstrapVersion ← rustVersionOfItems bootstrapVersion
      return .tuple [version, ebuildPath, bootstrapVersion]
    | some _ => .error "ValueError"
    | none => .error "TypeError"

end Values

section PerformStep

/-- A call of `run_step`: the step's name and the `result_from_json` and `result_to_json`
it passes. What the step's function does is the world's. -/
structure Step where
  name : String
  resultFromJson : Option (PyVal → Except String PyVal)
  resultToJson : Option (PyVal → PyVal)

/-- What the calls of `perform_step` share: the `completed_steps` map in insertion order,
the content of the state file (`none` while there is none), and the steps whose function
was called, in order. -/
structure StepState where
  completedSteps : List (String × PyVal)
  stateFile : Option (List (String × Json))
  called : List String

/-- `json.dump(completed_steps, f, indent=4)`. -/
def dumpSteps (completedSteps : List (String × PyVal)) : List (String × Json) :=
  completedSteps.map fun e => (e.1, e.2.toJson)

/-- `main`'s `completed_steps`: `json.load(f)` of the state file, or `{}` when opening it
raises `FileNotFoundError`. -/
def loadCompletedSteps : Option (List (String × Json)) → List (String × PyVal)
  | some obj => obj.map fun e => (e.1, e.2.toPy)
  | none => []

/-- The state `main` starts the steps from. -/
def StepState.load (stateFile : Option (List (String × Json))) : StepState :=
  ⟨loadCompletedSteps stateFile, stateFile, []⟩

/-- What `perform_step` stores for a step that returned `val`. -/
def Step.stored (step : Step) (val : PyVal) : PyVal :=
  match step.resultToJson with
  | some toJson => toJson val
  | none => val

/-- What `perform_step` returns for a step completed before, from its saved entry. -/
def Step.restore (step : Step) (saved : PyVal) : Except String PyVal :=
  match step.resultFromJson with
  | some fromJson => fromJson saved
  | none => .ok saved

/-- `perform_step(state_file, tmp_state_file, completed_steps, step_name, step_fn, ...)`,
`stepFn` being what `step_fn()` returns or raises. A completed step is skipped; otherwise the
function is called and, when it returns, its result is added to `completed_steps`, which is
written to the temporary file and renamed over the state file. -/
def performStep (s : StepState) (step : Step) (stepFn : Except String PyVal) :
    Except String PyVal × StepState :=
  match s.completedSteps.lookup step.name with
  | some saved => (step.restore saved, s)
  | none =>
    match stepFn with
    | .error e => (.error e, { s with called := s.called ++ [step.name] })
    | .ok val =>
      let completedSteps := s.completedSteps ++ [(step.name, step.stored val)]
      (.ok val, ⟨completedSteps, some (dumpSteps completedSteps), s.called ++ [step.name]⟩)

/-- `run_step` on the steps in turn, until one raises. The function of the step `name`
answers `fn name results`, `results` being what `run_step` returned before it. -/
def runSteps (fn : String → List PyVal → Except String PyVal) :
    List Step → List PyVal → StepState → Except String (List PyVal) × StepState
  | [], results, s => (.ok results, s)
  | step :: steps, results, s =>
    match performStep s step (fn step.name results) with
    | (.ok val, s) => runSteps fn steps (results ++ [val]) s
    | (.error e, s) => (.error e, s)

end PerformStep

section Mirror

mutual
theorem Json.toPy_toJson : ∀ j : Json, j.toPy.toJson = j
  | .null => rfl
  | .num _ => rfl
  | .str _ => rfl
  | .arr xs => by rw [Json.toPy, PyVal.toJson, Json.toPyList_toJsonList xs]

theorem Json.toPyList_toJsonList : ∀ xs : List Json, PyVal.toJsonList (Json.toPyList xs) = xs
  | [] => rfl
  | x :: xs => by rw [Json.toPyList, PyVal.toJsonList, Json.toPy_toJson x, Json.toPyList_toJsonList xs]
end

/-- The state file holds what `completed_steps` holds. -/
def StepState.Mirrored (s : StepState) : Prop := s.stateFile.getD [] = dumpSteps s.completedSteps

theorem StepState.load_mirrored (stateFile : Option (List (String × Json))) :
    (StepState.load stateFile).Mirrored := by
  cases stateFile with
  | none => rfl
  | some obj => simp [StepState.Mirrored, StepState.load, loadCompletedSteps, dumpSteps,
      Function.comp_def, Json.toPy_toJson]

theorem performStep_mirrored {s : StepState} (step : Step) (stepFn : Except String PyVal)
    (h : s.Mirrored) : (performStep s step stepFn).2.Mirrored := by
  unfold performStep
  split
  · exact h
  · split
    · exact h
    · rfl

variable (fn : String → List PyVal → Except String PyVal)

theorem runSteps_mirrored (l : List Step) :
    ∀ (results : List PyVal) (s : StepState), s.Mirrored → (runSteps fn l results s).2.Mirrored := by
  induction l with
  | nil => exact fun _ _ h => h
  | cons step l ih =>
    intro results s h
    have hs := performStep_mirrored step (fn step.name results) h
    simp only [runSteps]
    split
    · next hp => rw [hp] at hs; exact ih _ _ hs
    · next hp => rw [hp] at hs; exact hs

end Mirror

section Resume

variable (fn : String → List PyVal → Except String PyVal)

/-- The entries `perform_step` adds to `completed_steps` for steps `l` returning `vs`. -/
def completedEntries (l : List Step) (vs : List PyVal) : List (String × PyVal) :=
  List.zipWith (fun step v => (step.name, step.stored v)) l vs

/-- A step returning `v` gets `v` back from the state file written after it. -/
def Step.Survives (step : Step) (v : PyVal) : Prop :=
  step.restore (step.stored v).toJson.toPy = .ok v

theorem runSteps_append (l₁ l₂ : List Step) (results : List PyVal) (s : StepState) :
    runSteps fn (l₁ ++ l₂) results s =
      match runSteps fn l₁ results s with
      | (.ok results, s) => runSteps fn l₂ results s
      | (.error e, s) => (.error e, s) := by
  induction l₁ generalizing results s with
  | nil => rfl
  | cons step l₁ ih =>
    simp only [List.cons_append, runSteps]
    rcases performStep s step (fn step.name results) with ⟨_ | val, s'⟩
    · rfl
    · exact ih _ _

theorem runSteps_congr {fn' : String → List PyVal → Except String PyVal} (l : List Step)
    (h : ∀ step ∈ l, fn step.name = fn' step.name) (results : List PyVal) (s : StepState) :
    runSteps fn l results s = runSteps fn' l results s := by
  induction l generalizing results s with
  | nil => rfl
  | cons step l ih =>
    simp only [runSteps, h step (List.mem_cons_self _ _)]
    rcases performStep s step (fn' step.name results) with ⟨_ | val, s'⟩
    · rfl
    · exact ih (fun st hst => h st (List.mem_cons_of_mem _ hst)) _ _

theorem names_nodup_cons {step : Step} {l : List Step} (h : ((step :: l).map Step.name).Nodup) :
    (∀ st ∈ l, st.name ≠ step.name) ∧ (l.map Step.name).Nodup := by
  obtain ⟨hnotin, hnd⟩ := List.nodup_cons.1 h
  exact ⟨fun st hst he => hnotin (he ▸ List.mem_map_of_mem _ hst), hnd⟩

theorem lookup_append_new {entries : List (String × PyVal)} {name name' : String} {v : PyVal}
    (h : entries.lookup name' = none) (hne : name' ≠ name) :
    (entries ++ [(name, v)]).lookup name' = none := by
  have hb : (name' == name) = false := by simpa using hne
  simp [List.lookup_append, h, List.lookup_cons, hb]

theorem runSteps_fresh (l : List Step) (hnd : (l.map Step.name).Nodup) :
    ∀ (results : List PyVal) (s : StepState) (results' : List PyVal) (s' : StepState),
      (∀ step ∈ l, s.completedSteps.lookup step.name = none) →
      runSteps fn l results s = (.ok results', s') →
      ∃ vs, results' = results ++ vs ∧ vs.length = l.length ∧
        s'.completedSteps = s.completedSteps ++ completedEntries l vs ∧
        s'.called = s.called ++ l.map Step.name := by
  induction l with
  | nil =>
    intro results s results' s' _ h
    cases h
    exact ⟨[], by simp, rfl, by simp [completedEntries], by simp⟩
  | cons step l ih =>
    intro results s results' s' hfresh h
    obtain ⟨hne, hnd⟩ := names_nodup_cons hnd
    simp only [runSteps, performStep, hfresh step (List.mem_cons_self _ _)] at h
    cases hf : fn step.name results with
    | error e => simp [hf] at h
    | ok v =>
      simp only [hf] at h
      obtain ⟨vs, rfl, hlen, hc, hcall⟩ := ih hnd _ _ _ _ (fun st hst => lookup_append_new
        (hfresh st (List.mem_cons_of_mem _ hst)) (hne st hst)) h
      refine ⟨v :: vs, by simp, by simp [hlen], ?_, ?_⟩
      · rw [hc]; simp [completedEntries]
      · rw [hcall]; simp

theorem runSteps_fresh_result (l : List Step) (hnd : (l.map Step.name).Nodup) :
    ∀ (results : List PyVal) (s t : StepState),
      (∀ step ∈ l, s.completedSteps.lookup step.name = none) →
      (∀ step ∈ l, t.completedSteps.lookup step.name = none) →
      (runSteps fn l results s).1 = (runSteps fn l results t).1 := by
  induction l with
  | nil => intros; rfl
  | cons step l ih =>
    intro results s t hs ht
    obtain ⟨hne, hnd⟩ := names_nodup_cons hnd
    simp only [runSteps, performStep, hs step (List.mem_cons_self _ _),
      ht step (List.mem_cons_self _ _)]
    cases fn step.name results with
    | error e => rfl
    | ok v =>
      exact ih hnd _ _ _
        (fun st hst => lookup_append_new (hs st (List.mem_cons_of_mem _ hst)) (hne st hst))
        (fun st hst => lookup_append_new (ht st (List.mem_cons_of_mem _ hst)) (hne st hst))

theorem runSteps_saved {l : List Step} {vs : List PyVal} {s : StepState}
    (h : List.Forall₂ (fun step v => ∃ saved, s.completedSteps.lookup step.name = some saved ∧
      step.restore saved = .ok v) l vs) (results : List PyVal) :
    runSteps fn l results s = (.ok (results ++ vs), s) := by
  induction h generalizing results with
  | nil => simp [runSteps]
  | cons hv _ ih =>
    obtain ⟨saved, hl, hr⟩ := hv
    simp only [runSteps, performStep, hl, hr, ih]
    simp

theorem lookup_completedEntries_of_not_mem {name : String} (l : List Step)
    (h : name ∉ l.map Step.name) (vs : List PyVal) : (completedEntries l vs).lookup name = none := by
  induction l generalizing vs with
  | nil => rfl
  | cons step l ih =>
    cases vs with
    | nil => rfl
    | cons v vs =>
      have hb : (name == step.name) = false := by simpa using fun he => h (by simp [he])
      simp only [completedEntries, List.zipWith_cons_cons, List.lookup_cons, hb]
      exact ih (fun hl => h (List.mem_cons_of_mem _ hl)) vs

theorem completedEntries_append {l : List Step} {vs : List PyVal} (h : vs.length = l.length)
    (ws : List PyVal) : completedEntries l (vs ++ ws) = completedEntries l vs := by
  have := List.zipWith_append (fun (step : Step) v => (step.name, step.stored v)) l [] vs ws h.symm
  simpa [completedEntries] using this

theorem lookup_map_snd {α β : Type} (E : List (String × α)) (f : α → β) (name : String) :
    (E.map fun e => (e.1, f e.2)).lookup name = (E.lookup name).map f := by
  induction E with
  | nil => rfl
  | cons e E ih =>
    obtain ⟨k, v⟩ := e
    simp only [List.map_cons, List.lookup_cons]
    cases name == k <;> simp [ih]

theorem lookup_load_dumpSteps (E : List (String × PyVal)) (name : String) :
    (loadCompletedSteps (some (dumpSteps E))).lookup name =
      (E.lookup name).map fun v => v.toJson.toPy := by
  rw [← lookup_map_snd]
  simp [loadCompletedSteps, dumpSteps, Function.comp_def]

theorem loadCompletedSteps_getD (stateFile : Option (List (String × Json))) :
    loadCompletedSteps stateFile = loadCompletedSteps (some (stateFile.getD [])) := by
  cases stateFile <;> rfl

theorem load_completedEntries_cons (step : Step) (l : List Step) (v : PyVal) (vs : List PyVal) :
    loadCompletedSteps (some (dumpSteps (completedEntries (step :: l) (v :: vs)))) =
      (step.name, (step.stored v).toJson.toPy) ::
        loadCompletedSteps (some (dumpSteps (completedEntries l vs))) := rfl

theorem load_completedEntries_saved (l : List Step) (hnd : (l.map Step.name).Nodup) :
    ∀ vs : List PyVal, vs.length = l.length → (∀ p ∈ l.zip vs, p.1.Survives p.2) →
      List.Forall₂ (fun step v => ∃ saved,
        (loadCompletedSteps (some (dumpSteps (completedEntries l vs)))).lookup step.name =
          some saved ∧ step.restore saved = .ok v) l vs := by
  induction l with
  | nil => intro vs hlen _; cases List.eq_nil_of_length_eq_zero hlen; exact .nil
  | cons step l ih =>
    intro vs hlen hsurv
    obtain ⟨hne, hnd⟩ := names_nodup_cons hnd
    cases vs with
    | nil => simp at hlen
    | cons v vs =>
      have hrest := ih hnd vs (by simpa using hlen)
        (fun p hp => hsurv p (List.mem_cons_of_mem _ hp))
      rw [load_completedEntries_cons]
      refine .cons ⟨_, List.lookup_cons_self, hsurv (step, v) (List.mem_cons_self _ _)⟩
        (((List.forall₂_and_left l vs).2 ⟨hne, hrest⟩).imp ?_)
      rintro st v' ⟨hst, saved, hl, hr⟩
      have hb : (st.name == step.name) = false := by simpa using hst
      exact ⟨saved, by simpa [List.lookup_cons, hb] using hl, hr⟩

theorem runSteps_fresh_split {pre post : List Step} {step : Step}
    (hnd : ((pre ++ step :: post).map Step.name).Nodup) {vs : List PyVal} {s₀ : StepState}
    (hrun : runSteps fn (pre ++ step :: post) [] (StepState.load none) = (.ok vs, s₀)) :
    ∃ sPre, runSteps fn pre [] (StepState.load none) = (.ok (vs.take pre.length), sPre) ∧
      (vs.take pre.length).length = pre.length ∧
      sPre.completedSteps = completedEntries pre vs ∧ sPre.Mirrored ∧
      (∀ st ∈ step :: post, sPre.completedSteps.lookup st.name = none) ∧
      runSteps fn (step :: post) (vs.take pre.length) sPre = (.ok vs, s₀) := by
  rw [List.map_append] at hnd
  obtain ⟨hndPre, hndRest, hdisj⟩ := List.nodup_append.1 hnd
  rw [runSteps_append] at hrun
  rcases hpre : runSteps fn pre [] (StepState.load none) with ⟨_ | vsPre, sPre⟩
  · rw [hpre] at hrun; cases hrun
  rw [hpre] at hrun
  obtain ⟨_, rfl, hlenPre, hcPre, -⟩ :=
    runSteps_fresh fn pre hndPre [] (StepState.load none) _ _ (fun _ _ => rfl) hpre
  have hc : sPre.completedSteps = completedEntries pre vsPre := by rw [hcPre]; rfl
  have hfresh : ∀ st ∈ step :: post, sPre.completedSteps.lookup st.name = none := fun st hst => by
    rw [hc]
    exact lookup_completedEntries_of_not_mem pre
      (fun hm => hdisj hm (List.mem_map_of_mem _ hst)) vsPre
  obtain ⟨valsRest, rfl, -⟩ := runSteps_fresh fn (step :: post) hndRest _ _ _ _ hfresh hrun
  have htake : (vsPre ++ valsRest).take pre.length = vsPre := List.take_left' hlenPre
  have hm := runSteps_mirrored fn pre [] _ (StepState.load_mirrored none)
  rw [hpre] at hm
  rw [htake, completedEntries_append hlenPre]
  exact ⟨sPre, rfl, hlenPre, hc, hm, hfresh, hrun⟩

theorem runSteps_resume {pre post : List Step} {step : Step}
    (hnd : ((pre ++ step :: post).map Step.name).Nodup)
    {fn₀ fn₁ fn₂ : String → List PyVal → Except String PyVal} {vs : List PyVal} {s₀ : StepState}
    (hrun : runSteps fn₀ (pre ++ step :: post) [] (StepState.load none) = (.ok vs, s₀))
    (h₁ : ∀ st ∈ pre, fn₁ st.name = fn₀ st.name) {e : String}
    (hfail : fn₁ step.name (vs.take pre.length) = .error e)
    (h₂ : ∀ st ∈ step :: post, fn₂ st.name = fn₀ st.name)
    (hsurv : ∀ p ∈ pre.zip vs, p.1.Survives p.2) :
    (runSteps fn₁ (pre ++ step :: post) [] (StepState.load none)).1 = .error e ∧
      (runSteps fn₁ (pre ++ step :: post) [] (StepState.load none)).2.stateFile.getD [] =
        dumpSteps (completedEntries pre vs) ∧
      ∃ s₂, runSteps fn₂ (pre ++ step :: post) []
          (StepState.load (runSteps fn₁ (pre ++ step :: post) [] (StepState.load none)).2.stateFile) =
          (.ok vs, s₂) ∧ s₂.called = (step :: post).map Step.name := by
  obtain ⟨sPre, hpre, hlen, hcPre, hmPre, hfresh, hrest⟩ := runSteps_fresh_split fn₀ hnd hrun
  rw [List.map_append] at hnd
  obtain ⟨hndPre, hndRest, hdisj⟩ := List.nodup_append.1 hnd
  -- the raising run goes through the same state after `pre`, then raises at `step`
  have hrun₁ : runSteps fn₁ (pre ++ step :: post) [] (StepState.load none) =
      (.error e, { sPre with called := sPre.called ++ [step.name] }) := by
    rw [runSteps_append, runSteps_congr fn₁ pre h₁, hpre]
    simp [runSteps, performStep, hfresh step (List.mem_cons_self _ _), hfail]
  have hfile : sPre.stateFile.getD [] = dumpSteps (completedEntries pre vs) := by
    rw [hmPre, hcPre]
  rw [hrun₁]
  refine ⟨rfl, hfile, ?_⟩
  -- the resumed run skips `pre`, getting its results back from the state file
  have hentries : completedEntries pre vs = completedEntries pre (vs.take pre.length) := by
    conv_lhs => rw [← List.take_append_drop pre.length vs]
    exact completedEntries_append hlen _
  have hzip : pre.zip vs = pre.zip (vs.take pre.length) := by
    have := @List.zip_append _ _ pre [] (vs.take pre.length) (vs.drop pre.length) hlen.symm
    simpa using this
  set sL := StepState.load sPre.stateFile
  have hsL : sL.completedSteps =
      loadCompletedSteps (some (dumpSteps (completedEntries pre (vs.take pre.length)))) := by
    show loadCompletedSteps _ = _
    rw [loadCompletedSteps_getD, hfile, hentries]
  have hskip : runSteps fn₂ pre [] sL = (.ok (vs.take pre.length), sL) := by
    refine runSteps_saved fn₂ ?_ []
    rw [hsL]
    exact load_completedEntries_saved pre hndPre _ hlen (hzip ▸ hsurv)
  -- and runs the rest as the run that never raised does
  have hfreshL : ∀ st ∈ step :: post, sL.completedSteps.lookup st.name = none := fun st hst => by
    rw [hsL, lookup_load_dumpSteps, lookup_completedEntries_of_not_mem pre
      (fun hm => hdisj hm (List.mem_map_of_mem _ hst))]
    rfl
  have hres := runSteps_fresh_result fn₀ (step :: post) hndRest (vs.take pre.length) _ _ hfresh hfreshL
  rw [hrest] at hres
  rcases hL : runSteps fn₀ (step :: post) (vs.take pre.length) sL with ⟨r, s₂⟩
  rw [hL] at hres
  cases hres
  obtain ⟨_, -, -, -, hcalled⟩ := runSteps_fresh fn₀ (step :: post) hndRest _ _ _ _ hfreshL hL
  refine ⟨s₂, ?_, by rw [hcalled]; rfl⟩
  rw [runSteps_append, hskip]
  exact (runSteps_congr fn₂ _ h₂ _ _).trans hL

theorem mem_zip_append_left {α β : Type} {l₁ l₂ : List α} {vs : List β} {p : α × β}
    (h : p ∈ l₁.zip vs) : p ∈ (l₁ ++ l₂).zip vs := by
  induction l₁ generalizing vs with
  | nil => simp at h
  | cons a l₁ ih =>
    cases vs with
    | nil => simp at h
    | cons v vs =>
      simp only [List.cons_append, List.zip_cons_cons, List.mem_cons] at h ⊢
      exact h.imp_right ih

end Resume

section Uprev

/-- `run_step("prepare uprev", ..., result_from_json=prepare_uprev_from_json)`. -/
def prepareUprevStep : Step := ⟨"prepare uprev", some prepareUprevFromJson, none⟩

/-- `run_step("find rust version to delete", ...)`, whose `result_from_json` is
`RustVersion(*obj)`. -/
def findRustVersionStep : Step := ⟨"find rust version to delete", some rustVersionOfItems, none⟩

/-- `run_step(name, step_fn)` with no conversion, as every other step of `rust_uprev.py`. -/
def plainStep (name : String) : Step := ⟨name, none, none⟩

/-- What the functions of `rust_uprev.py`'s steps return: `prepare_uprev` `None`, or the
template version, the template ebuild's path and the bootstrap version;
`find_desired_rust_version` a `RustVersion`; `create_ebuild` the new ebuild's path; the other
steps `None`. -/
inductive UprevResult : Step → PyVal → Prop
  | prepareNone : UprevResult prepareUprevStep .none
  | prepare (template bootstrap : RustVersion) (ebuildPath : String) :
      UprevResult prepareUprevStep (.tuple [template.toPy, .str ebuildPath, bootstrap.toPy])
  | findVersion (v : RustVersion) : UprevResult findRustVersionStep v.toPy
  | path (name ebuildPath : String) : UprevResult (plainStep name) (.str ebuildPath)
  | nothing (name : String) : UprevResult (plainStep name) .none

theorem UprevResult.survives {step : Step} {v : PyVal} (h : UprevResult step v) :
    step.Survives v := by
  cases h <;> rfl

theorem rustUprev_resume_after_failure (pre post : List Step) (step : Step)
    (hnd : ((pre ++ step :: post).map Step.name).Nodup)
    (fn₀ fn₁ fn₂ : String → List PyVal → Except String PyVal) (vs : List PyVal) (s₀ : StepState)
    (hrun : runSteps fn₀ (pre ++ step :: post) [] (StepState.load none) = (.ok vs, s₀))
    (hresults : ∀ p ∈ (pre ++ step :: post).zip vs, UprevResult p.1 p.2)
    (h₁ : ∀ st ∈ pre, fn₁ st.name = fn₀ st.name) (e : String)
    (hfail : fn₁ step.name (vs.take pre.length) = .error e)
    (h₂ : ∀ st ∈ step :: post, fn₂ st.name = fn₀ st.name) :
    (runSteps fn₁ (pre ++ step :: post) [] (StepState.load none)).1 = .error e ∧
      (runSteps fn₁ (pre ++ step :: post) [] (StepState.load none)).2.stateFile.getD [] =
        dumpSteps (completedEntries pre vs) ∧
      ∃ s₂, runSteps fn₂ (pre ++ step :: post) []
          (StepState.load (runSteps fn₁ (pre ++ step :: post) [] (StepState.load none)).2.stateFile) =
          (.ok vs, s₂) ∧ s₂.called = (step :: post).map Step.name :=
  runSteps_resume hnd hrun h₁ hfail h₂ fun p hp => (hresults p (mem_zip_append_left hp)).survives

/-- The template 1.59.0, its ebuild and the bootstrap 1.58.1 from `prepare uprev`, and
`None` from every other step. -/
def uprevAnswers (name : String) (_ : List PyVal) : Except String PyVal :=
  if name = "prepare uprev" then
    .ok (.tuple [RustVersion.toPy ⟨1, 59, 0⟩, .str "rust-1.59.0.ebuild", RustVersion.toPy ⟨1, 58, 1⟩])
  else .ok .none

/-- The same, but fetching the distfiles fails. -/
def fetchFailsAnswers (name : String) (results : List PyVal) : Except String PyVal :=
  if name = "fetch rust distfiles" then .error "CalledProcessError" else uprevAnswers name results

theorem fetch_failure_resumes :
    (runSteps fetchFailsAnswers ([prepareUprevStep] ++ plainStep "fetch rust distfiles" ::
        [plainStep "update bootstrap ebuild"]) [] (StepState.load none)).1 =
        .error "CalledProcessError" ∧
      (runSteps fetchFailsAnswers ([prepareUprevStep] ++ plainStep "fetch rust distfiles" ::
        [plainStep "update bootstrap ebuild"]) [] (StepState.load none)).2.stateFile.getD [] =
        dumpSteps (completedEntries [prepareUprevStep]
          [.tuple [RustVersion.toPy ⟨1, 59, 0⟩, .str "rust-1.59.0.ebuild", RustVersion.toPy ⟨1, 58, 1⟩],
            .none, .none]) ∧
      ∃ s₂, runSteps uprevAnswers ([prepareUprevStep] ++ plainStep "fetch rust distfiles" ::
          [plainStep "update bootstrap ebuild"]) []
          (StepState.load (runSteps fetchFailsAnswers ([prepareUprevStep] ++
            plainStep "fetch rust distfiles" :: [plainStep "update bootstrap ebuild"]) []
            (StepState.load none)).2.stateFile) =
          (.ok [.tuple [RustVersion.toPy ⟨1, 59, 0⟩, .str "rust-1.59.0.ebuild",
            RustVersion.toPy ⟨1, 58, 1⟩], .none, .none], s₂) ∧
        s₂.called = (plainStep "fetch rust distfiles" :: [plainStep "update bootstrap ebuild"]).map
          Step.name :=
  rustUprev_resume_after_failure [prepareUprevStep] [plainStep "update bootstrap ebuild"]
    (plainStep "fetch rust distfiles") (by decide) uprevAnswers fetchFailsAnswers uprevAnswers
    [.tuple [RustVersion.toPy ⟨1, 59, 0⟩, .str "rust-1.59.0.ebuild", RustVersion.toPy ⟨1, 58, 1⟩],
      .none, .none]
    (runSteps uprevAnswers ([prepareUprevStep] ++ plainStep "fetch rust distfiles" ::
      [plainStep "update bootstrap ebuild"]) [] (StepState.load none)).2 rfl
    (by
      intro p hp
      simp only [List.singleton_append, List.zip_cons_cons, List.zip_nil_right, List.mem_cons,
        List.mem_singleton, List.not_mem_nil, or_false] at hp
      rcases hp with rfl | rfl | rfl
      exacts [.prepare _ _ _, .nothing _, .nothing _])
    (fun st hst => by
      rw [List.mem_singleton.1 hst]
      funext results
      rfl) _ rfl (fun _ _ => rfl)

end Uprev

end ToolchainUtils.RustTools
