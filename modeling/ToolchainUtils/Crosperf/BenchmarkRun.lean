import Mathlib.Data.List.Nodup

/-!
`crosperf/benchmark_run.py` with the `Timeline` of `cros_utils/timeline.py`: the thread body
`BenchmarkRun.run` as a small-step program, and `BenchmarkRun.Terminate`, which another
thread may call between any two of its statements. The collaborators (results cache,
machine manager, autotest runner, `Result`) answer each statement that calls them;
statements that touch neither the timeline nor `terminated` are merged with their
neighbours, and the `finally` block, which only releases the machine, is left out.
-/

set_option autoImplicit false

namespace ToolchainUtils.Crosperf

def statusFailed : String := "FAILED"
def statusSucceeded : String := "SUCCEEDED"
def statusImaging : String := "IMAGING"
def statusRunning : String := "RUNNING"
def statusWaiting : String := "WAITING"
def statusPending : String := "PENDING"

/-- `Timeline.Record(event)` on the names recorded so far (the timestamps are left out).
An error is the failed assertion. -/
def timelineRecord (events : List String) (event : String) : Except String (List String) :=
  if event ∈ events then .error ("The event " ++ event ++ " is already recorded.")
  else .ok (events ++ [event])

/-- `Timeline.GetLastEvent()`. -/
def getLastEvent (events : List String) : Option String := events.getLast?

/-- The statement of `run` a thread is at; `handler e` is the `except` clause with the
exception `e`. -/
inductive Pc where
  | cacheInit
  | readResult
  | recordWaiting
  | acquireMachine
  | recordImaging
  | imageMachine
  | recordRunning
  | runAutotest
  | storeResult
  | checkTerminated
  | checkRetval
  | handler (e : String)
  | done
  deriving DecidableEq, Repr

/-- The fields of a `BenchmarkRun` that `run` and `Terminate` read or write; `retval` is
`self.result.retval` once there is a result. -/
structure BenchmarkRun where
  timeline : List String
  terminated : Bool
  failureReason : String
  retval : Option Int
  machine : Option String
  pc : Pc
  deriving DecidableEq, Repr

/-- The object as `BenchmarkRun.__init__` leaves it: PENDING recorded, `run` not started. -/
def BenchmarkRun.init : BenchmarkRun := ⟨[statusPending], false, "", none, none, .cacheInit⟩

/-- How a collaborator answers the statement that calls it: it returns, it raises, the
cache holds a result, the machine manager hands out a machine, or autotest returns a
value. An answer that does not fit the statement is read as its plain return: a cache
miss, no machine yet, or autotest returning `0`. -/
inductive Answer where
  | returns
  | raises (e : String)
  | cacheHit (retval : Int)
  | machine (name : String)
  | retval (r : Int)
  deriving DecidableEq, Repr

/-- `self.timeline.Record(event)` inside the `try` block: a failed assertion is caught by
its `except Exception` clause. -/
def BenchmarkRun.recordInTry (b : BenchmarkRun) (event : String) (next : Pc) : BenchmarkRun :=
  match timelineRecord b.timeline event with
  | .ok tl => { b with timeline := tl, pc := next }
  | .error e => { b with pc := .handler e }

/-- Continue at `next`, or at the `except` clause when the collaborator raised. -/
def BenchmarkRun.goto (b : BenchmarkRun) (a : Answer) (next : Pc) : BenchmarkRun :=
  match a with
  | .raises e => { b with pc := .handler e }
  | _ => { b with pc := next }

/-- One statement of `BenchmarkRun.run`. An error is an assertion that escapes `run`. -/
def runStep (b : BenchmarkRun) (a : Answer) : Except String BenchmarkRun :=
  match b.pc with
  | .cacheInit => .ok (b.goto a .readResult)
  | .readResult =>
    match a with
    | .cacheHit r => .ok { b with retval := some r, pc := .checkTerminated }
    | _ => .ok (b.goto a .recordWaiting)
  | .recordWaiting => .ok (b.recordInTry statusWaiting .acquireMachine)
  | .acquireMachine =>
    if b.terminated then
      .ok { b with pc := .handler "Thread terminated while trying to acquire machine." }
    else
      match a with
      | .machine m => .ok { b with machine := some m, pc := .recordImaging }
      | .raises e => .ok { b with pc := .handler e }
      | _ => .ok b
  | .recordImaging => .ok (b.recordInTry statusImaging .imageMachine)
  | .imageMachine => .ok (b.goto a .recordRunning)
  | .recordRunning => .ok (b.recordInTry statusRunning .runAutotest)
  | .runAutotest =>
    match a with
    | .retval r => .ok { b with retval := some r, pc := .storeResult }
    | _ => .ok ({ b with retval := some 0 }.goto a .storeResult)
  | .storeResult => .ok (b.goto a .checkTerminated)
  | .checkTerminated => .ok { b with pc := if b.terminated then .done else .checkRetval }
  | .checkRetval =>
    if b.retval = some 0 then .ok (b.recordInTry statusSucceeded .done)
    else if getLastEvent b.timeline ≠ some statusFailed then
      .ok ({ b with failureReason := "Return value of autotest was non-zero." }.recordInTry
        statusFailed .done)
    else .ok { b with pc := .done }
  | .handler e =>
    if getLastEvent b.timeline ≠ some statusFailed then
      match timelineRecord b.timeline statusFailed with
      | .ok tl => .ok { b with timeline := tl, failureReason := e, pc := .done }
      | .error msg => .error msg
    else .ok { b with pc := .done }
  | .done => .ok b

/-- `BenchmarkRun.Terminate()`. An error is an assertion that escapes it. -/
def terminate (b : BenchmarkRun) : Except String BenchmarkRun :=
  if getLastEvent b.timeline ≠ some statusFailed then
    match timelineRecord b.timeline statusFailed with
    | .ok tl =>
      .ok { b with terminated := true, timeline := tl, failureReason := "Thread terminated." }
    | .error msg => .error msg
  else .ok { b with terminated := true }

/-- A step of the system: a statement of `run`, or a call of `Terminate`. -/
inductive RunEvent where
  | run (a : Answer)
  | terminate
  deriving DecidableEq, Repr

def benchmarkStep (b : BenchmarkRun) : RunEvent → Except String BenchmarkRun
  | .run a => runStep b a
  | .terminate => terminate b

def benchmarkExec (b : BenchmarkRun) (es : List RunEvent) : Except String BenchmarkRun :=
  es.foldlM benchmarkStep b

/-- `Terminate` lands before `run` starts, and the cache misses: `run` records WAITING,
finds the thread terminated, and its `except` clause records FAILED a second time. -/
def terminateBeforeWaitingTrace : List RunEvent :=
  [.terminate, .run .returns, .run .returns, .run .returns, .run .returns, .run .returns]

theorem terminate_before_cache_miss_records_failed_twice :
    benchmarkExec BenchmarkRun.init terminateBeforeWaitingTrace =
      .error "The event FAILED is already recorded." :=
  rfl

section Alone

/-- The events `run` may still record from the statement `pc` on. -/
def Pc.toRecord : Pc → List String
  | .cacheInit | .readResult | .recordWaiting =>
    [statusWaiting, statusImaging, statusRunning, statusSucceeded, statusFailed]
  | .acquireMachine | .recordImaging => [statusImaging, statusRunning, statusSucceeded, statusFailed]
  | .imageMachine | .recordRunning => [statusRunning, statusSucceeded, statusFailed]
  | .runAutotest | .storeResult | .checkTerminated | .checkRetval => [statusSucceeded, statusFailed]
  | .handler _ => [statusFailed]
  | .done => []

/-- While `Terminate` is not called: no event is recorded twice, none that `run` may still
record is recorded yet, and the thread is not terminated. -/
structure BenchmarkRun.Fresh (b : BenchmarkRun) : Prop where
  nodup : b.timeline.Nodup
  fresh : ∀ e ∈ b.pc.toRecord, e ∉ b.timeline
  not_terminated : b.terminated = false

theorem BenchmarkRun.fresh_init : BenchmarkRun.init.Fresh :=
  ⟨by decide, by decide, rfl⟩

theorem timelineRecord_fresh {events : List String} {e : String} (he : e ∉ events) :
    timelineRecord events e = .ok (events ++ [e]) :=
  if_neg he

theorem BenchmarkRun.Fresh.move {b : BenchmarkRun} (h : b.Fresh) (b' : BenchmarkRun)
    (htl : b'.timeline = b.timeline) (ht : b'.terminated = b.terminated)
    (hpc : ∀ e ∈ b'.pc.toRecord, e ∈ b.pc.toRecord) : b'.Fresh :=
  ⟨htl ▸ h.nodup, fun e he => htl ▸ h.fresh e (hpc e he), ht ▸ h.not_terminated⟩

theorem nodup_append_singleton {l : List String} {e : String} (h : l.Nodup) (he : e ∉ l) :
    (l ++ [e]).Nodup := by
  rw [← List.concat_eq_append]
  exact List.Nodup.concat he h

theorem BenchmarkRun.Fresh.recordInTry {b : BenchmarkRun} (h : b.Fresh) {e : String}
    (he : e ∈ b.pc.toRecord) {next : Pc}
    (hnext : ∀ e' ∈ next.toRecord, e' ∈ b.pc.toRecord ∧ e' ≠ e) :
    (b.recordInTry e next).Fresh := by
  have hnot := h.fresh e he
  rw [BenchmarkRun.recordInTry, timelineRecord_fresh hnot]
  refine ⟨nodup_append_singleton h.nodup hnot, fun e' he' => ?_, h.not_terminated⟩
  obtain ⟨hin, hne⟩ := hnext e' he'
  simpa [hne] using h.fresh e' hin

theorem BenchmarkRun.Fresh.goto {b : BenchmarkRun} (h : b.Fresh) (a : Answer) {next : Pc}
    (hf : statusFailed ∈ b.pc.toRecord) (hnext : ∀ e ∈ next.toRecord, e ∈ b.pc.toRecord) :
    (b.goto a next).Fresh := by
  cases a <;> exact h.move _ rfl rfl (by simp_all [Pc.toRecord, BenchmarkRun.goto])

theorem runStep_fresh {b : BenchmarkRun} (h : b.Fresh) (a : Answer) :
    ∃ b', runStep b a = .ok b' ∧ b'.Fresh := by
  have hdone : ∀ b' : BenchmarkRun, b'.timeline = b.timeline → b'.terminated = b.terminated →
      b'.pc = .done → b'.Fresh := fun b' htl ht hpc =>
    h.move b' htl ht (by simp [hpc, Pc.toRecord])
  unfold runStep
  split
  next hpc => exact ⟨_, rfl, h.goto a (by simp only [hpc]; decide) (by simp only [hpc]; decide)⟩
  next hpc =>
    split
    next => exact ⟨_, rfl, h.move _ rfl rfl (by simp only [hpc]; decide)⟩
    next => exact ⟨_, rfl, h.goto a (by simp only [hpc]; decide) (by simp only [hpc]; decide)⟩
  next hpc => exact ⟨_, rfl, h.recordInTry (by simp only [hpc]; decide) (by simp only [hpc]; decide)⟩
  next hpc =>
    rw [if_neg (by simp [h.not_terminated])]
    split <;> exact ⟨_, rfl, h.move _ rfl rfl (by simp [hpc, Pc.toRecord])⟩
  next hpc => exact ⟨_, rfl, h.recordInTry (by simp only [hpc]; decide) (by simp only [hpc]; decide)⟩
  next hpc => exact ⟨_, rfl, h.goto a (by simp only [hpc]; decide) (by simp only [hpc]; decide)⟩
  next hpc => exact ⟨_, rfl, h.recordInTry (by simp only [hpc]; decide) (by simp only [hpc]; decide)⟩
  next hpc =>
    split
    next => exact ⟨_, rfl, h.move _ rfl rfl (by simp only [hpc]; decide)⟩
    next => exact ⟨_, rfl, (h.move { b with retval := some 0 } rfl rfl fun _ he => he).goto a
      (by simp only [hpc]; decide) (by simp only [hpc]; decide)⟩
  next hpc => exact ⟨_, rfl, h.goto a (by simp only [hpc]; decide) (by simp only [hpc]; decide)⟩
  next hpc =>
    refine ⟨_, rfl, h.move _ rfl rfl ?_⟩
    simp only [h.not_terminated, Bool.false_eq_true, if_false, hpc]
    decide
  next hpc =>
    split_ifs
    · exact ⟨_, rfl, h.recordInTry (by simp only [hpc]; decide) (by simp [Pc.toRecord])⟩
    · exact ⟨_, rfl, (h.move { b with failureReason := "Return value of autotest was non-zero." } rfl rfl
        fun _ he => he).recordInTry
        (by simp only [hpc]; decide) (by simp [Pc.toRecord])⟩
    · exact ⟨_, rfl, hdone _ rfl rfl rfl⟩
  next e hpc =>
    have hnot := h.fresh statusFailed (by simp [hpc, Pc.toRecord])
    split_ifs
    · rw [timelineRecord_fresh hnot]
      exact ⟨_, rfl, ⟨nodup_append_singleton h.nodup hnot, by simp [Pc.toRecord],
        h.not_terminated⟩⟩
    · exact ⟨_, rfl, hdone _ rfl rfl rfl⟩
  next => exact ⟨_, rfl, h⟩

theorem runExec_fresh (answers : List Answer) :
    ∀ b : BenchmarkRun, b.Fresh → ∃ b', benchmarkExec b (answers.map .run) = .ok b' ∧ b'.Fresh := by
  induction answers with
  | nil => exact fun b h => ⟨b, rfl, h⟩
  | cons a as ih =>
    intro b h
    obtain ⟨b₁, h₁, hf₁⟩ := runStep_fresh h a
    obtain ⟨b₂, h₂, hf₂⟩ := ih b₁ hf₁
    exact ⟨b₂, by simp only [benchmarkExec, List.map_cons, List.foldlM_cons, benchmarkStep, h₁,
      bind, Except.bind]; exact h₂, hf₂⟩

theorem run_alone_never_repeats_event (answers : List Answer) :
    ∃ b, benchmarkExec BenchmarkRun.init (answers.map .run) = .ok b ∧ b.timeline.Nodup ∧
      ∀ e ∈ b.pc.toRecord, timelineRecord b.timeline e = .ok (b.timeline ++ [e]) := by
  obtain ⟨b, hb, hf⟩ := runExec_fresh answers _ BenchmarkRun.fresh_init
  exact ⟨b, hb, hf.nodup, fun e he => timelineRecord_fresh (hf.fresh e he)⟩

end Alone

section Interleaved

theorem timelineRecord_nodup {events events' : List String} {e : String} (h : events.Nodup)
    (hr : timelineRecord events e = .ok events') : events'.Nodup := by
  unfold timelineRecord at hr
  split_ifs at hr with he
  cases hr
  exact nodup_append_singleton h he

theorem timelineRecord_failed_error {events : List String} {msg : String}
    (h : timelineRecord events statusFailed = .error msg) :
    msg = "The event FAILED is already recorded." := by
  unfold timelineRecord at h
  split_ifs at h
  cases h
  rfl

@[simp] theorem BenchmarkRun.timeline_goto (b : BenchmarkRun) (a : Answer) (next : Pc) :
    (b.goto a next).timeline = b.timeline := by
  cases a <;> rfl

theorem BenchmarkRun.nodup_recordInTry {b : BenchmarkRun} (h : b.timeline.Nodup) (e : String)
    (next : Pc) : (b.recordInTry e next).timeline.Nodup := by
  unfold BenchmarkRun.recordInTry
  split
  · exact timelineRecord_nodup h ‹_›
  · exact h

theorem runStep_nodup {b : BenchmarkRun} (h : b.timeline.Nodup) (a : Answer) :
    (∃ b', runStep b a = .ok b' ∧ b'.timeline.Nodup) ∨
      runStep b a = .error "The event FAILED is already recorded." := by
  unfold runStep
  split
  · exact .inl ⟨_, rfl, by simpa using h⟩
  · split <;> exact .inl ⟨_, rfl, by simpa using h⟩
  · exact .inl ⟨_, rfl, BenchmarkRun.nodup_recordInTry h _ _⟩
  · split
    · exact .inl ⟨_, rfl, h⟩
    · split <;> exact .inl ⟨_, rfl, h⟩
  · exact .inl ⟨_, rfl, BenchmarkRun.nodup_recordInTry h _ _⟩
  · exact .inl ⟨_, rfl, by simpa using h⟩
  · exact .inl ⟨_, rfl, BenchmarkRun.nodup_recordInTry h _ _⟩
  · split <;> exact .inl ⟨_, rfl, by simpa using h⟩
  · exact .inl ⟨_, rfl, by simpa using h⟩
  · exact .inl ⟨_, rfl, h⟩
  · split_ifs
    · exact .inl ⟨_, rfl, BenchmarkRun.nodup_recordInTry h _ _⟩
    · exact .inl ⟨_, rfl, BenchmarkRun.nodup_recordInTry
        (b := { b with failureReason := "Return value of autotest was non-zero." }) h _ _⟩
    · exact .inl ⟨_, rfl, h⟩
  · -- the `except` clause: the only statement whose assertion escapes
    split_ifs
    · split
      · exact .inl ⟨_, rfl, timelineRecord_nodup h ‹_›⟩
      · exact .inr (congrArg Except.error (timelineRecord_failed_error ‹_›))
    · exact .inl ⟨_, rfl, h⟩
  · exact .inl ⟨_, rfl, h⟩

theorem terminate_nodup {b : BenchmarkRun} (h : b.timeline.Nodup) :
    (∃ b', terminate b = .ok b' ∧ b'.timeline.Nodup) ∨
      terminate b = .error "The event FAILED is already recorded." := by
  unfold terminate
  split_ifs
  · split
    · exact .inl ⟨_, rfl, timelineRecord_nodup h ‹_›⟩
    · exact .inr (congrArg Except.error (timelineRecord_failed_error ‹_›))
  · exact .inl ⟨_, rfl, h⟩

theorem benchmarkExec_only_failed_twice (es : List RunEvent) :
    ∀ b : BenchmarkRun, b.timeline.Nodup →
      (∃ b', benchmarkExec b es = .ok b' ∧ b'.timeline.Nodup) ∨
        benchmarkExec b es = .error "The event FAILED is already recorded." := by
  induction es with
  | nil => exact fun b h => .inl ⟨b, rfl, h⟩
  | cons ev es ih =>
    intro b h
    have hstep : (∃ b', benchmarkStep b ev = .ok b' ∧ b'.timeline.Nodup) ∨
        benchmarkStep b ev = .error "The event FAILED is already recorded." := by
      cases ev with
      | run a => exact runStep_nodup h a
      | terminate => exact terminate_nodup h
    simp only [benchmarkExec, List.foldlM_cons, bind, Except.bind] at ih ⊢
    rcases hstep with ⟨b₁, h₁, hn₁⟩ | h₁
    · rw [h₁]
      exact ih b₁ hn₁
    · rw [h₁]
      exact .inr rfl

theorem terminate_before_cache_miss_only_failed_twice :
    (∃ b', benchmarkExec BenchmarkRun.init terminateBeforeWaitingTrace = .ok b' ∧
        b'.timeline.Nodup) ∨
      benchmarkExec BenchmarkRun.init terminateBeforeWaitingTrace =
        .error "The event FAILED is already recorded." :=
  benchmarkExec_only_failed_twice terminateBeforeWaitingTrace _ (by decide)

end Interleaved

end ToolchainUtils.Crosperf
