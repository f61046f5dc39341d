import Mathlib.Data.List.Nodup

/-!
`v14/automation/server/job_group_manager.py`: the status of a job group as its jobs finish
and `JobGroupManager.NotifyJobComplete` is told about them. The job manager sets a job's
status outside `job_condition`; each notification runs atomically under it. The status
constants of `automation.common.job` and `automation.common.job_group` are not among the
sources; every job status other than SUCCEEDED and FAILED is one of a job still running.
The last part follows the calls each notification makes on the job manager over a run.
-/

set_option autoImplicit false

namespace ToolchainUtils.V14

/-- The statuses of a job that `NotifyJobComplete` tells apart. -/
inductive JobStatus where
  | running
  | succeeded
  | failed
  deriving DecidableEq, Repr

inductive GroupStatus where
  | executing
  | succeeded
  | failed
  deriving DecidableEq, Repr

/-- A call `NotifyJobComplete` makes on the job manager, by the job's place in the group. -/
inductive ManagerCall where
  | killJob (job : Nat)
  | cleanUpJob (job : Nat)
  deriving DecidableEq, Repr

/-- A job group: its status, the statuses of `job_group.jobs` in order, and its cleanup
flags. -/
structure JobGroup where
  status : GroupStatus
  jobs : List JobStatus
  cleanupOnFailure : Bool
  cleanupOnCompletion : Bool
  deriving DecidableEq, Repr

/-- The group as `AddJobGroup` leaves it: executing, with jobs that have not finished. -/
def addJobGroup (n : Nat) (cleanupOnFailure cleanupOnCompletion : Bool) : JobGroup :=
  ⟨.executing, List.replicate n .running, cleanupOnFailure, cleanupOnCompletion⟩

/-- The loop of `NotifyJobComplete` over the group's jobs after a success: whether all
have succeeded, or the failed `assert other_job.status != STATUS_FAILED`. -/
def checkFinished : List JobStatus → Except String Bool
  | [] => .ok true
  | s :: rest =>
    if s = .failed then .error "AssertionError"
    else if s ≠ .succeeded then .ok false
    else checkFinished rest

/-- `NotifyJobComplete(job)` for the job at place `i` of the group: the group after it and
the calls it makes on the job manager. An error is a failed assertion, raised with
`job_condition` still acquired. -/
def notifyJobComplete (g : JobGroup) (i : Nat) : Except String (JobGroup × List ManagerCall) :=
  if g.status = .failed then .ok (g, [])
  else if g.jobs[i]? = some .failed then
    -- we have a failed job, abort the job group
    .ok ({ g with status := .failed },
      if g.cleanupOnFailure then
        (List.range g.jobs.length).flatMap fun k => [.killJob k, .cleanUpJob k]
      else [])
  else if g.jobs[i]? ≠ some .succeeded then .error "AssertionError"
  else do
    let finished ← checkFinished g.jobs
    if finished then
      return ({ g with status := .succeeded },
        if g.cleanupOnCompletion then (List.range g.jobs.length).map .cleanUpJob else [])
    else return (g, [])

/-- What happens to a job group: the job manager finishes a job, or the group manager is
notified of it. -/
inductive GroupEvent where
  | finish (job : Nat) (succeeded : Bool)
  | notify (job : Nat)
  deriving DecidableEq, Repr

def GroupEvent.job : GroupEvent → Nat
  | .finish j _ => j
  | .notify j => j

def GroupEvent.isFinishOf (i : Nat) : GroupEvent → Bool
  | .finish j _ => j == i
  | .notify _ => false

def GroupEvent.isNotifyOf (i : Nat) : GroupEvent → Bool
  | .notify j => j == i
  | .finish _ _ => false

def groupStep (g : JobGroup) : GroupEvent → Except String JobGroup
  | .finish i ok => .ok { g with jobs := g.jobs.set i (if ok then .succeeded else .failed) }
  | .notify i => (notifyJobComplete g i).map (·.1)

def groupRun (g : JobGroup) (es : List GroupEvent) : Except String JobGroup :=
  es.foldlM groupStep g

/-- An interleaving in which each job below `n` finishes once and is notified once, after
its own finish, and no other job takes part. -/
def ValidInterleaving (n : Nat) (es : List GroupEvent) : Prop :=
  (∀ e ∈ es, e.job < n) ∧ ∀ i < n,
    es.countP (GroupEvent.isFinishOf i) = 1 ∧ es.countP (GroupEvent.isNotifyOf i) = 1 ∧
      es.findIdx (GroupEvent.isFinishOf i) < es.findIdx (GroupEvent.isNotifyOf i)

instance (n : Nat) (es : List GroupEvent) : Decidable (ValidInterleaving n es) := by
  unfold ValidInterleaving; infer_instance

/-- The first of two jobs succeeds, and the second fails before the first's notification
is handled. -/
def failedSiblingTrace : List GroupEvent :=
  [.finish 0 true, .finish 1 false, .notify 0, .notify 1]

theorem notifyJobComplete_asserts_on_failed_sibling (cf cc : Bool) :
    ValidInterleaving 2 failedSiblingTrace ∧
      groupRun (addJobGroup 2 cf cc) failedSiblingTrace = .error "AssertionError" :=
  ⟨by decide, by cases cf <;> cases cc <;> rfl⟩

theorem groupRun_cons (g : JobGroup) (e : GroupEvent) (es : List GroupEvent) :
    groupRun g (e :: es) = groupStep g e >>= fun g' => groupRun g' es := rfl

section AllSucceed

/-- Every finish in `es` is a success, and every job `es` notifies is below `n` and has
finished before, in `es` or among `done`. -/
def SucceedsBeforeNotify (n : Nat) : List Nat → List GroupEvent → Prop
  | _, [] => True
  | done, .finish i ok :: es => i < n ∧ ok = true ∧ SucceedsBeforeNotify n (i :: done) es
  | done, .notify i :: es => i < n ∧ i ∈ done ∧ SucceedsBeforeNotify n done es

/-- A group of `n` jobs none of which failed, in which the jobs of `done` have succeeded. -/
structure JobGroup.Healthy (n : Nat) (done : List Nat) (g : JobGroup) : Prop where
  length : g.jobs.length = n
  not_failed : g.status ≠ .failed
  no_failed_job : .failed ∉ g.jobs
  done_succeeded : ∀ i ∈ done, i < n → g.jobs[i]? = some .succeeded

theorem checkFinished_ok {l : List JobStatus} (h : .failed ∉ l) :
    checkFinished l = .ok (l.all (· = .succeeded)) := by
  induction l with
  | nil => rfl
  | cons s l ih =>
    have hs : s ≠ .failed := fun e => h (e ▸ List.mem_cons_self _ _)
    have hl : .failed ∉ l := fun e => h (List.mem_cons_of_mem _ e)
    by_cases hsucc : s = .succeeded
    · simp [checkFinished, hs, hsucc, ih hl]
    · simp [checkFinished, hs, hsucc]

theorem healthy_addJobGroup (n : Nat) (cf cc : Bool) : (addJobGroup n cf cc).Healthy n [] :=
  ⟨by simp [addJobGroup], by simp [addJobGroup], by simp [addJobGroup, List.mem_replicate],
    by simp⟩

theorem JobGroup.Healthy.finish {n : Nat} {done : List Nat} {g : JobGroup} (h : g.Healthy n done)
    {i : Nat} (hi : i < n) :
    JobGroup.Healthy n (i :: done) { g with jobs := g.jobs.set i .succeeded } := by
  refine ⟨by simp [h.length], h.not_failed, fun hm => ?_, fun k hk hkn => ?_⟩
  · rcases List.mem_or_eq_of_mem_set hm with hm | hm
    exacts [h.no_failed_job hm, JobStatus.noConfusion hm]
  · rcases List.mem_cons.1 hk with rfl | hk
    · simp [List.getElem?_set, h.length, hkn]
    · by_cases hik : i = k
      · subst hik; simp [List.getElem?_set, h.length, hkn]
      · rw [List.getElem?_set_ne hik]; exact h.done_succeeded k hk hkn

theorem JobGroup.Healthy.notify {n : Nat} {done : List Nat} {g : JobGroup} (h : g.Healthy n done)
    {i : Nat} (hi : i < n) (hd : i ∈ done) :
    ∃ g', groupStep g (.notify i) = .ok g' ∧ g'.Healthy n done ∧
      (g'.status = .succeeded ↔ g.status = .succeeded ∨ g.jobs.all (· = .succeeded)) := by
  have hsucc := h.done_succeeded i hd hi
  simp only [groupStep, notifyJobComplete, h.not_failed, hsucc, if_false, ne_eq,
    not_true_eq_false, reduceCtorEq, Option.some.injEq, checkFinished_ok h.no_failed_job]
  by_cases hall : g.jobs.all (· = .succeeded) = true
  · refine ⟨{ g with status := .succeeded }, ?_,
      ⟨h.length, by simp, h.no_failed_job, h.done_succeeded⟩, by simp [hall]⟩
    simp [hall, bind, Except.bind, pure, Except.pure, Except.map]
  · refine ⟨g, ?_, h, by simp [hall]⟩
    simp [hall, bind, Except.bind, pure, Except.pure, Except.map]

theorem JobGroup.Healthy.mono {n : Nat} {done done' : List Nat} {g : JobGroup}
    (h : g.Healthy n done) (hd : ∀ i ∈ done', i ∈ done) : g.Healthy n done' :=
  ⟨h.length, h.not_failed, h.no_failed_job, fun i hi => h.done_succeeded i (hd i hi)⟩

/-- The jobs `es` finishes. -/
def finishedJobs (es : List GroupEvent) : List Nat :=
  es.filterMap fun e => match e with
    | .finish i _ => some i
    | .notify _ => none

theorem groupRun_healthy (n : Nat) (es : List GroupEvent) :
    ∀ (done : List Nat) (g : JobGroup), g.Healthy n done → SucceedsBeforeNotify n done es →
      ∃ g', groupRun g es = .ok g' ∧ g'.Healthy n (finishedJobs es ++ done) := by
  induction es with
  | nil => exact fun done g h _ => ⟨g, rfl, h⟩
  | cons e es ih =>
    intro done g h hes
    cases e with
    | finish i ok =>
      obtain ⟨hi, rfl, hes⟩ := hes
      obtain ⟨g', hg', hh'⟩ := ih _ _ (h.finish hi) hes
      refine ⟨g', by rw [groupRun_cons]; exact hg', hh'.mono fun k hk => ?_⟩
      simp only [finishedJobs, List.filterMap_cons, List.cons_append, List.mem_cons,
        List.mem_append] at hk ⊢
      tauto
    | notify i =>
      obtain ⟨hi, hd, hes⟩ := hes
      obtain ⟨g₁, hstep, hh, -⟩ := h.notify hi hd
      obtain ⟨g', hg', hh'⟩ := ih _ _ hh hes
      exact ⟨g', by rw [groupRun_cons, hstep]; exact hg', hh'⟩

theorem SucceedsBeforeNotify.mono {n : Nat} (es : List GroupEvent) :
    ∀ {done done' : List Nat}, SucceedsBeforeNotify n done es → (∀ x ∈ done, x ∈ done') →
      SucceedsBeforeNotify n done' es := by
  induction es with
  | nil => exact fun _ _ => trivial
  | cons e es ih =>
    intro done done' h hd
    cases e with
    | finish i ok =>
      exact ⟨h.1, h.2.1, ih h.2.2 fun x hx => by
        rcases List.mem_cons.1 hx with rfl | hx
        exacts [List.mem_cons_self _ _, List.mem_cons_of_mem _ (hd x hx)]⟩
    | notify i => exact ⟨h.1, hd i h.2.1, ih h.2.2 hd⟩

theorem SucceedsBeforeNotify.append {n : Nat} (pre : List GroupEvent) :
    ∀ {done : List Nat} {post : List GroupEvent}, SucceedsBeforeNotify n done (pre ++ post) →
      SucceedsBeforeNotify n done pre ∧ SucceedsBeforeNotify n (finishedJobs pre ++ done) post := by
  induction pre with
  | nil => exact fun h => ⟨trivial, h⟩
  | cons e pre ih =>
    intro done post h
    cases e with
    | finish i ok =>
      obtain ⟨h₁, h₂⟩ := ih h.2.2
      refine ⟨⟨h.1, h.2.1, h₁⟩, h₂.mono _ fun x hx => ?_⟩
      simp only [finishedJobs, List.filterMap_cons, List.mem_append, List.mem_cons] at hx ⊢
      tauto
    | notify i =>
      obtain ⟨h₁, h₂⟩ := ih h.2.2
      exact ⟨⟨h.1, h.2.1, h₁⟩, h₂⟩

theorem groupRun_all_succeed (n : Nat) (cf cc : Bool) (pre : List GroupEvent) (i : Nat)
    (hes : SucceedsBeforeNotify n [] (pre ++ [.notify i]))
    (hall : ∀ k < n, k ∈ finishedJobs pre) :
    (∃ g, groupRun (addJobGroup n cf cc) pre = .ok g ∧ g.status ≠ .failed) ∧
      ∃ g, groupRun (addJobGroup n cf cc) (pre ++ [.notify i]) = .ok g ∧ g.status = .succeeded := by
  obtain ⟨hpre, hi, hd, -⟩ := SucceedsBeforeNotify.append pre hes
  obtain ⟨g, hg, hh⟩ := groupRun_healthy n pre [] _ (healthy_addJobGroup n cf cc) hpre
  obtain ⟨g', hstep, -, hst⟩ := hh.notify hi hd
  have hall' : g.jobs.all (· = .succeeded) = true := by
    refine List.all_eq_true.2 fun s hs => ?_
    obtain ⟨k, hk, rfl⟩ := List.getElem_of_mem hs
    have := hh.done_succeeded k (List.mem_append_left _ (hall k (hh.length ▸ hk))) (hh.length ▸ hk)
    simpa [List.getElem?_eq_getElem hk] using this
  refine ⟨⟨g, hg, hh.not_failed⟩, g', ?_, hst.2 (.inr hall')⟩
  simp only [groupRun, List.foldlM_append] at hg ⊢
  rw [hg]
  simp [bind, Except.bind, hstep, pure, Except.pure]

theorem two_jobs_succeed :
    SucceedsBeforeNotify 2 [] ([.finish 0 true, .finish 1 true, .notify 0] ++ [.notify 1]) ∧
      (∀ k < 2, k ∈ finishedJobs [.finish 0 true, .finish 1 true, .notify 0]) ∧
      (∃ g, groupRun (addJobGroup 2 false false) [.finish 0 true, .finish 1 true, .notify 0] =
        .ok g ∧ g.status ≠ .failed) ∧
      ∃ g, groupRun (addJobGroup 2 false false)
        ([.finish 0 true, .finish 1 true, .notify 0] ++ [.notify 1]) = .ok g ∧
        g.status = .succeeded := by
  have hes : SucceedsBeforeNotify 2 [] ([.finish 0 true, .finish 1 true, .notify 0] ++
      [.notify 1]) := by simp [SucceedsBeforeNotify]
  have hall : ∀ k < 2, k ∈ finishedJobs [.finish 0 true, .finish 1 true, .notify 0] := by decide
  exact ⟨hes, hall, groupRun_all_succeed 2 false false _ 1 hes hall⟩

end AllSucceed

section Calls

/-- One event with the calls it makes on the job manager. -/
def groupStepCalls (g : JobGroup) : GroupEvent → Except String (JobGroup × List ManagerCall)
  | .finish i ok => .ok ({ g with jobs := g.jobs.set i (if ok then .succeeded else .failed) }, [])
  | .notify i => notifyJobComplete g i

/-- A run with every call `NotifyJobComplete` makes on the job manager, in order. -/
def groupRunCalls : JobGroup → List GroupEvent → Except String (JobGroup × List ManagerCall)
  | g, [] => .ok (g, [])
  | g, e :: es =>
    match groupStepCalls g e with
    | .error msg => .error msg
    | .ok (g₁, c₁) =>
      match groupRunCalls g₁ es with
      | .error msg => .error msg
      | .ok (g₂, c₂) => .ok (g₂, c₁ ++ c₂)

theorem groupRunCalls_cons_ok {g g' : JobGroup} {e : GroupEvent} {es : List GroupEvent}
    {calls : List ManagerCall} (h : groupRunCalls g (e :: es) = .ok (g', calls)) :
    ∃ g₁ c₁ c₂, groupStepCalls g e = .ok (g₁, c₁) ∧ groupRunCalls g₁ es = .ok (g', c₂) ∧
      calls = c₁ ++ c₂ := by
  simp only [groupRunCalls] at h
  split at h
  · cases h
  · split at h
    · cases h
    · cases h; exact ⟨_, _, _, ‹_›, ‹_›, rfl⟩

theorem groupRunCalls_failed (es : List GroupEvent) :
    ∀ {g g' : JobGroup} {calls : List ManagerCall}, g.status = .failed →
      groupRunCalls g es = .ok (g', calls) → calls = [] := by
  induction es with
  | nil => intro g g' calls _ h; cases h; rfl
  | cons e es ih =>
    intro g g' calls hg h
    obtain ⟨g₁, c₁, c₂, h₁, h₂, rfl⟩ := groupRunCalls_cons_ok h
    cases e with
    | finish i ok => cases h₁; simpa using ih (by exact hg) h₂
    | notify i =>
      simp only [groupStepCalls, notifyJobComplete, hg, if_true] at h₁
      cases h₁
      simpa using ih hg h₂

theorem nodup_failureCalls (n : Nat) :
    ((List.range n).flatMap fun k => [ManagerCall.killJob k, .cleanUpJob k]).Nodup :=
  List.nodup_flatMap.2 ⟨fun _ _ => by simp, (List.nodup_range n).imp fun hne => by
    simp [Function.onFun, Ne.symm hne]⟩

theorem notifyJobComplete_kills {g g₁ : JobGroup} {i : Nat} {c : List ManagerCall}
    (h : notifyJobComplete g i = .ok (g₁, c)) :
    (∀ k, .killJob k ∉ c) ∨ (g₁.status = .failed ∧ ∀ k, c.count (.killJob k) ≤ 1) := by
  unfold notifyJobComplete at h
  by_cases hf : g.status = .failed
  · rw [if_pos hf] at h; cases h; exact .inl fun _ => List.not_mem_nil _
  rw [if_neg hf] at h
  by_cases hi : g.jobs[i]? = some .failed
  · -- the failure branch: the group fails, and each job is killed once if at all
    rw [if_pos hi] at h
    cases h
    refine .inr ⟨rfl, fun k => List.nodup_iff_count_le_one.1 ?_ _⟩
    split
    exacts [nodup_failureCalls _, List.nodup_nil]
  rw [if_neg hi] at h
  -- the success branch: at most the cleanups after completion
  refine .inl fun k hk => ?_
  split_ifs at h <;> cases hc : checkFinished g.jobs <;>
    simp only [hc, bind, Except.bind, pure, Except.pure, reduceCtorEq] at h <;>
    split_ifs at h <;> cases h <;> simp at hk

/-- Both jobs fail, each one notified after it finishes. -/
def bothFailTrace : List GroupEvent := [.finish 0 false, .notify 0, .finish 1 false, .notify 1]

/-- Every job finishes, with success, and only then is every job notified. -/
def finishAllThenNotify (n : Nat) : List GroupEvent :=
  (List.range n).map (fun i => .finish i true) ++ (List.range n).map .notify

theorem groupRunCalls_append_ok {g g₁ : JobGroup} {xs : List GroupEvent}
    {c₁ : List ManagerCall} (ys : List GroupEvent) (h : groupRunCalls g xs = .ok (g₁, c₁)) :
    groupRunCalls g (xs ++ ys) = (groupRunCalls g₁ ys).map fun r => (r.1, c₁ ++ r.2) := by
  induction xs generalizing g c₁ with
  | nil => cases h; rw [List.nil_append]; cases groupRunCalls g₁ ys <;> rfl
  | cons e xs ih =>
    obtain ⟨g₂, c₂, c₃, h₂, h₃, rfl⟩ := groupRunCalls_cons_ok h
    rw [List.cons_append, groupRunCalls, h₂]
    dsimp only
    rw [ih h₃]
    cases groupRunCalls g₁ ys <;> simp [Except.map]

theorem groupRunCalls_finishes (g : JobGroup) (L : List Nat) :
    groupRunCalls g (L.map fun i => .finish i true) =
      .ok ({ g with jobs := L.foldl (fun js i => js.set i .succeeded) g.jobs }, []) := by
  induction L generalizing g with
  | nil => rfl
  | cons i L ih => simp [groupRunCalls, groupStepCalls, ih]

theorem foldl_set_range (m : Nat) (l : List JobStatus) (hm : m ≤ l.length) :
    (List.range m).foldl (fun js i => js.set i .succeeded) l =
      List.replicate m .succeeded ++ l.drop m := by
  induction m with
  | zero => rfl
  | succ m ih =>
    rw [List.range_succ, List.foldl_append, ih (by omega), List.foldl_cons, List.foldl_nil,
      List.set_append_right _ _ (by simp), List.length_replicate, Nat.sub_self,
      List.drop_eq_getElem_cons (by omega), List.set_cons_zero, List.replicate_succ',
      List.append_assoc, List.singleton_append]

theorem groupRunCalls_notify_all_succeeded (N : Nat) (L : List Nat) (hL : ∀ i ∈ L, i < N) :
    ∀ g : JobGroup, g.jobs = List.replicate N .succeeded → g.status ≠ .failed →
      g.cleanupOnCompletion = true →
      ∃ g', groupRunCalls g (L.map .notify) =
          .ok (g', L.flatMap fun _ => (List.range N).map .cleanUpJob) ∧
        g'.status = if L = [] then g.status else .succeeded := by
  induction L with
  | nil => exact fun g _ _ _ => ⟨g, rfl, rfl⟩
  | cons i L ih =>
    intro g hjobs hf hcc
    have hlen : g.jobs.length = N := by simp [hjobs]
    have hi : g.jobs[i]? = some .succeeded := by
      simp [hjobs, hL i (List.mem_cons_self _ _)]
    have hfin : checkFinished g.jobs = .ok true := by
      rw [checkFinished_ok (by simp [hjobs])]
      simp [hjobs]
    have hstep : groupStepCalls g (.notify i) =
        .ok ({ g with status := .succeeded }, (List.range N).map .cleanUpJob) := by
      simp only [groupStepCalls, notifyJobComplete, hf, hi, hfin, hcc, hlen, if_false,
        reduceCtorEq, Option.some.injEq, ne_eq, not_true_eq_false, bind, Except.bind, if_true,
        pure, Except.pure]
    obtain ⟨g', h', hs'⟩ := ih (fun j hj => hL j (List.mem_cons_of_mem _ hj))
      { g with status := .succeeded } hjobs (by simp) hcc
    refine ⟨g', ?_, by simpa using hs'⟩
    simp only [List.map_cons, groupRunCalls, hstep, h', List.flatMap_cons]

theorem count_cleanUpJob_flatMap (n k : Nat) (hk : k < n) (L : List Nat) :
    (L.flatMap fun _ => (List.range n).map ManagerCall.cleanUpJob).count (.cleanUpJob k) =
      L.length := by
  induction L with
  | nil => rfl
  | cons i L ih =>
    rw [List.flatMap_cons, List.count_append, ih, List.length_cons, Nat.add_comm,
      List.count_eq_one_of_mem ((List.nodup_range n).map fun _ _ h => by cases h; rfl)
        (List.mem_map_of_mem _ (List.mem_range.2 hk))]

theorem groupRunCalls_cleans_up_per_notification (n : Nat) (cleanupOnFailure : Bool) :
    ∃ (g : JobGroup) (calls : List ManagerCall),
      groupRunCalls (addJobGroup n cleanupOnFailure true) (finishAllThenNotify n) =
        .ok (g, calls) ∧
      calls = (List.range n).flatMap (fun _ => (List.range n).map .cleanUpJob) ∧
      (∀ k < n, calls.count (.cleanUpJob k) = n) ∧ (0 < n → g.status = .succeeded) := by
  have hjobs : (List.range n).foldl (fun js i => js.set i .succeeded)
      (List.replicate n JobStatus.running) = List.replicate n .succeeded := by
    rw [foldl_set_range n _ (by simp), List.drop_replicate, Nat.sub_self, List.replicate_zero,
      List.append_nil]
  have hfin := groupRunCalls_finishes (addJobGroup n cleanupOnFailure true) (List.range n)
  simp only [addJobGroup, hjobs] at hfin
  obtain ⟨g, hg, hs⟩ := groupRunCalls_notify_all_succeeded n (List.range n)
    (fun _ => List.mem_range.1) ⟨.executing, _, cleanupOnFailure, true⟩ rfl (by simp) rfl
  refine ⟨g, _, ?_, rfl, fun k hk => ?_, fun hn => ?_⟩
  · rw [finishAllThenNotify, addJobGroup, groupRunCalls_append_ok _ hfin, hg]
    rfl
  · rw [count_cleanUpJob_flatMap n k hk, List.length_range]
  · simpa [List.range_eq_nil, hn.ne'] using hs

end Calls

end ToolchainUtils.V14
