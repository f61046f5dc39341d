import Mathlib.Data.List.Basic

/-!
`utils/command_executer.py`: `CommandExecuter.RunCommand`, its `while len(pipes)` loop over
the two pipes of the command with the command terminator and the two timeouts. The process,
`poll` and the clock are outside the model: each round of the loop is what they answer then,
`time.time()` is a whole number of seconds, and strings are lists of characters.
-/

set_option autoImplicit false

namespace ToolchainUtils.Utils

section Loop

/-- `p.stdout` or `p.stderr`. -/
inductive Pipe where
  | stdout
  | stderr
  deriving DecidableEq, Repr

/-- One round of the loop as the world answers it: whether the command terminator is set,
the `os.read` of each descriptor `poll` reports (only registered ones), in order, whether
`p.poll()` finds the process exited, and `time.time()`. -/
structure Round where
  terminated : Bool
  reads : List (Pipe × List Char)
  exited : Bool
  now : Int
  deriving DecidableEq, Repr

structure RunState where
  pipes : List Pipe
  out : Option (List Char)
  err : Option (List Char)
  fullStdout : List Char
  fullStderr : List Char
  terminatedTime : Option Int
  deriving DecidableEq, Repr

/-- The state before the loop: both pipes open, `out = err = None`. -/
def RunState.init : RunState := ⟨[.stdout, .stderr], none, none, [], [], none⟩

/-- The body of `for (fd, evt) in l` for one read: the output is kept with `return_output`,
and an empty read closes the pipe. -/
def RunState.read (returnOutput : Bool) (s : RunState) : Pipe × List Char → RunState
  | (.stdout, out) =>
    { s with out := some out
             fullStdout := if returnOutput then s.fullStdout ++ out else s.fullStdout
             pipes := if out = [] then s.pipes.erase .stdout else s.pipes }
  | (.stderr, err) =>
    { s with err := some err
             fullStderr := if returnOutput then s.fullStderr ++ err else s.fullStderr
             pipes := if err = [] then s.pipes.erase .stderr else s.pipes }

inductive LoopExit where
  | killed
  | drained
  | exitTimeout
  | commandTimeout
  | bothEnded
  deriving DecidableEq, Repr

/-- The check after `p.poll()`: the time the process was first seen exited, and whether
`terminated_timeout` has passed since. -/
def exitCheck (terminatedTimeout : Option Int) (s : RunState) (r : Round) : RunState × Bool :=
  if r.exited then
    match s.terminatedTime with
    | none => ({ s with terminatedTime := some r.now }, false)
    | some t => (s, match terminatedTimeout with
        | some tt => decide (r.now - t > tt)
        | none => false)
  else (s, false)

/-- The `while len(pipes)` loop of `RunCommand` over the rounds: the state it ends in and how
it ended, or `none` when the rounds run out first. -/
def runCommandLoop (returnOutput hasTerminator : Bool) (commandTimeout terminatedTimeout : Option Int)
    (startedTime : Int) (s : RunState) : List Round → Option (RunState × LoopExit)
  | [] => if s.pipes = [] then some (s, .drained) else none
  | r :: rs =>
    if s.pipes = [] then some (s, .drained)
    else if hasTerminator && r.terminated then some (s, .killed)
    else
      let (s, exitTimedOut) := exitCheck terminatedTimeout (r.reads.foldl (RunState.read returnOutput) s) r
      if exitTimedOut then some (s, .exitTimeout)
      else if (match commandTimeout with
          | some ct => decide (r.now - startedTime > ct)
          | none => false) then some (s, .commandTimeout)
      else if s.out = some [] ∧ s.err = some [] then some (s, .bothEnded)
      else runCommandLoop returnOutput hasTerminator commandTimeout terminatedTimeout startedTime s rs

/-- The first item of a returned triple: `p.returncode`, or the method `p.wait` itself. -/
inductive RetCode where
  | code (retval : Int)
  | waitMethod
  deriving DecidableEq, Repr

/-- What `RunCommand` returns: the status alone, or with `return_output` a triple. -/
inductive CommandResult where
  | status (retval : Int)
  | output (retval : RetCode) (stdout stderr : List Char)
  deriving DecidableEq, Repr

/-- `RunCommand` as the world answers it: `hasTerminator` is whether a command terminator
was passed, `terminatedAtStart` what it answers before the command starts, and `returncode`
what `p.wait()` returns. -/
def runCommand (returnOutput hasTerminator terminatedAtStart : Bool)
    (commandTimeout terminatedTimeout : Option Int) (startedTime : Int) (rounds : List Round)
    (returncode : Int) : Option CommandResult :=
  if hasTerminator && terminatedAtStart then
    some (if returnOutput then .output (.code 1) [] [] else .status 1)
  else match runCommandLoop returnOutput hasTerminator commandTimeout terminatedTimeout
      startedTime .init rounds with
    | none => none
    | some (s, .killed) =>
      some (if returnOutput then .output .waitMethod s.fullStdout s.fullStderr else .status returncode)
    | some (s, _) =>
      some (if returnOutput then .output (.code returncode) s.fullStdout s.fullStderr
        else .status returncode)

end Loop

section Output

/-- What the reads of one round gave on pipe `p`, in order. -/
def pipeOutput (p : Pipe) : List (Pipe × List Char) → List Char
  | [] => []
  | (q, chunk) :: reads => (if q = p then chunk else []) ++ pipeOutput p reads

/-- What the rounds' reads gave on pipe `p`, in order. -/
def roundsOutput (p : Pipe) (rounds : List Round) : List Char :=
  rounds.flatMap fun r => pipeOutput p r.reads

@[simp] theorem roundsOutput_nil (p : Pipe) : roundsOutput p [] = [] := rfl

theorem roundsOutput_take_succ (p : Pipe) (r : Round) (rs : List Round) (k : Nat) :
    roundsOutput p ((r :: rs).take (k + 1)) = pipeOutput p r.reads ++ roundsOutput p (rs.take k) :=
  rfl

theorem ite_nil_append (b : Bool) (x y : List Char) :
    ((if b then x else []) ++ if b then y else []) = if b then x ++ y else [] := by
  cases b <;> rfl

variable (returnOutput : Bool)

theorem foldl_read_output (reads : List (Pipe × List Char)) :
    ∀ s : RunState,
      (reads.foldl (RunState.read returnOutput) s).fullStdout =
          s.fullStdout ++ (if returnOutput then pipeOutput .stdout reads else []) ∧
        (reads.foldl (RunState.read returnOutput) s).fullStderr =
          s.fullStderr ++ (if returnOutput then pipeOutput .stderr reads else []) := by
  induction reads with
  | nil => intro s; simp [pipeOutput]
  | cons qc reads ih =>
    intro s
    obtain ⟨q, chunk⟩ := qc
    obtain ⟨h₁, h₂⟩ := ih (RunState.read returnOutput s (q, chunk))
    rw [List.foldl_cons, h₁, h₂]
    cases q <;> cases returnOutput <;> simp [RunState.read, pipeOutput]

theorem exitCheck_output (terminatedTimeout : Option Int) (s : RunState) (r : Round) :
    (exitCheck terminatedTimeout s r).1.fullStdout = s.fullStdout ∧
      (exitCheck terminatedTimeout s r).1.fullStderr = s.fullStderr := by
  unfold exitCheck
  split
  · split <;> exact ⟨rfl, rfl⟩
  · exact ⟨rfl, rfl⟩

variable (hasTerminator : Bool) (commandTimeout terminatedTimeout : Option Int) (startedTime : Int)

theorem runCommandLoop_cons (s : RunState) (r : Round) :
    (s.pipes = [] ∧ ∀ rs, runCommandLoop returnOutput hasTerminator commandTimeout
      terminatedTimeout startedTime s (r :: rs) = some (s, .drained)) ∨
    (s.pipes ≠ [] ∧ ∀ rs, runCommandLoop returnOutput hasTerminator commandTimeout
      terminatedTimeout startedTime s (r :: rs) = some (s, .killed)) ∨
    (s.pipes ≠ [] ∧ ∃ e ≠ LoopExit.killed, ∀ rs, runCommandLoop returnOutput hasTerminator
      commandTimeout terminatedTimeout startedTime s (r :: rs) =
        some ((exitCheck terminatedTimeout (r.reads.foldl (RunState.read returnOutput) s) r).1, e)) ∨
    (s.pipes ≠ [] ∧ (∀ ct, commandTimeout = some ct → r.now - startedTime ≤ ct) ∧
      ∀ rs, runCommandLoop returnOutput hasTerminator commandTimeout terminatedTimeout startedTime
          s (r :: rs) =
        runCommandLoop returnOutput hasTerminator commandTimeout terminatedTimeout startedTime
          (exitCheck terminatedTimeout (r.reads.foldl (RunState.read returnOutput) s) r).1 rs) := by
  simp only [runCommandLoop]
  by_cases hp : s.pipes = []
  · exact .inl ⟨hp, fun _ => if_pos hp⟩
  refine .inr ?_
  simp only [hp, if_false, ne_eq, not_false_eq_true, true_and]
  by_cases ht : (hasTerminator && r.terminated) = true
  · exact .inl fun _ => if_pos ht
  refine .inr ?_
  simp only [ht, if_false, Bool.false_eq_true]
  generalize exitCheck terminatedTimeout (r.reads.foldl (RunState.read returnOutput) s) r = p
  obtain ⟨s₁, x⟩ := p
  dsimp only
  by_cases hx : x = true
  · exact .inl ⟨.exitTimeout, by decide, fun _ => by simp [hx]⟩
  by_cases hct : (match commandTimeout with
      | some ct => decide (r.now - startedTime > ct)
      | none => false) = true
  · exact .inl ⟨.commandTimeout, by decide, fun _ => by simp [hx, hct]⟩
  by_cases hb : s₁.out = some [] ∧ s₁.err = some []
  · exact .inl ⟨.bothEnded, by decide, fun _ => by simp [hx, hct, hb]⟩
  refine .inr ⟨fun ct h => ?_, fun _ => by simp [hx, hct, hb]⟩
  subst h
  exact Int.not_lt.1 (by simpa using hct)

theorem runCommandLoop_output (rounds : List Round) :
    ∀ {s s' : RunState} {e : LoopExit},
      runCommandLoop returnOutput hasTerminator commandTimeout terminatedTimeout startedTime s
          rounds = some (s', e) →
        ∃ n ≤ rounds.length,
          s'.fullStdout = s.fullStdout ++
              (if returnOutput then roundsOutput .stdout (rounds.take n) else []) ∧
            s'.fullStderr = s.fullStderr ++
              (if returnOutput then roundsOutput .stderr (rounds.take n) else []) ∧
            (∀ j < n + (if e = .killed then 1 else 0), runCommandLoop returnOutput hasTerminator
              commandTimeout terminatedTimeout startedTime s (rounds.take j) = none) ∧
            runCommandLoop returnOutput hasTerminator commandTimeout terminatedTimeout startedTime
              s (rounds.take (n + if e = .killed then 1 else 0)) = some (s', e) := by
  induction rounds with
  | nil =>
    intro s s' e h
    simp only [runCommandLoop] at h
    split at h <;> cases h
    exact ⟨0, le_rfl, by simp, by simp, by simp, by simpa [runCommandLoop]⟩
  | cons r rs ih =>
    intro s s' e h
    -- the state after this round's reads and its exit check
    obtain ⟨hr₁, hr₂⟩ := foldl_read_output returnOutput r.reads s
    obtain ⟨hx₁, hx₂⟩ := exitCheck_output terminatedTimeout
      (r.reads.foldl (RunState.read returnOutput) s) r
    have hnil : ∀ {s₀ : RunState}, s₀.pipes ≠ [] → runCommandLoop returnOutput hasTerminator
        commandTimeout terminatedTimeout startedTime s₀ [] = none :=
      fun hp => by simp [runCommandLoop, hp]
    rcases runCommandLoop_cons returnOutput hasTerminator commandTimeout terminatedTimeout
      startedTime s r with ⟨hp, he⟩ | ⟨hp, he⟩ | ⟨hp, e₁, hke, he⟩ | ⟨hp, -, he⟩ <;>
      rw [he] at h
    · -- drained before the round
      cases h
      exact ⟨0, Nat.zero_le _, by simp, by simp, by simp, by simp [runCommandLoop, hp]⟩
    · -- killed before the round's reads
      cases h
      refine ⟨0, Nat.zero_le _, by simp, by simp, fun j hj => ?_, he []⟩
      obtain rfl : j = 0 := by simpa using hj
      exact hnil hp
    · -- stopped after the round's reads
      cases h
      refine ⟨1, by simp, ?_, ?_, fun j hj => ?_, by simpa [hke] using he []⟩
      · rw [hx₁, hr₁, roundsOutput_take_succ, List.take_zero, roundsOutput_nil, List.append_nil]
      · rw [hx₂, hr₂, roundsOutput_take_succ, List.take_zero, roundsOutput_nil, List.append_nil]
      · obtain rfl : j = 0 := by simpa [hke] using hj
        exact hnil hp
    · -- the loop goes on from the state after this round
      obtain ⟨n, hn, h₁, h₂, hmin, hstop⟩ := ih h
      refine ⟨n + 1, by simp [hn], ?_, ?_, fun j hj => ?_, ?_⟩
      · rw [h₁, hx₁, hr₁, roundsOutput_take_succ, List.append_assoc, ite_nil_append]
      · rw [h₂, hx₂, hr₂, roundsOutput_take_succ, List.append_assoc, ite_nil_append]
      · cases j with
        | zero => exact hnil hp
        | succ j => rw [List.take_succ_cons, he]; exact hmin j (by omega)
      · rw [Nat.add_right_comm, List.take_succ_cons, he, hstop]

theorem runCommand_output (terminatedAtStart : Bool) (rounds : List Round) (returncode : Int)
    (retval : RetCode) (stdout stderr : List Char)
    (h : runCommand true hasTerminator terminatedAtStart commandTimeout terminatedTimeout
      startedTime rounds returncode = some (.output retval stdout stderr)) :
    ((hasTerminator && terminatedAtStart) = true ∧ stdout = [] ∧ stderr = []) ∨
    ∃ n ≤ rounds.length,
      stdout = roundsOutput .stdout (rounds.take n) ∧
      stderr = roundsOutput .stderr (rounds.take n) ∧
      (∀ j < n + (if retval = .waitMethod then 1 else 0), runCommandLoop true hasTerminator
        commandTimeout terminatedTimeout startedTime .init (rounds.take j) = none) ∧
      runCommandLoop true hasTerminator commandTimeout terminatedTimeout startedTime .init
          (rounds.take (n + if retval = .waitMethod then 1 else 0)) =
        runCommandLoop true hasTerminator commandTimeout terminatedTimeout startedTime .init
          rounds := by
  unfold runCommand at h
  by_cases hs : (hasTerminator && terminatedAtStart) = true
  · rw [if_pos hs, if_pos rfl] at h
    cases h
    exact .inl ⟨hs, rfl, rfl⟩
  rw [if_neg hs] at h
  refine .inr ?_
  split at h
  · cases h
  · -- killed by the terminator: the triple holds the method where the return code belongs
    rw [if_pos rfl] at h
    cases h
    rename_i hloop
    obtain ⟨n, hn, h₁, h₂, hmin, hstop⟩ := runCommandLoop_output true hasTerminator
      commandTimeout terminatedTimeout startedTime rounds hloop
    refine ⟨n, hn, by simpa [RunState.init] using h₁, by simpa [RunState.init] using h₂,
      by simpa using hmin, ?_⟩
    rw [hloop]
    simpa using hstop
  · rw [if_pos rfl] at h
    cases h
    rename_i e hkill hloop
    have he : e ≠ .killed := hkill
    obtain ⟨n, hn, h₁, h₂, hmin, hstop⟩ := runCommandLoop_output true hasTerminator
      commandTimeout terminatedTimeout startedTime rounds hloop
    refine ⟨n, hn, by simpa [RunState.init] using h₁, by simpa [RunState.init] using h₂,
      by simpa [he] using hmin, ?_⟩
    rw [hloop]
    simpa [he] using hstop

/-- Both pipes read in the first round, both ended in the second. -/
def twoRoundRun : List Round :=
  [⟨false, [(.stdout, ['h', 'i']), (.stderr, ['!'])], false, 0⟩,
    ⟨false, [(.stdout, []), (.stderr, [])], true, 1⟩]

theorem two_round_run_keeps_output :
    runCommand true false false none (some 10) 0 twoRoundRun 0 =
        some (.output (.code 0) ['h', 'i'] ['!']) ∧
      (((false && false) = true ∧ ['h', 'i'] = [] ∧ ['!'] = []) ∨
      ∃ n ≤ twoRoundRun.length,
        ['h', 'i'] = roundsOutput .stdout (twoRoundRun.take n) ∧
        ['!'] = roundsOutput .stderr (twoRoundRun.take n) ∧
        (∀ j < n + (if RetCode.code 0 = .waitMethod then 1 else 0), runCommandLoop true false none
          (some 10) 0 .init (twoRoundRun.take j) = none) ∧
        runCommandLoop true false none (some 10) 0 .init
            (twoRoundRun.take (n + if RetCode.code 0 = .waitMethod then 1 else 0)) =
          runCommandLoop true false none (some 10) 0 .init twoRoundRun) :=
  have h : runCommand true false false none (some 10) 0 twoRoundRun 0 =
      some (.output (.code 0) ['h', 'i'] ['!']) := by decide
  ⟨h, runCommand_output false none (some 10) 0 false twoRoundRun 0 _ _ _ h⟩

end Output

section Termination

variable (returnOutput hasTerminator : Bool) (terminatedTimeout : Option Int) (startedTime : Int)
  (commandTimeout : Int)

theorem runCommandLoop_ends_of_late_round (rounds : List Round) :
    ∀ (s : RunState) (d : Nat),
      (∀ i (hi : i < rounds.length), startedTime + (d + i) ≤ (rounds.get ⟨i, hi⟩).now) →
      (∃ i < rounds.length, commandTimeout < d + i) →
      (runCommandLoop returnOutput hasTerminator (some commandTimeout) terminatedTimeout
        startedTime s rounds).isSome := by
  induction rounds with
  | nil => intro s d _ ⟨i, hi, _⟩; exact absurd hi (Nat.not_lt_zero _)
  | cons r rs ih =>
    intro s d htime ⟨i, hi, hlate⟩
    have hnow : startedTime + d ≤ r.now := by simpa using htime 0 (by simp)
    rcases runCommandLoop_cons returnOutput hasTerminator (some commandTimeout) terminatedTimeout
      startedTime s r with ⟨-, he⟩ | ⟨-, he⟩ | ⟨-, _, -, he⟩ | ⟨-, htimeout, he⟩ <;> rw [he]
    · rfl
    · rfl
    · rfl
    -- the round did not time out, so the late round is a later one
    have hearly : r.now - startedTime ≤ commandTimeout := htimeout _ rfl
    cases i with
    | zero => omega
    | succ j =>
      have hrest : ∀ k (hk : k < rs.length), startedTime + ((d + 1 : Nat) + k) ≤ (rs.get ⟨k, hk⟩).now :=
        fun k hk => by
          have := htime (k + 1) (by simp [hk])
          simp only [List.get_eq_getElem, List.getElem_cons_succ] at this ⊢
          omega
      exact ih _ (d + 1) hrest ⟨j, by simpa using hi, by omega⟩

/-- Two silent rounds a second apart, with nothing read and the process running. -/
def silentRounds : List Round := [⟨false, [], false, 0⟩, ⟨false, [], false, 1⟩]

end Termination

end ToolchainUtils.Utils
