import Mathlib.Data.List.DropRight

/-!
`crosperf/suite_runner.py`: the retry loop of `SuiteRunner.Run`, the polling loop of
`SuiteRunner.DownloadResult`, and the DUT dimensions of `Crosfleet_Run`. The commands are
outside the model: each try of a benchmark, and each `gsutil ls` and `cp`, is a function from
its index to what the command executer returns. Strings are lists of characters.
-/

set_option autoImplicit false

namespace ToolchainUtils.Crosperf

section Run

/-- The `(returncode, stdout, stderr)` tuple of a command. -/
abbrev RetTup := Int × List Char × List Char

/-- The `for i in range(0, benchmark.retries + 1)` loop of `SuiteRunner.Run` over the tries
`is`, with the `ret_tup` of the last try: the tries made, in order, and the `ret_tup` left.
`attempt i` is what the `i`-th try (`Crosfleet_Run`, `Tast_Run` or `Test_That_Run`) returns. -/
def runRetries (attempt : Nat → RetTup) : List Nat → Option RetTup → List Nat × Option RetTup
  | [], retTup => ([], retTup)
  | i :: is, _ =>
    let retTup := attempt i
    if retTup.1 ≠ 0 then
      let (tried, last) := runRetries attempt is (some retTup)
      (i :: tried, last)
    else ([i], some retTup)

/-- What `return ret_tup` raises when the loop ran no try. -/
def retTupUnbound : String :=
  "UnboundLocalError: local variable 'ret_tup' referenced before assignment"

/-- `SuiteRunner.Run`: the tries made and the `ret_tup` it returns. -/
def suiteRun (retries : Int) (attempt : Nat → RetTup) : Except String (List Nat × RetTup) :=
  match runRetries attempt (List.range (retries + 1).toNat) none with
  | (tried, some retTup) => .ok (tried, retTup)
  | (_, none) => .error retTupUnbound

theorem runRetries_range' (attempt : Nat → RetTup) (n : Nat) :
    ∀ (s : Nat) (r : Option RetTup), ∃ k ≤ n,
      runRetries attempt (List.range' s (n + 1)) r =
          (List.range' s (k + 1), some (attempt (s + k))) ∧
        (∀ j < k, (attempt (s + j)).1 ≠ 0) ∧ ((attempt (s + k)).1 = 0 ∨ k = n) := by
  induction n with
  | zero => intro s r; exact ⟨0, le_rfl, by simp [runRetries], by simp, .inr rfl⟩
  | succ n ih =>
    intro s r
    by_cases hs : (attempt s).1 = 0
    · exact ⟨0, Nat.zero_le _, by simp [List.range'_succ, runRetries, hs], by simp, .inl hs⟩
    -- a failed try: the loop goes on with the next index
    obtain ⟨k, hk, hrun, hfail, hlast⟩ := ih (s + 1) (some (attempt s))
    refine ⟨k + 1, by omega, ?_, fun j hj => ?_, ?_⟩
    · rw [List.range'_succ, runRetries, if_pos hs, hrun, List.range'_succ (n := k + 1)]
      simp only [Nat.add_right_comm s 1 k, Nat.add_assoc s k 1, Nat.add_comm 1 k]
    · cases j with
      | zero => exact hs
      | succ j => simpa [Nat.add_right_comm s 1 j, Nat.add_assoc] using hfail j (by omega)
    · simpa [Nat.add_right_comm s 1 k, Nat.add_assoc] using hlast

theorem suiteRun_attempts (retries : Int) (attempt : Nat → RetTup) :
    (retries < 0 ∧ suiteRun retries attempt = .error retTupUnbound) ∨
      ∃ k ≤ retries.toNat, suiteRun retries attempt = .ok (List.range (k + 1), attempt k) ∧
        (∀ j < k, (attempt j).1 ≠ 0) ∧ ((attempt k).1 = 0 ∨ k = retries.toNat) := by
  by_cases hr : retries < 0
  · refine .inl ⟨hr, ?_⟩
    rw [suiteRun, show (retries + 1).toNat = 0 by omega]
    rfl
  obtain ⟨k, hk, hrun, hfail, hlast⟩ := runRetries_range' attempt retries.toNat 0 none
  refine .inr ⟨k, hk, ?_, by simpa using hfail, by simpa using hlast⟩
  rw [suiteRun, show (retries + 1).toNat = retries.toNat + 1 by omega, List.range_eq_range',
    hrun, List.range_eq_range', Nat.zero_add]

end Run

section DownloadResult

/-- A command `DownloadResult` runs, or a wait. -/
inductive DownloadCall where
  | ls
  | cp
  | sleep (seconds : Nat)
  deriving DecidableEq, Repr

/-- `RETRY_LIMIT`. -/
def retryLimit : Nat := 10

/-- How the `while t < RETRY_LIMIT` loop is left. -/
inductive LoopExit where
  | broke
  | returned (status : Int)
  | exhausted
  deriving DecidableEq, Repr

/-- The `while t < RETRY_LIMIT` loop of `DownloadResult` from `t`, with the calls it makes;
`lsStatus t` is the status of the `t`-th `gsutil ls`. The fuel only bounds the recursion:
`RETRY_LIMIT` of it is enough. -/
def lsLoop (lsStatus : Nat → Int) : (t fuel : Nat) → List DownloadCall × LoopExit
  | _, 0 => ([], .exhausted)
  | t, fuel + 1 =>
    if t < retryLimit then
      let status := lsStatus (t + 1)
      if status = 0 then ([.ls], .broke)
      else if t + 1 < retryLimit then
        let (calls, exit) := lsLoop lsStatus (t + 1) fuel
        (.ls :: .sleep 60 :: calls, exit)
      else ([.ls], .returned status)
    else ([], .exhausted)

/-- `SuiteRunner.DownloadResult`: the calls it makes and the status it returns. -/
def downloadResult (lsStatus : Nat → Int) (cpStatus : Int) : List DownloadCall × Int :=
  match lsLoop lsStatus 0 retryLimit with
  | (calls, .returned status) => (calls, status)
  | (calls, _) => (calls ++ [.sleep 60, .cp], cpStatus)

/-- `k + 1` listings with a minute between each two. -/
def lsTries : Nat → List DownloadCall
  | 0 => [.ls]
  | k + 1 => .ls :: .sleep 60 :: lsTries k

variable (lsStatus : Nat → Int)

theorem lsLoop_spec (fuel : Nat) :
    ∀ t, t < retryLimit → retryLimit - t ≤ fuel →
      (∃ k, t + k < retryLimit ∧ (∀ j, t < j → j ≤ t + k → lsStatus j ≠ 0) ∧
          lsStatus (t + k + 1) = 0 ∧ lsLoop lsStatus t fuel = (lsTries k, .broke)) ∨
        ((∀ j, t < j → j ≤ retryLimit → lsStatus j ≠ 0) ∧
          lsLoop lsStatus t fuel =
            (lsTries (retryLimit - t - 1), .returned (lsStatus retryLimit))) := by
  induction fuel with
  | zero => intro t ht hf; omega
  | succ fuel ih =>
    intro t ht hf
    by_cases hs : lsStatus (t + 1) = 0
    · exact .inl ⟨0, ht, fun j h₁ h₂ => by omega, hs, by simp [lsLoop, ht, hs, lsTries]⟩
    by_cases hnext : t + 1 < retryLimit
    · -- a failed listing with tries left: a minute's wait, then the loop goes on
      have hstep : lsLoop lsStatus t (fuel + 1) =
          (.ls :: .sleep 60 :: (lsLoop lsStatus (t + 1) fuel).1,
            (lsLoop lsStatus (t + 1) fuel).2) := by
        simp [lsLoop, ht, hs, hnext]
      have hext (m : Nat) (h : ∀ j, t + 1 < j → j ≤ m → lsStatus j ≠ 0) :
          ∀ j, t < j → j ≤ m → lsStatus j ≠ 0 := fun j h₁ h₂ => by
        rcases Nat.lt_or_ge (t + 1) j with h' | h'
        · exact h j h' h₂
        · obtain rfl : j = t + 1 := by omega
          exact hs
      rcases ih (t + 1) hnext (by omega) with ⟨k, hk, hfail, hok, hrun⟩ | ⟨hfail, hrun⟩
      · refine .inl ⟨k + 1, by omega, fun j h₁ h₂ => hext _ hfail j h₁ (by omega), ?_,
          by simp [hstep, hrun, lsTries]⟩
        rwa [show t + (k + 1) + 1 = t + 1 + k + 1 by omega]
      · refine .inr ⟨hext _ hfail, ?_⟩
        rw [hstep, hrun, show retryLimit - t - 1 = retryLimit - (t + 1) - 1 + 1 by omega]
        rfl
    · -- the last listing failed: the loop returns its status
      have hlast : t + 1 = retryLimit := by omega
      refine .inr ⟨fun j h₁ h₂ => ?_, ?_⟩
      · obtain rfl : j = t + 1 := by omega
        exact hs
      · rw [show retryLimit - t - 1 = 0 by omega, ← hlast]
        simp [lsLoop, ht, hs, hnext, lsTries]

theorem downloadResult_calls (cpStatus : Int) :
    (∃ k < retryLimit, (∀ j, 0 < j → j ≤ k → lsStatus j ≠ 0) ∧ lsStatus (k + 1) = 0 ∧
        downloadResult lsStatus cpStatus = (lsTries k ++ [.sleep 60, .cp], cpStatus)) ∨
      ((∀ j, 0 < j → j ≤ retryLimit → lsStatus j ≠ 0) ∧
        downloadResult lsStatus cpStatus = (lsTries (retryLimit - 1), lsStatus retryLimit)) := by
  rcases lsLoop_spec lsStatus retryLimit 0 (by decide) le_rfl with
    ⟨k, hk, hfail, hok, hrun⟩ | ⟨hfail, hrun⟩
  · exact .inl ⟨k, by simpa using hk, by simpa using hfail, by simpa using hok,
      by rw [downloadResult, hrun]⟩
  · exact .inr ⟨hfail, by rw [downloadResult, hrun]; rfl⟩

end DownloadResult

section Crosfleet

/-- `s.rstrip(chars)`: drops every trailing character that is one of `chars`. -/
def pyRstrip (s chars : List Char) : List Char := s.rdropWhile (· ∈ chars)

/-- The `-dim dut_name:` option `Crosfleet_Run` makes of a DUT of `label.remote`, with
`dut.rstrip(".cros")`. -/
def crosfleetDimension (dut : List Char) : List Char :=
  "-dim dut_name:".toList ++ pyRstrip dut ".cros".toList

theorem pyRstrip_append_of_mem (s t chars : List Char) (h : ∀ c ∈ t, c ∈ chars) :
    pyRstrip (s ++ t) chars = pyRstrip s chars := by
  simp only [pyRstrip, List.rdropWhile, List.reverse_append]
  rw [List.dropWhile_append_of_pos (by simpa using h)]

theorem crosfleetDimension_cros (name : List Char) :
    crosfleetDimension (name ++ ".cros".toList) = "-dim dut_name:".toList ++ name ↔
      ∀ hn : name ≠ [], name.getLast hn ∉ ".cros".toList := by
  rw [crosfleetDimension, pyRstrip_append_of_mem _ _ _ fun _ h => h, List.append_cancel_left_eq,
    pyRstrip, List.rdropWhile_eq_self_iff]
  simp

example : crosfleetDimension "dut-os.cros".toList = "-dim dut_name:dut-".toList := by decide

end Crosfleet

end ToolchainUtils.Crosperf
