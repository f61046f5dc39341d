import Mathlib.Data.Int.Defs

/-!
`v14/lock_machine.py`: the description a machine's lock file stores, and the two calls of
`Lock` that change it, each run between `FileLock.__enter__` and `FileLock.__exit__` under
the file's `flock`. The user name, the clock and the logger are the calls' inputs and
outputs; of the pickle format only what `pickle.load` gives back is modelled. The last part
is `Machine.TryLock`, the loop that calls `Lock` until it locks or the timeout runs out.
-/

set_option autoImplicit false

namespace ToolchainUtils.V14

/-- `LockDescription`. -/
structure LockDescription where
  owner : String
  exclusive : Bool
  counter : Int
  time : Nat
  reason : String
  deriving DecidableEq, Repr

/-- `LockDescription()`: a fresh, unlocked description. -/
def LockDescription.new : LockDescription := ⟨"", false, 0, 0, ""⟩

/-- `IsLocked`: `self.counter or self.exclusive`, read as a truth value. -/
def LockDescription.isLocked (d : LockDescription) : Bool := d.counter ≠ 0 || d.exclusive

/-- What `FileLock.__enter__` reads: the pickled description, or a fresh one when the file
is empty (`EOFError`) or holds no pickle. -/
def loadDescription : Option LockDescription → LockDescription
  | some d => d
  | none => .new

inductive LogLine where
  | logError (msg : String)
  | logOutput (msg : String)
  deriving DecidableEq, Repr

/-- What a call of `Lock` returns, what it logs, and the description `FileLock.__exit__`
writes back. -/
structure CallResult where
  ok : Bool
  log : List LogLine
  lock : LockDescription
  deriving DecidableEq, Repr

/-- `Lock.NonBlockingLock(exclusive, reason)` by `user` at time `now`, on the loaded
description `lock`; `toLock` is the lock file's base name. -/
def nonBlockingLock (toLock user : String) (now : Nat) (exclusive : Bool) (reason : String)
    (lock : LockDescription) : CallResult :=
  if lock.exclusive then
    ⟨false, [.logError ("Exclusive lock already acquired by " ++ lock.owner ++ ". Reason: " ++
      lock.reason)], lock⟩
  else if exclusive then
    if lock.counter ≠ 0 then ⟨false, [.logError "Shared lock already acquired"], lock⟩
    else ⟨true, [.logOutput ("Successfully locked: " ++ toLock)],
      { lock with exclusive := true, reason := reason, owner := user, time := now }⟩
  else ⟨true, [.logOutput ("Successfully locked: " ++ toLock)],
    { lock with counter := lock.counter + 1 }⟩

/-- `Lock.Unlock(exclusive, force)` by `user`, on the loaded description `lock`. -/
def unlock (user : String) (exclusive force : Bool) (lock : LockDescription) : CallResult :=
  if !lock.isLocked then ⟨false, [.logError "Can't unlock unlocked machine!"], lock⟩
  else if lock.exclusive ≠ exclusive then
    ⟨false, [.logError "shared locks must be unlocked with --shared"], lock⟩
  else if lock.exclusive then
    if lock.owner ≠ user ∧ !force then
      ⟨false, [.logError (user ++ " can't unlock lock owned by: " ++ lock.owner)], lock⟩
    else ⟨true, [], { lock with exclusive := false, reason := "", owner := "" }⟩
  else ⟨true, [], { lock with counter := lock.counter - 1 }⟩

/-- A call of `Lock` on the lock file. -/
inductive LockRequest where
  | nonBlockingLock (user : String) (now : Nat) (exclusive : Bool) (reason : String)
  | unlock (user : String) (exclusive force : Bool)
  deriving DecidableEq, Repr

/-- The call, run on the description `FileLock.__enter__` loaded. -/
def LockRequest.exec (toLock : String) : LockRequest → LockDescription → CallResult
  | .nonBlockingLock user now exclusive reason =>
    V14.nonBlockingLock toLock user now exclusive reason
  | .unlock user exclusive force => V14.unlock user exclusive force

/-- `with FileLock(self._lock_file) as lock: ...` on the file's content: load the
description, run the call, and write the description back. An empty file is `none`. -/
def lockFileStep (toLock : String) (file : Option LockDescription) (r : LockRequest) :
    Option LockDescription :=
  some (r.exec toLock (loadDescription file)).lock

/-- The calls `rs`, one after another, each under the file's `flock`. -/
def lockFileRun (toLock : String) (file : Option LockDescription) (rs : List LockRequest) :
    Option LockDescription :=
  rs.foldl (lockFileStep toLock) file

/-- What every description the lock file stores satisfies. -/
structure LockDescription.Valid (d : LockDescription) : Prop where
  /-- Shared locks are never released more often than taken. -/
  counter_nonneg : 0 ≤ d.counter
  /-- No shared lock is held next to an exclusive one. -/
  not_exclusive_and_shared : ¬(d.exclusive = true ∧ 0 < d.counter)
  /-- Only an exclusive lock has an owner and a reason. -/
  unowned_of_shared : d.exclusive = false → d.owner = "" ∧ d.reason = ""

theorem LockDescription.valid_new : LockDescription.new.Valid :=
  ⟨by decide, by decide, fun _ => ⟨rfl, rfl⟩⟩

theorem nonBlockingLock_valid (toLock user : String) (now : Nat) (exclusive : Bool)
    (reason : String) {d : LockDescription} (h : d.Valid) :
    (nonBlockingLock toLock user now exclusive reason d).lock.Valid := by
  unfold nonBlockingLock
  split_ifs with hx he hc
  · exact h
  · exact h
  · exact ⟨h.counter_nonneg, by simp_all, by simp⟩
  · have := h.unowned_of_shared (by simpa using hx)
    exact ⟨by have := h.counter_nonneg; dsimp only; omega, by simp_all, fun _ => this⟩

theorem unlock_valid (user : String) (exclusive force : Bool) {d : LockDescription}
    (h : d.Valid) : (unlock user exclusive force d).lock.Valid := by
  unfold unlock
  split_ifs with hl hx he ho
  · exact h
  · exact h
  · exact h
  · exact ⟨h.counter_nonneg, by simp, fun _ => ⟨rfl, rfl⟩⟩
  · -- a shared lock is released: the counter was positive
    have hc : d.counter ≠ 0 := by simpa [LockDescription.isLocked, he] using hl
    have := h.counter_nonneg
    exact ⟨by dsimp only; omega, by simp [he], fun _ => h.unowned_of_shared (by simpa using he)⟩

theorem LockRequest.exec_valid (toLock : String) (r : LockRequest) {d : LockDescription}
    (h : d.Valid) : (r.exec toLock d).lock.Valid := by
  cases r with
  | nonBlockingLock user now exclusive reason => exact nonBlockingLock_valid _ _ _ _ _ h
  | unlock user exclusive force => exact unlock_valid _ _ _ h

theorem LockRequest.exec_refused (toLock : String) (r : LockRequest) (d : LockDescription)
    (h : (r.exec toLock d).ok = false) :
    (r.exec toLock d).lock = d ∧ ∃ msg, (r.exec toLock d).log = [.logError msg] := by
  cases r <;> simp only [exec, V14.nonBlockingLock, V14.unlock] at h ⊢ <;> split_ifs at h ⊢ <;>
    simp_all

theorem nonBlockingLock_exclusive_ok (toLock user : String) (now : Nat) (reason : String)
    (d : LockDescription) (h : (nonBlockingLock toLock user now true reason d).ok = true) :
    d.counter = 0 ∧ d.exclusive = false := by
  unfold nonBlockingLock at h
  by_cases hx : d.exclusive <;> by_cases hc : d.counter = 0 <;> simp_all

theorem unlock_exclusive_ok (user : String) (force : Bool) (d : LockDescription)
    (h : (unlock user true force d).ok = true) (howner : d.owner ≠ user) : force = true := by
  unfold unlock at h
  split_ifs at h <;> simp_all

theorem lockFileRun_valid (toLock : String) (rs : List LockRequest) :
    ∀ file : Option LockDescription, (loadDescription file).Valid →
      (loadDescription (lockFileRun toLock file rs)).Valid := by
  induction rs with
  | nil => exact fun _ h => h
  | cons r rs ih => exact fun file h => ih _ (r.exec_valid toLock h)

theorem lockFile_calls_keep_description_valid (toLock : String) (rs : List LockRequest)
    (r : LockRequest) :
    let d := loadDescription (lockFileRun toLock none rs)
    d.Valid ∧
      ((r.exec toLock d).ok = false → lockFileStep toLock (lockFileRun toLock none rs) r = some d) ∧
      (∀ user now reason, r = .nonBlockingLock user now true reason → (r.exec toLock d).ok = true →
        d.counter = 0 ∧ d.exclusive = false) ∧
      (∀ user force, r = .unlock user true force → (r.exec toLock d).ok = true →
        d.owner ≠ user → force = true) :=
  ⟨lockFileRun_valid toLock rs none LockDescription.valid_new,
    fun h => congrArg some (r.exec_refused toLock _ h).1,
    fun user now reason hr h =>
      nonBlockingLock_exclusive_ok toLock user now reason _ (by subst hr; exact h),
    fun user force hr h => unlock_exclusive_ok user force _ (by subst hr; exact h)⟩

section Protocol

/-! Each call runs alone under the file's `flock`, so the calls of several users, made
from several processes, take effect one after another in some order: a run of
`lockFileRun` is any interleaving of them. -/

theorem LockRequest.exec_cases (toLock : String) (r : LockRequest) (d : LockDescription) :
    ((r.exec toLock d).ok = false ∧ (r.exec toLock d).lock = d) ∨
    (∃ user now reason, r = .nonBlockingLock user now false reason ∧ d.exclusive = false ∧
      (r.exec toLock d).ok = true ∧ (r.exec toLock d).lock = { d with counter := d.counter + 1 }) ∨
    (∃ user now reason, r = .nonBlockingLock user now true reason ∧ d.exclusive = false ∧
      d.counter = 0 ∧ (r.exec toLock d).ok = true ∧ (r.exec toLock d).lock =
        { d with exclusive := true, reason := reason, owner := user, time := now }) ∨
    (∃ user force, r = .unlock user false force ∧ d.exclusive = false ∧ d.counter ≠ 0 ∧
      (r.exec toLock d).ok = true ∧ (r.exec toLock d).lock = { d with counter := d.counter - 1 }) ∨
    (∃ user force, r = .unlock user true force ∧ d.exclusive = true ∧
      (d.owner = user ∨ force = true) ∧ (r.exec toLock d).ok = true ∧
      (r.exec toLock d).lock = { d with exclusive := false, reason := "", owner := "" }) := by
  cases r with
  | nonBlockingLock user now exclusive reason =>
    simp only [exec, V14.nonBlockingLock]
    by_cases hx : d.exclusive = true
    · exact .inl ⟨by simp [hx], by simp [hx]⟩
    have hx' : d.exclusive = false := by simpa using hx
    cases exclusive
    · exact .inr (.inl ⟨user, now, reason, rfl, hx', by simp [hx'], by simp [hx']⟩)
    · by_cases hc : d.counter = 0
      · exact .inr (.inr (.inl ⟨user, now, reason, rfl, hx', hc, by simp [hx', hc],
          by simp [hx', hc]⟩))
      · exact .inl ⟨by simp [hx', hc], by simp [hx', hc]⟩
  | unlock user exclusive force =>
    simp only [exec, V14.unlock]
    by_cases hl : d.isLocked = false
    · exact .inl ⟨by simp [hl], by simp [hl]⟩
    by_cases he : d.exclusive ≠ exclusive
    · exact .inl ⟨by simp [hl, he], by simp [hl, he]⟩
    obtain rfl : d.exclusive = exclusive := by simpa using he
    cases hx : d.exclusive
    · have hc : d.counter ≠ 0 := by simpa [LockDescription.isLocked, hx] using hl
      exact .inr (.inr (.inr (.inl ⟨user, force, rfl, rfl, hc, by simp [hl, hx],
        by simp [hl, hx]⟩)))
    · by_cases ho : d.owner ≠ user ∧ force = false
      · exact .inl ⟨by simp [hl, hx, ho.1, ho.2], by simp [hl, hx, ho.1, ho.2]⟩
      · have ho' : d.owner = user ∨ force = true := by
          by_cases hou : d.owner = user
          · exact .inl hou
          · exact .inr (by simpa [hou] using ho)
        exact .inr (.inr (.inr (.inr ⟨user, force, rfl, rfl, ho', by simp [hl, hx, ho],
          by simp [hl, hx, ho]⟩)))

theorem lockFileRun_append (toLock : String) (file : Option LockDescription)
    (rs rs' : List LockRequest) :
    lockFileRun toLock file (rs ++ rs') = lockFileRun toLock (lockFileRun toLock file rs) rs' :=
  List.foldl_append _ _ _ _

theorem lockFileRun_refused (toLock : String) (d : LockDescription) (rs : List LockRequest)
    (h : ∀ r ∈ rs, (r.exec toLock d).ok = false) : lockFileRun toLock (some d) rs = some d := by
  induction rs with
  | nil => rfl
  | cons r rs ih =>
    have hr : lockFileStep toLock (some d) r = some d :=
      congrArg some (r.exec_refused toLock d (h r (List.mem_cons_self _ _))).1
    rw [lockFileRun, List.foldl_cons, hr]
    exact ih fun r' hr' => h r' (List.mem_cons_of_mem _ hr')

theorem refused_until_released (toLock : String) {d : LockDescription}
    (hx : d.exclusive = true) (mid : List LockRequest) :
    ∃ m₁ m₂, mid = m₁ ++ m₂ ∧ (∀ r ∈ m₁, (r.exec toLock d).ok = false) ∧
      (m₂ = [] ∨ ∃ user force rest, m₂ = .unlock user true force :: rest ∧
        (user = d.owner ∨ force = true) ∧ ((LockRequest.unlock user true force).exec toLock d).ok = true) := by
  induction mid with
  | nil => exact ⟨[], [], rfl, by simp, .inl rfl⟩
  | cons r rest ih =>
    rcases r.exec_cases toLock d with ⟨hf, -⟩ | ⟨_, _, _, -, hs, -⟩ | ⟨_, _, _, -, hs, -⟩ |
        ⟨_, _, -, hs, -⟩ | ⟨user, force, rfl, -, ho, hok, -⟩
    · obtain ⟨m₁, m₂, rfl, h₁, h₂⟩ := ih
      refine ⟨r :: m₁, m₂, rfl, fun r' hr' => ?_, h₂⟩
      rcases List.mem_cons.1 hr' with rfl | hr'
      exacts [hf, h₁ r' hr']
    all_goals try (rw [hx] at hs; cases hs)
    exact ⟨[], _, rfl, by simp, .inr ⟨user, force, rest, rfl, ho.imp_left Eq.symm, hok⟩⟩

theorem exclusive_lock_refuses_until_released (toLock : String) (file : Option LockDescription)
    (pre mid : List LockRequest) (user : String) (now : Nat) (reason : String)
    (hok : ((LockRequest.nonBlockingLock user now true reason).exec toLock
      (loadDescription (lockFileRun toLock file pre))).ok = true) :
    let held := loadDescription (lockFileRun toLock file (pre ++ [.nonBlockingLock user now true reason]))
    held.exclusive = true ∧ held.owner = user ∧
      ∃ m₁ m₂, mid = m₁ ++ m₂ ∧ (∀ r ∈ m₁, (r.exec toLock held).ok = false) ∧
        lockFileRun toLock file (pre ++ .nonBlockingLock user now true reason :: m₁) = some held ∧
        (m₂ = [] ∨ ∃ user' force rest, m₂ = .unlock user' true force :: rest ∧
          (user' = user ∨ force = true) ∧
          ((LockRequest.unlock user' true force).exec toLock held).ok = true) := by
  intro held
  have hstep : lockFileRun toLock file (pre ++ [.nonBlockingLock user now true reason]) =
      some ((LockRequest.nonBlockingLock user now true reason).exec toLock
        (loadDescription (lockFileRun toLock file pre))).lock := by
    rw [lockFileRun_append]; rfl
  have hheld : held = ((LockRequest.nonBlockingLock user now true reason).exec toLock
      (loadDescription (lockFileRun toLock file pre))).lock := by
    simp only [held, hstep, loadDescription]
  -- the lock was granted, so `held` is the exclusive lock of `user`
  have hgrant : held.exclusive = true ∧ held.owner = user := by
    rcases (LockRequest.nonBlockingLock user now true reason).exec_cases toLock
        (loadDescription (lockFileRun toLock file pre)) with
      ⟨hf, -⟩ | ⟨_, _, _, he, -⟩ | ⟨_, _, _, he, -, -, -, hl⟩ | ⟨_, _, he, -⟩ | ⟨_, _, he, -⟩
    · rw [hok] at hf; cases hf
    · cases he
    · cases he
      rw [hheld, hl]; exact ⟨rfl, rfl⟩
    · cases he
    · cases he
  obtain ⟨m₁, m₂, rfl, h₁, h₂⟩ := refused_until_released toLock hgrant.1 mid
  refine ⟨hgrant.1, hgrant.2, m₁, m₂, rfl, h₁, ?_, hgrant.2 ▸ h₂⟩
  rw [← List.singleton_append, ← List.append_assoc, lockFileRun_append, hstep, ← hheld]
  exact lockFileRun_refused toLock held m₁ h₁

theorem exclusive_lock_refuses_others :
    ((LockRequest.nonBlockingLock "alice" 0 true "").exec "m"
      (loadDescription (lockFileRun "m" none []))).ok = true ∧
    let held := loadDescription (lockFileRun "m" none ([] ++ [.nonBlockingLock "alice" 0 true ""]))
    held.exclusive = true ∧ held.owner = "alice" ∧
      ∃ m₁ m₂, [.nonBlockingLock "bob" 1 false "", .unlock "bob" true false,
          .unlock "alice" true false] = m₁ ++ m₂ ∧ (∀ r ∈ m₁, (r.exec "m" held).ok = false) ∧
        lockFileRun "m" none ([] ++ .nonBlockingLock "alice" 0 true "" :: m₁) = some held ∧
        (m₂ = [] ∨ ∃ user' force rest, m₂ = .unlock user' true force :: rest ∧
          (user' = "alice" ∨ force = true) ∧
          ((LockRequest.unlock user' true force).exec "m" held).ok = true) :=
  ⟨rfl, exclusive_lock_refuses_until_released "m" none [] _ "alice" 0 "" rfl⟩

/-- A `NonBlockingLock(exclusive=False)`. -/
def LockRequest.takesShared : LockRequest → Bool
  | .nonBlockingLock _ _ exclusive _ => !exclusive
  | .unlock .. => false

/-- An `Unlock(exclusive=False)`. -/
def LockRequest.releasesShared : LockRequest → Bool
  | .unlock _ exclusive _ => !exclusive
  | .nonBlockingLock .. => false

/-- What each of the calls `rs` returns, run one after another on the lock file. -/
def lockFileReturns (toLock : String) : Option LockDescription → List LockRequest → List Bool
  | _, [] => []
  | file, r :: rs => (r.exec toLock (loadDescription file)).ok ::
      lockFileReturns toLock (lockFileStep toLock file r) rs

theorem LockRequest.exec_counter (toLock : String) (r : LockRequest) (d : LockDescription) :
    (r.exec toLock d).lock.counter +
        ((if (r.exec toLock d).ok && r.releasesShared then 1 else 0 : Nat) : Int) =
      d.counter + ((if (r.exec toLock d).ok && r.takesShared then 1 else 0 : Nat) : Int) := by
  rcases r.exec_cases toLock d with ⟨hf, hl⟩ | ⟨_, _, _, rfl, -, hok, hl⟩ |
      ⟨_, _, _, rfl, -, -, hok, hl⟩ | ⟨_, _, rfl, -, -, hok, hl⟩ | ⟨_, _, rfl, -, -, hok, hl⟩
  · simp [hf, hl]
  all_goals rw [hok, hl]; simp [takesShared, releasesShared]

theorem lockFileRun_cons (toLock : String) (file : Option LockDescription) (r : LockRequest)
    (rs : List LockRequest) :
    lockFileRun toLock file (r :: rs) = lockFileRun toLock (lockFileStep toLock file r) rs := rfl

theorem loadDescription_lockFileStep (toLock : String) (file : Option LockDescription)
    (r : LockRequest) :
    loadDescription (lockFileStep toLock file r) = (r.exec toLock (loadDescription file)).lock :=
  rfl

theorem lockFileRun_counter (toLock : String) (rs : List LockRequest) :
    ∀ file : Option LockDescription,
      (loadDescription (lockFileRun toLock file rs)).counter +
          ((rs.zip (lockFileReturns toLock file rs)).countP fun c => c.2 && c.1.releasesShared) =
        (loadDescription file).counter +
          ((rs.zip (lockFileReturns toLock file rs)).countP fun c => c.2 && c.1.takesShared) := by
  induction rs with
  | nil => intro file; simp [lockFileReturns, lockFileRun]
  | cons r rs ih =>
    intro file
    have hr := r.exec_counter toLock (loadDescription file)
    have ih' := ih (lockFileStep toLock file r)
    rw [loadDescription_lockFileStep] at ih'
    simp only [lockFileReturns, List.zip_cons_cons, List.countP_cons, lockFileRun_cons] at ih' ⊢
    omega

theorem shared_locks_counted (toLock : String) (rs : List LockRequest) :
    let granted := (rs.zip (lockFileReturns toLock none rs)).countP fun c => c.2 && c.1.takesShared
    let released := (rs.zip (lockFileReturns toLock none rs)).countP fun c =>
      c.2 && c.1.releasesShared
    (loadDescription (lockFileRun toLock none rs)).counter = granted - released ∧
      released ≤ granted ∧
      ∀ user now reason, ((LockRequest.nonBlockingLock user now true reason).exec toLock
        (loadDescription (lockFileRun toLock none rs))).ok = true → granted = released := by
  intro granted released
  simp only [granted, released]
  have hc := lockFileRun_counter toLock rs none
  have hv := (lockFileRun_valid toLock rs none LockDescription.valid_new).counter_nonneg
  have h0 : (loadDescription none).counter = 0 := rfl
  refine ⟨by omega, by omega, fun user now reason hok => ?_⟩
  have := (nonBlockingLock_exclusive_ok toLock user now reason _ hok).1
  omega

end Protocol

section TryLock

/-- A call `Machine.TryLock` makes: `self.Lock(exclusive, reason)`, or `time.sleep(sleep)`. -/
inductive TryLockCall where
  | lock
  | sleep (seconds : Int)
  deriving DecidableEq, Repr

/-- The `while True` loop of `Machine.TryLock` with at most `fuel` passes left, from the
`n`-th call of `Lock`, which answers `lockAnswers n`: whether it locked and the calls made,
or `none` when the passes run out first. -/
def tryLockLoop (sleep : Int) (lockAnswers : Nat → Bool) :
    Nat → Int → Nat → Option (Bool × List TryLockCall)
  | 0, _, _ => none
  | fuel + 1, timeout, n =>
    let locked := lockAnswers n
    if locked || !decide (timeout ≥ 0) then some (locked, [.lock])
    else (tryLockLoop sleep lockAnswers fuel (timeout - sleep) (n + 1)).map
      fun r => (r.1, .lock :: .sleep sleep :: r.2)

/-- `Machine.TryLock(timeout, ...)`, run for at most `fuel` passes of its loop. Python 2's
`timeout / 10` floors, as `/` on `Int` does for a positive divisor. -/
def tryLock (timeout : Int) (lockAnswers : Nat → Bool) (fuel : Nat) :
    Option (Bool × List TryLockCall) :=
  tryLockLoop (timeout / 10) lockAnswers fuel timeout 0

theorem tryLockLoop_spins {lockAnswers : Nat → Bool} (hnever : ∀ n, lockAnswers n = false)
    {timeout : Int} (h : 0 ≤ timeout) : ∀ fuel n, tryLockLoop 0 lockAnswers fuel timeout n = none
  | 0, _ => rfl
  | fuel + 1, n => by
    simp [tryLockLoop, hnever, h, tryLockLoop_spins hnever h fuel (n + 1)]

theorem tryLock_never_returns_of_small_timeout (timeout : Int) (h0 : 0 ≤ timeout)
    (h10 : timeout < 10) (lockAnswers : Nat → Bool) (hnever : ∀ n, lockAnswers n = false)
    (fuel : Nat) : tryLock timeout lockAnswers fuel = none := by
  have hsleep : timeout / 10 = 0 := by omega
  rw [tryLock, hsleep]
  exact tryLockLoop_spins hnever h0 fuel 0

theorem zero_timeout_never_returns :
    0 ≤ (0 : Int) ∧ (0 : Int) < 10 ∧ (∀ n : Nat, (fun _ => false) n = false) ∧
      ∀ fuel, tryLock 0 (fun _ => false) fuel = none :=
  ⟨Int.le_refl 0, by decide, fun _ => rfl,
    tryLock_never_returns_of_small_timeout 0 (Int.le_refl 0) (by decide) _ (fun _ => rfl)⟩

theorem tryLockLoop_returns {sleep : Int} (hs : 0 < sleep) (lockAnswers : Nat → Bool) :
    ∀ (fuel : Nat) (timeout : Int) (n : Nat), 0 < fuel → timeout / sleep + 2 ≤ fuel →
      (tryLockLoop sleep lockAnswers fuel timeout n).isSome
  | 0, _, _, h, _ => absurd h (Nat.lt_irrefl 0)
  | fuel + 1, timeout, n, _, hfuel => by
    simp only [tryLockLoop]
    split
    · rfl
    · rename_i hgo
      obtain ⟨-, ht⟩ : lockAnswers n = false ∧ 0 ≤ timeout := by simpa using hgo
      -- one sleep takes one from the quotient
      have hq : (timeout - sleep) / sleep = timeout / sleep - 1 := by
        rw [show timeout - sleep = timeout + (-1) * sleep by omega,
          Int.add_mul_ediv_right _ _ (by omega)]; omega
      have hpos : 0 ≤ timeout / sleep := Int.ediv_nonneg ht (Int.le_of_lt hs)
      rw [Option.isSome_map']
      exact tryLockLoop_returns hs lockAnswers fuel _ _ (by omega) (by omega)

theorem tryLock_returns (timeout : Int) (lockAnswers : Nat → Bool) :
    (timeout < 0 → ∀ fuel, tryLock timeout lockAnswers (fuel + 1) = some (lockAnswers 0, [.lock])) ∧
      (10 ≤ timeout → (tryLock timeout lockAnswers 21).isSome) := by
  refine ⟨fun hneg _ => by simp [tryLock, tryLockLoop, Int.not_le.2 hneg], fun hbig => ?_⟩
  have hs : 0 < timeout / 10 := by omega
  have hq : timeout / (timeout / 10) < 20 := Int.ediv_lt_of_lt_mul hs (by omega)
  exact tryLockLoop_returns hs lockAnswers 21 timeout 0 (by decide) (by omega)

theorem default_timeout_returns :
    tryLock (-1) (fun _ => false) 1 = some (false, [.lock]) ∧
      (tryLock 300 (fun _ => false) 21).isSome :=
  ⟨(tryLock_returns (-1) _).1 (by decide) 0, (tryLock_returns 300 _).2 (by decide)⟩

end TryLock

end ToolchainUtils.V14
