import ToolchainUtils.LlvmTools.NightlyRevertChecker

/-!
`image_chromeos.py`: `DoImage`, which images a ChromeOS device, from its parsed options on.
The file system, the lock server, the device and the chroot are outside the model: what they
answer is an `ImageEnv`, and `DoImage` is a `Script`, the calls it makes on them with how it
ends. Without `--board` it learns the board from the device before it takes the lock. `Usage` ends the process with `sys.exit(0)` and `logger.LogFatal` with `sys.exit(1)`;
the `finally` of `DoImage` still runs then.
-/

set_option autoImplicit false

namespace ToolchainUtils.ImageChromeos

section Script

/-- How `DoImage` ends when it does not return: the process exits, or an exception escapes. -/
inductive Ending where
  | exited (status : Nat) (message : String)
  | raised (error : String)
  deriving DecidableEq, Repr

/-- A call `DoImage` makes on the lock server, the device or the chroot. -/
inductive ImageCall where
  | crosLearnBoard
  | acquireLock
  | releaseLock
  | readChecksum
  | locateOrCopyImage
  | isImageModdedForTest
  | remountTmp
  | checkForCrosFlash
  | disableCrosBeeps
  | crosFlash (command : String)
  | ensureMachineUp
  | writeChecksum
  | verifyChromeChecksum
  | tryRemountPartitionAsRW
  | deleteTempDir
  | reboot
  deriving DecidableEq, Repr

/-- A run of part of `DoImage`: the calls it made, then its value or how `DoImage` ended. -/
structure Script (α : Type) where
  calls : List ImageCall
  result : Except Ending α

instance : Monad Script where
  pure a := ⟨[], .ok a⟩
  bind x f := match x.result with
    | .error e => ⟨x.calls, .error e⟩
    | .ok a => ⟨x.calls ++ (f a).calls, (f a).result⟩

def Script.call (c : ImageCall) : Script Unit := ⟨[c], .ok ()⟩

def Script.callAll (cs : List ImageCall) : Script Unit := ⟨cs, .ok ()⟩

/-- The end of `DoImage`. -/
def Script.stop {α : Type} (e : Ending) : Script α := ⟨[], .error e⟩

/-- `Usage(parser, message)`: prints the error and exits with status `0`. -/
def usage {α : Type} (message : String) : Script α := .stop (.exited 0 ("ERROR: " ++ message))

/-- `logger.GetLogger().LogFatalIf(cond, message)`: exits with status `1` when `cond`. -/
def logFatalIf (cond : Bool) (message : String) : Script Unit :=
  if cond then .stop (.exited 1 message) else pure ()

variable {α β : Type}

@[simp] theorem Script.calls_pure (a : α) : (pure a : Script α).calls = [] := rfl
@[simp] theorem Script.result_pure (a : α) : (pure a : Script α).result = .ok a := rfl

theorem Script.bind_cases (x : Script α) (f : α → Script β) :
    (∃ e, x.result = .error e ∧ x >>= f = ⟨x.calls, .error e⟩) ∨
      ∃ a, x.result = .ok a ∧ x >>= f = ⟨x.calls ++ (f a).calls, (f a).result⟩ := by
  cases h : x.result with
  | error e => exact .inl ⟨e, rfl, by simp only [bind, h]⟩
  | ok a => exact .inr ⟨a, rfl, by simp only [bind, h]⟩

@[simp] theorem Script.pure_bind (a : α) (f : α → Script β) : pure a >>= f = f a := by
  show Script.mk ([] ++ (f a).calls) (f a).result = f a
  rw [List.nil_append]

@[simp] theorem Script.call_bind (c : ImageCall) (f : Unit → Script β) :
    Script.call c >>= f = ⟨c :: (f ()).calls, (f ()).result⟩ := rfl

@[simp] theorem Script.stop_bind (e : Ending) (f : α → Script β) :
    (Script.stop e : Script α) >>= f = Script.stop e := rfl

@[simp] theorem usage_bind (message : String) (f : α → Script β) :
    usage message >>= f = usage message := rfl

theorem Script.bind_ok {x : Script α} {a : α} (f : α → Script β) (h : x.result = .ok a) :
    x >>= f = ⟨x.calls ++ (f a).calls, (f a).result⟩ := by
  simp only [bind, h]

theorem Script.calls_prefix_bind (x : Script α) (f : α → Script β) :
    x.calls <+: (x >>= f).calls := by
  rcases Script.bind_cases x f with ⟨e, -, h⟩ | ⟨a, -, h⟩ <;> rw [h]
  exact List.prefix_append _ _

/-- Every call of a script satisfies `p`, and so does its end, if it ended. -/
structure Script.Keeps (p : ImageCall → Prop) (q : Ending → Prop) (x : Script α) : Prop where
  calls : ∀ c ∈ x.calls, p c
  ending : ∀ e, x.result = .error e → q e

variable {p : ImageCall → Prop} {q : Ending → Prop}

theorem Script.Keeps.bind {x : Script α} {f : α → Script β} (hx : x.Keeps p q)
    (hf : ∀ a, (f a).Keeps p q) : (x >>= f).Keeps p q := by
  rcases Script.bind_cases x f with ⟨e, he, h⟩ | ⟨a, ha, h⟩ <;> rw [h]
  · exact ⟨hx.calls, fun _ h' => by cases h'; exact hx.ending _ he⟩
  · exact ⟨fun c hc => (List.mem_append.1 hc).elim (hx.calls c) ((hf a).calls c),
      (hf a).ending⟩

theorem Script.keeps_pure (a : α) : (pure a : Script α).Keeps p q :=
  ⟨fun _ h => absurd h (List.not_mem_nil _), fun _ h => by cases h⟩

theorem Script.keeps_call {c : ImageCall} (h : p c) : (Script.call c).Keeps p q :=
  ⟨fun _ hc => by rw [List.mem_singleton.1 hc]; exact h, fun _ h => by cases h⟩

theorem Script.keeps_callAll {cs : List ImageCall} (h : ∀ c ∈ cs, p c) :
    (Script.callAll cs).Keeps p q :=
  ⟨h, fun _ h => by cases h⟩

theorem Script.Keeps.mono {x : Script α} {p' : ImageCall → Prop} {q' : Ending → Prop}
    (h : x.Keeps p q) (hp : ∀ c, p c → p' c) (hq : ∀ e, q e → q' e) : x.Keeps p' q' :=
  ⟨fun c hc => hp c (h.calls c hc), fun e he => hq e (h.ending e he)⟩

theorem keeps_logFatalIf {cond : Bool} {message : String} (h : q (.exited 1 message)) :
    (logFatalIf cond message).Keeps p q := by
  unfold logFatalIf
  split
  · exact ⟨fun _ h => absurd h (List.not_mem_nil _), fun _ he => by cases he; exact h⟩
  · exact Script.keeps_pure ()

end Script

section DoImage

/-- The options `DoImage` reads. -/
structure ImageOptions where
  chromeosRoot : Option String
  remote : Option String
  image : Option String
  board : Option String
  force : Bool
  noLock : Bool
  logLevel : String
  deriving DecidableEq, Repr

/-- What the file system, the lock server, the device and the chroot answer `DoImage`. -/
structure ImageEnv where
  /-- `os.path.expanduser` -/
  expandUser : String → String
  /-- `os.path.realpath` -/
  realPath : String → String
  /-- `os.path.exists` -/
  pathExists : String → Bool
  /-- `getpass.getuser()` -/
  getUser : String
  /-- the return code and output of the `learn_board` command `CrosLearnBoard` runs -/
  crosLearnBoard : Int × String
  /-- `misc.GetImageDir(chromeos_root, board)` for each board -/
  imageDir : String → String
  /-- `locks.AcquireLock`, or the text of what it raised -/
  acquireLock : Except String Unit
  /-- `FileUtils().Md5File(image)` -/
  md5File : String
  /-- the `cat` of the device's checksum file: its return code and output -/
  readChecksum : Int × String
  /-- `LocateOrCopyImage`: `found` and `located_image` -/
  locateOrCopyImage : Bool × String
  isImageModdedForTest : Bool
  /-- the return code of the command `CheckForCrosFlash` runs on the device -/
  checkForCrosFlash : Int
  /-- the return code of the `retries`-th run of `cros flash` -/
  crosFlash : Nat → Int
  ensureMachineUp : Bool
  /-- the return code of the command that writes the checksum file -/
  writeChecksum : Int
  verifyChromeChecksum : Bool

/-- `command_executer.LOG_LEVEL`. -/
def logLevels : List String := ["none", "quiet", "average", "verbose"]

/-- `output.split()`: the words of `output`. -/
def pySplit (output : List Char) : List (List Char) :=
  (output.splitOnP (· ∈ LlvmTools.pySpaces)).filter (· ≠ [])

/-- `output.split()[-1]`, the board `CrosLearnBoard` reads off the output of `learn_board`;
`none` where indexing the empty list raises `IndexError`. -/
def learnedBoard (output : String) : Option String :=
  (pySplit output.toList).getLast?.map String.mk

/-- `cmd_executer.CrosLearnBoard(chromeos_root, remote)`: runs `learn_board` on the device.
A failed run ends the process, through `LogFatalIf` or, for the executer of log level
`"none"`, which has no logger, through `sys.exit(1)`. -/
def crosLearnBoard (logLevel : String) (env : ImageEnv) : Script String := do
  Script.call .crosLearnBoard
  let (retval, output) := env.crosLearnBoard
  if logLevel = "none" then
    if retval ≠ 0 then Script.stop (.exited 1 "")
  else logFatalIf (retval != 0) "learn_board command failed"
  match learnedBoard output with
  | some board => return board
  | none => Script.stop (.raised "IndexError: list index out of range")

/-- The image `DoImage` uses, and whether it is an `xbuddy://` one. -/
def chooseImage (env : ImageEnv) (board : String) (image : Option String) : String × Bool :=
  let (image, isXbuddyImage) : String × Bool := match image with
    | none =>
      let image := env.imageDir board ++ "/latest/chromiumos_test_image.bin"
      (if env.pathExists image then image
        else env.imageDir board ++ "/latest/chromiumos_image.bin", false)
    | some image =>
      if LlvmTools.startsWith image.toList "xbuddy://".toList then (image, true) else (env.expandUser image, false)
  (if isXbuddyImage then image else env.realPath image, isXbuddyImage)

/-- `os.path.join(path, name)` for a relative `name`. -/
def pathJoin (path name : String) : String :=
  if path = "" ∨ path.endsWith "/" then path ++ name else path ++ "/" ++ name

/-- `FindChromeOSImage(image_file, chromeos_root)`: the path of an image inside the chroot.
`find` looks for the root anywhere in the path, and the slice then drops as many
characters as the root has from the front. -/
def findChromeOSImage (env : ImageEnv) (imageFile chromeosRoot : String) : String :=
  let whoami := env.getUser
  let realChrootDir := pathJoin (env.realPath chromeosRoot) "chroot"
  let realChromeosRoot := env.realPath chromeosRoot
  if realChrootDir.toList <:+: imageFile.toList then imageFile.drop realChrootDir.length
  else if realChromeosRoot.toList <:+: imageFile.toList then
    "/home/" ++ whoami ++ "/trunk" ++ imageFile.drop realChromeosRoot.length
  else imageFile

/-- `" ".join(cros_flash_args)`. -/
def crosFlashCommand (board remote image : String) : String :=
  "cros flash --board=" ++ board ++ " --clobber-stateful " ++ remote ++ " " ++ image

/-- What the checksum comparison decides: to reboot and return the `ret` of the `cat`, or
to reimage, with `local_image`, `found` and the image `cros flash` is given. -/
inductive Decision where
  | keep (ret : Int)
  | reimage (localImage found : Bool) (flashImage : String)
  deriving DecidableEq, Repr

/-- The comparison of a local image's checksum with the device's, with the check that a
non-test image is only imaged with `--force`; an `xbuddy://` image is always reimaged. -/
def checkImage (opts : ImageOptions) (env : ImageEnv) (chromeosRoot image : String)
    (isXbuddyImage : Bool) : Script Decision := do
  if !isXbuddyImage then
    Script.call .readChecksum
    let (ret, deviceChecksum) := env.readChecksum
    if env.md5File.toList ≠ LlvmTools.pyStrip deviceChecksum.toList then
      Script.call .locateOrCopyImage
      let (found, locatedImage) := env.locateOrCopyImage
      let chrootImage := findChromeOSImage env locatedImage chromeosRoot
      Script.call .isImageModdedForTest
      logFatalIf (!env.isImageModdedForTest && !opts.force)
        "Have to pass --force to image a non-test image!"
      return .reimage true found chrootImage
    else return .keep ret
  else return .reimage false true image

/-- The `while True` loop of `cros flash` from `retries`: the number of runs made and the
last `ret`. -/
def crosFlashLoop (crosFlash : Nat → Int) (retries : Nat) : Nat × Int :=
  let ret := crosFlash retries
  if ret = 0 ∨ 2 ≤ retries then (retries + 1, ret) else crosFlashLoop crosFlash (retries + 1)
termination_by 2 - retries

theorem crosFlashLoop_spec (crosFlash : Nat → Int) (retries : Nat) (h : retries ≤ 2) :
    ∃ k, retries ≤ k ∧ k ≤ 2 ∧ crosFlashLoop crosFlash retries = (k + 1, crosFlash k) ∧
      (∀ j, retries ≤ j → j < k → crosFlash j ≠ 0) ∧ (crosFlash k = 0 ∨ k = 2) := by
  induction retries using crosFlashLoop.induct crosFlash with
  | case1 r ret hstop =>
    -- the last run: it succeeded, or it was the third
    have hs : crosFlash r = 0 ∨ 2 ≤ r := hstop
    exact ⟨r, le_rfl, h, by rw [crosFlashLoop]; exact if_pos hs, fun j h₁ h₂ => by omega,
      by omega⟩
  | case2 r ret hgo ih =>
    -- a failed run with runs left: the loop goes on
    have hs : ¬(crosFlash r = 0 ∨ 2 ≤ r) := hgo
    obtain ⟨k, hrk, hk, hrun, hfail, hlast⟩ := ih (by omega)
    refine ⟨k, by omega, hk, by rw [crosFlashLoop]; exact (if_neg hs).trans hrun,
      fun j h₁ h₂ => ?_, hlast⟩
    rcases Nat.eq_or_lt_of_le h₁ with rfl | hj
    · omega
    · exact hfail j hj h₂

/-- The reimaging up to `cros flash`: the remount of `/tmp`, `CheckForCrosFlash` and
`DisableCrosBeeps`. -/
def prepareFlash (env : ImageEnv) (remote : String) : Script Unit := do
  Script.call .remountTmp
  Script.call .checkForCrosFlash
  logFatalIf (env.checkForCrosFlash == 255) ("Failed ssh to " ++ remote ++ " (for checking cherrypy)")
  logFatalIf (env.checkForCrosFlash != 0)
    ("Failed to find cherrypy or ctypes on remote '" ++ remote ++ "', cros flash cannot work.")
  Script.call .disableCrosBeeps

/-- The runs of `cros flash` and the check of the last one. -/
def flashImage (env : ImageEnv) (command : String) : Script Unit := do
  let (runs, ret) := crosFlashLoop env.crosFlash 0
  Script.callAll (List.replicate runs (.crosFlash command))
  logFatalIf (ret != 0) "Image command failed"

/-- The reimaging after `cros flash`: `EnsureMachineUp`, and for a local image the checksum
file, the check of Chrome's checksum and the remount; then the copied image's removal. -/
def finishImage (env : ImageEnv) (localImage found : Bool) : Script Int := do
  Script.call .ensureMachineUp
  let ret : Int := if !localImage && env.ensureMachineUp then 0 else 1
  let ret ← if localImage then do
      Script.call .writeChecksum
      let ret := env.writeChecksum
      logFatalIf (ret != 0) "Writing checksum failed."
      Script.call .verifyChromeChecksum
      logFatalIf (!env.verifyChromeChecksum) "Image verification failed!"
      Script.call .tryRemountPartitionAsRW
      pure ret
    else pure ret
  if !found then Script.call .deleteTempDir
  return ret

/-- The body of the `try` of `DoImage` after the lock. -/
def imageBody (opts : ImageOptions) (env : ImageEnv) (chromeosRoot remote board image : String)
    (isXbuddyImage : Bool) : Script Int := do
  match ← checkImage opts env chromeosRoot image isXbuddyImage with
  | .reimage localImage found flashTarget =>
    prepareFlash env remote
    flashImage env (crosFlashCommand board remote flashTarget)
    finishImage env localImage found
  | .keep ret =>
    Script.call .reboot
    return ret

/-- The `try`/`finally` of `DoImage`: `should_unlock` is set once `AcquireLock` returned,
and then the lock is released however the body ends. -/
def withMachineLock (noLock : Bool) (acquireLock : Except String Unit) (body : Script Int) :
    Script Int :=
  if noLock then body
  else match acquireLock with
    | .error e => ⟨[.acquireLock], .error (.raised ("RuntimeError: Error acquiring machine: " ++ e))⟩
    | .ok () => ⟨.acquireLock :: body.calls ++ [.releaseLock], body.result⟩

/-- The checks of `DoImage`'s options, giving `chromeos_root` and the remote. -/
def checkOptions (opts : ImageOptions) : Script (String × String) := do
  if opts.logLevel ∉ logLevels then usage "--logging_level must be 'quiet', 'average' or 'verbose'"
  let some chromeosRoot := opts.chromeosRoot | usage "--chromeos_root must be set"
  let some remote := opts.remote | usage "--remote must be set"
  return (chromeosRoot, remote)

/-- `options.board`, or the board `CrosLearnBoard` learns from the device. -/
def getBoard (opts : ImageOptions) (env : ImageEnv) : Script String :=
  match opts.board with
  | none => crosLearnBoard opts.logLevel env
  | some board => pure board

/-- `DoImage` up to its `try`: the option checks, the board and the image, giving the
expanded `chromeos_root`, the remote, the board, the image and whether it is `xbuddy://`. -/
def doImageSetup (opts : ImageOptions) (env : ImageEnv) :
    Script (String × String × String × String × Bool) := do
  let (chromeosRoot, remote) ← checkOptions opts
  let chromeosRoot := env.expandUser chromeosRoot
  let board ← getBoard opts env
  let (image, isXbuddyImage) := chooseImage env board opts.image
  if !env.pathExists image && !isXbuddyImage then
    usage ("Image file: " ++ image ++ " does not exist!")
  return (chromeosRoot, remote, board, image, isXbuddyImage)

/-- `DoImage` after `parse_args`. -/
def doImage (opts : ImageOptions) (env : ImageEnv) : Script Int := do
  let (chromeosRoot, remote, board, image, isXbuddyImage) ← doImageSetup opts env
  withMachineLock opts.noLock env.acquireLock
    (imageBody opts env chromeosRoot remote board image isXbuddyImage)

end DoImage

section Runs

/-- A call other than `CrosLearnBoard`, the lock's and `cros flash`. -/
def ImageCall.isPlain : ImageCall → Bool
  | .crosLearnBoard | .acquireLock | .releaseLock | .crosFlash _ => false
  | _ => true

/-- An end through `LogFatal`. -/
def Ending.Fatal (e : Ending) : Prop := ∃ message, e = .exited 1 message

/-- The board `DoImage` images with: `--board`, or the one `learn_board` printed. -/
def BoardOf (opts : ImageOptions) (env : ImageEnv) (board : String) : Prop :=
  opts.board = some board ∨
    (opts.board = none ∧ env.crosLearnBoard.1 = 0 ∧ learnedBoard env.crosLearnBoard.2 = some board)

variable (opts : ImageOptions) (env : ImageEnv)

theorem crosLearnBoard_calls : (crosLearnBoard opts.logLevel env).calls = [.crosLearnBoard] := by
  unfold crosLearnBoard logFatalIf
  dsimp only
  split <;> split <;> split <;> rfl

theorem crosLearnBoard_ok {board : String}
    (h : (crosLearnBoard opts.logLevel env).result = .ok board) :
    env.crosLearnBoard.1 = 0 ∧ learnedBoard env.crosLearnBoard.2 = some board := by
  unfold crosLearnBoard logFatalIf at h
  simp only [Script.call_bind] at h
  split at h <;> (try split at h) <;> (try cases h) <;> split at h <;> cases h <;>
    simp_all

theorem crosLearnBoard_of (h₀ : env.crosLearnBoard.1 = 0) {board : String}
    (hb : learnedBoard env.crosLearnBoard.2 = some board) :
    (crosLearnBoard opts.logLevel env).result = .ok board := by
  have hcl : env.crosLearnBoard = (0, env.crosLearnBoard.2) := Prod.ext h₀ rfl
  unfold crosLearnBoard logFatalIf
  rw [hcl]
  dsimp only
  split <;> simp [hb, Script.call_bind]

theorem checkOptions_calls : (checkOptions opts).calls = [] := by
  unfold checkOptions
  dsimp only
  split
  · rfl
  · rw [Script.pure_bind]
    split
    · split <;> rfl
    · rfl

theorem checkOptions_ok {r remote : String} :
    (checkOptions opts).result = .ok (r, remote) ↔
      opts.logLevel ∈ logLevels ∧ opts.chromeosRoot = some r ∧ opts.remote = some remote := by
  unfold checkOptions
  dsimp only
  by_cases hlog : opts.logLevel ∈ logLevels
  · rw [if_neg (not_not.2 hlog), Script.pure_bind]
    cases opts.chromeosRoot <;> cases opts.remote <;> simp [hlog, usage, Script.stop]
  · rw [if_pos hlog, usage_bind]
    simp [hlog, usage, Script.stop]

theorem getBoard_calls :
    (getBoard opts env).calls = [] ∨
      ((getBoard opts env).calls = [.crosLearnBoard] ∧ opts.board = none) := by
  unfold getBoard
  split
  · exact .inr ⟨crosLearnBoard_calls opts env, ‹_›⟩
  · exact .inl rfl

theorem getBoard_ok {board : String} :
    (getBoard opts env).result = .ok board ↔ BoardOf opts env board := by
  unfold getBoard BoardOf
  split
  · rename_i h
    refine ⟨fun hb => .inr ⟨h, crosLearnBoard_ok opts env hb⟩, ?_⟩
    rintro (h' | ⟨-, h₀, hl⟩)
    · simp [h] at h'
    · exact crosLearnBoard_of opts env h₀ hl
  · rename_i b h
    simp [h, eq_comm]

theorem doImageSetup_calls :
    (doImageSetup opts env).calls = [] ∨
      ((doImageSetup opts env).calls = [.crosLearnBoard] ∧ opts.board = none) := by
  unfold doImageSetup
  rcases Script.bind_cases (checkOptions opts) _ with ⟨e, -, h⟩ | ⟨⟨r, remote⟩, -, h⟩ <;>
    rw [h, checkOptions_calls]
  · exact .inl rfl
  dsimp only
  rw [List.nil_append]
  rcases Script.bind_cases (getBoard opts env) _ with ⟨e, -, h⟩ | ⟨b, -, h⟩ <;> rw [h]
  · exact getBoard_calls opts env
  have hrest : (match chooseImage env b opts.image with
      | (image, isXbuddyImage) => do
        if (!env.pathExists image && !isXbuddyImage) = true then
          usage ("Image file: " ++ image ++ " does not exist!")
        pure (env.expandUser r, remote, b, image, isXbuddyImage) :
        Script (String × String × String × String × Bool)).calls = [] := by
    split
    dsimp only
    split <;> rfl
  rw [hrest, List.append_nil]
  exact getBoard_calls opts env

theorem doImageSetup_ok {root remote board image : String} {isXbuddyImage : Bool}
    (h : (doImageSetup opts env).result = .ok (root, remote, board, image, isXbuddyImage)) :
    ∃ r, opts.chromeosRoot = some r ∧ root = env.expandUser r ∧ opts.remote = some remote ∧
      BoardOf opts env board ∧ chooseImage env board opts.image = (image, isXbuddyImage) := by
  unfold doImageSetup at h
  rcases Script.bind_cases (checkOptions opts) _ with ⟨e, he, hb⟩ | ⟨⟨r, rm⟩, hc, hb⟩ <;>
    rw [hb] at h
  · cases h
  obtain ⟨-, hr, hrm⟩ := (checkOptions_ok opts).1 hc
  dsimp only at h
  rcases Script.bind_cases (getBoard opts env) _ with ⟨e, -, hb⟩ | ⟨b, hbo, hb⟩ <;> rw [hb] at h
  · cases h
  dsimp only at h
  revert h
  generalize hci : chooseImage env b opts.image = ci
  obtain ⟨i, x⟩ := ci
  dsimp only
  split
  · intro h; cases h
  · simp only [Script.pure_bind, Script.result_pure, Except.ok.injEq, Prod.mk.injEq]
    rintro ⟨rfl, rfl, rfl, rfl, rfl⟩
    exact ⟨r, hr, rfl, hrm, (getBoard_ok opts env).1 hbo, hci⟩

theorem doImageSetup_of {r remote board : String} (hlog : opts.logLevel ∈ logLevels)
    (hroot : opts.chromeosRoot = some r) (hremote : opts.remote = some remote)
    (hboard : BoardOf opts env board)
    (himage : env.pathExists (chooseImage env board opts.image).1 = true ∨
      (chooseImage env board opts.image).2 = true) :
    (doImageSetup opts env).result =
      .ok (env.expandUser r, remote, board, chooseImage env board opts.image) := by
  unfold doImageSetup
  rw [Script.bind_ok _ ((checkOptions_ok opts).2 ⟨hlog, hroot, hremote⟩)]
  dsimp only
  rw [Script.bind_ok _ ((getBoard_ok opts env).2 hboard)]
  revert himage
  obtain ⟨i, x⟩ := chooseImage env board opts.image
  dsimp only
  intro himage
  have hne : (!env.pathExists i && !x) = false := by
    rcases himage with h | h <;> simp [h]
  simp [hne]

theorem withMachineLock_cases (noLock : Bool) (acquireLock : Except String Unit)
    (body : Script Int) :
    (noLock = true ∧ withMachineLock noLock acquireLock body = body) ∨
      (noLock = false ∧ ∃ e, acquireLock = .error e ∧ withMachineLock noLock acquireLock body =
        ⟨[.acquireLock], .error (.raised ("RuntimeError: Error acquiring machine: " ++ e))⟩) ∨
      (noLock = false ∧ acquireLock = .ok () ∧ withMachineLock noLock acquireLock body =
        ⟨.acquireLock :: body.calls ++ [.releaseLock], body.result⟩) := by
  cases noLock <;> cases acquireLock <;> simp [withMachineLock]

theorem chooseImage_xbuddy (board : String) (image : Option String) :
    (chooseImage env board image).2 = true ↔
      ∃ i, image = some i ∧ LlvmTools.startsWith i.toList "xbuddy://".toList = true := by
  cases image with
  | none => simp [chooseImage]
  | some i =>
    simp only [chooseImage, Option.some.injEq, exists_eq_left']
    generalize LlvmTools.startsWith i.toList "xbuddy://".toList = b
    cases b <;> simp

theorem chooseImage_of_xbuddy (board : String) {i : String}
    (h : LlvmTools.startsWith i.toList "xbuddy://".toList = true) :
    chooseImage env board (some i) = (i, true) := by
  simp only [chooseImage, h]
  rfl

variable (root image : String)

theorem checkImage_keeps (isXbuddyImage : Bool) :
    (checkImage opts env root image isXbuddyImage).Keeps (·.isPlain) Ending.Fatal := by
  unfold checkImage
  split
  · refine (Script.keeps_call (by decide)).bind fun _ => ?_
    split
    split
    · exact (Script.keeps_call (by decide)).bind fun _ => (Script.keeps_call (by decide)).bind
        fun _ => (keeps_logFatalIf ⟨_, rfl⟩).bind fun _ => Script.keeps_pure _
    · exact Script.keeps_pure _
  · exact Script.keeps_pure _

theorem prepareFlash_keeps (remote : String) :
    (prepareFlash env remote).Keeps (·.isPlain) Ending.Fatal :=
  (Script.keeps_call (by decide)).bind fun _ => (Script.keeps_call (by decide)).bind fun _ =>
    (keeps_logFatalIf ⟨_, rfl⟩).bind fun _ => (keeps_logFatalIf ⟨_, rfl⟩).bind fun _ =>
      Script.keeps_call (by decide)

theorem prepareFlash_ok (remote : String) (h : env.checkForCrosFlash = 0) :
    prepareFlash env remote = ⟨[.remountTmp, .checkForCrosFlash, .disableCrosBeeps], .ok ()⟩ := by
  simp [prepareFlash, logFatalIf, h, Script.call]
  rfl

theorem finishImage_keeps (localImage found : Bool) :
    (finishImage env localImage found).Keeps (·.isPlain) Ending.Fatal := by
  unfold finishImage
  dsimp only
  refine (Script.keeps_call (by decide)).bind fun _ => ?_
  have hfound (ret : Int) : (if (!found) = true then Script.call .deleteTempDir >>= fun _ => pure ret
      else pure () >>= fun _ => pure ret).Keeps (·.isPlain) Ending.Fatal := by
    split
    · exact (Script.keeps_call (by decide)).bind fun _ => Script.keeps_pure _
    · exact (Script.keeps_pure _).bind fun _ => Script.keeps_pure _
  split
  · exact (Script.keeps_call (by decide)).bind fun _ => (keeps_logFatalIf ⟨_, rfl⟩).bind
      fun _ => (Script.keeps_call (by decide)).bind fun _ => (keeps_logFatalIf ⟨_, rfl⟩).bind
      fun _ => (Script.keeps_call (by decide)).bind fun _ => (Script.keeps_pure _).bind
      fun _ => hfound _
  · exact (Script.keeps_pure _).bind fun _ => hfound _

theorem flashImage_calls (command : String) :
    (flashImage env command).calls =
        List.replicate (crosFlashLoop env.crosFlash 0).1 (.crosFlash command) ∧
      ((flashImage env command).result = .ok () ↔ (crosFlashLoop env.crosFlash 0).2 = 0) := by
  simp only [flashImage, bind, Script.callAll, logFatalIf]
  split <;> simp_all [Script.stop]

theorem flashImage_keeps (command : String) :
    (flashImage env command).Keeps (· = .crosFlash command) Ending.Fatal := by
  unfold flashImage
  split
  exact (Script.keeps_callAll fun _ hc => List.eq_of_mem_replicate hc).bind fun _ =>
    keeps_logFatalIf ⟨_, rfl⟩

theorem count_crosFlash_eq_zero {α : Type} {x : Script α} {q : Ending → Prop}
    (h : x.Keeps (·.isPlain) q) (command : String) : x.calls.count (.crosFlash command) = 0 :=
  List.count_eq_zero.2 fun hc => absurd (h.calls _ hc) (by simp [ImageCall.isPlain])

variable (remote board : String)

theorem imageBody_keeps (isXbuddyImage : Bool) :
    (imageBody opts env root remote board image isXbuddyImage).Keeps
      (fun c => c ≠ .acquireLock ∧ c ≠ .releaseLock ∧ c ≠ .crosLearnBoard) Ending.Fatal := by
  have hplain (c : ImageCall) (h : c.isPlain) :
      c ≠ .acquireLock ∧ c ≠ .releaseLock ∧ c ≠ .crosLearnBoard := by
    refine ⟨?_, ?_, ?_⟩ <;> rintro rfl <;> exact absurd h (by decide)
  refine ((checkImage_keeps opts env root image _).mono hplain fun _ h => h).bind fun d => ?_
  split
  · exact ((prepareFlash_keeps env remote).mono hplain fun _ h => h).bind fun _ =>
      ((flashImage_keeps env _).mono (fun c h => by subst h; simp) fun _ h => h).bind fun _ =>
        (finishImage_keeps env _ _).mono hplain fun _ h => h
  · exact (Script.keeps_call (by simp)).bind fun _ => Script.keeps_pure _

theorem checkImage_reimage {isXbuddyImage localImage found : Bool} {target : String}
    (h : (checkImage opts env root image isXbuddyImage).result =
      .ok (.reimage localImage found target)) :
    (isXbuddyImage = true ∧ target = image) ∨
      (env.md5File.toList ≠ LlvmTools.pyStrip env.readChecksum.2.toList ∧
        (env.isImageModdedForTest = true ∨ opts.force = true) ∧
        target = findChromeOSImage env env.locateOrCopyImage.2 root) := by
  cases isXbuddyImage with
  | true =>
    simp only [checkImage, Bool.not_true, Script.result_pure] at h
    cases h
    exact .inl ⟨rfl, rfl⟩
  | false =>
    refine .inr ?_
    simp only [checkImage, Bool.not_false, if_true, Script.call_bind] at h
    split at h
    · simp only [Script.call_bind, logFatalIf] at h
      split at h
      · cases h
      · rename_i hne hf
        simp only [Script.pure_bind, Script.result_pure, Except.ok.injEq, Decision.reimage.injEq] at h
        refine ⟨hne, ?_, h.2.2.symm⟩
        by_cases ht : env.isImageModdedForTest = true
        · exact .inl ht
        · exact .inr (by simpa [ht] using hf)
    · cases h

theorem imageBody_crosFlash {isXbuddyImage : Bool} {command : String}
    (h : ImageCall.crosFlash command ∈ (imageBody opts env root remote board image isXbuddyImage).calls) :
    ∃ localImage found target,
      (checkImage opts env root image isXbuddyImage).result = .ok (.reimage localImage found target) ∧
        command = crosFlashCommand board remote target := by
  have hcheck := checkImage_keeps opts env root image isXbuddyImage
  unfold imageBody at h
  rcases Script.bind_cases (checkImage opts env root image isXbuddyImage) _ with
    ⟨e, -, hb⟩ | ⟨d, hd, hb⟩ <;> rw [hb] at h
  · exact absurd (hcheck.calls _ h) (by simp [ImageCall.isPlain])
  rcases List.mem_append.1 h with h | h
  · exact absurd (hcheck.calls _ h) (by simp [ImageCall.isPlain])
  cases d with
  | keep ret => simp at h
  | reimage localImage found target =>
    refine ⟨localImage, found, target, hd, ?_⟩
    have hother : ∀ {α : Type} {x : Script α} {q : Ending → Prop}, x.Keeps (·.isPlain) q →
        ImageCall.crosFlash command ∉ x.calls := fun hx hc =>
      absurd (hx.calls _ hc) (by simp [ImageCall.isPlain])
    dsimp only at h
    rcases Script.bind_cases (prepareFlash env remote) _ with ⟨e, -, hp⟩ | ⟨u, -, hp⟩ <;>
      rw [hp] at h
    · exact (hother (prepareFlash_keeps env remote) h).elim
    rcases List.mem_append.1 h with h | h
    · exact (hother (prepareFlash_keeps env remote) h).elim
    rcases Script.bind_cases (flashImage env _) _ with ⟨e, -, hf⟩ | ⟨v, -, hf⟩ <;> rw [hf] at h
    · exact ImageCall.crosFlash.inj ((flashImage_keeps env _).calls _ h)
    rcases List.mem_append.1 h with h | h
    · exact ImageCall.crosFlash.inj ((flashImage_keeps env _).calls _ h)
    · exact (hother (finishImage_keeps env _ _) h).elim

theorem imageBody_count_crosFlash (isXbuddyImage : Bool) (command : String) :
    (imageBody opts env root remote board image isXbuddyImage).calls.count (.crosFlash command) = 0 ∨
      (imageBody opts env root remote board image isXbuddyImage).calls.count (.crosFlash command) =
        (crosFlashLoop env.crosFlash 0).1 := by
  have hcheck := count_crosFlash_eq_zero (checkImage_keeps opts env root image isXbuddyImage) command
  unfold imageBody
  rcases Script.bind_cases (checkImage opts env root image isXbuddyImage) _ with
    ⟨e, -, hb⟩ | ⟨d, -, hb⟩ <;> rw [hb]
  · exact .inl hcheck
  cases d with
  | keep ret => exact .inl (by simp [hcheck])
  | reimage localImage found target =>
    have hprep := count_crosFlash_eq_zero (prepareFlash_keeps env remote) command
    have hfinish := count_crosFlash_eq_zero (finishImage_keeps env localImage found) command
    have hflash : (flashImage env (crosFlashCommand board remote target)).calls.count
        (.crosFlash command) = 0 ∨
        (flashImage env (crosFlashCommand board remote target)).calls.count (.crosFlash command) =
          (crosFlashLoop env.crosFlash 0).1 := by
      rw [(flashImage_calls env _).1, List.count_replicate]
      split <;> simp
    dsimp only
    rcases Script.bind_cases (prepareFlash env remote) _ with ⟨e, -, hp⟩ | ⟨u, -, hp⟩ <;> rw [hp]
    · exact .inl (by simp [hcheck, hprep])
    rcases Script.bind_cases (flashImage env _) _ with ⟨e, -, hf⟩ | ⟨v, -, hf⟩ <;> rw [hf] <;>
      rcases hflash with hz | hz
    · exact .inl (by simp [hcheck, hprep, hz])
    · exact .inr (by simp [hcheck, hprep, hz])
    · exact .inl (by simp [hcheck, hprep, hz, hfinish])
    · exact .inr (by simp [hcheck, hprep, hz, hfinish])

theorem imageBody_flashes_xbuddy (hcheck : env.checkForCrosFlash = 0) :
    ImageCall.crosFlash (crosFlashCommand board remote image) ∈
      (imageBody opts env root remote board image true).calls := by
  obtain ⟨k, -, -, hrun, -, -⟩ := crosFlashLoop_spec env.crosFlash 0 (by omega)
  have hflash : ImageCall.crosFlash (crosFlashCommand board remote image) ∈
      (flashImage env (crosFlashCommand board remote image)).calls := by
    rw [(flashImage_calls env _).1, hrun]
    exact List.mem_replicate.2 ⟨by omega, rfl⟩
  have hc : checkImage opts env root image true = pure (.reimage false true image) := rfl
  unfold imageBody
  rw [hc, Script.pure_bind]
  dsimp only
  rw [prepareFlash_ok env remote hcheck, Script.bind_ok _ rfl]
  exact List.mem_append_right _ ((Script.calls_prefix_bind _ _).subset hflash)

end Runs

section Properties

variable (opts : ImageOptions) (env : ImageEnv)

theorem doImage_cases :
    (∃ e, (doImageSetup opts env).result = .error e ∧
      doImage opts env = ⟨(doImageSetup opts env).calls, .error e⟩) ∨
    ∃ root remote board image isXbuddyImage,
      (doImageSetup opts env).result = .ok (root, remote, board, image, isXbuddyImage) ∧
      doImage opts env = ⟨(doImageSetup opts env).calls ++
        (withMachineLock opts.noLock env.acquireLock
          (imageBody opts env root remote board image isXbuddyImage)).calls,
        (withMachineLock opts.noLock env.acquireLock
          (imageBody opts env root remote board image isXbuddyImage)).result⟩ := by
  unfold doImage
  rcases Script.bind_cases (doImageSetup opts env) _ with ⟨e, he, h⟩ | ⟨a, ha, h⟩ <;> rw [h]
  · exact .inl ⟨e, he, rfl⟩
  · obtain ⟨root, remote, board, image, xb⟩ := a
    exact .inr ⟨root, remote, board, image, xb, ha, rfl⟩

theorem doImage_count_crosFlash (command : String) :
    (doImage opts env).calls.count (.crosFlash command) = 0 ∨
      ∃ root remote board image xb,
        (doImageSetup opts env).result = .ok (root, remote, board, image, xb) ∧
        (doImage opts env).calls.count (.crosFlash command) =
          (imageBody opts env root remote board image xb).calls.count (.crosFlash command) := by
  have hsetup : (doImageSetup opts env).calls.count (.crosFlash command) = 0 := by
    rcases doImageSetup_calls opts env with h | ⟨h, -⟩ <;> rw [h] <;> simp
  rcases doImage_cases opts env with ⟨e, -, h⟩ | ⟨root, remote, board, image, xb, hs, h⟩ <;> rw [h]
  · exact .inl hsetup
  rcases withMachineLock_cases opts.noLock env.acquireLock
      (imageBody opts env root remote board image xb) with
    ⟨-, hw⟩ | ⟨-, e, -, hw⟩ | ⟨-, -, hw⟩ <;> rw [hw]
  · exact .inr ⟨root, remote, board, image, xb, hs, by simp [hsetup]⟩
  · exact .inl (by simp [hsetup])
  · exact .inr ⟨root, remote, board, image, xb, hs, by simp [hsetup]⟩

theorem doImage_crosFlash_runs (command : String) :
    (doImage opts env).calls.count (.crosFlash command) ≤ 3 ∧
      ∀ j, j + 1 < (doImage opts env).calls.count (.crosFlash command) → env.crosFlash j ≠ 0 := by
  have hcount : (doImage opts env).calls.count (.crosFlash command) = 0 ∨
      (doImage opts env).calls.count (.crosFlash command) = (crosFlashLoop env.crosFlash 0).1 := by
    rcases doImage_count_crosFlash opts env command with h | ⟨root, remote, board, image, xb, -, h⟩
    · exact .inl h
    · rw [h]
      exact imageBody_count_crosFlash opts env root image remote board xb command
  obtain ⟨k, -, hk, hrun, hfail, -⟩ := crosFlashLoop_spec env.crosFlash 0 (by omega)
  simp only [hrun] at hcount
  rcases hcount with h | h <;> rw [h]
  · exact ⟨by omega, fun j hj => absurd hj (by omega)⟩
  · exact ⟨by omega, fun j hj => hfail j (Nat.zero_le _) (by omega)⟩

/-- A run with `--board` unset on an `xbuddy://` image, on a device whose `learn_board`
prints its board last. -/
def xbuddyOptions : ImageOptions :=
  ⟨some "chromeos", some "dut1", some "xbuddy://remote/eve/latest", none, false, false, "verbose"⟩

def learningDevice : ImageEnv where
  expandUser := id
  realPath := id
  pathExists := fun _ => true
  getUser := "user"
  crosLearnBoard := (0, "FLAGS_board\neve\n")
  imageDir := fun board => "images/" ++ board
  acquireLock := .ok ()
  md5File := "a1"
  readChecksum := (1, "")
  locateOrCopyImage := (true, "images/latest/chromiumos_test_image.bin")
  isImageModdedForTest := true
  checkForCrosFlash := 0
  crosFlash := fun _ => 0
  ensureMachineUp := true
  writeChecksum := 0
  verifyChromeChecksum := true

end Properties

end ToolchainUtils.ImageChromeos
