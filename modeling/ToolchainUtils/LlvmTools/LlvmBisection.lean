import Mathlib.Data.List.Sort
import Mathlib.Tactic.Ring

/-!
`llvm_tools/llvm_bisection.py`: from the tryjobs recorded so far, the next interval of LLVM
revisions and the revisions between its ends to launch tryjobs for. The LLVM source tree
is a function from a revision to its git hash (`GetGitHashForVersion` raises `ValueError`
where it is `none`); revisions are SVN numbers. `TryjobStatus` and `FindTryjobIndex` live
in `update_tryjob_status.py`, which is not among the sources: the values of the statuses
are parameters, and the index is the first tryjob with the revision.
-/

set_option autoImplicit false

namespace ToolchainUtils.LlvmTools

/-- The `.value`s of the members of `TryjobStatus` that the bisection reads. -/
structure TryjobStatus where
  good : String
  bad : String
  pending : String

/-- A tryjob of the JSON file: its `rev`, its `status` (`none` when missing or `None`) and
its `link`. -/
structure Tryjob where
  rev : Nat
  status : Option String
  link : String
  deriving DecidableEq, Repr

/-- `not cur_tryjob_dict.get('status', None)`. -/
def Tryjob.statusMissing (j : Tryjob) : Bool := j.status = none ∨ j.status = some ""

/-- `GetStartAndEndRevision(start, end, tryjobs)`: the last good and the first bad
revision, and the pending revisions between them. -/
def getStartAndEndRevision (ts : TryjobStatus) (start end_ : Nat) (tryjobs : List Tryjob) :
    Except String (Nat × Nat × List Nat) :=
  if tryjobs = [] then .ok (start, end_, [])
  else
    match tryjobs.find? Tryjob.statusMissing with
    | some j => .error ("'status' is missing or has no value, please go to " ++ j.link ++
        " and update it")
    | none =>
      -- min([end] + bad revisions) and max([start] + good revisions)
      let badRev := ((tryjobs.filter (·.status = some ts.bad)).map (·.rev)).foldl min end_
      let goodRev := ((tryjobs.filter (·.status = some ts.good)).map (·.rev)).foldl max start
      if goodRev < badRev then
        .ok (goodRev, badRev, (tryjobs.filter fun j =>
          j.status = some ts.pending ∧ goodRev < j.rev ∧ j.rev < badRev).map (·.rev))
      else .error ("Bisection is broken because " ++ toString goodRev ++ " (good) is >= " ++
        toString badRev ++ " (bad)")

/-- `range(start, stop, step)` for a positive `step`. -/
def pyRange (start stop step : Nat) : List Nat :=
  List.range' start ((stop - start + step - 1) / step) step

/-- The loop of `GetRevisionsBetweenBisection` that collects `valid_revisions`: the
revisions strictly between `start` and `end` that are not pending and have a git hash. -/
def validRevisions (start end_ : Nat) (gitHashForVersion : Nat → Option String)
    (pendingRevisions : List Nat) : List Nat :=
  (List.range' (start + 1) (end_ - (start + 1))).filter fun r =>
    decide (r ∉ pendingRevisions) && (gitHashForVersion r).isSome

/-- `GetRevisionsBetweenBisection(start, end, parallel, src_path, pending_revisions)`. -/
def getRevisionsBetweenBisection (start end_ parallel : Nat)
    (gitHashForVersion : Nat → Option String) (pendingRevisions : List Nat) : List Nat :=
  let valid := validRevisions start end_ gitHashForVersion pendingRevisions
  let indexStep := valid.length / (parallel + 1)
  let indexStep := if indexStep = 0 then 1 else indexStep
  (pyRange indexStep valid.length indexStep).filterMap (valid[·]?)

/-- `GetRevisionsListAndHashList`: the revisions and their git hashes. -/
def getRevisionsListAndHashList (start end_ parallel : Nat)
    (gitHashForVersion : Nat → Option String) (pendingRevisions : List Nat) :
    Except String (List Nat × List String) := do
  let revisions := getRevisionsBetweenBisection start end_ parallel gitHashForVersion
    pendingRevisions
  let gitHashes ← revisions.mapM fun rev =>
    match gitHashForVersion rev with
    | some h => .ok h
    | none => .error "ValueError"
  if revisions = [] then
    throw ("No revisions between start " ++ toString start ++ " and end " ++ toString end_ ++
      " to create tryjobs.")
  return (revisions, gitHashes)

/-- `FindTryjobIndex(revision, tryjobs)`. -/
def findTryjobIndex (revision : Nat) (tryjobs : List Tryjob) : Option Nat :=
  tryjobs.findIdx? (·.rev = revision)

/-- `_ValidateStartAndEndAgainstJSONStartAndEnd`. -/
def validateStartAndEndAgainstJSONStartAndEnd (start end_ jsonStart jsonEnd : Nat) :
    Except String Unit :=
  if start ≠ jsonStart ∨ end_ ≠ jsonEnd then
    .error ("The start " ++ toString start ++ " or the end " ++ toString end_ ++
      " version provided is different than 'start' " ++ toString jsonStart ++ " or 'end' " ++
      toString jsonEnd ++ " in the .JSON file")
  else .ok ()

/-- `main` from the contents of the JSON file to the tryjobs it is about to launch: the
revisions and their hashes, after the check that none of them has a tryjob already. -/
def bisectionRevisions (ts : TryjobStatus) (start end_ parallel : Nat)
    (gitHashForVersion : Nat → Option String) (jsonStart jsonEnd : Nat) (jobs : List Tryjob) :
    Except String (List Nat × List String) := do
  validateStartAndEndAgainstJSONStartAndEnd start end_ jsonStart jsonEnd
  let (startRevision, endRevision, pendingRevisions) ← getStartAndEndRevision ts start end_ jobs
  let (revisions, gitHashes) ← getRevisionsListAndHashList startRevision endRevision parallel
    gitHashForVersion pendingRevisions
  match revisions.find? fun rev => (findTryjobIndex rev jobs).isSome with
  | some rev => throw ("Revision " ++ toString rev ++ " exists already in 'jobs'")
  | none => return (revisions, gitHashes)

/-- The `last_tested` JSON file: `{'start': start, 'end': end, 'jobs': [...]}`. -/
structure BisectContents where
  start : Nat
  end_ : Nat
  jobs : List Tryjob
  deriving DecidableEq, Repr

/-- The launch loop of `main`: `AddTryjob` for each revision and its git hash, appending
the tryjob it returns to `jobs`, until it raises. -/
def addTryjobs (addTryjob : Nat → String → Except String Tryjob) :
    List (Nat × String) → List Tryjob → Except String Unit × List Tryjob
  | [], jobs => (.ok (), jobs)
  | (rev, gitHash) :: rest, jobs =>
    match addTryjob rev gitHash with
    | .ok tryjob => addTryjobs addTryjob rest (jobs ++ [tryjob])
    | .error e => (.error e, jobs)

/-- `main` on the `last_tested` file (`none` when it does not exist): what it raises, if
anything, and the file afterwards. What raises before the launch loop leaves the file as
it was; from the loop on, the `finally` writes the tryjobs launched so far. -/
def bisectionMain (ts : TryjobStatus) (start end_ parallel : Nat)
    (gitHashForVersion : Nat → Option String) (addTryjob : Nat → String → Except String Tryjob)
    (file : Option BisectContents) : Except String Unit × Option BisectContents :=
  let bisectContents := file.getD ⟨start, end_, []⟩
  match bisectionRevisions ts start end_ parallel gitHashForVersion bisectContents.start
      bisectContents.end_ bisectContents.jobs with
  | .error e => (.error e, file)
  | .ok (revisions, gitHashes) =>
    let (result, jobs) := addTryjobs addTryjob (revisions.zip gitHashes) bisectContents.jobs
    (result, some { bisectContents with jobs := jobs })

theorem mem_validRevisions {start end_ : Nat} {gitHashForVersion : Nat → Option String}
    {pendingRevisions : List Nat} {r : Nat} :
    r ∈ validRevisions start end_ gitHashForVersion pendingRevisions ↔
      start < r ∧ r < end_ ∧ r ∉ pendingRevisions ∧ (gitHashForVersion r).isSome := by
  have hr : r ∈ List.range' (start + 1) (end_ - (start + 1)) ↔ start < r ∧ r < end_ := by
    rw [List.mem_range'_1]
    omega
  simp only [validRevisions, List.mem_filter, hr, Bool.and_eq_true, decide_eq_true_eq, and_assoc]

theorem validRevisions_sorted (start end_ : Nat) (gitHashForVersion : Nat → Option String)
    (pendingRevisions : List Nat) :
    (validRevisions start end_ gitHashForVersion pendingRevisions).Sorted (· < ·) :=
  (List.pairwise_lt_range' _ _).filter _

section Selection

variable (start end_ parallel : Nat) (gitHashForVersion : Nat → Option String)
  (pendingRevisions : List Nat)

theorem getRevisionsBetweenBisection_sublist :
    (∀ r ∈ getRevisionsBetweenBisection start end_ parallel gitHashForVersion pendingRevisions,
      r ∈ validRevisions start end_ gitHashForVersion pendingRevisions) ∧
    (getRevisionsBetweenBisection start end_ parallel gitHashForVersion pendingRevisions).Sorted
      (· < ·) := by
  set valid := validRevisions start end_ gitHashForVersion pendingRevisions
  have hv := validRevisions_sorted start end_ gitHashForVersion pendingRevisions
  refine ⟨fun r hr => ?_, ?_⟩
  · obtain ⟨i, -, hi⟩ := List.mem_filterMap.1 hr
    obtain ⟨h, rfl⟩ := List.getElem?_eq_some_iff.1 hi
    exact List.getElem_mem h
  · refine List.pairwise_filterMap.2 ((List.pairwise_lt_range' _ _ _ ?_).imp fun hij => ?_)
    · split_ifs with h
      exacts [Nat.one_pos, Nat.pos_of_ne_zero h]
    · intro b hb b' hb'
      obtain ⟨hi, rfl⟩ := List.getElem?_eq_some_iff.1 hb
      obtain ⟨hj, rfl⟩ := List.getElem?_eq_some_iff.1 hb'
      exact List.pairwise_iff_getElem.1 hv _ _ hi hj hij

theorem length_getRevisionsBetweenBisection_of_lt
    (h : (validRevisions start end_ gitHashForVersion pendingRevisions).length <
      2 * (parallel + 1)) :
    (getRevisionsBetweenBisection start end_ parallel gitHashForVersion pendingRevisions).length =
      (validRevisions start end_ gitHashForVersion pendingRevisions).length - 1 := by
  set valid := validRevisions start end_ gitHashForVersion pendingRevisions
  have hstep : (if valid.length / (parallel + 1) = 0 then 1 else valid.length / (parallel + 1)) =
      1 := by
    have : valid.length / (parallel + 1) < 2 := Nat.div_lt_of_lt_mul (by omega)
    generalize valid.length / (parallel + 1) = q at this ⊢
    split_ifs <;> omega
  have hrange : pyRange 1 valid.length 1 = List.range' 1 (valid.length - 1) := by
    simp only [pyRange, Nat.add_sub_cancel, Nat.div_one]
  simp only [getRevisionsBetweenBisection, hstep, hrange]
  rw [List.filterMap_length_eq_length.2 fun i hi => ?_, List.length_range']
  rw [List.mem_range'_1] at hi
  simp [List.getElem?_eq_getElem (show i < valid.length by omega)]

end Selection

theorem getRevisionsBetweenBisection_miscounts (start end_ parallel : Nat)
    (gitHashForVersion : Nat → Option String) (pendingRevisions : List Nat) :
    ((validRevisions start end_ gitHashForVersion pendingRevisions).length = 1 →
      getRevisionsBetweenBisection start end_ parallel gitHashForVersion pendingRevisions = [] ∧
      getRevisionsListAndHashList start end_ parallel gitHashForVersion pendingRevisions =
        .error ("No revisions between start " ++ toString start ++ " and end " ++ toString end_ ++
          " to create tryjobs.")) ∧
    (parallel + 2 ≤ (validRevisions start end_ gitHashForVersion pendingRevisions).length →
      (validRevisions start end_ gitHashForVersion pendingRevisions).length < 2 * (parallel + 1) →
      parallel <
        (getRevisionsBetweenBisection start end_ parallel gitHashForVersion pendingRevisions).length) := by
  refine ⟨fun h1 => ?_, fun hlo hhi => ?_⟩
  · have hnil : getRevisionsBetweenBisection start end_ parallel gitHashForVersion
        pendingRevisions = [] := List.eq_nil_of_length_eq_zero <| by
      rw [length_getRevisionsBetweenBisection_of_lt _ _ _ _ _ (by omega), h1]
    refine ⟨hnil, ?_⟩
    simp only [getRevisionsListAndHashList, hnil, List.mapM_nil]
    rfl
  · rw [length_getRevisionsBetweenBisection_of_lt _ _ _ _ _ hhi]
    omega

theorem revision_one_and_five_miscounted :
    ((validRevisions 0 2 (fun _ => some "") []).length = 1 ∧
      getRevisionsBetweenBisection 0 2 1 (fun _ => some "") [] = [] ∧
      getRevisionsListAndHashList 0 2 1 (fun _ => some "") [] =
        .error "No revisions between start 0 and end 2 to create tryjobs.") ∧
    (2 + 2 ≤ (validRevisions 0 6 (fun _ => some "") []).length ∧
      (validRevisions 0 6 (fun _ => some "") []).length < 2 * (2 + 1) ∧
      2 < (getRevisionsBetweenBisection 0 6 2 (fun _ => some "") []).length) :=
  have h1 : (validRevisions 0 2 (fun _ => some "") []).length = 1 := rfl
  have h5 : (validRevisions 0 6 (fun _ => some "") []).length = 5 := rfl
  ⟨⟨h1, (getRevisionsBetweenBisection_miscounts 0 2 1 _ _).1 h1⟩,
    by rw [h5]; decide, by rw [h5]; decide,
    (getRevisionsBetweenBisection_miscounts 0 6 2 _ _).2 (by rw [h5]; decide)
      (by rw [h5]; decide)⟩

example : getRevisionsBetweenBisection 0 6 2 (fun _ => some "") [] = [2, 3, 4, 5] := rfl

section Tryjobs

theorem le_foldl_max (l : List Nat) (a : Nat) : a ≤ l.foldl max a ∧ ∀ x ∈ l, x ≤ l.foldl max a := by
  induction l generalizing a with
  | nil => simp
  | cons b l ih =>
    obtain ⟨h₁, h₂⟩ := ih (max a b)
    refine ⟨le_trans (le_max_left a b) h₁, ?_⟩
    simp only [List.mem_cons, forall_eq_or_imp, List.foldl_cons]
    exact ⟨le_trans (le_max_right a b) h₁, h₂⟩

theorem foldl_min_le (l : List Nat) (a : Nat) : l.foldl min a ≤ a ∧ ∀ x ∈ l, l.foldl min a ≤ x := by
  induction l generalizing a with
  | nil => simp
  | cons b l ih =>
    obtain ⟨h₁, h₂⟩ := ih (min a b)
    refine ⟨le_trans h₁ (min_le_left a b), ?_⟩
    simp only [List.mem_cons, forall_eq_or_imp, List.foldl_cons]
    exact ⟨le_trans h₁ (min_le_right a b), h₂⟩

theorem getStartAndEndRevision_bounds (ts : TryjobStatus) {start end_ goodRev badRev : Nat}
    {tryjobs : List Tryjob} {pending : List Nat}
    (h : getStartAndEndRevision ts start end_ tryjobs = .ok (goodRev, badRev, pending)) :
    start ≤ goodRev ∧ badRev ≤ end_ ∧ ∀ j ∈ tryjobs,
      (j.status = some ts.good → j.rev ≤ goodRev) ∧ (j.status = some ts.bad → badRev ≤ j.rev) ∧
      (j.status = some ts.pending → goodRev < j.rev → j.rev < badRev → j.rev ∈ pending) := by
  unfold getStartAndEndRevision at h
  split_ifs at h with h0
  · cases h
    exact ⟨le_rfl, le_rfl, by simp [h0]⟩
  · split at h
    · cases h
    · dsimp only at h
      split_ifs at h with hlt
      cases h
      obtain ⟨g₁, g₂⟩ := le_foldl_max ((tryjobs.filter (·.status = some ts.good)).map (·.rev)) start
      obtain ⟨b₁, b₂⟩ := foldl_min_le ((tryjobs.filter (·.status = some ts.bad)).map (·.rev)) end_
      refine ⟨g₁, b₁, fun j hj => ⟨fun hg => g₂ _ ?_, fun hb => b₂ _ ?_, fun hp h₁ h₂ => ?_⟩⟩
      · exact List.mem_map_of_mem _ (List.mem_filter.2 ⟨hj, by simpa using hg⟩)
      · exact List.mem_map_of_mem _ (List.mem_filter.2 ⟨hj, by simpa using hb⟩)
      · exact List.mem_map_of_mem _ (List.mem_filter.2 ⟨hj, by simp [hp, h₁, h₂]⟩)

theorem selected_revision_not_good_bad_pending (ts : TryjobStatus) (start end_ parallel : Nat)
    (gitHashForVersion : Nat → Option String) {goodRev badRev : Nat} {tryjobs : List Tryjob}
    {pending : List Nat}
    (h : getStartAndEndRevision ts start end_ tryjobs = .ok (goodRev, badRev, pending))
    {r : Nat} (hr : r ∈ getRevisionsBetweenBisection goodRev badRev parallel gitHashForVersion pending)
    {j : Tryjob} (hj : j ∈ tryjobs) (hjr : j.rev = r) :
    j.status ≠ some ts.good ∧ j.status ≠ some ts.bad ∧ j.status ≠ some ts.pending := by
  obtain ⟨-, -, hb⟩ := getStartAndEndRevision_bounds ts h
  obtain ⟨hg, hbad, hp⟩ := hb j hj
  obtain ⟨h₁, h₂, h₃, -⟩ := mem_validRevisions.1
    ((getRevisionsBetweenBisection_sublist goodRev badRev parallel gitHashForVersion pending).1 r hr)
  subst hjr
  exact ⟨fun h => by have := hg h; omega, fun h => by have := hbad h; omega,
    fun h => h₃ (hp h h₁ h₂)⟩

theorem skip_tryjob_not_good_bad_pending :
    getStartAndEndRevision ⟨"good", "bad", "pending"⟩ 0 4 [⟨2, some "skip", ""⟩] =
        .ok (0, 4, []) ∧
      2 ∈ getRevisionsBetweenBisection 0 4 1 (fun _ => some "") [] ∧
      (some "skip" ≠ some "good" ∧ some "skip" ≠ some "bad" ∧ some "skip" ≠ some "pending") := by
  have h : getStartAndEndRevision ⟨"good", "bad", "pending"⟩ 0 4 [⟨2, some "skip", ""⟩] =
      .ok (0, 4, []) := rfl
  have hr : 2 ∈ getRevisionsBetweenBisection 0 4 1 (fun _ => some "") [] := by decide
  exact ⟨h, hr, selected_revision_not_good_bad_pending ⟨"good", "bad", "pending"⟩ 0 4 1
    (fun _ => some "") h hr (List.mem_singleton_self _) rfl⟩

theorem bisection_reselects_other_status (ts : TryjobStatus) (s link : String)
    (hs : s ≠ "" ∧ s ≠ ts.good ∧ s ≠ ts.bad ∧ s ≠ ts.pending) :
    getStartAndEndRevision ts 0 4 [⟨2, some s, link⟩] = .ok (0, 4, []) ∧
      2 ∈ getRevisionsBetweenBisection 0 4 1 (fun _ => some "") [] ∧
      bisectionRevisions ts 0 4 1 (fun _ => some "") 0 4 [⟨2, some s, link⟩] =
        .error "Revision 2 exists already in 'jobs'" := by
  obtain ⟨h₀, hg, hb, hp⟩ := hs
  have hstart : getStartAndEndRevision ts 0 4 [⟨2, some s, link⟩] = .ok (0, 4, []) := by
    simp [getStartAndEndRevision, Tryjob.statusMissing, h₀, hg, hb, hp]
  refine ⟨hstart, by decide, ?_⟩
  simp only [bisectionRevisions, validateStartAndEndAgainstJSONStartAndEnd, hstart]
  rfl

theorem skip_tryjob_reselected :
    ("skip" ≠ "" ∧ "skip" ≠ "good" ∧ "skip" ≠ "bad" ∧ "skip" ≠ "pending") ∧
      getStartAndEndRevision ⟨"good", "bad", "pending"⟩ 0 4 [⟨2, some "skip", ""⟩] =
        .ok (0, 4, []) ∧
      2 ∈ getRevisionsBetweenBisection 0 4 1 (fun _ => some "") [] ∧
      bisectionRevisions ⟨"good", "bad", "pending"⟩ 0 4 1 (fun _ => some "") 0 4
        [⟨2, some "skip", ""⟩] = .error "Revision 2 exists already in 'jobs'" :=
  ⟨by decide, bisection_reselects_other_status ⟨"good", "bad", "pending"⟩ "skip" "" (by decide)⟩

end Tryjobs

section Runs

/-!
### The `last_tested` file across runs

`main` reads the tryjobs from the `last_tested` file and writes them back with the ones it
launches; between runs `update_tryjob_status.py` sets their statuses. `AddTryjob` lives in
`modify_a_tryjob.py`, which is not among the sources: it is a parameter of each run.
-/

/-- What changes the `last_tested` file: a run of `main`, with its arguments and the LLVM
tree and tryjob service it sees, or `update_tryjob_status.py` setting the status of the
tryjob at an index. -/
inductive BisectEvent
  | main (start end_ parallel : Nat) (gitHashForVersion : Nat → Option String)
      (addTryjob : Nat → String → Except String Tryjob)
  | setStatus (index : Nat) (status : Option String)

def BisectEvent.apply (ts : TryjobStatus) (file : Option BisectContents) :
    BisectEvent → Option BisectContents
  | .main start end_ parallel gitHashForVersion addTryjob =>
    (bisectionMain ts start end_ parallel gitHashForVersion addTryjob file).2
  | .setStatus index status =>
    file.map fun c =>
      { c with jobs := c.jobs.modify (fun j => { j with status := status }) index }

/-- `AddTryjob` returns a tryjob for the revision it is asked to launch. -/
def BisectEvent.LaunchesRequested : BisectEvent → Prop
  | .main _ _ _ _ addTryjob => ∀ rev gitHash tryjob, addTryjob rev gitHash = .ok tryjob →
      tryjob.rev = rev
  | .setStatus .. => True

/-- The file's tryjobs are for distinct revisions, all strictly between its `start` and
its `end`. -/
def BisectContents.WellFormed (c : BisectContents) : Prop :=
  (c.jobs.map (·.rev)).Nodup ∧ ∀ r ∈ c.jobs.map (·.rev), c.start < r ∧ r < c.end_

theorem except_bind_eq_ok {ε α β : Type} {x : Except ε α} {f : α → Except ε β} {b : β} :
    x >>= f = .ok b ↔ ∃ a, x = .ok a ∧ f a = .ok b := by
  cases x <;> simp [bind, Except.bind]

theorem getRevisionsListAndHashList_ok {start end_ parallel : Nat}
    {gitHashForVersion : Nat → Option String} {pendingRevisions revisions : List Nat}
    {gitHashes : List String}
    (h : getRevisionsListAndHashList start end_ parallel gitHashForVersion pendingRevisions =
      .ok (revisions, gitHashes)) :
    revisions = getRevisionsBetweenBisection start end_ parallel gitHashForVersion
      pendingRevisions := by
  obtain ⟨_, -, h⟩ := except_bind_eq_ok.1 h
  split_ifs at h
  · cases h
  · cases h
    rfl

theorem findTryjobIndex_eq_none {revision : Nat} {tryjobs : List Tryjob} :
    findTryjobIndex revision tryjobs = none ↔ revision ∉ tryjobs.map (·.rev) := by
  simp [findTryjobIndex, List.findIdx?_eq_none_iff]

theorem bisectionRevisions_ok {ts : TryjobStatus} {start end_ parallel : Nat}
    {gitHashForVersion : Nat → Option String} {jsonStart jsonEnd : Nat} {jobs : List Tryjob}
    {revisions : List Nat} {gitHashes : List String}
    (h : bisectionRevisions ts start end_ parallel gitHashForVersion jsonStart jsonEnd jobs =
      .ok (revisions, gitHashes)) :
    start = jsonStart ∧ end_ = jsonEnd ∧ revisions.Sorted (· < ·) ∧
      ∀ r ∈ revisions, start < r ∧ r < end_ ∧ r ∉ jobs.map (·.rev) := by
  obtain ⟨⟨⟩, hv, h⟩ := except_bind_eq_ok.1 h
  obtain ⟨⟨goodRev, badRev, pending⟩, hse, h⟩ := except_bind_eq_ok.1 h
  obtain ⟨⟨revs, hashes⟩, hrh, h⟩ := except_bind_eq_ok.1 h
  have hse' : start ≤ goodRev ∧ badRev ≤ end_ :=
    (getStartAndEndRevision_bounds ts hse).imp_right And.left
  obtain rfl := getRevisionsListAndHashList_ok hrh
  unfold validateStartAndEndAgainstJSONStartAndEnd at hv
  split_ifs at hv with hje
  simp only [not_or, not_not] at hje
  dsimp only at h
  split at h
  · cases h
  · rename_i hfind
    cases h
    obtain ⟨hmem, hsorted⟩ :=
      getRevisionsBetweenBisection_sublist goodRev badRev parallel gitHashForVersion pending
    refine ⟨hje.1, hje.2, hsorted, fun r hr => ?_⟩
    obtain ⟨h₁, h₂, -⟩ := mem_validRevisions.1 (hmem r hr)
    refine ⟨by omega, by omega, fun hj => ?_⟩
    have := List.find?_eq_none.1 hfind r hr
    exact findTryjobIndex_eq_none.1 (by simpa using this) hj

theorem map_fst_zip_isPrefix {α β : Type} :
    ∀ (l₁ : List α) (l₂ : List β), (l₁.zip l₂).map Prod.fst <+: l₁
  | [], _ => List.nil_prefix
  | _ :: _, [] => List.nil_prefix
  | a :: l₁, _ :: l₂ => (List.prefix_cons_inj a).2 (map_fst_zip_isPrefix l₁ l₂)

theorem addTryjobs_appends {addTryjob : Nat → String → Except String Tryjob}
    (h : ∀ rev gitHash tryjob, addTryjob rev gitHash = .ok tryjob → tryjob.rev = rev) :
    ∀ (ps : List (Nat × String)) (jobs : List Tryjob), ∃ added,
      (addTryjobs addTryjob ps jobs).2 = jobs ++ added ∧ added.map (·.rev) <+: ps.map Prod.fst
  | [], jobs => ⟨[], by simp [addTryjobs]⟩
  | (rev, gitHash) :: ps, jobs => by
    simp only [addTryjobs]
    split
    · rename_i tryjob ht
      obtain ⟨added, h₁, h₂⟩ := addTryjobs_appends h ps (jobs ++ [tryjob])
      exact ⟨tryjob :: added, by simp [h₁], by simpa [h rev gitHash tryjob ht] using h₂⟩
    · exact ⟨[], by simp, List.nil_prefix⟩

theorem map_rev_modify (f : Tryjob → Tryjob) (hf : ∀ j, (f j).rev = j.rev) :
    ∀ (n : Nat) (jobs : List Tryjob), (jobs.modify f n).map (·.rev) = jobs.map (·.rev)
  | 0, [] | _ + 1, [] => rfl
  | 0, j :: jobs => by simp [hf]
  | n + 1, j :: jobs => by simp [map_rev_modify f hf n jobs]

theorem bisectionMain_file (ts : TryjobStatus) (start end_ parallel : Nat)
    (gitHashForVersion : Nat → Option String)
    {addTryjob : Nat → String → Except String Tryjob}
    (h : ∀ rev gitHash tryjob, addTryjob rev gitHash = .ok tryjob → tryjob.rev = rev)
    (file : Option BisectContents) :
    let bisectContents := file.getD ⟨start, end_, []⟩
    (bisectionMain ts start end_ parallel gitHashForVersion addTryjob file).2 = file ∨
      ∃ revisions gitHashes added, bisectionRevisions ts start end_ parallel gitHashForVersion
          bisectContents.start bisectContents.end_ bisectContents.jobs =
            .ok (revisions, gitHashes) ∧
        added.map (·.rev) <+: revisions ∧
        (bisectionMain ts start end_ parallel gitHashForVersion addTryjob file).2 =
          some { bisectContents with jobs := bisectContents.jobs ++ added } := by
  intro bisectContents
  unfold bisectionMain
  dsimp only
  split
  · exact .inl rfl
  · rename_i revisions gitHashes hok
    obtain ⟨added, h₁, h₂⟩ :=
      addTryjobs_appends h (revisions.zip gitHashes) bisectContents.jobs
    exact .inr ⟨revisions, gitHashes, added, hok, h₂.trans (map_fst_zip_isPrefix _ _),
      by simp only [bisectContents, h₁]⟩

theorem BisectEvent.apply_wellFormed (ts : TryjobStatus) {e : BisectEvent}
    (he : e.LaunchesRequested) {file : Option BisectContents} (hf : ∀ c ∈ file, c.WellFormed) :
    ∀ c ∈ e.apply ts file, c.WellFormed := by
  cases e with
  | main start end_ parallel gitHashForVersion addTryjob =>
    rcases bisectionMain_file ts start end_ parallel gitHashForVersion he file with
      h | ⟨revisions, gitHashes, added, hok, hpre, h⟩
    · simpa only [apply, h] using hf
    · simp only [apply, h, Option.mem_def, Option.some.injEq, forall_eq']
      have hc : (file.getD ⟨start, end_, []⟩).WellFormed := by
        cases file with
        | none => simp [BisectContents.WellFormed]
        | some c => exact hf c rfl
      set bisectContents := file.getD ⟨start, end_, []⟩
      obtain ⟨hs, hend, hsorted, hrev⟩ := bisectionRevisions_ok hok
      have hadded : ∀ r ∈ added.map (·.rev), r ∈ revisions := fun r hr => hpre.subset hr
      refine ⟨?_, fun r hr => ?_⟩
      · rw [List.map_append, List.nodup_append]
        exact ⟨hc.1, hsorted.nodup.sublist hpre.sublist,
          fun r h₁ h₂ => (hrev r (hadded r h₂)).2.2 h₁⟩
      · dsimp only at hr ⊢
        rw [List.map_append, List.mem_append] at hr
        rcases hr with hr | hr
        · exact hc.2 r hr
        · have := hrev r (hadded r hr)
          omega
  | setStatus index status =>
    simp only [apply, Option.mem_map]
    rintro _ ⟨c, hc, rfl⟩
    simpa only [BisectContents.WellFormed,
      map_rev_modify (fun j => { j with status := status }) fun _ => rfl] using hf c hc

theorem bisection_runs_keep_jobs_distinct (ts : TryjobStatus) (events : List BisectEvent)
    (hev : ∀ e ∈ events, e.LaunchesRequested) (file : Option BisectContents)
    (hf : ∀ c ∈ file, c.WellFormed) :
    ∀ c ∈ events.foldl (BisectEvent.apply ts) file, c.WellFormed := by
  induction events generalizing file with
  | nil => exact hf
  | cons e events ih =>
    exact ih (fun e' h => hev e' (List.mem_cons_of_mem e h)) _
      (BisectEvent.apply_wellFormed ts (hev e (List.mem_cons_self e events)) hf)

theorem bisection_two_runs_keep_jobs_distinct :
    (∀ e ∈ [.main 10 20 1 (fun _ => some "h") (fun r _ => .ok ⟨r, some "pending", ""⟩),
        .setStatus 0 (some "good"),
        .main 10 20 1 (fun _ => some "h") (fun r _ => .ok ⟨r, some "pending", ""⟩)],
        BisectEvent.LaunchesRequested e) ∧
      ∀ c ∈ [.main 10 20 1 (fun _ => some "h") (fun r _ => .ok ⟨r, some "pending", ""⟩),
          .setStatus 0 (some "good"),
          .main 10 20 1 (fun _ => some "h") (fun r _ => .ok ⟨r, some "pending", ""⟩)].foldl
            (BisectEvent.apply ⟨"good", "bad", "pending"⟩) none,
        BisectContents.WellFormed c := by
  have hev : ∀ e ∈ [BisectEvent.main 10 20 1 (fun _ => some "h")
        (fun r _ => .ok ⟨r, some "pending", ""⟩),
      .setStatus 0 (some "good"),
      .main 10 20 1 (fun _ => some "h") (fun r _ => .ok ⟨r, some "pending", ""⟩)],
      BisectEvent.LaunchesRequested e := by
    simp only [List.mem_cons, List.mem_singleton, forall_eq_or_imp, BisectEvent.LaunchesRequested,
      Except.ok.injEq, List.not_mem_nil]
    refine ⟨?_, trivial, ?_, fun _ h => h.elim⟩ <;> rintro r _ _ rfl <;> rfl
  exact ⟨hev, bisection_runs_keep_jobs_distinct _ _ hev none nofun⟩

end Runs

end ToolchainUtils.LlvmTools
