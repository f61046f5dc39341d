import ToolchainUtils.AfdoProfAnalysis.Monotone

/-!
The rest of `afdo_tools/bisection/afdo_prof_analysis.py`: the decider `generate_decider`
makes from the external script, the two checks for functions that only one profile has,
and `main`, which runs the bisection and both checks with one decider. The profile text the
script reads and the JSON `main` writes are outside the model: the script is a function
from a profile to its return code.
-/

set_option autoImplicit false

namespace ToolchainUtils.AfdoProfAnalysis

variable {α β ω : Type}

section Decider

/-- `status_enum(return_code)` when `return_code in statuses`, else the `ValueError`. -/
def ofReturnCode (returnCode : Int) : Except String StatusEnum :=
  if returnCode = 0 then .ok .goodStatus
  else if returnCode = 1 then .ok .badStatus
  else if returnCode = 125 then .ok .skipStatus
  else if returnCode = 127 then .ok .problemStatus
  else .error ("Provided external script had unexpected return code " ++ toString returnCode)

/-- The `ValueError` of `run` for a return code that is no verdict's. -/
def UnexpectedCode (e : String) : Prop :=
  ∃ c : Int, (∀ s : StatusEnum, c ≠ s.code) ∧
    e = "Provided external script had unexpected return code " ++ toString c

theorem ofReturnCode_sat (returnCode : Int) :
    Sat UnexpectedCode (fun s => returnCode = s.code) (ofReturnCode returnCode) := by
  unfold ofReturnCode
  split_ifs <;> simp_all [StatusEnum.code]
  exact ⟨returnCode, fun s => by cases s <;> simp [StatusEnum.code] <;> omega, rfl⟩

/-- The `run(prof, increment_counter)` that `generate_decider` returns: `numRuns` is
`_num_runs[0]` and `script prof` the return code of the external script on `prof`. -/
def generateDecider (script : Prof α β → Int) (numRuns : Nat) (prof : Prof α β)
    (incrementCounter : Bool) : Except String (StatusEnum × Nat) := do
  let status ← ofReturnCode (script prof)
  return (status, if incrementCounter then numRuns + 1 else numRuns)

theorem generateDecider_sat (script : Prof α β → Int) (numRuns : Nat) (prof : Prof α β)
    (incrementCounter : Bool) :
    Sat UnexpectedCode (fun r => script prof = r.1.code ∧
        r.2 = if incrementCounter then numRuns + 1 else numRuns)
      (generateDecider script numRuns prof incrementCounter) :=
  (ofReturnCode_sat _).bind fun _ hs => ⟨hs, rfl⟩

/-- The world of `main`: the decider `generate_decider` makes from `script`, and
`random.shuffle` on the random state `ρ`. The state is the run counter and the random
state. -/
def World.ofScript {ρ : Type} (script : Prof α β → Int) (shuffle : ρ → List α → List α × ρ)
    (hshuffle : ∀ r l, (shuffle r l).1.Perm l) : World (Nat × ρ) α β where
  decider w p inc := do
    let (status, numRuns) ← generateDecider script w.1 p inc
    return (status, (numRuns, w.2))
  shuffle w l := ((shuffle w.2 l).1, (w.1, (shuffle w.2 l).2))
  shuffle_perm w l := hshuffle w.2 l

theorem World.ofScript_raisesOnly {ρ : Type} (script : Prof α β → Int)
    (shuffle : ρ → List α → List α × ρ) (hshuffle : ∀ r l, (shuffle r l).1.Perm l) :
    (World.ofScript script shuffle hshuffle).RaisesOnly UnexpectedCode := fun _ _ _ =>
  (generateDecider_sat _ _ _ _).bind fun _ _ => trivial

/-- The verdict of the external script on a profile, for a script that exits with a
verdict's code. -/
def scriptVerdict (script : Prof α β → Int) (prof : Prof α β) : StatusEnum :=
  match ofReturnCode (script prof) with
  | .ok s => s
  | .error _ => .problemStatus

theorem World.ofScript_decides {ρ : Type} (script : Prof α β → Int)
    (shuffle : ρ → List α → List α × ρ) (hshuffle : ∀ r l, (shuffle r l).1.Perm l)
    (hvalid : ∀ p, ∃ s : StatusEnum, script p = s.code) :
    (World.ofScript script shuffle hshuffle).Decides (scriptVerdict script) := fun w p inc => by
  obtain ⟨s, hs⟩ := hvalid p
  have hcode : ofReturnCode (script p) = .ok s := by
    rw [hs]; cases s <;> rfl
  exact ⟨(if inc then w.1 + 1 else w.1, w.2), by simp [World.ofScript, generateDecider,
    scriptVerdict, hcode, bind, Except.bind, pure, Except.pure]⟩

end Decider

section Checks

variable [LinearOrder α] (W : World ω α β) (good bad : Prof α β)

/-- `check_good_not_bad`: `bad` with the functions only `good` has, copied from `good`
(the loop over `good` builds `bad ∪ good`), judged GOOD. -/
def checkGoodNotBad (w : ω) : Except String (Bool × ω) := do
  let (verdict, w) ← W.decider w (bad ∪ good) true
  return (decide (verdict = .goodStatus), w)

/-- `check_bad_not_good`: `good` with the functions only `bad` has, judged BAD. -/
def checkBadNotGood (w : ω) : Except String (Bool × ω) := do
  let (verdict, w) ← W.decider w (good ∪ bad) true
  return (decide (verdict = .badStatus), w)

/-- The dictionary `main` writes, without the seed. -/
structure AnalysisResults (α : Type) where
  bisectResults : Results α
  goodOnlyFunctions : Bool
  badOnlyFunctions : Bool
  deriving DecidableEq, Repr

/-- `main`: the bisection with its validation, then both checks, with one decider. -/
def afdoMain (w : ω) : Except String (AnalysisResults α × ω) := do
  let (bisectResults, w) ← bisectProfilesWrapper W good bad true w
  let (gnbResult, w) ← checkGoodNotBad W good bad w
  let (bngResult, w) ← checkBadNotGood W good bad w
  return (⟨bisectResults, gnbResult, bngResult⟩, w)

variable {W good bad}

theorem checkGoodNotBad_sat {E : String → Prop} (hE : W.RaisesOnly E) (w : ω) :
    Sat E (fun _ => True) (checkGoodNotBad W good bad w) :=
  (hE _ _ _).bind fun ⟨_, _⟩ _ => trivial

theorem checkBadNotGood_sat {E : String → Prop} (hE : W.RaisesOnly E) (w : ω) :
    Sat E (fun _ => True) (checkBadNotGood W good bad w) :=
  (hE _ _ _).bind fun ⟨_, _⟩ _ => trivial

theorem afdoMain_sat {E : String → Prop} (hE : W.RaisesOnly E) (w : ω) :
    Sat (fun e => E e ∨ (validateProfiles W good bad true w = .error e ∧ ValidationError e))
      (fun _ => True) (afdoMain W good bad w) := by
  have hE' : W.RaisesOnly fun e => E e ∨
      (validateProfiles W good bad true w = .error e ∧ ValidationError e) :=
    fun _ _ _ => (hE _ _ _).mono (fun _ h => .inl h) fun _ h => h
  refine (bisectProfilesWrapper_sat W good bad hE true w).bind fun ⟨_, _⟩ _ =>
    (checkGoodNotBad_sat hE' _).bind fun ⟨_, _⟩ _ =>
    (checkBadNotGood_sat hE' _).bind fun ⟨_, _⟩ _ => trivial

theorem afdoMain_raises {ρ : Type} (script : Prof α β → Int)
    (shuffle : ρ → List α → List α × ρ) (hshuffle : ∀ r l, (shuffle r l).1.Perm l)
    (good bad : Prof α β) (w : Nat × ρ) (e : String)
    (h : afdoMain (World.ofScript script shuffle hshuffle) good bad w = .error e) :
    (validateProfiles (World.ofScript script shuffle hshuffle) good bad true w = .error e ∧
      ValidationError e) ∨ UnexpectedCode e :=
  ((afdoMain_sat (World.ofScript_raisesOnly script shuffle hshuffle) w).of_error h).symm

omit [LinearOrder α] in
theorem validateProfiles_true_ok {O : Prof α β → StatusEnum} (hdet : W.Decides O) {w w₀ : ω}
    (h : validateProfiles W good bad true w = .ok w₀) :
    O good = .goodStatus ∧ O bad = .badStatus := by
  obtain ⟨w₁, hg⟩ := hdet w good false
  obtain ⟨w₂, hb⟩ := hdet w₁ bad false
  simp only [validateProfiles, if_true, hg, hb, bind, Except.bind] at h
  split_ifs at h with h₁ h₂
  exact ⟨not_not.1 h₁, not_not.1 h₂⟩

theorem union_eq_left_of_subset {s₁ s₂ : Prof α β} (h : ∀ x ∈ s₂, x ∈ s₁) : s₁ ∪ s₂ = s₁ :=
  Finmap.ext_lookup fun x => by
    by_cases hx : x ∈ s₁
    · exact Finmap.lookup_union_left hx
    · rw [Finmap.lookup_union_right hx, Finmap.lookup_eq_none.2 hx,
        Finmap.lookup_eq_none.2 fun h' => hx (h x h')]

theorem afdoMain_checks {O : Prof α β → StatusEnum} (hdet : W.Decides O) {w w' : ω}
    {res : AnalysisResults α} (h : afdoMain W good bad w = .ok (res, w')) :
    O good = .goodStatus ∧ O bad = .badStatus ∧
      res.goodOnlyFunctions = decide (O (bad ∪ good) = .goodStatus) ∧
      res.badOnlyFunctions = decide (O (good ∪ bad) = .badStatus) ∧
      ((∀ x, x ∈ good ↔ x ∈ bad) → res.goodOnlyFunctions = false ∧ res.badOnlyFunctions = false) := by
  obtain ⟨⟨r, w₁⟩, hb, h⟩ := bind_eq_ok h
  obtain ⟨w₀, hv, -⟩ := bisectProfilesWrapper_cases W good bad hb
  obtain ⟨hg, hbad⟩ := validateProfiles_true_ok hdet hv
  obtain ⟨w₂, hc₁⟩ := hdet w₁ (bad ∪ good) true
  obtain ⟨w₃, hc₂⟩ := hdet w₂ (good ∪ bad) true
  simp only [checkGoodNotBad, checkBadNotGood, hc₁, hc₂, bind, Except.bind, pure,
    Except.pure] at h
  cases h
  refine ⟨hg, hbad, rfl, rfl, fun hsame => ?_⟩
  simp only [hg, hbad, union_eq_left_of_subset fun x hx => (hsame x).2 hx,
    union_eq_left_of_subset fun x hx => (hsame x).1 hx]
  decide

end Checks

/-- A bad profile that differs from `pairGood` at both functions, and a script that exits
with GOOD's code on a profile whose two payloads are good, BAD's on one whose two payloads
are bad, and `2` on a profile that mixes them. -/
def bothBad : Prof Nat Nat := List.toFinmap [⟨0, 1⟩, ⟨1, 1⟩]

def mixedScript (p : Prof Nat Nat) : Int :=
  if p.lookup 0 = p.lookup 1 then (if p.lookup 0 = some 0 then 0 else 1) else 2

unseal bisectProfiles in
theorem mixed_script_raises_in_bisection :
    validateProfiles (World.ofScript mixedScript (fun r l => (l, r)) fun _ _ => .refl _)
        pairGood bothBad true (0, ()) = .ok (0, ()) ∧
      afdoMain (World.ofScript mixedScript (fun r l => (l, r)) fun _ _ => .refl _)
        pairGood bothBad (0, ()) = .error "Provided external script had unexpected return code 2" ∧
      ((validateProfiles (World.ofScript mixedScript (fun r l => (l, r)) fun _ _ => .refl _)
          pairGood bothBad true (0, ()) =
          .error "Provided external script had unexpected return code 2" ∧
        ValidationError "Provided external script had unexpected return code 2") ∨
        UnexpectedCode "Provided external script had unexpected return code 2") :=
  have h : afdoMain (World.ofScript mixedScript (fun r l => (l, r)) fun _ _ => .refl _)
      pairGood bothBad (0, ()) = .error "Provided external script had unexpected return code 2" :=
    rfl
  ⟨rfl, h, afdoMain_raises _ _ _ _ _ _ _ h⟩

end ToolchainUtils.AfdoProfAnalysis
