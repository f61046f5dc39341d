import ToolchainUtils.AfdoProfAnalysis.RangeSearch
import Mathlib.Data.Finset.Sort

/-!
`bisect_profiles` and `bisect_profiles_wrapper`: recursive bisection of the functions
common to the good and the bad profile. `Bisected` describes, without the decider's
calls, every result a successful bisection can return; `bisectProfiles_sat` shows that on
distinct names both profiles have the code returns one of them, or raises an error of the
decider, on every interval it is called on.
-/

set_option autoImplicit false

namespace ToolchainUtils.AfdoProfAnalysis

variable {α β ω : Type}

theorem bind_eq_ok {ε γ δ : Type} {x : Except ε γ} {f : γ → Except ε δ} {y : δ}
    (h : x >>= f = .ok y) : ∃ a, x = .ok a ∧ f a = .ok y := by
  cases x with
  | error e => cases h
  | ok a => exact ⟨a, rfl, h⟩

@[simp] theorem Results.names_empty : (⟨[], []⟩ : Results α).names = [] := rfl

theorem Bisected.half {v : StatusEnum} {r : Results α} {P : Results α → Prop}
    (he : v ≠ .badStatus → r = ⟨[], []⟩) (ih : v = .badStatus → P r)
    (hempty : v ≠ .badStatus → P ⟨[], []⟩) : P r := by
  by_cases hv : v = .badStatus
  · exact ih hv
  · exact he hv ▸ hempty hv

section Bisect

variable [LinearOrder α] (W : World ω α β) (good bad : Prof α β)

/-- `bisect_profiles(decider, good, bad, common_funcs, lo, hi)`. -/
def bisectProfiles (commonFuncs : List α) (lo hi : Nat) (w : ω) :
    Except String (Results α × ω) :=
  if hi - lo ≤ 1 then
    match commonFuncs[lo]? with
    | some f => .ok (⟨[f], []⟩, w)
    | none => .error "IndexError: list index out of range"
  else do
    let mid := (lo + hi) / 2
    let loMidProf ← copyAll bad good (slice commonFuncs lo mid)  -- covers bad from lo:mid
    let midHiProf ← copyAll bad good (slice commonFuncs mid hi)  -- covers bad from mid:hi
    let (loMidVerdict, w) ← W.decider w loMidProf true
    let (midHiVerdict, w) ← W.decider w midHiProf true
    let (r₁, w) ← (if loMidVerdict = .badStatus then bisectProfiles commonFuncs lo mid w
      else pure (⟨[], []⟩, w))
    let (r₂, w) ← (if midHiVerdict = .badStatus then bisectProfiles commonFuncs mid hi w
      else pure (⟨[], []⟩, w))
    -- neither half is bad -> the issue is caused by several things occuring
    -- in conjunction, and this combination crosses 'mid'
    let results := r₁.extend r₂
    if loMidVerdict = .goodStatus ∧ midHiVerdict = .goodStatus then
      let (problemRange, w) ← rangeSearch W good bad commonFuncs lo hi w
      if problemRange ≠ [] then return (results.addRange problemRange, w)
      else return (results, w)
    else return (results, w)
termination_by hi - lo
decreasing_by all_goals omega

/-- Every result a successful `bisect_profiles` on `[lo, hi)` can return. A node records
the verdicts the decider gave on its two halves, the results of the halves it recursed
into, and the range `range_search` found when both halves are GOOD. -/
inductive Bisected (cf : List α) : Nat → Nat → Results α → Prop
  | leaf {lo hi : Nat} {f : α} : lo + 1 = hi → cf[lo]? = some f → Bisected cf lo hi ⟨[f], []⟩
  | node {lo hi : Nat} (v₁ v₂ : StatusEnum) {r₁ r₂ r : Results α} :
      lo + 2 ≤ hi →
      (∃ w w', W.decider w (makeCandidate good bad (slice cf lo ((lo + hi) / 2))) true =
        .ok (v₁, w')) →
      (∃ w w', W.decider w (makeCandidate good bad (slice cf ((lo + hi) / 2) hi)) true =
        .ok (v₂, w')) →
      (v₁ = .badStatus → Bisected cf lo ((lo + hi) / 2) r₁) → (v₁ ≠ .badStatus → r₁ = ⟨[], []⟩) →
      (v₂ = .badStatus → Bisected cf ((lo + hi) / 2) hi r₂) → (v₂ ≠ .badStatus → r₂ = ⟨[], []⟩) →
      (v₁ = .goodStatus ∧ v₂ = .goodStatus →
        ∃ R, R.Subperm (slice cf lo hi) ∧ 2 ≤ R.length ∧ r = (r₁.extend r₂).addRange R) →
      (¬(v₁ = .goodStatus ∧ v₂ = .goodStatus) → r = r₁.extend r₂) →
      Bisected cf lo hi r

variable {E : String → Prop}

theorem bisectProfiles_half {cf : List α} {lo hi : Nat} (v : StatusEnum) (w : ω)
    (ih : v = .badStatus →
      Sat E (fun r => Bisected W good bad cf lo hi r.1) (bisectProfiles W good bad cf lo hi w)) :
    Sat E (fun r => (v = .badStatus → Bisected W good bad cf lo hi r.1) ∧
        (v ≠ .badStatus → r.1 = ⟨[], []⟩))
      (if v = .badStatus then bisectProfiles W good bad cf lo hi w else pure (⟨[], []⟩, w)) := by
  by_cases hv : v = .badStatus
  · rw [if_pos hv]
    exact (ih hv).mono (fun _ h => h) fun _ h => ⟨fun _ => h, fun h' => absurd hv h'⟩
  · rw [if_neg hv]
    exact ⟨fun h => absurd h hv, fun _ => rfl⟩

theorem bisectProfiles_sat (hE : W.RaisesOnly E) (cf : List α)
    (hkeys : ∀ x ∈ cf, x ∈ good ∧ x ∈ bad) (hnd : cf.Nodup) :
    ∀ (lo hi : Nat) (w : ω), lo < hi → hi ≤ cf.length →
      Sat E (fun r => Bisected W good bad cf lo hi r.1) (bisectProfiles W good bad cf lo hi w)
  | lo, hi, w, hlt, hhi => by
    rw [bisectProfiles]
    by_cases hle : hi - lo ≤ 1
    · rw [if_pos hle, List.getElem?_eq_getElem (by omega)]
      exact .leaf (by omega) (List.getElem?_eq_getElem _)
    rw [if_neg hle]
    have hsl : ∀ i j, ∀ x ∈ slice cf i j, x ∈ bad :=
      fun i j x hx => (hkeys x ((slice_sublist cf i j).subset hx)).2
    refine (sat_copyAll (hsl _ _) good).bind fun _ h₁ => (sat_copyAll (hsl _ _) good).bind
      fun _ h₂ => ?_
    subst h₁ h₂
    refine (hE w _ true).bind_eq fun ⟨v₁, w₁⟩ hv₁ _ => (hE w₁ _ true).bind_eq
      fun ⟨v₂, w₂⟩ hv₂ _ => ?_
    refine (bisectProfiles_half W good bad v₁ w₂ fun _ =>
      bisectProfiles_sat hE cf hkeys hnd lo ((lo + hi) / 2) w₂ (by omega) (by omega)).bind
      fun ⟨r₁, w₃⟩ ⟨hb₁, he₁⟩ => (bisectProfiles_half W good bad v₂ w₃ fun _ =>
        bisectProfiles_sat hE cf hkeys hnd ((lo + hi) / 2) hi w₃ (by omega) hhi).bind
      fun ⟨r₂, w₄⟩ ⟨hb₂, he₂⟩ => ?_
    dsimp only
    by_cases hg : v₁ = .goodStatus ∧ v₂ = .goodStatus
    · rw [if_pos hg]
      refine (rangeSearch_sat W good bad hE hkeys hnd (by omega) hhi w₄).bind
        fun ⟨R, w₅⟩ hR => ?_
      have hne : R ≠ [] := fun h => by have := hR.two_le; simp [h] at this
      dsimp only
      rw [if_pos hne]
      exact .node _ _ (by omega) ⟨_, _, hv₁⟩ ⟨_, _, hv₂⟩ hb₁ he₁ hb₂ he₂
        (fun _ => ⟨R, hR.subperm, hR.two_le, rfl⟩) (fun h => absurd hg h)
    · rw [if_neg hg]
      exact .node _ _ (by omega) ⟨_, _, hv₁⟩ ⟨_, _, hv₂⟩ hb₁ he₁ hb₂ he₂
        (fun h => absurd h hg) (fun _ => rfl)
termination_by lo hi => hi - lo

variable {W good bad}

theorem Bisected.names_subperm {cf : List α} {lo hi : Nat} {r : Results α}
    (h : Bisected W good bad cf lo hi r) :
    r.names.Subperm (slice cf lo hi) ∧ ∀ R ∈ r.ranges, 2 ≤ R.length := by
  induction h with
  | leaf hhi hf =>
    subst hhi
    simp [Results.names, slice_succ hf]
  | @node lo hi v₁ v₂ r₁ r₂ r hlo _ _ _ he₁ _ he₂ hR hnR ih₁ ih₂ =>
    have h₁ := Bisected.half (P := fun r => r.names.Subperm (slice cf lo ((lo + hi) / 2)) ∧
      ∀ R ∈ r.ranges, 2 ≤ R.length) he₁ ih₁ (fun _ => by simp)
    have h₂ := Bisected.half (P := fun r => r.names.Subperm (slice cf ((lo + hi) / 2) hi) ∧
      ∀ R ∈ r.ranges, 2 ≤ R.length) he₂ ih₂ (fun _ => by simp)
    by_cases hg : v₁ = .goodStatus ∧ v₂ = .goodStatus
    · obtain ⟨R, hRs, hRlen, rfl⟩ := hR hg
      rw [he₁ (by simp [hg.1]), he₂ (by simp [hg.2])]
      exact ⟨by simpa [Results.extend] using hRs, by simp [Results.extend, Results.addRange, hRlen]⟩
    · rw [hnR hg, ← slice_append_slice cf (by omega : lo ≤ (lo + hi) / 2) (by omega)]
      refine ⟨(Results.names_extend_perm r₁ r₂).subperm.trans (subperm_append h₁.1 h₂.1), ?_⟩
      simp only [Results.extend, List.mem_append]
      rintro R (hR | hR)
      exacts [h₁.2 R hR, h₂.2 R hR]

theorem Bisected.leaf_of_lt {cf : List α} {lo hi : Nat} {r : Results α}
    (h : Bisected W good bad cf lo hi r) (hhi : hi < lo + 2) :
    ∃ f, cf[lo]? = some f ∧ hi = lo + 1 ∧ r = ⟨[f], []⟩ := by
  cases h with
  | leaf hhi hf => exact ⟨_, hf, hhi.symm, rfl⟩
  | node _ _ hlo => omega

variable (W good bad)

/-- `sorted(func for func in good if func in bad)`: the names of both profiles, sorted. -/
def sortedCommonFuncs : List α :=
  Quot.liftOn (good.keys.filter (· ∈ bad.keys)).val (List.insertionSort (· ≤ ·)) fun _ _ h =>
    List.eq_of_perm_of_sorted
      ((List.perm_insertionSort _ _).trans (h.trans (List.perm_insertionSort _ _).symm))
      (List.sorted_insertionSort _ _) (List.sorted_insertionSort _ _)

theorem sortedCommonFuncs_spec :
    (∀ f, f ∈ sortedCommonFuncs good bad ↔ f ∈ good ∧ f ∈ bad) ∧
      (sortedCommonFuncs good bad).Nodup := by
  have hnd := (good.keys.filter (· ∈ bad.keys)).nodup
  have hmem : ∀ f, f ∈ (good.keys.filter (· ∈ bad.keys)).val ↔ f ∈ good ∧ f ∈ bad := by
    simp [Finmap.mem_keys]
  unfold sortedCommonFuncs
  generalize (good.keys.filter (· ∈ bad.keys)).val = s at hnd hmem
  induction s using Quot.inductionOn with
  | h l =>
    have hp := List.perm_insertionSort (· ≤ ·) l
    exact ⟨fun f => hp.mem_iff.trans (hmem f), hp.nodup_iff.2 hnd⟩

theorem mem_sortedCommonFuncs {f : α} :
    f ∈ sortedCommonFuncs good bad ↔ f ∈ good ∧ f ∈ bad :=
  (sortedCommonFuncs_spec good bad).1 f

/-- The check at the start of `bisect_profiles_wrapper` that the decider calls `good` GOOD
and `bad` BAD. -/
def validateProfiles (performCheck : Bool) (w : ω) : Except String ω :=
  if performCheck then do
    let (g, w) ← W.decider w good false
    if g ≠ .goodStatus then .error "Supplied good profile is not actually GOOD"
    else do
      let (b, w) ← W.decider w bad false
      if b ≠ .badStatus then .error "Supplied bad profile is not actually BAD"
      else .ok w
  else .ok w

/-- `bisect_profiles_wrapper(decider, good, bad, perform_check)`. -/
def bisectProfilesWrapper (performCheck : Bool) (w : ω) : Except String (Results α × ω) := do
  let w ← validateProfiles W good bad performCheck w
  let commonFuncs := sortedCommonFuncs good bad
  if commonFuncs = [] then return (⟨[], []⟩, w)
  else
    -- shuffle because the results of our analysis can be quite order-dependent
    let shuffled := W.shuffle w commonFuncs
    let (results, w) ← bisectProfiles W good bad shuffled.1 0 shuffled.1.length shuffled.2
    return (results.sortAll, w)

/-- The two errors the validation raises itself. -/
def ValidationError (e : String) : Prop :=
  e = "Supplied good profile is not actually GOOD" ∨ e = "Supplied bad profile is not actually BAD"

/-- What `bisect_profiles_wrapper` returns after a validation that left the world at `w₀`:
nothing to bisect, or the sorted result of bisecting a shuffle of the common names. -/
def WrapperResult (w₀ : ω) (r : Results α) : Prop :=
  (sortedCommonFuncs good bad = [] ∧ r = ⟨[], []⟩) ∨
    (sortedCommonFuncs good bad ≠ [] ∧ ∃ r₀, r = r₀.sortAll ∧
      let cf := (W.shuffle w₀ (sortedCommonFuncs good bad)).1
      Bisected W good bad cf 0 cf.length r₀)

omit [LinearOrder α] in
theorem validateProfiles_sat (hE : W.RaisesOnly E) (performCheck : Bool) (w : ω) :
    Sat (fun e => E e ∨ ValidationError e) (fun _ => True)
      (validateProfiles W good bad performCheck w) := by
  unfold validateProfiles
  split
  · refine ((hE _ _ _).mono (fun _ h => .inl h) fun _ h => h).bind fun ⟨g, w₁⟩ _ => ?_
    dsimp only
    split
    · exact .inr (.inl rfl)
    · refine ((hE _ _ _).mono (fun _ h => .inl h) fun _ h => h).bind fun ⟨b, w₂⟩ _ => ?_
      dsimp only
      split
      · exact .inr (.inr rfl)
      · trivial
  · trivial

theorem bisectProfilesWrapper_sat_of_valid (hE : W.RaisesOnly E) {performCheck : Bool}
    {w w₀ : ω} (hv : validateProfiles W good bad performCheck w = .ok w₀) :
    Sat E (fun r => WrapperResult W good bad w₀ r.1)
      (bisectProfilesWrapper W good bad performCheck w) := by
  rw [bisectProfilesWrapper, hv]
  dsimp only [bind, Except.bind]
  split
  · exact .inl ⟨‹_›, rfl⟩
  · rename_i hc
    have hp := W.shuffle_perm w₀ (sortedCommonFuncs good bad)
    refine (bisectProfiles_sat W good bad hE _
      (fun x hx => (mem_sortedCommonFuncs good bad).1 (hp.subset hx))
      (hp.nodup_iff.2 (sortedCommonFuncs_spec good bad).2) 0 _ _
      (hp.length_eq ▸ List.length_pos.2 hc) le_rfl).bind fun ⟨r₀, _⟩ hb => ?_
    exact .inr ⟨hc, r₀, rfl, hb⟩

theorem bisectProfilesWrapper_sat (hE : W.RaisesOnly E) (performCheck : Bool) (w : ω) :
    Sat (fun e => E e ∨ (validateProfiles W good bad performCheck w = .error e ∧
        ValidationError e))
      (fun r => ∃ w₀, validateProfiles W good bad performCheck w = .ok w₀ ∧
        WrapperResult W good bad w₀ r.1)
      (bisectProfilesWrapper W good bad performCheck w) := by
  cases hv : validateProfiles W good bad performCheck w with
  | error e =>
    rw [bisectProfilesWrapper, hv]
    have he := (validateProfiles_sat W good bad hE performCheck w).of_error hv
    rcases he with he | he
    exacts [.inl he, .inr ⟨rfl, he⟩]
  | ok w₀ =>
    exact (bisectProfilesWrapper_sat_of_valid W good bad hE hv).mono (fun _ h => .inl h)
      fun _ h => ⟨w₀, rfl, h⟩

theorem bisectProfilesWrapper_cases {performCheck : Bool} {w : ω} {r : Results α} {w' : ω}
    (h : bisectProfilesWrapper W good bad performCheck w = .ok (r, w')) :
    ∃ w₀, validateProfiles W good bad performCheck w = .ok w₀ ∧ WrapperResult W good bad w₀ r :=
  (bisectProfilesWrapper_sat W good bad W.raisesOnly_true performCheck w).of_ok h

theorem bisectProfilesWrapper_names_subperm {performCheck : Bool} {w w' : ω} {r : Results α}
    (h : bisectProfilesWrapper W good bad performCheck w = .ok (r, w')) :
    r.names.Subperm (sortedCommonFuncs good bad) ∧ ∀ R ∈ r.ranges, 2 ≤ R.length := by
  obtain ⟨w₀, -, ⟨-, rfl⟩ | ⟨-, r₀, rfl, hb⟩⟩ := bisectProfilesWrapper_cases W good bad h
  · simp
  · obtain ⟨hsub, hranges⟩ := hb.names_subperm
    rw [slice_zero_length] at hsub
    exact ⟨(Results.names_sortAll_perm r₀).subperm.trans
        (hsub.trans (W.shuffle_perm _ _).subperm),
      fun R hR => hranges R ((List.perm_insertionSort _ _).subset hR)⟩

theorem bisectProfilesWrapper_reports_distinct_common_names (performCheck : Bool) (w : ω)
    (hW : W.Answers) (hvalid : ∃ w₀, validateProfiles W good bad performCheck w = .ok w₀) :
    ∃ r w', bisectProfilesWrapper W good bad performCheck w = .ok (r, w') ∧
      (∀ f ∈ r.names, f ∈ good ∧ f ∈ bad) ∧ (∀ R ∈ r.ranges, 2 ≤ R.length) ∧ r.names.Nodup := by
  obtain ⟨w₀, hv⟩ := hvalid
  obtain ⟨⟨r, w'⟩, hr, -⟩ := (bisectProfilesWrapper_sat_of_valid W good bad hW hv).exists_ok
  obtain ⟨hsub, hranges⟩ := bisectProfilesWrapper_names_subperm W good bad hr
  exact ⟨r, w', hr, fun f hf => (mem_sortedCommonFuncs good bad).1 (hsub.subset hf), hranges,
    subperm_nodup hsub (sortedCommonFuncs_spec good bad).2⟩

end Bisect

/-- Two profiles over the functions `0` and `1` whose payloads differ at `0` only. -/
def pairGood : Prof Nat Nat := List.toFinmap [⟨0, 0⟩, ⟨1, 0⟩]

def pairBad : Prof Nat Nat := List.toFinmap [⟨0, 1⟩, ⟨1, 0⟩]

/-- A decider that calls a profile BAD when it carries the bad payload of `0`. -/
def zeroOracle (p : Prof Nat Nat) : StatusEnum :=
  if p.lookup 0 = some 1 then .badStatus else .goodStatus

theorem pair_reports_distinct_common_names :
    (World.ofOracle zeroOracle).Answers ∧
      (∃ w₀, validateProfiles (World.ofOracle zeroOracle) pairGood pairBad true () = .ok w₀) ∧
      ∃ r w', bisectProfilesWrapper (World.ofOracle zeroOracle) pairGood pairBad true () =
          .ok (r, w') ∧
        (∀ f ∈ r.names, f ∈ pairGood ∧ f ∈ pairBad) ∧ (∀ R ∈ r.ranges, 2 ≤ R.length) ∧
          r.names.Nodup :=
  ⟨World.ofOracle_answers _, ⟨(), rfl⟩, bisectProfilesWrapper_reports_distinct_common_names _ _ _
    true () (World.ofOracle_answers _) ⟨(), rfl⟩⟩

end ToolchainUtils.AfdoProfAnalysis
