import ToolchainUtils.AfdoProfAnalysis.Bisect

/-!
The analysis under the decider the spec has in mind: deterministic, and with BAD
verdicts upward closed over the candidates spliced from common names. Bisection then
finds exactly the individually BAD names; the range search, whose border searches drop
the left pool after their first probe, does not keep the contract its caller documents.
-/

set_option autoImplicit false

namespace ToolchainUtils.AfdoProfAnalysis

variable {α β ω : Type}

/-- The decider answers every call, with a verdict that depends on the profile alone. -/
def World.Decides (W : World ω α β) (O : Prof α β → StatusEnum) : Prop :=
  ∀ w p inc, ∃ w', W.decider w p inc = .ok (O p, w')

theorem World.Decides.eq {W : World ω α β} {O : Prof α β → StatusEnum} (h : W.Decides O)
    {w : ω} {p : Prof α β} {inc : Bool} {v : StatusEnum} {w' : ω}
    (hv : W.decider w p inc = .ok (v, w')) : v = O p := by
  obtain ⟨_, h'⟩ := h w p inc
  rw [hv] at h'
  cases h'
  rfl

theorem World.Decides.answers {W : World ω α β} {O : Prof α β → StatusEnum} (h : W.Decides O) :
    W.Answers := fun w p inc => by
  obtain ⟨_, h'⟩ := h w p inc
  rw [h']
  trivial

theorem World.ofOracle_decides (O : Prof α β → StatusEnum) : (World.ofOracle O).Decides O :=
  fun w _ _ => ⟨w, rfl⟩

/-- BAD verdicts are upward closed over candidates spliced from common names. -/
def BadUpwardClosed [DecidableEq α] (good bad : Prof α β) (O : Prof α β → StatusEnum) : Prop :=
  ∀ S T : List α, S ⊆ T → (∀ x ∈ T, x ∈ good ∧ x ∈ bad) →
    O (makeCandidate good bad S) = .badStatus → O (makeCandidate good bad T) = .badStatus

section Monotone

variable [LinearOrder α] {W : World ω α β} {good bad : Prof α β} {O : Prof α β → StatusEnum}

/-- What bisection is for, on the names `S`: it reports as individuals exactly the names
of `S` that are BAD on their own, and puts no such name in a range. -/
def FindsBad (good bad : Prof α β) (O : Prof α β → StatusEnum) (S : List α) (r : Results α) :
    Prop :=
  (∀ f, f ∈ r.individuals ↔ f ∈ S ∧ O (makeCandidate good bad [f]) = .badStatus) ∧
    ∀ R ∈ r.ranges, ∀ f ∈ R, O (makeCandidate good bad [f]) ≠ .badStatus

theorem not_bad_of_not_bad (hmono : BadUpwardClosed good bad O) {S : List α}
    (hS : ∀ x ∈ S, x ∈ good ∧ x ∈ bad) (hv : O (makeCandidate good bad S) ≠ .badStatus)
    {f : α} (hf : f ∈ S) : O (makeCandidate good bad [f]) ≠ .badStatus :=
  fun h => hv (hmono [f] S (by simp [hf]) hS h)

theorem findsBad_empty (hmono : BadUpwardClosed good bad O) {S : List α}
    (hS : ∀ x ∈ S, x ∈ good ∧ x ∈ bad) (hv : O (makeCandidate good bad S) ≠ .badStatus) :
    FindsBad good bad O S ⟨[], []⟩ :=
  ⟨fun _ => ⟨by simp, fun hf => absurd hf.2 (not_bad_of_not_bad hmono hS hv hf.1)⟩, by simp⟩

theorem FindsBad.extend {S T : List α} {r s : Results α} (hr : FindsBad good bad O S r)
    (hs : FindsBad good bad O T s) : FindsBad good bad O (S ++ T) (r.extend s) := by
  refine ⟨fun f => ?_, ?_⟩
  · simp only [Results.extend, List.mem_append, hr.1, hs.1]
    tauto
  · simp only [Results.extend, List.mem_append]
    rintro R (hR | hR)
    exacts [hr.2 R hR, hs.2 R hR]

theorem Bisected.findsBad (hdet : W.Decides O) (hmono : BadUpwardClosed good bad O)
    {cf : List α} (hcf : ∀ x ∈ cf, x ∈ good ∧ x ∈ bad) {lo hi : Nat} {r : Results α}
    (h : Bisected W good bad cf lo hi r)
    (hreach : lo + 2 ≤ hi ∨ O (makeCandidate good bad (slice cf lo hi)) = .badStatus) :
    FindsBad good bad O (slice cf lo hi) r := by
  have hsl : ∀ i j, ∀ x ∈ slice cf i j, x ∈ good ∧ x ∈ bad :=
    fun i j x hx => hcf x ((slice_sublist cf i j).subset hx)
  induction h with
  | @leaf lo hi f hhi hf =>
    subst hhi
    have hbad : O (makeCandidate good bad [f]) = .badStatus := by
      simpa [slice_succ hf] using hreach.resolve_left (by omega)
    rw [slice_succ hf]
    exact ⟨fun x => ⟨fun hx => ⟨hx, List.eq_of_mem_singleton hx ▸ hbad⟩, fun hx => hx.1⟩,
      by simp⟩
  | @node lo hi v₁ v₂ r₁ r₂ r hlo hv₁ hv₂ _ he₁ _ he₂ hR hnR ih₁ ih₂ =>
    obtain ⟨_, _, hv₁⟩ := hv₁
    obtain ⟨_, _, hv₂⟩ := hv₂
    obtain rfl := hdet.eq hv₁
    obtain rfl := hdet.eq hv₂
    have hsplit := slice_append_slice cf (by omega : lo ≤ (lo + hi) / 2) (by omega : _ ≤ hi)
    have h₁ : FindsBad good bad O (slice cf lo ((lo + hi) / 2)) r₁ :=
      Bisected.half he₁ (fun hb => ih₁ hb (.inr hb)) (findsBad_empty hmono (hsl _ _))
    have h₂ : FindsBad good bad O (slice cf ((lo + hi) / 2) hi) r₂ :=
      Bisected.half he₂ (fun hb => ih₂ hb (.inr hb)) (findsBad_empty hmono (hsl _ _))
    by_cases hg : O (makeCandidate good bad (slice cf lo ((lo + hi) / 2))) = .goodStatus ∧
        O (makeCandidate good bad (slice cf ((lo + hi) / 2) hi)) = .goodStatus
    · -- both halves GOOD: the halves report nothing, and the range holds no BAD name
      obtain ⟨R, hRs, -, rfl⟩ := hR hg
      have n₁ : O (makeCandidate good bad (slice cf lo ((lo + hi) / 2))) ≠ .badStatus := by
        rw [hg.1]; decide
      have n₂ : O (makeCandidate good bad (slice cf ((lo + hi) / 2) hi)) ≠ .badStatus := by
        rw [hg.2]; decide
      have hnot : ∀ f ∈ slice cf lo hi, O (makeCandidate good bad [f]) ≠ .badStatus := by
        rw [← hsplit]
        intro f hf
        rcases List.mem_append.1 hf with hf | hf
        exacts [not_bad_of_not_bad hmono (hsl _ _) n₁ hf, not_bad_of_not_bad hmono (hsl _ _) n₂ hf]
      rw [he₁ n₁, he₂ n₂]
      refine ⟨fun f => ⟨by simp [Results.addRange, Results.extend],
        fun hf => absurd hf.2 (hnot f hf.1)⟩, ?_⟩
      simp only [Results.addRange, Results.extend, List.append_nil, List.nil_append,
        List.mem_singleton, forall_eq]
      exact fun f hf => hnot f (hRs.subset hf)
    · rw [hnR hg, ← hsplit]
      exact h₁.extend h₂

theorem bisectProfilesWrapper_finds_individually_bad (hdet : W.Decides O)
    (hmono : BadUpwardClosed good bad O) {performCheck : Bool} {w w' : ω} {r : Results α}
    (hret : bisectProfilesWrapper W good bad performCheck w = .ok (r, w')) :
    r.individuals.Sorted (· ≤ ·) ∧ r.individuals.Nodup ∧
      (2 ≤ (sortedCommonFuncs good bad).length → ∀ f, f ∈ r.individuals ↔
        (f ∈ good ∧ f ∈ bad) ∧ O (makeCandidate good bad [f]) = .badStatus) ∧
      ((sortedCommonFuncs good bad).length = 1 → r.individuals = sortedCommonFuncs good bad) ∧
      ∀ R ∈ r.ranges, ∀ f ∈ R, O (makeCandidate good bad [f]) ≠ .badStatus := by
  have hnd : r.individuals.Nodup :=
    (subperm_nodup (bisectProfilesWrapper_names_subperm W good bad hret).1
      (sortedCommonFuncs_spec good bad).2).sublist (List.sublist_append_left _ _)
  obtain ⟨w₀, -, ⟨hc, rfl⟩ | ⟨hc, r₀, rfl, hb⟩⟩ := bisectProfilesWrapper_cases W good bad hret
  · simp [hc]
  · set cf := (W.shuffle w₀ (sortedCommonFuncs good bad)).1
    have hp : cf.Perm (sortedCommonFuncs good bad) := W.shuffle_perm _ _
    have hlen : 0 < cf.length := hp.length_eq ▸ List.length_pos.2 hc
    rcases Nat.lt_or_ge cf.length 2 with h1 | h2
    · -- one common name: the leaf reports it
      obtain ⟨f, hf, hcf, rfl⟩ := hb.leaf_of_lt h1
      obtain ⟨a, hcf1⟩ := List.length_eq_one.1 hcf
      rw [hcf1, List.getElem?_cons_zero, Option.some.injEq] at hf
      subst hf
      have hs : sortedCommonFuncs good bad = [a] := List.perm_singleton.1 (hcf1 ▸ hp).symm
      simp [Results.sortAll, hs]
    · -- two or more: the top-level interval is reached, and bisection finds the BAD names
      have hcf : ∀ x ∈ cf, x ∈ good ∧ x ∈ bad :=
        fun x hx => (mem_sortedCommonFuncs good bad).1 (hp.subset hx)
      have hfb := hb.findsBad hdet hmono hcf (.inl h2)
      rw [slice_zero_length] at hfb
      refine ⟨List.sorted_insertionSort _ _, hnd, fun _ f => ?_,
        fun h => by rw [← hp.length_eq] at h; omega, ?_⟩
      · rw [Results.sortAll, (List.perm_insertionSort _ _).mem_iff, hfb.1, hp.mem_iff,
          mem_sortedCommonFuncs]
      · exact fun R hR => hfb.2 R ((List.perm_insertionSort _ _).subset hR)

theorem Bisected.exists_range (hdet : W.Decides O) {cf : List α} {lo hi : Nat} {r : Results α}
    (h : Bisected W good bad cf lo hi r) (hlo : lo + 2 ≤ hi)
    (hg : O (makeCandidate good bad (slice cf lo ((lo + hi) / 2))) = .goodStatus ∧
      O (makeCandidate good bad (slice cf ((lo + hi) / 2) hi)) = .goodStatus) :
    ∃ R ∈ r.ranges, R.Subperm (slice cf lo hi) ∧ 2 ≤ R.length := by
  cases h with
  | leaf hhi => omega
  | node v₁ v₂ _ hv₁ hv₂ _ _ _ _ hR _ =>
    obtain ⟨_, _, hv₁⟩ := hv₁
    obtain ⟨_, _, hv₂⟩ := hv₂
    obtain rfl := hdet.eq hv₁
    obtain rfl := hdet.eq hv₂
    obtain ⟨R, hRs, hRl, rfl⟩ := hR hg
    exact ⟨R, by simp [Results.addRange], hRs, hRl⟩

theorem bisectProfilesWrapper_reports_good_range (hdet : W.Decides O)
    (hgood : ∀ S, S ⊆ sortedCommonFuncs good bad → O (makeCandidate good bad S) = .goodStatus)
    (h2 : 2 ≤ (sortedCommonFuncs good bad).length) {performCheck : Bool} {w w₀ : ω}
    (hv : validateProfiles W good bad performCheck w = .ok w₀) :
    ∃ r w', bisectProfilesWrapper W good bad performCheck w = .ok (r, w') ∧
      ∃ R ∈ r.ranges, R ≠ [] ∧ O (makeCandidate good bad R) = .goodStatus := by
  obtain ⟨⟨r, w'⟩, hr, -⟩ :=
    (bisectProfilesWrapper_sat_of_valid W good bad hdet.answers hv).exists_ok
  refine ⟨r, w', hr, ?_⟩
  obtain ⟨w₁, -, ⟨hc, -⟩ | ⟨-, r₀, rfl, hb⟩⟩ := bisectProfilesWrapper_cases W good bad hr
  · simp [hc] at h2
  · set cf := (W.shuffle w₁ (sortedCommonFuncs good bad)).1
    have hp : cf.Perm (sortedCommonFuncs good bad) := W.shuffle_perm _ _
    have hsub : ∀ i j, slice cf i j ⊆ sortedCommonFuncs good bad :=
      fun i j _ hx => hp.subset ((slice_sublist cf i j).subset hx)
    obtain ⟨R, hR, hRs, hRl⟩ := hb.exists_range hdet (by rw [hp.length_eq]; omega)
      ⟨hgood _ (hsub _ _), hgood _ (hsub _ _)⟩
    exact ⟨R, (List.perm_insertionSort _ _).mem_iff.2 hR, List.ne_nil_of_length_pos (by omega),
      hgood R fun _ hx => hsub _ _ (hRs.subset hx)⟩

end Monotone

theorem zeroOracle_makeCandidate (S : List Nat) :
    zeroOracle (makeCandidate pairGood pairBad S) = if 0 ∈ S then .badStatus else .goodStatus := by
  unfold zeroOracle
  rw [lookup_makeCandidate]
  by_cases h : 0 ∈ S <;> simp only [h, true_and, false_and, if_true, if_false] <;> decide

theorem zeroOracle_badUpwardClosed : BadUpwardClosed pairGood pairBad zeroOracle := by
  intro S T hST _ h
  rw [zeroOracle_makeCandidate] at h ⊢
  split_ifs at h with h0
  · rw [if_pos (hST h0)]

unseal bisectProfiles in
theorem pair_finds_individually_bad :
    bisectProfilesWrapper (World.ofOracle zeroOracle) pairGood pairBad true () =
        .ok (⟨[0], []⟩, ()) ∧
      ([0] : List Nat).Sorted (· ≤ ·) ∧ ([0] : List Nat).Nodup ∧
      (2 ≤ (sortedCommonFuncs pairGood pairBad).length → ∀ f, f ∈ [0] ↔
        (f ∈ pairGood ∧ f ∈ pairBad) ∧ zeroOracle (makeCandidate pairGood pairBad [f]) = .badStatus) ∧
      ((sortedCommonFuncs pairGood pairBad).length = 1 → [0] = sortedCommonFuncs pairGood pairBad) ∧
      ∀ R ∈ ([] : List (List Nat)), ∀ f ∈ R,
        zeroOracle (makeCandidate pairGood pairBad [f]) ≠ .badStatus :=
  have hret : bisectProfilesWrapper (World.ofOracle zeroOracle) pairGood pairBad true () =
      .ok (⟨[0], []⟩, ()) := rfl
  ⟨hret, bisectProfilesWrapper_finds_individually_bad (World.ofOracle_decides zeroOracle)
    zeroOracle_badUpwardClosed hret⟩

/-- A bad profile that adds the function `2` to `pairGood` and keeps the payloads of `0`
and `1`, and a decider that calls BAD every profile that has `2`. -/
def oneSidedBad : Prof Nat Nat := List.toFinmap [⟨0, 0⟩, ⟨1, 0⟩, ⟨2, 1⟩]

def twoOracle (p : Prof Nat Nat) : StatusEnum :=
  if p.lookup 2 = some 1 then .badStatus else .goodStatus

theorem twoOracle_common_good (S : List Nat)
    (hS : S ⊆ sortedCommonFuncs pairGood oneSidedBad) :
    twoOracle (makeCandidate pairGood oneSidedBad S) = .goodStatus := by
  have h2 : 2 ∉ S := fun h => absurd (hS h) (by decide)
  unfold twoOracle
  rw [lookup_makeCandidate, if_neg fun h : 2 ∈ S ∧ _ => h2 h.1]
  decide

unseal bisectProfiles findUpperBorder findLowerBorder in
theorem oneSided_reports_good_range :
    bisectProfilesWrapper (World.ofOracle twoOracle) pairGood oneSidedBad true () =
        .ok (⟨[], [[0, 1]]⟩, ()) ∧
      ∃ r w', bisectProfilesWrapper (World.ofOracle twoOracle) pairGood oneSidedBad true () =
          .ok (r, w') ∧
        ∃ R ∈ r.ranges, R ≠ [] ∧ twoOracle (makeCandidate pairGood oneSidedBad R) = .goodStatus :=
  ⟨rfl, bisectProfilesWrapper_reports_good_range (World.ofOracle_decides twoOracle)
    twoOracle_common_good (by decide)
    (show validateProfiles (World.ofOracle twoOracle) pairGood oneSidedBad true () = .ok () from rfl)⟩

/-- Five functions whose bad payloads differ from the good ones, and a decider that calls
BAD every profile with the bad payloads of both `0` and `1`. -/
def fiveGood : Prof Nat Nat := List.toFinmap [⟨0, 0⟩, ⟨1, 0⟩, ⟨2, 0⟩, ⟨3, 0⟩, ⟨4, 0⟩]

def fiveBad : Prof Nat Nat := List.toFinmap [⟨0, 1⟩, ⟨1, 1⟩, ⟨2, 1⟩, ⟨3, 1⟩, ⟨4, 1⟩]

def pairOracle (p : Prof Nat Nat) : StatusEnum :=
  if p.lookup 0 = some 1 ∧ p.lookup 1 = some 1 then .badStatus else .goodStatus

theorem pairOracle_makeCandidate (S : List Nat) :
    pairOracle (makeCandidate fiveGood fiveBad S) =
      if 0 ∈ S ∧ 1 ∈ S then .badStatus else .goodStatus := by
  unfold pairOracle
  rw [lookup_makeCandidate, lookup_makeCandidate]
  by_cases h0 : 0 ∈ S <;> by_cases h1 : 1 ∈ S <;>
    simp only [h0, h1, true_and, false_and, and_true, and_false, if_true, if_false] <;> decide

theorem pairOracle_badUpwardClosed : BadUpwardClosed fiveGood fiveBad pairOracle := by
  intro S T hST _ h
  rw [pairOracle_makeCandidate] at h ⊢
  split_ifs at h with h01
  · rw [if_pos ⟨hST h01.1, hST h01.2⟩]

unseal findUpperBorder findLowerBorder in
theorem rangeBorders_overshoots_pair :
    BadUpwardClosed fiveGood fiveBad pairOracle ∧
      pairOracle (makeCandidate fiveGood fiveBad [0, 1, 2, 3, 4]) = .badStatus ∧
      pairOracle (makeCandidate fiveGood fiveBad ([0] ++ slice [0, 1, 2, 3, 4] 1 2)) =
        .badStatus ∧
      (findUpperBorder (World.ofOracle pairOracle) fiveGood fiveBad
        (makeCandidate fiveGood fiveBad [0]) [0, 1, 2, 3, 4] 1 5 none ()).map Prod.fst = .ok 3 ∧
      rangeBorders (World.ofOracle pairOracle) fiveGood fiveBad [0] [1, 2, 3, 4] () =
        .ok (0, 3, ()) :=
  ⟨pairOracle_badUpwardClosed, by decide, by decide, rfl, rfl⟩

end ToolchainUtils.AfdoProfAnalysis
