import ToolchainUtils.AfdoProfAnalysis.Profile
import Mathlib.Data.List.Perm.Subperm

/-!
`range_search`: the search for a combination of functions, crossing the middle of an
interval, that makes the good profile BAD when no half of the interval does so alone.
Each of up to `_NUM_RUNS_RANGE_SEARCH` rounds binary-searches an upper and a lower border
in the two pools, then narrows the pools to the smallest range found so far. On distinct
names, the pools stay the best range split at the middle, so that each range the loop
accepts lies in the one before it. Its copies raise `KeyError` on a name a profile lacks
and its decider may raise; on names both profiles have, only the decider's errors escape.
-/

set_option autoImplicit false

namespace ToolchainUtils.AfdoProfAnalysis

variable {α β ω : Type}

/-- `average = lambda x, y: int(round((x + y) / 2.0))`. Python 2 rounds halves away from
zero, so the average of two indices rounds up. -/
def average (x y : Nat) : Nat := (x + y + 1) / 2

/-- `last_bad_val or d`, for a `last_bad_val` that is `None` or an index. -/
def pyOr : Option Nat → Nat → Nat
  | some (v + 1), _ => v + 1
  | _, d => d

/-- `l.index(x)`. -/
def pyIndex [DecidableEq α] (l : List α) (x : α) : Except String Nat :=
  if x ∈ l then .ok (l.indexOf x) else .error "ValueError: x is not in list"

/-- `l[0]`. -/
def pyFirst (l : List α) : Except String α :=
  match l with
  | x :: _ => .ok x
  | [] => .error "IndexError: list index out of range"

/-- `l[-1]`. -/
def pyLast (l : List α) : Except String α :=
  match l.getLast? with
  | some x => .ok x
  | none => .error "IndexError: list index out of range"

section Borders

variable [DecidableEq α] (W : World ω α β) (good bad : Prof α β)

/-- `find_upper_border(good_copy, funcs, lo, hi, last_bad_val)`. Besides the border it
returns `good_copy` as the calls leave it and the world after the decider's calls. -/
def findUpperBorder (goodCopy : Prof α β) (funcs : List α) (lo hi : Nat)
    (lastBadVal : Option Nat) (w : ω) : Except String (Nat × Prof α β × ω) :=
  if average lo hi = lo ∨ average lo hi = hi then .ok (pyOr lastBadVal hi, goodCopy, w)
  else do
    let mid := average lo hi
    let goodCopy ← copyAll bad goodCopy (slice funcs lo mid)
    let (verdict, w) ← W.decider w goodCopy true
    -- reset for next iteration
    let goodCopy ← copyAll good goodCopy funcs
    if verdict = .badStatus then findUpperBorder goodCopy funcs lo mid (some mid) w
    else findUpperBorder goodCopy funcs mid hi lastBadVal w
termination_by (hi - lo) + (lo - hi)
decreasing_by all_goals simp only [average] at *; omega

/-- `find_lower_border(good_copy, funcs, lo, hi, last_bad_val)`. -/
def findLowerBorder (goodCopy : Prof α β) (funcs : List α) (lo hi : Nat)
    (lastBadVal : Option Nat) (w : ω) : Except String (Nat × Prof α β × ω) :=
  if average lo hi = lo ∨ average lo hi = hi then .ok (pyOr lastBadVal lo, goodCopy, w)
  else do
    let mid := average lo hi
    let goodCopy ← copyAll good goodCopy (slice funcs lo mid)
    let (verdict, w) ← W.decider w goodCopy true
    -- reset for next iteration
    let goodCopy ← copyAll bad goodCopy funcs
    if verdict = .badStatus then findLowerBorder goodCopy funcs mid hi (some lo) w
    else findLowerBorder goodCopy funcs lo mid lastBadVal w
termination_by (hi - lo) + (lo - hi)
decreasing_by all_goals simp only [average] at *; omega

end Borders

/-- The variables the loop of `range_search` carries from one round to the next. -/
structure RangeState (α : Type) where
  loMidFuncs : List α
  midHiFuncs : List α
  minRangeFuncs : List α
  lo : Nat
  hi : Nat
  deriving DecidableEq, Repr

section Search

variable [LinearOrder α] (W : World ω α β) (good bad : Prof α β)

/-- The pools a round searches: on the first round the two halves of `[lo, hi)`, after it
the pools narrowed so far, each shuffled. -/
def rangePools (commonFuncs : List α) (s : RangeState α) (w : ω) : List α × List α × ω :=
  if s.minRangeFuncs ≠ [] then
    -- only examine range we've already narrowed to
    let l := W.shuffle w s.loMidFuncs
    let m := W.shuffle l.2 s.midHiFuncs
    (l.1, m.1, m.2)
  else
    -- consider lo-mid and mid-hi separately bc must cross border
    let mid := (s.lo + s.hi) / 2
    (slice commonFuncs s.lo mid, slice commonFuncs mid s.hi, w)

/-- The two border searches of a round over the pools: the lower border, the upper border
and the world after them. -/
def rangeBorders (loMidFuncs midHiFuncs : List α) (w : ω) : Except String (Nat × Nat × ω) := do
  let funcs := loMidFuncs ++ midHiFuncs
  let hi := funcs.length
  let mid := loMidFuncs.length
  let lo := 0
  -- because we need the problematic pair to pop up before we can narrow it
  let prof ← copyAll bad good loMidFuncs
  let (upperBorder, prof, w) ← findUpperBorder W good bad prof funcs mid hi none w
  let prof ← copyAll bad prof (loMidFuncs ++ slice funcs mid upperBorder)
  let (lowerBorder, _, w) ← findLowerBorder W good bad prof funcs lo mid none w
  return (lowerBorder, upperBorder, w)

/-- One pass of the loop of `range_search`; `.inl r` is the early `return r` taken when the
best range has two names. -/
def rangeSearchRound (commonFuncs : List α) (s : RangeState α) (w : ω) :
    Except String ((List α ⊕ RangeState α) × ω) := do
  let (loMidFuncs, midHiFuncs, w) := rangePools W commonFuncs s w
  let funcs := loMidFuncs ++ midHiFuncs
  let (lowerBorder, upperBorder, w) ← rangeBorders W good bad loMidFuncs midHiFuncs w
  let currRangeFuncs := slice funcs lowerBorder upperBorder
  if s.minRangeFuncs = [] ∨ currRangeFuncs.length < s.minRangeFuncs.length then
    let first ← pyFirst currRangeFuncs
    let i ← pyIndex loMidFuncs first
    let last ← pyLast currRangeFuncs
    let j ← pyIndex midHiFuncs last
    if currRangeFuncs.length = 2 then return (.inl (pySort currRangeFuncs), w)
    else return (.inr ⟨loMidFuncs.drop i, midHiFuncs.take (j + 1), currRangeFuncs, 0,
      funcs.length⟩, w)
  else return (.inr ⟨loMidFuncs, midHiFuncs, s.minRangeFuncs, 0, funcs.length⟩, w)

/-- The loop of `range_search` with `n` rounds left. -/
def rangeSearchLoop (commonFuncs : List α) : Nat → RangeState α → ω →
    Except String (List α × ω)
  | 0, s, w => .ok (pySort s.minRangeFuncs, w)
  | n + 1, s, w => do
    let (r, w) ← rangeSearchRound W good bad commonFuncs s w
    match r with
    | .inl found => return (found, w)
    | .inr s => rangeSearchLoop commonFuncs n s w

/-- `_NUM_RUNS_RANGE_SEARCH`. -/
def numRunsRangeSearch : Nat := 20

/-- `range_search(decider, good, bad, common_funcs, lo, hi)`. -/
def rangeSearch (commonFuncs : List α) (lo hi : Nat) (w : ω) : Except String (List α × ω) :=
  rangeSearchLoop W good bad commonFuncs numRunsRangeSearch ⟨[], [], [], lo, hi⟩ w

end Search

section Bounds

variable [DecidableEq α] {W : World ω α β} {good bad : Prof α β} {E : String → Prop}

theorem pyOr_cases (last : Option Nat) (d : Nat) :
    pyOr last d = d ∨ last = some (pyOr last d) := by
  rcases last with _ | _ | v <;> simp [pyOr]

theorem average_between {lo hi : Nat} (h : ¬(average lo hi = lo ∨ average lo hi = hi))
    (hlt : lo < hi) : lo < average lo hi ∧ average lo hi < hi := by
  simp only [average] at *; omega

theorem findUpperBorder_sat (hE : W.RaisesOnly E) {funcs : List α}
    (hkeys : ∀ x ∈ funcs, x ∈ good ∧ x ∈ bad) {A B : Nat} (goodCopy : Prof α β) (lo hi : Nat)
    (last : Option Nat) (w : ω) (hA : A ≤ lo) (hlt : lo < hi) (hB : hi ≤ B)
    (hlast : ∀ v, last = some v → A < v ∧ v ≤ B) :
    Sat E (fun r => A < r.1 ∧ r.1 ≤ B) (findUpperBorder W good bad goodCopy funcs lo hi last w) := by
  induction goodCopy, funcs, lo, hi, last, w using findUpperBorder.induct W good bad with
  | case1 goodCopy funcs lo hi last w hstop =>
    rw [findUpperBorder, if_pos hstop]
    rcases pyOr_cases last hi with h | h
    · rw [sat_ok, h]; omega
    · exact hlast _ h
  | case2 goodCopy funcs lo hi last w hstop _ ih₁ ih₂ =>
    have hmid := average_between hstop hlt
    rw [findUpperBorder, if_neg hstop]
    refine (sat_copyAll (fun x hx => (hkeys x ((slice_sublist _ _ _).subset hx)).2) _).bind
      fun _ _ => (hE _ _ _).bind fun ⟨v, w'⟩ _ =>
        (sat_copyAll (fun x hx => (hkeys x hx).1) _).bind fun p _ => ?_
    split
    · exact ih₁ w' p hkeys hA hmid.1 (by omega) fun v hv => by cases hv; omega
    · exact ih₂ w' p hkeys (by omega) hmid.2 hB hlast

theorem findLowerBorder_sat (hE : W.RaisesOnly E) {funcs : List α}
    (hkeys : ∀ x ∈ funcs, x ∈ good ∧ x ∈ bad) {A B : Nat} (goodCopy : Prof α β) (lo hi : Nat)
    (last : Option Nat) (w : ω) (hA : A ≤ lo) (hlt : lo < hi) (hB : hi ≤ B)
    (hlast : ∀ v, last = some v → A ≤ v ∧ v < B) :
    Sat E (fun r => A ≤ r.1 ∧ r.1 < B) (findLowerBorder W good bad goodCopy funcs lo hi last w) := by
  induction goodCopy, funcs, lo, hi, last, w using findLowerBorder.induct W good bad with
  | case1 goodCopy funcs lo hi last w hstop =>
    rw [findLowerBorder, if_pos hstop]
    rcases pyOr_cases last lo with h | h
    · rw [sat_ok, h]; omega
    · exact hlast _ h
  | case2 goodCopy funcs lo hi last w hstop _ ih₁ ih₂ =>
    have hmid := average_between hstop hlt
    rw [findLowerBorder, if_neg hstop]
    refine (sat_copyAll (fun x hx => (hkeys x ((slice_sublist _ _ _).subset hx)).1) _).bind
      fun _ _ => (hE _ _ _).bind fun ⟨v, w'⟩ _ =>
        (sat_copyAll (fun x hx => (hkeys x hx).2) _).bind fun p _ => ?_
    split
    · exact ih₁ w' p hkeys (by omega) hmid.2 hB fun v hv => by cases hv; omega
    · exact ih₂ w' p hkeys hA hmid.1 (by omega) hlast

end Bounds

section Lists

theorem subperm_append {l₁ l₂ m₁ m₂ : List α} (h₁ : l₁.Subperm m₁) (h₂ : l₂.Subperm m₂) :
    (l₁ ++ l₂).Subperm (m₁ ++ m₂) :=
  ((List.subperm_append_right l₂).2 h₁).trans ((List.subperm_append_left m₁).2 h₂)

theorem subperm_nodup {l₁ l₂ : List α} (h : l₁.Subperm l₂) (hn : l₂.Nodup) : l₁.Nodup := by
  obtain ⟨l, hp, hs⟩ := h
  exact hp.nodup_iff.1 (hn.sublist hs)

theorem slice_append_of_le {l m : List α} {i j : Nat} (hi : i ≤ l.length) (hj : l.length ≤ j) :
    slice (l ++ m) i j = l.drop i ++ m.take (j - l.length) := by
  rw [slice, List.drop_append_of_le_length hi, List.take_append_eq_append_take,
    List.take_of_length_le (by simp; omega)]
  congr 2
  simp; omega

theorem pyIndex_of_mem [DecidableEq α] {l : List α} {x : α} (h : x ∈ l) :
    pyIndex l x = .ok (l.indexOf x) := if_pos h

theorem slice_borders {l m : List α} {lower upper : Nat} (hlow : lower < l.length)
    (hmid : l.length < upper) (hup : upper ≤ l.length + m.length) :
    slice (l ++ m) lower upper = l.drop lower ++ m.take (upper - l.length) ∧
      l.drop lower ≠ [] ∧ m.take (upper - l.length) ≠ [] := by
  refine ⟨slice_append_of_le (by omega) (by omega), ?_, ?_⟩
  · simp only [ne_eq, List.drop_eq_nil_iff]; omega
  · intro h
    have := congrArg List.length h
    simp only [List.length_take, List.length_nil] at this
    omega

theorem pyIndex_first_drop [DecidableEq α] {l : List α} (hl : l.Nodup) {i : Nat}
    (hi : i < l.length) (Y : List α) :
    ∃ x, pyFirst (l.drop i ++ Y) = .ok x ∧ pyIndex l x = .ok i := by
  refine ⟨l[i], by rw [List.drop_eq_getElem_cons hi]; rfl, ?_⟩
  rw [pyIndex_of_mem (List.getElem_mem hi), List.indexOf_getElem hl]

theorem pyIndex_last_take [DecidableEq α] {m : List α} (hm : m.Nodup) {j : Nat}
    (hj : j < m.length) (X : List α) :
    ∃ y, pyLast (X ++ m.take (j + 1)) = .ok y ∧ pyIndex m y = .ok j := by
  refine ⟨m[j], ?_, ?_⟩
  · rw [← List.take_concat_get m j hj, List.concat_eq_append, ← List.append_assoc, pyLast,
      List.getLast?_concat]
  · rw [pyIndex_of_mem (List.getElem_mem hj), List.indexOf_getElem hm]

end Lists

section Invariant

variable [LinearOrder α] (W : World ω α β) (good bad : Prof α β)

/-- The loop's variables between two rounds of `range_search(..., lo, hi)`. Before the
first round the bounds are the call's; after it the pools are non-empty parts of the two
halves of `[lo, hi)`, and the best range is a part of `[lo, hi)` with at least two names. -/
inductive RangeInv (cf : List α) (lo hi : Nat) : RangeState α → Prop
  | initial (l m : List α) : RangeInv cf lo hi ⟨l, m, [], lo, hi⟩
  | narrowed (s : RangeState α) : s.loMidFuncs ≠ [] → s.midHiFuncs ≠ [] →
      s.loMidFuncs.Subperm (slice cf lo ((lo + hi) / 2)) →
      s.midHiFuncs.Subperm (slice cf ((lo + hi) / 2) hi) →
      s.minRangeFuncs.Subperm (slice cf lo hi) → 2 ≤ s.minRangeFuncs.length → RangeInv cf lo hi s

variable {cf : List α} {lo hi : Nat}

theorem rangePools_spec (hlo : lo + 2 ≤ hi) (hhi : hi ≤ cf.length) {s : RangeState α}
    (hs : RangeInv cf lo hi s) (w : ω) :
    let p := rangePools W cf s w
    p.1 ≠ [] ∧ p.2.1 ≠ [] ∧ p.1.Subperm (slice cf lo ((lo + hi) / 2)) ∧
      p.2.1.Subperm (slice cf ((lo + hi) / 2) hi) := by
  cases hs with
  | initial l m =>
    simp only [rangePools, ne_eq, not_true_eq_false, if_false]
    refine ⟨?_, ?_, List.Subperm.refl _, List.Subperm.refl _⟩ <;>
      · intro h
        have := congrArg List.length h
        simp only [length_slice, List.length_nil] at this
        omega
  | narrowed s hl hm hls hms hmin hlen =>
    have hne : s.minRangeFuncs ≠ [] := by rintro h; simp [h] at hlen
    have p₁ := W.shuffle_perm w s.loMidFuncs
    have p₂ := W.shuffle_perm (W.shuffle w s.loMidFuncs).2 s.midHiFuncs
    simp only [rangePools, if_pos hne]
    exact ⟨fun h => hl (h ▸ p₁).symm.eq_nil, fun h => hm (h ▸ p₂).symm.eq_nil,
      p₁.subperm.trans hls, p₂.subperm.trans hms⟩

theorem rangeBorders_sat {E : String → Prop} (hE : W.RaisesOnly E) {l m : List α}
    (hkeys : ∀ x ∈ l ++ m, x ∈ good ∧ x ∈ bad) (hl : l ≠ []) (hm : m ≠ []) (w : ω) :
    Sat E (fun b => b.1 < l.length ∧ l.length < b.2.1 ∧ b.2.1 ≤ l.length + m.length)
      (rangeBorders W good bad l m w) := by
  have hl' := List.length_pos.mpr hl
  have hm' := List.length_pos.mpr hm
  refine (sat_copyAll (fun x hx => (hkeys x (List.mem_append_left _ hx)).2) _).bind
    fun p _ => (findUpperBorder_sat hE hkeys p l.length (l ++ m).length none w le_rfl
      (by simp; omega) le_rfl (by simp)).bind fun ⟨upper, _, w'⟩ hu =>
    (sat_copyAll (fun x hx => ?_) _).bind fun p' _ =>
    (findLowerBorder_sat hE hkeys p' 0 l.length none w' le_rfl hl' le_rfl (by simp)).bind
      fun ⟨lower, _, _⟩ hlow => ⟨hlow.2, hu.1, by simpa using hu.2⟩
  rcases List.mem_append.1 hx with hx | hx
  · exact (hkeys x (List.mem_append_left _ hx)).2
  · exact (hkeys x ((slice_sublist _ _ _).subset hx)).2

end Invariant

section Narrowing

variable [LinearOrder α] (W : World ω α β) (good bad : Prof α β)

/-- The states the loop of `range_search(..., lo, hi)` reaches, round after round, whatever
the decider answers and however the pools are shuffled. -/
inductive RangeReach (cf : List α) (lo hi : Nat) : RangeState α → Prop
  | initial : RangeReach cf lo hi ⟨[], [], [], lo, hi⟩
  | round {s s' : RangeState α} {w w' : ω} : RangeReach cf lo hi s →
      rangeSearchRound W good bad cf s w = .ok (.inr s', w') → RangeReach cf lo hi s'

/-- Once a best range is found, the two pools are its names, split at the middle. -/
def Crossing (s : RangeState α) : Prop :=
  s.minRangeFuncs ≠ [] → (s.loMidFuncs ++ s.midHiFuncs).Perm s.minRangeFuncs

/-- What `range_search(..., lo, hi)` returns: a sorted list of at least two distinct names of
`common_funcs[lo:hi]`, one of `common_funcs[lo:mid]` and one of `common_funcs[mid:hi]`. -/
structure CrossingRange (cf : List α) (lo hi : Nat) (R : List α) : Prop where
  sorted : R.Sorted (· ≤ ·)
  nodup : R.Nodup
  subperm : R.Subperm (slice cf lo hi)
  two_le : 2 ≤ R.length
  lower : ∃ x ∈ R, x ∈ slice cf lo ((lo + hi) / 2)
  upper : ∃ y ∈ R, y ∈ slice cf ((lo + hi) / 2) hi

/-- The best range after a round: the one it returns early, or the one the loop carries on
with. -/
def roundBest : List α ⊕ RangeState α → List α
  | .inl R => R
  | .inr s => s.minRangeFuncs

/-- What a round from a state of the loop can return: a crossing range, returned early, or
a state that keeps the invariant, whose pools are its best range. -/
def RoundOk (cf : List α) (lo hi : Nat) : List α ⊕ RangeState α → Prop
  | .inl R => CrossingRange cf lo hi R
  | .inr s' => RangeInv cf lo hi s' ∧ Crossing s' ∧ s'.minRangeFuncs ≠ []

variable {cf : List α} {lo hi : Nat}

theorem crossingRange_pySort (hnd : cf.Nodup) (hlo : lo ≤ hi) {C X Y : List α}
    (hC : C.Perm (X ++ Y)) (hX : X ≠ []) (hY : Y ≠ [])
    (hXs : X.Subperm (slice cf lo ((lo + hi) / 2)))
    (hYs : Y.Subperm (slice cf ((lo + hi) / 2) hi)) : CrossingRange cf lo hi (pySort C) := by
  have hp : (pySort C).Perm (X ++ Y) := (pySort_perm C).trans hC
  have hsplit : slice cf lo ((lo + hi) / 2) ++ slice cf ((lo + hi) / 2) hi = slice cf lo hi :=
    slice_append_slice cf (by omega) (by omega)
  have hs : (pySort C).Subperm (slice cf lo hi) :=
    hsplit ▸ hp.subperm.trans (subperm_append hXs hYs)
  obtain ⟨x, hx⟩ := List.exists_mem_of_ne_nil X hX
  obtain ⟨y, hy⟩ := List.exists_mem_of_ne_nil Y hY
  have hXl := List.length_pos.2 hX
  have hYl := List.length_pos.2 hY
  exact ⟨pySort_sorted C, subperm_nodup hs ((slice_sublist cf lo hi).nodup hnd), hs,
    by rw [hp.length_eq, List.length_append]; omega,
    ⟨x, hp.symm.subset (List.mem_append_left _ hx), hXs.subset hx⟩,
    ⟨y, hp.symm.subset (List.mem_append_right _ hy), hYs.subset hy⟩⟩

theorem rangePools_perm {s : RangeState α} (hne : s.minRangeFuncs ≠ []) (w : ω) :
    ((rangePools W cf s w).1 ++ (rangePools W cf s w).2.1).Perm
      (s.loMidFuncs ++ s.midHiFuncs) := by
  simp only [rangePools, if_pos hne]
  exact (W.shuffle_perm _ _).append (W.shuffle_perm _ _)

theorem rangeSearchRound_narrows {E : String → Prop} (hE : W.RaisesOnly E)
    (hkeys : ∀ x ∈ cf, x ∈ good ∧ x ∈ bad) (hnd : cf.Nodup) (hlo : lo + 2 ≤ hi)
    (hhi : hi ≤ cf.length) {s : RangeState α} (hs : RangeInv cf lo hi s) (hc : Crossing s)
    (w : ω) :
    Sat E (fun r => (s.minRangeFuncs ≠ [] → (roundBest r.1).Subperm s.minRangeFuncs) ∧
      RoundOk cf lo hi r.1) (rangeSearchRound W good bad cf s w) := by
  obtain ⟨hl, hm, hls, hms⟩ := rangePools_spec W hlo hhi hs w
  have hpools : s.minRangeFuncs ≠ [] →
      ((rangePools W cf s w).1 ++ (rangePools W cf s w).2.1).Perm s.minRangeFuncs :=
    fun hne => (rangePools_perm W hne w).trans (hc hne)
  have hln := subperm_nodup hls ((slice_sublist _ _ _).nodup hnd)
  have hmn := subperm_nodup hms ((slice_sublist _ _ _).nodup hnd)
  have hpk : ∀ x ∈ (rangePools W cf s w).1 ++ (rangePools W cf s w).2.1, x ∈ good ∧ x ∈ bad :=
    fun x hx => hkeys x <| by
      rcases List.mem_append.1 hx with hx | hx
      · exact (slice_sublist _ _ _).subset (hls.subset hx)
      · exact (slice_sublist _ _ _).subset (hms.subset hx)
  simp only [rangeSearchRound]
  generalize rangePools W cf s w = p at *
  obtain ⟨l, m, w₁⟩ := p
  simp only at hl hm hls hms hln hmn hpools hpk ⊢
  refine (rangeBorders_sat W good bad hE hpk hl hm w₁).bind fun ⟨lower, upper, w₂⟩ hb => ?_
  obtain ⟨hlow, hmid, hup⟩ : lower < l.length ∧ l.length < upper ∧
    upper ≤ l.length + m.length := hb
  obtain ⟨hcurr, hX, hY⟩ := slice_borders hlow hmid hup
  have hXs := (List.drop_sublist lower l).subperm.trans hls
  have hYs := (List.take_sublist (upper - l.length) m).subperm.trans hms
  dsimp only
  rw [hcurr]
  by_cases hupd : s.minRangeFuncs = [] ∨
      (l.drop lower ++ m.take (upper - l.length)).length < s.minRangeFuncs.length
  · obtain ⟨x, hf, hi⟩ := pyIndex_first_drop hln hlow (m.take (upper - l.length))
    obtain ⟨y, hla, hj⟩ := pyIndex_last_take hmn (j := upper - l.length - 1) (by omega)
      (l.drop lower)
    rw [Nat.sub_add_cancel (by omega : 1 ≤ upper - l.length)] at hla
    have hsub : s.minRangeFuncs ≠ [] →
        (l.drop lower ++ m.take (upper - l.length)).Subperm s.minRangeFuncs := fun hne =>
      (subperm_append (List.drop_sublist _ _).subperm (List.take_sublist _ _).subperm).trans
        (hpools hne).subperm
    have hcr := crossingRange_pySort hnd (by omega) (List.Perm.refl _) hX hY hXs hYs
    simp only [if_pos hupd, hf, hi, hla, hj, Nat.sub_add_cancel (by omega : 1 ≤ upper - l.length),
      bind, Except.bind]
    split_ifs
    · exact ⟨fun hne => (pySort_perm _).subperm.trans (hsub hne), hcr⟩
    · exact ⟨hsub, .narrowed _ hX hY hXs hYs ((pySort_perm _).symm.subperm.trans
        hcr.subperm) (hcr.two_le.trans (pySort_perm _).length_eq.le), fun _ => .refl _,
        fun h => hX (List.append_eq_nil.mp h).1⟩
  · have hne : s.minRangeFuncs ≠ [] := fun h => hupd (.inl h)
    rw [if_neg hupd]
    cases hs with
    | initial => exact absurd rfl hne
    | narrowed _ _ _ _ _ hmin hmlen =>
      exact ⟨fun _ => .refl _, .narrowed _ hl hm hls hms hmin hmlen, fun _ => hpools hne, hne⟩

theorem RangeReach.inv (hkeys : ∀ x ∈ cf, x ∈ good ∧ x ∈ bad) (hnd : cf.Nodup)
    (hlo : lo + 2 ≤ hi) (hhi : hi ≤ cf.length) {s : RangeState α}
    (h : RangeReach W good bad cf lo hi s) : RangeInv cf lo hi s ∧ Crossing s := by
  induction h with
  | initial => exact ⟨.initial [] [], fun h => absurd rfl h⟩
  | round _ hr ih =>
    have h := (rangeSearchRound_narrows W good bad W.raisesOnly_true hkeys hnd hlo hhi ih.1 ih.2
      _).of_ok hr
    exact ⟨h.2.1, h.2.2.1⟩

theorem rangeSearchLoop_narrows {E : String → Prop} (hE : W.RaisesOnly E)
    (hkeys : ∀ x ∈ cf, x ∈ good ∧ x ∈ bad) (hnd : cf.Nodup) (hlo : lo + 2 ≤ hi)
    (hhi : hi ≤ cf.length) :
    ∀ (n : Nat) (s : RangeState α) (w : ω), RangeReach W good bad cf lo hi s →
      (0 < n ∨ s.minRangeFuncs ≠ []) →
      Sat E (fun r => CrossingRange cf lo hi r.1) (rangeSearchLoop W good bad cf n s w)
  | 0, s, w, hr, hn => by
    have hne : s.minRangeFuncs ≠ [] := hn.resolve_left (Nat.lt_irrefl 0)
    obtain ⟨hs, hc⟩ := hr.inv W good bad hkeys hnd hlo hhi
    cases hs with
    | initial => exact absurd rfl hne
    | narrowed s hl hm hls hms _ _ =>
      exact crossingRange_pySort hnd (by omega) (hc hne).symm hl hm hls hms
  | n + 1, s, w, hr, _ => by
    obtain ⟨hs, hc⟩ := hr.inv W good bad hkeys hnd hlo hhi
    refine (rangeSearchRound_narrows W good bad hE hkeys hnd hlo hhi hs hc w).bind_eq
      fun ⟨r, w'⟩ hround hspec => ?_
    cases r with
    | inl R => exact hspec.2
    | inr s' =>
      exact rangeSearchLoop_narrows hE hkeys hnd hlo hhi n s' w' (hr.round hround)
        (.inr hspec.2.2.2)

theorem rangeSearch_sat {E : String → Prop} (hE : W.RaisesOnly E)
    (hkeys : ∀ x ∈ cf, x ∈ good ∧ x ∈ bad) (hnd : cf.Nodup) (hlo : lo + 2 ≤ hi)
    (hhi : hi ≤ cf.length) (w : ω) :
    Sat E (fun r => CrossingRange cf lo hi r.1) (rangeSearch W good bad cf lo hi w) :=
  rangeSearchLoop_narrows W good bad hE hkeys hnd hlo hhi _ _ w .initial (.inl (by decide))

theorem rangeSearch_narrows (hW : W.Answers) (hkeys : ∀ x ∈ cf, x ∈ good ∧ x ∈ bad)
    (hnd : cf.Nodup) (hlo : lo + 2 ≤ hi) (hhi : hi ≤ cf.length) (w : ω) :
    (∃ R w', rangeSearch W good bad cf lo hi w = .ok (R, w') ∧ CrossingRange cf lo hi R) ∧
      ∀ s, RangeReach W good bad cf lo hi s → ∀ w₀ : ω,
        (∀ l m w₁ lower upper w₂, rangePools W cf s w₀ = (l, m, w₁) →
          rangeBorders W good bad l m w₁ = .ok (lower, upper, w₂) →
          lower < l.length ∧ l.length < upper ∧ upper ≤ l.length + m.length) ∧
        ∃ r w', rangeSearchRound W good bad cf s w₀ = .ok (r, w') ∧
          (s.minRangeFuncs ≠ [] → (roundBest r).Subperm s.minRangeFuncs) := by
  obtain ⟨⟨R, w'⟩, h, hR⟩ := (rangeSearch_sat W good bad hW hkeys hnd hlo hhi w).exists_ok
  refine ⟨⟨R, w', h, hR⟩, fun s hr w₀ => ⟨fun l m w₁ lower upper w₂ hp hb => ?_, ?_⟩⟩
  · obtain ⟨hs, -⟩ := hr.inv W good bad hkeys hnd hlo hhi
    obtain ⟨hl, hm, hls, hms⟩ := rangePools_spec W hlo hhi hs w₀
    rw [hp] at hl hm hls hms
    refine (rangeBorders_sat W good bad hW (fun x hx => hkeys x ?_) hl hm w₁).of_ok hb
    rcases List.mem_append.1 hx with hx | hx
    · exact (slice_sublist _ _ _).subset (hls.subset hx)
    · exact (slice_sublist _ _ _).subset (hms.subset hx)
  · obtain ⟨hs, hc⟩ := hr.inv W good bad hkeys hnd hlo hhi
    obtain ⟨⟨r, w'⟩, hround, hspec⟩ :=
      (rangeSearchRound_narrows W good bad hW hkeys hnd hlo hhi hs hc w₀).exists_ok
    exact ⟨r, w', hround, hspec.1⟩

/-- Four functions whose bad payloads differ from the good ones. -/
def fourGood : Prof Nat Nat := List.toFinmap [⟨0, 0⟩, ⟨1, 0⟩, ⟨2, 0⟩, ⟨3, 0⟩]

def fourBad : Prof Nat Nat := List.toFinmap [⟨0, 1⟩, ⟨1, 1⟩, ⟨2, 1⟩, ⟨3, 1⟩]

theorem rangeSearch_narrows_four :
    (World.ofOracle fun (_ : Prof Nat Nat) => .badStatus).Answers ∧
      (∀ x ∈ [0, 1, 2, 3], x ∈ fourGood ∧ x ∈ fourBad) ∧
      [0, 1, 2, 3].Nodup ∧ 0 + 2 ≤ 4 ∧ 4 ≤ [0, 1, 2, 3].length ∧
      ((∃ R w', rangeSearch (World.ofOracle fun (_ : Prof Nat Nat) => .badStatus) fourGood
          fourBad [0, 1, 2, 3] 0 4 () = .ok (R, w') ∧ CrossingRange [0, 1, 2, 3] 0 4 R) ∧
        ∀ s, RangeReach (World.ofOracle fun (_ : Prof Nat Nat) => .badStatus) fourGood fourBad
            [0, 1, 2, 3] 0 4 s → ∀ w₀ : Unit,
          (∀ l m w₁ lower upper w₂,
            rangePools (World.ofOracle fun (_ : Prof Nat Nat) => .badStatus) [0, 1, 2, 3] s w₀ =
              (l, m, w₁) →
            rangeBorders (World.ofOracle fun (_ : Prof Nat Nat) => .badStatus) fourGood fourBad
              l m w₁ = .ok (lower, upper, w₂) →
            lower < l.length ∧ l.length < upper ∧ upper ≤ l.length + m.length) ∧
          ∃ r w', rangeSearchRound (World.ofOracle fun (_ : Prof Nat Nat) => .badStatus)
              fourGood fourBad [0, 1, 2, 3] s w₀ = .ok (r, w') ∧
            (s.minRangeFuncs ≠ [] → (roundBest r).Subperm s.minRangeFuncs)) :=
  have hkeys : ∀ x ∈ [0, 1, 2, 3], x ∈ fourGood ∧ x ∈ fourBad := by decide
  ⟨World.ofOracle_answers _, hkeys, by decide, by decide, by decide,
    rangeSearch_narrows _ _ _ (World.ofOracle_answers _) hkeys (by decide) (by decide)
      (by decide) ()⟩

end Narrowing

end ToolchainUtils.AfdoProfAnalysis
