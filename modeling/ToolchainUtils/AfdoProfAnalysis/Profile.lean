import Mathlib.Data.Finmap
import Mathlib.Data.List.Sort
import Mathlib.Data.List.Lex

/-!
The data of the AFDO profile analysis (`afdo_tools/bisection/afdo_prof_analysis.py`):
JSON-based profiles, the verdicts of the external decider, and the outside world that
answers the decider and `random.shuffle`. Parsing profiles and writing them to the
temporary file the decider reads are outside the model; a profile is the dictionary.
-/

set_option autoImplicit false

namespace ToolchainUtils.AfdoProfAnalysis

/-- `status_enum`: the verdicts of the external decider. -/
inductive StatusEnum where
  | goodStatus
  | badStatus
  | skipStatus
  | problemStatus
  deriving DecidableEq, Repr

/-- The return code the decider exits with for each verdict. -/
def StatusEnum.code : StatusEnum → Nat
  | .goodStatus => 0
  | .badStatus => 1
  | .skipStatus => 125
  | .problemStatus => 127

variable {α β ω : Type}

section Sat

variable {ε γ δ : Type} {E E' : ε → Prop} {P P' : γ → Prop}

/-- `x` raises only errors of `E` and returns only results of `P`. -/
def Sat (E : ε → Prop) (P : γ → Prop) : Except ε γ → Prop
  | .ok a => P a
  | .error e => E e

@[simp] theorem sat_ok (a : γ) : Sat E P (.ok a) ↔ P a := Iff.rfl

@[simp] theorem sat_error (e : ε) : Sat E P (.error e : Except ε γ) ↔ E e := Iff.rfl

theorem Sat.bind {x : Except ε γ} {f : γ → Except ε δ} {Q : δ → Prop} (hx : Sat E P x)
    (hf : ∀ a, P a → Sat E Q (f a)) : Sat E Q (x >>= f) := by
  cases x with
  | error e => exact hx
  | ok a => exact hf a hx

theorem Sat.bind_eq {x : Except ε γ} {f : γ → Except ε δ} {Q : δ → Prop} (hx : Sat E P x)
    (hf : ∀ a, x = .ok a → P a → Sat E Q (f a)) : Sat E Q (x >>= f) := by
  cases x with
  | error e => exact hx
  | ok a => exact hf a rfl hx

theorem Sat.mono {x : Except ε γ} (h : Sat E P x) (hE : ∀ e, E e → E' e)
    (hP : ∀ a, P a → P' a) : Sat E' P' x := by
  cases x with
  | error e => exact hE e h
  | ok a => exact hP a h

theorem Sat.of_ok {x : Except ε γ} {a : γ} (h : Sat E P x) (hx : x = .ok a) : P a := by
  subst hx; exact h

theorem Sat.of_error {x : Except ε γ} {e : ε} (h : Sat E P x) (hx : x = .error e) : E e := by
  subst hx; exact h

theorem Sat.exists_ok {x : Except ε γ} (h : Sat (fun _ => False) P x) : ∃ a, x = .ok a ∧ P a := by
  cases x with
  | error e => exact h.elim
  | ok a => exact ⟨a, rfl, h⟩

end Sat

/-- A JSON-based AFDO profile: a dictionary from function names to profile text. -/
abbrev Prof (α β : Type) := Finmap (fun _ : α => β)

section Copy

variable [DecidableEq α]

/-- `prof[func] = src[func]`, which raises `KeyError` when `src` has no `func`. -/
def copyFrom (src prof : Prof α β) (func : α) : Except String (Prof α β) :=
  match src.lookup func with
  | some v => .ok (prof.insert func v)
  | none => .error "KeyError"

/-- `for func in funcs: prof[func] = src[func]`. -/
def copyAll (src prof : Prof α β) (funcs : List α) : Except String (Prof α β) :=
  funcs.foldlM (copyFrom src) prof

/-- `prof` with the payloads of the names of `funcs` that `src` has taken from `src`. -/
def overlay (src prof : Prof α β) (funcs : List α) : Prof α β :=
  funcs.foldl (fun p f => match src.lookup f with | some v => p.insert f v | none => p) prof

/-- `good` with the payloads of `funcs` taken from `bad`: the candidate the spec calls
`MakeCandidate(good, bad, funcs)`. -/
def makeCandidate (good bad : Prof α β) (funcs : List α) : Prof α β :=
  overlay bad good funcs

theorem copyAll_of_mem {src : Prof α β} {funcs : List α} (h : ∀ f ∈ funcs, f ∈ src)
    (prof : Prof α β) : copyAll src prof funcs = .ok (overlay src prof funcs) := by
  induction funcs generalizing prof with
  | nil => rfl
  | cons f fs ih =>
    obtain ⟨v, hv⟩ := Option.isSome_iff_exists.1
      (Finmap.lookup_isSome.2 (h f (List.mem_cons_self _ _)))
    have hfs := ih (fun g hg => h g (List.mem_cons_of_mem _ hg)) (prof.insert f v)
    simp only [copyAll, overlay, List.foldlM_cons, List.foldl_cons, copyFrom, hv] at hfs ⊢
    exact hfs

theorem sat_copyAll {E : String → Prop} {src : Prof α β} {funcs : List α}
    (h : ∀ f ∈ funcs, f ∈ src) (prof : Prof α β) :
    Sat E (· = overlay src prof funcs) (copyAll src prof funcs) := by
  rw [copyAll_of_mem h]
  rfl

theorem lookup_overlay (src prof : Prof α β) (funcs : List α) (x : α) :
    (overlay src prof funcs).lookup x =
      if x ∈ funcs ∧ x ∈ src then src.lookup x else prof.lookup x := by
  induction funcs generalizing prof with
  | nil => simp [overlay]
  | cons f fs ih =>
    rw [overlay, List.foldl_cons, ← overlay, ih]
    by_cases hx : x ∈ src
    · by_cases hf : x = f
      · subst hf
        obtain ⟨v, hv⟩ := Option.isSome_iff_exists.1 (Finmap.lookup_isSome.2 hx)
        simp [hv, hx]
      · cases src.lookup f <;> simp [Finmap.lookup_insert_of_ne _ hf, hx, hf]
    · have hnone := Finmap.lookup_eq_none.2 hx
      cases hs : src.lookup f with
      | none => simp [hx, hnone]
      | some v =>
        have hf : x ≠ f := fun h => hx (h ▸ Finmap.lookup_isSome.1 (by simp [hs]))
        simp [Finmap.lookup_insert_of_ne _ hf, hx]

theorem lookup_makeCandidate (good bad : Prof α β) (funcs : List α) (x : α) :
    (makeCandidate good bad funcs).lookup x =
      if x ∈ funcs ∧ x ∈ bad then bad.lookup x else good.lookup x :=
  lookup_overlay bad good funcs x

end Copy

/-- The outside world as the analysis sees it: the external decider, called as
`decider(prof, increment_counter)`, and `random.shuffle`. Each answer may depend on all
earlier calls through the state `ω`, and a call may raise; a shuffle only reorders its
list. -/
structure World (ω α β : Type) where
  decider : ω → Prof α β → Bool → Except String (StatusEnum × ω)
  shuffle : ω → List α → List α × ω
  shuffle_perm : ∀ w l, (shuffle w l).1.Perm l

/-- The world of a decider that answers by `O` alone, with a `random.shuffle` that keeps
the order. -/
def World.ofOracle (O : Prof α β → StatusEnum) : World Unit α β :=
  ⟨fun w p _ => .ok (O p, w), fun w l => (l, w), fun _ _ => List.Perm.refl _⟩

/-- Every error the decider raises satisfies `E`. -/
def World.RaisesOnly (W : World ω α β) (E : String → Prop) : Prop :=
  ∀ w p inc, Sat E (fun _ => True) (W.decider w p inc)

/-- The decider returns a member of `status_enum` on every call. -/
def World.Answers (W : World ω α β) : Prop := W.RaisesOnly fun _ => False

theorem World.raisesOnly_true (W : World ω α β) : W.RaisesOnly fun _ => True :=
  fun w p inc => by cases W.decider w p inc <;> trivial

theorem World.ofOracle_answers (O : Prof α β → StatusEnum) : (World.ofOracle O).Answers :=
  fun _ _ _ => trivial

/-- The dictionary `{'individuals': ..., 'ranges': ...}` a bisection returns. -/
structure Results (α : Type) where
  individuals : List α
  ranges : List (List α)
  deriving DecidableEq, Repr

/-- `results['individuals'].extend(...)` and `results['ranges'].extend(...)`. -/
def Results.extend (r s : Results α) : Results α :=
  ⟨r.individuals ++ s.individuals, r.ranges ++ s.ranges⟩

/-- `results['ranges'].append(problem_range)`. -/
def Results.addRange (r : Results α) (range : List α) : Results α :=
  ⟨r.individuals, r.ranges ++ [range]⟩

def Results.names (r : Results α) : List α := r.individuals ++ r.ranges.flatten

theorem Results.names_extend_perm (r s : Results α) :
    (r.extend s).names.Perm (r.names ++ s.names) := by
  simp only [names, extend, List.flatten_append, List.append_assoc]
  exact List.Perm.append_left _ (List.perm_append_comm_assoc _ _ _)

@[simp] theorem Results.names_addRange (r : Results α) (range : List α) :
    (r.addRange range).names = r.names ++ range := by
  simp [names, addRange]

/-- Python's slice `l[i:j]` for indices `0 ≤ i, j`. -/
def slice (l : List α) (i j : Nat) : List α := (l.drop i).take (j - i)

theorem slice_append_slice (l : List α) {i j k : Nat} (hij : i ≤ j) (hjk : j ≤ k) :
    slice l i j ++ slice l j k = slice l i k := by
  have hk : k - i = (j - i) + (k - j) := by omega
  have hj : j = i + (j - i) := by omega
  rw [slice, slice, slice, hk, List.take_add, List.drop_drop, ← hj]

theorem slice_succ {l : List α} {i : Nat} {x : α} (h : l[i]? = some x) :
    slice l i (i + 1) = [x] := by
  simp [slice, List.take_one, List.head?_drop, h]

@[simp] theorem slice_zero_length (l : List α) : slice l 0 l.length = l := by
  simp [slice]

theorem slice_sublist (l : List α) (i j : Nat) : (slice l i j).Sublist l :=
  (List.take_sublist _ _).trans (List.drop_sublist _ _)

@[simp] theorem length_slice (l : List α) (i j : Nat) :
    (slice l i j).length = min (j - i) (l.length - i) := by
  simp [slice]

/-- `results['individuals'].sort()` and `results['ranges'].sort()`. -/
def Results.sortAll [LinearOrder α] (r : Results α) : Results α :=
  ⟨r.individuals.insertionSort (· ≤ ·), r.ranges.insertionSort (· ≤ ·)⟩

theorem Results.names_sortAll_perm [LinearOrder α] (r : Results α) :
    r.sortAll.names.Perm r.names :=
  (List.perm_insertionSort _ _).append (List.perm_insertionSort _ _).flatten

/-- `list.sort()`. -/
def pySort [LinearOrder α] (l : List α) : List α := l.insertionSort (· ≤ ·)

theorem pySort_perm [LinearOrder α] (l : List α) : (pySort l).Perm l :=
  List.perm_insertionSort _ l

theorem pySort_sorted [LinearOrder α] (l : List α) : (pySort l).Sorted (· ≤ ·) :=
  List.sorted_insertionSort _ l

end ToolchainUtils.AfdoProfAnalysis
