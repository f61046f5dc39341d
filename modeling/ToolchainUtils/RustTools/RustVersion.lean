import Mathlib.Data.List.Basic
import Mathlib.Data.Nat.Digits

/-!
`rust_tools/rust_uprev.py`: `RustVersion`, its `__str__`, and `parse_from_ebuild` and
`parse`, which read a version back with a regular expression. A pattern is written in a
small syntax of the parts the two patterns use, and its matches at the start of a string are
listed in the order Python's backtracking tries them, so that `re.match` is the first of
them and `^` needs no part of its own. Here `\d` is an ASCII digit (Python's also takes the
other Unicode digits), and the unnamed group of `(:?-r\d+)?` captures nothing, since nothing
reads it.
-/

set_option autoImplicit false

namespace ToolchainUtils.RustTools

/-- `RustVersion(major, minor, patch)`. -/
structure RustVersion where
  major : Int
  minor : Int
  patch : Int
  deriving DecidableEq, Repr

/-- `RustVersion.__str__`. -/
def RustVersion.str (v : RustVersion) : String :=
  toString v.major ++ "." ++ toString v.minor ++ "." ++ toString v.patch

section Pattern

/-- The parts of a regular expression that the two patterns are made of. -/
inductive Pat where
  /-- The empty pattern. -/
  | empty
  /-- A character standing for itself, as `\.` does for the dot. -/
  | lit (c : Char)
  /-- The dot: any character but a newline. -/
  | any
  /-- A greedy `\d+`. -/
  | digits
  /-- A greedy `(?:p)?`. -/
  | opt (p : Pat)
  /-- The pattern `p` followed by `q`. -/
  | seq (p q : Pat)
  /-- A named group `(?P<name>p)`. -/
  | group (name : String) (p : Pat)
  /-- The anchor `$`: the end of the string, or a newline that ends it. -/
  | eol
  deriving DecidableEq, Repr

/-- The patterns `ps` one after another. -/
def Pat.seqs : List Pat → Pat
  | [] => .empty
  | p :: ps => .seq p (Pat.seqs ps)

/-- The text `t` itself. -/
def Pat.text (t : String) : Pat := .seqs (t.toList.map .lit)

/-- The rests of `s` after each run of one or more digits at its start, longest first: the
order in which `\d+` backtracks. -/
def digitRests (s : List Char) : List (List Char) :=
  (List.range (s.takeWhile Char.isDigit).length).reverse.map fun i => s.drop (i + 1)

/-- The matches of a pattern at the start of `s`, in the order Python's backtracking tries
them: the rest of the input after each, with the groups captured so far, the last first. -/
def Pat.matches : Pat → List Char → List (String × List Char) →
    List (List Char × List (String × List Char))
  | .empty, s, g => [(s, g)]
  | .lit c, s, g =>
    match s with
    | d :: s => if d = c then [(s, g)] else []
    | [] => []
  | .any, s, g =>
    match s with
    | d :: s => if d = '\n' then [] else [(s, g)]
    | [] => []
  | .digits, s, g => (digitRests s).map fun s => (s, g)
  | .opt p, s, g => p.matches s g ++ [(s, g)]
  | .seq p q, s, g => (p.matches s g).flatMap fun m => q.matches m.1 m.2
  | .group name p, s, g =>
    (p.matches s g).map fun m => (m.1, (name, s.take (s.length - m.1.length)) :: m.2)
  | .eol, s, g => if s = [] ∨ s = ['\n'] then [(s, g)] else []

/-- `re.compile(p).match(x)`: the groups of the first match at the start of `x`. -/
def reMatch (p : Pat) (x : String) : Option (List (String × List Char)) :=
  (p.matches x.toList []).head?.map Prod.snd

/-- `int(s)`, for a string of ASCII digits. -/
def pyInt (s : List Char) : Int :=
  (s.foldl (fun n c => 10 * n + (c.toNat - '0'.toNat)) 0 : Nat)

/-- `int(m.group(name))`. -/
def groupInt (g : List (String × List Char)) (name : String) : Int :=
  pyInt ((g.lookup name).getD [])

/-- The body `parse_from_ebuild` and `parse` share: match `inputRe` at the start of `x`,
`assert m`, and read the version from the groups. -/
def parseWith (inputRe : Pat) (x : String) : Except String RustVersion :=
  match reMatch inputRe x with
  | none => .error ("AssertionError: failed to parse '" ++ x ++ "'")
  | some g => .ok ⟨groupInt g "major", groupInt g "minor", groupInt g "patch"⟩

/-- The groups `(?P<major>\d+)\.(?P<minor>\d+)\.(?P<patch>\d+)` both patterns have. -/
def versionGroups : List Pat :=
  [.group "major" .digits, .lit '.', .group "minor" .digits, .lit '.', .group "patch" .digits]

/-- The `input_re` of `parse_from_ebuild`,
`^rust-(?P<major>\d+)\.(?P<minor>\d+)\.(?P<patch>\d+)(:?-r\d+)?\.ebuild$`. -/
def ebuildNameRe : Pat :=
  .seqs ([.text "rust-"] ++ versionGroups ++
    [.opt (.seqs [.opt (.lit ':'), .text "-r", .digits]), .text ".ebuild", .eol])

/-- The `input_re` of `parse`,
`^(?:rust-)?(?P<major>\d+)\.(?P<minor>\d+)\.(?P<patch>\d+)(?:.ebuild)?$`. -/
def versionRe : Pat :=
  .seqs ([.opt (.text "rust-")] ++ versionGroups ++ [.opt (.seq .any (.text "ebuild")), .eol])

/-- `RustVersion.parse_from_ebuild(ebuild_name)`. -/
def RustVersion.parseFromEbuild (ebuildName : String) : Except String RustVersion :=
  parseWith ebuildNameRe ebuildName

/-- `RustVersion.parse(x)`. -/
def RustVersion.parse (x : String) : Except String RustVersion :=
  parseWith versionRe x

end Pattern

section FirstMatch

/-- `m` is the first match of `p` at the start of `s`. -/
def Pat.First (p : Pat) (s : List Char) (g : List (String × List Char))
    (m : List Char × List (String × List Char)) : Prop :=
  (p.matches s g).head? = some m

instance (p : Pat) (s : List Char) (g : List (String × List Char))
    (m : List Char × List (String × List Char)) : Decidable (p.First s g m) :=
  inferInstanceAs (Decidable (_ = _))

variable {p q : Pat} {s : List Char} {g : List (String × List Char)}
  {m m' : List Char × List (String × List Char)}

theorem head?_flatMap_of {α β : Type} {l : List α} {f : α → List β} {a : α} {b : β}
    (hl : l.head? = some a) (hf : (f a).head? = some b) : (l.flatMap f).head? = some b := by
  obtain ⟨l, rfl⟩ := List.head?_eq_some_iff.1 hl
  obtain ⟨fs, hfa⟩ := List.head?_eq_some_iff.1 hf
  simp [hfa]

theorem Pat.First.seq (hp : p.First s g m) (hq : q.First m.1 m.2 m') :
    (p.seq q).First s g m' :=
  head?_flatMap_of hp hq

theorem Pat.matches_seqs_append (l₁ l₂ : List Pat) (s : List Char)
    (g : List (String × List Char)) :
    (Pat.seqs (l₁ ++ l₂)).matches s g =
      ((Pat.seqs l₁).matches s g).flatMap fun m => (Pat.seqs l₂).matches m.1 m.2 := by
  induction l₁ generalizing s g with
  | nil => simp [Pat.seqs, Pat.matches]
  | cons p ps ih => simp [Pat.seqs, Pat.matches, ih, List.flatMap_assoc]

theorem Pat.First.seqs_append {l₁ l₂ : List Pat} (h₁ : (Pat.seqs l₁).First s g m)
    (h₂ : (Pat.seqs l₂).First m.1 m.2 m') : (Pat.seqs (l₁ ++ l₂)).First s g m' := by
  unfold Pat.First
  rw [Pat.matches_seqs_append]
  exact head?_flatMap_of h₁ h₂

theorem Pat.first_seqs_nil : (Pat.seqs []).First s g (s, g) := rfl

theorem Pat.First.seqs_single (h : p.First s g m) : (Pat.seqs [p]).First s g m :=
  h.seq Pat.first_seqs_nil

theorem Pat.first_lit (c : Char) : (Pat.lit c).First (c :: s) g (s, g) := by
  simp [Pat.First, Pat.matches]

theorem Pat.first_any {c : Char} (hc : c ≠ '\n') : Pat.any.First (c :: s) g (s, g) := by
  simp [Pat.First, Pat.matches, hc]

theorem Pat.first_text (t : String) (s : List Char) (g : List (String × List Char)) :
    (Pat.text t).First (t.toList ++ s) g (s, g) := by
  unfold Pat.text
  induction t.toList with
  | nil => rfl
  | cons c cs ih => exact (Pat.first_lit c).seq ih

theorem Pat.First.opt (h : p.First s g m) : p.opt.First s g m := by
  obtain ⟨l, hl⟩ := List.head?_eq_some_iff.1 h
  simp [Pat.First, Pat.matches, hl]

theorem Pat.first_opt_of_nil (h : p.matches s g = []) : p.opt.First s g (s, g) := by
  simp [Pat.First, Pat.matches, h]

theorem Pat.First.group_append {D r : List Char} {g' : List (String × List Char)}
    (name : String) (h : p.First (D ++ r) g (r, g')) :
    (Pat.group name p).First (D ++ r) g (r, (name, D) :: g') := by
  simp only [Pat.First, Pat.matches, List.head?_map] at h ⊢
  simp [h]

theorem Pat.first_digits {D r : List Char} (hD : D ≠ []) (hdig : ∀ c ∈ D, c.isDigit)
    (hr : r.head?.all (fun c => !c.isDigit) = true) (g : List (String × List Char)) :
    Pat.digits.First (D ++ r) g (r, g) := by
  have htake : (D ++ r).takeWhile Char.isDigit = D := by
    rw [List.takeWhile_append_of_pos hdig]
    cases r with
    | nil => simp
    | cons c r => simpa [List.takeWhile_cons] using hr
  obtain ⟨n, hn⟩ : ∃ n, D.length = n + 1 := ⟨D.length - 1, by
    have := List.length_pos.2 hD; omega⟩
  simp [Pat.First, Pat.matches, digitRests, htake, hn, List.range_succ, List.drop_left' hn]

theorem Pat.matches_groups (p : Pat) (s : List Char) (g : List (String × List Char)) :
    p.matches s g = (p.matches s []).map fun m => (m.1, m.2 ++ g) := by
  induction p generalizing s g with
  | empty => rfl
  | lit c => cases s <;> simp only [Pat.matches] <;> (try split) <;> rfl
  | any => cases s <;> simp only [Pat.matches] <;> (try split) <;> rfl
  | digits => simp [Pat.matches]
  | opt p ih => simp [Pat.matches, ih s g]
  | seq p q ihp ihq =>
    simp only [Pat.matches]
    rw [ihp, List.flatMap_map, List.map_flatMap]
    congr 1; funext m; rw [ihq m.1 m.2, ihq m.1 (m.2 ++ g)]; simp
  | group name p ih => simp [Pat.matches, ih s g]
  | eol => simp only [Pat.matches]; split <;> rfl

theorem Pat.First.append_groups {r : List Char} {caps : List (String × List Char)}
    (h : p.First s [] (r, caps)) (g : List (String × List Char)) : p.First s g (r, caps ++ g) := by
  simp only [Pat.First] at h ⊢
  rw [Pat.matches_groups, List.head?_map, h]; rfl

theorem Pat.matches_seq_of_nil (h : p.matches s g = []) : (p.seq q).matches s g = [] := by
  simp [Pat.matches, h]

theorem Pat.matches_lit_of_ne {c d : Char} (h : d ≠ c) : (Pat.lit c).matches (d :: s) g = [] := by
  simp [Pat.matches, h]

end FirstMatch

section Decimal

theorem digitChar_spec :
    ∀ k < 10, (Nat.digitChar k).isDigit = true ∧ (Nat.digitChar k).toNat - '0'.toNat = k := by
  decide

theorem toDigitsCore_digits : ∀ (fuel n : Nat) (ds : List Char), n < fuel →
    ∃ D, Nat.toDigitsCore 10 fuel n ds = D ++ ds ∧ D ≠ [] ∧ (∀ c ∈ D, c.isDigit) ∧
      D.foldl (fun n c => 10 * n + (c.toNat - '0'.toNat)) 0 = n
  | 0, n, _, h => absurd h (Nat.not_lt_zero n)
  | fuel + 1, n, ds, h => by
    obtain ⟨hd, hv⟩ := digitChar_spec (n % 10) (Nat.mod_lt _ (by decide))
    simp only [Nat.toDigitsCore]
    split
    · refine ⟨[Nat.digitChar (n % 10)], rfl, by simp, by simpa using hd, ?_⟩
      simp only [List.foldl, hv]; omega
    · obtain ⟨D, hD, hne, hdig, hval⟩ :=
        toDigitsCore_digits fuel (n / 10) (Nat.digitChar (n % 10) :: ds) (by omega)
      refine ⟨D ++ [Nat.digitChar (n % 10)], by rw [hD]; simp, by simp, ?_, ?_⟩
      · simpa [or_imp, forall_and, hd] using hdig
      · rw [List.foldl_append, hval]; simp only [List.foldl, hv]; omega

theorem toString_digits (n : Nat) :
    (toString n).toList ≠ [] ∧ (∀ c ∈ (toString n).toList, c.isDigit) ∧
      pyInt (toString n).toList = n := by
  obtain ⟨D, hD, hne, hdig, hval⟩ := toDigitsCore_digits (n + 1) n [] (Nat.lt_succ_self n)
  have h : (toString n).toList = D := by simpa using hD
  rw [h, pyInt, hval]
  exact ⟨hne, hdig, rfl⟩

end Decimal

section Roundtrip

theorem string_toList_append (x y : String) : (x ++ y).toList = x.toList ++ y.toList := rfl

/-- The groups both patterns capture from the printed version `a.b.c`, the last first. -/
def versionCaptures (a b c : Nat) : List (String × List Char) :=
  [("patch", (toString c).toList), ("minor", (toString b).toList), ("major", (toString a).toList)]

theorem RustVersion.str_toList (a b c : Nat) :
    (RustVersion.str ⟨a, b, c⟩).toList =
      (toString a).toList ++ '.' :: ((toString b).toList ++ '.' :: (toString c).toList) := by
  simp [RustVersion.str, String.toList]; rfl

theorem Pat.first_versionGroups (a b c : Nat) {r : List Char}
    (hr : r.head?.all (fun c => !c.isDigit) = true) :
    (Pat.seqs versionGroups).First ((RustVersion.str ⟨a, b, c⟩).toList ++ r) []
      (r, versionCaptures a b c) := by
  obtain ⟨hA, hAd, -⟩ := toString_digits a
  obtain ⟨hB, hBd, -⟩ := toString_digits b
  obtain ⟨hC, hCd, -⟩ := toString_digits c
  rw [RustVersion.str_toList]
  simp only [List.append_assoc, List.cons_append]
  exact (Pat.First.group_append "major" (Pat.first_digits (r := '.' :: _) hA hAd rfl _)).seq <|
    (Pat.first_lit '.').seq <|
    (Pat.First.group_append "minor" (Pat.first_digits (r := '.' :: _) hB hBd rfl _)).seq <|
    (Pat.first_lit '.').seq <|
    (Pat.First.group_append "patch" (Pat.first_digits hC hCd hr _)).seq Pat.first_seqs_nil

theorem parseWith_of_first {p : Pat} {x : String} {a b c : Nat}
    (h : p.First x.toList [] ([], versionCaptures a b c)) : parseWith p x = .ok ⟨a, b, c⟩ := by
  have hm : reMatch p x = some (versionCaptures a b c) := by
    simp only [reMatch]; rw [h]; rfl
  simp only [parseWith, hm]
  show Except.ok (⟨pyInt (toString a).toList, pyInt (toString b).toList,
    pyInt (toString c).toList⟩ : RustVersion) = _
  rw [(toString_digits a).2.2, (toString_digits b).2.2, (toString_digits c).2.2]

theorem Pat.matches_text_rust_str (a b c : Nat) (r : List Char) :
    (Pat.text "rust-").matches ((RustVersion.str ⟨a, b, c⟩).toList ++ r) [] = [] := by
  obtain ⟨hA, hAd, -⟩ := toString_digits a
  obtain ⟨d, A, hdA⟩ := List.exists_cons_of_ne_nil hA
  have hd : d ≠ 'r' := fun h => by
    have := hAd d (hdA ▸ List.mem_cons_self d A); subst h; exact absurd this (by decide)
  rw [RustVersion.str_toList, hdA]
  exact Pat.matches_seq_of_nil (Pat.matches_lit_of_ne hd)

theorem ebuildNameRe_revision_tail (n : Nat) :
    (Pat.seqs [.opt (.seqs [.opt (.lit ':'), .text "-r", .digits]), .text ".ebuild", .eol]).First
      ("-r".toList ++ ((toString n).toList ++ ".ebuild".toList)) [] ([], []) := by
  obtain ⟨hN, hNd, -⟩ := toString_digits n
  have hrev : (Pat.opt (.seqs [.opt (.lit ':'), .text "-r", .digits])).First
      ("-r".toList ++ ((toString n).toList ++ ".ebuild".toList)) [] (".ebuild".toList, []) :=
    ((Pat.first_opt_of_nil (Pat.matches_lit_of_ne (c := ':') (s := 'r' :: _) (by decide))).seq
      ((Pat.first_text "-r" _ _).seq
        ((Pat.first_digits (r := ".ebuild".toList) hN hNd rfl _).seqs_single))).opt
  have hend : (Pat.seqs [.text ".ebuild", .eol]).First ".ebuild".toList [] ([], []) := by decide
  exact hrev.seq hend

theorem parseWith_version {hd tl : List Pat} {x : String} (a b c : Nat) (pre post : List Char)
    (hx : x.toList = pre ++ ((RustVersion.str ⟨a, b, c⟩).toList ++ post))
    (hhd : (Pat.seqs hd).First (pre ++ ((RustVersion.str ⟨a, b, c⟩).toList ++ post)) []
      ((RustVersion.str ⟨a, b, c⟩).toList ++ post, []))
    (hpost : post.head?.all (fun c => !c.isDigit) = true)
    (htl : (Pat.seqs tl).First post [] ([], [])) :
    parseWith (.seqs (hd ++ versionGroups ++ tl)) x = .ok ⟨a, b, c⟩ :=
  parseWith_of_first <| hx ▸
    (hhd.seqs_append (Pat.first_versionGroups a b c hpost)).seqs_append (htl.append_groups _)

theorem rustVersion_parse_str (a b c n : Nat) :
    RustVersion.parse (RustVersion.str ⟨a, b, c⟩) = .ok ⟨a, b, c⟩ ∧
      RustVersion.parse ("rust-" ++ RustVersion.str ⟨a, b, c⟩ ++ ".ebuild") = .ok ⟨a, b, c⟩ ∧
      RustVersion.parseFromEbuild ("rust-" ++ RustVersion.str ⟨a, b, c⟩ ++ ".ebuild") =
        .ok ⟨a, b, c⟩ ∧
      RustVersion.parseFromEbuild
        ("rust-" ++ RustVersion.str ⟨a, b, c⟩ ++ "-r" ++ toString n ++ ".ebuild") =
        .ok ⟨a, b, c⟩ := by
  have hrust (t : List Char) := Pat.first_text "rust-" t []
  refine ⟨parseWith_version a b c [] [] (by simp)
      (Pat.first_opt_of_nil (Pat.matches_text_rust_str a b c [])).seqs_single rfl (by decide),
    parseWith_version a b c _ ".ebuild".toList (by simp [string_toList_append])
      (hrust _).opt.seqs_single rfl (by decide),
    parseWith_version a b c _ ".ebuild".toList (by simp [string_toList_append])
      (hrust _).seqs_single rfl (by decide),
    parseWith_version a b c _ ("-r".toList ++ ((toString n).toList ++ ".ebuild".toList))
      (by simp [string_toList_append]) (hrust _).seqs_single rfl (ebuildNameRe_revision_tail n)⟩

end Roundtrip

end ToolchainUtils.RustTools
