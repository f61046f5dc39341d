import ToolchainUtils.RustTools.RustVersion
import Mathlib.Data.List.Infix

/-!
`rust_tools/rust_uprev.py`: `update_rust_packages`, which edits `package.provided`. It adds
the line of a new version after the last line of the package, or removes the line of a
version. A text is a list of characters. `re.findall` of `^pkgatom-\d+\.\d+\.\d+$` under
`re.MULTILINE` gives the lines that are the pattern whole, `\d` being an ASCII digit here, and
`str.replace` replaces, from the left, each occurrence that does not overlap one replaced
before.
-/

set_option autoImplicit false

namespace ToolchainUtils.RustTools

section Replace

/-- `s.replace(old, new)` for `old = o :: os`. -/
def replaceNonempty (o : Char) (os new : List Char) : List Char → List Char
  | [] => []
  | c :: s =>
    if o :: os <+: c :: s then new ++ replaceNonempty o os new (s.drop os.length)
    else c :: replaceNonempty o os new s
termination_by s => s.length
decreasing_by all_goals simp only [List.length_drop, List.length_cons]; omega

/-- `s.replace(old, new)`; an empty `old` puts `new` before each character and at the end. -/
def pyReplace (old new s : List Char) : List Char :=
  match old with
  | [] => s.foldr (fun c r => new ++ c :: r) new
  | o :: os => replaceNonempty o os new s

variable {old new : List Char}

theorem pyReplace_of_not_infix (hold : old ≠ []) {s : List Char} (h : ¬ old <:+: s) :
    pyReplace old new s = s := by
  obtain ⟨o, os, rfl⟩ := List.exists_cons_of_ne_nil hold
  induction s with
  | nil => simp only [pyReplace, replaceNonempty]
  | cons c s ih =>
    simp only [pyReplace] at ih ⊢
    rw [replaceNonempty, if_neg fun hp => h hp.isInfix, ih fun hi => h (List.infix_cons hi)]

theorem pyReplace_first (hold : old ≠ []) {P : List Char} (h : ¬ old <:+: P ++ old.dropLast)
    (R : List Char) : pyReplace old new (P ++ old ++ R) = P ++ new ++ pyReplace old new R := by
  obtain ⟨o, os, rfl⟩ := List.exists_cons_of_ne_nil hold
  induction P with
  | nil =>
    simp only [pyReplace, List.nil_append, List.cons_append]
    rw [replaceNonempty, if_pos (show o :: os <+: o :: (os ++ R) from ⟨R, rfl⟩), List.drop_left]
  | cons c P ih =>
    simp only [pyReplace, List.cons_append, List.append_assoc] at ih ⊢
    have hdrop : c :: P ++ (o :: os).dropLast <+: c :: P ++ (o :: os ++ R) :=
      (List.prefix_append_right_inj (c :: P)).2
        ((List.dropLast_prefix _).trans (List.prefix_append _ _))
    have hnot : ¬ o :: os <+: c :: (P ++ o :: (os ++ R)) := fun hp => by
      exact h (List.prefix_of_prefix_length_le hp hdrop (by simp)).isInfix
    rw [replaceNonempty, if_neg hnot, ih fun hi => h (List.infix_cons hi)]

theorem infix_of_infix_append {l N : List Char} {a : Char} (hN : a ∉ N) :
    ∀ {X : List Char}, l ++ [a] <:+: X ++ N → l ++ [a] <:+: X := by
  induction N with
  | nil => exact fun h => by simpa using h
  | cons c N ih =>
    intro X h
    rcases List.infix_concat_iff.1 (ih (fun h => hN (List.mem_cons_of_mem c h))
      (X := X ++ [c]) (by simpa using h)) with hs | hi
    · rcases List.suffix_concat_iff.1 hs with he | ⟨t, ht, -⟩
      · simp at he
      · have : a = c := by simpa using congrArg List.getLast? ht
        exact absurd (this ▸ List.mem_cons_self c N) hN
    · exact hi

end Replace

section Update

def textLines (s : List Char) : List (List Char) := s.splitOn '\n'

/-- `\d+`: a non-empty run of ASCII digits. -/
def isDigits (s : List Char) : Bool := !s.isEmpty && s.all Char.isDigit

/-- A line that is `re.escape(pkgatom) + r"-\d+\.\d+\.\d+"` whole. -/
def isVersionLine (pkgatom line : List Char) : Bool :=
  (pkgatom ++ ['-']).isPrefixOf line &&
    match (line.drop (pkgatom.length + 1)).splitOn '.' with
    | [major, minor, patch] => isDigits major && isDigits minor && isDigits patch
    | _ => false

/-- `rust_packages_re.findall(contents)`: `^` and `$` under `re.MULTILINE` hold at the ends
of lines, and nothing in the pattern matches a newline. -/
def findRustPackages (pkgatom contents : List Char) : List (List Char) :=
  (textLines contents).filter (isVersionLine pkgatom)

/-- `update_rust_packages(pkgatom, rust_version, add)` on the content of `package.provided`:
the content it writes back, or what it raises. -/
def updateRustPackages (pkgatom : String) (rustVersion : RustVersion) (add : Bool)
    (contents : String) : Except String String :=
  if add then
    match (findRustPackages pkgatom.toList contents.toList).getLast? with
    | none => .error "IndexError: list index out of range"
    | some last =>
      let newStr := pkgatom ++ "-" ++ rustVersion.str
      .ok ⟨pyReplace last (last ++ '\n' :: newStr.toList) contents.toList⟩
  else
    let oldStr := pkgatom ++ "-" ++ rustVersion.str ++ "\n"
    if oldStr.toList <:+: contents.toList then .ok ⟨pyReplace oldStr.toList [] contents.toList⟩
    else .error ("AssertionError: '" ++ pkgatom ++ "-" ++ rustVersion.str ++
      "\\n' not found in package.provided")

theorem isVersionLine_prefix {pkgatom line : List Char} (h : isVersionLine pkgatom line = true) :
    pkgatom ++ ['-'] <+: line := by
  simp only [isVersionLine, Bool.and_eq_true] at h
  exact List.isPrefixOf_iff_prefix.1 h.1

theorem newline_not_mem_toString_int (i : Int) : '\n' ∉ (toString i).toList := by
  have hnat : ∀ n : Nat, '\n' ∉ (toString n).toList := fun n h => by
    simpa using (toString_digits n).2.1 _ h
  cases i with
  | ofNat n => exact hnat n
  | negSucc n =>
    show '\n' ∉ ("-" ++ toString (n + 1)).toList
    simpa [string_toList_append] using hnat (n + 1)

theorem newline_not_mem_str (v : RustVersion) : '\n' ∉ v.str.toList := by
  simp only [RustVersion.str, string_toList_append, List.mem_append, not_or]
  exact ⟨⟨⟨⟨newline_not_mem_toString_int _, by decide⟩, newline_not_mem_toString_int _⟩,
    by decide⟩, newline_not_mem_toString_int _⟩

theorem updateRustPackages_add {pkgatom : String} (rustVersion : RustVersion)
    {contents : String} {last P Q : List Char} (hpkg : '\n' ∉ pkgatom.toList)
    (hlast : (findRustPackages pkgatom.toList contents.toList).getLast? = some last)
    (hline : contents.toList = P ++ last ++ '\n' :: Q)
    (hbefore : ¬ last <:+: P ++ last.dropLast) (hafter : ¬ last <:+: Q) :
    updateRustPackages pkgatom rustVersion true contents =
      .ok ⟨P ++ last ++ '\n' :: ((pkgatom ++ "-" ++ rustVersion.str).toList ++ '\n' :: Q)⟩ := by
  have hver := (List.mem_filter.1 (List.mem_of_getLast?_eq_some hlast)).2
  obtain ⟨rest, hrest⟩ := isVersionLine_prefix hver
  have hne : last ≠ [] := by rw [← hrest]; simp
  -- the line of the package does not start with a newline
  have hnl : ¬ last <+: '\n' :: Q := fun ⟨t, ht⟩ => by
    rw [← hrest] at ht
    cases hp : pkgatom.toList with
    | nil => rw [hp] at ht; simp at ht
    | cons c cs =>
      rw [hp] at ht
      simp only [List.cons_append, List.cons.injEq] at ht
      exact hpkg (hp ▸ ht.1 ▸ List.mem_cons_self c cs)
  simp only [updateRustPackages, if_true, hlast]
  rw [hline, pyReplace_first hne hbefore, pyReplace_of_not_infix hne
    (fun hi => (List.infix_cons_iff.1 hi).elim hnl hafter)]
  simp

theorem updateRustPackages_remove_after_add (pkgatom : String) (rustVersion : RustVersion)
    (contents : String) (last P Q : List Char) (hpkg : '\n' ∉ pkgatom.toList)
    (hlast : (findRustPackages pkgatom.toList contents.toList).getLast? = some last)
    (hline : contents.toList = P ++ last ++ '\n' :: Q)
    (hbefore : ¬ last <:+: P ++ last.dropLast) (hafter : ¬ last <:+: Q)
    (hnew : ¬ (pkgatom ++ "-" ++ rustVersion.str ++ "\n").toList <:+: contents.toList) :
    (updateRustPackages pkgatom rustVersion true contents).bind
      (updateRustPackages pkgatom rustVersion false) = .ok contents := by
  rw [updateRustPackages_add rustVersion hpkg hlast hline hbefore hafter]
  set N := (pkgatom ++ "-" ++ rustVersion.str).toList
  have hold : (pkgatom ++ "-" ++ rustVersion.str ++ "\n").toList = N ++ ['\n'] := rfl
  have hN : '\n' ∉ N := by
    simp only [N, string_toList_append, List.mem_append, not_or]
    exact ⟨⟨hpkg, by decide⟩, newline_not_mem_str rustVersion⟩
  rw [hline, hold] at hnew
  have hwritten : P ++ last ++ '\n' :: (N ++ '\n' :: Q) = (P ++ last ++ ['\n']) ++ (N ++ ['\n']) ++ Q := by
    simp
  -- the new line is the only occurrence of its text, and removing it leaves the file
  have hfirst : ¬ N ++ ['\n'] <:+: (P ++ last ++ ['\n']) ++ (N ++ ['\n']).dropLast := fun hi => by
    rw [List.dropLast_concat] at hi
    exact hnew ((infix_of_infix_append hN hi).trans ⟨[], Q, by simp⟩)
  have hrest : ¬ N ++ ['\n'] <:+: Q := fun hi => hnew (hi.trans ⟨P ++ last ++ ['\n'], [], by simp⟩)
  have hwrittenStr : (⟨P ++ last ++ '\n' :: (N ++ '\n' :: Q)⟩ : String).toList =
      (P ++ last ++ ['\n']) ++ (N ++ ['\n']) ++ Q := hwritten
  show Except.bind (.ok _) _ = _
  simp only [Except.bind, updateRustPackages, Bool.false_eq_true, if_false, hold]
  rw [hwrittenStr, if_pos ⟨P ++ last ++ ['\n'], Q, rfl⟩, pyReplace_first (by simp) hfirst,
    pyReplace_of_not_infix (by simp) hrest]
  exact congrArg Except.ok (String.ext (by rw [show contents.data = contents.toList from rfl, hline]; simp))

theorem updateRustPackages_remove_after_add_at_end (pkgatom : String) (rustVersion : RustVersion)
    (contents : String) (last P : List Char) (hpkg : '\n' ∉ pkgatom.toList)
    (hlast : (findRustPackages pkgatom.toList contents.toList).getLast? = some last)
    (hline : contents.toList = P ++ last) (hbefore : ¬ last <:+: P ++ last.dropLast)
    (hnew : ¬ (pkgatom ++ "-" ++ rustVersion.str ++ "\n").toList <:+: contents.toList ++ ['\n']) :
    (updateRustPackages pkgatom rustVersion true contents).bind
      (updateRustPackages pkgatom rustVersion false) =
      .error ("AssertionError: '" ++ pkgatom ++ "-" ++ rustVersion.str ++
        "\\n' not found in package.provided") := by
  have hver := (List.mem_filter.1 (List.mem_of_getLast?_eq_some hlast)).2
  obtain ⟨rest, hrest⟩ := isVersionLine_prefix hver
  have hne : last ≠ [] := by rw [← hrest]; simp
  set N := (pkgatom ++ "-" ++ rustVersion.str).toList
  have hold : (pkgatom ++ "-" ++ rustVersion.str ++ "\n").toList = N ++ ['\n'] := rfl
  have hN : '\n' ∉ N := by
    simp only [N, string_toList_append, List.mem_append, not_or]
    exact ⟨⟨hpkg, by decide⟩, newline_not_mem_str rustVersion⟩
  have hadd : updateRustPackages pkgatom rustVersion true contents =
      .ok ⟨P ++ last ++ '\n' :: N⟩ := by
    simp only [updateRustPackages, if_true, hlast]
    rw [hline, ← List.append_nil (P ++ last), pyReplace_first hne hbefore,
      pyReplace_of_not_infix hne fun h => hne (List.infix_nil.1 h)]
    simp [N]
  -- the written file has no line for the new version: it ends without a newline
  have habsent : ¬ N ++ ['\n'] <:+: P ++ last ++ '\n' :: N := fun hi => by
    rw [hold, hline] at hnew
    exact hnew (infix_of_infix_append hN (by simpa using hi))
  rw [hadd]
  show updateRustPackages pkgatom rustVersion false ⟨P ++ last ++ '\n' :: N⟩ = _
  simp only [updateRustPackages, Bool.false_eq_true, if_false, hold]
  exact if_neg habsent

theorem provided_without_final_newline_remove_fails :
    (updateRustPackages "dev-lang/rust" ⟨1, 60, 0⟩ true "dev-lang/rust-1.59.0").bind
      (updateRustPackages "dev-lang/rust" ⟨1, 60, 0⟩ false) =
      .error ("AssertionError: '" ++ "dev-lang/rust" ++ "-" ++ RustVersion.str ⟨1, 60, 0⟩ ++
        "\\n' not found in package.provided") :=
  updateRustPackages_remove_after_add_at_end "dev-lang/rust" ⟨1, 60, 0⟩ "dev-lang/rust-1.59.0"
    "dev-lang/rust-1.59.0".toList [] (by decide) (by decide) (by decide) (by decide) (by decide)

theorem provided_remove_after_add :
    (updateRustPackages "dev-lang/rust" ⟨1, 60, 0⟩ true
        "dev-lang/rust-1.58.1\ndev-lang/rust-1.59.0\n").bind
      (updateRustPackages "dev-lang/rust" ⟨1, 60, 0⟩ false) =
      .ok "dev-lang/rust-1.58.1\ndev-lang/rust-1.59.0\n" :=
  updateRustPackages_remove_after_add "dev-lang/rust" ⟨1, 60, 0⟩
    "dev-lang/rust-1.58.1\ndev-lang/rust-1.59.0\n" "dev-lang/rust-1.59.0".toList
    "dev-lang/rust-1.58.1\n".toList [] (by decide) (by decide) (by decide) (by decide)
    (by decide) (by decide)

end Update

section BootstrapVersion

/-- The line `BOOTSTRAP_VERSION="version"` that `update_bootstrap_version` writes. -/
def bootstrapVersionLine (newBootstrapVersion : RustVersion) : List Char :=
  ("BOOTSTRAP_VERSION=\"" ++ newBootstrapVersion.str ++ "\"").toList

/-- A line `^BOOTSTRAP_VERSION=.*$` matches: `.*` runs to the end of the line. -/
def isBootstrapVersionLine (line : List Char) : Bool :=
  "BOOTSTRAP_VERSION=".toList.isPrefixOf line

/-- `update_bootstrap_version(path, new_bootstrap_version)` on the content of the file at
`path`: `re.subn` replaces every matching line, and no match raises `RuntimeError`. -/
def updateBootstrapVersion (path : String) (newBootstrapVersion : RustVersion)
    (contents : List Char) : Except String (List Char) :=
  if (textLines contents).any isBootstrapVersionLine then
    .ok (['\n'].intercalate ((textLines contents).map fun line =>
      if isBootstrapVersionLine line then bootstrapVersionLine newBootstrapVersion else line))
  else .error ("RuntimeError: BOOTSTRAP_VERSION not found in " ++ path)

end BootstrapVersion

end ToolchainUtils.RustTools
