import ToolchainUtils.RustTools.Chroot

/-!
`rust_tools/rust_uprev.py`: `update_bootstrap_ebuild`, which writes the ebuild of the new
`rust-bootstrap` from the old one, with the old version appended to its
`RUSTC_RAW_FULL_BOOTSTRAP_SEQUENCE`. `re.subn` of `(KEY\([^)]*)` replaces, from the left, each
occurrence of the key together with the text after it up to the next `)`, and counts them.
-/

set_option autoImplicit false

namespace ToolchainUtils.RustTools

section Sequence

/-- `RUSTC_RAW_FULL_BOOTSTRAP_SEQUENCE=(`. -/
def sequenceKey : List Char := "RUSTC_RAW_FULL_BOOTSTRAP_SEQUENCE=(".toList

/-- `re.subn(r"(RUSTC_RAW_FULL_BOOTSTRAP_SEQUENCE=\([^)]*)", "\\1" + ins, text)`: the text with
`ins` put after each match, and the number of matches. -/
def subnSequence (ins : List Char) : List Char → List Char × Nat
  | [] => ([], 0)
  | c :: s =>
    if sequenceKey <+: c :: s then
      let rest := (c :: s).drop sequenceKey.length
      let r := subnSequence ins (rest.dropWhile (· ≠ ')'))
      (sequenceKey ++ rest.takeWhile (· ≠ ')') ++ ins ++ r.1, r.2 + 1)
    else
      let r := subnSequence ins s
      (c :: r.1, r.2)
termination_by s => s.length
decreasing_by
  all_goals simp_wf
  · exact lt_of_le_of_lt (List.dropWhile_sublist _).length_le (by simp [sequenceKey]; omega)

variable (ins : List Char)

theorem subnSequence_of_not_infix {s : List Char} (h : ¬ sequenceKey <:+: s) :
    subnSequence ins s = (s, 0) := by
  induction s with
  | nil => rw [subnSequence]
  | cons c s ih =>
    rw [subnSequence, if_neg fun hp => h hp.isInfix, ih fun hi => h (List.infix_cons hi)]

theorem subnSequence_paren (C : List Char) :
    subnSequence ins (')' :: C) = (')' :: (subnSequence ins C).1, (subnSequence ins C).2) := by
  rw [subnSequence, if_neg (by simp [sequenceKey])]

theorem subnSequence_key {B C : List Char} (hB : ')' ∉ B) :
    subnSequence ins (sequenceKey ++ B ++ ')' :: C) =
      (sequenceKey ++ B ++ ins ++ ')' :: (subnSequence ins C).1, (subnSequence ins C).2 + 1) := by
  have hcons : sequenceKey ++ B ++ ')' :: C = 'R' :: ((sequenceKey.drop 1) ++ B ++ ')' :: C) :=
    rfl
  have hrest : (sequenceKey ++ B ++ ')' :: C).drop sequenceKey.length = B ++ ')' :: C := by
    simp
  have hnot : ∀ x ∈ B, decide (x ≠ ')') = true := fun x hx =>
    decide_eq_true fun h => hB (h ▸ hx)
  rw [hcons, subnSequence, if_pos (by rw [← hcons]; exact List.prefix_append _ _), ← hcons,
    hrest]
  dsimp only
  rw [List.takeWhile_append_of_pos hnot, List.dropWhile_append_of_pos hnot]
  simp only [List.takeWhile_cons, List.dropWhile_cons, ne_eq, not_true_eq_false, decide_False,
    Bool.false_eq_true, ite_false, List.append_nil, subnSequence_paren]

theorem subnSequence_skip {A R : List Char} (hA : ¬ sequenceKey <:+: A ++ sequenceKey.dropLast) :
    subnSequence ins (A ++ (sequenceKey ++ R)) =
      (A ++ (subnSequence ins (sequenceKey ++ R)).1, (subnSequence ins (sequenceKey ++ R)).2) := by
  induction A with
  | nil => rfl
  | cons c A ih =>
    -- a key starting inside `c :: A` would lie in `c :: A ++ sequenceKey.dropLast`
    have hdrop : c :: A ++ sequenceKey.dropLast <+: c :: A ++ (sequenceKey ++ R) :=
      (List.prefix_append_right_inj (c :: A)).2
        ((List.dropLast_prefix _).trans (List.prefix_append _ _))
    have hnot : ¬ sequenceKey <+: c :: (A ++ (sequenceKey ++ R)) := fun hp =>
      hA (List.prefix_of_prefix_length_le hp hdrop (by simp [sequenceKey])).isInfix
    rw [List.cons_append, subnSequence, if_neg hnot, ih fun hi => hA (List.infix_cons hi)]
    rfl

theorem subnSequence_once {A B C : List Char} (hA : ¬ sequenceKey <:+: A ++ sequenceKey.dropLast)
    (hB : ')' ∉ B) (hC : ¬ sequenceKey <:+: C) :
    subnSequence ins (A ++ sequenceKey ++ B ++ ')' :: C) =
      (A ++ sequenceKey ++ B ++ ins ++ ')' :: C, 1) := by
  rw [List.append_assoc, List.append_assoc, subnSequence_skip ins hA, ← List.append_assoc,
    subnSequence_key ins hB, subnSequence_of_not_infix ins hC]
  simp

end Sequence

section Update

/-- `update_bootstrap_ebuild(new_bootstrap_version)`, `bootstrapDir` being
`rust_bootstrap_path()` and `readText name` the text of its file `name`: the name of the ebuild
it writes and the text written there. The old version is made of the strings the groups
matched, and prints as they were written. -/
def updateBootstrapEbuild (bootstrapDir : Directory) (readText : String → List Char)
    (newBootstrapVersion : RustVersion) : Except String (String × List Char) := do
  let oldEbuild ← findEbuildPath bootstrapDir "rust-bootstrap" none
  match reMatch bootstrapEbuildRe oldEbuild with
  | none => throw ("AssertionError: " ++ oldEbuild)
  | some g =>
    let group (name : String) : List Char := (g.lookup name).getD []
    let oldVersion := group "1" ++ '.' :: (group "2" ++ '.' :: group "3")
    let newText := subnSequence ('\t' :: oldVersion ++ ['\n']) (readText oldEbuild)
    if newText.2 = 1 then
      return ("rust-bootstrap-" ++ newBootstrapVersion.str ++ ".ebuild", newText.1)
    else throw "AssertionError: Failed to update RUSTC_RAW_FULL_BOOTSTRAP_SEQUENCE"

variable (bootstrapDir : Directory) (readText : String → List Char)
  (newBootstrapVersion : RustVersion) (a b c : Nat) (e : DirEntry)

theorem updateBootstrapEbuild_appends_old
    (he : e ∈ globEbuilds bootstrapDir (ebuildGlob "rust-bootstrap" none))
    (hname : e.name = "rust-bootstrap-" ++ RustVersion.str ⟨a, b, c⟩ ++ ".ebuild")
    (hfile : e.link = none)
    (hlinks : ∀ e' ∈ globEbuilds bootstrapDir (ebuildGlob "rust-bootstrap" none), e' ≠ e →
      ∃ m ∈ globEbuilds bootstrapDir (ebuildGlob "rust-bootstrap" none), e'.link = some m.name)
    (A B C : List Char) (htext : readText e.name = A ++ sequenceKey ++ B ++ ')' :: C)
    (hA : ¬ sequenceKey <:+: A ++ sequenceKey.dropLast) (hB : ')' ∉ B)
    (hC : ¬ sequenceKey <:+: C) :
    updateBootstrapEbuild bootstrapDir readText newBootstrapVersion =
      .ok ("rust-bootstrap-" ++ newBootstrapVersion.str ++ ".ebuild",
        A ++ sequenceKey ++ B ++ ('\t' :: (RustVersion.str ⟨a, b, c⟩).toList ++ ['\n']) ++
          ')' :: C) := by
  have hm := hname ▸ reMatch_bootstrapEbuildRe a b c
  simp only [updateBootstrapEbuild,
    findEbuildPath_of_links bootstrapDir "rust-bootstrap" none e he hfile hlinks, bind,
    Except.bind, hm, htext, subnSequence_once _ hA hB hC, if_true]
  rw [RustVersion.str_toList]
  rfl

/-- The bootstrap directory holding the ebuild of 1.58.0, and its text, whose sequence ends
with 1.57.0. -/
def bootstrapDir158 : Directory := ⟨[⟨"rust-bootstrap-1.58.0.ebuild", none⟩], by decide⟩

def bootstrap158Text (_ : String) : List Char :=
  "RUSTC_RAW_FULL_BOOTSTRAP_SEQUENCE=(\n\t1.57.0\n)\n".toList

example :
    updateBootstrapEbuild bootstrapDir158 bootstrap158Text ⟨1, 59, 0⟩ =
      .ok ("rust-bootstrap-1.59.0.ebuild",
        "RUSTC_RAW_FULL_BOOTSTRAP_SEQUENCE=(\n\t1.57.0\n\t1.58.0\n)\n".toList) := by
  rw [updateBootstrapEbuild_appends_old bootstrapDir158 bootstrap158Text ⟨1, 59, 0⟩ 1 58 0
    ⟨"rust-bootstrap-1.58.0.ebuild", none⟩ (by decide) (by decide) rfl (by decide) []
    "\n\t1.57.0\n".toList "\n".toList (by decide) (by decide) (by decide) (by decide)]
  rfl

theorem bootstrapName_inj {a b c a' b' c' : Nat}
    (h : "rust-bootstrap-" ++ RustVersion.str ⟨a', b', c'⟩ ++ ".ebuild" =
      "rust-bootstrap-" ++ RustVersion.str ⟨a, b, c⟩ ++ ".ebuild") :
    (⟨a', b', c'⟩ : RustVersion) = ⟨a, b, c⟩ :=
  RustVersion.str_inj (List.append_cancel_right (List.append_cancel_left (by
    simpa only [string_toList_append, List.append_assoc] using congrArg String.toList h))).symm

theorem roll_bootstrap_ebuild_replaced (bootstrapDir : Directory) (readText : String → List Char)
    (a b c a' b' c' : Nat) (hne : (⟨a', b', c'⟩ : RustVersion) ≠ ⟨a, b, c⟩)
    (hold : ⟨"rust-bootstrap-" ++ RustVersion.str ⟨a, b, c⟩ ++ ".ebuild", none⟩ ∈
      bootstrapDir.entries)
    (honly : ∀ e ∈ globEbuilds bootstrapDir (ebuildGlob "rust-bootstrap" none),
      e = ⟨"rust-bootstrap-" ++ RustVersion.str ⟨a, b, c⟩ ++ ".ebuild", none⟩)
    (A B C : List Char)
    (htext : readText ("rust-bootstrap-" ++ RustVersion.str ⟨a, b, c⟩ ++ ".ebuild") =
      A ++ sequenceKey ++ B ++ ')' :: C)
    (hA : ¬ sequenceKey <:+: A ++ sequenceKey.dropLast) (hB : ')' ∉ B)
    (hC : ¬ sequenceKey <:+: C) :
    (∃ newText, updateBootstrapEbuild bootstrapDir readText ⟨a', b', c'⟩ =
      .ok ("rust-bootstrap-" ++ RustVersion.str ⟨a', b', c'⟩ ++ ".ebuild", newText)) ∧
    getRustBootstrapVersion (bootstrapDir.writeFile
      ("rust-bootstrap-" ++ RustVersion.str ⟨a', b', c'⟩ ++ ".ebuild")) = .error "AssertionError" ∧
    getRustBootstrapVersion ((bootstrapDir.writeFile
      ("rust-bootstrap-" ++ RustVersion.str ⟨a', b', c'⟩ ++ ".ebuild")).removeFiles
        (removeEbuildVersion (bootstrapDir.writeFile
          ("rust-bootstrap-" ++ RustVersion.str ⟨a', b', c'⟩ ++ ".ebuild"))
          "rust-bootstrap" ⟨a, b, c⟩)) = .ok ⟨a', b', c'⟩ := by
  have hglob : ebuildGlob "rust-bootstrap" none = "rust-bootstrap-" := rfl
  have hname : "rust-bootstrap" ++ "-" = "rust-bootstrap-" := rfl
  set oldName := "rust-bootstrap-" ++ RustVersion.str ⟨a, b, c⟩ ++ ".ebuild"
  set newName := "rust-bootstrap-" ++ RustVersion.str ⟨a', b', c'⟩ ++ ".ebuild"
  have hmatch (v : RustVersion) : globStar "rust-bootstrap-" ".ebuild"
      ("rust-bootstrap-" ++ v.str ++ ".ebuild") = true := globStar_append _ _ _
  have hnames : newName ≠ oldName := fun h => hne (bootstrapName_inj h)
  -- the ebuild of `a'.b'.c'` is new: it would be a second match
  have hfresh : newName ∉ bootstrapDir.names := fun h => by
    obtain ⟨e, he, hen⟩ := List.mem_map.1 h
    have := honly e ((mem_globEbuilds _).2 ⟨he, hen ▸ hglob ▸ hmatch _⟩)
    exact hnames (hen.symm.trans (congrArg DirEntry.name this))
  set written := bootstrapDir.writeFile newName
  have hwritten : written.entries = bootstrapDir.entries ++ [⟨newName, none⟩] :=
    Directory.writeFile_entries hfresh
  have hnew : (⟨newName, none⟩ : DirEntry) ∈ globEbuilds written (ebuildGlob "rust-bootstrap" none) :=
    (mem_globEbuilds _).2 ⟨hwritten ▸ List.mem_append_right _ (List.mem_singleton_self _),
      hglob ▸ hmatch _⟩
  refine ⟨⟨_, updateBootstrapEbuild_appends_old bootstrapDir readText ⟨a', b', c'⟩ a b c _
    ((mem_globEbuilds _).2 ⟨hold, hglob ▸ hmatch _⟩) rfl rfl
    (fun e' he' hne' => absurd (honly e' he') hne') A B C htext hA hB hC⟩, ?_, ?_⟩
  · -- both ebuilds match: `find_ebuild_path` raises
    have hold' : (⟨oldName, none⟩ : DirEntry) ∈ globEbuilds written
        (ebuildGlob "rust-bootstrap" none) :=
      (mem_globEbuilds _).2 ⟨hwritten ▸ List.mem_append_left _ hold, hglob ▸ hmatch _⟩
    simp only [getRustBootstrapVersion, findEbuildPath_two_files written "rust-bootstrap" none _ _
      hold' hnew (by simpa using hnames.symm) rfl rfl, bind, Except.bind]
  · -- the old ebuild is removed, the new one kept
    set removed := removeEbuildVersion written "rust-bootstrap" ⟨a, b, c⟩
    have holdRemoved : oldName ∈ removed := by
      have : oldName ∈ written.names := by
        simp only [Directory.names, hwritten, List.map_append, List.mem_append]
        exact .inl (List.mem_map_of_mem _ hold)
      simp only [removed, removeEbuildVersion, hname, this, if_true]
      exact List.mem_append_right _ (List.mem_singleton_self _)
    have hnewKept : newName ∉ removed := fun h =>
      hne (removeEbuildVersion_only_version written "rust-bootstrap" a b c a' b' c' _ h
        (.inl (by rw [hname])))
    refine getRustBootstrapVersion_of_file _ a' b' c' ⟨newName, none⟩ ?_ rfl rfl
      fun e' he' hne' => ?_
    · exact (mem_globEbuilds _).2 ⟨Directory.mem_removeFiles.2 ⟨((mem_globEbuilds _).1 hnew).1,
        hnewKept⟩, hglob ▸ hmatch _⟩
    · -- any other match was in the directory before, so it is the old ebuild, removed
      obtain ⟨he', hm'⟩ := (mem_globEbuilds _).1 he'
      obtain ⟨he', hkept⟩ := Directory.mem_removeFiles.1 he'
      rw [hwritten, List.mem_append, List.mem_singleton] at he'
      rcases he' with he' | rfl
      · exact absurd (congrArg DirEntry.name (honly e' ((mem_globEbuilds _).2 ⟨he', hm'⟩)) ▸
          holdRemoved) hkept
      · exact absurd rfl hne'

theorem bootstrap_1_58_replaced_by_1_59 :
    (∃ newText, updateBootstrapEbuild bootstrapDir158 bootstrap158Text ⟨1, 59, 0⟩ =
      .ok ("rust-bootstrap-1.59.0.ebuild", newText)) ∧
    getRustBootstrapVersion (bootstrapDir158.writeFile "rust-bootstrap-1.59.0.ebuild") =
      .error "AssertionError" ∧
    getRustBootstrapVersion ((bootstrapDir158.writeFile "rust-bootstrap-1.59.0.ebuild").removeFiles
      (removeEbuildVersion (bootstrapDir158.writeFile "rust-bootstrap-1.59.0.ebuild")
        "rust-bootstrap" ⟨1, 58, 0⟩)) = .ok ⟨1, 59, 0⟩ :=
  roll_bootstrap_ebuild_replaced bootstrapDir158 bootstrap158Text 1 58 0 1 59 0 (by decide)
    (by decide) (by decide) [] "\n\t1.57.0\n".toList "\n".toList (by decide) (by decide)
    (by decide) (by decide)

end Update

end ToolchainUtils.RustTools
