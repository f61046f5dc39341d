import ToolchainUtils.RustTools.CreateUprev

/-!
`rust_tools/rust_uprev.py`: the lookups of ebuilds in the overlay, `find_ebuild_path`,
`find_rust_versions_in_chroot`, `find_oldest_rust_version_in_chroot` and
`find_ebuild_for_rust_version`, and the files `remove_ebuild_version` removes. A directory is
the list of its entries, in the order `os.listdir` gives them. The lookups meet
`prepare_uprev` in `uprev_survives_remove_oldest`: the oldest version, which a roll without
`--remove` deletes from `RUST_PATH` as `create_rust_uprev` left it, is never the version the
uprev added.
-/

set_option autoImplicit false

namespace ToolchainUtils.RustTools

section Directory

/-- An entry of a directory: its name and, for a symbolic link, the path
`directory / os.readlink(entry)`, which is the name of an entry when the link points into the
directory. -/
structure DirEntry where
  name : String
  link : Option String
  deriving DecidableEq, Repr

/-- A directory: its entries, no two of one name. -/
structure Directory where
  entries : List DirEntry
  names_nodup : (entries.map DirEntry.name).Nodup

theorem Directory.nodup (dir : Directory) : dir.entries.Nodup := dir.names_nodup.of_map _

/-- The names of a directory's entries, `os.listdir(directory)`. -/
def Directory.names (dir : Directory) : List String := dir.entries.map DirEntry.name

/-- `fnmatch` of the pattern `pre*post`. -/
def globStar (pre post name : String) : Bool :=
  pre.toList.isPrefixOf name.toList && post.toList.isSuffixOf name.toList &&
    pre.length + post.length ≤ name.length

/-- `x.endswith(suffix)`. -/
def pyEndswith (x suffix : String) : Bool := suffix.toList.isSuffixOf x.toList

/-- The directory after writing a file `name`: a new entry when no entry has the name. -/
def Directory.writeFile (dir : Directory) (name : String) : Directory :=
  if h : name ∈ dir.names then dir
  else ⟨dir.entries ++ [⟨name, none⟩], by
    rw [List.map_append, List.nodup_append]
    exact ⟨dir.names_nodup, List.nodup_singleton _, by simpa [Directory.names] using h⟩⟩

/-- The directory after `git rm` of the files `names`. -/
def Directory.removeFiles (dir : Directory) (names : List String) : Directory :=
  ⟨dir.entries.filter (·.name ∉ names), dir.names_nodup.sublist ((List.filter_sublist _).map _)⟩

theorem Directory.writeFile_entries {dir : Directory} {name : String} (h : name ∉ dir.names) :
    (dir.writeFile name).entries = dir.entries ++ [⟨name, none⟩] := by
  simp [Directory.writeFile, h]

theorem Directory.mem_removeFiles {dir : Directory} {names : List String} {e : DirEntry} :
    e ∈ (dir.removeFiles names).entries ↔ e ∈ dir.entries ∧ e.name ∉ names := by
  simp [Directory.removeFiles]

theorem Directory.mem_names_writeFile {dir : Directory} {name x : String} :
    x ∈ (dir.writeFile name).names ↔ x ∈ dir.names ∨ x = name := by
  unfold Directory.writeFile
  split
  · exact ⟨.inl, fun h => h.elim id fun hx => hx ▸ ‹_›⟩
  · simp [Directory.names]

theorem Directory.mem_names_removeFiles {dir : Directory} {names : List String} {x : String} :
    x ∈ (dir.removeFiles names).names ↔ x ∈ dir.names ∧ x ∉ names := by
  simp only [Directory.names, List.mem_map, Directory.mem_removeFiles]
  constructor
  · rintro ⟨e, ⟨he, hn⟩, rfl⟩
    exact ⟨⟨e, he, rfl⟩, hn⟩
  · rintro ⟨⟨e, he, rfl⟩, hn⟩
    exact ⟨e, ⟨he, hn⟩, rfl⟩

theorem globStar_of_toList {pre post name : String} (mid : List Char)
    (h : name.toList = pre.toList ++ mid ++ post.toList) : globStar pre post name = true := by
  have hlen : name.length = pre.length + mid.length + post.length := by
    have := congrArg List.length h
    simp only [List.length_append] at this
    exact this
  simp only [globStar, h, hlen, Bool.and_eq_true, List.isPrefixOf_iff_prefix,
    List.isSuffixOf_iff_suffix, decide_eq_true_eq]
  exact ⟨⟨(List.prefix_append _ _).trans (List.prefix_append _ _), List.suffix_append _ _⟩,
    by omega⟩

theorem globStar_append (pre mid post : String) : globStar pre post (pre ++ mid ++ post) = true :=
  globStar_of_toList mid.toList rfl

theorem eq_singleton_of_nodup {α : Type} {l : List α} {a : α} (hl : l.Nodup) (ha : a ∈ l)
    (hall : ∀ x ∈ l, x = a) : l = [a] := by
  match l, hl with
  | [], _ => cases ha
  | [x], _ => rw [hall x (List.mem_singleton_self x)]
  | x :: y :: _, hl =>
    have hxy : x = y := (hall x (by simp)).trans (hall y (by simp)).symm
    exact absurd (hxy ▸ List.mem_cons_self y _) (List.nodup_cons.1 hl).1

end Directory

section FindEbuildPath

/-- The pattern `find_ebuild_path` globs for, without its `*.ebuild`. -/
def ebuildGlob (name : String) : Option RustVersion → String
  | some version => name ++ "-" ++ version.str
  | none => name ++ "-"

/-- The matches that count: those that are not links to another match. -/
def notLinkedMatches (found : List DirEntry) : List DirEntry :=
  found.filter fun m => match m.link with
    | none => true
    | some target => !found.any (·.name == target)

/-- `set(directory.glob(f"{pattern}*.ebuild"))`: the entries whose names match. -/
def globEbuilds (dir : Directory) (pattern : String) : List DirEntry :=
  dir.entries.filter fun e => globStar pattern ".ebuild" e.name

/-- `find_ebuild_path(directory, name, version)`: the name of the one match of
`name-version*.ebuild` (`name-*.ebuild` without a version) that is not a link to another
match. A `RustVersion` is a tuple of three items, so `if version:` holds of every version. -/
def findEbuildPath (dir : Directory) (name : String) (version : Option RustVersion) :
    Except String String :=
  match notLinkedMatches (globEbuilds dir (ebuildGlob name version)) with
  | [m] => .ok m.name
  | _ => .error "AssertionError"

variable (dir : Directory) (name : String) (version : Option RustVersion)

theorem mem_globEbuilds {pattern : String} {e : DirEntry} :
    e ∈ globEbuilds dir pattern ↔ e ∈ dir.entries ∧ globStar pattern ".ebuild" e.name = true :=
  List.mem_filter

theorem mem_notLinkedMatches_of_file {found : List DirEntry} {e : DirEntry} (he : e ∈ found)
    (hfile : e.link = none) : e ∈ notLinkedMatches found := by
  simp [notLinkedMatches, he, hfile]

theorem findEbuildPath_of_links (e : DirEntry) (he : e ∈ globEbuilds dir (ebuildGlob name version))
    (hfile : e.link = none)
    (hlinks : ∀ e' ∈ globEbuilds dir (ebuildGlob name version), e' ≠ e →
      ∃ m ∈ globEbuilds dir (ebuildGlob name version), e'.link = some m.name) :
    findEbuildPath dir name version = .ok e.name := by
  have hR : notLinkedMatches (globEbuilds dir (ebuildGlob name version)) = [e] := by
    refine eq_singleton_of_nodup ((dir.nodup.filter _).filter _)
      (mem_notLinkedMatches_of_file he hfile) fun x hx => ?_
    by_contra hne
    simp only [notLinkedMatches, List.mem_filter] at hx
    obtain ⟨m, hm, hlink⟩ := hlinks x hx.1 hne
    simp only [hlink, Bool.not_eq_true', List.any_eq_false, beq_iff_eq] at hx
    exact hx.2 m hm rfl
  simp only [findEbuildPath, hR]

theorem findEbuildPath_two_files (e₁ e₂ : DirEntry)
    (h₁ : e₁ ∈ globEbuilds dir (ebuildGlob name version))
    (h₂ : e₂ ∈ globEbuilds dir (ebuildGlob name version)) (hne : e₁ ≠ e₂)
    (hf₁ : e₁.link = none) (hf₂ : e₂.link = none) :
    findEbuildPath dir name version = .error "AssertionError" := by
  have hk₁ := mem_notLinkedMatches_of_file h₁ hf₁
  have hk₂ := mem_notLinkedMatches_of_file h₂ hf₂
  unfold findEbuildPath
  split
  · next m hm =>
    rw [hm, List.mem_singleton] at hk₁ hk₂
    exact absurd (hk₁.trans hk₂.symm) hne
  · rfl

end FindEbuildPath

theorem findEbuildPath_raises_on_longer_version (dir : Directory) (name : String)
    (v w : RustVersion) (hvw : v.str ≠ w.str) (hpre : v.str.toList <+: w.str.toList)
    (hv : ⟨name ++ "-" ++ v.str ++ ".ebuild", none⟩ ∈ dir.entries)
    (hw : ⟨name ++ "-" ++ w.str ++ ".ebuild", none⟩ ∈ dir.entries) :
    findEbuildPath dir name (some v) = .error "AssertionError" := by
  obtain ⟨t, ht⟩ := hpre
  refine findEbuildPath_two_files dir name (some v) _ _
    ((mem_globEbuilds _).2 ⟨hv, globStar_of_toList [] ?_⟩)
    ((mem_globEbuilds _).2 ⟨hw, globStar_of_toList t ?_⟩) (fun h => hvw ?_) rfl rfl
  · simp [ebuildGlob, string_toList_append]
  · simp only [ebuildGlob, string_toList_append, ← ht, List.append_assoc]
  · have hl := congrArg (String.toList ∘ DirEntry.name) h
    simp only [Function.comp, string_toList_append, List.append_assoc,
      List.append_cancel_left_eq, List.append_cancel_right_eq] at hl
    exact String.ext hl

/-- The virtual package's directory with the ebuilds of 1.3.4 and 1.3.40. -/
def virtualRustDir : Directory :=
  ⟨[⟨"rust-1.3.4.ebuild", none⟩, ⟨"rust-1.3.40.ebuild", none⟩], by decide⟩

theorem find_ebuild_1_3_4_raises :
    virtualRustDir.entries = [⟨"rust-1.3.4.ebuild", none⟩, ⟨"rust-1.3.40.ebuild", none⟩] ∧
      findEbuildPath virtualRustDir "rust" (some ⟨1, 3, 4⟩) = .error "AssertionError" :=
  ⟨rfl, findEbuildPath_raises_on_longer_version virtualRustDir "rust" ⟨1, 3, 4⟩ ⟨1, 3, 40⟩
    (by decide) (by decide) (by decide) (by decide)⟩

section Bootstrap

/-- `^rust-bootstrap-(\d+).(\d+).(\d+)`, whose dots are not escaped. -/
def bootstrapEbuildRe : Pat :=
  .seqs [.text "rust-bootstrap-", .group "1" .digits, .any, .group "2" .digits, .any,
    .group "3" .digits]

/-- `get_rust_bootstrap_version()`, `bootstrapDir` being `rust_bootstrap_path()`. -/
def getRustBootstrapVersion (bootstrapDir : Directory) : Except String RustVersion := do
  let bootstrapEbuild ← findEbuildPath bootstrapDir "rust-bootstrap" none
  match reMatch bootstrapEbuildRe bootstrapEbuild with
  | none => throw ("AssertionError: " ++ bootstrapEbuild)
  | some g => return ⟨groupInt g "1", groupInt g "2", groupInt g "3"⟩

theorem reMatch_bootstrapEbuildRe (a b c : Nat) :
    reMatch bootstrapEbuildRe ("rust-bootstrap-" ++ RustVersion.str ⟨a, b, c⟩ ++ ".ebuild") =
      some [("3", (toString c).toList), ("2", (toString b).toList), ("1", (toString a).toList)] := by
  obtain ⟨hA, hAd, -⟩ := toString_digits a
  obtain ⟨hB, hBd, -⟩ := toString_digits b
  obtain ⟨hC, hCd, -⟩ := toString_digits c
  have hfirst : bootstrapEbuildRe.First
      ("rust-bootstrap-" ++ RustVersion.str ⟨a, b, c⟩ ++ ".ebuild").toList [] (".ebuild".toList,
      [("3", (toString c).toList), ("2", (toString b).toList), ("1", (toString a).toList)]) := by
    rw [string_toList_append, string_toList_append, RustVersion.str_toList]
    simp only [List.append_assoc, List.cons_append]
    exact (Pat.first_text _ _ _).seq <|
      (Pat.First.group_append "1" (Pat.first_digits (r := '.' :: _) hA hAd rfl _)).seq <|
      (Pat.first_any (by decide)).seq <|
      (Pat.First.group_append "2" (Pat.first_digits (r := '.' :: _) hB hBd rfl _)).seq <|
      (Pat.first_any (by decide)).seq <|
      (Pat.First.group_append "3"
        (Pat.first_digits (r := ".ebuild".toList) hC hCd rfl _)).seq Pat.first_seqs_nil
  simp only [reMatch]; rw [hfirst]; rfl

theorem getRustBootstrapVersion_of_file (bootstrapDir : Directory) (a b c : Nat) (e : DirEntry)
    (he : e ∈ globEbuilds bootstrapDir (ebuildGlob "rust-bootstrap" none))
    (hname : e.name = "rust-bootstrap-" ++ RustVersion.str ⟨a, b, c⟩ ++ ".ebuild")
    (hfile : e.link = none)
    (hlinks : ∀ e' ∈ globEbuilds bootstrapDir (ebuildGlob "rust-bootstrap" none), e' ≠ e →
      ∃ m ∈ globEbuilds bootstrapDir (ebuildGlob "rust-bootstrap" none), e'.link = some m.name) :
    getRustBootstrapVersion bootstrapDir = .ok ⟨a, b, c⟩ := by
  simp only [getRustBootstrapVersion,
    findEbuildPath_of_links bootstrapDir "rust-bootstrap" none e he hfile hlinks, bind,
    Except.bind, hname, reMatch_bootstrapEbuildRe]
  show Except.ok (⟨pyInt (toString a).toList, pyInt (toString b).toList,
    pyInt (toString c).toList⟩ : RustVersion) = _
  rw [(toString_digits a).2.2, (toString_digits b).2.2, (toString_digits c).2.2]

end Bootstrap

section Versions

/-- `RUST_PATH`. -/
def rustPath : String := "/mnt/host/source/src/third_party/chromiumos-overlay/dev-lang/rust"

/-- `find_rust_versions_in_chroot()`, `rustDir` being `RUST_PATH`: the version and the path of
each ebuild. -/
def findRustVersionsInChroot (rustDir : Directory) :
    Except String (List (RustVersion × String)) :=
  (rustDir.names.filter (pyEndswith · ".ebuild")).mapM fun x => do
    return (← RustVersion.parseFromEbuild x, rustPath ++ "/" ++ x)

/-- `<` of `RustVersion`s: the tuples compared item by item. -/
def RustVersion.lt (v w : RustVersion) : Bool :=
  v.major < w.major || v.major == w.major &&
    (v.minor < w.minor || v.minor == w.minor && v.patch < w.patch)

/-- `<` of two strings: code points compared from the left, a proper prefix first. -/
def pyStrLt : List Char → List Char → Bool
  | [], [] => false
  | [], _ :: _ => true
  | _ :: _, [] => false
  | c :: s, d :: t => c.toNat < d.toNat || c == d && pyStrLt s t

/-- `<` of the pairs `(version, path)` that `find_rust_versions_in_chroot` returns. -/
def versionPathLt (a b : RustVersion × String) : Bool :=
  a.1.lt b.1 || a.1 == b.1 && pyStrLt a.2.toList b.2.toList

/-- `min(items)`: the first item, replaced by every later one smaller than it. -/
def pyMin {α : Type} (lt : α → α → Bool) : List α → Except String α
  | [] => .error "ValueError: min() arg is an empty sequence"
  | x :: xs => .ok (xs.foldl (fun m y => if lt y m then y else m) x)

/-- `find_oldest_rust_version_in_chroot()`. -/
def findOldestRustVersionInChroot (rustDir : Directory) : Except String RustVersion := do
  let rustVersions ← findRustVersionsInChroot rustDir
  if rustVersions.length ≤ 1 then
    throw "RuntimeError: Expect to find more than one Rust versions"
  return (← pyMin versionPathLt rustVersions).1

/-- `repr` of a list of strings. -/
def pyListRepr (l : List String) : String :=
  "[" ++ ", ".intercalate (l.map fun x => "'" ++ x ++ "'") ++ "]"

/-- `find_ebuild_for_rust_version(version)`. -/
def findEbuildForRustVersion (rustDir : Directory) (version : RustVersion) :
    Except String String := do
  let rustEbuilds := ((← findRustVersionsInChroot rustDir).filter (·.1 == version)).map (·.2)
  match rustEbuilds with
  | [] => throw ("ValueError: No Rust ebuilds found matching " ++ version.str)
  | [ebuild] => return ebuild
  | _ => throw ("ValueError: Multiple Rust ebuilds found matching " ++ version.str ++ ": " ++
    pyListRepr rustEbuilds)

theorem RustVersion.le_refl (v : RustVersion) : v.le v = true := by
  simp [RustVersion.le]

theorem RustVersion.le_trans {u v w : RustVersion} (h₁ : u.le v = true) (h₂ : v.le w = true) :
    u.le w = true := by
  simp only [RustVersion.le, Bool.or_eq_true, Bool.and_eq_true, decide_eq_true_eq,
    beq_iff_eq] at *
  omega

theorem RustVersion.le_of_not_lt {v w : RustVersion} (h : w.lt v = false) : v.le w = true := by
  simp only [RustVersion.le, RustVersion.lt, Bool.or_eq_true, Bool.and_eq_true,
    decide_eq_true_eq, beq_iff_eq, Bool.or_eq_false_iff, Bool.and_eq_false_iff,
    decide_eq_false_iff_not, beq_eq_false_iff_ne] at *
  omega

theorem RustVersion.le_of_lt {v w : RustVersion} (h : v.lt w = true) : v.le w = true := by
  simp only [RustVersion.le, RustVersion.lt, Bool.or_eq_true, Bool.and_eq_true,
    decide_eq_true_eq, beq_iff_eq] at *
  omega

theorem versionPathLt_le {a b : RustVersion × String} (h : versionPathLt a b = true) :
    a.1.le b.1 = true := by
  simp only [versionPathLt, Bool.or_eq_true, Bool.and_eq_true, beq_iff_eq] at h
  rcases h with h | ⟨h, -⟩
  · exact RustVersion.le_of_lt h
  · exact h ▸ RustVersion.le_refl _

theorem le_of_not_versionPathLt {a b : RustVersion × String} (h : versionPathLt a b = false) :
    b.1.le a.1 = true :=
  RustVersion.le_of_not_lt (by simp only [versionPathLt, Bool.or_eq_false_iff] at h; exact h.1)

theorem foldl_min {l : List (RustVersion × String)} :
    ∀ acc, let r := l.foldl (fun m y => if versionPathLt y m then y else m) acc
      r ∈ acc :: l ∧ ∀ y ∈ acc :: l, r.1.le y.1 = true := by
  induction l with
  | nil => exact fun acc => ⟨List.mem_singleton_self _, by simp [RustVersion.le_refl]⟩
  | cons y ys ih =>
    intro acc
    -- the item kept after `y` is one of `acc` and `y`, and no larger than either
    have step : ∃ m, (if versionPathLt y acc then y else acc) = m ∧ (m = acc ∨ m = y) ∧
        m.1.le acc.1 = true ∧ m.1.le y.1 = true := by
      cases h : versionPathLt y acc
      · exact ⟨acc, rfl, .inl rfl, RustVersion.le_refl _, le_of_not_versionPathLt h⟩
      · exact ⟨y, rfl, .inr rfl, versionPathLt_le h, RustVersion.le_refl _⟩
    obtain ⟨m, hm, hmem', hmacc, hmy⟩ := step
    obtain ⟨hmem, hall⟩ := ih m
    have hrm := hall m (List.mem_cons_self _ _)
    simp only [List.foldl_cons, hm]
    refine ⟨?_, fun z hz => ?_⟩
    · rcases List.mem_cons.1 hmem with h | h
      · rcases hmem' with rfl | rfl <;> simp [h]
      · simp [h]
    · rcases List.mem_cons.1 hz with rfl | hz
      · exact RustVersion.le_trans hrm hmacc
      rcases List.mem_cons.1 hz with rfl | hz
      · exact RustVersion.le_trans hrm hmy
      · exact hall z (List.mem_cons_of_mem _ hz)

theorem pyMin_least {l : List (RustVersion × String)} {m : RustVersion × String}
    (h : pyMin versionPathLt l = .ok m) : m ∈ l ∧ ∀ y ∈ l, m.1.le y.1 = true := by
  cases l with
  | nil => cases h
  | cons x xs => cases h; exact foldl_min x

theorem mapM_ok_mem {α β : Type} {f : α → Except String β} :
    ∀ {l : List α} {bs : List β}, l.mapM f = .ok bs →
      (∀ a ∈ l, ∃ b ∈ bs, f a = .ok b) ∧ ∀ b ∈ bs, ∃ a ∈ l, f a = .ok b
  | [], bs, h => by
    cases h
    simp
  | a :: l, bs, h => by
    rw [List.mapM_cons] at h
    cases hfa : f a with
    | error e => rw [hfa] at h; cases h
    | ok b =>
      cases hl : l.mapM f with
      | error e => rw [hfa, hl] at h; cases h
      | ok bs' =>
        rw [hfa, hl] at h
        cases h
        obtain ⟨h₁, h₂⟩ := mapM_ok_mem hl
        refine ⟨fun a' ha' => ?_, fun b' hb' => ?_⟩
        · rcases List.mem_cons.1 ha' with rfl | ha'
          · exact ⟨b, List.mem_cons_self _ _, hfa⟩
          · obtain ⟨b', hb', h⟩ := h₁ a' ha'
            exact ⟨b', List.mem_cons_of_mem _ hb', h⟩
        · rcases List.mem_cons.1 hb' with rfl | hb'
          · exact ⟨a, List.mem_cons_self _ _, hfa⟩
          · obtain ⟨a', ha', h⟩ := h₂ b' hb'
            exact ⟨a', List.mem_cons_of_mem _ ha', h⟩

theorem findRustVersions_item {x : String} {y : RustVersion × String} :
    (do return (← RustVersion.parseFromEbuild x, rustPath ++ "/" ++ x) :
      Except String (RustVersion × String)) = .ok y ↔
    RustVersion.parseFromEbuild x = .ok y.1 ∧ y.2 = rustPath ++ "/" ++ x := by
  cases RustVersion.parseFromEbuild x <;>
    simp [bind, Except.bind, pure, Except.pure, Prod.ext_iff, eq_comm]

theorem findRustVersionsInChroot_ok {rustDir : Directory} {vs : List (RustVersion × String)}
    (h : findRustVersionsInChroot rustDir = .ok vs) :
    (∀ x ∈ rustDir.names, pyEndswith x ".ebuild" = true →
      ∃ t, RustVersion.parseFromEbuild x = .ok t ∧ (t, rustPath ++ "/" ++ x) ∈ vs) ∧
    ∀ y ∈ vs, ∃ x ∈ rustDir.names, pyEndswith x ".ebuild" = true ∧
      RustVersion.parseFromEbuild x = .ok y.1 ∧ y.2 = rustPath ++ "/" ++ x := by
  obtain ⟨h₁, h₂⟩ := mapM_ok_mem h
  refine ⟨fun x hx hend => ?_, fun y hy => ?_⟩
  · obtain ⟨y, hy, hf⟩ := h₁ x (List.mem_filter.2 ⟨hx, hend⟩)
    obtain ⟨hp, hpath⟩ := findRustVersions_item.1 hf
    exact ⟨y.1, hp, hpath ▸ hy⟩
  · obtain ⟨x, hx, hf⟩ := h₂ y hy
    exact ⟨x, (List.mem_filter.1 hx).1, (List.mem_filter.1 hx).2, findRustVersions_item.1 hf⟩

theorem findOldestRustVersionInChroot_least {rustDir : Directory} {o : RustVersion}
    (h : findOldestRustVersionInChroot rustDir = .ok o) :
    (∃ x ∈ rustDir.names, pyEndswith x ".ebuild" = true ∧ RustVersion.parseFromEbuild x = .ok o) ∧
    ∀ x ∈ rustDir.names, pyEndswith x ".ebuild" = true →
      ∀ t, RustVersion.parseFromEbuild x = .ok t → o.le t = true := by
  unfold findOldestRustVersionInChroot at h
  cases hv : findRustVersionsInChroot rustDir with
  | error e => simp [hv, bind, Except.bind] at h
  | ok vs =>
    -- past the length check, `min` returned an item whose version is the result
    obtain ⟨m, hm, hmo⟩ : ∃ m, pyMin versionPathLt vs = .ok m ∧ m.1 = o := by
      by_cases hl : vs.length ≤ 1
      · simp [hv, hl, bind, Except.bind, throw, throwThe, MonadExceptOf.throw] at h
      · cases hm : pyMin versionPathLt vs <;>
          simp_all [bind, Except.bind, pure, Except.pure]
    obtain ⟨hmem, hleast⟩ := pyMin_least hm
    obtain ⟨hall, hfrom⟩ := findRustVersionsInChroot_ok hv
    refine ⟨?_, fun x hx hend t ht => ?_⟩
    · obtain ⟨x, hx, hend, hp, -⟩ := hfrom m hmem
      exact ⟨x, hx, hend, hmo ▸ hp⟩
    · obtain ⟨t', ht', hmem'⟩ := hall x hx hend
      rw [ht, Except.ok.injEq] at ht'
      exact hmo ▸ ht' ▸ hleast _ hmem'

theorem findEbuildForRustVersion_ok {rustDir : Directory} {version : RustVersion} {p : String}
    (h : findEbuildForRustVersion rustDir version = .ok p) :
    ∃ x ∈ rustDir.names, pyEndswith x ".ebuild" = true ∧
      RustVersion.parseFromEbuild x = .ok version ∧ p = rustPath ++ "/" ++ x := by
  unfold findEbuildForRustVersion at h
  cases hv : findRustVersionsInChroot rustDir with
  | error e => simp [hv, bind, Except.bind] at h
  | ok vs =>
    simp only [hv, bind, Except.bind] at h
    split at h
    · cases h
    · next ebuild hl =>
      cases h
      obtain ⟨y, hy, rfl⟩ := List.mem_map.1 (hl ▸ List.mem_singleton_self _)
      obtain ⟨hy, hyv⟩ := List.mem_filter.1 hy
      obtain ⟨x, hx, hend, hp, hpath⟩ := (findRustVersionsInChroot_ok hv).2 y hy
      exact ⟨x, hx, hend, (beq_iff_eq.1 hyv) ▸ hp, hpath⟩
    · cases h

end Versions

section Remove

/-- `remove_ebuild_version(path, name, version)`: the names it removes with `git rm`, the
matches of `name-version-*.ebuild` and then `name-version.ebuild` when it exists. -/
def removeEbuildVersion (dir : Directory) (name : String) (version : RustVersion) :
    List String :=
  let found := (globEbuilds dir (name ++ "-" ++ version.str ++ "-")).map DirEntry.name
  let ebuild := name ++ "-" ++ version.str ++ ".ebuild"
  if ebuild ∈ dir.names then found ++ [ebuild] else found

theorem eq_of_append_cons {c : Char} :
    ∀ {l₁ l₂ r₁ r₂ : List Char}, c ∉ l₁ → c ∉ l₂ → l₁ ++ c :: r₁ = l₂ ++ c :: r₂ → l₁ = l₂
  | [], [], _, _, _, _, _ => rfl
  | [], d :: _, _, _, _, h₂, h => by
    simp only [List.nil_append, List.cons_append, List.cons.injEq] at h
    exact absurd (h.1 ▸ List.mem_cons_self c _) h₂
  | d :: _, [], _, _, h₁, _, h => by
    simp only [List.nil_append, List.cons_append, List.cons.injEq] at h
    exact absurd (h.1 ▸ List.mem_cons_self d _) h₁
  | d :: l₁, e :: l₂, _, _, h₁, h₂, h => by
    simp only [List.cons_append, List.cons.injEq] at h
    rw [h.1, eq_of_append_cons (List.not_mem_of_not_mem_cons h₁)
      (List.not_mem_of_not_mem_cons h₂) h.2]

theorem not_mem_toString_nat (c : Char) (hc : c.isDigit = false) (n : Nat) :
    c ∉ (toString n).toList := fun h => by
  simpa [hc] using (toString_digits n).2.1 c h

theorem not_mem_str (c : Char) (hc : c.isDigit = false) (hdot : c ≠ '.') (a b d : Nat) :
    c ∉ (RustVersion.str ⟨a, b, d⟩).toList := by
  rw [RustVersion.str_toList]
  simp only [List.mem_append, List.mem_cons, not_or]
  exact ⟨not_mem_toString_nat c hc a, hdot, not_mem_toString_nat c hc b, hdot,
    not_mem_toString_nat c hc d⟩

theorem RustVersion.str_inj {a b c a' b' c' : Nat}
    (h : (RustVersion.str ⟨a, b, c⟩).toList = (RustVersion.str ⟨a', b', c'⟩).toList) :
    (⟨a', b', c'⟩ : RustVersion) = ⟨a, b, c⟩ := by
  have hdot := not_mem_toString_nat '.' rfl
  have hval (n m : Nat) (h : (toString n).toList = (toString m).toList) : (m : Int) = n := by
    rw [← (toString_digits n).2.2, ← (toString_digits m).2.2, h]
  rw [RustVersion.str_toList, RustVersion.str_toList] at h
  have ha := eq_of_append_cons (hdot a) (hdot a') h
  rw [ha, List.append_cancel_left_eq, List.cons.injEq] at h
  have hb := eq_of_append_cons (hdot b) (hdot b') h.2
  rw [hb, List.append_cancel_left_eq, List.cons.injEq] at h
  rw [hval _ _ ha, hval _ _ hb, hval _ _ h.2.2]

theorem removeEbuildVersion_only_version (dir : Directory) (name : String) (a b c a' b' c' : Nat)
    (x : String) (hx : x ∈ removeEbuildVersion dir name ⟨a, b, c⟩)
    (hname : x = name ++ "-" ++ RustVersion.str ⟨a', b', c'⟩ ++ ".ebuild" ∨
      ∃ n : Nat, x = name ++ "-" ++ RustVersion.str ⟨a', b', c'⟩ ++ "-r" ++ toString n ++
        ".ebuild") :
    (⟨a', b', c'⟩ : RustVersion) = ⟨a, b, c⟩ := by
  set V := (RustVersion.str ⟨a, b, c⟩).toList
  set W := (RustVersion.str ⟨a', b', c'⟩).toList
  have hV : '-' ∉ V := not_mem_str '-' rfl (by decide) a b c
  have hW : '-' ∉ W := not_mem_str '-' rfl (by decide) a' b' c'
  have hE : '-' ∉ ".ebuild".toList := by decide
  -- what is removed: the version's own ebuild, or a name starting with `name-version-`
  have hrem : x.toList = name.toList ++ '-' :: (V ++ ".ebuild".toList) ∨
      name.toList ++ '-' :: (V ++ ['-']) <+: x.toList := by
    simp only [removeEbuildVersion] at hx
    have hglob : x ∈ (globEbuilds dir (name ++ "-" ++ RustVersion.str ⟨a, b, c⟩ ++ "-")).map
        DirEntry.name → name.toList ++ '-' :: (V ++ ['-']) <+: x.toList := fun hx => by
      obtain ⟨e, he, rfl⟩ := List.mem_map.1 hx
      have hp := (List.mem_filter.1 he).2
      simp only [globStar, Bool.and_eq_true, List.isPrefixOf_iff_prefix] at hp
      simpa [string_toList_append] using hp.1.1
    split at hx
    · rcases List.mem_append.1 hx with hx | hx
      · exact .inr (hglob hx)
      · exact .inl (by rw [List.mem_singleton.1 hx]; simp [string_toList_append, V])
    · exact .inr (hglob hx)
  rcases hname with rfl | ⟨n, rfl⟩
  · rw [show (name ++ "-" ++ RustVersion.str ⟨a', b', c'⟩ ++ ".ebuild").toList =
        name.toList ++ '-' :: (W ++ ".ebuild".toList) by
      simp only [string_toList_append, List.append_assoc]; rfl] at hrem
    rcases hrem with h | h
    · exact RustVersion.str_inj (List.append_cancel_right (List.cons.inj
        (List.append_cancel_left h)).2).symm
    · -- `name-a.b.c-` would put a `-` in `a'.b'.c'.ebuild`
      have h' := (List.cons_prefix_cons.1 ((List.prefix_append_right_inj _).1 h)).2
      exact absurd (h'.subset (List.mem_append_right V (List.mem_singleton_self '-')))
        (by simp [hW, hE])
  · rw [show (name ++ "-" ++ RustVersion.str ⟨a', b', c'⟩ ++ "-r" ++ toString n ++
        ".ebuild").toList =
        name.toList ++ '-' :: (W ++ '-' :: ('r' :: ((toString n).toList ++ ".ebuild".toList))) by
      simp only [string_toList_append, List.append_assoc]; rfl] at hrem
    rcases hrem with h | h
    · -- the revision's `-` would be in `a.b.c.ebuild`
      have h' := (List.cons.inj (List.append_cancel_left h)).2
      exact absurd (h' ▸ List.mem_append_right W (List.mem_cons_self '-' _)) (by simp [hV, hE])
    · obtain ⟨t, ht⟩ := (List.cons_prefix_cons.1 ((List.prefix_append_right_inj _).1 h)).2
      exact RustVersion.str_inj (eq_of_append_cons hV hW (by simpa using ht))

end Remove

section Roll

theorem prepareUprev_newer {rustVersion : RustVersion} {template : Option RustVersion}
    {ebuildForPackage : Except String String}
    {ebuildForRustVersion : RustVersion → Except String String}
    {bootstrapVersion : Except String RustVersion} {prepared : PyVal}
    (h : prepareUprev rustVersion template ebuildForPackage ebuildForRustVersion
      bootstrapVersion = .ok prepared) (hnew : prepared ≠ .none) :
    ∃ ebuildPath templateVersion,
      findTemplate template ebuildForPackage ebuildForRustVersion =
        .ok (ebuildPath, templateVersion) ∧ rustVersion.le templateVersion = false := by
  unfold prepareUprev at h
  cases ht : findTemplate template ebuildForPackage ebuildForRustVersion with
  | error e => simp [ht, bind, Except.bind] at h
  | ok pt =>
    cases hb : bootstrapVersion with
    | error e => simp [ht, hb, bind, Except.bind] at h
    | ok b =>
      cases hle : rustVersion.le pt.2
      · exact ⟨pt.1, pt.2, rfl, hle⟩
      · simp [ht, hb, hle, bind, Except.bind, pure, Except.pure] at h
        exact absurd h.symm hnew

theorem findTemplate_in_chroot {template : Option RustVersion}
    {ebuildForPackage : Except String String} {rustDir : Directory} {ebuildPath : String}
    {templateVersion : RustVersion}
    (h : findTemplate template ebuildForPackage (findEbuildForRustVersion rustDir) =
      .ok (ebuildPath, templateVersion))
    (hpkg : ∀ p, ebuildForPackage = .ok p →
      basename p ∈ rustDir.names ∧ pyEndswith (basename p) ".ebuild" = true) :
    ∃ x ∈ rustDir.names, pyEndswith x ".ebuild" = true ∧
      RustVersion.parseFromEbuild x = .ok templateVersion := by
  cases template with
  | none =>
    cases hp : ebuildForPackage with
    | error e => simp [findTemplate, hp, bind, Except.bind] at h
    | ok p =>
      cases hv : RustVersion.parseFromEbuild (basename p) <;>
        simp [findTemplate, hp, hv, bind, Except.bind, pure, Except.pure] at h
      exact ⟨basename p, (hpkg p hp).1, (hpkg p hp).2, hv ▸ h.2 ▸ rfl⟩
  | some t =>
    cases he : findEbuildForRustVersion rustDir t <;>
      simp [findTemplate, he, bind, Except.bind, pure, Except.pure] at h
    obtain ⟨x, hx, hend, hparse, -⟩ := findEbuildForRustVersion_ok he
    exact ⟨x, hx, hend, h.2 ▸ hparse⟩

/-- `find_desired_rust_version()` of `remove_rust_uprev`: the version given, or the oldest
of `RUST_PATH`. -/
def findDesiredRustVersion (rustVersion : Option RustVersion) (rustDir : Directory) :
    Except String RustVersion :=
  match rustVersion with
  | some v => .ok v
  | none => findOldestRustVersionInChroot rustDir

/-- What a step of `create_rust_uprev` writes into `RUST_PATH` itself: `create target ebuild`
copies the template to `rust-<version>.ebuild` (`create_ebuild`), and `update target manifest
to add new version` has `ebuild ... manifest` write the `Manifest`. `copy patches` writes into
`files/`, and the other steps into other directories. -/
def createStepRustDir (rustVersion : RustVersion) (rustDir : Directory) (step : Step) :
    Directory :=
  if step.name = "create target ebuild" then
    rustDir.writeFile ("rust-" ++ rustVersion.str ++ ".ebuild")
  else if step.name = "update target manifest to add new version" then
    rustDir.writeFile "Manifest"
  else rustDir

/-- `RUST_PATH` after the steps of `create_rust_uprev` that follow `prepare uprev`. -/
def createRustDir (rustVersion : RustVersion) (skipCompile : Bool) (rustDir : Directory) :
    Directory :=
  (createSteps skipCompile).foldl (createStepRustDir rustVersion) rustDir

theorem createStepRustDir_names {rustVersion : RustVersion} {rustDir : Directory} {x : String}
    (step : Step) (hx : x ∈ rustDir.names) : x ∈ (createStepRustDir rustVersion rustDir step).names := by
  unfold createStepRustDir
  split
  · exact Directory.mem_names_writeFile.2 (.inl hx)
  split
  · exact Directory.mem_names_writeFile.2 (.inl hx)
  · exact hx

theorem foldl_createStepRustDir_names {rustVersion : RustVersion} {x : String} (steps : List Step) :
    ∀ {rustDir : Directory}, x ∈ rustDir.names →
      x ∈ (steps.foldl (createStepRustDir rustVersion) rustDir).names := by
  induction steps with
  | nil => exact id
  | cons step steps ih => exact fun hx => ih (createStepRustDir_names step hx)

theorem createRustDir_names {rustVersion : RustVersion} {skipCompile : Bool}
    {rustDir : Directory} {x : String} (hx : x ∈ rustDir.names) :
    x ∈ (createRustDir rustVersion skipCompile rustDir).names :=
  foldl_createStepRustDir_names _ hx

theorem foldl_createStepRustDir_ebuild {rustVersion : RustVersion} (steps : List Step)
    (h : ∃ step ∈ steps, step.name = "create target ebuild") :
    ∀ {rustDir : Directory}, "rust-" ++ rustVersion.str ++ ".ebuild" ∈
      (steps.foldl (createStepRustDir rustVersion) rustDir).names := by
  induction steps with
  | nil => obtain ⟨_, h, _⟩ := h; cases h
  | cons step steps ih =>
    intro rustDir
    by_cases hs : step.name = "create target ebuild"
    · refine foldl_createStepRustDir_names steps ?_
      simp only [createStepRustDir, hs, if_true]
      exact Directory.mem_names_writeFile.2 (.inr rfl)
    · obtain ⟨s, hs', hname⟩ := h
      exact ih ⟨s, (List.mem_cons.1 hs').resolve_left (by rintro rfl; exact hs hname), hname⟩

theorem createRustDir_ebuild (rustVersion : RustVersion) (skipCompile : Bool)
    (rustDir : Directory) :
    "rust-" ++ rustVersion.str ++ ".ebuild" ∈ (createRustDir rustVersion skipCompile rustDir).names :=
  foldl_createStepRustDir_ebuild _ ⟨plainStep "create target ebuild", by
    cases skipCompile <;> simp [createSteps, plainStep], rfl⟩

theorem parseWith_natCast {p : Pat} {x : String} {v : RustVersion} (h : parseWith p x = .ok v) :
    ∃ a b c : Nat, v = ⟨a, b, c⟩ := by
  unfold parseWith at h
  split at h <;> cases h
  exact ⟨_, _, _, rfl⟩

theorem uprev_survives_remove_oldest (uprev : String) (rustVersion : RustVersion)
    (template : Option RustVersion) (ebuildForPackage : Except String String)
    (bootstrapVersion : Except String RustVersion) (skipCompile : Bool) (rustDir : Directory)
    (prepared : PyVal) (deleteVersion : RustVersion)
    (huprev : RustVersion.parse uprev = .ok rustVersion)
    (hprep : prepareUprev rustVersion template ebuildForPackage
      (findEbuildForRustVersion rustDir) bootstrapVersion = .ok prepared)
    (hnew : prepared ≠ .none)
    (hpkg : ∀ p, ebuildForPackage = .ok p →
      basename p ∈ rustDir.names ∧ pyEndswith (basename p) ".ebuild" = true)
    (hfind : findDesiredRustVersion none (createRustDir rustVersion skipCompile rustDir) =
      .ok deleteVersion) :
    deleteVersion ≠ rustVersion ∧
      "rust-" ++ rustVersion.str ++ ".ebuild" ∈
        ((createRustDir rustVersion skipCompile rustDir).removeFiles
          (removeEbuildVersion (createRustDir rustVersion skipCompile rustDir) "rust"
            deleteVersion)).names := by
  have hold := findOldestRustVersionInChroot_least hfind
  have hne : deleteVersion ≠ rustVersion := fun heq => by
    obtain ⟨_, t, ht, hnewer⟩ := prepareUprev_newer hprep hnew
    obtain ⟨x, hx, hend, hparse⟩ := findTemplate_in_chroot ht hpkg
    rw [← heq, hold.2 x (createRustDir_names hx) hend t hparse] at hnewer
    cases hnewer
  refine ⟨hne, Directory.mem_names_removeFiles.2 ⟨createRustDir_ebuild _ _ _, fun hrem => ?_⟩⟩
  -- both versions are of natural numbers, so the removed names are of the old version only
  obtain ⟨_, -, -, hx⟩ := hold.1
  obtain ⟨a', b', c', rfl⟩ := parseWith_natCast huprev
  obtain ⟨a, b, c, rfl⟩ := parseWith_natCast hx
  exact hne (removeEbuildVersion_only_version _ "rust" a b c a' b' c' _ hrem (.inl rfl)).symm

/-- `RUST_PATH` before the uprev to 1.60.0 from 1.59.0. -/
def rustDirBefore : Directory :=
  ⟨[⟨"files", none⟩, ⟨"rust-1.58.1.ebuild", none⟩, ⟨"rust-1.59.0.ebuild", none⟩], by decide⟩

theorem uprev_1_60_survives_remove :
    RustVersion.parse "1.60.0" = .ok ⟨1, 60, 0⟩ ∧
    prepareUprev ⟨1, 60, 0⟩ (some ⟨1, 59, 0⟩) (.error "") (findEbuildForRustVersion rustDirBefore)
        (.ok ⟨1, 58, 1⟩) =
      .ok (.tuple [RustVersion.toPy ⟨1, 59, 0⟩, .str (rustPath ++ "/rust-1.59.0.ebuild"),
        RustVersion.toPy ⟨1, 58, 1⟩]) ∧
    findDesiredRustVersion none (createRustDir ⟨1, 60, 0⟩ false rustDirBefore) = .ok ⟨1, 58, 1⟩ ∧
    (⟨1, 58, 1⟩ : RustVersion) ≠ ⟨1, 60, 0⟩ ∧
      "rust-" ++ RustVersion.str ⟨1, 60, 0⟩ ++ ".ebuild" ∈
        ((createRustDir ⟨1, 60, 0⟩ false rustDirBefore).removeFiles
          (removeEbuildVersion (createRustDir ⟨1, 60, 0⟩ false rustDirBefore) "rust"
            ⟨1, 58, 1⟩)).names :=
  have hparse : RustVersion.parse "1.60.0" = .ok ⟨1, 60, 0⟩ := rfl
  have hfind : findDesiredRustVersion none (createRustDir ⟨1, 60, 0⟩ false rustDirBefore) =
      .ok ⟨1, 58, 1⟩ := rfl
  ⟨hparse, rfl, hfind, uprev_survives_remove_oldest "1.60.0" ⟨1, 60, 0⟩ (some ⟨1, 59, 0⟩)
    (.error "") (.ok ⟨1, 58, 1⟩) false rustDirBefore (.tuple [RustVersion.toPy ⟨1, 59, 0⟩,
      .str (rustPath ++ "/rust-1.59.0.ebuild"), RustVersion.toPy ⟨1, 58, 1⟩]) ⟨1, 58, 1⟩ hparse
    rfl (fun h => by cases h) (fun _ h => by cases h) hfind⟩

end Roll

end ToolchainUtils.RustTools
