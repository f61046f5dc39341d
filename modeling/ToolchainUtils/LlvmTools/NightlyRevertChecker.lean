import Mathlib.Data.Finmap
import Mathlib.Data.List.Chain

/-!
The nightly revert checker of `llvm_tools/nightly_revert_checker.py`. For ChromeOS the LLVM
SHAs it watches are read from the LLVM ebuild by `_parse_llvm_ebuild_for_shas`. Every night
`find_shas` asks `revert_checker.find_reverts` for the reverts across each watched SHA,
reports those the state file does not list yet, and hands back the state file the next
night reads. Git, the mail and the uploads are outside the model: a night's `find_reverts`
is a function from a SHA to its reverts, and mails and cherry-picks are kept as the
arguments they are made with. Lines of the ebuild are lists of characters.
-/

set_option autoImplicit false

namespace ToolchainUtils.LlvmTools

section Ebuild

/-- The characters `str.isspace` holds of, which `str.strip()` removes. -/
def pySpaces : List Char :=
  ['\t', '\n', '\x0b', '\x0c', '\r', '\x1c', '\x1d', '\x1e', '\x1f', ' ', '\x85', '\xa0',
    '\u1680', '\u2000', '\u2001', '\u2002', '\u2003', '\u2004', '\u2005', '\u2006', '\u2007',
    '\u2008', '\u2009', '\u200a', '\u2028', '\u2029', '\u202f', '\u205f', '\u3000']

/-- `s.strip()`. -/
def pyStrip (s : List Char) : List Char :=
  ((s.dropWhile (· ∈ pySpaces)).reverse.dropWhile (· ∈ pySpaces)).reverse

/-- `s.startswith(p)`. -/
def startsWith (s p : List Char) : Bool := p.isPrefixOf s

def dquote : Char := '\x22'

/-- `parse_ebuild_assignment`: the value of `NAME="value"  # comment` between its quotes.
`split("=", 1)[1]` raises `IndexError` when no `=` stands before the comment. -/
def parseEbuildAssignment (line : List Char) : Except String (List Char) :=
  let noComments := line.takeWhile (· ≠ '#')
  if '=' ∈ noComments then
    let noAssign := pyStrip ((noComments.dropWhile (· ≠ '=')).drop 1)
    if noAssign.head? = some dquote ∧ noAssign.getLast? = some dquote then
      .ok (noAssign.drop 1).dropLast
    else .error ("AssertionError: " ++ String.mk noAssign)
  else .error "IndexError: list index out of range"

/-- `"LLVM_HASH="`. -/
def llvmHashKey : List Char := "LLVM_HASH=".toList

/-- `"LLVM_NEXT_HASH"`: unlike the other key, without `=`. -/
def llvmNextHashKey : List Char := "LLVM_NEXT_HASH".toList

/-- `if line.startswith(key): var = parse_ebuild_assignment(line)`. -/
def readHash (key line : List Char) (var : Option (List Char)) :
    Except String (Option (List Char)) :=
  if startsWith line key then some <$> parseEbuildAssignment line else .ok var

/-- Python's truth value of `llvm_hash` or `llvm_next_hash`: `None` and `''` are false. -/
def pyTruthy : Option (List Char) → Bool
  | some s => !s.isEmpty
  | none => false

/-- The `for line in ebuild_file` loop with its two `break`s: `llvm_hash` and
`llvm_next_hash` after it. -/
def scanEbuild (llvmHash llvmNextHash : Option (List Char)) :
    List (List Char) → Except String (Option (List Char) × Option (List Char))
  | [] => .ok (llvmHash, llvmNextHash)
  | line :: lines =>
    match readHash llvmHashKey line llvmHash with
    | .error e => .error e
    | .ok llvmHash =>
      if startsWith line llvmHashKey && pyTruthy llvmNextHash then .ok (llvmHash, llvmNextHash)
      else
        match readHash llvmNextHashKey line llvmNextHash with
        | .error e => .error e
        | .ok llvmNextHash =>
          if startsWith line llvmNextHashKey && pyTruthy llvmHash then .ok (llvmHash, llvmNextHash)
          else scanEbuild llvmHash llvmNextHash lines

/-- `"%s" % v` of `llvm_hash` or `llvm_next_hash`. -/
def pyStr : Option (List Char) → String
  | some s => String.mk s
  | none => "None"

/-- `results`: `llvm`, and `llvm-next` when its SHA differs. -/
def ebuildResults (llvmHash llvmNextHash : List Char) : List (String × List Char) :=
  [("llvm", llvmHash)] ++ if llvmNextHash ≠ llvmHash then [("llvm-next", llvmNextHash)] else []

/-- `_parse_llvm_ebuild_for_shas`. -/
def parseLlvmEbuildForShas (lines : List (List Char)) :
    Except String (List (String × List Char)) :=
  match scanEbuild none none lines with
  | .error e => .error e
  | .ok (llvmHash, llvmNextHash) =>
    if !pyTruthy llvmNextHash || !pyTruthy llvmHash then
      .error ("Failed to detect SHAs for llvm/llvm_next. Got: llvm=" ++ pyStr llvmHash ++
        "; llvm_next=" ++ pyStr llvmNextHash)
    else .ok (ebuildResults (llvmHash.getD []) (llvmNextHash.getD []))

theorem pyStrip_sublist (s : List Char) : (pyStrip s).Sublist s :=
  (List.reverse_sublist.2 (List.dropWhile_sublist _)).trans
    (by rw [List.reverse_reverse]; exact List.dropWhile_sublist _)

theorem parseEbuildAssignment_no_comment {line v : List Char}
    (h : parseEbuildAssignment line = .ok v) : '#' ∉ v := by
  unfold parseEbuildAssignment at h
  dsimp only at h
  split_ifs at h
  cases h
  intro hm
  have hsub : List.Sublist _ (line.takeWhile (· ≠ '#')) :=
    ((List.dropLast_sublist _).trans (List.drop_sublist 1 _)).trans ((pyStrip_sublist _).trans
      ((List.drop_sublist 1 _).trans (List.dropWhile_sublist fun c => c ≠ '=')))
  simpa using List.mem_takeWhile_imp (hsub.subset hm)

/-- `NAME="value"` as a line of the ebuild. -/
def ebuildAssignment (name value : List Char) : List Char :=
  name ++ ['=', dquote] ++ value ++ [dquote, '\n']

theorem pyStrip_quoted (v : List Char) :
    pyStrip (dquote :: (v ++ [dquote, '\n'])) = dquote :: (v ++ [dquote]) := by
  have hq : (dquote ∈ pySpaces) = False := by simp only [eq_iff_iff, iff_false]; decide
  have hn : '\n' ∈ pySpaces := by decide
  simp [pyStrip, hq, hn, List.dropWhile_cons]

theorem parseEbuildAssignment_ebuildAssignment (name value : List Char) (hname : '=' ∉ name)
    (hcomment : '#' ∉ name ∧ '#' ∉ value) :
    parseEbuildAssignment (ebuildAssignment name value) = .ok value := by
  have htake : (ebuildAssignment name value).takeWhile (· ≠ '#') = ebuildAssignment name value :=
    List.takeWhile_eq_self_iff.2 fun c hc => decide_eq_true <| by
      rintro rfl
      simp [ebuildAssignment, dquote] at hc
      exact hc.elim hcomment.1 hcomment.2
  have hdrop : (ebuildAssignment name value).dropWhile (· ≠ '=') =
      '=' :: dquote :: (value ++ [dquote, '\n']) := by
    rw [ebuildAssignment, List.append_assoc, List.append_assoc, List.dropWhile_append_of_pos
      fun c hc => decide_eq_true (show c ≠ '=' from fun h => hname (h ▸ hc))]
    simp [List.dropWhile_cons]
  simp only [parseEbuildAssignment, htake, hdrop, List.drop_one, List.tail_cons, pyStrip_quoted]
  simp [ebuildAssignment, List.getLast?_cons]

/-- `LLVM_HASH="value"`. -/
def llvmHashLine (value : List Char) : List Char := ebuildAssignment "LLVM_HASH".toList value

/-- `LLVM_NEXT_HASH="value"`. -/
def llvmNextHashLine (value : List Char) : List Char := ebuildAssignment "LLVM_NEXT_HASH".toList value

theorem startsWith_llvm_lines (v : List Char) :
    startsWith (llvmHashLine v) llvmHashKey = true ∧
      startsWith (llvmHashLine v) llvmNextHashKey = false ∧
      startsWith (llvmNextHashLine v) llvmHashKey = false ∧
      startsWith (llvmNextHashLine v) llvmNextHashKey = true :=
  ⟨rfl, rfl, rfl, rfl⟩

theorem parseEbuildAssignment_llvm_lines {v : List Char} (hv : '#' ∉ v) :
    parseEbuildAssignment (llvmHashLine v) = .ok v ∧
      parseEbuildAssignment (llvmNextHashLine v) = .ok v :=
  ⟨parseEbuildAssignment_ebuildAssignment _ v (by decide) ⟨by decide, hv⟩,
    parseEbuildAssignment_ebuildAssignment _ v (by decide) ⟨by decide, hv⟩⟩

theorem readHash_of_not {key line : List Char} (var : Option (List Char))
    (h : startsWith line key = false) : readHash key line var = .ok var := by
  simp [readHash, h]

theorem readHash_of_parse {key line v : List Char} (var : Option (List Char))
    (h : startsWith line key = true) (hv : parseEbuildAssignment line = .ok v) :
    readHash key line var = .ok (some v) := by
  simp only [readHash, h, if_true, hv]
  rfl

/-- A line that starts with neither key. -/
def OtherLine (line : List Char) : Prop :=
  startsWith line llvmHashKey = false ∧ startsWith line llvmNextHashKey = false

instance : DecidablePred OtherLine := fun l =>
  inferInstanceAs (Decidable (startsWith l llvmHashKey = false ∧ startsWith l llvmNextHashKey = false))

theorem scanEbuild_append_other (llvmHash llvmNextHash : Option (List Char))
    (pre rest : List (List Char)) (hpre : ∀ l ∈ pre, OtherLine l) :
    scanEbuild llvmHash llvmNextHash (pre ++ rest) = scanEbuild llvmHash llvmNextHash rest := by
  induction pre with
  | nil => rfl
  | cons l pre ih =>
    obtain ⟨h₁, h₂⟩ := hpre l (List.mem_cons_self _ _)
    simp only [List.cons_append, scanEbuild, readHash_of_not _ h₁, readHash_of_not _ h₂, h₁, h₂,
      Bool.false_and, Bool.false_eq_true, if_false]
    exact ih fun l hl => hpre l (List.mem_cons_of_mem _ hl)

theorem scanEbuild_llvm_lines {h h' : List Char} (hh : '#' ∉ h ∧ h ≠ []) (hh' : '#' ∉ h' ∧ h' ≠ [])
    (pre mid post : List (List Char)) (hother : ∀ l ∈ pre ++ mid, OtherLine l) :
    scanEbuild none none (pre ++ llvmHashLine h :: (mid ++ llvmNextHashLine h' :: post)) =
        .ok (some h, some h') ∧
      scanEbuild none none (pre ++ llvmNextHashLine h' :: (mid ++ llvmHashLine h :: post)) =
        .ok (some h, some h') := by
  obtain ⟨k₁, k₂, k₃, k₄⟩ := startsWith_llvm_lines h
  obtain ⟨n₁, n₂, n₃, n₄⟩ := startsWith_llvm_lines h'
  obtain ⟨p₁, -⟩ := parseEbuildAssignment_llvm_lines hh.1
  obtain ⟨-, p₂⟩ := parseEbuildAssignment_llvm_lines hh'.1
  have hpre : ∀ l ∈ pre, OtherLine l := fun l hl => hother l (List.mem_append_left _ hl)
  have hmid : ∀ l ∈ mid, OtherLine l := fun l hl => hother l (List.mem_append_right _ hl)
  constructor <;> simp [scanEbuild, scanEbuild_append_other _ _ _ _ hpre,
    scanEbuild_append_other _ _ _ _ hmid, readHash_of_parse _ k₁ p₁, readHash_of_not _ k₂,
    readHash_of_not _ n₃, readHash_of_parse _ n₄ p₂, k₁, k₂, n₃, n₄, pyTruthy, hh.2, hh'.2]

theorem parseLlvmEbuildForShas_llvm_lines {h h' : List Char} (hh : '#' ∉ h ∧ h ≠ [])
    (hh' : '#' ∉ h' ∧ h' ≠ []) (pre mid post : List (List Char))
    (hother : ∀ l ∈ pre ++ mid, OtherLine l) :
    parseLlvmEbuildForShas (pre ++ llvmHashLine h :: (mid ++ llvmNextHashLine h' :: post)) =
        .ok (ebuildResults h h') ∧
      parseLlvmEbuildForShas (pre ++ llvmNextHashLine h' :: (mid ++ llvmHashLine h :: post)) =
        .ok (ebuildResults h h') := by
  obtain ⟨s₁, s₂⟩ := scanEbuild_llvm_lines hh hh' pre mid post hother
  constructor <;> simp [parseLlvmEbuildForShas, s₁, s₂, pyTruthy, hh.2, hh'.2]

theorem eapi_ebuild_parses :
    parseLlvmEbuildForShas (["EAPI=7\n".toList] ++ llvmHashLine "a1".toList ::
        ([] ++ llvmNextHashLine "b2".toList :: [])) =
      .ok (ebuildResults "a1".toList "b2".toList) ∧
    parseLlvmEbuildForShas (["EAPI=7\n".toList] ++ llvmNextHashLine "b2".toList ::
        ([] ++ llvmHashLine "a1".toList :: [])) =
      .ok (ebuildResults "a1".toList "b2".toList) :=
  parseLlvmEbuildForShas_llvm_lines ⟨by decide, by decide⟩ ⟨by decide, by decide⟩ _ [] []
    (by decide)

/-- `v` is the value of a line of `lines` that starts with `key`. -/
def FromLine (key : List Char) (lines : List (List Char)) (v : List Char) : Prop :=
  ∃ l ∈ lines, startsWith l key = true ∧ parseEbuildAssignment l = .ok v

/-- After the scan, a variable holds what it held before or the value of one of its lines. -/
def ReadFrom (key : List Char) (lines : List (List Char)) (var var' : Option (List Char)) : Prop :=
  var' = var ∨ ∃ v, var' = some v ∧ FromLine key lines v

theorem readHash_readFrom {key line : List Char} {var var' : Option (List Char)}
    (lines : List (List Char)) (h : readHash key line var = .ok var') :
    ReadFrom key (line :: lines) var var' := by
  unfold readHash at h
  split at h
  · next hs =>
    cases hp : parseEbuildAssignment line with
    | error e => rw [hp] at h; cases h
    | ok v => rw [hp] at h; cases h; exact .inr ⟨v, rfl, line, List.mem_cons_self _ _, hs, hp⟩
  · cases h; exact .inl rfl

theorem ReadFrom.trans_cons {key line : List Char} {lines : List (List Char)}
    {a b c : Option (List Char)} (h₁ : ReadFrom key (line :: lines) a b)
    (h₂ : ReadFrom key lines b c) : ReadFrom key (line :: lines) a c := by
  rcases h₂ with rfl | ⟨v, rfl, l, hl, hv⟩
  · exact h₁
  · exact .inr ⟨v, rfl, l, List.mem_cons_of_mem _ hl, hv⟩

theorem scanEbuild_readFrom (lines : List (List Char)) :
    ∀ {llvmHash llvmNextHash a b : Option (List Char)},
      scanEbuild llvmHash llvmNextHash lines = .ok (a, b) →
      ReadFrom llvmHashKey lines llvmHash a ∧ ReadFrom llvmNextHashKey lines llvmNextHash b := by
  induction lines with
  | nil => intro _ _ _ _ h; cases h; exact ⟨.inl rfl, .inl rfl⟩
  | cons line lines ih =>
    intro llvmHash llvmNextHash a b h
    simp only [scanEbuild] at h
    split at h
    · cases h
    next a₁ ha₁ =>
    have r₁ := readHash_readFrom lines ha₁
    split at h
    · cases h; exact ⟨r₁, .inl rfl⟩
    split at h
    · cases h
    next b₁ hb₁ =>
    have r₂ := readHash_readFrom lines hb₁
    split at h
    · cases h; exact ⟨r₁, r₂⟩
    obtain ⟨i₁, i₂⟩ := ih h
    exact ⟨r₁.trans_cons i₁, r₂.trans_cons i₂⟩

theorem ebuildResults_nodup (h h' : List Char) : ((ebuildResults h h').map (·.2)).Nodup := by
  by_cases hne : h' = h
  · simp [ebuildResults, hne]
  · simp [ebuildResults, hne, Ne.symm hne]

theorem FromLine.no_comment {key v : List Char} {lines : List (List Char)}
    (h : FromLine key lines v) : '#' ∉ v :=
  let ⟨_, _, _, hv⟩ := h
  parseEbuildAssignment_no_comment hv

theorem parseLlvmEbuildForShas_ok {lines : List (List Char)} {res : List (String × List Char)}
    (h : parseLlvmEbuildForShas lines = .ok res) :
    ∃ llvmHash llvmNextHash, FromLine llvmHashKey lines llvmHash ∧
      FromLine llvmNextHashKey lines llvmNextHash ∧ llvmHash ≠ [] ∧ llvmNextHash ≠ [] ∧
      '#' ∉ llvmHash ∧ '#' ∉ llvmNextHash ∧ res = ebuildResults llvmHash llvmNextHash ∧
      (res.map (·.2)).Nodup := by
  unfold parseLlvmEbuildForShas at h
  split at h
  · cases h
  next a b hscan =>
  split_ifs at h with ht
  cases h
  obtain ⟨r₁, r₂⟩ := scanEbuild_readFrom lines hscan
  rcases r₁ with rfl | ⟨v, rfl, hv⟩
  · simp [pyTruthy] at ht
  rcases r₂ with rfl | ⟨v', rfl, hv'⟩
  · simp [pyTruthy] at ht
  simp [pyTruthy] at ht
  exact ⟨v, v', hv, hv', ht.2, ht.1, hv.no_comment, hv'.no_comment, rfl, ebuildResults_nodup v v'⟩

/-- The same SHA for `llvm` and `llvm-next`, after a comment. -/
def sameShaEbuild : List (List Char) :=
  ["# llvm and llvm-next agree\n".toList, llvmHashLine "c3".toList, llvmNextHashLine "c3".toList]

theorem same_sha_ebuild_accepted :
    parseLlvmEbuildForShas sameShaEbuild = .ok [("llvm", "c3".toList)] ∧
      ∃ llvmHash llvmNextHash, FromLine llvmHashKey sameShaEbuild llvmHash ∧
        FromLine llvmNextHashKey sameShaEbuild llvmNextHash := by
  have hp : parseLlvmEbuildForShas sameShaEbuild = .ok [("llvm", "c3".toList)] := rfl
  obtain ⟨a, b, h₁, h₂, -⟩ := parseLlvmEbuildForShas_ok hp
  exact ⟨hp, a, b, h₁, h₂⟩

end Ebuild

section Nightly

/-- A `revert_checker.Revert`: the SHA of a revert and of the commit it reverts. -/
structure Revert (σ : Type) where
  sha : σ
  revertedSha : σ
  deriving DecidableEq, Repr

/-- The state file: for each watched SHA, the SHAs of its reverts known so far. -/
abbrev RevertState (σ : Type) := Finmap (fun _ : σ => List σ)

variable {σ : Type} [DecidableEq σ]

/-- `existing_reverts`: `set(state[sha])`, empty for a SHA new to the state. -/
def existingReverts (state : RevertState σ) (sha : σ) : List σ := (state.lookup sha).getD []

/-- `new_reverts`: the reverts across `sha` whose SHA the state does not list. -/
def newReverts (state : RevertState σ) (sha : σ) (allReverts : List (Revert σ)) :
    List (Revert σ) :=
  allReverts.filter (·.sha ∉ existingReverts state sha)

/-- `find_shas`, run to its end as both its callers run it: what it yields, and
`new_state` after it. -/
def findShas (findReverts : σ → List (Revert σ)) (state : RevertState σ) :
    List (String × σ) → RevertState σ → List (String × σ × List (Revert σ)) × RevertState σ
  | [], newState => ([], newState)
  | (friendlyName, sha) :: rest, newState =>
    let allReverts := findReverts sha
    let r := findShas findReverts state rest (newState.insert sha (allReverts.map (·.sha)))
    let nr := newReverts state sha allReverts
    if nr.isEmpty then r else ((friendlyName, sha, nr) :: r.1, r.2)

/-- The subject of `_generate_revert_email`. -/
def revertEmailSubject (repositoryName friendlyName : String) (n : Nat) : String :=
  "[revert-checker/" ++ repositoryName ++ "] new " ++ (if n = 1 then "revert" else "reverts") ++
    " discovered across " ++ friendlyName

/-- A mail of `_generate_revert_email`: its subject, the SHA its body is about and the
reverts the body lists (sorted by SHA and rendered through git there). -/
structure RevertEmail (σ : Type) where
  subject : String
  sha : σ
  reverts : List (Revert σ)

def revertEmail (repositoryName : String) (y : String × σ × List (Revert σ)) : RevertEmail σ :=
  ⟨revertEmailSubject repositoryName y.1 y.2.2.length, y.2.1, y.2.2⟩

/-- `do_email`: the mails it sends (or, in a dry run, logs) and the state it returns. -/
def doEmail (repositoryName : String) (findReverts : σ → List (Revert σ))
    (interestingShas : List (String × σ)) (state : RevertState σ) :
    List (RevertEmail σ) × RevertState σ :=
  let r := findShas findReverts state interestingShas ∅
  (r.1.map (revertEmail repositoryName), r.2)

/-- A call `get_upstream_patch.get_from_upstream(start_sha=reverted_sha, patches=[sha])`. -/
structure CherrypickCall (σ : Type) where
  startSha : σ
  patches : List σ
  deriving DecidableEq, Repr

/-- The loop of `do_cherrypick` over what `find_shas` yields: a friendly name already seen
is skipped. A failed cherry-pick is logged and skipped, so it changes nothing here. -/
def cherrypickCalls (seen : List String) :
    List (String × σ × List (Revert σ)) → List (CherrypickCall σ)
  | [] => []
  | (friendlyName, _, reverts) :: rest =>
    if friendlyName ∈ seen then cherrypickCalls seen rest
    else reverts.map (fun r => ⟨r.revertedSha, [r.sha]⟩) ++
      cherrypickCalls (friendlyName :: seen) rest

/-- `do_cherrypick`. -/
def doCherrypick (findReverts : σ → List (Revert σ)) (interestingShas : List (String × σ))
    (state : RevertState σ) : List (CherrypickCall σ) × RevertState σ :=
  let r := findShas findReverts state interestingShas ∅
  (cherrypickCalls [] r.1, r.2)

/-- One night: the SHAs `main` watches, and what `revert_checker.find_reverts` answers. -/
structure Night (σ : Type) where
  interestingShas : List (String × σ)
  findReverts : σ → List (Revert σ)

/-- `main` with the mail action, night after night: each night reads the state file the
night before wrote (`json.dump` and then `json.load` give the dictionary back). -/
def nightlyRun (repositoryName : String) :
    RevertState σ → List (Night σ) → List (RevertEmail σ) × RevertState σ
  | state, [] => ([], state)
  | state, n :: ns =>
    let r := doEmail repositoryName n.findReverts n.interestingShas state
    let r' := nightlyRun repositoryName r.2 ns
    (r.1 ++ r'.1, r'.2)

/-- The reverts across `sha` that the mails report. -/
def reportedReverts (sha : σ) (emails : List (RevertEmail σ)) : List (Revert σ) :=
  (emails.filter (·.sha = sha)).flatMap (·.reverts)

@[simp] theorem reportedReverts_nil (x : σ) : reportedReverts x [] = [] := rfl

@[simp] theorem reportedReverts_append (x : σ) (es es' : List (RevertEmail σ)) :
    reportedReverts x (es ++ es') = reportedReverts x es ++ reportedReverts x es' := by
  simp [reportedReverts]

theorem reportedReverts_cons (x : σ) (e : RevertEmail σ) (es : List (RevertEmail σ)) :
    reportedReverts x (e :: es) = (if e.sha = x then e.reverts else []) ++ reportedReverts x es := by
  by_cases h : e.sha = x <;> simp [reportedReverts, List.filter_cons, h]

theorem findShas_snd_cons (findReverts : σ → List (Revert σ)) (state newState : RevertState σ)
    (friendlyName : String) (sha : σ) (rest : List (String × σ)) :
    (findShas findReverts state ((friendlyName, sha) :: rest) newState).2 =
      (findShas findReverts state rest
        (newState.insert sha ((findReverts sha).map (·.sha)))).2 := by
  simp only [findShas]
  split <;> rfl

theorem lookup_findShas (findReverts : σ → List (Revert σ)) (state : RevertState σ)
    (shas : List (String × σ)) (x : σ) :
    ∀ newState, (findShas findReverts state shas newState).2.lookup x =
      if x ∈ shas.map (·.2) then some ((findReverts x).map (·.sha)) else newState.lookup x := by
  induction shas with
  | nil => intro; simp [findShas]
  | cons p rest ih =>
    intro newState
    obtain ⟨friendlyName, sha⟩ := p
    rw [findShas_snd_cons, ih]
    by_cases hx : x = sha
    · subst hx; simp [Finmap.lookup_insert]
    · simp only [List.map_cons, List.mem_cons, hx, false_or, Finmap.lookup_insert_of_ne _ hx]

theorem reportedReverts_findShas (repositoryName : String) (findReverts : σ → List (Revert σ))
    (state : RevertState σ) (x : σ) (shas : List (String × σ)) :
    ∀ newState, reportedReverts x ((findShas findReverts state shas newState).1.map
      (revertEmail repositoryName)) =
        (shas.filter (·.2 = x)).flatMap fun _ => newReverts state x (findReverts x) := by
  induction shas with
  | nil => intro; rfl
  | cons p rest ih =>
    intro newState
    obtain ⟨friendlyName, sha⟩ := p
    simp only [findShas]
    split
    · next hnr =>
      rw [ih]
      by_cases hx : sha = x
      · subst hx; simp [List.filter_cons, List.isEmpty_iff.1 hnr]
      · simp [List.filter_cons, hx]
    · rw [List.map_cons, reportedReverts_cons, ih]
      by_cases hx : sha = x
      · subst hx; simp [revertEmail, List.filter_cons]
      · simp [revertEmail, List.filter_cons, hx]

theorem flatMap_filter_watched {β : Type} {shas : List (String × σ)} {x : σ}
    (hx : x ∈ shas.map (·.2)) (hnd : (shas.map (·.2)).Nodup) (l : List β) :
    (shas.filter (·.2 = x)).flatMap (fun _ => l) = l := by
  induction shas with
  | nil => simp at hx
  | cons p rest ih =>
    simp only [List.map_cons, List.nodup_cons, List.mem_cons] at hx hnd
    by_cases hp : p.2 = x
    · subst hp
      have : rest.filter (·.2 = p.2) = [] := List.filter_eq_nil_iff.2 fun q hq h =>
        hnd.1 (by rw [← of_decide_eq_true h]; exact List.mem_map_of_mem _ hq)
      simp [List.filter_cons, this]
    · simp [List.filter_cons, hp, ih (hx.resolve_left (Ne.symm hp)) hnd.2]

theorem existingReverts_doEmail (repositoryName : String) (findReverts : σ → List (Revert σ))
    (shas : List (String × σ)) (state : RevertState σ) (x : σ) :
    existingReverts (doEmail repositoryName findReverts shas state).2 x =
      if x ∈ shas.map (·.2) then (findReverts x).map (·.sha) else [] := by
  simp only [existingReverts, doEmail, lookup_findShas, Finmap.lookup_empty]
  split <;> rfl

theorem reportedReverts_doEmail {repositoryName : String} {findReverts : σ → List (Revert σ)}
    {shas : List (String × σ)} (state : RevertState σ) {x : σ} (hx : x ∈ shas.map (·.2))
    (hnd : (shas.map (·.2)).Nodup) :
    reportedReverts x (doEmail repositoryName findReverts shas state).1 =
      newReverts state x (findReverts x) := by
  simp only [doEmail, reportedReverts_findShas, flatMap_filter_watched hx hnd]

theorem map_sha_newReverts (state : RevertState σ) (x : σ) (l : List (Revert σ)) :
    (newReverts state x l).map (·.sha) = (l.map (·.sha)).filter (· ∉ existingReverts state x) := by
  rw [List.filter_map]
  rfl

theorem filter_not_mem_append_perm {l known : List σ} (hknown : known.Nodup) (hl : l.Nodup)
    (hsub : known ⊆ l) : (l.filter (· ∉ known) ++ known).Perm l := by
  have hdisj : (l.filter (· ∉ known)).Disjoint known := fun a ha hk => by
    simp only [List.mem_filter, decide_eq_true_eq] at ha
    exact ha.2 hk
  refine (List.perm_ext_iff_of_nodup ((hl.filter _).append hknown hdisj) hl).2 fun a => ?_
  by_cases ha : a ∈ known
  · simp [ha, hsub ha]
  · simp [ha]

theorem nightlyRun_reported_perm (repositoryName : String) (x : σ) (nights : List (Night σ)) :
    ∀ state : RevertState σ,
      (∀ n ∈ nights, x ∈ n.interestingShas.map (·.2) ∧ (n.interestingShas.map (·.2)).Nodup) →
      (∀ n ∈ nights, ((n.findReverts x).map (·.sha)).Nodup) → (existingReverts state x).Nodup →
      List.Chain (· ⊆ ·) (existingReverts state x)
        (nights.map fun n => (n.findReverts x).map (·.sha)) →
      ((reportedReverts x (nightlyRun repositoryName state nights).1).map (·.sha) ++
        existingReverts state x).Perm (existingReverts (nightlyRun repositoryName state nights).2 x) := by
  induction nights with
  | nil => intro state _ _ _ _; simp [nightlyRun]
  | cons n nights ih =>
    intro state hw hnd hknown hchain
    obtain ⟨hx, hshas⟩ := hw n (List.mem_cons_self _ _)
    rw [List.map_cons, List.chain_cons] at hchain
    have hknown' : existingReverts (doEmail repositoryName n.findReverts n.interestingShas state).2 x =
        (n.findReverts x).map (·.sha) := by
      rw [existingReverts_doEmail, if_pos hx]
    have htonight : ((reportedReverts x (doEmail repositoryName n.findReverts n.interestingShas
        state).1).map (·.sha) ++ existingReverts state x).Perm ((n.findReverts x).map (·.sha)) := by
      rw [reportedReverts_doEmail state hx hshas, map_sha_newReverts]
      exact filter_not_mem_append_perm hknown (hnd n (List.mem_cons_self _ _)) hchain.1
    have hlater := ih _ (fun m hm => hw m (List.mem_cons_of_mem _ hm))
      (fun m hm => hnd m (List.mem_cons_of_mem _ hm)) (hknown' ▸ hnd n (List.mem_cons_self _ _))
      (hknown' ▸ hchain.2)
    rw [hknown'] at hlater
    simp only [nightlyRun, reportedReverts_append, List.map_append, List.append_assoc]
    exact (List.perm_append_comm_assoc _ _ _).trans ((htonight.append_left _).trans hlater)

theorem nightlyRun_snd_concat (repositoryName : String) (last : Night σ) (nights : List (Night σ)) :
    ∀ state : RevertState σ, (nightlyRun repositoryName state (nights ++ [last])).2 =
      (doEmail repositoryName last.findReverts last.interestingShas
        (nightlyRun repositoryName state nights).2).2 := by
  induction nights with
  | nil => intro; rfl
  | cons n nights ih => intro state; exact ih _

theorem nightlyRun_reports_each_revert_once (repositoryName : String) (state : RevertState σ)
    (nights : List (Night σ)) (last : Night σ) (x : σ)
    (hwatched : ∀ n ∈ nights ++ [last],
      x ∈ n.interestingShas.map (·.2) ∧ (n.interestingShas.map (·.2)).Nodup)
    (hnodup : (existingReverts state x).Nodup ∧
      ∀ n ∈ nights ++ [last], ((n.findReverts x).map (·.sha)).Nodup)
    (hgrow : List.Chain (· ⊆ ·) (existingReverts state x)
      ((nights ++ [last]).map fun n => (n.findReverts x).map (·.sha))) :
    ((reportedReverts x (nightlyRun repositoryName state (nights ++ [last])).1).map (·.sha) ++
      existingReverts state x).Perm ((last.findReverts x).map (·.sha)) := by
  have h := nightlyRun_reported_perm repositoryName x _ state hwatched hnodup.2 hnodup.1 hgrow
  rwa [nightlyRun_snd_concat, existingReverts_doEmail,
    if_pos (hwatched last (List.mem_append_right _ (List.mem_singleton_self _))).1] at h

/-- Both nights watch `llvm` at SHA 7; the second finds one more revert across it. -/
def growingNights : List (Night Nat) :=
  [⟨[("llvm", 7), ("llvm-next", 8)], fun sha => if sha = 7 then [⟨11, 1⟩] else []⟩,
    ⟨[("llvm", 7), ("llvm-next", 8)], fun sha => if sha = 7 then [⟨11, 1⟩, ⟨12, 2⟩] else []⟩]

theorem growing_nights_report_each_revert_once :
    ((reportedReverts 7 (nightlyRun "chromeos" ∅
      ([growingNights[0]] ++ [growingNights[1]])).1).map Revert.sha ++ existingReverts ∅ 7).Perm
        ((growingNights[1].findReverts 7).map Revert.sha) :=
  nightlyRun_reports_each_revert_once "chromeos" ∅ [growingNights[0]] growingNights[1] 7
    (by decide) ⟨by decide, by decide⟩ (.cons (by decide) (.cons (by decide) .nil))

theorem nightlyRun_rereports_after_gap (repositoryName : String) (state : RevertState σ)
    (gap back : Night σ) (x : σ) (hgap : x ∉ gap.interestingShas.map (·.2))
    (hback : x ∈ back.interestingShas.map (·.2) ∧ (back.interestingShas.map (·.2)).Nodup) :
    reportedReverts x (nightlyRun repositoryName state [gap, back]).1 = back.findReverts x := by
  have hnone : gap.interestingShas.filter (·.2 = x) = [] := List.filter_eq_nil_iff.2
    fun p hp h => hgap (by rw [← of_decide_eq_true h]; exact List.mem_map_of_mem _ hp)
  have hforgot : existingReverts (doEmail repositoryName gap.findReverts gap.interestingShas
      state).2 x = [] := by
    rw [existingReverts_doEmail, if_neg hgap]
  simp only [nightlyRun, reportedReverts_append, List.append_nil,
    reportedReverts_doEmail _ hback.1 hback.2, newReverts, hforgot]
  simp [doEmail, reportedReverts_findShas, hnone]

/-- SHA 7 is known to the state with both its reverts, left out one night, then watched. -/
def gapNights : List (Night Nat) :=
  [⟨[("llvm", 8)], fun _ => []⟩,
    ⟨[("llvm", 7)], fun sha => if sha = 7 then [⟨11, 1⟩, ⟨12, 2⟩] else []⟩]

theorem known_reverts_reported_again_after_gap :
    reportedReverts 7 (nightlyRun "chromeos" ((∅ : RevertState Nat).insert 7 [11, 12])
      [gapNights[0], gapNights[1]]).1 = [⟨11, 1⟩, ⟨12, 2⟩] :=
  nightlyRun_rereports_after_gap "chromeos" _ gapNights[0] gapNights[1] 7 (by decide)
    ⟨by decide, by decide⟩

theorem findShas_names_sublist (findReverts : σ → List (Revert σ)) (state : RevertState σ)
    (shas : List (String × σ)) :
    ∀ newState, ((findShas findReverts state shas newState).1.map (·.1)).Sublist (shas.map (·.1)) := by
  induction shas with
  | nil => intro; simp [findShas]
  | cons p rest ih =>
    intro newState
    obtain ⟨friendlyName, sha⟩ := p
    simp only [findShas]
    split
    · exact (ih _).cons _
    · exact (ih _).cons₂ _

omit [DecidableEq σ] in
theorem cherrypickCalls_of_nodup (ys : List (String × σ × List (Revert σ))) :
    ∀ seen : List String, (ys.map (·.1)).Nodup → (∀ y ∈ ys, y.1 ∉ seen) →
      cherrypickCalls seen ys = ys.flatMap fun y => y.2.2.map fun r => ⟨r.revertedSha, [r.sha]⟩ := by
  induction ys with
  | nil => intros; rfl
  | cons y ys ih =>
    intro seen hnd hseen
    obtain ⟨friendlyName, sha, reverts⟩ := y
    simp only [List.map_cons, List.nodup_cons] at hnd
    have hy : friendlyName ∉ seen := hseen _ (List.mem_cons_self _ _)
    rw [cherrypickCalls, if_neg hy, List.flatMap_cons, ih _ hnd.2 fun z hz h => ?_]
    rcases List.mem_cons.1 h with h | h
    · exact hnd.1 (h ▸ List.mem_map_of_mem _ hz)
    · exact hseen z (List.mem_cons_of_mem _ hz) h

end Nightly

end ToolchainUtils.LlvmTools
