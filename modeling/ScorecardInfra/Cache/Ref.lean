import ScorecardInfra.GoStd.Filepath
import ScorecardInfra.GoStd.Utf8
import ScorecardInfra.Interaction.Failure

/-!
# References to repositories and the keys of their results

`ParseRepoRef` accepts the references with one of two hosts and two segments that are proper names;
`ParseCommit` accepts the empty string, for the latest result, and full SHAs, which it writes in
lower case. The values that they return carry what was checked as fields.

`Key` joins the parts of a reference, the commit if there is one, and a file name to the key of the
stored result. For a commit of any origin `path.Join` also cleans the key, so that a commit with
slashes and dots may lead elsewhere; for what the two parsers return it does not, and the key
determines the reference and the commit (`key_inj`).

## Main definitions

* `validateSegment`, `RepoRef`, `parseRepoRef`, `isFullSHA`, `Commit`, `parseCommit`, `key`.

## Main results

* `segments_key`, `key_inj`.

Source: `internal/model/ref.go`, `internal/store/store.go`, lines 137–145.
-/

namespace ScorecardInfra.Cache

open GoStd GoStd.Filepath Interaction

/-! ### Segments -/

/-- The errors of `ParseRepoRef` and `ParseCommit`; a segment's error names its kind. -/
inductive RefError : Type
  | unsupportedHost (host : String)
  | segmentEmpty (kind : String)
  | segmentRelative (kind s : String)
  | segmentSeparator (kind : String)
  | segmentControl (kind : String)
  | invalidCommit (sha : String)
  deriving DecidableEq, Repr

/-- `validateSegment`. -/
def validateSegment (kind s : String) : Except RefError Unit := do
  refuseIf (s == "") (.segmentEmpty kind)
  refuseIf (s == "." || s == "..") (.segmentRelative kind s)
  refuseIf (s.toList.any fun c => c == '/' || c == '\\') (.segmentSeparator kind)
  refuseIf (s.toList.any fun c => decide (c.toNat < 0x20) || c.toNat == 0x7f) (.segmentControl kind)

/-- A segment that `validateSegment` accepts. -/
structure ValidSegment (s : String) : Prop where
  isName : IsName s.toList
  separator_notMem : '\\' ∉ s.toList
  not_control : ∀ c ∈ s.toList, 0x20 ≤ c.toNat ∧ c.toNat ≠ 0x7f

theorem validateSegment_eq_ok {kind s : String} {u : Unit} :
    validateSegment kind s = .ok u ↔ ValidSegment s := by
  simp only [validateSegment, except_bind_eq_ok, refuseIf_eq_ok, exists_const, Bool.or_eq_false_iff,
    beq_eq_false_iff_ne, List.any_eq_false, Bool.or_eq_true, beq_iff_eq, decide_eq_true_eq, not_or,
    Nat.not_lt]
  constructor
  · rintro ⟨hne, ⟨hdot, hdotdot⟩, hsep, hcontrol⟩
    refine ⟨⟨?_, ?_, ?_, fun h => (hsep _ h).1 rfl⟩, fun h => (hsep _ h).2 rfl, hcontrol⟩
    · exact fun h => hne (String.toList_inj.mp h)
    · exact fun h => hdot (String.toList_inj.mp h)
    · exact fun h => hdotdot (String.toList_inj.mp h)
  · rintro ⟨hname, hsep, hcontrol⟩
    refine ⟨?_, ⟨?_, ?_⟩, ?_, hcontrol⟩
    · rintro rfl
      exact hname.ne_nil rfl
    · rintro rfl
      exact hname.ne_dot rfl
    · rintro rfl
      exact hname.ne_dotdot rfl
    · intro c hc
      exact ⟨fun h => hname.slash_notMem (h ▸ hc), fun h => hsep (h ▸ hc)⟩

/-! ### References -/

/-- `HostGitHub`. -/
def hostGitHub : String := "github.com"

/-- `HostGitLab`. -/
def hostGitLab : String := "gitlab.com"

/-- A rune in lower case, as far as that is ASCII; U+0130 is i and U+212A is k. -/
def lowerRune (r : Option (List Char)) : List Char :=
  if r = some ['\xc4', '\xb0'] then ['i']
  else if r = some ['\xe2', '\x84', '\xaa'] then ['k']
  else match r with
    | some [c] => [c.toLower]
    | r => Utf8.runeBytes r

/-- `strings.ToLower` of a host. -/
def lowerHost (host : String) : String := String.ofList ((Utf8.runes host.toList).flatMap lowerRune)

/-- A reference that `ParseRepoRef` returned. -/
@[ext] structure RepoRef where
  host : String
  org : String
  repo : String
  host_supported : host = hostGitHub ∨ host = hostGitLab
  org_valid : ValidSegment org
  repo_valid : ValidSegment repo

namespace RepoRef

instance : DecidableEq RepoRef := fun r r' =>
  decidable_of_iff (r.host = r'.host ∧ r.org = r'.org ∧ r.repo = r'.repo)
    ⟨fun ⟨hhost, horg, hrepo⟩ => RepoRef.ext hhost horg hrepo, fun h => h ▸ ⟨rfl, rfl, rfl⟩⟩

/-- `RepoRef.Name`. -/
def name (r : RepoRef) : String := r.host ++ "/" ++ r.org ++ "/" ++ r.repo

end RepoRef

/-- A check with its proof. -/
def check (kind s : String) : Except RefError (PLift (ValidSegment s)) :=
  match h : validateSegment kind s with
  | .ok _ => .ok ⟨validateSegment_eq_ok.mp h⟩
  | .error e => .error e

/-- `ParseRepoRef`.

Source: `internal/model/ref.go`, lines 54–71. -/
def parseRepoRef (host org repo : String) : Except RefError RepoRef :=
  let host := lowerHost (if host = "" then hostGitHub else host)
  if hhost : host = hostGitHub ∨ host = hostGitLab then do
    let horg ← check "org" org
    let hrepo ← check "repo" repo
    return ⟨host, org, repo, hhost, horg.down, hrepo.down⟩
  else .error (.unsupportedHost host)

/-! ### Commits -/

/-- `commitRE`. -/
def isFullSHA (s : String) : Bool := s.toList.length == 40 && s.toList.all Hex.isDigit

/-- What `ParseCommit` returns: nothing, or a full SHA in lower case. -/
@[ext] structure Commit where
  sha : String
  valid : sha = "" ∨ (isFullSHA sha = true ∧ ∀ c ∈ sha.toList, c.toLower = c)
  deriving DecidableEq

/-- The commit of latest results. -/
def Commit.latest : Commit := ⟨"", Or.inl rfl⟩

private theorem lower_isFullSHA {s : String} (h : isFullSHA s = true) :
    isFullSHA (Strings.toLower s) = true ∧ ∀ c ∈ (Strings.toLower s).toList, c.toLower = c := by
  have hall : ∀ c ∈ "0123456789abcdefABCDEF".toList,
      Hex.isDigit c.toLower = true ∧ c.toLower.toLower = c.toLower :=
    Strings.forall_mem_of_all (by decide)
  rw [isFullSHA, Bool.and_eq_true, List.all_eq_true] at h
  rw [isFullSHA, Strings.toLower, String.toList_map, List.length_map, Bool.and_eq_true]
  refine ⟨⟨h.1, ?_⟩, ?_⟩
  · rw [List.all_map, List.all_eq_true]
    exact fun c hc => (hall c (Hex.mem_of_isDigit (h.2 c hc))).1
  · intro c hc
    obtain ⟨d, hd, rfl⟩ := List.mem_map.mp hc
    exact (hall d (Hex.mem_of_isDigit (h.2 d hd))).2

/-- `ParseCommit`.

Source: `internal/model/ref.go`, lines 82–90. -/
def parseCommit (sha : String) : Except RefError Commit :=
  if sha = "" then .ok .latest
  else if h : isFullSHA sha = true then .ok ⟨Strings.toLower sha, Or.inr (lower_isFullSHA h)⟩
  else .error (.invalidCommit sha)

/-- A full SHA is a proper name. -/
theorem isName_of_isFullSHA {s : String} (h : isFullSHA s = true) : IsName s.toList := by
  rw [isFullSHA, Bool.and_eq_true, beq_iff_eq, List.all_eq_true] at h
  refine ⟨?_, ?_, ?_, ?_⟩
  · intro hs
    rw [hs] at h
    exact absurd h.1 (by decide)
  · intro hs
    rw [hs] at h
    exact absurd h.1 (by decide)
  · intro hs
    rw [hs] at h
    exact absurd h.1 (by decide)
  · exact fun hs => absurd (h.2 _ hs) (by decide)

/-! ### Keys -/

/-- `resultsObject`. -/
def resultsObject : String := "results.json"

/-- `Key`.

Source: `internal/store/store.go`, lines 137–145. -/
def key (ref : RepoRef) (commit : String) : String :=
  if commit = "" then join [ref.host, ref.org, ref.repo, resultsObject]
  else join [ref.host, ref.org, ref.repo, commit, resultsObject]

private theorem isName_host (ref : RepoRef) : IsName ref.host.toList := by
  rcases ref.host_supported with h | h
  · rw [h]
    exact ⟨by decide, by decide, by decide, by decide⟩
  · rw [h]
    exact ⟨by decide, by decide, by decide, by decide⟩

private theorem segments_join {elems : List String} (hne : elems ≠ [])
    (h : ∀ e ∈ elems, IsName e.toList) : segments (join elems) = elems.map String.toList := by
  have hnames : ∀ seg ∈ elems.map String.toList, IsName seg := by
    intro seg hseg
    obtain ⟨e, he, rfl⟩ := List.mem_map.mp hseg
    exact h e he
  have hsegs : segments (ofSegments (elems.map String.toList)) = elems.map String.toList :=
    segments_ofSegments (fun seg hseg => (hnames seg hseg).slash_notMem) (by simpa using hne)
  have hempty : ∀ e ∈ elems, e ≠ "" := by
    rintro e he rfl
    exact (h _ he).ne_nil rfl
  rw [join_eq_clean hne hempty, clean_eq_self (by rwa [hsegs]), hsegs]

/-- The segments of the key of a latest result, or of a full SHA. -/
theorem segments_key (ref : RepoRef) {commit : String}
    (h : commit = "" ∨ isFullSHA commit = true) :
    segments (key ref commit) = [ref.host.toList, ref.org.toList, ref.repo.toList] ++
      (if commit = "" then [] else [commit.toList]) ++ [resultsObject.toList] := by
  have hhost := isName_host ref
  have hobject : IsName resultsObject.toList := ⟨by decide, by decide, by decide, by decide⟩
  rw [key]
  split_ifs with hc
  · refine segments_join (List.cons_ne_nil _ _) fun e he => ?_
    simp only [List.mem_cons, List.not_mem_nil, or_false] at he
    rcases he with rfl | rfl | rfl | rfl
    exacts [hhost, ref.org_valid.isName, ref.repo_valid.isName, hobject]
  · refine segments_join (List.cons_ne_nil _ _) fun e he => ?_
    simp only [List.mem_cons, List.not_mem_nil, or_false] at he
    rcases he with rfl | rfl | rfl | rfl | rfl
    exacts [hhost, ref.org_valid.isName, ref.repo_valid.isName,
      isName_of_isFullSHA (h.resolve_left hc), hobject]

/-- **Keys.** The key of a latest result, or of a full SHA, determines the reference and the
commit. -/
theorem key_inj {r r' : RepoRef} {c c' : String} (hc : c = "" ∨ isFullSHA c = true)
    (hc' : c' = "" ∨ isFullSHA c' = true) : key r c = key r' c' ↔ r = r' ∧ c = c' := by
  constructor
  · intro h
    have hsegs := congrArg segments h
    rw [segments_key r hc, segments_key r' hc', List.append_cancel_right_eq] at hsegs
    simp only [List.cons_append, List.nil_append, List.cons.injEq, String.toList_inj] at hsegs
    obtain ⟨hhost, horg, hrepo, hcommit⟩ := hsegs
    refine ⟨RepoRef.ext hhost horg hrepo, ?_⟩
    split_ifs at hcommit with h₁ h₂ h₂
    · rw [h₁, h₂]
    · exact String.toList_inj.mp (List.cons.inj hcommit).1
  · rintro ⟨rfl, rfl⟩
    rfl

theorem Commit.valid_sha (c : Commit) : c.sha = "" ∨ isFullSHA c.sha = true :=
  c.valid.imp_right And.left

/-- The sample reference. -/
def sampleRef : RepoRef where
  host := hostGitHub
  org := "ossf"
  repo := "scorecard"
  host_supported := Or.inl rfl
  org_valid := ⟨⟨by decide, by decide, by decide, by decide⟩, by decide,
    Strings.forall_mem_of_all (by decide)⟩
  repo_valid := ⟨⟨by decide, by decide, by decide, by decide⟩, by decide,
    Strings.forall_mem_of_all (by decide)⟩

/-- The sample commit. -/
def sampleCommit : Commit :=
  ⟨"0123456789abcdef0123456789abcdef01234567", Or.inr
    ⟨by decide, Strings.forall_mem_of_all (by decide)⟩⟩

end ScorecardInfra.Cache
