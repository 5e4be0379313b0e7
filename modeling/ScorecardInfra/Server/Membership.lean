import Mathlib.Data.List.ReduceOption
import ScorecardInfra.Server.Publication

/-!
# Membership of commits against a fixed state of GitHub

One `githubVerifier` answers many queries, and what it has cached and the major version it has
stored are left over from the ones before. Against a fixed state of GitHub (`GithubState`) each
answer is nevertheless a function of the state and the commit (`verdict`): whether the commit
belongs to the repository (`Belongs`), or for `github/codeql-action` the error of
`parseCodeQLVersion` where the release branches have to be asked and their highest version is not a
positive `int`.

The invariant of the verifier (`Sound`) is that the cached commits have the verdict true and that
the stored major is none or the highest one.

## Main definitions

* `GithubState`, `GithubState.answer`.
* `SemverLaws`, `Belongs`, `verdict`.
* `query`, `queries`, `Sound`.

## Main results

* `outcome_checkBranches`: the loop over the branches.
* `query_of_sound`, `queries_eq_map_verdict`.

Source: `api/app/server/github_verifier.go`, lines 54–267.
-/

namespace ScorecardInfra.Server

open GoStd Interaction

/-! ### A state of GitHub -/

/-- What GitHub answers as long as its state is the same and no call fails: for each repository the
listed tags, the default branch, the target commitishes of the listed releases, and the status of
the comparison of a base and a head, or `none` for two without a common ancestor. -/
structure GithubState where
  tags (owner repo : String) : List Tag
  defaultBranch (owner repo : String) : String
  releases (owner repo : String) : List (Option String)
  status (owner repo base head : String) : Option String

/-- What semantic versions mean to `golang.org/x/mod/semver`: the major version of a valid one is a
number, the `vN` of it is `semver.Major`, and it decides a comparison with another `vN`. A valid
version is greater than an invalid one. -/
structure SemverLaws (L : Libraries) (major : String → Nat) : Prop where
  semverMajor_eq : ∀ v, L.semverIsValid v = true → L.semverMajor v = "v" ++ toString (major v)
  gt_invalid : ∀ v w, L.semverIsValid v = true → L.semverIsValid w = false →
    L.semverCompare v w = .gt
  not_valid_empty : L.semverIsValid "" = false
  gt_of_lt : ∀ v n, L.semverIsValid v = true → n < major v →
    L.semverCompare v ("v" ++ toString n) = .gt
  lt_of_lt : ∀ v n, L.semverIsValid v = true → major v < n →
    L.semverCompare v ("v" ++ toString n) = .lt

namespace GithubState

/-- What a comparison returns: the status, or an error for two without a common ancestor. -/
def compareResult : Option String → Except GithubError String
  | none => .error ⟨"404 No common ancestor", some 404⟩
  | some status => .ok status

variable (S : GithubState) (rest : (o : ApiOp) → ApiSig.Ans o)

/-- The answers of GitHub in a state; the verifier has no use for those of other operations. -/
def answer : (o : ApiOp) → ApiSig.Ans o
  | .github _ (.get owner repo) => .ok (some (S.defaultBranch owner repo))
  | .github _ (.listTags owner repo _) => .ok (S.tags owner repo)
  | .github _ (.listReleases owner repo _) => .ok (S.releases owner repo)
  | .github _ (.compareCommits owner repo base head _) =>
    compareResult (S.status owner repo base head)
  | o => rest o

/-! ### Which commits belong to a repository -/

/-- A commit at or behind the base of a comparison. -/
def Within (owner repo base hash : String) : Prop :=
  S.status owner repo base hash = some "behind" ∨ S.status owner repo base hash = some "identical"

/-- The commit of a listed tag. -/
def Tagged (c : Commit) : Prop :=
  ∃ t ∈ S.tags c.owner c.repo, t.commitSHA.map Strings.toLower = some c.hash

/-- A commit of the default branch. -/
def OnDefault (c : Commit) : Prop :=
  S.Within c.owner c.repo (S.defaultBranch c.owner c.repo) c.hash

/-- The target commit of a listed release. -/
def Released (c : Commit) : Prop :=
  ∃ target ∈ (S.releases c.owner c.repo).reduceOption,
    isCommitHash target = true ∧ Strings.toLower target = c.hash

variable (L : Libraries) (major : String → Nat)

/-- The major versions of the valid semver tags. -/
def majors (owner repo : String) : List Nat :=
  ((S.tags owner repo).filter fun t => L.semverIsValid t.name).map fun t => major t.name

/-- The highest major version. -/
def highestMajor (owner repo : String) : Option Nat := (S.majors L major owner repo).max?

/-- `releases/vN` down to `releases/v1`. -/
def codeQLBranches (n : Nat) : List String :=
  (List.range n).map fun i => "releases/v" ++ toString (n - i)

/-- The candidate branches: for `github/codeql-action` the release branches up to the highest major,
for others the target branches of the releases. -/
def candidates (owner repo : String) : List String :=
  if isCodeQL owner repo then (S.highestMajor L major owner repo).elim [] codeQLBranches
  else ((S.releases owner repo).reduceOption.filter fun target => !isCommitHash target).eraseDups

/-- The first ten candidates apart from the default branch. -/
def examined (owner repo : String) : List String :=
  ((S.candidates L major owner repo).filter (· != S.defaultBranch owner repo)).take 10

/-- A commit of one of the examined branches. -/
def OnCandidate (c : Commit) : Prop :=
  ∃ branch ∈ S.examined L major c.owner c.repo, S.Within c.owner c.repo branch c.hash

/-- **Membership.** The commit is that of a tag, is on the default branch, is the target of a
release of a repository other than `github/codeql-action`, or is on one of the examined branches. -/
def Belongs (c : Commit) : Prop :=
  S.Tagged c ∨ S.OnDefault c ∨ (isCodeQL c.owner c.repo = false ∧ S.Released c) ∨
    S.OnCandidate L major c

instance (owner repo base hash : String) : Decidable (S.Within owner repo base hash) :=
  inferInstanceAs (Decidable (_ ∨ _))

instance (c : Commit) : Decidable (S.Tagged c) := inferInstanceAs (Decidable (∃ t ∈ _, _))

instance (c : Commit) : Decidable (S.OnDefault c) := inferInstanceAs (Decidable (S.Within _ _ _ _))

instance (c : Commit) : Decidable (S.Released c) := inferInstanceAs (Decidable (∃ target ∈ _, _))

instance (c : Commit) : Decidable (S.OnCandidate L major c) :=
  inferInstanceAs (Decidable (∃ branch ∈ _, _))

instance (c : Commit) : Decidable (S.Belongs L major c) := inferInstanceAs (Decidable (_ ∨ _))

/-- The highest major version where it is not a positive `int` and the release branches of
`github/codeql-action` have to be asked. -/
def refusedMajor (c : Commit) : Option Nat :=
  if isCodeQL c.owner c.repo ∧ ¬S.Tagged c ∧ ¬S.OnDefault c then
    (S.highestMajor L major c.owner c.repo).filter fun n => n == 0 || 2 ^ 63 ≤ n
  else none

/-- The error for a major version that is not a positive `int`. -/
def invalidVersion (n : Nat) : ServerError :=
  .wrap "" (.sentinel .errInvalidCodeQLVersion) (": v" ++ toString n)

/-- The answer of a verifier, whatever it was asked before. -/
def verdict (c : Commit) : Except (Stop ServerError) Bool :=
  match S.refusedMajor L major c with
  | some n => .error (.error (invalidVersion n))
  | none => .ok (decide (S.Belongs L major c))

/-! ### Queries -/

variable (client : GithubClient)

/-- The answer to a query, and the verifier after it. A query that fails has stored the tags. -/
def query (c : Commit) (g : GithubVerifier) : Except (Stop ServerError) Bool × GithubVerifier :=
  match outcome (S.answer rest) (g.contains L client c) with
  | .ok r => (.ok r.1, r.2)
  | .error e =>
    (.error e, (S.tags c.owner c.repo).foldl (GithubVerifier.storeTag L c.owner c.repo) g)

/-- The answers to queries one after the other. -/
def queries : List Commit → GithubVerifier → List (Except (Stop ServerError) Bool)
  | [], _ => []
  | c :: cs, g =>
    (S.query rest L client c g).1 :: queries cs (S.query rest L client c g).2

end GithubState

namespace GithubVerifier

variable {L : Libraries} {major : String → Nat} {owner repo : String} {g : GithubVerifier}

/-! ### What the loops over tags and releases store -/

@[simp] theorem mem_markContains {sha : String} {c : Commit} :
    c ∈ (g.markContains owner repo sha).cachedCommits ↔
      c = ⟨owner, repo, Strings.toLower sha⟩ ∨ c ∈ g.cachedCommits :=
  List.mem_cons

@[simp] theorem markContains_codeqlActionMajor (sha : String) :
    (g.markContains owner repo sha).codeqlActionMajor = g.codeqlActionMajor := rfl

/-- Storing a tag caches its commit. -/
theorem mem_storeTag {t : Tag} {c : Commit} :
    c ∈ (storeTag L owner repo g t).cachedCommits ↔
      (∃ sha, t.commitSHA = some sha ∧ c = ⟨owner, repo, Strings.toLower sha⟩) ∨
        c ∈ g.cachedCommits := by
  have hcached : (storeTag L owner repo g t).cachedCommits = (match t.commitSHA with
      | none => g
      | some sha => g.markContains owner repo sha).cachedCommits := by
    unfold storeTag
    dsimp only
    split_ifs <;> rfl
  rw [hcached]
  cases t.commitSHA <;> simp

theorem mem_foldl_storeTag {tags : List Tag} {c : Commit} :
    c ∈ (tags.foldl (storeTag L owner repo) g).cachedCommits ↔
      (∃ t ∈ tags, ∃ sha, t.commitSHA = some sha ∧ c = ⟨owner, repo, Strings.toLower sha⟩) ∨
        c ∈ g.cachedCommits := by
  induction tags generalizing g with
  | nil => simp
  | cons t tags ih =>
    rw [List.foldl_cons, ih, mem_storeTag]
    rw [List.exists_mem_cons_iff, or_left_comm, or_assoc]

/-- The text of a stored major version. -/
def majorText : Option Nat → String
  | none => ""
  | some n => "v" ++ toString n

/-- The field after storing a tag. -/
theorem storeTag_codeqlActionMajor {t : Tag} :
    (storeTag L owner repo g t).codeqlActionMajor =
      if isCodeQL owner repo && L.semverIsValid t.name &&
        L.semverCompare t.name g.codeqlActionMajor == .gt then L.semverMajor t.name
      else g.codeqlActionMajor := by
  unfold storeTag
  cases t.commitSHA with
  | none =>
    dsimp only
    split_ifs <;> rfl
  | some sha =>
    dsimp only [markContains]
    split_ifs <;> rfl

theorem foldl_storeTag_codeqlActionMajor_of_not (h : isCodeQL owner repo = false)
    (tags : List Tag) :
    (tags.foldl (storeTag L owner repo) g).codeqlActionMajor = g.codeqlActionMajor := by
  induction tags generalizing g with
  | nil => rfl
  | cons t tags ih =>
    rw [List.foldl_cons, ih, storeTag_codeqlActionMajor, h]
    rfl

theorem storeTag_of_not_valid {t : Tag} (hvalid : ¬L.semverIsValid t.name = true) :
    (storeTag L owner repo g t).codeqlActionMajor = g.codeqlActionMajor := by
  rw [storeTag_codeqlActionMajor, if_neg]
  simp [hvalid]

/-- Storing a valid tag stores the higher one of its major version and the one before. -/
theorem storeTag_of_valid (hsem : SemverLaws L major) (h : isCodeQL owner repo = true) {t : Tag}
    (hvalid : L.semverIsValid t.name = true) {m : Option Nat}
    (hm : g.codeqlActionMajor = majorText m) :
    (storeTag L owner repo g t).codeqlActionMajor =
      majorText (some (max (m.getD 0) (major t.name))) := by
  have hstored : (storeTag L owner repo g t).codeqlActionMajor =
      if L.semverCompare t.name (majorText m) = .gt then majorText (some (major t.name))
      else majorText m := by
    simp only [storeTag_codeqlActionMajor, h, hvalid, Bool.true_and, beq_iff_eq, hm,
      hsem.semverMajor_eq _ hvalid]
    rfl
  cases m with
  | none =>
    rw [Option.getD_none, Nat.zero_max]
    exact hstored.trans (if_pos (hsem.gt_invalid _ _ hvalid hsem.not_valid_empty))
  | some n =>
    rw [Option.getD_some]
    rcases lt_trichotomy n (major t.name) with hlt | rfl | hlt
    · rw [max_eq_right hlt.le]
      exact hstored.trans (if_pos (hsem.gt_of_lt _ _ hvalid hlt))
    · rw [hstored, ite_self, max_self]
    · rw [max_eq_left hlt.le]
      refine hstored.trans (if_neg fun hgt => ?_)
      cases hgt.symm.trans (hsem.lt_of_lt _ _ hvalid hlt)

/-- **The highest major.** Storing tags from a major version stores the highest of it and theirs. -/
theorem foldl_storeTag_codeqlActionMajor (hsem : SemverLaws L major)
    (h : isCodeQL owner repo = true) (tags : List Tag) {m : Option Nat}
    (hm : g.codeqlActionMajor = majorText m) :
    (tags.foldl (storeTag L owner repo) g).codeqlActionMajor = majorText (m.toList ++
      (tags.filter fun t => L.semverIsValid t.name).map fun t => major t.name).max? := by
  induction tags generalizing g m with
  | nil => cases m <;> simpa using hm
  | cons t tags ih =>
    rw [List.foldl_cons, List.filter_cons]
    by_cases hvalid : L.semverIsValid t.name = true
    · rw [if_pos hvalid, List.map_cons, ih (storeTag_of_valid hsem h hvalid hm)]
      cases m with
      | none => rw [Option.getD_none, Nat.zero_max, Option.toList_none, List.nil_append]; rfl
      | some n => rfl
    · rw [if_neg hvalid, ih ((storeTag_of_not_valid hvalid).trans hm)]

/-- Releases without a target are skipped. -/
theorem foldl_storeRelease_reduceOption (owner repo : String) (releases : List (Option String))
    (s : List String × GithubVerifier) : releases.foldl (storeRelease owner repo) s =
      releases.reduceOption.foldl (fun s target => storeRelease owner repo s (some target)) s := by
  induction releases generalizing s with
  | nil => rfl
  | cons r releases ih =>
    cases r with
    | none => exact ih s
    | some target => exact ih _

/-- Storing releases caches the targets that are commits. -/
theorem mem_foldl_storeRelease {releases : List (Option String)} {s : List String × GithubVerifier}
    {c : Commit} :
    c ∈ (releases.foldl (storeRelease owner repo) s).2.cachedCommits ↔
      (∃ target ∈ releases.reduceOption, isCommitHash target = true ∧
        c = ⟨owner, repo, Strings.toLower target⟩) ∨ c ∈ s.2.cachedCommits := by
  rw [foldl_storeRelease_reduceOption]
  induction releases.reduceOption generalizing s with
  | nil => simp
  | cons target targets ih =>
    rw [List.foldl_cons, ih, List.exists_mem_cons_iff, storeRelease]
    split_ifs with h₁ h₂
    · rw [mem_markContains, and_iff_right h₁, or_left_comm, or_assoc]
    · rw [iff_false_intro h₁, false_and, false_or]
    · rw [iff_false_intro h₁, false_and, false_or]

theorem foldl_storeRelease_codeqlActionMajor (releases : List (Option String))
    (s : List String × GithubVerifier) :
    (releases.foldl (storeRelease owner repo) s).2.codeqlActionMajor = s.2.codeqlActionMajor := by
  rw [foldl_storeRelease_reduceOption]
  induction releases.reduceOption generalizing s with
  | nil => rfl
  | cons target targets ih =>
    rw [List.foldl_cons, ih, storeRelease]
    split_ifs <;> rfl

/-- The branches that storing releases collects. -/
theorem foldl_storeRelease_fst (owner repo : String) (releases : List (Option String))
    (s : List String × GithubVerifier) :
    (releases.foldl (storeRelease owner repo) s).1 =
      (releases.reduceOption.filter fun target => !isCommitHash target).foldl
        (fun s x => if s.contains x then s else s ++ [x]) s.1 := by
  rw [foldl_storeRelease_reduceOption]
  induction releases.reduceOption generalizing s with
  | nil => rfl
  | cons target targets ih =>
    rw [List.foldl_cons, ih, storeRelease]
    by_cases hhash : isCommitHash target = true
    · rw [if_pos hhash, List.filter_cons_of_neg (by rw [hhash]; decide)]
    · rw [if_neg hhash, List.filter_cons_of_pos (by simpa using hhash), List.foldl_cons]
      split_ifs <;> rfl

/-! ### The calls of the verifier against a fixed state -/

section Outcomes

variable {S : GithubState} {rest : (o : ApiOp) → ApiSig.Ans o} {client : GithubClient}

theorem outcome_getTags : outcome (S.answer rest) (getTags L client owner repo g) =
    .ok ((S.tags owner repo).foldl (storeTag L owner repo) g) := rfl

theorem outcome_defaultBranch :
    outcome (S.answer rest) (defaultBranch client owner repo) = .ok (S.defaultBranch owner repo) :=
  rfl

theorem outcome_getReleaseBranches :
    outcome (S.answer rest) (getReleaseBranches client owner repo g) =
      .ok ((S.releases owner repo).foldl (storeRelease owner repo) ([], g)) := rfl

/-- What a comparison that finds the commit if `P` leaves behind. -/
def found (P : Prop) [Decidable P] (owner repo hash : String) (g : GithubVerifier) :
    Bool × GithubVerifier :=
  if P then (true, g.markContains owner repo hash) else (false, g)

theorem outcome_branchContains (branch hash : String) :
    outcome (S.answer rest) (branchContains client branch owner repo hash g) =
      .ok (found (S.Within owner repo branch hash) owner repo hash g) := by
  have hcall : outcome (S.answer rest) (branchContains client branch owner repo hash g) =
      outcome (S.answer rest) (compared owner repo hash g
        (GithubState.compareResult (S.status owner repo branch hash))) := rfl
  rw [hcall, found]
  cases hstatus : S.status owner repo branch hash with
  | none =>
    rw [if_neg (by simp [GithubState.Within, hstatus])]
    rfl
  | some status =>
    have hwithin : S.Within owner repo branch hash ↔ status = "behind" ∨ status = "identical" := by
      rw [GithubState.Within, hstatus, Option.some_inj, Option.some_inj]
    simp only [GithubState.compareResult, compared, hwithin, Bool.or_eq_true, beq_iff_eq]
    split_ifs <;> rfl

/-- **The loop over the branches** finds the commit if one of the first branches apart from the
default branch has it. -/
theorem outcome_checkBranches (hash default : String) (branches : List String) (n : Nat) :
    outcome (S.answer rest) (checkBranches client owner repo hash default branches n g) =
      .ok (found (∃ branch ∈ (branches.filter (· != default)).take n,
        S.Within owner repo branch hash) owner repo hash g) := by
  induction branches generalizing n with
  | nil =>
    rw [found, if_neg (by simp)]
    cases n <;> rfl
  | cons branch branches ih =>
    cases n with
    | zero =>
      rw [found, if_neg (by simp)]
      rfl
    | succ n =>
      rw [checkBranches]
      by_cases hdefault : branch = default
      · rw [if_pos (beq_iff_eq.mpr hdefault), ih, List.filter_cons_of_neg (by simpa using hdefault)]
      · rw [if_neg (by simpa using hdefault), List.filter_cons_of_pos (by simpa using hdefault),
          List.take_succ_cons, outcome_bind, outcome_branchContains]
        simp only [List.exists_mem_cons_iff]
        by_cases hwithin : S.Within owner repo branch hash
        · rw [found, if_pos hwithin, found, if_pos (Or.inl hwithin)]
          rfl
        · rw [found, if_neg hwithin]
          refine (ih n).trans ?_
          simp only [found, iff_false_intro hwithin, false_or]

/-- The version of the stored major. -/
theorem parseCodeQLVersion_majorText (n : Nat) :
    parseCodeQLVersion (majorText (some n)) =
      if n = 0 ∨ 2 ^ 63 ≤ n then .error (GithubState.invalidVersion n) else .ok n := by
  have hcut : Strings.cutPrefix (majorText (some n)) "v" = some (toString n) :=
    Strings.cutPrefix_eq_some.mpr rfl
  simp only [parseCodeQLVersion, hcut, atoi_toString]
  by_cases hint : n < 2 ^ 63
  · rw [if_pos hint]
    by_cases hzero : n = 0
    · rw [if_pos (Or.inl hzero), hzero]
      rfl
    · rw [if_neg (by omega)]
      dsimp only
      rw [if_neg (by omega), Int.toNat_natCast]
  · rw [if_neg hint, if_pos (Or.inr (Nat.le_of_not_lt hint))]
    rfl

/-- The release branches of `github/codeql-action`, if memory holds so many. -/
theorem outcome_getCodeQLReleaseBranches (S : GithubState) (rest : (o : ApiOp) → ApiSig.Ans o)
    {m : Option Nat} (hm : g.codeqlActionMajor = majorText m)
    (hfit : ∀ n, m = some n → n < 2 ^ 63 → n ≤ L.maxSlice) :
    outcome (S.answer rest) (getCodeQLReleaseBranches L g) =
      match m.filter fun n => n == 0 || 2 ^ 63 ≤ n with
      | some n => .error (.error (GithubState.invalidVersion n))
      | none => .ok (m.elim [] GithubState.codeQLBranches) := by
  rw [getCodeQLReleaseBranches, hm]
  cases m with
  | none => rfl
  | some n =>
    have hne : majorText (some n) ≠ "" := by
      intro h
      simpa [majorText] using congrArg (fun s => s.toList) h
    rw [if_neg hne, outcome_bind, outcome_ofExcept, parseCodeQLVersion_majorText]
    by_cases hrefused : n = 0 ∨ 2 ^ 63 ≤ n
    · rw [if_pos hrefused, Option.filter_some, if_pos (by simpa using hrefused)]
      rfl
    · rw [if_neg hrefused, Option.filter_some, if_neg (by simpa using hrefused)]
      have hle : n ≤ L.maxSlice := hfit n rfl (by omega)
      change outcome _ (if L.maxSlice < n then _ else _) = _
      rw [if_neg (by omega)]
      rfl

end Outcomes

end GithubVerifier

namespace GithubState

open GithubVerifier

variable {S : GithubState} {L : Libraries} {major : String → Nat} {c : Commit} {g : GithubVerifier}
  {rest : (o : ApiOp) → ApiSig.Ans o} {client : GithubClient}

/-! ### The verdict -/

theorem verdict_of_tagged (h : S.Tagged c) : S.verdict L major c = .ok true := by
  have hnone : S.refusedMajor L major c = none := if_neg fun h' => h'.2.1 h
  rw [verdict, hnone]
  exact congrArg Except.ok (decide_eq_true (Or.inl h))

theorem verdict_of_onDefault (h : S.OnDefault c) : S.verdict L major c = .ok true := by
  have hnone : S.refusedMajor L major c = none := if_neg fun h' => h'.2.2 h
  rw [verdict, hnone]
  exact congrArg Except.ok (decide_eq_true (Or.inr (Or.inl h)))

theorem verdict_of_not_codeQL (h : isCodeQL c.owner c.repo = false) :
    S.verdict L major c = .ok (decide (S.Belongs L major c)) := by
  have hnone : S.refusedMajor L major c = none := by
    refine if_neg fun h' => ?_
    rw [h] at h'
    exact Bool.false_ne_true h'.1
  rw [verdict, hnone]

/-- The verdict on a commit of `github/codeql-action` that is neither a tag's nor on the default
branch. -/
theorem verdict_codeQL (L : Libraries) (major : String → Nat)
    (h : isCodeQL c.owner c.repo = true) (htag : ¬S.Tagged c) (hdefault : ¬S.OnDefault c) :
    S.verdict L major c =
      match (S.highestMajor L major c.owner c.repo).filter fun n => n == 0 || 2 ^ 63 ≤ n with
      | some n => .error (.error (invalidVersion n))
      | none => .ok (decide (S.OnCandidate L major c)) := by
  have hbelongs : S.Belongs L major c ↔ S.OnCandidate L major c := by
    rw [Belongs, iff_false_intro htag, iff_false_intro hdefault, h]
    simp
  rw [verdict, refusedMajor, if_pos ⟨h, htag, hdefault⟩]
  simp only [hbelongs]

/-! ### The invariant of the verifier -/

/-- **The invariant.** The cached commits have the verdict true; the stored major is none or the
highest one of `github/codeql-action`. -/
structure Sound (S : GithubState) (L : Libraries) (major : String → Nat) (g : GithubVerifier) :
    Prop where
  verdict_of_mem : ∀ c ∈ g.cachedCommits, S.verdict L major c = .ok true
  major_eq : g.codeqlActionMajor = majorText none ∨
    g.codeqlActionMajor = majorText (S.highestMajor L major "github" "codeql-action")

theorem sound_new : S.Sound L major newGitHubVerifier := ⟨nofun, Or.inl rfl⟩

theorem isCodeQL_iff {owner repo : String} :
    isCodeQL owner repo = true ↔ owner = "github" ∧ repo = "codeql-action" := by
  rw [isCodeQL, Bool.and_eq_true, beq_iff_eq, beq_iff_eq]

private theorem max?_toList_append (l : List Nat) : (l.max?.toList ++ l).max? = l.max? := by
  cases h : l.max? with
  | none => exact h
  | some n =>
    obtain ⟨-, hle⟩ := List.max?_eq_some_iff.mp h
    exact List.max?_eq_some_iff.mpr ⟨List.mem_cons_self, by simpa using hle⟩

/-- After the tags of `github/codeql-action` the stored major is the highest one. -/
theorem Sound.codeqlActionMajor_eq (hsem : SemverLaws L major) (h : S.Sound L major g)
    {owner repo : String} (hcodeql : isCodeQL owner repo = true) :
    ((S.tags owner repo).foldl (storeTag L owner repo) g).codeqlActionMajor =
      majorText (S.highestMajor L major owner repo) := by
  obtain ⟨rfl, rfl⟩ := isCodeQL_iff.mp hcodeql
  rcases h.major_eq with hm | hm
  · exact foldl_storeTag_codeqlActionMajor hsem hcodeql _ hm
  · rw [foldl_storeTag_codeqlActionMajor hsem hcodeql _ hm]
    exact congrArg majorText (max?_toList_append _)

theorem Sound.storeTags (hsem : SemverLaws L major) (h : S.Sound L major g) (owner repo : String) :
    S.Sound L major ((S.tags owner repo).foldl (storeTag L owner repo) g) := by
  refine ⟨fun c hc => ?_, ?_⟩
  · rcases mem_foldl_storeTag.mp hc with ⟨t, ht, sha, hsha, rfl⟩ | hc
    · exact verdict_of_tagged ⟨t, ht, by rw [hsha]; rfl⟩
    · exact h.verdict_of_mem c hc
  · by_cases hcodeql : isCodeQL owner repo = true
    · rw [h.codeqlActionMajor_eq hsem hcodeql]
      obtain ⟨rfl, rfl⟩ := isCodeQL_iff.mp hcodeql
      exact Or.inr rfl
    · rw [foldl_storeTag_codeqlActionMajor_of_not (Bool.not_eq_true _ ▸ hcodeql)]
      exact h.major_eq

theorem Sound.storeReleases (h : S.Sound L major g) {owner repo : String}
    (hcodeql : isCodeQL owner repo = false) :
    S.Sound L major ((S.releases owner repo).foldl (storeRelease owner repo) ([], g)).2 := by
  refine ⟨fun c hc => ?_, ?_⟩
  · rcases mem_foldl_storeRelease.mp hc with ⟨target, htarget, hhash, rfl⟩ | hc
    · rw [verdict_of_not_codeQL hcodeql]
      exact congrArg Except.ok
        (decide_eq_true (Or.inr (Or.inr (Or.inl ⟨hcodeql, target, htarget, hhash, rfl⟩))))
    · exact h.verdict_of_mem c hc
  · rw [foldl_storeRelease_codeqlActionMajor]
    exact h.major_eq

theorem Sound.markContains (h : S.Sound L major g) (hlower : Strings.toLower c.hash = c.hash)
    (hc : S.verdict L major c = .ok true) :
    S.Sound L major (g.markContains c.owner c.repo c.hash) := by
  refine ⟨fun c' hc' => ?_, h.major_eq⟩
  rcases mem_markContains.mp hc' with rfl | hc'
  · rw [hlower]
    exact hc
  · exact h.verdict_of_mem c' hc'

/-! ### Queries -/

/-- An outcome of a query that has the verdict as its answer and keeps the invariant. -/
def Right (S : GithubState) (L : Libraries) (major : String → Nat) (c : Commit)
    (x : Except (Stop ServerError) (Bool × GithubVerifier)) : Prop :=
  x.map Prod.fst = S.verdict L major c ∧ ∀ r, x = .ok r → S.Sound L major r.2

theorem right_error {e : Stop ServerError} (h : S.verdict L major c = .error e) :
    S.Right L major c (.error e) :=
  ⟨h.symm, nofun⟩

theorem right_ok {b : Bool} (hg : S.Sound L major g) (h : S.verdict L major c = .ok b) :
    S.Right L major c (.ok (b, g)) := by
  refine ⟨h.symm, fun r hr => ?_⟩
  obtain rfl := Except.ok.inj hr
  exact hg

theorem right_found {P : Prop} [Decidable P] (hg : S.Sound L major g)
    (hlower : Strings.toLower c.hash = c.hash) (h : S.verdict L major c = .ok (decide P)) :
    S.Right L major c (.ok (found P c.owner c.repo c.hash g)) := by
  unfold found
  by_cases hP : P
  · rw [decide_eq_true hP] at h
    rw [if_pos hP]
    exact right_ok (hg.markContains hlower h) h
  · rw [decide_eq_false hP] at h
    rw [if_neg hP]
    exact right_ok hg h

/-- Memory holds the list of the release branches up to the highest major, if it is an `int`. -/
def BranchesFit (S : GithubState) (L : Libraries) (major : String → Nat) : Prop :=
  ∀ n, S.highestMajor L major "github" "codeql-action" = some n → n < 2 ^ 63 → n ≤ L.maxSlice

/-- The release branches of `github/codeql-action`. -/
theorem right_checkReleaseBranches_codeQL (hfit : S.BranchesFit L major) (hg : S.Sound L major g)
    (hlower : Strings.toLower c.hash = c.hash) (htag : ¬S.Tagged c) (hdefault : ¬S.OnDefault c)
    (hcodeql : isCodeQL c.owner c.repo = true)
    (hmajor : g.codeqlActionMajor = majorText (S.highestMajor L major c.owner c.repo)) :
    S.Right L major c (outcome (S.answer rest) (checkReleaseBranches L client c.owner c.repo c.hash
      (S.defaultBranch c.owner c.repo) 10 g)) := by
  have hverdict := verdict_codeQL L major hcodeql htag hdefault
  have hfit' : ∀ n, S.highestMajor L major c.owner c.repo = some n → n < 2 ^ 63 →
      n ≤ L.maxSlice := by
    obtain ⟨howner, hrepo⟩ := isCodeQL_iff.mp hcodeql
    rw [howner, hrepo]
    exact hfit
  have hbranches := outcome_getCodeQLReleaseBranches S rest hmajor hfit'
  rw [checkReleaseBranches, if_pos hcodeql]
  cases hrefused : (S.highestMajor L major c.owner c.repo).filter fun n => n == 0 || 2 ^ 63 ≤ n with
  | some n =>
    rw [hrefused] at hverdict hbranches
    rw [outcome_bind_error hbranches]
    exact right_error hverdict
  | none =>
    rw [hrefused] at hverdict hbranches
    have hcandidates : S.candidates L major c.owner c.repo =
        (S.highestMajor L major c.owner c.repo).elim [] codeQLBranches := if_pos hcodeql
    rw [outcome_bind_ok hbranches, outcome_checkBranches, ← hcandidates]
    exact right_found hg hlower hverdict

/-- The targets of the releases of other repositories. -/
theorem right_checkReleaseBranches_releases (hg : S.Sound L major g)
    (hlower : Strings.toLower c.hash = c.hash) (htag : ¬S.Tagged c) (hdefault : ¬S.OnDefault c)
    (hcodeql : isCodeQL c.owner c.repo = false) :
    S.Right L major c (outcome (S.answer rest) (checkReleaseBranches L client c.owner c.repo c.hash
      (S.defaultBranch c.owner c.repo) 10 g)) := by
  have hg' := hg.storeReleases hcodeql
  have hbranches := foldl_storeRelease_fst c.owner c.repo (S.releases c.owner c.repo) ([], g)
  rw [checkReleaseBranches, if_neg (by rw [hcodeql]; decide),
    outcome_bind_ok outcome_getReleaseBranches]
  generalize hr : (S.releases c.owner c.repo).foldl (storeRelease c.owner c.repo) ([], g) = r
    at hg' hbranches
  by_cases hcached : c ∈ r.2.cachedCommits
  · rw [if_pos (List.contains_iff_mem.mpr hcached)]
    exact right_ok hg' (hg'.verdict_of_mem c hcached)
  · have hreleased : ¬S.Released c := by
      rintro ⟨target, htarget, hhash, heq⟩
      refine hcached ?_
      rw [← hr]
      exact mem_foldl_storeRelease.mpr (Or.inl ⟨target, htarget, hhash, by rw [heq]⟩)
    have hbelongs : S.Belongs L major c ↔ S.OnCandidate L major c := by
      rw [Belongs, iff_false_intro htag, iff_false_intro hdefault, iff_false_intro hreleased]
      simp
    have hcandidates : S.candidates L major c.owner c.repo = r.1 := by
      rw [hbranches, foldl_insert_eq_append_eraseDups, candidates, if_neg (by rw [hcodeql]; decide)]
      simp
    rw [if_neg (fun h => hcached (List.contains_iff_mem.mp h)), outcome_checkBranches,
      ← hcandidates]
    refine right_found hg' hlower ?_
    rw [verdict_of_not_codeQL hcodeql]
    simp only [hbelongs]
    rfl

/-- What follows a miss in the tags. -/
theorem right_containsInBranches (hfit : S.BranchesFit L major) (hg : S.Sound L major g)
    (hlower : Strings.toLower c.hash = c.hash) (htag : ¬S.Tagged c)
    (hmajor : isCodeQL c.owner c.repo = true →
      g.codeqlActionMajor = majorText (S.highestMajor L major c.owner c.repo)) :
    S.Right L major c (outcome (S.answer rest) (containsInBranches L client c g)) := by
  rw [containsInBranches, outcome_bind_ok outcome_defaultBranch,
    outcome_bind_ok (outcome_branchContains _ _)]
  by_cases hdefault : S.OnDefault c
  · have hfound : found (S.Within c.owner c.repo (S.defaultBranch c.owner c.repo) c.hash) c.owner
        c.repo c.hash g = (true, g.markContains c.owner c.repo c.hash) := if_pos hdefault
    rw [hfound]
    exact right_ok (hg.markContains hlower (verdict_of_onDefault hdefault))
      (verdict_of_onDefault hdefault)
  · have hfound : found (S.Within c.owner c.repo (S.defaultBranch c.owner c.repo) c.hash) c.owner
        c.repo c.hash g = (false, g) := if_neg hdefault
    rw [hfound]
    cases hcodeql : isCodeQL c.owner c.repo with
    | true =>
      exact right_checkReleaseBranches_codeQL hfit hg hlower htag hdefault hcodeql (hmajor hcodeql)
    | false => exact right_checkReleaseBranches_releases hg hlower htag hdefault hcodeql

theorem right_contains (rest : (o : ApiOp) → ApiSig.Ans o) (client : GithubClient)
    (hsem : SemverLaws L major) (hfit : S.BranchesFit L major)
    (hg : S.Sound L major g) (hlower : Strings.toLower c.hash = c.hash) :
    S.Right L major c (outcome (S.answer rest) (g.contains L client c)) := by
  rw [GithubVerifier.contains]
  by_cases hcached : c ∈ g.cachedCommits
  · rw [if_pos (List.contains_iff_mem.mpr hcached)]
    exact right_ok hg (hg.verdict_of_mem c hcached)
  · have hg' := hg.storeTags hsem c.owner c.repo
    rw [if_neg (fun h => hcached (List.contains_iff_mem.mp h)), outcome_bind_ok outcome_getTags]
    by_cases htagged :
        c ∈ ((S.tags c.owner c.repo).foldl (storeTag L c.owner c.repo) g).cachedCommits
    · rw [if_pos (List.contains_iff_mem.mpr htagged)]
      exact right_ok hg' (hg'.verdict_of_mem c htagged)
    · rw [if_neg (fun h => htagged (List.contains_iff_mem.mp h))]
      refine right_containsInBranches hfit hg' hlower ?_ fun hcodeql =>
        hg.codeqlActionMajor_eq hsem hcodeql
      rintro ⟨t, ht, hsha⟩
      obtain ⟨sha, hsha, heq⟩ := Option.map_eq_some_iff.mp hsha
      exact htagged (mem_foldl_storeTag.mpr (Or.inl ⟨t, ht, sha, hsha, by rw [heq]⟩))

/-- **One query** answers the verdict and keeps the invariant. -/
theorem query_of_sound (rest : (o : ApiOp) → ApiSig.Ans o) (client : GithubClient)
    (hsem : SemverLaws L major) (hfit : S.BranchesFit L major)
    (hg : S.Sound L major g) (hlower : Strings.toLower c.hash = c.hash) :
    (S.query rest L client c g).1 = S.verdict L major c ∧
      S.Sound L major (S.query rest L client c g).2 := by
  obtain ⟨hanswer, hnext⟩ := right_contains rest client hsem hfit hg hlower
  rw [query]
  cases hrun : outcome (S.answer rest) (g.contains L client c) with
  | ok r =>
    rw [hrun] at hanswer
    exact ⟨hanswer, hnext r hrun⟩
  | error e =>
    rw [hrun] at hanswer
    exact ⟨hanswer, hg.storeTags hsem _ _⟩

/-- **Any sequence of queries.** Each answer of one verifier is the verdict on the commit, whatever
was asked before. -/
theorem queries_eq_map_verdict (hsem : SemverLaws L major) (hfit : S.BranchesFit L major)
    (rest : (o : ApiOp) → ApiSig.Ans o) (client : GithubClient) {cs : List Commit}
    (hcs : ∀ c ∈ cs, Strings.toLower c.hash = c.hash) :
    S.queries rest L client cs newGitHubVerifier = cs.map (S.verdict L major) := by
  have hqueries : ∀ g, S.Sound L major g →
      S.queries rest L client cs g = cs.map (S.verdict L major) := by
    induction cs with
    | nil => exact fun _ _ => rfl
    | cons c cs ih =>
      intro g hg
      obtain ⟨hc, hcs⟩ := List.forall_mem_cons.mp hcs
      obtain ⟨hanswer, hg'⟩ := query_of_sound rest client hsem hfit hg hc
      rw [queries, hanswer, ih hcs _ hg', List.map_cons]
  exact hqueries _ sound_new

/-- The number after the first letter. -/
def majorOf (v : String) : Nat := Nat.ofDigitChars 10 (v.toList.drop 1) 0

/-- `vN` with a decimal number. -/
def isMajorVersion (v : String) : Bool := v == "v" ++ toString (majorOf v)

/-- Libraries for which the valid versions are `vN`. -/
def majorVersions : Libraries where
  __ := sampleLibraries
  semverIsValid := isMajorVersion
  semverCompare v w :=
    if isMajorVersion v then
      if isMajorVersion w then compare (majorOf v) (majorOf w) else .gt
    else if isMajorVersion w then .lt else .eq
  semverMajor := id

theorem majorOf_append (n : Nat) : majorOf ("v" ++ toString n) = n := by
  have hdigits : (toString n).toList = Nat.toDigits 10 n := String.toList_ofList
  rw [majorOf, String.toList_append, hdigits]
  exact Nat.ofDigitChars_ten_toDigits

theorem isMajorVersion_append (n : Nat) : isMajorVersion ("v" ++ toString n) = true := by
  rw [isMajorVersion, majorOf_append, beq_self_eq_true]

theorem semverLaws_majorVersions : SemverLaws majorVersions majorOf where
  semverMajor_eq _ h := beq_iff_eq.mp h
  gt_invalid v w hv hw := by
    change isMajorVersion v = true at hv
    change isMajorVersion w = false at hw
    change (if isMajorVersion v then if isMajorVersion w then _ else _ else _) = _
    rw [if_pos hv, if_neg (by rw [hw]; decide)]
  not_valid_empty := by decide
  gt_of_lt v n hv hn := by
    change isMajorVersion v = true at hv
    change (if isMajorVersion v then if isMajorVersion _ then _ else _ else _) = _
    rw [if_pos hv, if_pos (isMajorVersion_append n), majorOf_append]
    exact Nat.compare_eq_gt.mpr hn
  lt_of_lt v n hv hn := by
    change isMajorVersion v = true at hv
    change (if isMajorVersion v then if isMajorVersion _ then _ else _ else _) = _
    rw [if_pos hv, if_pos (isMajorVersion_append n), majorOf_append]
    exact Nat.compare_eq_lt.mpr hn

/-- `github/codeql-action` has the tag `vN`, and `releases/vN` has every commit. -/
def oneVersion (n : Nat) : GithubState where
  tags owner repo := if isCodeQL owner repo then [⟨"v" ++ toString n, none⟩] else []
  defaultBranch _ _ := "main"
  releases _ _ := []
  status _ _ base _ := if base = "releases/v" ++ toString n then some "behind" else some "diverged"

theorem isCodeQL_self : isCodeQL "github" "codeql-action" = true := by decide

theorem tags_oneVersion (n : Nat) :
    (oneVersion n).tags "github" "codeql-action" = [⟨"v" ++ toString n, none⟩] := by
  dsimp only [oneVersion]
  rw [if_pos isCodeQL_self]

theorem highestMajor_oneVersion (n : Nat) :
    (oneVersion n).highestMajor majorVersions majorOf "github" "codeql-action" = some n := by
  have hvalid : majorVersions.semverIsValid ("v" ++ toString n) = true := isMajorVersion_append n
  rw [highestMajor, majors, tags_oneVersion, List.filter_cons, if_pos hvalid, List.map_cons,
    majorOf_append]
  rfl

theorem main_ne_releases (n : Nat) : "main" ≠ "releases/v" ++ toString n := by
  intro h
  have hhead := congrArg (fun s => s.toList.head?) h
  simp at hhead

/-- The highest release branch is the first that is examined. -/
theorem onCandidate_oneVersion {n : Nat} (hn : 0 < n) (hash : String) :
    (oneVersion n).OnCandidate majorVersions majorOf ⟨"github", "codeql-action", hash⟩ := by
  have hstatus : (oneVersion n).status "github" "codeql-action" ("releases/v" ++ toString n) hash =
      some "behind" := by
    dsimp only [oneVersion]
    rw [if_pos rfl]
  refine ⟨"releases/v" ++ toString n, ?_, Or.inl hstatus⟩
  obtain ⟨k, rfl⟩ := Nat.exists_eq_succ_of_ne_zero hn.ne'
  have hdefault : ("releases/v" ++ toString k.succ !=
      (oneVersion k.succ).defaultBranch "github" "codeql-action") = true :=
    bne_iff_ne.mpr (main_ne_releases k.succ).symm
  rw [examined, candidates, if_pos isCodeQL_self, highestMajor_oneVersion, Option.elim_some,
    codeQLBranches, List.range_succ_eq_map, List.map_cons, Nat.sub_zero, List.filter_cons,
    if_pos hdefault, List.take_succ_cons]
  exact List.mem_cons_self

theorem not_onDefault_oneVersion (n : Nat) (c : Commit) : ¬(oneVersion n).OnDefault c := by
  have hstatus : (oneVersion n).status c.owner c.repo ((oneVersion n).defaultBranch c.owner c.repo)
      c.hash = some "diverged" := by
    dsimp only [oneVersion]
    rw [if_neg (main_ne_releases n)]
  rintro (h | h)
  · rw [hstatus] at h
    exact absurd (Option.some.inj h) (by decide)
  · rw [hstatus] at h
    exact absurd (Option.some.inj h) (by decide)

theorem toLower_sampleCommit : Strings.toLower sampleCommit = sampleCommit :=
  Strings.toLower_eq_self (Strings.forall_mem_of_all (by decide))

/-- Two queries for one commit and one for another repository. -/
theorem queries_eq_map_verdict_sample :
    (oneVersion 3).queries sampleAnswer majorVersions ⟨none⟩
        [⟨"github", "codeql-action", sampleCommit⟩, ⟨"ossf", "scorecard-action", sampleCommit⟩,
          ⟨"github", "codeql-action", sampleCommit⟩] newGitHubVerifier =
      [⟨"github", "codeql-action", sampleCommit⟩, ⟨"ossf", "scorecard-action", sampleCommit⟩,
        ⟨"github", "codeql-action", sampleCommit⟩].map
          ((oneVersion 3).verdict majorVersions majorOf) := by
  refine queries_eq_map_verdict semverLaws_majorVersions ?_ sampleAnswer ⟨none⟩ ?_
  · intro n hn _
    rw [highestMajor_oneVersion] at hn
    obtain rfl := Option.some.inj hn
    exact show 3 ≤ 2 ^ 44 by omega
  · simp only [List.forall_mem_cons, toLower_sampleCommit, List.not_mem_nil, false_imp_iff,
      implies_true, and_self]

/-- **A version that is not an `int`.** The commit is on the highest release branch,
`releases/v9223372036854775808`, and the answer is an error. -/
theorem exists_refused_belongs :
    isCommitHash sampleCommit = true ∧ Strings.toLower sampleCommit = sampleCommit ∧
      (oneVersion (2 ^ 63)).Belongs majorVersions majorOf
        ⟨"github", "codeql-action", sampleCommit⟩ ∧
      (oneVersion (2 ^ 63)).queries sampleAnswer majorVersions ⟨none⟩
        [⟨"github", "codeql-action", sampleCommit⟩] newGitHubVerifier =
          [.error (.error (invalidVersion (2 ^ 63)))] := by
  have hfit : (oneVersion (2 ^ 63)).BranchesFit majorVersions majorOf := by
    intro n hn hlt
    rw [highestMajor_oneVersion] at hn
    obtain rfl := Option.some.inj hn
    exact absurd hlt (Nat.lt_irrefl _)
  have htag : ¬(oneVersion (2 ^ 63)).Tagged ⟨"github", "codeql-action", sampleCommit⟩ := by
    rintro ⟨t, ht, hsha⟩
    rw [tags_oneVersion, List.mem_singleton] at ht
    rw [ht] at hsha
    cases hsha
  have hanswer := (query_of_sound sampleAnswer ⟨none⟩ semverLaws_majorVersions hfit sound_new
    (c := ⟨"github", "codeql-action", sampleCommit⟩) toLower_sampleCommit).1
  refine ⟨by decide, toLower_sampleCommit,
    Or.inr (Or.inr (Or.inr (onCandidate_oneVersion (Nat.two_pow_pos 63) _))), ?_⟩
  rw [queries, queries, hanswer,
    verdict_codeQL _ _ isCodeQL_self htag (not_onDefault_oneVersion _ _),
    highestMajor_oneVersion, Option.filter_some, if_pos (by simp)]

end GithubState

end ScorecardInfra.Server
