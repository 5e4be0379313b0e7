import ScorecardInfra.Server.Membership

/-!
# Commit hashes in capitals

A commit hash in a workflow may have capitals. The verifier stores the hashes that it finds in lower
case (`markContains`) but looks a hash up as it is written, so that a hash with a capital is never
found among the commits of tags and releases, only by a comparison with a branch.

`query_new` says what a new verifier answers for a hash in any case. `sameAnswer_iff` says exactly
when the answers for a hash and for its lower-case form agree.

## Main definitions

* `IgnoresCase`, `Recorded`, `branchesToAsk`, `OnBranch`.

## Main results

* `query_new`, `sameAnswer_iff`, `exists_other_answer`.

Source: `api/app/server/github_verifier.go`, lines 58–204.
-/

namespace ScorecardInfra.Server

open GoStd Interaction

namespace GithubState

open GithubVerifier

variable (S : GithubState) (rest : (o : ApiOp) → ApiSig.Ans o) (L : Libraries)

/-- A comparison does not depend on the case of the hash. -/
def IgnoresCase : Prop := ∀ owner repo base hash,
  S.status owner repo base (Strings.toLower hash) = S.status owner repo base hash

/-- The hashes of the listed tags and releases are in lower case. -/
def ReportsLowerCase : Prop := ∀ owner repo,
  (∀ t ∈ S.tags owner repo, t.commitSHA.map Strings.toLower = t.commitSHA) ∧
    ∀ target ∈ (S.releases owner repo).reduceOption,
      isCommitHash target = true → Strings.toLower target = target

/-- The commit of a listed tag, or the target of a listed release outside `github/codeql-action`. -/
def Recorded (c : Commit) : Prop :=
  S.Tagged c ∨ (isCodeQL c.owner c.repo = false ∧ S.Released c)

/-- The branches that are asked after the default branch: those that the highest stored major
version of `github/codeql-action` gives rise to, or the target branches of the releases. -/
def branchesToAsk (owner repo : String) : Except (Stop ServerError) (List String) :=
  if isCodeQL owner repo then
    outcome (S.answer rest) (getCodeQLReleaseBranches L
      ((S.tags owner repo).foldl (storeTag L owner repo) newGitHubVerifier))
  else .ok ((S.releases owner repo).reduceOption.filter fun target =>
    !isCommitHash target).eraseDups

/-- One of the first ten of these branches, apart from the default branch, has the commit. -/
def OnOneOf (c : Commit) (branches : List String) : Prop :=
  ∃ branch ∈ (branches.filter (· != S.defaultBranch c.owner c.repo)).take 10,
    S.Within c.owner c.repo branch c.hash

/-- There are branches to ask, and one that is asked has the commit. -/
def OnBranch (c : Commit) : Prop :=
  ∃ branches, S.branchesToAsk rest L c.owner c.repo = .ok branches ∧ S.OnOneOf c branches

/-- The commit with its hash in lower case. -/
def lower (c : Commit) : Commit := { c with hash := Strings.toLower c.hash }

instance (c : Commit) : Decidable (S.Recorded c) := inferInstanceAs (Decidable (_ ∨ _))

instance (c : Commit) (branches : List String) : Decidable (S.OnOneOf c branches) :=
  inferInstanceAs (Decidable (∃ branch ∈ _, _))

variable {S rest L} {c : Commit} {client : GithubClient}

/-! ### A new verifier -/

/-- The commits that a new verifier has cached after the tags are those of tags. -/
theorem mem_tagged : c ∈ ((S.tags c.owner c.repo).foldl (storeTag L c.owner c.repo)
    newGitHubVerifier).cachedCommits ↔ S.Tagged c := by
  rw [mem_foldl_storeTag, Tagged]
  simp only [newGitHubVerifier, List.not_mem_nil, or_false, Option.map_eq_some_iff]
  refine exists_congr fun t => and_congr_right fun _ => exists_congr fun sha =>
    and_congr_right fun _ => ?_
  exact ⟨fun h => by rw [h], fun h => by rw [h]⟩

/-- The releases add their target commits. -/
theorem mem_released {g : GithubVerifier} (hg : c ∉ g.cachedCommits) :
    c ∈ ((S.releases c.owner c.repo).foldl (storeRelease c.owner c.repo) ([], g)).2.cachedCommits ↔
      S.Released c := by
  rw [mem_foldl_storeRelease, or_iff_left hg, Released]
  refine exists_congr fun target => and_congr_right fun _ => and_congr_right fun _ => ?_
  exact ⟨fun h => by rw [h], fun h => by rw [h]⟩

theorem found_fst {P : Prop} [Decidable P] {owner repo hash : String} {g : GithubVerifier} :
    (found P owner repo hash g).1 = decide P := by
  rw [found]
  split_ifs with h <;> simp [h]

/-- The release branches, if no tag has the commit and the default branch has not. -/
theorem outcome_checkReleaseBranches (htag : ¬S.Tagged c) :
    (outcome (S.answer rest) (checkReleaseBranches L client c.owner c.repo c.hash
      (S.defaultBranch c.owner c.repo) 10 ((S.tags c.owner c.repo).foldl
        (storeTag L c.owner c.repo) newGitHubVerifier))).map Prod.fst =
      if isCodeQL c.owner c.repo = false ∧ S.Released c then .ok true
      else (S.branchesToAsk rest L c.owner c.repo).map fun branches =>
        decide (S.OnOneOf c branches) := by
  rw [checkReleaseBranches, branchesToAsk]
  cases hcodeql : isCodeQL c.owner c.repo with
  | true =>
    rw [if_pos rfl, if_pos rfl, if_neg (by simp), outcome_bind]
    cases outcome (S.answer rest) (getCodeQLReleaseBranches L _) with
    | error e => rfl
    | ok branches =>
      change (outcome _ (checkBranches _ _ _ _ _ branches 10 _)).map _ = _
      rw [outcome_checkBranches]
      exact congrArg Except.ok found_fst
  | false =>
    have hbranches := foldl_storeRelease_fst c.owner c.repo (S.releases c.owner c.repo)
      ([], (S.tags c.owner c.repo).foldl (storeTag L c.owner c.repo) newGitHubVerifier)
    have hcached := mem_released (S := S) fun h => htag (mem_tagged (L := L).mp h)
    rw [if_neg Bool.false_ne_true, if_neg Bool.false_ne_true,
      outcome_bind_ok outcome_getReleaseBranches]
    by_cases hreleased : S.Released c
    · have hmem := List.contains_iff_mem.mpr (hcached.mpr hreleased)
      rw [if_pos (⟨rfl, hreleased⟩ : false = false ∧ S.Released c)]
      exact congrArg (fun x : Api _ => (outcome (S.answer rest) x).map Prod.fst) (if_pos hmem)
    · have hmem := fun h => hreleased (hcached.mp (List.contains_iff_mem.mp h))
      rw [if_neg (fun h : false = false ∧ S.Released c => hreleased h.2)]
      refine (congrArg (fun x : Api _ => (outcome (S.answer rest) x).map Prod.fst)
        (if_neg hmem)).trans ?_
      rw [outcome_checkBranches, hbranches, foldl_insert_eq_append_eraseDups]
      refine congrArg Except.ok (found_fst.trans (decide_eq_decide.mpr ?_))
      simp only [OnOneOf, List.nil_append, List.contains_nil, Bool.not_false, List.filter_true]

/-- **A new verifier** finds a commit that is recorded under its hash as it is written, or that a
comparison finds. -/
theorem query_new (S : GithubState) (rest : (o : ApiOp) → ApiSig.Ans o) (L : Libraries)
    (client : GithubClient) (c : Commit) :
    (S.query rest L client c newGitHubVerifier).1 =
      if S.Recorded c ∨ S.OnDefault c then .ok true
      else (S.branchesToAsk rest L c.owner c.repo).map fun branches =>
        decide (S.OnOneOf c branches) := by
  have hquery : (S.query rest L client c newGitHubVerifier).1 =
      (outcome (S.answer rest) (newGitHubVerifier.contains L client c)).map Prod.fst := by
    rw [query]
    cases outcome (S.answer rest) (newGitHubVerifier.contains L client c) <;> rfl
  rw [hquery, GithubVerifier.contains, if_neg (by simp [newGitHubVerifier]),
    outcome_bind_ok outcome_getTags]
  by_cases htag : S.Tagged c
  · rw [if_pos (List.contains_iff_mem.mpr (mem_tagged.mpr htag)),
      if_pos (show S.Recorded c ∨ S.OnDefault c from Or.inl (Or.inl htag))]
    rfl
  rw [if_neg (fun h => htag (mem_tagged.mp (List.contains_iff_mem.mp h))), containsInBranches,
    outcome_bind_ok outcome_defaultBranch, outcome_bind_ok (outcome_branchContains _ _)]
  by_cases hdefault : S.OnDefault c
  · have hfound : ∀ g, found (S.Within c.owner c.repo (S.defaultBranch c.owner c.repo) c.hash)
        c.owner c.repo c.hash g = (true, g.markContains c.owner c.repo c.hash) :=
      fun g => if_pos hdefault
    rw [hfound, if_pos (show S.Recorded c ∨ S.OnDefault c from Or.inr hdefault)]
    rfl
  · have hfound : ∀ g, found (S.Within c.owner c.repo (S.defaultBranch c.owner c.repo) c.hash)
        c.owner c.repo c.hash g = (false, g) := fun g => if_neg hdefault
    rw [hfound]
    refine (outcome_checkReleaseBranches htag).trans (if_congr ?_ rfl rfl)
    rw [Recorded, or_iff_right htag, or_iff_left hdefault]

/-! ### Two cases of one hash -/

/-- The condition under which the case of a hash makes no difference: the hash is in lower case, a
comparison finds the commit, or no tag and no release names it. -/
def CaseSafe (S : GithubState) (rest : (o : ApiOp) → ApiSig.Ans o) (L : Libraries)
    (c : Commit) : Prop :=
  lower c = c ∨ S.OnDefault c ∨ S.OnBranch rest L c ∨ ¬S.Recorded (lower c)

/-- What is recorded is recorded in lower case. -/
theorem lower_eq_of_recorded (h : S.Recorded c) : lower c = c := by
  have hhash : ∀ sha, Strings.toLower sha = c.hash → lower c = c := by
    intro sha hsha
    rw [lower, ← hsha, Strings.toLower_toLower, hsha]
  rcases h with ⟨t, -, ht⟩ | ⟨-, target, -, -, htarget⟩
  · obtain ⟨sha, -, hsha⟩ := Option.map_eq_some_iff.mp ht
    exact hhash sha hsha
  · exact hhash target htarget

theorem within_lower (h : S.IgnoresCase) (c : Commit) (branch : String) :
    S.Within (lower c).owner (lower c).repo branch (lower c).hash ↔
      S.Within c.owner c.repo branch c.hash := by
  dsimp only [Within, lower]
  rw [h]

/-- A new verifier, for a hash in lower case. -/
theorem query_lower (S : GithubState) (h : S.IgnoresCase) (rest : (o : ApiOp) → ApiSig.Ans o)
    (L : Libraries) (client : GithubClient) (c : Commit) :
    (S.query rest L client (lower c) newGitHubVerifier).1 =
      if S.Recorded (lower c) ∨ S.OnDefault c then .ok true
      else (S.branchesToAsk rest L c.owner c.repo).map fun branches =>
        decide (S.OnOneOf c branches) := by
  have hdefault : S.OnDefault (lower c) ↔ S.OnDefault c := within_lower h c _
  have hbranches : ∀ branches, S.OnOneOf (lower c) branches ↔ S.OnOneOf c branches :=
    fun branches => exists_congr fun branch => and_congr_right fun _ => within_lower h c branch
  rw [query_new]
  simp only [hdefault, hbranches]
  rfl

/-- **The case of a hash.** A new verifier answers for a commit as it does for the commit with its
hash in lower case, if and only if the case makes no difference. -/
theorem sameAnswer_iff (S : GithubState) (h : S.IgnoresCase) (rest : (o : ApiOp) → ApiSig.Ans o)
    (L : Libraries) (client : GithubClient) (c : Commit) :
    (S.query rest L client c newGitHubVerifier).1 =
        (S.query rest L client (lower c) newGitHubVerifier).1 ↔ S.CaseSafe rest L c := by
  rw [query_lower S h, query_new]
  by_cases hlower : lower c = c
  · rw [hlower]
    exact iff_of_true rfl (Or.inl hlower)
  by_cases hon : S.OnDefault c
  · rw [if_pos (Or.inr hon), if_pos (Or.inr hon)]
    exact iff_of_true rfl (Or.inr (Or.inl hon))
  have hrecorded : ¬S.Recorded c := fun h => hlower (lower_eq_of_recorded h)
  rw [CaseSafe, or_iff_right hlower, or_iff_right hon, if_neg (not_or.mpr ⟨hrecorded, hon⟩)]
  by_cases hlow : S.Recorded (lower c)
  · rw [if_pos (Or.inl hlow), or_iff_left (not_not.mpr hlow), OnBranch]
    cases S.branchesToAsk rest L c.owner c.repo with
    | error e => simp [Except.map]
    | ok branches => simp [Except.map]
  · rw [if_neg (not_or.mpr ⟨hlow, hon⟩)]
    exact iff_of_true rfl (Or.inr hlow)

/-- One tag names a commit, and no branch has it. -/
def taggedOnly : GithubState where
  tags _ _ := [⟨"v1", some sampleCommit⟩]
  defaultBranch _ _ := "main"
  releases _ _ := []
  status _ _ _ _ := some "diverged"

/-- The hash of the tag's commit in capitals. -/
def capitalCommit : String := "DA39A3EE5E6B4B0D3255BFEF95601890AFD80709"

theorem toLower_capitalCommit : Strings.toLower capitalCommit = sampleCommit := by
  refine String.toList_inj.mp ?_
  rw [Strings.toLower, String.toList_map]
  decide

theorem ignoresCase_taggedOnly : taggedOnly.IgnoresCase := fun _ _ _ _ => rfl

theorem not_within_taggedOnly (owner repo base hash : String) :
    ¬taggedOnly.Within owner repo base hash := by
  rintro (h | h) <;> exact absurd (Option.some.inj h) (by decide)

theorem sameAnswer_iff_taggedOnly :
    (taggedOnly.query sampleAnswer sampleLibraries ⟨none⟩ ⟨"actions", "checkout", capitalCommit⟩
        newGitHubVerifier).1 =
      (taggedOnly.query sampleAnswer sampleLibraries ⟨none⟩
        (lower ⟨"actions", "checkout", capitalCommit⟩) newGitHubVerifier).1 ↔
      taggedOnly.CaseSafe sampleAnswer sampleLibraries ⟨"actions", "checkout", capitalCommit⟩ :=
  sameAnswer_iff taggedOnly ignoresCase_taggedOnly _ _ _ _

/-- **A commit that is not found in capitals.** The tag names it in lower case. -/
theorem exists_other_answer :
    taggedOnly.IgnoresCase ∧ taggedOnly.ReportsLowerCase ∧
      isCommitHash capitalCommit = true ∧ Strings.toLower capitalCommit = sampleCommit ∧
      (taggedOnly.query sampleAnswer sampleLibraries ⟨none⟩ ⟨"actions", "checkout", capitalCommit⟩
        newGitHubVerifier).1 = .ok false ∧
      (taggedOnly.query sampleAnswer sampleLibraries ⟨none⟩ ⟨"actions", "checkout", sampleCommit⟩
        newGitHubVerifier).1 = .ok true := by
  have hcodeql : isCodeQL "actions" "checkout" = false := by decide
  have hdefault : ∀ c, ¬taggedOnly.OnDefault c := fun c => not_within_taggedOnly _ _ _ _
  have hreleased : ∀ c, ¬taggedOnly.Released c := fun c ⟨_, h, _⟩ => absurd h List.not_mem_nil
  refine ⟨ignoresCase_taggedOnly, fun _ _ => ⟨?_, nofun⟩, by decide, toLower_capitalCommit, ?_, ?_⟩
  · intro t ht
    rw [List.mem_singleton.mp ht]
    exact congrArg some toLower_sampleCommit
  · have hrecorded : ¬taggedOnly.Recorded ⟨"actions", "checkout", capitalCommit⟩ := by
      rintro (⟨t, ht, hsha⟩ | ⟨-, h⟩)
      · rw [List.mem_singleton.mp ht] at hsha
        have heq : sampleCommit = capitalCommit :=
          toLower_sampleCommit.symm.trans (Option.some.inj hsha)
        exact absurd heq (by decide)
      · exact hreleased _ h
    rw [query_new, if_neg (not_or.mpr ⟨hrecorded, hdefault _⟩), branchesToAsk, hcodeql]
    refine congrArg Except.ok (decide_eq_false ?_)
    rintro ⟨branch, -, h⟩
    exact not_within_taggedOnly _ _ _ _ h
  · have hrecorded : taggedOnly.Recorded ⟨"actions", "checkout", sampleCommit⟩ :=
      Or.inl ⟨_, List.mem_singleton_self _, congrArg some toLower_sampleCommit⟩
    rw [query_new, if_pos (Or.inl hrecorded)]

end GithubState

end ScorecardInfra.Server
