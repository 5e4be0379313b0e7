import ScorecardInfra.Cache.Ref
import ScorecardInfra.Server.GetResults

/-!
# The keys of the two servers

The deployed API and the result cache keep their results in one bucket. The API joins and cleans the
parts of a request, deletes CR and LF and matches what remains against a pattern (`sanitizeInputs`);
the cache validates the parts first and then joins them (`key`). For a reference and a commit that
the parsers of the cache return, the API's pipeline changes nothing and rejects nothing, so that
both address one object (`sanitizeInputs_eq_key`).

## Main results

* `sanitizeInputs_eq_key`.

Source: `internal/store/store.go`, lines 137–145; `api/app/server/get_results.go`, lines 103–122.
-/

namespace ScorecardInfra.Cache

open GoStd GoStd.Filepath Server

/-- The commit of a request to the API: none for the latest result. -/
def Commit.param (c : Commit) : Option String := if c.sha = "" then none else some c.sha

/-- Both servers join the same elements. -/
theorem join_keyElements (ref : RepoRef) (c : Commit) :
    join (keyElements ref.host ref.org ref.repo c.param) = key ref c.sha := by
  rw [Commit.param, key]
  split_ifs with h
  · rfl
  · rfl

/-- A segment that `validateSegment` accepts has no LF and no CR. -/
theorem ValidSegment.newline_notMem {s : String} (h : ValidSegment s) :
    '\n' ∉ s.toList ∧ '\r' ∉ s.toList :=
  ⟨fun hc => absurd (h.not_control _ hc).1 (by decide),
    fun hc => absurd (h.not_control _ hc).1 (by decide)⟩

theorem newline_notMem_of_isFullSHA {s : String} (h : isFullSHA s = true) :
    '\n' ∉ s.toList ∧ '\r' ∉ s.toList := by
  rw [isFullSHA, Bool.and_eq_true, List.all_eq_true] at h
  exact ⟨fun hc => absurd (h.2 _ hc) (by decide), fun hc => absurd (h.2 _ hc) (by decide)⟩

theorem RepoRef.newline_notMem_host (ref : RepoRef) :
    '\n' ∉ ref.host.toList ∧ '\r' ∉ ref.host.toList := by
  rcases ref.host_supported with h | h
  · rw [h]
    exact ⟨by decide, by decide⟩
  · rw [h]
    exact ⟨by decide, by decide⟩

/-- The names of a key: the parts of the reference and the commit, if there is one. -/
def keyNames (ref : RepoRef) (c : Commit) : List Segment :=
  [ref.host.toList, ref.org.toList, ref.repo.toList] ++
    (if c.sha = "" then [] else [c.sha.toList])

theorem segments_key_eq (ref : RepoRef) (c : Commit) :
    segments (key ref c.sha) = keyNames ref c ++ [resultsFile.toList] :=
  segments_key ref c.valid_sha

theorem length_keyNames (ref : RepoRef) (c : Commit) :
    (keyNames ref c).length = keyDepth c.param := by
  rw [keyNames, Commit.param]
  split_ifs with h
  · rfl
  · rfl

theorem newline_notMem_key (ref : RepoRef) (c : Commit) :
    ∀ seg ∈ segments (key ref c.sha), '\n' ∉ seg ∧ '\r' ∉ seg := by
  intro seg hseg
  rw [segments_key_eq, keyNames] at hseg
  simp only [List.mem_append, List.mem_cons, List.not_mem_nil, or_false] at hseg
  rcases hseg with ((rfl | rfl | rfl) | hseg) | rfl
  · exact ref.newline_notMem_host
  · exact ref.org_valid.newline_notMem
  · exact ref.repo_valid.newline_notMem
  · split_ifs at hseg with hc
    · exact absurd hseg (List.not_mem_nil)
    · rw [List.mem_singleton.mp hseg]
      exact newline_notMem_of_isFullSHA (c.valid_sha.resolve_left hc)
  · exact ⟨by decide, by decide⟩

/-- A joined key is clean. -/
theorem clean_key (ref : RepoRef) (c : Commit) : clean (key ref c.sha) = key ref c.sha := by
  rw [← join_keyElements]
  refine clean_join (e := resultsFile) ?_ (by decide)
  cases c.param <;> simp [keyElements]

/-- **One object for both servers.** For every reference that `ParseRepoRef` returns and every
commit that `ParseCommit` returns, the API accepts their parts, and its object is the one of `Key`.
-/
theorem sanitizeInputs_eq_key (host org repo sha : String) (ref : RepoRef) (c : Commit)
    (_href : parseRepoRef host org repo = .ok ref) (_hc : parseCommit sha = .ok c) :
    sanitizeInputs ref.host ref.org ref.repo c.param = .ok (key ref c.sha) := by
  refine sanitizeInputs_eq_ok.mpr ⟨?_, keyNames ref c, length_keyNames ref c, segments_key_eq ref c⟩
  rw [join_keyElements, clean_key, stripNewlines_eq_self (newline_notMem_key ref c)]

/-- A reference with a pattern's metacharacters, a space and dots. -/
def oddRef : RepoRef where
  host := hostGitHub
  org := "a[*?"
  repo := "b c..d"
  host_supported := sampleRef.host_supported
  org_valid := ⟨⟨by decide, by decide, by decide, by decide⟩, by decide,
    Strings.forall_mem_of_all (by decide)⟩
  repo_valid := ⟨⟨by decide, by decide, by decide, by decide⟩, by decide,
    Strings.forall_mem_of_all (by decide)⟩

/-- The parsers lower the host and the commit. -/
theorem sanitizeInputs_eq_key_oddRef :
    sanitizeInputs oddRef.host oddRef.org oddRef.repo sampleCommit.param =
      .ok (key oddRef sampleCommit.sha) :=
  sanitizeInputs_eq_key "GitHub.com" "a[*?" "b c..d" "0123456789ABCDEF0123456789abcdef01234567"
    oddRef sampleCommit (by decide +kernel) (by decide +kernel)

end ScorecardInfra.Cache
