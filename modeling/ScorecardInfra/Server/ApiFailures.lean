import ScorecardInfra.Server.Publication

/-!
# Failures of the GitHub API under `contains`

What a run of `contains` ends in, for every behaviour of the GitHub client: the list of tags, the
default branch, the releases and up to eleven comparisons may each succeed or fail, and a failed
call may come with a response or, after a transport error, without one.

A comparison that fails without a response makes `branchContains` read the status of a nil response.
Otherwise a run returns, unless the tags of `github/codeql-action` name a version for which no slice
of branches can be allocated (`exec_contains`). A run that returns a value has had no failed call
besides comparisons with the status 404, and if the value is false then no comparison found the
commit; every other failed call leads to an error. These hold together exactly if neither panic is
met (`failSafe_iff`).

## Main definitions

* `IsComparison`, `Denied`, `FailedCall`, `Unanswered`, `FailSafe`, `Oversized`.

## Main results

* `exec_checkBranches`, `exec_contains`, `failSafe_iff`, `exists_crash`.

Source: `api/app/server/github_verifier.go`, lines 58–267.
-/

namespace ScorecardInfra.Server

open GoStd Interaction

/-! ### Events -/

/-- A comparison of two revisions. -/
def IsComparison : ApiOp → Prop
  | .github _ (.compareCommits _ _ _ _ _) => True
  | _ => False

/-- A comparison that says that the commit is not contained, or that fails with the status 404. -/
def Denied : Event ApiSig → Prop
  | ⟨.github _ (.compareCommits _ _ _ _ _), .ok status⟩ => status ≠ "behind" ∧ status ≠ "identical"
  | ⟨.github _ (.compareCommits _ _ _ _ _), .error err⟩ => err.statusCode = some 404
  | _ => False

/-- A failed call, other than a comparison with the status 404. -/
def FailedCall : Event ApiSig → Prop
  | ⟨.github _ (.compareCommits _ _ _ _ _), .error err⟩ => err.statusCode ≠ some 404
  | ⟨.github _ _, .error _⟩ => True
  | _ => False

/-- A comparison that fails without a response. -/
def Unanswered : Event ApiSig → Prop
  | ⟨.github _ (.compareCommits _ _ _ _ _), .error err⟩ => err.statusCode = none
  | _ => False

theorem Unanswered.failedCall {e : Event ApiSig} (h : Unanswered e) : FailedCall e := by
  unfold Unanswered at h
  split at h
  · rename_i err
    change err.statusCode ≠ some 404
    rw [h]
    decide
  · exact h.elim

theorem Unanswered.isComparison {e : Event ApiSig} (h : Unanswered e) : IsComparison e.op := by
  unfold Unanswered at h
  split at h
  · trivial
  · exact h.elim

theorem Denied.isComparison {e : Event ApiSig} (h : Denied e) : IsComparison e.op := by
  unfold Denied at h
  split at h
  · trivial
  · trivial
  · exact h.elim

theorem not_failedCall_ok {client : GithubClient} {call : GithubCall} {a : call.Result} :
    ¬FailedCall ⟨.github client call, .ok a⟩ := by
  cases call <;> exact not_false

/-- No call of a trace has failed, and no comparison has found the commit. -/
def Quiet (t : Trace ApiSig) : Prop := ∀ e ∈ t, ¬FailedCall e ∧ (IsComparison e.op → Denied e)

/-- **A run that fails safely**: it does not panic, it returns false only if no comparison found the
commit, and it returns an error if a call has failed. -/
structure FailSafe (t : Trace ApiSig) (x : Except (Stop ServerError) (Bool × GithubVerifier)) :
    Prop where
  returns : ∀ message, x ≠ .error (.panic message)
  denied : ∀ g, x = .ok (false, g) → ∀ e ∈ t, IsComparison e.op → Denied e
  failed : ∀ e ∈ t, FailedCall e → ∃ err, x = .error (.error err)

/-- How the part of a run ends that performs the calls of `t`. -/
def Ended (t : Trace ApiSig) : Except (Stop ServerError) (Bool × GithubVerifier) → Prop
  | .ok r => (∀ e ∈ t, ¬FailedCall e) ∧ (r.1 = false → Quiet t)
  | .error (.error _) => ∀ e ∈ t, ¬Unanswered e
  | .error (.panic _) => ∃ e ∈ t, Unanswered e

/-- A run without a call that returns. -/
theorem ended_nil (r : Bool × GithubVerifier) : Ended [] (.ok r) :=
  ⟨List.forall_mem_nil _, fun _ => List.forall_mem_nil _⟩

theorem Quiet.append {t u : Trace ApiSig} (ht : Quiet t) (hu : Quiet u) : Quiet (t ++ u) :=
  List.forall_mem_append.mpr ⟨ht, hu⟩

theorem Quiet.ended_append {t u : Trace ApiSig}
    {x : Except (Stop ServerError) (Bool × GithubVerifier)} (ht : Quiet t) (hu : Ended u x) :
    Ended (t ++ u) x := by
  match x, hu with
  | .ok r, hu =>
    exact ⟨List.forall_mem_append.mpr ⟨fun e he => (ht e he).1, hu.1⟩, fun h => ht.append (hu.2 h)⟩
  | .error (.error _), hu =>
    exact List.forall_mem_append.mpr ⟨fun e he h => (ht e he).1 h.failedCall, hu⟩
  | .error (.panic _), ⟨e, he, h⟩ => exact ⟨e, List.mem_append_right t he, h⟩

namespace GithubVerifier

variable {L : Libraries} {client : GithubClient} {owner repo hash : String} {g : GithubVerifier}
  {t : Trace ApiSig} {x : Except (Stop ServerError) (Bool × GithubVerifier)}

/-! ### Comparisons -/

/-- **One comparison.** It says that the commit is not contained, and the state is as before; or the
part of the run ends there. -/
theorem exec_branchContains {branch : String}
    (h : Exec (branchContains client branch owner repo hash g).run t (some x)) :
    (x = .ok (false, g) ∧ (∃ e ∈ t, Denied e) ∧ Quiet t) ∨
      ((∀ g', x ≠ .ok (false, g')) ∧ (∀ e ∈ t, ¬Denied e) ∧ Ended t x) := by
  obtain ⟨answer, t', rfl, hrun⟩ := exec_run_perform_bind h
  cases answer with
  | error err =>
    obtain ⟨message, status⟩ := err
    rcases status with _ | status
    · -- a nil response is read
      obtain ⟨rfl, rfl⟩ := exec_ret_some.mp hrun
      refine Or.inr ⟨nofun, List.forall_mem_singleton.mpr ?_, _, List.mem_singleton_self _, rfl⟩
      exact fun h => Option.some_ne_none 404 (show none = some 404 from h).symm
    · by_cases hstatus : status = 404
      · subst hstatus
        obtain ⟨rfl, rfl⟩ := exec_ret_some.mp hrun
        refine Or.inl ⟨rfl, ⟨_, List.mem_singleton_self _, rfl⟩, List.forall_mem_singleton.mpr ?_⟩
        exact ⟨fun hfailed => hfailed rfl, fun _ => rfl⟩
      · have hne : some status ≠ some 404 := fun h => hstatus (Option.some.inj h)
        have hcompared : compared owner repo hash g (.error ⟨message, some status⟩) =
            fail (.wrapf "error comparing revisions" (.text message)) := by
          unfold compared
          dsimp only
          split
          · contradiction
          · rename_i heq
            exact absurd heq hne
          · rfl
        rw [hcompared] at hrun
        obtain ⟨rfl, rfl⟩ := exec_ret_some.mp hrun
        refine Or.inr ⟨nofun, List.forall_mem_singleton.mpr hne, List.forall_mem_singleton.mpr ?_⟩
        exact fun h => Option.some_ne_none status h
  | ok status =>
    by_cases hstatus : status = "behind" ∨ status = "identical"
    · have hcompared : compared owner repo hash g (.ok status) =
          pure (true, g.markContains owner repo hash) := if_pos (by simpa using hstatus)
      rw [hcompared] at hrun
      obtain ⟨rfl, rfl⟩ := exec_ret_some.mp hrun
      refine Or.inr ⟨nofun, List.forall_mem_singleton.mpr fun h => ?_,
        List.forall_mem_singleton.mpr not_false, nofun⟩
      exact hstatus.elim h.1 h.2
    · have hcompared : compared owner repo hash g (.ok status) = pure (false, g) :=
        if_neg (by simpa using hstatus)
      rw [hcompared] at hrun
      obtain ⟨rfl, rfl⟩ := exec_ret_some.mp hrun
      have hdenied := not_or.mp hstatus
      exact Or.inl ⟨rfl, ⟨_, List.mem_singleton_self _, hdenied⟩,
        List.forall_mem_singleton.mpr ⟨not_false, fun _ => hdenied⟩⟩

/-- **The loop over the branches.** -/
theorem exec_checkBranches {default : String} {branches : List String} {n : Nat}
    (h : Exec (checkBranches client owner repo hash default branches n g).run t (some x)) :
    Ended t x := by
  induction branches generalizing n g t with
  | nil =>
    obtain ⟨rfl, rfl⟩ := exec_ret_some.mp h
    exact ended_nil _
  | cons branch branches ih =>
    cases n with
    | zero =>
      obtain ⟨rfl, rfl⟩ := exec_ret_some.mp h
      exact ended_nil _
    | succ n =>
      rw [checkBranches] at h
      split at h
      · exact ih h
      · rcases exec_run_bind_some h with ⟨s, rfl, h'⟩ | ⟨t₁, r, t₂, rfl, h₁, h₂⟩
        · rcases exec_branchContains h' with ⟨hx, -⟩ | ⟨-, -, hended⟩
          · cases hx
          · exact hended
        · rcases exec_branchContains h₁ with ⟨hr, -, hquiet⟩ | ⟨hne, -, hended⟩
          · obtain rfl := Except.ok.inj hr
            exact hquiet.ended_append (ih h₂)
          · obtain ⟨found, g'⟩ := r
            cases found with
            | false => exact absurd rfl (hne g')
            | true =>
              obtain ⟨rfl, rfl⟩ := exec_ret_some.mp h₂
              rwa [List.append_nil]

/-! ### Other calls -/

/-- **A call that is no comparison.** It fails, and an error is returned; or what follows it goes on
with its result. -/
theorem exec_call {α : Type} {call : GithubCall} {context : String} {f : call.Result → Api α}
    {r : Except (Stop ServerError) α} (hcall : ¬IsComparison (.github client call))
    (h : Exec (callGithub client call >>= fun answer => orFail context answer >>= f).run t
      (some r)) :
    ((∀ e ∈ t, ¬Unanswered e ∧ ¬Denied e) ∧ ∃ err, r = .error (.error err)) ∨
      ∃ a t', t = ⟨.github client call, .ok a⟩ :: t' ∧
        Quiet [⟨.github client call, .ok a⟩] ∧ Exec (f a).run t' (some r) := by
  obtain ⟨answer, t', rfl, hrun⟩ := exec_run_perform_bind h
  rcases exec_ofExcept_bind hrun with ⟨err, -, rfl, rfl⟩ | ⟨a, ha, hrun⟩
  · refine Or.inl ⟨List.forall_mem_singleton.mpr ⟨?_, ?_⟩, err, rfl⟩
    · exact fun h => hcall h.isComparison
    · exact fun h => hcall h.isComparison
  · obtain rfl := mapError_eq_ok.mp ha
    exact Or.inr ⟨a, t', rfl, List.forall_mem_singleton.mpr ⟨not_failedCall_ok, fun h =>
      absurd h hcall⟩, hrun⟩

/-- The stored major version of `github/codeql-action` has more branches than a slice can hold. -/
def Oversized (L : Libraries) (g : GithubVerifier) : Prop :=
  ∃ n, parseCodeQLVersion g.codeqlActionMajor = .ok n ∧ L.maxSlice < n

theorem exec_getCodeQLReleaseBranches {r : Except (Stop ServerError) (List String)}
    (h : Exec (getCodeQLReleaseBranches L g).run t (some r)) :
    t = [] ∧ ((Oversized L g ∧ ∃ message, r = .error (.panic message)) ∨
      (¬Oversized L g ∧ ∀ message, r ≠ .error (.panic message))) := by
  unfold getCodeQLReleaseBranches at h
  split at h
  · rename_i hempty
    obtain ⟨rfl, rfl⟩ := exec_ret_some.mp h
    refine ⟨rfl, Or.inr ⟨?_, nofun⟩⟩
    rintro ⟨n, hn, -⟩
    rw [hempty] at hn
    cases hn
  · rcases exec_ofExcept_bind h with ⟨e, he, rfl, rfl⟩ | ⟨n, hn, hrun⟩
    · refine ⟨rfl, Or.inr ⟨?_, nofun⟩⟩
      rintro ⟨n, hn, -⟩
      cases he.symm.trans hn
    · split at hrun
      · rename_i hlt
        obtain ⟨rfl, rfl⟩ := exec_ret_some.mp hrun
        exact ⟨rfl, Or.inl ⟨⟨n, hn, hlt⟩, _, rfl⟩⟩
      · rename_i hle
        obtain ⟨rfl, rfl⟩ := exec_ret_some.mp hrun
        refine ⟨rfl, Or.inr ⟨?_, nofun⟩⟩
        rintro ⟨m, hm, hlt⟩
        obtain rfl := Except.ok.inj (hn.symm.trans hm)
        exact hle hlt

theorem exec_defaultBranch {r : Except (Stop ServerError) String}
    (h : Exec (defaultBranch client owner repo).run t (some r)) : (∀ e ∈ t, ¬Denied e) ∧
      (((∀ e ∈ t, ¬Unanswered e) ∧ ∃ err, r = .error (.error err)) ∨
        (Quiet t ∧ ∃ branch, r = .ok branch)) := by
  have hcall : ¬IsComparison (.github client (.get owner repo)) := not_false
  rcases exec_call hcall h with
    ⟨ht, err, rfl⟩ | ⟨branch, t', rfl, hquiet, hrun⟩
  · exact ⟨fun e he => (ht e he).2, Or.inl ⟨fun e he => (ht e he).1, err, rfl⟩⟩
  · have hdenied : ∀ e ∈ [(⟨.github client (.get owner repo), .ok branch⟩ : Event ApiSig)],
        ¬Denied e := List.forall_mem_singleton.mpr not_false
    cases branch with
    | none =>
      obtain ⟨rfl, rfl⟩ := exec_ret_some.mp hrun
      exact ⟨hdenied, Or.inl ⟨fun e he h => (hquiet e he).1 h.failedCall, _, rfl⟩⟩
    | some branch =>
      obtain ⟨rfl, rfl⟩ := exec_ret_some.mp hrun
      exact ⟨hdenied, Or.inr ⟨hquiet, branch, rfl⟩⟩

/-! ### `contains` -/

/-- The release branches of `github/codeql-action` are asked for, as a comparison has not found the
commit, and there are too many of them. -/
def Overflows (L : Libraries) (c : Commit) (g : GithubVerifier) (t : Trace ApiSig) : Prop :=
  isCodeQL c.owner c.repo = true ∧ Oversized L g ∧ ∃ e ∈ t, Denied e

theorem exec_checkReleaseBranches {default : String} {limit : Nat}
    (h : Exec (checkReleaseBranches L client owner repo hash default limit g).run t (some x)) :
    (isCodeQL owner repo = true ∧ Oversized L g ∧ ∃ message, x = .error (.panic message)) ∨
      (¬(isCodeQL owner repo = true ∧ Oversized L g) ∧ Ended t x) := by
  unfold checkReleaseBranches at h
  split at h
  · rename_i hcodeql
    rcases exec_run_bind_some h with ⟨s, rfl, h'⟩ | ⟨t₁, branches, t₂, rfl, h₁, h₂⟩
    · obtain ⟨rfl, ⟨hover, message, hr⟩ | ⟨hover, hr⟩⟩ := exec_getCodeQLReleaseBranches h'
      · obtain rfl := Except.error.inj hr
        exact Or.inl ⟨hcodeql, hover, message, rfl⟩
      · refine Or.inr ⟨fun h => hover h.2, ?_⟩
        cases s with
        | error err => exact List.forall_mem_nil _
        | panic message => exact absurd rfl (hr message)
    · obtain ⟨rfl, ⟨-, message, hr⟩ | ⟨hover, -⟩⟩ := exec_getCodeQLReleaseBranches h₁
      · cases hr
      · exact Or.inr ⟨fun h => hover h.2, exec_checkBranches h₂⟩
  · rename_i hcodeql
    refine Or.inr ⟨fun h => hcodeql h.1, ?_⟩
    simp only [getReleaseBranches, bind_assoc] at h
    have hcall : ¬IsComparison (.github client (.listReleases owner repo 100)) := not_false
    rcases exec_call hcall h with ⟨ht, err, rfl⟩ | ⟨releases, t', rfl, hquiet, hrun⟩
    · exact fun e he => (ht e he).1
    · refine hquiet.ended_append ?_
      rw [pure_bind] at hrun
      split at hrun
      · obtain ⟨rfl, rfl⟩ := exec_ret_some.mp hrun
        exact ended_nil _
      · exact exec_checkBranches hrun

/-- What follows a miss in the tags. -/
theorem exec_containsInBranches {c : Commit}
    (h : Exec (containsInBranches L client c g).run t (some x)) :
    (Overflows L c g t ∧ ∃ message, x = .error (.panic message)) ∨
      (¬Overflows L c g t ∧ Ended t x) := by
  rcases exec_run_bind_some h with ⟨s, rfl, h'⟩ | ⟨t₁, branch, t', rfl, h₁, hrest⟩
  · -- the default branch is not known
    obtain ⟨hdenied, ⟨ht, err, hs⟩ | ⟨-, branch, hs⟩⟩ := exec_defaultBranch h'
    · obtain rfl := Except.error.inj hs
      exact Or.inr ⟨fun ⟨_, _, e, he, h⟩ => hdenied e he h, ht⟩
    · cases hs
  obtain ⟨hdenied₁, ⟨-, err, hr⟩ | ⟨hquiet₁, -⟩⟩ := exec_defaultBranch h₁
  · cases hr
  have hnone : ∀ t₂, (∀ e ∈ t₂, ¬Denied e) → ¬Overflows L c g (t₁ ++ t₂) := by
    rintro t₂ ht₂ ⟨-, -, e, he, h⟩
    exact (List.mem_append.mp he).elim (fun he => hdenied₁ e he h) fun he => ht₂ e he h
  rcases exec_run_bind_some hrest with ⟨s, rfl, h'⟩ | ⟨t₂, r, t₃, rfl, h₂, h₃⟩
  · rcases exec_branchContains h' with ⟨hx, -⟩ | ⟨-, hdenied, hended⟩
    · cases hx
    · exact Or.inr ⟨hnone _ hdenied, hquiet₁.ended_append hended⟩
  rcases exec_branchContains h₂ with ⟨hr, ⟨e, he, hdenied⟩, hquiet₂⟩ | ⟨hne, hdenied, hended⟩
  · -- the default branch does not have the commit
    obtain rfl := Except.ok.inj hr
    have hmem : e ∈ t₁ ++ (t₂ ++ t₃) := List.mem_append_right _ (List.mem_append_left _ he)
    rcases exec_checkReleaseBranches h₃ with ⟨hcodeql, hover, hx⟩ | ⟨hfit, hended⟩
    · exact Or.inl ⟨⟨hcodeql, hover, e, hmem, hdenied⟩, hx⟩
    · exact Or.inr ⟨fun h => hfit ⟨h.1, h.2.1⟩,
        hquiet₁.ended_append (hquiet₂.ended_append hended)⟩
  · obtain ⟨found, g'⟩ := r
    cases found with
    | false => exact absurd rfl (hne g')
    | true =>
      obtain ⟨rfl, rfl⟩ := exec_ret_some.mp h₃
      rw [List.append_nil]
      exact Or.inr ⟨hnone _ hdenied, hquiet₁.ended_append hended⟩

/-- The first call lists tags, after which the release branches of `github/codeql-action` are asked
for, and there are too many of them. -/
def TagsOverflow (L : Libraries) (client : GithubClient) (c : Commit) (g : GithubVerifier)
    (t : Trace ApiSig) : Prop :=
  ∃ tags t', t = ⟨.github client (.listTags c.owner c.repo 100), .ok tags⟩ :: t' ∧
    Overflows L c (tags.foldl (storeTag L c.owner c.repo) g) t'

/-- **How `contains` ends.** It panics for want of memory, or ends as its calls do. -/
theorem exec_contains {c : Commit} (h : Exec (g.contains L client c).run t (some x)) :
    (TagsOverflow L client c g t ∧ ∃ message, x = .error (.panic message)) ∨
      (¬TagsOverflow L client c g t ∧ Ended t x) := by
  rw [GithubVerifier.contains] at h
  split at h
  · obtain ⟨rfl, rfl⟩ := exec_ret_some.mp h
    refine Or.inr ⟨?_, ended_nil _⟩
    rintro ⟨tags, t', ht, -⟩
    cases ht
  simp only [getTags, bind_assoc, pure_bind] at h
  have hcall : ¬IsComparison (.github client (.listTags c.owner c.repo 100)) := not_false
  rcases exec_call hcall h with
    ⟨ht, err, rfl⟩ | ⟨tags, t', rfl, hquiet, hrun⟩
  · refine Or.inr ⟨?_, fun e he => (ht e he).1⟩
    rintro ⟨tags, t', rfl, -, -, e, he, hdenied⟩
    exact (ht e (List.mem_cons_of_mem _ he)).2 hdenied
  have htags : TagsOverflow L client c g
      (⟨.github client (.listTags c.owner c.repo 100), .ok tags⟩ :: t') ↔
        Overflows L c (tags.foldl (storeTag L c.owner c.repo) g) t' := by
    constructor
    · rintro ⟨tags', t'', ht, hover⟩
      obtain ⟨he, rfl⟩ := List.cons.inj ht
      obtain rfl := Except.ok.inj (eq_of_heq (Event.mk.inj he).2)
      exact hover
    · exact fun hover => ⟨tags, t', rfl, hover⟩
  rw [htags]
  split at hrun
  · obtain ⟨rfl, rfl⟩ := exec_ret_some.mp hrun
    refine Or.inr ⟨fun ⟨_, _, e, he, _⟩ => absurd he List.not_mem_nil, ?_⟩
    exact hquiet.ended_append (u := []) ⟨nofun, nofun⟩
  · exact (exec_containsInBranches hrun).imp_right fun ⟨hover, hended⟩ =>
      ⟨hover, hquiet.ended_append hended⟩

end GithubVerifier

/-- **Failures of the API.** A run of `contains` is as claimed if and only if no comparison fails
without a response, and the release branches that have to be asked fit into memory. -/
theorem failSafe_iff (L : Libraries) (client : GithubClient) (c : Commit) (g : GithubVerifier)
    (t : Trace ApiSig) (x : Except (Stop ServerError) (Bool × GithubVerifier))
    (h : Exec (g.contains L client c).run t (some x)) :
    FailSafe t x ↔
      (∀ e ∈ t, ¬Unanswered e) ∧ ¬GithubVerifier.TagsOverflow L client c g t := by
  rcases GithubVerifier.exec_contains h with ⟨hover, message, rfl⟩ | ⟨hfit, hended⟩
  · exact iff_of_false (fun h => h.returns message rfl) fun h => h.2 hover
  rw [and_iff_left hfit]
  constructor
  · intro hsafe e he hunanswered
    obtain ⟨err, rfl⟩ := hsafe.failed e he hunanswered.failedCall
    exact hended e he hunanswered
  · intro hanswered
    match x, hended with
    | .ok r, hended =>
      refine ⟨nofun, ?_, fun e he hfailed => absurd hfailed (hended.1 e he)⟩
      intro g' hr e he
      obtain rfl := Except.ok.inj hr
      exact (hended.2 rfl e he).2
    | .error (.error err), _ => exact ⟨nofun, nofun, fun _ _ _ => ⟨err, rfl⟩⟩
    | .error (.panic _), ⟨e, he, hunanswered⟩ => exact absurd hunanswered (hanswered e he)

/-- A commit of `actions/checkout`, which no tag names; the comparison with `main` is answered by
`answer`. -/
def comparedTrace (answer : Except GithubError String) : Trace ApiSig :=
  [⟨.github ⟨none⟩ (.listTags "actions" "checkout" 100), .ok []⟩,
    ⟨.github ⟨none⟩ (.get "actions" "checkout"), .ok (some "main")⟩,
    ⟨.github ⟨none⟩ (.compareCommits "actions" "checkout" "main" sampleCommit 1), answer⟩]

theorem exec_comparedTrace_identical :
    Exec (newGitHubVerifier.contains sampleLibraries ⟨none⟩
      ⟨"actions", "checkout", sampleCommit⟩).run (comparedTrace (.ok "identical"))
      (some (.ok (true, newGitHubVerifier.markContains "actions" "checkout" sampleCommit))) :=
  .op _ (.op _ (.op _ (.ret _)))

theorem failSafe_iff_identical :
    FailSafe (comparedTrace (.ok "identical"))
        (.ok (true, newGitHubVerifier.markContains "actions" "checkout" sampleCommit)) ↔
      (∀ e ∈ comparedTrace (.ok "identical"), ¬Unanswered e) ∧
        ¬GithubVerifier.TagsOverflow sampleLibraries ⟨none⟩ ⟨"actions", "checkout", sampleCommit⟩
          newGitHubVerifier (comparedTrace (.ok "identical")) :=
  failSafe_iff _ _ _ _ _ _ exec_comparedTrace_identical

/-- **A transport error** in the comparison with the default branch: `contains` panics. -/
theorem exists_crash :
    Exec (newGitHubVerifier.contains sampleLibraries ⟨none⟩
      ⟨"actions", "checkout", sampleCommit⟩).run
        (comparedTrace (.error ⟨"dial tcp: connection refused", none⟩))
        (some (.error (.panic nilDereference))) ∧
      ¬FailSafe (comparedTrace (.error ⟨"dial tcp: connection refused", none⟩))
        (.error (.panic nilDereference)) :=
  ⟨.op _ (.op _ (.op _ (.ret _))), fun h => h.returns _ rfl⟩

end ScorecardInfra.Server
