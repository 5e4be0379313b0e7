import ScorecardInfra.Server.Operations

/-!
# The commit verifier that asks GitHub

`githubVerifier` answers whether a repository contains a commit. It collects the commits of tags and
releases in a cache and compares the commit with the default branch and with release branches. Its
field `client` never changes and is a parameter; the others are the state that `contains` takes and
returns. The cache maps commits to `true` only and is the list of these commits.

`verifyWithGithub` is `verifyScorecardWorkflow` with this verifier.

## Main results

* `performs_verifyWithGithub`: apart from ranging over maps it calls GitHub through its own client
  only.

Source: `api/app/server/github_verifier.go`.
-/

namespace ScorecardInfra.Server

open GoStd Interaction

/-- `githubVerifier`. -/
structure GithubVerifier where
  cachedCommits : List Commit
  codeqlActionMajor : String
  deriving DecidableEq, Repr

/-- `newGitHubVerifier`. -/
def newGitHubVerifier : GithubVerifier := ⟨[], ""⟩

/-- `codeQLActionOwner` and `codeQLActionRepo`. -/
def isCodeQL (owner repo : String) : Bool := owner == "github" && repo == "codeql-action"

/-- The result of a call, or its error with a context. -/
def orFail {α : Type} (context : String) (x : Except GithubError α) : Api α :=
  Interaction.ofExcept (x.mapError fun e => .wrapf context (.text e.message))

namespace GithubVerifier

variable (L : Libraries) (client : GithubClient)

/-- `markContains`. -/
def markContains (owner repo sha : String) (g : GithubVerifier) : GithubVerifier :=
  { g with cachedCommits := ⟨owner, repo, Strings.toLower sha⟩ :: g.cachedCommits }

/-- The loop body of `getTags`. -/
def storeTag (owner repo : String) (g : GithubVerifier) (t : Tag) : GithubVerifier :=
  let g := match t.commitSHA with
    | none => g
    | some sha => g.markContains owner repo sha
  if isCodeQL owner repo && L.semverIsValid t.name &&
      L.semverCompare t.name g.codeqlActionMajor == .gt then
    { g with codeqlActionMajor := L.semverMajor t.name }
  else g

/-- `getTags`.

Source: `api/app/server/github_verifier.go`, lines 122–144. -/
def getTags (owner repo : String) (g : GithubVerifier) : Api GithubVerifier := do
  let answer ← callGithub client (.listTags owner repo 100)
  let tags ← orFail "fetch tags" answer
  return tags.foldl (storeTag L owner repo) g

/-- `defaultBranch`. -/
def defaultBranch (owner repo : String) : Api String := do
  let answer ← callGithub client (.get owner repo)
  let branch ← orFail "fetching repository info" answer
  match branch with
  | none => fail (.sentinel .errNoDefaultBranch)
  | some branch => pure branch

/-- What `branchContains` makes of a comparison; without a response it panics. -/
def compared (owner repo hash : String) (g : GithubVerifier) :
    Except GithubError String → Api (Bool × GithubVerifier)
  | .error err => match err.statusCode with
    | none => crash nilDereference
    | some 404 => pure (false, g)
    | some _ => fail (.wrapf "error comparing revisions" (.text err.message))
  | .ok status =>
    if status == "behind" || status == "identical" then pure (true, g.markContains owner repo hash)
    else pure (false, g)

/-- `branchContains`.

Source: `api/app/server/github_verifier.go`, lines 103–120. -/
def branchContains (branch owner repo hash : String) (g : GithubVerifier) :
    Api (Bool × GithubVerifier) := do
  let answer ← callGithub client (.compareCommits owner repo branch hash 1)
  compared owner repo hash g answer

/-- `parseCodeQLVersion`. -/
def parseCodeQLVersion (version : String) : Except ServerError Nat :=
  let invalid := ServerError.wrap "" (.sentinel .errInvalidCodeQLVersion) (": " ++ version)
  match Strings.cutPrefix version "v" with
  | none => .error invalid
  | some digits => match atoi digits with
    | none => .error invalid
    | some major => if major < 1 then .error invalid else .ok major.toNat

/-- `getCodeQLReleaseBranches`. Allocating more branches than memory can hold panics.

Source: `api/app/server/github_verifier.go`, lines 220–234. -/
def getCodeQLReleaseBranches (g : GithubVerifier) : Api (List String) :=
  if g.codeqlActionMajor = "" then pure [] else do
    let version ← Interaction.ofExcept (parseCodeQLVersion g.codeqlActionMajor)
    if L.maxSlice < version then crash "runtime error: makeslice: len out of range"
    else pure ((List.range version).map fun i => "releases/v" ++ toString (version - i))

/-- The loop body of `getReleaseBranches`. -/
def storeRelease (owner repo : String) (s : List String × GithubVerifier) :
    Option String → List String × GithubVerifier
  | none => s
  | some target =>
    if isCommitHash target then (s.1, s.2.markContains owner repo target)
    else if s.1.contains target then s
    else (s.1 ++ [target], s.2)

/-- `getReleaseBranches`.

Source: `api/app/server/github_verifier.go`, lines 240–267. -/
def getReleaseBranches (owner repo : String) (g : GithubVerifier) :
    Api (List String × GithubVerifier) := do
  let answer ← callGithub client (.listReleases owner repo 100)
  let releases ← orFail "fetch releases" answer
  return releases.foldl (storeRelease owner repo) ([], g)

/-- The loop of `checkReleaseBranches`, with the number of branches that may still be analyzed. -/
def checkBranches (owner repo hash defaultBranch : String) :
    List String → Nat → GithubVerifier → Api (Bool × GithubVerifier)
  | [], _, g => pure (false, g)
  | _ :: _, 0, g => pure (false, g)
  | branch :: rest, n + 1, g =>
    if branch == defaultBranch then checkBranches owner repo hash defaultBranch rest (n + 1) g
    else branchContains client branch owner repo hash g >>= fun r =>
      cond r.1 (pure (true, r.2)) (checkBranches owner repo hash defaultBranch rest n r.2)

/-- `checkReleaseBranches`.

Source: `api/app/server/github_verifier.go`, lines 156–204. -/
def checkReleaseBranches (owner repo hash defaultBranch : String) (limit : Nat)
    (g : GithubVerifier) : Api (Bool × GithubVerifier) :=
  if isCodeQL owner repo then do
    let branches ← getCodeQLReleaseBranches L g
    checkBranches client owner repo hash defaultBranch branches limit g
  else do
    let r ← getReleaseBranches client owner repo g
    if r.2.cachedCommits.contains ⟨owner, repo, hash⟩ then pure (true, r.2)
    else checkBranches client owner repo hash defaultBranch r.1 limit r.2

/-- The part of `contains` that follows a miss in the tags. -/
def containsInBranches (c : Commit) (g : GithubVerifier) : Api (Bool × GithubVerifier) := do
  let branch ← defaultBranch client c.owner c.repo
  let r ← branchContains client branch c.owner c.repo c.hash g
  cond r.1 (pure (true, r.2)) (checkReleaseBranches L client c.owner c.repo c.hash branch 10 r.2)

/-- `contains`.

Source: `api/app/server/github_verifier.go`, lines 58–90. -/
def contains (c : Commit) (g : GithubVerifier) : Api (Bool × GithubVerifier) :=
  if g.cachedCommits.contains c then pure (true, g) else do
    let g ← getTags L client c.owner c.repo g
    if g.cachedCommits.contains c then pure (true, g) else containsInBranches L client c g

/-- The state after a call that returned, and the answer to the verifier. -/
def answered (g : GithubVerifier) :
    Except ServerError (Bool × GithubVerifier) → Except ServerError Bool × GithubVerifier
  | .ok r => (.ok r.1, r.2)
  | .error e => (.error e, g)

/-- The operations of the workflow verifier, with this commit verifier. -/
def answer : (o : VerifyOp) → GithubVerifier → Api (VerifySig.Ans o × GithubVerifier)
  | .contains c, g => (answered g) <$> attempt (contains L client c g)
  | .range n, g => do
    let order ← performApi (.range n)
    return (order, g)

end GithubVerifier

/-- `verifyScorecardWorkflow(workflowContent, newGitHubVerifier(ctx, client))`. -/
def verifyWithGithub (L : Libraries) (workflowContent : String) (client : GithubClient) :
    Api Unit := do
  let r ← handle (GithubVerifier.answer L client)
    (verifyScorecardWorkflow L.workflowParser workflowContent).run newGitHubVerifier
  ofOutcome r.1

/-! ### Operations of the verifier -/

/-- Calls through one GitHub client, and ranging over maps. -/
def CallsThrough (client : GithubClient) : ApiOp → Prop
  | .github client' _ => client' = client
  | .range _ => True
  | _ => False

namespace GithubVerifier

variable {L : Libraries} {client : GithubClient}

theorem performs_callGithub (call : GithubCall) :
    (callGithub client call).run.Performs (CallsThrough client) :=
  (performs_run_perform _ _).mpr rfl

theorem performs_branchContains (branch owner repo hash : String) (g : GithubVerifier) :
    (branchContains client branch owner repo hash g).run.Performs (CallsThrough client) := by
  refine performs_run_bind (performs_callGithub _) fun answer => ?_
  unfold compared
  split
  · split <;> trivial
  · split <;> trivial

theorem performs_checkBranches (owner repo hash defaultBranch : String) :
    (branches : List String) → (limit : Nat) → (g : GithubVerifier) →
      (checkBranches client owner repo hash defaultBranch branches limit g).run.Performs
        (CallsThrough client)
  | [], _, _ => trivial
  | _ :: _, 0, _ => trivial
  | branch :: rest, n + 1, g => by
    rw [checkBranches]
    split
    · exact performs_checkBranches owner repo hash defaultBranch rest (n + 1) g
    · refine performs_run_bind (performs_branchContains _ _ _ _ _) fun r => ?_
      cases r.1
      · exact performs_checkBranches owner repo hash defaultBranch rest n r.2
      · trivial

theorem performs_checkReleaseBranches (owner repo hash defaultBranch : String) (limit : Nat)
    (g : GithubVerifier) :
    (checkReleaseBranches L client owner repo hash defaultBranch limit g).run.Performs
      (CallsThrough client) := by
  unfold checkReleaseBranches
  split
  · refine performs_run_bind ?_ fun branches => performs_checkBranches _ _ _ _ _ _ _
    unfold getCodeQLReleaseBranches
    split
    · trivial
    · refine performs_run_bind trivial fun version => ?_
      split <;> trivial
  · refine performs_run_bind ?_ fun r => ?_
    · refine performs_run_bind (performs_callGithub _) fun answer => ?_
      exact performs_run_bind trivial fun releases => trivial
    · split
      · trivial
      · exact performs_checkBranches _ _ _ _ _ _ _

theorem performs_contains (c : Commit) (g : GithubVerifier) :
    (contains L client c g).run.Performs (CallsThrough client) := by
  unfold contains
  split
  · trivial
  · refine performs_run_bind ?_ fun g' => ?_
    · refine performs_run_bind (performs_callGithub _) fun answer => ?_
      exact performs_run_bind trivial fun tags => trivial
    · split
      · trivial
      · refine performs_run_bind ?_ fun branch => ?_
        · refine performs_run_bind (performs_callGithub _) fun answer => ?_
          refine performs_run_bind trivial fun branch => ?_
          split <;> trivial
        · refine performs_run_bind (performs_branchContains _ _ _ _ _) fun r => ?_
          cases r.1
          · exact performs_checkReleaseBranches _ _ _ _ _ _
          · trivial

theorem performs_answer (o : VerifyOp) (g : GithubVerifier) :
    (answer L client o g).run.Performs (CallsThrough client) := by
  cases o with
  | contains c =>
    refine (performs_attempt (performs_contains c g)).bind fun r => ?_
    cases r <;> trivial
  | range n => exact performs_run_bind ((performs_run_perform _ _).mpr trivial) fun _ => trivial

end GithubVerifier

/-- **Whom the verifier talks to.** Apart from ranging over maps, it calls GitHub through its own
client only. -/
theorem performs_verifyWithGithub (L : Libraries) (workflowContent : String)
    (client : GithubClient) :
    (verifyWithGithub L workflowContent client).run.Performs (CallsThrough client) :=
  performs_run_bind (performs_handle GithubVerifier.performs_answer _ _) fun _ => trivial

end ScorecardInfra.Server
