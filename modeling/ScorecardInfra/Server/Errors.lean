import Mathlib.Data.List.Basic

/-!
# The error values of the API server

The package `server` compares errors by identity (`errors.Is` with a package-level value) and by
type (`errors.As` with `verificationError`), and shows their texts to clients. `Sentinel` lists the
package-level values with their texts; `ServerError` adds the ways in which the package builds
further errors from them: `fmt.Errorf` with and without `%w`, `verificationError` and
`imposterCommitError`.

Sources: `api/app/server/post_results.go`, lines 57–80; `verify_workflow.go`, lines 25–96;
`get_results.go`, line 42; `errors.go`; `github_verifier.go`, line 28; `internal/cdn/cdn.go`,
line 26.
-/

namespace ScorecardInfra.Server

/-- The package-level error values. -/
inductive Sentinel : Type
  | errWritingBucket | errMultipleCerts | errEmptyCertRef | errEmptyCertPath | errCertMissingURI
  | errCertWorkflowPathEmpty | errMismatchedCertAndRequest | errNotDefaultBranch
  | errNoTlogEntry | errNotRekordEntry | errMismatchedTlogEntry | errNotOIDC
  | errRekorSearchUnavailable
  | errWorkflowParse | errGlobalVarsOrDefaults | errGlobalWriteAll | errGlobalWrite
  | errScorecardJobNotFound | errNonScorecardJobHasTokenWrite | errJobHasContainerOrServices
  | errScorecardJobRunsOn | errInvalidRunnerLabel | errUnallowedStepName
  | errScorecardJobEnvVars | errScorecardJobDefaults | errEmptyStepUses | errNoDefaultBranch
  | errNotFound | errInvalidInputs | errInvalidCodeQLVersion | errPurgeFailed
  deriving DecidableEq, Repr

namespace Sentinel

/-- The texts given to `errors.New`. -/
def text : Sentinel → String
  | errWritingBucket => "error writing to GCS bucket"
  | errMultipleCerts => "multiple certificates found for the entry"
  | errEmptyCertRef => "cert has empty repository ref"
  | errEmptyCertPath => "cert has empty repository path"
  | errCertMissingURI => "certificate has no URIs"
  | errCertWorkflowPathEmpty => "cert workflow path is empty"
  | errMismatchedCertAndRequest => "repository and branch of cert doesn't match that of request"
  | errNotDefaultBranch => "branch of cert isn't the repo's default branch"
  | errNoTlogEntry => "no transparency log entry found"
  | errNotRekordEntry => "not a rekord entry"
  | errMismatchedTlogEntry => "tlog entry does not match payload"
  | errNotOIDC => "ensure your GitHub workflow has \"id-token: write\" permissions"
  | errRekorSearchUnavailable => "rekor search index unavailable"
  | errWorkflowParse => "unable to parse github workflow"
  | errGlobalVarsOrDefaults => "workflow contains global env vars or defaults"
  | errGlobalWriteAll => "global perm is set to write-all"
  | errGlobalWrite => "global perm is set to write"
  | errScorecardJobNotFound => "workflow has no job that calls ossf/scorecard-action"
  | errNonScorecardJobHasTokenWrite =>
      "workflow has a non-scorecard job with id-token permissions"
  | errJobHasContainerOrServices => "job contains container or service"
  | errScorecardJobRunsOn =>
      "scorecard job should have exactly 1 'Ubuntu' virtual environment"
  | errInvalidRunnerLabel => "scorecard job has invalid runner label"
  | errUnallowedStepName => "job has unallowed step"
  | errScorecardJobEnvVars => "scorecard job contains env vars"
  | errScorecardJobDefaults => "scorecard job must not have defaults set"
  | errEmptyStepUses => "scorecard job must only have steps with `uses`"
  | errNoDefaultBranch => "no default branch"
  | errNotFound => "not found"
  | errInvalidInputs => "invalid inputs provided"
  | errInvalidCodeQLVersion => "codeql version invalid"
  | errPurgeFailed => "purge failed"

end Sentinel

/-- `workflowRestrictionLink`. -/
def workflowRestrictionLink : String :=
  "https://github.com/ossf/scorecard-action#workflow-restrictions"

/-- The errors of the package. -/
inductive ServerError : Type
  /-- A package-level value. -/
  | sentinel (s : Sentinel)
  /-- An error from outside the package, or `fmt.Errorf` without `%w`. -/
  | text (message : String)
  /-- `fmt.Errorf("before%wafter", e)`. -/
  | wrap (before : String) (e : ServerError) (after : String)
  /-- `fmt.Errorf("%wbetween%w", e₁, e₂)`. -/
  | wrapBoth (e₁ : ServerError) (between : String) (e₂ : ServerError)
  /-- `verificationError{e: e}`. -/
  | verification (e : ServerError)
  /-- `imposterCommitError{action: action, ref: ref}`. -/
  | imposterCommit (action ref : String)
  deriving DecidableEq, Repr

namespace ServerError

/-- The method `Error`. -/
def message : ServerError → String
  | sentinel s => s.text
  | text m => m
  | wrap before e after => before ++ e.message ++ after
  | wrapBoth e₁ between e₂ => e₁.message ++ between ++ e₂.message
  | verification e => "workflow verification failed: " ++ e.message ++ ", see " ++
      workflowRestrictionLink ++ " for details."
  | imposterCommit action ref => "imposter commit: " ++ ref ++ " does not belong to " ++ action

/-- `errors.Is(e, s)`. -/
def is (s : Sentinel) : ServerError → Bool
  | sentinel s' => s' == s
  | text _ | imposterCommit _ _ => false
  | wrap _ e _ | verification e => e.is s
  | wrapBoth e₁ _ e₂ => e₁.is s || e₂.is s

/-- `errors.As(e, &vErr)` for a `verificationError`. -/
def asVerification : ServerError → Bool
  | verification _ => true
  | sentinel _ | text _ | imposterCommit _ _ => false
  | wrap _ e _ => e.asVerification
  | wrapBoth e₁ _ e₂ => e₁.asVerification || e₂.asVerification

/-- `fmt.Errorf("prefix: %w", e)`. -/
def wrapf (context : String) (e : ServerError) : ServerError := .wrap (context ++ ": ") e ""

/-- What `fmt.Errorf("prefix: %w", nil)` returns: there is nothing to unwrap. -/
def wrapNil (context : String) : ServerError := .text (context ++ ": %!w(<nil>)")

@[simp] theorem is_wrapf (s : Sentinel) (context : String) (e : ServerError) :
    (wrapf context e).is s = e.is s := rfl

@[simp] theorem asVerification_wrapf (context : String) (e : ServerError) :
    (wrapf context e).asVerification = e.asVerification := rfl

end ServerError

end ScorecardInfra.Server
