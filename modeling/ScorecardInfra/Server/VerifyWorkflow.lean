import ScorecardInfra.GoStd.Maps
import ScorecardInfra.Interaction.Failure
import ScorecardInfra.Server.Diagnostics
import ScorecardInfra.Server.Errors

/-!
# The workflow verifier

`verifyScorecardWorkflow` accepts a workflow for publishing when its global settings are restricted,
one of its jobs calls the scorecard action, no other job has a token permission, and that job runs
on a plain Ubuntu runner with allow-listed steps only.

The verifier is a program over `VerifySig`: it asks a `commitVerifier` whether a repository contains
a commit, and ranges over maps in an order that the language leaves open. The workflow parser is a
parameter; `Workflow` and its parts have the fields that the verifier reads, and for `Env`,
`Defaults` and `Container` only whether they are set.

## Main definitions

* `Workflow`, `Job`, `Step`, `Permissions`, `WorkflowParser`.
* `parseStep`, `getStepUses`, `isCommitHash`, `isSupportedUbuntuRunner`, `findScorecardJob`.
* `selectScorecardJob`, `checkScorecardJob`, `verifyScorecardWorkflow`.

Source: `api/app/server/verify_workflow.go`.
-/

namespace ScorecardInfra.Server

open GoStd Interaction

/-! ### Parsed workflows -/

/-- An entry of a scope map. -/
structure PermissionScope where
  value : String
  deriving DecidableEq, Repr

/-- A `permissions` block: one value for all scopes, or a map of scopes. -/
structure Permissions where
  all : Option String
  scopes : GoMap String PermissionScope

/-- What a step executes. -/
inductive StepExec : Type
  | run
  | action (uses : Option String)
  deriving DecidableEq, Repr

/-- A step of a job. -/
structure Step where
  exec : Option StepExec
  deriving DecidableEq, Repr

/-- A `runs-on` section. -/
structure Runner where
  labels : List String
  deriving DecidableEq, Repr

/-- A job; `services` is the number of its services, if it has the section. -/
structure Job where
  permissions : Option Permissions
  container : Bool
  services : Option Nat
  runsOn : Option Runner
  env : Bool
  defaults : Bool
  steps : List Step

/-- A workflow. A job is identified by its key in the map. -/
structure Workflow where
  env : Bool
  defaults : Bool
  permissions : Option Permissions
  jobs : GoMap String (Option Job)

/-- The parsers of workflows and of YAML, and what they return for each content. -/
structure WorkflowParser where
  parse : String → Option Workflow × List Diagnostic
  yaml : String → Option YamlNode

/-- A job with its key. -/
abbrev SelectedJob : Type := Σ _ : String, Job

/-- `commit`. -/
structure Commit where
  owner : String
  repo : String
  hash : String
  deriving DecidableEq, Repr

/-! ### Steps and runners -/

/-- `isCommitHash`: the expression `^[0-9a-fA-F]{40}$` of `reCommitSHA`. -/
def isCommitHash (s : String) : Bool := s.toList.length == 40 && s.toList.all Hex.isDigit

/-- The submatches of `^([^@]*)@(.*)$`. -/
def refMatches (step : String) : Option (String × String) :=
  (Strings.cut step '@').filter fun p => !p.2.toList.contains '\n'

/-- The submatch of `^docker://([^:]*):.*$`. -/
def dockerMatches (step : String) : Option String := do
  let image ← Strings.cutPrefix step "docker://"
  let p ← (Strings.cut image ':').filter fun p => !p.2.toList.contains '\n'
  return p.1

/-- `parseStep`: the name and the ref of a `uses` string.

Source: `api/app/server/verify_workflow.go`, lines 230–246. -/
def parseStep (step : String) : String × String :=
  match refMatches step, dockerMatches step with
  | some p, _ => p
  | none, some name => (name, "")
  | none, none => ("", "")

/-- `getStepUses`. -/
def getStepUses (step : Step) : Option String :=
  match step.exec with
  | some (.action uses) => uses
  | some .run | none => none

/-- `minUbuntuVersion`. -/
def minUbuntuVersion : String := "22.04"

/-- The expression `\d{2}\.\d{2}`. -/
def isUbuntuVersion (s : String) : Bool :=
  match s.toList with
  | [a, b, dot, c, d] => a.isDigit && b.isDigit && dot == '.' && c.isDigit && d.isDigit
  | _ => false

/-- The first submatch of `ubuntuRunnerRe`, `^ubuntu-(latest|\d{2}\.\d{2})(-arm)?$`. -/
def ubuntuVersion (label : String) : Option String := do
  let version ← Strings.cutPrefix label "ubuntu-"
  let version := match Strings.cut version '-' with
    | some (version, "arm") => version
    | _ => version
  if version = "latest" ∨ isUbuntuVersion version = true then some version else none

/-- `isSupportedUbuntuRunner`.

Source: `api/app/server/verify_workflow.go`, lines 266–276. -/
def isSupportedUbuntuRunner (label : String) : Bool :=
  match ubuntuVersion label with
  | none => false
  | some version => version == "latest" || minUbuntuVersion ≤ version

/-- `hasServices`. -/
def hasServices (j : Job) : Bool :=
  match j.services with
  | none => false
  | some n => 0 < n

/-- The names for which `findScorecardJob` returns a job. -/
def scorecardNames : List String :=
  ["ossf/scorecard-action", "gcr.io/openssf/scorecard-action", "ghcr.io/ossf/scorecard-action"]

/-- The GitHub actions that a scorecard job may use. -/
def allowedActions : List String :=
  ["actions/checkout", "actions/create-github-app-token", "ossf/scorecard-action",
    "actions/upload-artifact", "github/codeql-action/upload-sarif", "step-security/harden-runner"]

/-- The container images that a scorecard job may use. -/
def allowedImages : List String :=
  ["gcr.io/openssf/scorecard-action", "ghcr.io/ossf/scorecard-action"]

/-- Whether a step calls the scorecard action. -/
def callsScorecard (step : Step) : Bool :=
  match getStepUses step with
  | none => false
  | some stepUses => scorecardNames.contains (parseStep stepUses).1

/-- `findScorecardJob`, over the jobs in the order in which they are met.

Source: `api/app/server/verify_workflow.go`, lines 209–228. -/
def findScorecardJob : List (Σ _ : String, Option Job) → Option SelectedJob
  | [] => none
  | ⟨_, none⟩ :: rest => findScorecardJob rest
  | ⟨id, some job⟩ :: rest =>
    if job.steps.any callsScorecard then some ⟨id, job⟩ else findScorecardJob rest

/-! ### The verifier -/

/-- The operations of the verifier. -/
inductive VerifyOp : Type
  /-- `verifier.contains(c)`. -/
  | contains (c : Commit)
  /-- Range over a map with `n` entries. -/
  | range (n : Nat)

/-- The operations of the verifier with their answers. -/
abbrev VerifySig : Signature where
  Op := VerifyOp
  Ans
    | .contains _ => Except ServerError Bool
    | .range n => GoMap.Order n

/-- Programs of the verifier. -/
abbrev Verify (α : Type) : Type := Fallible ServerError (Prog VerifySig) α

/-- The entries of a map in the order of one loop. -/
def rangeMap {κ ν : Type} (m : GoMap κ ν) : Verify (List (Σ _ : κ, ν)) := do
  let order ← Fallible.perform (S := VerifySig) (.range m.entries.length)
  return m.visit order

/-- The text of `%v` for a list of diagnostics. -/
def diagnosticsText (diags : List Diagnostic) : String :=
  "[" ++ " ".intercalate (diags.map Diagnostic.text) ++ "]"

/-- Parse the workflow; diagnostics on reviewed keys are let through.

Source: `api/app/server/verify_workflow.go`, lines 93–97. -/
def parsedWorkflow (P : WorkflowParser) (workflowContent : String) : Except ServerError Workflow :=
  let lintErrs := unreviewedDiagnostics (P.yaml workflowContent) (P.parse workflowContent).2
  match lintErrs, (P.parse workflowContent).1 with
  | [], some workflow => .ok workflow
  | lintErrs, _ =>
    .error (.wrap "" (.sentinel .errWorkflowParse) (": " ++ diagnosticsText lintErrs))

/-- The loop over the global scopes. -/
def checkGlobalScopes : List (Σ _ : String, PermissionScope) → Verify Unit
  | [] => pure ()
  | ⟨globalPerm, val⟩ :: rest => do
    failIf (val.value == "write") (.verification (.wrap "" (.sentinel .errGlobalWrite)
      (": permission for " ++ globalPerm ++ " is set to write")))
    checkGlobalScopes rest

/-- The checks of the workflow's permissions.

Source: `api/app/server/verify_workflow.go`, lines 104–118. -/
def checkGlobalPermissions : Option Permissions → Verify Unit
  | none => pure ()
  | some globalPerms => do
    failIf (globalPerms.all == some "write-all") (.verification (.sentinel .errGlobalWriteAll))
    let scopes ← rangeMap globalPerms.scopes
    checkGlobalScopes scopes

/-- The checks of the workflow's global settings.

Source: `api/app/server/verify_workflow.go`, lines 99–118. -/
def checkGlobals (workflow : Workflow) : Verify Unit := do
  failIf (workflow.env || workflow.defaults) (.verification (.sentinel .errGlobalVarsOrDefaults))
  checkGlobalPermissions workflow.permissions

/-- The scorecard job, or the error if there is none. -/
def selectedOrFail : Option SelectedJob → Verify SelectedJob
  | none => fail (.verification (.sentinel .errScorecardJobNotFound))
  | some scorecardJob => pure scorecardJob

/-- The checks of the workflow's global settings, and the selection of the scorecard job.

Source: `api/app/server/verify_workflow.go`, lines 99–124. -/
def selectScorecardJob (workflow : Workflow) : Verify SelectedJob := do
  checkGlobals workflow
  let jobs ← rangeMap workflow.jobs
  selectedOrFail (findScorecardJob jobs)

/-- Whether the scope map of a job sets `id-token` to `write`. -/
def hasTokenWrite (job : Job) : Bool :=
  match job.permissions with
  | none => false
  | some p => match p.scopes.lookup "id-token" with
    | none => false
    | some idToken => idToken.value == "write"

/-- The panic of a method or field of a nil pointer. -/
def nilDereference : String := "runtime error: invalid memory address or nil pointer dereference"

/-- The loop over the other jobs. A nil job other than the scorecard job panics.

Source: `api/app/server/verify_workflow.go`, lines 127–134. -/
def checkOtherJobs (scorecardJob : SelectedJob) : List (Σ _ : String, Option Job) → Verify Unit
  | [] => pure ()
  | ⟨_, none⟩ :: _ => crash nilDereference
  | ⟨id, some job⟩ :: rest => do
    failIf (id != scorecardJob.1 && hasTokenWrite job)
      (.verification (.sentinel .errNonScorecardJobHasTokenWrite))
    checkOtherJobs scorecardJob rest

/-- The checks of the runner labels; a nil `RunsOn` panics.

Source: `api/app/server/verify_workflow.go`, lines 141–151. -/
def checkRunner : Option Runner → Verify Unit
  | none => crash nilDereference
  | some ⟨[label]⟩ => failIf (!isSupportedUbuntuRunner label)
      (.verification (.wrap "" (.sentinel .errInvalidRunnerLabel) (": '" ++ label ++ "'")))
  | some _ => fail (.verification (.sentinel .errScorecardJobRunsOn))

/-- The commit of an action at a commit hash: the first two parts of the name are the owner and the
repository. -/
def actionCommit (stepName ref : String) : Commit :=
  let s := Strings.split stepName '/'
  ⟨s.getD 0 "", s.getD 1 "", ref⟩

/-- The check of an allow-listed action's ref. -/
def verifyRef (stepName ref : String) : Verify Unit :=
  if isCommitHash ref then do
    let answer ← Fallible.perform (S := VerifySig) (.contains (actionCommit stepName ref))
    let contains ← ofExcept answer
    failIf (!contains) (.verification (.imposterCommit stepName ref))
  else pure ()

/-- The switch over the name of a step. -/
def verifyStepName (stepName ref : String) : Verify Unit :=
  if allowedActions.contains stepName then verifyRef stepName ref
  else if allowedImages.contains stepName then pure ()
  else fail (.verification (.wrap "" (.sentinel .errUnallowedStepName) (": " ++ stepName)))

/-- The check of a step's `uses` string, if it has one. -/
def verifyUses : Option String → Verify Unit
  | none => fail (.verification (.sentinel .errEmptyStepUses))
  | some stepUses => verifyStepName (parseStep stepUses).1 (parseStep stepUses).2

/-- The loop over the steps of the scorecard job.

Source: `api/app/server/verify_workflow.go`, lines 167–203. -/
def verifySteps : List Step → Verify Unit
  | [] => pure ()
  | step :: rest => do
    verifyUses (getStepUses step)
    verifySteps rest

/-- The checks of the scorecard job by itself.

Source: `api/app/server/verify_workflow.go`, lines 136–205. -/
def checkJob (job : Job) : Verify Unit := do
  failIf (job.container || hasServices job)
    (.verification (.sentinel .errJobHasContainerOrServices))
  checkRunner job.runsOn
  failIf job.env (.verification (.sentinel .errScorecardJobEnvVars))
  failIf job.defaults (.verification (.sentinel .errScorecardJobDefaults))
  verifySteps job.steps

/-- The checks that follow the selection of the scorecard job. -/
def checkScorecardJob (workflow : Workflow) (scorecardJob : SelectedJob) : Verify Unit := do
  let jobs ← rangeMap workflow.jobs
  checkOtherJobs scorecardJob jobs
  checkJob scorecardJob.2

/-- `verifyScorecardWorkflow`.

Source: `api/app/server/verify_workflow.go`, lines 90–206. -/
def verifyScorecardWorkflow (P : WorkflowParser) (workflowContent : String) : Verify Unit := do
  let workflow ← ofExcept (parsedWorkflow P workflowContent)
  let scorecardJob ← selectScorecardJob workflow
  checkScorecardJob workflow scorecardJob

end ScorecardInfra.Server
