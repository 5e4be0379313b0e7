import ScorecardInfra.Cron.WorkLoop

/-!
# The scorecard worker

`processRequest` scans the repositories of a request. It exports the results of each of them to the
API's bucket, and at the end writes all of them under the request's key, to the bucket of raw
results first and to the bucket of results last. `workerRun` is the work loop with this worker.

The scanner, the serializers and the registry of checks are functions and operations from outside;
`BatchOp` are the operations of all batch programs.

A worker acknowledges a request only after its result has been found or written, and writes a result
only after the metadata of its job have been found (`ensures_workerRun`).

## Main definitions

* `BatchOp`, `ScorecardWorker`, `processRequest`, `workerRun`.
* `Held`, `Eligible`, `Stored`, `ScorecardWorker.May`, `ScorecardWorker.protocol`.

## Main results

* `ensures_processRequest`, `ensures_workerRun`.

Source: `cron/internal/worker/main.go`, lines 149–336.
-/

namespace ScorecardInfra.Cron

open GoStd Interaction

/-! ### Operations -/

/-- A `clients.Repo`: its URI and metadata. -/
structure RepoInfo where
  uri : String
  metadata : List String
  deriving DecidableEq

/-- The arguments of `scorecard.Run` that differ between the calls; `gitlab` says which client. -/
structure ScanJob where
  repo : RepoInfo
  gitlab : Bool
  commitSHA : String
  checks : List String
  deriving DecidableEq

/-- A check's result, with the text of its error if that is an internal one. -/
structure CheckResult where
  name : String
  internalError : Option String
  deriving DecidableEq

/-- `scorecard.Result`; `details` stands for what only the serializers read. -/
structure ScanResult where
  checks : List CheckResult
  repoCommitSHA : String
  scorecardVersion : String
  scorecardCommitSHA : String
  date : Time
  details : String
  deriving DecidableEq

/-- An error of `scorecard.Run`. -/
structure ScanError where
  message : String
  isRepoUnreachable : Bool
  deriving DecidableEq

/-- The operations of the batch programs. -/
inductive BatchOp : Type
  | work (o : WorkOp)
  | makeGitlabRepo (url : String)
  | makeGithubRepo (url : String)
  /-- `scorecard.Run`. -/
  | run (job : ScanJob)
  /-- `Purge` of the CDN's client. -/
  | purge (path : String)
  /-- `data.WriteToBlobStore`. -/
  | writeToBlobStore (bucketURL filename data : String)
  /-- Send a message to the topic in a goroutine of its own. -/
  | publish (body : String)
  /-- Wait for the goroutines; an error if one of them failed. -/
  | closePublisher
  deriving DecidableEq

/-- The operations with their answers. -/
abbrev BatchSig : Signature where
  Op := BatchOp
  Ans
    | .work o => WorkSig.Ans o
    | .makeGitlabRepo _ | .makeGithubRepo _ => Except String RepoInfo
    | .run _ => Except ScanError ScanResult
    | .purge _ => Except String Unit
    | .writeToBlobStore _ _ _ | .closePublisher => Except CronError Unit
    | .publish _ => Unit

/-- The batch programs. -/
abbrev Batch (α : Type) : Type := Fallible CronError (Prog BatchSig) α

/-- Perform one operation. -/
def performBatch (o : BatchOp) : Batch (BatchSig.Ans o) := Fallible.perform (S := BatchSig) o

/-- Write an object, with the error in a context. -/
def writeBlob (context bucketURL filename data : String) : Batch Unit := do
  let answer ← performBatch (.writeToBlobStore bucketURL filename data)
  Interaction.ofExcept (inContext context answer)

/-! ### The worker -/

/-- The fields of `ScorecardWorker` that `processRequest` uses, the flag `ignoreRuntimeErrors`, what
`provenance.Engine` returns, and the functions from outside: `policy.GetEnabled` for all commits or
single ones, and the serializers. -/
structure ScorecardWorker where
  rawBucketURL : String
  apiBucketURL : String
  blacklistedChecks : List String
  ignoreRuntimeErrors : Bool
  engine : String × String
  getEnabled : (commitBased : Bool) → RepoInfo → Except String (List String)
  asJSON2 : ScanResult → Except String String
  asRawJSON : ScanResult → Except String String

/-- `gitlabDisabledChecks`. -/
def gitlabDisabledChecks : List String :=
  ["Branch-Protection", "CI-Tests", "Contributors", "Dangerous-Workflow", "Dependency-Update-Tool",
    "SAST", "Token-Permissions", "Webhooks"]

/-- `clients.HeadSHA`. -/
def headSHA : String := "HEAD"

/-- What is written for a request so far: the results, and the raw results. -/
structure Buffers where
  results : String
  raw : String
  deriving DecidableEq

namespace ScorecardWorker

variable (sw : ScorecardWorker)

/-- The repository of a URL, on GitLab or GitHub. -/
def makeRepo (url : String) : Batch (Option (RepoInfo × Bool)) := do
  match ← performBatch (.makeGitlabRepo url) with
  | .ok repo => return some (repo, true)
  | .error _ => match ← performBatch (.makeGithubRepo url) with
    | .ok repo => return some (repo, false)
    | .error _ => return none

/-- The scan of a repository.

Source: `cron/internal/worker/main.go`, lines 190–217. -/
def scanJob (repoReq : Repo) (repo : RepoInfo) (gitlab : Bool) : Except CronError ScanJob := do
  let repo := { repo with metadata := repo.metadata ++ repoReq.metadata }
  let commit := repoReq.commit.getD ""
  let checksToRun ← libraryResult "error during policy.GetEnabled"
    (sw.getEnabled (commit != headSHA) repo)
  let disabledChecks := if gitlab then gitlabDisabledChecks else sw.blacklistedChecks
  return ⟨repo, gitlab, commit, checksToRun.filter fun check => !disabledChecks.contains check⟩

/-- The result of a scan, or nothing for a repository that is skipped. -/
def scanned : Except ScanError ScanResult → Except CronError (Option ScanResult)
  | .ok result => .ok (some result)
  | .error err =>
    if err.isRepoUnreachable then .ok none
    else if Strings.contains err.message "organization has an IP allow list" then .ok none
    else .error (.wrapf "error during scorecard.Run" (.text err.message))

/-- The first internal error of a check, unless these are ignored. -/
def checkRuntimeErrors (result : ScanResult) : Except CronError Unit :=
  match result.checks.filterMap fun check => check.internalError.map (check.name, ·) with
  | [] => .ok ()
  | (name, err) :: _ =>
    refuseIf (!sw.ignoreRuntimeErrors)
      (.text ("check " ++ name ++ " has a runtime error: " ++ err))

/-- The exports of a repository's results.

Source: `cron/internal/worker/main.go`, lines 280–318. -/
def exportResult (repo : RepoInfo) (sha json raw : String) : Batch Unit := do
  writeBlob "error during writing to exportBucketURL" sw.apiBucketURL
    (repo.uri ++ "/results.json") json
  let _ ← performBatch (.purge ("/projects/" ++ repo.uri))
  writeBlob "error during exportBucketURL with commit SHA" sw.apiBucketURL
    (repo.uri ++ "/" ++ sha ++ "/results.json") json
  let _ ← performBatch (.purge ("/projects/" ++ repo.uri ++ "?commit=" ++ sha))
  writeBlob "error during writing to exportBucketURL for raw results" sw.apiBucketURL
    (repo.uri ++ "/raw.json") raw
  writeBlob "error during exportBucketURL for raw results with commit SHA" sw.apiBucketURL
    (repo.uri ++ "/" ++ sha ++ "/raw.json") raw

/-- What is done with the result of a scan.

Source: `cron/internal/worker/main.go`, lines 238–318. -/
def publishScan (jobTime : Time) (repo : RepoInfo) (buffers : Buffers) (result : ScanResult) :
    Batch Buffers := do
  Interaction.ofExcept (sw.checkRuntimeErrors result)
  let result := { result with
    scorecardVersion := sw.engine.1, scorecardCommitSHA := sw.engine.2, date := jobTime }
  let results ← Interaction.ofExcept
    (libraryResult "error during result.AsJSON2" (sw.asJSON2 result))
  let json ← Interaction.ofExcept
    (libraryResult "error during result.AsJSON2 for export" (sw.asJSON2 result))
  let exportRaw ← Interaction.ofExcept
    (libraryResult "error during result.AsRawJSON for export" (sw.asRawJSON result))
  let raw ← Interaction.ofExcept
    (libraryResult "error during result.AsRawJSON" (sw.asRawJSON result))
  sw.exportResult repo result.repoCommitSHA json exportRaw
  return ⟨buffers.results ++ results, buffers.raw ++ raw⟩

/-- The scan of a repository with a valid URL. -/
def processValidRepo (jobTime : Time) (repoReq : Repo) (buffers : Buffers) (repo : RepoInfo)
    (gitlab : Bool) : Batch Buffers := do
  let job ← Interaction.ofExcept (sw.scanJob repoReq repo gitlab)
  let answer ← performBatch (.run job)
  match ← Interaction.ofExcept (scanned answer) with
  | none => return buffers
  | some result => sw.publishScan jobTime job.repo buffers result

/-- The body of the loop over the repositories. -/
def processRepo (jobTime : Time) (repoReq : Repo) (buffers : Buffers) : Batch Buffers := do
  match ← makeRepo (repoReq.url.getD "") with
  | none => return buffers
  | some (repo, gitlab) => sw.processValidRepo jobTime repoReq buffers repo gitlab

/-- The loop over the repositories. -/
def processRepos (jobTime : Time) : List Repo → Buffers → Batch Buffers
  | [], buffers => pure buffers
  | repoReq :: rest, buffers => do
    let buffers ← sw.processRepo jobTime repoReq buffers
    processRepos jobTime rest buffers

/-- `processRequest`.

Source: `cron/internal/worker/main.go`, lines 156–336. -/
def processRequest (batchRequest : ScorecardBatchRequest) (bucketURL : String) : Batch Unit := do
  let buffers ← sw.processRepos batchRequest.getJobTime batchRequest.repos ⟨"", ""⟩
  writeBlob "error during WriteToBlobStore2" sw.rawBucketURL
    (resultFilename batchRequest) buffers.raw
  writeBlob "error during WriteToBlobStore2" bucketURL (resultFilename batchRequest) buffers.results

/-- The operations of the work loop, with this worker. -/
def answer : (o : WorkOp) → Unit → Batch (WorkSig.Ans o × Unit)
  | .host (.process req bucketURL), _ => do
    let r ← attempt (sw.processRequest req bucketURL)
    return (r, ())
  | o, _ => do
    let x ← performBatch (.work o)
    return (x, ())

/-- `WorkLoop.Run` with this worker, with at most `n` turns. -/
def workerRun (n : Nat) : Batch Unit := do
  let r ← handle sw.answer (workLoopRun n).run ()
  Interaction.ofOutcome r.1

end ScorecardWorker

/-! ### The protocol of a worker -/

/-- The request that an event pulls. -/
def pulledBy : Event BatchSig → Option ScorecardBatchRequest
  | ⟨.work .synchronousPull, .ok (some req)⟩ => some req
  | _ => none

/-- The last request pulled. -/
def lastPulled (past : Trace BatchSig) : Option ScorecardBatchRequest :=
  (past.filterMap pulledBy).getLast?

/-- The bucket of results is known, and a request is held. -/
structure Held (bucketURL : String) (req : ScorecardBatchRequest) (past : Trace BatchSig) :
    Prop where
  configured : ⟨.work (.host .getResultDataBucketURL), .ok bucketURL⟩ ∈ past
  pulled : lastPulled past = some req

/-- The request's job has metadata. -/
structure Eligible (bucketURL : String) (req : ScorecardBatchRequest) (past : Trace BatchSig) : Prop
    extends Held bucketURL req past where
  metadata :
    ⟨.work (.host (.blobExists bucketURL (getShardMetadataFilename req.getJobTime))),
      .ok true⟩ ∈ past

/-- The request has a result: it was found, or written. -/
structure Stored (bucketURL : String) (req : ScorecardBatchRequest) (past : Trace BatchSig) : Prop
    extends Held bucketURL req past where
  result : ⟨.work (.host (.blobExists bucketURL (resultFilename req))), .ok true⟩ ∈ past ∨
    ∃ data, ⟨.writeToBlobStore bucketURL (resultFilename req) data, .ok ()⟩ ∈ past

/-- What a worker may do after `past`: it writes to the API's bucket, or writes the result of the
request that it holds, if that is eligible; it acknowledges a request with a result; it does not
publish. -/
def ScorecardWorker.May (sw : ScorecardWorker) (past : Trace BatchSig) : BatchOp → Prop
  | .writeToBlobStore bucketURL key _ => bucketURL = sw.apiBucketURL ∨
      ∃ resultBucketURL req, Eligible resultBucketURL req past ∧ key = resultFilename req
  | .work .ack => ∃ bucketURL req, Stored bucketURL req past
  | .publish _ | .closePublisher => False
  | _ => True

/-- The protocol of a worker. -/
def ScorecardWorker.protocol (sw : ScorecardWorker) : Monitor BatchSig (Trace BatchSig) :=
  .history sw.May

/-- What a worker knows in a phase of the work loop. -/
def Known (past : Trace BatchSig) : Phase → Prop
  | .setup | .stopped => True
  | .ready bucketURL | .refused bucketURL _ =>
    ⟨.work (.host .getResultDataBucketURL), .ok bucketURL⟩ ∈ past
  | .pulled bucketURL req => Held bucketURL req past
  | .eligible bucketURL req | .pending bucketURL req => Eligible bucketURL req past
  | .done bucketURL req | .announced bucketURL req => Stored bucketURL req past

section Protocol

variable {sw : ScorecardWorker} {bucketURL : String} {req : ScorecardBatchRequest}
  {past : Trace BatchSig} {E : Stop CronError → Trace BatchSig → Prop}

theorem lastPulled_snoc {e : Event BatchSig} (h : pulledBy e = none) :
    lastPulled (past ++ [e]) = lastPulled past := by
  simp [lastPulled, h]

theorem lastPulled_pull :
    lastPulled (past ++ [⟨.work .synchronousPull, .ok (some req)⟩]) = some req := by
  simp [lastPulled, pulledBy]

theorem mem_of_lastPulled (h : lastPulled past = some req) :
    ⟨.work .synchronousPull, .ok (some req)⟩ ∈ past := by
  obtain ⟨e, he, hreq⟩ := List.mem_filterMap.mp (List.mem_of_getLast? h)
  unfold pulledBy at hreq
  split at hreq
  · obtain rfl := Option.some.inj hreq
    exact he
  · cases hreq

theorem Held.snoc {e : Event BatchSig} (h : Held bucketURL req past) (he : pulledBy e = none) :
    Held bucketURL req (past ++ [e]) :=
  ⟨List.mem_append_left _ h.configured, (lastPulled_snoc he).trans h.pulled⟩

theorem Eligible.snoc {e : Event BatchSig} (h : Eligible bucketURL req past)
    (he : pulledBy e = none) : Eligible bucketURL req (past ++ [e]) :=
  ⟨h.toHeld.snoc he, List.mem_append_left _ h.metadata⟩

theorem Stored.snoc {e : Event BatchSig} (h : Stored bucketURL req past) (he : pulledBy e = none) :
    Stored bucketURL req (past ++ [e]) :=
  ⟨h.toHeld.snoc he, h.result.imp (List.mem_append_left _)
    fun ⟨data, h⟩ => ⟨data, List.mem_append_left _ h⟩⟩

/-- The operations of the loop over the repositories: it writes exports only. -/
def ScorecardWorker.Exports (sw : ScorecardWorker) : BatchOp → Prop
  | .makeGitlabRepo _ | .makeGithubRepo _ | .run _ | .purge _ => True
  | .writeToBlobStore bucketURL key _ => bucketURL = sw.apiBucketURL ∧
      ∃ dir, key = dir ++ "/results.json" ∨ key = dir ++ "/raw.json"
  | .work _ | .publish _ | .closePublisher => False

/-- The operations of `processRequest` for a request. -/
def ScorecardWorker.Processes (sw : ScorecardWorker) (req : ScorecardBatchRequest) (o : BatchOp) :
    Prop :=
  sw.Exports o ∨ ∃ bucketURL data, o = .writeToBlobStore bucketURL (resultFilename req) data

theorem performs_performBatch {P : BatchOp → Prop} {o : BatchOp} (h : P o) :
    (performBatch o).run.Performs P :=
  ⟨h, fun _ => trivial⟩

theorem performs_writeBlob {P : BatchOp → Prop} {context key data : String}
    (h : P (.writeToBlobStore bucketURL key data)) :
    (writeBlob context bucketURL key data).run.Performs P :=
  performs_run_bind (performs_performBatch h) fun _ => trivial

theorem performs_exportResult (repo : RepoInfo) (sha json raw : String) :
    (sw.exportResult repo sha json raw).run.Performs sw.Exports :=
  performs_run_bind (performs_writeBlob ⟨rfl, _, Or.inl rfl⟩) fun _ =>
  performs_run_bind (performs_performBatch trivial) fun _ =>
  performs_run_bind (performs_writeBlob ⟨rfl, _, Or.inl rfl⟩) fun _ =>
  performs_run_bind (performs_performBatch trivial) fun _ =>
  performs_run_bind (performs_writeBlob ⟨rfl, _, Or.inr rfl⟩) fun _ =>
  performs_writeBlob ⟨rfl, _, Or.inr rfl⟩

theorem performs_publishScan (t : Time) (repo : RepoInfo) (buffers : Buffers)
    (result : ScanResult) :
    (sw.publishScan t repo buffers result).run.Performs sw.Exports :=
  performs_run_bind trivial fun _ => performs_run_bind trivial fun _ =>
  performs_run_bind trivial fun _ => performs_run_bind trivial fun _ =>
  performs_run_bind trivial fun _ => performs_run_bind (performs_exportResult _ _ _ _)
    fun _ => trivial

theorem performs_processRepo (t : Time) (repoReq : Repo) (buffers : Buffers) :
    (sw.processRepo t repoReq buffers).run.Performs sw.Exports := by
  have hmake : ∀ url, (ScorecardWorker.makeRepo url).run.Performs sw.Exports := by
    intro url
    refine performs_run_bind (performs_performBatch trivial) ?_
    rintro (_ | repo)
    · refine performs_run_bind (performs_performBatch trivial) ?_
      rintro (_ | repo) <;> exact trivial
    · exact trivial
  refine performs_run_bind (hmake _) ?_
  rintro (_ | ⟨repo, gitlab⟩)
  · exact trivial
  · refine performs_run_bind trivial fun job =>
      performs_run_bind (performs_performBatch trivial) fun answer =>
      performs_run_bind trivial ?_
    rintro (_ | result)
    · exact trivial
    · exact performs_publishScan t job.repo buffers result

theorem performs_processRepos (t : Time) : (repos : List Repo) → (buffers : Buffers) →
    (sw.processRepos t repos buffers).run.Performs sw.Exports
  | [], _ => trivial
  | repoReq :: repos, buffers => performs_run_bind (performs_processRepo t repoReq buffers)
      fun buffers => performs_processRepos t repos buffers

/-- The operations of `processRequest` are allowed while the request is eligible, and it stays so.
-/
theorem ensures_of_processes {α : Type} {x : Batch α} (hx : x.run.Performs (sw.Processes req))
    (h : Eligible bucketURL req past) : Ensures sw.protocol past x
      (fun _ past => Eligible bucketURL req past) fun _ past => Eligible bucketURL req past := by
  refine hx.ensures (fun o past ho h => ?_) h
  rcases ho with ho | ⟨b, data, rfl⟩
  · cases o with
    | work | publish | closePublisher => exact ho.elim
    | writeToBlobStore => exact ⟨Or.inl ho.1, fun _ => h.snoc rfl⟩
    | makeGitlabRepo | makeGithubRepo | run | purge => exact ⟨trivial, fun _ => h.snoc rfl⟩
  · exact ⟨Or.inr ⟨bucketURL, req, h, rfl⟩, fun _ => h.snoc rfl⟩

/-- **Processing** an eligible request keeps to the protocol, and succeeds if its result has been
written. -/
theorem ensures_processRequest (h : Eligible bucketURL req past) :
    Ensures sw.protocol past (sw.processRequest req bucketURL)
      (fun _ past => Stored bucketURL req past) fun _ past => Eligible bucketURL req past := by
  refine (ensures_of_processes ((performs_processRepos _ _ _).mono fun _ => Or.inl) h).bind
    fun buffers past h => ?_
  refine (ensures_of_processes (performs_writeBlob (Or.inr ⟨_, _, rfl⟩)) h).bind fun _ past h => ?_
  refine ensures_perform_bind (Or.inr ⟨bucketURL, req, h, rfl⟩) ?_
  rintro (_ | _)
  · exact h.snoc rfl
  · exact ⟨h.toHeld.snoc rfl, Or.inr ⟨_, List.mem_append_right _ List.mem_cons_self⟩⟩

/-- **The operations of a worker** keep to the protocol in every phase of the work loop. -/
theorem ensures_workerAnswer (o : WorkOp) (phase : Phase) (h : Known past phase)
    (ho : phase.Allows o) : Ensures sw.protocol past (sw.answer o ())
      (fun p past => Known past (phase.after o p.1)) fun _ _ => True := by
  cases phase with
  | setup =>
    match o, ho with
    | .host .readConfig, _ | .host .getRequestSubscriptionURL, _ | .host (.createSubscriber _), _ =>
      exact ensures_perform_bind trivial fun _ => trivial
    | .host .getResultDataBucketURL, _ =>
      refine ensures_perform_bind trivial ?_
      rintro (_ | _)
      exacts [trivial, List.mem_append_right _ List.mem_cons_self]
  | ready bucketURL =>
    match o, ho with
    | .synchronousPull, _ =>
      refine ensures_perform_bind trivial ?_
      rintro (_ | _ | req)
      exacts [trivial, trivial, ⟨List.mem_append_left _ h, lastPulled_pull⟩]
    | .outOfTurns, _ => exact ensures_perform_bind trivial fun x => x.elim
  | pulled bucketURL req =>
    obtain rfl := ho
    refine ensures_perform_bind trivial ?_
    rintro (_ | _ | _)
    exacts [(h.snoc rfl).configured, (h.snoc rfl).configured,
      ⟨h.snoc rfl, List.mem_append_right _ List.mem_cons_self⟩]
  | eligible bucketURL req =>
    obtain rfl := ho
    refine ensures_perform_bind trivial ?_
    rintro (_ | _ | _)
    exacts [(h.snoc rfl).configured, h.snoc rfl,
      ⟨h.toHeld.snoc rfl, Or.inl (List.mem_append_right _ List.mem_cons_self)⟩]
  | pending bucketURL req =>
    obtain rfl := ho
    refine (ensures_attempt (R := fun r past => Known past
      (Phase.after (.pending bucketURL req) (.host (.process req bucketURL)) r)) ?_).bind
      fun _ _ h => h
    refine (ensures_processRequest h).mono (fun _ _ h => h) ?_
    rintro (_ | _) past h
    exacts [h.configured, trivial]
  | done bucketURL req =>
    match o, ho with
    | .host .postProcess, _ => exact ensures_perform_bind trivial fun _ => h.snoc rfl
  | announced bucketURL req =>
    match o, ho with
    | .ack, _ => exact ensures_perform_bind ⟨bucketURL, req, h⟩ fun _ => (h.snoc rfl).configured
  | refused bucketURL req =>
    match o, ho with
    | .nack, _ => exact ensures_perform_bind trivial fun _ => List.mem_append_left _ h
  | stopped =>
    match o, ho with
    | .close, _ => exact ensures_perform_bind trivial fun _ => trivial

/-- **A worker keeps to its protocol.** -/
theorem ensures_workerRun (sw : ScorecardWorker) (n : Nat) :
    Ensures sw.protocol [] (sw.workerRun n) (fun _ _ => True) fun _ _ => True := by
  refine (ensures_handle (fun phase _ past => Known past phase)
    (fun o phase _ _ h ho => ensures_workerAnswer o phase h ho) _ () .setup []
    (ensures_workLoop n) trivial).bind fun p _ _ => ?_
  cases p.1 <;> exact trivial

end Protocol

end ScorecardInfra.Cron
