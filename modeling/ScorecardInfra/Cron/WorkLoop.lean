import ScorecardInfra.Cron.Request
import ScorecardInfra.Interaction.Monitor

/-!
# The work loop

`WorkLoop.Run` is a program over the interface `Subscriber`, the bucket of results and a `Worker`.
It pulls a request, looks whether the job's metadata exists and the request's result does not, lets
the worker process the request, and acknowledges it; on every other path it gives the request back.

`workProtocol` is the order of operations that the loop keeps to, whatever it is answered
(`ensures_workLoop`): one verdict for every request pulled, `ack` after a result has been found or
made, `nack` in every other case.

## Main definitions

* `HostOp`, `WorkOp`, `workLoopRun`.
* `Phase`, `workProtocol`.

## Main results

* `ensures_workLoop`.

Source: `cron/worker/worker.go`, lines 55–161.
-/

namespace ScorecardInfra.Cron

open GoStd Interaction

/-! ### Operations -/

/-- The operations of the loop apart from those of the subscriber: configuration, the bucket of
results and the worker. -/
inductive HostOp : Type
  | readConfig
  | getRequestSubscriptionURL
  | createSubscriber (subscriptionURL : String)
  | getResultDataBucketURL
  /-- `data.BlobExists`. -/
  | blobExists (bucketURL key : String)
  | process (req : ScorecardBatchRequest) (bucketURL : String)
  | postProcess
  deriving DecidableEq

/-- What the operations return. -/
abbrev HostOp.Result : HostOp → Type
  | readConfig | createSubscriber _ | process _ _ => Except CronError Unit
  | getRequestSubscriptionURL | getResultDataBucketURL => Except CronError String
  | blobExists _ _ => Except CronError Bool
  | postProcess => Unit

/-- The operations of the loop. -/
inductive WorkOp : Type
  | synchronousPull
  | ack
  | nack
  | close
  | host (o : HostOp)
  /-- The bound on the number of turns is reached: a run ends here unfinished. -/
  | outOfTurns
  deriving DecidableEq

/-- The operations of the loop with their answers. A pull returns nil when there is nothing more to
come. -/
abbrev WorkSig : Signature where
  Op := WorkOp
  Ans
    | .synchronousPull => Except CronError (Option ScorecardBatchRequest)
    | .ack | .nack => Unit
    | .close => Except CronError Unit
    | .host o => o.Result
    | .outOfTurns => Empty

/-- Programs of the loop. -/
abbrev Work (α : Type) : Type := Fallible CronError (Prog WorkSig) α

/-- Perform one operation. -/
def performWork (o : WorkOp) : Work (WorkSig.Ans o) := Fallible.perform (S := WorkSig) o

/-- Perform an operation of the host. -/
def performHost (o : HostOp) : Work o.Result := performWork (.host o)

/-! ### The loop -/

/-- `announceError`, apart from its log. -/
def announceError : Work Unit := performWork .nack

/-- `resultExists`. -/
def resultExists (sbr : ScorecardBatchRequest) (bucketURL : String) :
    Work (Except CronError Bool) := do
  let found ← performHost (.blobExists bucketURL (resultFilename sbr))
  return inContext "error during BlobExists" found

/-- `hasMetadataFile`. -/
def hasMetadataFile (req : ScorecardBatchRequest) (bucketURL : String) :
    Work (Except CronError Bool) := do
  let found ← performHost (.blobExists bucketURL (getShardMetadataFilename req.getJobTime))
  return inContext "data.BlobExists" found

/-- The end of a turn for a request with a result. -/
def acknowledge : Work Unit := do
  performHost .postProcess
  performWork .ack

/-- What the loop does after it has found out whether the result exists. -/
def processUnlessDone (req : ScorecardBatchRequest) (bucketURL : String) :
    Except CronError Bool → Work Unit
  | .error _ => announceError
  | .ok true => acknowledge
  | .ok false => do
    match ← performHost (.process req bucketURL) with
    | .error _ => announceError
    | .ok () => acknowledge

/-- What the loop does after it has found out whether the metadata exist. -/
def processIfEligible (req : ScorecardBatchRequest) (bucketURL : String) :
    Except CronError Bool → Work Unit
  | .error _ => announceError
  | .ok false => performWork .nack
  | .ok true => do
    let found ← resultExists req bucketURL
    processUnlessDone req bucketURL found

/-- One turn of the loop, from the result of the pull; it goes on or breaks.

Source: `cron/worker/worker.go`, lines 84–130. -/
def handlePulled (bucketURL : String) : Option ScorecardBatchRequest → Work (Unit ⊕ Unit)
  | none => pure (.inr ())
  | some req => do
    let hasMd ← hasMetadataFile req bucketURL
    processIfEligible req bucketURL hasMd
    return .inl ()

/-- One turn of the loop. -/
def workTurn (bucketURL : String) : Work (Unit ⊕ Unit) := do
  let pulled ← performWork .synchronousPull
  let req ← Interaction.ofExcept (inContext "subscriber.SynchronousPull" pulled)
  handlePulled bucketURL req

/-- The bound on the number of turns is reached. -/
def outOfTurns {α : Type} : Work α := do
  let x ← performWork .outOfTurns
  x.elim

/-- `WorkLoop.Run`, with at most `n` turns.

Source: `cron/worker/worker.go`, lines 55–137. -/
def workLoopRun (n : Nat) : Work Unit := do
  let read ← performHost .readConfig
  Interaction.ofExcept (inContext "config.ReadConfig" read)
  let url ← performHost .getRequestSubscriptionURL
  let subscriptionURL ← Interaction.ofExcept (inContext "config.GetRequestSubscriptionURL" url)
  let created ← performHost (.createSubscriber subscriptionURL)
  Interaction.ofExcept (inContext "config.CreateSubscriber" created)
  let url ← performHost .getResultDataBucketURL
  let bucketURL ← Interaction.ofExcept (inContext "config.GetResultDataBucketURL" url)
  loop outOfTurns (fun _ => workTurn bucketURL) n ()
  let closed ← performWork .close
  Interaction.ofExcept (inContext "subscriber.Close" closed)

/-! ### The protocol -/

/-- Where the loop is: before the subscriber is there, before a pull, or at a request: pulled, with
metadata, without result, with a result, post-processed, or to be given back; or after the last
pull. -/
inductive Phase : Type
  | setup
  | ready (bucketURL : String)
  | pulled (bucketURL : String) (req : ScorecardBatchRequest)
  | eligible (bucketURL : String) (req : ScorecardBatchRequest)
  | pending (bucketURL : String) (req : ScorecardBatchRequest)
  | done (bucketURL : String) (req : ScorecardBatchRequest)
  | announced (bucketURL : String) (req : ScorecardBatchRequest)
  | refused (bucketURL : String) (req : ScorecardBatchRequest)
  | stopped
  deriving DecidableEq

/-- The operations that the loop may perform in a phase. -/
def Phase.Allows : Phase → WorkOp → Prop
  | setup, .host .readConfig | setup, .host .getRequestSubscriptionURL
  | setup, .host (.createSubscriber _) | setup, .host .getResultDataBucketURL => True
  | ready _, .synchronousPull | ready _, .outOfTurns => True
  | pulled bucketURL req, o =>
    o = .host (.blobExists bucketURL (getShardMetadataFilename req.getJobTime))
  | eligible bucketURL req, o => o = .host (.blobExists bucketURL (resultFilename req))
  | pending bucketURL req, o => o = .host (.process req bucketURL)
  | done _ _, .host .postProcess => True
  | announced _ _, .ack => True
  | refused _ _, .nack => True
  | stopped, .close => True
  | _, _ => False

/-- The phase after the operations of the host. -/
def Phase.afterHost (phase : Phase) : (o : HostOp) → o.Result → Phase
  | .getResultDataBucketURL, .ok bucketURL => ready bucketURL
  | .blobExists _ _, answer => match phase, answer with
    | pulled bucketURL req, .ok true => eligible bucketURL req
    | pulled bucketURL req, .ok false | pulled bucketURL req, .error _ => refused bucketURL req
    | eligible bucketURL req, .ok true => done bucketURL req
    | eligible bucketURL req, .ok false => pending bucketURL req
    | eligible bucketURL req, .error _ => refused bucketURL req
    | phase, _ => phase
  | .process req bucketURL, .ok () => done bucketURL req
  | .process req bucketURL, .error _ => refused bucketURL req
  | .postProcess, () => match phase with
    | done bucketURL req => announced bucketURL req
    | phase => phase
  | .readConfig, _ | .getRequestSubscriptionURL, _ | .createSubscriber _, _
  | .getResultDataBucketURL, .error _ => phase

/-- The phase after an operation. -/
def Phase.after (phase : Phase) : (o : WorkOp) → WorkSig.Ans o → Phase
  | .synchronousPull, answer => match phase, answer with
    | ready bucketURL, .ok (some req) => pulled bucketURL req
    | ready _, .ok none | ready _, .error _ => stopped
    | phase, _ => phase
  | .ack, _ | .nack, _ => match phase with
    | announced bucketURL _ | refused bucketURL _ => ready bucketURL
    | phase => phase
  | .close, _ => phase
  | .host o, answer => phase.afterHost o answer

/-- **The protocol of the work loop.** -/
def workProtocol : Monitor WorkSig Phase where
  allows := Phase.Allows
  next phase e := phase.after e.op e.ans

/-! ### The loop keeps to its protocol -/

variable {bucketURL : String} {req : ScorecardBatchRequest} {E : Stop CronError → Phase → Prop}

theorem ensures_nack :
    Ensures workProtocol (.refused bucketURL req) (performWork .nack)
      (fun _ phase => phase = .ready bucketURL) E :=
  ensures_perform trivial fun _ => rfl

theorem ensures_acknowledge :
    Ensures workProtocol (.done bucketURL req) acknowledge
      (fun _ phase => phase = .ready bucketURL) E :=
  ensures_perform_bind trivial fun _ => ensures_perform trivial fun _ => rfl

theorem ensures_processUnlessDone :
    Ensures workProtocol (.eligible bucketURL req)
      (resultExists req bucketURL >>= processUnlessDone req bucketURL)
      (fun _ phase => phase = .ready bucketURL) E := by
  rw [resultExists, bind_assoc]
  refine ensures_perform_bind rfl ?_
  rintro (_ | _ | _)
  · exact ensures_nack
  · refine ensures_perform_bind rfl ?_
    rintro (_ | _)
    exacts [ensures_nack, ensures_acknowledge]
  · exact ensures_acknowledge

theorem ensures_processIfEligible :
    Ensures workProtocol (.pulled bucketURL req)
      (hasMetadataFile req bucketURL >>= processIfEligible req bucketURL)
      (fun _ phase => phase = .ready bucketURL) E := by
  rw [hasMetadataFile, bind_assoc]
  refine ensures_perform_bind rfl ?_
  rintro (_ | _ | _)
  exacts [ensures_nack, ensures_nack, ensures_processUnlessDone]

/-- **One turn** leads back to the next pull, or ends the loop. -/
theorem ensures_workTurn :
    Ensures workProtocol (.ready bucketURL) (workTurn bucketURL)
      (fun r phase => Sum.elim (fun _ => phase = .ready bucketURL) (fun _ => phase = .stopped) r)
      fun _ phase => phase = .stopped := by
  refine ensures_perform_bind trivial ?_
  rintro (_ | _ | req)
  · rfl
  · rfl
  · exact ensures_processIfEligible.bind fun _ _ h => h

/-- The phases in which the loop may return: no request is being handled. -/
def Phase.Final (phase : Phase) : Prop := phase = .setup ∨ phase = .stopped

/-- **The loop keeps to its protocol**, and returns when no request is being handled. -/
theorem ensures_workLoop (n : Nat) :
    Ensures workProtocol .setup (workLoopRun n) (fun _ => Phase.Final) fun _ => Phase.Final := by
  refine ensures_perform_bind trivial ?_
  rintro (_ | _)
  · exact Or.inl rfl
  refine ensures_perform_bind trivial ?_
  rintro (_ | subscriptionURL)
  · exact Or.inl rfl
  refine ensures_perform_bind trivial ?_
  rintro (_ | _)
  · exact Or.inl rfl
  refine ensures_perform_bind trivial ?_
  rintro (_ | bucketURL)
  · exact Or.inl rfl
  have hloop : Ensures workProtocol (.ready bucketURL)
      (loop outOfTurns (fun _ => workTurn bucketURL) n ()) (fun _ phase => phase = .stopped)
      fun _ phase => phase = .stopped := by
    refine ensures_loop (fun _ phase => phase = .ready bucketURL) ?_ ?_ n () _ rfl
    · rintro _ _ rfl
      exact ensures_perform_bind trivial fun x => x.elim
    · rintro _ _ rfl
      exact ensures_workTurn
  refine (hloop.mono (fun _ _ h => h) fun _ _ h => Or.inr h).bind ?_
  rintro _ _ rfl
  refine ensures_perform_bind trivial ?_
  rintro (_ | _)
  exacts [Or.inr rfl, Or.inr rfl]

end ScorecardInfra.Cron
