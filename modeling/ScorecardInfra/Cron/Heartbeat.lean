import ScorecardInfra.Cron.SqsSubscriber
import ScorecardInfra.Interaction.Interleaving

/-!
# The heartbeat of the SQS subscriber

While a message is held a goroutine renews its visibility (`extendVisibility`). It is started by
`SynchronousPull`, and stopped and waited for by `Ack`, `Nack` and `Close`. The goroutines and the
caller of the subscriber are threads of a world, whose shared state has the stop channels, the wait
group and the message (`Queue`). The caller is any program that keeps to `callProtocol`.

At most one goroutine is alive, and it renews the message that is held (`heartbeat_protocol`).

## Main definitions

* `BeatOp`, `extendVisibility`, `callProtocol`, `caller`, `Queue`, `beatWorld`.
* `Beat`, `beatMonitor`, `Queue.Consistent`, `BeatInvariant`.

## Main results

* `ensures_beatAnswer`, `invariant_of_reachable_beat`, `heartbeat_protocol`.

Source: `cron/internal/pubsub/subscriber_sqs.go`, lines 178–341.
-/

namespace ScorecardInfra.Cron

open GoStd Interaction

/-! ### Operations -/

/-- `sqs.ChangeMessageVisibilityInput`. -/
structure VisibilityInput where
  queueURL : String
  receiptHandle : String
  visibilityTimeout : Int32
  deriving DecidableEq

/-- The cases of the goroutine's `select`. -/
inductive Wakeup : Type
  | ctxDone
  | stop
  | tick
  deriving DecidableEq

/-- The operations of the caller and of the goroutines. -/
inductive BeatOp : Type
  | caller (o : SqsOp)
  /-- A goroutine begins, with the receipt handle that it was started with. -/
  | begin
  | select
  /-- `client.ChangeMessageVisibility` is called. -/
  | changeMessageVisibility (input : VisibilityInput)
  /-- The call returns. -/
  | visibilityChanged
  /-- `wg.Done()`. -/
  | wgDone
  /-- The bound on the number of turns is reached. -/
  | outOfTurns
  deriving DecidableEq

/-- The operations with their answers. -/
abbrev BeatSig : Signature where
  Op := BeatOp
  Ans
    | .caller o => SqsSig.Ans o
    | .begin => String
    | .select => Wakeup
    | .changeMessageVisibility _ | .wgDone => Unit
    | .visibilityChanged => Except String Unit
    | .outOfTurns => Empty

/-- Programs of the threads. -/
abbrev Beating (α : Type) : Type := Fallible CronError (Prog BeatSig) α

/-- Perform one operation. -/
def performBeat (o : BeatOp) : Beating (BeatSig.Ans o) := Fallible.perform (S := BeatSig) o

/-! ### The goroutine -/

/-- The fields of `sqsSubscriber` that the goroutine reads: the queue, and the extension in seconds.
-/
structure Renewal where
  queueURL : String
  extension : Int32

/-- The loop body of `extendVisibility`; it returns or goes on. -/
def beatTurn (r : Renewal) (handle : String) : Beating (Unit ⊕ Unit) := do
  match ← performBeat .select with
  | .ctxDone | .stop => return .inr ()
  | .tick => do
    performBeat (.changeMessageVisibility ⟨r.queueURL, handle, r.extension⟩)
    let _ ← performBeat .visibilityChanged
    return .inl ()

/-- `extendVisibility`, with at most `n` turns.

Source: `cron/internal/pubsub/subscriber_sqs.go`, lines 271–296. -/
def extendVisibility (r : Renewal) (n : Nat) (handle : String) : Beating Unit := do
  loop (performBeat .outOfTurns >>= fun x => x.elim) (fun _ => beatTurn r handle) n ()
  performBeat .wgDone

/-- A goroutine of the subscriber. -/
def goroutine (r : Renewal) (n : Nat) : Beating Unit := do
  let handle ← performBeat .begin
  extendVisibility r n handle

/-! ### The caller -/

/-- What a caller has done last. -/
inductive CallPhase : Type
  | idle
  | holding
  | closed
  deriving DecidableEq

/-- The calls that are allowed: `Ack` or `Nack` once after a request has been pulled, before the
next pull, and nothing but `Close` after `Close`. -/
def CallPhase.Allows : CallPhase → WorkOp → Prop
  | .idle, .synchronousPull | .holding, .ack | .holding, .nack => True
  | _, .close | _, .host _ | _, .outOfTurns => True
  | _, _ => False

/-- The phase after a call. -/
def CallPhase.after (phase : CallPhase) : (o : WorkOp) → WorkSig.Ans o → CallPhase
  | .synchronousPull, .ok (some _) => .holding
  | .synchronousPull, .ok none | .synchronousPull, .error _ => phase
  | .ack, _ | .nack, _ => .idle
  | .close, _ => .closed
  | .host _, _ => phase

/-- The protocol of a caller of the subscriber. -/
def callProtocol : Monitor WorkSig CallPhase where
  allows := CallPhase.Allows
  next phase e := phase.after e.op e.ans

/-- The operations of the caller among those of all threads. -/
def liftCaller (o : SqsOp) (_ : Unit) : Beating (SqsSig.Ans o × Unit) := do
  let x ← performBeat (.caller o)
  return (x, ())

/-- A caller of the subscriber. -/
def caller {α : Type} (codec : RequestCodec) (n : Nat) (p : Prog WorkSig α) : Beating Unit := do
  let _ ← handle liftCaller (handle (sqsAnswer codec n) p .new).run ()
  pure ()

/-! ### The shared state -/

/-- A goroutine's start: the message that was held, and the receipt handle. -/
structure Started where
  message : Option Message
  handle : String
  deriving DecidableEq

/-- What the threads share: the message that has been received and not yet been acknowledged or
given back, the starts of the goroutines, how often the stop channel of each was closed, which of
them are alive, the wait group, and whether the context is cancelled. -/
structure Queue where
  message : Option Message
  started : List Started
  closes : Nat → Nat
  alive : List Nat
  wg : Int
  cancelled : Bool

namespace Queue

/-- No message and no goroutine. -/
def initial : Queue := ⟨none, [], fun _ => 0, [], 0, false⟩

/-- The effect of an operation of the caller. -/
def perform (q : Queue) : (o : SqsOp) → SqsSig.Ans o → Queue
  | .receive, .ok (some msg) => { q with message := some msg }
  | .startHeartbeat handle, _ =>
    { q with
      started := q.started ++ [⟨q.message, handle⟩]
      alive := q.alive ++ [q.started.length]
      wg := q.wg + 1 }
  | .closeStop, _ =>
    let stop := q.started.length - 1
    { q with closes := Function.update q.closes stop (q.closes stop + 1) }
  | .ack _, _ | .nack _, _ | .shutdown, _ => { q with message := none }
  | _, _ => q

/-- The answers that an operation of the caller may get. -/
def MayAnswer (q : Queue) : (o : SqsOp) → SqsSig.Ans o → Prop
  | .waitHeartbeat, _ => q.wg = 0
  | .ctxErr, cancelled => cancelled = q.cancelled
  | .waitBackoff _, cancelled => cancelled = true → q.cancelled = true
  | _, _ => True

/-- The goroutine `i` has returned. -/
def finish (q : Queue) (i : Nat) : Queue := { q with alive := q.alive.erase i, wg := q.wg - 1 }

/-- What an operation of the goroutine `i` does. -/
def Goes (q : Queue) (i : Nat) : (o : BeatOp) → BeatSig.Ans o → Queue → Prop
  | .begin, handle, q' => (∃ start, q.started[i]? = some start ∧ handle = start.handle) ∧ q' = q
  | .select, .ctxDone, q' => q.cancelled = true ∧ q' = q
  | .select, .stop, q' => 0 < q.closes i ∧ q' = q
  | .wgDone, _, q' => q' = q.finish i
  | _, _, q' => q' = q

end Queue

/-- A caller, which is the thread `none`, and goroutines. -/
def beatWorld {α : Type} (codec : RequestCodec) (r : Renewal) (n : Nat) (p : Prog WorkSig α) :
    World BeatSig (Option Nat) Queue (Except (Stop CronError) Unit) where
  start
    | none => (caller codec n p).run
    | some _ => (goroutine r n).run
  answer
    | none, _, q, ⟨.caller o, x⟩, q' => q.MayAnswer o x ∧ q' = q.perform o x
    | none, _, _, _, _ => False
    | some i, _, q, ⟨o, x⟩, q' => q.Goes i o x q'
  restarts _ := False
  surroundings q q' := q' = { q with cancelled := true }

/-! ### The subscriber and the heartbeat -/

/-- What has become of the message and of its heartbeat. -/
inductive Beat : Type
  | idle
  | received (msg : Message)
  | beating (msg : Message)
  | stopping (msg : Message)
  | stopped (msg : Message)
  deriving DecidableEq

/-- The operations of the subscriber in each phase. -/
def Beat.Allows : Beat → SqsOp → Prop
  | .idle, .receive | .idle, .waitHeartbeat | .idle, .shutdown | .stopped _, .shutdown => True
  | .received msg, .startHeartbeat handle => receiptHandleFromMessage msg = some handle
  | .beating _, .closeStop | .stopping _, .waitHeartbeat => True
  | .received msg, .nack msg' | .stopped msg, .ack msg' | .stopped msg, .nack msg' => msg' = msg
  | _, .host _ | _, .ctxErr | _, .waitBackoff _ | _, .outOfTurns => True
  | _, _ => False

/-- The phase after an operation. -/
def Beat.after (beat : Beat) : (o : SqsOp) → SqsSig.Ans o → Beat
  | .receive, .ok (some msg) => .received msg
  | .startHeartbeat _, _ => match beat with
    | .received msg => .beating msg
    | beat => beat
  | .closeStop, _ => match beat with
    | .beating msg => .stopping msg
    | beat => beat
  | .waitHeartbeat, _ => match beat with
    | .stopping msg => .stopped msg
    | beat => beat
  | .ack _, _ | .nack _, _ | .shutdown, _ => .idle
  | _, _ => beat

/-- Follows the subscriber. -/
def beatMonitor : Monitor SqsSig Beat where
  allows := Beat.Allows
  next beat e := beat.after e.op e.ans

theorem Beat.allows_outOfTurns (beat : Beat) : beat.Allows .outOfTurns := by
  cases beat <;> exact trivial

theorem Beat.allows_host (beat : Beat) (o : HostOp) : beat.Allows (.host o) := by
  cases beat <;> exact trivial

/-- What the subscriber's fields have to do with the phases. -/
def Agrees : CallPhase → SqsSubscriber → Beat → Prop
  | .idle, s, beat | .closed, s, beat => s.stopClosed ≠ some false ∧ beat = .idle
  | .holding, s, beat => ∃ msg, s = ⟨some msg, some false⟩ ∧ beat = .beating msg

section Subscriber

variable {codec : RequestCodec} {s : SqsSubscriber} {msg : Message}
  {E : Stop CronError → Beat → Prop}

/-- The heartbeat of a message is stopped and waited for. -/
theorem ensures_stopHeartbeat_beating :
    Ensures beatMonitor (.beating msg) (SqsSubscriber.stopHeartbeat ⟨some msg, some false⟩)
      (fun s beat => s = ⟨some msg, some true⟩ ∧ beat = .stopped msg) E :=
  ensures_perform_bind trivial fun _ => ensures_perform_bind trivial fun _ => ⟨rfl, rfl⟩

/-- There is no heartbeat to stop. -/
theorem ensures_stopHeartbeat_idle (hs : s.stopClosed ≠ some false) :
    Ensures beatMonitor .idle s.stopHeartbeat
      (fun s beat => s.stopClosed ≠ some false ∧ beat = .idle) E := by
  unfold SqsSubscriber.stopHeartbeat
  split
  · exact ⟨hs, rfl⟩
  · rename_i closed hclosed
    obtain rfl : closed = true := by
      cases closed
      exacts [absurd hclosed hs, rfl]
    exact ensures_perform_bind trivial fun _ => ⟨nofun, rfl⟩

theorem ensures_ack_beating :
    Ensures beatMonitor (.beating msg) (SqsSubscriber.ack ⟨some msg, some false⟩)
      (Agrees .idle) E := by
  refine ensures_stopHeartbeat_beating.bind ?_
  rintro _ _ ⟨rfl, rfl⟩
  exact ensures_perform_bind rfl fun _ => ⟨nofun, rfl⟩

theorem ensures_nack_beating :
    Ensures beatMonitor (.beating msg) (SqsSubscriber.nack ⟨some msg, some false⟩)
      (Agrees .idle) E := by
  refine ensures_stopHeartbeat_beating.bind ?_
  rintro _ _ ⟨rfl, rfl⟩
  exact ensures_perform_bind rfl fun _ => ⟨nofun, rfl⟩

theorem ensures_close_beat {phase : CallPhase} {beat : Beat} (h : Agrees phase s beat) :
    Ensures beatMonitor beat s.close (fun p beat => Agrees .closed p.2 beat) E := by
  have hshutdown : ∀ {s : SqsSubscriber} {beat : Beat}, s.stopClosed ≠ some false →
      beat.Allows .shutdown → Ensures beatMonitor beat
        (performSqs .shutdown >>= fun shutdown => pure
          (libraryResult "error during subscription.Shutdown" shutdown, s))
        (fun p beat => Agrees .closed p.2 beat) E := fun hs hbeat =>
    ensures_perform_bind hbeat fun _ => ⟨hs, rfl⟩
  cases phase with
  | idle | closed =>
    obtain ⟨hs, rfl⟩ := h
    refine (ensures_stopHeartbeat_idle hs).bind ?_
    rintro s _ ⟨hs, rfl⟩
    exact hshutdown hs trivial
  | holding =>
    obtain ⟨msg, rfl, rfl⟩ := h
    refine ensures_stopHeartbeat_beating.bind ?_
    rintro _ _ ⟨rfl, rfl⟩
    exact hshutdown nofun trivial

/-- What `receive` returns. -/
def ReceivedBeat : Except CronError (Option Message) → Beat → Prop
  | .ok (some msg), beat => beat = .received msg
  | .ok none, beat | .error _, beat => beat = .idle

theorem ensures_receive_beat {n : Nat} : Ensures beatMonitor .idle (receive n) ReceivedBeat E := by
  refine ensures_loop (fun _ beat => beat = .idle) ?_ ?_ n _ _ rfl
  · exact fun _ beat _ => ensures_perform_bind beat.allows_outOfTurns fun x => x.elim
  · rintro backoff _ rfl
    refine ensures_perform_bind trivial ?_
    rintro (err | _ | msg)
    · refine ensures_perform_bind trivial fun stopped => ?_
      split
      · exact rfl
      split
      · exact rfl
      refine ensures_perform_bind trivial fun stopped => ?_
      split <;> exact rfl
    · exact rfl
    · exact rfl

/-- What is known after `SynchronousPull`. -/
def PulledBeat (p : Except CronError (Option ScorecardBatchRequest) × SqsSubscriber) (beat : Beat) :
    Prop :=
  match p.1 with
  | .ok (some _) => Agrees .holding p.2 beat
  | .ok none | .error _ => Agrees .idle p.2 beat

theorem ensures_pullReceived_beat {r : Except CronError (Option Message)} {beat : Beat}
    (hs : s.stopClosed ≠ some false) (hr : ReceivedBeat r beat) :
    Ensures beatMonitor beat (SqsSubscriber.pullReceived codec s r)
      (fun r beat => Sum.elim (Agrees .idle · beat) (PulledBeat · beat) r) E := by
  match r, hr with
  | .error err, hr => exact ⟨hs, hr⟩
  | .ok none, hr => exact ⟨hs, hr⟩
  | .ok (some msg), hr =>
    subst hr
    rw [SqsSubscriber.pullReceived]
    split
    · exact ensures_perform_bind rfl fun _ => ⟨hs, rfl⟩
    · rename_i handle hhandle
      refine ensures_perform_bind hhandle fun _ => ?_
      split
      · exact ⟨msg, rfl, rfl⟩
      · exact ensures_nack_beating.bind fun _ _ h => h

theorem ensures_synchronousPull_beat {n : Nat} {beat : Beat} (h : Agrees .idle s beat) :
    Ensures beatMonitor beat (s.synchronousPull codec n) PulledBeat E := by
  refine ensures_loop (Agrees .idle) ?_ ?_ n s beat h
  · exact fun _ beat _ => ensures_perform_bind beat.allows_outOfTurns fun x => x.elim
  · rintro s _ ⟨hs, rfl⟩
    exact ensures_receive_beat.bind fun r beat hr => ensures_pullReceived_beat hs hr

/-- **The operations of the subscriber** keep its fields and the phases in agreement. -/
theorem ensures_beatAnswer (n : Nat) (o : WorkOp) (phase : CallPhase) (s : SqsSubscriber)
    (beat : Beat)
    (h : Agrees phase s beat) (ho : phase.Allows o) :
    Ensures beatMonitor beat (sqsAnswer codec n o s)
      (fun p beat => Agrees (phase.after o p.1) p.2 beat) E := by
  match phase, o, ho with
  | .idle, .synchronousPull, _ =>
    refine (ensures_synchronousPull_beat h).mono ?_ fun _ _ h => h
    rintro ⟨_ | _ | req, s⟩ beat hbeat
    exacts [hbeat, hbeat, hbeat]
  | .holding, .ack, _ =>
    obtain ⟨msg, rfl, rfl⟩ := h
    exact ensures_ack_beating.bind fun _ _ h => h
  | .holding, .nack, _ =>
    obtain ⟨msg, rfl, rfl⟩ := h
    exact ensures_nack_beating.bind fun _ _ h => h
  | phase, .close, _ => exact ensures_close_beat h
  | phase, .host o, _ => exact ensures_perform_bind (beat.allows_host o) fun _ => h
  | phase, .outOfTurns, _ => exact ensures_perform_bind beat.allows_outOfTurns fun x => x.elim

end Subscriber

/-! ### The caller's thread -/

/-- Follows the caller. -/
def callerMonitor : Monitor BeatSig Beat where
  allows
    | beat, .caller o => beat.Allows o
    | _, _ => False
  next
    | beat, ⟨.caller o, x⟩ => beat.after o x
    | beat, _ => beat

/-- **A caller that keeps to the protocol** makes the subscriber keep to its phases. -/
theorem ensures_caller {α : Type} {codec : RequestCodec} {n : Nat} {p : Prog WorkSig α}
    (hp : p.Safe callProtocol (fun _ _ => True) .idle) :
    Ensures callerMonitor .idle (caller codec n p) (fun _ _ => True) fun _ _ => True := by
  have hsqs : Ensures beatMonitor .idle (handle (sqsAnswer codec n) p .new)
      (fun p beat => ∃ phase, True ∧ Agrees phase p.2 beat) fun _ _ => True :=
    ensures_handle Agrees (fun o phase s beat h ho => ensures_beatAnswer n o phase s beat h ho)
      p .new
      .idle .idle hp ⟨nofun, rfl⟩
  have hlift := ensures_handle (M := callerMonitor) (h := liftCaller) (E := fun _ _ => True)
    (fun beat _ beat' => beat' = beat)
    (fun o beat _ beat' h ho => by
      subst h
      exact ensures_perform_bind (show callerMonitor.allows beat' (.caller o) from ho) fun _ => rfl)
    _ () .idle .idle hsqs rfl
  exact hlift.bind fun _ _ _ => trivial

/-! ### The goroutines' threads -/

/-- Where a goroutine is. -/
inductive Stage : Type
  | fresh
  | running (handle : String)
  | finished
  deriving DecidableEq

/-- Follows a goroutine: it renews with the handle that it was started with, and is done once. -/
def goroutineMonitor : Monitor BeatSig Stage where
  allows
    | .fresh, .begin => True
    | .running handle, .changeMessageVisibility input => input.receiptHandle = handle
    | .running _, .select | .running _, .visibilityChanged | .running _, .wgDone
    | .running _, .outOfTurns => True
    | _, _ => False
  next
    | _, ⟨.begin, handle⟩ => .running handle
    | _, ⟨.wgDone, _⟩ => .finished
    | stage, _ => stage

theorem ensures_goroutine (r : Renewal) (n : Nat) :
    Ensures goroutineMonitor .fresh (goroutine r n) (fun _ _ => True) fun _ _ => True := by
  refine ensures_perform_bind trivial fun handle => ?_
  have hloop : Ensures goroutineMonitor (.running handle)
      (loop (performBeat .outOfTurns >>= fun x => x.elim) (fun _ => beatTurn r handle) n ())
      (fun _ stage => stage = .running handle) fun _ _ => True := by
    refine ensures_loop (fun _ stage => stage = .running handle) ?_ ?_ n _ _ rfl
    · rintro _ _ rfl
      exact ensures_perform_bind trivial fun x => x.elim
    · rintro _ _ rfl
      refine ensures_perform_bind trivial ?_
      rintro (_ | _ | _)
      · exact rfl
      · exact rfl
      · exact ensures_perform_bind rfl fun _ => ensures_perform_bind trivial fun _ => rfl
  refine hloop.bind ?_
  rintro _ _ rfl
  exact ensures_perform trivial fun _ => trivial

/-! ### The invariant -/

/-- The last goroutine was started for the message; it is the only one alive, or none is. -/
def Queue.Beats (q : Queue) (msg : Message) : Prop :=
  (∃ handle, receiptHandleFromMessage msg = some handle ∧
    q.started.getLast? = some ⟨some msg, handle⟩) ∧
  (q.alive = [q.started.length - 1] ∧ q.wg = 1 ∨ q.alive = [] ∧ q.wg = 0)

/-- What the shared state has to do with the phases of the subscriber. -/
def Queue.Consistent (q : Queue) : Beat → Prop
  | .idle => q.message = none ∧ q.alive = [] ∧ q.wg = 0
  | .received msg | .stopped msg => q.message = some msg ∧ q.alive = [] ∧ q.wg = 0
  | .beating msg => q.message = some msg ∧ q.Beats msg ∧ q.closes (q.started.length - 1) = 0
  | .stopping msg => q.message = some msg ∧ q.Beats msg

/-- A stop channel is closed once at most, and not before it is made. -/
structure Queue.Sound (q : Queue) (beat : Beat) : Prop where
  closes_le : ∀ i, q.closes i ≤ 1
  closes_eq : ∀ i, q.started.length ≤ i → q.closes i = 0
  consistent : q.Consistent beat

/-- What the shared state has to do with a goroutine. -/
def Queue.Knows (q : Queue) (i : Nat) : Stage → Prop
  | .fresh => i < q.started.length → i ∈ q.alive
  | .running handle => i ∈ q.alive ∧ ∃ start, q.started[i]? = some start ∧ start.handle = handle
  | .finished => i < q.started.length

namespace Queue

variable {q : Queue} {beat : Beat} {stage : Stage} {i : Nat}

/-- **The operations of the caller** keep the shared state sound. -/
theorem Sound.perform {o : SqsOp} {x : SqsSig.Ans o} (h : q.Sound beat) (ho : beat.Allows o)
    (hx : q.MayAnswer o x) : (q.perform o x).Sound (beat.after o x) := by
  obtain ⟨hle, heq, hc⟩ := h
  match beat, o, x, ho with
  | .idle, .receive, .ok (some msg), _ => exact ⟨hle, heq, rfl, hc.2⟩
  | .idle, .receive, .ok none, _ | .idle, .receive, .error _, _ => exact ⟨hle, heq, hc⟩
  | .idle, .waitHeartbeat, _, _ => exact ⟨hle, heq, hc⟩
  | .idle, .shutdown, _, _ => exact ⟨hle, heq, rfl, hc.2⟩
  | .stopped msg, .shutdown, _, _ | .stopped msg, .ack _, _, _ | .stopped msg, .nack _, _, _
  | .received msg, .nack _, _, _ => exact ⟨hle, heq, rfl, hc.2⟩
  | .received msg, .startHeartbeat handle, _, ho =>
    obtain ⟨hmsg, halive, hwg⟩ := hc
    refine ⟨hle, fun i hi => heq i ?_, hmsg, ⟨⟨handle, ho, ?_⟩, Or.inl ⟨?_, ?_⟩⟩, heq _ ?_⟩
    · have hi' : (q.started ++ [_]).length ≤ i := hi
      rw [List.length_append] at hi'
      omega
    · simp [Queue.perform, hmsg]
    · simp [Queue.perform, halive]
    · simp [Queue.perform, hwg]
    · simp [Queue.perform]
  | .beating msg, .closeStop, _, _ =>
    obtain ⟨hmsg, hbeats, hopen⟩ := hc
    have hpos : 0 < q.started.length := by
      obtain ⟨⟨handle, -, hlast⟩, -⟩ := hbeats
      exact List.length_pos_of_mem (List.mem_of_getLast? hlast)
    refine ⟨fun i => ?_, fun i hi => ?_, hmsg, hbeats⟩
    · by_cases hi : i = q.started.length - 1
      · simp [Queue.perform, hi, hopen]
      · simpa [Queue.perform, hi] using hle i
    · have hi' : q.started.length ≤ i := hi
      have hne : i ≠ q.started.length - 1 := by omega
      simpa [Queue.perform, hne] using heq i hi'
  | .stopping msg, .waitHeartbeat, _, _ =>
    obtain ⟨hmsg, -, hbeats⟩ := hc
    have hwg : q.wg = 0 := hx
    refine ⟨hle, heq, hmsg, ?_⟩
    rcases hbeats with ⟨-, hone⟩ | hnone
    · omega
    · exact hnone
  | beat, .host _, _, _ | beat, .ctxErr, _, _ | beat, .waitBackoff _, _, _ => exact ⟨hle, heq, hc⟩

/-- The operations of the caller do not touch the goroutines, but for a new one. -/
theorem Knows.perform {o : SqsOp} {x : SqsSig.Ans o} (h : q.Knows i stage) :
    (q.perform o x).Knows i stage := by
  cases o with
  | startHeartbeat handle =>
    cases stage with
    | fresh =>
      intro hi
      simp only [Queue.perform, List.length_append, List.length_singleton] at hi ⊢
      by_cases hlt : i < q.started.length
      · exact List.mem_append_left _ (h hlt)
      · obtain rfl : i = q.started.length := by omega
        exact List.mem_append_right _ List.mem_cons_self
    | running handle' =>
      obtain ⟨halive, start, hstart, hhandle⟩ := h
      refine ⟨List.mem_append_left _ halive, start, ?_, hhandle⟩
      obtain ⟨hlt, -⟩ := List.getElem?_eq_some_iff.mp hstart
      simpa [Queue.perform, List.getElem?_append_left hlt] using hstart
    | finished =>
      have hlt : i < q.started.length := h
      show i < (q.started ++ [_]).length
      rw [List.length_append]
      omega
  | receive => rcases x with _ | _ | _ <;> exact h
  | outOfTurns => exact x.elim
  | ctxErr | waitBackoff | closeStop | waitHeartbeat | ack | nack | shutdown | host => exact h

/-- A goroutine that runs is the one of the message that is held. -/
theorem Sound.running {handle : String} (h : q.Sound beat) (hi : q.Knows i (.running handle)) :
    (∃ msg, q.message = some msg ∧ receiptHandleFromMessage msg = some handle ∧
      q.started[i]? = some ⟨some msg, handle⟩) ∧ q.alive = [i] ∧ q.wg = 1 ∧
      ∃ msg, beat = .beating msg ∨ beat = .stopping msg := by
  obtain ⟨halive, start, hstart, rfl⟩ := hi
  have hbeats : ∀ msg, q.message = some msg → q.Beats msg →
      (∃ msg, q.message = some msg ∧ receiptHandleFromMessage msg = some start.handle ∧
        q.started[i]? = some ⟨some msg, start.handle⟩) ∧ q.alive = [i] ∧ q.wg = 1 := by
    rintro msg hmsg ⟨⟨handle, hhandle, hlast⟩, ⟨hone, hwg⟩ | ⟨hnone, -⟩⟩
    · obtain rfl : i = q.started.length - 1 := by simpa [hone] using halive
      rw [List.getLast?_eq_getElem?, hstart] at hlast
      obtain rfl := Option.some.inj hlast
      exact ⟨⟨msg, hmsg, hhandle, hstart⟩, hone, hwg⟩
    · simp [hnone] at halive
  cases beat with
  | idle | received | stopped =>
    have hnone := h.consistent.2.1
    simp [hnone] at halive
  | beating msg =>
    obtain ⟨hlive, hone⟩ := hbeats msg h.consistent.1 h.consistent.2.1
    exact ⟨hlive, hone.1, hone.2, msg, Or.inl rfl⟩
  | stopping msg =>
    obtain ⟨hlive, hone⟩ := hbeats msg h.consistent.1 h.consistent.2
    exact ⟨hlive, hone.1, hone.2, msg, Or.inr rfl⟩

/-- A goroutine that returns leaves the shared state sound. -/
theorem Sound.finish {handle : String} (h : q.Sound beat) (hi : q.Knows i (.running handle)) :
    (q.finish i).Sound beat := by
  obtain ⟨-, halive, hwg, msg, hbeat⟩ := h.running hi
  have hnone : (q.finish i).alive = [] ∧ (q.finish i).wg = 0 := by simp [Queue.finish, halive, hwg]
  refine ⟨h.closes_le, h.closes_eq, ?_⟩
  rcases hbeat with rfl | rfl
  · exact ⟨h.consistent.1, ⟨h.consistent.2.1.1, Or.inr hnone⟩, h.consistent.2.2⟩
  · exact ⟨h.consistent.1, h.consistent.2.1, Or.inr hnone⟩

/-- The other goroutines do not notice. -/
theorem Knows.finish {j : Nat} (h : q.Knows i stage) (hij : i ≠ j) :
    (q.finish j).Knows i stage := by
  cases stage with
  | fresh => exact fun hi => (List.mem_erase_of_ne hij).mpr (h hi)
  | running handle => exact ⟨(List.mem_erase_of_ne hij).mpr h.1, h.2⟩
  | finished => exact h

end Queue

section World

variable {α : Type} {codec : RequestCodec} {r : Renewal} {n : Nat} {p : Prog WorkSig α}

/-- What is known in a configuration. -/
structure BeatInvariant (c : Config Queue (beatWorld codec r n p).start) : Prop where
  queue : c.shared.Sound (callerMonitor.after .idle (c.thread none).trace)
  goroutine : ∀ i, c.shared.Knows i (goroutineMonitor.after .fresh (c.thread (some i)).trace)

/-- **An operation of a goroutine** keeps the shared state sound, and what is known of each of them.
-/
theorem Queue.Sound.goes {q q' : Queue} {beat : Beat} {i : Nat} {stage : Stage} {o : BeatOp}
    {x : BeatSig.Ans o} (h : q.Sound beat) (hi : q.Knows i stage)
    (ho : goroutineMonitor.allows stage o) (hgoes : q.Goes i o x q') :
    q'.Sound beat ∧ q'.Knows i (goroutineMonitor.next stage ⟨o, x⟩) ∧
      ∀ j stage, j ≠ i → q.Knows j stage → q'.Knows j stage := by
  match stage, o, x, ho with
  | .fresh, .begin, handle, _ =>
    obtain ⟨⟨start, hstart, rfl⟩, rfl⟩ := hgoes
    obtain ⟨hlt, -⟩ := List.getElem?_eq_some_iff.mp hstart
    exact ⟨h, ⟨hi hlt, start, hstart, rfl⟩, fun _ _ _ hj => hj⟩
  | .running handle, .select, .ctxDone, _ | .running handle, .select, .stop, _ =>
    obtain rfl := hgoes.2
    exact ⟨h, hi, fun _ _ _ hj => hj⟩
  | .running handle, .select, .tick, _ | .running handle, .changeMessageVisibility _, _, _
  | .running handle, .visibilityChanged, _, _ =>
    obtain rfl := hgoes
    exact ⟨h, hi, fun _ _ _ hj => hj⟩
  | .running handle, .wgDone, _, _ =>
    obtain rfl := hgoes
    obtain ⟨hlt, -⟩ := List.getElem?_eq_some_iff.mp hi.2.choose_spec.1
    exact ⟨h.finish hi, hlt, fun _ _ hne hj => hj.finish hne⟩

/-- The invariant holds in every reachable configuration. -/
theorem invariant_of_reachable_beat (hp : p.Safe callProtocol (fun _ _ => True) .idle)
    {c : Config Queue (beatWorld codec r n p).start}
    (h : (beatWorld codec r n p).Reachable .initial c) : BeatInvariant c := by
  refine h.induct ⟨⟨fun _ => Nat.zero_le _, fun _ _ => rfl, rfl, rfl, rfl⟩, fun _ => nofun⟩ ?_
  rintro c c' ⟨hqueue, hgoroutine⟩ (⟨i, hrest, x, q', ha⟩ | ⟨i, hi⟩ | ⟨q', rfl⟩)
  · rename_i o k
    cases i with
    | none =>
      have hsafe := (c.thread none).safe (ensures_caller hp)
      rw [hrest] at hsafe
      match o, x, ha, hsafe.1 with
      | .caller o, x, ⟨hx, hq'⟩, ho =>
        subst hq'
        refine ⟨?_, fun i => ?_⟩
        · have hsound : Queue.Sound _ (callerMonitor.next _ ⟨.caller o, x⟩) := hqueue.perform ho hx
          simpa [Monitor.after_append] using hsound
        · simpa using (hgoroutine i).perform
    | some i =>
      have hsafe := (c.thread (some i)).safe (ensures_goroutine r n)
      rw [hrest] at hsafe
      obtain ⟨hsound, hown, hothers⟩ := hqueue.goes (hgoroutine i) hsafe.1 ha
      refine ⟨by simpa using hsound, fun j => ?_⟩
      by_cases hij : j = i
      · subst hij
        simpa [Monitor.after_append] using hown
      · simpa [hij] using hothers j _ hij (hgoroutine j)
  · exact hi.elim
  · exact ⟨⟨hqueue.closes_le, hqueue.closes_eq, by
      have hconsistent := hqueue.consistent
      generalize callerMonitor.after .idle (c.thread none).trace = beat at hconsistent ⊢
      cases beat <;> exact hconsistent⟩, hgoroutine⟩

end World

/-- **The heartbeat protocol.** For a caller that acknowledges or gives back every message that it
gets before the next one, and closes last, in every reachable configuration: at most one goroutine
is alive; a goroutine that is about to renew does so for the message that is held, with its handle;
every stop channel has been closed once at most; and the wait group is zero when no message is held.
-/
theorem heartbeat_protocol {α : Type} (codec : RequestCodec) (r : Renewal) (n : Nat)
    (p : Prog WorkSig α) (hp : p.Safe callProtocol (fun _ _ => True) .idle)
    (c : Config Queue (beatWorld codec r n p).start)
    (h : (beatWorld codec r n p).Reachable .initial c) :
    c.shared.alive.length ≤ 1 ∧
    (∀ i input k, (c.thread (some i)).rest = .op (.changeMessageVisibility input) k →
      ∃ msg, c.shared.message = some msg ∧
        receiptHandleFromMessage msg = some input.receiptHandle ∧
        c.shared.started[i]? = some ⟨some msg, input.receiptHandle⟩) ∧
    (∀ i, c.shared.closes i ≤ 1) ∧ (c.shared.message = none → c.shared.wg = 0) := by
  obtain ⟨hqueue, hgoroutine⟩ := invariant_of_reachable_beat hp h
  refine ⟨?_, fun i input k hrest => ?_, hqueue.closes_le, fun hnone => ?_⟩
  · obtain ⟨-, -, hconsistent⟩ := hqueue
    generalize callerMonitor.after .idle (c.thread none).trace = beat at hconsistent
    cases beat with
    | idle | received | stopped => simp [hconsistent.2.1]
    | beating msg => rcases hconsistent.2.1.2 with hone | hnone <;> simp [*]
    | stopping msg => rcases hconsistent.2.2 with hone | hnone <;> simp [*]
  · have hsafe := (c.thread (some i)).safe (ensures_goroutine r n)
    rw [hrest] at hsafe
    have hallows := hsafe.1
    have hi := hgoroutine i
    generalize goroutineMonitor.after .fresh (c.thread (some i)).trace = stage at hallows hi
    cases stage with
    | fresh | finished => exact hallows.elim
    | running handle =>
      obtain rfl : input.receiptHandle = handle := hallows
      exact (hqueue.running hi).1
  · obtain ⟨-, -, hconsistent⟩ := hqueue
    generalize callerMonitor.after .idle (c.thread none).trace = beat at hconsistent
    cases beat with
    | idle => exact hconsistent.2.2
    | received | stopped | beating | stopping =>
      rw [hconsistent.1] at hnone
      cases hnone

/-! ### The work loop as a caller -/

/-- The calls of the work loop in its phases. -/
def Phase.Calls : Phase → CallPhase → Prop
  | .setup, phase | .ready _, phase => phase = .idle
  | .stopped, phase => phase = .idle ∨ phase = .closed
  | _, phase => phase = .holding

/-- **The work loop** keeps to the protocol of callers. -/
theorem safe_workLoopRun (n : Nat) :
    (workLoopRun n).run.Safe callProtocol (fun _ _ => True) .idle := by
  refine ((ensures_workLoop n).simulate Phase.Calls ?_ rfl).mono fun _ _ _ => trivial
  intro phase call o hcalls ho
  cases phase with
  | setup =>
    obtain rfl := hcalls
    match o, ho with
    | .host .readConfig, _ | .host .getRequestSubscriptionURL, _ | .host (.createSubscriber _), _ =>
      exact ⟨trivial, fun _ => rfl⟩
    | .host .getResultDataBucketURL, _ =>
      refine ⟨trivial, ?_⟩
      rintro (_ | _) <;> rfl
  | ready bucketURL =>
    obtain rfl := hcalls
    match o, ho with
    | .synchronousPull, _ =>
      refine ⟨trivial, ?_⟩
      rintro (_ | _ | _)
      exacts [Or.inl rfl, Or.inl rfl, rfl]
    | .outOfTurns, _ => exact ⟨trivial, fun x => x.elim⟩
  | pulled | eligible =>
    obtain rfl := hcalls
    obtain rfl := ho
    refine ⟨trivial, ?_⟩
    rintro (_ | _ | _) <;> rfl
  | pending bucketURL req =>
    obtain rfl := hcalls
    obtain rfl := ho
    refine ⟨trivial, ?_⟩
    rintro (_ | _) <;> rfl
  | done bucketURL req =>
    obtain rfl := hcalls
    match o, ho with
    | .host .postProcess, _ => exact ⟨trivial, fun _ => rfl⟩
  | announced bucketURL req =>
    obtain rfl := hcalls
    match o, ho with
    | .ack, _ => exact ⟨trivial, fun _ => rfl⟩
  | refused bucketURL req =>
    obtain rfl := hcalls
    match o, ho with
    | .nack, _ => exact ⟨trivial, fun _ => rfl⟩
  | stopped =>
    match o, ho with
    | .close, _ => rcases hcalls with rfl | rfl <;> exact ⟨trivial, fun _ => Or.inr rfl⟩

/-- The codec of the sample queue: every message is the sample request. -/
def sampleCodec : RequestCodec where
  marshal _ := .error "not used"
  unmarshal _ := .ok ⟨[], some 0, some epoch⟩
  unmarshal_marshal _ _ h := nomatch h

/-- The message of the sample queue. -/
def sampleMessage : Message := ⟨1, "request", some (some "handle")⟩

/-- One message is delivered, and the timer fires. -/
def sampleBeatAnswer : Option Nat → Trace BeatSig → (q : Queue) → (o : BeatOp) →
    Option (BeatSig.Ans o × Queue)
  | none, _, q, .caller .receive =>
    some (.ok (some sampleMessage), { q with message := some sampleMessage })
  | none, _, q, .caller (.startHeartbeat handle) => some ((), q.perform (.startHeartbeat handle) ())
  | none, _, q, .caller (.host .readConfig) => some (.ok (), q)
  | none, _, q, .caller (.host (.createSubscriber _)) => some (.ok (), q)
  | none, _, q, .caller (.host .getRequestSubscriptionURL) => some (.ok "awssqs://requests", q)
  | none, _, q, .caller (.host .getResultDataBucketURL) => some (.ok "s3://results", q)
  | some i, _, q, .begin => (q.started[i]?).map fun start => (start.handle, q)
  | some _, _, q, .select => some (.tick, q)
  | _, _, _, _ => none

theorem sampleBeatAnswer_answers (i : Option Nat) (past : Trace BeatSig) (q : Queue) (o : BeatOp)
    (x : BeatSig.Ans o) (q' : Queue) (h : sampleBeatAnswer i past q o = some (x, q')) :
    (beatWorld sampleCodec ⟨"queue", 600⟩ 2 (workLoopRun 1).run).answer i past q ⟨o, x⟩ q' := by
  unfold sampleBeatAnswer at h
  split at h
  case h_7 =>
    obtain ⟨start, hstart, heq⟩ := Option.map_eq_some_iff.mp h
    cases heq
    exact ⟨⟨start, hstart, rfl⟩, rfl⟩
  case h_8 =>
    cases h
    rfl
  case h_9 => cases h
  all_goals
    cases h
    exact ⟨trivial, rfl⟩

/-- The work loop receives the message, and the goroutine waits for its timer. -/
def sampleBeat : Config Queue (beatWorld sampleCodec ⟨"queue", 600⟩ 2 (workLoopRun 1).run).start :=
  (List.replicate 6 none ++ List.replicate 2 (some 0)).foldl (Config.perform sampleBeatAnswer)
    (.initial _ .initial)

/-- The goroutine of the sample message is about to renew it. -/
theorem sampleBeat_renews : ∃ msg, sampleBeat.shared.message = some msg ∧
    receiptHandleFromMessage msg = some "handle" ∧
    sampleBeat.shared.started[0]? = some ⟨some msg, "handle"⟩ := by
  have hreach : (beatWorld sampleCodec ⟨"queue", 600⟩ 2 (workLoopRun 1).run).Reachable .initial
      sampleBeat :=
    World.reachable_schedule _ sampleBeatAnswer_answers _ (World.reachable_initial _ _)
  obtain ⟨-, hrenews, -⟩ := heartbeat_protocol sampleCodec ⟨"queue", 600⟩ 2 (workLoopRun 1).run
    (safe_workLoopRun 1) sampleBeat hreach
  exact hrenews 0 ⟨"queue", "handle", 600⟩ _ rfl

end ScorecardInfra.Cron
