import Mathlib.Data.List.Induction
import ScorecardInfra.Cron.SqsSubscriber

/-!
# One verdict for every message

A run of the work loop over the SQS subscriber settles every message that it receives, before it
receives the next one or returns (`exactly_one_verdict`). The proof goes in two layers. The loop
keeps to its protocol over any subscriber (`ensures_workLoop`). The operations of the SQS subscriber
keep the phase of the protocol related to the message that is held and to what has been answered
since it was received (`Related`, `ensures_sqsAnswer`).

## Main definitions

* `Verdict`, `HostEvent`, `hostEvents`, `verdicts`, `Judged`.
* `Delivery`, `deliveryMonitor`, `Related`.

## Main results

* `ensures_sqsAnswer`, `exactly_one_verdict`.
-/

namespace ScorecardInfra.Cron

open GoStd Interaction

/-! ### Deliveries -/

/-- What becomes of a message. -/
inductive Verdict : Type
  | ack
  | nack
  deriving DecidableEq

/-- An operation of the host with its answer. -/
abbrev HostEvent : Type := Σ o : HostOp, o.Result

/-- The verdict that an operation gives, with its message. -/
def SqsOp.verdict : SqsOp → Option (Verdict × Message)
  | ack msg => some (.ack, msg)
  | nack msg => some (.nack, msg)
  | _ => none

/-- The event of the host. -/
def hostEvent : Event SqsSig → Option HostEvent
  | ⟨.host o, x⟩ => some ⟨o, x⟩
  | _ => none

/-- What the host has done along a trace. -/
def hostEvents (t : Trace SqsSig) : List HostEvent := t.filterMap hostEvent

/-- The verdicts given along a trace. -/
def verdicts (t : Trace SqsSig) : List (Verdict × Message) := t.filterMap fun e => e.op.verdict

section Judged

variable (codec : RequestCodec) (msg : Message) (host : List HostEvent)

/-- The result of the message's request was there, or `Process` returned nil for it. -/
def HasResult : Prop :=
  ∃ req bucketURL, codec.unmarshal msg.body = .ok req ∧
    (⟨.blobExists bucketURL (resultFilename req), .ok true⟩ ∈ host ∨
      ⟨.process req bucketURL, .ok ()⟩ ∈ host)

/-- The message is to be given back: it cannot be parsed, has no receipt handle, a check failed, its
job's metadata are missing, or `Process` failed. -/
def ToBeRefused : Prop :=
  (∃ err, codec.unmarshal msg.body = .error err) ∨ receiptHandleFromMessage msg = none ∨
    (∃ bucketURL key err, ⟨.blobExists bucketURL key, .error err⟩ ∈ host) ∨
    (∃ req bucketURL, codec.unmarshal msg.body = .ok req ∧
      ⟨.blobExists bucketURL (getShardMetadataFilename req.getJobTime), .ok false⟩ ∈ host) ∨
    ∃ req bucketURL err, ⟨.process req bucketURL, .error err⟩ ∈ host

/-- How often `PostProcess` ran. -/
def postProcessed : Nat := host.countP fun e => e.1 matches .postProcess

/-- The message is settled: it got one verdict; it was acknowledged only with a result, it was given
back if it was to be refused, and `PostProcess` ran once if it was acknowledged and not at all
otherwise. -/
def Judged (given : List (Verdict × Message)) : Prop :=
  ∃ v, given = [(v, msg)] ∧ (v = .ack → HasResult codec msg host) ∧
    (ToBeRefused codec msg host → v = .nack) ∧ postProcessed host = if v = .ack then 1 else 0

end Judged

/-! ### Following the deliveries -/

/-- The last message received, and what has happened since. -/
structure Delivery where
  message : Message
  host : List HostEvent
  verdicts : List (Verdict × Message)

/-- The last message, if there is one, is settled. -/
def Settled (codec : RequestCodec) (g : Option Delivery) : Prop :=
  ∀ d, g = some d → Judged codec d.message d.host d.verdicts

/-- The state after an operation. -/
def Delivery.after (g : Option Delivery) : (o : SqsOp) → SqsSig.Ans o → Option Delivery
  | .receive, answer => match answer with
    | .ok (some msg) => some ⟨msg, [], []⟩
    | .ok none | .error _ => none
  | .host o, x => g.map fun d => { d with host := d.host ++ [⟨o, x⟩] }
  | .ack msg, _ => g.map fun d => { d with verdicts := d.verdicts ++ [(.ack, msg)] }
  | .nack msg, _ => g.map fun d => { d with verdicts := d.verdicts ++ [(.nack, msg)] }
  | .ctxErr, _ | .waitBackoff _, _ | .startHeartbeat _, _ | .closeStop, _ | .waitHeartbeat, _
  | .shutdown, _ => g

/-- Follows the deliveries: the next message is received when the last one is settled, a verdict is
the first one for the last message, and `PostProcess` runs before it. -/
def deliveryMonitor (codec : RequestCodec) : Monitor SqsSig (Option Delivery) where
  allows g
    | .receive => Settled codec g
    | .ack msg | .nack msg => ∃ host, g = some ⟨msg, host, []⟩
    | .host .postProcess => ∃ msg host, g = some ⟨msg, host, []⟩
    | _ => True
  next g e := Delivery.after g e.op e.ans

/-- What the monitor knows after a message and events without another one. -/
theorem deliveryMonitor_after (codec : RequestCodec) (msg : Message) :
    (t : Trace SqsSig) → (host : List HostEvent) → (given : List (Verdict × Message)) →
      (∀ e ∈ t, e.op ≠ .receive) →
      (deliveryMonitor codec).after (some ⟨msg, host, given⟩) t =
        some ⟨msg, host ++ hostEvents t, given ++ verdicts t⟩
  | [], host, given, _ => by simp [hostEvents, verdicts]
  | ⟨o, x⟩ :: t, host, given, h => by
    rw [List.forall_mem_cons] at h
    rw [Monitor.after_cons]
    have hhost : hostEvents (⟨o, x⟩ :: t) = (hostEvent ⟨o, x⟩).toList ++ hostEvents t := by
      rw [hostEvents, List.filterMap_cons]
      cases hostEvent ⟨o, x⟩ <;> rfl
    have hgiven : verdicts (⟨o, x⟩ :: t) = o.verdict.toList ++ verdicts t := by
      rw [verdicts, List.filterMap_cons]
      cases o.verdict <;> rfl
    have hnext : (deliveryMonitor codec).next (some ⟨msg, host, given⟩) ⟨o, x⟩ =
        some ⟨msg, host ++ (hostEvent ⟨o, x⟩).toList, given ++ o.verdict.toList⟩ := by
      cases o with
      | receive => exact absurd rfl h.1
      | outOfTurns => exact Empty.elim x
      | _ => simp [deliveryMonitor, Delivery.after, hostEvent, SqsOp.verdict]
    rw [hnext, deliveryMonitor_after codec msg t _ _ h.2, hhost, hgiven, List.append_assoc,
      List.append_assoc]

/-- Where the monitor's message comes from. -/
theorem exists_of_deliveryMonitor_after {codec : RequestCodec} {d : Delivery} (t : Trace SqsSig)
    (h : (deliveryMonitor codec).after none t = some d) :
    ∃ pre u, t = pre ++ ⟨.receive, .ok (some d.message)⟩ :: u ∧ (∀ e ∈ u, e.op ≠ .receive) ∧
      verdicts u = d.verdicts := by
  induction t using List.reverseRecOn generalizing d with
  | nil => cases h
  | append_singleton t e ih =>
    obtain ⟨o, x⟩ := e
    rw [Monitor.after_append] at h
    by_cases ho : o = .receive
    · subst ho
      match x, h with
      | .ok (some msg), h =>
        obtain rfl := Option.some.inj h
        exact ⟨t, [], rfl, by simp, rfl⟩
    · cases hg : (deliveryMonitor codec).after none t with
      | none =>
        rw [hg] at h
        cases o with
        | receive => exact absurd rfl ho
        | outOfTurns => exact Empty.elim x
        | _ => cases h
      | some d' =>
        obtain ⟨pre, u, rfl, hu, hgiven⟩ := ih hg
        have hone : ∀ e ∈ [(⟨o, x⟩ : Event SqsSig)], e.op ≠ .receive := by simpa using ho
        rw [hg, deliveryMonitor_after codec d'.message [⟨o, x⟩] d'.host d'.verdicts hone] at h
        obtain rfl := Option.some.inj h
        refine ⟨pre, u ++ [⟨o, x⟩], by simp, ?_, ?_⟩
        · rw [List.forall_mem_append]
          exact ⟨hu, hone⟩
        · rw [← hgiven, verdicts, List.filterMap_append]
          rfl

/-! ### The operations of the subscriber -/

section Operations

variable {codec : RequestCodec} {s : SqsSubscriber} {g : Option Delivery}
  {E : Stop CronError → Option Delivery → Prop}

theorem settled_none : Settled codec none := nofun

/-- A message that is given back at once is settled. -/
theorem judged_nack {msg : Message} {host : List HostEvent} (hpost : postProcessed host = 0) :
    Judged codec msg host [(.nack, msg)] :=
  ⟨.nack, rfl, nofun, fun _ => rfl, hpost⟩

/-- Stopping the heartbeat does not touch the delivery, nor the message. -/
theorem ensures_stopHeartbeat :
    Ensures (deliveryMonitor codec) g s.stopHeartbeat (fun s' g' => s'.msg = s.msg ∧ g' = g) E := by
  unfold SqsSubscriber.stopHeartbeat
  split
  · exact ⟨rfl, rfl⟩
  · split
    · exact ensures_perform_bind trivial fun _ => ⟨rfl, rfl⟩
    · exact ensures_perform_bind trivial fun _ => ensures_perform_bind trivial fun _ => ⟨rfl, rfl⟩

theorem ensures_sqsAck {msg : Message} {host : List HostEvent} (hs : s.msg = some msg) :
    Ensures (deliveryMonitor codec) (some ⟨msg, host, []⟩) s.ack
      (fun _ g' => g' = some ⟨msg, host, [(.ack, msg)]⟩) E := by
  refine ensures_stopHeartbeat.bind ?_
  rintro s' _ ⟨hs', rfl⟩
  rw [SqsSubscriber.withMsg, hs', hs]
  exact ensures_perform_bind ⟨host, rfl⟩ fun _ => rfl

theorem ensures_sqsNack {msg : Message} {host : List HostEvent} (hs : s.msg = some msg) :
    Ensures (deliveryMonitor codec) (some ⟨msg, host, []⟩) s.nack
      (fun _ g' => g' = some ⟨msg, host, [(.nack, msg)]⟩) E := by
  refine ensures_stopHeartbeat.bind ?_
  rintro s' _ ⟨hs', rfl⟩
  rw [SqsSubscriber.withMsg, hs', hs]
  exact ensures_perform_bind ⟨host, rfl⟩ fun _ => rfl

/-- What is known after `receive`: the new message, or that there is none. -/
def Received (r : Except CronError (Option Message)) (g : Option Delivery) : Prop :=
  match r with
  | .ok (some msg) => g = some ⟨msg, [], []⟩
  | .ok none | .error _ => g = none

/-- After an error the next turn begins without a message. -/
theorem ensures_retryReceive {backoff : Nat} {err : ReceiveError} :
    Ensures (deliveryMonitor codec) none (retryReceive backoff err)
      (fun r g' => Sum.elim (fun _ => g' = none) (Received · g') r) E := by
  refine ensures_perform_bind trivial fun stopped => ?_
  split
  · exact rfl
  split
  · exact rfl
  refine ensures_perform_bind trivial fun stopped => ?_
  split <;> exact rfl

theorem ensures_receive {n : Nat} (hg : Settled codec g) :
    Ensures (deliveryMonitor codec) g (receive n) Received E := by
  refine ensures_loop (fun _ g => Settled codec g) ?_ ?_ n _ g hg
  · exact fun _ _ _ => ensures_perform_bind trivial fun x => x.elim
  · intro backoff g hg
    refine ensures_perform_bind hg ?_
    rintro (err | _ | msg)
    · refine ensures_retryReceive.mono ?_ fun _ _ h => h
      rintro (_ | r) g' h
      · exact fun d hd => absurd (h.symm.trans hd) nofun
      · exact h
    · exact rfl
    · exact rfl

/-- The subscriber holds the request's message; `host` is what the host has done since. -/
def Holding (codec : RequestCodec) (s : SqsSubscriber) (req : ScorecardBatchRequest)
    (host : List HostEvent) (g : Option Delivery) : Prop :=
  ∃ msg, g = some ⟨msg, host, []⟩ ∧ s.msg = some msg ∧ codec.unmarshal msg.body = .ok req ∧
    receiptHandleFromMessage msg ≠ none

/-- What is known after `SynchronousPull`. -/
def Pulled (codec : RequestCodec)
    (p : Except CronError (Option ScorecardBatchRequest) × SqsSubscriber) (g : Option Delivery) :
    Prop :=
  match p.1 with
  | .ok (some req) => Holding codec p.2 req [] g
  | .ok none | .error _ => Settled codec g

/-- A message whose body cannot be parsed is given back. -/
theorem ensures_holdMessage {msg : Message} {handle : String}
    (hhandle : receiptHandleFromMessage msg = some handle) :
    Ensures (deliveryMonitor codec) (some ⟨msg, [], []⟩)
      (SqsSubscriber.holdMessage codec msg handle)
      (fun r g' => Sum.elim (fun _ => Settled codec g') (Pulled codec · g') r) E := by
  refine ensures_perform_bind trivial fun _ => ?_
  cases hparse : SqsSubscriber.parseJSONToRequest codec msg.body with
  | ok req => exact ⟨msg, rfl, rfl, libraryResult_eq_ok.mp hparse, by simp [hhandle]⟩
  | error err =>
    refine (ensures_sqsNack rfl).bind ?_
    rintro _ _ rfl d hd
    obtain rfl := Option.some.inj hd
    exact judged_nack rfl

theorem ensures_pullReceived {r : Except CronError (Option Message)} (hr : Received r g) :
    Ensures (deliveryMonitor codec) g (SqsSubscriber.pullReceived codec s r)
      (fun r g' => Sum.elim (fun _ => Settled codec g') (Pulled codec · g') r) E := by
  match r, hr with
  | .error err, hr =>
    subst hr
    exact settled_none
  | .ok none, hr =>
    subst hr
    exact settled_none
  | .ok (some msg), hr =>
    subst hr
    rw [SqsSubscriber.pullReceived]
    split
    · refine ensures_perform_bind ⟨[], rfl⟩ fun _ => ?_
      rintro d hd
      obtain rfl := Option.some.inj hd
      exact judged_nack rfl
    · exact ensures_holdMessage ‹_›

/-- **Pulling.** Every message received on the way is settled, apart from the one that is returned.
-/
theorem ensures_synchronousPull {n : Nat} (hg : Settled codec g) :
    Ensures (deliveryMonitor codec) g (s.synchronousPull codec n) (Pulled codec) E := by
  refine ensures_loop (fun _ g => Settled codec g) ?_ ?_ n s g hg
  · exact fun _ _ _ => ensures_perform_bind trivial fun x => x.elim
  · exact fun s g hg => (ensures_receive hg).bind fun r g' hr => ensures_pullReceived hr

/-! ### The phases of the loop -/

/-- The host's answer that the metadata of the request's job exist, or do not. -/
def metadataFound (bucketURL : String) (req : ScorecardBatchRequest)
    (found : Except CronError Bool) :
    HostEvent :=
  ⟨.blobExists bucketURL (getShardMetadataFilename req.getJobTime), found⟩

/-- The host's answer that the request's result exists, or does not. -/
def resultFound (bucketURL : String) (req : ScorecardBatchRequest) (found : Except CronError Bool) :
    HostEvent :=
  ⟨.blobExists bucketURL (resultFilename req), found⟩

/-- The host's answer to `Process`. -/
def processed (bucketURL : String) (req : ScorecardBatchRequest) (answer : Except CronError Unit) :
    HostEvent :=
  ⟨.process req bucketURL, answer⟩

/-- What the host has answered for a request with a result. -/
inductive Fruitful (bucketURL : String) (req : ScorecardBatchRequest) : List HostEvent → Prop
  | found : Fruitful bucketURL req
      [metadataFound bucketURL req (.ok true), resultFound bucketURL req (.ok true)]
  | processed : Fruitful bucketURL req [metadataFound bucketURL req (.ok true),
      resultFound bucketURL req (.ok false), processed bucketURL req (.ok ())]

/-- What the message that is held has to do with the phase of the loop. -/
def Related (codec : RequestCodec) (phase : Phase) (s : SqsSubscriber) (g : Option Delivery) :
    Prop :=
  match phase with
  | .setup => g = none
  | .ready _ | .stopped => Settled codec g
  | .pulled _ req => Holding codec s req [] g
  | .eligible bucketURL req => Holding codec s req [metadataFound bucketURL req (.ok true)] g
  | .pending bucketURL req => Holding codec s req
      [metadataFound bucketURL req (.ok true), resultFound bucketURL req (.ok false)] g
  | .done bucketURL req => ∃ host, Fruitful bucketURL req host ∧ Holding codec s req host g
  | .announced bucketURL req => ∃ host, Fruitful bucketURL req host ∧
      Holding codec s req (host ++ [⟨.postProcess, ()⟩]) g
  | .refused _ req => ∃ host, postProcessed host = 0 ∧ Holding codec s req host g

theorem Holding.snoc {req : ScorecardBatchRequest} {host : List HostEvent} (o : HostOp)
    (x : o.Result) (h : Holding codec s req host g) :
    Holding codec s req (host ++ [⟨o, x⟩]) ((deliveryMonitor codec).next g ⟨.host o, x⟩) := by
  obtain ⟨msg, rfl, hs, hreq, hhandle⟩ := h
  exact ⟨msg, rfl, hs, hreq, hhandle⟩

/-- A message is settled by an acknowledgement after a result. -/
theorem judged_ack {msg : Message} {bucketURL : String} {req : ScorecardBatchRequest}
    {host : List HostEvent} (hhost : Fruitful bucketURL req host)
    (hreq : codec.unmarshal msg.body = .ok req) (hhandle : receiptHandleFromMessage msg ≠ none) :
    Judged codec msg (host ++ [⟨.postProcess, ()⟩]) [(.ack, msg)] := by
  have hname : resultFilename req ≠ getShardMetadataFilename req.getJobTime := by
    intro h
    have hshard := hasPrefix_shardName req.getShardNum
    rw [(getBlobFilename_inj h).2] at hshard
    exact absurd hshard (by decide)
  refine ⟨.ack, rfl, fun _ => ⟨req, bucketURL, hreq, ?_⟩, ?_, ?_⟩
  · cases hhost with
    | found => exact Or.inl (by simp [resultFound])
    | processed => exact Or.inr (by simp [processed])
  · rintro (⟨err, herr⟩ | hnone | ⟨bucketURL', key, err, hmem⟩ | ⟨req', bucketURL', hreq', hmem⟩ |
      ⟨req', bucketURL', err, hmem⟩)
    · exact absurd (hreq.symm.trans herr) nofun
    · exact absurd hnone hhandle
    · cases hhost <;> simp [metadataFound, resultFound, processed] at hmem
    · obtain rfl := Except.ok.inj (hreq.symm.trans hreq')
      cases hhost <;> simp [metadataFound, resultFound, processed, hname.symm] at hmem
    · cases hhost <;> simp [metadataFound, resultFound, processed] at hmem
  · cases hhost <;> rfl

/-- **The operations of the subscriber** keep the phase of the loop related to the message held. -/
theorem ensures_sqsAnswer (n : Nat) (o : WorkOp) (phase : Phase) (s : SqsSubscriber)
    (g : Option Delivery) (h : Related codec phase s g) (ho : phase.Allows o) :
    Ensures (deliveryMonitor codec) g (sqsAnswer codec n o s)
      (fun p g' => Related codec (phase.after o p.1) p.2 g') E := by
  cases phase with
  | setup =>
    obtain rfl : g = none := h
    match o, ho with
    | .host .readConfig, _ | .host .getRequestSubscriptionURL, _ | .host (.createSubscriber _), _ =>
      exact ensures_perform_bind trivial fun _ => rfl
    | .host .getResultDataBucketURL, _ =>
      refine ensures_perform_bind trivial ?_
      rintro (_ | _)
      exacts [rfl, settled_none]
  | ready bucketURL =>
    match o, ho with
    | .synchronousPull, _ =>
      refine (ensures_synchronousPull h).mono ?_ fun _ _ h => h
      rintro ⟨_ | _ | req, s'⟩ g' hg'
      exacts [hg', hg', hg']
    | .outOfTurns, _ => exact ensures_perform_bind trivial fun x => x.elim
  | pulled bucketURL req =>
    obtain rfl := ho
    refine ensures_perform_bind trivial ?_
    rintro (_ | _ | _)
    exacts [⟨_, rfl, h.snoc _ _⟩, ⟨_, rfl, h.snoc _ _⟩, h.snoc _ _]
  | eligible bucketURL req =>
    obtain rfl := ho
    refine ensures_perform_bind trivial ?_
    rintro (_ | _ | _)
    exacts [⟨_, rfl, h.snoc _ _⟩, h.snoc _ _, ⟨_, .found, h.snoc _ _⟩]
  | pending bucketURL req =>
    obtain rfl := ho
    refine ensures_perform_bind trivial ?_
    rintro (_ | _)
    exacts [⟨_, rfl, h.snoc _ _⟩, ⟨_, .processed, h.snoc _ _⟩]
  | done bucketURL req =>
    obtain ⟨host, hhost, h⟩ := h
    match o, ho with
    | .host .postProcess, _ =>
      obtain ⟨msg, hg, -⟩ := id h
      exact ensures_perform_bind ⟨msg, host, hg⟩ fun _ => ⟨host, hhost, h.snoc _ _⟩
  | announced bucketURL req =>
    obtain ⟨host, hhost, msg, rfl, hs, hreq, hhandle⟩ := h
    match o, ho with
    | .ack, _ =>
      refine (ensures_sqsAck hs).bind ?_
      rintro _ _ rfl d hd
      obtain rfl := Option.some.inj hd
      exact judged_ack hhost hreq hhandle
  | refused bucketURL req =>
    obtain ⟨host, hhost, msg, rfl, hs, hreq, hhandle⟩ := h
    match o, ho with
    | .nack, _ =>
      refine (ensures_sqsNack hs).bind ?_
      rintro _ _ rfl d hd
      obtain rfl := Option.some.inj hd
      exact judged_nack hhost
  | stopped =>
    match o, ho with
    | .close, _ =>
      refine ensures_stopHeartbeat.bind ?_
      rintro _ _ ⟨-, rfl⟩
      exact ensures_perform_bind trivial fun _ => h

/-- The work loop over the subscriber returns, with or without an error, when the last message is
settled. -/
theorem ensures_sqsWorkLoop (codec : RequestCodec) (n : Nat) :
    Ensures (deliveryMonitor codec) none (sqsWorkLoop codec n) (fun _ => Settled codec)
      fun _ => Settled codec := by
  have hhandle := ensures_handle (M := deliveryMonitor codec) (h := sqsAnswer codec n)
    (E := fun _ => Settled codec) (Related codec) (ensures_sqsAnswer n · · · ·)
    (workLoopRun n).run .new .setup none (ensures_workLoop n) rfl
  refine hhandle.bind ?_
  rintro ⟨r, s⟩ g ⟨phase, hphase, hrelated⟩
  have hsettled : Settled codec g := by
    have hfinal : phase.Final := by
      cases r
      exacts [hphase, hphase]
    rcases hfinal with rfl | rfl
    · obtain rfl : g = none := hrelated
      exact settled_none
    · exact hrelated
  cases r
  exacts [hsettled, hsettled]

end Operations

/-! ### Runs -/

/-- The last message received along `t` is `msg`, and no verdict has been given since. -/
def Open (t : Trace SqsSig) (msg : Message) : Prop :=
  ∃ pre u, t = pre ++ ⟨.receive, .ok (some msg)⟩ :: u ∧ (∀ e ∈ u, e.op ≠ .receive) ∧ verdicts u = []

/-- **One verdict for every message.** In every run of the work loop over the SQS subscriber, a
message that is received is settled by what happens before the next one is received or, for the last
one, before the loop returns. Every verdict is the first one for the message received last, and
`PostProcess` runs for such a message only. -/
theorem exactly_one_verdict (codec : RequestCodec) (n : Nat) (t : Trace SqsSig)
    (r : Option (Except (Stop CronError) Unit)) (h : Exec (sqsWorkLoop codec n).run t r) :
    (∀ pre msg u post, t = pre ++ ⟨.receive, .ok (some msg)⟩ :: (u ++ post) →
      (∀ e ∈ u, e.op ≠ .receive) →
      ((∃ e post', post = e :: post' ∧ e.op = .receive) ∨ (post = [] ∧ r ≠ none)) →
      Judged codec msg (hostEvents u) (verdicts u)) ∧
    ∀ pre e post, t = pre ++ e :: post →
      (∀ v msg, e.op.verdict = some (v, msg) → Open pre msg) ∧
      (e.op = .host .postProcess → ∃ msg, Open pre msg) := by
  have hsafe := ensures_sqsWorkLoop codec n
  refine ⟨fun pre msg u post ht hu hend => ?_, ?_⟩
  · have hafter : (deliveryMonitor codec).after none (pre ++ ⟨.receive, .ok (some msg)⟩ :: u) =
        some ⟨msg, hostEvents u, verdicts u⟩ := by
      rw [Monitor.after_append, Monitor.after_cons]
      exact deliveryMonitor_after codec msg u [] [] hu
    have hsettled : Settled codec
        ((deliveryMonitor codec).after none (pre ++ ⟨.receive, .ok (some msg)⟩ :: u)) := by
      rcases hend with ⟨⟨o, x⟩, post', rfl, rfl⟩ | ⟨rfl, hr⟩
      · have ht' : t = (pre ++ ⟨.receive, .ok (some msg)⟩ :: u) ++ ⟨.receive, x⟩ :: post' := by
          rw [ht, List.append_assoc, List.cons_append]
        rw [ht'] at h
        exact h.allows hsafe
      · obtain ⟨r, rfl⟩ := Option.ne_none_iff_exists'.mp hr
        rw [List.append_nil] at ht
        rw [ht] at h
        have hpost := h.post hsafe
        cases r
        exacts [hpost, hpost]
    exact hsettled _ hafter
  · rintro pre ⟨o, x⟩ post rfl
    have hallows := h.allows hsafe
    constructor
    · intro v msg hv
      have hdelivery : ∃ host,
          (deliveryMonitor codec).after none pre = some ⟨msg, host, []⟩ := by
        cases o with
        | ack msg' | nack msg' =>
          obtain ⟨-, rfl⟩ := Prod.mk.inj (Option.some.inj hv)
          exact hallows
        | _ => cases hv
      obtain ⟨host, hdelivery⟩ := hdelivery
      exact exists_of_deliveryMonitor_after pre hdelivery
    · intro ho
      obtain rfl : o = .host .postProcess := ho
      obtain ⟨msg, host, hdelivery⟩ := hallows
      exact ⟨msg, exists_of_deliveryMonitor_after pre hdelivery⟩

/-! ### A sample run -/

/-- A request without repositories. -/
def sampleRequest : ScorecardBatchRequest := ⟨[], some 0, some epoch⟩

/-- Its encoding. -/
def sampleRequestBody : String :=
  "\x7b\"shardNum\":0,\"jobTime\":\"1970-01-01T00:00:00Z\"\x7d"

/-- A codec that knows the sample request. -/
def sampleRequestCodec : RequestCodec where
  marshal request := if request = sampleRequest then .ok sampleRequestBody else .error "unknown"
  unmarshal data := if data = sampleRequestBody then .ok sampleRequest else .error "syntax error"
  unmarshal_marshal request data h := by
    split_ifs at h with hr
    obtain rfl := Except.ok.inj h
    rw [if_pos rfl, hr]

/-- Two messages, the first of which cannot be parsed. -/
def sampleMessages : List Message :=
  [⟨1, "\x7b", some (some "handle1")⟩, ⟨2, sampleRequestBody, some (some "handle2")⟩]

/-- The queue hands out the sample messages and is gone then; the metadata are there, the result is
not, and the worker succeeds. -/
def sampleSqsAnswer (past : Trace SqsSig) : (o : SqsOp) → Option (SqsSig.Ans o)
  | .receive => match sampleMessages[past.countP fun e => e.op = .receive]? with
    | some msg => some (.ok (some msg))
    | none => some (.error ⟨"gone", some "QueueDoesNotExist"⟩)
  | .ctxErr | .waitBackoff _ => some false
  | .startHeartbeat _ | .closeStop | .waitHeartbeat | .ack _ | .nack _ => some ()
  | .shutdown => some (.ok ())
  | .host .readConfig | .host (.createSubscriber _) | .host (.process _ _) => some (.ok ())
  | .host .getRequestSubscriptionURL => some (.ok "awssqs://sqs.us-east-1.amazonaws.com/1/requests")
  | .host .getResultDataBucketURL => some (.ok "s3://results")
  | .host (.blobExists _ _) => some (.ok (past.all fun e => !e.op matches .host (.blobExists _ _)))
  | .host .postProcess => some ()
  | .outOfTurns => none

/-- The run of the work loop on the sample messages. -/
def sampleRun : Trace SqsSig × Option (Except (Stop CronError) Unit) :=
  (sqsWorkLoop sampleRequestCodec 3).run.runWith sampleSqsAnswer []

/-- The first message is given back, the second one acknowledged, and the loop returns an error. -/
theorem sampleRun_judged :
    (verdicts sampleRun.1).map (fun v => (v.1, v.2.id)) = [(.nack, 1), (.ack, 2)] ∧
    sampleRun.2 = some (.error (.error (.wrapf "subscriber.SynchronousPull"
      (.wrapf "error during Receive" (.text "gone"))))) ∧
    ∀ pre msg u post, sampleRun.1 = pre ++ ⟨.receive, .ok (some msg)⟩ :: (u ++ post) →
      (∀ e ∈ u, e.op ≠ .receive) →
      ((∃ e post', post = e :: post' ∧ e.op = .receive) ∨ (post = [] ∧ sampleRun.2 ≠ none)) →
      Judged sampleRequestCodec msg (hostEvents u) (verdicts u) :=
  ⟨rfl, rfl, (exactly_one_verdict _ _ _ _ (exec_runWith sampleSqsAnswer
    (sqsWorkLoop sampleRequestCodec 3).run [])).1⟩

end ScorecardInfra.Cron
