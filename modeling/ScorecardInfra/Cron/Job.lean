import ScorecardInfra.Cron.Controller
import ScorecardInfra.Interaction.Interleaving

/-!
# A job of the batch pipeline

The controller publishes a job, and any number of workers pull its messages from a queue that
delivers each of them any number of times, in any order, among requests of other jobs. Workers crash
and start again between any two operations. All of them share the bucket of results, which also
receives the objects of other jobs and the markers of transfers (`Job.world`).

In every state that is reached a shard of the job has been written after the job's metadata, and the
summary of the bucket never counts more shards than it expects. When all messages have been
acknowledged it counts all of them (`Job.no_lost_shard`). The proof has three layers: what a worker
and the controller may do (`ensures_workerRun`, `Controller.ensures_controllerRun`); what a thread
knows of the shared state (`Job.Facts`), which the others do not invalidate; and what one permitted
operation does to the bucket, the queue and the acknowledgements (`Job.Sound`).

## Main definitions

* `Job`, `JobState`, `Job.world`.
* `Job.Sound`, `Job.Facts`, `Job.Permits`, `Job.Invariant`.

## Main results

* `Job.sound_step`, `Job.facts_step`, `Job.invariant_of_reachable`.
* `Job.no_lost_shard`.
-/

namespace ScorecardInfra.Cron

open GoStd Interaction

/-! ### The shared state -/

/-- The bucket of results, the messages sent, and the requests acknowledged. -/
structure JobState where
  results : Bucket
  published : List String
  acked : List ScorecardBatchRequest

namespace JobState

/-- Nothing has been published. -/
def initial (b : Bucket) : JobState := ⟨b, [], []⟩

/-- Write an object. -/
def write (s : JobState) (key data : String) : JobState :=
  { s with results := s.results.insert key data }

/-- Send a message. -/
def publish (s : JobState) (body : String) : JobState :=
  { s with published := s.published ++ [body] }

/-- Acknowledge a request. -/
def ack (s : JobState) (held : Option ScorecardBatchRequest) : JobState :=
  { s with acked := s.acked ++ held.toList }

/-- Nothing is deleted. -/
structure Le (s s' : JobState) : Prop where
  results : ∀ key ∈ s.results, key ∈ s'.results
  published : s.published ⊆ s'.published

theorem Le.refl (s : JobState) : s.Le s := ⟨fun _ h => h, List.Subset.refl _⟩

theorem le_write (s : JobState) (key data : String) : s.Le (s.write key data) :=
  ⟨fun _ h => (AList.mem_insert _).mpr (Or.inr h), List.Subset.refl _⟩

theorem le_publish (s : JobState) (body : String) : s.Le (s.publish body) :=
  ⟨fun _ h => h, List.subset_append_left _ _⟩

theorem mem_write (s : JobState) (key data : String) : key ∈ (s.write key data).results :=
  (AList.mem_insert _).mpr (Or.inl rfl)

theorem lookup_write {s : JobState} {key data key' data' : String}
    (h : (s.write key data).results.lookup key' = some data') :
    (key' = key ∧ data' = data) ∨ s.results.lookup key' = some data' := by
  by_cases hkey : key' = key
  · subst hkey
    rw [write, AList.lookup_insert] at h
    exact Or.inl ⟨rfl, (Option.some.inj h).symm⟩
  · rw [write, AList.lookup_insert_ne hkey] at h
    exact Or.inr h

end JobState

/-! ### Jobs -/

/-- A controller with the repositories that it reads, and workers that make a bounded number of
turns. -/
structure Job where
  controller : Controller
  repos : List (Except CronError RepoFormat)
  worker : ScorecardWorker
  turns : Nat → Nat

/-- The key is one of the job at `t`. -/
def OfSecond (t : Time) (key : String) : Prop :=
  ∃ filename, parseBlobFilename key = .ok (t, filename)

namespace Job

variable (job : Job)

/-- The second that the job's keys are made of. -/
def second : Time := job.controller.datetime.truncate

/-- The number of messages. -/
def numShards : Nat := job.controller.numShards job.repos.length

/-- The bucket of results. -/
def bucketURL : String := job.controller.bucket

/-- The key of the metadata. -/
def metadataKey : String := getShardMetadataFilename job.controller.datetime

/-- The key of a transfer's marker. -/
def transferKey : String := getTransferStatusFilename job.controller.datetime

/-- The key of the shard `j`. -/
def shardKey (j : Nat) : String :=
  getBlobFilename (shardName (Int32.ofNat j)) job.controller.datetime

/-- The request is the one with number `j`. -/
def IsMessage (j : Nat) (req : ScorecardBatchRequest) : Prop :=
  req.getJobTime.truncate = job.second ∧ req.getShardNum = Int32.ofNat j

/-- A request that the queue may deliver: a message of the job, or a request of another second. -/
def Deliverable (s : JobState) (req : ScorecardBatchRequest) : Prop :=
  (∃ body ∈ s.published, job.controller.requestCodec.unmarshal body = .ok req) ∨
    req.getJobTime.truncate ≠ job.second

/-- The object is one of the pipeline. -/
def IsObject (key data : String) : Prop :=
  Recognized job.controller.metadataCodec (fun _ => .ok data) key

/-- The answers that a thread may get in a state. -/
def Answers (s : JobState) : (o : BatchOp) → BatchSig.Ans o → Prop
  | .work .synchronousPull, x => ∀ req, x = .ok (some req) → job.Deliverable s req
  | .work (.host .getResultDataBucketURL), x => ∀ url, x = .ok url → url = job.bucketURL
  | .work (.host (.blobExists url key)), x => url = job.bucketURL → ∀ found, x = .ok found →
      (found = true ↔ key ∈ s.results)
  | _, _ => True

/-- What an operation does to the state. A message can be delivered as soon as it has been handed to
the publisher; a write that fails may have taken effect. -/
def Changes (past : Trace BatchSig) (s : JobState) :
    (o : BatchOp) → BatchSig.Ans o → JobState → Prop
  | .work .ack, _, s' => s' = s.ack (lastPulled past)
  | .publish body, _, s' => s' = s.publish body
  | .writeToBlobStore url key data, x, s' =>
    (s' = s ∧ (url = job.bucketURL → x ≠ .ok ())) ∨ (s' = s.write key data ∧ url = job.bucketURL)
  | _, _, s' => s' = s

/-- The controller, and the workers. -/
def start : Option Nat → Prog BatchSig (Except (Stop CronError) Unit)
  | none => (job.controller.controllerRun job.repos).run
  | some i => (job.worker.workerRun (job.turns i)).run

/-- **The pipeline with one job.** -/
def world : World BatchSig (Option Nat) JobState (Except (Stop CronError) Unit) where
  start := job.start
  answer _ past s e s' := job.Answers s e.op e.ans ∧ job.Changes past s e.op e.ans s'
  restarts i := i ≠ none
  surroundings s s' := ∃ key data, s' = s.write key data ∧ job.IsObject key data ∧
    (key = job.transferKey ∨ ¬OfSecond job.second key)

/-! ### The invariant -/

/-- An object of the job's second is a transfer's marker, the metadata with the number of messages,
or the shard of a message; there are shards only where there are metadata. -/
def Own (s : JobState) (key data : String) : Prop :=
  key = job.transferKey ∨
    (key = job.metadataKey ∧ ∃ metadata,
      job.controller.metadataCodec.unmarshal data = .ok metadata ∧
      metadata.getNumShard = Int32.ofNat job.numShards) ∨
    ∃ j < job.numShards, key = job.shardKey j ∧ job.metadataKey ∈ s.results

/-- All objects of the bucket are the pipeline's. -/
def AllRecognized (b : Bucket) : Prop :=
  ∀ key data, b.lookup key = some data → job.IsObject key data

/-- What holds of the shared state, if the bucket was `b` at first. -/
structure Sound (b : Bucket) (s : JobState) : Prop where
  recognized : job.AllRecognized b → job.AllRecognized s.results
  own : ∀ key data, s.results.lookup key = some data → OfSecond job.second key → job.Own s key data
  published : ∀ body ∈ s.published, ∀ req, job.controller.requestCodec.unmarshal body = .ok req →
    ∃ j < job.numShards, job.IsMessage j req
  acked : ∀ req ∈ s.acked, resultFilename req ∈ s.results

/-- What the answers to a thread say about the shared state. -/
structure Facts (s : JobState) (past : Trace BatchSig) : Prop where
  pulled : ∀ req, ⟨.work .synchronousPull, .ok (some req)⟩ ∈ past → job.Deliverable s req
  configured : ∀ url, ⟨.work (.host .getResultDataBucketURL), .ok url⟩ ∈ past → url = job.bucketURL
  found : ∀ key, ⟨.work (.host (.blobExists job.bucketURL key)), .ok true⟩ ∈ past → key ∈ s.results
  written : ∀ key data, ⟨.writeToBlobStore job.bucketURL key data, .ok ()⟩ ∈ past → key ∈ s.results

/-- The operations that keep the shared state sound. -/
def Permits (s : JobState) (past : Trace BatchSig) : BatchOp → Prop
  | .writeToBlobStore url key data => url = job.bucketURL →
      job.IsObject key data ∧ (OfSecond job.second key → job.Own s key data)
  | .publish body => ∀ req, job.controller.requestCodec.unmarshal body = .ok req →
      ∃ j < job.numShards, job.IsMessage j req
  | .work .ack => ∀ req, lastPulled past = some req → resultFilename req ∈ s.results
  | _ => True

variable {job} {b : Bucket} {s s' : JobState} {past : Trace BatchSig}

/-! ### Keys of the job -/

theorem parse_metadataKey :
    parseBlobFilename job.metadataKey = .ok (job.second, shardMetadataFilename) :=
  parseBlobFilename_getBlobFilename _ _

theorem parse_transferKey :
    parseBlobFilename job.transferKey = .ok (job.second, transferStatusFilename) :=
  parseBlobFilename_getBlobFilename _ _

theorem parse_shardKey (j : Nat) :
    parseBlobFilename (job.shardKey j) = .ok (job.second, shardName (Int32.ofNat j)) :=
  parseBlobFilename_getBlobFilename _ _

/-- The key of a result is that of a shard. -/
theorem isShardOf_resultFilename (req : ScorecardBatchRequest) :
    IsShardOf req.getJobTime.truncate (resultFilename req) :=
  ⟨_, parseBlobFilename_getBlobFilename _ _, hasPrefix_shardName _⟩

theorem IsMessage.resultFilename_eq {j : Nat} {req : ScorecardBatchRequest}
    (h : job.IsMessage j req) : resultFilename req = job.shardKey j := by
  rw [resultFilename, h.2]
  exact getBlobFilename_congr h.1

theorem shardKey_injOn (hk : job.numShards < 2 ^ 31) {i j : Nat} (hi : i < job.numShards)
    (hj : j < job.numShards) (h : job.shardKey i = job.shardKey j) : i = j := by
  have hnum := congrArg Int32.toInt (shardName_injective (getBlobFilename_inj h).2)
  rw [Int32.toInt_ofNat_of_lt (by omega), Int32.toInt_ofNat_of_lt (by omega)] at hnum
  exact_mod_cast hnum

/-! ### Growing states -/

theorem Own.mono {key data : String} (h : job.Own s key data) (hle : s.Le s') :
    job.Own s' key data :=
  h.imp_right (Or.imp_right fun ⟨j, hj, hkey, hmetadata⟩ => ⟨j, hj, hkey, hle.results _ hmetadata⟩)

theorem Facts.mono (h : job.Facts s past) (hle : s.Le s') : job.Facts s' past where
  pulled req hreq := (h.pulled req hreq).imp_left fun ⟨body, hbody, hparse⟩ =>
    ⟨body, hle.published hbody, hparse⟩
  configured := h.configured
  found key hkey := hle.results _ (h.found key hkey)
  written key data hkey := hle.results _ (h.written key data hkey)

/-- Operations delete nothing. -/
theorem Changes.le {o : BatchOp} {x : BatchSig.Ans o} (h : job.Changes past s o x s') :
    s.Le s' := by
  unfold Changes at h
  split at h
  · subst h
    exact ⟨fun _ h => h, List.Subset.refl _⟩
  · subst h
    exact s.le_publish _
  · rcases h with ⟨rfl, -⟩ | ⟨rfl, -⟩
    · exact .refl s'
    · exact s.le_write _ _
  · subst h
    exact .refl s'

/-! ### What the threads may do -/

/-- **The controller's operations are permitted.** -/
theorem permits_of_controller {m : Nat} {o : BatchOp}
    (h : job.controller.May job.numShards m o) : job.Permits s past o := by
  cases o with
  | publish body =>
    obtain ⟨hm, repos, hbody⟩ := h
    intro req hreq
    have hparse := job.controller.requestCodec.unmarshal_marshal _ _ hbody
    obtain rfl := Except.ok.inj (hreq.symm.trans hparse)
    exact ⟨m, hm, rfl, rfl⟩
  | writeToBlobStore url key data =>
    obtain ⟨-, rfl, bucket, hdata⟩ := h
    have hparse := job.controller.metadataCodec.unmarshal_marshal _ _ hdata
    refine fun _ => ⟨Or.inr (Or.inr ⟨_, data, _, parse_metadataKey, rfl, hparse⟩), fun _ => ?_⟩
    exact Or.inr (Or.inl ⟨rfl, _, hparse, rfl⟩)
  | work => exact h.elim
  | _ => trivial

/-- A message of the job that is eligible belongs to a shard that may be written. -/
theorem own_resultFilename (hs : job.Sound b s) (hf : job.Facts s past) {url data : String}
    {req : ScorecardBatchRequest} (h : Eligible url req past)
    (hsecond : OfSecond job.second (resultFilename req)) :
    job.Own s (resultFilename req) data := by
  obtain rfl := hf.configured url h.configured
  obtain ⟨filename, hparse⟩ := hsecond
  have htime : req.getJobTime.truncate = job.second := by
    rw [resultFilename, parseBlobFilename_getBlobFilename] at hparse
    exact (Prod.mk.inj (Except.ok.inj hparse)).1
  rcases hf.pulled req (mem_of_lastPulled h.pulled) with ⟨body, hbody, hreq⟩ | hother
  · obtain ⟨j, hj, hmessage⟩ := hs.published body hbody req hreq
    have hmetadata : job.metadataKey ∈ s.results := by
      rw [metadataKey, getShardMetadataFilename, ← getBlobFilename_congr htime]
      exact hf.found _ h.metadata
    exact Or.inr (Or.inr ⟨j, hj, hmessage.resultFilename_eq, hmetadata⟩)
  · exact absurd htime hother

/-- **A worker's operations are permitted.** -/
theorem permits_of_worker (hapi : job.worker.apiBucketURL ≠ job.bucketURL) (hs : job.Sound b s)
    (hf : job.Facts s past) {o : BatchOp} (h : job.worker.May past o) : job.Permits s past o := by
  cases o with
  | publish => exact h.elim
  | writeToBlobStore url key data =>
    rintro rfl
    rcases h with h | ⟨url, req, hreq, rfl⟩
    · exact absurd h.symm hapi
    · exact ⟨Or.inl ⟨_, isShardOf_resultFilename req⟩, own_resultFilename hs hf hreq⟩
  | work o =>
    cases o with
    | ack =>
      obtain ⟨url, req, hstored⟩ := h
      obtain rfl := hf.configured url hstored.configured
      intro req' hreq'
      obtain rfl := Option.some.inj (hstored.pulled.symm.trans hreq')
      rcases hstored.result with hfound | ⟨data, hwritten⟩
      exacts [hf.found _ hfound, hf.written _ data hwritten]
    | _ => trivial
  | _ => trivial

/-! ### Steps -/

/-- Writing an object of the pipeline that belongs where it is written. -/
theorem Sound.write (hs : job.Sound b s) {key data : String} (hobject : job.IsObject key data)
    (hown : OfSecond job.second key → job.Own s key data) : job.Sound b (s.write key data) where
  recognized h key' data' hlookup := by
    rcases JobState.lookup_write hlookup with ⟨rfl, rfl⟩ | hlookup
    exacts [hobject, hs.recognized h key' data' hlookup]
  own key' data' hlookup hsecond := by
    rcases JobState.lookup_write hlookup with ⟨rfl, rfl⟩ | hlookup
    · exact (hown hsecond).mono (s.le_write _ _)
    · exact (hs.own key' data' hlookup hsecond).mono (s.le_write _ _)
  published := hs.published
  acked req hreq := (s.le_write key data).results _ (hs.acked req hreq)

/-- **One permitted operation** keeps the shared state sound. -/
theorem sound_step (hs : job.Sound b s) {o : BatchOp} {x : BatchSig.Ans o}
    (hpermits : job.Permits s past o) (h : job.Changes past s o x s') : job.Sound b s' := by
  unfold Changes at h
  split at h
  · subst h
    refine ⟨hs.recognized, hs.own, hs.published, fun req hreq => ?_⟩
    rcases List.mem_append.mp hreq with hreq | hreq
    · exact hs.acked req hreq
    · exact hpermits req (Option.mem_toList.mp hreq)
  · subst h
    refine ⟨hs.recognized, fun key data hkey hsecond =>
      (hs.own key data hkey hsecond).mono (s.le_publish _), fun body hbody => ?_, hs.acked⟩
    rcases List.mem_append.mp hbody with hbody | hbody
    · exact hs.published body hbody
    · rw [List.mem_singleton.mp hbody]
      exact hpermits
  · rcases h with ⟨rfl, -⟩ | ⟨rfl, rfl⟩
    · exact hs
    · exact hs.write (hpermits rfl).1 (hpermits rfl).2
  · subst h
    exact hs

/-- **One answer** says something about the state that it leads to. -/
theorem facts_step (hf : job.Facts s past) {o : BatchOp} {x : BatchSig.Ans o}
    (ha : job.Answers s o x) (hc : job.Changes past s o x s') :
    job.Facts s' (past ++ [⟨o, x⟩]) := by
  have hf' := hf.mono hc.le
  constructor
  · intro req hreq
    rcases List.mem_append.mp hreq with hreq | hreq
    · exact hf'.pulled req hreq
    · cases List.mem_singleton.mp hreq
      obtain rfl : s' = s := hc
      exact ha req rfl
  · intro url hurl
    rcases List.mem_append.mp hurl with hurl | hurl
    · exact hf'.configured url hurl
    · cases List.mem_singleton.mp hurl
      exact ha url rfl
  · intro key hkey
    rcases List.mem_append.mp hkey with hkey | hkey
    · exact hf'.found key hkey
    · cases List.mem_singleton.mp hkey
      obtain rfl : s' = s := hc
      exact (ha rfl true rfl).mp rfl
  · intro key data hkey
    rcases List.mem_append.mp hkey with hkey | hkey
    · exact hf'.written key data hkey
    · cases List.mem_singleton.mp hkey
      rcases hc with ⟨-, hfailed⟩ | ⟨rfl, -⟩
      · exact absurd rfl (hfailed rfl)
      · exact s.mem_write key data

theorem facts_nil : job.Facts s [] :=
  ⟨fun _ h => absurd h List.not_mem_nil, fun _ h => absurd h List.not_mem_nil,
    fun _ h => absurd h List.not_mem_nil, fun _ _ h => absurd h List.not_mem_nil⟩

/-- **The invariant of the pipeline.** -/
structure Invariant (b : Bucket) (c : Config JobState job.start) : Prop where
  sound : job.Sound b c.shared
  facts : ∀ i, job.Facts c.shared (c.thread i).trace

/-- The next operation of a thread is permitted. -/
theorem permits_thread (hapi : job.worker.apiBucketURL ≠ job.bucketURL)
    {c : Config JobState job.start} (hc : job.Invariant b c) (i : Option Nat) {o : BatchOp}
    {k : BatchSig.Ans o → Prog BatchSig (Except (Stop CronError) Unit)}
    (h : (c.thread i).rest = .op o k) : job.Permits c.shared (c.thread i).trace o := by
  cases i with
  | none =>
    have hsafe := (c.thread none).safe (job.controller.ensures_controllerRun job.repos)
    rw [h] at hsafe
    exact permits_of_controller hsafe.1
  | some i =>
    have hsafe := (c.thread (some i)).safe (ensures_workerRun job.worker (job.turns i))
    rw [h, ScorecardWorker.protocol, Monitor.after_history] at hsafe
    exact permits_of_worker hapi hc.sound (hc.facts _) hsafe.1

theorem sound_initial (hb : ∀ key ∈ b, ¬OfSecond job.second key) :
    job.Sound b (.initial b) where
  recognized := id
  own key _ hkey hsecond :=
    absurd hsecond (hb key (AList.lookup_isSome.mp (Option.isSome_of_mem hkey)))
  published _ h := absurd h List.not_mem_nil
  acked _ h := absurd h List.not_mem_nil

/-- **The invariant holds of every reachable configuration**, if the bucket has no object of the
job's second at first. -/
theorem invariant_of_reachable (hapi : job.worker.apiBucketURL ≠ job.bucketURL)
    (hb : ∀ key ∈ b, ¬OfSecond job.second key) {c : Config JobState job.start}
    (h : job.world.Reachable (.initial b) c) : job.Invariant b c := by
  refine h.induct ⟨sound_initial hb, fun _ => facts_nil⟩ ?_
  rintro c c' hc (⟨i, hrest, x, s', ha, hchanges⟩ | ⟨i, -⟩ | ⟨s', key, data, rfl, hobject, hkey⟩)
  · refine ⟨sound_step hc.sound (permits_thread hapi hc i hrest) hchanges, fun j => ?_⟩
    by_cases hj : j = i
    · subst hj
      simpa using facts_step (hc.facts j) ha hchanges
    · simpa [hj] using (hc.facts j).mono hchanges.le
  · refine ⟨hc.sound, fun j => ?_⟩
    by_cases hj : j = i
    · subst hj
      simpa using facts_nil
    · simpa [hj] using hc.facts j
  · refine ⟨hc.sound.write hobject fun hsecond => ?_, fun j => (hc.facts j).mono ?_⟩
    · exact Or.inl (hkey.resolve_right fun h => h hsecond)
    · exact JobState.le_write _ _ _

/-! ### What the summary says -/

variable (job) in
/-- `GetBucketSummary` for the bucket of results. -/
def summary (b : Bucket) : Except CronError BucketSummary :=
  getBucketSummary job.controller.metadataCodec b.blobContent (.ok b.blobKeys)

/-- A shard of the job's second is the shard of a message, and the metadata exist. -/
theorem Sound.shard (hs : job.Sound b s) {key : String} (hkey : key ∈ s.results)
    (h : IsShardOf job.second key) :
    (∃ j < job.numShards, key = job.shardKey j) ∧ job.metadataKey ∈ s.results := by
  obtain ⟨data, hdata⟩ := Bucket.exists_lookup hkey
  obtain ⟨filename, hparse, hprefix⟩ := h
  rcases hs.own key data hdata ⟨filename, hparse⟩ with rfl | ⟨rfl, -⟩ | ⟨j, hj, rfl, hmetadata⟩
  · obtain ⟨-, rfl⟩ := Prod.mk.inj (Except.ok.inj (parse_transferKey.symm.trans hparse))
    exact absurd hprefix (by decide)
  · obtain ⟨-, rfl⟩ := Prod.mk.inj (Except.ok.inj (parse_metadataKey.symm.trans hparse))
    exact absurd hprefix (by decide)
  · exact ⟨⟨j, hj, rfl⟩, hmetadata⟩

/-- The metadata of the job's second have the number of messages. -/
theorem Sound.numShard (hs : job.Sound b s) (hk : job.numShards < 2 ^ 31) {key data : String}
    {metadata : ShardMetadata} (hkey : key ∈ s.results) (h : IsMetadataOf job.second key)
    (hdata : s.results.blobContent key = .ok data)
    (hmetadata : job.controller.metadataCodec.unmarshal data = .ok metadata) :
    metadata.getNumShard.toInt = job.numShards := by
  rw [Bucket.blobContent_eq_ok] at hdata
  rcases hs.own key data hdata ⟨_, h⟩ with rfl | ⟨rfl, m, hm, hnum⟩ | ⟨j, -, rfl, -⟩
  · obtain ⟨-, hname⟩ := Prod.mk.inj (Except.ok.inj (parse_transferKey.symm.trans h))
    exact absurd hname (by decide)
  · obtain rfl := Except.ok.inj (hm.symm.trans hmetadata)
    rw [hnum, Int32.toInt_ofNat_of_lt hk]
  · obtain ⟨-, hname⟩ := Prod.mk.inj (Except.ok.inj ((parse_shardKey j).symm.trans h))
    have hprefix := hasPrefix_shardName (Int32.ofNat j)
    rw [hname] at hprefix
    exact absurd hprefix (by decide)

variable (job) in
/-- The keys of the shards of all messages. -/
def shardKeys : List String := (List.range job.numShards).map job.shardKey

theorem nodup_shardKeys (hk : job.numShards < 2 ^ 31) : job.shardKeys.Nodup := by
  refine List.Nodup.map_on (fun i hi j hj h => ?_) List.nodup_range
  exact shardKey_injOn hk (List.mem_range.mp hi) (List.mem_range.mp hj) h

/-- There are at most as many shards as messages. -/
theorem Sound.countP_le (hs : job.Sound b s) :
    s.results.blobKeys.countP (IsShardOf job.second) ≤ job.numShards := by
  have hsub : (s.results.blobKeys.filter (IsShardOf job.second)) ⊆ job.shardKeys := by
    intro key hkey
    obtain ⟨hmem, hshard⟩ := List.mem_filter.mp hkey
    obtain ⟨⟨j, hj, rfl⟩, -⟩ := hs.shard (Bucket.mem_blobKeys.mp hmem) (of_decide_eq_true hshard)
    exact List.mem_map_of_mem (List.mem_range.mpr hj)
  have hlen := (List.subperm_of_subset (Bucket.nodup_blobKeys.filter _) hsub).length_le
  rwa [← List.countP_eq_length_filter, shardKeys, List.length_map, List.length_range] at hlen

/-- If all messages have been acknowledged, there are as many shards. -/
theorem Sound.le_countP (hs : job.Sound b s) (hk : job.numShards < 2 ^ 31)
    (hacked : ∀ j < job.numShards, ∃ req ∈ s.acked, job.IsMessage j req) :
    job.numShards ≤ s.results.blobKeys.countP (IsShardOf job.second) := by
  have hsub : job.shardKeys ⊆ s.results.blobKeys.filter (IsShardOf job.second) := by
    intro key hkey
    obtain ⟨j, hj, rfl⟩ := List.mem_map.mp hkey
    obtain ⟨req, hreq, hmessage⟩ := hacked j (List.mem_range.mp hj)
    refine List.mem_filter.mpr ⟨Bucket.mem_blobKeys.mpr ?_, decide_eq_true ?_⟩
    · rw [← hmessage.resultFilename_eq]
      exact hs.acked req hreq
    · exact ⟨_, parse_shardKey j, hasPrefix_shardName _⟩
  have hlen := (List.subperm_of_subset (nodup_shardKeys hk) hsub).length_le
  rwa [← List.countP_eq_length_filter, shardKeys, List.length_map, List.length_range] at hlen

/-- The number of shards that a summary expects, once there are metadata. -/
theorem Sound.shardsExpected (hs : job.Sound b s) (hk : job.numShards < 2 ^ 31)
    (hmetadata : job.numShards = 0 ∨ job.metadataKey ∈ s.results) {summary : BucketSummary}
    (h : job.summary s.results = .ok summary) :
    (summary.getOrCreate job.second).shardsExpected = job.numShards := by
  refine shardsExpected_eq h job.second _ (fun key hkey hmd data metadata hdata hm => ?_)
    (hmetadata.imp (fun h => by rw [h]; rfl) fun h =>
      ⟨job.metadataKey, Bucket.mem_blobKeys.mpr h, parse_metadataKey⟩)
  exact hs.numShard hk (Bucket.mem_blobKeys.mp hkey) hmd hdata hm

/-- There is a summary while all objects are the pipeline's. -/
theorem exists_summary (h : job.AllRecognized b) : ∃ summary, job.summary b = .ok summary := by
  refine summary_eq_ok_iff.mpr fun key hkey => ?_
  obtain ⟨data, hdata⟩ := Bucket.exists_lookup (Bucket.mem_blobKeys.mp hkey)
  refine (h key data hdata).imp_right (Or.imp_right ?_)
  rintro ⟨t, data', metadata, hmd, hdata', hparse⟩
  obtain rfl := Except.ok.inj hdata'
  exact ⟨t, data, metadata, hmd, Bucket.blobContent_eq_ok.mpr hdata, hparse⟩

/-- **No lost shard.** In every reachable state: a shard of the job exists only with its metadata;
once these exist the summary has the job, with at most as many shards as it expects, which is the
number of messages; if every message has been acknowledged, the summary has counted all of them.
There is a summary if there was one at first. -/
theorem no_lost_shard (job : Job) (hapi : job.worker.apiBucketURL ≠ job.bucketURL)
    (hk : job.numShards < 2 ^ 31) (b : Bucket) (hb : ∀ key ∈ b, ¬OfSecond job.second key)
    (c : Config JobState job.start) (h : job.world.Reachable (.initial b) c) :
    (∀ key ∈ c.shared.results, IsShardOf job.second key → job.metadataKey ∈ c.shared.results) ∧
    (∀ summary, job.summary c.shared.results = .ok summary →
      (job.metadataKey ∈ c.shared.results → job.second ∈ summary ∧
        ((summary.getOrCreate job.second).shardsCreated : Int) ≤
          (summary.getOrCreate job.second).shardsExpected ∧
        (summary.getOrCreate job.second).shardsExpected = job.numShards) ∧
      ((∀ j < job.numShards, ∃ req ∈ c.shared.acked, job.IsMessage j req) →
        (summary.getOrCreate job.second).shardsCreated = job.numShards ∧
        (summary.getOrCreate job.second).shardsExpected = job.numShards)) ∧
    (job.AllRecognized b → ∃ summary, job.summary c.shared.results = .ok summary) := by
  have hs := (invariant_of_reachable hapi hb h).sound
  refine ⟨fun key hkey hshard => (hs.shard hkey hshard).2, fun summary hsummary => ⟨?_, ?_⟩,
    fun h => exists_summary (hs.recognized h)⟩
  · intro hmetadata
    have hexpected := hs.shardsExpected hk (Or.inr hmetadata) hsummary
    refine ⟨mem_summary hsummary (Bucket.mem_blobKeys.mpr hmetadata) parse_metadataKey,
      ?_, hexpected⟩
    rw [hexpected, shardsCreated_eq hsummary]
    exact_mod_cast hs.countP_le
  · intro hacked
    have hcreated : (summary.getOrCreate job.second).shardsCreated = job.numShards := by
      rw [shardsCreated_eq hsummary]
      exact le_antisymm hs.countP_le (hs.le_countP hk hacked)
    refine ⟨hcreated, hs.shardsExpected hk ?_ hsummary⟩
    rcases Nat.eq_zero_or_pos job.numShards with hzero | hpos
    · exact Or.inl hzero
    · obtain ⟨req, hreq, hmessage⟩ := hacked 0 hpos
      have hkey := hs.acked req hreq
      rw [hmessage.resultFilename_eq] at hkey
      exact Or.inr (hs.shard hkey ⟨_, parse_shardKey 0, hasPrefix_shardName _⟩).2

end Job

/-! ### A sample job -/

/-- The request with the first two repositories of the sample job. -/
def sampleJobRequest : ScorecardBatchRequest :=
  ⟨[⟨some "github.com/org/one", some "HEAD", []⟩, ⟨some "example.invalid", some "HEAD", []⟩],
    some 0, some epoch⟩

/-- The request with the last one. -/
def sampleJobRest : ScorecardBatchRequest :=
  ⟨[⟨some "github.com/org/two", some "HEAD", []⟩], some 1, some epoch⟩

/-- The metadata of the sample job. -/
def sampleJobMetadata : ShardMetadata :=
  ⟨some "s3://results/1970.01.01/000000/", some 2, some "c0ffee"⟩

/-- The inventory of the sample job: the URL of the second repository is not valid. -/
def sampleJobRows : List RepoFormat :=
  [⟨"github.com/org/one", []⟩, ⟨"example.invalid", []⟩, ⟨"github.com/org/two", []⟩]

/-- A job with three repositories and two messages. -/
def sampleJob : Job where
  controller :=
    { shardSize := 2
      bucket := "s3://results"
      rawBucket := ""
      gitCommit := "c0ffee"
      datetime := epoch
      requestCodec :=
        { marshal := fun request =>
            if request = sampleJobRequest then .ok "request"
            else if request = sampleJobRest then .ok "rest" else .error "unknown"
          unmarshal := fun data =>
            if data = "request" then .ok sampleJobRequest
            else if data = "rest" then .ok sampleJobRest else .error "syntax error"
          unmarshal_marshal := fun request data h => by
            split_ifs at h with hrequest hrest <;> obtain rfl := Except.ok.inj h
            · rw [if_pos rfl, hrequest]
            · rw [if_neg (by decide), if_pos rfl, hrest] }
      metadataCodec :=
        { marshal := fun metadata =>
            if metadata = sampleJobMetadata then .ok "metadata" else .error "unknown"
          unmarshal := fun data =>
            if data = "metadata" then .ok sampleJobMetadata else .error "syntax error"
          unmarshal_marshal := fun metadata data h => by
            split_ifs at h with hm
            obtain rfl := Except.ok.inj h
            rw [if_pos rfl, hm] } }
  repos := sampleJobRows.map .ok
  worker :=
    { rawBucketURL := "s3://raw"
      apiBucketURL := "s3://api"
      blacklistedChecks := []
      ignoreRuntimeErrors := false
      engine := ("", "")
      getEnabled := fun _ _ => .ok []
      asJSON2 := fun result => .ok result.details
      asRawJSON := fun _ => .ok "" }
  turns _ := 1

/-- The message that a worker pulls: the first one, unless it is the worker 1. -/
def sampleDelivery : Option Nat → Nat
  | some 1 => 1
  | _ => 0

/-- The queue delivers the first message to several workers, every valid repository is scanned, and
every write succeeds. The scans of the worker 2 have results of their own. -/
def sampleJobAnswer (i : Option Nat) (past : Trace BatchSig) (s : JobState) :
    (o : BatchOp) → Option (BatchSig.Ans o × JobState)
  | .work .synchronousPull => match s.published[sampleDelivery i]? with
    | none => some (.ok none, s)
    | some body => match sampleJob.controller.requestCodec.unmarshal body with
      | .ok req => some (.ok (some req), s)
      | .error _ => none
  | .work .ack => some ((), s.ack (lastPulled past))
  | .work (.host .readConfig) | .work (.host (.createSubscriber _)) => some (.ok (), s)
  | .work (.host .getRequestSubscriptionURL) => some (.ok "awssqs://requests", s)
  | .work (.host .getResultDataBucketURL) => some (.ok sampleJob.bucketURL, s)
  | .work (.host (.blobExists _ key)) => some (.ok (decide (key ∈ s.results)), s)
  | .work (.host .postProcess) => some ((), s)
  | .makeGitlabRepo _ => some (.error "not on GitLab", s)
  | .makeGithubRepo url =>
    some (if url = "example.invalid" then .error "invalid" else .ok ⟨url, []⟩, s)
  | .run job => some (.ok ⟨[], "da39a3ee", "", "", epoch,
      if i = some 2 then job.repo.uri ++ " again" else job.repo.uri⟩, s)
  | .purge _ => some (.ok (), s)
  | .writeToBlobStore url key data =>
    some (.ok (), if url = sampleJob.bucketURL then s.write key data else s)
  | .publish body => some ((), s.publish body)
  | .closePublisher => some (.ok (), s)
  | _ => none

theorem sampleJobAnswer_answers (i : Option Nat) (past : Trace BatchSig) (s : JobState)
    (o : BatchOp) (x : BatchSig.Ans o) (s' : JobState)
    (h : sampleJobAnswer i past s o = some (x, s')) :
    sampleJob.world.answer i past s ⟨o, x⟩ s' := by
  unfold sampleJobAnswer at h
  split at h
  -- most operations leave the state as it is, or change it as they should
  all_goals try cases h
  all_goals try exact ⟨trivial, rfl⟩
  · split at h
    · cases h
      exact ⟨nofun, rfl⟩
    · rename_i body hpublished
      split at h
      · rename_i req hparse
        cases h
        refine ⟨fun req' hreq => Or.inl ⟨body, List.mem_of_getElem? hpublished, ?_⟩, rfl⟩
        obtain rfl := Option.some.inj (Except.ok.inj hreq)
        exact hparse
      · cases h
  · exact ⟨fun url hurl => (Except.ok.inj hurl).symm, rfl⟩
  · refine ⟨fun _ found hfound => ?_, rfl⟩
    rw [← Except.ok.inj hfound, decide_eq_true_iff]
  · refine ⟨trivial, ?_⟩
    split_ifs with hurl
    · exact Or.inr ⟨rfl, hurl⟩
    · exact Or.inl ⟨rfl, fun h => absurd h hurl⟩

/-- The sample job after some more operations. -/
@[irreducible] def sampleJobAfter (is : List (Option Nat)) (c : Config JobState sampleJob.start) :
    Config JobState sampleJob.start :=
  is.foldl (Config.perform sampleJobAnswer) c

/-- The controller has published the job. The worker 2 has found no shard for the first request, and
the worker 0 has handled its first repository. -/
def sampleJobBegun : Config JobState sampleJob.start :=
  sampleJobAfter (List.replicate 4 none ++ List.replicate 7 (some 2) ++ List.replicate 14 (some 0))
    (.initial sampleJob.start (.initial ∅))

/-- The worker 0 has crashed. -/
def sampleJobCrashed : Config JobState sampleJob.start :=
  ⟨sampleJobBegun.shared, Function.update sampleJobBegun.thread (some 0) (.start _)⟩

/-- The worker 1 has handled its request, and the worker 0 the first one, which it was delivered
again. -/
def sampleJobEnd : Config JobState sampleJob.start :=
  sampleJobAfter (List.replicate 20 (some 1) ++ List.replicate 22 (some 0)) sampleJobCrashed

/-- The worker 2 has handled the first request, too. -/
def sampleJobLater : Config JobState sampleJob.start :=
  sampleJobAfter (List.replicate 15 (some 2)) sampleJobEnd

theorem sampleJobAfter_steps (is : List (Option Nat)) (c : Config JobState sampleJob.start) :
    Relation.ReflTransGen sampleJob.world.Step c (sampleJobAfter is c) := by
  rw [sampleJobAfter]
  exact World.steps_schedule _ sampleJobAnswer_answers is c

theorem sampleJobEnd_reachable : sampleJob.world.Reachable (.initial ∅) sampleJobEnd := by
  have hbegun : sampleJob.world.Reachable (.initial ∅) sampleJobBegun := sampleJobAfter_steps _ _
  have hcrashed : sampleJob.world.Step sampleJobBegun sampleJobCrashed := .restart (some 0) nofun
  exact (hbegun.tail hcrashed).trans (sampleJobAfter_steps _ _)

theorem sampleJobEnd_acked : sampleJobEnd.shared.acked = [sampleJobRest, sampleJobRequest] := by
  decide +kernel

/-- Every message has been acknowledged. -/
theorem sampleJobEnd_allAcked (j : Nat) (hj : j < sampleJob.numShards) :
    ∃ req ∈ sampleJobEnd.shared.acked, sampleJob.IsMessage j req := by
  have hnum : sampleJob.numShards = 2 := rfl
  rw [sampleJobEnd_acked]
  obtain rfl | rfl : j = 0 ∨ j = 1 := by omega
  · exact ⟨sampleJobRequest, by simp, rfl, rfl⟩
  · exact ⟨sampleJobRest, by simp, rfl, rfl⟩

/-- The summary reports both shards of the sample job, and expects no more. -/
theorem sampleJobEnd_complete :
    sampleJobEnd.shared.acked = [sampleJobRest, sampleJobRequest] ∧
    ∃ summary, sampleJob.summary sampleJobEnd.shared.results = .ok summary ∧
      (summary.getOrCreate sampleJob.second).shardsCreated = 2 ∧
      (summary.getOrCreate sampleJob.second).shardsExpected = 2 := by
  obtain ⟨-, hsummary, hexists⟩ := Job.no_lost_shard sampleJob (by decide) (by decide) ∅
    (fun _ h => absurd h (AList.notMem_empty _)) sampleJobEnd sampleJobEnd_reachable
  obtain ⟨summary, h⟩ := hexists fun key data hkey => nomatch hkey
  exact ⟨sampleJobEnd_acked, summary, h, (hsummary summary h).2 sampleJobEnd_allAcked⟩

end ScorecardInfra.Cron
