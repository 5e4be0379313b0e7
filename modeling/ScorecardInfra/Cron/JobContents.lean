import ScorecardInfra.Cron.Job
import ScorecardInfra.Cron.Publisher
import ScorecardInfra.Cron.ShardContents

/-!
# The contents of a job's results

The results of a job are spread over its shards, which workers write in any order, again after a
crash or a second delivery, and among requests of other jobs. In every state that is reached, the
object at the key of the shard `j` is the concatenation of the records of the repositories of the
`j`-th block of the inventory, in the order of the inventory: each of them has been skipped, or its
record written by a scan that was really made (`job_contents`). Once all messages are acknowledged
the shards together are the records of the whole inventory.

The proof follows a request from the inventory to the bucket: what the controller publishes
(`ensures_announced`), what a worker that writes a shard has done (`ensures_workerRuns`), and what
the shared state says about both (`Job.Contents`). An auxiliary variable logs what the threads have
performed, since a worker that crashes forgets it.

## Main definitions

* `Controller.validRows`, `Controller.Announces`, `Job.recorded`, `Job.Block`, `Job.Contents`.

## Main results

* `Controller.ensures_announced`, `ensures_workerRuns`, `Job.contents_reachable`, `job_contents`.

Sources: `cron/internal/controller/main.go`, lines 37–187; `cron/internal/worker/main.go`,
lines 156–336.
-/

namespace ScorecardInfra.Cron

open GoStd Interaction

/-! ### What the controller announces -/

namespace Controller

/-- The rows before the first one without a value. -/
def validRows : List (Except CronError RepoFormat) → List RepoFormat
  | .ok repoURL :: iter => repoURL :: validRows iter
  | _ => []

theorem validRows_append (rows : List RepoFormat) (iter : List (Except CronError RepoFormat)) :
    validRows (List.map .ok rows ++ iter) = rows ++ validRows iter := by
  induction rows with
  | nil => rfl
  | cons row rows ih => exact congrArg (row :: ·) ih

/-- All rows fit into the requests. -/
theorem length_le_numShards (ct : Controller) (n : Nat) :
    n ≤ ct.numShards n * ct.reposPerShard := by
  have hpos := ct.reposPerShard_pos
  have hlt := Nat.lt_div_mul_add (a := n + ct.reposPerShard - 1) hpos
  rw [numShards]
  omega

/-- If there are as many valid rows as rows, then all rows have values. -/
theorem eq_map_validRows {iter : List (Except CronError RepoFormat)}
    (h : iter.length ≤ (validRows iter).length) : iter = List.map .ok (validRows iter) := by
  induction iter with
  | nil => rfl
  | cons next iter ih =>
    cases next with
    | error e => exact absurd h (by simp [validRows])
    | ok repoURL => exact congrArg (.ok repoURL :: ·) (ih (Nat.le_of_succ_le_succ h))

theorem validRows_map (rows : List RepoFormat) : validRows (List.map .ok rows) = rows := by
  simpa [validRows] using validRows_append rows []

/-- The request `m` of the inventory, whose block is complete. -/
structure Announces (ct : Controller) (iter : List (Except CronError RepoFormat)) (m : Nat)
    (body : String) : Prop where
  marshal : ct.requestCodec.marshal (ct.shardRequest (validRows iter) m) = .ok body
  lt : m < ct.numShards iter.length
  complete : (m + 1) * ct.reposPerShard ≤ (validRows iter).length ∨
    iter = List.map .ok (validRows iter)

/-- Follows the messages of the controller. -/
def announced (ct : Controller) (iter : List (Except CronError RepoFormat)) :
    Monitor BatchSig (List String) where
  allows
    | bodies, .publish body => ct.Announces iter bodies.length body
    | _, _ => True
  next
    | bodies, ⟨.publish body, _⟩ => bodies ++ [body]
    | bodies, _ => bodies

section Announced

variable {ct : Controller} {iter : List (Except CronError RepoFormat)} {rows : List RepoFormat}
  {bodies : List String} {repos : List Repo}

/-- A request that is published. -/
theorem ensures_publish_announced {request : ScorecardBatchRequest}
    (h : ∀ body, ct.requestCodec.marshal request = .ok body →
      ct.Announces iter bodies.length body) :
    Ensures (ct.announced iter) bodies
      (annotate (.wrapf "error running topicPublisher.Publish") (ct.publish request))
      (fun _ bodies' => ∃ body, ct.requestCodec.marshal request = .ok body ∧
        bodies' = bodies ++ [body]) fun _ _ => True := by
  refine ensures_annotate ?_
  rw [publish]
  cases hbody : ct.requestCodec.marshal request with
  | error e => exact trivial
  | ok body => exact ensures_perform (h body hbody) fun _ => ⟨body, rfl, rfl⟩

/-- **The loop** publishes the full blocks. -/
theorem ensures_publishLoop_announced {all : List (Except CronError RepoFormat)} :
    (iter : List (Except CronError RepoFormat)) → (rows : List RepoFormat) →
      (bodies : List String) → (repos : List Repo) → all = List.map .ok rows ++ iter →
      ct.Progress rows bodies repos →
      Ensures (ct.announced all) bodies (ct.publishLoop iter repos (Int32.ofNat bodies.length))
        (fun r bodies' => ∃ rows', all = List.map .ok rows' ∧ ct.Progress rows' bodies' r.1 ∧
          r.2 = Int32.ofNat bodies'.length) fun _ _ => True
  | [], rows, bodies, repos, hall, h => ⟨rows, by simpa using hall, h, rfl⟩
  | .error e :: _, _, _, _, _, _ => trivial
  | .ok repoURL :: iter, rows, bodies, repos, hall, h => by
    have hall' : all = List.map (Except.ok (ε := CronError)) (rows ++ [repoURL]) ++ iter := by
      simpa using hall
    change Ensures _ _ (if ((repos ++ [toRepo repoURL]).length : Int) < ct.shardSize then _ else _)
      _ _
    have hlen : (repos ++ [toRepo repoURL]).length = repos.length + 1 := List.length_append
    have hlt := h.lt
    split_ifs with hsize
    · refine ensures_publishLoop_announced iter _ _ _ hall' (h.add ?_)
      unfold reposPerShard
      omega
    · have hfull : repos.length + 1 = ct.reposPerShard := by
        unfold reposPerShard at hlt ⊢
        omega
      have hrows : (bodies.length + 1) * ct.reposPerShard = (rows ++ [repoURL]).length := by
        have hprogress := h.length_eq
        rw [List.length_append, List.length_singleton, Nat.succ_mul]
        omega
      have hvalid : validRows all = rows ++ [repoURL] ++ validRows iter := by
        rw [hall', validRows_append]
      rw [h.request_full hfull]
      refine (ensures_publish_announced fun body hbody => ⟨?_, ?_, Or.inl ?_⟩).bind ?_
      · rw [hvalid, shardRequest, shardRows_append _ hrows.le]
        exact hbody
      · refine lt_numShards ct.reposPerShard_pos ?_
        rw [← Nat.succ_mul, hall', List.length_append, List.length_map]
        exact hrows.le.trans (Nat.le_add_right _ _)
      · rw [hvalid, List.length_append]
        exact hrows.le.trans (Nat.le_add_right _ _)
      · rintro _ _ ⟨body, hbody, rfl⟩
        have hnum : Int32.ofNat bodies.length + 1 = Int32.ofNat (bodies ++ [body]).length := by
          rw [List.length_append]
          exact (Int32.ofNat_add bodies.length 1).symm
        rw [hnum]
        exact ensures_publishLoop_announced iter _ _ _ hall' (h.publish hfull hbody)

theorem ensures_writeMetadata_announced {marshalling writing bucket : String} {numShard : Int32} :
    Ensures (ct.announced iter) bodies (ct.writeMetadata marshalling writing bucket numShard)
      (fun _ _ => True) fun _ _ => True := by
  refine (ensures_ofExcept (Q := fun _ _ => True) (fun _ _ => trivial)
    fun _ _ => trivial).bind fun data _ _ => ensures_perform_bind trivial ?_
  rintro (_ | _) <;> trivial

/-- **What the controller publishes**: the blocks of the inventory, in order. -/
theorem ensures_announced (ct : Controller) (iter : List (Except CronError RepoFormat)) :
    Ensures (ct.announced iter) [] (ct.controllerRun iter) (fun _ _ => True) fun _ _ => True := by
  refine Ensures.bind (Q := fun _ _ => True) ?_ fun shardNum bodies _ => ?_
  · have hall : iter = List.map .ok [] ++ iter := rfl
    refine (ensures_publishLoop_announced iter [] [] [] hall (progress_nil ct)).bind ?_
    rintro ⟨repos, shardNum⟩ bodies ⟨rows, rfl, hprogress, hnum⟩
    obtain rfl : shardNum = Int32.ofNat bodies.length := hnum
    refine Ensures.bind (Q := fun _ _ => True) ?_ fun _ _ _ => ?_
    · rw [publishRest]
      split_ifs with hpos
      · rw [hprogress.request_eq]
        refine (ensures_publish_announced fun body hbody => ⟨?_, ?_, Or.inr ?_⟩).bind
          fun _ _ _ => trivial
        · rwa [validRows_map]
        · rw [List.length_map]
          exact lt_numShards hpos hprogress.length_eq.le
        · rw [validRows_map]
      · trivial
    · refine ensures_perform_bind trivial ?_
      rintro (_ | _) <;> trivial
  · refine ensures_writeMetadata_announced.bind fun _ _ _ => ?_
    split
    · exact ensures_writeMetadata_announced
    · trivial

end Announced

end Controller

/-! ### What a worker has done when it writes -/

section Worker

variable {sw : ScorecardWorker} {past : Trace BatchSig}

/-- The operation is one of `processRequest`, for a request that was pulled and with the bucket of
the configuration. -/
def ScorecardWorker.InProcess (sw : ScorecardWorker) (past : Trace BatchSig) (o : BatchOp) : Prop :=
  ∃ past₀ req bucketURL t, past = past₀ ++ t ∧
    ⟨.work .synchronousPull, .ok (some req)⟩ ∈ past₀ ∧
    ⟨.work (.host .getResultDataBucketURL), .ok bucketURL⟩ ∈ past₀ ∧
    ∀ x, Exec (sw.processRequest req bucketURL).run (t ++ [⟨o, x⟩]) none

/-- A worker writes only when it processes a request. -/
def ScorecardWorker.Runs (sw : ScorecardWorker) (past : Trace BatchSig) : BatchOp → Prop
  | .writeToBlobStore url key data => sw.InProcess past (.writeToBlobStore url key data)
  | _ => True

theorem ScorecardWorker.InProcess.runs {o : BatchOp} (h : sw.InProcess past o) :
    sw.Runs past o := by
  cases o with
  | writeToBlobStore => exact h
  | _ => trivial

/-- Processing a request that is held. -/
theorem ensures_processRequest_runs {bucketURL : String} {req : ScorecardBatchRequest}
    (h : Held bucketURL req past) :
    Ensures (.history sw.Runs) past (sw.processRequest req bucketURL) (fun _ _ => True)
      fun _ _ => True := by
  refine ((safe_exec _ past).simulate Eq ?_ rfl).mono ?_
  · rintro past' _ o rfl ⟨t, rfl, hexec⟩
    have hprocess : sw.InProcess (past ++ t) o :=
      ⟨past, req, bucketURL, t, rfl, mem_of_lastPulled h.pulled, h.configured, hexec⟩
    exact ⟨hprocess.runs, fun _ => rfl⟩
  · rintro (_ | _) _ - <;> trivial

/-- The operations of a worker, with what it knows in each phase. -/
theorem ensures_workerAnswer_runs (o : WorkOp) (phase : Phase) (h : Known past phase)
    (ho : phase.Allows o) : Ensures (.history sw.Runs) past (sw.answer o ())
      (fun _ _ => True) fun _ _ => True := by
  cases o with
  | host o =>
    cases o with
    | process req bucketURL =>
      obtain rfl : phase = .pending bucketURL req := by
        cases phase with
        | pending =>
          cases ho
          rfl
        | pulled | eligible => cases ho
        | _ => exact ho.elim
      refine (ensures_attempt (R := fun _ _ => True) ?_).bind fun _ _ _ => trivial
      refine (ensures_processRequest_runs h.toHeld).mono (fun _ _ _ => trivial) ?_
      rintro (_ | _) _ - <;> trivial
    | _ => exact ensures_perform_bind trivial fun _ => trivial
  | outOfTurns => exact ensures_perform_bind trivial fun x => x.elim
  | _ => exact ensures_perform_bind trivial fun _ => trivial

/-- **A worker** writes only when it processes a request that it has pulled. -/
theorem ensures_workerRuns (sw : ScorecardWorker) (n : Nat) :
    Ensures (.history sw.Runs) [] (sw.workerRun n) (fun _ _ => True) fun _ _ => True := by
  have hboth : Ensures (.history fun past o => sw.May past o ∧ sw.Runs past o) []
      (handle sw.answer (workLoopRun n).run ()) (fun _ _ => True) fun _ _ => True := by
    refine (ensures_handle (E := fun _ _ => True) (fun phase _ past => Known past phase) ?_ _ ()
      .setup [] (ensures_workLoop n) trivial).mono (fun _ _ _ => trivial) fun _ _ _ => trivial
    intro o phase _ past h ho
    refine (Prog.Safe.and_history (ensures_workerAnswer o phase h ho)
      (ensures_workerAnswer_runs o phase h ho)).mono ?_
    rintro (_ | _) _ hends
    exacts [trivial, hends.1]
  refine Ensures.bind (Q := fun _ _ => True) ?_ fun p _ _ => ?_
  · refine (hboth.simulate Eq ?_ rfl).mono ?_
    · rintro past _ o rfl ⟨-, hruns⟩
      exact ⟨hruns, fun _ => rfl⟩
    · rintro (_ | _) _ - <;> trivial
  · cases p.1 <;> exact trivial

end Worker

/-! ### The contents of the bucket -/

namespace Job

variable (job : Job)

/-- The pipeline, with a log of all that the threads have performed. -/
abbrev recorded : World BatchSig (Option Nat) (JobState × Trace BatchSig)
    (Except (Stop CronError) Unit) :=
  job.world.observe fun _ _ e _ log => log ++ [e]

variable {job} in
/-- A run of the job, with its log. -/
theorem exists_recorded {c c' : Config JobState job.start}
    (h : Relation.ReflTransGen job.world.Step c c') (log : Trace BatchSig) :
    ∃ log', Relation.ReflTransGen job.recorded.Step ⟨(c.shared, log), c.thread⟩
      ⟨(c'.shared, log'), c'.thread⟩ :=
  World.exists_observe h _ log

/-- The repositories of the block `j` of the inventory. -/
def block (j : Nat) : List Repo :=
  (job.controller.shardRows (Controller.validRows job.repos) j).map Controller.toRepo

/-- The repositories have been handled as the log says, one after the other. -/
structure HandledIn (log : Trace BatchSig) (repos : List Repo) (done : List RepoRun) : Prop where
  handled : List.Forall₂ (job.worker.Handled job.controller.datetime) repos done
  logged : ∀ d ∈ done, d.events ⊆ log

/-- The object is the shard `j`, of a block that is complete. -/
def Block (log : Trace BatchSig) (j : Nat) (data : String) : Prop :=
  ((j + 1) * job.controller.reposPerShard ≤ (Controller.validRows job.repos).length ∨
    job.repos = List.map .ok (Controller.validRows job.repos)) ∧
  ∃ done, job.HandledIn log (job.block j) done ∧ data = resultsShard done

/-- What is known of the contents of the shared state. -/
structure Contents (c : Config (JobState × Trace BatchSig) job.start) : Prop where
  logged : ∀ i, (c.thread i).trace ⊆ c.shared.2
  published : ∀ body ∈ c.shared.1.published, ∃ m, job.controller.Announces job.repos m body
  blocks : ∀ j < job.numShards, ∀ data, c.shared.1.results.lookup (job.shardKey j) = some data →
    job.Block c.shared.2 j data

variable {job} {b : Bucket} {s s' : JobState} {log log' : Trace BatchSig} {past : Trace BatchSig}

theorem HandledIn.mono {repos : List Repo} {done : List RepoRun}
    (h : job.HandledIn log repos done) (hlog : log ⊆ log') : job.HandledIn log' repos done :=
  ⟨h.handled, fun d hd => List.Subset.trans (h.logged d hd) hlog⟩

theorem Block.mono {j : Nat} {data : String} (h : job.Block log j data) (hlog : log ⊆ log') :
    job.Block log' j data := by
  obtain ⟨hcomplete, done, hdone, hdata⟩ := h
  exact ⟨hcomplete, done, hdone.mono hlog, hdata⟩

theorem performs_processRequest {sw : ScorecardWorker} (req : ScorecardBatchRequest)
    (bucketURL : String) :
    (sw.processRequest req bucketURL).run.Performs (sw.Processes req) :=
  performs_run_bind ((performs_processRepos _ _ _).mono fun _ => Or.inl) fun _ =>
  performs_run_bind (performs_writeBlob (Or.inr ⟨_, _, rfl⟩)) fun _ =>
  performs_writeBlob (Or.inr ⟨_, _, rfl⟩)

/-- **A worker that writes a shard of the job** has handled the block. -/
theorem block_of_inProcess (hk : job.numShards < 2 ^ 31)
    (hapi : job.worker.apiBucketURL ≠ job.bucketURL)
    (hraw : job.worker.rawBucketURL ≠ job.bucketURL) (hf : job.Facts s past)
    (hpublished : ∀ body ∈ s.published, ∃ m, job.controller.Announces job.repos m body) {j : Nat}
    (hj : j < job.numShards) {data : String}
    (h : job.worker.InProcess past (.writeToBlobStore job.bucketURL (job.shardKey j) data)) :
    job.Block past j data := by
  obtain ⟨past₀, req, url, t, rfl, hpulled, hconfigured, hexec⟩ := h
  obtain rfl := hf.configured url (List.mem_append_left _ hconfigured)
  have hkey : job.shardKey j = resultFilename req := by
    have hprocesses := (hexec (.ok ())).mem_performs (performs_processRequest req job.bucketURL)
      ⟨_, _⟩ (List.mem_append_right _ List.mem_cons_self)
    rcases hprocesses with ⟨hurl, -⟩ | ⟨_, _, hop⟩
    · exact absurd hurl.symm hapi
    · exact (BatchOp.writeToBlobStore.inj hop).2.1
  obtain ⟨htime, hname⟩ := getBlobFilename_inj hkey
  rcases hf.pulled req (List.mem_append_left _ hpulled) with ⟨body, hbody, hreq⟩ | hother
  · obtain ⟨m, hmarshal, hm, hcomplete⟩ := hpublished body hbody
    have hparse := job.controller.requestCodec.unmarshal_marshal _ _ hmarshal
    obtain rfl := Except.ok.inj (hreq.symm.trans hparse)
    -- the numbers of the messages are told apart
    obtain rfl : j = m := by
      have hnum := congrArg Int32.toInt (shardName_injective hname)
      have hm' : m < job.numShards := hm
      rw [show (job.controller.shardRequest _ m).getShardNum = Int32.ofNat m from rfl,
        Int32.toInt_ofNat_of_lt (by omega), Int32.toInt_ofNat_of_lt (by omega)] at hnum
      exact_mod_cast hnum
    have hlast := hexec (.ok ())
    rw [hkey] at hlast
    obtain ⟨done, hdone, ⟨rfl, -, hdata⟩ | ⟨hurl, -⟩⟩ :=
      canonical_shard_last _ _ _ t [] data _ none hlast
    · refine ⟨hcomplete, done, ⟨hdone, fun d hd e he => ?_⟩, hdata⟩
      simp only [List.mem_append, List.mem_flatMap]
      exact Or.inr (Or.inl ⟨d, hd, he⟩)
    · exact absurd hurl.symm hraw
  · exact absurd htime.symm hother

/-- The messages after an operation. -/
theorem Changes.published {o : BatchOp} {x : BatchSig.Ans o} (h : job.Changes past s o x s') :
    s'.published = s.published ∨ ∃ body, o = .publish body ∧
      s'.published = s.published ++ [body] := by
  unfold Changes at h
  split at h
  · subst h
    exact Or.inl rfl
  · subst h
    exact Or.inr ⟨_, rfl, rfl⟩
  · rcases h with ⟨rfl, -⟩ | ⟨rfl, -⟩ <;> exact Or.inl rfl
  · subst h
    exact Or.inl rfl

/-- The objects after an operation. -/
theorem Changes.results {o : BatchOp} {x : BatchSig.Ans o} (h : job.Changes past s o x s') :
    s'.results = s.results ∨ ∃ key data, o = .writeToBlobStore job.bucketURL key data ∧
      s' = s.write key data := by
  unfold Changes at h
  split at h
  · subst h
    exact Or.inl rfl
  · subst h
    exact Or.inl rfl
  · rcases h with ⟨rfl, -⟩ | ⟨rfl, rfl⟩
    exacts [Or.inl rfl, Or.inr ⟨_, _, rfl, rfl⟩]
  · subst h
    exact Or.inl rfl

/-- The key of a shard is not that of the metadata. -/
theorem shardKey_ne_metadataKey (j : Nat) : job.shardKey j ≠ job.metadataKey := by
  intro h
  have hname := congrArg parseBlobFilename h
  rw [parse_shardKey, parse_metadataKey] at hname
  have hprefix := hasPrefix_shardName (Int32.ofNat j)
  rw [(Prod.mk.inj (Except.ok.inj hname)).2] at hprefix
  exact absurd hprefix (by decide)

/-- The key of a shard is not that of a transfer's marker. -/
theorem shardKey_ne_transferKey (j : Nat) : job.shardKey j ≠ job.transferKey := by
  intro h
  have hname := congrArg parseBlobFilename h
  rw [parse_shardKey, parse_transferKey] at hname
  have hprefix := hasPrefix_shardName (Int32.ofNat j)
  rw [(Prod.mk.inj (Except.ok.inj hname)).2] at hprefix
  exact absurd hprefix (by decide)

variable {c c' : Config (JobState × Trace BatchSig) job.start}

/-- **One operation** of a thread keeps the contents. -/
theorem Contents.perform (hk : job.numShards < 2 ^ 31)
    (hapi : job.worker.apiBucketURL ≠ job.bucketURL)
    (hraw : job.worker.rawBucketURL ≠ job.bucketURL) (h : job.Contents c)
    (hf : ∀ i, job.Facts c.shared.1 (c.thread i).trace) (i : Option Nat) {o : BatchOp}
    {k : BatchSig.Ans o → Prog BatchSig (Except (Stop CronError) Unit)}
    (hrest : (c.thread i).rest = .op o k) (x : BatchSig.Ans o) {s' : JobState}
    (hchanges : job.Changes (c.thread i).trace c.shared.1 o x s') :
    job.Contents ⟨(s', c.shared.2 ++ [⟨o, x⟩]),
      Function.update c.thread i ((c.thread i).advance hrest x)⟩ where
  logged j := by
    by_cases hj : j = i
    · subst hj
      simpa using List.Subset.trans (h.logged j) (List.subset_append_left _ _)
    · simpa [hj] using List.Subset.trans (h.logged j) (List.subset_append_left _ _)
  published body hbody := by
    rcases hchanges.published with hsame | ⟨body', rfl, hnew⟩
    · exact h.published body (hsame ▸ hbody)
    · rcases List.mem_append.mp (hnew ▸ hbody) with hold | hnew
      · exact h.published body hold
      · obtain rfl := List.mem_singleton.mp hnew
        cases i with
        | none =>
          have hallows := (c.thread none).allows
            (job.controller.ensures_announced job.repos) hrest
          exact ⟨_, hallows⟩
        | some i =>
          have hallows := (c.thread (some i)).allows
            (ensures_workerRun job.worker (job.turns i)) hrest
          exact hallows.elim
  blocks j hj data hdata := by
    have hlog : c.shared.2 ⊆ c.shared.2 ++ [⟨o, x⟩] := List.subset_append_left _ _
    rcases hchanges.results with hsame | ⟨key, data', rfl, rfl⟩
    · exact (h.blocks j hj data (hsame ▸ hdata)).mono hlog
    · rcases JobState.lookup_write hdata with ⟨rfl, rfl⟩ | hold
      · cases i with
        | none =>
          have hallows := (c.thread none).allows
            (job.controller.ensures_controllerRun job.repos) hrest
          exact absurd hallows.2.1 (shardKey_ne_metadataKey j)
        | some i =>
          have hallows := (c.thread (some i)).allows
            (ensures_workerRuns job.worker (job.turns i)) hrest
          rw [Monitor.after_history] at hallows
          exact ((block_of_inProcess hk hapi hraw (hf _) h.published hj hallows).mono
            (h.logged _)).mono hlog
      · exact (h.blocks j hj data hold).mono hlog

theorem contents_reachable (hk : job.numShards < 2 ^ 31)
    (hapi : job.worker.apiBucketURL ≠ job.bucketURL)
    (hraw : job.worker.rawBucketURL ≠ job.bucketURL) (hb : ∀ key ∈ b, ¬OfSecond job.second key)
    (h : job.recorded.Reachable (.initial b, []) c) : job.Contents c := by
  induction h with
  | refl =>
    refine ⟨fun _ => List.nil_subset _, fun _ hbody => absurd hbody List.not_mem_nil, ?_⟩
    intro j hj data hdata
    exact absurd ⟨_, parse_shardKey j⟩
      (hb _ (AList.lookup_isSome.mp (Option.isSome_of_mem hdata)))
  | @tail c c' hreach hstep ih =>
    have hinv := invariant_of_reachable hapi hb (World.Reachable.of_observe hreach)
    rcases hstep with @⟨i, o, k, hrest, x, ⟨s', log'⟩, ⟨-, hchanges⟩, hlog⟩ | ⟨i, -⟩ |
      ⟨⟨s', log'⟩, ⟨key, data, hs', -, hkey⟩, hlog⟩
    · dsimp only at hlog
      subst hlog
      exact ih.perform hk hapi hraw hinv.facts i hrest x hchanges
    · refine ⟨fun j => ?_, ih.published, ih.blocks⟩
      by_cases hj : j = i
      · subst hj
        simp
      · simpa [hj] using ih.logged j
    · dsimp only at hs' hlog
      subst hs' hlog
      refine ⟨ih.logged, ih.published, fun j hj data' hdata => ?_⟩
      rcases JobState.lookup_write hdata with ⟨rfl, -⟩ | hold
      · rcases hkey with hkey | hother
        · exact absurd hkey (shardKey_ne_transferKey j)
        · exact absurd ⟨_, parse_shardKey j⟩ hother
      · exact ih.blocks j hj data' hold

/-- Shards that follow each other. -/
theorem HandledIn.append {repos repos' : List Repo} {done done' : List RepoRun}
    (h : job.HandledIn log repos done) (h' : job.HandledIn log repos' done') :
    job.HandledIn log (repos ++ repos') (done ++ done') where
  handled := List.rel_append h.handled h'.handled
  logged d hd := (List.mem_append.mp hd).elim (h.logged d) (h'.logged d)

theorem resultsShard_append (done done' : List RepoRun) :
    resultsShard (done ++ done') = resultsShard done ++ resultsShard done' := by
  simp [resultsShard]

/-- The first `n` shards together. -/
theorem Contents.exists_shards (h : job.Contents c)
    (hall : ∀ j < job.numShards, job.shardKey j ∈ c.shared.1.results) :
    (n : Nat) → n ≤ job.numShards → ∃ shards done,
      (List.range n).map (fun j => c.shared.1.results.lookup (job.shardKey j)) = shards.map some ∧
        job.HandledIn c.shared.2 ((List.range n).flatMap job.block) done ∧
        String.join shards = resultsShard done
  | 0, _ => ⟨[], [], rfl, ⟨.nil, fun _ hd => absurd hd List.not_mem_nil⟩, rfl⟩
  | n + 1, hn => by
    obtain ⟨shards, done, hlookup, hdone, hjoin⟩ := h.exists_shards hall n (Nat.le_of_succ_le hn)
    obtain ⟨data, hdata⟩ := Bucket.exists_lookup (hall n hn)
    obtain ⟨-, done', hdone', rfl⟩ := h.blocks n hn data hdata
    refine ⟨shards ++ [resultsShard done'], done ++ done', ?_, ?_, ?_⟩
    · rw [List.range_succ, List.map_append, List.map_append, hlookup, List.map_singleton, hdata,
        List.map_singleton]
    · rw [List.range_succ, List.flatMap_append, List.flatMap_singleton]
      exact hdone.append hdone'
    · rw [resultsShard_append, ← hjoin]
      simp

/-- **All shards together** are the records of the inventory. -/
theorem Contents.exists_inventory (h : job.Contents c)
    (hall : ∀ j < job.numShards, job.shardKey j ∈ c.shared.1.results) :
    ∃ rows shards done, job.repos = List.map .ok rows ∧
      (List.range job.numShards).map (fun j => c.shared.1.results.lookup (job.shardKey j)) =
        shards.map some ∧
      job.HandledIn c.shared.2 (rows.map Controller.toRepo) done ∧
      String.join shards = resultsShard done := by
  obtain ⟨shards, done, hlookup, hdone, hjoin⟩ := h.exists_shards hall _ le_rfl
  have hvalid : job.repos = List.map .ok (Controller.validRows job.repos) := by
    rcases Nat.eq_zero_or_pos job.numShards with hzero | hpos
    · refine Controller.eq_map_validRows (Nat.le_of_not_lt fun hlt => ?_)
      have hsome : 0 < job.numShards :=
        Controller.lt_numShards (p := job.repos.length) (by omega) (by simp)
      omega
    · obtain ⟨data, hdata⟩ := Bucket.exists_lookup (hall (job.numShards - 1) (by omega))
      rcases (h.blocks _ (by omega) data hdata).1 with hfull | hvalid
      · refine Controller.eq_map_validRows (le_trans ?_ hfull)
        rw [Nat.sub_add_cancel hpos]
        exact job.controller.length_le_numShards _
      · exact hvalid
  refine ⟨_, shards, done, hvalid, hlookup, ?_, hjoin⟩
  have hshards : job.numShards =
      job.controller.numShards (Controller.validRows job.repos).length := by
    have hlen := congrArg List.length hvalid
    rw [List.length_map] at hlen
    rw [Job.numShards, hlen]
  have hblocks : (List.range job.numShards).flatMap job.block =
      (Controller.validRows job.repos).map Controller.toRepo := by
    calc (List.range job.numShards).flatMap job.block
        = ((List.range (job.controller.numShards (Controller.validRows job.repos).length)).flatMap
            (job.controller.shardRows (Controller.validRows job.repos))).map
              Controller.toRepo := by
          rw [List.map_flatMap, hshards]
          rfl
      _ = (Controller.validRows job.repos).map Controller.toRepo := by
          rw [Controller.flatMap_shardRows]
  rwa [hblocks] at hdone

end Job

/-- **The contents of a job.** In every state that is reached, the shard `j` is the concatenation of
the records of the block `j` of the inventory, each of whose repositories has been handled. Once all
messages are acknowledged, all rows of the inventory are valid and the shards together are the
records of all its repositories, in order. -/
theorem job_contents (job : Job) (hk : job.numShards < 2 ^ 31)
    (hapi : job.worker.apiBucketURL ≠ job.bucketURL)
    (hraw : job.worker.rawBucketURL ≠ job.bucketURL) (b : Bucket)
    (hb : ∀ key ∈ b, ¬OfSecond job.second key)
    (c : Config (JobState × Trace BatchSig) job.start)
    (h : job.recorded.Reachable (.initial b, []) c) :
    (∀ j < job.numShards, ∀ data, c.shared.1.results.lookup (job.shardKey j) = some data →
      ∃ done, job.HandledIn c.shared.2 (job.block j) done ∧ data = resultsShard done) ∧
    ((∀ j < job.numShards, ∃ req ∈ c.shared.1.acked, job.IsMessage j req) →
      ∃ rows shards done, job.repos = List.map .ok rows ∧
        (List.range job.numShards).map (fun j => c.shared.1.results.lookup (job.shardKey j)) =
          shards.map some ∧
        job.HandledIn c.shared.2 (rows.map Controller.toRepo) done ∧
        String.join shards = resultsShard done) := by
  have hcontents := Job.contents_reachable hk hapi hraw hb h
  have hsound := (Job.invariant_of_reachable hapi hb (World.Reachable.of_observe h)).sound
  refine ⟨fun j hj data hdata => (hcontents.blocks j hj data hdata).2, fun hacked => ?_⟩
  have hall : ∀ j < job.numShards, job.shardKey j ∈ c.shared.1.results := by
    intro j hj
    obtain ⟨req, hreq, hmessage⟩ := hacked j hj
    rw [← hmessage.resultFilename_eq]
    exact hsound.acked req hreq
  exact hcontents.exists_inventory hall

theorem sampleJobEnd_shards :
    sampleJobEnd.shared.results.lookup (sampleJob.shardKey 0) = some "github.com/org/one" ∧
      sampleJobEnd.shared.results.lookup (sampleJob.shardKey 1) = some "github.com/org/two" := by
  decide +kernel

/-- The sample job has two shards. The repository that is not valid has no record. -/
theorem sampleJobEnd_contents :
    ∃ (c : Config (JobState × Trace BatchSig) sampleJob.start) (done : List RepoRun),
      c.shared.1.results.lookup (sampleJob.shardKey 0) = some "github.com/org/one" ∧
      c.shared.1.results.lookup (sampleJob.shardKey 1) = some "github.com/org/two" ∧
      sampleJob.HandledIn c.shared.2 (sampleJobRows.map Controller.toRepo) done ∧
      resultsShard done = "github.com/org/onegithub.com/org/two" := by
  obtain ⟨log, h⟩ := Job.exists_recorded sampleJobEnd_reachable []
  obtain ⟨-, hcontents⟩ := job_contents sampleJob (by decide) (by decide) (by decide) ∅
    (fun _ h => absurd h (AList.notMem_empty _)) _ h
  obtain ⟨rows, shards, done, hrows, hlookup, hdone, hjoin⟩ := hcontents sampleJobEnd_allAcked
  obtain rfl : sampleJobRows = rows :=
    List.map_injective_iff.mpr (fun _ _ => Except.ok.inj) hrows
  obtain ⟨hone, htwo⟩ := sampleJobEnd_shards
  have hshards : shards.map some = ["github.com/org/one", "github.com/org/two"].map some :=
    hlookup.symm.trans (congrArg₂ (fun x y => [x, y]) hone htwo)
  refine ⟨_, done, hone, htwo, hdone, ?_⟩
  rw [← hjoin, List.map_injective_iff.mpr (fun _ _ => Option.some.inj) hshards]
  decide

end ScorecardInfra.Cron
