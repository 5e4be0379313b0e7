import ScorecardInfra.Cron.ShardKeys
import ScorecardInfra.Cron.Transfer

/-!
# Completion notices over repeated runs

The transfer job runs again and again: each run reads the summary of the bucket and transfers the
jobs that are completed and have no marker. Any operation of a run may fail, and a write that
reports an error may have stored its object all the same.

The marker is written before the webhook is called. If every call is accepted and no failed write
has stored a marker, then every job that carries a marker of these runs has had its shards loaded
and its metadata accepted (`noticesKept_of_attended`). A call that fails is not repeated
(`not_noticesKept`).

## Main definitions

* `Reading`, `TransferRun`, `Runs`, `NoticesKept`, `Attended`.

## Main results

* `exec_transfer_written`, `noticesKept_of_attended`.

Sources: `cron/internal/bq/main.go`, lines 31–66; `cron/data/summary.go`, lines 46–134.
-/

namespace ScorecardInfra.Cron

open GoStd Interaction

/-! ### Runs -/

/-- What a run of the transfer reads, and the order of its range. -/
structure Reading where
  keys : Except String (List String)
  content : String → Except String String
  order : (summary : BucketSummary) → GoMap.Order summary.entries.length

/-- It reads what is in the bucket, or fails to read it. -/
structure Reading.Of (reading : Reading) (b : Bucket) : Prop where
  keys : ∀ keys, reading.keys = .ok keys → ∀ key, key ∈ keys ↔ key ∈ b
  content : ∀ key data, reading.content key = .ok data → b.lookup key = some data

/-- `GetBucketSummary` followed by `transferDataToBq`. -/
def TransferConfig.transferSummary (cfg : TransferConfig) (codec : MetadataCodec)
    (reading : Reading) : Transfer Unit := do
  let summary ← Interaction.ofExcept (getBucketSummary codec reading.content reading.keys)
  cfg.transferDataToBq (summary.shards (reading.order summary))

/-- A run of the transfer: what it reads, what it performs and its end. -/
structure TransferRun where
  reading : Reading
  trace : Trace TransferSig
  result : Except (Stop CronError) Unit

/-- What an operation does to the bucket. A write that reports an error may have stored its object.
-/
def BucketStep (b : Bucket) (e : Event TransferSig) (b' : Bucket) : Prop :=
  match e with
  | ⟨.writeToBlobStore _ key data, .ok _⟩ => b' = b.insert key data
  | ⟨.writeToBlobStore _ key data, .error _⟩ => b' = b ∨ b' = b.insert key data
  | _ => b' = b

/-- The bucket through a run whose steps satisfy `C`. -/
inductive Evolves (C : Bucket → Event TransferSig → Bucket → Prop) :
    Bucket → Trace TransferSig → Bucket → Prop
  | nil (b : Bucket) : Evolves C b [] b
  | cons {b b₁ b' : Bucket} {e : Event TransferSig} {t : Trace TransferSig}
      (hstep : BucketStep b e b₁) (hC : C b e b₁) (h : Evolves C b₁ t b') : Evolves C b (e :: t) b'

/-- Runs one after the other whose steps satisfy `C`, from the bucket `b₀` on. -/
inductive Runs (cfg : TransferConfig) (codec : MetadataCodec)
    (C : Bucket → Event TransferSig → Bucket → Prop) (b₀ : Bucket) :
    List TransferRun → Bucket → Prop
  | nil : Runs cfg codec C b₀ [] b₀
  | snoc {runs : List TransferRun} {run : TransferRun} {b b' : Bucket}
      (h : Runs cfg codec C b₀ runs b) (hreads : run.reading.Of b)
      (hrun : Exec (cfg.transferSummary codec run.reading).run run.trace (some run.result))
      (hbucket : Evolves C b run.trace b') : Runs cfg codec C b₀ (runs ++ [run]) b'

/-- A load of the shards of the job at `t` has ended well. -/
def Loaded (cfg : TransferConfig) (runs : List TransferRun) (t : Time) : Prop :=
  ∃ run ∈ runs, ∃ id, ⟨.waitJob ⟨id, cfg.loader t⟩, .ok none⟩ ∈ run.trace

/-- The webhook has accepted the metadata of the job at `t`. -/
def Accepted (cfg : TransferConfig) (runs : List TransferRun) (b : Bucket) (t : Time) : Prop :=
  ∃ data, b.lookup (getShardMetadataFilename t) = some data ∧ ∃ run ∈ runs, ∃ resp,
    ⟨.post cfg.webhookURL "application/json" data, .ok resp⟩ ∈ run.trace ∧ resp.isOK

/-- **What is claimed of runs** from `b₀` to `b`: if the last one returns without error, every job
with a marker that these runs have written has been loaded and its metadata accepted. -/
def NoticesKept (cfg : TransferConfig) (b₀ : Bucket) (runs : List TransferRun) (b : Bucket) :
    Prop :=
  ∀ run, runs.getLast? = some run → run.result = .ok () →
    ∀ t, getTransferStatusFilename t ∈ b → getTransferStatusFilename t ∉ b₀ →
      Loaded cfg runs t ∧ Accepted cfg runs b t

/-- A call of the webhook is accepted, and a write that reports an error has stored nothing. -/
def Attended (b : Bucket) (e : Event TransferSig) (b' : Bucket) : Prop :=
  match e with
  | ⟨.writeToBlobStore _ _ _, .error _⟩ => b' = b
  | ⟨.post _ _ _, x⟩ => ∃ resp, x = .ok resp ∧ resp.isOK
  | _ => True

/-! ### What runs write -/

/-- Only markers of transfers are written. -/
def WritesMarkers : TransferOp → Prop
  | .writeToBlobStore _ key _ => ∃ t, key = getTransferStatusFilename t
  | _ => True

section Written

variable {cfg : TransferConfig} {t : Trace TransferSig} {r : Except (Stop CronError) Unit}

theorem performs_performTransfer {P : TransferOp → Prop} {o : TransferOp} (h : P o) :
    (performTransfer o).run.Performs P :=
  ⟨h, fun _ => trivial⟩

theorem performs_transferGroup (s : ShardSummary) :
    (cfg.transferGroup s).run.Performs WritesMarkers := by
  refine performs_run_bind (performs_annotate ?_) fun _ =>
    performs_run_bind (performs_annotate ?_) fun _ => ?_
  · refine performs_run_bind (performs_annotate ?_) fun loader =>
      performs_run_bind (performs_performTransfer trivial) fun job =>
      performs_run_bind trivial fun id =>
      performs_run_bind (performs_performTransfer trivial) fun status =>
      performs_run_bind trivial fun _ => trivial
    exact performs_run_bind (performs_performTransfer trivial) fun client =>
      performs_run_bind trivial fun _ => trivial
  · exact performs_run_bind (performs_performTransfer ⟨_, rfl⟩) fun _ => trivial
  · unfold TransferConfig.callWebhook
    split_ifs
    · trivial
    · exact performs_run_bind (performs_performTransfer trivial) fun _ =>
        performs_run_bind trivial fun _ => performs_run_bind trivial fun _ => trivial

theorem performs_transferDataToBq (shards : List ShardSummary) :
    (cfg.transferDataToBq shards).run.Performs WritesMarkers := by
  induction shards with
  | nil => trivial
  | cons s shards ih =>
    rw [TransferConfig.transferDataToBq]
    split_ifs
    · exact performs_run_bind (performs_transferGroup s) fun _ => ih
    · exact ih

/-- A job's marker is written after its load and before its call. -/
theorem exec_transferGroup_written {s : ShardSummary} (hurl : cfg.webhookURL ≠ "")
    (h : Exec (cfg.transferGroup s).run t (some r)) {url key data : String}
    (he : ⟨.writeToBlobStore url key data, .ok ()⟩ ∈ t) :
    key = getTransferStatusFilename s.creationTime ∧
      (∃ id, ⟨.waitJob ⟨id, cfg.loader s.creationTime⟩, .ok none⟩ ∈ t) ∧
      ∃ x, ⟨.post cfg.webhookURL "application/json" s.shardMetadata, x⟩ ∈ t := by
  rcases TransferConfig.exec_transferGroup h with
    ⟨-, hload⟩ | ⟨id, x, u, rfl, ⟨⟨e, rfl⟩, rfl, -⟩ | ⟨rfl, hu⟩⟩
  · exact absurd (hload _ he) not_false
  · simp [TransferConfig.loadTrace] at he
  · rcases TransferConfig.exec_callWebhook hu with ⟨hempty, -⟩ | ⟨x, rfl, -⟩
    · exact absurd hempty hurl
    · simp only [TransferConfig.loadTrace] at he ⊢
      have hkey : url = cfg.bucketURL ∧ key = getTransferStatusFilename s.creationTime ∧
          data = "" := by
        simpa using he
      exact ⟨hkey.2.1, ⟨id, by simp⟩, x, by simp⟩

/-- **Markers.** A marker that is written is that of a job that is transferred, after its load and
before its call. -/
theorem exec_transfer_written {shards : List ShardSummary} (hurl : cfg.webhookURL ≠ "")
    (h : Exec (cfg.transferDataToBq shards).run t (some r)) {url key data : String}
    (he : ⟨.writeToBlobStore url key data, .ok ()⟩ ∈ t) :
    ∃ s ∈ shards, cfg.eligible s = true ∧ key = getTransferStatusFilename s.creationTime ∧
      (∃ id, ⟨.waitJob ⟨id, cfg.loader s.creationTime⟩, .ok none⟩ ∈ t) ∧
      ∃ x, ⟨.post cfg.webhookURL "application/json" s.shardMetadata, x⟩ ∈ t := by
  induction shards generalizing t with
  | nil =>
    obtain ⟨rfl, -⟩ := exec_ret_some.mp h
    exact absurd he List.not_mem_nil
  | cons s shards ih =>
    rw [TransferConfig.transferDataToBq] at h
    split_ifs at h with hs
    · rcases exec_run_bind_some h with ⟨stop, rfl, h₁⟩ | ⟨t₁, _, t₂, rfl, h₁, h₂⟩
      · exact ⟨s, List.mem_cons_self, hs, exec_transferGroup_written hurl h₁ he⟩
      rcases List.mem_append.mp he with he | he
      · obtain ⟨hkey, ⟨id, hload⟩, x, hpost⟩ := exec_transferGroup_written hurl h₁ he
        exact ⟨s, List.mem_cons_self, hs, hkey, ⟨id, List.mem_append_left _ hload⟩, x,
          List.mem_append_left _ hpost⟩
      · obtain ⟨s', hmem, hs', hkey, ⟨id, hload⟩, x, hpost⟩ := ih h₂ he
        exact ⟨s', List.mem_cons_of_mem _ hmem, hs', hkey, ⟨id, List.mem_append_right _ hload⟩, x,
          List.mem_append_right _ hpost⟩
    · obtain ⟨s', hmem, hs'⟩ := ih h he
      exact ⟨s', List.mem_cons_of_mem _ hmem, hs'⟩

/-- The key of metadata is no key of a marker. -/
theorem metadata_ne_transferStatus (t u : Time) :
    getShardMetadataFilename t ≠ getTransferStatusFilename u := fun h =>
  absurd (getBlobFilename_inj h).2 (by decide)

/-- A step that writes markers only leaves the other objects as they are. -/
theorem BucketStep.lookup_eq {b b' : Bucket} {e : Event TransferSig} (h : BucketStep b e b')
    (he : WritesMarkers e.op) {key : String} (hkey : ∀ t, key ≠ getTransferStatusFilename t) :
    b'.lookup key = b.lookup key := by
  have hinsert : ∀ {key' data : String}, (∃ t, key' = getTransferStatusFilename t) →
      (b.insert key' data).lookup key = b.lookup key := by
    rintro _ _ ⟨t, rfl⟩
    exact AList.lookup_insert_ne (hkey t)
  obtain ⟨o, x⟩ := e
  cases o with
  | writeToBlobStore url key' data =>
    cases x with
    | error _ =>
      rcases h with rfl | rfl
      exacts [rfl, hinsert he]
    | ok _ =>
      obtain rfl := h
      exact hinsert he
  | newClient | runLoader | waitJob | post =>
    obtain rfl := h
    rfl

theorem Evolves.lookup_eq {C : Bucket → Event TransferSig → Bucket → Prop} {b b' : Bucket}
    (h : Evolves C b t b') (ht : ∀ e ∈ t, WritesMarkers e.op) {key : String}
    (hkey : ∀ t, key ≠ getTransferStatusFilename t) : b'.lookup key = b.lookup key := by
  induction h with
  | nil => rfl
  | cons hstep _ _ ih =>
    obtain ⟨he, ht⟩ := List.forall_mem_cons.mp ht
    rw [ih ht, hstep.lookup_eq he hkey]

/-- An object that is new has been written without an error, if failed writes store nothing. -/
theorem Evolves.exists_written {b b' : Bucket} (h : Evolves Attended b t b') {key : String}
    (hmem : key ∈ b') (hnew : key ∉ b) :
    ∃ url data, ⟨.writeToBlobStore url key data, .ok ()⟩ ∈ t := by
  induction h with
  | nil => exact absurd hmem hnew
  | @cons b b₁ b' e t hstep hC _ ih =>
    by_cases h₁ : key ∈ b₁
    swap
    · obtain ⟨url, data, he⟩ := ih hmem h₁
      exact ⟨url, data, List.mem_cons_of_mem _ he⟩
    obtain ⟨o, x⟩ := e
    cases o with
    | writeToBlobStore url key' data =>
      cases x with
      | error _ =>
        obtain rfl : b₁ = b := hC
        exact absurd h₁ hnew
      | ok _ =>
        obtain rfl := hstep
        rcases (AList.mem_insert b).mp h₁ with rfl | h₁
        · exact ⟨url, data, List.mem_cons_self⟩
        · exact absurd h₁ hnew
    | newClient | runLoader | waitJob | post =>
      obtain rfl := hstep
      exact absurd h₁ hnew

/-- The calls of a run are accepted. -/
theorem Evolves.accepted {b b' : Bucket} (h : Evolves Attended b t b') {url type body : String}
    {x : Except String WebhookResponse} (he : ⟨.post url type body, x⟩ ∈ t) :
    ∃ resp, x = .ok resp ∧ resp.isOK := by
  induction h with
  | nil => exact absurd he List.not_mem_nil
  | cons _ hC _ ih =>
    rcases List.mem_cons.mp he with rfl | he
    exacts [hC, ih he]

end Written

/-! ### Notices -/

section Notices

variable {cfg : TransferConfig} {codec : MetadataCodec}

/-- The objects of a load depend on the second only. -/
theorem loader_congr {t u : Time} (h : t.truncate = u.truncate) : cfg.loader t = cfg.loader u := by
  have hformat : partitionDate t.truncate = partitionDate t := rfl
  have hformat' : partitionDate u.truncate = partitionDate u := rfl
  rw [TransferConfig.loader, TransferConfig.loader, getBlobFilename_congr h,
    TransferConfig.partitionedTable, TransferConfig.partitionedTable, ← hformat, ← hformat', h]

/-- The operations of a run. -/
theorem writesMarkers_of_exec {run : TransferRun}
    (hrun : Exec (cfg.transferSummary codec run.reading).run run.trace (some run.result)) :
    ∀ e ∈ run.trace, WritesMarkers e.op :=
  hrun.mem_performs (performs_run_bind trivial fun _ => performs_transferDataToBq _)

/-- **One run.** A marker that is new is that of a job that this run has loaded and whose metadata
the webhook has accepted. -/
theorem settled_of_new {run : TransferRun} {b b' : Bucket} (hurl : cfg.webhookURL ≠ "")
    (hreads : run.reading.Of b)
    (hrun : Exec (cfg.transferSummary codec run.reading).run run.trace (some run.result))
    (hbucket : Evolves Attended b run.trace b') {t : Time}
    (hmem : getTransferStatusFilename t ∈ b') (hnew : getTransferStatusFilename t ∉ b) :
    Loaded cfg [run] t ∧ Accepted cfg [run] b' t := by
  obtain ⟨url, data, he⟩ := hbucket.exists_written hmem hnew
  rcases exec_ofExcept_bind hrun with ⟨e, -, htrace, -⟩ | ⟨summary, hsummary, hrun'⟩
  · rw [htrace] at he
    exact absurd he List.not_mem_nil
  obtain ⟨s, hs, heligible, hkey, ⟨id, hload⟩, x, hpost⟩ := exec_transfer_written hurl hrun' he
  have hsecond := (getBlobFilename_inj hkey).1
  obtain ⟨resp, rfl, hok⟩ := hbucket.accepted hpost
  obtain ⟨e, hentry, rfl⟩ := List.mem_map.mp hs
  obtain ⟨u, s⟩ := e
  have hlookup : summary.lookup u = some s := AList.mem_lookup_iff.mpr (GoMap.mem_visit.mp hentry)
  have hcreate : summary.getOrCreate u = s := by
    rw [BucketSummary.getOrCreate, hlookup, Option.getD_some]
  obtain ⟨keys, hkeys⟩ : ∃ keys, run.reading.keys = .ok keys := by
    cases hkeys : run.reading.keys with
    | error e =>
      rw [hkeys] at hsummary
      cases hsummary
    | ok keys => exact ⟨keys, rfl⟩
  rw [hkeys] at hsummary
  -- the metadata that is posted is that of the bucket
  have htime : s.creationTime = u := hcreate ▸ creationTime_eq hsummary u
  have hexpected : s.shardsExpected ≠ 0 := by
    simp only [TransferConfig.eligible, ShardSummary.isCompleted, Bool.and_eq_true,
      decide_eq_true_eq] at heligible
    omega
  have hcontent : run.reading.content (getShardMetadataFilename u) = .ok s.shardMetadata := by
    subst hcreate
    exact shardMetadata_of_expected hsummary hexpected
  have hdata : b'.lookup (getShardMetadataFilename t) = some s.shardMetadata := by
    rw [hbucket.lookup_eq (writesMarkers_of_exec hrun) (metadata_ne_transferStatus t),
      getShardMetadataFilename,
      getBlobFilename_congr (hsecond.trans (congrArg Time.truncate htime))]
    exact hreads.content _ _ hcontent
  rw [← loader_congr hsecond] at hload
  exact ⟨⟨run, List.mem_singleton_self _, id, hload⟩, s.shardMetadata, hdata, run,
    List.mem_singleton_self _, resp, hpost, hok⟩

theorem Loaded.mono {runs runs' : List TransferRun} {t : Time} (h : Loaded cfg runs t)
    (hsub : runs ⊆ runs') : Loaded cfg runs' t :=
  h.imp fun _ h => ⟨hsub h.1, h.2⟩

theorem Accepted.mono {runs runs' : List TransferRun} {b b' : Bucket} {t : Time}
    (h : Accepted cfg runs b t) (hsub : runs ⊆ runs')
    (hdata : b'.lookup (getShardMetadataFilename t) = b.lookup (getShardMetadataFilename t)) :
    Accepted cfg runs' b' t := by
  obtain ⟨data, hlookup, run, hrun, hpost⟩ := h
  exact ⟨data, hdata.trans hlookup, run, hsub hrun, hpost⟩

/-- The invariant of the runs. -/
theorem Runs.settled {b₀ b : Bucket} {runs : List TransferRun} (hurl : cfg.webhookURL ≠ "")
    (h : Runs cfg codec Attended b₀ runs b) {t : Time} (hmem : getTransferStatusFilename t ∈ b)
    (hnew : getTransferStatusFilename t ∉ b₀) : Loaded cfg runs t ∧ Accepted cfg runs b t := by
  induction h with
  | nil => exact absurd hmem hnew
  | @snoc runs run b b' _ hreads hrun hbucket ih =>
    by_cases hb : getTransferStatusFilename t ∈ b
    · obtain ⟨hload, haccept⟩ := ih hb
      have hdata := hbucket.lookup_eq (writesMarkers_of_exec hrun) (metadata_ne_transferStatus t)
      exact ⟨hload.mono (List.subset_append_left _ _),
        haccept.mono (List.subset_append_left _ _) hdata⟩
    · obtain ⟨hload, haccept⟩ := settled_of_new hurl hreads hrun hbucket hmem hb
      exact ⟨hload.mono (List.subset_append_right _ _),
        haccept.mono (List.subset_append_right _ _) rfl⟩

/-- **Completion notices.** In every sequence of runs where every call of the webhook is accepted
and failed writes store nothing, whatever else fails, a job with a marker of these runs has been
loaded and its metadata accepted whenever a run returns without error. -/
theorem noticesKept_of_attended {b₀ b : Bucket} {runs : List TransferRun}
    (hurl : cfg.webhookURL ≠ "") (h : Runs cfg codec Attended b₀ runs b) :
    NoticesKept cfg b₀ runs b :=
  fun _ _ _ _ hmem hnew => h.settled hurl hmem hnew

end Notices

/-! ### A webhook that cannot be reached -/

/-- A transfer with a webhook. -/
def webhookTransfer : TransferConfig := { sampleTransfer with webhookURL := "http://webhook" }

/-- The keys of a job with one shard. -/
def shardKey : String := getBlobFilename (shardName 0) epoch

/-- A bucket with a job of one shard. -/
def oneShardBucket : Bucket where
  entries := [⟨shardKey, ""⟩, ⟨getShardMetadataFilename epoch, "\x7b\"numShard\":1\x7d"⟩]
  nodupKeys := by
    have hne : shardKey ≠ getShardMetadataFilename epoch :=
      fun h => absurd (getBlobFilename_inj h).2 (by decide)
    simp [List.NodupKeys, List.keys, hne]

/-- A summary is given by its entries. -/
theorem eq_ok_of_entries {x : Except CronError BucketSummary} {l : List (Σ _ : Time, ShardSummary)}
    (h : x.map AList.entries = .ok l) (hl : l.NodupKeys) : x = .ok ⟨l, hl⟩ := by
  cases x with
  | error e => cases h
  | ok summary => exact congrArg Except.ok (AList.ext (Except.ok.inj h))

/-- The job is completed and not transferred. -/
theorem summary_oneShard : getBucketSummary oneShardCodec oneShardBucket.blobContent
    (.ok [shardKey, getShardMetadataFilename epoch]) =
      .ok ⟨[⟨epoch, completedShards epoch⟩], by simp⟩ :=
  eq_ok_of_entries (by decide +kernel) _

/-- The bucket after the transfer has been marked. -/
def markedBucket : Bucket := oneShardBucket.insert (getTransferStatusFilename epoch) ""

/-- What a run reads in a bucket whose keys are listed. -/
def readingOf (b : Bucket) (keys : List String) : Reading where
  keys := .ok keys
  content := b.blobContent
  order _ := GoMap.Order.listed _

theorem readingOf_oneShard :
    (readingOf oneShardBucket [shardKey, getShardMetadataFilename epoch]).Of oneShardBucket where
  keys keys h key := by
    obtain rfl := Except.ok.inj h
    rfl
  content _ _ h := Bucket.blobContent_eq_ok.mp h

theorem readingOf_marked :
    (readingOf markedBucket [shardKey, getShardMetadataFilename epoch,
      getTransferStatusFilename epoch]).Of markedBucket where
  keys keys h key := by
    obtain rfl := Except.ok.inj h
    rw [markedBucket, AList.mem_insert]
    change key ∈ [_, _, _] ↔ _ ∨ key ∈ [_, _]
    simp only [List.mem_cons, List.not_mem_nil, or_false]
    tauto
  content _ _ h := Bucket.blobContent_eq_ok.mp h

/-- A run that transfers the job, where the webhook answers `x`. -/
def transferRun (x : Except String WebhookResponse) (result : Except (Stop CronError) Unit) :
    TransferRun where
  reading := readingOf oneShardBucket [shardKey, getShardMetadataFilename epoch]
  trace := webhookTransfer.loadTrace epoch "job" ++
    [⟨.writeToBlobStore "gs://results" (getTransferStatusFilename epoch) "", .ok ()⟩,
      ⟨.post "http://webhook" "application/json" "\x7b\"numShard\":1\x7d", x⟩]
  result := result

/-- A transfer up to the call of the webhook. -/
theorem exec_transferGroup_of {cfg : TransferConfig} {s : ShardSummary} {u : Trace TransferSig}
    {r : Except (Stop CronError) Unit} (id : String)
    (h : Exec (cfg.callWebhook s).run u (some r)) :
    Exec (cfg.transferGroup s).run (cfg.loadTrace s.creationTime id ++ ⟨.writeToBlobStore
      cfg.bucketURL (getTransferStatusFilename s.creationTime) "", .ok ()⟩ :: u) (some r) := by
  have hload : Exec (cfg.startDataTransferJob s.creationTime).run
      (cfg.loadTrace s.creationTime id) (some (.ok ())) :=
    .op _ (.op _ (.op _ (.ret _)))
  have hmark : Exec (cfg.markTransferred s).run [⟨.writeToBlobStore cfg.bucketURL
      (getTransferStatusFilename s.creationTime) "", .ok ()⟩] (some (.ok ())) :=
    .op _ (.ret _)
  exact (exec_annotate_ok.mpr hload).run_bind ((exec_annotate_ok.mpr hmark).run_bind h)

/-- A run over the bucket ends as the transfer of its job. -/
theorem exec_oneShard {t : Trace TransferSig} {r : Except (Stop CronError) Unit}
    (h : Exec (webhookTransfer.transferGroup (completedShards epoch)).run t (some r)) :
    Exec (webhookTransfer.transferSummary oneShardCodec (readingOf oneShardBucket
      [shardKey, getShardMetadataFilename epoch])).run t (some r) := by
  have heligible : webhookTransfer.eligible (completedShards epoch) = true :=
    eligible_completedShards epoch
  have hloop : Exec (webhookTransfer.transferDataToBq [completedShards epoch]).run t (some r) := by
    rw [TransferConfig.transferDataToBq, if_pos heligible]
    cases r with
    | error stop => exact h.run_bind_stop _
    | ok _ =>
      rw [← List.append_nil t]
      exact h.run_bind (.ret _)
  have hsummary : Exec (Interaction.ofExcept (getBucketSummary oneShardCodec
      oneShardBucket.blobContent (.ok [shardKey, getShardMetadataFilename epoch])) :
        Transfer BucketSummary).run [] (some (.ok ⟨[⟨epoch, completedShards epoch⟩], by simp⟩)) :=
    exec_ofExcept_ok.mpr ⟨rfl, summary_oneShard⟩
  exact hsummary.run_bind hloop

/-- The run that transfers the job ends as the call. -/
theorem exec_transferRun {x : Except String WebhookResponse} {r : Except (Stop CronError) Unit}
    (h : Exec (webhookTransfer.callWebhook (completedShards epoch)).run
      [⟨.post "http://webhook" "application/json" "\x7b\"numShard\":1\x7d", x⟩] (some r)) :
    Exec (webhookTransfer.transferSummary oneShardCodec (transferRun x r).reading).run
      (transferRun x r).trace (some (transferRun x r).result) :=
  exec_oneShard (exec_transferGroup_of "job" h)

/-- A run that cannot start the load. -/
def refusedRun : TransferRun where
  reading := readingOf oneShardBucket [shardKey, getShardMetadataFilename epoch]
  trace := [⟨.newClient webhookTransfer.projectID, .ok ()⟩,
    ⟨.runLoader (webhookTransfer.loader epoch), .error "quota exceeded"⟩]
  result := .error (.error (.wrapf "error during StartDataTransferJob"
    (.wrapf "failed to create load job" (.text "quota exceeded"))))

theorem exec_refusedRun : Exec (webhookTransfer.transferSummary oneShardCodec
    refusedRun.reading).run refusedRun.trace (some refusedRun.result) :=
  exec_oneShard (.op _ (.op _ (.ret _)))

/-- A run that loads the job and cannot write its marker. -/
def unmarkedRun : TransferRun where
  reading := readingOf oneShardBucket [shardKey, getShardMetadataFilename epoch]
  trace := webhookTransfer.loadTrace epoch "first" ++ [⟨.writeToBlobStore "gs://results"
    (getTransferStatusFilename epoch) "", .error (.text "unavailable")⟩]
  result := .error (.error (.wrapf "error during MarkTransferred"
    (.wrapf "error during WriteToBlobStore" (.text "unavailable"))))

theorem exec_unmarkedRun : Exec (webhookTransfer.transferSummary oneShardCodec
    unmarkedRun.reading).run unmarkedRun.trace (some unmarkedRun.result) :=
  exec_oneShard (.op _ (.op _ (.op _ (.op _ (.ret _)))))

/-- A job with its one shard and the marker of its transfer. -/
def transferredShards : ShardSummary := { completedShards epoch with isTransferred := true }

/-- The job is transferred. -/
theorem summary_marked : getBucketSummary oneShardCodec markedBucket.blobContent (.ok [shardKey,
    getShardMetadataFilename epoch, getTransferStatusFilename epoch]) =
      .ok ⟨[⟨epoch, transferredShards⟩], by simp⟩ :=
  eq_ok_of_entries (by decide +kernel) _

/-- The run after it, which finds the marker. -/
def idleRun : TransferRun where
  reading := readingOf markedBucket [shardKey, getShardMetadataFilename epoch,
    getTransferStatusFilename epoch]
  trace := []
  result := .ok ()

theorem exec_idleRun : Exec (webhookTransfer.transferSummary oneShardCodec idleRun.reading).run
    idleRun.trace (some idleRun.result) := by
  have hloop : Exec (webhookTransfer.transferDataToBq [transferredShards]).run []
      (some (.ok ())) := by
    have heligible : webhookTransfer.eligible transferredShards = false := rfl
    rw [TransferConfig.transferDataToBq, if_neg (by rw [heligible]; exact Bool.false_ne_true)]
    exact .ret _
  have hsummary : Exec (Interaction.ofExcept (getBucketSummary oneShardCodec
      markedBucket.blobContent (.ok [shardKey, getShardMetadataFilename epoch,
        getTransferStatusFilename epoch])) : Transfer BucketSummary).run []
          (some (.ok ⟨[⟨epoch, transferredShards⟩], by simp⟩)) :=
    exec_ofExcept_ok.mpr ⟨rfl, summary_marked⟩
  exact hsummary.run_bind hloop

/-- After a run that cannot start the load and one that cannot write the marker, the job is
transferred, the webhook accepts its metadata, and the next run finds nothing to do. -/
theorem noticesKept_of_attended_oneShard : NoticesKept webhookTransfer oneShardBucket
    ([] ++ [refusedRun] ++ [unmarkedRun] ++ [transferRun (.ok ⟨200, .ok ""⟩) (.ok ())] ++
      [idleRun]) markedBucket := by
  have hcall : Exec (webhookTransfer.callWebhook (completedShards epoch)).run
      [⟨.post "http://webhook" "application/json" "\x7b\"numShard\":1\x7d", .ok ⟨200, .ok ""⟩⟩]
      (some (.ok ())) := .op _ (.ret _)
  have hrefused : Evolves Attended oneShardBucket refusedRun.trace oneShardBucket :=
    .cons rfl trivial (.cons rfl trivial (.nil _))
  have hunmarked : Evolves Attended oneShardBucket unmarkedRun.trace oneShardBucket :=
    .cons rfl trivial (.cons rfl trivial (.cons rfl trivial (.cons (Or.inl rfl) rfl (.nil _))))
  have hmarked : Evolves Attended oneShardBucket
      (transferRun (.ok ⟨200, .ok ""⟩) (.ok ())).trace markedBucket :=
    .cons rfl trivial (.cons rfl trivial (.cons rfl trivial (.cons rfl trivial
      (.cons rfl ⟨_, rfl, by decide, by decide⟩ (.nil _)))))
  have hurl : webhookTransfer.webhookURL ≠ "" := by decide
  refine noticesKept_of_attended hurl (.snoc (.snoc (.snoc (.snoc .nil ?_ exec_refusedRun hrefused)
    ?_ exec_unmarkedRun hunmarked) ?_ (exec_transferRun hcall) hmarked) ?_ exec_idleRun (.nil _))
  exacts [readingOf_oneShard, readingOf_oneShard, readingOf_oneShard, readingOf_marked]

/-- **A call that fails** after the marker has been written is not repeated: the next run finds the
marker and returns without error. -/
theorem not_noticesKept : ∃ runs b, Runs webhookTransfer oneShardCodec (fun _ _ _ => True)
    oneShardBucket runs b ∧ ¬NoticesKept webhookTransfer oneShardBucket runs b := by
  have hcall : Exec (webhookTransfer.callWebhook (completedShards epoch)).run
      [⟨.post "http://webhook" "application/json" "\x7b\"numShard\":1\x7d", .error "refused"⟩]
      (some (.error (.error (.wrapf "error during http.Post to http://webhook"
        (.text "refused"))))) := .op _ (.ret _)
  have hbucket : ∀ result, Evolves (fun _ _ _ => True) oneShardBucket
      (transferRun (.error "refused") result).trace markedBucket :=
    fun _ => .cons rfl trivial (.cons rfl trivial (.cons rfl trivial (.cons rfl trivial
      (.cons rfl trivial (.nil _)))))
  refine ⟨[] ++ [transferRun (.error "refused") _] ++ [idleRun], markedBucket,
    .snoc (.snoc .nil readingOf_oneShard (exec_transferRun hcall) (hbucket _))
      readingOf_marked exec_idleRun (.nil _), ?_⟩
  intro h
  have hnew : getTransferStatusFilename epoch ∉ oneShardBucket := by
    change getTransferStatusFilename epoch ∉ [shardKey, getShardMetadataFilename epoch]
    have hshard : getTransferStatusFilename epoch ≠ shardKey :=
      fun h => absurd (getBlobFilename_inj h).2 (by decide)
    simp [hshard, (metadata_ne_transferStatus epoch epoch).symm]
  obtain ⟨-, data, -, run, hrun, resp, hpost, -⟩ :=
    h idleRun rfl rfl epoch ((AList.mem_insert _).mpr (Or.inl rfl)) hnew
  -- the only call has not been answered
  rcases List.mem_append.mp hrun with hrun | hrun
  · obtain rfl := List.mem_singleton.mp hrun
    simp [transferRun, TransferConfig.loadTrace] at hpost
  · obtain rfl := List.mem_singleton.mp hrun
    exact absurd hpost List.not_mem_nil

end ScorecardInfra.Cron
