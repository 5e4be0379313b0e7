import Mathlib.Data.Multiset.MapFold
import ScorecardInfra.Cron.JobContents
import ScorecardInfra.Cron.Notices

/-!
# From the inventory to the table

A job whose messages have all been acknowledged is completed: the summary counts as many shards as
it expects, for every threshold up to 1. A run of the transfer in which everything succeeds then
loads its shards, while workers may still write some of them again. If no other job of that day is
transferred in the same run, the partition of the day holds the records of the repositories of the
inventory, each of which has been handled by a scan that was really made, and nothing else
(`transferred_contents`).

The rows of a load are those of the objects that its reference matches. A reference ends in `*`,
which stands for any text.

## Main definitions

* `Bucket.objects`.

## Main results

* `isCompleted_of_all`, `Job.objects_loader`, `Job.Sound.loaded`, `transferred_contents`.

Sources: `cron/internal/controller/main.go`, `cron/internal/worker/main.go`,
`cron/data/summary.go`, `cron/internal/bq/main.go`, `cron/internal/bq/transfer.go`.
-/

namespace ScorecardInfra.Cron

open GoStd Interaction

/-! ### Loads -/

/-- The objects of the bucket at `url` that a reference to Cloud Storage matches. -/
def Bucket.objects (b : Bucket) (url gcsRef : String) : Multiset String :=
  (b.entries.filter fun e => gcsRef.toList.dropLast.isPrefixOf (url ++ "/" ++ e.1).toList).map
    fun e => e.2

section Loads

variable {ρ : Type} {rows : String → ρ} {cfg : TransferConfig}

/-- **One partition after loads.** If all loads of a partition have the same rows, it has these rows
once there was a load, and otherwise the rows it had. -/
theorem foldl_load_apply {shards : List ShardSummary} {t : Time} {x : ρ}
    (h : ∀ s ∈ shards, TransferConfig.SameDay s.creationTime t →
      rows (cfg.loader s.creationTime).gcsRef = x)
    (tables : TableRef → ρ) :
    shards.foldl (cfg.load rows) tables (cfg.partitionedTable t) = x ∨
      (∀ s ∈ shards, ¬TransferConfig.SameDay s.creationTime t) ∧
        shards.foldl (cfg.load rows) tables (cfg.partitionedTable t) =
          tables (cfg.partitionedTable t) := by
  induction shards generalizing tables with
  | nil => exact Or.inr ⟨List.forall_mem_nil _, rfl⟩
  | cons s shards ih =>
    obtain ⟨hs, hshards⟩ := List.forall_mem_cons.mp h
    rw [List.foldl_cons]
    rcases ih hshards (cfg.load rows tables s) with hx | ⟨hnone, heq⟩
    · exact Or.inl hx
    by_cases hday : TransferConfig.SameDay s.creationTime t
    · refine Or.inl ?_
      rw [heq, TransferConfig.load, TransferConfig.partitionedTable_eq_iff.mpr hday,
        Function.update_self, hs hday]
    · refine Or.inr ⟨List.forall_mem_cons.mpr ⟨hday, hnone⟩, ?_⟩
      rw [heq, TransferConfig.load, Function.update_of_ne]
      exact fun htable => hday (TransferConfig.partitionedTable_eq_iff.mp htable.symm)

/-- All shards of a job are there: the job is completed for every threshold up to 1. -/
theorem isCompleted_of_all {s : ShardSummary} {threshold : Float64} (hle : threshold.le 1 = true)
    (hpos : 0 < s.shardsCreated) (hall : s.shardsExpected = s.shardsCreated) :
    s.isCompleted threshold = true := by
  rw [ShardSummary.isCompleted, hall, Int.cast_natCast, Float64.round53_div_self hpos, hle,
    Bool.and_true, decide_eq_true_eq]
  exact_mod_cast hpos

/-- A load of a job matches the keys of the job's shards. -/
theorem isPrefixOf_loader_iff {url key : String} {t : Time} (hurl : cfg.bucketURL = url) :
    (cfg.loader t).gcsRef.toList.dropLast.isPrefixOf (url ++ "/" ++ key).toList = true ↔
      IsShardOf t.truncate key := by
  have hname : "shard-*".toList = "shard-".toList ++ ['*'] := rfl
  have hdrop : (cfg.loader t).gcsRef.toList.dropLast =
      (url ++ "/").toList ++ (t.format ++ "shard-".toList) := by
    rw [TransferConfig.loader, TransferConfig.createGCSRef, getBlobFilename, hurl,
      String.toList_append (s := url ++ "/"), String.toList_append (s := String.ofList t.format),
      String.toList_ofList, hname, ← List.append_assoc, ← List.append_assoc, List.dropLast_concat,
      List.append_assoc]
  rw [List.isPrefixOf_iff_prefix, hdrop, String.toList_append (s := url ++ "/"),
    List.prefix_append_right_inj]
  constructor
  · rintro ⟨rest, hrest⟩
    have hkey : key = getBlobFilename ("shard-" ++ String.ofList rest) t := by
      refine String.toList_inj.mp ?_
      simp [getBlobFilename, ← hrest]
    refine ⟨_, by rw [hkey, parseBlobFilename_getBlobFilename], ?_⟩
    simp [Strings.hasPrefix]
  · rintro ⟨name, hparse, hprefix⟩
    obtain ⟨rest, hrest⟩ := List.isPrefixOf_iff_prefix.mp hprefix
    have hkey : key = getBlobFilename name t := by
      rw [← getBlobFilename_of_parse hparse]
      exact getBlobFilename_congr rfl
    refine ⟨rest, ?_⟩
    rw [hkey, getBlobFilename, String.toList_append (s := String.ofList t.format),
      String.toList_ofList (l := t.format), ← hrest, List.append_assoc]

end Loads

/-! ### The load of a job -/

namespace Job

variable {job : Job} {b : Bucket} {s : JobState} {cfg : TransferConfig}

/-- **What a load of the job finds**: the shards of the messages, each once. -/
theorem objects_loader (hs : job.Sound b s) (hk : job.numShards < 2 ^ 31)
    (hurl : cfg.bucketURL = job.bucketURL) {shards : List String}
    (hshards : (List.range job.numShards).map (fun j => s.results.lookup (job.shardKey j)) =
      shards.map some) :
    s.results.objects job.bucketURL (cfg.loader job.second).gcsRef = shards := by
  have hall : ∀ j < job.numShards, job.shardKey j ∈ s.results := by
    intro j hj
    have hmem : s.results.lookup (job.shardKey j) ∈ shards.map some :=
      hshards ▸ List.mem_map_of_mem (List.mem_range.mpr hj)
    obtain ⟨data, -, hdata⟩ := List.mem_map.mp hmem
    exact AList.lookup_isSome.mp (Option.isSome_of_mem hdata.symm)
  set found := s.results.entries.filter fun e =>
    (cfg.loader job.second).gcsRef.toList.dropLast.isPrefixOf (job.bucketURL ++ "/" ++ e.1).toList
    with hfound
  have hmatch : ∀ e : Σ _ : String, String, e ∈ found ↔
      e ∈ s.results.entries ∧ IsShardOf job.second e.1 := by
    intro e
    rw [hfound, List.mem_filter, isPrefixOf_loader_iff hurl]
    rfl
  -- the keys that match are those of the messages
  have hkeys : (found.map Sigma.fst).Perm job.shardKeys := by
    have hsub : (found.map Sigma.fst).Sublist s.results.keys := List.filter_sublist.map _
    refine (List.perm_ext_iff_of_nodup (hsub.nodup s.results.keys_nodup)
      (nodup_shardKeys hk)).mpr fun key => ?_
    rw [List.mem_map, shardKeys, List.mem_map]
    constructor
    · rintro ⟨e, he, rfl⟩
      obtain ⟨hentry, hshard⟩ := (hmatch e).mp he
      have hkey : e.1 ∈ s.results := AList.mem_keys.mpr (List.mem_map_of_mem hentry)
      obtain ⟨⟨j, hj, hkey⟩, -⟩ := hs.shard hkey hshard
      exact ⟨j, List.mem_range.mpr hj, hkey.symm⟩
    · rintro ⟨j, hj, rfl⟩
      obtain ⟨data, hdata⟩ := Bucket.exists_lookup (hall j (List.mem_range.mp hj))
      exact ⟨⟨job.shardKey j, data⟩, (hmatch _).mpr ⟨AList.mem_lookup_iff.mp hdata,
        _, parse_shardKey j, hasPrefix_shardName _⟩, rfl⟩
  have hlookup : (found.map fun e => e.2).map some =
      (found.map Sigma.fst).map s.results.lookup := by
    rw [List.map_map, List.map_map]
    refine List.map_congr_left fun e he => ?_
    exact (AList.mem_lookup_iff.mpr ((hmatch e).mp he).1).symm
  have hperm : ((found.map fun e => e.2).map some).Perm (shards.map some) := by
    have hmessages : job.shardKeys.map s.results.lookup = shards.map some := by
      rw [← hshards, shardKeys, List.map_map]
      rfl
    rw [hlookup, ← hmessages]
    exact hkeys.map _
  exact Multiset.coe_eq_coe.mpr ((List.map_perm_map_iff (Option.some_injective _)).mp hperm)

/-- **A job is transferred** if all its messages are acknowledged and it has no marker. -/
theorem Sound.exists_eligible (hs : job.Sound b s) (hk : job.numShards < 2 ^ 31)
    (hpos : 0 < job.numShards) (hacked : ∀ j < job.numShards, ∃ req ∈ s.acked, job.IsMessage j req)
    (hnew : job.transferKey ∉ s.results) (hle : cfg.completionThreshold.le 1 = true)
    {summary : BucketSummary} (h : job.summary s.results = .ok summary) :
    ∃ e ∈ summary.entries, cfg.eligible e.2 = true ∧ e.2.creationTime = job.second := by
  obtain ⟨req, hreq, hmessage⟩ := hacked 0 hpos
  have hshard : job.shardKey 0 ∈ s.results := hmessage.resultFilename_eq ▸ hs.acked req hreq
  have hmetadata := (hs.shard hshard ⟨_, parse_shardKey 0, hasPrefix_shardName _⟩).2
  have hmem : job.second ∈ summary :=
    mem_summary h (Bucket.mem_blobKeys.mpr hmetadata) parse_metadataKey
  obtain ⟨entry, hentry⟩ := Option.isSome_iff_exists.mp (AList.lookup_isSome.mpr hmem)
  have hcreate : summary.getOrCreate job.second = entry := by
    rw [BucketSummary.getOrCreate, hentry, Option.getD_some]
  subst hcreate
  refine ⟨⟨job.second, _⟩, AList.mem_lookup_iff.mp hentry, ?_, creationTime_eq h job.second⟩
  have hcreated : (summary.getOrCreate job.second).shardsCreated = job.numShards := by
    rw [shardsCreated_eq h]
    exact le_antisymm hs.countP_le (hs.le_countP hk hacked)
  have hexpected := hs.shardsExpected hk (Or.inr hmetadata) h
  have hmarker : (summary.getOrCreate job.second).isTransferred = false := by
    rw [← Bool.not_eq_true, isTransferred_iff h]
    rintro ⟨key, hkey, hparse⟩
    have hmarked : key = job.transferKey := by
      rw [← getBlobFilename_of_parse hparse]
      exact getBlobFilename_congr rfl
    exact hnew (hmarked ▸ Bucket.mem_blobKeys.mp hkey)
  rw [TransferConfig.eligible, hmarker, Bool.not_false, Bool.true_and]
  refine isCompleted_of_all hle ?_ ?_
  · rwa [hcreated]
  · rw [hexpected, hcreated]

/-- **The load of a job.** If no other job of its day is transferred, its partition has the rows
that the load of the job finds. -/
theorem Sound.loaded {ρ : Type} (hs : job.Sound b s) (hk : job.numShards < 2 ^ 31)
    (hpos : 0 < job.numShards) (hacked : ∀ j < job.numShards, ∃ req ∈ s.acked, job.IsMessage j req)
    (hnew : job.transferKey ∉ s.results) (hle : cfg.completionThreshold.le 1 = true)
    {summary : BucketSummary} (hsummary : job.summary s.results = .ok summary)
    (honly : ∀ e ∈ summary.entries, cfg.eligible e.2 = true →
      TransferConfig.SameDay e.2.creationTime job.second → e.2.creationTime = job.second)
    {order : GoMap.Order summary.entries.length} {t : Trace TransferSig}
    {r : Except (Stop CronError) Unit}
    (hrun : Exec (cfg.transferDataToBq (summary.shards order)).run t (some r)) (hall : AllSucceed t)
    (rows : String → ρ) (tables : TableRef → ρ) :
    tablesAfter rows tables t (cfg.partitionedTable job.second) =
      rows (cfg.loader job.second).gcsRef := by
  obtain ⟨e, he, heligible, htime⟩ := hs.exists_eligible hk hpos hacked hnew hle hsummary
  -- all loads of the day are loads of the job
  have hloads : ∀ s ∈ (summary.shards order).filter cfg.eligible,
      TransferConfig.SameDay s.creationTime job.second →
      rows (cfg.loader s.creationTime).gcsRef = rows (cfg.loader job.second).gcsRef := by
    intro s hs hday
    obtain ⟨hmem, hs⟩ := List.mem_filter.mp hs
    obtain ⟨e', he', rfl⟩ := List.mem_map.mp hmem
    rw [honly e' (GoMap.mem_visit.mp he') hs hday]
  rw [(TransferConfig.tablesAfter_transfer hrun hall tables).2]
  rcases foldl_load_apply hloads tables with hx | ⟨hnone, -⟩
  · exact hx
  · have hmem : e.2 ∈ (summary.shards order).filter cfg.eligible :=
      List.mem_filter.mpr ⟨List.mem_map_of_mem (GoMap.mem_visit.mpr he), heligible⟩
    refine absurd ?_ (hnone e.2 hmem)
    rw [htime]
    exact ⟨rfl, rfl, rfl⟩

theorem Changes.acked {past : Trace BatchSig} {s' : JobState} {o : BatchOp} {x : BatchSig.Ans o}
    (h : job.Changes past s o x s') : s.acked ⊆ s'.acked := by
  unfold Changes at h
  split at h
  · subst h
    exact List.subset_append_left _ _
  · subst h
    exact List.Subset.refl _
  · rcases h with ⟨rfl, -⟩ | ⟨rfl, -⟩ <;> exact List.Subset.refl _
  · subst h
    exact List.Subset.refl _

/-- What is acknowledged stays so. -/
theorem acked_subset {c c' : Config (JobState × Trace BatchSig) job.start}
    (h : Relation.ReflTransGen job.recorded.Step c c') :
    c.shared.1.acked ⊆ c'.shared.1.acked := by
  induction h with
  | refl => exact List.Subset.refl _
  | tail _ hstep ih =>
    rcases hstep with ⟨_, _, _, _, ⟨-, hchanges⟩, -⟩ | ⟨_, -⟩ | ⟨⟨_, _⟩, ⟨_, _, hs, -⟩, -⟩
    · exact List.Subset.trans ih hchanges.acked
    · exact ih
    · dsimp only at hs
      subst hs
      exact ih

end Job

/-- **The partition of a job.** The bucket is summarized when all messages of the job have been
acknowledged, and the job has no marker. A run of the transfer in which everything succeeds leaves
in the job's partition the shards as the load finds them, then or later, if no other job of that day
is transferred: they are together the records of all repositories of the inventory, in order, each
of which has been handled. -/
theorem transferred_contents (job : Job) (hk : job.numShards < 2 ^ 31) (hpos : 0 < job.numShards)
    (hapi : job.worker.apiBucketURL ≠ job.bucketURL)
    (hraw : job.worker.rawBucketURL ≠ job.bucketURL) (b : Bucket)
    (hb : ∀ key ∈ b, ¬OfSecond job.second key)
    (c c' : Config (JobState × Trace BatchSig) job.start)
    (h : job.recorded.Reachable (.initial b, []) c)
    (hlater : Relation.ReflTransGen job.recorded.Step c c')
    (hacked : ∀ j < job.numShards, ∃ req ∈ c.shared.1.acked, job.IsMessage j req)
    (hnew : job.transferKey ∉ c.shared.1.results) (cfg : TransferConfig)
    (hurl : cfg.bucketURL = job.bucketURL) (hle : cfg.completionThreshold.le 1 = true)
    (summary : BucketSummary) (hsummary : job.summary c.shared.1.results = .ok summary)
    (honly : ∀ e ∈ summary.entries, cfg.eligible e.2 = true →
      TransferConfig.SameDay e.2.creationTime job.second → e.2.creationTime = job.second)
    (order : GoMap.Order summary.entries.length) (t : Trace TransferSig)
    (r : Except (Stop CronError) Unit)
    (hrun : Exec (cfg.transferDataToBq (summary.shards order)).run t (some r)) (hall : AllSucceed t)
    (tables : TableRef → Multiset String) :
    ∃ (rows : List RepoFormat) (shards : List String) (done : List RepoRun),
      tablesAfter (c'.shared.1.results.objects job.bucketURL) tables t
          (cfg.partitionedTable job.second) = shards ∧
        job.repos = List.map .ok rows ∧
        job.HandledIn c'.shared.2 (rows.map Controller.toRepo) done ∧
        String.join shards = resultsShard done := by
  have h' : job.recorded.Reachable (.initial b, []) c' := Relation.ReflTransGen.trans h hlater
  have hsound := (Job.invariant_of_reachable hapi hb (World.Reachable.of_observe h)).sound
  have hsound' := (Job.invariant_of_reachable hapi hb (World.Reachable.of_observe h')).sound
  have hshards : ∀ j < job.numShards, job.shardKey j ∈ c'.shared.1.results := by
    intro j hj
    obtain ⟨req, hreq, hmessage⟩ := hacked j hj
    rw [← hmessage.resultFilename_eq]
    exact hsound'.acked req (Job.acked_subset hlater hreq)
  obtain ⟨rows, shards, done, hrows, hlookup, hdone, hjoin⟩ :=
    (Job.contents_reachable hk hapi hraw hb h').exists_inventory hshards
  refine ⟨rows, shards, done, ?_, hrows, hdone, hjoin⟩
  rw [hsound.loaded hk hpos hacked hnew hle hsummary honly hrun hall]
  exact Job.objects_loader hsound' hk hurl hlookup

/-- The transfer of the sample job. -/
def sampleJobTransfer : TransferConfig := { sampleTransfer with bucketURL := sampleJob.bucketURL }

/-- All objects of the sample job are of one second. -/
theorem sampleJobEnd_keys : sampleJobEnd.shared.results.keys =
    [sampleJob.shardKey 0, sampleJob.shardKey 1, sampleJob.metadataKey] := by
  decide +kernel

theorem sampleJobEnd_creationTime {summary : BucketSummary}
    (h : sampleJob.summary sampleJobEnd.shared.results = .ok summary)
    {e : Σ _ : Time, ShardSummary} (he : e ∈ summary.entries) :
    e.2.creationTime = sampleJob.second := by
  have hlookup : summary.lookup e.1 = some e.2 := AList.mem_lookup_iff.mpr he
  have hcreate : summary.getOrCreate e.1 = e.2 := by
    rw [BucketSummary.getOrCreate, hlookup, Option.getD_some]
  rw [← hcreate, creationTime_eq h]
  obtain ⟨key, hkey, name, hparse⟩ :=
    (mem_summary_iff h e.1).mp (AList.lookup_isSome.mp (Option.isSome_of_mem hlookup))
  have hmem : key ∈ sampleJobEnd.shared.results.keys :=
    AList.mem_keys.mp (Bucket.mem_blobKeys.mp hkey)
  rw [sampleJobEnd_keys, List.mem_cons, List.mem_pair] at hmem
  rcases hmem with rfl | rfl | rfl
  · exact (Prod.mk.inj (Except.ok.inj (hparse.symm.trans (Job.parse_shardKey 0)))).1
  · exact (Prod.mk.inj (Except.ok.inj (hparse.symm.trans (Job.parse_shardKey 1)))).1
  · exact (Prod.mk.inj (Except.ok.inj (hparse.symm.trans Job.parse_metadataKey))).1

/-- The load of the sample job finds the shard that has been written again, and the other one. -/
theorem sampleJobLater_objects : sampleJobLater.shared.results.objects sampleJob.bucketURL
    (sampleJobTransfer.loader sampleJob.second).gcsRef =
      {"github.com/org/one again", "github.com/org/two"} := by
  decide +kernel

/-- The sample job is transferred while a worker writes one of its shards again. -/
theorem sampleJobEnd_transferred : ∃ (summary : BucketSummary) (t : Trace TransferSig)
    (r : Except (Stop CronError) Unit) (log : Trace BatchSig) (shards : List String)
    (done : List RepoRun),
    Exec (sampleJobTransfer.transferDataToBq (summary.shards (GoMap.Order.listed _))).run t
        (some r) ∧
      tablesAfter (sampleJobLater.shared.results.objects sampleJob.bucketURL) (fun _ => ∅) t
        (sampleJobTransfer.partitionedTable sampleJob.second) = shards ∧
      (shards : Multiset String) = {"github.com/org/one again", "github.com/org/two"} ∧
      sampleJob.HandledIn log (sampleJobRows.map Controller.toRepo) done ∧
      String.join shards = resultsShard done := by
  have hb : ∀ key ∈ (∅ : Bucket), ¬OfSecond sampleJob.second key :=
    fun _ h => absurd h (AList.notMem_empty _)
  obtain ⟨log, h⟩ := Job.exists_recorded sampleJobEnd_reachable []
  obtain ⟨log', hlater⟩ := Job.exists_recorded (sampleJobAfter_steps _ sampleJobEnd) log
  have hsound := (Job.invariant_of_reachable (by decide) hb sampleJobEnd_reachable).sound
  obtain ⟨summary, hsummary⟩ := Job.exists_summary (hsound.recognized fun _ _ h => nomatch h)
  obtain ⟨t, r, hrun, hall⟩ := TransferConfig.exists_allSucceed
    (sampleJobTransfer.transferDataToBq (summary.shards (GoMap.Order.listed _)))
  have hnew : sampleJob.transferKey ∉ sampleJobEnd.shared.results := by
    rw [AList.mem_keys, sampleJobEnd_keys, List.mem_cons, List.mem_pair]
    rintro (h | h | h)
    exacts [Job.shardKey_ne_transferKey 0 h.symm, Job.shardKey_ne_transferKey 1 h.symm,
      metadata_ne_transferStatus _ _ h.symm]
  have hle : sampleJobTransfer.completionThreshold.le 1 = true := by decide +kernel
  have honly : ∀ e ∈ summary.entries, sampleJobTransfer.eligible e.2 = true →
      TransferConfig.SameDay e.2.creationTime sampleJob.second →
      e.2.creationTime = sampleJob.second :=
    fun e he _ _ => sampleJobEnd_creationTime hsummary he
  obtain ⟨rows, shards, done, hpartition, hrows, hdone, hjoin⟩ := transferred_contents sampleJob
    (by decide) (by decide) (by decide) (by decide) ∅ hb _ _ h hlater sampleJobEnd_allAcked hnew
    sampleJobTransfer rfl hle summary hsummary honly (GoMap.Order.listed _) t r hrun hall fun _ => ∅
  obtain rfl : sampleJobRows = rows :=
    List.map_injective_iff.mpr (fun _ _ => Except.ok.inj) hrows
  refine ⟨summary, t, r, log', shards, done, hrun, hpartition, hpartition.symm.trans ?_, hdone,
    hjoin⟩
  rw [hsound.loaded (by decide) (by decide) sampleJobEnd_allAcked hnew hle hsummary honly hrun hall]
  exact sampleJobLater_objects

end ScorecardInfra.Cron
