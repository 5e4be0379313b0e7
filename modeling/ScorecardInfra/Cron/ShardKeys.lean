import Mathlib.Data.Finset.Card
import Mathlib.Data.Finset.Union
import Mathlib.Data.Set.Function
import ScorecardInfra.Cron.Request
import ScorecardInfra.Cron.Summary
import ScorecardInfra.GoStd.Chronology

/-!
# What the keys of a bucket say

A key is read back as the name and the time that it was made of, no other key is read as them, and
the keys are ordered as the times (`blobFilename_faithful`).

A bucket's contents are given by the jobs: the shards, the metadata, the marker of a transfer and
the number of shards, each under the key of its constructor. The summary of their keys, in any
order, has one entry for each job and says what the job has, unless some job has the object of
`getShardNumFilename` or two jobs lie in one second (`summarized_iff`).

## Main definitions

* `keyPrefix`, `JobObjects`, `Contents`, `Contents.Listing`, `Contents.Summarized`.

## Main results

* `blobFilename_faithful`, `isTransferred_iff`, `mem_summary_iff`, `summarized_iff`.

Sources: `cron/data/blob.go`, lines 33–37 and 129–161; `cron/data/summary.go`, lines 72–134;
`cron/worker/worker.go`, lines 147–152.
-/

namespace ScorecardInfra.Cron

open GoStd Interaction

/-! ### Reading keys back -/

/-- A key is the one of the name and the time that it is read as. -/
theorem getBlobFilename_of_parse {key filename : String} {t : Time}
    (h : parseBlobFilename key = .ok (t, filename)) : getBlobFilename filename t = key := by
  simp only [parseBlobFilename] at h
  split_ifs at h with hlen
  simp only [except_bind_eq_ok, mapError_eq_ok] at h
  obtain ⟨t', hparse, ht⟩ := h
  obtain ⟨rfl, rfl⟩ := Prod.mk.inj (Except.ok.inj ht)
  refine String.toList_inj.mp ?_
  rw [getBlobFilename, Time.format_of_parse hparse, String.toList_append, String.toList_ofList,
    String.toList_ofList, List.take_append_drop]

/-- The part of a key that stands for the time. -/
def keyPrefix (key : String) : List Char := key.toList.take filePrefixFormat.toList.length

theorem keyPrefix_getBlobFilename (filename : String) (t : Time) :
    keyPrefix (getBlobFilename filename t) = t.format := by
  have hlen : t.format.length = filePrefixFormat.toList.length := t.length_format
  rw [keyPrefix, getBlobFilename, String.toList_append, String.toList_ofList,
    List.take_left' hlen]

/-- **Keys are faithful.** Up to seconds, a key is read back as what it was made of, every key that
is read is the one made of what was read, and the prefixes of 18 bytes are ordered as the times. -/
theorem blobFilename_faithful :
    (∀ (t : Time) (filename : String), t.truncate = t →
      parseBlobFilename (getBlobFilename filename t) = .ok (t, filename)) ∧
    (∀ (key filename : String) (t : Time), parseBlobFilename key = .ok (t, filename) →
      getBlobFilename filename t = key) ∧
    ∀ (t u : Time) (filename filename' : String), t.truncate = t → u.truncate = u →
      (keyPrefix (getBlobFilename filename t)).length = 18 ∧
      (keyPrefix (getBlobFilename filename t) < keyPrefix (getBlobFilename filename' u) ↔
        t.unixNano < u.unixNano) := by
  refine ⟨fun t filename ht => ?_, fun _ _ _ => getBlobFilename_of_parse,
    fun t u filename filename' ht hu => ⟨?_, ?_⟩⟩
  · rw [parseBlobFilename_getBlobFilename, ht]
  · rw [keyPrefix_getBlobFilename, Time.length_format]
  · rw [keyPrefix_getBlobFilename, keyPrefix_getBlobFilename, Time.format_lt_format, ht, hu]

/-- A moment of a Monday. -/
def monday : Time where
  year := 2026
  month := 6
  day := 1
  hour := 12
  minute := 34
  second := 56
  nanosecond := 0
  year_le := by decide
  month_mem := by decide
  day_mem := by decide
  hour_le := by decide
  minute_le := by decide
  second_le := by decide
  nanosecond_le := Time.zero_nanosecond_le

/-- The keys of two seconds of that day. -/
theorem blobFilename_faithful_monday :
    parseBlobFilename (getBlobFilename "shard-0000007" monday) = .ok (monday, "shard-0000007") ∧
    getBlobFilename ".shard_metadata" monday = "2026.06.01/123456/.shard_metadata" ∧
    keyPrefix (getBlobFilename "shard-0000007" monday) <
      keyPrefix (getBlobFilename "shard-0000000"
        { monday with second := 57, second_le := by decide }) :=
  ⟨blobFilename_faithful.1 monday "shard-0000007" rfl,
    blobFilename_faithful.2.1 "2026.06.01/123456/.shard_metadata" _ _ (by decide +kernel),
    (blobFilename_faithful.2.2 monday { monday with second := 57, second_le := by decide } _ _ rfl
      rfl).2.mpr (by decide)⟩

/-! ### The marker and the entries of a summary -/

private theorem exists_mem_snoc {α : Type} {p : α → Prop} {l : List α} {a : α} :
    (∃ x ∈ l ++ [a], p x) ↔ (∃ x ∈ l, p x) ∨ p a := by
  simp only [List.mem_append, List.mem_singleton, or_and_right, exists_or, exists_eq_left]

section Summary

variable {codec : MetadataCodec} {content : String → Except String String}
  {keys : List String} {summary : BucketSummary}

/-- **Transfers.** A summary finds the marker of a job's transfer. -/
theorem isTransferred_iff (h : getBucketSummary codec content (.ok keys) = .ok summary) (t : Time) :
    (summary.getOrCreate t).isTransferred = true ↔
      ∃ key ∈ keys, parseBlobFilename key = .ok (t, transferStatusFilename) := by
  refine summary_induct (I := fun keys summary => (summary.getOrCreate t).isTransferred = true ↔
    ∃ key ∈ keys, parseBlobFilename key = .ok (t, transferStatusFilename)) ?_ ?_ h
  · exact iff_of_false Bool.false_ne_true fun ⟨_, h, _⟩ => absurd h List.not_mem_nil
  intro done key summary summary' ih hkey
  obtain ⟨t', filename, hparse, hkind⟩ := summarizeKey_eq_ok.mp hkey
  have hsplit : (∃ key' ∈ done ++ [key],
      parseBlobFilename key' = .ok (t, transferStatusFilename)) ↔
        (summary.getOrCreate t).isTransferred = true ∨
          t = t' ∧ filename = transferStatusFilename := by
    rw [ih, exists_mem_snoc, hparse, Except.ok.injEq,
      Prod.mk.injEq, eq_comm (a := t')]
  -- a key of another kind leaves the marker as it is
  have hother : ∀ f : ShardSummary → ShardSummary, filename ≠ transferStatusFilename →
      (∀ s, (f s).isTransferred = s.isTransferred) →
      (((summary.update t' f).getOrCreate t).isTransferred = true ↔
        (summary.getOrCreate t).isTransferred = true ∨
          t = t' ∧ filename = transferStatusFilename) := by
    intro f hne hf
    rw [BucketSummary.getOrCreate_update]
    split_ifs with ht
    · simp only [hf, ht, hne, and_false, or_false]
    · simp only [hne, and_false, or_false]
  rw [hsplit]
  rcases hkind with ⟨hp, rfl⟩ | ⟨rfl, rfl⟩ | ⟨data, metadata, rfl, -, -, rfl⟩
  · refine hother _ ?_ fun _ => rfl
    rintro rfl
    exact absurd hp (by decide)
  · rw [BucketSummary.getOrCreate_update]
    split_ifs with ht
    · simp only [ht, true_and, or_true]
    · simp only [ht, false_and, or_false]
  · exact hother _ (by decide) fun _ => rfl

/-- **Entries.** A summary has the jobs of its keys. -/
theorem mem_summary_iff (h : getBucketSummary codec content (.ok keys) = .ok summary) (t : Time) :
    t ∈ summary ↔ ∃ key ∈ keys, ∃ filename, parseBlobFilename key = .ok (t, filename) := by
  refine ⟨fun hmem => ?_, fun ⟨_, hkey, _, hparse⟩ => mem_summary h hkey hparse⟩
  refine summary_induct (I := fun keys summary => t ∈ summary →
    ∃ key ∈ keys, ∃ filename, parseBlobFilename key = .ok (t, filename))
    (fun h => absurd h (AList.notMem_empty t)) ?_ h hmem
  intro done key summary summary' ih hkey hmem
  obtain ⟨t', filename, hparse, hkind⟩ := summarizeKey_eq_ok.mp hkey
  obtain ⟨f, rfl⟩ : ∃ f, summary' = summary.update t' f := by
    rcases hkind with ⟨-, rfl⟩ | ⟨-, rfl⟩ | ⟨_, _, -, -, -, rfl⟩
    exacts [⟨_, rfl⟩, ⟨_, rfl⟩, ⟨_, rfl⟩]
  rw [exists_mem_snoc]
  rw [BucketSummary.update, AList.mem_insert] at hmem
  rcases hmem with rfl | hmem
  · exact Or.inr ⟨filename, hparse⟩
  · exact Or.inl (ih hmem)

/-- An entry has the time under which it is. -/
theorem creationTime_eq (h : getBucketSummary codec content (.ok keys) = .ok summary) (t : Time) :
    (summary.getOrCreate t).creationTime = t := by
  refine summary_induct (I := fun _ summary => (summary.getOrCreate t).creationTime = t) rfl ?_ h
  intro done key summary summary' ih hkey
  obtain ⟨t', filename, -, hkind⟩ := summarizeKey_eq_ok.mp hkey
  rcases hkind with ⟨-, rfl⟩ | ⟨-, rfl⟩ | ⟨_, _, -, -, -, rfl⟩ <;>
  · rw [BucketSummary.getOrCreate_update]
    split_ifs with ht
    · rw [← ht]
      exact ih
    · exact ih

/-- **Metadata.** A job for which shards are expected has the metadata that is stored for it. -/
theorem shardMetadata_of_expected (h : getBucketSummary codec content (.ok keys) = .ok summary)
    {t : Time} (hexpected : (summary.getOrCreate t).shardsExpected ≠ 0) :
    content (getShardMetadataFilename t) = .ok (summary.getOrCreate t).shardMetadata := by
  suffices hcontent : (summary.getOrCreate t).shardsExpected = 0 ∨
      content (getShardMetadataFilename t) = .ok (summary.getOrCreate t).shardMetadata from
    hcontent.resolve_left hexpected
  refine summary_induct (I := fun _ summary => (summary.getOrCreate t).shardsExpected = 0 ∨
    content (getShardMetadataFilename t) = .ok (summary.getOrCreate t).shardMetadata)
    (Or.inl rfl) ?_ h
  intro done key summary summary' ih hkey
  obtain ⟨t', filename, hparse, hkind⟩ := summarizeKey_eq_ok.mp hkey
  rcases hkind with ⟨-, rfl⟩ | ⟨-, rfl⟩ | ⟨data, metadata, rfl, hdata, -, rfl⟩ <;>
    rw [BucketSummary.getOrCreate_update] <;> split_ifs with ht
  · rwa [← ht]
  · exact ih
  · rwa [← ht]
  · exact ih
  · refine Or.inr ?_
    rw [ht, getShardMetadataFilename, getBlobFilename_of_parse hparse]
    exact hdata
  · exact ih

end Summary

/-! ### The objects of jobs -/

/-- Metadata that can be read. -/
structure ReadableMetadata (codec : MetadataCodec) where
  data : String
  metadata : ShardMetadata
  unmarshal_eq : codec.unmarshal data = .ok metadata

/-- The objects of a job, by the constructors of their keys. -/
structure JobObjects (codec : MetadataCodec) where
  shards : Finset Int32
  metadata : Option (ReadableMetadata codec)
  transferStatus : Bool
  shardNum : Bool

namespace JobObjects

variable {codec : MetadataCodec} (o : JobObjects codec) (t : Time)

/-- The keys of the job at `t`. -/
def keys : Finset String :=
  o.shards.image (fun n => resultFilename ⟨[], some n, some t⟩) ∪
    (if o.metadata.isSome then {getShardMetadataFilename t} else ∅) ∪
    (if o.transferStatus then {getTransferStatusFilename t} else ∅) ∪
    (if o.shardNum then {getShardNumFilename t} else ∅)

/-- The names of a job's objects. -/
def Has (name : String) : Prop :=
  (∃ n ∈ o.shards, shardName n = name) ∨ (o.metadata.isSome ∧ shardMetadataFilename = name) ∨
    (o.transferStatus = true ∧ transferStatusFilename = name) ∨
    (o.shardNum = true ∧ shardNumFilename = name)

/-- The number of shards that the metadata expects; 0 without metadata. -/
def numShard : Int := (o.metadata.map fun m => m.metadata.getNumShard.toInt).getD 0

variable {o t}

theorem mem_keys {key : String} :
    key ∈ o.keys t ↔ ∃ name, o.Has name ∧ getBlobFilename name t = key := by
  have hflag : ∀ (b : Bool) (k : String), key ∈ (if b then {k} else ∅ : Finset String) ↔
      b = true ∧ k = key := by
    intro b k
    split_ifs with hb <;> simp [hb, eq_comm]
  simp only [keys, Has, Finset.mem_union, Finset.mem_image, hflag, or_and_right, exists_or,
    or_assoc]
  refine or_congr ?_ (or_congr ?_ (or_congr ?_ ?_))
  · constructor
    · rintro ⟨n, hn, rfl⟩
      exact ⟨_, ⟨n, hn, rfl⟩, rfl⟩
    · rintro ⟨_, ⟨n, hn, rfl⟩, rfl⟩
      exact ⟨n, hn, rfl⟩
  all_goals
    constructor
    · rintro ⟨h, rfl⟩
      exact ⟨_, ⟨h, rfl⟩, rfl⟩
    · rintro ⟨_, ⟨h, rfl⟩, rfl⟩
      exact ⟨h, rfl⟩

/-- The names of different kinds are different. -/
theorem has_iff :
    (∀ n, o.Has (shardName n) ↔ n ∈ o.shards) ∧
    (o.Has shardMetadataFilename ↔ o.metadata.isSome) ∧
    (o.Has transferStatusFilename ↔ o.transferStatus = true) ∧
    (o.Has shardNumFilename ↔ o.shardNum = true) := by
  have hne : ∀ n name, Strings.hasPrefix name "shard-" = false → shardName n ≠ name := by
    rintro n _ hp rfl
    exact Bool.false_ne_true (hp.symm.trans (hasPrefix_shardName n))
  have hm : ∀ n, shardName n ≠ shardMetadataFilename := fun n => hne n _ (by decide)
  have ht : ∀ n, shardName n ≠ transferStatusFilename := fun n => hne n _ (by decide)
  have hs : ∀ n, shardName n ≠ shardNumFilename := fun n => hne n _ (by decide)
  refine ⟨fun n => ?_, ?_, ?_, ?_⟩
  · simp only [Has, shardName_injective.eq_iff, (hm n).symm, (ht n).symm, (hs n).symm, and_false,
      or_false, exists_eq_right]
  · simp [Has, hm, show transferStatusFilename ≠ shardMetadataFilename by decide,
      show shardNumFilename ≠ shardMetadataFilename by decide]
  · simp [Has, ht, show shardMetadataFilename ≠ transferStatusFilename by decide,
      show shardNumFilename ≠ transferStatusFilename by decide]
  · simp [Has, hs, show shardMetadataFilename ≠ shardNumFilename by decide,
      show transferStatusFilename ≠ shardNumFilename by decide]

/-- Of a job's names, those of shards have their prefix. -/
theorem has_shard_iff {name : String} :
    o.Has name ∧ Strings.hasPrefix name "shard-" = true ↔ ∃ n ∈ o.shards, shardName n = name := by
  constructor
  · rintro ⟨h | ⟨-, rfl⟩ | ⟨-, rfl⟩ | ⟨-, rfl⟩, hp⟩
    · exact h
    · exact absurd hp (by decide)
    · exact absurd hp (by decide)
    · exact absurd hp (by decide)
  · rintro ⟨n, hn, rfl⟩
    exact ⟨has_iff.1 n |>.mpr hn, hasPrefix_shardName n⟩

end JobObjects

/-! ### Buckets with the objects of jobs -/

/-- The jobs of a bucket and their objects. -/
structure Contents (codec : MetadataCodec) where
  jobs : Finset Time
  objects : Time → JobObjects codec

namespace Contents

variable {codec : MetadataCodec} (c : Contents codec)

/-- The keys. -/
def keys : Finset String := c.jobs.biUnion fun t => (c.objects t).keys t

/-- The jobs with an object. -/
def present : Finset Time := c.jobs.filter fun t => ((c.objects t).keys t).Nonempty

/-- The keys are listed, in some order, and the metadata is stored. -/
structure Listing (keys : List String) (content : String → Except String String) : Prop where
  nodup : keys.Nodup
  mem_iff : ∀ key, key ∈ keys ↔ key ∈ c.keys
  stored : ∀ t ∈ c.jobs, ∀ m ∈ (c.objects t).metadata,
    content (getShardMetadataFilename t) = .ok m.data

/-- There is a summary; it has one entry for each job with an object, which says how many shards the
job has, whether its transfer is marked and how many shards its metadata expects. -/
def Summarized (keys : List String) (content : String → Except String String) : Prop :=
  ∃ summary, getBucketSummary codec content (.ok keys) = .ok summary ∧
    Set.BijOn Time.truncate c.present {t | t ∈ summary} ∧
    ∀ t ∈ c.present, ∃ s, summary.lookup t.truncate = some s ∧
      s.shardsCreated = (c.objects t).shards.card ∧
      s.isTransferred = (c.objects t).transferStatus ∧
      s.shardsExpected = (c.objects t).numShard

variable {c} {keys : List String} {content : String → Except String String}

theorem mem_keys {key : String} :
    key ∈ c.keys ↔ ∃ t ∈ c.jobs, ∃ name, (c.objects t).Has name ∧ getBlobFilename name t = key := by
  simp only [Contents.keys, Finset.mem_biUnion, JobObjects.mem_keys]

theorem mem_present {t : Time} : t ∈ c.present ↔ t ∈ c.jobs ∧ ∃ name, (c.objects t).Has name := by
  rw [present, Finset.mem_filter]
  simp only [Finset.Nonempty, JobObjects.mem_keys]
  refine and_congr_right fun _ => ⟨?_, ?_⟩
  · rintro ⟨_, name, h, -⟩
    exact ⟨name, h⟩
  · rintro ⟨name, h⟩
    exact ⟨_, name, h, rfl⟩

/-- If jobs have seconds of their own, what is read under a job's second are the job's names. -/
theorem parse_iff (hlist : c.Listing keys content)
    (hinj : Set.InjOn Time.truncate c.present) {t : Time} (ht : t ∈ c.present) {name key : String} :
    key ∈ keys ∧ parseBlobFilename key = .ok (t.truncate, name) ↔
      (c.objects t).Has name ∧ getBlobFilename name t = key := by
  constructor
  · rintro ⟨hkey, hparse⟩
    obtain ⟨t', ht', name', hname', rfl⟩ := mem_keys.mp ((hlist.mem_iff key).mp hkey)
    rw [parseBlobFilename_getBlobFilename] at hparse
    obtain ⟨hsecond, rfl⟩ := Prod.mk.inj (Except.ok.inj hparse)
    obtain rfl := hinj (mem_present.mpr ⟨ht', name', hname'⟩) ht hsecond
    exact ⟨hname', rfl⟩
  · rintro ⟨hname, rfl⟩
    exact ⟨(hlist.mem_iff _).mpr (mem_keys.mpr ⟨t, (mem_present.mp ht).1, name, hname, rfl⟩),
      parseBlobFilename_getBlobFilename name t⟩

/-- A bucket can be summarized if no job has the object of the number of shards. -/
theorem recognized_iff (hlist : c.Listing keys content) :
    (∀ key ∈ keys, Recognized codec content key) ↔
      ∀ t ∈ c.jobs, (c.objects t).shardNum = false := by
  constructor
  · intro h t ht
    refine Bool.eq_false_iff.mpr fun hnum => ?_
    have hmem : getShardNumFilename t ∈ keys := (hlist.mem_iff _).mpr
      (mem_keys.mpr ⟨t, ht, _, JobObjects.has_iff.2.2.2.mpr hnum, rfl⟩)
    have hparse : parseBlobFilename (getShardNumFilename t) = .ok (t.truncate, shardNumFilename) :=
      parseBlobFilename_getBlobFilename _ t
    rcases h _ hmem with ⟨t', name, hname, hp⟩ | ⟨t', hname⟩ | ⟨t', _, _, hname, -⟩
    · obtain ⟨-, rfl⟩ := Prod.mk.inj (Except.ok.inj (hparse.symm.trans hname))
      exact absurd hp (by decide)
    · obtain ⟨-, h⟩ := Prod.mk.inj (Except.ok.inj (hparse.symm.trans hname))
      exact absurd h (by decide)
    · obtain ⟨-, h⟩ := Prod.mk.inj (Except.ok.inj (hparse.symm.trans hname))
      exact absurd h (by decide)
  · intro h key hkey
    obtain ⟨t, ht, name, hname, rfl⟩ := mem_keys.mp ((hlist.mem_iff key).mp hkey)
    have hparse := parseBlobFilename_getBlobFilename name t
    rcases hname with ⟨n, -, rfl⟩ | ⟨hm, rfl⟩ | ⟨-, rfl⟩ | ⟨hnum, -⟩
    · exact Or.inl ⟨_, _, hparse, hasPrefix_shardName n⟩
    · obtain ⟨m, hm⟩ := Option.isSome_iff_exists.mp hm
      exact Or.inr (Or.inr ⟨_, _, _, hparse, hlist.stored t ht m hm, m.unmarshal_eq⟩)
    · exact Or.inr (Or.inl ⟨_, hparse⟩)
    · exact absurd hnum (by rw [h t ht]; exact Bool.false_ne_true)

section Entry

variable {summary : BucketSummary} {t : Time}

/-- The keys of a job's shards are as many as the shards. -/
theorem shardsCreated_present (hlist : c.Listing keys content)
    (hinj : Set.InjOn Time.truncate c.present) (ht : t ∈ c.present)
    (h : getBucketSummary codec content (.ok keys) = .ok summary) :
    (summary.getOrCreate t.truncate).shardsCreated = (c.objects t).shards.card := by
  have himage : (keys.filter (IsShardOf t.truncate)).toFinset =
      (c.objects t).shards.image fun n => getBlobFilename (shardName n) t := by
    ext key
    simp only [List.mem_toFinset, List.mem_filter, decide_eq_true_eq, Finset.mem_image]
    constructor
    · rintro ⟨hkey, name, hparse, hp⟩
      obtain ⟨hname, rfl⟩ := (parse_iff hlist hinj ht).mp ⟨hkey, hparse⟩
      obtain ⟨n, hn, rfl⟩ := JobObjects.has_shard_iff.mp ⟨hname, hp⟩
      exact ⟨n, hn, rfl⟩
    · rintro ⟨n, hn, rfl⟩
      obtain ⟨hkey, hparse⟩ := (parse_iff hlist hinj ht).mpr ⟨JobObjects.has_iff.1 n |>.mpr hn, rfl⟩
      exact ⟨hkey, _, hparse, hasPrefix_shardName n⟩
  have hinjective : Function.Injective fun n => getBlobFilename (shardName n) t :=
    fun _ _ h => shardName_injective (getBlobFilename_inj h).2
  rw [shardsCreated_eq h, List.countP_eq_length_filter,
    ← List.toFinset_card_of_nodup (hlist.nodup.filter _), himage,
    Finset.card_image_of_injective _ hinjective]

theorem isTransferred_present (hlist : c.Listing keys content)
    (hinj : Set.InjOn Time.truncate c.present) (ht : t ∈ c.present)
    (h : getBucketSummary codec content (.ok keys) = .ok summary) :
    (summary.getOrCreate t.truncate).isTransferred = (c.objects t).transferStatus := by
  rw [Bool.eq_iff_iff, isTransferred_iff h, ← JobObjects.has_iff.2.2.1]
  constructor
  · rintro ⟨key, hkey, hparse⟩
    exact ((parse_iff hlist hinj ht).mp ⟨hkey, hparse⟩).1
  · intro hname
    exact ⟨_, (parse_iff hlist hinj ht).mpr ⟨hname, rfl⟩⟩

theorem shardsExpected_present (hlist : c.Listing keys content)
    (hinj : Set.InjOn Time.truncate c.present) (ht : t ∈ c.present)
    (h : getBucketSummary codec content (.ok keys) = .ok summary) :
    (summary.getOrCreate t.truncate).shardsExpected = (c.objects t).numShard := by
  refine shardsExpected_eq h _ _ ?_ ?_
  · intro key hkey hparse data metadata hdata hmetadata
    obtain ⟨hname, rfl⟩ := (parse_iff hlist hinj ht).mp ⟨hkey, hparse⟩
    obtain ⟨m, hm⟩ := Option.isSome_iff_exists.mp (JobObjects.has_iff.2.1.mp hname)
    have hstored := hlist.stored t (mem_present.mp ht).1 m hm
    obtain rfl : m.data = data := Except.ok.inj (hstored.symm.trans hdata)
    rw [JobObjects.numShard, hm, Option.map_some, Option.getD_some,
      Except.ok.inj (m.unmarshal_eq.symm.trans hmetadata)]
  · cases hm : (c.objects t).metadata with
    | none => exact Or.inl (by rw [JobObjects.numShard, hm]; rfl)
    | some m =>
      have hname := JobObjects.has_iff.2.1.mpr (by rw [hm]; rfl)
      exact Or.inr ⟨_, (parse_iff hlist hinj ht).mpr ⟨hname, rfl⟩⟩

/-- A summary has the seconds of the jobs with an object. -/
theorem mem_summary_present (hlist : c.Listing keys content)
    (h : getBucketSummary codec content (.ok keys) = .ok summary) {s : Time} :
    s ∈ summary ↔ ∃ t ∈ c.present, t.truncate = s := by
  rw [mem_summary_iff h]
  constructor
  · rintro ⟨key, hkey, name, hparse⟩
    obtain ⟨t, ht, name', hname, rfl⟩ := mem_keys.mp ((hlist.mem_iff key).mp hkey)
    rw [parseBlobFilename_getBlobFilename] at hparse
    exact ⟨t, mem_present.mpr ⟨ht, name', hname⟩, (Prod.mk.inj (Except.ok.inj hparse)).1⟩
  · rintro ⟨t, ht, rfl⟩
    obtain ⟨ht, name, hname⟩ := mem_present.mp ht
    exact ⟨_, (hlist.mem_iff _).mpr (mem_keys.mpr ⟨t, ht, name, hname, rfl⟩), name,
      parseBlobFilename_getBlobFilename name t⟩

end Entry

/-- **What the summary recognises.** For every listing of the objects of jobs, the summary has one
correct entry for each job if and only if no job has the object of the number of shards and the jobs
with an object lie in different seconds. -/
theorem summarized_iff (hlist : c.Listing keys content) :
    c.Summarized keys content ↔
      (∀ t ∈ c.jobs, (c.objects t).shardNum = false) ∧ Set.InjOn Time.truncate c.present := by
  rw [← recognized_iff hlist, ← summary_eq_ok_iff]
  constructor
  · rintro ⟨summary, h, hbij, -⟩
    exact ⟨⟨summary, h⟩, hbij.injOn⟩
  · rintro ⟨⟨summary, h⟩, hinj⟩
    refine ⟨summary, h, ⟨fun t ht => ?_, hinj, fun s hs => ?_⟩, fun t ht => ?_⟩
    · exact (mem_summary_present hlist h).mpr ⟨t, ht, rfl⟩
    · obtain ⟨t, ht, rfl⟩ := (mem_summary_present hlist h).mp hs
      exact ⟨t, ht, rfl⟩
    · have hmem := (mem_summary_present hlist h).mpr ⟨t, ht, rfl⟩
      obtain ⟨s, hs⟩ := Option.isSome_iff_exists.mp (AList.lookup_isSome.mpr hmem)
      have hentry : summary.getOrCreate t.truncate = s := by
        rw [BucketSummary.getOrCreate, hs, Option.getD_some]
      subst hentry
      exact ⟨_, hs, shardsCreated_present hlist hinj ht h,
        isTransferred_present hlist hinj ht h, shardsExpected_present hlist hinj ht h⟩

end Contents

/-! ### Buckets of one and of two jobs -/

/-- The metadata of a job with one shard. -/
def oneShardMetadata : ShardMetadata := ⟨none, some 1, none⟩

/-- A codec for the metadata of a job with one shard. -/
def oneShardCodec : MetadataCodec where
  marshal m := if m = oneShardMetadata then .ok "\x7b\"numShard\":1\x7d" else .error "unknown"
  unmarshal data :=
    if data = "\x7b\"numShard\":1\x7d" then .ok oneShardMetadata else .error "syntax error"
  unmarshal_marshal m data h := by
    split_ifs at h with hm
    obtain rfl := Except.ok.inj h
    rw [if_pos rfl, hm]

/-- A job with one shard and its metadata, with or without the object of the number of shards. -/
def oneShardContents (shardNum : Bool) : Contents oneShardCodec where
  jobs := {epoch}
  objects _ := ⟨{0}, some ⟨"\x7b\"numShard\":1\x7d", oneShardMetadata, rfl⟩, false, shardNum⟩

/-- Its keys. -/
def oneShardKeys (shardNum : Bool) : List String :=
  ([shardName 0, shardMetadataFilename] ++ if shardNum then [shardNumFilename] else []).map
    fun name => getBlobFilename name epoch

theorem oneShardContents_listing (shardNum : Bool) : (oneShardContents shardNum).Listing
    (oneShardKeys shardNum) fun _ => .ok "\x7b\"numShard\":1\x7d" where
  nodup := by
    refine List.Nodup.map (fun _ _ h => (getBlobFilename_inj h).2) ?_
    cases shardNum <;> decide
  mem_iff key := by
    have hnames : ∀ name, name ∈ [shardName 0, shardMetadataFilename] ++
        (if shardNum then [shardNumFilename] else []) ↔
          ((oneShardContents shardNum).objects epoch).Has name := by
      intro name
      cases shardNum <;> simp [oneShardContents, JobObjects.Has, eq_comm]
    simp only [oneShardKeys, List.mem_map, hnames, Contents.mem_keys]
    simp [oneShardContents]
  stored t _ m hm := by
    obtain rfl := Option.some.inj hm
    rfl

/-- A job with its shard and the marker of its transfer, and a later one that has no shard yet. -/
def twoJobContents : Contents oneShardCodec where
  jobs := {epoch, monday}
  objects t := ⟨if t = epoch then {0} else ∅,
    some ⟨"\x7b\"numShard\":1\x7d", oneShardMetadata, rfl⟩, t = epoch, false⟩

/-- Their keys. -/
def twoJobKeys : List String :=
  [getBlobFilename (shardName 0) epoch, getShardMetadataFilename epoch,
    getTransferStatusFilename epoch, getShardMetadataFilename monday]

theorem epoch_ne_monday : epoch ≠ monday := by decide

theorem twoJobContents_listing :
    twoJobContents.Listing twoJobKeys fun _ => .ok "\x7b\"numShard\":1\x7d" where
  nodup := by decide +kernel
  mem_iff key := by
    simp [Contents.mem_keys, twoJobContents, JobObjects.Has, twoJobKeys, epoch_ne_monday,
      getShardMetadataFilename, getTransferStatusFilename, or_assoc, eq_comm]
  stored t _ m hm := by
    obtain rfl := Option.some.inj hm
    rfl

/-- Both jobs are summarized. -/
theorem summarized_iff_twoJobs :
    twoJobContents.Summarized twoJobKeys fun _ => .ok "\x7b\"numShard\":1\x7d" := by
  refine (Contents.summarized_iff twoJobContents_listing).mpr ⟨fun _ _ => rfl, ?_⟩
  have hsecond : ∀ t ∈ twoJobContents.present, t.truncate = t := by
    intro t ht
    have hjob := (Contents.mem_present.mp ht).1
    rw [twoJobContents, Finset.mem_insert, Finset.mem_singleton] at hjob
    rcases hjob with rfl | rfl <;> rfl
  intro t ht u hu h
  rwa [hsecond t ht, hsecond u hu] at h

/-- With the object of the number of shards there is no summary. -/
theorem not_summarized_shardNum :
    (oneShardContents true).Listing (oneShardKeys true)
        (fun _ => .ok "\x7b\"numShard\":1\x7d") ∧
      ¬(oneShardContents true).Summarized (oneShardKeys true)
        fun _ => .ok "\x7b\"numShard\":1\x7d" := by
  refine ⟨oneShardContents_listing true, ?_⟩
  rintro ⟨summary, h, -⟩
  have hnum := (Contents.recognized_iff (oneShardContents_listing true)).mp
    (summary_eq_ok_iff.mp ⟨summary, h⟩) epoch (Finset.mem_singleton_self epoch)
  exact Bool.false_ne_true hnum.symm

end ScorecardInfra.Cron
