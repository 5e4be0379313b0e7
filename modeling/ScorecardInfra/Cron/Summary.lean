import ScorecardInfra.Cron.Blob

/-!
# The summary of a bucket

`getBucketSummary` lists the keys of a bucket and groups them by the seconds of their jobs: it
counts the shards, and reads the metadata for the number of shards that a job is to have. A key that
it does not know, or metadata that it cannot read, is an error for the whole bucket.

`summary_eq_ok_iff` says when there is a summary, `shardsCreated_eq` and `shardsExpected_eq` what it
says about a job.

## Main definitions

* `ShardMetadata`, `MetadataCodec`, `ShardSummary`, `BucketSummary`, `getBucketSummary`.
* `IsShardOf`, `Recognized`.

## Main results

* `summary_eq_ok_iff`, `shardsCreated_eq`, `shardsExpected_eq`, `mem_summary`.

Source: `cron/data/summary.go`.
-/

namespace ScorecardInfra.Cron

open GoStd Interaction

/-! ### Data -/

/-- `ShardMetadata`. -/
structure ShardMetadata where
  shardLoc : Option String
  numShard : Option Int32
  commitSha : Option String
  deriving DecidableEq

/-- `GetNumShard`. -/
def ShardMetadata.getNumShard (m : ShardMetadata) : Int32 := m.numShard.getD 0

/-- `protojson` at the type `ShardMetadata`: it reads back what it writes. -/
structure MetadataCodec where
  marshal : ShardMetadata → Except String String
  unmarshal : String → Except String ShardMetadata
  unmarshal_marshal : ∀ m data, marshal m = .ok data → unmarshal data = .ok m

/-- `ShardSummary`. -/
structure ShardSummary where
  creationTime : Time
  shardMetadata : String
  shardsExpected : Int
  shardsCreated : Nat
  isTransferred : Bool
  deriving DecidableEq

/-- The summary of a job without objects. -/
def ShardSummary.new (t : Time) : ShardSummary := ⟨t, "", 0, 0, false⟩

/-- `BucketSummary`. -/
abbrev BucketSummary : Type := GoMap Time ShardSummary

namespace BucketSummary

/-- What `getOrCreate` returns. -/
def getOrCreate (summary : BucketSummary) (t : Time) : ShardSummary :=
  (summary.lookup t).getD (.new t)

/-- Change what `getOrCreate` returns. -/
def update (t : Time) (f : ShardSummary → ShardSummary) (summary : BucketSummary) : BucketSummary :=
  summary.insert t (f (summary.getOrCreate t))

theorem getOrCreate_update (t t' : Time) (f : ShardSummary → ShardSummary)
    (summary : BucketSummary) : (summary.update t f).getOrCreate t' =
      if t' = t then f (summary.getOrCreate t) else summary.getOrCreate t' := by
  unfold update getOrCreate
  split_ifs with h
  · rw [h, AList.lookup_insert, Option.getD_some]
  · rw [AList.lookup_insert_ne h]

end BucketSummary

/-! ### The summary -/

variable (codec : MetadataCodec) (content : String → Except String String)

/-- The body of the loop of `GetBucketSummary`, for a key; `content` is `GetBlobContent`.

Source: `cron/data/summary.go`, lines 106–131. -/
def summarizeKey (summary : BucketSummary) (key : String) : Except CronError BucketSummary := do
  let (creationTime, filename) ← inContext "error parsing Blob key" (parseBlobFilename key)
  if Strings.hasPrefix filename "shard-" then
    return summary.update creationTime fun s => { s with shardsCreated := s.shardsCreated + 1 }
  else if filename = transferStatusFilename then
    return summary.update creationTime fun s => { s with isTransferred := true }
  else if filename = shardMetadataFilename then
    let keyData ← libraryResult "error during GetBlobContent" (content key)
    let metadata ← libraryResult "error parsing data as ShardMetadata" (codec.unmarshal keyData)
    return summary.update creationTime fun s =>
      { s with shardsExpected := metadata.getNumShard.toInt, shardMetadata := keyData }
  else .error (.text ("found unrecognized file: " ++ key))

/-- `GetBucketSummary`, with what `GetBlobKeys` and `GetBlobContent` return.

Source: `cron/data/summary.go`, lines 94–134. -/
def getBucketSummary (keys : Except String (List String)) : Except CronError BucketSummary := do
  let keys ← libraryResult "error getting BlobKeys" keys
  keys.foldlM (summarizeKey codec content) ∅

/-! ### What a summary says -/

/-- The key is one of a shard of the job at `t`. -/
def IsShardOf (t : Time) (key : String) : Prop :=
  ∃ filename, parseBlobFilename key = .ok (t, filename) ∧ Strings.hasPrefix filename "shard-" = true

instance (t : Time) : DecidablePred (IsShardOf t) := fun key =>
  match h : parseBlobFilename key with
  | .error _ => isFalse fun ⟨_, hk, _⟩ => by rw [h] at hk; cases hk
  | .ok (t', filename) => decidable_of_iff
      (t' = t ∧ Strings.hasPrefix filename "shard-" = true) (by
        unfold IsShardOf
        rw [h]
        simp only [Except.ok.injEq, Prod.mk.injEq]
        constructor
        · rintro ⟨rfl, hp⟩
          exact ⟨filename, ⟨rfl, rfl⟩, hp⟩
        · rintro ⟨_, ⟨rfl, rfl⟩, hp⟩
          exact ⟨rfl, hp⟩)

/-- The key is one of the metadata of the job at `t`. -/
def IsMetadataOf (t : Time) (key : String) : Prop :=
  parseBlobFilename key = .ok (t, shardMetadataFilename)

/-- A key that a summary can contain: a shard, a transfer's marker, or metadata that can be read. -/
def Recognized (key : String) : Prop :=
  (∃ t, IsShardOf t key) ∨ (∃ t, parseBlobFilename key = .ok (t, transferStatusFilename)) ∨
    ∃ t data metadata, IsMetadataOf t key ∧ content key = .ok data ∧
      codec.unmarshal data = .ok metadata

variable {codec content}

/-- **One key.** What the loop's body does to a summary, if it succeeds. -/
theorem summarizeKey_eq_ok {summary summary' : BucketSummary} {key : String} :
    summarizeKey codec content summary key = .ok summary' ↔
      ∃ t filename, parseBlobFilename key = .ok (t, filename) ∧
        ((Strings.hasPrefix filename "shard-" = true ∧
            summary' = summary.update t fun s => { s with shardsCreated := s.shardsCreated + 1 }) ∨
          (filename = transferStatusFilename ∧
            summary' = summary.update t fun s => { s with isTransferred := true }) ∨
          ∃ data metadata, filename = shardMetadataFilename ∧ content key = .ok data ∧
            codec.unmarshal data = .ok metadata ∧ summary' = summary.update t fun s =>
              { s with shardsExpected := metadata.getNumShard.toInt, shardMetadata := data }) := by
  have htransfer : Strings.hasPrefix transferStatusFilename "shard-" = false := by decide
  have hmetadata : Strings.hasPrefix shardMetadataFilename "shard-" = false := by decide
  have hne : shardMetadataFilename ≠ transferStatusFilename := by decide
  rw [summarizeKey, except_bind_eq_ok]
  simp only [inContext_eq_ok, Prod.exists]
  refine exists_congr fun t => exists_congr fun filename => and_congr_right fun _ => ?_
  by_cases h₁ : Strings.hasPrefix filename "shard-" = true
  · rw [if_pos h₁]
    constructor
    · intro h
      exact Or.inl ⟨h₁, (Except.ok.inj h).symm⟩
    · rintro (⟨-, rfl⟩ | ⟨rfl, -⟩ | ⟨_, _, rfl, -⟩)
      · rfl
      · simp [htransfer] at h₁
      · simp [hmetadata] at h₁
  rw [if_neg h₁]
  by_cases h₂ : filename = transferStatusFilename
  · rw [if_pos h₂]
    constructor
    · intro h
      exact Or.inr (Or.inl ⟨h₂, (Except.ok.inj h).symm⟩)
    · rintro (⟨h, -⟩ | ⟨-, rfl⟩ | ⟨_, _, h, -⟩)
      · exact absurd h h₁
      · rfl
      · exact absurd (h.symm.trans h₂) hne
  rw [if_neg h₂]
  by_cases h₃ : filename = shardMetadataFilename
  · rw [if_pos h₃]
    simp only [except_bind_eq_ok, libraryResult_eq_ok]
    constructor
    · rintro ⟨data, hdata, metadata, hparse, h⟩
      exact Or.inr (Or.inr ⟨data, metadata, h₃, hdata, hparse, (Except.ok.inj h).symm⟩)
    · rintro (⟨h, -⟩ | ⟨h, -⟩ | ⟨data, metadata, -, hdata, hparse, rfl⟩)
      · exact absurd h h₁
      · exact absurd h h₂
      · exact ⟨data, hdata, metadata, hparse, rfl⟩
  · rw [if_neg h₃]
    constructor
    · intro h
      cases h
    · rintro (⟨h, -⟩ | ⟨h, -⟩ | ⟨_, _, h, -⟩)
      exacts [absurd h h₁, absurd h h₂, absurd h h₃]

/-- A key can be summarized if it is recognized. -/
theorem exists_summarizeKey_iff (summary : BucketSummary) {key : String} :
    (∃ summary', summarizeKey codec content summary key = .ok summary') ↔
      Recognized codec content key := by
  constructor
  · rintro ⟨summary', h⟩
    obtain ⟨t, filename, hparse, hkind⟩ := summarizeKey_eq_ok.mp h
    rcases hkind with ⟨hshard, -⟩ | ⟨rfl, -⟩ | ⟨data, metadata, rfl, hdata, hmetadata, -⟩
    · exact Or.inl ⟨t, filename, hparse, hshard⟩
    · exact Or.inr (Or.inl ⟨t, hparse⟩)
    · exact Or.inr (Or.inr ⟨t, data, metadata, hparse, hdata, hmetadata⟩)
  · rintro (⟨t, filename, hparse, hshard⟩ | ⟨t, hparse⟩ | ⟨t, data, metadata, hparse, hdata, hmd⟩)
    · exact ⟨_, summarizeKey_eq_ok.mpr ⟨t, filename, hparse, Or.inl ⟨hshard, rfl⟩⟩⟩
    · exact ⟨_, summarizeKey_eq_ok.mpr ⟨t, _, hparse, Or.inr (Or.inl ⟨rfl, rfl⟩)⟩⟩
    · exact ⟨_, summarizeKey_eq_ok.mpr
        ⟨t, _, hparse, Or.inr (Or.inr ⟨data, metadata, rfl, hdata, hmd, rfl⟩)⟩⟩

/-- **When there is a summary.** All keys are recognized. -/
theorem summary_eq_ok_iff {keys : List String} :
    (∃ summary, getBucketSummary codec content (.ok keys) = .ok summary) ↔
      ∀ key ∈ keys, Recognized codec content key := by
  have hloop : ∀ (keys : List String) (summary : BucketSummary),
      (∃ summary', keys.foldlM (summarizeKey codec content) summary = .ok summary') ↔
        ∀ key ∈ keys, Recognized codec content key := by
    intro keys
    induction keys with
    | nil => exact fun summary => ⟨fun _ _ h => absurd h List.not_mem_nil, fun _ => ⟨summary, rfl⟩⟩
    | cons key keys ih =>
      intro summary
      simp only [List.foldlM_cons, except_bind_eq_ok]
      rw [List.forall_mem_cons, ← exists_summarizeKey_iff summary]
      constructor
      · rintro ⟨summary'', summary', h, hkeys⟩
        exact ⟨⟨summary', h⟩, (ih summary').mp ⟨_, hkeys⟩⟩
      · rintro ⟨⟨summary', h⟩, hkeys⟩
        obtain ⟨summary'', h'⟩ := (ih summary').mpr hkeys
        exact ⟨summary'', summary', h, h'⟩
  exact hloop keys ∅

/-- An invariant of the loop over the keys. -/
theorem summary_induct {I : List String → BucketSummary → Prop} (hnil : I [] ∅)
    (hstep : ∀ done key summary summary', I done summary →
      summarizeKey codec content summary key = .ok summary' → I (done ++ [key]) summary')
    {keys : List String} {summary : BucketSummary}
    (h : getBucketSummary codec content (.ok keys) = .ok summary) : I keys summary := by
  have hloop : ∀ (keys done : List String) (summary summary' : BucketSummary), I done summary →
      keys.foldlM (summarizeKey codec content) summary = .ok summary' →
        I (done ++ keys) summary' := by
    intro keys
    induction keys with
    | nil =>
      intro done summary summary' hI h
      obtain rfl := Except.ok.inj h
      rwa [List.append_nil]
    | cons key keys ih =>
      intro done summary summary' hI h
      rw [List.foldlM_cons, except_bind_eq_ok] at h
      obtain ⟨summary'', hkey, hkeys⟩ := h
      have := ih (done ++ [key]) summary'' summary' (hstep _ _ _ _ hI hkey) hkeys
      rwa [List.append_assoc] at this
  exact hloop keys [] ∅ summary hnil h

/-- **Shards.** A summary counts the keys of a job's shards. -/
theorem shardsCreated_eq {keys : List String} {summary : BucketSummary}
    (h : getBucketSummary codec content (.ok keys) = .ok summary) (t : Time) :
    (summary.getOrCreate t).shardsCreated = keys.countP (IsShardOf t) := by
  refine summary_induct (I := fun keys summary =>
    (summary.getOrCreate t).shardsCreated = keys.countP (IsShardOf t)) rfl ?_ h
  intro done key summary summary' ih hkey
  obtain ⟨t', filename, hparse, hkind⟩ := summarizeKey_eq_ok.mp hkey
  rw [List.countP_append, List.countP_singleton, ← ih]
  have hshard : IsShardOf t key ↔ t = t' ∧ Strings.hasPrefix filename "shard-" = true := by
    unfold IsShardOf
    rw [hparse]
    simp only [Except.ok.injEq, Prod.mk.injEq]
    constructor
    · rintro ⟨_, ⟨rfl, rfl⟩, hp⟩
      exact ⟨rfl, hp⟩
    · rintro ⟨rfl, hp⟩
      exact ⟨filename, ⟨rfl, rfl⟩, hp⟩
  -- a key of another kind leaves the number as it is
  have hother : ∀ f : ShardSummary → ShardSummary, Strings.hasPrefix filename "shard-" = false →
      (∀ s, (f s).shardsCreated = s.shardsCreated) →
      ((summary.update t' f).getOrCreate t).shardsCreated =
        (summary.getOrCreate t).shardsCreated + if IsShardOf t key then 1 else 0 := by
    intro f hp hf
    have hnot : ¬IsShardOf t key := by simp [hshard, hp]
    rw [BucketSummary.getOrCreate_update, if_neg hnot, Nat.add_zero]
    split_ifs with ht
    · rw [hf, ht]
    · rfl
  simp only [decide_eq_true_eq]
  rcases hkind with ⟨hp, rfl⟩ | ⟨rfl, rfl⟩ | ⟨data, metadata, rfl, -, -, rfl⟩
  · rw [BucketSummary.getOrCreate_update]
    simp only [hshard, hp, and_true]
    split_ifs with ht
    · rw [ht]
    · rfl
  · exact hother _ (by decide) fun _ => rfl
  · exact hother _ (by decide) fun _ => rfl

/-- **The expected number of shards** is read from the job's metadata, where all of it says the
same; it is 0 without metadata. -/
theorem shardsExpected_eq {keys : List String} {summary : BucketSummary}
    (h : getBucketSummary codec content (.ok keys) = .ok summary) (t : Time) (n : Int)
    (hmetadata : ∀ key ∈ keys, IsMetadataOf t key → ∀ data metadata, content key = .ok data →
      codec.unmarshal data = .ok metadata → metadata.getNumShard.toInt = n)
    (hexists : n = 0 ∨ ∃ key ∈ keys, IsMetadataOf t key) :
    (summary.getOrCreate t).shardsExpected = n := by
  suffices hall : (∀ key ∈ keys, IsMetadataOf t key → ∀ data metadata, content key = .ok data →
      codec.unmarshal data = .ok metadata → metadata.getNumShard.toInt = n) →
      (n = 0 ∨ ∃ key ∈ keys, IsMetadataOf t key) → (summary.getOrCreate t).shardsExpected = n from
    hall hmetadata hexists
  refine summary_induct (I := fun keys summary =>
    (∀ key ∈ keys, IsMetadataOf t key → ∀ data metadata, content key = .ok data →
      codec.unmarshal data = .ok metadata → metadata.getNumShard.toInt = n) →
      (n = 0 ∨ ∃ key ∈ keys, IsMetadataOf t key) → (summary.getOrCreate t).shardsExpected = n)
    (fun _ h => (h.resolve_right fun ⟨_, h, _⟩ => absurd h List.not_mem_nil).symm) ?_ h
  intro done key summary summary' ih hkey hall hex
  obtain ⟨t', filename, hparse, hkind⟩ := summarizeKey_eq_ok.mp hkey
  simp only [List.forall_mem_append, List.forall_mem_singleton] at hall
  -- a key that is no metadata of the job leaves its number as it is
  have hother : ∀ f : ShardSummary → ShardSummary, ¬IsMetadataOf t key →
      (t = t' → (f (summary.getOrCreate t')).shardsExpected =
        (summary.getOrCreate t').shardsExpected) →
      ((summary.update t' f).getOrCreate t).shardsExpected = n := by
    intro f hnot hf
    have hdone : n = 0 ∨ ∃ key ∈ done, IsMetadataOf t key := by
      refine hex.imp_right ?_
      rintro ⟨key', hmem, hmd⟩
      rcases List.mem_append.mp hmem with hmem | hmem
      · exact ⟨key', hmem, hmd⟩
      · rw [List.mem_singleton.mp hmem] at hmd
        exact absurd hmd hnot
    rw [BucketSummary.getOrCreate_update]
    split_ifs with ht
    · rw [hf ht, ← ht, ih hall.1 hdone]
    · exact ih hall.1 hdone
  have hmd : IsMetadataOf t key ↔ t = t' ∧ filename = shardMetadataFilename := by
    rw [IsMetadataOf, hparse, Except.ok.injEq, Prod.mk.injEq, eq_comm (a := t')]
  rcases hkind with ⟨hp, rfl⟩ | ⟨rfl, rfl⟩ | ⟨data, metadata, rfl, hdata, hparse', rfl⟩
  · refine hother _ ?_ fun _ => rfl
    rw [hmd]
    rintro ⟨-, rfl⟩
    exact absurd hp (by decide)
  · refine hother _ ?_ fun _ => rfl
    rw [hmd]
    rintro ⟨-, h⟩
    exact absurd h (by decide)
  · by_cases ht : t = t'
    · rw [BucketSummary.getOrCreate_update, if_pos ht]
      exact hall.2 (hmd.mpr ⟨ht, rfl⟩) data metadata hdata hparse'
    · exact hother _ (fun h => ht (hmd.mp h).1) fun h => absurd h ht

/-- A job with an object is in the summary. -/
theorem mem_summary {keys : List String} {summary : BucketSummary}
    (h : getBucketSummary codec content (.ok keys) = .ok summary) {key filename : String} {t : Time}
    (hkey : key ∈ keys) (hparse : parseBlobFilename key = .ok (t, filename)) : t ∈ summary := by
  refine summary_induct (I := fun keys summary => key ∈ keys → t ∈ summary)
    (fun h => absurd h List.not_mem_nil) ?_ h hkey
  intro done key' summary summary' ih hkey' hmem
  obtain ⟨t', filename', hparse', hkind⟩ := summarizeKey_eq_ok.mp hkey'
  have hupdate : ∀ f : ShardSummary → ShardSummary, t ∈ summary.update t' f := by
    intro f
    rw [BucketSummary.update, AList.mem_insert]
    rcases List.mem_append.mp hmem with hmem | hmem
    · exact Or.inr (ih hmem)
    · rw [← List.mem_singleton.mp hmem, hparse] at hparse'
      exact Or.inl (Prod.mk.inj (Except.ok.inj hparse')).1
  rcases hkind with ⟨-, rfl⟩ | ⟨-, rfl⟩ | ⟨data, metadata, -, -, -, rfl⟩
  exacts [hupdate _, hupdate _, hupdate _]

end ScorecardInfra.Cron
