import ScorecardInfra.Cron.Summary
import ScorecardInfra.Cron.Worker

/-!
# The controller

The controller publishes a job: it splits the repositories that it reads into requests of
`shardSize` repositories, publishes them, and writes the job's metadata with the number of requests
once all of them have been sent (`ensures_controllerRun`).

## Main definitions

* `RepoFormat`, `Controller`, `publishToRepoRequestTopic`, `controllerRun`.
* `Controller.numShards`, `Controller.protocol`.

## Main results

* `ensures_publishLoop`, `ensures_controllerRun`.

Source: `cron/internal/controller/main.go`, lines 37–187.
-/

namespace ScorecardInfra.Cron

open GoStd Interaction

/-- `RepoFormat`. -/
structure RepoFormat where
  repo : String
  metadata : List String
  deriving DecidableEq

/-- What the controller has read from its configuration, its build and the clock, and `protojson`.
-/
structure Controller where
  shardSize : Int
  bucket : String
  rawBucket : String
  gitCommit : String
  datetime : Time
  requestCodec : RequestCodec
  metadataCodec : MetadataCodec

namespace Controller

variable (ct : Controller)

/-- The request with these repositories and this number. -/
def request (repos : List Repo) (shardNum : Int32) : ScorecardBatchRequest :=
  ⟨repos, some shardNum, some ct.datetime⟩

/-- `Publish`: the request is encoded at once and sent in the background. -/
def publish (request : ScorecardBatchRequest) : Batch Unit := do
  let msg ← Interaction.ofExcept
    (libraryResult "error from protojson.Marshal" (ct.requestCodec.marshal request))
  performBatch (.publish msg)

/-- A repository of a request. -/
def toRepo (repoURL : RepoFormat) : Repo := ⟨some repoURL.repo, some headSHA, repoURL.metadata⟩

/-- The loop of `publishToRepoRequestTopic` over what the iterator returns, with the repositories of
the next request and its number.

Source: `cron/internal/controller/main.go`, lines 50–69. -/
def publishLoop : List (Except CronError RepoFormat) → List Repo → Int32 →
    Batch (List Repo × Int32)
  | [], repos, shardNum => pure (repos, shardNum)
  | next :: iter, repos, shardNum => do
    let repoURL ← Interaction.ofExcept (inContext "error reading repoURL" next)
    let repos := repos ++ [toRepo repoURL]
    if (repos.length : Int) < ct.shardSize then publishLoop iter repos shardNum
    else do
      annotate (.wrapf "error running topicPublisher.Publish")
        (ct.publish (ct.request repos shardNum))
      publishLoop iter [] (shardNum + 1)

/-- The request with the repositories that are left, if there are any; the number of the last
request.

Source: `cron/internal/controller/main.go`, lines 70–78. -/
def publishRest (repos : List Repo) (shardNum : Int32) : Batch Int32 :=
  if 0 < repos.length then do
    annotate (.wrapf "error running topicPublisher.Publish")
      (ct.publish (ct.request repos shardNum))
    return shardNum
  else pure (shardNum - 1)

/-- `publishToRepoRequestTopic`.

Source: `cron/internal/controller/main.go`, lines 37–84. -/
def publishToRepoRequestTopic (iter : List (Except CronError RepoFormat)) : Batch Int32 := do
  let (repos, shardNum) ← ct.publishLoop iter [] 0
  let shardNum ← ct.publishRest repos shardNum
  let closed ← performBatch .closePublisher
  Interaction.ofExcept (inContext "error running topicPublisher.Close" closed)
  return shardNum

/-- The metadata of a job. -/
def metadata (bucket : String) (numShard : Int32) : ShardMetadata :=
  ⟨some (bucket ++ "/" ++ getBlobFilename "" ct.datetime), some numShard, some ct.gitCommit⟩

/-- Encode the metadata and write them to a bucket. -/
def writeMetadata (marshalling writing bucket : String) (numShard : Int32) : Batch Unit := do
  let metadataJSON ← Interaction.ofExcept
    (libraryResult marshalling (ct.metadataCodec.marshal (ct.metadata bucket numShard)))
  writeBlob writing bucket (getShardMetadataFilename ct.datetime) metadataJSON

/-- `main` after the configuration has been read. The errors are those that it panics with.

Source: `cron/internal/controller/main.go`, lines 150–187. -/
def controllerRun (iter : List (Except CronError RepoFormat)) : Batch Unit := do
  let shardNum ← ct.publishToRepoRequestTopic iter
  ct.writeMetadata "error during protojson.Marshal" "error writing to BlobStore" ct.bucket
    (shardNum + 1)
  if ct.rawBucket ≠ "" then
    ct.writeMetadata "error during protojson.Marshal raw" "error writing to BlobStore raw"
      ct.rawBucket (shardNum + 1)
  else pure ()

/-! ### The protocol of the controller -/

/-- The number of repositories of a full request: a bound below 1 fills a request with one. -/
def reposPerShard : Nat := max 1 ct.shardSize.toNat

/-- The number of requests for `n` repositories. -/
def numShards (n : Nat) : Nat := (n + ct.reposPerShard - 1) / ct.reposPerShard

/-- What the controller may do after `m` requests of a job of `k`: it publishes the request with the
next number, and writes the metadata with the number of requests when all of them are published. -/
def May (k m : Nat) : BatchOp → Prop
  | .publish body => m < k ∧
      ∃ repos, ct.requestCodec.marshal (ct.request repos (Int32.ofNat m)) = .ok body
  | .writeToBlobStore _ key data => m = k ∧ key = getShardMetadataFilename ct.datetime ∧
      ∃ bucket, ct.metadataCodec.marshal (ct.metadata bucket (Int32.ofNat k)) = .ok data
  | .closePublisher => True
  | .work _ | .makeGitlabRepo _ | .makeGithubRepo _ | .run _ | .purge _ => False

/-- The protocol of the controller; its state is the number of requests published. -/
def protocol (k : Nat) : Monitor BatchSig Nat where
  allows := ct.May k
  next m e := match e.op with
    | .publish _ => m + 1
    | _ => m

section Protocol

variable {ct : Controller} {k m : Nat} {E : Stop CronError → Nat → Prop}

theorem reposPerShard_pos (ct : Controller) : 0 < ct.reposPerShard := by
  unfold reposPerShard
  omega

/-- Full requests do not exceed the number of requests. -/
theorem lt_numShards {n p : Nat} (hp : 0 < p) (h : m * ct.reposPerShard + p ≤ n) :
    m < ct.numShards n := by
  have hpos := ct.reposPerShard_pos
  rw [numShards, Nat.lt_iff_add_one_le, Nat.le_div_iff_mul_le hpos, Nat.succ_mul]
  omega

/-- Full requests, and one for the rest if there is one. -/
theorem numShards_eq {n p : Nat} (hp : p < ct.reposPerShard) (h : m * ct.reposPerShard + p = n) :
    ct.numShards n = if 0 < p then m + 1 else m := by
  have hpos := ct.reposPerShard_pos
  unfold numShards
  split_ifs with h0
  · refine Nat.div_eq_of_lt_le ?_ ?_ <;> rw [Nat.succ_mul] <;> try rw [Nat.succ_mul]
    all_goals omega
  · refine Nat.div_eq_of_lt_le ?_ ?_
    · omega
    · rw [Nat.succ_mul]
      omega

theorem ensures_publish {repos : List Repo} (hm : m < k) :
    Ensures (ct.protocol k) m
      (annotate (.wrapf "error running topicPublisher.Publish")
        (ct.publish (ct.request repos (Int32.ofNat m))))
      (fun _ m' => m' = m + 1) fun _ _ => True := by
  refine ensures_annotate ?_
  rw [publish]
  refine (ensures_ofExcept (E := fun _ _ => True) (Q := fun body m' => m' = m ∧
    ct.requestCodec.marshal (ct.request repos (Int32.ofNat m)) = .ok body) ?_ ?_).bind ?_
  · exact fun body h => ⟨rfl, libraryResult_eq_ok.mp h⟩
  · exact fun _ _ => trivial
  · rintro body _ ⟨rfl, h⟩
    exact ensures_perform ⟨hm, repos, h⟩ fun _ => rfl

/-- **The loop** publishes full requests, and leaves the rest. -/
theorem ensures_publishLoop {n : Nat} (hk : k = ct.numShards n) :
    (iter : List (Except CronError RepoFormat)) → (repos : List Repo) → (m : Nat) →
      repos.length < ct.reposPerShard →
      m * ct.reposPerShard + repos.length + iter.length = n →
      Ensures (ct.protocol k) m (ct.publishLoop iter repos (Int32.ofNat m))
        (fun r m' => r.2 = Int32.ofNat m' ∧ r.1.length < ct.reposPerShard ∧
          m' * ct.reposPerShard + r.1.length = n) fun _ _ => True
  | [], _, _, hlt, hn => ⟨rfl, hlt, hn⟩
  | .error _ :: _, _, _, _, _ => trivial
  | .ok repoURL :: iter, repos, m, hlt, hn => by
    rw [List.length_cons] at hn
    change Ensures _ _ (if ((repos ++ [toRepo repoURL]).length : Int) < ct.shardSize then _ else _)
      _ _
    have hlen : (repos ++ [toRepo repoURL]).length = repos.length + 1 := List.length_append
    split_ifs with hsize
    · refine ensures_publishLoop hk iter _ m ?_ (by omega)
      unfold reposPerShard
      omega
    · have hfull : repos.length + 1 = ct.reposPerShard := by
        unfold reposPerShard at hlt ⊢
        omega
      have hm : m < k := hk ▸ lt_numShards (by omega) (p := repos.length + 1) (by omega)
      refine (ensures_publish hm).bind ?_
      rintro _ _ rfl
      rw [show Int32.ofNat m + 1 = Int32.ofNat (m + 1) from (Int32.ofNat_add m 1).symm]
      refine ensures_publishLoop hk iter [] (m + 1) ct.reposPerShard_pos ?_
      rw [Nat.succ_mul, List.length_nil]
      omega

/-- All requests are published, and the number returned is that of the last one. -/
theorem ensures_publishToRepoRequestTopic (iter : List (Except CronError RepoFormat))
    (hk : k = ct.numShards iter.length) :
    Ensures (ct.protocol k) 0 (ct.publishToRepoRequestTopic iter)
      (fun shardNum m => shardNum + 1 = Int32.ofNat k ∧ m = k) fun _ _ => True := by
  refine (ensures_publishLoop hk iter [] 0 ct.reposPerShard_pos (by simp)).bind ?_
  rintro ⟨repos, shardNum⟩ m ⟨rfl, hlt, hn⟩
  rw [numShards_eq hlt hn] at hk
  refine Ensures.bind (Q := fun shardNum m => shardNum + 1 = Int32.ofNat k ∧ m = k) ?_ ?_
  · rw [publishRest]
    split_ifs with hp
    · rw [if_pos hp] at hk
      refine (ensures_publish (by omega)).bind ?_
      rintro _ _ rfl
      exact ⟨hk ▸ (Int32.ofNat_add m 1).symm, hk.symm⟩
    · rw [if_neg hp] at hk
      exact ⟨hk ▸ Int32.sub_add_cancel _ _, hk.symm⟩
  · intro shardNum m h
    refine ensures_perform_bind trivial ?_
    rintro (_ | _)
    exacts [trivial, h]

theorem ensures_writeMetadata {marshalling writing bucket : String} :
    Ensures (ct.protocol k) k
      (ct.writeMetadata marshalling writing bucket (Int32.ofNat k)) (fun _ m => m = k)
      fun _ _ => True := by
  refine (ensures_ofExcept (E := fun _ _ => True) (Q := fun data m => m = k ∧
    ct.metadataCodec.marshal (ct.metadata bucket (Int32.ofNat k)) = .ok data) ?_ ?_).bind ?_
  · exact fun data h => ⟨rfl, libraryResult_eq_ok.mp h⟩
  · exact fun _ _ => trivial
  · rintro data _ ⟨rfl, h⟩
    refine ensures_perform_bind ⟨rfl, rfl, bucket, h⟩ ?_
    rintro (_ | _)
    exacts [trivial, rfl]

/-- **The controller keeps to its protocol.** -/
theorem ensures_controllerRun (ct : Controller) (iter : List (Except CronError RepoFormat)) :
    Ensures (ct.protocol (ct.numShards iter.length)) 0 (ct.controllerRun iter) (fun _ _ => True)
      fun _ _ => True := by
  refine (ensures_publishToRepoRequestTopic iter rfl).bind ?_
  rintro shardNum _ ⟨hnum, rfl⟩
  rw [hnum]
  refine ensures_writeMetadata.bind ?_
  rintro _ _ rfl
  split
  · exact ensures_writeMetadata.mono (fun _ _ _ => trivial) fun _ _ _ => trivial
  · exact trivial

end Protocol

end Controller

end ScorecardInfra.Cron
