import ScorecardInfra.Cron.Worker

/-!
# The contents of a shard

A run of `processRequest` that comes to write the shard has handled every repository of the request,
one after the other: it has skipped it, or has written its four exports (`Handled`). The shard is
the concatenation of the records of the repositories that were not skipped, and so is the raw shard,
which is written before it (`canonical_shard_last`).

## Main definitions

* `Record`, `RepoRun`, `Handled`, `resultsShard`, `rawShard`.

## Main results

* `exec_processRepo_ok`, `exec_processRepos_ok`, `canonical_shard_last`.

Source: `cron/internal/worker/main.go`, lines 175–337.
-/

namespace ScorecardInfra.Cron

open GoStd Interaction

/-! ### Records -/

/-- What is exported for a repository. -/
structure Record where
  uri : String
  commitSHA : String
  json : String
  raw : String
  deriving DecidableEq

/-- The four exports of a record have been written. -/
structure Record.ExportedIn (apiBucketURL : String) (record : Record) (t : Trace BatchSig) :
    Prop where
  latest : ⟨.writeToBlobStore apiBucketURL (record.uri ++ "/results.json") record.json, .ok ()⟩ ∈ t
  pinned : ⟨.writeToBlobStore apiBucketURL
    (record.uri ++ "/" ++ record.commitSHA ++ "/results.json")
    record.json, .ok ()⟩ ∈ t
  rawLatest : ⟨.writeToBlobStore apiBucketURL (record.uri ++ "/raw.json") record.raw, .ok ()⟩ ∈ t
  rawPinned : ⟨.writeToBlobStore apiBucketURL (record.uri ++ "/" ++ record.commitSHA ++ "/raw.json")
    record.raw, .ok ()⟩ ∈ t

/-- A repository is skipped: its URL is not valid, or it cannot be reached, or its organization has
a list of IP addresses that may. -/
inductive Skipped (repoReq : Repo) (t : Trace BatchSig) : Prop
  | invalidURL (gitlabErr githubErr : String)
      (gitlab : ⟨.makeGitlabRepo (repoReq.url.getD ""), .error gitlabErr⟩ ∈ t)
      (github : ⟨.makeGithubRepo (repoReq.url.getD ""), .error githubErr⟩ ∈ t)
  | notScanned (job : ScanJob) (err : ScanError) (run : ⟨.run job, .error err⟩ ∈ t)
      (reason : err.isRepoUnreachable = true ∨
        Strings.contains err.message "organization has an IP allow list" = true)

namespace ScorecardWorker

variable (sw : ScorecardWorker)

/-- The result of a scan, with the engine and the time of the job. -/
def stamped (jobTime : Time) (result : ScanResult) : ScanResult :=
  { result with
    scorecardVersion := sw.engine.1, scorecardCommitSHA := sw.engine.2, date := jobTime }

/-- A repository is scanned, and its record written. -/
structure Published (jobTime : Time) (repoReq : Repo) (t : Trace BatchSig) (record : Record) :
    Prop where
  repo : ∃ repo : RepoInfo, record.uri = repo.uri ∧
    (⟨.makeGitlabRepo (repoReq.url.getD ""), .ok repo⟩ ∈ t ∨
      ⟨.makeGithubRepo (repoReq.url.getD ""), .ok repo⟩ ∈ t)
  scan : ∃ job result, job.repo.uri = record.uri ∧ ⟨.run job, .ok result⟩ ∈ t ∧
    record.commitSHA = result.repoCommitSHA ∧
    sw.asJSON2 (sw.stamped jobTime result) = .ok record.json ∧
    sw.asRawJSON (sw.stamped jobTime result) = .ok record.raw
  exported : record.ExportedIn sw.apiBucketURL t

end ScorecardWorker

/-- What a run has done with a repository: its events, and the record, unless it was skipped. -/
structure RepoRun where
  events : Trace BatchSig
  record : Option Record

/-- A repository is skipped without a record, or published with one. -/
def ScorecardWorker.Handled (sw : ScorecardWorker) (jobTime : Time) (repoReq : Repo) :
    RepoRun → Prop
  | ⟨t, none⟩ => Skipped repoReq t
  | ⟨t, some record⟩ => sw.Published jobTime repoReq t record

/-- The shard of some repositories. -/
def resultsShard (done : List RepoRun) : String :=
  String.join ((done.filterMap RepoRun.record).map Record.json)

/-- The raw shard. -/
def rawShard (done : List RepoRun) : String :=
  String.join ((done.filterMap RepoRun.record).map Record.raw)

/-- The buffers after some more repositories. -/
def Buffers.after (buffers : Buffers) (done : List RepoRun) : Buffers :=
  ⟨buffers.results ++ resultsShard done, buffers.raw ++ rawShard done⟩

theorem Buffers.after_nil (buffers : Buffers) : buffers.after [] = buffers := by
  simp [Buffers.after, resultsShard, rawShard]

theorem Buffers.after_cons (buffers : Buffers) (d : RepoRun) (done : List RepoRun) :
    buffers.after (d :: done) = (buffers.after [d]).after done := by
  cases hd : d.record <;> simp [Buffers.after, resultsShard, rawShard, hd, String.append_assoc]

/-! ### The loop over the repositories -/

section Runs

variable {sw : ScorecardWorker} {jobTime : Time} {repoReq : Repo} {buffers buffers' : Buffers}
  {t : Trace BatchSig}

/-- A write that succeeds. -/
theorem exec_writeBlob_ok {context bucketURL filename data : String}
    (h : Exec (writeBlob context bucketURL filename data).run t (some (.ok ()))) :
    t = [⟨.writeToBlobStore bucketURL filename data, .ok ()⟩] := by
  obtain ⟨t₁, answer, t₂, rfl, h₁, h₂⟩ := exec_run_bind_ok.mp h
  obtain rfl := exec_run_perform_ok.mp h₁
  obtain ⟨rfl, hok⟩ := exec_ofExcept_ok.mp h₂
  rw [inContext_eq_ok.mp hok]
  rfl

/-- A write and what follows it, if it succeeds. -/
theorem exec_writeBlob_bind {α : Type} {context bucketURL filename data : String}
    {f : Unit → Batch α} {e : Event BatchSig} {r : Option (Except (Stop CronError) α)}
    (h : Exec (writeBlob context bucketURL filename data >>= f).run (e :: t) r) :
    e.op = .writeToBlobStore bucketURL filename data ∧
      (t = [] ∨ e = ⟨.writeToBlobStore bucketURL filename data, .ok ()⟩ ∧ Exec (f ()).run t r) := by
  cases h with
  | op x h =>
    rcases x with err | ⟨⟩
    · exact ⟨rfl, Or.inl (exec_ret_iff.mp h).1⟩
    · exact ⟨rfl, Or.inr ⟨rfl, h⟩⟩

/-- The URL of a repository, or two errors. -/
theorem exec_makeRepo_ok {url : String} {made : Option (RepoInfo × Bool)}
    (h : Exec (ScorecardWorker.makeRepo url).run t (some (.ok made))) :
    (∃ repo gitlab, made = some (repo, gitlab) ∧
      (⟨.makeGitlabRepo url, .ok repo⟩ ∈ t ∨ ⟨.makeGithubRepo url, .ok repo⟩ ∈ t)) ∨
    made = none ∧ ∃ gitlabErr githubErr,
      ⟨.makeGitlabRepo url, .error gitlabErr⟩ ∈ t ∧
        ⟨.makeGithubRepo url, .error githubErr⟩ ∈ t := by
  obtain ⟨t₁, answer, t₂, rfl, h₁, h₂⟩ := exec_run_bind_ok.mp h
  obtain rfl := exec_run_perform_ok.mp h₁
  rcases answer with gitlabErr | repo
  · obtain ⟨t₃, answer, t₄, rfl, h₃, h₄⟩ := exec_run_bind_ok.mp h₂
    obtain rfl := exec_run_perform_ok.mp h₃
    rcases answer with githubErr | repo
    · obtain ⟨rfl, rfl⟩ := exec_pure_ok.mp h₄
      exact Or.inr ⟨rfl, gitlabErr, githubErr, by simp, by simp⟩
    · obtain ⟨rfl, rfl⟩ := exec_pure_ok.mp h₄
      exact Or.inl ⟨repo, false, rfl, by simp⟩
  · obtain ⟨rfl, rfl⟩ := exec_pure_ok.mp h₂
    exact Or.inl ⟨repo, true, rfl, by simp⟩

/-- The exports of a repository. -/
theorem exec_exportResult_ok {repo : RepoInfo} {sha json raw : String}
    (h : Exec (sw.exportResult repo sha json raw).run t (some (.ok ()))) :
    Record.ExportedIn sw.apiBucketURL ⟨repo.uri, sha, json, raw⟩ t := by
  obtain ⟨t₁, ⟨⟩, u₁, rfl, h₁, h⟩ := exec_run_bind_ok.mp h
  obtain ⟨t₂, -, u₂, rfl, -, h⟩ := exec_run_bind_ok.mp h
  obtain ⟨t₃, ⟨⟩, u₃, rfl, h₃, h⟩ := exec_run_bind_ok.mp h
  obtain ⟨t₄, -, u₄, rfl, -, h⟩ := exec_run_bind_ok.mp h
  obtain ⟨t₅, ⟨⟩, u₅, rfl, h₅, h₆⟩ := exec_run_bind_ok.mp h
  rw [exec_writeBlob_ok h₁, exec_writeBlob_ok h₃, exec_writeBlob_ok h₅, exec_writeBlob_ok h₆]
  exact ⟨by simp, by simp, by simp, by simp⟩

/-- The result of a scan that is published. -/
theorem exec_publishScan_ok {repo : RepoInfo} {result : ScanResult}
    (h : Exec (sw.publishScan jobTime repo buffers result).run t (some (.ok buffers'))) :
    ∃ json raw, sw.asJSON2 (sw.stamped jobTime result) = .ok json ∧
      sw.asRawJSON (sw.stamped jobTime result) = .ok raw ∧
      Record.ExportedIn sw.apiBucketURL ⟨repo.uri, result.repoCommitSHA, json, raw⟩ t ∧
      buffers' = ⟨buffers.results ++ json, buffers.raw ++ raw⟩ := by
  obtain ⟨t₁, ⟨⟩, u₁, rfl, h₁, h⟩ := exec_run_bind_ok.mp h
  obtain ⟨t₂, results, u₂, rfl, h₂, h⟩ := exec_run_bind_ok.mp h
  obtain ⟨t₃, json, u₃, rfl, h₃, h⟩ := exec_run_bind_ok.mp h
  obtain ⟨t₄, exportRaw, u₄, rfl, h₄, h⟩ := exec_run_bind_ok.mp h
  obtain ⟨t₅, raw, u₅, rfl, h₅, h⟩ := exec_run_bind_ok.mp h
  obtain ⟨t₆, ⟨⟩, u₆, rfl, h₆, h⟩ := exec_run_bind_ok.mp h
  obtain ⟨rfl, rfl⟩ := exec_pure_ok.mp h
  obtain ⟨rfl, -⟩ := exec_ofExcept_ok.mp h₁
  obtain ⟨rfl, hresults⟩ := exec_ofExcept_ok.mp h₂
  obtain ⟨rfl, hjson⟩ := exec_ofExcept_ok.mp h₃
  obtain ⟨rfl, hexportRaw⟩ := exec_ofExcept_ok.mp h₄
  obtain ⟨rfl, hraw⟩ := exec_ofExcept_ok.mp h₅
  -- the serializers give the buffers and the exports the same bytes
  have hsame := (libraryResult_eq_ok.mp hresults).symm.trans (libraryResult_eq_ok.mp hjson)
  have hsameRaw := (libraryResult_eq_ok.mp hexportRaw).symm.trans (libraryResult_eq_ok.mp hraw)
  obtain rfl := Except.ok.inj hsame
  obtain rfl := Except.ok.inj hsameRaw
  refine ⟨results, exportRaw, libraryResult_eq_ok.mp hresults,
    libraryResult_eq_ok.mp hexportRaw, ?_,
    rfl⟩
  simpa using exec_exportResult_ok h₆

/-- A scan that is skipped. -/
theorem scanned_eq_none {answer : Except ScanError ScanResult}
    (h : ScorecardWorker.scanned answer = .ok none) : ∃ err, answer = .error err ∧
      (err.isRepoUnreachable = true ∨
        Strings.contains err.message "organization has an IP allow list" = true) := by
  cases answer with
  | ok result => cases h
  | error err =>
    refine ⟨err, rfl, ?_⟩
    dsimp only [ScorecardWorker.scanned] at h
    split_ifs at h with hunreachable hallow
    exacts [Or.inl hunreachable, Or.inr hallow]

theorem scanned_eq_some {answer : Except ScanError ScanResult} {result : ScanResult}
    (h : ScorecardWorker.scanned answer = .ok (some result)) : answer = .ok result := by
  cases answer with
  | ok result' =>
    obtain rfl := Option.some.inj (Except.ok.inj h)
    rfl
  | error err =>
    dsimp only [ScorecardWorker.scanned] at h
    split_ifs at h <;> cases h

theorem scanJob_repo_uri {repo : RepoInfo} {gitlab : Bool} {job : ScanJob}
    (h : sw.scanJob repoReq repo gitlab = .ok job) : job.repo.uri = repo.uri := by
  obtain ⟨checks, -, hjob⟩ := except_bind_eq_ok.mp h
  obtain rfl := Except.ok.inj hjob
  rfl

/-- **One repository.** -/
theorem exec_processRepo_ok
    (hrun : Exec (sw.processRepo jobTime repoReq buffers).run t (some (.ok buffers'))) :
    ∃ record, sw.Handled jobTime repoReq ⟨t, record⟩ ∧ buffers' = buffers.after [⟨t, record⟩] := by
  obtain ⟨t₁, made, t₂, rfl, h₁, h₂⟩ := exec_run_bind_ok.mp hrun
  rcases exec_makeRepo_ok h₁ with ⟨repo, gitlab, rfl, hrepo⟩ | ⟨rfl, gitlabErr, githubErr, hgl, hgh⟩
  · obtain ⟨t₃, job, u₃, rfl, h₃, hrest⟩ := exec_run_bind_ok.mp
      (show Exec (sw.processValidRepo jobTime repoReq buffers repo gitlab).run _ _ from h₂)
    obtain ⟨t₄, answer, u₄, rfl, h₄, hanswered⟩ := exec_run_bind_ok.mp hrest
    obtain ⟨t₅, result, u₅, rfl, h₅, hresult⟩ := exec_run_bind_ok.mp hanswered
    obtain ⟨rfl, hjob⟩ := exec_ofExcept_ok.mp h₃
    obtain rfl := exec_run_perform_ok.mp h₄
    obtain ⟨rfl, hscanned⟩ := exec_ofExcept_ok.mp h₅
    rcases result with _ | result
    · obtain ⟨err, rfl, hreason⟩ := scanned_eq_none hscanned
      obtain ⟨rfl, rfl⟩ := exec_pure_ok.mp hresult
      exact ⟨none, .notScanned job err (by simp) hreason, by
        simp [Buffers.after, resultsShard, rawShard]⟩
    · obtain rfl := scanned_eq_some hscanned
      obtain ⟨json, raw, hjson, hraw, hexported, rfl⟩ := exec_publishScan_ok hresult
      refine ⟨some ⟨repo.uri, result.repoCommitSHA, json, raw⟩, ⟨⟨repo, rfl, ?_⟩, ?_, ?_⟩, by
        simp [Buffers.after, resultsShard, rawShard]⟩
      · exact hrepo.imp (List.mem_append_left _) (List.mem_append_left _)
      · exact ⟨job, result, scanJob_repo_uri hjob, by simp, rfl, hjson, hraw⟩
      · rw [scanJob_repo_uri hjob] at hexported
        exact ⟨by simp [hexported.latest], by simp [hexported.pinned],
          by simp [hexported.rawLatest], by simp [hexported.rawPinned]⟩
  · obtain ⟨rfl, rfl⟩ := exec_pure_ok.mp h₂
    exact ⟨none, .invalidURL gitlabErr githubErr (by simpa using hgl) (by simpa using hgh), by
      simp [Buffers.after, resultsShard, rawShard]⟩

/-- **All repositories**, one after the other. -/
theorem exec_processRepos_ok {repos : List Repo}
    (h : Exec (sw.processRepos jobTime repos buffers).run t (some (.ok buffers'))) :
    ∃ done, List.Forall₂ (sw.Handled jobTime) repos done ∧ t = done.flatMap RepoRun.events ∧
      buffers' = buffers.after done := by
  induction repos generalizing buffers t with
  | nil =>
    obtain ⟨rfl, rfl⟩ := exec_pure_ok.mp h
    exact ⟨[], .nil, rfl, (Buffers.after_nil _).symm⟩
  | cons repoReq repos ih =>
    obtain ⟨t₁, buffers₁, t₂, rfl, h₁, h₂⟩ := exec_run_bind_ok.mp h
    obtain ⟨record, hhandled, rfl⟩ := exec_processRepo_ok h₁
    obtain ⟨done, hdone, rfl, rfl⟩ := ih h₂
    exact ⟨⟨t₁, record⟩ :: done, .cons hhandled hdone, rfl, (Buffers.after_cons _ _ _).symm⟩

end Runs

/-! ### The shards -/

/-- Shards have other names than exports. -/
theorem resultFilename_ne_export (req : ScorecardBatchRequest) (dir : String) :
    resultFilename req ≠ dir ++ "/results.json" ∧ resultFilename req ≠ dir ++ "/raw.json" := by
  have hshard : ∀ c, (resultFilename req).toList.getLast? = some c → c ≠ 'n' := by
    rintro c hc rfl
    have hkey : (resultFilename req).toList = req.getJobTime.format ++ "shard".toList ++
        '-' :: sprintf07d req.getShardNum.toInt := by
      simp [resultFilename, getBlobFilename, toList_shardName]
    rw [hkey, List.getLast?_append_of_ne_nil _ (by simp)] at hc
    rcases List.mem_cons.mp (List.mem_of_getLast? hc) with h | h
    · exact absurd h (by decide)
    · unfold sprintf07d at h
      split_ifs at h
      · rcases List.mem_cons.mp h with h | h
        · exact absurd h (by decide)
        · exact absurd (isDigit_of_mem_appendInt h) (by decide)
      · exact absurd (isDigit_of_mem_appendInt h) (by decide)
  constructor
  · intro h
    refine hshard 'n' ?_ rfl
    rw [h, String.toList_append, List.getLast?_append_of_ne_nil _ (by decide)]
    rfl
  · intro h
    refine hshard 'n' ?_ rfl
    rw [h, String.toList_append, List.getLast?_append_of_ne_nil _ (by decide)]
    rfl

/-- **The canonical shard is written last.** A run of `processRequest` that writes an object with
the name and the bucket of the shard has handled all repositories, and either it has written the raw
shard just before and ends, and the object is the shard; or it writes the raw shard, to the same
bucket. -/
theorem canonical_shard_last (sw : ScorecardWorker) (req : ScorecardBatchRequest)
    (bucketURL : String)
    (pre post : Trace BatchSig) (data : String) (answer : Except CronError Unit)
    (r : Option (Except (Stop CronError) Unit))
    (h : Exec (sw.processRequest req bucketURL).run
      (pre ++ ⟨.writeToBlobStore bucketURL (resultFilename req) data, answer⟩ :: post) r) :
    ∃ done, List.Forall₂ (sw.Handled req.getJobTime) req.repos done ∧
      ((pre = done.flatMap RepoRun.events ++
          [⟨.writeToBlobStore sw.rawBucketURL (resultFilename req) (rawShard done), .ok ()⟩] ∧
        post = [] ∧ data = resultsShard done) ∨
      bucketURL = sw.rawBucketURL ∧ pre = done.flatMap RepoRun.events ∧ data = rawShard done) := by
  have hnot : ¬sw.Exports (.writeToBlobStore bucketURL (resultFilename req) data) := by
    rintro ⟨-, dir, h | h⟩
    exacts [(resultFilename_ne_export req dir).1 h, (resultFilename_ne_export req dir).2 h]
  obtain ⟨t, buffers, pre, rfl, hrepos, h⟩ :=
    h.split_run_bind (performs_processRepos _ _ _) hnot
  obtain ⟨done, hdone, rfl, rfl⟩ := exec_processRepos_ok hrepos
  have hresults : (Buffers.after ⟨"", ""⟩ done).results = resultsShard done := String.empty_append
  have hraw : (Buffers.after ⟨"", ""⟩ done).raw = rawShard done := String.empty_append
  rw [hresults, hraw] at h
  refine ⟨done, hdone, ?_⟩
  cases pre with
  | nil =>
    -- the write is that of the raw shard
    obtain ⟨hop, -⟩ := exec_writeBlob_bind h
    obtain ⟨hurl, -, hdata⟩ := BatchOp.writeToBlobStore.inj hop
    exact Or.inr ⟨hurl, by simp, hdata⟩
  | cons e pre =>
    obtain ⟨-, hnil | ⟨rfl, hlast⟩⟩ := exec_writeBlob_bind h
    · simp at hnil
    · rw [← bind_pure (writeBlob _ bucketURL _ _)] at hlast
      cases pre with
      | nil =>
        obtain ⟨hop, hpost⟩ := exec_writeBlob_bind hlast
        obtain ⟨-, -, hdata⟩ := BatchOp.writeToBlobStore.inj hop
        refine Or.inl ⟨rfl, ?_, hdata⟩
        rcases hpost with hnil | ⟨-, hret⟩
        exacts [hnil, (exec_ret_iff.mp hret).1]
      | cons e pre =>
        obtain ⟨-, hnil | ⟨-, hret⟩⟩ := exec_writeBlob_bind hlast
        · simp at hnil
        · simpa using (exec_ret_iff.mp hret).1

/-! ### A sample shard -/

/-- A worker whose serializers write the details of a result. -/
def sampleWorker : ScorecardWorker where
  rawBucketURL := "s3://raw"
  apiBucketURL := "s3://api"
  blacklistedChecks := []
  ignoreRuntimeErrors := false
  engine := ("v5.0.0", "c0ffee")
  getEnabled _ _ := .ok ["License"]
  asJSON2 result := .ok result.details
  asRawJSON result := .ok ("raw " ++ result.details)

/-- A request with a repository that is not valid and one that is. -/
def sampleBatch : ScorecardBatchRequest where
  repos := [⟨some "example.invalid", some "HEAD", []⟩,
    ⟨some "github.com/org/repo", some "HEAD", []⟩]
  shardNum := some 3
  jobTime := some epoch

/-- Every write succeeds, and one repository is known. -/
def sampleBatchAnswer : (o : BatchOp) → Option (BatchSig.Ans o)
  | .makeGitlabRepo _ => some (.error "not on GitLab")
  | .makeGithubRepo url =>
    some (if url = "github.com/org/repo" then .ok ⟨url, []⟩ else .error "invalid")
  | .run _ => some (.ok ⟨[], "da39a3ee", "", "", epoch, "details"⟩)
  | .purge _ | .writeToBlobStore _ _ _ => some (.ok ())
  | _ => none

/-- The run of the sample request. -/
def sampleBatchTrace : Trace BatchSig :=
  ((sampleWorker.processRequest sampleBatch "s3://results").run.runWith
    (fun _ o => sampleBatchAnswer o) []).1

/-- The sample shard has one record, and its raw shard has been written. -/
theorem sampleBatchTrace_shard :
    ∃ done, List.Forall₂ (sampleWorker.Handled epoch) sampleBatch.repos done ∧
      ⟨.writeToBlobStore "s3://raw" (resultFilename sampleBatch) (rawShard done), .ok ()⟩ ∈
        sampleBatchTrace ∧ "details" = resultsShard done := by
  have hrun := exec_runWith (fun _ o => sampleBatchAnswer o)
    (sampleWorker.processRequest sampleBatch "s3://results").run []
  have htrace : ((sampleWorker.processRequest sampleBatch "s3://results").run.runWith
      (fun _ o => sampleBatchAnswer o) []).1 = sampleBatchTrace.dropLast ++
        [⟨.writeToBlobStore "s3://results" (resultFilename sampleBatch) "details", .ok ()⟩] := rfl
  rw [htrace] at hrun
  obtain ⟨done, hdone, ⟨hpre, -, hdata⟩ | ⟨hurl, -⟩⟩ := canonical_shard_last _ _ _ _ _ _ _ _ hrun
  · refine ⟨done, hdone, ?_, hdata⟩
    refine List.dropLast_subset _ ?_
    rw [hpre]
    exact List.mem_append_right _ List.mem_cons_self
  · exact absurd hurl (by decide)

end ScorecardInfra.Cron
