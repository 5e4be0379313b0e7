import ScorecardInfra.Cron.ShardContents

/-!
# What a worker exports

An object that `processRequest` writes is a shard, or the JSON or the raw JSON of a scan that has
succeeded before, under the URI of the repository that was scanned, or under its URI and commit
(`ScorecardWorker.writesOnly_processRequest`). The object under a key that ends in `/results.json`
is the JSON of a scan (`exported_results`).

## Main definitions

* `ScorecardWorker.Exported`, `ScorecardWorker.Scan`.

## Main results

* `ScorecardWorker.writesOnly_processRequest`, `exported_results`.

Source: `cron/internal/worker/main.go`, lines 175–337.
-/

namespace ScorecardInfra.Cron

open GoStd Interaction

namespace ScorecardWorker

/-- Some run of `processRequest` writes the object, whatever the write reports. -/
def Exported (sw : ScorecardWorker) (bucketURL key data : String) : Prop :=
  ∃ req resultsURL t r x, Exec (sw.processRequest req resultsURL).run t r ∧
    ⟨.writeToBlobStore bucketURL key data, x⟩ ∈ t

/-- A scan for the job at `jobTime` that has succeeded. -/
structure Scan (jobTime : Time) (t : Trace BatchSig) where
  job : ScanJob
  result : ScanResult
  run : ⟨.run job, .ok result⟩ ∈ t

namespace Scan

variable {jobTime : Time} {t : Trace BatchSig} (scan : Scan jobTime t)

/-- The scan after more has been performed. -/
def mono {t' : Trace BatchSig} (h : t ⊆ t') : Scan jobTime t' := { scan with run := h scan.run }

/-- The keys of the JSON of the scan. -/
def resultsKeys : List String :=
  [scan.job.repo.uri ++ "/results.json",
    scan.job.repo.uri ++ "/" ++ scan.result.repoCommitSHA ++ "/results.json"]

/-- The keys of its raw JSON. -/
def rawKeys : List String :=
  [scan.job.repo.uri ++ "/raw.json",
    scan.job.repo.uri ++ "/" ++ scan.result.repoCommitSHA ++ "/raw.json"]

/-- The JSON of the scan, as the worker `sw` exports it. -/
def IsResults (sw : ScorecardWorker) (key data : String) : Prop :=
  key ∈ scan.resultsKeys ∧ sw.asJSON2 (sw.stamped jobTime scan.result) = .ok data

/-- The raw JSON. -/
def IsRaw (sw : ScorecardWorker) (key data : String) : Prop :=
  key ∈ scan.rawKeys ∧ sw.asRawJSON (sw.stamped jobTime scan.result) = .ok data

end Scan

/-- What a worker may write after `past`: a shard of the request, or the results of a scan. -/
def MayWrite (sw : ScorecardWorker) (req : ScorecardBatchRequest) (past : Trace BatchSig) :
    BatchOp → Prop
  | .writeToBlobStore bucketURL key data => key = resultFilename req ∨
      bucketURL = sw.apiBucketURL ∧
        ∃ scan : Scan req.getJobTime past, scan.IsResults sw key data ∨ scan.IsRaw sw key data
  | _ => True

section Writes

variable {sw : ScorecardWorker} {req : ScorecardBatchRequest} {past : Trace BatchSig}

/-- The programs that end after any events. -/
abbrev WritesOnly {α : Type} (sw : ScorecardWorker) (req : ScorecardBatchRequest)
    (past : Trace BatchSig) (x : Batch α) : Prop :=
  Ensures (.history (sw.MayWrite req)) past x (fun _ _ => True) fun _ _ => True

/-- The writes of the results of a scan. -/
def Scan.Writes (sw : ScorecardWorker) (scan : Scan req.getJobTime past) : BatchOp → Prop
  | .writeToBlobStore bucketURL key data => bucketURL = sw.apiBucketURL ∧
      (scan.IsResults sw key data ∨ scan.IsRaw sw key data)
  | _ => True

theorem writesOnly_of_writes {α : Type} {x : Batch α} (scan : Scan req.getJobTime past)
    (hx : x.run.Performs (scan.Writes sw)) : sw.WritesOnly req past x := by
  refine (hx.ensures (I := fun past' => past ⊆ past') (fun o past' ho hpast => ⟨?_, fun x => ?_⟩)
    (List.Subset.refl _)).mono (fun _ _ _ => trivial) fun _ _ _ => trivial
  · cases o with
    | writeToBlobStore => exact Or.inr ⟨ho.1, scan.mono hpast, ho.2⟩
    | _ => trivial
  · exact List.subset_append_of_subset_left _ hpast

theorem performs_exportResult_writes (scan : Scan req.getJobTime past) {json raw : String}
    (hjson : sw.asJSON2 (sw.stamped req.getJobTime scan.result) = .ok json)
    (hraw : sw.asRawJSON (sw.stamped req.getJobTime scan.result) = .ok raw) :
    (sw.exportResult scan.job.repo scan.result.repoCommitSHA json raw).run.Performs
      (scan.Writes sw) := by
  have hresults : ∀ key ∈ scan.resultsKeys, scan.Writes sw
      (.writeToBlobStore sw.apiBucketURL key json) := fun _ hkey => ⟨rfl, Or.inl ⟨hkey, hjson⟩⟩
  have hraws : ∀ key ∈ scan.rawKeys, scan.Writes sw
      (.writeToBlobStore sw.apiBucketURL key raw) := fun _ hkey => ⟨rfl, Or.inr ⟨hkey, hraw⟩⟩
  exact performs_run_bind (performs_writeBlob (hresults _ (by simp [Scan.resultsKeys]))) fun _ =>
    performs_run_bind (performs_performBatch trivial) fun _ =>
    performs_run_bind (performs_writeBlob (hresults _ (by simp [Scan.resultsKeys]))) fun _ =>
    performs_run_bind (performs_performBatch trivial) fun _ =>
    performs_run_bind (performs_writeBlob (hraws _ (by simp [Scan.rawKeys]))) fun _ =>
    performs_writeBlob (hraws _ (by simp [Scan.rawKeys]))

/-- The result of a scan is written under its keys. -/
theorem writesOnly_publishScan (scan : Scan req.getJobTime past) (buffers : Buffers) :
    sw.WritesOnly req past
      (sw.publishScan req.getJobTime scan.job.repo buffers scan.result) := by
  refine ensures_ofExcept_bind (fun _ _ => ?_) fun _ _ => trivial
  refine ensures_mapError_bind (fun results _ => ?_) fun _ _ => trivial
  refine ensures_mapError_bind (fun json hjson => ?_) fun _ _ => trivial
  refine ensures_mapError_bind (fun exportRaw hraw => ?_) fun _ _ => trivial
  refine ensures_mapError_bind (fun raw _ => ?_) fun _ _ => trivial
  exact (writesOnly_of_writes scan (performs_exportResult_writes scan hjson hraw)).bind
    fun _ _ _ => trivial

/-- The operations that write nothing. -/
def WritesNothing : BatchOp → Prop
  | .writeToBlobStore _ _ _ => False
  | _ => True

theorem writesOnly_of_writesNothing {α : Type} {x : Batch α}
    (hx : x.run.Performs WritesNothing) : sw.WritesOnly req past x := by
  refine (hx.ensures (I := fun _ => True) (fun o past' ho _ => ⟨?_, fun _ => trivial⟩)
    trivial).mono (fun _ _ _ => trivial) fun _ _ _ => trivial
  cases o with
  | writeToBlobStore => exact ho.elim
  | _ => trivial

theorem performs_makeRepo (url : String) : (makeRepo url).run.Performs WritesNothing := by
  refine performs_run_bind (performs_performBatch trivial) ?_
  rintro (_ | repo)
  · refine performs_run_bind (performs_performBatch trivial) ?_
    rintro (_ | repo) <;> exact trivial
  · exact trivial

/-- **One repository.** -/
theorem writesOnly_processRepo (repoReq : Repo) (buffers : Buffers) :
    sw.WritesOnly req past (sw.processRepo req.getJobTime repoReq buffers) := by
  refine (writesOnly_of_writesNothing (performs_makeRepo _)).bind ?_
  rintro (_ | ⟨repo, gitlab⟩) past' -
  · exact ensures_pure trivial
  · refine ensures_ofExcept_bind (fun job _ => ?_) fun _ _ => trivial
    refine ensures_perform_bind trivial fun answer => ?_
    refine ensures_ofExcept_bind (fun result hscanned => ?_) fun _ _ => trivial
    cases result with
    | none => exact ensures_pure trivial
    | some result =>
      obtain rfl := scanned_eq_some hscanned
      exact writesOnly_publishScan ⟨job, result, by simp⟩ buffers

/-- **All repositories.** -/
theorem writesOnly_processRepos (repos : List Repo) (buffers : Buffers) :
    sw.WritesOnly req past (sw.processRepos req.getJobTime repos buffers) := by
  induction repos generalizing past buffers with
  | nil => exact ensures_pure trivial
  | cons repoReq repos ih =>
    exact (writesOnly_processRepo repoReq buffers).bind fun buffers past' _ => ih buffers

theorem writesOnly_writeShard {context bucketURL data : String} :
    sw.WritesOnly req past (writeBlob context bucketURL (resultFilename req) data) := by
  refine ensures_perform_bind (Or.inl rfl) fun answer => ?_
  exact (ensures_ofExcept (Q := fun _ _ => True) (fun _ _ => trivial) fun _ _ => trivial)

/-- **The writes of a request.** -/
theorem writesOnly_processRequest (bucketURL : String) :
    sw.WritesOnly req past (sw.processRequest req bucketURL) :=
  (writesOnly_processRepos _ _).bind fun _ _ _ =>
    writesOnly_writeShard.bind fun _ _ _ => writesOnly_writeShard

theorem results_ne_raw (dir dir' : String) : dir ++ "/results.json" ≠ dir' ++ "/raw.json" := by
  intro h
  have hend := congrArg (fun s : String => s.toList.reverse.take 6) h
  simp at hend

theorem Scan.IsRaw.ne_results {scan : Scan req.getJobTime past} {key data : String}
    (h : scan.IsRaw sw key data) (dir : String) : dir ++ "/results.json" ≠ key := by
  rcases List.mem_cons.mp h.1 with rfl | hkey
  · exact results_ne_raw _ _
  · rw [List.mem_singleton.mp hkey]
    exact results_ne_raw _ _

end Writes

end ScorecardWorker

/-- **Exported results.** An object of a worker under a key that ends in `/results.json` is the JSON
of a scan of the worker, under a key of the scan. -/
theorem exported_results {sw : ScorecardWorker} {bucketURL dir data : String}
    (h : sw.Exported bucketURL (dir ++ "/results.json") data) :
    bucketURL = sw.apiBucketURL ∧ ∃ req resultsURL t r,
      Exec (sw.processRequest req resultsURL).run t r ∧
        ∃ scan : ScorecardWorker.Scan req.getJobTime t,
          scan.IsResults sw (dir ++ "/results.json") data := by
  obtain ⟨req, resultsURL, t, r, x, hrun, hmem⟩ := h
  obtain ⟨pre, post, rfl⟩ := List.append_of_mem hmem
  have hwrites : sw.WritesOnly req [] (sw.processRequest req resultsURL) :=
    ScorecardWorker.writesOnly_processRequest resultsURL
  have hmay := hrun.allows hwrites
  rw [Monitor.after_history, List.nil_append] at hmay
  rcases hmay with hshard | ⟨hurl, scan, hresults | hraw⟩
  · exact absurd hshard.symm (resultFilename_ne_export req dir).1
  · exact ⟨hurl, req, resultsURL, _, r, hrun, scan.mono (List.subset_append_left _ _), hresults⟩
  · exact absurd rfl (hraw.ne_results dir)

end ScorecardInfra.Cron
