import Mathlib.Logic.Function.Basic
import ScorecardInfra.Cron.Request
import ScorecardInfra.Cron.Summary
import ScorecardInfra.GoStd.Float
import ScorecardInfra.Interaction.Failure

/-!
# The transfer of results to BigQuery

`transferDataToBq` ranges over the jobs of a bucket's summary in an order that Go leaves open. It
loads the shards of each job that is completed and not transferred into the partition of the job's
date, writes the marker of the transfer, and posts the job's metadata to a webhook.

A load replaces the content of its partition. Two jobs of one day have one partition, and the one
visited last stays: the partitions are the same for every order if and only if jobs of one day have
the same rows (`orderIrrelevant_iff`).

## Main definitions

* `ShardSummary.isCompleted`, `TransferConfig`, `transferDataToBq`.
* `AllSucceed`, `tablesAfter`, `OrderIrrelevant`.

## Main results

* `exec_transferGroup`, `tablesAfter_transfer`, `orderIrrelevant_iff`.

Sources: `cron/internal/bq/main.go`, lines 31–66; `cron/internal/bq/transfer.go`;
`cron/data/summary.go`, lines 38–94.
-/

namespace ScorecardInfra.Cron

open GoStd Interaction

/-! ### Operations -/

/-- `IsCompleted`.

Source: `cron/data/summary.go`, lines 38–44. -/
def ShardSummary.isCompleted (s : ShardSummary) (completionThreshold : Float64) : Bool :=
  decide (0 < s.shardsExpected) && completionThreshold.le
    (Float64.round53 (Float64.round53 s.shardsCreated / Float64.round53 s.shardsExpected))

/-- A table of a dataset. -/
structure TableRef where
  projectID : String
  datasetName : String
  tableName : String
  deriving DecidableEq

/-- `bigquery.Loader` with the disposition `WriteTruncate`, from objects that hold lines of JSON. -/
structure Loader where
  table : TableRef
  gcsRef : String
  deriving DecidableEq

/-- `bigquery.Job`. -/
structure LoadJob where
  id : String
  loader : Loader

/-- `http.Response`, with what `io.ReadAll` makes of its body. -/
structure WebhookResponse where
  statusCode : Nat
  body : Except String String

/-- The operations of a transfer. -/
inductive TransferOp : Type
  | newClient (projectID : String)
  | runLoader (loader : Loader)
  /-- `Wait`: the error of the job's status, if the job could be waited for. -/
  | waitJob (job : LoadJob)
  /-- `data.WriteToBlobStore`. -/
  | writeToBlobStore (bucketURL filename data : String)
  | post (url contentType body : String)

/-- The operations with their answers. -/
abbrev TransferSig : Signature where
  Op := TransferOp
  Ans
    | .newClient _ => Except String Unit
    | .runLoader _ => Except String String
    | .waitJob _ => Except String (Option String)
    | .writeToBlobStore _ _ _ => Except CronError Unit
    | .post _ _ _ => Except String WebhookResponse

/-- Programs of the transfer. -/
abbrev Transfer (α : Type) : Type := Fallible CronError (Prog TransferSig) α

/-- Perform one operation. -/
def performTransfer (o : TransferOp) : Transfer (TransferSig.Ans o) :=
  Fallible.perform (S := TransferSig) o

/-! ### The program -/

/-- The arguments of `transferDataToBq` apart from the summary. -/
structure TransferConfig where
  bucketURL : String
  projectID : String
  datasetName : String
  tableName : String
  completionThreshold : Float64
  webhookURL : String

/-- `Format` with the layout `20060102`. -/
def partitionDate (t : Time) : List Char :=
  appendInt 4 t.year ++ (appendInt 2 t.month ++ appendInt 2 t.day)

namespace TransferConfig

variable (cfg : TransferConfig)

/-- `createGCSRef`. -/
def createGCSRef (fileURI : String) : String := cfg.bucketURL ++ "/" ++ fileURI

/-- The partition of a day. -/
def partitionedTable (t : Time) : TableRef where
  projectID := cfg.projectID
  datasetName := cfg.datasetName
  tableName := cfg.tableName ++ "$" ++ String.ofList (partitionDate t)

/-- The loader for the shards of the job at `t`. -/
def loader (t : Time) : Loader where
  table := cfg.partitionedTable t
  gcsRef := cfg.createGCSRef (getBlobFilename "shard-*" t)

/-- `createBQLoader`, apart from the client. -/
def createBQLoader (t : Time) : Transfer Loader := do
  let client ← performTransfer (.newClient cfg.projectID)
  Interaction.ofExcept (libraryResult "failed to create bigquery client" client)
  return cfg.loader t

/-- `startDataTransferJob` for the shards of the job at `t`.

Source: `cron/internal/bq/transfer.go`, lines 48–73. -/
def startDataTransferJob (t : Time) : Transfer Unit := do
  let loader ← annotate (.wrapf "error creating BQ loader") (cfg.createBQLoader t)
  let job ← performTransfer (.runLoader loader)
  let id ← Interaction.ofExcept (libraryResult "failed to create load job" job)
  let status ← performTransfer (.waitJob ⟨id, loader⟩)
  let status ← Interaction.ofExcept (libraryResult "error during job.Wait" status)
  Interaction.ofExcept (libraryResult "job returned error status" (status.elim (.ok ()) .error))

/-- `MarkTransferred`. -/
def markTransferred (s : ShardSummary) : Transfer Unit := do
  let written ← performTransfer
    (.writeToBlobStore cfg.bucketURL (getTransferStatusFilename s.creationTime) "")
  Interaction.ofExcept (inContext "error during WriteToBlobStore" written)

/-- The end of the loop's body: the webhook is called with the metadata. Its status is only logged.

Source: `cron/internal/bq/main.go`, lines 50–63. -/
def callWebhook (s : ShardSummary) : Transfer Unit := do
  if cfg.webhookURL = "" then pure ()
  else do
    let resp ← performTransfer (.post cfg.webhookURL "application/json" s.shardMetadata)
    let resp ← Interaction.ofExcept
      (libraryResult ("error during http.Post to " ++ cfg.webhookURL) resp)
    let _ ← Interaction.ofExcept (libraryResult "error reading resp.Body" resp.body)
    pure ()

/-- The body of the loop of `transferDataToBq` for a job that is to be transferred.

Source: `cron/internal/bq/main.go`, lines 39–63. -/
def transferGroup (s : ShardSummary) : Transfer Unit := do
  annotate (.wrapf "error during StartDataTransferJob") (cfg.startDataTransferJob s.creationTime)
  annotate (.wrapf "error during MarkTransferred") (cfg.markTransferred s)
  cfg.callWebhook s

/-- The jobs that are transferred. -/
def eligible (s : ShardSummary) : Bool :=
  !s.isTransferred && s.isCompleted cfg.completionThreshold

/-- `transferDataToBq`, for the jobs in the order of `Shards`.

Source: `cron/internal/bq/main.go`, lines 31–66. -/
def transferDataToBq : List ShardSummary → Transfer Unit
  | [] => pure ()
  | s :: shards =>
    if cfg.eligible s then do
      cfg.transferGroup s
      transferDataToBq shards
    else transferDataToBq shards

end TransferConfig

/-- `Shards`, in the order of the range over the map. -/
def BucketSummary.shards (summary : BucketSummary)
    (order : GoMap.Order summary.entries.length) : List ShardSummary :=
  (GoMap.visit summary order).map fun e => e.2

/-! ### Runs of the transfer -/

/-- A reply of the webhook in the range 200 to 299. -/
def WebhookResponse.isOK (resp : WebhookResponse) : Prop :=
  200 ≤ resp.statusCode ∧ resp.statusCode < 300

/-- What a successful operation returns. -/
def TransferOp.Returns : (o : TransferOp) → TransferSig.Ans o → Prop
  | .newClient _, x => x = .ok ()
  | .runLoader _, x => ∃ id, x = .ok id
  | .waitJob _, x => x = .ok none
  | .writeToBlobStore _ _ _, x => x = .ok ()
  | .post _ _ _, x => ∃ resp, x = .ok resp ∧ resp.isOK ∧ ∃ body, resp.body = .ok body

/-- All operations of a trace succeed. -/
def AllSucceed (t : Trace TransferSig) : Prop := ∀ e ∈ t, e.op.Returns e.ans

namespace TransferConfig

variable {cfg : TransferConfig} {t : Trace TransferSig} {r : Except (Stop CronError) Unit}

/-- The operations of a load. -/
def LoadOp : TransferOp → Prop
  | .newClient _ | .runLoader _ | .waitJob _ => True
  | .writeToBlobStore _ _ _ | .post _ _ _ => False

/-- The operations of a successful load, with the ID of its job. -/
def loadTrace (cfg : TransferConfig) (date : Time) (id : String) : Trace TransferSig :=
  [⟨.newClient cfg.projectID, .ok ()⟩, ⟨.runLoader (cfg.loader date), .ok id⟩,
    ⟨.waitJob ⟨id, cfg.loader date⟩, .ok none⟩]

/-- How a part of a run ends that fails: the last operation has not succeeded. -/
def Failed (t : Trace TransferSig) (r : Except (Stop CronError) Unit) : Prop :=
  ¬AllSucceed t ∧ ∃ stop, r = .error stop

theorem failed_of_mem {o : TransferOp} {x : TransferSig.Ans o} {stop : Stop CronError}
    (hmem : ⟨o, x⟩ ∈ t) (hx : ¬o.Returns x) : Failed t (.error stop) :=
  ⟨fun hall => hx (hall _ hmem), _, rfl⟩

theorem Failed.append {u : Trace TransferSig} (h : Failed u r) : Failed (t ++ u) r :=
  ⟨fun hall => h.1 fun e he => hall e (List.mem_append_right t he), h.2⟩

theorem exec_createBQLoader {date : Time} {x : Except (Stop CronError) Loader}
    (h : Exec (cfg.createBQLoader date).run t (some x)) :
    (t = [⟨.newClient cfg.projectID, .ok ()⟩] ∧ x = .ok (cfg.loader date)) ∨
      ∃ e stop, t = [⟨.newClient cfg.projectID, .error e⟩] ∧ x = .error stop := by
  obtain ⟨client, ⟨e, he, rfl, rfl⟩ | ⟨_, t', hclient, rfl, hrun⟩⟩ := exec_call_bind h
  · cases client with
    | error e => exact Or.inr ⟨e, _, rfl, rfl⟩
    | ok _ => cases he
  · obtain rfl := libraryResult_eq_ok.mp hclient
    obtain ⟨rfl, rfl⟩ := exec_ret_some.mp hrun
    exact Or.inl ⟨rfl, rfl⟩

/-- **A load** ends well after its operations have succeeded, and otherwise with an error. -/
theorem exec_startDataTransferJob {date : Time}
    (h : Exec (cfg.startDataTransferJob date).run t (some r)) :
    (∃ id, t = cfg.loadTrace date id ∧ r = .ok ()) ∨ (Failed t r ∧ ∀ e ∈ t, LoadOp e.op) := by
  rcases exec_run_bind_some h with ⟨stop, rfl, h₁⟩ | ⟨t₁, loader, t₂, rfl, h₁, h₂⟩
  · obtain ⟨x, hx, herr⟩ := exec_annotate_some h₁
    rcases exec_createBQLoader hx with ⟨-, rfl⟩ | ⟨e, _, rfl, rfl⟩
    · cases herr
    · exact Or.inr ⟨failed_of_mem (List.mem_singleton_self _) nofun, by simp [LoadOp]⟩
  obtain ⟨x, hx, hok⟩ := exec_annotate_some h₁
  rcases exec_createBQLoader hx with ⟨rfl, rfl⟩ | ⟨e, _, rfl, rfl⟩
  swap
  · cases hok
  obtain rfl := Except.ok.inj hok
  obtain ⟨job, ⟨e, he, rfl, rfl⟩ | ⟨id, t₃, hjob, rfl, h₃⟩⟩ := exec_call_bind h₂
  · refine Or.inr ⟨failed_of_mem (o := .runLoader _) (x := job) (by simp) ?_, by simp [LoadOp]⟩
    rintro ⟨id, rfl⟩
    cases he
  obtain rfl := libraryResult_eq_ok.mp hjob
  obtain ⟨status, ⟨e, he, rfl, rfl⟩ | ⟨error, t₄, hstatus, rfl, h₄⟩⟩ := exec_call_bind h₃
  · refine Or.inr ⟨failed_of_mem (o := .waitJob _) (x := status) (by simp) ?_, by simp [LoadOp]⟩
    rintro rfl
    cases he
  obtain rfl := libraryResult_eq_ok.mp hstatus
  obtain ⟨rfl, rfl⟩ := exec_ret_some.mp h₄
  cases error with
  | none => exact Or.inl ⟨id, rfl, rfl⟩
  | some e =>
    exact Or.inr ⟨failed_of_mem (o := .waitJob ⟨id, cfg.loader date⟩) (x := .ok (some e)) (by simp)
      nofun, by simp [LoadOp]⟩

/-- **The marker** is written with the one operation that decides how this ends. -/
theorem exec_markTransferred {s : ShardSummary}
    (h : Exec (cfg.markTransferred s).run t (some r)) :
    ∃ x, t = [⟨.writeToBlobStore cfg.bucketURL (getTransferStatusFilename s.creationTime) "", x⟩] ∧
      (x = .ok () ∧ r = .ok () ∨ (∃ e, x = .error e) ∧ ∃ stop, r = .error stop) := by
  obtain ⟨x, rfl, rfl⟩ := exec_call h
  cases x with
  | error e => exact ⟨_, rfl, Or.inr ⟨⟨e, rfl⟩, _, rfl⟩⟩
  | ok _ => exact ⟨_, rfl, Or.inl ⟨rfl, rfl⟩⟩

/-- **The webhook** is called once if there is one. -/
theorem exec_callWebhook {s : ShardSummary} (h : Exec (cfg.callWebhook s).run t (some r)) :
    (cfg.webhookURL = "" ∧ t = [] ∧ r = .ok ()) ∨
      ∃ x, t = [⟨.post cfg.webhookURL "application/json" s.shardMetadata, x⟩] ∧
        (r = .ok () ∨ Failed t r) := by
  unfold callWebhook at h
  split_ifs at h with hurl
  · obtain ⟨rfl, rfl⟩ := exec_ret_some.mp h
    exact Or.inl ⟨hurl, rfl, rfl⟩
  obtain ⟨x, ⟨e, he, rfl, rfl⟩ | ⟨resp, t', hresp, rfl, hrun⟩⟩ := exec_call_bind h
  · refine Or.inr ⟨x, rfl, Or.inr (failed_of_mem (List.mem_singleton_self _) ?_)⟩
    rintro ⟨resp, rfl, -⟩
    cases he
  obtain rfl := libraryResult_eq_ok.mp hresp
  rcases exec_ofExcept_bind hrun with ⟨e, he, rfl, rfl⟩ | ⟨body, -, hrun⟩
  · refine Or.inr ⟨_, rfl, Or.inr (failed_of_mem (List.mem_singleton_self _) ?_)⟩
    rintro ⟨resp', hresp', -, body, hbody⟩
    obtain rfl := Except.ok.inj hresp'
    rw [hbody] at he
    cases he
  · obtain ⟨rfl, rfl⟩ := exec_ret_some.mp hrun
    exact Or.inr ⟨_, rfl, Or.inl rfl⟩

/-- **One job.** Its load fails; or its load succeeds and the marker's write fails; or both succeed
and the webhook is called. -/
theorem exec_transferGroup {s : ShardSummary} (h : Exec (cfg.transferGroup s).run t (some r)) :
    (Failed t r ∧ ∀ e ∈ t, LoadOp e.op) ∨
      ∃ id x u, t = cfg.loadTrace s.creationTime id ++ ⟨.writeToBlobStore cfg.bucketURL
          (getTransferStatusFilename s.creationTime) "", x⟩ :: u ∧
        (((∃ e, x = .error e) ∧ u = [] ∧ Failed t r) ∨
          (x = .ok () ∧ Exec (cfg.callWebhook s).run u (some r))) := by
  rcases exec_run_bind_some h with ⟨stop, rfl, h₁⟩ | ⟨t₁, _, t₂, rfl, h₁, h₂⟩
  · obtain ⟨x, hx, herr⟩ := exec_annotate_some h₁
    rcases exec_startDataTransferJob hx with ⟨id, -, rfl⟩ | ⟨hfailed, hload⟩
    · cases herr
    · exact Or.inl ⟨⟨hfailed.1, _, rfl⟩, hload⟩
  obtain ⟨x, hx, hok⟩ := exec_annotate_some h₁
  rcases exec_startDataTransferJob hx with ⟨id, rfl, rfl⟩ | ⟨⟨-, stop, rfl⟩, -⟩
  swap
  · cases hok
  refine Or.inr ⟨id, ?_⟩
  rcases exec_run_bind_some h₂ with ⟨stop, rfl, h₃⟩ | ⟨t₃, _, t₄, rfl, h₃, h₄⟩
  · obtain ⟨x, hx, herr⟩ := exec_annotate_some h₃
    obtain ⟨y, rfl, ⟨-, rfl⟩ | ⟨⟨e, rfl⟩, -⟩⟩ := exec_markTransferred hx
    · cases herr
    · refine ⟨.error e, [], rfl, Or.inl ⟨⟨e, rfl⟩, rfl, ?_⟩⟩
      have hfailed : Failed [⟨.writeToBlobStore cfg.bucketURL
          (getTransferStatusFilename s.creationTime) "", .error e⟩] (.error stop) :=
        failed_of_mem (List.mem_singleton_self _) nofun
      exact hfailed.append
  · obtain ⟨x, hx, hok⟩ := exec_annotate_some h₃
    obtain ⟨y, rfl, ⟨rfl, rfl⟩ | ⟨-, stop, rfl⟩⟩ := exec_markTransferred hx
    · exact ⟨.ok (), t₄, rfl, Or.inr ⟨rfl, h₄⟩⟩
    · cases hok

end TransferConfig

/-! ### Partitions -/

section Partitions

variable {ρ : Type} (rows : String → ρ)

/-- What an operation does to the partitions, where `rows` are the rows of the objects that a
reference matches: a job that has ended well has replaced the content of its table. -/
def applyLoad (tables : TableRef → ρ) (e : Event TransferSig) : TableRef → ρ :=
  match e with
  | ⟨.waitJob job, .ok none⟩ => Function.update tables job.loader.table (rows job.loader.gcsRef)
  | _ => tables

/-- The partitions after a run. -/
def tablesAfter (tables : TableRef → ρ) (t : Trace TransferSig) : TableRef → ρ :=
  t.foldl (applyLoad rows) tables

namespace TransferConfig

variable (cfg : TransferConfig)

/-- What the transfer of a job does to the partitions. -/
def load (tables : TableRef → ρ) (s : ShardSummary) : TableRef → ρ :=
  Function.update tables (cfg.partitionedTable s.creationTime)
    (rows (cfg.loader s.creationTime).gcsRef)

/-- Runs in which everything succeeds leave the partitions with the same rows for all orders. -/
def OrderIrrelevant (summary : BucketSummary) : Prop :=
  ∀ (tables : TableRef → ρ) (order order' : GoMap.Order summary.entries.length)
    (t t' : Trace TransferSig) (r r' : Except (Stop CronError) Unit),
    Exec (cfg.transferDataToBq (summary.shards order)).run t (some r) → AllSucceed t →
    Exec (cfg.transferDataToBq (summary.shards order')).run t' (some r') → AllSucceed t' →
    tablesAfter rows tables t = tablesAfter rows tables t'

variable {rows} {cfg} {t : Trace TransferSig} {r : Except (Stop CronError) Unit}

theorem allSucceed_append {t u : Trace TransferSig} :
    AllSucceed (t ++ u) ↔ AllSucceed t ∧ AllSucceed u := List.forall_mem_append

/-- A successful transfer of a job loads its shards. -/
theorem tablesAfter_group {s : ShardSummary} (h : Exec (cfg.transferGroup s).run t (some r))
    (hall : AllSucceed t) (tables : TableRef → ρ) :
    r = .ok () ∧ tablesAfter rows tables t = cfg.load rows tables s := by
  rcases exec_transferGroup h with ⟨hfailed, -⟩ | ⟨id, x, u, rfl, ⟨-, -, hfailed⟩ | ⟨rfl, hu⟩⟩
  · exact absurd hall hfailed.1
  · exact absurd hall hfailed.1
  obtain ⟨-, hall⟩ := allSucceed_append.mp hall
  obtain ⟨-, hall⟩ := List.forall_mem_cons.mp hall
  rcases exec_callWebhook hu with ⟨-, rfl, rfl⟩ | ⟨x, rfl, rfl | hfailed⟩
  · exact ⟨rfl, rfl⟩
  · exact ⟨rfl, rfl⟩
  · exact absurd hall hfailed.1

/-- **A successful run** loads the shards of the jobs that are to be transferred, in the order of
the range. -/
theorem tablesAfter_transfer {shards : List ShardSummary}
    (h : Exec (cfg.transferDataToBq shards).run t (some r)) (hall : AllSucceed t)
    (tables : TableRef → ρ) :
    r = .ok () ∧
      tablesAfter rows tables t = (shards.filter cfg.eligible).foldl (cfg.load rows) tables := by
  induction shards generalizing t tables with
  | nil =>
    obtain ⟨rfl, rfl⟩ := exec_ret_some.mp h
    exact ⟨rfl, rfl⟩
  | cons s shards ih =>
    rw [transferDataToBq] at h
    split_ifs at h with hs
    · rw [List.filter_cons_of_pos hs, List.foldl_cons]
      rcases exec_run_bind_some h with ⟨stop, rfl, h₁⟩ | ⟨t₁, _, t₂, rfl, h₁, h₂⟩
      · have hgroup : _ ∧ tablesAfter rows tables t = _ := tablesAfter_group h₁ hall tables
        exact absurd hgroup.1 nofun
      · obtain ⟨hall₁, hall₂⟩ := allSucceed_append.mp hall
        rw [tablesAfter, List.foldl_append, ← (tablesAfter_group h₁ hall₁ tables).2]
        exact ih h₂ hall₂ _
    · rw [List.filter_cons_of_neg hs]
      exact ih h hall tables

/-- The answers of an environment in which everything succeeds. -/
def succeed : (o : TransferOp) → TransferSig.Ans o
  | .newClient _ => .ok ()
  | .runLoader _ => .ok "job"
  | .waitJob _ => .ok none
  | .writeToBlobStore _ _ _ => .ok ()
  | .post _ _ _ => .ok ⟨200, .ok ""⟩

theorem returns_succeed (o : TransferOp) : o.Returns (succeed o) := by
  cases o with
  | newClient | waitJob | writeToBlobStore => rfl
  | runLoader => exact ⟨_, rfl⟩
  | post => exact ⟨_, rfl, ⟨by decide, by decide⟩, _, rfl⟩

/-- Everything can succeed. -/
theorem exists_allSucceed (x : Transfer Unit) :
    ∃ t r, Exec x.run t (some r) ∧ AllSucceed t := by
  obtain ⟨r, hr⟩ := exists_exec_runWith (fun _ o => succeed o) x.run []
  refine ⟨_, r, hr, fun e he => ?_⟩
  obtain ⟨_, hans⟩ := exists_eq_of_mem_runWith he
  rw [← Option.some.inj hans]
  exact returns_succeed e.op

/-! ### Days -/

/-- The times lie on one day. -/
def SameDay (t u : Time) : Prop := t.year = u.year ∧ t.month = u.month ∧ t.day = u.day

/-- A partition is that of a day. -/
theorem partitionedTable_eq_iff {t u : Time} :
    cfg.partitionedTable t = cfg.partitionedTable u ↔ SameDay t u := by
  constructor
  · intro h
    have hname := congrArg String.toList (congrArg TableRef.tableName h)
    simp only [partitionedTable, String.toList_append, String.toList_ofList, partitionDate,
      List.append_cancel_left_eq] at hname
    obtain ⟨hyear, hmonth, hday, -⟩ := t.fields_lt
    obtain ⟨hyear', hmonth', hday', -⟩ := u.fields_lt
    obtain ⟨hy, hmd⟩ := List.append_inj hname
      ((length_appendInt (by decide) hyear).trans (length_appendInt (by decide) hyear').symm)
    obtain ⟨hm, hd⟩ := List.append_inj hmd
      ((length_appendInt (by decide) hmonth).trans (length_appendInt (by decide) hmonth').symm)
    exact ⟨appendInt_injective 4 hy, appendInt_injective 2 hm, appendInt_injective 2 hd⟩
  · rintro ⟨hy, hm, hd⟩
    rw [partitionedTable, partitionedTable, partitionDate, partitionDate, hy, hm, hd]

/-- Two loads can be exchanged if they load the same rows where they load one partition. -/
theorem load_comm {s s' : ShardSummary}
    (h : SameDay s.creationTime s'.creationTime →
      rows (cfg.loader s.creationTime).gcsRef = rows (cfg.loader s'.creationTime).gcsRef)
    (tables : TableRef → ρ) :
    cfg.load rows (cfg.load rows tables s) s' = cfg.load rows (cfg.load rows tables s') s := by
  unfold load
  by_cases hday : SameDay s.creationTime s'.creationTime
  · rw [partitionedTable_eq_iff.mpr hday, h hday, Function.update_idem]
  · exact Function.update_comm (fun heq => hday (partitionedTable_eq_iff.mp heq)) ..

/-- The job that is visited last decides: jobs of one day have the same rows if the order of the
range does not matter. -/
theorem OrderIrrelevant.rows_eq {summary : BucketSummary} (h : cfg.OrderIrrelevant rows summary)
    {e e' : Σ _ : Time, ShardSummary} (he : e ∈ summary.entries) (he' : e' ∈ summary.entries)
    (hs : cfg.eligible e.2 = true) (hs' : cfg.eligible e'.2 = true)
    (hday : SameDay e.2.creationTime e'.2.creationTime) :
    rows (cfg.loader e.2.creationTime).gcsRef = rows (cfg.loader e'.2.creationTime).gcsRef := by
  have hlast : ∀ e ∈ summary.entries, cfg.eligible e.2 = true → ∃ order, ∀ tables t r,
      Exec (cfg.transferDataToBq (summary.shards order)).run t (some r) → AllSucceed t →
        tablesAfter rows tables t (cfg.partitionedTable e.2.creationTime) =
          rows (cfg.loader e.2.creationTime).gcsRef := by
    intro e he hs
    obtain ⟨order, init, horder⟩ := GoMap.exists_visit_last he
    refine ⟨order, fun tables t r hrun hall => ?_⟩
    rw [(tablesAfter_transfer hrun hall tables).2, BucketSummary.shards, horder, List.map_append,
      List.filter_append, List.map_singleton, List.filter_cons_of_pos hs, List.filter_nil,
      List.foldl_append, List.foldl_cons, List.foldl_nil, load, Function.update_self]
  obtain ⟨order, horder⟩ := hlast e he hs
  obtain ⟨order', horder'⟩ := hlast e' he' hs'
  obtain ⟨t, r, hrun, hall⟩ := exists_allSucceed (cfg.transferDataToBq (summary.shards order))
  obtain ⟨t', r', hrun', hall'⟩ := exists_allSucceed (cfg.transferDataToBq (summary.shards order'))
  have htables := h (fun _ => rows "") order order' t t' r r' hrun hall hrun' hall'
  rw [← horder _ t r hrun hall, htables, partitionedTable_eq_iff.mpr hday]
  exact horder' _ t' r' hrun' hall'

/-- **Transfers and the order of the range.** The partitions are the same for every order if and
only if any two jobs of one day that are to be transferred have the same rows. -/
theorem orderIrrelevant_iff (cfg : TransferConfig) (summary : BucketSummary) (rows : String → ρ) :
    cfg.OrderIrrelevant rows summary ↔
      ∀ e ∈ summary.entries, ∀ e' ∈ summary.entries,
        cfg.eligible e.2 = true → cfg.eligible e'.2 = true →
        SameDay e.2.creationTime e'.2.creationTime →
        rows (cfg.loader e.2.creationTime).gcsRef = rows (cfg.loader e'.2.creationTime).gcsRef := by
  refine ⟨fun h e he e' he' hs hs' hday => h.rows_eq he he' hs hs' hday, ?_⟩
  intro h tables order order' t t' r r' hrun hall hrun' hall'
  rw [(tablesAfter_transfer hrun hall tables).2, (tablesAfter_transfer hrun' hall' tables).2]
  have hperm : (summary.shards order).Perm (summary.shards order') :=
    ((GoMap.visit_perm summary order).trans (GoMap.visit_perm summary order').symm).map _
  refine (hperm.filter _).foldl_eq' ?_ tables
  intro s hs s' hs' tables
  obtain ⟨hmem, hs⟩ := List.mem_filter.mp hs
  obtain ⟨hmem', hs'⟩ := List.mem_filter.mp hs'
  obtain ⟨e, he, rfl⟩ := List.mem_map.mp hmem
  obtain ⟨e', he', rfl⟩ := List.mem_map.mp hmem'
  exact load_comm (h e (GoMap.mem_visit.mp he) e' (GoMap.mem_visit.mp he') hs hs') tables

end TransferConfig

end Partitions

/-! ### Two jobs of one day -/

/-- One o'clock of the first day of 1970. -/
def oneOClock : Time := { epoch with hour := 1, hour_le := by decide }

/-- A job with its one shard. -/
def completedShards (t : Time) : ShardSummary where
  creationTime := t
  shardMetadata := "\x7b\"numShard\":1\x7d"
  shardsExpected := 1
  shardsCreated := 1
  isTransferred := false

/-- Two completed jobs of one day. -/
def twoJobs : BucketSummary where
  entries := [⟨epoch, completedShards epoch⟩, ⟨oneOClock, completedShards oneOClock⟩]
  nodupKeys := by
    have hne : epoch ≠ oneOClock := by decide
    simp [List.NodupKeys, List.keys, hne]

/-- A transfer without a webhook, for jobs with 0.99 of their shards at least. -/
def sampleTransfer : TransferConfig where
  bucketURL := "gs://results"
  projectID := "project"
  datasetName := "scorecard"
  tableName := "results"
  completionThreshold := .finite false 4458563631096791 (-52) (by decide) (by decide)
  webhookURL := ""

theorem eligible_completedShards (t : Time) :
    sampleTransfer.eligible (completedShards t) = true := by
  change sampleTransfer.eligible ⟨epoch, "", 1, 1, false⟩ = true
  decide +kernel

/-- The order of the range decides which of two jobs of one day stays. -/
theorem not_orderIrrelevant_twoJobs : ¬sampleTransfer.OrderIrrelevant id twoJobs := by
  intro h
  have hfirst : ⟨epoch, completedShards epoch⟩ ∈ twoJobs.entries := List.mem_cons_self
  have hsecond : ⟨oneOClock, completedShards oneOClock⟩ ∈ twoJobs.entries :=
    List.mem_cons_of_mem _ List.mem_cons_self
  have hrows := h.rows_eq hfirst hsecond (eligible_completedShards _) (eligible_completedShards _)
    ⟨rfl, rfl, rfl⟩
  revert hrows
  decide

end ScorecardInfra.Cron
