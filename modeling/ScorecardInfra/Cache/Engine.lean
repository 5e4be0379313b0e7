import Mathlib.Data.String.Basic
import ScorecardInfra.Cache.Operations
import ScorecardInfra.Cron.Worker
import ScorecardInfra.Tokens.Retry

/-!
# The live scanner

`EngineScanner.Scan` waits for the host's limiter, makes a client for the repository, runs Scorecard
under the backoff until a run succeeds or the repository is to be skipped, sorts the checks by name
and formats the result. The client is closed however the scan ends.

A run that is to be skipped is not repeated, and what is returned is made from the last run
(`scan_outcome`). The commit and the completeness that a result carries are those of its own JSON.

`scorecard.Run`, the clients, the policy and `AsJSON2` are from outside. `sort.Slice` is any
function that sorts: it need not keep the order of checks with one name.

## Main definitions

* `EngineOp`, `EngineScanner`, `newEngineScanner`, `EngineScanner.scan`.
* `runsOf`, `EngineScanner.May`, `EngineScanner.Ended`.

## Main results

* `scan_outcome`, `sorted_congr`.

Source: `internal/scan/engine.go`, lines 42–251.
-/

namespace ScorecardInfra.Cache

open GoStd Interaction Tokens

/-! ### Operations -/

/-- The operations of a scan. -/
inductive EngineOp : Type
  /-- `Wait` of the limiter for a host. -/
  | waitLimiter (host : String)
  | makeGitlabRepo (name : String)
  | createGitlabClient (host : String)
  | makeGithubRepo (name : String)
  | createGithubRepoClient
  /-- `policy.GetEnabled`: the names of the checks, in the order of a range over the map. -/
  | getEnabled (checks : List String) (commitBased : Bool) (repo : Cron.RepoInfo)
  /-- `scorecard.Run`. -/
  | run (repo : Cron.RepoInfo) (commitSHA : String) (checks : List String)
  /-- The `select` of `tokens.Retry` between a timer and the context. -/
  | select (d : Duration)
  | closeClient

/-- The operations with their answers. -/
abbrev EngineSig : Signature where
  Op := EngineOp
  Ans
    | .waitLimiter _ | .createGitlabClient _ | .closeClient => Except String Unit
    | .makeGitlabRepo _ | .makeGithubRepo _ => Except String Cron.RepoInfo
    | .createGithubRepoClient => Unit
    | .getEnabled _ _ _ => Except String (List String)
    | .run _ _ _ => Except Cron.ScanError Cron.ScanResult
    | .select _ => Option RetryError

/-- The errors of a scan. -/
inductive EngineError : Type
  /-- `ErrSkipped`. -/
  | skipped
  /-- `fmt.Errorf("context: %w", err)`. -/
  | wrapf (context message : String)
  /-- `fmt.Errorf("context %q: %w", name, err)`. -/
  | named (context name message : String)
  /-- An error of `model.Parse`, in a context. -/
  | parsing (context : String) (e : DecodeError)
  /-- Another error of `tokens.Retry`. -/
  | retry (e : RetryError)

/-- Programs of the scanner. -/
abbrev EngineProg (α : Type) : Type := Fallible EngineError (Prog EngineSig) α

/-- Perform one operation. -/
def performEngine (o : EngineOp) : EngineProg (EngineSig.Ans o) :=
  Fallible.perform (S := EngineSig) o

/-! ### The scanner -/

/-- `ipAllowListMarker`. -/
def ipAllowListMarker : String := "organization has an IP allow list"

/-- `isSkip`, of an error. -/
def isSkip (err : Cron.ScanError) : Bool :=
  err.isRepoUnreachable || Strings.contains err.message ipAllowListMarker

/-- `ErrSkipped`, as `tokens.Retry` returns it. -/
def errSkipped : RetryError := .text "scan: repository skipped (unreachable or blocked)"

theorem zeroTime_year : 1 ≤ 9999 := by decide

theorem zeroTime_month : 1 ≤ 1 ∧ 1 ≤ 12 := by decide

theorem zeroTime_day : 1 ≤ 1 ∧ 1 ≤ daysIn 1 1 := by decide

theorem zeroTime_hour : 0 ≤ 23 := by decide

theorem zeroTime_minute : 0 ≤ 59 := by decide

/-- The zero `time.Time`. -/
def zeroTime : Time where
  year := 1
  month := 1
  day := 1
  hour := 0
  minute := 0
  second := 0
  nanosecond := 0
  year_le := zeroTime_year
  month_mem := zeroTime_month
  day_mem := zeroTime_day
  hour_le := zeroTime_hour
  minute_le := zeroTime_minute
  second_le := zeroTime_minute
  nanosecond_le := Time.zero_nanosecond_le

/-- The zero `scorecard.Result`. -/
def zeroResult : Cron.ScanResult := ⟨[], "", "", "", zeroTime, ""⟩

/-- The fields of `EngineScanner` that decide what a scan does, with `sort.Slice` by the names of
checks and `AsJSON2` at the scanner's options. `NewEngineScanner` sets a backoff with an attempt. -/
structure EngineScanner where
  checks : List String
  backoff : BackoffConfig
  one_le_maxAttempts : 1 ≤ backoff.maxAttempts
  sortSlice : List Cron.CheckResult → List Cron.CheckResult
  perm_sortSlice : ∀ l, (sortSlice l).Perm l
  pairwise_sortSlice : ∀ l, (sortSlice l).Pairwise fun a b => a.name ≤ b.name
  asJSON2 : Cron.ScanResult → Except String String

/-- `EngineConfig`, apart from the limiter and the log level. -/
structure EngineConfig where
  checks : List String
  backoff : BackoffConfig

/-- `mergeSort`, for `sort.Slice` by the names of checks. -/
def sortByName (l : List Cron.CheckResult) : List Cron.CheckResult :=
  l.mergeSort fun a b => decide (a.name ≤ b.name)

theorem perm_sortByName (l : List Cron.CheckResult) : (sortByName l).Perm l :=
  List.mergeSort_perm _ _

theorem pairwise_sortByName (l : List Cron.CheckResult) :
    (sortByName l).Pairwise fun a b => a.name ≤ b.name := by
  refine (List.pairwise_mergeSort ?_ ?_ l).imp fun h => of_decide_eq_true h
  · intro a b c hab hbc
    exact decide_eq_true (le_trans (of_decide_eq_true hab) (of_decide_eq_true hbc))
  · intro a b
    rw [Bool.or_eq_true, decide_eq_true_eq, decide_eq_true_eq]
    exact le_total a.name b.name

/-- `NewEngineScanner`, after the documentation of the checks has been read.

Source: `internal/scan/engine.go`, lines 78–113. -/
def newEngineScanner (cfg : EngineConfig) (asJSON2 : Cron.ScanResult → Except String String) :
    EngineScanner where
  checks := cfg.checks
  backoff := if cfg.backoff.maxAttempts < 1 then defaultBackoff else cfg.backoff
  one_le_maxAttempts := by
    split_ifs with h
    · decide
    · exact Int64.not_lt.mp h
  sortSlice := sortByName
  perm_sortSlice := perm_sortByName
  pairwise_sortSlice := pairwise_sortByName
  asJSON2 := asJSON2

/-- `repoClient`: the repository, with a client for it.

Source: `internal/scan/engine.go`, lines 222–240. -/
def repoClient (ref : RepoRef) : EngineProg Cron.RepoInfo := do
  if ref.host = hostGitLab then do
    let made ← performEngine (.makeGitlabRepo ref.name)
    let repo ← Interaction.ofExcept
      (made.mapError (.named "scan: making GitLab repo" ref.name))
    let client ← performEngine (.createGitlabClient ref.host)
    Interaction.ofExcept (client.mapError (.wrapf "scan: creating GitLab client"))
    return repo
  else do
    let made ← performEngine (.makeGithubRepo ref.name)
    let repo ← Interaction.ofExcept
      (made.mapError (.named "scan: making GitHub repo" ref.name))
    performEngine .createGithubRepoClient
    return repo

/-- What the function that is retried returns for a run. -/
def retryAnswer : Except Cron.ScanError Cron.ScanResult → Option RetryError
  | .ok _ => none
  | .error err =>
    some (if isSkip err then .permanent errSkipped
      else .wrap "scan: scorecard.Run: " (.text err.message))

/-- The operations of `tokens.Retry`, with the function that runs Scorecard and keeps the result. -/
def answerRetry (repo : Cron.RepoInfo) (commitSHA : String) (checks : List String) :
    (o : RetryOp) → Cron.ScanResult → EngineProg (Option RetryError × Cron.ScanResult)
  | .fn, _ => do
    let answer ← performEngine (.run repo commitSHA checks)
    return (retryAnswer answer, answer.toOption.getD zeroResult)
  | .select d, res => do
    let done ← performEngine (.select d)
    return (done, res)

namespace EngineScanner

variable (s : EngineScanner)

/-- `EngineScanner.run`: the error of `tokens.Retry`, and the result that was kept.

Source: `internal/scan/engine.go`, lines 186–219. -/
def run (repo : Cron.RepoInfo) (commitSHA : String) (checks : List String) :
    EngineProg (Option RetryError × Cron.ScanResult) :=
  handle (answerRetry repo commitSHA checks) s.backoff.retry zeroResult

/-- The result with its checks sorted by name. -/
def sorted (res : Cron.ScanResult) : Cron.ScanResult :=
  { res with checks := s.sortSlice res.checks }

/-- The part of `Scan` between the deferred `Close` and the end.

Source: `internal/scan/engine.go`, lines 143–182. -/
def scanWithClient (repo : Cron.RepoInfo) (commit : String) : EngineProg ScanResult := do
  let commitSHA := if commit = "" then Cron.headSHA else commit
  let enabled ← performEngine (.getEnabled s.checks (commit != "") repo)
  let checks ← Interaction.ofExcept (enabled.mapError (.wrapf "scan: policy.GetEnabled"))
  let (err, res) ← s.run repo commitSHA checks
  match err with
  | some err => fail (if err = errSkipped then .skipped else .retry err)
  | none =>
    let json2 ← Interaction.ofExcept
      ((s.asJSON2 (s.sorted res)).mapError (.wrapf "scan: formatting JSON2"))
    let parsed ← Interaction.ofExcept
      ((parse json2).mapError (.parsing "scan: parsing produced JSON2"))
    return ⟨parsed.repo.commit, json2, complete parsed.checks⟩

/-- `EngineScanner.Scan`; an error of `Close` is logged.

Source: `internal/scan/engine.go`, lines 126–182. -/
def scan (ref : RepoRef) (commit : String) : EngineProg ScanResult := do
  let limited ← performEngine (.waitLimiter ref.host)
  Interaction.ofExcept (limited.mapError (.named "tokens: rate-limit wait for" ref.host))
  let repo ← repoClient ref
  let result ← attempt (s.scanWithClient repo commit)
  let _ ← performEngine .closeClient
  Interaction.ofExcept result

/-- **Order of the checks.** Results that differ in the order of checks with different names are
formatted in the same way. -/
theorem sorted_congr {res res' : Cron.ScanResult} (h : res.checks.Perm res'.checks)
    (hres : { res with checks := [] } = { res' with checks := [] })
    (hnames : (res.checks.map Cron.CheckResult.name).Nodup) : s.sorted res = s.sorted res' := by
  have hsort : s.sortSlice res.checks = s.sortSlice res'.checks := by
    refine List.Perm.eq_of_pairwise ?_ (s.pairwise_sortSlice _) (s.pairwise_sortSlice _)
      (((s.perm_sortSlice _).trans h).trans (s.perm_sortSlice _).symm)
    intro a b ha hb hab hba
    have ha' := (s.perm_sortSlice _).subset ha
    have hb' := h.symm.subset ((s.perm_sortSlice _).subset hb)
    exact List.inj_on_of_nodup_map hnames ha' hb' (le_antisymm hab hba)
  obtain ⟨checks, sha, version, commit, date, details⟩ := res
  obtain ⟨checks', sha', version', commit', date', details'⟩ := res'
  simp only [Cron.ScanResult.mk.injEq, true_and] at hres
  obtain ⟨rfl, rfl, rfl, rfl, rfl⟩ := hres
  exact congrArg (fun l => (⟨l, sha, version, commit, date, details⟩ : Cron.ScanResult)) hsort

end EngineScanner

/-! ### Runs of a scan -/

/-- The run of Scorecard that an event is. -/
def runOf : Event EngineSig → Option (Except Cron.ScanError Cron.ScanResult)
  | ⟨.run _ _ _, x⟩ => some x
  | _ => none

/-- The runs of Scorecard. -/
def runsOf (past : Trace EngineSig) : List (Except Cron.ScanError Cron.ScanResult) :=
  past.filterMap runOf

/-- The client has been created. -/
def Created (past : Trace EngineSig) : Prop :=
  ⟨.createGithubRepoClient, ()⟩ ∈ past ∨ ∃ host, ⟨.createGitlabClient host, .ok ()⟩ ∈ past

/-- The client has been closed. -/
def ClientClosed (past : Trace EngineSig) : Prop := ∃ x, ⟨.closeClient, x⟩ ∈ past

/-- A run that is repeated: it has failed, and is not to be skipped. -/
def Transient (x : Except Cron.ScanError Cron.ScanResult) : Prop :=
  ∃ err, x = .error err ∧ isSkip err = false

section Past

variable {past : Trace EngineSig}

theorem runsOf_append (t u : Trace EngineSig) : runsOf (t ++ u) = runsOf t ++ runsOf u :=
  List.filterMap_append

/-- An event that is no run. -/
theorem runsOf_snoc {e : Event EngineSig} (h : runOf e = none) :
    runsOf (past ++ [e]) = runsOf past := by
  simp [runsOf, h]

theorem Created.snoc (h : Created past) (e : Event EngineSig) : Created (past ++ [e]) :=
  h.imp (List.mem_append_left _) fun ⟨host, h⟩ => ⟨host, List.mem_append_left _ h⟩

/-- Only `Close` closes. -/
theorem not_clientClosed_snoc {e : Event EngineSig} (h : ¬ClientClosed past)
    (he : e.op ≠ .closeClient) : ¬ClientClosed (past ++ [e]) := by
  rintro ⟨x, hx⟩
  rcases List.mem_append.mp hx with hx | hx
  · exact h ⟨x, hx⟩
  · exact he (congrArg Event.op (List.mem_singleton.mp hx)).symm

end Past

namespace EngineScanner

variable (s : EngineScanner)

/-- What a scan may do after `past`: it runs Scorecard with an open client, again only after runs
that have failed, and not too often; it closes the client once. -/
def May (past : Trace EngineSig) (o : EngineOp) : Prop :=
  ¬ClientClosed past ∧ match o with
  | .run _ _ _ => Created past ∧ (runsOf past).length < s.backoff.attempts ∧
      ∀ x ∈ runsOf past, Transient x
  | .closeClient => Created past
  | _ => True

/-- What the outcome of a scan says about its runs. -/
inductive Ended (past : Trace EngineSig) : Except (Stop EngineError) ScanResult → Prop
  | scanned {result : Cron.ScanResult} {json2 : String} {parsed : Result}
      (hrun : (runsOf past).getLast? = some (.ok result))
      (hjson : s.asJSON2 (s.sorted result) = .ok json2) (hparse : parse json2 = .ok parsed) :
      Ended past (.ok ⟨parsed.repo.commit, json2, complete parsed.checks⟩)
  | skipped {err : Cron.ScanError} (hrun : (runsOf past).getLast? = some (.error err))
      (hskip : isSkip err = true) : Ended past (.error (.error .skipped))
  | failed {err : Cron.ScanError} (hrun : (runsOf past).getLast? = some (.error err))
      (hskip : isSkip err = false) (hall : (runsOf past).length = s.backoff.attempts) :
      Ended past (.error (.error
        (.retry (.wrap "scan: scorecard.Run: " (.text err.message)))))
  | aborted {d : Duration} {err : RetryError} (hselect : ⟨.select d, some err⟩ ∈ past)
      (hruns : ∀ x ∈ runsOf past, Transient x) :
      Ended past (.error (.error (.retry (.wrap "tokens: retry aborted: " err))))
  | unformatted {result : Cron.ScanResult} {message : String}
      (hrun : (runsOf past).getLast? = some (.ok result))
      (hjson : s.asJSON2 (s.sorted result) = .error message) :
      Ended past (.error (.error (.wrapf "scan: formatting JSON2" message)))
  | unparsed {result : Cron.ScanResult} {json2 : String} {e : DecodeError}
      (hrun : (runsOf past).getLast? = some (.ok result))
      (hjson : s.asJSON2 (s.sorted result) = .ok json2) (hparse : parse json2 = .error e) :
      Ended past (.error (.error (.parsing "scan: parsing produced JSON2" e)))
  | notRun {e : EngineError} (hne : e ≠ .skipped) (hrun : runsOf past = []) :
      Ended past (.error (.error e))

variable {s} {past : Trace EngineSig}

/-! ### The part that is retried -/

/-- A call of the function that is retried has failed for the time being. -/
theorem transient_of_retryAnswer {x : Except Cron.ScanError Cron.ScanResult}
    (h : ∃ err, retryAnswer x = some err ∧ err.asPermanent = none) : Transient x := by
  obtain ⟨err, herr, hperm⟩ := h
  cases x with
  | ok res => cases herr
  | error e =>
    refine ⟨e, rfl, ?_⟩
    rw [retryAnswer] at herr
    obtain rfl := Option.some.inj herr
    rw [← Bool.not_eq_true]
    intro hskip
    rw [if_pos hskip] at hperm
    cases hperm

/-- What relates a run of `tokens.Retry`, after `tried`, to the scan. -/
structure Retrying (tried : Trace RetrySig) (res : Cron.ScanResult) (past : Trace EngineSig) :
    Prop where
  created : Created past
  unclosed : ¬ClientClosed past
  runs : calls tried = (runsOf past).map retryAnswer
  result : ∀ result, (runsOf past).getLast? = some (.ok result) → res = result
  waited : ∀ d err, ⟨.select d, some err⟩ ∈ tried → ⟨.select d, some err⟩ ∈ past

theorem Retrying.transient {tried : Trace RetrySig} {res : Cron.ScanResult}
    (h : Retrying tried res past) (hcall : s.backoff.MayCall tried) :
    (runsOf past).length < s.backoff.attempts ∧ ∀ x ∈ runsOf past, Transient x := by
  have hlt := hcall.lt
  rw [h.runs, List.length_map] at hlt
  refine ⟨hlt, fun x hx => transient_of_retryAnswer (hcall.failed _ ?_)⟩
  rw [h.runs]
  exact List.mem_map_of_mem hx

/-- One operation of `tokens.Retry`. -/
theorem ensures_answerRetry {repo : Cron.RepoInfo} {commitSHA : String} {checks : List String}
    (o : RetryOp) {tried : Trace RetrySig} {res : Cron.ScanResult} (h : Retrying tried res past)
    (ho : s.backoff.Retries tried o) :
    Ensures (.history s.May) past (answerRetry repo commitSHA checks o res)
      (fun p past => Retrying (tried ++ [⟨o, p.1⟩]) p.2 past) fun _ _ => False := by
  cases o with
  | fn =>
    refine ensures_perform_bind ⟨h.unclosed, h.created, h.transient ho⟩ fun x => ?_
    have hruns : runsOf (past ++ [⟨.run repo commitSHA checks, x⟩]) = runsOf past ++ [x] := by
      rw [runsOf_append]
      rfl
    refine ⟨h.created.snoc _, not_clientClosed_snoc h.unclosed nofun, ?_, ?_, ?_⟩
    · rw [Monitor.history_next, hruns, BackoffConfig.calls_append, h.runs, List.map_append]
      rfl
    · intro result hlast
      rw [Monitor.history_next, hruns, List.getLast?_concat] at hlast
      obtain rfl := Option.some.inj hlast
      rfl
    · intro d err hmem
      rcases List.mem_append.mp hmem with hmem | hmem
      · exact List.mem_append_left _ (h.waited d err hmem)
      · simp at hmem
  | select d =>
    refine ensures_perform_bind ⟨h.unclosed, trivial⟩ fun x => ?_
    have hruns : runsOf (past ++ [⟨.select d, x⟩]) = runsOf past := runsOf_snoc rfl
    refine ⟨h.created.snoc _, not_clientClosed_snoc h.unclosed nofun, ?_, ?_, ?_⟩
    · rw [Monitor.history_next, hruns, BackoffConfig.calls_append, h.runs]
      exact List.append_nil _
    · intro result hlast
      rw [Monitor.history_next, hruns] at hlast
      exact h.result result hlast
    · intro d' err hmem
      rcases List.mem_append.mp hmem with hmem | hmem
      · exact List.mem_append_left _ (h.waited d' err hmem)
      · obtain ⟨hd, hx⟩ := Event.mk.inj (List.mem_singleton.mp hmem)
        obtain rfl := RetryOp.select.inj hd
        obtain rfl := eq_of_heq hx
        exact List.mem_append_right _ (List.mem_singleton_self _)

/-- **Runs of Scorecard** under the backoff. -/
theorem ensures_run {repo : Cron.RepoInfo} {commitSHA : String} {checks : List String}
    (hcreated : Created past) (hunclosed : ¬ClientClosed past) (hruns : runsOf past = []) :
    Ensures (.history s.May) past (s.run repo commitSHA checks)
      (fun p past => ∃ tried, s.backoff.Retried tried p.1 ∧ Retrying tried p.2 past)
      fun _ _ => False := by
  refine ensures_handle (fun tried res past => Retrying tried res past)
    (fun o tried res past h ho => ensures_answerRetry o h ho) _ _ [] past
    (BackoffConfig.safe_retry s.one_le_maxAttempts) ?_
  refine ⟨hcreated, hunclosed, by rw [hruns]; rfl, ?_, fun _ _ h => absurd h List.not_mem_nil⟩
  intro result hlast
  rw [hruns] at hlast
  cases hlast

/-- How a run of `tokens.Retry` that ended with an error is reported. -/
theorem Retrying.ended {tried : Trace RetrySig} {res : Cron.ScanResult} {err : RetryError}
    (h : Retrying tried res past) (htried : s.backoff.Retried tried (some err)) :
    s.Ended past (.error (.error (if err = errSkipped then .skipped else .retry err))) := by
  have hlast : ∀ {err : RetryError}, (calls tried).getLast? = some (some err) →
      ∃ e, (runsOf past).getLast? = some (.error e) ∧ retryAnswer (.error e) = some err := by
    intro err herr
    rw [h.runs, List.getLast?_map, Option.map_eq_some_iff] at herr
    obtain ⟨x, hx, hanswer⟩ := herr
    cases x with
    | ok => cases hanswer
    | error e => exact ⟨e, hx, hanswer⟩
  cases htried with
  | @permanent err' _ herr hperm =>
    obtain ⟨e, hrun, hanswer⟩ := hlast herr
    obtain rfl := Option.some.inj hanswer
    by_cases hskip : isSkip e = true
    · rw [if_pos hskip] at hperm
      obtain rfl := Option.some.inj hperm
      rw [if_pos rfl]
      exact .skipped hrun hskip
    · rw [if_neg hskip] at hperm
      cases hperm
  | exhausted herr hperm hlen =>
    obtain ⟨e, hrun, hanswer⟩ := hlast herr
    obtain rfl := Option.some.inj hanswer
    by_cases hskip : isSkip e = true
    · rw [if_pos hskip] at hperm
      cases hperm
    · rw [if_neg hskip, if_neg nofun]
      rw [h.runs, List.length_map] at hlen
      exact .failed hrun (Bool.eq_false_iff.mpr hskip) hlen
  | aborted hselect hcall =>
    rw [if_neg nofun]
    exact .aborted (h.waited _ _ hselect) (h.transient hcall).2

/-- The client is open. -/
structure Open (past : Trace EngineSig) : Prop where
  created : Created past
  unclosed : ¬ClientClosed past

/-- The part of a scan with a client. -/
theorem ensures_scanWithClient {repo : Cron.RepoInfo} {commit : String} (h : Open past)
    (hruns : runsOf past = []) :
    Ensures (.history s.May) past (s.scanWithClient repo commit)
      (fun res past => Open past ∧ s.Ended past (.ok res))
      fun stop past => ∃ e, stop = .error e ∧ Open past ∧ s.Ended past (.error stop) := by
  refine ensures_perform_bind ⟨h.unclosed, trivial⟩ fun enabled => ?_
  rw [Monitor.history_next]
  have hcreated := h.created.snoc ⟨.getEnabled s.checks (commit != "") repo, enabled⟩
  have hunclosed := not_clientClosed_snoc (e := ⟨.getEnabled s.checks (commit != "") repo, enabled⟩)
    h.unclosed nofun
  have hnone : runsOf (past ++ [⟨.getEnabled s.checks (commit != "") repo, enabled⟩]) = [] := by
    rw [runsOf_snoc rfl, hruns]
  generalize past ++ [⟨.getEnabled s.checks (commit != "") repo, enabled⟩] = past at *
  refine ensures_mapError_bind (fun checks _ => ?_)
    fun message _ => ⟨_, rfl, ⟨hcreated, hunclosed⟩, .notRun nofun hnone⟩
  refine ((ensures_run hcreated hunclosed hnone).mono (fun _ _ h => h)
    fun _ _ h => h.elim).bind ?_
  rintro ⟨err, res⟩ past' ⟨tried, htried, hretrying⟩
  have hopen : Open past' := ⟨hretrying.created, hretrying.unclosed⟩
  dsimp only at htried hretrying ⊢
  cases err with
  | some err => exact ⟨_, rfl, hopen, hretrying.ended htried⟩
  | none =>
    obtain ⟨result, hlast⟩ : ∃ result, (runsOf past').getLast? = some (.ok result) := by
      cases htried with
      | succeeded hlast =>
        rw [hretrying.runs, List.getLast?_map, Option.map_eq_some_iff] at hlast
        obtain ⟨x, hx, hanswer⟩ := hlast
        cases x with
        | ok result => exact ⟨result, hx⟩
        | error e => cases hanswer
    obtain rfl := hretrying.result result hlast
    refine ensures_mapError_bind (fun json2 hjson => ?_)
      fun message hjson => ⟨_, rfl, hopen, .unformatted hlast hjson⟩
    refine ensures_mapError_bind (fun parsed hparse => ?_)
      fun e hparse => ⟨_, rfl, hopen, .unparsed hlast hjson hparse⟩
    exact ⟨hopen, .scanned hlast hjson hparse⟩

/-- Closing the client changes nothing about the outcome. -/
theorem Ended.snoc {r : Except (Stop EngineError) ScanResult} (h : s.Ended past r)
    {e : Event EngineSig} (he : runOf e = none) : s.Ended (past ++ [e]) r := by
  have hruns : runsOf (past ++ [e]) = runsOf past := runsOf_snoc he
  cases h with
  | scanned hrun hjson hparse => exact .scanned (by rwa [hruns]) hjson hparse
  | skipped hrun hskip => exact .skipped (by rwa [hruns]) hskip
  | failed hrun hskip hall => exact .failed (by rwa [hruns]) hskip (by rwa [hruns])
  | aborted hselect hall => exact .aborted (List.mem_append_left _ hselect) (by rwa [hruns])
  | unformatted hrun hjson => exact .unformatted (by rwa [hruns]) hjson
  | unparsed hrun hjson hparse => exact .unparsed (by rwa [hruns]) hjson hparse
  | notRun hne hrun => exact .notRun hne (by rwa [hruns])

/-- How a scan ends: if the client was created, it has been closed just now. -/
def Finished (s : EngineScanner) (past : Trace EngineSig)
    (r : Except (Stop EngineError) ScanResult) : Prop :=
  s.Ended past r ∧ (Created past → ∃ t x, past = t ++ [⟨.closeClient, x⟩])

/-- A scan that ends before there is a client. -/
theorem finished_of_not_created {e : EngineError} (hne : e ≠ .skipped) (hruns : runsOf past = [])
    (hcreated : ¬Created past) : s.Finished past (.error (.error e)) :=
  ⟨.notRun hne hruns, fun h => absurd h hcreated⟩

/-- The operations before a run. -/
def IsSetup : EngineOp → Prop
  | .waitLimiter _ | .makeGitlabRepo _ | .makeGithubRepo _ => True
  | _ => False

theorem setup_of_forall (h : ∀ e ∈ past, IsSetup e.op) :
    runsOf past = [] ∧ ¬Created past ∧ ¬ClientClosed past := by
  refine ⟨List.filterMap_eq_nil_iff.mpr fun e he => ?_, ?_, fun ⟨x, hx⟩ => h _ hx⟩
  · have hsetup := h e he
    obtain ⟨o, x⟩ := e
    cases o <;> first | rfl | exact hsetup.elim
  · rintro (hmem | ⟨host, hmem⟩)
    exacts [h _ hmem, h _ hmem]

/-- The client of a repository. -/
theorem ensures_repoClient (ref : RepoRef) (h : ∀ e ∈ past, IsSetup e.op) :
    Ensures (.history s.May) past (repoClient ref)
      (fun _ past => Open past ∧ runsOf past = [])
      fun stop past => s.Finished past (.error stop) := by
  have hnext : ∀ {past : Trace EngineSig} {e : Event EngineSig}, (∀ e ∈ past, IsSetup e.op) →
      IsSetup e.op → ∀ e' ∈ past ++ [e], IsSetup e'.op := by
    intro past e h he e' he'
    rcases List.mem_append.mp he' with he' | he'
    · exact h e' he'
    · rwa [List.mem_singleton.mp he']
  have hopen : ∀ {past : Trace EngineSig} {e : Event EngineSig}, (∀ e ∈ past, IsSetup e.op) →
      Created (past ++ [e]) → runOf e = none → e.op ≠ .closeClient →
      Open (past ++ [e]) ∧ runsOf (past ++ [e]) = [] := by
    intro past e h hcreated hrun hop
    obtain ⟨hruns, -, hclosed⟩ := setup_of_forall h
    exact ⟨⟨hcreated, not_clientClosed_snoc hclosed hop⟩, by rw [runsOf_snoc hrun, hruns]⟩
  unfold repoClient
  split_ifs
  · refine ensures_perform_bind ⟨(setup_of_forall h).2.2, trivial⟩ fun made => ?_
    have h₁ := hnext (e := ⟨.makeGitlabRepo ref.name, made⟩) h trivial
    refine ensures_mapError_bind (fun repo _ => ?_) fun message _ =>
      finished_of_not_created nofun (setup_of_forall h₁).1 (setup_of_forall h₁).2.1
    refine ensures_perform_bind ⟨(setup_of_forall h₁).2.2, trivial⟩ fun client => ?_
    obtain ⟨hruns, hcreated, -⟩ := setup_of_forall h₁
    refine ensures_mapError_bind (fun u hu => ?_) fun message hmessage => ?_
    · subst hu
      exact hopen h₁ (Or.inr ⟨ref.host, List.mem_append_right _ (List.mem_singleton_self _)⟩) rfl
        nofun
    · subst hmessage
      refine finished_of_not_created nofun ?_ ?_
      · rw [Monitor.history_next, runsOf_snoc rfl]
        exact hruns
      · rintro (hmem | ⟨host, hmem⟩)
        · rcases List.mem_append.mp hmem with hmem | hmem
          · exact hcreated (Or.inl hmem)
          · simp at hmem
        · rcases List.mem_append.mp hmem with hmem | hmem
          · exact hcreated (Or.inr ⟨host, hmem⟩)
          · simp at hmem
  · refine ensures_perform_bind ⟨(setup_of_forall h).2.2, trivial⟩ fun made => ?_
    have h₁ := hnext (e := ⟨.makeGithubRepo ref.name, made⟩) h trivial
    refine ensures_mapError_bind (fun repo _ => ?_) fun message _ =>
      finished_of_not_created nofun (setup_of_forall h₁).1 (setup_of_forall h₁).2.1
    refine ensures_perform_bind ⟨(setup_of_forall h₁).2.2, trivial⟩ fun u => ?_
    exact hopen h₁ (Or.inl (List.mem_append_right _ (List.mem_singleton_self _))) rfl nofun

/-- **A scan** under the protocol. -/
theorem ensures_scan (ref : RepoRef) (commit : String) :
    Ensures (.history s.May) [] (s.scan ref commit) (fun res past => s.Finished past (.ok res))
      fun stop past => s.Finished past (.error stop) := by
  have hnone : ¬ClientClosed [] := fun ⟨_, h⟩ => absurd h List.not_mem_nil
  refine ensures_perform_bind ⟨hnone, trivial⟩ fun limited => ?_
  have hsetup : ∀ e ∈ [(⟨.waitLimiter ref.host, limited⟩ : Event EngineSig)], IsSetup e.op := by
    intro e he
    rw [List.mem_singleton.mp he]
    trivial
  refine ensures_mapError_bind (fun _ _ => ?_) fun message _ =>
    finished_of_not_created nofun (setup_of_forall hsetup).1 (setup_of_forall hsetup).2.1
  refine (ensures_repoClient ref hsetup).bind fun repo past ⟨hopen, hruns⟩ => ?_
  refine (ensures_attempt (R := fun result past => Open past ∧
    s.Ended past (result.mapError .error)) ?_).bind ?_
  · refine (ensures_scanWithClient hopen hruns).mono (fun _ _ h => h) ?_
    rintro (e | message) past' ⟨e', he, hopen', hended⟩
    · exact ⟨hopen', hended⟩
    · cases he
  · rintro result past' ⟨hopen', hended⟩
    refine ensures_perform_bind ⟨hopen'.unclosed, hopen'.created⟩ fun x => ?_
    have hfinished : s.Finished (past' ++ [⟨.closeClient, x⟩]) (result.mapError .error) :=
      ⟨hended.snoc rfl, fun _ => ⟨past', x, rfl⟩⟩
    cases result with
    | error e => exact hfinished
    | ok res => exact hfinished

/-- What is known of the runs of a scan that does what it may do. -/
theorem runs_of_may {t : Trace EngineSig}
    (h : ∀ pre e post, t = pre ++ e :: post → s.May pre e.op) :
    (runsOf t).length ≤ s.backoff.attempts ∧ ∀ x ∈ (runsOf t).dropLast, Transient x := by
  induction t using List.reverseRecOn with
  | nil => exact ⟨Nat.zero_le _, List.forall_mem_nil _⟩
  | append_singleton t e ih =>
    obtain ⟨hlen, hlast⟩ := ih fun pre e' post ht =>
      h pre e' (post ++ [e]) (by rw [ht, List.append_assoc]; rfl)
    have hmay := h t e [] rfl
    rcases hrun : runOf e with _ | x
    · rw [runsOf_snoc hrun]
      exact ⟨hlen, hlast⟩
    · have hruns : runsOf (t ++ [e]) = runsOf t ++ [x] := by simp [runsOf, hrun]
      obtain ⟨o, y⟩ := e
      cases o <;> cases hrun
      obtain ⟨-, -, hlt, hall⟩ := hmay
      rw [hruns, List.length_append, List.length_singleton, List.dropLast_concat]
      exact ⟨hlt, hall⟩

/-- What is known of a scan that has ended. -/
structure ScanRun (s : EngineScanner) (t : Trace EngineSig)
    (r : Except (Stop EngineError) ScanResult) : Prop where
  ended : s.Ended t r
  attempts : (runsOf t).length ≤ s.backoff.attempts
  repeated : ∀ x ∈ (runsOf t).dropLast, Transient x
  closed : Created t ↔ ∃ t' x, t = t' ++ [⟨.closeClient, x⟩]
  unclosed : ∀ pre e post, t = pre ++ e :: post → ¬ClientClosed pre

theorem finished_of_exec {ref : RepoRef} {commit : String} {t : Trace EngineSig}
    {r : Except (Stop EngineError) ScanResult} (h : Exec (s.scan ref commit).run t (some r)) :
    s.Finished t r := by
  have hpost := h.post (ensures_scan ref commit)
  rw [Monitor.after_history, List.nil_append] at hpost
  cases r with
  | error stop => exact hpost
  | ok res => exact hpost

/-- **Scans.** Scorecard runs as often as the backoff allows at most, and again only after runs that
have failed and are not to be skipped. What is returned is made from the last run. If a client was
created, it is closed once, as the last operation. -/
theorem scan_outcome (s : EngineScanner) (ref : RepoRef) (commit : String) (t : Trace EngineSig)
    (r : Except (Stop EngineError) ScanResult) (h : Exec (s.scan ref commit).run t (some r)) :
    s.ScanRun t r := by
  have hmay : ∀ pre e post, t = pre ++ e :: post → s.May pre e.op := by
    rintro pre e post rfl
    have hallows := h.allows (ensures_scan ref commit)
    rwa [Monitor.after_history] at hallows
  have hfinished := finished_of_exec h
  obtain ⟨hlen, hlast⟩ := runs_of_may hmay
  refine ⟨hfinished.1, hlen, hlast, ⟨hfinished.2, ?_⟩, fun pre e post ht => (hmay pre e post ht).1⟩
  rintro ⟨t', x, rfl⟩
  exact (hmay t' _ [] rfl).2.imp (List.mem_append_left _) fun ⟨host, h⟩ =>
    ⟨host, List.mem_append_left _ h⟩

end EngineScanner

/-- The commit and the completeness of a result are those that its JSON says. -/
def ScanResult.Consistent (res : ScanResult) : Prop :=
  ∃ parsed, parse res.json2 = .ok parsed ∧ res.resolvedCommit = parsed.repo.commit ∧
    res.complete = Cache.complete parsed.checks

/-- **Results of scans** are consistent. -/
theorem EngineScanner.consistent_of_exec {s : EngineScanner} {ref : RepoRef} {commit : String}
    {t : Trace EngineSig} {res : ScanResult}
    (h : Exec (s.scan ref commit).run t (some (.ok res))) : res.Consistent := by
  cases (finished_of_exec h).1 with
  | scanned hrun hjson hparse => exact ⟨_, hparse, rfl, rfl⟩

/-! ### A scan with two runs -/

/-- A scanner whose results are all formatted as an empty object. -/
def sampleEngine : EngineScanner := newEngineScanner ⟨[], ⟨0, 0, 0⟩⟩ fun _ => .ok "\x7b\x7d"

/-- The first run fails, the second one succeeds. -/
def sampleEngineTrace : Trace EngineSig :=
  [⟨.waitLimiter "github.com", .ok ()⟩, ⟨.makeGithubRepo sampleRef.name, .ok ⟨"", []⟩⟩,
    ⟨.createGithubRepoClient, ()⟩, ⟨.getEnabled [] false ⟨"", []⟩, .ok ["SAST"]⟩,
    ⟨.run ⟨"", []⟩ "HEAD" ["SAST"], .error ⟨"timeout", false⟩⟩,
    ⟨.select defaultBackoff.base, none⟩, ⟨.run ⟨"", []⟩ "HEAD" ["SAST"], .ok zeroResult⟩,
    ⟨.closeClient, .ok ()⟩]

theorem exec_sampleEngine : Exec (sampleEngine.scan sampleRef "").run sampleEngineTrace
    (some (.ok ⟨"", "\x7b\x7d", true⟩)) := by
  refine .op _ (.op _ (.op _ (.op _ (.op _ (.op _ (.op _ (.op _ ?_)))))))
  exact .ret _

/-- The run that failed is repeated, and the client is closed. -/
theorem scan_outcome_sampleEngine :
    sampleEngine.ScanRun sampleEngineTrace (.ok ⟨"", "\x7b\x7d", true⟩) :=
  EngineScanner.scan_outcome sampleEngine sampleRef "" _ _ exec_sampleEngine

end ScorecardInfra.Cache
