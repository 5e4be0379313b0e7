import ScorecardInfra.Cache.Ref
import ScorecardInfra.Cache.Result
import ScorecardInfra.GoStd.Calendar

/-!
# Fresh and stale results

The upstream client refuses a result that is older than the maximum age (`stale`), and the
orchestrator serves a stored result while it is within its window (`fresh`): the maximum age for one
that came from the upstream, the TTL for one that was scanned here. Both read the result's date in
the layout `time.RFC3339`, and take a date that they cannot read as too old.

For a date in that layout both decide by the age (`stale_formatRFC3339`, `fresh_formatRFC3339`). The
dates that the batch pipeline writes have the layout `2006-01-02`, which neither reads; so both are
right about a batch result exactly if it is too old (`batchDate_recognised_iff`).

## Main definitions

* `Origin`, `HTTPAnswer`, `Client`, `Client.fetch`, `Client.stale`.
* `Config`, `Orchestrator`, `new`, `Orchestrator.fresh`.
* `Recognised`: both decide by the age of the result.

## Main results

* `stale_formatRFC3339`, `fresh_formatRFC3339`.
* `batchDate_recognised_iff`.

Source: `internal/fallback/fallback.go`, `internal/orchestrator/orchestrator.go`, lines 145–221.
-/

namespace ScorecardInfra.Cache

open GoStd Interaction

/-- `store.Origin`: the two values that are written, and any other tag of an object. -/
inductive Origin : Type
  | originLocal
  | originUpstream
  | other (tag : String)
  deriving DecidableEq, Repr

/-! ### The upstream client -/

/-- What the HTTP request to the upstream gives: a transport error, or a status and the body. -/
inductive HTTPAnswer : Type
  | failed (message : String)
  | response (status : Nat) (body : Except String String)
  deriving DecidableEq

/-- The errors of `Fetch`; only `ErrFallbackMiss` is told apart. -/
inductive FetchError : Type
  | miss
  | requesting (name message : String)
  | status (code : Nat) (name : String)
  | reading (name message : String)
  | parsing (name : String) (e : DecodeError)

/-- The fields of `fallback.Client`; durations are in nanoseconds. -/
structure Client where
  baseURL : String
  maxAge : Int

/-- `maxResponseBytes`. -/
def maxResponseBytes : Nat := 8 * 2 ^ 20

namespace Client

variable (c : Client)

/-- The URL that `Fetch` requests. -/
def endpoint (ref : RepoRef) : String :=
  c.baseURL ++ "/projects/" ++ ref.host ++ "/" ++ ref.org ++ "/" ++ ref.repo

/-- `Client.stale`, at the time `now`.

Source: `internal/fallback/fallback.go`, lines 128–134. -/
def stale (now : Int) (date : String) : Bool :=
  match parseRFC3339 date.toList with
  | .error _ => true
  | .ok t => decide (c.maxAge < durationSince now t)

/-- What `Fetch` makes of a body that was read.

Source: `internal/fallback/fallback.go`, lines 112–122. -/
def ofBody (now : Int) (ref : RepoRef) (body : String) : Except FetchError ScanResult :=
  match parse body with
  | .error e => .error (.parsing ref.name e)
  | .ok parsed =>
    if c.stale now parsed.date then .error .miss
    else .ok ⟨parsed.repo.commit, body, complete parsed.checks⟩

/-- `Client.Fetch`, after the request. The body is read up to `maxResponseBytes`.

Source: `internal/fallback/fallback.go`, lines 80–123. -/
def fetch (now : Int) (ref : RepoRef) : HTTPAnswer → Except FetchError ScanResult
  | .failed message => .error (.requesting ref.name message)
  | .response status body =>
    if status = 200 then
      match body with
      | .error message => .error (.reading ref.name message)
      | .ok body => c.ofBody now ref (String.ofList (body.toList.take maxResponseBytes))
    else if status = 404 then .error .miss
    else .error (.status status ref.name)

end Client

/-! ### The orchestrator's windows -/

/-- The fields of `orchestrator.Config` that decide what is returned; the timeouts decide when. -/
structure Config where
  ttl : Int
  retryAfter : Int
  fallbackMaxAge : Int

/-- The fields of `Orchestrator` that `New` sets from them. -/
structure Orchestrator where
  ttl : Int
  retryAfter : Int
  fallbackMaxAge : Int

/-- `defaultRetryAfter`. -/
def defaultRetryAfter : Int := 10 * secondNanos

/-- `defaultFallbackMaxAge`. -/
def defaultFallbackMaxAge : Int := 7 * 24 * 60 * 60 * secondNanos

/-- `New`. -/
def new (cfg : Config) : Orchestrator where
  ttl := cfg.ttl
  retryAfter := if cfg.retryAfter ≤ 0 then defaultRetryAfter else cfg.retryAfter
  fallbackMaxAge := if cfg.fallbackMaxAge ≤ 0 then defaultFallbackMaxAge else cfg.fallbackMaxAge

/-- How long a stored result stays fresh. -/
def Orchestrator.window (o : Orchestrator) (origin : Origin) : Int :=
  if origin = .originUpstream then o.fallbackMaxAge else o.ttl

/-- `Orchestrator.fresh`, at the time `now`.

Source: `internal/orchestrator/orchestrator.go`, lines 207–221. -/
def Orchestrator.fresh (o : Orchestrator) (now : Int) (body : String) (origin : Origin) : Bool :=
  match parse body with
  | .error _ => false
  | .ok parsed => match parseRFC3339 parsed.date.toList with
    | .error _ => false
    | .ok date => decide (durationSince now date ≤ o.window origin)

/-! ### Fetched results -/

/-- What is fetched is a result that is read and not stale, with its commit and its checks. -/
theorem Client.fetch_eq_ok {c : Client} {now : Int} {ref : RepoRef} {answer : HTTPAnswer}
    {res : ScanResult} (h : c.fetch now ref answer = .ok res) :
    ∃ parsed, parse res.json2 = .ok parsed ∧ c.stale now parsed.date = false ∧
      res.resolvedCommit = parsed.repo.commit ∧ res.complete = complete parsed.checks := by
  rcases answer with message | ⟨status, body⟩
  · cases h
  dsimp only [fetch] at h
  split_ifs at h
  rcases body with message | body
  · cases h
  dsimp only [ofBody] at h
  split at h
  · cases h
  · rename_i parsed hparse
    split_ifs at h with hstale
    cases h
    exact ⟨parsed, hparse, Bool.eq_false_iff.mpr hstale, rfl, rfl⟩

/-- A body of permitted length that is read and not stale is fetched. -/
theorem Client.fetch_of_parse {c : Client} {now : Int} {ref : RepoRef} {body : String}
    {parsed : Result} (hlength : body.toList.length ≤ maxResponseBytes)
    (hparse : parse body = .ok parsed) (hstale : c.stale now parsed.date = false) :
    c.fetch now ref (.response 200 (.ok body)) =
      .ok ⟨parsed.repo.commit, body, complete parsed.checks⟩ := by
  rw [fetch, if_pos rfl, List.take_of_length_le hlength, String.ofList_toList, ofBody, hparse]
  exact if_neg (by rw [hstale]; exact Bool.false_ne_true)

/-! ### Dates in the layout RFC3339 -/

/-- The upstream client decides by the age of a date that it can read. -/
theorem stale_formatRFC3339 {c : Client} (hlow : -2 ^ 63 ≤ c.maxAge) (hhigh : c.maxAge < 2 ^ 63 - 1)
    (now : Int) (t : Time) :
    c.stale now (String.ofList t.formatRFC3339) = false ↔ now - t.truncate.unixNano ≤ c.maxAge := by
  rw [Client.stale, String.toList_ofList, parseRFC3339_formatRFC3339]
  dsimp only
  rw [decide_eq_false_iff_not, Int.not_lt, durationSince_le_iff hlow hhigh]

/-- The orchestrator decides by the age of a date that it can read. -/
theorem fresh_formatRFC3339 {o : Orchestrator} {origin : Origin} (hlow : -2 ^ 63 ≤ o.window origin)
    (hhigh : o.window origin < 2 ^ 63 - 1) (now : Int) {t : Time} {body : String} {r : Result}
    (hbody : parse body = .ok r) (hdate : r.date = String.ofList t.formatRFC3339) :
    o.fresh now body origin = true ↔ now - t.truncate.unixNano ≤ o.window origin := by
  rw [Orchestrator.fresh, hbody]
  dsimp only
  rw [hdate, String.toList_ofList, parseRFC3339_formatRFC3339]
  dsimp only
  rw [decide_eq_true_eq, durationSince_le_iff hlow hhigh]

/-! ### Dates of the batch pipeline -/

/-- Both decide about a result from the upstream by its age, the client by the date and the
orchestrator by the stored body. -/
structure Recognised (c : Client) (o : Orchestrator) (now midnight : Int) (date body : String) :
    Prop where
  of_le : now - midnight ≤ c.maxAge →
    c.stale now date = false ∧ o.fresh now body .originUpstream = true
  of_lt : c.maxAge < now - midnight →
    c.stale now date = true ∧ o.fresh now body .originUpstream = false

theorem stale_batchDate (c : Client) (now : Int) (d : Date) :
    c.stale now (String.ofList d.format) = true := by
  obtain ⟨e, he⟩ := parseRFC3339_date d
  rw [Client.stale, String.toList_ofList, he]

theorem not_fresh_batchDate (o : Orchestrator) (now : Int) (origin : Origin) {d : Date}
    {body : String}
    {r : Result} (hbody : parse body = .ok r) (hdate : r.date = String.ofList d.format) :
    o.fresh now body origin = false := by
  obtain ⟨e, he⟩ := parseRFC3339_date d
  rw [Orchestrator.fresh, hbody]
  dsimp only
  rw [hdate, String.toList_ofList, he]

/-- **Batch dates.** The upstream client and the orchestrator, with one maximum age, decide about a
body with the date that the batch pipeline writes for a time by the age of that day exactly if it is
too old. -/
theorem batchDate_recognised_iff (t : DateTime) (now maxAge ttl retryAfter : Int) (baseURL : String)
    (body : String) (r : Result) (hbody : parse body = .ok r)
    (hdate : r.date = String.ofList t.date.format) :
    Recognised ⟨baseURL, maxAge⟩ (new ⟨ttl, retryAfter, maxAge⟩) now t.date.midnight
      (String.ofList t.date.format) body ↔ maxAge < now - t.date.midnight := by
  have hstale := stale_batchDate ⟨baseURL, maxAge⟩ now t.date
  have hfresh := not_fresh_batchDate (new ⟨ttl, retryAfter, maxAge⟩) now .originUpstream hbody hdate
  constructor
  · intro h
    by_contra hle
    have hfalse := (h.of_le (Int.not_lt.mp hle)).1
    rw [hstale] at hfalse
    cases hfalse
  · intro hlt
    exact ⟨fun hle => absurd hlt (Int.not_lt.mpr hle), fun _ => ⟨hstale, hfresh⟩⟩

/-- The day of the sample. -/
def sampleDay : Date := (Cron.Format.sampleResult none).date.date

/-- A batch result of eight days ago is too old for a maximum age of a week. -/
theorem sampleDay_recognised : ∃ body r, parse body = .ok r ∧
    r.date = String.ofList sampleDay.format ∧
      Recognised ⟨"https://api.scorecard.dev", defaultFallbackMaxAge⟩
        (new ⟨0, 0, defaultFallbackMaxAge⟩) (sampleDay.midnight + 8 * 24 * 60 * 60 * secondNanos)
        sampleDay.midnight (String.ofList sampleDay.format) body := by
  obtain ⟨text, htext⟩ := Cron.Format.exists_asJSON2_sampleResult none
  obtain ⟨r, hr, hdate, -⟩ := parse_asJSON2 htext
  exact ⟨text, r, hr, hdate, (batchDate_recognised_iff ⟨sampleDay, 0, by decide⟩ _ _ 0 0
    "https://api.scorecard.dev" text r hr hdate).mpr (by decide)⟩

/-- A batch result of the same day is not recognised. -/
theorem exists_batchDate_not_recognised : ¬∀ (t : DateTime) (now maxAge : Int) (body : String)
    (r : Result), 0 < maxAge → parse body = .ok r → r.date = String.ofList t.date.format →
      Recognised ⟨"https://api.scorecard.dev", maxAge⟩ (new ⟨0, 0, maxAge⟩) now t.date.midnight
        (String.ofList t.date.format) body := by
  intro h
  obtain ⟨text, htext⟩ := Cron.Format.exists_asJSON2_sampleResult none
  obtain ⟨r, hr, hdate, -⟩ := parse_asJSON2 htext
  have hfalse := ((h ⟨sampleDay, 0, by decide⟩ sampleDay.midnight defaultFallbackMaxAge text r
    (by decide) hr hdate).of_le (by decide)).1
  rw [stale_batchDate] at hfalse
  cases hfalse

end ScorecardInfra.Cache
