import ScorecardInfra.Cache.Engine
import ScorecardInfra.Cache.Outcomes
import ScorecardInfra.Cache.Upstream

/-!
# Responses

`handleResult` reads the reference and the commit, and makes a response of what `GetOrProduce`
returns: a ready outcome is its body, with the provenance in headers; an outcome that is not ready
tells the client to come again; an error is a status and a JSON text.

A response has the status 200 exactly if the outcome is ready (`status_respond`). Then its headers
are those of the result that its body is read as (`Flown.describes`).

## Main definitions

* `Response`, `respond`, `BadRequest.response`, `Wired.handleResult`.
* `Response.Describes`: the headers are those of a result.

## Main results

* `status_respond`, `exec_handleResult`, `Flown.describes`.

Source: `internal/httpapi/server.go`, lines 50–58, 182–299.
-/

namespace ScorecardInfra.Cache

open GoStd Interaction

variable {R : Type}

/-! ### The response writer -/

/-- A response: the status, the headers that are set, and the body. -/
structure Response where
  status : Nat
  header : List (String × String)
  body : String

/-- `Server.writeJSON`, after the headers that are set before it. -/
def writeJSON (header : List (String × String)) (status : Nat) (v : Json) : Response :=
  ⟨status, header ++ [("Content-Type", contentTypeJSON)], v.marshal⟩

/-- `Server.writeError`; the members of a map are sorted. -/
def writeError (status : Nat) (msg detail : String) : Response :=
  writeJSON [] status (.obj [("detail", .str detail), ("error", .str msg)])

/-- The response that `refFromPath` writes. -/
def BadRequest.response (b : BadRequest) : Response := writeError 400 b.msg b.detail

/-- The string of a `Source`. -/
def Source.text : Source → String
  | cached => "cached"
  | live => "live"
  | upstream => "upstream"

/-- `Server.setProvenance`. -/
def setProvenance (p : Provenance) : List (String × String) :=
  [("X-Scorecard-Source", p.source.text), ("X-Scorecard-Resolved-Commit", p.commit),
    ("X-Scorecard-Generated-At", p.date), ("X-Scorecard-Version", p.scorecardVersion),
    ("X-Scorecard-Complete", if p.complete then "true" else "false")]

/-- `Duration.Round`, of 64 bits, to a positive `m`. -/
def roundDuration (d m : Int) : Int :=
  if 0 ≤ d then
    if 2 * (d % m) < m then d - d % m else min (d + m - d % m) (2 ^ 63 - 1)
  else
    if 2 * ((-d) % m) < m then d + (-d) % m else max (d - m + (-d) % m) (-2 ^ 63)

/-- The seconds of `writeNotReady`: one at least. -/
def retrySeconds (retryAfter : Int) : Int :=
  max 1 ((roundDuration retryAfter secondNanos).tdiv secondNanos)

/-- `Server.writeNotReady`.

Source: `internal/httpapi/server.go`, lines 257–269. -/
def writeNotReady (retryAfter : Int) : Response :=
  let secs := retrySeconds retryAfter
  writeJSON [("X-Scorecard-Source", Source.live.text), ("Retry-After", toString secs)] 202
    (.obj [("message", .str "a scan is in progress for this repository; retry shortly"),
      ("retry_after_seconds", .num (.ofInt secs)), ("status", .str "scanning")])

/-- `Server.writeProduceError`.

Source: `internal/httpapi/server.go`, lines 271–284. -/
def writeProduceError : OrchestratorError → Response
  | .scan .skipped => writeError 404 "no result available"
      ("the repository could not be scanned " ++
        "(unreachable, blocked, or not accessible with the configured token)")
  | _ => writeError 502 "scan failed"
      "the on-demand scan could not be completed; please retry later"

/-- What `handleResult` writes of what `GetOrProduce` returns.

Source: `internal/httpapi/server.go`, lines 207–223. -/
def respond : Reply → Response
  | .error e => writeProduceError e
  | .ok (.notReady retryAfter) => writeNotReady retryAfter
  | .ok (.ready p body) => ⟨200, setProvenance p ++ [("Content-Type", contentTypeJSON)], body⟩

/-- `Server.handleResult`, of the path values and the commit of the query. -/
def Wired.handleResult (o : Wired) (host org repo commit : String) : CacheProg R Response :=
  match refFromPath host org repo commit with
  | .error b => return b.response
  | .ok (ref, commit) => return respond (← o.getOrProduce ref commit.sha)

/-! ### Statuses -/

theorem status_writeProduceError (e : OrchestratorError) : (writeProduceError e).status ≠ 200 := by
  unfold writeProduceError
  split
  · exact Nat.ne_of_beq_eq_false rfl
  · exact Nat.ne_of_beq_eq_false rfl

/-- **Statuses.** A response has the status 200 exactly if the outcome is ready. -/
theorem status_respond {reply : Reply} :
    (respond reply).status = 200 ↔ ∃ p body, reply = .ok (.ready p body) := by
  rcases reply with e | ⟨p, body⟩ | retryAfter
  · exact ⟨fun h => absurd h (status_writeProduceError e), nofun⟩
  · exact ⟨fun _ => ⟨p, body, rfl⟩, fun _ => rfl⟩
  · exact ⟨fun h => absurd h (Nat.ne_of_beq_eq_false rfl), nofun⟩

/-- A request that is refused performs nothing; the others are answered with what `GetOrProduce`
returns. -/
theorem exec_handleResult {o : Wired} {host org repo commit : String} {t : Trace (CacheSig R)}
    {resp : Response} : Exec (o.handleResult host org repo commit) t (some resp) ↔
      (∃ b, refFromPath host org repo commit = .error b ∧ t = [] ∧ resp = b.response) ∨
      ∃ ref c reply, refFromPath host org repo commit = .ok (ref, c) ∧
        Exec (o.getOrProduce ref c.sha) t (some reply) ∧ respond reply = resp := by
  rw [Wired.handleResult]
  rcases hread : refFromPath host org repo commit with b | ⟨ref, c⟩
  · dsimp only
    rw [Prog.pure_eq, exec_ret_some]
    constructor
    · rintro ⟨rfl, rfl⟩
      exact Or.inl ⟨b, rfl, rfl, rfl⟩
    · rintro (⟨b', hb, rfl, rfl⟩ | ⟨ref, c, reply, hok, -⟩)
      · exact ⟨rfl, by rw [Except.error.inj hb]⟩
      · cases hok
  · dsimp only
    rw [← map_eq_pure_bind, exec_map_some]
    constructor
    · rintro ⟨reply, hexec, hresp⟩
      exact Or.inr ⟨ref, c, reply, rfl, hexec, hresp⟩
    · rintro (⟨b, hb, -⟩ | ⟨ref', c', reply, hok, hexec, hresp⟩)
      · cases hb
      · obtain ⟨rfl, rfl⟩ := Prod.mk.inj (Except.ok.inj hok)
        exact ⟨reply, hexec, hresp⟩

/-! ### Headers -/

/-- The headers of the response say where its result came from, and what the result says of
itself. -/
structure Response.Describes (resp : Response) (parsed : Result) : Prop where
  body : parse resp.body = .ok parsed
  header : ∃ src, resp.header =
    setProvenance (provenanceFrom parsed src (complete parsed.checks)) ++
      [("Content-Type", contentTypeJSON)]

/-- A ready outcome whose provenance is that of the result. -/
theorem describes_respond {parsed : Result} {src : Source} {body : String}
    (h : parse body = .ok parsed) :
    (respond (.ok (.ready (provenanceFrom parsed src (complete parsed.checks)) body))).Describes
      parsed :=
  ⟨h, src, rfl⟩

theorem describes_cachedOutcome {body : String} {origin : Origin}
    (hok : (respond (cachedOutcome body origin)).status = 200) :
    ∃ parsed, (respond (cachedOutcome body origin)).Describes parsed := by
  obtain ⟨p, body', h⟩ := status_respond.mp hok
  obtain ⟨rfl, parsed, hparse, rfl⟩ := cachedOutcome_eq_ready h
  rw [h]
  exact ⟨parsed, describes_respond hparse⟩

theorem describes_liveOutcome {res : ScanResult} (hres : res.Consistent)
    (hok : (respond (liveOutcome res)).status = 200) :
    ∃ parsed, (respond (liveOutcome res)).Describes parsed := by
  obtain ⟨p, body, h⟩ := status_respond.mp hok
  obtain ⟨rfl, parsed, hparse, rfl⟩ := liveOutcome_eq_ready h
  obtain ⟨parsed', hparse', -, hcomplete⟩ := hres
  obtain rfl := Except.ok.inj (hparse.symm.trans hparse')
  rw [h, hcomplete]
  exact ⟨parsed, describes_respond hparse⟩

theorem Fetched.describes {o : Wired} {ref : RepoRef} {commit : String} {past : Trace (CacheSig R)}
    {out : Outcome} (h : Fetched o ref commit past out) :
    ∃ parsed, (respond (.ok out)).Describes parsed := by
  obtain ⟨-, -, hres, hparse, -⟩ := h
  obtain ⟨parsed, hparse', -, -, hcomplete⟩ := Client.fetch_eq_ok hres
  obtain rfl := Except.ok.inj (hparse'.symm.trans hparse)
  rw [hcomplete]
  exact ⟨parsed, describes_respond hparse⟩

/-- What a flight closes with. -/
theorem Concluded.describes {ref : RepoRef} {commit : String} {past : Trace (CacheSig R)}
    {reply : Reply} (h : Concluded ref commit past reply)
    (hscans : ∀ res, ⟨.scan ref commit, .ok res⟩ ∈ past → res.Consistent)
    (hok : (respond reply).status = 200) : ∃ parsed, (respond reply).Describes parsed := by
  cases h with
  | waiting message => exact absurd hok (status_writeProduceError _)
  | failed e => exact absurd hok (status_writeProduceError _)
  | scanned res hu =>
    refine describes_liveOutcome (hscans res ?_) hok
    simp [scanTrace]

section World

variable [DecidableEq R] {o : Wired} {req : R → Request}
  {cfg : Interaction.Config (Shared R) (cacheWorld o req).start}

/-- **Headers.** In every configuration whose scans are consistent, the headers of a response with
the status 200 are those of its body. -/
theorem Flown.describes (h : Flown cfg)
    (hscans : ∀ i ref commit res, ⟨.scan ref commit, .ok res⟩ ∈ (cfg.thread i).trace →
      res.Consistent)
    {r : R} {reply : Reply} (hreturned : (cfg.thread (.inl r)).Returned reply)
    (hok : (respond reply).status = 200) : ∃ parsed, (respond reply).Describes parsed := by
  rcases replied hreturned with - | - | hfetched | ⟨-, hawait⟩ | - | -
  · exact absurd hok (status_writeProduceError _)
  · exact describes_cachedOutcome hok
  · exact hfetched.describes
  · rename_i ch
    obtain ⟨past, htrace, hconcluded⟩ := h.awaited _ _ _ hawait
    have hmem : ∀ e ∈ past, e ∈ (cfg.thread (.inr ch)).trace := by
      rw [htrace]
      exact fun e => List.mem_append_left _
    exact hconcluded.describes (fun res hres => hscans _ _ _ res (hmem _ hres)) hok
  · exact absurd (status_respond.mp hok) (by simp)
  · exact absurd hok (status_writeProduceError _)

end World

end ScorecardInfra.Cache
