import ScorecardInfra.Cache.Operations
import ScorecardInfra.Interaction.Monitor

/-!
# The read-through cache

`getOrProduce` serves a stored result or produces one: from the upstream, or by a scan that
overlapping requests for the same key share. `scanAndStore` is the function of such a flight. Both
write what they obtain back to the store.

## Main definitions

* `getWithOrigin`, `put`, `putLatestAndCommitWithOrigin`: the store.
* `Wired`: an `Orchestrator` with its options.
* `getOrProduce`, `scanAndStore`, `flight`.

Sources: `internal/store/store.go`, lines 147–228; `internal/orchestrator/orchestrator.go`,
lines 183–393; `internal/scan/pool.go`.
-/

namespace ScorecardInfra.Cache

open GoStd Interaction

variable {R : Type}

/-! ### The store -/

/-- The origin that `GetWithOrigin` reports for what `Attributes` gives. -/
def originOf : Except String String → Origin
  | .error _ => .originLocal
  | .ok tag => if tag = "" then .originLocal else .ofTag tag

/-- The origin that `GetWithOrigin` reports for an object whose attributes it reads. -/
def Object.source (x : Object) : Origin := originOf (.ok x.origin)

/-- `Store.GetWithOrigin`.

Source: `internal/store/store.go`, lines 155–174. -/
def getWithOrigin (ref : RepoRef) (commit : String) :
    CacheProg R (Except StoreError (String × Origin)) := do
  match ← performCache (.readAll (key ref commit)) with
  | .error .notFound => return .error .notFound
  | .error (.failed message) => return .error (.reading (key ref commit) message)
  | .ok body =>
    let attrs ← performCache (.attributes (key ref commit))
    return .ok (body, originOf attrs)

/-- What `GetWithOrigin` has performed when it returns. -/
def LookedUp (ref : RepoRef) (commit : String) (past : Trace (CacheSig R)) :
    Except StoreError (String × Origin) → Prop
  | .error .notFound => past = [⟨.readAll (key ref commit), .error .notFound⟩]
  | .error e => ∃ message, e = .reading (key ref commit) message ∧
      past = [⟨.readAll (key ref commit), .error (.failed message)⟩]
  | .ok (body, origin) => ∃ attrs, origin = originOf attrs ∧
      past = [⟨.readAll (key ref commit), .ok body⟩, ⟨.attributes (key ref commit), attrs⟩]

/-- The body is read first, and then the attributes. -/
theorem safe_getWithOrigin {ref : RepoRef} {commit : String}
    {allows : Trace (CacheSig R) → CacheOp R → Prop} (hread : allows [] (.readAll (key ref commit)))
    (hattrs : ∀ body, allows [⟨.readAll (key ref commit), .ok body⟩]
      (.attributes (key ref commit))) :
    (getWithOrigin ref commit).Safe (.history allows)
      (fun read past => LookedUp ref commit past read)
      [] := by
  refine safe_perform_bind hread ?_
  rintro ((⟨⟩ | message) | body)
  · exact rfl
  · exact ⟨message, rfl, rfl⟩
  · exact safe_perform_bind (hattrs body) fun attrs => ⟨attrs, rfl, rfl⟩

/-- The object that `write` stores. -/
def objectOf (body : String) (origin : Origin) : Object where
  body := body
  contentType := contentTypeJSON
  origin := origin.tag

@[simp] theorem source_objectOf_local (body : String) :
    (objectOf body .originLocal).source = .originLocal := rfl

@[simp] theorem source_objectOf_upstream (body : String) :
    (objectOf body .originUpstream).source = .originUpstream := rfl

/-- `Store.write`. -/
def write (key body : String) (origin : Origin) : CacheProg R (Except StoreError Unit) := do
  match ← performCache (.writeAll key (objectOf body origin)) with
  | .error message => return .error (.writing key message)
  | .ok () => return .ok ()

/-- `Store.PutWithOrigin`. -/
def putWithOrigin (ref : RepoRef) (commit body : String) (origin : Origin) :
    CacheProg R (Except StoreError Unit) :=
  write (key ref commit) body origin

/-- `Store.Put`. -/
def put (ref : RepoRef) (commit body : String) : CacheProg R (Except StoreError Unit) :=
  putWithOrigin ref commit body .originLocal

/-- `Store.PutLatestAndCommitWithOrigin`.

Source: `internal/store/store.go`, lines 199–211. -/
def putLatestAndCommitWithOrigin (ref : RepoRef) (commit body : String) (origin : Origin) :
    CacheProg R (Except StoreError Unit) := do
  if commit = "" then return .error .emptyCommit
  else
    match ← write (key ref commit) body origin with
    | .error e => return .error e
    | .ok () => write (key ref "") body origin

/-- `Store.PutLatestAndCommit`. -/
def putLatestAndCommit (ref : RepoRef) (commit body : String) :
    CacheProg R (Except StoreError Unit) :=
  putLatestAndCommitWithOrigin ref commit body .originLocal

/-! ### The upstream -/

/-- `Client.Fetch`. -/
def fetch (c : Client) (ref : RepoRef) : CacheProg R (Except FetchError ScanResult) := do
  let (answer, now) ← performCache (.get (c.endpoint ref))
  return c.fetch now ref answer

/-- `Orchestrator.backfill`; its error is logged.

Source: `internal/orchestrator/orchestrator.go`, lines 304–314. -/
def backfill (ref : RepoRef) (res : ScanResult) : CacheProg R (Except StoreError Unit) :=
  if res.resolvedCommit = "" then putWithOrigin ref "" res.json2 .originUpstream
  else putLatestAndCommitWithOrigin ref res.resolvedCommit res.json2 .originUpstream

/-- `Orchestrator.tryFallback`.

Source: `internal/orchestrator/orchestrator.go`, lines 281–300. -/
def tryFallback (c : Client) (ref : RepoRef) : CacheProg R (Option Outcome) := do
  match ← fetch c ref with
  | .error _ => return none
  | .ok res =>
    let _ ← backfill ref res
    match parse res.json2 with
    | .error _ => return none
    | .ok parsed =>
      return some (.ready (provenanceFrom parsed .upstream res.complete) res.json2)

/-! ### Flights -/

/-- `Orchestrator.persist`; its error is logged.

Source: `internal/orchestrator/orchestrator.go`, lines 382–393. -/
def persist (ref : RepoRef) (commit : String) (result : ScanResult) :
    CacheProg R (Except StoreError Unit) :=
  if commit = "" then putLatestAndCommit ref result.resolvedCommit result.json2
  else put ref commit result.json2

/-- `Bounded.Do` around a scan: the slot is given back however the scan ends.

Source: `internal/scan/pool.go`, lines 44–52. -/
def poolDo (ref : RepoRef) (commit : String) :
    CacheProg R (Except OrchestratorError ScanResult) := do
  match ← performCache .acquire with
  | .error message => return .error (.waitingForSlot message)
  | .ok () =>
    let scanned ← performCache (.scan ref commit)
    performCache .release
    return scanned.mapError .scan

/-- A scan that gets a slot and succeeds. -/
theorem exec_poolDo {ref : RepoRef} {commit : String} {res : ScanResult} :
    Exec (poolDo (R := R) ref commit)
      [⟨.acquire, .ok ()⟩, ⟨.scan ref commit, .ok res⟩, ⟨.release, ()⟩] (some (.ok res)) :=
  .op _ (.op _ (.op _ (.ret _)))

/-- What `scanAndStore` returns of a result. -/
def liveOutcome (result : ScanResult) : Reply :=
  match parse result.json2 with
  | .error e => .error (.parsingProduced e)
  | .ok parsed => .ok (.ready (provenanceFrom parsed .live result.complete) result.json2)

/-- A live outcome has the body of the result, and its provenance. -/
theorem liveOutcome_eq_ready {res : ScanResult} {p : Provenance} {body : String}
    (h : liveOutcome res = .ok (.ready p body)) : body = res.json2 ∧
      ∃ parsed, parse body = .ok parsed ∧ p = provenanceFrom parsed .live res.complete := by
  rw [liveOutcome] at h
  rcases hparse : parse res.json2 with e | parsed
  · rw [hparse] at h
    cases h
  · rw [hparse] at h
    obtain ⟨rfl, rfl⟩ := Outcome.ready.inj (Except.ok.inj h)
    exact ⟨rfl, parsed, hparse, rfl⟩

/-- `Orchestrator.scanAndStore`.

Source: `internal/orchestrator/orchestrator.go`, lines 349–376. -/
def scanAndStore (ref : RepoRef) (commit : String) : CacheProg R Reply := do
  match ← poolDo ref commit with
  | .error e => return .error e
  | .ok result =>
    let _ ← persist ref commit result
    return liveOutcome result

/-- A call of the `singleflight` group: run the function, then close the flight. -/
def flight (ref : RepoRef) (commit : String) : CacheProg R Reply := do
  let reply ← scanAndStore ref commit
  performCache (.finish reply)
  return reply

/-! ### Requests -/

/-- An `Orchestrator` with its options: the fallback, whether there is a source of feature flags,
and the size of the scan pool, which `NewBounded` floors at 1. -/
structure Wired extends Orchestrator where
  fallback : Option Client
  hasFlags : Bool
  pool : Nat
  pool_pos : 0 < pool

/-- `FlagEnabled`. -/
def flagEnabled : String := "fallback.enabled"

/-- `FlagMode`. -/
def flagMode : String := "fallback.mode"

/-- `ModeFetchFirst`. -/
def modeFetchFirst : String := "fetch-first"

/-- `ModeSafetyNet`. -/
def modeSafetyNet : String := "safety-net"

/-- `Orchestrator.cachedOutcome`. -/
def cachedOutcome (body : String) (origin : Origin) : Reply :=
  match parse body with
  | .error e => .error (.parsingCached e)
  | .ok parsed =>
    let src := if origin = .originUpstream then .upstream else .cached
    .ok (.ready (provenanceFrom parsed src (complete parsed.checks)) body)

/-- A cached outcome has the body that was read, and its provenance. -/
theorem cachedOutcome_eq_ready {body body' : String} {origin : Origin} {p : Provenance}
    (h : cachedOutcome body origin = .ok (.ready p body')) : body' = body ∧
      ∃ parsed, parse body = .ok parsed ∧ p = provenanceFrom parsed
        (if origin = .originUpstream then .upstream else .cached) (complete parsed.checks) := by
  rw [cachedOutcome] at h
  rcases hparse : parse body with e | parsed
  · rw [hparse] at h
    cases h
  · rw [hparse] at h
    obtain ⟨rfl, rfl⟩ := Outcome.ready.inj (Except.ok.inj h)
    exact ⟨rfl, parsed, rfl, rfl⟩

namespace Wired

variable (o : Wired)

/-- `Orchestrator.fallbackDecision`: the mode, with the client, if the fallback is active.

Source: `internal/orchestrator/orchestrator.go`, lines 264–276. -/
def fallbackDecision (commit : String) : CacheProg R (Option (Client × String)) := do
  match o.fallback with
  | none => return none
  | some c =>
    if commit ≠ "" then return none
    else if o.hasFlags = false then return some (c, modeFetchFirst)
    else if (← performCache (.boolFlag flagEnabled true)) = false then return none
    else
      let mode ← performCache (.stringFlag flagMode modeFetchFirst)
      return some (c, mode)

/-- `Orchestrator.scanOutcome`.

Source: `internal/orchestrator/orchestrator.go`, lines 319–345. -/
def scanOutcome (ref : RepoRef) (commit : String) : CacheProg R Reply := do
  let ch ← performCache (.doChan (key ref commit))
  match ← performCache (.await ch) with
  | .result reply => return reply
  | .timeout => return .ok (.notReady o.retryAfter)
  | .cancelled message => return .error (.cancelled message)

/-- `Orchestrator.produce`.

Source: `internal/orchestrator/orchestrator.go`, lines 245–260. -/
def produce (ref : RepoRef) (commit : String) : CacheProg R Reply := do
  match ← o.fallbackDecision commit with
  | none => o.scanOutcome ref commit
  | some (c, mode) =>
    if mode = modeFetchFirst then
      match ← tryFallback c ref with
      | some out => return .ok out
      | none => o.scanOutcome ref commit
    else
      match ← o.scanOutcome ref commit with
      | .ok out => return .ok out
      | .error e =>
        if mode = modeSafetyNet then
          match ← tryFallback c ref with
          | some out => return .ok out
          | none => return .error e
        else return .error e

/-- `Orchestrator.GetOrProduce`.

Source: `internal/orchestrator/orchestrator.go`, lines 183–202. -/
def getOrProduce (ref : RepoRef) (commit : String) : CacheProg R Reply := do
  match ← getWithOrigin ref commit with
  | .error .notFound => o.produce ref commit
  | .error e => return .error (.storeLookup e)
  | .ok (body, origin) =>
    if commit ≠ "" then return cachedOutcome body origin
    else
      let now ← performCache .now
      if o.fresh now body origin then return cachedOutcome body origin
      else o.produce ref commit

end Wired

/-- An orchestrator without feature flags, with a pool of one slot. -/
def sampleWired (fallback : Option Client) : Wired :=
  { new ⟨0, 0, 0⟩ with fallback := fallback, hasFlags := false, pool := 1, pool_pos := one_pos }

end ScorecardInfra.Cache
