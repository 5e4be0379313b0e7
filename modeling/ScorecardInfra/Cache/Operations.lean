import ScorecardInfra.Cache.Freshness
import ScorecardInfra.Interaction.Program

/-!
# What the orchestrator does to the world

A request and the flights of scans that requests share are programs over `CacheSig`. They read and
write objects of the bucket, read the clock and the feature flags, ask the upstream, join a flight
of the `singleflight` group and wait for it, take a slot of the scan pool and scan. `R` identifies
the flights: each is launched by at most one request, and has its identifier.

An object has its body, its content type and the origin tag of its metadata, which is empty for an
object that was written without one.

## Main definitions

* `Object`, `Origin.tag`, `Origin.ofTag`.
* `Provenance`, `Outcome`, `StoreError`, `OrchestratorError`.
* `CacheOp`, `CacheSig`.

Sources: `internal/store/store.go`; `internal/model/provenance.go`;
`internal/orchestrator/orchestrator.go`, lines 104–112; `internal/scan/scan.go`.
-/

namespace ScorecardInfra.Cache

open GoStd Interaction

/-! ### Objects -/

/-- An object of the bucket. -/
structure Object where
  body : String
  contentType : String
  origin : String
  deriving DecidableEq, Repr

/-- `contentTypeJSON`. -/
def contentTypeJSON : String := "application/json"

namespace Origin

/-- The string of an `Origin`. -/
def tag : Origin → String
  | originLocal => "local"
  | originUpstream => "upstream"
  | other tag => tag

/-- `Origin(v)`. -/
def ofTag (v : String) : Origin :=
  if v = "local" then originLocal else if v = "upstream" then originUpstream else other v

end Origin

/-! ### Errors and outcomes -/

/-- An error of reading an object: `gcerrors.Code` tells a missing object from the others. -/
inductive BlobError : Type
  | notFound
  | failed (message : String)
  deriving DecidableEq, Repr

/-- The errors of the store. -/
inductive StoreError : Type
  | notFound
  | reading (key message : String)
  | emptyCommit
  | writing (key message : String)
  deriving DecidableEq, Repr

/-- The errors of a scan; `ErrSkipped` is told apart. -/
inductive ScanError : Type
  | skipped
  | failed (message : String)
  deriving DecidableEq, Repr

/-- `model.Source`. -/
inductive Source : Type
  | cached
  | live
  | upstream
  deriving DecidableEq, Repr

/-- `model.Provenance`. -/
structure Provenance where
  source : Source
  commit : String
  date : String
  scorecardVersion : String
  complete : Bool
  deriving DecidableEq

/-- `ProvenanceFrom`. -/
def provenanceFrom (r : Result) (src : Source) (complete : Bool) : Provenance where
  source := src
  commit := r.repo.commit
  date := r.date
  scorecardVersion := r.scorecard.version
  complete := complete

/-- `Outcome`. -/
inductive Outcome : Type
  | ready (provenance : Provenance) (body : String)
  | notReady (retryAfter : Int)
  deriving DecidableEq

/-- The errors of `GetOrProduce`. -/
inductive OrchestratorError : Type
  | storeLookup (e : StoreError)
  | parsingCached (e : DecodeError)
  | parsingProduced (e : DecodeError)
  | waitingForSlot (message : String)
  | scan (e : ScanError)
  | cancelled (message : String)

/-- What a request or a flight returns. -/
abbrev Reply : Type := Except OrchestratorError Outcome

/-- What the `select` of a waiting request ends with. -/
inductive Awaited : Type
  | result (reply : Reply)
  | timeout
  | cancelled (message : String)

/-! ### Operations -/

/-- The operations of requests and flights. -/
inductive CacheOp (R : Type) : Type
  /-- `bucket.ReadAll`. -/
  | readAll (key : String)
  /-- `bucket.Attributes`, as far as the origin tag. -/
  | attributes (key : String)
  /-- `bucket.WriteAll`. -/
  | writeAll (key : String) (object : Object)
  /-- `Orchestrator.now`. -/
  | now
  /-- `FlagSource.Bool`. -/
  | boolFlag (key : String) (default : Bool)
  /-- `FlagSource.String`. -/
  | stringFlag (key default : String)
  /-- The request of `Fetch`, with the time on the client's clock when the reply is judged. -/
  | get (url : String)
  /-- `group.DoChan`: the flight that is joined or launched. -/
  | doChan (key : String)
  /-- Wait for a flight, the timer and the context. -/
  | await (flight : R)
  /-- Wait for a slot of the pool. -/
  | acquire
  /-- Give the slot back. -/
  | release
  /-- `Scanner.Scan`. -/
  | scan (ref : RepoRef) (commit : String)
  /-- Close the flight and hand its reply to those who wait. -/
  | finish (reply : Reply)

/-- The answers to the operations. -/
abbrev CacheOp.Ans {R : Type} : CacheOp R → Type
  | readAll _ => Except BlobError String
  | attributes _ => Except String String
  | writeAll _ _ => Except String Unit
  | now => Int
  | boolFlag _ _ => Bool
  | stringFlag _ _ => String
  | get _ => HTTPAnswer × Int
  | doChan _ => R
  | await _ => Awaited
  | acquire => Except String Unit
  | release => Unit
  | scan _ _ => Except ScanError ScanResult
  | finish _ => Unit

/-- The operations with their answers. -/
abbrev CacheSig (R : Type) : Signature := ⟨CacheOp R, CacheOp.Ans⟩

/-- A program of a request or a flight. -/
abbrev CacheProg (R α : Type) : Type := Prog (CacheSig R) α

/-- Perform one operation. -/
def performCache {R : Type} (o : CacheOp R) : CacheProg R o.Ans := perform (S := CacheSig R) o

end ScorecardInfra.Cache
