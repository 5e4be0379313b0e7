import ScorecardInfra.Cache.Identity
import ScorecardInfra.Cache.Outcomes

/-!
# The age and the provenance of what is served

A ready outcome for the latest commit is live, cached or upstream. A live one is what a flight ended
with that the request waited for; the others have a date that is within the TTL, or within the
maximum age, by the clock that was read when the outcome was chosen. The provenance is that of the
body, in every run and for every request (`bounded_staleness`).

An age is the `time.Duration` that `time.Time.Sub` returns, which is the longest duration for all
ages from there on. A window of that length admits every age (`exists_stale_served`).

## Main definitions

* `Completes`, `AtMostOld`, `Honest`.

## Main results

* `bounded_staleness`, `exists_stale_served`.

Source: `internal/orchestrator/orchestrator.go`, lines 186–376; `internal/fallback/fallback.go`,
lines 84–134.
-/

namespace ScorecardInfra.Cache

open GoStd Interaction

/-! ### The provenance of a body -/

/-- The provenance is that of the body, and complete exactly if no check has a negative score. -/
structure Honest (parsed : Result) (p : Provenance) : Prop where
  commit : p.commit = parsed.repo.commit
  date : p.date = parsed.date
  scorecardVersion : p.scorecardVersion = parsed.scorecard.version
  complete : p.complete = true ↔ ∀ c ∈ parsed.checks.getD [], 0 ≤ c.score.toInt

theorem honest_provenanceFrom {parsed : Result} {src : Source} {b : Bool}
    (h : b = complete parsed.checks) : Honest parsed (provenanceFrom parsed src b) where
  commit := rfl
  date := rfl
  scorecardVersion := rfl
  complete := by simp [provenanceFrom, h, complete]

/-! ### Ages -/

/-- The date is in the layout RFC3339, and at most `w` before `now`: as a `time.Duration`, which
saturates, and in fact where `w` is less than the longest duration. -/
def AtMostOld (now : Int) (date : String) (w : Int) : Prop :=
  ∃ t, parseRFC3339 date.toList = .ok t ∧ durationSince now t ≤ w ∧ (w < 2 ^ 63 - 1 → now - t ≤ w)

theorem atMostOld_of_durationSince {now t w : Int} {date : String} (hw : 0 ≤ w)
    (hdate : parseRFC3339 date.toList = .ok t) (h : durationSince now t ≤ w) :
    AtMostOld now date w :=
  ⟨t, hdate, h, fun hlt => (durationSince_le_iff (by omega) hlt).mp h⟩

/-- A fresh body is within the window of its origin. -/
theorem Orchestrator.atMostOld_of_fresh {o : Orchestrator} {now : Int} {body : String}
    {origin : Origin}
    {parsed : Result} (hw : 0 ≤ o.window origin) (hparse : parse body = .ok parsed)
    (h : o.fresh now body origin = true) : AtMostOld now parsed.date (o.window origin) := by
  rw [fresh, hparse] at h
  dsimp only at h
  rcases hdate : parseRFC3339 parsed.date.toList with e | t
  · rw [hdate] at h
    cases h
  · rw [hdate] at h
    exact atMostOld_of_durationSince hw hdate (of_decide_eq_true h)

/-- A date that is not stale is within the maximum age. -/
theorem Client.atMostOld_of_not_stale {c : Client} {now : Int} {date : String} (hw : 0 ≤ c.maxAge)
    (h : c.stale now date = false) : AtMostOld now date c.maxAge := by
  rw [stale] at h
  rcases hdate : parseRFC3339 date.toList with e | t
  · rw [hdate] at h
    cases h
  · rw [hdate] at h
    exact atMostOld_of_durationSince hw hdate (Int.not_lt.mp (of_decide_eq_false h))

/-! ### What is served -/

variable {R : Type} [DecidableEq R]

/-- The scanner sets `Complete` by `scan.Complete`. -/
def Completes (_ : R ⊕ R) : Event (CacheSig R) → Prop
  | ⟨.scan _ _, .ok res⟩ =>
    ∀ parsed, parse res.json2 = .ok parsed → res.complete = complete parsed.checks
  | _ => True

/-- The clock was read, by the orchestrator or by the client. -/
def ClockRead (past : Trace (CacheSig R)) (now : Int) : Prop :=
  ⟨.now, now⟩ ∈ past ∨ ∃ url answer, ⟨.get url, (answer, now)⟩ ∈ past

/-- What the source of an outcome says about it. -/
def Sourced {o : Wired} {req : R → Request}
    (cfg : Interaction.Config (Shared R) (cacheWorld o req).start) (r : R) (p : Provenance)
    (body : String) : Source → Prop
  | .live => ∃ ch res, req ch = req r ∧
      ⟨.await ch, .result (.ok (.ready p body))⟩ ∈ (cfg.thread (.inl r)).trace ∧
      ⟨.scan (req r).ref (req r).commit.sha, .ok res⟩ ∈ (cfg.thread (.inr ch)).trace ∧
        res.json2 = body
  | .cached => ∃ now, ClockRead (cfg.thread (.inl r)).trace now ∧ AtMostOld now p.date o.ttl
  | .upstream =>
    ∃ now, ClockRead (cfg.thread (.inl r)).trace now ∧ AtMostOld now p.date o.fallbackMaxAge

variable {o : Wired} {req : R → Request}
  {cfg : Interaction.Config (Shared R) (cacheWorld o req).start} {r : R} {p : Provenance}
  {body : String}

/-- A stored body that is served. -/
theorem sourced_stored {attrs : Except String String} (httl : 0 ≤ o.ttl)
    (hage : 0 < o.fallbackMaxAge)
    (hfresh : (req r).commit.sha = "" →
      ∃ now, ⟨.now, now⟩ ∈ (cfg.thread (.inl r)).trace ∧ o.fresh now body (originOf attrs) = true)
    {parsed : Result} (hparse : parse body = .ok parsed) (hdate : p.date = parsed.date) :
    (req r).commit.sha = "" → Sourced cfg r p body
      (if originOf attrs = .originUpstream then .upstream else .cached) := by
  intro hc
  obtain ⟨now, hnow, hfresh⟩ := hfresh hc
  have hold := fun hw => Orchestrator.atMostOld_of_fresh hw hparse hfresh
  rw [Orchestrator.window, ← hdate] at hold
  split_ifs at hold ⊢
  · exact ⟨now, Or.inl hnow, hold hage.le⟩
  · exact ⟨now, Or.inl hnow, hold httl⟩

/-- A fetched result that is served. -/
theorem sourced_fetched {out : Outcome} (hage : 0 < o.fallbackMaxAge)
    (hshared : ∀ c, o.fallback = some c → c.maxAge = o.fallbackMaxAge)
    (h : Fetched o (req r).ref (req r).commit.sha (cfg.thread (.inl r)).trace out)
    (hout : out = .ready p body) :
    Sourced cfg r p body p.source ∧ ∃ parsed, parse body = .ok parsed ∧ Honest parsed p := by
  obtain ⟨hactive, hget, hres, hparse, -⟩ := h
  obtain ⟨rfl, rfl⟩ := Outcome.ready.inj hout
  obtain ⟨parsed', hparse', hstale, -, hcomplete⟩ := Client.fetch_eq_ok hres
  obtain rfl := Except.ok.inj (hparse.symm.trans hparse')
  have hmax := hshared _ hactive.fallback
  have hold := Client.atMostOld_of_not_stale (by omega) hstale
  rw [hmax] at hold
  exact ⟨⟨_, Or.inr ⟨_, _, hget⟩, hold⟩, _, hparse, honest_provenanceFrom hcomplete⟩

/-- **Bounded staleness and honest provenance.** In every run in which the scanner sets `Complete`
by `scan.Complete`: a ready outcome for the latest commit is the result of a flight that the request
waited for, or has a date within the TTL, or within the maximum age, according to its source; and a
ready outcome for any commit has the provenance of its body. -/
theorem bounded_staleness (o : Wired) (req : R → Request) (stored : String → Option Object)
    (httl : 0 ≤ o.ttl) (hage : 0 < o.fallbackMaxAge)
    (hshared : ∀ c, o.fallback = some c → c.maxAge = o.fallbackMaxAge)
    (cfg : Interaction.Config (Shared R) (cacheWorld o req).start)
    (hcfg : ((cacheWorld o req).constrain Completes).Reachable (.initial stored) cfg)
    (r : R) (p : Provenance) (body : String)
    (hreturned : (cfg.thread (.inl r)).Returned (.ok (.ready p body))) :
    ((req r).commit.sha = "" → Sourced cfg r p body p.source) ∧
      ∃ parsed, parse body = .ok parsed ∧ Honest parsed p := by
  have hflown := flown_reachable (fun _ _ _ _ _ h => h.2) hcfg
  have hcompletes := World.Reachable.mem_trace hcfg fun _ _ _ _ _ h => h.1
  generalize hreply : (Except.ok (Outcome.ready p body) : Reply) = reply at hreturned
  rcases replied hreturned with h | hhit | hfetched | ⟨hjoined, hawait⟩ | h | h
  · cases hreply
  · obtain ⟨rfl, parsed, hparse, rfl⟩ := cachedOutcome_eq_ready hreply.symm
    exact ⟨sourced_stored httl hage hhit.mem.2.2 hparse rfl, parsed, hparse,
      honest_provenanceFrom rfl⟩
  · have hsourced := sourced_fetched hage hshared hfetched (Except.ok.inj hreply).symm
    exact ⟨fun _ => hsourced.1, hsourced.2⟩
  · subst hreply
    rename_i ch
    obtain ⟨past, htrace, hconcluded⟩ := hflown.awaited _ _ _ hawait
    have hkey : req ch = req r := Request.key_inj.mp (hflown.joined _ _ _ hjoined)
    generalize hreply : (Except.ok (Outcome.ready p body) : Reply) = reply at hconcluded
    rcases hconcluded with h | h | ⟨res, hu, -⟩
    · cases hreply
    · cases hreply
    · obtain ⟨rfl, parsed, hparse, rfl⟩ := liveOutcome_eq_ready hreply.symm
      have hscan : ⟨.scan (req ch).ref (req ch).commit.sha, .ok res⟩ ∈
          (cfg.thread (.inr ch)).trace := by
        simp [htrace, scanTrace]
      refine ⟨fun _ => ⟨ch, res, hkey, hawait, hkey ▸ hscan, rfl⟩, parsed, hparse, ?_⟩
      exact honest_provenanceFrom (hcompletes _ _ hscan parsed hparse)
  · cases hreply
  · cases hreply

/-- A result of the upstream that is served from the store. -/
theorem bounded_staleness_foreignBody : ∃ cfg : Interaction.Config (Shared Unit)
      (cacheWorld (sampleWired none) fun _ => ⟨sampleRef, .latest⟩).start,
    Sourced cfg () (provenanceFrom foreignResult .upstream true) foreignBody .upstream ∧
      ∃ parsed, parse foreignBody = .ok parsed ∧
        Honest parsed (provenanceFrom foreignResult .upstream true) := by
  let o := sampleWired none
  let req : Unit → Request := fun _ => ⟨sampleRef, .latest⟩
  let stored : String → Option Object := fun _ => some (objectOf foreignBody .originUpstream)
  have hbucket : (Shared.initial (R := Unit) stored).bucket (key sampleRef "") =
      some (objectOf foreignBody .originUpstream) := rfl
  obtain ⟨cfg, hsteps, -, -, hreturned, -⟩ := World.exists_run
    (W := (cacheWorld o req).constrain Completes) (c := .initial _ (.initial stored)) (i := .inl ())
    (exec_getOrProduce_fresh originOf_upstream (fresh_foreignBody _))
    (.cons ⟨trivial, .read hbucket⟩ (.cons ⟨trivial, .attributes hbucket⟩
      (.cons ⟨trivial, .now _⟩ (.nil _ _))))
    rfl rfl rfl
  have hready := hreturned _ rfl
  rw [cachedOutcome_foreignBody] at hready
  have hbounded := bounded_staleness o req stored (by decide) (by decide) nofun cfg hsteps
    () _ _ hready
  exact ⟨cfg, hbounded.1 rfl, hbounded.2⟩

/-! ### The longest duration -/

/-- A body from the year 1. -/
def oldBody : String := "\x7b\"date\":\"0001-02-03T00:00:00Z\"\x7d"

theorem parse_oldBody :
    parse oldBody = .ok { Result.zero with date := "0001-02-03T00:00:00Z" } := by
  have h : (parse oldBody).toOption =
      some { Result.zero with date := "0001-02-03T00:00:00Z" } := by decide +kernel
  rcases hparse : parse oldBody with err | parsed
  · rw [hparse] at h
    cases h
  · rw [hparse] at h
    rw [Option.some.inj h]

/-- The day that the body names. -/
def oldDay : Date := ⟨1, 2, 3, by decide, by decide⟩

theorem parseRFC3339_oldBody :
    parseRFC3339 "0001-02-03T00:00:00Z".toList = .ok oldDay.midnight := by
  decide +kernel

/-- The sample orchestrator with the longest duration for its TTL. -/
def longestWired : Wired := { sampleWired none with ttl := 2 ^ 63 - 1 }

theorem fresh_oldBody : longestWired.fresh sampleDay.midnight oldBody .originLocal = true := by
  have hwindow : longestWired.window .originLocal = 2 ^ 63 - 1 := rfl
  rw [Orchestrator.fresh, parse_oldBody]
  dsimp only
  rw [parseRFC3339_oldBody, hwindow]
  decide

theorem cachedOutcome_oldBody : cachedOutcome oldBody .originLocal =
    .ok (.ready (provenanceFrom { Result.zero with date := "0001-02-03T00:00:00Z" } .cached true)
      oldBody) := by
  rw [cachedOutcome, parse_oldBody]
  rfl

/-- With the longest duration for its TTL, an orchestrator serves the body from its cache, 2025
years later. -/
theorem exists_stale_served : ¬∀ (o : Wired) (req : Unit → Request)
    (stored : String → Option Object)
    (cfg : Interaction.Config (Shared Unit) (cacheWorld o req).start),
    0 ≤ o.ttl → 0 < o.fallbackMaxAge → (∀ c, o.fallback = some c → c.maxAge = o.fallbackMaxAge) →
    ((cacheWorld o req).constrain Completes).Reachable (.initial stored) cfg →
    ∀ p body, (cfg.thread (.inl ())).Returned (.ok (.ready p body)) → (req ()).commit.sha = "" →
      p.source = .cached → ∃ now t, ClockRead (cfg.thread (.inl ())).trace now ∧
        parseRFC3339 p.date.toList = .ok t ∧ now - t ≤ o.ttl := by
  intro h
  let req : Unit → Request := fun _ => ⟨sampleRef, .latest⟩
  let stored : String → Option Object := fun _ => some (objectOf oldBody .originLocal)
  have hbucket : (Shared.initial (R := Unit) stored).bucket (key sampleRef "") =
      some (objectOf oldBody .originLocal) := rfl
  obtain ⟨cfg, hsteps, -, htrace, hreturned, -⟩ := World.exists_run
    (W := (cacheWorld longestWired req).constrain Completes) (c := .initial _ (.initial stored))
    (i := .inl ()) (exec_getOrProduce_fresh (by decide) fresh_oldBody)
    (.cons ⟨trivial, .read hbucket⟩ (.cons ⟨trivial, .attributes hbucket⟩
      (.cons ⟨trivial, .now _⟩ (.nil _ _))))
    rfl rfl rfl
  have hready := hreturned _ rfl
  rw [cachedOutcome_oldBody] at hready
  obtain ⟨now, t, hnow, ht, hle⟩ := h longestWired req stored cfg (by decide) (by decide) nofun
    hsteps _ _ hready rfl rfl
  -- the clock was read once, 2025 years after the date of the body
  have hperformed : (cfg.thread (.inl ())).trace = [⟨.readAll (key sampleRef ""), .ok oldBody⟩,
      ⟨.attributes (key sampleRef ""), .ok (objectOf oldBody .originLocal).origin⟩,
      ⟨.now, sampleDay.midnight⟩] := htrace
  have hread : now = sampleDay.midnight := by
    rw [ClockRead, hperformed] at hnow
    rcases hnow with hnow | ⟨url, answer, hget⟩
    · simpa using hnow
    · simp at hget
  have hdate : t = oldDay.midnight := Except.ok.inj (ht.symm.trans parseRFC3339_oldBody)
  subst hread hdate
  exact absurd hle (by decide)

end ScorecardInfra.Cache
