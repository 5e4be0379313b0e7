import ScorecardInfra.Cache.Coalescing
import ScorecardInfra.Cache.Identity

/-!
# A result that was produced is served from the store next

A result for the latest commit is written back by the request that fetched it, or by the flight that
scanned it. If the writes succeed and no other write follows, then the next request within the
window reads the result and asks no one, except for a result of a scan that does not name its
commit: the flight refuses to store it, and the error is swallowed. The upstream's results without a
commit are stored at the latest key. So a produced result is reused exactly if it came from the
upstream, or names its commit (`reused_iff`, `exists_not_reused`).

## Main definitions

* `Producer`, `Named`, `Reused`.

## Main results

* `reused_iff`, `exists_not_reused`.

Source: `internal/orchestrator/orchestrator.go`, lines 302–314 and 347–393;
`internal/store/store.go`, lines 191–215.
-/

namespace ScorecardInfra.Cache

open GoStd Interaction

variable {R : Type} [DecidableEq R]

/-! ### The two requests -/

/-- Bucket operations succeed, and only the thread `j` writes at the key `k`. -/
def Undisputed (k : String) (j i : R ⊕ R) : Event (CacheSig R) → Prop
  | ⟨.readAll _, .error (.failed _)⟩ => False
  | ⟨.attributes _, .error _⟩ => False
  | ⟨.writeAll _ _, .error _⟩ => False
  | ⟨.writeAll k' _, .ok _⟩ => k' = k → i = j
  | _ => True

section Definitions

variable {o : Wired} {req : R → Request}

/-- The thread that produced the result with which a request has returned, and the result: the
request itself, with an answer of the upstream, or the flight that it waited for. -/
inductive Producer (cfg : Interaction.Config (Shared R) (cacheWorld o req).start) (r : R)
    (p : Provenance) (res : ScanResult) : R ⊕ R → Prop
  | upstream {c : Client} {url : String} {answer : HTTPAnswer} {now : Int}
      (hfallback : o.fallback = some c)
      (hget : ⟨.get url, (answer, now)⟩ ∈ (cfg.thread (.inl r)).trace)
      (hres : c.fetch now (req r).ref answer = .ok res) (hsource : p.source = .upstream) :
      Producer cfg r p res (.inl r)
  | flight {ch : R} (hjoined : ⟨.doChan (req r).key, ch⟩ ∈ (cfg.thread (.inl r)).trace)
      (hawait : ⟨.await ch, .result (.ok (.ready p res.json2))⟩ ∈ (cfg.thread (.inl r)).trace)
      (hscan : ⟨.scan (req ch).ref (req ch).commit.sha, .ok res⟩ ∈ (cfg.thread (.inr ch)).trace) :
      Producer cfg r p res (.inr ch)

/-- The origin that the producer stores the result with. -/
def originBy : R ⊕ R → Origin := Sum.elim (fun _ => .originUpstream) fun _ => .originLocal

/-- The result came from the upstream, or names its commit. -/
def Named (res : ScanResult) : R ⊕ R → Prop :=
  Sum.elim (fun _ => True) fun _ => res.resolvedCommit ≠ ""

/-- The request has neither asked the upstream nor joined a flight. -/
def AsksNoOne (t : Trace (CacheSig R)) : Prop :=
  (∀ k ch, ⟨.doChan k, ch⟩ ∉ t) ∧ ∀ url x, ⟨.get url, x⟩ ∉ t

/-- The request is served from the store, with these bytes. -/
structure Reused (cfg : Interaction.Config (Shared R) (cacheWorld o req).start) (r : R)
    (body : String) :
    Prop where
  asks : AsksNoOne (cfg.thread (.inl r)).trace
  reply : ∀ reply, (cfg.thread (.inl r)).Returned reply →
    ⟨.readAll (req r).key, .ok body⟩ ∈ (cfg.thread (.inl r)).trace ∧
      ∃ p, reply = .ok (.ready p body)

end Definitions

variable {o : Wired} {req : R → Request} {k : String} {j : R ⊕ R}
  {cfg cfg' : Interaction.Config (Shared R) (cacheWorld o req).start} {i : R ⊕ R}
  {e : Event (CacheSig R)}

/-- The runs in question. -/
abbrev undisputedWorld (o : Wired) (req : R → Request) (k : String) (j : R ⊕ R) :
    World (CacheSig R) (R ⊕ R) (Shared R) Reply :=
  (cacheWorld o req).constrain (Undisputed k j)

/-! ### What is at the key -/

/-- Once the thread `j` has not yet written at the key, only its writes change the object there. -/
def Kept (k : String) (j : R ⊕ R) (before : Option Object)
    (cfg : Interaction.Config (Shared R) (cacheWorld o req).start) : Prop :=
  cfg.shared.bucket k = (lastWrite k (cfg.thread j).trace).or before

omit [DecidableEq R] in
/-- Who writes at the key succeeds, and is the thread `j`. -/
theorem Undisputed.writer (h : Undisputed k j i e) {object : Object}
    (hop : e.op = .writeAll k object) :
    e = ⟨.writeAll k object, .ok ()⟩ ∧ i = j := by
  obtain ⟨op, x⟩ := e
  obtain rfl : op = .writeAll k object := hop
  rcases x with message | ⟨⟩
  · exact absurd h id
  · exact ⟨rfl, h rfl⟩

theorem Kept.step {before : Option Object} (h : Kept k j before cfg)
    (hstep : Advanced o req cfg cfg' i e) (hundisputed : Undisputed k j i e) :
    Kept k j before cfg' := by
  have hsame : (∀ object, e.op ≠ .writeAll k object) → cfg'.shared.bucket k = cfg.shared.bucket k :=
    fun hop => (hstep.answer.bucket_eq (k := k)).resolve_right fun ⟨x, hx, _⟩ => hop x hx
  by_cases hop : ∃ object, e.op = .writeAll k object
  · obtain ⟨object, hop⟩ := hop
    obtain ⟨rfl, rfl⟩ := hundisputed.writer hop
    rw [Kept, hstep.answer.written_eq, hstep.trace, lastWrite_snoc]
    simp
  · rw [not_exists] at hop
    rw [Kept, hsame hop, h]
    by_cases hij : j = i
    · rw [hij, hstep.trace, lastWrite_snoc_of_ne hop]
    · rw [hstep.others j hij]

/-! ### The second request -/

/-- The thread has returned, or is a flight that has closed. -/
def Finished (j : R ⊕ R) (cfg : Interaction.Config (Shared R) (cacheWorld o req).start) : Prop :=
  (∃ reply, (cfg.thread j).Returned reply) ∨ ∃ ch reply, j = .inr ch ∧ Closed cfg ch reply

theorem Finished.ne (h : Finished j cfg) (hstep : Advanced o req cfg cfg' i e) : j ≠ i := by
  rintro rfl
  rcases h with ⟨reply, hreturned⟩ | ⟨ch, reply, rfl, past, htrace, -⟩
  · exact hstep.running reply hreturned
  · refine absurd ?_ (hstep.performs.finish_notMem reply)
    simp [htrace]

theorem Finished.mono (h : Finished j cfg) (hstep : Advanced o req cfg cfg' i e) :
    Finished j cfg' := by
  have hne := h.ne hstep
  refine h.imp ?_ ?_
  · rintro ⟨reply, hreturned⟩
    exact ⟨reply, by rwa [hstep.others j hne]⟩
  · rintro ⟨ch, reply, hj, hclosed⟩
    exact ⟨ch, reply, hj, hclosed.mono hstep⟩

/-- The object at the key stays, and the request reads what is there, and asks only after its lookup
has missed. -/
structure Follower (k : String) (j : R ⊕ R) (r : R) (there : Option Object)
    (cfg : Interaction.Config (Shared R) (cacheWorld o req).start) : Prop where
  finished : Finished j cfg
  bucket : cfg.shared.bucket k = there
  read : ∀ x, ⟨.readAll k, x⟩ ∈ (cfg.thread (.inl r)).trace →
    x = there.elim (.error .notFound) fun object => .ok object.body
  tag : ∀ attrs, ⟨.attributes k, attrs⟩ ∈ (cfg.thread (.inl r)).trace →
    ∃ object, there = some object ∧ attrs = .ok object.origin
  asks : ¬AsksNoOne (cfg.thread (.inl r)).trace →
    AfterMiss o (req r).ref (req r).commit.sha (cfg.thread (.inl r)).trace

/-- A read that does not fail. -/
theorem Undisputed.read {x : Except BlobError String} {s s' : Shared R}
    (h : Undisputed k j i ⟨.readAll k, x⟩) (ha : Answer o i s ⟨.readAll k, x⟩ s') :
    x = (s.bucket k).elim (.error .notFound) fun object => .ok object.body := by
  cases ha with
  | read hx => rw [hx]; rfl
  | readNone hx => rw [hx]; rfl
  | readFailed => exact absurd h id

theorem Undisputed.attributes {attrs : Except String String} {s s' : Shared R}
    (h : Undisputed k j i ⟨.attributes k, attrs⟩) (ha : Answer o i s ⟨.attributes k, attrs⟩ s') :
    ∃ object, s.bucket k = some object ∧ attrs = .ok object.origin := by
  cases ha with
  | attributes hx => exact ⟨_, hx, rfl⟩
  | attributesFailed => exact absurd h id

/-- A request that asks someone has missed. -/
theorem afterMiss_step {r : R} (hstep : Advanced o req cfg cfg' i e)
    (h : ¬AsksNoOne (cfg.thread (.inl r)).trace →
      AfterMiss o (req r).ref (req r).commit.sha (cfg.thread (.inl r)).trace)
    (hasks : ¬AsksNoOne (cfg'.thread (.inl r)).trace) :
    AfterMiss o (req r).ref (req r).commit.sha (cfg'.thread (.inl r)).trace := by
  by_cases hold : AsksNoOne (cfg.thread (.inl r)).trace
  · rw [AsksNoOne, not_and_or, not_forall, not_forall] at hasks
    rcases hasks with ⟨k, hasks⟩ | ⟨url, hasks⟩
    · obtain ⟨ch, hmem⟩ := not_forall_not.mp hasks
      rcases hstep.mem_trace hmem with hmem | ⟨rfl, rfl⟩
      · exact absurd hmem (hold.1 k ch)
      · exact hstep.performs.1.mono (hstep.trace_extends _)
    · obtain ⟨x, hmem⟩ := not_forall_not.mp hasks
      rcases hstep.mem_trace hmem with hmem | ⟨rfl, rfl⟩
      · exact absurd hmem (hold.2 url x)
      · exact hstep.performs.1.mono (hstep.trace_extends _)
  · exact (h hold).mono (hstep.trace_extends _)

theorem Follower.step {r : R} {there : Option Object} (h : Follower k j r there cfg)
    (hstep : Advanced o req cfg cfg' i e) (hundisputed : Undisputed k j i e) :
    Follower k j r there cfg' where
  finished := h.finished.mono hstep
  bucket := by
    rcases hstep.answer.bucket_eq (k := k) with hsame | ⟨object, hop, -⟩
    · exact hsame.trans h.bucket
    · exact absurd (hundisputed.writer hop).2.symm (h.finished.ne hstep)
  read x hread := by
    rcases hstep.mem_trace hread with hread | ⟨rfl, rfl⟩
    · exact h.read x hread
    · rw [← h.bucket]
      exact hundisputed.read hstep.answer
  tag attrs hattrs := by
    rcases hstep.mem_trace hattrs with hattrs | ⟨rfl, rfl⟩
    · exact h.tag attrs hattrs
    · rw [← h.bucket]
      exact hundisputed.attributes hstep.answer
  asks := afterMiss_step hstep h.asks

/-! ### What the producer stores -/

/-- What is known of the producer between its production and the next request. -/
structure Producing (k : String) (j : R ⊕ R) (before : Option Object)
    (cfg : Interaction.Config (Shared R) (cacheWorld o req).start) : Prop where
  flown : Flown cfg
  kept : Kept k j before cfg
  writes : WritesOk (cfg.thread j).trace

theorem Producing.step {before : Option Object} (h : Producing k j before cfg)
    (hstep : Advanced o req cfg cfg' i e) (hundisputed : Undisputed k j i e) :
    Producing k j before cfg' where
  flown := h.flown.step hstep
  kept := h.kept.step hstep hundisputed
  writes k' object message hmem := by
    rcases hstep.mem_trace hmem with hmem | ⟨rfl, rfl⟩
    exacts [h.writes k' object message hmem, hundisputed]

omit [DecidableEq R] in
theorem lastWrite_of_noWrites {t : Trace (CacheSig R)}
    (h : ∀ e ∈ t, ∀ k object, e.op ≠ .writeAll k object)
    (k : String) : lastWrite k t = none := by
  induction t using List.reverseRecOn with
  | nil => rfl
  | append_singleton t e ih =>
    rw [lastWrite_snoc_of_ne (h e (by simp) k), ih fun e' he' => h e' (List.mem_append_left _ he')]

theorem producing_of_steps {stored : String → Option Object}
    {cfg₀ cfg₁ : Interaction.Config (Shared R) (cacheWorld o req).start}
    (hcfg₀ : (cacheWorld o req).Reachable (.initial stored) cfg₀)
    (hbefore : ∀ e ∈ (cfg₀.thread j).trace, ∀ k object, e.op ≠ .writeAll k object)
    (hsteps : Relation.ReflTransGen (undisputedWorld o req k j).Step cfg₀ cfg₁) :
    Producing k j (cfg₀.shared.bucket k) cfg₁ := by
  induction hsteps with
  | refl =>
    refine ⟨flown_reachable (fun _ _ _ _ _ ha => ha) hcfg₀, ?_, fun k object message hmem => ?_⟩
    · rw [Kept, lastWrite_of_noWrites hbefore]
      rfl
    · exact hbefore _ hmem k object rfl
  | tail _ hstep ih =>
    obtain ⟨i, e, ha, hadvanced⟩ := step_advances (fun _ _ _ _ _ ha => ha.2) hstep
    exact ih.step hadvanced ha.1

/-- A flight's ready outcome is live. -/
theorem Closed.source {ch : R} {p : Provenance} {body : String}
    (h : Closed cfg ch (.ok (.ready p body))) : p.source = .live := by
  obtain ⟨past, -, hconcluded⟩ := h
  generalize hreply : (Except.ok (Outcome.ready p body) : Reply) = reply at hconcluded
  rcases hconcluded with message | err | ⟨res, -, -⟩
  · cases hreply
  · cases hreply
  · obtain ⟨-, parsed, -, rfl⟩ := liveOutcome_eq_ready hreply.symm
    rfl

/-- What a closed flight has written at the latest key. -/
theorem Closed.lastWrite {ch : R} {p : Provenance} {res : ScanResult}
    (h : Closed cfg ch (.ok (.ready p res.json2))) (hlatest : (req ch).commit.sha = "")
    (hscan : ⟨.scan (req ch).ref (req ch).commit.sha, .ok res⟩ ∈ (cfg.thread (.inr ch)).trace)
    (hwrites : WritesOk (cfg.thread (.inr ch)).trace) :
    (res.resolvedCommit ≠ "" → Cache.lastWrite (key (req ch).ref "") (cfg.thread (.inr ch)).trace =
      some (objectOf res.json2 .originLocal)) ∧
    (res.resolvedCommit = "" →
      Cache.lastWrite (key (req ch).ref "") (cfg.thread (.inr ch)).trace = none) := by
  obtain ⟨past, htrace, hconcluded⟩ := h
  rw [htrace] at hscan hwrites ⊢
  generalize hreply : (Except.ok (Outcome.ready p res.json2) : Reply) = reply at hconcluded
  rcases hconcluded with message | err | ⟨res', hu, hpersisted⟩
  · cases hreply
  · cases hreply
  · rename_i u
    have hres : res' = res := by
      simp only [List.mem_append, scanTrace, List.mem_cons, List.not_mem_nil, or_false,
        Event.mk.injEq, reduceCtorEq, false_and, false_or] at hscan
      rcases hscan with ⟨-, hres⟩ | hscan
      · exact (Except.ok.inj (eq_of_heq hres)).symm
      · obtain ⟨k, object, hop⟩ := hu _ hscan
        cases hop
    obtain rfl := hres
    have hlast : Cache.lastWrite (key (req ch).ref "") (scanTrace (req ch).ref (req ch).commit.sha
        (.ok res') ++ u ++ [⟨.finish (liveOutcome res'), ()⟩]) =
          Cache.lastWrite (key (req ch).ref "") u := by
      rw [lastWrite_snoc, lastWrite_append]
      exact Option.or_none
    rw [hlast]
    refine ⟨fun hne => (hpersisted hlatest).1 hne fun k object message hmem => ?_, fun h => ?_⟩
    · exact hwrites k object message (by simp [hmem])
    · rw [(hpersisted hlatest).2 h]
      rfl

/-- What a request that fetched the result has written at the latest key. -/
theorem Producing.lastWrite_fetched {before : Option Object} {r : R} {p : Provenance}
    {body url : String} {x : HTTPAnswer × Int} (h : Producing k (.inl r) before cfg)
    (hreturned : (cfg.thread (.inl r)).Returned (.ok (.ready p body)))
    (hget : ⟨.get url, x⟩ ∈ (cfg.thread (.inl r)).trace) (hsource : p.source = .upstream) :
    lastWrite (key (req r).ref "") (cfg.thread (.inl r)).trace =
      some (objectOf body .originUpstream) := by
  generalize hreply : (Except.ok (Outcome.ready p body) : Reply) = reply at hreturned
  rcases replied hreturned with hread | hhit | hfetched | ⟨-, hawait⟩ | - | -
  · cases hreply
  · -- a request that is served from the store does not ask the upstream
    generalize htrace : (cfg.thread (.inl r)).trace = t at hhit hget
    cases hhit <;> simp at hget
  · cases hreply
    generalize hout : Outcome.ready p body = out at hfetched
    obtain ⟨-, -, -, -, hfiled⟩ := hfetched
    obtain ⟨-, rfl⟩ := Outcome.ready.inj hout
    exact hfiled h.writes
  · subst hreply
    rw [(h.flown.awaited _ _ _ hawait).source] at hsource
    cases hsource
  · cases hreply
  · cases hreply

/-- **The producer** has finished, and has stored a result that is named, and no other one. -/
theorem Producer.stored {before : Option Object} {r : R} {p : Provenance} {res : ScanResult}
    (h : Producer cfg r p res j) (hproducing : Producing (req r).key j before cfg)
    (hlatest : (req r).commit.sha = "")
    (hreturned : (cfg.thread (.inl r)).Returned (.ok (.ready p res.json2))) :
    Finished j cfg ∧
    (Named res j → cfg.shared.bucket (req r).key = some (objectOf res.json2 (originBy j))) ∧
    (¬Named res j → cfg.shared.bucket (req r).key = before) := by
  have hkept : cfg.shared.bucket (req r).key = _ := hproducing.kept
  rw [Request.key, hlatest] at hkept ⊢
  cases h with
  | upstream hfallback hget hres hsource =>
    rw [hproducing.lastWrite_fetched hreturned hget hsource] at hkept
    exact ⟨Or.inl ⟨_, hreturned⟩, fun _ => hkept, fun h => absurd trivial h⟩
  | @flight ch hjoined hawait hscan =>
    have hreq : req ch = req r := Request.key_inj.mp (hproducing.flown.joined _ _ _ hjoined)
    have hclosed := hproducing.flown.awaited _ _ _ hawait
    have hlast := hclosed.lastWrite (hreq ▸ hlatest) hscan hproducing.writes
    rw [hreq] at hlast
    refine ⟨Or.inr ⟨ch, _, rfl, hclosed⟩, fun hnamed => ?_, fun hnamed => ?_⟩
    · rw [hkept, hlast.1 hnamed]
      rfl
    · rw [hkept, hlast.2 (not_not.mp hnamed)]
      rfl

/-! ### What the next request is served -/

section Next

variable {r : R} {there : Option Object}

theorem follower_of_steps (hfinished : Finished j cfg) (htrace : (cfg.thread (.inl r)).trace = [])
    (hsteps : Relation.ReflTransGen (undisputedWorld o req k j).Step cfg cfg') :
    Follower k j r (cfg.shared.bucket k) cfg' := by
  induction hsteps with
  | refl =>
    refine ⟨hfinished, rfl, ?_, ?_, fun h => absurd ?_ h⟩
    · exact fun x hx => absurd (htrace ▸ hx) List.not_mem_nil
    · exact fun x hx => absurd (htrace ▸ hx) List.not_mem_nil
    · rw [AsksNoOne, htrace]
      exact ⟨fun _ _ => List.not_mem_nil, fun _ _ => List.not_mem_nil⟩
  | tail _ hstep ih =>
    obtain ⟨i, e, ha, hadvanced⟩ := step_advances (fun _ _ _ _ _ ha => ha.2) hstep
    exact ih.step hadvanced ha.1

/-- A request that finds a fresh object is served with it. -/
theorem Follower.reused {object : Object} (h : Follower (req r).key j r (some object) cfg)
    (hlatest : (req r).commit.sha = "")
    (hfresh : ∀ now, ⟨.now, now⟩ ∈ (cfg.thread (.inl r)).trace →
      o.fresh now object.body object.source = true) : Reused cfg r object.body := by
  have hasks : AsksNoOne (cfg.thread (.inl r)).trace := by
    by_contra hasks
    obtain ⟨lookup, hmissed, hlookup⟩ := h.asks hasks
    cases hmissed with
    | absent =>
      have hread := h.read (.error .notFound) (hlookup.subset (by simp [Request.key]))
      cases hread
    | @stale body attrs now hc hstale =>
      have hbody := Except.ok.inj (h.read (.ok body) (hlookup.subset (by simp [Request.key])))
      obtain ⟨object', hobject, htag⟩ := h.tag attrs (hlookup.subset (by simp [Request.key]))
      obtain rfl := Option.some.inj hobject
      have hnow := hfresh now (hlookup.subset (by simp))
      rw [Object.source, ← htag, ← hbody, hstale] at hnow
      cases hnow
  refine ⟨hasks, fun reply hreturned => ?_⟩
  rcases replied hreturned with
    hread | hhit | ⟨-, hget, -⟩ | ⟨hjoined, -⟩ | ⟨hjoined, -⟩ | ⟨hjoined, -⟩
  · have hread := h.read _ hread
    cases hread
  · obtain ⟨hread, hattrs, hnow⟩ := hhit.mem
    obtain rfl := Except.ok.inj (h.read _ hread)
    obtain ⟨now, -, hnow⟩ := hnow hlatest
    obtain ⟨parsed, hparse⟩ := Orchestrator.exists_parse_of_fresh hnow
    exact ⟨hread, exists_cachedOutcome hparse _⟩
  · exact absurd hget (hasks.2 _ _)
  · exact absurd hjoined (hasks.1 _ _)
  · exact absurd hjoined (hasks.1 _ _)
  · exact absurd hjoined (hasks.1 _ _)

/-- A request that finds nothing fresh is not served from the store. -/
theorem Follower.not_reused (h : Follower (req r).key j r there cfg)
    (hlatest : (req r).commit.sha = "")
    (hstale : ∀ now, ⟨.now, now⟩ ∈ (cfg.thread (.inl r)).trace → ∀ object, there = some object →
      o.fresh now object.body object.source = false)
    (hdone : (∃ reply, (cfg.thread (.inl r)).Returned reply) ∨
      ¬AsksNoOne (cfg.thread (.inl r)).trace)
    (body : String) : ¬Reused cfg r body := by
  rintro ⟨hasks, hreply⟩
  obtain ⟨reply, hreturned⟩ := hdone.resolve_right (not_not.mpr hasks)
  obtain ⟨-, p, rfl⟩ := hreply reply hreturned
  generalize hreply : (Except.ok (Outcome.ready p body) : Reply) = reply at hreturned
  rcases replied hreturned with
    hread | hhit | ⟨-, hget, -⟩ | ⟨hjoined, -⟩ | ⟨hjoined, -⟩ | ⟨hjoined, -⟩
  · cases hreply
  · obtain ⟨hread, hattrs, hnow⟩ := hhit.mem
    obtain ⟨object, rfl, rfl⟩ := h.tag _ hattrs
    obtain rfl := Except.ok.inj (h.read _ hread)
    obtain ⟨now, hmem, hnow⟩ := hnow hlatest
    have hold := hstale now hmem object rfl
    rw [Object.source, hnow] at hold
    cases hold
  · exact hasks.2 _ _ hget
  · exact hasks.1 _ _ hjoined
  · exact hasks.1 _ _ hjoined
  · exact hasks.1 _ _ hjoined

end Next

/-- **Reuse.** A request for the latest commit has returned a result that it fetched or that its
flight scanned; from before the write-back on all bucket operations succeed and no other thread
writes at the key; and the next request reads the clock within the window. If the result came from
the upstream or names its commit, the next request is served from the store with the same bytes, and
asks no one. Otherwise it is not, as long as what was stored before stays too old. -/
theorem reused_iff (o : Wired) (req : R → Request) (stored : String → Option Object)
    (cfg₀ cfg₁ cfg₂ : Interaction.Config (Shared R) (cacheWorld o req).start) (j : R ⊕ R) (r r' : R)
    (p : Provenance) (res : ScanResult) (hlatest : (req r).commit.sha = "") (hsame : req r' = req r)
    (hcfg₀ : (cacheWorld o req).Reachable (.initial stored) cfg₀)
    (hbefore : ∀ e ∈ (cfg₀.thread j).trace, ∀ k object, e.op ≠ .writeAll k object)
    (hsteps₁ : Relation.ReflTransGen (undisputedWorld o req (req r).key j).Step cfg₀ cfg₁)
    (hreturned : (cfg₁.thread (.inl r)).Returned (.ok (.ready p res.json2)))
    (hproducer : Producer cfg₁ r p res j) (hnext : (cfg₁.thread (.inl r')).trace = [])
    (hsteps₂ : Relation.ReflTransGen (undisputedWorld o req (req r).key j).Step cfg₁ cfg₂)
    (hwindow : ∀ now, ⟨.now, now⟩ ∈ (cfg₂.thread (.inl r')).trace →
      o.fresh now res.json2 (originBy j) = true) :
    (Named res j → Reused cfg₂ r' res.json2) ∧
    (¬Named res j →
      ((∃ reply, (cfg₂.thread (.inl r')).Returned reply) ∨
        ¬AsksNoOne (cfg₂.thread (.inl r')).trace) →
      (∀ now, ⟨.now, now⟩ ∈ (cfg₂.thread (.inl r')).trace →
        ∀ object, cfg₀.shared.bucket (req r).key = some object →
          o.fresh now object.body object.source = false) → ¬Reused cfg₂ r' res.json2) := by
  have hproducing := producing_of_steps hcfg₀ hbefore hsteps₁
  obtain ⟨hfinished, hnamed, hunnamed⟩ := hproducer.stored hproducing hlatest hreturned
  have hfollower := follower_of_steps hfinished hnext hsteps₂
  rw [← hsame] at hfollower hnamed hunnamed hlatest
  constructor
  · intro h
    rw [hnamed h] at hfollower
    refine hfollower.reused hlatest fun now hnow => ?_
    have horigin : (objectOf res.json2 (originBy j)).source = originBy j := by
      rcases j with j | j <;> rfl
    rw [horigin]
    exact hwindow now hnow
  · intro h hdone hstale
    rw [hunnamed h] at hfollower
    rw [← hsame] at hstale
    exact hfollower.not_reused hlatest hstale hdone _

/-- Two requests for the sample repository. -/
def twoRequests (_ : Bool) : Request := sampleRequest

/-- A result of the upstream is served from the store next. -/
theorem reused_foreignBody : ∃ cfg₂ : Interaction.Config (Shared Bool)
    (cacheWorld (sampleWired (some sampleClient)) twoRequests).start,
    (cfg₂.thread (.inl true)).Returned (cachedOutcome foreignBody .originUpstream) ∧
      Reused cfg₂ true foreignBody := by
  let o := sampleWired (some sampleClient)
  let W := undisputedWorld o twoRequests sampleRequest.key (.inl false)
  obtain ⟨cfg₁, hsteps₁, hshared₁, htrace₁, hreturned₁, hothers₁⟩ := World.exists_run (W := W)
    (c := .initial _ (.initial fun _ => none)) (i := .inl false)
    (exec_getOrProduce_upstream (o := o) rfl rfl fetch_foreignBody parse_foreignBody (by decide))
    (.cons ⟨trivial, .readNone rfl⟩ (.cons ⟨trivial, .get _ _⟩ (.cons ⟨fun _ => rfl, .written _ _⟩
      (.cons ⟨fun _ => rfl, .written _ _⟩ (.nil _ _)))))
    rfl rfl rfl
  have hbucket : cfg₁.shared.bucket (key sampleRef "") =
      some (objectOf foreignBody .originUpstream) := by
    rw [hshared₁]
    simp [Shared.store]
  have hthread : cfg₁.thread (.inl true) = .start _ := hothers₁ (.inl true) (by decide)
  obtain ⟨cfg₂, hsteps₂, -, htrace₂, hreturned₂, -⟩ := World.exists_run (W := W) (c := cfg₁)
    (i := .inl true) (exec_getOrProduce_fresh originOf_upstream (fresh_foreignBody _))
    (.cons ⟨trivial, .read hbucket⟩ (.cons ⟨trivial, .attributes hbucket⟩
      (.cons ⟨trivial, .now _⟩ (.nil _ _))))
    (by rw [hthread]; rfl) (by rw [hthread]) rfl
  have hproducer : Producer cfg₁ false (provenanceFrom foreignResult .upstream true)
      ⟨foreignCommit, foreignBody, true⟩ (.inl false) := by
    have hget : ⟨.get (sampleClient.endpoint sampleRef),
        (.response 200 (.ok foreignBody), sampleDay.midnight)⟩ ∈
          (cfg₁.thread (.inl false)).trace := by
      rw [htrace₁]
      simp
    exact .upstream rfl hget fetch_foreignBody rfl
  have hreused := reused_iff o twoRequests (fun _ => none) _ cfg₁ cfg₂ (.inl false) false true _
    ⟨foreignCommit, foreignBody, true⟩ rfl rfl .refl
    (fun _ he => absurd he List.not_mem_nil) hsteps₁
    (hreturned₁ _ rfl) hproducer (by rw [hthread]; rfl) hsteps₂ ?_
  · exact ⟨cfg₂, hreturned₂ _ rfl, hreused.1 trivial⟩
  · intro now hnow
    rw [htrace₂] at hnow
    simp only [Thread.start_trace, List.nil_append, List.mem_cons, Event.mk.injEq, reduceCtorEq,
      false_and, List.not_mem_nil, or_false, false_or, heq_eq_eq, true_and] at hnow
    rw [hnow]
    exact fresh_foreignBody _

/-! ### A result that names no commit -/

/-- A scan's result that does not name its commit. -/
def unnamedResult : ScanResult := { sampleResult with resolvedCommit := "" }

omit [DecidableEq R] in
/-- A result without a commit is not stored. -/
theorem exec_persist_unnamed {ref : RepoRef} {res : ScanResult} (h : res.resolvedCommit = "") :
    Exec (persist (R := R) ref "" res) [] (some (.error .emptyCommit)) := by
  rw [persist, if_pos rfl, putLatestAndCommit, putLatestAndCommitWithOrigin, if_pos h]
  exact .ret _

/-- The first request is served the scan's result, of which nothing is stored. -/
theorem exists_served_unnamed : ∃ cfg, (undisputedWorld (sampleWired none) twoRequests
      sampleRequest.key (.inr false)).Reachable (.initial fun _ => none) cfg ∧
    (∃ p, (cfg.thread (.inl false)).Returned (.ok (.ready p unnamedResult.json2)) ∧
      Producer cfg false p unnamedResult (.inr false)) ∧
    cfg.shared.bucket sampleRequest.key = none ∧ cfg.shared.calls sampleRequest.key = none ∧
    cfg.thread (.inl true) = .start _ := by
  let o := sampleWired none
  let W := undisputedWorld o twoRequests sampleRequest.key (.inr false)
  obtain ⟨cfg₁, hsteps₁, hshared₁, hwaits, htrace₁, hothers₁⟩ := exists_joined false false
    (.initial W.start (.initial fun _ => none)) rfl rfl ⟨trivial, .readNone rfl⟩
    ⟨trivial, .launch rfl⟩
  have hflight := hothers₁ (.inr false) Sum.inr_ne_inl
  have hlaunched : cfg₁.shared.launched false := by simp [hshared₁]
  have hbusy : cfg₁.shared.busy < o.pool := by
    rw [hshared₁]
    exact o.pool_pos
  have hexec : Exec (flight (R := Bool) sampleRef "") _ _ :=
    exec_flight_latest (exec_persist_unnamed (show unnamedResult.resolvedCommit = "" from rfl))
  obtain ⟨cfg₂, hsteps₂, hshared₂, htrace₂, -, hothers₂⟩ := World.exists_run (W := W) (c := cfg₁)
    (i := .inr false) hexec
    (.cons ⟨trivial, .acquire hlaunched hbusy⟩ (.cons ⟨trivial, .scan _ _ _⟩
      (.cons ⟨trivial, .release⟩ (.cons ⟨trivial, .finish _⟩ (.nil _ _)))))
    (by rw [hflight]; rfl) (by rw [hflight]) rfl
  have hreply : cfg₂.shared.replies false = some (liveOutcome unnamedResult) := by
    rw [hshared₂]
    simp
  have hrequest₂ := hothers₂ (.inl false) Sum.inl_ne_inr
  rw [← hrequest₂] at hwaits
  obtain ⟨cfg₃, hsteps₃, hshared₃, hreturned, htrace₃, hothers₃⟩ := exists_returned cfg₂ hwaits
    ⟨trivial, .reply hreply⟩
  obtain ⟨p, hp⟩ : ∃ p, liveOutcome unnamedResult = .ok (.ready p unnamedResult.json2) :=
    exists_liveOutcome parse_sampleResult
  rw [hp] at hreturned htrace₃
  refine ⟨cfg₃, hsteps₁.trans (hsteps₂.trans hsteps₃), ⟨p, hreturned, ?_⟩, ?_, ?_, ?_⟩
  · refine .flight ?_ ?_ ?_
    · rw [htrace₃, hrequest₂, htrace₁]
      simp [twoRequests]
    · rw [htrace₃]
      simp
    · rw [hothers₃ (.inr false) Sum.inr_ne_inl, htrace₂]
      simp [scanTrace, twoRequests, sampleRequest, Commit.latest]
  · rw [hshared₃, hshared₂, hshared₁]
    rfl
  · rw [hshared₃, hshared₂]
    simp [hshared₁, Shared.initial, twoRequests]
  · rw [hothers₃ (.inl true) (by decide), hothers₂ (.inl true) Sum.inl_ne_inr,
      hothers₁ (.inl true) (by decide)]
    rfl

/-- **A result that is not reused.** A scan's result without a commit is served, and the next
request launches another scan. -/
theorem exists_not_reused : ¬∀ (o : Wired) (req : Bool → Request) (stored : String → Option Object)
    (cfg₁ cfg₂ : Interaction.Config (Shared Bool) (cacheWorld o req).start) (j : Bool ⊕ Bool)
    (r r' : Bool) (p : Provenance) (res : ScanResult),
    (req r).commit.sha = "" → req r' = req r →
    (undisputedWorld o req (req r).key j).Reachable (.initial stored) cfg₁ →
    (cfg₁.thread (.inl r)).Returned (.ok (.ready p res.json2)) → Producer cfg₁ r p res j →
    (cfg₁.thread (.inl r')).trace = [] →
    Relation.ReflTransGen (undisputedWorld o req (req r).key j).Step cfg₁ cfg₂ →
    (∀ now, ⟨.now, now⟩ ∈ (cfg₂.thread (.inl r')).trace →
      o.fresh now res.json2 (originBy j) = true) →
    Reused cfg₂ r' res.json2 := by
  intro h
  obtain ⟨cfg₁, hcfg₁, ⟨p, hreturned, hproducer⟩, hbucket, hcalls, hnext⟩ := exists_served_unnamed
  obtain ⟨cfg₂, hsteps₂, -, -, htrace, -⟩ := exists_joined true true cfg₁ hnext rfl
    ⟨trivial, .readNone hbucket⟩ ⟨trivial, .launch hcalls⟩
  have hreused := h (sampleWired none) twoRequests (fun _ => none) cfg₁ cfg₂
    (.inr false) false true p
    unnamedResult rfl rfl hcfg₁ hreturned hproducer (by rw [hnext]; rfl) hsteps₂ ?_
  · refine hreused.asks.1 sampleRequest.key true ?_
    rw [htrace]
    simp [twoRequests]
  · intro now hnow
    rw [htrace] at hnow
    simp at hnow

end ScorecardInfra.Cache
