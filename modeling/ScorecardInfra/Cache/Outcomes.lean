import Mathlib.Data.List.Induction
import ScorecardInfra.Cache.Flights

/-!
# How requests come to their outcomes

A request first looks its key up. Only if that misses (`Missed`) does it ask the upstream or join a
flight, and it reports a body that it read and found fresh, that the upstream gave, or that a flight
ended with (`Replied`). A flight gets a slot, scans once, stores the result and closes
(`Concluded`).

## Main definitions

* `lastWrite`: the last object that was written at a key.
* `Missed`, `Asks`, `Replied`; `Concluded`, `FlightPerforms`.

## Main results

* `asks_getOrProduce`, `performs_flight`: what the programs perform, and how they end.

Source: `internal/orchestrator/orchestrator.go`, lines 183–393.
-/

namespace ScorecardInfra.Cache

open GoStd Interaction

variable {R : Type}

/-! ### Writes -/

/-- The last object that was written at a key. -/
def lastWrite (k : String) (t : Trace (CacheSig R)) : Option Object :=
  t.foldl (fun last e => match e.op with
    | .writeAll k' object => if k' = k then some object else last
    | _ => last) none

@[simp] theorem lastWrite_nil (k : String) : lastWrite (R := R) k [] = none := rfl

theorem lastWrite_snoc (k : String) (t : Trace (CacheSig R)) (e : Event (CacheSig R)) :
    lastWrite k (t ++ [e]) = match e.op with
      | .writeAll k' object => if k' = k then some object else lastWrite k t
      | _ => lastWrite k t := by
  rw [lastWrite, List.foldl_append]
  rfl

theorem lastWrite_snoc_of_ne {k : String} {e : Event (CacheSig R)}
    (h : ∀ object, e.op ≠ .writeAll k object)
    (t : Trace (CacheSig R)) : lastWrite k (t ++ [e]) = lastWrite k t := by
  rw [lastWrite_snoc]
  split
  · rename_i k' object hop
    rw [if_neg]
    rintro rfl
    exact h object hop
  · rfl

theorem lastWrite_append (k : String) (t u : Trace (CacheSig R)) :
    lastWrite k (t ++ u) = (lastWrite k u).or (lastWrite k t) := by
  induction u using List.reverseRecOn with
  | nil => simp
  | append_singleton u e ih =>
    rw [← List.append_assoc, lastWrite_snoc, lastWrite_snoc, ih]
    split
    · split_ifs <;> rfl
    · rfl

/-- No write failed. -/
def WritesOk (t : Trace (CacheSig R)) : Prop :=
  ∀ k object message, ⟨.writeAll k object, .error message⟩ ∉ t

/-- All the operations are writes. -/
def Wrote (u : Trace (CacheSig R)) : Prop := ∀ e ∈ u, ∃ k object, e.op = .writeAll k object

theorem wrote_nil : Wrote ([] : Trace (CacheSig R)) := fun _ he => absurd he List.not_mem_nil

theorem Wrote.snoc {u : Trace (CacheSig R)} (h : Wrote u) (k : String) (object : Object)
    (x : Except String Unit) : Wrote (u ++ [⟨.writeAll k object, x⟩]) := by
  intro e he
  rcases List.mem_append.mp he with he | he
  · exact h e he
  · rw [List.mem_singleton.mp he]
    exact ⟨k, object, rfl⟩

section Writes

variable {allows : Trace (CacheSig R) → CacheOp R → Prop} {past : Trace (CacheSig R)}
  {ref : RepoRef}
  {body : String} {origin : Origin}

/-- Writes are allowed from now on. -/
def AllowsWrites (allows : Trace (CacheSig R) → CacheOp R → Prop) (past : Trace (CacheSig R)) :
    Prop :=
  ∀ u, Wrote u → ∀ k object, allows (past ++ u) (.writeAll k object)

/-- The object was stored at the latest key, if all the writes succeeded. -/
def FiledLatest (ref : RepoRef) (object : Object) (u : Trace (CacheSig R)) : Prop :=
  WritesOk u → lastWrite (key ref "") u = some object

theorem performs_write (body : String) (origin : Origin) {u : Trace (CacheSig R)}
    (h : AllowsWrites allows past) (hu : Wrote u) (k : String) :
    (write k body origin).Safe (.history allows)
      (fun written past' => ∃ x, past' = past ++ (u ++ [⟨.writeAll k (objectOf body origin), x⟩]) ∧
        (written = .ok () ∨ ∃ message, x = .error message)) (past ++ u) := by
  refine safe_perform_bind (h u hu _ _) ?_
  rintro (message | ⟨⟩)
  · exact ⟨.error message, List.append_assoc .., Or.inr ⟨message, rfl⟩⟩
  · exact ⟨.ok (), List.append_assoc .., Or.inl rfl⟩

/-- A write at the latest key. -/
theorem performs_write_latest (ref : RepoRef) (body : String) (origin : Origin)
    {u : Trace (CacheSig R)} (h : AllowsWrites allows past) (hu : Wrote u) :
    (write (key ref "") body origin).Safe (.history allows) (fun _ past' =>
      ∃ u', past' = past ++ u' ∧ Wrote u' ∧ FiledLatest ref (objectOf body origin) u')
      (past ++ u) := by
  refine (performs_write body origin h hu _).mono ?_
  rintro _ _ ⟨x, rfl, -⟩
  refine ⟨_, rfl, hu.snoc _ _ _, fun _ => ?_⟩
  rw [lastWrite_snoc]
  exact if_pos rfl

theorem performs_putLatestAndCommit (h : AllowsWrites allows past) (commit : String) :
    (putLatestAndCommitWithOrigin ref commit body origin).Safe (.history allows)
      (fun _ past' => ∃ u, past' = past ++ u ∧ Wrote u ∧
        (commit ≠ "" → FiledLatest ref (objectOf body origin) u) ∧
          (commit = "" → u = [])) past := by
  rw [putLatestAndCommitWithOrigin]
  by_cases hc : commit = ""
  · rw [if_pos hc]
    exact ⟨[], (List.append_nil past).symm, wrote_nil, fun h' => absurd hc h', fun _ => rfl⟩
  · rw [if_neg hc]
    have hfirst := performs_write body origin h wrote_nil (key ref commit)
    rw [List.append_nil] at hfirst
    refine hfirst.bind ?_
    rintro written _ ⟨x, rfl, hx⟩
    rw [List.nil_append]
    rcases written with err | ⟨⟩
    · obtain ⟨message, rfl⟩ := hx.resolve_left (by simp)
      exact ⟨_, rfl, wrote_nil.snoc _ _ _,
        fun _ hok => absurd (List.mem_singleton.mpr rfl) (hok _ _ message), fun h' => absurd h' hc⟩
    · refine (performs_write_latest ref body origin h (wrote_nil.snoc _ _ _)).mono ?_
      rintro _ _ ⟨u, rfl, hu, hfiled⟩
      exact ⟨u, rfl, hu, fun _ => hfiled, fun h' => absurd h' hc⟩

theorem performs_backfill (h : AllowsWrites allows past) (res : ScanResult) :
    (backfill ref res).Safe (.history allows) (fun _ past' => ∃ u, past' = past ++ u ∧ Wrote u ∧
      FiledLatest ref (objectOf res.json2 .originUpstream) u) past := by
  rw [backfill]
  by_cases hc : res.resolvedCommit = ""
  · rw [if_pos hc]
    have hlatest := performs_write_latest ref res.json2 .originUpstream h wrote_nil
    rwa [List.append_nil] at hlatest
  · rw [if_neg hc]
    refine (performs_putLatestAndCommit h res.resolvedCommit).mono ?_
    rintro _ _ ⟨u, rfl, hu, hfiled, -⟩
    exact ⟨u, rfl, hu, hfiled hc⟩

/-- What a flight has stored at the latest key: its result, if it is one of the latest commit, names
its commit, and was written. -/
def Persisted (ref : RepoRef) (commit : String) (res : ScanResult) (u : Trace (CacheSig R)) :
    Prop :=
  commit = "" → (res.resolvedCommit ≠ "" → FiledLatest ref (objectOf res.json2 .originLocal) u) ∧
    (res.resolvedCommit = "" → u = [])

theorem performs_persist (h : AllowsWrites allows past) (commit : String) (res : ScanResult) :
    (persist ref commit res).Safe (.history allows)
      (fun _ past' => ∃ u, past' = past ++ u ∧ Wrote u ∧
      Persisted ref commit res u) past := by
  rw [persist]
  by_cases hc : commit = ""
  · rw [if_pos hc]
    refine (performs_putLatestAndCommit h res.resolvedCommit).mono ?_
    rintro _ _ ⟨u, rfl, hu, hfiled⟩
    exact ⟨u, rfl, hu, fun _ => hfiled⟩
  · rw [if_neg hc]
    have hput := performs_write res.json2 .originLocal h wrote_nil (key ref commit)
    rw [List.append_nil] at hput
    refine hput.mono ?_
    rintro _ _ ⟨x, rfl, -⟩
    exact ⟨_, rfl, wrote_nil.snoc _ _ _, fun h' => absurd h' hc⟩

end Writes

/-! ### Flights -/

section Flight

variable (ref : RepoRef) (commit : String)

/-- The beginning of a flight that got a slot. -/
def scanTrace (scanned : Except ScanError ScanResult) : Trace (CacheSig R) :=
  [⟨.acquire, .ok ()⟩, ⟨.scan ref commit, scanned⟩, ⟨.release, ()⟩]

/-- What a flight has performed when it closes, with its reply. -/
inductive Concluded : Trace (CacheSig R) → Reply → Prop
  | waiting (message : String) :
      Concluded [⟨.acquire, .error message⟩] (.error (.waitingForSlot message))
  | failed (e : ScanError) : Concluded (scanTrace ref commit (.error e)) (.error (.scan e))
  | scanned (res : ScanResult) {u : Trace (CacheSig R)} (hu : Wrote u)
      (hpersisted : Persisted ref commit res u) :
      Concluded (scanTrace ref commit (.ok res) ++ u) (liveOutcome res)

/-- The operations of a flight. -/
def FlightPerforms (past : Trace (CacheSig R)) : CacheOp R → Prop
  | .acquire => past = []
  | .scan ref' commit' => ref' = ref ∧ commit' = commit ∧ past = [⟨.acquire, .ok ()⟩]
  | .release => ∃ scanned, past = [⟨.acquire, .ok ()⟩, ⟨.scan ref commit, scanned⟩]
  | .writeAll _ _ => ∃ res u, Wrote u ∧ past = scanTrace ref commit (.ok res) ++ u
  | .finish reply => Concluded ref commit past reply
  | _ => False

variable {ref commit}

theorem performs_poolDo : (poolDo ref commit).Safe (.history (FlightPerforms (R := R) ref commit))
    (fun
      | .error e, past => Concluded ref commit past (.error e)
      | .ok res, past => past = scanTrace ref commit (.ok res)) [] := by
  refine safe_perform_bind rfl ?_
  rintro (message | ⟨⟩)
  · exact .waiting message
  · refine safe_perform_bind ⟨rfl, rfl, rfl⟩ fun scanned =>
      safe_perform_bind ⟨scanned, rfl⟩ fun _ => ?_
    rcases scanned with e | res
    · exact .failed e
    · exact rfl

/-- **Flights** scan once at most, store the result, and close. -/
theorem performs_flight : (flight ref commit).Safe (.history (FlightPerforms (R := R) ref commit))
    (fun reply past => ∃ past', past = past' ++ [⟨.finish reply, ()⟩] ∧
      Concluded ref commit past' reply) [] := by
  rw [flight, scanAndStore, bind_assoc]
  refine performs_poolDo.bind fun scanned past hpast => ?_
  rcases scanned with e | res
  · exact safe_perform_bind hpast fun _ => ⟨past, rfl, hpast⟩
  · dsimp only at hpast ⊢
    subst hpast
    rw [bind_assoc]
    refine (performs_persist (fun u hu _ _ => ⟨res, u, hu, rfl⟩) commit res).bind ?_
    rintro _ _ ⟨u, rfl, hu, hpersisted⟩
    exact safe_perform_bind (.scanned res hu hpersisted)
      fun _ => ⟨_, rfl, .scanned res hu hpersisted⟩

/-- A flight that has closed performs nothing more. -/
theorem FlightPerforms.finish_notMem {past : Trace (CacheSig R)} {op : CacheOp R}
    (h : FlightPerforms ref commit past op) (reply : Reply) : ⟨.finish reply, ()⟩ ∉ past := by
  have hwrote : ∀ {u : Trace (CacheSig R)} res, Wrote u →
      ⟨.finish reply, ()⟩ ∉ scanTrace ref commit (.ok res) ++ u := by
    intro u res hu hmem
    rcases List.mem_append.mp hmem with hmem | hmem
    · simp [scanTrace] at hmem
    · obtain ⟨k, object, hop⟩ := hu _ hmem
      cases hop
  cases op with
  | acquire => exact fun hmem => absurd (h ▸ hmem) List.not_mem_nil
  | scan ref' commit' =>
    obtain ⟨-, -, rfl⟩ := h
    simp
  | release =>
    obtain ⟨scanned, rfl⟩ := h
    simp
  | writeAll k object =>
    obtain ⟨res, u, hu, rfl⟩ := h
    exact hwrote res hu
  | finish reply' =>
    cases h with
    | waiting message => simp
    | failed e => simp [scanTrace]
    | scanned res hu => exact hwrote res hu
  | _ => exact h.elim

end Flight

/-! ### Requests -/

section Request

variable (o : Wired) (ref : RepoRef) (commit : String)

/-- A lookup that does not answer the request: nothing is stored, or what is stored is too old. -/
inductive Missed : Trace (CacheSig R) → Prop
  | absent : Missed [⟨.readAll (key ref commit), .error .notFound⟩]
  | stale {body : String} {attrs : Except String String} {now : Int} (hc : commit = "")
      (h : o.fresh now body (originOf attrs) = false) :
      Missed [⟨.readAll (key ref commit), .ok body⟩, ⟨.attributes (key ref commit), attrs⟩,
        ⟨.now, now⟩]

/-- A lookup that answers the request, and what it read. -/
inductive Hit (body : String) (attrs : Except String String) : Trace (CacheSig R) → Prop
  | pinned (hc : commit ≠ "") : Hit body attrs
      [⟨.readAll (key ref commit), .ok body⟩, ⟨.attributes (key ref commit), attrs⟩]
  | fresh {now : Int} (hc : commit = "") (h : o.fresh now body (originOf attrs) = true) :
      Hit body attrs [⟨.readAll (key ref commit), .ok body⟩, ⟨.attributes (key ref commit), attrs⟩,
        ⟨.now, now⟩]

/-- The request's lookup missed. -/
def AfterMiss (past : Trace (CacheSig R)) : Prop :=
  ∃ lookup, Missed o ref commit lookup ∧ lookup <+: past

/-- The fallback is active, with its client. -/
structure Active (past : Trace (CacheSig R)) (c : Client) : Prop where
  fallback : o.fallback = some c
  latest : commit = ""
  enabled : o.hasFlags = true → ⟨.boolFlag flagEnabled true, true⟩ ∈ past

/-- What waiting for a flight ends with. -/
inductive Waited (past : Trace (CacheSig R)) : Reply → Prop
  | result {ch : R} {reply : Reply} (hjoined : ⟨.doChan (key ref commit), ch⟩ ∈ past)
      (h : ⟨.await ch, .result reply⟩ ∈ past) : Waited past reply
  | timeout {ch : R} (hjoined : ⟨.doChan (key ref commit), ch⟩ ∈ past)
      (h : ⟨.await ch, .timeout⟩ ∈ past) : Waited past (.ok (.notReady o.retryAfter))
  | cancelled {ch : R} {message : String} (hjoined : ⟨.doChan (key ref commit), ch⟩ ∈ past)
      (h : ⟨.await ch, .cancelled message⟩ ∈ past) : Waited past (.error (.cancelled message))

/-- The upstream's answer makes this outcome, and was stored at the latest key if the writes
succeeded. -/
inductive Fetched (past : Trace (CacheSig R)) : Outcome → Prop
  | mk {c : Client} {answer : HTTPAnswer} {now : Int} {res : ScanResult} {parsed : Result}
      (hactive : Active o commit past c) (hget : ⟨.get (c.endpoint ref), (answer, now)⟩ ∈ past)
      (hres : c.fetch now ref answer = .ok res) (hparse : parse res.json2 = .ok parsed)
      (hfiled : FiledLatest ref (objectOf res.json2 .originUpstream) past) :
      Fetched past (.ready (provenanceFrom parsed .upstream res.complete) res.json2)

/-- How a request comes to its reply. -/
inductive Replied (past : Trace (CacheSig R)) : Reply → Prop
  | unread {message : String} (h : ⟨.readAll (key ref commit), .error (.failed message)⟩ ∈ past) :
      Replied past (.error (.storeLookup (.reading (key ref commit) message)))
  | stored {body : String} {attrs : Except String String} (h : Hit o ref commit body attrs past) :
      Replied past (cachedOutcome body (originOf attrs))
  | fetched {out : Outcome} (h : Fetched o ref commit past out) : Replied past (.ok out)
  | waited {reply : Reply} (h : Waited o ref commit past reply) : Replied past reply

/-- The operations of a request. -/
def Asks (past : Trace (CacheSig R)) : CacheOp R → Prop
  | .readAll k => k = key ref commit ∧ past = []
  | .attributes k => k = key ref commit ∧ ∃ body, past = [⟨.readAll (key ref commit), .ok body⟩]
  | .now => commit = "" ∧ ∃ body attrs,
      past = [⟨.readAll (key ref commit), .ok body⟩, ⟨.attributes (key ref commit), attrs⟩]
  | .boolFlag _ _ => AfterMiss o ref commit past
  | .stringFlag _ _ => AfterMiss o ref commit past
  | .writeAll _ _ => AfterMiss o ref commit past
  | .get url => AfterMiss o ref commit past ∧ ∃ c, Active o commit past c ∧ url = c.endpoint ref
  | .doChan k => AfterMiss o ref commit past ∧ k = key ref commit
  | .await ch => ⟨.doChan (key ref commit), ch⟩ ∈ past
  | _ => False

variable {o ref commit} {past past' : Trace (CacheSig R)}

/-- What a lookup that answers the request has read. -/
theorem Hit.mem {body : String} {attrs : Except String String}
    (h : Hit o ref commit body attrs past) :
    ⟨.readAll (key ref commit), .ok body⟩ ∈ past ∧ ⟨.attributes (key ref commit), attrs⟩ ∈ past ∧
      (commit = "" → ∃ now, ⟨.now, now⟩ ∈ past ∧ o.fresh now body (originOf attrs) = true) := by
  cases h with
  | pinned hc => exact ⟨by simp, by simp, fun h => absurd h hc⟩
  | fresh hc hfresh => exact ⟨by simp, by simp, fun _ => ⟨_, by simp, hfresh⟩⟩

theorem AfterMiss.mono (h : AfterMiss o ref commit past) (hpast : past <+: past') :
    AfterMiss o ref commit past' := by
  obtain ⟨lookup, hmissed, hlookup⟩ := h
  exact ⟨lookup, hmissed, hlookup.trans hpast⟩

theorem AfterMiss.snoc (h : AfterMiss o ref commit past) (e : Event (CacheSig R)) :
    AfterMiss o ref commit (past ++ [e]) :=
  h.mono (List.prefix_append _ _)

theorem Active.mono {c : Client} (h : Active o commit past c) (hpast : past <+: past') :
    Active o commit past' c :=
  ⟨h.fallback, h.latest, fun hflags => hpast.subset (h.enabled hflags)⟩

theorem Waited.mono {reply : Reply} (h : Waited o ref commit past reply) (hpast : past <+: past') :
    Waited o ref commit past' reply := by
  cases h with
  | result hjoined h => exact .result (hpast.subset hjoined) (hpast.subset h)
  | timeout hjoined h => exact .timeout (hpast.subset hjoined) (hpast.subset h)
  | cancelled hjoined h => exact .cancelled (hpast.subset hjoined) (hpast.subset h)

theorem FiledLatest.append {object : Object} {u : Trace (CacheSig R)} (h : FiledLatest ref object u)
    (past : Trace (CacheSig R)) : FiledLatest ref object (past ++ u) := by
  intro hok
  rw [lastWrite_append, h fun k x message hmem => hok k x message (List.mem_append_right _ hmem)]
  rfl

theorem asks_tryFallback {c : Client} (hmiss : AfterMiss o ref commit past)
    (hactive : Active o commit past c) :
    (tryFallback c ref).Safe (.history (Asks o ref commit))
      (fun out past' => ∀ outcome, out = some outcome →
        Fetched o ref commit past' outcome) past := by
  rw [tryFallback, fetch, bind_assoc]
  refine safe_perform_bind ⟨hmiss, c, hactive, rfl⟩ ?_
  rintro ⟨answer, now⟩
  dsimp only [Prog.pure_eq, Prog.ret_bind]
  rcases hres : c.fetch now ref answer with err | res
  · rintro outcome ⟨⟩
  · refine (performs_backfill
      (fun u _ _ _ => (hmiss.snoc _).mono (List.prefix_append _ _)) res).bind ?_
    rintro _ _ ⟨u, rfl, -, hfiled⟩
    rcases hparse : parse res.json2 with err | parsed
    · rintro outcome ⟨⟩
    · rintro outcome hout
      obtain rfl := Option.some.inj hout
      rw [Monitor.history_next, List.append_assoc]
      refine .mk (hactive.mono (List.prefix_append _ _)) ?_ hres hparse ?_
      · simp
      · exact (hfiled.append _).append _

theorem asks_scanOutcome (hmiss : AfterMiss o ref commit past) :
    (o.scanOutcome ref commit).Safe (.history (Asks o ref commit))
      (fun reply past' => Waited o ref commit past' reply) past := by
  refine safe_perform_bind ⟨hmiss, rfl⟩ fun ch => ?_
  have hch : ⟨.doChan (key ref commit), ch⟩ ∈
      past ++ [(⟨.doChan (key ref commit), ch⟩ : Event (CacheSig R))] := by simp
  refine safe_perform_bind hch ?_
  rintro (reply | ⟨⟩ | message)
  · exact .result (List.mem_append_left _ hch) (by simp)
  · exact .timeout (List.mem_append_left _ hch) (by simp)
  · exact .cancelled (List.mem_append_left _ hch) (by simp)

theorem asks_fallbackDecision (hmiss : AfterMiss o ref commit past) :
    (o.fallbackDecision commit).Safe (.history (Asks o ref commit))
      (fun decision past' => ∀ d, decision = some d → Active o commit past' d.1) past := by
  rw [Wired.fallbackDecision]
  rcases hfallback : o.fallback with _ | c
  · rintro d ⟨⟩
  dsimp only
  by_cases hc : commit = ""
  · rw [if_neg (not_not.mpr hc)]
    split_ifs with hflags
    · rintro d ⟨⟩
      exact ⟨hfallback, hc, fun h => absurd (h.symm.trans hflags) (by decide)⟩
    · refine safe_perform_bind hmiss fun enabled => ?_
      split_ifs with henabled
      · rintro d ⟨⟩
      · refine safe_perform_bind (hmiss.snoc _) fun mode => ?_
        rintro d ⟨⟩
        rw [Bool.not_eq_false] at henabled
        exact ⟨hfallback, hc, fun _ => by simp [henabled]⟩
  · rw [if_pos hc]
    rintro d ⟨⟩

theorem asks_produce (hmiss : AfterMiss o ref commit past) :
    (o.produce ref commit).Safe (.history (Asks o ref commit))
      (fun reply past' => Replied o ref commit past' reply) past := by
  refine (asks_fallbackDecision hmiss).keeps_history.bind fun decision past₁ h₁ => ?_
  have hmiss₁ := hmiss.mono h₁.2
  rcases decision with _ | ⟨c, mode⟩
  · exact (asks_scanOutcome hmiss₁).mono fun _ _ => .waited
  have hactive := h₁.1 _ rfl
  dsimp only
  by_cases hmode : mode = modeFetchFirst
  · rw [if_pos hmode]
    refine (asks_tryFallback hmiss₁ hactive).keeps_history.bind fun out past₂ h₂ => ?_
    rcases out with _ | out
    · exact (asks_scanOutcome (hmiss₁.mono h₂.2)).mono fun _ _ => .waited
    · exact .fetched (h₂.1 out rfl)
  · rw [if_neg hmode]
    refine (asks_scanOutcome hmiss₁).keeps_history.bind fun reply past₂ h₂ => ?_
    rcases reply with err | out
    · dsimp only
      split_ifs
      · refine (asks_tryFallback (hmiss₁.mono h₂.2) (hactive.mono h₂.2)).keeps_history.bind
          fun out past₃ h₃ => ?_
        rcases out with _ | out
        · exact .waited (h₂.1.mono h₃.2)
        · exact .fetched (h₃.1 out rfl)
      · exact .waited h₂.1
    · exact .waited h₂.1

/-- **Requests** look their key up, and ask the upstream or join a flight only if that misses. -/
theorem asks_getOrProduce : (o.getOrProduce ref commit).Safe (.history (Asks (R := R) o ref commit))
    (fun reply past => Replied o ref commit past reply) [] := by
  refine (safe_getWithOrigin ⟨rfl, rfl⟩ fun body => ⟨rfl, body, rfl⟩).bind fun read past hpast => ?_
  rcases read with e | ⟨body, origin⟩
  · cases e with
    | notFound =>
      obtain rfl : past = _ := hpast
      exact asks_produce ⟨_, .absent, List.prefix_rfl⟩
    | reading =>
      obtain ⟨message, ⟨⟩, rfl⟩ := hpast
      exact .unread (by simp)
    | emptyCommit => obtain ⟨message, ⟨⟩, -⟩ := hpast
    | writing => obtain ⟨message, ⟨⟩, -⟩ := hpast
  · obtain ⟨attrs, rfl, rfl⟩ := hpast
    dsimp only
    by_cases hc : commit = ""
    · rw [if_neg (not_not.mpr hc)]
      refine safe_perform_bind ⟨hc, body, attrs, rfl⟩ fun now => ?_
      split_ifs with hfresh
      · exact .stored (.fresh hc hfresh)
      · exact asks_produce ⟨_, .stale hc (Bool.eq_false_iff.mpr hfresh), List.prefix_rfl⟩
    · rw [if_pos hc]
      exact .stored (.pinned hc)

end Request

/-! ### Runs -/

section World

variable [DecidableEq R] {o : Wired} {req : R → Request}

/-- The operations of a request, or of its flight. -/
def ThreadPerforms (o : Wired) (req : R → Request) : R ⊕ R → Trace (CacheSig R) → CacheOp R → Prop
  | .inl r => Asks o (req r).ref (req r).commit.sha
  | .inr r => FlightPerforms (req r).ref (req r).commit.sha

theorem threadPerforms {i : R ⊕ R} (th : Thread ((cacheWorld o req).start i)) {op : CacheOp R}
    {k : op.Ans → CacheProg R Reply} (h : th.rest = .op op k) :
    ThreadPerforms o req i th.trace op := by
  rcases i with r | r
  · have hallows := th.allows (S := CacheSig R) (asks_getOrProduce (R := R)) h
    rwa [Monitor.after_history] at hallows
  · have hallows := th.allows (S := CacheSig R) (performs_flight (R := R)) h
    rwa [Monitor.after_history] at hallows

/-- A request that has returned. -/
theorem replied {r : R} {th : Thread ((cacheWorld o req).start (.inl r))} {reply : Reply}
    (h : th.Returned reply) : Replied o (req r).ref (req r).commit.sha th.trace reply := by
  have hpost := h.post (S := CacheSig R) (asks_getOrProduce (R := R))
  rwa [Monitor.after_history] at hpost

variable {cfg cfg' : Interaction.Config (Shared R) (cacheWorld o req).start} {j : R ⊕ R}
  {e : Event (CacheSig R)}

/-- A step with what its thread is about to do. -/
structure Advanced (o : Wired) (req : R → Request)
    (cfg cfg' : Interaction.Config (Shared R) (cacheWorld o req).start) (j : R ⊕ R)
    (e : Event (CacheSig R)) : Prop extends Stepped o req (fun _ _ => True) cfg cfg' j e where
  performs : ThreadPerforms o req j (cfg.thread j).trace e.op
  running : ∀ reply, ¬(cfg.thread j).Returned reply

variable {A : R ⊕ R → Trace (CacheSig R) → Shared R → Event (CacheSig R) → Shared R → Prop}

theorem step_advances (hA : ∀ i past s e s', A i past s e s' → Answer o i s e s')
    (h : (answeredBy o req A).Step cfg cfg') :
    ∃ j e, A j (cfg.thread j).trace cfg.shared e cfg'.shared ∧ Advanced o req cfg cfg' j e := by
  obtain ⟨j, hrest, x, s', ha⟩ | ⟨j, ⟨⟩⟩ | ⟨s', ⟨⟩⟩ := h
  refine ⟨j, ⟨_, x⟩, ha, ⟨hA _ _ _ _ _ ha, trivial, allowed (cfg.thread j) hrest, by simp, ?_⟩,
    threadPerforms (cfg.thread j) hrest, fun reply hreturned => ?_⟩
  · exact fun i hij => Function.update_of_ne hij _ _
  · cases hrest.symm.trans hreturned

/-- The flight has closed with the reply. -/
def Closed (cfg : Interaction.Config (Shared R) (cacheWorld o req).start) (ch : R) (reply : Reply) :
    Prop :=
  ∃ past, (cfg.thread (.inr ch)).trace = past ++ [⟨.finish reply, ()⟩] ∧
    Concluded (req ch).ref (req ch).commit.sha past reply

/-- A flight that has closed stays as it is. -/
theorem Closed.mono {ch : R} {reply : Reply} (h : Closed cfg ch reply)
    (hstep : Advanced o req cfg cfg' j e) : Closed cfg' ch reply := by
  by_cases hj : .inr ch = j
  · subst hj
    obtain ⟨past, htrace, -⟩ := h
    refine absurd ?_ (hstep.performs.finish_notMem reply)
    simp [htrace]
  · rwa [Closed, hstep.others _ hj]

/-- Flights are joined under their own key, and their replies are what they ended with. -/
structure Flown (cfg : Interaction.Config (Shared R) (cacheWorld o req).start) : Prop where
  calls : ∀ k ch, cfg.shared.calls k = some ch → (req ch).key = k
  joined : ∀ i k ch, ⟨.doChan k, ch⟩ ∈ (cfg.thread i).trace → (req ch).key = k
  replies : ∀ ch reply, cfg.shared.replies ch = some reply → Closed cfg ch reply
  awaited : ∀ i ch reply, ⟨.await ch, .result reply⟩ ∈ (cfg.thread i).trace → Closed cfg ch reply

/-- Only requests join, under their own key. -/
theorem Advanced.doChan (h : Advanced o req cfg cfg' j e) {k : String} (hop : e.op = .doChan k) :
    ∃ r, j = .inl r ∧ k = (req r).key := by
  have hperforms := h.performs
  rw [hop] at hperforms
  rcases j with r | r
  exacts [⟨r, rfl, hperforms.2⟩, hperforms.elim]

theorem Flown.step (h : Flown cfg) (hstep : Advanced o req cfg cfg' j e) : Flown cfg' where
  calls k ch hk := by
    rcases hstep.answer.calls_eq hk with hk | ⟨rfl, hop⟩
    · exact h.calls k ch hk
    · obtain ⟨r, hr, hkey⟩ := hstep.doChan hop
      obtain rfl := Sum.inl_injective hr
      exact hkey.symm
  joined i k ch hjoined := by
    rcases hstep.mem_trace hjoined with hjoined | ⟨rfl, rfl⟩
    · exact h.joined i k ch hjoined
    · rcases hstep.answer.doChan_cases with hk | rfl
      · exact h.calls k ch hk
      · obtain ⟨r, hr, hkey⟩ := hstep.doChan rfl
        obtain rfl := Sum.inl_injective hr
        exact hkey.symm
  replies ch reply hreply := by
    rcases hstep.answer.replies_eq hreply with hreply | ⟨rfl, hop⟩
    · exact (h.replies ch reply hreply).mono hstep
    · have hperforms := hstep.performs
      have htrace := hstep.trace
      obtain ⟨op, x⟩ := e
      obtain rfl : op = .finish reply := hop
      exact ⟨_, htrace, hperforms⟩
  awaited i ch reply hawait := by
    rcases hstep.mem_trace hawait with hawait | ⟨rfl, rfl⟩
    · exact (h.awaited i ch reply hawait).mono hstep
    · exact (h.replies ch reply hstep.answer.await_eq).mono hstep

theorem flown_reachable (hA : ∀ i past s e s', A i past s e s' → Answer o i s e s')
    {stored : String → Option Object} (h : (answeredBy o req A).Reachable (.initial stored) cfg) :
    Flown cfg := by
  induction h with
  | refl =>
    exact ⟨nofun, fun _ _ _ he => absurd he List.not_mem_nil, nofun,
      fun _ _ _ he => absurd he List.not_mem_nil⟩
  | tail _ hstep ih =>
    obtain ⟨j, e, -, hadvanced⟩ := step_advances hA hstep
    exact ih.step hadvanced

end World

end ScorecardInfra.Cache
