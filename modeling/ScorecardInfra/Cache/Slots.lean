import Mathlib.Data.Finset.Card
import ScorecardInfra.Cache.Coalescing

/-!
# The slots of the scan pool

A flight takes a slot of the pool before it scans and gives it back when the scanner has returned,
with a result or with an error. In every configuration that is reached, whatever the store, the
upstream and the scanner answer, the flights that hold a slot are as many as the pool counts, and
not more than it has (`slots_bounded`). A flight scans only while it holds one, and two that hold
slots are for different repositories or commits.

A flight is open from its launch until it has handed over its reply (`Live`); a request launches at
most one (`joinsOnce_getOrProduce`).

## Main definitions

* `HoldsSlot`, `Live`, `Slots`.

## Main results

* `live_reachable`, `slots_reachable`, `slots_bounded`.

Sources: `internal/scan/pool.go`; `internal/orchestrator/orchestrator.go`, lines 316–376.
-/

namespace ScorecardInfra.Cache

open GoStd Interaction

variable {R : Type}

/-! ### A request launches one flight -/

/-- The operation joins or launches a flight. -/
def CacheOp.isDoChan : CacheOp R → Bool
  | .doChan _ => true
  | _ => false

/-- Follows whether a request has joined a flight, and allows it once. -/
def joinsOnce : Monitor (CacheSig R) Bool where
  allows joined op := op.isDoChan = true → joined = false
  next joined e := joined || e.op.isDoChan

theorem joinsOnce_after (joined : Bool) (t : Trace (CacheSig R)) :
    joinsOnce.after joined t = (joined || t.any fun e => e.op.isDoChan) := by
  induction t generalizing joined with
  | nil => exact (Bool.or_false joined).symm
  | cons e t ih =>
    rw [Monitor.after_cons, ih, List.any_cons]
    exact Bool.or_assoc ..

/-- What does not join a flight leaves the monitor as it is. -/
theorem safe_of_noDoChan {α : Type} {p : CacheProg R α} {joined : Bool}
    (hp : p.Performs fun op : CacheOp R => op.isDoChan = false) :
    p.Safe joinsOnce (fun _ joined' => joined' = joined) joined := by
  refine Prog.Performs.safe (I := fun joined' => joined' = joined) hp ?_ rfl
  rintro op _ hop rfl
  refine ⟨fun h => absurd (hop.symm.trans h) Bool.false_ne_true, fun x => ?_⟩
  show (_ || op.isDoChan) = _
  rw [hop, Bool.or_false]

section Requests

variable {o : Wired} {ref : RepoRef} {commit : String}

theorem noDoChan_getWithOrigin :
    (getWithOrigin (R := R) ref commit).Performs fun op : CacheOp R => op.isDoChan = false := by
  refine ⟨rfl, ?_⟩
  rintro ((_ | _) | _)
  · trivial
  · trivial
  · exact ⟨rfl, fun _ => trivial⟩

theorem noDoChan_write {k body : String} {origin : Origin} :
    (write (R := R) k body origin).Performs fun op : CacheOp R => op.isDoChan = false := by
  refine ⟨rfl, ?_⟩
  rintro (_ | _) <;> trivial

theorem noDoChan_backfill {res : ScanResult} :
    (backfill (R := R) ref res).Performs fun op : CacheOp R => op.isDoChan = false := by
  rw [backfill]
  split_ifs with hempty
  · exact noDoChan_write
  · rw [putLatestAndCommitWithOrigin, if_neg hempty]
    refine noDoChan_write.bind ?_
    rintro (_ | _)
    exacts [trivial, noDoChan_write]

theorem noDoChan_tryFallback {c : Client} :
    (tryFallback (R := R) c ref).Performs fun op : CacheOp R => op.isDoChan = false := by
  rw [tryFallback, fetch, bind_assoc]
  refine ⟨rfl, ?_⟩
  rintro ⟨answer, now⟩
  dsimp only [Prog.bind]
  rcases c.fetch now ref answer with err | res
  · trivial
  · refine noDoChan_backfill.bind fun _ => ?_
    split <;> trivial

theorem noDoChan_fallbackDecision :
    (o.fallbackDecision (R := R) commit).Performs fun op : CacheOp R => op.isDoChan = false := by
  rw [Wired.fallbackDecision]
  split
  · trivial
  · split_ifs
    · trivial
    · trivial
    · refine ⟨rfl, fun enabled => ?_⟩
      show Prog.Performs _ (if enabled = false then _ else _)
      split_ifs
      exacts [trivial, ⟨rfl, fun _ => trivial⟩]

/-- A request that has not joined a flight joins one here. -/
theorem joinsOnce_scanOutcome :
    (o.scanOutcome (R := R) ref commit).Safe joinsOnce (fun _ _ => True) false := by
  refine safe_perform_bind (fun _ => rfl) fun ch => safe_perform_bind nofun ?_
  rintro (_ | _ | _) <;> trivial

theorem joinsOnce_produce :
    (o.produce (R := R) ref commit).Safe joinsOnce (fun _ _ => True) false := by
  refine (safe_of_noDoChan noDoChan_fallbackDecision).bind ?_
  rintro (_ | ⟨c, mode⟩) _ rfl
  · exact joinsOnce_scanOutcome
  dsimp only
  by_cases hmode : mode = modeFetchFirst
  · rw [if_pos hmode]
    refine (safe_of_noDoChan noDoChan_tryFallback).bind ?_
    rintro (_ | out) _ rfl
    exacts [joinsOnce_scanOutcome, trivial]
  · rw [if_neg hmode]
    refine joinsOnce_scanOutcome.bind ?_
    rintro (e | out) joined -
    · dsimp only
      split_ifs
      · refine (safe_of_noDoChan noDoChan_tryFallback).bind ?_
        rintro (_ | out) _ - <;> trivial
      · trivial
    · trivial

/-- **A request** joins or launches at most one flight. -/
theorem joinsOnce_getOrProduce :
    (o.getOrProduce (R := R) ref commit).Safe joinsOnce (fun _ _ => True) false := by
  refine (safe_of_noDoChan noDoChan_getWithOrigin).bind ?_
  rintro (e | ⟨body, origin⟩) _ rfl
  · cases e with
    | notFound => exact joinsOnce_produce
    | reading | emptyCommit | writing => trivial
  · dsimp only
    split_ifs
    · trivial
    · refine safe_perform_bind nofun fun now => ?_
      split_ifs
      exacts [trivial, joinsOnce_produce]

end Requests

section World

variable [DecidableEq R] {o : Wired} {req : R → Request}
  {cfg cfg' : Interaction.Config (Shared R) (cacheWorld o req).start} {j : R ⊕ R}
  {e : Event (CacheSig R)}

/-- A request that has joined a flight had not joined one before. -/
theorem not_joined {r : R} (th : Thread ((cacheWorld o req).start (.inl r))) {k : String} {x : R}
    {t : Trace (CacheSig R)} (h : th.trace = t ++ [⟨.doChan k, x⟩]) (k' : String) (ch : R) :
    ⟨.doChan k', ch⟩ ∉ t := by
  have hexec := th.leads.exec (.cut th.rest)
  rw [List.append_nil, h] at hexec
  have hallows := hexec.allows (S := CacheSig R) (joinsOnce_getOrProduce (R := R)) rfl
  rw [joinsOnce_after, Bool.false_or, List.any_eq_false] at hallows
  exact fun hmem => hallows _ hmem rfl

/-! ### Open flights -/

/-- A flight that is joined was open, or is launched. -/
theorem Answer.launched_of_doChan {i : R ⊕ R} {s s' : Shared R} {k : String} {ch : R}
    (h : Answer o i s ⟨.doChan k, ch⟩ s') : s.calls k = some ch ∨ s'.launched ch := by
  cases h with
  | join hk => exact Or.inl hk
  | launch => exact Or.inr (by simp)

/-- An open flight was open before, or is launched. -/
theorem Answer.launched_of_calls {i : R ⊕ R} {s s' : Shared R} {k : String} {ch : R}
    (h : Answer o i s e s') (hk : s'.calls k = some ch) :
    s.calls k = some ch ∨ s'.launched ch := by
  rcases h.calls_eq hk with hk | ⟨rfl, hop⟩
  · exact Or.inl hk
  · obtain ⟨op, x⟩ := e
    obtain rfl : op = .doChan k := hop
    cases h with
    | join hold => exact Or.inl hk
    | launch => exact Or.inr (by simp)

/-- A flight that closes is not open any more, and has its reply. -/
theorem Answer.finished {r : R} {reply : Reply} {s s' : Shared R}
    (h : Answer o (.inr r) s ⟨.finish reply, ()⟩ s') :
    s'.replies r = some reply ∧ ∀ k, s'.calls k ≠ some r := by
  cases h with
  | finish =>
    refine ⟨Function.update_self .., fun k hk => ?_⟩
    dsimp only at hk
    split_ifs at hk with hopen
    exact hopen hk

/-- A reply is changed by its flight only. -/
theorem Answer.replies_same {i : R ⊕ R} {r : R} {s s' : Shared R} (h : Answer o i s e s')
    (hfinish : ∀ reply, i = .inr r → e.op ≠ .finish reply) : s'.replies r = s.replies r := by
  cases h with
  | @finish r' _ reply =>
    refine Function.update_of_ne ?_ _ _
    rintro rfl
    exact hfinish reply rfl rfl
  | _ => rfl

/-- Only a flight that was launched waits for a slot. -/
theorem Answer.launched_of_acquire {r : R} {x : Except String Unit} {s s' : Shared R}
    (h : Answer o (.inr r) s ⟨.acquire, x⟩ s') : s.launched r := by
  cases h with
  | acquire hlaunched => exact hlaunched
  | acquireFailed hlaunched => exact hlaunched

omit [DecidableEq R] in
/-- A flight begins by waiting for a slot. -/
theorem FlightPerforms.eq_acquire {ref : RepoRef} {commit : String} {op : CacheOp R}
    (h : FlightPerforms ref commit [] op) : op = .acquire := by
  cases op with
  | acquire => rfl
  | scan => exact absurd h.2.2 nofun
  | release =>
    obtain ⟨scanned, hscanned⟩ := h
    cases hscanned
  | writeAll =>
    obtain ⟨res, u, -, hpast⟩ := h
    cases hpast
  | finish reply => cases h
  | _ => exact h.elim

/-- A flight is open, with no reply, or has replied; both only once it has been launched, by its
request. -/
structure Live (cfg : Interaction.Config (Shared R) (cacheWorld o req).start) : Prop where
  calls : ∀ k ch, cfg.shared.calls k = some ch → cfg.shared.launched ch ∧
    cfg.shared.replies ch = none
  joined : ∀ i k ch, ⟨.doChan k, ch⟩ ∈ (cfg.thread i).trace → cfg.shared.launched ch
  launched : ∀ r, cfg.shared.launched r →
    ∃ k ch, ⟨.doChan k, ch⟩ ∈ (cfg.thread (.inl r)).trace
  pending : ∀ r, cfg.shared.launched r → cfg.shared.calls (req r).key = some r ∨
    (cfg.shared.replies r).isSome
  replied : ∀ r, (cfg.shared.replies r).isSome → cfg.shared.launched r
  finished : ∀ r reply, ⟨.finish reply, ()⟩ ∈ (cfg.thread (.inr r)).trace →
    cfg.shared.replies r = some reply
  begun : ∀ r, (cfg.thread (.inr r)).trace ≠ [] → cfg.shared.launched r

/-- A request launches a flight of its own once. -/
theorem Live.not_launched (h : Live cfg) (hstep : Advanced o req cfg cfg' j e) {r : R} {k : String}
    (hj : j = .inl r) (hop : e.op = .doChan k) : ¬cfg.shared.launched r := by
  subst hj
  obtain ⟨op, x⟩ := e
  obtain rfl : op = .doChan k := hop
  intro hlaunched
  obtain ⟨k', ch, hmem⟩ := h.launched r hlaunched
  exact not_joined (cfg'.thread (.inl r)) hstep.trace k' ch hmem

theorem Live.step (h : Live cfg) (hstep : Advanced o req cfg cfg' j e) : Live cfg' where
  calls k ch hk := by
    have hreply : cfg'.shared.replies ch ≠ none → cfg.shared.replies ch ≠ none := by
      refine fun hne hnone => hne ((hstep.answer.replies_same fun reply hj hop => ?_).trans hnone)
      subst hj
      obtain ⟨op, x⟩ := e
      obtain rfl : op = .finish reply := hop
      exact (hstep.answer.finished).2 k hk
    rcases hstep.answer.calls_eq hk with hold | ⟨hj, hop⟩
    · obtain ⟨hlaunched, hnone⟩ := h.calls k ch hold
      exact ⟨hstep.answer.launched_mono hlaunched, not_imp_not.mp hreply hnone⟩
    · have hnew := h.not_launched hstep hj hop
      refine ⟨?_, not_imp_not.mp hreply ?_⟩
      · refine (hstep.answer.launched_of_calls hk).resolve_left fun hold => ?_
        exact hnew (h.calls k ch hold).1
      · exact Option.not_isSome_iff_eq_none.mp fun hsome => hnew (h.replied ch hsome)
  joined i k ch hmem := by
    rcases hstep.mem_trace hmem with hold | ⟨rfl, rfl⟩
    · exact hstep.answer.launched_mono (h.joined i k ch hold)
    · rcases hstep.answer.launched_of_doChan with hold | hnew
      exacts [hstep.answer.launched_mono (h.calls k ch hold).1, hnew]
  launched r hr := by
    rcases hstep.answer.launched_eq hr with hold | ⟨k, rfl, hop, -⟩
    · obtain ⟨k, ch, hmem⟩ := h.launched r hold
      exact ⟨k, ch, (hstep.trace_extends _).subset hmem⟩
    · have htrace := hstep.trace
      obtain ⟨op, x⟩ := e
      obtain rfl : op = .doChan k := hop
      exact ⟨k, x, by simp [htrace]⟩
  pending r hr := by
    rcases hstep.answer.launched_eq hr with hold | ⟨k, rfl, hop, -, hcalls⟩
    · exact hstep.answer.pending (h.pending r hold)
    · obtain ⟨r', hr', rfl⟩ := hstep.doChan hop
      obtain rfl := Sum.inl_injective hr'
      exact Or.inl hcalls
  replied r hr := by
    refine hstep.answer.launched_mono ?_
    obtain ⟨reply, hreply⟩ := Option.isSome_iff_exists.mp hr
    rcases hstep.answer.replies_eq hreply with hold | ⟨rfl, hop⟩
    · exact h.replied r (by rw [hold]; rfl)
    · refine h.begun r fun hnil => ?_
      have hperforms : FlightPerforms _ _ (cfg.thread (.inr r)).trace e.op := hstep.performs
      rw [hnil] at hperforms
      cases hop.symm.trans hperforms.eq_acquire
  finished r reply hmem := by
    rcases hstep.mem_trace hmem with hold | ⟨rfl, rfl⟩
    · refine (hstep.answer.replies_same fun reply' hj hop => ?_).trans (h.finished r reply hold)
      subst hj
      exact hstep.performs.finish_notMem reply hold
    · exact hstep.answer.finished.1
  begun r hne := by
    refine hstep.answer.launched_mono ?_
    by_cases hnil : (cfg.thread (.inr r)).trace = []
    · obtain rfl : .inr r = j := by
        by_contra hij
        exact hne (by rwa [hstep.others _ hij])
      have hperforms : FlightPerforms _ _ (cfg.thread (.inr r)).trace e.op := hstep.performs
      rw [hnil] at hperforms
      obtain ⟨op, x⟩ := e
      obtain rfl := hperforms.eq_acquire
      exact hstep.answer.launched_of_acquire
    · exact h.begun r hnil

theorem live_reachable
    {A : R ⊕ R → Trace (CacheSig R) → Shared R → Event (CacheSig R) → Shared R → Prop}
    (hA : ∀ i past s e s', A i past s e s' → Answer o i s e s') {stored : String → Option Object}
    (h : (answeredBy o req A).Reachable (.initial stored) cfg) : Live cfg := by
  induction h with
  | refl =>
    exact ⟨nofun, fun _ _ _ he => absurd he List.not_mem_nil, nofun, nofun, nofun,
      fun _ _ he => absurd he List.not_mem_nil, fun _ h => absurd rfl h⟩
  | tail _ hstep ih =>
    obtain ⟨j, e, -, hadvanced⟩ := step_advances hA hstep
    exact ih.step hadvanced

/-- An open flight of a key is the only one of that key without a reply. -/
theorem Live.unique (h : Live cfg) {r r' : R} (hr : cfg.shared.launched r)
    (hr' : cfg.shared.launched r') (hnone : cfg.shared.replies r = none)
    (hnone' : cfg.shared.replies r' = none) (hkey : (req r).key = (req r').key) : r = r' := by
  have hopen := (h.pending r hr).resolve_right (by rw [hnone]; exact Bool.false_ne_true)
  have hopen' := (h.pending r' hr').resolve_right (by rw [hnone']; exact Bool.false_ne_true)
  rw [hkey, hopen'] at hopen
  exact (Option.some.inj hopen).symm

/-! ### Slots -/

/-- The flight has got a slot and has not given it back. -/
def HoldsSlot (t : Trace (CacheSig R)) : Prop :=
  ⟨.acquire, .ok ()⟩ ∈ t ∧ ⟨.release, ()⟩ ∉ t

omit [DecidableEq R] in
/-- What does not take or give back a slot does not change who holds one. -/
theorem holdsSlot_snoc {t : Trace (CacheSig R)} (hacquire : e ≠ ⟨.acquire, .ok ()⟩)
    (hrelease : e ≠ ⟨.release, ()⟩) : HoldsSlot (t ++ [e]) ↔ HoldsSlot t := by
  simp [HoldsSlot, hacquire.symm, hrelease.symm]

/-- What an answer does to the slots. -/
theorem Answer.busy_cases {i : R ⊕ R} {s s' : Shared R} (h : Answer o i s e s') :
    (e = ⟨.acquire, .ok ()⟩ ∧ s.busy < o.pool ∧ s'.busy = s.busy + 1) ∨
      (e = ⟨.release, ()⟩ ∧ s'.busy = s.busy - 1) ∨
      (e ≠ ⟨.acquire, .ok ()⟩ ∧ e ≠ ⟨.release, ()⟩ ∧ s'.busy = s.busy) := by
  cases h with
  | acquire _ hfree => exact Or.inl ⟨rfl, hfree, rfl⟩
  | release => exact Or.inr (Or.inl ⟨rfl, rfl⟩)
  | _ => exact Or.inr (Or.inr ⟨by simp, by simp, rfl⟩)

/-- The pool counts the flights that hold a slot. -/
def Slots (cfg : Interaction.Config (Shared R) (cacheWorld o req).start) (holders : Finset R) :
    Prop :=
  (∀ r, r ∈ holders ↔ HoldsSlot (cfg.thread (.inr r)).trace) ∧
    cfg.shared.busy = holders.card ∧ holders.card ≤ o.pool

/-- Only flights take and give back slots. -/
theorem Advanced.slot (hstep : Advanced o req cfg cfg' j e)
    (h : e = ⟨.acquire, .ok ()⟩ ∨ e = ⟨.release, ()⟩) : ∃ r, j = .inr r := by
  rcases j with r | r
  · have hperforms : Asks o _ _ (cfg.thread (.inl r)).trace e.op := hstep.performs
    rcases h with rfl | rfl <;> exact hperforms.elim
  · exact ⟨r, rfl⟩

theorem Slots.step {holders : Finset R} (h : Slots cfg holders)
    (hstep : Advanced o req cfg cfg' j e) : ∃ holders', Slots cfg' holders' := by
  obtain ⟨hholders, hbusy, hle⟩ := h
  rcases hstep.answer.busy_cases with ⟨rfl, hfree, hbusy'⟩ | ⟨rfl, hbusy'⟩ | ⟨hne, hne', hbusy'⟩
  · obtain ⟨r, rfl⟩ := hstep.slot (Or.inl rfl)
    have hnil : (cfg.thread (.inr r)).trace = [] := hstep.performs
    have hnew : r ∉ holders := fun hr => by
      have hslot := (hholders r).mp hr
      rw [hnil] at hslot
      exact List.not_mem_nil hslot.1
    refine ⟨insert r holders, fun r' => ?_, ?_, ?_⟩
    · by_cases hr : r' = r
      · subst hr
        simp [HoldsSlot, hstep.trace, hnil]
      · rw [Finset.mem_insert, or_iff_right hr, hholders r',
          hstep.others _ fun h => hr (Sum.inr_injective h)]
    · rw [Finset.card_insert_of_notMem hnew, hbusy', hbusy]
    · rw [Finset.card_insert_of_notMem hnew]
      omega
  · obtain ⟨r, rfl⟩ := hstep.slot (Or.inr rfl)
    obtain ⟨scanned, htrace⟩ : FlightPerforms _ _ _ CacheOp.release := hstep.performs
    have hold : r ∈ holders := (hholders r).mpr (by simp [HoldsSlot, htrace])
    refine ⟨holders.erase r, fun r' => ?_, ?_, ?_⟩
    · by_cases hr : r' = r
      · subst hr
        simp [HoldsSlot, hstep.trace]
      · rw [Finset.mem_erase, and_iff_right hr, hholders r',
          hstep.others _ fun h => hr (Sum.inr_injective h)]
    · rw [Finset.card_erase_of_mem hold, hbusy', hbusy]
    · exact (Finset.card_le_card (Finset.erase_subset r holders)).trans hle
  · refine ⟨holders, fun r => (hholders r).trans ?_, hbusy'.trans hbusy, hle⟩
    by_cases hj : .inr r = j
    · subst hj
      rw [hstep.trace, holdsSlot_snoc hne hne']
    · rw [hstep.others _ hj]

theorem slots_reachable
    {A : R ⊕ R → Trace (CacheSig R) → Shared R → Event (CacheSig R) → Shared R → Prop}
    (hA : ∀ i past s e s', A i past s e s' → Answer o i s e s') {stored : String → Option Object}
    (h : (answeredBy o req A).Reachable (.initial stored) cfg) : ∃ holders, Slots cfg holders := by
  induction h with
  | refl => exact ⟨∅, fun r => by simp [HoldsSlot, Config.initial], rfl, Nat.zero_le _⟩
  | tail _ hstep ih =>
    obtain ⟨holders, hslots⟩ := ih
    obtain ⟨j, e, -, hadvanced⟩ := step_advances hA hstep
    exact hslots.step hadvanced

omit [DecidableEq R] in
/-- A flight that has closed holds no slot. -/
theorem Concluded.not_holdsSlot {ref : RepoRef} {commit : String} {past : Trace (CacheSig R)}
    {reply : Reply} (h : Concluded ref commit past reply) :
    ¬HoldsSlot (past ++ [⟨.finish reply, ()⟩]) := by
  rintro ⟨hacquire, hrelease⟩
  cases h with
  | waiting => simp at hacquire
  | failed => simp [scanTrace] at hrelease
  | scanned => simp [scanTrace] at hrelease

/-- **Bounded scans.** In every reachable configuration, whatever the store, the upstream and the
scanner have answered, the flights that hold a slot are counted by the pool and not more than its
size. Whatever is about to scan is one of them, with its own repository and commit, and no two of
them are for the same repository and commit. -/
theorem slots_bounded (o : Wired) (req : R → Request) (stored : String → Option Object)
    (cfg : Interaction.Config (Shared R) (cacheWorld o req).start)
    (h : (cacheWorld o req).Reachable (.initial stored) cfg) :
    ∃ holders : Finset R, cfg.shared.busy = holders.card ∧ holders.card ≤ o.pool ∧
      (∀ r, r ∈ holders ↔ HoldsSlot (cfg.thread (.inr r)).trace) ∧
      (∀ i ref commit k, (cfg.thread i).rest = .op (.scan ref commit) k →
        ∃ r ∈ holders, i = .inr r ∧ ref = (req r).ref ∧ commit = (req r).commit.sha) ∧
      ∀ r ∈ holders, ∀ r' ∈ holders, req r = req r' → r = r' := by
  have hlive := live_reachable (fun _ _ _ _ _ ha => ha) h
  have hflown := flown_reachable (fun _ _ _ _ _ ha => ha) h
  obtain ⟨holders, hholders, hbusy, hle⟩ := slots_reachable (fun _ _ _ _ _ ha => ha) h
  refine ⟨holders, hbusy, hle, hholders, fun i ref commit k hrest => ?_,
    fun r hr r' hr' hreq => ?_⟩
  · have hperforms := threadPerforms (cfg.thread i) hrest
    rcases i with r | r
    · exact hperforms.elim
    · obtain ⟨href, hcommit, htrace⟩ := hperforms
      exact ⟨r, (hholders r).mpr (by simp [HoldsSlot, htrace]), rfl, href, hcommit⟩
  · have hopen : ∀ r ∈ holders, cfg.shared.launched r ∧ cfg.shared.replies r = none := by
      intro r hr
      have hslot := (hholders r).mp hr
      refine ⟨hlive.begun r fun hnil => ?_, ?_⟩
      · rw [hnil] at hslot
        exact List.not_mem_nil hslot.1
      · by_contra hsome
        obtain ⟨reply, hreply⟩ := Option.ne_none_iff_exists'.mp hsome
        obtain ⟨past, htrace, hconcluded⟩ := hflown.replies r reply hreply
        rw [htrace] at hslot
        exact hconcluded.not_holdsSlot hslot
    exact hlive.unique (hopen r hr).1 (hopen r' hr').1 (hopen r hr).2 (hopen r' hr').2
      (congrArg Request.key hreq)

end World

/-- Two requests have launched a flight each, and the one of the commit has the only slot. -/
theorem sampleRequests_holdSlot : ∃ (cfg : Interaction.Config (Shared Bool)
      (cacheWorld (R := Bool) (sampleWired none) sampleRequests).start)
    (holders : Finset Bool), (∀ r, cfg.shared.launched r) ∧ false ∈ holders ∧ true ∉ holders ∧
      cfg.shared.busy = 1 ∧ cfg.shared.busy = holders.card ∧
      ∀ r ∈ holders, ∀ r' ∈ holders, sampleRequests r = sampleRequests r' → r = r' := by
  let o := sampleWired none
  let W := cacheWorld o sampleRequests
  have hkeys : (sampleRequests true).key ≠ (sampleRequests false).key := fun hkey =>
    absurd (congrArg Request.commit (Request.key_inj.mp hkey)) (by decide)
  obtain ⟨cfg₁, hsteps₁, hshared₁, -, -, hothers₁⟩ := exists_joined false false (A := W.answer)
    (.initial W.start (.initial fun _ => none)) rfl rfl (.readNone rfl) (.launch rfl)
  have hcalls : cfg₁.shared.calls (sampleRequests true).key = none := by
    rw [hshared₁]
    dsimp only
    rw [Function.update_of_ne hkeys]
    rfl
  have hbucket : cfg₁.shared.bucket (sampleRequests true).key = none := by rw [hshared₁]; rfl
  obtain ⟨cfg₂, hsteps₂, hshared₂, -, -, hothers₂⟩ := exists_joined true true (A := W.answer) cfg₁
    (hothers₁ (.inl true) (by decide)) rfl (.readNone hbucket) (.launch hcalls)
  have hflight : ∀ r, cfg₂.thread (.inr r) = .start _ := fun r =>
    (hothers₂ (.inr r) nofun).trans (hothers₁ (.inr r) nofun)
  have hlaunched : ∀ r, cfg₂.shared.launched r := by
    rintro (_ | _) <;> simp [hshared₂, hshared₁]
  have hbusy : cfg₂.shared.busy = 0 := by rw [hshared₂, hshared₁]; rfl
  -- the flight of the commit acquires the slot
  have hacquire : Exec (flight (R := Bool) sampleRef sampleCommit.sha) [⟨.acquire, .ok ()⟩] none :=
    .op _ (.cut _)
  obtain ⟨cfg₃, hsteps₃, hshared₃, htrace₃, -, hothers₃⟩ := World.exists_run (W := W) (c := cfg₂)
    (i := .inr false) hacquire
    (.cons (.acquire (hlaunched false) (by rw [hbusy]; exact o.pool_pos)) (.nil _ _))
    (by rw [hflight]; rfl) rfl rfl
  obtain ⟨holders, hcard, -, hholders, -, halone⟩ := slots_bounded o sampleRequests (fun _ => none)
    cfg₃ (hsteps₁.trans (hsteps₂.trans hsteps₃))
  refine ⟨cfg₃, holders, fun r => ?_, (hholders false).mpr ?_, fun htrue => ?_, ?_, hcard, halone⟩
  · rw [hshared₃]
    exact hlaunched r
  · rw [htrace₃, hflight]
    simp [HoldsSlot]
  · have hslot := (hholders true).mp htrue
    rw [hothers₃ (.inr true) (by decide), hflight] at hslot
    exact List.not_mem_nil hslot.1
  · rw [hshared₃]
    simp [hbusy]

end ScorecardInfra.Cache
