import Mathlib.Data.Finite.Sum
import ScorecardInfra.Cache.Slots
import ScorecardInfra.Interaction.Progress

/-!
# Requests and flights come to an end

Suppose that no request gives up: none times out or is cancelled, and no flight gives up waiting for
a slot. Then finitely many requests still all return, in every order of the steps. No run is
infinite, and in a configuration where nothing can happen any more every request has its reply,
every flight that was launched has handed over its own, no flight is open and every slot has been
given back (`requests_complete`). So a request is never left waiting for a flight that has closed,
and neither a failed scan nor a failed write leaks a slot or wedges a key.

## Main definitions

* `Patient`, `Quiescent`.

## Main results

* `exists_answer`, `requests_complete`.

Sources: `internal/orchestrator/orchestrator.go`, lines 316–376; `internal/scan/pool.go`.
-/

namespace ScorecardInfra.Cache

open GoStd Interaction

variable {R : Type} [DecidableEq R]

omit [DecidableEq R] in
/-- Nobody gives up. -/
def Patient (_ : R ⊕ R) : Event (CacheSig R) → Prop
  | ⟨.await _, .timeout⟩ => False
  | ⟨.await _, .cancelled _⟩ => False
  | ⟨.acquire, .error _⟩ => False
  | _ => True

variable {o : Wired} {req : R → Request}
  {cfg : Interaction.Config (Shared R) (cacheWorld o req).start}

/-- All requests have returned, and so have all flights that were launched; none is open, and all
slots are free. -/
structure Quiescent (cfg : Interaction.Config (Shared R) (cacheWorld o req).start) : Prop where
  requests : ∀ r, ∃ reply, (cfg.thread (.inl r)).Returned reply
  flights : ∀ r, cfg.shared.launched r →
    ∃ reply, (cfg.thread (.inr r)).Returned reply ∧ cfg.shared.replies r = some reply
  calls : ∀ k, cfg.shared.calls k = none
  busy : cfg.shared.busy = 0

/-- **What is not waited for** can be answered: only a flight that has not replied is waited for,
and a slot where all are taken. -/
theorem exists_answer {i : R ⊕ R} {past : Trace (CacheSig R)} {op : CacheOp R} {s : Shared R}
    (h : ThreadPerforms o req i past op) (hawait : ∀ ch, op = .await ch → (s.replies ch).isSome)
    (hacquire : ∀ r, i = .inr r → op = .acquire → s.launched r ∧ s.busy < o.pool) :
    ∃ x s', Patient i ⟨op, x⟩ ∧ Answer o i s ⟨op, x⟩ s' := by
  cases op with
  | readAll k =>
    cases hk : s.bucket k with
    | none => exact ⟨_, s, trivial, .readNone hk⟩
    | some object => exact ⟨_, s, trivial, .read hk⟩
  | attributes k => exact ⟨_, s, trivial, .attributesFailed k ""⟩
  | writeAll k object => exact ⟨_, _, trivial, .written k object⟩
  | now => exact ⟨_, s, trivial, .now 0⟩
  | boolFlag k default => exact ⟨_, s, trivial, .boolFlag k default default⟩
  | stringFlag k default => exact ⟨_, s, trivial, .stringFlag k default default⟩
  | get url => exact ⟨_, s, trivial, .get url (.failed "", 0)⟩
  | doChan k =>
    rcases i with r | r
    · cases hk : s.calls k with
      | none => exact ⟨_, _, trivial, .launch hk⟩
      | some ch => exact ⟨_, s, trivial, .join hk⟩
    · exact h.elim
  | await ch =>
    obtain ⟨reply, hreply⟩ := Option.isSome_iff_exists.mp (hawait ch rfl)
    exact ⟨.result reply, s, trivial, .reply hreply⟩
  | acquire =>
    rcases i with r | r
    · exact h.elim
    · obtain ⟨hlaunched, hfree⟩ := hacquire r rfl rfl
      exact ⟨.ok (), _, trivial, .acquire hlaunched hfree⟩
  | release => exact ⟨_, _, trivial, .release⟩
  | scan ref commit => exact ⟨_, s, trivial, .scan ref commit (.error .skipped)⟩
  | finish reply =>
    rcases i with r | r
    · exact h.elim
    · exact ⟨_, _, trivial, .finish reply⟩

/-- The runs in which nobody gives up. -/
abbrev patientWorld (o : Wired) (req : R → Request) :
    World (CacheSig R) (R ⊕ R) (Shared R) Reply :=
  (cacheWorld o req).constrain Patient

/-- A thread of a configuration that cannot go on has returned, or waits for a flight that has not
replied, or for a slot. -/
theorem blocked (hstuck : ∀ cfg', ¬(patientWorld o req).Step cfg cfg') (i : R ⊕ R) :
    (∃ reply, (cfg.thread i).Returned reply) ∨
      ∃ op k, (cfg.thread i).rest = .op op k ∧ ThreadPerforms o req i (cfg.thread i).trace op ∧
        ((∃ ch, op = .await ch ∧ cfg.shared.replies ch = none) ∨
          ∃ r, i = .inr r ∧ op = .acquire ∧
            (cfg.shared.launched r → o.pool ≤ cfg.shared.busy)) := by
  rcases hrest : (cfg.thread i).rest with reply | ⟨op, k⟩
  · exact Or.inl ⟨reply, hrest⟩
  have hperforms := threadPerforms (cfg.thread i) hrest
  refine Or.inr ⟨op, k, rfl, hperforms, ?_⟩
  by_contra hfree
  rw [not_or] at hfree
  obtain ⟨x, s', hpatient, hanswer⟩ := exists_answer (s := cfg.shared) hperforms
    (fun ch hop => Option.isSome_iff_ne_none.mpr fun hnone => hfree.1 ⟨ch, hop, hnone⟩)
    (fun r hi hop => by
      by_contra hwait
      rw [not_and, not_lt] at hwait
      exact hfree.2 ⟨r, hi, hop, hwait⟩)
  exact hstuck _ (World.Step.perform (W := patientWorld o req) i hrest x s' ⟨hpatient, hanswer⟩)

/-- A flight that has returned has replied, and holds no slot. -/
theorem Live.returned (h : Live cfg) {r : R} {reply : Reply}
    (hreturned : (cfg.thread (.inr r)).Returned reply) :
    cfg.shared.replies r = some reply ∧ ¬HoldsSlot (cfg.thread (.inr r)).trace := by
  have hpost := hreturned.post (S := CacheSig R) (performs_flight (R := R))
  rw [Monitor.after_history] at hpost
  obtain ⟨past, htrace, hconcluded⟩ := hpost
  rw [List.nil_append] at htrace
  refine ⟨h.finished r reply (by simp [htrace]), ?_⟩
  rw [htrace]
  exact hconcluded.not_holdsSlot

/-- **Nothing is stuck**: a configuration that cannot go on is quiescent. -/
theorem quiescent_of_stuck {stored : String → Option Object}
    (h : (patientWorld o req).Reachable (.initial stored) cfg)
    (hstuck : ∀ cfg', ¬(patientWorld o req).Step cfg cfg') : Quiescent cfg := by
  have hlive := live_reachable (fun _ _ _ _ _ ha => ha.2) h
  obtain ⟨holders, hholders, hbusy, hle⟩ := slots_reachable (fun _ _ _ _ _ ha => ha.2) h
  have hbegun : ∀ r, HoldsSlot (cfg.thread (.inr r)).trace →
      (cfg.thread (.inr r)).trace ≠ [] := by
    intro r hslot hnil
    rw [hnil] at hslot
    exact List.not_mem_nil hslot.1
  -- a flight that holds a slot scans, or gives it back
  have hfree : holders = ∅ := by
    refine Finset.eq_empty_of_forall_notMem fun r hr => ?_
    have hslot := (hholders r).mp hr
    rcases blocked hstuck (.inr r) with ⟨reply, hreturned⟩ | ⟨op, k, -, hperforms, hwaits⟩
    · exact (hlive.returned hreturned).2 hslot
    · rcases hwaits with ⟨ch, rfl, -⟩ | ⟨r, -, rfl, -⟩
      · exact hperforms
      · exact hbegun _ hslot hperforms
  have hflights : ∀ r, cfg.shared.launched r →
      ∃ reply, (cfg.thread (.inr r)).Returned reply ∧ cfg.shared.replies r = some reply := by
    intro r hlaunched
    rcases blocked hstuck (.inr r) with ⟨reply, hreturned⟩ | ⟨op, k, -, hperforms, hwaits⟩
    · exact ⟨reply, hreturned, (hlive.returned hreturned).1⟩
    · rcases hwaits with ⟨ch, rfl, -⟩ | ⟨r', hr', -, hfull⟩
      · exact hperforms.elim
      · obtain rfl := Sum.inr_injective hr'
        have hpos := o.pool_pos
        have hpool := hfull hlaunched
        rw [hbusy, hfree, Finset.card_empty] at hpool
        omega
  refine ⟨fun r => ?_, hflights, fun k => ?_, by rw [hbusy, hfree, Finset.card_empty]⟩
  · rcases blocked hstuck (.inl r) with hreturned | ⟨op, k, -, hperforms, hwaits⟩
    · exact hreturned
    · rcases hwaits with ⟨ch, rfl, hnone⟩ | ⟨r', hr', -⟩
      · obtain ⟨reply, -, hreply⟩ := hflights ch (hlive.joined _ _ ch hperforms)
        rw [hnone] at hreply
        cases hreply
      · cases hr'
  · by_contra hopen
    obtain ⟨ch, hch⟩ := Option.ne_none_iff_exists'.mp hopen
    obtain ⟨hlaunched, hnone⟩ := hlive.calls k ch hch
    obtain ⟨reply, -, hreply⟩ := hflights ch hlaunched
    rw [hnone] at hreply
    cases hreply

/-- **Every request is answered.** Let finitely many requests run, of which none gives up. Whatever
else happens, and in every order, no run is infinite, and where a run ends all requests and all
flights that were launched have returned, no flight is open and all slots are free. -/
theorem requests_complete [Finite R] (o : Wired) (req : R → Request)
    (stored : String → Option Object) :
    EndsIn (patientWorld o req).Step Quiescent (.initial _ (.initial stored)) :=
  World.endsIn (fun _ => id) (fun _ _ => id) fun _ h hstuck => quiescent_of_stuck h hstuck

/-- Two requests for the same result. -/
theorem two_requests_complete :
    EndsIn (patientWorld (sampleWired none) fun _ : Bool => sampleRequest).Step Quiescent
      (.initial _ (.initial fun _ => none)) :=
  requests_complete (sampleWired none) (fun _ => sampleRequest) fun _ => none

end ScorecardInfra.Cache
