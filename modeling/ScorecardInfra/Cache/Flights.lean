import ScorecardInfra.Cache.WriteBack
import ScorecardInfra.Interaction.Interleaving

/-!
# Requests and flights in any order

Any number of requests run against one bucket, each with the flight that it may launch. A request
that joins a flight of the `singleflight` group finds the one that is open for its key, or launches
its own; a flight closes when its function returns. The clock, the flags, the upstream and the
scanner answer as they like, and every operation of the bucket may fail; a write that fails may have
stored its object.

## Main definitions

* `Request`, `Shared`, `Answer`, `cacheWorld`.

## Main results

* `allowed`, `answered`: what threads perform and return, in every configuration.
* `step_cases`, `Stepped.bucket`: what a step does.

Source: `internal/orchestrator/orchestrator.go`; `golang.org/x/sync/singleflight` coalesces equal
keys.
-/

namespace ScorecardInfra.Cache

open GoStd Interaction

/-- What `GetOrProduce` is called with. -/
structure Request where
  ref : RepoRef
  commit : Commit
  deriving DecidableEq

namespace Request

/-- The key of the request, as an object and as a flight. -/
def key (q : Request) : String := Cache.key q.ref q.commit.sha

theorem key_inj {q q' : Request} : q.key = q'.key ↔ q = q' := by
  rw [key, key, Cache.key_inj q.commit.valid_sha q'.commit.valid_sha]
  constructor
  · rintro ⟨href, hcommit⟩
    obtain ⟨ref, commit⟩ := q
    obtain ⟨ref', commit'⟩ := q'
    obtain rfl : ref = ref' := href
    obtain rfl : commit = commit' := Commit.ext hcommit
    rfl
  · rintro rfl
    exact ⟨rfl, rfl⟩

end Request

/-! ### The shared state -/

/-- The bucket, the open flights by key, the flights that were launched, the replies of those that
have closed, and the slots of the pool that are taken. -/
structure Shared (R : Type) where
  bucket : String → Option Object
  calls : String → Option R
  launched : R → Prop
  replies : R → Option Reply
  busy : Nat

/-- No flight has been launched. -/
def Shared.initial {R : Type} (bucket : String → Option Object) : Shared R where
  bucket := bucket
  calls _ := none
  launched _ := False
  replies _ := none
  busy := 0

section World

variable {R : Type} [DecidableEq R]

/-- Store an object. -/
def Shared.store (s : Shared R) (key : String) (object : Object) : Shared R :=
  { s with bucket := Function.update s.bucket key (some object) }

/-- `Answer o i s e s'`: the request or flight `i` may be answered `e` in the state `s`, which
becomes `s'`. -/
inductive Answer (o : Wired) : R ⊕ R → Shared R → Event (CacheSig R) → Shared R → Prop
  | read {i s key object} (h : s.bucket key = some object) :
      Answer o i s ⟨.readAll key, .ok object.body⟩ s
  | readNone {i s key} (h : s.bucket key = none) : Answer o i s ⟨.readAll key, .error .notFound⟩ s
  | readFailed {i s} (key message) : Answer o i s ⟨.readAll key, .error (.failed message)⟩ s
  | attributes {i s key object} (h : s.bucket key = some object) :
      Answer o i s ⟨.attributes key, .ok object.origin⟩ s
  | attributesFailed {i s} (key message) : Answer o i s ⟨.attributes key, .error message⟩ s
  | written {i s} (key object) : Answer o i s ⟨.writeAll key object, .ok ()⟩ (s.store key object)
  | writeFailed {i s} (key object message) : Answer o i s ⟨.writeAll key object, .error message⟩ s
  | writeUnconfirmed {i s} (key object message) :
      Answer o i s ⟨.writeAll key object, .error message⟩ (s.store key object)
  | now {i s} (t : Int) : Answer o i s ⟨.now, t⟩ s
  | boolFlag {i s} (key default) (v : Bool) : Answer o i s ⟨.boolFlag key default, v⟩ s
  | stringFlag {i s} (key default) (v : String) : Answer o i s ⟨.stringFlag key default, v⟩ s
  | get {i s} (url) (answer : HTTPAnswer × Int) : Answer o i s ⟨.get url, answer⟩ s
  | join {i s key ch} (h : s.calls key = some ch) : Answer o i s ⟨.doChan key, ch⟩ s
  | launch {r s key} (h : s.calls key = none) :
      Answer o (.inl r) s ⟨.doChan key, r⟩
        { s with
          calls := Function.update s.calls key (some r)
          launched := Function.update s.launched r True }
  | reply {i s ch reply} (h : s.replies ch = some reply) : Answer o i s ⟨.await ch, .result reply⟩ s
  | timeout {i s} (ch) : Answer o i s ⟨.await ch, .timeout⟩ s
  | cancelled {i s} (ch message) : Answer o i s ⟨.await ch, .cancelled message⟩ s
  | acquire {r s} (hlaunched : s.launched r) (hfree : s.busy < o.pool) :
      Answer o (.inr r) s ⟨.acquire, .ok ()⟩ { s with busy := s.busy + 1 }
  | acquireFailed {r s} (hlaunched : s.launched r) (message) :
      Answer o (.inr r) s ⟨.acquire, .error message⟩ s
  | release {i s} : Answer o i s ⟨.release, ()⟩ { s with busy := s.busy - 1 }
  | scan {i s} (ref commit) (scanned : Except ScanError ScanResult) :
      Answer o i s ⟨.scan ref commit, scanned⟩ s
  | finish {r s} (reply) :
      Answer o (.inr r) s ⟨.finish reply, ()⟩
        { s with
          calls := fun key => if s.calls key = some r then none else s.calls key
          replies := Function.update s.replies r (some reply) }

/-- An answer changes the bucket by a write of its own only. -/
theorem Answer.bucket_eq {o : Wired} {i : R ⊕ R} {s s' : Shared R} {e : Event (CacheSig R)}
    {k : String} (h : Answer o i s e s') : s'.bucket k = s.bucket k ∨
      ∃ x, e.op = .writeAll k x ∧ s'.bucket k = some x := by
  have hstore : ∀ key object, (s.store key object).bucket k = s.bucket k ∨
      ∃ x, (CacheOp.writeAll key object : CacheOp R) = .writeAll k x ∧
        (s.store key object).bucket k = some x := by
    intro key object
    by_cases hk : k = key
    · subst hk
      exact Or.inr ⟨object, rfl, Function.update_self ..⟩
    · exact Or.inl (Function.update_of_ne hk ..)
  cases h with
  | written key object => exact hstore key object
  | writeUnconfirmed key object message => exact hstore key object
  | _ => exact Or.inl rfl

/-- A write that succeeds stores the object. -/
theorem Answer.written_eq {o : Wired} {i : R ⊕ R} {s s' : Shared R} {k : String} {object : Object}
    (h : Answer o i s ⟨.writeAll k object, .ok ()⟩ s') : s'.bucket k = some object := by
  cases h with
  | written => exact Function.update_self ..

/-- A body that is read is that of the object. -/
theorem Answer.read_eq {o : Wired} {i : R ⊕ R} {s s' : Shared R} {k body : String}
    (h : Answer o i s ⟨.readAll k, .ok body⟩ s') : ∃ x, s.bucket k = some x ∧ x.body = body := by
  cases h with
  | read hx => exact ⟨_, hx, rfl⟩

/-- A tag that is read is that of the object. -/
theorem Answer.attributes_eq {o : Wired} {i : R ⊕ R} {s s' : Shared R} {k tag : String}
    (h : Answer o i s ⟨.attributes k, .ok tag⟩ s') : ∃ x, s.bucket k = some x ∧ x.origin = tag := by
  cases h with
  | attributes hx => exact ⟨_, hx, rfl⟩

/-- An open flight was open before, or is launched by its request. -/
theorem Answer.calls_eq {o : Wired} {i : R ⊕ R} {s s' : Shared R} {e : Event (CacheSig R)}
    {k : String} {ch : R} (h : Answer o i s e s') (hk : s'.calls k = some ch) :
    s.calls k = some ch ∨ (i = .inl ch ∧ e.op = .doChan k) := by
  cases h
  case launch r key hnone =>
    dsimp only at hk
    by_cases hkey : k = key
    · subst hkey
      rw [Function.update_self] at hk
      exact Or.inr ⟨by rw [Option.some.inj hk], rfl⟩
    · rw [Function.update_of_ne hkey] at hk
      exact Or.inl hk
  case finish r reply =>
    dsimp only at hk
    split_ifs at hk
    exact Or.inl hk
  all_goals exact Or.inl hk

/-- A flight's reply was there before, or the flight finishes with it. -/
theorem Answer.replies_eq {o : Wired} {i : R ⊕ R} {s s' : Shared R} {e : Event (CacheSig R)}
    {ch : R} {reply : Reply} (h : Answer o i s e s') (hr : s'.replies ch = some reply) :
    s.replies ch = some reply ∨ (i = .inr ch ∧ e.op = .finish reply) := by
  cases h
  case finish r reply' =>
    dsimp only at hr
    by_cases hch : ch = r
    · subst hch
      rw [Function.update_self] at hr
      exact Or.inr ⟨rfl, by rw [Option.some.inj hr]⟩
    · rw [Function.update_of_ne hch] at hr
      exact Or.inl hr
  all_goals exact Or.inl hr

/-- A flight was launched before, or is launched by its request where none is open. -/
theorem Answer.launched_eq {o : Wired} {i : R ⊕ R} {s s' : Shared R}
    {e : Event (CacheSig R)} {r : R}
    (h : Answer o i s e s') (hr : s'.launched r) : s.launched r ∨
      ∃ k, i = .inl r ∧ e.op = .doChan k ∧ s.calls k = none ∧ s'.calls k = some r := by
  cases h
  case launch r' key hnone =>
    by_cases hr' : r = r'
    · subst hr'
      exact Or.inr ⟨key, rfl, rfl, hnone, Function.update_self ..⟩
    · dsimp only at hr
      rw [Function.update_of_ne hr'] at hr
      exact Or.inl hr
  all_goals exact Or.inl hr

theorem Answer.launched_mono {o : Wired} {i : R ⊕ R} {s s' : Shared R}
    {e : Event (CacheSig R)} {r : R}
    (h : Answer o i s e s') (hr : s.launched r) : s'.launched r := by
  cases h
  case launch r' key hnone =>
    dsimp only
    by_cases hr' : r = r'
    · rw [hr', Function.update_self]
      trivial
    · rwa [Function.update_of_ne hr']
  all_goals exact hr

/-- A flight that is open stays open until it has a reply. -/
theorem Answer.pending {o : Wired} {i : R ⊕ R} {s s' : Shared R}
    {e : Event (CacheSig R)} {k : String}
    {r : R} (h : Answer o i s e s') (hr : s.calls k = some r ∨ (s.replies r).isSome) :
    s'.calls k = some r ∨ (s'.replies r).isSome := by
  cases h
  case launch r' key hnone =>
    refine hr.imp_left fun hk => ?_
    have hne : k ≠ key := by
      rintro rfl
      rw [hnone] at hk
      cases hk
    exact (Function.update_of_ne hne ..).trans hk
  case finish r' reply =>
    dsimp only
    by_cases hr' : r = r'
    · subst hr'
      exact Or.inr (by rw [Function.update_self]; rfl)
    · rw [Function.update_of_ne hr']
      refine hr.imp_left fun hk => ?_
      rw [if_neg, hk]
      rw [hk]
      exact fun h => hr' (Option.some.inj h)
  all_goals exact hr

/-- A flight that is joined is open, or is the request's own. -/
theorem Answer.doChan_cases {o : Wired} {i : R ⊕ R} {s s' : Shared R} {k : String} {ch : R}
    (h : Answer o i s ⟨.doChan k, ch⟩ s') : s.calls k = some ch ∨ i = .inl ch := by
  cases h with
  | join hk => exact Or.inl hk
  | launch hk => exact Or.inr rfl

/-- A result that is waited for is the flight's reply. -/
theorem Answer.await_eq {o : Wired} {i : R ⊕ R} {s s' : Shared R} {ch : R} {reply : Reply}
    (h : Answer o i s ⟨.await ch, .result reply⟩ s') : s.replies ch = some reply := by
  cases h with
  | reply hr => exact hr

/-- The requests `req` with their flights: `.inl r` is the request `r`, `.inr r` is its flight. -/
def cacheWorld (o : Wired) (req : R → Request) : World (CacheSig R) (R ⊕ R) (Shared R) Reply where
  start
    | .inl r => o.getOrProduce (req r).ref (req r).commit.sha
    | .inr r => flight (req r).ref (req r).commit.sha
  answer i _ := Answer o i
  restarts _ := False
  surroundings _ _ := False

/-- The requests and their flights under stricter answers. -/
abbrev answeredBy (o : Wired) (req : R → Request)
    (A : R ⊕ R → Trace (CacheSig R) → Shared R → Event (CacheSig R) → Shared R → Prop) :
    World (CacheSig R) (R ⊕ R) (Shared R) Reply :=
  { cacheWorld o req with answer := A }

/-- The request of a thread. -/
def owner : R ⊕ R → R := Sum.elim id id

variable {o : Wired} {req : R → Request}

/-- **Operations.** A thread performs operations of its request only. -/
theorem allowed {i : R ⊕ R} (th : Thread ((cacheWorld o req).start i)) {op : CacheOp R}
    {k : op.Ans → CacheProg R Reply} (h : th.rest = .op op k) :
    Allows o.fallback (req (owner i)).ref (req (owner i)).commit.sha th.trace op := by
  rcases i with r | r
  · have hallows := th.allows (S := CacheSig R) (safe_getOrProduce (R := R)) h
    rwa [Monitor.after_history] at hallows
  · have hallows := th.allows (S := CacheSig R) (safe_flight (R := R) o.fallback) h
    rwa [Monitor.after_history] at hallows

/-- **Replies.** What holds of a request that has returned. -/
theorem answered {r : R} {th : Thread ((cacheWorld o req).start (.inl r))} {reply : Reply}
    (h : th.Returned reply) :
    Answered o.fallback (req r).ref (req r).commit.sha reply th.trace := by
  have hpost := h.post (S := CacheSig R) (safe_getOrProduce (R := R))
  rwa [Monitor.after_history] at hpost

/-! ### Steps -/

variable {P : R ⊕ R → Event (CacheSig R) → Prop}
  {cfg cfg' : Interaction.Config (Shared R) (cacheWorld o req).start}

/-- What a step does: one thread performs an allowed operation, and is answered. -/
structure Stepped (o : Wired) (req : R → Request) (P : R ⊕ R → Event (CacheSig R) → Prop)
    (cfg cfg' : Interaction.Config (Shared R) (cacheWorld o req).start) (j : R ⊕ R)
    (e : Event (CacheSig R)) : Prop where
  answer : Answer o j cfg.shared e cfg'.shared
  constrained : P j e
  allows : Allows o.fallback (req (owner j)).ref (req (owner j)).commit.sha
    (cfg.thread j).trace e.op
  trace : (cfg'.thread j).trace = (cfg.thread j).trace ++ [e]
  others : ∀ i, i ≠ j → cfg'.thread i = cfg.thread i

theorem step_cases (h : ((cacheWorld o req).constrain P).Step cfg cfg') :
    ∃ j e, Stepped o req P cfg cfg' j e := by
  obtain ⟨j, hrest, x, s', ha⟩ | ⟨j, ⟨⟩⟩ | ⟨s', ⟨⟩⟩ := h
  refine ⟨j, ⟨_, x⟩, ha.2, ha.1, allowed (cfg.thread j) hrest, by simp, fun i hij => ?_⟩
  exact Function.update_of_ne hij _ _

namespace Stepped

variable {j : R ⊕ R} {e : Event (CacheSig R)}

/-- Traces grow. -/
theorem trace_extends (h : Stepped o req P cfg cfg' j e) (i : R ⊕ R) :
    (cfg.thread i).trace <+: (cfg'.thread i).trace := by
  by_cases hij : i = j
  · subst hij
    rw [h.trace]
    exact List.prefix_append _ _
  · simp only [h.others i hij, List.prefix_rfl]

theorem mem_trace (h : Stepped o req P cfg cfg' j e) {i : R ⊕ R} {e' : Event (CacheSig R)}
    (he' : e' ∈ (cfg'.thread i).trace) : e' ∈ (cfg.thread i).trace ∨ (i = j ∧ e' = e) := by
  by_cases hij : i = j
  · subst hij
    rw [h.trace, List.mem_append, List.mem_singleton] at he'
    exact he'.imp_right fun he' => ⟨rfl, he'⟩
  · rw [h.others i hij] at he'
    exact Or.inl he'

/-- **The bucket** is changed only by a write of an object that an earlier answer supplied. -/
theorem bucket (h : Stepped o req P cfg cfg' j e) {k : String} {object : Object}
    (hk : cfg'.shared.bucket k = some object) : cfg.shared.bucket k = some object ∨
      ∃ e' ∈ (cfg.thread j).trace, ∃ c, k = key (req (owner j)).ref c ∧
        (c, object) ∈ supplied o.fallback (req (owner j)).ref (req (owner j)).commit.sha e' := by
  rcases h.answer.bucket_eq (k := k) with hsame | ⟨x, hop, hx⟩
  · exact Or.inl (hsame ▸ hk)
  · obtain rfl : x = object := Option.some.inj (hx.symm.trans hk)
    have hallows := h.allows
    rw [hop] at hallows
    obtain ⟨e', he', c, hsupplied, hkey⟩ := hallows
    exact Or.inr ⟨e', he', c, hkey, hsupplied⟩

/-- Objects are never deleted. -/
theorem exists_bucket (h : Stepped o req P cfg cfg' j e) {k : String} {object : Object}
    (hk : cfg.shared.bucket k = some object) : ∃ object', cfg'.shared.bucket k = some object' := by
  rcases h.answer.bucket_eq (k := k) with hsame | ⟨x, -, hx⟩
  exacts [⟨object, hsame.trans hk⟩, ⟨x, hx⟩]

/-- A body that is read is that of the object. -/
theorem read (h : Stepped o req P cfg cfg' j e) {i : R ⊕ R} {k body : String}
    (hread : ⟨.readAll k, .ok body⟩ ∈ (cfg'.thread i).trace) :
    ⟨.readAll k, .ok body⟩ ∈ (cfg.thread i).trace ∨
      ∃ object, cfg.shared.bucket k = some object ∧ object.body = body := by
  refine (h.mem_trace hread).imp_right ?_
  rintro ⟨-, rfl⟩
  exact h.answer.read_eq

end Stepped

end World

end ScorecardInfra.Cache
