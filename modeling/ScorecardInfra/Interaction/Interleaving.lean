import Mathlib.Logic.Function.Basic
import Mathlib.Logic.Relation
import ScorecardInfra.Interaction.Monitor

/-!
# Interleaved programs over a shared state

Any number of threads run programs over one signature. Which answers a thread may get, and what its
operations do to the shared state, is a relation (`World`). A step of a configuration performs one
operation of one thread, lets a thread crash and start again, or lets the surroundings change the
shared state; steps of different threads come in any order.

A thread records its trace with what is left of its program, and a proof that they belong together,
so a property of the program's runs holds of every thread of every configuration (`Thread.safe`).
What holds of reachable configurations is proved by `World.Reachable.induct`. Where a thread's
answers depend on its own trace only, so does the whole thread (`World.Reachable.follows`).

## Main definitions

* `Thread`, `World`, `Config`, `World.Step`, `World.Reachable`, `World.restrict`, `World.constrain`,
  `World.observe`, `World.Answers`, `Config.perform`.

## Main results

* `Thread.safe`, `World.Reachable.induct`, `World.Reachable.follows`, `World.exists_observe`,
  `World.Reachable.of_observe`, `World.exists_run`, `World.exists_answered`,
  `World.steps_schedule`.
-/

namespace ScorecardInfra.Interaction

variable {S : Signature} {ι σ α γ : Type}

/-! ### Threads -/

/-- A thread that runs `p`: what it has performed, and what is left. -/
structure Thread (p : Prog S α) where
  trace : Trace S
  rest : Prog S α
  leads : Leads p trace rest

namespace Thread

variable {p : Prog S α}

/-- A thread that has not performed anything. -/
def start (p : Prog S α) : Thread p := ⟨[], p, .start⟩

/-- The thread after its next operation. -/
def advance (th : Thread p) {o : S.Op} {k : S.Ans o → Prog S α} (h : th.rest = .op o k)
    (x : S.Ans o) : Thread p :=
  ⟨th.trace ++ [⟨o, x⟩], k x, .snoc (h ▸ th.leads) x⟩

@[simp] theorem start_trace : (start p).trace = [] := rfl

@[simp] theorem start_rest : (start p).rest = p := rfl

@[simp] theorem advance_trace (th : Thread p) {o : S.Op} {k : S.Ans o → Prog S α}
    (h : th.rest = .op o k) (x : S.Ans o) : (th.advance h x).trace = th.trace ++ [⟨o, x⟩] := rfl

@[simp] theorem advance_rest (th : Thread p) {o : S.Op} {k : S.Ans o → Prog S α}
    (h : th.rest = .op o k) (x : S.Ans o) : (th.advance h x).rest = k x := rfl

/-- The thread has returned `a`. -/
def Returned (th : Thread p) (a : α) : Prop := th.rest = .ret a

theorem safe {M : Monitor S γ} {Post : α → γ → Prop} {g : γ} (th : Thread p)
    (hp : p.Safe M Post g) : th.rest.Safe M Post (M.after g th.trace) :=
  th.leads.safe hp

/-- The next operation of a safe thread is allowed. -/
theorem allows {M : Monitor S γ} {Post : α → γ → Prop} {g : γ} (th : Thread p) {o : S.Op}
    {k : S.Ans o → Prog S α} (hp : p.Safe M Post g) (h : th.rest = .op o k) :
    M.allows (M.after g th.trace) o := by
  have hsafe := th.safe hp
  rw [h] at hsafe
  exact hsafe.1

/-- A safe thread that has returned satisfies the postcondition. -/
theorem Returned.post {M : Monitor S γ} {Post : α → γ → Prop} {g : γ} {th : Thread p} {a : α}
    (h : th.Returned a) (hp : p.Safe M Post g) : Post a (M.after g th.trace) := by
  have hsafe := th.safe hp
  rw [show th.rest = .ret a from h] at hsafe
  exact hsafe

end Thread

/-! ### Worlds -/

/-- Threads with identifiers in `ι` and programs `start`, over a shared state. `answer i past s e
s'`: the thread `i`, having performed `past`, may be answered `e` in the state `s`, which becomes
`s'`. -/
structure World (S : Signature) (ι σ α : Type) where
  start : ι → Prog S α
  answer : ι → Trace S → σ → Event S → σ → Prop
  /-- The threads that may crash and start again. -/
  restarts : ι → Prop
  /-- What the surroundings may do to the shared state. -/
  surroundings : σ → σ → Prop

/-- A shared state with a thread for each of the programs. -/
structure Config (σ : Type) (start : ι → Prog S α) where
  shared : σ
  thread : (i : ι) → Thread (start i)

/-- No thread has performed anything. -/
def Config.initial (start : ι → Prog S α) (s : σ) : Config σ start := ⟨s, fun i => .start (start i)⟩

namespace World

variable [DecidableEq ι] (W : World S ι σ α)

/-- One step. -/
inductive Step : Config σ W.start → Config σ W.start → Prop
  | perform {c : Config σ W.start} (i : ι) {o : S.Op} {k : S.Ans o → Prog S α}
      (h : (c.thread i).rest = .op o k) (x : S.Ans o) (s' : σ)
      (ha : W.answer i (c.thread i).trace c.shared ⟨o, x⟩ s') :
      Step c ⟨s', Function.update c.thread i ((c.thread i).advance h x)⟩
  | restart {c : Config σ W.start} (i : ι) (h : W.restarts i) :
      Step c ⟨c.shared, Function.update c.thread i (.start (W.start i))⟩
  | surroundings {c : Config σ W.start} (s' : σ) (h : W.surroundings c.shared s') :
      Step c ⟨s', c.thread⟩

/-- The configurations that some order of steps leads to from the shared state `s₀`. -/
def Reachable (s₀ : σ) : Config σ W.start → Prop :=
  Relation.ReflTransGen W.Step (.initial W.start s₀)

theorem reachable_initial (s₀ : σ) : W.Reachable s₀ (.initial W.start s₀) := .refl

variable {W}

/-- **Invariants.** What holds at first and is kept by every step holds of every reachable
configuration. -/
theorem Reachable.induct {s₀ : σ} {I : Config σ W.start → Prop}
    (hinit : I (.initial W.start s₀)) (hstep : ∀ c c', I c → W.Step c c' → I c')
    {c : Config σ W.start} (h : W.Reachable s₀ c) : I c := by
  induction h with
  | refl => exact hinit
  | tail _ hs ih => exact hstep _ _ ih hs

/-- Without restarts, traces grow. -/
theorem Step.trace_prefix {c c' : Config σ W.start} (h : W.Step c c')
    (hrestarts : ∀ i, ¬W.restarts i) (i : ι) : (c.thread i).trace <+: (c'.thread i).trace := by
  obtain ⟨j, hrest, x, s', -⟩ | ⟨j, hj⟩ | ⟨s', -⟩ := h
  · by_cases hij : i = j
    · subst hij
      simp
    · simp [hij]
  · exact absurd hj (hrestarts j)
  · exact List.prefix_rfl

/-- The runs of `W` in which every operation meets a condition before it is performed. -/
def restrict (W : World S ι σ α) (C : ι → Trace S → σ → S.Op → Prop) : World S ι σ α :=
  { W with answer := fun i past s e s' => C i past s e.op ∧ W.answer i past s e s' }

/-- The runs of `W` whose answers satisfy `P`. -/
def constrain (W : World S ι σ α) (P : ι → Event S → Prop) : World S ι σ α :=
  { W with answer := fun i past s e s' => P i e ∧ W.answer i past s e s' }

/-- What holds of every answer holds of the events of every thread. -/
theorem Reachable.mem_trace {P : ι → Event S → Prop} {s₀ : σ} {c : Config σ W.start}
    (h : W.Reachable s₀ c) (hP : ∀ i past s e s', W.answer i past s e s' → P i e) (i : ι) :
    ∀ e ∈ (c.thread i).trace, P i e := by
  refine h.induct (I := fun c => ∀ i, ∀ e ∈ (c.thread i).trace, P i e) ?_ ?_ i
  · exact fun _ _ he => absurd he List.not_mem_nil
  · rintro c c' ih (⟨j, hrest, x, s', ha⟩ | ⟨j, -⟩ | ⟨s', -⟩) i e he
    · by_cases hij : i = j
      · subst hij
        simp only [Function.update_self, Thread.advance_trace, List.mem_append,
          List.mem_singleton] at he
        rcases he with he | rfl
        exacts [ih i e he, hP _ _ _ _ _ ha]
      · exact ih i e (by simpa [hij] using he)
    · by_cases hij : i = j
      · subst hij
        simp at he
      · exact ih i e (by simpa [hij] using he)
    · exact ih i e he

/-- **Determined answers.** If every answer is a function of the thread and of what it has
performed, then every thread is on its run against that environment. -/
theorem Reachable.follows {s₀ : σ} {c : Config σ W.start} (h : W.Reachable s₀ c)
    {f : ι → Trace S → (o : S.Op) → Option (S.Ans o)}
    (hf : ∀ i past s e s', W.answer i past s e s' → f i past e.op = some e.ans) (i : ι) :
    Follows (f i) (c.thread i).trace := by
  refine h.induct (I := fun c => ∀ i, Follows (f i) (c.thread i).trace) (fun _ => .nil) ?_ i
  rintro c c' ih (⟨j, hrest, x, s', ha⟩ | ⟨j, -⟩ | ⟨s', -⟩) i
  · by_cases hij : i = j
    · subst hij
      simpa using (ih i).snoc (hf _ _ _ _ _ ha)
    · simpa [hij] using ih i
  · by_cases hij : i = j
    · subst hij
      simpa using Follows.nil
    · simpa [hij] using ih i
  · exact ih i

end World

/-! ### Auxiliary variables -/

namespace World

/-- The world with an auxiliary variable, which every answer updates by `f` and on which nothing
depends. -/
def observe (W : World S ι σ α) (f : ι → σ → Event S → σ → γ → γ) : World S ι (σ × γ) α where
  start := W.start
  answer i past s e s' := W.answer i past s.1 e s'.1 ∧ s'.2 = f i s.1 e s'.1 s.2
  restarts := W.restarts
  surroundings s s' := W.surroundings s.1 s'.1 ∧ s'.2 = s.2

variable [DecidableEq ι] {W : World S ι σ α}

/-- An auxiliary variable restricts nothing. -/
theorem exists_observe {c c' : Config σ W.start} (h : Relation.ReflTransGen W.Step c c')
    (f : ι → σ → Event S → σ → γ → γ) (g₀ : γ) :
    ∃ g, Relation.ReflTransGen (W.observe f).Step ⟨(c.shared, g₀), c.thread⟩
      ⟨(c'.shared, g), c'.thread⟩ := by
  induction h with
  | refl => exact ⟨g₀, .refl⟩
  | @tail c' _ _ hstep ih =>
    obtain ⟨g, hg⟩ := ih
    rcases hstep with @⟨i, o, k, hrest, x, s', ha⟩ | ⟨i, hi⟩ | ⟨s', hs⟩
    · exact ⟨f i c'.shared ⟨o, x⟩ s' g,
        hg.tail (Step.perform (W := W.observe f) i hrest x (s', _) ⟨ha, rfl⟩)⟩
    · exact ⟨g, hg.tail (Step.restart (W := W.observe f) i hi)⟩
    · exact ⟨g, hg.tail (Step.surroundings (W := W.observe f) (s', g) ⟨hs, rfl⟩)⟩

/-- What is reached with the auxiliary variable is reached without it. -/
theorem Reachable.of_observe {f : ι → σ → Event S → σ → γ → γ} {s₀ : σ} {g₀ : γ}
    {c : Config (σ × γ) (W.observe f).start} (h : (W.observe f).Reachable (s₀, g₀) c) :
    W.Reachable s₀ ⟨c.shared.1, c.thread⟩ := by
  induction h with
  | refl => exact .refl
  | tail _ hstep ih =>
    rcases hstep with @⟨i, o, k, hrest, x, s', ha, -⟩ | ⟨i, hi⟩ | ⟨s', hs, -⟩
    · exact ih.tail (Step.perform (W := W) i hrest x s'.1 ha)
    · exact ih.tail (Step.restart (W := W) i hi)
    · exact ih.tail (Step.surroundings (W := W) s'.1 hs)

end World

/-! ### One thread at a time -/

namespace World

/-- The thread `i`, having performed `past`, may perform `t` without the others, from the state `s`
to the state `s'`. -/
inductive Answers (W : World S ι σ α) (i : ι) : Trace S → σ → Trace S → σ → Prop
  | nil (past : Trace S) (s : σ) : Answers W i past s [] s
  | cons {past : Trace S} {s s₁ s' : σ} {e : Event S} {t : Trace S} (he : W.answer i past s e s₁)
      (ht : Answers W i (past ++ [e]) s₁ t s') : Answers W i past s (e :: t) s'

variable [DecidableEq ι] {W : World S ι σ α}

/-- **One thread runs alone** for a while. -/
theorem exists_run {c : Config σ W.start} {i : ι} {p : Prog S α} {past t : Trace S} {r : Option α}
    {s s' : σ} (hexec : Exec p t r) (hanswers : W.Answers i past s t s')
    (hrest : (c.thread i).rest = p) (hpast : (c.thread i).trace = past) (hs : c.shared = s) :
    ∃ c', Relation.ReflTransGen W.Step c c' ∧ c'.shared = s' ∧ (c'.thread i).trace = past ++ t ∧
      (∀ a, r = some a → (c'.thread i).Returned a) ∧ ∀ j, j ≠ i → c'.thread j = c.thread j := by
  induction hanswers generalizing c p with
  | nil past s =>
    refine ⟨c, .refl, hs, by rw [hpast, List.append_nil], ?_, fun _ _ => rfl⟩
    rintro a rfl
    cases hexec
    exact hrest
  | @cons past s s₁ s' e t he ht ih =>
    cases hexec with
    | @op o k x _ _ hk =>
      let c₁ : Config σ W.start := ⟨s₁, Function.update c.thread i ((c.thread i).advance hrest x)⟩
      have hstep : W.Step c c₁ := .perform i hrest x s₁ (by rwa [hpast, hs])
      obtain ⟨c', hsteps, hshared, htrace, hreturned, hothers⟩ := ih (c := c₁) hk (by simp [c₁])
        (by simp [c₁, hpast]) rfl
      refine ⟨c', .head hstep hsteps, hshared, by simp [htrace], hreturned, fun j hj => ?_⟩
      rw [hothers j hj]
      exact Function.update_of_ne hj _ _

end World

/-! ### When an answer is given -/

namespace World

variable [DecidableEq ι] {W : World S ι σ α}

/-- **Answers are given at one moment.** What a thread performs between two configurations is
answered in a configuration between them. -/
theorem exists_answered {c₁ c₂ : Config σ W.start} (h : Relation.ReflTransGen W.Step c₁ c₂) {i : ι}
    (hi : ¬W.restarts i) {pre post : Trace S} {e : Event S}
    (htrace : (c₂.thread i).trace = (c₁.thread i).trace ++ pre ++ e :: post) :
    ∃ d d', Relation.ReflTransGen W.Step c₁ d ∧ (d.thread i).trace = (c₁.thread i).trace ++ pre ∧
      W.answer i (d.thread i).trace d.shared e d'.shared ∧ W.Step d d' ∧
      (d'.thread i).trace = (c₁.thread i).trace ++ pre ++ [e] ∧
      Relation.ReflTransGen W.Step d' c₂ := by
  induction h generalizing post with
  | refl =>
    have hlen := congrArg List.length htrace
    simp only [List.length_append, List.length_cons] at hlen
    omega
  | @tail c c' hsteps hstep ih =>
    by_cases hsame : (c'.thread i).trace = (c.thread i).trace
    · obtain ⟨d, d', hd, hpre, ha, hdd', hpost, hd'⟩ := ih (hsame ▸ htrace)
      exact ⟨d, d', hd, hpre, ha, hdd', hpost, hd'.tail hstep⟩
    · cases hstep with
      | @perform j o k hrest x s' ha =>
        obtain rfl : i = j := by
          by_contra hij
          exact hsame (by simp [hij])
        simp only [Function.update_self, Thread.advance_trace] at htrace
        rcases List.eq_nil_or_concat post with rfl | ⟨post', e', rfl⟩
        · obtain ⟨hpre, he⟩ := List.append_inj' htrace rfl
          obtain rfl := (List.cons_eq_cons.mp he).1
          refine ⟨c, _, hsteps, hpre, ha, .perform i hrest x s' ha, ?_, .refl⟩
          simp [hpre]
        · rw [List.concat_eq_append, ← List.cons_append, ← List.append_assoc] at htrace
          obtain ⟨hpre, -⟩ := List.append_inj' htrace rfl
          obtain ⟨d, d', hd, hpre', ha', hdd', hpost, hd'⟩ := ih hpre
          exact ⟨d, d', hd, hpre', ha', hdd', hpost, hd'.tail (.perform i hrest x s' ha)⟩
      | @restart j hj =>
        obtain rfl : i = j := by
          by_contra hij
          exact hsame (by simp [hij])
        exact absurd hj hi
      | surroundings s' hs => exact absurd rfl hsame

end World

/-! ### Schedules -/

section Schedule

variable [DecidableEq ι] {start : ι → Prog S α}

/-- Perform the next operation of the thread `i`, where `f` answers it. -/
def Config.perform (f : ι → Trace S → σ → (o : S.Op) → Option (S.Ans o × σ)) (c : Config σ start)
    (i : ι) : Config σ start :=
  match h : (c.thread i).rest with
  | .ret _ => c
  | .op o _ => match f i (c.thread i).trace c.shared o with
    | none => c
    | some (x, s') => ⟨s', Function.update c.thread i ((c.thread i).advance h x)⟩

/-- A schedule is a run. -/
theorem World.steps_schedule (W : World S ι σ α)
    {f : ι → Trace S → σ → (o : S.Op) → Option (S.Ans o × σ)}
    (hf : ∀ i past s o x s', f i past s o = some (x, s') → W.answer i past s ⟨o, x⟩ s') :
    (is : List ι) → (c : Config σ W.start) →
      Relation.ReflTransGen W.Step c (is.foldl (Config.perform f) c)
  | [], _ => .refl
  | i :: is, c => by
    refine .trans ?_ (steps_schedule W hf is _)
    unfold Config.perform
    split
    · exact .refl
    · split
      · exact .refl
      · exact .single (.perform i _ _ _ (hf _ _ _ _ _ _ ‹_›))

/-- A schedule leads to a reachable configuration. -/
theorem World.reachable_schedule (W : World S ι σ α)
    {f : ι → Trace S → σ → (o : S.Op) → Option (S.Ans o × σ)}
    (hf : ∀ i past s o x s', f i past s o = some (x, s') → W.answer i past s ⟨o, x⟩ s') {s₀ : σ}
    (is : List ι) {c : Config σ W.start} (hc : W.Reachable s₀ c) :
    W.Reachable s₀ (is.foldl (Config.perform f) c) :=
  hc.trans (steps_schedule W hf is c)

end Schedule

end ScorecardInfra.Interaction
