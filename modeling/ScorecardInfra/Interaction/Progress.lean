import Mathlib.Data.DFinsupp.WellFounded
import Mathlib.Order.WellFounded
import Mathlib.SetTheory.Cardinal.Order
import ScorecardInfra.Interaction.Interleaving

/-!
# Runs that come to an end

A program performs finitely many operations, whatever it is answered, though no number bounds them
for all answers (`next_wellFounded`). Hence any finite number of threads that do not start again
performs finitely many (`below_wellFounded`), and so do threads that a finite number of others wake
up, if these wake up finitely many at a time (`World.acc_step`).

A state `EndsIn` a goal if no run from there is infinite and every run that cannot go on has reached
the goal. For a world, the second part is what has to be shown: the absence of deadlocks
in reachable configurations (`World.endsIn`).

## Main definitions

* `Prog.Next`, `Below`, `EndsIn`.

## Main results

* `next_wellFounded`, `below_wellFounded`, `World.acc_step`, `World.endsIn`.
-/

namespace ScorecardInfra.Interaction

/-! ### Runs of a relation -/

section Relation

variable {C : Type} {step : C → C → Prop} {Done : C → Prop} {c : C}

/-- No run from `c` is infinite, and each that cannot go on has reached `Done`. -/
structure EndsIn (step : C → C → Prop) (Done : C → Prop) (c : C) : Prop where
  finite : ¬∃ run : ℕ → C, run 0 = c ∧ ∀ n, step (run n) (run (n + 1))
  done : ∀ c', Relation.ReflTransGen step c c' → (∀ c'', ¬step c' c'') → Done c'

theorem endsIn_of_acc (hacc : Acc (fun c' c => step c c') c)
    (hdone : ∀ c', Relation.ReflTransGen step c c' → (∀ c'', ¬step c' c'') → Done c') :
    EndsIn step Done c where
  finite := by
    rintro ⟨run, hzero, hrun⟩
    exact (acc_iff_isEmpty_descending_chain.mp hacc).false ⟨run, hzero, hrun⟩
  done := hdone

end Relation

/-! ### Programs -/

variable {S : Signature} {α : Type}

/-- `q` is what is left of `p` after its first operation. -/
inductive Prog.Next : Prog S α → Prog S α → Prop
  | intro (o : S.Op) (k : S.Ans o → Prog S α) (x : S.Ans o) : Next (k x) (.op o k)

/-- A program performs finitely many operations. -/
theorem next_wellFounded : WellFounded (Prog.Next (S := S) (α := α)) := by
  refine ⟨fun p => ?_⟩
  induction p with
  | ret a => exact ⟨_, fun q hq => nomatch hq⟩
  | op o k ih =>
    refine ⟨_, fun q hq => ?_⟩
    cases hq with
    | intro _ _ x => exact ih x

/-- One of the programs has performed an operation, and the others are as before. -/
def Below {κ : Type} (f' f : κ → Prog S α) : Prop :=
  ∃ i, (f' i).Next (f i) ∧ ∀ j, j ≠ i → f' j = f j

/-- **Finitely many programs** perform finitely many operations, in any order. -/
theorem below_wellFounded {κ : Type} [Finite κ] :
    WellFounded (Below (S := S) (α := α) (κ := κ)) := by
  have hlex := Pi.Lex.wellFounded (WellOrderingRel (α := κ)) fun _ : κ =>
    next_wellFounded (S := S) (α := α)
  refine Subrelation.wf ?_ hlex
  rintro f' f ⟨i, hi, hothers⟩
  refine ⟨i, fun j hj => hothers j ?_, hi⟩
  rintro rfl
  exact irrefl_of WellOrderingRel j hj

/-! ### Worlds -/

section World

variable {ι σ : Type}

/-- What is left of the threads in `A`. -/
def Config.left {start : ι → Prog S α} (A : Set ι) (c : Config σ start) : A → Prog S α :=
  fun i => (c.thread i).rest

namespace World

variable [DecidableEq ι] {W : World S ι σ α}

/-- A step of a world in which nothing starts again and nothing happens from outside: one thread
performs an operation. -/
theorem Step.left (hrestarts : ∀ i, ¬W.restarts i) (hsurroundings : ∀ s s', ¬W.surroundings s s')
    {c c' : Config σ W.start} (h : W.Step c c') :
    ∃ i o k x, (c.thread i).rest = .op o k ∧
      W.answer i (c.thread i).trace c.shared ⟨o, x⟩ c'.shared ∧
      ∀ A : Set ι, (i ∈ A → Below (c'.left A) (c.left A)) ∧ (i ∉ A → c'.left A = c.left A) := by
  rcases h with @⟨i, o, k, hrest, x, s', ha⟩ | ⟨i, hi⟩ | ⟨s', hs⟩
  · refine ⟨i, o, k, x, hrest, ha, fun A => ⟨fun hA => ⟨⟨i, hA⟩, ?_, fun j hj => ?_⟩, fun hA => ?_⟩⟩
    · simpa [Config.left, hrest] using Prog.Next.intro o k x
    · have hne : j.1 ≠ i := fun h => hj (Subtype.ext h)
      simp [Config.left, hne]
    · funext j
      have hne : j.1 ≠ i := fun h => hA (h ▸ j.2)
      simp [Config.left, hne]
  · exact absurd hi (hrestarts i)
  · exact absurd hs (hsurroundings _ _)

/-- **Finitely many operations.** The threads of `M` are finitely many; the others are in `A` when
they perform an operation, finitely many at a time, and only those of `M` change `A`. -/
theorem acc_step {M : Set ι} {A : σ → Set ι} {I : Config σ W.start → Prop}
    (hmain : M.Finite) (hawake : ∀ s, (A s).Finite) (hrestarts : ∀ i, ¬W.restarts i)
    (hsurroundings : ∀ s s', ¬W.surroundings s s') (hkeep : ∀ c c', I c → W.Step c c' → I c')
    (hother : ∀ c i o k x s', I c → (c.thread i).rest = .op o k →
      W.answer i (c.thread i).trace c.shared ⟨o, x⟩ s' → i ∉ M →
        i ∈ A c.shared ∧ A s' = A c.shared)
    {c : Config σ W.start} (hI : I c) : Acc (fun c' c => W.Step c c') c := by
  have := hmain.to_subtype
  -- first by what is left of `M`, and while that stays the same, of those in `A`
  have houter : ∀ f : M → Prog S α, ∀ c : Config σ W.start, I c → c.left M = f →
      Acc (fun c' c => W.Step c c') c := by
    intro f
    induction below_wellFounded.apply f with
    | intro f _ ihmain =>
      intro c hI hf
      obtain ⟨B, hB⟩ : ∃ B, A c.shared = B := ⟨_, rfl⟩
      have := (hB ▸ hawake c.shared : B.Finite).to_subtype
      have hinner : ∀ g : B → Prog S α, ∀ c : Config σ W.start, I c → c.left M = f →
          A c.shared = B → c.left B = g → Acc (fun c' c => W.Step c c') c := by
        intro g
        induction below_wellFounded.apply g with
        | intro g _ ihawake =>
          refine fun c hI hf hB hg => ⟨_, fun c' hstep => ?_⟩
          have hI' := hkeep c c' hI hstep
          obtain ⟨i, o, k, x, hrest, ha, hleft⟩ := hstep.left hrestarts hsurroundings
          by_cases hi : i ∈ M
          · exact ihmain _ (hf ▸ (hleft M).1 hi) c' hI' rfl
          · obtain ⟨hawake, hsame⟩ := hother c i o k x _ hI hrest ha hi
            exact ihawake _ (hg ▸ (hleft B).1 (hB ▸ hawake)) c' hI' (((hleft M).2 hi).trans hf)
              (hsame.trans hB) rfl
      exact hinner _ c hI hf hB rfl
  exact houter _ c hI rfl

/-- **No deadlock, no infinite run.** A world of finitely many threads ends in its goal if every
configuration that is reached and cannot go on has reached it. -/
theorem endsIn [Finite ι] (hrestarts : ∀ i, ¬W.restarts i)
    (hsurroundings : ∀ s s', ¬W.surroundings s s') {s₀ : σ} {Done : Config σ W.start → Prop}
    (hdone : ∀ c, W.Reachable s₀ c → (∀ c', ¬W.Step c c') → Done c) :
    EndsIn W.Step Done (.initial W.start s₀) := by
  refine endsIn_of_acc ?_ hdone
  refine acc_step (M := Set.univ) (A := fun _ => ∅) (I := fun _ => True) Set.finite_univ
    (fun _ => Set.finite_empty) hrestarts hsurroundings (fun _ _ _ _ => trivial) ?_ trivial
  exact fun _ i _ _ _ _ _ _ _ hi => absurd (Set.mem_univ i) hi

end World

end World

end ScorecardInfra.Interaction
