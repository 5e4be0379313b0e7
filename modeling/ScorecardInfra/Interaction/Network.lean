import ScorecardInfra.Interaction.Interleaving

/-!
# Worlds side by side

A network has a world for each of its components, and a step of the network is a step of one
component. What a thread may be answered depends on the configurations of all the components
(`Network.hears`), so that one component can be told what another one has returned.

A component is proved correct in its own world, under an assumption about its answers. If what
components hear of others that run under their assumptions satisfies the assumptions, then all of
them run under their assumptions (`Network.Reachable.component`); it does not matter whether two
components depend on each other. Where threads do not start again, a run hears nothing but what is
in the traces at its end (`Network.Reachable.of_traces`), and so the assumptions may be about these.

## Main definitions

* `Network`, `Network.State`, `Network.Step`, `Network.Reachable`, `Network.constrain`.

## Main results

* `Network.Reachable.component`, `Network.Reachable.of_traces`, `Network.reflTransGen_update`.
-/

namespace ScorecardInfra.Interaction

variable {S : Signature} {κ ι σ α : Type}

/-! ### Steps of a world under a condition -/

namespace World

variable [DecidableEq ι] {W : World S ι σ α} {P Q : ι → Event S → Prop}
  {c c' : Config σ W.start}

/-- A step whose answer satisfies another condition too. -/
theorem Step.constrain (h : (W.constrain P).Step c c')
    (hQ : ∀ i e, (∃ k, (c.thread i).rest = .op e.op k) → e ∈ (c'.thread i).trace → P i e → Q i e) :
    (W.constrain Q).Step c c' := by
  obtain ⟨i, hrest, x, s', hP, ha⟩ | ⟨i, hi⟩ | ⟨s', hs⟩ := h
  · refine Step.perform (W := W.constrain Q) i hrest x s' ⟨hQ i ⟨_, x⟩ ⟨_, hrest⟩ ?_ hP, ha⟩
    simp
  · exact Step.restart (W := W.constrain Q) i hi
  · exact Step.surroundings (W := W.constrain Q) s' hs

/-- What holds of every answer may be assumed of it. -/
theorem Reachable.constrain {s₀ : σ} (h : (W.constrain P).Reachable s₀ c)
    (hQ : ∀ i e, P i e → Q i e) : (W.constrain Q).Reachable s₀ c := by
  induction h with
  | refl => exact .refl
  | tail _ hstep ih => exact ih.tail (hstep.constrain fun i e _ _ => hQ i e)

end World

/-! ### Networks -/

/-- Components with worlds of their own. `hears c k i e`: where the components are at `c`, the
thread `i` of the component `k` may be answered `e`. -/
structure Network (S : Signature) (κ ι σ α : Type) where
  world : κ → World S ι σ α
  hears : ((k : κ) → Config σ (world k).start) → κ → ι → Event S → Prop

namespace Network

variable (N : Network S κ ι σ α)

/-- A configuration of each component. -/
abbrev State : Type := (k : κ) → Config σ (N.world k).start

/-- No thread has performed anything. -/
def initial (s₀ : κ → σ) : N.State := fun k => .initial (N.world k).start (s₀ k)

/-- The runs of the network whose answers satisfy `P`. -/
def constrain (P : κ → ι → Event S → Prop) : Network S κ ι σ α :=
  { N with hears := fun c k i e => P k i e ∧ N.hears c k i e }

variable [DecidableEq κ] [DecidableEq ι]

/-- A step of one component. -/
inductive Step : N.State → N.State → Prop
  | mk {c : N.State} (k : κ) {d : Config σ (N.world k).start}
      (h : ((N.world k).constrain (N.hears c k)).Step (c k) d) : Step c (Function.update c k d)

/-- The states that some order of steps leads to from the shared states `s₀`. -/
def Reachable (s₀ : κ → σ) : N.State → Prop := Relation.ReflTransGen N.Step (N.initial s₀)

variable {N} {s₀ : κ → σ} {c c' : N.State}

/-- **Assumptions.** What is heard, where every component runs under its assumption, satisfies the
assumption: then every component runs under its assumption. -/
theorem Reachable.component {A : κ → ι → Event S → Prop} (h : N.Reachable s₀ c)
    (hA : ∀ c : N.State, (∀ l, ((N.world l).constrain (A l)).Reachable (s₀ l) (c l)) →
      ∀ k i e, (∃ q, ((c k).thread i).rest = .op e.op q) → N.hears c k i e → A k i e) (k : κ) :
    ((N.world k).constrain (A k)).Reachable (s₀ k) (c k) := by
  induction h generalizing k with
  | refl => exact .refl
  | @tail c c' _ hstep ih =>
    obtain ⟨l, hl⟩ := hstep
    by_cases hkl : k = l
    · subst hkl
      rw [Function.update_self]
      exact (ih k).tail (hl.constrain fun i e hrest _ => hA c ih k i e hrest)
    · rw [Function.update_of_ne hkl]
      exact ih k

theorem Step.trace_subset (h : N.Step c c') (hrestarts : ∀ k i, ¬(N.world k).restarts i) (k : κ)
    (i : ι) : ((c k).thread i).trace ⊆ ((c' k).thread i).trace := by
  obtain ⟨l, hl⟩ := h
  by_cases hkl : k = l
  · subst hkl
    rw [Function.update_self]
    exact (hl.trace_prefix (hrestarts k) i).subset
  · rw [Function.update_of_ne hkl]
    exact List.Subset.refl _

/-- **What is heard.** Without restarts, a run hears nothing but what is in the traces at its
end. -/
theorem Reachable.of_traces (h : N.Reachable s₀ c) (hrestarts : ∀ k i, ¬(N.world k).restarts i) :
    (N.constrain fun k i e => e ∈ ((c k).thread i).trace).Reachable s₀ c := by
  -- a prefix of the run hears what is in the traces at the end of the whole
  have hprefix : ∀ d : N.State, (∀ k i, ((c k).thread i).trace ⊆ ((d k).thread i).trace) →
      (N.constrain fun k i e => e ∈ ((d k).thread i).trace).Reachable s₀ c := by
    induction h with
    | refl => exact fun _ _ => .refl
    | @tail c c' _ hstep ih =>
      intro d hd
      refine (ih d fun k i => List.Subset.trans (hstep.trace_subset hrestarts k i) (hd k i)).tail ?_
      obtain ⟨l, hl⟩ := hstep
      refine .mk l (hl.constrain fun i e _ he hears => ⟨hd l i ?_, hears⟩)
      rwa [Function.update_self]
  exact hprefix c fun k i => List.Subset.refl _

/-- **One component runs alone** for a while, answered as it is whatever it has done itself. -/
theorem reflTransGen_update {k : κ} {P : ι → Event S → Prop}
    (hP : ∀ d i e, P i e → N.hears (Function.update c k d) k i e) {d : Config σ (N.world k).start}
    (h : Relation.ReflTransGen ((N.world k).constrain P).Step (c k) d) :
    Relation.ReflTransGen N.Step c (Function.update c k d) := by
  induction h with
  | refl => rw [Function.update_eq_self]
  | @tail b d _ hstep ih =>
    have hlast : N.Step (Function.update c k b) (Function.update (Function.update c k b) k d) := by
      refine .mk k ?_
      rw [Function.update_self]
      exact hstep.constrain fun i e _ _ => hP b i e
    rw [Function.update_idem] at hlast
    exact ih.tail hlast

end Network

end ScorecardInfra.Interaction
