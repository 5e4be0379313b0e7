import Mathlib.Data.List.Forall2
import ScorecardInfra.Interaction.Program

/-!
# Programs that return errors and may panic

A function that returns a value and an error, and that may also panic, is a program over
`Fallible ε m`: it ends in a value, in an error value of type `ε` that its caller sees, or in a
panic that no caller catches (`Stop`). Errors can be rewritten on the way out (`annotate`); panics
pass through.

For `m = Prog S` the rules `exec_run_bind_ok` and `Exec.split_run_bind` read a successful run, or a
run that performs an operation, back through a sequence. `loop` repeats a body a bounded number of
times. `handle` runs a program over one signature
by programs over another, one for each operation, that share a state: an interface and the object
that implements it.

## Main definitions

* `Stop`, `Fallible`, `fail`, `crash`, `failIf`, `ofExcept`, `annotate`, `Fallible.perform`,
  `attempt`, `ofOutcome`, `Decides`, `outcome`, `loop`, `handle`.

## Main results

* `exec_run_bind_ok`, `exec_annotate_ok`, `exec_ofExcept_ok`, `exec_failIf_ok`.
* `Exec.split_run_bind`, `performs_run_bind`, `Decides.bind`, `outcome_bind`,
  `performs_handle`.
-/

namespace ScorecardInfra.Interaction

/-- How a function ends without a value: with an error for its caller, or in a panic. -/
inductive Stop (ε : Type) : Type
  | error (e : ε)
  | panic (message : String)
  deriving DecidableEq, Repr

/-- Rewrite the error; a panic stays as it is. -/
def Stop.map {ε : Type} (f : ε → ε) : Stop ε → Stop ε
  | .error e => .error (f e)
  | .panic message => .panic message

/-- Computations in `m` that return an error of type `ε` or panic. -/
abbrev Fallible (ε : Type) (m : Type → Type) (α : Type) : Type := ExceptT (Stop ε) m α

variable {ε α β : Type} {m : Type → Type} [Monad m]

/-- Return the error `e`. -/
def fail (e : ε) : Fallible ε m α := ExceptT.mk (pure (.error (.error e)))

/-- Panic. -/
def crash (message : String) : Fallible ε m α := ExceptT.mk (pure (.error (.panic message)))

/-- Return the error `e` if `c` holds, and go on otherwise. -/
def failIf (c : Bool) (e : ε) : Fallible ε m Unit :=
  ExceptT.mk (pure (cond c (.error (.error e)) (.ok ())))

/-- A pure function that may return an error. -/
def ofExcept (x : Except ε α) : Fallible ε m α := ExceptT.mk (pure (x.mapError .error))

/-- Run `x` and rewrite the error it returns. -/
def annotate (f : ε → ε) (x : Fallible ε m α) : Fallible ε m α :=
  ExceptT.mk (Except.mapError (Stop.map f) <$> x.run)

/-- The outcome of a function that has already run. -/
def ofOutcome (r : Except (Stop ε) α) : Fallible ε m α := ExceptT.mk (pure r)

/-- The value or error with which `x` returns; a panic passes through. -/
def Stop.returned : Except (Stop ε) α → Except (Stop ε) (Except ε α)
  | .ok a => .ok (.ok a)
  | .error (.error e) => .ok (.error e)
  | .error (.panic message) => .error (.panic message)

/-- Run `x` and look at the error it returns. -/
def attempt (x : Fallible ε m α) : Fallible ε m (Except ε α) := ExceptT.mk (Stop.returned <$> x.run)

@[simp] theorem run_fail (e : ε) :
    (fail e : Fallible ε m α).run = pure (.error (.error e)) := rfl

@[simp] theorem run_crash (message : String) :
    (crash message : Fallible ε m α).run = pure (.error (.panic message)) := rfl

@[simp] theorem run_failIf (c : Bool) (e : ε) :
    (failIf c e : Fallible ε m Unit).run = pure (cond c (.error (.error e)) (.ok ())) := rfl

@[simp] theorem run_ofExcept (x : Except ε α) :
    (ofExcept x : Fallible ε m α).run = pure (x.mapError .error) := rfl

@[simp] theorem run_ofOutcome (r : Except (Stop ε) α) :
    (ofOutcome r : Fallible ε m α).run = pure r := rfl

@[simp] theorem run_attempt (x : Fallible ε m α) :
    (attempt x).run = Stop.returned <$> x.run := rfl

@[simp] theorem run_annotate (f : ε → ε) (x : Fallible ε m α) :
    (annotate f x).run = Except.mapError (Stop.map f) <$> x.run := rfl

theorem mapError_eq_ok {δ : Type} {f : ε → δ} {x : Except ε α} {a : α} :
    x.mapError f = .ok a ↔ x = .ok a := by
  cases x <;> simp [Except.mapError]

/-! ### Pure functions that return errors -/

/-- The error `e` if `c` holds. -/
def refuseIf (c : Bool) (e : ε) : Except ε Unit := cond c (.error e) (.ok ())

theorem refuseIf_eq_ok {c : Bool} {e : ε} {u : Unit} : refuseIf c e = .ok u ↔ c = false := by
  cases c <;> simp [refuseIf]

theorem except_bind_eq_ok {x : Except ε α} {f : α → Except ε β} {b : β} :
    (x >>= f) = .ok b ↔ ∃ a, x = .ok a ∧ f a = .ok b := by
  cases x with
  | error e => exact iff_of_false (fun h => nomatch h) (fun ⟨a, h, _⟩ => nomatch h)
  | ok a => exact ⟨fun h => ⟨a, rfl, h⟩, fun ⟨a', h, hf⟩ => Except.ok.inj h ▸ hf⟩

/-- A loop that collects the values of a function without error. -/
theorem mapM_eq_ok {f : α → Except ε β} {l : List α} {l' : List β} :
    l.mapM f = .ok l' ↔ List.Forall₂ (fun a b => f a = .ok b) l l' := by
  induction l generalizing l' with
  | nil =>
    rw [List.mapM_nil, List.forall₂_nil_left_iff]
    exact ⟨fun h => (Except.ok.inj h).symm, fun h => h ▸ rfl⟩
  | cons a l ih =>
    rw [List.mapM_cons, except_bind_eq_ok, List.forall₂_cons_left_iff]
    refine exists_congr fun b => ?_
    rw [except_bind_eq_ok]
    constructor
    · rintro ⟨hb, u, hu, hl⟩
      exact ⟨u, hb, ih.mp hu, (Except.ok.inj hl).symm⟩
    · rintro ⟨u, hb, hu, rfl⟩
      exact ⟨hb, u, ih.mpr hu, rfl⟩

/-! ### Runs of fallible programs -/

section Runs

variable {S : Signature}

/-- Perform one operation. -/
def Fallible.perform (o : S.Op) : Fallible ε (Prog S) (S.Ans o) :=
  ExceptT.lift (Interaction.perform o)

@[simp] theorem run_perform (o : S.Op) :
    (Fallible.perform o : Fallible ε (Prog S) (S.Ans o)).run =
      .op o fun x => .ret (.ok x) := rfl

/-- What `f` makes of an outcome of the part before it. -/
def andThen (f : α → Fallible ε (Prog S) β) : Except (Stop ε) α → Prog S (Except (Stop ε) β)
  | .ok a => (f a).run
  | .error s => .ret (.error s)

theorem run_bind_eq (x : Fallible ε (Prog S) α) (f : α → Fallible ε (Prog S) β) :
    (x >>= f).run = x.run >>= andThen f := by
  rw [ExceptT.run_bind]
  congr 1
  funext a
  cases a <;> rfl

/-- What follows a successful first part. -/
theorem Exec.run_bind {x : Fallible ε (Prog S) α} {f : α → Fallible ε (Prog S) β} {t₁ t₂ : Trace S}
    {a : α} {r : Option (Except (Stop ε) β)} (hx : Exec x.run t₁ (some (.ok a)))
    (hf : Exec (f a).run t₂ r) : Exec (x >>= f).run (t₁ ++ t₂) r := by
  rw [run_bind_eq]
  exact Exec.bind hx hf

/-- A first part that stops ends the sequence. -/
theorem Exec.run_bind_stop {x : Fallible ε (Prog S) α} {t : Trace S} {s : Stop ε}
    (hx : Exec x.run t (some (.error s))) (f : α → Fallible ε (Prog S) β) :
    Exec (x >>= f).run t (some (.error s)) := by
  rw [run_bind_eq, ← List.append_nil t]
  exact Exec.bind hx (.ret _)

/-- **A successful sequence.** Both parts succeed, one after the other. -/
theorem exec_run_bind_ok {x : Fallible ε (Prog S) α} {f : α → Fallible ε (Prog S) β} {t : Trace S}
    {b : β} : Exec (x >>= f).run t (some (.ok b)) ↔
      ∃ t₁ a t₂, t = t₁ ++ t₂ ∧ Exec x.run t₁ (some (.ok a)) ∧
        Exec (f a).run t₂ (some (.ok b)) := by
  rw [run_bind_eq, exec_bind_some]
  constructor
  · rintro ⟨t₁, a | a, t₂, rfl, h₁, h₂⟩
    · exact absurd (exec_ret_some.mp h₂).2 (by simp)
    · exact ⟨t₁, a, t₂, rfl, h₁, h₂⟩
  · rintro ⟨t₁, a, t₂, rfl, h₁, h₂⟩
    exact ⟨t₁, .ok a, t₂, rfl, h₁, h₂⟩

/-- **A sequence that stops.** The first part stops, or succeeds and the second one stops. -/
theorem exec_run_bind_error {x : Fallible ε (Prog S) α} {f : α → Fallible ε (Prog S) β}
    {t : Trace S}
    {s : Stop ε} (h : Exec (x >>= f).run t (some (.error s))) :
    Exec x.run t (some (.error s)) ∨
      ∃ t₁ a t₂, t = t₁ ++ t₂ ∧ Exec x.run t₁ (some (.ok a)) ∧
        Exec (f a).run t₂ (some (.error s)) := by
  rw [run_bind_eq, exec_bind_some] at h
  obtain ⟨t₁, a | a, t₂, rfl, h₁, h₂⟩ := h
  · obtain ⟨rfl, hs⟩ := exec_ret_some.mp h₂
    obtain rfl := Except.error.inj hs
    rw [List.append_nil]
    exact Or.inl h₁
  · exact Or.inr ⟨t₁, a, t₂, rfl, h₁, h₂⟩

/-- **A sequence to its end.** The first part stops, or succeeds and the second one ends. -/
theorem exec_run_bind_some {x : Fallible ε (Prog S) α} {f : α → Fallible ε (Prog S) β}
    {t : Trace S} {r : Except (Stop ε) β} (h : Exec (x >>= f).run t (some r)) :
    (∃ s, r = .error s ∧ Exec x.run t (some (.error s))) ∨
      ∃ t₁ a t₂, t = t₁ ++ t₂ ∧ Exec x.run t₁ (some (.ok a)) ∧ Exec (f a).run t₂ (some r) := by
  cases r with
  | ok b => exact Or.inr (exec_run_bind_ok.mp h)
  | error s => exact (exec_run_bind_error h).imp_left fun h => ⟨s, rfl, h⟩

/-- An operation and what follows its answer. -/
theorem exec_run_perform_bind {o : S.Op} {f : S.Ans o → Fallible ε (Prog S) β} {t : Trace S}
    {r : Except (Stop ε) β} (h : Exec (Fallible.perform o >>= f).run t (some r)) :
    ∃ x t', t = ⟨o, x⟩ :: t' ∧ Exec (f x).run t' (some r) := by
  rw [run_bind_eq, run_perform] at h
  obtain ⟨x, t', rfl, h'⟩ := exec_op_some.mp h
  exact ⟨x, t', rfl, h'⟩

/-- What follows a pure function that may return an error. -/
theorem exec_ofExcept_bind {x : Except ε α} {f : α → Fallible ε (Prog S) β} {t : Trace S}
    {r : Except (Stop ε) β} (h : Exec (ofExcept x >>= f).run t (some r)) :
    (∃ e, x = .error e ∧ t = [] ∧ r = .error (.error e)) ∨
      ∃ a, x = .ok a ∧ Exec (f a).run t (some r) := by
  cases x with
  | error e =>
    obtain ⟨rfl, rfl⟩ := exec_ret_some.mp h
    exact Or.inl ⟨e, rfl, rfl, rfl⟩
  | ok a => exact Or.inr ⟨a, rfl, h⟩

/-- An operation whose answer is read by a pure function that may return an error, and what follows.
-/
theorem exec_call_bind {o : S.Op} {view : S.Ans o → Except ε α} {f : α → Fallible ε (Prog S) β}
    {t : Trace S} {r : Except (Stop ε) β}
    (h : Exec (Fallible.perform o >>= fun x => ofExcept (view x) >>= f).run t (some r)) :
    ∃ x, (∃ e, view x = .error e ∧ t = [⟨o, x⟩] ∧ r = .error (.error e)) ∨
      ∃ a t', view x = .ok a ∧ t = ⟨o, x⟩ :: t' ∧ Exec (f a).run t' (some r) := by
  obtain ⟨x, t', rfl, hrun⟩ := exec_run_perform_bind h
  rcases exec_ofExcept_bind hrun with ⟨e, he, rfl, rfl⟩ | ⟨a, ha, hrun⟩
  · exact ⟨x, Or.inl ⟨e, he, rfl, rfl⟩⟩
  · exact ⟨x, Or.inr ⟨a, t', ha, rfl, hrun⟩⟩

/-- An operation whose answer is read by a pure function that may return an error. -/
theorem exec_call {o : S.Op} {view : S.Ans o → Except ε α} {t : Trace S} {r : Except (Stop ε) α}
    (h : Exec (Fallible.perform o >>= fun x => ofExcept (view x)).run t (some r)) :
    ∃ x, t = [⟨o, x⟩] ∧ r = (view x).mapError .error := by
  obtain ⟨x, t', rfl, hrun⟩ := exec_run_perform_bind h
  obtain ⟨rfl, rfl⟩ := exec_ret_some.mp hrun
  exact ⟨x, rfl, rfl⟩

theorem exec_pure_ok {a b : α} {t : Trace S} :
    Exec (pure a : Fallible ε (Prog S) α).run t (some (.ok b)) ↔ t = [] ∧ b = a := by
  rw [ExceptT.run_pure, Prog.pure_eq, exec_ret_some]
  simp

theorem exec_map_ok {g : α → β} {x : Fallible ε (Prog S) α} {t : Trace S} {b : β} :
    Exec (g <$> x).run t (some (.ok b)) ↔ ∃ a, Exec x.run t (some (.ok a)) ∧ g a = b := by
  rw [map_eq_pure_bind, exec_run_bind_ok]
  constructor
  · rintro ⟨t₁, a, t₂, rfl, h₁, h₂⟩
    obtain ⟨rfl, rfl⟩ := exec_pure_ok.mp h₂
    exact ⟨a, by simpa using h₁, rfl⟩
  · rintro ⟨a, h, rfl⟩
    exact ⟨t, a, [], by simp, h, exec_pure_ok.mpr ⟨rfl, rfl⟩⟩

theorem exec_annotate_ok {g : ε → ε} {x : Fallible ε (Prog S) α} {t : Trace S} {a : α} :
    Exec (annotate g x).run t (some (.ok a)) ↔ Exec x.run t (some (.ok a)) := by
  rw [run_annotate, map_eq_pure_bind, exec_bind_some]
  constructor
  · rintro ⟨t₁, b, t₂, rfl, h₁, h₂⟩
    obtain ⟨rfl, hb⟩ := exec_ret_some.mp h₂
    rw [mapError_eq_ok.mp hb.symm] at h₁
    simpa using h₁
  · intro h
    exact ⟨t, .ok a, [], by simp, h, .ret _⟩

/-- A run ends as without the context, up to the error. -/
theorem exec_annotate_some {g : ε → ε} {x : Fallible ε (Prog S) α} {t : Trace S}
    {r : Except (Stop ε) α} (h : Exec (annotate g x).run t (some r)) :
    ∃ r', Exec x.run t (some r') ∧ r = r'.mapError (Stop.map g) := by
  rw [run_annotate, map_eq_pure_bind, exec_bind_some] at h
  obtain ⟨t₁, r', t₂, rfl, h₁, h₂⟩ := h
  obtain ⟨rfl, rfl⟩ := exec_ret_some.mp h₂
  exact ⟨r', by rwa [List.append_nil], rfl⟩

theorem exec_ofExcept_ok {x : Except ε α} {t : Trace S} {a : α} :
    Exec (ofExcept x : Fallible ε (Prog S) α).run t (some (.ok a)) ↔ t = [] ∧ x = .ok a := by
  rw [run_ofExcept, Prog.pure_eq, exec_ret_some, eq_comm (a := Except.ok a), mapError_eq_ok]

theorem exec_attempt_ok {x : Fallible ε (Prog S) α} {t : Trace S} {a : α} :
    Exec (attempt x).run t (some (.ok (.ok a))) ↔ Exec x.run t (some (.ok a)) := by
  rw [run_attempt, map_eq_pure_bind, exec_bind_some]
  constructor
  · rintro ⟨t₁, b, t₂, rfl, h₁, h₂⟩
    obtain ⟨rfl, hb⟩ := exec_ret_some.mp h₂
    obtain rfl : b = .ok a := by
      match b, hb with
      | .ok _, hb =>
        obtain rfl := Except.ok.inj (Except.ok.inj hb)
        rfl
      | .error (.error _), hb => cases Except.ok.inj hb
    simpa using h₁
  · intro h
    exact ⟨t, .ok a, [], by simp, h, .ret _⟩

theorem exec_failIf_ok {c : Bool} {e : ε} {t : Trace S} :
    Exec (failIf c e : Fallible ε (Prog S) Unit).run t (some (.ok ())) ↔ t = [] ∧ c = false := by
  rw [run_failIf, Prog.pure_eq, exec_ret_some]
  cases c <;> simp

theorem exec_fail_ok {e : ε} {t : Trace S} {a : α} :
    ¬Exec (fail e : Fallible ε (Prog S) α).run t (some (.ok a)) := by
  rw [run_fail, Prog.pure_eq, exec_ret_some]
  simp

theorem exec_crash_ok {message : String} {t : Trace S} {a : α} :
    ¬Exec (crash message : Fallible ε (Prog S) α).run t (some (.ok a)) := by
  rw [run_crash, Prog.pure_eq, exec_ret_some]
  simp

theorem exec_run_perform_ok {o : S.Op} {t : Trace S} {x : S.Ans o} :
    Exec (Fallible.perform o : Fallible ε (Prog S) (S.Ans o)).run t (some (.ok x)) ↔
      t = [⟨o, x⟩] := by
  rw [run_perform, exec_op_some]
  constructor
  · rintro ⟨y, t', rfl, h⟩
    obtain ⟨rfl, hx⟩ := exec_ret_some.mp h
    obtain rfl := Except.ok.inj hx
    rfl
  · rintro rfl
    exact ⟨x, [], rfl, .ret _⟩

/-! ### The operations of fallible programs -/

theorem performs_run_bind {P : S.Op → Prop} {x : Fallible ε (Prog S) α}
    {f : α → Fallible ε (Prog S) β} (hx : x.run.Performs P) (hf : ∀ a, (f a).run.Performs P) :
    (x >>= f).run.Performs P := by
  rw [run_bind_eq]
  refine hx.bind fun
    | .ok a => hf a
    | .error _ => trivial

theorem performs_map {P : S.Op → Prop} {g : α → β} {x : Fallible ε (Prog S) α}
    (hx : x.run.Performs P) : (g <$> x).run.Performs P := by
  rw [map_eq_pure_bind]
  exact performs_run_bind hx fun _ => trivial

theorem performs_annotate {P : S.Op → Prop} {g : ε → ε} {x : Fallible ε (Prog S) α}
    (hx : x.run.Performs P) : (annotate g x).run.Performs P := by
  rw [run_annotate, map_eq_pure_bind]
  exact hx.bind fun _ => trivial

theorem performs_attempt {P : S.Op → Prop} {x : Fallible ε (Prog S) α} (hx : x.run.Performs P) :
    (attempt x).run.Performs P := by
  rw [run_attempt, map_eq_pure_bind]
  exact hx.bind fun _ => trivial

@[simp] theorem performs_run_pure (P : S.Op → Prop) (a : α) :
    (pure a : Fallible ε (Prog S) α).run.Performs P := trivial

@[simp] theorem performs_fail (P : S.Op → Prop) (e : ε) :
    (fail e : Fallible ε (Prog S) α).run.Performs P := trivial

@[simp] theorem performs_crash (P : S.Op → Prop) (message : String) :
    (crash message : Fallible ε (Prog S) α).run.Performs P := trivial

@[simp] theorem performs_failIf (P : S.Op → Prop) (c : Bool) (e : ε) :
    (failIf c e : Fallible ε (Prog S) Unit).run.Performs P := trivial

@[simp] theorem performs_ofExcept (P : S.Op → Prop) (x : Except ε α) :
    (ofExcept x : Fallible ε (Prog S) α).run.Performs P := trivial

@[simp] theorem performs_ofOutcome (P : S.Op → Prop) (x : Except (Stop ε) α) :
    (ofOutcome x : Fallible ε (Prog S) α).run.Performs P := trivial

@[simp] theorem performs_run_perform (P : S.Op → Prop) (o : S.Op) :
    (Fallible.perform o : Fallible ε (Prog S) (S.Ans o)).run.Performs P ↔ P o :=
  ⟨fun h => h.1, fun h => ⟨h, fun _ => trivial⟩⟩

/-- **What happens after a successful first part.** In a run of `x >>= f` an operation that `x`
cannot perform comes after `x` has succeeded. -/
theorem Exec.split_run_bind {P : S.Op → Prop} {x : Fallible ε (Prog S) α}
    {f : α → Fallible ε (Prog S) β} {pre post : Trace S} {e : Event S}
    {r : Option (Except (Stop ε) β)} (h : Exec (x >>= f).run (pre ++ e :: post) r)
    (hx : x.run.Performs P) (he : ¬P e.op) :
    ∃ t₁ a pre', pre = t₁ ++ pre' ∧ Exec x.run t₁ (some (.ok a)) ∧
      Exec (f a).run (pre' ++ e :: post) r := by
  rw [run_bind_eq] at h
  obtain ⟨t₁, a | a, pre', rfl, h₁, h₂⟩ := h.split_bind hx he
  · have := (exec_ret_iff.mp h₂).1
    simp at this
  · exact ⟨t₁, a, pre', rfl, h₁, h₂⟩

/-! ### Checks -/

/-- `Decides Q x P`: a complete run of the check `x` whose events all satisfy `Q` succeeds exactly
when `P` holds. -/
def Decides (Q : Event S → Prop) (x : Fallible ε (Prog S) Unit) (P : Prop) : Prop :=
  ∀ t r, Exec x.run t (some r) → (∀ e ∈ t, Q e) → (r = .ok () ↔ P)

variable {Q : Event S → Prop} {P P' : Prop}

theorem Decides.congr {x : Fallible ε (Prog S) Unit} (h : Decides Q x P) (hP : P ↔ P') :
    Decides Q x P' :=
  fun t r hrun ht => (h t r hrun ht).trans hP

theorem decides_pure : Decides Q (pure () : Fallible ε (Prog S) Unit) True := by
  intro t r h _
  obtain ⟨-, rfl⟩ := exec_ret_some.mp h
  exact iff_true_intro rfl

theorem decides_fail (e : ε) : Decides Q (fail e : Fallible ε (Prog S) Unit) False := by
  intro t r h _
  obtain ⟨-, rfl⟩ := exec_ret_some.mp h
  simp

theorem decides_crash (message : String) :
    Decides Q (crash message : Fallible ε (Prog S) Unit) False := by
  intro t r h _
  obtain ⟨-, rfl⟩ := exec_ret_some.mp h
  simp

theorem decides_failIf (c : Bool) (e : ε) :
    Decides Q (failIf c e : Fallible ε (Prog S) Unit) (c = false) := by
  intro t r h _
  obtain ⟨-, rfl⟩ := exec_ret_some.mp h
  cases c <;> simp

theorem decides_ofExcept {x : Except ε α} {f : α → Fallible ε (Prog S) Unit}
    (hok : ∀ a, x = .ok a → Decides Q (f a) P) (herr : ∀ e, x = .error e → ¬P) :
    Decides Q (ofExcept x >>= f) P := by
  intro t r h ht
  cases x with
  | error e =>
    obtain ⟨-, rfl⟩ := exec_ret_some.mp h
    simpa using herr e rfl
  | ok a => exact hok a rfl t r h ht

/-- An operation before a check: the check may depend on the answer, its outcome may not. -/
theorem decides_perform_bind {o : S.Op} {f : S.Ans o → Fallible ε (Prog S) Unit}
    (h : ∀ x, Q ⟨o, x⟩ → Decides Q (f x) P) : Decides Q (Fallible.perform o >>= f) P := by
  intro t r hrun ht
  rw [run_bind_eq, run_perform] at hrun
  obtain ⟨x, t', rfl, hrun'⟩ := exec_op_some.mp hrun
  rw [List.forall_mem_cons] at ht
  exact h x ht.1 t' r hrun' ht.2

/-- Two checks one after the other. -/
theorem Decides.bind {x y : Fallible ε (Prog S) Unit} (hx : Decides Q x P)
    (hy : P → Decides Q y P') :
    Decides Q (x >>= fun _ => y) (P ∧ P') := by
  intro t r h ht
  rw [run_bind_eq, exec_bind_some] at h
  obtain ⟨t₁, b, t₂, rfl, h₁, h₂⟩ := h
  rw [List.forall_mem_append] at ht
  have hP := hx t₁ b h₁ ht.1
  cases b with
  | error s =>
    obtain ⟨-, rfl⟩ := exec_ret_some.mp h₂
    have hn : ¬P := fun hp => by simpa using hP.mpr hp
    simp [hn]
  | ok u =>
    have hp := hP.mp rfl
    rw [hy hp t₂ r h₂ ht.2, and_iff_right hp]

/-! ### Fixed answers -/

/-- The outcome of a fallible program where each operation has one answer. -/
def outcome (ans : (o : S.Op) → S.Ans o) (x : Fallible ε (Prog S) α) : Except (Stop ε) α :=
  x.run.eval ans

section Outcome

variable {ans : (o : S.Op) → S.Ans o}

@[simp] theorem outcome_pure (a : α) :
    outcome ans (pure a : Fallible ε (Prog S) α) = .ok a := rfl

@[simp] theorem outcome_fail (e : ε) :
    outcome ans (fail e : Fallible ε (Prog S) α) = .error (.error e) := rfl

@[simp] theorem outcome_crash (message : String) :
    outcome ans (crash message : Fallible ε (Prog S) α) = .error (.panic message) := rfl

@[simp] theorem outcome_ofExcept (x : Except ε α) :
    outcome ans (ofExcept x : Fallible ε (Prog S) α) = x.mapError .error := rfl

@[simp] theorem outcome_perform (o : S.Op) :
    outcome ans (Fallible.perform o : Fallible ε (Prog S) (S.Ans o)) = .ok (ans o) := rfl

/-- The second part of a sequence follows the value of the first. -/
@[simp] theorem outcome_bind (x : Fallible ε (Prog S) α) (f : α → Fallible ε (Prog S) β) :
    outcome ans (x >>= f) = outcome ans x >>= fun a => outcome ans (f a) := by
  rw [outcome, run_bind_eq, Prog.eval_bind]
  change _ = x.run.eval ans >>= _
  cases x.run.eval ans <;> rfl

theorem outcome_bind_ok {x : Fallible ε (Prog S) α} {f : α → Fallible ε (Prog S) β} {a : α}
    (h : outcome ans x = .ok a) : outcome ans (x >>= f) = outcome ans (f a) := by
  rw [outcome_bind, h]
  rfl

theorem outcome_bind_error {x : Fallible ε (Prog S) α} {f : α → Fallible ε (Prog S) β} {s : Stop ε}
    (h : outcome ans x = .error s) : outcome ans (x >>= f) = .error s := by
  rw [outcome_bind, h]
  rfl

end Outcome

/-! ### Loops -/

variable {σ : Type}

/-- Repeat `body` while it asks to go on with a new state, at most `n` times, and then go on as
`stuck`. -/
def loop (stuck : Fallible ε (Prog S) α) (body : σ → Fallible ε (Prog S) (σ ⊕ α)) :
    Nat → σ → Fallible ε (Prog S) α
  | 0, _ => stuck
  | n + 1, s => body s >>= fun
    | .inl s' => loop stuck body n s'
    | .inr a => pure a

/-! ### Interfaces and their implementations -/

variable {T : Signature}

/-- Run a program over `T`, each operation by the program over `S` that `h` gives for it, with a
state of type `σ` that they share. -/
def handle (h : (o : T.Op) → σ → Fallible ε (Prog S) (T.Ans o × σ)) :
    Prog T α → σ → Fallible ε (Prog S) (α × σ)
  | .ret a, s => pure (a, s)
  | .op o k, s => h o s >>= fun p => handle h (k p.1) p.2

theorem performs_handle {P : S.Op → Prop} {h : (o : T.Op) → σ → Fallible ε (Prog S) (T.Ans o × σ)}
    (hP : ∀ o s, (h o s).run.Performs P) :
    (p : Prog T α) → (s : σ) → (handle h p s).run.Performs P
  | .ret _, _ => trivial
  | .op o k, s => performs_run_bind (hP o s) fun p => performs_handle hP (k p.1) p.2

end Runs

end ScorecardInfra.Interaction
