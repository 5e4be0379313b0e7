import Mathlib.Data.List.Basic
import Mathlib.Tactic.Common

/-!
# Programs that perform operations

A sequential program over a signature of operations either stops with a value or performs an
operation and goes on with the answer (`Prog`). The program says nothing about the answers: every
behaviour of the environment is one way to continue it.

* `Exec p t r` runs `p` along the trace `t` of performed operations and their answers; `r` is the
  result, or `none` where the run is cut off after `t`. Running a sequence splits the trace
  (`exec_bind`).
* `Prog.Performs P p` bounds the operations `p` can perform, whatever it is answered. An operation
  the first part of a sequence cannot perform happens after that part has returned
  (`Exec.split_bind`).
* `Leads p t q` says that `q` is what is left of `p` after `t`.
* `Prog.runWith` runs a program against an environment that answers by a function of the past, and
  gives a run (`exec_runWith`). A program that is answered in this way is on that run
  (`Leads.runWith_eq`). Where the past does not matter the result is a function of the answers
  (`Prog.eval`).

## Main definitions

* `Signature`, `Event`, `Trace`, `Prog`, `Prog.bind`, `perform`.
* `Exec`, `Prog.Performs`, `Leads`, `Prog.runWith`, `Prog.eval`, `Follows`.

## Main results

* `exec_bind`, `Exec.split_bind`, `Exec.mem_performs`, `exec_runWith`, `Leads.runWith_eq`.
-/

namespace ScorecardInfra.Interaction

/-- A signature: the operations a program may perform and the type of the answers to each. -/
structure Signature where
  Op : Type
  Ans : Op → Type

/-- An operation with the answer it got. -/
structure Event (S : Signature) where
  op : S.Op
  ans : S.Ans op

/-- The operations of a run with their answers, the first one first. -/
abbrev Trace (S : Signature) : Type := List (Event S)

/-- A sequential program over the operations of `S` with result type `α`. -/
inductive Prog (S : Signature) (α : Type) : Type
  | ret (a : α)
  | op (o : S.Op) (k : S.Ans o → Prog S α)

variable {S : Signature} {α β γ : Type}

namespace Prog

/-- Run `p`, then go on with its result. -/
def bind : Prog S α → (α → Prog S β) → Prog S β
  | .ret a, f => f a
  | .op o k, f => .op o fun x => (k x).bind f

instance : Monad (Prog S) where
  pure := .ret
  bind := Prog.bind

@[simp] theorem pure_eq (a : α) : (pure a : Prog S α) = .ret a := rfl

@[simp] theorem ret_bind (a : α) (f : α → Prog S β) : (Prog.ret a >>= f) = f a := rfl

@[simp] theorem op_bind (o : S.Op) (k : S.Ans o → Prog S α) (f : α → Prog S β) :
    (Prog.op o k >>= f) = .op o fun x => k x >>= f := rfl

theorem bind_ret : (p : Prog S α) → (p >>= Prog.ret) = p
  | .ret _ => rfl
  | .op o k => congrArg (Prog.op o) (funext fun x => bind_ret (k x))

theorem bind_assoc (f : α → Prog S β) (g : β → Prog S γ) :
    (p : Prog S α) → (p >>= f >>= g) = p >>= fun a => f a >>= g
  | .ret _ => rfl
  | .op o k => congrArg (Prog.op o) (funext fun x => bind_assoc f g (k x))

instance : LawfulMonad (Prog S) := LawfulMonad.mk' (Prog S)
  (fun p => bind_ret p) (fun _ _ => rfl) (fun p f g => bind_assoc f g p)

end Prog

/-- The program that performs one operation and returns the answer. -/
def perform (o : S.Op) : Prog S (S.Ans o) := .op o .ret

/-! ### Runs -/

/-- `Exec p t r`: the program `p` can perform the operations of `t`, answered as `t` says, and then
has returned `a` where `r = some a`, or is cut off there where `r = none`. -/
inductive Exec : Prog S α → Trace S → Option α → Prop
  | cut (p : Prog S α) : Exec p [] none
  | ret (a : α) : Exec (.ret a) [] (some a)
  | op {o : S.Op} {k : S.Ans o → Prog S α} (x : S.Ans o) {t : Trace S} {r : Option α}
      (h : Exec (k x) t r) : Exec (.op o k) (⟨o, x⟩ :: t) r

theorem exec_ret_iff {a : α} {t : Trace S} {r : Option α} :
    Exec (.ret a) t r ↔ t = [] ∧ (r = none ∨ r = some a) := by
  constructor
  · intro h
    cases h with
    | cut => exact ⟨rfl, Or.inl rfl⟩
    | ret => exact ⟨rfl, Or.inr rfl⟩
  · rintro ⟨rfl, rfl | rfl⟩
    exacts [.cut _, .ret a]

theorem exec_ret_some {a b : α} {t : Trace S} :
    Exec (.ret a) t (some b) ↔ t = [] ∧ b = a := by
  rw [exec_ret_iff]
  simp

theorem exec_op_iff {o : S.Op} {k : S.Ans o → Prog S α} {t : Trace S} {r : Option α} :
    Exec (.op o k) t r ↔
      (t = [] ∧ r = none) ∨ ∃ x t', t = ⟨o, x⟩ :: t' ∧ Exec (k x) t' r := by
  constructor
  · intro h
    cases h with
    | cut => exact Or.inl ⟨rfl, rfl⟩
    | op x h => exact Or.inr ⟨x, _, rfl, h⟩
  · rintro (⟨rfl, rfl⟩ | ⟨x, t', rfl, h⟩)
    exacts [.cut _, .op x h]

theorem exec_op_some {o : S.Op} {k : S.Ans o → Prog S α} {t : Trace S} {a : α} :
    Exec (.op o k) t (some a) ↔ ∃ x t', t = ⟨o, x⟩ :: t' ∧ Exec (k x) t' (some a) := by
  rw [exec_op_iff]
  simp

/-- Two programs run one after the other. -/
theorem Exec.bind {p : Prog S α} {f : α → Prog S β} {t₁ t₂ : Trace S} {a : α} {r : Option β}
    (hp : Exec p t₁ (some a)) (hf : Exec (f a) t₂ r) : Exec (p >>= f) (t₁ ++ t₂) r := by
  induction p generalizing t₁ with
  | ret b =>
    obtain ⟨rfl, rfl⟩ := exec_ret_some.mp hp
    exact hf
  | op o k ih =>
    obtain ⟨x, t', rfl, h⟩ := exec_op_some.mp hp
    exact .op x (ih x h)

/-- **Running a sequence.** A run of `p >>= f` is cut off inside `p`, or is a complete run of `p`
followed by a run of what `f` makes of its result. -/
theorem exec_bind {p : Prog S α} {f : α → Prog S β} {t : Trace S} {r : Option β} :
    Exec (p >>= f) t r ↔ (r = none ∧ Exec p t none) ∨
      ∃ t₁ a t₂, t = t₁ ++ t₂ ∧ Exec p t₁ (some a) ∧ Exec (f a) t₂ r := by
  constructor
  · intro h
    induction p generalizing t with
    | ret a => exact Or.inr ⟨[], a, t, rfl, .ret a, h⟩
    | op o k ih =>
      rcases exec_op_iff.mp h with ⟨rfl, rfl⟩ | ⟨x, t', rfl, h'⟩
      · exact Or.inl ⟨rfl, .cut _⟩
      · rcases ih x h' with ⟨rfl, hk⟩ | ⟨t₁, a, t₂, rfl, hk, hf⟩
        · exact Or.inl ⟨rfl, .op x hk⟩
        · exact Or.inr ⟨_ :: t₁, a, t₂, rfl, .op x hk, hf⟩
  · rintro (⟨rfl, h⟩ | ⟨t₁, a, t₂, rfl, hp, hf⟩)
    · induction p generalizing t with
      | ret a =>
        obtain ⟨rfl, -⟩ := exec_ret_iff.mp h
        exact .cut _
      | op o k ih =>
        rcases exec_op_iff.mp h with ⟨rfl, -⟩ | ⟨x, t', rfl, h'⟩
        exacts [.cut _, .op x (ih x h')]
    · exact hp.bind hf

theorem exec_bind_some {p : Prog S α} {f : α → Prog S β} {t : Trace S} {b : β} :
    Exec (p >>= f) t (some b) ↔
      ∃ t₁ a t₂, t = t₁ ++ t₂ ∧ Exec p t₁ (some a) ∧ Exec (f a) t₂ (some b) := by
  rw [exec_bind]
  simp

theorem exec_map_some {p : Prog S α} {f : α → β} {t : Trace S} {b : β} :
    Exec (f <$> p) t (some b) ↔ ∃ a, Exec p t (some a) ∧ f a = b := by
  rw [map_eq_pure_bind, exec_bind_some]
  constructor
  · rintro ⟨t₁, a, t₂, rfl, h₁, h₂⟩
    obtain ⟨rfl, rfl⟩ := exec_ret_some.mp h₂
    exact ⟨a, by rwa [List.append_nil], rfl⟩
  · rintro ⟨a, h, rfl⟩
    exact ⟨t, a, [], (List.append_nil t).symm, h, .ret _⟩

theorem Exec.of_map {p : Prog S α} {f : α → β} {t : Trace S} {r : Option β}
    (h : Exec (f <$> p) t r) : ∃ r', Exec p t r' := by
  rw [map_eq_pure_bind] at h
  rcases exec_bind.mp h with ⟨-, h⟩ | ⟨t₁, a, t₂, rfl, h₁, h₂⟩
  · exact ⟨none, h⟩
  · obtain ⟨rfl, -⟩ := exec_ret_iff.mp h₂
    exact ⟨some a, by rwa [List.append_nil]⟩

/-- The complete run of a program is determined by any trace that it begins. -/
theorem Exec.complete_unique {p : Prog S α} {t₁ t₂ u₁ u₂ : Trace S} {a b : α}
    (h₁ : Exec p t₁ (some a)) (h₂ : Exec p t₂ (some b)) (h : t₁ ++ u₁ = t₂ ++ u₂) :
    t₁ = t₂ ∧ a = b := by
  induction p generalizing t₁ t₂ with
  | ret c =>
    obtain ⟨rfl, rfl⟩ := exec_ret_some.mp h₁
    obtain ⟨rfl, rfl⟩ := exec_ret_some.mp h₂
    exact ⟨rfl, rfl⟩
  | op o k ih =>
    obtain ⟨x, t₁', rfl, h₁'⟩ := exec_op_some.mp h₁
    obtain ⟨y, t₂', rfl, h₂'⟩ := exec_op_some.mp h₂
    obtain ⟨he, ht⟩ := List.cons_eq_cons.mp h
    obtain rfl := eq_of_heq (Event.mk.inj he).2
    obtain ⟨rfl, rfl⟩ := ih x h₁' h₂' ht
    exact ⟨rfl, rfl⟩

/-! ### The operations a program can perform -/

namespace Prog

/-- Every operation that the program can perform, under any answers, satisfies `P`. -/
def Performs (P : S.Op → Prop) : Prog S α → Prop
  | .ret _ => True
  | .op o k => P o ∧ ∀ x, (k x).Performs P

@[simp] theorem performs_ret (P : S.Op → Prop) (a : α) : (Prog.ret a : Prog S α).Performs P :=
  trivial

@[simp] theorem performs_perform (P : S.Op → Prop) (o : S.Op) :
    (perform o : Prog S (S.Ans o)).Performs P ↔ P o :=
  ⟨fun h => h.1, fun h => ⟨h, fun _ => trivial⟩⟩

theorem Performs.bind {P : S.Op → Prop} {p : Prog S α} {f : α → Prog S β} (hp : p.Performs P)
    (hf : ∀ a, (f a).Performs P) : (p >>= f).Performs P := by
  induction p with
  | ret a => exact hf a
  | op o k ih => exact ⟨hp.1, fun x => ih x (hp.2 x)⟩

theorem Performs.mono {P Q : S.Op → Prop} {p : Prog S α} (hp : p.Performs P)
    (h : ∀ o, P o → Q o) : p.Performs Q := by
  induction p with
  | ret a => trivial
  | op o k ih => exact ⟨h o hp.1, fun x => ih x (hp.2 x)⟩

end Prog

/-- The operations of a run are ones that the program can perform. -/
theorem Exec.mem_performs {P : S.Op → Prop} {p : Prog S α} {t : Trace S} {r : Option α}
    (h : Exec p t r) (hp : p.Performs P) : ∀ e ∈ t, P e.op := by
  induction h with
  | cut | ret => simp
  | op x h ih =>
    intro e he
    rcases List.mem_cons.mp he with rfl | he
    exacts [hp.1, ih (hp.2 x) e he]

/-- **What happens after the first part.** In a run of `p >>= f` an operation that `p` cannot
perform comes after `p` has returned. -/
theorem Exec.split_bind {P : S.Op → Prop} {p : Prog S α} {f : α → Prog S β}
    {pre post : Trace S} {e : Event S} {r : Option β} (h : Exec (p >>= f) (pre ++ e :: post) r)
    (hp : p.Performs P) (he : ¬P e.op) :
    ∃ t₁ a pre', pre = t₁ ++ pre' ∧ Exec p t₁ (some a) ∧ Exec (f a) (pre' ++ e :: post) r := by
  rcases exec_bind.mp h with ⟨-, h'⟩ | ⟨t₁, a, t₂, ht, h₁, h₂⟩
  · exact absurd (h'.mem_performs hp e (by simp)) he
  · rcases List.append_eq_append_iff.mp ht with ⟨m, rfl, hm⟩ | ⟨m, rfl, rfl⟩
    · cases m with
      | nil => exact ⟨pre, a, [], by simp, by simpa using h₁, by simpa [hm] using h₂⟩
      | cons e' m =>
        obtain ⟨rfl, -⟩ := List.cons_eq_cons.mp hm
        exact absurd (h₁.mem_performs hp e (by simp)) he
    · exact ⟨t₁, a, m, rfl, h₁, h₂⟩

/-! ### What is left of a program -/

/-- `Leads p t q`: the program `p`, having performed the operations of `t` with these answers, goes
on as `q`. -/
inductive Leads (p : Prog S α) : Trace S → Prog S α → Prop
  | start : Leads p [] p
  | snoc {t : Trace S} {o : S.Op} {k : S.Ans o → Prog S α} (h : Leads p t (.op o k))
      (x : S.Ans o) : Leads p (t ++ [⟨o, x⟩]) (k x)

/-- What is left is run after what has been performed. -/
theorem Leads.exec {p q : Prog S α} {t u : Trace S} {r : Option α} (h : Leads p t q)
    (hq : Exec q u r) : Exec p (t ++ u) r := by
  induction h generalizing u with
  | start => exact hq
  | snoc h x ih =>
    rw [List.append_assoc]
    exact ih (.op x hq)

theorem Leads.cons {o : S.Op} {k : S.Ans o → Prog S α} {q : Prog S α} {t : Trace S} (x : S.Ans o)
    (h : Leads (k x) t q) : Leads (.op o k) (⟨o, x⟩ :: t) q := by
  induction h with
  | start => exact .snoc (t := []) .start x
  | snoc _ y ih => exact .snoc ih y

/-- What is left is determined by what has been performed. -/
theorem Leads.unique {p q q' : Prog S α} {t : Trace S} (h : Leads p t q) (h' : Leads p t q') :
    q = q' := by
  induction h generalizing q' with
  | start =>
    generalize ht : ([] : Trace S) = t at h'
    cases h' with
    | start => rfl
    | snoc => simp at ht
  | @snoc t o k h x ih =>
    generalize ht : t ++ [⟨o, x⟩] = u at h'
    cases h' with
    | start => simp at ht
    | @snoc t' o' k' h' x' =>
      obtain ⟨rfl, he⟩ := List.append_inj' ht rfl
      obtain ⟨rfl, hk⟩ := Prog.op.inj (ih h')
      obtain rfl := eq_of_heq hk
      obtain ⟨-, hx⟩ := Event.mk.inj (List.cons_eq_cons.mp he).1
      rw [eq_of_heq hx]

/-! ### Environments -/

namespace Prog

/-- Run `p` after `past` against an environment that answers each operation by a function of the
trace so far, or not at all; the operations `p` performs, and its result if it gets there. -/
def runWith (env : Trace S → (o : S.Op) → Option (S.Ans o)) : Prog S α → Trace S →
    Trace S × Option α
  | .ret a, _ => ([], some a)
  | .op o k, past => match env past o with
    | none => ([], none)
    | some x =>
      let rest := (k x).runWith env (past ++ [⟨o, x⟩])
      (⟨o, x⟩ :: rest.1, rest.2)

end Prog

theorem exec_runWith (env : Trace S → (o : S.Op) → Option (S.Ans o)) (p : Prog S α)
    (past : Trace S) : Exec p (p.runWith env past).1 (p.runWith env past).2 := by
  induction p generalizing past with
  | ret a => exact .ret a
  | op o k ih =>
    rw [Prog.runWith]
    split
    · exact .cut _
    · exact .op _ (ih _ _)

/-- An environment that always answers leads to a result. -/
theorem exists_runWith_eq_some (env : Trace S → (o : S.Op) → S.Ans o) (p : Prog S α)
    (past : Trace S) : ∃ a, (p.runWith (fun t o => some (env t o)) past).2 = some a := by
  induction p generalizing past with
  | ret a => exact ⟨a, rfl⟩
  | op o k ih => exact ih _ _

theorem exists_exec_runWith (env : Trace S → (o : S.Op) → S.Ans o) (p : Prog S α) (past : Trace S) :
    ∃ a, Exec p (p.runWith (fun t o => some (env t o)) past).1 (some a) := by
  obtain ⟨a, ha⟩ := exists_runWith_eq_some env p past
  exact ⟨a, ha ▸ exec_runWith _ p past⟩

namespace Prog

/-- The result of `p` where each operation has one answer, whatever has happened before. -/
def eval (ans : (o : S.Op) → S.Ans o) : Prog S α → α
  | .ret a => a
  | .op o k => (k (ans o)).eval ans

theorem eval_bind (ans : (o : S.Op) → S.Ans o) (p : Prog S α) (f : α → Prog S β) :
    (p >>= f).eval ans = (f (p.eval ans)).eval ans := by
  induction p with
  | ret a => rfl
  | op o k ih => exact ih (ans o)

end Prog

/-- `Follows env t`: the answers along `t` are those of the environment. -/
inductive Follows (env : Trace S → (o : S.Op) → Option (S.Ans o)) : Trace S → Prop
  | nil : Follows env []
  | snoc {t : Trace S} {o : S.Op} {x : S.Ans o} (h : Follows env t) (hx : env t o = some x) :
      Follows env (t ++ [⟨o, x⟩])

theorem Follows.exists_eq {env : Trace S → (o : S.Op) → Option (S.Ans o)} {t : Trace S}
    {e : Event S} (h : Follows env t) (he : e ∈ t) : ∃ past, env past e.op = some e.ans := by
  induction h with
  | nil => exact absurd he List.not_mem_nil
  | snoc h hx ih =>
    rcases List.mem_append.mp he with he | he
    · exact ih he
    · rw [List.mem_singleton.mp he]
      exact ⟨_, hx⟩

/-- Every answer is one that the environment gives. -/
theorem exists_eq_of_mem_runWith {env : Trace S → (o : S.Op) → Option (S.Ans o)} {p : Prog S α}
    {past : Trace S} {e : Event S} (h : e ∈ (p.runWith env past).1) :
    ∃ past', env past' e.op = some e.ans := by
  induction p generalizing past with
  | ret a => exact absurd h List.not_mem_nil
  | op o k ih =>
    rw [Prog.runWith] at h
    split at h
    · exact absurd h List.not_mem_nil
    · rename_i x hx
      rcases List.mem_cons.mp h with rfl | h
      exacts [⟨past, hx⟩, ih _ h]

/-- A program that is answered by an environment is on its run against it. -/
theorem Leads.runWith_eq {env : Trace S → (o : S.Op) → Option (S.Ans o)} {p q : Prog S α}
    {t : Trace S} (h : Leads p t q) (ht : Follows env t) :
    p.runWith env [] = (t ++ (q.runWith env t).1, (q.runWith env t).2) := by
  induction h with
  | start => rfl
  | @snoc t o k h x ih =>
    generalize hu : t ++ [⟨o, x⟩] = u at ht
    cases ht with
    | nil => simp at hu
    | @snoc t' o' x' ht' hx' =>
      obtain ⟨rfl, he⟩ := List.append_inj' hu rfl
      obtain ⟨rfl, hx⟩ := Event.mk.inj (List.cons_eq_cons.mp he).1
      obtain rfl := eq_of_heq hx
      rw [ih ht', Prog.runWith, hx', List.append_assoc]
      rfl

end ScorecardInfra.Interaction
