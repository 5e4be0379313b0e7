import ScorecardInfra.Interaction.Monitor

/-!
# Programs over one of two signatures

The operations of two signatures together form a signature (`Signature.sum`). A program over the
first of them is a program over both (`Prog.inl`). It has the same runs (`exec_inl`), so that what
is known of the runs of a program can be used where it runs beside programs over another signature.

## Main definitions

* `Signature.sum`, `Event.inl`, `Trace.lefts`, `Prog.inl`.

## Main results

* `exec_inl`, `Exec.lefts`.
-/

namespace ScorecardInfra.Interaction

variable {S T : Signature} {α β : Type}

/-- The operations of two signatures. -/
abbrev Signature.sum (S T : Signature) : Signature where
  Op := S.Op ⊕ T.Op
  Ans
    | .inl o => S.Ans o
    | .inr o => T.Ans o

/-- An event of the first signature. -/
def Event.inl (e : Event S) : Event (S.sum T) := ⟨.inl e.op, e.ans⟩

/-- The event, if it is one of the first signature. -/
def Event.left? : Event (S.sum T) → Option (Event S)
  | ⟨.inl o, x⟩ => some ⟨o, x⟩
  | ⟨.inr _, _⟩ => none

/-- The events of the first signature. -/
def Trace.lefts (t : Trace (S.sum T)) : Trace S := t.filterMap Event.left?

@[simp] theorem Trace.lefts_nil : Trace.lefts ([] : Trace (S.sum T)) = [] := rfl

@[simp] theorem Trace.lefts_append (t u : Trace (S.sum T)) :
    Trace.lefts (t ++ u) = Trace.lefts t ++ Trace.lefts u :=
  List.filterMap_append

theorem Trace.mem_lefts {t : Trace (S.sum T)} {o : S.Op} {x : S.Ans o} :
    ⟨o, x⟩ ∈ Trace.lefts t ↔ ⟨.inl o, x⟩ ∈ t := by
  rw [Trace.lefts, List.mem_filterMap]
  constructor
  · rintro ⟨⟨o' | o', x'⟩, hmem, he⟩
    · cases he
      exact hmem
    · cases he
  · exact fun h => ⟨_, h, rfl⟩

@[simp] theorem Trace.lefts_map_inl (t : Trace S) :
    Trace.lefts (t.map (Event.inl : Event S → Event (S.sum T))) = t := by
  induction t with
  | nil => rfl
  | cons e t ih => exact congrArg (e :: ·) ih

/-- A program over the first signature. -/
def Prog.inl : Prog S α → Prog (S.sum T) α
  | .ret a => .ret a
  | .op o k => .op (.inl o) fun x => (k x).inl

/-- **The runs** of a program over the first signature are its runs. -/
theorem exec_inl {p : Prog S α} {t : Trace (S.sum T)} {r : Option α} :
    Exec (p.inl : Prog (S.sum T) α) t r ↔ ∃ u, t = u.map Event.inl ∧ Exec p u r := by
  constructor
  · intro h
    induction p generalizing t with
    | ret a =>
      obtain ⟨rfl, hr⟩ := exec_ret_iff.mp h
      exact ⟨[], rfl, exec_ret_iff.mpr ⟨rfl, hr⟩⟩
    | op o k ih =>
      rcases exec_op_iff.mp h with ⟨rfl, rfl⟩ | ⟨x, t', rfl, h'⟩
      · exact ⟨[], rfl, .cut _⟩
      · obtain ⟨u, rfl, hu⟩ := ih x h'
        exact ⟨⟨o, x⟩ :: u, rfl, Exec.op (S := S) x hu⟩
  · rintro ⟨u, rfl, h⟩
    induction h with
    | cut p => exact .cut _
    | ret a => exact .ret a
    | @op o k x _ _ _ ih =>
      exact Exec.op (S := S.sum T) (o := .inl o) (k := fun x => (k x).inl) x ih

/-- The events of such a run are those of a run of the program. -/
theorem Exec.lefts {p : Prog S α} {t : Trace (S.sum T)} {r : Option α}
    (h : Exec (p.inl : Prog (S.sum T) α) t r) : Exec p (Trace.lefts t) r := by
  obtain ⟨u, rfl, hu⟩ := exec_inl.mp h
  rwa [Trace.lefts_map_inl]

end ScorecardInfra.Interaction
