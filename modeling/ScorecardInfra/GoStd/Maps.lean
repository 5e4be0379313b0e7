import Mathlib.Data.List.AList
import Mathlib.Data.List.FinRange

/-!
# Maps and the order in which they are ranged over

A Go map is an association list without repeated keys (Mathlib's `AList`). A `range` loop visits
each entry once, in an order that the language leaves open and that differs from loop to loop: the
order is a permutation of the entries' positions (`visit`).

## Main results

* `mem_visit`, `visit_perm`: every order visits the same entries.
* `exists_visit_head`, `exists_visit_last`: every entry can be the first or the last one visited.
* `foldl_insert_eq_append_eraseDups`: collecting what has not been seen.
-/

namespace ScorecardInfra.GoStd

/-- A Go map from `κ` to `ν`. -/
abbrev GoMap (κ ν : Type) : Type := AList fun _ : κ => ν

namespace GoMap

variable {κ ν : Type}

/-- The orders in which a map can be ranged over. -/
abbrev Order (n : Nat) : Type := Equiv.Perm (Fin n)

/-- The order in which the entries are listed. -/
def Order.listed (n : Nat) : Order n := Equiv.refl (Fin n)

/-- The opposite order. -/
def Order.reversed (n : Nat) : Order n := Fin.revPerm

/-- The entries in the order `order`. -/
def visit (m : GoMap κ ν) (order : Order m.entries.length) : List (Σ _ : κ, ν) :=
  List.ofFn fun i => m.entries[order i]

theorem visit_perm (m : GoMap κ ν) (order : Order m.entries.length) :
    (m.visit order).Perm m.entries := by
  have h := Equiv.Perm.ofFn_comp_perm order m.entries.get
  rwa [List.ofFn_get] at h

theorem visit_listed (m : GoMap κ ν) : m.visit (Order.listed _) = m.entries :=
  List.ofFn_get m.entries

theorem mem_visit {m : GoMap κ ν} {order : Order m.entries.length} {e : Σ _ : κ, ν} :
    e ∈ m.visit order ↔ e ∈ m.entries :=
  (m.visit_perm order).mem_iff

/-- Every entry is the first one in some order. -/
theorem exists_visit_head {m : GoMap κ ν} {e : Σ _ : κ, ν} (he : e ∈ m.entries) :
    ∃ order rest, m.visit order = e :: rest := by
  obtain ⟨i, hi, rfl⟩ := List.getElem_of_mem he
  have hpos : 0 < m.entries.length := by omega
  let order : Order m.entries.length := Equiv.swap ⟨0, hpos⟩ ⟨i, hi⟩
  have hne : m.visit order ≠ [] := by
    simp only [visit, ne_eq, List.ofFn_eq_nil_iff]
    omega
  refine ⟨order, (m.visit order).tail, ?_⟩
  rw [← List.cons_head_tail hne, List.tail_cons]
  congr 1
  simp [visit, order, List.head_eq_getElem]

/-- Every entry is the last one in some order. -/
theorem exists_visit_last {m : GoMap κ ν} {e : Σ _ : κ, ν} (he : e ∈ m.entries) :
    ∃ order init, m.visit order = init ++ [e] := by
  obtain ⟨i, hi, rfl⟩ := List.getElem_of_mem he
  have hlast : m.entries.length - 1 < m.entries.length := by omega
  let order : Order m.entries.length := Equiv.swap ⟨m.entries.length - 1, hlast⟩ ⟨i, hi⟩
  have hne : m.visit order ≠ [] := by
    simp only [visit, ne_eq, List.ofFn_eq_nil_iff]
    omega
  have hlast : (m.visit order).getLast hne = m.entries[i] := by
    simp [visit, order, List.getLast_eq_getElem]
  refine ⟨order, (m.visit order).dropLast, ?_⟩
  rw [← hlast, List.dropLast_append_getLast]

end GoMap

/-! ### Lists of what has been seen -/

/-- Collecting what is not collected yet keeps the first occurrences. -/
theorem foldl_insert_eq_append_eraseDups {α : Type} [BEq α] [LawfulBEq α] (l acc : List α) :
    l.foldl (fun s x => if s.contains x then s else s ++ [x]) acc =
      acc ++ (l.filter fun x => !acc.contains x).eraseDups := by
  induction l generalizing acc with
  | nil => simp
  | cons x l ih =>
    rw [List.foldl_cons]
    by_cases hx : acc.contains x = true
    · rw [if_pos hx, ih, List.filter_cons_of_neg (by rw [hx]; decide)]
    · rw [Bool.not_eq_true] at hx
      rw [if_neg (by rw [hx]; decide), ih, List.filter_cons_of_pos (by rw [hx]; rfl),
        List.eraseDups_cons, List.filter_filter, List.append_assoc, List.singleton_append]
      congr 4
      funext y
      rw [List.contains_append, Bool.not_or, Bool.and_comm]
      simp

theorem nodup_eraseDups {α : Type} [BEq α] [LawfulBEq α] : (l : List α) → l.eraseDups.Nodup
  | [] => List.nodup_nil
  | x :: l => by
    rw [List.eraseDups_cons, List.nodup_cons]
    exact ⟨by simp [List.mem_eraseDups], nodup_eraseDups _⟩
termination_by l => l.length
decreasing_by exact Nat.lt_succ_of_le (List.length_filter_le _ l)

theorem eraseDups_of_nodup {α : Type} [BEq α] [LawfulBEq α] {l : List α} (h : l.Nodup) :
    l.eraseDups = l := by
  induction l with
  | nil => rfl
  | cons x l ih =>
    obtain ⟨hx, hl⟩ := List.nodup_cons.mp h
    have hfilter : l.filter (fun y => !y == x) = l := by
      refine List.filter_eq_self.mpr fun y hy => ?_
      rw [Bool.not_eq_true', beq_eq_false_iff_ne]
      rintro rfl
      exact hx hy
    rw [List.eraseDups_cons, hfilter, ih hl]

/-- Elements that are the first of a kind, and each of the other's kind, are the same. -/
theorem eq_of_find?_eq_some {α : Type} {p q : α → Bool} {l : List α} {a b : α}
    (ha : l.find? p = some a) (hb : l.find? q = some b) (hpb : p b = true) (hqa : q a = true) :
    a = b := by
  induction l with
  | nil => cases ha
  | cons x l ih =>
    by_cases hp : p x = true
    · obtain rfl : x = a := by simpa [List.find?_cons, hp] using ha
      simpa [List.find?_cons, hqa] using hb
    · by_cases hq : q x = true
      · obtain rfl : x = b := by simpa [List.find?_cons, hq] using hb
        exact absurd hpb hp
      · rw [List.find?_cons_of_neg hp] at ha
        rw [List.find?_cons_of_neg hq] at hb
        exact ih ha hb

end ScorecardInfra.GoStd
