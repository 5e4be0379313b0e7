import Mathlib.Data.List.Perm.Basic
import Mathlib.Tactic.Common

/-!
# Slices, their capacity, and `rand.Shuffle`

A slice is a part of an array that may be longer. `append` puts its element into that array if there
is room, and else into a new one that may have room for more; a slice expression may reach as far as
the array does, past the elements of the slice. `rand.Shuffle` asks for random swaps.

## Main definitions

* `Slice`, `Slice.append`, `Slice.upTo`, `shuffle`.

## Main results

* `Slice.elems_foldl_append`: the elements of a slice that is built by `append`.
* `shuffle_swap_perm`: a list whose elements are swapped is permuted.
-/

namespace ScorecardInfra.GoStd

variable {α : Type}

/-! ### Slices -/

/-- A slice, and what the array holds after its elements. -/
structure Slice (α : Type) where
  elems : List α
  spare : List α

namespace Slice

/-- `nil`. -/
def empty : Slice α := ⟨[], []⟩

/-- `append` of an element. A new array has room for `grow n` zero values more than it needs. -/
def append (grow : Nat → Nat) (zero : α) (s : Slice α) (x : α) : Slice α :=
  match s.spare with
  | [] => ⟨s.elems ++ [x], List.replicate (grow s.elems.length) zero⟩
  | _ :: spare => ⟨s.elems ++ [x], spare⟩

/-- `s[:n]`; `none` where it panics. -/
def upTo (s : Slice α) (n : Int) : Option (List α) :=
  if 0 ≤ n ∧ n ≤ (s.elems ++ s.spare).length then some ((s.elems ++ s.spare).take n.toNat) else none

@[simp] theorem elems_append (grow : Nat → Nat) (zero : α) (s : Slice α) (x : α) :
    (append grow zero s x).elems = s.elems ++ [x] := by
  unfold append
  split <;> rfl

/-- **Elements that are appended** one after the other. -/
theorem elems_foldl_append (grow : Nat → Nat) (zero : α) (xs : List α) (s : Slice α) :
    (xs.foldl (append grow zero) s).elems = s.elems ++ xs := by
  induction xs generalizing s with
  | nil => rw [List.foldl_nil, List.append_nil]
  | cons x xs ih => rw [List.foldl_cons, ih, elems_append, List.append_assoc,
      List.singleton_append]

end Slice

/-! ### `rand.Shuffle` -/

/-- The loop of `rand.Shuffle`, down from the element `i`; `draw i` is the random number that is at
most `i`. -/
def shuffleFrom {σ : Type} (draw : (i : Nat) → Fin (i + 1)) (swap : Nat → Nat → σ → σ) :
    Nat → σ → σ
  | 0, s => s
  | i + 1, s => shuffleFrom draw swap i (swap (i + 1) (draw (i + 1)) s)

/-- `rand.Shuffle` of `n` elements. -/
def shuffle {σ : Type} (draw : (i : Nat) → Fin (i + 1)) (n : Nat) (swap : Nat → Nat → σ → σ)
    (s : σ) : σ := shuffleFrom draw swap (n - 1) s

/-- A list whose elements are swapped is permuted. -/
theorem shuffle_swap_perm (draw : (i : Nat) → Fin (i + 1)) (n : Nat) (s : List α) :
    (shuffle draw n (fun i j s => s.swap i j) s).Perm s := by
  rw [shuffle]
  generalize n - 1 = i
  induction i generalizing s with
  | zero => exact .refl s
  | succ i ih => exact (ih _).trans (List.swap_perm s _ _)

end ScorecardInfra.GoStd
