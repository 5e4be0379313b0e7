import Mathlib.Data.List.Basic
import Mathlib.Tactic.Common

/-!
# UTF-8

A string of bytes is a list of characters, one for each byte. `runes` cuts it into the encodings of
its characters, as a `range` loop over a Go string does: a byte that starts no encoding stands
alone, and is read as the replacement character U+FFFD. `toValid` puts the encoding of that
character in its place, and is the identity on the valid strings only.

## Main definitions

* `tailRanges`, `IsRune`, `runes`, `toValid`, `valid`, `encodeRune`.

## Main results

* `runes_append`: an encoding at the front of a string is its first rune.
* `toValid_eq_self_iff`, `toValid_toValid`.
-/

namespace ScorecardInfra.GoStd.Utf8

/-! ### Encodings -/

/-- The ranges of the bytes that follow a first byte; `none` where no encoding starts with it. -/
def tailRanges (b : Nat) : Option (List (Nat × Nat)) :=
  if b ≤ 0x7F then some []
  else if 0xC2 ≤ b ∧ b ≤ 0xDF then some [(0x80, 0xBF)]
  else if b = 0xE0 then some [(0xA0, 0xBF), (0x80, 0xBF)]
  else if b = 0xED then some [(0x80, 0x9F), (0x80, 0xBF)]
  else if 0xE1 ≤ b ∧ b ≤ 0xEF then some [(0x80, 0xBF), (0x80, 0xBF)]
  else if b = 0xF0 then some [(0x90, 0xBF), (0x80, 0xBF), (0x80, 0xBF)]
  else if 0xF1 ≤ b ∧ b ≤ 0xF3 then some [(0x80, 0xBF), (0x80, 0xBF), (0x80, 0xBF)]
  else if b = 0xF4 then some [(0x80, 0x8F), (0x80, 0xBF), (0x80, 0xBF)]
  else none

/-- The first bytes of a string lie in the ranges. -/
def startsIn : List (Nat × Nat) → List Char → Bool
  | [], _ => true
  | _ :: _, [] => false
  | r :: ranges, c :: s => (r.1 ≤ c.toNat && c.toNat ≤ r.2) && startsIn ranges s

/-- The bytes of one character. -/
def IsRune (r : List Char) : Prop :=
  ∃ c s ranges, r = c :: s ∧ tailRanges c.toNat = some ranges ∧ s.length = ranges.length ∧
    startsIn ranges s

/-- The encoding of U+FFFD. -/
def replacement : List Char := ['\xef', '\xbf', '\xbd']

/-- `utf8.EncodeRune`. -/
def encodeRune (n : Nat) : List Char :=
  if n < 0x80 then [Char.ofNat n]
  else if n < 0x800 then [Char.ofNat (0xC0 + n / 64), Char.ofNat (0x80 + n % 64)]
  else if (0xD800 ≤ n ∧ n ≤ 0xDFFF) ∨ 0x10FFFF < n then replacement
  else if n < 0x10000 then
    [Char.ofNat (0xE0 + n / 4096), Char.ofNat (0x80 + n / 64 % 64), Char.ofNat (0x80 + n % 64)]
  else [Char.ofNat (0xF0 + n / 262144), Char.ofNat (0x80 + n / 4096 % 64),
    Char.ofNat (0x80 + n / 64 % 64), Char.ofNat (0x80 + n % 64)]

/-! ### Runes of a string -/

/-- The runes of a string after its first `k` bytes; `none` is a byte that starts no encoding. -/
def runesFrom : Nat → List Char → List (Option (List Char))
  | _, [] => []
  | k + 1, _ :: s => runesFrom k s
  | 0, c :: s => match tailRanges c.toNat with
    | some ranges =>
      if startsIn ranges s then some (c :: s.take ranges.length) :: runesFrom ranges.length s
      else none :: runesFrom 0 s
    | none => none :: runesFrom 0 s

/-- The runes of a string. -/
def runes (s : List Char) : List (Option (List Char)) := runesFrom 0 s

/-- The encoding that a rune is read as. -/
def runeBytes (x : Option (List Char)) : List Char := x.getD replacement

/-- The string with U+FFFD in the place of the bytes that start no encoding. -/
def toValid (s : List Char) : List Char := (runes s).flatMap runeBytes

/-- `utf8.Valid`. -/
def valid (s : List Char) : Bool := (runes s).all Option.isSome

theorem runesFrom_nil (k : Nat) : runesFrom k [] = [] := by cases k <;> rfl

theorem runesFrom_eq (k : Nat) (s : List Char) : runesFrom k s = runes (s.drop k) := by
  induction s generalizing k with
  | nil => rw [runesFrom_nil, List.drop_nil, runes, runesFrom_nil]
  | cons c s ih =>
    cases k with
    | zero => rfl
    | succ k => rw [runesFrom, ih, List.drop_succ_cons]

theorem startsIn_append {ranges : List (Nat × Nat)} {s : List Char} (t : List Char)
    (h : startsIn ranges s) : startsIn ranges (s ++ t) := by
  induction ranges generalizing s with
  | nil => rfl
  | cons r ranges ih =>
    cases s with
    | nil => cases h
    | cons c s =>
      rw [startsIn, Bool.and_eq_true] at h
      rw [List.cons_append, startsIn, Bool.and_eq_true]
      exact ⟨h.1, ih h.2⟩

theorem startsIn_take {ranges : List (Nat × Nat)} {s : List Char} (h : startsIn ranges s) :
    (s.take ranges.length).length = ranges.length ∧ startsIn ranges (s.take ranges.length) := by
  induction ranges generalizing s with
  | nil => exact ⟨rfl, rfl⟩
  | cons r ranges ih =>
    cases s with
    | nil => cases h
    | cons c s =>
      rw [startsIn, Bool.and_eq_true] at h
      obtain ⟨hlen, hstarts⟩ := ih h.2
      rw [List.length_cons, List.take_succ_cons, List.length_cons, hlen, startsIn, Bool.and_eq_true]
      exact ⟨rfl, h.1, hstarts⟩

/-- **Runes.** An encoding at the front of a string is its first rune. -/
theorem runes_append {r : List Char} (h : IsRune r) (s : List Char) :
    runes (r ++ s) = some r :: runes s := by
  obtain ⟨c, t, ranges, rfl, hranges, hlen, hstarts⟩ := h
  rw [List.cons_append, runes, runesFrom, hranges]
  dsimp only
  rw [if_pos (startsIn_append s hstarts), runesFrom_eq, ← hlen, List.take_left, List.drop_left]

theorem isRune_of_mem_runesFrom {k : Nat} {s r : List Char} (h : some r ∈ runesFrom k s) :
    IsRune r := by
  induction s generalizing k with
  | nil =>
    rw [runesFrom_nil] at h
    cases h
  | cons c s ih =>
    cases k with
    | succ k => exact ih h
    | zero =>
      rw [runesFrom] at h
      split at h
      next ranges hranges =>
        split_ifs at h with hstarts
        · rcases List.mem_cons.mp h with h | h
          · obtain rfl := Option.some.inj h
            exact ⟨c, _, ranges, rfl, hranges, startsIn_take hstarts⟩
          · exact ih h
        · exact ih (List.mem_of_ne_of_mem (Option.some_ne_none _) h)
      next => exact ih (List.mem_of_ne_of_mem (Option.some_ne_none _) h)

/-! ### Valid strings -/

theorem isRune_replacement : IsRune replacement :=
  ⟨_, _, [(0x80, 0xBF), (0x80, 0xBF)], rfl, by decide, rfl, by decide⟩

theorem isRune_runeBytes {x : Option (List Char)} {s : List Char} (h : x ∈ runes s) :
    IsRune (runeBytes x) := by
  cases x with
  | none => exact isRune_replacement
  | some r => exact isRune_of_mem_runesFrom h

/-- The runes of a string of encodings. -/
theorem runes_flatMap {xs : List (Option (List Char))} (h : ∀ x ∈ xs, IsRune (runeBytes x)) :
    runes (xs.flatMap runeBytes) = xs.map fun x => some (runeBytes x) := by
  induction xs with
  | nil => rfl
  | cons x xs ih =>
    rw [List.flatMap_cons, runes_append (h x List.mem_cons_self),
      ih fun y hy => h y (List.mem_cons_of_mem _ hy), List.map_cons]

theorem runes_toValid (s : List Char) :
    runes (toValid s) = (runes s).map fun x => some (runeBytes x) :=
  runes_flatMap fun _ => isRune_runeBytes

theorem toValid_toValid (s : List Char) : toValid (toValid s) = toValid s := by
  rw [toValid, runes_toValid, List.flatMap_map]
  rfl

theorem valid_toValid (s : List Char) : valid (toValid s) = true := by
  rw [valid, runes_toValid, List.all_map]
  exact List.all_eq_true.mpr fun _ _ => rfl

private theorem flatMap_runesFrom {k : Nat} {s : List Char}
    (h : (runesFrom k s).all Option.isSome) :
    (runesFrom k s).flatMap runeBytes = s.drop k := by
  induction s generalizing k with
  | nil => rw [runesFrom_nil, List.drop_nil, List.flatMap_nil]
  | cons c s ih =>
    cases k with
    | succ k => exact ih h
    | zero =>
      rw [runesFrom] at h ⊢
      split at h
      next ranges hranges =>
        split_ifs at h ⊢ with hstarts
        · rw [List.all_cons, Bool.and_eq_true] at h
          rw [List.flatMap_cons, ih h.2]
          exact congrArg (List.cons c) (List.take_append_drop ranges.length s)
        · cases h
      next => cases h

/-- A string is kept exactly if it is valid. -/
theorem toValid_eq_self_iff {s : List Char} : toValid s = s ↔ valid s = true := by
  constructor
  · intro h
    rw [← h]
    exact valid_toValid s
  · intro h
    rw [toValid, runes, flatMap_runesFrom h, List.drop_zero]

/-- An ASCII string is valid. -/
theorem valid_of_ascii {s : List Char} (h : ∀ c ∈ s, c.toNat < 0x80) : valid s = true := by
  induction s with
  | nil => rfl
  | cons c s ih =>
    have hc : IsRune [c] :=
      ⟨c, [], [], rfl, if_pos (Nat.le_of_lt_succ (h c List.mem_cons_self)), rfl, rfl⟩
    have hs := ih fun d hd => h d (List.mem_cons_of_mem _ hd)
    rw [valid, ← List.singleton_append, runes_append hc, List.all_cons, Bool.and_eq_true]
    exact ⟨rfl, hs⟩

end ScorecardInfra.GoStd.Utf8
