import Mathlib.Algebra.Group.Int.Defs
import Mathlib.Algebra.GroupWithZero.Nat
import Mathlib.Data.Fintype.Basic
import Mathlib.Tactic.Common
import ScorecardInfra.Interaction.Failure

/-!
# Decimal numbers of fixed width, and times

`appendInt w n` is the decimal representation of a number, filled with zeros to `w` characters;
core's `Nat.ofDigitChars` reads it back (`ofDigitChars_appendInt`).

`Time` is a UTC time in the years 0 to 9999. `Time.format` and `Time.parse` are `time.Time.Format`
and `time.Parse` for the layout `2006.01.02/150405/`, in which every field has a fixed width;
parsing takes back what formatting writes, up to the fraction of a second (`parse_format`).

## Main definitions

* `appendInt`, `daysIn`, `Time`, `Time.truncate`, `Time.format`, `Time.parse`.

## Main results

* `appendInt_injective`, `parse_format`.
-/

namespace ScorecardInfra.GoStd

open Interaction

/-! ### Decimal numbers -/

/-- The decimal digits of `n`, filled with zeros on the left to `w` characters at least. -/
def appendInt (w n : Nat) : List Char :=
  List.replicate (w - (Nat.toDigits 10 n).length) '0' ++ Nat.toDigits 10 n

theorem ofDigitChars_appendInt (w n : Nat) : Nat.ofDigitChars 10 (appendInt w n) 0 = n := by
  rw [appendInt, Nat.ofDigitChars_append, Nat.ofDigitChars_replicate_zero, Nat.mul_zero,
    Nat.ofDigitChars_ten_toDigits]

/-- Different numbers have different representations. -/
theorem appendInt_injective (w : Nat) : Function.Injective (appendInt w) := by
  intro n m h
  rw [← ofDigitChars_appendInt w n, h, ofDigitChars_appendInt]

theorem isDigit_of_mem_appendInt {w n : Nat} {c : Char} (h : c ∈ appendInt w n) : c.isDigit := by
  rcases List.mem_append.mp h with h | h
  · rw [List.eq_of_mem_replicate h]
    decide
  · exact Nat.isDigit_of_mem_toDigits (by decide) (by decide) h

theorem length_appendInt {w n : Nat} (hw : 0 < w) (hn : n < 10 ^ w) :
    (appendInt w n).length = w := by
  have hlen := (Nat.length_toDigits_le_iff (by decide) hw).mpr hn
  rw [appendInt, List.length_append, List.length_replicate]
  omega

/-! ### Times -/

/-- The years with a 29th of February. -/
def isLeap (year : Nat) : Bool := year % 4 == 0 && (year % 100 != 0 || year % 400 == 0)

/-- `daysIn`. -/
def daysIn (month year : Nat) : Nat :=
  if month = 2 then if isLeap year then 29 else 28
  else if month ∈ [4, 6, 9, 11] then 30 else 31

/-- A UTC time in the years 0 to 9999. -/
@[ext] structure Time where
  year : Nat
  month : Nat
  day : Nat
  hour : Nat
  minute : Nat
  second : Nat
  nanosecond : Nat
  year_le : year ≤ 9999
  month_mem : 1 ≤ month ∧ month ≤ 12
  day_mem : 1 ≤ day ∧ day ≤ daysIn month year
  hour_le : hour ≤ 23
  minute_le : minute ≤ 59
  second_le : second ≤ 59
  nanosecond_le : nanosecond ≤ 999999999
  deriving DecidableEq

namespace Time

theorem zero_nanosecond_le : 0 ≤ 999999999 := Nat.zero_le _

/-- The time without its fraction of a second. -/
def truncate (t : Time) : Time :=
  { t with nanosecond := 0, nanosecond_le := zero_nanosecond_le }

/-- `Format` with the layout `2006.01.02/150405/`. -/
def format (t : Time) : List Char :=
  appendInt 4 t.year ++ '.' :: (appendInt 2 t.month ++ '.' :: (appendInt 2 t.day ++ '/' ::
    (appendInt 2 t.hour ++ (appendInt 2 t.minute ++ (appendInt 2 t.second ++ ['/'])))))

/-- Why a string is not a time. -/
inductive ParseError : Type
  | cannotParse
  | outOfRange (field : String)
  | extraText
  deriving DecidableEq, Repr

/-- A number of `w` digits, and the rest. -/
def getnum (w : Nat) (s : List Char) : Except ParseError (Nat × List Char) :=
  if (s.take w).length = w ∧ (s.take w).all Char.isDigit then
    .ok (Nat.ofDigitChars 10 (s.take w) 0, s.drop w)
  else .error .cannotParse

/-- What follows the character `c`. -/
def skip (c : Char) : List Char → Except ParseError (List Char)
  | [] => .error .cannotParse
  | x :: s => if x = c then .ok s else .error .cannotParse

/-- A field that lies in its range. -/
def inRange (field : String) (lo hi n : Nat) : Except ParseError (PLift (lo ≤ n ∧ n ≤ hi)) :=
  if h : lo ≤ n ∧ n ≤ hi then .ok ⟨h⟩ else .error (.outOfRange field)

/-- `time.Parse` with the layout `2006.01.02/150405/`. The hour may have one digit only before a
character that is not a digit, which this layout does not have; the year always is in its range. -/
def parse (s : List Char) : Except ParseError Time := do
  let (year, s) ← getnum 4 s
  let hyear ← inRange "year" 0 9999 year
  let s ← skip '.' s
  let (month, s) ← getnum 2 s
  let hmonth ← inRange "month" 1 12 month
  let s ← skip '.' s
  let (day, s) ← getnum 2 s
  let s ← skip '/' s
  let (hour, s) ← getnum 2 s
  let hhour ← inRange "hour" 0 23 hour
  let (minute, s) ← getnum 2 s
  let hminute ← inRange "minute" 0 59 minute
  let (second, s) ← getnum 2 s
  let hsecond ← inRange "second" 0 59 second
  let s ← skip '/' s
  refuseIf (!s.isEmpty) .extraText
  let hday ← inRange "day" 1 (daysIn month year) day
  return {
    year := year, month := month, day := day, hour := hour, minute := minute, second := second,
    nanosecond := 0, year_le := hyear.down.2, month_mem := hmonth.down, day_mem := hday.down,
    hour_le := hhour.down.2, minute_le := hminute.down.2, second_le := hsecond.down.2,
    nanosecond_le := by decide }

theorem getnum_appendInt {w n : Nat} (hw : 0 < w) (hn : n < 10 ^ w) (s : List Char) :
    getnum w (appendInt w n ++ s) = .ok (n, s) := by
  have hlen := length_appendInt hw hn
  rw [getnum, List.take_left' hlen, List.drop_left' hlen, ofDigitChars_appendInt, if_pos]
  exact ⟨hlen, List.all_eq_true.mpr fun c hc => isDigit_of_mem_appendInt hc⟩

theorem skip_cons (c : Char) (s : List Char) : skip c (c :: s) = .ok s := if_pos rfl

theorem inRange_of {field : String} {lo hi n : Nat} (h : lo ≤ n ∧ n ≤ hi) :
    inRange field lo hi n = .ok ⟨h⟩ := dif_pos h

theorem except_ok_bind {ε α β : Type} (a : α) (f : α → Except ε β) :
    (Except.ok a >>= f) = f a := rfl

theorem daysIn_le (month year : Nat) : daysIn month year ≤ 31 := by
  unfold daysIn
  split_ifs <;> omega

/-- Every field fits its width. -/
theorem fields_lt (t : Time) : t.year < 10 ^ 4 ∧ t.month < 10 ^ 2 ∧ t.day < 10 ^ 2 ∧
    t.hour < 10 ^ 2 ∧ t.minute < 10 ^ 2 ∧ t.second < 10 ^ 2 := by
  have := t.year_le
  have := t.month_mem
  have := t.day_mem
  have := daysIn_le t.month t.year
  have := t.hour_le
  have := t.minute_le
  have := t.second_le
  omega

/-- **Parsing a formatted time** gives the time, truncated to the second. -/
theorem parse_format (t : Time) : parse t.format = .ok t.truncate := by
  obtain ⟨hyear, hmonth, hday, hhour, hminute, hsecond⟩ := t.fields_lt
  simp only [parse, format, getnum_appendInt (by decide : 0 < 4) hyear,
    getnum_appendInt (by decide : 0 < 2) hmonth, getnum_appendInt (by decide : 0 < 2) hday,
    getnum_appendInt (by decide : 0 < 2) hhour, getnum_appendInt (by decide : 0 < 2) hminute,
    getnum_appendInt (by decide : 0 < 2) hsecond, skip_cons, except_ok_bind,
    inRange_of ⟨Nat.zero_le _, t.year_le⟩, inRange_of t.month_mem, inRange_of t.day_mem,
    inRange_of ⟨Nat.zero_le _, t.hour_le⟩, inRange_of ⟨Nat.zero_le _, t.minute_le⟩,
    inRange_of ⟨Nat.zero_le _, t.second_le⟩, List.isEmpty_nil, Bool.not_true, refuseIf, cond_false]
  rfl

theorem length_format (t : Time) : t.format.length = 18 := by
  obtain ⟨hyear, hmonth, hday, hhour, hminute, hsecond⟩ := t.fields_lt
  simp only [format, List.length_append, List.length_cons, List.length_nil,
    length_appendInt (by decide : 0 < 4) hyear, length_appendInt (by decide : 0 < 2) hmonth,
    length_appendInt (by decide : 0 < 2) hday, length_appendInt (by decide : 0 < 2) hhour,
    length_appendInt (by decide : 0 < 2) hminute, length_appendInt (by decide : 0 < 2) hsecond]

end Time

end ScorecardInfra.GoStd
