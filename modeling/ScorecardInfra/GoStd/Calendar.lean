import Mathlib.Algebra.BigOperators.Group.List.Basic
import Mathlib.Tactic.Ring
import ScorecardInfra.GoStd.Time

/-!
# Days, instants and the layouts of dates

An instant is a number of nanoseconds since the beginning of 1970 in UTC. `Date` is a day of the
Gregorian calendar of any year; `Date.format` writes it in the layout `2006-01-02`, and
`parseRFC3339` reads an instant in the layout `2006-01-02T15:04:05Z07:00`, with the fraction of a
second, the hours of one digit and the offsets that `time.Parse` accepts there. A time in that
layout is read back (`parseRFC3339_formatRFC3339`); a date alone is in no case
(`parseRFC3339_date`).

## Main definitions

* `Date`, `Date.unixDay`, `Date.midnight`, `Date.format`, `DateTime`.
* `Time.formatRFC3339`, `parseRFC3339`, `durationSince`.

## Main results

* `parseRFC3339_formatRFC3339`, `parseRFC3339_date`.
-/

namespace ScorecardInfra.GoStd

open Time

/-! ### Days -/

/-- A day of the Gregorian calendar; leap years come back every 400 years. -/
@[ext] structure Date where
  year : Int
  month : Nat
  day : Nat
  month_mem : 1 ≤ month ∧ month ≤ 12
  day_mem : 1 ≤ day ∧ day ≤ daysIn month (year % 400).toNat

instance : DecidableEq Date := fun d d' =>
  decidable_of_iff (d.year = d'.year ∧ d.month = d'.month ∧ d.day = d'.day)
    ⟨fun h => Date.ext h.1 h.2.1 h.2.2, fun h => h ▸ ⟨rfl, rfl, rfl⟩⟩

/-- The days from the beginning of the year 1 to that of `year`. -/
def daysBeforeYear (year : Int) : Int :=
  365 * (year - 1) + (year - 1) / 4 - (year - 1) / 100 + (year - 1) / 400

/-- The days of a year before a month. -/
def daysBeforeMonth (year month : Nat) : Nat :=
  ((List.range' 1 (month - 1)).map fun m => daysIn m year).sum

/-- The number of a day, from the first of January 1970 on. -/
def unixDay (year : Int) (month day : Nat) : Int :=
  daysBeforeYear year + daysBeforeMonth (year % 400).toNat month + (day - 1) - daysBeforeYear 1970

/-- The nanoseconds of a second. -/
def secondNanos : Int := 1000000000

/-- An instant, from its UTC fields. -/
def instantOf (year : Int) (month day hour minute second nanosecond : Nat) : Int :=
  (((unixDay year month day * 24 + hour) * 60 + minute) * 60 + second) * secondNanos + nanosecond

namespace Date

/-- The instant at which a day begins in UTC. -/
def midnight (d : Date) : Int := instantOf d.year d.month d.day 0 0 0 0

/-- `appendInt` of a year, which has a sign before the beginning of the era. -/
def formatYear (year : Int) : List Char :=
  (if year < 0 then ['-'] else []) ++ appendInt 4 year.natAbs

/-- `Format` with the layout `2006-01-02`. -/
def format (d : Date) : List Char :=
  formatYear d.year ++ '-' :: (appendInt 2 d.month ++ '-' :: appendInt 2 d.day)

end Date

/-- A UTC time: its day, and the nanoseconds since the day began. -/
structure DateTime where
  date : Date
  nanos : Nat
  nanos_lt : nanos < 24 * 60 * 60 * 1000000000

/-- The instant. -/
def DateTime.unixNano (t : DateTime) : Int := t.date.midnight + t.nanos

/-! ### The layout RFC3339 -/

/-- `Format` with the layout `time.RFC3339`, in UTC. -/
def Time.formatRFC3339 (t : Time) : List Char :=
  appendInt 4 t.year ++ '-' :: (appendInt 2 t.month ++ '-' :: (appendInt 2 t.day ++ 'T' ::
    (appendInt 2 t.hour ++ ':' ::
      (appendInt 2 t.minute ++ ':' :: (appendInt 2 t.second ++ ['Z'])))))

/-- The instant. -/
def Time.unixNano (t : Time) : Int :=
  instantOf t.year t.month t.day t.hour t.minute t.second t.nanosecond

/-- A number of two digits, or of one if no second digit follows. -/
def getHour (s : List Char) : Except ParseError (Nat × List Char) :=
  if ((s.drop 1).take 1).any Char.isDigit then getnum 2 s else getnum 1 s

/-- The nanoseconds that the digits after the point stand for; digits after the ninth are dropped.
-/
def fractionNanos (digits : List Char) : Nat :=
  Nat.ofDigitChars 10 (digits.take 9) 0 * 10 ^ (9 - digits.length)

/-- A fraction of a second, which the layout does not have but the text may. -/
def getFraction (s : List Char) : Nat × List Char :=
  if (s.head? = some '.' ∨ s.head? = some ',') ∧ ((s.drop 1).take 1).any Char.isDigit then
    (fractionNanos ((s.drop 1).takeWhile Char.isDigit), (s.drop 1).dropWhile Char.isDigit)
  else (0, s)

/-- The seconds that an offset to UTC stands for. -/
def offsetSeconds (sign : Char) (hour minute : Nat) : Except ParseError Int :=
  if sign = '+' then .ok ((hour * 60 + minute) * 60)
  else if sign = '-' then .ok (-((hour * 60 + minute) * 60))
  else .error .cannotParse

/-- An offset to UTC in seconds. -/
def getZone : List Char → Except ParseError (Int × List Char)
  | [] => .error .cannotParse
  | c :: s =>
    if c = 'Z' then .ok (0, s)
    else do
      let (hour, s) ← getnum 2 s
      let s ← skip ':' s
      let (minute, s) ← getnum 2 s
      let _ ← inRange "time zone offset hour" 0 24 hour
      let _ ← inRange "time zone offset minute" 0 60 minute
      let offset ← offsetSeconds c hour minute
      return (offset, s)

/-- `time.Parse` with the layout `time.RFC3339`. -/
def parseRFC3339 (s : List Char) : Except ParseError Int := do
  let (year, s) ← getnum 4 s
  let s ← skip '-' s
  let (month, s) ← getnum 2 s
  let _ ← inRange "month" 1 12 month
  let s ← skip '-' s
  let (day, s) ← getnum 2 s
  let s ← skip 'T' s
  let (hour, s) ← getHour s
  let _ ← inRange "hour" 0 23 hour
  let s ← skip ':' s
  let (minute, s) ← getnum 2 s
  let _ ← inRange "minute" 0 59 minute
  let s ← skip ':' s
  let (second, s) ← getnum 2 s
  let _ ← inRange "second" 0 59 second
  let fraction := getFraction s
  let (offset, s) ← getZone fraction.2
  Interaction.refuseIf (!s.isEmpty) .extraText
  let _ ← inRange "day" 1 (daysIn month year) day
  return instantOf year month day hour minute second fraction.1 - offset * secondNanos

/-- `Sub`, between the least and the greatest `time.Duration`. -/
def durationSince (now t : Int) : Int := max (-2 ^ 63) (min (2 ^ 63 - 1) (now - t))

theorem durationSince_le_iff {now t d : Int} (hlow : -2 ^ 63 ≤ d) (hhigh : d < 2 ^ 63 - 1) :
    durationSince now t ≤ d ↔ now - t ≤ d := by
  rw [durationSince]
  omega

/-- A date is an ASCII string. -/
theorem Date.ascii_format (d : Date) : ∀ c ∈ d.format, c.toNat < 0x80 := by
  have hdigit : ∀ c : Char, c.isDigit = true → c.toNat < 0x80 := by
    intro c hc
    have h9 : c.toNat ≤ '9'.toNat := by
      simp only [Char.isDigit, Bool.and_eq_true, decide_eq_true_eq] at hc
      exact hc.2
    exact Nat.lt_of_le_of_lt h9 (by decide)
  have hnumber : ∀ w n, ∀ c ∈ appendInt w n, c.toNat < 0x80 :=
    fun w n c hc => hdigit c (isDigit_of_mem_appendInt hc)
  intro c hc
  simp only [Date.format, Date.formatYear, List.mem_append, List.mem_cons] at hc
  rcases hc with (hc | hc) | rfl | hc | rfl | hc
  · split_ifs at hc
    · rw [List.mem_singleton.mp hc]
      decide
    · cases hc
  · exact hnumber _ _ c hc
  · decide
  · exact hnumber _ _ c hc
  · decide
  · exact hnumber _ _ c hc

/-! ### Reading dates -/

private theorem getHour_appendInt {n : Nat} (hn : n < 10 ^ 2) (s : List Char) :
    getHour (appendInt 2 n ++ s) = .ok (n, s) := by
  have hlen := length_appendInt (by decide : 0 < 2) hn
  have hdigit : (((appendInt 2 n ++ s).drop 1).take 1).any Char.isDigit = true := by
    obtain ⟨a, b, h⟩ := List.length_eq_two.mp hlen
    have hb : b.isDigit = true := isDigit_of_mem_appendInt (w := 2) (n := n) (by simp [h])
    simp [h, hb]
  rw [getHour, if_pos hdigit, getnum_appendInt (by decide) hn]

/-- **Round trip.** A time in the layout is read back, up to the fraction of a second. -/
theorem parseRFC3339_formatRFC3339 (t : Time) :
    parseRFC3339 t.formatRFC3339 = .ok t.truncate.unixNano := by
  obtain ⟨hyear, hmonth, hday, hhour, hminute, hsecond⟩ := t.fields_lt
  have hzone : getZone ['Z'] = .ok (0, []) := rfl
  have hfraction : getFraction ['Z'] = (0, ['Z']) := rfl
  simp only [parseRFC3339, Time.formatRFC3339, getnum_appendInt (by decide : 0 < 4) hyear,
    getnum_appendInt (by decide : 0 < 2) hmonth, getnum_appendInt (by decide : 0 < 2) hday,
    getHour_appendInt hhour, getnum_appendInt (by decide : 0 < 2) hminute,
    getnum_appendInt (by decide : 0 < 2) hsecond, skip_cons, except_ok_bind, inRange_of t.month_mem,
    inRange_of t.day_mem, inRange_of ⟨Nat.zero_le _, t.hour_le⟩,
    inRange_of ⟨Nat.zero_le _, t.minute_le⟩, inRange_of ⟨Nat.zero_le _, t.second_le⟩,
    hfraction, hzone,
    List.isEmpty_nil, Bool.not_true, Interaction.refuseIf, cond_false]
  simp only [Time.unixNano, Time.truncate, Int.zero_mul, Int.sub_zero]
  rfl

/-- The digits of a year of more than four digits go on after the fourth. -/
private theorem skip_longYear {n : Nat} (h : 10 ^ 4 ≤ n) (s : List Char) :
    ∃ x rest, getnum 4 (appendInt 4 n ++ s) = .ok (x, rest) ∧
      skip '-' rest = .error .cannotParse := by
  have hlen : 4 < (appendInt 4 n).length := by
    have hdigits : ¬(Nat.toDigits 10 n).length ≤ 4 := by
      rw [Nat.length_toDigits_le_iff (by decide) (by decide)]
      omega
    rw [appendInt, List.length_append]
    omega
  have htake : (appendInt 4 n ++ s).take 4 = (appendInt 4 n).take 4 :=
    List.take_append_of_le_length (Nat.le_of_lt hlen)
  have hdrop : (appendInt 4 n ++ s).drop 4 = (appendInt 4 n).drop 4 ++ s :=
    List.drop_append_of_le_length (Nat.le_of_lt hlen)
  have hall : ((appendInt 4 n).take 4).all Char.isDigit = true :=
    List.all_eq_true.mpr fun c hc => isDigit_of_mem_appendInt (List.mem_of_mem_take hc)
  obtain ⟨c, t, hc⟩ := List.exists_cons_of_length_pos (l := (appendInt 4 n).drop 4)
    (by rw [List.length_drop]; omega)
  have hdigit : c.isDigit = true :=
    isDigit_of_mem_appendInt (w := 4) (n := n) (List.mem_of_mem_drop (i := 4) (by simp [hc]))
  refine ⟨Nat.ofDigitChars 10 ((appendInt 4 n).take 4) 0, (appendInt 4 n).drop 4 ++ s, ?_, ?_⟩
  · rw [getnum, htake, hdrop, if_pos ⟨List.length_take_of_le (Nat.le_of_lt hlen), hall⟩]
  · rw [hc, List.cons_append, skip, if_neg]
    rintro rfl
    exact absurd hdigit (by decide)

/-- **Dates alone.** No date in the layout `2006-01-02` is a time in the layout `time.RFC3339`. -/
theorem parseRFC3339_date (d : Date) : ∃ e, parseRFC3339 d.format = .error e := by
  have hbind : ∀ {α β : Type} (e : ParseError) (f : α → Except ParseError β),
      (Except.error e >>= f) = .error e := fun _ _ => rfl
  have hmonth : d.month < 10 ^ 2 := by
    have := d.month_mem
    omega
  have hday : d.day < 10 ^ 2 := by
    have := d.day_mem
    have := daysIn_le d.month (d.year % 400).toNat
    omega
  have hskip : skip 'T' [] = .error .cannotParse := rfl
  have hlast : getnum 2 (appendInt 2 d.day) = .ok (d.day, []) := by
    have h := getnum_appendInt (by decide : 0 < 2) hday []
    rwa [List.append_nil] at h
  rw [Date.format, Date.formatYear]
  by_cases hneg : d.year < 0
  · -- the sign is no digit
    refine ⟨.cannotParse, ?_⟩
    rw [if_pos hneg, List.append_assoc, List.singleton_append, parseRFC3339, getnum, if_neg, hbind]
    have hsign : '-'.isDigit = false := by decide
    rw [List.take_succ_cons, List.all_cons, hsign]
    exact fun h => Bool.false_ne_true h.2
  · rw [if_neg hneg, List.nil_append]
    by_cases hlong : d.year.natAbs < 10 ^ 4
    · -- the time of day is missing
      refine ⟨.cannotParse, ?_⟩
      simp only [parseRFC3339, getnum_appendInt (by decide : 0 < 4) hlong,
        getnum_appendInt (by decide : 0 < 2) hmonth, hlast, skip_cons, except_ok_bind,
        inRange_of d.month_mem, hskip, hbind]
    · obtain ⟨x, rest, hyear, hfail⟩ := skip_longYear (Nat.le_of_not_lt hlong)
        ('-' :: (appendInt 2 d.month ++ '-' :: appendInt 2 d.day))
      refine ⟨.cannotParse, ?_⟩
      simp only [parseRFC3339, hyear, except_ok_bind, hfail, hbind]

end ScorecardInfra.GoStd
