import Mathlib.Data.Char
import Mathlib.Data.List.Lex
import Mathlib.Order.Basic
import ScorecardInfra.GoStd.Calendar

/-!
# Fixed-width texts in chronological order

Lists whose first parts have the same length are compared part by part (`append_lt_append_iff`), so
that numbers of a fixed width are ordered as numbers (`appendInt_lt_appendInt`). The fields of a
time, from the year down to the second, are ordered as the instants (`fields_lt_fields`), and
therefore so are the times in the layout `2006.01.02/150405/` (`format_lt_format`). That layout has
one text for a time: what is parsed is what is formatted (`format_of_parse`).

## Main definitions

* `Time.fields`.

## Main results

* `appendInt_lt_appendInt`, `unixDay_lt`, `Time.format_lt_format`, `Time.format_of_parse`.
-/

namespace ScorecardInfra.GoStd

open Interaction

/-! ### Numbers of fixed width -/

/-- Lists are compared by their first parts of one length, then by what follows. -/
theorem append_lt_append_iff {α : Type} [LT α] {a a' b b' : List α} (h : a.length = a'.length) :
    a ++ b < a' ++ b' ↔ (a < a' ∨ a = a' ∧ b < b') := by
  induction a generalizing a' with
  | nil =>
    obtain rfl := List.eq_nil_of_length_eq_zero h.symm
    simp only [List.nil_append, List.not_lt_nil, true_and, false_or]
  | cons x a ih =>
    obtain ⟨x', a', rfl⟩ := List.exists_cons_of_length_eq_add_one h.symm
    have ih' := ih (Nat.succ.inj h)
    simp only [List.cons_append, List.cons_lt_cons_iff, ih', List.cons.injEq]
    tauto

/-- Positional numbers are compared by their leading parts, then by what follows. -/
theorem mul_add_lt_mul_add_iff {k a a' b b' : Nat} (hb : b < k) (hb' : b' < k) :
    k * a + b < k * a' + b' ↔ (a < a' ∨ a = a' ∧ b < b') := by
  have hstep : ∀ {x x' y y' : Nat}, y < k → x < x' → k * x + y < k * x' + y' := by
    intro x x' y y' hy hx
    calc k * x + y < k * x + k := Nat.add_lt_add_left hy _
      _ = k * (x + 1) := (Nat.mul_succ k x).symm
      _ ≤ k * x' := Nat.mul_le_mul_left k hx
      _ ≤ k * x' + y' := Nat.le_add_right _ _
  rcases Nat.lt_trichotomy a a' with h | rfl | h
  · exact iff_of_true (hstep hb h) (Or.inl h)
  · simp only [Nat.add_lt_add_iff_left, Nat.lt_irrefl, true_and, false_or]
  · refine iff_of_false (Nat.lt_asymm (hstep hb' h)) ?_
    rintro (h' | ⟨rfl, -⟩)
    exacts [Nat.lt_asymm h h', Nat.lt_irrefl _ h]

/-- A digit is its value's successor of `'0'`. -/
private theorem exists_digitValue {c : Char} (h : c.isDigit = true) :
    ∃ d < 10, c.toNat = 48 + d ∧ c.toNat - '0'.toNat = d := by
  simp only [Char.isDigit, Bool.and_eq_true, decide_eq_true_eq] at h
  have hlow : 48 ≤ c.toNat := h.1
  have hhigh : c.toNat ≤ 57 := h.2
  have hzero : '0'.toNat = 48 := rfl
  refine ⟨c.toNat - 48, ?_, ?_, ?_⟩ <;> omega

private theorem ofDigitChars_cons_zero (c : Char) (s : List Char) :
    Nat.ofDigitChars 10 (c :: s) 0 =
      10 ^ s.length * (c.toNat - '0'.toNat) + Nat.ofDigitChars 10 s 0 := by
  rw [Nat.ofDigitChars_cons, Nat.ofDigitChars_eq_ofDigitChars_zero, Nat.mul_zero, Nat.zero_add]

theorem ofDigitChars_lt {s : List Char} (h : ∀ c ∈ s, c.isDigit = true) :
    Nat.ofDigitChars 10 s 0 < 10 ^ s.length := by
  induction s with
  | nil => decide
  | cons c s ih =>
    obtain ⟨hc, hs⟩ := List.forall_mem_cons.mp h
    obtain ⟨d, hd, -, hvalue⟩ := exists_digitValue hc
    rw [ofDigitChars_cons_zero, hvalue, List.length_cons]
    calc 10 ^ s.length * d + Nat.ofDigitChars 10 s 0
        < 10 ^ s.length * d + 10 ^ s.length := Nat.add_lt_add_left (ih hs) _
      _ = 10 ^ s.length * (d + 1) := (Nat.mul_succ _ _).symm
      _ ≤ 10 ^ s.length * 10 := Nat.mul_le_mul_left _ hd
      _ = 10 ^ (s.length + 1) := (Nat.pow_succ ..).symm

/-- **Digits** of one width are ordered as the numbers that they stand for. -/
theorem lt_iff_ofDigitChars_lt {s s' : List Char} (hlen : s.length = s'.length)
    (hs : ∀ c ∈ s, c.isDigit = true) (hs' : ∀ c ∈ s', c.isDigit = true) :
    s < s' ↔ Nat.ofDigitChars 10 s 0 < Nat.ofDigitChars 10 s' 0 := by
  induction s generalizing s' with
  | nil =>
    obtain rfl := List.eq_nil_of_length_eq_zero hlen.symm
    simp only [List.not_lt_nil, Nat.lt_irrefl]
  | cons c s ih =>
    obtain ⟨c', s', rfl⟩ := List.exists_cons_of_length_eq_add_one hlen.symm
    obtain ⟨hc, hs⟩ := List.forall_mem_cons.mp hs
    obtain ⟨hc', hs'⟩ := List.forall_mem_cons.mp hs'
    obtain ⟨d, -, hcd, hd⟩ := exists_digitValue hc
    obtain ⟨d', -, hcd', hd'⟩ := exists_digitValue hc'
    have hlen' : s.length = s'.length := Nat.succ.inj hlen
    have hbound := ofDigitChars_lt hs
    rw [hlen'] at hbound
    have hlt : c < c' ↔ d < d' := by
      rw [show c < c' ↔ c.toNat < c'.toNat from Iff.rfl, hcd, hcd', Nat.add_lt_add_iff_left]
    have heq : c = c' ↔ d = d' := by
      rw [← Char.toNat_inj, hcd, hcd', Nat.add_left_cancel_iff]
    rw [List.cons_lt_cons_iff, ih hlen' hs hs', ofDigitChars_cons_zero, ofDigitChars_cons_zero,
      hlen', hd, hd', mul_add_lt_mul_add_iff hbound (ofDigitChars_lt hs'), hlt, heq]

theorem appendInt_lt_appendInt {w n m : Nat} (hw : 0 < w) (hn : n < 10 ^ w) (hm : m < 10 ^ w) :
    appendInt w n < appendInt w m ↔ n < m := by
  rw [lt_iff_ofDigitChars_lt ((length_appendInt hw hn).trans (length_appendInt hw hm).symm)
    (fun _ => isDigit_of_mem_appendInt) (fun _ => isDigit_of_mem_appendInt),
    ofDigitChars_appendInt, ofDigitChars_appendInt]

/-- Digits of one width are the representation of their number. -/
theorem appendInt_ofDigitChars {s : List Char} (hne : s ≠ []) (hs : ∀ c ∈ s, c.isDigit = true) :
    appendInt s.length (Nat.ofDigitChars 10 s 0) = s := by
  have hlen := length_appendInt (List.length_pos_of_ne_nil hne) (ofDigitChars_lt hs)
  have hdigits : ∀ c ∈ appendInt s.length (Nat.ofDigitChars 10 s 0), c.isDigit = true :=
    fun _ => isDigit_of_mem_appendInt
  rcases lt_trichotomy (appendInt s.length (Nat.ofDigitChars 10 s 0)) s with h | h | h
  · rw [lt_iff_ofDigitChars_lt hlen hdigits hs, ofDigitChars_appendInt] at h
    exact absurd h (Nat.lt_irrefl _)
  · exact h
  · rw [lt_iff_ofDigitChars_lt hlen.symm hs hdigits, ofDigitChars_appendInt] at h
    exact absurd h (Nat.lt_irrefl _)

/-! ### Days -/

theorem isLeap_mod (year : Nat) : isLeap (year % 400) = isLeap year := by
  have h4 : year % 400 % 4 = year % 4 := by omega
  have h100 : year % 400 % 100 = year % 100 := by omega
  rw [isLeap, isLeap, h4, h100, Nat.mod_mod]

theorem daysIn_mod (month year : Nat) : daysIn month (year % 400) = daysIn month year := by
  rw [daysIn, daysIn, isLeap_mod]

/-- The days of a year. -/
def yearDays (year : Nat) : Nat := if isLeap year then 366 else 365

theorem daysBeforeMonth_succ {month : Nat} (h : 1 ≤ month) (year : Nat) :
    daysBeforeMonth year (month + 1) = daysBeforeMonth year month + daysIn month year := by
  obtain ⟨m, rfl⟩ := Nat.exists_eq_add_of_le' h
  rw [daysBeforeMonth, daysBeforeMonth, Nat.add_sub_cancel, Nat.add_sub_cancel,
    List.range'_concat, List.map_append, List.sum_append, List.map_singleton, List.sum_singleton,
    Nat.one_mul, Nat.add_comm 1 m]

theorem daysBeforeMonth_mono {month month' : Nat} (h : month ≤ month') (hone : 1 ≤ month)
    (year : Nat) : daysBeforeMonth year month ≤ daysBeforeMonth year month' := by
  induction month', h using Nat.le_induction with
  | base => exact Nat.le_refl _
  | succ month' hle ih =>
    rw [daysBeforeMonth_succ (hone.trans hle)]
    exact ih.trans (Nat.le_add_right _ _)

theorem daysBeforeMonth_year (year : Nat) : daysBeforeMonth year 13 = yearDays year := by
  cases h : isLeap year <;> simp [daysBeforeMonth, yearDays, daysIn, h, List.range']

theorem daysBeforeYear_succ (year : Nat) :
    daysBeforeYear (year + 1 : Nat) = daysBeforeYear year + yearDays year := by
  have hleap : isLeap year = true ↔ year % 4 = 0 ∧ (year % 100 ≠ 0 ∨ year % 400 = 0) := by
    simp [isLeap]
  simp only [daysBeforeYear, yearDays, hleap]
  split_ifs <;> omega

theorem daysBeforeYear_mono {year year' : Nat} (h : year ≤ year') :
    daysBeforeYear year ≤ daysBeforeYear year' := by
  induction year', h using Nat.le_induction with
  | base => exact Int.le_refl _
  | succ year' _ ih =>
    rw [daysBeforeYear_succ]
    exact ih.trans (Int.le_add_of_nonneg_right (Int.natCast_nonneg _))

/-- **Days** are numbered in the order of their years, months and days. -/
theorem unixDay_lt {year month day year' month' day' : Nat} (hmonth : 1 ≤ month ∧ month ≤ 12)
    (hday : 1 ≤ day ∧ day ≤ daysIn month year) (hmonth' : 1 ≤ month') (hday' : 1 ≤ day')
    (h : [year, month, day] < [year', month', day']) :
    unixDay year month day < unixDay year' month' day' := by
  have hyear : ((year : Int) % 400).toNat = year % 400 := by omega
  have hyear' : ((year' : Int) % 400).toNat = year' % 400 := by omega
  -- the day lies in its month
  have hin := daysBeforeMonth_succ hmonth.1 (year % 400)
  rw [daysIn_mod] at hin
  simp only [List.cons_lt_cons_iff, List.not_lt_nil, and_false, or_false] at h
  rw [unixDay, unixDay, hyear, hyear']
  rcases h with hlt | ⟨rfl, hlt | ⟨rfl, hlt⟩⟩
  · have hmono := daysBeforeYear_mono (Nat.succ_le_of_lt hlt)
    have hmonths := daysBeforeMonth_mono (Nat.add_le_add_right hmonth.2 1) (by omega) (year % 400)
    have hlen : yearDays (year % 400) = yearDays year := by rw [yearDays, yearDays, isLeap_mod]
    rw [Nat.succ_eq_add_one, daysBeforeYear_succ] at hmono
    rw [daysBeforeMonth_year, hlen] at hmonths
    omega
  · have hmonths := daysBeforeMonth_mono (Nat.succ_le_of_lt hlt) (by omega) (year % 400)
    rw [Nat.succ_eq_add_one] at hmonths
    omega
  · omega

namespace Time

/-- The fields of a time down to the second. -/
def fields (t : Time) : List Nat := [t.year, t.month, t.day, t.hour, t.minute, t.second]

/-- The fields determine the second. -/
theorem truncate_eq_of_fields {t u : Time} (h : t.fields = u.fields) : t.truncate = u.truncate := by
  simp only [fields, List.cons.injEq, and_true] at h
  obtain ⟨hyear, hmonth, hday, hhour, hminute, hsecond⟩ := h
  ext
  exacts [hyear, hmonth, hday, hhour, hminute, hsecond, rfl]

/-- Earlier fields are those of an earlier second. -/
theorem unixNano_lt_of_fields_lt {t u : Time} (h : t.fields < u.fields) :
    t.truncate.unixNano < u.truncate.unixNano := by
  have hday : [t.year, t.month, t.day] < [u.year, u.month, u.day] ∨
      [t.year, t.month, t.day] = [u.year, u.month, u.day] ∧
        [t.hour, t.minute, t.second] < [u.hour, u.minute, u.second] := by
    have hlength : [t.year, t.month, t.day].length = [u.year, u.month, u.day].length := rfl
    exact (append_lt_append_iff hlength).mp h
  have := t.hour_le
  have := t.minute_le
  have := t.second_le
  simp only [unixNano, truncate, instantOf, secondNanos]
  rcases hday with hlt | ⟨heq, hlt⟩
  · have := unixDay_lt t.month_mem t.day_mem u.month_mem.1 u.day_mem.1 hlt
    omega
  · simp only [List.cons.injEq, and_true] at heq
    obtain ⟨hyear, hmonth, hday⟩ := heq
    simp only [List.cons_lt_cons_iff, List.not_lt_nil, and_false, or_false] at hlt
    rw [hyear, hmonth, hday]
    omega

/-- The fields are ordered as the seconds. -/
theorem fields_lt_fields {t u : Time} :
    t.fields < u.fields ↔ t.truncate.unixNano < u.truncate.unixNano := by
  refine ⟨unixNano_lt_of_fields_lt, fun h => ?_⟩
  rcases lt_trichotomy t.fields u.fields with hlt | heq | hlt
  · exact hlt
  · rw [truncate_eq_of_fields heq] at h
    exact absurd h (Int.lt_irrefl _)
  · exact absurd h (Int.lt_asymm (unixNano_lt_of_fields_lt hlt))

/-- **Chronological order.** The texts of two times are ordered as their seconds. -/
theorem format_lt_format {t u : Time} :
    t.format < u.format ↔ t.truncate.unixNano < u.truncate.unixNano := by
  obtain ⟨hyear, hmonth, hday, hhour, hminute, hsecond⟩ := t.fields_lt
  obtain ⟨hyear', hmonth', hday', hhour', hminute', hsecond'⟩ := u.fields_lt
  -- a field of one width, and what follows it
  have hfield : ∀ {w n m : Nat} (s s' : List Char), 0 < w → n < 10 ^ w → m < 10 ^ w →
      (appendInt w n ++ s < appendInt w m ++ s' ↔ (n < m ∨ n = m ∧ s < s')) := by
    intro w n m s s' hw hn hm
    rw [append_lt_append_iff ((length_appendInt hw hn).trans (length_appendInt hw hm).symm),
      appendInt_lt_appendInt hw hn hm, (appendInt_injective w).eq_iff]
  have hsep : ∀ (c : Char) (s s' : List Char), c :: s < c :: s' ↔ s < s' := by
    intro c s s'
    rw [List.cons_lt_cons_iff]
    simp only [Char.lt_irrefl, true_and, false_or]
  rw [← fields_lt_fields, format, format, hfield _ _ (by decide) hyear hyear', hsep,
    hfield _ _ (by decide) hmonth hmonth', hsep, hfield _ _ (by decide) hday hday', hsep,
    hfield _ _ (by decide) hhour hhour', hfield _ _ (by decide) hminute hminute',
    hfield _ _ (by decide) hsecond hsecond']
  simp only [fields, List.cons_lt_cons_iff, List.not_lt_nil, and_false, or_false,
    Char.lt_irrefl]

/-! ### What is parsed -/

theorem getnum_eq_ok {w n : Nat} {s rest : List Char} (hw : 0 < w)
    (h : getnum w s = .ok (n, rest)) : s = appendInt w n ++ rest := by
  unfold getnum at h
  split_ifs at h with hdigits
  obtain ⟨hlen, hall⟩ := hdigits
  obtain ⟨rfl, rfl⟩ := Prod.mk.inj (Except.ok.inj h)
  have hne : s.take w ≠ [] := List.ne_nil_of_length_pos (by omega)
  have htake := appendInt_ofDigitChars hne (List.all_eq_true.mp hall)
  rw [hlen] at htake
  rw [htake, List.take_append_drop]

theorem skip_eq_ok {c : Char} {s rest : List Char} (h : skip c s = .ok rest) : s = c :: rest := by
  match s, h with
  | x :: s, h =>
    rw [skip] at h
    split_ifs at h with hx
    rw [hx, Except.ok.inj h]

/-- **One text for a time.** A text that is parsed is the time's. -/
theorem format_of_parse {s : List Char} {t : Time} (h : parse s = .ok t) : t.format = s := by
  simp only [parse, except_bind_eq_ok, Prod.exists, refuseIf_eq_ok] at h
  obtain ⟨year, s₁, hyear, _, -, s₂, hskip₁, month, s₃, hmonth, _, -, s₄, hskip₂, day, s₅, hday,
    s₆, hskip₃, hour, s₇, hhour, _, -, minute, s₈, hminute, _, -, second, s₉, hsecond, _, -,
    s₁₀, hskip₄, _, hempty, _, -, ht⟩ := h
  obtain rfl := Except.ok.inj ht
  have hlast : s₁₀ = [] := by simpa using hempty
  rw [getnum_eq_ok (by decide) hyear, skip_eq_ok hskip₁, getnum_eq_ok (by decide) hmonth,
    skip_eq_ok hskip₂, getnum_eq_ok (by decide) hday, skip_eq_ok hskip₃,
    getnum_eq_ok (by decide) hhour, getnum_eq_ok (by decide) hminute,
    getnum_eq_ok (by decide) hsecond, skip_eq_ok hskip₄, hlast, format]

end Time

end ScorecardInfra.GoStd
