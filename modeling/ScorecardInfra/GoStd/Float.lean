import Mathlib.Data.Int.Log
import Mathlib.Data.Rat.Floor
import ScorecardInfra.GoStd.Unmarshal

/-!
# Floating-point numbers

A 64-bit floating-point number is `mant * 2 ^ exp` up to its sign, an infinity or NaN. `%.1f` writes
a finite number rounded to tenths, half to even; the others are no JSON numbers. What is written
never is out of the range of `strconv.ParseFloat` (`isFloat_fixed1`).

Quotients of counts are rational numbers rounded to 53 bits (`round53`).

## Main definitions

* `Float64`, `Float64.tenths`, `Float64.fixed1`, `Float64.round53`, `Float64.le`.

## Main results

* `isFloat_fixed1`, `round53_div_self`.
-/

namespace ScorecardInfra.GoStd

/-- The 64-bit floating-point numbers. -/
inductive Float64 : Type
  | nan
  | inf (neg : Bool)
  | finite (neg : Bool) (mant : Nat) (exp : Int) (mant_lt : mant < 2 ^ 53) (exp_le : exp ≤ 971)

namespace Float64

/-- The quotient rounded to the nearest number, half to even. -/
def roundHalfEven (n d : Nat) : Nat :=
  if 2 * (n % d) < d ∨ (2 * (n % d) = d ∧ n / d % 2 = 0) then n / d else n / d + 1

/-- `mant * 2 ^ exp` in tenths. -/
def tenths (mant : Nat) (exp : Int) : Nat :=
  if 0 ≤ exp then mant * 2 ^ exp.toNat * 10 else roundHalfEven (mant * 10) (2 ^ (-exp).toNat)

/-- `%.1f`; an error where the text is no JSON number, with the message about it. -/
def fixed1 : Float64 → Except String NumLit
  | .nan => .error "invalid character 'N' looking for beginning of value"
  | .inf false => .error "invalid character '+' looking for beginning of value"
  | .inf true => .error "invalid character 'I' in numeric literal"
  | .finite neg mant exp _ _ =>
    let t := tenths mant exp
    .ok ⟨neg, t / 10, Nat.toDigits 10 (t % 10), none,
      List.all_eq_true.mpr fun _ hc => Nat.isDigit_of_mem_toDigits (by decide) (by decide) hc⟩

private theorem roundHalfEven_le (n d : Nat) : roundHalfEven n d ≤ n + 1 := by
  have hdiv := Nat.div_le_self n d
  unfold roundHalfEven
  split_ifs <;> omega

private theorem tenths_lt {mant : Nat} {exp : Int} (hm : mant < 2 ^ 53) (he : exp ≤ 971) :
    tenths mant exp < floatLimit * 10 := by
  have hpos := Nat.two_pow_pos halfUlp
  unfold tenths floatLimit
  split_ifs
  · have hexp : exp.toNat ≤ halfUlp + 1 := Int.toNat_le.mpr he
    have hpow : 2 ^ exp.toNat ≤ 2 ^ halfUlp * 2 := by
      rw [← Nat.pow_succ]
      exact Nat.pow_le_pow_right (by decide) hexp
    have hmul : mant * 2 ^ exp.toNat ≤ (2 ^ 53 - 1) * (2 ^ halfUlp * 2) :=
      Nat.mul_le_mul (Nat.le_sub_one_of_lt hm) hpow
    omega
  · have hround := roundHalfEven_le (mant * 10) (2 ^ (-exp).toNat)
    omega

/-- **Range.** What `%.1f` writes for a number is read as a number. -/
theorem isFloat_fixed1 {x : Float64} {n : NumLit} (h : x.fixed1 = .ok n) : n.isFloat = true := by
  rcases x with - | (- | -) | ⟨neg, mant, exp, hm, he⟩
  · cases h
  · cases h
  · cases h
  · obtain rfl := Except.ok.inj h
    have hlt := Nat.mod_lt (tenths mant exp) (show 0 < 10 by decide)
    have hdigit := Nat.toDigits_of_lt_base hlt
    have hvalue : Nat.ofDigitChars 10 (Nat.toDigits 10 (tenths mant exp % 10))
        (tenths mant exp / 10) = tenths mant exp := by
      rw [hdigit, Nat.ofDigitChars_cons_digitChar_of_lt_ten hlt, Nat.ofDigitChars_nil]
      omega
    have hscale : (0 : Int) - (Nat.toDigits 10 (tenths mant exp % 10)).length = -1 := by
      rw [hdigit]
      rfl
    simp only [NumLit.isFloat, NumLit.scale, NumLit.digits, hvalue, Option.getD_none, hscale]
    have hten : 10 ^ (-(-1 : Int)).toNat = 10 := rfl
    rw [if_neg (by decide), decide_eq_true_eq, hten]
    exact tenths_lt hm he

/-! ### Quotients -/

/-- The nearest number with 53 bits, half to even, of a number that is not negative. -/
def round53 (q : ℚ) : ℚ :=
  let ulp : ℚ := 2 ^ (Int.log 2 q - 52)
  roundHalfEven (q / ulp).num.toNat (q / ulp).den * ulp

/-- `x <= q`, which is false for NaN. -/
def le (x : Float64) (q : ℚ) : Bool :=
  match x with
  | .nan => false
  | .inf neg => neg
  | .finite neg mant exp _ _ => decide ((if neg then -1 else 1) * (mant : ℚ) * 2 ^ exp ≤ q)

private theorem one_le_roundHalfEven {n d : Nat} (hd : 0 < d) (h : d ≤ n) :
    1 ≤ roundHalfEven n d := by
  have hdiv : 1 ≤ n / d := (Nat.one_le_div_iff hd).mpr h
  unfold roundHalfEven
  split_ifs
  · exact hdiv
  · omega

theorem round53_pos {q : ℚ} (hq : 0 < q) : 0 < round53 q := by
  have hulp : (0 : ℚ) < 2 ^ (Int.log 2 q - 52) := zpow_pos (by norm_num) _
  have hle : (1 : ℚ) ≤ q / 2 ^ (Int.log 2 q - 52) := by
    rw [le_div_iff₀ hulp, one_mul]
    calc (2 : ℚ) ^ (Int.log 2 q - 52) ≤ 2 ^ Int.log 2 q :=
          zpow_le_zpow_right₀ (by norm_num) (by omega)
      _ ≤ q := by exact_mod_cast Int.zpow_log_le_self (b := 2) (by norm_num) hq
  have hnum : (q / 2 ^ (Int.log 2 q - 52)).den ≤ (q / 2 ^ (Int.log 2 q - 52)).num.toNat := by
    have hone := (Rat.le_iff 1 _).mp hle
    simp only [Rat.num_one, Rat.den_one, Nat.cast_one, one_mul, mul_one] at hone
    omega
  have hround := one_le_roundHalfEven (Rat.den_pos _) hnum
  rw [round53]
  exact mul_pos (by exact_mod_cast hround) hulp

theorem round53_one : round53 1 = 1 := by
  have hlog : Int.log 2 (1 : ℚ) = 0 := Int.log_one_right 2
  rw [round53, hlog]
  have hround : roundHalfEven (2 ^ 52) 1 = 2 ^ 52 := by simp [roundHalfEven, Nat.mod_one]
  have hquotient : (1 : ℚ) / 2 ^ ((0 : Int) - 52) = ((2 ^ 52 : Nat) : ℚ) := by norm_num
  rw [hquotient, Rat.num_natCast, Rat.den_natCast, Int.toNat_natCast, hround]
  norm_num

/-- Equal counts have the quotient 1. -/
theorem round53_div_self {n : Nat} (hn : 0 < n) :
    round53 (round53 (n : ℚ) / round53 (n : ℚ)) = 1 := by
  have hpos := round53_pos (show (0 : ℚ) < n by exact_mod_cast hn)
  rw [div_self hpos.ne', round53_one]

end Float64

end ScorecardInfra.GoStd
