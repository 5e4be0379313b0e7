import Mathlib.Data.List.Iterate
import ScorecardInfra.GoStd.Doubling
import ScorecardInfra.Interaction.Monitor

/-!
# Retrying with a backoff

`Retry` calls a function until it succeeds, fails for good, or has been called often enough, and
waits before every call but the first. The delay is a 64-bit number of nanoseconds that is doubled
after each wait, and then capped.

The first delay is not capped, and a delay of `2 ^ 62` or more is doubled to a negative one, which
no cap sees. So the waits are the powers of two times the base, up to the cap, if and only if the
base does not exceed the cap, and no wait but the last one is that long (`followsBackoff_iff`).

## Main definitions

* `BackoffConfig`, `BackoffConfig.nextDelay`, `sleep`, `BackoffConfig.retry`.
* `calls`, `waits`, `BackoffConfig.Retries`, `BackoffConfig.Retried`.
* `BackoffConfig.FollowsBackoff`, `BackoffConfig.DelaysFit`.

## Main results

* `safe_retry`: what `Retry` does with any function.
* `exec_retry`: the calls and the waits of a function that keeps failing.
* `toInt_iterate_nextDelay`, `followsBackoff_iff`.

Source: `internal/tokens/tokens.go`, lines 131–210.
-/

namespace ScorecardInfra.Tokens

open GoStd Interaction

/-! ### Errors -/

/-- The errors of `Retry`: texts, errors with causes, and what `Permanent` returns. -/
inductive RetryError : Type
  | text (message : String)
  | wrap (before : String) (err : RetryError)
  | join (err err' : RetryError)
  | permanent (err : RetryError)
  deriving DecidableEq, Repr

namespace RetryError

/-- `errors.As` with a `*permanent` as target, and the error that it holds. -/
def asPermanent : RetryError → Option RetryError
  | .text _ => none
  | .wrap _ err => err.asPermanent
  | .join err err' => err.asPermanent <|> err'.asPermanent
  | .permanent err => some err

/-- `errNoAttempts`. -/
def noAttempts : RetryError := .text "tokens: MaxAttempts must be >= 1"

end RetryError

/-! ### The loop -/

/-- `time.Duration`, in nanoseconds. -/
abbrev Duration : Type := Int64

/-- `BackoffConfig`. -/
structure BackoffConfig where
  maxAttempts : Int64
  base : Duration
  max : Duration
  deriving DecidableEq, Repr

/-- `DefaultBackoff`. -/
def defaultBackoff : BackoffConfig := ⟨4, 500 * 1000000, 30 * 1000000000⟩

/-- What `Retry` does: it calls the function, and selects between a timer and the context. -/
inductive RetryOp : Type
  | fn
  | select (d : Duration)
  deriving DecidableEq

/-- The function returns an error or nil; the context is done with an error, or the timer fires. -/
abbrev RetrySig : Signature where
  Op := RetryOp
  Ans := fun _ => Option RetryError

/-- `sleep`.

Source: `internal/tokens/tokens.go`, lines 200–210. -/
def sleep (d : Duration) : Prog RetrySig (Option RetryError) := do
  match ← perform (S := RetrySig) (.select d) with
  | some err => return some (.wrap "tokens: retry aborted: " err)
  | none => return none

namespace BackoffConfig

variable (cfg : BackoffConfig)

/-- The delay after a wait. -/
def nextDelay (delay : Duration) : Duration :=
  if 0 < cfg.max ∧ cfg.max < delay * 2 then cfg.max else delay * 2

/-- What precedes a call: the next delay, or the error of `sleep`. -/
def pause (attempt : Nat) (delay : Duration) : Prog RetrySig (Except RetryError Duration) :=
  if 0 < attempt then do
    match ← sleep delay with
    | some err => return .error err
    | none => return .ok (cfg.nextDelay delay)
  else return .ok delay

/-- The loop of `Retry`, with the number of calls that are left. -/
def retryLoop : (left attempt : Nat) → (delay : Duration) → (lastErr : Option RetryError) →
    Prog RetrySig (Option RetryError)
  | 0, _, _, lastErr => return lastErr
  | left + 1, attempt, delay, _ => do
    match ← cfg.pause attempt delay with
    | .error err => return some err
    | .ok delay =>
      match ← perform (S := RetrySig) .fn with
      | none => return none
      | some err =>
        match err.asPermanent with
        | some perm => return some perm
        | none => retryLoop left (attempt + 1) delay (some err)

/-- The number of calls that a range over `MaxAttempts` makes. -/
def attempts : Nat := cfg.maxAttempts.toInt.toNat

/-- `Retry`.

Source: `internal/tokens/tokens.go`, lines 168–198. -/
def retry : Prog RetrySig (Option RetryError) :=
  if cfg.maxAttempts < 1 then return some .noAttempts
  else cfg.retryLoop cfg.attempts 0 cfg.base none

end BackoffConfig

/-! ### A function that keeps failing -/

/-- The calls of a run. -/
def calls (t : Trace RetrySig) : List (Option RetryError) :=
  t.filterMap fun e => match e.op with
    | .fn => some e.ans
    | .select _ => none

/-- The delays of a run. -/
def waits (t : Trace RetrySig) : List Duration :=
  t.filterMap fun e => match e.op with
    | .fn => none
    | .select d => some d

@[simp] theorem calls_nil : calls [] = [] := rfl

@[simp] theorem calls_fn (x : Option RetryError) (t : Trace RetrySig) :
    calls (⟨.fn, x⟩ :: t) = x :: calls t := rfl

@[simp] theorem calls_select (d : Duration) (x : Option RetryError) (t : Trace RetrySig) :
    calls (⟨.select d, x⟩ :: t) = calls t := rfl

@[simp] theorem waits_fn (x : Option RetryError) (t : Trace RetrySig) :
    waits (⟨.fn, x⟩ :: t) = waits t := rfl

@[simp] theorem waits_select (d : Duration) (x : Option RetryError) (t : Trace RetrySig) :
    waits (⟨.select d, x⟩ :: t) = d :: waits t := rfl

/-- Every call fails with an error that is not permanent, and the context is not done. -/
def KeepsFailing (t : Trace RetrySig) : Prop :=
  ∀ e ∈ t, match e.op with
    | .fn => ∃ err, e.ans = some err ∧ err.asPermanent = none
    | .select _ => e.ans = none

namespace BackoffConfig

variable {cfg : BackoffConfig} {t : Trace RetrySig} {r : Option RetryError} {left attempt : Nat}
  {delay : Duration} {lastErr : Option RetryError}

/-- The first call. -/
theorem exec_retryLoop_zero (h : Exec (cfg.retryLoop (left + 1) 0 delay lastErr) t (some r))
    (ht : KeepsFailing t) : ∃ err t', t = ⟨.fn, some err⟩ :: t' ∧ KeepsFailing t' ∧
      Exec (cfg.retryLoop left 1 delay (some err)) t' (some r) := by
  rw [retryLoop, pause, if_neg (Nat.lt_irrefl 0)] at h
  simp only [Prog.pure_eq, Prog.ret_bind, perform, Prog.op_bind] at h
  obtain ⟨x, t', rfl, hcall⟩ := exec_op_some.mp h
  obtain ⟨⟨err, rfl, herr⟩, ht'⟩ := List.forall_mem_cons.mp ht
  simp only [herr] at hcall
  exact ⟨err, t', rfl, ht', hcall⟩

/-- A wait, and a call. -/
theorem exec_retryLoop_succ
    (h : Exec (cfg.retryLoop (left + 1) (attempt + 1) delay lastErr) t (some r))
    (ht : KeepsFailing t) : ∃ err t', t = ⟨.select delay, none⟩ :: ⟨.fn, some err⟩ :: t' ∧
      KeepsFailing t' ∧
      Exec (cfg.retryLoop left (attempt + 2) (cfg.nextDelay delay) (some err)) t' (some r) := by
  rw [retryLoop, pause, if_pos (Nat.succ_pos attempt), sleep] at h
  simp only [Prog.pure_eq, perform, Prog.op_bind] at h
  obtain ⟨y, t₁, rfl, hwait⟩ := exec_op_some.mp h
  obtain ⟨hy, ht₁⟩ := List.forall_mem_cons.mp ht
  obtain rfl : y = none := hy
  simp only [Prog.ret_bind] at hwait
  obtain ⟨x, t', rfl, hcall⟩ := exec_op_some.mp hwait
  obtain ⟨⟨err, rfl, herr⟩, ht'⟩ := List.forall_mem_cons.mp ht₁
  simp only [herr] at hcall
  exact ⟨err, t', rfl, ht', hcall⟩

/-- **The loop** after the first call: each delay is made from the one before it. -/
theorem exec_retryLoop {err : RetryError}
    (h : Exec (cfg.retryLoop left (attempt + 1) delay (some err)) t (some r))
    (ht : KeepsFailing t) : waits t = List.iterate cfg.nextDelay delay left ∧
      t.map Event.op = (waits t).flatMap (fun d => [.select d, .fn]) ∧
      (calls t).length = left ∧ r.isSome := by
  induction left generalizing attempt delay t err with
  | zero =>
    obtain ⟨rfl, rfl⟩ := exec_ret_some.mp h
    exact ⟨rfl, rfl, rfl, rfl⟩
  | succ left ih =>
    obtain ⟨err', t', rfl, ht', h'⟩ := exec_retryLoop_succ h ht
    obtain ⟨hwaits, hops, hcalls, hr⟩ := ih h' ht'
    refine ⟨?_, ?_, ?_, hr⟩
    · rw [waits_select, waits_fn, hwaits, List.iterate]
    · rw [waits_select, waits_fn, List.map_cons, List.map_cons, hops, List.flatMap_cons]
      rfl
    · rw [calls_select, calls_fn, List.length_cons, hcalls]

theorem attempts_pos (hattempts : 1 ≤ cfg.maxAttempts) :
    0 < cfg.attempts ∧ (cfg.attempts : Int) = cfg.maxAttempts.toInt := by
  rw [Int64.le_iff_toInt_le, Int64.toInt_one] at hattempts
  rw [attempts]
  omega

/-- **`Retry`** calls the function once before its waits, and after each of them. -/
theorem exec_retry (hattempts : 1 ≤ cfg.maxAttempts) (h : Exec cfg.retry t (some r))
    (ht : KeepsFailing t) : waits t = List.iterate cfg.nextDelay cfg.base (cfg.attempts - 1) ∧
      t.map Event.op = .fn :: (waits t).flatMap (fun d => [.select d, .fn]) ∧
      (calls t).length = cfg.attempts ∧ r.isSome := by
  have hpos : cfg.attempts = cfg.attempts - 1 + 1 :=
    (Nat.sub_add_cancel (attempts_pos hattempts).1).symm
  rw [retry, if_neg (Int64.not_lt.mpr hattempts), hpos] at h
  obtain ⟨err, t', rfl, ht', h'⟩ := exec_retryLoop_zero h ht
  obtain ⟨hwaits, hops, hcalls, hr⟩ := exec_retryLoop h' ht'
  refine ⟨hwaits, ?_, ?_, hr⟩
  · rw [waits_fn, List.map_cons, hops]
  · rw [calls_fn, List.length_cons, hcalls, ← hpos]

end BackoffConfig

/-! ### What `Retry` does with any function -/

/-- The function may be called: it has failed so far, but not for good, and not too often. -/
structure BackoffConfig.MayCall (cfg : BackoffConfig) (past : Trace RetrySig) : Prop where
  lt : (calls past).length < cfg.attempts
  failed : ∀ x ∈ calls past, ∃ err, x = some err ∧ err.asPermanent = none

/-- The operations of `Retry`. It waits between calls only. -/
def BackoffConfig.Retries (cfg : BackoffConfig) (past : Trace RetrySig) : RetryOp → Prop
  | .fn => cfg.MayCall past
  | .select _ => calls past ≠ [] ∧ cfg.MayCall past

/-- How `Retry` ends. -/
inductive BackoffConfig.Retried (cfg : BackoffConfig) (past : Trace RetrySig) :
    Option RetryError → Prop
  | succeeded (h : (calls past).getLast? = some none) : Retried cfg past none
  | permanent {err perm : RetryError} (h : (calls past).getLast? = some (some err))
      (hperm : err.asPermanent = some perm) : Retried cfg past (some perm)
  | exhausted {err : RetryError} (h : (calls past).getLast? = some (some err))
      (hperm : err.asPermanent = none) (hlen : (calls past).length = cfg.attempts) :
      Retried cfg past (some err)
  | aborted {d : Duration} {err : RetryError} (h : ⟨.select d, some err⟩ ∈ past)
      (hcall : cfg.MayCall past) : Retried cfg past (some (.wrap "tokens: retry aborted: " err))

namespace BackoffConfig

variable {cfg : BackoffConfig} {past : Trace RetrySig}

theorem calls_append (t u : Trace RetrySig) : calls (t ++ u) = calls t ++ calls u :=
  List.filterMap_append

/-- The pause before a call, after `past`. -/
theorem safe_pause (delay : Duration) (h : cfg.MayCall past) :
    (cfg.pause (calls past).length delay).Safe (.history cfg.Retries)
      (fun r past' => calls past' = calls past ∧
        ∀ err, r = .error err → cfg.Retried past' (some err)) past := by
  unfold pause
  split_ifs with hpos
  · refine safe_perform_bind ⟨List.length_pos_iff.mp hpos, h⟩ ?_
    rintro (_ | err)
    · exact ⟨by simp [calls_append], nofun⟩
    · have hcalls : calls (past ++ [⟨.select delay, some err⟩]) = calls past := by
        simp [calls_append]
      refine ⟨hcalls, ?_⟩
      rintro _ ⟨⟩
      exact .aborted (List.mem_append_right _ (List.mem_singleton_self _)) ⟨hcalls ▸ h.lt,
        hcalls ▸ h.failed⟩
  · exact ⟨rfl, nofun⟩

/-- The loop, where `lastErr` is the error of the last call so far. -/
theorem safe_retryLoop (left : Nat) (delay : Duration) (lastErr : Option RetryError)
    (hleft : left + (calls past).length = cfg.attempts) (hattempts : 0 < cfg.attempts)
    (hfailed : ∀ x ∈ calls past, ∃ err, x = some err ∧ err.asPermanent = none)
    (hlast : (calls past).getLast? = lastErr.map some) :
    (cfg.retryLoop left (calls past).length delay lastErr).Safe (.history cfg.Retries)
      (fun r past' => cfg.Retried past' r) past := by
  induction left generalizing past delay lastErr with
  | zero =>
    rw [Nat.zero_add] at hleft
    rw [retryLoop]
    have hne : calls past ≠ [] := by
      rw [← List.length_pos_iff, hleft]
      exact hattempts
    obtain ⟨err, rfl⟩ : ∃ err, lastErr = some err := by
      cases lastErr with
      | none => exact absurd (List.getLast?_eq_none_iff.mp hlast) hne
      | some err => exact ⟨err, rfl⟩
    obtain ⟨_, ⟨⟩, hperm⟩ := hfailed _ (List.mem_of_getLast? hlast)
    exact .exhausted hlast hperm hleft
  | succ left ih =>
    have hcall : cfg.MayCall past := ⟨by omega, hfailed⟩
    rw [retryLoop]
    refine (safe_pause delay hcall).bind ?_
    rintro (err | delay') past₁ ⟨hcalls, herr⟩
    · exact herr err rfl
    have hcall₁ : cfg.MayCall past₁ := ⟨hcalls ▸ hcall.lt, hcalls ▸ hcall.failed⟩
    refine safe_perform_bind hcall₁ fun x => ?_
    have hsnoc : calls (past₁ ++ [⟨.fn, x⟩]) = calls past ++ [x] := by
      rw [calls_append, hcalls]
      rfl
    rw [Monitor.history_next]
    cases x with
    | none => exact .succeeded (by rw [hsnoc, List.getLast?_concat])
    | some err =>
      dsimp only
      cases hperm : err.asPermanent with
      | some perm => exact .permanent (by rw [hsnoc, List.getLast?_concat]) hperm
      | none =>
        have hlen : (calls past).length + 1 = (calls (past₁ ++ [⟨.fn, some err⟩])).length := by
          rw [hsnoc, List.length_append, List.length_singleton]
        rw [hlen]
        refine ih delay' (some err) (by omega) ?_ (by rw [hsnoc, List.getLast?_concat]; rfl)
        intro x hx
        rw [hsnoc] at hx
        rcases List.mem_append.mp hx with hx | hx
        · exact hfailed x hx
        · exact ⟨err, List.mem_singleton.mp hx, hperm⟩

/-- **`Retry`** calls the function again while it fails, but not for good, and not too often. -/
theorem safe_retry (h : 1 ≤ cfg.maxAttempts) :
    cfg.retry.Safe (.history cfg.Retries) (fun r past => cfg.Retried past r) [] := by
  rw [retry, if_neg (Int64.not_lt.mpr h)]
  exact @safe_retryLoop cfg [] cfg.attempts cfg.base none (Nat.add_zero _) (attempts_pos h).1
    (List.forall_mem_nil _) rfl

end BackoffConfig

/-! ### The stated backoff -/

namespace BackoffConfig

variable (cfg : BackoffConfig)

/-- What no delay exceeds: the cap, or the largest duration where there is none. -/
def limit : Int := if 0 < cfg.max then cfg.max.toInt else 2 ^ 63 - 1

/-- The waits are the base times the powers of two, up to the limit, and every call but the first
follows one of them. -/
structure FollowsBackoff (run : Trace RetrySig × Option (Option RetryError)) : Prop where
  returns : ∃ err, run.2 = some (some err)
  calls : ((calls run.1).length : Int) = cfg.maxAttempts.toInt
  length : ((waits run.1).length : Int) = cfg.maxAttempts.toInt - 1
  between : run.1.map Event.op = .fn :: (waits run.1).flatMap fun d => [.select d, .fn]
  nonneg : ∀ d ∈ waits run.1, 0 ≤ d
  pairwise : (waits run.1).Pairwise (· ≤ ·)
  le_max : 0 < cfg.max → ∀ d ∈ waits run.1, d ≤ cfg.max
  wait_eq : ∀ k d, (waits run.1)[k]? = some d →
    d.toInt = Doubling.capped cfg.base.toInt cfg.limit k

/-- There is one call only, or the base does not exceed the cap, and no delay that is doubled for
another wait reaches `2 ^ 62`. -/
def DelaysFit : Prop :=
  cfg.maxAttempts = 1 ∨ (cfg.max = 0 ∨ cfg.base ≤ cfg.max) ∧
    (cfg.base.toInt * 2 ^ (cfg.attempts - 2) < 2 ^ 63 ∨ 0 < cfg.max ∧ cfg.max.toInt < 2 ^ 62)

instance : Decidable cfg.DelaysFit := inferInstanceAs (Decidable (_ ∨ _))

variable {cfg}

/-- One doubling, as long as the delay is not too long. -/
theorem toInt_nextDelay {delay : Duration} (hdelay : 0 ≤ delay.toInt) (hlt : delay.toInt < 2 ^ 62) :
    (cfg.nextDelay delay).toInt = min (delay.toInt * 2) cfg.limit := by
  have hdouble := Doubling.toInt_mul_two hdelay hlt
  unfold nextDelay limit
  by_cases hmax : 0 < cfg.max
  · rw [if_pos hmax]
    split_ifs with h
    · have hlt' := Int64.lt_iff_toInt_lt.mp h.2
      rw [hdouble] at hlt'
      rw [min_eq_right hlt'.le]
    · have hle := Int64.le_iff_toInt_le.mp (Int64.not_lt.mp fun hlt' => h ⟨hmax, hlt'⟩)
      rw [hdouble] at hle
      rw [hdouble, min_eq_left hle]
  · rw [if_neg hmax, if_neg fun h => hmax h.1, hdouble, min_eq_left]
    omega

/-- A long delay is not capped, but becomes negative. -/
theorem toInt_nextDelay_neg {delay : Duration} (hmax : 0 ≤ cfg.max) (hle : 2 ^ 62 ≤ delay.toInt) :
    (cfg.nextDelay delay).toInt < 0 := by
  have hneg := Doubling.toInt_mul_two_neg hle
  have hcap : ¬(0 < cfg.max ∧ cfg.max < delay * 2) := by
    rintro ⟨-, h⟩
    rw [Int64.lt_iff_toInt_lt] at h
    rw [Int64.le_iff_toInt_le, Int64.toInt_zero] at hmax
    omega
  rwa [nextDelay, if_neg hcap]

theorem limit_nonneg : 0 ≤ cfg.limit := by
  unfold limit
  split_ifs with hmax
  · exact (Int64.lt_iff_toInt_lt.mp hmax).le
  · decide

/-- The base does not exceed the limit, if it does not exceed the cap. -/
theorem base_le_limit_iff : cfg.base.toInt ≤ cfg.limit ↔ 0 < cfg.max → cfg.base ≤ cfg.max := by
  unfold limit
  split_ifs with hmax
  · exact ⟨fun h _ => Int64.le_iff_toInt_le.mpr h, fun h => Int64.le_iff_toInt_le.mp (h hmax)⟩
  · have hlt := cfg.base.toInt_lt
    exact iff_of_true (by omega) fun h => absurd h hmax

/-- **The delays** are the stated ones while they can be doubled. -/
theorem toInt_iterate_nextDelay (hbase : 0 ≤ cfg.base.toInt) (hle : cfg.base.toInt ≤ cfg.limit)
    (k : Nat) (hk : cfg.base.toInt * 2 ^ k < 2 ^ 63 ∨ cfg.limit < 2 ^ 62) :
    (cfg.nextDelay^[k] cfg.base).toInt = Doubling.capped cfg.base.toInt cfg.limit k := by
  induction k with
  | zero => exact (Doubling.capped_zero hle).symm
  | succ k ih =>
    have hlt : Doubling.capped cfg.base.toInt cfg.limit k < 2 ^ 62 := by
      rcases hk with hk | hk
      · refine (min_le_left _ _).trans_lt ?_
        rw [Doubling.mul_two_pow_succ] at hk
        omega
      · exact (Doubling.capped_le k).trans_lt hk
    have hih := ih (hk.imp_left fun h => by
      have hpow : 0 ≤ cfg.base.toInt * 2 ^ k := mul_nonneg hbase (pow_nonneg zero_le_two k)
      rw [Doubling.mul_two_pow_succ] at h
      omega)
    have hlimit : 0 ≤ cfg.limit := limit_nonneg
    have hnonneg := Doubling.capped_nonneg hbase hlimit k
    rw [← hih] at hlt hnonneg
    rw [Function.iterate_succ_apply', toInt_nextDelay hnonneg hlt, hih,
      Doubling.capped_succ hlimit]

/-- The condition on the base is that it does not exceed the limit. -/
theorem base_le_max_iff (hmax : 0 ≤ cfg.max) :
    (cfg.max = 0 ∨ cfg.base ≤ cfg.max) ↔ cfg.base.toInt ≤ cfg.limit := by
  rw [base_le_limit_iff]
  constructor
  · rintro (hzero | hle) hpos
    · rw [hzero] at hpos
      exact absurd hpos (Int64.lt_irrefl)
    · exact hle
  · intro h
    rcases Int64.lt_or_eq_of_le hmax with hpos | hzero
    exacts [Or.inr (h hpos), Or.inl hzero.symm]

theorem limit_lt_iff : 0 < cfg.max ∧ cfg.max.toInt < 2 ^ 62 ↔ cfg.limit < 2 ^ 62 := by
  unfold limit
  split_ifs with hmax
  · exact and_iff_right hmax
  · exact iff_of_false (fun h => hmax h.1) (by decide)

/-- The waits follow the backoff if each of them is the stated one. -/
theorem followsBackoff_of_waits {n : Nat} {run : Trace RetrySig × Option (Option RetryError)}
    (hbase : 0 ≤ cfg.base.toInt)
    (hwait : ∀ k < n, (cfg.nextDelay^[k] cfg.base).toInt =
      Doubling.capped cfg.base.toInt cfg.limit k)
    (hwaits : waits run.1 = List.iterate cfg.nextDelay cfg.base n)
    (hbetween : run.1.map Event.op = .fn :: (waits run.1).flatMap fun d => [.select d, .fn])
    (hcalls : (calls run.1).length = n + 1) (hn : (n + 1 : Int) = cfg.maxAttempts.toInt)
    (hreturns : ∃ err, run.2 = some (some err)) : cfg.FollowsBackoff run := by
  have hget : ∀ k d, (waits run.1)[k]? = some d →
      d.toInt = Doubling.capped cfg.base.toInt cfg.limit k := by
    intro k d hd
    obtain ⟨hk, rfl⟩ := List.getElem?_eq_some_iff.mp hd
    simp only [hwaits, List.length_iterate] at hk
    simp only [hwaits, List.getElem_iterate]
    exact hwait k hk
  have hmem : ∀ d ∈ waits run.1, ∃ k, d.toInt = Doubling.capped cfg.base.toInt cfg.limit k := by
    intro d hd
    obtain ⟨k, hk⟩ := List.getElem?_of_mem hd
    exact ⟨k, hget k d hk⟩
  refine ⟨hreturns, by omega, ?_, hbetween, fun d hd => ?_, ?_, fun hmax d hd => ?_, hget⟩
  · rw [hwaits, List.length_iterate]
    omega
  · obtain ⟨k, hk⟩ := hmem d hd
    rw [Int64.le_iff_toInt_le, hk]
    exact Doubling.capped_nonneg hbase limit_nonneg k
  · rw [List.pairwise_iff_getElem]
    intro i j hi hj hij
    rw [Int64.le_iff_toInt_le, hget i _ (List.getElem?_eq_getElem hi),
      hget j _ (List.getElem?_eq_getElem hj)]
    exact Doubling.capped_mono hbase hij.le
  · obtain ⟨k, hk⟩ := hmem d hd
    have hlimit : cfg.limit = cfg.max.toInt := if_pos hmax
    rw [Int64.le_iff_toInt_le, hk, ← hlimit]
    exact Doubling.capped_le k

/-- A delay of `2 ^ 62` or more is not the last one if the delays fit. -/
theorem delaysFit_of_followsBackoff {run : Trace RetrySig × Option (Option RetryError)}
    (hattempts : 1 ≤ cfg.maxAttempts) (hmax : 0 ≤ cfg.max)
    (hwaits : waits run.1 = List.iterate cfg.nextDelay cfg.base (cfg.attempts - 1))
    (h : cfg.FollowsBackoff run) : cfg.DelaysFit := by
  have hget : ∀ k, k < cfg.attempts - 1 →
      (waits run.1)[k]? = some (cfg.nextDelay^[k] cfg.base) := by
    intro k hk
    rw [hwaits, List.getElem?_iterate _ _ _ _ hk]
  obtain ⟨hpos, hcast⟩ := attempts_pos hattempts
  by_cases hone : cfg.attempts = 1
  · left
    rw [← Int64.toInt_inj, ← hcast, hone]
    rfl
  -- there is a first wait, which is the base
  have hfirst : cfg.base.toInt ≤ cfg.limit := by
    have hwait := h.wait_eq 0 _ (hget 0 (by omega))
    rw [Function.iterate_zero_apply] at hwait
    rw [hwait]
    exact Doubling.capped_le 0
  refine Or.inr ⟨(base_le_max_iff hmax).mpr hfirst, ?_⟩
  rw [limit_lt_iff]
  by_contra hlong
  rw [not_or, not_lt, not_lt] at hlong
  have hlt := cfg.base.toInt_lt
  by_cases htwo : cfg.attempts = 2
  · rw [htwo, Nat.sub_self, pow_zero, mul_one] at hlong
    omega
  -- the wait before the last one is doubled to a negative one
  obtain ⟨k, hk⟩ : ∃ k, cfg.attempts = k + 3 := ⟨cfg.attempts - 3, by omega⟩
  have hwait := h.wait_eq k _ (hget k (by omega))
  have hcapped : 2 ^ 62 ≤ Doubling.capped cfg.base.toInt cfg.limit k := by
    refine le_min ?_ hlong.2
    have hdouble := hlong.1
    rw [hk, show k + 3 - 2 = k + 1 by omega, Doubling.mul_two_pow_succ] at hdouble
    omega
  rw [← hwait] at hcapped
  have hneg := toInt_nextDelay_neg hmax hcapped
  have hnonneg := h.nonneg _ (List.mem_of_getElem? (hget (k + 1) (by omega)))
  rw [Function.iterate_succ_apply', Int64.le_iff_toInt_le, Int64.toInt_zero] at hnonneg
  omega

end BackoffConfig

/-- A function that returns an error whatever has happened, and a context that is never done. -/
def failing (fn : Trace RetrySig → RetryError) (past : Trace RetrySig) :
    (o : RetryOp) → RetrySig.Ans o
  | .fn => some (fn past)
  | .select _ => none

/-- `Retry` with a function that keeps failing: what it does, and what it returns. -/
def BackoffConfig.retryFailing (cfg : BackoffConfig) (fn : Trace RetrySig → RetryError) :
    Trace RetrySig × Option (Option RetryError) :=
  cfg.retry.runWith (fun past o => some (failing fn past o)) []

theorem keepsFailing_retryFailing {cfg : BackoffConfig} {fn : Trace RetrySig → RetryError}
    (hfn : ∀ past, (fn past).asPermanent = none) : KeepsFailing (cfg.retryFailing fn).1 := by
  intro e he
  obtain ⟨past, hpast⟩ := exists_eq_of_mem_runWith he
  obtain ⟨op, x⟩ := e
  have hanswer : failing fn past op = x := Option.some.inj hpast
  subst hanswer
  cases op with
  | fn => exact ⟨fn past, rfl, hfn past⟩
  | select d => rfl

/-- **The backoff.** For a function that keeps failing, the waits are the base times the powers of
two up to the cap if and only if the base does not exceed the cap and no doubling overflows. -/
theorem followsBackoff_iff (cfg : BackoffConfig) (hattempts : 1 ≤ cfg.maxAttempts)
    (hbase : 0 ≤ cfg.base) (hmax : 0 ≤ cfg.max) (fn : Trace RetrySig → RetryError)
    (hfn : ∀ past, (fn past).asPermanent = none) :
    cfg.FollowsBackoff (cfg.retryFailing fn) ↔ cfg.DelaysFit := by
  have hfails : KeepsFailing (cfg.retryFailing fn).1 := keepsFailing_retryFailing hfn
  obtain ⟨r, hr⟩ : ∃ r, (cfg.retryFailing fn).2 = some r := exists_runWith_eq_some (failing fn) _ _
  have hexec : Exec cfg.retry (cfg.retryFailing fn).1 (some r) := hr ▸ exec_runWith _ cfg.retry []
  obtain ⟨hwaits, hbetween, hcalls, hsome⟩ := BackoffConfig.exec_retry hattempts hexec hfails
  obtain ⟨err, rfl⟩ := Option.isSome_iff_exists.mp hsome
  obtain ⟨hpos, hcast⟩ := BackoffConfig.attempts_pos hattempts
  have hbase' : 0 ≤ cfg.base.toInt := Int64.le_iff_toInt_le.mp hbase
  refine ⟨BackoffConfig.delaysFit_of_followsBackoff hattempts hmax hwaits, fun hfit => ?_⟩
  refine BackoffConfig.followsBackoff_of_waits hbase' (fun k hk => ?_) hwaits hbetween (by omega)
    (by omega) ⟨err, hr⟩
  rcases hfit with hone | ⟨hle, hlong⟩
  · rw [hone, Int64.toInt_one] at hcast
    omega
  rw [BackoffConfig.limit_lt_iff] at hlong
  refine BackoffConfig.toInt_iterate_nextDelay hbase'
    ((BackoffConfig.base_le_max_iff hmax).mp hle) k (hlong.imp_left fun hlt => ?_)
  have hpow : (2 : Int) ^ k ≤ 2 ^ (cfg.attempts - 2) :=
    pow_le_pow_right₀ one_le_two (by omega)
  exact (mul_le_mul_of_nonneg_left hpow hbase').trans_lt hlt

/-- The default backoff is followed. -/
theorem followsBackoff_defaultBackoff :
    defaultBackoff.FollowsBackoff (defaultBackoff.retryFailing fun _ => .text "boom") :=
  (followsBackoff_iff defaultBackoff (by decide) (by decide) (by decide) (fun _ => .text "boom")
    fun _ => rfl).mpr (by decide)

/-- Two calls, with a base of a minute and a cap of half a minute. -/
def minuteBackoff : BackoffConfig := ⟨2, 60 * 1000000000, 30 * 1000000000⟩

/-- **The first wait** is not capped. -/
theorem not_followsBackoff_minuteBackoff :
    ¬minuteBackoff.FollowsBackoff (minuteBackoff.retryFailing fun _ => .text "boom") := by
  intro h
  have hwait : waits (minuteBackoff.retryFailing fun _ => .text "boom").1 = [minuteBackoff.base] :=
    rfl
  have hmem : minuteBackoff.base ∈ waits (minuteBackoff.retryFailing fun _ => .text "boom").1 :=
    hwait ▸ List.mem_singleton_self _
  have hle := h.le_max (by decide) minuteBackoff.base hmem
  exact absurd hle (by decide)

end ScorecardInfra.Tokens
