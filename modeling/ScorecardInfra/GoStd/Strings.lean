import Mathlib.Algebra.Group.Int.Defs
import Mathlib.Algebra.GroupWithZero.Nat
import Mathlib.Data.List.Infix
import Mathlib.Tactic.Common

/-!
# Strings and their standard functions

A Go string is a sequence of bytes. It is modelled by a `String` read with one character for each
byte, so that `len` is the number of characters and `[]byte(s)` has the characters of `s`; the
functions below compare characters with ASCII characters only, for which the bytes of a string and
its runes agree.

* `cutAt c s` cuts a list at the first occurrence of `c` (`cutAt_eq_some`); `Strings.cut`,
  `Strings.splitN`, `Strings.trimLeft`, `Strings.trimSuffix` and `Strings.remove` are the functions
  `strings.Cut`, `strings.SplitN`, `strings.TrimLeft`, `strings.TrimSuffix` for one-character
  separators, and `strings.ReplaceAll` of a character by nothing; `Strings.cutPrefix` is
  `strings.CutPrefix`.
* `parseDigits` and `atoi` read decimal numbers (`atoi_toString`).
* `Hex.encodeToString` and `Hex.decodeString` are the functions of `encoding/hex`.

## Main results

* `cutAt_eq_some`, `cutAt_append`.
* `cut_eq_some`: `strings.Cut` at the first occurrence.
-/

namespace ScorecardInfra.GoStd

variable {α : Type} [DecidableEq α]

/-! ### Cutting at a separator -/

/-- The parts of a list before and after the first occurrence of `c`. -/
def cutAt (c : α) : List α → Option (List α × List α)
  | [] => none
  | x :: s => if x = c then some ([], s) else (cutAt c s).map fun p => (x :: p.1, p.2)

theorem cutAt_append {c : α} {a : List α} (ha : c ∉ a) (b : List α) :
    cutAt c (a ++ c :: b) = some (a, b) := by
  induction a with
  | nil => simp [cutAt]
  | cons x a ih =>
    rw [List.mem_cons, not_or] at ha
    simp only [List.cons_append, cutAt, if_neg (Ne.symm ha.1), ih ha.2, Option.map_some]

/-- A list is cut at the first occurrence of the separator. -/
theorem cutAt_eq_some {c : α} {s a b : List α} :
    cutAt c s = some (a, b) ↔ s = a ++ c :: b ∧ c ∉ a := by
  constructor
  · intro h
    induction s generalizing a with
    | nil => simp [cutAt] at h
    | cons x s ih =>
      by_cases hx : x = c
      · obtain ⟨rfl, rfl⟩ : [] = a ∧ s = b := by simpa [cutAt, hx] using h
        simp [hx]
      · simp only [cutAt, if_neg hx, Option.map_eq_some_iff] at h
        obtain ⟨⟨a', b'⟩, h', hp⟩ := h
        obtain ⟨rfl, rfl⟩ := Prod.mk.inj hp
        obtain ⟨rfl, ha'⟩ := ih h'
        exact ⟨rfl, by simp [ha', Ne.symm hx]⟩
  · rintro ⟨rfl, ha⟩
    exact cutAt_append ha b

/-- The cut is the only one whose first part is free of the separator. -/
theorem append_cons_inj_of_notMem {c : α} {a a' b b' : List α} (ha : c ∉ a) (ha' : c ∉ a')
    (h : a ++ c :: b = a' ++ c :: b') : a = a' ∧ b = b' := by
  have h₁ := cutAt_append ha b
  rw [h, cutAt_append ha' b'] at h₁
  obtain ⟨rfl, rfl⟩ := Prod.mk.inj (Option.some.inj h₁)
  exact ⟨rfl, rfl⟩

/-- The parts between the separators are free of them. -/
theorem notMem_of_mem_splitOn {c : α} {s part : List α} (h : part ∈ s.splitOn c) : c ∉ part := by
  induction s generalizing part with
  | nil => simp_all
  | cons d s ih =>
    obtain ⟨first, parts, hs⟩ := List.exists_cons_of_ne_nil (List.splitOn_ne_nil c s)
    rw [hs] at ih
    rw [List.splitOn_cons_eq_if_modifyHead, hs, List.modifyHead_cons] at h
    split_ifs at h with hd
    · rcases List.mem_cons.mp h with rfl | h
      exacts [List.not_mem_nil, ih h]
    · rcases List.mem_cons.mp h with rfl | h
      · rw [List.mem_cons, not_or]
        exact ⟨fun h => hd (by simp [← h]), ih List.mem_cons_self⟩
      · exact ih (List.mem_cons_of_mem _ h)

namespace Strings

/-- What a test finds of every character. -/
theorem forall_mem_of_all {p : Char → Prop} [DecidablePred p] {s : List Char}
    (h : s.all (fun c => decide (p c)) = true) : ∀ c ∈ s, p c := by
  intro c hc
  exact of_decide_eq_true (List.all_eq_true.mp h c hc)

/-- `strings.Cut` with a one-character separator, without its result for "not found". -/
def cut (s : String) (sep : Char) : Option (String × String) :=
  (cutAt sep s.toList).map fun p => (String.ofList p.1, String.ofList p.2)

theorem cut_eq_some {s a b : String} {sep : Char} :
    cut s sep = some (a, b) ↔ s = a ++ String.singleton sep ++ b ∧ sep ∉ a.toList := by
  rw [cut, Option.map_eq_some_iff]
  constructor
  · rintro ⟨⟨l, r⟩, h, hp⟩
    obtain ⟨rfl, rfl⟩ := Prod.mk.inj hp
    obtain ⟨hs, hl⟩ := cutAt_eq_some.mp h
    refine ⟨?_, by simpa using hl⟩
    rw [← String.toList_inj, hs]
    simp
  · rintro ⟨rfl, ha⟩
    exact ⟨(a.toList, b.toList), cutAt_eq_some.mpr ⟨by simp, ha⟩, by simp⟩

/-- `strings.SplitN` with a one-character separator and `n` parts at most. -/
def splitN (sep : Char) : Nat → String → List String
  | 0, _ => []
  | 1, s => [s]
  | n + 2, s => match cut s sep with
    | none => [s]
    | some (a, b) => a :: splitN sep (n + 1) b

/-- `strings.Split` with a one-character separator. -/
def split (s : String) (sep : Char) : List String := (s.toList.splitOn sep).map String.ofList

/-- `strings.Join` with a one-character separator. -/
def join (elems : List String) (sep : Char) : String :=
  String.ofList ([sep].intercalate (elems.map String.toList))

theorem join_split (s : String) (sep : Char) : join (split s sep) sep = s := by
  have hparts : (split s sep).map String.toList = s.toList.splitOn sep := by
    rw [split, List.map_map]
    exact (List.map_congr_left fun l _ => String.toList_ofList).trans (List.map_id _)
  rw [join, hparts, List.intercalate_splitOn, String.ofList_toList]

theorem notMem_of_mem_split {s part : String} {sep : Char} (h : part ∈ split s sep) :
    sep ∉ part.toList := by
  obtain ⟨l, hl, rfl⟩ := List.mem_map.mp h
  rw [String.toList_ofList]
  exact notMem_of_mem_splitOn hl

/-- **Round trip.** Parts without the separator are found again. -/
theorem split_join {elems : List String} {sep : Char} (h : ∀ elem ∈ elems, sep ∉ elem.toList)
    (hne : elems ≠ []) : split (join elems sep) sep = elems := by
  have hsep : ∀ l ∈ elems.map String.toList, sep ∉ l := by
    intro l hl
    obtain ⟨elem, helem, rfl⟩ := List.mem_map.mp hl
    exact h elem helem
  rw [split, join, String.toList_ofList, List.splitOn_intercalate sep hsep (by simpa using hne),
    List.map_map]
  exact (List.map_congr_left fun elem _ => String.ofList_toList).trans (List.map_id elems)

/-- `strings.TrimLeft` with a one-character cut set. -/
def trimLeft (s : String) (c : Char) : String := String.ofList (s.toList.dropWhile (· == c))

/-- `strings.TrimSuffix` with a one-character suffix. -/
def trimSuffix (s : String) (c : Char) : String :=
  cond (s.toList.getLast? == some c) (String.ofList s.toList.dropLast) s

/-- `strings.ReplaceAll` of a character by the empty string. -/
def remove (s : String) (c : Char) : String := String.ofList (s.toList.filter (· != c))

/-- `strings.HasPrefix`. -/
def hasPrefix (s p : String) : Bool := p.toList.isPrefixOf s.toList

/-- `strings.Contains`. -/
def contains (s substr : String) : Bool := decide (substr.toList <:+: s.toList)

/-- `strings.CutPrefix`, without its result for "not found". -/
def cutPrefix (s p : String) : Option String :=
  if hasPrefix s p then some (String.ofList (s.toList.drop p.toList.length)) else none

theorem cutPrefix_eq_some {s p t : String} : cutPrefix s p = some t ↔ s = p ++ t := by
  have happ : s = p ++ t ↔ s.toList = p.toList ++ t.toList := by
    rw [← String.toList_inj, String.toList_append]
  rw [happ]
  simp only [cutPrefix, hasPrefix, List.isPrefixOf_iff_prefix]
  constructor
  · intro h
    split_ifs at h with hp
    obtain ⟨l, hl⟩ := hp
    rw [← hl, List.drop_left, Option.some.injEq] at h
    rw [← hl, ← h, String.toList_ofList]
  · intro h
    rw [if_pos ⟨t.toList, h.symm⟩, h, List.drop_left, String.ofList_toList]

/-- `strings.TrimSpace` on ASCII white space. -/
def trimSpace (s : String) : String :=
  let isSpace := fun c => [' ', '\t', '\n', '\x0b', '\x0c', '\r'].contains c
  String.ofList ((s.toList.dropWhile isSpace).reverse.dropWhile isSpace).reverse

/-- `strings.ToLower` on ASCII letters. -/
def toLower (s : String) : String := s.map Char.toLower

theorem toLower_eq_self {s : String} (h : ∀ c ∈ s.toList, c.toLower = c) : toLower s = s := by
  refine String.toList_inj.mp ?_
  rw [toLower, String.toList_map, List.map_congr_left h, List.map_id']

/-- Lower-case characters stay as they are. -/
theorem toLower_toLower_char (c : Char) : c.toLower.toLower = c.toLower := by
  by_cases h : c.val ≥ 'A'.val ∧ c.val ≤ 'Z'.val
  · have hmem : c.toNat ∈ List.range' 65 26 :=
      List.mem_range'_1.mpr ⟨h.1, Nat.lt_succ_of_le h.2⟩
    have hall : ∀ n ∈ List.range' 65 26,
        (Char.ofNat n).toLower.toLower = (Char.ofNat n).toLower := by decide
    have hc := hall _ hmem
    rwa [Char.ofNat_toNat] at hc
  · have hc : c.toLower = c := dif_neg h
    rw [hc, hc]

theorem toLower_toLower (s : String) : toLower (toLower s) = toLower s := by
  refine String.toList_inj.mp ?_
  simp only [toLower, String.toList_map, List.map_map]
  exact List.map_congr_left fun c _ => toLower_toLower_char c

end Strings

/-! ### Decimal numbers -/

/-- The value of a nonempty string of decimal digits. -/
def parseDigits (s : List Char) : Option Nat :=
  if s ≠ [] ∧ s.all Char.isDigit then
    some (s.foldl (fun n c => 10 * n + (c.toNat - '0'.toNat)) 0)
  else none

/-- `strconv.Atoi` with a 64-bit `int`; `none` where it returns an error. -/
def atoi (s : String) : Option Int :=
  match s.toList with
  | '-' :: digits =>
    (parseDigits digits).bind fun n => if n ≤ 2 ^ 63 then some (-(n : Int)) else none
  | '+' :: digits => (parseDigits digits).bind fun n => if n < 2 ^ 63 then some (n : Int) else none
  | digits => (parseDigits digits).bind fun n => if n < 2 ^ 63 then some (n : Int) else none

theorem all_isDigit_toDigits (n : Nat) : (Nat.toDigits 10 n).all Char.isDigit :=
  List.all_eq_true.mpr fun _ hc => Nat.isDigit_of_mem_toDigits (by decide) (by decide) hc

theorem toDigits_ne_nil (n : Nat) : Nat.toDigits 10 n ≠ [] :=
  List.ne_nil_of_length_pos Nat.length_toDigits_pos

theorem exists_digit (n : Nat) : ∃ c t, Nat.toDigits 10 n = c :: t ∧ c.isDigit = true := by
  obtain ⟨c, t, h⟩ := List.exists_cons_of_ne_nil (toDigits_ne_nil n)
  have hall := all_isDigit_toDigits n
  rw [h, List.all_cons, Bool.and_eq_true] at hall
  exact ⟨c, t, h, hall.1⟩

theorem parseDigits_toDigits (n : Nat) : parseDigits (Nat.toDigits 10 n) = some n := by
  rw [parseDigits, if_pos ⟨toDigits_ne_nil n, all_isDigit_toDigits n⟩]
  exact congrArg some Nat.ofDigitChars_ten_toDigits

/-- **Reading a number back.** The digits of a number are read as it, if it is an `int`. -/
theorem atoi_toString (n : Nat) :
    atoi (toString n) = if n < 2 ^ 63 then some (n : Int) else none := by
  have hdigits : (toString n).toList = Nat.toDigits 10 n := String.toList_ofList
  obtain ⟨c, t, hcons, hc⟩ := exists_digit n
  have hne : c ≠ '-' ∧ c ≠ '+' := by
    constructor <;> (rintro rfl; revert hc; decide)
  rw [atoi, hdigits]
  split
  · rename_i heq
    exact absurd (List.cons_eq_cons.mp (hcons.symm.trans heq)).1 hne.1
  · rename_i heq
    exact absurd (List.cons_eq_cons.mp (hcons.symm.trans heq)).1 hne.2
  · rw [parseDigits_toDigits, Option.bind_some]

/-! ### Hexadecimal -/

namespace Hex

/-- The lower-case hexadecimal digit of a number below 16. -/
def digit (n : Nat) : Char := "0123456789abcdef".toList.getD n '0'

/-- The value of a hexadecimal digit in either case. -/
def value (c : Char) : Option Nat :=
  if '0' ≤ c ∧ c ≤ '9' then some (c.toNat - '0'.toNat)
  else if 'a' ≤ c ∧ c ≤ 'f' then some (c.toNat - 'a'.toNat + 10)
  else if 'A' ≤ c ∧ c ≤ 'F' then some (c.toNat - 'A'.toNat + 10)
  else none

/-- `[0-9a-fA-F]`. -/
def isDigit (c : Char) : Bool := (value c).isSome

/-- `hex.EncodeToString`: two digits for each byte. -/
def encodeToString (b : String) : String :=
  String.ofList (b.toList.flatMap fun c => [digit (c.toNat / 16 % 16), digit (c.toNat % 16)])

/-- The bytes that pairs of hexadecimal digits stand for. -/
def decodeDigits : List Char → Option (List Char)
  | [] => some []
  | [_] => none
  | h :: l :: s => do
    let h ← value h
    let l ← value l
    let s ← decodeDigits s
    return Char.ofNat (16 * h + l) :: s

/-- `hex.DecodeString`; `none` where it returns an error. -/
def decodeString (s : String) : Option String := (decodeDigits s.toList).map String.ofList

/-- The digits. -/
theorem mem_of_isDigit {c : Char} (h : isDigit c = true) :
    c ∈ "0123456789abcdefABCDEF".toList := by
  have hc : Char.ofNat c.toNat = c := Char.ofNat_toNat c
  have hrange : c.toNat ∈ List.range' 48 10 ∨ c.toNat ∈ List.range' 97 6 ∨
      c.toNat ∈ List.range' 65 6 := by
    unfold isDigit value at h
    simp only [List.mem_range'_1]
    split_ifs at h with h₁ h₂ h₃
    · exact Or.inl ⟨h₁.1, Nat.lt_succ_of_le h₁.2⟩
    · exact Or.inr (Or.inl ⟨h₂.1, Nat.lt_succ_of_le h₂.2⟩)
    · exact Or.inr (Or.inr ⟨h₃.1, Nat.lt_succ_of_le h₃.2⟩)
    · cases h
  have hall : ∀ n ∈ List.range' 48 10 ++ (List.range' 97 6 ++ List.range' 65 6),
      Char.ofNat n ∈ "0123456789abcdefABCDEF".toList := by decide
  rw [← hc]
  exact hall _ (by simpa only [List.mem_append] using hrange)

/-- A lower-case digit is that of its capital. -/
theorem toLower_toUpper {c : Char} (h : isDigit c = true) : c.toUpper.toLower = c.toLower := by
  have hall : ∀ c ∈ "0123456789abcdefABCDEF".toList, c.toUpper.toLower = c.toLower :=
    Strings.forall_mem_of_all (by decide)
  exact hall c (mem_of_isDigit h)

theorem isDigit_toUpper {c : Char} (h : isDigit c = true) : isDigit c.toUpper = true := by
  have hall : ∀ c ∈ "0123456789abcdefABCDEF".toList, isDigit c.toUpper = true :=
    Strings.forall_mem_of_all (by decide)
  exact hall c (mem_of_isDigit h)

/-- Decimal digits have one case. -/
theorem eq_of_toLower_isDigit {c : Char} (h : isDigit c = true)
    (hlower : c.toLower.isDigit = true) :
    c.toLower = c := by
  have hall : ∀ c ∈ "0123456789abcdefABCDEF".toList, c.toLower.isDigit = true → c.toLower = c :=
    Strings.forall_mem_of_all (by decide)
  exact hall c (mem_of_isDigit h) hlower

/-- Letters have two. -/
theorem isDigit_of_toUpper_eq {c : Char} (h : isDigit c = true) (hlower : c.toLower = c)
    (hupper : c.toUpper = c) : c.isDigit = true := by
  have hall : ∀ c ∈ "0123456789abcdefABCDEF".toList,
      c.toLower = c → c.toUpper = c → c.isDigit = true :=
    Strings.forall_mem_of_all (by decide)
  exact hall c (mem_of_isDigit h) hlower hupper

/-- The two digits of a byte. -/
def digits (c : Char) : List Char := [digit (c.toNat / 16 % 16), digit (c.toNat % 16)]

theorem toList_encodeToString (b : String) : (encodeToString b).toList = b.toList.flatMap digits :=
  String.toList_ofList

/-- A digit is the one of its value, in lower case. -/
theorem digit_of_value {c : Char} {n : Nat} (h : value c = some n) :
    n < 16 ∧ digit n = c.toLower := by
  have hall : ∀ c ∈ "0123456789abcdefABCDEF".toList,
      (value c).all (fun n => decide (n < 16) && digit n == c.toLower) = true :=
    Strings.forall_mem_of_all (by decide)
  have hc := hall c (mem_of_isDigit (by rw [isDigit, h]; rfl))
  rw [h, Option.all_some, Bool.and_eq_true, decide_eq_true_eq, beq_iff_eq] at hc
  exact hc

theorem value_digit {n : Nat} (h : n < 16) : value (digit n) = some n := by
  have hall : ∀ n < 16, value (digit n) = some n := by decide
  exact hall n h

/-- **Decoding** reads bytes, and their digits are the text in lower case. -/
theorem of_decodeDigits : {s b : List Char} → decodeDigits s = some b →
    b.flatMap digits = s.map Char.toLower ∧ ∀ c ∈ b, c.toNat < 256
  | [], b, h => by
    cases h
    exact ⟨rfl, nofun⟩
  | [_], _, h => by cases h
  | c :: d :: s, b, h => by
    simp only [decodeDigits, Option.bind_eq_bind, Option.bind_eq_some_iff, Option.pure_def,
      Option.some_inj] at h
    obtain ⟨n, hn, m, hm, t, ht, rfl⟩ := h
    obtain ⟨htext, hbytes⟩ := of_decodeDigits ht
    obtain ⟨hn', hc⟩ := digit_of_value hn
    obtain ⟨hm', hd⟩ := digit_of_value hm
    have hbyte : (Char.ofNat (16 * n + m)).toNat = 16 * n + m := by
      have hall : ∀ n < 256, (Char.ofNat n).toNat = n := by decide +kernel
      exact hall _ (by omega)
    refine ⟨?_, List.forall_mem_cons.mpr ⟨by rw [hbyte]; omega, hbytes⟩⟩
    rw [List.flatMap_cons, htext, digits, hbyte, show (16 * n + m) / 16 % 16 = n by omega,
      show (16 * n + m) % 16 = m by omega, hc, hd]
    rfl

/-- **Round trip.** The digits of bytes are decoded to them. -/
theorem decodeDigits_flatMap : {b : List Char} → (∀ c ∈ b, c.toNat < 256) →
    decodeDigits (b.flatMap digits) = some b
  | [], _ => rfl
  | c :: b, h => by
    obtain ⟨hc, hb⟩ := List.forall_mem_cons.mp h
    have hchar : Char.ofNat (16 * (c.toNat / 16 % 16) + c.toNat % 16) = c := by
      rw [show 16 * (c.toNat / 16 % 16) + c.toNat % 16 = c.toNat by omega, Char.ofNat_toNat]
    rw [List.flatMap_cons, digits, List.cons_append, List.cons_append, List.nil_append,
      decodeDigits,
      value_digit (by omega), value_digit (by omega), decodeDigits_flatMap hb]
    simp only [Option.bind_eq_bind, Option.bind_some, hchar]
    rfl

end Hex

end ScorecardInfra.GoStd
