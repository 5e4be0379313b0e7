import ScorecardInfra.GoStd.Json

/-!
# Reading back a JSON text

Each part of the parser reads back what the printer writes for it: strings up to the coercion to
valid UTF-8, numbers with their literal, lists from what their items read as, and so the texts of
trees.

## Main definitions

* `Stops`, `Starts`: what follows a value, and what a value starts with.
* `Reads`: a parser reads a text as a value, and stops after it.

## Main results

* `parseString_quote`, `parseNum_text`, `parseList_intercalate`, `reads_print`.
* `parse_marshal`: a text denotes the tree it was written for, with its strings coerced.
-/

namespace ScorecardInfra.GoStd

/-! ### Strings -/

private theorem lexString_byte {c : Char} (hq : c ≠ '"') (hb : c ≠ '\\') (hc : ¬c.toNat < 0x20)
    (s : List Char) : lexString (c :: s) = (lexString s).map fun p => (.byte c :: p.1, p.2) := by
  rw [lexString.eq_def]
  dsimp only
  rw [if_neg hq, if_neg hb, if_neg hc]

private theorem lexString_escape {e b : Char} (hu : e ≠ 'u') (he : unescape e = some b)
    (s : List Char) :
    lexString ('\\' :: e :: s) = (lexString s).map fun p => (.byte b :: p.1, p.2) := by
  rw [lexString.eq_def]
  dsimp only
  rw [if_neg (by decide), if_pos rfl]
  split
  next heq => exact absurd (List.cons.inj heq).1 hu
  next heq =>
    obtain ⟨rfl, rfl⟩ := List.cons.inj heq
    rw [he, Option.bind_some]
  next heq => cases heq

private theorem lexString_code {a b c d : Char} {n : Nat} (h : hex4 a b c d = some n)
    (s : List Char) : lexString ('\\' :: 'u' :: a :: b :: c :: d :: s) =
      (lexString s).map fun p => (.code n :: p.1, p.2) := by
  calc lexString ('\\' :: 'u' :: a :: b :: c :: d :: s)
      = (hex4 a b c d).bind fun n => (lexString s).map fun p => (.code n :: p.1, p.2) := rfl
    _ = (lexString s).map fun p => (.code n :: p.1, p.2) := by rw [h, Option.bind_some]

private theorem combine_code {n : Nat} (h : n < 0xD800 ∨ 0xDC00 ≤ n) (units : List StrUnit) :
    combine (.code n :: units) = Utf8.encodeRune n ++ combine units := by
  rcases units with - | ⟨c | m, units⟩
  · rfl
  · rfl
  · rw [combine.eq_3, if_neg (by omega)]

/-- What a text reads as, whatever follows it. -/
private def ReadsAs (text bytes : List Char) : Prop :=
  ∃ us, (∀ s, lexString (text ++ s) = (lexString s).map fun p => (us ++ p.1, p.2)) ∧
    ∀ units, combine (us ++ units) = bytes ++ combine units

private theorem readsAs_code {a b c d : Char} {n : Nat} {bytes : List Char}
    (h : hex4 a b c d = some n) (hn : n < 0xD800 ∨ 0xDC00 ≤ n)
    (hbytes : Utf8.encodeRune n = bytes) :
    ReadsAs ['\\', 'u', a, b, c, d] bytes :=
  ⟨[.code n], lexString_code h, fun units => by rw [List.singleton_append, combine_code hn, hbytes]⟩

private theorem readsAs_escape {e b : Char} (hu : e ≠ 'u') (he : unescape e = some b) :
    ReadsAs ['\\', e] [b] :=
  ⟨[.byte b], lexString_escape hu he, fun _ => rfl⟩

private theorem readsAs_bytes {r : List Char}
    (h : ∀ c ∈ r, c ≠ '"' ∧ c ≠ '\\' ∧ ¬c.toNat < 0x20) : ReadsAs r r := by
  induction r with
  | nil => exact ⟨[], fun s => by simp, fun _ => rfl⟩
  | cons c r ih =>
    obtain ⟨us, hlex, hcombine⟩ := ih fun d hd => h d (List.mem_cons_of_mem _ hd)
    obtain ⟨hq, hb, hc⟩ := h c List.mem_cons_self
    refine ⟨.byte c :: us, fun s => ?_, fun units => ?_⟩
    · rw [List.cons_append, lexString_byte hq hb hc, hlex, Option.map_map]
      rfl
    · rw [List.cons_append, combine, hcombine, List.cons_append]

private theorem value_digit {n : Nat} (h : n < 16) : Hex.value (Hex.digit n) = some n := by
  have hall : ∀ n < 16, Hex.value (Hex.digit n) = some n := by decide
  exact hall n h

private theorem readsAs_escapeByte {c : Char} (hc : c.toNat ≤ 0x7F) :
    ReadsAs (escapeByte c) [c] := by
  unfold escapeByte
  split_ifs with hquote hb hf hn hr ht hhex
  · rcases hquote with rfl | rfl <;> exact readsAs_escape (by decide) (by decide)
  · rw [hb]
    exact readsAs_escape (by decide) (by decide)
  · rw [hf]
    exact readsAs_escape (by decide) (by decide)
  · rw [hn]
    exact readsAs_escape (by decide) (by decide)
  · rw [hr]
    exact readsAs_escape (by decide) (by decide)
  · rw [ht]
    exact readsAs_escape (by decide) (by decide)
  · have hhi := value_digit (show c.toNat / 16 < 16 by omega)
    have hlo := value_digit (Nat.mod_lt c.toNat (show 0 < 16 by decide))
    refine readsAs_code (n := c.toNat) ?_ (Or.inl (by omega)) ?_
    · have hzero : Hex.value '0' = some 0 := by decide
      simp only [hex4, hzero, hhi, hlo, Option.bind_eq_bind, Option.bind_some, Option.pure_def,
        Option.some.injEq]
      omega
    · rw [Utf8.encodeRune, if_pos (by omega), Char.ofNat_toNat]
  · rw [not_or] at hquote
    refine readsAs_bytes fun d hd => ?_
    rw [List.mem_singleton.mp hd]
    exact ⟨hquote.1, hquote.2, fun h => hhex (Or.inl h)⟩

/-- The bytes of an encoding of several bytes are not ASCII. -/
private theorem le_of_mem_rune {c d : Char} {s : List Char} (h : Utf8.IsRune (c :: d :: s)) :
    ∀ b ∈ c :: d :: s, 0x80 ≤ b.toNat := by
  obtain ⟨c', s', ranges, heq, hranges, hlen, hstarts⟩ := h
  obtain ⟨rfl, rfl⟩ := List.cons.inj heq
  have hlow : ∀ ranges s, (∀ r ∈ ranges, 0x80 ≤ r.1) → s.length = ranges.length →
      Utf8.startsIn ranges s → ∀ b ∈ s, 0x80 ≤ b.toNat := by
    intro ranges
    induction ranges with
    | nil =>
      intro s _ hlen _ b hb
      rw [List.length_eq_zero_iff.mp hlen] at hb
      cases hb
    | cons r ranges ih =>
      intro s hr hlen hstarts b hb
      obtain ⟨x, s, rfl⟩ := List.exists_cons_of_length_eq_add_one hlen
      simp only [Utf8.startsIn, Bool.and_eq_true, decide_eq_true_eq] at hstarts
      rcases List.mem_cons.mp hb with rfl | hb
      · exact Nat.le_trans (hr r List.mem_cons_self) hstarts.1.1
      · exact ih s (fun r' h' => hr r' (List.mem_cons_of_mem _ h')) (Nat.succ.inj hlen)
          hstarts.2 b hb
  have hfirst : 0x80 ≤ c.toNat ∧ ∀ r ∈ ranges, 0x80 ≤ r.1 := by
    unfold Utf8.tailRanges at hranges
    split_ifs at hranges <;> obtain rfl := Option.some.inj hranges
    · cases hlen
    all_goals exact ⟨by omega, by decide⟩
  intro b hb
  rcases List.mem_cons.mp hb with rfl | hb
  · exact hfirst.1
  · exact hlow ranges _ hfirst.2 hlen hstarts b hb

private theorem readsAs_escapeRune {x : Option (List Char)} (h : Utf8.IsRune (Utf8.runeBytes x)) :
    ReadsAs (escapeRune x) (Utf8.runeBytes x) := by
  rcases x with - | ⟨- | ⟨c, - | ⟨d, s⟩⟩⟩
  · exact readsAs_code (n := 0xFFFD) (by decide) (by decide) (by decide)
  · obtain ⟨c, s, ranges, heq, -⟩ := h
    cases heq
  · obtain ⟨c', s, ranges, heq, hranges, hlen, -⟩ := h
    obtain ⟨rfl, rfl⟩ := List.cons.inj heq
    refine readsAs_escapeByte ?_
    by_contra hc
    unfold Utf8.tailRanges at hranges
    split_ifs at hranges <;> obtain rfl := Option.some.inj hranges <;> cases hlen
  · have hbytes := le_of_mem_rune h
    rw [escapeRune]
    split_ifs with h8 h9
    · rw [Utf8.runeBytes, Option.getD_some, h8]
      exact readsAs_code (n := 0x2028) (by decide) (by decide) (by decide)
    · rw [Utf8.runeBytes, Option.getD_some, h9]
      exact readsAs_code (n := 0x2029) (by decide) (by decide) (by decide)
    · refine readsAs_bytes fun b hb => ?_
      have hb' := hbytes b hb
      refine ⟨?_, ?_, by omega⟩
      · rintro rfl
        exact absurd hb' (by decide)
      · rintro rfl
        exact absurd hb' (by decide)
    · intro c' heq
      cases heq

private theorem readsAs_flatMap {xs : List (Option (List Char))}
    (h : ∀ x ∈ xs, Utf8.IsRune (Utf8.runeBytes x)) :
    ReadsAs (xs.flatMap escapeRune) (xs.flatMap Utf8.runeBytes) := by
  induction xs with
  | nil => exact ⟨[], fun s => by simp, fun _ => rfl⟩
  | cons x xs ih =>
    obtain ⟨us, hlex, hcombine⟩ := readsAs_escapeRune (h x List.mem_cons_self)
    obtain ⟨us', hlex', hcombine'⟩ := ih fun y hy => h y (List.mem_cons_of_mem _ hy)
    refine ⟨us ++ us', fun s => ?_, fun units => ?_⟩
    · rw [List.flatMap_cons, List.append_assoc, hlex, hlex', Option.map_map]
      simp only [Function.comp_def, List.append_assoc]
    · rw [List.append_assoc, hcombine, hcombine', List.flatMap_cons, List.append_assoc]

/-- **Strings.** A quoted string reads as itself, coerced to valid UTF-8. -/
theorem parseString_quote (s : String) (rest : List Char) :
    parseString ((Utf8.runes s.toList).flatMap escapeRune ++ '"' :: rest) =
      some (toValidUTF8 s, rest) := by
  obtain ⟨us, hlex, hcombine⟩ :=
    readsAs_flatMap fun x hx => Utf8.isRune_runeBytes (s := s.toList) hx
  have hend : lexString ('"' :: rest) = some ([], rest) := by
    rw [lexString.eq_def]
    exact if_pos rfl
  have hall := hcombine []
  rw [List.append_nil, combine, List.append_nil] at hall
  rw [parseString, hlex, hend, Option.map_some, Option.map_some, List.append_nil, hall,
    ← Utf8.toValid, Utf8.toValid_toValid]
  rfl

/-! ### Numbers -/

/-- What follows a value: no character that would go on with a number. -/
def Stops (s : List Char) : Prop :=
  ∀ c t, s = c :: t → c.isDigit = false ∧ c ≠ '.' ∧ c ≠ 'e' ∧ c ≠ 'E'

private theorem parseDigits1_append {ds s : List Char} (hne : ds ≠ []) (h : ds.all Char.isDigit)
    (hs : ∀ c t, s = c :: t → c.isDigit = false) : parseDigits1 (ds ++ s) = some (ds, s) := by
  have hall : ∀ c ∈ ds, c.isDigit := List.all_eq_true.mp h
  have htake : (ds ++ s).takeWhile Char.isDigit = ds := by
    rw [List.takeWhile_append_of_pos hall]
    cases s with
    | nil => simp
    | cons c t => rw [List.takeWhile_cons_of_neg (by simp [hs c t rfl]), List.append_nil]
  have hdrop : (ds ++ s).dropWhile Char.isDigit = s := by
    rw [List.dropWhile_append_of_pos hall]
    cases s with
    | nil => rfl
    | cons c t => rw [List.dropWhile_cons_of_neg (by simp [hs c t rfl])]
  rw [parseDigits1, htake, hdrop, if_neg hne]

private theorem digit_ne {c : Char} (h : c.isDigit = true) :
    c ≠ '-' ∧ c ≠ '+' ∧ c ≠ '.' ∧ c ≠ '"' ∧ c ≠ 'n' ∧ c ≠ 't' ∧ c ≠ 'f' ∧ c ≠ '[' ∧ c ≠ '{' := by
  refine ⟨?_, ?_, ?_, ?_, ?_, ?_, ?_, ?_, ?_⟩ <;> (rintro rfl; revert h; decide)

private theorem parseSigned_text (e : Int) {s : List Char}
    (hs : ∀ c t, s = c :: t → c.isDigit = false) :
    parseSigned ((if e < 0 then ['-'] else []) ++ Nat.toDigits 10 e.natAbs ++ s) = some (e, s) := by
  have hparse := parseDigits1_append (toDigits_ne_nil e.natAbs) (all_isDigit_toDigits e.natAbs) hs
  by_cases hneg : e < 0
  · rw [if_pos hneg, List.singleton_append, List.cons_append, parseSigned, hparse, Option.map_some,
      Nat.ofDigitChars_ten_toDigits]
    congr 2
    omega
  · obtain ⟨c, t, heq, hc⟩ := exists_digit e.natAbs
    have hhead : ∀ d u, Nat.toDigits 10 e.natAbs ++ s = d :: u → d.isDigit = true := by
      intro d u h
      rw [heq] at h
      exact (List.cons.inj h).1 ▸ hc
    rw [if_neg hneg, List.nil_append, parseSigned.eq_3, hparse, Option.map_some,
      Nat.ofDigitChars_ten_toDigits]
    · congr 2
      omega
    · intro u hu
      exact absurd (hhead _ u hu) (by decide)
    · intro u hu
      exact absurd (hhead _ u hu) (by decide)

private theorem parseExp_expText (e : Option Int) {s : List Char} (hs : Stops s) :
    parseExp (expText e ++ s) = some (e, s) := by
  cases e with
  | none =>
    cases s with
    | nil => rfl
    | cons c t =>
      obtain ⟨-, -, he, hE⟩ := hs c t rfl
      rw [expText, List.nil_append, parseExp, if_neg (not_or.mpr ⟨he, hE⟩)]
  | some e =>
    rw [expText, List.cons_append, parseExp, if_pos (Or.inl rfl),
      parseSigned_text e fun c t h => (hs c t h).1, Option.map_some]

private theorem parseFrac_fracText {frac s : List Char} (h : frac.all Char.isDigit)
    (hs : ∀ c t, s = c :: t → c.isDigit = false ∧ c ≠ '.') :
    parseFrac (fracText frac ++ s) = some (frac, s) := by
  rw [fracText]
  split_ifs with hnil
  · rw [hnil, List.nil_append, parseFrac.eq_2]
    intro t ht
    exact (hs _ t ht).2 rfl
  · rw [List.cons_append, parseFrac]
    exact parseDigits1_append hnil h fun c t ht => (hs c t ht).1

/-- What comes after the digits before the point goes on with none. -/
private theorem expText_stops (e : Option Int) {s : List Char} (hs : Stops s) :
    ∀ c t, expText e ++ s = c :: t → c.isDigit = false ∧ c ≠ '.' := by
  intro c t h
  cases e with
  | none => exact ⟨(hs c t h).1, (hs c t h).2.1⟩
  | some e =>
    obtain ⟨rfl, -⟩ := List.cons.inj h
    decide

private theorem fracText_stops (frac : List Char) {s : List Char}
    (hs : ∀ c t, s = c :: t → c.isDigit = false ∧ c ≠ '.') :
    ∀ c t, fracText frac ++ s = c :: t → c.isDigit = false := by
  intro c t h
  rw [fracText] at h
  split_ifs at h with hnil
  · exact (hs c t h).1
  · obtain ⟨rfl, -⟩ := List.cons.inj h
    decide

private theorem parseUnsigned_text (neg : Bool) (n : NumLit) {s : List Char} (hs : Stops s) :
    parseUnsigned neg (Nat.toDigits 10 n.whole ++ (fracText n.frac ++ expText n.exp) ++ s) =
      some ({ n with neg := neg }, s) := by
  have hexp := expText_stops n.exp hs
  have hwhole := parseDigits1_append (toDigits_ne_nil n.whole) (all_isDigit_toDigits n.whole)
    (fracText_stops n.frac hexp)
  rw [parseUnsigned, List.append_assoc, List.append_assoc, hwhole]
  simp only [Option.bind_eq_bind, Option.bind_some, Nat.ofDigitChars_ten_toDigits, ne_eq,
    not_true_eq_false, if_false, parseFrac_fracText n.frac_digits hexp,
    parseExp_expText n.exp hs, n.frac_digits, dite_true]

/-- **Numbers.** The text of a number reads as the number. -/
theorem parseNum_text (n : NumLit) {s : List Char} (hs : Stops s) :
    parseNum (n.text ++ s) = some (n, s) := by
  have h := fun neg => parseUnsigned_text neg n hs
  rw [NumLit.text]
  cases hneg : n.neg with
  | true =>
    rw [if_pos rfl, List.singleton_append, List.cons_append, parseNum, h, ← hneg]
  | false =>
    rw [if_neg (by decide), List.nil_append, parseNum.eq_2, h, ← hneg]
    intro t ht
    obtain ⟨c, u, heq, hc⟩ := exists_digit n.whole
    rw [heq] at ht
    exact (digit_ne hc).1 (List.cons.inj ht).1

/-! ### Lists -/

/-- The text of a value starts with no white space and no closing bracket. -/
def Starts (s : List Char) : Prop :=
  ∃ c t, s = c :: t ∧ isJsonSpace c = false ∧ c ≠ ']' ∧ c ≠ '}'

/-- Where something that ends a value follows the text, a parser reads the value and stops there. -/
def Reads {α : Type} (item : List Char → Option (α × List Char)) (text : List Char) (x : α) :
    Prop :=
  Starts text ∧ ∀ s, Stops s → item (text ++ s) = some (x, s)

theorem stops_cons {c : Char} (h : c ∈ [',', ']', '}', '\n']) (s : List Char) : Stops (c :: s) := by
  intro d t heq
  obtain ⟨rfl, -⟩ := List.cons.inj heq
  have hall : ∀ c ∈ [',', ']', '}', '\n'], c.isDigit = false ∧ c ≠ '.' ∧ c ≠ 'e' ∧ c ≠ 'E' :=
    Strings.forall_mem_of_all (by decide)
  exact hall c h

private theorem skipSpace_cons {c : Char} (h : isJsonSpace c = false) (s : List Char) :
    skipSpace (c :: s) = c :: s :=
  List.dropWhile_cons_of_neg (by simp [h])

private theorem skipToken_cons {c : Char} (h : isJsonSpace c = false) (s : List Char) :
    skipToken c (c :: s) = some s := by
  rw [skipToken, skipSpace_cons h]
  exact if_pos rfl

section Lists

variable {α : Type} {item : List Char → Option (α × List Char)} {close : Char}
  {texts : List (List Char)} {xs : List α}

private theorem length_le_intercalate (texts : List (List Char)) :
    texts.length ≤ (List.intercalate [','] texts).length + 1 := by
  induction texts with
  | nil => exact Nat.zero_le _
  | cons text texts ih =>
    rcases texts with - | ⟨text', texts⟩
    · exact Nat.le_add_left 1 _
    · rw [List.intercalate_cons_cons, List.length_append, List.length_append, List.length_cons,
        List.length_singleton]
      omega

private theorem parseItems_intercalate (hclose : close = ']' ∨ close = '}')
    (h : List.Forall₂ (Reads item) texts xs) (hne : texts ≠ []) {k : Nat} (hk : texts.length ≤ k)
    (s : List Char) : parseItems item close k (List.intercalate [','] texts ++ close :: s) =
      some (xs, s) := by
  have hspace : isJsonSpace close = false := by rcases hclose with rfl | rfl <;> decide
  have hcomma : ',' ≠ close := by rcases hclose with rfl | rfl <;> decide
  induction h generalizing k with
  | nil => exact absurd rfl hne
  | @cons text x texts xs hx hxs ih =>
    obtain ⟨k, rfl⟩ : ∃ k', k = k' + 1 := Nat.exists_eq_add_one.mpr (Nat.zero_lt_of_lt hk)
    rw [parseItems]
    cases hxs with
    | nil =>
      have hstop : Stops (close :: s) := by
        rcases hclose with rfl | rfl <;> exact stops_cons (by decide) s
      rw [List.intercalate_singleton, hx.2 _ hstop, Option.bind_some, skipSpace_cons hspace]
      exact if_pos rfl
    | @cons text' y texts ys hy hys =>
      rw [List.intercalate_cons_cons, List.append_assoc, List.append_assoc, List.singleton_append,
        hx.2 _ (stops_cons (by decide) _), Option.bind_some, skipSpace_cons (by decide)]
      dsimp only
      rw [if_neg hcomma, if_pos rfl, ih (List.cons_ne_nil _ _) (Nat.le_of_succ_le_succ hk),
        Option.map_some]

/-- **Lists.** Texts between commas read as the list of what each reads as. -/
theorem parseList_intercalate (hclose : close = ']' ∨ close = '}')
    (h : List.Forall₂ (Reads item) texts xs) (s : List Char) :
    parseList item close (List.intercalate [','] texts ++ close :: s) = some (xs, s) := by
  have hspace : isJsonSpace close = false := by rcases hclose with rfl | rfl <;> decide
  rw [parseList]
  cases h with
  | nil =>
    rw [List.intercalate_nil, List.nil_append, skipSpace_cons hspace]
    exact if_pos rfl
  | @cons text x texts xs hx hxs =>
    have hall := List.Forall₂.cons hx hxs
    have hstarts : ∃ t, List.intercalate [','] (text :: texts) = text ++ t := by
      cases texts with
      | nil => exact ⟨[], by rw [List.intercalate_singleton, List.append_nil]⟩
      | cons text' texts => exact ⟨_, by rw [List.intercalate_cons_cons, List.append_assoc]⟩
    obtain ⟨t, ht⟩ := hstarts
    have hlen := length_le_intercalate (text :: texts)
    have hitems := parseItems_intercalate hclose hall (List.cons_ne_nil _ _)
      (k := (List.intercalate [','] (text :: texts) ++ close :: s).length)
      (by simp only [List.length_append, List.length_cons] at hlen ⊢; omega) s
    obtain ⟨c, u, rfl, hc, hbracket, hbrace⟩ := hx.1
    have hne : c ≠ close := by rcases hclose with rfl | rfl <;> assumption
    have hskip : skipSpace (List.intercalate [','] ((c :: u) :: texts) ++ close :: s) =
        List.intercalate [','] ((c :: u) :: texts) ++ close :: s := by
      rw [ht, List.append_assoc, List.cons_append, skipSpace_cons hc]
    rw [hskip]
    rw [ht, List.append_assoc, List.cons_append] at hitems ⊢
    dsimp only
    rw [if_neg hne]
    exact hitems

theorem starts_quote (key : String) (s : List Char) : Starts (quote key ++ s) :=
  ⟨'"', _, rfl, by decide, by decide, by decide⟩

theorem quote_append (key : String) (s : List Char) :
    quote key ++ s = '"' :: ((Utf8.runes key.toList).flatMap escapeRune ++ '"' :: s) := by
  rw [quote, List.cons_append, List.append_assoc, List.singleton_append]

theorem reads_member {text : List Char} {x : α} (key : String) (h : Reads item text x) :
    Reads (parseMember item) (quote key ++ ':' :: text) (toValidUTF8 key, x) := by
  refine ⟨starts_quote key _, fun s hs => ?_⟩
  rw [parseMember, List.append_assoc, quote_append, skipToken_cons (by decide), Option.bind_some,
    parseString_quote, Option.bind_some, List.cons_append, skipToken_cons (by decide),
    Option.bind_some, h.2 s hs, Option.map_some]

end Lists

/-! ### Values -/

private theorem parseValue_of_ne {c : Char} (hspace : isJsonSpace c = false) (hbracket : c ≠ '[')
    (hbrace : c ≠ '{') (n : Nat) (s : List Char) :
    parseValue n (c :: s) = parseScalar (c :: s) := by
  cases n with
  | zero =>
    rw [parseValue, skipSpace_cons hspace]
    exact if_neg (not_or.mpr ⟨hbracket, hbrace⟩)
  | succ n =>
    rw [parseValue, skipSpace_cons hspace]
    dsimp only
    rw [if_neg hbracket, if_neg hbrace]

private theorem reads_num (m : NumLit) (n : Nat) : Reads (parseValue n) m.text (.num m) := by
  have hhead : ∃ c t, m.text = c :: t ∧ (c = '-' ∨ c.isDigit = true) := by
    obtain ⟨c, t, heq, hc⟩ := exists_digit m.whole
    rw [NumLit.text]
    cases m.neg with
    | true => exact ⟨_, _, rfl, Or.inl rfl⟩
    | false => exact ⟨c, _, by rw [heq]; rfl, Or.inr hc⟩
  obtain ⟨c, t, heq, hc⟩ := hhead
  have hne : isJsonSpace c = false ∧ c ≠ ']' ∧ c ≠ '}' ∧ c ≠ '[' ∧ c ≠ '{' ∧ c ≠ '"' ∧ c ≠ 'n' ∧
      c ≠ 't' ∧ c ≠ 'f' := by
    rcases hc with rfl | hc
    · decide
    · refine ⟨?_, ?_, ?_, ?_, ?_, ?_, ?_, ?_, ?_⟩
      · by_contra h
        rw [Bool.not_eq_false] at h
        simp only [isJsonSpace, Bool.or_eq_true, beq_iff_eq] at h
        rcases h with ((rfl | rfl) | rfl) | rfl <;> revert hc <;> decide
      all_goals (rintro rfl; revert hc; decide)
  obtain ⟨hspace, hclose, hclose', hbracket, hbrace, hq, hn, ht, hf⟩ := hne
  refine ⟨⟨c, t, heq, hspace, hclose, hclose'⟩, fun s hs => ?_⟩
  have hnum := parseNum_text m hs
  rw [heq, List.cons_append] at hnum ⊢
  rw [parseValue_of_ne hspace hbracket hbrace, parseScalar, if_neg hq, if_neg hn, if_neg ht,
    if_neg hf, hnum, Option.map_some]

private theorem reads_str (s : String) (n : Nat) :
    Reads (parseValue n) (quote s) (.str (toValidUTF8 s)) := by
  refine ⟨⟨'"', _, rfl, by decide, by decide, by decide⟩, fun rest _ => ?_⟩
  rw [quote_append, parseValue_of_ne (by decide) (by decide) (by decide), parseScalar, if_pos rfl,
    parseString_quote, Option.map_some]

mutual

/-- **Values.** The text of a value reads as the value, coerced. -/
theorem reads_print (n : Nat) : (j : Json) → j.depth ≤ n → Reads (parseValue n) j.print j.coerce
  | .null, _ => ⟨⟨_, _, rfl, by decide⟩, fun s _ => by
      rw [Json.print, List.cons_append, parseValue_of_ne (by decide) (by decide) (by decide)]
      rfl⟩
  | .bool true, _ => ⟨⟨_, _, rfl, by decide⟩, fun s _ => by
      rw [Json.print, List.cons_append, parseValue_of_ne (by decide) (by decide) (by decide)]
      rfl⟩
  | .bool false, _ => ⟨⟨_, _, rfl, by decide⟩, fun s _ => by
      rw [Json.print, List.cons_append, parseValue_of_ne (by decide) (by decide) (by decide)]
      rfl⟩
  | .num m, _ => reads_num m n
  | .str s, _ => reads_str s n
  | .arr elems, h => by
    refine ⟨⟨'[', _, rfl, by decide⟩, fun s _ => ?_⟩
    obtain ⟨n, rfl⟩ : ∃ n', n = n' + 1 := Nat.exists_eq_add_one.mpr (Nat.zero_lt_of_lt h)
    have helems := reads_printElems n elems (Nat.le_of_succ_le_succ h)
    rw [Json.print, List.cons_append, List.append_assoc, List.singleton_append, parseValue,
      skipSpace_cons (by decide)]
    dsimp only
    rw [if_pos rfl, parseList_intercalate (Or.inl rfl) helems, Option.map_some, Json.coerce]
  | .obj members, h => by
    refine ⟨⟨'{', _, rfl, by decide⟩, fun s _ => ?_⟩
    obtain ⟨n, rfl⟩ : ∃ n', n = n' + 1 := Nat.exists_eq_add_one.mpr (Nat.zero_lt_of_lt h)
    have hmembers := reads_printMembers n members (Nat.le_of_succ_le_succ h)
    rw [Json.print, List.cons_append, List.append_assoc, List.singleton_append, parseValue,
      skipSpace_cons (by decide)]
    dsimp only
    rw [if_neg (by decide), if_pos rfl, parseList_intercalate (Or.inr rfl) hmembers,
      Option.map_some, Json.coerce]

theorem reads_printElems (n : Nat) : (elems : List Json) → Json.depthElems elems ≤ n →
    List.Forall₂ (Reads (parseValue n)) (Json.printElems elems) (Json.coerceElems elems)
  | [], _ => .nil
  | j :: elems, h =>
    .cons (reads_print n j (Nat.le_trans (Nat.le_max_left _ _) h))
      (reads_printElems n elems (Nat.le_trans (Nat.le_max_right _ _) h))

theorem reads_printMembers (n : Nat) : (members : List (String × Json)) →
    Json.depthMembers members ≤ n →
    List.Forall₂ (Reads (parseMember (parseValue n))) (Json.printMembers members)
      (Json.coerceMembers members)
  | [], _ => .nil
  | (key, j) :: members, h =>
    .cons (reads_member key (reads_print n j (Nat.le_trans (Nat.le_max_left _ _) h)))
      (reads_printMembers n members (Nat.le_trans (Nat.le_max_right _ _) h))

end

/-- **Round trip.** The text of a tree, nested as deeply as `encoding/json` reads, denotes the tree
with its strings coerced to valid UTF-8. -/
theorem parse_marshal {j : Json} (h : j.depth ≤ maxNestingDepth) :
    Json.parse j.marshal = some j.coerce := by
  have hreads := (reads_print maxNestingDepth j h).2 ['\n'] (stops_cons (by decide) [])
  rw [Json.parse, Json.marshal, String.toList_ofList, hreads, Option.bind_some]
  exact if_pos rfl

end ScorecardInfra.GoStd
