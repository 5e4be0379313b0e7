import ScorecardInfra.GoStd.Filepath

/-!
# URLs and the patterns of a request multiplexer

`parse` reads a URL as `url.Parse` does: the text up to the first `#`, of that the text up to the
first `?`, the scheme, the authority and the escaped path. How an authority is read is a parameter,
and the fragment is only checked. `escapedPath` is the path as it goes over the wire: the text that
was parsed if that is a valid encoding of the path, and otherwise the path escaped again.

A pattern of `http.ServeMux` without a trailing slash is a list of literals and wildcards. It
matches the segments of the escaped path one by one, each read without its escapes, and no path that
is not clean, for which the multiplexer sends a redirect.

## Main definitions

* `escape`, `unescape`, `URL`, `parse`, `URL.escapedPath`, `URL.queryGet`.
* `PatternSegment`, `matchSegments`, `pathValues`.

## Main results

* `unescape_escape`, `length_unescape`, `unescape_slash`.
* `parse_base_append`: a URL whose text begins with a base.
* `escapedPath_cases`: the escaped path of a URL that was parsed.
-/

namespace ScorecardInfra.GoStd.Url

open Filepath

/-! ### Percent escapes -/

/-- `unescape` for paths and fragments: each `%` and two digits stand for a byte. -/
def unescape : List Char → Option (List Char)
  | [] => some []
  | c :: s =>
    if c = '%' then
      match s with
      | h :: l :: s => (Hex.value h).bind fun h => (Hex.value l).bind fun l =>
          (unescape s).map (Char.ofNat (16 * h + l) :: ·)
      | _ => none
    else (unescape s).map (c :: ·)

/-- `unescape` for the components of a query, where `+` stands for a blank. -/
def queryUnescape (s : List Char) : Option (List Char) :=
  unescape (s.map fun c => if c = '+' then ' ' else c)

/-- A letter or a digit of ASCII. -/
def isAlphanum (c : Char) : Bool :=
  ('a' ≤ c && c ≤ 'z') || ('A' ≤ c && c ≤ 'Z') || ('0' ≤ c && c ≤ '9')

/-- `shouldEscape` for paths, of a byte. -/
def shouldEscape (c : Char) : Bool :=
  decide (c.toNat < 256) && !isAlphanum c && !"-_.~$&+,/:;=@".toList.contains c

/-- The digit of `upperhex`. -/
def upperhex (n : Nat) : Char := "0123456789ABCDEF".toList.getD n '0'

/-- The text of one byte in an escaped path. -/
def escapeChar (c : Char) : List Char :=
  if shouldEscape c then ['%', upperhex (c.toNat / 16), upperhex (c.toNat % 16)] else [c]

/-- `escape` for paths. -/
def escape (s : List Char) : List Char := s.flatMap escapeChar

/-- `validEncoded` for paths. -/
def validEncoded (s : List Char) : Bool :=
  s.all fun c => "!$&'()*+,;=:@[]%".toList.contains c || !shouldEscape c

@[simp] theorem unescape_nil : unescape [] = some [] := rfl

theorem unescape_cons {c : Char} (h : c ≠ '%') (s : List Char) :
    unescape (c :: s) = (unescape s).map (c :: ·) := by
  rw [unescape.eq_def]
  dsimp only
  rw [if_neg h]

theorem unescape_percent (h l : Char) (s : List Char) :
    unescape ('%' :: h :: l :: s) = (Hex.value h).bind fun h => (Hex.value l).bind fun l =>
      (unescape s).map (Char.ofNat (16 * h + l) :: ·) := by
  rw [unescape.eq_def]
  dsimp only
  rw [if_pos rfl]

/-- Text without escapes stands for itself, whatever follows it. -/
theorem unescape_append {a : List Char} (h : '%' ∉ a) (s : List Char) :
    unescape (a ++ s) = (unescape s).map (a ++ ·) := by
  induction a with
  | nil => simp
  | cons c a ih =>
    rw [List.mem_cons, not_or] at h
    rw [List.cons_append, unescape_cons (Ne.symm h.1), ih h.2, Option.map_map]
    rfl

theorem unescape_eq_self {s : List Char} (h : '%' ∉ s) : unescape s = some s := by
  have happ := unescape_append h []
  rwa [List.append_nil, unescape_nil, Option.map_some, List.append_nil] at happ

/-- An escape is read whole. -/
theorem exists_of_unescape_percent {s t : List Char} (h : unescape ('%' :: s) = some t) :
    ∃ c d n m s' t', s = c :: d :: s' ∧ Hex.value c = some n ∧ Hex.value d = some m ∧
      unescape s' = some t' ∧ t = Char.ofNat (16 * n + m) :: t' := by
  rcases s with _ | ⟨c, _ | ⟨d, s'⟩⟩
  · cases h
  · cases h
  · rw [unescape_percent] at h
    obtain ⟨n, hn, h⟩ := Option.bind_eq_some_iff.mp h
    obtain ⟨m, hm, h⟩ := Option.bind_eq_some_iff.mp h
    obtain ⟨t', ht', rfl⟩ := Option.map_eq_some_iff.mp h
    exact ⟨c, d, n, m, s', t', rfl, hn, hm, ht', rfl⟩

/-- **Lengths.** Reading makes text shorter if there is an escape in it, and never longer. -/
theorem length_unescape {s t : List Char} (h : unescape s = some t) :
    t.length ≤ s.length ∧ ('%' ∈ s → t.length < s.length) := by
  induction hn : s.length using Nat.strong_induction_on generalizing s t with
  | _ n ih =>
    subst hn
    rcases s with _ | ⟨c, s⟩
    · cases h
      exact ⟨le_rfl, fun h => absurd h List.not_mem_nil⟩
    · by_cases hc : c = '%'
      · subst hc
        obtain ⟨_, _, _, _, s', t', rfl, -, -, ht', rfl⟩ := exists_of_unescape_percent h
        have hle := (ih s'.length (by simp only [List.length_cons]; omega) ht' rfl).1
        simp only [List.length_cons]
        exact ⟨by omega, fun _ => by omega⟩
      · rw [unescape_cons hc] at h
        obtain ⟨t', ht', rfl⟩ := Option.map_eq_some_iff.mp h
        obtain ⟨hle, hlt⟩ := ih s.length (Nat.lt_succ_self _) ht' rfl
        refine ⟨Nat.succ_le_succ hle, fun hmem => Nat.succ_lt_succ (hlt ?_)⟩
        exact (List.mem_cons.mp hmem).resolve_left (Ne.symm hc)

/-- **Slashes.** No escape reaches over a slash. -/
theorem unescape_slash {a b t : List Char} (h : unescape (a ++ '/' :: b) = some t) :
    ∃ a' b', unescape a = some a' ∧ unescape b = some b' ∧ t = a' ++ '/' :: b' := by
  induction hn : a.length using Nat.strong_induction_on generalizing a t with
  | _ n ih =>
    subst hn
    rcases a with _ | ⟨c, a⟩
    · rw [List.nil_append, unescape_cons (by decide)] at h
      obtain ⟨b', hb', rfl⟩ := Option.map_eq_some_iff.mp h
      exact ⟨[], b', rfl, hb', rfl⟩
    · by_cases hc : c = '%'
      · subst hc
        obtain ⟨d, e, n, m, s', t', hs, hd, he, ht', rfl⟩ := exists_of_unescape_percent h
        -- the slash is no digit, so both digits lie before it
        rcases a with _ | ⟨d', _ | ⟨e', a⟩⟩
        · obtain ⟨rfl, -⟩ := List.cons.inj hs
          cases hd
        · obtain ⟨-, htail⟩ := List.cons.inj hs
          obtain ⟨rfl, -⟩ := List.cons.inj htail
          cases he
        · obtain ⟨rfl, htail⟩ := List.cons.inj hs
          obtain ⟨rfl, rfl⟩ := List.cons.inj htail
          obtain ⟨a', b', ha', hb', rfl⟩ :=
            ih a.length (by simp only [List.length_cons]; omega) ht' rfl
          refine ⟨Char.ofNat (16 * n + m) :: a', b', ?_, hb', rfl⟩
          rw [unescape_percent, hd, he, Option.bind_some, Option.bind_some, ha', Option.map_some]
      · rw [List.cons_append, unescape_cons hc] at h
        obtain ⟨t', ht', rfl⟩ := Option.map_eq_some_iff.mp h
        obtain ⟨a', b', ha', hb', rfl⟩ := ih a.length (Nat.lt_succ_self _) ht' rfl
        exact ⟨c :: a', b', by rw [unescape_cons hc, ha', Option.map_some], hb', rfl⟩

private theorem value_upperhex {n : Nat} (h : n < 16) : Hex.value (upperhex n) = some n := by
  have hall : ∀ n < 16, Hex.value (upperhex n) = some n := by decide
  exact hall n h

/-- A byte that is not escaped is no `%`. -/
theorem shouldEscape_percent : shouldEscape '%' = true := by decide

theorem unescape_escapeChar (c : Char) (s : List Char) :
    unescape (escapeChar c ++ s) = (unescape s).map (c :: ·) := by
  rw [escapeChar]
  split_ifs with hc
  · have hbyte : c.toNat < 256 := by
      rw [shouldEscape, Bool.and_eq_true, Bool.and_eq_true, decide_eq_true_eq] at hc
      exact hc.1.1
    have hchar : Char.ofNat (16 * (c.toNat / 16) + c.toNat % 16) = c := by
      rw [Nat.div_add_mod, Char.ofNat_toNat]
    rw [List.cons_append, List.cons_append, List.cons_append, List.nil_append, unescape_percent,
      value_upperhex (by omega), value_upperhex (by omega), Option.bind_some, Option.bind_some,
      hchar]
  · refine unescape_cons ?_ s
    rintro rfl
    exact hc shouldEscape_percent

/-- **Round trip.** An escaped text reads as the text. -/
theorem unescape_escape (s : List Char) : unescape (escape s) = some s := by
  induction s with
  | nil => rfl
  | cons c s ih =>
    have hstep := unescape_escapeChar c (escape s)
    rw [ih, Option.map_some] at hstep
    exact hstep

theorem escape_append (a b : List Char) : escape (a ++ b) = escape a ++ escape b :=
  List.flatMap_append

/-- Text of which nothing is escaped. -/
theorem escape_eq_self {s : List Char} (h : ∀ c ∈ s, shouldEscape c = false) : escape s = s := by
  induction s with
  | nil => rfl
  | cons c s ih =>
    have hc : escapeChar c = [c] := by rw [escapeChar, h c List.mem_cons_self]; rfl
    have hs : escape s = s := ih fun d hd => h d (List.mem_cons_of_mem _ hd)
    calc escape (c :: s) = escapeChar c ++ escape s := rfl
      _ = c :: s := by rw [hc, hs, List.singleton_append]

/-- Escaping brings in no slash. -/
theorem slash_notMem_escape {s : List Char} (h : '/' ∉ s) : '/' ∉ escape s := by
  have hdigit : ∀ n, upperhex n ≠ '/' := by
    intro n
    by_cases hn : n < 16
    · have hall : ∀ n < 16, upperhex n ≠ '/' := by decide
      exact hall n hn
    · have hdefault : upperhex n = '0' := by
        rw [upperhex, List.getD_eq_getElem?_getD, List.getElem?_eq_none (by simpa using hn),
          Option.getD_none]
      rw [hdefault]
      decide
  intro hmem
  obtain ⟨c, hc, hmem⟩ := List.mem_flatMap.mp hmem
  rw [escapeChar] at hmem
  split_ifs at hmem
  · simp only [List.mem_cons, List.not_mem_nil, or_false] at hmem
    rcases hmem with hmem | hmem | hmem
    · exact absurd hmem (by decide)
    · exact hdigit _ hmem.symm
    · exact hdigit _ hmem.symm
  · exact h (List.mem_singleton.mp hmem ▸ hc)

/-- A proper name stays one. -/
theorem isName_escape {s : List Char} (h : IsName s) : IsName (escape s) := by
  have hinj : ∀ t, escape t = t → escape s = t → s = t := by
    intro t ht hs
    have hread := unescape_escape s
    rw [hs, ← ht, unescape_escape] at hread
    exact (Option.some.inj hread).symm
  exact ⟨fun hs => h.ne_nil (hinj [] rfl hs), fun hs => h.ne_dot (hinj dot (by decide) hs),
    fun hs => h.ne_dotdot (hinj dotdot (by decide) hs), slash_notMem_escape h.slash_notMem⟩

/-! ### Parsing -/

/-- The fields of `url.URL` that are read. -/
structure URL where
  scheme : List Char := []
  opaquePart : List Char := []
  host : List Char := []
  path : List Char := []
  rawPath : List Char := []
  rawQuery : List Char := []
  deriving DecidableEq

/-- The text before the first `c`. -/
def before (c : Char) (s : List Char) : List Char := s.takeWhile (· != c)

/-- The text after the first `c`. -/
def after (c : Char) (s : List Char) : List Char := (s.dropWhile (· != c)).tail

/-- A letter of ASCII. -/
def isLetter (c : Char) : Bool := ('a' ≤ c && c ≤ 'z') || ('A' ≤ c && c ≤ 'Z')

/-- A character of a scheme. -/
def isSchemeChar (c : Char) : Bool := isAlphanum c || "+-.".toList.contains c

/-- `getScheme`: the scheme, empty if there is none, and the rest. -/
def getScheme (s : List Char) : Option (List Char × List Char) :=
  let scheme := s.takeWhile isSchemeChar
  match s.dropWhile isSchemeChar with
  | ':' :: rest =>
    if scheme = [] then none
    else if scheme.head?.any isLetter then some (scheme, rest)
    else some ([], s)
  | _ => some ([], s)

/-- A control character of ASCII. -/
def isControl (c : Char) : Bool := decide (c.toNat < 0x20) || c.toNat == 0x7f

/-- `URL.setPath`. -/
def URL.setPath (u : URL) (p : List Char) : Option URL :=
  (unescape p).map fun path =>
    { u with path := path, rawPath := if escape path = p then [] else p }

section Parse

variable (parseAuthority : List Char → List Char → Option (List Char))

/-- `parse`, of the text before the fragment; `parseAuthority` is given the scheme and returns the
host. -/
def parseText (s : List Char) : Option URL :=
  if s.any isControl then none
  else if s = ['*'] then some { path := ['*'] }
  else (getScheme s).bind fun p =>
    let scheme := p.1.map Char.toLower
    let rawQuery := after '?' p.2
    let rest := before '?' p.2
    if rest.head? ≠ some '/' ∧ scheme ≠ [] then
      some { scheme := scheme, opaquePart := rest, rawQuery := rawQuery }
    else if rest.head? ≠ some '/' ∧ ':' ∈ before '/' rest then none
    else if ['/', '/'] <+: rest ∧ (scheme ≠ [] ∨ ¬['/', '/', '/'] <+: rest) then
      (parseAuthority scheme (before '/' (rest.drop 2))).bind fun host =>
        URL.setPath { scheme := scheme, host := host, rawQuery := rawQuery }
          ((rest.drop 2).dropWhile (· != '/'))
    else URL.setPath { scheme := scheme, rawQuery := rawQuery } rest

/-- `url.Parse`. -/
def parse (s : List Char) : Option URL :=
  (parseText parseAuthority (before '#' s)).bind fun u =>
    (unescape (after '#' s)).map fun _ => u

end Parse

namespace URL

/-- `URL.EscapedPath`. -/
def escapedPath (u : URL) : List Char :=
  if u.rawPath ≠ [] ∧ validEncoded u.rawPath = true ∧
      unescape u.rawPath = some u.path then u.rawPath
  else if u.path = ['*'] then ['*']
  else escape u.path

/-- One part of a query; `parseQuery` skips the parts that it cannot read. -/
def queryPair (part : List Char) : Option (List Char × List Char) :=
  if ';' ∈ part ∨ part = [] then none
  else (queryUnescape (before '=' part)).bind fun key =>
    (queryUnescape (after '=' part)).map fun value => (key, value)

/-- `URL.Query` and `Values.Get`: the first value of a key, or the empty string. -/
def queryGet (u : URL) (key : List Char) : List Char :=
  ((((u.rawQuery.splitOn '&').filterMap queryPair).find? (·.1 = key)).map Prod.snd).getD []

theorem queryGet_of_rawQuery {u : URL} (h : u.rawQuery = []) (key : List Char) :
    u.queryGet key = [] := by
  rw [queryGet, h]
  rfl

end URL

/-! ### Texts around a separator -/

private theorem bne_of_notMem {c : Char} {a : List Char} (h : c ∉ a) :
    ∀ d ∈ a, (d != c) = true := by
  intro d hd
  rw [bne_iff_ne]
  rintro rfl
  exact h hd

theorem before_append {c : Char} {a : List Char} (h : c ∉ a) (s : List Char) :
    before c (a ++ s) = a ++ before c s :=
  List.takeWhile_append_of_pos (bne_of_notMem h)

@[simp] theorem before_cons_self (c : Char) (s : List Char) : before c (c :: s) = [] := by
  rw [before, List.takeWhile_cons_of_neg (by simp)]

theorem before_eq_self {c : Char} {s : List Char} (h : c ∉ s) : before c s = s := by
  have happ := before_append h []
  rwa [List.append_nil, show before c [] = [] from rfl, List.append_nil] at happ

theorem after_append {c : Char} {a : List Char} (h : c ∉ a) (s : List Char) :
    after c (a ++ s) = after c s := by
  rw [after, List.dropWhile_append_of_pos (bne_of_notMem h), after]

theorem after_eq_nil {c : Char} {s : List Char} (h : c ∉ s) : after c s = [] := by
  have happ := after_append h []
  rwa [List.append_nil] at happ

theorem notMem_before (c : Char) (s : List Char) : c ∉ before c s :=
  fun h => by simpa using List.mem_takeWhile_imp h

theorem before_sublist (c : Char) (s : List Char) : (before c s).Sublist s :=
  List.takeWhile_sublist _

theorem mem_of_mem_before {c d : Char} {s : List Char} (h : d ∈ before c s) : d ∈ s :=
  (before_sublist c s).mem h

/-! ### Schemes and bases -/

/-- A scheme: a letter, and then letters, digits and three marks. -/
structure IsScheme (s : List Char) : Prop where
  isSchemeChar : ∀ c ∈ s, isSchemeChar c = true
  letter : s.head?.any isLetter = true

theorem IsScheme.ne_nil {s : List Char} (h : IsScheme s) : s ≠ [] := by
  rintro rfl
  exact absurd h.letter (by decide)

theorem getScheme_append {s : List Char} (h : IsScheme s) (r : List Char) :
    getScheme (s ++ ':' :: r) = some (s, r) := by
  have hcolon : Url.isSchemeChar ':' = false := by decide
  have htake : (s ++ ':' :: r).takeWhile Url.isSchemeChar = s := by
    rw [List.takeWhile_append_of_pos h.isSchemeChar, List.takeWhile_cons_of_neg (by simp [hcolon]),
      List.append_nil]
  have hdrop : (s ++ ':' :: r).dropWhile Url.isSchemeChar = ':' :: r := by
    rw [List.dropWhile_append_of_pos h.isSchemeChar, List.dropWhile_cons_of_neg (by simp [hcolon])]
  simp only [getScheme, htake, hdrop, if_neg h.ne_nil, if_pos h.letter]

/-- What is found is no scheme, or one that stands at the front with a colon. -/
theorem getScheme_eq_some {s scheme rest : List Char} (h : getScheme s = some (scheme, rest))
    (hne : scheme ≠ []) : IsScheme scheme ∧ s = scheme ++ ':' :: rest := by
  have hsplit := List.takeWhile_append_dropWhile (p := Url.isSchemeChar) (l := s)
  simp only [getScheme] at h
  split at h
  · rename_i r hr
    split_ifs at h with hnil hletter
    · obtain ⟨hscheme, rfl⟩ := Prod.mk.inj (Option.some.inj h)
      rw [hscheme] at hletter hsplit
      refine ⟨⟨fun c hc => ?_, hletter⟩, by rw [← hr, hsplit]⟩
      exact List.mem_takeWhile_imp (hscheme ▸ hc)
    · exact absurd (Prod.mk.inj (Option.some.inj h)).1.symm hne
  · exact absurd (Prod.mk.inj (Option.some.inj h)).1.symm hne

/-- The text `scheme://authority` of a base, which a path may follow. -/
structure IsBase (scheme authority : List Char) : Prop where
  isScheme : IsScheme scheme
  slash_notMem : '/' ∉ authority
  query_notMem : '?' ∉ authority
  fragment_notMem : '#' ∉ authority
  not_control : ∀ c ∈ authority, isControl c = false

/-- The text of a base. -/
def baseText (scheme authority : List Char) : List Char :=
  scheme ++ ':' :: '/' :: '/' :: authority

private theorem isControl_eq_false {c : Char} {lo hi : Nat} (h : lo ≤ c.toNat ∧ c.toNat ≤ hi)
    (hlo : 0x20 ≤ lo) (hhi : hi < 0x7f) : isControl c = false := by
  rw [isControl, Bool.or_eq_false_iff, decide_eq_false_iff_not, beq_eq_false_iff_ne]
  omega

theorem isControl_of_isSchemeChar {c : Char} (h : isSchemeChar c = true) : isControl c = false := by
  have hrange : ∀ {lo hi : Char}, (decide (lo ≤ c) && decide (c ≤ hi)) = true →
      lo.toNat ≤ c.toNat ∧ c.toNat ≤ hi.toNat := fun {lo hi} h => by
    rw [Bool.and_eq_true, decide_eq_true_eq, decide_eq_true_eq] at h
    exact h
  have hmarks : ∀ c ∈ "+-.".toList, isControl c = false := Strings.forall_mem_of_all (by decide)
  rw [isSchemeChar, Bool.or_eq_true, isAlphanum, Bool.or_eq_true, Bool.or_eq_true] at h
  rcases h with ((h | h) | h) | h
  · exact isControl_eq_false (hrange h) (by decide) (by decide)
  · exact isControl_eq_false (hrange h) (by decide) (by decide)
  · exact isControl_eq_false (hrange h) (by decide) (by decide)
  · exact hmarks c (List.contains_iff_mem.mp h)

/-- The path after an authority begins with the first slash. -/
theorem before_slash_append {a t : List Char} (h : '/' ∉ a) (ht : t = [] ∨ t.head? = some '/') :
    before '/' (a ++ t) = a ∧ (a ++ t).dropWhile (· != '/') = t := by
  have hdrop : (a ++ t).dropWhile (· != '/') = t.dropWhile (· != '/') :=
    List.dropWhile_append_of_pos (bne_of_notMem h)
  rw [before_append h, hdrop]
  rcases ht with rfl | ht
  · exact ⟨List.append_nil a, rfl⟩
  · obtain ⟨t, rfl⟩ := List.head?_eq_some_iff.mp ht
    exact ⟨by rw [before_cons_self, List.append_nil], List.dropWhile_cons_of_neg (by decide)⟩

section Base

variable {parseAuthority : List Char → List Char → Option (List Char)}

/-- The text after a base, before the fragment: the path up to the query. -/
theorem parseText_base_append {scheme authority : List Char} (h : IsBase scheme authority)
    {t : List Char} (ht : t = [] ∨ t.head? = some '/') (hcontrol : ∀ c ∈ t, isControl c = false) :
    parseText parseAuthority (baseText scheme authority ++ t) =
      (parseAuthority (scheme.map Char.toLower) authority).bind fun host =>
        URL.setPath { scheme := scheme.map Char.toLower, host := host, rawQuery := after '?' t }
          (before '?' t) := by
  have hslashes : ∀ c ∈ [':', '/', '/'], isControl c = false :=
    Strings.forall_mem_of_all (by decide)
  have hany : (baseText scheme authority ++ t).any isControl = false := by
    rw [List.any_eq_false]
    intro c hc
    rw [Bool.not_eq_true]
    have hsplit : baseText scheme authority ++ t =
        scheme ++ ([':', '/', '/'] ++ (authority ++ t)) := by simp [baseText]
    rw [hsplit, List.mem_append, List.mem_append, List.mem_append] at hc
    rcases hc with hc | hc | hc | hc
    · exact isControl_of_isSchemeChar (h.isScheme.isSchemeChar c hc)
    · exact hslashes c hc
    · exact h.not_control c hc
    · exact hcontrol c hc
  have hstar : baseText scheme authority ++ t ≠ ['*'] := by
    intro hs
    have hlen := congrArg List.length hs
    simp only [baseText, List.length_append, List.length_cons, List.length_nil] at hlen
    omega
  have hscheme : getScheme (baseText scheme authority ++ t) =
      some (scheme, ['/', '/'] ++ (authority ++ t)) := by
    have hget := getScheme_append h.isScheme (['/', '/'] ++ (authority ++ t))
    simpa [baseText] using hget
  have hquery : '?' ∉ ['/', '/'] ++ authority := by
    rw [List.mem_append, not_or]
    exact ⟨by decide, h.query_notMem⟩
  have hbefore : before '?' (['/', '/'] ++ (authority ++ t)) =
      ['/', '/'] ++ (authority ++ before '?' t) := by
    rw [← List.append_assoc, before_append hquery, List.append_assoc]
  have hafter : after '?' (['/', '/'] ++ (authority ++ t)) = after '?' t := by
    rw [← List.append_assoc, after_append hquery]
  have ht' : before '?' t = [] ∨ (before '?' t).head? = some '/' := by
    rcases ht with rfl | ht
    · exact Or.inl rfl
    · obtain ⟨t, rfl⟩ := List.head?_eq_some_iff.mp ht
      exact Or.inr rfl
  obtain ⟨hauthority, hpath⟩ := before_slash_append h.slash_notMem ht'
  have hne : scheme.map Char.toLower ≠ [] := fun hs => h.isScheme.ne_nil (List.map_eq_nil_iff.mp hs)
  have hslashes : ['/', '/'] <+: ['/', '/'] ++ (authority ++ before '?' t) := List.prefix_append _ _
  rw [parseText, hany, if_neg Bool.false_ne_true, if_neg hstar, hscheme, Option.bind_some]
  dsimp only
  rw [hbefore, hafter, if_neg fun hh => hh.1 rfl, if_neg fun hh => hh.1 rfl,
    if_pos ⟨hslashes, Or.inl hne⟩, List.drop_append_of_le_length (by decide)]
  simp only [List.drop_succ_cons, List.drop_zero, List.nil_append, hauthority, hpath]

theorem IsBase.fragment_notMem_baseText {scheme authority : List Char}
    (h : IsBase scheme authority) : '#' ∉ baseText scheme authority := by
  have hscheme : '#' ∉ scheme := fun hmem => absurd (h.isScheme.isSchemeChar _ hmem) (by decide)
  simp [baseText, hscheme, h.fragment_notMem]

/-- **Bases.** A text that begins with a base has its scheme and its host, and for its path what
follows it up to the query and the fragment. -/
theorem parse_base_append {scheme authority : List Char} (h : IsBase scheme authority)
    {t : List Char} (ht : t = [] ∨ t.head? = some '/')
    (hcontrol : ∀ c ∈ before '#' t, isControl c = false) :
    parse parseAuthority (baseText scheme authority ++ t) =
      ((parseAuthority (scheme.map Char.toLower) authority).bind fun host =>
        URL.setPath { scheme := scheme.map Char.toLower, host := host,
                      rawQuery := after '?' (before '#' t) } (before '?' (before '#' t))).bind
        fun u => (unescape (after '#' t)).map fun _ => u := by
  have ht' : before '#' t = [] ∨ (before '#' t).head? = some '/' := by
    rcases ht with rfl | ht
    · exact Or.inl rfl
    · obtain ⟨t, rfl⟩ := List.head?_eq_some_iff.mp ht
      exact Or.inr rfl
  rw [parse, before_append h.fragment_notMem_baseText, after_append h.fragment_notMem_baseText,
    parseText_base_append h ht' hcontrol]

/-- A URL with a scheme and a host, and without a query and a fragment, is a base and a path. -/
theorem exists_isBase {b : List Char} {u : URL} (h : parse parseAuthority b = some u)
    (hscheme : u.scheme ≠ []) (hhost : u.host ≠ []) (hquery : '?' ∉ b) (hfragment : '#' ∉ b) :
    ∃ scheme authority p, IsBase scheme authority ∧ b = baseText scheme authority ++ p ∧
      (p = [] ∨ p.head? = some '/') ∧ (∀ c ∈ p, isControl c = false) ∧
      parseAuthority (scheme.map Char.toLower) authority = some u.host ∧
      unescape p = some u.path := by
  rw [parse, before_eq_self hfragment, after_eq_nil hfragment, unescape_nil] at h
  obtain ⟨u', htext, hu'⟩ := Option.bind_eq_some_iff.mp h
  obtain rfl : u' = u := Option.some.inj hu'
  unfold parseText at htext
  split_ifs at htext with hany hstar
  · obtain rfl := Option.some.inj htext
    exact absurd rfl hscheme
  rw [List.any_eq_true] at hany
  obtain ⟨⟨scheme, rest⟩, hget, htext⟩ := Option.bind_eq_some_iff.mp htext
  have hset : ∀ {v : URL} {p : List Char}, v.setPath p = some u' →
      u'.scheme = v.scheme ∧ u'.host = v.host ∧ unescape p = some u'.path := by
    intro v p hv
    obtain ⟨path, hpath, rfl⟩ := Option.map_eq_some_iff.mp hv
    exact ⟨rfl, rfl, hpath⟩
  dsimp only at htext
  split_ifs at htext with hopaque hcolon hauthority
  · obtain rfl := Option.some.inj htext
    exact absurd rfl hhost
  · obtain ⟨host, hparse, htext⟩ := Option.bind_eq_some_iff.mp htext
    obtain ⟨hs, hh, hpath⟩ := hset htext
    have hne : scheme ≠ [] := by
      rintro rfl
      exact hscheme hs
    obtain ⟨hisScheme, rfl⟩ := getScheme_eq_some hget hne
    have hrest : '?' ∉ rest := fun hmem => hquery (by simp [hmem])
    rw [before_eq_self hrest] at hauthority hparse hpath
    obtain ⟨tail, rfl⟩ := hauthority.1
    simp only [List.cons_append, List.nil_append, List.drop_succ_cons, List.drop_zero] at *
    have hsplit : before '/' tail ++ tail.dropWhile (· != '/') = tail :=
      List.takeWhile_append_dropWhile
    have hcontrol : ∀ c ∈ tail, isControl c = false := fun c hc =>
      Bool.eq_false_iff.mpr fun hc' => hany ⟨c, by simp [hc], hc'⟩
    refine ⟨scheme, before '/' tail, tail.dropWhile (· != '/'), ⟨hisScheme, notMem_before _ _, ?_,
      ?_, fun c hc => hcontrol c (mem_of_mem_before hc)⟩, ?_, ?_, ?_, hh ▸ hparse, hpath⟩
    · exact fun hmem => hrest (by simp [mem_of_mem_before hmem])
    · exact fun hmem => hfragment (by simp [mem_of_mem_before hmem])
    · rw [baseText, List.append_assoc, List.cons_append, List.cons_append, List.cons_append, hsplit]
    · cases hdrop : tail.dropWhile (· != '/') with
      | nil => exact Or.inl rfl
      | cons c t =>
        have hhead := List.head?_dropWhile_not (· != '/') tail
        rw [hdrop] at hhead
        exact Or.inr (by simpa using hhead)
    · exact fun c hc => hcontrol c ((List.dropWhile_sublist _).mem hc)
  · exact absurd (hset htext).2.1 hhost

end Base

/-! ### Escaped paths -/

/-- The escaped path of a URL that was parsed is the text, or the path escaped again. -/
theorem escapedPath_cases {u u' : URL} {p : List Char} (h : u.setPath p = some u')
    (hstar : u'.path ≠ ['*']) :
    unescape p = some u'.path ∧ (u'.escapedPath = p ∨ u'.escapedPath = escape u'.path) := by
  obtain ⟨path, hpath, rfl⟩ := Option.map_eq_some_iff.mp h
  refine ⟨hpath, ?_⟩
  rw [URL.escapedPath]
  by_cases heq : escape path = p
  · exact Or.inr (by rw [if_neg (fun hraw => hraw.1 (if_pos heq)), if_neg hstar])
  · dsimp only
    rw [if_neg heq]
    split_ifs
    exacts [Or.inl rfl, Or.inr rfl]

/-! ### Patterns -/

/-- A segment of a pattern. -/
inductive PatternSegment : Type
  | literal (s : Segment)
  | wildcard
  deriving DecidableEq

/-- `pathUnescape` of the multiplexer. -/
def pathUnescape (s : Segment) : Segment := (unescape s).getD s

theorem pathUnescape_eq_self {s : Segment} (h : '%' ∉ s) : pathUnescape s = s := by
  rw [pathUnescape, unescape_eq_self h, Option.getD_some]

theorem pathUnescape_escape (s : Segment) : pathUnescape (escape s) = s := by
  rw [pathUnescape, unescape_escape, Option.getD_some]

/-- `matchPath` for one pattern: the values of its wildcards. A trailing slash is no segment, and a
segment that reads as a slash is taken for one. -/
def matchSegments : List PatternSegment → List Segment → Option (List Segment)
  | [], [] => some []
  | .literal l :: pattern, s :: segs =>
    if pathUnescape s = l then matchSegments pattern segs else none
  | .wildcard :: pattern, s :: segs =>
    if s = [] ∨ pathUnescape s = ['/'] then none
    else (matchSegments pattern segs).map (pathUnescape s :: ·)
  | _, _ => none

/-- `cleanPath` of the multiplexer, of a path that begins with a slash. -/
def cleanPath (p : List Char) : List Char :=
  let np := (clean (String.ofList p)).toList
  if p.getLast? = some '/' ∧ np ≠ ['/'] then np ++ ['/'] else np

/-- The path values of a request that matches the pattern. -/
def pathValues (pattern : List PatternSegment) (u : URL) : Option (List Segment) :=
  if cleanPath u.escapedPath ≠ u.escapedPath then none
  else match u.escapedPath.splitOn '/' with
    | [] :: segs => matchSegments pattern segs
    | _ => none

theorem matchSegments_literal {l s : Segment} {pattern : List PatternSegment} {segs : List Segment}
    (h : pathUnescape s = l) :
    matchSegments (.literal l :: pattern) (s :: segs) = matchSegments pattern segs := by
  rw [matchSegments, if_pos h]

theorem matchSegments_wildcard {s : Segment} {pattern : List PatternSegment} {segs : List Segment}
    (h : ¬(s = [] ∨ pathUnescape s = ['/'])) :
    matchSegments (.wildcard :: pattern) (s :: segs) =
      (matchSegments pattern segs).map (pathUnescape s :: ·) := by
  rw [matchSegments, if_neg h]

theorem of_matchSegments_literal {l s : Segment} {pattern : List PatternSegment}
    {segs vs : List Segment} (h : matchSegments (.literal l :: pattern) (s :: segs) = some vs) :
    matchSegments pattern segs = some vs := by
  rw [matchSegments] at h
  split_ifs at h
  exact h

theorem of_matchSegments_wildcard {s v : Segment} {pattern : List PatternSegment}
    {segs vs : List Segment}
    (h : matchSegments (.wildcard :: pattern) (s :: segs) = some (v :: vs)) :
    pathUnescape s = v ∧ matchSegments pattern segs = some vs := by
  rw [matchSegments] at h
  split_ifs at h
  obtain ⟨vs', hmatch, hvs⟩ := Option.map_eq_some_iff.mp h
  obtain ⟨rfl, rfl⟩ := List.cons.inj hvs
  exact ⟨rfl, hmatch⟩

theorem length_eq_of_matchSegments {pattern : List PatternSegment} {segs vs : List Segment}
    (h : matchSegments pattern segs = some vs) : segs.length = pattern.length := by
  induction pattern generalizing segs vs with
  | nil => cases segs with
    | nil => rfl
    | cons s segs => cases h
  | cons p pattern ih =>
    cases segs with
    | nil => cases p <;> cases h
    | cons s segs =>
      cases p with
      | literal l =>
        rw [matchSegments] at h
        split_ifs at h
        exact congrArg (· + 1) (ih h)
      | wildcard =>
        rw [matchSegments] at h
        split_ifs at h
        obtain ⟨vs', h, -⟩ := Option.map_eq_some_iff.mp h
        exact congrArg (· + 1) (ih h)

/-- A path of proper names is clean, so that its segments are matched. -/
theorem pathValues_of_isName {pattern : List PatternSegment} {u : URL} {names : List Segment}
    (hsegs : u.escapedPath.splitOn '/' = [] :: names) (hne : names ≠ [])
    (h : ∀ seg ∈ names, IsName seg) : pathValues pattern u = matchSegments pattern names := by
  have hclean : (clean (String.ofList u.escapedPath)).toList = u.escapedPath := by
    rw [clean_eq_self_of_isAbs (by rw [segments, String.toList_ofList]; exact hsegs) hne h,
      String.toList_ofList]
  have hlast : u.escapedPath.getLast? ≠ some '/' := by
    intro hlast
    obtain ⟨q, hq⟩ := List.getLast?_eq_some_iff.mp hlast
    rw [hq, List.splitOn_append_cons_self, List.splitOn_nil] at hsegs
    have hmem : [] ∈ names := by
      have hsuffix := congrArg List.getLast? hsegs
      rw [List.getLast?_append, List.getLast?_cons_of_ne_nil hne] at hsuffix
      exact List.mem_of_getLast? hsuffix.symm
    exact (h _ hmem).ne_nil rfl
  have hcleanPath : cleanPath u.escapedPath = u.escapedPath := by
    rw [cleanPath, hclean]
    exact if_neg fun hh => hlast hh.1
  rw [pathValues, if_neg (fun hh => hh hcleanPath), hsegs]

theorem exists_of_pathValues {pattern : List PatternSegment} {u : URL} {vs : List Segment}
    (h : pathValues pattern u = some vs) :
    ∃ segs, u.escapedPath.splitOn '/' = [] :: segs ∧ matchSegments pattern segs = some vs := by
  rw [pathValues] at h
  split_ifs at h
  split at h
  · exact ⟨_, ‹_›, h⟩
  · cases h

end ScorecardInfra.GoStd.Url
