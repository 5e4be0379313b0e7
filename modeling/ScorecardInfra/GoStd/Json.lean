import ScorecardInfra.GoStd.Strings
import ScorecardInfra.GoStd.Time
import ScorecardInfra.GoStd.Utf8

/-!
# JSON texts

`Json` is the tree that a JSON text denotes: numbers keep their literal, objects the order and the
repetitions of their keys. `Json.marshal` is the text that `encoding/json` writes for a tree, with
its escapes, and `Json.parse` reads the texts of the grammar, down to the nesting depth that
`encoding/json` accepts. Strings are coerced to valid UTF-8 on the way out and on the way in.

## Main definitions

* `NumLit`, `Json`, `Json.coerce`, `Json.depth`.
* `quote`, `Json.print`, `Json.marshal`.
* `parseString`, `parseNum`, `parseList`, `parseValue`, `Json.parse`.
-/

namespace ScorecardInfra.GoStd

/-! ### Trees -/

/-- The literal of a JSON number. -/
structure NumLit where
  neg : Bool
  whole : Nat
  /-- The digits after the point. -/
  frac : List Char
  exp : Option Int
  frac_digits : frac.all Char.isDigit
  deriving DecidableEq

/-- What a JSON text denotes. -/
inductive Json : Type
  | null
  | bool (b : Bool)
  | num (n : NumLit)
  | str (s : String)
  | arr (elems : List Json)
  | obj (members : List (String × Json))

/-- A string with U+FFFD in the place of the bytes that are not UTF-8. -/
def toValidUTF8 (s : String) : String := String.ofList (Utf8.toValid s.toList)

/-- `utf8.ValidString`. -/
def validUTF8 (s : String) : Bool := Utf8.valid s.toList

theorem toValidUTF8_eq_self_iff {s : String} : toValidUTF8 s = s ↔ validUTF8 s = true := by
  rw [toValidUTF8, validUTF8, ← Utf8.toValid_eq_self_iff, ← String.toList_inj, String.toList_ofList]

namespace Json

mutual

/-- The tree with its strings coerced to valid UTF-8. -/
def coerce : Json → Json
  | .str s => .str (toValidUTF8 s)
  | .arr elems => .arr (coerceElems elems)
  | .obj members => .obj (coerceMembers members)
  | .null => .null
  | .bool b => .bool b
  | .num n => .num n

def coerceElems : List Json → List Json
  | [] => []
  | j :: elems => j.coerce :: coerceElems elems

def coerceMembers : List (String × Json) → List (String × Json)
  | [] => []
  | (key, j) :: members => (toValidUTF8 key, j.coerce) :: coerceMembers members

end

mutual

/-- How deep arrays and objects are nested. -/
def depth : Json → Nat
  | .arr elems => depthElems elems + 1
  | .obj members => depthMembers members + 1
  | .null | .bool _ | .num _ | .str _ => 0

def depthElems : List Json → Nat
  | [] => 0
  | j :: elems => max j.depth (depthElems elems)

def depthMembers : List (String × Json) → Nat
  | [] => 0
  | (_, j) :: members => max j.depth (depthMembers members)

end

end Json

/-! ### Writing -/

/-- The escape of an ASCII character. -/
def escapeByte (c : Char) : List Char :=
  if c = '"' ∨ c = '\\' then ['\\', c]
  else if c = '\x08' then ['\\', 'b']
  else if c = '\x0c' then ['\\', 'f']
  else if c = '\n' then ['\\', 'n']
  else if c = '\r' then ['\\', 'r']
  else if c = '\t' then ['\\', 't']
  else if c.toNat < 0x20 ∨ c = '<' ∨ c = '>' ∨ c = '&' then
    ['\\', 'u', '0', '0', Hex.digit (c.toNat / 16), Hex.digit (c.toNat % 16)]
  else [c]

/-- The escape of a rune; U+2028 and U+2029 end a line in JavaScript. -/
def escapeRune : Option (List Char) → List Char
  | none => ['\\', 'u', 'f', 'f', 'f', 'd']
  | some [c] => escapeByte c
  | some r =>
    if r = ['\xe2', '\x80', '\xa8'] then ['\\', 'u', '2', '0', '2', '8']
    else if r = ['\xe2', '\x80', '\xa9'] then ['\\', 'u', '2', '0', '2', '9']
    else r

/-- A string between quotes. -/
def quote (s : String) : List Char := '"' :: ((Utf8.runes s.toList).flatMap escapeRune ++ ['"'])

/-- The digits after the point, with the point. -/
def fracText (frac : List Char) : List Char := if frac = [] then [] else '.' :: frac

/-- An exponent with its letter. -/
def expText : Option Int → List Char
  | none => []
  | some e => 'e' :: ((if e < 0 then ['-'] else []) ++ Nat.toDigits 10 e.natAbs)

/-- The text of a number. -/
def NumLit.text (n : NumLit) : List Char :=
  (if n.neg then ['-'] else []) ++ (Nat.toDigits 10 n.whole ++ (fracText n.frac ++ expText n.exp))

namespace Json

mutual

/-- The text of a tree, without white space. -/
def print : Json → List Char
  | .null => ['n', 'u', 'l', 'l']
  | .bool true => ['t', 'r', 'u', 'e']
  | .bool false => ['f', 'a', 'l', 's', 'e']
  | .num n => n.text
  | .str s => quote s
  | .arr elems => '[' :: (List.intercalate [','] (printElems elems) ++ [']'])
  | .obj members => '{' :: (List.intercalate [','] (printMembers members) ++ ['}'])

def printElems : List Json → List (List Char)
  | [] => []
  | j :: elems => j.print :: printElems elems

def printMembers : List (String × Json) → List (List Char)
  | [] => []
  | (key, j) :: members => (quote key ++ ':' :: j.print) :: printMembers members

end

/-- What `json.Encoder.Encode` writes: the text and a newline. -/
def marshal (j : Json) : String := String.ofList (j.print ++ ['\n'])

end Json

/-! ### Reading -/

/-- White space between tokens. -/
def isJsonSpace (c : Char) : Bool := c == ' ' || c == '\t' || c == '\n' || c == '\r'

def skipSpace (s : List Char) : List Char := s.dropWhile isJsonSpace

/-- What follows a token of one character. -/
def skipToken (token : Char) (s : List Char) : Option (List Char) :=
  match skipSpace s with
  | [] => none
  | c :: s => if c = token then some s else none

/-- A unit of a string: a byte, or the number of a `\u` escape. -/
inductive StrUnit : Type
  | byte (c : Char)
  | code (n : Nat)
  deriving DecidableEq

/-- The value of the four digits of a `\u` escape. -/
def hex4 (a b c d : Char) : Option Nat := do
  let a ← Hex.value a
  let b ← Hex.value b
  let c ← Hex.value c
  let d ← Hex.value d
  return ((a * 16 + b) * 16 + c) * 16 + d

/-- The character that a one-letter escape stands for. -/
def unescape (e : Char) : Option Char :=
  [('"', '"'), ('\\', '\\'), ('/', '/'), ('b', '\x08'), ('f', '\x0c'), ('n', '\n'), ('r', '\r'),
    ('t', '\t')].lookup e

/-- The units of a string up to its closing quote, and what follows it. -/
def lexString : List Char → Option (List StrUnit × List Char)
  | [] => none
  | c :: s =>
    if c = '"' then some ([], s)
    else if c = '\\' then
      match s with
      | 'u' :: d₁ :: d₂ :: d₃ :: d₄ :: s =>
        (hex4 d₁ d₂ d₃ d₄).bind fun n => (lexString s).map fun p => (.code n :: p.1, p.2)
      | e :: s => (unescape e).bind fun b => (lexString s).map fun p => (.byte b :: p.1, p.2)
      | [] => none
    else if c.toNat < 0x20 then none
    else (lexString s).map fun p => (.byte c :: p.1, p.2)

/-- The bytes of a string. Two `\u` escapes may form a surrogate pair; a surrogate that stands alone
is read as U+FFFD. -/
def combine : List StrUnit → List Char
  | [] => []
  | .byte c :: units => c :: combine units
  | .code n :: .code m :: units =>
    if (0xD800 ≤ n ∧ n < 0xDC00) ∧ (0xDC00 ≤ m ∧ m < 0xE000) then
      Utf8.encodeRune ((n - 0xD800) * 0x400 + (m - 0xDC00) + 0x10000) ++ combine units
    else Utf8.encodeRune n ++ combine (.code m :: units)
  | .code n :: units => Utf8.encodeRune n ++ combine units

/-- A string after its opening quote. -/
def parseString (s : List Char) : Option (String × List Char) :=
  (lexString s).map fun p => (String.ofList (Utf8.toValid (combine p.1)), p.2)

/-- The digits at the front of a string, one at least, and what follows them. -/
def parseDigits1 (s : List Char) : Option (List Char × List Char) :=
  if s.takeWhile Char.isDigit = [] then none
  else some (s.takeWhile Char.isDigit, s.dropWhile Char.isDigit)

/-- The digits after a point, if there is one. -/
def parseFrac : List Char → Option (List Char × List Char)
  | '.' :: s => parseDigits1 s
  | s => some ([], s)

/-- An integer that may have a sign. -/
def parseSigned : List Char → Option (Int × List Char)
  | '-' :: s => (parseDigits1 s).map fun p => (-(Nat.ofDigitChars 10 p.1 0 : Int), p.2)
  | '+' :: s => (parseDigits1 s).map fun p => (Nat.ofDigitChars 10 p.1 0, p.2)
  | s => (parseDigits1 s).map fun p => (Nat.ofDigitChars 10 p.1 0, p.2)

/-- An exponent, if there is one. -/
def parseExp : List Char → Option (Option Int × List Char)
  | [] => some (none, [])
  | c :: s =>
    if c = 'e' ∨ c = 'E' then (parseSigned s).map fun p => (some p.1, p.2)
    else some (none, c :: s)

/-- A number without its sign; only `0` starts with a zero. -/
def parseUnsigned (neg : Bool) (s : List Char) : Option (NumLit × List Char) := do
  let (whole, s) ← parseDigits1 s
  if Nat.toDigits 10 (Nat.ofDigitChars 10 whole 0) ≠ whole then none
  let (frac, s) ← parseFrac s
  let (exp, s) ← parseExp s
  if h : frac.all Char.isDigit then
    some (⟨neg, Nat.ofDigitChars 10 whole 0, frac, exp, h⟩, s)
  else none

/-- A number. -/
def parseNum : List Char → Option (NumLit × List Char)
  | '-' :: s => parseUnsigned true s
  | s => parseUnsigned false s

/-- The rest of a keyword. -/
def keyword (word : List Char) (j : Json) (s : List Char) : Option (Json × List Char) :=
  if word.isPrefixOf s then some (j, s.drop word.length) else none

/-- A value that is not an array or an object. -/
def parseScalar : List Char → Option (Json × List Char)
  | [] => none
  | c :: s =>
    if c = '"' then (parseString s).map fun p => (.str p.1, p.2)
    else if c = 'n' then keyword ['u', 'l', 'l'] .null s
    else if c = 't' then keyword ['r', 'u', 'e'] (.bool true) s
    else if c = 'f' then keyword ['a', 'l', 's', 'e'] (.bool false) s
    else (parseNum (c :: s)).map fun p => (.num p.1, p.2)

section Lists

variable {α : Type} (item : List Char → Option (α × List Char)) (close : Char)

/-- Items up to the closing bracket; the first argument bounds their number. -/
def parseItems : Nat → List Char → Option (List α × List Char)
  | 0, _ => none
  | k + 1, s => (item s).bind fun p =>
    match skipSpace p.2 with
    | [] => none
    | c :: s =>
      if c = close then some ([p.1], s)
      else if c = ',' then (parseItems k s).map fun q => (p.1 :: q.1, q.2)
      else none

/-- A list after its opening bracket. -/
def parseList (s : List Char) : Option (List α × List Char) :=
  match skipSpace s with
  | [] => none
  | c :: t => if c = close then some ([], t) else parseItems item close s.length s

/-- A key and its value. -/
def parseMember (s : List Char) : Option ((String × α) × List Char) :=
  (skipToken '"' s).bind fun s => (parseString s).bind fun p =>
    (skipToken ':' p.2).bind fun s => (item s).map fun q => ((p.1, q.1), q.2)

end Lists

/-- A value; the first argument bounds the nesting. -/
def parseValue : Nat → List Char → Option (Json × List Char)
  | 0, s => match skipSpace s with
    | [] => none
    | c :: s => if c = '[' ∨ c = '{' then none else parseScalar (c :: s)
  | n + 1, s => match skipSpace s with
    | [] => none
    | c :: s =>
      if c = '[' then (parseList (parseValue n) ']' s).map fun p => (.arr p.1, p.2)
      else if c = '{' then
        (parseList (parseMember (parseValue n)) '}' s).map fun p => (.obj p.1, p.2)
      else parseScalar (c :: s)

/-- `maxNestingDepth`. -/
def maxNestingDepth : Nat := 10000

namespace Json

/-- The tree of a text; `none` is a syntax error. -/
def parse (text : String) : Option Json :=
  (parseValue maxNestingDepth text.toList).bind fun p =>
    if skipSpace p.2 = [] then some p.1 else none

end Json

end ScorecardInfra.GoStd
