import ScorecardInfra.GoStd.JsonRoundTrip

/-!
# Decoding JSON into records

`json.Unmarshal` decodes a JSON tree into a value that is already there: `null` leaves a string, a
number or a struct as it is and empties a slice or a pointer, the members of an object go one after
the other into the fields of their names, and unknown members are skipped. A name is the field's
own, or the first that agrees with the key up to case. The first value of a wrong kind is the error
that is returned.

## Main definitions

* `DecodeError`, `Place`, `Decoder`.
* `decodeString`, `decodeInt`, `decodeFloat64`, `decodeSlice`, `decodePtr`, `field`, `decodeStruct`.
* `unmarshal`.

## Main results

* `decodeSlice_jsonSlice`: a slice is decoded from what it was written as.
* `unmarshal_marshal`: what was written is decoded from the tree, with its strings coerced.
-/

namespace ScorecardInfra.GoStd

/-! ### Errors -/

/-- The struct whose field is decoded, and the names of the fields around it. -/
structure Place where
  struct : String
  path : List String

/-- The errors of `json.Unmarshal`; the message of a syntax error depends on where it is and is left
out. -/
inductive DecodeError : Type
  | syntaxError
  | unmarshalType (value goType : String) (place : Place)

/-- `Error`. -/
def DecodeError.message : DecodeError → String
  | .syntaxError => "invalid JSON"
  | .unmarshalType value goType place =>
    if place.path = [] then
      "json: cannot unmarshal " ++ value ++ " into Go value of type " ++ goType
    else "json: cannot unmarshal " ++ value ++ " into Go struct field " ++ place.struct ++ "." ++
      ".".intercalate place.path ++ " of type " ++ goType

/-- What a value is called in errors. -/
def Json.kind : Json → String
  | .null => "null"
  | .bool _ => "bool"
  | .num _ => "number"
  | .str _ => "string"
  | .arr _ => "array"
  | .obj _ => "object"

/-! ### Numbers -/

/-- The digits of a number without the point. -/
def NumLit.digits (n : NumLit) : Nat := Nat.ofDigitChars 10 n.frac n.whole

/-- The power of ten of the last digit. -/
def NumLit.scale (n : NumLit) : Int := n.exp.getD 0 - n.frac.length

/-- `strconv.ParseInt` with 64 bits; `none` where it returns an error. -/
def NumLit.parseInt (n : NumLit) : Option Int64 :=
  let v : Int := if n.neg then -n.whole else n.whole
  if n.frac = [] ∧ n.exp = none ∧ -2 ^ 63 ≤ v ∧ v < 2 ^ 63 then some (Int64.ofInt v) else none

/-- Half the distance between the greatest 64-bit floating-point numbers, as a power of two. -/
def halfUlp : Nat := 970

/-- The number from which on `strconv.ParseFloat` returns a range error: halfway between the
greatest 64-bit floating-point number `(2 ^ 54 - 2) * 2 ^ halfUlp` and `2 ^ 1024`. -/
def floatLimit : Nat := (2 ^ 54 - 1) * 2 ^ halfUlp

/-- `strconv.ParseFloat` returns no error. -/
def NumLit.isFloat (n : NumLit) : Bool :=
  if 0 ≤ n.scale then decide (n.digits * 10 ^ n.scale.toNat < floatLimit)
  else decide (n.digits < floatLimit * 10 ^ (-n.scale).toNat)

/-- The literal of an integer. -/
def NumLit.ofInt (v : Int) : NumLit := ⟨decide (v < 0), v.natAbs, [], none, rfl⟩

/-- The number 0. -/
def NumLit.zero : NumLit := .ofInt 0

theorem NumLit.parseInt_ofInt (v : Int64) : (NumLit.ofInt v.toInt).parseInt = some v := by
  have hlow := Int64.le_toInt v
  have hhigh := Int64.toInt_lt v
  have hv : (if (NumLit.ofInt v.toInt).neg then -((NumLit.ofInt v.toInt).whole : Int)
      else (NumLit.ofInt v.toInt).whole) = v.toInt := by
    simp only [NumLit.ofInt, decide_eq_true_eq]
    split_ifs <;> omega
  rw [NumLit.parseInt, hv, if_pos ⟨rfl, rfl, hlow, hhigh⟩, Int64.ofInt_toInt]

/-! ### Decoders -/

/-- Decode a tree into a value. -/
abbrev Decoder (α : Type) : Type := Place → α → Json → Except DecodeError α

/-- A string. -/
def decodeString : Decoder String
  | _, cur, .null => .ok cur
  | _, _, .str s => .ok s
  | place, _, j => .error (.unmarshalType j.kind "string" place)

/-- An integer of 64 bits. -/
def decodeInt (goType : String) : Decoder Int64
  | _, cur, .null => .ok cur
  | place, _, .num n => match n.parseInt with
    | some v => .ok v
    | none => .error (.unmarshalType ("number " ++ String.ofList n.text) goType place)
  | place, _, j => .error (.unmarshalType j.kind goType place)

/-- A floating-point number, which is kept as the literal that it is the nearest to. -/
def decodeFloat64 : Decoder NumLit
  | _, cur, .null => .ok cur
  | place, _, .num n =>
    if n.isFloat then .ok n
    else .error (.unmarshalType ("number " ++ String.ofList n.text) "float64" place)
  | place, _, j => .error (.unmarshalType j.kind "float64" place)

section Decoders

variable {α β : Type}

/-- The elements of an array, each decoded into the one that the slice has at its index. -/
def decodeElems (zero : α) (elem : Decoder α) (place : Place) : List α → List Json →
    Except DecodeError (List α)
  | _, [] => .ok []
  | cur, j :: elems => do
    let x ← elem place (cur.headD zero) j
    let xs ← decodeElems zero elem place cur.tail elems
    return x :: xs

/-- A slice; `none` is the nil slice. -/
def decodeSlice (goType : String) (zero : α) (elem : Decoder α) : Decoder (Option (List α))
  | _, _, .null => .ok none
  | place, cur, .arr elems => (decodeElems zero elem place (cur.getD []) elems).map some
  | place, _, j => .error (.unmarshalType j.kind goType place)

/-- A pointer; `none` is the nil pointer. -/
def decodePtr (zero : α) (target : Decoder α) : Decoder (Option α)
  | _, _, .null => .ok none
  | place, cur, j => (target place (cur.getD zero) j).map some

/-- A field of a struct: its name, and how a value is decoded into it. -/
def field (name : String) (get : α → β) (set : β → α → α) (decode : Decoder β) :
    String × Decoder α :=
  (name, fun place cur j => (decode place (get cur) j).map (set · cur))

/-- A rune up to case; U+017F and U+212A fold to S and K. -/
def foldRune (r : Option (List Char)) : List Char :=
  if r = some ['\xc5', '\xbf'] then ['S']
  else if r = some ['\xe2', '\x84', '\xaa'] then ['K']
  else match r with
    | some [c] => [c.toUpper]
    | r => Utf8.runeBytes r

/-- `foldName`. -/
def foldName (key : String) : List Char := (Utf8.runes key.toList).flatMap foldRune

/-- The field that a key is decoded into. -/
def findField (fields : List (String × Decoder α)) (key : String) : Option (String × Decoder α) :=
  (fields.find? fun f => f.1 == key) <|> fields.find? fun f => foldName f.1 == foldName key

/-- The members of an object, one after the other. -/
def decodeMembers (struct : String) (fields : List (String × Decoder α)) (place : Place) :
    α → List (String × Json) → Except DecodeError α
  | cur, [] => .ok cur
  | cur, (key, j) :: members =>
    match findField fields key with
    | none => decodeMembers struct fields place cur members
    | some (name, decode) => do
      let cur ← decode ⟨struct, place.path ++ [name]⟩ cur j
      decodeMembers struct fields place cur members

/-- A struct of the package `pkg`. -/
def decodeStruct (pkg struct : String) (fields : List (String × Decoder α)) : Decoder α
  | _, cur, .null => .ok cur
  | place, cur, .obj members => decodeMembers struct fields place cur members
  | place, _, j => .error (.unmarshalType j.kind (pkg ++ "." ++ struct) place)

/-- `json.Unmarshal`. -/
def unmarshal (decode : Decoder α) (zero : α) (text : String) : Except DecodeError α :=
  match Json.parse text with
  | none => .error .syntaxError
  | some j => decode ⟨"", []⟩ zero j

/-- A member that is decoded into a field, whose own decoder gives the value `v`. -/
theorem decodeMembers_cons {struct : String} {fields : List (String × Decoder α)} {place : Place}
    {cur : α} {key name : String} {get : α → β} {set : β → α → α} {decode : Decoder β} {j : Json}
    {v : β} (hf : findField fields key = some (field name get set decode))
    (hv : decode ⟨struct, place.path ++ [name]⟩ (get cur) j = .ok v)
    (members : List (String × Json)) :
    decodeMembers struct fields place cur ((key, j) :: members) =
      decodeMembers struct fields place (set v cur) members := by
  rw [decodeMembers, hf]
  dsimp only [field]
  rw [hv]
  rfl

/-- What was written is decoded from the tree, with its strings coerced. -/
theorem unmarshal_marshal (decode : Decoder α) (zero : α) {j : Json}
    (h : j.depth ≤ maxNestingDepth) :
    unmarshal decode zero j.marshal = decode ⟨"", []⟩ zero j.coerce := by
  rw [unmarshal, parse_marshal h]

/-- The elements of an array that are decoded as wanted into the zero value. -/
theorem decodeElems_map {ι : Type} {zero : α} {elem : Decoder α} {place : Place} {toJson : ι → Json}
    {f : ι → α} (h : ∀ i, elem place zero (toJson i) = .ok (f i)) (l : List ι) :
    decodeElems zero elem place [] (l.map toJson) = .ok (l.map f) := by
  induction l with
  | nil => rfl
  | cons i l ih =>
    rw [List.map_cons, decodeElems, List.headD_nil, h, List.tail_nil, ih]
    rfl

end Decoders

/-- The slice of the nil slice and of lists. -/
def jsonSlice {α : Type} (toJson : α → Json) : Option (List α) → Json
  | none => .null
  | some l => .arr (l.map toJson)

theorem coerceMembers_cons {key : String} (h : validUTF8 key = true) (j : Json)
    (members : List (String × Json)) : Json.coerceMembers ((key, j) :: members) =
      (key, j.coerce) :: Json.coerceMembers members := by
  rw [Json.coerceMembers, toValidUTF8_eq_self_iff.mpr h]

theorem coerce_jsonSlice {α : Type} (toJson : α → Json) (l : Option (List α)) :
    (jsonSlice toJson l).coerce = jsonSlice (fun x => (toJson x).coerce) l := by
  have helems : ∀ l : List α,
      Json.coerceElems (l.map toJson) = l.map fun x => (toJson x).coerce := by
    intro l
    induction l with
    | nil => rfl
    | cons x l ih => rw [List.map_cons, Json.coerceElems, ih, List.map_cons]
  cases l with
  | none => rfl
  | some l => rw [jsonSlice, Json.coerce, helems, jsonSlice]

/-- A slice is as deep as its elements and one more. -/
theorem depth_jsonSlice_le {α : Type} {toJson : α → Json} {n : Nat} (h : ∀ x, (toJson x).depth ≤ n)
    (l : Option (List α)) : (jsonSlice toJson l).depth ≤ n + 1 := by
  have helems : ∀ l : List α, Json.depthElems (l.map toJson) ≤ n := by
    intro l
    induction l with
    | nil => exact Nat.zero_le n
    | cons x l ih => exact Nat.max_le.mpr ⟨h x, ih⟩
  cases l with
  | none => exact Nat.zero_le _
  | some l => exact Nat.succ_le_succ (helems l)

/-- A slice is decoded from what it was written as. -/
theorem decodeSlice_jsonSlice {α ι : Type} {goType : String} {zero : α} {elem : Decoder α}
    {place : Place} {toJson : ι → Json} {f : ι → α}
    (h : ∀ i, elem place zero (toJson i) = .ok (f i))
    (l : Option (List ι)) :
    decodeSlice goType zero elem place none (jsonSlice toJson l) = .ok (l.map (List.map f)) := by
  cases l with
  | none => rfl
  | some l => rw [jsonSlice, decodeSlice, Option.getD_none, decodeElems_map h]; rfl

end ScorecardInfra.GoStd
