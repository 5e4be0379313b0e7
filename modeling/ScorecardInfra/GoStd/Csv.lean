import ScorecardInfra.GoStd.Bufio
import ScorecardInfra.GoStd.Utf8

/-!
# Writing CSV

The writer of `encoding/csv` puts a comma between the fields of a record and a newline after them. A
field that holds a comma, a quote or a line break, or that begins with a space, stands in quotes,
with its own quotes doubled. The writer is a buffer: `Write` returns at the first error of the
buffer, and `Flush` returns nothing, so that an error in it can only be learnt from `Error`.

## Main definitions

* `fieldNeedsQuotes`, `recordCalls`, `write`, `writeAll`.
* `recordText`, `text`: the encoding of the records; `lengths`: how it is cut into calls.
* `withinRecord`: reading a text up to the end of a record.

## Main results

* `text_recordCalls`: the calls for a record write its text.
* `recordText_append_inj`, `text_eq_of_prefix`: no record begins another.
* `holds_writeAll`: what the buffer has been given and keeps.
-/

namespace ScorecardInfra.GoStd.Csv

open Bufio

/-! ### Fields and records -/

/-- The characters that need care inside quotes. -/
def isSpecial (c : Char) : Bool := c == '"' || c == '\r' || c == '\n'

/-- The runes of `unicode.IsSpace`. -/
def spaceRunes : List Nat :=
  [0x09, 0x0A, 0x0B, 0x0C, 0x0D, 0x20, 0x85, 0xA0, 0x1680, 0x2000, 0x2001, 0x2002, 0x2003, 0x2004,
    0x2005, 0x2006, 0x2007, 0x2008, 0x2009, 0x200A, 0x2028, 0x2029, 0x202F, 0x205F, 0x3000]

/-- The first rune is a space. -/
def startsWithSpace (field : List Char) : Bool :=
  spaceRunes.any fun n => (Utf8.encodeRune n).isPrefixOf field

/-- `fieldNeedsQuotes`, with the comma as separator. -/
def fieldNeedsQuotes (field : List Char) : Bool :=
  if field = [] then false
  else if field = ['\\', '.'] then true
  else field.any (fun c => isSpecial c || c == ',') || startsWithSpace field

/-- The call for a character that needs care. -/
def specialCall (c : Char) : Call Char := if c = '"' then .string ['"', '"'] else .byte c

/-- The calls for the text inside quotes; `run` is what stands before it and needs no care. -/
def quotedCalls (run : List Char) : List Char → List (Call Char)
  | [] => if run = [] then [] else [.string run]
  | c :: field =>
    if isSpecial c then .string run :: specialCall c :: quotedCalls [] field
    else quotedCalls (run ++ [c]) field

/-- The calls for a field. -/
def fieldCalls (field : List Char) : List (Call Char) :=
  if fieldNeedsQuotes field then .byte '"' :: (quotedCalls [] field ++ [.byte '"'])
  else [.string field]

/-- The calls for a record. -/
def recordCalls (record : List String) : List (Call Char) :=
  [Call.byte ','].intercalate (record.map fun field => fieldCalls field.toList) ++ [.byte '\n']

/-! ### The writer -/

/-- The size of the buffer of `bufio.NewWriter`. -/
abbrev defaultBufSize : Nat := 4096

variable {ε : Type}

/-- `Write`. -/
def write (w : Bufio.Writer ε Char) (record : List String) : Bufio.Writer ε Char :=
  w.calls defaultBufSize (recordCalls record)

/-- `Write` for one record after the other, until the first error. -/
def writeAll (w : Bufio.Writer ε Char) : List (List String) → Bufio.Writer ε Char
  | [] => w
  | record :: records =>
    if (write w record).err.isSome then write w record else writeAll (write w record) records

/-! ### The text -/

/-- A character inside quotes. -/
def quotedText (c : Char) : List Char := if c = '"' then ['"', '"'] else [c]

/-- A field as text. -/
def fieldText (field : List Char) : List Char :=
  if fieldNeedsQuotes field then '"' :: (field.flatMap quotedText ++ ['"']) else field

/-- A record as text. -/
def recordText (record : List String) : List Char :=
  [','].intercalate (record.map fun field => fieldText field.toList) ++ ['\n']

/-- The encoding of the records. -/
def text (records : List (List String)) : List Char := records.flatMap recordText

/-- The lengths of the texts that are written one after the other. -/
def lengths (records : List (List String)) : List Nat :=
  (records.flatMap recordCalls).map fun c => c.text.length

theorem text_specialCall (c : Char) : (specialCall c).text = quotedText c := by
  unfold specialCall quotedText
  split_ifs <;> rfl

theorem text_quotedCalls (run field : List Char) :
    (quotedCalls run field).flatMap Call.text = run ++ field.flatMap quotedText := by
  induction field generalizing run with
  | nil =>
    rw [quotedCalls]
    split_ifs with hrun
    · rw [hrun]
      rfl
    · simp [Call.text]
  | cons c field ih =>
    rw [quotedCalls]
    split_ifs with hspecial
    · rw [List.flatMap_cons, List.flatMap_cons, ih, text_specialCall]
      rfl
    · have hc : quotedText c = [c] := by
        rw [quotedText, if_neg]
        rintro rfl
        exact hspecial rfl
      rw [ih, List.flatMap_cons, hc, List.append_assoc]

theorem text_fieldCalls (field : List Char) :
    (fieldCalls field).flatMap Call.text = fieldText field := by
  unfold fieldCalls fieldText
  split_ifs
  · simp [text_quotedCalls, Call.text]
  · simp [Call.text]

/-- The texts of lists of calls with a separator. -/
private theorem text_intercalate (sep : List (Call Char)) (cs : List (List (Call Char))) :
    (sep.intercalate cs).flatMap Call.text =
      (sep.flatMap Call.text).intercalate (cs.map fun c => c.flatMap Call.text) := by
  induction cs with
  | nil => rfl
  | cons c cs ih =>
    cases cs with
    | nil => simp
    | cons c' cs =>
      rw [List.intercalate_cons_cons, List.flatMap_append, List.flatMap_append, ih]
      simp only [List.map_cons, List.intercalate_cons_cons]

/-- **The calls for a record** write its text. -/
theorem text_recordCalls (record : List String) :
    (recordCalls record).flatMap Call.text = recordText record := by
  have htexts : (record.map fun field => fieldCalls field.toList).map
      (fun c => c.flatMap Call.text) = record.map fun field => fieldText field.toList := by
    simp [text_fieldCalls]
  rw [recordCalls, List.flatMap_append, text_intercalate, htexts]
  rfl

theorem text_cons (record : List String) (records : List (List String)) :
    text (record :: records) = recordText record ++ text records := rfl

theorem text_calls (records : List (List String)) :
    (records.flatMap recordCalls).flatMap Call.text = text records := by
  rw [List.flatMap_assoc]
  exact List.flatMap_congr fun record _ => text_recordCalls record

theorem sum_lengths (records : List (List String)) :
    (lengths records).sum = (text records).length := by
  rw [lengths, ← text_calls, List.length_flatMap]

/-! ### Where a record ends -/

/-- Reading a text: whether it ends inside quotes, if it has no newline outside of them. -/
def withinRecord (inQuotes : Bool) : List Char → Option Bool
  | [] => some inQuotes
  | c :: s =>
    if c = '"' then withinRecord (!inQuotes) s
    else if c = '\n' ∧ inQuotes = false then none
    else withinRecord inQuotes s

theorem withinRecord_append (inQuotes : Bool) (s t : List Char) :
    withinRecord inQuotes (s ++ t) = (withinRecord inQuotes s).bind fun q => withinRecord q t := by
  induction s generalizing inQuotes with
  | nil => rfl
  | cons c s ih =>
    rw [List.cons_append, withinRecord, withinRecord]
    split_ifs
    exacts [ih _, rfl, ih _]

theorem withinRecord_quotedText (field : List Char) :
    withinRecord true (field.flatMap quotedText) = some true := by
  induction field with
  | nil => rfl
  | cons c field ih =>
    have hc : withinRecord true (quotedText c) = some true := by
      unfold quotedText
      split_ifs with hquote
      · rfl
      · simp [withinRecord, hquote]
    rw [List.flatMap_cons, withinRecord_append, hc, Option.bind_some, ih]

theorem withinRecord_of_notMem {s : List Char} (hquote : '"' ∉ s) (hline : '\n' ∉ s) :
    withinRecord false s = some false := by
  induction s with
  | nil => rfl
  | cons c s ih =>
    rw [List.mem_cons, not_or] at hquote hline
    rw [withinRecord, if_neg (Ne.symm hquote.1), if_neg fun h => hline.1 h.1.symm,
      ih hquote.2 hline.2]

theorem isSpecial_eq_false {field : List Char} (h : fieldNeedsQuotes field = false) {c : Char}
    (hc : c ∈ field) : isSpecial c = false := by
  rw [fieldNeedsQuotes, if_neg (List.ne_nil_of_mem hc)] at h
  split_ifs at h
  rw [Bool.or_eq_false_iff, List.any_eq_false] at h
  have hnot := h.1 c hc
  rw [Bool.or_eq_true, not_or] at hnot
  exact Bool.eq_false_iff.mpr hnot.1

theorem withinRecord_fieldText (field : List Char) :
    withinRecord false (fieldText field) = some false := by
  unfold fieldText
  split_ifs with hneeds
  · rw [withinRecord, if_pos rfl, withinRecord_append, Bool.not_false, withinRecord_quotedText]
    rfl
  · have hspecial := @isSpecial_eq_false field (Bool.eq_false_iff.mpr hneeds)
    refine withinRecord_of_notMem (fun hmem => ?_) fun hmem => ?_
    · exact absurd (hspecial hmem) (by decide)
    · exact absurd (hspecial hmem) (by decide)

/-- **A record** ends at its first newline outside quotes. -/
theorem exists_recordText (record : List String) :
    ∃ u, recordText record = u ++ ['\n'] ∧ withinRecord false u = some false := by
  refine ⟨_, rfl, ?_⟩
  induction record with
  | nil => rfl
  | cons field record ih =>
    cases record with
    | nil =>
      rw [List.map_singleton, List.intercalate_singleton]
      exact withinRecord_fieldText field.toList
    | cons field' record =>
      rw [List.map_cons, List.map_cons, List.intercalate_cons_cons, withinRecord_append,
        withinRecord_append, withinRecord_fieldText]
      exact ih

/-- **No record begins another.** -/
theorem recordText_append_inj {r r' : List String} {s s' : List Char}
    (h : recordText r ++ s = recordText r' ++ s') : recordText r = recordText r' ∧ s = s' := by
  obtain ⟨u, hu, hwithin⟩ := exists_recordText r
  obtain ⟨u', hu', hwithin'⟩ := exists_recordText r'
  rw [hu, hu', List.append_assoc, List.append_assoc] at h
  have hnewline : ∀ {v v' m t t' : List Char}, withinRecord false v = some false →
      withinRecord false v' = some false → v' = v ++ m → '\n' :: t = m ++ '\n' :: t' → m = [] := by
    intro v v' m t t' hv hv' happend hm
    cases m with
    | nil => rfl
    | cons c m =>
      obtain ⟨rfl, -⟩ := List.cons_eq_cons.mp hm
      rw [happend, withinRecord_append, hv] at hv'
      cases hv'
  rcases List.append_eq_append_iff.mp h with ⟨m, hm, hrest⟩ | ⟨m, hm, hrest⟩
  · obtain rfl := hnewline hwithin hwithin' hm hrest
    rw [List.append_nil] at hm
    rw [hu, hu', hm]
    exact ⟨rfl, (List.cons_eq_cons.mp hrest).2⟩
  · obtain rfl := hnewline hwithin' hwithin hm hrest
    rw [List.append_nil] at hm
    rw [hu, hu', hm]
    exact ⟨rfl, (List.cons_eq_cons.mp hrest).2.symm⟩

/-- A text of as many records as another does not begin it, unless it is the other. -/
theorem text_eq_of_prefix {rs rs' : List (List String)} (hlen : rs.length = rs'.length)
    (h : text rs <+: text rs') : text rs = text rs' := by
  induction rs generalizing rs' with
  | nil =>
    obtain rfl := List.eq_nil_of_length_eq_zero hlen.symm
    rfl
  | cons r rs ih =>
    obtain ⟨r', rs', rfl⟩ := List.exists_cons_of_length_eq_add_one hlen.symm
    obtain ⟨t, ht⟩ := h
    rw [text_cons, text_cons, List.append_assoc] at ht
    obtain ⟨hrecord, hrest⟩ := recordText_append_inj ht
    rw [text_cons, text_cons, hrecord, ih (Nat.succ.inj hlen) ⟨t, hrest⟩]

/-! ### What the buffer has been given -/

variable {w : Sink ε Char} {b : Bufio.Writer ε Char} {given : List Char} {k : Nat}

/-- **Records that are written** one after the other. -/
theorem holds_writeAll (h : Holds defaultBufSize w given k b) (records : List (List String)) :
    Holds defaultBufSize w (given ++ text records)
      ((lengths records).foldl (keptAfter defaultBufSize w.stringWriter) k)
      (writeAll b records) := by
  induction records generalizing given k b with
  | nil => simpa [writeAll, lengths, text] using h
  | cons record records ih =>
    have hwrite := h.calls (recordCalls record)
    rw [text_recordCalls] at hwrite
    have hlengths : lengths (record :: records) =
        ((recordCalls record).map fun c => c.text.length) ++ lengths records := by
      rw [lengths, List.flatMap_cons, List.map_append]
      rfl
    rw [writeAll, text_cons, hlengths, List.foldl_append, ← List.append_assoc]
    split_ifs with herr
    · obtain ⟨hsize, hsum⟩ := foldl_keptAfter_le w.stringWriter hwrite.le_size
        (lengths records)
      refine hwrite.of_err (Option.isSome_iff_ne_none.mp herr) hsize ?_
      rwa [sum_lengths] at hsum
    · exact ih hwrite

end ScorecardInfra.GoStd.Csv
