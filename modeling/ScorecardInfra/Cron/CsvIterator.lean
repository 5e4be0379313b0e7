import ScorecardInfra.Cron.Controller

/-!
# The iterators of the controller

A job's repositories are read from CSV files, one after the other (`CsvIterator`, `NestedIterator`).
A first row that is the header is skipped, once for each file. What a loop over the nested iterator
gets are the data rows of all files in order (`NestedIterator.drain_new`).

The decoder of a file is modelled by what it makes of each row, until the end of the file.

## Main definitions

* `CsvRow`, `CsvIterator`, `NestedIterator`, `NestedIterator.drain`, `dataRows`.

## Main results

* `CsvIterator.finds_hasNext`, `CsvIterator.drain_new`, `NestedIterator.drain_new`.

Source: `cron/data/iterator.go`.
-/

namespace ScorecardInfra.Cron

open GoStd Interaction

/-! ### Rows -/

/-- What the decoder makes of a row: its record, and its value or an error. -/
structure CsvRow where
  record : List String
  decoded : Except String RepoFormat

/-- `csvutil.Header(RepoFormat{}, "csv")`. -/
def csvHeader : List String := ["repo", "metadata"]

/-- `io.EOF`. -/
def ioEOF : CronError := .sentinel "EOF"

/-- `MakeGitlabRepo` and `MakeGithubRepo`, as checks of a URL. -/
structure RepoMakers where
  makeGitlabRepo : String → Except String Unit
  makeGithubRepo : String → Except String Unit

/-! ### The iterator of a file -/

/-- `csvIterator`, with the rows that its decoder has not read and the record of the last one. -/
structure CsvIterator where
  rows : List CsvRow
  record : List String
  err : Option CronError
  next : RepoFormat
  afterHeader : Bool

namespace CsvIterator

/-- `MakeIteratorFrom`. -/
def new (rows : List CsvRow) : CsvIterator := ⟨rows, [], none, ⟨"", []⟩, false⟩

/-- `reader.err = reader.decoder.Decode(&reader.next)`. -/
def decode (reader : CsvIterator) : CsvIterator :=
  match reader.rows with
  | [] => { reader with err := some ioEOF }
  | row :: rows => match row.decoded with
    | .ok next => { reader with rows, record := row.record, err := none, next }
    | .error e => { reader with rows, record := row.record, err := some (.text e) }

/-- `isHeader`. -/
def isHeader (reader : CsvIterator) : Bool × CsvIterator :=
  if reader.afterHeader then (false, reader)
  else (reader.record == csvHeader, { reader with afterHeader := true })

/-- `HasNext`.

Source: `cron/data/iterator.go`, lines 76–82. -/
def hasNext (reader : CsvIterator) : Bool × CsvIterator :=
  let (header, reader) := reader.decode.isHeader
  let reader := if header then reader.decode else reader
  (reader.err != some ioEOF, reader)

/-- The check of a URL. -/
def validate (m : RepoMakers) (repoURI : String) : Except CronError Unit :=
  match m.makeGitlabRepo repoURI with
  | .ok () => .ok ()
  | .error _ => match m.makeGithubRepo repoURI with
    | .ok () => .ok ()
    | .error err => .error (.wrapf "invalid URL, neither github nor gitlab" (.text err))

/-- `Next`.

Source: `cron/data/iterator.go`, lines 84–98. -/
def getNext (m : RepoMakers) (reader : CsvIterator) : Except CronError RepoFormat :=
  match reader.err with
  | some err => .error (.wrapf "reader has error" err)
  | none => (validate m reader.next.repo).map fun _ => reader.next

end CsvIterator

/-! ### The iterator of several files -/

/-- `nestedIterator`: the iterators from the current one on. -/
structure NestedIterator where
  iterators : List CsvIterator

namespace NestedIterator

/-- `MakeNestedIterator` of new iterators for the files. -/
def new (files : List (List CsvRow)) : NestedIterator := ⟨files.map CsvIterator.new⟩

/-- The loop of `HasNext`. -/
def advance : List CsvIterator → Bool × List CsvIterator
  | [] => (false, [])
  | i :: iterators =>
    let (found, i) := i.hasNext
    if found then (true, i :: iterators) else advance iterators

/-- `HasNext`.

Source: `cron/data/iterator.go`, lines 109–117. -/
def hasNext (i : NestedIterator) : Bool × NestedIterator :=
  let (found, iterators) := advance i.iterators
  (found, ⟨iterators⟩)

/-- `Next`; nothing stands for an index out of range.

Source: `cron/data/iterator.go`, lines 119–125. -/
def getNext (m : RepoMakers) (i : NestedIterator) : Option (Except CronError RepoFormat) :=
  i.iterators.head?.map fun it => inContext "nestedIterator.Next()" (it.getNext m)

/-- The number of rows that are left. -/
def size (i : NestedIterator) : Nat := (i.iterators.map fun it => it.rows.length).sum

end NestedIterator

/-! ### What the iterators return -/

/-- The rows of a file after its header. -/
def dataRows : List CsvRow → List CsvRow
  | [] => []
  | row :: rows => if row.record = csvHeader then rows else row :: rows

theorem mem_of_mem_dataRows {row : CsvRow} {rows : List CsvRow} (h : row ∈ dataRows rows) :
    row ∈ rows := by
  cases rows with
  | nil => exact h
  | cons first rows =>
    rw [dataRows] at h
    split_ifs at h
    · exact List.mem_cons_of_mem first h
    · exact h

/-- The value of a row that is valid. -/
def CsvRow.value (m : RepoMakers) (row : CsvRow) : Except CronError RepoFormat :=
  match row.decoded with
  | .error e => .error (.wrapf "reader has error" (.text e))
  | .ok next => (CsvIterator.validate m next.repo).map fun _ => next

namespace CsvIterator

/-- The rows that an iterator will still return. -/
def remaining (reader : CsvIterator) : List CsvRow :=
  if reader.afterHeader then reader.rows else dataRows reader.rows

variable {m : RepoMakers} {reader : CsvIterator}

/-- At the end of the file there is no next row. -/
theorem decode_nil (h : reader.rows = []) : reader.decode = { reader with err := some ioEOF } := by
  rw [decode, h]

/-- A row is read: there is a next one, which has its value. -/
theorem decode_cons {row : CsvRow} {rows : List CsvRow} (h : reader.rows = row :: rows) :
    (reader.decode.err != some ioEOF) = true ∧ reader.decode.rows = rows ∧
      reader.decode.record = row.record ∧ reader.decode.getNext m = row.value m ∧
      reader.decode.afterHeader = reader.afterHeader := by
  cases hrow : row.decoded with
  | ok next => simp [decode, h, hrow, getNext, CsvRow.value]
  | error e => simp [decode, h, hrow, getNext, CsvRow.value, ioEOF]

/-- What the next call of `HasNext` finds, if these rows are left. -/
def Finds (m : RepoMakers) (found : Bool × CsvIterator) : List CsvRow → Prop
  | [] => found.1 = false
  | row :: rows => found.1 = true ∧ found.2.afterHeader = true ∧ found.2.rows = rows ∧
      found.2.getNext m = row.value m

/-- Reading a row after the header. -/
theorem finds_decode (m : RepoMakers) (h : reader.afterHeader = true) :
    Finds m (reader.decode.err != some ioEOF, reader.decode) reader.rows := by
  cases hrows : reader.rows with
  | nil =>
    rw [decode_nil hrows]
    exact bne_self_eq_false (some ioEOF)
  | cons row rows =>
    obtain ⟨herr, hrest, -, hnext, hheader⟩ := decode_cons (m := m) hrows
    exact ⟨herr, hheader.trans h, hrest, hnext⟩

/-- **One call of `HasNext`** finds the next of the rows that remain. -/
theorem finds_hasNext (m : RepoMakers) (h : reader.afterHeader = false → reader.record = []) :
    Finds m reader.hasNext reader.remaining := by
  cases hheader : reader.afterHeader with
  | true =>
    have hdecode : reader.decode.afterHeader = true := by
      cases hrows : reader.rows with
      | nil => rw [decode_nil hrows, hheader]
      | cons row rows => exact (decode_cons (m := m) hrows).2.2.2.2.trans hheader
    have hfinds := finds_decode m hheader
    simpa [remaining, hasNext, isHeader, hheader, hdecode] using hfinds
  | false =>
    cases hrows : reader.rows with
    | nil =>
      have hrecord : (reader.record == csvHeader) = false := by
        rw [h hheader]
        rfl
      simp [remaining, hheader, hrows, dataRows, Finds, hasNext, decode_nil, isHeader, hrecord]
    | cons row rows =>
      obtain ⟨herr, hrest, hrecord, hnext, hafter⟩ := decode_cons (m := m) hrows
      by_cases hrow : row.record = csvHeader
      · have hfinds := @finds_decode { reader.decode with afterHeader := true } m rfl
        rw [show CsvIterator.rows { reader.decode with afterHeader := true } = rows
          from hrest] at hfinds
        simpa [remaining, hheader, hrows, dataRows, hrow, hasNext, isHeader, hafter,
          hrecord] using hfinds
      · simp only [remaining, hheader, hrows, dataRows, hrow, Finds, hasNext, isHeader,
          hafter, hrecord,
          Bool.false_eq_true, if_false, beq_iff_eq]
        exact ⟨herr, trivial, hrest, hnext⟩

theorem isHeader_snd :
    reader.isHeader.2.rows = reader.rows ∧ reader.isHeader.2.err = reader.err := by
  unfold isHeader
  split_ifs <;> exact ⟨rfl, rfl⟩

theorem length_decode_le : reader.decode.rows.length ≤ reader.rows.length := by
  cases hrows : reader.rows with
  | nil => rw [decode_nil hrows, hrows]
  | cons row rows =>
    rw [(decode_cons (m := ⟨fun _ => .ok (), fun _ => .ok ()⟩) hrows).2.1, List.length_cons]
    omega

/-- A next row has been read. -/
theorem length_hasNext_lt (h : reader.hasNext.1 = true) :
    reader.hasNext.2.rows.length < reader.rows.length := by
  obtain ⟨hrows', herr'⟩ := @isHeader_snd reader.decode
  cases hrows : reader.rows with
  | nil =>
    rw [decode_nil hrows] at hrows' herr'
    simp only [hasNext, decode_nil hrows] at h
    split_ifs at h
    · rw [decode_nil (hrows'.trans hrows)] at h
      simp at h
    · rw [herr'] at h
      simp at h
  | cons row rows =>
    rw [(decode_cons (m := ⟨fun _ => .ok (), fun _ => .ok ()⟩) hrows).2.1] at hrows'
    have hle : reader.hasNext.2.rows.length ≤ rows.length := by
      simp only [hasNext]
      split_ifs
      · exact length_decode_le.trans (congrArg List.length hrows').le
      · rw [hrows']
    exact Nat.lt_succ_of_le hle

/-! ### Loops over the iterator of a file -/

/-- What a loop that calls `HasNext` and `Next` gets. -/
def drain (m : RepoMakers) (reader : CsvIterator) : List (Except CronError RepoFormat) :=
  match _h : reader.hasNext with
  | (false, _) => []
  | (true, reader') => reader'.getNext m :: drain m reader'
termination_by reader.rows.length
decreasing_by
  have hlt := length_hasNext_lt (congrArg Prod.fst _h)
  rwa [_h] at hlt

theorem drain_of_end {reader reader' : CsvIterator} (m : RepoMakers)
    (h : reader.hasNext = (false, reader')) : reader.drain m = [] := by
  unfold drain
  split
  · rfl
  · rename_i h'
    cases h.symm.trans h'

theorem drain_of_next {reader reader' : CsvIterator} (m : RepoMakers)
    (h : reader.hasNext = (true, reader')) :
    reader.drain m = reader'.getNext m :: reader'.drain m := by
  rw [drain]
  split
  · rename_i h'
    cases h.symm.trans h'
  · rename_i h'
    rw [(Prod.mk.inj (h.symm.trans h')).2]

theorem drain_eq (m : RepoMakers) (rows : List CsvRow) : (reader : CsvIterator) →
    (reader.afterHeader = false → reader.record = []) → reader.remaining = rows →
      reader.drain m = rows.map fun row => row.value m := by
  induction rows with
  | nil =>
    intro reader hready hrows
    have hfinds := finds_hasNext m hready
    rw [hrows] at hfinds
    have hnext : reader.hasNext.1 = false := hfinds
    rw [drain_of_end m (Prod.ext hnext rfl), List.map_nil]
  | cons row rows ih =>
    intro reader hready hrows
    have hfinds := finds_hasNext m hready
    rw [hrows] at hfinds
    obtain ⟨hfound, hafter, hrest, hvalue⟩ := hfinds
    have hready' : reader.hasNext.2.afterHeader = false → reader.hasNext.2.record = [] :=
      fun hfalse => absurd (hafter.symm.trans hfalse) (by decide)
    have hremaining : reader.hasNext.2.remaining = rows := by
      rw [remaining, hafter, if_pos rfl, hrest]
    rw [drain_of_next m (Prod.ext hfound rfl), List.map_cons, hvalue, ih _ hready' hremaining]

/-- **A loop over a new iterator** gets the rows of the file after its header. -/
theorem drain_new (m : RepoMakers) (rows : List CsvRow) :
    (new rows).drain m = (dataRows rows).map fun row => row.value m :=
  drain_eq m _ _ (fun _ => rfl) rfl

end CsvIterator

namespace NestedIterator

/-! ### Loops over the nested iterator -/

theorem size_advance_lt : (iterators : List CsvIterator) → (advance iterators).1 = true →
    (⟨(advance iterators).2⟩ : NestedIterator).size < (⟨iterators⟩ : NestedIterator).size
  | [], h => nomatch h
  | it :: iterators, h => by
    cases hfound : it.hasNext.1 with
    | true =>
      have hlt := CsvIterator.length_hasNext_lt hfound
      simpa [advance, hfound, size] using hlt
    | false =>
      have hadvance : advance (it :: iterators) = advance iterators := by simp [advance, hfound]
      rw [hadvance] at h ⊢
      have hlt := size_advance_lt iterators h
      simp only [size, List.map_cons, List.sum_cons] at hlt ⊢
      omega

theorem size_hasNext_lt {i i' : NestedIterator} (h : i.hasNext = (true, i')) :
    i'.size < i.size := by
  obtain ⟨hfound, rfl⟩ := Prod.mk.inj h
  exact size_advance_lt i.iterators hfound

/-- What a loop that calls `HasNext` and `Next` gets. -/
def drain (m : RepoMakers) (i : NestedIterator) : List (Except CronError RepoFormat) :=
  match _h : i.hasNext with
  | (false, _) => []
  | (true, i') => match i'.getNext m with
    | none => []
    | some next => next :: drain m i'
termination_by i.size
decreasing_by exact size_hasNext_lt ‹_›

variable {m : RepoMakers}

/-- The iterators have read their headers, or nothing. -/
def Ready (iterators : List CsvIterator) : Prop :=
  ∀ it ∈ iterators, it.afterHeader = false → it.record = []

/-- What the next call of `HasNext` finds, if these rows are left. -/
def Finds (m : RepoMakers) (found : Bool × List CsvIterator) : List CsvRow → Prop
  | [] => found.1 = false
  | row :: rows => found.1 = true ∧ ∃ it iterators, found.2 = it :: iterators ∧
      it.getNext m = row.value m ∧ Ready found.2 ∧ found.2.flatMap CsvIterator.remaining = rows

/-- **One call of `HasNext`** finds the next row of all files. -/
theorem finds_advance (m : RepoMakers) : (iterators : List CsvIterator) → Ready iterators →
    Finds m (advance iterators) (iterators.flatMap CsvIterator.remaining)
  | [], _ => rfl
  | it :: iterators, h => by
    have hit := it.finds_hasNext m (h it List.mem_cons_self)
    have hrest : Ready iterators := fun it' hit' => h it' (List.mem_cons_of_mem _ hit')
    rw [List.flatMap_cons]
    cases hrows : it.remaining with
    | nil =>
      rw [hrows] at hit
      have hfalse : it.hasNext.1 = false := hit
      simpa [advance, hfalse] using finds_advance m iterators hrest
    | cons row rows =>
      rw [hrows] at hit
      obtain ⟨hfound, hafter, hrows', hnext⟩ := hit
      have hadvance : advance (it :: iterators) = (true, it.hasNext.2 :: iterators) := by
        simp [advance, hfound]
      rw [hadvance]
      refine ⟨rfl, _, _, rfl, hnext, ?_, ?_⟩
      · intro it' hit'
        rcases List.mem_cons.mp hit' with rfl | hit'
        · exact fun hfalse => absurd (hafter.symm.trans hfalse) (by decide)
        · exact hrest it' hit'
      · simp [CsvIterator.remaining, hafter, hrows']

theorem drain_of_end {i i' : NestedIterator} (h : i.hasNext = (false, i')) : i.drain m = [] := by
  unfold drain
  split
  · rfl
  · rename_i h'
    cases h.symm.trans h'

theorem drain_of_next {i i' : NestedIterator} {next : Except CronError RepoFormat}
    (h : i.hasNext = (true, i')) (hnext : i'.getNext m = some next) :
    i.drain m = next :: i'.drain m := by
  rw [drain]
  split
  · rename_i h'
    cases h.symm.trans h'
  · rename_i h'
    rw [← (Prod.mk.inj (h.symm.trans h')).2, hnext]

/-- **A loop over the nested iterator** gets the data rows of all files, one after the other. -/
theorem drain_eq (m : RepoMakers) (rows : List CsvRow) : (i : NestedIterator) → Ready i.iterators →
    i.iterators.flatMap CsvIterator.remaining = rows →
      i.drain m = rows.map fun row => inContext "nestedIterator.Next()" (row.value m) := by
  induction rows with
  | nil =>
    intro i hready hrows
    have hfinds := finds_advance m i.iterators hready
    rw [hrows] at hfinds
    have hnext : i.hasNext.1 = false := hfinds
    rw [drain_of_end (Prod.ext hnext rfl), List.map_nil]
  | cons row rows ih =>
    intro i hready hrows
    have hfinds := finds_advance m i.iterators hready
    rw [hrows] at hfinds
    obtain ⟨hfound, it, iterators, heq, hvalue, hready', hrest⟩ := hfinds
    have hnext : i.hasNext = (true, ⟨it :: iterators⟩) := by
      rw [← heq]
      exact Prod.ext hfound rfl
    rw [heq] at hready' hrest
    have hget : (⟨it :: iterators⟩ : NestedIterator).getNext m =
        some (inContext "nestedIterator.Next()" (row.value m)) := by
      rw [← hvalue]
      rfl
    rw [drain_of_next hnext hget, List.map_cons, ih _ hready' hrest]

/-- The nested iterator of some files. -/
theorem drain_new (m : RepoMakers) (files : List (List CsvRow)) :
    (new files).drain m = (files.flatMap dataRows).map fun row =>
      inContext "nestedIterator.Next()" (row.value m) := by
  refine drain_eq m _ _ ?_ ?_
  · intro it hit _
    obtain ⟨rows, -, rfl⟩ := List.mem_map.mp hit
    rfl
  · rw [new, List.flatMap_map]
    rfl

end NestedIterator

end ScorecardInfra.Cron
