import Mathlib.Algebra.Order.BigOperators.Group.List
import Mathlib.Algebra.Order.Group.Nat
import ScorecardInfra.Cron.CsvIterator
import ScorecardInfra.GoStd.Csv

/-!
# Writing an inventory

`WriteTo` encodes a list of repositories as CSV and flushes the writer. The writer buffers what it
is given, and is not asked for the error of the flush: an output that fails is reported only if it
fails before the flush. So all of the encoding has been accepted whenever nil is returned, if and
only if the output accepts all of it, or less than the buffer hands on before it is flushed
(`reports_iff`).

## Main definitions

* `marshalCSV`, `unmarshalCSV`, `writeTo`, `sortAndAppendTo`.
* `encoding`, `writtenBeforeFlush`, `Reports`.

## Main results

* `unmarshalCSV_marshalCSV`, `accepted_writeTo`, `writeTo_eq_nil_iff`, `reports_iff`.

Source: `cron/data/writer.go`, `cron/data/format.go`.
-/

namespace ScorecardInfra.Cron

open GoStd

/-! ### Records -/

/-- `CSVStrings.MarshalCSV`. -/
def marshalCSV (s : List String) : String := Strings.join s ','

/-- `CSVStrings.UnmarshalCSV`. -/
def unmarshalCSV (input : String) : List String :=
  if input = "" then [] else Strings.split input ','

/-- The metadata that a field can be decoded to. -/
def IsDecoded (metadata : List String) : Prop :=
  metadata ≠ [""] ∧ ∀ m ∈ metadata, ',' ∉ m.toList

theorem isDecoded_unmarshalCSV (input : String) : IsDecoded (unmarshalCSV input) := by
  unfold unmarshalCSV
  split_ifs with hinput
  · exact ⟨nofun, nofun⟩
  · refine ⟨fun hsplit => hinput ?_, fun m hm => Strings.notMem_of_mem_split hm⟩
    rw [← Strings.join_split input ',', hsplit]
    rfl

/-- **Round trip.** Metadata that were decoded from a field are read back. -/
theorem unmarshalCSV_marshalCSV {metadata : List String} (h : IsDecoded metadata) :
    unmarshalCSV (marshalCSV metadata) = metadata := by
  by_cases hnil : metadata = []
  · rw [hnil]
    rfl
  · have hsplit : Strings.split (marshalCSV metadata) ',' = metadata :=
      Strings.split_join h.2 hnil
    have hne : marshalCSV metadata ≠ "" := by
      intro hempty
      rw [hempty] at hsplit
      exact h.1 hsplit.symm
    rw [unmarshalCSV, if_neg hne, hsplit]

/-- The record of a repository. -/
def RepoFormat.record (repo : RepoFormat) : List String := [repo.repo, marshalCSV repo.metadata]

section Write

-- whether `csvutil` writes the header for an empty list
variable (headerOfNone : Bool)

/-- The records that `csvutil` writes for a list: its header and one for each repository. -/
def inventoryRecords (repos : List RepoFormat) : List (List String) :=
  (if repos = [] ∧ headerOfNone = false then [] else [csvHeader]) ++ repos.map RepoFormat.record

/-- The CSV encoding of a list. -/
def encoding (repos : List RepoFormat) : List Char := Csv.text (inventoryRecords headerOfNone repos)

/-! ### Writing -/

/-- An output that may fail. -/
abbrev Output : Type := Bufio.Sink CronError Char

/-- `WriteTo`, with the error that it returns.

Source: `cron/data/writer.go`, lines 26–35. -/
def writeTo (out : Output) (repos : List RepoFormat) : Option CronError × Output :=
  let csvWriter := Csv.writeAll (Bufio.Writer.new out) (inventoryRecords headerOfNone repos)
  match csvWriter.err with
  | some err => (some (.wrapf "error during Encode" err), csvWriter.sink)
  | none => (none, csvWriter.flush.sink)

/-- `sort.SliceStable` by the URL. -/
def sortedByRepo (repos : List RepoFormat) : List RepoFormat :=
  repos.mergeSort fun r r' => !decide (r'.repo < r.repo)

theorem sortedByRepo_perm (repos : List RepoFormat) : (sortedByRepo repos).Perm repos :=
  List.mergeSort_perm repos _

theorem le_iff_not_lt {r r' : RepoFormat} :
    (!decide (r'.repo < r.repo)) = true ↔ r.repo ≤ r'.repo := by
  rw [Bool.not_eq_true', decide_eq_false_iff_not, String.not_lt]

/-- The rows are in the order of their URLs. -/
theorem sortedByRepo_pairwise (repos : List RepoFormat) :
    (sortedByRepo repos).Pairwise fun r r' => r.repo ≤ r'.repo := by
  refine (List.pairwise_mergeSort (fun a b c hab hbc => ?_) (fun a b => ?_) repos).imp
    fun h => le_iff_not_lt.mp h
  · exact le_iff_not_lt.mpr (String.le_trans (le_iff_not_lt.mp hab) (le_iff_not_lt.mp hbc))
  · rw [Bool.or_eq_true, le_iff_not_lt, le_iff_not_lt]
    exact String.le_total _ _

theorem sortedByRepo_of_pairwise {repos : List RepoFormat}
    (h : repos.Pairwise fun r r' => r.repo ≤ r'.repo) : sortedByRepo repos = repos :=
  List.mergeSort_of_pairwise (h.imp fun hle => le_iff_not_lt.mpr hle)

/-- **The sorted list** does not depend on the order of the rows if no two of them have one URL. -/
theorem sortedByRepo_eq {repos repos' : List RepoFormat} (hperm : repos.Perm repos')
    (h : (repos.map RepoFormat.repo).Nodup) : sortedByRepo repos = sortedByRepo repos' := by
  have hsorted : (sortedByRepo repos).Perm (sortedByRepo repos') :=
    (sortedByRepo_perm repos).trans (hperm.trans (sortedByRepo_perm repos').symm)
  refine hsorted.eq_of_pairwise (fun a b ha hb hab hba => ?_) (sortedByRepo_pairwise repos)
    (sortedByRepo_pairwise repos')
  have ha := (sortedByRepo_perm repos).mem_iff.mp ha
  have hb := hperm.mem_iff.mpr ((sortedByRepo_perm repos').mem_iff.mp hb)
  exact List.inj_on_of_nodup_map h ha hb (String.le_antisymm hab hba)

/-- `SortAndAppendTo`.

Source: `cron/data/writer.go`, lines 37–45. -/
def sortAndAppendTo (out : Output) (oldRepos newRepos : List RepoFormat) :
    Option CronError × Output :=
  writeTo headerOfNone out (sortedByRepo (oldRepos ++ newRepos))

/-! ### What is written -/

/-- How much of the encoding is handed on before the flush. -/
def writtenBeforeFlush (stringWriter : Bool) (repos : List RepoFormat) : Nat :=
  Bufio.handedOn Csv.defaultBufSize stringWriter
    (Csv.lengths (inventoryRecords headerOfNone repos))

variable {headerOfNone} {out : Output}

theorem holds_csvWriter (hout : out.accepted = []) (repos : List RepoFormat) :
    Bufio.Holds Csv.defaultBufSize out (encoding headerOfNone repos)
      (Bufio.kept Csv.defaultBufSize out.stringWriter
        (Csv.lengths (inventoryRecords headerOfNone repos)))
      (Csv.writeAll (Bufio.Writer.new out) (inventoryRecords headerOfNone repos)) :=
  Csv.holds_writeAll (Bufio.Holds.new Csv.defaultBufSize out hout) _

theorem writtenBeforeFlush_eq (stringWriter : Bool) (repos : List RepoFormat) :
    writtenBeforeFlush headerOfNone stringWriter repos = (encoding headerOfNone repos).length -
      Bufio.kept Csv.defaultBufSize stringWriter
        (Csv.lengths (inventoryRecords headerOfNone repos)) := by
  rw [writtenBeforeFlush, Bufio.handedOn, Csv.sum_lengths]
  rfl

/-- **When nil is returned**: there is room for what is handed on before the flush. -/
theorem writeTo_eq_nil_iff (hout : out.accepted = []) (repos : List RepoFormat) :
    (writeTo headerOfNone out repos).1 = none ↔
      out.hasRoom (writtenBeforeFlush headerOfNone out.stringWriter repos) = true := by
  have h : Bufio.Holds _ _ (encoding headerOfNone repos) _ _ := holds_csvWriter hout repos
  rw [writtenBeforeFlush_eq, ← h.err_eq_none_iff, writeTo]
  split
  · rename_i err herr
    simp [herr]
  · rename_i herr
    simp [herr]

/-- **What the output accepts**: as much of the encoding as it has room for. -/
theorem accepted_writeTo (hout : out.accepted = []) {repos : List RepoFormat}
    (hnil : (writeTo headerOfNone out repos).1 = none) :
    (writeTo headerOfNone out repos).2.accepted = out.cut (encoding headerOfNone repos) := by
  have h : Bufio.Holds _ _ (encoding headerOfNone repos) _ _ := holds_csvWriter hout repos
  rw [writeTo] at hnil ⊢
  split at hnil
  · cases hnil
  · exact h.flush.accepted_eq

/-- A `bytes.Buffer`, which never fails. -/
def buffer : Output := .new none true ioEOF

theorem writeTo_buffer (headerOfNone : Bool) (repos : List RepoFormat) :
    (writeTo headerOfNone buffer repos).1 = none ∧
      (writeTo headerOfNone buffer repos).2.accepted = encoding headerOfNone repos := by
  have hnil : (writeTo headerOfNone buffer repos).1 = none :=
    (writeTo_eq_nil_iff rfl repos).mpr rfl
  exact ⟨hnil, accepted_writeTo rfl hnil⟩

/-- Full buffers are handed on before the flush, unless a field is longer than the buffer. -/
theorem writtenBeforeFlush_of_short {stringWriter : Bool} {repos : List RepoFormat}
    (h : stringWriter = false ∨
      ∀ n ∈ Csv.lengths (inventoryRecords headerOfNone repos), n ≤ Csv.defaultBufSize) :
    writtenBeforeFlush headerOfNone stringWriter repos =
      4096 * (((encoding headerOfNone repos).length - 1) / 4096) := by
  rw [writtenBeforeFlush, Bufio.handedOn_eq h, Csv.sum_lengths]
  rfl

/-- An inventory that fits the buffer is not handed on before the flush: no failure is reported. -/
theorem writeTo_of_length_le (hout : out.accepted = []) {repos : List RepoFormat}
    (h : (encoding headerOfNone repos).length ≤ 4096) :
    (writeTo headerOfNone out repos).1 = none := by
  rw [writeTo_eq_nil_iff hout, writtenBeforeFlush_of_short, Nat.div_eq_of_lt (by omega)]
  · cases hcapacity : out.capacity <;> simp [Bufio.Sink.hasRoom, hcapacity]
  · refine Or.inr fun n hn => (List.le_sum_of_mem hn).trans ?_
    rw [Csv.sum_lengths]
    exact h

/-! ### Reporting short output -/

/-- Nil is returned only if the output has accepted the encoding of the rows. -/
def Reports (headerOfNone : Bool) (rows : List RepoFormat)
    (result : Option CronError × Output) : Prop :=
  result.1 = none → result.2.accepted = encoding headerOfNone rows

theorem reports_writeTo_iff (hout : out.accepted = []) (repos : List RepoFormat) :
    Reports headerOfNone repos (writeTo headerOfNone out repos) ↔
      out.hasRoom (encoding headerOfNone repos).length = true ∨
        out.hasRoom (writtenBeforeFlush headerOfNone out.stringWriter repos) = false := by
  have hnil : (writeTo headerOfNone out repos).1 = none ↔ _ := writeTo_eq_nil_iff hout repos
  constructor
  · intro h
    by_cases hwritten : (writeTo headerOfNone out repos).1 = none
    · have haccepted := (accepted_writeTo hout hwritten).symm.trans (h hwritten)
      exact Or.inl (Bufio.Sink.cut_eq_self_iff.mp haccepted)
    · exact Or.inr (Bool.eq_false_iff.mpr fun hroom => hwritten (hnil.mpr hroom))
  · rintro (hroom | hwritten) hresult
    · rw [accepted_writeTo hout hresult, Bufio.Sink.cut_eq_self_iff.mpr hroom]
    · exact absurd (hnil.mp hresult) (Bool.eq_false_iff.mp hwritten)

/-- **Short output.** An output that accepts `n` bytes and then fails is reported if and only if it
accepts the whole encoding, or fails before the flush. -/
theorem reports_iff (headerOfNone : Bool) (n : Nat) (stringWriter : Bool) (fault : CronError) :
    (∀ repos, Reports headerOfNone repos
      (writeTo headerOfNone (.new (some n) stringWriter fault) repos) ↔
        (encoding headerOfNone repos).length ≤ n ∨
          n < writtenBeforeFlush headerOfNone stringWriter repos) ∧
    (∀ oldRepos newRepos, Reports headerOfNone (sortedByRepo (oldRepos ++ newRepos))
      (sortAndAppendTo headerOfNone (.new (some n) stringWriter fault) oldRepos newRepos) ↔
        (encoding headerOfNone (sortedByRepo (oldRepos ++ newRepos))).length ≤ n ∨
          n < writtenBeforeFlush headerOfNone stringWriter
            (sortedByRepo (oldRepos ++ newRepos))) := by
  have hwrite : ∀ repos, Reports headerOfNone repos
      (writeTo headerOfNone (.new (some n) stringWriter fault) repos) ↔
        (encoding headerOfNone repos).length ≤ n ∨
          n < writtenBeforeFlush headerOfNone stringWriter repos := by
    intro repos
    rw [reports_writeTo_iff rfl, Bufio.Sink.hasRoom_new_some, Bufio.Sink.hasRoom_new_some,
      decide_eq_true_eq, decide_eq_false_iff_not, Nat.not_le]
    rfl
  exact ⟨hwrite, fun oldRepos newRepos => hwrite (sortedByRepo (oldRepos ++ newRepos))⟩

/-- An inventory of one repository. -/
def oneRepo : List RepoFormat := [⟨"github.com/owner1/repo1", ["meta1"]⟩]

/-- A full disk. -/
def fullDisk : Output := .new (some 0) true (.text "no space left on device")

/-- **A full disk** accepts nothing, and nil is returned. -/
theorem not_reports_full : ¬Reports false oneRepo (writeTo false fullDisk oneRepo) := by
  intro h
  have hlength : (encoding false oneRepo).length ≤ 4096 := by decide +kernel
  have hnil : (writeTo false fullDisk oneRepo).1 = none := writeTo_of_length_le rfl hlength
  have haccepted := (accepted_writeTo rfl hnil).symm.trans (h hnil)
  exact absurd haccepted (by decide +kernel)

end Write

end ScorecardInfra.Cron
