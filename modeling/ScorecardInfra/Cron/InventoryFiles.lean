import ScorecardInfra.Cron.Inventory
import ScorecardInfra.GoStd.Files
import ScorecardInfra.GoStd.Slices

/-!
# The files of the inventory tools

The add tool and the shuffle tool open their output without truncating it. So the file holds what
they write and nothing else only if it was not longer before (`leavesExactly_iff`). The shuffle tool
selects its rows by a slice expression, which may reach past the rows into the array behind them.

## Main definitions

* `FileSystem`, `Tool`, `openRead`, `openWrite`, `writeOut`.
* `AddTool.main`, `ShuffleTool`, `ShuffleTool.main`.
* `AddTool.LeavesExactly`, `ShuffleTool.LeavesExactly`, `Completes`.

## Main results

* `AddTool.main_eq_ok`, `ShuffleTool.main_eq_ok`: what the tools leave.
* `leavesExactly_iff`.

Source: `cron/internal/data/add/main.go`, `cron/internal/shuffle/main.go`.
-/

namespace ScorecardInfra.Cron

open GoStd Interaction

/-! ### Files -/

/-- The files that a tool meets: what they hold, which of them cannot be opened, and how many bytes
an open file takes before it fails. -/
structure FileSystem where
  files : String → Option (List Char)
  openErr : String → Option CronError
  room : Option Nat
  fault : CronError

namespace FileSystem

variable (fs : FileSystem)

/-- What a file holds, if it is there. -/
def prior (path : String) : List Char := (fs.files path).getD []

/-- A file that has been opened for writing. -/
def output : Output := .new fs.room true fs.fault

/-- The files after the bytes have been written to one of them from its beginning on. -/
def overwrite (path : String) (written : List Char) : FileSystem :=
  { fs with
    files := Function.update fs.files path
      (some ((File.openFile (fs.files path)).write written).content) }

end FileSystem

/-- A tool changes files. It ends, or panics with an error or a text. -/
abbrev Tool (α : Type) : Type := Fallible CronError (StateM FileSystem) α

/-- A run of a tool. -/
def Tool.exec {α : Type} (x : Tool α) (fs : FileSystem) : Except (Stop CronError) α × FileSystem :=
  x.run.run fs

/-- A step that depends on the files, with its outcome and the files after it. -/
def Tool.step {α : Type} (f : FileSystem → Except (Stop CronError) α × FileSystem) : Tool α :=
  ExceptT.mk f

/-- `os.OpenFile` with `O_RDONLY`, and what the file holds. -/
def openRead (path : String) : Tool (List Char) := .step fun fs =>
  match fs.openErr path, fs.files path with
  | some err, _ => (.error (.error err), fs)
  | none, none => (.error (.error (.text ("open " ++ path ++ ": no such file or directory"))), fs)
  | none, some file => (.ok file, fs)

/-- `os.OpenFile` with `O_WRONLY|O_CREATE`. -/
def openWrite (path : String) : Tool Unit := .step fun fs =>
  match fs.openErr path with
  | some err => (.error (.error err), fs)
  | none => (.ok (), fs.overwrite path [])

/-- Writing to an open file, and a panic with the error that is returned. -/
def writeOut (path : String) (write : Output → Option CronError × Output) : Tool Unit :=
  .step fun fs =>
    match write fs.output with
    | (some err, out) => (.error (.error err), fs.overwrite path out.accepted)
    | (none, out) => (.ok (), fs.overwrite path out.accepted)

/-! ### The tools -/

/-- `main` of the add tool.

Source: `cron/internal/data/add/main.go`, lines 36–67. -/
def AddTool.main (tool : AddTool) (order : (n : Nat) → GoMap.Order n) : List String → Tool Unit
  | [_, inPath, outPath] => do
    let inFile ← openRead inPath
    let buf ← ofOutcome (tool.addProjects inFile order)
    openWrite outPath
    writeOut outPath fun projects => projects.write buf
  | _ => crash "must provide 2 arguments"

/-- The zero value of a row. -/
def zeroRow : RepoFormat := ⟨"", []⟩

/-- What the shuffle tool calls: the checks of a URL, what the reader of `encoding/csv` makes of a
file, whether `csvutil` writes the header for an empty list, how far `append` makes room, and the
random numbers. -/
structure ShuffleTool where
  makers : RepoMakers
  read : List Char → List (Except String (List String))
  headerOfNone : Bool
  grow : Nat → Nat
  draw : (i : Nat) → Fin (i + 1)

namespace ShuffleTool

variable (tool : ShuffleTool)

/-- What the iterator over a file returns. -/
def iterate (file : List Char) : List (Except CronError RepoFormat) :=
  (CsvIterator.new ((tool.read file).map CsvRow.ofRecord)).drain tool.makers

/-- `strconv.Atoi`, and a panic with its error, of which the reason is left out. -/
def parseNum (num : String) : Except (Stop CronError) Int :=
  match atoi num with
  | none => .error (.error (.text ("strconv.Atoi: parsing " ++ num)))
  | some n => .ok n

/-- The loop over what the iterator returns. -/
def collect : List (Except CronError RepoFormat) → Slice RepoFormat →
    Except (Stop CronError) (Slice RepoFormat)
  | [], repoURLs => .ok repoURLs
  | .error err :: _, _ => .error (.error err)
  | .ok repo :: iter, repoURLs => collect iter (repoURLs.append tool.grow zeroRow repo)

/-- `rand.Shuffle` of the rows. -/
def permuted (rows : List RepoFormat) : List RepoFormat :=
  shuffle tool.draw rows.length (fun i j rows => rows.swap i j) rows

/-- The slice after `rand.Shuffle`. -/
def shuffled (repoURLs : Slice RepoFormat) : Slice RepoFormat :=
  { repoURLs with elems := tool.permuted repoURLs.elems }

/-- `repoURLs`, after the loop. -/
def repoURLs (repos : List RepoFormat) : Slice RepoFormat :=
  repos.foldl (Slice.append tool.grow zeroRow) Slice.empty

/-- The rows after `rand.Shuffle`, and what the array holds after them. -/
def array (repos : List RepoFormat) : List RepoFormat :=
  tool.permuted repos ++ (tool.repoURLs repos).spare

/-- `repoURLs[:n]`. -/
def firstRows (repoURLs : Slice RepoFormat) (n : Int) : Except (Stop CronError) (List RepoFormat) :=
  match repoURLs.upTo n with
  | none => .error (.panic "slice bounds out of range")
  | some rows => .ok rows

/-- `main` of the shuffle tool.

Source: `cron/internal/shuffle/main.go`, lines 26–64. -/
def main : List String → Tool Unit
  | [_, num, inPath, outPath] => do
    let n ← ofOutcome (parseNum num)
    let inFile ← openRead inPath
    openWrite outPath
    let repoURLs ← ofOutcome (tool.collect (tool.iterate inFile) Slice.empty)
    let selected ← ofOutcome (firstRows (tool.shuffled repoURLs) n)
    writeOut outPath fun outFile => writeTo tool.headerOfNone outFile selected
  | _ => crash "must provide exactly 3 arguments"

end ShuffleTool

/-! ### Runs that end -/

namespace Tool

variable {α β : Type} {fs fs' : FileSystem}

/-- **A sequence** ends if both parts do, one after the other. -/
theorem bind_eq_ok {x : Tool α} {f : α → Tool β} {b : β} : (x >>= f).exec fs = (.ok b, fs') ↔
    ∃ a fs₁, x.exec fs = (.ok a, fs₁) ∧ (f a).exec fs₁ = (.ok b, fs') := by
  have hbind : (x >>= f).exec fs = match x.exec fs with
      | (.ok a, fs₁) => (f a).exec fs₁
      | (.error stop, fs₁) => (.error stop, fs₁) := by
    change (ExceptT.bindCont (fun a => f a) (x.exec fs).1).run (x.exec fs).2 = _
    rcases x.exec fs with ⟨stop | a, fs₁⟩ <;> rfl
  rw [hbind]
  rcases x.exec fs with ⟨stop | a, fs₁⟩
  · simp
  · simp

theorem exec_step (f : FileSystem → Except (Stop CronError) α × FileSystem) (fs : FileSystem) :
    (step f).exec fs = f fs := rfl

theorem ofOutcome_eq_ok {r : Except (Stop CronError) α} {a : α}
    (h : exec (ofOutcome r) fs = (.ok a, fs')) : r = .ok a ∧ fs' = fs :=
  ⟨(Prod.mk.inj h).1, (Prod.mk.inj h).2.symm⟩

end Tool

section Ends

variable {fs fs' : FileSystem} {path : String}

theorem openRead_eq_ok {file : List Char} (h : (openRead path).exec fs = (.ok file, fs')) :
    fs.files path = some file ∧ fs' = fs := by
  rw [openRead, Tool.exec_step] at h
  split at h
  · cases h
  · cases h
  · rename_i file' _ hfile
    obtain ⟨hok, rfl⟩ := Prod.mk.inj h
    obtain rfl := Except.ok.inj hok
    exact ⟨hfile, rfl⟩

theorem openWrite_eq_ok {u : Unit} (h : (openWrite path).exec fs = (.ok u, fs')) :
    fs' = fs.overwrite path [] := by
  rw [openWrite, Tool.exec_step] at h
  split at h
  · cases h
  · exact (Prod.mk.inj h).2.symm

theorem writeOut_eq_ok {write : Output → Option CronError × Output} {u : Unit}
    (h : (writeOut path write).exec fs = (.ok u, fs')) :
    (write fs.output).1 = none ∧ fs' = fs.overwrite path (write fs.output).2.accepted := by
  rw [writeOut, Tool.exec_step] at h
  split at h
  · cases h
  · rename_i out hwrite
    rw [hwrite]
    exact ⟨rfl, (Prod.mk.inj h).2.symm⟩

theorem exec_openRead {file : List Char} (hopen : fs.openErr path = none)
    (hfile : fs.files path = some file) : (openRead path).exec fs = (.ok file, fs) := by
  rw [openRead, Tool.exec_step]
  simp only [hopen, hfile]

theorem exec_openWrite (hopen : fs.openErr path = none) :
    (openWrite path).exec fs = (.ok (), fs.overwrite path []) := by
  rw [openWrite, Tool.exec_step]
  simp only [hopen]

theorem exec_writeOut {write : Output → Option CronError × Output}
    (h : (write fs.output).1 = none) : (writeOut path write).exec fs =
      (.ok (), fs.overwrite path (write fs.output).2.accepted) := by
  rw [writeOut, Tool.exec_step]
  split
  · rename_i err out hwrite
    rw [hwrite] at h
    cases h
  · rename_i out hwrite
    rw [hwrite]

/-- Opening a file for writing leaves what it holds. -/
theorem overwrite_overwrite_nil (path : String) (written : List Char) :
    (fs.overwrite path []).overwrite path written = fs.overwrite path written := by
  simp only [FileSystem.overwrite, Function.update_self, Function.update_idem,
    File.content_write_openFile, List.nil_append, List.length_nil, List.drop_zero,
    Option.getD_some]

theorem output_overwrite (path : String) (written : List Char) :
    (fs.overwrite path written).output = fs.output := rfl

theorem files_overwrite_self (path : String) (written : List Char) :
    (fs.overwrite path written).files path =
      some ((File.openFile (fs.files path)).write written).content := Function.update_self ..

end Ends

/-- A text that is written without an error is written as a whole. -/
theorem accepted_write {out : Output} {s : List Char} (hout : out.accepted = [])
    (h : (out.write s).1 = none) : (out.write s).2.accepted = s := by
  by_cases hroom : out.hasRoom ([] ++ s).length = true
  · rw [Bufio.Sink.write_of_hasRoom hroom hout]
    rfl
  · rw [Bufio.Sink.write_of_not_hasRoom (Bool.eq_false_iff.mpr hroom) hout] at h
    cases h

/-- **The add tool** writes the whole encoding of the sorted rows over what the file held. -/
theorem AddTool.main_eq_ok {tool : AddTool} {order : (n : Nat) → GoMap.Order n}
    {fs fs' : FileSystem} {name inPath outPath : String}
    (h : (tool.main order [name, inPath, outPath]).exec fs = (.ok (), fs')) :
    ∃ file repos rows, fs.files inPath = some file ∧ tool.iterate file = repos.map .ok ∧
      MergedRows tool.rowKey repos rows ∧
      fs' = fs.overwrite outPath (encoding tool.headerOfNone (sortedByRepo rows)) := by
  obtain ⟨file, fs₁, hread, h₁⟩ := Tool.bind_eq_ok.mp h
  obtain ⟨hfile, rfl⟩ := openRead_eq_ok hread
  obtain ⟨buf, fs₂, hbuf, h₂⟩ := Tool.bind_eq_ok.mp h₁
  obtain ⟨hadd, rfl⟩ := Tool.ofOutcome_eq_ok hbuf
  obtain ⟨⟨⟩, fs₃, hopen, h₃⟩ := Tool.bind_eq_ok.mp h₂
  obtain rfl := openWrite_eq_ok hopen
  obtain ⟨hnone, rfl⟩ := writeOut_eq_ok h₃
  rw [AddTool.addProjects_eq] at hadd
  cases hrows : tool.getRepoURLs (tool.iterate file) order with
  | error stop =>
    rw [hrows] at hadd
    cases hadd
  | ok rows =>
    rw [hrows] at hadd
    obtain rfl := Except.ok.inj hadd
    obtain ⟨repos, hiter, -, hmerged⟩ := AddTool.getRepoURLs_eq_ok hrows
    refine ⟨file, repos, rows, hfile, hiter, hmerged, ?_⟩
    rw [overwrite_overwrite_nil, accepted_write rfl hnone]

theorem ShuffleTool.collect_eq_ok {tool : ShuffleTool}
    {iter : List (Except CronError RepoFormat)} {s s' : Slice RepoFormat}
    (h : tool.collect iter s = .ok s') : ∃ repos : List RepoFormat, iter = repos.map .ok ∧
      s' = repos.foldl (Slice.append tool.grow zeroRow) s := by
  induction iter generalizing s with
  | nil => exact ⟨[], rfl, (Except.ok.inj h).symm⟩
  | cons next iter ih =>
    cases next with
    | error err => cases h
    | ok repo =>
      obtain ⟨repos, rfl, hs'⟩ := ih h
      exact ⟨repo :: repos, rfl, hs'⟩

theorem ShuffleTool.parseNum_eq_ok {num : String} {n : Int} (h : parseNum num = .ok n) :
    atoi num = some n := by
  unfold parseNum at h
  split at h
  · cases h
  · rename_i n' hn
    rw [hn, Except.ok.inj h]

theorem ShuffleTool.firstRows_eq_ok {s : Slice RepoFormat} {n : Int} {rows : List RepoFormat}
    (h : firstRows s n = .ok rows) : 0 ≤ n ∧ n ≤ (s.elems ++ s.spare).length ∧
      rows = (s.elems ++ s.spare).take n.toNat := by
  unfold firstRows Slice.upTo at h
  split_ifs at h with hn
  exact ⟨hn.1, hn.2, (Except.ok.inj h).symm⟩

theorem ShuffleTool.firstRows_eq_of_le {s : Slice RepoFormat} {n : Nat}
    (h : n ≤ s.elems.length) : firstRows s n = .ok (s.elems.take n) := by
  have hupTo : s.upTo n = some (s.elems.take n) := by
    have hle : (n : Int) ≤ (s.elems ++ s.spare).length := by
      rw [List.length_append]
      omega
    rw [Slice.upTo, if_pos ⟨Int.natCast_nonneg n, hle⟩, ← List.take_append_of_le_length h]
    rfl
  rw [firstRows, hupTo]

theorem ShuffleTool.collect_map_ok (tool : ShuffleTool) (repos : List RepoFormat)
    (s : Slice RepoFormat) : tool.collect (repos.map .ok) s =
      .ok (repos.foldl (Slice.append tool.grow zeroRow) s) := by
  induction repos generalizing s with
  | nil => rfl
  | cons repo repos ih => exact ih _

/-- The rows after `rand.Shuffle`. -/
theorem ShuffleTool.elems_shuffled (tool : ShuffleTool) (repos : List RepoFormat) :
    (tool.shuffled (tool.repoURLs repos)).elems = tool.permuted repos :=
  congrArg tool.permuted (Slice.elems_foldl_append tool.grow zeroRow repos Slice.empty)

theorem ShuffleTool.length_permuted (tool : ShuffleTool) (repos : List RepoFormat) :
    (tool.permuted repos).length = repos.length :=
  (shuffle_swap_perm tool.draw _ repos).length_eq

/-- **The shuffle tool** writes the encoding of some rows over what the file held, as far as the
file takes it. The rows are the first ones of a permutation, and of what the array holds after
it. -/
theorem ShuffleTool.main_eq_ok {tool : ShuffleTool} {fs fs' : FileSystem}
    {name num inPath outPath : String}
    (h : (tool.main [name, num, inPath, outPath]).exec fs = (.ok (), fs')) :
    ∃ n file repos, atoi num = some n ∧ fs.files inPath = some file ∧
      tool.iterate file = repos.map .ok ∧ 0 ≤ n ∧ n ≤ (tool.array repos).length ∧
      fs' = fs.overwrite outPath (fs.output.cut
        (encoding tool.headerOfNone ((tool.array repos).take n.toNat))) := by
  obtain ⟨n, fs₀, hnum, h₁⟩ := Tool.bind_eq_ok.mp h
  obtain ⟨hatoi, rfl⟩ := Tool.ofOutcome_eq_ok hnum
  obtain ⟨file, fs₁, hread, h₂⟩ := Tool.bind_eq_ok.mp h₁
  obtain ⟨hfile, rfl⟩ := openRead_eq_ok hread
  obtain ⟨⟨⟩, fs₂, hopen, h₃⟩ := Tool.bind_eq_ok.mp h₂
  obtain rfl := openWrite_eq_ok hopen
  obtain ⟨repoURLs, fs₃, hrows, h₄⟩ := Tool.bind_eq_ok.mp h₃
  obtain ⟨hcollect, rfl⟩ := Tool.ofOutcome_eq_ok hrows
  obtain ⟨selected, fs₄, hselect, h₅⟩ := Tool.bind_eq_ok.mp h₄
  obtain ⟨hselected, rfl⟩ := Tool.ofOutcome_eq_ok hselect
  obtain ⟨hnone, rfl⟩ := writeOut_eq_ok h₅
  obtain ⟨repos, hiter, hslice⟩ := ShuffleTool.collect_eq_ok hcollect
  obtain rfl : repoURLs = tool.repoURLs repos := hslice
  rw [overwrite_overwrite_nil, accepted_writeTo rfl hnone]
  obtain ⟨hn, hle, rfl⟩ := firstRows_eq_ok hselected
  rw [elems_shuffled] at hle ⊢
  exact ⟨n, file, repos, parseNum_eq_ok hatoi, hfile, hiter, hn, hle, rfl⟩

/-! ### Encodings -/

section Encodings

variable {headerOfNone : Bool} {rows rows' : List RepoFormat}

/-- The encoding has its header. -/
theorem encoding_eq_of_header (h : headerOfNone = true ∨ rows ≠ []) :
    encoding headerOfNone rows = encoding true rows := by
  have hheader : ¬(rows = [] ∧ headerOfNone = false) := by
    rintro ⟨hrows, hnone⟩
    exact h.elim (fun htrue => by simp [htrue] at hnone) fun hne => hne hrows
  rw [encoding, encoding, inventoryRecords, inventoryRecords, if_neg hheader, if_neg (by simp)]

theorem encoding_nil_of_not_header (h : ¬(headerOfNone = true ∨ rows ≠ [])) :
    encoding headerOfNone rows = [] ∧ rows = [] := by
  rw [not_or, not_not, Bool.not_eq_true] at h
  obtain ⟨rfl, rfl⟩ := h
  exact ⟨rfl, rfl⟩

theorem encoding_true (rows : List RepoFormat) : encoding true rows =
    Csv.recordText csvHeader ++ Csv.text (rows.map RepoFormat.record) := by
  rw [encoding, inventoryRecords, if_neg (by simp)]
  rfl

theorem encoding_append (rows rows' : List RepoFormat) :
    encoding true (rows ++ rows') =
      encoding true rows ++ Csv.text (rows'.map RepoFormat.record) := by
  rw [encoding_true, encoding_true, List.map_append, Csv.text, List.flatMap_append,
    List.append_assoc]
  rfl

/-- The length of the encoding does not depend on the order of the rows. -/
theorem length_encoding_perm (h : rows.Perm rows') :
    (encoding true rows).length = (encoding true rows').length := by
  have hrows : (Csv.text (rows.map RepoFormat.record)).Perm
      (Csv.text (rows'.map RepoFormat.record)) := (h.map _).flatMap_right _
  rw [encoding_true, encoding_true, List.length_append, List.length_append, hrows.length_eq]

/-- Further rows have a text. -/
theorem length_encoding_lt (rows : List RepoFormat) {rows' : List RepoFormat} (h : rows' ≠ []) :
    (encoding true rows).length < (encoding true (rows ++ rows')).length := by
  obtain ⟨r, rs, rfl⟩ := List.exists_cons_of_ne_nil h
  rw [encoding_append, List.length_append, List.map_cons, Csv.text_cons, List.length_append,
    Csv.recordText, List.length_append, List.length_singleton]
  omega

/-- As many rows have encodings of which none begins another. -/
theorem encoding_eq_of_prefix (hlen : rows.length = rows'.length)
    (h : encoding true rows <+: encoding true rows') : encoding true rows = encoding true rows' :=
  Csv.text_eq_of_prefix (by simp [inventoryRecords, hlen]) h

end Encodings

/-! ### Exact files -/

/-- The file holds the header and the sorted rows, one for each key, and nothing else. -/
def AddTool.LeavesExactly (tool : AddTool) (repos : List RepoFormat)
    (content : Option (List Char)) : Prop :=
  ∃ rows, MergedRows tool.rowKey repos rows ∧ content = some (encoding true (sortedByRepo rows))

/-- The previous content is not longer than the rows. If no header is written, which can only be
the case if there are no rows, the header must be what the file held. -/
def AddTool.Fits (tool : AddTool) (prior : List Char) (rows : List RepoFormat) : Prop :=
  if tool.headerOfNone = true ∨ rows ≠ [] then
    prior.length ≤ (encoding true (sortedByRepo rows)).length
  else prior = encoding true []

/-- The file holds the header and the first `n` rows of a permutation, and nothing else. -/
def LeavesFirst (n : Nat) (repos : List RepoFormat) (content : Option (List Char)) : Prop :=
  ∃ rows : List RepoFormat, rows.Perm repos ∧ content = some (encoding true (rows.take n))

/-- What is written begins `s`, and what the file held from there on is the rest of `s`. -/
def Completes (prior written s : List Char) : Prop :=
  written <+: s ∧ prior.drop written.length = s.drop written.length

/-- There are `n` rows, and the previous content is not longer than what is written. If the file
does not take all of that, or no header is written, what the file held must have been the rest. -/
def ShuffleTool.Fits (tool : ShuffleTool) (out : Output) (prior : List Char) (n : Nat)
    (repos : List RepoFormat) : Prop :=
  let selected := (tool.array repos).take n
  if out.hasRoom (encoding tool.headerOfNone selected).length = true ∧
      (tool.headerOfNone = true ∨ selected ≠ []) then
    n ≤ repos.length ∧ prior.length ≤ (encoding true selected).length
  else ∃ rows : List RepoFormat, rows.Perm repos ∧
    Completes prior (out.cut (encoding tool.headerOfNone selected)) (encoding true (rows.take n))

section Exact

variable {fs : FileSystem} {path : String} {repos rows : List RepoFormat}

theorem files_overwrite_eq_some_iff {written s : List Char} :
    (fs.overwrite path written).files path = some s ↔ Completes (fs.prior path) written s := by
  rw [files_overwrite_self, Option.some_inj, File.content_eq_iff]
  rfl

theorem files_overwrite_eq_self_iff {written : List Char} :
    (fs.overwrite path written).files path = some written ↔
      (fs.prior path).length ≤ written.length := by
  rw [files_overwrite_self, Option.some_inj, File.content_eq_self_iff]
  rfl

/-- **The rows of the add tool** over the previous content. -/
theorem AddTool.leavesExactly_overwrite_iff {tool : AddTool}
    (hrows : MergedRows tool.rowKey repos rows) :
    tool.LeavesExactly repos ((fs.overwrite path
      (encoding tool.headerOfNone (sortedByRepo rows))).files path) ↔
        tool.Fits (fs.prior path) rows := by
  have hsorted : tool.LeavesExactly repos ((fs.overwrite path
      (encoding tool.headerOfNone (sortedByRepo rows))).files path) ↔
        (fs.overwrite path (encoding tool.headerOfNone (sortedByRepo rows))).files path =
          some (encoding true (sortedByRepo rows)) := by
    constructor
    · rintro ⟨rows', hrows', h⟩
      rw [h, sortedByRepo_eq (hrows'.perm hrows) (AddTool.nodup_repo hrows')]
    · exact fun h => ⟨rows, hrows, h⟩
  have hne : rows ≠ [] ↔ sortedByRepo rows ≠ [] := by
    rw [← List.length_pos_iff, ← List.length_pos_iff, (sortedByRepo_perm rows).length_eq]
  rw [hsorted, AddTool.Fits]
  split_ifs with hheader
  · rw [encoding_eq_of_header (hheader.imp_right hne.mp), files_overwrite_eq_self_iff]
  · obtain ⟨hnil, hnone⟩ := encoding_nil_of_not_header (mt (Or.imp_right hne.mpr) hheader)
    rw [hnil, hnone, files_overwrite_eq_some_iff]
    exact and_iff_right List.nil_prefix

/-- **The rows of the shuffle tool** over the previous content. -/
theorem ShuffleTool.leavesFirst_overwrite_iff {tool : ShuffleTool} {n : Nat}
    (hle : n ≤ (tool.array repos).length) :
    LeavesFirst n repos ((fs.overwrite path (fs.output.cut
      (encoding tool.headerOfNone ((tool.array repos).take n)))).files path) ↔
        tool.Fits fs.output (fs.prior path) n repos := by
  have hperm : (tool.permuted repos).Perm repos := shuffle_swap_perm tool.draw _ repos
  rw [LeavesFirst, ShuffleTool.Fits]
  split_ifs with htakes
  · rw [Bufio.Sink.cut_eq_self_iff.mpr htakes.1, encoding_eq_of_header htakes.2]
    constructor
    · rintro ⟨rows, hrows, h⟩
      obtain ⟨hbegins, -⟩ := files_overwrite_eq_some_iff.mp h
      -- rows after the permutation would make the output longer than the rows of any other
      have hn : n ≤ repos.length := by
        by_contra hlt
        rw [not_le] at hlt
        rw [array] at hle hbegins
        have hspare : (tool.repoURLs repos).spare.take (n - (tool.permuted repos).length) ≠ [] := by
          rw [← List.length_pos_iff, List.length_take]
          rw [List.length_append] at hle
          have hlength := tool.length_permuted repos
          omega
        have hlonger := length_encoding_lt (tool.permuted repos) hspare
        rw [List.take_append, List.take_of_length_le ((tool.length_permuted repos).trans_le hlt.le),
          List.take_of_length_le (hrows.length_eq.trans_le hlt.le)] at hbegins
        rw [length_encoding_perm (hperm.trans hrows.symm)] at hlonger
        exact absurd hbegins.length_le (not_le.mpr hlonger)
      have hlength : ((tool.array repos).take n).length = (rows.take n).length := by
        rw [List.length_take, List.length_take, hrows.length_eq, min_eq_left hle, min_eq_left hn]
      rw [← encoding_eq_of_prefix hlength hbegins] at h
      exact ⟨hn, files_overwrite_eq_self_iff.mp h⟩
    · rintro ⟨hn, hprior⟩
      have hselected : (tool.array repos).take n = (tool.permuted repos).take n :=
        List.take_append_of_le_length (hn.trans_eq (tool.length_permuted repos).symm)
      rw [hselected] at hprior ⊢
      exact ⟨tool.permuted repos, hperm, files_overwrite_eq_self_iff.mpr hprior⟩
  · exact exists_congr fun rows => and_congr_right fun _ => files_overwrite_eq_some_iff

end Exact

/-- **Exact files.** After a run of the add tool the file holds the header and the sorted rows, one
for each key, if and only if it was not longer before; after a run of the shuffle tool it holds the
header and the first rows of a permutation if and only if there are so many rows, too. -/
theorem leavesExactly_iff (add : AddTool) (order : (n : Nat) → GoMap.Order n) (shuf : ShuffleTool)
    (fs : FileSystem) (name inPath outPath : String) :
    (∀ fs', (add.main order [name, inPath, outPath]).exec fs = (.ok (), fs') →
      ∃ file repos rows, fs.files inPath = some file ∧ add.iterate file = repos.map .ok ∧
        MergedRows add.rowKey repos rows ∧
        (add.LeavesExactly repos (fs'.files outPath) ↔ add.Fits (fs.prior outPath) rows)) ∧
    (∀ num fs', (shuf.main [name, num, inPath, outPath]).exec fs = (.ok (), fs') →
      ∃ (n : Nat) (file : List Char) (repos : List RepoFormat), atoi num = some (n : Int) ∧
        fs.files inPath = some file ∧ shuf.iterate file = repos.map .ok ∧
        (LeavesFirst n repos (fs'.files outPath) ↔
          shuf.Fits fs.output (fs.prior outPath) n repos)) := by
  constructor
  · intro fs' h
    obtain ⟨file, repos, rows, hfile, hiter, hmerged, rfl⟩ := AddTool.main_eq_ok h
    exact ⟨file, repos, rows, hfile, hiter, hmerged, AddTool.leavesExactly_overwrite_iff hmerged⟩
  · intro num fs' h
    obtain ⟨n, file, repos, hnum, hfile, hiter, hn, hle, rfl⟩ := ShuffleTool.main_eq_ok h
    obtain ⟨n, rfl⟩ := Int.eq_ofNat_of_zero_le hn
    exact ⟨n, file, repos, hnum, hfile, hiter,
      ShuffleTool.leavesFirst_overwrite_iff (Int.ofNat_le.mp hle)⟩

/-! ### Small files -/

section Writable

variable {fs : FileSystem} {name inPath outPath : String} {file : List Char}
  (hfile : fs.files inPath = some file) (hopen : ∀ path, fs.openErr path = none)
  (hroom : fs.room = none)

include hroom in
theorem hasRoom_output (n : Nat) : fs.output.hasRoom n = true := by
  simp [FileSystem.output, Bufio.Sink.hasRoom, Bufio.Sink.new, hroom]

include hfile hopen hroom

/-- The add tool ends if its input is accepted and its files can be opened and written. -/
theorem AddTool.exec_main {tool : AddTool} {order : (n : Nat) → GoMap.Order n} {buf : List Char}
    (hadd : tool.addProjects file order = .ok buf) :
    (tool.main order [name, inPath, outPath]).exec fs = (.ok (), fs.overwrite outPath buf) := by
  have hwrite : fs.output.write buf = (none, { fs.output with accepted := buf }) :=
    Bufio.Sink.write_of_hasRoom (s := []) (hasRoom_output hroom _) rfl
  refine Tool.bind_eq_ok.mpr ⟨file, fs, exec_openRead (hopen inPath) hfile, ?_⟩
  refine Tool.bind_eq_ok.mpr ⟨buf, fs, congrArg (·, fs) hadd, ?_⟩
  refine Tool.bind_eq_ok.mpr ⟨(), fs.overwrite outPath [], exec_openWrite (hopen outPath), ?_⟩
  rw [exec_writeOut (congrArg Prod.fst hwrite), output_overwrite, hwrite, overwrite_overwrite_nil]

/-- The shuffle tool ends if there are so many rows, and its files can be opened and written. -/
theorem ShuffleTool.exec_main {tool : ShuffleTool} {num : String} {n : Nat}
    {repos : List RepoFormat} (hnum : atoi num = some (n : Int))
    (hiter : tool.iterate file = repos.map .ok) (hn : n ≤ repos.length) :
    (tool.main [name, num, inPath, outPath]).exec fs = (.ok (), fs.overwrite outPath
      (encoding tool.headerOfNone ((tool.permuted repos).take n))) := by
  have hparse : parseNum num = .ok (n : Int) := by rw [parseNum, hnum]
  have hcollect : tool.collect (tool.iterate file) Slice.empty =
      .ok (tool.repoURLs repos) := by
    rw [hiter, ShuffleTool.collect_map_ok]
    rfl
  have hfirst : firstRows (tool.shuffled (tool.repoURLs repos)) n =
      .ok ((tool.permuted repos).take n) := by
    have hle : n ≤ (tool.shuffled (tool.repoURLs repos)).elems.length := by
      rwa [ShuffleTool.elems_shuffled, ShuffleTool.length_permuted]
    rw [ShuffleTool.firstRows_eq_of_le hle, ShuffleTool.elems_shuffled]
  have hnone : (writeTo tool.headerOfNone fs.output ((tool.permuted repos).take n)).1 = none :=
    (writeTo_eq_nil_iff rfl _).mpr (hasRoom_output hroom _)
  refine Tool.bind_eq_ok.mpr ⟨n, fs, congrArg (·, fs) hparse, ?_⟩
  refine Tool.bind_eq_ok.mpr ⟨file, fs, exec_openRead (hopen inPath) hfile, ?_⟩
  refine Tool.bind_eq_ok.mpr ⟨(), fs.overwrite outPath [], exec_openWrite (hopen outPath), ?_⟩
  refine Tool.bind_eq_ok.mpr ⟨_, _, congrArg (·, _) hcollect, ?_⟩
  refine Tool.bind_eq_ok.mpr ⟨_, _, congrArg (·, _) hfirst, ?_⟩
  rw [exec_writeOut hnone, output_overwrite, accepted_writeTo rfl hnone,
    Bufio.Sink.cut_eq_self_iff.mpr (hasRoom_output hroom _), overwrite_overwrite_nil]

end Writable

/-- An inventory at `projects.csv`, and perhaps a file at `new.csv`. -/
def sampleFiles (prior : Option (List Char)) : FileSystem where
  files := fun path => if path = "projects.csv" then some sampleInventory
    else if path = "new.csv" then prior else none
  openErr := fun _ => none
  room := none
  fault := ioEOF

/-- A shuffle tool that swaps nothing. -/
def sampleShuffle : ShuffleTool where
  makers := sampleTool.makers
  read := sampleTool.read
  headerOfNone := true
  grow := fun n => n - 1
  draw := Fin.last

/-- The rows of the inventory. -/
def sampleRows : List RepoFormat :=
  [⟨"github.com/b/b", []⟩, ⟨"github.com/a/a", ["m"]⟩, ⟨"github.com/A/A", ["m"]⟩]

/-- Without a previous file the outputs are exact. -/
theorem leavesExactly_sampleInventory :
    (∃ fs repos, (sampleTool.main (fun n => .listed n) ["add", "projects.csv", "new.csv"]).exec
        (sampleFiles none) = (.ok (), fs) ∧
      sampleTool.iterate sampleInventory = repos.map .ok ∧
      sampleTool.LeavesExactly repos (fs.files "new.csv")) ∧
    (∃ fs, (sampleShuffle.main ["shuffle", "1", "projects.csv", "new.csv"]).exec
        (sampleFiles none) = (.ok (), fs) ∧ LeavesFirst 1 sampleRows (fs.files "new.csv")) := by
  have hfile : (sampleFiles none).files "projects.csv" = some sampleInventory := rfl
  constructor
  · have hrun : (sampleTool.main (fun n => .listed n) ["add", "projects.csv", "new.csv"]).exec
        (sampleFiles none) = _ :=
      AddTool.exec_main hfile (fun _ => rfl) rfl addProjects_sampleInventory
    obtain ⟨file, repos, rows, hfile', hiter, -, hexact⟩ :=
      (leavesExactly_iff _ _ sampleShuffle _ _ _ _).1 _ hrun
    obtain rfl := Option.some.inj (hfile.symm.trans hfile')
    have hheader : sampleTool.headerOfNone = true ∨ rows ≠ [] := Or.inl rfl
    refine ⟨_, repos, hrun, hiter, hexact.mpr ?_⟩
    rw [AddTool.Fits, if_pos hheader]
    exact Nat.zero_le _
  · have hnum : atoi "1" = some ((1 : Nat) : Int) := by decide +kernel
    have hiter : sampleShuffle.iterate sampleInventory = sampleRows.map .ok :=
      iterate_sampleInventory
    have hrun : (sampleShuffle.main ["shuffle", "1", "projects.csv", "new.csv"]).exec
        (sampleFiles none) = _ :=
      ShuffleTool.exec_main hfile (fun _ => rfl) rfl hnum hiter (by decide)
    obtain ⟨n, file, repos, hnum', hfile', hiter', hexact⟩ :=
      (leavesExactly_iff sampleTool (fun n => .listed n) _ _ _ _ _).2 _ _ hrun
    obtain rfl : 1 = n := Int.ofNat_inj.mp (Option.some.inj (hnum.symm.trans hnum'))
    obtain rfl := Option.some.inj (hfile.symm.trans hfile')
    obtain rfl : sampleRows = repos :=
      List.map_injective_iff.mpr (fun _ _ => Except.ok.inj) (hiter.symm.trans hiter')
    refine ⟨_, hrun, hexact.mpr ?_⟩
    rw [ShuffleTool.Fits, if_pos ⟨hasRoom_output rfl _, Or.inl rfl⟩]
    exact ⟨by decide, Nat.zero_le _⟩

/-- **A longer file** keeps its end. -/
theorem not_leavesExactly_longer :
    ¬((∀ (tool : AddTool) (order : (n : Nat) → GoMap.Order n) (fs fs' : FileSystem)
        (name inPath outPath : String) (file : List Char) (repos : List RepoFormat),
        (tool.main order [name, inPath, outPath]).exec fs = (.ok (), fs') →
        fs.files inPath = some file → tool.iterate file = repos.map .ok →
        tool.LeavesExactly repos (fs'.files outPath)) ∧
      (∀ (tool : ShuffleTool) (fs fs' : FileSystem) (name num inPath outPath : String) (n : Nat)
        (file : List Char) (repos : List RepoFormat),
        (tool.main [name, num, inPath, outPath]).exec fs = (.ok (), fs') →
        atoi num = some (n : Int) → fs.files inPath = some file →
        tool.iterate file = repos.map .ok → LeavesFirst n repos (fs'.files outPath))) := by
  rintro ⟨hadd, -⟩
  let fs := sampleFiles (some (encoding true sampleLeft ++ ['x']))
  have hfile : fs.files "projects.csv" = some sampleInventory := rfl
  have hrun : (sampleTool.main (fun n => .listed n) ["add", "projects.csv", "new.csv"]).exec fs =
      (.ok (), fs.overwrite "new.csv" (encoding true sampleLeft)) :=
    AddTool.exec_main hfile (fun _ => rfl) rfl addProjects_sampleInventory
  obtain ⟨repos, hiter, -, hmerged⟩ := AddTool.getRepoURLs_eq_ok getRepoURLs_sampleInventory
  have hleft : sortedByRepo sampleLeft = sampleLeft := sortedByRepo_sampleLeft
  have hexact := hadd _ _ _ _ _ _ _ _ _ hrun hfile hiter
  rw [← hleft] at hexact
  have hfits := (AddTool.leavesExactly_overwrite_iff hmerged).mp hexact
  have hheader : sampleTool.headerOfNone = true ∨ sampleLeft ≠ [] := Or.inl rfl
  rw [AddTool.Fits, if_pos hheader, hleft] at hfits
  have hprior : fs.prior "new.csv" = encoding true sampleLeft ++ ['x'] := rfl
  rw [hprior, List.length_append] at hfits
  exact absurd hfits (by simp)

end ScorecardInfra.Cron
