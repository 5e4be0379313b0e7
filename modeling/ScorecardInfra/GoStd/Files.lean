import Mathlib.Data.List.Infix
import Mathlib.Tactic.Common

/-!
# Files that are written from their beginning

A file that is opened for writing without being truncated keeps its content, and what is written
replaces it from the beginning on. What the file held after that place is left
(`content_write_openFile`): its content is what was written if and only if it was not longer
(`content_eq_self_iff`).

## Main definitions

* `File`, `File.openFile`, `File.write`, `File.content`.

## Main results

* `File.content_write_openFile`, `File.content_eq_iff`, `File.content_eq_self_iff`.
-/

namespace ScorecardInfra.GoStd

variable {α : Type}

/-- An open file: what stands before its offset, and what stands after it. -/
structure File (α : Type) where
  before : List α
  after : List α

namespace File

/-- `os.OpenFile` with the flags `O_WRONLY|O_CREATE`, for a file that may be absent. -/
def openFile (prior : Option (List α)) : File α := ⟨[], prior.getD []⟩

/-- `Write`. -/
def write (f : File α) (p : List α) : File α := ⟨f.before ++ p, f.after.drop p.length⟩

/-- The content. -/
def content (f : File α) : List α := f.before ++ f.after

/-- **What is left** is the old content from the length of the new one on. -/
theorem content_write_openFile (prior : Option (List α)) (p : List α) :
    ((openFile prior).write p).content = p ++ (prior.getD []).drop p.length := rfl

theorem content_eq_iff {prior : Option (List α)} {p s : List α} :
    ((openFile prior).write p).content = s ↔
      p <+: s ∧ (prior.getD []).drop p.length = s.drop p.length := by
  rw [content_write_openFile]
  constructor
  · rintro rfl
    exact ⟨List.prefix_append _ _, List.drop_left.symm⟩
  · rintro ⟨⟨t, rfl⟩, h⟩
    rw [h, List.drop_left]

/-- The file holds what was written, and nothing else. -/
theorem content_eq_self_iff {prior : Option (List α)} {p : List α} :
    ((openFile prior).write p).content = p ↔ (prior.getD []).length ≤ p.length := by
  rw [content_eq_iff, List.drop_length, List.drop_eq_nil_iff]
  exact and_iff_right (List.prefix_refl p)

end File

end ScorecardInfra.GoStd
