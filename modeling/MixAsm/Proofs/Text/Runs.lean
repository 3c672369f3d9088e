import Mathlib.Data.List.TakeWhile

namespace MixAsm.Text

/-!
# Runs of characters

Where characters that belong together are followed by one that does not belong to them, or by
nothing, exactly they are taken.

* `takeWhile_run`, `dropWhile_run` — a run at the front;
* `runAt` — the run that starts in a column.
-/

variable {p : Char → Bool} {run rest : List Char}

theorem takeWhile_run (hrun : ∀ c ∈ run, p c) (hrest : ∀ c ∈ rest.head?, p c = false) :
    (run ++ rest).takeWhile p = run := by
  have hnone : rest.takeWhile p = [] := by
    cases rest with
    | nil => rfl
    | cons c rest => simpa using hrest
  rw [List.takeWhile_append_of_pos hrun, hnone, List.append_nil]

theorem dropWhile_run (hrun : ∀ c ∈ run, p c) (hrest : ∀ c ∈ rest.head?, p c = false) :
    (run ++ rest).dropWhile p = rest := by
  rw [List.dropWhile_append_of_pos hrun]
  cases rest with
  | nil => rfl
  | cons c rest => simpa using hrest

/-- The longest run of characters with the property `p` that starts in the column, where the first
    column is 1. -/
def runAt (p : Char → Bool) (cs : List Char) (column : Nat) : List Char :=
  (cs.drop (column - 1)).takeWhile p

theorem runAt_eq (hrun : ∀ c ∈ run, p c) (hrest : ∀ c ∈ rest.head?, p c = false)
    (pre : List Char) : runAt p (pre ++ run ++ rest) (pre.length + 1) = run := by
  rw [runAt, Nat.add_sub_cancel, List.append_assoc, List.drop_left, takeWhile_run hrun hrest]

end MixAsm.Text
