import MixAsm.Text.Lines

namespace MixAsm.Text

/-!
# Lines written one below the other

A line feed behind each of some lines makes a text with exactly these lines, if none of them could
be taken for more or for less than one line.

* `IsLine` — the lists of characters that a line feed ends as they are;
* `splitLines_append_newline` — such a line at the front of a text;
* `lines_join` — a text of such lines;
* `lines_append` — a text below another that ends its last line.
-/

/-- The characters are a line by themselves: no line feed ends them early, and no carriage return
    at their end is dropped with the line feed behind it. -/
structure IsLine (cs : List Char) : Prop where
  newline_not_mem : '\n' ∉ cs
  getLast?_ne : cs.getLast? ≠ some '\r'

/-- A line at the front of a text is its first line. -/
theorem splitLines_append_newline {l : List Char} (h : IsLine l) (cs : List Char) :
    splitLines (l ++ '\n' :: cs) = l :: splitLines cs := by
  induction l with
  | nil => simp
  | cons c l ih =>
    have hc : c ≠ '\n' := by
      rintro rfl
      exact h.newline_not_mem List.mem_cons_self
    -- what stands behind a carriage return is a character of the line, or it would be the last
    have hreturn : ¬ (c = '\r' ∧ (l ++ '\n' :: cs).head? = some '\n') := by
      rintro ⟨rfl, hhead⟩
      cases l with
      | nil => exact h.getLast?_ne rfl
      | cons d l =>
        obtain rfl : d = '\n' := by simpa using hhead
        exact h.newline_not_mem (by simp)
    have hl : IsLine l := by
      refine ⟨fun hmem => h.newline_not_mem (List.mem_cons_of_mem c hmem), ?_⟩
      intro hlast
      apply h.getLast?_ne
      rw [List.getLast?_cons, hlast, Option.getD_some]
    rw [List.cons_append, splitLines, if_neg hc, if_neg hreturn, ih hl]
    rfl

theorem splitLines_flatMap {ls : List (List Char)} (h : ∀ l ∈ ls, IsLine l) :
    splitLines (ls.flatMap (· ++ ['\n'])) = ls := by
  induction ls with
  | nil => rfl
  | cons l ls ih =>
    rw [List.forall_mem_cons] at h
    rw [List.flatMap_cons, List.append_assoc, List.cons_append, List.nil_append,
      splitLines_append_newline h.1, ih h.2]

/-- **Lines of a text.** Lines that a line feed ends one by one are the lines of their text. -/
theorem lines_join {ls : List String} (h : ∀ l ∈ ls, IsLine l.toList) :
    lines (String.join (ls.map (· ++ "\n"))) = ls := by
  have hchars : (String.join (ls.map (· ++ "\n"))).toList
      = (ls.map String.toList).flatMap (· ++ ['\n']) := by
    simp [String.toList_join, List.flatMap_map]
  rw [lines, hchars, splitLines_flatMap (by simpa using h), List.map_map]
  simp

/-! ### Texts one below the other -/

/-- The text ends its last line, if it has any. -/
def IsWhole (text : String) : Prop := text = "" ∨ ∃ front, text = front ++ "\n"

/-- A text that ends its last line shares no line with what is written below it. -/
theorem lines_append {a : String} (h : IsWhole a) (b : String) :
    lines (a ++ b) = lines a ++ lines b := by
  unfold lines
  rcases h with rfl | ⟨front, rfl⟩
  · simp
  · have hend : (front ++ "\n").toList = front.toList ++ ['\n'] := String.toList_append
    rw [String.toList_append, hend, List.append_assoc, List.singleton_append, splitLines_append,
      List.map_append]

end MixAsm.Text
