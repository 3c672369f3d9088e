namespace MixAsm.Text

/-!
# Lines of a text

A text is cut at its line feeds. A carriage return directly before a line feed belongs to the
line's end and is dropped with it; any other stays in its line. What follows the last line feed is
a line only if it is not empty.

* `splitLines` — the lines of a text as lists of characters;
* `splitLines_append` — a text that ends its last line can be cut off without touching the rest.
-/

/-- Put a character in front of the first line, or make it a line of its own. -/
def consToHead (c : Char) : List (List Char) → List (List Char)
  | [] => [[c]]
  | l :: ls => (c :: l) :: ls

/-- The lines of a text, without their ends. -/
def splitLines : List Char → List (List Char)
  | [] => []
  | c :: cs =>
    if c = '\n' then [] :: splitLines cs
    else if c = '\r' ∧ cs.head? = some '\n' then splitLines cs
    else consToHead c (splitLines cs)

/-- The lines of a text, without their ends. -/
def lines (text : String) : List String :=
  (splitLines text.toList).map String.ofList

@[simp] theorem splitLines_nil : splitLines [] = [] := rfl

@[simp] theorem splitLines_newline (cs : List Char) :
    splitLines ('\n' :: cs) = [] :: splitLines cs := by simp [splitLines]

/-- Lines before a final line feed and the lines of what follows it are the lines of both. -/
theorem splitLines_append (a b : List Char) :
    splitLines (a ++ '\n' :: b) = splitLines (a ++ ['\n']) ++ splitLines b := by
  have nonempty : ∀ a : List Char, splitLines (a ++ ['\n']) ≠ [] := by
    intro a
    induction a with
    | nil => simp
    | cons c cs ih =>
      simp only [List.cons_append, splitLines]
      split
      · simp
      split
      · exact ih
      · cases splitLines (cs ++ ['\n']) <;> simp [consToHead]
  induction a with
  | nil => simp
  | cons c cs ih =>
    have head : (cs ++ '\n' :: b).head? = (cs ++ ['\n']).head? := by cases cs <;> rfl
    simp only [List.cons_append, splitLines, head, ih]
    split
    · rfl
    split
    · rfl
    · obtain ⟨l, ls, h⟩ := List.exists_cons_of_ne_nil (nonempty cs)
      rw [h]
      rfl

end MixAsm.Text
