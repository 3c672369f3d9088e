import MixAsm.Proofs.Json.RoundTrip
import MixAsm.Proofs.Text.SingleLine

namespace MixAsm.Json

/-!
# Documents of a single line

A document that is closed up has no line feed: outside its strings nothing stands between the tokens,
and inside them a line feed is escaped.

* `newline_not_mem_quoted` — strings and keys;
* `newline_not_mem_compact` — documents.
-/

variable {v : Json} {vs : List Json} {ms : List (Text × Json)}

/-! ### Strings -/

/-- What writes a character inside a string has no line feed. -/
theorem newline_not_mem_escape (c : Char) : '\n' ∉ escape c := by
  rcases escape_cases c with ⟨e, -, he, hescape⟩ | ⟨hcontrol, hescape⟩ | ⟨-, -, hc, hescape⟩
  · -- no letter behind the backslash is a line feed, as that would stand for nothing
    have hne : '\n' ≠ e := by
      rintro rfl
      cases he
    simp [hescape, hne]
  · have hhigh : '\n' ≠ (c.toNat / 16).digitChar := Text.digitChar_ne_newline (by omega)
    have hlow : '\n' ≠ (c.toNat % 16).digitChar := Text.digitChar_ne_newline (by omega)
    simp [hescape, hhigh, hlow]
  · have hne : '\n' ≠ c := by
      rintro rfl
      exact absurd hc (by decide)
    simp [hescape, hne]

/-- A string or key is part of a single line. -/
theorem newline_not_mem_quoted (text : Text) : '\n' ∉ quoted text := by
  cases text with
  | none => decide
  | some text =>
    simp only [quoted, List.mem_cons, List.mem_append, List.mem_flatMap, List.not_mem_nil, or_false]
    rintro (h | ⟨c, -, h⟩ | h)
    · exact absurd h (by decide)
    · exact newline_not_mem_escape c h
    · exact absurd h (by decide)

/-! ### Documents -/

theorem newline_not_mem_writeItems (h : ∀ v ∈ vs, '\n' ∉ write none v) :
    '\n' ∉ writeItems none vs := by
  induction vs with
  | nil => simp [writeItems]
  | cons v vs ih =>
    rw [List.forall_mem_cons] at h
    simp [writeItems, Level.inner, Level.lineBreak, h.1, ih h.2]

theorem newline_not_mem_writeMembers (h : ∀ m ∈ ms, '\n' ∉ write none m.2) :
    '\n' ∉ writeMembers none ms := by
  induction ms with
  | nil => simp [writeMembers]
  | cons m ms ih =>
    rw [List.forall_mem_cons] at h
    simp [writeMembers, Level.inner, Level.lineBreak, Level.colon, newline_not_mem_quoted m.1, h.1,
      ih h.2]

/-- The characters of a closed-up value are part of a single line. -/
theorem newline_not_mem_write (h : Legible v) : '\n' ∉ write none v := by
  induction h with
  | null => decide
  | bool b => cases b <;> decide
  | @number n hn =>
    intro hmem
    exact absurd (continuesAtom_text hn '\n' hmem) (by decide)
  | string text => exact newline_not_mem_quoted text
  | @array items _ ih =>
    cases items with
    | nil => decide
    | cons v vs =>
      rw [List.forall_mem_cons] at ih
      simp [write, Level.inner, Level.lineBreak, ih.1, newline_not_mem_writeItems ih.2]
  | @object members _ ih =>
    cases members with
    | nil => decide
    | cons m ms =>
      rw [List.forall_mem_cons] at ih
      simp [write, Level.inner, Level.lineBreak, Level.colon, newline_not_mem_quoted m.1, ih.1,
        newline_not_mem_writeMembers ih.2]

/-- **Closed-up documents.** A document that is closed up is a single line. -/
theorem newline_not_mem_compact (h : Legible v) : '\n' ∉ v.compact.toList := by
  rw [compact, String.toList_ofList]
  exact newline_not_mem_write h

end MixAsm.Json
