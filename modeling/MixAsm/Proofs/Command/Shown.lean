import Mathlib.Data.List.DropRight
import MixAsm.Command.ParseLines
import MixAsm.Proofs.Instruction.Json
import MixAsm.Proofs.Instruction.Messages
import MixAsm.Proofs.Instruction.RoundTrip
import MixAsm.Proofs.Json.SingleLine

namespace MixAsm

/-!
# Lines that show an instruction

The line parser shows an instruction on a single line, as a document or as its canonical text with
the category behind a semicolon. From either line the instruction can be had again: the canonical
text has no semicolon and does not end in a space, however many spaces it is filled up with.

* `Text.code`, `Text.remark` — what stands in front of the first semicolon, and what from there on;
* `Command.Shows` — a line that an instruction can be had from again;
* `Command.ParseLines.exists_shows_shown` — the lines of the line parser.
-/

/-! ### Code and remark -/

namespace Text

/-- What stands in front of the first semicolon, without the spaces at its end. -/
def code (line : String) : String :=
  String.ofList ((line.toList.takeWhile (· ≠ ';')).rdropWhile (· = ' '))

/-- The first semicolon and what stands behind it. -/
def remark (line : String) : String := String.ofList (line.toList.dropWhile (· ≠ ';'))

/-- Spaces behind a text that does not end in one go away again. -/
theorem rdropWhile_append_replicate {cs : List Char} (h : cs.getLast? ≠ some ' ') (n : Nat) :
    (cs ++ List.replicate n ' ').rdropWhile (· = ' ') = cs := by
  induction n with
  | zero =>
    rw [List.replicate_zero, List.append_nil, List.rdropWhile_eq_self_iff]
    intro hne hspace
    apply h
    rw [List.getLast?_eq_some_getLast hne, of_decide_eq_true hspace]
  | succ n ih =>
    rw [List.replicate_succ', ← List.append_assoc, List.rdropWhile_concat_pos _ _ _ (by simp), ih]

section

variable {text : String} (hsemicolon : ';' ∉ text.toList) (n : Nat) (rest : String)
include hsemicolon

/-- Neither the text nor the spaces behind it end the code. -/
theorem ne_semicolon_of_mem : ∀ c ∈ text.toList ++ List.replicate n ' ', decide (c ≠ ';') := by
  intro c hc
  rw [decide_eq_true_eq]
  rintro rfl
  rcases List.mem_append.mp hc with hc | hc
  · exact hsemicolon hc
  · exact absurd (List.eq_of_mem_replicate hc) (by decide)

theorem code_append (hspace : text.toList.getLast? ≠ some ' ') :
    code (text ++ spaces n ++ ";" ++ rest) = text := by
  have hline : (text ++ spaces n ++ ";" ++ rest).toList
      = (text.toList ++ List.replicate n ' ') ++ ';' :: rest.toList := by simp
  rw [code, hline, takeWhile_run (ne_semicolon_of_mem hsemicolon n) (by simp),
    rdropWhile_append_replicate hspace, String.ofList_toList]

theorem remark_append : remark (text ++ spaces n ++ ";" ++ rest) = ";" ++ rest := by
  have hline : (text ++ spaces n ++ ";" ++ rest).toList
      = (text.toList ++ List.replicate n ' ') ++ ';' :: rest.toList := by simp
  rw [remark, hline, dropWhile_run (ne_semicolon_of_mem hsemicolon n) (by simp)]
  apply String.toList_injective
  simp

end

end Text

/-! ### Canonical texts -/

theorem Text.space_not_mem_toDigits (n : Nat) : ' ' ∉ Nat.toDigits 10 n := by
  intro h
  simpa using isDigit_of_isNumeral (isNumeral_toDigits n) h

/-- An index with a group behind it, or with nothing. -/
theorem Index.text_append (i : Index) {group : List Char} (hgroup : ' ' ∉ group) :
    i.text.toList ++ group ≠ [] ∧ ' ' ∉ i.text.toList ++ group := by
  rw [text, Nat.toList_repr]
  constructor
  · simp [Nat.toDigits_ne_nil]
  · simp [Text.space_not_mem_toDigits, hgroup]

theorem FieldSpec.space_not_mem_text (f : FieldSpec) : ' ' ∉ f.text.toList := by
  cases f with
  | default => simp [text]
  | explicit f => simp [text, Fields.text, toString, Text.space_not_mem_toDigits]

theorem ArgSpec.space_not_mem_text (a : ArgSpec) : ' ' ∉ a.text.toList := by
  cases a with
  | default => simp [text]
  | explicit a => simp [text, Argument.text, toString, Text.space_not_mem_toDigits]

namespace Instruction

variable (ins : Instruction)

theorem semicolon_not_mem_canonical : ';' ∉ ins.canonical.toList := by
  intro hmem
  exact absurd (isSome_class_of_parse (parse_canonical {} ins) hmem) (by decide)

/-- The canonical text ends in the name of the opcode, or in the index and the group behind it. -/
theorem exists_end_canonical :
    ∃ front last, ins.canonical.toList = front ++ last ∧ last ≠ [] ∧ ' ' ∉ last := by
  cases ins with
  | onlyName op =>
    refine ⟨[], op.spelling, by simp [canonical, Mnemonic.name, Mnemonic.spelling], ?_, ?_⟩
    · rintro hnil
      obtain ⟨⟨c, hc, -⟩, -⟩ := (Mnemonic.onlyName op).spelling_word
      rw [Mnemonic.spelling, hnil] at hc
      cases hc
    · intro hmem
      simpa using (Mnemonic.onlyName op).spelling_word.2 ' ' hmem
  | field op a i f =>
    refine ⟨((Mnemonic.field op).name ++ " " ++ a.text ++ ",").toList, _, ?_,
      i.text_append f.space_not_mem_text⟩
    simp [canonical, toString]
  | nonField op a i =>
    refine ⟨((Mnemonic.nonField op).name ++ " " ++ a.text ++ ",").toList, _, ?_,
      i.text_append List.not_mem_nil⟩
    simp [canonical, toString]
  | arg op a i n =>
    refine ⟨((Mnemonic.arg op).name ++ " " ++ a.text ++ ",").toList, _, ?_,
      i.text_append n.space_not_mem_text⟩
    simp [canonical, toString]

theorem getLast?_canonical_ne : ins.canonical.toList.getLast? ≠ some ' ' := by
  obtain ⟨front, last, hcanonical, hne, hspace⟩ := ins.exists_end_canonical
  rw [hcanonical, List.getLast?_append_of_ne_nil _ hne]
  intro hlast
  exact hspace (List.mem_of_getLast? hlast)

theorem newline_not_mem_canonical : '\n' ∉ ins.canonical.toList :=
  (isLine_of_parse (ins.parse_canonical {})).newline_not_mem

end Instruction

/-! ### Lines -/

namespace Command

/-- The line shows the instruction. Either it is a document that the instruction is read from, or
    its code is read as the instruction and its remark is the category. -/
def Shows (json : Bool) (ins : Instruction) (line : String) : Prop :=
  if json then (Json.parse line).bind Instruction.ofJson? = some ins
  else Instruction.parse {} (Text.code line) = .ok ins ∧
    Text.remark line = "; " ++ ins.category.name

namespace ParseLines

variable (ins : Instruction)

/-- The canonical text is filled up with one space at least. -/
theorem shown_text : shown false ins = ins.canonical
    ++ Text.spaces (24 - ins.canonical.length + 1) ++ ";" ++ (" " ++ ins.category.name) ++ "\n" := by
  apply String.toList_injective
  simp [shown, Text.padRight, toString, List.replicate_succ']

/-- **Shown lines.** What the line parser shows an instruction by is a single line, and one that
    shows the instruction. -/
theorem exists_shows_shown (json : Bool) :
    ∃ line, shown json ins = line ++ "\n" ∧ '\n' ∉ line.toList ∧ Shows json ins line := by
  cases json with
  | true =>
    have hplain : Json.Plain 4 ins.toJson := ins.plain_toJson
    refine ⟨ins.toJson.compact, rfl, Json.newline_not_mem_compact hplain.legible, ?_⟩
    rw [Shows, if_pos rfl, Json.parse_compact hplain.legible, Option.bind_some,
      Instruction.ofJson?_toJson]
  | false =>
    have hsemicolon := ins.semicolon_not_mem_canonical
    refine ⟨_, shown_text ins, ?_, ?_⟩
    · have hname : '\n' ∉ ins.category.name.toList := by cases ins.category <;> decide
      simp [ins.newline_not_mem_canonical, hname]
    · rw [Shows, if_neg Bool.false_ne_true,
        Text.code_append hsemicolon _ _ ins.getLast?_canonical_ne, Text.remark_append hsemicolon,
        ← String.append_assoc]
      exact ⟨ins.parse_canonical {}, rfl⟩

end ParseLines

end Command

end MixAsm
