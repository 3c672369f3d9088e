import Mathlib.Tactic.TFAE
import MixAsm.Proofs.Lists
import MixAsm.Proofs.Outcome
import MixAsm.Proofs.Program.Counts
import MixAsm.Proofs.Program.Readings
import MixAsm.Report

namespace MixAsm

/-!
# Valid programs

A program is valid if every line that was read is an instruction. Its errors, its counts, its
canonical text, its diagnostics and its listing each tell on their own whether it is, and where it
is not they tell of the same lines.

* `Program.summary_errors` — the number of errors;
* `Program.render_eq_error_iff` — the error that stands in the place of the canonical text;
* `Program.forall₂_tells_diagnostics`, `Program.forall₂_tells_dump` — what is reported of each;
* `Program.pairwise_line_errors` — their order;
* `Program.views_agree` — all of this together.
-/

theorem ParsedLine.error?_eq_none_iff {l : ParsedLine} : l.error? = none ↔ l.result.isOk := by
  unfold error?
  cases l.result <;> simp [Except.isOk, Except.toBool]

/-- A line is an error exactly if it is no instruction. -/
theorem ParsedLine.isSome_error? (l : ParsedLine) : l.error?.isSome = !l.instruction?.isSome := by
  unfold error? instruction?
  cases l.result <;> rfl

/-- The error that an entry of a listing holds. -/
def Entry.error? (e : Entry) : Option Diagnostic :=
  match e.outcome with
  | .ok _ => none
  | .error d => some d

/-- A diagnostic tells of an error in a file what the error tells of itself. -/
structure Diagnostic.Tells (file : String) (e : LineError) (d : Diagnostic) : Prop where
  file_eq : d.file = file
  line_eq : d.line = e.line
  column_eq : d.column = e.error.column
  kind_eq : d.kind = e.error.kind
  message_eq : d.message = e.error.message

/-- An entry of a listing stands for the line of an error, with a diagnostic that tells of it. -/
def Entry.Tells (file : String) (e : LineError) (entry : Entry) : Prop :=
  entry.line = e.line ∧ ∃ d, entry.error? = some d ∧ d.Tells file e

namespace Program

variable {p : Program} {file : String} {e : LineError}

/-! ### Errors and counts -/

theorem isOk_iff : p.isOk ↔ p.errors = [] := by
  unfold isOk errors
  simp only [List.all_eq_true, List.filterMap_eq_nil_iff, ParsedLine.error?_eq_none_iff]

/-- Every line that was read is counted among the instructions or among the errors. -/
theorem length_instructions_add_errors (p : Program) :
    p.instructions.length + p.errors.length = p.lines.length := by
  unfold instructions errors
  rw [List.length_filterMap_eq_countP, List.length_filterMap_eq_countP,
    List.length_eq_countP_add_countP fun l : ParsedLine => l.instruction?.isSome]
  congr 2
  funext l
  rw [l.isSome_error?, decide_not, Bool.decide_eq_true]

/-- What the count of lines leaves besides the instructions is the number of errors. -/
theorem summary_errors (p : Program) : p.summary.errors = p.errors.length := by
  have hlength := p.length_instructions_add_errors
  rw [summary_eq]
  show p.lines.length - p.instructions.length = p.errors.length
  omega

/-! ### The canonical text -/

/-- The first error stops a layout, wherever the layout began. -/
theorem layoutFrom_eq_error_iff {sourceLines next : Nat} {ls : List ParsedLine} :
    layoutFrom sourceLines next ls = .error e ↔
      (ls.filterMap ParsedLine.error?).head? = some e := by
  induction ls generalizing next with
  | nil => simp [layoutFrom]
  | cons l ls ih =>
    unfold layoutFrom
    rw [List.filterMap_cons]
    cases hresult : l.result with
    | error e' => simp [ParsedLine.error?, hresult]
    | ok ins =>
      -- the lines above the first error are mapped over, which leaves the error as it is
      simp only [ParsedLine.error?, hresult, map_eq_error_iff, ih]

theorem render_eq_error_iff : p.render = .error e ↔ p.errors.head? = some e := by
  rw [render, map_eq_error_iff, layout, layoutFrom_eq_error_iff, errors]

/-- A program has a canonical text exactly if it has no errors. -/
theorem exists_render_eq_ok_iff : (∃ out, p.render = .ok out) ↔ p.errors = [] := by
  rw [← List.head?_eq_none_iff, Option.eq_none_iff_forall_ne_some]
  simp only [ne_eq, ← render_eq_error_iff]
  cases p.render <;> simp

/-! ### Reports -/

/-- The diagnostics tell of the errors one by one. -/
theorem forall₂_tells_diagnostics (file : String) (p : Program) :
    List.Forall₂ (Diagnostic.Tells file) p.errors (p.diagnostics file) := by
  have hline : ∀ l : ParsedLine,
      Option.Rel (Diagnostic.Tells file) l.error? (l.diagnostic? file) := by
    intro l
    unfold ParsedLine.error? ParsedLine.diagnostic?
    cases l.result with
    | ok ins => exact .none
    | error e => exact .some ⟨rfl, rfl, rfl, rfl, rfl⟩
  exact forall₂_filterMap hline p.lines

/-- The entries that hold an error tell of the errors one by one. -/
theorem forall₂_tells_dump (file : String) (p : Program) :
    List.Forall₂ (Entry.Tells file) p.errors ((p.dump file).filter (·.error?.isSome)) := by
  have hline : ∀ l : ParsedLine, Option.Rel (Entry.Tells file) l.error?
      (Option.guard (·.error?.isSome) (l.entry file)) := by
    intro l
    unfold ParsedLine.error? ParsedLine.entry
    cases l.result with
    | ok ins => exact .none
    | error e => exact .some ⟨rfl, _, rfl, rfl, rfl, rfl, rfl, rfl⟩
  rw [dump, ← List.filterMap_eq_filter, List.filterMap_map]
  exact forall₂_filterMap hline p.lines

/-! ### Order -/

variable {cfg : Config} {text : String}

/-- The lines that are read stand in the order of their numbers. -/
theorem pairwise_number_parse :
    (parse cfg text).lines.Pairwise (fun l l' => l.number < l'.number) := by
  have hnumbers : ((Text.lines text).zipIdx 1).Pairwise (fun l l' => l.2 < l'.2) := by
    rw [← List.pairwise_map, List.zipIdx_map_snd]
    exact List.pairwise_lt_range'
  rw [lines_parse]
  apply hnumbers.filterMap
  intro a a' hlt l hl l' hl'
  obtain ⟨_, _, rfl⟩ := Option.map_eq_some_iff.mp hl
  obtain ⟨_, _, rfl⟩ := Option.map_eq_some_iff.mp hl'
  exact hlt

/-- The errors stand in the order of their lines, one for a line. -/
theorem pairwise_line_errors : (parse cfg text).errors.Pairwise (fun e e' => e.line < e'.line) := by
  apply pairwise_number_parse.filterMap
  intro l l' hlt e he e' he'
  unfold ParsedLine.error? at he he'
  split at he
  · cases he
  split at he'
  · cases he'
  cases he
  cases he'
  exact hlt

/-! ### All views -/

theorem diagnostics_eq_nil_iff : p.diagnostics file = [] ↔ p.errors = [] := by
  rw [← List.length_eq_zero_iff, ← (forall₂_tells_diagnostics file p).length_eq,
    List.length_eq_zero_iff]

/-- Formatting gives a text exactly if the program has a canonical one. -/
theorem exists_ofSource_eq_ok_iff :
    (∃ formatted, Formatted.ofSource cfg text = .ok formatted) ↔
      (parse cfg text).errors = [] := by
  rw [← exists_render_eq_ok_iff]
  simp only [Formatted.ofSource, map_eq_ok_iff]
  rw [exists_comm]
  simp

theorem forall_dump_error?_iff : (∀ e ∈ p.dump file, e.error? = none) ↔ p.errors = [] := by
  have hlength := (forall₂_tells_dump file p).length_eq
  rw [← List.length_eq_zero_iff, hlength, List.length_eq_zero_iff, List.filter_eq_nil_iff]
  simp

/-- **Validity.** What a text's program tells in seven ways of being valid is one and the same. If
    it is not valid, its first error stands in the place of its canonical text, and is the one with
    the least line. There are as many errors as are counted, and diagnostics and listing tell of
    them one by one, in order. -/
theorem views_agree (cfg : Config) (text file : String) :
    let p := parse cfg text
    List.TFAE [p.isOk, p.errors = [], ∃ out, p.render = .ok out, p.summary.errors = 0,
        p.diagnostics file = [], ∀ e ∈ p.dump file, e.error? = none,
        ∃ formatted, Formatted.ofSource cfg text = .ok formatted] ∧
      (∀ e, p.render = .error e ↔ p.errors.head? = some e) ∧
      (∀ e, Formatted.ofSource cfg text = .error e ↔ p.errors.head? = some e) ∧
      p.errors.Pairwise (fun e e' => e.line < e'.line) ∧
      p.summary.errors = p.errors.length ∧
      List.Forall₂ (Diagnostic.Tells file) p.errors (p.diagnostics file) ∧
      List.Forall₂ (Entry.Tells file) p.errors ((p.dump file).filter (·.error?.isSome)) := by
  intro p
  have hcount : p.summary.errors = 0 ↔ p.errors = [] := by
    rw [summary_errors, List.length_eq_zero_iff]
  refine ⟨?_, fun e => render_eq_error_iff, fun e => ?_, pairwise_line_errors, p.summary_errors,
    forall₂_tells_diagnostics file p, forall₂_tells_dump file p⟩
  · tfae_have 1 ↔ 2 := isOk_iff
    tfae_have 3 ↔ 2 := exists_render_eq_ok_iff
    tfae_have 4 ↔ 2 := hcount
    tfae_have 5 ↔ 2 := diagnostics_eq_nil_iff
    tfae_have 6 ↔ 2 := forall_dump_error?_iff
    tfae_have 7 ↔ 2 := exists_ofSource_eq_ok_iff
    tfae_finish
  · rw [Formatted.ofSource, map_eq_error_iff, render_eq_error_iff]

end Program

end MixAsm
