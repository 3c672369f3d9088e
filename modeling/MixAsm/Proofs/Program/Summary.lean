import Mathlib.Algebra.BigOperators.Group.List.Basic
import Mathlib.Algebra.GroupWithZero.Nat
import Mathlib.Data.List.Induction
import MixAsm.Proofs.Program.Concatenation
import MixAsm.Proofs.Program.Validity

namespace MixAsm

/-!
# Counts of a program

The counts of a program balance: every line that was read is counted once, with the instructions or
with the errors, and every instruction once more with its category. They can be kept while the lines
are read, and the counts of a text below another are added to those of the other.

* `Summary.tally` — a line counted with what is counted so far;
* `Summary.add` — two counts taken together;
* `Summary.Accounts` — what counts say of a program;
* `Summary.ofLines_eq_foldl` — the counts of some lines, one line at a time;
* `Program.accounts_summary` — what the counts of a program say of it;
* `Program.summary_parse_append` — the counts of a text below another.
-/

/-- A line is an instruction exactly if reading it gave one. -/
theorem ParsedLine.isSome_instruction? (l : ParsedLine) :
    l.instruction?.isSome = l.result.isOk := by
  unfold instruction?
  cases l.result <;> rfl

/-- The category of the instruction on the line. -/
def ParsedLine.category? (l : ParsedLine) : Option Category := l.result.toOption.map (·.category)

namespace Summary

/-- One more line is counted, with the instructions and with its category or with the errors. -/
def tally (s : Summary) (l : ParsedLine) : Summary :=
  match l.result with
  | .ok ins => { s.addInstruction ins with lines := s.lines + 1 }
  | .error _ => { s with lines := s.lines + 1, errors := s.errors + 1 }

/-- Two counts taken together, field by field and category by category. -/
def add (s t : Summary) : Summary where
  lines := s.lines + t.lines
  instructions := s.instructions + t.instructions
  errors := s.errors + t.errors
  byCategory := entries fun c => s.count c + t.count c

/-- The counts say of a program how many lines were read, how many of them are errors, and how many
    are instructions, in all and of each category that there are any of. They are kept while the
    lines are read. -/
structure Accounts (s : Summary) (p : Program) : Prop where
  lines_eq : s.lines = p.lines.length
  lines_le : s.lines ≤ p.sourceLines
  balance : s.instructions + s.errors = s.lines
  errors_eq : s.errors = p.lines.countP fun l => !l.result.isOk
  categories_sublist : (s.byCategory.map (·.1)).Sublist Category.all
  exists_entry_iff :
    ∀ c, (∃ n, (c, n) ∈ s.byCategory) ↔ ∃ x ∈ p.instructions, x.2.category = c
  entry_eq : ∀ c n, (c, n) ∈ s.byCategory →
    n = (p.instructions.filter fun x => x.2.category = c).length ∧ 0 < n
  sum_eq : (s.byCategory.map (·.2)).sum = s.instructions
  foldl_eq : s = p.lines.foldl tally ⟨0, 0, 0, []⟩

/-! ### Lines -/

/-- The counts of some lines. -/
def ofLines (ls : List ParsedLine) : Summary where
  lines := ls.length
  instructions := ls.countP (·.result.isOk)
  errors := ls.countP (!·.result.isOk)
  byCategory := entries fun c => ls.countP (·.category? = some c)

@[simp] theorem count_ofLines (ls : List ParsedLine) (c : Category) :
    (ofLines ls).count c = ls.countP (·.category? = some c) := by
  rw [count, ofLines, getD_lookup_entries]

/-- The counts of some lines and of others below them are taken together. -/
theorem ofLines_append (ls ls' : List ParsedLine) :
    ofLines (ls ++ ls') = (ofLines ls).add (ofLines ls') := by
  simp only [add, count_ofLines]
  simp only [ofLines, List.length_append, List.countP_append]

/-- A line below some others is counted with what they count. -/
theorem ofLines_concat (ls : List ParsedLine) (l : ParsedLine) :
    ofLines (ls ++ [l]) = (ofLines ls).tally l := by
  unfold tally
  cases hresult : l.result with
  | ok ins =>
    have hcategory : l.category? = some ins.category := by
      simp [ParsedLine.category?, hresult, Except.toOption]
    have hok : l.result.isOk := by rw [hresult]; rfl
    have hcounted := addInstruction_entries ls.length (ls.countP (·.result.isOk))
      (ls.countP (!·.result.isOk)) (fun c => ls.countP (·.category? = some c)) ins
    simp [ofLines, hcounted, List.countP_append, List.countP_singleton, hok, hcategory]
  | error e =>
    have hcategory : l.category? = none := by simp [ParsedLine.category?, hresult, Except.toOption]
    have herror : l.result.isOk = false := by rw [hresult]; rfl
    simp [ofLines, List.countP_append, herror, hcategory]

/-- The counts of some lines are kept while the lines are read. -/
theorem ofLines_eq_foldl (ls : List ParsedLine) :
    ofLines ls = ls.foldl tally ⟨0, 0, 0, []⟩ := by
  -- the last line is the one that is counted last
  induction ls using List.reverseRecOn with
  | nil => rfl
  | append_singleton ls l ih =>
    rw [ofLines_concat, ih, List.foldl_append, List.foldl_cons, List.foldl_nil]

/-- The number of a line is not counted. -/
theorem ofLines_map_shift (k : Nat) (ls : List ParsedLine) :
    ofLines (ls.map (ParsedLine.shift k)) = ofLines ls := by
  unfold ofLines
  rw [List.length_map]
  simp only [List.countP_map]
  rfl

/-- No count is lost where the categories without one are left out. -/
theorem sum_entries (count : Category → Nat) : ((entries count).map (·.2)).sum = (Category.all.map count).sum := by
  unfold entries
  induction Category.all with
  | nil => rfl
  | cons c cs ih =>
    rw [List.map_cons, List.map_cons, List.sum_cons, ← ih]
    by_cases hc : 0 < count c
    · rw [List.filter_cons_of_pos (by exact decide_eq_true hc), List.map_cons, List.sum_cons]
    · rw [List.filter_cons_of_neg (by simpa using hc)]
      omega

/-- A line that is an instruction is of one category. -/
theorem sum_countP_category (ls : List ParsedLine) :
    (Category.all.map fun c => ls.countP (·.category? = some c)).sum
      = ls.countP (·.result.isOk) := by
  induction ls with
  | nil => rfl
  | cons l ls ih =>
    -- the line adds one to the count of one category, and nothing if it is an error
    have hone : (Category.all.map fun c => if l.category? = some c then 1 else 0).sum
        = if l.result.isOk then 1 else 0 := by
      unfold ParsedLine.category?
      cases l.result with
      | ok ins =>
        show (Category.all.map fun c => if some ins.category = some c then 1 else 0).sum = 1
        cases ins.category <;> rfl
      | error e => rfl
    simp only [List.countP_cons, decide_eq_true_eq, List.sum_map_add, ih, hone]

end Summary

namespace Program

variable {cfg : Config} {a b : String}

/-- The counts of a program are those of its lines. -/
theorem summary_eq_ofLines (p : Program) : p.summary = Summary.ofLines p.lines := by
  have hinstructions : p.instructions.length = p.lines.countP (·.result.isOk) := by
    rw [instructions, List.length_filterMap_eq_countP]
    simp only [ParsedLine.isSome_instruction?]
  have herrors : p.summary.errors = p.lines.countP (!·.result.isOk) := by
    rw [summary_errors, errors, List.length_filterMap_eq_countP]
    simp only [ParsedLine.isSome_error?, ParsedLine.isSome_instruction?]
  have hcategory : p.countOf = fun c => p.lines.countP (·.category? = some c) := by
    funext c
    rw [countOf, instructions, List.countP_filterMap]
    congr 1
    funext l
    unfold ParsedLine.instruction? ParsedLine.category?
    cases l.result <;> simp [Except.toOption]
  -- the errors are what is left of the lines, which `herrors` says without a subtraction
  rw [summary_eq] at herrors ⊢
  dsimp only at herrors
  rw [herrors, hinstructions, hcategory]
  rfl

/-- The counts of a program below another are added to those of the other. -/
theorem summary_append (p q : Program) : (p.append q).summary = p.summary.add q.summary := by
  rw [summary_eq_ofLines, summary_eq_ofLines, summary_eq_ofLines, append, Summary.ofLines_append,
    Summary.ofLines_map_shift]

/-- The counts of a text below another that ends its last line are added to those of the other. -/
theorem summary_parse_append (h : Text.IsWhole a) :
    (parse cfg (a ++ b)).summary = (parse cfg a).summary.add (parse cfg b).summary := by
  rw [parse_append h, summary_append]

/-- No more lines are read than the text has. -/
theorem length_lines_parse_le (cfg : Config) (text : String) :
    (parse cfg text).lines.length ≤ (parse cfg text).sourceLines := by
  rw [lines_parse, linesFrom]
  calc _ ≤ ((Text.lines text).zipIdx 1).length := List.length_filterMap_le _ _
    _ = (Text.lines text).length := List.length_zipIdx

/-! ### What the counts say -/

theorem mem_byCategory_summary_iff {p : Program} {c : Category} {n : Nat} :
    (c, n) ∈ p.summary.byCategory ↔ n = p.countOf c ∧ 0 < n := by
  rw [summary_eq]
  exact Summary.mem_entries_iff

theorem countOf_pos_iff {p : Program} {c : Category} :
    0 < p.countOf c ↔ ∃ x ∈ p.instructions, x.2.category = c := by
  simp [countOf, List.countP_pos_iff]

/-- The counts of a program say of it what they should, if its text has the lines. -/
theorem accounts_summary {p : Program} (h : p.lines.length ≤ p.sourceLines) :
    p.summary.Accounts p := by
  have hlines : p.summary.lines = p.lines.length := by rw [summary_eq]
  have hinstructions : p.summary.instructions = p.instructions.length := by rw [summary_eq]
  have hbalance : p.summary.instructions + p.summary.errors = p.summary.lines := by
    rw [summary_errors, hlines, hinstructions]
    exact p.length_instructions_add_errors
  have herrors : p.summary.errors = p.lines.countP fun l => !l.result.isOk := by
    rw [summary_eq_ofLines]
    rfl
  have hsum : (p.summary.byCategory.map (·.2)).sum = p.summary.instructions := by
    rw [summary_eq_ofLines]
    exact (Summary.sum_entries _).trans (Summary.sum_countP_category p.lines)
  have hsublist : (p.summary.byCategory.map (·.1)).Sublist Category.all := by
    rw [summary_eq]
    exact Summary.categories_entries_sublist
  have hfoldl : p.summary = p.lines.foldl Summary.tally ⟨0, 0, 0, []⟩ := by
    rw [summary_eq_ofLines, Summary.ofLines_eq_foldl]
  refine ⟨hlines, hlines ▸ h, hbalance, herrors, hsublist, fun c => ?_, fun c n hn => ?_, hsum,
    hfoldl⟩
  · simp only [mem_byCategory_summary_iff, exists_eq_left, countOf_pos_iff]
  · rw [← List.countP_eq_length_filter]
    exact mem_byCategory_summary_iff.mp hn

/-- **Counts.** The counts of a text say how many of its lines were read, how many of those are
    errors, and how many are instructions, in all and of each category. The counts of a text below
    another that ends its last line are added to those of the other. -/
theorem counts_balance_and_add (cfg : Config) :
    (∀ text, (parse cfg text).summary.Accounts (parse cfg text)) ∧
      ∀ a b, Text.IsWhole a →
        (parse cfg (a ++ b)).summary = (parse cfg a).summary.add (parse cfg b).summary := by
  refine ⟨fun text => ?_, fun a b h => summary_parse_append h⟩
  exact accounts_summary (length_lines_parse_le cfg text)

/-- Blank lines on both sides of the seam, an unknown word, and a category that both sides have. -/
theorem counts_balance_and_add_blank :
    let whole := parse {} ("NOP\n\nFOO\n" ++ "ADD 1,1\n \nHALT")
    Text.IsWhole "NOP\n\nFOO\n" ∧
      (Category.onlyName, 2) ∈ whole.summary.byCategory ∧
      2 = (whole.instructions.filter fun x => x.2.category = .onlyName).length ∧
      whole.summary
        = Summary.add ⟨2, 1, 1, [(.onlyName, 1)]⟩ ⟨2, 2, 0, [(.onlyName, 1), (.field, 1)]⟩ := by
  intro whole
  have hwhole : Text.IsWhole "NOP\n\nFOO\n" := .inr ⟨"NOP\n\nFOO", rfl⟩
  have habove : (parse {} "NOP\n\nFOO\n").summary = ⟨2, 1, 1, [(.onlyName, 1)]⟩ := by
    decide +kernel
  have hbelow : (parse {} "ADD 1,1\n \nHALT").summary
      = ⟨2, 2, 0, [(.onlyName, 1), (.field, 1)]⟩ := by
    decide +kernel
  obtain ⟨haccounts, hadd⟩ := counts_balance_and_add {}
  have hsum : whole.summary = Summary.add _ _ := hadd _ "ADD 1,1\n \nHALT" hwhole
  rw [habove, hbelow] at hsum
  have hentry : (Category.onlyName, 2) ∈ whole.summary.byCategory := by
    rw [hsum]
    decide
  exact ⟨hwhole, hentry, ((haccounts _).entry_eq _ _ hentry).1, hsum⟩

end Program

end MixAsm
