import MixAsm.Proofs.Command.Arguments
import MixAsm.Proofs.Command.Run
import MixAsm.Proofs.Command.Shown

namespace MixAsm.Command

/-!
# Every argument is answered once

The line parser answers each of its arguments with one line, in order: on the standard output if the
argument is an instruction, and on the standard error if it is not. Arguments may hold any
characters, line feeds included, but no answer holds a line feed of its own.

* `ParseLines.exists_words_iff` — the commands that there are command lines for;
* `OneEach` — a text with one line for each argument;
* `ParseLines.Answers` — the two streams and the exit code;
* `ParseLines.execute_answers` — what a command line leaves behind.
-/

/-! ### Flags among the items -/

namespace Item

variable {name : String} {items : List Item}

theorem count_flag_map {f : String → Item} (h : ∀ text, f text ≠ flag name) (texts : List String) :
    (texts.map f).count (flag name) = 0 := by
  rw [List.count_eq_zero, List.mem_map]
  rintro ⟨text, -, htext⟩
  exact h text htext

theorem given?_of_count {given : Bool} (h : items.count (flag name) = if given then 1 else 0) :
    given? name items = some given := by
  cases given <;> simp [given?, h]

end Item

/-! ### Command lines -/

namespace ParseLines

variable {c : ParseLines}

theorem singleValued_arity : SingleValued arity := by
  refine ⟨by decide, fun name hmany => ?_⟩
  unfold arity at hmany
  split at hmany
  · cases hmany
  · split at hmany <;> cases hmany

/-- One of the command lines that make up the command. The two dashes keep a line that starts with a
    dash from being taken for an option. -/
def written (c : ParseLines) : List String :=
  c.config.toList.map ("--config" ++ "=" ++ ·) ++
    ((if c.caseInsensitive then ["--case-insensitive"] else []) ++
      ((if c.json then ["--json"] else []) ++ "--" :: c.lines))

/-- The items of that command line. -/
def items (c : ParseLines) : List Item :=
  c.config.toList.map (.option "--config") ++
    ((if c.caseInsensitive then [.flag "--case-insensitive"] else []) ++
      ((if c.json then [.flag "--json"] else []) ++ c.lines.map .word))

/-- A flag can stand in front of a command line, or be left out. -/
theorem sorts_flag (name : String) (given : Bool) {rest : List String} {items : List Item}
    (hword : isOption name.toList) (hname : '=' ∉ name.toList) (harity : arity name = some .flag)
    (h : Sorts arity rest items) :
    Sorts arity ((if given then [name] else []) ++ rest)
      ((if given then [.flag name] else []) ++ items) := by
  cases given with
  | true => exact .flag hword hname harity h
  | false => exact h

theorem sorts_written (c : ParseLines) : Sorts arity c.written c.items := by
  have hlines : Sorts arity ("--" :: c.lines) (c.lines.map .word) := .dashes c.lines
  have hjson := sorts_flag "--json" c.json (by decide) (by decide) rfl hlines
  have hflags := sorts_flag "--case-insensitive" c.caseInsensitive (by decide) (by decide) rfl hjson
  obtain ⟨config, caseInsensitive, json, lines⟩ := c
  cases config with
  | none => exact hflags
  | some path => exact .joined (by simp [isOption]) (by decide) rfl hflags

theorem single?_items : Item.single? "--config" c.items = some c.config := by
  have hvalues : Item.values "--config" c.items = c.config.toList := by
    cases hconfig : c.config <;>
      simp [items, Item.values, List.filterMap_map, apply_ite (List.filterMap _), hconfig]
  rw [Item.single?, hvalues]
  cases c.config <;> rfl

theorem words_items : Item.words c.items = c.lines := by
  simp [items, Item.words, List.filterMap_map, apply_ite (List.filterMap _)]

theorem ofWords?_written (h : c.lines ≠ []) : ofWords? c.written = some c := by
  have hcase : Item.given? "--case-insensitive" c.items = some c.caseInsensitive := by
    apply Item.given?_of_count
    simp [items, List.count_append, apply_ite (List.count _), Item.count_flag_map]
  have hjson : Item.given? "--json" c.items = some c.json := by
    apply Item.given?_of_count
    simp [items, List.count_append, apply_ite (List.count _), Item.count_flag_map]
  rw [ofWords?, (sortWords_eq_some_iff singleValued_arity).mpr c.sorts_written]
  simp only [Option.bind_eq_bind, Option.bind_some, single?_items, hcase, hjson, words_items]
  cases hlines : c.lines with
  | nil => exact absurd hlines h
  | cons line lines => rw [← hlines]; rfl

/-- There are command lines for exactly the commands with at least one line. -/
theorem exists_words_iff : (∃ words, ofWords? words = some c) ↔ c.lines ≠ [] := by
  constructor
  · rintro ⟨words, h⟩
    simp only [ofWords?, Option.bind_eq_bind, Option.bind_eq_some_iff] at h
    obtain ⟨items, -, config, -, caseInsensitive, -, json, -, h⟩ := h
    split at h
    · cases h
    · next hlines =>
      cases h
      exact hlines
  · intro h
    exact ⟨c.written, ofWords?_written h⟩

end ParseLines

/-! ### One line each -/

/-- The text has one line for each argument, in order, and nothing else. No line has a line feed but
    the one that ends it, and each is related to its argument. -/
def OneEach (R : String → String → Prop) (arguments : List String) (text : String) : Prop :=
  ∃ lines : List String, text = String.join (lines.map (· ++ "\n")) ∧
    (∀ line ∈ lines, '\n' ∉ line.toList) ∧ List.Forall₂ R arguments lines

/-- Where the arguments of a kind, and they alone, are answered with a line, the answers have one
    line for each of them. -/
theorem oneEach_filterMap {R : String → String → Prop} {p : String → Bool}
    {answer? : String → Option String} (hnone : ∀ a, p a = false → answer? a = none)
    (hsome : ∀ a, p a → ∃ line, answer? a = some (line ++ "\n") ∧ '\n' ∉ line.toList ∧ R a line)
    (arguments : List String) :
    OneEach R (arguments.filter p) (String.join (arguments.filterMap answer?)) := by
  induction arguments with
  | nil => exact ⟨[], rfl, by simp, .nil⟩
  | cons a arguments ih =>
    obtain ⟨lines, htext, hlines, hrelated⟩ := ih
    by_cases ha : p a
    · obtain ⟨line, hanswer, hline, hR⟩ := hsome a ha
      rw [List.filter_cons_of_pos ha, List.filterMap_cons_some hanswer]
      refine ⟨line :: lines, ?_, List.forall_mem_cons.mpr ⟨hline, hlines⟩, .cons hR hrelated⟩
      rw [String.join_cons, htext, List.map_cons, String.join_cons]
    · rw [List.filter_cons_of_neg ha, List.filterMap_cons_none (hnone a (by simpa using ha))]
      exact ⟨lines, htext, hlines, hrelated⟩

/-! ### Answers -/

namespace ParseLines

/-- Is the argument an instruction? -/
def accepts (cfg : Config) (argument : String) : Bool := (Instruction.parse cfg argument).isOk

/-- The line shows the instruction that the argument is read as. -/
def ShowsArgument (cfg : Config) (json : Bool) (argument line : String) : Prop :=
  ∃ ins, Instruction.parse cfg argument = .ok ins ∧ Shows json ins line

/-- The line quotes the argument and tells the error that it is rejected with. -/
def ReportsArgument (cfg : Config) (argument line : String) : Prop :=
  ∃ e, Instruction.parse cfg argument = .error e ∧
    line = Text.quoteText argument ++ ": error: " ++ e.message

/-- The sentence that stands below the reports, if there are any. -/
def closing (rejected total : Nat) : String :=
  if rejected = 0 then "" else s!"Error: {rejected} of {total} lines failed to parse\n"

/-- A run that answers each of its arguments once. -/
structure Answers (cfg : Config) (json : Bool) (arguments : List String) (run : Finished) :
    Prop where
  /-- One line on the standard output for each argument that is accepted. -/
  stdout : OneEach (ShowsArgument cfg json) (arguments.filter (accepts cfg ·)) run.stdout
  /-- One line on the standard error for each argument that is rejected. -/
  stderr : ∃ reports, OneEach (ReportsArgument cfg) (arguments.filter (!accepts cfg ·)) reports ∧
    run.stderr = reports ++ closing (arguments.countP (!accepts cfg ·)) arguments.length
  /-- The run succeeds just if no argument is rejected. -/
  exitCode : run.exitCode = 0 ↔ ∀ argument ∈ arguments, accepts cfg argument

section

variable {cfg : Config} {argument : String}

theorem accepts_eq_true_iff :
    accepts cfg argument ↔ ∃ ins, Instruction.parse cfg argument = .ok ins := by
  rw [accepts]
  cases Instruction.parse cfg argument <;> simp [Except.isOk, Except.toBool]

theorem accepts_eq_false_iff :
    accepts cfg argument = false ↔ ∃ e, Instruction.parse cfg argument = .error e := by
  rw [accepts]
  cases Instruction.parse cfg argument <;> simp [Except.isOk, Except.toBool]

/-- A report is a single line: it quotes the argument, and the message shows it piece by piece. -/
theorem exists_reported {e : ParseError} (h : Instruction.parse cfg argument = .error e) :
    ∃ line, reported argument e = line ++ "\n" ∧ '\n' ∉ line.toList ∧
      ReportsArgument cfg argument line := by
  refine ⟨Text.quoteText argument ++ ": error: " ++ e.message, by simp [reported, toString], ?_,
    e, h, rfl⟩
  have hquote : '\n' ∉ (Text.quoteText argument).toList :=
    Text.newline_not_mem_quote (by decide) argument.toList
  simp [hquote, Instruction.newline_not_mem_message h]

end

variable (cfg : Config) (json : Bool) (arguments : List String)

theorem oneEach_accepted : OneEach (ShowsArgument cfg json) (arguments.filter (accepts cfg ·))
    (String.join ((accepted cfg arguments).map (shown json))) := by
  rw [accepted, List.map_filterMap]
  apply oneEach_filterMap
  · intro a ha
    obtain ⟨e, he⟩ := accepts_eq_false_iff.mp ha
    rw [he]
    rfl
  · intro a ha
    obtain ⟨ins, hins⟩ := accepts_eq_true_iff.mp ha
    obtain ⟨line, hshown, hline, hshows⟩ := exists_shows_shown ins json
    refine ⟨line, ?_, hline, ins, hins, hshows⟩
    rw [hins, ← hshown]
    rfl

theorem oneEach_rejected : OneEach (ReportsArgument cfg) (arguments.filter (!accepts cfg ·))
    (String.join ((rejected cfg arguments).map fun (line, e) => reported line e)) := by
  rw [rejected, List.map_filterMap]
  apply oneEach_filterMap
  · intro a ha
    obtain ⟨ins, hins⟩ := accepts_eq_true_iff.mp (by simpa using ha)
    rw [hins]
    rfl
  · intro a ha
    obtain ⟨e, he⟩ := accepts_eq_false_iff.mp (by simpa using ha)
    obtain ⟨line, hreported, hline, hreports⟩ := exists_reported he
    refine ⟨line, ?_, hline, hreports⟩
    rw [he, ← hreported]
    rfl

theorem length_rejected :
    (rejected cfg arguments).length = arguments.countP (!accepts cfg ·) := by
  rw [rejected, List.length_filterMap_eq_countP]
  apply List.countP_congr
  intro a _
  cases hparse : Instruction.parse cfg a with
  | ok ins => simp [accepts_eq_true_iff.mpr ⟨ins, hparse⟩]
  | error e => simp [accepts_eq_false_iff.mpr ⟨e, hparse⟩]

theorem report_rejectedLines (rejected total : Nat) :
    (Failure.rejectedLines rejected total).report
      = s!"Error: {rejected} of {total} lines failed to parse\n" := by
  apply String.toList_injective
  simp [Failure.report, Failure.message, toString]

/-- What the response to the arguments leaves behind: the directory as it was. -/
theorem settle_respond (d : Directory) :
    (respond cfg json arguments).settle d =
      ⟨if arguments.countP (!accepts cfg ·) = 0 then 0 else 1,
        String.join ((accepted cfg arguments).map (shown json)),
        String.join ((rejected cfg arguments).map fun (line, e) => reported line e)
          ++ closing (arguments.countP (!accepts cfg ·)) arguments.length, d⟩ := by
  rw [← length_rejected, Response.settle, respond, closing]
  by_cases hnone : (rejected cfg arguments).length = 0
  · simp [hnone]
  · simp [hnone, report_rejectedLines]

theorem answers_respond (d : Directory) :
    Answers cfg json arguments ((respond cfg json arguments).settle d) := by
  rw [settle_respond]
  refine ⟨oneEach_accepted cfg json arguments, ⟨_, oneEach_rejected cfg arguments, rfl⟩, ?_⟩
  have hcount : arguments.countP (!accepts cfg ·) = 0 ↔ ∀ a ∈ arguments, accepts cfg a := by
    simp [List.countP_eq_zero]
  rw [← hcount]
  split
  · next hzero => simp [hzero]
  · next hzero => simp [hzero]

/-- **Arguments.** Wherever the configuration can be read, a command line answers each of its
    arguments once and leaves the directory as it was; and there is a command line for any lines but
    none at all, with any options. -/
theorem execute_answers :
    (∀ c, (∃ words, ofWords? words = some c) ↔ c.lines ≠ []) ∧
      ∀ words c d stdin cfg, ofWords? words = some c →
        (d.surroundings stdin).config "parsing" c.config c.caseInsensitive false = .ok cfg →
        Answers cfg c.json c.lines (execute words d stdin) ∧
          (execute words d stdin).directory = d := by
  refine ⟨fun c => exists_words_iff, ?_⟩
  intro words c d stdin cfg hwords hcfg
  have hrun : execute words d stdin = (respond cfg c.json c.lines).settle d := by
    rw [execute, hwords]
    dsimp only
    rw [run, hcfg]
    rfl
  rw [hrun]
  refine ⟨answers_respond cfg c.json c.lines d, ?_⟩
  rw [settle_respond]

/-- A rejected argument with a line feed, behind one that is accepted in small letters. -/
theorem execute_answers_newline :
    let words := ["--case-insensitive", "lda 1,1", "NOP\n"]
    let c : ParseLines := ⟨none, true, false, ["lda 1,1", "NOP\n"]⟩
    let d : Directory := ⟨[]⟩
    ofWords? words = some c ∧
      (d.surroundings .empty).config "parsing" c.config c.caseInsensitive false
        = .ok ⟨true, false, true⟩ ∧
      Answers ⟨true, false, true⟩ false c.lines (execute words d .empty) ∧
      (execute words d .empty).directory = d ∧
      (execute words d .empty).exitCode ≠ 0 ∧
      (execute words d .empty).stdout = "LDA 1,1                  ; field\n" := by
  intro words c d
  have hwords : ofWords? words = some c := by decide +kernel
  have hcfg : (d.surroundings .empty).config "parsing" c.config c.caseInsensitive false
      = .ok ⟨true, false, true⟩ := rfl
  obtain ⟨hanswers, hdirectory⟩ := execute_answers.2 words c d .empty _ hwords hcfg
  refine ⟨hwords, hcfg, hanswers, hdirectory, ?_, by decide +kernel⟩
  rw [Ne, hanswers.exitCode]
  decide +kernel

end ParseLines

end MixAsm.Command
