import MixAsm.Command.Lint
import MixAsm.Proofs.Command.Arguments
import MixAsm.Proofs.Command.Run

namespace MixAsm.Command

/-!
# What a linter command answers

A command on a file reads its configuration and its text first, and answers on them alone. So its
answer comes down to what it is to do with the two, and a command that names a file for its output
answers as the same command without it, save that the text goes to the file.

* `Lint.input` — what a command on a file reads;
* `Lint.run_check`, `Lint.run_format`, `Lint.run_dump` — what it answers on it;
* `Lint.target?`, `Lint.printing` — the file that a command writes to, and the command without it;
* `Lint.ends_run` — how a command can end;
* `Lint.success_cases` — what there is to a success.
-/

/-- The path of the file that the action writes to, if it writes to one. -/
def LintAction.target? : LintAction → Option String
  | format _ out false | dump _ out => out
  | _ => none

/-- The action without a file for its output. -/
def LintAction.printing : LintAction → LintAction
  | format file _ only => format file none only
  | dump file _ => dump file none
  | action => action

namespace Lint

variable {c : Lint} {file : String} {see : Surroundings}

/-! ### Command lines -/

theorem execute_of_some {words : List String} (h : ofWords? words = some c) (d : Directory)
    (stdin : ByteArray) : execute words d stdin = (c.run (d.surroundings stdin)).settle d := by
  rw [execute, h]

theorem execute_of_none {words : List String} (h : ofWords? words = none) (d : Directory)
    (stdin : ByteArray) : execute words d stdin = .misused usage d := by
  rw [execute, h]

/-! ### Answers -/

/-- The configuration and the text that a command on a file reads. -/
def input (c : Lint) (see : Surroundings) (file : String) : Except Failure (Config × String) := do
  let cfg ← see.config "invalid config" c.config c.caseInsensitive c.collapseSpaces
  return (cfg, ← see.source file)

theorem input_eq_ok_iff {cfg : Config} {text : String} :
    c.input see file = .ok (cfg, text) ↔
      see.config "invalid config" c.config c.caseInsensitive c.collapseSpaces = .ok cfg ∧
        see.source file = .ok text := by
  simp only [input, bind_eq_ok_iff, pure, Except.pure, Except.ok.injEq, Prod.mk.injEq]
  constructor
  · rintro ⟨cfg, hcfg, text, htext, rfl, rfl⟩
    exact ⟨hcfg, htext⟩
  · rintro ⟨hcfg, htext⟩
    exact ⟨cfg, hcfg, text, htext, rfl, rfl⟩

/-- To read the configuration, then the text, and answer on them is to answer on the input. -/
theorem map_input (answer : Config → String → Response) :
    (c.input see file).map (fun (cfg, text) => answer cfg text) = do
      let cfg ← see.config "invalid config" c.config c.caseInsensitive c.collapseSpaces
      return answer cfg (← see.source file) := by
  unfold input
  cases see.config "invalid config" c.config c.caseInsensitive c.collapseSpaces with
  | error why => rfl
  | ok cfg => cases see.source file <;> rfl

theorem run_check {form : OutputFormat} (h : c.action = .check file form) :
    c.run see = .ofExcept ((c.input see file).map fun (cfg, text) =>
      check cfg (displayName file) text form) := by
  rw [map_input (check · (displayName file) · form), run, h]

theorem run_format {out : Option String} {only : Bool} (h : c.action = .format file out only) :
    c.run see = .ofExcept ((c.input see file).map fun (cfg, text) =>
      format cfg (displayName file) text out only) := by
  rw [map_input (format · (displayName file) · out only), run, h]

theorem run_dump {out : Option String} (h : c.action = .dump file out) :
    c.run see = .ofExcept ((c.input see file).map fun (cfg, text) =>
      dump cfg (displayName file) text out) := by
  rw [map_input (dump · (displayName file) · out), run, h]

/-- How a check ends does not depend on the form of the answer. -/
theorem outcome_check (cfg : Config) (name text : String) (form : OutputFormat) :
    (check cfg name text form).outcome =
      let count := ((Program.parse cfg text).diagnostics name).length
      if count = 0 then .success else .failure (.invalidLines count name) := by
  cases form <;> rfl

/-! ### Output to a file -/

/-- The path of the file that the command writes to, if it writes to one. -/
def target? (c : Lint) : Option String := c.action.target?

/-- The command without a file for its output. -/
def printing (c : Lint) : Lint := { c with action := c.action.printing }

/-- The outcome is a failure; or it is a success, and nothing is to be written; or it is to write
    to the target what would be printed without one. -/
inductive Ends (c : Lint) (see : Surroundings) : Outcome → Prop
  | failure (why : Failure) : Ends c see (.failure why)
  | success (h : c.target? = none) : Ends c see .success
  | save {path text : String} (htarget : c.target? = some path)
      (hprint : c.printing.run see = .print text) : Ends c see (.save path text)

theorem action_printing (c : Lint) : c.printing.action = c.action.printing := rfl

section

variable {cfg : Config} {name text : String} {out : Option String} {only : Bool}

/-- A command ends in one of these ways if it does on whatever it reads. -/
theorem Ends.ofExcept {answer : Config × String → Response}
    (h : ∀ input, c.input see file = .ok input → Ends c see (answer input).outcome) :
    Ends c see (Response.ofExcept ((c.input see file).map answer)).outcome := by
  cases hinput : c.input see file with
  | error why => exact .failure why
  | ok input => exact h input hinput

/-- So does one that emits a text, and prints it if no target is named. -/
theorem Ends.emit (hprint : c.printing.run see = .print text) :
    Ends c see (Response.emit c.target? text).outcome := by
  cases htarget : c.target? with
  | none => exact .success htarget
  | some path => exact .save htarget hprint

theorem ends_check {form : OutputFormat} (htarget : c.target? = none) :
    Ends c see (check cfg name text form).outcome := by
  rw [outcome_check]
  dsimp only
  split
  · exact .success htarget
  · exact .failure _

theorem ends_format (haction : c.action = .format file out only)
    (hprint : c.printing.run see = format cfg name text none only) :
    Ends c see (format cfg name text out only).outcome := by
  unfold format at hprint ⊢
  cases hformatted : Formatted.ofSource cfg text with
  | error e => exact .failure _
  | ok formatted =>
    rw [hformatted] at hprint
    cases only with
    | false =>
      have htarget : c.target? = out := by simp [target?, haction, LintAction.target?]
      rw [← htarget]
      exact .emit hprint
    | true =>
      have htarget : c.target? = none := by simp [target?, haction, LintAction.target?]
      dsimp only
      rw [if_neg (by decide)]
      split
      · exact .failure _
      · exact .success htarget

end

/-- **Endings.** A command ends in one of these ways, whatever it sees. -/
theorem ends_run (c : Lint) (see : Surroundings) : Ends c see (c.run see).outcome := by
  cases haction : c.action with
  | check file form =>
    rw [run_check haction]
    refine .ofExcept fun input _ => ends_check ?_
    simp [target?, haction, LintAction.target?]
  | format file out only =>
    have hprinting : c.printing.action = .format file none only := by
      rw [action_printing, haction, LintAction.printing]
    rw [run_format haction]
    refine .ofExcept fun input hinput => ends_format haction ?_
    rw [run_format hprinting, show c.printing.input see file = .ok input from hinput]
    rfl
  | dump file out =>
    have hprinting : c.printing.action = .dump file none := by
      rw [action_printing, haction, LintAction.printing]
    have htarget : c.target? = out := by simp [target?, haction, LintAction.target?]
    rw [run_dump haction, ← htarget]
    refine .ofExcept fun input hinput => .emit ?_
    rw [run_dump hprinting, show c.printing.input see file = .ok input from hinput]
    rfl
  | mnemonics categories form =>
    have htarget : c.target? = none := by simp [target?, haction, LintAction.target?]
    unfold run
    rw [haction]
    cases see.config "invalid config" c.config c.caseInsensitive c.collapseSpaces with
    | error why => exact .failure why
    | ok cfg => cases form <;> exact .success htarget

/-- A command succeeds without a target, or with one that has been written. -/
theorem success_cases {d : Directory} (hcode : ((c.run see).settle d).exitCode = 0) :
    (c.target? = none ∧ (c.run see).outcome = .success) ∨
      ∃ path text, c.target? = some path ∧ c.printing.run see = .print text ∧
        (c.run see).outcome = .save path text ∧
        d.write path text.toUTF8 = .ok ((c.run see).settle d).directory := by
  have hends := ends_run c see
  cases houtcome : (c.run see).outcome with
  | failure why =>
    rw [Response.exitCode_settle_of_failure houtcome] at hcode
    cases hcode
  | success =>
    rw [houtcome] at hends
    cases hends with
    | success hnone => exact .inl ⟨hnone, rfl⟩
  | save path text =>
    rw [houtcome] at hends
    cases hends with
    | save htarget hprint =>
      have hwrite := Response.write_of_exitCode_settle houtcome hcode
      exact .inr ⟨path, text, htarget, hprint, rfl, hwrite⟩

end Lint

end MixAsm.Command
