import MixAsm.Proofs.Command.Words
import MixAsm.Proofs.Program.Formatting
import MixAsm.Proofs.Program.Validity

namespace MixAsm.Command

/-!
# The linter's commands agree

To check a file and to format it is to read the same configuration and the same text, and both
succeed exactly if every line that is read is an instruction. A file that was written by formatting
holds a canonical text. So it passes a check, and is found to be in canonical form.

* `Settings.Accepts` — what a check and a formatting succeed on;
* `Settings.check_eq_success_iff`, `Settings.format_eq_success_iff` — that they do;
* `Settings.write_of_format` — a formatting that writes to a file;
* `Settings.reads_of_write`, `Settings.source_of_write` — what is read once the file is written;
* `Settings.execute_agree` — command lines.
-/

variable {cfg : Config} {text out : String}

/-! ### Endings -/

/-- How a response ends decides on the exit code. -/
theorem Response.exitCode_settle_congr {r r' : Response} (h : r.outcome = r'.outcome)
    (d : Directory) : (r.settle d).exitCode = (r'.settle d).exitCode := by
  unfold settle
  rw [h]
  split
  · rfl
  · rfl
  · split <;> rfl

namespace Lint

variable {name : String} {form : OutputFormat}

theorem outcome_check_eq_success_iff :
    (check cfg name text form).outcome = .success ↔ (Program.parse cfg text).errors = [] := by
  have hcount : ((Program.parse cfg text).diagnostics name).length = 0 ↔
      (Program.parse cfg text).errors = [] := by
    rw [List.length_eq_zero_iff, Program.diagnostics_eq_nil_iff]
  rw [outcome_check, ← hcount]
  dsimp only
  split <;> simp_all

theorem outcome_format_eq_success_iff :
    (format cfg name text none false).outcome = .success ↔
      (Program.parse cfg text).errors = [] := by
  rw [← Program.exists_ofSource_eq_ok_iff, format]
  cases Formatted.ofSource cfg text <;> simp [Response.fail, Response.emit, Response.print]

theorem outcome_format_eq_save_iff {target path : String} :
    (format cfg name text (some target) false).outcome = .save path out ↔
      target = path ∧ (Program.parse cfg text).render = .ok out := by
  rw [format, Formatted.ofSource]
  cases (Program.parse cfg text).render <;> simp [Except.map, Response.fail, Response.emit]

theorem outcome_only_eq_success_iff {target : Option String} :
    (format cfg name text target true).outcome = .success ↔
      (Program.parse cfg text).render = .ok text := by
  rw [format, Formatted.ofSource]
  cases (Program.parse cfg text).render with
  | error e => simp [Except.map, Response.fail]
  | ok out => by_cases h : out = text <;> simp [Except.map, Response.fail, Response.print, h]

/-- A command without a target succeeds in the one way that there is. -/
theorem exitCode_eq_zero_iff {c : Lint} {see : Surroundings} (h : c.target? = none)
    (d : Directory) : ((c.run see).settle d).exitCode = 0 ↔ (c.run see).outcome = .success := by
  refine ⟨fun hcode => ?_, fun hsuccess => by rw [Response.settle_of_success hsuccess]⟩
  rcases success_cases hcode with ⟨-, hsuccess⟩ | ⟨path, text, htarget, -⟩
  · exact hsuccess
  · rw [h] at htarget
    cases htarget

end Lint

namespace Settings

variable {s : Settings} {see : Surroundings} {d after : Directory} {stdin stdin' : ByteArray}
  {file path : String} {form : OutputFormat}

/-! ### Success -/

/-- The configuration can be read. -/
def Reads (s : Settings) (see : Surroundings) (cfg : Config) : Prop :=
  see.config "invalid config" s.config s.caseInsensitive s.collapseSpaces = .ok cfg

/-- The configuration and the text can be read, and every line that is read is an instruction. -/
def Accepts (s : Settings) (see : Surroundings) (file : String) : Prop :=
  ∃ cfg text, s.Reads see cfg ∧ see.source file = .ok text ∧ (Program.parse cfg text).errors = []

/-- A command that answers on its input ends in a way that is no failure if it can read the input
    and its answer ends that way. -/
theorem outcome_eq_iff {action : LintAction} {answer : Config × String → Response}
    {outcome : Outcome} (h : ∀ why, Outcome.failure why ≠ outcome) :
    (Response.ofExcept (((s.command action).input see file).map answer)).outcome = outcome ↔
      ∃ cfg text, s.Reads see cfg ∧ see.source file = .ok text ∧
        (answer (cfg, text)).outcome = outcome := by
  have hinput : ∀ cfg text, (s.command action).input see file = .ok (cfg, text) ↔
      s.Reads see cfg ∧ see.source file = .ok text := fun cfg text => Lint.input_eq_ok_iff
  simp only [← and_assoc, ← hinput]
  cases (s.command action).input see file with
  | error why => simp [Response.ofExcept, Except.map, Response.fail, h]
  | ok input =>
    obtain ⟨cfg, text⟩ := input
    simp [Response.ofExcept, Except.map]

theorem check_eq_success_iff :
    ((s.command (.check file form)).run see).outcome = .success ↔ s.Accepts see file := by
  rw [Lint.run_check rfl, outcome_eq_iff (by simp)]
  simp only [Lint.outcome_check_eq_success_iff, Accepts]

/-- How a check ends does not depend on the form of the answer. -/
theorem outcome_check_congr {form' : OutputFormat} :
    ((s.command (.check file form)).run see).outcome
      = ((s.command (.check file form')).run see).outcome := by
  have hinput : (s.command (.check file form')).input see file
      = (s.command (.check file form)).input see file := rfl
  rw [Lint.run_check rfl, Lint.run_check rfl, hinput]
  cases (s.command (.check file form)).input see file with
  | error why => rfl
  | ok input =>
    obtain ⟨cfg, text⟩ := input
    show (Lint.check cfg (displayName file) text form).outcome
      = (Lint.check cfg (displayName file) text form').outcome
    rw [Lint.outcome_check, Lint.outcome_check]

theorem format_eq_success_iff :
    ((s.command (.format file none false)).run see).outcome = .success ↔ s.Accepts see file := by
  rw [Lint.run_format rfl, outcome_eq_iff (by simp)]
  simp only [Lint.outcome_format_eq_success_iff, Accepts]

theorem only_eq_success_iff {target : Option String} :
    ((s.command (.format file target true)).run see).outcome = .success ↔
      ∃ cfg text, s.Reads see cfg ∧ see.source file = .ok text ∧
        (Program.parse cfg text).render = .ok text := by
  rw [Lint.run_format rfl, outcome_eq_iff (by simp)]
  simp only [Lint.outcome_only_eq_success_iff]

/-! ### Formatting into a file -/

theorem format_eq_save_iff {target : String} :
    ((s.command (.format file (some target) false)).run see).outcome = .save path out ↔
      ∃ cfg text, s.Reads see cfg ∧ see.source file = .ok text ∧
        target = path ∧ (Program.parse cfg text).render = .ok out := by
  rw [Lint.run_format rfl, outcome_eq_iff (by simp)]
  simp only [Lint.outcome_format_eq_save_iff]

/-- A formatting that succeeds at writing has written the canonical text of its input. -/
theorem write_of_format
    (hcode : (((s.command (.format file (some path) false)).run see).settle d).exitCode = 0) :
    ∃ cfg text out, s.Reads see cfg ∧ see.source file = .ok text ∧
      (Program.parse cfg text).render = .ok out ∧
      d.write path out.toUTF8
        = .ok (((s.command (.format file (some path) false)).run see).settle d).directory := by
  rcases Lint.success_cases hcode with ⟨hnone, -⟩ | ⟨target, out, htarget, -, hsave, hwrite⟩
  · cases hnone
  · obtain ⟨cfg, text, hcfg, htext, rfl, hrender⟩ := format_eq_save_iff.mp hsave
    exact ⟨cfg, text, out, hcfg, htext, hrender, hwrite⟩

/-- Once a file is written that does not hold the configuration, the configuration is read as
    before. -/
theorem reads_of_write {contents : ByteArray} (hwrite : d.write path contents = .ok after)
    (hconfig : ∀ config ∈ s.config, d.locate config ≠ d.locate path)
    (hcfg : s.Reads (d.surroundings stdin) cfg) : s.Reads (after.surroundings stdin') cfg := by
  refine Surroundings.config_of_text (fun config hmem text htext => ?_) hcfg
  exact Surroundings.text_of_write_of_ne hwrite (hconfig config hmem) htext

/-- A file that is written is read as what was written. -/
theorem source_of_write (hwrite : d.write path text.toUTF8 = .ok after) (hpath : path ≠ stdinPath) :
    (after.surroundings stdin).source path = .ok text := by
  rw [Surroundings.source, if_neg hpath]
  exact Surroundings.text_of_write hwrite

/-! ### Command lines -/

/-- The words are a command line that asks for the action under the settings. -/
def Asks (s : Settings) (action : LintAction) (words : List String) : Prop :=
  Lint.ofWords? words = some (s.command action)

instance (s : Settings) (action : LintAction) (words : List String) :
    Decidable (s.Asks action words) := inferInstanceAs (Decidable (_ = _))

theorem exitCode_of_asks {action : LintAction} {words : List String} (h : s.Asks action words)
    (htarget : action.target? = none) (d : Directory) (stdin : ByteArray) :
    (Lint.execute words d stdin).exitCode = 0 ↔
      ((s.command action).run (d.surroundings stdin)).outcome = .success := by
  have hcommand : (s.command action).target? = none := htarget
  rw [Lint.execute_of_some h]
  exact Lint.exitCode_eq_zero_iff hcommand d

/-- **Agreement.** Under the same settings, and in the same directory: to format a file succeeds
    exactly if to check it does. The code of a check does not depend on the form of the answer. And
    where formatting into a file succeeds, be it the same file or another, that file passes a check
    afterwards and is found to be in canonical form. It must not be the one that holds the
    configuration, nor have the name that stands for the standard input. -/
theorem execute_agree (s : Settings) (file : String) (d : Directory) (stdin : ByteArray) :
    (∀ fmt check form, s.Asks (.format file none false) fmt → s.Asks (.check file form) check →
      ((Lint.execute fmt d stdin).exitCode = 0 ↔ (Lint.execute check d stdin).exitCode = 0)) ∧
    (∀ check check' form form', s.Asks (.check file form) check → s.Asks (.check file form') check' →
      (Lint.execute check d stdin).exitCode = (Lint.execute check' d stdin).exitCode) ∧
    ∀ fmt path, s.Asks (.format file (some path) false) fmt → path ≠ stdinPath →
      (∀ config ∈ s.config, d.locate config ≠ d.locate path) →
      (Lint.execute fmt d stdin).exitCode = 0 →
      ∀ again stdin', (∃ form, s.Asks (.check path form) again) ∨
          (∃ target, s.Asks (.format path target true) again) →
        (Lint.execute again (Lint.execute fmt d stdin).directory stdin').exitCode = 0 := by
  refine ⟨fun fmt check form hfmt hcheck => ?_, fun check check' form form' hcheck hcheck' => ?_,
    fun fmt path hfmt hpath hconfig hcode again stdin' hagain => ?_⟩
  · rw [exitCode_of_asks hfmt rfl, exitCode_of_asks hcheck rfl, format_eq_success_iff,
      check_eq_success_iff]
  · rw [Lint.execute_of_some hcheck, Lint.execute_of_some hcheck']
    exact Response.exitCode_settle_congr outcome_check_congr d
  · -- the run is taken apart for what it has written, so the directory that it left gets a name
    rw [Lint.execute_of_some hfmt] at hcode
    generalize hafter : (Lint.execute fmt d stdin).directory = after
    rw [Lint.execute_of_some hfmt] at hafter
    obtain ⟨cfg, text, out, hcfg, htext, hrender, hwrite⟩ := write_of_format hcode
    rw [hafter] at hwrite
    have hcfg' : s.Reads (after.surroundings stdin') cfg := reads_of_write hwrite hconfig hcfg
    have hsource : (after.surroundings stdin').source path = .ok out :=
      source_of_write hwrite hpath
    -- under the configuration that it was made with, a canonical text restates its program
    have hself := Program.restates_of_render hrender (Program.skipBlankLines_or_skips cfg text)
    rcases hagain with ⟨form, hagain⟩ | ⟨target, hagain⟩
    · rw [exitCode_of_asks hagain rfl, check_eq_success_iff]
      exact ⟨cfg, out, hcfg', hsource, hself.errors_eq⟩
    · rw [exitCode_of_asks hagain rfl, only_eq_success_iff]
      exact ⟨cfg, out, hcfg', hsource, hself.render_eq⟩

/-- A file that is formatted in place, where a configuration lets small letters pass. -/
theorem execute_agree_inPlace :
    let d : Directory :=
      ⟨[(["a"], "nop".toUTF8), (["c"], "\x7b\"case_insensitive\":true\x7d".toUTF8)]⟩
    let formatted := Lint.execute ["--config", "c", "fmt", "a", "--out", "a"] d .empty
    formatted.exitCode = 0 ∧
      (Lint.execute ["--config=c", "check", "a"] formatted.directory .empty).exitCode = 0 ∧
      (Lint.execute ["fmt", "--check", "a", "--config", "c"] formatted.directory .empty).exitCode
        = 0 := by
  intro d formatted
  have ha : d.locate "a" = .ok ["a"] := by decide +kernel
  have hc : d.locate "c" = .ok ["c"] := by decide +kernel
  have hconfig : (d.surroundings .empty).text "c" = .ok "\x7b\"case_insensitive\":true\x7d" := by
    have hread : (d.surroundings .empty).file? "c" = d.contents? ["c"] := by
      show d.read? "c" = _
      rw [Directory.read?, hc]
    rw [Surroundings.text, hread]
    decide +kernel
  have htext : (d.surroundings .empty).source "a" = .ok "nop" := by
    have hread : (d.surroundings .empty).file? "a" = d.contents? ["a"] := by
      show d.read? "a" = _
      rw [Directory.read?, ha]
    rw [Surroundings.source, if_neg (by decide), Surroundings.text, hread]
    decide +kernel
  have hreads : Reads ⟨some "c", false, false⟩ (d.surroundings .empty) ⟨true, false, true⟩ := by
    rw [Reads, Surroundings.config]
    dsimp only
    rw [hconfig]
    decide +kernel
  have hasks : Asks ⟨some "c", false, false⟩ (.format "a" (some "a") false)
      ["--config", "c", "fmt", "a", "--out", "a"] := by decide +kernel
  have hrender : (Program.parse ⟨true, false, true⟩ "nop").render = .ok "NOP\n" := by
    decide +kernel
  have hsave : ((command ⟨some "c", false, false⟩ (.format "a" (some "a") false)).run
      (d.surroundings .empty)).outcome = .save "a" "NOP\n" :=
    format_eq_save_iff.mpr ⟨_, _, hreads, htext, rfl, hrender⟩
  have hwrite : d.write "a" "NOP\n".toUTF8 = .ok (d.put ["a"] "NOP\n".toUTF8) :=
    Directory.write_eq_ok_iff.mpr ⟨_, ha, rfl⟩
  have hcode : formatted.exitCode = 0 := by
    show (Lint.execute _ d .empty).exitCode = 0
    rw [Lint.execute_of_some hasks, Response.settle_of_save hsave hwrite]
  have hcommands := (execute_agree ⟨some "c", false, false⟩ "a" d .empty).2.2 _ "a" hasks
    (by decide) (by simp [hc, ha]) hcode
  exact ⟨hcode, hcommands _ _ (.inl ⟨.text, by decide +kernel⟩),
    hcommands _ _ (.inr ⟨none, by decide +kernel⟩)⟩

end Settings

end MixAsm.Command
