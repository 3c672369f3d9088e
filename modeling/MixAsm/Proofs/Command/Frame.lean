import MixAsm.Proofs.Command.Words

namespace MixAsm.Command

/-!
# No half results

The linter touches one file at most, and as its last act. A run that fails leaves the directory as
it was. A run that succeeds leaves every file as it was but the one that the command line names for
the output, and that one holds what the command line prints without the name.

* `Directory.Updated` — two directories that differ in one file at most;
* `Lint.settle_run` — what a command leaves behind;
* `Lint.execute_frame` — what a command line leaves behind.
-/

/-- The second directory holds the contents at the place, and the files of the first one at all
    other places. -/
structure Directory.Updated (d after : Directory) (place : Location) (contents : ByteArray) :
    Prop where
  contents?_eq : after.contents? place = some contents
  contents?_eq_of_ne : ∀ other, other ≠ place → after.contents? other = d.contents? other

/-- Writing a file updates the directory at the place that the path names. -/
theorem Directory.updated_of_write {d after : Directory} {path : String} {contents : ByteArray}
    (h : d.write path contents = .ok after) :
    ∃ place, d.locate path = .ok place ∧ Updated d after place contents := by
  obtain ⟨place, hplace, rfl⟩ := write_eq_ok_iff.mp h
  exact ⟨place, hplace, contents?_put d place contents,
    fun other hother => contents?_put_of_ne d contents hother⟩

namespace Lint

variable {c : Lint} {words : List String} {d : Directory} {stdin : ByteArray}

/-- A command that succeeds leaves the directory as it was if it has no target. If it has one, the
    target holds what the command prints without it, and nothing else has changed. -/
theorem settle_run (hcode : ((c.run (d.surroundings stdin)).settle d).exitCode = 0) :
    let after := ((c.run (d.surroundings stdin)).settle d).directory
    (c.target? = none → after = d) ∧
      ∀ path, c.target? = some path → ∃ place text, d.locate path = .ok place ∧
        c.printing.run (d.surroundings stdin) = .print text ∧
        d.Updated after place text.toUTF8 := by
  rcases success_cases hcode with ⟨hnone, hsuccess⟩ | ⟨path, text, htarget, hprint, -, hwrite⟩
  · refine ⟨fun _ => by rw [Response.settle_of_success hsuccess], fun path htarget => ?_⟩
    rw [hnone] at htarget
    cases htarget
  · obtain ⟨place, hplace, hupdated⟩ := Directory.updated_of_write hwrite
    refine ⟨fun hnone => ?_, fun path' htarget' => ?_⟩
    · rw [htarget] at hnone
      cases hnone
    · rw [htarget] at htarget'
      cases htarget'
      exact ⟨place, text, hplace, hprint, hupdated⟩

/-- **Frame.** A command line that fails leaves the directory as it was. One that succeeds makes up
    a command. If the command has no target, the directory is as it was; if it has one, this is the
    only file that is created or changed, and holds the text that the same command line prints to
    succeed without the option that names the target. -/
theorem execute_frame (words : List String) (d : Directory) (stdin : ByteArray) :
    let finished := execute words d stdin
    (finished.exitCode ≠ 0 → finished.directory = d) ∧
      (finished.exitCode = 0 → ∃ c, ofWords? words = some c ∧
        (c.target? = none → finished.directory = d) ∧
        ∀ path, c.target? = some path → ∃ words' place, Without "--out" path words words' ∧
          ofWords? words' = some c.printing ∧ (execute words' d stdin).exitCode = 0 ∧
          d.locate path = .ok place ∧
          d.Updated finished.directory place (execute words' d stdin).stdout.toUTF8) := by
  intro finished
  cases hwords : ofWords? words with
  | none =>
    have hfinished : finished = .misused usage d := execute_of_none hwords d stdin
    rw [hfinished]
    exact ⟨fun _ => rfl, fun hcode => by cases hcode⟩
  | some c =>
    have hfinished : finished = (c.run (d.surroundings stdin)).settle d := by
      exact execute_of_some hwords d stdin
    rw [hfinished]
    refine ⟨Response.directory_settle, fun hcode => ⟨c, rfl, ?_⟩⟩
    obtain ⟨hnone, hsome⟩ := settle_run hcode
    refine ⟨hnone, fun path htarget => ?_⟩
    obtain ⟨place, text, hplace, hprint, hupdated⟩ := hsome path htarget
    obtain ⟨words', hwithout, hwords'⟩ := exists_without hwords htarget
    have hprinted : execute words' d stdin = ⟨0, text, "", d⟩ := by
      rw [execute_of_some hwords' d stdin, hprint]
      rfl
    refine ⟨words', place, hwithout, hwords', ?_, hplace, ?_⟩
    · rw [hprinted]
    · rw [hprinted]
      exact hupdated

end Lint

end MixAsm.Command
