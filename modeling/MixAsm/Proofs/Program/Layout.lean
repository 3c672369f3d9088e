import Mathlib.Data.List.Forall2
import MixAsm.Program.Layout
import MixAsm.Proofs.Outcome
import MixAsm.Proofs.Program.Readings

namespace MixAsm

/-!
# Lines of the canonical layout

The layout of a program has one line for each line of its text: the canonical text of the
instruction that was read, or an empty line where the line was passed over. A program has a layout
exactly if every line falls into one of the two cases.

* `LaidOut` — the line that stands for a reading;
* `Program.layout_parse_eq_ok_iff` — the lines of the layout;
* `Program.render_parse_eq_ok_iff` — the text.
-/

/-- The line of a layout that stands for what reading a line gave. -/
inductive LaidOut : Option (Except ParseError Instruction) → String → Prop
  | skipped : LaidOut none ""
  | read (ins : Instruction) : LaidOut (some (.ok ins)) ins.canonical

namespace Program

variable {cfg : Config} {text : String}

/-- The layout of lines that start at the number `n`, when those from `next` on are still to be
    written: empty lines for the ones between, and a line that stands for each of the others. -/
theorem layoutFrom_linesFrom_eq_ok_iff {sourceLines next n : Nat} {ls out : List String}
    (hnext : next ≤ n) (hend : n + ls.length = sourceLines + 1) :
    layoutFrom sourceLines next (linesFrom cfg n ls) = .ok out ↔
      ∃ out', out = List.replicate (n - next) "" ++ out' ∧
        List.Forall₂ LaidOut (ls.map (reading cfg)) out' := by
  induction ls generalizing next n out with
  | nil =>
    obtain rfl : n = sourceLines + 1 := by simpa using hend
    simp [layoutFrom, eq_comm]
  | cons l ls ih =>
    have hend' : n + 1 + ls.length = sourceLines + 1 := by
      rw [← hend, List.length_cons]
      omega
    rw [List.map_cons]
    cases hread : reading cfg l with
    | none =>
      -- the empty line is not written yet, but counts as one more that is still to be written
      have hblank : List.replicate (n + 1 - next) "" = List.replicate (n - next) "" ++ [""] := by
        rw [Nat.sub_add_comm hnext, List.replicate_succ']
      rw [linesFrom_cons_of_none hread, ih (by omega) hend', hblank]
      constructor
      · rintro ⟨out', rfl, hls⟩
        exact ⟨"" :: out', by simp, .cons .skipped hls⟩
      · rintro ⟨out', rfl, hls⟩
        cases hls with
        | cons hl hls =>
          cases hl
          exact ⟨_, by simp, hls⟩
    | some r =>
      rw [linesFrom_cons_of_some hread]
      cases r with
      | error e =>
        -- no line stands for an error, and the layout stops at the first one
        simp only [layoutFrom, reduceCtorEq, false_iff, not_exists, not_and]
        rintro out' - hls
        cases hls with
        | cons hl _ => cases hl
      | ok ins =>
        -- all that was still to be written is written here, so nothing is for the rest
        simp only [layoutFrom, map_eq_ok_iff, ih (Nat.le_refl _) hend', Nat.sub_self,
          List.replicate_zero, List.nil_append]
        constructor
        · rintro ⟨_, ⟨out', rfl, hls⟩, rfl⟩
          exact ⟨_, rfl, .cons (.read ins) hls⟩
        · rintro ⟨_, rfl, hls⟩
          cases hls with
          | cons hl hls =>
            cases hl
            exact ⟨_, ⟨_, rfl, hls⟩, rfl⟩

/-- **Layout.** Some lines are the layout of a program exactly if each stands for the reading of
    the line in its place. -/
theorem layout_parse_eq_ok_iff {ls : List String} :
    (parse cfg text).layout = .ok ls ↔ List.Forall₂ LaidOut (readings cfg text) ls := by
  have hend : 1 + (Text.lines text).length = (parse cfg text).sourceLines + 1 := by
    rw [parse, Nat.add_comm]
  rw [layout, lines_parse, layoutFrom_linesFrom_eq_ok_iff (Nat.le_refl 1) hend]
  simp [readings]

/-- Every line of a layout stands for a reading. -/
theorem exists_laidOut_of_mem {rs : List (Option (Except ParseError Instruction))}
    {ls : List String} (h : List.Forall₂ LaidOut rs ls) {l : String} (hl : l ∈ ls) :
    ∃ r, LaidOut r l := by
  induction h with
  | nil => simp at hl
  | @cons r _ _ _ hhead _ ih =>
    obtain rfl | hl := List.mem_cons.mp hl
    · exact ⟨r, hhead⟩
    · exact ih hl

/-- A text is the canonical one exactly if it is made of the lines of the layout. -/
theorem render_parse_eq_ok_iff {out : String} :
    (parse cfg text).render = .ok out ↔
      ∃ ls, List.Forall₂ LaidOut (readings cfg text) ls ∧
        String.join (ls.map (· ++ "\n")) = out := by
  rw [render, map_eq_ok_iff]
  simp only [layout_parse_eq_ok_iff]

/-- No reading that a line of a layout stands for is an error. -/
theorem errorAt_of_laidOut {rs : List (Option (Except ParseError Instruction))} {ls : List String}
    (h : List.Forall₂ LaidOut rs ls) (n : Nat) : ∀ r ∈ rs, r.bind (errorAt n) = none := by
  induction h with
  | nil => simp
  | cons hl _ ih =>
    rw [List.forall_mem_cons]
    refine ⟨?_, ih⟩
    cases hl <;> rfl

/-- A program that has a canonical text has no errors. -/
theorem errors_of_render {out : String} (h : (parse cfg text).render = .ok out) :
    (parse cfg text).errors = [] := by
  obtain ⟨ls, hls, -⟩ := render_parse_eq_ok_iff.mp h
  rw [errors_parse, List.filterMap_eq_nil_iff]
  intro ⟨r, n⟩ hmem
  exact errorAt_of_laidOut hls n r (List.fst_mem_of_mem_zipIdx hmem)

end Program

end MixAsm
