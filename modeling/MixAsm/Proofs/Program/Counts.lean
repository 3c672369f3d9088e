import Mathlib.Tactic.ByContra
import MixAsm.Program.Summary

namespace MixAsm

/-!
# Counting the instructions of a program

The counts of a program are kept while its instructions are gone through. At the end the entry of a
category is the number of instructions of the category, if there are any.

* `Summary.mem_entries_iff`, `Summary.getD_lookup_entries` — entries, and what is found among them;
* `Summary.addInstruction_entries`, `Summary.foldl_addInstruction` — one instruction, and all of
  them;
* `Program.summary_eq` — the counts of a program.
-/

namespace Summary

/-! ### Entries -/

section

variable {count : Category → Nat} {c : Category} {n : Nat}

theorem mem_entries_iff : (c, n) ∈ entries count ↔ n = count c ∧ 0 < n := by
  unfold entries
  rw [List.mem_filter, List.mem_map]
  constructor
  · rintro ⟨⟨d, -, h⟩, hpos⟩
    obtain ⟨rfl, rfl⟩ := Prod.mk.inj h
    exact ⟨rfl, of_decide_eq_true hpos⟩
  · rintro ⟨rfl, hpos⟩
    exact ⟨⟨c, c.mem_all, rfl⟩, decide_eq_true hpos⟩

/-- The entries stand in the order of the categories, one for a category. -/
theorem categories_entries_sublist : ((entries count).map (·.1)).Sublist Category.all := by
  have hall : ((Category.all.map fun c => (c, count c)).map (·.1)) = Category.all := by
    rw [List.map_map]
    exact List.map_id _
  rw [← hall]
  exact List.filter_sublist.map _

/-- What is found for a category is its count. -/
theorem getD_lookup_entries (count : Category → Nat) (c : Category) :
    ((entries count).lookup c).getD 0 = count c := by
  cases h : (entries count).lookup c with
  | some n =>
    obtain ⟨above, below, hentries, -⟩ := List.lookup_eq_some_iff.mp h
    have hmem : (c, n) ∈ entries count := by simp [hentries]
    exact (mem_entries_iff.mp hmem).1
  | none =>
    -- a category with a count would have an entry
    by_contra hc
    have hmem : (c, count c) ∈ entries count :=
      mem_entries_iff.mpr ⟨rfl, Nat.pos_of_ne_zero (Ne.symm hc)⟩
    simpa using List.lookup_eq_none_iff.mp h _ hmem

end

/-! ### Instructions -/

/-- **Step.** An instruction adds one to the count of its category. -/
theorem addInstruction_entries (lines instructions errors : Nat) (count : Category → Nat)
    (ins : Instruction) :
    addInstruction ⟨lines, instructions, errors, entries count⟩ ins
      = ⟨lines, instructions + 1, errors,
          entries fun c => count c + if ins.category = c then 1 else 0⟩ := by
  simp only [addInstruction, Summary.count, getD_lookup_entries]

/-- **Run.** Each category has been counted as often as there are instructions of it. -/
theorem foldl_addInstruction (lines instructions errors : Nat) (count : Category → Nat)
    (xs : List (Nat × Instruction)) :
    xs.foldl (fun (s : Summary) x => s.addInstruction x.2)
        ⟨lines, instructions, errors, entries count⟩
      = ⟨lines, instructions + xs.length, errors,
          entries fun c => count c + xs.countP (·.2.category = c)⟩ := by
  induction xs generalizing instructions count with
  | nil => rfl
  | cons x xs ih =>
    rw [List.foldl_cons, addInstruction_entries, ih, List.length_cons]
    simp only [List.countP_cons, decide_eq_true_eq]
    congr 1
    · omega
    · congr 1
      funext c
      omega

end Summary

namespace Program

/-- The number of instructions of a category. -/
def countOf (p : Program) (c : Category) : Nat := p.instructions.countP (·.2.category = c)

/-- **Counts.** The instructions of a program are counted in all and by category, and the errors are
    what is left of the lines. -/
theorem summary_eq (p : Program) :
    p.summary = ⟨p.lines.length, p.instructions.length, p.lines.length - p.instructions.length,
      Summary.entries p.countOf⟩ := by
  -- at the start no category has an entry, as with counts that are all zero
  have hcounted : p.instructions.foldl (fun (s : Summary) x => s.addInstruction x.2)
      ⟨p.lines.length, 0, 0, []⟩
        = ⟨p.lines.length, p.instructions.length, 0, Summary.entries p.countOf⟩ := by
    have hrun := Summary.foldl_addInstruction p.lines.length 0 0 (fun _ => 0) p.instructions
    simp only [Nat.zero_add] at hrun
    exact hrun
  rw [summary, hcounted]

end Program

end MixAsm
