import MixAsm.Program

namespace MixAsm

/-!
# Summaries

How many lines of a program were read, how many of them are instructions, and how many of those
belong to each category.
-/

/-- The counts of a program. A category without instructions is left out. -/
structure Summary where
  lines : Nat
  instructions : Nat
  errors : Nat
  byCategory : List (Category × Nat)
  deriving DecidableEq, Repr

namespace Summary

/-- The categories that have a count, with it. -/
def entries (count : Category → Nat) : List (Category × Nat) :=
  (Category.all.map fun c => (c, count c)).filter (0 < ·.2)

/-- The count of a category. One without an entry has none. -/
def count (s : Summary) (c : Category) : Nat := (s.byCategory.lookup c).getD 0

/-- One more instruction is counted, with its category. -/
def addInstruction (s : Summary) (ins : Instruction) : Summary :=
  { s with
    instructions := s.instructions + 1
    byCategory := entries fun c => s.count c + if ins.category = c then 1 else 0 }

end Summary

/-- The counts of the program. Its instructions are counted one by one, and the lines that are left
    are errors. -/
def Program.summary (p : Program) : Summary :=
  let start : Summary := ⟨p.lines.length, 0, 0, []⟩
  let counted := p.instructions.foldl (fun s x => s.addInstruction x.2) start
  { counted with errors := counted.lines - counted.instructions }

end MixAsm
