import MixAsm.Mnemonic

namespace MixAsm

/-!
# Listing the table

The opcodes of some categories, category by category, and within each in the order of their names.
-/

/-- A set of categories, with one bit for each. -/
structure CategorySet where
  bits : BitVec 4
  deriving DecidableEq, Repr

/-- The bit that stands for a category. -/
def Category.bit : Category → BitVec 4
  | onlyName => 1
  | field => 2
  | nonField => 4
  | arg => 8

namespace CategorySet

/-- The set of the categories in a list. -/
def ofList (cs : List Category) : CategorySet := ⟨cs.foldl (fun bits c => bits ||| c.bit) 0⟩

/-- The set of all categories. -/
def full : CategorySet := ofList Category.all

/-- Is the category in the set? -/
def contains (s : CategorySet) (c : Category) : Bool := s.bits &&& c.bit ≠ 0

/-- A category is in the set of a list exactly if it is in the list. -/
theorem contains_ofList (cs : List Category) (c : Category) :
    (ofList cs).contains c = true ↔ c ∈ cs := by
  have bit_and (d : Category) : d.bit &&& c.bit ≠ 0 ↔ c = d := by
    cases c <;> cases d <;> decide
  have step (cs : List Category) (bits : BitVec 4) :
      cs.foldl (fun bits c => bits ||| c.bit) bits &&& c.bit ≠ 0
        ↔ bits &&& c.bit ≠ 0 ∨ c ∈ cs := by
    induction cs generalizing bits with
    | nil => simp
    | cons d ds ih =>
      have split : (bits ||| d.bit) &&& c.bit ≠ 0
          ↔ bits &&& c.bit ≠ 0 ∨ d.bit &&& c.bit ≠ 0 := by
        revert bits
        cases c <;> cases d <;> decide
      rw [List.foldl_cons, ih, split, bit_and, List.mem_cons, or_assoc]
  rw [contains, decide_eq_true_eq]
  simpa [ofList] using step cs 0

end CategorySet

namespace Mnemonic

/-- The opcodes of a category, in the order of their names. -/
def sorted (c : Category) : List Mnemonic :=
  (all.filter (·.category = c)).mergeSort fun a b => decide (a.name ≤ b.name)

/-- The opcodes of the categories in a set. -/
def listing (s : CategorySet) : List Mnemonic :=
  (Category.all.filter s.contains).flatMap sorted

end Mnemonic

end MixAsm
