namespace MixAsm

/-!
# Registers

The registers an opcode can name: the accumulator `A`, the extension `X` and the five index
registers.

* `Register.symbol` — the character that stands for a register inside a mnemonic;
* `Register.indexNumber?` — the number of an index register.
-/

/-- A register of the machine that an opcode can name. -/
inductive Register
  | a | x | i1 | i2 | i3 | i4 | i5
  deriving DecidableEq, Repr

namespace Register

/-- Every register, in the order of the opcode table. -/
def all : List Register := [a, x, i1, i2, i3, i4, i5]

/-- The character that stands for the register inside a mnemonic. -/
def symbol : Register → Char
  | a => 'A'
  | x => 'X'
  | i1 => '1'
  | i2 => '2'
  | i3 => '3'
  | i4 => '4'
  | i5 => '5'

/-- The number of an index register; `A` and `X` have none. -/
def indexNumber? : Register → Option Nat
  | a | x => none
  | i1 => some 1
  | i2 => some 2
  | i3 => some 3
  | i4 => some 4
  | i5 => some 5

/-- Every register is listed. -/
theorem mem_all (r : Register) : r ∈ all := by cases r <;> decide

end Register

end MixAsm
