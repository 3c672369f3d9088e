import MixAsm.Register

namespace MixAsm

/-!
# Opcodes

The operations of the closed table, grouped by what may follow them on a line: nothing
(`NameOp`), an address and index with an optional field specification (`FieldOp`), an address and
index alone (`NonFieldOp`), or an address and index with an optional argument (`ArgOp`).

Each type has `all`, its values in table order, and `spelling`, the letters that write a value.
The spellings are lists of characters, so that closed facts about the whole table evaluate.
-/

/-- What a store writes to memory: a register, the jump register or zero. -/
inductive StoreSource
  | register (r : Register)
  | jump
  | zero
  deriving DecidableEq, Repr

/-- The letters that name a store's source. -/
def StoreSource.spelling : StoreSource → List Char
  | register r => [r.symbol]
  | jump => ['J']
  | zero => ['Z']

/-- A test of a register's sign, for the jumps that look at one register. -/
inductive SignTest
  | negative | zero | positive | nonNegative | nonZero | nonPositive
  deriving DecidableEq, Repr

namespace SignTest

/-- Every sign test, in table order. -/
def all : List SignTest := [negative, zero, positive, nonNegative, nonZero, nonPositive]

/-- The letters that end a jump on a register. -/
def spelling : SignTest → List Char
  | negative => ['N']
  | zero => ['Z']
  | positive => ['P']
  | nonNegative => ['N', 'N']
  | nonZero => ['N', 'Z']
  | nonPositive => ['N', 'P']

/-- Every sign test is listed. -/
theorem mem_all (t : SignTest) : t ∈ all := by cases t <;> decide

end SignTest

/-- When a jump is taken. -/
inductive JumpCondition
  | always | saveJ | overflow | noOverflow
  | less | lessOrEqual | greater | greaterOrEqual | equal | notEqual
  | register (r : Register) (t : SignTest)
  deriving DecidableEq, Repr

namespace JumpCondition

/-- The conditions that look at no register, in table order. -/
def plain : List JumpCondition :=
  [always, saveJ, overflow, noOverflow, less, lessOrEqual, greater, greaterOrEqual, equal, notEqual]

/-- Every jump condition, in table order. -/
def all : List JumpCondition :=
  plain ++ Register.all.flatMap fun r => SignTest.all.map (register r)

/-- The letters after the `J` of a jump. -/
def spelling : JumpCondition → List Char
  | always => ['M', 'P']
  | saveJ => ['S', 'J']
  | overflow => ['O', 'V']
  | noOverflow => ['N', 'O', 'V']
  | less => ['L']
  | lessOrEqual => ['L', 'E']
  | greater => ['G']
  | greaterOrEqual => ['G', 'E']
  | equal => ['E']
  | notEqual => ['N', 'E']
  | register r t => r.symbol :: t.spelling

/-- Every jump condition is listed. -/
theorem mem_all (c : JumpCondition) : c ∈ all := by
  cases c with
  | register r t => simp [all, Register.mem_all, SignTest.mem_all]
  | _ => decide

end JumpCondition

/-- A shift of the accumulator, or of accumulator and extension together. -/
inductive Shift
  | sla | sra | slax | srax | slc | src
  deriving DecidableEq, Repr

namespace Shift

/-- Every shift, in table order. -/
def all : List Shift := [sla, sra, slax, srax, slc, src]

/-- The letters that name a shift. -/
def spelling : Shift → List Char
  | sla => ['S', 'L', 'A']
  | sra => ['S', 'R', 'A']
  | slax => ['S', 'L', 'A', 'X']
  | srax => ['S', 'R', 'A', 'X']
  | slc => ['S', 'L', 'C']
  | src => ['S', 'R', 'C']

/-- Every shift is listed. -/
theorem mem_all (s : Shift) : s ∈ all := by cases s <;> decide

end Shift

/-- An opcode that stands alone on its line. -/
inductive NameOp
  | nop | halt | num | char
  deriving DecidableEq, Repr

namespace NameOp

/-- Every opcode that stands alone, in table order. -/
def all : List NameOp := [nop, halt, num, char]

/-- The letters that name the opcode. -/
def spelling : NameOp → List Char
  | nop => ['N', 'O', 'P']
  | halt => ['H', 'A', 'L', 'T']
  | num => ['N', 'U', 'M']
  | char => ['C', 'H', 'A', 'R']

/-- Every opcode that stands alone is listed. -/
theorem mem_all (op : NameOp) : op ∈ all := by cases op <;> decide

end NameOp

/-- An opcode with an address, an index and an optional field specification. -/
inductive FieldOp
  | load (register : Register) (negate : Bool)
  | store (source : StoreSource)
  | add | sub | mul | div
  | compare (register : Register)
  deriving DecidableEq, Repr

namespace FieldOp

/-- Every opcode with a field specification, in table order. -/
def all : List FieldOp :=
  (Register.all.flatMap fun r => [load r false, load r true])
    ++ Register.all.map (fun r => store (.register r))
    ++ [store .jump, store .zero, add, sub, mul, div]
    ++ Register.all.map compare

/-- The letters that name the opcode. -/
def spelling : FieldOp → List Char
  | load r false => ['L', 'D', r.symbol]
  | load r true => ['L', 'D', r.symbol, 'N']
  | store s => 'S' :: 'T' :: s.spelling
  | add => ['A', 'D', 'D']
  | sub => ['S', 'U', 'B']
  | mul => ['M', 'U', 'L']
  | div => ['D', 'I', 'V']
  | compare r => ['C', 'M', 'P', r.symbol]

/-- Every opcode with a field specification is listed. -/
theorem mem_all (op : FieldOp) : op ∈ all := by
  cases op with
  | load r n => cases n <;> simp [all, Register.mem_all]
  | store s => cases s <;> simp [all, Register.mem_all]
  | compare r => simp [all, Register.mem_all]
  | _ => decide

end FieldOp

/-- An opcode with an address and an index and nothing after them. -/
inductive NonFieldOp
  | jump (condition : JumpCondition)
  | enter (register : Register) (negate : Bool)
  | increment (register : Register)
  | decrement (register : Register)
  | shift (s : Shift)
  deriving DecidableEq, Repr

namespace NonFieldOp

/-- Every opcode without a trailing group, in table order. -/
def all : List NonFieldOp :=
  JumpCondition.all.map jump
    ++ (Register.all.flatMap fun r => [enter r false, enter r true, increment r, decrement r])
    ++ Shift.all.map shift

/-- The letters that name the opcode. -/
def spelling : NonFieldOp → List Char
  | jump c => 'J' :: c.spelling
  | enter r false => ['E', 'N', 'T', r.symbol]
  | enter r true => ['E', 'N', 'N', r.symbol]
  | increment r => ['I', 'N', 'C', r.symbol]
  | decrement r => ['D', 'E', 'C', r.symbol]
  | shift s => s.spelling

/-- Every opcode without a trailing group is listed. -/
theorem mem_all (op : NonFieldOp) : op ∈ all := by
  cases op with
  | jump c => simp [all, JumpCondition.mem_all]
  | enter r n => cases n <;> simp [all, Register.mem_all]
  | increment r => simp [all, Register.mem_all]
  | decrement r => simp [all, Register.mem_all]
  | shift s => simp [all, Shift.mem_all]

end NonFieldOp

/-- An opcode with an address, an index and an optional argument. -/
inductive ArgOp
  | input | output | ioControl | jumpReady | jumpBusy | move
  deriving DecidableEq, Repr

namespace ArgOp

/-- Every opcode with an argument, in table order. -/
def all : List ArgOp := [input, output, ioControl, jumpReady, jumpBusy, move]

/-- The letters that name the opcode. -/
def spelling : ArgOp → List Char
  | input => ['I', 'N']
  | output => ['O', 'U', 'T']
  | ioControl => ['I', 'O', 'C']
  | jumpReady => ['J', 'R', 'E', 'D']
  | jumpBusy => ['J', 'B', 'U', 'S']
  | move => ['M', 'O', 'V', 'E']

/-- Every opcode with an argument is listed. -/
theorem mem_all (op : ArgOp) : op ∈ all := by cases op <;> decide

end ArgOp

end MixAsm
