/-!
# Instructions

One disassembled instruction block as it was seen at some point of a trace. Code that
rewrites itself shows different instructions at one address; each of them is a *mutation* of
the address.

The disassembler knows the text of an instruction and the length of its machine code. The
mutation is not among these: it is the place of the instruction among those recorded at its
address, so the store assigns it (`Instruction.decoded` leaves it zero).

Whether a block ends in a conditional jump is read off its mnemonic, when it is decoded, and
kept with it. The rule is the one that drawings go by: jumps start with `j`, and only `jmp`
is always taken.
-/

namespace TraceGraph

/-- An instruction block recorded at an address. -/
structure Instruction where
  address : UInt64
  /-- The place of this block among those recorded at its address. -/
  mutation : UInt32
  mnemonic : String
  operands : String
  /-- The length of the machine code in bytes. -/
  size : UInt8
  /-- Whether the block ends in a conditional jump. -/
  conditional : Bool
deriving DecidableEq, Repr, Inhabited

namespace Instruction

/-- Jumps start with `j`, and `jmp` is the one that is always taken. -/
def isConditionalJump (mnemonic : String) : Bool :=
  mnemonic.toList.head? = some 'j' && mnemonic ≠ "jmp"

/-- An instruction as it comes from the disassembler; its mutation is assigned when it is
recorded. -/
def decoded (address : UInt64) (mnemonic operands : String) (size : UInt8) : Instruction where
  address
  mutation := 0
  mnemonic
  operands
  size
  conditional := isConditionalJump mnemonic

end Instruction

end TraceGraph
