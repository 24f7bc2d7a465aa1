import TraceGraph.Instruction
import TraceGraph.Text.Numerals

/-!
# Looking instructions up

A graph does not hold its instructions. A node refers to one by its address and its mutation
and asks a `Lookup` for it, which is the reading side of a store of either kind.

A lookup has three answers, and none of them can be taken for another: the instruction, that
the pair was never recorded, and that the store could not be read. The last is a
`StoreFailure`, whose text says what went wrong; if a value is damaged it names the address
of the value.

`Block.bind?` turns a reference into the block of a node. A store can be damaged in such a
way that it hands back an instruction of another address; then there is no block. The
mutation of the block is the one that was asked for, whatever the instruction claims, and so
the reference is preserved when the node is saved again (`of_bind?_eq_some`).
-/

namespace TraceGraph

/-- The store behind a lookup could not be read. -/
structure StoreFailure where
  reason : String
deriving DecidableEq, Repr

namespace StoreFailure

/-- What a message says of the failure. -/
def message (failure : StoreFailure) : String :=
  "disassembly store failure: " ++ failure.reason

/-- The value stored under an address could not be read. -/
def unreadable (address : UInt64) (reason : String) : StoreFailure :=
  ⟨"read " ++ Hexadecimal.address address ++ ": " ++ reason⟩

/-- The value stored under an address is no list of instructions. -/
def undecodable (address : UInt64) : StoreFailure :=
  ⟨"decode " ++ Hexadecimal.address address⟩

end StoreFailure

/-- The reading side of a disassembly store. -/
structure Lookup where
  /-- The instruction recorded at an address as its given mutation. -/
  resolve : (address : UInt64) → (mutation : UInt32) → Except StoreFailure (Option Instruction)
  /-- How many instructions are recorded at an address. -/
  mutationCount : (address : UInt64) → Except StoreFailure Nat

namespace Lookup

/-- Fails every question for the same reason. -/
def failing (reason : String) : Lookup where
  resolve _ _ := .error ⟨reason⟩
  mutationCount _ := .error ⟨reason⟩

end Lookup

/-- An instruction as a node holds it, with the mutation under which the node refers to it. -/
structure Block where
  mutation : UInt32
  instruction : Instruction
deriving DecidableEq, Repr

namespace Block

/-- The block of an instruction that a store handed out. -/
def ofInstruction (instruction : Instruction) : Block := ⟨instruction.mutation, instruction⟩

/-- The block for a reference: `none` if nothing is recorded there or if what the lookup hands back
claims another address. -/
def bind? (lookup : Lookup) (address : UInt64) (mutation : UInt32) :
    Except StoreFailure (Option Block) :=
  match lookup.resolve address mutation with
  | .error failure => .error failure
  | .ok none => .ok none
  | .ok (some instruction) =>
    if instruction.address = address then .ok (some ⟨mutation, instruction⟩) else .ok none

/-- An instruction of the asked address makes a block. -/
theorem bind?_of_resolve {lookup : Lookup} {address : UInt64} {mutation : UInt32}
    {instruction : Instruction} (h : lookup.resolve address mutation = .ok (some instruction))
    (ha : instruction.address = address) :
    bind? lookup address mutation = .ok (some ⟨mutation, instruction⟩) := by
  rw [bind?, h]
  exact if_pos ha

/-- A bound block refers to the asked mutation and holds an instruction of the asked address. -/
theorem of_bind?_eq_some {lookup : Lookup} {address : UInt64} {mutation : UInt32} {block : Block}
    (h : bind? lookup address mutation = .ok (some block)) :
    block.mutation = mutation ∧ block.instruction.address = address := by
  rw [bind?] at h
  split at h
  · cases h
  · cases h
  · split at h
    next ha => cases h; exact ⟨rfl, ha⟩
    next => cases h

end Block

end TraceGraph
