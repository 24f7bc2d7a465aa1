import TraceGraph.FiniteMap
import TraceGraph.Disassembly

/-!
# Instructions in memory

The store that a running trace fills: at each address the list of the instructions recorded
there, oldest first.

A record appends the instruction to the list of its address and hands it out with its place
in the list as its mutation. Nothing is ever removed or replaced, so the place of an
instruction is its mutation for good, and a mutation that was handed out is resolved to the
same instruction from then on.

The places are counted in 32 bits. A mutation is the place modulo 2³², which matters only to
statements that count records; they say how many there may be.
-/

namespace TraceGraph

/-- The instructions recorded so far, by address. -/
structure MemoryStore where
  blocks : FiniteMap UInt64 (List Instruction)

namespace MemoryStore

/-- The store in which nothing was recorded. -/
def empty : MemoryStore := ⟨.empty⟩

/-- What is recorded at an address, oldest first. -/
def recordedAt (store : MemoryStore) (address : UInt64) : List Instruction :=
  (store.blocks.get? address).getD []

/-- Appends an instruction at its address and returns it with the mutation it has there. -/
def record (store : MemoryStore) (ins : Instruction) : Instruction × MemoryStore :=
  let list := store.recordedAt ins.address
  let ins := { ins with mutation := .ofNat list.length }
  (ins, ⟨store.blocks.set ins.address (list ++ [ins])⟩)

/-- The number of addresses with an instruction. -/
def addressCount (store : MemoryStore) : Nat := store.blocks.size

/-- Lookups in memory never fail. -/
def lookup (store : MemoryStore) : Lookup where
  resolve address mutation := .ok (store.recordedAt address)[mutation.toNat]?
  mutationCount address := .ok (store.recordedAt address).length

end MemoryStore

end TraceGraph
