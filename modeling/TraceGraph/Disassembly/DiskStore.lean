import TraceGraph.FiniteMap
import TraceGraph.Disassembly
import TraceGraph.Instruction.Stored

/-!
# Instructions on disk

The store that outlives a trace: at each address the stored value of the list of its
instructions.

A value is bytes, and every question about an address reads and decodes them
(`ValueReader.load`). It can fail in two ways: the value cannot be read, or it is no list of
instructions. In either case a lookup fails and so does a record, which leaves the value as
it is; damage is reported and never written over.

Reading is a capability of its own, `ValueReader`, because that is all that a run gets of a
store which a library keeps for it. A `DiskStore` has its values at hand, so they can always
be read (`DiskStore.load_eq`), and it is what records are made in.

A record reads the list of its address, appends the instruction with its place as its
mutation and writes the whole list again. No value but that of the address is changed.
-/

namespace TraceGraph

/-- Reads the value at an address, `none` if there is none. It may be that the value cannot be read,
and then whoever keeps the values says why. -/
abbrev ValueReader := UInt64 → Except String (Option Bytes)

namespace ValueReader

/-- What is recorded at an address, oldest first; `none` if nothing ever was. -/
def load (read : ValueReader) (address : UInt64) :
    Except StoreFailure (Option (List Instruction)) :=
  match read address with
  | .error reason => .error (.unreadable address reason)
  | .ok none => .ok none
  | .ok (some bytes) =>
    match Instruction.Stored.decode? bytes with
    | none => .error (.undecodable address)
    | some list => .ok (some list)

/-- Lookups fail on values that cannot be read or hold no list of instructions. -/
def lookup (read : ValueReader) : Lookup where
  resolve address mutation := (read.load address).map fun known =>
    (known.getD [])[mutation.toNat]?
  mutationCount address := (read.load address).map fun known => (known.getD []).length

end ValueReader

/-- The stored values, by address. -/
structure DiskStore where
  values : FiniteMap UInt64 Bytes

namespace DiskStore

/-- The store without values. -/
def empty : DiskStore := ⟨.empty⟩

/-- A store whose values are at hand can be read at every address. -/
def reader (store : DiskStore) : ValueReader := fun address => .ok (store.values.get? address)

/-- What is recorded at an address, oldest first; `none` if nothing ever was. -/
def load (store : DiskStore) (address : UInt64) : Except StoreFailure (Option (List Instruction)) :=
  store.reader.load address

/-- With the values at hand only a value that is no list makes a load fail. -/
theorem load_eq (store : DiskStore) (address : UInt64) :
    store.load address =
      match store.values.get? address with
      | none => .ok none
      | some bytes =>
        match Instruction.Stored.decode? bytes with
        | none => .error (.undecodable address)
        | some list => .ok (some list) := by
  unfold load reader ValueReader.load
  dsimp only
  cases store.values.get? address with
  | none => rfl
  | some bytes => rfl

/-- Appends an instruction at its address and returns it with the mutation it has there. -/
def record (store : DiskStore) (ins : Instruction) :
    Except StoreFailure (Instruction × DiskStore) :=
  match store.load ins.address with
  | .error failure => .error failure
  | .ok known =>
    -- behind this point nothing can fail
    let list := known.getD []
    let ins := { ins with mutation := .ofNat list.length }
    .ok (ins, ⟨store.values.set ins.address (Instruction.Stored.encode (list ++ [ins]))⟩)

/-- The number of addresses with a value. -/
def addressCount (store : DiskStore) : Nat := store.values.size

/-- Lookups fail on values that hold no list of instructions. -/
def lookup (store : DiskStore) : Lookup := store.reader.lookup

end DiskStore

end TraceGraph
