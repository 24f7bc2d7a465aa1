import TraceGraph.Instruction
import TraceGraph.Text.Utf8

/-!
# Stored instruction lists

The persistent store keeps the instructions of one address as one value: their number, then
each instruction with fixed-width little-endian numbers and texts behind their length in
bytes.

Reading goes from front to back. Each part is taken from the front and the rest is handed
on, so a value is read if each of its parts is, and what follows the last instruction is
never looked at. A text has to be UTF-8, a truth value has to be 0 or 1, and a length must
not reach beyond the end.

For each part there is one law, that what is written is read back whatever stands behind it:
`takeText?_append`, `takeOne?_append`, `takeMany?_append`, and for a whole value
`decode?_encode_append`. They need that the texts are short enough for their length fields
(`Fits`) and that the list is short enough to be counted.
-/

namespace TraceGraph.Instruction.Stored

/-- A text behind its length in bytes. -/
def encodeText (text : String) : Bytes :=
  let bytes := Utf8.encode text
  Bytes.littleEndian 8 bytes.length ++ bytes

/-- One instruction. -/
def encodeOne (ins : Instruction) : Bytes :=
  Bytes.littleEndian 8 ins.address.toNat ++ Bytes.littleEndian 4 ins.mutation.toNat ++
    encodeText ins.mnemonic ++ encodeText ins.operands ++ [ins.size, ins.conditional.toUInt8]

/-- The stored value of a list of instructions. -/
def encode (list : List Instruction) : Bytes :=
  Bytes.littleEndian 8 list.length ++ list.flatMap encodeOne

/-- Reads a text from the front. -/
def takeText? (bytes : Bytes) : Option (String × Bytes) := do
  let (length, bytes) ← Bytes.takeLittleEndian? 8 bytes
  let spelled := bytes.take length
  if spelled.length < length then none
  else
    let text ← Utf8.decode? spelled
    some (text, bytes.drop length)

/-- Reads a truth value from the front; no byte but 0 and 1 is one. -/
def takeBool? : Bytes → Option (Bool × Bytes)
  | 0 :: bytes => some (false, bytes)
  | 1 :: bytes => some (true, bytes)
  | _ => none

/-- Reads one instruction from the front. -/
def takeOne? (bytes : Bytes) : Option (Instruction × Bytes) := do
  let (address, bytes) ← Bytes.takeLittleEndian? 8 bytes
  let (mutation, bytes) ← Bytes.takeLittleEndian? 4 bytes
  let (mnemonic, bytes) ← takeText? bytes
  let (operands, bytes) ← takeText? bytes
  let (size, bytes) ← Bytes.takeLittleEndian? 1 bytes
  let (conditional, bytes) ← takeBool? bytes
  some (⟨.ofNat address, .ofNat mutation, mnemonic, operands, .ofNat size, conditional⟩, bytes)

/-- Reads `count` instructions from the front. -/
def takeMany? : (count : Nat) → Bytes → Option (List Instruction × Bytes)
  | 0, bytes => some ([], bytes)
  | count + 1, bytes => do
    let (ins, bytes) ← takeOne? bytes
    let (list, bytes) ← takeMany? count bytes
    some (ins :: list, bytes)

/-- The list that a stored value holds. What follows the last instruction is ignored. -/
def decode? (bytes : Bytes) : Option (List Instruction) := do
  let (count, bytes) ← Bytes.takeLittleEndian? 8 bytes
  let (list, _) ← takeMany? count bytes
  some list

/-! ## Reading undoes writing -/

/-- Both texts are short enough for their length fields. -/
def Fits (ins : Instruction) : Prop :=
  (Utf8.encode ins.mnemonic).length < UInt64.size ∧ (Utf8.encode ins.operands).length < UInt64.size

/-- A text is read back. -/
theorem takeText?_append {text : String} (h : (Utf8.encode text).length < UInt64.size)
    (rest : Bytes) : takeText? (encodeText text ++ rest) = some (text, rest) := by
  rw [takeText?, encodeText, List.append_assoc,
    Bytes.takeLittleEndian?_append _ _ (by simpa using h)]
  simp [Utf8.decode?_encode]

/-- An instruction is read back. -/
theorem takeOne?_append {ins : Instruction} (h : Fits ins) (rest : Bytes) :
    takeOne? (encodeOne ins ++ rest) = some (ins, rest) := by
  have hsize : Bytes.takeLittleEndian? 1 (ins.size :: ins.conditional.toUInt8 :: rest) =
      some (ins.size.toNat, ins.conditional.toUInt8 :: rest) := by
    simp [Bytes.takeLittleEndian?]
  have hbool : takeBool? (ins.conditional.toUInt8 :: rest) = some (ins.conditional, rest) := by
    cases ins.conditional <;> rfl
  simp only [takeOne?, encodeOne, List.append_assoc, List.cons_append, List.nil_append,
    Bytes.takeLittleEndian?_append 8 _ ins.address.toNat_lt,
    Bytes.takeLittleEndian?_append 4 _ ins.mutation.toNat_lt, takeText?_append h.1,
    takeText?_append h.2, hsize, hbool, Option.bind_eq_bind, Option.bind_some, UInt64.ofNat_toNat,
    UInt32.ofNat_toNat, UInt8.ofNat_toNat]

/-- As many instructions as there are in a list are read back, in its order. -/
theorem takeMany?_append {list : List Instruction} (h : ∀ ins ∈ list, Fits ins) (rest : Bytes) :
    takeMany? list.length (list.flatMap encodeOne ++ rest) = some (list, rest) := by
  induction list with
  | nil => rfl
  | cons ins list ih =>
    simp only [List.length_cons, takeMany?, List.flatMap_cons, List.append_assoc,
      takeOne?_append (h ins (List.mem_cons_self ..)), Option.bind_eq_bind, Option.bind_some,
      ih fun i hi => h i (List.mem_cons_of_mem _ hi)]

/-- A written list is read back, whatever stands behind it. -/
theorem decode?_encode_append {list : List Instruction} (hlength : list.length < UInt64.size)
    (h : ∀ ins ∈ list, Fits ins) (rest : Bytes) : decode? (encode list ++ rest) = some list := by
  rw [decode?, encode, List.append_assoc,
    Bytes.takeLittleEndian?_append _ _ (by simpa using hlength)]
  simp [takeMany?_append h]

end TraceGraph.Instruction.Stored
