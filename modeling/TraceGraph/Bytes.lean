/-!
# Byte sequences

Records, files and stored values are all lists of bytes, and a list is what every statement
about them inducts on.

Beside the type this module holds the fixed-width little-endian numbers that stored values
are built from. The reader takes a number from the front and returns it with the bytes
behind it, so that the parts of a value can be read one after the other.
`takeLittleEndian?_append` is the law for that: a number that fits its width is read back,
whatever follows it, and what follows is untouched. It is proved by induction on the width,
with the lowest byte split off on both sides.

A number that does not fit is not refused by the writer; its high bytes are lost. Who writes
a number has to know that it fits, as is the case for the numbers of 32 and 64 bits that
occur here.
-/

namespace TraceGraph

/-- A finite sequence of bytes. -/
abbrev Bytes := List UInt8

namespace Bytes

/-- The low `width` bytes of `n`, least significant byte first. -/
def littleEndian : (width : Nat) → (n : Nat) → Bytes
  | 0, _ => []
  | width + 1, n => UInt8.ofNat (n % 256) :: littleEndian width (n / 256)

/-- A number takes as many bytes as its width says. -/
@[simp] theorem length_littleEndian (width n : Nat) : (littleEndian width n).length = width := by
  induction width generalizing n with
  | zero => rfl
  | succ width ih => simp [littleEndian, ih]

/-- Reads a number of `width` bytes from the front, least significant byte first, and returns it
with the bytes behind it. -/
def takeLittleEndian? : (width : Nat) → Bytes → Option (Nat × Bytes)
  | 0, bytes => some (0, bytes)
  | _ + 1, [] => none
  | width + 1, b :: bytes =>
    (takeLittleEndian? width bytes).map fun (n, rest) => (b.toNat + 256 * n, rest)

/-- A number that fits its width is read back, whatever follows it. -/
theorem takeLittleEndian?_append (width n : Nat) (h : n < Nat.pow 256 width) (rest : Bytes) :
    takeLittleEndian? width (littleEndian width n ++ rest) = some (n, rest) := by
  induction width generalizing n with
  | zero =>
    have : n = 0 := Nat.lt_one_iff.1 h
    simp [littleEndian, takeLittleEndian?, this]
  | succ width ih =>
    have hq : n / 256 < Nat.pow 256 width := by
      have h : n < Nat.pow 256 width * 256 := h
      exact Nat.div_lt_of_lt_mul (by rwa [Nat.mul_comm])
    have hb : (UInt8.ofNat (n % 256)).toNat = n % 256 := by
      rw [UInt8.toNat_ofNat']
      exact Nat.mod_eq_of_lt (Nat.mod_lt _ (by decide))
    simp only [littleEndian, List.cons_append, takeLittleEndian?, ih _ hq, Option.map_some, hb]
    congr 2
    exact Nat.mod_add_div n 256

/-- The byte that holds the ASCII character `c`. -/
def ascii (c : Char) : UInt8 := c.toUInt8

/-- Two lower-case hexadecimal digits a byte. -/
def hex (bytes : Bytes) : String :=
  String.ofList (bytes.flatMap fun b =>
    [Nat.digitChar (b.toNat / 16), Nat.digitChar (b.toNat % 16)])

end Bytes

end TraceGraph
