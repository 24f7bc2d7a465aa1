import TraceGraph.Text.Base64
import TraceGraph.Text.Numerals

/-!
# Field formats

A record is a sequence of tokens between delimiters, and a `FieldFormat` says how one kind
of value is written as a token and which tokens are read as one.

The structure carries two laws, which whoever makes a format has to prove: what is written
is read back (`read?_write`), and no written token holds a delimiter (`plain`). They are all
that the proofs about whole records use of a format, so a record can be put together from
fields of any formats.

There are five formats: unsigned numbers of 32 and of 64 bits, signed numbers of 32 bits,
flags, and raw bytes as base64. A number is read more widely than it is written, with a sign
and with leading zeros, but never if it does not fit its type: a number that is too large is
refused and does not wrap around. A flag is one digit and nothing else.
-/

namespace TraceGraph

/-- Ends most fields of a record. -/
def comma : UInt8 := 44

/-- Ends the index of a record. -/
def opener : UInt8 := 123

/-- Ends a record. -/
def closer : UInt8 := 125

/-- How values of one kind stand in a record. -/
structure FieldFormat (α : Type) where
  /-- The token for a value. -/
  write : α → Bytes
  /-- The value of a token, `none` if the token stands for no value. -/
  read? : Bytes → Option α
  /-- What is written is read back. -/
  read?_write : ∀ a, read? (write a) = some a
  /-- No written token holds a delimiter. -/
  plain : ∀ a, ∀ b ∈ write a, b ≠ comma ∧ b ≠ opener ∧ b ≠ closer

namespace FieldFormat

/-- No delimiter is a digit. -/
theorem digits_plain (n : Nat) : ∀ b ∈ Decimal.digits n, b ≠ comma ∧ b ≠ opener ∧ b ≠ closer := by
  intro b hb
  have hd := Decimal.isDigit_of_mem_digits hb
  refine ⟨?_, ?_, ?_⟩
  all_goals
    rintro rfl
    exact absurd hd (by decide)

/-- No delimiter is a minus either. -/
theorem integer_plain (n : Int) :
    ∀ b ∈ Decimal.integer n, b ≠ comma ∧ b ≠ opener ∧ b ≠ closer := by
  rw [Decimal.integer]
  split
  · intro b hb
    rcases List.mem_cons.1 hb with rfl | hb
    · decide
    · exact digits_plain _ b hb
  · exact digits_plain _

/-- The unsigned number of a token, if it is less than `limit`. -/
def unsignedBelow? (limit : Nat) (text : Bytes) : Option Nat :=
  (Decimal.unsigned? text).filter (· < limit)

/-- A number below the limit is read back. -/
theorem unsignedBelow?_digits {limit n : Nat} (h : n < limit) :
    unsignedBelow? limit (Decimal.digits n) = some n := by
  rw [unsignedBelow?, Decimal.unsigned?_digits, Option.filter_some, if_pos (decide_eq_true h)]

/-- Unsigned 32-bit numbers: indices and counts. -/
def u32 : FieldFormat UInt32 where
  write n := Decimal.digits n.toNat
  read? text := (unsignedBelow? UInt32.size text).map UInt32.ofNat
  read?_write n := by
    rw [unsignedBelow?_digits n.toNat_lt_size, Option.map_some, UInt32.ofNat_toNat]
  plain n := digits_plain n.toNat

/-- Unsigned 64-bit numbers: addresses and execution counts. -/
def u64 : FieldFormat UInt64 where
  write n := Decimal.digits n.toNat
  read? text := (unsignedBelow? UInt64.size text).map UInt64.ofNat
  read?_write n := by
    rw [unsignedBelow?_digits n.toNat_lt_size, Option.map_some, UInt64.ofNat_toNat]
  plain n := digits_plain n.toNat

/-- Signed 32-bit numbers: coordinates, tags and argument positions. -/
def i32 : FieldFormat Int32 where
  write n := Decimal.integer n.toInt
  read? text :=
    -- a number that does not fit is refused and does not wrap around
    ((Decimal.signed? text).filter fun n =>
      Int32.minValue.toInt ≤ n ∧ n ≤ Int32.maxValue.toInt).map Int32.ofInt
  read?_write n := by
    have h : Int32.minValue.toInt ≤ n.toInt ∧ n.toInt ≤ Int32.maxValue.toInt :=
      ⟨n.le_toInt, Int.le_of_lt_add_one n.toInt_lt⟩
    rw [Decimal.signed?_integer, Option.filter_some, if_pos (decide_eq_true h), Option.map_some,
      Int32.ofInt_toInt]
  plain n := integer_plain n.toInt

/-- One digit, `1` for `true`; nothing else is a flag. -/
def flag : FieldFormat Bool where
  write b := if b then [49] else [48]
  read? text := if text = [49] then some true else if text = [48] then some false else none
  read?_write b := by cases b <;> rfl
  plain b := by cases b <;> simp [comma, opener, closer]

/-- Raw argument bytes as base64. -/
def payload : FieldFormat Bytes where
  write := Base64.encode
  read? := Base64.decode?
  read?_write := Base64.decode?_encode
  plain := Base64.encode_plain

end FieldFormat

end TraceGraph
