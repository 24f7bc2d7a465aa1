import TraceGraph.Bytes

/-!
# Text as UTF-8

Texts are strings of characters in the library and bytes in its files. `encode` and
`decode?` are the exact correspondence of texts and valid byte sequences (`decode?_encode`).

Where bytes have to be shown although they may be no text, in messages about damaged files,
`lossy` reads any bytes at all: each maximal part that cannot belong to a character becomes
one U+FFFD. How long such a part is, is a matter of convention. It begins with a byte that
can start a character and goes on as long as the next byte can continue it, and a byte that
fits nowhere is a part by itself.

The first byte of a character determines how many follow, and for some first bytes the range
of the second is narrower than otherwise, which excludes overlong forms, surrogates and
codes beyond the last one (`Lead.of`). With these ranges a part can be ended at the first
byte that does not fit.
-/

namespace TraceGraph.Utf8

/-- The UTF-8 bytes of a text. -/
def encode (text : String) : Bytes := text.toByteArray.data.toList

/-- The text that a byte sequence spells, if all of it is valid UTF-8. -/
def decode? (bytes : Bytes) : Option String := String.fromUTF8? ⟨bytes.toArray⟩

/-- Every text is read back from its bytes. -/
theorem decode?_encode (text : String) : decode? (encode text) = some text := by
  have h : (⟨text.toByteArray.data.toList.toArray⟩ : ByteArray) = text.toByteArray := rfl
  simp only [decode?, encode, h, String.fromUTF8?, text.isValidUTF8, dite_true]
  rfl

/-- What a byte can be at the start of a character. -/
inductive Lead where
  /-- The character U+0000 to U+007F that the byte spells alone. -/
  | single (code : Nat)
  /-- The first of `tails + 1` bytes; `bits` are its payload, and the next byte lies in
  `low ..= high`. -/
  | multi (tails : Nat) (bits : Nat) (low high : UInt8)
  /-- No character starts with the byte. -/
  | invalid

/-- Overlong forms, surrogates and codes above U+10FFFF are excluded by the range of the second
byte. -/
def Lead.of (b : UInt8) : Lead :=
  if b < 0x80 then .single b.toNat
  else if b < 0xC2 then .invalid
  else if b < 0xE0 then .multi 1 (b.toNat - 0xC0) 0x80 0xBF
  else if b = 0xE0 then .multi 2 0 0xA0 0xBF
  else if b = 0xED then .multi 2 13 0x80 0x9F
  else if b < 0xF0 then .multi 2 (b.toNat - 0xE0) 0x80 0xBF
  else if b = 0xF0 then .multi 3 0 0x90 0xBF
  else if b < 0xF4 then .multi 3 (b.toNat - 0xF0) 0x80 0xBF
  else if b = 0xF4 then .multi 3 4 0x80 0x8F
  else .invalid

/-- Takes `tails` continuation bytes, the first of them in `low ..= high`, and returns the finished
code. A byte that does not fit ends the attempt and stays in the input. -/
def takeTails : (tails : Nat) → (bits : Nat) → (low high : UInt8) → Bytes → Option Nat × Bytes
  | 0, bits, _, _, bytes => (some bits, bytes)
  | _ + 1, _, _, _, [] => (none, [])
  | tails + 1, bits, low, high, b :: bytes =>
    if low ≤ b ∧ b ≤ high then takeTails tails (64 * bits + (b.toNat - 0x80)) 0x80 0xBF bytes
    else (none, b :: bytes)

/-- Continuation bytes are taken from the front, if at all. -/
theorem length_takeTails_le (tails bits : Nat) (low high : UInt8) (bytes : Bytes) :
    (takeTails tails bits low high bytes).2.length ≤ bytes.length := by
  induction tails generalizing bits low high bytes with
  | zero => exact Nat.le_refl _
  | succ tails ih =>
    cases bytes with
    | nil => exact Nat.le_refl _
    | cons b bytes =>
      rw [takeTails]
      split
      · exact Nat.le_succ_of_le (ih ..)
      · exact Nat.le_refl _

/-- Stands for bytes that spell no character. -/
def replacement : Char := '\uFFFD'

/-- The characters of a byte sequence, with one `replacement` for each maximal invalid part. -/
def lossyChars : Bytes → List Char
  | [] => []
  | b :: bytes =>
    match Lead.of b with
    | .single code => Char.ofNat code :: lossyChars bytes
    | .invalid => replacement :: lossyChars bytes
    | .multi tails bits low high =>
      let taken := takeTails tails bits low high bytes
      taken.1.elim replacement Char.ofNat :: lossyChars taken.2
termination_by bytes => bytes.length
decreasing_by
  all_goals simp only [List.length_cons]
  all_goals first
    | exact Nat.lt_succ_self _
    | exact Nat.lt_succ_of_le (length_takeTails_le ..)

/-- The text of a byte sequence, with one U+FFFD for each maximal invalid part. -/
def lossy (bytes : Bytes) : String := String.ofList (lossyChars bytes)

end TraceGraph.Utf8
