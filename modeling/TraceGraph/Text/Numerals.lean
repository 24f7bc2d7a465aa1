import TraceGraph.Bytes

/-!
# Numbers as text

Three ways in which numbers stand in the files and the messages of the library.

`Decimal` is what a record is made of: `digits` writes a number without leading zeros, `unsigned?`
and `signed?` read one or more digits behind an optional sign and accept leading zeros. Reading is
wider than writing, so what is proved is that reading undoes writing (`unsigned?_digits`,
`signed?_integer`) and that a written number holds nothing but digits and at most a leading minus
(`isDigit_of_mem_digits`, `exists_digits_eq_cons`). That is what lets a number be followed by a
comma without any escape.

`Hexadecimal` only writes: the addresses in messages and in the labels of a drawing.

`Digits` only reads: the digits of any radix in settings and metadata, whose texts are characters
and not bytes.

All proofs about written numbers are by induction on the last digit (`lastDigitRec`), since
`digits n` ends in the digit of `n % 10` and has the digits of `n / 10` before it (`digits_eq`).
-/

namespace TraceGraph

namespace Decimal

/-- Whether a byte is one of the digits `0` to `9`. -/
def isDigit (b : UInt8) : Bool := 48 ≤ b && b ≤ 57

/-- The decimal digits of `n`, most significant first; `0` is one zero. -/
def digits (n : Nat) : Bytes := (Nat.toDigits 10 n).map Bytes.ascii

/-- The decimal digits of `n` behind a minus if `n` is negative. -/
def integer (n : Int) : Bytes :=
  if n < 0 then 45 :: digits n.natAbs else digits n.natAbs

/-- The number that a run of digits stands for. -/
def value (ds : Bytes) : Nat := ds.foldl (fun n d => 10 * n + (d.toNat - 48)) 0

/-- Reads one or more digits and nothing else. -/
def natural? (text : Bytes) : Option Nat :=
  if text ≠ [] ∧ text.all isDigit then some (value text) else none

/-- Reads digits behind an optional plus. -/
def unsigned? : Bytes → Option Nat
  | 43 :: text => natural? text
  | text => natural? text

/-- Reads digits behind an optional plus or minus. -/
def signed? : Bytes → Option Int
  | 43 :: text => (natural? text).map Int.ofNat
  | 45 :: text => (natural? text).map fun n => -Int.ofNat n
  | text => (natural? text).map Int.ofNat

/-! ## Digits -/

/-- The digits of a number end in its last one. -/
theorem digits_eq (n : Nat) :
    digits n = if n < 10 then [UInt8.ofNat (48 + n)]
      else digits (n / 10) ++ [UInt8.ofNat (48 + n % 10)] := by
  have digit : ∀ k < 10, Bytes.ascii (Nat.digitChar k) = UInt8.ofNat (48 + k) := by decide
  rw [digits, Nat.toDigits_eq_if (by decide)]
  split
  next h => simp [digit n h]
  next h => simp [digits, digit (n % 10) (Nat.mod_lt _ (by decide))]

/-- Induction on a number by dropping its last digit. -/
theorem lastDigitRec {motive : Nat → Prop} (small : ∀ n < 10, motive n)
    (step : ∀ n, 10 ≤ n → motive (n / 10) → motive n) (n : Nat) : motive n := by
  induction n using Nat.strongRecOn with
  | ind n ih =>
    by_cases h : n < 10
    · exact small n h
    · exact step n (by omega) (ih _ (by omega))

theorem isDigit_ofNat {k : Nat} (h : k < 10) : isDigit (UInt8.ofNat (48 + k)) = true := by
  have : ∀ k < 10, isDigit (UInt8.ofNat (48 + k)) = true := by decide
  exact this k h

/-- A written number holds nothing but digits. -/
theorem isDigit_of_mem_digits {n : Nat} {b : UInt8} (h : b ∈ digits n) : isDigit b = true := by
  induction n using lastDigitRec with
  | small n hn =>
    rw [digits_eq, if_pos hn, List.mem_singleton] at h
    exact h ▸ isDigit_ofNat hn
  | step n hn ih =>
    rw [digits_eq, if_neg (by omega), List.mem_append, List.mem_singleton] at h
    rcases h with h | h
    · exact ih h
    · exact h ▸ isDigit_ofNat (Nat.mod_lt _ (by decide))

theorem digits_ne_nil (n : Nat) : digits n ≠ [] := by
  rw [digits_eq]
  split <;> simp

theorem value_append_singleton (ds : Bytes) (d : UInt8) :
    value (ds ++ [d]) = 10 * value ds + (d.toNat - 48) := by
  simp [value, List.foldl_append]

/-- The digits of a number stand for it. -/
theorem value_digits (n : Nat) : value (digits n) = n := by
  have digit : ∀ k < 10, (UInt8.ofNat (48 + k)).toNat - 48 = k := by decide
  induction n using lastDigitRec with
  | small n hn =>
    rw [digits_eq, if_pos hn]
    simpa [value] using digit n hn
  | step n hn ih =>
    rw [digits_eq, if_neg (by omega), value_append_singleton, ih,
      digit _ (Nat.mod_lt _ (by decide))]
    omega

/-! ## Reading undoes writing -/

/-- A written number is read back. -/
theorem natural?_digits (n : Nat) : natural? (digits n) = some n := by
  have h : digits n ≠ [] ∧ (digits n).all isDigit = true :=
    ⟨digits_ne_nil n, List.all_eq_true.2 fun _ => isDigit_of_mem_digits⟩
  rw [natural?, if_pos h, value_digits]

/-- A written number starts with a digit, never with a sign. -/
theorem exists_digits_eq_cons (n : Nat) :
    ∃ d ds, digits n = d :: ds ∧ isDigit d = true := by
  cases h : digits n with
  | nil => exact absurd h (digits_ne_nil n)
  | cons d ds => exact ⟨d, ds, rfl, isDigit_of_mem_digits (h ▸ List.mem_cons_self ..)⟩

/-- A written number is read back where a plus is allowed. -/
theorem unsigned?_digits (n : Nat) : unsigned? (digits n) = some n := by
  obtain ⟨d, ds, h, hd⟩ := exists_digits_eq_cons n
  have hplus : d ≠ 43 := by rintro rfl; exact absurd hd (by decide)
  have : unsigned? (digits n) = natural? (digits n) := by
    rw [h, unsigned?]
    intro text heq
    exact absurd (List.cons.inj heq).1 hplus
  rw [this, natural?_digits]

/-- A written integer is read back, with its sign. -/
theorem signed?_integer (n : Int) : signed? (integer n) = some n := by
  by_cases hn : n < 0
  · rw [integer, if_pos hn, signed?, natural?_digits, Option.map_some]
    congr 1
    simp only [Int.ofNat_eq_natCast]
    omega
  · obtain ⟨d, ds, h, hd⟩ := exists_digits_eq_cons n.natAbs
    have hplus : d ≠ 43 := by rintro rfl; exact absurd hd (by decide)
    have hminus : d ≠ 45 := by rintro rfl; exact absurd hd (by decide)
    have : signed? (digits n.natAbs) = (natural? (digits n.natAbs)).map Int.ofNat := by
      rw [h, signed?]
      · intro text heq
        exact absurd (List.cons.inj heq).1 hplus
      · intro text heq
        exact absurd (List.cons.inj heq).1 hminus
    rw [integer, if_neg hn, this, natural?_digits, Option.map_some]
    congr 1
    simp only [Int.ofNat_eq_natCast]
    omega

end Decimal

/-! ## Hexadecimal addresses -/

namespace Hexadecimal

/-- The lower-case hexadecimal digits of `n`, without leading zeros. -/
def digits (n : Nat) : String := String.ofList (Nat.toDigits 16 n)

/-- An address as messages and labels show it: `0x` and its digits. -/
def address (a : UInt64) : String := "0x" ++ digits a.toNat

end Hexadecimal

/-! ## Digits of any radix -/

namespace Digits

/-- The place of a character among the digits and the letters of either case. -/
def rank? (c : Char) : Option Nat :=
  if '0' ≤ c ∧ c ≤ '9' then some (c.toNat - 48)
  else if 'a' ≤ c ∧ c ≤ 'z' then some (c.toNat - 87)
  else if 'A' ≤ c ∧ c ≤ 'Z' then some (c.toNat - 55)
  else none

/-- What a character stands for as a digit of the radix. -/
def value? (radix : Nat) (c : Char) : Option Nat := (rank? c).filter (· < radix)

/-- Whether a character is a digit of the radix. -/
def isDigit (radix : Nat) (c : Char) : Bool := (value? radix c).isSome

/-- The number that a run of digits stands for. -/
def number (radix : Nat) (ds : List Char) : Nat :=
  ds.foldl (fun n d => radix * n + (value? radix d).getD 0) 0

end Digits

end TraceGraph
