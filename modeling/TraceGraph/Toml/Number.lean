import TraceGraph.Number.BinaryFloat
import TraceGraph.Text.Numerals
import TraceGraph.Text.Reader

/-!
# TOML numbers

Between two digits an underscore may stand. Integers have 64 bits and a radix of ten, or
another one that a mark in front of the digits names; then there is no sign. A number that
does not fit is refused.

A float has a fraction or an exponent, or is one of two names. It is the number nearest to
its decimal text, found by exact arithmetic and one rounding (`BinaryFloat.ofDecimal`). A
text whose nearest number would be positive infinity is refused; a negative one is not,
which is a peculiarity of the reader that the settings are compatible with.
-/

namespace TraceGraph.Toml

open Reader

/-- Digits of a radix, between which underscores may stand. -/
def digits (radix : Nat) : Reader (List Char) := do
  let digit := one (Digits.isDigit radix)
  let first ← digit
  let more ← many (digit <|> char '_' *> digit)
  return first :: more

/-- Takes a sign and tells whether it is a minus. -/
def sign : Reader Bool := char '-' *> pure true <|> char '+' *> pure false <|> pure false

/-- Decimal digits that start with a zero only if it is the only one. -/
def whole : Reader (List Char) := do
  let ds ← digits 10
  require (ds.length = 1 ∨ ds.head? ≠ some '0')
  return ds

/-- An integer of another radix, which has no sign. -/
def radixInteger (mark : String) (radix : Nat) : Reader Int := do
  word mark
  let ds ← digits radix
  return Digits.number radix ds

/-- An integer of radix ten, with its sign. -/
def decimalInteger : Reader Int := do
  let negative ← sign
  let n := Digits.number 10 (← whole)
  return if negative then -n else n

/-- An integer of any radix that fits into 64 bits. -/
def integer : Reader Int := do
  let n ← radixInteger "0x" 16 <|> radixInteger "0o" 8 <|> radixInteger "0b" 2 <|> decimalInteger
  require (Int64.minValue.toInt ≤ n ∧ n ≤ Int64.maxValue.toInt)
  return n

/-- The power of ten behind an `e`. -/
def exponent : Reader Int := do
  let _ ← one fun c => c = 'e' || c = 'E'
  let negative ← sign
  let n := Digits.number 10 (← digits 10)
  return if negative then -n else n

/-- The digits behind a point. -/
def fraction : Reader (List Char) := char '.' *> digits 10

/-- Infinity and what is no number, by their names. -/
def specialFloat : Reader Float := do
  let negative ← sign
  let x ← word "inf" *> pure (1.0 / 0.0) <|> word "nan" *> pure (0.0 / 0.0)
  return if negative then -x else x

/-- A float with a fraction or an exponent. -/
def decimalFloat : Reader Float := do
  let negative ← sign
  let ds ← whole
  let fs := (← optional? fraction).getD []
  let e ← optional? exponent
  require (fs ≠ [] ∨ e.isSome)
  let x := BinaryFloat.ofDecimal (Digits.number 10 (ds ++ fs)) (e.getD 0 - fs.length)
  -- infinity is refused, negative infinity is not
  require (negative || !x.isInf)
  return if negative then -x else x

/-- A float of either form. -/
def float : Reader Float := decimalFloat <|> specialFloat

end TraceGraph.Toml
