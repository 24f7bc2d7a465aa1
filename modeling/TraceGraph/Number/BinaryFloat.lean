import TraceGraph.Number.Rounding

/-!
# Binary floating-point numbers

A format keeps a number of significant bits above a last bit of least exponent
(`BinaryFormat`). Its numbers are given by their bits, since what is stored and printed are
bits, and since all computations here are on integers.

`nearestBits` finds the number of a format that is closest to an exact quotient, of two the
one with the even significand. It determines the exponent of the last bit that can be kept,
rounds the quotient in units of that bit, once and exactly, and puts the exponent above the
significand. The addition is what makes a carry come out right: if rounding leads to the
next power of two, it raises the exponent.

`magnitude` takes a number apart again, into an integer and a power of two.

`BinaryFloat.ofDecimal` reads a decimal number with this. A decimal exponent can be huge,
and then the powers of ten would be so too; beyond `reach` the answer is known without them.
-/

namespace TraceGraph

/-- How the magnitudes of numbers are stored: the exponent above the significand, whose first bit is
left out unless the exponent is the least. -/
structure BinaryFormat where
  /-- The number of bits of a significand, with the one that is left out. -/
  precision : Nat
  /-- The exponent of the last bit of the smallest numbers. -/
  lowest : Int
  /-- The bits of positive infinity. -/
  infinity : Nat

namespace BinaryFormat

/-- Numbers of 32 bits. -/
def single : BinaryFormat := ⟨24, -149, 0x7F800000⟩

/-- Numbers of 64 bits. -/
def double : BinaryFormat := ⟨53, -1074, 0x7FF0000000000000⟩

/-- The number of stored bits of a significand. -/
def stored (format : BinaryFormat) : Nat := format.precision - 1

/-- The exponent of the last bit of a number near `num / den`: all bits are kept if the number is
not too small for that. -/
def lastBit (format : BinaryFormat) (num den : Nat) : Int :=
  let guess : Int := (num.log2 : Int) - (den.log2 : Int)
  let below := num <<< (-guess).toNat < den <<< guess.toNat
  max format.lowest ((if below then guess - 1 else guess) - format.stored)

/-- The bits of the number nearest to `num / den`. A carry out of the significand raises the
exponent, because the two stand side by side. -/
def nearestBits (format : BinaryFormat) (num den : Nat) : Nat :=
  let q := format.lastBit num den
  let m := roundQuotient (num <<< (-q).toNat) (den <<< q.toNat)
  -- a carry out of the significand goes into the exponent
  min format.infinity ((q - format.lowest).toNat <<< format.stored + m)

/-- The magnitude of a finite number as an integer and the power of two that it is multiplied by,
counted from the least exponent. -/
def magnitude (format : BinaryFormat) (bits : Nat) : Nat × Nat :=
  let hidden := 1 <<< format.stored
  let exponent := bits / hidden % (format.infinity / hidden + 1)
  let fraction := bits % hidden
  if exponent = 0 then (fraction, 0) else (hidden + fraction, exponent - 1)

end BinaryFormat

namespace BinaryFloat

/-- Outside of these powers of ten everything is zero or infinite. -/
def reach : Int := 400

/-- The double-precision number nearest to `m * 10 ^ e`. -/
def ofDecimal (m : Nat) (e : Int) : Float :=
  let size := (Nat.toDigits 10 m).length + e
  let bits :=
    if m = 0 ∨ size < -reach then 0
    else if reach < size then BinaryFormat.double.infinity
    else BinaryFormat.double.nearestBits (m * Nat.pow 10 e.toNat) (Nat.pow 10 (-e).toNat)
  .ofBits (.ofNat bits)

end BinaryFloat

end TraceGraph
