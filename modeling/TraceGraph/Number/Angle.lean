import TraceGraph.Number.BinaryFloat

/-!
# Sine and cosine

The sine and the cosine of a single-precision angle are the single-precision numbers nearest
to the true values. So the result has a definition, which no library of mathematical
functions enters into.

An angle is an exact multiple of a power of two, so it is reduced by quarter turns and the
series is summed in integers, with far more bits behind the point than the result keeps;
only the last step rounds.

* A quarter turn is computed from two series of arcus tangents, to `places` bits.
* An angle is divided by it. The rest is below a quarter turn, and the quarter turns decide
  which of the two series is to be summed and with which sign (`sineOf`).
* The series of sine and cosine are one function, from the power one or from the power zero
  on (`powerSeries`).

Angles that are infinite or no number have no sine.
-/

namespace TraceGraph.Angle

/-- The number of bits behind the point. An angle has at most 128 bits in front of it, and a quarter
turn is taken away at most that often, so more than 150 of these bits stay exact. -/
def places : Nat := 320

/-- The number one. -/
def one : Nat := 1 <<< places

/-- The sum of `terms` terms of the series of the angle whose tangent is `1 / n`, from the term of
the odd number `k` on, where `power` is that power of `1 / n`. -/
def arctanSeries (n : Nat) : (terms k power : Nat) → Int
  | 0, _, _ => 0
  | terms + 1, k, power => (power / k : Nat) - arctanSeries n terms (k + 2) (power / (n * n))

/-- A quarter turn. An eighth is four times the angle of tangent 1/5 less that of tangent 1/239. -/
def quarterTurn : Nat :=
  (2 * (4 * arctanSeries 5 places 1 (one / 5) - arctanSeries 239 places 1 (one / 239))).toNat

/-- The alternating sum of `terms` terms of a power series, from the power `k` on: each term is the
one before it times the square over the next two numbers. -/
def powerSeries (square : Nat) : (terms k term : Nat) → Int
  | 0, _, _ => 0
  | terms + 1, k, term =>
    term - powerSeries square terms (k + 2) ((term * square) >>> places / ((k + 1) * (k + 2)))

/-- The number of terms after which those of an angle below a quarter turn are less than the last
place. -/
def terms : Nat := 48

/-- The sine of an angle below a quarter turn. -/
def sineOfPart (r : Nat) : Int := powerSeries ((r * r) >>> places) terms 1 r

/-- The cosine of an angle below a quarter turn. -/
def cosineOfPart (r : Nat) : Int := powerSeries ((r * r) >>> places) terms 0 one

/-- The sine of some quarter turns and the rest of an angle. -/
def sineOf (quarters r : Nat) : Int :=
  match quarters % 4 with
  | 0 => sineOfPart r
  | 1 => cosineOfPart r
  | 2 => -sineOfPart r
  | _ => -cosineOfPart r

/-- Whether a number has the sign of the negative ones. -/
def isNegative (x : Float32) : Bool := x.toBits.toNat >>> 31 = 1

/-- The quarter turns and the rest of the magnitude of a finite angle. -/
def parts (x : Float32) : Nat × Nat :=
  let (m, power) := BinaryFormat.single.magnitude x.toBits.toNat
  let angle := m <<< (power + places - (-BinaryFormat.single.lowest).toNat)
  (angle / quarterTurn, angle % quarterTurn)

/-- The number nearest to a fraction, with its sign changed if that is asked for. -/
def nearest (flipped : Bool) (n : Int) : Float32 :=
  let bits := BinaryFormat.single.nearestBits n.natAbs one
  .ofBits (.ofNat (if flipped = decide (n < 0) then bits else 1 <<< 31 + bits))

/-- What the infinite angles have for a sine. -/
def undefined : Float32 := 0 / 0

/-- The sine of an angle in radians. -/
def sine (x : Float32) : Float32 :=
  if x.isFinite then
    let (quarters, r) := parts x
    nearest (isNegative x) (sineOf quarters r)
  else undefined

/-- The cosine of an angle in radians: the sine of a quarter turn more. -/
def cosine (x : Float32) : Float32 :=
  if x.isFinite then
    let (quarters, r) := parts x
    nearest false (sineOf (quarters + 1) r)
  else undefined

end TraceGraph.Angle
