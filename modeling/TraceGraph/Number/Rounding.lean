/-!
# Rounding a quotient

The integer nearest to a quotient, of two the even one. The conversion of decimal numbers,
the sine and the cosine, and the printing of coordinates all compute with integers and round
once, at the end, with this function.

The rounded quotient is off by half at most. The two lemmas say so without division, on both
sides (`two_mul_roundQuotient_le`, `le_two_mul_roundQuotient`). Both go by the three cases
of the definition; in the middle one, that of a tie, the quotient is even or odd.
-/

namespace TraceGraph

/-- The integer nearest to `num / den`, of two the even one. -/
def roundQuotient (num den : Nat) : Nat :=
  let q := num / den
  let r := num % den
  if 2 * r < den then q
  else if 2 * r = den then q + q % 2
  else q + 1

/-- The quotient is rounded up by half at most. -/
theorem two_mul_roundQuotient_le (num den : Nat) :
    2 * (den * roundQuotient num den) ≤ 2 * num + den := by
  have h := Nat.div_add_mod num den
  simp only [roundQuotient]
  split
  · omega
  · split
    · rcases Nat.mod_two_eq_zero_or_one (num / den) with h2 | h2 <;>
        simp only [h2, Nat.mul_add, Nat.mul_one, Nat.mul_zero] <;> omega
    · simp only [Nat.mul_add, Nat.mul_one]; omega

/-- The quotient is rounded down by half at most. -/
theorem le_two_mul_roundQuotient (num den : Nat) (hden : 0 < den) :
    2 * num ≤ 2 * (den * roundQuotient num den) + den := by
  have h := Nat.div_add_mod num den
  have hlt := Nat.mod_lt num hden
  simp only [roundQuotient]
  split
  · omega
  · split
    · rcases Nat.mod_two_eq_zero_or_one (num / den) with h2 | h2 <;>
        simp only [h2, Nat.mul_add, Nat.mul_one, Nat.mul_zero] <;> omega
    · simp only [Nat.mul_add, Nat.mul_one]; omega

end TraceGraph
