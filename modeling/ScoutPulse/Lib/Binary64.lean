import Mathlib.Algebra.Order.Round
import Mathlib.Data.Int.Log
import Mathlib.Data.Rat.Floor

/-!
# Rounding to binary64

Reading a decimal number into a double keeps the nearest double, ties to the even
one; what lies beyond the largest is refused. A double is the rational it stands
for.
-/

namespace Binary64

/-- Nearest integer, ties to even. -/
def roundHalfEven (q : ℚ) : ℤ :=
  let low := ⌊q⌋
  let rest := q - low
  if rest < 1 / 2 then low
  else if 1 / 2 < rest then low + 1
  else if low % 2 = 0 then low else low + 1

/-- The exponent of the last place of a double of the size of `q`. -/
def ulpExponent (q : ℚ) : ℤ := max (Int.log 2 |q| - 52) (-1074)

/-- The nearest double, or `none` when that is not finite. -/
def ofRat (q : ℚ) : Option ℚ :=
  if q = 0 then some 0
  else
    let unit : ℚ := 2 ^ ulpExponent q
    let rounded : ℚ := roundHalfEven (q / unit) * unit
    if |rounded| < 2 ^ (1024 : ℕ) then some rounded else none

end Binary64
