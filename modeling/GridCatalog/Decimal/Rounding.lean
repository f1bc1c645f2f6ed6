/-! Rounding a double to a number of decimal places.

    The value is scaled by a power of ten, rounded to the nearest whole number with halves going
    away from zero, and scaled back, each step in double arithmetic. -/

namespace GridCatalog.Decimal

/-- `base ^ exponent` by squaring, in double arithmetic. -/
def powerBySquaring (base : Float) (exponent : Nat) (acc : Float) : Float :=
  if exponent = 0 then acc
  else
    let acc := if exponent % 2 = 1 then acc * base else acc
    powerBySquaring (base * base) (exponent / 2) acc
termination_by exponent

/-- `10 ^ places` as a double; for a negative number of places the reciprocal of the power. -/
def powerOfTen (places : Int) : Float :=
  let power := powerBySquaring 10 places.natAbs 1
  if places < 0 then 1 / power else power

/-- The value rounded to `places` decimal places; negative places round to tens, hundreds, …. -/
def roundTo (places : Int) (x : Float) : Float :=
  let power := powerOfTen places
  (x * power).round / power

end GridCatalog.Decimal
