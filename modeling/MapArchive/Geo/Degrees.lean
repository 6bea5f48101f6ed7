/-!
# Degrees from nanodegrees

Coordinates are exact integers, counted in nanodegrees. For output they become doubles: the
integer is rounded to the nearest double, and that is multiplied once by the double nearest to
`1e-9`.
-/

namespace MapArchive

/-- The bits of the double nearest to a natural number, a tie going to the even mantissa. -/
def nearestBits (n : Nat) : Nat :=
  if n = 0 then 0
  else
    let length := n.log2
    let mantissa :=
      if length ≤ 52 then n <<< (52 - length)
      else
        let unit := 1 <<< (length - 52)
        let quotient := n / unit
        let rest := n % unit
        if unit < 2 * rest ∨ (2 * rest = unit ∧ quotient % 2 = 1) then quotient + 1 else quotient
    -- A mantissa that was rounded up to the next power of two carries into the exponent.
    (length + 1022) * 0x10000000000000 + mantissa

/-- The double nearest to an integer. -/
def nearestFloat (n : Int) : Float :=
  let bits := nearestBits n.natAbs
  Float.ofBits (if n < 0 then bits + 0x8000000000000000 else bits).toUInt64

/-- The number of degrees in one nanodegree. -/
def nanoDegree : Float := 1e-9

/-- A number of nanodegrees, in degrees. -/
def degreesOfNano (nano : Int) : Float := nanoDegree * nearestFloat nano

/-- A place on the globe, in degrees. -/
structure Position where
  /-- Degrees north of the equator. -/
  lat : Float
  /-- Degrees east of the zero meridian. -/
  lon : Float

end MapArchive
