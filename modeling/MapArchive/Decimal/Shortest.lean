/-!
# The fewest decimal digits that read back

A finite double stands for `mantissa * 2 ^ exponent`. Of all decimals that round to it, the one
with the fewest digits is chosen, and of several with that many digits the nearest; of two that are
equally near, the one whose last digit is even. For a given number of digits only the two neighbours
of the value on that decimal grid come into question, so the search looks at one and two digits, and
so on up to the seventeen that always suffice.
-/

namespace MapArchive.Decimal

/-- A positive binary number `mantissa * 2 ^ exponent`, with the information whether its lower
neighbour is only half as far away as its upper one. -/
structure Binary where
  /-- The significant bits, as a number. -/
  mantissa : Nat
  /-- The power of two to multiply by. -/
  exponent : Int
  /-- Whether the number is the least of its binade, so that the gap below it is halved. -/
  atBinadeStart : Bool
  deriving DecidableEq, Repr

/-- The bit in front of the mantissa of a double, which is not written: 2⁵². -/
def hiddenBit : Nat := 0x10000000000000

/-- The binary number in the lower 63 bits of a finite double. -/
def Binary.ofBits (bits : Nat) : Binary :=
  let biased : Nat := bits / hiddenBit % 0x800
  let fraction := bits % hiddenBit
  if biased = 0 then ⟨fraction, -1074, false⟩
  else ⟨hiddenBit + fraction, (biased : Int) - 1075, fraction = 0 && 1 < biased⟩

/-- The decimal `digits * 10 ^ exponent`. -/
structure Scaled where
  /-- The significant digits, as a number. -/
  digits : Nat
  /-- The power of ten to multiply by. -/
  exponent : Int
  deriving DecidableEq, Repr

/-- The fraction `n * 2 ^ twos * 10 ^ tens` as numerator and denominator. -/
def fraction (n : Nat) (twos tens : Int) : Nat × Nat :=
  (n <<< twos.toNat * Nat.pow 10 tens.toNat, Nat.pow 10 (-tens).toNat <<< (-twos).toNat)

/-- Order of fractions given as numerator and denominator. -/
def fractionLt (a b : Nat × Nat) : Bool := a.1 * b.2 < b.1 * a.2

/-- Whether the decimal is nearer to the binary number than to its neighbours. At exactly half way
the number with the even mantissa wins. -/
def Binary.readsBack (x : Binary) (d : Scaled) : Bool :=
  let value := fraction d.digits 0 d.exponent
  let low :=
    if x.atBinadeStart then fraction (4 * x.mantissa - 1) (x.exponent - 2) 0
    else fraction (2 * x.mantissa - 1) (x.exponent - 1) 0
  let high := fraction (2 * x.mantissa + 1) (x.exponent - 1) 0
  if x.mantissa % 2 = 0 then !fractionLt value low && !fractionLt high value
  else fractionLt low value && fractionLt value high

/-- The greatest multiple of `10 ^ exponent` not above the number. -/
def Binary.below (x : Binary) (exponent : Int) : Scaled :=
  let (numerator, denominator) := fraction x.mantissa x.exponent (-exponent)
  ⟨numerator / denominator, exponent⟩

/-- Whether the upper neighbour on the decimal grid is to be preferred to the lower one, because it
is nearer or, exactly half way, because it is the even one. -/
def Binary.prefersUpper (x : Binary) (lower : Scaled) : Bool :=
  let middle := fraction (2 * lower.digits + 1) (-1) lower.exponent
  let value := fraction x.mantissa x.exponent 0
  fractionLt middle value || (!fractionLt value middle && lower.digits % 2 = 1)

/-- The decimal on the grid of `10 ^ exponent` that reads back, the nearer one of two, and the even
one of two that are equally near. -/
def Binary.onGrid? (x : Binary) (exponent : Int) : Option Scaled :=
  let lower := x.below exponent
  let upper : Scaled := ⟨lower.digits + 1, exponent⟩
  match x.readsBack lower, x.readsBack upper with
  | true, true => some (if x.prefersUpper lower then upper else lower)
  | true, false => some lower
  | false, true => some upper
  | false, false => none

/-- How many digits a number has. -/
def digitCount (n : Nat) : Nat := (Nat.toDigits 10 n).length

/-- The exponent `k` of the number, meaning that it lies between `10 ^ (k - 1)` and `10 ^ k`. -/
def Binary.magnitude (x : Binary) : Int :=
  let (numerator, denominator) := fraction x.mantissa x.exponent 0
  if denominator ≤ numerator then digitCount (numerator / denominator)
  else
    let zeros := digitCount denominator - digitCount numerator
    -- The quotient has `zeros` or `zeros - 1` zeros after the point.
    if denominator ≤ numerator * Nat.pow 10 zeros then 1 - zeros else -zeros

/-- Tries ever finer grids, `budget` of them, starting with that of `10 ^ exponent`. -/
def Binary.search (x : Binary) : Nat → Int → Scaled
  | 0, exponent => x.below exponent
  | budget + 1, exponent =>
    match x.onGrid? exponent with
    | some d => d
    | none => x.search budget (exponent - 1)

/-- The shortest decimal that reads back as the number. -/
def Binary.shortest (x : Binary) : Scaled := x.search 17 (x.magnitude - 1)

end MapArchive.Decimal
