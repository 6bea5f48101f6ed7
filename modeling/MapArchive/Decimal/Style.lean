import MapArchive.Decimal.Shortest

/-!
# How a double is written

The digits are the shortest that read back. Where the point stands is a decision of the format:
numbers from `0.0001` up to `10 ^ 16` are written positionally, with at least one digit on either
side of the point, all others with an exponent of at least two digits.
-/

namespace MapArchive.Decimal

/-- The decisions about the written form of a number. -/
structure Style where
  /-- The least position of the point that is still written positionally. -/
  leastPoint : Int
  /-- The greatest position of the point that is still written positionally. -/
  greatestPoint : Int
  /-- The least number of digits in an exponent. -/
  exponentWidth : Nat

/-- Coordinates are positional from `0.0001` to below `10 ^ 16`. -/
def coordinateStyle : Style := ⟨-3, 16, 2⟩

/-- Drops zeros from the end of a list of digits. -/
def withoutTrailingZeros (digits : List Char) : List Char :=
  (digits.reverse.dropWhile (· = '0')).reverse

/-- The digits of an exponent, filled up with zeros from the left. -/
def exponentDigits (width n : Nat) : List Char :=
  let digits := Nat.toDigits 10 n
  List.replicate (width - digits.length) '0' ++ digits

/-- Writes digits with the point after the first `point` of them, which may lie outside of them. -/
def Style.positional (digits : List Char) (point : Int) : List Char :=
  if point ≤ 0 then '0' :: '.' :: List.replicate (-point).toNat '0' ++ digits
  else
    let whole := digits.take point.toNat
    let fill := List.replicate (point.toNat - digits.length) '0'
    let part := digits.drop point.toNat
    whole ++ fill ++ '.' :: (if part.isEmpty then ['0'] else part)

/-- Writes digits with the point after the first one and an exponent. -/
def Style.scientific (form : Style) (digits : List Char) (point : Int) : List Char :=
  let exponent := point - 1
  let mantissa :=
    match digits with
    | [] => ['0']
    | [d] => [d]
    | d :: rest => d :: '.' :: rest
  mantissa ++ 'e' :: (if exponent < 0 then '-' else '+') ::
    exponentDigits form.exponentWidth exponent.natAbs

/-- Writes a decimal that is not zero. -/
def Style.write (form : Style) (d : Scaled) : List Char :=
  let all := Nat.toDigits 10 d.digits
  let point := (all.length : Int) + d.exponent
  let digits := withoutTrailingZeros all
  if form.leastPoint ≤ point ∧ point ≤ form.greatestPoint then Style.positional digits point
  else form.scientific digits point

/-- The sign of a double: 2⁶³. -/
def signBit : Nat := 0x8000000000000000

/-- The text of a double. -/
def text (x : Float) : String :=
  let bits := x.toBits.toNat
  let magnitude := bits % signBit
  let body :=
    if magnitude = 0 then "0.0".toList
    else if magnitude < 2047 * hiddenBit then
      coordinateStyle.write (Binary.ofBits magnitude).shortest
    else if magnitude = 2047 * hiddenBit then "inf".toList
    else "nan".toList
  let signed := signBit ≤ bits ∧ magnitude ≤ 2047 * hiddenBit
  String.ofList (if signed then '-' :: body else body)

end MapArchive.Decimal
