import MapArchive.Compression.Decoder

/-!
# Reading bit by bit

A stream of bits is a stream of bytes each of which is split into eight bits, the lowest or the
highest first. The bits of the last byte read that have not been used yet are the state of a
`BitDecoder`.
-/

namespace MapArchive

/-- Decoders that read bits. The state holds what is left of the last byte. -/
abbrev BitDecoder := StateT (List Bool) Decoder

namespace Bits

/-- The bits of a byte, the lowest first. -/
def lowFirst (byte : UInt8) : List Bool :=
  (List.range 8).map byte.toNat.testBit

/-- The bits of a byte, the highest first. -/
def highFirst (byte : UInt8) : List Bool :=
  (lowFirst byte).reverse

/-- Reads a bit. -/
def bit (split : UInt8 → List Bool) : BitDecoder Bool := fun left =>
  match left with
  | b :: left => return (b, left)
  | [] => do
    match split (← Decoder.read) with
    | b :: left => return (b, left)
    | [] => .corrupt

/-- Reads a number of so many bits, of which the first read is the highest. -/
def highNumber (split : UInt8 → List Bool) : Nat → Nat → BitDecoder Nat
  | 0, above => return above
  | count + 1, above => do
    highNumber split count (2 * above + (← bit split).toNat)

/-- Reads a number of so many bits, of which the first read is the lowest. -/
def lowNumber (split : UInt8 → List Bool) : Nat → BitDecoder Nat
  | 0 => return 0
  | count + 1 => do
    let low ← bit split
    return low.toNat + 2 * (← lowNumber split count)

/-- The input is no stream of its kind. -/
def corrupt {α : Type} : BitDecoder α := StateT.lift .corrupt

/-- Goes on only if a condition holds of the input. -/
def require (condition : Bool) : BitDecoder Unit := StateT.lift (Decoder.require condition)

/-- A turn of a loop, with the bits that are left as a part of its state and of its result. -/
def keepLeft {σ α : Type} (turn : σ → BitDecoder (Decoder.Turn σ α)) :
    σ × List Bool → Decoder (Decoder.Turn (σ × List Bool) (α × List Bool)) := fun (s, left) => do
  match ← turn s left with
  | (.again s, left) => return .again (s, left)
  | (.leave a, left) => return .leave (a, left)

/-- A loop over a stream of bits. -/
def loop {σ α : Type} (s : σ) (turn : σ → BitDecoder (Decoder.Turn σ α)) : BitDecoder α :=
  fun left => Decoder.loop (s, left) (keepLeft turn)

/-- Passes over the rest of the last byte. -/
def align : BitDecoder Unit := set ([] : List Bool)

/-- A byte has eight bits. -/
@[simp] theorem length_lowFirst (byte : UInt8) : (lowFirst byte).length = 8 := by
  simp [lowFirst]

end Bits

end MapArchive
