import MapArchive.Compression.Decoder

/-!
# Range coding

A range coder writes bits in fractions of a bit, according to how probable they are. Each bit is
coded in a context. A context is a number which holds the probability of a zero; it is adapted with
every bit. The decoder keeps an interval of numbers and a place within it; a bit divides the
interval in proportion to its probability, and it is a zero if the place is in the lower part.

The coded data may be declared to end after a number of bytes. The decoder may not read past them.
-/

namespace MapArchive

/-- The state of a range decoder. -/
structure RangeCoder where
  /-- The size of the interval. -/
  range : UInt32
  /-- The place within the interval. -/
  code : UInt32
  /-- For each context, how probable a zero is, in units of 2⁻¹¹. -/
  contexts : Array UInt16
  /-- How many bytes of coded data are left, if it is known. -/
  left : Option Nat

/-- Decoders that read from a range coder. -/
abbrev RangeDecoder := StateT RangeCoder Decoder

namespace RangeCoder

/-- The probability of one half. -/
def evenChance : UInt16 := 1024

/-- Reads a byte of the coded data. -/
def readByte : RangeDecoder UInt8 := fun s => do
  let byte ← Decoder.read
  match s.left with
  | none => return (byte, s)
  | some 0 => .corrupt
  | some (left + 1) => return (byte, { s with left := some left })

/-- Reads one more byte if the interval has become small. -/
def normalize : RangeDecoder Unit := do
  if (← get).range < 0x1000000 then
    let byte ← readByte
    modify fun s => { s with range := s.range <<< 8, code := (s.code <<< 8) ||| byte.toUInt32 }

/-- Decodes a bit in a context. -/
def bit (context : Nat) : RangeDecoder Bool := do
  normalize
  modifyGet fun ⟨range, code, contexts, left⟩ =>
    let chance := contexts.getD context evenChance
    let bound := (range >>> 11) * chance.toUInt32
    if code < bound then
      (false, ⟨bound, code,
        contexts.setIfInBounds context (chance + ((2048 - chance) >>> 5)), left⟩)
    else
      (true, ⟨range - bound, code - bound,
        contexts.setIfInBounds context (chance - (chance >>> 5)), left⟩)

/-- Decodes a bit for which zero and one are equally probable, without a context. -/
def evenBit : RangeDecoder Bool := do
  normalize
  modifyGet fun ⟨range, code, contexts, left⟩ =>
    let half := range >>> 1
    let reduced := code - half
    if reduced &&& 0x80000000 = 0 then (true, ⟨half, reduced, contexts, left⟩)
    else (false, ⟨half, code, contexts, left⟩)

/-- Goes on with a number whose bits are decoded from the highest. The context of a bit depends on
those above it: it is `base` and the number so far, which starts with a one. -/
def treeFrom (base : Nat) : Nat → Nat → RangeDecoder Nat
  | 0, node => return node
  | count + 1, node => do
    treeFrom base count (2 * node + (← bit (base + node)).toNat)

/-- Decodes a number of so many bits, from the highest, each in the context of those above it. -/
def tree (base count : Nat) : RangeDecoder Nat := do
  return (← treeFrom base count 1) - 1 <<< count

/-- Goes on with a number whose bits are decoded from the lowest. -/
def reverseTreeFrom (base : Nat) : (count node place : Nat) → RangeDecoder Nat
  | 0, _, _ => return 0
  | count + 1, node, place => do
    let b ← bit (base + node)
    return b.toNat * place + (← reverseTreeFrom base count (2 * node + b.toNat) (2 * place))

/-- Decodes a number of so many bits, from the lowest, each in the context of those below it. -/
def reverseTree (base count : Nat) : RangeDecoder Nat := reverseTreeFrom base count 1 1

/-- Goes on with a number whose bits are decoded from the highest, without contexts. -/
def evenNumberFrom : Nat → Nat → RangeDecoder Nat
  | 0, above => return above
  | count + 1, above => do
    evenNumberFrom count (2 * above + (← evenBit).toNat)

/-- Decodes a number of so many bits, from the highest, without contexts. -/
def evenNumber (count : Nat) : RangeDecoder Nat := evenNumberFrom count 0

/-- Reads the first five bytes of coded data, of which the first is always zero. -/
def start : RangeDecoder Unit := do
  let first ← readByte
  StateT.lift (Decoder.require (first = 0))
  let mut code : UInt32 := 0
  for _ in [0, 1, 2, 3] do
    code := (code <<< 8) ||| (← readByte).toUInt32
  modify fun s => { s with range := 0xFFFFFFFF, code }

/-- Coded data can end only where the place is the start of the interval. -/
def isFinished : RangeDecoder Bool := do
  normalize
  return (← get).code = 0

end RangeCoder

end MapArchive
