import MapArchive.Compression.RangeCoder

/-!
# LZMA data

LZMA data are a sequence of packets, written by a range coder. A packet is a literal byte, a part of
the earlier output given by its distance and length, or a marker for the end. The last four
distances are kept, as it takes less to say that one of them is used again. The contexts of a
packet's bits depend on what the packets before it were (`State.phase`), on how many bytes were put
out, and on the bytes before.

`decode` reads packets up to the declared number of bytes or to the marker.
-/

namespace MapArchive.Lzma

open Decoder (Turn)

/-- How contexts are chosen. -/
structure Properties where
  /-- How many high bits of the byte before a literal choose its contexts. -/
  literalContextBits : Nat
  /-- How many low bits of the position choose the contexts of a literal. -/
  literalPositionBits : Nat
  /-- How many low bits of the position choose the contexts of other bits. -/
  positionBits : Nat
  deriving DecidableEq, Repr

/-- Reads the properties from a byte. -/
def Properties.ofByte? (byte : UInt8) : Option Properties :=
  let n := byte.toNat
  let p : Properties := ⟨n % 9, n / 9 % 5, n / 45⟩
  if n < 225 ∧ p.literalContextBits + p.literalPositionBits ≤ 4 then some p else none

/-- What is remembered from packet to packet. -/
structure State where
  /-- How contexts are chosen. -/
  properties : Properties
  /-- How far back the output can be used. -/
  dictionarySize : Nat
  /-- The number of bytes put out. -/
  position : Nat
  /-- A summary of the kinds of the last packets. It is below seven after a literal. -/
  phase : Nat
  /-- The last distance, less one, as all distances here. -/
  distance : Nat
  /-- The last other distances. -/
  older : Nat × Nat × Nat

/-- How far back the output can be used, if so much is asked for. -/
def keptSize (declared : Nat) : Nat := (max declared 4096 + 15) / 16 * 16

/-- Nothing is remembered. -/
def State.fresh (properties : Properties) (dictionarySize position : Nat) : State :=
  ⟨properties, dictionarySize, position, 0, 0, (0, 0, 0)⟩

/-- Decoders of packets. -/
abbrev PacketDecoder := StateT State RangeDecoder

/-! ## Where the contexts are -/

/-- Of the bit that tells literals from other packets. -/
def isMatchContext (phase positionState : Nat) : Nat := 16 * phase + positionState

/-- Of the bit that tells a new distance from an old one. -/
def isRepeatContext (phase : Nat) : Nat := 192 + phase

/-- Of the bit that tells the last distance from an older one. -/
def isOlderContext (phase : Nat) : Nat := 204 + phase

/-- Of the bit that tells the second last distance from an older one. -/
def isThirdContext (phase : Nat) : Nat := 216 + phase

/-- Of the bit that tells the third last distance from the fourth last. -/
def isFourthContext (phase : Nat) : Nat := 228 + phase

/-- Of the bit that tells a single byte at the last distance from more bytes. -/
def isLongContext (phase positionState : Nat) : Nat := 240 + 16 * phase + positionState

/-- Of the slot of a distance. -/
def slotContext (length : Nat) : Nat := 432 + 64 * min (length - 2) 3

/-- Of the low bits of a distance whose slot is small. -/
def smallDistanceContext (start slot : Nat) : Nat := 688 + start - slot - 1

/-- Of the lowest four bits of a distance. -/
def alignContext : Nat := 803

/-- Of the length after a new distance. -/
def lengthContext : Nat := 819

/-- Of the length after an old distance. -/
def repeatLengthContext : Nat := 1333

/-- Of a literal. -/
def literalContext (s : State) (before : UInt8) : Nat :=
  let p := s.properties
  let low := s.position % (1 <<< p.literalPositionBits)
  let high := before.toNat >>> (8 - p.literalContextBits)
  1847 + 768 * (low <<< p.literalContextBits + high)

/-- The number of contexts. -/
def contextCount (p : Properties) : Nat :=
  1847 + 768 <<< (p.literalContextBits + p.literalPositionBits)

/-- Every context at the start. -/
def freshContexts (p : Properties) : Array UInt16 :=
  Array.replicate (contextCount p) RangeCoder.evenChance

/-! ## Packets -/

/-- What a packet stands for. -/
inductive Packet where
  /-- A byte. -/
  | literal (byte : UInt8)
  /-- A part of the earlier output, at a distance given less one. -/
  | copy (distance length : Nat)
  /-- The end. -/
  | marker

/-- Decodes a literal of which it is known that it differs from the byte `expected` at the last
distance. From the first bit in which it does, the byte is of no further use. -/
def unlikeFrom (base : Nat) : (expected : List Bool) → Nat → RangeDecoder Nat
  | [], node => return node
  | e :: rest, node => do
    let b ← RangeCoder.bit (base + 256 * (1 + e.toNat) + node)
    let node := 2 * node + b.toNat
    if b = e then unlikeFrom base rest node else RangeCoder.treeFrom base rest.length node

/-- The bits of a byte, the highest first. -/
def bitsOf (byte : UInt8) : List Bool := (List.range 8).reverse.map byte.toNat.testBit

/-- Decodes a literal. -/
def literal : PacketDecoder Packet := do
  let s ← get
  let before ← if s.position = 0 then pure 0 else Decoder.look 1
  let base := literalContext s before
  let byte ←
    if s.phase < 7 then RangeCoder.tree base 8
    else
      let expected ← Decoder.look (s.distance + 1)
      pure ((← unlikeFrom base (bitsOf expected) 1) - 256)
  set { s with
    phase := if s.phase < 4 then 0 else if s.phase < 10 then s.phase - 3 else s.phase - 6 }
  return .literal (UInt8.ofNat byte)

/-- Decodes a length. -/
def length (base positionState : Nat) : RangeDecoder Nat := do
  if !(← RangeCoder.bit base) then
    return 2 + (← RangeCoder.tree (base + 2 + 8 * positionState) 3)
  else if !(← RangeCoder.bit (base + 1)) then
    return 10 + (← RangeCoder.tree (base + 130 + 8 * positionState) 3)
  else
    return 18 + (← RangeCoder.tree (base + 258) 8)

/-- Decodes a new distance. -/
def newDistance (length : Nat) : RangeDecoder Nat := do
  let slot ← RangeCoder.tree (slotContext length) 6
  if slot < 4 then
    return slot
  let count := slot / 2 - 1
  let start := (2 + slot % 2) <<< count
  if slot < 14 then
    return start + (← RangeCoder.reverseTree (smallDistanceContext start slot) count)
  let high ← RangeCoder.evenNumber (count - 4)
  return start + 16 * high + (← RangeCoder.reverseTree alignContext 4)

/-- The distance that stands for the end. -/
def markerDistance : Nat := 0xFFFFFFFF

/-- Goes on only if the output reaches back so far. -/
def requireDistance (distance : Nat) : PacketDecoder Unit := do
  let s ← get
  StateT.lift (StateT.lift (Decoder.require (distance < min s.position s.dictionarySize)))

/-- Decodes the rest of a packet that has a new distance. -/
def newMatch (positionState : Nat) : PacketDecoder Packet := do
  let length ← length lengthContext positionState
  let distance ← newDistance length
  modify fun s =>
    { s with
      phase := if s.phase < 7 then 7 else 10
      distance
      older := (s.distance, s.older.1, s.older.2.1) }
  if distance = markerDistance then
    return .marker
  requireDistance distance
  return .copy distance length

/-- Makes an older distance the last one. -/
def chooseOlder : PacketDecoder Unit := do
  let s ← get
  let (second, third, fourth) := s.older
  if !(← RangeCoder.bit (isThirdContext s.phase)) then
    set { s with distance := second, older := (s.distance, third, fourth) }
  else if !(← RangeCoder.bit (isFourthContext s.phase)) then
    set { s with distance := third, older := (s.distance, second, fourth) }
  else
    set { s with distance := fourth, older := (s.distance, second, third) }

/-- Decodes the rest of a packet that has an old distance. -/
def repeatedMatch (positionState : Nat) : PacketDecoder Packet := do
  requireDistance 0
  let phase := (← get).phase
  if ← RangeCoder.bit (isOlderContext phase) then
    chooseOlder
  else if !(← RangeCoder.bit (isLongContext phase positionState)) then
    modify fun s => { s with phase := if phase < 7 then 9 else 11 }
    return .copy (← get).distance 1
  modify fun s => { s with phase := if phase < 7 then 8 else 11 }
  return .copy (← get).distance (← length repeatLengthContext positionState)

/-- Decodes a packet. -/
def packet : PacketDecoder Packet := do
  let s ← get
  let positionState := s.position % (1 <<< s.properties.positionBits)
  if !(← RangeCoder.bit (isMatchContext s.phase positionState)) then
    literal
  else if !(← RangeCoder.bit (isRepeatContext s.phase)) then
    newMatch positionState
  else
    repeatedMatch positionState

/-! ## Sequences of packets -/

/-- The input is no LZMA data. -/
def corrupt {α : Type} : PacketDecoder α := StateT.lift (StateT.lift .corrupt)

/-- Ends where the coded data can end. -/
def finish {σ : Type} : PacketDecoder (Turn σ Unit) := do
  if ← RangeCoder.isFinished then return .leave () else corrupt

/-- Puts out what a packet stands for. No more than `left` bytes are put out, if a number is given;
a packet that stands for more is an error. -/
def putOut (left : Option Nat) : Packet → PacketDecoder (Turn (Option Nat) Unit)
  | .literal byte => do
    Decoder.write byte
    modify fun s => { s with position := s.position + 1 }
    return .again (left.map (· - 1))
  | .copy distance length => do
    let fitting := match left with
      | none => length
      | some left => min length left
    Decoder.copy (distance + 1) fitting
    if fitting < length then corrupt
    modify fun s => { s with position := s.position + length }
    return .again (left.map (· - length))
  | .marker => match left with
    | none => finish
    | some _ => corrupt

/-- Decodes packets until `size` bytes have been put out or, if no size is given, to the marker.
After the last byte a marker may follow if `markerAllowed`; otherwise it is an error if the coded
data cannot end there. -/
def decode (size : Option Nat) (markerAllowed : Bool) : PacketDecoder Unit := do
  RangeCoder.start
  fun s coder => Decoder.loop ((size, s), coder) fun ((left, s), coder) => do
    let ((turn, s), coder) ← (step left).run s |>.run coder
    match turn with
    | .again left => return .again ((left, s), coder)
    | .leave a => return .leave ((a, s), coder)
where
  /-- One packet, or the end. -/
  step (left : Option Nat) : PacketDecoder (Turn (Option Nat) Unit) := do
    if left = some 0 then
      if ← RangeCoder.isFinished then
        return .leave ()
      if !markerAllowed then
        corrupt
      match ← packet with
      | .marker => finish
      | _ => corrupt
    else
      putOut left (← packet)

end MapArchive.Lzma
