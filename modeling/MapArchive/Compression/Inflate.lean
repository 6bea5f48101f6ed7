import MapArchive.Compression.PrefixCode

/-!
# Deflated data

Deflated data come in blocks. A block is stored, or a sequence of symbols in two prefix codes: one
for literal bytes, lengths and the end of the block, and one for distances. The codes are fixed, or
given at the start of the block by the lengths of their words, which are themselves written in a
prefix code. A length and a distance together stand for a part of the earlier output.

A code must have a word for every sequence of bits. Two exceptions are allowed: a code for literals
or distances may have a single word of one bit, or no word at all.
-/

namespace MapArchive.Inflate

open Decoder (Turn)

/-- Reads a bit, the lowest of each byte first. -/
def bit : BitDecoder Bool := Bits.bit Bits.lowFirst

/-- Reads a number of so many bits, the lowest first. -/
def number (count : Nat) : BitDecoder Nat := Bits.lowNumber Bits.lowFirst count

/-- Reads a word of a prefix code. -/
def symbol (code : PrefixCode) : BitDecoder Nat := code.decode Bits.lowFirst

/-- The symbol for the end of a block. -/
def endOfBlock : Nat := 256

/-- The least length, and the number of further bits, for the lengths in order. -/
def lengthRange (n : Nat) : Nat × Nat :=
  if n < 8 then (3 + n, 0)
  else if n = 28 then (258, 0)
  else
    let extra := (n - 4) / 4
    (3 + (4 + n % 4) <<< extra, extra)

/-- The least distance, and the number of further bits, for the distances in order. -/
def distanceRange (n : Nat) : Nat × Nat :=
  if n < 4 then (1 + n, 0)
  else
    let extra := (n - 2) / 2
    (1 + (2 + n % 2) <<< extra, extra)

/-- The pair of codes that a block is written in. -/
structure Codes where
  /-- For literal bytes, the end of the block, and lengths. -/
  literals : PrefixCode
  /-- For distances. -/
  distances : PrefixCode

/-- The code with words of these lengths. Words are looked for only as far as the longest one, but
at least for one bit. -/
def codeOf (lengths : List Nat) : PrefixCode :=
  .ofLengths (lengths.foldl Nat.max 1) lengths

/-- The codes that need not be given. -/
def fixedCodes : Codes where
  literals := codeOf <|
    List.replicate 144 8 ++ List.replicate 112 9 ++ List.replicate 24 7 ++ List.replicate 8 8
  distances := codeOf (List.replicate 32 5)

/-- Decodes one symbol, and the distance after a length. The result is false at the end of the
block. `written` is the number of bytes put out so far. -/
def literalOrMatch (codes : Codes) (written : Nat) : BitDecoder (Turn Nat Nat) := do
  let s ← symbol codes.literals
  if s < endOfBlock then
    Decoder.write (UInt8.ofNat s)
    return .again (written + 1)
  else if s = endOfBlock then
    return .leave written
  else
    Bits.require (s < 286)
    let (least, extra) := lengthRange (s - 257)
    let length := least + (← number extra)
    let d ← symbol codes.distances
    Bits.require (d < 30)
    let (nearest, extra) := distanceRange d
    let distance := nearest + (← number extra)
    Decoder.room
    Bits.require (distance ≤ written)
    Decoder.copy distance length
    return .again (written + length)

/-- Decodes symbols up to the end of the block. The result is the number of bytes put out so far. -/
def symbols (codes : Codes) (written : Nat) : BitDecoder Nat :=
  Bits.loop written (literalOrMatch codes)

/-- Decodes a stored block. -/
def stored (written : Nat) : BitDecoder Nat := do
  Bits.align
  let length ← number 16
  let complement ← number 16
  Bits.require (length + complement = 0xFFFF)
  Decoder.pass length
  return written + length

/-- The order in which the lengths of the words for lengths are given. -/
def lengthOrder : List Nat :=
  [16, 17, 18, 0, 8, 7, 9, 6, 10, 5, 11, 4, 12, 3, 13, 2, 14, 1, 15]

/-- The code for lengths, from the lengths of its words in the order above. Symbols not mentioned
have no word. -/
def lengthCode (given : List Nat) : PrefixCode :=
  codeOf ((List.range 19).map fun s => (given[lengthOrder.idxOf s]?).getD 0)

/-- Reads a word of the code for lengths. If there is no word at all, every bit stands for length
zero. -/
def lengthSymbol (code : PrefixCode) : BitDecoder Nat := do
  if code.symbols.isEmpty then
    let _ ← bit
    return 0
  symbol code

/-- Reads the lengths of `total` words, after those already `seen`. Symbols below 16 stand for
themselves, the others for a repetition of the last length or of zero. -/
def wordLengths (code : PrefixCode) (total : Nat) : BitDecoder (List Nat) :=
  Bits.loop #[] fun seen => do
    if total ≤ seen.size then
      return .leave seen.toList
    let s ← lengthSymbol code
    if s < 16 then
      return .again (seen.push s)
    let (length?, count) ←
      if s = 16 then do pure (seen.back?, 3 + (← number 2))
      else if s = 17 then do pure (some 0, 3 + (← number 3))
      else do pure (some 0, 11 + (← number 7))
    match length? with
    | none => Bits.corrupt
    | some length =>
      Bits.require (seen.size + count ≤ total)
      return .again (seen ++ Array.replicate count length)

/-- A code may have words missing only if it has none of more than one bit. -/
def isAdmissible (code : PrefixCode) : Bool :=
  code.isComplete || (0 < code.roomLeft && code.counts.length = 1)

/-- Reads the codes at the start of a block. -/
def readCodes : BitDecoder Codes := do
  let literalCount := 257 + (← number 5)
  let distanceCount := 1 + (← number 5)
  let lengthCount := 4 + (← number 4)
  Bits.require (literalCount ≤ 286 && distanceCount ≤ 30)
  let given ← (List.range lengthCount).mapM fun _ => number 3
  let code := lengthCode given
  Bits.require (code.isComplete || code.symbols.isEmpty)
  let lengths ← wordLengths code (literalCount + distanceCount)
  Bits.require (lengths[endOfBlock]? != some 0)
  let literals := codeOf (lengths.take literalCount)
  Bits.require (isAdmissible literals)
  let distances := codeOf (lengths.drop literalCount)
  Bits.require (isAdmissible distances)
  return ⟨literals, distances⟩

/-- Decodes one block. -/
def block (written : Nat) : BitDecoder (Turn Nat Unit) := do
  let last ← bit
  let written ← match ← number 2 with
    | 0 => stored written
    | 1 => symbols fixedCodes written
    | 2 => symbols (← readCodes) written
    | _ => Bits.corrupt
  return if last then .leave () else .again written

/-- Decodes deflated data. What is left of the last byte is passed over. -/
def inflate : Decoder Unit := (Bits.loop 0 block).run' []

end MapArchive.Inflate
