import MapArchive.Compression.Bzip2.Text
import MapArchive.Compression.PrefixCode

/-!
# Blocks of bzip2 streams

A block gives the sorted column of its text as a sequence of symbols in prefix codes. Every fifty
symbols another code may be chosen. A symbol tells the place of a byte in a list of the bytes in
use, from which it is then moved to the front; the first two symbols are the digits of a number,
which says how often the byte at the front is repeated.
-/

namespace MapArchive.Bzip2

open Decoder (Turn)

/-- Reads a bit, the highest of each byte first. -/
def bit : BitDecoder Bool := Bits.bit Bits.highFirst

/-- Reads a number of so many bits, the highest first. -/
def number (count : Nat) : BitDecoder Nat := Bits.highNumber Bits.highFirst count 0

/-- The item at a place and the list with it moved to the front. -/
def moveToFront {α : Type} (items : List α) (place : Nat) : Option (α × List α) :=
  items[place]?.map fun item => (item, item :: items.eraseIdx place)

/-- Reads sixteen bits, and gives the places of those set. -/
def bitPlaces : BitDecoder (List Nat) := do
  let flags ← (List.range 16).mapM fun _ => bit
  return (flags.zipIdx.filter (·.1)).map (·.2)

/-- Reads which bytes are in use: first in which of sixteen ranges there are any, then which ones
there are in each of these. -/
def bytesInUse : BitDecoder (List UInt8) := do
  let ranges ← bitPlaces
  let found ← ranges.mapM fun range => do
    return (← bitPlaces).map fun place => UInt8.ofNat (16 * range + place)
  return found.flatten

/-- Reads one bits up to a zero bit, and counts them. There must be less than `limit`. -/
def unary : (limit : Nat) → BitDecoder Nat
  | 0 => Bits.corrupt
  | limit + 1 => do
    if ← bit then return 1 + (← unary limit) else return 0

/-- The greatest number of choices of a code that are of use. -/
def choiceLimit : Nat := 18002

/-- Reads so many choices among the codes. Each is written as its place in a list from which it is
then moved to the front. -/
def choices (codeCount count : Nat) : BitDecoder (List Nat) := do
  let places ← (List.range count).mapM fun _ => unary codeCount
  return (resolve (List.range codeCount) (places.take choiceLimit))
where
  /-- The choices at the given places. -/
  resolve (recent : List Nat) : List Nat → List Nat
    | [] => []
    | place :: rest => match moveToFront recent place with
      | some (choice, recent) => choice :: resolve recent rest
      | none => []

/-- Reads the length of a word, which is written as steps up or down from the length before. -/
def wordLength (before : Nat) : BitDecoder Nat :=
  Bits.loop before fun length => do
    Bits.require (1 ≤ length && length ≤ 20)
    if !(← bit) then
      return .leave length
    return .again (if ← bit then length - 1 else length + 1)

/-- Reads the lengths of so many words. -/
def wordLengths : (count before : Nat) → BitDecoder (List Nat)
  | 0, _ => return []
  | count + 1, before => do
    let length ← wordLength before
    return length :: (← wordLengths count length)

/-- Reads a code for so many symbols. A word is given up after 21 bits. -/
def code (symbolCount : Nat) : BitDecoder PrefixCode := do
  return .ofLengths 21 (← wordLengths symbolCount (← number 5))

/-- A column that is being read. -/
structure ColumnState where
  /-- The column so far. -/
  column : ByteArray
  /-- The bytes in use, those used last first. -/
  recent : List UInt8
  /-- How often the byte at the front is to be repeated, as far as read. -/
  repeats : Nat
  /-- The value of the next digit of that number. -/
  weight : Nat
  /-- The number of symbols read. -/
  symbolCount : Nat

/-- Appends the repeated byte. The column may not become longer than `limit`. -/
def ColumnState.flush (limit : Nat) (s : ColumnState) : Option ColumnState :=
  if s.weight = 1 then some s
  else if limit < s.column.size + s.repeats then none
  else
    let byte := s.recent.headD 0
    some { s with
      column := s.repeats.repeat (·.push byte) s.column, repeats := 0, weight := 1 }

/-- No digit may have so great a value: 2²¹. -/
def weightLimit : Nat := 0x200000

/-- Reads a symbol and does what it says. -/
def symbol (limit : Nat) (codes : Array PrefixCode) (choices : Array Nat) (last : Nat)
    (s : ColumnState) : BitDecoder (Turn ColumnState ByteArray) := do
  match choices[s.symbolCount / 50]? with
  | none => Bits.corrupt
  | some choice =>
    let n ← (codes.getD choice ⟨[], #[]⟩).decode Bits.highFirst
    let s := { s with symbolCount := s.symbolCount + 1 }
    if n < 2 then
      Bits.require (s.weight < weightLimit)
      return .again { s with repeats := s.repeats + (n + 1) * s.weight, weight := 2 * s.weight }
    match s.flush limit with
    | none => Bits.corrupt
    | some s =>
      if n = last then
        return .leave s.column
      match moveToFront s.recent (n - 1) with
      | none => Bits.corrupt
      | some (byte, recent) =>
        Bits.require (s.column.size < limit)
        return .again { s with column := s.column.push byte, recent }

/-- Reads the text of a block, after its checksum. The column may have up to `limit` bytes. The
result ends with a byte that is not part of the text. -/
def blockText (limit : Nat) : BitDecoder ByteArray := do
  let turned ← bit
  let row ← number 24
  Bits.require (row ≤ limit + 10)
  let inUse ← bytesInUse
  Bits.require (!inUse.isEmpty)
  let codeCount ← number 3
  Bits.require (2 ≤ codeCount && codeCount ≤ 6)
  let choiceCount ← number 15
  Bits.require (1 ≤ choiceCount)
  let choices ← choices codeCount choiceCount
  let codes ← (List.range codeCount).mapM fun _ => code (inUse.length + 2)
  let column ← Bits.loop ⟨ByteArray.empty, inUse, 0, 1, 0⟩
    (symbol limit codes.toArray choices.toArray (inUse.length + 1))
  Bits.require (row < column.size)
  let text := textOf column row
  return if turned then turnBits text else text

end MapArchive.Bzip2
