import MapArchive.Compression.Bits

/-!
# Canonical prefix codes

A prefix code gives each of some symbols a code word of bits. A canonical one is fixed by the
lengths of the code words alone: read as numbers, the words of each length follow each other in the
order of their symbols, and the first of a length follows the last one of the length before it.
Hence a word can be decoded bit by bit from two things: how many words there are of each length, and
the symbols in the order of their words.
-/

namespace MapArchive

/-- A canonical prefix code. -/
structure PrefixCode where
  /-- The numbers of words with one bit, two bits, and so on. -/
  counts : List Nat
  /-- The symbols, by the lengths of their words, those of one length in order. -/
  symbols : Array Nat
  deriving Repr

namespace PrefixCode

/-- The code whose symbols have words of these lengths. Length zero stands for no word. Words are
looked for up to `longest` bits. -/
def ofLengths (longest : Nat) (lengths : List Nat) : PrefixCode :=
  let used := (List.range longest).map (· + 1)
  { counts := used.map fun length => lengths.count length
    symbols := (used.flatMap fun length => lengths.zipIdx.filterMap fun (l, symbol) =>
      if l = length then some symbol else none).toArray }

/-- How many more words of full length the code has room for: negative if there are too many words
already. -/
def roomLeft (code : PrefixCode) : Int :=
  code.counts.foldl (fun (room : Int) (count : Nat) => 2 * room - count) 1

/-- The code has a word for each sequence of bits. -/
def isComplete (code : PrefixCode) : Bool := code.roomLeft = 0

/-- Goes on with a word: `word` holds the bits so far, `first` the first word of their number of
bits, and `index` the number of shorter words. -/
def decodeFrom (split : UInt8 → List Bool) (symbols : Array Nat) :
    List Nat → (word first index : Nat) → BitDecoder Nat
  | [], _, _, _ => StateT.lift .corrupt
  | count :: longer, word, first, index => do
    let word := 2 * word + (← Bits.bit split).toNat
    let first := 2 * first
    if word < first + count then
      match symbols[index + (word - first)]? with
      | some symbol => return symbol
      | none => StateT.lift .corrupt
    else decodeFrom split symbols longer word (first + count) (index + count)

/-- Reads a word and gives its symbol. -/
def decode (code : PrefixCode) (split : UInt8 → List Bool) : BitDecoder Nat :=
  decodeFrom split code.symbols code.counts 0 0 0

end PrefixCode

end MapArchive
