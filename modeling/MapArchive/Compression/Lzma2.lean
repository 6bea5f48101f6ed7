import MapArchive.Compression.Lzma

/-!
# LZMA2 data

LZMA2 data are a sequence of chunks, up to a byte zero. The first byte of a chunk, its control byte,
says whether the chunk is LZMA data or uncompressed, and what is forgotten before it: the
dictionary, the probabilities, or nothing. The first chunk must forget the dictionary, and the first
LZMA chunk after that must give new properties.
-/

namespace MapArchive.Lzma2

open Decoder (Turn)

/-- What is remembered from chunk to chunk. -/
structure State where
  /-- How far back the output can be used. -/
  dictionarySize : Nat
  /-- The number of bytes put out since the dictionary was forgotten. Before the first chunk there
  is no dictionary. -/
  position : Option Nat
  /-- What LZMA chunks remember, if properties have been given. -/
  lzma : Option (Lzma.State × Array UInt16)

/-- What a control byte says. -/
inductive Control where
  /-- The end. -/
  | finish
  /-- An uncompressed chunk. -/
  | stored (forgetsDictionary : Bool)
  /-- An LZMA chunk, with the high bits of its size. -/
  | lzma (forgetsDictionary givesProperties forgetsProbabilities : Bool) (highSize : Nat)
  deriving DecidableEq, Repr

/-- Reads a control byte. -/
def Control.ofByte? (byte : UInt8) : Option Control :=
  if byte = 0 then some .finish
  else if byte = 1 then some (.stored true)
  else if byte = 2 then some (.stored false)
  else if byte < 0x80 then none
  else some (.lzma (0xE0 ≤ byte) (0xC0 ≤ byte) (0xA0 ≤ byte) (byte.toNat % 32))

/-- Forgets the dictionary if this is wanted. There must be one afterwards. LZMA chunks then need
new properties. -/
def forget (forgetsDictionary : Bool) (s : State) : Decoder (State × Nat) := do
  if forgetsDictionary then
    Decoder.room
    return ({ s with position := some 0, lzma := none }, 0)
  match s.position with
  | some position => return (s, position)
  | none => .corrupt

/-- Decodes an LZMA chunk. -/
def lzmaChunk (s : State) (position : Nat) (givesProperties forgetsProbabilities : Bool)
    (highSize : Nat) : Decoder State := do
  Decoder.require (givesProperties || s.lzma.isSome)
  let size := highSize * 0x10000 + (← Decoder.bigEndian 2) + 1
  let codedSize := (← Decoder.bigEndian 2) + 1
  let properties? ←
    if givesProperties then do pure (Lzma.Properties.ofByte? (← Decoder.read))
    else pure (s.lzma.map (·.1.properties))
  match properties? with
  | none => .corrupt
  | some properties =>
    let fresh := (Lzma.State.fresh properties s.dictionarySize position,
      Lzma.freshContexts properties)
    let (state, contexts) :=
      if forgetsProbabilities then fresh
      else match s.lzma with
        | none => fresh
        | some (state, contexts) => ({ state with position }, contexts)
    let ((_, state), coder) ← (Lzma.decode (some size) false).run state
      |>.run ⟨0, 0, contexts, some codedSize⟩
    Decoder.require (coder.left = some 0)
    return { s with position := some state.position, lzma := some (state, coder.contexts) }

/-- Decodes a chunk. -/
def chunk (s : State) : Decoder (Turn State Unit) := do
  match Control.ofByte? (← Decoder.read) with
  | none => .corrupt
  | some .finish => return .leave ()
  | some (.stored forgetsDictionary) =>
    let (s, position) ← forget forgetsDictionary s
    let size := (← Decoder.bigEndian 2) + 1
    Decoder.pass size
    return .again { s with position := some (position + size) }
  | some (.lzma forgetsDictionary givesProperties forgetsProbabilities highSize) =>
    let (s, position) ← forget forgetsDictionary s
    return .again (← lzmaChunk s position givesProperties forgetsProbabilities highSize)

/-- Decodes LZMA2 data. -/
def decoder (dictionarySize : Nat) : Decoder Unit :=
  Decoder.loop ⟨dictionarySize, none, none⟩ chunk

end MapArchive.Lzma2
