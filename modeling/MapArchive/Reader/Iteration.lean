import MapArchive.Block.ElementWalk
import MapArchive.Reader.Data

/-!
# Iterations over a file

A `BlockIteration` gives the blocks of a file, an `ElementIteration` their elements. Any number of
them can use one reader; each block goes to the one that asks for it. An iteration ends at the end
of the file or with an error, and then gives nothing more, while a new one goes on after the blob
which has failed.

`restOfBlocks` and `forEach` read everything that is left at once.
-/

namespace MapArchive

/-- An element together with its block, which is needed to make sense of it. -/
structure BlockElement where
  /-- The block. -/
  block : BlockMessage
  /-- The element. -/
  element : Element

/-- The elements of a block, each with the block. -/
def BlockMessage.blockElements (block : BlockMessage) : List BlockElement :=
  block.elements.map (⟨block, ·⟩)

/-- An iteration over the blocks of a file. -/
structure BlockIteration where
  /-- Whether it has not ended. -/
  isLive : Bool
  deriving DecidableEq, Repr

/-- All that is left of a file, up to an error. -/
structure Remainder (σ : Type) where
  /-- The blocks, each with what is to be noted before it. -/
  blocks : List (List LogEvent × BlockMessage)
  /-- The error at the end, if any. -/
  failure : Option ReadError
  /-- What is to be noted at the end. -/
  events : List LogEvent
  /-- The reader afterwards. -/
  reader : ElementReader σ

/-- The elements of all blocks. -/
def Remainder.elements {σ : Type} (rest : Remainder σ) : List BlockElement :=
  rest.blocks.flatMap fun (_, block) => block.blockElements

/-- What is to be noted, from first to last. -/
def Remainder.allEvents {σ : Type} (rest : Remainder σ) : List LogEvent :=
  rest.blocks.flatMap (·.1) ++ rest.events

namespace ElementReader

variable {σ : Type} [FiniteStream σ]

open FiniteStream (remaining)

/-- Reads all blocks that are left, after those already `seen`. -/
def restOfBlocksAfter (seen : Array (List LogEvent × BlockMessage)) (r : ElementReader σ) :
    Remainder σ :=
  match h : r.nextBlock with
  | ⟨.error e, events, s⟩ => ⟨seen.toList, some e, events, s⟩
  | ⟨.ok none, events, s⟩ => ⟨seen.toList, none, events, s⟩
  | ⟨.ok (some block), events, s⟩ =>
    have := remaining_of_nextBlock h
    restOfBlocksAfter (seen.push (events, block)) s
termination_by remaining r.blobs.stream

/-- Reads all blocks that are left. -/
def restOfBlocks (r : ElementReader σ) : Remainder σ := restOfBlocksAfter #[] r

end ElementReader

namespace BlockIteration

variable {σ : Type} [FiniteStream σ]

/-- Nothing has been read. -/
def start : BlockIteration := ⟨true⟩

/-- An iteration that has ended. -/
def ended : BlockIteration := ⟨false⟩

/-- Gives the next block. -/
def next (it : BlockIteration) (r : ElementReader σ) :
    Report σ (Option BlockMessage) × BlockIteration :=
  if it.isLive then
    let report := r.nextBlock
    match report.result with
    | .ok (some _) => (report, ⟨true⟩)
    | _ => (report, ⟨false⟩)
  else (⟨.ok none, [], r⟩, it)

/-- Gives all blocks to come. The iteration has then ended. -/
def rest (it : BlockIteration) (r : ElementReader σ) : Remainder σ :=
  if it.isLive then r.restOfBlocks else ⟨[], none, [], r⟩

end BlockIteration

/-- An iteration over the elements of a file. -/
structure ElementIteration where
  /-- Where the blocks come from. -/
  blocks : BlockIteration
  /-- The block whose elements are being given, and those to come. -/
  current : Option (BlockMessage × ElementWalk)

namespace ElementIteration

variable {σ : Type} [FiniteStream σ]

open FiniteStream (remaining)

/-- Nothing has been read. -/
def start : ElementIteration := ⟨.start, none⟩

/-- Gives an element of the current block, if there is one left. -/
def nextOfBlock (it : ElementIteration) : Option BlockElement × ElementIteration :=
  match it.current with
  | none => (none, it)
  | some (block, walk) =>
    match walk.next with
    | (some element, walk) => (some ⟨block, element⟩, { it with current := some (block, walk) })
    | (none, _) => (none, { it with current := none })

/-- An iteration that has ended. -/
def ended : ElementIteration := ⟨⟨false⟩, none⟩

/-- Gives the first element of the next block that has any, after noting `before`. -/
def nextFromBlocks (before : List LogEvent) (r : ElementReader σ) :
    Report σ (Option BlockElement) × ElementIteration :=
  match h : r.nextBlock with
  | ⟨.error e, events, s⟩ => (⟨.error e, before ++ events, s⟩, ended)
  | ⟨.ok none, events, s⟩ => (⟨.ok none, before ++ events, s⟩, ended)
  | ⟨.ok (some block), events, s⟩ =>
    match nextOfBlock ⟨.start, some (block, block.walk)⟩ with
    | (some element, it) => (⟨.ok (some element), before ++ events, s⟩, it)
    | (none, _) =>
      have := ElementReader.remaining_of_nextBlock h
      nextFromBlocks (before ++ events) s
termination_by remaining r.blobs.stream

/-- Gives the next element. -/
def next (it : ElementIteration) (r : ElementReader σ) :
    Report σ (Option BlockElement) × ElementIteration :=
  match it.nextOfBlock with
  | (some element, it) => (⟨.ok (some element), [], r⟩, it)
  | (none, it) =>
    if it.blocks.isLive then nextFromBlocks [] r else (⟨.ok none, [], r⟩, it)

/-- The elements of the current block to come. -/
def restOfBlock (it : ElementIteration) : List BlockElement :=
  match it.current with
  | none => []
  | some (block, walk) => (Walk.toList walk).map (⟨block, ·⟩)

/-- Gives all elements to come. The iteration has then ended. -/
def rest (it : ElementIteration) (r : ElementReader σ) : List BlockElement × Remainder σ :=
  let rest := it.blocks.rest r
  (it.restOfBlock ++ rest.blocks.flatMap fun (_, block) =>
    (Walk.toList block.walk).map (⟨block, ·⟩), rest)

end ElementIteration

namespace ElementReader

variable {σ : Type} [FiniteStream σ]

/-- The elements that a function called on every element of the file would see, and the rest of the
outcome. -/
def forEach (r : ElementReader σ) : List BlockElement × Remainder σ :=
  let rest := r.restOfBlocks
  (rest.elements, rest)

end ElementReader

end MapArchive
