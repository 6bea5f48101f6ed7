import MapArchive.Proofs.Block.ElementWalk
import MapArchive.Reader.Iteration

/-!
# What iterations give

It is enough to know which blocks a reader gives one after the other, and how it ends. An iteration
over the blocks gives these, and an iteration over the elements gives the elements of each of them
in turn; both then end in the same way and give nothing more.
-/

namespace MapArchive

variable {σ : Type} [FiniteStream σ]

namespace ElementReader

/-- What is answered after the last item: the error at which reading stops, or that there is nothing
more. -/
def ending {α : Type} : Option ReadError → Except ReadError (Option α)
  | none => .ok none
  | some e => .error e

/-- A reader gives some blocks and then ends. -/
def Yields : List BlockMessage → Option ReadError → ElementReader σ → Prop
  | [], failure, r => ∃ events s, r.nextBlock = ⟨ending failure, events, s⟩
  | block :: blocks, failure, r =>
    ∃ events s, r.nextBlock = ⟨.ok (some block), events, s⟩ ∧ Yields blocks failure s

/-- A reader gives some blocks and then comes to the end. -/
def Gives (blocks : List BlockMessage) (r : ElementReader σ) : Prop := r.Yields blocks none

/-- After the last item nothing more is given, if there is no error. -/
theorem take_ending_none {α : Type} (items : List α) (n : Nat) :
    (items.map (Except.ok ∘ some) ++ ending none :: List.replicate n (.ok none)).take
        (items.length + n) =
      items.map (Except.ok ∘ some) ++ List.replicate n (.ok none) := by
  have hends : (ending none :: List.replicate n (.ok none) : List (Except ReadError (Option α))) =
      List.replicate (n + 1) (.ok none) := rfl
  rw [hends, ← List.length_map (Except.ok ∘ some), List.take_length_add_append,
    List.take_replicate, Nat.min_eq_left (Nat.le_succ n)]

variable {blocks : List BlockMessage} {failure : Option ReadError} {r : ElementReader σ}

/-- Two readers with the same next block give the same. -/
theorem yields_congr {s : ElementReader σ} (h : r.nextBlock = s.nextBlock) :
    r.Yields blocks failure ↔ s.Yields blocks failure := by
  cases blocks with
  | nil => rw [Yields, Yields, h]
  | cons block blocks => rw [Yields, Yields, h]

section Rest

variable {seen : Array (List LogEvent × BlockMessage)} {events : List LogEvent}
  {s : ElementReader σ}

/-- Where there is no next block the blocks seen are all. -/
theorem restOfBlocksAfter_of_ending (h : r.nextBlock = ⟨ending failure, events, s⟩) :
    restOfBlocksAfter seen r = ⟨seen.toList, failure, events, s⟩ := by
  rw [restOfBlocksAfter]
  cases failure with
  | none =>
    split
    case h_1 hnext => rw [h] at hnext; cases hnext
    case h_2 hnext => rw [h] at hnext; cases hnext; rfl
    case h_3 hnext => rw [h] at hnext; cases hnext
  | some e =>
    split
    case h_1 hnext => rw [h] at hnext; cases hnext; rfl
    case h_2 hnext => rw [h] at hnext; cases hnext
    case h_3 hnext => rw [h] at hnext; cases hnext

/-- The next block is added to those seen. -/
theorem restOfBlocksAfter_of_block {block : BlockMessage}
    (h : r.nextBlock = ⟨.ok (some block), events, s⟩) :
    restOfBlocksAfter seen r = restOfBlocksAfter (seen.push (events, block)) s := by
  rw [restOfBlocksAfter]
  split
  case h_1 hnext => rw [h] at hnext; cases hnext
  case h_2 hnext => rw [h] at hnext; cases hnext
  case h_3 hnext => rw [h] at hnext; cases hnext; rfl

/-- The blocks to come are given after those seen, and reading ends as it is known to end. -/
theorem restOfBlocksAfter_of_yields (seen : Array (List LogEvent × BlockMessage))
    (h : Yields blocks failure r) :
    (restOfBlocksAfter seen r).blocks.map Prod.snd = seen.toList.map Prod.snd ++ blocks ∧
      (restOfBlocksAfter seen r).failure = failure := by
  induction blocks generalizing seen r with
  | nil =>
    obtain ⟨events, s, hend⟩ := h
    rw [restOfBlocksAfter_of_ending hend]
    exact ⟨(List.append_nil _).symm, rfl⟩
  | cons block blocks ih =>
    obtain ⟨events, s, hblock, hrest⟩ := h
    obtain ⟨hblocks, hfailure⟩ := ih (seen.push (events, block)) hrest
    rw [restOfBlocksAfter_of_block hblock, hblocks]
    refine ⟨?_, hfailure⟩
    rw [Array.toList_push, List.map_append, List.append_assoc]
    rfl

/-- A function called on every element sees those of all blocks that the reader gives. -/
theorem forEach_of_yields (h : Yields blocks failure r) :
    r.forEach.1 = blocks.flatMap BlockMessage.blockElements ∧ r.forEach.2.failure = failure := by
  obtain ⟨hblocks, hfailure⟩ := restOfBlocksAfter_of_yields #[] h
  have hrest : r.restOfBlocks.blocks.map Prod.snd = blocks := hblocks
  refine ⟨?_, hfailure⟩
  rw [← hrest, List.flatMap_map]
  rfl

end Rest

end ElementReader

open ElementReader (ending)

namespace BlockIteration

/-- What an iteration gives when it is asked so many times. -/
def nexts : Nat → BlockIteration → ElementReader σ → List (Except ReadError (Option BlockMessage))
  | 0, _, _ => []
  | n + 1, it, r => (it.next r).1.result :: nexts n (it.next r).2 (it.next r).1.reader

/-- What is given first does not depend on how often it is asked afterwards. -/
theorem take_nexts (m n : Nat) (it : BlockIteration) (r : ElementReader σ) :
    (nexts (m + n) it r).take n = nexts n it r := by
  induction n generalizing it r with
  | zero => rfl
  | succ n ih => rw [← Nat.add_assoc, nexts, nexts, List.take_succ_cons, ih]

/-- Once an iteration over blocks has ended it gives nothing. -/
theorem nexts_ended (n : Nat) (r : ElementReader σ) :
    nexts n ended r = List.replicate n (.ok none) := by
  induction n with
  | zero => rfl
  | succ n ih =>
    rw [List.replicate_succ, ← ih]
    rfl

variable {blocks : List BlockMessage} {failure : Option ReadError} {r : ElementReader σ}

/-- An iteration gives the blocks that the reader gives, ends as the reader does, and gives nothing
more. -/
theorem nexts_of_yields (h : r.Yields blocks failure) (n : Nat) :
    nexts (blocks.length + 1 + n) start r =
      blocks.map (Except.ok ∘ some) ++ ending failure :: List.replicate n (.ok none) := by
  induction blocks generalizing r with
  | nil =>
    obtain ⟨events, s, hend⟩ := h
    have hnext : start.next r = (⟨ending failure, events, s⟩, ended) := by
      rw [next, hend]
      cases failure <;> rfl
    rw [List.length_nil, Nat.zero_add, Nat.add_comm, nexts, hnext, nexts_ended]
    rfl
  | cons block blocks ih =>
    obtain ⟨events, s, hblock, hrest⟩ := h
    have hnext : start.next r = (⟨.ok (some block), events, s⟩, start) := by
      rw [next, hblock]
      rfl
    rw [List.length_cons, Nat.add_right_comm, Nat.add_right_comm _ 1, nexts, hnext,
      Nat.add_right_comm, ih hrest]
    rfl

/-- An iteration gives the blocks that the reader gives, and then nothing more. -/
theorem nexts_of_gives (h : r.Gives blocks) (n : Nat) :
    nexts (blocks.length + n) start r =
      blocks.map (.ok ∘ some) ++ List.replicate n (.ok none) := by
  rw [← take_nexts 1 (blocks.length + n) start r, Nat.add_comm 1, Nat.add_right_comm,
    nexts_of_yields h, ElementReader.take_ending_none]

/-- Iterations over readers that give the same blocks and end alike give the same. -/
theorem nexts_congr {τ : Type} [FiniteStream τ] {s : ElementReader τ}
    (hr : r.Yields blocks failure) (hs : s.Yields blocks failure) (n : Nat) :
    nexts n start r = nexts n start s := by
  rw [← take_nexts (blocks.length + 1) n start r, nexts_of_yields hr, ← nexts_of_yields hs,
    take_nexts]

end BlockIteration

namespace ElementIteration

/-- What an iteration gives when it is asked so many times. -/
def nexts : Nat → ElementIteration → ElementReader σ → List (Except ReadError (Option BlockElement))
  | 0, _, _ => []
  | n + 1, it, r => (it.next r).1.result :: nexts n (it.next r).2 (it.next r).1.reader

/-- What is given first does not depend on how often it is asked afterwards. -/
theorem take_nexts (m n : Nat) (it : ElementIteration) (r : ElementReader σ) :
    (nexts (m + n) it r).take n = nexts n it r := by
  induction n generalizing it r with
  | zero => rfl
  | succ n ih => rw [← Nat.add_assoc, nexts, nexts, List.take_succ_cons, ih]

/-- Once an iteration over elements has ended it gives nothing. -/
theorem nexts_ended (n : Nat) (r : ElementReader σ) :
    nexts n ended r = List.replicate n (.ok none) := by
  induction n with
  | zero => rfl
  | succ n ih =>
    rw [List.replicate_succ, ← ih]
    rfl

variable {it : ElementIteration} {r : ElementReader σ} {element : BlockElement}
  {elements : List BlockElement}

/-- What is left of a block is what its walk is still to give. -/
theorem restOfBlock_some (blocks : BlockIteration) (block : BlockMessage) (walk : ElementWalk) :
    restOfBlock ⟨blocks, some (block, walk)⟩ = (Walk.toList walk).map (⟨block, ·⟩) := rfl

/-- When nothing is left of the current block, nothing is given from it. -/
theorem nextOfBlock_of_nil (h : it.restOfBlock = []) : it.nextOfBlock.1 = none ∧
    it.nextOfBlock.2.blocks = it.blocks := by
  obtain ⟨blocks, _ | ⟨block, walk⟩⟩ := it
  · exact ⟨rfl, rfl⟩
  · rcases hnext : walk.next with ⟨_ | e, walk'⟩
    · simp only [nextOfBlock, hnext, and_self]
    · have hwalk := Walk.toList_of_some (s := walk) hnext
      rw [restOfBlock_some, hwalk] at h
      cases h

/-- The first element that is left of the current block is given from it. -/
theorem nextOfBlock_of_cons (h : it.restOfBlock = element :: elements) :
    it.nextOfBlock.1 = some element ∧ it.nextOfBlock.2.blocks = it.blocks ∧
      it.nextOfBlock.2.restOfBlock = elements := by
  obtain ⟨blocks, _ | ⟨block, walk⟩⟩ := it
  · cases h
  · rcases hnext : walk.next with ⟨_ | e, walk'⟩
    · have hwalk := Walk.toList_of_none (s := walk) hnext
      rw [restOfBlock_some, hwalk] at h
      cases h
    · have hwalk := Walk.toList_of_some (s := walk) hnext
      rw [restOfBlock_some, hwalk] at h
      obtain ⟨helement, helements⟩ := List.cons.inj h
      simp only [nextOfBlock, hnext, restOfBlock_some]
      exact ⟨congrArg some helement, trivial, helements⟩

/-- The elements of a block are left when it has just been read. -/
theorem restOfBlock_walk (blocks : BlockIteration) (block : BlockMessage) :
    restOfBlock ⟨blocks, some (block, block.walk)⟩ = block.blockElements := by
  rw [restOfBlock_some, block.toList_walk, BlockMessage.blockElements]

/-- When an element is left of the current block, it is the next one. -/
theorem next_of_some {after : ElementIteration} (h : it.nextOfBlock = (some element, after)) :
    it.next r = (⟨.ok (some element), [], r⟩, after) := by
  rw [next, h]

/-- When none is left, the next element is sought in the blocks to come. -/
theorem next_of_none (h : it.nextOfBlock.1 = none) (hlive : it.nextOfBlock.2.blocks = .start) :
    it.next r = nextFromBlocks [] r := by
  have hpair : it.nextOfBlock = (none, it.nextOfBlock.2) := Prod.ext h rfl
  rw [next, hpair]
  exact if_pos (congrArg BlockIteration.isLive hlive)

variable {failure : Option ReadError}

/-- Some elements are ahead of an iteration, and then an end: the elements left of the current
block, and those of the blocks that the reader gives. -/
def Ahead (elements : List BlockElement) (failure : Option ReadError) (it : ElementIteration)
    (r : ElementReader σ) : Prop :=
  ∃ blocks, it.blocks = .start ∧ r.Yields blocks failure ∧
    it.restOfBlock ++ blocks.flatMap BlockMessage.blockElements = elements

/-- Where there is no next block there is no next element, and the iteration ends. -/
theorem nextFromBlocks_of_ending {before events : List LogEvent} {s : ElementReader σ}
    (h : r.nextBlock = ⟨ending failure, events, s⟩) :
    nextFromBlocks before r = (⟨ending failure, before ++ events, s⟩, ended) := by
  rw [nextFromBlocks]
  cases failure with
  | none =>
    split
    case h_1 hnext => rw [h] at hnext; cases hnext
    case h_2 hnext => rw [h] at hnext; cases hnext; rfl
    case h_3 hnext => rw [h] at hnext; cases hnext
  | some e =>
    split
    case h_1 hnext => rw [h] at hnext; cases hnext; rfl
    case h_2 hnext => rw [h] at hnext; cases hnext
    case h_3 hnext => rw [h] at hnext; cases hnext

/-- A block without elements is passed over. -/
theorem nextFromBlocks_of_none {before events : List LogEvent} {s : ElementReader σ}
    {block : BlockMessage} (h : r.nextBlock = ⟨.ok (some block), events, s⟩)
    (hnone : (nextOfBlock ⟨.start, some (block, block.walk)⟩).1 = none) :
    nextFromBlocks before r = nextFromBlocks (before ++ events) s := by
  rw [nextFromBlocks]
  split
  case h_1 hnext => rw [h] at hnext; cases hnext
  case h_2 hnext => rw [h] at hnext; cases hnext
  case h_3 hnext =>
    rw [h] at hnext
    cases hnext
    split
    case h_1 hfound => rw [hfound] at hnone; cases hnone
    case h_2 => rfl

/-- The first element of a block is given. -/
theorem nextFromBlocks_of_some {before events : List LogEvent} {s : ElementReader σ}
    {block : BlockMessage} (h : r.nextBlock = ⟨.ok (some block), events, s⟩)
    (hsome : nextOfBlock ⟨.start, some (block, block.walk)⟩ = (some element, it)) :
    nextFromBlocks before r = (⟨.ok (some element), before ++ events, s⟩, it) := by
  rw [nextFromBlocks]
  split
  case h_1 hnext => rw [h] at hnext; cases hnext
  case h_2 hnext => rw [h] at hnext; cases hnext
  case h_3 hnext =>
    rw [h] at hnext
    cases hnext
    split
    case h_1 hfound => rw [hsome] at hfound; cases hfound; rfl
    case h_2 hfound => rw [hsome] at hfound; cases hfound

/-- If no block has any elements, the end is found. -/
theorem nextFromBlocks_of_yields_nil {blocks : List BlockMessage} (before : List LogEvent)
    (h : r.Yields blocks failure) (hempty : blocks.flatMap BlockMessage.blockElements = []) :
    ∃ events s, nextFromBlocks before r = (⟨ending failure, events, s⟩, ended) := by
  induction blocks generalizing before r with
  | nil =>
    obtain ⟨events, s, hend⟩ := h
    exact ⟨before ++ events, s, nextFromBlocks_of_ending hend⟩
  | cons block blocks ih =>
    obtain ⟨events, s, hblock, hrest⟩ := h
    obtain ⟨hnone, hothers⟩ := List.append_eq_nil_iff.1 hempty
    obtain ⟨hfound, _⟩ := nextOfBlock_of_nil ((restOfBlock_walk .start block).trans hnone)
    rw [nextFromBlocks_of_none hblock hfound]
    exact ih (before ++ events) hrest hothers

/-- The first element that any block has is found, and the other ones are then ahead. -/
theorem nextFromBlocks_of_yields_cons {blocks : List BlockMessage} (before : List LogEvent)
    (h : r.Yields blocks failure)
    (helements : blocks.flatMap BlockMessage.blockElements = element :: elements) :
    ∃ events s it, nextFromBlocks before r = (⟨.ok (some element), events, s⟩, it) ∧
      Ahead elements failure it s := by
  induction blocks generalizing before r with
  | nil => cases helements
  | cons block blocks ih =>
    obtain ⟨events, s, hblock, hrest⟩ := h
    have hwalk := restOfBlock_walk .start block
    rw [List.flatMap_cons] at helements
    rcases hblockElements : block.blockElements with _ | ⟨first, others⟩
    · obtain ⟨hfound, _⟩ := nextOfBlock_of_nil (hwalk.trans hblockElements)
      rw [hblockElements, List.nil_append] at helements
      rw [nextFromBlocks_of_none hblock hfound]
      exact ih (before ++ events) hrest helements
    · obtain ⟨hfound, hblocks, hothers⟩ := nextOfBlock_of_cons (hwalk.trans hblockElements)
      rw [hblockElements, List.cons_append] at helements
      obtain ⟨rfl, hahead⟩ := List.cons.inj helements
      refine ⟨before ++ events, s, _, nextFromBlocks_of_some hblock (Prod.ext hfound rfl), blocks,
        hblocks, hrest, ?_⟩
      rw [hothers, hahead]

/-- When nothing is ahead, an iteration ends. -/
theorem next_of_ahead_nil (h : Ahead [] failure it r) :
    ∃ events s, it.next r = (⟨ending failure, events, s⟩, ended) := by
  obtain ⟨blocks, hlive, hyields, hnil⟩ := h
  obtain ⟨hcurrent, hothers⟩ := List.append_eq_nil_iff.1 hnil
  obtain ⟨hfound, hblocks⟩ := nextOfBlock_of_nil hcurrent
  obtain ⟨events, s, hnext⟩ := nextFromBlocks_of_yields_nil [] hyields hothers
  refine ⟨events, s, ?_⟩
  rw [next_of_none hfound (hblocks.trans hlive), hnext]

/-- The first element ahead is given, and the other ones are then ahead. -/
theorem next_of_ahead_cons (h : Ahead (element :: elements) failure it r) :
    ∃ events s after, it.next r = (⟨.ok (some element), events, s⟩, after) ∧
      Ahead elements failure after s := by
  obtain ⟨blocks, hlive, hyields, hcons⟩ := h
  rcases hcurrent : it.restOfBlock with _ | ⟨first, others⟩
  · obtain ⟨hfound, hblocks⟩ := nextOfBlock_of_nil hcurrent
    rw [hcurrent, List.nil_append] at hcons
    obtain ⟨events, s, after, hnext, hahead⟩ := nextFromBlocks_of_yields_cons [] hyields hcons
    refine ⟨events, s, after, ?_, hahead⟩
    rw [next_of_none hfound (hblocks.trans hlive), hnext]
  · obtain ⟨hfound, hblocks, hothers⟩ := nextOfBlock_of_cons hcurrent
    rw [hcurrent, List.cons_append] at hcons
    obtain ⟨rfl, helements⟩ := List.cons.inj hcons
    refine ⟨[], r, it.nextOfBlock.2, next_of_some (Prod.ext hfound rfl), blocks,
      hblocks.trans hlive, hyields, ?_⟩
    rw [hothers, helements]

/-- An iteration gives the elements ahead, then how it ends, and nothing afterwards. -/
theorem nexts_of_ahead (h : Ahead elements failure it r) (n : Nat) :
    nexts (elements.length + 1 + n) it r =
      elements.map (Except.ok ∘ some) ++ ending failure :: List.replicate n (.ok none) := by
  induction elements generalizing it r with
  | nil =>
    obtain ⟨events, s, hnext⟩ := next_of_ahead_nil h
    rw [List.length_nil, Nat.zero_add, Nat.add_comm, nexts, hnext, nexts_ended]
    rfl
  | cons element elements ih =>
    obtain ⟨events, s, after, hnext, hahead⟩ := next_of_ahead_cons h
    rw [List.length_cons, Nat.add_right_comm, Nat.add_right_comm _ 1, nexts, hnext,
      Nat.add_right_comm, ih hahead]
    rfl

variable {blocks : List BlockMessage}

/-- An iteration gives the elements of all blocks that the reader gives, block by block, ends as the
reader does, and gives nothing more. -/
theorem nexts_of_yields (h : r.Yields blocks failure) (n : Nat) :
    nexts ((blocks.flatMap BlockMessage.blockElements).length + 1 + n) start r =
      (blocks.flatMap BlockMessage.blockElements).map (Except.ok ∘ some) ++
        ending failure :: List.replicate n (.ok none) := by
  have hahead : Ahead (blocks.flatMap BlockMessage.blockElements) failure start r :=
    ⟨blocks, rfl, h, rfl⟩
  exact nexts_of_ahead hahead n

/-- An iteration gives the elements of all blocks that the reader gives, block by block, and then
nothing more. -/
theorem nexts_of_gives (h : r.Gives blocks) (n : Nat) :
    nexts ((blocks.flatMap BlockMessage.blockElements).length + n) start r =
      (blocks.flatMap BlockMessage.blockElements).map (.ok ∘ some) ++
        List.replicate n (.ok none) := by
  rw [← take_nexts 1 (_ + n) start r, Nat.add_comm 1, Nat.add_right_comm, nexts_of_yields h,
    ElementReader.take_ending_none]

/-- Iterations over readers that give the same blocks and end alike give the same. -/
theorem nexts_congr {τ : Type} [FiniteStream τ] {s : ElementReader τ}
    (hr : r.Yields blocks failure) (hs : s.Yields blocks failure) (n : Nat) :
    nexts n start r = nexts n start s := by
  rw [← take_nexts ((blocks.flatMap BlockMessage.blockElements).length + 1) n start r,
    nexts_of_yields hr, ← nexts_of_yields hs, take_nexts]

end ElementIteration

end MapArchive
