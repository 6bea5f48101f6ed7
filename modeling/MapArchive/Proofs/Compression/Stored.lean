import MapArchive.Compression.Stored
import MapArchive.Compression.Zlib
import MapArchive.Proofs.Compression.Reading

/-!
# Reading what was stored

Stored blocks of deflated data give the bytes that they hold, one block after another, and a zlib
stream that stores a byte string gives it back. A block starts at the first bit of a byte and ends
at the last bit of one, so no bits are left from one block to the next.
-/

namespace MapArchive

open Procedure (Buffers)
open Decoder (LeadsTo Turn loopUpTo leadsTo_of_run turnLimit)

/-- What holds at the start of a fold, and is kept with each byte, holds at its end. -/
theorem foldl_induction {β : Type} {P : β → Prop} {f : β → UInt8 → β}
    (hstep : ∀ b byte, P b → P (f b byte)) (bytes : ByteArray) {b : β} (hb : P b) :
    P (bytes.foldl f b) := by
  have hloop (stop : Nat) (hstop : stop ≤ bytes.size) (count place : Nat) (b : β) (hb : P b) :
      P (ByteArray.foldlM.loop (m := Id) (fun b byte => pure (f b byte)) bytes stop hstop count
        place b) := by
    induction count generalizing place b with
    | zero =>
      rw [ByteArray.foldlM.loop]
      split <;> exact hb
    | succ count ih =>
      rw [ByteArray.foldlM.loop]
      split
      · exact ih (place + 1) _ (hstep b _ hb)
      · exact hb
  rw [ByteArray.foldl, ByteArray.foldlM, dif_pos (Nat.le_refl bytes.size)]
  exact hloop bytes.size (Nat.le_refl _) _ _ b hb

/-- The checksum of zlib streams is a number of four bytes. -/
theorem Adler32.checksum_lt (bytes : ByteArray) : checksum bytes < 256 ^ 4 := by
  have hsums := foldl_induction (P := fun sums : Nat × Nat => sums.1 < modulus ∧ sums.2 < modulus)
    (f := add) (fun sums byte _ => ⟨Nat.mod_lt _ (by decide), Nat.mod_lt _ (by decide)⟩) bytes
    (b := (1, 0)) (by decide)
  have hmodulus : modulus = 65521 := rfl
  show (bytes.foldl add (1, 0)).2 * 0x10000 + (bytes.foldl add (1, 0)).1 < 256 ^ 4
  omega

/-! ## Pieces -/

section Pieces

variable {α : Type} {size : Nat}

/-- The pieces of a list make up the list. -/
theorem flatten_pieces (size : Nat) (list : List α) : (pieces size list).flatten = list := by
  fun_induction pieces size list with
  | case1 => exact List.flatten_singleton
  | case2 list _ ih => rw [List.flatten_cons, ih, List.take_append_drop]

/-- No piece is longer than the limit. -/
theorem length_le_of_mem_pieces (hpos : 0 < size) {list piece : List α}
    (h : piece ∈ pieces size list) : piece.length ≤ size := by
  fun_induction pieces size list with
  | case1 list hshort =>
    rw [List.mem_singleton.1 h]
    omega
  | case2 list _ ih =>
    rcases List.mem_cons.1 h with rfl | hrest
    · exact List.length_take_le size list
    · exact ih hrest

/-- There are no more pieces than items, or one if there are no items. -/
theorem length_pieces_le (size : Nat) (list : List α) :
    (pieces size list).length ≤ list.length + 1 := by
  fun_induction pieces size list with
  | case1 list =>
    rw [List.length_singleton]
    omega
  | case2 list hlong ih =>
    rw [List.length_drop] at ih
    rw [List.length_cons]
    omega

/-- There is a piece even of an empty list. -/
theorem pieces_ne_nil (size : Nat) (list : List α) : pieces size list ≠ [] := by
  rw [pieces]
  split <;> exact List.cons_ne_nil _ _

end Pieces

namespace Zlib

/-- All stored blocks but the last one are alike. -/
theorem storedBlocks_concat (ps : List (List UInt8)) (last : List UInt8) :
    storedBlocks (ps ++ [last]) = ps.flatMap (storedBlock false) ++ storedBlock true last := by
  induction ps with
  | nil => rfl
  | cons piece ps ih =>
    have hstep : storedBlocks (piece :: (ps ++ [last])) =
        storedBlock false piece ++ storedBlocks (ps ++ [last]) := by
      rw [storedBlocks]
      simp
    rw [List.cons_append, hstep, ih, List.flatMap_cons, List.append_assoc]

end Zlib

namespace Inflate

variable {limit : Nat}

/-- When the bits that tell its kind and its length have been read, the bytes of a stored block are
left to be passed on. -/
theorem leadsTo_pass (limit : Nat) {isLast : Bool} {piece more : List UInt8} {input : Cursor}
    (output : ByteArray) (written : Nat) (hlength : piece.length ≤ 0xFFFF)
    (h : input.rest = Zlib.storedBlock isLast piece ++ more) :
    ∃ rest, LeadsTo limit ((block written).run []) ⟨input, output⟩
        (Decoder.pass piece.length >>= fun _ =>
          pure (if isLast then .leave () else .again (written + piece.length), []))
        ⟨rest, output⟩ ∧
      rest.rest = piece ++ more := by
  have hblock : Zlib.storedBlock isLast piece ++ more = (if isLast then 1 else 0) ::
      (Endian.little 2 piece.length ++ (Endian.little 2 (0xFFFF - piece.length) ++
        (piece ++ more))) := by
    simp only [Zlib.storedBlock, List.cons_append, List.append_assoc]
  rw [hblock] at h
  -- The bits of the first byte: whether it is the last block, and its kind, which is zero.
  obtain ⟨first, hnext, hfirst⟩ := Cursor.next?_of_rest h
  have hbits : Bits.lowFirst (if isLast then 1 else 0) = isLast :: List.replicate 7 false := by
    cases isLast <;> decide
  have hbit : (bit.run []).run limit ⟨input, output⟩ =
      .ok ((isLast, List.replicate 7 false), ⟨first, output⟩) := by
    show (Decoder.read >>= _).run limit ⟨input, output⟩ = _
    rw [Decoder.run_bind_of_ok (Decoder.run_read hnext), hbits]
    rfl
  have hkind : (number 2).run (List.replicate 7 false) = pure (0, List.replicate 5 false) :=
    Bits.lowNumber_of_left Bits.lowFirst (by decide)
  -- The length, and its complement.
  obtain ⟨second, hnumber, hsecond⟩ :=
    Bits.run_twoBytes limit output (Endian.length_little 2 _) hfirst
  obtain ⟨rest, hcomplement, hrest⟩ :=
    Bits.run_twoBytes limit output (Endian.length_little 2 _) hsecond
  rw [Endian.ofLittle_little, Nat.mod_eq_of_lt (by omega)] at hnumber hcomplement
  have hsum : decide (piece.length + (0xFFFF - piece.length) = 0xFFFF) = true := by
    rw [decide_eq_true_iff]
    omega
  have halign : Bits.align.run (List.replicate 5 false) = pure ((), []) := rfl
  have hstored : LeadsTo limit ((stored written).run (List.replicate 5 false)) ⟨first, output⟩
      (Decoder.pass piece.length >>= fun _ => pure (written + piece.length, []))
      ⟨rest, output⟩ := by
    rw [stored, StateT.run_bind, halign, pure_bind, StateT.run_bind]
    refine (leadsTo_of_run hnumber _).trans ?_
    rw [StateT.run_bind]
    refine (leadsTo_of_run hcomplement _).trans ?_
    simp only [hsum]
    exact .refl _ _
  refine ⟨rest, ?_, hrest⟩
  rw [block, StateT.run_bind]
  refine (leadsTo_of_run hbit _).trans ?_
  rw [StateT.run_bind, hkind, pure_bind]
  exact hstored.bind fun result =>
    pure (if isLast then Turn.leave () else Turn.again result.1, result.2)

/-- A stored block gives what it holds. -/
theorem run_block {isLast : Bool} {piece more : List UInt8} {input : Cursor} {output : ByteArray}
    (written : Nat) (hlength : piece.length ≤ 0xFFFF)
    (hroom : output.size + piece.length ≤ limit)
    (h : input.rest = Zlib.storedBlock isLast piece ++ more) :
    ∃ rest, ((block written).run []).run limit ⟨input, output⟩ =
        .ok ((if isLast then .leave () else .again (written + piece.length), []),
          ⟨rest, output ++ ofOctets piece⟩) ∧ rest.rest = more := by
  obtain ⟨middle, hleads, hmiddle⟩ := leadsTo_pass limit output written hlength h
  obtain ⟨rest, hpass, hrest⟩ := Decoder.run_pass hmiddle hroom
  refine ⟨rest, ?_, hrest⟩
  rw [hleads.run_eq, Decoder.run_bind_of_ok hpass]
  rfl

/-- A turn of the loop over the blocks. -/
def turn : Nat × List Bool → Decoder (Turn (Nat × List Bool) (Unit × List Bool)) :=
  Bits.keepLeft block

/-- Inflating is a loop over blocks with a limit on its turns. -/
theorem inflate_eq : inflate = Prod.fst <$> loopUpTo turn turnLimit (0, []) := rfl

/-- Stored blocks that are not the last ones take a turn each, and give what they hold. -/
theorem leadsTo_blocks {ps : List (List UInt8)} {more : List UInt8} {input : Cursor}
    {output : ByteArray} (turns written : Nat) (hlength : ∀ p ∈ ps, p.length ≤ 0xFFFF)
    (hroom : output.size + ps.flatten.length ≤ limit)
    (h : input.rest = ps.flatMap (Zlib.storedBlock false) ++ more) :
    ∃ rest, LeadsTo limit (loopUpTo turn (turns + ps.length) (written, [])) ⟨input, output⟩
        (loopUpTo turn turns (written + ps.flatten.length, []))
        ⟨rest, output ++ ofOctets ps.flatten⟩ ∧ rest.rest = more := by
  induction ps generalizing written input output with
  | nil =>
    have hempty : output ++ ofOctets ([] : List (List UInt8)).flatten = output :=
      ByteArray.append_empty
    rw [hempty]
    exact ⟨input, .refl _ _, h⟩
  | cons piece ps ih =>
    rw [List.flatMap_cons, List.append_assoc] at h
    rw [List.flatten_cons, List.length_append] at hroom
    have hroomPiece : output.size + piece.length ≤ limit := by omega
    obtain ⟨middle, hblock, hmiddle⟩ :=
      run_block written (hlength piece List.mem_cons_self) hroomPiece h
    have hturn : (turn (written, [])).run limit ⟨input, output⟩ =
        .ok (.again (written + piece.length, []), ⟨middle, output ++ ofOctets piece⟩) :=
      Bits.run_keepLeft_again hblock
    have hnext : LeadsTo limit (loopUpTo turn (turns + ps.length + 1) (written, []))
        ⟨input, output⟩ (loopUpTo turn (turns + ps.length) (written + piece.length, []))
        ⟨middle, output ++ ofOctets piece⟩ := leadsTo_of_run hturn _
    have hsize : (output ++ ofOctets piece).size = output.size + piece.length := by
      rw [ByteArray.size_append, size_ofOctets]
    have hroomRest : (output ++ ofOctets piece).size + ps.flatten.length ≤ limit := by omega
    obtain ⟨rest, hrest, hmore⟩ := ih (written + piece.length)
      (fun p hp => hlength p (List.mem_cons_of_mem piece hp)) hroomRest hmiddle
    refine ⟨rest, ?_, hmore⟩
    rw [List.flatten_cons, List.length_append, ofOctets_append, ← Nat.add_assoc,
      ← ByteArray.append_assoc]
    exact hnext.trans hrest

end Inflate

namespace Zlib

variable {limit : Nat}

/-- What stands behind the deflated data: their checksum. -/
def trailer : Decoder Unit := do
  let checksum ← Decoder.bigEndian 4
  Decoder.require (checksum = Adler32.checksum (← Decoder.review 0))

/-- What is left to do after some blocks. -/
def finish (turns written : Nat) : Decoder Unit :=
  loopUpTo Inflate.turn turns (written, []) >>= fun _ => trailer

/-- After the header and some stored blocks the other blocks are left to be decoded. -/
theorem leadsTo_finish {ps : List (List UInt8)} {more : List UInt8} {input : Cursor} {turns : Nat}
    (hlength : ∀ p ∈ ps, p.length ≤ 0xFFFF) (hroom : ps.flatten.length ≤ limit)
    (hturns : turnLimit = turns + ps.length)
    (h : input.rest = 0x78 :: 0x01 :: (ps.flatMap (storedBlock false) ++ more)) :
    ∃ rest, LeadsTo limit decoder ⟨input, ByteArray.empty⟩ (finish turns ps.flatten.length)
      ⟨rest, ofOctets ps.flatten⟩ ∧ rest.rest = more := by
  have hbytes : input.rest = [0x78, 0x01] ++ (ps.flatMap (storedBlock false) ++ more) := h
  obtain ⟨first, hheader, hfirst⟩ := Decoder.run_bigEndian limit ByteArray.empty hbytes
  have hdecoder : LeadsTo limit decoder ⟨input, ByteArray.empty⟩
      (Inflate.inflate >>= fun _ => trailer) ⟨first, ByteArray.empty⟩ := leadsTo_of_run hheader _
  have hroom : ByteArray.empty.size + ps.flatten.length ≤ limit := (Nat.zero_add _).symm ▸ hroom
  obtain ⟨rest, hblocks, hrest⟩ := Inflate.leadsTo_blocks turns 0 hlength hroom hfirst
  rw [Inflate.inflate_eq, bind_map_left, hturns] at hdecoder
  rw [Nat.zero_add, ByteArray.empty_append] at hblocks
  exact ⟨rest, hdecoder.trans (hblocks.bind _), hrest⟩

variable {input : Cursor} {turns written : Nat} {output : ByteArray} {piece more : List UInt8}

/-- Where the input ends after some blocks, more of it is needed. -/
theorem run_finish_of_end (h : input.rest = []) :
    (finish (turns + 1) written).run limit ⟨input, output⟩ = .error (.starved output) := by
  have hblock : (Inflate.block written []).run limit ⟨input, output⟩ = .error (.starved output) :=
    Decoder.run_bind_of_error (Decoder.run_bind_of_error (Decoder.run_read_of_end output h) _) _
  exact Decoder.run_bind_of_error
    (Decoder.run_bind_of_error (Bits.run_keepLeft_error hblock) _) _

/-- A block of no known kind is found out. -/
theorem run_finish_of_corrupt (h : input.rest = 7 :: more) :
    (finish (turns + 1) written).run limit ⟨input, output⟩ = .error .corrupt := by
  obtain ⟨rest, hnext, -⟩ := Cursor.next?_of_rest h
  have hbits : Bits.lowFirst 7 = true :: true :: true :: List.replicate 5 false := by decide
  have hbit : (Inflate.bit.run []).run limit ⟨input, output⟩ =
      .ok ((true, true :: true :: List.replicate 5 false), ⟨rest, output⟩) := by
    show (Decoder.read >>= _).run limit ⟨input, output⟩ = _
    rw [Decoder.run_bind_of_ok (Decoder.run_read hnext), hbits]
    rfl
  have hkind : (Inflate.number 2).run (true :: true :: List.replicate 5 false) =
      pure (3, List.replicate 5 false) := Bits.lowNumber_of_left Bits.lowFirst (by decide)
  have hblock : ((Inflate.block written).run []).run limit ⟨input, output⟩ = .error .corrupt := by
    rw [Inflate.block, StateT.run_bind, Decoder.run_bind_of_ok hbit, StateT.run_bind, hkind,
      pure_bind]
    rfl
  exact Decoder.run_bind_of_error
    (Decoder.run_bind_of_error (Bits.run_keepLeft_error hblock) _) _

/-- There has to be room for a stored block. -/
theorem overflows_finish {isLast : Bool} (hlength : piece.length ≤ 0xFFFF)
    (hfull : limit < output.size + piece.length)
    (h : input.rest = storedBlock isLast piece ++ more) :
    (finish (turns + 1) written).Overflows limit ⟨input, output⟩ := by
  obtain ⟨rest, hleads, hrest⟩ := Inflate.leadsTo_pass limit output written hlength h
  have hblock : Decoder.Overflows limit (Inflate.block written []) ⟨input, output⟩ :=
    hleads.overflows (Decoder.overflows_pass hrest hfull _)
  exact ((hblock.bind _).bind _).bind _

/-- After the last block the checksum is accepted if it is that of the output. -/
theorem run_finish {content : ByteArray} (hlength : piece.length ≤ 0xFFFF)
    (hcontent : output ++ ofOctets piece = content) (hroom : content.size ≤ limit)
    (h : input.rest = storedBlock true piece ++
      (Endian.big 4 (Adler32.checksum content) ++ more)) :
    ∃ rest, (finish (turns + 1) written).run limit ⟨input, output⟩ = .ok ((), ⟨rest, content⟩) ∧
      rest.rest = more := by
  subst hcontent
  rw [ByteArray.size_append, size_ofOctets] at hroom
  obtain ⟨middle, hblock, hmiddle⟩ := Inflate.run_block written hlength hroom h
  have hturn : (Inflate.turn (written, [])).run limit ⟨input, output⟩ =
      .ok (.leave ((), []), ⟨middle, output ++ ofOctets piece⟩) := Bits.run_keepLeft_leave hblock
  obtain ⟨rest, hchecksum, hrest⟩ :=
    Decoder.run_bigEndian limit (output ++ ofOctets piece) hmiddle
  rw [Endian.length_big, Endian.ofBig_big, Nat.mod_eq_of_lt (Adler32.checksum_lt _)] at hchecksum
  have hreview : (Decoder.review 0).run limit ⟨rest, output ++ ofOctets piece⟩ =
      .ok (output ++ ofOctets piece, ⟨rest, output ++ ofOctets piece⟩) :=
    congrArg (fun bytes => Except.ok (bytes, (⟨rest, output ++ ofOctets piece⟩ : Buffers)))
      ByteArray.extract_zero_size
  refine ⟨rest, ?_, hrest⟩
  rw [finish, loopUpTo, bind_assoc, Decoder.run_bind_of_ok hturn]
  show trailer.run limit ⟨middle, output ++ ofOctets piece⟩ = _
  rw [trailer, Decoder.run_bind_of_ok hchecksum, Decoder.run_bind_of_ok hreview,
    decide_eq_true rfl]
  rfl

section Unfinished

variable {ps : List (List UInt8)}

/-- The start of a zlib stream: its header, and stored blocks none of which is the last one. -/
def unfinished (ps : List (List UInt8)) : ByteArray :=
  ofOctets (0x78 :: 0x01 :: ps.flatMap (storedBlock false))

/-- What follows the start of a stream is decoded after what the blocks hold has been put out. -/
theorem leadsTo_unfinished (hlength : ∀ p ∈ ps, p.length ≤ 0xFFFF)
    (hroom : ps.flatten.length ≤ limit) (hturns : ps.length < turnLimit) (more : ByteArray) :
    ∃ turns rest, LeadsTo limit decoder ⟨.atStart (unfinished ps ++ more), ByteArray.empty⟩
        (finish (turns + 1) ps.flatten.length) ⟨rest, ofOctets ps.flatten⟩ ∧
      rest.rest = octets more := by
  obtain ⟨turns, hsum⟩ : ∃ turns, turnLimit = turns + 1 + ps.length :=
    ⟨turnLimit - ps.length - 1, by omega⟩
  have hoctets : (Cursor.atStart (unfinished ps ++ more)).rest =
      0x78 :: 0x01 :: (ps.flatMap (storedBlock false) ++ octets more) := by
    rw [Cursor.rest_atStart, octets_append, unfinished, octets_ofOctets, List.cons_append,
      List.cons_append]
  obtain ⟨rest, hleads, hrest⟩ := leadsTo_finish hlength hroom hsum hoctets
  exact ⟨turns, rest, hleads, hrest⟩

/-- Where the start of a stream ends more input is needed. -/
theorem run_unfinished (hlength : ∀ p ∈ ps, p.length ≤ 0xFFFF)
    (hroom : ps.flatten.length ≤ limit) (hturns : ps.length < turnLimit) :
    decoder.run limit ⟨.atStart (unfinished ps), ByteArray.empty⟩ =
      .error (.starved (ofOctets ps.flatten)) := by
  obtain ⟨turns, rest, hleads, hrest⟩ := leadsTo_unfinished hlength hroom hturns ByteArray.empty
  rw [ByteArray.append_empty] at hleads
  exact hleads.run_eq.trans (run_finish_of_end hrest)

/-- A block of no known kind is found out though all output that is wanted has been put out. -/
theorem run_unfinished_of_corrupt (hlength : ∀ p ∈ ps, p.length ≤ 0xFFFF)
    (hroom : ps.flatten.length ≤ limit) (hturns : ps.length < turnLimit) {more : ByteArray}
    {tail : List UInt8} (hmore : octets more = 7 :: tail) :
    decoder.run limit ⟨.atStart (unfinished ps ++ more), ByteArray.empty⟩ = .error .corrupt := by
  obtain ⟨turns, rest, hleads, hrest⟩ := leadsTo_unfinished hlength hroom hturns more
  exact hleads.run_eq.trans (run_finish_of_corrupt (hrest.trans hmore))

/-- Another block for which there is no room makes the decompressor want to put out too much. -/
theorem overflows_unfinished (hlength : ∀ p ∈ ps, p.length ≤ 0xFFFF)
    (hroom : ps.flatten.length ≤ limit) (hturns : ps.length < turnLimit)
    (hpiece : piece.length ≤ 0xFFFF) (hfull : limit < ps.flatten.length + piece.length) :
    decoder.Overflows limit
      ⟨.atStart (unfinished ps ++ ofOctets (storedBlock false piece)), ByteArray.empty⟩ := by
  obtain ⟨turns, rest, hleads, hrest⟩ :=
    leadsTo_unfinished hlength hroom hturns (ofOctets (storedBlock false piece))
  have hblock : rest.rest = storedBlock false piece ++ [] := by
    rw [hrest, octets_ofOctets, List.append_nil]
  exact hleads.overflows (overflows_finish hpiece hfull hblock)

end Unfinished

/-- A zlib stream that stores a byte string gives it back, whatever follows. -/
theorem run_store {content : ByteArray} (hroom : content.size ≤ limit)
    (hturns : content.size < turnLimit) (h : input.rest = octets (store content) ++ more) :
    ∃ rest, decoder.run limit ⟨input, ByteArray.empty⟩ = .ok ((), ⟨rest, content⟩) ∧
      rest.rest = more := by
  obtain ⟨init, last, hpieces⟩ :=
    (List.eq_nil_or_concat (pieces 0xFFFF (octets content))).resolve_left (pieces_ne_nil _ _)
  rw [List.concat_eq_append] at hpieces
  have hflatten : init.flatten ++ last = octets content := by
    rw [← flatten_pieces 0xFFFF (octets content), hpieces, List.flatten_append,
      List.flatten_singleton]
  have hlength : ∀ p ∈ init ++ [last], p.length ≤ 0xFFFF := by
    rw [← hpieces]
    exact fun p hp => length_le_of_mem_pieces (by decide) hp
  have hcount : init.length + 1 ≤ content.size + 1 := by
    rw [← length_octets, ← List.length_concat (a := last), List.concat_eq_append, ← hpieces]
    exact length_pieces_le _ _
  have hsize : init.flatten.length + last.length = content.size := by
    rw [← List.length_append, hflatten, length_octets]
  obtain ⟨turns, hsum⟩ : ∃ turns, turnLimit = turns + 1 + init.length :=
    ⟨turnLimit - init.length - 1, by omega⟩
  have hcontent : ofOctets init.flatten ++ ofOctets last = content := by
    rw [← ofOctets_append, hflatten, ofOctets_octets]
  rw [store, octets_ofOctets, hpieces, storedBlocks_concat, List.append_assoc, List.cons_append,
    List.cons_append, List.append_assoc] at h
  have hroomInit : init.flatten.length ≤ limit := by omega
  obtain ⟨middle, hleads, hmiddle⟩ := leadsTo_finish
    (fun p hp => hlength p (List.mem_append_left [last] hp)) hroomInit hsum h
  have hlast : last.length ≤ 0xFFFF :=
    hlength last (List.mem_append_right init (List.mem_singleton.2 rfl))
  obtain ⟨rest, hrun, hrest⟩ := run_finish hlast hcontent hroom hmiddle
  exact ⟨rest, hleads.run_eq.trans hrun, hrest⟩

end Zlib

end MapArchive
