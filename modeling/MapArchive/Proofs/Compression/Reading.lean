import MapArchive.Compression.Bits
import MapArchive.Proofs.Bytes.Endian
import MapArchive.Proofs.Compression.Running
import MapArchive.Proofs.Wire.Varint

/-!
# Decoders read what was written

What a decoder of bytes or bits reads is what the unread bytes of its input start with. After a part
of a decoder something else is left to do, and this decides how the whole ends, so that what is
known of the input can be used up piece by piece.
-/

namespace MapArchive

open Procedure (Buffers)

namespace Decoder

variable {α β : Type} {limit : Nat} {b after : Buffers}

/-- After a decoder that comes to its end the next one goes on. -/
theorem run_bind_of_ok {d : Decoder α} {a : α} (h : d.run limit b = .ok (a, after))
    (f : α → Decoder β) : (d >>= f).run limit b = (f a).run limit after := by
  rw [run_bind, h]

/-- What does not come to its end is not gone on from. -/
theorem run_bind_of_error {d : Decoder α} {halt : Procedure.Halt}
    (h : d.run limit b = .error halt) (f : α → Decoder β) :
    (d >>= f).run limit b = .error halt := by
  rw [run_bind, h]

/-- A byte is read if there is one. -/
theorem run_read {byte : UInt8} {rest : Cursor} {output : ByteArray} {input : Cursor}
    (h : input.next? = some (byte, rest)) :
    read.run limit ⟨input, output⟩ = .ok (byte, ⟨rest, output⟩) := by
  show Procedure.run limit (.step .read .done) ⟨input, output⟩ = _
  simp only [Procedure.run, Procedure.perform, h]

/-- At the end of the input there is no byte to be read. -/
theorem run_read_of_end {input : Cursor} (output : ByteArray) (h : input.rest = []) :
    read.run limit ⟨input, output⟩ = .error (.starved output) := by
  show Procedure.run limit (.step .read .done) ⟨input, output⟩ = _
  simp only [Procedure.run, Procedure.perform, (Cursor.next?_eq_none_iff input).2 h]

/-- Bytes are read from the front of the input. -/
theorem run_readList (limit : Nat) {bytes more : List UInt8} {input : Cursor} (output : ByteArray)
    (h : input.rest = bytes ++ more) :
    ∃ rest, (readList bytes.length).run limit ⟨input, output⟩ = .ok (bytes, ⟨rest, output⟩) ∧
      rest.rest = more := by
  induction bytes generalizing input with
  | nil => exact ⟨input, rfl, h⟩
  | cons byte bytes ih =>
    obtain ⟨middle, hnext, hmiddle⟩ := Cursor.next?_of_rest h
    obtain ⟨rest, hlist, hrest⟩ := ih hmiddle
    refine ⟨rest, ?_, hrest⟩
    rw [List.length_cons, readList, run_bind_of_ok (run_read hnext), run_bind_of_ok hlist]
    rfl

/-- A number is read, the highest byte first. -/
theorem run_bigEndian (limit : Nat) {bytes more : List UInt8} {input : Cursor} (output : ByteArray)
    (h : input.rest = bytes ++ more) :
    ∃ rest, (bigEndian bytes.length).run limit ⟨input, output⟩ =
        .ok (Endian.ofBig bytes, ⟨rest, output⟩) ∧ rest.rest = more := by
  obtain ⟨rest, hlist, hrest⟩ := run_readList limit output h
  refine ⟨rest, ?_, hrest⟩
  rw [bigEndian, map_eq_pure_bind, run_bind_of_ok hlist]
  rfl

/-- Input is passed on if there is enough of it, and room. -/
theorem run_pass {bytes more : List UInt8} {input : Cursor} {output : ByteArray}
    (h : input.rest = bytes ++ more) (hroom : output.size + bytes.length ≤ limit) :
    ∃ rest, (pass bytes.length).run limit ⟨input, output⟩ =
        .ok ((), ⟨rest, output ++ ofOctets bytes⟩) ∧ rest.rest = more := by
  obtain ⟨rest, htake, hrest⟩ := Cursor.take?_of_rest h
  refine ⟨rest, ?_, hrest⟩
  show Procedure.run limit (.step (.pass bytes.length) .done) ⟨input, output⟩ = _
  simp only [Procedure.run, Procedure.perform, htake, if_pos hroom]

/-- A decoder comes to want to put out more than `limit` bytes, before it has come upon the end of
its input. -/
def Overflows (limit : Nat) (d : Decoder α) (b : Buffers) : Prop := d.procedure.Overflows limit b

/-- A part of a decoder has been carried out, and something else is left to do, which decides how
the whole ends. -/
structure LeadsTo (limit : Nat) (d : Decoder α) (b : Buffers) (e : Decoder α) (c : Buffers) :
    Prop where
  /-- The whole ends as what is left does. -/
  run_eq : d.run limit b = e.run limit c
  /-- It wants more room if what is left does. -/
  overflows : e.Overflows limit c → d.Overflows limit b

/-- After a decoder that comes to its end the next one is left to do. -/
theorem leadsTo_of_run {d : Decoder α} {a : α} (h : d.run limit b = .ok (a, after))
    (f : α → Decoder β) : LeadsTo limit (d >>= f) b (f a) after where
  run_eq := run_bind_of_ok h f
  overflows hover := (Procedure.overflows_andThen_iff d.careful).2 (.inr ⟨a, after, h, hover⟩)

/-- What comes to want more room does so whatever is to be done afterwards. -/
theorem Overflows.bind {d : Decoder α} (h : d.Overflows limit b) (f : α → Decoder β) :
    (d >>= f).Overflows limit b := (Procedure.overflows_andThen_iff d.careful).2 (.inl h)

/-- Passing on input takes as much room. -/
theorem overflows_pass {bytes more : List UInt8} {input : Cursor} {output : ByteArray}
    (h : input.rest = bytes ++ more) (hfull : limit < output.size + bytes.length)
    (f : Unit → Decoder α) : (pass bytes.length >>= f).Overflows limit ⟨input, output⟩ := by
  obtain ⟨rest, htake, -⟩ := Cursor.take?_of_rest h
  apply Procedure.Overflows.now
  simp only [Procedure.perform, htake, if_neg (Nat.not_le.2 hfull)]

namespace LeadsTo

variable {d e : Decoder α} {c : Buffers}

protected theorem refl (d : Decoder α) (b : Buffers) : LeadsTo limit d b d b := ⟨rfl, id⟩

/-- Ways from state to state may be joined. -/
theorem trans {e' : Decoder α} {c' : Buffers} (h : LeadsTo limit d b e c)
    (h' : LeadsTo limit e c e' c') : LeadsTo limit d b e' c' where
  run_eq := h.run_eq.trans h'.run_eq
  overflows hover := h.overflows (h'.overflows hover)

/-- What follows stays to be done. -/
theorem bind (h : LeadsTo limit d b e c) (f : α → Decoder β) :
    LeadsTo limit (d >>= f) b (e >>= f) c where
  run_eq := by rw [run_bind, run_bind, h.run_eq]
  overflows hover := by
    apply (Procedure.overflows_andThen_iff d.careful).2
    rcases (Procedure.overflows_andThen_iff e.careful).1 hover with
      hfirst | ⟨a, middle, hrun, hnext⟩
    · exact .inl (h.overflows hfirst)
    · exact .inr ⟨a, middle, h.run_eq.trans hrun, hnext⟩

end LeadsTo

end Decoder

namespace Bits

variable {limit : Nat}

/-- A turn after which there is another one. -/
theorem run_keepLeft_again {σ α : Type} {turn : σ → BitDecoder (Decoder.Turn σ α)} {s next : σ}
    {left after : List Bool} {b c : Buffers}
    (h : (turn s left).run limit b = .ok ((.again next, after), c)) :
    (keepLeft turn (s, left)).run limit b = .ok (.again (next, after), c) := by
  rw [keepLeft, Decoder.run_bind_of_ok h]
  rfl

/-- A turn after which the loop is left. -/
theorem run_keepLeft_leave {σ α : Type} {turn : σ → BitDecoder (Decoder.Turn σ α)} {s : σ} {a : α}
    {left after : List Bool} {b c : Buffers}
    (h : (turn s left).run limit b = .ok ((.leave a, after), c)) :
    (keepLeft turn (s, left)).run limit b = .ok (.leave (a, after), c) := by
  rw [keepLeft, Decoder.run_bind_of_ok h]
  rfl

/-- A turn that does not come to its end. -/
theorem run_keepLeft_error {σ α : Type} {turn : σ → BitDecoder (Decoder.Turn σ α)} {s : σ}
    {left : List Bool} {b : Buffers} {halt : Procedure.Halt}
    (h : (turn s left).run limit b = .error halt) :
    (keepLeft turn (s, left)).run limit b = .error halt := by
  rw [keepLeft, Decoder.run_bind_of_error h]

/-- The number that bits stand for, the lowest first. -/
def valueOf (bits : List Bool) : Nat := bits.foldr (fun b n => b.toNat + 2 * n) 0

/-- The value of a byte's bits, lowest first, is the byte. -/
theorem valueOf_lowFirst (byte : UInt8) : valueOf (lowFirst byte) = byte.toNat := by
  have hlt := byte.toNat_lt
  simp only [lowFirst, List.range, List.range.loop, List.map_cons, List.map_nil, valueOf,
    List.foldr_cons, List.foldr_nil, Nat.toNat_testBit]
  omega

/-- As long as there are bits left of the last byte, nothing is read. -/
theorem lowNumber_of_left (split : UInt8 → List Bool) {count : Nat} {left : List Bool}
    (h : count ≤ left.length) :
    (lowNumber split count).run left = pure (valueOf (left.take count), left.drop count) := by
  induction count generalizing left with
  | zero => rfl
  | succ count ih =>
    cases left with
    | nil => cases h
    | cons b left =>
      have hrest := ih (Nat.le_of_succ_le_succ h)
      have hbit : (bit split).run (b :: left) = pure (b, left) := rfl
      rw [lowNumber, StateT.run_bind, hbit, pure_bind, StateT.run_bind, hrest, pure_bind]
      rfl

/-- A long number is a short one and another one above it. -/
theorem lowNumber_add (split : UInt8 → List Bool) (m n : Nat) :
    lowNumber split (m + n) = do
      let low ← lowNumber split m
      let high ← lowNumber split n
      return low + 2 ^ m * high := by
  induction m with
  | zero =>
    have hzero (high : Nat) : 0 + 2 ^ 0 * high = high := by omega
    simp only [lowNumber, Nat.zero_add, pure_bind, hzero, bind_pure]
  | succ m ih =>
    have hvalue (b : Bool) (low high : Nat) :
        b.toNat + 2 * (low + 2 ^ m * high) = b.toNat + 2 * low + 2 ^ (m + 1) * high := by
      rw [Nat.mul_add, ← Nat.mul_assoc, ← Nat.pow_succ', Nat.add_assoc]
    rw [Nat.add_right_comm]
    simp only [lowNumber, ih, bind_assoc, pure_bind, hvalue]

/-- Eight bits are a byte. -/
theorem run_byte {byte : UInt8} {rest input : Cursor} (output : ByteArray)
    (h : input.next? = some (byte, rest)) :
    ((lowNumber lowFirst 8).run []).run limit ⟨input, output⟩ =
      .ok ((byte.toNat, []), ⟨rest, output⟩) := by
  have hvalue := valueOf_lowFirst byte
  have hlength := length_lowFirst byte
  rcases hbits : lowFirst byte with _ | ⟨first, left⟩
  · rw [hbits] at hlength
    cases hlength
  · rw [hbits, List.length_cons] at hlength
    rw [hbits] at hvalue
    have hleft : left.length = 7 := by omega
    have hbit : ((bit lowFirst).run []).run limit ⟨input, output⟩ =
        .ok ((first, left), ⟨rest, output⟩) := by
      show (Decoder.read >>= _).run limit ⟨input, output⟩ = _
      rw [Decoder.run_bind_of_ok (Decoder.run_read h), hbits]
      rfl
    rw [lowNumber, StateT.run_bind, Decoder.run_bind_of_ok hbit, StateT.run_bind,
      lowNumber_of_left lowFirst (Nat.le_of_eq hleft.symm), pure_bind,
      List.take_of_length_le (Nat.le_of_eq hleft), List.drop_of_length_le (Nat.le_of_eq hleft)]
    exact congrArg (fun n => Except.ok ((n, []), (⟨rest, output⟩ : Buffers))) hvalue

/-- Sixteen bits are two bytes, the lowest first. -/
theorem run_twoBytes (limit : Nat) {bytes more : List UInt8} {input : Cursor} (output : ByteArray)
    (hlength : bytes.length = 2) (h : input.rest = bytes ++ more) :
    ∃ rest, ((lowNumber lowFirst 16).run []).run limit ⟨input, output⟩ =
        .ok ((Endian.ofLittle bytes, []), ⟨rest, output⟩) ∧ rest.rest = more := by
  obtain ⟨low, high, rfl⟩ : ∃ low high, bytes = [low, high] := by
    rcases bytes with _ | ⟨low, _ | ⟨high, _ | ⟨_, _⟩⟩⟩ <;> cases hlength
    exact ⟨low, high, rfl⟩
  obtain ⟨middle, hlow, hmiddle⟩ := Cursor.next?_of_rest h
  obtain ⟨rest, hhigh, hrest⟩ := Cursor.next?_of_rest hmiddle
  refine ⟨rest, ?_, hrest⟩
  rw [lowNumber_add lowFirst 8 8, StateT.run_bind, Decoder.run_bind_of_ok (run_byte output hlow),
    StateT.run_bind, Decoder.run_bind_of_ok (run_byte output hhigh)]
  rfl

end Bits

end MapArchive
