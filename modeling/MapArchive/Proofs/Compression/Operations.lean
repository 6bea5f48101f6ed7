import MapArchive.Compression.Procedure

/-!
# What single operations do

An operation that does not fail puts out as much as it says. It fails for want of input, and has
then put out a part of that, or for want of room. What it does is decided by the input it asks for:
if it gets that, it does the same whatever follows.
-/

namespace MapArchive

namespace Cursor

/-- No more has been read than there is. -/
def IsWithin (c : Cursor) : Prop := c.start ≤ c.bytes.size

/-- The cursor, with more bytes after the last one. -/
def extend (c : Cursor) (more : ByteArray) : Cursor := ⟨c.bytes ++ more, c.start⟩

/-- Bytes that are put at the end remain as well. -/
theorem remaining_extend {c : Cursor} (h : c.IsWithin) (more : ByteArray) :
    (c.extend more).remaining = c.remaining + more.size := by
  have hle : c.start ≤ c.bytes.size := h
  simp only [remaining, extend, ByteArray.size_append]
  omega

/-- The next byte is there, and the cursor moves on by one. -/
theorem eq_of_next? {c d : Cursor} {b : UInt8} (h : c.next? = some (b, d)) :
    c.start < c.bytes.size ∧ d = ⟨c.bytes, c.start + 1⟩ := by
  unfold next? at h
  split at h
  case isTrue hlt =>
    cases h
    exact ⟨hlt, rfl⟩
  case isFalse => cases h

/-- Bytes taken together are there, and the cursor moves on past them. -/
theorem eq_of_take? {c d : Cursor} {n : Nat} {part : ByteArray} (h : c.take? n = some (part, d)) :
    n ≤ c.remaining ∧ d = ⟨c.bytes, c.start + n⟩ := by
  unfold take? at h
  split at h
  case isTrue hle =>
    cases h
    exact ⟨hle, rfl⟩
  case isFalse => cases h

/-- What lies within some bytes stays the same if more bytes follow. -/
theorem extract_append_of_le (bytes more : ByteArray) (start : Nat) {stop : Nat}
    (h : stop ≤ bytes.size) : (bytes ++ more).extract start stop = bytes.extract start stop := by
  have hnone : more.extract (start - bytes.size) (stop - bytes.size) = ByteArray.empty :=
    ByteArray.extract_eq_empty_iff.2 (by omega)
  rw [ByteArray.extract_append, hnone, ByteArray.append_empty]

/-- The next byte is the same when more bytes follow. -/
theorem next?_extend {c d : Cursor} {b : UInt8} (h : c.next? = some (b, d)) (more : ByteArray) :
    (c.extend more).next? = some (b, d.extend more) := by
  unfold next? at h
  split at h
  case isFalse => cases h
  case isTrue hlt =>
    cases h
    have hmore : (c.extend more).start < (c.extend more).bytes.size := by
      show c.start < (c.bytes ++ more).size
      rw [ByteArray.size_append]
      omega
    rw [next?, dif_pos hmore]
    have hbyte : (c.extend more).bytes[c.start] = c.bytes[c.start] :=
      ByteArray.getElem_append_left hlt
    exact congrArg (fun byte => some (byte, (⟨c.bytes ++ more, c.start + 1⟩ : Cursor))) hbyte

/-- Bytes taken together are the same when more bytes follow. -/
theorem take?_extend {c d : Cursor} {n : Nat} {part : ByteArray} (h : c.take? n = some (part, d))
    (hwithin : c.IsWithin) (more : ByteArray) :
    (c.extend more).take? n = some (part, d.extend more) := by
  unfold take? at h
  split at h
  case isFalse => cases h
  case isTrue hle =>
    cases h
    have hstart : c.start ≤ c.bytes.size := hwithin
    have hstop : c.start + n ≤ c.bytes.size := by
      rw [remaining] at hle
      omega
    have hmore : n ≤ (c.extend more).remaining := by
      rw [remaining_extend hwithin]
      exact Nat.le_add_right_of_le hle
    rw [take?, if_pos hmore]
    have hpart := extract_append_of_le c.bytes more c.start hstop
    exact congrArg (fun part => some (part, (⟨c.bytes ++ more, c.start + n⟩ : Cursor))) hpart

end Cursor

namespace Procedure

variable {limit : Nat}

/-- With more input after the last byte. -/
def Buffers.extend (b : Buffers) (more : ByteArray) : Buffers := ⟨b.input.extend more, b.output⟩

/-- An operation gets all of the input that it asks for, or else it fails. -/
def IsServed (op : Operation) (input : Cursor) : Prop :=
  ∀ count, op = .take count → count ≤ input.remaining

/-- Only a `take` can get less than it asks for without failing. -/
theorem isServed_or_cut (op : Operation) (input : Cursor) :
    IsServed op input ∨ ∃ count, op = .take count ∧ input.remaining < count := by
  cases op with
  | take count =>
    rcases Nat.lt_or_ge input.remaining count with hcut | hle
    · exact .inr ⟨count, rfl, hcut⟩
    · refine .inl fun asked heq => ?_
      cases heq
      exact hle
  | _ =>
    left
    intro count heq
    cases heq

/-- What an operation has done if it has not failed. -/
structure Performed (limit : Nat) (op : Operation) (b : Buffers) (answer : op.Answer)
    (after : Buffers) : Prop where
  /-- The answer is one that can be given. -/
  admits : op.Admits answer
  /-- All of its output was put out. -/
  size_output : after.output.size = b.output.size + op.yield
  /-- This is no more than is wanted. -/
  size_le : b.output.size ≤ limit → after.output.size ≤ limit
  /-- The input is the same. -/
  bytes_input : after.input.bytes = b.input.bytes
  /-- No more was read than there is. -/
  isWithin : b.input.IsWithin → after.input.IsWithin

/-- An operation that does not fail has done all that it should. -/
theorem performed {op : Operation} {b after : Buffers} {answer : op.Answer}
    (h : perform limit op b = .ok (answer, after)) : Performed limit op b answer after := by
  obtain ⟨input, output⟩ := b
  cases op with
  | read =>
    simp only [perform] at h
    split at h
    case h_1 byte rest hnext =>
      cases h
      obtain ⟨hlt, rfl⟩ := Cursor.eq_of_next? hnext
      exact ⟨trivial, rfl, id, rfl, fun _ => hlt⟩
    case h_2 => cases h
  | expect =>
    simp only [perform] at h
    split at h
    · cases h
    · cases h
      exact ⟨trivial, rfl, id, rfl, id⟩
  | take count =>
    simp only [perform] at h
    cases h
    refine ⟨?_, rfl, id, rfl, fun hwithin => ?_⟩
    · show (input.bytes.extract _ _).size ≤ count
      rw [ByteArray.size_extract]
      omega
    · have hle : input.start ≤ input.bytes.size := hwithin
      show input.start + min count input.remaining ≤ input.bytes.size
      rw [Cursor.remaining]
      omega
  | pass count =>
    simp only [perform] at h
    split at h
    case h_1 part rest htake =>
      split at h
      · next hfits =>
        cases h
        have hsize : (output ++ part).size = output.size + count := by
          rw [ByteArray.size_append, Cursor.size_of_take? htake]
        obtain ⟨hle, rfl⟩ := Cursor.eq_of_take? htake
        refine ⟨trivial, hsize, fun _ => by rw [hsize]; exact hfits, rfl, fun hwithin => ?_⟩
        have hstart : input.start ≤ input.bytes.size := hwithin
        show input.start + count ≤ input.bytes.size
        rw [Cursor.remaining] at hle
        omega
      · cases h
    case h_2 =>
      split at h <;> cases h
  | write byte =>
    simp only [perform] at h
    split at h
    · next hlt =>
      cases h
      have hsize : (output.push byte).size = output.size + 1 := ByteArray.size_push
      exact ⟨trivial, hsize, fun _ => by rw [hsize]; exact hlt, rfl, id⟩
    · cases h
  | append bytes =>
    simp only [perform] at h
    split at h
    · next hfits =>
      cases h
      have hsize : (output ++ bytes).size = output.size + bytes.size := ByteArray.size_append
      exact ⟨trivial, hsize, fun _ => by rw [hsize]; exact hfits, rfl, id⟩
    · cases h
  | room =>
    simp only [perform] at h
    split at h
    · cases h
      exact ⟨trivial, rfl, id, rfl, id⟩
    · cases h
  | copy distance count =>
    simp only [perform] at h
    split at h
    · next hfits =>
      cases h
      have hsize := size_extendBack distance count output
      exact ⟨trivial, hsize, fun _ => by rw [hsize]; exact hfits, rfl, id⟩
    · cases h
  | look | review | space =>
    simp only [perform] at h
    cases h
    exact ⟨trivial, rfl, id, rfl, id⟩

/-- An operation that fails for want of input puts out a part of its output. -/
theorem size_of_perform_starved {op : Operation} {b : Buffers} {output : ByteArray}
    (h : perform limit op b = .error (.starved output)) :
    output.size ≤ b.output.size + op.yield ∧ (b.output.size ≤ limit → output.size ≤ limit) := by
  obtain ⟨input, before⟩ := b
  cases op with
  | read =>
    simp only [perform] at h
    split at h <;> cases h
    exact ⟨Nat.le_refl _, id⟩
  | expect =>
    simp only [perform] at h
    split at h <;> cases h
    exact ⟨Nat.le_refl _, id⟩
  | pass count =>
    simp only [perform] at h
    split at h
    case h_1 => split at h <;> cases h
    case h_2 hnone =>
      split at h
      · next hfits =>
        cases h
        have hshort : input.remaining < count := (Cursor.take?_eq_none_iff input count).1 hnone
        have hsize : (before ++ input.bytes.extract input.start input.bytes.size).size =
            before.size + input.remaining := by
          rw [ByteArray.size_append, ByteArray.size_extract, Cursor.remaining, Nat.min_self]
        rw [hsize]
        exact ⟨Nat.add_le_add_left (Nat.le_of_lt hshort) before.size, fun _ => hfits⟩
      · cases h
  | write | append | room | copy =>
    simp only [perform] at h
    split at h <;> cases h
  | take | look | review | space =>
    simp only [perform] at h
    cases h

/-- No single operation finds the input to be no stream of its kind. -/
theorem perform_ne_corrupt (op : Operation) (b : Buffers) :
    perform limit op b ≠ .error .corrupt := by
  obtain ⟨input, output⟩ := b
  intro h
  cases op with
  | read | expect | write | append | room | copy =>
    simp only [perform] at h
    split at h <;> cases h
  | pass =>
    simp only [perform] at h
    split at h <;> split at h <;> cases h
  | take | look | review | space =>
    simp only [perform] at h
    cases h

/-- Where there is room for what an operation puts out, and for one byte more, there is not more
output than is wanted. -/
theorem perform_ne_overfull {op : Operation} {b : Buffers}
    (hroom : b.output.size + op.yield < limit) : perform limit op b ≠ .error .overfull := by
  obtain ⟨input, output⟩ := b
  have hsize : output.size + op.yield < limit := hroom
  intro h
  cases op with
  | read | expect =>
    simp only [perform] at h
    split at h <;> cases h
  | pass count =>
    have hfits : output.size + count < limit := hsize
    simp only [perform] at h
    split at h
    case h_1 =>
      rw [if_pos (Nat.le_of_lt hfits)] at h
      cases h
    case h_2 hnone =>
      have hshort : input.remaining < count := (Cursor.take?_eq_none_iff input count).1 hnone
      rw [if_pos (by omega)] at h
      cases h
  | write byte | room =>
    have hlt : output.size < limit := Nat.lt_of_le_of_lt (Nat.le_add_right _ _) hsize
    simp only [perform] at h
    rw [if_pos hlt] at h
    cases h
  | append bytes =>
    have hfits : output.size + bytes.size < limit := hsize
    simp only [perform] at h
    rw [if_pos (Nat.le_of_lt hfits)] at h
    cases h
  | copy distance count =>
    have hfits : output.size + count < limit := hsize
    simp only [perform] at h
    rw [if_pos (Nat.le_of_lt hfits)] at h
    cases h
  | take | look | review | space =>
    simp only [perform] at h
    cases h

/-- An operation that gets what it asks for does the same if more input follows. -/
theorem perform_extend {op : Operation} {b after : Buffers} {answer : op.Answer}
    (hwithin : b.input.IsWithin) (hserved : IsServed op b.input)
    (h : perform limit op b = .ok (answer, after)) (more : ByteArray) :
    perform limit op (b.extend more) = .ok (answer, after.extend more) := by
  obtain ⟨input, output⟩ := b
  show perform limit op ⟨input.extend more, output⟩ = _
  cases op with
  | read =>
    simp only [perform] at h
    split at h
    case h_1 byte rest hnext =>
      cases h
      simp only [perform, Cursor.next?_extend hnext, Buffers.extend]
    case h_2 => cases h
  | expect =>
    simp only [perform] at h
    split at h
    · cases h
    · next hmore =>
      cases h
      have hremaining : (input.extend more).remaining ≠ 0 := by
        have hsome : 0 < input.remaining := Nat.pos_of_ne_zero hmore
        rw [Cursor.remaining_extend hwithin]
        show input.remaining + more.size ≠ 0
        omega
      simp only [perform, if_neg hremaining, Buffers.extend]
  | take count =>
    simp only [perform] at h
    cases h
    have hcount : count ≤ input.remaining := hserved count rfl
    have hstart : input.start ≤ input.bytes.size := hwithin
    have hstop : input.start + count ≤ input.bytes.size := by
      rw [Cursor.remaining] at hcount
      omega
    have hmore : count ≤ (input.extend more).remaining := by
      rw [Cursor.remaining_extend hwithin]
      exact Nat.le_add_right_of_le hcount
    simp only [perform, Nat.min_eq_left hcount, Nat.min_eq_left hmore]
    simp only [Buffers.extend, Cursor.extend, Cursor.extract_append_of_le _ more _ hstop]
  | pass count =>
    simp only [perform] at h
    split at h
    case h_1 part rest htake =>
      split at h
      · next hfits =>
        cases h
        simp only [perform, Cursor.take?_extend htake hwithin, if_pos hfits, Buffers.extend]
      · cases h
    case h_2 => split at h <;> cases h
  | write | append | room | copy =>
    simp only [perform] at h
    split at h
    · next hfits =>
      cases h
      simp only [perform, if_pos hfits, Buffers.extend]
    · cases h
  | look | review | space =>
    simp only [perform] at h
    cases h
    rfl

/-- An operation for which there is no room finds this out too if more input follows. -/
theorem perform_extend_of_overfull {op : Operation} {b : Buffers} (hwithin : b.input.IsWithin)
    (h : perform limit op b = .error .overfull) (more : ByteArray) :
    perform limit op (b.extend more) = .error .overfull := by
  obtain ⟨input, output⟩ := b
  show perform limit op ⟨input.extend more, output⟩ = _
  cases op with
  | pass count =>
    simp only [perform] at h
    split at h
    case h_1 part rest htake =>
      split at h
      · cases h
      · next hfull => simp only [perform, Cursor.take?_extend htake hwithin, if_neg hfull]
    case h_2 hnone =>
      split at h
      · cases h
      · next hfull =>
        have hshort : input.remaining < count := (Cursor.take?_eq_none_iff input count).1 hnone
        have hmore : (input.extend more).remaining = input.remaining + more.size :=
          Cursor.remaining_extend hwithin more
        simp only [perform]
        split
        · rw [if_neg (by omega)]
        · rw [if_neg (by omega)]
  | write | append | room | copy =>
    simp only [perform] at h
    split at h
    · cases h
    · next hfull => simp only [perform, if_neg hfull]
  | read | expect =>
    simp only [perform] at h
    split at h <;> cases h
  | take | look | review | space =>
    simp only [perform] at h
    cases h

end Procedure

end MapArchive
