/-!
# Byte strings and the unread rest of one

A byte string is a `ByteArray`; its view is the list of its bytes. A `Cursor` is a byte string
together with the place up to which it has been read, and its view is the list of the bytes still
to come. Everything above this module reads through `Cursor.next?` and `Cursor.take?`, so the two
lemmas on each of them are all that is ever needed to know about positions.
-/

namespace MapArchive

/-- Byte strings are equal if their bytes are. -/
instance decidableEqByteArray : DecidableEq ByteArray := fun a b =>
  decidable_of_iff (a.data = b.data) ⟨ByteArray.ext, congrArg ByteArray.data⟩

/-- The bytes of a byte string, in order. -/
def octets (bytes : ByteArray) : List UInt8 := bytes.data.toList

/-- The byte string made of the given bytes. -/
def ofOctets (list : List UInt8) : ByteArray := ⟨list.toArray⟩

/-- The byte at a place; zero beyond the end. -/
def byteAt (bytes : ByteArray) (place : Nat) : UInt8 :=
  if h : place < bytes.size then bytes[place] else 0

/-- The bytes of a byte string made from a list are the list. -/
@[simp] theorem octets_ofOctets (list : List UInt8) : octets (ofOctets list) = list := by
  simp [octets, ofOctets]

/-- A byte string is made from its bytes. -/
@[simp] theorem ofOctets_octets (bytes : ByteArray) : ofOctets (octets bytes) = bytes := by
  simp [octets, ofOctets]

/-- There are as many bytes as the size says. -/
@[simp] theorem length_octets (bytes : ByteArray) : (octets bytes).length = bytes.size := by
  simp [octets]

/-- Byte strings put together have the bytes of the first and then those of the second. -/
@[simp] theorem octets_append (a b : ByteArray) : octets (a ++ b) = octets a ++ octets b := by
  simp [octets]

/-- The size of a byte string made from a list is the length of the list. -/
@[simp] theorem size_ofOctets (list : List UInt8) : (ofOctets list).size = list.length := rfl

/-- Lists put together make byte strings put together. -/
theorem ofOctets_append (a b : List UInt8) : ofOctets (a ++ b) = ofOctets a ++ ofOctets b := by
  apply ByteArray.ext
  rw [ByteArray.data_append]
  exact List.append_toArray a b |>.symm

/-- A byte string of which everything before `start` has been read. -/
structure Cursor where
  /-- The whole byte string. -/
  bytes : ByteArray
  /-- How many bytes have been read. -/
  start : Nat

namespace Cursor

/-- Nothing read yet. -/
def atStart (bytes : ByteArray) : Cursor := ⟨bytes, 0⟩

/-- The bytes still to come. -/
def rest (c : Cursor) : List UInt8 := (octets c.bytes).drop c.start

/-- The number of bytes still to come. -/
def remaining (c : Cursor) : Nat := c.bytes.size - c.start

/-- Reads one byte, if one is left. -/
def next? (c : Cursor) : Option (UInt8 × Cursor) :=
  if h : c.start < c.bytes.size then some (c.bytes[c.start], ⟨c.bytes, c.start + 1⟩) else none

/-- Reads exactly `n` bytes, if so many are left. -/
def take? (n : Nat) (c : Cursor) : Option (ByteArray × Cursor) :=
  if n ≤ c.remaining then
    some (c.bytes.extract c.start (c.start + n), ⟨c.bytes, c.start + n⟩)
  else none

/-- At the start all bytes are unread. -/
@[simp] theorem rest_atStart (bytes : ByteArray) : (atStart bytes).rest = octets bytes := rfl

/-- As many bytes are unread as remain. -/
@[simp] theorem length_rest (c : Cursor) : c.rest.length = c.remaining := by
  simp [rest, remaining]

/-- The next byte is one of those that remained. -/
theorem remaining_of_next? {c d : Cursor} {b : UInt8} (h : c.next? = some (b, d)) :
    d.remaining + 1 = c.remaining := by
  unfold next? at h
  split at h
  · cases h; simp only [remaining]; omega
  · cases h

/-- Reading a byte splits the unread bytes into it and the rest. -/
theorem rest_of_next? {c d : Cursor} {b : UInt8} (h : c.next? = some (b, d)) :
    c.rest = b :: d.rest := by
  unfold next? at h
  split at h
  case isTrue hlt =>
    cases h
    simp only [rest]
    have hlen : c.start < (octets c.bytes).length := by simpa using hlt
    rw [List.drop_eq_getElem_cons hlen]
    rfl
  case isFalse => cases h

/-- Exactly at the end of the byte string there is no byte to read. -/
theorem next?_eq_none_iff (c : Cursor) : c.next? = none ↔ c.rest = [] := by
  unfold next?
  split
  case isTrue h => simp [rest, List.drop_eq_nil_iff]; omega
  case isFalse h => simp [rest, List.drop_eq_nil_iff]; omega

/-- Bytes taken together are among those that remained. -/
theorem remaining_of_take? {c d : Cursor} {n : Nat} {part : ByteArray}
    (h : c.take? n = some (part, d)) : d.remaining + n = c.remaining := by
  unfold take? at h
  split at h
  case isTrue hle => cases h; simp only [remaining] at *; omega
  case isFalse => cases h

/-- Reading several bytes splits the unread bytes into them and the rest. -/
theorem rest_of_take? {c d : Cursor} {n : Nat} {part : ByteArray}
    (h : c.take? n = some (part, d)) : c.rest = octets part ++ d.rest := by
  unfold take? at h
  split at h
  case isTrue =>
    cases h
    simp only [rest, octets, ByteArray.data_extract, Array.toList_extract]
    rw [List.extract_eq_take_drop, Nat.add_sub_cancel_left, ← List.drop_drop,
      List.take_append_drop]
  case isFalse => cases h

/-- As many bytes are taken as were asked for. -/
theorem size_of_take? {c d : Cursor} {n : Nat} {part : ByteArray}
    (h : c.take? n = some (part, d)) : part.size = n := by
  unfold take? at h
  split at h
  case isTrue hle =>
    cases h
    simp only [remaining] at hle
    simp only [ByteArray.size_extract]
    omega
  case isFalse => cases h

/-- There are enough bytes exactly if they can be read. -/
theorem take?_eq_none_iff (c : Cursor) (n : Nat) : c.take? n = none ↔ c.remaining < n := by
  simp [take?]

end Cursor

end MapArchive
