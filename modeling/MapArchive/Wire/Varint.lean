import MapArchive.Bytes.Cursor

/-!
# Numbers of variable length

A varint holds seven bits of a number in each byte, the lowest first; every byte but the last has
its high bit set. The reader accepts up to ten bytes, also overlong forms, and keeps the low 64
bits. Numbers that say what follows them, and how much of it, are no longer than five bytes. The
writer uses as few bytes as the number needs.
-/

namespace MapArchive.Varint

/-- The most bytes a varint may have. -/
def maxLength : Nat := 10

/-- The most bytes a varint may have that says what follows it. -/
def maxShortLength : Nat := 5

/-- Reads groups of seven bits, at most `budget` of them, as a number. -/
def groups : Nat → Cursor → Option (Nat × Cursor)
  | 0, _ => none
  | budget + 1, c =>
    match c.next? with
    | none => none
    | some (b, c) =>
      if b < 0x80 then some (b.toNat, c)
      else
        match groups budget c with
        | none => none
        | some (high, c) => some (b.toNat % 128 + 128 * high, c)

/-- Reads a varint. -/
def read (c : Cursor) : Option (UInt64 × Cursor) :=
  match groups maxLength c with
  | none => none
  | some (n, c) => some (n.toUInt64, c)

/-- Reads a varint that says what follows it. -/
def readShort (c : Cursor) : Option (Nat × Cursor) := groups maxShortLength c

/-- Writes a number in groups of seven bits. -/
def writeNat (n : Nat) : List UInt8 :=
  if n < 128 then [n.toUInt8] else (n % 128 + 128).toUInt8 :: writeNat (n / 128)
termination_by n
decreasing_by omega

/-- Writes a varint. -/
def write (v : UInt64) : List UInt8 := writeNat v.toNat

/-- Reading a varint takes at least a byte. -/
theorem remaining_of_groups {budget : Nat} {c d : Cursor} {n : Nat}
    (h : groups budget c = some (n, d)) : d.remaining < c.remaining := by
  induction budget generalizing c n with
  | zero => simp [groups] at h
  | succ budget ih =>
    rw [groups] at h
    cases hnext : c.next? with
    | none => simp [hnext] at h
    | some pair =>
      obtain ⟨b, e⟩ := pair
      have hlt := Cursor.remaining_of_next? hnext
      simp only [hnext] at h
      split at h
      · cases h; omega
      · cases hrest : groups budget e with
        | none => simp [hrest] at h
        | some found =>
          obtain ⟨high, f⟩ := found
          simp only [hrest] at h
          cases h
          have := ih hrest
          omega

/-- A varint that was read used up at least one byte. -/
theorem remaining_of_read {c d : Cursor} {v : UInt64} (h : read c = some (v, d)) :
    d.remaining < c.remaining := by
  unfold read at h
  cases hgroups : groups maxLength c with
  | none => simp [hgroups] at h
  | some pair =>
    simp only [hgroups] at h
    cases h
    exact remaining_of_groups hgroups

/-- A varint that says what follows it used up at least one byte. -/
theorem remaining_of_readShort {c d : Cursor} {n : Nat} (h : readShort c = some (n, d)) :
    d.remaining < c.remaining := remaining_of_groups h

end MapArchive.Varint
