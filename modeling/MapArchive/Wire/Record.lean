import MapArchive.Wire.Varint

/-!
# Messages as lists of records

The bytes of a message are a sequence of records, each with a field number and a payload. `readAll`
takes the bytes apart and `writeAll` puts them together; what the fields mean is not decided here.
Bytes that are no sequence of whole records are no message at all.

No message of this library has groups, but they may stand among its records. The order in which a
group gives records of different tags has no meaning, so a group is kept in its normal form, with
the records sorted by their tags: two groups with the same meaning are equal. Groups may be nested
as deeply as there is room for.
-/

namespace MapArchive

/-- What a record carries. -/
inductive Payload where
  /-- A number of variable length. -/
  | varint (value : UInt64)
  /-- Eight bytes. -/
  | fixed64 (bytes : ByteArray)
  /-- A byte string with its length in front. -/
  | bytes (content : ByteArray)
  /-- A group, by the bytes of its sorted records. -/
  | group (content : ByteArray)
  /-- Four bytes. -/
  | fixed32 (bytes : ByteArray)
  deriving DecidableEq

/-- A field number with a payload. -/
structure Record where
  /-- The number of the field. -/
  field : Nat
  /-- What is stored for it. -/
  payload : Payload
  deriving DecidableEq

/-- The number that tells a kind of payload. A group has one more, for its end. -/
def Payload.kind : Payload → Nat
  | .varint _ => 0
  | .fixed64 _ => 1
  | .bytes _ => 2
  | .group _ => 3
  | .fixed32 _ => 5

namespace Record

/-- The greatest length of a byte string: 2³¹ - 1. -/
def maxLength : Nat := 0x7FFFFFFF

/-- How deeply messages and groups may be nested within a message. -/
def maxDepth : Nat := 100

/-- What the first number of a record announces: a field and the kind of its payload. -/
structure Tag where
  /-- The number of the field. -/
  field : Nat
  /-- The kind of payload, 0 to 7. -/
  kind : Nat
  deriving DecidableEq

/-- The number that stands for a tag. -/
def Tag.number (tag : Tag) : Nat := 8 * tag.field + tag.kind

/-- The tag of a record. -/
def tag (r : Record) : Tag := ⟨r.field, r.payload.kind⟩

/-- The records by ascending tag. Those of one tag stay in their order, which has a meaning. -/
def sort (records : List Record) : List Record :=
  records.mergeSort fun a b => a.tag.number ≤ b.tag.number

/-! ## Writing -/

/-- Writes the number in front of a record. -/
def writeTag (field kind : Nat) : List UInt8 := Varint.writeNat (8 * field + kind)

/-- Writes a record. -/
def write (r : Record) : List UInt8 :=
  match r.payload with
  | .varint value => writeTag r.field 0 ++ Varint.write value
  | .fixed64 bytes => writeTag r.field 1 ++ octets bytes
  | .bytes content => writeTag r.field 2 ++ Varint.writeNat content.size ++ octets content
  | .group content => writeTag r.field 3 ++ octets content ++ writeTag r.field 4
  | .fixed32 bytes => writeTag r.field 5 ++ octets bytes

/-- Writes records one after the other. -/
def writeAll (records : List Record) : ByteArray := ofOctets (records.flatMap write)

/-- The group that some records make up. -/
def groupOf (field : Nat) (records : List Record) : Record :=
  ⟨field, .group (writeAll (sort records))⟩

/-! ## Reading -/

/-- Reads the number in front of a record. -/
def readTag (c : Cursor) : Option (Tag × Cursor) :=
  match Varint.readShort c with
  | none => none
  | some (n, d) => if n < 0x100000000 then some (⟨n / 8, n % 8⟩, d) else none

/-- Reads a byte string with its length in front. -/
def readBytes (c : Cursor) : Option (ByteArray × Cursor) :=
  match Varint.readShort c with
  | none => none
  | some (n, d) => if n ≤ maxLength then d.take? n else none

/-- Reads a payload that is no group. -/
def readPlain (kind : Nat) (c : Cursor) : Option (Payload × Cursor) :=
  match kind with
  | 0 => (Varint.read c).map fun (v, d) => (.varint v, d)
  | 1 => (c.take? 8).map fun (part, d) => (.fixed64 part, d)
  | 2 => (readBytes c).map fun (part, d) => (.bytes part, d)
  | 5 => (c.take? 4).map fun (part, d) => (.fixed32 part, d)
  | _ => none

/-- Reading a tag takes at least a byte. -/
theorem remaining_of_readTag {c d : Cursor} {tag : Tag} (h : readTag c = some (tag, d)) :
    d.remaining < c.remaining := by
  unfold readTag at h
  cases hn : Varint.readShort c with
  | none => simp [hn] at h
  | some pair =>
    obtain ⟨n, e⟩ := pair
    simp only [hn] at h
    split at h
    · cases h; exact Varint.remaining_of_readShort hn
    · cases h

/-- Reading a byte string takes at least a byte, for its length. -/
theorem remaining_of_readBytes {c d : Cursor} {part : ByteArray}
    (h : readBytes c = some (part, d)) : d.remaining < c.remaining := by
  unfold readBytes at h
  cases hn : Varint.readShort c with
  | none => simp [hn] at h
  | some pair =>
    obtain ⟨n, e⟩ := pair
    simp only [hn] at h
    split at h
    · have h₁ := Varint.remaining_of_readShort hn
      have h₂ := Cursor.remaining_of_take? h
      omega
    · cases h

/-- Reading a payload that is no group gives no bytes back. -/
theorem remaining_of_readPlain {kind : Nat} {c d : Cursor} {p : Payload}
    (h : readPlain kind c = some (p, d)) : d.remaining ≤ c.remaining := by
  unfold readPlain at h
  split at h
  case h_5 => cases h
  all_goals
    simp only [Option.map_eq_some_iff, Prod.exists, Prod.mk.injEq] at h
    obtain ⟨x, e, hx, _, rfl⟩ := h
  case h_1 => exact Nat.le_of_lt (Varint.remaining_of_read hx)
  case h_3 => exact Nat.le_of_lt (remaining_of_readBytes hx)
  all_goals exact Nat.le.intro (Cursor.remaining_of_take? hx)

/-- A group whose end has not been reached. -/
structure OpenGroup where
  /-- The number of the field. -/
  field : Nat
  /-- The records so far. -/
  seen : Array Record

/-- The group with another record. -/
def OpenGroup.push (group : OpenGroup) (r : Record) : OpenGroup :=
  { group with seen := group.seen.push r }

/-- The group as a record. -/
def OpenGroup.close (group : OpenGroup) : Record := groupOf group.field group.seen.toList

/-- Reads on in the innermost of some groups, to the end of the outermost. The field of a record in
a group may have any number, zero too. -/
def readGroup (room : Nat) (innermost : OpenGroup) (outer : List OpenGroup) (c : Cursor) :
    Option (Record × Cursor) :=
  match htag : readTag c with
  | none => none
  | some (tag, d) =>
    have := remaining_of_readTag htag
    if tag.kind = 3 then
      if outer.length + 1 < room then
        readGroup room ⟨tag.field, #[]⟩ (innermost :: outer) d
      else none
    else if tag.kind = 4 then
      if tag.field = innermost.field then
        match outer with
        | [] => some (innermost.close, d)
        | next :: outer => readGroup room (next.push innermost.close) outer d
      else none
    else
      match hplain : readPlain tag.kind d with
      | none => none
      | some (payload, e) =>
        have := remaining_of_readPlain hplain
        readGroup room (innermost.push ⟨tag.field, payload⟩) outer e
termination_by c.remaining
decreasing_by all_goals omega

/-- Reading a group up to its end takes at least a byte. -/
theorem remaining_of_readGroup {room : Nat} {innermost : OpenGroup} {outer : List OpenGroup}
    {c d : Cursor} {r : Record} (h : readGroup room innermost outer c = some (r, d)) :
    d.remaining < c.remaining := by
  fun_induction readGroup room innermost outer c <;> grind

/-- Reads a record, with room for so many nested groups. Field numbers start at 1. -/
def read (room : Nat) (c : Cursor) : Option (Record × Cursor) :=
  match readTag c with
  | none => none
  | some (tag, d) =>
    if tag.field = 0 then none
    else if tag.kind = 3 then
      if 0 < room then readGroup room ⟨tag.field, #[]⟩ [] d else none
    else
      match readPlain tag.kind d with
      | none => none
      | some (payload, e) => some (⟨tag.field, payload⟩, e)

/-- A record that was read used up at least one byte. -/
theorem remaining_of_read {room : Nat} {c d : Cursor} {r : Record}
    (h : read room c = some (r, d)) : d.remaining < c.remaining := by
  unfold read at h
  cases htag : readTag c with
  | none => simp [htag] at h
  | some pair =>
    obtain ⟨tag, e⟩ := pair
    have hlt := remaining_of_readTag htag
    simp only [htag] at h
    split at h
    · cases h
    split at h
    · split at h
      · have := remaining_of_readGroup h
        omega
      · cases h
    · cases hplain : readPlain tag.kind e with
      | none => simp [hplain] at h
      | some found =>
        simp only [hplain] at h
        cases h
        have := remaining_of_readPlain hplain
        omega

/-- Reads records to the end, after those already `seen`. -/
def readOnto (room : Nat) (seen : Array Record) (c : Cursor) : Option (List Record) :=
  if c.remaining = 0 then some seen.toList
  else
    match h : read room c with
    | none => none
    | some (r, d) =>
      have := remaining_of_read h
      readOnto room (seen.push r) d
termination_by c.remaining

/-- The records that make up the bytes, if they are a sequence of whole records with room for so
many nested groups. -/
def readAll (room : Nat) (bytes : ByteArray) : Option (List Record) :=
  readOnto room #[] (.atStart bytes)

end Record

end MapArchive
