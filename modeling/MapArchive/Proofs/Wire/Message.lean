import MapArchive.Proofs.Wire.Field

/-!
# Reading what was written: messages

A message is faithful if its records are numbers and byte strings and all of its fields are read
back from them. A faithful message is read back from its bytes, on condition that none of the byte
strings in it is longer than a length in front of one can say. As submessages are among these byte
strings, the condition holds within them too.
-/

namespace MapArchive

namespace Record

/-- Records whose field is one that there can be and whose payload is a number or a byte string. -/
def IsSimple (r : Record) : Prop :=
  (0 < r.field ∧ r.field < 2 ^ 29) ∧
    ((∃ value, r.payload = .varint value) ∨ ∃ content, r.payload = .bytes content)

/-- Records all of which are simple. -/
def AreSimple (records : List Record) : Prop := ∀ r ∈ records, r.IsSimple

/-- No records at all are simple. -/
@[simp] theorem areSimple_nil : AreSimple [] := List.forall_mem_nil IsSimple

/-- Records are simple if the first one and the others are. -/
@[simp] theorem areSimple_cons {r : Record} {records : List Record} :
    AreSimple (r :: records) ↔ r.IsSimple ∧ AreSimple records := List.forall_mem_cons

/-- Records in two lists are simple if those in both are. -/
@[simp] theorem areSimple_append {a b : List Record} :
    AreSimple (a ++ b) ↔ AreSimple a ∧ AreSimple b := List.forall_mem_append

/-- Records that are written for the items of a list are simple if each of them is. -/
@[simp] theorem areSimple_map {α : Type} {write : α → Record} {list : List α} :
    AreSimple (list.map write) ↔ ∀ a ∈ list, (write a).IsSimple := List.forall_mem_map

/-- A record that is written for an item, if there is one, is simple if it is. -/
@[simp] theorem areSimple_toList_map {α : Type} {write : α → Record} {option : Option α} :
    AreSimple (option.map write).toList ↔ ∀ a ∈ option, (write a).IsSimple := by
  rw [Option.toList_map, areSimple_map]
  exact forall_congr' fun a => imp_congr_left Option.mem_toList

/-- A number is written as a simple record. -/
@[simp] theorem isSimple_writeNumber {α : Type} {kind : Scalar α} {field : Nat} (hpos : 0 < field)
    (hlt : field < 2 ^ 29) (a : α) : (Field.writeNumber kind field a).IsSimple :=
  ⟨⟨hpos, hlt⟩, .inl ⟨kind.toWord a, rfl⟩⟩

/-- A byte string is written as a simple record. -/
@[simp] theorem isSimple_writeBytes {field : Nat} (hpos : 0 < field) (hlt : field < 2 ^ 29)
    (content : ByteArray) : (Field.writeBytes field content).IsSimple :=
  ⟨⟨hpos, hlt⟩, .inr ⟨content, rfl⟩⟩

/-- A text is written as a simple record. -/
@[simp] theorem isSimple_writeText {field : Nat} (hpos : 0 < field) (hlt : field < 2 ^ 29)
    (text : String) : (Field.writeText field text).IsSimple :=
  isSimple_writeBytes hpos hlt _

/-- A submessage is written as a simple record. -/
@[simp] theorem isSimple_writeMessage {α : Type} [Message α] {field : Nat} (hpos : 0 < field)
    (hlt : field < 2 ^ 29) (message : α) : (Field.writeMessage field message).IsSimple :=
  isSimple_writeBytes hpos hlt _

/-- Repeated numbers are written as simple records. -/
@[simp] theorem areSimple_writeNumbers {α : Type} {kind : Scalar α} {field : Nat} (hpos : 0 < field)
    (hlt : field < 2 ^ 29) (numbers : List α) :
    AreSimple (Field.writeNumbers kind field numbers) := by
  unfold Field.writeNumbers
  split
  · exact areSimple_nil
  · exact areSimple_cons.2 ⟨isSimple_writeBytes hpos hlt _, areSimple_nil⟩

/-- Records without a byte string that is too long. -/
def AreShort (records : List Record) : Prop :=
  ∀ r ∈ records, ∀ content, r.payload = .bytes content → content.size ≤ maxLength

/-- Records that are not too long altogether have no byte string that is. -/
theorem areShort_of_size {records : List Record} (hsize : (writeAll records).size ≤ maxLength) :
    AreShort records := by
  rintro ⟨field, _⟩ hr content rfl
  exact Nat.le_trans (size_le_of_mem hr) hsize

/-- Simple records are sound if no byte string is too long, however deep they stand. -/
theorem sound_of_isSimple {room : Nat} {records : List Record}
    (hsimple : ∀ r ∈ records, r.IsSimple) (hshort : AreShort records) :
    ∀ r ∈ records, r.Sound room := by
  intro r hr
  obtain ⟨⟨hpos, hlt⟩, hpayload⟩ := hsimple r hr
  obtain ⟨field, p⟩ := r
  refine ⟨hpos, hlt, ?_⟩
  rcases hpayload with ⟨value, rfl⟩ | ⟨content, rfl⟩
  · exact .varint value
  · exact .bytes (hshort ⟨field, .bytes content⟩ hr content rfl)

end Record

/-- Messages in which every byte string, packed column and submessage is short enough for a length
to be put in front of it. Others cannot be stored. -/
def Message.Storable {α : Type} [Message α] (message : α) : Prop :=
  Record.AreShort (Message.toRecords message)

/-- Messages that are read back: their records are simple, and every field of a message that can be
stored is read back from them. -/
class Message.Faithful (α : Type) [Message α] : Prop where
  /-- Only numbers and byte strings are written. -/
  areSimple : ∀ message : α, Record.AreSimple (Message.toRecords message)
  /-- The records give the message back, however deep it stands. -/
  ofRecords_toRecords : ∀ (room : Nat) (message : α), Message.Storable message →
    Message.ofRecords room (Message.toRecords message) = some message

namespace Message

variable {α : Type} [Message α]

/-- A message that is not too long can be stored. -/
theorem storable_of_size {message : α} (hsize : (encode message).size ≤ Record.maxLength) :
    Storable message :=
  Record.areShort_of_size hsize

variable [Faithful α]

/-- The records of a message are read back. -/
theorem readAll_encode {message : α} (hstorable : Storable message) (room : Nat) :
    Record.readAll room (encode message) = some (toRecords message) :=
  Record.readAll_writeAll (Record.sound_of_isSimple (Faithful.areSimple message) hstorable)

/-- A message that can be stored is read back, however deep it stands. -/
theorem decodeWithin_encode {message : α} (hstorable : Storable message) (room : Nat) :
    decodeWithin room (encode message) = some message := by
  rw [decodeWithin, readAll_encode hstorable, Option.bind_some,
    Faithful.ofRecords_toRecords room message hstorable]

/-- A message that can be stored is read back. -/
theorem decode_encode_of_storable {message : α} (hstorable : Storable message) :
    decode (encode message) = some message :=
  decodeWithin_encode hstorable Record.maxDepth

/-- A message that is not too long is read back. -/
theorem decode_encode {message : α} (hsize : (encode message).size ≤ Record.maxLength) :
    decode (encode message) = some message :=
  decode_encode_of_storable (storable_of_size hsize)

end Message

namespace Field

open Record (ofField)

variable {α : Type} [Message α]

/-- The submessages of a message that can be stored can be stored. -/
theorem storable_of_mem_ofField {field : Nat} {records : List Record} {found : List α}
    (h : ofField field records = found.map (writeMessage field))
    (hshort : Record.AreShort records) : ∀ m ∈ found, Message.Storable m := by
  intro m hm
  have hmem : writeMessage field m ∈ ofField field records := by
    rw [h]
    exact List.mem_map_of_mem hm
  exact Message.storable_of_size (hshort _ (List.mem_filter.1 hmem).1 (Message.encode m) rfl)

variable [Message.Faithful α]

/-- A submessage that was written is read; none is if none was written. -/
theorem message?_eq {field : Nat} {records : List Record} {message : Option α}
    (h : ofField field records = (message.map (writeMessage field)).toList)
    (hshort : Record.AreShort records) (room : Nat) :
    message? α field room records = some message := by
  have hcontents : contents field records = message.toList.map Message.encode := by
    refine contents_eq ?_
    rw [h, Option.toList_map, List.map_map]
    rfl
  rw [message?, hcontents]
  cases message with
  | none => rfl
  | some m =>
    have hwritten : ofField field records = [m].map (writeMessage field) := h
    have hm := storable_of_mem_ofField hwritten hshort m List.mem_cons_self
    have hparts : ([Message.encode m].mapM (Record.readAll (room - 1))) =
        some [Message.toRecords m] := by
      rw [List.mapM_cons, Message.readAll_encode hm]
      rfl
    have hfound := Message.Faithful.ofRecords_toRecords (room - 1) m hm
    simp only [Option.toList_some, List.map_cons, List.map_nil, hparts, Option.bind_eq_bind,
      Option.bind_some, List.flatten_cons, List.flatten_nil, List.append_nil, hfound,
      Option.pure_def]

/-- Submessages that were written for a repeated field are read. -/
theorem messages_eq {field : Nat} {records : List Record} {found : List α}
    (h : ofField field records = found.map (writeMessage field))
    (hshort : Record.AreShort records) (room : Nat) :
    messages α field room records = some found := by
  have hfits := storable_of_mem_ofField h hshort
  have hcontents : contents field records = found.map Message.encode := by
    refine contents_eq ?_
    rw [h, List.map_map]
    rfl
  rw [messages, hcontents]
  clear h hcontents hshort
  induction found with
  | nil => rfl
  | cons m found ih =>
    rw [List.map_cons, List.mapM_cons, Message.decodeWithin_encode (hfits m List.mem_cons_self),
      ih fun n hn => hfits n (List.mem_cons_of_mem m hn)]
    rfl

end Field

end MapArchive
