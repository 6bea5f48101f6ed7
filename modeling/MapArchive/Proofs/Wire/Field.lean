import MapArchive.Proofs.Text.Utf8
import MapArchive.Proofs.Wire.Record
import MapArchive.Wire.Field

/-!
# Reading what was written: fields

What is read for a field depends on the records with its number alone, so each reader has one lemma
here: if the records of a field are those that its counterpart writes, then what was written is
read.
-/

namespace MapArchive

namespace Record

/-- The records of a field. -/
def ofField (field : Nat) (records : List Record) : List Record :=
  records.filter (·.field = field)

/-- No record is one of a field if there are none. -/
@[simp] theorem ofField_nil (field : Nat) : ofField field [] = [] := rfl

/-- The records of a field in two lists are those in the first and then those in the second. -/
@[simp] theorem ofField_append (field : Nat) (a b : List Record) :
    ofField field (a ++ b) = ofField field a ++ ofField field b :=
  List.filter_append a b

/-- The first record is kept if it is one of the field. -/
@[simp] theorem ofField_cons (field : Nat) (r : Record) (records : List Record) :
    ofField field (r :: records) =
      if r.field = field then r :: ofField field records else ofField field records := by
  simp [ofField, List.filter_cons]

/-- Of records that have one field, all or none have the one wanted. -/
theorem ofField_of_forall {field other : Nat} {records : List Record}
    (h : ∀ r ∈ records, r.field = other) :
    ofField field records = if other = field then records else [] := by
  split
  case isTrue heq => exact List.filter_eq_self.2 fun r hr => by simp [h r hr, heq]
  case isFalse hne => exact List.filter_eq_nil_iff.2 fun r hr => by simp [h r hr, hne]

/-- What a record is written as is part of what all are written as. -/
theorem length_write_le {r : Record} {records : List Record} (h : r ∈ records) :
    r.write.length ≤ (writeAll records).size := by
  rw [← length_octets, writeAll, octets_ofOctets, List.flatMap_def]
  exact (List.sublist_flatten_of_mem (List.mem_map.2 ⟨r, h, rfl⟩)).length_le

/-- A byte string is no longer than what contains it. -/
theorem size_le_of_mem {field : Nat} {content : ByteArray} {records : List Record}
    (h : ⟨field, .bytes content⟩ ∈ records) : content.size ≤ (writeAll records).size := by
  have hle := length_write_le h
  simp only [write, List.length_append, length_octets] at hle
  omega

end Record

namespace Field

open Record (ofField)

/-! ## Which fields the writers write -/

/-- A number is stored for its field. -/
@[simp] theorem field_writeNumber {α : Type} (kind : Scalar α) (field : Nat) (a : α) :
    (writeNumber kind field a).field = field := rfl

/-- A byte string is stored for its field. -/
@[simp] theorem field_writeBytes (field : Nat) (content : ByteArray) :
    (writeBytes field content).field = field := rfl

/-- A text is stored for its field. -/
@[simp] theorem field_writeText (field : Nat) (text : String) :
    (writeText field text).field = field := rfl

/-- A submessage is stored for its field. -/
@[simp] theorem field_writeMessage {α : Type} [Message α] (field : Nat) (message : α) :
    (writeMessage field message).field = field := rfl

/-- Repeated numbers are stored for their field. -/
theorem field_of_mem_writeNumbers {α : Type} {kind : Scalar α} {field : Nat} {numbers : List α}
    {r : Record} (h : r ∈ writeNumbers kind field numbers) : r.field = field := by
  unfold writeNumbers at h
  split at h
  · cases h
  · rw [List.mem_singleton.1 h]
    rfl

/-- Repeated numbers are all of one field or of another. -/
@[simp] theorem ofField_writeNumbers {α : Type} (kind : Scalar α) (field other : Nat)
    (numbers : List α) :
    ofField field (writeNumbers kind other numbers) =
      if other = field then writeNumbers kind other numbers else [] :=
  Record.ofField_of_forall fun _ => field_of_mem_writeNumbers

/-- Records that are written for one field are all of it or of another. -/
@[simp] theorem ofField_map {α : Type} {write : α → Record} {other : Nat} (field : Nat)
    (h : ∀ a, (write a).field = other) (list : List α) :
    ofField field (list.map write) = if other = field then list.map write else [] := by
  refine Record.ofField_of_forall fun r hr => ?_
  obtain ⟨a, _, rfl⟩ := List.mem_map.1 hr
  exact h a

/-- A record that is written for one field, if at all, is of it or of another. -/
@[simp] theorem ofField_toList_map {α : Type} {write : α → Record} {other : Nat} (field : Nat)
    (h : ∀ a, (write a).field = other) (option : Option α) :
    ofField field (option.map write).toList =
      if other = field then (option.map write).toList else [] := by
  refine Record.ofField_of_forall fun r hr => ?_
  obtain ⟨a, _, rfl⟩ := Option.map_eq_some_iff.1 (Option.mem_toList.1 hr)
  exact h a

/-! ## Reading single values -/

/-- The varints of a field are those in the records of the field. -/
theorem words_ofField (field : Nat) (records : List Record) :
    words field (ofField field records) = words field records := by
  unfold words Record.ofField
  rw [List.filterMap_filter]
  congr 1
  funext r
  split <;> split <;> simp_all

/-- The byte strings of a field are those in the records of the field. -/
theorem contents_ofField (field : Nat) (records : List Record) :
    contents field (ofField field records) = contents field records := by
  unfold contents Record.ofField
  rw [List.filterMap_filter]
  congr 1
  funext r
  split <;> split <;> simp_all

/-- A number that was written is read; none is if none was written. -/
theorem number?_eq {α : Type} {kind : Scalar α} {field : Nat} {records : List Record}
    {a : Option α} (h : ofField field records = (a.map (writeNumber kind field)).toList) :
    number? kind field records = a := by
  rw [number?, ← words_ofField, h]
  cases a with
  | none => rfl
  | some a => simp [words, writeNumber, kind.ofWord_toWord]

/-- The byte strings that were written are those found. -/
theorem contents_eq {field : Nat} {records : List Record} {parts : List ByteArray}
    (h : ofField field records = parts.map (writeBytes field)) :
    contents field records = parts := by
  rw [← contents_ofField, h]
  simp [contents, writeBytes, List.filterMap_map, Function.comp_def]

/-- A byte string that was written is read; none is if none was written. -/
theorem bytes?_eq {field : Nat} {records : List Record} {content : Option ByteArray}
    (h : ofField field records = (content.map (writeBytes field)).toList) :
    bytes? field records = content := by
  have hcontents : contents field records = content.toList :=
    contents_eq (by rw [h, Option.toList_map])
  rw [bytes?, hcontents]
  cases content <;> rfl

/-- The bytes of a text stand for the text. -/
theorem textOfBytes?_encode (text : String) :
    textOfBytes? (ofOctets (Utf8.encode text.toList)) = some text := by
  simp [textOfBytes?, Utf8.decode_encode, Except.toOption]

/-- Texts that were written are read. -/
theorem mapM_textOfBytes? (texts : List String) :
    (texts.map fun text => ofOctets (Utf8.encode text.toList)).mapM textOfBytes? = some texts := by
  induction texts with
  | nil => rfl
  | cons text texts ih =>
    rw [List.map_cons, List.mapM_cons, textOfBytes?_encode, ih]
    rfl

/-- A text that was written is read; none is if none was written. -/
theorem text?_eq {field : Nat} {records : List Record} {text : Option String}
    (h : ofField field records = (text.map (writeText field)).toList) :
    text? field records = some text := by
  have hcontents : contents field records =
      text.toList.map fun text => ofOctets (Utf8.encode text.toList) := by
    refine contents_eq ?_
    rw [h, Option.toList_map, List.map_map]
    rfl
  rw [text?, hcontents, mapM_textOfBytes?]
  cases text <;> rfl

/-- Texts that were written for a repeated field are read. -/
theorem texts_eq {field : Nat} {records : List Record} {found : List String}
    (h : ofField field records = found.map (writeText field)) :
    texts field records = some found := by
  have hcontents : contents field records =
      found.map fun text => ofOctets (Utf8.encode text.toList) := by
    refine contents_eq ?_
    rw [h, List.map_map]
    rfl
  rw [texts, hcontents, mapM_textOfBytes?]

/-! ## Reading repeated numbers -/

/-- Numbers that were packed are unpacked. -/
theorem unpackOnto_flatMap {numbers : List UInt64} {seen : Array UInt64} {c : Cursor}
    (h : c.rest = numbers.flatMap Varint.write) :
    unpackOnto seen c = some (seen ++ numbers.toArray) := by
  induction numbers generalizing seen c with
  | nil =>
    have hremaining : c.remaining = 0 := by rw [← Cursor.length_rest, h]; rfl
    rw [unpackOnto, if_pos hremaining]
    simp
  | cons v numbers ih =>
    rw [List.flatMap_cons] at h
    obtain ⟨d, hread, hd⟩ := Varint.read_write h
    have hlt := Varint.remaining_of_read hread
    rw [unpackOnto, if_neg (by omega)]
    split
    case h_1 hnone => rw [hread] at hnone; cases hnone
    case h_2 v' d' hsome =>
      rw [hread] at hsome
      cases hsome
      rw [ih hd]
      simp

/-- Repeated numbers of a field are those in the records of the field. -/
theorem unpackAllOnto_ofField (field : Nat) (seen : Array UInt64) (records : List Record) :
    unpackAllOnto field seen (ofField field records) = unpackAllOnto field seen records := by
  induction records generalizing seen with
  | nil => rfl
  | cons r records ih =>
    rw [Record.ofField_cons]
    by_cases hfield : r.field = field
    · rw [if_pos hfield, unpackAllOnto, unpackAllOnto, if_pos hfield, if_pos hfield]
      simp only [ih]
    · rw [if_neg hfield, ih]
      rw [unpackAllOnto.eq_def field seen (r :: records)]
      simp only [if_neg hfield]

/-- Numbers that were written for a repeated field are read. -/
theorem numbers_eq {α : Type} {kind : Scalar α} {field : Nat} {records : List Record}
    {found : List α} (h : ofField field records = writeNumbers kind field found) :
    numbers kind field records = some found := by
  rw [numbers, ← unpackAllOnto_ofField, h]
  cases found with
  | nil => simp [writeNumbers, unpackAllOnto]
  | cons a found =>
    have hrest : (Cursor.atStart (ofOctets
        ((a :: found).flatMap fun a => Varint.write (kind.toWord a)))).rest =
          ((a :: found).map kind.toWord).flatMap Varint.write := by
      rw [Cursor.rest_atStart, octets_ofOctets, List.flatMap_map]
    have hwords : ((a :: found).map kind.toWord).map kind.ofWord = a :: found := by
      rw [List.map_map]
      exact (List.map_congr_left fun b _ => kind.ofWord_toWord b).trans (List.map_id _)
    simp only [writeNumbers, unpackAllOnto, writeBytes, if_true, unpackOnto_flatMap hrest,
      Array.empty_append, Option.map_some, List.map_toArray, hwords]

end Field

end MapArchive
