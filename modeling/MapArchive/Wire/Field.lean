import MapArchive.Text.Utf8
import MapArchive.Wire.Record
import MapArchive.Wire.Scalar

/-!
# The fields of a message

What a message says about a field depends only on the records with that field's number, in their
order. A single number, text or byte string is given by the last record that fits; repeated numbers
may stand one to a record or packed into byte strings, in any mixture; a single submessage given in
several records is that of all their records together. Records that fit no rule are passed over.
Each level of submessages leaves less room for groups within.

Texts are meant to be UTF-8, which the format does not ensure, and its decoders differ in what they
make of other bytes: some refuse the message, others hand the bytes over. A field that is read as
text here is one whose decoder is assumed to refuse them. Where this library itself says what is
wrong with the bytes, as for the type of a blob, the field is read as bytes and checked afterwards.

The functions here read one field each from the list of all records of a message, and their
counterparts write one.
-/

namespace MapArchive

/-- A type of messages: how to read one from records and write it as records. -/
class Message (α : Type) where
  /-- The message that the records make up, if what they contain is well formed and there is room
  for so many levels within. -/
  ofRecords : Nat → List Record → Option α
  /-- The records of a message, by ascending field number. -/
  toRecords : α → List Record

namespace Message

/-- Reads a message with room for so many levels within. -/
def decodeWithin {α : Type} [Message α] (room : Nat) (bytes : ByteArray) : Option α :=
  (Record.readAll room bytes).bind (ofRecords room)

/-- Reads a message. -/
def decode {α : Type} [Message α] (bytes : ByteArray) : Option α :=
  decodeWithin Record.maxDepth bytes

/-- Writes a message. -/
def encode {α : Type} [Message α] (message : α) : ByteArray :=
  Record.writeAll (toRecords message)

end Message

namespace Field

/-- The varints stored for a field. -/
def words (field : Nat) (records : List Record) : List UInt64 :=
  records.filterMap fun r =>
    match r.payload with
    | .varint value => if r.field = field then some value else none
    | _ => none

/-- The byte strings stored for a field. -/
def contents (field : Nat) (records : List Record) : List ByteArray :=
  records.filterMap fun r =>
    match r.payload with
    | .bytes content => if r.field = field then some content else none
    | _ => none

/-- The number stored for a field, if any. -/
def number? {α : Type} (kind : Scalar α) (field : Nat) (records : List Record) : Option α :=
  (words field records).getLast?.map kind.ofWord

/-- The byte string stored for a field, if any. -/
def bytes? (field : Nat) (records : List Record) : Option ByteArray :=
  (contents field records).getLast?

/-- Reads varints to the end, after those already `seen`. -/
def unpackOnto (seen : Array UInt64) (c : Cursor) : Option (Array UInt64) :=
  if c.remaining = 0 then some seen
  else
    match h : Varint.read c with
    | none => none
    | some (v, d) =>
      have := Varint.remaining_of_read h
      unpackOnto (seen.push v) d
termination_by c.remaining

/-- All numbers stored for a repeated field, after those already `seen`. -/
def unpackAllOnto (field : Nat) (seen : Array UInt64) : List Record → Option (Array UInt64)
  | [] => some seen
  | r :: rest =>
    if r.field = field then
      match r.payload with
      | .varint value => unpackAllOnto field (seen.push value) rest
      | .bytes content =>
        match unpackOnto seen (.atStart content) with
        | none => none
        | some seen => unpackAllOnto field seen rest
      | _ => unpackAllOnto field seen rest
    else unpackAllOnto field seen rest

/-- All numbers stored for a repeated field, packed or not. -/
def numbers {α : Type} (kind : Scalar α) (field : Nat) (records : List Record) :
    Option (List α) :=
  (unpackAllOnto field #[] records).map fun found => (found.map kind.ofWord).toList

/-- The submessage stored for a field, if any, made up by all records given for it. -/
def message? (α : Type) [Message α] (field room : Nat) (records : List Record) :
    Option (Option α) :=
  match contents field records with
  | [] => some none
  | parts => do
    let inner ← parts.mapM (Record.readAll (room - 1))
    let found ← Message.ofRecords (room - 1) inner.flatten
    return some found

/-- All submessages stored for a repeated field. -/
def messages (α : Type) [Message α] (field room : Nat) (records : List Record) :
    Option (List α) :=
  (contents field records).mapM (Message.decodeWithin (room - 1))

/-- The text that a byte string stands for, if it is valid UTF-8. -/
def textOfBytes? (content : ByteArray) : Option String :=
  (Utf8.decode (octets content)).toOption.map String.ofList

/-- The text stored for a field, if any. Bytes that are no text make the message ill formed, also
where a later record of the field has a text: this is assumed of decoders that check texts. -/
def text? (field : Nat) (records : List Record) : Option (Option String) :=
  match (contents field records).mapM textOfBytes? with
  | none => none
  | some found => some found.getLast?

/-- All texts stored for a repeated field. Bytes that are no text make the message ill formed, as
for a single text. -/
def texts (field : Nat) (records : List Record) : Option (List String) :=
  (contents field records).mapM textOfBytes?

/-- The record of a single number. -/
def writeNumber {α : Type} (kind : Scalar α) (field : Nat) (a : α) : Record :=
  ⟨field, .varint (kind.toWord a)⟩

/-- The record of a byte string. -/
def writeBytes (field : Nat) (content : ByteArray) : Record := ⟨field, .bytes content⟩

/-- The record of a text. -/
def writeText (field : Nat) (text : String) : Record :=
  writeBytes field (ofOctets (Utf8.encode text.toList))

/-- The record of a submessage. -/
def writeMessage {α : Type} [Message α] (field : Nat) (message : α) : Record :=
  writeBytes field (Message.encode message)

/-- The packed record of repeated numbers; nothing if there are none. -/
def writeNumbers {α : Type} (kind : Scalar α) (field : Nat) (numbers : List α) : List Record :=
  match numbers with
  | [] => []
  | _ => [writeBytes field (ofOctets (numbers.flatMap fun a => Varint.write (kind.toWord a)))]

end Field

end MapArchive
