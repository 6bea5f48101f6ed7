import Mathlib.Logic.Relation
import MapArchive.Blob.Content
import MapArchive.Proofs.Message.Layout
import MapArchive.Proofs.Wire.Locality

/-!
# Other bytes for the same block

A block can be written in many ways: records of different fields stand in any order, records that
no field admits stand anywhere, numbers are packed in runs of any lengths or not at all, and a
single submessage is given in several parts. `Recoding` has these changes as single steps, in the
block itself and in the submessages at any depth. Whatever the steps are, the block that is read
stays the same.

What a step puts in the place of some records can be read, and is interchangeable with them: amid
any other records the same message is read.
-/

namespace MapArchive

/-- Records in whose place others may stand: whatever is before and after them, the same message is
read. -/
def Interchangeable (part : BlockPart) (room : Nat) (a b : List Record) : Prop :=
  ∀ before after,
    part.ofRecords room (before ++ a ++ after) = part.ofRecords room (before ++ b ++ after)

/-- Changes of the bytes of a message that leave what it says. There is room for so many levels of
groups and submessages within it. -/
inductive Recoding : BlockPart → Nat → ByteArray → ByteArray → Prop where
  /-- Two records of different fields change places. -/
  | swap {part : BlockPart} {room : Nat} {a b : ByteArray} {r s : Record}
      (ha : Record.readAll room a = some [r]) (hb : Record.readAll room b = some [s])
      (hfields : r.field ≠ s.field) : Recoding part room (a ++ b) (b ++ a)
  /-- A record that no field admits is put in. -/
  | insert {part : BlockPart} {room : Nat} {a : ByteArray} {r : Record}
      (ha : Record.readAll room a = some [r]) (hnot : ¬part.Admits r) : Recoding part room .empty a
  /-- A record that no field admits is left out. -/
  | delete {part : BlockPart} {room : Nat} {a : ByteArray} {r : Record}
      (ha : Record.readAll room a = some [r]) (hnot : ¬part.Admits r) : Recoding part room a .empty
  /-- The same numbers of a repeated field are stored in other records. -/
  | repack {part : BlockPart} {room field : Nat} {α : Type} {kind : Scalar α} {a b : ByteArray}
      {rs ss : List Record} {items : List α} (hkind : part.field? field = some (.numbers kind))
      (ha : Record.readAll room a = some rs) (hb : Record.readAll room b = some ss)
      (hrs : ∀ r ∈ rs, r.field = field) (hss : ∀ s ∈ ss, s.field = field)
      (hitems : Field.numbers kind field rs = some items)
      (hsame : Field.numbers kind field ss = some items) : Recoding part room a b
  /-- A single submessage is given in two parts. -/
  | split {part inner : BlockPart} {room field : Nat} {a b c p q : ByteArray} {ps qs : List Record}
      (hkind : part.field? field = some (.message inner))
      (ha : Record.readAll room a = some [⟨field, .bytes (p ++ q)⟩])
      (hb : Record.readAll room b = some [⟨field, .bytes p⟩])
      (hc : Record.readAll room c = some [⟨field, .bytes q⟩])
      (hp : Record.readAll (room - 1) p = some ps) (hq : Record.readAll (room - 1) q = some qs) :
      Recoding part room a (b ++ c)
  /-- A submessage is changed. -/
  | within {part inner : BlockPart} {room field : Nat} {a b p q : ByteArray}
      (hkind : part.field? field = some (.message inner) ∨
        part.field? field = some (.messages inner))
      (ha : Record.readAll room a = some [⟨field, .bytes p⟩])
      (hb : Record.readAll room b = some [⟨field, .bytes q⟩])
      (hinner : Recoding inner (room - 1) p q) : Recoding part room a b
  /-- Some records among others are changed. -/
  | amid {part : BlockPart} {room : Nat} {a b x y : ByteArray} {xs ys : List Record}
      (hx : Record.readAll room x = some xs) (hy : Record.readAll room y = some ys)
      (hinner : Recoding part room a b) : Recoding part room (x ++ a ++ y) (x ++ b ++ y)

/-! ## Records that are interchangeable -/

namespace Interchangeable

variable {part : BlockPart} {room : Nat}

/-- Records that each field admits alike are interchangeable. -/
theorem of_admitted {a b : List Record}
    (h : ∀ field kind, part.field? field = some kind →
      kind.admitted field a = kind.admitted field b) : Interchangeable part room a b := by
  intro before after
  refine BlockPart.ofRecords_congr fun field kind hkind => ?_
  refine FieldKind.same_of_admitted ?_ room
  simp only [FieldKind.admitted, List.filter_append] at h ⊢
  rw [h field kind hkind]

/-- Two records of different fields may stand either way round. -/
theorem swap {r s : Record} (hfields : r.field ≠ s.field) :
    Interchangeable part room [r, s] [s, r] := by
  refine of_admitted fun field kind _ => ?_
  simp only [FieldKind.admitted, List.filter_cons, List.filter_nil]
  grind

/-- A record that no field admits may be there or not. -/
theorem of_not_admits {r : Record} (hnot : ¬part.Admits r) : Interchangeable part room [] [r] := by
  refine of_admitted fun field kind hkind => ?_
  have hr : ¬(r.field = field ∧ r.payload.kind ∈ kind.payloads) := by
    rintro ⟨rfl, hpayload⟩
    exact hnot ⟨kind, hkind, hpayload⟩
  simp [FieldKind.admitted, hr]

/-- Records may be interchanged either way. -/
theorem symm {a b : List Record} (h : Interchangeable part room a b) :
    Interchangeable part room b a := fun before after => (h before after).symm

/-- For records of one field, only this field has to be looked at. -/
theorem of_field {field : Nat} {kind : FieldKind} {a b : List Record}
    (hkind : part.field? field = some kind) (ha : ∀ r ∈ a, r.field = field)
    (hb : ∀ r ∈ b, r.field = field)
    (hsame : ∀ before after, kind.Same room field (before ++ a ++ after) (before ++ b ++ after)) :
    Interchangeable part room a b := by
  intro before after
  refine BlockPart.ofRecords_congr fun other kind' hother => ?_
  by_cases hfield : field = other
  · subst hfield
    cases Option.some.inj (hkind.symm.trans hother)
    exact hsame before after
  · have hnone : ∀ records : List Record, (∀ r ∈ records, r.field = field) →
        kind'.admitted other records = [] := by
      intro records hall
      refine List.filter_eq_nil_iff.mpr fun r hr => ?_
      simp [hall r hr, hfield]
    refine FieldKind.same_of_admitted ?_ room
    have ha := hnone a ha
    have hb := hnone b hb
    simp only [FieldKind.admitted, List.filter_append] at ha hb ⊢
    rw [ha, hb]

/-- The same numbers may stand in any records of their field. -/
theorem of_numbers {field : Nat} {α : Type} {kind : Scalar α} {a b : List Record}
    (hkind : part.field? field = some (.numbers kind)) (ha : ∀ r ∈ a, r.field = field)
    (hb : ∀ r ∈ b, r.field = field)
    (hsame : Field.numbers kind field a = Field.numbers kind field b) :
    Interchangeable part room a b := by
  refine of_field hkind ha hb fun before after => ?_
  simp only [FieldKind.Same, Field.numbers_append, hsame]

end Interchangeable

namespace Field

/-- The contents of two lists of records are those of the first and then those of the second. -/
theorem contents_append (field : Nat) (a b : List Record) :
    contents field (a ++ b) = contents field a ++ contents field b :=
  List.filterMap_append

/-- The content of a single record is its byte string. -/
@[simp] theorem contents_writeBytes (field : Nat) (content : ByteArray) :
    contents field [⟨field, .bytes content⟩] = [content] := by
  simp [contents]

/-- The contents of records made from byte strings are these. -/
theorem contents_map (field : Nat) (list : List ByteArray) :
    contents field (list.map fun p => ⟨field, .bytes p⟩) = list := by
  induction list with
  | nil => rfl
  | cons p list ih =>
    rw [List.map_cons, ← List.singleton_append, contents_append, contents_writeBytes, ih,
      List.singleton_append]

/-- A submessage that there are records of is the one that they all make up. -/
theorem message?_eq_of_contents {α : Type} [Message α] {field room : Nat} {records : List Record}
    {before mid after : List ByteArray} (hmid : mid ≠ [])
    (h : contents field records = before ++ mid ++ after) :
    message? α field room records =
      (before.mapM (Record.readAll (room - 1))).bind fun first =>
        (mid.mapM (Record.readAll (room - 1))).bind fun found =>
          (after.mapM (Record.readAll (room - 1))).bind fun last =>
            (Message.ofRecords (room - 1) (first.flatten ++ found.flatten ++ last.flatten)).map
              some := by
  have hne : before ++ mid ++ after ≠ [] := by simp [hmid]
  rw [message?, h]
  split
  case h_1 hnil => exact absurd hnil hne
  case h_2 =>
    simp only [List.mapM_append]
    cases before.mapM (Record.readAll (room - 1)) with
    | none => rfl
    | some first =>
      cases mid.mapM (Record.readAll (room - 1)) with
      | none => rfl
      | some found =>
        cases after.mapM (Record.readAll (room - 1)) with
        | none => rfl
        | some last =>
          change
            (Message.ofRecords (room - 1) (first ++ found ++ last).flatten).bind (some ∘ some) =
              (Message.ofRecords (room - 1)
                (first.flatten ++ found.flatten ++ last.flatten)).map some
          rw [List.flatten_append, List.flatten_append, Option.map_eq_bind]

end Field

namespace Interchangeable

variable {part inner : BlockPart} {room : Nat}

/-- Parts of a single submessage may be other parts whose records are interchangeable. -/
theorem of_parts {field : Nat} {parts others : List ByteArray} {found found' : List (List Record)}
    (hkind : part.field? field = some (.message inner)) (hparts : parts ≠ [])
    (hothers : others ≠ [])
    (hfound : parts.mapM (Record.readAll (room - 1)) = some found)
    (hfound' : others.mapM (Record.readAll (room - 1)) = some found')
    (h : Interchangeable inner (room - 1) found.flatten found'.flatten) :
    Interchangeable part room (parts.map fun p => ⟨field, .bytes p⟩)
      (others.map fun p => ⟨field, .bytes p⟩) := by
  have hamid (before after : List Record) (list : List ByteArray) :
      Field.contents field (before ++ (list.map fun p => ⟨field, .bytes p⟩) ++ after) =
        Field.contents field before ++ list ++ Field.contents field after := by
    rw [Field.contents_append, Field.contents_append, Field.contents_map]
  refine of_field hkind (by simp) (by simp) fun before after => ?_
  have hjoined : ∀ first last : List Record,
      Message.ofRecords (α := inner.type.Carrier) (room - 1) (first ++ found.flatten ++ last) =
        Message.ofRecords (room - 1) (first ++ found'.flatten ++ last) := h
  simp only [FieldKind.Same, Field.message?_eq_of_contents hparts (hamid before after parts),
    Field.message?_eq_of_contents hothers (hamid before after others), hfound, hfound',
    Option.bind_some, hjoined]

/-- One of several submessages may stand in any bytes that it is read from. -/
theorem of_submessage {field : Nat} {p q : ByteArray}
    (hkind : part.field? field = some (.messages inner))
    (h : Message.decodeWithin (α := inner.type.Carrier) (room - 1) p =
      Message.decodeWithin (room - 1) q) :
    Interchangeable part room [⟨field, .bytes p⟩] [⟨field, .bytes q⟩] := by
  refine of_field hkind (by simp) (by simp) fun before after => ?_
  simp only [FieldKind.Same, Field.messages, Field.contents_append, Field.contents_writeBytes,
    List.mapM_append, List.mapM_cons, h]

end Interchangeable

/-! ## Every step keeps the block -/

namespace Recoding

/-- A step puts records that can be read in the place of records that could, and the ones are
interchangeable with the others: by induction on the depth of the change. -/
theorem interchangeable {part : BlockPart} {room : Nat} {a b : ByteArray}
    (h : Recoding part room a b) :
    ∃ rs ss, Record.readAll room a = some rs ∧ Record.readAll room b = some ss ∧
      Interchangeable part room rs ss := by
  induction h with
  | swap ha hb hfields =>
    exact ⟨_, _, Record.readAll_append ha hb, Record.readAll_append hb ha, .swap hfields⟩
  | insert ha hnot => exact ⟨[], _, Record.readAll_empty _, ha, .of_not_admits hnot⟩
  | delete ha hnot =>
    exact ⟨_, [], ha, Record.readAll_empty _, Interchangeable.symm (.of_not_admits hnot)⟩
  | repack hkind ha hb hrs hss hitems hsame =>
    exact ⟨_, _, ha, hb, .of_numbers hkind hrs hss (hitems.trans hsame.symm)⟩
  | @split part inner room field a b c p q ps qs hkind ha hb hc hp hq =>
    have hwhole : [p ++ q].mapM (Record.readAll (room - 1)) = some [ps ++ qs] := by
      simp [Record.readAll_append hp hq]
    have hparts : [p, q].mapM (Record.readAll (room - 1)) = some [ps, qs] := by simp [hp, hq]
    have hsame : Interchangeable inner (room - 1) [ps ++ qs].flatten [ps, qs].flatten := by
      intro before after
      simp
    exact ⟨_, _, ha, Record.readAll_append hb hc,
      .of_parts hkind (by simp) (by simp) hwhole hparts hsame⟩
  | @within part inner room field a b p q hkind ha hb _ ih =>
    obtain ⟨ps, qs, hp, hq, hinner⟩ := ih
    refine ⟨_, _, ha, hb, ?_⟩
    rcases hkind with hkind | hkind
    · have hp : [p].mapM (Record.readAll (room - 1)) = some [ps] := by simp [hp]
      have hq : [q].mapM (Record.readAll (room - 1)) = some [qs] := by simp [hq]
      exact .of_parts hkind (by simp) (by simp) hp hq (by simpa using hinner)
    · refine .of_submessage hkind ?_
      have hall := hinner [] []
      rw [Message.decodeWithin, Message.decodeWithin, hp, hq]
      simpa using hall
  | @amid part room a b x y xs ys hx hy _ ih =>
    obtain ⟨rs, ss, ha, hb, hinner⟩ := ih
    refine ⟨_, _, Record.readAll_append (Record.readAll_append hx ha) hy,
      Record.readAll_append (Record.readAll_append hx hb) hy, fun before after => ?_⟩
    simpa only [List.append_assoc] using hinner (before ++ xs) (ys ++ after)

/-- A step keeps what is read. -/
theorem decodeWithin_eq {part : BlockPart} {room : Nat} {a b : ByteArray}
    (h : Recoding part room a b) :
    Message.decodeWithin (α := part.type.Carrier) room a = Message.decodeWithin room b := by
  obtain ⟨rs, ss, ha, hb, hsame⟩ := h.interchangeable
  have hall := hsame [] []
  rw [Message.decodeWithin, Message.decodeWithin, ha, hb]
  simpa using hall

/-- A block is read from other bytes as well. Where bytes are accepted as a block, so are all bytes
that come from them by any number of steps: records of different fields that change places, records
put in or left out that no field admits, numbers packed in another way, single submessages split in
parts, at any depth. What is read is the same block: its parameters, its string table, and its
groups with all their elements. -/
theorem blocks_read_alike {bytes recoded : ByteArray} {location : String} {block : BlockMessage}
    (hsteps : Relation.ReflTransGen (Recoding .block Record.maxDepth) bytes recoded)
    (hread : readMessage BlockMessage location bytes = .ok block) :
    readMessage BlockMessage location recoded = .ok block := by
  induction hsteps with
  | refl => exact hread
  | tail _ step ih =>
    have hdecode : Message.decode (α := BlockMessage) _ = Message.decode _ := step.decodeWithin_eq
    rw [readMessage, ← hdecode]
    exact ih

/-- The record of a string table with the entries "" and "a". -/
def table : ByteArray := ofOctets [0x0A, 0x05, 0x0A, 0x00, 0x0A, 0x01, 0x61]

/-- The same table in two parts. -/
def tableInParts : ByteArray :=
  ofOctets [0x0A, 0x02, 0x0A, 0x00] ++ ofOctets [0x0A, 0x03, 0x0A, 0x01, 0x61]

/-- The record of a group of one way with its two references packed. -/
def group : ByteArray := ofOctets [0x12, 0x08, 0x1A, 0x06, 0x08, 0x01, 0x42, 0x02, 0x02, 0x02]

/-- The same group with a record for each reference. -/
def groupUnpacked : ByteArray :=
  ofOctets [0x12, 0x08, 0x1A, 0x06, 0x08, 0x01, 0x40, 0x02, 0x40, 0x02]

/-- A group of a field that blocks do not have. -/
def unknown : ByteArray := ofOctets [0x4B, 0x08, 0x01, 0x4C]

/-- The numbers of the group may be stored one to a record. -/
theorem groupUnpacked_of_group : Recoding .block Record.maxDepth group groupUnpacked := by
  have hrefs : Recoding .way 98 (ofOctets [0x42, 0x02, 0x02, 0x02])
      (ofOctets [0x40, 0x02, 0x40, 0x02]) :=
    .repack (show BlockPart.field? .way 8 = some (.numbers .sint64) from rfl)
      (show _ = some [⟨8, .bytes (ofOctets [2, 2])⟩] by decide +kernel)
      (show _ = some [⟨8, .varint 2⟩, ⟨8, .varint 2⟩] by decide +kernel)
      (by decide) (by decide) (show _ = some [1, 1] by decide +kernel) (by decide +kernel)
  have hway : Recoding .way 98 (ofOctets [0x08, 0x01, 0x42, 0x02, 0x02, 0x02])
      (ofOctets [0x08, 0x01, 0x40, 0x02, 0x40, 0x02]) :=
    .amid (x := ofOctets [0x08, 0x01]) (y := .empty)
      (show _ = some [⟨1, .varint 1⟩] by decide +kernel) (Record.readAll_empty 98) hrefs
  have hgroup : Recoding .group 99 (ofOctets [0x1A, 0x06, 0x08, 0x01, 0x42, 0x02, 0x02, 0x02])
      (ofOctets [0x1A, 0x06, 0x08, 0x01, 0x40, 0x02, 0x40, 0x02]) :=
    .within (.inr (show BlockPart.field? .group 3 = some (.messages .way) from rfl))
      (by decide +kernel) (by decide +kernel) hway
  exact .within (.inr (show BlockPart.field? .block 2 = some (.messages .group) from rfl))
    (by decide +kernel) (by decide +kernel) hgroup

/-- The table may be stored in two parts. -/
theorem tableInParts_of_table : Recoding .block Record.maxDepth table tableInParts :=
  .split (show BlockPart.field? .block 1 = some (.message .stringTable) from rfl)
    (p := ofOctets [0x0A, 0x00]) (q := ofOctets [0x0A, 0x01, 0x61]) (by decide +kernel)
    (by decide +kernel) (by decide +kernel)
    (show _ = some [⟨1, .bytes (ofOctets [])⟩] by decide +kernel)
    (show _ = some [⟨1, .bytes (ofOctets [0x61])⟩] by decide +kernel)

/-- The same block is read from the table and the group, and from the group with its references
unpacked, the table in parts and a group of an unknown field. -/
theorem varied_block_reads_alike :
    ∃ block, readMessage BlockMessage "blob data" (table ++ group) = .ok block ∧
      readMessage BlockMessage "blob data" (groupUnpacked ++ tableInParts ++ unknown) =
        .ok block := by
  obtain ⟨block, hdecode⟩ : ∃ block : BlockMessage,
      Message.decode (table ++ group) = some block :=
    Option.isSome_iff_exists.mp (by decide +kernel)
  have hread : readMessage BlockMessage "blob data" (table ++ group) = .ok block := by
    rw [readMessage, hdecode]
  have htable : Record.readAll Record.maxDepth table =
      some [⟨1, .bytes (ofOctets [0x0A, 0x00, 0x0A, 0x01, 0x61])⟩] := by decide +kernel
  have hgroup : Record.readAll Record.maxDepth group =
      some [⟨2, .bytes (ofOctets [0x1A, 0x06, 0x08, 0x01, 0x42, 0x02, 0x02, 0x02])⟩] := by
    decide +kernel
  have hunknown : Record.readAll Record.maxDepth unknown =
      some [⟨9, .group (ofOctets [0x08, 0x01])⟩] := by decide +kernel
  have htableInParts : Record.readAll Record.maxDepth tableInParts =
      some [⟨1, .bytes (ofOctets [0x0A, 0x00])⟩, ⟨1, .bytes (ofOctets [0x0A, 0x01, 0x61])⟩] := by
    decide +kernel
  have hempty := Record.readAll_empty Record.maxDepth
  have hswapped : Recoding .block Record.maxDepth (table ++ group) (group ++ table) :=
    .swap htable hgroup (by decide)
  have hunpacked : Recoding .block Record.maxDepth (group ++ table) (groupUnpacked ++ table) :=
    .amid (x := .empty) hempty htable groupUnpacked_of_group
  have hgroupUnpacked : Record.readAll Record.maxDepth groupUnpacked =
      some [⟨2, .bytes (ofOctets [0x1A, 0x06, 0x08, 0x01, 0x40, 0x02, 0x40, 0x02])⟩] := by
    decide +kernel
  have hparted : Recoding .block Record.maxDepth (groupUnpacked ++ table)
      (groupUnpacked ++ tableInParts) :=
    .amid (y := .empty) hgroupUnpacked hempty tableInParts_of_table
  have hinserted : Recoding .block Record.maxDepth (groupUnpacked ++ tableInParts)
      (groupUnpacked ++ tableInParts ++ unknown) :=
    .amid (Record.readAll_append hgroupUnpacked htableInParts) hempty
      (.insert hunknown fun ⟨_, hkind, _⟩ => nomatch hkind)
  exact ⟨block, hread, blocks_read_alike
    (.tail (.tail (.tail (.single hswapped) hunpacked) hparted) hinserted) hread⟩

end Recoding

end MapArchive
