import MapArchive.Proofs.Wire.Varint
import MapArchive.Wire.Record

/-!
# Reading what was written: records

A payload is sound if it can stand in a message: what has a fixed length has it, no byte string is
too long, and a group is the normal form of sound records, with room for them one level deeper.
Sound records are read back from what they are written as, one by one and all together, and
whatever is read is sound. So the sound records are just those that a message can consist of.
-/

namespace MapArchive

/-- Payloads that can stand where there is room for so many nested groups. -/
inductive Payload.Sound : Nat → Payload → Prop
  /-- Every number can be stored. -/
  | varint {room : Nat} (value : UInt64) : Sound room (.varint value)
  /-- Eight bytes are eight bytes. -/
  | fixed64 {room : Nat} {bytes : ByteArray} (hsize : bytes.size = 8) : Sound room (.fixed64 bytes)
  /-- A byte string is not too long. -/
  | bytes {room : Nat} {content : ByteArray} (hsize : content.size ≤ Record.maxLength) :
    Sound room (.bytes content)
  /-- A group holds sorted records. Their fields may have any number that a tag can tell. -/
  | group {room : Nat} {records : List Record} (hsorted : Record.sort records = records)
    (hfield : ∀ r ∈ records, r.field < 2 ^ 29) (hsound : ∀ r ∈ records, Sound room r.payload) :
    Sound (room + 1) (.group (Record.writeAll records))
  /-- Four bytes are four bytes. -/
  | fixed32 {room : Nat} {bytes : ByteArray} (hsize : bytes.size = 4) : Sound room (.fixed32 bytes)

/-- Records that can stand in a message, where there is room for so many nested groups. -/
structure Record.Sound (room : Nat) (r : Record) : Prop where
  /-- Fields are numbered from one. -/
  field_pos : 0 < r.field
  /-- A tag can tell the number of the field. -/
  field_lt : r.field < 2 ^ 29
  /-- The payload can stand there. -/
  payload : r.payload.Sound room

/-- The kind of a payload has three bits. -/
theorem Payload.kind_lt (p : Payload) : p.kind < 8 := by
  cases p <;> simp only [kind] <;> omega

/-- The tag that ends a group is the tag of no payload. -/
theorem Payload.kind_ne_four (p : Payload) : p.kind ≠ 4 := by
  cases p <;> simp only [kind] <;> omega

namespace Record

/-! ## From records to bytes and back -/

/-- A tag is read back. -/
theorem readTag_writeTag {field kind : Nat} {c : Cursor} {more : List UInt8}
    (hfield : field < 2 ^ 29) (hkind : kind < 8) (h : c.rest = writeTag field kind ++ more) :
    ∃ d, readTag c = some (⟨field, kind⟩, d) ∧ d.rest = more := by
  have hshort : 8 * field + kind < 2 ^ 35 := by omega
  obtain ⟨d, hread, hmore⟩ := Varint.readShort_writeNat hshort h
  have hlt : 8 * field + kind < 0x100000000 := by omega
  have hquotient : (8 * field + kind) / 8 = field := by omega
  have hremainder : (8 * field + kind) % 8 = kind := by omega
  refine ⟨d, ?_, hmore⟩
  rw [readTag, hread]
  simp only [if_pos hlt, hquotient, hremainder]

/-- A byte string with its length in front is read back. -/
theorem readBytes_write {content : ByteArray} {c : Cursor} {more : List UInt8}
    (hsize : content.size ≤ maxLength)
    (h : c.rest = Varint.writeNat content.size ++ (octets content ++ more)) :
    ∃ d, readBytes c = some (content, d) ∧ d.rest = more := by
  have hshort : content.size < 2 ^ 35 := by simp only [maxLength] at hsize; omega
  obtain ⟨d, hread, hrest⟩ := Varint.readShort_writeNat hshort h
  obtain ⟨e, htake, hmore⟩ := Cursor.take?_octets hrest
  refine ⟨e, ?_, hmore⟩
  rw [readBytes, hread]
  simp only [if_pos hsize, htake]

/-- A record whose payload is no group is a tag and bytes from which the payload is read back. -/
theorem exists_readPlain (field : Nat) {room : Nat} {p : Payload} (hp : p.Sound room)
    (hgroup : p.kind ≠ 3) :
    ∃ body, write ⟨field, p⟩ = writeTag field p.kind ++ body ∧
      ∀ {c : Cursor} {more : List UInt8}, c.rest = body ++ more →
        ∃ d, readPlain p.kind c = some (p, d) ∧ d.rest = more := by
  cases hp with
  | varint value =>
    refine ⟨Varint.write value, rfl, fun h => ?_⟩
    obtain ⟨d, hread, hmore⟩ := Varint.read_write h
    exact ⟨d, by simp only [Payload.kind, readPlain, hread, Option.map_some], hmore⟩
  | @fixed64 _ bytes hsize =>
    refine ⟨octets bytes, rfl, fun h => ?_⟩
    obtain ⟨d, htake, hmore⟩ := Cursor.take?_octets h
    rw [hsize] at htake
    exact ⟨d, by simp only [Payload.kind, readPlain, htake, Option.map_some], hmore⟩
  | @bytes _ content hsize =>
    refine ⟨Varint.writeNat content.size ++ octets content, by simp [write, Payload.kind],
      fun h => ?_⟩
    rw [List.append_assoc] at h
    obtain ⟨d, hread, hmore⟩ := readBytes_write hsize h
    exact ⟨d, by simp only [Payload.kind, readPlain, hread, Option.map_some], hmore⟩
  | group => exact absurd rfl hgroup
  | @fixed32 _ bytes hsize =>
    refine ⟨octets bytes, rfl, fun h => ?_⟩
    obtain ⟨d, htake, hmore⟩ := Cursor.take?_octets h
    rw [hsize] at htake
    exact ⟨d, by simp only [Payload.kind, readPlain, htake, Option.map_some], hmore⟩

/-! ### Groups -/

/-- Inside a group a record that is no group is put to those before it. -/
theorem readGroup_of_plain {room : Nat} {innermost : OpenGroup} {outer : List OpenGroup}
    {c d e : Cursor} {tag : Tag} {p : Payload} (htag : readTag c = some (tag, d))
    (hopen : tag.kind ≠ 3) (hclose : tag.kind ≠ 4)
    (hplain : readPlain tag.kind d = some (p, e)) :
    readGroup room innermost outer c = readGroup room (innermost.push ⟨tag.field, p⟩) outer e := by
  rw [readGroup]
  split
  case h_1 hnone => rw [htag] at hnone; cases hnone
  case h_2 tag' d' hsome =>
    rw [htag] at hsome
    cases hsome
    rw [if_neg hopen, if_neg hclose]
    split
    case h_1 hnone => rw [hplain] at hnone; cases hnone
    case h_2 p' e' hfound =>
      rw [hplain] at hfound
      cases hfound
      rfl

/-- Inside a group another one starts where there is room for it. -/
theorem readGroup_of_open {room field : Nat} {innermost : OpenGroup} {outer : List OpenGroup}
    {c d : Cursor} (htag : readTag c = some (⟨field, 3⟩, d)) (hroom : outer.length + 1 < room) :
    readGroup room innermost outer c = readGroup room ⟨field, #[]⟩ (innermost :: outer) d := by
  rw [readGroup]
  split
  case h_1 hnone => rw [htag] at hnone; cases hnone
  case h_2 tag' d' hsome =>
    rw [htag] at hsome
    cases hsome
    rw [if_pos rfl, if_pos hroom]

/-- The end of a group puts it to the records of the one around it. -/
theorem readGroup_of_close {room : Nat} {innermost next : OpenGroup} {outer : List OpenGroup}
    {c d : Cursor} (htag : readTag c = some (⟨innermost.field, 4⟩, d)) :
    readGroup room innermost (next :: outer) c =
      readGroup room (next.push innermost.close) outer d := by
  rw [readGroup]
  split
  case h_1 hnone => rw [htag] at hnone; cases hnone
  case h_2 tag' d' hsome =>
    rw [htag] at hsome
    cases hsome
    rw [if_neg (by simp), if_pos rfl, if_pos rfl]

/-- The end of the outermost group ends the reading. -/
theorem readGroup_of_last {room : Nat} {innermost : OpenGroup} {c d : Cursor}
    (htag : readTag c = some (⟨innermost.field, 4⟩, d)) :
    readGroup room innermost [] c = some (innermost.close, d) := by
  rw [readGroup]
  split
  case h_1 hnone => rw [htag] at hnone; cases hnone
  case h_2 tag' d' hsome =>
    rw [htag] at hsome
    cases hsome
    rw [if_neg (by simp), if_pos rfl, if_pos rfl]

/-- A payload is read within groups if, wherever there is room for it, a record with it is put to
the records of the innermost group. -/
def IsReadInGroups (level : Nat) (p : Payload) : Prop :=
  ∀ {field room : Nat} (innermost : OpenGroup) (outer : List OpenGroup) {c : Cursor}
    {more : List UInt8}, field < 2 ^ 29 → level + outer.length + 1 ≤ room →
      c.rest = write ⟨field, p⟩ ++ more →
        ∃ d, readGroup room innermost outer c = readGroup room (innermost.push ⟨field, p⟩) outer d ∧
          d.rest = more

/-- Records that are read within groups one by one are read all together. -/
theorem readGroup_of_records {level room : Nat} {records : List Record}
    (hfield : ∀ r ∈ records, r.field < 2 ^ 29)
    (hread : ∀ r ∈ records, IsReadInGroups level r.payload) (field : Nat) (seen : Array Record)
    (outer : List OpenGroup) (hroom : level + outer.length + 1 ≤ room) {c : Cursor}
    {more : List UInt8} (h : c.rest = records.flatMap write ++ more) :
    ∃ d, readGroup room ⟨field, seen⟩ outer c =
        readGroup room ⟨field, seen ++ records.toArray⟩ outer d ∧ d.rest = more := by
  induction records generalizing seen c with
  | nil => exact ⟨c, by simp, by simpa using h⟩
  | cons r records ih =>
    rw [List.flatMap_cons, List.append_assoc] at h
    obtain ⟨d, hfirst, hrest⟩ :=
      hread r List.mem_cons_self ⟨field, seen⟩ outer (hfield r List.mem_cons_self) hroom h
    obtain ⟨e, hlater, hmore⟩ := ih (fun s hs => hfield s (List.mem_cons_of_mem r hs))
      (fun s hs => hread s (List.mem_cons_of_mem r hs)) (seen.push r) hrest
    refine ⟨e, ?_, hmore⟩
    rw [hfirst, OpenGroup.push, hlater]
    simp

/-- Sound payloads other than groups are read within groups. -/
theorem isReadInGroups_of_plain {level : Nat} {p : Payload} (hp : p.Sound level)
    (hgroup : p.kind ≠ 3) : IsReadInGroups level p := by
  intro field room innermost outer c more hlt _ h
  obtain ⟨body, hwrite, hread⟩ := exists_readPlain field hp hgroup
  rw [hwrite, List.append_assoc] at h
  obtain ⟨d, htag, hd⟩ := readTag_writeTag hlt p.kind_lt h
  obtain ⟨e, hplain, he⟩ := hread hd
  exact ⟨e, readGroup_of_plain htag hgroup p.kind_ne_four hplain, he⟩

/-- Sound payloads are read within groups: by induction on the nesting of groups. -/
theorem isReadInGroups_of_sound {level : Nat} {p : Payload} (hp : p.Sound level) :
    IsReadInGroups level p := by
  induction hp with
  | @group level records hsorted hfield hsound ih =>
    intro field room innermost outer c more hlt hroom h
    have hwrite : write ⟨field, .group (writeAll records)⟩ ++ more =
        writeTag field 3 ++ (records.flatMap write ++ (writeTag field 4 ++ more)) := by
      simp [write, writeAll]
    rw [hwrite] at h
    obtain ⟨d, hopen, hd⟩ := readTag_writeTag hlt (by decide) h
    obtain ⟨e, hinner, he⟩ := readGroup_of_records hfield ih field #[] (innermost :: outer)
      (show level + (innermost :: outer).length + 1 ≤ room by rw [List.length_cons]; omega) hd
    obtain ⟨f, hclose, hf⟩ := readTag_writeTag hlt (by decide) he
    refine ⟨f, ?_, hf⟩
    rw [readGroup_of_open hopen (by omega), hinner, readGroup_of_close hclose]
    simp only [OpenGroup.close, groupOf, Array.empty_append, hsorted]
  | varint value => exact isReadInGroups_of_plain (.varint value) (by simp [Payload.kind])
  | fixed64 hsize => exact isReadInGroups_of_plain (.fixed64 hsize) (by simp [Payload.kind])
  | bytes hsize => exact isReadInGroups_of_plain (.bytes hsize) (by simp [Payload.kind])
  | fixed32 hsize => exact isReadInGroups_of_plain (.fixed32 hsize) (by simp [Payload.kind])

/-- The records of a sound group are read up to its end. -/
theorem readGroup_writeAll {field level : Nat} {records : List Record}
    (hlt : field < 2 ^ 29) (hsorted : sort records = records)
    (hfield : ∀ r ∈ records, r.field < 2 ^ 29) (hsound : ∀ r ∈ records, r.payload.Sound level)
    {c : Cursor} {more : List UInt8}
    (h : c.rest = octets (writeAll records) ++ (writeTag field 4 ++ more)) :
    ∃ d, readGroup (level + 1) ⟨field, #[]⟩ [] c = some (⟨field, .group (writeAll records)⟩, d) ∧
      d.rest = more := by
  rw [writeAll, octets_ofOctets] at h
  obtain ⟨d, hinner, hd⟩ := readGroup_of_records hfield
    (fun r hr => isReadInGroups_of_sound (hsound r hr)) field #[] [] (Nat.le_refl (level + 1)) h
  obtain ⟨e, hlast, he⟩ := readTag_writeTag hlt (by decide) hd
  refine ⟨e, ?_, he⟩
  rw [hinner, readGroup_of_last hlast]
  simp only [OpenGroup.close, groupOf, Array.empty_append, hsorted]

/-! ### Messages -/

/-- A sound record is read back. -/
theorem read_write {room : Nat} {r : Record} (hr : r.Sound room) {c : Cursor} {more : List UInt8}
    (h : c.rest = r.write ++ more) : ∃ d, read room c = some (r, d) ∧ d.rest = more := by
  obtain ⟨field, p⟩ := r
  obtain ⟨hpos, hlt, hp⟩ := hr
  have hfield : field ≠ 0 := Nat.ne_of_gt hpos
  by_cases hgroup : p.kind = 3
  · cases hp with
    | @group level records hsorted hfields hsound =>
      have hwrite : write ⟨field, .group (writeAll records)⟩ ++ more =
          writeTag field 3 ++ (octets (writeAll records) ++ (writeTag field 4 ++ more)) := by
        simp [write]
      rw [hwrite] at h
      obtain ⟨d, htag, hd⟩ := readTag_writeTag hlt (by decide) h
      obtain ⟨e, hread, he⟩ := readGroup_writeAll hlt hsorted hfields hsound hd
      refine ⟨e, ?_, he⟩
      rw [read, htag]
      simp only [if_neg hfield, if_true, if_pos (Nat.succ_pos level), hread]
    | _ => cases hgroup
  · obtain ⟨body, hwrite, hbody⟩ := exists_readPlain field hp hgroup
    rw [hwrite, List.append_assoc] at h
    obtain ⟨d, htag, hd⟩ := readTag_writeTag hlt p.kind_lt h
    obtain ⟨e, hplain, he⟩ := hbody hd
    refine ⟨e, ?_, he⟩
    rw [read, htag]
    simp only [if_neg hfield, if_neg hgroup, hplain]

/-- Sound records are read back to the end. -/
theorem readOnto_write {room : Nat} {records : List Record} (hrecords : ∀ r ∈ records, r.Sound room)
    (seen : Array Record) {c : Cursor} (h : c.rest = records.flatMap write) :
    readOnto room seen c = some (seen.toList ++ records) := by
  induction records generalizing seen c with
  | nil =>
    have hremaining : c.remaining = 0 := by rw [← Cursor.length_rest, h]; rfl
    rw [readOnto, if_pos hremaining, List.append_nil]
  | cons r records ih =>
    rw [List.flatMap_cons] at h
    obtain ⟨d, hread, hd⟩ := read_write (hrecords r List.mem_cons_self) h
    have hlt := remaining_of_read hread
    rw [readOnto, if_neg (by omega)]
    split
    case h_1 hnone => rw [hread] at hnone; cases hnone
    case h_2 r' d' hsome =>
      rw [hread] at hsome
      cases hsome
      rw [ih (fun s hs => hrecords s (List.mem_cons_of_mem r hs)) (seen.push r) hd]
      simp

/-- The records of a message are read back. -/
theorem readAll_writeAll {room : Nat} {records : List Record}
    (hrecords : ∀ r ∈ records, r.Sound room) :
    readAll room (writeAll records) = some records := by
  have hread := readOnto_write hrecords #[] (c := .atStart (writeAll records))
    (by rw [Cursor.rest_atStart, writeAll, octets_ofOctets])
  simpa only [readAll, List.nil_append] using hread

/-! ## Whatever is read is sound -/

/-- Sorting sorted records changes nothing. -/
theorem sort_sort (records : List Record) : sort (sort records) = sort records := by
  refine List.mergeSort_of_pairwise (List.pairwise_mergeSort ?_ ?_ records)
  · intro a b c hab hbc
    rw [decide_eq_true_eq] at hab hbc ⊢
    exact Nat.le_trans hab hbc
  · intro a b
    rw [Bool.or_eq_true, decide_eq_true_eq, decide_eq_true_eq]
    exact Nat.le_total _ _

/-- The number of a field that was read fits a tag. -/
theorem field_of_readTag {c d : Cursor} {tag : Tag} (h : readTag c = some (tag, d)) :
    tag.field < 2 ^ 29 := by
  unfold readTag at h
  split at h
  case h_1 => cases h
  case h_2 n e hread =>
    split at h
    case isTrue hlt =>
      cases h
      dsimp only
      omega
    case isFalse => cases h

/-- A byte string that was read is not too long. -/
theorem size_of_readBytes {c d : Cursor} {content : ByteArray}
    (h : readBytes c = some (content, d)) : content.size ≤ maxLength := by
  unfold readBytes at h
  split at h
  case h_1 => cases h
  case h_2 n e hread =>
    split at h
    case isTrue hle =>
      rw [Cursor.size_of_take? h]
      exact hle
    case isFalse => cases h

/-- What was read as a payload that is no group is sound. -/
theorem sound_of_readPlain {kind room : Nat} {c d : Cursor} {p : Payload}
    (h : readPlain kind c = some (p, d)) : p.Sound room := by
  unfold readPlain at h
  split at h
  case h_5 => cases h
  all_goals
    simp only [Option.map_eq_some_iff, Prod.exists, Prod.mk.injEq] at h
    obtain ⟨x, e, hx, rfl, rfl⟩ := h
  case h_1 => exact .varint x
  case h_2 => exact .fixed64 (Cursor.size_of_take? hx)
  case h_3 => exact .bytes (size_of_readBytes hx)
  case h_4 => exact .fixed32 (Cursor.size_of_take? hx)

/-- A group whose end has not been reached is sound if its records so far are. -/
structure OpenGroup.Sound (level : Nat) (group : OpenGroup) : Prop where
  /-- A tag can tell the number of the field. -/
  field : group.field < 2 ^ 29
  /-- A tag can tell the fields of the records. -/
  fields : ∀ r ∈ group.seen.toList, r.field < 2 ^ 29
  /-- The records can stand in the group. -/
  payloads : ∀ r ∈ group.seen.toList, r.payload.Sound level

/-- A group that was just opened is sound. -/
theorem OpenGroup.sound_empty {level field : Nat} (hfield : field < 2 ^ 29) :
    OpenGroup.Sound level ⟨field, #[]⟩ := by
  refine ⟨hfield, ?_, ?_⟩ <;> simp

/-- A group stays sound with a sound record put to it. -/
theorem OpenGroup.Sound.push {level : Nat} {group : OpenGroup} (h : group.Sound level) {r : Record}
    (hfield : r.field < 2 ^ 29) (hr : r.payload.Sound level) : (group.push r).Sound level := by
  have hmem : ∀ s, s ∈ (group.push r).seen.toList → s ∈ group.seen.toList ∨ s = r := by
    simp [OpenGroup.push]
  refine ⟨h.field, fun s hs => ?_, fun s hs => ?_⟩
  · rcases hmem s hs with hold | rfl
    · exact h.fields s hold
    · exact hfield
  · rcases hmem s hs with hold | rfl
    · exact h.payloads s hold
    · exact hr

/-- A sound group is a sound payload once its end has been reached. -/
theorem OpenGroup.Sound.close {level : Nat} {group : OpenGroup} (h : group.Sound level) :
    group.close.payload.Sound (level + 1) := by
  refine .group (sort_sort group.seen.toList) (fun r hr => ?_) (fun r hr => ?_)
  · exact h.fields r (List.mem_mergeSort.1 hr)
  · exact h.payloads r (List.mem_mergeSort.1 hr)

/-- Groups around each other, the innermost first, are sound if each of them is with what is left
of the room. -/
def AreSound (room : Nat) : List OpenGroup → Prop
  | [] => True
  | group :: outer => group.Sound (room - (outer.length + 1)) ∧ AreSound room outer

/-- A group that was read is sound. The invariant is that of all groups around each other. -/
theorem sound_of_readGroup {room : Nat} {innermost : OpenGroup} {outer : List OpenGroup}
    {c d : Cursor} {r : Record} (h : readGroup room innermost outer c = some (r, d))
    (hroom : outer.length + 1 ≤ room) (hsound : AreSound room (innermost :: outer)) :
    r.payload.Sound room := by
  fun_induction readGroup room innermost outer c with
  | case1 => cases h
  | case2 innermost outer c tag d htag _ hopen hlt ih =>
    refine ih h (by rw [List.length_cons]; omega) ⟨?_, hsound⟩
    exact OpenGroup.sound_empty (field_of_readTag htag)
  | case3 => cases h
  | case4 innermost c tag d htag _ _ hclose hfield =>
    cases h
    have hclosed := hsound.1.close
    rwa [List.length_nil, Nat.zero_add, Nat.sub_add_cancel (by simpa using hroom)] at hclosed
  | case5 innermost c tag d htag _ _ hclose hfield next outer ih =>
    obtain ⟨hinner, hnext, houter⟩ := hsound
    rw [List.length_cons] at hroom hinner
    have hclosed := hinner.close
    rw [show room - (outer.length + 1 + 1) + 1 = room - (outer.length + 1) by omega] at hclosed
    exact ih h (by omega) ⟨hnext.push hinner.field hclosed, houter⟩
  | case6 => cases h
  | case7 => cases h
  | case8 innermost outer c tag d htag _ _ _ payload e hplain _ ih =>
    obtain ⟨hinner, houter⟩ := hsound
    exact ih h hroom ⟨hinner.push (field_of_readTag htag) (sound_of_readPlain hplain), houter⟩

/-- A group that was read has the field of the outermost group. -/
theorem field_of_readGroup {room : Nat} {innermost : OpenGroup} {outer : List OpenGroup}
    {c d : Cursor} {r : Record} (h : readGroup room innermost outer c = some (r, d)) :
    r.field = (outer.getLast?.getD innermost).field := by
  have hpush (group : OpenGroup) (r : Record) (outer : List OpenGroup) :
      (outer.getLast?.getD (group.push r)).field = (outer.getLast?.getD group).field := by
    cases outer.getLast? <;> rfl
  fun_induction readGroup room innermost outer c with
  | case1 => cases h
  | case2 innermost outer c tag d htag _ hopen hlt ih =>
    rw [ih h, List.getLast?_cons, Option.getD_some]
  | case3 => cases h
  | case4 innermost => cases h; rfl
  | case5 innermost c tag d htag _ _ hclose hfield next outer ih =>
    rw [ih h, hpush, List.getLast?_cons, Option.getD_some]
  | case6 => cases h
  | case7 => cases h
  | case8 innermost outer c tag d htag _ _ _ payload e hplain _ ih => rw [ih h, hpush]

/-- A record that was read is sound. -/
theorem sound_of_read {room : Nat} {c d : Cursor} {r : Record} (h : read room c = some (r, d)) :
    r.Sound room := by
  unfold read at h
  split at h
  case h_1 => cases h
  case h_2 tag e htag =>
    have hlt := field_of_readTag htag
    split at h
    case isTrue => cases h
    case isFalse hzero =>
      split at h
      case isTrue =>
        split at h
        case isTrue hroom =>
          have hempty : AreSound room [⟨tag.field, #[]⟩] := ⟨OpenGroup.sound_empty hlt, trivial⟩
          have hfield : r.field = tag.field := field_of_readGroup h
          refine ⟨?_, ?_, sound_of_readGroup h hroom hempty⟩
          · rw [hfield]
            exact Nat.pos_of_ne_zero hzero
          · rw [hfield]
            exact hlt
        case isFalse => cases h
      case isFalse =>
        split at h
        case h_1 => cases h
        case h_2 payload f hplain =>
          cases h
          exact ⟨Nat.pos_of_ne_zero hzero, hlt, sound_of_readPlain hplain⟩

/-- Records that were read to the end are sound, if those seen before are. -/
theorem sound_of_readOnto {room : Nat} {seen : Array Record} {c : Cursor} {records : List Record}
    (h : readOnto room seen c = some records) (hseen : ∀ r ∈ seen.toList, r.Sound room) :
    ∀ r ∈ records, r.Sound room := by
  fun_induction readOnto room seen c with
  | case1 => cases h; exact hseen
  | case2 => cases h
  | case3 seen c _ r d hread _ ih =>
    refine ih h (fun s hs => ?_)
    rw [Array.toList_push, List.mem_append, List.mem_singleton] at hs
    rcases hs with hold | rfl
    · exact hseen s hold
    · exact sound_of_read hread

/-- The records of a message are sound. -/
theorem sound_of_readAll {room : Nat} {bytes : ByteArray} {records : List Record}
    (h : readAll room bytes = some records) : ∀ r ∈ records, r.Sound room :=
  sound_of_readOnto h (by simp)

end Record

end MapArchive
