import Mathlib.Algebra.Ring.Nat
import MapArchive.Proofs.Wire.Column
import MapArchive.Proofs.Wire.Record

/-!
# How much records can hold

Every number that is read uses up a byte at least, and a submessage that is given in several records
has no more bytes than they have together. So a message holds no more numbers than it has bytes. The
weight of a record stands for the bytes of its payload; that of all records of a message is no
greater than the size of the message.
-/

namespace MapArchive

/-- A payload of so many bytes at least. Payloads that hold no numbers count for nothing. -/
def Payload.weight : Payload → Nat
  | .varint _ => 1
  | .bytes content => content.size
  | .fixed64 _ | .group _ | .fixed32 _ => 0

/-- At the start all bytes remain. -/
@[simp] theorem Cursor.remaining_atStart (bytes : ByteArray) :
    (Cursor.atStart bytes).remaining = bytes.size := by
  rw [← Cursor.length_rest, Cursor.rest_atStart, length_octets]

namespace Record

/-- The weight of all payloads. -/
def weights (records : List Record) : Nat := (records.map (·.payload.weight)).sum

/-- An empty list weighs nothing. -/
@[simp] theorem weights_nil : weights [] = 0 := rfl

/-- The first record adds its weight. -/
@[simp] theorem weights_cons (r : Record) (records : List Record) :
    weights (r :: records) = r.payload.weight + weights records := rfl

/-- Records in two lists weigh as much as both. -/
@[simp] theorem weights_append (a b : List Record) : weights (a ++ b) = weights a + weights b := by
  simp [weights]

/-- A payload uses up its weight at least. -/
theorem weight_of_readPlain {kind : Nat} {c d : Cursor} {p : Payload}
    (h : readPlain kind c = some (p, d)) : p.weight + d.remaining ≤ c.remaining := by
  unfold readPlain at h
  split at h
  case h_5 => cases h
  all_goals
    simp only [Option.map_eq_some_iff, Prod.exists, Prod.mk.injEq] at h
    obtain ⟨x, e, hx, rfl, rfl⟩ := h
  case h_1 =>
    have := Varint.remaining_of_read hx
    simp only [Payload.weight]
    omega
  case h_3 =>
    unfold readBytes at hx
    split at hx
    case h_1 => cases hx
    case h_2 n f hread =>
      split at hx
      case isTrue =>
        have hlength := Varint.remaining_of_readShort hread
        have hcontent := Cursor.remaining_of_take? hx
        rw [← Cursor.size_of_take? hx] at hcontent
        simp only [Payload.weight]
        omega
      case isFalse => cases hx
  all_goals
    have := Cursor.remaining_of_take? hx
    simp only [Payload.weight]
    omega

/-- A group weighs nothing. -/
theorem weight_of_readGroup {room : Nat} {innermost : OpenGroup} {outer : List OpenGroup}
    {c d : Cursor} {r : Record} (h : readGroup room innermost outer c = some (r, d)) :
    r.payload.weight = 0 := by
  fun_induction readGroup room innermost outer c with
  | case1 => cases h
  | case2 _ _ _ _ _ _ _ _ _ ih => exact ih h
  | case3 => cases h
  | case4 => cases h; rfl
  | case5 _ _ _ _ _ _ _ _ _ _ _ ih => exact ih h
  | case6 => cases h
  | case7 => cases h
  | case8 _ _ _ _ _ _ _ _ _ _ _ _ _ ih => exact ih h

/-- A record uses up the weight of its payload at least. -/
theorem weight_of_read {room : Nat} {c d : Cursor} {r : Record} (h : read room c = some (r, d)) :
    r.payload.weight + d.remaining ≤ c.remaining := by
  have hlt := remaining_of_read h
  unfold read at h
  split at h
  case h_1 => cases h
  case h_2 tag e htag =>
    have htagged := remaining_of_readTag htag
    split at h
    · cases h
    split at h
    · split at h
      · rw [weight_of_readGroup h]
        omega
      · cases h
    · split at h
      case h_1 => cases h
      case h_2 payload f hplain =>
        cases h
        have := weight_of_readPlain hplain
        dsimp only
        omega

/-- The records read up to the end weigh no more than the bytes that remained, apart from those
seen. -/
theorem weights_of_readOnto {room : Nat} {seen : Array Record} {c : Cursor} {records : List Record}
    (h : readOnto room seen c = some records) :
    weights records ≤ weights seen.toList + c.remaining := by
  fun_induction readOnto room seen c with
  | case1 => cases h; omega
  | case2 => cases h
  | case3 seen c _ r d hread _ ih =>
    have hrest := ih h
    have hrecord := weight_of_read hread
    rw [Array.toList_push, weights_append, weights_cons, weights_nil] at hrest
    omega

/-- The records of a message weigh no more than it has bytes. -/
theorem weights_of_readAll {room : Nat} {bytes : ByteArray} {records : List Record}
    (h : readAll room bytes = some records) : weights records ≤ bytes.size := by
  have hle := weights_of_readOnto h
  simpa using hle

end Record

namespace Field

open Record (weights)

/-- Packed numbers are no more than the bytes they are packed in. -/
theorem size_of_unpackOnto {seen found : Array UInt64} {c : Cursor}
    (h : unpackOnto seen c = some found) : found.size ≤ seen.size + c.remaining := by
  fun_induction unpackOnto seen c with
  | case1 => cases h; omega
  | case2 => cases h
  | case3 seen c _ v d hread _ ih =>
    have hrest := ih h
    have hlt := Varint.remaining_of_read hread
    rw [Array.size_push] at hrest
    omega

/-- A record holds no more numbers than its weight. -/
theorem length_items {field : Nat} {r : Record} {found : List UInt64}
    (h : items field r = some found) : found.length ≤ r.payload.weight := by
  obtain ⟨f, payload⟩ := r
  unfold items at h
  split at h
  case isFalse => cases h; simp
  case isTrue =>
    cases payload with
    | bytes content =>
      obtain ⟨words, hwords, rfl⟩ := Option.map_eq_some_iff.mp h
      have hle := size_of_unpackOnto hwords
      simpa [Payload.weight] using hle
    | varint | fixed64 | group | fixed32 => cases h; simp [Payload.weight]

/-- A column has no more entries than the weight of the records. -/
theorem length_numbers {α : Type} {kind : Scalar α} {field : Nat} {records : List Record}
    {found : List α} (h : numbers kind field records = some found) :
    found.length ≤ weights records := by
  rw [numbers_eq_items] at h
  obtain ⟨parts, hparts, rfl⟩ := Option.map_eq_some_iff.mp h
  rw [List.length_map]
  clear h
  induction records generalizing parts with
  | nil => cases hparts; simp
  | cons r records ih =>
    rw [List.mapM_cons] at hparts
    obtain ⟨here, hhere, hrest⟩ := Option.bind_eq_some_iff.mp hparts
    obtain ⟨later, hlater, hcons⟩ := Option.bind_eq_some_iff.mp hrest
    cases hcons
    have hle := length_items hhere
    have hrest := ih later hlater
    rw [List.flatten_cons, List.length_append, Record.weights_cons]
    omega

/-- The byte strings stored for a field are no longer than the weight of the records. -/
theorem size_contents (field : Nat) (records : List Record) :
    ((contents field records).map ByteArray.size).sum ≤ weights records := by
  unfold contents
  induction records with
  | nil => simp
  | cons r records ih =>
    obtain ⟨f, payload⟩ := r
    rw [List.filterMap_cons, Record.weights_cons]
    split
    case h_1 => omega
    case h_2 content hcontent =>
      have hsize : content.size = payload.weight := by
        cases payload <;> grind [Payload.weight]
      rw [List.map_cons, List.sum_cons, hsize]
      exact Nat.add_le_add_left ih payload.weight

/-- The records of all parts of a submessage weigh no more than those that the parts stand in. -/
theorem weights_of_parts {room : Nat} {parts : List ByteArray} {found : List (List Record)}
    (h : parts.mapM (Record.readAll room) = some found) :
    weights found.flatten ≤ (parts.map ByteArray.size).sum := by
  induction parts generalizing found with
  | nil => cases h; simp
  | cons part parts ih =>
    rw [List.mapM_cons] at h
    obtain ⟨here, hhere, hrest⟩ := Option.bind_eq_some_iff.mp h
    obtain ⟨later, hlater, hcons⟩ := Option.bind_eq_some_iff.mp hrest
    cases hcons
    have hle := Record.weights_of_readAll hhere
    have hrest := ih hlater
    rw [List.flatten_cons, Record.weights_append, List.map_cons, List.sum_cons]
    omega

/-- The records that make up a single submessage. -/
theorem exists_of_message? {α : Type} [Message α] {field room : Nat} {records : List Record}
    {message : α} (h : message? α field room records = some (some message)) :
    ∃ inner, Message.ofRecords (room - 1) inner = some message ∧
      weights inner ≤ weights records := by
  unfold message? at h
  split at h
  case h_1 => cases h
  case h_2 parts hparts hne =>
    obtain ⟨found, hfound, hrest⟩ := Option.bind_eq_some_iff.mp h
    obtain ⟨read, hread, hsome⟩ := Option.bind_eq_some_iff.mp hrest
    cases hsome
    exact ⟨found.flatten, hread,
      Nat.le_trans (weights_of_parts hfound) (size_contents field records)⟩

/-- What a function that may fail gives for the entries of a list, it gives for one of them each. -/
theorem exists_of_mem_mapM {α β : Type} {f : α → Option β} {list : List α} {found : List β}
    (h : list.mapM f = some found) {b : β} (hmem : b ∈ found) : ∃ a ∈ list, f a = some b := by
  induction list generalizing found with
  | nil => cases h; cases hmem
  | cons a list ih =>
    rw [List.mapM_cons] at h
    obtain ⟨first, hfirst, hrest⟩ := Option.bind_eq_some_iff.mp h
    obtain ⟨later, hlater, hcons⟩ := Option.bind_eq_some_iff.mp hrest
    cases hcons
    rcases List.mem_cons.mp hmem with rfl | hmem
    · exact ⟨a, List.mem_cons_self, hfirst⟩
    · obtain ⟨b', hb', hf⟩ := ih hlater hmem
      exact ⟨b', List.mem_cons_of_mem a hb', hf⟩

/-- The records that make up one of several submessages. -/
theorem exists_of_messages {α : Type} [Message α] {field room : Nat} {records : List Record}
    {found : List α} (h : messages α field room records = some found) {message : α}
    (hmem : message ∈ found) :
    ∃ content ∈ contents field records, ∃ inner,
      Message.ofRecords (room - 1) inner = some message ∧ weights inner ≤ content.size := by
  obtain ⟨content, hcontent, hdecode⟩ := exists_of_mem_mapM h hmem
  obtain ⟨inner, hinner, hrecords⟩ := Option.bind_eq_some_iff.mp hdecode
  exact ⟨content, hcontent, inner, hrecords, Record.weights_of_readAll hinner⟩

end Field

end MapArchive
