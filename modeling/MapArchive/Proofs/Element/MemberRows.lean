import MapArchive.Block.ElementWalk
import MapArchive.Proofs.Block.StringTable
import MapArchive.Proofs.Element.Members
import MapArchive.Proofs.RunningSum.Differences
import MapArchive.Proofs.Walk.InStep

/-!
# Members as rows of columns

Each member of a relation is a row of its three columns, which may be of any lengths. It makes no
difference whether an entry is taken off all columns at once, or off one after the other, where a
difference is summed up that no member is made of. The role of a member is looked up when it is
asked for; it is decided by the entry of the string table with its index and by nothing else, and no
look-up has any part in going through the members.
-/

namespace MapArchive

/-! ## Look-ups in a changed table -/

namespace StringTable

/-- The table with another entry at a place, if it has an entry there. -/
def replace (table : StringTable) (place : Nat) (entry : ByteArray) : StringTable :=
  ⟨table.entries.setIfInBounds place entry⟩

variable {table other : StringTable} {index : Int}

/-- A look-up is decided by the entry with its index. -/
theorem resolve_congr (h : table.get? index = other.get? index) :
    table.resolve index = other.resolve index := by
  rw [resolve, resolve, h]

/-- The other entries stay as they are. -/
theorem get?_replace_of_ne {place : Nat} (h : index ≠ place) (entry : ByteArray) :
    (table.replace place entry).get? index = table.get? index := by
  unfold get?
  split
  case isTrue => rfl
  case isFalse hpos =>
    exact Array.getElem?_setIfInBounds_ne (by omega)

/-- An index stands for a text just if the table has one there. -/
theorem exists_resolve_eq_ok_iff :
    (∃ text, table.resolve index = .ok text) ↔ table.HasText index := by
  rw [hasText_iff]
  exact exists_congr fun _ => resolve_eq_ok_iff_holds

end StringTable

/-- The block with another entry at a place of its string table. -/
def BlockMessage.replaceEntry (block : BlockMessage) (place : Nat) (entry : ByteArray) :
    BlockMessage :=
  { block with stringTable := block.stringTable.replace place entry }

/-! ## Columns that are taken in turn -/

/-- The member that a row of the columns makes. -/
def Member.ofRow : Int × Int × MemberType → Member
  | (role, id, type) => ⟨role, id, type⟩

/-- Members that are being walked through, the columns taken in turn. -/
abbrev MemberRows : Type :=
  Walk.Mapped Member.ofRow (Walk.InStep (List Int) (Walk.InStep RunningSum (List MemberType)))

namespace MemberWalk

/-- The columns of a walk, to be taken in turn. -/
def inTurn (w : MemberWalk) : MemberRows := ⟨⟨w.roles, w.ids, w.types⟩⟩

/-- A walk that looks up the role of each member it gives. -/
def withRoles (w : MemberWalk) (table : StringTable) :
    Walk.Mapped (fun m : Member => (m, m.role table)) MemberWalk := ⟨w⟩

/-- Taking the columns in turn gives the same members. -/
theorem givesJust_inTurn (w : MemberWalk) : Walk.GivesJust w.inTurn (Walk.toList w) := by
  have hroles := Walk.givesJust_list w.roles
  have htypes := Walk.givesJust_list w.types
  have hrest := Walk.InStep.givesJust_zip w.ids.givesJust_sums htypes
  have hrows := Walk.InStep.givesJust_zip hroles hrest
  rw [w.toList_eq_zip]
  exact Walk.Mapped.givesJust_map hrows

end MemberWalk

namespace RelationMessage

/-- The numbers of the members are the first sums. -/
theorem memberIds_members (relation : RelationMessage) :
    (Walk.toList relation.members).map Member.memberId =
      (sums 0 (relation.memberIds.map (·.toInt))).take (Walk.toList relation.members).length := by
  have hlength := relation.length_members
  refine List.ext_getElem ?_ fun i hi _ => ?_
  · rw [List.length_map, List.length_take, length_sums, List.length_map]
    omega
  · rw [List.length_map] at hi
    obtain ⟨-, hlt, hid, -⟩ := getElem?_members (List.getElem?_eq_getElem hi)
    rw [List.getElem_map, List.getElem_take, hid]
    exact ((List.getElem_eq_iff _).mpr (getElem?_sums_map hlt)).symm

/-- The differences of the numbers of the members are the first ones of the column. -/
theorem differences_memberIds (relation : RelationMessage) :
    differences 0 ((Walk.toList relation.members).map Member.memberId) <+:
      relation.memberIds.map (·.toInt) := by
  rw [memberIds_members, differences_take, differences_sums]
  exact List.take_prefix _ _

/-- Members are rows of their columns, whatever their roles are like. Let the columns of a relation
have any lengths.
- There are as many members as the shortest column has entries, and nothing comes after them,
  however often it is asked for: both if a row is taken off all columns at once, and if an entry is
  taken off one column after the other.
- The member at a place has the index of its role and the type from that place, and its number is
  the sum of all differences up to it. The differences of the numbers are the first ones of the
  column.
- Looking up the role of each member as it is given makes no difference to the members, whether or
  not there are texts for their roles.
- The role of a member is a text just if the table has one at its index, and any table with the same
  entry there gives the same.
- If an entry of the table of a block is replaced, its elements remain the same, and so does the
  role of every member with another index. -/
theorem members_are_rows (relation : RelationMessage) :
    let members := Walk.toList relation.members
    members.length = min relation.rolesSid.length
      (min relation.memberIds.length relation.types.length) ∧
    Walk.GivesJust relation.members members ∧ Walk.GivesJust relation.members.inTurn members ∧
    (∀ i m, members[i]? = some m →
      (relation.rolesSid[i]?).map (·.toInt) = some m.roleSid ∧
      m.memberId = ((relation.memberIds.take (i + 1)).map (·.toInt)).sum ∧
      relation.types[i]? = some m.type) ∧
    differences 0 (members.map Member.memberId) <+: relation.memberIds.map (·.toInt) ∧
    (∀ table, Walk.GivesJust (relation.members.withRoles table)
      (members.map fun m => (m, m.role table))) ∧
    (∀ m ∈ members, ∀ table : StringTable,
      ((∃ text, m.role table = .ok text) ↔ table.HasText m.roleSid) ∧
      ∀ other : StringTable, table.get? m.roleSid = other.get? m.roleSid →
        m.role table = m.role other) ∧
    ∀ (block : BlockMessage) (place : Nat) (entry : ByteArray),
      let changed := block.replaceEntry place entry
      Walk.toList changed.walk = Walk.toList block.walk ∧
      ∀ m ∈ members, m.roleSid ≠ place → m.role changed.stringTable = m.role block.stringTable := by
  intro members
  have hjust : Walk.GivesJust relation.members members := Walk.givesJust_toList relation.members
  refine ⟨relation.length_members, hjust, relation.members.givesJust_inTurn, fun i m hm => ?_,
    relation.differences_memberIds, fun table => Walk.Mapped.givesJust_map hjust,
    fun m _ table => ⟨StringTable.exists_resolve_eq_ok_iff, fun other => StringTable.resolve_congr⟩,
    fun block place entry => ⟨rfl, fun m _ hne => ?_⟩⟩
  · obtain ⟨hrole, -, hid, htype⟩ := getElem?_members hm
    exact ⟨hrole, hid, htype⟩
  · exact StringTable.resolve_congr (StringTable.get?_replace_of_ne hne entry)

/-- A relation whose columns have three lengths. -/
def ragged : RelationMessage where
  id := 1
  keys := []
  vals := []
  info := none
  rolesSid := [1, 42, 2, 1]
  memberIds := [10, -3, 7]
  types := [.node, .way, .relation, .way, .way]

/-- A block whose table has an entry that is no text. -/
def tabled : BlockMessage where
  stringTable := ⟨#[.empty, ofOctets [0x6F], ofOctets [0xFF]]⟩
  groups := []
  granularity := none
  latOffset := none
  lonOffset := none
  dateGranularity := none

/-- The relation has three members. The role of the first one is a text, which it remains when the
entry that is no text is replaced. -/
theorem ragged_has_three_members :
    let members : List Member := [⟨1, 10, .node⟩, ⟨42, 7, .way⟩, ⟨2, 14, .relation⟩]
    let changed := tabled.replaceEntry 2 (ofOctets [0x70])
    Walk.GivesJust ragged.members members ∧ Walk.GivesJust ragged.members.inTurn members ∧
      7 = ((([10, -3, 7] : List Int64).take 2).map (·.toInt)).sum ∧
      (∃ text, (Member.mk 1 10 .node).role tabled.stringTable = .ok text) ∧
      (Member.mk 1 10 .node).role changed.stringTable =
        (Member.mk 1 10 .node).role tabled.stringTable ∧
      (Member.mk 42 7 .way).role changed.stringTable =
        (Member.mk 42 7 .way).role tabled.stringTable := by
  obtain ⟨-, hjust, hturn, hplaces, -, -, hroles, hreplace⟩ := ragged.members_are_rows
  have hmembers : Walk.toList ragged.members =
      [⟨1, 10, .node⟩, ⟨42, 7, .way⟩, ⟨2, 14, .relation⟩] := by decide +kernel
  rw [hmembers] at hjust hturn hplaces hroles hreplace
  have hkept := (hreplace tabled 2 (ofOctets [0x70])).2
  have htext : tabled.stringTable.HasText 1 :=
    ⟨by decide, ofOctets [0x6F], by decide +kernel, by decide +kernel⟩
  exact ⟨hjust, hturn, (hplaces 1 _ rfl).2.1,
    ((hroles ⟨1, 10, .node⟩ (by simp) tabled.stringTable).1).mpr htext,
    hkept ⟨1, 10, .node⟩ (by simp) (by decide), hkept ⟨42, 7, .way⟩ (by simp) (by decide)⟩

end RelationMessage

end MapArchive
