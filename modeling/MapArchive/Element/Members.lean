import MapArchive.Block.StringTable
import MapArchive.RunningSum

/-!
# Members of relations

A relation lists its members in three columns: the indices of their roles, the differences of their
numbers, and their types. The walk takes one entry of each column at a time and ends as soon as any
of them has run out.
-/

namespace MapArchive

/-- A member of a relation. -/
structure Member where
  /-- The role of the member, as an index. -/
  roleSid : Int
  /-- The number of the member. -/
  memberId : Int
  /-- What the member is. -/
  type : MemberType
  deriving DecidableEq, Repr

/-- The role of a member. -/
def Member.role (m : Member) (table : StringTable) : Except ArchiveError String :=
  table.resolve m.roleSid

/-- Members that are being walked through. -/
structure MemberWalk where
  /-- The indices of the roles to come. -/
  roles : List Int
  /-- The numbers to come. -/
  ids : RunningSum
  /-- The types to come. -/
  types : List MemberType

namespace MemberWalk

/-- Gives the next member. -/
def next (w : MemberWalk) : Option Member × MemberWalk :=
  match w.roles, w.ids.next, w.types with
  | role :: roles, (some id, ids), type :: types => (some ⟨role, id, type⟩, ⟨roles, ids, types⟩)
  | _, _, _ => (none, w)

instance : Walk MemberWalk Member where
  next := MemberWalk.next
  bound w := w.roles.length
  bound_next {s t a} h := by
    obtain ⟨roles, ids, types⟩ := s
    unfold MemberWalk.next at h
    dsimp only at h
    split at h
    · cases h; simp
    · cases h

end MemberWalk

/-- Walks through the members of a relation. -/
def RelationMessage.members (relation : RelationMessage) : MemberWalk where
  roles := relation.rolesSid.map (·.toInt)
  ids := .ofDeltas (relation.memberIds.map (·.toInt)) 0
  types := relation.types

end MapArchive
