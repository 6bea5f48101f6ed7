import MapArchive.Wire.Field

/-!
# Columns of numbers

The numbers stored for a repeated field are those that its records hold, one after the other: a
record holds a single number or, packed, any number of them. So what is read from some records and
then others is what is read from the former and then what is read from the latter.
-/

namespace MapArchive.Field

/-- The words that a record holds for a repeated field of numbers, if they can be read. -/
def items (field : Nat) (r : Record) : Option (List UInt64) :=
  if r.field = field then
    match r.payload with
    | .varint value => some [value]
    | .bytes content => (unpackOnto #[] (.atStart content)).map Array.toList
    | _ => some []
  else some []

/-- Words already seen stay in front. -/
theorem unpackOnto_eq (seen : Array UInt64) (c : Cursor) :
    unpackOnto seen c = (unpackOnto #[] c).map fun found => seen ++ found := by
  rw [unpackOnto, unpackOnto]
  split
  case isTrue => simp
  case isFalse =>
    split
    case h_1 => rfl
    case h_2 v d hread =>
      have hlt := Varint.remaining_of_read hread
      rw [unpackOnto_eq (seen.push v) d, unpackOnto_eq (#[].push v) d, Option.map_map]
      congr 1
      funext found
      simp
termination_by c.remaining

/-- The words of a record are put after those already seen. -/
theorem unpackAllOnto_cons (field : Nat) (seen : Array UInt64) (r : Record) (rest : List Record) :
    unpackAllOnto field seen (r :: rest) =
      (items field r).bind fun here => unpackAllOnto field (seen ++ here.toArray) rest := by
  obtain ⟨f, payload⟩ := r
  rw [unpackAllOnto, items]
  split
  case isFalse => simp
  case isTrue =>
    cases payload with
    | varint value => simp
    | bytes content =>
      dsimp only
      rw [unpackOnto_eq]
      cases unpackOnto #[] (Cursor.atStart content) <;> simp
    | fixed64 | group | fixed32 => simp

/-- The words of records are put after those already seen, one record after the other. -/
theorem unpackAllOnto_eq (field : Nat) (seen : Array UInt64) (records : List Record) :
    unpackAllOnto field seen records =
      (records.mapM (items field)).map fun found => seen ++ found.flatten.toArray := by
  induction records generalizing seen with
  | nil => simp [unpackAllOnto]
  | cons r rest ih =>
    rw [unpackAllOnto_cons, List.mapM_cons]
    cases items field r with
    | none => rfl
    | some here =>
      rw [Option.bind_some, ih]
      cases rest.mapM (items field) <;> simp

/-- The numbers of a repeated field are those that its records hold. -/
theorem numbers_eq_items {α : Type} (kind : Scalar α) (field : Nat) (records : List Record) :
    numbers kind field records =
      (records.mapM (items field)).map fun found => found.flatten.map kind.ofWord := by
  rw [numbers, unpackAllOnto_eq, Option.map_map]
  congr 1
  funext found
  simp

/-- The numbers of records and then others. -/
theorem numbers_append {α : Type} (kind : Scalar α) (field : Nat) (a b : List Record) :
    numbers kind field (a ++ b) =
      (numbers kind field a).bind fun first =>
        (numbers kind field b).map fun later => first ++ later := by
  rw [numbers_eq_items, numbers_eq_items, numbers_eq_items, List.mapM_append]
  cases a.mapM (items field) with
  | none => rfl
  | some first =>
    cases b.mapM (items field) with
    | none => rfl
    | some later => simp

end MapArchive.Field
