import Mathlib.Algebra.Group.Nat.Defs
import MapArchive.Element.Basic

/-!
# Tags, members and coordinates with checks

The tags of a dense node are taken from an array by their places, the types of members are made from
numbers, and coordinates are rounded to doubles. All of these could go wrong: there might be no
entry at a place, a number might stand for no type, and a coordinate might be too large. Here they
are done with checks, and the checks pass: the search for the end of a node's tags only goes past
pairs that are there, the numbers that are kept when a relation is read are those of types, and
coordinates that are not too large can be rounded.
-/

namespace MapArchive

/-- What could go wrong while the elements of a block are looked at. -/
inductive Mishap where
  /-- An array has no entry at a place. -/
  | noEntry (place : Nat)
  /-- A number stands for no type of members. -/
  | noType (code : Int32)
  /-- A number is too large to be rounded to a double. -/
  | tooLarge (nano : Int)
  deriving DecidableEq, Repr

/-! ## Tags -/

/-- The entry at a place. -/
def entryAt (values : Array Int) (place : Nat) : Except Mishap Int :=
  match values[place]? with
  | some value => .ok value
  | none => .error (.noEntry place)

/-- An entry before the end is found. -/
theorem entryAt_of_lt {values : Array Int} {place : Nat} (h : place < values.size) :
    entryAt values place = .ok values[place] := by
  rw [entryAt, Array.getElem?_eq_getElem h]

/-- Every second place from one on, before another. -/
def everySecond (first stop : Nat) : List Nat := List.range' first ((stop - first + 1) / 2) 2

namespace TagRange

/-- The tags, each of a key and the value after it. -/
def pairs (keysVals : Array Int) (r : TagRange) : Except Mishap (List (Int × Int)) :=
  (everySecond r.first r.stop).mapM fun place => do
    return (← entryAt keysVals place, ← entryAt keysVals (place + 1))

/-- The keys. -/
def keys (keysVals : Array Int) (r : TagRange) : Except Mishap (List Int) :=
  (everySecond r.first r.stop).mapM (entryAt keysVals)

/-- The values. -/
def values (keysVals : Array Int) (r : TagRange) : Except Mishap (List Int) :=
  (everySecond (r.first + 1) r.stop).mapM (entryAt keysVals)

end TagRange

/-- The search goes past so many pairs, and all of them are there. -/
theorem exists_tagsEnd (keysVals : Array Int) (i : Nat) :
    ∃ n, tagsEnd keysVals i = i + 2 * n ∧ ∀ j < n, i + 2 * j + 1 < keysVals.size := by
  fun_induction tagsEnd keysVals i with
  | case1 => exact ⟨0, rfl, fun _ h => nomatch h⟩
  | case2 i hsize _ ih =>
    obtain ⟨n, hend, hplaces⟩ := ih
    refine ⟨n + 1, by omega, fun j hj => ?_⟩
    cases j with
    | zero => exact hsize
    | succ j =>
      have := hplaces j (by omega)
      omega
  | case3 => exact ⟨0, rfl, fun _ h => nomatch h⟩

/-- A pair and the entries after it. -/
theorem extract_of_pair {keysVals : Array Int} {i stop : Nat} (hsize : i + 1 < keysVals.size)
    (hstop : i + 2 ≤ stop) :
    (keysVals.extract i stop).toList =
      keysVals[i] :: keysVals[i + 1] :: (keysVals.extract (i + 2) stop).toList := by
  obtain ⟨entries⟩ := keysVals
  rw [List.size_toArray] at hsize
  obtain ⟨m, rfl⟩ := Nat.exists_eq_add_of_le hstop
  simp only [List.extract_toArray, List.extract_eq_take_drop, List.getElem_toArray]
  rw [List.drop_eq_getElem_cons (by omega), List.drop_eq_getElem_cons (by omega),
    show i + 2 + m - i = m + 2 by omega, show i + 2 + m - (i + 2) = m by omega]
  rfl

/-- What is made of every pair, one after the other, if all of them are there. -/
theorem mapM_places {β : Type} {keysVals : Array Int} {f : Nat → Except Mishap β}
    {g : Int × Int → β}
    (hf : ∀ (place : Nat) (_ : place < keysVals.size) (_ : place + 1 < keysVals.size),
      f place = .ok (g (keysVals[place], keysVals[place + 1])))
    {n i : Nat} (hplaces : ∀ j < n, i + 2 * j + 1 < keysVals.size) :
    (List.range' i n 2).mapM f =
      .ok ((pairsOf (keysVals.extract i (i + 2 * n)).toList).map g) := by
  induction n generalizing i with
  | zero => simp [pairsOf]; rfl
  | succ n ih =>
    have hfirst := hplaces 0 (by omega)
    have hrest := ih (i := i + 2) fun j hj => by
      have := hplaces (j + 1) (by omega)
      omega
    rw [List.range'_succ, List.mapM_cons, hf i (Nat.lt_of_succ_lt hfirst) hfirst, hrest,
      extract_of_pair hfirst (show i + 2 ≤ i + 2 * (n + 1) by omega),
      show i + 2 * (n + 1) = i + 2 + 2 * n by omega]
    rfl

/-- Every second place up to an even distance is reached by steps of two. -/
theorem everySecond_eq (first n : Nat) :
    everySecond first (first + 2 * n) = List.range' first n 2 := by
  rw [everySecond, show (first + 2 * n - first + 1) / 2 = n by omega]

/-- Every second place from the one after the first is reached by the same steps, one further. -/
theorem everySecond_succ_eq (first n : Nat) :
    everySecond (first + 1) (first + 2 * n) = (List.range' first n 2).map (· + 1) := by
  have hcount : (first + 2 * n - (first + 1) + 1) / 2 = n := by omega
  have hshift : (fun place : Nat => place + 1) = fun place => 1 + place := by
    funext place
    omega
  rw [everySecond, hcount, hshift, List.map_add_range', Nat.add_comm]

namespace TagRange

variable (keysVals : Array Int) (i : Nat)

/-- The tags of a node are found. -/
theorem pairs_tagRange :
    (tagRange keysVals i).pairs keysVals =
      .ok (pairsOf (keysVals.extract i (tagsEnd keysVals i)).toList) := by
  obtain ⟨n, hend, hplaces⟩ := exists_tagsEnd keysVals i
  have hpairs := mapM_places (g := id) (f := fun place => do
    return (← entryAt keysVals place, ← entryAt keysVals (place + 1)))
    (fun place hkey hvalue => by rw [entryAt_of_lt hkey, entryAt_of_lt hvalue]; rfl) hplaces
  rw [pairs, tagRange, hend, everySecond_eq, hpairs, List.map_id]

/-- The keys of a node's tags are found. -/
theorem keys_tagRange :
    (tagRange keysVals i).keys keysVals =
      .ok ((pairsOf (keysVals.extract i (tagsEnd keysVals i)).toList).map Prod.fst) := by
  obtain ⟨n, hend, hplaces⟩ := exists_tagsEnd keysVals i
  have hkeys := mapM_places (g := Prod.fst) (f := entryAt keysVals)
    (fun place hkey _ => entryAt_of_lt hkey) hplaces
  rw [keys, tagRange, hend, everySecond_eq, hkeys]

/-- The values of a node's tags are found. -/
theorem values_tagRange :
    (tagRange keysVals i).values keysVals =
      .ok ((pairsOf (keysVals.extract i (tagsEnd keysVals i)).toList).map Prod.snd) := by
  obtain ⟨n, hend, hplaces⟩ := exists_tagsEnd keysVals i
  have hvalues := mapM_places (g := Prod.snd) (f := fun place => entryAt keysVals (place + 1))
    (fun place _ hvalue => entryAt_of_lt hvalue) hplaces
  rw [values, tagRange, hend, everySecond_succ_eq, List.mapM_map]
  exact hvalues

end TagRange

/-! ## Types of members -/

/-- The type of members that a number stands for. -/
def MemberType.ofCode (code : Int32) : Except Mishap MemberType :=
  match ofCode? code with
  | some type => .ok type
  | none => .error (.noType code)

/-- The numbers of types are those of these types. -/
theorem MemberType.mapM_ofCode (types : List MemberType) :
    (types.map code).mapM ofCode = .ok types := by
  induction types with
  | nil => rfl
  | cons type types ih =>
    rw [List.map_cons, List.mapM_cons, ih, ofCode, ofCode?_code]
    rfl

/-! ## Coordinates -/

/-- The least natural number that cannot be rounded to a double, as it is half a unit beyond the
greatest one. -/
def doubleLimit : Nat := 2 ^ 1024 - 2 ^ 970

/-- Numbers of moderate size can be rounded to a double. -/
theorem moderate_lt_doubleLimit : 2 ^ 126 < doubleLimit := by decide +kernel

/-- Integers that can be rounded to a double. -/
def FitsDouble (n : Int) : Prop := n.natAbs < doubleLimit

instance : DecidablePred FitsDouble := fun n => inferInstanceAs (Decidable (n.natAbs < doubleLimit))

/-- A number of nanodegrees, in degrees. -/
def degreesOf (nano : Int) : Except Mishap Float :=
  if FitsDouble nano then .ok (degreesOfNano nano) else .error (.tooLarge nano)

/-- The place with the stored coordinates. -/
def Parameters.locate (p : Parameters) (lat lon : Int) : Except Mishap Position := do
  return ⟨← degreesOf (p.latNano lat), ← degreesOf (p.lonNano lon)⟩

/-- A place is found if its coordinates are not too large. -/
theorem Parameters.locate_eq {p : Parameters} {lat lon : Int} (hlat : FitsDouble (p.latNano lat))
    (hlon : FitsDouble (p.lonNano lon)) : p.locate lat lon = .ok (p.position lat lon) := by
  rw [locate, degreesOf, degreesOf, if_pos hlat, if_pos hlon]
  rfl

end MapArchive
