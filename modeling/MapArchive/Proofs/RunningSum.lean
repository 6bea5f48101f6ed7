import Mathlib.Algebra.Ring.Int.Defs
import MapArchive.Proofs.Walk
import MapArchive.RunningSum

/-!
# Sums of differences

A column of differences is restored to its sums, one for each difference: the start and all
differences up to it. A walk through the column gives these sums.
-/

namespace MapArchive

/-- Sums already seen stay in front. -/
theorem sumsOnto_eq (seen : List Int) (current : Int) (deltas : List Int) :
    sumsOnto seen current deltas = seen.reverse ++ sums current deltas := by
  rw [sums]
  induction deltas generalizing seen current with
  | nil => simp [sumsOnto]
  | cons d rest ih =>
    rw [sumsOnto, sumsOnto, ih, ih [current + d], List.reverse_cons, List.reverse_singleton,
      List.append_assoc]

/-- Without differences there are no sums. -/
@[simp] theorem sums_nil (start : Int) : sums start [] = [] := rfl

/-- The first sum is the start and the first difference, and the others are counted from it. -/
@[simp] theorem sums_cons (start d : Int) (rest : List Int) :
    sums start (d :: rest) = (start + d) :: sums (start + d) rest :=
  sumsOnto_eq [start + d] (start + d) rest

/-- There are as many sums as differences. -/
@[simp] theorem length_sums (start : Int) (deltas : List Int) :
    (sums start deltas).length = deltas.length := by
  induction deltas generalizing start with
  | nil => rfl
  | cons d rest ih => rw [sums_cons, List.length_cons, List.length_cons, ih]

/-- A sum is that of the start and all differences up to its place. -/
theorem getElem?_sums {start : Int} {deltas : List Int} {k : Nat} (h : k < deltas.length) :
    (sums start deltas)[k]? = some (start + (deltas.take (k + 1)).sum) := by
  induction deltas generalizing start k with
  | nil => cases h
  | cons d rest ih =>
    cases k with
    | zero => simp
    | succ k =>
      have hrest : k < rest.length := Nat.lt_of_succ_lt_succ h
      rw [sums_cons, List.getElem?_cons_succ, ih hrest, List.take_succ_cons, List.sum_cons,
        Int.add_assoc]

section Column

variable {α : Type} {toInt : α → Int} {column : List α} {k : Nat}

/-- A sum of differences that are stored in some type, counted from zero. -/
theorem getElem?_sums_map (h : k < column.length) :
    (sums 0 (column.map toInt))[k]? = some ((column.take (k + 1)).map toInt).sum := by
  rw [getElem?_sums (by rwa [List.length_map]), Int.zero_add, List.map_take]

/-- An entry among the sums of a column is the sum of all differences up to its place. -/
theorem eq_of_getElem?_sums {a : Int} (h : (sums 0 (column.map toInt))[k]? = some a) :
    a = ((column.take (k + 1)).map toInt).sum := by
  have hlt : k < (sums 0 (column.map toInt)).length := (List.getElem?_eq_some_iff.mp h).1
  rw [length_sums, List.length_map] at hlt
  rw [getElem?_sums_map hlt] at h
  exact (Option.some.inj h).symm

end Column

namespace RunningSum

/-- After the first number the column is that of the other differences, counted from this number. -/
theorem next_ofDeltas (d : Int) (rest : List Int) (start : Int) :
    (ofDeltas (d :: rest) start).next = (some (start + d), ofDeltas rest (start + d)) := by
  have hcount : ((d :: rest).length : Int) - 1 = rest.length := by
    rw [List.length_cons]
    omega
  rw [ofDeltas, next, hcount, ofDeltas]

/-- A walk through differences gives their sums. -/
theorem toList_eq_sums (r : RunningSum) : Walk.toList r = sums r.current r.deltas := by
  obtain ⟨deltas, remaining, current⟩ := r
  induction deltas generalizing remaining current with
  | nil => exact Walk.toList_of_none (s := RunningSum.mk [] remaining current) rfl
  | cons d rest ih =>
    have hnext : (RunningSum.mk (d :: rest) remaining current).next =
        (some (current + d), ⟨rest, remaining - 1, current + d⟩) := rfl
    rw [Walk.toList_of_some (s := RunningSum.mk (d :: rest) remaining current) hnext, ih,
      sums_cons]

/-- The sum that is given is the first one to come. -/
theorem sums_of_next {r s : RunningSum} {a : Int} (h : r.next = (some a, s)) :
    sums r.current r.deltas = a :: sums s.current s.deltas := by
  rw [← r.toList_eq_sums, ← s.toList_eq_sums]
  exact Walk.toList_of_some (s := r) h

/-- If no sum is given, none is to come. -/
theorem sums_of_next_none {r s : RunningSum} (h : r.next = (none, s)) :
    sums r.current r.deltas = [] := by
  rw [← r.toList_eq_sums]
  exact Walk.toList_of_none (s := r) h

instance : Walk.Fused RunningSum where
  next_of_none {s t} h := by
    obtain ⟨deltas, remaining, current⟩ := s
    cases deltas <;> cases h
    rfl

/-- A walk through differences gives their sums and nothing after them. -/
theorem givesJust_sums (r : RunningSum) : Walk.GivesJust r (sums r.current r.deltas) := by
  rw [← r.toList_eq_sums]
  exact Walk.givesJust_toList r

end RunningSum

end MapArchive
