import MapArchive.Proofs.RunningSum
import MapArchive.Proofs.Walk.Progress

/-!
# Sums and differences

Summing up differences and taking differences undo each other, whatever number both are counted
from. On the way, a running sum holds the differences that have not been asked for, and the number
given last.
-/

namespace MapArchive

/-- The sums of the differences of numbers are the numbers. -/
@[simp] theorem sums_differences (start : Int) (numbers : List Int) :
    sums start (differences start numbers) = numbers := by
  induction numbers generalizing start with
  | nil => rfl
  | cons x rest ih =>
    have hfirst : start + (x - start) = x := by omega
    rw [differences, sums_cons, hfirst, ih]

/-- The differences of sums are the numbers that were summed up. -/
@[simp] theorem differences_sums (start : Int) (deltas : List Int) :
    differences start (sums start deltas) = deltas := by
  induction deltas generalizing start with
  | nil => rfl
  | cons d rest ih =>
    have hfirst : start + d - start = d := by omega
    rw [sums_cons, differences, hfirst, ih]

/-- The differences of the first numbers are the first differences. -/
theorem differences_take (start : Int) (n : Nat) (numbers : List Int) :
    differences start (numbers.take n) = (differences start numbers).take n := by
  induction numbers generalizing start n with
  | nil => rw [List.take_nil, differences, List.take_nil]
  | cons x rest ih =>
    cases n with
    | zero => rfl
    | succ n => rw [List.take_succ_cons, differences, differences, List.take_succ_cons, ih]

namespace RunningSum

/-- Each question takes a difference off, as long as there is one. -/
theorem deltas_after (n : Nat) (r : RunningSum) : (Walk.after n r).deltas = r.deltas.drop n := by
  induction n generalizing r with
  | zero => rfl
  | succ n ih =>
    obtain ⟨_ | ⟨d, rest⟩, remaining, current⟩ := r
    · exact (ih ⟨[], remaining, current⟩).trans List.drop_nil
    · exact ih ⟨rest, remaining - 1, current + d⟩

/-- Columns whose count is the number of differences that are left. -/
def IsCounted (r : RunningSum) : Prop := r.remaining = r.deltas.length

/-- A column that is new has the right count. -/
theorem isCounted_ofDeltas (deltas : List Int) (start : Int) :
    (ofDeltas deltas start).IsCounted := rfl

/-- The count is lowered just when a difference is taken off. -/
theorem IsCounted.next {r : RunningSum} (h : r.IsCounted) : r.next.2.IsCounted := by
  obtain ⟨_ | ⟨d, rest⟩, remaining, current⟩ := r
  · exact h
  · have hcount : remaining = (rest.length + 1 : Nat) := h
    change remaining - 1 = rest.length
    omega

/-- The count is right after any number of questions, also of those that give nothing. -/
theorem IsCounted.after (n : Nat) {r : RunningSum} (h : r.IsCounted) :
    (Walk.after n r).IsCounted := by
  induction n generalizing r with
  | zero => exact h
  | succ n ih => exact ih h.next

/-- The numbers that have been given are the first sums. -/
theorem given_eq_take_sums (n : Nat) (r : RunningSum) :
    Walk.given n r = (sums r.current r.deltas).take n := by
  rw [Walk.given_eq_take, toList_eq_sums]

/-- Each question is answered by a number, as long as there are differences. -/
theorem length_given (n : Nat) (r : RunningSum) :
    (Walk.given n r).length = min n r.deltas.length := by
  rw [given_eq_take_sums, List.length_take, length_sums]

/-- The differences left are those for which no number has been given. -/
theorem deltas_after_eq_drop_given (n : Nat) (r : RunningSum) :
    (Walk.after n r).deltas = r.deltas.drop (Walk.given n r).length := by
  rw [deltas_after, length_given]
  rcases Nat.le_total n r.deltas.length with hle | hle
  · rw [Nat.min_eq_left hle]
  · rw [Nat.min_eq_right hle, List.drop_length, List.drop_eq_nil_of_le hle]

/-- The number that is held is the one given last, if any was given. -/
theorem current_after (n : Nat) (r : RunningSum) :
    (Walk.after n r).current = (Walk.given n r).getLast?.getD r.current := by
  induction n generalizing r with
  | zero => rfl
  | succ n ih =>
    obtain ⟨_ | ⟨d, rest⟩, remaining, current⟩ := r
    · exact ih ⟨[], remaining, current⟩
    · have hgiven : Walk.given (n + 1) (RunningSum.mk (d :: rest) remaining current) =
          (current + d) :: Walk.given n (RunningSum.mk rest (remaining - 1) (current + d)) := rfl
      rw [hgiven, List.getLast?_cons]
      exact ih ⟨rest, remaining - 1, current + d⟩

/-- There is no next number just if there is no difference left. -/
theorem next_eq_none_iff (r : RunningSum) : r.next.1 = none ↔ r.deltas = [] := by
  obtain ⟨_ | ⟨d, rest⟩, remaining, current⟩ := r
  · exact iff_of_true rfl rfl
  · exact iff_of_false nofun nofun

/-- If there is no next number, asking for it changes nothing. -/
theorem next_of_none {r : RunningSum} (h : r.next.1 = none) : r.next = (none, r) := by
  obtain ⟨_ | ⟨d, rest⟩, remaining, current⟩ := r
  · rfl
  · cases h

/-- A running sum keeps count of what it gives, and it undoes taking differences. Let some
differences be summed up from a start.
- After any number of questions the numbers given so far are no more than the differences. Each of
  them is the start and all differences up to its place. The one given last is held, or the start if
  there is none. The differences left are those for which no number has been given, and the count of
  the numbers still to come, which is kept beside them, is the number of these.
- There is no next number just if all have been given. Asking then gives nothing and changes
  nothing, however often it is done.
- The differences of any numbers, counted from the start, give these numbers and nothing after them.
- The differences of the numbers that are given are those that were summed up. -/
theorem sums_undo_differences (start : Int) :
    (∀ (deltas : List Int) (n : Nat),
      let now := Walk.after n (ofDeltas deltas start)
      let given := Walk.given n (ofDeltas deltas start)
      given.length ≤ deltas.length ∧
      (∀ j a, given[j]? = some a → a = start + (deltas.take (j + 1)).sum) ∧
      now.current = given.getLast?.getD start ∧
      now.deltas = deltas.drop given.length ∧
      now.remaining = deltas.length - given.length ∧
      (now.next.1 = none ↔ given.length = deltas.length) ∧
      (now.next.1 = none →
        ∀ m, Walk.nexts m now = List.replicate m none ∧ Walk.after m now = now)) ∧
    (∀ numbers : List Int, Walk.GivesJust (ofDeltas (differences start numbers) start) numbers) ∧
    ∀ deltas : List Int, differences start (Walk.toList (ofDeltas deltas start)) = deltas := by
  refine ⟨fun deltas n => ?_, fun numbers => ?_, fun deltas => ?_⟩
  · intro now given
    have hgiven : given = (sums start deltas).take n := given_eq_take_sums n (ofDeltas deltas start)
    have hcount : given.length = min n deltas.length := length_given n (ofDeltas deltas start)
    have hleft : now.deltas = deltas.drop given.length :=
      deltas_after_eq_drop_given n (ofDeltas deltas start)
    refine ⟨by omega, fun j a hj => ?_, current_after n _, hleft, ?_, ?_, fun hnone m => ?_⟩
    · have hlt : j < given.length := (List.getElem?_eq_some_iff.mp hj).1
      rw [hgiven, List.getElem?_take_of_lt (by omega), getElem?_sums (by omega)] at hj
      exact (Option.some.inj hj).symm
    · have hcounted : now.remaining = now.deltas.length := (isCounted_ofDeltas deltas start).after n
      rw [hcounted, hleft, List.length_drop]
      omega
    · rw [next_eq_none_iff, hleft, List.drop_eq_nil_iff]
      omega
    · have hstays : Walk.next now = (none, now) := next_of_none hnone
      exact ⟨Walk.nexts_of_none hstays m, Walk.after_of_none hstays m⟩
  · have hjust := givesJust_sums (ofDeltas (differences start numbers) start)
    rwa [ofDeltas, sums_differences] at hjust
  · rw [toList_eq_sums]
    exact differences_sums start deltas

/-- Three differences are summed up from ten. After five questions all sums have been given, the
last one is held, and nothing more comes. -/
theorem three_differences_are_summed :
    let now := Walk.after 5 (ofDeltas [3, -5, 4] 10)
    Walk.given 5 (ofDeltas [3, -5, 4] 10) = [13, 8, 12] ∧
      8 = 10 + ([3, -5, 4].take 2 : List Int).sum ∧ now.current = 12 ∧ now.deltas = [] ∧
      now.remaining = 0 ∧
      now.next.1 = none ∧ (∀ m, Walk.nexts m now = List.replicate m none ∧ Walk.after m now = now) ∧
      Walk.GivesJust (ofDeltas [3, -5, 4] 10) [13, 8, 12] := by
  obtain ⟨hstates, hnumbers, -⟩ := sums_undo_differences 10
  obtain ⟨-, hplaces, hcurrent, hleft, hremaining, hend, hstays⟩ := hstates [3, -5, 4] 5
  exact ⟨rfl, hplaces 1 8 rfl, hcurrent, hleft, hremaining, hend.mpr rfl, hstays (hend.mpr rfl),
    hnumbers [13, 8, 12]⟩

end RunningSum

end MapArchive
