import MapArchive.Walk

/-!
# Numbers stored as differences

Columns of numbers that change little are stored as differences of consecutive entries. A
`RunningSum` restores them one by one: it holds the differences still to come, a count of them and
the sum so far. `sums` restores a whole column at once and `differences` is its inverse.
-/

namespace MapArchive

/-- A column of differences that is being summed up. -/
structure RunningSum where
  /-- The differences still to come. -/
  deltas : List Int
  /-- The count of the numbers still to come, lowered by one for each that is restored. -/
  remaining : Int
  /-- The number restored last, or the start if there was none. -/
  current : Int
  deriving DecidableEq, Repr

namespace RunningSum

/-- Nothing summed up yet. -/
def ofDeltas (deltas : List Int) (start : Int) : RunningSum := ⟨deltas, deltas.length, start⟩

/-- Takes the next difference and restores a number from it. At the end nothing changes. -/
def next (r : RunningSum) : Option Int × RunningSum :=
  match r.deltas with
  | [] => (none, r)
  | d :: rest => (some (r.current + d), ⟨rest, r.remaining - 1, r.current + d⟩)

end RunningSum

/-- Restores numbers, the last one first, after those already `seen`. -/
def sumsOnto (seen : List Int) (current : Int) : List Int → List Int
  | [] => seen.reverse
  | d :: rest => sumsOnto ((current + d) :: seen) (current + d) rest

/-- The numbers whose differences, counted from `start`, are given. -/
def sums (start : Int) (deltas : List Int) : List Int := sumsOnto [] start deltas

/-- The differences of consecutive numbers, the first one counted from `start`. -/
def differences (start : Int) : List Int → List Int
  | [] => []
  | x :: rest => (x - start) :: differences x rest

instance : Walk RunningSum Int where
  next := RunningSum.next
  bound r := r.deltas.length
  bound_next {s t a} h := by
    obtain ⟨deltas, remaining, current⟩ := s
    cases deltas with
    | nil => cases h
    | cons d rest => cases h; simp

end MapArchive
