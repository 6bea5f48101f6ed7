import MapArchive.Block.StringTable
import MapArchive.Log
import MapArchive.Walk

/-!
# Tags

An element carries tags, pairs of a key and a value, stored as indices. The tags are looked up one
by one while they are walked through. The first one that cannot be looked up ends the walk for
good; those after it are never tried.
-/

namespace MapArchive

/-- Tags that are being looked up. -/
structure TagWalk where
  /-- Where they are looked up. -/
  table : StringTable
  /-- The indices of the tags to come. -/
  pairs : List (Int × Int)

namespace TagWalk

/-- Looks up a key and a value, the key first. -/
def resolve (table : StringTable) (pair : Int × Int) : Except ArchiveError (String × String) := do
  let key ← table.resolve pair.1
  let value ← table.resolve pair.2
  return (key, value)

/-- Gives the next tag. A failure leaves nothing to come. -/
def next (w : TagWalk) : Option (String × String) × TagWalk :=
  match w.pairs with
  | [] => (none, w)
  | pair :: rest =>
    match resolve w.table pair with
    | .ok tag => (some tag, { w with pairs := rest })
    | .error _ => (none, { w with pairs := [] })

/-- The failure that ends the walk before its pairs do, if there is one. -/
def failure? (w : TagWalk) : Option ArchiveError :=
  w.pairs.findSome? fun pair =>
    match resolve w.table pair with
    | .ok _ => none
    | .error e => some e

/-- The events that walking to the end reports. -/
def events (w : TagWalk) : List LogEvent := (w.failure?.map LogEvent.stoppedTags).toList

instance : Walk TagWalk (String × String) where
  next := TagWalk.next
  bound w := w.pairs.length
  bound_next {s t a} h := by
    obtain ⟨table, pairs⟩ := s
    cases pairs with
    | nil => cases h
    | cons pair rest =>
      unfold TagWalk.next at h
      dsimp only at h
      split at h
      · cases h; simp
      · cases h

end TagWalk

/-- Consecutive numbers two by two. -/
def pairsOf : List Int → List (Int × Int)
  | a :: b :: rest => (a, b) :: pairsOf rest
  | _ => []

end MapArchive
