import Mathlib.Algebra.Group.Nat.Even
import MapArchive.Element.Dense

/-!
# The array of all nodes' tags

What was put into the array is found in it again: where the tags of a node are written as pairs and
a zero follows them, they end just at the zero, provided that no key among them is zero, and the
tags of the next node start right after it. What stands before them is never looked at.
-/

namespace MapArchive

/-- Keys and values in turn. -/
def flattenTags (tags : List (Int × Int)) : List Int := tags.flatMap fun tag => [tag.1, tag.2]

/-- The key and the value of the first tag stand in front. -/
@[simp] theorem flattenTags_cons (tag : Int × Int) (tags : List (Int × Int)) :
    flattenTags (tag :: tags) = tag.1 :: tag.2 :: flattenTags tags := rfl

/-- Each tag takes two entries. -/
@[simp] theorem length_flattenTags (tags : List (Int × Int)) :
    (flattenTags tags).length = 2 * tags.length := by
  induction tags with
  | nil => rfl
  | cons tag tags ih =>
    rw [flattenTags_cons, List.length_cons, List.length_cons, ih, List.length_cons]
    omega

/-- Tags that were flattened are paired again. -/
@[simp] theorem pairsOf_flattenTags (tags : List (Int × Int)) :
    pairsOf (flattenTags tags) = tags := by
  induction tags with
  | nil => rfl
  | cons tag tags ih => rw [flattenTags_cons, pairsOf, ih]

/-- Pairs are flattened to what they were made of, if nothing was left over. -/
theorem flattenTags_pairsOf {entries : List Int} (h : Even entries.length) :
    flattenTags (pairsOf entries) = entries := by
  fun_induction pairsOf entries with
  | case1 a b rest ih =>
    have hrest : Even rest.length := by
      rw [List.length_cons, List.length_cons, Nat.add_assoc] at h
      exact (Nat.even_add.mp h).mpr (by decide)
    rw [flattenTags_cons, ih hrest]
  | case2 entries hshort =>
    rcases entries with _ | ⟨a, _ | ⟨b, rest⟩⟩
    · rfl
    · exact absurd h Nat.not_even_one
    · exact (hshort a b rest rfl).elim

/-- Where a zero stands for a key, the tags end. -/
theorem tagsEnd_of_zero (before after : List Int) :
    tagsEnd (before ++ 0 :: after).toArray before.length = before.length := by
  rw [tagsEnd]
  split
  case isTrue => simp
  case isFalse => rfl

/-- A pair with a key is passed over. -/
theorem tagsEnd_of_pair {key : Int} (value : Int) (before after : List Int) (hkey : key ≠ 0) :
    tagsEnd (before ++ key :: value :: after).toArray before.length =
      tagsEnd (before ++ key :: value :: after).toArray (before.length + 2) := by
  have hlt : before.length + 1 < (before ++ key :: value :: after).toArray.size := by simp
  rw [tagsEnd, dif_pos hlt]
  simp [hkey]

/-- Tags end at the zero that follows them, if none of their keys is zero. -/
theorem tagsEnd_flattenTags {tags : List (Int × Int)} (hkeys : ∀ tag ∈ tags, tag.1 ≠ 0)
    (before after : List Int) :
    tagsEnd (before ++ (flattenTags tags ++ 0 :: after)).toArray before.length =
      before.length + 2 * tags.length := by
  induction tags generalizing before with
  | nil => exact tagsEnd_of_zero before after
  | cons tag tags ih =>
    have hlater := ih (fun t ht => hkeys t (List.mem_cons_of_mem tag ht))
      (before ++ [tag.1, tag.2])
    have hkey : tag.1 ≠ 0 := hkeys tag List.mem_cons_self
    rw [List.append_assoc, List.length_append] at hlater
    calc tagsEnd (before ++ (flattenTags (tag :: tags) ++ 0 :: after)).toArray before.length
        = tagsEnd (before ++ (flattenTags (tag :: tags) ++ 0 :: after)).toArray
            (before.length + 2) := tagsEnd_of_pair tag.2 before _ hkey
      _ = before.length + 2 + 2 * tags.length := hlater
      _ = before.length + 2 * (tag :: tags).length := by rw [List.length_cons]; omega

/-- The place of tags that a zero follows. The next ones start after the zero. -/
theorem tagRange_flattenTags {tags : List (Int × Int)} (hkeys : ∀ tag ∈ tags, tag.1 ≠ 0)
    (before after : List Int) :
    tagRange (before ++ (flattenTags tags ++ 0 :: after)).toArray before.length =
      ⟨before.length, before.length + 2 * tags.length, before.length + 2 * tags.length + 1⟩ := by
  have hsize : before.length + 2 * tags.length + 1 ≤
      (before ++ (flattenTags tags ++ 0 :: after)).toArray.size := by
    rw [List.size_toArray, List.length_append, List.length_append, length_flattenTags,
      List.length_cons]
    omega
  simp only [tagRange, tagsEnd_flattenTags hkeys, Nat.min_eq_left hsize]

/-- At their place stand the tags. -/
theorem extract_flattenTags (tags : List (Int × Int)) (before after : List Int) :
    ((before ++ (flattenTags tags ++ 0 :: after)).toArray.extract before.length
      (before.length + 2 * tags.length)).toList = flattenTags tags := by
  rw [Array.toList_extract, List.extract_eq_take_drop, Nat.add_sub_cancel_left,
    List.drop_left, ← length_flattenTags, List.take_left]

end MapArchive
