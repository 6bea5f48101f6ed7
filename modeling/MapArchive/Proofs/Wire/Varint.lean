import Mathlib.Algebra.Group.Nat.Defs
import MapArchive.Wire.Varint

/-!
# Reading what was written: numbers of variable length

A cursor reads what its unread bytes start with. The lemmas here have one form: if the unread bytes
are what a value is written as, and more, then the value is read and what is left is `more`. The
bytes that follow are never looked at.
-/

namespace MapArchive

namespace Cursor

/-- The first of the unread bytes is read. -/
theorem next?_of_rest {c : Cursor} {b : UInt8} {more : List UInt8} (h : c.rest = b :: more) :
    ∃ d, c.next? = some (b, d) ∧ d.rest = more := by
  cases hnext : c.next? with
  | none =>
    rw [(next?_eq_none_iff c).1 hnext] at h
    cases h
  | some pair =>
    obtain ⟨a, d⟩ := pair
    have hrest := rest_of_next? hnext
    rw [h] at hrest
    cases hrest
    exact ⟨d, rfl, rfl⟩

/-- The first of the unread bytes, as many as are asked for, are read. -/
theorem take?_of_rest {c : Cursor} {part more : List UInt8} (h : c.rest = part ++ more) :
    ∃ d, c.take? part.length = some (ofOctets part, d) ∧ d.rest = more := by
  have hlength : part.length ≤ c.remaining := by
    rw [← length_rest, h, List.length_append]
    omega
  cases htake : c.take? part.length with
  | none =>
    have hlt := (take?_eq_none_iff c part.length).1 htake
    omega
  | some pair =>
    obtain ⟨found, d⟩ := pair
    have hrest := rest_of_take? htake
    have hsize := size_of_take? htake
    rw [h] at hrest
    obtain ⟨hpart, hmore⟩ := List.append_inj hrest (by rw [length_octets, hsize])
    refine ⟨d, ?_, hmore.symm⟩
    rw [hpart, ofOctets_octets]

/-- A byte string is read if the unread bytes start with it. -/
theorem take?_octets {c : Cursor} {part : ByteArray} {more : List UInt8}
    (h : c.rest = octets part ++ more) :
    ∃ d, c.take? part.size = some (part, d) ∧ d.rest = more := by
  have hread := take?_of_rest h
  rwa [length_octets, ofOctets_octets] at hread

end Cursor

namespace Varint

/-- A number that fits the budget is read back. -/
theorem groups_writeNat {budget n : Nat} {c : Cursor} {more : List UInt8} (hbudget : 0 < budget)
    (hn : n < 128 ^ budget) (h : c.rest = writeNat n ++ more) :
    ∃ d, groups budget c = some (n, d) ∧ d.rest = more := by
  induction budget generalizing n c with
  | zero => omega
  | succ budget ih =>
    by_cases hlt : n < 128
    · rw [writeNat, if_pos hlt] at h
      obtain ⟨d, hnext, hrest⟩ := Cursor.next?_of_rest h
      have hbyte : n.toUInt8.toNat = n := by simp; omega
      have hlow : n.toUInt8 < 0x80 := by rw [UInt8.lt_iff_toNat_lt, hbyte]; exact hlt
      refine ⟨d, ?_, hrest⟩
      rw [groups, hnext]
      simp only [if_pos hlow, hbyte]
    · rw [writeNat, if_neg hlt] at h
      obtain ⟨d, hnext, hrest⟩ := Cursor.next?_of_rest h
      have hbyte : (n % 128 + 128).toUInt8.toNat = n % 128 + 128 := by simp; omega
      have hhigh : ¬(n % 128 + 128).toUInt8 < 0x80 := by
        rw [UInt8.lt_iff_toNat_lt, hbyte, show (0x80 : UInt8).toNat = 128 from rfl]
        omega
      have hquotient : n / 128 < 128 ^ budget := by
        rw [Nat.pow_succ] at hn
        exact Nat.div_lt_of_lt_mul (by rw [Nat.mul_comm]; exact hn)
      have hpos : 0 < budget := by
        rcases Nat.eq_zero_or_pos budget with rfl | hpos
        · omega
        · exact hpos
      obtain ⟨e, hgroups, hmore⟩ := ih hpos hquotient hrest
      have hsum : (n % 128 + 128) % 128 + 128 * (n / 128) = n := by omega
      refine ⟨e, ?_, hmore⟩
      rw [groups, hnext]
      simp only [if_neg hhigh, hgroups, hbyte, hsum]

/-- Every word of 64 bits is read back. -/
theorem read_write {v : UInt64} {c : Cursor} {more : List UInt8} (h : c.rest = write v ++ more) :
    ∃ d, read c = some (v, d) ∧ d.rest = more := by
  have hv : v.toNat < 128 ^ maxLength := by
    have := v.toNat_lt
    simp only [maxLength]
    omega
  obtain ⟨d, hgroups, hmore⟩ := groups_writeNat (by decide) hv h
  refine ⟨d, ?_, hmore⟩
  simp only [read, hgroups, Nat.toUInt64, UInt64.ofNat_toNat]

/-- A number of at most 35 bits is read back where it says what follows it. -/
theorem readShort_writeNat {n : Nat} {c : Cursor} {more : List UInt8} (hn : n < 2 ^ 35)
    (h : c.rest = writeNat n ++ more) : ∃ d, readShort c = some (n, d) ∧ d.rest = more := by
  have hbudget : n < 128 ^ maxShortLength := Nat.lt_of_lt_of_le hn (by decide)
  exact groups_writeNat (by decide) hbudget h

/-- A number that fits the budget takes no more bytes than that. -/
theorem length_writeNat_le {budget n : Nat} (hbudget : 0 < budget) (hn : n < 128 ^ budget) :
    (writeNat n).length ≤ budget := by
  induction budget generalizing n with
  | zero => omega
  | succ budget ih =>
    rw [writeNat]
    split
    case isTrue => exact Nat.le_add_left 1 budget
    case isFalse hlt =>
      have hquotient : n / 128 < 128 ^ budget := by
        rw [Nat.pow_succ] at hn
        exact Nat.div_lt_of_lt_mul (by rw [Nat.mul_comm]; exact hn)
      have hpos : 0 < budget := by
        rcases Nat.eq_zero_or_pos budget with rfl | hpos
        · omega
        · exact hpos
      rw [List.length_cons]
      exact Nat.succ_le_succ (ih hpos hquotient)

/-- A word takes at most ten bytes. -/
theorem length_write_le (v : UInt64) : (write v).length ≤ maxLength := by
  have hv : v.toNat < 128 ^ maxLength := by
    have := v.toNat_lt
    simp only [maxLength]
    omega
  exact length_writeNat_le (by decide) hv

end Varint

end MapArchive
