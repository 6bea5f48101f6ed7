/-!
# Signed numbers folded onto unsigned ones

Small negative numbers would need long varints if their sign were spread over the high bits. The
fold sends 0, -1, 1, -2, … to 0, 1, 2, 3, …, on words of 32 and of 64 bits. Unfolding undoes it.
-/

namespace MapArchive.Zigzag

/-- Folds a word read as a signed number. -/
def fold64 (n : UInt64) : UInt64 :=
  if 0x8000000000000000 ≤ n then ~~~(2 * n) else 2 * n

/-- Undoes `fold64`. -/
def unfold64 (n : UInt64) : UInt64 := if n % 2 = 0 then n / 2 else ~~~(n / 2)

/-- Folds a word read as a signed number. -/
def fold32 (n : UInt32) : UInt32 := if 0x80000000 ≤ n then ~~~(2 * n) else 2 * n

/-- Undoes `fold32`. -/
def unfold32 (n : UInt32) : UInt32 := if n % 2 = 0 then n / 2 else ~~~(n / 2)

/-- Unfolding undoes folding, in 64 bits. -/
@[simp] theorem unfold64_fold64 (n : UInt64) : unfold64 (fold64 n) = n := by
  have hn := n.toNat_lt
  apply UInt64.toNat_inj.1
  have hle : 0x8000000000000000 ≤ n ↔ 2 ^ 63 ≤ n.toNat := by
    rw [UInt64.le_iff_toNat_le]; simp
  have hnot (m : UInt64) : (~~~m).toNat = 2 ^ 64 - 1 - m.toNat := by
    rw [← UInt64.toNat_toBitVec]; simp
  have hhalf (m : UInt64) : (m / 2).toNat = m.toNat / 2 := by simp
  have htwice (m : UInt64) : (2 * m).toNat = 2 * m.toNat % 2 ^ 64 := by simp [UInt64.toNat_mul]
  have hmod (m : UInt64) : m % 2 = 0 ↔ m.toNat % 2 = 0 := by rw [← UInt64.toNat_inj]; simp
  unfold unfold64 fold64
  simp only [hle, hmod]
  split <;> split <;> rename_i h1 h2 <;> simp only [hnot, hhalf, htwice] at * <;> omega

/-- Unfolding undoes folding, in 32 bits. -/
@[simp] theorem unfold32_fold32 (n : UInt32) : unfold32 (fold32 n) = n := by
  have hn := n.toNat_lt
  apply UInt32.toNat_inj.1
  have hle : 0x80000000 ≤ n ↔ 2 ^ 31 ≤ n.toNat := by
    rw [UInt32.le_iff_toNat_le]; simp
  have hnot (m : UInt32) : (~~~m).toNat = 2 ^ 32 - 1 - m.toNat := by
    rw [← UInt32.toNat_toBitVec]; simp
  have hhalf (m : UInt32) : (m / 2).toNat = m.toNat / 2 := by simp
  have htwice (m : UInt32) : (2 * m).toNat = 2 * m.toNat % 2 ^ 32 := by simp [UInt32.toNat_mul]
  have hmod (m : UInt32) : m % 2 = 0 ↔ m.toNat % 2 = 0 := by rw [← UInt32.toNat_inj]; simp
  unfold unfold32 fold32
  simp only [hle, hmod]
  split <;> split <;> rename_i h1 h2 <;> simp only [hnot, hhalf, htwice] at * <;> omega

end MapArchive.Zigzag
