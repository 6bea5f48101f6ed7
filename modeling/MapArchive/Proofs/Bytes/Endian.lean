import Mathlib.Algebra.Group.Nat.Defs
import MapArchive.Bytes.Endian

/-!
# Reading what was written: numbers of fixed length

Reading what was written gives the number modulo a power of 256.
-/

namespace MapArchive.Endian

/-- Reversing the bytes changes the order in which they are read. -/
theorem ofBig_reverse (bytes : List UInt8) : ofBig bytes.reverse = ofLittle bytes := by
  simp [ofBig, ofLittle, List.foldl_reverse]

/-- The bytes of a number, lowest first, give its remainder. -/
theorem ofLittle_little (count n : Nat) : ofLittle (little count n) = n % 256 ^ count := by
  induction count generalizing n with
  | zero => simp [little, ofLittle, Nat.mod_one]
  | succ count ih =>
    have hstep : ofLittle (little (count + 1) n) =
        n % 256 + 256 * ofLittle (little count (n / 256)) := rfl
    rw [hstep, ih, Nat.pow_succ', Nat.mod_mul]

/-- The bytes of a number, highest first, give its remainder. -/
theorem ofBig_big (count n : Nat) : ofBig (big count n) = n % 256 ^ count := by
  rw [big, ofBig_reverse, ofLittle_little]

end MapArchive.Endian
