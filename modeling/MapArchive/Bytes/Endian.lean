import MapArchive.Bytes.Cursor

/-!
# Numbers of fixed length

A number is written in a fixed count of bytes, the lowest first or the highest first. What does not
fit is lost.
-/

namespace MapArchive.Endian

/-- The number that bytes stand for, the lowest first. -/
def ofLittle (bytes : List UInt8) : Nat := bytes.foldr (fun byte n => byte.toNat + 256 * n) 0

/-- The number that bytes stand for, the highest first. -/
def ofBig (bytes : List UInt8) : Nat := bytes.foldl (fun n byte => byte.toNat + 256 * n) 0

/-- Writes a number in so many bytes, the lowest first. -/
def little : (count n : Nat) → List UInt8
  | 0, _ => []
  | count + 1, n => UInt8.ofNat n :: little count (n / 256)

/-- Writes a number in so many bytes, the highest first. -/
def big (count n : Nat) : List UInt8 := (little count n).reverse

/-- A number is written in as many bytes as are asked for. -/
@[simp] theorem length_little (count n : Nat) : (little count n).length = count := by
  induction count generalizing n with
  | zero => rfl
  | succ count ih => simp [little, ih]

/-- The order of the bytes does not change how many there are. -/
@[simp] theorem length_big (count n : Nat) : (big count n).length = count := by
  simp [big]

end MapArchive.Endian
