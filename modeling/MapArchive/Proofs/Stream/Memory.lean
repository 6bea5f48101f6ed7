import MapArchive.Stream.Memory

/-!
# The unread bytes of a stream in memory

What a stream in memory gives is decided by its unread bytes alone. Reading takes bytes off their
front, and the position goes on by as many.
-/

namespace MapArchive.MemoryStream

/-- The bytes still to come. -/
def rest (s : MemoryStream) : List UInt8 := (octets s.bytes).drop s.position

/-- As many bytes are unread as remain. -/
@[simp] theorem length_rest (s : MemoryStream) : s.rest.length = s.remaining := by
  simp [rest, remaining]

/-- What is read are the first of the unread bytes. -/
theorem octets_read (n : Nat) (s : MemoryStream) : octets (s.read n).1 = s.rest.take n := by
  simp [read, rest, octets, List.extract_eq_take_drop]

/-- The stream further on. -/
def skip (n : Nat) (s : MemoryStream) : MemoryStream := { s with position := s.position + n }

/-- Bytes may be passed over in two parts. -/
@[simp] theorem skip_skip (m n : Nat) (s : MemoryStream) : (s.skip m).skip n = s.skip (m + n) := by
  simp only [skip, Nat.add_assoc]

/-- Behind a part of the unread bytes the other ones are left. -/
theorem rest_skip {s : MemoryStream} {part more : List UInt8} (h : s.rest = part ++ more) :
    (s.skip part.length).rest = more := by
  have hrest : (s.skip part.length).rest = s.rest.drop part.length := by
    rw [rest, rest, List.drop_drop]
    rfl
  rw [hrest, h, List.drop_left]

/-- Reading as many bytes as a part of the unread ones has gives that part. -/
theorem read_of_rest {s : MemoryStream} {part more : List UInt8} (h : s.rest = part ++ more) :
    ByteStream.read part.length s = (.ok (ofOctets part), s.skip part.length) := by
  have hread : (s.read part.length).1 = ofOctets part := by
    rw [← ofOctets_octets (s.read part.length).1, octets_read, h, List.take_left]
  have hsize : (ofOctets part).size = part.length := by
    rw [← length_octets, octets_ofOctets]
  refine Prod.ext (congrArg Except.ok hread) ?_
  show { s with position := s.position + (s.read part.length).1.size } = s.skip part.length
  rw [hread, hsize]
  rfl

/-- At the end nothing is read and nothing changes. -/
theorem read_of_rest_nil {s : MemoryStream} (h : s.rest = []) (n : Nat) :
    ByteStream.read n s = (.ok ByteArray.empty, s) := by
  have hread := octets_read n s
  rw [h, List.take_nil] at hread
  have hempty : (s.read n).1 = ByteArray.empty := by rw [← ofOctets_octets (s.read n).1, hread]; rfl
  refine Prod.ext (congrArg Except.ok hempty) ?_
  show (⟨s.bytes, s.position + (s.read n).1.size⟩ : MemoryStream) = s
  rw [hempty]
  rfl

/-- A read takes no more off the unread bytes than was asked for. -/
theorem remaining_le_read (n : Nat) (s : MemoryStream) :
    s.remaining ≤ (ByteStream.read n s).2.remaining + n := by
  have hsum := remaining_of_read n s
  have hsize := size_of_read n s
  show s.remaining ≤ (s.read n).2.remaining + n
  omega

end MapArchive.MemoryStream
