/-!
# Checksums

The checksums that compressed streams carry. `Adler32` is a pair of sums modulo a prime. The
cyclic redundancy checks are remainders of division by a polynomial over the field of two elements,
computed a byte at a time by means of a table; they come with the lowest bit of each byte first, of
32 or 64 bits, and with the highest bit first.
-/

namespace MapArchive

namespace Adler32

/-- The greatest prime below 2¹⁶. -/
def modulus : Nat := 65521

/-- The pair of sums after one more byte. -/
def add (sums : Nat × Nat) (byte : UInt8) : Nat × Nat :=
  let low := (sums.1 + byte.toNat) % modulus
  (low, (sums.2 + low) % modulus)

/-- The checksum of a byte string. -/
def checksum (bytes : ByteArray) : Nat :=
  let (low, high) := bytes.foldl add (1, 0)
  high * 0x10000 + low

end Adler32

namespace Crc32

/-- Divides one bit further, lowest bit first. -/
def shift (r : UInt32) : UInt32 := if r &&& 1 = 1 then (r >>> 1) ^^^ 0xEDB88320 else r >>> 1

/-- The remainders of all bytes. -/
def table : Array UInt32 :=
  (Array.range 256).map fun byte => (List.range 8).foldl (fun r _ => shift r) (UInt32.ofNat byte)

/-- The remainder after one more byte. -/
def add (r : UInt32) (byte : UInt8) : UInt32 :=
  table.getD (r ^^^ byte.toUInt32).toUInt8.toNat 0 ^^^ (r >>> 8)

/-- The checksum of a byte string. -/
def checksum (bytes : ByteArray) : UInt32 := bytes.foldl add 0xFFFFFFFF ^^^ 0xFFFFFFFF

end Crc32

namespace Crc64

/-- Divides one bit further, lowest bit first. -/
def shift (r : UInt64) : UInt64 :=
  if r &&& 1 = 1 then (r >>> 1) ^^^ 0xC96C5795D7870F42 else r >>> 1

/-- The remainders of all bytes. -/
def table : Array UInt64 :=
  (Array.range 256).map fun byte => (List.range 8).foldl (fun r _ => shift r) (UInt64.ofNat byte)

/-- The remainder after one more byte. -/
def add (r : UInt64) (byte : UInt8) : UInt64 :=
  table.getD (r ^^^ byte.toUInt64).toUInt8.toNat 0 ^^^ (r >>> 8)

/-- The checksum of a byte string. -/
def checksum (bytes : ByteArray) : UInt64 :=
  bytes.foldl add 0xFFFFFFFFFFFFFFFF ^^^ 0xFFFFFFFFFFFFFFFF

end Crc64

namespace HighCrc32

/-- Divides one bit further, highest bit first. -/
def shift (r : UInt32) : UInt32 :=
  if r &&& 0x80000000 = 0 then r <<< 1 else (r <<< 1) ^^^ 0x04C11DB7

/-- The remainders of all bytes. -/
def table : Array UInt32 :=
  (Array.range 256).map fun byte =>
    (List.range 8).foldl (fun r _ => shift r) (UInt32.ofNat byte <<< 24)

/-- The remainder after one more byte. -/
def add (r : UInt32) (byte : UInt8) : UInt32 :=
  table.getD ((r >>> 24) ^^^ byte.toUInt32).toUInt8.toNat 0 ^^^ (r <<< 8)

/-- The checksum of a byte string. -/
def checksum (bytes : ByteArray) : UInt32 := bytes.foldl add 0xFFFFFFFF ^^^ 0xFFFFFFFF

end HighCrc32

end MapArchive
