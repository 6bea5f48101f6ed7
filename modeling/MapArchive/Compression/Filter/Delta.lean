import MapArchive.Compression.Converter

/-!
# Differences of bytes

Each byte is stored as its difference to the byte some places before. Before the first byte there
are only zeros.
-/

namespace MapArchive.Delta

/-- Adds to each byte the converted byte `distance` places before. The last converted bytes are kept
by their places modulo the distance. -/
def converter (distance : Nat) : Converter where
  State := ByteArray
  start := ofOctets (List.replicate distance 0)
  reach := 1
  step bytes place kept :=
    let slot := place % distance
    let byte := byteAt bytes place + byteAt kept slot
    ([byte], kept.set! slot byte)
  length_step_le _ _ _ := Nat.le_refl _

end MapArchive.Delta
