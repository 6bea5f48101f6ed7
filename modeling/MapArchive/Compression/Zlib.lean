import MapArchive.Compression.Checksum
import MapArchive.Compression.Inflate

/-!
# Zlib streams

A zlib stream is deflated data between a header of two bytes and a checksum of the output. Streams
which need a dictionary are refused.
-/

namespace MapArchive.Zlib

/-- Decodes a zlib stream. -/
def decoder : Decoder Unit := do
  let header ← Decoder.bigEndian 2
  Decoder.require (header % 31 = 0)
  let method := header / 256
  Decoder.require (method % 16 = 8 && method / 16 ≤ 7)
  if header.testBit 5 then
    let _ ← Decoder.bigEndian 4
    Decoder.corrupt
  Inflate.inflate
  let checksum ← Decoder.bigEndian 4
  Decoder.require (checksum = Adler32.checksum (← Decoder.review 0))

end MapArchive.Zlib
