/-!
# UTF-8, written and read

`encode` writes characters as bytes and `decode` reads them back strictly: no overlong form, no
surrogate, nothing above U+10FFFF. The reader looks at one byte at a time and refuses at the first
byte that rules the text out, so its three faults say precisely what was wrong: the byte cannot
start a character, the byte cannot go on the character begun, or the bytes ended inside one.
-/

namespace MapArchive.Utf8

/-- The bytes of one character. -/
def encodeChar (c : Char) : List UInt8 :=
  let n := c.toNat
  if n < 0x80 then [n.toUInt8]
  else if n < 0x800 then [(0xC0 + n / 64).toUInt8, (0x80 + n % 64).toUInt8]
  else if n < 0x10000 then
    [(0xE0 + n / 4096).toUInt8, (0x80 + n / 64 % 64).toUInt8, (0x80 + n % 64).toUInt8]
  else
    [(0xF0 + n / 262144).toUInt8, (0x80 + n / 4096 % 64).toUInt8, (0x80 + n / 64 % 64).toUInt8,
      (0x80 + n % 64).toUInt8]

/-- The bytes of a text. -/
def encode (text : List Char) : List UInt8 := text.flatMap encodeChar

/-- What makes bytes no UTF-8. -/
inductive Fault where
  /-- A byte that starts no character stands where one has to start. -/
  | invalidStart
  /-- The bytes end inside of a character. -/
  | unexpectedEnd
  /-- A byte that cannot go on the character begun stands inside of it. -/
  | invalidContinuation
  deriving DecidableEq, Repr

/-- The words for a fault. -/
def Fault.reason : Fault → String
  | .invalidStart => "invalid start byte"
  | .unexpectedEnd => "unexpected end of data"
  | .invalidContinuation => "invalid continuation byte"

/-- A character of which some bytes have been read. -/
structure Pending where
  /-- Bytes still owed after the next one. -/
  owed : Nat
  /-- Least next byte. -/
  low : UInt8
  /-- Greatest next byte. -/
  high : UInt8
  /-- The number made of the payload bits read so far. -/
  bits : Nat
  deriving DecidableEq, Repr

/-- What a byte brings about: a whole character, or one to be gone on with. -/
inductive Progress where
  /-- The character is complete. -/
  | char (c : Char)
  /-- More bytes are needed. -/
  | more (p : Pending)

/-- The first byte of a character. The second byte is restricted after `E0`, `ED`, `F0` and `F4`,
which keeps out overlong forms, surrogates and numbers above U+10FFFF. -/
def start (b : UInt8) : Except Fault Progress :=
  if b < 0x80 then .ok (.char (Char.ofNat b.toNat))
  else if b < 0xC2 then .error .invalidStart
  else if b < 0xE0 then .ok (.more ⟨0, 0x80, 0xBF, b.toNat - 0xC0⟩)
  else if b < 0xF0 then
    let low := if b = 0xE0 then 0xA0 else 0x80
    let high := if b = 0xED then 0x9F else 0xBF
    .ok (.more ⟨1, low, high, b.toNat - 0xE0⟩)
  else if b < 0xF5 then
    let low := if b = 0xF0 then 0x90 else 0x80
    let high := if b = 0xF4 then 0x8F else 0xBF
    .ok (.more ⟨2, low, high, b.toNat - 0xF0⟩)
  else .error .invalidStart

/-- A later byte of a character. -/
def Pending.step (p : Pending) (b : UInt8) : Except Fault Progress :=
  if p.low ≤ b ∧ b ≤ p.high then
    let bits := p.bits * 64 + (b.toNat - 0x80)
    match p.owed with
    | 0 => .ok (.char (Char.ofNat bits))
    | owed + 1 => .ok (.more ⟨owed, 0x80, 0xBF, bits⟩)
  else .error .invalidContinuation

/-- Reads on after the characters `seen` (the last one first) and the bytes of a `pending` one. -/
def decodeOnto (seen : List Char) (pending : Option Pending) :
    List UInt8 → Except Fault (List Char)
  | [] =>
    match pending with
    | none => .ok seen.reverse
    | some _ => .error .unexpectedEnd
  | b :: rest =>
    match (match pending with | none => start b | some p => p.step b) with
    | .ok (.char c) => decodeOnto (c :: seen) none rest
    | .ok (.more p) => decodeOnto seen (some p) rest
    | .error fault => .error fault

/-- Reads bytes as text. -/
def decode (bytes : List UInt8) : Except Fault (List Char) := decodeOnto [] none bytes

end MapArchive.Utf8
