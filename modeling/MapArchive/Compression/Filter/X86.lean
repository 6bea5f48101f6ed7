import MapArchive.Bytes.Endian
import MapArchive.Compression.Converter

/-!
# Branches in x86 code

Instructions of this architecture have no fixed length, so a byte that is the code of a call or a
jump need not be one: it may stand within another instruction. It is taken for a branch if the
highest of the four bytes after it is all zeros or all ones, as for targets that are not far away,
and if it does not stand among the bytes of an earlier such code which was not taken for one. Those
bytes are remembered for that purpose. The target is told relative to the end of the instruction,
and becomes so again.
-/

namespace MapArchive.X86

/-- The codes of calls and jumps. -/
def isCode (byte : UInt8) : Bool := byte = 0xE8 || byte = 0xE9

/-- The highest byte of a target that is not far away. -/
def isNear (byte : UInt8) : Bool := byte = 0 || byte = 0xFF

/-- The codes shortly before a place that were not taken for branches. -/
structure Recent where
  /-- Bit `n`, from 0 to 3, tells that such a code is `n` places before, and bit `n + 4` that the
  highest byte of its target was that of one not far away. -/
  marks : UInt32
  /-- The place five after the last code. -/
  afterCode : Nat

/-- The marks at a place so much further on. -/
def aged (distance : Nat) (marks : UInt32) : UInt32 :=
  (List.range (min distance 4)).foldl (fun marks _ => (marks &&& 0x77) <<< 1) marks

/-- How many places before the only earlier code is, or zero if there is none. With more of them, or
if the target of the earlier one was not far away, a code is not taken for a branch. -/
def earlier? (marks : UInt32) : Option UInt32 :=
  if marks = 0 then some 0
  else if marks = 2 then some 1
  else if marks = 4 then some 2
  else if marks = 8 then some 3
  else none

/-- Makes a target relative to an address. If this gives an earlier code, so many places before, a
target that is not far away, the bytes up to the highest of that target were inverted. -/
def relative (address earlier target : UInt32) : UInt32 :=
  let moved := target - address
  if earlier ≠ 0 ∧ isNear (moved >>> (24 - 8 * earlier)).toUInt8 then
    (moved ^^^ ((1 <<< (32 - 8 * earlier)) - 1)) - address
  else moved

/-- The bytes of a target. The highest one repeats the lowest of its bits. -/
def targetBytes (target : UInt32) : List UInt8 :=
  Endian.little 3 target.toNat ++ [if target &&& 0x1000000 = 0 then 0 else 0xFF]

/-- Converts the branches of code whose first byte is at the address `start`. -/
def converter (start : Nat) : Converter where
  State := Recent
  start := ⟨0, 0⟩
  reach := 5
  step bytes place recent :=
    let code := byteAt bytes place
    if isCode code then
      let marks := aged (place + 5 - recent.afterCode) recent.marks
      let near := isNear (byteAt bytes (place + 4))
      match near, earlier? marks with
      | true, some earlier =>
        let stored := Endian.ofLittle ((List.range 4).map fun n => byteAt bytes (place + 1 + n))
        let address := UInt32.ofNat (start + place + 5)
        (code :: targetBytes (relative address earlier stored.toUInt32), ⟨0, place + 5⟩)
      | _, _ => ([code], ⟨marks ||| (if near then 0x11 else 0x01), place + 5⟩)
    else ([code], recent)
  length_step_le bytes place recent := by
    dsimp only
    split
    · split
      · simp [targetBytes]
      · simp
    · simp

end MapArchive.X86
