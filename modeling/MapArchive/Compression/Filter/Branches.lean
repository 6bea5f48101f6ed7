import MapArchive.Bytes.Endian
import MapArchive.Compression.Converter

/-!
# Branches in machine code

A branch instruction tells its target relative to its own address. In stored code the targets are
absolute, so that all branches to one place look alike. Here they become relative again: some bits
of the instruction count units up to the target, and they are lessened by the instruction's address
in the same units.

Of each architecture only the commonest instructions are converted, which are found by the bits
that tell them from others. The functions here convert the instruction at an address; what is no
such branch stays as it is.
-/

namespace MapArchive.Branches

/-- The `count` bits of a number from bit `low` on. -/
@[inline] def bits (n low count : Nat) : Nat := (n >>> low) % (1 <<< count)

/-- A target of `count` bits, made relative to an address in the same units. -/
@[inline] def relative (target address count : Nat) : Nat :=
  bits (target + (1 <<< count) - bits address 0 count) 0 count

/-- PowerPC: relative branches that keep the return address, in words with the highest byte first.
Bits 2 to 25 count words. -/
def powerPC (address : Nat) (bytes : List UInt8) : List UInt8 :=
  match bytes with
  | [b₃, _, _, b₀] =>
    if b₃ &&& 0xFC = 0x48 ∧ b₀ &&& 0x03 = 0x01 then
      let target := relative (bits (Endian.ofBig bytes) 2 24) (address / 4) 24
      Endian.big 4 (0x48000001 + target * 4)
    else bytes
  | _ => bytes

/-- ARM: branches that keep the return address, in words with the lowest byte first. Bits 0 to 23
count words from two words after the instruction. -/
def arm (address : Nat) (bytes : List UInt8) : List UInt8 :=
  match bytes with
  | [b₀, b₁, b₂, 0xEB] =>
    Endian.little 3 (relative (Endian.ofLittle [b₀, b₁, b₂]) ((address + 8) / 4) 24) ++ [0xEB]
  | _ => bytes

/-- ARM with short instructions: a branch that keeps the return address is a pair of them. Each has
eleven bits of a number of half words, from two half words after the first one, and the higher bits
come first. What is no branch is passed over by half words. -/
def armThumb (address : Nat) (bytes : List UInt8) : List UInt8 :=
  match bytes with
  | [b₀, b₁, b₂, b₃] =>
    if b₁ &&& 0xF8 = 0xF0 ∧ b₃ &&& 0xF8 = 0xF8 then
      let high := bits (Endian.ofLittle [b₀, b₁]) 0 11
      let low := bits (Endian.ofLittle [b₂, b₃]) 0 11
      let target := relative (high * 0x800 + low) ((address + 4) / 2) 22
      Endian.little 2 (0xF000 + bits target 11 11) ++ Endian.little 2 (0xF800 + bits target 0 11)
    else [b₀, b₁]
  | _ => bytes

/-- SPARC: calls, in words with the highest byte first. Bits 0 to 29 count words. Only targets are
converted that 23 bits can hold with their sign. -/
def sparc (address : Nat) (bytes : List UInt8) : List UInt8 :=
  match bytes with
  | [b₃, b₂, _, _] =>
    if (b₃ = 0x40 ∧ b₂ &&& 0xC0 = 0) ∨ (b₃ = 0x7F ∧ b₂ &&& 0xC0 = 0xC0) then
      let target := relative (bits (Endian.ofBig bytes) 0 30) (address / 4) 30
      Endian.big 4 (0x40000000 + bits target 22 1 * 0x3FC00000 + bits target 0 22)
    else bytes
  | _ => bytes

/-- ARM with 64 bits: the address of a page. The number of the page has its lowest two bits in bits
29 and 30 and the others in bits 5 to 23. Only numbers are converted that 18 bits can hold with
their sign. -/
def arm64Page (address word : Nat) : Nat :=
  let page := bits word 5 19 * 4 + bits word 29 2
  if bits (page + 0x20000) 18 3 = 0 then
    let target := relative page (address / 0x1000) 21
    0x90000000 + bits target 0 2 * 0x20000000 + bits target 17 1 * 0xE00000 +
      bits target 2 16 * 0x20 + bits word 0 5
  else word

/-- ARM with 64 bits, in words with the lowest byte first: branches that keep the return address,
whose bits 0 to 25 count words, and addresses of pages. -/
def arm64 (address : Nat) (bytes : List UInt8) : List UInt8 :=
  match bytes with
  | [_, _, _, b₃] =>
    if b₃ &&& 0xFC = 0x94 then
      let target := relative (bits (Endian.ofLittle bytes) 0 26) (address / 4) 26
      Endian.little 4 (0x94000000 + target)
    else if b₃ &&& 0x9F = 0x90 then Endian.little 4 (arm64Page address (Endian.ofLittle bytes))
    else bytes
  | _ => bytes

/-- IA-64: an instruction of 41 bits. Bits 13 to 32 and, above these, bit 36 count bundles. -/
def ia64Instruction (address instruction : Nat) : Nat :=
  if bits instruction 37 4 = 5 ∧ bits instruction 9 3 = 0 then
    let stored := bits instruction 36 1 <<< 20 + bits instruction 13 20
    let target := relative stored (address / 16) 21
    bits instruction 0 13 + bits target 0 20 <<< 13 + bits instruction 33 3 <<< 33 +
      bits target 20 1 <<< 36 + bits instruction 37 4 <<< 37
  else instruction

/-- IA-64: which of the three instructions in a bundle can be branches, by the number which stands
for the kinds of the instructions. -/
def ia64Slots (kinds : UInt8) : List Nat :=
  if kinds ∈ [16, 17, 24, 25, 28, 29] then [2]
  else if kinds ∈ [18, 19] then [1, 2]
  else if kinds ∈ [22, 23] then [0, 1, 2]
  else []

/-- IA-64: converts an instruction of a bundle. The instructions follow upon five other bits, and
each is within six bytes. -/
def ia64Slot (address slot : Nat) (bytes : List UInt8) : List UInt8 :=
  let low := 5 + 41 * slot
  let place := low / 8
  let shift := low % 8
  let before := bytes.take place
  let after := bytes.drop place
  let six := Endian.ofLittle (after.take 6)
  let converted := ia64Instruction address (bits six shift 41)
  let above := (six >>> (shift + 41)) <<< (shift + 41)
  before ++ Endian.little 6 (bits six 0 shift + converted <<< shift + above) ++ after.drop 6

/-- IA-64: bundles of 16 bytes, the lowest first. The lowest five bits tell the kinds of the
instructions. -/
def ia64 (address : Nat) (bytes : List UInt8) : List UInt8 :=
  let slots := ia64Slots (bytes.headD 0 &&& 0x1F)
  slots.foldl (fun bytes slot => ia64Slot address slot bytes) bytes

/-- The `count` bytes from a place on. -/
def bytesAt (bytes : ByteArray) : (place count : Nat) → List UInt8
  | _, 0 => []
  | place, count + 1 => byteAt bytes place :: bytesAt bytes (place + 1) count

/-- As many bytes are read as are asked for, whether or not they are there. -/
@[simp] theorem length_bytesAt (bytes : ByteArray) (place count : Nat) :
    (bytesAt bytes place count).length = count := by
  induction count generalizing place with
  | zero => rfl
  | succ count ih => simp [bytesAt, ih]

/-- A way to convert instructions. -/
structure Conversion where
  /-- How many bytes decide what becomes of an instruction. -/
  size : Nat
  /-- What the instruction at an address becomes, or the part of it that is decided. -/
  apply : Nat → List UInt8 → List UInt8
  /-- It has no more bytes than that. -/
  length_apply_le : ∀ address bytes, bytes.length = size → (apply address bytes).length ≤ size

/-- Converts instructions, of which the first is at the address `start`. -/
def converter (conversion : Conversion) (start : Nat) : Converter where
  State := Unit
  start := ()
  reach := conversion.size
  step bytes place _ :=
    (conversion.apply (start + place) (bytesAt bytes place conversion.size), ())
  length_step_le bytes place _ :=
    Nat.le_trans (conversion.length_apply_le _ _ (length_bytesAt bytes place conversion.size))
      (Nat.le_max_right 1 conversion.size)

/-! ## No instruction gets longer -/

/-- A converted instruction is no longer than four bytes. -/
theorem length_powerPC_le (address : Nat) (bytes : List UInt8) (h : bytes.length = 4) :
    (powerPC address bytes).length ≤ 4 := by
  unfold powerPC
  split
  · split <;> simp
  · exact Nat.le_of_eq h

/-- A converted instruction is no longer than four bytes. -/
theorem length_arm_le (address : Nat) (bytes : List UInt8) (h : bytes.length = 4) :
    (arm address bytes).length ≤ 4 := by
  unfold arm
  split
  · simp
  · exact Nat.le_of_eq h

/-- A converted pair of half words is no longer than four bytes. -/
theorem length_armThumb_le (address : Nat) (bytes : List UInt8) (h : bytes.length = 4) :
    (armThumb address bytes).length ≤ 4 := by
  unfold armThumb
  split
  · split <;> simp
  · exact Nat.le_of_eq h

/-- A converted instruction is no longer than four bytes. -/
theorem length_sparc_le (address : Nat) (bytes : List UInt8) (h : bytes.length = 4) :
    (sparc address bytes).length ≤ 4 := by
  unfold sparc
  split
  · split <;> simp
  · exact Nat.le_of_eq h

/-- A converted instruction is no longer than four bytes. -/
theorem length_arm64_le (address : Nat) (bytes : List UInt8) (h : bytes.length = 4) :
    (arm64 address bytes).length ≤ 4 := by
  unfold arm64
  split
  · split
    · simp
    · split <;> simp
  · exact Nat.le_of_eq h

/-- Each of the three instructions of a bundle lies within its sixteen bytes. -/
theorem length_ia64Slot (address : Nat) {slot : Nat} {bytes : List UInt8} (hslot : slot ≤ 2)
    (h : bytes.length = 16) : (ia64Slot address slot bytes).length = 16 := by
  simp only [ia64Slot, List.length_append, List.length_take, List.length_drop,
    Endian.length_little]
  omega

/-- A bundle has three slots. -/
theorem le_two_of_mem_ia64Slots {kinds : UInt8} {slot : Nat} (h : slot ∈ ia64Slots kinds) :
    slot ≤ 2 := by
  unfold ia64Slots at h
  split at h
  · simp_all
  split at h
  · simp at h
    omega
  split at h
  · simp at h
    omega
  · cases h

/-- A converted bundle is no longer than sixteen bytes. -/
theorem length_ia64_le (address : Nat) (bytes : List UInt8) (h : bytes.length = 16) :
    (ia64 address bytes).length ≤ 16 := by
  have hfold (slots : List Nat) (hslots : ∀ slot ∈ slots, slot ≤ 2) :
      (slots.foldl (fun bytes slot => ia64Slot address slot bytes) bytes).length = 16 := by
    induction slots generalizing bytes with
    | nil => exact h
    | cons slot slots ih =>
      have hfirst := length_ia64Slot address (hslots slot List.mem_cons_self) h
      exact ih _ hfirst fun s hs => hslots s (List.mem_cons_of_mem slot hs)
  exact Nat.le_of_eq (hfold _ fun _ hslot => le_two_of_mem_ia64Slots hslot)

end MapArchive.Branches
