import MapArchive.Compression.Filter.Branches
import MapArchive.Compression.Filter.Delta
import MapArchive.Compression.Filter.X86

/-!
# Filters

A filter changes bytes one for one before they are compressed, so that they can be compressed
better. After decompression the change is undone by a converter.
-/

namespace MapArchive

/-- Architectures whose machine code there are filters for. -/
inductive Architecture where
  /-- With codes of any length. -/
  | x86
  /-- With words, the highest byte first. -/
  | powerPC
  /-- With bundles of three instructions. -/
  | ia64
  /-- With words, the lowest byte first. -/
  | arm
  /-- With half words. -/
  | armThumb
  /-- With words, the highest byte first. -/
  | sparc
  /-- With words, the lowest byte first, and addresses of 64 bits. -/
  | arm64
  deriving DecidableEq, Repr

namespace Architecture

/-- The addresses of instructions are multiples of this. -/
def alignment : Architecture → Nat
  | .x86 => 1
  | .armThumb => 2
  | .powerPC | .arm | .sparc | .arm64 => 4
  | .ia64 => 16

/-- Converts branches in code that starts at an address. -/
def converter (architecture : Architecture) (start : Nat) : Converter :=
  match architecture with
  | .x86 => X86.converter start
  | .powerPC => Branches.converter ⟨4, Branches.powerPC, Branches.length_powerPC_le⟩ start
  | .ia64 => Branches.converter ⟨16, Branches.ia64, Branches.length_ia64_le⟩ start
  | .arm => Branches.converter ⟨4, Branches.arm, Branches.length_arm_le⟩ start
  | .armThumb => Branches.converter ⟨4, Branches.armThumb, Branches.length_armThumb_le⟩ start
  | .sparc => Branches.converter ⟨4, Branches.sparc, Branches.length_sparc_le⟩ start
  | .arm64 => Branches.converter ⟨4, Branches.arm64, Branches.length_arm64_le⟩ start

end Architecture

/-- What was done to bytes before they were compressed. -/
inductive Filter where
  /-- Each was replaced by its difference to the byte so many places before. -/
  | delta (distance : Nat)
  /-- The targets of branches in machine code, of which the first byte is at the address `start`,
  were made absolute. -/
  | branches (architecture : Architecture) (start : Nat)
  deriving DecidableEq, Repr

namespace Filter

/-- Undoes a filter. -/
def converter : Filter → Converter
  | .delta distance => Delta.converter distance
  | .branches architecture start => architecture.converter start

end Filter

end MapArchive
