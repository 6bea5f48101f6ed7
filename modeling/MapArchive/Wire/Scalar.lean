import MapArchive.Wire.Zigzag

/-!
# Kinds of numbers

A varint carries 64 bits; the kind of a field says which number they stand for. Kinds of 32 bits
take the low half of the word. Each kind comes with the proof that reading undoes writing, so a
number of the kind's type survives the way through the bytes whatever it is.
-/

namespace MapArchive

/-- A way of storing values of a type in words of 64 bits. -/
structure Scalar (α : Type) where
  /-- The value that a word stands for. -/
  ofWord : UInt64 → α
  /-- The word that a value is written as. -/
  toWord : α → UInt64
  /-- Reading undoes writing. -/
  ofWord_toWord : ∀ a, ofWord (toWord a) = a

namespace Scalar

/-- Extending by the sign adds bits that cutting off takes away again. -/
theorem setWidth_signExtend (b : BitVec 32) : (b.signExtend 64).setWidth 32 = b := by
  apply BitVec.eq_of_getLsbD_eq
  intro i hi
  rw [BitVec.getLsbD_setWidth, BitVec.getLsbD_signExtend]
  simp [hi, show i < 64 by omega]

/-- Signed numbers of 64 bits, stored as they are. -/
def int64 : Scalar Int64 := ⟨(·.toInt64), (·.toUInt64), fun _ => by simp⟩

/-- Signed numbers of 32 bits, stored with their sign spread over the word. -/
def int32 : Scalar Int32 :=
  ⟨(·.toUInt32.toInt32), (·.toInt64.toUInt64), fun _ => by
    apply Int32.toBitVec_inj.1
    simp [setWidth_signExtend]⟩

/-- Unsigned numbers of 32 bits. -/
def uint32 : Scalar UInt32 := ⟨(·.toUInt32), (·.toUInt64), fun _ => by simp⟩

/-- Signed numbers of 64 bits, folded. -/
def sint64 : Scalar Int64 :=
  ⟨fun w => (Zigzag.unfold64 w).toInt64, fun a => Zigzag.fold64 a.toUInt64, fun _ => by simp⟩

/-- Signed numbers of 32 bits, folded. -/
def sint32 : Scalar Int32 :=
  ⟨fun w => (Zigzag.unfold32 w.toUInt32).toInt32, fun a => (Zigzag.fold32 a.toUInt32).toUInt64,
    fun _ => by simp⟩

/-- Truth values; every word but 0 is true. -/
def bool : Scalar Bool := ⟨(· != 0), fun b => if b then 1 else 0, fun b => by cases b <;> rfl⟩

end Scalar

end MapArchive
