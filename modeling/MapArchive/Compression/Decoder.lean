import MapArchive.Compression.Procedure

/-!
# Decoders of compressed streams

A decoder is a procedure that is careful where the input ends. Decoders are put together from single
operations, one after another and in loops, and this makes no decoder that is not careful. So what
holds of all careful procedures holds of every decoder.
-/

namespace MapArchive

/-- A decoder that ends with a result of type `α`. -/
structure Decoder (α : Type) where
  /-- What it does. -/
  procedure : Procedure α
  /-- It is careful. -/
  careful : procedure.Careful

namespace Decoder

open Procedure (Buffers Halt)

/-- Decoders with the same procedure are equal. -/
@[ext] theorem ext {α : Type} {d e : Decoder α} (h : d.procedure = e.procedure) : d = e := by
  cases d
  cases e
  cases h
  rfl

instance : Monad Decoder where
  pure a := ⟨.done a, trivial⟩
  bind d f :=
    ⟨d.procedure.andThen fun a => (f a).procedure, d.careful.andThen fun a => (f a).careful⟩

instance : LawfulMonad Decoder :=
  LawfulMonad.mk' Decoder (fun d => ext (Procedure.andThen_done d.procedure)) (fun _ _ => rfl)
    fun d f g => ext (Procedure.andThen_assoc d.procedure (fun a => (f a).procedure) _)

/-! ## The operations as decoders -/

/-- The input is no stream of this kind. -/
def corrupt {α : Type} : Decoder α := ⟨.corrupt, trivial⟩

/-- Carries out one operation. -/
def ask (op : Operation) (h : op.IsWhole) : Decoder op.Answer :=
  ⟨.step op .done, Procedure.careful_step h fun _ => trivial⟩

/-- Reads a byte. -/
def read : Decoder UInt8 := ask .read trivial

/-- Goes on only if there is more input. -/
def expect : Decoder Unit := ask .expect trivial

/-- Puts out the next bytes of the input. -/
def pass (count : Nat) : Decoder Unit := ask (.pass count) trivial

/-- Puts out a byte. -/
def write (byte : UInt8) : Decoder Unit := ask (.write byte) trivial

/-- Goes on only if there is room for more output. -/
def room : Decoder Unit := ask .room trivial

/-- Puts out a part of the earlier output again. -/
def copy (distance count : Nat) : Decoder Unit := ask (.copy distance count) trivial

/-- Looks at a byte of the earlier output. -/
def look (distance : Nat) : Decoder UInt8 := ask (.look distance) trivial

/-- Looks at all output from a place on. -/
def review (start : Nat) : Decoder ByteArray := ask (.review start) trivial

/-- Goes on only if a condition holds of the input. -/
def require (condition : Bool) : Decoder Unit := if condition then pure () else corrupt

/-- Reads `count` bytes. -/
def readList : Nat → Decoder (List UInt8)
  | 0 => return []
  | count + 1 => return (← read) :: (← readList count)

/-- Reads a number of so many bytes, the lowest first. -/
def littleEndian (count : Nat) : Decoder Nat := Endian.ofLittle <$> readList count

/-- Reads a number of so many bytes, the highest first. -/
def bigEndian (count : Nat) : Decoder Nat := Endian.ofBig <$> readList count

/-- Reads bytes that can only be these. -/
def readExpected : List UInt8 → Decoder Unit
  | [] => return ()
  | byte :: rest => do
    require ((← read) = byte)
    readExpected rest

/-! ## Loops -/

/-- What to do after a turn of a loop. -/
inductive Turn (σ α : Type) where
  /-- Another turn, from this state. -/
  | again (s : σ)
  /-- Nothing more: the loop is left with a result. -/
  | leave (a : α)

/-- A loop of at most so many turns; needing more of them counts as corruption. -/
def loopUpTo {σ α : Type} (turn : σ → Decoder (Turn σ α)) : Nat → σ → Decoder α
  | 0, _ => corrupt
  | turns + 1, s => do
    match ← turn s with
    | .again s => loopUpTo turn turns s
    | .leave a => return a

/-- More turns than any loop makes: 2³⁵. A message is shorter than 2³¹ bytes and has fewer than 2³⁴
bits, and every loop over a stream reads a bit or puts out a byte in each turn but the last. -/
def turnLimit : Nat := 0x800000000

/-- A loop over a stream. -/
def loop {σ α : Type} (s : σ) (turn : σ → Decoder (Turn σ α)) : Decoder α :=
  loopUpTo turn turnLimit s

/-! ## Running -/

/-- Carries a decoder out. -/
def run {α : Type} (limit : Nat) (d : Decoder α) (buffers : Buffers) :
    Except Halt (α × Buffers) :=
  d.procedure.run limit buffers

/-- Running one decoder after another goes on with the second from where the first has ended. -/
theorem run_bind {α β : Type} (limit : Nat) (d : Decoder α) (f : α → Decoder β)
    (buffers : Buffers) :
    (d >>= f).run limit buffers =
      match d.run limit buffers with
      | .ok (a, after) => (f a).run limit after
      | .error halt => .error halt :=
  Procedure.run_andThen limit d.procedure (fun a => (f a).procedure) buffers

end Decoder

end MapArchive
