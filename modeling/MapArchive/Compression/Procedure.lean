import MapArchive.Bytes.Endian

/-!
# Procedures

What is done to decompress a stream is described by what is wanted, one operation after another: to
read a byte, to put out a byte, to put out a part of the earlier output again, and so on. Such a
description is a `Procedure`. It knows nothing of where the input comes from and how long it is, or
how much output is wanted; this is the business of `run`, which carries a procedure out on a given
input up to a given amount of output, and says how it ended.

All operations but one fail where the input ends too early. The exception is `take`, whose answer
may be shorter than what was asked for, so that a procedure can do something with what there is. It
should not do too much: a procedure is `Careful` if, given less than it asked for, it never takes
the stream for complete, and puts out no more than it would have put out with more input.
-/

namespace MapArchive

/-- What a procedure can ask for. -/
inductive Operation where
  /-- The next byte of the input. -/
  | read
  /-- That at least one more byte of input is there. It is not read. -/
  | expect
  /-- The next `count` bytes of the input, or all that are left if there are fewer. -/
  | take (count : Nat)
  /-- The next `count` bytes of the input, as output. -/
  | pass (count : Nat)
  /-- A byte as output. -/
  | write (byte : UInt8)
  /-- Some bytes as output. -/
  | append (bytes : ByteArray)
  /-- That there is room for at least one more byte of output. -/
  | room
  /-- The output which starts `distance` bytes back from the end, `count` bytes of it, as output.
  It may reach into the bytes that it puts out itself. -/
  | copy (distance count : Nat)
  /-- The byte of output `distance` bytes back from the end; zero if there is none. -/
  | look (distance : Nat)
  /-- All output from a place on. -/
  | review (start : Nat)
  /-- How many more bytes of output there is room for. -/
  | space
  deriving DecidableEq

namespace Operation

/-- What the answer to an operation is. -/
abbrev Answer : Operation → Type
  | .read | .look _ => UInt8
  | .take _ | .review _ => ByteArray
  | .space => Nat
  | .expect | .pass _ | .write _ | .append _ | .room | .copy _ _ => Unit

/-- The answers that can be given: of the input no more is given than was asked for. -/
def Admits : (op : Operation) → op.Answer → Prop
  | .take count, bytes => bytes.size ≤ count
  | .read, _ | .expect, _ | .pass _, _ | .write _, _ | .append _, _ | .room, _ | .copy _ _, _
  | .look _, _ | .review _, _ | .space, _ => True

/-- The operation never gets less than was asked for. -/
def IsWhole : Operation → Prop
  | .take _ => False
  | .read | .expect | .pass _ | .write _ | .append _ | .room | .copy _ _ | .look _ | .review _
  | .space => True

/-- How many bytes of output an operation asks for. -/
def yield : Operation → Nat
  | .pass count | .copy _ count => count
  | .write _ => 1
  | .append bytes => bytes.size
  | .read | .expect | .take _ | .room | .look _ | .review _ | .space => 0

end Operation

/-- What is done, up to a result of type `α`. -/
inductive Procedure (α : Type) where
  /-- The end of the stream has been reached. -/
  | done (a : α)
  /-- The input is no stream of this kind. -/
  | corrupt
  /-- An operation, and what follows upon its answer. -/
  | step (op : Operation) (next : op.Answer → Procedure α)

namespace Procedure

variable {α β γ : Type}

/-- One procedure after the other. -/
def andThen : Procedure α → (α → Procedure β) → Procedure β
  | .done a, f => f a
  | .corrupt, _ => .corrupt
  | .step op next, f => .step op fun answer => (next answer).andThen f

/-- With nothing after it a procedure is the same. -/
theorem andThen_done (d : Procedure α) : d.andThen .done = d := by
  induction d with
  | done | corrupt => rfl
  | step op next ih => simp only [andThen, ih]

/-- It makes no difference how procedures that follow each other are put together. -/
theorem andThen_assoc (d : Procedure α) (f : α → Procedure β) (g : β → Procedure γ) :
    (d.andThen f).andThen g = d.andThen fun a => (f a).andThen g := by
  induction d with
  | done | corrupt => rfl
  | step op next ih => simp only [andThen, ih]

/-! ## How much is put out -/

/-- A doomed procedure never comes to the end of the stream. Before it gives up it puts out no more
than `most` bytes. -/
def Doomed : Procedure α → (most : Nat) → Prop
  | .done _, _ => False
  | .corrupt, _ => True
  | .step op next, most =>
    op.yield ≤ most ∧ ∀ answer, op.Admits answer → (next answer).Doomed (most - op.yield)

/-- If a procedure comes to the end of the stream, it has put out at least so many bytes. -/
def Yields : Procedure α → (least : Nat) → Prop
  | .done _, least => least = 0
  | .corrupt, _ => True
  | .step op next, least =>
    ∀ answer, op.Admits answer → (next answer).Yields (least - op.yield)

/-- What is doomed to put out at most so many bytes is doomed to put out at most any more. -/
theorem Doomed.mono {d : Procedure α} {most more : Nat} (h : d.Doomed most) (hle : most ≤ more) :
    d.Doomed more := by
  induction d generalizing most more with
  | done => exact h
  | corrupt => trivial
  | step op next ih =>
    obtain ⟨hyield, hnext⟩ := h
    refine ⟨Nat.le_trans hyield hle, fun answer hanswer => ?_⟩
    exact ih answer (hnext answer hanswer) (Nat.sub_le_sub_right hle op.yield)

/-- What puts out at least so many bytes puts out at least any fewer. -/
theorem Yields.mono {d : Procedure α} {least less : Nat} (h : d.Yields least) (hle : less ≤ least) :
    d.Yields less := by
  induction d generalizing least less with
  | done =>
    have hzero : least = 0 := h
    show less = 0
    omega
  | corrupt => trivial
  | step op next ih =>
    intro answer hanswer
    exact ih answer (h answer hanswer) (Nat.sub_le_sub_right hle op.yield)

/-- Nothing is the least that any procedure puts out. -/
theorem yields_zero (d : Procedure α) : d.Yields 0 := by
  induction d with
  | done => rfl
  | corrupt => trivial
  | step op next ih =>
    intro answer _
    rw [Nat.zero_sub]
    exact ih answer

/-- Of what never comes to the end of the stream anything can be said for the case that it does. -/
theorem Doomed.yields {d : Procedure α} {most : Nat} (h : d.Doomed most) (least : Nat) :
    d.Yields least := by
  induction d generalizing most least with
  | done => exact h.elim
  | corrupt => trivial
  | step op next ih => exact fun answer hanswer => ih answer (h.2 answer hanswer) _

/-- Whatever follows upon a doomed procedure, there is nothing more to it. -/
theorem Doomed.andThen {d : Procedure α} {most : Nat} (h : d.Doomed most)
    (f : α → Procedure β) : (d.andThen f).Doomed most := by
  induction d generalizing most with
  | done => exact h.elim
  | corrupt => trivial
  | step op next ih => exact ⟨h.1, fun answer hanswer => ih answer (h.2 answer hanswer)⟩

/-- What has been put out stays so, whatever follows. -/
theorem Yields.andThen {d : Procedure α} {least : Nat} (h : d.Yields least)
    (f : α → Procedure β) : (d.andThen f).Yields least := by
  induction d generalizing least with
  | done a =>
    have hzero : least = 0 := h
    rw [hzero]
    exact yields_zero (f a)
  | corrupt => trivial
  | step op next ih => exact fun answer hanswer => ih answer (h answer hanswer)

/-! ## Procedures that are careful where the input ends -/

/-- Given less input than was asked for, what follows is doomed, and puts out no more than what
follows upon more input. -/
def IsCautious : (op : Operation) → (op.Answer → Procedure α) → Prop
  | .take count, next => ∀ short full : ByteArray,
    short.size < count → short.size ≤ full.size → full.size ≤ count →
      ∃ amount, (next short).Doomed amount ∧ (next full).Yields amount
  | .read, _ | .expect, _ | .pass _, _ | .write _, _ | .append _, _ | .room, _ | .copy _ _, _
  | .look _, _ | .review _, _ | .space, _ => True

/-- An operation that is done as a whole or not at all is cautious, whatever follows. -/
theorem isCautious_of_isWhole {op : Operation} (h : op.IsWhole) (next : op.Answer → Procedure α) :
    IsCautious op next := by
  cases op with
  | take count => exact h.elim
  | _ => trivial

/-- An operation stays cautious when more is to be done after what follows upon it. -/
theorem IsCautious.andThen {op : Operation} {next : op.Answer → Procedure α}
    (h : IsCautious op next) (f : α → Procedure β) :
    IsCautious op fun answer => (next answer).andThen f := by
  cases op with
  | take count =>
    intro short full hshort hle hfull
    obtain ⟨amount, hdoomed, hyields⟩ := h short full hshort hle hfull
    exact ⟨amount, hdoomed.andThen f, hyields.andThen f⟩
  | _ => trivial

/-- A procedure that is careful in all its steps. -/
def Careful : Procedure α → Prop
  | .done _ | .corrupt => True
  | .step op next => IsCautious op next ∧ ∀ answer, (next answer).Careful

/-- Steps that never get less than was asked for need no care. -/
theorem careful_step {op : Operation} {next : op.Answer → Procedure α} (hwhole : op.IsWhole)
    (hnext : ∀ answer, (next answer).Careful) : (step op next).Careful :=
  ⟨isCautious_of_isWhole hwhole next, hnext⟩

/-- Careful procedures that follow each other make a careful one. -/
theorem Careful.andThen {d : Procedure α} (h : d.Careful) {f : α → Procedure β}
    (hf : ∀ a, (f a).Careful) : (d.andThen f).Careful := by
  induction d with
  | done a => exact hf a
  | corrupt => trivial
  | step op next ih => exact ⟨h.1.andThen f, fun answer => ih answer (h.2 answer)⟩

/-! ## Running -/

/-- What a procedure works on. -/
structure Buffers where
  /-- The input still to be read. -/
  input : Cursor
  /-- The output so far. -/
  output : ByteArray

/-- Why a procedure does not go on. -/
inductive Halt where
  /-- It needs more input than there is. This is the output so far. -/
  | starved (output : ByteArray)
  /-- It has more output than is wanted. -/
  | overfull
  /-- The input is no stream of its kind. -/
  | corrupt
  deriving DecidableEq

/-- The byte `distance` back from the end; zero if there is none. -/
def lookBack (distance : Nat) (output : ByteArray) : UInt8 :=
  if distance ≤ output.size then byteAt output (output.size - distance) else 0

/-- Appends bytes from `distance` back, one after the other. -/
def extendBack (distance : Nat) : Nat → ByteArray → ByteArray
  | 0, output => output
  | count + 1, output => extendBack distance count (output.push (lookBack distance output))

/-- Copying from further back adds as many bytes as are copied. -/
@[simp] theorem size_extendBack (distance count : Nat) (output : ByteArray) :
    (extendBack distance count output).size = output.size + count := by
  induction count generalizing output with
  | zero => rfl
  | succ count ih =>
    rw [extendBack, ih, ByteArray.size_push]
    omega

/-- Carries out one operation, where at most `limit` bytes of output are wanted. -/
def perform (limit : Nat) : (op : Operation) → Buffers → Except Halt (op.Answer × Buffers)
  | .read, ⟨input, output⟩ =>
    match input.next? with
    | some (byte, input) => .ok (byte, ⟨input, output⟩)
    | none => .error (.starved output)
  | .expect, ⟨input, output⟩ =>
    if input.remaining = 0 then .error (.starved output) else .ok ((), ⟨input, output⟩)
  | .take count, ⟨input, output⟩ =>
    let stop := input.start + min count input.remaining
    .ok (input.bytes.extract input.start stop, ⟨⟨input.bytes, stop⟩, output⟩)
  | .pass count, ⟨input, output⟩ =>
    match input.take? count with
    | some (part, input) =>
      if output.size + count ≤ limit then .ok ((), ⟨input, output ++ part⟩) else .error .overfull
    | none =>
      if output.size + input.remaining ≤ limit then
        .error (.starved (output ++ input.bytes.extract input.start input.bytes.size))
      else .error .overfull
  | .write byte, ⟨input, output⟩ =>
    if output.size < limit then .ok ((), ⟨input, output.push byte⟩) else .error .overfull
  | .append bytes, ⟨input, output⟩ =>
    if output.size + bytes.size ≤ limit then .ok ((), ⟨input, output ++ bytes⟩)
    else .error .overfull
  | .room, ⟨input, output⟩ =>
    if output.size < limit then .ok ((), ⟨input, output⟩) else .error .overfull
  | .copy distance count, ⟨input, output⟩ =>
    if output.size + count ≤ limit then
      .ok ((), ⟨input, extendBack distance count output⟩)
    else .error .overfull
  | .look distance, ⟨input, output⟩ => .ok (lookBack distance output, ⟨input, output⟩)
  | .review start, ⟨input, output⟩ => .ok (output.extract start output.size, ⟨input, output⟩)
  | .space, ⟨input, output⟩ => .ok (limit - output.size, ⟨input, output⟩)

/-- Carries a procedure out. -/
def run (limit : Nat) : Procedure α → Buffers → Except Halt (α × Buffers)
  | .done a, buffers => .ok (a, buffers)
  | .corrupt, _ => .error .corrupt
  | .step op next, buffers =>
    match perform limit op buffers with
    | .ok (answer, buffers) => (next answer).run limit buffers
    | .error halt => .error halt

/-- Running one procedure after another goes on with the second from where the first has ended. -/
theorem run_andThen (limit : Nat) (d : Procedure α) (f : α → Procedure β) (buffers : Buffers) :
    (d.andThen f).run limit buffers =
      match d.run limit buffers with
      | .ok (a, after) => (f a).run limit after
      | .error halt => .error halt := by
  induction d generalizing buffers with
  | done | corrupt => rfl
  | step op next ih =>
    simp only [andThen, run]
    cases perform limit op buffers with
    | error => rfl
    | ok result => exact ih result.1 result.2

end Procedure

end MapArchive
