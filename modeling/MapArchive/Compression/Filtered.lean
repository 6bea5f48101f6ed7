import MapArchive.Compression.Converter
import MapArchive.Compression.Decoder

/-!
# Filtered decoding

`filtered` lets a decoder run whose output is to be converted. The decoder's own output is kept, as
it can be used again, and counts as input of the converter; what comes out of the converter is put
out.

The end of a decoder's output may stay undecided, because the converter does not reach far enough.
With as much output as there is room for, and some of it undecided, the decoder is run on until
twice the reach of the converter is held, which decides all that there is room for. What the decoder
runs into then counts as if it had been reached. At the end of the stream what is undecided is put
out as it is.

What is held is put out sooner or later if the end of the stream is reached, and only a part of it
if it is not. This is why a filtered decoder is careful.
-/

namespace MapArchive

open Procedure (Doomed Yields Careful)

/-- The output of a decoder, on its way through a converter. -/
structure Held (c : Converter) where
  /-- The output of the decoder. -/
  output : ByteArray
  /-- How much of it has been converted and put out. -/
  converted : c.Point
  /-- This is not more than there is. -/
  place_le : converted.place ≤ output.size
  /-- How long the output may become. -/
  bound : Nat
  /-- Whether this is more than there is room for. -/
  isAhead : Bool

namespace Held

variable {c : Converter} {α : Type}

/-- Nothing held yet. -/
def empty (c : Converter) : Held c := ⟨ByteArray.empty, c.origin, Nat.zero_le _, 0, false⟩

/-- The number of bytes that have not been put out. -/
def size (h : Held c) : Nat := h.output.size - h.converted.place

/-- With another byte of output. -/
def push (h : Held c) (byte : UInt8) : Held c :=
  { h with
    output := h.output.push byte
    place_le := by
      rw [ByteArray.size_push]
      exact Nat.le_succ_of_le h.place_le }

/-- With more output. -/
def append (h : Held c) (bytes : ByteArray) : Held c :=
  { h with
    output := h.output ++ bytes
    place_le := by
      rw [ByteArray.size_append]
      exact Nat.le_add_right_of_le h.place_le }

/-- With output from `distance` back. -/
def extendBack (h : Held c) (distance count : Nat) : Held c :=
  { h with
    output := Procedure.extendBack distance count h.output
    place_le := by
      rw [Procedure.size_extendBack]
      exact Nat.le_add_right_of_le h.place_le }

/-- A byte that is pushed adds one to what is held. -/
@[simp] theorem size_push (h : Held c) (byte : UInt8) : (h.push byte).size = h.size + 1 := by
  have hle := h.place_le
  simp only [size, push, ByteArray.size_push]
  omega

/-- Bytes that are appended are added to what is held. -/
@[simp] theorem size_append (h : Held c) (bytes : ByteArray) :
    (h.append bytes).size = h.size + bytes.size := by
  have hle := h.place_le
  simp only [size, append, ByteArray.size_append]
  omega

/-- Bytes that are copied from further back are added to what is held. -/
@[simp] theorem size_extendBack (h : Held c) (distance count : Nat) :
    (h.extendBack distance count).size = h.size + count := by
  have hle := h.place_le
  simp only [size, extendBack, Procedure.size_extendBack]
  omega

/-- With all converted that is decided. -/
def advance (h : Held c) : Held c :=
  { h with
    converted := (c.advance h.output h.converted ByteArray.empty).1
    place_le := c.place_advance_le ByteArray.empty h.place_le }

/-- What becomes of that which is decided. -/
def decided (h : Held c) : ByteArray := (c.advance h.output h.converted ByteArray.empty).2

/-- What is decided and what is then held make up what was held. -/
theorem size_decided_add (h : Held c) : h.decided.size + h.advance.size = h.size := by
  have hplace := h.advance.place_le
  have hadvance := c.size_advance h.output h.converted ByteArray.empty
  rw [ByteArray.size_empty, Nat.zero_add] at hadvance
  simp only [size, decided, advance] at hplace ⊢
  omega

/-- Puts out what is decided. -/
def release (h : Held c) (next : Held c → Procedure α) : Procedure α :=
  .step (.append h.decided) fun _ => next h.advance

/-- Puts out everything. -/
def releaseAll (h : Held c) (next : Procedure α) : Procedure α :=
  h.release fun h =>
    .step (.append (h.output.extract h.converted.place h.output.size)) fun _ => next

/-- Puts out what is decided. There is no more input, which a decoder that asks for some comes to
know. -/
def starve (h : Held c) : Procedure α :=
  h.release fun _ => .step .expect fun _ => .corrupt

/-- Sets the bound so that the output, with what is held, fills the room for it. -/
def bounded (h : Held c) (next : Held c → Procedure α) : Procedure α :=
  .step .space fun space =>
    if h.size < space ∨ h.size = 0 then
      next { h with bound := h.converted.place + space, isAhead := false }
    else next { h with bound := h.converted.place + 2 * c.reach, isAhead := true }

/-- Goes on with a bound that has not been reached. -/
def withRoom (h : Held c) (next : Held c → Procedure α) : Procedure α :=
  if h.output.size < h.bound then next h
  else
    h.release fun h =>
      if h.isAhead ∨ h.size = 0 then .step .room fun _ => h.bounded next
      else next { h with bound := h.converted.place + 2 * c.reach, isAhead := true }

/-- Outputs `count` bytes from `distance` back. -/
def copyBack (distance : Nat) : Nat → Held c → (Held c → Procedure α) → Procedure α
  | 0, h, next => next h
  | count + 1, h, next =>
    if h.output.size + (count + 1) ≤ h.bound then next (h.extendBack distance (count + 1))
    else h.withRoom fun h => copyBack distance count (h.extendBack distance 1) next

/-- Outputs the last `count` of some bytes. -/
def appendLast (bytes : ByteArray) : Nat → Held c → (Held c → Procedure α) → Procedure α
  | 0, h, next => next h
  | count + 1, h, next =>
    let place := bytes.size - (count + 1)
    if h.output.size + (count + 1) ≤ h.bound then
      next (h.append (bytes.extract place bytes.size))
    else h.withRoom fun h => appendLast bytes count (h.push (byteAt bytes place)) next

/-- Goes on with the next `count` bytes of the input. If there are not so many, `held` says what is
held then. -/
def demand (count : Nat) (held : ByteArray → Held c) (next : ByteArray → Procedure α) :
    Procedure α :=
  .step (.take count) fun bytes => if bytes.size < count then (held bytes).starve else next bytes

/-- Outputs the next `count` bytes of the input. -/
def pass : Nat → Held c → (Held c → Procedure α) → Procedure α
  | 0, h, next => next h
  | count + 1, h, next =>
    if h.output.size + (count + 1) ≤ h.bound then
      demand (count + 1) h.append fun bytes => next (h.append bytes)
    else
      h.withRoom fun h => demand 1 (fun _ => h) fun bytes => pass count (h.append bytes) next

end Held

/-- Runs a procedure whose output is to be converted, from where it is. -/
def Procedure.filteredFrom {α : Type} {c : Converter} : Procedure α → Held c → Procedure α
  | .done a, h => h.releaseAll (.done a)
  | .corrupt, _ => .corrupt
  | .step .read next, h =>
    Held.demand 1 (fun _ => h) fun bytes => (next (byteAt bytes 0)).filteredFrom h
  | .step .expect next, h => h.release fun h => .step .expect fun u => (next u).filteredFrom h
  | .step (.take count) next, h =>
    .step (.take count) fun bytes => (next bytes).filteredFrom h
  | .step (.pass count) next, h => h.pass count fun h => (next ()).filteredFrom h
  | .step (.write byte) next, h => h.withRoom fun h => (next ()).filteredFrom (h.push byte)
  | .step (.append bytes) next, h =>
    h.appendLast bytes bytes.size fun h => (next ()).filteredFrom h
  | .step .room next, h => h.withRoom fun h => (next ()).filteredFrom h
  | .step (.copy distance count) next, h =>
    h.copyBack distance count fun h => (next ()).filteredFrom h
  | .step (.look distance) next, h => (next (lookBack distance h.output)).filteredFrom h
  | .step (.review start) next, h =>
    (next (h.output.extract start h.output.size)).filteredFrom h
  | .step .space next, h => (next (h.bound - h.output.size)).filteredFrom h

/-! ## What is held counts as put out

Things are told of procedures by the number of bytes that they put out. Whatever can be told of
what follows, for all that may be held then, can be told of each way of getting there, with the
bytes counted that are on the way. -/

namespace Held

variable {c : Converter} {α : Type} {P : Procedure α → Nat → Prop}

/-- Something that is told of procedures by the number of bytes that they put out, of a single step
if it is told of what follows. -/
structure Account (P : Procedure α → Nat → Prop) : Prop where
  /-- A step adds what it puts out. -/
  step : ∀ {op : Operation} {next : op.Answer → Procedure α} {amount : Nat}, op.IsWhole →
    (∀ answer, P (next answer) amount) → P (.step op next) (op.yield + amount)

/-- That it is doomed is told of a single step if it is told of what follows. -/
theorem account_doomed : Account (α := α) Doomed where
  step {op next amount} _ h := by
    refine ⟨Nat.le_add_right _ _, fun answer _ => ?_⟩
    rw [Nat.add_sub_cancel_left]
    exact h answer

/-- What is put out at least is told of a single step if it is told of what follows. -/
theorem account_yields : Account (α := α) Yields where
  step {op next amount} _ h := by
    intro answer _
    rw [Nat.add_sub_cancel_left]
    exact h answer

/-- Of a careful procedure it is not told how much it puts out. -/
theorem account_careful : Account fun (d : Procedure α) _ => d.Careful where
  step := Procedure.careful_step

namespace Account

variable (hP : Account P)

include hP

/-- A step that puts out nothing adds nothing. -/
theorem quiet {op : Operation} {next : op.Answer → Procedure α} {amount : Nat}
    (hwhole : op.IsWhole) (hyield : op.yield = 0) (hnext : ∀ answer, P (next answer) amount) :
    P (.step op next) amount := by
  have hstep := hP.step hwhole hnext
  rwa [hyield, Nat.zero_add] at hstep

variable {next : Held c → Procedure α} (amount : Nat) (hnext : ∀ h, P (next h) (h.size + amount))

include hnext

/-- Bytes that are released count as those that were held did. -/
theorem release (h : Held c) : P (h.release next) (h.size + amount) := by
  have hstep : P (h.release next) (h.decided.size + (h.advance.size + amount)) :=
    hP.step trivial fun _ => hnext h.advance
  rwa [← Nat.add_assoc, h.size_decided_add] at hstep

/-- Asking how much space is left adds nothing. -/
theorem bounded (h : Held c) : P (h.bounded next) (h.size + amount) := by
  refine hP.quiet trivial rfl fun space => ?_
  split
  · exact hnext { h with bound := h.converted.place + space, isAhead := false }
  · exact hnext { h with bound := h.converted.place + 2 * c.reach, isAhead := true }

/-- Making room for a byte adds nothing. -/
theorem withRoom (h : Held c) : P (h.withRoom next) (h.size + amount) := by
  unfold Held.withRoom
  split
  · exact hnext h
  refine hP.release amount (fun h => ?_) h
  split
  · exact hP.quiet trivial rfl fun _ => hP.bounded amount hnext h
  · exact hnext { h with bound := h.converted.place + 2 * c.reach, isAhead := true }

/-- Bytes that are copied from further back are counted. -/
theorem copyBack (distance count : Nat) (h : Held c) :
    P (h.copyBack distance count next) (h.size + (count + amount)) := by
  induction count generalizing h with
  | zero =>
    rw [Nat.zero_add]
    exact hnext h
  | succ count ih =>
    unfold Held.copyBack
    split
    · have hfits := hnext (h.extendBack distance (count + 1))
      rwa [size_extendBack, Nat.add_assoc] at hfits
    · refine hP.withRoom (count + 1 + amount) (fun h => ?_) h
      have hlater := ih (h.extendBack distance 1)
      rwa [size_extendBack, Nat.add_assoc, ← Nat.add_assoc 1, Nat.add_comm 1] at hlater

/-- The last bytes of those appended are counted. -/
theorem appendLast (bytes : ByteArray) {count : Nat} (hcount : count ≤ bytes.size) (h : Held c) :
    P (h.appendLast bytes count next) (h.size + (count + amount)) := by
  induction count generalizing h with
  | zero =>
    rw [Nat.zero_add]
    exact hnext h
  | succ count ih =>
    unfold Held.appendLast
    dsimp only
    split
    · have hfits := hnext (h.append (bytes.extract (bytes.size - (count + 1)) bytes.size))
      have hsize : (bytes.extract (bytes.size - (count + 1)) bytes.size).size = count + 1 := by
        rw [ByteArray.size_extract]
        omega
      rwa [size_append, hsize, Nat.add_assoc] at hfits
    · refine hP.withRoom (count + 1 + amount) (fun h => ?_) h
      have hlater := ih (Nat.le_of_succ_le hcount)
        (h.push (byteAt bytes (bytes.size - (count + 1))))
      rwa [size_push, Nat.add_assoc, ← Nat.add_assoc 1, Nat.add_comm 1] at hlater

end Account

/-- Where there is no more input, the end of the stream is not reached, and no more is put out than
is held. -/
theorem doomed_starve (h : Held c) : (h.starve : Procedure α).Doomed h.size := by
  have hnext (h : Held c) : (Procedure.step .expect fun _ => (.corrupt : Procedure α)).Doomed
      (h.size + 0) := ⟨Nat.zero_le _, fun _ _ => trivial⟩
  exact account_doomed.release 0 hnext h

/-- Giving up for want of input is careful. -/
theorem careful_starve (h : Held c) : (h.starve : Procedure α).Careful := by
  refine account_careful.release 0 (fun _ => ?_) h
  exact Procedure.careful_step trivial fun _ => trivial

/-- Asking for more input than there is is careful, if with enough input all that is held without it
is put out. -/
theorem careful_demand {count : Nat} {held : ByteArray → Held c}
    {next : ByteArray → Procedure α} (hnext : ∀ bytes, (next bytes).Careful)
    (hyields : ∀ short full : ByteArray, short.size ≤ full.size →
      (next full).Yields (held short).size) : (demand count held next).Careful := by
  refine ⟨fun short full hshort hle _ => ⟨(held short).size, ?_, ?_⟩, fun bytes => ?_⟩
  · dsimp only
    rw [if_pos hshort]
    exact (held short).doomed_starve
  · dsimp only
    split
    · exact (held full).doomed_starve.yields _
    · exact hyields short full hle
  · dsimp only
    split
    · exact (held bytes).careful_starve
    · exact hnext bytes

/-- Something that is told of what gets all of the input that it asks for, and of all that is
doomed. -/
structure FullAccount (P : Procedure α → Nat → Prop) : Prop extends Account P where
  /-- Reading adds nothing. -/
  take : ∀ {count : Nat} {next : ByteArray → Procedure α} {amount : Nat},
    (∀ bytes, bytes.size ≤ count → P (next bytes) amount) → P (.step (.take count) next) amount
  /-- It is told of what is doomed to put out no more. -/
  of_doomed : ∀ {d : Procedure α} {amount : Nat}, d.Doomed amount → P d amount

/-- That it is doomed can be told of what gets all of its input and of what is doomed. -/
theorem fullAccount_doomed : FullAccount (α := α) Doomed where
  toAccount := account_doomed
  take h := ⟨Nat.zero_le _, h⟩
  of_doomed h := h

/-- What is put out at least can be told of what gets all of its input and of what is doomed. -/
theorem fullAccount_yields : FullAccount (α := α) Yields where
  toAccount := account_yields
  take h := h
  of_doomed h := h.yields _

namespace FullAccount

variable (hP : FullAccount P)

include hP

/-- Asking for bytes adds nothing: either there are enough, or no more than what is held is put
out. -/
theorem demand {count amount : Nat} {held : ByteArray → Held c}
    {next : ByteArray → Procedure α}
    (hheld : ∀ bytes, bytes.size < count → (held bytes).size ≤ amount)
    (hnext : ∀ bytes, bytes.size = count → P (next bytes) amount) :
    P (Held.demand count held next) amount := by
  refine hP.take fun bytes hbytes => ?_
  split
  · next hshort => exact hP.of_doomed ((held bytes).doomed_starve.mono (hheld bytes hshort))
  · next hfull => exact hnext bytes (by omega)

/-- Bytes that are passed on are counted. -/
theorem pass {next : Held c → Procedure α} (amount : Nat)
    (hnext : ∀ h, P (next h) (h.size + amount)) (count : Nat) (h : Held c) :
    P (h.pass count next) (h.size + (count + amount)) := by
  induction count generalizing h with
  | zero =>
    rw [Nat.zero_add]
    exact hnext h
  | succ count ih =>
    unfold Held.pass
    split
    · refine hP.demand (fun bytes hshort => ?_) fun bytes hfull => ?_
      · rw [size_append]
        omega
      · have hfits := hnext (h.append bytes)
        rwa [size_append, hfull, Nat.add_assoc] at hfits
    · refine hP.withRoom (count + 1 + amount) (fun h => ?_) h
      refine hP.demand (fun _ _ => Nat.le_add_right _ _) fun bytes hone => ?_
      have hlater := ih (h.append bytes)
      rwa [size_append, hone, Nat.add_assoc, ← Nat.add_assoc 1, Nat.add_comm 1] at hlater

/-- What is told of all that may follow a step, whatever is held then, is told of the step. -/
theorem filteredFrom_step {op : Operation} {next : op.Answer → Procedure α} {amount : Nat}
    (hlater : ∀ answer, op.Admits answer → ∀ h : Held c,
      P ((next answer).filteredFrom h) (h.size + amount)) (h : Held c) :
    P ((Procedure.step op next).filteredFrom h) (h.size + (op.yield + amount)) := by
  cases op with
  | read =>
    rw [Operation.yield, Nat.zero_add]
    refine hP.demand (fun _ _ => Nat.le_add_right _ _) fun bytes _ => ?_
    exact hlater (byteAt bytes 0) trivial h
  | expect =>
    rw [Operation.yield, Nat.zero_add]
    refine hP.release amount (fun h => ?_) h
    exact hP.quiet trivial rfl fun u => hlater u trivial h
  | take count =>
    rw [Operation.yield, Nat.zero_add]
    exact hP.take fun bytes hbytes => hlater bytes hbytes h
  | pass count => exact hP.pass amount (hlater () trivial) count h
  | write byte =>
    refine hP.withRoom (1 + amount) (fun h => ?_) h
    have hpushed := hlater () trivial (h.push byte)
    rwa [size_push, Nat.add_assoc] at hpushed
  | append bytes => exact hP.appendLast amount (hlater () trivial) bytes (Nat.le_refl _) h
  | room =>
    rw [Operation.yield, Nat.zero_add]
    exact hP.withRoom amount (hlater () trivial) h
  | copy distance count => exact hP.copyBack amount (hlater () trivial) distance count h
  | look | review | space =>
    rw [Operation.yield, Nat.zero_add]
    exact hlater _ trivial h

end FullAccount

/-- Passing on input is careful, if what follows puts out what is held. -/
theorem careful_pass {next : Held c → Procedure α} (hnext : ∀ h, (next h).Careful)
    (hyields : ∀ h, (next h).Yields h.size) (count : Nat) (h : Held c) :
    (h.pass count next).Careful := by
  induction count generalizing h with
  | zero => exact hnext h
  | succ count ih =>
    unfold Held.pass
    split
    · refine careful_demand (fun bytes => hnext (h.append bytes)) fun short full hle => ?_
      refine (hyields (h.append full)).mono ?_
      rw [size_append, size_append]
      exact Nat.add_le_add_left hle h.size
    · refine account_careful.withRoom 0 (fun h => ?_) h
      refine careful_demand (fun bytes => ih (h.append bytes)) fun short full _ => ?_
      have hpass := fullAccount_yields.pass 0 hyields count (h.append full)
      refine hpass.mono ?_
      rw [size_append]
      omega

end Held

namespace Procedure

open Held

variable {α : Type} {c : Converter}

/-- What is held adds to what a doomed procedure puts out. -/
theorem Doomed.filteredFrom {d : Procedure α} {most : Nat} (h : d.Doomed most) (held : Held c) :
    (d.filteredFrom held).Doomed (held.size + most) := by
  induction d generalizing most held with
  | done => exact h.elim
  | corrupt => trivial
  | step op next ih =>
    have hstep := fullAccount_doomed.filteredFrom_step
      (fun answer hanswer held => ih answer (h.2 answer hanswer) held) held
    rwa [Nat.add_sub_cancel' h.1] at hstep

/-- What is held is put out by the end of the stream. -/
theorem Yields.filteredFrom {d : Procedure α} {least : Nat} (h : d.Yields least)
    (held : Held c) : (d.filteredFrom held).Yields (held.size + least) := by
  induction d generalizing least held with
  | done a =>
    have hzero : least = 0 := h
    have hlast (held : Held c) : (Procedure.step (.append (held.output.extract
        held.converted.place held.output.size)) fun _ => .done a).Yields (held.size + 0) := by
      intro _ _
      show held.size + 0 - (held.output.extract held.converted.place held.output.size).size = 0
      rw [ByteArray.size_extract, size]
      omega
    rw [hzero]
    exact account_yields.release 0 hlast held
  | corrupt => trivial
  | step op next ih =>
    have hstep := fullAccount_yields.filteredFrom_step
      (fun answer hanswer held => ih answer (h answer hanswer) held) held
    exact hstep.mono (by omega)

/-- If a procedure is careful, it still is when its output is converted. -/
theorem Careful.filteredFrom {d : Procedure α} (h : d.Careful) (held : Held c) :
    (d.filteredFrom held).Careful := by
  induction d generalizing held with
  | done a =>
    show (held.releaseAll (.done a)).Careful
    refine account_careful.release 0 (fun _ => ?_) held
    exact careful_step trivial fun _ => trivial
  | corrupt => trivial
  | step op next ih =>
    obtain ⟨hcautious, hnext⟩ := h
    have hlater (answer : op.Answer) (held : Held c) : ((next answer).filteredFrom held).Careful :=
      ih answer (hnext answer) held
    have hyields (answer : op.Answer) (held : Held c) :
        ((next answer).filteredFrom held).Yields held.size :=
      (next answer).yields_zero.filteredFrom held
    cases op with
    | read =>
      exact careful_demand (fun bytes => hlater (byteAt bytes 0) held)
        fun _ full _ => hyields (byteAt full 0) held
    | expect =>
      refine account_careful.release 0 (fun held => ?_) held
      exact careful_step trivial fun u => hlater u held
    | take count =>
      refine ⟨fun short full hshort hle hfull => ?_, fun bytes => hlater bytes held⟩
      obtain ⟨amount, hdoomed, hyields⟩ := hcautious short full hshort hle hfull
      exact ⟨held.size + amount, hdoomed.filteredFrom held, hyields.filteredFrom held⟩
    | pass count => exact careful_pass (hlater ()) (hyields ()) count held
    | write byte =>
      exact account_careful.withRoom 0 (fun held => hlater () (held.push byte)) held
    | append bytes =>
      exact account_careful.appendLast 0 (hlater ()) bytes (Nat.le_refl _) held
    | room => exact account_careful.withRoom 0 (hlater ()) held
    | copy distance count =>
      exact account_careful.copyBack 0 (hlater ()) distance count held
    | look | review | space => exact hlater _ held

end Procedure

/-- Runs a decoder whose output is to be converted. -/
def Decoder.filtered {α : Type} (c : Converter) (d : Decoder α) : Decoder α where
  procedure := (Held.empty c).bounded d.procedure.filteredFrom
  careful := Held.account_careful.bounded 0 d.careful.filteredFrom (.empty c)

end MapArchive
