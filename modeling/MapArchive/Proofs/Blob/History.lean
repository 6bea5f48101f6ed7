import MapArchive.Blob.Reader

/-!
# Histories of a reader

A reader is asked for the next blob or told to move, in any order. A history lists the steps that
were taken, each with the reader before and after it. What holds of the reader after any requests
follows from what one step does; this is said here once, and everything about longer histories is
derived from it.
-/

namespace MapArchive

/-- A result that is there when errors are dropped is that of a success. -/
theorem eq_ok_of_toOption {ε α : Type} {result : Except ε α} {a : α}
    (h : result.toOption = some a) : result = .ok a := by
  cases result with
  | error e => cases h
  | ok b => exact congrArg Except.ok (Option.some.inj h)

namespace BlobReader

variable {σ : Type} [ByteStream σ]

/-- What can be asked of a reader. -/
inductive Request where
  /-- The next blob. -/
  | next
  /-- To move to an offset. -/
  | seek (offset : Int)
  /-- To move, with a number that tells where the offset is counted from. -/
  | seekRaw (offset whence : Int)
  deriving DecidableEq, Repr

/-- What a reader answers. -/
inductive Answer where
  /-- The next blob, if there is one. -/
  | blob (result : Except ReadError (Option Blob))
  /-- The position that the stream was moved to. -/
  | position (result : Except StreamFault Nat)

/-- Does what is asked for. -/
def serve (request : Request) (r : BlobReader σ) : Answer × BlobReader σ :=
  match request with
  | .next => (.blob r.next.1, r.next.2)
  | .seek offset => (.position (r.seek offset).1, (r.seek offset).2)
  | .seekRaw offset whence => (.position (r.seekRaw offset whence).1, (r.seekRaw offset whence).2)

/-- A request that was served. -/
structure Step (σ : Type) where
  /-- The reader before. -/
  before : BlobReader σ
  /-- What was asked for. -/
  request : Request
  /-- What was answered. -/
  answer : Answer
  /-- The reader after. -/
  after : BlobReader σ

namespace Step

/-- The stream was moved, so that the offset is known from here on. -/
def Locates (x : Step σ) : Prop := ∃ position, x.answer = .position (.ok position)

/-- An error in the archive was found. -/
def Fails (x : Step σ) : Prop := ∃ e, x.answer = .blob (.error (.archive e))

/-- The system refused to move the stream. -/
def Strays (x : Step σ) : Prop :=
  ∃ fault : StreamFault, fault.isOfSystem = true ∧ x.answer = .position (.error fault)

/-- Nothing is known of where the next blob starts from here on. -/
def Loses (x : Step σ) : Prop := x.Fails ∨ x.Strays

end Step

/-- One step. -/
def step (request : Request) (r : BlobReader σ) : Step σ :=
  ⟨r, request, (r.serve request).1, (r.serve request).2⟩

/-- The steps that requests lead to, one after the other. -/
def history : List Request → BlobReader σ → List (Step σ)
  | [], _ => []
  | request :: requests, r => r.step request :: history requests (r.step request).after

/-- The reader after some requests. -/
def final : List Request → BlobReader σ → BlobReader σ
  | [], r => r
  | request :: requests, r => final requests (r.step request).after

/-- What a reader answers to some requests. -/
def answers (requests : List Request) (r : BlobReader σ) : List Answer :=
  (history requests r).map Step.answer

variable {r : BlobReader σ} {x : Step σ}

/-- Without requests a reader stays as it is. -/
@[simp] theorem final_nil : final [] r = r := rfl

/-- The first request is carried out before the others. -/
@[simp] theorem final_cons (request : Request) (requests : List Request) :
    final (request :: requests) r = final requests (r.step request).after := rfl

/-- Without requests there is no history. -/
@[simp] theorem history_nil : history [] r = [] := rfl

/-- A history starts with the step for the first request. -/
@[simp] theorem history_cons (request : Request) (requests : List Request) :
    history (request :: requests) r =
      r.step request :: history requests (r.step request).after := rfl

/-- A history of requests in two parts is that of the first part and then that of the second. -/
theorem history_append (first second : List Request) (r : BlobReader σ) :
    history (first ++ second) r = history first r ++ history second (final first r) := by
  induction first generalizing r with
  | nil => rfl
  | cons request first ih =>
    rw [List.cons_append, history_cons, history_cons, final_cons, ih, List.cons_append]

/-- What every step preserves holds after any requests. -/
theorem final_induction {P : BlobReader σ → Prop}
    (hstep : ∀ (request : Request) (r : BlobReader σ), P r → P (r.step request).after)
    (requests : List Request) (h : P r) : P (final requests r) := by
  induction requests generalizing r with
  | nil => exact h
  | cons request requests ih => exact ih (hstep request r h)

section Next

variable {t : σ}

/-- A halted reader does nothing. -/
theorem next_of_isHalted (h : r.isHalted = true) : r.next = (.ok none, r) := if_pos h

/-- An error in a frame stops the reader for good, at an unknown offset. -/
theorem next_of_failure {e : ArchiveError} (h : r.isHalted = false)
    (hread : Frame.read r.stream = (.error (.archive e), t)) :
    r.next = (.error (.archive e), { r with stream := t, offset := none, isHalted := true }) := by
  rw [next, if_neg (by simp [h]), hread]

/-- A refusal of the stream is passed on and leaves the reader running. -/
theorem next_of_refusal {fault : StreamFault} (h : r.isHalted = false)
    (hread : Frame.read r.stream = (.error (.stream fault), t)) :
    r.next = (.error (.stream fault), { r with stream := t }) := by
  rw [next, if_neg (by simp [h]), hread]

/-- At the end there is no blob, and the reader goes on running. -/
theorem next_of_end (h : r.isHalted = false) (hread : Frame.read r.stream = (.ok none, t)) :
    r.next = (.ok none, { r with stream := t }) := by
  rw [next, if_neg (by simp [h]), hread]

/-- A frame is given as a blob, and the offset moves on past it. -/
theorem next_of_frame {frame : Frame} (h : r.isHalted = false)
    (hread : Frame.read r.stream = (.ok (some frame), t)) :
    r.next = (.ok (some (frame.blob r.offset)),
      { r with stream := t, offset := r.offset.map (· + frame.size) }) := by
  rw [next, if_neg (by simp [h]), hread]

end Next

/-- The offset that a request asks to move to, and what it is counted from. -/
def Request.move? : Request → Option (Int × Int)
  | .next => none
  | .seek offset => some (offset, 0)
  | .seekRaw offset whence => some (offset, whence)

/-- All that a step can do. -/
inductive Effect (r : BlobReader σ) : Request → Answer → BlobReader σ → Prop where
  /-- The reader has halted before. -/
  | halted (h : r.isHalted = true) : Effect r .next (.blob (.ok none)) r
  /-- There is an error in the archive. -/
  | failed {e : ArchiveError} {t : σ} (h : r.isHalted = false)
      (hread : Frame.read r.stream = (.error (.archive e), t)) :
      Effect r .next (.blob (.error (.archive e)))
        { r with stream := t, offset := none, isHalted := true }
  /-- The stream refuses to be read. -/
  | refused {fault : StreamFault} {t : σ} (h : r.isHalted = false)
      (hread : Frame.read r.stream = (.error (.stream fault), t)) :
      Effect r .next (.blob (.error (.stream fault))) { r with stream := t }
  /-- The stream has ended. -/
  | ended {t : σ} (h : r.isHalted = false) (hread : Frame.read r.stream = (.ok none, t)) :
      Effect r .next (.blob (.ok none)) { r with stream := t }
  /-- There is a blob. -/
  | found {frame : Frame} {t : σ} (h : r.isHalted = false)
      (hread : Frame.read r.stream = (.ok (some frame), t)) :
      Effect r .next (.blob (.ok (some (frame.blob r.offset))))
        { r with stream := t, offset := r.offset.map (· + frame.size) }
  /-- The stream is moved. -/
  | moved {request : Request} {offset whence : Int} {position : Nat} {t : σ}
      (hmove : request.move? = some (offset, whence))
      (hseek : ByteStream.seek offset whence r.stream = (.ok position, t)) :
      Effect r request (.position (.ok position)) { r with stream := t, offset := some position }
  /-- The system refuses to move the stream. -/
  | strayed {request : Request} {offset whence : Int} {fault : StreamFault} {t : σ}
      (hmove : request.move? = some (offset, whence))
      (hseek : ByteStream.seek offset whence r.stream = (.error fault, t))
      (hfault : fault.isOfSystem = true) :
      Effect r request (.position (.error fault)) { r with stream := t, offset := none }
  /-- The stream was asked to move in a way that it does not know. -/
  | kept {request : Request} {offset whence : Int} {fault : StreamFault} {t : σ}
      (hmove : request.move? = some (offset, whence))
      (hseek : ByteStream.seek offset whence r.stream = (.error fault, t))
      (hfault : fault.isOfSystem = false) :
      Effect r request (.position (.error fault)) { r with stream := t }

/-- Asking for the next blob does one of the things that it can do. -/
theorem effect_next (r : BlobReader σ) : Effect r .next (.blob r.next.1) r.next.2 := by
  rcases Bool.eq_false_or_eq_true r.isHalted with h | h
  · rw [next_of_isHalted h]
    exact .halted h
  · rcases hread : Frame.read r.stream with ⟨answer, t⟩
    cases answer with
    | error e =>
      cases e with
      | archive e =>
        rw [next_of_failure h hread]
        exact .failed h hread
      | stream fault =>
        rw [next_of_refusal h hread]
        exact .refused h hread
    | ok found =>
      cases found with
      | none =>
        rw [next_of_end h hread]
        exact .ended h hread
      | some frame =>
        rw [next_of_frame h hread]
        exact .found h hread

/-- Asking to move does one of the things that it can do. -/
theorem effect_seekRaw {request : Request} {offset whence : Int} (r : BlobReader σ)
    (hmove : request.move? = some (offset, whence)) :
    Effect r request (.position (r.seekRaw offset whence).1) (r.seekRaw offset whence).2 := by
  rcases hseek : ByteStream.seek offset whence r.stream with ⟨answer, t⟩
  cases answer with
  | ok position =>
    rw [seekRaw, hseek]
    exact .moved hmove hseek
  | error fault =>
    rw [seekRaw, hseek]
    rcases Bool.eq_false_or_eq_true fault.isOfSystem with hfault | hfault
    · dsimp only
      rw [if_pos hfault]
      exact .strayed hmove hseek hfault
    · dsimp only
      rw [if_neg (by simp [hfault])]
      exact .kept hmove hseek hfault

/-- Every step does one of the things that it can do. -/
theorem effect_step (request : Request) (r : BlobReader σ) :
    Effect r request (r.step request).answer (r.step request).after := by
  cases request with
  | next => exact r.effect_next
  | seek offset => exact r.effect_seekRaw rfl
  | seekRaw offset whence => exact r.effect_seekRaw rfl

/-- The reader was just made on a stream, whether it knows offsets or not. -/
def IsMadeOn (r : BlobReader σ) (s : σ) : Prop := r = ofStream s ∨ ofSeekable s = .ok r

/-- Where a stream stands is all that a reader which knows offsets asks for. -/
theorem ofSeekable_eq_ok {s : σ} (h : ofSeekable s = .ok r) :
    ∃ position, ByteStream.tell s = .ok position ∧ r = ⟨s, some position, false, false⟩ := by
  unfold ofSeekable at h
  cases htell : ByteStream.tell s with
  | error fault =>
    rw [htell] at h
    cases h
  | ok position =>
    rw [htell] at h
    cases h
    exact ⟨position, rfl, rfl⟩

/-- No reader has halted when it is made. -/
theorem isHalted_of_isMadeOn {s : σ} (h : r.IsMadeOn s) : r.isHalted = false := by
  rcases h with rfl | h
  · rfl
  · obtain ⟨_, _, rfl⟩ := ofSeekable_eq_ok h
    rfl

end BlobReader

end MapArchive
