import MapArchive.Compression.Decoder

/-!
# Metered decoding

The parts of some streams declare how many bytes of input they take and how many bytes of output
they give. `metered` lets a decoder run with such allowances, and counts what it takes and gives. A
decoder that wants more than its allowance is stopped: the stream is corrupt. Whether this is seen
can depend on the other side: wanting more input is seen when there is room for more output, and
having more output is seen when there is more input, unless both allowances are used up.
-/

namespace MapArchive

/-- How much has been read and put out, and how much may be. -/
structure Meter where
  /-- The number of bytes read. -/
  taken : Nat
  /-- The number of bytes put out. -/
  given : Nat
  /-- How many bytes may be read, if this is limited. -/
  takeLimit : Option Nat
  /-- How many bytes may be put out, if this is limited. -/
  giveLimit : Option Nat
  deriving DecidableEq, Repr

namespace Meter

/-- Nothing read or put out so far. -/
def start (takeLimit giveLimit : Option Nat) : Meter := ⟨0, 0, takeLimit, giveLimit⟩

/-- How many of `count` bytes may still be read. -/
def takeable (m : Meter) (count : Nat) : Nat :=
  match m.takeLimit with
  | none => count
  | some limit => min count (limit - m.taken)

/-- How many of `count` bytes may still be put out. -/
def giveable (m : Meter) (count : Nat) : Nat :=
  match m.giveLimit with
  | none => count
  | some limit => min count (limit - m.given)

/-- After reading and putting out so many bytes. -/
def add (m : Meter) (taken given : Nat) : Meter :=
  { m with taken := m.taken + taken, given := m.given + given }

/-- No more may be taken than is asked for. -/
theorem takeable_le (m : Meter) (count : Nat) : m.takeable count ≤ count := by
  unfold takeable
  split <;> omega

/-- No more may be given than is asked for. -/
theorem giveable_le (m : Meter) (count : Nat) : m.giveable count ≤ count := by
  unfold giveable
  split <;> omega

/-- What follows on wanting more of something than is allowed. -/
def stop {α : Type} (m : Meter) : Procedure α :=
  if m.takeable 1 = 0 then
    if m.giveable 1 = 0 then .corrupt else .step .room fun _ => .corrupt
  else .step .expect fun _ => .corrupt

/-- A procedure that is stopped by its meter is doomed to put out nothing. -/
theorem doomed_stop {α : Type} (m : Meter) (most : Nat) : (m.stop : Procedure α).Doomed most := by
  have hstep (op : Operation) (hyield : op.yield = 0) :
      (Procedure.step op fun _ => (.corrupt : Procedure α)).Doomed most :=
    ⟨by rw [hyield]; exact Nat.zero_le most, fun _ _ => trivial⟩
  unfold stop
  split
  · split
    · trivial
    · exact hstep .room rfl
  · exact hstep .expect rfl

/-- A procedure that is stopped by its meter is careful. -/
theorem careful_stop {α : Type} (m : Meter) : (m.stop : Procedure α).Careful := by
  unfold stop
  split
  · split
    · trivial
    · exact ⟨trivial, fun _ => trivial⟩
  · exact ⟨trivial, fun _ => trivial⟩

end Meter

namespace Procedure

variable {α : Type}

/-- Lets a procedure run within the allowances of a meter. -/
def metered : Procedure α → Meter → Procedure (α × Meter)
  | .done a, m => .done (a, m)
  | .corrupt, _ => .corrupt
  | .step .read next, m =>
    if m.takeable 1 = 0 then m.stop
    else .step .read fun byte => (next byte).metered (m.add 1 0)
  | .step .expect next, m =>
    if m.takeable 1 = 0 then m.stop else .step .expect fun u => (next u).metered m
  | .step (.take count) next, m =>
    .step (.take (m.takeable count)) fun bytes => (next bytes).metered (m.add bytes.size 0)
  | .step (.pass count) next, m =>
    let fitting := m.giveable (m.takeable count)
    .step (.pass fitting) fun u =>
      let m := m.add fitting fitting
      if fitting < count then m.stop else (next u).metered m
  | .step (.write byte) next, m =>
    if m.giveable 1 = 0 then m.stop
    else .step (.write byte) fun u => (next u).metered (m.add 0 1)
  | .step (.append bytes) next, m =>
    let fitting := m.giveable bytes.size
    .step (.append (bytes.extract 0 fitting)) fun u =>
      let m := m.add 0 fitting
      if fitting < bytes.size then m.stop else (next u).metered m
  | .step .room next, m =>
    if m.giveable 1 = 0 then m.stop else .step .room fun u => (next u).metered m
  | .step (.copy distance count) next, m =>
    let fitting := m.giveable count
    .step (.copy distance fitting) fun u =>
      let m := m.add 0 fitting
      if fitting < count then m.stop else (next u).metered m
  | .step (.look distance) next, m =>
    .step (.look distance) fun byte => (next byte).metered m
  | .step (.review start) next, m =>
    .step (.review start) fun bytes => (next bytes).metered m
  | .step .space next, m => .step .space fun count => (next (m.giveable count)).metered m

/-- A meter lets no more output through. -/
theorem Doomed.metered {d : Procedure α} {most : Nat} (h : d.Doomed most) (m : Meter) :
    (d.metered m).Doomed most := by
  induction d generalizing most m with
  | done => exact h.elim
  | corrupt => trivial
  | step op next ih =>
    obtain ⟨hyield, hnext⟩ := h
    -- What is left of `most` after a step can only be more than without the meter.
    have hlater {answer : op.Answer} (hanswer : op.Admits answer) {n : Nat}
        (hn : n ≤ op.yield) (m : Meter) : ((next answer).metered m).Doomed (most - n) :=
      (ih answer (hnext answer hanswer) m).mono (Nat.sub_le_sub_left hn most)
    cases op with
    | read | expect | write | room =>
      simp only [Procedure.metered]
      split
      · exact m.doomed_stop most
      · exact ⟨hyield, fun answer _ => hlater trivial (Nat.le_refl _) _⟩
    | look | review | space =>
      exact ⟨hyield, fun answer _ => hlater trivial (Nat.le_refl _) _⟩
    | take count =>
      refine ⟨hyield, fun bytes hbytes => ?_⟩
      exact hlater (Nat.le_trans hbytes (m.takeable_le count)) (Nat.le_refl _) _
    | pass count =>
      have hfitting : m.giveable (m.takeable count) ≤ count :=
        Nat.le_trans (m.giveable_le _) (m.takeable_le count)
      refine ⟨Nat.le_trans hfitting hyield, fun u _ => ?_⟩
      dsimp only
      split
      · exact Meter.doomed_stop _ _
      · exact hlater trivial hfitting _
    | append bytes =>
      have hsize : (bytes.extract 0 (m.giveable bytes.size)).size ≤ bytes.size := by
        rw [ByteArray.size_extract]
        omega
      refine ⟨Nat.le_trans hsize hyield, fun u _ => ?_⟩
      dsimp only
      split
      · exact Meter.doomed_stop _ _
      · exact hlater trivial hsize _
    | copy distance count =>
      have hfitting : m.giveable count ≤ count := m.giveable_le count
      refine ⟨Nat.le_trans hfitting hyield, fun u _ => ?_⟩
      dsimp only
      split
      · exact Meter.doomed_stop _ _
      · exact hlater trivial hfitting _

/-- What comes to the end of the stream within its allowances has put out all of its output. -/
theorem Yields.metered {d : Procedure α} {least : Nat} (h : d.Yields least) (m : Meter) :
    (d.metered m).Yields least := by
  induction d generalizing least m with
  | done a => exact h
  | corrupt => trivial
  | step op next ih =>
    have hlater {answer : op.Answer} (hanswer : op.Admits answer) {n : Nat}
        (hn : op.yield ≤ n) (m : Meter) : ((next answer).metered m).Yields (least - n) :=
      (ih answer (h answer hanswer) m).mono (Nat.sub_le_sub_left hn least)
    cases op with
    | read | expect | write | room =>
      simp only [Procedure.metered]
      split
      · exact (m.doomed_stop 0).yields least
      · exact fun answer _ => hlater trivial (Nat.le_refl _) _
    | look | review | space => exact fun answer _ => hlater trivial (Nat.le_refl _) _
    | take count =>
      intro bytes hbytes
      exact hlater (Nat.le_trans hbytes (m.takeable_le count)) (Nat.le_refl _) _
    | pass count | copy distance count =>
      intro u _
      dsimp only
      split
      · exact (Meter.doomed_stop _ 0).yields _
      · next hfitting => exact hlater trivial (Nat.le_of_not_lt hfitting) _
    | append bytes =>
      intro u _
      dsimp only
      split
      · exact (Meter.doomed_stop _ 0).yields _
      · next hfitting =>
        refine hlater trivial ?_ _
        have hle : bytes.size ≤ m.giveable bytes.size := Nat.le_of_not_lt hfitting
        show bytes.size ≤ (bytes.extract 0 (m.giveable bytes.size)).size
        rw [ByteArray.size_extract]
        omega

/-- Within allowances a careful procedure is careful. -/
theorem Careful.metered {d : Procedure α} (h : d.Careful) (m : Meter) : (d.metered m).Careful := by
  induction d generalizing m with
  | done | corrupt => trivial
  | step op next ih =>
    obtain ⟨hcautious, hnext⟩ := h
    have hlater (answer : op.Answer) (m : Meter) : ((next answer).metered m).Careful :=
      ih answer (hnext answer) m
    cases op with
    | read | expect | write | room =>
      simp only [Procedure.metered]
      split
      · exact m.careful_stop
      · exact ⟨trivial, fun answer => hlater answer _⟩
    | look | review | space => exact ⟨trivial, fun answer => hlater _ _⟩
    | take count =>
      refine ⟨fun short full hshort hle hfull => ?_, fun bytes => hlater bytes _⟩
      have htakeable := m.takeable_le count
      obtain ⟨amount, hdoomed, hyields⟩ := hcautious short full
        (Nat.lt_of_lt_of_le hshort htakeable) hle (Nat.le_trans hfull htakeable)
      exact ⟨amount, hdoomed.metered _, hyields.metered _⟩
    | pass | append | copy =>
      refine ⟨trivial, fun u => ?_⟩
      dsimp only
      split
      · exact Meter.careful_stop _
      · exact hlater () _

end Procedure

/-- Lets a decoder run within the allowances of a meter. -/
def Decoder.metered {α : Type} (d : Decoder α) (m : Meter) : Decoder (α × Meter) :=
  ⟨d.procedure.metered m, d.careful.metered m⟩

end MapArchive
