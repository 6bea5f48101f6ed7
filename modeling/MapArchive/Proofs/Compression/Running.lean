import MapArchive.Proofs.Compression.Operations

/-!
# Runs on longer and on shorter input

A procedure that has come to the end of the stream, or to more output than is wanted, would have
come to it whatever followed. A careful procedure that would have come to the end of the stream does
not come to it on less input, unless what is missing is not part of the stream; and what it puts out
fits into what it would have put out on the whole input.
-/

namespace MapArchive.Procedure

variable {α β : Type} {limit : Nat}

/-! ## Sizes -/

/-- A run that comes to the end of the stream has only added to the output, within what is wanted,
and has gone on in the same input. -/
theorem sizes_of_run {d : Procedure α} {b after : Buffers} {a : α}
    (h : d.run limit b = .ok (a, after)) :
    b.output.size ≤ after.output.size ∧
      (b.output.size ≤ limit → after.output.size ≤ limit) ∧
      after.input.bytes = b.input.bytes ∧ (b.input.IsWithin → after.input.IsWithin) := by
  induction d generalizing b with
  | done =>
    cases h
    exact ⟨Nat.le_refl _, id, rfl, id⟩
  | corrupt => cases h
  | step op next ih =>
    rw [run] at h
    split at h
    case h_1 answer middle hperform =>
      have hdone := performed hperform
      obtain ⟨hgrows, hlimit, hbytes, hwithin⟩ := ih answer h
      have hsize := hdone.size_output
      refine ⟨by omega, fun hle => hlimit (hdone.size_le hle), ?_, fun hb => ?_⟩
      · rw [hbytes, hdone.bytes_input]
      · exact hwithin (hdone.isWithin hb)
    case h_2 => cases h

/-- Neither does a run that ends for want of input put out more than is wanted. -/
theorem size_of_run_starved {d : Procedure α} {b : Buffers} {output : ByteArray}
    (h : d.run limit b = .error (.starved output)) (hle : b.output.size ≤ limit) :
    output.size ≤ limit := by
  induction d generalizing b with
  | done | corrupt => cases h
  | step op next ih =>
    rw [run] at h
    split at h
    case h_1 answer middle hperform => exact ih answer h ((performed hperform).size_le hle)
    case h_2 halt hperform =>
      cases h
      exact (size_of_perform_starved hperform).2 hle

/-- What has to be put out by the end of the stream was put out when it was reached. -/
theorem Yields.size_of_run {d : Procedure α} {least : Nat} (hd : d.Yields least)
    {b after : Buffers} {a : α} (h : d.run limit b = .ok (a, after)) :
    b.output.size + least ≤ after.output.size := by
  induction d generalizing b least with
  | done =>
    have hzero : least = 0 := hd
    cases h
    omega
  | corrupt => cases h
  | step op next ih =>
    rw [run] at h
    split at h
    case h_1 answer middle hperform =>
      have hdone := performed hperform
      have hrest := ih answer (hd answer hdone.admits) h
      have hsize := hdone.size_output
      omega
    case h_2 => cases h

/-- A doomed procedure does not come to the end of the stream. -/
theorem Doomed.run_ne_ok {d : Procedure α} {most : Nat} (hd : d.Doomed most) (b : Buffers)
    (result : α × Buffers) : d.run limit b ≠ .ok result := by
  induction d generalizing b most with
  | done => exact hd.elim
  | corrupt =>
    intro h
    cases h
  | step op next ih =>
    intro h
    rw [run] at h
    split at h
    case h_1 answer middle hperform =>
      exact ih answer (hd.2 answer (performed hperform).admits) middle h
    case h_2 => cases h

/-- Where there is room for all that a doomed procedure puts out, it ends for want of input or
because the input is no stream of its kind. -/
theorem Doomed.run_eq {d : Procedure α} {most : Nat} (hd : d.Doomed most) {b : Buffers}
    (hroom : b.output.size + most < limit) :
    d.run limit b = .error .corrupt ∨
      ∃ output, d.run limit b = .error (.starved output) ∧
        output.size ≤ b.output.size + most := by
  induction d generalizing b most with
  | done => exact hd.elim
  | corrupt => exact .inl rfl
  | step op next ih =>
    obtain ⟨hyield, hnext⟩ := hd
    rw [run]
    rcases hperform : perform limit op b with halt | ⟨answer, middle⟩
    · cases halt with
      | starved output =>
        have hsize := (size_of_perform_starved hperform).1
        exact .inr ⟨output, rfl, by omega⟩
      | overfull => exact absurd hperform (perform_ne_overfull (by omega))
      | corrupt => exact absurd hperform (perform_ne_corrupt op b)
    · have hdone := performed hperform
      have hsize := hdone.size_output
      have hrest : middle.output.size + (most - op.yield) < limit := by omega
      dsimp only
      obtain hcorrupt | ⟨output, hstarved, hle⟩ := ih answer (hnext answer hdone.admits) hrest
      · exact .inl hcorrupt
      · exact .inr ⟨output, hstarved, by omega⟩

/-! ## Whatever follows -/

/-- What has come to the end of the stream got all of the input that it asked for. -/
theorem IsCautious.isServed {op : Operation} {next : op.Answer → Procedure α}
    (hcautious : IsCautious op next) {b : Buffers} {result : α × Buffers}
    (h : (step op next).run limit b = .ok result) : IsServed op b.input := by
  rintro count rfl
  refine Nat.le_of_not_lt fun hcut => ?_
  obtain ⟨input, output⟩ := b
  have hcut : input.remaining < count := hcut
  have hsize : (input.bytes.extract input.start (input.start + min count input.remaining)).size ≤
      input.remaining := by
    rw [ByteArray.size_extract]
    omega
  obtain ⟨amount, hdoomed, -⟩ := hcautious _ _ (Nat.lt_of_le_of_lt hsize hcut) (Nat.le_refl _)
    (Nat.le_trans hsize (Nat.le_of_lt hcut))
  exact hdoomed.run_ne_ok _ result h

/-- A careful procedure that comes to the end of the stream does so whatever follows. -/
theorem Careful.run_extend {d : Procedure α} (hd : d.Careful) {b after : Buffers} {a : α}
    (hwithin : b.input.IsWithin) (h : d.run limit b = .ok (a, after)) (more : ByteArray) :
    d.run limit (b.extend more) = .ok (a, after.extend more) := by
  induction d generalizing b with
  | done =>
    cases h
    rfl
  | corrupt => cases h
  | step op next ih =>
    obtain ⟨hcautious, hnext⟩ := hd
    have hserved : IsServed op b.input := hcautious.isServed h
    rw [run] at h
    split at h
    case h_1 answer middle hperform =>
      have hmiddle := (performed hperform).isWithin hwithin
      rw [run, perform_extend hwithin hserved hperform more]
      exact ih answer (hnext answer) hmiddle h
    case h_2 => cases h

/-- A procedure comes to want to put out more than `limit` bytes, before it has come upon the end of
its input. -/
inductive Overflows (limit : Nat) : Procedure α → Buffers → Prop where
  /-- There is no room for what an operation puts out. -/
  | now {op : Operation} {next : op.Answer → Procedure α} {b : Buffers} :
      perform limit op b = .error .overfull → Overflows limit (.step op next) b
  /-- An operation gets what it asks for, and it comes to this later. -/
  | later {op : Operation} {next : op.Answer → Procedure α} {b after : Buffers}
      {answer : op.Answer} : IsServed op b.input → perform limit op b = .ok (answer, after) →
      Overflows limit (next answer) after → Overflows limit (.step op next) b

/-- A procedure that has more output than is wanted has it whatever follows. -/
theorem Overflows.run_extend {d : Procedure α} {b : Buffers} (hwithin : b.input.IsWithin)
    (h : d.Overflows limit b) (more : ByteArray) :
    d.run limit (b.extend more) = .error .overfull := by
  induction h with
  | now hperform => rw [run, perform_extend_of_overfull hwithin hperform more]
  | later hserved hperform _ ih =>
    rw [run, perform_extend hwithin hserved hperform more]
    exact ih ((performed hperform).isWithin hwithin)

/-- Of two careful procedures one after the other it is the first one that comes to want more room,
or it comes to the end of its stream and the second one wants more. -/
theorem overflows_andThen_iff {d : Procedure α} (hd : d.Careful) {b : Buffers}
    {f : α → Procedure β} :
    (d.andThen f).Overflows limit b ↔
      d.Overflows limit b ∨
        ∃ a after, d.run limit b = .ok (a, after) ∧ (f a).Overflows limit after := by
  induction d generalizing b with
  | done a =>
    constructor
    · intro h
      exact .inr ⟨a, b, rfl, h⟩
    · rintro (h | ⟨_, _, hrun, h⟩)
      · cases h
      · cases hrun
        exact h
  | corrupt =>
    constructor
    · intro h
      cases h
    · rintro (h | ⟨_, _, hrun, _⟩)
      · cases h
      · cases hrun
  | step op next ih =>
    obtain ⟨hcautious, hnext⟩ := hd
    constructor
    · intro h
      cases h with
      | now hperform => exact .inl (.now hperform)
      | later hserved hperform hrest =>
        rcases (ih _ (hnext _)).1 hrest with hleft | ⟨a, after, hrun, hright⟩
        · exact .inl (.later hserved hperform hleft)
        · refine .inr ⟨a, after, ?_, hright⟩
          rw [run, hperform]
          exact hrun
    · rintro (h | ⟨a, after, hrun, hright⟩)
      · cases h with
        | now hperform => exact .now hperform
        | later hserved hperform hleft =>
          exact .later hserved hperform ((ih _ (hnext _)).2 (.inl hleft))
      · -- What comes to the end of the stream gets all of the input that it asks for.
        have hserved : IsServed op b.input := hcautious.isServed hrun
        rw [run] at hrun
        split at hrun
        case h_1 answer middle hperform =>
          exact .later hserved hperform ((ih _ (hnext _)).2 (.inr ⟨a, after, hrun, hright⟩))
        case h_2 => cases hrun

/-! ## On less input -/

/-- A `take` that gets less than with more input is followed by something doomed, which puts out no
more than what would have followed. -/
theorem IsCautious.run_of_extend {count : Nat} {next : ByteArray → Procedure α}
    (hcautious : IsCautious (.take count) next) {b after : Buffers} {a : α} {more : ByteArray}
    (hwithin : b.input.IsWithin) (hcut : b.input.remaining < count)
    (h : (step (.take count) next).run limit (b.extend more) = .ok (a, after))
    (hroom : after.output.size < limit) :
    (step (.take count) next).run limit b = .error .corrupt ∨
      ∃ output, (step (.take count) next).run limit b = .error (.starved output) ∧
        output.size ≤ after.output.size := by
  obtain ⟨input, output⟩ := b
  have hstart : input.start ≤ input.bytes.size := hwithin
  have hcut : input.bytes.size - input.start < count := hcut
  have hsize : (input.extend more).bytes.size = input.bytes.size + more.size :=
    ByteArray.size_append
  -- What is taken of the shorter input, and of the longer one.
  obtain ⟨short, hshort⟩ : ∃ short, short =
      input.bytes.extract input.start (input.start + min count input.remaining) := ⟨_, rfl⟩
  obtain ⟨full, hfull⟩ : ∃ full, full = (input.extend more).bytes.extract input.start
      (input.start + min count (input.extend more).remaining) := ⟨_, rfl⟩
  have hshortSize : short.size = input.bytes.size - input.start := by
    rw [hshort, ByteArray.size_extract, Cursor.remaining]
    omega
  have hmore : (input.extend more).remaining = input.bytes.size - input.start + more.size :=
    Cursor.remaining_extend hwithin more
  have hfullSize : full.size = min count (input.bytes.size - input.start + more.size) := by
    rw [hfull, ByteArray.size_extract, hmore, hsize]
    omega
  obtain ⟨amount, hdoomed, hyields⟩ :=
    hcautious short full (by omega) (by omega) (by omega)
  have hlong : (next full).run limit ⟨⟨(input.extend more).bytes, input.start + min count
      (input.extend more).remaining⟩, output⟩ = .ok (a, after) := by
    rw [hfull]
    exact h
  have hput := hyields.size_of_run hlong
  have hlt : output.size + amount < limit := Nat.lt_of_le_of_lt hput hroom
  have hrun : (step (.take count) next).run limit ⟨input, output⟩ = (next short).run limit
      ⟨⟨input.bytes, input.start + min count input.remaining⟩, output⟩ := by
    rw [hshort]
    rfl
  rw [hrun]
  obtain hcorrupt | ⟨found, hstarved, hle⟩ := hdoomed.run_eq (b := ⟨_, output⟩) hlt
  · exact .inl hcorrupt
  · exact .inr ⟨found, hstarved, Nat.le_trans hle hput⟩

/-- A careful procedure that comes to the end of the stream on some input, with room to spare, does
so on a first part of the input too; or else it ends for want of input, with no more output, or
because the input is no stream of its kind. -/
theorem Careful.run_of_extend {d : Procedure α} (hd : d.Careful) {b after : Buffers} {a : α}
    {more : ByteArray} (hwithin : b.input.IsWithin)
    (h : d.run limit (b.extend more) = .ok (a, after)) (hroom : after.output.size < limit) :
    (∃ middle, d.run limit b = .ok (a, middle) ∧ after = middle.extend more) ∨
      d.run limit b = .error .corrupt ∨
      ∃ output, d.run limit b = .error (.starved output) ∧
        output.size ≤ after.output.size := by
  induction d generalizing b with
  | done =>
    cases h
    exact .inl ⟨b, rfl, rfl⟩
  | corrupt => cases h
  | step op next ih =>
    obtain ⟨hcautious, hnext⟩ := hd
    rcases isServed_or_cut op b.input with hserved | ⟨count, rfl, hcut⟩
    · rcases hperform : perform limit op b with halt | ⟨answer, middle⟩
      · cases halt with
        | starved output =>
          have hsize := (size_of_perform_starved hperform).1
          right
          right
          refine ⟨output, by rw [run, hperform], ?_⟩
          rw [run] at h
          split at h
          case h_1 answer middle hlong =>
            have hput := (performed hlong).size_output
            have hgrows := (sizes_of_run h).1
            have hbefore : (b.extend more).output.size = b.output.size := rfl
            omega
          case h_2 => cases h
        | overfull =>
          rw [run, perform_extend_of_overfull hwithin hperform more] at h
          cases h
        | corrupt => exact absurd hperform (perform_ne_corrupt op b)
      · rw [run, perform_extend hwithin hserved hperform more] at h
        rw [run, hperform]
        exact ih answer (hnext answer) ((performed hperform).isWithin hwithin) h
    · exact .inr (hcautious.run_of_extend hwithin hcut h hroom)

end MapArchive.Procedure
