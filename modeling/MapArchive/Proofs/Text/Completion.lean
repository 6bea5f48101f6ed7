import MapArchive.Proofs.Text.Validity

/-!
# Bytes that end too early and bytes that are wrong

Bytes that are refused either end inside of a character or hold a byte that rules a text out. The
former can be completed to a text: whatever character has been begun, there is a next byte for it,
and after that any of the later ones. The latter cannot, as a byte that rules a text out does so
whatever follows.
-/

namespace MapArchive.Utf8

/-- What the next byte brings about. -/
def progress : Option Pending → UInt8 → Except Fault Progress
  | none, b => start b
  | some p, b => p.step b

/-- Reading goes on according to what the next byte brings about. -/
theorem decodeOnto_cons (seen : List Char) (pending : Option Pending) (b : UInt8)
    (rest : List UInt8) :
    decodeOnto seen pending (b :: rest) = match progress pending b with
      | .ok (.char c) => decodeOnto (c :: seen) none rest
      | .ok (.more p) => decodeOnto seen (some p) rest
      | .error fault => .error fault := by
  cases pending <;> rfl

/-- No byte is the end of the bytes. -/
theorem progress_ne_unexpectedEnd (pending : Option Pending) (b : UInt8) :
    progress pending b ≠ .error .unexpectedEnd := by
  cases pending with
  | none =>
    unfold progress start
    grind
  | some p =>
    unfold progress Pending.step
    grind

/-! ## Wrong bytes -/

/-- A byte that rules a text out does so whatever follows. -/
theorem decodeOnto_append_of_error {seen : List Char} {pending : Option Pending}
    {bytes : List UInt8} {fault : Fault} (h : decodeOnto seen pending bytes = .error fault)
    (hfault : fault ≠ .unexpectedEnd) (more : List UInt8) :
    decodeOnto seen pending (bytes ++ more) = .error fault := by
  induction bytes generalizing seen pending with
  | nil =>
    cases pending with
    | none => cases h
    | some p =>
      cases h
      exact absurd rfl hfault
  | cons b rest ih =>
    rw [List.cons_append, decodeOnto_cons]
    rw [decodeOnto_cons] at h
    rcases hprogress : progress pending b with fault | ⟨c | p⟩ <;> rw [hprogress] at h
    · exact h
    · exact ih h
    · exact ih h

/-! ## Bytes that are missing -/

namespace Pending

/-- Some byte can go on the character begun. -/
def IsOpen (p : Pending) : Prop := p.low ≤ p.high

/-- Bytes that complete the character begun: the least next one, and the least ones after it. -/
def completion (p : Pending) : List UInt8 := p.low :: List.replicate p.owed 0x80

/-- A character that has been gone on with takes any later byte. -/
theorem bounds_of_step {p q : Pending} {b : UInt8} (h : p.step b = .ok (.more q)) :
    q.low = 0x80 ∧ q.high = 0xBF := by
  unfold step at h
  split at h
  · dsimp only at h
    split at h
    · cases h
    · cases h
      exact ⟨rfl, rfl⟩
  · cases h

/-- Any character that has been begun can be gone on with. -/
theorem isOpen_of_progress {pending : Option Pending} {b : UInt8} {p : Pending}
    (h : progress pending b = .ok (.more p)) : p.IsOpen := by
  unfold IsOpen
  cases pending with
  | none =>
    obtain ⟨n, -, -, hchar⟩ | ⟨k, -, -, -, hmore⟩ | ⟨k, -, -, hmore⟩ | ⟨k, -, -, hmore⟩ :=
      start_cases h
    · cases hchar
    all_goals cases hmore
    · exact (by decide : (0x80 : UInt8) ≤ 0xBF)
    -- The least and the greatest second byte are never both restricted.
    all_goals
      dsimp only
      split <;> split <;> first | decide | omega
  | some q =>
    rw [(bounds_of_step h).1, (bounds_of_step h).2]
    decide

/-- A character that can be gone on with is completed. -/
theorem exists_decodeOnto_completion (seen : List Char) {p : Pending} (h : p.IsOpen) :
    ∃ text, decodeOnto seen (some p) p.completion = .ok text := by
  obtain ⟨owed, low, high, bits⟩ := p
  have hbounds : low ≤ low ∧ low ≤ high := ⟨UInt8.le_refl low, h⟩
  induction owed generalizing low high bits with
  | zero => exact ⟨_, decodeOnto_step_char (if_pos hbounds)⟩
  | succ owed ih =>
    have hlater : (0x80 : UInt8) ≤ 0xBF := by decide
    have hstep : step ⟨owed + 1, low, high, bits⟩ low =
        .ok (.more ⟨owed, 0x80, 0xBF, bits * 64 + (low.toNat - 0x80)⟩) := if_pos hbounds
    obtain ⟨text, htext⟩ := ih 0x80 0xBF _ hlater ⟨UInt8.le_refl _, hlater⟩
    exact ⟨text, (decodeOnto_step_more hstep).trans htext⟩

end Pending

/-- Bytes that end inside of a character can be completed, provided that the character that has been
begun before them, if any, can be gone on with. -/
theorem exists_completion {seen : List Char} {pending : Option Pending} {bytes : List UInt8}
    (hopen : ∀ p ∈ pending, p.IsOpen)
    (h : decodeOnto seen pending bytes = .error .unexpectedEnd) :
    ∃ more text, decodeOnto seen pending (bytes ++ more) = .ok text := by
  induction bytes generalizing seen pending with
  | nil =>
    cases pending with
    | none => cases h
    | some p => exact ⟨p.completion, p.exists_decodeOnto_completion seen (hopen p rfl)⟩
  | cons b rest ih =>
    simp only [List.cons_append, decodeOnto_cons] at h ⊢
    rcases hprogress : progress pending b with fault | ⟨c | p⟩ <;> rw [hprogress] at h
    · cases h
      exact absurd hprogress (progress_ne_unexpectedEnd pending b)
    · exact ih (fun _ hp => by cases hp) h
    · exact ih (fun q hq => by cases hq; exact Pending.isOpen_of_progress hprogress) h

/-! ## The two told apart -/

/-- A byte string that is refused ends inside of a character just if some bytes after it make it
valid UTF-8. -/
theorem eq_unexpectedEnd_iff {bytes : ByteArray} {fault : Fault}
    (h : decode (octets bytes) = .error fault) :
    fault = .unexpectedEnd ↔ ∃ more : ByteArray, (bytes ++ more).IsValidUTF8 := by
  constructor
  · rintro rfl
    obtain ⟨more, text, htext⟩ := exists_completion (fun _ hp => by cases hp) h
    refine ⟨ofOctets more, text, decode_octets_eq_ok_iff.mp ?_⟩
    rwa [octets_append, octets_ofOctets]
  · rintro ⟨more, hvalid⟩
    refine Decidable.byContradiction fun hfault => ?_
    have hrefused : decode (octets (bytes ++ more)) = .error fault := by
      rw [octets_append]
      exact decodeOnto_append_of_error h hfault (octets more)
    exact not_isValidUTF8_of_error hrefused hvalid

/-- The end of the bytes has words of its own. -/
theorem Fault.reason_eq_iff {fault : Fault} :
    fault.reason = "unexpected end of data" ↔ fault = .unexpectedEnd := by
  cases fault <;> decide

end MapArchive.Utf8
