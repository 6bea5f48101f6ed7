import MapArchive.Proofs.Blob.Halting
import MapArchive.Proofs.Blob.Offsets
import MapArchive.Proofs.Stream.Exchange

/-!
# How a frame is read

A frame is read in at most three reads: of the length, of the header and of the body. Each asks for
as many bytes as the one before has announced, and none is made unless the one before has given all
that it was asked for. What the reader answers is decided by what the reads gave, and an error
blames the read that failed.
-/

namespace MapArchive

/-- Only the system refuses to read from streams of this kind. -/
def RefusesAsSystem (σ : Type) [ByteStream σ] : Prop :=
  ∀ (n : Nat) (s t : σ) (fault : StreamFault),
    ByteStream.read n s = (.error fault, t) → fault.isOfSystem = true

/-- Recording the reads does not change who refuses them. -/
theorem RefusesAsSystem.recorder {σ : Type} [ByteStream σ] (h : RefusesAsSystem σ) :
    RefusesAsSystem (Recorder σ) := by
  intro n s t fault hread
  exact h n s.inner t.inner fault
    (Prod.ext (Prod.mk.inj hread).1 (congrArg Recorder.inner (Prod.mk.inj hread).2))

/-- A stream that fails at some place does so as a system would. -/
theorem FaultyStream.refusesAsSystem : RefusesAsSystem FaultyStream := by
  intro n s t fault h
  change s.read n = _ at h
  unfold read at h
  dsimp only at h
  split at h
  · cases h
    rfl
  · cases h

namespace Exchange

/-- Four bytes were asked for and refused, or some of them are missing, but not all. -/
def LacksLength (x : Exchange) : Prop :=
  (∃ fault, x.answer = .error fault) ∨
    ∃ bytes, x.answer = .ok bytes ∧ 1 ≤ bytes.size ∧ bytes.size ≤ 3

/-- What was read is a header whose type is text and whose body has a length. -/
structure Announces (x : Exchange) (header : BlobHeader) (type : String) : Prop where
  /-- All bytes were given, and they are a header. -/
  message : x.message? BlobHeader = some header
  /-- The type is text. -/
  text : Field.textOfBytes? header.type = some type
  /-- The length is not negative. -/
  nonneg : 0 ≤ header.dataSize.toInt

end Exchange

/-- The reads of a frame, as far as they go. The first asks for the four bytes of a length. The
second asks for a header of that length, which is below the limit, the third for a body of the
length that is given in the header. -/
inductive Course : List Exchange → Prop where
  /-- Only a length was asked for. -/
  | length {first : Exchange} (hfirst : first.size = 4) : Course [first]
  /-- A header was asked for. -/
  | header {first second : Exchange} (hfirst : first.size = 4)
      (hsecond : first.length? = some second.size) (hlt : second.size < maxHeaderSize) :
      Course [first, second]
  /-- A body was asked for. -/
  | body {first second third : Exchange} {header : BlobHeader} {type : String}
      (hfirst : first.size = 4) (hsecond : first.length? = some second.size)
      (hlt : second.size < maxHeaderSize) (hheader : second.Announces header type)
      (hthird : (third.size : Int) = header.dataSize.toInt) (hle : third.size ≤ 0x7fffffff) :
      Course [first, second, third]

/-- An error that says which of the reads has failed, and is right. -/
inductive Blames : List Exchange → ArchiveError → Prop where
  /-- There is no length. -/
  | length {first : Exchange} (hbad : first.LacksLength) : Blames [first] .invalidHeaderSize
  /-- The length is too great. -/
  | size {first : Exchange} {n : Nat} (hlength : first.length? = some n)
      (hle : maxHeaderSize ≤ n) : Blames [first] (.headerTooBig n)
  /-- There is no header, or it cannot be made sense of. -/
  | header {first second : Exchange} {e : ArchiveError}
      (hbad : ∀ header type, ¬second.Announces header type)
      (hplace : e.location? = some "blob header") : Blames [first, second] e
  /-- There is no body. -/
  | body {first second third : Exchange} {e : ArchiveError}
      (hbad : third.message? BlobBody = none) (hplace : e.location? = some "blob content") :
      Blames [first, second, third] e

/-- What is made of the reads of a frame. -/
inductive Verdict : List Exchange → Except ReadError (Option Frame) → Prop where
  /-- Where a length would start the stream ends. -/
  | ended {first : Exchange} (hend : first.answer = .ok ByteArray.empty) :
      Verdict [first] (.ok none)
  /-- There is a frame. -/
  | found {first second third : Exchange} {header : BlobHeader} {type : String} {body : BlobBody}
      (hheader : second.Announces header type) (hbody : third.message? BlobBody = some body) :
      Verdict [first, second, third] (.ok (some ⟨second.size, header, type, body⟩))
  /-- One of the reads has failed. -/
  | failed {xs : List Exchange} {e : ArchiveError} (hblame : Blames xs e) :
      Verdict xs (.error (.archive e))

/-- A read that was blamed for the length did not give nothing. -/
theorem Exchange.LacksLength.answer_ne {x : Exchange} (h : x.LacksLength) :
    x.answer ≠ .ok ByteArray.empty := by
  intro hempty
  rcases h with ⟨fault, hfault⟩ | ⟨bytes, hbytes, hpos, _⟩
  · rw [hempty] at hfault
    cases hfault
  · rw [hempty] at hbytes
    cases hbytes
    cases hpos

namespace Verdict

variable {xs : List Exchange} {result : Except ReadError (Option Frame)}

/-- The stream has ended exactly if not a byte was read where a length would start. -/
theorem eq_end_iff (h : Verdict xs result) (hcourse : Course xs) :
    result = .ok none ↔ ∃ first, xs = [first] ∧ first.answer = .ok ByteArray.empty := by
  constructor
  · rintro rfl
    cases h with
    | @ended first hend => exact ⟨first, rfl, hend⟩
  · rintro ⟨first, rfl, hend⟩
    cases h with
    | ended => rfl
    | failed hblame =>
      cases hblame with
      | length hbad => exact absurd hend hbad.answer_ne
      | size hlength =>
        cases hcourse with
        | length hfirst =>
          have hsize : (ByteArray.empty).size ≠ first.size := by
            rw [hfirst]
            decide
          rw [Exchange.length?, Exchange.full?_of_size_ne hend hsize] at hlength
          cases hlength

/-- There is a frame exactly if all three reads gave what they were asked for, the second a header
and the third a body. -/
theorem eq_frame_iff (h : Verdict xs result) {f : Frame} :
    result = .ok (some f) ↔
      ∃ first second third, xs = [first, second, third] ∧ second.Announces f.header f.type ∧
        third.message? BlobBody = some f.body ∧ second.size = f.headerSize := by
  constructor
  · rintro rfl
    cases h with
    | @found first second third header type body hheader hbody =>
      exact ⟨first, second, third, rfl, hheader, hbody, rfl⟩
  · rintro ⟨first, second, third, rfl, hheader, hbody, hsize⟩
    cases h with
    | found hother hfound =>
      have hmessage := hother.message
      rw [hheader.message] at hmessage
      cases hmessage
      have htext := hother.text
      rw [hheader.text] at htext
      cases htext
      rw [hbody] at hfound
      cases hfound
      rw [hsize]
    | failed hblame =>
      cases hblame with
      | body hbad =>
        rw [hbody] at hbad
        cases hbad

/-- An error blames the read that has failed. -/
theorem blames (h : Verdict xs result) {e : ReadError} (he : result = .error e) :
    ∃ cause, e = .archive cause ∧ Blames xs cause := by
  subst he
  cases h with
  | @failed _ cause hblame => exact ⟨cause, rfl, hblame⟩

end Verdict

namespace Frame

/-- The length of the body is the one in the header. -/
theorem natCast_bodySize {header : BlobHeader} (h : 0 ≤ header.dataSize.toInt) :
    (bodySize header : Int) = header.dataSize.toInt := Int.toNat_of_nonneg h

/-- Lengths of bodies are numbers of 32 bits with sign. -/
theorem bodySize_le (header : BlobHeader) : bodySize header ≤ 0x7fffffff := by
  have hlt := Int32.toInt_lt header.dataSize
  unfold bodySize
  omega

/-- A header passes the checks if its type is text and its body has a length. -/
theorem checkHeader_eq_ok_iff {header : BlobHeader} {type : String} :
    checkHeader header = .ok type ↔
      Field.textOfBytes? header.type = some type ∧ 0 ≤ header.dataSize.toInt := by
  have hsign : header.dataSize < 0 ↔ header.dataSize.toInt < 0 := Int32.lt_iff_toInt_lt
  unfold checkHeader
  cases Field.textOfBytes? header.type with
  | none => simp
  | some text =>
    by_cases hneg : header.dataSize.toInt < 0
    · have hcheck : header.dataSize < 0 := hsign.2 hneg
      simp only [if_pos hcheck, reduceCtorEq, false_iff, not_and]
      omega
    · have hcheck : ¬header.dataSize < 0 := fun h => hneg (hsign.1 h)
      simp only [if_neg hcheck, Except.ok.injEq, Option.some.injEq]
      constructor
      · intro h
        exact ⟨h, by omega⟩
      · intro h
        exact h.1

/-- What is wrong with a header is said to be wrong with the header. -/
theorem location_of_checkHeader {header : BlobHeader} {e : ArchiveError}
    (h : checkHeader header = .error e) : e.location? = some "blob header" := by
  unfold checkHeader at h
  split at h
  · cases h
    rfl
  · split at h
    · cases h
      rfl
    · cases h

variable {σ : Type} [ByteStream σ] {s t : σ}

/-- A length that is accepted was read in full and is below the limit. -/
theorem length_of_readLength {n : Nat} (h : readLength s = (.ok (some n), t)) :
    (exchange 4 s).length? = some n ∧ n < maxHeaderSize := by
  unfold readLength at h
  split at h
  case h_1 => cases h
  case h_2 bytes u hread =>
    split at h
    · cases h
    · split at h
      · cases h
      case isFalse hsize =>
        have hsize : bytes.size = 4 := Decidable.not_not.1 hsize
        have hanswer : (exchange 4 s).answer = .ok bytes := congrArg Prod.fst hread
        dsimp only at h
        split at h
        · cases h
        case isFalse hle =>
          cases h
          refine ⟨?_, Nat.not_le.1 hle⟩
          rw [Exchange.length?, Exchange.full?_of_size hanswer hsize, Option.map_some]

/-- An error in the length says whether the length is missing or too great. -/
theorem failure_of_readLength {e : ArchiveError} (h : readLength s = (.error (.archive e), t)) :
    Blames [exchange 4 s] e := by
  unfold readLength at h
  split at h
  case h_1 fault u hread =>
    have hanswer : (exchange 4 s).answer = .error fault := congrArg Prod.fst hread
    have herror := (Prod.mk.inj h).1
    unfold ReadError.ofFault at herror
    split at herror
    · cases herror
      exact .length (.inl ⟨fault, hanswer⟩)
    · cases herror
  case h_2 bytes u hread =>
    have hanswer : (exchange 4 s).answer = .ok bytes := congrArg Prod.fst hread
    have hle : bytes.size ≤ 4 := ByteStream.size_of_read hread
    split at h
    · cases h
    case isFalse hpos =>
      split at h
      case isTrue hsize =>
        cases h
        exact .length (.inr ⟨bytes, hanswer, by omega, by omega⟩)
      case isFalse hsize =>
        have hsize : bytes.size = 4 := Decidable.not_not.1 hsize
        dsimp only at h
        split at h
        case isTrue hbig =>
          cases h
          refine .size ?_ hbig
          rw [Exchange.length?, Exchange.full?_of_size hanswer hsize, Option.map_some]
        · cases h

section Part

variable {α : Type} [Message α] {location : String} {n : Nat}

/-- A part that is accepted was read in full and decoded. -/
theorem message_of_readPart {a : α} (h : readPart α location n s = (.ok a, t)) :
    (exchange n s).message? α = some a := by
  unfold readPart at h
  split at h
  case h_1 => cases h
  case h_2 bytes u hread =>
    split at h
    · cases h
    case isFalse hsize =>
      have hsize : bytes.size = n := Decidable.not_not.1 hsize
      have hanswer : (exchange n s).answer = .ok bytes := congrArg Prod.fst hread
      have hdecode := (Prod.mk.inj h).1
      rw [Exchange.message?, Exchange.full?_of_size hanswer hsize, Option.bind_some]
      unfold readMessage at hdecode
      split at hdecode
      case h_1 message hmessage =>
        cases hdecode
        exact hmessage
      · cases hdecode

/-- A part that is refused was not read in full or cannot be decoded, and the error says which part
it is. -/
theorem failure_of_readPart {e : ArchiveError}
    (h : readPart α location n s = (.error (.archive e), t)) :
    (exchange n s).message? α = none ∧ e.location? = some location := by
  unfold readPart at h
  split at h
  case h_1 fault u hread =>
    have hanswer : (exchange n s).answer = .error fault := congrArg Prod.fst hread
    have herror := (Prod.mk.inj h).1
    rw [Exchange.message?, Exchange.full?_of_refusal hanswer]
    unfold ReadError.ofFault at herror
    split at herror
    · cases herror
      exact ⟨rfl, rfl⟩
    · cases herror
  case h_2 bytes u hread =>
    have hanswer : (exchange n s).answer = .ok bytes := congrArg Prod.fst hread
    split at h
    case isTrue hsize =>
      cases h
      rw [Exchange.message?, Exchange.full?_of_size_ne hanswer hsize]
      exact ⟨rfl, rfl⟩
    case isFalse hsize =>
      have hsize : bytes.size = n := Decidable.not_not.1 hsize
      have hdecode := (Prod.mk.inj h).1
      rw [Exchange.message?, Exchange.full?_of_size hanswer hsize, Option.bind_some]
      unfold readMessage at hdecode
      split at hdecode
      · cases hdecode
      case h_2 hmessage =>
        cases hdecode
        exact ⟨hmessage, rfl⟩

end Part

section Exchanges

variable {xs : List Exchange} {u : σ}

/-- Reading a length is one read, before all that follow. -/
theorem exchanges_readLength {answer : Except ReadError (Option Nat)}
    (h : readLength s = (answer, t)) (hrest : Exchanges t xs u) :
    Exchanges s (exchange 4 s :: xs) u := by
  have hafter : (ByteStream.read 4 s).2 = t := by rw [← after_readLength, h]
  rw [← hafter] at hrest
  exact .cons 4 hrest

/-- Reading a part is one read, before all that follow. -/
theorem exchanges_readPart {α : Type} [Message α] {location : String} {n : Nat}
    {answer : Except ReadError α} (h : readPart α location n s = (answer, t))
    (hrest : Exchanges t xs u) : Exchanges s (exchange n s :: xs) u := by
  have hafter : (ByteStream.read n s).2 = t := by rw [← after_readPart (α := α) location, h]
  rw [← hafter] at hrest
  exact .cons n hrest

end Exchanges

/-- A header that is read and passes the checks announces a body. -/
theorem announces_of_readPart {location : String} {n : Nat} {header : BlobHeader} {type : String}
    (h : readPart BlobHeader location n s = (.ok header, t))
    (hcheck : checkHeader header = .ok type) : (exchange n s).Announces header type := by
  obtain ⟨htext, hnonneg⟩ := checkHeader_eq_ok_iff.1 hcheck
  exact ⟨message_of_readPart h, htext, hnonneg⟩

/-- A header that does not pass the checks announces nothing. -/
theorem not_announces_of_readPart {location : String} {n : Nat} {header other : BlobHeader}
    {type : String} {e : ArchiveError} (h : readPart BlobHeader location n s = (.ok header, t))
    (hcheck : checkHeader header = .error e) : ¬(exchange n s).Announces other type := by
  intro hannounces
  have hsame := hannounces.message
  rw [message_of_readPart h] at hsame
  cases hsame
  rw [checkHeader_eq_ok_iff.2 ⟨hannounces.text, hannounces.nonneg⟩] at hcheck
  cases hcheck

/-- Every frame is read on course, and the answer is what is made of the reads. -/
theorem exists_course (hσ : RefusesAsSystem σ) (s : σ) :
    ∃ xs, Exchanges s xs (read s).2 ∧ Course xs ∧ Verdict xs (read s).1 := by
  -- No refusal is passed on, because only the system refuses.
  have hforeign {n : Nat} {s t : σ} {fault : StreamFault}
      (h : ByteStream.read n s = (.error fault, t) ∧ fault.isOfSystem = false) : False := by
    have hsystem := hσ n s t fault h.1
    rw [h.2] at hsystem
    cases hsystem
  have h := reading_read s
  generalize read s = result at h ⊢
  cases h with
  | @noLength e t hlength =>
    refine ⟨_, exchanges_readLength hlength (.nil t), .length rfl, ?_⟩
    cases e with
    | archive e => exact .failed (failure_of_readLength hlength)
    | stream fault => exact (hforeign (refusal_of_readLength hlength)).elim
  | @ended t hlength =>
    have hread := congrArg Prod.fst (readLength_eq_end_iff.1 hlength)
    exact ⟨_, exchanges_readLength hlength (.nil t), .length rfl, .ended hread⟩
  | @noHeader n e t u hlength hheader =>
    obtain ⟨hn, hlt⟩ := length_of_readLength hlength
    refine ⟨_, exchanges_readLength hlength (exchanges_readPart hheader (.nil u)),
      .header rfl hn hlt, ?_⟩
    cases e with
    | archive e =>
      obtain ⟨hnone, hplace⟩ := failure_of_readPart hheader
      refine .failed (.header (fun header type h => ?_) hplace)
      rw [h.message] at hnone
      cases hnone
    | stream fault => exact (hforeign (refusal_of_readPart hheader)).elim
  | @badHeader n header e t u hlength hheader hcheck =>
    obtain ⟨hn, hlt⟩ := length_of_readLength hlength
    exact ⟨_, exchanges_readLength hlength (exchanges_readPart hheader (.nil u)),
      .header rfl hn hlt, .failed (.header (fun _ _ => not_announces_of_readPart hheader hcheck)
        (location_of_checkHeader hcheck))⟩
  | @noBody n header type e t u v hlength hheader hcheck hbody =>
    obtain ⟨hn, hlt⟩ := length_of_readLength hlength
    have hannounces := announces_of_readPart hheader hcheck
    refine ⟨_, exchanges_readLength hlength (exchanges_readPart hheader
      (exchanges_readPart hbody (.nil v))), .body rfl hn hlt hannounces
      (natCast_bodySize hannounces.nonneg) (bodySize_le header), ?_⟩
    cases e with
    | archive e =>
      obtain ⟨hnone, hplace⟩ := failure_of_readPart hbody
      exact .failed (.body hnone hplace)
    | stream fault => exact (hforeign (refusal_of_readPart hbody)).elim
  | @found n header type body t u v hlength hheader hcheck hbody =>
    obtain ⟨hn, hlt⟩ := length_of_readLength hlength
    have hannounces := announces_of_readPart hheader hcheck
    exact ⟨_, exchanges_readLength hlength (exchanges_readPart hheader
      (exchanges_readPart hbody (.nil v))), .body rfl hn hlt hannounces
      (natCast_bodySize hannounces.nonneg) (bodySize_le header),
      .found hannounces (message_of_readPart hbody)⟩

end Frame

/-- A course of three reads went by the lengths that were read. -/
theorem Course.lengths {first second third : Exchange} {header : BlobHeader} {type : String}
    (h : Course [first, second, third]) (hheader : second.Announces header type) :
    first.length? = some second.size ∧ third.size = Frame.bodySize header := by
  cases h with
  | body _ hsecond _ hother hthird =>
    have hsame := hother.message
    rw [hheader.message] at hsame
    cases hsame
    have hsize := Frame.natCast_bodySize hheader.nonneg
    exact ⟨hsecond, by omega⟩

section Answers

variable {α β : Type} {f : α → β} {answer : Except ReadError (Option α)}

/-- An item is there after a change just if one was there before it. -/
theorem map_eq_some_iff {b : β} :
    answer.map (Option.map f) = .ok (some b) ↔ ∃ a, answer = .ok (some a) ∧ f a = b := by
  rcases answer with e | _ | a
  · simp [Except.map]
  · simp [Except.map]
  · simp [Except.map]

/-- No item is there after a change just if none was there before it. -/
theorem map_eq_none_iff : answer.map (Option.map f) = .ok none ↔ answer = .ok none := by
  rcases answer with e | _ | a
  · simp [Except.map]
  · simp [Except.map]
  · simp [Except.map]

/-- A change keeps errors and makes none. -/
theorem map_eq_error_iff {e : ReadError} :
    answer.map (Option.map f) = .error e ↔ answer = .error e := by
  rcases answer with e | _ | a
  · simp [Except.map]
  · simp [Except.map]
  · simp [Except.map]

end Answers

namespace BlobReader

/-- A reader that has not halted leaves its stream where the frame ends. -/
theorem stream_next_of_running {σ : Type} [ByteStream σ] {r : BlobReader σ}
    (h : r.isHalted = false) : r.next.2.stream = (Frame.read r.stream).2 := by
  have heffect := r.effect_next
  generalize r.next.1 = answer at heffect
  generalize r.next.2 = after at heffect ⊢
  cases heffect with
  | halted hhalted => rw [h] at hhalted; cases hhalted
  | failed _ hread | refused _ hread | ended _ hread | found _ hread => rw [hread]

variable {σ : Type} [ByteStream σ]

/-- Whatever a reader was asked for before, as long as it has not halted it reads a length, then a
header of that length and then a body of the length given there, each only if the one before was
found. It gives a blob exactly if it found all three, and it comes to the end exactly if not a byte
was there; otherwise it gives the error of the read that has failed, and no other. -/
theorem next_reads_in_order (hσ : RefusesAsSystem σ) (r : BlobReader (Recorder σ))
    (past : List Request) (hrunning : (final past r).isHalted = false) :
    let now := final past r
    ∃ xs : List Exchange, Exchanges now.stream xs now.next.2.stream ∧
      now.next.2.stream.reads = now.stream.reads ++ xs.map Exchange.size ∧ Course xs ∧
      (∀ b, now.next.1 = .ok (some b) ↔
        ∃ first second third header type body, xs = [first, second, third] ∧
          (∀ x ∈ xs, x.full?.isSome = true) ∧ second.Announces header type ∧
          third.message? BlobBody = some body ∧
          b = ⟨type, header.indexData, third.size, body, now.offset⟩) ∧
      (now.next.1 = .ok none ↔ ∃ first, xs = [first] ∧ first.answer = .ok ByteArray.empty) ∧
      ∀ e, now.next.1 = .error e → ∃ cause, e = .archive cause ∧ Blames xs cause := by
  intro now
  obtain ⟨xs, hexchanges, hcourse, hverdict⟩ := Frame.exists_course hσ.recorder now.stream
  rw [← stream_next_of_running hrunning] at hexchanges
  have hanswer := answer_of_running hrunning
  refine ⟨xs, hexchanges, Recorder.reads_of_exchanges hexchanges, hcourse, fun b => ?_, ?_, ?_⟩
  · constructor
    · intro hb
      rw [hanswer] at hb
      obtain ⟨frame, hread, rfl⟩ := map_eq_some_iff.1 hb
      obtain ⟨first, second, third, rfl, hheader, hbody, _⟩ := hverdict.eq_frame_iff.1 hread
      obtain ⟨hfirst, hsize⟩ := hcourse.lengths hheader
      refine ⟨first, second, third, frame.header, frame.type, frame.body, rfl, ?_, hheader, hbody,
        ?_⟩
      · intro x hx
        simp only [List.mem_cons, List.not_mem_nil, or_false] at hx
        rcases hx with rfl | rfl | rfl
        · exact Exchange.isSome_of_length? hfirst
        · exact Exchange.isSome_of_message? hheader.message
        · exact Exchange.isSome_of_message? hbody
      · rw [Frame.blob, hsize]
    · rintro ⟨first, second, third, header, type, body, hxs, _, hheader, hbody, rfl⟩
      subst hxs
      have hread : (Frame.read now.stream).1 = .ok (some ⟨second.size, header, type, body⟩) :=
        hverdict.eq_frame_iff.2 ⟨first, second, third, rfl, hheader, hbody, rfl⟩
      rw [hanswer, hread, (hcourse.lengths hheader).2]
      rfl
  · rw [← hverdict.eq_end_iff hcourse, hanswer, map_eq_none_iff]
  · intro e he
    rw [hanswer] at he
    exact hverdict.blames (map_eq_error_iff.1 he)

/-- A reader of two blobs on a stream that refuses the fifth read. -/
def secondHeaderRefused : BlobReader (Recorder FaultyStream) :=
  .ofStream ⟨⟨twoBlobs, none, [4], [], 0, 0⟩, []⟩

/-- The fifth read is that of the second header, which gets the blame. Nothing is read after it. -/
theorem second_header_is_blamed :
    let now := final [.next] secondHeaderRefused
    RefusesAsSystem FaultyStream ∧ now.isHalted = false ∧
      now.next.2.stream.reads = [4, 5, 0] ++ [4, 5] ∧
      ∃ cause, now.next.1 = .error (.archive cause) ∧ cause.location? = some "blob header" := by
  have hrunning : (final [.next] secondHeaderRefused).isHalted = false := by decide +kernel
  have hbefore : (final [.next] secondHeaderRefused).stream.reads = [4, 5, 0] := by decide +kernel
  have hafter : (final [.next] secondHeaderRefused).next.2.stream.reads = [4, 5, 0] ++ [4, 5] := by
    decide +kernel
  have hnone : (final [.next] secondHeaderRefused).next.1.toOption = none := by decide +kernel
  obtain ⟨xs, _, hreads, _, _, _, hblames⟩ := next_reads_in_order FaultyStream.refusesAsSystem
    secondHeaderRefused [.next] hrunning
  refine ⟨FaultyStream.refusesAsSystem, hrunning, hafter, ?_⟩
  rw [hafter, hbefore] at hreads
  have hsizes : [4, 5] = xs.map Exchange.size := List.append_cancel_left hreads
  cases hanswer : (final [.next] secondHeaderRefused).next.1 with
  | ok result =>
    rw [hanswer] at hnone
    cases hnone
  | error e =>
    obtain ⟨cause, rfl, hblame⟩ := hblames e hanswer
    refine ⟨cause, rfl, ?_⟩
    cases hblame with
    | header _ hplace => exact hplace
    | length | size | body => simp at hsizes

end BlobReader

end MapArchive
