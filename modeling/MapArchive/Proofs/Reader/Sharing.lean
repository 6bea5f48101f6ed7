import MapArchive.Proofs.Blob.Exhaustion
import MapArchive.Proofs.Reader.FirstFailure

/-!
# Iterations that share a reader

Any number of iterations can take turns with one reader. What its records amount to is handed out
one after the other: each call on an iteration that has not ended takes what comes next, whoever
makes it, and an iteration ends with an error while the others go on behind it. Once framing has
failed, or the end has been reached, there is nothing left for any of them.
-/

namespace MapArchive

namespace BlobReader

variable {r : BlobReader MemoryStream}

/-- After an error nothing more is given. -/
theorem outcome_after_error {e : ReadError} (h : r.next.1 = .error e) :
    r.next.2.outcome = ⟨[], none⟩ := by
  obtain ⟨cause, rfl⟩ := archive_of_next h
  have hhalted := (after_failure h).1
  exact outcome_of_end (by rw [next_of_isHalted hhalted])

/-- After the end nothing more is given. -/
theorem outcome_after_end (h : r.next.1 = .ok none) : r.next.2.outcome = ⟨[], none⟩ := by
  rw [next_of_nothing h]
  exact outcome_of_end h

end BlobReader

namespace ElementReader

/-- What a call is answered if so much is to be delivered: the delivery at a place, or that there is
nothing more. -/
def answerAt (deliveries : List (Except ReadError BlockMessage)) (place : Nat) :
    Except ReadError (Option BlockMessage) :=
  match deliveries[place]? with
  | some delivery => delivery.map some
  | none => .ok none

/-- A call for the next block is answered with what is delivered first and leaves the rest. -/
theorem takes_nextBlock (r : ElementReader MemoryStream) :
    r.nextBlock.result = answerAt r.deliveries 0 ∧
      r.nextBlock.reader.deliveries = r.deliveries.drop 1 := by
  have hnothing {blobs : BlobReader MemoryStream} (h : blobs.outcome = ⟨[], none⟩) :
      deliveries ⟨blobs, r.supported⟩ = [] := by
    rw [deliveries, h]
    rfl
  have hdelivers := r.delivers_nextBlock
  generalize r.nextBlock = report at hdelivers ⊢
  obtain ⟨answer, events, s⟩ := report
  dsimp only at hdelivers ⊢
  cases hdelivers with
  | block h | refused h =>
    rw [h]
    exact ⟨rfl, rfl⟩
  | failed h hlast =>
    rw [h]
    exact ⟨rfl, hnothing (BlobReader.outcome_after_error hlast)⟩
  | ended h hlast =>
    rw [h]
    exact ⟨rfl, hnothing (BlobReader.outcome_after_end hlast)⟩

section Places

variable {σ : Type} [FiniteStream σ] {r : ElementReader σ}

/-- What the blobs of a file amount to. -/
def blobDeliveries (r : ElementReader σ) : List (Except ArchiveError BlockMessage) :=
  r.blobs.outcome.blobs.filterMap (Blob.delivery? r.supported)

/-- At the place of a delivery the answer is this delivery. -/
theorem answerAt_of_blob {k : Nat} {delivery : Except ArchiveError BlockMessage}
    (h : r.blobDeliveries[k]? = some delivery) :
    answerAt r.deliveries k = (delivery.mapError .archive).map some := by
  have hlt := (List.getElem?_eq_some_iff.1 h).1
  have hat : r.deliveries[k]? = some (delivery.mapError .archive) := by
    show (r.blobDeliveries.map _ ++ _)[k]? = _
    rw [List.getElem?_append_left (by rwa [List.length_map]), List.getElem?_map, h]
    rfl
  rw [answerAt, hat]

/-- After the blobs it is told how reading ends. -/
theorem answerAt_length_blobDeliveries (r : ElementReader σ) :
    answerAt r.deliveries r.blobDeliveries.length = ending r.blobs.outcome.failure := by
  have hat : r.deliveries[r.blobDeliveries.length]? =
      (r.blobs.outcome.failure.toList.map Except.error)[0]? := by
    show (r.blobDeliveries.map _ ++ _)[_]? = _
    rw [List.getElem?_append_right (Nat.le_of_eq (List.length_map _)), List.length_map,
      Nat.sub_self]
  rw [answerAt, hat]
  cases r.blobs.outcome.failure with
  | none => rfl
  | some e => rfl

/-- Beyond all deliveries the answer is that there are no more blocks. -/
theorem answerAt_of_gt {k : Nat} (h : r.blobDeliveries.length < k) :
    answerAt r.deliveries k = .ok none := by
  have hlength : r.deliveries.length ≤ k := by
    have hfailure : r.blobs.outcome.failure.toList.length ≤ 1 := Option.length_toList_le
    show (r.blobDeliveries.map _ ++ r.blobs.outcome.failure.toList.map _).length ≤ k
    rw [List.length_append, List.length_map, List.length_map]
    omega
  rw [answerAt, List.getElem?_eq_none hlength]

end Places

end ElementReader

/-- An iteration that has not ended gives the next block and goes on if there is one. -/
theorem BlockIteration.next_of_isLive {σ : Type} [FiniteStream σ] (it : BlockIteration)
    (r : ElementReader σ) (h : it.isLive = true) : (it.next r).1 = r.nextBlock ∧
      ((it.next r).2.isLive = true ↔ ∃ block, r.nextBlock.result = .ok (some block)) := by
  rw [next, if_pos h]
  dsimp only
  rcases r.nextBlock.result with e | _ | block
  · refine ⟨rfl, iff_of_false Bool.false_ne_true ?_⟩
    rintro ⟨block, hblock⟩
    cases hblock
  · refine ⟨rfl, iff_of_false Bool.false_ne_true ?_⟩
    rintro ⟨block, hblock⟩
    cases hblock
  · exact ⟨rfl, iff_of_true rfl ⟨block, rfl⟩⟩

/-- A turn of iterations that share a reader. -/
inductive Turn where
  /-- One more iteration is begun. -/
  | begin
  /-- An iteration, told by its number, is asked for the next block. -/
  | ask (iteration : Nat)
  deriving DecidableEq, Repr

/-- Iterations that share a reader. -/
structure Sharing (σ : Type) where
  /-- The reader. -/
  reader : ElementReader σ
  /-- The iterations, in the order in which they were begun. -/
  iterations : List BlockIteration

namespace Sharing

open ElementReader (answerAt ending)

variable {σ : Type}

/-- An iteration has been begun and has not ended. -/
def IsLive (s : Sharing σ) (i : Nat) : Prop := ∃ it, s.iterations[i]? = some it ∧ it.isLive = true

/-- An iteration that is live has begun. -/
theorem lt_of_isLive {s : Sharing σ} {i : Nat} (h : s.IsLive i) : i < s.iterations.length := by
  obtain ⟨it, hit, _⟩ := h
  exact (List.getElem?_eq_some_iff.1 hit).1

/-- When an iteration has been asked, the others stay as they are. -/
theorem isLive_set {s : Sharing σ} {reader : ElementReader σ} {it : BlockIteration} {i j : Nat}
    (h : s.IsLive j) :
    IsLive ⟨reader, s.iterations.set j it⟩ i ↔ if i = j then it.isLive = true else s.IsLive i := by
  show (∃ other, (s.iterations.set j it)[i]? = some other ∧ other.isLive = true) ↔ _
  split
  case isTrue heq =>
    rw [heq, List.getElem?_set_self (lt_of_isLive h)]
    exact ⟨fun ⟨_, hit, hlive⟩ => Option.some.inj hit ▸ hlive, fun hlive => ⟨it, rfl, hlive⟩⟩
  case isFalse hne =>
    rw [List.getElem?_set_ne (Ne.symm hne)]
    rfl

variable [FiniteStream σ]

/-- What comes of a turn. -/
def turn (s : Sharing σ) : Turn → Sharing σ
  | .begin => { s with iterations := s.iterations ++ [.start] }
  | .ask i =>
    match s.iterations[i]? with
    | some it => ⟨(it.next s.reader).1.reader, s.iterations.set i (it.next s.reader).2⟩
    | none => s

/-- What a turn gives to an iteration that has not ended. -/
def given? (s : Sharing σ) : Turn → Option (Nat × Except ReadError (Option BlockMessage))
  | .begin => none
  | .ask i =>
    match s.iterations[i]? with
    | some it => if it.isLive then some (i, (it.next s.reader).1.result) else none
    | none => none

/-- What comes of some turns. -/
def after : List Turn → Sharing σ → Sharing σ
  | [], s => s
  | t :: turns, s => after turns (s.turn t)

/-- What some turns give to iterations that have not ended, in order. -/
def given : List Turn → Sharing σ → List (Nat × Except ReadError (Option BlockMessage))
  | [], _ => []
  | t :: turns, s => (s.given? t).toList ++ given turns (s.turn t)

section Turns

variable {s : Sharing σ} {i : Nat}

/-- Asking an iteration that has ended changes nothing, and it gives nothing. -/
theorem turn_of_not_isLive (h : ¬s.IsLive i) :
    s.turn (.ask i) = s ∧ s.given? (.ask i) = none ∧
      ∀ it, s.iterations[i]? = some it → (it.next s.reader).1.result = .ok none := by
  rw [turn, given?]
  cases hit : s.iterations[i]? with
  | none => exact ⟨rfl, rfl, nofun⟩
  | some it =>
    have hdead : it.isLive = false := Bool.eq_false_iff.2 fun hlive => h ⟨it, hit, hlive⟩
    have hnext : it.next s.reader = (⟨.ok none, [], s.reader⟩, it) := if_neg (by rw [hdead]; decide)
    have hends (other : BlockIteration) (hother : some it = some other) :
        (other.next s.reader).1.result = .ok none := by
      rw [← Option.some.inj hother, hnext]
    obtain ⟨hi, rfl⟩ := List.getElem?_eq_some_iff.1 hit
    dsimp only
    rw [hnext, hdead]
    exact ⟨congrArg (Sharing.mk s.reader) (List.set_getElem_self hi), rfl, hends⟩

/-- An iteration that has not ended takes the next block and goes on if there is one. -/
theorem turn_of_isLive (h : s.IsLive i) :
    ∃ it : BlockIteration, s.turn (.ask i) = ⟨s.reader.nextBlock.reader, s.iterations.set i it⟩ ∧
      (it.isLive = true ↔ ∃ block, s.reader.nextBlock.result = .ok (some block)) ∧
      s.given? (.ask i) = some (i, s.reader.nextBlock.result) := by
  obtain ⟨it, hit, hlive⟩ := h
  obtain ⟨hreport, hgoes⟩ := it.next_of_isLive s.reader hlive
  refine ⟨(it.next s.reader).2, ?_, hgoes, ?_⟩
  · rw [turn, hit, ← hreport]
  · rw [given?, hit, ← hreport]
    exact if_pos hlive

/-- An iteration that is begun has not ended, and the others stay as they are. -/
theorem isLive_turn_begin : (s.turn .begin).IsLive i ↔ s.IsLive i ∨ i = s.iterations.length := by
  show (∃ it, (s.iterations ++ [BlockIteration.start])[i]? = some it ∧ it.isLive = true) ↔ _
  rcases Nat.lt_trichotomy i s.iterations.length with hlt | rfl | hgt
  · rw [List.getElem?_append_left hlt]
    exact (or_iff_left (Nat.ne_of_lt hlt)).symm
  · rw [List.getElem?_concat_length]
    exact iff_of_true ⟨_, rfl, rfl⟩ (.inr rfl)
  · rw [List.getElem?_eq_none (by rw [List.length_append]; exact hgt)]
    refine iff_of_false nofun ?_
    rintro (hlive | heq)
    · exact Nat.lt_asymm hgt (lt_of_isLive hlive)
    · exact Nat.ne_of_gt hgt heq

/-- There are as many iterations as have been begun. -/
theorem length_iterations_after (turns : List Turn) (s : Sharing σ) :
    (s.after turns).iterations.length = s.iterations.length + turns.count .begin := by
  induction turns generalizing s with
  | nil => rfl
  | cons t turns ih =>
    rw [after, ih]
    cases t with
    | begin =>
      rw [List.count_cons_self, turn, List.length_append, List.length_singleton]
      omega
    | ask i =>
      have hne : Turn.ask i ≠ .begin := nofun
      rw [List.count_cons_of_ne hne, turn]
      cases s.iterations[i]? with
      | none => rfl
      | some it => rw [List.length_set]

end Turns

/-- How things stand after something has been given: the answers came in the order of what the
reader delivers, and the iterations that got an ending are those that have ended. -/
structure Fair (r : ElementReader MemoryStream)
    (past : List (Nat × Except ReadError (Option BlockMessage))) (s : Sharing MemoryStream) :
    Prop where
  /-- Every call was answered with what was due. -/
  answers : past.map Prod.snd = (List.range past.length).map (answerAt r.deliveries)
  /-- What has not been given is still to be delivered. -/
  toCome : s.reader.deliveries = r.deliveries.drop past.length
  /-- Only iterations that have been begun were given anything. -/
  begun : ∀ i answer, (i, answer) ∈ past → i < s.iterations.length
  /-- An iteration goes on as long as it is given blocks. -/
  live : ∀ i, s.IsLive i ↔ i < s.iterations.length ∧
    ∀ answer, (i, answer) ∈ past → ∃ block, answer = .ok (some block)

section Run

variable {r : ElementReader MemoryStream} {s : Sharing MemoryStream}
  {past : List (Nat × Except ReadError (Option BlockMessage))}

/-- Before any turn the sharing is fair. -/
theorem fair_start (r : ElementReader MemoryStream) : Fair r [] ⟨r, []⟩ where
  answers := rfl
  toCome := rfl
  begun := nofun
  live i := iff_of_false nofun fun h => Nat.not_lt_zero i h.1

/-- A sharing stays fair when an iteration begins. -/
theorem Fair.begin (h : Fair r past s) : Fair r past (s.turn .begin) where
  answers := h.answers
  toCome := h.toCome
  begun i answer hmem := by
    show i < (s.iterations ++ [_]).length
    rw [List.length_append]
    exact Nat.lt_add_right 1 (h.begun i answer hmem)
  live i := by
    show _ ↔ i < (s.iterations ++ [_]).length ∧ _
    rw [isLive_turn_begin, h.live, List.length_append, List.length_singleton]
    constructor
    · rintro (⟨hlt, hblocks⟩ | rfl)
      · exact ⟨Nat.lt_succ_of_lt hlt, hblocks⟩
      · refine ⟨Nat.lt_succ_self _, fun answer hmem => ?_⟩
        exact absurd (h.begun _ answer hmem) (Nat.lt_irrefl _)
    · rintro ⟨hlt, hblocks⟩
      rcases Nat.lt_succ_iff_lt_or_eq.1 hlt with hold | hnew
      · exact .inl ⟨hold, hblocks⟩
      · exact .inr hnew

/-- The iteration that is asked goes on if it is given a block. -/
theorem Fair.live_ask {i j : Nat} {it : BlockIteration}
    {answer : Except ReadError (Option BlockMessage)} (h : Fair r past s) (hlive : s.IsLive i)
    (hgoes : it.isLive = true ↔ ∃ block, answer = .ok (some block)) :
    (if j = i then it.isLive = true else s.IsLive j) ↔ j < s.iterations.length ∧
      ∀ given, (j, given) ∈ past ++ [(i, answer)] → ∃ block, given = .ok (some block) := by
  split
  case isTrue heq =>
    obtain ⟨hlt, hblocks⟩ := (h.live i).1 hlive
    rw [heq, hgoes]
    constructor
    · intro hblock
      refine ⟨hlt, fun given hmem => ?_⟩
      rcases List.mem_append.1 hmem with hold | hnew
      · exact hblocks given hold
      · cases List.mem_singleton.1 hnew
        exact hblock
    · rintro ⟨_, hall⟩
      exact hall answer (List.mem_append_right _ (List.mem_singleton_self _))
  case isFalse hne =>
    have hmem (given : Except ReadError (Option BlockMessage)) :
        (j, given) ∈ past ++ [(i, answer)] ↔ (j, given) ∈ past := by
      rw [List.mem_append, List.mem_singleton]
      exact or_iff_left fun heq => hne (Prod.mk.inj heq).1
    simp only [hmem]
    exact h.live j

/-- A sharing stays fair when a live iteration asks for a block. -/
theorem Fair.ask {i : Nat} (h : Fair r past s) (hlive : s.IsLive i) :
    Fair r (past ++ [(i, s.reader.nextBlock.result)]) (s.turn (.ask i)) := by
  obtain ⟨it, hturn, hgoes, -⟩ := turn_of_isLive hlive
  obtain ⟨hresult, hrest⟩ := s.reader.takes_nextBlock
  have hlength : (past ++ [(i, s.reader.nextBlock.result)]).length = past.length + 1 :=
    List.length_append
  have hdue : s.reader.nextBlock.result = answerAt r.deliveries past.length := by
    rw [hresult, h.toCome, answerAt, answerAt, List.getElem?_drop, Nat.add_zero]
  rw [hturn]
  refine ⟨?_, ?_, fun j answer hmem => ?_, fun j => ?_⟩
  · rw [hlength, List.range_succ, List.map_append, List.map_append, h.answers]
    exact congrArg (_ ++ [·]) hdue
  · rw [hlength, hrest, h.toCome, List.drop_drop]
  · rw [List.length_set]
    rcases List.mem_append.1 hmem with hold | hnew
    · exact h.begun j answer hold
    · cases List.mem_singleton.1 hnew
      exact lt_of_isLive hlive
  · rw [isLive_set hlive, List.length_set]
    exact h.live_ask hlive hgoes

/-- Every turn is fair. -/
theorem Fair.turn (h : Fair r past s) (t : Turn) :
    Fair r (past ++ (s.given? t).toList) (s.turn t) := by
  cases t with
  | begin =>
    show Fair r (past ++ []) _
    rw [List.append_nil]
    exact h.begin
  | ask i =>
    by_cases hlive : s.IsLive i
    · obtain ⟨_, _, _, hgiven⟩ := turn_of_isLive hlive
      rw [hgiven]
      exact h.ask hlive
    · obtain ⟨hsame, hnone, _⟩ := turn_of_not_isLive hlive
      rw [hsame, hnone, Option.toList_none, List.append_nil]
      exact h

/-- Any turns are fair. -/
theorem Fair.after (h : Fair r past s) (turns : List Turn) :
    Fair r (past ++ s.given turns) (s.after turns) := by
  induction turns generalizing past s with
  | nil =>
    show Fair r (past ++ []) s
    rw [List.append_nil]
    exact h
  | cons t turns ih =>
    have hrest := ih (h.turn t)
    rw [List.append_assoc] at hrest
    exact hrest

/-- The answer at a place is the one that was due there. -/
theorem Fair.answer_eq {k i : Nat} {answer : Except ReadError (Option BlockMessage)}
    (h : Fair r past s) (hat : past[k]? = some (i, answer)) : answer = answerAt r.deliveries k := by
  have hlt := (List.getElem?_eq_some_iff.1 hat).1
  have hplace := congrArg (·[k]?) h.answers
  simp only [List.getElem?_map, hat, List.getElem?_range hlt] at hplace
  exact Option.some.inj hplace

/-- Iterations that are begun at any time and asked in any order split the file among them. The
calls on iterations that have not ended are answered, in their order, with what the blobs of the
file amount to: a block, or an error in its place, for each blob that amounts to one. Then comes the
error at which framing breaks off or the end, and after it only the end. What has not been given
stays with the reader. An iteration ends when it is given an error or the end, and the others go
on. -/
theorem sharing_splits_file (r : ElementReader MemoryStream) (turns : List Turn) :
    let start : Sharing MemoryStream := ⟨r, []⟩
    let given := start.given turns
    let final := start.after turns
    let records := r.blobs.outcome.blobs.filterMap (Blob.delivery? r.supported)
    (∀ k i answer, given[k]? = some (i, answer) →
      (∀ record, records[k]? = some record → answer = (record.mapError .archive).map some) ∧
      (k = records.length → answer = ending r.blobs.outcome.failure) ∧
      (records.length < k → answer = .ok none)) ∧
    final.reader.deliveries = r.deliveries.drop given.length ∧
    final.iterations.length = turns.count .begin ∧
    (∀ i, final.IsLive i ↔ i < final.iterations.length ∧
      ∀ answer, (i, answer) ∈ given → ∃ block, answer = .ok (some block)) ∧
    (∀ i, final.IsLive i → ∃ answer, final.given? (.ask i) = some (i, answer)) ∧
    ∀ i, ¬final.IsLive i → final.turn (.ask i) = final ∧
      ∀ it, final.iterations[i]? = some it → (it.next final.reader).1.result = .ok none := by
  intro start given final records
  have hfair : Fair r given final := (fair_start r).after turns
  refine ⟨fun k i answer hat => ?_, hfair.toCome, ?_, hfair.live, fun i hlive => ?_,
    fun i hdead => ?_⟩
  · rw [hfair.answer_eq hat]
    refine ⟨fun record hrecord => ElementReader.answerAt_of_blob hrecord, fun hk => ?_,
      fun hgt => ElementReader.answerAt_of_gt hgt⟩
    rw [hk]
    exact r.answerAt_length_blobDeliveries
  · exact (length_iterations_after turns start).trans (Nat.zero_add _)
  · obtain ⟨_, _, _, hgiven⟩ := turn_of_isLive hlive
    exact ⟨_, hgiven⟩
  · obtain ⟨hsame, _, hends⟩ := turn_of_not_isLive hdead
    exact ⟨hsame, hends⟩

end Run

/-- Three iterations share a file in which a blob that cannot be decoded stands before a single
byte: the first is given the error of the blob, the second the error of the byte, and the third,
which is begun later, nothing. -/
theorem three_iterations_share_file :
    let start : Sharing MemoryStream := ⟨.ofBytes true [] ElementReader.hollowFile, []⟩
    start.given [.begin, .begin, .ask 0, .ask 1, .begin, .ask 2] =
      [(0, .error (.archive .emptyBlob)), (1, .error (.archive .invalidHeaderSize)),
        (2, .ok none)] := by
  intro start
  let turns : List Turn := [.begin, .begin, .ask 0, .ask 1, .begin, .ask 2]
  obtain ⟨first, second, third, hgiven⟩ : ∃ first second third,
      start.given turns = [(0, first), (1, second), (2, third)] := ⟨_, _, _, rfl⟩
  obtain ⟨hanswers, _⟩ := sharing_splits_file start.reader turns
  have houtcome : start.reader.blobs.outcome =
      ⟨[ElementReader.hollowBlob], some (.archive .invalidHeaderSize)⟩ :=
    ElementReader.outcome_hollowFile
  have hrecords : start.reader.blobs.outcome.blobs.filterMap
      (Blob.delivery? start.reader.supported) = [.error .emptyBlob] := by
    rw [houtcome]
    rfl
  have hfirst : first = .error (.archive .emptyBlob) :=
    (hanswers 0 0 first (congrArg (·[0]?) hgiven)).1 (.error .emptyBlob) (congrArg (·[0]?) hrecords)
  have hsecond : second = .error (.archive .invalidHeaderSize) := by
    have hending := (hanswers 1 1 second (congrArg (·[1]?) hgiven)).2.1
      (congrArg List.length hrecords).symm
    rwa [houtcome] at hending
  have hthird : third = .ok none :=
    (hanswers 2 2 third (congrArg (·[2]?) hgiven)).2.2
      (by rw [hrecords, List.length_singleton]; exact Nat.one_lt_two)
  rw [hfirst, hsecond, hthird] at hgiven
  exact hgiven

end Sharing

end MapArchive
