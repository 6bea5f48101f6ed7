import MapArchive.Proofs.Stream.Recorder

/-!
# Reads and what they gave

An exchange is a read together with its answer. What was done to a stream is told as a list of
exchanges, which lead from one state of the stream to another. On a recorded stream these are all
the reads there were: the record grows by them and by nothing else.
-/

namespace MapArchive

/-- A read and its answer. -/
structure Exchange where
  /-- How many bytes were asked for. -/
  size : Nat
  /-- What the stream gave, if it did not refuse. -/
  answer : Except StreamFault ByteArray

namespace Exchange

/-- The bytes that were read, if they are as many as were asked for. -/
def full? (x : Exchange) : Option ByteArray :=
  match x.answer with
  | .ok bytes => if bytes.size = x.size then some bytes else none
  | .error _ => none

/-- The length that the bytes stand for, the highest byte first. -/
def length? (x : Exchange) : Option Nat := x.full?.map fun bytes => Endian.ofBig (octets bytes)

/-- The message that the bytes are. -/
def message? (α : Type) [Message α] (x : Exchange) : Option α := x.full?.bind Message.decode

/-- An answer of the size asked for is full. -/
theorem full?_of_size {x : Exchange} {bytes : ByteArray} (h : x.answer = .ok bytes)
    (hsize : bytes.size = x.size) : x.full? = some bytes := by
  rw [full?, h]
  exact if_pos hsize

/-- An answer of another size is not full. -/
theorem full?_of_size_ne {x : Exchange} {bytes : ByteArray} (h : x.answer = .ok bytes)
    (hsize : bytes.size ≠ x.size) : x.full? = none := by
  rw [full?, h]
  exact if_neg hsize

/-- A refusal is no full answer. -/
theorem full?_of_refusal {x : Exchange} {fault : StreamFault} (h : x.answer = .error fault) :
    x.full? = none := by
  rw [full?, h]

/-- A length was read in full. -/
theorem isSome_of_length? {x : Exchange} {n : Nat} (h : x.length? = some n) :
    x.full?.isSome = true := by
  obtain ⟨bytes, hbytes, _⟩ := Option.map_eq_some_iff.1 h
  rw [hbytes]
  rfl

/-- A message was read in full. -/
theorem isSome_of_message? {α : Type} [Message α] {x : Exchange} {a : α}
    (h : x.message? α = some a) : x.full?.isSome = true := by
  obtain ⟨bytes, hbytes, _⟩ := Option.bind_eq_some_iff.1 h
  rw [hbytes]
  rfl

end Exchange

variable {σ : Type} [ByteStream σ]

/-- A read from a stream. -/
def exchange (n : Nat) (s : σ) : Exchange := ⟨n, (ByteStream.read n s).1⟩

/-- The reads lead, one after the other, from the first state of the stream to the second. -/
inductive Exchanges : σ → List Exchange → σ → Prop where
  /-- Without a read the stream stays as it is. -/
  | nil (s : σ) : Exchanges s [] s
  /-- The other reads start where the first one leads to. -/
  | cons (n : Nat) {s t : σ} {xs : List Exchange} (rest : Exchanges (ByteStream.read n s).2 xs t) :
      Exchanges s (exchange n s :: xs) t

/-- What every read preserves holds after any reads. -/
theorem Exchanges.preserves {P : σ → Prop} (hread : ∀ n s, P s → P (ByteStream.read n s).2)
    {s t : σ} {xs : List Exchange} (h : Exchanges s xs t) (hs : P s) : P t := by
  induction h with
  | nil s => exact hs
  | cons n _ ih => exact ih (hread n _ hs)

/-- A recorded stream has written down just these reads. -/
theorem Recorder.reads_of_exchanges {s t : Recorder σ} {xs : List Exchange}
    (h : Exchanges s xs t) : t.reads = s.reads ++ xs.map Exchange.size := by
  induction h with
  | nil s => exact (List.append_nil s.reads).symm
  | @cons n s t xs _ ih =>
    rw [ih, Recorder.reads_read, List.append_assoc]
    rfl

end MapArchive
