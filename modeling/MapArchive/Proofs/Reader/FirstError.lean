/-!
# The first error among attempts

A list of attempts, each with an item or an error, is read as a run that stops at the first error:
there are items before it, and it may not occur at all. Attempts that are made in two stages stop at
the first error of the second stage unless the first stage has stopped before.
-/

namespace MapArchive

variable {ε δ α β : Type}

/-- The items before the first error. -/
def itemsBeforeError : List (Except ε α) → List α
  | .ok a :: rest => a :: itemsBeforeError rest
  | _ => []

/-- The first error, if there is one. -/
def firstError? : List (Except ε α) → Option ε
  | [] => none
  | .ok _ :: rest => firstError? rest
  | .error e :: _ => some e

/-- The first error of two lists is that of the first one, or else that of the second. -/
theorem firstError?_append (first second : List (Except ε α)) :
    firstError? (first ++ second) = (firstError? first).or (firstError? second) := by
  induction first with
  | nil => rfl
  | cons attempt rest ih =>
    cases attempt with
    | error e => rfl
    | ok a => exact ih

/-- Changing errors keeps the items before the first of them. -/
theorem itemsBeforeError_mapError (f : ε → δ) (attempts : List (Except ε α)) :
    itemsBeforeError (attempts.map (Except.mapError f)) = itemsBeforeError attempts := by
  induction attempts with
  | nil => rfl
  | cons attempt rest ih =>
    cases attempt with
    | error e => rfl
    | ok a => exact congrArg (List.cons a) ih

/-- The first error is changed like every other. -/
theorem firstError?_mapError (f : ε → δ) (attempts : List (Except ε α)) :
    firstError? (attempts.map (Except.mapError f)) = (firstError? attempts).map f := by
  induction attempts with
  | nil => rfl
  | cons attempt rest ih =>
    cases attempt with
    | error e => rfl
    | ok a => exact ih

/-- A single attempt has the first error that there is. -/
theorem eq_error_of_firstError? {attempt : Except ε α} {e : ε}
    (h : firstError? [attempt] = some e) : attempt = .error e := by
  cases attempt with
  | ok a => cases h
  | error failure => exact congrArg Except.error (Option.some.inj h)

/-- Without an error there are only items. -/
theorem map_ok_itemsBeforeError {attempts : List (Except ε α)} (h : firstError? attempts = none) :
    attempts = (itemsBeforeError attempts).map .ok := by
  induction attempts with
  | nil => rfl
  | cons attempt rest ih =>
    cases attempt with
    | error e => cases h
    | ok a => exact congrArg (List.cons _) (ih h)

/-- Without an error there is none before. -/
theorem firstError?_take_of_eq_none {attempts : List (Except ε α)} (h : firstError? attempts = none)
    (count : Nat) : firstError? (attempts.take count) = none := by
  rw [← List.take_append_drop count attempts, firstError?_append, Option.or_eq_none_iff] at h
  exact h.1

/-- There is an error among so many attempts if there are fewer items before the first one. -/
theorem firstError?_take_eq_none_iff {attempts : List (Except ε α)} {count : Nat}
    (hcount : count ≤ attempts.length) :
    firstError? (attempts.take count) = none ↔ count ≤ (itemsBeforeError attempts).length := by
  induction attempts generalizing count with
  | nil =>
    rw [Nat.le_zero.1 hcount]
    exact iff_of_true rfl (Nat.le_refl 0)
  | cons attempt rest ih =>
    cases count with
    | zero => exact iff_of_true rfl (Nat.zero_le _)
    | succ count =>
      cases attempt with
      | error e => exact iff_of_false nofun (Nat.not_succ_le_zero count)
      | ok a => exact (ih (Nat.le_of_succ_le_succ hcount)).trans Nat.succ_le_succ_iff.symm

section Stages

variable (f : α → Except ε β) (attempts : List (Except ε α))

/-- The items before the first error of a second attempt are found among those before the first
error of the first attempt. -/
theorem itemsBeforeError_bind : itemsBeforeError (attempts.map fun attempt => attempt.bind f) =
    itemsBeforeError ((itemsBeforeError attempts).map f) := by
  induction attempts with
  | nil => rfl
  | cons attempt rest ih =>
    cases attempt with
    | error e => rfl
    | ok a =>
      show itemsBeforeError (f a :: rest.map fun attempt => attempt.bind f) =
        itemsBeforeError (f a :: (itemsBeforeError rest).map f)
      cases f a with
      | error e => rfl
      | ok b => exact congrArg (List.cons b) ih

/-- The first error of a second attempt is that of the items before the first error, or else that
error. -/
theorem firstError?_bind : firstError? (attempts.map fun attempt => attempt.bind f) =
    (firstError? ((itemsBeforeError attempts).map f)).or (firstError? attempts) := by
  induction attempts with
  | nil => rfl
  | cons attempt rest ih =>
    cases attempt with
    | error e => rfl
    | ok a =>
      show firstError? (f a :: rest.map fun attempt => attempt.bind f) =
        (firstError? (f a :: (itemsBeforeError rest).map f)).or (firstError? rest)
      cases f a with
      | error e => rfl
      | ok b => exact ih

end Stages

end MapArchive
