import MapArchive.Proofs.Walk

/-!
# On the way through a walk

A walk may be asked any number of times before anything else happens. The items that have been given
by then are the first ones of those that were to come at the start.
-/

namespace MapArchive.Walk

variable {σ α : Type} [Walk σ α]

/-- The state after asking `n` times. -/
def after : Nat → σ → σ
  | 0, s => s
  | n + 1, s => after n (next s).2

/-- The items that are given by asking `n` times. -/
def given (n : Nat) (s : σ) : List α := (nexts n s).filterMap id

/-- A walk that stays as it is when asked once does so when asked any number of times. -/
theorem after_of_none {s : σ} (h : next s = (none, s)) (n : Nat) : after n s = s := by
  induction n with
  | zero => rfl
  | succ n ih => rw [after, h, ih]

variable [Fused σ]

/-- The items that have been given are the first ones. -/
theorem given_eq_take (n : Nat) (s : σ) : given n s = (toList s).take n := by
  induction n generalizing s with
  | zero => rfl
  | succ n ih =>
    have hlater := ih (next s).2
    rw [given] at hlater ⊢
    rw [nexts]
    rcases hnext : next s with ⟨_ | a, t⟩
    · rw [hnext, toList_of_none (Fused.next_of_none hnext), List.take_nil] at hlater
      rw [toList_of_none hnext, List.take_nil]
      exact hlater
    · rw [hnext] at hlater
      rw [toList_of_some hnext, List.take_succ_cons, ← hlater]
      rfl

end MapArchive.Walk
