/-!
# Walks

A walk is an iteration that is known to end: its state says what is still to come, `next` gives the
next item, if any, and the state after it, and every item given lowers a bound. `toList` is the view
of a walk: all that is still to come.
-/

namespace MapArchive

/-- States of an iteration that gives finitely many items. -/
class Walk (σ : Type) (α : outParam Type) where
  /-- The next item, if any, and the state afterwards. -/
  next : σ → Option α × σ
  /-- An upper bound for the number of items to come. -/
  bound : σ → Nat
  /-- Every item that is given lowers the bound. -/
  bound_next : ∀ {s t : σ} {a : α}, next s = (some a, t) → bound t < bound s

namespace Walk

variable {σ α : Type} [Walk σ α]

/-- Takes all items to come, after those already `seen`, and the state at the end. -/
def drainOnto (seen : Array α) (s : σ) : Array α × σ :=
  match h : next s with
  | (none, t) => (seen, t)
  | (some a, t) =>
    have := bound_next h
    drainOnto (seen.push a) t
termination_by bound s

/-- All items to come, and the state at the end. -/
def drain (s : σ) : List α × σ :=
  let (items, t) := drainOnto #[] s
  (items.toList, t)

/-- All items to come. -/
def toList (s : σ) : List α := (drain s).1

/-- Carries out an action for each item to come, as soon as the item is given. -/
def forEach {m : Type → Type} [Monad m] (s : σ) (act : α → m Unit) : m Unit :=
  match h : next s with
  | (none, _) => pure ()
  | (some a, t) => do
    have := bound_next h
    act a
    forEach t act
termination_by bound s

end Walk

instance {α : Type} : Walk (List α) α where
  next
    | [] => (none, [])
    | a :: rest => (some a, rest)
  bound := List.length
  bound_next {s t a} h := by
    cases s with
    | nil => cases h
    | cons b rest => cases h; simp

end MapArchive
