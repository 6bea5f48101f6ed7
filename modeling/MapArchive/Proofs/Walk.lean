import MapArchive.Walk

/-!
# The view of a walk

The items to come of a walk are the next one, if there is one, and then the items to come after it.
Everything a walk does is told from them: an action carried out for each item is carried out along
the list, and asking again and again gives the items of the list and nothing after them, provided
that a walk that has ended stays where it is.
-/

namespace MapArchive.Walk

variable {σ α : Type} [Walk σ α] {s t : σ} {a : α}

/-- If there is no next item, those seen are all. -/
theorem drainOnto_of_none {seen : Array α} (h : next s = (none, t)) :
    drainOnto seen s = (seen, t) := by
  rw [drainOnto]
  split
  case h_1 u hnone => rw [h] at hnone; cases hnone; rfl
  case h_2 b u hsome => rw [h] at hsome; cases hsome

/-- The next item is added to those seen. -/
theorem drainOnto_of_some {seen : Array α} (h : next s = (some a, t)) :
    drainOnto seen s = drainOnto (seen.push a) t := by
  rw [drainOnto]
  split
  case h_1 u hnone => rw [h] at hnone; cases hnone
  case h_2 b u hsome => rw [h] at hsome; cases hsome; rfl

/-- Items already seen stay in front. -/
theorem drainOnto_eq (seen : Array α) (s : σ) :
    (drainOnto seen s).1.toList = seen.toList ++ toList s := by
  have htoList : toList s = (drainOnto #[] s).1.toList := rfl
  rw [htoList]
  rcases hnext : next s with ⟨_ | a, t⟩
  · rw [drainOnto_of_none hnext, drainOnto_of_none hnext, List.append_nil]
  · have hlt := bound_next hnext
    rw [drainOnto_of_some hnext, drainOnto_of_some hnext, drainOnto_eq (seen.push a) t,
      drainOnto_eq (#[].push a) t, Array.toList_push, Array.toList_push, List.append_assoc,
      List.append_assoc]
    rfl
termination_by bound s

/-- If there is no next item, no items are to come. -/
theorem toList_of_none (h : next s = (none, t)) : toList s = [] := by
  rw [toList, drain, drainOnto_of_none h]

/-- The next item is the first one to come. -/
theorem toList_of_some (h : next s = (some a, t)) : toList s = a :: toList t := by
  have hseen := drainOnto_eq #[a] t
  rw [toList, drain, drainOnto_of_some h]
  exact hseen

/-- The items to come of a list are its entries. -/
@[simp] theorem toList_list (items : List α) : toList items = items := by
  induction items with
  | nil => exact toList_of_none (t := []) rfl
  | cons a rest ih => rw [toList_of_some (t := rest) (a := a) rfl, ih]

/-- An action is carried out for the items to come, one after the other. -/
theorem forEach_eq {m : Type → Type} [Monad m] (act : α → m Unit) (s : σ) :
    forEach s act = (toList s).forM act := by
  rw [forEach]
  split
  case h_1 t hnone =>
    rw [toList_of_none hnone]
    rfl
  case h_2 a t hsome =>
    have hlt := bound_next hsome
    rw [toList_of_some hsome, forEach_eq act t]
    rfl
termination_by bound s

/-! ### Asking again and again -/

/-- What asking `n` times for the next item gives. -/
def nexts : Nat → σ → List (Option α)
  | 0, _ => []
  | n + 1, s => (next s).1 :: nexts n (next s).2

/-- Walks that stay where they are once they have come to their end. -/
class Fused (σ : Type) {α : Type} [Walk σ α] : Prop where
  /-- Asking at the end changes nothing. -/
  next_of_none : ∀ {s t : σ}, next s = (none, t) → next t = (none, t)

/-- Once a walk has come to its end, it gives nothing any more. -/
theorem nexts_of_none [Fused σ] (h : next s = (none, t)) (n : Nat) :
    nexts n s = List.replicate n none := by
  induction n generalizing s with
  | zero => rfl
  | succ n ih =>
    rw [nexts, h]
    exact congrArg (none :: ·) (ih (Fused.next_of_none h))

/-- A walk gives the items to come and then nothing any more. -/
theorem nexts_eq [Fused σ] (n : Nat) (s : σ) :
    nexts ((toList s).length + n) s = (toList s).map some ++ List.replicate n none := by
  rcases hnext : next s with ⟨_ | a, t⟩
  · have hnone := nexts_of_none hnext n
    simpa [toList_of_none hnext] using hnone
  · have hlt := bound_next hnext
    have hrest := nexts_eq n t
    rw [toList_of_some hnext, List.length_cons, Nat.add_right_comm, nexts, hnext]
    exact congrArg (some a :: ·) hrest
termination_by bound s

/-- Walks that give some items and then nothing, however often they are asked. -/
def GivesJust {σ α : Type} [Walk σ α] (s : σ) (items : List α) : Prop :=
  ∀ n, nexts (items.length + n) s = items.map some ++ List.replicate n none

/-- A walk gives its items to come and nothing after them, if it stays where it is at its end. -/
theorem givesJust_toList {σ α : Type} [Walk σ α] [Fused σ] (s : σ) : GivesJust s (toList s) :=
  fun n => nexts_eq n s

/-- Nothing is given if nothing is given now and nothing afterwards. -/
theorem givesJust_nil_iff : GivesJust s [] ↔ ∃ t, next s = (none, t) ∧ GivesJust t [] := by
  constructor
  · intro h
    have hfirst : (next s).1 = none := (List.cons.inj (h 1)).1
    refine ⟨(next s).2, Prod.ext hfirst rfl, fun n => ?_⟩
    have hlater := h (n + 1)
    rw [List.length_nil, Nat.zero_add, nexts, List.map_nil, List.nil_append,
      List.replicate_succ] at hlater
    simpa using (List.cons.inj hlater).2
  · rintro ⟨t, hnext, hlater⟩ n
    cases n with
    | zero => rfl
    | succ n =>
      have hrest := hlater n
      rw [List.length_nil, Nat.zero_add] at hrest ⊢
      rw [nexts, hnext]
      exact congrArg (none :: ·) hrest

/-- An item and those after it are given if it is given now and those after it afterwards. -/
theorem givesJust_cons_iff {items : List α} :
    GivesJust s (a :: items) ↔ ∃ t, next s = (some a, t) ∧ GivesJust t items := by
  constructor
  · intro h
    have hfirst : (next s).1 = some a := (List.cons.inj (h 0)).1
    refine ⟨(next s).2, Prod.ext hfirst rfl, fun n => ?_⟩
    have hlater := h n
    rw [List.length_cons, Nat.add_right_comm] at hlater
    exact (List.cons.inj hlater).2
  · rintro ⟨t, hnext, hlater⟩ n
    rw [List.length_cons, Nat.add_right_comm, nexts, hnext]
    exact congrArg (some a :: ·) (hlater n)

/-- A list gives its entries and nothing after them. -/
theorem givesJust_list (items : List α) : GivesJust items items := by
  have hnil : GivesJust ([] : List α) [] := by
    intro n
    induction n with
    | zero => rfl
    | succ n ih => exact congrArg (none :: ·) ih
  induction items with
  | nil => exact hnil
  | cons a items ih => exact givesJust_cons_iff.mpr ⟨items, rfl, ih⟩

/-- The items that a walk gives are those to come. -/
theorem GivesJust.toList_eq {items : List α} (h : GivesJust s items) : toList s = items := by
  induction items generalizing s with
  | nil =>
    obtain ⟨t, hnext, -⟩ := givesJust_nil_iff.mp h
    exact toList_of_none hnext
  | cons a items ih =>
    obtain ⟨t, hnext, hlater⟩ := givesJust_cons_iff.mp h
    rw [toList_of_some hnext, ih hlater]

/-- Walks whose states correspond are told apart by no number of questions. -/
theorem nexts_eq_of_related {τ : Type} [Walk τ α] {R : σ → τ → Prop}
    (hstep : ∀ s t, R s t → (next s).1 = (next t).1 ∧ R (next s).2 (next t).2) {s : σ} {t : τ}
    (h : R s t) (n : Nat) : nexts n s = nexts n t := by
  induction n generalizing s t with
  | zero => rfl
  | succ n ih =>
    obtain ⟨hsame, hlater⟩ := hstep s t h
    rw [nexts, nexts, hsame, ih hlater]

end MapArchive.Walk
