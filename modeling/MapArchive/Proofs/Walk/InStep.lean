import MapArchive.Proofs.Walk

/-!
# Walks in step

Two walks in step give pairs, an item of each. The first walk is asked first. Where the second one
has nothing to pair an item with, that item is lost, so that the two walks no longer stand at the
same place afterwards. No pair is ever made of items of different places all the same: once one of
the walks has ended, no pair is given any more. Columns of more than two are walks in step with
walks in step. Whatever is made of the items of a walk one by one is given at the same places.
-/

namespace MapArchive.Walk

/-- Two walks that are asked in turn. -/
structure InStep (σ τ : Type) where
  /-- The walk that is asked first. -/
  first : σ
  /-- The walk that is asked only if the first one gave an item. -/
  second : τ

namespace InStep

variable {σ τ α β : Type} [Walk σ α] [Walk τ β]

/-- Gives the next pair. An item of the first walk that finds no partner is lost. -/
def next (s : InStep σ τ) : Option (α × β) × InStep σ τ :=
  match Walk.next s.first with
  | (none, first) => (none, ⟨first, s.second⟩)
  | (some a, first) =>
    match Walk.next s.second with
    | (none, second) => (none, ⟨first, second⟩)
    | (some b, second) => (some (a, b), ⟨first, second⟩)

instance : Walk (InStep σ τ) (α × β) where
  next := next
  bound s := bound s.first
  bound_next {s t a} h := by
    unfold next at h
    split at h
    · cases h
    case h_2 first hfirst =>
      split at h
      · cases h
      · cases h
        exact bound_next hfirst

variable {s : σ} {t : τ} {items : List α} {others : List β}

/-- Without items of the first walk there are no pairs. -/
theorem givesJust_of_first (h : GivesJust s []) : GivesJust (InStep.mk s t) [] := by
  intro n
  induction n generalizing s with
  | zero => rfl
  | succ n ih =>
    obtain ⟨s', hnext, hlater⟩ := givesJust_nil_iff.mp h
    have hstep : Walk.next (InStep.mk s t) = (none, ⟨s', t⟩) := by
      change InStep.next _ = _
      rw [InStep.next, hnext]
    have hrest := ih hlater
    rw [List.length_nil, Nat.zero_add] at hrest ⊢
    rw [nexts, hstep]
    exact congrArg (none :: ·) hrest

/-- Without items of the second walk there are no pairs, whatever is lost of the first one. -/
theorem givesJust_of_second (h : GivesJust t []) : GivesJust (InStep.mk s t) [] := by
  intro n
  induction n generalizing s t with
  | zero => rfl
  | succ n ih =>
    obtain ⟨s', t', hstep, hlater⟩ : ∃ s' t',
        Walk.next (InStep.mk s t) = (none, ⟨s', t'⟩) ∧ GivesJust t' [] := by
      obtain ⟨t', hnext, hlater⟩ := givesJust_nil_iff.mp h
      change ∃ s' t', InStep.next _ = _ ∧ _
      unfold InStep.next
      rcases Walk.next s with ⟨_ | a, s'⟩
      · exact ⟨s', t, rfl, h⟩
      · exact ⟨s', t', by simp only [hnext], hlater⟩
    have hrest := ih (s := s') hlater
    rw [List.length_nil, Nat.zero_add] at hrest ⊢
    rw [nexts, hstep]
    exact congrArg (none :: ·) hrest

/-- Walks in step pair up their items by their places, as far as there are both, and give nothing
after that. -/
theorem givesJust_zip (hs : GivesJust s items) (ht : GivesJust t others) :
    GivesJust (InStep.mk s t) (items.zip others) := by
  induction items generalizing s t others with
  | nil => exact givesJust_of_first hs
  | cons a items ih =>
    cases others with
    | nil => exact givesJust_of_second ht
    | cons b others =>
      obtain ⟨s', hnextS, hlaterS⟩ := givesJust_cons_iff.mp hs
      obtain ⟨t', hnextT, hlaterT⟩ := givesJust_cons_iff.mp ht
      refine givesJust_cons_iff.mpr ⟨⟨s', t'⟩, ?_, ih hlaterS hlaterT⟩
      change InStep.next _ = _
      rw [InStep.next, hnextS]
      simp only [hnextT]

end InStep

/-! ## Items made of pairs -/

/-- A walk each of whose items is turned into another one when it is given. -/
structure Mapped {α β : Type} (f : α → β) (σ : Type) where
  /-- The walk. -/
  walk : σ

namespace Mapped

variable {σ α β : Type} [Walk σ α] {f : α → β}

/-- Gives what the next item is turned into. -/
def next (s : Mapped f σ) : Option β × Mapped f σ :=
  ((Walk.next s.walk).1.map f, ⟨(Walk.next s.walk).2⟩)

instance : Walk (Mapped f σ) β where
  next := next
  bound s := bound s.walk
  bound_next {s t b} h := by
    obtain ⟨hitem, rfl⟩ := Prod.mk.inj h
    obtain ⟨a, ha, -⟩ := Option.map_eq_some_iff.mp hitem
    exact bound_next (Prod.ext ha rfl)

/-- Asking for what items are turned into gives what the answers are turned into. -/
theorem nexts_mapped (n : Nat) (s : σ) :
    nexts n (Mapped.mk (f := f) s) = (nexts n s).map (Option.map f) := by
  induction n generalizing s with
  | zero => rfl
  | succ n ih => exact congrArg ((Walk.next s).1.map f :: ·) (ih (Walk.next s).2)

/-- What the items are turned into is given, and nothing after it. -/
theorem givesJust_map {s : σ} {items : List α} (h : GivesJust s items) :
    GivesJust (Mapped.mk (f := f) s) (items.map f) := by
  intro n
  rw [nexts_mapped, List.length_map, h n, List.map_append, List.map_replicate, List.map_map,
    List.map_map]
  rfl

end Mapped

end MapArchive.Walk
