import Mathlib.Data.List.Forall2

/-!
# Reading item by item

A list is read if every item is, and then there is a result for each (`forall₂_of_mapM_eq_some`). It
is read back from what was written for its items if every item is (`mapM_map_eq_some`). Documents
and tables both read their lists in this way. The items may be anything, and so may the reader; it
only has to read each item without looking at the others.
-/

set_option autoImplicit false

namespace MarketReplay

variable {β γ : Type} {write : β → γ} {read? : γ → Option β} {items : List γ} {results : List β}

theorem mapM_map_eq_some {xs : List β} (h : ∀ x ∈ xs, read? (write x) = some x) :
    (xs.map write).mapM read? = some xs := by
  induction xs with
  | nil => rfl
  | cons x xs ih =>
    obtain ⟨hx, hxs⟩ := List.forall_mem_cons.mp h
    rw [List.map_cons, List.mapM_cons, hx, ih hxs]
    rfl

theorem forall₂_of_mapM_eq_some (h : items.mapM read? = some results) :
    List.Forall₂ (fun item result => read? item = some result) items results := by
  induction items generalizing results with
  | nil =>
    cases h
    exact .nil
  | cons item items ih =>
    rw [List.mapM_cons] at h
    obtain ⟨result, hresult, h⟩ := Option.bind_eq_some_iff.mp h
    obtain ⟨rest, hrest, h⟩ := Option.bind_eq_some_iff.mp h
    cases h
    exact .cons hresult (ih hrest)

theorem mapM_eq_none_iff : items.mapM read? = none ↔ ∃ item ∈ items, read? item = none := by
  induction items with
  | nil => exact ⟨nofun, nofun⟩
  | cons item items ih =>
    rw [List.mapM_cons, List.exists_mem_cons_iff, ← ih]
    cases hitem : read? item with
    | none => exact ⟨fun _ => .inl rfl, fun _ => rfl⟩
    | some result => cases items.mapM read? <;> simp

theorem forall_mem_of_forall₂ {R : γ → β → Prop} {P : γ → Prop} (h : List.Forall₂ R items results)
    (himp : ∀ item result, R item result → P item) : ∀ item ∈ items, P item :=
  ((List.forall₂_and_left _ _).mp
    (h.imp fun item result hread => ⟨himp item result hread, hread⟩)).1

end MarketReplay
