/-
# Computations that raise

Two computations one after another, and one for each item of a list. A list stops at the first
exception: it returns the results of all the items, or the exception of the first that has one.
-/

import Mathlib.Data.List.Basic
import Mathlib.Tactic.Common

namespace Effects

variable {ε α β : Type}

/-- A computation whose first part succeeds goes on with its result. -/
theorem bind_eq_ok_iff {part : Except ε α} {next : α → Except ε β} {result : β} :
    (part >>= next) = .ok result ↔ ∃ a, part = .ok a ∧ next a = .ok result := by
  cases part <;> simp [bind, Except.bind]

theorem bind_eq_error_iff {part : Except ε α} {next : α → Except ε β} {error : ε} :
    (part >>= next) = .error error ↔
      part = .error error ∨ ∃ a, part = .ok a ∧ next a = .error error := by
  cases part <;> simp [bind, Except.bind]

variable {f : α → Except ε β} {items : List α}

/-- All the items return. -/
theorem mapM_eq_ok_iff {results : List β} :
    items.mapM f = .ok results ↔ items.map f = results.map .ok := by
  induction items generalizing results with
  | nil => cases results <;> simp [pure, Except.pure]
  | cons item items ih =>
      rw [List.mapM_cons, List.map_cons]
      cases hitem : f item with
      | error error => cases results <;> simp [bind, Except.bind]
      | ok result =>
          cases hitems : items.mapM f with
          | error error =>
              cases results with
              | nil => simp [bind, Except.bind]
              | cons first others =>
                  have hnot : items.map f ≠ others.map .ok := fun h => by
                    rw [ih.mpr h] at hitems
                    cases hitems
                  simp [bind, Except.bind, hnot]
          | ok rest =>
              cases results with
              | nil => simp [bind, Except.bind, pure, Except.pure]
              | cons first others =>
                  have hrest : rest = others ↔ items.map f = others.map .ok := by
                    rw [← ih, hitems, Except.ok.injEq]
                  simp [bind, Except.bind, pure, Except.pure, hrest]

/-- The items in front of one that raises return. -/
theorem mapM_eq_error_iff {error : ε} :
    items.mapM f = .error error ↔ ∃ front item back, items = front ++ item :: back ∧
      (∀ other ∈ front, ∃ result, f other = .ok result) ∧ f item = .error error := by
  induction items with
  | nil => simp [pure, Except.pure]
  | cons item items ih =>
      rw [List.mapM_cons]
      cases hitem : f item with
      | error other =>
          change Except.error other = Except.error error ↔ _
          constructor
          · intro h
            refine ⟨[], item, items, rfl, nofun, ?_⟩
            rw [hitem]
            cases h
            rfl
          · rintro ⟨front, found, back, hsplit, hfront, hfound⟩
            cases front with
            | nil =>
                obtain ⟨rfl, rfl⟩ := List.cons.inj hsplit
                rw [hitem] at hfound
                cases hfound
                rfl
            | cons first front =>
                obtain ⟨rfl, -⟩ := List.cons.inj hsplit
                obtain ⟨result, hresult⟩ := hfront item List.mem_cons_self
                rw [hitem] at hresult
                cases hresult
      | ok result =>
          have hrest : (do let rest ← items.mapM f; pure (result :: rest) : Except ε (List β)) =
              .error error ↔ items.mapM f = .error error := by
            cases items.mapM f <;> simp [bind, Except.bind, pure, Except.pure]
          refine hrest.trans (ih.trans ?_)
          constructor
          · rintro ⟨front, found, back, rfl, hfront, hfound⟩
            refine ⟨item :: front, found, back, rfl, fun other hother => ?_, hfound⟩
            rcases List.mem_cons.mp hother with rfl | hmem
            · exact ⟨result, hitem⟩
            · exact hfront other hmem
          · rintro ⟨front, found, back, hsplit, hfront, hfound⟩
            cases front with
            | nil =>
                obtain ⟨rfl, rfl⟩ := List.cons.inj hsplit
                rw [hitem] at hfound
                cases hfound
            | cons first front =>
                obtain ⟨rfl, rfl⟩ := List.cons.inj hsplit
                exact ⟨front, found, back, rfl,
                  fun other hother => hfront other (List.mem_cons_of_mem _ hother), hfound⟩

/-- Every result is an item's. -/
theorem exists_of_mem_mapM {results : List β} (h : items.mapM f = .ok results) {result : β}
    (hresult : result ∈ results) : ∃ item ∈ items, f item = .ok result := by
  have hmem : Except.ok result ∈ items.map f := by
    rw [mapM_eq_ok_iff.mp h]
    exact List.mem_map_of_mem hresult
  exact List.mem_map.mp hmem

/-- What a function of the items says of every result holds of the list of results. -/
theorem map_of_mapM {γ : Type} {results : List β} (h : items.mapM f = .ok results) {k : β → γ}
    {g : α → γ} (hf : ∀ item result, f item = .ok result → k result = g item) :
    results.map k = items.map g := by
  have hmap := mapM_eq_ok_iff.mp h
  clear h
  induction items generalizing results with
  | nil =>
      cases results with
      | nil => rfl
      | cons result results => cases hmap
  | cons item items ih =>
      cases results with
      | nil => cases hmap
      | cons result results =>
          obtain ⟨hfirst, hrest⟩ := List.cons.inj hmap
          rw [List.map_cons, List.map_cons, hf item result hfirst, ih hrest]

/-! ## What is raised -/

/-- A computation that returns, or raises an exception of a kind. -/
def RaisesOnly (p : ε → Prop) (computation : Except ε α) : Prop :=
  ∀ error, computation = .error error → p error

section RaisesOnly

variable {p : ε → Prop}

theorem raisesOnly_pure (a : α) : RaisesOnly p (pure a : Except ε α) := nofun

theorem raisesOnly_bind_iff {part : Except ε α} {next : α → Except ε β} :
    RaisesOnly p (part >>= next) ↔
      RaisesOnly p part ∧ ∀ a, part = .ok a → RaisesOnly p (next a) := by
  constructor
  · intro h
    exact ⟨fun error hpart => h error (bind_eq_error_iff.mpr (.inl hpart)),
      fun a ha error hnext => h error (bind_eq_error_iff.mpr (.inr ⟨a, ha, hnext⟩))⟩
  · rintro ⟨hpart, hnext⟩ error herror
    rcases bind_eq_error_iff.mp herror with h | ⟨a, ha, h⟩
    · exact hpart error h
    · exact hnext a ha error h

/-- The items matter up to the first that raises. -/
theorem raisesOnly_mapM_iff : RaisesOnly p (items.mapM f) ↔
    ∀ front item back, items = front ++ item :: back →
      (∀ other ∈ front, ∃ result, f other = .ok result) → RaisesOnly p (f item) := by
  constructor
  · intro h front item back hsplit hfront error herror
    exact h error (mapM_eq_error_iff.mpr ⟨front, item, back, hsplit, hfront, herror⟩)
  · intro h error herror
    obtain ⟨front, item, back, hsplit, hfront, hitem⟩ := mapM_eq_error_iff.mp herror
    exact h front item back hsplit hfront error hitem

end RaisesOnly

end Effects
