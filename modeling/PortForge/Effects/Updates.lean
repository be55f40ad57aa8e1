/-
# Runs of updates

What a function is after it was updated at several places, one after another: at each
place the last update counts.
-/

import Mathlib.Logic.Function.Basic
import Mathlib.Data.List.Basic
import Mathlib.Tactic.Common

namespace Effects

variable {L β : Type} [DecidableEq L]

/-- Update a function at several places, in order. -/
def updateAll (f : L → β) (entries : List (L × β)) : L → β :=
  entries.foldl (fun g entry => Function.update g entry.1 entry.2) f

variable {f : L → β} {place : L} {value : β}

@[simp]
theorem updateAll_nil : updateAll f [] = f := rfl

@[simp]
theorem updateAll_cons (entry : L × β) (entries : List (L × β)) :
    updateAll f (entry :: entries) = updateAll (Function.update f entry.1 entry.2) entries := rfl

/-- A place no update names keeps its value. -/
theorem updateAll_of_not_mem {entries : List (L × β)} (h : place ∉ entries.map Prod.fst) :
    updateAll f entries place = f place := by
  induction entries generalizing f with
  | nil => rfl
  | cons entry entries ih =>
      rw [List.map_cons, List.mem_cons, not_or] at h
      rw [updateAll_cons, ih h.2, Function.update_of_ne h.1]

/-- The last update at a place counts. -/
theorem updateAll_of_last {before after : List (L × β)} (h : place ∉ after.map Prod.fst) :
    updateAll f (before ++ (place, value) :: after) place = value := by
  induction before generalizing f with
  | nil => rw [List.nil_append, updateAll_cons, updateAll_of_not_mem h, Function.update_self]
  | cons entry before ih => rw [List.cons_append, updateAll_cons, ih]

/-- A place that is named has a last update. -/
theorem exists_last {entries : List (L × β)} (h : place ∈ entries.map Prod.fst) :
    ∃ before value after, entries = before ++ (place, value) :: after ∧
      place ∉ after.map Prod.fst := by
  induction entries with
  | nil => cases h
  | cons entry entries ih =>
      by_cases hlater : place ∈ entries.map Prod.fst
      · obtain ⟨before, value, after, hentries, hlast⟩ := ih hlater
        exact ⟨entry :: before, value, after, by rw [hentries, List.cons_append], hlast⟩
      · rw [List.map_cons, List.mem_cons] at h
        rcases h with rfl | h
        · exact ⟨[], entry.2, entries, rfl, hlater⟩
        · exact (hlater h).elim

/-- What a named place holds in the end is one of its updates. -/
theorem updateAll_mem {entries : List (L × β)} (h : place ∈ entries.map Prod.fst) :
    (place, updateAll f entries place) ∈ entries := by
  obtain ⟨before, value, after, rfl, hlast⟩ := exists_last h
  rw [updateAll_of_last hlast]
  exact List.mem_append_right before List.mem_cons_self

/-- Where no place is named twice, every update counts. -/
theorem updateAll_of_nodup {entries : List (L × β)} (h : (entries.map Prod.fst).Nodup)
    {entry : L × β} (hentry : entry ∈ entries) : updateAll f entries entry.1 = entry.2 := by
  obtain ⟨before, after, rfl⟩ := List.append_of_mem hentry
  rw [List.map_append, List.map_cons] at h
  exact updateAll_of_last (List.nodup_cons.mp (List.nodup_append.mp h).2.1).1

/-- Where every update agrees with `g`, the named places end with the values of `g`. -/
theorem updateAll_of_agree {g : L → β} {entries : List (L × β)}
    (hagree : ∀ entry ∈ entries, entry.2 = g entry.1) (h : place ∈ entries.map Prod.fst) :
    updateAll f entries place = g place :=
  hagree _ (updateAll_mem h)

/-- Updates that write `f`'s own values back undo any updates at their places. -/
theorem updateAll_restore {done undo : List (L × β)} (hundo : ∀ entry ∈ undo, entry.2 = f entry.1)
    (hplaces : ∀ entry ∈ done, entry.1 ∈ undo.map Prod.fst) :
    updateAll (updateAll f done) undo = f := by
  funext place
  by_cases hplace : place ∈ undo.map Prod.fst
  · exact updateAll_of_agree hundo hplace
  · rw [updateAll_of_not_mem hplace, updateAll_of_not_mem]
    intro hdone
    obtain ⟨entry, hentry, rfl⟩ := List.mem_map.mp hdone
    exact hplace (hplaces entry hentry)

end Effects
