/-
# Edits that are undone in any order

A content is edited, and an edit is undone by putting back what was there before it,
whenever what it left is there again. Contents can recur, so edits need not be undone
in the order in which they were made. What holds throughout is a balance: the present
content and those before the standing edits are the original one and those after them.
-/

import Mathlib.Data.List.Basic
import Mathlib.Tactic.Common

namespace Effects

variable {α : Type} {origin live before next : α} {edits others : List (α × α)}

/-- The standing edits, each with the contents before and after it, account for the way
from the original content to the present one. -/
def Balanced (origin live : α) (edits : List (α × α)) : Prop :=
  (live :: edits.map Prod.fst).Perm (origin :: edits.map Prod.snd)

/-- Without standing edits the content is the original one. -/
@[simp]
theorem balanced_nil : Balanced origin live [] ↔ live = origin := by
  simp [Balanced]

/-- The order of the edits does not matter. -/
theorem Balanced.perm (h : Balanced origin live edits) (hperm : edits.Perm others) :
    Balanced origin live others :=
  calc (live :: others.map Prod.fst).Perm (live :: edits.map Prod.fst) :=
        (hperm.symm.map Prod.fst).cons live
    List.Perm _ (origin :: edits.map Prod.snd) := h
    List.Perm _ (origin :: others.map Prod.snd) := (hperm.map Prod.snd).cons origin

/-- An edit replaces the present content. -/
theorem Balanced.push (h : Balanced origin live edits) (next : α) :
    Balanced origin next ((live, next) :: edits) :=
  (h.cons next).trans (.swap origin next (edits.map Prod.snd))

/-- An edit whose outcome is the present content can be undone. -/
theorem Balanced.pop (h : Balanced origin live ((before, live) :: edits)) :
    Balanced origin before edits :=
  (h.trans (.swap live origin (edits.map Prod.snd))).cons_inv

end Effects
