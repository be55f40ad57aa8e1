/-
# Files with modes

A disk whose files carry a mode besides their content. What replaces a file is a new
file, so it has the mode of new files; reading, removing and failing leave the modes as
they are. Recording the modes changes nothing for a program: it returns the same and
leaves the same contents behind. In the end a place has the mode of new files if the
program replaced it, and else the mode it had.
-/

import PortForge.Effects.Events

namespace Effects

variable {Site L : Type} {C : L → Type} {M E α : Type}

/-! ## Recording the modes -/

/-- A disk, and the mode of the file at each place. -/
structure ModedDisk (Site L : Type) (C : L → Type) (M : Type) where
  disk : Disk Site L C
  mode : L → M

namespace ModedDisk

variable [DecidableEq Site] [DecidableEq L] {fresh : M} {t : ModedDisk Site L C M}
  {p : Program (FileOp Site L C) FileOp.Answer E α}

/-- The modes after an operation with its answer. -/
def modesAfter (fresh : M) (mode : L → M) : (op : FileOp Site L C) → op.Answer → L → M
  | .read _, _ => mode
  | .write _ location _, none => Function.update mode location fresh
  | .write _ _ _, some _ => mode
  | .unlink _ _, _ => mode

/-- What an operation does, where a replaced file has the mode of new files. -/
def handle (fresh : M) (op : FileOp Site L C) (t : ModedDisk Site L C M) :
    op.Answer × ModedDisk Site L C M :=
  ((Disk.handle op t.disk).1,
    { disk := (Disk.handle op t.disk).2
      mode := modesAfter fresh t.mode op (Disk.handle op t.disk).1 })

/-- The program returns the same and leaves the same contents, with modes or without. -/
theorem run_disk : ((p.run (handle fresh) t).1, (p.run (handle fresh) t).2.disk) =
    p.run Disk.handle t.disk := by
  induction p generalizing t with
  | ret value | raise error => rfl
  | call op next ih => exact ih _

omit [DecidableEq Site] in
theorem modesAfter_of_replaces {mode : L → M} {op : FileOp Site L C} {answer : op.Answer} {place : L}
    (h : op.Replaces place answer) : modesAfter fresh mode op answer place = fresh := by
  cases op with
  | read location | unlink site location => exact h.elim
  | write site location content =>
      obtain ⟨rfl, rfl⟩ := h
      exact Function.update_self _ _ _

omit [DecidableEq Site] in
theorem modesAfter_of_not_replaces {mode : L → M} {op : FileOp Site L C} {answer : op.Answer}
    {place : L} (h : ¬ op.Replaces place answer) :
    modesAfter fresh mode op answer place = mode place := by
  cases op with
  | read location | unlink site location => rfl
  | write site location content =>
      match answer with
      | none => exact Function.update_of_ne (fun heq => h ⟨rfl, heq.symm⟩) _ _
      | some error => rfl

/-- The mode of new files stays. -/
theorem run_mode_of_fresh {place : L} (h : t.mode place = fresh) :
    (p.run (handle fresh) t).2.mode place = fresh := by
  refine p.uses_true.run_induction
    (motive := fun t' : ModedDisk Site L C M => t'.mode place = fresh) h ?_
  intro op t' _ ht'
  by_cases hop : op.Replaces place (Disk.handle op t'.disk).1
  · exact modesAfter_of_replaces hop
  · exact (modesAfter_of_not_replaces hop).trans ht'

/-- A place the program replaces ends with the mode of new files. -/
theorem run_mode_of_replaces {place : L} (h : p.Performs Disk.handle (FileOp.Replaces place) t.disk) :
    (p.run (handle fresh) t).2.mode place = fresh := by
  induction p generalizing t with
  | ret value | raise error => exact h.elim
  | call op next ih =>
      obtain hop | hrest := h
      · exact run_mode_of_fresh (t := (handle fresh op t).2) (modesAfter_of_replaces hop)
      · exact ih _ hrest

/-- Every other place keeps its mode. -/
theorem run_mode_of_not_replaces {place : L} (h : ¬ p.Performs Disk.handle (FileOp.Replaces place) t.disk) :
    (p.run (handle fresh) t).2.mode place = t.mode place := by
  induction p generalizing t with
  | ret value | raise error => rfl
  | call op next ih =>
      obtain ⟨hop, hrest⟩ := not_or.mp h
      exact (ih _ hrest).trans (modesAfter_of_not_replaces hop)

end ModedDisk

end Effects
