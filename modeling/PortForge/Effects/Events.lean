/-
# What happens in a run

Whether a run performs an operation with a certain answer, how this goes along a
composition, and the events that matter for files: that the content of a place is
replaced, that it is changed at all, and that it is still there in the end.
-/

import PortForge.Effects.Storage

namespace Effects

namespace Program

variable {O : Type} {R : O → Type} {E S α β : Type} {handle : (op : O) → S → R op × S}
  {event : (op : O) → R op → Prop} {p : Program O R E α} {f : α → Program O R E β} {s s' : S}

/-- The run performs an operation whose answer makes it the event. -/
def Performs (handle : (op : O) → S → R op × S) (event : (op : O) → R op → Prop) :
    Program O R E α → S → Prop
  | ret _, _ => False
  | raise _, _ => False
  | call op next, s =>
      event op (handle op s).1 ∨ Performs handle event (next (handle op s).1) (handle op s).2

theorem performs_bind_of_ok {value : α} (h : p.run handle s = (.ok value, s')) :
    Performs handle event (p.bind f) s ↔
      Performs handle event p s ∨ Performs handle event (f value) s' := by
  induction p generalizing s with
  | ret other =>
      cases h
      exact (iff_of_eq (false_or _)).symm
  | raise error => cases h
  | call op next ih => exact (or_congr_right (ih _ h)).trans (or_assoc).symm

theorem performs_bind_of_error {error : E} (h : p.run handle s = (.error error, s')) :
    Performs handle event (p.bind f) s ↔ Performs handle event p s := by
  induction p generalizing s with
  | ret value => cases h
  | raise other => exact Iff.rfl
  | call op next ih => exact or_congr_right (ih _ h)

/-- Computing in the end performs nothing. -/
theorem performs_bind_ret {g : α → β} :
    Performs handle event (p.bind fun value => ret (g value)) s ↔ Performs handle event p s := by
  rcases hrun : p.run handle s with ⟨result, s'⟩
  cases result with
  | ok value => exact (performs_bind_of_ok hrun).trans (iff_of_eq (or_false _))
  | error error => exact performs_bind_of_error hrun

theorem Performs.mono {event' : (op : O) → R op → Prop} (h : Performs handle event p s)
    (hevent : ∀ op answer, event op answer → event' op answer) : Performs handle event' p s := by
  induction p generalizing s with
  | ret value | raise error => exact h
  | call op next ih => exact h.imp (hevent op _) (ih _)

/-- What the operations of a program exclude does not happen. -/
theorem Performs.of_uses {P : O → Prop} {Q : Prop} (huses : p.Uses P)
    (hevent : ∀ op answer, P op → event op answer → Q) (h : Performs handle event p s) : Q := by
  induction p generalizing s with
  | ret value | raise error => exact h.elim
  | call op next ih =>
      obtain hop | hrest := h
      · exact hevent op _ huses.1 hop
      · exact ih _ (huses.2 _) hrest

/-- A composition uses what its second part uses on the values the first can return. -/
theorem Uses.bind_of_returns {P : O → Prop} {Q : α → Prop} (hp : p.Uses P) (hreturns : p.Returns Q)
    (hf : ∀ value, Q value → (f value).Uses P) : (p.bind f).Uses P := by
  induction p with
  | ret value => exact hf value hreturns
  | raise error => exact trivial
  | call op next ih => exact ⟨hp.1, fun answer => ih answer (hp.2 answer) (hreturns answer)⟩

end Program

namespace FileOp

variable {Site L : Type} {C : L → Type} {place : L} {op : FileOp Site L C} {answer : op.Answer}
  {sites : Site → Prop} {places : L → Prop}

/-- The operation has replaced the content of the place. -/
def Replaces (place : L) : (op : FileOp Site L C) → op.Answer → Prop
  | read _, _ => False
  | write _ location _, answer => answer = none ∧ location = place
  | unlink _ _, _ => False

/-- The operation has replaced or removed the content of the place. -/
def Changes (place : L) : (op : FileOp Site L C) → op.Answer → Prop
  | read _, _ => False
  | write _ location _, answer => answer = none ∧ location = place
  | unlink _ location, answer => answer = none ∧ location = place

/-- The operation does not remove what is at the place. -/
def Spares (place : L) : FileOp Site L C → Prop
  | read _ => True
  | write _ _ _ => True
  | unlink _ location => location ≠ place

theorem Replaces.changes (h : op.Replaces place answer) : op.Changes place answer := by
  cases op with
  | read location | write site location content => exact h
  | unlink site location => exact h.elim

theorem Within.of_changes (hop : op.Within sites places) (h : op.Changes place answer) :
    places place := by
  cases op with
  | read location => exact h.elim
  | write site location content | unlink site location => exact h.2 ▸ hop.2

end FileOp

namespace Disk

variable {Site L : Type} {C : L → Type} {E α : Type} [DecidableEq Site] [DecidableEq L]
  {d : Disk Site L C} {place : L} {p : Program (FileOp Site L C) FileOp.Answer E α}

/-- A file that no operation removes is still there. -/
theorem isSome_of_uses (huses : p.Uses (FileOp.Spares place))
    (h : (d.content place).isSome) : ((p.run handle d).2.content place).isSome := by
  refine huses.run_induction (motive := fun d' : Disk Site L C => (d'.content place).isSome) h ?_
  intro op d' hop hd'
  cases op with
  | read location => exact hd'
  | write site location content =>
      rw [handle, attempt]
      split
      · exact hd'
      · by_cases hplace : place = location
        · subst hplace
          rw [put_content_self]
          rfl
        · rw [put_content_of_ne hplace]
          exact hd'
  | unlink site location => rwa [handle, attempt_content_of_ne (Ne.symm hop)]

end Disk

end Effects
