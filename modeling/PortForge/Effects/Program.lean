/-
# Programs that call their surroundings

A program is the tree of its calls: an operation, and for every answer the rest of
the program. What an operation does to the surroundings, and what it answers, is a
handler's business, so one program can be run against a healthy disk, a failing one,
or one that other programs use as well.
-/

import Mathlib.Tactic.Common

namespace Effects

/-- A program over operations `O` with answers `R`, exceptions `E`. -/
inductive Program (O : Type) (R : O → Type) (E α : Type) : Type
  | /-- Return. -/
    ret (value : α)
  | /-- Raise an exception. -/
    raise (error : E)
  | /-- Perform an operation and go on with its answer. -/
    call (op : O) (next : R op → Program O R E α)

namespace Program

variable {O : Type} {R : O → Type} {E S α β γ : Type}

/-- Sequential composition. -/
def bind : Program O R E α → (α → Program O R E β) → Program O R E β
  | ret value, f => f value
  | raise error, _ => raise error
  | call op next, f => call op fun answer => (next answer).bind f

instance : Monad (Program O R E) where
  pure := ret
  bind := bind

@[simp]
theorem pure_eq_ret (value : α) : (pure value : Program O R E α) = ret value := rfl

@[simp]
theorem bind_eq (p : Program O R E α) (f : α → Program O R E β) : p >>= f = p.bind f := rfl

theorem bind_ret (p : Program O R E α) : p.bind ret = p := by
  induction p with
  | ret value | raise error => rfl
  | call op next ih => exact congrArg (call op) (funext ih)

theorem bind_assoc (p : Program O R E α) (f : α → Program O R E β) (g : β → Program O R E γ) :
    (p.bind f).bind g = p.bind fun value => (f value).bind g := by
  induction p with
  | ret value | raise error => rfl
  | call op next ih => exact congrArg (call op) (funext ih)

instance : LawfulMonad (Program O R E) :=
  LawfulMonad.mk' _ (fun p => bind_ret p) (fun _ _ => rfl) (fun p f g => bind_assoc p f g)

@[simp]
theorem map_eq_bind (f : α → β) (p : Program O R E α) :
    f <$> p = p.bind fun value => ret (f value) := rfl

/-- A program that only computes. -/
def ofExcept : Except E α → Program O R E α
  | .ok value => ret value
  | .error error => raise error

/-- One operation. -/
def perform (op : O) : Program O R E (R op) := call op ret

/-! ## Running against a handler -/

/-- Run a program: what it returns or raises, and what it leaves behind. -/
def run (handle : (op : O) → S → R op × S) : Program O R E α → S → Except E α × S
  | ret value, s => (.ok value, s)
  | raise error, s => (.error error, s)
  | call op next, s => (next (handle op s).1).run handle (handle op s).2

variable {handle : (op : O) → S → R op × S} {s : S}

@[simp]
theorem run_ret (value : α) :
    (ret value : Program O R E α).run handle s = (.ok value, s) := rfl

@[simp]
theorem run_raise (error : E) :
    (raise error : Program O R E α).run handle s = (.error error, s) := rfl

@[simp]
theorem run_call (op : O) (next : R op → Program O R E α) :
    (call op next).run handle s = (next (handle op s).1).run handle (handle op s).2 := rfl

/-- An operation with a known answer. -/
theorem run_call_of_handle {op : O} {next : R op → Program O R E α} {answer : R op} {s' : S}
    (h : handle op s = (answer, s')) :
    (call op next).run handle s = (next answer).run handle s' := by
  rw [run_call, h]

@[simp]
theorem run_ofExcept (result : Except E α) :
    (ofExcept result : Program O R E α).run handle s = (result, s) := by
  cases result <;> rfl

/-- A composition whose first part returns goes on with what that part left behind. -/
theorem run_bind_of_ok {p : Program O R E α} {f : α → Program O R E β} {value : α} {s' : S}
    (h : p.run handle s = (.ok value, s')) :
    (p.bind f).run handle s = (f value).run handle s' := by
  induction p generalizing s with
  | ret other => cases h; rfl
  | raise error => cases h
  | call op next ih => exact ih _ h

/-- A composition whose first part raises ends there. -/
theorem run_bind_of_error {p : Program O R E α} {f : α → Program O R E β} {error : E} {s' : S}
    (h : p.run handle s = (.error error, s')) :
    (p.bind f).run handle s = (.error error, s') := by
  induction p generalizing s with
  | ret value => cases h
  | raise other => cases h; rfl
  | call op next ih => exact ih _ h

/-- Every operation the program can perform satisfies `P`. -/
def Uses (P : O → Prop) : Program O R E α → Prop
  | ret _ => True
  | raise _ => True
  | call op next => P op ∧ ∀ answer, (next answer).Uses P

/-- What every operation of a program keeps, the whole program keeps, whether it
returns or raises. -/
theorem Uses.run_induction {P : O → Prop} {motive : S → Prop} {p : Program O R E α}
    (huses : p.Uses P) (hstart : motive s)
    (hop : ∀ op s, P op → motive s → motive (handle op s).2) : motive (p.run handle s).2 := by
  induction p generalizing s with
  | ret value | raise error => exact hstart
  | call op next ih => exact ih _ (huses.2 _) (hop op s huses.1 hstart)

theorem Uses.bind {P : O → Prop} {p : Program O R E α} {f : α → Program O R E β}
    (hp : p.Uses P) (hf : ∀ value, (f value).Uses P) : (p.bind f).Uses P := by
  induction p with
  | ret value => exact hf value
  | raise error => exact trivial
  | call op next ih => exact ⟨hp.1, fun answer => ih answer (hp.2 answer)⟩

theorem Uses.mono {P Q : O → Prop} {p : Program O R E α} (h : p.Uses P) (hPQ : ∀ op, P op → Q op) :
    p.Uses Q := by
  induction p with
  | ret value | raise error => exact trivial
  | call op next ih => exact ⟨hPQ op h.1, fun answer => ih answer (h.2 answer)⟩

/-- Every program uses operations. -/
theorem uses_true (p : Program O R E α) : p.Uses fun _ => True := by
  induction p with
  | ret value | raise error => exact trivial
  | call op next ih => exact ⟨trivial, ih⟩

/-- Every value the program can return satisfies `P`. -/
def Returns (P : α → Prop) : Program O R E α → Prop
  | ret value => P value
  | raise _ => True
  | call _ next => ∀ answer, (next answer).Returns P

theorem Returns.run {P : α → Prop} {p : Program O R E α} (h : p.Returns P) {value : α} {s' : S}
    (hrun : p.run handle s = (.ok value, s')) : P value := by
  induction p generalizing s with
  | ret other => cases hrun; exact h
  | raise error => cases hrun
  | call op next ih => exact ih _ (h _) hrun

theorem Returns.bind {P : β → Prop} {p : Program O R E α} {f : α → Program O R E β}
    (hf : ∀ value, (f value).Returns P) : (p.bind f).Returns P := by
  induction p with
  | ret value => exact hf value
  | raise error => exact trivial
  | call op next ih => exact fun answer => ih answer

/-- A composition returns what its second part makes of what the first returns. -/
theorem Returns.bind_of {P : α → Prop} {Q : β → Prop} {p : Program O R E α}
    {f : α → Program O R E β} (h : p.Returns P) (hf : ∀ value, P value → (f value).Returns Q) :
    (p.bind f).Returns Q := by
  induction p with
  | ret value => exact hf value h
  | raise error => exact trivial
  | call op next ih => exact fun answer => ih answer (h answer)

@[simp]
theorem uses_ofExcept {P : O → Prop} (result : Except E α) :
    (ofExcept result : Program O R E α).Uses P := by
  cases result <;> exact trivial

/-! ## Stopping -/

/-- What a program leaves behind that is stopped after some operations. -/
def stoppedAfter (handle : (op : O) → S → R op × S) : ℕ → Program O R E α → S → S
  | n + 1, call op next, s => stoppedAfter handle n (next (handle op s).1) (handle op s).2
  | _, _, s => s

/-- The operations it has performed by then satisfy `P`. -/
def PerformsOnly (handle : (op : O) → S → R op × S) (P : O → Prop) :
    ℕ → Program O R E α → S → Prop
  | n + 1, call op next, s =>
      P op ∧ PerformsOnly handle P n (next (handle op s).1) (handle op s).2
  | _, _, _ => True

/-- What the performed operations keep, the stopped program has kept. -/
theorem PerformsOnly.induction {P : O → Prop} {motive : S → Prop} {n : ℕ} {p : Program O R E α}
    (h : p.PerformsOnly handle P n s) (hstart : motive s)
    (hop : ∀ op s, P op → motive s → motive (handle op s).2) :
    motive (p.stoppedAfter handle n s) := by
  induction n generalizing p s with
  | zero => exact hstart
  | succ n ih =>
      cases p with
      | ret value => exact hstart
      | raise error => exact hstart
      | call op next => exact ih h.2 (hop op s h.1 hstart)

end Program

end Effects
