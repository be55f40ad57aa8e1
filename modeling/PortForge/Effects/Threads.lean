/-
# Programs that run at the same time

Several programs share their surroundings and perform their operations in any order, one
operation at a time. What an operation does may depend on the program that performs it.
-/

import PortForge.Effects.Program
import Mathlib.Logic.Function.Basic

namespace Effects

/-- Programs at work on one state, and the order of the moves so far. -/
structure Threads (ι O : Type) (R : O → Type) (E S α : Type) where
  state : S
  program : ι → Program O R E α
  history : List ι

/-- What an operation answers the program that performs it, and what it leaves behind. -/
abbrev Handler (ι O : Type) (R : O → Type) (S : Type) : Type := ι → (op : O) → S → R op × S

namespace Threads

variable {ι O : Type} {R : O → Type} {E S α : Type}

/-- Before the first move. -/
def start (state : S) (program : ι → Program O R E α) : Threads ι O R E S α where
  state := state
  program := program
  history := []

/-- Every order of moves. -/
def anyOrder (_ : Threads ι O R E S α) (_ : ι) : Prop := True

variable [DecidableEq ι]

/-- One program performs its next operation, if it has one. -/
def move (handle : Handler ι O R S) (τ : Threads ι O R E S α) (i : ι) : Threads ι O R E S α :=
  match τ.program i with
  | .call op next =>
      { state := (handle i op τ.state).2
        program := Function.update τ.program i (next (handle i op τ.state).1)
        history := τ.history ++ [i] }
  | _ => { τ with history := τ.history ++ [i] }

/-- A run of several moves. -/
def play (handle : Handler ι O R S) (τ : Threads ι O R E S α) (moves : List ι) :
    Threads ι O R E S α :=
  moves.foldl (move handle) τ

/-- What a run reaches whose moves are all allowed where they are made. -/
inductive Reachable (handle : Handler ι O R S) (allowed : Threads ι O R E S α → ι → Prop)
    (τ₀ : Threads ι O R E S α) : Threads ι O R E S α → Prop
  | start : Reachable handle allowed τ₀ τ₀
  | step {τ : Threads ι O R E S α} (i : ι) (hbefore : Reachable handle allowed τ₀ τ)
      (hallowed : allowed τ i) : Reachable handle allowed τ₀ (τ.move handle i)

variable {handle : Handler ι O R S} {τ τ₀ : Threads ι O R E S α} {i j : ι}
  {allowed : Threads ι O R E S α → ι → Prop}

theorem move_of_call (handle : Handler ι O R S) {op : O} {next : R op → Program O R E α}
    (h : τ.program i = .call op next) :
    (τ.move handle i).program i = next (handle i op τ.state).1 ∧
      (τ.move handle i).state = (handle i op τ.state).2 := by
  simp [move, h]

/-- A program that has ended stays where it is. -/
theorem move_of_raise (handle : Handler ι O R S) {error : E} (h : τ.program i = .raise error) :
    (τ.move handle i).program = τ.program ∧ (τ.move handle i).state = τ.state := by
  simp [move, h]

theorem move_of_ret (handle : Handler ι O R S) {value : α} (h : τ.program i = .ret value) :
    (τ.move handle i).program = τ.program ∧ (τ.move handle i).state = τ.state := by
  simp [move, h]

theorem move_program_of_ne (h : j ≠ i) : (τ.move handle i).program j = τ.program j := by
  simp only [move]
  split
  · exact Function.update_of_ne h _ _
  · rfl

@[simp]
theorem move_history : (τ.move handle i).history = τ.history ++ [i] := by
  simp only [move]
  split <;> rfl

/-- A run whose moves are all allowed reaches what it plays. -/
theorem Reachable.of_play {moves : List ι} (h : Reachable handle allowed τ₀ τ)
    (hallowed : ∀ before i after, moves = before ++ i :: after →
      allowed (τ.play handle before) i) :
    Reachable handle allowed τ₀ (τ.play handle moves) := by
  induction moves generalizing τ with
  | nil => exact h
  | cons i rest ih =>
      refine ih (.step i h (hallowed [] i rest rfl)) fun before j after hsplit => ?_
      exact hallowed (i :: before) j after (by rw [hsplit, List.cons_append])

/-- What holds at the start and is kept by every allowed move holds in every state reached. -/
theorem Reachable.invariant {motive : Threads ι O R E S α → Prop}
    (h : Reachable handle allowed τ₀ τ) (hstart : motive τ₀)
    (hmove : ∀ τ i, motive τ → allowed τ i → motive (τ.move handle i)) : motive τ := by
  induction h with
  | start => exact hstart
  | step i _ hallowed ih => exact hmove _ i ih hallowed

end Threads

end Effects
