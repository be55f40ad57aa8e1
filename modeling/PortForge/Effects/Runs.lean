/-
# The runs of a program

A run is one path through the tree of a program's calls: each operation with the answer it
got, and how the program ended. Nothing is said about the surroundings, so a statement about
every run is one about every behaviour of the surroundings. `attempt` turns an exception into
a value, and with it `try` with a handler and `try` with a `finally` clause are compositions.
-/

import PortForge.Effects.Program

namespace Effects

namespace Program

variable {O : Type} {R : O → Type} {E α β : Type}

/-- The program performs these operations, gets these answers, and ends so. -/
inductive Runs : Program O R E α → List (Sigma R) → Except E α → Prop
  | ret (value : α) : Runs (ret value) [] (.ok value)
  | raise (error : E) : Runs (raise error) [] (.error error)
  | call {op : O} {next : R op → Program O R E α} {events : List (Sigma R)} {outcome : Except E α}
      (answer : R op) (rest : Runs (next answer) events outcome) :
      Runs (call op next) (⟨op, answer⟩ :: events) outcome

/-- The program's exception as a value. -/
def attempt : Program O R E α → Program O R E (Except E α)
  | ret value => ret (.ok value)
  | raise error => ret (.error error)
  | call op next => call op fun answer => (next answer).attempt

/-- `try: … finally: …`: the clause runs however the program ends, and its own exception
replaces that end. -/
def ensuring (p : Program O R E α) (clause : Program O R E Unit) : Program O R E α :=
  p.attempt.bind fun outcome => clause.bind fun _ => ofExcept outcome

theorem runs_ret_iff {value : α} {events : List (Sigma R)} {outcome : Except E α} :
    (ret value : Program O R E α).Runs events outcome ↔ events = [] ∧ outcome = .ok value := by
  constructor
  · intro h
    cases h
    exact ⟨rfl, rfl⟩
  · rintro ⟨rfl, rfl⟩
    exact .ret value

theorem runs_raise_iff {error : E} {events : List (Sigma R)} {outcome : Except E α} :
    (raise error : Program O R E α).Runs events outcome ↔ events = [] ∧ outcome = .error error := by
  constructor
  · intro h
    cases h
    exact ⟨rfl, rfl⟩
  · rintro ⟨rfl, rfl⟩
    exact .raise error

theorem runs_ofExcept_iff {result : Except E α} {events : List (Sigma R)} {outcome : Except E α} :
    (ofExcept result : Program O R E α).Runs events outcome ↔ events = [] ∧ outcome = result := by
  cases result with
  | ok value => exact runs_ret_iff
  | error error => exact runs_raise_iff

theorem runs_call_iff {op : O} {next : R op → Program O R E α} {events : List (Sigma R)}
    {outcome : Except E α} :
    (call op next).Runs events outcome ↔
      ∃ answer rest, (next answer).Runs rest outcome ∧ events = ⟨op, answer⟩ :: rest := by
  constructor
  · intro h
    cases h with
    | call answer rest => exact ⟨answer, _, rest, rfl⟩
  · rintro ⟨answer, rest, h, rfl⟩
    exact .call answer h

/-- A run of a composition: its first part raises, or returns and the second part runs on. -/
theorem Runs.of_bind {p : Program O R E α} {f : α → Program O R E β} {events : List (Sigma R)}
    {outcome : Except E β} (h : (p.bind f).Runs events outcome) :
    (∃ error, p.Runs events (.error error) ∧ outcome = .error error) ∨
      ∃ value before after, p.Runs before (.ok value) ∧ (f value).Runs after outcome ∧
        events = before ++ after := by
  induction p generalizing events with
  | ret value => exact .inr ⟨value, [], events, .ret value, h, rfl⟩
  | raise error =>
      obtain ⟨rfl, rfl⟩ := runs_raise_iff.mp h
      exact .inl ⟨error, .raise error, rfl⟩
  | call op next ih =>
      obtain ⟨answer, rest, hrest, rfl⟩ := runs_call_iff.mp h
      rcases ih answer hrest with ⟨error, hraised, rfl⟩ | ⟨value, before, after, hp, hf, rfl⟩
      · exact .inl ⟨error, .call answer hraised, rfl⟩
      · exact .inr ⟨value, _, after, .call answer hp, hf, rfl⟩

/-- The runs of an attempt are those of the program. -/
theorem runs_attempt_iff {p : Program O R E α} {events : List (Sigma R)}
    {outcome : Except E (Except E α)} :
    p.attempt.Runs events outcome ↔ ∃ result, p.Runs events result ∧ outcome = .ok result := by
  induction p generalizing events with
  | ret value => simp [attempt, runs_ret_iff]
  | raise error => simp [attempt, runs_ret_iff, runs_raise_iff]
  | call op next ih =>
      rw [attempt, runs_call_iff]
      constructor
      · rintro ⟨answer, rest, hrest, rfl⟩
        obtain ⟨result, hresult, rfl⟩ := (ih answer).mp hrest
        exact ⟨result, .call answer hresult, rfl⟩
      · rintro ⟨result, hresult, rfl⟩
        obtain ⟨answer, rest, hrest, rfl⟩ := runs_call_iff.mp hresult
        exact ⟨answer, rest, (ih answer).mpr ⟨result, hrest, rfl⟩, rfl⟩

/-- After an attempt the rest knows how the program ended. -/
theorem Runs.of_attempt_bind {p : Program O R E α} {f : Except E α → Program O R E β}
    {events : List (Sigma R)} {outcome : Except E β}
    (h : (p.attempt.bind f).Runs events outcome) :
    ∃ result before after, p.Runs before result ∧ (f result).Runs after outcome ∧
      events = before ++ after := by
  rcases h.of_bind with ⟨error, hraised, -⟩ | ⟨result, before, after, hp, hf, hevents⟩
  · obtain ⟨result, -, herror⟩ := runs_attempt_iff.mp hraised
    cases herror
  · obtain ⟨other, hother, heq⟩ := runs_attempt_iff.mp hp
    cases heq
    exact ⟨result, before, after, hother, hf, hevents⟩

/-- A `finally` clause that raises decides the end; one that returns leaves it. -/
theorem Runs.of_ensuring {p : Program O R E α} {clause : Program O R E Unit}
    {events : List (Sigma R)} {outcome : Except E α} (h : (p.ensuring clause).Runs events outcome) :
    ∃ result before after, p.Runs before result ∧ events = before ++ after ∧
      ((∃ error, clause.Runs after (.error error) ∧ outcome = .error error) ∨
        clause.Runs after (.ok ()) ∧ outcome = result) := by
  obtain ⟨result, before, after, hp, hclause, hevents⟩ := Runs.of_attempt_bind h
  refine ⟨result, before, after, hp, hevents, ?_⟩
  rcases hclause.of_bind with hraised | ⟨value, cleared, rest, hdone, hrest, rfl⟩
  · exact .inl hraised
  · obtain ⟨rfl, houtcome⟩ := runs_ofExcept_iff.mp hrest
    rw [List.append_nil]
    exact .inr ⟨hdone, houtcome⟩

end Program

end Effects
