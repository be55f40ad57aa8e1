/-
# What has happened so far

A statement about the events of every run is proved along the program, with the events so
far at hand: each operation adds its event, whatever it is answered, and the rest of the
program goes on from there. What holds where a program returns and where it raises is kept
apart, so that a composition goes on with the one and passes the other through.
-/

import PortForge.Effects.Runs

namespace Effects

namespace Program

variable {O : Type} {R : O → Type} {E α β : Type} {p : Program O R E α}
  {post post' : List (Sigma R) → α → Prop} {fails fails' : List (Sigma R) → E → Prop}
  {events : List (Sigma R)}

/-- After these events every run ends so: `post` holds of all events where it returns, and
`fails` where it raises. -/
def Leads (post : List (Sigma R) → α → Prop) (fails : List (Sigma R) → E → Prop) :
    Program O R E α → List (Sigma R) → Prop
  | ret value, events => post events value
  | raise error, events => fails events error
  | call op next, events => ∀ answer, (next answer).Leads post fails (events ++ [⟨op, answer⟩])

@[simp]
theorem leads_ret {value : α} :
    (ret value : Program O R E α).Leads post fails events ↔ post events value := Iff.rfl

@[simp]
theorem leads_raise {error : E} :
    (raise error : Program O R E α).Leads post fails events ↔ fails events error := Iff.rfl

@[simp]
theorem leads_call {op : O} {next : R op → Program O R E α} :
    (call op next).Leads post fails events ↔
      ∀ answer, (next answer).Leads post fails (events ++ [⟨op, answer⟩]) := Iff.rfl

theorem Leads.mono (h : p.Leads post fails events)
    (hpost : ∀ later value, post later value → post' later value)
    (hfails : ∀ later error, fails later error → fails' later error) :
    p.Leads post' fails' events := by
  induction p generalizing events with
  | ret value => exact hpost events value h
  | raise error => exact hfails events error h
  | call op next ih => exact fun answer => ih answer (h answer)

/-- A composition goes on where its first part returns. -/
theorem leads_bind {f : α → Program O R E β} {post : List (Sigma R) → β → Prop} :
    (p.bind f).Leads post fails events ↔
      p.Leads (fun later value => (f value).Leads post fails later) fails events := by
  induction p generalizing events with
  | ret value | raise error => exact Iff.rfl
  | call op next ih => exact forall_congr' fun answer => ih answer

theorem Leads.bind {f : α → Program O R E β} {post' : List (Sigma R) → β → Prop}
    (h : p.Leads post fails events)
    (hf : ∀ later value, post later value → (f value).Leads post' fails later) :
    (p.bind f).Leads post' fails events :=
  leads_bind.mpr (h.mono hf fun _ _ => id)

/-- The rule says what every run does. -/
theorem Leads.of_runs (h : p.Leads post fails events) {later : List (Sigma R)}
    {outcome : Except E α} (hruns : p.Runs later outcome) :
    (∀ value, outcome = .ok value → post (events ++ later) value) ∧
      ∀ error, outcome = .error error → fails (events ++ later) error := by
  induction hruns generalizing events with
  | ret value =>
      rw [List.append_nil]
      constructor
      · intro other hother
        cases hother
        exact h
      · intro error herror
        cases herror
  | raise error =>
      rw [List.append_nil]
      constructor
      · intro value hvalue
        cases hvalue
      · intro other hother
        cases hother
        exact h
  | call answer rest ih =>
      rw [← List.singleton_append, ← List.append_assoc]
      exact ih (h answer)

end Program

/-! ## Orderly histories -/

section Orderly

variable {ε : Type} {admits : List ε → ε → Prop} {events : List ε} {event : ε}

/-- Every event is admitted by the events before it. -/
def Orderly (admits : List ε → ε → Prop) (events : List ε) : Prop :=
  ∀ before event after, events = before ++ event :: after → admits before event

theorem orderly_nil : Orderly admits [] := by
  intro before event after h
  cases before <;> cases h

theorem orderly_concat :
    Orderly admits (events ++ [event]) ↔ Orderly admits events ∧ admits events event := by
  constructor
  · refine fun h => ⟨fun before other after heq => ?_, h events event [] rfl⟩
    exact h before other (after ++ [event]) (by rw [heq, List.append_assoc, List.cons_append])
  · rintro ⟨h, hevent⟩ before other after heq
    rcases List.eq_nil_or_concat after with rfl | ⟨front, last, rfl⟩
    · obtain ⟨rfl, hlast⟩ := List.append_inj' heq rfl
      obtain rfl := (List.cons.inj hlast).1
      exact hevent
    · have hsplit : events ++ [event] = (before ++ other :: front) ++ [last] := by
        rw [heq, List.concat_eq_append, List.append_assoc, List.cons_append]
      exact h before other front (List.append_inj' hsplit rfl).1

end Orderly

end Effects
