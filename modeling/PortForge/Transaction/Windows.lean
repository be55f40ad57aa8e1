/-
# Sessions that look before they write

A session that takes no lock queries, decides by an answer, and writes. Between the
query it decides by and the end of its transaction other sessions may commit, and what
it decided is right as long as their commits leave alone what it decided by. `Asks`
is the shape of a session in front of that query; `System.standing_move` is the step
by which every session stays in its phase and the contents keep an invariant.
-/

import PortForge.Transaction.Interleaving

namespace Transaction

namespace Program

variable {Db W L D E α β : Type}

/-- The program only queries and draws up to a query by whose answer it decides:
`decides` holds of the contents this query is put to and of what the program does next. -/
def Asks (decides : Db → Program Db W L D E α → Prop) : Program Db W L D E α → Prop
  | ret _ => False
  | raise _ => True
  | read next => ∀ db, decides db (next db) ∨ (next db).Asks decides
  | add _ _ => False
  | flush _ => False
  | commit _ => False
  | rollback _ => False
  | lock _ _ => False
  | draw next => ∀ value, (next value).Asks decides

variable {decides : Db → Program Db W L D E β → Prop}

@[simp]
theorem asks_raise {error : E} : (raise error : Program Db W L D E β).Asks decides := trivial

/-- A query in front decides, or leaves a program that still asks. -/
theorem asks_query_bind {q : Db → α} {f : α → Program Db W L D E β}
    (h : ∀ db, decides db (f (q db)) ∨ (f (q db)).Asks decides) :
    ((query q).bind f).Asks decides :=
  h

/-- Observing first is still asking. -/
theorem Observes.bind_asks {p : Program Db W L D E α} {f : α → Program Db W L D E β}
    (hp : p.Observes) (hf : ∀ value, (f value).Asks decides) : (p.bind f).Asks decides := by
  induction p with
  | ret value => exact hf value
  | raise error => trivial
  | read next ih => exact fun db => .inr (ih db (hp db))
  | add write next ih | flush next ih | commit next ih | rollback next ih | lock key next ih =>
      exact hp
  | draw next ih => exact fun value => ih value (hp value)

/-- A program that asks decides before its result is used. -/
theorem Asks.bind {p : Program Db W L D E α} {f : α → Program Db W L D E β}
    (hp : p.Asks fun db next => decides db (next.bind f)) : (p.bind f).Asks decides := by
  induction p with
  | ret value => exact hp.elim
  | raise error => trivial
  | read next ih => exact fun db => (hp db).imp id (ih db)
  | add write next ih | flush next ih | commit next ih | rollback next ih | lock key next ih =>
      exact hp
  | draw next ih => exact fun value => ih value (hp value)

/-- One operation of a session that has flushed nothing: the program asks on, or the
query it decides by has been answered on the committed contents. -/
theorem Asks.advance {S : Store Db W} {p p' : Program Db W L D E β} {s s' : Session W L D}
    {db db' : Db} (h : p.Asks decides) (hflushed : s.flushed = [])
    (hstep : p.advance S s db = some (p', s', db')) :
    (decides db p' ∨ p'.Asks decides) ∧ (∃ draws, s' = { s with draws := draws }) ∧ db' = db := by
  cases p with
  | ret value | add write next | flush next | commit next | rollback next | lock key next =>
      exact h.elim
  | raise error => cases hstep
  | read next =>
      cases hstep
      rw [Session.view_of_flushed_nil S hflushed]
      exact ⟨h db, ⟨s.draws, rfl⟩, rfl⟩
  | draw next =>
      cases hstep
      exact ⟨.inr (h _), ⟨_, rfl⟩, rfl⟩

end Program

namespace System

variable {ι Db W L D E α : Type} [DecidableEq ι] {S : Store Db W}
  {σ : System ι Db W L D E α} {i : ι}

/-- One step keeps every session in its phase and the contents in their invariant, when
the session that moves keeps its own, and what it commits the phases of the others. A
phase may depend on how many steps the session has taken. -/
theorem standing_move {inv : Db → Prop}
    {standing : ι → ℕ → Db → Program Db W L D E α → Session W L D → Prop}
    (hquiet : ∀ j steps db p s, p.Quiet → standing j steps db p s) (hinv : inv σ.db)
    (hstanding : ∀ j, standing j (σ.history.count j) σ.db (σ.program j) (σ.session j))
    (hmover : ∀ p s db, (σ.program i).advance S (σ.session i) σ.db = some (p, s, db) →
      standing i (σ.history.count i + 1) db p s ∧ inv db)
    (hothers : ∀ next, σ.program i = .commit next →
      (σ.session i).flushError S σ.db = none → ∀ j, j ≠ i →
      standing j (σ.history.count j) (S.applyAll (σ.session i).batch σ.db) (σ.program j)
        (σ.session j)) :
    inv (σ.move S i).db ∧ ∀ j, standing j ((σ.move S i).history.count j) (σ.move S i).db
      ((σ.move S i).program j) ((σ.move S i).session j) := by
  cases hstep : (σ.program i).advance S (σ.session i) σ.db with
  | none =>
      obtain ⟨hprogram, -, hdb⟩ := move_of_finished hstep
      refine ⟨by rwa [hdb], fun j => ?_⟩
      by_cases hj : j = i
      · subst hj
        rw [hprogram]
        exact hquiet _ _ _ _ _ (Program.quiet_of_finished hstep)
      · rw [move_program_of_ne hj, move_session_of_ne hj, hdb, count_move_history_of_ne hj]
        exact hstanding j
  | some after =>
      obtain ⟨p, s, db⟩ := after
      obtain ⟨hprogram, hsession, hdb⟩ := move_of_advance hstep
      obtain ⟨hself, hkept⟩ := hmover p s db hstep
      refine ⟨by rwa [hdb], fun j => ?_⟩
      rw [hdb]
      by_cases hj : j = i
      · subst hj
        rw [hprogram, hsession, count_move_history_self]
        exact hself
      · rw [move_program_of_ne hj, move_session_of_ne hj, count_move_history_of_ne hj]
        rcases Program.advance_db hstep with rfl | ⟨next, hcommit, hcommitted⟩
        · exact hstanding j
        · cases herror : (σ.session i).flushError S σ.db with
          | none =>
              rw [hcommitted]
              exact hothers next hcommit herror j hj
          | some error =>
              rw [hcommit, Program.advance, herror] at hstep
              cases hstep
              exact hstanding j

end System

end Transaction
