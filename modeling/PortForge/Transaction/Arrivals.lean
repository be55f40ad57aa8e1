/-
# Calls that arrive during a run

A server does not know its calls beforehand: a place of a `System` is given a new program
whenever one arrives. What every write satisfies is then a matter of the arriving programs
as well, and a call that meets no open transaction runs to its end as it does alone.
-/

import PortForge.Transaction.UniqueKey
import Mathlib.Logic.Function.Iterate

namespace Transaction

/-- No operation takes back what its session has committed. -/
theorem Program.committedWrites_advance {Db W L D E α : Type} {S : Store Db W}
    {p p' : Program Db W L D E α} {s s' : Session W L D} {db db' : Db}
    (hstep : p.advance S s db = some (p', s', db')) :
    ∃ later, s'.committedWrites = s.committedWrites ++ later := by
  cases p with
  | ret value | raise error => cases hstep
  | flush next =>
      simp only [Program.advance] at hstep
      cases herror : s.flushError S db <;> rw [herror] at hstep <;> cases hstep
      · exact ⟨[], by simp⟩
      · exact ⟨[], by simp⟩
  | commit next =>
      simp only [Program.advance] at hstep
      cases herror : s.flushError S db <;> rw [herror] at hstep <;> cases hstep
      · exact ⟨s.batch, by simp⟩
      · exact ⟨[], by simp⟩
  | _ => cases hstep; exact ⟨[], by simp⟩

namespace System

variable {ι Db W L D E α : Type} [DecidableEq ι] {S : Store Db W} {σ : System ι Db W L D E α}
  {i : ι}

/-- The place `i` serves a new call. -/
def arrive (σ : System ι Db W L D E α) (i : ι) (p : Program Db W L D E α) (draws : ℕ → D)
    (faults : ℕ → Option DbError) : System ι Db W L D E α :=
  { σ with
    program := Function.update σ.program i p
    session := Function.update σ.session i (Session.start draws faults) }

theorem Writes.arrive {P : W → Prop} (h : σ.Writes P) {p : Program Db W L D E α} (hp : p.Adds P)
    (draws : ℕ → D) (faults : ℕ → Option DbError) : (σ.arrive i p draws faults).Writes P := by
  intro j
  by_cases hji : j = i
  · subst hji
    simp only [System.arrive, Function.update_self]
    exact ⟨hp, by simp [Session.start, Session.batch]⟩
  · simp only [System.arrive, Function.update_of_ne hji]
    exact h j

/-- A call that arrives has flushed no key. -/
theorem keptKeys_arrive {K : Type} {U : UniqueKey S K} (h : U.Kept σ) (p : Program Db W L D E α)
    (draws : ℕ → D) (faults : ℕ → Option DbError) : U.Kept (σ.arrive i p draws faults) := by
  have hsub : ∀ j, (U.insertedAll ((σ.arrive i p draws faults).session j).flushed).Sublist
      (U.insertedAll (σ.session j).flushed) := by
    intro j
    by_cases hji : j = i
    · subst hji
      simp [System.arrive, Session.start]
    · simp [System.arrive, Function.update_of_ne hji]
  refine ⟨h.db, fun j => ?_, fun j k hjk key hj hk => ?_⟩
  · exact (h.flushed j).sublist ((List.Sublist.refl _).append (hsub j))
  · exact h.apart j k hjk ((hsub j).subset hj) ((hsub k).subset hk)

/-- No session but that of `i` holds a lock or has flushed a write. -/
def Undisturbed (σ : System ι Db W L D E α) (i : ι) : Prop :=
  ∀ j, j ≠ i → (σ.session j).held = [] ∧ (σ.session j).flushed = []

omit [DecidableEq ι] in
theorem Undisturbed.not_blocked (h : σ.Undisturbed i) : ¬ σ.Blocked S i := by
  intro hblocked
  rw [Blocked] at hblocked
  split at hblocked
  · obtain ⟨j, hj, hheld⟩ := hblocked
    rw [(h j hj).1] at hheld
    cases hheld
  · obtain ⟨j, hj, _, _, _, hflushed, _⟩ := hblocked
    rw [(h j hj).2] at hflushed
    cases hflushed
  · obtain ⟨j, hj, _, _, _, hflushed, _⟩ := hblocked
    rw [(h j hj).2] at hflushed
    cases hflushed
  · exact hblocked

theorem Undisturbed.move (h : σ.Undisturbed i) : (σ.move S i).Undisturbed i := by
  intro j hj
  rw [move_session_of_ne hj]
  exact h j hj

/-- The state after `i` made `n` moves. -/
def moves (S : Store Db W) (i : ι) : ℕ → System ι Db W L D E α → System ι Db W L D E α
  | 0, σ => σ
  | n + 1, σ => moves S i n (σ.move S i)

/-- The place `i` has run its call to the end it has alone and closed its session; the
other places stayed. -/
structure Completed (S : Store Db W) (σ : System ι Db W L D E α) (i : ι)
    (σ' : System ι Db W L D E α) : Prop where
  db : σ'.db = ((σ.program i).exec S (σ.session i) σ.db).db
  finished : (σ'.program i).Finished
  held : (σ'.session i).held = []
  flushed : (σ'.session i).flushed = []
  program_of_ne : ∀ j, j ≠ i → σ'.program j = σ.program j
  session_of_ne : ∀ j, j ≠ i → σ'.session j = σ.session j

/-- A finished call is completed by the move that closes its session. -/
theorem completed_of_finished (h : (σ.program i).Finished) : σ.Completed S i (σ.move S i) := by
  have hadvance : (σ.program i).advance S (σ.session i) σ.db = none := by
    cases hp : σ.program i <;> rw [hp] at h <;> first | exact h.elim | rfl
  obtain ⟨hprogram, hsession, hdb⟩ := move_of_finished hadvance
  refine ⟨?_, ?_, ?_, ?_, fun j hj => move_program_of_ne hj, fun j hj => move_session_of_ne hj⟩
  · rw [hdb]
    cases hp : σ.program i <;> rw [hp] at h <;> first | exact h.elim | rfl
  · rwa [hprogram]
  · rw [hsession, Session.close_held]
  · rw [hsession, Session.close_flushed]

/-- A move in front of a completed call. -/
theorem Completed.of_move {p : Program Db W L D E α} {s : Session W L D} {db : Db}
    (hadvance : (σ.program i).advance S (σ.session i) σ.db = some (p, s, db))
    {σ' : System ι Db W L D E α} (h : (σ.move S i).Completed S i σ') : σ.Completed S i σ' := by
  obtain ⟨hprogram, hsession, hdb⟩ := move_of_advance hadvance
  refine ⟨?_, h.finished, h.held, h.flushed, fun j hj => ?_, fun j hj => ?_⟩
  · rw [h.db, hprogram, hsession, hdb, Program.exec_of_advance S hadvance]
  · rw [h.program_of_ne j hj, move_program_of_ne hj]
  · rw [h.session_of_ne j hj, move_session_of_ne hj]

/-- A call that makes one operation is completed where the rest of it is. -/
theorem exists_completed_of_advance {p : Program Db W L D E α} {s : Session W L D} {db : Db}
    (hadvance : (σ.program i).advance S (σ.session i) σ.db = some (p, s, db))
    (hrest : ∀ σ' : System ι Db W L D E α, σ'.program i = p →
      ∃ n, σ'.Completed S i (moves S i n σ')) : ∃ n, σ.Completed S i (moves S i n σ) := by
  obtain ⟨n, hn⟩ := hrest (σ.move S i) (move_of_advance hadvance).1
  exact ⟨n + 1, hn.of_move hadvance⟩

/-- Moved often enough, a place completes its call. -/
theorem exists_completed (S : Store Db W) (i : ι) (σ : System ι Db W L D E α) :
    ∃ n, σ.Completed S i (moves S i n σ) := by
  generalize hp : σ.program i = p
  induction p generalizing σ with
  | ret value | raise error => exact ⟨1, completed_of_finished (by rw [hp]; trivial)⟩
  | flush next ih =>
      cases herror : (σ.session i).flushError S σ.db with
      | none =>
          refine exists_completed_of_advance (by rw [hp, Program.advance, herror]) ?_
          exact fun σ' hp' => ih none σ' hp'
      | some error =>
          refine exists_completed_of_advance (by rw [hp, Program.advance, herror]) ?_
          exact fun σ' hp' => ih (some error) σ' hp'
  | commit next ih =>
      cases herror : (σ.session i).flushError S σ.db with
      | none =>
          refine exists_completed_of_advance (by rw [hp, Program.advance, herror]) ?_
          exact fun σ' hp' => ih none σ' hp'
      | some error =>
          refine exists_completed_of_advance (by rw [hp, Program.advance, herror]) ?_
          exact fun σ' hp' => ih (some error) σ' hp'
  | _ =>
      rename_i ih
      refine exists_completed_of_advance (by rw [hp]; rfl) fun σ' hp' => ?_
      first | exact ih σ' hp' | exact ih _ σ' hp'

end System

end Transaction
