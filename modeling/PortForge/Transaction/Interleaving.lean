/-
# Interleaved sessions

A `System` is one committed database with any number of sessions, each at some
point of its program. One step lets one session perform its next operation. A
session waits where the database would make it wait: on an advisory lock that
another session holds, and on a write that collides with another session's
uncommitted write. A finished program's next step closes its session, which
rolls back whatever is still open and releases its locks.

`Reachable` is every state some order of steps reaches. Its parameter `allowed`
restricts the steps; a result about runs that meet a condition puts the
condition there.
-/

import PortForge.Transaction.Shapes
import Mathlib.Data.Fintype.Defs
import Mathlib.Data.Fintype.Basic

namespace Transaction

/-- Closing a session: what is uncommitted is gone, and so are the locks. -/
def Session.close {W L D : Type} (s : Session W L D) : Session W L D :=
  { s with pending := [], flushed := [], held := [] }

namespace Session

variable {W L D : Type}

@[simp]
theorem close_pending (s : Session W L D) : s.close.pending = [] := rfl

@[simp]
theorem close_flushed (s : Session W L D) : s.close.flushed = [] := rfl

@[simp]
theorem close_held (s : Session W L D) : s.close.held = [] := rfl

@[simp]
theorem close_journal (s : Session W L D) : s.close.journal = s.journal := rfl

@[simp]
theorem close_batch (s : Session W L D) : s.close.batch = [] := rfl

end Session

/-- One committed database and the sessions that work on it. -/
structure System (ι Db W L D E α : Type) where
  /-- The committed contents. -/
  db : Db
  /-- What each session still has to do. -/
  program : ι → Program Db W L D E α
  /-- Where each session stands. -/
  session : ι → Session W L D
  /-- The locks obtained so far, oldest first. -/
  acquired : List (ι × L)
  /-- The sessions that moved so far, oldest first. -/
  history : List ι

namespace System

variable {ι Db W L D E α : Type}

/-- Every call at its beginning. -/
def start (db : Db) (program : ι → Program Db W L D E α) (draws : ι → ℕ → D) :
    System ι Db W L D E α where
  db := db
  program := program
  session := fun i => Session.start (draws i) fun _ => none
  acquired := []
  history := []

/-- The session has to wait for another one. -/
def Blocked (S : Store Db W) (σ : System ι Db W L D E α) (i : ι) : Prop :=
  match σ.program i with
  | .lock key _ => ∃ j, j ≠ i ∧ key ∈ (σ.session j).held
  | .flush _ | .commit _ => ∃ j, j ≠ i ∧
      ∃ write ∈ (σ.session i).pending, ∃ other ∈ (σ.session j).flushed,
        S.waits write other = true
  | _ => False

instance [Fintype ι] [DecidableEq ι] [DecidableEq L] (S : Store Db W)
    (σ : System ι Db W L D E α) (i : ι) : Decidable (σ.Blocked S i) := by
  unfold Blocked
  split <;> infer_instance

/-- No two sessions hold one lock. -/
def Exclusive (σ : System ι Db W L D E α) : Prop :=
  ∀ i j key, key ∈ (σ.session i).held → key ∈ (σ.session j).held → i = j

/-- Every write added so far or later satisfies `P`. -/
def Writes (P : W → Prop) (σ : System ι Db W L D E α) : Prop :=
  ∀ i, (σ.program i).Adds P ∧ ∀ write ∈ (σ.session i).batch, P write

theorem start_writes {P : W → Prop} {db : Db} {program : ι → Program Db W L D E α}
    {draws : ι → ℕ → D} (h : ∀ i, (program i).Adds P) : (start db program draws).Writes P :=
  fun i => ⟨h i, by simp [start, Session.start, Session.batch]⟩

theorem start_exclusive {db : Db} {program : ι → Program Db W L D E α} {draws : ι → ℕ → D} :
    (start db program draws).Exclusive := by
  intro i j key hi
  simp [start, Session.start] at hi

variable [DecidableEq ι]

/-- The state after session `i` moved. -/
def move (S : Store Db W) (σ : System ι Db W L D E α) (i : ι) : System ι Db W L D E α :=
  match (σ.program i).advance S (σ.session i) σ.db with
  | some (p, s, db) =>
      { db := db
        program := Function.update σ.program i p
        session := Function.update σ.session i s
        acquired :=
          match σ.program i with
          | .lock key _ => σ.acquired ++ [(i, key)]
          | _ => σ.acquired
        history := σ.history ++ [i] }
  | none =>
      { σ with
        session := Function.update σ.session i (σ.session i).close
        history := σ.history ++ [i] }

/-- Every state that some order of allowed steps reaches. -/
inductive Reachable (S : Store Db W) (allowed : System ι Db W L D E α → ι → Prop)
    (σ₀ : System ι Db W L D E α) : System ι Db W L D E α → Prop
  | start : Reachable S allowed σ₀ σ₀
  | step {σ : System ι Db W L D E α} {i : ι} (hreach : Reachable S allowed σ₀ σ)
      (hfree : ¬ σ.Blocked S i) (hallowed : allowed σ i) : Reachable S allowed σ₀ (σ.move S i)

/-- Every order of steps. -/
def anyOrder (_ : System ι Db W L D E α) (_ : ι) : Prop := True

/-- Follow a schedule as far as no session has to wait out of turn. -/
def play [Fintype ι] [DecidableEq L] (S : Store Db W) :
    List ι → System ι Db W L D E α → Option (System ι Db W L D E α)
  | [], σ => some σ
  | i :: schedule, σ => if σ.Blocked S i then none else play S schedule (σ.move S i)

/-- A schedule that can be followed shows its last state reachable, if an invariant of
its states allows each of its steps. -/
theorem Reachable.of_play_allowed [Fintype ι] [DecidableEq L] {S : Store Db W}
    {allowed : System ι Db W L D E α → ι → Prop} {P : System ι Db W L D E α → Prop}
    {schedule : List ι} {σ₀ σ τ : System ι Db W L D E α} (hreach : Reachable S allowed σ₀ σ)
    (hstart : P σ)
    (hstep : ∀ υ, P υ → ∀ i ∈ schedule, allowed υ i ∧ P (υ.move S i))
    (h : play S schedule σ = some τ) : Reachable S allowed σ₀ τ := by
  induction schedule generalizing σ with
  | nil => cases h; exact hreach
  | cons i schedule ih =>
      rw [play] at h
      split at h
      · cases h
      · rename_i hfree
        obtain ⟨hallowed, hkept⟩ := hstep σ hstart i List.mem_cons_self
        exact ih (hreach.step hfree hallowed) hkept
          (fun υ hυ j hj => hstep υ hυ j (List.mem_cons_of_mem i hj)) h

/-- Every step of a schedule passes a test. -/
def tested (S : Store Db W) (test : System ι Db W L D E α → ι → Bool) :
    List ι → System ι Db W L D E α → Bool
  | [], _ => true
  | i :: schedule, σ => test σ i && tested S test schedule (σ.move S i)

/-- A schedule whose steps pass a test that allows them shows its last state reachable. -/
theorem Reachable.of_play_tested [Fintype ι] [DecidableEq L] {S : Store Db W}
    {allowed : System ι Db W L D E α → ι → Prop} {test : System ι Db W L D E α → ι → Bool}
    {schedule : List ι} {σ₀ σ τ : System ι Db W L D E α} (hreach : Reachable S allowed σ₀ σ)
    (hsound : ∀ υ i, Reachable S allowed σ₀ υ → test υ i = true → allowed υ i)
    (htested : tested S test schedule σ = true) (h : play S schedule σ = some τ) :
    Reachable S allowed σ₀ τ := by
  induction schedule generalizing σ with
  | nil => cases h; exact hreach
  | cons i schedule ih =>
      rw [play] at h
      split at h
      · cases h
      · rename_i hfree
        obtain ⟨htest, hlater⟩ := Bool.and_eq_true_iff.mp htested
        exact ih (hreach.step hfree (hsound σ i hreach htest)) hlater h

/-- A schedule that can be followed shows its last state reachable. -/
theorem Reachable.of_play [Fintype ι] [DecidableEq L] {S : Store Db W} {schedule : List ι}
    {σ₀ σ τ : System ι Db W L D E α} (hreach : Reachable S anyOrder σ₀ σ)
    (h : play S schedule σ = some τ) : Reachable S anyOrder σ₀ τ :=
  hreach.of_play_allowed (P := fun _ => True) trivial (fun _ _ _ _ => ⟨trivial, trivial⟩) h

theorem Reachable.trans {S : Store Db W} {allowed : System ι Db W L D E α → ι → Prop}
    {σ₀ σ τ : System ι Db W L D E α} (hreach : Reachable S allowed σ₀ σ)
    (hlater : Reachable S allowed σ τ) : Reachable S allowed σ₀ τ := by
  induction hlater with
  | start => exact hreach
  | step _ hfree hallowed ih => exact ih.step hfree hallowed

/-! ## What a move changes -/

section Move

variable {S : Store Db W} {σ : System ι Db W L D E α} {i j : ι}

theorem move_of_advance {p : Program Db W L D E α} {s : Session W L D} {db : Db}
    (h : (σ.program i).advance S (σ.session i) σ.db = some (p, s, db)) :
    (σ.move S i).program i = p ∧ (σ.move S i).session i = s ∧ (σ.move S i).db = db := by
  simp [move, h]

theorem move_of_finished (h : (σ.program i).advance S (σ.session i) σ.db = none) :
    (σ.move S i).program i = σ.program i ∧
      (σ.move S i).session i = (σ.session i).close ∧ (σ.move S i).db = σ.db := by
  simp [move, h]

/-- The other sessions' programs stand where they stood. -/
theorem move_program_of_ne (h : j ≠ i) : (σ.move S i).program j = σ.program j := by
  simp only [move]
  split
  · exact Function.update_of_ne h _ _
  · rfl

/-- The other sessions are left alone. -/
theorem move_session_of_ne (h : j ≠ i) : (σ.move S i).session j = σ.session j := by
  simp only [move]
  split
  · exact Function.update_of_ne h _ _
  · exact Function.update_of_ne h _ _

/-- Every move is recorded. -/
theorem move_history : (σ.move S i).history = σ.history ++ [i] := by
  simp only [move]
  split <;> rfl

theorem count_move_history_self : (σ.move S i).history.count i = σ.history.count i + 1 := by
  rw [move_history, List.count_append, List.count_singleton_self]

theorem count_move_history_of_ne (h : j ≠ i) :
    (σ.move S i).history.count j = σ.history.count j := by
  have hnone : [i].count j = 0 := List.count_eq_zero_of_not_mem (by simpa using h)
  rw [move_history, List.count_append, hnone, Nat.add_zero]

/-- Obtaining a lock is recorded. -/
theorem move_acquired_of_lock {key : L} {next : Program Db W L D E α}
    (h : σ.program i = .lock key next) : (σ.move S i).acquired = σ.acquired ++ [(i, key)] := by
  simp [move, h, Program.advance]

/-- No other operation touches the record of the locks. -/
theorem move_acquired_of_not_lock (h : ∀ key next, σ.program i ≠ .lock key next) :
    (σ.move S i).acquired = σ.acquired := by
  simp only [move]
  split <;> rfl

/-- The committed database changes in a successful commit only. -/
theorem move_db (S : Store Db W) (σ : System ι Db W L D E α) (i : ι) :
    (σ.move S i).db = σ.db ∨
      ∃ next, σ.program i = .commit next ∧ (σ.session i).flushError S σ.db = none ∧
        (σ.move S i).program i = next none ∧
        (σ.move S i).session i = (σ.session i).afterCommit ∧
        (σ.move S i).db = S.applyAll (σ.session i).batch σ.db := by
  cases hstep : (σ.program i).advance S (σ.session i) σ.db with
  | none => exact .inl (move_of_finished hstep).2.2
  | some after =>
      obtain ⟨p, s, db⟩ := after
      obtain ⟨hprogram, hsession, hdb⟩ := move_of_advance hstep
      cases hp : σ.program i with
      | ret value => rw [hp] at hstep; cases hstep
      | raise error => rw [hp] at hstep; cases hstep
      | flush next =>
          rw [hp] at hstep
          simp only [Program.advance] at hstep
          cases herror : (σ.session i).flushError S σ.db <;> rw [herror] at hstep <;> cases hstep
          · exact .inl hdb
          · exact .inl hdb
      | commit next =>
          rw [hp] at hstep
          simp only [Program.advance] at hstep
          cases herror : (σ.session i).flushError S σ.db with
          | none =>
              rw [herror] at hstep
              cases hstep
              exact .inr ⟨next, rfl, rfl, hprogram, hsession, hdb⟩
          | some error => rw [herror] at hstep; cases hstep; exact .inl hdb
      | _ => rw [hp] at hstep; cases hstep; exact .inl hdb

/-- No pending write of the session collides with a row another session has flushed. -/
def TurnOf (S : Store Db W) (σ : System ι Db W L D E α) (i : ι) : Prop :=
  ∀ j, j ≠ i → ∀ write ∈ (σ.session i).pending, ∀ other ∈ (σ.session j).flushed,
    S.waits write other ≠ true

/-- A session flushes in its turn only; every other move keeps what it has flushed, or
gives it up. -/
theorem move_flushed (S : Store Db W) (σ : System ι Db W L D E α) (i : ι) :
    ((σ.move S i).db = σ.db ∧ (((σ.move S i).session i).flushed = (σ.session i).flushed ∨
        ((σ.move S i).session i).flushed = [])) ∨
      (¬ σ.Blocked S i → σ.TurnOf S i) ∧ (σ.session i).flushError S σ.db = none ∧
        (((σ.move S i).db = σ.db ∧
            ((σ.move S i).session i).flushed = (σ.session i).batch) ∨
          (σ.move S i).db = S.applyAll (σ.session i).batch σ.db ∧
            ((σ.move S i).session i).flushed = []) := by
  cases hstep : (σ.program i).advance S (σ.session i) σ.db with
  | none =>
      obtain ⟨-, hsession, hdb⟩ := move_of_finished hstep
      exact .inl ⟨hdb, .inr (by rw [hsession, Session.close_flushed])⟩
  | some after =>
      obtain ⟨p, s, db⟩ := after
      obtain ⟨-, hsession, hdb⟩ := move_of_advance hstep
      rw [hsession, hdb]
      cases hp : σ.program i with
      | ret value => rw [hp] at hstep; cases hstep
      | raise error => rw [hp] at hstep; cases hstep
      | flush next =>
          rw [hp] at hstep
          simp only [Program.advance] at hstep
          cases herror : (σ.session i).flushError S σ.db <;> rw [herror] at hstep <;> cases hstep
          · refine .inr ⟨fun hfree j hj write hwrite other hother hwaits => hfree ?_, rfl,
                .inl ⟨rfl, rfl⟩⟩
            rw [Blocked, hp]
            exact ⟨j, hj, write, hwrite, other, hother, hwaits⟩
          · exact .inl ⟨rfl, .inr rfl⟩
      | commit next =>
          rw [hp] at hstep
          simp only [Program.advance] at hstep
          cases herror : (σ.session i).flushError S σ.db <;> rw [herror] at hstep <;> cases hstep
          · refine .inr ⟨fun hfree j hj write hwrite other hother hwaits => hfree ?_, rfl,
                .inr ⟨rfl, rfl⟩⟩
            rw [Blocked, hp]
            exact ⟨j, hj, write, hwrite, other, hother, hwaits⟩
          · exact .inl ⟨rfl, .inr rfl⟩
      | rollback next => rw [hp] at hstep; cases hstep; exact .inl ⟨rfl, .inr rfl⟩
      | _ => rw [hp] at hstep; cases hstep; exact .inl ⟨rfl, .inl rfl⟩

end Move

/-! ## Advisory locks exclude each other -/

/-- A move of session `i` gives it at most the lock it was waiting for. -/
theorem held_of_move {S : Store Db W} {σ : System ι Db W L D E α} {i : ι} {key : L}
    (h : key ∈ ((σ.move S i).session i).held) :
    key ∈ (σ.session i).held ∨ ∃ next, σ.program i = .lock key next := by
  cases hstep : (σ.program i).advance S (σ.session i) σ.db with
  | none =>
      rw [(move_of_finished hstep).2.1] at h
      simp at h
  | some after =>
      obtain ⟨p, s, db⟩ := after
      rw [(move_of_advance hstep).2.1] at h
      cases hp : σ.program i with
      | ret value => rw [hp] at hstep; cases hstep
      | raise error => rw [hp] at hstep; cases hstep
      | flush next =>
          rw [hp] at hstep
          simp only [Program.advance] at hstep
          cases herror : (σ.session i).flushError S σ.db <;> rw [herror] at hstep <;> cases hstep
          · exact .inl h
          · simp at h
      | commit next =>
          rw [hp] at hstep
          simp only [Program.advance] at hstep
          cases herror : (σ.session i).flushError S σ.db <;> rw [herror] at hstep <;> cases hstep
          · simp at h
          · simp at h
      | rollback next => rw [hp] at hstep; cases hstep; simp at h
      | lock other next =>
          rw [hp] at hstep
          cases hstep
          rw [Session.afterLock_held, List.mem_cons] at h
          rcases h with rfl | hold
          · exact .inr ⟨_, rfl⟩
          · exact .inl hold
      | _ => rw [hp] at hstep; cases hstep; exact .inl h

/-- In every reachable state the locks exclude each other. -/
theorem Reachable.exclusive {S : Store Db W} {allowed : System ι Db W L D E α → ι → Prop}
    {σ₀ σ : System ι Db W L D E α} (hreach : Reachable S allowed σ₀ σ) (hstart : σ₀.Exclusive) :
    σ.Exclusive := by
  induction hreach with
  | start => exact hstart
  | @step σ k _ hfree _ ih =>
      -- Only the mover's locks grow, and only by one that nobody else holds.
      have hmover : ∀ key, key ∈ ((σ.move S k).session k).held →
          ∀ j, j ≠ k → key ∉ (σ.session j).held := by
        intro key hkey j hj hheld
        rcases held_of_move hkey with hold | ⟨next, hnext⟩
        · exact hj (ih j k key hheld hold)
        · apply hfree
          rw [Blocked, hnext]
          exact ⟨j, hj, hheld⟩
      intro i j key hi hj
      by_cases hik : i = k <;> by_cases hjk : j = k
      · rw [hik, hjk]
      · subst hik
        rw [move_session_of_ne hjk] at hj
        exact (hmover key hi j hjk hj).elim
      · subst hjk
        rw [move_session_of_ne hik] at hi
        exact (hmover key hj i hik hi).elim
      · rw [move_session_of_ne hik] at hi
        rw [move_session_of_ne hjk] at hj
        exact ih i j key hi hj

/-! ## What the programs can write -/

/-- A move keeps what every write of one session satisfies. -/
theorem writes_at_move {S : Store Db W} {P : W → Prop} {σ : System ι Db W L D E α} {i : ι}
    (h : (σ.program i).Adds P ∧ ∀ write ∈ (σ.session i).batch, P write) (k : ι) :
    ((σ.move S k).program i).Adds P ∧ ∀ write ∈ ((σ.move S k).session i).batch, P write := by
  by_cases hik : i = k
  · subst hik
    cases hstep : (σ.program i).advance S (σ.session i) σ.db with
    | none =>
        obtain ⟨hprogram, hsession, -⟩ := move_of_finished hstep
        rw [hprogram, hsession]
        exact ⟨h.1, by simp⟩
    | some after =>
        obtain ⟨p, s, db⟩ := after
        obtain ⟨hprogram, hsession, -⟩ := move_of_advance hstep
        rw [hprogram, hsession]
        exact h.1.advance h.2 hstep
  · rw [move_program_of_ne hik, move_session_of_ne hik]
    exact h

/-- A move keeps what every write satisfies. -/
theorem Writes.move {S : Store Db W} {P : W → Prop} {σ : System ι Db W L D E α} (h : σ.Writes P)
    (k : ι) : (σ.move S k).Writes P := fun i => writes_at_move (h i) k

/-- A run keeps what every write of one session satisfies. -/
theorem Reachable.writes_at {S : Store Db W} {allowed : System ι Db W L D E α → ι → Prop}
    {P : W → Prop} {σ₀ σ : System ι Db W L D E α} (hreach : Reachable S allowed σ₀ σ) {i : ι}
    (hstart : (σ₀.program i).Adds P ∧ ∀ write ∈ (σ₀.session i).batch, P write) :
    (σ.program i).Adds P ∧ ∀ write ∈ (σ.session i).batch, P write := by
  induction hreach with
  | start => exact hstart
  | step _ _ _ ih => exact writes_at_move ih _

theorem Reachable.writes {S : Store Db W} {allowed : System ι Db W L D E α → ι → Prop}
    {P : W → Prop} {σ₀ σ : System ι Db W L D E α} (hreach : Reachable S allowed σ₀ σ)
    (hstart : σ₀.Writes P) : σ.Writes P := fun i => hreach.writes_at (hstart i)

/-- An invariant of the contents that every write keeps is kept by a move. -/
theorem Writes.move_db_invariant {S : Store Db W} {P : W → Prop} {motive : Db → Prop}
    {σ : System ι Db W L D E α} (h : σ.Writes P) (k : ι) (hdb : motive σ.db)
    (hkeep : ∀ write contents, P write → motive contents → motive (S.apply write contents)) :
    motive (σ.move S k).db := by
  rcases move_db S σ k with hsame | ⟨next, -, -, -, -, hcommitted⟩
  · rw [hsame]
    exact hdb
  · rw [hcommitted]
    apply Store.applyAll_induction S hdb
    intro write hwrite contents hcontents
    exact hkeep write contents ((h k).2 write hwrite) hcontents

/-- An invariant of the contents that every write of the programs keeps holds of
the committed database in every reachable state. -/
theorem Reachable.db_invariant {S : Store Db W} {allowed : System ι Db W L D E α → ι → Prop}
    {P : W → Prop} {motive : Db → Prop} {σ₀ σ : System ι Db W L D E α}
    (hreach : Reachable S allowed σ₀ σ) (hwrites : σ₀.Writes P) (hstart : motive σ₀.db)
    (hkeep : ∀ write contents, P write → motive contents → motive (S.apply write contents)) :
    motive σ.db := by
  induction hreach with
  | start => exact hstart
  | step hreach _ _ ih => exact (hreach.writes hwrites).move_db_invariant _ ih hkeep

end System

end Transaction
