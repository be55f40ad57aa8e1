/-
# Shapes of programs

What can be read off a program's text, whatever its queries return: that it
only queries and draws (`Observes`), that it writes nothing more (`Quiet`), that it
can only raise (`Fails`), that it stays inside its transaction (`Holding`), that it
commits once and then writes nothing (`Locked`), that it has queried all it decides
by (`Decided`), that it is on its way to a lock (`Approaches`), and which writes it
can add (`Adds`). Shapes are closed under composition, are kept by every operation,
and say something about every run.
-/

import PortForge.Transaction.Logic

namespace Transaction

namespace Program

variable {Db W L D E α β : Type}

/-! ## Programs that write nothing more -/

/-- The program only queries, draws and rolls back from here on. -/
def Quiet : Program Db W L D E α → Prop
  | ret _ => True
  | raise _ => True
  | read next => ∀ db, (next db).Quiet
  | add _ _ => False
  | flush _ => False
  | commit _ => False
  | rollback next => next.Quiet
  | lock _ _ => False
  | draw next => ∀ value, (next value).Quiet

@[simp]
theorem quiet_ret {value : α} : (ret value : Program Db W L D E α).Quiet := trivial

@[simp]
theorem quiet_raise {error : E} : (raise error : Program Db W L D E α).Quiet := trivial

@[simp]
theorem quiet_query {q : Db → α} : (query q : Program Db W L D E α).Quiet := fun _ => trivial

/-- A composition of quiet programs is quiet. -/
theorem Quiet.bind {p : Program Db W L D E α} {f : α → Program Db W L D E β}
    (hp : p.Quiet) (hf : ∀ value, (f value).Quiet) : (p.bind f).Quiet := by
  induction p with
  | ret value => exact hf value
  | raise error => trivial
  | read next ih => exact fun db => ih db (hp db)
  | add write next ih | flush next ih | commit next ih | lock key next ih => exact hp
  | rollback next ih => exact ih hp
  | draw next ih => exact fun value => ih value (hp value)

/-- A quiet program stays quiet, and its operations leave the database alone. -/
theorem Quiet.advance {S : Store Db W} {p p' : Program Db W L D E α} {s s' : Session W L D}
    {db db' : Db} (h : p.Quiet) (hstep : p.advance S s db = some (p', s', db')) :
    p'.Quiet ∧ db' = db := by
  cases p with
  | ret value | raise error => cases hstep
  | read next | draw next => cases hstep; exact ⟨h _, rfl⟩
  | add write next | flush next | commit next | lock key next => exact h.elim
  | rollback next => cases hstep; exact ⟨h, rfl⟩

/-- A quiet program that runs alone leaves the database as it found it. -/
theorem Quiet.exec_db {S : Store Db W} {p : Program Db W L D E α} (h : p.Quiet)
    (s : Session W L D) (db : Db) : (p.exec S s db).db = db := by
  induction p generalizing s with
  | ret value | raise error => rfl
  | read next ih => exact ih _ (h _) s
  | add write next ih | flush next ih | commit next ih | lock key next ih => exact h.elim
  | rollback next ih => exact ih h _
  | draw next ih => exact ih _ (h _) _

/-- A quiet program's session keeps an empty transaction empty and commits nothing. -/
theorem Quiet.advance_session {S : Store Db W} {p p' : Program Db W L D E α}
    {s s' : Session W L D} {db db' : Db} (h : p.Quiet)
    (hstep : p.advance S s db = some (p', s', db')) :
    (s.held = [] → s'.held = []) ∧ (s.flushed = [] → s'.flushed = []) ∧
      s'.hasCommitted = s.hasCommitted := by
  cases p with
  | ret value | raise error => cases hstep
  | read next | draw next => cases hstep; exact ⟨id, id, rfl⟩
  | add write next | flush next | commit next | lock key next => exact h.elim
  | rollback next =>
      cases hstep
      exact ⟨fun _ => rfl, fun _ => rfl, by simp [Session.hasCommitted]⟩

/-- A quiet program's journal grows by rollbacks only. -/
theorem Quiet.advance_journal {S : Store Db W} {p p' : Program Db W L D E α}
    {s s' : Session W L D} {db db' : Db} (h : p.Quiet)
    (hstep : p.advance S s db = some (p', s', db')) :
    s'.journal = s.journal ∨ s'.journal = s.journal ++ [.rolledBack] := by
  cases p with
  | ret value | raise error => cases hstep
  | read next | draw next => cases hstep; exact .inl rfl
  | add write next | flush next | commit next | lock key next => exact h.elim
  | rollback next => cases hstep; exact .inr rfl

/-! ## Programs inside their transaction -/

/-- The program writes nothing more and can only raise. -/
def Fails : Program Db W L D E α → Prop
  | ret _ => False
  | raise _ => True
  | read next => ∀ db, (next db).Fails
  | add _ _ => False
  | flush _ => False
  | commit _ => False
  | rollback next => next.Fails
  | lock _ _ => False
  | draw next => ∀ value, (next value).Fails

/-- The program stays inside its transaction: it returns with the transaction
open, and where the transaction ends early it can only raise. -/
def Holding : Program Db W L D E α → Prop
  | ret _ => True
  | raise _ => True
  | read next => ∀ db, (next db).Holding
  | add _ next => next.Holding
  | flush next => (next none).Holding ∧ ∀ error, (next (some error)).Fails
  | commit _ => False
  | rollback next => next.Fails
  | lock _ _ => False
  | draw next => ∀ value, (next value).Holding

/-- The program commits at most once, and after the end of its transaction it
writes nothing. -/
def Locked : Program Db W L D E α → Prop
  | ret _ => True
  | raise _ => True
  | read next => ∀ db, (next db).Locked
  | add _ next => next.Locked
  | flush next => (next none).Locked ∧ ∀ error, (next (some error)).Quiet
  | commit next => ∀ outcome, (next outcome).Quiet
  | rollback next => next.Quiet
  | lock _ _ => False
  | draw next => ∀ value, (next value).Locked

theorem Fails.quiet {p : Program Db W L D E α} (h : p.Fails) : p.Quiet := by
  induction p with
  | ret value | add write next ih | flush next ih | commit next ih | lock key next ih =>
      exact h.elim
  | raise error => trivial
  | read next ih => exact fun db => ih db (h db)
  | rollback next ih => exact ih h
  | draw next ih => exact fun value => ih value (h value)

theorem Fails.bind {p : Program Db W L D E α} {f : α → Program Db W L D E β} (h : p.Fails) :
    (p.bind f).Fails := by
  induction p with
  | ret value | add write next ih | flush next ih | commit next ih | lock key next ih =>
      exact h.elim
  | raise error => trivial
  | read next ih => exact fun db => ih db (h db)
  | rollback next ih => exact ih h
  | draw next ih => exact fun value => ih value (h value)

theorem Fails.tryCatch {p : Program Db W L D E α} {handler : E → Program Db W L D E α}
    (h : p.Fails) (hhandler : ∀ error, (handler error).Fails) : (p.tryCatch handler).Fails := by
  induction p with
  | ret value | add write next ih | flush next ih | commit next ih | lock key next ih =>
      exact h.elim
  | raise error => exact hhandler error
  | read next ih => exact fun db => ih db (h db)
  | rollback next ih => exact ih h
  | draw next ih => exact fun value => ih value (h value)

theorem Fails.holding {p : Program Db W L D E α} (h : p.Fails) : p.Holding := by
  induction p with
  | ret value | add write next ih | flush next ih | commit next ih | lock key next ih =>
      exact h.elim
  | raise error => trivial
  | read next ih => exact fun db => ih db (h db)
  | rollback next ih => exact h
  | draw next ih => exact fun value => ih value (h value)

theorem Holding.bind {p : Program Db W L D E α} {f : α → Program Db W L D E β} (h : p.Holding)
    (hf : ∀ value, (f value).Holding) : (p.bind f).Holding := by
  induction p with
  | ret value => exact hf value
  | raise error => trivial
  | read next ih => exact fun db => ih db (h db)
  | add write next ih => exact ih h
  | flush next ih => exact ⟨ih none h.1, fun error => (h.2 error).bind⟩
  | commit next ih | lock key next ih => exact h.elim
  | rollback next ih => exact Fails.bind h
  | draw next ih => exact fun value => ih value (h value)

theorem Holding.tryCatch {p : Program Db W L D E α} {handler : E → Program Db W L D E α}
    (h : p.Holding) (hhandler : ∀ error, (handler error).Fails) :
    (p.tryCatch handler).Holding := by
  induction p with
  | ret value => trivial
  | raise error => exact (hhandler error).holding
  | read next ih => exact fun db => ih db (h db)
  | add write next ih => exact ih h
  | flush next ih => exact ⟨ih none h.1, fun error => (h.2 error).tryCatch hhandler⟩
  | commit next ih | lock key next ih => exact h.elim
  | rollback next ih => exact Fails.tryCatch h hhandler
  | draw next ih => exact fun value => ih value (h value)

/-- A failing program never returns and commits nothing. -/
theorem Fails.ensures {S : Store Db W} {rely : Session W L D → Db → Prop}
    {guar : Session W L D → Prop} {p : Program Db W L D E α} {s : Session W L D} (h : p.Fails) :
    p.Ensures S rely guar s fun s' result =>
      s'.committedWrites = s.committedWrites ∧ ∃ error, result = .error error := by
  induction p generalizing s with
  | ret value | add write next ih | flush next ih | commit next ih | lock key next ih =>
      exact h.elim
  | raise error => exact ⟨rfl, error, rfl⟩
  | read next ih => exact fun db _ => ih _ (h _)
  | rollback next ih => simpa using ih (s := s.afterRollback) h
  | draw next ih => simpa using ih _ (s := s.afterDraw) (h _)

/-- A program inside its transaction commits nothing, and where it returns the
transaction is still the one it started in. -/
theorem Holding.ensures {S : Store Db W} {rely : Session W L D → Db → Prop}
    {guar : Session W L D → Prop} {p : Program Db W L D E α} {s : Session W L D} (h : p.Holding) :
    p.Ensures S rely guar s fun s' result =>
      s'.committedWrites = s.committedWrites ∧
        ∀ value, result = .ok value → s'.held = s.held ∧ s'.journal = s.journal := by
  induction p generalizing s with
  | ret value => exact ⟨rfl, fun _ _ => ⟨rfl, rfl⟩⟩
  | raise error => exact ⟨rfl, fun _ hvalue => by cases hvalue⟩
  | read next ih => exact fun db _ => ih _ (h _)
  | add write next ih => exact ih (s := s.afterAdd write) h
  | flush next ih =>
      rw [ensures_flush]
      refine ⟨fun _ _ _ => ih _ (s := s.afterFlush) h.1, fun _ error _ _ => ?_⟩
      refine (h.2 error).ensures.mono ?_
      rintro s' result ⟨hcommitted, failure, rfl⟩
      refine ⟨by simpa using hcommitted, fun _ hvalue => by cases hvalue⟩
  | commit next ih | lock key next ih => exact h.elim
  | rollback next ih =>
      refine (Fails.ensures (s := s.afterRollback) h).mono ?_
      rintro s' result ⟨hcommitted, failure, rfl⟩
      refine ⟨by simpa using hcommitted, fun _ hvalue => by cases hvalue⟩
  | draw next ih => exact ih _ (s := s.afterDraw) (h _)

/-- Where a program inside its transaction returns, its batch has only grown. -/
theorem Holding.ensures_batch {S : Store Db W} {rely : Session W L D → Db → Prop}
    {guar : Session W L D → Prop} {p : Program Db W L D E α} {s : Session W L D} (h : p.Holding) :
    p.Ensures S rely guar s fun s' result =>
      ∀ value, result = .ok value → ∃ writes, s'.batch = s.batch ++ writes := by
  induction p generalizing s with
  | ret value => exact fun _ _ => ⟨[], by simp⟩
  | raise error => exact fun _ hvalue => by cases hvalue
  | read next ih => exact fun db _ => ih _ (h _)
  | add write next ih =>
      refine (ih (s := s.afterAdd write) h).mono fun s' result hgrown value hvalue => ?_
      obtain ⟨writes, hbatch⟩ := hgrown value hvalue
      exact ⟨write :: writes, by rw [hbatch, Session.afterAdd_batch, List.append_assoc]; rfl⟩
  | flush next ih =>
      rw [ensures_flush]
      refine ⟨fun _ _ _ => ?_, fun _ error _ _ => ?_⟩
      · simpa using ih _ (s := s.afterFlush) h.1
      · refine (h.2 error).ensures.mono ?_
        rintro s' result ⟨-, failure, rfl⟩ _ hvalue
        cases hvalue
  | commit next ih | lock key next ih => exact h.elim
  | rollback next ih =>
      refine (Fails.ensures (s := s.afterRollback) h).mono ?_
      rintro s' result ⟨-, failure, rfl⟩ _ hvalue
      cases hvalue
  | draw next ih => exact ih _ (s := s.afterDraw) (h _)

/-- A quiet program commits nothing. -/
theorem Quiet.ensures {S : Store Db W} {rely : Session W L D → Db → Prop}
    {guar : Session W L D → Prop} {p : Program Db W L D E α} {s : Session W L D} (h : p.Quiet) :
    p.Ensures S rely guar s fun s' _ => s'.committedWrites = s.committedWrites := by
  induction p generalizing s with
  | ret value | raise error => exact rfl
  | read next ih => exact fun db _ => ih _ (h _)
  | add write next ih | flush next ih | commit next ih | lock key next ih => exact h.elim
  | rollback next ih => simpa using ih (s := s.afterRollback) h
  | draw next ih => simpa using ih _ (s := s.afterDraw) (h _)

/-- A quiet program owes nothing. -/
theorem Quiet.ensures_true {S : Store Db W} {rely : Session W L D → Db → Prop}
    {guar : Session W L D → Prop} {p : Program Db W L D E α} {s : Session W L D} (h : p.Quiet) :
    p.Ensures S rely guar s fun _ _ => True :=
  h.ensures.mono fun _ _ _ => trivial

/-- Work inside the transaction, followed by its end. -/
theorem Holding.bind_locked {p : Program Db W L D E α} {f : α → Program Db W L D E β}
    (h : p.Holding) (hf : ∀ value, (f value).Locked) : (p.bind f).Locked := by
  induction p with
  | ret value => exact hf value
  | raise error => trivial
  | read next ih => exact fun db => ih db (h db)
  | add write next ih => exact ih h
  | flush next ih => exact ⟨ih none h.1, fun error => (h.2 error).bind.quiet⟩
  | commit next ih | lock key next ih => exact h.elim
  | rollback next ih => exact (Fails.bind h).quiet
  | draw next ih => exact fun value => ih value (h value)

@[simp]
theorem holding_ret {value : α} : (ret value : Program Db W L D E α).Holding := trivial

@[simp]
theorem holding_raise {error : E} : (raise error : Program Db W L D E α).Holding := trivial

@[simp]
theorem holding_query {q : Db → α} : (query q : Program Db W L D E α).Holding :=
  fun _ => trivial

/-- One operation keeps a program locked inside its transaction, or ends the
transaction and leaves a quiet program. -/
theorem Locked.advance {S : Store Db W} {p p' : Program Db W L D E α} {s s' : Session W L D}
    {db db' : Db} (h : p.Locked) (hstep : p.advance S s db = some (p', s', db')) :
    (p'.Locked ∧ s'.held = s.held ∧ s'.journal = s.journal ∧ db' = db) ∨
      (p'.Quiet ∧ s'.held = [] ∧ s'.flushed = [] ∧
        ((db' = db ∧ s'.hasCommitted = s.hasCommitted) ∨
          ∃ next, p = commit next ∧ s' = s.afterCommit ∧ db' = S.applyAll s.batch db)) := by
  cases p with
  | ret value | raise error => cases hstep
  | read next | draw next => cases hstep; exact .inl ⟨h _, rfl, rfl, rfl⟩
  | add write next => cases hstep; exact .inl ⟨h, rfl, rfl, rfl⟩
  | flush next =>
      simp only [Program.advance] at hstep
      cases herror : s.flushError S db <;> rw [herror] at hstep <;> cases hstep
      · exact .inl ⟨h.1, rfl, rfl, rfl⟩
      · exact .inr ⟨h.2 _, rfl, rfl, .inl ⟨rfl, by simp [Session.hasCommitted]⟩⟩
  | commit next =>
      simp only [Program.advance] at hstep
      cases herror : s.flushError S db <;> rw [herror] at hstep <;> cases hstep
      · exact .inr ⟨h _, rfl, rfl, .inr ⟨next, rfl, rfl, rfl⟩⟩
      · exact .inr ⟨h _, rfl, rfl, .inl ⟨rfl, by simp [Session.hasCommitted]⟩⟩
  | rollback next =>
      cases hstep
      exact .inr ⟨h, rfl, rfl, .inl ⟨rfl, by simp [Session.hasCommitted]⟩⟩
  | lock key next => exact h.elim

/-- Only a successful commit changes the database. -/
theorem advance_db {S : Store Db W} {p p' : Program Db W L D E α} {s s' : Session W L D}
    {db db' : Db} (hstep : p.advance S s db = some (p', s', db')) :
    db' = db ∨ ∃ next, p = commit next ∧ db' = S.applyAll s.batch db := by
  cases p with
  | flush next =>
      simp only [Program.advance] at hstep
      cases herror : s.flushError S db <;> rw [herror] at hstep <;> cases hstep <;> exact .inl rfl
  | commit next =>
      simp only [Program.advance] at hstep
      cases herror : s.flushError S db <;> rw [herror] at hstep <;> cases hstep
      · exact .inr ⟨next, rfl, rfl⟩
      · exact .inl rfl
  | _ => cases hstep <;> exact .inl rfl

/-- A program without a next operation has returned or raised. -/
theorem eq_of_advance_eq_none {S : Store Db W} {p : Program Db W L D E α} {s : Session W L D}
    {db : Db} (hstep : p.advance S s db = none) :
    (∃ value, p = ret value) ∨ ∃ error, p = raise error := by
  cases p with
  | ret value => exact .inl ⟨value, rfl⟩
  | raise error => exact .inr ⟨error, rfl⟩
  | flush next =>
      simp only [Program.advance] at hstep
      cases herror : s.flushError S db <;> rw [herror] at hstep <;> cases hstep
  | commit next =>
      simp only [Program.advance] at hstep
      cases herror : s.flushError S db <;> rw [herror] at hstep <;> cases hstep
  | _ => cases hstep

theorem Finished.quiet {p : Program Db W L D E α} (h : p.Finished) : p.Quiet := by
  cases p <;> first | exact h.elim | trivial

theorem quiet_of_finished {S : Store Db W} {p : Program Db W L D E α} {s : Session W L D} {db : Db}
    (hstep : p.advance S s db = none) : p.Quiet := by
  rcases eq_of_advance_eq_none hstep with ⟨value, rfl⟩ | ⟨error, rfl⟩
  · trivial
  · trivial

/-! ## The writes of a program -/

/-- Every write the program can ever add satisfies `P`. -/
def Adds (P : W → Prop) : Program Db W L D E α → Prop
  | ret _ => True
  | raise _ => True
  | read next => ∀ db, (next db).Adds P
  | add write next => P write ∧ next.Adds P
  | flush next => ∀ outcome, (next outcome).Adds P
  | commit next => ∀ outcome, (next outcome).Adds P
  | rollback next => next.Adds P
  | lock _ next => next.Adds P
  | draw next => ∀ value, (next value).Adds P

theorem Adds.mono {P Q : W → Prop} {p : Program Db W L D E α} (h : p.Adds P)
    (hsub : ∀ write, P write → Q write) : p.Adds Q := by
  induction p with
  | ret value | raise error => trivial
  | read next ih => exact fun db => ih db (h db)
  | add write next ih => exact ⟨hsub write h.1, ih h.2⟩
  | flush next ih | commit next ih => exact fun outcome => ih outcome (h outcome)
  | rollback next ih | lock key next ih => exact ih h
  | draw next ih => exact fun value => ih value (h value)

theorem adds_true (p : Program Db W L D E α) : p.Adds fun _ => True := by
  induction p with
  | ret value | raise error => trivial
  | read next ih => exact fun db => ih db
  | add write next ih => exact ⟨trivial, ih⟩
  | flush next ih | commit next ih => exact fun outcome => ih outcome
  | rollback next ih | lock key next ih => exact ih
  | draw next ih => exact fun value => ih value

theorem Adds.bind {P : W → Prop} {p : Program Db W L D E α} {f : α → Program Db W L D E β}
    (hp : p.Adds P) (hf : ∀ value, (f value).Adds P) : (p.bind f).Adds P := by
  induction p with
  | ret value => exact hf value
  | raise error => trivial
  | read next ih => exact fun db => ih db (hp db)
  | add write next ih => exact ⟨hp.1, ih hp.2⟩
  | flush next ih | commit next ih => exact fun outcome => ih outcome (hp outcome)
  | rollback next ih | lock key next ih => exact ih hp
  | draw next ih => exact fun value => ih value (hp value)

theorem Adds.tryCatch {P : W → Prop} {p : Program Db W L D E α}
    {handler : E → Program Db W L D E α} (hp : p.Adds P)
    (hhandler : ∀ error, (handler error).Adds P) : (p.tryCatch handler).Adds P := by
  induction p with
  | ret value => trivial
  | raise error => exact hhandler error
  | read next ih => exact fun db => ih db (hp db)
  | add write next ih => exact ⟨hp.1, ih hp.2⟩
  | flush next ih | commit next ih => exact fun outcome => ih outcome (hp outcome)
  | rollback next ih | lock key next ih => exact ih hp
  | draw next ih => exact fun value => ih value (hp value)

/-- A quiet program adds nothing. -/
theorem Quiet.adds {P : W → Prop} {p : Program Db W L D E α} (h : p.Quiet) : p.Adds P := by
  induction p with
  | ret value | raise error => trivial
  | read next ih => exact fun db => ih db (h db)
  | add write next ih | flush next ih | commit next ih | lock key next ih => exact h.elim
  | rollback next ih => exact ih h
  | draw next ih => exact fun value => ih value (h value)

/-- Where a program inside its transaction returns, its batch has grown by writes it may
add. -/
theorem Holding.ensures_grown {S : Store Db W} {rely : Session W L D → Db → Prop}
    {guar : Session W L D → Prop} {P : W → Prop} {p : Program Db W L D E α} {s : Session W L D}
    (h : p.Holding) (hadds : p.Adds P) :
    p.Ensures S rely guar s fun s' result => ∀ value, result = .ok value →
      ∃ writes, s'.batch = s.batch ++ writes ∧ ∀ write ∈ writes, P write := by
  induction p generalizing s with
  | ret value => exact fun _ _ => ⟨[], by simp, by simp⟩
  | raise error => exact fun _ hvalue => by cases hvalue
  | read next ih => exact fun db _ => ih _ (h _) (hadds _)
  | add write next ih =>
      refine (ih (s := s.afterAdd write) h hadds.2).mono fun s' result hgrown value hvalue => ?_
      obtain ⟨writes, hbatch, hwrites⟩ := hgrown value hvalue
      refine ⟨write :: writes, by rw [hbatch, Session.afterAdd_batch, List.append_assoc]; rfl, ?_⟩
      exact List.forall_mem_cons.mpr ⟨hadds.1, hwrites⟩
  | flush next ih =>
      rw [ensures_flush]
      refine ⟨fun _ _ _ => ?_, fun _ error _ _ => ?_⟩
      · simpa using ih _ (s := s.afterFlush) h.1 (hadds _)
      · refine (h.2 error).ensures.mono ?_
        rintro s' result ⟨-, failure, rfl⟩ _ hvalue
        cases hvalue
  | commit next ih | lock key next ih => exact h.elim
  | rollback next ih =>
      refine (Fails.ensures (s := s.afterRollback) h).mono ?_
      rintro s' result ⟨-, failure, rfl⟩ _ hvalue
      cases hvalue
  | draw next ih => exact ih _ (s := s.afterDraw) (h _) (hadds _)

/-- Throughout a run the session's batch stays within what the program adds, and so do
the batches it commits. -/
theorem Adds.ensures_guar {S : Store Db W} {rely : Session W L D → Db → Prop}
    {guar : Session W L D → Prop} {P : W → Prop} {p : Program Db W L D E α} {s : Session W L D}
    (h : p.Adds P) (hbatch : ∀ write ∈ s.batch, P write)
    (hguar : ∀ s : Session W L D, (∀ write ∈ s.batch, P write) → guar s) :
    p.Ensures S rely guar s fun s' _ => ∀ write ∈ s'.batch, P write := by
  induction p generalizing s with
  | ret value | raise error => exact hbatch
  | read next ih => exact fun db _ => ih _ (h _) hbatch
  | add write next ih =>
      refine ih h.2 fun other hother => ?_
      rw [Session.afterAdd_batch, List.mem_append, List.mem_singleton] at hother
      rcases hother with hold | rfl
      · exact hbatch other hold
      · exact h.1
  | flush next ih =>
      rw [ensures_flush]
      exact ⟨fun _ _ _ => ih _ (h _) (by simpa using hbatch),
        fun _ _ _ _ => ih _ (h _) (by simp [Session.batch])⟩
  | commit next ih =>
      rw [ensures_commit]
      exact ⟨hguar s hbatch, fun _ _ _ => ih _ (h _) (by simp [Session.batch]),
        fun _ _ _ _ => ih _ (h _) (by simp [Session.batch])⟩
  | rollback next ih => exact ih h (by simp [Session.batch])
  | lock key next ih => exact ih h hbatch
  | draw next ih => exact ih _ (h _) hbatch

theorem Adds.ensures {S : Store Db W} {rely : Session W L D → Db → Prop}
    {P : W → Prop} {p : Program Db W L D E α} {s : Session W L D} (h : p.Adds P)
    (hbatch : ∀ write ∈ s.batch, P write) :
    p.Ensures S rely (fun _ => True) s fun s' _ => ∀ write ∈ s'.batch, P write :=
  h.ensures_guar hbatch fun _ _ => trivial

/-- One operation of a program that only adds `P`-writes keeps the session's
batch within `P`. -/
theorem Adds.advance {S : Store Db W} {P : W → Prop} {p p' : Program Db W L D E α}
    {s s' : Session W L D} {db db' : Db} (h : p.Adds P) (hbatch : ∀ write ∈ s.batch, P write)
    (hstep : p.advance S s db = some (p', s', db')) :
    p'.Adds P ∧ ∀ write ∈ s'.batch, P write := by
  cases p with
  | ret value | raise error => cases hstep
  | read next | draw next => cases hstep; exact ⟨h _, hbatch⟩
  | add write next =>
      cases hstep
      refine ⟨h.2, fun other hother => ?_⟩
      rw [Session.afterAdd_batch, List.mem_append, List.mem_singleton] at hother
      rcases hother with hold | rfl
      · exact hbatch other hold
      · exact h.1
  | flush next =>
      simp only [Program.advance] at hstep
      cases herror : s.flushError S db <;> rw [herror] at hstep <;> cases hstep
      · exact ⟨h _, by simpa using hbatch⟩
      · exact ⟨h _, by simp [Session.batch]⟩
  | commit next =>
      simp only [Program.advance] at hstep
      cases herror : s.flushError S db <;> rw [herror] at hstep <;> cases hstep
      · exact ⟨h _, by simp [Session.batch]⟩
      · exact ⟨h _, by simp [Session.batch]⟩
  | rollback next => cases hstep; exact ⟨h, by simp [Session.batch]⟩
  | lock key next => cases hstep; exact ⟨h, hbatch⟩

/-- An invariant of the contents that every write keeps holds after the program has run. -/
theorem Adds.exec_induction {S : Store Db W} {P : W → Prop} {motive : Db → Prop}
    {p : Program Db W L D E α} {s : Session W L D} {db : Db} (h : p.Adds P)
    (hbatch : ∀ write ∈ s.batch, P write) (hdb : motive db)
    (hkeep : ∀ write contents, P write → motive contents → motive (S.apply write contents)) :
    motive (p.exec S s db).db := by
  induction p generalizing s db with
  | ret value | raise error => exact hdb
  | read next ih | draw next ih => exact ih _ (h _) hbatch hdb
  | add write next ih =>
      refine ih h.2 (fun other hother => ?_) hdb
      rw [Session.afterAdd_batch, List.mem_append, List.mem_singleton] at hother
      rcases hother with hold | rfl
      · exact hbatch other hold
      · exact h.1
  | flush next ih =>
      simp only [exec]
      cases s.flushError S db with
      | none => exact ih _ (h _) (by simpa using hbatch) hdb
      | some error => exact ih _ (h _) (by simp [Session.batch]) hdb
  | commit next ih =>
      simp only [exec]
      cases s.flushError S db with
      | none =>
          refine ih _ (h _) (by simp [Session.batch]) ?_
          exact Store.applyAll_induction S hdb fun write hwrite contents hcontents =>
            hkeep write contents (hbatch write hwrite) hcontents
      | some error => exact ih _ (h _) (by simp [Session.batch]) hdb
  | rollback next ih => exact ih h (by simp [Session.batch]) hdb
  | lock key next ih => exact ih h hbatch hdb

/-! ## Observers -/

/-- The program only queries and draws. -/
def Observes : Program Db W L D E α → Prop
  | ret _ => True
  | raise _ => True
  | read next => ∀ db, (next db).Observes
  | add _ _ => False
  | flush _ => False
  | commit _ => False
  | rollback _ => False
  | lock _ _ => False
  | draw next => ∀ value, (next value).Observes

theorem Observes.bind {p : Program Db W L D E α} {f : α → Program Db W L D E β}
    (hp : p.Observes) (hf : ∀ value, (f value).Observes) : (p.bind f).Observes := by
  induction p with
  | ret value => exact hf value
  | raise error => trivial
  | read next ih => exact fun db => ih db (hp db)
  | add write next ih | flush next ih | commit next ih | rollback next ih | lock key next ih =>
      exact hp
  | draw next ih => exact fun value => ih value (hp value)

theorem Observes.quiet {p : Program Db W L D E α} (h : p.Observes) : p.Quiet := by
  induction p with
  | ret value | raise error => trivial
  | read next ih => exact fun db => ih db (h db)
  | add write next ih | flush next ih | commit next ih | lock key next ih => exact h
  | rollback next ih => exact h.elim
  | draw next ih => exact fun value => ih value (h value)

theorem Observes.holding {p : Program Db W L D E α} (h : p.Observes) : p.Holding := by
  induction p with
  | ret value | raise error => trivial
  | read next ih => exact fun db => ih db (h db)
  | add write next ih | flush next ih | rollback next ih => exact h.elim
  | commit next ih | lock key next ih => exact h
  | draw next ih => exact fun value => ih value (h value)

theorem Observes.adds {P : W → Prop} {p : Program Db W L D E α} (h : p.Observes) : p.Adds P :=
  h.quiet.adds

/-- An observer leaves everything of its session but the draws as it was. -/
theorem Observes.ensures {S : Store Db W} {rely : Session W L D → Db → Prop}
    {guar : Session W L D → Prop} {p : Program Db W L D E α} {s : Session W L D}
    (h : p.Observes) :
    p.Ensures S rely guar s fun s' _ => ∃ draws, s' = { s with draws := draws } := by
  induction p generalizing s with
  | ret value | raise error => exact ⟨s.draws, rfl⟩
  | read next ih => exact fun _ _ => ih _ (h _)
  | add write next ih | flush next ih | commit next ih | rollback next ih | lock key next ih =>
      exact h.elim
  | draw next ih => exact ih _ (s := s.afterDraw) (h _)

/-! ## Programs on their way to a lock -/

/-- The program only queries and draws until it takes the lock, and goes on as `body`. -/
def Approaches : Program Db W L D E α → L → Program Db W L D E α → Prop
  | ret _, _, _ => True
  | raise _, _, _ => True
  | read next, key, body => ∀ db, (next db).Approaches key body
  | add _ _, _, _ => False
  | flush _, _, _ => False
  | commit _, _, _ => False
  | rollback _, _, _ => False
  | lock other next, key, body => other = key ∧ next = body
  | draw next, key, body => ∀ value, (next value).Approaches key body

theorem Observes.approaches {key : L} {body p : Program Db W L D E α} (h : p.Observes) :
    p.Approaches key body := by
  induction p with
  | ret value | raise error => trivial
  | read next ih => exact fun db => ih db (h db)
  | add write next ih | flush next ih | commit next ih | rollback next ih => exact h
  | lock other next ih => exact h.elim
  | draw next ih => exact fun value => ih value (h value)

/-- Observing first is still being on the way. -/
theorem Observes.bind_approaches {key : L} {body : Program Db W L D E β}
    {p : Program Db W L D E α} {f : α → Program Db W L D E β} (hp : p.Observes)
    (hf : ∀ value, (f value).Approaches key body) : (p.bind f).Approaches key body := by
  induction p with
  | ret value => exact hf value
  | raise error => trivial
  | read next ih => exact fun db => ih db (hp db)
  | add write next ih | flush next ih | commit next ih | rollback next ih => exact hp
  | lock other next ih => exact hp.elim
  | draw next ih => exact fun value => ih value (hp value)

/-- What observes the result at the end belongs to the body. -/
theorem Approaches.bind {key : L} {body p : Program Db W L D E α}
    {f : α → Program Db W L D E β} (h : p.Approaches key body)
    (hf : ∀ value, (f value).Observes) : (p.bind f).Approaches key (body.bind f) := by
  induction p with
  | ret value => exact (hf value).approaches
  | raise error => trivial
  | read next ih => exact fun db => ih db (h db)
  | add write next ih | flush next ih | commit next ih | rollback next ih => exact h
  | lock other next ih => exact ⟨h.1, congrArg (fun p => p.bind f) h.2⟩
  | draw next ih => exact fun value => ih value (h value)

/-- One operation keeps a program on its way, or takes the lock. -/
theorem Approaches.advance {S : Store Db W} {key : L} {body p p' : Program Db W L D E α}
    {s s' : Session W L D} {db db' : Db} (h : p.Approaches key body)
    (hstep : p.advance S s db = some (p', s', db')) :
    (p'.Approaches key body ∧ (∃ draws, s' = { s with draws := draws }) ∧ db' = db) ∨
      p = lock key body ∧ p' = body ∧ s' = s.afterLock key ∧ db' = db := by
  cases p with
  | ret value | raise error => cases hstep
  | read next => cases hstep; exact .inl ⟨h _, ⟨s.draws, rfl⟩, rfl⟩
  | add write next | flush next | commit next | rollback next => exact h.elim
  | lock other next =>
      cases hstep
      obtain ⟨rfl, rfl⟩ := h
      exact .inr ⟨rfl, rfl, rfl, rfl⟩
  | draw next => cases hstep; exact .inl ⟨h _, ⟨_, rfl⟩, rfl⟩

/-! ## Programs that have decided -/

/-- The program queries nothing before its transaction is over. -/
def Decided : Program Db W L D E α → Prop
  | ret _ => True
  | raise _ => True
  | read next => ∀ db, (next db).Quiet
  | add _ next => next.Decided
  | flush next => (next none).Decided ∧ ∀ error, (next (some error)).Quiet
  | commit next => ∀ outcome, (next outcome).Quiet
  | rollback next => next.Quiet
  | lock _ _ => False
  | draw next => ∀ value, (next value).Decided

/-- The program's next operation is a query. -/
def AtQuery : Program Db W L D E α → Prop
  | read _ => True
  | _ => False

instance : DecidablePred (AtQuery : Program Db W L D E α → Prop)
  | read _ => isTrue trivial
  | ret _ => isFalse id
  | raise _ => isFalse id
  | add _ _ => isFalse id
  | flush _ => isFalse id
  | commit _ => isFalse id
  | rollback _ => isFalse id
  | lock _ _ => isFalse id
  | draw _ => isFalse id

theorem Quiet.decided {p : Program Db W L D E α} (h : p.Quiet) : p.Decided := by
  induction p with
  | ret value | raise error => trivial
  | read next _ | rollback next _ | lock key next ih => exact h
  | add write next ih | flush next ih | commit next ih => exact h.elim
  | draw next ih => exact fun value => ih value (h value)

theorem Quiet.locked {p : Program Db W L D E α} (h : p.Quiet) : p.Locked := by
  induction p with
  | ret value | raise error => trivial
  | read next ih => exact fun db => ih db (h db)
  | add write next ih | flush next ih | commit next ih => exact h.elim
  | rollback next _ | lock key next ih => exact h
  | draw next ih => exact fun value => ih value (h value)

theorem Decided.locked {p : Program Db W L D E α} (h : p.Decided) : p.Locked := by
  induction p with
  | ret value | raise error => trivial
  | read next ih => exact fun db => (h db).locked
  | add write next ih => exact ih h
  | flush next ih => exact ⟨ih none h.1, h.2⟩
  | commit next ih | rollback next ih | lock key next ih => exact h
  | draw next ih => exact fun value => ih value (h value)

/-- What observes the result at the end leaves a program decided. -/
theorem Decided.bind {p : Program Db W L D E α} {f : α → Program Db W L D E β} (h : p.Decided)
    (hf : ∀ value, (f value).Observes) : (p.bind f).Decided := by
  induction p with
  | ret value => exact (hf value).quiet.decided
  | raise error => trivial
  | read next _ => exact fun db => (h db).bind fun value => (hf value).quiet
  | add write next ih => exact ih h
  | flush next ih =>
      exact ⟨ih none h.1, fun error => (h.2 error).bind fun value => (hf value).quiet⟩
  | commit next ih => exact fun outcome => (h outcome).bind fun value => (hf value).quiet
  | rollback next ih => exact Quiet.bind h fun value => (hf value).quiet
  | lock key next ih => exact h
  | draw next ih => exact fun value => ih value (h value)

/-- A decided program that queries is quiet. -/
theorem Decided.not_atQuery {p : Program Db W L D E α} (h : p.Decided) (hquiet : ¬ p.Quiet) :
    ¬ p.AtQuery := by
  cases p with
  | read next => exact (hquiet h).elim
  | _ => exact id

theorem Decided.advance {S : Store Db W} {p p' : Program Db W L D E α} {s s' : Session W L D}
    {db db' : Db} (h : p.Decided) (hstep : p.advance S s db = some (p', s', db')) :
    p'.Decided := by
  cases p with
  | ret value | raise error => cases hstep
  | read next => cases hstep; exact (h _).decided
  | add write next => cases hstep; exact h
  | flush next =>
      simp only [Program.advance] at hstep
      cases herror : s.flushError S db <;> rw [herror] at hstep <;> cases hstep
      · exact h.1
      · exact (h.2 _).decided
  | commit next =>
      simp only [Program.advance] at hstep
      cases herror : s.flushError S db <;> rw [herror] at hstep <;> cases hstep
      · exact (h _).decided
      · exact (h _).decided
  | rollback next => cases hstep; exact h.decided
  | lock key next => exact h.elim
  | draw next => cases hstep; exact h _

/-- What observes the result at the end leaves a program locked. -/
theorem Locked.bind {p : Program Db W L D E α} {f : α → Program Db W L D E β} (h : p.Locked)
    (hf : ∀ value, (f value).Observes) : (p.bind f).Locked := by
  induction p with
  | ret value => exact (hf value).quiet.locked
  | raise error => trivial
  | read next ih => exact fun db => ih db (h db)
  | add write next ih => exact ih h
  | flush next ih =>
      exact ⟨ih none h.1, fun error => (h.2 error).bind fun value => (hf value).quiet⟩
  | commit next ih => exact fun outcome => (h outcome).bind fun value => (hf value).quiet
  | rollback next ih => exact Quiet.bind h fun value => (hf value).quiet
  | lock key next ih => exact h
  | draw next ih => exact fun value => ih value (h value)

/-! ## What a program raises -/

/-- Whatever the program raises satisfies `P`. -/
def Raises (P : E → Prop) : Program Db W L D E α → Prop
  | ret _ => True
  | raise error => P error
  | read next => ∀ db, (next db).Raises P
  | add _ next => next.Raises P
  | flush next => ∀ outcome, (next outcome).Raises P
  | commit next => ∀ outcome, (next outcome).Raises P
  | rollback next => next.Raises P
  | lock _ next => next.Raises P
  | draw next => ∀ value, (next value).Raises P

theorem Raises.bind {P : E → Prop} {p : Program Db W L D E α} {f : α → Program Db W L D E β}
    (hp : p.Raises P) (hf : ∀ value, (f value).Raises P) : (p.bind f).Raises P := by
  induction p with
  | ret value => exact hf value
  | raise error => exact hp
  | read next ih => exact fun db => ih db (hp db)
  | add write next ih | rollback next ih | lock key next ih => exact ih hp
  | flush next ih | commit next ih => exact fun outcome => ih outcome (hp outcome)
  | draw next ih => exact fun value => ih value (hp value)

/-- A handler answers for what the program it guards raises. -/
theorem Raises.tryCatch {P Q : E → Prop} {p : Program Db W L D E α}
    {handler : E → Program Db W L D E α} (hp : p.Raises P)
    (hhandler : ∀ error, P error → (handler error).Raises Q) : (p.tryCatch handler).Raises Q := by
  induction p with
  | ret value => trivial
  | raise error => exact hhandler error hp
  | read next ih => exact fun db => ih db (hp db)
  | add write next ih | rollback next ih | lock key next ih => exact ih hp
  | flush next ih | commit next ih => exact fun outcome => ih outcome (hp outcome)
  | draw next ih => exact fun value => ih value (hp value)

theorem Raises.ensures {S : Store Db W} {rely : Session W L D → Db → Prop} {P : E → Prop}
    {p : Program Db W L D E α} {s : Session W L D} (h : p.Raises P) :
    p.Ensures S rely (fun _ => True) s fun _ result => ∀ error, result = .error error → P error := by
  induction p generalizing s with
  | ret value => rintro _ ⟨⟩
  | raise error =>
      rintro _ ⟨⟩
      exact h
  | read next ih => exact fun _ _ => ih _ (h _)
  | add write next ih | rollback next ih | lock key next ih => exact ih h
  | flush next ih => exact ensures_flush.mpr ⟨fun _ _ _ => ih _ (h _), fun _ _ _ _ => ih _ (h _)⟩
  | commit next ih =>
      exact ensures_commit.mpr ⟨trivial, fun _ _ _ => ih _ (h _), fun _ _ _ _ => ih _ (h _)⟩
  | draw next ih => exact ih _ (h _)

end Program

end Transaction
