/-
# Database sessions as programs

A service function talks to its database through a session: it queries, adds
rows to a unit of work, flushes them, takes advisory locks, commits or rolls
back. This module makes such a function a first-order object, a `Program`
whose constructors are exactly those session operations. The same program can
then be run alone (`exec`) or one step at a time (`advance`), which is what the
interleaving semantics needs.

A query sees the committed database with the session's own flushed writes on
top, nothing of any other open transaction, and a fresh committed state for
every statement: this is READ COMMITTED visibility. Values that come from
outside the database (clock readings, generated identifiers) are drawn from a
stream that belongs to the session, so a call is a function of its draws and of
the databases its queries saw. A second stream lets any flush fail.
-/

import Mathlib.Logic.Function.Basic
import Mathlib.Tactic.Common

namespace Transaction

/-- How a database statement can be refused. -/
inductive DbError
  | /-- A declared constraint would be violated. -/
    integrity
  | /-- A value does not fit its column. -/
    data
  deriving DecidableEq, Repr

/-- What a store does with one row-level write: its effect, whether a constraint
refuses it, and whose uncommitted write it has to wait for. -/
structure Store (Db W : Type) where
  /-- The contents after the write. -/
  apply : W → Db → Db
  /-- The constraint that refuses the write on these contents, if any. -/
  refuses : Db → W → Option DbError
  /-- `waits w other`: `w` blocks while another transaction holds `other` uncommitted. -/
  waits : W → W → Bool

namespace Store

variable {Db W : Type} (S : Store Db W)

/-- The contents after a batch of writes, applied in order. -/
def applyAll (writes : List W) (db : Db) : Db :=
  writes.foldl (fun contents write => S.apply write contents) db

@[simp]
theorem applyAll_nil (db : Db) : S.applyAll [] db = db := rfl

@[simp]
theorem applyAll_cons (write : W) (writes : List W) (db : Db) :
    S.applyAll (write :: writes) db = S.applyAll writes (S.apply write db) := rfl

@[simp]
theorem applyAll_append (first second : List W) (db : Db) :
    S.applyAll (first ++ second) db = S.applyAll second (S.applyAll first db) := by
  simp [applyAll]

/-- The first refusal met when the writes are executed in order. -/
def refusesAll : List W → Db → Option DbError
  | [], _ => none
  | write :: writes, db =>
      match S.refuses db write with
      | some error => some error
      | none => refusesAll writes (S.apply write db)

@[simp]
theorem refusesAll_nil (db : Db) : S.refusesAll [] db = none := rfl

theorem refusesAll_cons (write : W) (writes : List W) (db : Db) :
    S.refusesAll (write :: writes) db =
      match S.refuses db write with
      | some error => some error
      | none => S.refusesAll writes (S.apply write db) := rfl

theorem refusesAll_cons_eq_none {write : W} {writes : List W} {db : Db} :
    S.refusesAll (write :: writes) db = none ↔
      S.refuses db write = none ∧ S.refusesAll writes (S.apply write db) = none := by
  rw [refusesAll_cons]
  cases S.refuses db write <;> simp

/-- A batch in two parts is refused where its first part is, or its second after it. -/
theorem refusesAll_append_eq_none {first second : List W} {db : Db} :
    S.refusesAll (first ++ second) db = none ↔
      S.refusesAll first db = none ∧ S.refusesAll second (S.applyAll first db) = none := by
  induction first generalizing db with
  | nil => simp
  | cons write first ih =>
      rw [List.cons_append, refusesAll_cons_eq_none, refusesAll_cons_eq_none, ih, applyAll_cons,
        and_assoc]

/-- An invariant of the contents that every single write of a batch keeps is
kept by the whole batch. -/
theorem applyAll_induction {motive : Db → Prop} {writes : List W} {db : Db}
    (hstart : motive db)
    (hwrite : ∀ write ∈ writes, ∀ contents, motive contents → motive (S.apply write contents)) :
    motive (S.applyAll writes db) := by
  induction writes generalizing db with
  | nil => exact hstart
  | cons write writes ih =>
      rw [applyAll_cons]
      apply ih (hwrite write List.mem_cons_self db hstart)
      intro later hlater
      exact hwrite later (List.mem_cons_of_mem write hlater)

end Store

/-- What a session did at the transaction level, oldest first. -/
inductive Event (W L : Type)
  | /-- An advisory lock was obtained. -/
    locked (key : L)
  | /-- The transaction committed these writes. -/
    committed (writes : List W)
  | /-- A flush failed, which rolls the transaction back. -/
    failed (error : DbError)
  | /-- The transaction was rolled back by the program. -/
    rolledBack
  deriving DecidableEq

/-- A program over a session: databases `Db`, row-level writes `W`, advisory
lock keys `L`, draws `D` from outside the database, exceptions `E`. -/
inductive Program (Db W L D E α : Type) : Type
  | /-- Return. -/
    ret (value : α)
  | /-- Raise an exception. -/
    raise (error : E)
  | /-- Run one query. -/
    read (next : Db → Program Db W L D E α)
  | /-- Add a write to the unit of work. -/
    add (write : W) (next : Program Db W L D E α)
  | /-- Execute the unit of work inside the open transaction. -/
    flush (next : Option DbError → Program Db W L D E α)
  | /-- Flush, then commit. -/
    commit (next : Option DbError → Program Db W L D E α)
  | /-- Roll back. -/
    rollback (next : Program Db W L D E α)
  | /-- Take a transaction-scoped advisory lock. -/
    lock (key : L) (next : Program Db W L D E α)
  | /-- Draw a value from outside the database. -/
    draw (next : D → Program Db W L D E α)

namespace Program

variable {Db W L D E α β : Type}

/-- Sequential composition. -/
def bind : Program Db W L D E α → (α → Program Db W L D E β) → Program Db W L D E β
  | ret value, f => f value
  | raise error, _ => raise error
  | read next, f => read fun db => (next db).bind f
  | add write next, f => add write (next.bind f)
  | flush next, f => flush fun outcome => (next outcome).bind f
  | commit next, f => commit fun outcome => (next outcome).bind f
  | rollback next, f => rollback (next.bind f)
  | lock key next, f => lock key (next.bind f)
  | draw next, f => draw fun value => (next value).bind f

instance : Monad (Program Db W L D E) where
  pure := ret
  bind := bind

@[simp]
theorem pure_eq_ret (value : α) : (pure value : Program Db W L D E α) = ret value := rfl

@[simp]
theorem bind_eq (p : Program Db W L D E α) (f : α → Program Db W L D E β) :
    p >>= f = p.bind f := rfl

theorem bind_ret (p : Program Db W L D E α) : p.bind ret = p := by
  induction p with
  | ret value | raise error => rfl
  | read next ih => exact congrArg read (funext ih)
  | add write next ih => exact congrArg (add write) ih
  | flush next ih => exact congrArg flush (funext ih)
  | commit next ih => exact congrArg commit (funext ih)
  | rollback next ih => exact congrArg rollback ih
  | lock key next ih => exact congrArg (lock key) ih
  | draw next ih => exact congrArg draw (funext ih)

theorem bind_assoc {γ : Type} (p : Program Db W L D E α) (f : α → Program Db W L D E β)
    (g : β → Program Db W L D E γ) :
    (p.bind f).bind g = p.bind fun value => (f value).bind g := by
  induction p with
  | ret value | raise error => rfl
  | read next ih => exact congrArg read (funext ih)
  | add write next ih => exact congrArg (add write) ih
  | flush next ih => exact congrArg flush (funext ih)
  | commit next ih => exact congrArg commit (funext ih)
  | rollback next ih => exact congrArg rollback ih
  | lock key next ih => exact congrArg (lock key) ih
  | draw next ih => exact congrArg draw (funext ih)

instance : LawfulMonad (Program Db W L D E) :=
  LawfulMonad.mk' _ (fun p => bind_ret p) (fun _ _ => rfl) (fun p f g => bind_assoc p f g)

@[simp]
theorem map_eq_bind (f : α → β) (p : Program Db W L D E α) :
    f <$> p = p.bind fun value => ret (f value) := rfl

/-- `try … except`: continue with the handler where the program raises. -/
def tryCatch : Program Db W L D E α → (E → Program Db W L D E α) → Program Db W L D E α
  | ret value, _ => ret value
  | raise error, handler => handler error
  | read next, handler => read fun db => (next db).tryCatch handler
  | add write next, handler => add write (next.tryCatch handler)
  | flush next, handler => flush fun outcome => (next outcome).tryCatch handler
  | commit next, handler => commit fun outcome => (next outcome).tryCatch handler
  | rollback next, handler => rollback (next.tryCatch handler)
  | lock key next, handler => lock key (next.tryCatch handler)
  | draw next, handler => draw fun value => (next value).tryCatch handler

/-- One query. -/
def query (q : Db → α) : Program Db W L D E α := read fun db => ret (q db)

/-- The program has returned or raised. -/
def Finished : Program Db W L D E α → Prop
  | ret _ => True
  | raise _ => True
  | _ => False

instance : DecidablePred (Finished : Program Db W L D E α → Prop)
  | ret _ => isTrue trivial
  | raise _ => isTrue trivial
  | read _ => isFalse id
  | add _ _ => isFalse id
  | flush _ => isFalse id
  | commit _ => isFalse id
  | rollback _ => isFalse id
  | lock _ _ => isFalse id
  | draw _ => isFalse id

/-- The next step is a commit. -/
def atCommit : Program Db W L D E α → Bool
  | commit _ => true
  | _ => false

end Program

/-- The state a session carries between operations. -/
structure Session (W L D : Type) where
  /-- Added to the unit of work, not yet flushed. -/
  pending : List W
  /-- Flushed in the open transaction, not yet committed. -/
  flushed : List W
  /-- Advisory locks of the open transaction. -/
  held : List L
  /-- The values the session will draw. -/
  draws : ℕ → D
  /-- Failures injected into the session's flushes. -/
  faults : ℕ → Option DbError
  /-- What happened at the transaction level so far. -/
  journal : List (Event W L)

namespace Session

variable {Db W L D : Type}

/-- A session that has done nothing yet. -/
def start (draws : ℕ → D) (faults : ℕ → Option DbError) : Session W L D where
  pending := []
  flushed := []
  held := []
  draws := draws
  faults := faults
  journal := []

/-- The contents a query of this session sees. -/
def view (S : Store Db W) (s : Session W L D) (db : Db) : Db := S.applyAll s.flushed db

/-- All writes of the open transaction, flushed or not. -/
def batch (s : Session W L D) : List W := s.flushed ++ s.pending

/-- Why a flush fails now, if it does. -/
def flushError (S : Store Db W) (s : Session W L D) (db : Db) : Option DbError :=
  match s.faults 0 with
  | some error => some error
  | none => S.refusesAll s.pending (s.view S db)

/-- A flush that succeeds was not refused. -/
theorem refusesAll_of_flushError {S : Store Db W} {s : Session W L D} {db : Db}
    (h : s.flushError S db = none) : S.refusesAll s.pending (s.view S db) = none := by
  rw [flushError] at h
  split at h
  · cases h
  · exact h

/-- After adding a write to the unit of work. -/
def afterAdd (s : Session W L D) (write : W) : Session W L D :=
  { s with pending := s.pending ++ [write] }

/-- After a successful flush. -/
def afterFlush (s : Session W L D) : Session W L D :=
  { s with pending := [], flushed := s.batch, faults := fun n => s.faults (n + 1) }

/-- After a failed flush: the transaction is gone, with its locks. -/
def afterFailure (s : Session W L D) (error : DbError) : Session W L D :=
  { s with
    pending := []
    flushed := []
    held := []
    faults := fun n => s.faults (n + 1)
    journal := s.journal ++ [.failed error] }

/-- After a successful commit. -/
def afterCommit (s : Session W L D) : Session W L D :=
  { s with
    pending := []
    flushed := []
    held := []
    faults := fun n => s.faults (n + 1)
    journal := s.journal ++ [.committed s.batch] }

/-- After an explicit rollback. -/
def afterRollback (s : Session W L D) : Session W L D :=
  { s with pending := [], flushed := [], held := [], journal := s.journal ++ [.rolledBack] }

/-- After obtaining an advisory lock. -/
def afterLock (s : Session W L D) (key : L) : Session W L D :=
  { s with held := key :: s.held, journal := s.journal ++ [.locked key] }

/-- After one draw. -/
def afterDraw (s : Session W L D) : Session W L D :=
  { s with draws := fun n => s.draws (n + 1) }

/-- The session committed at some point. -/
def hasCommitted (s : Session W L D) : Bool :=
  s.journal.any fun event =>
    match event with
    | .committed _ => true
    | _ => false

@[simp]
theorem view_of_flushed_nil (S : Store Db W) {s : Session W L D} (h : s.flushed = [])
    (db : Db) : s.view S db = db := by
  simp [view, h]

@[simp]
theorem afterAdd_flushed (s : Session W L D) (write : W) :
    (s.afterAdd write).flushed = s.flushed := rfl

@[simp]
theorem afterAdd_pending (s : Session W L D) (write : W) :
    (s.afterAdd write).pending = s.pending ++ [write] := rfl

@[simp]
theorem afterAdd_held (s : Session W L D) (write : W) : (s.afterAdd write).held = s.held := rfl

@[simp]
theorem afterAdd_draws (s : Session W L D) (write : W) : (s.afterAdd write).draws = s.draws := rfl

@[simp]
theorem afterAdd_faults (s : Session W L D) (write : W) :
    (s.afterAdd write).faults = s.faults := rfl

@[simp]
theorem afterAdd_journal (s : Session W L D) (write : W) :
    (s.afterAdd write).journal = s.journal := rfl

@[simp]
theorem afterAdd_batch (s : Session W L D) (write : W) :
    (s.afterAdd write).batch = s.batch ++ [write] := by
  simp [batch]

@[simp]
theorem afterFlush_flushed (s : Session W L D) : s.afterFlush.flushed = s.batch := rfl

@[simp]
theorem afterFlush_pending (s : Session W L D) : s.afterFlush.pending = [] := rfl

@[simp]
theorem afterFlush_held (s : Session W L D) : s.afterFlush.held = s.held := rfl

@[simp]
theorem afterFlush_draws (s : Session W L D) : s.afterFlush.draws = s.draws := rfl

@[simp]
theorem afterFlush_journal (s : Session W L D) : s.afterFlush.journal = s.journal := rfl

@[simp]
theorem afterFlush_batch (s : Session W L D) : s.afterFlush.batch = s.batch := by
  simp [batch, afterFlush]

@[simp]
theorem afterFailure_pending (s : Session W L D) (error : DbError) :
    (s.afterFailure error).pending = [] := rfl

@[simp]
theorem afterFailure_flushed (s : Session W L D) (error : DbError) :
    (s.afterFailure error).flushed = [] := rfl

@[simp]
theorem afterFailure_held (s : Session W L D) (error : DbError) :
    (s.afterFailure error).held = [] := rfl

@[simp]
theorem afterFailure_journal (s : Session W L D) (error : DbError) :
    (s.afterFailure error).journal = s.journal ++ [.failed error] := rfl

@[simp]
theorem afterCommit_pending (s : Session W L D) : s.afterCommit.pending = [] := rfl

@[simp]
theorem afterCommit_flushed (s : Session W L D) : s.afterCommit.flushed = [] := rfl

@[simp]
theorem afterCommit_held (s : Session W L D) : s.afterCommit.held = [] := rfl

@[simp]
theorem afterCommit_draws (s : Session W L D) : s.afterCommit.draws = s.draws := rfl

@[simp]
theorem afterCommit_journal (s : Session W L D) :
    s.afterCommit.journal = s.journal ++ [.committed s.batch] := rfl

@[simp]
theorem afterRollback_pending (s : Session W L D) : s.afterRollback.pending = [] := rfl

@[simp]
theorem afterRollback_flushed (s : Session W L D) : s.afterRollback.flushed = [] := rfl

@[simp]
theorem afterRollback_held (s : Session W L D) : s.afterRollback.held = [] := rfl

@[simp]
theorem afterRollback_journal (s : Session W L D) :
    s.afterRollback.journal = s.journal ++ [.rolledBack] := rfl

@[simp]
theorem afterLock_pending (s : Session W L D) (key : L) :
    (s.afterLock key).pending = s.pending := rfl

@[simp]
theorem afterLock_flushed (s : Session W L D) (key : L) :
    (s.afterLock key).flushed = s.flushed := rfl

@[simp]
theorem afterLock_held (s : Session W L D) (key : L) :
    (s.afterLock key).held = key :: s.held := rfl

@[simp]
theorem afterLock_draws (s : Session W L D) (key : L) : (s.afterLock key).draws = s.draws := rfl

@[simp]
theorem afterLock_faults (s : Session W L D) (key : L) :
    (s.afterLock key).faults = s.faults := rfl

@[simp]
theorem afterLock_journal (s : Session W L D) (key : L) :
    (s.afterLock key).journal = s.journal ++ [.locked key] := rfl

@[simp]
theorem afterDraw_pending (s : Session W L D) : s.afterDraw.pending = s.pending := rfl

@[simp]
theorem afterDraw_flushed (s : Session W L D) : s.afterDraw.flushed = s.flushed := rfl

@[simp]
theorem afterDraw_held (s : Session W L D) : s.afterDraw.held = s.held := rfl

@[simp]
theorem afterDraw_faults (s : Session W L D) : s.afterDraw.faults = s.faults := rfl

@[simp]
theorem afterDraw_journal (s : Session W L D) : s.afterDraw.journal = s.journal := rfl

@[simp]
theorem afterDraw_batch (s : Session W L D) : s.afterDraw.batch = s.batch := rfl

end Session

/-- How a program ended, with the session and the committed contents it left. -/
structure Outcome (Db W L D E α : Type) where
  /-- The returned value or the exception. -/
  result : Except E α
  /-- The session, still open. -/
  session : Session W L D
  /-- What is committed; closing the session changes nothing here. -/
  db : Db

namespace Program

variable {Db W L D E α β : Type} (S : Store Db W)

/-- One operation of the program: the rest of it, the session and the committed
contents afterwards. A finished program has no operation left. -/
def advance : Program Db W L D E α → Session W L D → Db →
    Option (Program Db W L D E α × Session W L D × Db)
  | ret _, _, _ => none
  | raise _, _, _ => none
  | read next, s, db => some (next (s.view S db), s, db)
  | add write next, s, db => some (next, s.afterAdd write, db)
  | flush next, s, db =>
      match s.flushError S db with
      | none => some (next none, s.afterFlush, db)
      | some error => some (next (some error), s.afterFailure error, db)
  | commit next, s, db =>
      match s.flushError S db with
      | none => some (next none, s.afterCommit, S.applyAll s.batch db)
      | some error => some (next (some error), s.afterFailure error, db)
  | rollback next, s, db => some (next, s.afterRollback, db)
  | lock key next, s, db => some (next, s.afterLock key, db)
  | draw next, s, db => some (next (s.draws 0), s.afterDraw, db)

/-- Run the program alone to its end. -/
def exec : Program Db W L D E α → Session W L D → Db → Outcome Db W L D E α
  | ret value, s, db => ⟨.ok value, s, db⟩
  | raise error, s, db => ⟨.error error, s, db⟩
  | read next, s, db => (next (s.view S db)).exec s db
  | add write next, s, db => next.exec (s.afterAdd write) db
  | flush next, s, db =>
      match s.flushError S db with
      | none => (next none).exec s.afterFlush db
      | some error => (next (some error)).exec (s.afterFailure error) db
  | commit next, s, db =>
      match s.flushError S db with
      | none => (next none).exec s.afterCommit (S.applyAll s.batch db)
      | some error => (next (some error)).exec (s.afterFailure error) db
  | rollback next, s, db => next.exec s.afterRollback db
  | lock key next, s, db => next.exec (s.afterLock key) db
  | draw next, s, db => (next (s.draws 0)).exec s.afterDraw db

/-- Running to the end is running one operation and then to the end. -/
theorem exec_of_advance {p p' : Program Db W L D E α} {s s' : Session W L D} {db db' : Db}
    (h : p.advance S s db = some (p', s', db')) : p.exec S s db = p'.exec S s' db' := by
  cases p with
  | ret value | raise error => cases h
  | flush next =>
      simp only [advance] at h
      cases herror : s.flushError S db <;> simp only [herror] at h <;> cases h <;>
        simp [exec, herror]
  | commit next =>
      simp only [advance] at h
      cases herror : s.flushError S db <;> simp only [herror] at h <;> cases h <;>
        simp [exec, herror]
  | _ => cases h; rfl

/-- A composed program runs its first part and, where that returns, its second. -/
theorem exec_bind (p : Program Db W L D E α) (f : α → Program Db W L D E β)
    (s : Session W L D) (db : Db) :
    (p.bind f).exec S s db =
      match p.exec S s db with
      | ⟨.ok value, s', db'⟩ => (f value).exec S s' db'
      | ⟨.error error, s', db'⟩ => ⟨.error error, s', db'⟩ := by
  induction p generalizing s db with
  | ret value | raise error => rfl
  | read next ih => exact ih _ s db
  | add write next ih | rollback next ih | lock key next ih => exact ih _ db
  | flush next ih =>
      simp only [bind, exec]
      cases s.flushError S db with
      | none => exact ih _ _ db
      | some error => exact ih _ _ db
  | commit next ih =>
      simp only [bind, exec]
      cases s.flushError S db with
      | none => exact ih _ _ _
      | some error => exact ih _ _ db
  | draw next ih => exact ih _ _ db

/-- `exec_bind` where the first part is known to return. -/
theorem exec_bind_of_ok {p : Program Db W L D E α} {f : α → Program Db W L D E β}
    {s s' : Session W L D} {db db' : Db} {value : α}
    (h : p.exec S s db = ⟨.ok value, s', db'⟩) :
    (p.bind f).exec S s db = (f value).exec S s' db' := by
  rw [exec_bind, h]

@[simp]
theorem exec_ret (value : α) (s : Session W L D) (db : Db) :
    (ret value : Program Db W L D E α).exec S s db = ⟨.ok value, s, db⟩ := rfl

@[simp]
theorem exec_raise (error : E) (s : Session W L D) (db : Db) :
    (raise error : Program Db W L D E α).exec S s db = ⟨.error error, s, db⟩ := rfl

@[simp]
theorem exec_query (q : Db → α) (s : Session W L D) (db : Db) :
    (query q : Program Db W L D E α).exec S s db = ⟨.ok (q (s.view S db)), s, db⟩ := rfl

end Program

end Transaction
