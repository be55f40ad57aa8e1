/-
# Reasoning about one session among others

`Ensures` is a weakest precondition for one session's program that leaves the
other sessions abstract. Two parameters stand for them: `rely` says which
committed contents the session can meet in a given state of its own, and
`guar` is what the session owes at each of its commits.

Instantiating `rely` with "the committed contents are the starting ones plus
what this session committed" gives reasoning about a call that runs alone
(`Ensures.exec`). Instantiating it with an invariant that the other sessions
keep gives reasoning about one call inside an interleaving
(`Ensures.advance`, `Ensures.of_commit`). One specification lemma per function
therefore serves both.
-/

import PortForge.Transaction.Program

namespace Transaction

namespace Session

variable {Db W L D : Type}

/-- The writes this session has committed so far, oldest first. -/
def committedWrites (s : Session W L D) : List W :=
  s.journal.flatMap fun event =>
    match event with
    | .committed writes => writes
    | _ => []

@[simp]
theorem committedWrites_start (draws : ℕ → D) (faults : ℕ → Option DbError) :
    (start draws faults : Session W L D).committedWrites = [] := rfl

@[simp]
theorem committedWrites_afterAdd (s : Session W L D) (write : W) :
    (s.afterAdd write).committedWrites = s.committedWrites := rfl

@[simp]
theorem committedWrites_afterFlush (s : Session W L D) :
    s.afterFlush.committedWrites = s.committedWrites := rfl

@[simp]
theorem committedWrites_afterFailure (s : Session W L D) (error : DbError) :
    (s.afterFailure error).committedWrites = s.committedWrites := by
  simp [committedWrites]

@[simp]
theorem committedWrites_afterCommit (s : Session W L D) :
    s.afterCommit.committedWrites = s.committedWrites ++ s.batch := by
  simp [committedWrites]

@[simp]
theorem committedWrites_afterRollback (s : Session W L D) :
    s.afterRollback.committedWrites = s.committedWrites := by
  simp [committedWrites]

@[simp]
theorem committedWrites_afterLock (s : Session W L D) (key : L) :
    (s.afterLock key).committedWrites = s.committedWrites := by
  simp [committedWrites]

@[simp]
theorem committedWrites_afterDraw (s : Session W L D) :
    s.afterDraw.committedWrites = s.committedWrites := rfl

end Session

namespace Program

variable {Db W L D E α β : Type}

/-! ## Weakest preconditions -/

/-- Every way the program can go from session `s`, against committed contents
that satisfy `rely`, meets `guar` at each commit and ends in `post`. -/
def Ensures (S : Store Db W) (rely : Session W L D → Db → Prop) (guar : Session W L D → Prop) :
    Program Db W L D E α → Session W L D → (Session W L D → Except E α → Prop) → Prop
  | ret value, s, post => post s (.ok value)
  | raise error, s, post => post s (.error error)
  | read next, s, post => ∀ db, rely s db → Ensures S rely guar (next (s.view S db)) s post
  | add write next, s, post => Ensures S rely guar next (s.afterAdd write) post
  | flush next, s, post => ∀ db, rely s db →
      match s.flushError S db with
      | none => Ensures S rely guar (next none) s.afterFlush post
      | some error => Ensures S rely guar (next (some error)) (s.afterFailure error) post
  | commit next, s, post => guar s ∧ ∀ db, rely s db →
      match s.flushError S db with
      | none => Ensures S rely guar (next none) s.afterCommit post
      | some error => Ensures S rely guar (next (some error)) (s.afterFailure error) post
  | rollback next, s, post => Ensures S rely guar next s.afterRollback post
  | lock key next, s, post => Ensures S rely guar next (s.afterLock key) post
  | draw next, s, post => Ensures S rely guar (next (s.draws 0)) s.afterDraw post

section Rules

variable {S : Store Db W} {rely : Session W L D → Db → Prop} {guar : Session W L D → Prop}
  {s : Session W L D}

@[simp]
theorem ensures_ret {value : α} {post : Session W L D → Except E α → Prop} :
    (ret value).Ensures S rely guar s post ↔ post s (.ok value) := Iff.rfl

@[simp]
theorem ensures_raise {error : E} {post : Session W L D → Except E α → Prop} :
    (raise error).Ensures S rely guar s post ↔ post s (.error error) := Iff.rfl

@[simp]
theorem ensures_read {next : Db → Program Db W L D E α}
    {post : Session W L D → Except E α → Prop} :
    (read next).Ensures S rely guar s post ↔
      ∀ db, rely s db → (next (s.view S db)).Ensures S rely guar s post := Iff.rfl

@[simp]
theorem ensures_query {q : Db → α} {post : Session W L D → Except E α → Prop} :
    (query q).Ensures S rely guar s post ↔
      ∀ db, rely s db → post s (.ok (q (s.view S db))) := Iff.rfl

@[simp]
theorem ensures_add {write : W} {next : Program Db W L D E α}
    {post : Session W L D → Except E α → Prop} :
    (add write next).Ensures S rely guar s post ↔
      next.Ensures S rely guar (s.afterAdd write) post := Iff.rfl

@[simp]
theorem ensures_rollback {next : Program Db W L D E α}
    {post : Session W L D → Except E α → Prop} :
    (rollback next).Ensures S rely guar s post ↔
      next.Ensures S rely guar s.afterRollback post := Iff.rfl

@[simp]
theorem ensures_lock {key : L} {next : Program Db W L D E α}
    {post : Session W L D → Except E α → Prop} :
    (lock key next).Ensures S rely guar s post ↔
      next.Ensures S rely guar (s.afterLock key) post := Iff.rfl

@[simp]
theorem ensures_draw {next : D → Program Db W L D E α}
    {post : Session W L D → Except E α → Prop} :
    (draw next).Ensures S rely guar s post ↔
      (next (s.draws 0)).Ensures S rely guar s.afterDraw post := Iff.rfl

/-- A flush: the two outcomes as two obligations. -/
theorem ensures_flush {next : Option DbError → Program Db W L D E α}
    {post : Session W L D → Except E α → Prop} :
    (flush next).Ensures S rely guar s post ↔
      (∀ db, rely s db → s.flushError S db = none →
        (next none).Ensures S rely guar s.afterFlush post) ∧
      (∀ db error, rely s db → s.flushError S db = some error →
        (next (some error)).Ensures S rely guar (s.afterFailure error) post) := by
  constructor
  · intro h
    constructor
    · intro db hdb hnone
      simpa only [hnone] using h db hdb
    · intro db error hdb hsome
      simpa only [hsome] using h db hdb
  · rintro ⟨hnone, hsome⟩ db hdb
    cases herror : s.flushError S db with
    | none => exact hnone db hdb herror
    | some error => exact hsome db error hdb herror

/-- A commit: what is owed, and the two outcomes. -/
theorem ensures_commit {next : Option DbError → Program Db W L D E α}
    {post : Session W L D → Except E α → Prop} :
    (commit next).Ensures S rely guar s post ↔ guar s ∧
      (∀ db, rely s db → s.flushError S db = none →
        (next none).Ensures S rely guar s.afterCommit post) ∧
      (∀ db error, rely s db → s.flushError S db = some error →
        (next (some error)).Ensures S rely guar (s.afterFailure error) post) := by
  constructor
  · rintro ⟨hguar, h⟩
    refine ⟨hguar, ?_, ?_⟩
    · intro db hdb hnone
      simpa only [hnone] using h db hdb
    · intro db error hdb hsome
      simpa only [hsome] using h db hdb
  · rintro ⟨hguar, hnone, hsome⟩
    refine ⟨hguar, fun db hdb => ?_⟩
    cases herror : s.flushError S db with
    | none => exact hnone db hdb herror
    | some error => exact hsome db error hdb herror

/-- Weaken the postcondition. -/
theorem Ensures.mono {p : Program Db W L D E α} {post post' : Session W L D → Except E α → Prop}
    (h : p.Ensures S rely guar s post) (hpost : ∀ s' result, post s' result → post' s' result) :
    p.Ensures S rely guar s post' := by
  induction p generalizing s with
  | ret value | raise error => exact hpost _ _ h
  | read next ih => exact fun db hdb => ih _ (h db hdb)
  | add write next ih | rollback next ih | lock key next ih => exact ih h
  | flush next ih =>
      rw [ensures_flush] at h ⊢
      exact ⟨fun db hdb herror => ih _ (h.1 db hdb herror),
        fun db error hdb herror => ih _ (h.2 db error hdb herror)⟩
  | commit next ih =>
      rw [ensures_commit] at h ⊢
      exact ⟨h.1, fun db hdb herror => ih _ (h.2.1 db hdb herror),
        fun db error hdb herror => ih _ (h.2.2 db error hdb herror)⟩
  | draw next ih => exact ih _ h

/-- Meet fewer contents. -/
theorem Ensures.mono_rely {rely' : Session W L D → Db → Prop} {p : Program Db W L D E α}
    {post : Session W L D → Except E α → Prop} (h : p.Ensures S rely guar s post)
    (hrely : ∀ s db, rely' s db → rely s db) : p.Ensures S rely' guar s post := by
  induction p generalizing s with
  | ret value | raise error => exact h
  | read next ih => exact fun db hdb => ih _ (h db (hrely s db hdb))
  | add write next ih | rollback next ih | lock key next ih => exact ih h
  | flush next ih =>
      rw [ensures_flush] at h ⊢
      exact ⟨fun db hdb herror => ih _ (h.1 db (hrely s db hdb) herror),
        fun db error hdb herror => ih _ (h.2 db error (hrely s db hdb) herror)⟩
  | commit next ih =>
      rw [ensures_commit] at h ⊢
      exact ⟨h.1, fun db hdb herror => ih _ (h.2.1 db (hrely s db hdb) herror),
        fun db error hdb herror => ih _ (h.2.2 db error (hrely s db hdb) herror)⟩
  | draw next ih => exact ih _ h

/-- Two postconditions at once. -/
theorem Ensures.and {guar' : Session W L D → Prop} {p : Program Db W L D E α}
    {post post' : Session W L D → Except E α → Prop} (h : p.Ensures S rely guar s post)
    (h' : p.Ensures S rely guar' s post') :
    p.Ensures S rely guar s fun s' result => post s' result ∧ post' s' result := by
  induction p generalizing s with
  | ret value | raise error => exact ⟨h, h'⟩
  | read next ih => exact fun db hdb => ih _ (h db hdb) (h' db hdb)
  | add write next ih | rollback next ih | lock key next ih => exact ih h h'
  | flush next ih =>
      rw [ensures_flush] at h h' ⊢
      exact ⟨fun db hdb herror => ih _ (h.1 db hdb herror) (h'.1 db hdb herror),
        fun db error hdb herror => ih _ (h.2 db error hdb herror) (h'.2 db error hdb herror)⟩
  | commit next ih =>
      rw [ensures_commit] at h h' ⊢
      exact ⟨h.1, fun db hdb herror => ih _ (h.2.1 db hdb herror) (h'.2.1 db hdb herror),
        fun db error hdb herror => ih _ (h.2.2 db error hdb herror) (h'.2.2 db error hdb herror)⟩
  | draw next ih => exact ih _ h h'

/-- Every program takes its draws in order. -/
theorem ensures_draws (p : Program Db W L D E α) :
    p.Ensures S rely (fun _ => True) s fun s' _ => ∃ k, ∀ n, s'.draws n = s.draws (n + k) := by
  induction p generalizing s with
  | ret value | raise error => exact ⟨0, fun _ => rfl⟩
  | read next ih => exact fun db _ => ih _
  | add write next ih | rollback next ih | lock key next ih => exact ih
  | flush next ih => exact ensures_flush.mpr ⟨fun _ _ _ => ih _, fun _ _ _ _ => ih _⟩
  | commit next ih =>
      exact ensures_commit.mpr ⟨trivial, fun _ _ _ => ih _, fun _ _ _ _ => ih _⟩
  | draw next ih =>
      refine Ensures.mono (ih _ (s := s.afterDraw)) ?_
      rintro s' result ⟨k, hk⟩
      exact ⟨k + 1, hk⟩

/-- Every program meets its injected failures in order. -/
theorem ensures_faults (p : Program Db W L D E α) :
    p.Ensures S rely (fun _ => True) s fun s' _ => ∃ k, ∀ n, s'.faults n = s.faults (n + k) := by
  have hone : ∀ (t s' : Session W L D) (result : Except E α),
      (∃ k, ∀ n, s'.faults n = t.faults (n + k + 1)) → ∃ k, ∀ n, s'.faults n = t.faults (n + k) := by
    rintro t s' result ⟨k, hk⟩
    exact ⟨k + 1, hk⟩
  induction p generalizing s with
  | ret value | raise error => exact ⟨0, fun _ => rfl⟩
  | read next ih => exact fun db _ => ih _
  | add write next ih | rollback next ih | lock key next ih => exact ih
  | flush next ih =>
      exact ensures_flush.mpr ⟨fun _ _ _ => (ih none).mono (hone s),
        fun _ error _ _ => (ih (some error)).mono (hone s)⟩
  | commit next ih =>
      exact ensures_commit.mpr ⟨trivial, fun _ _ _ => (ih none).mono (hone s),
        fun _ error _ _ => (ih (some error)).mono (hone s)⟩
  | draw next ih => exact ih _

/-- Sequential composition. -/
theorem ensures_bind {p : Program Db W L D E α} {f : α → Program Db W L D E β}
    {post : Session W L D → Except E β → Prop} :
    (p.bind f).Ensures S rely guar s post ↔
      p.Ensures S rely guar s fun s' result =>
        match result with
        | .ok value => (f value).Ensures S rely guar s' post
        | .error error => post s' (.error error) := by
  induction p generalizing s with
  | ret value | raise error => exact Iff.rfl
  | read next ih => exact forall₂_congr fun db _ => ih _
  | add write next ih | rollback next ih | lock key next ih => exact ih
  | flush next ih =>
      simp only [bind, ensures_flush]
      exact and_congr (forall₃_congr fun _ _ _ => ih _) (forall₄_congr fun _ _ _ _ => ih _)
  | commit next ih =>
      simp only [bind, ensures_commit]
      exact and_congr_right fun _ =>
        and_congr (forall₃_congr fun _ _ _ => ih _) (forall₄_congr fun _ _ _ _ => ih _)
  | draw next ih => exact ih _

/-- Composition with an intermediate condition for the first part. -/
theorem Ensures.bind {p : Program Db W L D E α} {f : α → Program Db W L D E β}
    {M : Session W L D → Except E α → Prop} {post : Session W L D → Except E β → Prop}
    (hp : p.Ensures S rely guar s M)
    (hok : ∀ s' value, M s' (.ok value) → (f value).Ensures S rely guar s' post)
    (herror : ∀ s' error, M s' (.error error) → post s' (.error error)) :
    (p.bind f).Ensures S rely guar s post := by
  rw [ensures_bind]
  refine hp.mono ?_
  rintro s' (error | value) hmid
  · exact herror s' error hmid
  · exact hok s' value hmid

/-- Handling exceptions. -/
theorem ensures_tryCatch {p : Program Db W L D E α} {handler : E → Program Db W L D E α}
    {post : Session W L D → Except E α → Prop} :
    (p.tryCatch handler).Ensures S rely guar s post ↔
      p.Ensures S rely guar s fun s' result =>
        match result with
        | .ok value => post s' (.ok value)
        | .error error => (handler error).Ensures S rely guar s' post := by
  induction p generalizing s with
  | ret value | raise error => exact Iff.rfl
  | read next ih => exact forall₂_congr fun db _ => ih _
  | add write next ih | rollback next ih | lock key next ih => exact ih
  | flush next ih =>
      simp only [tryCatch, ensures_flush]
      exact and_congr (forall₃_congr fun _ _ _ => ih _) (forall₄_congr fun _ _ _ _ => ih _)
  | commit next ih =>
      simp only [tryCatch, ensures_commit]
      exact and_congr_right fun _ =>
        and_congr (forall₃_congr fun _ _ _ => ih _) (forall₄_congr fun _ _ _ _ => ih _)
  | draw next ih => exact ih _

/-- Handling exceptions, with an intermediate condition for the body. -/
theorem Ensures.tryCatch {p : Program Db W L D E α} {handler : E → Program Db W L D E α}
    {M post : Session W L D → Except E α → Prop}
    (hp : p.Ensures S rely guar s M)
    (hok : ∀ s' value, M s' (.ok value) → post s' (.ok value))
    (herror : ∀ s' error, M s' (.error error) →
      (handler error).Ensures S rely guar s' post) :
    (p.tryCatch handler).Ensures S rely guar s post := by
  rw [ensures_tryCatch]
  refine hp.mono ?_
  rintro s' (error | value) hmid
  · exact herror s' error hmid
  · exact hok s' value hmid

end Rules

/-! ## One operation -/

section Steps

variable {S : Store Db W} {rely : Session W L D → Db → Prop} {guar : Session W L D → Prop}
  {s : Session W L D} {db : Db} {post : Session W L D → Except E α → Prop}

/-- What a program ensures it still ensures after one operation. -/
theorem Ensures.advance {p p' : Program Db W L D E α} {s' : Session W L D} {db' : Db}
    (h : p.Ensures S rely guar s post) (hdb : rely s db)
    (hstep : p.advance S s db = some (p', s', db')) : p'.Ensures S rely guar s' post := by
  cases p with
  | ret value | raise error => cases hstep
  | read next => cases hstep; exact h db hdb
  | add write next | rollback next | lock key next | draw next => cases hstep; exact h
  | flush next =>
      rw [ensures_flush] at h
      simp only [Program.advance] at hstep
      cases herror : s.flushError S db with
      | none => rw [herror] at hstep; cases hstep; exact h.1 db hdb herror
      | some error => rw [herror] at hstep; cases hstep; exact h.2 db error hdb herror
  | commit next =>
      rw [ensures_commit] at h
      simp only [Program.advance] at hstep
      cases herror : s.flushError S db with
      | none => rw [herror] at hstep; cases hstep; exact h.2.1 db hdb herror
      | some error => rw [herror] at hstep; cases hstep; exact h.2.2 db error hdb herror

/-- At a commit the guarantee holds. -/
theorem Ensures.of_commit {next : Option DbError → Program Db W L D E α}
    (h : (commit next).Ensures S rely guar s post) : guar s := h.1

end Steps

/-! ## A call that runs alone -/

/-- The only committed contents a session that runs alone can meet. -/
def alone (S : Store Db W) (start : Db) (s : Session W L D) (db : Db) : Prop :=
  db = S.applyAll s.committedWrites start

@[simp]
theorem alone_start {S : Store Db W} {start : Db} {draws : ℕ → D}
    {faults : ℕ → Option DbError} {db : Db} :
    alone S start (Session.start draws faults : Session W L D) db ↔ db = start := Iff.rfl

/-- Running alone ends as ensured, and leaves exactly the committed writes. -/
theorem Ensures.exec {S : Store Db W} {start : Db} {guar : Session W L D → Prop}
    {p : Program Db W L D E α} {s : Session W L D} {db : Db}
    {post : Session W L D → Except E α → Prop}
    (h : p.Ensures S (alone S start) guar s post) (hdb : alone S start s db) :
    post (p.exec S s db).session (p.exec S s db).result ∧
      alone S start (p.exec S s db).session (p.exec S s db).db := by
  induction p generalizing s db with
  | ret value | raise error => exact ⟨h, hdb⟩
  | read next ih => exact ih _ (h db hdb) hdb
  | add write next ih => exact ih h hdb
  | flush next ih =>
      rw [ensures_flush] at h
      simp only [Program.exec]
      cases herror : s.flushError S db with
      | none => exact ih _ (h.1 db hdb herror) hdb
      | some error =>
          refine ih _ (h.2 db error hdb herror) ?_
          simpa [alone] using hdb
  | commit next ih =>
      rw [ensures_commit] at h
      simp only [Program.exec]
      cases herror : s.flushError S db with
      | none =>
          refine ih _ (h.2.1 db hdb herror) ?_
          rw [alone] at hdb ⊢
          rw [Session.committedWrites_afterCommit, Store.applyAll_append, ← hdb]
      | some error =>
          refine ih _ (h.2.2 db error hdb herror) ?_
          simpa [alone] using hdb
  | rollback next ih =>
      refine ih h ?_
      simpa [alone] using hdb
  | lock key next ih =>
      refine ih h ?_
      simpa [alone] using hdb
  | draw next ih => exact ih _ h hdb

/-- `Ensures.exec` for a session that begins. -/
theorem Ensures.exec_start {S : Store Db W} {start : Db} {guar : Session W L D → Prop}
    {p : Program Db W L D E α} {draws : ℕ → D} {faults : ℕ → Option DbError}
    {post : Session W L D → Except E α → Prop}
    (h : p.Ensures S (alone S start) guar (Session.start draws faults) post) :
    post (p.exec S (Session.start draws faults) start).session
        (p.exec S (Session.start draws faults) start).result ∧
      alone S start (p.exec S (Session.start draws faults) start).session
        (p.exec S (Session.start draws faults) start).db :=
  h.exec rfl

end Program

end Transaction
