/-
# Sessions on contents that drift

Between two operations of a session the others commit, and what they may do to the
contents is a preorder: `drift db later`. A session that has read one thing may rely on
it later as far as the drift keeps it, and what it reads next is read on contents that
have drifted from those of its last operation. `Follows` is the run of a program under
such a drift: it says what is owed at every commit, on the contents of that moment.
`AsksIn` is a program a known number of operations in front of the query it decides by.
-/

import PortForge.Transaction.Interleaving

namespace Transaction

namespace Program

variable {Db W L D E α β : Type}

/-- A step leaves the contents and what the session has committed, or it is a commit that
was accepted. -/
theorem advance_committed {S : Store Db W} {p p' : Program Db W L D E α} {s s' : Session W L D}
    {db db' : Db} (hstep : p.advance S s db = some (p', s', db')) :
    (db' = db ∧ s'.hasCommitted = s.hasCommitted) ∨ ∃ next, p = commit next ∧
      s.flushError S db = none ∧ s' = s.afterCommit ∧ db' = S.applyAll s.batch db := by
  cases p with
  | flush next =>
      simp only [Program.advance] at hstep
      cases herror : s.flushError S db <;> rw [herror] at hstep <;> cases hstep
      · exact .inl ⟨rfl, rfl⟩
      · exact .inl ⟨rfl, by simp [Session.hasCommitted]⟩
  | commit next =>
      simp only [Program.advance] at hstep
      cases herror : s.flushError S db <;> rw [herror] at hstep <;> cases hstep
      · exact .inr ⟨next, rfl, rfl, rfl, rfl⟩
      · exact .inl ⟨rfl, by simp [Session.hasCommitted]⟩
  | rollback next =>
      cases hstep
      exact .inl ⟨rfl, by simp [Session.hasCommitted]⟩
  | lock key next =>
      cases hstep
      exact .inl ⟨rfl, by simp [Session.hasCommitted]⟩
  | _ => cases hstep <;> exact .inl ⟨rfl, rfl⟩

/-- A step that changes the contents is a commit that was accepted. -/
theorem advance_accepted {S : Store Db W} {p p' : Program Db W L D E α} {s s' : Session W L D}
    {db db' : Db} (hstep : p.advance S s db = some (p', s', db')) :
    db' = db ∨ ∃ next, p = commit next ∧ s.flushError S db = none ∧
      db' = S.applyAll s.batch db := by
  rcases advance_committed hstep with ⟨hsame, -⟩ | ⟨next, rfl, haccepted, -, hdb⟩
  · exact .inl hsame
  · exact .inr ⟨next, rfl, haccepted, hdb⟩

/-- However the contents drift from `db` on, as long as the session `sees` them whenever it
moves, every batch the program commits is `good` on the contents it is committed to, and
the program ends in `post`. -/
def Follows (S : Store Db W) (drift : Db → Db → Prop) (sees : Db → Prop)
    (good : Db → List W → Prop) :
    Program Db W L D E α → Session W L D → Db → (Session W L D → Db → Except E α → Prop) → Prop
  | ret value, s, db, post => post s db (.ok value)
  | raise error, s, db, post => post s db (.error error)
  | read next, s, db, post => ∀ later, drift db later → sees later →
      Follows S drift sees good (next (s.view S later)) s later post
  | add write next, s, db, post => Follows S drift sees good next (s.afterAdd write) db post
  | flush next, s, db, post => ∀ later, drift db later → sees later →
      match s.flushError S later with
      | none => Follows S drift sees good (next none) s.afterFlush later post
      | some error => Follows S drift sees good (next (some error)) (s.afterFailure error) later post
  | commit next, s, db, post => ∀ later, drift db later → sees later →
      match s.flushError S later with
      | none => good later s.batch ∧
          Follows S drift sees good (next none) s.afterCommit (S.applyAll s.batch later) post
      | some error => Follows S drift sees good (next (some error)) (s.afterFailure error) later post
  | rollback next, s, db, post => Follows S drift sees good next s.afterRollback db post
  | lock key next, s, db, post => Follows S drift sees good next (s.afterLock key) db post
  | draw next, s, db, post => Follows S drift sees good (next (s.draws 0)) s.afterDraw db post

variable {S : Store Db W} {drift : Db → Db → Prop} {sees : Db → Prop} {good : Db → List W → Prop}
  {s : Session W L D} {db : Db}

/-- The first part of a composition ends where the second takes over. -/
theorem Follows.bind {p : Program Db W L D E α} {f : α → Program Db W L D E β}
    {mid : Session W L D → Db → Except E α → Prop} {post : Session W L D → Db → Except E β → Prop}
    (hp : p.Follows S drift sees good s db mid)
    (hok : ∀ s db value, mid s db (.ok value) → (f value).Follows S drift sees good s db post)
    (herror : ∀ s db error, mid s db (.error error) → post s db (.error error)) :
    (p.bind f).Follows S drift sees good s db post := by
  induction p generalizing s db with
  | ret value => exact hok _ _ _ hp
  | raise error => exact herror _ _ _ hp
  | read next ih => exact fun later hdrift hsees => ih _ (hp later hdrift hsees)
  | add write next ih | rollback next ih | lock key next ih => exact ih hp
  | flush next ih =>
      intro later hdrift hsees
      have hlater := hp later hdrift hsees
      split at hlater
      · exact ih _ hlater
      · exact ih _ hlater
  | commit next ih =>
      intro later hdrift hsees
      have hlater := hp later hdrift hsees
      split at hlater
      · exact ⟨hlater.1, ih _ hlater.2⟩
      · exact ih _ hlater
  | draw next ih => exact ih _ hp

theorem Follows.mono {p : Program Db W L D E α} {post post' : Session W L D → Db →
    Except E α → Prop}
    (h : p.Follows S drift sees good s db post) (hpost : ∀ s db result, post s db result →
      post' s db result) : p.Follows S drift sees good s db post' := by
  rw [← bind_ret p]
  exact h.bind (fun s db value => hpost s db (.ok value))
    fun s db error => hpost s db (.error error)

/-- A program that follows the contents follows them wherever they have drifted. -/
theorem Follows.drifted {p : Program Db W L D E α} {post : Session W L D → Db → Except E α → Prop}
    {later : Db} (h : p.Follows S drift sees good s db post)
    (htrans : ∀ first second third, drift first second → drift second third → drift first third)
    (hpost : ∀ s result, post s db result → post s later result) (hdrift : drift db later) :
    p.Follows S drift sees good s later post := by
  induction p generalizing s with
  | ret value | raise error => exact hpost _ _ h
  | read next _ | flush next _ | commit next _ =>
      exact fun last hlast => h last (htrans _ _ _ hdrift hlast)
  | add write next ih | rollback next ih | lock key next ih => exact ih h
  | draw next ih => exact ih _ h

/-- One operation on the contents that were followed. -/
theorem Follows.advance {p p' : Program Db W L D E α} {s' : Session W L D} {db' : Db}
    {post : Session W L D → Db → Except E α → Prop} (h : p.Follows S drift sees good s db post)
    (hdrift : drift db db) (hsees : sees db)
    (hstep : p.advance S s db = some (p', s', db')) :
    p'.Follows S drift sees good s' db' post := by
  cases p with
  | ret value | raise error => cases hstep
  | read next => cases hstep; exact h _ hdrift hsees
  | add write next | rollback next | lock key next | draw next => cases hstep; exact h
  | flush next =>
      have hnow := h db hdrift hsees
      simp only [Program.advance] at hstep
      cases herror : s.flushError S db <;> rw [herror] at hstep hnow <;> cases hstep
      · exact hnow
      · exact hnow
  | commit next =>
      have hnow := h db hdrift hsees
      simp only [Program.advance] at hstep
      cases herror : s.flushError S db <;> rw [herror] at hstep hnow <;> cases hstep
      · exact hnow.2
      · exact hnow

/-- What the program commits is good on the contents it is committed to. -/
theorem Follows.good_of_commit {next : Option DbError → Program Db W L D E α}
    {post : Session W L D → Db → Except E α → Prop}
    (h : (commit next).Follows S drift sees good s db post) (hdrift : drift db db) (hsees : sees db)
    (haccepted : s.flushError S db = none) : good db s.batch := by
  have hnow := h db hdrift hsees
  rw [haccepted] at hnow
  exact hnow.1

/-- A quiet program may be followed under every drift. -/
theorem Quiet.follows {p : Program Db W L D E α} (h : p.Quiet) :
    p.Follows S drift sees good s db fun _ _ _ => True := by
  induction p generalizing s db with
  | ret value | raise error => trivial
  | read next ih => exact fun later _ _ => ih _ (h _)
  | add write next ih | flush next ih | commit next ih | lock key next ih => exact h.elim
  | rollback next ih => exact ih h
  | draw next ih => exact ih _ (h _)

/-- What holds of a program's batches by two accounts. -/
theorem Follows.and {good' : Db → List W → Prop} {p : Program Db W L D E α}
    {post post' : Session W L D → Db → Except E α → Prop}
    (h : p.Follows S drift sees good s db post) (h' : p.Follows S drift sees good' s db post') :
    p.Follows S drift sees (fun db batch => good db batch ∧ good' db batch) s db
      fun s db result => post s db result ∧ post' s db result := by
  induction p generalizing s db with
  | ret value | raise error => exact ⟨h, h'⟩
  | read next ih =>
      exact fun later hdrift hsees => ih _ (h later hdrift hsees) (h' later hdrift hsees)
  | add write next ih | rollback next ih | lock key next ih => exact ih h h'
  | flush next ih =>
      intro later hdrift hsees
      have hlater := h later hdrift hsees
      have hlater' := h' later hdrift hsees
      cases herror : s.flushError S later with
      | none =>
          rw [herror] at hlater hlater'
          exact ih _ hlater hlater'
      | some error =>
          rw [herror] at hlater hlater'
          exact ih _ hlater hlater'
  | commit next ih =>
      intro later hdrift hsees
      have hlater := h later hdrift hsees
      have hlater' := h' later hdrift hsees
      cases herror : s.flushError S later with
      | none =>
          rw [herror] at hlater hlater'
          exact ⟨⟨hlater.1, hlater'.1⟩, ih _ hlater.2 hlater'.2⟩
      | some error =>
          rw [herror] at hlater hlater'
          exact ih _ hlater hlater'
  | draw next ih => exact ih _ h h'

/-- `good` may be weakened. -/
theorem Follows.good_mono {good' : Db → List W → Prop} {p : Program Db W L D E α}
    {post : Session W L D → Db → Except E α → Prop} (h : p.Follows S drift sees good s db post)
    (hgood : ∀ db batch, good db batch → good' db batch) :
    p.Follows S drift sees good' s db post := by
  induction p generalizing s db with
  | ret value | raise error => exact h
  | read next ih => exact fun later hdrift hsees => ih _ (h later hdrift hsees)
  | add write next ih | rollback next ih | lock key next ih => exact ih h
  | flush next ih =>
      intro later hdrift hsees
      have hlater := h later hdrift hsees
      split at hlater
      · exact ih _ hlater
      · exact ih _ hlater
  | commit next ih =>
      intro later hdrift hsees
      have hlater := h later hdrift hsees
      split at hlater
      · exact ⟨hgood _ _ hlater.1, ih _ hlater.2⟩
      · exact ih _ hlater
  | draw next ih => exact ih _ h

/-- Every batch of a program consists of writes it may add. -/
theorem Adds.follows {P : W → Prop} {p : Program Db W L D E α} (h : p.Adds P)
    (hbatch : ∀ write ∈ s.batch, P write) :
    p.Follows S drift sees (fun _ batch => ∀ write ∈ batch, P write) s db fun _ _ _ => True := by
  induction p generalizing s db with
  | ret value | raise error => trivial
  | read next ih => exact fun later _ _ => ih _ (h _) hbatch
  | add write next ih =>
      refine ih h.2 fun other hother => ?_
      rw [Session.afterAdd_batch, List.mem_append, List.mem_singleton] at hother
      rcases hother with hold | rfl
      · exact hbatch other hold
      · exact h.1
  | flush next ih =>
      intro later _ _
      split
      · exact ih _ (h _) (by simpa using hbatch)
      · exact ih _ (h _) (by simp [Session.batch])
  | commit next ih =>
      intro later _ _
      split
      · exact ⟨hbatch, ih _ (h _) (by simp [Session.batch])⟩
      · exact ih _ (h _) (by simp [Session.batch])
  | rollback next ih => exact ih h (by simp [Session.batch])
  | lock key next ih => exact ih h hbatch
  | draw next ih => exact ih _ (h _) hbatch

/-- What a program ensures inside its transaction, whatever the contents, it ensures where
they drift. -/
theorem Holding.follows {p : Program Db W L D E α} (h : p.Holding)
    {post : Session W L D → Except E α → Prop}
    (hensures : p.Ensures S (fun _ _ => True) (fun _ => True) s post)
    (hrefl : ∀ db, drift db db)
    (htrans : ∀ first second third, drift first second → drift second third → drift first third) :
    p.Follows S drift sees good s db fun s' later result => drift db later ∧ post s' result := by
  induction p generalizing s db with
  | ret value | raise error => exact ⟨hrefl db, hensures⟩
  | read next ih =>
      intro later hdrift _
      exact (ih _ (h _) (hensures later trivial)).mono fun _ _ _ hend =>
        ⟨htrans _ _ _ hdrift hend.1, hend.2⟩
  | add write next ih => exact ih h hensures
  | flush next ih =>
      intro later hdrift _
      have hlater := hensures later trivial
      cases herror : s.flushError S later with
      | none =>
          rw [herror] at hlater
          exact (ih _ h.1 hlater).mono fun _ _ _ hend => ⟨htrans _ _ _ hdrift hend.1, hend.2⟩
      | some error =>
          rw [herror] at hlater
          exact (ih _ (h.2 _).holding hlater).mono fun _ _ _ hend =>
            ⟨htrans _ _ _ hdrift hend.1, hend.2⟩
  | commit next ih | lock key next ih => exact h.elim
  | rollback next ih => exact ih h.holding hensures
  | draw next ih => exact ih _ (h _) hensures

/-- After `n` queries and draws the program puts the query it decides by, and `decides`
holds of the contents and of what the program does next. It may give up before. -/
def AsksIn (decides : Db → Program Db W L D E α → Prop) : ℕ → Program Db W L D E α → Prop
  | 0, read next => ∀ db, decides db (next db)
  | n + 1, read next => ∀ db, (next db).Quiet ∨ AsksIn decides n (next db)
  | n + 1, draw next => ∀ value, (next value).Quiet ∨ AsksIn decides n (next value)
  | _, _ => False

/-- A query in front. -/
theorem asksIn_query_bind {decides : Db → Program Db W L D E β → Prop} {n : ℕ} {q : Db → α}
    {f : α → Program Db W L D E β} (h : ∀ db, (f (q db)).Quiet ∨ (f (q db)).AsksIn decides n) :
    ((query q).bind f).AsksIn decides (n + 1) := h

/-- The query it decides by. -/
theorem asksIn_zero_query_bind {decides : Db → Program Db W L D E β → Prop} {q : Db → α}
    {f : α → Program Db W L D E β} (h : ∀ db, decides db (f (q db))) :
    ((query q).bind f).AsksIn decides 0 := h

/-- One operation of a program that asks in a known number of operations, in a session
that has flushed nothing. -/
theorem AsksIn.advance {decides : Db → Program Db W L D E α → Prop} {n : ℕ}
    {p p' : Program Db W L D E α} {s' : Session W L D} {db' : Db} (h : p.AsksIn decides n)
    (hflushed : s.flushed = []) (hstep : p.advance S s db = some (p', s', db')) :
    (p'.Quiet ∨ n = 0 ∧ decides db p' ∨ ∃ m, n = m + 1 ∧ p'.AsksIn decides m) ∧
      (∃ draws, s' = { s with draws := draws }) ∧ db' = db := by
  cases n with
  | zero =>
      cases p with
      | read next =>
          cases hstep
          rw [Session.view_of_flushed_nil S hflushed]
          exact ⟨.inr (.inl ⟨rfl, h db⟩), ⟨s.draws, rfl⟩, rfl⟩
      | _ => exact h.elim
  | succ n =>
      cases p with
      | read next =>
          cases hstep
          rw [Session.view_of_flushed_nil S hflushed]
          exact ⟨(h db).imp id fun hasks => .inr ⟨n, rfl, hasks⟩, ⟨s.draws, rfl⟩, rfl⟩
      | draw next =>
          cases hstep
          exact ⟨(h _).imp id fun hasks => .inr ⟨n, rfl, hasks⟩, ⟨_, rfl⟩, rfl⟩
      | _ => exact h.elim

end Program

end Transaction
