/-
# Sessions that keep out of each other's way

A session reads what others have committed, so its reads belong together only as long as
nobody commits between them. Where a call commits only when no other call is under way,
every call reads one state of the contents: what it ensures alone on that state, it
ensures in the run.
-/

import PortForge.Transaction.Provenance

namespace Transaction

variable {ι Db W L D E α : Type} {S : Store Db W}

/-- Alone, what one operation leaves is what its session has committed. -/
theorem Program.alone_advance {start : Db} {p p' : Program Db W L D E α} {s s' : Session W L D}
    {db db' : Db} (h : Program.alone S start s db)
    (hstep : p.advance S s db = some (p', s', db')) : Program.alone S start s' db' := by
  have hdb : db = S.applyAll s.committedWrites start := h
  cases p with
  | ret value | raise error => cases hstep
  | flush next =>
      simp only [Program.advance] at hstep
      cases herror : s.flushError S db <;> rw [herror] at hstep <;> cases hstep
      · simpa [Program.alone] using hdb
      · simpa [Program.alone] using hdb
  | commit next =>
      simp only [Program.advance] at hstep
      cases herror : s.flushError S db <;> rw [herror] at hstep <;> cases hstep
      · rw [Program.alone, Session.committedWrites_afterCommit, Store.applyAll_append, ← hdb]
      · simpa [Program.alone] using hdb
  | _ => cases hstep; simpa [Program.alone] using hdb

/-- Inside its transaction a program keeps what it has flushed. -/
theorem Program.Locked.advance_flushed {p p' : Program Db W L D E α} {s s' : Session W L D}
    {db db' : Db} (h : p.Locked) (hstep : p.advance S s db = some (p', s', db')) {write : W}
    (hwrite : write ∈ s.flushed) : p'.Quiet ∨ write ∈ s'.flushed := by
  cases p with
  | ret value | raise error => cases hstep
  | flush next =>
      simp only [Program.advance] at hstep
      cases herror : s.flushError S db <;> rw [herror] at hstep <;> cases hstep
      · exact .inr (List.mem_append_left _ hwrite)
      · exact .inl (h.2 _)
  | commit next =>
      simp only [Program.advance] at hstep
      cases herror : s.flushError S db <;> rw [herror] at hstep <;> cases hstep <;>
        exact .inl (h _)
  | rollback next =>
      cases hstep
      exact .inl h
  | lock key next => exact h.elim
  | _ => cases hstep; exact .inr hwrite

/-- A session has pending only writes that its program adds. -/
theorem Program.Adds.advance_pending {P : W → Prop} {p p' : Program Db W L D E α}
    {s s' : Session W L D} {db db' : Db} (h : p.Adds P) (hpending : ∀ write ∈ s.pending, P write)
    (hstep : p.advance S s db = some (p', s', db')) :
    p'.Adds P ∧ ∀ write ∈ s'.pending, P write := by
  cases p with
  | ret value | raise error => cases hstep
  | add write next =>
      cases hstep
      refine ⟨h.2, fun other hother => ?_⟩
      rcases List.mem_append.mp hother with hold | hnew
      · exact hpending other hold
      · rw [List.mem_singleton.mp hnew]
        exact h.1
  | flush next =>
      simp only [Program.advance] at hstep
      cases herror : s.flushError S db <;> rw [herror] at hstep <;> cases hstep <;>
        exact ⟨h _, by simp⟩
  | commit next =>
      simp only [Program.advance] at hstep
      cases herror : s.flushError S db <;> rw [herror] at hstep <;> cases hstep <;>
        exact ⟨h _, by simp⟩
  | rollback next => cases hstep; exact ⟨h, by simp⟩
  | lock key next => cases hstep; exact ⟨h, hpending⟩
  | _ => cases hstep; exact ⟨h _, hpending⟩

/-- What a finished program ensures it ensures when its session is closed. -/
theorem Program.Ensures.close {rely : Session W L D → Db → Prop} {guar : Session W L D → Prop}
    {p : Program Db W L D E α} {s : Session W L D} {post : Session W L D → Except E α → Prop}
    (h : p.Ensures S rely guar s post) (hfinished : p.Finished)
    (hclose : ∀ s result, post s result → post s.close result) :
    p.Ensures S rely guar s.close post := by
  cases p with
  | ret value | raise error => exact hclose s _ h
  | _ => exact hfinished.elim

namespace System

/-- The call has not begun, or is over. -/
def Idle (σ : System ι Db W L D E α) [DecidableEq ι] (i : ι) : Prop :=
  σ.history.count i = 0 ∨ (σ.program i).Finished

/-- A call commits only when no other call is under way. -/
def commitsAlone [DecidableEq ι] (σ : System ι Db W L D E α) (i : ι) : Prop :=
  (∃ next, σ.program i = .commit next) → ∀ j, j ≠ i → σ.Idle j

variable [DecidableEq ι] {program : ι → Program Db W L D E α} {draws : ι → ℕ → D}
  {guar : ι → Db → Session W L D → Prop}
  {post : ι → Db → Session W L D → Except E α → Prop}
  {σ : System ι Db W L D E α} {i : ι}

/-- Where a call stands: it has not begun, or it goes on as it does alone on the contents it
began on, which are still there until it is over. -/
inductive Settled (S : Store Db W) (program : ι → Program Db W L D E α) (draws : ι → ℕ → D)
    (guar : ι → Db → Session W L D → Prop)
    (post : ι → Db → Session W L D → Except E α → Prop)
    (σ : System ι Db W L D E α) (i : ι) : Prop
  | waiting (hsteps : σ.history.count i = 0) (hprogram : σ.program i = program i)
      (hsession : σ.session i = Session.start (draws i) fun _ => none)
  | begun (start : Db) (hsteps : σ.history.count i ≠ 0)
      (hensures : (σ.program i).Ensures S (Program.alone S start) (guar i start) (σ.session i)
        (post i start))
      (halone : (σ.program i).Finished ∨ Program.alone S start (σ.session i) σ.db)

/-- A call that moves goes on as it does alone on the contents it began on. -/
theorem Settled.advance
    (hspec : ∀ i db, (program i).Ensures S (Program.alone S db) (guar i db)
      (Session.start (draws i) fun _ => none) (post i db))
    (h : Settled S program draws guar post σ i) (hgoing : ¬ (σ.program i).Finished) :
    ∃ start, (σ.program i).Ensures S (Program.alone S start) (guar i start) (σ.session i)
      (post i start) ∧ Program.alone S start (σ.session i) σ.db := by
  cases h with
  | waiting hsteps hprogram hsession =>
      rw [hprogram, hsession]
      exact ⟨σ.db, hspec i σ.db, rfl⟩
  | begun start _ hensures halone => exact ⟨start, hensures, halone.resolve_left hgoing⟩

theorem finished_of_advance {p : Program Db W L D E α} {s : Session W L D} {db : Db}
    (h : p.advance S s db = none) : p.Finished := by
  rcases Program.eq_of_advance_eq_none h with ⟨value, rfl⟩ | ⟨error, rfl⟩
  · trivial
  · trivial

theorem not_finished_of_advance {p p' : Program Db W L D E α} {s s' : Session W L D} {db db' : Db}
    (h : p.advance S s db = some (p', s', db')) : ¬ p.Finished := by
  cases p <;> first | exact id | cases h

/-- One move keeps every call where it stands alone. -/
theorem settled_move
    (hspec : ∀ i db, (program i).Ensures S (Program.alone S db) (guar i db)
      (Session.start (draws i) fun _ => none) (post i db))
    (hclose : ∀ i db s result, post i db s result → post i db s.close result)
    (h : ∀ i, Settled S program draws guar post σ i) {k : ι} (hallowed : σ.commitsAlone k) (i : ι) :
    Settled S program draws guar post (σ.move S k) i := by
  by_cases hik : i = k
  · subst hik
    cases hstep : (σ.program i).advance S (σ.session i) σ.db with
    | none =>
        obtain ⟨hprogram, hsession, -⟩ := move_of_finished hstep
        have hfinished := finished_of_advance hstep
        obtain ⟨start, hensures⟩ : ∃ start, (σ.program i).Ensures S (Program.alone S start)
            (guar i start) (σ.session i) (post i start) := by
          cases h i with
          | waiting hsteps hbegin hstart =>
              rw [hbegin, hstart]
              exact ⟨σ.db, hspec i σ.db⟩
          | begun start _ hensures => exact ⟨start, hensures⟩
        refine .begun start (by simp [count_move_history_self]) ?_ (.inl (hprogram ▸ hfinished))
        rw [hprogram, hsession]
        exact hensures.close hfinished (hclose i start)
    | some after =>
        obtain ⟨p, s, db⟩ := after
        obtain ⟨hprogram, hsession, hdb⟩ := move_of_advance hstep
        obtain ⟨start, hensures, halone⟩ := (h i).advance hspec (not_finished_of_advance hstep)
        refine .begun start (by simp [count_move_history_self]) ?_ (.inr ?_)
        · rw [hprogram, hsession]
          exact hensures.advance halone hstep
        · rw [hsession, hdb]
          exact Program.alone_advance halone hstep
  · cases h i with
    | waiting hsteps hprogram hsession =>
        refine .waiting ?_ ?_ ?_
        · rw [count_move_history_of_ne hik, hsteps]
        · rw [move_program_of_ne hik, hprogram]
        · rw [move_session_of_ne hik, hsession]
    | begun start hsteps hensures halone =>
        refine .begun start ?_ ?_ ?_
        · rwa [count_move_history_of_ne hik]
        · rw [move_program_of_ne hik, move_session_of_ne hik]
          exact hensures
        · rw [move_program_of_ne hik, move_session_of_ne hik]
          rcases halone with hfinished | halone
          · exact .inl hfinished
          · rcases move_db S σ k with hsame | ⟨next, hcommit, -⟩
            · rw [hsame]
              exact .inr halone
            · -- A commit finds every other call before its begin or over.
              exact .inl ((hallowed ⟨next, hcommit⟩ i hik).resolve_left hsteps)

/-- In a run whose calls commit alone, every call stands where it stands alone. -/
theorem settled_of_reachable {db : Db}
    (hspec : ∀ i db, (program i).Ensures S (Program.alone S db) (guar i db)
      (Session.start (draws i) fun _ => none) (post i db))
    (hclose : ∀ i db s result, post i db s result → post i db s.close result)
    (hreach : Reachable S commitsAlone (start db program draws) σ) (i : ι) :
    Settled S program draws guar post σ i := by
  induction hreach generalizing i with
  | start => exact .waiting rfl rfl rfl
  | step _ _ hallowed ih => exact settled_move hspec hclose ih hallowed i

end System

/-! ## One row as a lock -/

/-- A row that writes create or change. Two creations wait for each other and so do two changes,
the row is not created twice, and no other write of the run makes it appear or disappear. -/
structure RowLock (S : Store Db W) where
  creates : W → Prop
  changes : W → Prop
  present : Db → Prop
  admits : W → Prop
  waits_creates : ∀ write other, creates write → creates other → S.waits write other = true
  waits_changes : ∀ write other, changes write → changes other → S.waits write other = true
  refuses : ∀ db write, creates write → present db → S.refuses db write ≠ none
  stays : ∀ db write, admits write → present db → present (S.apply write db)
  appears : ∀ db write, admits write → present (S.apply write db) → present db ∨ creates write

namespace RowLock

variable {R : RowLock S} {batch : List W} {db : Db}

/-- The write creates or changes the row. -/
def Touches (R : RowLock S) (write : W) : Prop := R.creates write ∨ R.changes write

theorem stays_applyAll (h : ∀ write ∈ batch, R.admits write) (hpresent : R.present db) :
    R.present (S.applyAll batch db) :=
  Store.applyAll_induction S (motive := R.present) hpresent fun write hwrite contents =>
    R.stays contents write (h write hwrite)

theorem appears_applyAll (h : ∀ write ∈ batch, R.admits write)
    (hpresent : R.present (S.applyAll batch db)) :
    R.present db ∨ ∃ write ∈ batch, R.creates write := by
  refine Store.applyAll_induction S (motive := fun contents => R.present contents →
    R.present db ∨ ∃ write ∈ batch, R.creates write) .inl
    (fun write hwrite contents ih happears => ?_) hpresent
  rcases R.appears contents write (h write hwrite) happears with hold | hcreates
  · exact ih hold
  · exact .inr ⟨write, hwrite, hcreates⟩

/-- Where the row is present, a batch that creates it is refused. -/
theorem absent_of_accepted (h : ∀ write ∈ batch, R.admits write)
    (haccepted : S.refusesAll batch db = none) {write : W} (hwrite : write ∈ batch)
    (hcreates : R.creates write) : ¬ R.present db := by
  induction batch generalizing db with
  | nil => cases hwrite
  | cons first batch ih =>
      obtain ⟨hfirst, hrest⟩ := List.forall_mem_cons.mp h
      obtain ⟨hok, hlater⟩ := (Store.refusesAll_cons_eq_none S).mp haccepted
      intro hpresent
      rcases List.mem_cons.mp hwrite with rfl | hmem
      · exact R.refuses db write hcreates hpresent hok
      · exact ih hrest hlater hmem (R.stays db first hfirst hpresent)

variable {σ : System ι Db W L D E α} {k : ι}

/-- A session changes the row only where it is present, it has created it only where it is not,
and no two sessions hold it. -/
structure Kept (R : RowLock S) (σ : System ι Db W L D E α) : Prop where
  pending : ∀ i, ∀ write ∈ (σ.session i).pending, R.changes write → R.present σ.db
  changed : ∀ i, ∀ write ∈ (σ.session i).flushed, R.changes write → R.present σ.db
  created : ∀ i, ∀ write ∈ (σ.session i).flushed, R.creates write → ¬ R.present σ.db
  apart : ∀ i j, i ≠ j → ∀ write ∈ (σ.session i).flushed, R.Touches write →
    ∀ other ∈ (σ.session j).flushed, ¬ R.Touches other

theorem kept_start {program : ι → Program Db W L D E α} {draws : ι → ℕ → D} :
    R.Kept (System.start db program draws) := by
  constructor <;> simp [System.start, Session.start]

/-- In its turn, a session's writes of the row meet no other session that holds it. -/
theorem Kept.turn (h : R.Kept σ) (hadmits : ∀ write ∈ (σ.session k).batch, R.admits write)
    (hturn : σ.TurnOf S k) (herror : (σ.session k).flushError S σ.db = none) {write : W}
    (hwrite : write ∈ (σ.session k).batch) (htouches : R.Touches write) {j : ι} (hj : j ≠ k)
    {other : W} (hother : other ∈ (σ.session j).flushed) : ¬ R.Touches other := by
  intro hheld
  rcases List.mem_append.mp hwrite with hflushed | hpending
  · exact h.apart k j hj.symm write hflushed htouches other hother hheld
  · have habsent (hcreates : R.creates write) : ¬ R.present σ.db := by
      have haccepted := Session.refusesAll_of_flushError herror
      have hnot := R.absent_of_accepted (fun write hwrite => hadmits write
        (List.mem_append_right _ hwrite)) haccepted hpending hcreates
      exact fun hpresent => hnot (R.stays_applyAll
        (fun write hwrite => hadmits write (List.mem_append_left _ hwrite)) hpresent)
    rcases htouches with hcreates | hchanges <;> rcases hheld with hcreated | hchanged
    · exact hturn j hj write hpending other hother (R.waits_creates _ _ hcreates hcreated)
    · exact habsent hcreates (h.changed j other hother hchanged)
    · exact h.created j other hother hcreated (h.pending k write hpending hchanges)
    · exact hturn j hj write hpending other hother (R.waits_changes _ _ hchanges hchanged)

variable [DecidableEq ι]

/-- One move keeps the lock, where the session that moves adds a change of the row only where
the row is present. -/
theorem Kept.move (h : R.Kept σ) (hadmits : ∀ write ∈ (σ.session k).batch, R.admits write)
    (hfree : ¬ σ.Blocked S k)
    (hpending : ∀ write ∈ ((σ.move S k).session k).pending, R.changes write →
      R.present (σ.move S k).db) : R.Kept (σ.move S k) := by
  have hothers {motive : ι → Session W L D → Prop} (hself : motive k ((σ.move S k).session k))
      (hrest : ∀ i, i ≠ k → motive i (σ.session i)) (i : ι) :
    motive i ((σ.move S k).session i) := by
    by_cases hik : i = k
    · rwa [hik]
    · rw [System.move_session_of_ne hik]
      exact hrest i hik
  -- Two sessions, of which the mover has flushed what is still apart from the others.
  have hapart (hmover : ∀ write ∈ ((σ.move S k).session k).flushed, R.Touches write → ∀ j, j ≠ k →
      ∀ other ∈ (σ.session j).flushed, ¬ R.Touches other) (i j : ι) (hij : i ≠ j) :
      ∀ write ∈ ((σ.move S k).session i).flushed, R.Touches write →
        ∀ other ∈ ((σ.move S k).session j).flushed, ¬ R.Touches other := by
    by_cases hik : i = k
    · subst hik
      rw [System.move_session_of_ne hij.symm]
      exact fun write hwrite htouches => hmover write hwrite htouches j hij.symm
    · rw [System.move_session_of_ne hik]
      by_cases hjk : j = k
      · subst hjk
        exact fun write hwrite htouches other hother hheld =>
          hmover other hother hheld i hij write hwrite htouches
      · rw [System.move_session_of_ne hjk]
        exact h.apart i j hij
  rcases System.move_flushed S σ k with ⟨hdb, hsame⟩ | ⟨hturn, herror, hrest⟩
  · have hsub : ∀ write ∈ ((σ.move S k).session k).flushed, write ∈ (σ.session k).flushed := by
      rcases hsame with hsame | hsame <;> simp [hsame]
    rw [hdb] at hpending
    refine ⟨?_, ?_, ?_, hapart fun write hwrite htouches j hj =>
      h.apart k j hj.symm write (hsub write hwrite) htouches⟩ <;> rw [hdb]
    · exact hothers (motive := fun _ s => ∀ write ∈ s.pending, R.changes write → R.present σ.db)
        hpending fun i _ => h.pending i
    · exact hothers (motive := fun _ s => ∀ write ∈ s.flushed, R.changes write → R.present σ.db)
        (fun write hwrite => h.changed k write (hsub write hwrite)) fun i _ => h.changed i
    · exact hothers (motive := fun _ s => ∀ write ∈ s.flushed, R.creates write → ¬ R.present σ.db)
        (fun write hwrite => h.created k write (hsub write hwrite)) fun i _ => h.created i
  · have hexcludes (write : W) (hwrite : write ∈ (σ.session k).batch) (htouches : R.Touches write)
        (j : ι) (hj : j ≠ k) : ∀ other ∈ (σ.session j).flushed, ¬ R.Touches other :=
      fun _ hother => h.turn hadmits (hturn hfree) herror hwrite htouches hj hother
    rcases hrest with ⟨hdb, hflushed⟩ | ⟨hdb, hflushed⟩
    · rw [hdb] at hpending
      refine ⟨?_, ?_, ?_, hapart fun write hwrite htouches j hj =>
        hexcludes write (hflushed ▸ hwrite) htouches j hj⟩ <;> rw [hdb]
      · exact hothers (motive := fun _ s => ∀ write ∈ s.pending, R.changes write → R.present σ.db)
          hpending fun i _ => h.pending i
      · refine hothers (motive := fun _ s => ∀ write ∈ s.flushed, R.changes write → R.present σ.db)
          (fun write hwrite hchanges => ?_) fun i _ => h.changed i
        rw [hflushed] at hwrite
        rcases List.mem_append.mp hwrite with hold | hnew
        · exact h.changed k write hold hchanges
        · exact h.pending k write hnew hchanges
      · refine hothers (motive := fun _ s => ∀ write ∈ s.flushed, R.creates write →
          ¬ R.present σ.db) (fun write hwrite hcreates hpresent => ?_) fun i _ => h.created i
        rw [hflushed] at hwrite
        rcases List.mem_append.mp hwrite with hold | hnew
        · exact h.created k write hold hcreates hpresent
        · exact R.absent_of_accepted (fun write hwrite => hadmits write
            (List.mem_append_right _ hwrite)) (Session.refusesAll_of_flushError herror) hnew hcreates
            (R.stays_applyAll (fun write hwrite => hadmits write
              (List.mem_append_left _ hwrite)) hpresent)
    · have hstays : R.present σ.db → R.present (σ.move S k).db := by
        rw [hdb]
        exact R.stays_applyAll hadmits
      refine ⟨?_, ?_, ?_, hapart fun write hwrite => by simp [hflushed] at hwrite⟩
      · exact hothers (motive := fun _ s => ∀ write ∈ s.pending, R.changes write →
          R.present (σ.move S k).db) hpending fun i _ write hwrite hchanges =>
            hstays (h.pending i write hwrite hchanges)
      · exact hothers (motive := fun _ s => ∀ write ∈ s.flushed, R.changes write →
          R.present (σ.move S k).db) (by simp [hflushed]) fun i _ write hwrite hchanges =>
            hstays (h.changed i write hwrite hchanges)
      · refine hothers (motive := fun _ s => ∀ write ∈ s.flushed, R.creates write →
          ¬ R.present (σ.move S k).db) (by simp [hflushed]) fun i hik write hwrite hcreates => ?_
        rw [hdb]
        intro hpresent
        rcases R.appears_applyAll hadmits hpresent with hold | ⟨other, hother, hcreated⟩
        · exact h.created i write hwrite hcreates hold
        · exact hexcludes other hother (.inl hcreated) i hik write hwrite (.inl hcreates)

end RowLock

end Transaction
