/-
# Programs that keep to their own

What a program adds depends on what it reads. `Confined` is the rule for a program whose
writes are its own as long as the contents it is shown are in order and the values it draws
are its own: the identifiers it updates rows by come from rows it was shown. If the writes
of all programs keep the contents in order, they are in order in every reachable state, and
what every program's own writes keep is kept.
-/

import PortForge.Transaction.Interleaving

namespace Transaction

variable {Db W L D E α β : Type}

namespace Program

variable {S : Store Db W} {sees : Db → Prop} {own : D → Prop} {P : W → Prop}
  {post post' : α → Prop} {p p' : Program Db W L D E α}

/-- As long as it `sees` the contents in order and draws its `own` values, the program adds
only writes of `P`, and what it returns is in `post`. -/
def Confined (sees : Db → Prop) (own : D → Prop) (P : W → Prop) (post : α → Prop) :
    Program Db W L D E α → Prop
  | ret value => post value
  | raise _ => True
  | read next => ∀ db, sees db → (next db).Confined sees own P post
  | add write next => P write ∧ next.Confined sees own P post
  | flush next => ∀ outcome, (next outcome).Confined sees own P post
  | commit next => ∀ outcome, (next outcome).Confined sees own P post
  | rollback next => next.Confined sees own P post
  | lock _ next => next.Confined sees own P post
  | draw next => ∀ value, own value → (next value).Confined sees own P post

theorem Confined.bind {f : α → Program Db W L D E β} {post' : β → Prop}
    (h : p.Confined sees own P post) (hf : ∀ value, post value → (f value).Confined sees own P post') :
    (p.bind f).Confined sees own P post' := by
  induction p with
  | ret value => exact hf value h
  | raise error => trivial
  | read next ih => exact fun db hdb => ih db (h db hdb)
  | add write next ih => exact ⟨h.1, ih h.2⟩
  | flush next ih | commit next ih => exact fun outcome => ih outcome (h outcome)
  | rollback next ih | lock key next ih => exact ih h
  | draw next ih => exact fun value hvalue => ih value (h value hvalue)

/-- Fewer contents and fewer draws, and more writes. -/
theorem Confined.weaken {sees' : Db → Prop} {own' : D → Prop} {P' : W → Prop}
    (h : p.Confined sees own P post) (hsees : ∀ db, sees' db → sees db)
    (hown : ∀ value, own' value → own value) (hP : ∀ write, P write → P' write) :
    p.Confined sees' own' P' post := by
  induction p with
  | ret value => exact h
  | raise error => trivial
  | read next ih => exact fun db hdb => ih db (h db (hsees db hdb))
  | add write next ih => exact ⟨hP write h.1, ih h.2⟩
  | flush next ih | commit next ih => exact fun outcome => ih outcome (h outcome)
  | rollback next ih | lock key next ih => exact ih h
  | draw next ih => exact fun value hvalue => ih value (h value (hown value hvalue))

/-- A program whose writes are its own whatever it is shown. -/
theorem Adds.confined (h : p.Adds P) : p.Confined sees own P fun _ => True := by
  induction p with
  | ret value | raise error => trivial
  | read next ih => exact fun db _ => ih db (h db)
  | add write next ih => exact ⟨h.1, ih h.2⟩
  | flush next ih | commit next ih => exact fun outcome => ih outcome (h outcome)
  | rollback next ih | lock key next ih => exact ih h
  | draw next ih => exact fun value _ => ih value (h value)

theorem Observes.confined (h : p.Observes) : p.Confined sees own P fun _ => True :=
  h.adds.confined

/-- The program and its session keep to their own. -/
structure KeepsTo (sees : Db → Prop) (own : D → Prop) (P : W → Prop) (p : Program Db W L D E α)
    (s : Session W L D) : Prop where
  program : p.Confined sees own P fun _ => True
  batch : ∀ write ∈ s.batch, P write
  draws : ∀ n, own (s.draws n)

/-- One operation on contents in order. -/
theorem KeepsTo.advance {s s' : Session W L D} {db db' : Db} (h : p.KeepsTo sees own P s)
    (hview : sees (s.view S db)) (hstep : p.advance S s db = some (p', s', db')) :
    p'.KeepsTo sees own P s' := by
  obtain ⟨hprogram, hbatch, hdraws⟩ := h
  have hnone : ∀ write ∈ ([] : List W), P write := by simp
  cases p with
  | ret value | raise error => cases hstep
  | read next => cases hstep; exact ⟨hprogram _ hview, hbatch, hdraws⟩
  | add write next =>
      cases hstep
      refine ⟨hprogram.2, fun other hother => ?_, hdraws⟩
      rw [Session.batch, Session.afterAdd, ← List.append_assoc, List.mem_append] at hother
      rcases hother with hold | hnew
      · exact hbatch other hold
      · rw [List.mem_singleton.mp hnew]
        exact hprogram.1
  | flush next =>
      simp only [Program.advance] at hstep
      cases herror : s.flushError S db <;> rw [herror] at hstep <;> cases hstep
      · exact ⟨hprogram _, by simpa [Session.batch, Session.afterFlush] using hbatch, hdraws⟩
      · exact ⟨hprogram _, hnone, hdraws⟩
  | commit next =>
      simp only [Program.advance] at hstep
      cases herror : s.flushError S db <;> rw [herror] at hstep <;> cases hstep
      · exact ⟨hprogram _, hnone, hdraws⟩
      · exact ⟨hprogram _, hnone, hdraws⟩
  | rollback next => cases hstep; exact ⟨hprogram, hnone, hdraws⟩
  | lock key next => cases hstep; exact ⟨hprogram, hbatch, hdraws⟩
  | draw next => cases hstep; exact ⟨hprogram _ (hdraws 0), hbatch, fun n => hdraws (n + 1)⟩

end Program

namespace System

variable {ι : Type} {S : Store Db W} {sees : Db → Prop} {own : ι → D → Prop} {P : ι → W → Prop}
  {σ σ₀ : System ι Db W L D E α}

/-- The contents are in order, and every session keeps to its own. -/
structure Confined (sees : Db → Prop) (own : ι → D → Prop) (P : ι → W → Prop)
    (σ : System ι Db W L D E α) : Prop where
  ordered : sees σ.db
  keeps : ∀ i, (σ.program i).KeepsTo sees (own i) (P i) (σ.session i)

theorem confined_start {db : Db} {program : ι → Program Db W L D E α} {draws : ι → ℕ → D}
    (hdb : sees db) (hprogram : ∀ i, (program i).Confined sees (own i) (P i) fun _ => True)
    (hdraws : ∀ i n, own i (draws i n)) : (start db program draws).Confined sees own P :=
  ⟨hdb, fun i => ⟨hprogram i, by simp [start, Session.start, Session.batch], hdraws i⟩⟩

/-- Writes that keep a property of the contents one by one keep it together. -/
theorem applyAll_kept {Q : W → Prop} {motive : Db → Prop}
    (hkeep : ∀ write db, Q write → motive db → motive (S.apply write db)) {writes : List W}
    (hwrites : ∀ write ∈ writes, Q write) {db : Db} (hdb : motive db) :
    motive (S.applyAll writes db) :=
  Store.applyAll_induction S (motive := motive) hdb fun write hwrite contents hcontents =>
    hkeep write contents (hwrites write hwrite) hcontents

variable [DecidableEq ι]

theorem Confined.move (h : σ.Confined sees own P)
    (hkeep : ∀ i write db, P i write → sees db → sees (S.apply write db)) (k : ι) :
    (σ.move S k).Confined sees own P := by
  constructor
  · rcases move_db S σ k with hsame | ⟨next, -, -, -, -, hcommitted⟩
    · rw [hsame]
      exact h.ordered
    · rw [hcommitted]
      exact applyAll_kept (hkeep k) (h.keeps k).batch h.ordered
  · intro i
    by_cases hik : i = k
    · subst hik
      cases hstep : (σ.program i).advance S (σ.session i) σ.db with
      | none =>
          obtain ⟨hprogram, hsession, -⟩ := move_of_finished hstep
          rw [hprogram, hsession]
          exact ⟨(h.keeps i).program, by simp, (h.keeps i).draws⟩
      | some after =>
          obtain ⟨p, s, db⟩ := after
          obtain ⟨hprogram, hsession, -⟩ := move_of_advance hstep
          rw [hprogram, hsession]
          refine (h.keeps i).advance ?_ hstep
          refine applyAll_kept (hkeep i) (fun write hwrite => ?_) h.ordered
          exact (h.keeps i).batch write (List.mem_append_left _ hwrite)
    · rw [move_program_of_ne hik, move_session_of_ne hik]
      exact h.keeps i

/-- What every session's own writes keep of the contents is kept, in any order of steps. -/
theorem Confined.db_invariant {allowed : System ι Db W L D E α → ι → Prop} {motive : Db → Prop}
    (hreach : Reachable S allowed σ₀ σ) (h : σ₀.Confined sees own P)
    (hkeep : ∀ i write db, P i write → sees db → sees (S.apply write db)) (hstart : motive σ₀.db)
    (hmotive : ∀ i write db, P i write → motive db → motive (S.apply write db)) :
    σ.Confined sees own P ∧ motive σ.db := by
  induction hreach with
  | start => exact ⟨h, hstart⟩
  | @step σ k hreach _ _ ih =>
      refine ⟨ih.1.move hkeep k, ?_⟩
      rcases move_db S σ k with hsame | ⟨next, -, -, -, -, hcommitted⟩
      · rw [hsame]
        exact ih.2
      · rw [hcommitted]
        exact applyAll_kept (hmotive k) (ih.1.keeps k).batch ih.2

end System

end Transaction
