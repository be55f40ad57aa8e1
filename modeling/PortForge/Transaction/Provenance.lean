/-
# Where the contents come from

Each session of a system writes for the call it serves. What is on file was there at the
start, or was brought by a write that some session has committed, and that write is one
its call may make.
-/

import PortForge.Transaction.Arrivals

namespace Transaction

variable {ι Db W L D E α R : Type} {S : Store Db W}

/-- What the session may add, has added and has committed are writes of the given kind. -/
structure Program.Keeps (P : W → Prop) (p : Program Db W L D E α) (s : Session W L D) :
    Prop where
  adds : p.Adds P
  batch : ∀ write ∈ s.batch, P write
  committed : ∀ write ∈ s.committedWrites, P write

/-- What one operation commits was in the session's batch. -/
theorem Program.mem_committedWrites_advance {p p' : Program Db W L D E α} {s s' : Session W L D}
    {db db' : Db} (hstep : p.advance S s db = some (p', s', db')) {write : W}
    (hwrite : write ∈ s'.committedWrites) : write ∈ s.committedWrites ∨ write ∈ s.batch := by
  cases p with
  | ret value | raise error => cases hstep
  | flush next =>
      simp only [Program.advance] at hstep
      cases herror : s.flushError S db <;> rw [herror] at hstep <;> cases hstep
      · exact .inl (by simpa using hwrite)
      · exact .inl (by simpa using hwrite)
  | commit next =>
      simp only [Program.advance] at hstep
      cases herror : s.flushError S db <;> rw [herror] at hstep <;> cases hstep
      · simpa using hwrite
      · exact .inl (by simpa using hwrite)
  | _ => cases hstep; exact .inl (by simpa using hwrite)

theorem Program.Keeps.advance {P : W → Prop} {p p' : Program Db W L D E α} {s s' : Session W L D}
    {db db' : Db} (h : p.Keeps P s) (hstep : p.advance S s db = some (p', s', db')) :
    p'.Keeps P s' := by
  obtain ⟨hadds, hbatch⟩ := h.adds.advance h.batch hstep
  refine ⟨hadds, hbatch, fun write hwrite => ?_⟩
  rcases Program.mem_committedWrites_advance hstep hwrite with hold | hnew
  · exact h.committed write hold
  · exact h.batch write hnew

theorem Program.Keeps.close {P : W → Prop} {p : Program Db W L D E α} {s : Session W L D}
    (h : p.Keeps P s) : p.Keeps P s.close := by
  refine ⟨h.adds, by simp, fun write hwrite => h.committed write ?_⟩
  rwa [Session.committedWrites, Session.close_journal] at hwrite

/-- What a session has committed in the end is of the kind. -/
theorem Program.Keeps.ensures {P : W → Prop} {p : Program Db W L D E α} {s : Session W L D}
    {rely : Session W L D → Db → Prop} (h : p.Keeps P s) :
    p.Ensures S rely (fun _ => True) s fun s' _ => ∀ write ∈ s'.committedWrites, P write := by
  obtain ⟨hadds, hbatch, hcommitted⟩ := h
  induction p generalizing s with
  | ret value | raise error => exact hcommitted
  | read next ih => exact fun db _ => ih _ (hadds _) hbatch hcommitted
  | add write next ih =>
      refine ih hadds.2 (fun other hother => ?_) (by simpa using hcommitted)
      rw [Session.afterAdd_batch, List.mem_append, List.mem_singleton] at hother
      rcases hother with hold | rfl
      · exact hbatch other hold
      · exact hadds.1
  | flush next ih =>
      rw [Program.ensures_flush]
      exact ⟨fun _ _ _ => ih _ (hadds _) (by simpa using hbatch) (by simpa using hcommitted),
        fun _ _ _ _ => ih _ (hadds _) (by simp [Session.batch]) (by simpa using hcommitted)⟩
  | commit next ih =>
      rw [Program.ensures_commit]
      refine ⟨trivial, fun _ _ _ => ih _ (hadds _) (by simp [Session.batch]) fun write hwrite => ?_,
        fun _ _ _ _ => ih _ (hadds _) (by simp [Session.batch]) (by simpa using hcommitted)⟩
      rw [Session.committedWrites_afterCommit, List.mem_append] at hwrite
      exact hwrite.elim (hcommitted write) (hbatch write)
  | rollback next ih => exact ih hadds (by simp [Session.batch]) (by simpa using hcommitted)
  | lock key next ih => exact ih hadds hbatch (by simpa using hcommitted)
  | draw next ih => exact ih _ (hadds _) hbatch hcommitted

namespace System

variable {P : ι → W → Prop} {σ σ₀ : System ι Db W L D E α} {i : ι}
  {allowed : System ι Db W L D E α → ι → Prop}

/-- Every session writes what its call may write. -/
def WritesOf (P : ι → W → Prop) (σ : System ι Db W L D E α) : Prop :=
  ∀ i, (σ.program i).Keeps (P i) (σ.session i)

theorem start_writesOf {db : Db} {program : ι → Program Db W L D E α} {draws : ι → ℕ → D}
    (h : ∀ i, (program i).Adds (P i)) : (start db program draws).WritesOf P :=
  fun i => ⟨h i, by simp [start, Session.start, Session.batch], by simp [start]⟩

variable [DecidableEq ι]

theorem WritesOf.move (h : σ.WritesOf P) (k : ι) : (σ.move S k).WritesOf P := by
  intro i
  by_cases hik : i = k
  · subst hik
    cases hstep : (σ.program i).advance S (σ.session i) σ.db with
    | none =>
        obtain ⟨hprogram, hsession, -⟩ := move_of_finished hstep
        rw [hprogram, hsession]
        exact (h i).close
    | some after =>
        obtain ⟨hprogram, hsession, -⟩ := move_of_advance hstep
        rw [hprogram, hsession]
        exact (h i).advance hstep
  · rw [move_program_of_ne hik, move_session_of_ne hik]
    exact h i

/-- What a session has committed stays committed. -/
theorem committedWrites_move (S : Store Db W) (σ : System ι Db W L D E α) (k i : ι) :
    ∃ later, ((σ.move S k).session i).committedWrites =
      (σ.session i).committedWrites ++ later := by
  by_cases hik : i = k
  · subst hik
    cases hstep : (σ.program i).advance S (σ.session i) σ.db with
    | none =>
        refine ⟨[], ?_⟩
        rw [(move_of_finished hstep).2.1, Session.committedWrites, Session.close_journal,
          List.append_nil, Session.committedWrites]
    | some after =>
        rw [(move_of_advance hstep).2.1]
        exact Program.committedWrites_advance hstep
  · exact ⟨[], by rw [move_session_of_ne hik, List.append_nil]⟩

/-- A move commits the batch of the session that moves, or it leaves the contents and what
every session has committed. -/
theorem move_commits (S : Store Db W) (σ : System ι Db W L D E α) (k : ι) :
    ((σ.move S k).db = σ.db ∧
      ∀ i, ((σ.move S k).session i).committedWrites = (σ.session i).committedWrites) ∨
    ∃ next, σ.program k = .commit next ∧ (σ.move S k).program k = next none ∧
      ((σ.move S k).session k).committedWrites =
        (σ.session k).committedWrites ++ (σ.session k).batch ∧
      (σ.move S k).db = S.applyAll (σ.session k).batch σ.db := by
  have hkept (hdb : (σ.move S k).db = σ.db)
      (hsame : ((σ.move S k).session k).committedWrites = (σ.session k).committedWrites) :
      (σ.move S k).db = σ.db ∧
        ∀ i, ((σ.move S k).session i).committedWrites = (σ.session i).committedWrites := by
    refine ⟨hdb, fun i => ?_⟩
    by_cases hik : i = k
    · rw [hik, hsame]
    · rw [move_session_of_ne hik]
  cases hstep : (σ.program k).advance S (σ.session k) σ.db with
  | none =>
      obtain ⟨-, hsession, hdb⟩ := move_of_finished hstep
      exact .inl (hkept hdb (by rw [hsession]; rfl))
  | some after =>
      obtain ⟨p, s, db⟩ := after
      obtain ⟨hprogram, hsession, hdb⟩ := move_of_advance hstep
      rw [← hsession, ← hdb, ← hprogram] at hstep
      cases hp : σ.program k with
      | ret value => rw [hp] at hstep; cases hstep
      | raise error => rw [hp] at hstep; cases hstep
      | flush next =>
          rw [hp] at hstep
          simp only [Program.advance] at hstep
          cases herror : (σ.session k).flushError S σ.db <;> rw [herror] at hstep <;>
            injection hstep with hstep <;> injection hstep with _ hstep <;>
            injection hstep with hs hd
          · exact .inl (hkept hd.symm (by rw [← hs]; simp))
          · exact .inl (hkept hd.symm (by rw [← hs]; simp))
      | commit next =>
          rw [hp] at hstep
          simp only [Program.advance] at hstep
          cases herror : (σ.session k).flushError S σ.db <;> rw [herror] at hstep <;>
            injection hstep with hstep <;> injection hstep with hn hstep <;>
            injection hstep with hs hd
          · exact .inr ⟨next, rfl, hn.symm, by rw [← hs]; simp, hd.symm⟩
          · exact .inl (hkept hd.symm (by rw [← hs]; simp))
      | _ =>
          rw [hp] at hstep
          injection hstep with hstep
          injection hstep with _ hstep
          injection hstep with hs hd
          exact .inl (hkept hd.symm (by simp [← hs]))

theorem mem_committedWrites_move {write : W} (h : write ∈ (σ.session i).committedWrites) (k : ι) :
    write ∈ ((σ.move S k).session i).committedWrites := by
  obtain ⟨later, hlater⟩ := committedWrites_move S σ k i
  rw [hlater]
  exact List.mem_append_left later h

theorem committedWrites_move_ne_nil (h : (σ.session i).committedWrites ≠ []) (k : ι) :
    ((σ.move S k).session i).committedWrites ≠ [] := by
  obtain ⟨later, hlater⟩ := committedWrites_move S σ k i
  rw [hlater]
  exact List.append_ne_nil_of_left_ne_nil h later

end System

/-- What can be on file, and what a write brings onto file: after a write there is on file
what was there before and what the write brings. -/
structure Provenance (S : Store Db W) (R : Type) where
  onFile : Db → R → Prop
  brings : W → R → Prop
  onFile_apply : ∀ write db row, onFile (S.apply write db) row → onFile db row ∨ brings write row

namespace Provenance

variable (V : Provenance S R)

theorem onFile_applyAll {batch : List W} {db : Db} {row : R}
    (h : V.onFile (S.applyAll batch db) row) :
    V.onFile db row ∨ ∃ write ∈ batch, V.brings write row := by
  refine Store.applyAll_induction S
    (motive := fun contents => V.onFile contents row → V.onFile db row ∨
      ∃ write ∈ batch, V.brings write row) .inl (fun write hwrite contents ih hrow => ?_) h
  rcases V.onFile_apply write contents row hrow with hold | hnew
  · exact ih hold
  · exact .inr ⟨write, hwrite, hnew⟩

/-- The row was on file at the start, or some session has committed a write that brings it. -/
def Known (db : Db) (σ : System ι Db W L D E α) (row : R) : Prop :=
  V.onFile db row ∨ ∃ i, ∃ write ∈ (σ.session i).committedWrites, V.brings write row

variable [DecidableEq ι] {V} {σ σ₀ : System ι Db W L D E α} {db : Db} {row : R}

theorem Known.move (h : V.Known db σ row) (k : ι) : V.Known db (σ.move S k) row := by
  rcases h with hstart | ⟨i, write, hwrite, hbrings⟩
  · exact .inl hstart
  · exact .inr ⟨i, write, System.mem_committedWrites_move hwrite k, hbrings⟩

theorem known_move (h : ∀ row, V.onFile σ.db row → V.Known db σ row) (k : ι)
    (hrow : V.onFile (σ.move S k).db row) : V.Known db (σ.move S k) row := by
  rcases System.move_db S σ k with hsame | ⟨next, -, -, -, hcommitted, hdb⟩
  · rw [hsame] at hrow
    exact (h row hrow).move k
  · rw [hdb] at hrow
    rcases V.onFile_applyAll hrow with hold | ⟨write, hwrite, hbrings⟩
    · exact (h row hold).move k
    · refine .inr ⟨k, write, ?_, hbrings⟩
      rw [hcommitted, Session.committedWrites_afterCommit]
      exact List.mem_append_right _ hwrite

end Provenance

end Transaction
