/-
# Calls that do all their work under one lock

A family of calls serialises when each of them decides and writes only while it
holds one common lock, and releases that lock by nothing but the end of its
transaction. `LockedCalls` packages what is asked of the calls: in front of the
lock at most one check, whose outcome no later commit reverses; behind it reads
and flushes, then one commit, then nothing that writes.

The result is a simulation. In every reachable state the committed database is
what the calls that committed would leave if they ran alone, one after another,
in the order in which they obtained the lock (`LockedCalls.serializable`), and a
call that is about to commit has seen exactly what it would have seen alone
(`LockedCalls.commit_eq_exec`).
-/

import PortForge.Transaction.Interleaving

namespace Transaction

namespace Program

variable {Db W L D E α β : Type}

/-- In front of the lock there is at most one check: where `ready` fails the
call gives up, and where it holds the rest is `body` under the lock. The call may also
give up at once. -/
def Guarded (key : L) (ready : Db → Prop) (p body : Program Db W L D E α) : Prop :=
  (p = lock key body ∧ ∀ db, ready db) ∨
    (∃ next, p = read next ∧ (∀ db, ready db → next db = lock key body) ∧
      ∀ db, ¬ ready db → ∃ error, next db = raise error) ∨
    (∃ error, p = raise error) ∧ ∀ db, ¬ ready db

/-- A guarded call that finds the check satisfied runs like its body under the
lock. -/
theorem Guarded.exec {S : Store Db W} {key : L} {ready : Db → Prop}
    {p body : Program Db W L D E α} (h : p.Guarded key ready body) {s : Session W L D} {db : Db}
    (hs : s.flushed = []) (hready : ready db) :
    p.exec S s db = body.exec S (s.afterLock key) db := by
  rcases h with ⟨rfl, -⟩ | ⟨next, rfl, hyes, -⟩ | ⟨-, hnever⟩
  · rfl
  · simp only [Program.exec, Session.view_of_flushed_nil S hs, hyes db hready]
  · exact (hnever db hready).elim

/-- Running alone only adds to the journal. -/
theorem journal_subset_exec (S : Store Db W) (p : Program Db W L D E α) (s : Session W L D)
    (db : Db) : s.journal ⊆ (p.exec S s db).session.journal := by
  have happend : ∀ {t : Session W L D} {event : Event W L} {journal},
      t.journal ++ [event] ⊆ journal → t.journal ⊆ journal :=
    fun h _ hold => h (List.mem_append_left _ hold)
  induction p generalizing s db with
  | ret value | raise error => exact List.Subset.refl _
  | read next ih => exact ih _ s db
  | add write next ih => exact ih (s.afterAdd write) db
  | flush next ih =>
      simp only [Program.exec]
      cases s.flushError S db with
      | none => exact ih _ s.afterFlush db
      | some error => exact happend (ih _ (s.afterFailure error) db)
  | commit next ih =>
      simp only [Program.exec]
      cases s.flushError S db with
      | none => exact happend (ih _ s.afterCommit _)
      | some error => exact happend (ih _ (s.afterFailure error) db)
  | rollback next ih => exact happend (ih s.afterRollback db)
  | lock key next ih => exact happend (ih (s.afterLock key) db)
  | draw next ih => exact ih _ s.afterDraw db

end Program

/-! ## Calls under one lock -/

/-- A family of calls that decide and write under one common lock only. -/
structure LockedCalls {Db W : Type} (S : Store Db W) (ι L D E α : Type) where
  /-- The lock. -/
  key : L
  /-- The calls. -/
  program : ι → Program Db W L D E α
  /-- What each call does once it has the lock. -/
  body : ι → Program Db W L D E α
  /-- What each call checks in front of the lock. -/
  ready : ι → Db → Prop
  /-- What the calls write. -/
  writes : W → Prop
  guarded : ∀ i, (program i).Guarded key (ready i) (body i)
  locked : ∀ i, (body i).Locked
  adds : ∀ i, (program i).Adds writes
  ready_apply : ∀ i write db, writes write → ready i db → ready i (S.apply write db)

namespace LockedCalls

variable {ι Db W L D E α : Type} {S : Store Db W} (C : LockedCalls S ι L D E α)

/-- The session of call `i` at its beginning. -/
def fresh (draws : ι → ℕ → D) (i : ι) : Session W L D := Session.start (draws i) fun _ => none

/-- The database after the given calls ran alone, one after another. -/
def serial (draws : ι → ℕ → D) (calls : List ι) (db : Db) : Db :=
  calls.foldl (fun contents i => ((C.program i).exec S (fresh draws i) contents).db) db

@[simp]
theorem serial_nil (draws : ι → ℕ → D) (db : Db) : C.serial draws [] db = db := rfl

theorem serial_append_singleton (draws : ι → ℕ → D) (calls : List ι) (i : ι) (db : Db) :
    C.serial draws (calls ++ [i]) db =
      ((C.program i).exec S (fresh draws i) (C.serial draws calls db)).db := by
  simp [serial]

/-- The calls that committed, in the order in which they obtained the lock. -/
def commitOrder (σ : System ι Db W L D E α) : List ι :=
  (σ.acquired.map Prod.fst).filter fun i => (σ.session i).hasCommitted

/-- Where a call can stand. -/
inductive Phase (draws : ι → ℕ → D) (σ : System ι Db W L D E α) (i : ι) : Prop
  | /-- It has not begun. -/
    waiting (hprogram : σ.program i = C.program i) (hsession : σ.session i = fresh draws i)
      (hnew : i ∉ σ.acquired.map Prod.fst)
  | /-- Its check succeeded and still would. -/
    cleared (hprogram : σ.program i = .lock C.key (C.body i))
      (hsession : σ.session i = fresh draws i) (hready : C.ready i σ.db)
      (hnew : i ∉ σ.acquired.map Prod.fst)
  | /-- It holds the lock, was the last to obtain it, and has seen what it would
    have seen alone on the present contents. -/
    inside (hlocked : (σ.program i).Locked) (hheld : C.key ∈ (σ.session i).held)
      (hcommitted : (σ.session i).hasCommitted = false)
      (hexec : (σ.program i).exec S (σ.session i) σ.db =
        (C.program i).exec S (fresh draws i) σ.db)
      (hlast : ∃ earlier, σ.acquired = earlier ++ [(i, C.key)] ∧ i ∉ earlier.map Prod.fst)
  | /-- Its transaction is over. -/
    done (hquiet : (σ.program i).Quiet) (hheld : (σ.session i).held = [])
      (hflushed : (σ.session i).flushed = [])

/-- The simulation invariant: every call is in one of its phases, and the
committed database is the serial one. -/
structure Serialized (draws : ι → ℕ → D) (db₀ : Db) (σ : System ι Db W L D E α) : Prop where
  phase : ∀ i, C.Phase draws σ i
  db_eq : σ.db = C.serial draws (commitOrder σ) db₀
  exclusive : σ.Exclusive

variable {C} {draws : ι → ℕ → D} {db₀ : Db} {σ : System ι Db W L D E α}

theorem serialized_start (C : LockedCalls S ι L D E α) (draws : ι → ℕ → D) (db₀ : Db) :
    C.Serialized draws db₀ (System.start db₀ C.program draws) where
  phase i := .waiting rfl rfl (by simp [System.start])
  db_eq := rfl
  exclusive := System.start_exclusive

/-- A move that commits nothing and takes no lock leaves the serial order. -/
private theorem commitOrder_of_unchanged {σ τ : System ι Db W L D E α}
    (hacquired : τ.acquired = σ.acquired)
    (hcommitted : ∀ i, (τ.session i).hasCommitted = (σ.session i).hasCommitted) :
    commitOrder τ = commitOrder σ := by
  simp [commitOrder, hacquired, hcommitted]

variable [DecidableEq ι]

/-- Another call's move that leaves the database and the lock order alone
leaves a call in its phase. -/
private theorem Phase.frame {i k : ι} (hphase : C.Phase draws σ i) (hne : i ≠ k)
    (hdb : (σ.move S k).db = σ.db) (hacquired : (σ.move S k).acquired = σ.acquired) :
    C.Phase draws (σ.move S k) i := by
  have hprogram := System.move_program_of_ne (S := S) (σ := σ) hne
  have hsession := System.move_session_of_ne (S := S) (σ := σ) hne
  cases hphase with
  | waiting hp hs hnew =>
      exact .waiting (hprogram.trans hp) (hsession.trans hs) (by rwa [hacquired])
  | cleared hp hs hready hnew =>
      exact .cleared (hprogram.trans hp) (hsession.trans hs) (by rwa [hdb]) (by rwa [hacquired])
  | inside hlocked hheld hcommitted hexec hlast =>
      refine .inside ?_ ?_ ?_ ?_ ?_
      · rwa [hprogram]
      · rwa [hsession]
      · rwa [hsession]
      · rwa [hprogram, hsession, hdb]
      · rwa [hacquired]
  | done hquiet hheld hflushed =>
      exact .done (by rwa [hprogram]) (by rwa [hsession]) (by rwa [hsession])

/-- The step of a call that neither takes the lock nor commits keeps the
invariant, once its own next phase is known. -/
private theorem Serialized.of_own_phase {k : ι} (hσ : C.Serialized draws db₀ σ)
    (hown : C.Phase draws (σ.move S k) k) (hdb : (σ.move S k).db = σ.db)
    (hacquired : (σ.move S k).acquired = σ.acquired)
    (hcommitted : ((σ.move S k).session k).hasCommitted = (σ.session k).hasCommitted)
    (hexclusive : (σ.move S k).Exclusive) : C.Serialized draws db₀ (σ.move S k) where
  phase i := by
    by_cases hik : i = k
    · rw [hik]
      exact hown
    · exact (hσ.phase i).frame hik hdb hacquired
  db_eq := by
    rw [hdb, hσ.db_eq]
    congr 1
    symm
    apply commitOrder_of_unchanged hacquired
    intro i
    by_cases hik : i = k
    · rw [hik]
      exact hcommitted
    · rw [System.move_session_of_ne hik]
  exclusive := hexclusive

/-- Obtaining the lock keeps the invariant. -/
private theorem Serialized.enter {k : ι} (hσ : C.Serialized draws db₀ σ)
    (hprogram : σ.program k = .lock C.key (C.body k)) (hsession : σ.session k = fresh draws k)
    (hready : C.ready k σ.db) (hnew : k ∉ σ.acquired.map Prod.fst)
    (hfree : ¬ σ.Blocked S k) (hexclusive : (σ.move S k).Exclusive) :
    C.Serialized draws db₀ (σ.move S k) := by
  have hstep : (σ.program k).advance S (σ.session k) σ.db =
      some (C.body k, (σ.session k).afterLock C.key, σ.db) := by
    rw [hprogram]
    rfl
  obtain ⟨hprogram', hsession', hdb⟩ := System.move_of_advance hstep
  have hacquired : (σ.move S k).acquired = σ.acquired ++ [(k, C.key)] :=
    System.move_acquired_of_lock hprogram
  have hnobody : ∀ i, i ≠ k → C.key ∉ (σ.session i).held := by
    intro i hik hheld
    apply hfree
    rw [System.Blocked, hprogram]
    exact ⟨i, hik, hheld⟩
  have hfresh : ((σ.move S k).session k).hasCommitted = false := by
    rw [hsession', hsession]
    rfl
  refine ⟨fun i => ?_, ?_, hexclusive⟩
  · by_cases hik : i = k
    · subst hik
      refine .inside ?_ ?_ hfresh ?_ ⟨σ.acquired, hacquired, hnew⟩
      · rw [hprogram']
        exact C.locked i
      · rw [hsession']
        exact List.mem_cons_self
      · rw [hprogram', hsession', hdb, hsession, (C.guarded i).exec rfl hready]
    · have hprogramᵢ := System.move_program_of_ne (S := S) (σ := σ) hik
      have hsessionᵢ := System.move_session_of_ne (S := S) (σ := σ) hik
      have hmem : i ∉ (σ.move S k).acquired.map Prod.fst ↔ i ∉ σ.acquired.map Prod.fst := by
        rw [hacquired, List.map_append, List.mem_append]
        simp [hik]
      cases hσ.phase i with
      | waiting hp hs hnew =>
          exact .waiting (hprogramᵢ.trans hp) (hsessionᵢ.trans hs) (hmem.mpr hnew)
      | cleared hp hs hr hnew =>
          exact .cleared (hprogramᵢ.trans hp) (hsessionᵢ.trans hs) (by rwa [hdb]) (hmem.mpr hnew)
      | inside _ hheld _ _ _ => exact (hnobody i hik hheld).elim
      | done hquiet hheld hflushed =>
          exact .done (by rwa [hprogramᵢ]) (by rwa [hsessionᵢ]) (by rwa [hsessionᵢ])
  · -- The newcomer has committed nothing, so the serial order is the old one.
    have horder : commitOrder (σ.move S k) = commitOrder σ := by
      simp only [commitOrder, hacquired, List.map_append, List.filter_append, List.map_cons,
        List.map_nil, List.filter_cons, hfresh, List.filter_nil, Bool.false_eq_true, if_false,
        List.append_nil]
      apply List.filter_congr
      intro i hi
      have hik : i ≠ k := fun h => hnew (h ▸ hi)
      rw [System.move_session_of_ne hik]
    rw [hdb, horder, hσ.db_eq]

/-- A successful commit appends the call to the serial order. -/
private theorem Serialized.commit {k : ι} {next : Option DbError → Program Db W L D E α}
    (hσ : C.Serialized draws db₀ σ) (hwrites : σ.Writes C.writes)
    (hprogram : σ.program k = .commit next)
    (hexec : (σ.program k).exec S (σ.session k) σ.db = (C.program k).exec S (fresh draws k) σ.db)
    (hheld : C.key ∈ (σ.session k).held)
    (hlast : ∃ earlier, σ.acquired = earlier ++ [(k, C.key)] ∧ k ∉ earlier.map Prod.fst)
    (hcommitted : (σ.session k).hasCommitted = false)
    (hquiet : (next none).Quiet) (herror : (σ.session k).flushError S σ.db = none)
    (hexclusive : (σ.move S k).Exclusive) : C.Serialized draws db₀ (σ.move S k) := by
  have hstep : (σ.program k).advance S (σ.session k) σ.db =
      some (next none, (σ.session k).afterCommit, S.applyAll (σ.session k).batch σ.db) := by
    rw [hprogram]
    simp only [Program.advance, herror]
  obtain ⟨hprogram', hsession', hdb⟩ := System.move_of_advance hstep
  have hacquired : (σ.move S k).acquired = σ.acquired := by
    apply System.move_acquired_of_not_lock
    intro key rest hlock
    rw [hprogram] at hlock
    cases hlock
  refine ⟨fun i => ?_, ?_, hexclusive⟩
  · by_cases hik : i = k
    · subst hik
      refine .done ?_ ?_ ?_
      · rwa [hprogram']
      · rw [hsession']
        rfl
      · rw [hsession']
        rfl
    · have hprogramᵢ := System.move_program_of_ne (S := S) (σ := σ) hik
      have hsessionᵢ := System.move_session_of_ne (S := S) (σ := σ) hik
      cases hσ.phase i with
      | waiting hp hs hnew =>
          exact .waiting (hprogramᵢ.trans hp) (hsessionᵢ.trans hs) (by rwa [hacquired])
      | cleared hp hs hready hnew =>
          refine .cleared (hprogramᵢ.trans hp) (hsessionᵢ.trans hs) ?_ (by rwa [hacquired])
          rw [hdb]
          apply Store.applyAll_induction S hready
          intro write hwrite contents hcontents
          exact C.ready_apply i write contents ((hwrites k).2 write hwrite) hcontents
      | inside _ hheldᵢ _ _ _ => exact (hik (hσ.exclusive i k C.key hheldᵢ hheld)).elim
      | done hquietᵢ hheldᵢ hflushedᵢ =>
          exact .done (by rwa [hprogramᵢ]) (by rwa [hsessionᵢ]) (by rwa [hsessionᵢ])
  · obtain ⟨earlier, hearlier, hnotin⟩ := hlast
    have hafter : ((σ.move S k).session k).hasCommitted = true := by
      rw [hsession']
      simp [Session.hasCommitted]
    have hsame : (earlier.map Prod.fst).filter
          (fun i => ((σ.move S k).session i).hasCommitted) =
        (earlier.map Prod.fst).filter (fun i => (σ.session i).hasCommitted) := by
      apply List.filter_congr
      intro i hi
      have hik : i ≠ k := fun h => hnotin (h ▸ hi)
      rw [System.move_session_of_ne hik]
    have horder : commitOrder (σ.move S k) = commitOrder σ ++ [k] := by
      simp only [commitOrder, hacquired, hearlier, List.map_append, List.map_cons, List.map_nil,
        List.filter_append, List.filter_cons, List.filter_nil, hafter, hcommitted, if_true,
        Bool.false_eq_true, if_false, List.append_nil, hsame]
    rw [horder, serial_append_singleton, ← hσ.db_eq, ← hexec, Program.exec_of_advance S hstep,
      hquiet.exec_db, hdb]

/-- One step keeps the invariant. -/
theorem Serialized.move {k : ι} (hσ : C.Serialized draws db₀ σ) (hwrites : σ.Writes C.writes)
    (hfree : ¬ σ.Blocked S k) (hexclusive : (σ.move S k).Exclusive) :
    C.Serialized draws db₀ (σ.move S k) := by
  cases hσ.phase k with
  | waiting hprogram hsession hnew =>
      rcases C.guarded k with ⟨hlock, hready⟩ | ⟨next, hread, hyes, hno⟩ | ⟨⟨error, hraise⟩, -⟩
      · exact hσ.enter (hprogram.trans hlock) hsession (hready σ.db) hnew hfree hexclusive
      · have hview : (σ.session k).view S σ.db = σ.db := by
          rw [hsession]
          exact Session.view_of_flushed_nil S rfl σ.db
        have hstep : (σ.program k).advance S (σ.session k) σ.db =
            some (next σ.db, σ.session k, σ.db) := by
          rw [hprogram, hread]
          simp only [Program.advance, hview]
        obtain ⟨hprogram', hsession', hdb⟩ := System.move_of_advance hstep
        have hacquired : (σ.move S k).acquired = σ.acquired := by
          apply System.move_acquired_of_not_lock
          intro key rest hlock
          rw [hprogram, hread] at hlock
          cases hlock
        refine hσ.of_own_phase ?_ hdb hacquired (by rw [hsession']) hexclusive
        by_cases hready : C.ready k σ.db
        · refine .cleared ?_ (hsession'.trans hsession) (by rwa [hdb]) (by rwa [hacquired])
          rw [hprogram', hyes σ.db hready]
        · obtain ⟨error, herror⟩ := hno σ.db hready
          refine .done ?_ ?_ ?_
          · rw [hprogram', herror]
            trivial
          · rw [hsession', hsession]
            rfl
          · rw [hsession', hsession]
            rfl
      · have hquiet : (σ.program k).Quiet := by
          rw [hprogram, hraise]
          trivial
        have hfinished : (σ.program k).advance S (σ.session k) σ.db = none := by
          rw [hprogram, hraise]
          rfl
        obtain ⟨hprogram', hsession', hdb⟩ := System.move_of_finished hfinished
        have hacquired : (σ.move S k).acquired = σ.acquired := by
          apply System.move_acquired_of_not_lock
          intro key rest hlock
          rw [hlock] at hquiet
          exact hquiet
        refine hσ.of_own_phase ?_ hdb hacquired (by rw [hsession']; rfl) hexclusive
        exact .done (by rwa [hprogram']) (by rw [hsession']; rfl) (by rw [hsession']; rfl)
  | cleared hprogram hsession hready hnew =>
      exact hσ.enter hprogram hsession hready hnew hfree hexclusive
  | inside hlocked hheld hcommitted hexec hlast =>
      have hacquired : (σ.move S k).acquired = σ.acquired := by
        apply System.move_acquired_of_not_lock
        intro key rest hlock
        rw [hlock] at hlocked
        exact hlocked
      cases hstep : (σ.program k).advance S (σ.session k) σ.db with
      | none =>
          obtain ⟨hprogram', hsession', hdb⟩ := System.move_of_finished hstep
          refine hσ.of_own_phase ?_ hdb hacquired ?_ hexclusive
          · refine .done ?_ ?_ ?_
            · rw [hprogram']
              exact Program.quiet_of_finished hstep
            · rw [hsession']
              rfl
            · rw [hsession']
              rfl
          · rw [hsession']
            rfl
      | some after =>
          obtain ⟨p, s, db⟩ := after
          obtain ⟨hprogram', hsession', hdb⟩ := System.move_of_advance hstep
          rcases hlocked.advance hstep with
            ⟨hlocked', hheld', hjournal', hdb'⟩ | ⟨hquiet', hheld', hflushed', hrest⟩
          · refine hσ.of_own_phase ?_ (hdb.trans hdb') hacquired ?_ hexclusive
            · refine .inside ?_ ?_ ?_ ?_ (by rwa [hacquired])
              · rwa [hprogram']
              · rwa [hsession', hheld']
              · rw [hsession', Session.hasCommitted, hjournal']
                exact hcommitted
              · rw [hprogram', hsession', hdb, ← Program.exec_of_advance S hstep, hexec, hdb']
            · rw [hsession', Session.hasCommitted, hjournal']
              rfl
          · rcases hrest with ⟨hdb', hcommitted'⟩ | ⟨next, hcommit, hs, hdb'⟩
            · refine hσ.of_own_phase ?_ (hdb.trans hdb') hacquired (by rw [hsession', hcommitted'])
                hexclusive
              exact .done (by rwa [hprogram']) (by rwa [hsession']) (by rwa [hsession'])
            · have herror : (σ.session k).flushError S σ.db = none := by
                rw [hcommit] at hstep
                simp only [Program.advance] at hstep
                cases herror : (σ.session k).flushError S σ.db with
                | none => rfl
                | some error =>
                    rw [herror] at hstep
                    simp only [Option.some.injEq, Prod.mk.injEq] at hstep
                    obtain ⟨-, hfailed, -⟩ := hstep
                    rw [hs] at hfailed
                    have hjournal := congrArg Session.journal hfailed
                    simp at hjournal
              have hquiet : (next none).Quiet := by
                rw [hcommit] at hlocked
                exact hlocked none
              exact hσ.commit hwrites hcommit hexec hheld hlast hcommitted hquiet herror hexclusive
  | done hquiet hheld hflushed =>
      have hacquired : (σ.move S k).acquired = σ.acquired := by
        apply System.move_acquired_of_not_lock
        intro key rest hlock
        rw [hlock] at hquiet
        exact hquiet
      cases hstep : (σ.program k).advance S (σ.session k) σ.db with
      | none =>
          obtain ⟨hprogram', hsession', hdb⟩ := System.move_of_finished hstep
          refine hσ.of_own_phase ?_ hdb hacquired (by rw [hsession']; rfl) hexclusive
          exact .done (by rwa [hprogram']) (by rw [hsession']; rfl) (by rw [hsession']; rfl)
      | some after =>
          obtain ⟨p, s, db⟩ := after
          obtain ⟨hprogram', hsession', hdb⟩ := System.move_of_advance hstep
          obtain ⟨hquiet', hdb'⟩ := hquiet.advance hstep
          obtain ⟨hheld', hflushed', hcommitted'⟩ := hquiet.advance_session hstep
          refine hσ.of_own_phase ?_ (hdb.trans hdb') hacquired (by rw [hsession', hcommitted'])
            hexclusive
          exact .done (by rwa [hprogram']) (by rw [hsession', hheld' hheld])
            (by rw [hsession', hflushed' hflushed])

/-! ## The results -/

variable {allowed : System ι Db W L D E α → ι → Prop}

theorem serialized_of_reachable (C : LockedCalls S ι L D E α)
    (hreach : System.Reachable S allowed (System.start db₀ C.program draws) σ) :
    C.Serialized draws db₀ σ := by
  induction hreach with
  | start => exact serialized_start C draws db₀
  | step hprev hfree hallowed ih =>
      have hwrites := hprev.writes (System.start_writes C.adds)
      exact ih.move hwrites hfree ((hprev.step hfree hallowed).exclusive System.start_exclusive)

/-- The committed database is that of the calls that committed, run one after
another in the order in which they obtained the lock. -/
theorem serializable (C : LockedCalls S ι L D E α)
    (hreach : System.Reachable S allowed (System.start db₀ C.program draws) σ) :
    σ.db = C.serial draws (commitOrder σ) db₀ :=
  (serialized_of_reachable C hreach).db_eq

omit [DecidableEq ι] in
/-- Until its transaction is over, a call is on the way it would take alone on
the present contents. -/
theorem Phase.exec_eq {i : ι} (hphase : C.Phase draws σ i) :
    (σ.program i).exec S (σ.session i) σ.db = (C.program i).exec S (fresh draws i) σ.db ∨
      (σ.program i).Quiet := by
  cases hphase with
  | waiting hprogram hsession _ =>
      rw [hprogram, hsession]
      exact .inl rfl
  | cleared hprogram hsession hready _ =>
      rw [hprogram, hsession, (C.guarded i).exec rfl hready]
      exact .inl rfl
  | inside _ _ _ hexec _ => exact .inl hexec
  | done hquiet _ _ => exact .inr hquiet

/-- A call about to commit has seen what it would have seen alone. -/
theorem commit_eq_exec (C : LockedCalls S ι L D E α)
    (hreach : System.Reachable S allowed (System.start db₀ C.program draws) σ) {i : ι}
    {next : Option DbError → Program Db W L D E α} (hcommit : σ.program i = .commit next) :
    (σ.program i).exec S (σ.session i) σ.db = (C.program i).exec S (fresh draws i) σ.db := by
  rcases ((serialized_of_reachable C hreach).phase i).exec_eq with hexec | hquiet
  · exact hexec
  · rw [hcommit] at hquiet
    exact hquiet.elim

/-- What no call's journal shows when the call runs alone on contents with an
invariant, no call's journal shows in an interleaving. -/
theorem journal_of_reachable (C : LockedCalls S ι L D E α) {motive : Db → Prop}
    (good : ι → Event W L → Prop)
    (hreach : System.Reachable S allowed (System.start db₀ C.program draws) σ)
    (hstart : motive db₀)
    (hkeep : ∀ write contents, C.writes write → motive contents → motive (S.apply write contents))
    (halone : ∀ i db, motive db →
      ∀ event ∈ ((C.program i).exec S (fresh draws i) db).session.journal, good i event)
    (hrollback : ∀ i, good i .rolledBack) (i : ι) :
    ∀ event ∈ (σ.session i).journal, good i event := by
  induction hreach with
  | start =>
      intro event hevent
      simp [System.start, Session.start] at hevent
  | @step σ k hprev hfree hallowed ih =>
      have hdb : motive σ.db := hprev.db_invariant (System.start_writes C.adds) hstart hkeep
      by_cases hik : i = k
      · subst hik
        cases hstep : (σ.program i).advance S (σ.session i) σ.db with
        | none =>
            rw [(System.move_of_finished hstep).2.1, Session.close_journal]
            exact ih
        | some after =>
            obtain ⟨p, s, db⟩ := after
            rw [(System.move_of_advance hstep).2.1]
            rcases ((serialized_of_reachable C hprev).phase i).exec_eq with hexec | hquiet
            · intro event hevent
              apply halone i σ.db hdb
              rw [← hexec, Program.exec_of_advance S hstep]
              exact Program.journal_subset_exec S p s db hevent
            · intro event hevent
              rcases hquiet.advance_journal hstep with hsame | hrolled
              · rw [hsame] at hevent
                exact ih event hevent
              · rw [hrolled, List.mem_append, List.mem_singleton] at hevent
                rcases hevent with hold | rfl
                · exact ih event hold
                · exact hrollback i
      · rw [System.move_session_of_ne hik]
        exact ih

end LockedCalls

end Transaction
