/-
# Inserting the rows of a bundle

The rows of a bundle carry no address, so the unique constraint of the reservations
does not cover them. What can still make the database refuse one is an identifier that
is on file, or a failure of its own. An `Untroubled` session meets neither, and the
insertion loop of a bundle is then never refused with an integrity error.
-/

import PortForge.Central.SingleCall

namespace Central

open Transaction

/-! ## Failures -/

/-- The failure is an `ALLOCATION_UNAVAILABLE`. -/
def Failure.Unavailable (failure : Failure) : Prop :=
  ∃ error, failure = .allocation error ∧ error.code = .allocationUnavailable

theorem not_unavailable_db (error : DbError) : ¬ (Failure.db error).Unavailable := by
  rintro ⟨_, ⟨⟩, _⟩

theorem raises_insertBundle (payload : AllocationIn) (allocationId : Uuid)
    (resolved : List (AllocationRequestItem × ℕ)) :
    (insertBundle payload allocationId resolved).Raises
      fun failure => ¬ failure.Unavailable := by
  induction resolved with
  | nil => trivial
  | cons entry resolved ih =>
      apply Program.Raises.bind
      · rintro id (_ | error)
        · exact fun _ _ => trivial
        · exact not_unavailable_db error
      · exact fun _ => ih

/-! ## Sessions without trouble -/

/-- The database injects no integrity failure into the session, and the identifiers the
session will draw are carried by no reservation on file and do not repeat within the
insertion of one bundle, which draws three for every row. -/
structure Untroubled (db : Db) (s : ServiceSession) : Prop where
  faults : ∀ i, s.faults i ≠ some .integrity
  unused : ∀ i, ∀ row ∈ db.reservations, row.id ≠ (s.draws i).uuid
  distinct : ∀ i j, i < j → j < i + 3 * maxBundleSize → (s.draws i).uuid ≠ (s.draws j).uuid

section Insertion

variable {db : Db} {hostId allocationId : Uuid} {left : ℕ} {s : ServiceSession} {α : Type}
  {rely : ServiceSession → Db → Prop}

theorem Untroubled.later {s' : ServiceSession} (h : Untroubled db s) {k l : ℕ}
    (hdraws : ∀ n, s'.draws n = s.draws (n + k)) (hfaults : ∀ n, s'.faults n = s.faults (n + l)) :
    Untroubled db s' := by
  constructor
  · intro i
    rw [hfaults]
    exact h.faults _
  · intro i row hrow
    rw [hdraws]
    exact h.unused _ row hrow
  · intro i j hij hspan
    rw [hdraws, hdraws]
    exact h.distinct _ _ (by omega) (by omega)

/-- No program troubles its session. -/
theorem ensures_untroubled {P : Prop} (h : P → Untroubled db s) (p : Service α) :
    p.Ensures store rely (fun _ => True) s fun s' _ => P → Untroubled db s' := by
  apply ((Program.ensures_draws p).and (Program.ensures_faults p)).mono
  rintro s' outcome ⟨⟨k, hdraws⟩, l, hfaults⟩ hp
  exact (h hp).later hdraws hfaults

/-- The session is inserting the rows of a bundle, with `left` of them left: the bundle's
own row is flushed, and what is not flushed yet are events of the host. -/
structure Filling (db : Db) (hostId allocationId : Uuid) (left : ℕ) (s : ServiceSession) :
    Prop where
  journal : s.committedWrites = []
  host : (s.view store db).hasHost hostId = true
  parent : ∃ allocation ∈ (s.view store db).allocations, allocation.id = allocationId
  waiting : ∀ write ∈ s.pending, ∃ event, write = .insertActivity event ∧ event.hostId = hostId
  faults : ∀ i, s.faults i ≠ some .integrity
  unused : ∀ i < 3 * left, ∀ row ∈ (s.view store db).reservations, row.id ≠ (s.draws i).uuid
  distinct : ∀ i j, i < j → j < 3 * left → (s.draws i).uuid ≠ (s.draws j).uuid

/-- Events of a host on file are never refused. -/
theorem applyAll_events {writes : List Write} {db : Db} (hhost : db.hasHost hostId = true)
    (h : ∀ write ∈ writes, ∃ event, write = .insertActivity event ∧ event.hostId = hostId) :
    store.refusesAll writes db = none ∧
      ∃ activity, store.applyAll writes db = { db with activity := activity } := by
  induction writes generalizing db with
  | nil => exact ⟨rfl, db.activity, rfl⟩
  | cons write writes ih =>
      obtain ⟨event, rfl, hevent⟩ := h write List.mem_cons_self
      have hknown : db.hasHost event.hostId = true := by rw [hevent, hhost]
      have hlogged : (Write.apply (.insertActivity event) db).hasHost hostId = true := hhost
      obtain ⟨hrefused, activity, happly⟩ := ih hlogged fun other hother =>
        h other (List.mem_cons_of_mem _ hother)
      constructor
      · rw [Store.refusesAll_cons_eq_none]
        exact ⟨by simp [store, Write.refused, hknown], hrefused⟩
      · exact ⟨activity, by rw [Store.applyAll_cons, store_apply, happly]; rfl⟩

/-- A row without an address and with a new identifier is accepted. -/
theorem insertReservation_accepted {row : CentralReservation} (hhost : db.hasHost row.hostId = true)
    (hparent : ∃ allocation ∈ db.allocations, some allocation.id = row.allocationId)
    (hid : ∀ old ∈ db.reservations, old.id ≠ row.id) (haddress : row.bindAddress = none) :
    store.refuses db (.insertReservation row) = none := by
  have hany : (db.allocations.any fun allocation => some allocation.id = row.allocationId) =
      true := by
    simpa using hparent
  have hnew : (db.reservations.any fun old => old.id = row.id) = false := by
    simpa using hid
  have hbinding : db.reservations.any row.sameBinding = false := by
    simp [CentralReservation.sameBinding, haddress]
  simp [store, Write.refused, hhost, hany, hnew, hbinding]

/-- One row of the loop. -/
theorem Filling.insert (hs : Filling db hostId allocationId (left + 1) s) {row : CentralReservation}
    (hhost : row.hostId = hostId) (hparent : row.allocationId = some allocationId)
    (haddress : row.bindAddress = none) (hid : row.id = (s.draws 0).uuid) :
    (s.afterDraw.afterAdd (.insertReservation row)).flushError store db ≠ some .integrity ∧
      ∀ event : ActivityEvent, event.hostId = hostId → Filling db hostId allocationId left
        ((s.afterDraw.afterAdd (.insertReservation row)).afterFlush.afterDraw.afterDraw.afterAdd
          (.insertActivity event)) := by
  obtain ⟨hrefused, activity, happly⟩ := applyAll_events hs.host hs.waiting
  have hview : ∀ event, ((s.afterDraw.afterAdd
      (.insertReservation row)).afterFlush.afterDraw.afterDraw.afterAdd
        (.insertActivity event) : ServiceSession).view store db =
          { s.view store db with
            activity := activity
            reservations := (s.view store db).reservations ++ [row] } := by
    intro event
    show store.applyAll (s.afterDraw.afterAdd (.insertReservation row)).batch db = _
    rw [Session.afterAdd_batch, Session.afterDraw_batch, Session.batch, Store.applyAll_append,
      Store.applyAll_append]
    rw [Session.view] at happly
    rw [happly]
    rfl
  constructor
  · rw [Session.flushError]
    split
    · rename_i error hfault
      rw [← hfault]
      exact hs.faults 0
    · have haccepted : store.refusesAll (s.pending ++ [.insertReservation row])
          (s.view store db) = none := by
        rw [Store.refusesAll_append_eq_none, Store.refusesAll_cons_eq_none, happly]
        refine ⟨hrefused, insertReservation_accepted ?_ ?_ ?_ haddress, rfl⟩
        · rw [hhost]
          exact hs.host
        · obtain ⟨allocation, hmem, hsame⟩ := hs.parent
          exact ⟨allocation, hmem, by rw [hsame, hparent]⟩
        · intro old hold
          rw [hid]
          exact hs.unused 0 (by omega) old hold
      have hnone : store.refusesAll (s.afterDraw.afterAdd (.insertReservation row)).pending
          ((s.afterDraw.afterAdd (.insertReservation row)).view store db) = none := haccepted
      rw [hnone]
      simp
  · intro event hevent
    refine ⟨hs.journal, ?_, ?_, ?_, fun i => hs.faults (i + 1), ?_, ?_⟩
    · rw [hview]
      exact hs.host
    · rw [hview]
      exact hs.parent
    · intro write hwrite
      exact ⟨event, List.mem_singleton.mp hwrite, hevent⟩
    · rw [hview]
      intro i hi old hold
      rcases List.mem_append.mp hold with hearlier | hlast
      · exact hs.unused (i + 3) (by omega) old hearlier
      · rw [List.mem_singleton.mp hlast, hid]
        exact hs.distinct 0 (i + 3) (by omega) (by omega)
    · intro i j hij hj
      exact hs.distinct (i + 3) (j + 3) (by omega) (by omega)

/-- The insertion loop is not refused with an integrity error. -/
theorem ensures_insertBundle_filling (payload : AllocationIn)
    (resolved : List (AllocationRequestItem × ℕ))
    (hs : Filling db payload.hostId allocationId resolved.length s) :
    (insertBundle payload allocationId resolved).Ensures store (Program.alone store db)
      (fun _ => True) s fun _ outcome => outcome ≠ .error (.db .integrity) := by
  induction resolved generalizing s with
  | nil => rintro ⟨⟩
  | cons entry resolved ih =>
      have hinsert : (insertReservation payload.hostId entry.2 entry.1.protocol none
          payload.project none (some entry.1.purpose) none none (some allocationId)
          (some entry.1.name)).Ensures store (Program.alone store db) (fun _ => True) s
          fun s' outcome =>
            (∀ row, outcome = .ok row → Filling db payload.hostId allocationId resolved.length s') ∧
              outcome ≠ .error (.db .integrity) := by
        simp only [insertReservation, Program.bind_eq, Program.ensures_bind, ensures_newUuid,
          ensures_add, ensures_flush, ensures_clock, Program.pure_eq_ret, Program.ensures_ret]
        constructor
        · intro contents hcontents _
          constructor
          · rintro row ⟨⟩
            exact (hs.insert rfl rfl rfl rfl).2 _ rfl
          · rintro ⟨⟩
        · intro contents error hcontents herror
          constructor
          · rintro row ⟨⟩
          · intro hintegrity
            cases hintegrity
            obtain rfl := alone_of_journal hs.journal hcontents
            exact (hs.insert rfl rfl rfl rfl).1 herror
      apply Program.Ensures.bind hinsert
      · intro s' row hrow
        exact ih (hrow.1 row rfl)
      · rintro s' error hfailure ⟨⟩
        exact hfailure.2 rfl

/-- Without trouble the handler around the loop has nothing to refuse. -/
theorem ensures_guardedBundle_filling (payload : AllocationIn)
    (resolved : List (AllocationRequestItem × ℕ))
    (hs : Filling db payload.hostId allocationId resolved.length s) :
    ((insertBundle payload allocationId resolved).tryCatch refuseClaimed).Ensures store
      (Program.alone store db) (fun _ => True) s fun _ outcome =>
        ∀ failure, outcome = .error failure → ¬ failure.Unavailable := by
  have hraises : (insertBundle payload allocationId resolved).Ensures store
      (Program.alone store db) (fun _ => True) s _ :=
    (raises_insertBundle payload allocationId resolved).ensures
  apply ((ensures_insertBundle_filling payload resolved hs).and hraises).tryCatch
  · rintro s' value - failure ⟨⟩
  · rintro s' failure ⟨hintegrity, hfailure⟩
    rw [refuseClaimed, if_neg fun heq => hintegrity (congrArg Except.error heq)]
    rintro _ ⟨⟩
    exact hfailure failure rfl

/-- The bundle's own row, after a session that only probed. -/
theorem ensures_insertAllocation_filling (env : Environment) (payload : AllocationIn)
    (hjournal : s.committedWrites = []) (hprobes : ∀ write ∈ s.batch, write.IsProbe)
    (huntroubled : Untroubled db s) (hleft : left ≤ maxBundleSize) :
    (insertAllocation env payload).Ensures store (Program.alone store db) (fun _ => True) s
      fun s' outcome => ∀ allocation, outcome = .ok allocation →
        Filling db payload.hostId allocation.id left s' := by
  simp only [insertAllocation, Program.bind_eq, Program.ensures_bind, ensures_newUuid,
    ensures_serverNow, ensures_add, ensures_flush, Program.pure_eq_ret, Program.ensures_ret]
  constructor
  · rintro contents hcontents hflush allocation ⟨⟩
    obtain rfl := alone_of_journal hjournal hcontents
    obtain ⟨probes, happly⟩ := applyAll_probes hprobes db
    have hrefused := Session.refusesAll_of_flushError hflush
    rw [Session.afterAdd_pending, Store.refusesAll_append_eq_none,
      Store.refusesAll_cons_eq_none] at hrefused
    obtain ⟨-, hnew, -⟩ := hrefused
    have hseen : store.applyAll s.pending (s.view store db) =
        { db with probes := db.probes ++ probes } := by
      rw [Session.view, ← Store.applyAll_append]
      exact happly
    have hknown := (insertAllocation_accepted.mp hnew).1
    have hview : ∀ row, ((s.afterDraw.afterDraw.afterAdd (.insertAllocation row)).afterFlush :
        ServiceSession).view store db =
          { db with probes := db.probes ++ probes, allocations := db.allocations ++ [row] } := by
      intro row
      simp only [Session.view, Session.afterFlush_flushed, Session.afterAdd_batch,
        Session.afterDraw_batch, Store.applyAll_append]
      rw [happly]
      rfl
    refine ⟨hjournal, ?_, ?_, ?_, fun i => huntroubled.faults (i + 1), ?_, ?_⟩
    · rw [hview]
      have hhosts : (store.applyAll s.pending (s.view store db)).hasHost payload.hostId = true :=
        hknown
      rw [hseen] at hhosts
      exact hhosts
    · rw [hview]
      exact ⟨_, List.mem_append_right _ List.mem_cons_self, rfl⟩
    · intro write hwrite
      cases hwrite
    · rw [hview]
      exact fun i _ => huntroubled.unused (i + 2)
    · intro i j hij hj
      exact huntroubled.distinct (i + 2) (j + 2) (by omega) (by omega)
  · rintro contents error - - allocation ⟨⟩

end Insertion

end Central
