/-
# What a release removes

A release deletes the listed reservations of its allocation, one event for each, and
nothing else; a second release changes nothing. It is complete exactly when the listing
shows every reservation of the allocation: the listing is cut off at 1000 rows of the
host, in the order of the ports.
-/

import PortForge.Central.Releases
import PortForge.Central.SingleCall

namespace Central

open Transaction

/-! ## The writes of a release -/

/-- Released reservations, each with the id and the time of its event. -/
abbrev Releases := List (CentralReservation × Uuid × ℤ)

/-- The deletions and the events of released reservations. -/
def releaseWrites (hostId : Uuid) (released : Releases) : List Write :=
  released.flatMap fun entry =>
    [.deleteReservation entry.1.id,
      .insertActivity (reservationReleased hostId entry.1 entry.2.1 entry.2.2)]

/-- The listed reservations of an allocation. -/
def ownRows (allocationId : Uuid) (rows : List CentralReservation) : List CentralReservation :=
  rows.filter fun row => row.allocationId = some allocationId

section Rules

variable {rely : ServiceSession → Db → Prop} {guar : ServiceSession → Prop} {s : ServiceSession}

/-- A source of timestamps: it gives a time and draws at most. -/
def Stamps (timestamp : Service ℤ) : Prop :=
  ∀ (rely : ServiceSession → Db → Prop) (guar : ServiceSession → Prop) (s : ServiceSession),
    timestamp.Ensures store rely guar s fun s' result =>
      ∃ now draws, result = .ok now ∧ s' = { s with draws := draws }

theorem stamps_clock : Stamps clock := fun _ _ s => ⟨_, s.afterDraw.draws, rfl, rfl⟩

theorem stamps_ret (now : ℤ) : Stamps (.ret now) := fun _ _ s => ⟨now, s.draws, rfl, rfl⟩

/-- The loop stages the deletions and events of the allocation's rows, and no others. -/
theorem ensures_releaseRows (hostId allocationId : Uuid) {timestamp : Service ℤ}
    (hstamps : Stamps timestamp) (rows : List CentralReservation) :
    (releaseRows hostId allocationId timestamp rows).Ensures store rely guar s fun s' result =>
      result = .ok () ∧ ∃ released : Releases, released.map Prod.fst = ownRows allocationId rows ∧
        ∃ draws, s' =
          { s with pending := s.pending ++ releaseWrites hostId released, draws := draws } := by
  induction rows generalizing s with
  | nil => exact ⟨rfl, [], rfl, s.draws, by simp [releaseWrites]⟩
  | cons row rows ih =>
      rw [releaseRows]
      by_cases hown : row.allocationId = some allocationId
      · have hfilter : ownRows allocationId (row :: rows) = row :: ownRows allocationId rows := by
          simp [ownRows, hown]
        rw [if_pos hown]
        simp only [Program.bind_eq, Program.ensures_bind, ensures_add, ensures_newUuid]
        refine (hstamps rely guar _).mono ?_
        rintro _ _ ⟨now, draws, rfl, rfl⟩
        refine Program.Ensures.mono ih ?_
        rintro _ _ ⟨rfl, released, hfst, draws', rfl⟩
        refine ⟨rfl, (row, (draws 0).uuid, now) :: released, ?_, draws', ?_⟩
        · rw [List.map_cons, hfst, hfilter]
        · simp [releaseWrites, Session.afterAdd, Session.afterDraw]
      · have hfilter : ownRows allocationId (row :: rows) = ownRows allocationId rows := by
          simp [ownRows, hown]
        rw [if_neg hown, hfilter]
        exact ih

end Rules

/-- What the writes of a release leave. -/
theorem applyAll_releaseWrites (hostId : Uuid) (released : Releases) (db : Db) :
    store.applyAll (releaseWrites hostId released) db =
      { db with
        reservations := db.reservations.filter fun row => row.id ∉ released.map fun entry =>
            entry.1.id
        activity := db.activity ++ released.map fun entry =>
          reservationReleased hostId entry.1 entry.2.1 entry.2.2 } := by
  induction released generalizing db with
  | nil => simp [releaseWrites]
  | cons entry released ih =>
      have hcons : releaseWrites hostId (entry :: released) =
          .deleteReservation entry.1.id ::
            .insertActivity (reservationReleased hostId entry.1 entry.2.1 entry.2.2) ::
              releaseWrites hostId released := rfl
      rw [hcons, Store.applyAll_cons, Store.applyAll_cons, ih]
      have hfilter : ∀ row ∈ db.reservations,
          (decide (row.id ∉ released.map fun entry => entry.1.id) && decide (row.id ≠ entry.1.id)) =
            decide (row.id ∉ entry.1.id :: released.map fun entry => entry.1.id) := by
        intro row _
        rw [Bool.eq_iff_iff]
        simp only [Bool.and_eq_true, decide_eq_true_eq, List.mem_cons, not_or]
        exact and_comm
      simp only [store_apply, Write.apply, List.filter_filter, List.map_cons, List.append_assoc,
        List.singleton_append]
      rw [List.filter_congr hfilter]

/-! ## What a release that returns has done -/

/-- A release that returned: it found the allocation released and wrote nothing, or it
committed the deletion of the listed reservations of the allocation, with their events. -/
inductive Releasing (db : Db) (allocation : Allocation) : List Write → Prop
  | already (hstatus : allocation.status = .released) : Releasing db allocation []
  | now (hstatus : allocation.status = .active) (released : Releases) (releasedAt : ℤ)
      (hreleased : released.map Prod.fst =
        ownRows allocation.id (db.listReservations allocation.hostId 1000)) :
      Releasing db allocation
        (releaseWrites allocation.hostId released ++ [.releaseAllocation allocation.id releasedAt])

theorem eq_active_of_ne_released {status : AllocationStatus} (h : status ≠ .released) :
    status = .active := by
  cases status with
  | active => rfl
  | released => exact (h rfl).elim

/-- Deletions are accepted, and so are events on a known host. -/
theorem accepted_release {hostId : Uuid} (released : Releases) (allocationId : Uuid)
    (releasedAt : ℤ) {db : Db} (hhost : db.hasHost hostId = true) :
    store.refusesAll
      (releaseWrites hostId released ++ [.releaseAllocation allocationId releasedAt]) db =
          none := by
  induction released generalizing db with
  | nil => rfl
  | cons entry released ih =>
      have hcons : releaseWrites hostId (entry :: released) ++
          [.releaseAllocation allocationId releasedAt] =
          .deleteReservation entry.1.id ::
            .insertActivity (reservationReleased hostId entry.1 entry.2.1 entry.2.2) ::
              (releaseWrites hostId released ++ [.releaseAllocation allocationId releasedAt]) := rfl
      have hevent : store.refuses (store.apply (.deleteReservation entry.1.id) db)
          (.insertActivity (reservationReleased hostId entry.1 entry.2.1 entry.2.2)) = none :=
        if_neg (not_not_intro hhost)
      rw [hcons, Store.refusesAll_cons_eq_none, Store.refusesAll_cons_eq_none]
      exact ⟨rfl, hevent, ih hhost⟩

/-- The transaction of a release that runs alone. -/
theorem ensures_releaseLocked (db : Db) (allocation : Allocation)
    (hstatus : allocation.status = .active) {guar : ServiceSession → Prop} {s : ServiceSession}
    (hbatch : s.batch = []) (hcommitted : s.committedWrites = []) (hguar : ∀ s, guar s) :
    (releaseLocked allocation).Ensures store (Program.alone store db) guar s fun s' result =>
      (result = .ok () → s'.flushed = [] ∧ Releasing db allocation s'.committedWrites) ∧
        (s.faults 0 = none → db.hasHost allocation.hostId = true → result = .ok ()) := by
  obtain ⟨hflushed, hpending⟩ := List.append_eq_nil_iff.mp hbatch
  simp only [releaseLocked, Program.bind_eq, Program.ensures_bind, ensures_select]
  rintro seen hseen
  rw [Program.alone, hcommitted, Store.applyAll_nil] at hseen
  rw [Session.view_of_flushed_nil store hflushed, hseen]
  refine (ensures_releaseRows _ _ stamps_clock _).mono ?_
  rintro _ _ ⟨rfl, released, hfst, draws, rfl⟩
  simp only [ensures_clock, ensures_add, ensures_commit]
  have hsame : Session.committedWrites { s with
      pending := s.pending ++ releaseWrites allocation.hostId released, draws := draws } = [] :=
    hcommitted
  refine ⟨hguar _, fun contents _ _ => ⟨fun _ => ⟨rfl, ?_⟩, fun _ _ => trivial⟩,
    fun contents error hcontents herror => ⟨fun h => (by cases h), fun hfaults hhost => ?_⟩⟩
  · rw [Session.committedWrites_afterCommit, Session.committedWrites_afterAdd,
      Session.committedWrites_afterDraw, Session.afterAdd_batch, Session.afterDraw_batch, hsame,
      Session.batch, hflushed, hpending]
    exact .now hstatus released _ hfst
  · -- Without a fault of the database the commit is accepted.
    have hpresent : contents = db := by
      rw [Program.alone, Session.committedWrites_afterAdd, Session.committedWrites_afterDraw,
        hsame] at hcontents
      exact hcontents
    have haccepted := accepted_release released allocation.id (draws 0).now hhost
    simp only [Session.flushError, Session.afterAdd_faults, Session.afterDraw_faults, hfaults,
      Session.afterAdd_pending, Session.afterDraw_pending, Session.view, Session.afterAdd_flushed,
      Session.afterDraw_flushed, hflushed, hpending, hpresent, Store.applyAll_nil,
      List.nil_append, haccepted] at herror
    cases herror

/-- A release that runs alone on `db` and returns. -/
theorem releasing_of_returns (env : Environment) (db : Db) (allocationId : Uuid)
    (draws : ℕ → Draw) (faults : ℕ → Option DbError) {out : AllocationOut}
    (hreturns : ((releaseAllocation env allocationId).exec store (Session.start draws faults)
      db).result = .ok out) :
    ∃ allocation writes, db.getAllocation allocationId = some allocation ∧
      Releasing db allocation writes ∧
        ((releaseAllocation env allocationId).exec store (Session.start draws faults) db).db =
          store.applyAll writes db := by
  have hensures : (releaseAllocation env allocationId).Ensures store (Program.alone store db)
      (fun _ => True) (Session.start draws faults) fun s' result => ∀ out, result = .ok out →
        ∃ allocation, db.getAllocation allocationId = some allocation ∧
          Releasing db allocation s'.committedWrites := by
    simp only [releaseAllocation, Program.bind_eq, Program.ensures_bind, ensures_select]
    rintro seen rfl
    cases hget : seen.getAllocation allocationId with
    | none =>
        have hview : (Session.start draws faults : ServiceSession).view store seen = seen := rfl
        simp only [hview, hget, ensures_raise]
        exact fun _ h => by cases h
    | some allocation =>
        have hview : (Session.start draws faults : ServiceSession).view store seen = seen := rfl
        simp only [hview, hget]
        by_cases hstatus : allocation.status = .released
        · rw [if_pos hstatus]
          refine (observes_buildAllocationOut _ _ _ _).ensures.mono ?_
          rintro _ _ ⟨draws', rfl⟩ out -
          exact ⟨allocation, rfl, .already hstatus⟩
        · have hactive := eq_active_of_ne_released hstatus
          rw [if_neg hstatus]
          simp only [Program.ensures_bind, ensures_acquireHostLock]
          refine (ensures_releaseLocked seen allocation hactive rfl rfl fun _ => trivial).mono ?_
          intro s' result hreleasing
          cases result with
          | error failure => exact fun _ h => by cases h
          | ok value =>
              have hobserves := (observes_refreshAllocation allocation.id).bind fun row =>
                observes_buildAllocationOut env row .notRemoteCapable []
              rw [← Program.ensures_bind]
              refine Program.Ensures.mono hobserves.ensures ?_
              rintro _ _ ⟨draws', rfl⟩ out -
              exact ⟨allocation, rfl, (hreleasing.1 rfl).2⟩
  obtain ⟨hpost, halone⟩ := hensures.exec_start
  obtain ⟨allocation, hget, hreleasing⟩ := hpost out hreturns
  exact ⟨allocation, _, hget, hreleasing, halone⟩

/-! ## A release returns -/

/-- The allocation a release has marked, and all others. -/
theorem applyAll_release (db : Db) (hostId allocationId : Uuid) (released : Releases)
    (releasedAt : ℤ) :
    store.applyAll (releaseWrites hostId released ++ [.releaseAllocation allocationId releasedAt])
      db =
      { db with
        allocations := db.allocations.map fun row =>
          if row.id = allocationId then
            { row with status := .released, releasedAt := some releasedAt }
          else row
        reservations := db.reservations.filter fun row => row.id ∉ released.map fun entry =>
            entry.1.id
        activity := db.activity ++ released.map fun entry =>
          reservationReleased hostId entry.1 entry.2.1 entry.2.2 } := by
  rw [Store.applyAll_append, applyAll_releaseWrites]
  rfl

theorem find?_released {allocations : List Allocation} {allocation : Allocation}
    {allocationId : Uuid} (hfind : allocations.find? (fun row => row.id = allocationId) =
      some allocation) (releasedAt : ℤ) :
    (allocations.map fun row => if row.id = allocationId then
        { row with status := .released, releasedAt := some releasedAt } else row).find?
          (fun row => row.id = allocationId) =
      some { allocation with status := .released, releasedAt := some releasedAt } := by
  induction allocations with
  | nil => cases hfind
  | cons row rows ih =>
      by_cases hid : row.id = allocationId
      · simp only [List.find?_cons, hid, decide_true, Option.some.injEq] at hfind
        simp [hid, ← hfind]
      · simp only [List.find?_cons, hid, decide_false] at hfind
        simpa [hid] using ih hfind

/-- After a release its allocation is found released. -/
theorem getAllocation_release {db : Db} {allocation : Allocation} {allocationId : Uuid}
    (hget : db.getAllocation allocationId = some allocation) (hostId : Uuid) (released : Releases)
    (releasedAt : ℤ) :
    (store.applyAll (releaseWrites hostId released ++ [.releaseAllocation allocationId releasedAt])
      db).getAllocation allocationId =
        some { allocation with status := .released, releasedAt := some releasedAt } := by
  rw [applyAll_release]
  exact find?_released hget releasedAt

/-- With its host on file a release returns. -/
theorem releaseAllocation_returns (env : Environment) {db : Db} {allocation : Allocation}
    {host : Host} {allocationId : Uuid} (hget : db.getAllocation allocationId = some allocation)
    (hhost : db.getHost allocation.hostId = some host) (draws : ℕ → Draw) :
    ∃ out, ((releaseAllocation env allocationId).exec store
      (Session.start draws fun _ => none) db).result = .ok out := by
  have hid : allocation.id = allocationId := by
    simpa using List.find?_some hget
  have hensures : (releaseAllocation env allocationId).Ensures store (Program.alone store db)
      (fun _ => True) (Session.start draws fun _ => none) fun _ result =>
        ∃ out, result = .ok out := by
    simp only [releaseAllocation, Program.bind_eq, Program.ensures_bind, ensures_select]
    rintro seen rfl
    have hview : (Session.start draws fun _ => none : ServiceSession).view store seen = seen := rfl
    simp only [hview, hget]
    by_cases hstatus : allocation.status = .released
    · rw [if_pos hstatus]
      refine (ensures_buildAllocationOut env allocation _ _ ?_).mono fun _ _ h => ?_
      · rintro contents rfl
        exact Option.isSome_of_eq_some hhost
      · exact h.imp fun _ hout => hout.1
    · have hactive := eq_active_of_ne_released hstatus
      rw [if_neg hstatus]
      simp only [Program.ensures_bind, ensures_acquireHostLock]
      refine (ensures_releaseLocked seen allocation hactive rfl rfl fun _ => trivial).mono ?_
      rintro s' result ⟨hdone, hreturns⟩
      have hhas : seen.hasHost allocation.hostId = true := hasHost_of_getHost hhost
      obtain rfl : result = .ok () := hreturns rfl hhas
      obtain ⟨hflushed, hreleasing⟩ := hdone rfl
      simp only [refreshAllocation, Program.bind_eq, Program.ensures_bind, ensures_select]
      intro contents hcontents
      rw [Session.view_of_flushed_nil store hflushed, hcontents]
      generalize hwrites : Session.committedWrites s' = writes at hreleasing
      cases hreleasing with
      | already hreleased => exact (hstatus hreleased).elim
      | now _ released releasedAt hrows =>
          rw [hid] at hwrites ⊢
          simp only [getAllocation_release hget, Program.pure_eq_ret, Program.ensures_ret]
          refine (ensures_buildAllocationOut env _ _ _ ?_).mono fun _ _ h => ?_
          · intro later hlater
            rw [Session.view_of_flushed_nil store hflushed, hlater, hwrites, applyAll_release]
            exact Option.isSome_of_eq_some hhost
          · exact h.imp fun _ hout => hout.1
  exact (hensures.exec_start).1

/-! ## Completeness -/

/-- The reservations a release has removed. -/
def removedRows (before after : Db) : List CentralReservation :=
  before.reservations.filter fun row => row ∉ after.reservations

/-- What a complete release leaves. -/
structure ReleaseComplete (env : Environment) (allocationId : Uuid) (before after : Db) : Prop where
  /-- The allocation has no reservation left. -/
  noneLeft : ∀ row ∈ after.reservations, row.allocationId ≠ some allocationId
  othersKept : (after.reservations.filter fun row => row.allocationId ≠ some allocationId) =
    before.reservations.filter fun row => row.allocationId ≠ some allocationId
  hostsKept : after.hosts = before.hosts
  allocationsKept : (after.allocations.filter fun row => row.id ≠ allocationId) =
    before.allocations.filter fun row => row.id ≠ allocationId
  /-- One event was written for each removed reservation. -/
  oneEventEach : ∃ events, after.activity = before.activity ++ events ∧
    (∀ event ∈ events, event.eventType = .reservationReleased) ∧
    (events.map ActivityEvent.reservationId).Perm
      ((removedRows before after).map fun row => some row.id)
  /-- Releasing again changes nothing. -/
  againNothing : ∀ draws faults,
    ((releaseAllocation env allocationId).exec store (Session.start draws faults) after).db = after

/-- The release of a released allocation only observes. -/
theorem exec_releaseAllocation_of_released (env : Environment) {db : Db} {allocationId : Uuid}
    {allocation : Allocation} (hget : db.getAllocation allocationId = some allocation)
    (hstatus : allocation.status = .released) (draws : ℕ → Draw) (faults : ℕ → Option DbError) :
    ((releaseAllocation env allocationId).exec store (Session.start draws faults) db).db = db := by
  have hread : (select fun db => db.getAllocation allocationId).exec store
      (Session.start draws faults) db = ⟨.ok (some allocation), Session.start draws faults,
          db⟩ := by
    rw [select, Program.exec_query, Session.view_of_flushed_nil store rfl, hget]
  rw [releaseAllocation, Program.bind_eq, Program.exec_bind_of_ok store hread]
  simp only [if_pos hstatus]
  exact (observes_buildAllocationOut env allocation _ _).quiet.exec_db _ _

section Listing

variable {db : Db} (hkeys : (db.reservations.map CentralReservation.id).Nodup)
  (hostId allocationId : Uuid)

include hkeys

/-- With unique ids, the rows deleted by id are those listed for the allocation. -/
theorem id_mem_ownRows_iff {row : CentralReservation} (hrow : row ∈ db.reservations) :
    row.id ∈ (ownRows allocationId (db.listReservations hostId 1000)).map CentralReservation.id ↔
      row.allocationId = some allocationId ∧ row ∈ db.listReservations hostId 1000 := by
  constructor
  · intro hid
    obtain ⟨listed, hlisted, hsame⟩ := List.mem_map.mp hid
    obtain ⟨hmem, hown⟩ := List.mem_filter.mp hlisted
    have hstored := (Db.of_mem_listReservations hmem).1
    have heq : listed = row := List.inj_on_of_nodup_map hkeys hstored hrow hsame
    rw [← heq]
    exact ⟨by simpa using hown, hmem⟩
  · rintro ⟨hown, hmem⟩
    exact List.mem_map_of_mem (List.mem_filter.mpr ⟨hmem, by simpa using hown⟩)

end Listing

/-- The deletions of a release, on the reservations. -/
theorem mem_reservations_after {db : Db} {hostId allocationId : Uuid} {released : Releases}
    (hkeys : (db.reservations.map CentralReservation.id).Nodup)
    (hreleased : released.map Prod.fst = ownRows allocationId (db.listReservations hostId 1000))
    {row : CentralReservation} (hrow : row ∈ db.reservations) :
    row.id ∉ released.map (fun entry => entry.1.id) ↔
      ¬ (row.allocationId = some allocationId ∧ row ∈ db.listReservations hostId 1000) := by
  have hids : (released.map fun entry => entry.1.id) =
      (ownRows allocationId (db.listReservations hostId 1000)).map CentralReservation.id := by
    rw [← hreleased, List.map_map]
    rfl
  rw [hids, id_mem_ownRows_iff hkeys hostId allocationId hrow]

/-- The events of a release are those of the rows it removed. -/
theorem events_of_release {before after : Db} {hostId allocationId : Uuid} {released : Releases}
    (hkeys : (before.reservations.map CentralReservation.id).Nodup)
    (hreleased : released.map Prod.fst =
      ownRows allocationId (before.listReservations hostId 1000))
    (hafter : after.reservations =
      before.reservations.filter fun row => row.id ∉ released.map fun entry => entry.1.id) :
    ((released.map fun entry => reservationReleased hostId entry.1 entry.2.1 entry.2.2).map
      ActivityEvent.reservationId).Perm
        ((removedRows before after).map fun row => some row.id) := by
  have hrows : before.reservations.Nodup := List.Nodup.of_map _ hkeys
  have hevents : ((released.map fun entry =>
      reservationReleased hostId entry.1 entry.2.1 entry.2.2).map ActivityEvent.reservationId) =
        (ownRows allocationId (before.listReservations hostId 1000)).map fun row =>
            some row.id := by
    rw [← hreleased, List.map_map, List.map_map]
    rfl
  rw [hevents]
  refine List.Perm.map _ ?_
  have hlisted := Db.nodup_listReservations hrows hostId 1000
  refine (List.perm_ext_iff_of_nodup (hlisted.filter _) (hrows.filter _)).mpr fun row => ?_
  simp only [hafter, List.mem_filter, decide_eq_true_eq, not_and]
  constructor
  · rintro ⟨hmem, hown⟩
    have hstored := (Db.of_mem_listReservations hmem).1
    exact ⟨hstored, fun _ hid =>
      (mem_reservations_after hkeys hreleased hstored).mp hid ⟨hown, hmem⟩⟩
  · rintro ⟨hstored, hgone⟩
    by_contra hnot
    refine hgone hstored ((mem_reservations_after hkeys hreleased hstored).mpr fun h => ?_)
    exact hnot ⟨h.2, h.1⟩

theorem allocations_after (allocations : List Allocation) (allocationId : Uuid) (releasedAt : ℤ) :
    ((allocations.map fun row => if row.id = allocationId then
        { row with status := .released, releasedAt := some releasedAt } else row).filter fun row =>
          row.id ≠ allocationId) = allocations.filter fun row => row.id ≠ allocationId := by
  induction allocations with
  | nil => rfl
  | cons row rows ih =>
      by_cases hid : row.id = allocationId
      · simpa [hid] using ih
      · simpa [hid] using ih

/-- The writes of a release are complete exactly when every reservation of the allocation
was listed. -/
theorem Releasing.complete_iff (env : Environment) {db : Db} {allocationId : Uuid}
    {found : Allocation} {writes : List Write} (hreleasing : Releasing db found writes)
    (hkeys : (db.reservations.map CentralReservation.id).Nodup)
    (hget : db.getAllocation allocationId = some found) :
    ReleaseComplete env allocationId db (store.applyAll writes db) ↔
      ∀ row ∈ db.reservations, row.allocationId = some allocationId →
        found.status = .active ∧ row ∈ db.listReservations found.hostId 1000 := by
  have hid : found.id = allocationId := by
    simpa using List.find?_some hget
  cases hreleasing with
  | already hstatus =>
      rw [Store.applyAll_nil]
      constructor
      · intro hcomplete row hrow hown
        exact (hcomplete.noneLeft row hrow hown).elim
      · intro hlisted
        have hnone : ∀ row ∈ db.reservations, row.allocationId ≠ some allocationId := by
          intro row hrow hown
          have hactive := (hlisted row hrow hown).1
          rw [hstatus] at hactive
          cases hactive
        refine ⟨hnone, rfl, rfl, rfl, ⟨[], by simp, by simp, ?_⟩, ?_⟩
        · simp [removedRows]
        · exact exec_releaseAllocation_of_released env hget hstatus
  | now hstatus released releasedAt hreleased =>
      rw [hid] at hreleased ⊢
      have hagain := exec_releaseAllocation_of_released env
        (getAllocation_release hget found.hostId released releasedAt) rfl
      rw [applyAll_release] at hagain ⊢
      have hgone : ∀ row ∈ db.reservations,
          (row.id ∉ released.map (fun entry => entry.1.id) ↔
            ¬ (row.allocationId = some allocationId ∧
              row ∈ db.listReservations found.hostId 1000)) :=
        fun row hrow => mem_reservations_after hkeys hreleased hrow
      constructor
      · intro hcomplete row hrow hown
        refine ⟨hstatus, ?_⟩
        by_contra hunlisted
        have hleft := (hgone row hrow).mpr fun h => hunlisted h.2
        exact hcomplete.noneLeft row (List.mem_filter.mpr ⟨hrow, by simpa using hleft⟩) hown
      · intro hlisted
        refine ⟨?_, ?_, rfl, allocations_after _ _ _, ?_, ?_⟩
        · intro row hrow hown
          obtain ⟨hstored, hkept⟩ := List.mem_filter.mp hrow
          exact (hgone row hstored).mp (by simpa using hkept) ⟨hown, (hlisted row hstored hown).2⟩
        · rw [List.filter_filter]
          refine List.filter_congr fun row hrow => ?_
          by_cases hown : row.allocationId = some allocationId
          · simp [hown]
          · have hkept := (hgone row hrow).mpr fun h => hown h.1
            simp only [ne_eq, hown, not_false_eq_true, decide_true, Bool.true_and]
            simpa using hkept
        · refine ⟨_, rfl, ?_, events_of_release hkeys hreleased rfl⟩
          intro event hevent
          obtain ⟨entry, -, rfl⟩ := List.mem_map.mp hevent
          rfl
        · intro draws faults
          exact hagain draws faults

/-- A release that returns is complete if and only if the allocation had no reservation, or
was active with all its reservations among the first 1000 of its host. -/
theorem releaseAllocation_complete_iff (env : Environment) (db : Db) (allocationId : Uuid)
    (draws : ℕ → Draw) (faults : ℕ → Option DbError) {allocation : Allocation}
    {out : AllocationOut} (hkeys : (db.reservations.map CentralReservation.id).Nodup)
    (hget : db.getAllocation allocationId = some allocation)
    (hreturns : ((releaseAllocation env allocationId).exec store (Session.start draws faults)
      db).result = .ok out) :
    ReleaseComplete env allocationId db
        ((releaseAllocation env allocationId).exec store (Session.start draws faults) db).db ↔
      ∀ row ∈ db.reservations, row.allocationId = some allocationId →
        allocation.status = .active ∧ row ∈ db.listReservations allocation.hostId 1000 := by
  obtain ⟨found, writes, hfound, hreleasing, hdb⟩ :=
    releasing_of_returns env db allocationId draws faults hreturns
  obtain rfl : found = allocation := Option.some.inj (hfound.symm.trans hget)
  rw [hdb]
  exact hreleasing.complete_iff env hkeys hget

/-! ## A release that leaves a reservation behind -/

/-- An active allocation on the sample host. -/
def heldAllocation : Allocation where
  id := ⟨2⟩
  hostId := sampleHost.id
  project := "shop"
  status := .active
  releasedAt := none
  requestId := none
  requestPayloadHash := none
  createdAt := 0

/-- A reservation of a port of the sample host, for an allocation or for none. -/
def heldReservation (port : ℕ) (allocationId : Option Uuid) : CentralReservation where
  id := ⟨BitVec.ofNat 128 (1000 + port)⟩
  hostId := sampleHost.id
  port := port
  protocol := .tcp
  bindAddress := none
  project := "shop"
  service := none
  purpose := none
  notes := none
  localReservationId := none
  allocationId := allocationId
  requestName := none

/-- The sample host with its allocation, the reservation of its port, and `crowd` others
on smaller ports. -/
def crowdedDb (crowd : ℕ) : Db :=
  { sampleDb with
    allocations := [heldAllocation]
    reservations := (List.range crowd).map (fun port => heldReservation port none) ++
      [heldReservation 8000 (some heldAllocation.id)] }

/-- With one other reservation on the host the release is complete. -/
theorem releaseAllocation_complete_iff_sample :
    ReleaseComplete sampleEnvironment heldAllocation.id (crowdedDb 1)
      ((releaseAllocation sampleEnvironment heldAllocation.id).exec store
        (Session.start (sampleDraws 100) fun _ => none) (crowdedDb 1)).db :=
  (releaseAllocation_complete_iff sampleEnvironment (crowdedDb 1) heldAllocation.id
    (sampleDraws 100) (fun _ => none) (by decide) rfl rfl).mpr (by decide)

theorem nodup_crowdedDb (crowd : ℕ) (hcrowd : crowd ≤ 8000) :
    ((crowdedDb crowd).reservations.map CentralReservation.id).Nodup := by
  have hports : (List.range crowd ++ [8000]).Nodup := by
    refine List.nodup_range.append (List.nodup_singleton _) fun port hport hlast => ?_
    have hlt := List.mem_range.mp hport
    have heq := List.mem_singleton.mp hlast
    omega
  have hids : (crowdedDb crowd).reservations.map CentralReservation.id =
      (List.range crowd ++ [8000]).map fun port => ⟨BitVec.ofNat 128 (1000 + port)⟩ := by
    simp [crowdedDb, heldReservation, Function.comp_def]
  rw [hids]
  refine List.Nodup.map_on (fun a ha b hb hab => ?_) hports
  have hbound : ∀ port ∈ List.range crowd ++ [8000], port ≤ 8000 := by
    intro port hport
    rcases List.mem_append.mp hport with hport | hport
    · have hlt := List.mem_range.mp hport
      omega
    · have heq := List.mem_singleton.mp hport
      omega
  have ha := hbound a ha
  have hb := hbound b hb
  have hnat := congrArg BitVec.toNat (Uuid.mk.inj hab)
  rw [BitVec.toNat_ofNat, BitVec.toNat_ofNat, Nat.mod_eq_of_lt (by omega),
    Nat.mod_eq_of_lt (by omega)] at hnat
  omega

/-- The other reservations, on smaller ports, hide the allocation's own from a listing of
their number. -/
theorem unlisted_crowdedDb {crowd : ℕ} (hcrowd : crowd ≤ 8000) :
    heldReservation 8000 (some heldAllocation.id) ∉
      (crowdedDb crowd).listReservations sampleHost.id crowd := by
  intro hlisted
  have hsmaller := Db.smaller_lt_of_mem_listReservations hlisted
  have hothers : (((List.range crowd).map fun port => heldReservation port none).filter
      fun other => other.port < 8000) =
        (List.range crowd).map fun port => heldReservation port none := by
    refine List.filter_eq_self.mpr fun other hother => ?_
    obtain ⟨port, hport, rfl⟩ := List.mem_map.mp hother
    have hlt := List.mem_range.mp hport
    exact decide_eq_true (by change port < 8000; omega)
  have hhost : (crowdedDb crowd).hostReservations sampleHost.id =
      (crowdedDb crowd).reservations := by
    refine List.filter_eq_self.mpr fun row hrow => decide_eq_true ?_
    rcases List.mem_append.mp hrow with hrow | hrow
    · obtain ⟨port, -, rfl⟩ := List.mem_map.mp hrow
      rfl
    · rw [List.mem_singleton.mp hrow]
      rfl
  have hport : (heldReservation 8000 (some heldAllocation.id)).port = 8000 := rfl
  rw [hhost, hport, crowdedDb, List.filter_append, hothers, List.length_append, List.length_map,
    List.length_range] at hsmaller
  omega

/-- With a thousand other reservations the release returns, and is not complete. -/
theorem releaseAllocation_incomplete :
    (∃ out, ((releaseAllocation sampleEnvironment heldAllocation.id).exec store
        (Session.start (sampleDraws 100) fun _ => none) (crowdedDb 1000)).result = .ok out) ∧
      ¬ ReleaseComplete sampleEnvironment heldAllocation.id (crowdedDb 1000)
        ((releaseAllocation sampleEnvironment heldAllocation.id).exec store
          (Session.start (sampleDraws 100) fun _ => none) (crowdedDb 1000)).db := by
  have hunlisted := unlisted_crowdedDb (by omega : 1000 ≤ 8000)
  have hkeys := nodup_crowdedDb 1000 (by omega)
  have hget : ∀ crowd, (crowdedDb crowd).getAllocation heldAllocation.id = some heldAllocation :=
    fun _ => rfl
  have hhost : ∀ crowd, (crowdedDb crowd).getHost heldAllocation.hostId = some sampleHost :=
    fun _ => rfl
  have hrow : ∀ crowd, heldReservation 8000 (some heldAllocation.id) ∈
      (crowdedDb crowd).reservations :=
    fun _ => List.mem_append_right _ (List.mem_singleton_self _)
  obtain ⟨out, hout⟩ :=
    releaseAllocation_returns sampleEnvironment (hget 1000) (hhost 1000) (sampleDraws 100)
  refine ⟨⟨out, hout⟩, fun hcomplete => ?_⟩
  obtain ⟨found, writes, hfound, hreleasing, hdb⟩ := releasing_of_returns sampleEnvironment
    (crowdedDb 1000) heldAllocation.id (sampleDraws 100) (fun _ => none) hout
  obtain rfl : found = heldAllocation := Option.some.inj (hfound.symm.trans (hget 1000))
  rw [hdb, hreleasing.complete_iff sampleEnvironment hkeys hfound] at hcomplete
  exact hunlisted (hcomplete _ (hrow 1000) rfl).2

end Central
