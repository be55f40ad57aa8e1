/-
# Removing the record of a host

Removing a record deletes the dependent rows of a host table by table and then the host
itself, in one transaction. What is left of every table is what did not belong to the
host, except that enrollment tokens forget who consumed them, and that a reservation of
another host loses its allocation where that is deleted with the host.
-/

import PortForge.Central.Lifecycle
import PortForge.Central.SingleCall

namespace Central

open Transaction

/-! ## What is left -/

/-- A token after its consumer is gone. -/
def EnrollmentToken.forgetting (hostId : Uuid) (row : EnrollmentToken) : EnrollmentToken :=
  if row.consumedByHostId = some hostId then { row with consumedByHostId := none } else row

/-- A reservation after the allocations of a host are gone: `ON DELETE SET NULL`. -/
def CentralReservation.detached (db : Db) (hostId : Uuid) (row : CentralReservation) :
    CentralReservation :=
  if db.allocations.any fun allocation =>
      allocation.hostId = hostId ∧ row.allocationId = some allocation.id then
    { row with allocationId := none }
  else row

/-- What removing the record of a host does to the tables. -/
structure RecordRemoved (hostId : Uuid) (before after : Db) : Prop where
  unknown : after.hasHost hostId = false
  unreferenced : after.refersTo hostId = false
  forgotten : ∀ token ∈ after.enrollmentTokens, token.consumedByHostId ≠ some hostId
  hosts : after.hosts = before.hosts.filter fun row => row.id ≠ hostId
  events : after.events = before.events.filter fun row => row.hostId ≠ hostId
  current : after.current = before.current.filter fun row => row.hostId ≠ hostId
  credentials : after.credentials = before.credentials.filter fun row => row.hostId ≠ hostId
  scans : after.scans = before.scans.filter fun row => row.hostId ≠ hostId
  probes : after.probes = before.probes.filter fun row => row.hostId ≠ hostId
  allocations : after.allocations = before.allocations.filter fun row => row.hostId ≠ hostId
  activity : after.activity = before.activity.filter fun row => row.hostId ≠ hostId
  upgrades : after.upgrades = before.upgrades.filter fun row => row.hostId ≠ hostId
  tokens : after.enrollmentTokens = before.enrollmentTokens.map (·.forgetting hostId)
  reservations : after.reservations =
    (before.reservations.filter fun row => row.hostId ≠ hostId).map (·.detached before hostId)

/-- The statements of a removal. -/
def removalWrites (hostId : Uuid) : List Write :=
  .forgetConsumer hostId :: dependentTables.map (fun table => .purgeHost table hostId) ++
    [.deleteHost hostId]

theorem detached_hostId (db : Db) (hostId : Uuid) (row : CentralReservation) :
    (row.detached db hostId).hostId = row.hostId := by
  rw [CentralReservation.detached]
  split <;> rfl

theorem forgetting_consumedByHostId (hostId : Uuid) (row : EnrollmentToken) :
    (row.forgetting hostId).consumedByHostId ≠ some hostId := by
  rw [EnrollmentToken.forgetting]
  split
  · exact nofun
  · assumption

/-- A table without the rows of a host has none. -/
theorem any_filter_ne {row : Type} (rows : List row) (owner : row → Uuid) (hostId : Uuid) :
    ((rows.filter fun row => owner row ≠ hostId).any fun row => owner row = hostId) = false := by
  rw [List.any_eq_false]
  intro row hrow
  simpa using (List.mem_filter.mp hrow).2

/-- The contents without a host. -/
def Db.without (db : Db) (hostId : Uuid) : Db where
  hosts := db.hosts.filter fun row => row.id ≠ hostId
  allocations := db.allocations.filter fun row => row.hostId ≠ hostId
  reservations :=
    (db.reservations.filter fun row => row.hostId ≠ hostId).map (·.detached db hostId)
  current := db.current.filter fun row => row.hostId ≠ hostId
  events := db.events.filter fun row => row.hostId ≠ hostId
  activity := db.activity.filter fun row => row.hostId ≠ hostId
  probes := db.probes.filter fun row => row.hostId ≠ hostId
  scans := db.scans.filter fun row => row.hostId ≠ hostId
  enrollmentTokens := db.enrollmentTokens.map (·.forgetting hostId)
  credentials := db.credentials.filter fun row => row.hostId ≠ hostId
  upgrades := db.upgrades.filter fun row => row.hostId ≠ hostId

theorem applyAll_removalWrites (hostId : Uuid) (db : Db) :
    store.applyAll (removalWrites hostId) db = db.without hostId := by
  simp only [removalWrites, dependentTables, List.map_cons, List.map_nil, List.cons_append,
    List.nil_append, Store.applyAll_cons, Store.applyAll_nil, store_apply, Write.apply,
    HostTable.purge]
  rfl

theorem refersTo_without (db : Db) (hostId : Uuid) :
    (db.without hostId).refersTo hostId = false := by
  have hreservations : ((db.without hostId).reservations.any fun row => row.hostId = hostId) =
      false := by
    rw [Db.without, List.any_map]
    simp only [Function.comp_def, detached_hostId]
    exact any_filter_ne db.reservations CentralReservation.hostId hostId
  simp only [Db.refersTo, hreservations, Bool.or_false, Bool.or_eq_false_iff]
  have hevents := any_filter_ne db.events PortObservationEvent.hostId hostId
  have hcurrent := any_filter_ne db.current CurrentPortObservation.hostId hostId
  have hcredentials := any_filter_ne db.credentials AgentCredential.hostId hostId
  have hscans := any_filter_ne db.scans Scan.hostId hostId
  have hprobes := any_filter_ne db.probes HostProbe.hostId hostId
  have hallocations := any_filter_ne db.allocations Allocation.hostId hostId
  have hactivity := any_filter_ne db.activity ActivityEvent.hostId hostId
  have hupgrades := any_filter_ne db.upgrades HostUpgrade.hostId hostId
  exact ⟨⟨⟨⟨⟨⟨⟨hevents, hcurrent⟩, hcredentials⟩, hscans⟩, hprobes⟩, hallocations⟩, hactivity⟩,
    hupgrades⟩

theorem recordRemoved_without (hostId : Uuid) (db : Db) :
    RecordRemoved hostId db (db.without hostId) where
  unknown := any_filter_ne db.hosts Host.id hostId
  unreferenced := refersTo_without db hostId
  forgotten := by
    intro token htoken
    obtain ⟨row, -, rfl⟩ := List.mem_map.mp htoken
    exact forgetting_consumedByHostId hostId row
  hosts := rfl
  events := rfl
  current := rfl
  credentials := rfl
  scans := rfl
  probes := rfl
  allocations := rfl
  activity := rfl
  upgrades := rfl
  tokens := rfl
  reservations := rfl

/-! ## The call -/

/-- A part of a call stages these writes, or fails and changes nothing. -/
def StagesOrFails {α : Type} (p : Service α) (writes : List Write) (s : ServiceSession)
    (db : Db) : Prop :=
  (∃ value s', p.exec store s db = ⟨.ok value, s', db⟩ ∧ s'.batch = s.batch ++ writes) ∨
    ∃ error s', p.exec store s db = ⟨.error error, s', db⟩

section Staging

variable {s : ServiceSession} {db : Db}

theorem stagesOrFails_execute (write : Write) : StagesOrFails (execute write) [write] s db := by
  cases herror : (s.afterAdd write).flushError store db with
  | none =>
      refine .inl ⟨(), (s.afterAdd write).afterFlush, ?_, by
        rw [Session.afterFlush_batch, Session.afterAdd_batch]⟩
      simp only [execute, add, flush, Program.bind_eq, Program.bind, Program.exec, herror]
  | some error =>
      refine .inr ⟨.db error, (s.afterAdd write).afterFailure error, ?_⟩
      simp only [execute, add, flush, Program.bind_eq, Program.bind, Program.exec, herror]

theorem StagesOrFails.bind {α β : Type} {p : Service α} {f : α → Service β}
    {first second : List Write} (h : StagesOrFails p first s db)
    (hf : ∀ value s', StagesOrFails (f value) second s' db) :
    StagesOrFails (p >>= f) (first ++ second) s db := by
  obtain ⟨value, s', hexec, hbatch⟩ | ⟨error, s', hexec⟩ := h
  · rw [StagesOrFails, Program.bind_eq, Program.exec_bind_of_ok store hexec]
    obtain ⟨result, s'', hrest, hbatch'⟩ | hfails := hf value s'
    · exact .inl ⟨result, s'', hrest, by rw [hbatch', hbatch, List.append_assoc]⟩
    · exact .inr hfails
  · refine .inr ⟨error, s', ?_⟩
    rw [Program.bind_eq, Program.exec_bind, hexec]

theorem stagesOrFails_ret {α : Type} (value : α) :
    StagesOrFails (pure value : Service α) [] s db :=
  .inl ⟨value, s, rfl, (List.append_nil _).symm⟩

theorem stagesOrFails_purgeTables (hostId : Uuid) (tables : List HostTable) :
    StagesOrFails (purgeTables hostId tables)
      (tables.map fun table => .purgeHost table hostId) s db := by
  induction tables generalizing s with
  | nil => exact stagesOrFails_ret ()
  | cons table tables ih => exact (stagesOrFails_execute _).bind fun _ _ => ih

end Staging

/-- The removal of a known host, up to its commit. -/
theorem stagesOrFails_deleteHost {hostId : Uuid} {host : Host} {s : ServiceSession} {db : Db}
    (hhost : (s.view store db).getHost hostId = some host) :
    StagesOrFails (deleteHost hostId) (removalWrites hostId) s db := by
  have hrest : StagesOrFails (do
      execute (.forgetConsumer hostId)
      purgeTables hostId dependentTables
      execute (.deleteHost hostId)
      pure true) (removalWrites hostId) s db := by
    refine (stagesOrFails_execute (.forgetConsumer hostId)).bind fun _ _ => ?_
    refine (stagesOrFails_purgeTables hostId dependentTables).bind fun _ _ => ?_
    exact (stagesOrFails_execute (.deleteHost hostId)).bind fun _ _ => stagesOrFails_ret true
  have hexec : (deleteHost hostId).exec store s db = Program.exec store (do
      execute (.forgetConsumer hostId)
      purgeTables hostId dependentTables
      execute (.deleteHost hostId)
      pure true) s db := by
    rw [deleteHost, Program.bind_eq, select, Program.exec_bind, Program.exec_query]
    simp only [hhost]
  rw [StagesOrFails, hexec]
  exact hrest

/-- Removing the record of a host either commits the removal, or changes no row. -/
theorem removeHostRecord_exact (hostId : Uuid) (draws : ℕ → Draw)
    (faults : ℕ → Option DbError) (db : Db) :
    let outcome := (removeHostRecord hostId).exec store (Session.start draws faults) db
    (outcome.result = .ok () → RecordRemoved hostId db outcome.db) ∧
      ∀ error, outcome.result = .error error → outcome.db = db := by
  intro outcome
  cases hhost : db.getHost hostId with
  | none =>
      have hview : ((Session.start draws faults : ServiceSession).view store db).getHost hostId = none := hhost
      have hrefused : outcome = ⟨.error (.lifecycle "Host not found." 404),
          Session.start draws faults, db⟩ := by
        simp only [outcome, removeHostRecord, deleteHost, Program.bind_eq, select,
          Program.exec_bind, Program.exec_query, hview]
        rfl
      rw [hrefused]
      exact ⟨fun h => (by cases h), fun _ _ => rfl⟩
  | some host =>
      have hview : ((Session.start draws faults : ServiceSession).view store db).getHost hostId = some host := hhost
      obtain ⟨removed, s', hexec, hbatch⟩ | ⟨error, s', hexec⟩ := stagesOrFails_deleteHost hview
      · have hrest : outcome =
            (if removed then commit else raise (.lifecycle "Host not found." 404) :
              Service Unit).exec store s' db := by
          simp only [outcome, removeHostRecord, Program.bind_eq, Program.exec_bind, hexec]
        rw [hrest]
        cases removed with
        | false => exact ⟨fun h => (by cases h), fun _ _ => rfl⟩
        | true =>
            have hwrites : s'.batch = removalWrites hostId := hbatch
            simp only [if_true, commit, Program.exec]
            cases s'.flushError store db with
            | some error => exact ⟨fun h => (by cases h), fun _ _ => rfl⟩
            | none =>
                refine ⟨fun _ => ?_, fun _ h => by cases h⟩
                have hafter : store.applyAll s'.batch db = db.without hostId := by
                  rw [hwrites, applyAll_removalWrites]
                simp only [hafter]
                exact recordRemoved_without hostId db
      · have hfailed : outcome = ⟨.error error, s', db⟩ := by
          simp only [outcome, removeHostRecord, Program.bind_eq, Program.exec_bind, hexec]
        rw [hfailed]
        exact ⟨fun h => (by cases h), fun _ _ => rfl⟩

/-- A reservation of one host that names an allocation of another. -/
def crossedDb : Db :=
  { sampleDb with
    hosts := [sampleHost, { sampleHost with id := ⟨9⟩ }]
    allocations :=
      [{ id := ⟨5⟩, hostId := sampleHost.id, project := "alpha", status := .active,
         releasedAt := none, requestId := none, requestPayloadHash := none, createdAt := 0 }]
    reservations :=
      [{ id := ⟨7⟩, hostId := ⟨9⟩, port := 8000, protocol := .tcp, bindAddress := none,
         project := "alpha", service := none, purpose := none, notes := none,
         localReservationId := none, allocationId := some ⟨5⟩, requestName := none }] }

/-- It loses the allocation when the record of the first host is removed. -/
theorem removal_detaches :
    let outcome := (removeHostRecord sampleHost.id).exec store
      (Session.start (sampleDraws 100) fun _ => none) crossedDb
    outcome.result = .ok () ∧ ∃ row ∈ crossedDb.reservations, row.hostId ≠ sampleHost.id ∧
      row ∉ outcome.db.reservations := by
  decide

end Central
