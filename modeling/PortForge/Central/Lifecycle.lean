/-
# Decommissioning a host

`host_lifecycle_service.decommission_host`: the host is marked, its agent's credential
revoked, its active allocations released and its open upgrades failed, in one
transaction. The service call here is the endpoint's.
-/

import PortForge.Central.Releases
import PortForge.Central.Upgrades
import PortForge.Python.Value

namespace Central

open Transaction

/-- `AgentRepository.revoke_active_credential_for_host`. -/
def revokeActiveCredential (hostId : Uuid) (revokedAt : ℤ) : Service Unit := do
  let rows ← select fun db => db.activeCredentials hostId
  let existing ← scalarOneOrNone rows
  match existing with
  | none => pure ()
  | some credential => do
      add (.revokeCredential credential.id revokedAt)
      flush

/-- The loop over the active allocations, inside the caller's transaction. -/
def releaseAllocations (hostId : Uuid) (now : ℤ) (rows : List CentralReservation) :
    List Allocation → Service Unit
  | [] => pure ()
  | allocation :: allocations => do
      releaseRows hostId allocation.id (pure now) rows
      add (.releaseAllocation allocation.id now)
      releaseAllocations hostId now rows allocations

/-- `_release_active_allocations_flush_only`. -/
def releaseActiveAllocations (hostId : Uuid) (now : ℤ) : Service Unit := do
  let activeRows ← select fun db => db.listActiveAllocations hostId 1000
  let rows ← select fun db => db.listReservations hostId 1000
  releaseAllocations hostId now rows activeRows

/-- The rows of `UPDATE host_upgrades SET state = 'FAILED' …`, one by one. -/
def failUpgrades (reason : String) (now : ℤ) : List Uuid → Service Unit
  | [] => pure ()
  | id :: ids => do
      add (.failUpgrade id reason now)
      failUpgrades reason now ids

/-- `UpgradeRepository.fail_active_for_host`. -/
def failActiveForHost (hostId : Uuid) (reason : String) (now : ℤ) : Service Unit := do
  let ids ← select fun db => db.nonTerminalIds hostId
  failUpgrades reason now ids

/-- The reason without blanks around it, if anything is left. -/
def cleanedReason (reason : Option String) : Option String :=
  reason.bind fun text => given (some (Python.strip text))

/-- The event of a decommissioned host. -/
def hostDecommissionedEvent (hostId : Uuid) (host : Host) (reason : Option String) (id : Uuid)
    (now : ℤ) : ActivityEvent :=
  let hostname := host.hostname
  let detail :=
    match reason with
    | none => ""
    | some text => ": " ++ String.ofList (text.toList.take 200)
  { id := id
    hostId := hostId
    timestamp := now
    eventType := .hostDecommissioned
    port := none
    protocol := none
    bindAddress := none
    source := none
    identityContext := some host.hostname
    reservationId := none
    summary := s!"Host '{hostname}' decommissioned" ++ detail
    metadata := none }

/-- What decommissioning does to a host that is active. -/
def retireHost (hostId : Uuid) (host : Host) (reason : Option String) (now : ℤ) :
    Service Unit := do
  add (.decommissionHost hostId now reason)
  revokeActiveCredential hostId now
  releaseActiveAllocations hostId now
  failActiveForHost hostId "host_decommissioned" now
  let id ← newUuid
  add (.insertActivity (hostDecommissionedEvent hostId host reason id now))
  flush

/-- `decommission_host`. -/
def decommissionHost (hostId : Uuid) (reason : Option String) : Service Unit := do
  let host ← select fun db => db.getHost hostId
  match host with
  | none => raise (.lifecycle "Host not found." 404)
  | some host => do
      let now ← clock
      if host.lifecycleState = .decommissioned then pure ()
      else retireHost hostId host (cleanedReason reason) now

/-- The endpoint `decommission_host`: the host is read again for the answer. -/
def decommissionHostEndpoint (hostId : Uuid) (reason : Option String) : Service Host := do
  decommissionHost hostId reason
  commit
  refreshHost hostId

/-! ## Reactivating a host -/

/-- The event of a reactivated host. -/
def hostReactivatedEvent (hostId : Uuid) (host : Host) (id : Uuid) (now : ℤ) : ActivityEvent :=
  let hostname := host.hostname
  { id := id
    hostId := hostId
    timestamp := now
    eventType := .hostReactivated
    port := none
    protocol := none
    bindAddress := none
    source := none
    identityContext := some host.hostname
    reservationId := none
    summary := s!"Host '{hostname}' reactivated; new enrollment still required"
    metadata := none }

/-- `reactivate_host`. -/
def reactivateHost (hostId : Uuid) : Service Unit := do
  let host ← select fun db => db.getHost hostId
  match host with
  | none => raise (.lifecycle "Host not found." 404)
  | some host =>
      if host.lifecycleState ≠ .decommissioned then raise (.lifecycle "Host is already active." 409)
      else do
        let now ← clock
        add (.reactivateHost hostId)
        let id ← newUuid
        add (.insertActivity (hostReactivatedEvent hostId host id now))
        flush

/-- The endpoint `reactivate_host`: the host is read again for the answer. -/
def reactivateHostEndpoint (hostId : Uuid) : Service Host := do
  reactivateHost hostId
  commit
  refreshHost hostId

/-! ## Removing a host's record -/

/-- A statement that is executed at once. -/
def execute (write : Write) : Service Unit := do
  add write
  flush

/-- The dependent rows, table by table, in the order in which they are deleted. -/
def dependentTables : List HostTable :=
  [.events, .current, .reservations, .credentials, .scans, .probes, .allocations, .activity,
      .upgrades]

/-- The statements that delete the dependent rows of a host. -/
def purgeTables (hostId : Uuid) : List HostTable → Service Unit
  | [] => pure ()
  | table :: tables => do
      execute (.purgeHost table hostId)
      purgeTables hostId tables

/-- `HostRepository.delete`. -/
def deleteHost (hostId : Uuid) : Service Bool := do
  let host ← select fun db => db.getHost hostId
  match host with
  | none => pure false
  | some _ => do
      execute (.forgetConsumer hostId)
      purgeTables hostId dependentTables
      execute (.deleteHost hostId)
      pure true

/-- The endpoint `remove_host_record`. -/
def removeHostRecord (hostId : Uuid) : Service Unit := do
  let removed ← deleteHost hostId
  if removed then commit
  else raise (.lifecycle "Host not found." 404)

/-! ## What decommissioning can do to its session -/

/-- The write is one of those that retire a host. -/
def Write.IsRetiring (hostId : Uuid) : Write → Prop
  | .decommissionHost id _ _ => id = hostId
  | .revokeCredential _ _ => True
  | .releaseAllocation _ _ => True
  | .deleteReservation _ => True
  | .failUpgrade _ _ _ => True
  | .insertActivity _ => True
  | _ => False

theorem staging_revokeActiveCredential (hostId : Uuid) (revokedAt : ℤ) :
    Staging (Write.IsRetiring hostId) (revokeActiveCredential hostId revokedAt) := by
  refine Staging.bind (.of_observes observes_select) fun rows => ?_
  refine Staging.bind (.of_observes (observes_scalarOneOrNone rows)) fun existing => ?_
  cases existing with
  | none => exact .of_observes trivial
  | some credential => exact ⟨holding_flush, trivial, adds_flush⟩

theorem staging_releaseRows (hostId allocationId : Uuid) (now : ℤ)
    (rows : List CentralReservation) :
    Staging (Write.IsRetiring hostId) (releaseRows hostId allocationId (pure now) rows) := by
  induction rows with
  | nil => exact .of_observes trivial
  | cons row rows ih =>
      rw [releaseRows]
      split
      · exact ⟨fun _ => ih.holding, trivial, fun _ => ⟨trivial, ih.adds⟩⟩
      · exact ih

theorem staging_releaseAllocations (hostId : Uuid) (now : ℤ) (rows : List CentralReservation)
    (allocations : List Allocation) :
    Staging (Write.IsRetiring hostId) (releaseAllocations hostId now rows allocations) := by
  induction allocations with
  | nil => exact .of_observes trivial
  | cons allocation allocations ih =>
      refine Staging.bind (staging_releaseRows hostId allocation.id now rows) fun _ => ?_
      exact ⟨ih.holding, trivial, ih.adds⟩

theorem staging_failUpgrades (hostId : Uuid) (reason : String) (now : ℤ) (ids : List Uuid) :
    Staging (Write.IsRetiring hostId) (failUpgrades reason now ids) := by
  induction ids with
  | nil => exact .of_observes trivial
  | cons id ids ih => exact ⟨ih.holding, trivial, ih.adds⟩

theorem staging_retireHost (hostId : Uuid) (host : Host) (reason : Option String) (now : ℤ) :
    Staging (Write.IsRetiring hostId) (retireHost hostId host reason now) := by
  have hmark : Staging (Write.IsRetiring hostId) (add (.decommissionHost hostId now reason)) :=
    ⟨trivial, rfl, trivial⟩
  refine hmark.bind fun _ => ?_
  refine (staging_revokeActiveCredential hostId now).bind fun _ => ?_
  have hrelease : Staging (Write.IsRetiring hostId) (releaseActiveAllocations hostId now) := by
    refine Staging.bind (.of_observes observes_select) fun activeRows => ?_
    refine Staging.bind (.of_observes observes_select) fun rows => ?_
    exact staging_releaseAllocations hostId now rows activeRows
  refine hrelease.bind fun _ => ?_
  have hfail : Staging (Write.IsRetiring hostId)
      (failActiveForHost hostId "host_decommissioned" now) := by
    refine Staging.bind (.of_observes observes_select) fun ids => ?_
    exact staging_failUpgrades hostId _ now ids
  refine hfail.bind fun _ => ?_
  exact ⟨fun _ => holding_flush, fun _ => ⟨trivial, adds_flush⟩⟩

/-- Decommissioning stays inside its transaction and only retires the host. -/
theorem staging_decommissionHost (hostId : Uuid) (reason : Option String) :
    Staging (Write.IsRetiring hostId) (decommissionHost hostId reason) := by
  refine Staging.bind (.of_observes observes_select) fun host => ?_
  cases host with
  | none => exact .of_observes trivial
  | some host =>
      refine Staging.bind (.of_observes observes_clock) fun now => ?_
      split
      · exact .of_observes trivial
      · exact staging_retireHost hostId host _ now

end Central
