/-
# Releasing an allocation

`release_allocation`, and the loop it shares with the decommissioning of a host: of the
listed reservations of the host, those of the allocation are deleted, each with an event.
-/

import PortForge.Central.Allocations

namespace Central

open Transaction

def allocationNotFound (allocationId : Uuid) : AllocationError :=
  let idText := allocationId.text
  { code := .allocationNotFound
    message := s!"No allocation with id '{idText}'."
    statusCode := 404
    details := [] }

/-- The event of a released reservation. -/
def reservationReleased (hostId : Uuid) (row : CentralReservation) (id : Uuid) (timestamp : ℤ) :
    ActivityEvent :=
  let port := row.port
  let protocolText := row.protocol.value
  let project := row.project
  { id := id
    hostId := hostId
    timestamp := timestamp
    eventType := .reservationReleased
    port := some row.port
    protocol := some row.protocol
    bindAddress := row.bindAddress
    source := none
    identityContext := some row.project
    reservationId := some row.id
    summary := s!"Reservation released for port {port}/{protocolText} (project '{project}')"
    metadata := none }

/-- The loop over the listed reservations: those of the allocation are deleted. -/
def releaseRows (hostId allocationId : Uuid) (timestamp : Service ℤ) :
    List CentralReservation → Service Unit
  | [] => pure ()
  | row :: rows =>
      if row.allocationId = some allocationId then do
        add (.deleteReservation row.id)
        let now ← timestamp
        let id ← newUuid
        add (.insertActivity (reservationReleased hostId row id now))
        releaseRows hostId allocationId timestamp rows
      else releaseRows hostId allocationId timestamp rows

/-- The transaction of a release under the host lock, up to its commit. -/
def releaseLocked (allocation : Allocation) : Service Unit := do
  let rows ← select fun db => db.listReservations allocation.hostId 1000
  releaseRows allocation.hostId allocation.id clock rows
  let now ← clock
  add (.releaseAllocation allocation.id now)
  commit

/-- `release_allocation`. -/
def releaseAllocation (env : Environment) (allocationId : Uuid) : Service AllocationOut := do
  let row ← select fun db => db.getAllocation allocationId
  match row with
  | none => raise (.allocation (allocationNotFound allocationId))
  | some allocation =>
      if allocation.status = .released then
        buildAllocationOut env allocation .notRemoteCapable []
      else do
        acquireHostLock env allocation.hostId
        releaseLocked allocation
        let allocation ← refreshAllocation allocation.id
        buildAllocationOut env allocation .notRemoteCapable []

end Central
