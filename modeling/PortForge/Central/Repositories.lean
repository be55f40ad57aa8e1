/-
# Repository queries

The queries of the repositories, as functions of the contents a session sees.
-/

import PortForge.Central.Service
import Mathlib.Data.List.Sort

namespace Central

namespace Db

variable (db : Db)

/-- `HostRepository.get`. -/
def getHost (hostId : Uuid) : Option Host := db.hosts.find? fun host => host.id = hostId

/-- `AllocationRepository.get`. -/
def getAllocation (allocationId : Uuid) : Option Allocation :=
  db.allocations.find? fun allocation => allocation.id = allocationId

/-- The rows `AllocationRepository.get_by_request_id` selects. -/
def allocationsByRequestId (requestId : String) : List Allocation :=
  db.allocations.filter fun allocation => allocation.requestId = some requestId

/-- `PortRepository.list_current_for_host`. -/
def listCurrentForHost (hostId : Uuid) : List CurrentPortObservation :=
  db.current.filter fun row => row.hostId = hostId

/-- The reservations of a host. -/
def hostReservations (hostId : Uuid) : List CentralReservation :=
  db.reservations.filter fun row => row.hostId = hostId

/-- `ReservationRepository.list(host_id, limit)`: ordered by port. -/
def listReservations (hostId : Uuid) (limit : ℕ) : List CentralReservation :=
  ((db.hostReservations hostId).insertionSort fun a b => a.port ≤ b.port).take limit

/-- `ReservationRepository.get`. -/
def getReservation (reservationId : Uuid) : Option CentralReservation :=
  db.reservations.find? fun row => row.id = reservationId

/-- The rows `ReservationRepository.get_by_binding` selects; `== None` is `IS NULL`. -/
def reservationsByBinding (hostId : Uuid) (port : ℕ) (protocol : Protocol)
    (bindAddress : Option String) : List CentralReservation :=
  db.reservations.filter fun row =>
    row.hostId = hostId ∧ row.port = port ∧ row.protocol = protocol ∧
      row.bindAddress = bindAddress

/-- `ORDER BY created_at DESC LIMIT 1`. -/
def latest : List HostProbe → Option HostProbe
  | [] => none
  | probe :: probes =>
      match latest probes with
      | none => some probe
      | some other => if other.createdAt ≤ probe.createdAt then some probe else some other

/-- `ProbeRepository.find_latest_for_binding`: the most recently created one. -/
def findLatestForBinding (hostId : Uuid) (port : ℕ) (protocol : Protocol)
    (bindAddress : String) : Option HostProbe :=
  latest <| db.probes.filter fun probe =>
    probe.hostId = hostId ∧ probe.port = port ∧ probe.protocol = protocol ∧
      probe.bindAddress = bindAddress

/-- `ProbeRepository.count_active_for_host`. -/
def countActiveForHost (hostId : Uuid) (now : ℤ) : ℕ :=
  db.probes.countP fun probe =>
    probe.hostId = hostId ∧ (probe.status = .pending ∨ probe.status = .delivered) ∧
      now ≤ probe.expiresAt

/-- `UpgradeRepository.get`. -/
def getUpgrade (upgradeId : Uuid) : Option HostUpgrade :=
  db.upgrades.find? fun upgrade => upgrade.id = upgradeId

/-- `UpgradeRepository.get_by_request_id_for_host`. -/
def getUpgradeByRequestId (hostId : Uuid) (requestId : String) : Option HostUpgrade :=
  db.upgrades.find? fun upgrade => upgrade.hostId = hostId ∧ upgrade.requestId = some requestId

/-- `UpgradeRepository.get_non_terminal_for_host`. -/
def getNonTerminalForHost (hostId : Uuid) : Option HostUpgrade :=
  db.upgrades.find? fun upgrade => upgrade.hostId = hostId ∧ upgrade.state.terminal = false

/-- The rows `UpgradeRepository.fail_active_for_host` updates. -/
def nonTerminalIds (hostId : Uuid) : List Uuid :=
  (db.upgrades.filter fun upgrade =>
    upgrade.hostId = hostId ∧ upgrade.state.terminal = false).map HostUpgrade.id

/-- The active allocations of a host. -/
def activeAllocations (hostId : Uuid) : List Allocation :=
  db.allocations.filter fun row => row.hostId = hostId ∧ row.status = .active

/-- Newest first, and by `id` among rows of one instant. -/
def newerFirst (a b : Allocation) : Prop :=
  b.createdAt < a.createdAt ∨ b.createdAt = a.createdAt ∧ b.id.bits ≤ a.id.bits

instance : DecidableRel newerFirst := fun _ _ => inferInstanceAs (Decidable (_ ∨ _ ∧ _))

/-- `AllocationRepository.list(host_id, status="active", limit)`. -/
def listActiveAllocations (hostId : Uuid) (limit : ℕ) : List Allocation :=
  ((db.activeAllocations hostId).insertionSort newerFirst).take limit

/-- The rows `AgentRepository.get_active_credential_for_host` selects. -/
def activeCredentials (hostId : Uuid) : List AgentCredential :=
  db.credentials.filter fun row => row.hostId = hostId ∧ row.revokedAt = none

/-- The rows `AgentRepository.get_enrollment_token_by_hash` selects. -/
def tokensByHash (tokenHash : String) : List EnrollmentToken :=
  db.enrollmentTokens.filter fun row => row.tokenHash = tokenHash

variable {db}

/-- While a host has at most `limit` reservations the listing is complete. -/
theorem mem_listReservations_of_le {hostId : Uuid} {limit : ℕ} {row : CentralReservation}
    (hlimit : (db.hostReservations hostId).length ≤ limit) :
    row ∈ db.listReservations hostId limit ↔ row ∈ db.reservations ∧ row.hostId = hostId := by
  have hlength := List.length_insertionSort (fun a b : CentralReservation => a.port ≤ b.port)
    (db.hostReservations hostId)
  rw [listReservations, List.take_of_length_le (by omega), List.mem_insertionSort,
    hostReservations, List.mem_filter]
  simp

/-- While a host has at most `limit` active allocations the listing is complete. -/
theorem mem_listActiveAllocations_of_le {hostId : Uuid} {limit : ℕ} {row : Allocation}
    (hlimit : (db.activeAllocations hostId).length ≤ limit) :
    row ∈ db.listActiveAllocations hostId limit ↔
      row ∈ db.allocations ∧ row.hostId = hostId ∧ row.status = .active := by
  have hlength := List.length_insertionSort newerFirst (db.activeAllocations hostId)
  rw [listActiveAllocations, List.take_of_length_le (by omega), List.mem_insertionSort,
    activeAllocations, List.mem_filter]
  simp

/-- The listing shows reservations of the host only. -/
theorem of_mem_listReservations {hostId : Uuid} {limit : ℕ} {row : CentralReservation}
    (h : row ∈ db.listReservations hostId limit) :
    row ∈ db.reservations ∧ row.hostId = hostId := by
  have hmem := List.mem_of_mem_take h
  rw [List.mem_insertionSort, hostReservations, List.mem_filter] at hmem
  simpa using hmem

theorem nodup_listReservations (h : db.reservations.Nodup) (hostId : Uuid) (limit : ℕ) :
    (db.listReservations hostId limit).Nodup := by
  have hsorted : ((db.hostReservations hostId).insertionSort fun a b => a.port ≤ b.port).Nodup :=
    (List.perm_insertionSort _ _).nodup_iff.mpr (h.filter _)
  exact hsorted.sublist (List.take_sublist _ _)

/-- A row is listed only while fewer than `limit` rows of the host have a smaller port. -/
theorem smaller_lt_of_mem_listReservations {hostId : Uuid} {limit : ℕ} {row : CentralReservation}
    (h : row ∈ db.listReservations hostId limit) :
    ((db.hostReservations hostId).filter fun other => other.port < row.port).length < limit := by
  let sorted := (db.hostReservations hostId).insertionSort fun a b => a.port ≤ b.port
  have hperm : sorted.Perm (db.hostReservations hostId) := List.perm_insertionSort _ _
  have hpairwise : sorted.Pairwise fun a b => a.port ≤ b.port := List.pairwise_insertionSort _ _
  have hmem : row ∈ sorted.take limit := h
  -- No row behind the cut has a smaller port than one before it.
  have hbehind : (sorted.drop limit).filter (fun other => other.port < row.port) = [] := by
    rw [List.filter_eq_nil_iff]
    intro other hother
    rw [← List.take_append_drop limit sorted] at hpairwise
    have hle := (List.pairwise_append.mp hpairwise).2.2 row hmem other hother
    simpa using hle
  have hshort : ((sorted.take limit).filter fun other => other.port < row.port).length <
      (sorted.take limit).length :=
    List.length_filter_lt_length_iff_exists.mpr ⟨row, hmem, by simp⟩
  have hsplit : (sorted.filter fun other => other.port < row.port).length =
      ((sorted.take limit).filter fun other => other.port < row.port).length := by
    conv_lhs => rw [← List.take_append_drop limit sorted]
    rw [List.filter_append, hbehind, List.append_nil]
  have htake := List.length_take_le limit sorted
  rw [← (hperm.filter _).length_eq, hsplit]
  omega

omit db in
/-- A change of the hosts that keeps their ids is found under the same id. -/
theorem getHost_map {db later : Db} {change : Host → Host}
    (hid : ∀ host, (change host).id = host.id) (hhosts : later.hosts = db.hosts.map change)
    (hostId : Uuid) : later.getHost hostId = (db.getHost hostId).map change := by
  have hsame : (fun host : Host => decide (host.id = hostId)) ∘ change =
      fun host => decide (host.id = hostId) := by
    funext host
    simp [hid]
  rw [getHost, hhosts, List.find?_map, hsame, getHost]

end Db

/-- A host that is found is on file. -/
theorem hasHost_of_getHost {db : Db} {hostId : Uuid} {host : Host}
    (hhost : db.getHost hostId = some host) : db.hasHost hostId = true := by
  have hid : host.id = hostId := by simpa using List.find?_some hhost
  exact hasHost_iff.mpr ⟨host, List.mem_of_find?_eq_some hhost, hid⟩

end Central
