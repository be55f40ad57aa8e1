/-
# The central registry's tables

The rows of the central database, the row-level writes its services issue, and
what the database does with a write: the new contents, the constraint or column
type that refuses it, and the uncommitted write of another transaction it waits
for. Every declared key is enforced, except the primary keys of the tables whose
rows no service looks up by a key it generated (current rows, port events,
activity, probes): there `uuid4` is taken not to collide. Instants, which is what
a `timestamptz` column holds, are integers of microseconds. Columns no modelled
function reads or writes are left out.
-/

import Mathlib
import PortForge.Transaction.Program

namespace Central

/-- A `datetime` a client sent: a reading in microseconds and whether it carries a
UTC offset. With an offset the reading is the instant; without one it is a wall
clock reading. -/
structure Datetime where
  micros : ℤ
  aware : Bool
  deriving DecidableEq

/-- A 128-bit identifier. -/
structure Uuid where
  bits : BitVec 128
  deriving DecidableEq

/-- The low `width` hexadecimal digits of `value`, most significant first. -/
def hexDigits : ℕ → ℕ → List Char
  | 0, _ => []
  | width + 1, value => hexDigits width (value / 16) ++ [Nat.digitChar (value % 16)]

/-- `str(uuid)`: 32 digits in groups of 8, 4, 4, 4 and 12. -/
def Uuid.text (id : Uuid) : String :=
  let digits := hexDigits 32 id.bits.toNat
  String.ofList <| digits.take 8 ++ ['-'] ++ (digits.drop 8).take 4 ++ ['-'] ++
    (digits.drop 12).take 4 ++ ['-'] ++ (digits.drop 16).take 4 ++ ['-'] ++ digits.drop 20

/-- `Protocol`, shared with the agent. -/
inductive Protocol
  | tcp
  | udp
  deriving DecidableEq

def Protocol.value : Protocol → String
  | tcp => "tcp"
  | udp => "udp"

/-- The members of `PortState`, shared with the agent. -/
def portStates : List String := ["ACTIVE", "FREE", "RESERVED", "CONFLICT", "SYSTEM"]

/-- `Host.lifecycle_state`. -/
inductive LifecycleState
  | active
  | decommissioned
  deriving DecidableEq

/-- `Host`. -/
structure Host where
  id : Uuid
  hostname : String
  operatingSystem : String
  osVersion : Option String
  architecture : Option String
  agentVersion : Option String
  dockerAvailable : Bool
  protocolVersion : Option ℤ
  firstSeen : ℤ
  lastSeen : ℤ
  status : String
  lifecycleState : LifecycleState
  lastScanObservedAt : Option ℤ
  contractVersion : Option ℤ
  pythonVersion : Option String
  decommissionedAt : Option ℤ := none
  decommissionReason : Option String := none
  lastError : Option String := none
  deriving DecidableEq

/-- `Allocation.status`. -/
inductive AllocationStatus
  | active
  | released
  deriving DecidableEq

/-- `Allocation`. -/
structure Allocation where
  id : Uuid
  hostId : Uuid
  project : String
  status : AllocationStatus
  releasedAt : Option ℤ
  requestId : Option String
  requestPayloadHash : Option String
  createdAt : ℤ
  deriving DecidableEq

/-- `CentralReservation`. -/
structure CentralReservation where
  id : Uuid
  hostId : Uuid
  port : ℕ
  protocol : Protocol
  bindAddress : Option String
  project : String
  service : Option String
  purpose : Option String
  notes : Option String
  localReservationId : Option String
  allocationId : Option Uuid
  requestName : Option String
  deriving DecidableEq

/-- `CurrentPortObservation`. -/
structure CurrentPortObservation where
  id : Uuid
  hostId : Uuid
  port : ℕ
  protocol : Protocol
  bindAddress : String
  state : String
  source : String
  pid : Option ℕ
  processName : Option String
  processPath : Option String
  workingDirectory : Option String
  containerId : Option String
  containerName : Option String
  containerImage : Option String
  containerPort : Option ℕ
  dockerComposeProject : Option String
  serviceName : Option String
  projectName : Option String
  purpose : Option String
  category : Option String
  detectionConfidence : Option String
  firstSeen : ℤ
  lastSeen : ℤ
  observedAt : ℤ
  scanId : Uuid
  deriving DecidableEq

/-- `PortObservationEvent.event_type`. -/
inductive PortEventType
  | appeared
  | changed
  | disappeared
  deriving DecidableEq

/-- `PortObservationEvent`. -/
structure PortObservationEvent where
  id : Uuid
  hostId : Uuid
  port : ℕ
  protocol : Protocol
  bindAddress : String
  eventType : PortEventType
  state : String
  processName : Option String
  projectName : Option String
  purpose : Option String
  scanId : Uuid
  occurredAt : ℤ
  deriving DecidableEq

/-- `ActivityEvent.event_type`. -/
inductive ActivityType
  | hostOnline
  | portAppeared
  | portDisappeared
  | reservationCreated
  | reservationReleased
  | hostDecommissioned
  | hostReactivated
  deriving DecidableEq

/-- `ActivityEvent`. -/
structure ActivityEvent where
  id : Uuid
  hostId : Uuid
  timestamp : ℤ
  eventType : ActivityType
  port : Option ℕ
  protocol : Option Protocol
  bindAddress : Option String
  source : Option String
  identityContext : Option String
  reservationId : Option Uuid
  summary : String
  metadata : Option (List (String × String))
  deriving DecidableEq

/-- `HostProbe.status`. -/
inductive ProbeStatus
  | pending
  | delivered
  | completed
  | failed
  deriving DecidableEq

/-- `HostProbe`. -/
structure HostProbe where
  id : Uuid
  hostId : Uuid
  port : ℕ
  protocol : Protocol
  bindAddress : String
  status : ProbeStatus
  resultAvailable : Option Bool
  expiresAt : ℤ
  createdAt : ℤ
  deliveredAt : Option ℤ := none
  completedAt : Option ℤ := none
  resultReason : Option String := none
  deriving DecidableEq

/-- What an agent answers to a probe; `none` where its attempt failed. -/
def HostProbe.answered (row : HostProbe) (completedAt : ℤ) (available : Option Bool)
    (reason : Option String) : HostProbe :=
  { row with
    completedAt := some completedAt
    resultReason := reason
    status := if available = none then .failed else .completed
    resultAvailable := available }

/-- `Scan`. -/
structure Scan where
  id : Uuid
  hostId : Uuid
  observedAt : ℤ
  observationCount : ℕ
  receivedAt : ℤ
  deriving DecidableEq

/-- `EnrollmentToken`. -/
structure EnrollmentToken where
  id : Uuid
  tokenHash : String
  createdAt : ℤ
  expiresAt : Option ℤ
  consumedAt : Option ℤ
  consumedByHostId : Option Uuid
  label : Option String := none
  deriving DecidableEq

/-- `AgentCredential`. -/
structure AgentCredential where
  id : Uuid
  hostId : Uuid
  tokenHash : String
  createdAt : ℤ
  revokedAt : Option ℤ
  deriving DecidableEq

/-- `HostUpgrade.state`. -/
inductive UpgradeState
  | approved
  | waitingForAgent
  | downloading
  | verifying
  | installing
  | restarting
  | verifyingHealth
  | succeeded
  | failed
  | rolledBack
  deriving DecidableEq, Repr

def UpgradeState.value : UpgradeState → String
  | approved => "APPROVED"
  | waitingForAgent => "WAITING_FOR_AGENT"
  | downloading => "DOWNLOADING"
  | verifying => "VERIFYING"
  | installing => "INSTALLING"
  | restarting => "RESTARTING"
  | verifyingHealth => "VERIFYING_HEALTH"
  | succeeded => "SUCCEEDED"
  | failed => "FAILED"
  | rolledBack => "ROLLED_BACK"

/-- `TERMINAL_STATES`. -/
def UpgradeState.terminal : UpgradeState → Bool
  | succeeded => true
  | failed => true
  | rolledBack => true
  | _ => false

/-- `HostUpgrade`. -/
structure HostUpgrade where
  id : Uuid
  hostId : Uuid
  requestId : Option String
  state : UpgradeState
  targetVersion : String
  artifactUrl : String
  artifactSha256 : String
  previousVersion : Option String
  previousArtifactUrl : Option String
  previousArtifactSha256 : Option String
  failureReason : Option String
  approvedAt : Option ℤ
  claimedAt : Option ℤ
  completedAt : Option ℤ
  createdBy : Option String
  createdAt : ℤ
  deriving DecidableEq

/-- What a service sets on an upgrade; columns it leaves alone are `none`. -/
structure UpgradeChange where
  state : UpgradeState
  claimedAt : Option ℤ := none
  failureReason : Option (Option String) := none
  completedAt : Option ℤ := none
  deriving DecidableEq

/-- An upgrade after a change. -/
def HostUpgrade.after (row : HostUpgrade) (change : UpgradeChange) : HostUpgrade :=
  { row with
    state := change.state
    claimedAt := change.claimedAt <|> row.claimedAt
    failureReason := change.failureReason.getD row.failureReason
    completedAt := change.completedAt <|> row.completedAt }

/-- The central database. -/
structure Db where
  hosts : List Host
  allocations : List Allocation
  reservations : List CentralReservation
  current : List CurrentPortObservation
  events : List PortObservationEvent
  activity : List ActivityEvent
  probes : List HostProbe
  scans : List Scan
  enrollmentTokens : List EnrollmentToken := []
  credentials : List AgentCredential := []
  upgrades : List HostUpgrade := []
  deriving DecidableEq

/-- What an agent reports about its host with a heartbeat. -/
structure HostReport where
  hostname : String
  operatingSystem : String
  osVersion : Option String
  architecture : Option String
  agentVersion : Option String
  dockerAvailable : Bool
  protocolVersion : Option ℤ
  contractVersion : Option ℤ
  pythonVersion : Option String
  deriving DecidableEq

/-- A known host after a report. A version the report leaves out keeps its value. -/
def Host.afterReport (host : Host) (report : HostReport) (now : ℤ) : Host :=
  { host with
    hostname := report.hostname
    operatingSystem := report.operatingSystem
    osVersion := report.osVersion
    architecture := report.architecture
    agentVersion := report.agentVersion
    dockerAvailable := report.dockerAvailable
    lastSeen := now
    status := "online"
    protocolVersion := report.protocolVersion <|> host.protocolVersion
    contractVersion := report.contractVersion <|> host.contractVersion
    pythonVersion := report.pythonVersion <|> host.pythonVersion }

/-- The tables with a foreign key to `hosts`. -/
inductive HostTable
  | events
  | current
  | reservations
  | credentials
  | scans
  | probes
  | allocations
  | activity
  | upgrades
  deriving DecidableEq

/-- `DELETE FROM … WHERE host_id = …`. The reservations of a deleted allocation lose it. -/
def HostTable.purge (hostId : Uuid) (db : Db) : HostTable → Db
  | events => { db with events := db.events.filter fun row => row.hostId ≠ hostId }
  | current => { db with current := db.current.filter fun row => row.hostId ≠ hostId }
  | reservations => { db with reservations := db.reservations.filter fun row => row.hostId ≠ hostId }
  | credentials => { db with credentials := db.credentials.filter fun row => row.hostId ≠ hostId }
  | scans => { db with scans := db.scans.filter fun row => row.hostId ≠ hostId }
  | probes => { db with probes := db.probes.filter fun row => row.hostId ≠ hostId }
  | allocations =>
      { db with
        allocations := db.allocations.filter fun row => row.hostId ≠ hostId
        reservations := db.reservations.map fun row =>
          if db.allocations.any fun allocation =>
              allocation.hostId = hostId ∧ row.allocationId = some allocation.id then
            { row with allocationId := none }
          else row }
  | activity => { db with activity := db.activity.filter fun row => row.hostId ≠ hostId }
  | upgrades => { db with upgrades := db.upgrades.filter fun row => row.hostId ≠ hostId }

/-- The row-level writes of the modelled services. -/
inductive Write
  | insertHost (row : Host)
  | reportHost (id : Uuid) (report : HostReport) (now : ℤ)
  | scanHost (id : Uuid) (observedAt : ℤ)
  | decommissionHost (id : Uuid) (decommissionedAt : ℤ) (reason : Option String)
  | reactivateHost (id : Uuid)
  | purgeHost (table : HostTable) (id : Uuid)
  | deleteHost (id : Uuid)
  | setHostError (id : Uuid) (lastError : Option String)
  | insertAllocation (row : Allocation)
  | releaseAllocation (id : Uuid) (releasedAt : ℤ)
  | insertReservation (row : CentralReservation)
  | updateReservation (id : Uuid) (project : String) (service purpose notes : Option String)
  | deleteReservation (id : Uuid)
  | insertCurrent (row : CurrentPortObservation)
  | updateCurrent (row : CurrentPortObservation)
  | deleteCurrent (id : Uuid)
  | insertEvent (row : PortObservationEvent)
  | insertActivity (row : ActivityEvent)
  | insertProbe (row : HostProbe)
  | deliverProbe (id : Uuid) (deliveredAt : ℤ)
  | answerProbe (id : Uuid) (completedAt : ℤ) (available : Option Bool) (reason : Option String)
  | insertScan (row : Scan)
  | insertToken (row : EnrollmentToken)
  | consumeToken (id hostId : Uuid) (consumedAt : ℤ)
  | /-- `UPDATE enrollment_tokens … WHERE consumed_by_host_id = …`. -/
    forgetConsumer (hostId : Uuid)
  | insertCredential (row : AgentCredential)
  | revokeCredential (id : Uuid) (revokedAt : ℤ)
  | insertUpgrade (row : HostUpgrade)
  | updateUpgrade (id : Uuid) (change : UpgradeChange)
  | /-- One row of `UPDATE … WHERE state NOT IN (terminal states)`. -/
    failUpgrade (id : Uuid) (reason : String) (completedAt : ℤ)
  deriving DecidableEq

/-- The write removes what Central knows of a host. -/
def Write.Purges : Write → Prop
  | purgeHost _ _ => True
  | deleteHost _ => True
  | _ => False

/-- The contents after one write. -/
def Write.apply : Write → Db → Db
  | insertHost row, db => { db with hosts := db.hosts ++ [row] }
  | reportHost id report now, db =>
      { db with hosts := db.hosts.map fun host =>
          if host.id = id then host.afterReport report now else host }
  | scanHost id observedAt, db =>
      { db with hosts := db.hosts.map fun host =>
          if host.id = id then
            { host with lastScanObservedAt := some observedAt, lastSeen := observedAt }
          else host }
  | decommissionHost id decommissionedAt reason, db =>
      { db with hosts := db.hosts.map fun host =>
          if host.id = id then
            { host with
              lifecycleState := .decommissioned
              decommissionedAt := some decommissionedAt
              decommissionReason := reason }
          else host }
  | reactivateHost id, db =>
      { db with hosts := db.hosts.map fun host =>
          if host.id = id then
            { host with
              lifecycleState := .active
              decommissionedAt := none
              decommissionReason := none }
          else host }
  | purgeHost table id, db => table.purge id db
  | deleteHost id, db => { db with hosts := db.hosts.filter fun host => host.id ≠ id }
  | setHostError id lastError, db =>
      { db with hosts := db.hosts.map fun host =>
          if host.id = id then { host with lastError := lastError } else host }
  | insertAllocation row, db => { db with allocations := db.allocations ++ [row] }
  | releaseAllocation id releasedAt, db =>
      { db with allocations := db.allocations.map fun row =>
          if row.id = id then { row with status := .released, releasedAt := some releasedAt }
          else row }
  | insertReservation row, db => { db with reservations := db.reservations ++ [row] }
  | updateReservation id project service purpose notes, db =>
      { db with reservations := db.reservations.map fun row =>
          if row.id = id then
            { row with project := project, service := service, purpose := purpose, notes := notes }
          else row }
  | deleteReservation id, db =>
      { db with reservations := db.reservations.filter fun row => row.id ≠ id }
  | insertCurrent row, db => { db with current := db.current ++ [row] }
  | updateCurrent row, db =>
      { db with current := db.current.map fun old => if old.id = row.id then row else old }
  | deleteCurrent id, db => { db with current := db.current.filter fun row => row.id ≠ id }
  | insertEvent row, db => { db with events := db.events ++ [row] }
  | insertActivity row, db => { db with activity := db.activity ++ [row] }
  | insertProbe row, db => { db with probes := db.probes ++ [row] }
  | deliverProbe id deliveredAt, db =>
      { db with probes := db.probes.map fun row =>
          if row.id = id then { row with status := .delivered, deliveredAt := some deliveredAt }
          else row }
  | answerProbe id completedAt available reason, db =>
      { db with probes := db.probes.map fun row =>
          if row.id = id then row.answered completedAt available reason else row }
  | insertScan row, db => { db with scans := db.scans ++ [row] }
  | insertToken row, db => { db with enrollmentTokens := db.enrollmentTokens ++ [row] }
  | forgetConsumer hostId, db =>
      { db with enrollmentTokens := db.enrollmentTokens.map fun row =>
          if row.consumedByHostId = some hostId then { row with consumedByHostId := none } else row }
  | consumeToken id hostId consumedAt, db =>
      { db with enrollmentTokens := db.enrollmentTokens.map fun row =>
          if row.id = id then
            { row with consumedAt := some consumedAt, consumedByHostId := some hostId }
          else row }
  | insertCredential row, db => { db with credentials := db.credentials ++ [row] }
  | revokeCredential id revokedAt, db =>
      { db with credentials := db.credentials.map fun row =>
          if row.id = id then { row with revokedAt := some revokedAt } else row }
  | insertUpgrade row, db => { db with upgrades := db.upgrades ++ [row] }
  | updateUpgrade id change, db =>
      { db with upgrades := db.upgrades.map fun row =>
          if row.id = id then row.after change else row }
  | failUpgrade id reason completedAt, db =>
      { db with upgrades := db.upgrades.map fun row =>
          if row.id = id ∧ row.state.terminal = false then
            row.after ⟨.failed, none, some (some reason), some completedAt⟩
          else row }

/-- The foreign key to `hosts`. -/
def Db.hasHost (db : Db) (id : Uuid) : Bool := db.hosts.any fun host => host.id = id

/-- A row refers to the host. -/
def Db.refersTo (db : Db) (id : Uuid) : Bool :=
  (db.events.any fun row => row.hostId = id) || (db.current.any fun row => row.hostId = id) ||
    (db.reservations.any fun row => row.hostId = id) ||
    (db.credentials.any fun row => row.hostId = id) || (db.scans.any fun row => row.hostId = id) ||
    (db.probes.any fun row => row.hostId = id) || (db.allocations.any fun row => row.hostId = id) ||
    (db.activity.any fun row => row.hostId = id) || (db.upgrades.any fun row => row.hostId = id)

/-- The value fits a 32-bit signed `Integer` column. -/
def fitsInteger (value : Option ℕ) : Bool := value.all fun n => n < 2 ^ 31

/-- `uq_central_reservation_binding`: NULL bind addresses are distinct. -/
def CentralReservation.sameBinding (a b : CentralReservation) : Bool :=
  a.hostId = b.hostId ∧ a.port = b.port ∧ a.protocol = b.protocol ∧
    a.bindAddress.isSome ∧ a.bindAddress = b.bindAddress

/-- `uq_current_port_binding`. -/
def CurrentPortObservation.sameBinding (a b : CurrentPortObservation) : Bool :=
  a.hostId = b.hostId ∧ a.port = b.port ∧ a.protocol = b.protocol ∧ a.bindAddress = b.bindAddress

/-- The column types a current row has to fit: the `port_state` enum and the integers. -/
def CurrentPortObservation.fits (row : CurrentPortObservation) : Bool :=
  row.state ∈ portStates ∧ fitsInteger row.pid

/-- `uq_host_upgrades_host_request`: NULL request ids are distinct. -/
def HostUpgrade.sameRequest (a b : HostUpgrade) : Bool :=
  a.hostId = b.hostId ∧ a.requestId.isSome ∧ a.requestId = b.requestId

/-- The column type or constraint that refuses a write. -/
def Write.refused (db : Db) : Write → Option Transaction.DbError
  | insertHost row => if db.hasHost row.id then some .integrity else none
  | deleteHost id => if db.refersTo id then some .integrity else none
  | insertAllocation row =>
      if ¬ db.hasHost row.hostId then some .integrity
      else if db.allocations.any fun old => old.id = row.id then some .integrity
      else if row.requestId.isSome ∧ db.allocations.any fun old => old.requestId =
          row.requestId then
        some .integrity
      else none
  | insertReservation row =>
      if ¬ db.hasHost row.hostId then some .integrity
      else if row.allocationId.isSome ∧
          ¬ db.allocations.any fun allocation => some allocation.id = row.allocationId then
        some .integrity
      else if db.reservations.any fun old => old.id = row.id then some .integrity
      else if db.reservations.any row.sameBinding then some .integrity
      else none
  | insertCurrent row =>
      if ¬ row.fits then some .data
      else if ¬ db.hasHost row.hostId then some .integrity
      else if db.current.any row.sameBinding then some .integrity
      else none
  | updateCurrent row => if ¬ row.fits then some .data else none
  | insertEvent row =>
      if row.state ∉ portStates then some .data
      else if ¬ db.hasHost row.hostId then some .integrity
      else none
  | insertActivity row => if ¬ db.hasHost row.hostId then some .integrity else none
  | insertProbe row =>
      if ¬ db.hasHost row.hostId then some .integrity
      else if db.probes.any fun old => old.id = row.id then some .integrity
      else none
  | insertScan row =>
      if db.scans.any fun old => old.id = row.id then some .integrity
      else if ¬ db.hasHost row.hostId then some .integrity
      else none
  | insertToken row =>
      if db.enrollmentTokens.any fun old => old.id = row.id ∨ old.tokenHash = row.tokenHash then
        some .integrity
      else none
  | insertCredential row =>
      if ¬ db.hasHost row.hostId then some .integrity
      else if db.credentials.any fun old => old.id = row.id ∨ old.tokenHash = row.tokenHash then
        some .integrity
      else none
  | insertUpgrade row =>
      if ¬ db.hasHost row.hostId then some .integrity
      else if db.upgrades.any fun old => old.id = row.id then some .integrity
      else if db.upgrades.any row.sameRequest then some .integrity
      else none
  | _ => none

/-- The host whose row a write updates. -/
def Write.updatedHost : Write → Option Uuid
  | reportHost id _ _ => some id
  | scanHost id _ => some id
  | decommissionHost id _ _ => some id
  | reactivateHost id => some id
  | deleteHost id => some id
  | setHostError id _ => some id
  | _ => none

/-- The reservation whose row a write updates or deletes. -/
def Write.changedReservation : Write → Option Uuid
  | updateReservation id _ _ _ _ => some id
  | deleteReservation id => some id
  | _ => none

/-- The upgrade whose row a write updates. -/
def Write.updatedUpgrade : Write → Option Uuid
  | updateUpgrade id _ => some id
  | failUpgrade id _ _ => some id
  | _ => none

/-- The probe whose row a write updates. -/
def Write.updatedProbe : Write → Option Uuid
  | deliverProbe id _ => some id
  | answerProbe id _ _ _ => some id
  | _ => none

/-- A write waits for an uncommitted one on the same row, or with the same unique key. -/
def Write.waitsFor : Write → Write → Bool
  | insertHost row, insertHost other => row.id = other.id
  | insertAllocation row, insertAllocation other =>
      row.id = other.id ∨ row.requestId.isSome ∧ row.requestId = other.requestId
  | insertReservation row, insertReservation other => row.id = other.id ∨ row.sameBinding other
  | insertCurrent row, insertCurrent other => row.sameBinding other
  | updateCurrent row, updateCurrent other => row.id = other.id
  | updateCurrent row, deleteCurrent other => row.id = other
  | deleteCurrent id, updateCurrent other => id = other.id
  | deleteCurrent id, deleteCurrent other => id = other
  | insertScan row, insertScan other => row.id = other.id
  | releaseAllocation id _, releaseAllocation other _ => id = other
  | insertToken row, insertToken other => row.id = other.id ∨ row.tokenHash = other.tokenHash
  | consumeToken id _ _, consumeToken other _ _ => id = other
  | insertCredential row, insertCredential other =>
      row.id = other.id ∨ row.tokenHash = other.tokenHash
  | revokeCredential id _, revokeCredential other _ => id = other
  | insertUpgrade row, insertUpgrade other => row.id = other.id ∨ row.sameRequest other
  | write, other =>
      write.updatedHost.isSome ∧ write.updatedHost = other.updatedHost ∨
        write.changedReservation.isSome ∧ write.changedReservation = other.changedReservation ∨
        write.updatedUpgrade.isSome ∧ write.updatedUpgrade = other.updatedUpgrade ∨
        write.updatedProbe.isSome ∧ write.updatedProbe = other.updatedProbe

/-- The central database as a store. -/
def store : Transaction.Store Db Write where
  apply := Write.apply
  refuses := Write.refused
  waits := Write.waitsFor

@[simp]
theorem store_apply (write : Write) (db : Db) : store.apply write db = write.apply db := rfl

theorem hasHost_iff {db : Db} {id : Uuid} : db.hasHost id = true ↔ ∃ host ∈ db.hosts, host.id =
    id := by
  simp [Db.hasHost]

/-- An allocation row is accepted for a known host, with a new id and a new request id. -/
theorem insertAllocation_accepted {db : Db} {row : Allocation} :
    store.refuses db (.insertAllocation row) = none ↔
      db.hasHost row.hostId = true ∧ (∀ old ∈ db.allocations, old.id ≠ row.id) ∧
        (row.requestId.isSome = true → ∀ old ∈ db.allocations, old.requestId ≠ row.requestId) := by
  simp only [store, Write.refused]
  by_cases hhost : db.hasHost row.hostId = true
  · by_cases hid : ∃ old ∈ db.allocations, old.id = row.id
    · obtain ⟨old, hold, heq⟩ := hid
      have hany : (db.allocations.any fun old => old.id = row.id) = true :=
        List.any_eq_true.mpr ⟨old, hold, by simpa using heq⟩
      simp only [hhost, not_true, if_false, hany, if_true, reduceCtorEq, true_and, false_iff]
      exact fun h => h.1 old hold heq
    · have hany : (db.allocations.any fun old => old.id = row.id) = false := by
        simpa using hid
      simp only [hhost, not_true, if_false, hany, Bool.false_eq_true, true_and]
      push Not at hid
      simpa using fun _ => hid
  · simp [hhost]

end Central
