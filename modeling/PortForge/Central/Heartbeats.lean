/-
# Heartbeats

`record_heartbeat` and the heartbeat endpoint: the host's row is written, pending probes
are delivered with the response, and so is the oldest upgrade nobody has claimed. The
`protocol_compatibility` of the response, a function of the request alone, is left out.
-/

import PortForge.Central.Lifecycle

namespace Central

open Transaction

/-- `HeartbeatRequest`, for the host its bearer token proves. -/
structure HeartbeatIn where
  report : HostReport
  timestamp : Datetime

/-- The row of a host that was not known. -/
def firstHost (hostId : Uuid) (report : HostReport) (now : ℤ) : Host where
  id := hostId
  hostname := report.hostname
  operatingSystem := report.operatingSystem
  osVersion := report.osVersion
  architecture := report.architecture
  agentVersion := report.agentVersion
  dockerAvailable := report.dockerAvailable
  protocolVersion := report.protocolVersion
  firstSeen := now
  lastSeen := now
  status := "online"
  lifecycleState := .active
  lastScanObservedAt := none
  lastError := none
  decommissionedAt := none
  decommissionReason := none
  contractVersion := report.contractVersion
  pythonVersion := report.pythonVersion

/-- `HostRepository.upsert`. -/
def upsertHost (hostId : Uuid) (report : HostReport) (now : ℤ) : Service Unit := do
  let host ← select fun db => db.getHost hostId
  match host with
  | none => add (.insertHost (firstHost hostId report now))
  | some _ => add (.reportHost hostId report now)
  flush

/-- Whether the host counts as offline up to this heartbeat. The subtraction of an aware
instant from a naive one raises. -/
def wasOffline (env : Environment) (timestamp : Datetime) : Option Host → Service Bool
  | none => pure true
  | some host =>
      if host.lifecycleState = .decommissioned then
        raise (.valueError "Host identity is decommissioned.")
      else if timestamp.aware then
        pure ((env.health host.lastSeen timestamp.micros).1 = .offline ∨ host.status ≠ "online")
      else raise .typeError

/-- The event of a host that comes online. -/
def hostOnlineEvent (hostId : Uuid) (hostname : String) (id : Uuid) (timestamp : ℤ) :
    ActivityEvent where
  id := id
  hostId := hostId
  timestamp := timestamp
  eventType := .hostOnline
  port := none
  protocol := none
  bindAddress := none
  source := none
  identityContext := some hostname
  reservationId := none
  summary := s!"Host '{hostname}' came online"
  metadata := none

/-- The event is recorded only for a host that was offline. -/
def announceOnline (hostId : Uuid) (hostname : String) (timestamp : ℤ) (offline : Bool) :
    Service Unit :=
  if offline then do
    let id ← newUuid
    add (.insertActivity (hostOnlineEvent hostId hostname id timestamp))
  else pure ()

/-- `record_heartbeat`. -/
def recordHeartbeat (env : Environment) (hostId : Uuid) (heartbeat : HeartbeatIn) :
    Service Host := do
  let existing ← select fun db => db.getHost hostId
  whenReadable (existing.all Host.readable) do
    let offline ← wasOffline env heartbeat.timestamp existing
    let now := env.stored heartbeat.timestamp
    upsertHost hostId heartbeat.report now
    announceOnline hostId heartbeat.report.hostname now offline
    commit
    let host ← refreshHost hostId
    whenReadable host.readable (pure host)

/-! ## What the response delivers -/

/-- `ProbeRepository.list_pending_for_host`. -/
def Db.listPendingProbes (db : Db) (hostId : Uuid) (now : ℤ) (limit : ℕ) : List HostProbe :=
  ((db.probes.filter fun probe =>
    probe.hostId = hostId ∧ probe.status = .pending ∧ now ≤ probe.expiresAt).insertionSort
      fun a b => a.createdAt ≤ b.createdAt).take limit

/-- Each probe is marked as delivered. -/
def deliverProbes (now : ℤ) : List HostProbe → Service Unit
  | [] => pure ()
  | probe :: probes => do
      add (.deliverProbe probe.id now)
      deliverProbes now probes

/-- `claim_pending_probes`. -/
def claimPendingProbes (env : Environment) (hostId : Uuid) : Service (List HostProbe) := do
  let now ← clock
  let pending ← select fun db =>
    db.listPendingProbes hostId now env.settings.maxProbesDeliveredPerHeartbeat
  deliverProbes now pending
  if pending = [] then pure pending
  else do
    commit
    pure pending

/-- `UpgradeRepository.get_pending_for_host`: the oldest upgrade nobody has claimed. -/
def Db.getPendingForHost (db : Db) (hostId : Uuid) : Option HostUpgrade :=
  ((db.upgrades.filter fun upgrade =>
    upgrade.hostId = hostId ∧ (upgrade.state = .approved ∨ upgrade.state = .waitingForAgent)
    ).insertionSort fun a b => a.createdAt ≤ b.createdAt).head?

/-- `PendingUpgradeOut`. -/
structure PendingUpgrade where
  id : Uuid
  targetVersion : String
  artifactUrl : String
  artifactSha256 : String
  state : UpgradeState
  allowDowngrade : Bool
  deriving DecidableEq

/-- The upgrade as the response carries it. -/
def pendingUpgrade (env : Environment) (host : Host) (upgrade : HostUpgrade) : PendingUpgrade where
  id := upgrade.id
  targetVersion := upgrade.targetVersion
  artifactUrl := upgrade.artifactUrl
  artifactSha256 := upgrade.artifactSha256
  state := upgrade.state
  allowDowngrade :=
    match given host.agentVersion with
    | none => false
    | some agentVersion => versionCompare env upgrade.targetVersion agentVersion < 0

/-- `HeartbeatResponse`. -/
structure HeartbeatOut where
  hostId : Uuid
  lastSeen : ℤ
  status : String
  pendingProbes : List HostProbe
  pendingUpgrade : Option PendingUpgrade

/-- The endpoint `heartbeat`. -/
def heartbeatEndpoint (env : Environment) (hostId : Uuid) (heartbeat : HeartbeatIn) :
    Service HeartbeatOut := do
  let host ← recordHeartbeat env hostId heartbeat
  let delivered ← claimPendingProbes env hostId
  let pending ← select fun db => db.getPendingForHost hostId
  pure
    { hostId := host.id
      lastSeen := host.lastSeen
      status := host.status
      pendingProbes := delivered
      pendingUpgrade := pending.map (pendingUpgrade env host) }

/-! ## What a heartbeat can write -/

/-- The write is one of a heartbeat's. -/
def Write.IsBeating : Write → Prop
  | .insertHost _ => True
  | .reportHost _ _ _ => True
  | .insertActivity _ => True
  | .deliverProbe _ _ => True
  | _ => False

/-- The write records that a host is alive. -/
def Write.IsRecording : Write → Prop
  | .insertHost _ => True
  | .reportHost _ _ _ => True
  | .insertActivity _ => True
  | _ => False

theorem observes_wasOffline (env : Environment) (timestamp : Datetime) (host : Option Host) :
    (wasOffline env timestamp host).Observes := by
  cases host with
  | none => trivial
  | some host =>
      rw [wasOffline]
      split_ifs <;> trivial

section Adds

variable {P : Write → Prop}

theorem adds_upsertHost {hostId : Uuid} {report : HostReport} {now : ℤ}
    (hfirst : P (.insertHost (firstHost hostId report now)))
    (hagain : P (.reportHost hostId report now)) : (upsertHost hostId report now).Adds P := by
  refine observes_select.adds.bind fun host => ?_
  cases host with
  | none => exact Program.Adds.bind ⟨hfirst, trivial⟩ fun _ => adds_flush
  | some host => exact Program.Adds.bind ⟨hagain, trivial⟩ fun _ => adds_flush

theorem adds_announceOnline (hactivity : ∀ event, P (.insertActivity event)) (hostId : Uuid)
    (hostname : String) (timestamp : ℤ) (offline : Bool) :
    (announceOnline hostId hostname timestamp offline).Adds P := by
  rw [announceOnline]
  split
  · exact observes_newUuid.adds.bind fun _ => ⟨hactivity _, trivial⟩
  · trivial

theorem adds_deliverProbes (hdeliver : ∀ id now, P (.deliverProbe id now)) (now : ℤ)
    (probes : List HostProbe) : (deliverProbes now probes).Adds P := by
  induction probes with
  | nil => trivial
  | cons probe probes ih => exact ⟨hdeliver _ _, ih⟩

theorem adds_claimPendingProbes (hdeliver : ∀ id now, P (.deliverProbe id now))
    (env : Environment) (hostId : Uuid) : (claimPendingProbes env hostId).Adds P := by
  refine observes_clock.adds.bind fun now => ?_
  refine observes_select.adds.bind fun pending => ?_
  refine (adds_deliverProbes hdeliver now pending).bind fun _ => ?_
  split
  · trivial
  · exact adds_commit.bind fun _ => trivial

theorem adds_record {env : Environment} {hostId : Uuid} {heartbeat : HeartbeatIn}
    (hfirst : P (.insertHost (firstHost hostId heartbeat.report (env.stored heartbeat.timestamp))))
    (hagain : P (.reportHost hostId heartbeat.report (env.stored heartbeat.timestamp)))
    (hactivity : ∀ event, P (.insertActivity event)) :
    (recordHeartbeat env hostId heartbeat).Adds P := by
  refine observes_select.adds.bind fun existing => adds_whenReadable _ ?_
  refine (observes_wasOffline env _ existing).adds.bind fun offline => ?_
  refine (adds_upsertHost hfirst hagain).bind fun _ => ?_
  refine (adds_announceOnline hactivity hostId _ _ offline).bind fun _ => ?_
  refine adds_commit.bind fun _ => (observes_refreshHost hostId).adds.bind fun host => ?_
  exact adds_whenReadable _ trivial

/-- A heartbeat writes on its host, the activity and the probes. -/
theorem adds_heartbeat {env : Environment} {hostId : Uuid} {heartbeat : HeartbeatIn}
    (hfirst : P (.insertHost (firstHost hostId heartbeat.report (env.stored heartbeat.timestamp))))
    (hagain : P (.reportHost hostId heartbeat.report (env.stored heartbeat.timestamp)))
    (hactivity : ∀ event, P (.insertActivity event))
    (hdeliver : ∀ id now, P (.deliverProbe id now)) :
    (heartbeatEndpoint env hostId heartbeat).Adds P := by
  refine (adds_record hfirst hagain hactivity).bind fun host => ?_
  refine (adds_claimPendingProbes hdeliver env hostId).bind fun delivered => ?_
  exact observes_select.adds.bind fun pending => trivial

end Adds

theorem adds_recordHeartbeat (env : Environment) (hostId : Uuid) (heartbeat : HeartbeatIn) :
    (recordHeartbeat env hostId heartbeat).Adds Write.IsRecording :=
  adds_record trivial trivial fun _ => trivial

theorem adds_heartbeatEndpoint (env : Environment) (hostId : Uuid) (heartbeat : HeartbeatIn) :
    (heartbeatEndpoint env hostId heartbeat).Adds Write.IsBeating :=
  adds_heartbeat trivial trivial (fun _ => trivial) fun _ _ => trivial

end Central
