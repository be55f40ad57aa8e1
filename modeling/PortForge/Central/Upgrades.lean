/-
# Agent upgrades

`upgrade_service`: an upgrade is created, reported on by its host's agent and rolled
back by the admin. Each service call here is the endpoint's: the service, the commit,
and the row read again for the answer. The name of the artifact file, which is only
passed through, is left out.
-/

import PortForge.Central.Health
import PortForge.Central.Repositories

namespace Central

open Transaction

/-- `version_compare.compare`. -/
def versionCompare (env : Environment) (a b : String) : ℤ :=
  match env.compareVersions a b with
  | some .lt => -1
  | some .gt => 1
  | _ => 0

/-! ## The states of an upgrade -/

/-- `_AGENT_STATES_ORDER`. -/
def agentStatesOrder : List UpgradeState :=
  [.approved, .waitingForAgent, .downloading, .verifying, .installing, .restarting,
    .verifyingHealth, .succeeded]

/-- `_AGENT_SETTABLE`. -/
def agentSettable : List UpgradeState := agentStatesOrder.drop 2 ++ [.failed]

/-- The agent-settable state a text names. -/
def readSettable (text : String) : Option UpgradeState :=
  agentSettable.find? fun state => state.value = text

/-- The place of a state in the agent's order, -1 for a state outside it. -/
def UpgradeState.order (state : UpgradeState) : ℤ :=
  match agentStatesOrder.idxOf? state with
  | some index => index
  | none => -1

/-- `db.refresh(upgrade)`. -/
def refreshUpgrade (upgradeId : Uuid) : Service HostUpgrade := do
  let row ← select fun db => db.getUpgrade upgradeId
  match row with
  | some upgrade => pure upgrade
  | none => raise .invalidRequest

/-- The state a new upgrade starts in. -/
def initialUpgradeState (env : Environment) (host : Host) (now : ℤ) : UpgradeState :=
  if (env.health host.lastSeen now).1 = .offline then .waitingForAgent else .approved

/-! ## Creating an upgrade -/

/-- `UpgradeCreateRequest`. -/
structure UpgradeIn where
  targetVersion : String
  artifactUrl : String
  artifactSha256 : String
  requestId : Option String
  previousArtifactUrl : Option String
  previousArtifactSha256 : Option String

/-- The upgrade an idempotent request opened before. -/
def findRequested (hostId : Uuid) (requestId : Option String) : Service (Option HostUpgrade) :=
  match given requestId with
  | none => pure none
  | some requestId => select fun db => db.getUpgradeByRequestId hostId requestId

/-- A target older than the agent is refused. -/
def refuseDowngrade (env : Environment) (host : Host) (targetVersion : String) : Service Unit :=
  match given host.agentVersion with
  | none => pure ()
  | some agentVersion =>
      if versionCompare env targetVersion agentVersion < 0 then
        raise (.upgrade (.olderVersion targetVersion agentVersion))
      else pure ()

/-- For the configured target version the artifact must be the configured one. -/
def checkArtifact (settings : Settings) (request : UpgradeIn) : Service Unit :=
  match given settings.updateTargetVersion, given settings.updateArtifactUrl,
      given settings.updateArtifactSha256 with
  | some version, some url, some sha256 =>
      if request.targetVersion = version ∧
          (request.artifactUrl ≠ url ∨ request.artifactSha256 ≠ sha256) then
        raise (.upgrade .artifactMismatch)
      else pure ()
  | _, _, _ => pure ()

/-- The row of a new upgrade. -/
def requestedUpgrade (env : Environment) (host : Host) (request : UpgradeIn) (id : Uuid)
    (now createdAt : ℤ) : HostUpgrade where
  id := id
  hostId := host.id
  requestId := request.requestId
  state := initialUpgradeState env host now
  targetVersion := request.targetVersion
  artifactUrl := request.artifactUrl
  artifactSha256 := request.artifactSha256
  previousVersion := host.agentVersion
  previousArtifactUrl := request.previousArtifactUrl
  previousArtifactSha256 := request.previousArtifactSha256
  failureReason := none
  approvedAt := if initialUpgradeState env host now = .approved then some now else none
  claimedAt := none
  completedAt := none
  createdBy := some "admin"
  createdAt := createdAt

/-- The insertion at the end of `create_upgrade`. -/
def openUpgrade (env : Environment) (host : Host) (request : UpgradeIn) : Service HostUpgrade := do
  let now ← clock
  let id ← newUuid
  let createdAt ← serverNow
  let upgrade := requestedUpgrade env host request id now createdAt
  add (.insertUpgrade upgrade)
  flush
  pure upgrade

/-- One non-terminal upgrade per host. -/
def openUnlessPending (env : Environment) (host : Host) (request : UpgradeIn) :
    Service HostUpgrade := do
  let pending ← select fun db => db.getNonTerminalForHost host.id
  match pending with
  | some upgrade => raise (.upgrade (.pendingUpgrade upgrade.state))
  | none => openUpgrade env host request

/-- `create_upgrade`. -/
def createUpgrade (env : Environment) (hostId : Uuid) (request : UpgradeIn) :
    Service HostUpgrade := do
  let host ← select fun db => db.getHost hostId
  match host with
  | none => raise (.upgrade .hostNotFound)
  | some host =>
      if host.lifecycleState = .decommissioned then raise (.upgrade .hostDecommissioned)
      else do
        let existing ← findRequested hostId request.requestId
        match existing with
        | some upgrade => pure upgrade
        | none => do
            refuseDowngrade env host request.targetVersion
            checkArtifact env.settings request
            openUnlessPending env host request

/-- What an endpoint does with the upgrade of its service: commit, and read it again. -/
def settleUpgrade (upgrade : HostUpgrade) : Service HostUpgrade := do
  commit
  refreshUpgrade upgrade.id

/-- The endpoint `create_upgrade`. -/
def createUpgradeEndpoint (env : Environment) (hostId : Uuid) (request : UpgradeIn) :
    Service HostUpgrade := do
  let upgrade ← createUpgrade env hostId request
  settleUpgrade upgrade

/-! ## Reporting on an upgrade -/

/-- `UpgradeStatusUpdate`. -/
structure UpgradeStatusIn where
  state : String
  failureReason : Option String
  reportedVersion : Option String

/-- The state a report moves an upgrade to, or the check it fails. -/
def reportedState (hostId : Uuid) (upgrade : HostUpgrade) (report : UpgradeStatusIn) :
    Except UpgradeError UpgradeState :=
  if upgrade.hostId ≠ hostId then .error .notOwned
  else if upgrade.state.terminal then .error (.alreadyTerminal upgrade.state)
  else
    match readSettable report.state with
    | none => .error (.notSettable report.state)
    | some newState =>
        if newState ≠ .failed ∧ newState.order ≤ upgrade.state.order then
          .error (.notForward upgrade.state newState)
        else if newState = .succeeded ∧ given report.reportedVersion ≠ some
            upgrade.targetVersion then
          .error (.versionMismatch upgrade.targetVersion report.reportedVersion)
        else .ok newState

/-- The columns a report sets. -/
def statusChange (upgrade : HostUpgrade) (newState : UpgradeState) (failureReason : Option String)
    (now : ℤ) : UpgradeChange where
  state := newState
  claimedAt := if upgrade.claimedAt = none then some now else none
  failureReason := if newState = .failed then some failureReason else none
  completedAt := if newState = .failed ∨ newState = .succeeded then some now else none

/-- The end of an upgrade is shown on its host. -/
def surfaceOutcome (hostId : Uuid) (newState : UpgradeState) (failureReason : Option String) :
    Service Unit :=
  if newState = .failed ∨ newState = .succeeded then do
    let host ← select fun db => db.getHost hostId
    match host with
    | none => pure ()
    | some _ =>
        add (.setHostError hostId
          (if newState = .failed then
            some ((given failureReason).getD "Upgrade failed without reason.")
          else none))
  else pure ()

/-- What an accepted report sets. -/
def recordStatus (hostId : Uuid) (upgrade : HostUpgrade) (newState : UpgradeState)
    (failureReason : Option String) : Service HostUpgrade := do
  let now ← clock
  let change := statusChange upgrade newState failureReason now
  add (.updateUpgrade upgrade.id change)
  surfaceOutcome hostId newState failureReason
  flush
  pure (upgrade.after change)

/-- `update_upgrade_status`. -/
def updateUpgradeStatus (hostId upgradeId : Uuid) (report : UpgradeStatusIn) :
    Service HostUpgrade := do
  let row ← select fun db => db.getUpgrade upgradeId
  match row with
  | none => raise (.upgrade .upgradeNotFound)
  | some upgrade =>
      match reportedState hostId upgrade report with
      | .error error => raise (.upgrade error)
      | .ok newState => recordStatus hostId upgrade newState report.failureReason

/-- The endpoint `report_upgrade_status`, for the host its bearer token proves. -/
def reportUpgradeStatus (hostId upgradeId : Uuid) (report : UpgradeStatusIn) :
    Service HostUpgrade := do
  let upgrade ← updateUpgradeStatus hostId upgradeId report
  settleUpgrade upgrade

/-! ## Rolling an upgrade back -/

/-- The row that targets the previous artifact of an upgrade. -/
def rollbackRow (env : Environment) (original : HostUpgrade) (host : Host)
    (previousVersion previousUrl previousSha256 : String) (id : Uuid) (now createdAt : ℤ) :
    HostUpgrade where
  id := id
  hostId := original.hostId
  requestId := none
  state := initialUpgradeState env host now
  targetVersion := previousVersion
  artifactUrl := previousUrl
  artifactSha256 := previousSha256
  previousVersion := host.agentVersion
  previousArtifactUrl := some original.artifactUrl
  previousArtifactSha256 := some original.artifactSha256
  failureReason := none
  approvedAt := if initialUpgradeState env host now = .approved then some now else none
  claimedAt := none
  completedAt := none
  createdBy := some "admin"
  createdAt := createdAt

/-- `ROLLED_BACK`, from a state that is not terminal or from success. -/
def markRolledBack (original : HostUpgrade) (now : ℤ) : Service Unit :=
  if original.state.terminal = false ∨ original.state = .succeeded then
    add (.updateUpgrade original.id
      { state := .rolledBack
        completedAt := if original.completedAt = none then some now else none })
  else pure ()

/-- The insertion at the end of `rollback_upgrade`. -/
def openRollback (env : Environment) (original : HostUpgrade) (host : Host)
    (previousVersion previousUrl previousSha256 : String) : Service HostUpgrade := do
  let now ← clock
  let id ← newUuid
  let createdAt ← serverNow
  let row := rollbackRow env original host previousVersion previousUrl previousSha256 id now
      createdAt
  add (.insertUpgrade row)
  markRolledBack original now
  flush
  pure row

/-- No upgrade of the host may be open but the one that is rolled back. -/
def rollbackUnlessPending (env : Environment) (original : HostUpgrade) (host : Host)
    (previousVersion previousUrl previousSha256 : String) : Service HostUpgrade := do
  let pending ← select fun db => db.getNonTerminalForHost original.hostId
  match pending with
  | none => openRollback env original host previousVersion previousUrl previousSha256
  | some upgrade =>
      if upgrade.id ≠ original.id then raise (.upgrade (.pendingUpgrade upgrade.state))
      else openRollback env original host previousVersion previousUrl previousSha256

/-- The checks of `rollback_upgrade` on the host. -/
def rollbackOnHost (env : Environment) (original : HostUpgrade)
    (previousVersion previousUrl previousSha256 : String) : Service HostUpgrade := do
  let host ← select fun db => db.getHost original.hostId
  match host with
  | none => raise (.upgrade .hostNotFound)
  | some host =>
      if host.lifecycleState = .decommissioned then raise (.upgrade .hostDecommissioned)
      else rollbackUnlessPending env original host previousVersion previousUrl previousSha256

/-- The checks of `rollback_upgrade` on the upgrade it found. -/
def rollbackOriginal (env : Environment) (original : HostUpgrade) : Service HostUpgrade :=
  match given original.previousVersion, given original.previousArtifactUrl,
      given original.previousArtifactSha256 with
  | none, _, _ => raise (.upgrade .noPreviousVersion)
  | some version, some url, some sha256 => rollbackOnHost env original version url sha256
  | some _, _, _ => raise (.upgrade .noPreviousArtifact)

/-- `rollback_upgrade`. -/
def rollbackUpgrade (env : Environment) (upgradeId : Uuid) : Service HostUpgrade := do
  let row ← select fun db => db.getUpgrade upgradeId
  match row with
  | none => raise (.upgrade .upgradeNotFound)
  | some original => rollbackOriginal env original

/-- The endpoint `rollback_upgrade`. -/
def rollbackUpgradeEndpoint (env : Environment) (upgradeId : Uuid) : Service HostUpgrade := do
  let upgrade ← rollbackUpgrade env upgradeId
  settleUpgrade upgrade

end Central
