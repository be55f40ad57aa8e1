/-
# The agent's upgrade handler

`run_upgrade`: the agent works through the phases of an upgrade that a heartbeat's
response delivered, and reports each of them to the central registry. What a phase does
on the host (the payload's checks, the download, the digest, `pip` and the restart of
the service) is seen here by its outcome: nothing, or the text of its exception. A report
that cannot be sent is logged and passed over.
-/

import PortForge.Central.Upgrades
import PortForge.Effects.Program

namespace Agent

open Effects

/-- A phase of an upgrade. -/
inductive UpgradePhase
  | validatePayload
  | downloadArtifact
  | verifySha256
  | installWheel
  | restartService
  deriving DecidableEq

/-- What the handler asks of its surroundings. -/
inductive UpgradeOp
  | /-- `client.report_upgrade_status`. -/
    report (upgradeId : Central.Uuid) (status : Central.UpgradeStatusIn)
  | perform (phase : UpgradePhase)

/-- What it is answered: nothing, or the text of the exception a phase ended with. -/
def UpgradeOp.Answer : UpgradeOp → Type
  | report _ _ => Unit
  | perform _ => Option String

/-- A program of the handler. -/
abbrev UpgradeProgram := Program UpgradeOp UpgradeOp.Answer Empty

/-- `_report`. -/
def report (upgradeId : Central.Uuid) (state : String) (failureReason : Option String) :
    UpgradeProgram Unit :=
  .call (.report upgradeId
    { state := state, failureReason := failureReason, reportedVersion := none }) fun _ => .ret ()

/-- A phase, and the rest of the upgrade where it succeeds; its failure is reported. -/
def attempt (upgradeId : Central.Uuid) (phase : UpgradePhase) (blame : String)
    (next : UpgradeProgram Bool) : UpgradeProgram Bool :=
  .call (.perform phase) fun (answer : Option String) =>
    match answer with
    | none => next
    | some error => (report upgradeId "FAILED" (some (blame ++ error))).bind fun _ => .ret false

/-- `run_upgrade`. -/
def runUpgrade (upgradeId : Central.Uuid) : UpgradeProgram Bool :=
  attempt upgradeId .validatePayload "" do
    report upgradeId "DOWNLOADING" none
    attempt upgradeId .downloadArtifact "Download failed: " do
      report upgradeId "VERIFYING" none
      attempt upgradeId .verifySha256 "" do
        report upgradeId "INSTALLING" none
        attempt upgradeId .installWheel "Installation failed: " do
          report upgradeId "RESTARTING" none
          attempt upgradeId .restartService "Restart failed: " (pure true)

/-- The operation is not a report that names the version the agent runs. -/
def UpgradeOp.Unversioned : UpgradeOp → Prop
  | report _ status => status.reportedVersion = none
  | perform _ => True

theorem uses_report (upgradeId : Central.Uuid) (state : String) (failureReason : Option String) :
    (report upgradeId state failureReason).Uses UpgradeOp.Unversioned := ⟨rfl, fun _ => trivial⟩

theorem uses_attempt (upgradeId : Central.Uuid) (phase : UpgradePhase) (blame : String)
    {next : UpgradeProgram Bool} (hnext : next.Uses UpgradeOp.Unversioned) :
    (attempt upgradeId phase blame next).Uses UpgradeOp.Unversioned := by
  refine ⟨trivial, fun answer => ?_⟩
  cases answer with
  | none => exact hnext
  | some error => exact (uses_report upgradeId _ _).bind fun _ => trivial

/-- No report of an upgrade names the version the agent runs. -/
theorem uses_runUpgrade (upgradeId : Central.Uuid) :
    (runUpgrade upgradeId).Uses UpgradeOp.Unversioned := by
  refine uses_attempt upgradeId _ _ ((uses_report upgradeId _ _).bind fun _ => ?_)
  refine uses_attempt upgradeId _ _ ((uses_report upgradeId _ _).bind fun _ => ?_)
  refine uses_attempt upgradeId _ _ ((uses_report upgradeId _ _).bind fun _ => ?_)
  refine uses_attempt upgradeId _ _ ((uses_report upgradeId _ _).bind fun _ => ?_)
  exact uses_attempt upgradeId _ _ trivial

end Agent
