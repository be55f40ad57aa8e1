/-
# Workflows

`apply_workflow` allocates at Central and, where the manifest maps its ports to files, plans
and applies the mutation; when that fails it compensates. What it decides by is the record
it keeps of each request id, the hash of the manifest, and what Central answers.
-/

import PortForge.Agent.ConfigManager
import PortForge.Central.Service

namespace Agent

open Python Effects

/-! ## Records and answers -/

/-- `NormalizedHostRef`. -/
structure NormalizedHostRef where
  id : String
  hostname : String

/-- `status` of a workflow record. -/
inductive WorkflowStatus
  | allocated
  | applied
  | failed
  deriving DecidableEq

/-- What `record.json` of a workflow holds. -/
structure WorkflowRecord where
  requestId : String
  manifestHash : String
  project : String
  host : NormalizedHostRef
  status : WorkflowStatus
  allocationId : Option String
  createdByThisAttempt : Option Bool := none
  mutationId : Option String := none
  configApplied : Bool := false
  ports : List (String × ℕ) := []
  createdAt : String
  updatedAt : String
  compensation : Option (List String) := none

/-- The body of `POST /api/allocations`, from `to_allocation_body`. -/
structure AllocationBody where
  project : String
  hostId : String
  requests : List ManifestPortRequest
  requestId : String

/-- What `apply_workflow` reads of a successful answer. -/
structure AllocationAnswer where
  allocation : AllocationData
  idempotentReplay : Bool
  status : String

/-- The `error` object of a refusal, where Central sends one. -/
structure UnderlyingError where
  code : Option String := none
  message : Option String := none
  details : List (List (String × Value)) := []

/-- The `CentralResult` of a create request. -/
inductive CreateResult
  | success (answer : AllocationAnswer)
  | failure (underlying : UnderlyingError) (error : Option String)

/-- `WorkflowError`. -/
structure WorkflowError where
  code : String
  message : String
  details : List (List (String × Value)) := []
  recovery : List (String × String) := []
  compensationActions : Option (List String) := none

/-- What `apply_workflow` raises. -/
inductive WorkflowFailure
  | workflow (error : WorkflowError)
  | /-- An exception of the config commands that nothing catches. -/
    config (failure : ConfigFailure)
  | /-- `OSError`, from a workflow record. -/
    os (message : String)
  | /-- An `HTTPException` of `http.client`, which `_request` does not catch. -/
    http (message : String)

/-- `_result_from_record`. -/
structure WorkflowResult where
  status : WorkflowStatus
  requestId : String
  project : String
  host : NormalizedHostRef
  allocationId : Option String
  createdByThisAttempt : Bool
  ports : List (String × ℕ)
  configApplied : Bool
  mutationId : Option String
  recovery : List (String × String)

/-- `_recovery_block`. -/
def recoveryBlock (allocationId mutationId : Option String) : List (String × String) :=
  (mutationId.map fun id =>
      ("rollback_command", s!"portforge config rollback {id} --project-root <dir>")).toList ++
    (allocationId.map fun id =>
      ("release_command", s!"portforge allocation release {id}")).toList

def resultFromRecord (record : WorkflowRecord) : WorkflowResult where
  status := record.status
  requestId := record.requestId
  project := record.project
  host := record.host
  allocationId := record.allocationId
  createdByThisAttempt := record.createdByThisAttempt.getD false
  ports := record.ports
  configApplied := record.configApplied
  mutationId := record.mutationId
  recovery :=
    recoveryBlock record.allocationId (if record.configApplied then record.mutationId else none)

/-! ## Operations -/

/-- What a workflow does to its surroundings. -/
inductive WorkflowOp
  | /-- `_load_workflow_record`. -/
    loadRecord (requestId : String)
  | /-- The write of `_save_workflow_record`. -/
    saveRecord (record : WorkflowRecord)
  | /-- `client.create_allocation`. -/
    create (body : AllocationBody)
  | /-- `client.release_allocation`. -/
    release (allocationId : String)
  | /-- A file operation of a config command. -/
    disk (op : FileOp Site Location Content)

/-- A call of the client ends with a result, or with an exception of `http.client` where the
answer breaks off. -/
@[reducible]
def WorkflowOp.Answer : WorkflowOp → Type
  | loadRecord _ => Option WorkflowRecord
  | saveRecord _ => Option String
  | create _ => Except String CreateResult
  | release _ => Except String Bool
  | disk op => op.Answer

abbrev WorkflowProgram := Program WorkflowOp WorkflowOp.Answer WorkflowFailure

/-- A config command inside a workflow, with the exception it ends with. -/
def attemptTask {α : Type} : Task α → WorkflowProgram (Except ConfigFailure α)
  | .ret value => .ret (.ok value)
  | .raise failure => .ret (.error failure)
  | .call op next => .call (.disk op) fun answer => attemptTask (next answer)

def loadWorkflowRecord (requestId : String) : WorkflowProgram (Option WorkflowRecord) :=
  .call (.loadRecord requestId) .ret

/-- `_save_workflow_record`. -/
def saveWorkflowRecord (record : WorkflowRecord) : WorkflowProgram WorkflowRecord :=
  .call (.saveRecord record) fun (answer : Option String) =>
    match answer with
    | none => .ret record
    | some error => .raise (.os error)

/-- What a call of the client gives its caller. -/
def answered {α : Type} : Except String α → WorkflowProgram α
  | .ok result => .ret result
  | .error message => .raise (.http message)

def createAllocation (body : AllocationBody) : WorkflowProgram CreateResult :=
  .call (.create body) answered

def releaseAllocation (allocationId : String) : WorkflowProgram Bool :=
  .call (.release allocationId) answered

/-! ## Calls -/

/-- A call of `apply_workflow`, with the identifier and the time it draws. -/
structure WorkflowCall where
  manifest : ProjectManifest
  host : NormalizedHostRef
  requestId : String
  mutationId : String
  now : String

variable {Document Documents : Type} (W : Workspace Document Documents)
  (hashManifest : ProjectManifest → String)

/-- Whether the manifest maps ports to files. -/
def ProjectManifest.hasConfig (manifest : ProjectManifest) : Bool :=
  match manifest.config with
  | none => false
  | some config =>
      ¬ (config.dotenv.isEmpty ∧ config.compose.isEmpty ∧ config.kubernetes.isEmpty)

/-- The record says that nothing is left to do. -/
def WorkflowRecord.complete (record : WorkflowRecord) (manifest : ProjectManifest) : Bool :=
  record.status = .applied ∨ record.status = .allocated ∧ ¬ manifest.hasConfig

/-- `to_allocation_body` of `build_normalized_request`. -/
def WorkflowCall.body (call : WorkflowCall) : AllocationBody where
  project := call.manifest.project
  hostId := call.host.id
  requests := call.manifest.requests
  requestId := call.requestId

/-- The record of a call, without an outcome. -/
def WorkflowCall.record (call : WorkflowCall) (existing : Option WorkflowRecord)
    (status : WorkflowStatus) (allocationId : Option String) : WorkflowRecord where
  requestId := call.requestId
  manifestHash := hashManifest call.manifest
  project := call.manifest.project
  host := call.host
  status := status
  allocationId := allocationId
  createdAt := (existing.map WorkflowRecord.createdAt).getD call.now
  updatedAt := call.now

/-- What the rollback part of `_compensate` reports. -/
def compensateConfig (mutationId now : String) : WorkflowProgram (List String) := do
  let outcome ← attemptTask (do
    let record ← loadRecord mutationId
    if record.status = .applied then
      let _ ← rollbackMutation W mutationId now
      pure "config_rolled_back"
    else pure "config_not_applied_nothing_to_roll_back")
  match outcome with
  | .ok action => .ret [action]
  | .error (.config _) => .ret ["config_rollback_check_failed"]
  | .error failure => .raise (.config failure)

/-- `_compensate`. -/
def compensate (mutationId : Option String) (now allocationId : String)
    (createdByThisAttempt : Bool) : WorkflowProgram (List String) := do
  let actions ← match mutationId with
    | none => .ret []
    | some mutationId => compensateConfig W mutationId now
  if createdByThisAttempt then
    let released ← releaseAllocation allocationId
    .ret (actions ++ [if released then "allocation_released" else "allocation_release_failed"])
  else .ret (actions ++ ["allocation_preserved_not_created_by_this_attempt"])

/-- The config step: the identifier of the mutation once it is planned, and how the step ends. -/
def configStep (call : WorkflowCall) (allocation : AllocationData) :
    WorkflowProgram (Option String × Except ConfigFailure Unit) := do
  let planned ← attemptTask (do
    let plan ← buildPlan W call.manifest allocation call.mutationId call.now
    persistPlan plan
    pure plan.mutationId)
  match planned with
  | .error failure => .ret (none, .error failure)
  | .ok mutationId =>
      let applied ← attemptTask (applyMutation W mutationId call.now)
      .ret (some mutationId, applied.map fun _ => ())

/-- The error that the handler of the config step works with; others pass it by. -/
def caughtFailure : ConfigFailure → Option ConfigError
  | .config error => some error
  | .path message => some ⟨"CONFIG_PATH_OUTSIDE_PROJECT", message, 400, []⟩
  | _ => none

/-- The handler of the config step. -/
def handleConfigFailure (call : WorkflowCall) (base : WorkflowRecord) (error : ConfigError)
    (mutationId : Option String) (allocationId : String) (createdByThisAttempt : Bool) :
    WorkflowProgram WorkflowResult := do
  let actions ← compensate W mutationId call.now allocationId createdByThisAttempt
  let _ ← saveWorkflowRecord
    { base with status := .failed, mutationId := mutationId, compensation := some actions }
  if "allocation_release_failed" ∈ actions ∨ "config_rollback_check_failed" ∈ actions then
    let code := error.code
    let message := error.message
    let listed := String.intercalate ", " actions
    .raise (.workflow
      { code := "WORKFLOW_COMPENSATION_FAILED"
        message := s!"Config step failed ({code}: {message}) and automatic compensation could " ++
          s!"not fully complete: {listed}. Manual cleanup required."
        details := [[("underlying_code", .str code), ("underlying_message", .str message)]]
        recovery :=
          recoveryBlock (if createdByThisAttempt then none else some allocationId) none })
  else
    .raise (.workflow
      { code := error.code, message := error.message, details := error.details
        compensationActions := some actions })

/-- What `apply_workflow` does with an active allocation. -/
def applyAllocated (call : WorkflowCall) (existing : Option WorkflowRecord)
    (allocation : AllocationData) (createdByThisAttempt : Bool) :
    WorkflowProgram WorkflowResult := do
  let base : WorkflowRecord :=
    { call.record hashManifest existing .allocated (some allocation.allocationId) with
      createdByThisAttempt := some createdByThisAttempt
      ports := portsByName allocation }
  let allocated ← saveWorkflowRecord base
  if call.manifest.hasConfig then
    let (mutationId, outcome) ← configStep W call allocation
    match outcome with
    | .error failure =>
        match caughtFailure failure with
        | none => .raise (.config failure)
        | some error =>
            handleConfigFailure W call base error mutationId allocation.allocationId
              createdByThisAttempt
    | .ok _ =>
        let record ← saveWorkflowRecord
          { base with status := .applied, mutationId := mutationId, configApplied := true }
        .ret (resultFromRecord record)
  else .ret (resultFromRecord allocated)

/-- What `apply_workflow` does with Central's answer. -/
def applyAnswered (call : WorkflowCall) (existing : Option WorkflowRecord)
    (createdByThisAttempt : Bool) : CreateResult → WorkflowProgram WorkflowResult
  | .failure underlying error => do
      let _ ← saveWorkflowRecord (call.record hashManifest existing .failed none)
      .raise (.workflow
        { code := underlying.code.getD "ALLOCATION_UNAVAILABLE"
          message := underlying.message.getD ((Central.given error).getD "Allocation failed.")
          details := underlying.details })
  | .success answer =>
      let allocationId := answer.allocation.allocationId
      let status := answer.status
      if status ≠ "active" then do
        let _ ← saveWorkflowRecord
          { call.record hashManifest existing .failed (some allocationId) with
            createdByThisAttempt := some false }
        let requestId := call.requestId
        .raise (.workflow
          { code := "WORKFLOW_STATE_INCONSISTENT"
            message := s!"request_id '{requestId}' already maps to allocation {allocationId}, " ++
              s!"which is no longer active (status={status}) -- likely released by an earlier " ++
              "attempt's compensation. Retry with a NEW request_id."
            details := [[("allocation_id", .str allocationId), ("status", .str status)]] })
      else applyAllocated W hashManifest call existing answer.allocation
        (createdByThisAttempt && !answer.idempotentReplay)

/-- `apply_workflow`. -/
def applyWorkflow (call : WorkflowCall) : WorkflowProgram WorkflowResult := do
  let existing ← loadWorkflowRecord call.requestId
  let proceed : WorkflowProgram WorkflowResult := do
    let result ← createAllocation call.body
    applyAnswered W hashManifest call existing
      ((existing.bind fun record => Central.given record.allocationId).isNone) result
  match existing with
  | none => proceed
  | some record =>
      let requestId := call.requestId
      if record.manifestHash ≠ hashManifest call.manifest then
        .raise (.workflow
          { code := "WORKFLOW_IDEMPOTENCY_CONFLICT"
            message := s!"request_id '{requestId}' was already used with a materially different " ++
              "manifest/config."
            details := [[("request_id", .str requestId)]] })
      else if record.complete call.manifest then .ret (resultFromRecord record)
      else proceed

end Agent
