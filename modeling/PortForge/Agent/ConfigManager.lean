/-
# Planning, applying and rolling back config mutations

A plan computes the new content of every mapped file and is kept as a mutation
record. Applying it checks that no file has changed since, backs the originals up,
and writes every target or none. Rolling it back checks that no file has changed
since it was applied, and restores the originals.
-/

import Mathlib
import PortForge.Agent.ConfigFiles

namespace Agent

open Python Effects

/-! ## Plans -/

/-- Whether a word occurs in a text. -/
def occursIn (word : List Char) : List Char → Bool
  | [] => word.isEmpty
  | c :: rest => word.isPrefixOf (c :: rest) || occursIn word rest

/-- `_SENSITIVE_KEY_RE.search(key)`, on the ASCII characters of a variable name. -/
def isSensitiveKey (key : String) : Bool :=
  ["SECRET", "PASSWORD", "TOKEN", "KEY", "CREDENTIAL"].any fun word =>
    occursIn word.toList (key.toList.map Char.toUpper)

/-- `_redact_if_sensitive`. -/
def redactIfSensitive (key : String) (value : Option String) : Option String :=
  value.map fun text => if isSensitiveKey key then "<redacted>" else text

/-- An entry of `PlannedFile.changes`. -/
inductive Change
  | dotenv (key : String) (before : Option String) (after : String) (action : DotenvAction)
  | compose (change : ComposeChange)
  | kubernetes (change : KubernetesChange) (allocation : String)
  deriving DecidableEq, Repr

/-- `PlannedFile`. -/
structure PlannedFile where
  relativePath : String
  kind : FileKind
  action : FileAction
  beforeHash : Option String
  newContent : String
  changes : List Change
  deriving DecidableEq, Repr

/-- `ConfigPlan`. -/
structure ConfigPlan where
  mutationId : String
  allocationId : String
  project : String
  projectRoot : String
  createdAt : String
  files : List PlannedFile
  deriving DecidableEq, Repr

/-- What the config commands use of Central's allocation. -/
structure AllocationData where
  allocationId : String
  allocations : List (String × ℕ)
  deriving DecidableEq, Repr

/-- `_ports_by_name`. -/
def portsByName (allocation : AllocationData) : List (String × ℕ) :=
  allocation.allocations.foldl (fun ports entry => setItem ports entry.1 entry.2) []

def configError (code message : String) (statusCode : ℕ) (details : List (List (String × Value))) :
    ConfigFailure :=
  .config ⟨code, message, statusCode, details⟩

/-- `except ComposeError` and its siblings: the editor's error under its own code. -/
def editorRefused (error : EditorError) : ConfigFailure :=
  configError error.code error.message 409 error.details

/-- `ports_by_name[name]`. -/
def portOf (ports : List (String × ℕ)) (name : String) : Except ConfigFailure ℕ :=
  match ports.lookup name with
  | some port => .ok port
  | none => .error (.key name)

/-- `data.decode("utf-8")`. -/
def decode (bytes : ByteArray) : Except ConfigFailure String :=
  match String.fromUTF8? bytes with
  | some text => .ok text
  | none => .error .unicode

variable {Document Documents : Type} (W : Workspace Document Documents)

/-- The target of a mapping, or `CONFIG_PATH_OUTSIDE_PROJECT`. -/
def resolveMapped (file : String) : Except ConfigFailure Path :=
  match resolveWithinRoot W file with
  | .error (.path message) => .error (configError "CONFIG_PATH_OUTSIDE_PROJECT" message 400 [])
  | result => result

/-- The content `_plan_dotenv_file` computes from the original bytes. -/
def dotenvContent (mapping : DotenvFileMapping) (ports : List (String × ℕ))
    (original : Option ByteArray) : Except ConfigFailure (String × List DotenvChange) := do
  let originalText ← original.mapM decode
  let resolved ← mapping.values.mapM fun entry => do
    let port ← portOf ports entry.2
    pure (entry.1, toString port)
  (computeDotenvUpdate originalText resolved).mapError editorRefused

/-- `_plan_dotenv_file`. -/
def planDotenvFile (mapping : DotenvFileMapping) (ports : List (String × ℕ)) :
    Task PlannedFile := do
  let target ← Program.ofExcept (resolveMapped W mapping.file)
  let original ← readFile target
  let (newText, changes) ← Program.ofExcept (dotenvContent mapping ports original)
  pure
    { relativePath := mapping.file
      kind := .dotenv
      action :=
        if original.isNone then .willCreate else if changes ≠ [] then .willUpdate else .noChange
      beforeHash := original.map W.sha256
      newContent := newText
      changes := changes.map fun change =>
        .dotenv change.key (redactIfSensitive change.key change.before) change.after change.action }

/-- A Compose or Kubernetes file has to exist. -/
def requireOriginal (label file : String) (original : Option ByteArray) :
    Except ConfigFailure ByteArray :=
  match original with
  | some bytes => .ok bytes
  | none =>
      .error (configError "CONFIG_FILE_NOT_FOUND" s!"{label} file '{file}' does not exist." 404 [])

/-- What a Compose or Kubernetes plan says of its file. -/
def plannedYaml (kind : FileKind) (file : String) (original : ByteArray)
    (originalText newText : String)
    (changes : List Change) : PlannedFile where
  relativePath := file
  kind := kind
  action := if newText ≠ originalText then .willUpdate else .noChange
  beforeHash := some (W.sha256 original)
  newContent := newText
  changes := changes

/-- One port entry of a Compose mapping. -/
def applyComposeEntry (ports : List (String × ℕ)) (service : String)
    (state : Document × List Change) (entry : ComposePortEntry) :
    Except ConfigFailure (Document × List Change) := do
  let hostPort ← portOf ports entry.allocation
  let (document, change) ←
    (W.editors.applyPortMapping state.1 service entry.container entry.protocol hostPort).mapError
      editorRefused
  pure (document, state.2 ++ [.compose change])

/-- The edited Compose document. The parser's error is not caught here. -/
def composeContent (mapping : ComposeFileMapping) (ports : List (String × ℕ))
    (originalText : String) :
    Except ConfigFailure (String × List Change) := do
  let document ← (W.editors.loadCompose originalText).mapError ConfigFailure.compose
  let edits := mapping.services.flatMap fun service => service.2.map fun entry => (service.1, entry)
  let (document, changes) ← edits.foldlM
    (fun state edit => applyComposeEntry W ports edit.1 state edit.2) (document, [])
  pure (W.editors.dumpCompose document, changes)

/-- `_plan_compose_file`. -/
def planComposeFile (mapping : ComposeFileMapping) (ports : List (String × ℕ)) :
    Task PlannedFile := do
  let target ← Program.ofExcept (resolveMapped W mapping.file)
  let found ← readFile target
  let original ← Program.ofExcept (requireOriginal "Compose" mapping.file found)
  let originalText ← Program.ofExcept (decode original)
  let (newText, changes) ← Program.ofExcept (composeContent W mapping ports originalText)
  pure (plannedYaml W .compose mapping.file original originalText newText changes)

/-- `DEFAULT_NODEPORT_RANGE`. -/
def defaultNodePortRange : ℕ × ℕ := (30000, 32767)

/-- One host port entry of a Kubernetes mapping. -/
def applyHostPortEntry (ports : List (String × ℕ)) (state : Documents × List Change)
    (entry : KubernetesHostPortEntry) : Except ConfigFailure (Documents × List Change) := do
  let hostPort ← portOf ports entry.allocation
  let (documents, change) ← (W.editors.applyHostPort state.1 entry hostPort).mapError editorRefused
  pure (documents, state.2 ++ [.kubernetes change entry.allocation])

/-- One node port entry of a Kubernetes mapping; the port has to lie in the default range. -/
def applyNodePortEntry (ports : List (String × ℕ)) (state : Documents × List Change)
    (entry : KubernetesNodePortEntry) : Except ConfigFailure (Documents × List Change) := do
  let nodePort ← portOf ports entry.allocation
  let (low, high) := defaultNodePortRange
  if low ≤ nodePort ∧ nodePort ≤ high then
    let (documents, change) ← (W.editors.applyNodePort state.1 entry nodePort).mapError
        editorRefused
    pure (documents, state.2 ++ [.kubernetes change entry.allocation])
  else
    let name := entry.allocation
    .error (configError "KUBERNETES_NODEPORT_OUT_OF_RANGE"
      (s!"Allocation '{name}' resolved to port {nodePort}, which is outside the supported " ++
        s!"local-cluster NodePort range {low}-{high} (kind / Docker Desktop Kubernetes default). " ++
        s!"Give 'ports.{name}' a 'preferred' value in that range.")
      409
      [[("allocation", .str name), ("port", .int nodePort), ("range", .list [.int low, .int high])]])

/-- The edited Kubernetes documents. -/
def kubernetesContent (mapping : KubernetesFileMapping) (ports : List (String × ℕ))
    (originalText : String) : Except ConfigFailure (String × List Change) := do
  let documents ← (W.editors.loadKubernetesDocuments originalText).mapError editorRefused
  let state ← mapping.hostPorts.foldlM (applyHostPortEntry W ports) (documents, [])
  let (documents, changes) ← mapping.nodePorts.foldlM (applyNodePortEntry W ports) state
  pure (W.editors.dumpKubernetesDocuments documents, changes)

/-- `_plan_kubernetes_file`. -/
def planKubernetesFile (mapping : KubernetesFileMapping) (ports : List (String × ℕ)) :
    Task PlannedFile := do
  let target ← Program.ofExcept (resolveMapped W mapping.file)
  let found ← readFile target
  let original ← Program.ofExcept (requireOriginal "Kubernetes" mapping.file found)
  let originalText ← Program.ofExcept (decode original)
  let (newText, changes) ← Program.ofExcept (kubernetesContent W mapping ports originalText)
  pure (plannedYaml W .kubernetes mapping.file original originalText newText changes)

/-- The plans of a list of mappings, in order. -/
def planAll {α : Type} (plan : α → Task PlannedFile) : List α → Task (List PlannedFile)
  | [] => pure []
  | mapping :: mappings => do
      let file ← plan mapping
      let files ← planAll plan mappings
      pure (file :: files)

/-- `build_plan`, with the identifier and the time it draws. -/
def buildPlan (manifest : ProjectManifest) (allocation : AllocationData)
    (mutationId createdAt : String) : Task ConfigPlan :=
  match manifest.config with
  | some config =>
      if config.dotenv.isEmpty && config.compose.isEmpty &&
          config.kubernetes.isEmpty then notDeclared
      else do
        let ports := portsByName allocation
        let dotenv ← planAll (fun mapping => planDotenvFile W mapping ports) config.dotenv
        let compose ← planAll (fun mapping => planComposeFile W mapping ports) config.compose
        let kubernetes ← planAll (fun mapping => planKubernetesFile W mapping ports)
            config.kubernetes
        pure
          { mutationId := mutationId
            allocationId := allocation.allocationId
            project := manifest.project
            projectRoot := W.rootText
            createdAt := createdAt
            files := dotenv ++ compose ++ kubernetes }
  | none => notDeclared
where
  notDeclared : Task ConfigPlan :=
    .raise (configError "CONFIG_NOT_DECLARED"
      "This manifest declares no 'config' mappings -- nothing to plan." 400 [])

/-! ## Mutation records -/

/-- What a plan's record says of one file. -/
def PlannedFile.record (file : PlannedFile) : FileRecord where
  relativePath := file.relativePath
  kind := file.kind
  action := file.action
  beforeHash := file.beforeHash
  newContent := file.newContent
  afterHash := none

/-- The record of a plan. -/
def ConfigPlan.record (plan : ConfigPlan) : MutationRecord where
  mutationId := plan.mutationId
  allocationId := plan.allocationId
  project := plan.project
  projectRoot := plan.projectRoot
  createdAt := plan.createdAt
  status := .planned
  files := plan.files.map PlannedFile.record
  appliedAt := none
  rolledBackAt := none

/-- `persist_plan`. -/
def persistPlan (plan : ConfigPlan) : Task Unit := saveRecord .plan plan.record

/-- `_safe_backup_name`: separators become two underscores. -/
def safeBackupName (relativePath : String) : String :=
  String.ofList (relativePath.toList.flatMap fun c => if c = '/' ∨ c = '\\' then ['_',
      '_'] else [c])

/-! ## Applying -/

/-- The bytes that a file of the record is to hold. -/
def FileRecord.rendered (file : FileRecord) : ByteArray := file.newContent.toUTF8

/-- `_validate_rendered_file`. -/
def validateRenderedFile (kind : FileKind) (content : ByteArray) : Except ConfigFailure Unit :=
  let refused (message : String) : Except ConfigFailure Unit :=
    let label := kind.value
    .error (configError "CONFIG_VALIDATION_FAILED"
      s!"Rendered {label} configuration is invalid: {message}" 409 [])
  match String.fromUTF8? content with
  | none => refused "invalid utf-8"
  | some text =>
      match kind with
      | .dotenv => .ok ()
      | .compose =>
          match W.editors.loadCompose text with
          | .ok _ => .ok ()
          | .error error => refused error.message
      | .kubernetes =>
          match W.editors.loadKubernetesDocuments text with
          | .ok _ => .ok ()
          | .error error => refused error.message

/-- The check, before anything is written, that every file is as it was. `expected` is
the hash the record holds for it. -/
def checkUnchanged (expected : FileRecord → Option String) (code reason : String) :
    List FileRecord → Task Unit
  | [] => pure ()
  | file :: files => do
      let target ← Program.ofExcept (resolveWithinRoot W file.relativePath)
      let live ← readFile target
      if live.map W.sha256 = expected file then checkUnchanged expected code reason files
      else
        let name := file.relativePath
        .raise (configError code s!"'{name}' {reason}" 409 [[("file", .str name)]])

/-- `apply_mutation`'s check. -/
def checkUnchangedSincePlan : List FileRecord → Task Unit :=
  checkUnchanged W (fun file => file.beforeHash) "CONFIG_CHANGED_SINCE_PLAN"
    ("has changed since this plan was generated -- refusing to overwrite possibly-uncommitted " ++
      "edits. Run 'config plan' again.")

/-- A file of the record with its target and its original content. -/
structure Prepared where
  file : FileRecord
  target : Path
  original : Option ByteArray

/-- The loop that backs the originals up. -/
def backUp (mutationId : String) : List FileRecord → Task (List Prepared)
  | [] => pure []
  | file :: files => do
      let target ← Program.ofExcept (resolveWithinRoot W file.relativePath)
      let original ← readFile target
      match original with
      | some bytes => atomicWrite .backup (.backup mutationId (safeBackupName file.relativePath)) bytes
      | none => pure ()
      let prepared ← backUp mutationId files
      pure (⟨file, target, original⟩ :: prepared)

/-- What the loop does with one target after it is written: read back, validated, and
recorded with its hash. -/
def verifyWritten (prepared : Prepared) (live : Option ByteArray) :
    Except ConfigFailure FileRecord :=
  if live = some prepared.file.rendered then
    match validateRenderedFile W prepared.file.kind prepared.file.rendered with
    | .ok _ => .ok { prepared.file with afterHash := some (W.sha256 prepared.file.rendered) }
    | .error failure => .error failure
  else
    let name := prepared.file.relativePath
    .error (configError "CONFIG_VALIDATION_FAILED"
      s!"Written file '{name}' did not match the planned content." 409 [])

/-- The loop of the `try` block: the targets written so far, and the files with their
hashes or what stopped it. -/
def writeTargets : List Prepared → List (Path × Option ByteArray) →
    Task (List (Path × Option ByteArray) × Except ConfigFailure (List FileRecord))
  | [], written => pure (written, .ok [])
  | prepared :: rest, written =>
      .call (.write .target (.file prepared.target) prepared.file.rendered)
        fun (answer : Option String) =>
          match answer with
          | some error => .ret (written, .error (.os error))
          | none =>
              (readFile prepared.target).bind fun live =>
                match verifyWritten W prepared live with
                | .error failure =>
                    .ret (written ++ [(prepared.target, prepared.original)], .error failure)
                | .ok file =>
                    (writeTargets rest (written ++ [(prepared.target, prepared.original)])).bind
                      fun result => .ret (result.1, result.2.map fun files => file :: files)

/-- The loop of the handler: every written target gets its original content back. -/
def restoreAll (site : Site) : List (Path × Option ByteArray) → Task Unit
  | [] => pure ()
  | (target, original) :: rest => do
      restoreFile site target original
      restoreAll site rest

/-- What the handler raises. -/
def surfaced : ConfigFailure → ConfigFailure
  | .os message => configError "CONFIG_APPLY_FAILED" s!"Failed to apply config mutation: {message}" 500 []
  | failure => failure

/-- `apply_mutation`, with the time it draws. -/
def applyMutation (mutationId now : String) : Task MutationRecord := do
  let record ← loadRecord mutationId
  if record.status = .applied then pure record
  else do
    checkUnchangedSincePlan W record.files
    let prepared ← backUp W mutationId record.files
    let (written, outcome) ← writeTargets W prepared []
    match outcome with
    | .error failure => do
        restoreAll .restore written
        .raise (surfaced failure)
    | .ok files => do
        let applied := { record with status := .applied, files := files, appliedAt := some now }
        saveRecord .record applied
        pure applied

/-! ## Rolling back -/

/-- `rollback_mutation`'s check. -/
def checkUnchangedSinceApply : List FileRecord → Task Unit :=
  checkUnchanged W (fun file => file.afterHash) "CONFIG_CHANGED_SINCE_APPLY"
    ("has changed since PortForge applied this mutation -- refusing to overwrite " ++
      "possibly-uncommitted edits.")

/-- The loop that restores every file from its backup; a file without one is removed. -/
def restoreFromBackups (mutationId : String) : List FileRecord → Task Unit
  | [] => pure ()
  | file :: files => do
      let target ← Program.ofExcept (resolveWithinRoot W file.relativePath)
      let original ← readBackup mutationId (safeBackupName file.relativePath)
      restoreFile .rollback target original
      restoreFromBackups mutationId files

/-- `rollback_mutation`, with the time it draws. -/
def rollbackMutation (mutationId now : String) : Task MutationRecord := do
  let record ← loadRecord mutationId
  match record.status with
  | .rolledBack => pure record
  | .applied => do
      checkUnchangedSinceApply W record.files
      restoreFromBackups W mutationId record.files
      let rolledBack := { record with status := .rolledBack, rolledBackAt := some now }
      saveRecord .record rolledBack
      pure rolledBack
  | .planned =>
      .raise (configError "CONFIG_ROLLBACK_FAILED"
        s!"Mutation '{mutationId}' has status 'PLANNED', not APPLIED -- nothing to roll back." 409 [])

end Agent
