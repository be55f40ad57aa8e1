/-
# The files of a project

Paths are resolved against the project root before anything is read, and files are
replaced in one piece. The directory of a mutation, with its record and backups, is
kept apart from the other files: its name is a fresh UUID, which no manifest names.
-/

import PortForge.Agent.DotenvEditor
import PortForge.Agent.Manifest
import PortForge.Effects.Storage

namespace Agent

open Python Effects

/-- A resolved path, by components. -/
abbrev Path := List String

def Path.text (path : Path) : String := "/" ++ "/".intercalate path

/-- The places that write, so that any one of them can be made to fail. -/
inductive Site
  | /-- `persist_plan`. -/
    plan
  | /-- The backups of `apply_mutation`. -/
    backup
  | /-- The targets of `apply_mutation`. -/
    target
  | /-- The restoring writes of `apply_mutation`. -/
    restore
  | /-- `_save_record`. -/
    record
  | /-- The restoring writes of `rollback_mutation`. -/
    rollback
  deriving DecidableEq, Repr

/-- `PlannedFile.kind`. -/
inductive FileKind
  | dotenv
  | compose
  | kubernetes
  deriving DecidableEq, Repr

def FileKind.value : FileKind → String
  | dotenv => "dotenv"
  | compose => "compose"
  | kubernetes => "kubernetes"

/-- `PlannedFile.action`. -/
inductive FileAction
  | willCreate
  | willUpdate
  | noChange
  deriving DecidableEq, Repr

/-- `status` of a mutation record. -/
inductive MutationStatus
  | planned
  | applied
  | rolledBack
  deriving DecidableEq, Repr

def MutationStatus.value : MutationStatus → String
  | planned => "PLANNED"
  | applied => "APPLIED"
  | rolledBack => "ROLLED_BACK"

/-- One file of a mutation record. -/
structure FileRecord where
  relativePath : String
  kind : FileKind
  action : FileAction
  beforeHash : Option String
  newContent : String
  afterHash : Option String
  deriving DecidableEq, Repr

/-- What `record.json` of a mutation holds. -/
structure MutationRecord where
  mutationId : String
  allocationId : String
  project : String
  projectRoot : String
  createdAt : String
  status : MutationStatus
  files : List FileRecord
  appliedAt : Option String
  rolledBackAt : Option String
  deriving DecidableEq, Repr

/-- The places that hold content. -/
inductive Location
  | /-- A file of the project. -/
    file (path : Path)
  | /-- The record of a mutation. -/
    record (mutationId : String)
  | /-- A backup of a mutation, by its file name. -/
    backup (mutationId name : String)
  deriving DecidableEq

/-- What a place holds. -/
@[reducible]
def Content : Location → Type
  | .file _ => ByteArray
  | .record _ => MutationRecord
  | .backup _ _ => ByteArray

/-- The disk under the agent. -/
abbrev AgentDisk := Disk Site Location Content

/-- The bytes of a project file. -/
def bytesAt (d : AgentDisk) (path : Path) : Option ByteArray := d.content (.file path)

/-- The record of a mutation. -/
def recordAt (d : AgentDisk) (mutationId : String) : Option MutationRecord :=
  d.content (.record mutationId)

/-- A backup of a mutation. -/
def backupAt (d : AgentDisk) (mutationId name : String) : Option ByteArray :=
  d.content (.backup mutationId name)

/-- `ConfigError`. -/
structure ConfigError where
  code : String
  message : String
  statusCode : ℕ
  details : List (List (String × Value))
  deriving Repr

/-- What the config commands raise. -/
inductive ConfigFailure
  | config (error : ConfigError)
  | /-- `ConfigPathError`. -/
    path (message : String)
  | /-- `OSError`. -/
    os (message : String)
  | /-- `UnicodeDecodeError`. -/
    unicode
  | /-- `ComposeError`. -/
    compose (error : EditorError)
  | /-- `KeyError`. -/
    key (name : String)
  deriving Repr

/-- A part of a config command. -/
abbrev Task := Program (FileOp Site Location Content) FileOp.Answer ConfigFailure

/-- `ComposeChange`. -/
structure ComposeChange where
  service : String
  containerPort : ℕ
  protocol : String
  beforeHost : Option String
  afterHost : String
  action : String
  deriving DecidableEq, Repr

/-- `KubernetesChange`. -/
structure KubernetesChange where
  kind : String
  name : String
  field : String
  container : Option String
  matchPort : ℕ
  before : Option ℤ
  after : ℕ
  action : String
  deriving DecidableEq, Repr

/-- The YAML editors: parsed Compose files, and lists of Kubernetes documents. -/
structure Editors (Document Documents : Type) where
  loadCompose : String → Except EditorError Document
  applyPortMapping : Document → (service : String) → (containerPort : ℕ) → (protocol : String) →
    (hostPort : ℕ) → Except EditorError (Document × ComposeChange)
  dumpCompose : Document → String
  loadKubernetesDocuments : String → Except EditorError Documents
  applyHostPort : Documents → KubernetesHostPortEntry → ℕ →
    Except EditorError (Documents × KubernetesChange)
  applyNodePort : Documents → KubernetesNodePortEntry → ℕ →
    Except EditorError (Documents × KubernetesChange)
  dumpKubernetesDocuments : Documents → String

/-- A project: its root, how the operating system resolves a file name of the manifest
against it, SHA-256, and the YAML editors. -/
structure Workspace (Document Documents : Type) where
  root : Path
  /-- `str(project_root)`. -/
  rootText : String
  /-- `(project_root / file).resolve()`. -/
  locate : String → Path
  sha256 : ByteArray → String
  editors : Editors Document Documents

variable {Document Documents : Type} (W : Workspace Document Documents)

/-- `resolve_within_root`. -/
def resolveWithinRoot (file : String) : Except ConfigFailure Path :=
  if W.root.isPrefixOf (W.locate file) then .ok (W.locate file)
  else
    let candidate := (W.locate file).text
    let root := W.root.text
    .error (.path s!"'{file}' resolves to {candidate}, which is outside the project root {root}.")

/-- `read_file_bytes` of a project file. -/
def readFile (path : Path) : Task (Option ByteArray) := .call (.read (.file path)) .ret

/-- `read_file_bytes` of a backup. -/
def readBackup (mutationId name : String) : Task (Option ByteArray) :=
  .call (.read (.backup mutationId name)) .ret

/-- `atomic_write`. -/
def atomicWrite (site : Site) (location : Location) (content : Content location) : Task Unit :=
  .call (.write site location content) fun (answer : Option String) =>
    match answer with
    | none => .ret ()
    | some error => .raise (.os error)

/-- `atomic_write` of a project file. -/
def writeFile (site : Site) (path : Path) (content : ByteArray) : Task Unit :=
  atomicWrite site (.file path) content

/-- `target.unlink(missing_ok=True)`. -/
def unlinkFile (site : Site) (path : Path) : Task Unit :=
  .call (.unlink site (.file path)) fun (answer : Option String) =>
    match answer with
    | none => .ret ()
    | some error => .raise (.os error)

/-- Put a project file back as it was. -/
def restoreFile (site : Site) (path : Path) (original : Option ByteArray) : Task Unit :=
  match original with
  | some bytes => writeFile site path bytes
  | none => unlinkFile site path

/-- `_load_record`. -/
def loadRecord (mutationId : String) : Task MutationRecord :=
  .call (.read (.record mutationId)) fun (answer : Option MutationRecord) =>
    match answer with
    | some record => .ret record
    | none =>
        .raise (.config
          { code := "CONFIG_MUTATION_NOT_FOUND"
            message := s!"No mutation record found for '{mutationId}'."
            statusCode := 404
            details := [] })

/-- `_save_record`, and the write of `persist_plan`. -/
def saveRecord (site : Site) (record : MutationRecord) : Task Unit :=
  atomicWrite site (.record record.mutationId) record

end Agent
