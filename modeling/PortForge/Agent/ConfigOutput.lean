/-
# What the config commands print

`config plan` and `config status` print fields of a mutation. `config apply` and `config
rollback` print its record as it is stored, and with it the new content of every file. What is
printed is compared without hashes, identifiers and timestamps.
-/

import PortForge.Agent.ConfigCommands

namespace Agent

open Python Effects

/-! ## The printed JSON -/

def FileAction.value : FileAction → String
  | willCreate => "will_create"
  | willUpdate => "will_update"
  | noChange => "no_change"

def DotenvAction.value : DotenvAction → String
  | update => "update"
  | append => "append"

/-- A text, or `null`. -/
def textOrNull : Option String → Value
  | some text => .str text
  | none => .scalar .none

/-- An object. -/
def object (fields : List (String × Value)) : Value :=
  .dict (fields.map fun field => (.str field.1, field.2))

/-- An entry of `PlannedFile.changes`. -/
def Change.json : Change → Value
  | dotenv key before after action =>
      object [("key", .str key), ("before", textOrNull before), ("after", .str after),
        ("action", .str action.value)]
  | compose change =>
      object [("service", .str change.service), ("container_port", .int change.containerPort),
        ("protocol", .str change.protocol), ("before", textOrNull change.beforeHost),
        ("after", .str change.afterHost), ("action", .str change.action)]
  | kubernetes change allocation =>
      object [("kind", .str change.kind), ("name", .str change.name), ("field", .str change.field),
        ("container", textOrNull change.container), ("match_port", .int change.matchPort),
        ("allocation", .str allocation),
        ("before", (change.before.map Value.int).getD (.scalar .none)),
        ("after", .int change.after), ("action", .str change.action)]

/-- `plan_to_json`. -/
def planToJson (plan : ConfigPlan) : Value :=
  object [("committed", .scalar (.bool false)), ("mutation_id", .str plan.mutationId),
    ("allocation_id", .str plan.allocationId), ("project", .str plan.project),
    ("changes", .list (plan.files.map fun file =>
      object [("file", .str file.relativePath), ("type", .str file.kind.value),
        ("action", .str file.action.value), ("changes", .list (file.changes.map Change.json))]))]

/-- A file of `record.json`. -/
def FileRecord.json (file : FileRecord) : Value :=
  object ([("relative_path", .str file.relativePath), ("kind", .str file.kind.value),
      ("action", .str file.action.value), ("before_hash", textOrNull file.beforeHash),
      ("new_content", .str file.newContent)] ++
    file.afterHash.toList.map fun hash => ("after_hash", .str hash))

/-- The fields of `record.json`. -/
def MutationRecord.fields (record : MutationRecord) : List (String × Value) :=
  [("mutation_id", .str record.mutationId), ("allocation_id", .str record.allocationId),
      ("project", .str record.project), ("project_root", .str record.projectRoot),
      ("created_at", .str record.createdAt), ("status", .str record.status.value),
      ("files", .list (record.files.map FileRecord.json))] ++
    (record.appliedAt.toList.map fun time => ("applied_at", .str time)) ++
    record.rolledBackAt.toList.map fun time => ("rolled_back_at", .str time)

/-- What `_cmd_config_apply` prints of the record that `apply_mutation` returns. -/
def appliedJson (record : MutationRecord) : Value :=
  object (("committed", .scalar (.bool true)) :: record.fields)

/-- What `_cmd_config_rollback` prints of the record that `rollback_mutation` returns. -/
def rolledBackJson (record : MutationRecord) : Value := object record.fields

/-- What `get_status` makes of a record. -/
def statusJson (record : MutationRecord) : Value :=
  object [("mutation_id", .str record.mutationId), ("allocation_id", .str record.allocationId),
    ("project", .str record.project), ("status", .str record.status.value),
    ("created_at", .str record.createdAt), ("applied_at", textOrNull record.appliedAt),
    ("rolled_back_at", textOrNull record.rolledBackAt),
    ("files", .list (record.files.map fun file =>
      object [("file", .str file.relativePath), ("type", .str file.kind.value),
        ("action", .str file.action.value)]))]

/-- `get_status`. -/
def getStatus (mutationId : String) : Task Value := do
  let record ← loadRecord mutationId
  pure (statusJson record)

/-! ## What is compared -/

/-- The fields that hold hashes, identifiers and timestamps. -/
def identifying : List String :=
  ["before_hash", "after_hash", "mutation_id", "allocation_id", "created_at", "applied_at",
    "rolled_back_at"]

mutual

/-- The value without hashes, identifiers and timestamps. -/
def anonymous : Value → Value
  | .scalar value => .scalar value
  | .list items => .list (anonymousItems items)
  | .dict fields => .dict (anonymousFields fields)

def anonymousItems : List Value → List Value
  | [] => []
  | item :: items => anonymous item :: anonymousItems items

def anonymousFields : List (Scalar × Value) → List (Scalar × Value)
  | [] => []
  | (key, value) :: fields =>
      if identifying.any fun name => key = .str name then anonymousFields fields
      else (key, anonymous value) :: anonymousFields fields

end

/-- What the commands print; an error is printed with its code, message and details. -/
structure Printed where
  plan : Except ConfigFailure Value
  apply : Except ConfigFailure Value
  status : Except ConfigFailure Value
  rollback : Except ConfigFailure Value

/-- What is printed, without hashes, identifiers and timestamps. -/
def Printed.shown (printed : Printed) : Printed where
  plan := printed.plan.map anonymous
  apply := printed.apply.map anonymous
  status := printed.status.map anonymous
  rollback := printed.rollback.map anonymous

variable {Document Documents : Type} (W : Workspace Document Documents)

/-- The identifier and the times that the commands draw. -/
structure Drawn where
  mutationId : String
  createdAt : String
  appliedAt : String
  rolledBackAt : String

/-- `config plan`, `config apply`, `config status` and `config rollback` one after the other, and
what they print. Below `.portforge/mutations` there is the directory of this mutation only. -/
def runCommands (manifest : ProjectManifest) (allocation : AllocationData) (drawn : Drawn)
    (d : AgentDisk) : Printed :=
  let planned := onDisk (configPlan W manifest allocation drawn.mutationId drawn.createdAt) d
  let applied := onDisk
    (configApply W [drawn.mutationId] allocation.allocationId drawn.appliedAt) planned.2
  let status := onDisk (getStatus drawn.mutationId) applied.2
  let rolledBack := onDisk (rollbackMutation W drawn.mutationId drawn.rolledBackAt) status.2
  { plan := planned.1.map planToJson
    apply := applied.1.map appliedJson
    status := status.1
    rollback := rolledBack.1.map rolledBackJson }

/-- A project tree without a mutation. -/
def projectTree (files : Path → Option ByteArray) (faults : Site → ℕ → Option String) :
    AgentDisk where
  content location :=
    match location with
    | .file path => files path
    | .record _ => none
    | .backup _ _ => none
  faults := faults

variable {W} {d : AgentDisk} {manifest : ProjectManifest} {allocation : AllocationData}

/-- What is printed, command by command. -/
theorem runCommands_eq {drawn : Drawn} {planned : Except ConfigFailure ConfigPlan}
    {applied rolledBack : Except ConfigFailure MutationRecord}
    {status : Except ConfigFailure Value} {d₁ d₂ d₃ d₄ : AgentDisk}
    (hplan : onDisk (configPlan W manifest allocation drawn.mutationId drawn.createdAt) d =
      (planned, d₁))
    (happly : onDisk (configApply W [drawn.mutationId] allocation.allocationId drawn.appliedAt) d₁ =
      (applied, d₂))
    (hstatus : onDisk (getStatus drawn.mutationId) d₂ = (status, d₃))
    (hrollback : onDisk (rollbackMutation W drawn.mutationId drawn.rolledBackAt) d₃ =
      (rolledBack, d₄)) :
    runCommands W manifest allocation drawn d =
      ⟨planned.map planToJson, applied.map appliedJson, status, rolledBack.map rolledBackJson⟩ := by
  simp only [runCommands, hplan, happly, hstatus, hrollback]

/-! ## What is left of a record -/

section Json

variable {record record' : MutationRecord}

theorem anonymousItems_map {α : Type} (f : α → Value) (items : List α) :
    anonymousItems (items.map f) = items.map fun item => anonymous (f item) := by
  induction items with
  | nil => rfl
  | cons item items ih => rw [List.map_cons, List.map_cons, anonymousItems, ih]

theorem anonymous_fileJson (file : FileRecord) :
    anonymous file.json =
      object [("relative_path", .str file.relativePath), ("kind", .str file.kind.value),
        ("action", .str file.action.value), ("new_content", .str file.newContent)] := by
  obtain ⟨relativePath, kind, action, beforeHash, newContent, afterHash⟩ := file
  cases beforeHash <;> cases afterHash <;> rfl

/-- What is left of the record that `config apply` prints. -/
theorem anonymous_appliedJson (record : MutationRecord) :
    anonymous (appliedJson record) =
      object [("committed", .scalar (.bool true)), ("project", .str record.project),
        ("project_root", .str record.projectRoot), ("status", .str record.status.value),
        ("files", .list (record.files.map fun file => anonymous file.json))] := by
  rw [← anonymousItems_map]
  obtain ⟨mutationId, allocationId, project, projectRoot, createdAt, status, files, appliedAt,
    rolledBackAt⟩ := record
  cases appliedAt <;> cases rolledBackAt <;> rfl

/-- Lists whose images under one function are equal have equal images under what it determines. -/
theorem map_eq_of_map_eq {α β γ : Type} {f : α → β} {g : α → γ} (h : ∀ a b, f a = f b → g a = g b)
    {first second : List α} (hsame : first.map f = second.map f) : first.map g = second.map g := by
  induction first generalizing second with
  | nil =>
      cases second with
      | nil => rfl
      | cons _ _ => cases hsame
  | cons a first ih =>
      cases second with
      | nil => cases hsame
      | cons b second =>
          obtain ⟨hhead, htail⟩ := List.cons.inj hsame
          rw [List.map_cons, List.map_cons, h a b hhead, ih htail]

/-- It holds the new contents. -/
theorem newContents_of_appliedJson
    (h : anonymous (appliedJson record) = anonymous (appliedJson record')) :
    record.files.map FileRecord.newContent = record'.files.map FileRecord.newContent := by
  rw [anonymous_appliedJson, anonymous_appliedJson] at h
  simp only [object, List.map_cons, List.map_nil, Value.dict.injEq, List.cons.injEq, Prod.mk.injEq,
    Value.list.injEq, true_and, and_true] at h
  refine map_eq_of_map_eq (fun file file' hsame => ?_) h.2.2.2
  rw [anonymous_fileJson, anonymous_fileJson] at hsame
  simp only [object, List.map_cons, List.map_nil, Value.dict.injEq, List.cons.injEq, Prod.mk.injEq,
    Value.str, Value.scalar.injEq, Scalar.str.injEq, true_and, and_true] at hsame
  exact hsame.2.2.2

theorem map_eq_of_forall₂ {α β : Type} {R : α → α → Prop} {f : α → β} {first second : List α}
    (h : List.Forall₂ R first second) (hf : ∀ a b, R a b → f a = f b) :
    first.map f = second.map f := by
  induction h with
  | nil => rfl
  | cons hhead _ ih => rw [List.map_cons, List.map_cons, hf _ _ hhead, ih]

end Json

end Agent
