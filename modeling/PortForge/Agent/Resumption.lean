/-
# Resuming a workflow

`apply_workflow` is killed, any number of times and at any operation, and then called once more
with the same request id. Where every kill comes before the attempt has written a project
file, the mutation that the last call reports can be rolled back to the files as they were
before the first.
-/

import PortForge.Agent.Compensation
import PortForge.Agent.MutationRuns

namespace Agent

open Effects

/-! ## A project and its allocation -/

/-- The disk, the record of the request id, and the allocation that Central holds for it, with
whether it is active. -/
structure Project where
  disk : AgentDisk
  record : Option WorkflowRecord
  held : Option (AllocationData × Bool)

def Project.on (s : Project) (disk : AgentDisk) : Project := { s with disk := disk }

/-- What an operation answers and leaves behind; Central gives the request id one allocation, and
calls it a replay from then on. -/
def Project.handle (drawn : AllocationData) : (op : WorkflowOp) → Project → op.Answer × Project
  | .loadRecord _, s => (s.record, s)
  | .saveRecord record, s => (none, { s with record := some record })
  | .create _, s =>
      match s.held with
      | none => (.ok (.success ⟨drawn, false, "active"⟩), { s with held := some (drawn, true) })
      | some (allocation, active) =>
          (.ok (.success ⟨allocation, true, if active then "active" else "released"⟩), s)
  | .release _, s => (.ok true, { s with held := s.held.map fun held => (held.1, false) })
  | .disk op, s => ((Disk.handle op s.disk).1, s.on (Disk.handle op s.disk).2)

/-- An operation that writes no project file, and does not say that the files are written. -/
def Preliminary : WorkflowOp → Prop
  | .saveRecord record => record.status ≠ .applied
  | .disk op => op.Within (fun _ => True) fun location => ∀ path, location ≠ .file path
  | _ => True

/-- A project that kills have left as it was, as far as its files and the record tell. -/
structure Unwritten (files : Path → Option ByteArray) (s : Project) : Prop where
  files : bytesAt s.disk = files
  reliable : s.disk.Reliable
  record : ∀ record, s.record = some record → record.status ≠ .applied

section Kills

variable {Document Documents : Type} (W : Workspace Document Documents)
  (hashManifest : ProjectManifest → String)

/-- What a number of killed attempts can make of a project, every one killed before it has written
a project file. -/
inductive KilledEarly (s₀ : Project) : Project → Prop
  | start : KilledEarly s₀ s₀
  | kill {s : Project} (call : WorkflowCall) (drawn : AllocationData) (n : ℕ)
      (hbefore : KilledEarly s₀ s)
      (hearly : (applyWorkflow W hashManifest call).PerformsOnly (Project.handle drawn)
        Preliminary n s) :
      KilledEarly s₀ ((applyWorkflow W hashManifest call).stoppedAfter (Project.handle drawn) n s)

variable {W hashManifest}

theorem Unwritten.handle {files : Path → Option ByteArray} {s : Project} {drawn : AllocationData}
    {op : WorkflowOp} (h : Unwritten files s) (hop : Preliminary op) :
    Unwritten files (Project.handle drawn op s).2 := by
  cases op with
  | loadRecord requestId => exact h
  | saveRecord record =>
      refine ⟨h.files, h.reliable, fun other hother => ?_⟩
      cases hother
      exact hop
  | create body =>
      simp only [Project.handle]
      split <;> exact ⟨h.files, h.reliable, h.record⟩
  | release allocationId => exact ⟨h.files, h.reliable, h.record⟩
  | disk op =>
      refine ⟨?_, h.reliable.run (p := (.call op .ret : Task op.Answer)), h.record⟩
      rw [← h.files]
      ext1 path
      exact Disk.handle_content_of_within hop (by simp)

theorem KilledEarly.untouched {s₀ s : Project} (h : KilledEarly W hashManifest s₀ s)
    (hnone : s₀.record = none) (hreliable : s₀.disk.Reliable) :
    Unwritten (bytesAt s₀.disk) s := by
  induction h with
  | start =>
      refine ⟨rfl, hreliable, fun record hrecord => ?_⟩
      rw [hnone] at hrecord
      cases hrecord
  | kill call drawn n _ hearly ih => exact hearly.induction ih fun op s hop h => h.handle hop

end Kills

/-! ## The plan of a manifest -/

/-- The files that a manifest maps ports to. -/
def ProjectManifest.mappedFiles (manifest : ProjectManifest) : List String :=
  match manifest.config with
  | none => []
  | some config =>
      config.dotenv.map DotenvFileMapping.file ++ config.compose.map ComposeFileMapping.file ++
        config.kubernetes.map KubernetesFileMapping.file

/-- The mapped files are different files, also by the names of their backups. -/
structure SeparateFiles {Document Documents : Type} (W : Workspace Document Documents)
    (manifest : ProjectManifest) : Prop where
  targets : (manifest.mappedFiles.map W.locate).Nodup
  backups : (manifest.mappedFiles.map safeBackupName).Nodup

section Plans

variable {Document Documents : Type} {W : Workspace Document Documents}
  {call : WorkflowCall} {allocation : AllocationData} {d : AgentDisk}

theorem returns_planAll {α : Type} {plan : α → Task PlannedFile} {file : α → String}
    (h : ∀ mapping, (plan mapping).Returns fun planned => planned.relativePath = file mapping)
    (mappings : List α) :
    (planAll plan mappings).Returns fun files =>
      files.map PlannedFile.relativePath = mappings.map file := by
  induction mappings with
  | nil => exact rfl
  | cons mapping mappings ih =>
      refine (h mapping).bind_of fun planned hplanned => ih.bind_of fun files hfiles => ?_
      show List.map _ (planned :: files) = _
      rw [List.map_cons, List.map_cons, hplanned, hfiles]

/-- A plan has one file for each mapping, in order. -/
theorem files_of_buildPlan {mutationId createdAt : String} (manifest : ProjectManifest) :
    (buildPlan W manifest allocation mutationId createdAt).Returns fun plan =>
      plan.files.map PlannedFile.relativePath = manifest.mappedFiles := by
  have hdotenv (mapping : DotenvFileMapping) (ports : List (String × ℕ)) :
      (planDotenvFile W mapping ports).Returns fun planned =>
        planned.relativePath = mapping.file :=
    .bind fun _ => .bind fun _ => .bind fun _ => rfl
  have hcompose (mapping : ComposeFileMapping) (ports : List (String × ℕ)) :
      (planComposeFile W mapping ports).Returns fun planned =>
        planned.relativePath = mapping.file :=
    .bind fun _ => .bind fun _ => .bind fun _ => .bind fun _ => .bind fun _ => rfl
  have hkubernetes (mapping : KubernetesFileMapping) (ports : List (String × ℕ)) :
      (planKubernetesFile W mapping ports).Returns fun planned =>
        planned.relativePath = mapping.file :=
    .bind fun _ => .bind fun _ => .bind fun _ => .bind fun _ => .bind fun _ => rfl
  rw [buildPlan, ProjectManifest.mappedFiles]
  cases hconfig : manifest.config with
  | none => trivial
  | some config =>
      simp only
      split
      · trivial
      · refine (returns_planAll (fun mapping => hdotenv mapping _) _).bind_of
          fun dotenv hdotenv => ?_
        refine (returns_planAll (fun mapping => hcompose mapping _) _).bind_of
          fun compose hcompose => ?_
        refine (returns_planAll (fun mapping => hkubernetes mapping _) _).bind_of
          fun kubernetes hkubernetes => ?_
        show List.map _ (dotenv ++ compose ++ kubernetes) = _
        rw [List.map_append, List.map_append, hdotenv, hcompose, hkubernetes]

/-- Planning that succeeds has built a plan and put it on file. -/
theorem plan_of_planned {mutationId : String} {d₂ : AgentDisk}
    (h : onDisk (planned W call allocation) d = (.ok mutationId, d₂)) :
    ∃ plan d₁, onDisk (buildPlan W call.manifest allocation call.mutationId call.now) d =
        (.ok plan, d₁) ∧ onDisk (persistPlan plan) d₁ = (.ok (), d₂) ∧
      mutationId = call.mutationId := by
  rcases hbuild : onDisk (buildPlan W call.manifest allocation call.mutationId call.now) d with
    ⟨result, d₁⟩
  cases result with
  | error failure =>
      rw [planned, Program.bind_eq, onDisk_bind_of_error hbuild] at h
      cases h
  | ok plan =>
      rw [planned, Program.bind_eq, onDisk_bind_of_ok hbuild, Program.bind_eq] at h
      rcases hpersist : onDisk (persistPlan plan) d₁ with ⟨outcome, d'⟩
      cases outcome with
      | error failure =>
          rw [onDisk_bind_of_error hpersist] at h
          cases h
      | ok _ =>
          rw [onDisk_bind_of_ok hpersist] at h
          cases h
          exact ⟨plan, d₁, rfl, hpersist, returns_buildPlan.run hbuild⟩

/-- Separate files keep hashes and backups apart. -/
theorem SeparateFiles.faithful (h : SeparateFiles W call.manifest) {plan : ConfigPlan}
    (hfiles : plan.files.map PlannedFile.relativePath = call.manifest.mappedFiles)
    (content : Path → Option ByteArray) :
    HashesAgree W plan.record.files ∧ BackupsFaithful W content plan.record.files := by
  have hpaths : plan.record.files.map FileRecord.relativePath = call.manifest.mappedFiles := by
    rw [← hfiles]
    show (plan.files.map PlannedFile.record).map _ = _
    rw [List.map_map]
    rfl
  have htargets : (plan.record.files.map (FileRecord.target W)).Nodup := by
    have hnodup := h.targets
    rw [← hpaths, List.map_map] at hnodup
    exact hnodup
  have hbackups : (plan.record.files.map fun file => safeBackupName file.relativePath).Nodup := by
    have hnodup := h.backups
    rw [← hpaths, List.map_map] at hnodup
    exact hnodup
  refine ⟨fun file hfile other hother hsame => ?_, fun file hlast => ?_⟩
  · rw [List.inj_on_of_nodup_map htargets hfile hother hsame]
  · exact lastBackup_of_nodup hbackups hlast.mem

end Plans

/-! ## The last call -/

section Retry

variable {Document Documents : Type} {W : Workspace Document Documents}
  {hashManifest : ProjectManifest → String} {call : WorkflowCall} {drawn : AllocationData}
  {s s' : Project} {result : WorkflowResult}

theorem Project.holdsDisk (drawn : AllocationData) :
    HoldsDisk (Project.handle drawn) Project.disk Project.on :=
  ⟨fun _ _ => rfl, fun _ _ => rfl, fun _ _ _ => rfl, fun _ => rfl⟩

/-- The handler of the config step never returns. -/
theorem returns_handleConfigFailure (base : WorkflowRecord) (error : ConfigError)
    (mutationId : Option String) (allocationId : String) (created : Bool) :
    (handleConfigFailure W call base error mutationId allocationId created).Returns
      fun _ => False := by
  refine Program.Returns.bind fun actions => Program.Returns.bind fun _ => ?_
  simp only
  split <;> trivial

/-- A `try` block that succeeds has planned and applied. -/
theorem done_of_configured {d : AgentDisk} {allocation : AllocationData}
    (h : (onDisk (configured W call allocation) d).1 = .ok ()) :
    (onDisk (planned W call allocation) d).1.toOption = some call.mutationId ∧ ∃ d₁ record,
      onDisk (planned W call allocation) d = (.ok call.mutationId, d₁) ∧
      onDisk (applyMutation W call.mutationId call.now) d₁ =
        (.ok record, (onDisk (configured W call allocation) d).2) := by
  rcases hplanned : onDisk (planned W call allocation) d with ⟨planning, d₁⟩
  cases planning with
  | error failure =>
      have hconfigured : onDisk (configured W call allocation) d = (.error failure, d₁) :=
        onDisk_bind_of_error hplanned
      rw [hconfigured] at h
      cases h
  | ok mutationId =>
      obtain ⟨-, -, -, -, rfl⟩ := plan_of_planned hplanned
      rw [onDisk_configured call allocation hplanned] at h ⊢
      rcases happly : onDisk (applyMutation W call.mutationId call.now) d₁ with ⟨outcome, d₂⟩
      rw [happly] at h
      cases outcome with
      | error failure => cases h
      | ok record => exact ⟨rfl, d₁, record, rfl, happly⟩

/-- What a call that applies its plan has done: planned and applied on the disk as it found it, for
the allocation that Central holds. -/
structure Applied (W : Workspace Document Documents) (call : WorkflowCall) (s s' : Project)
    (result : WorkflowResult) (allocation : AllocationData) : Prop where
  held : s'.held = some (allocation, true)
  ports : result.ports = portsByName allocation
  mutation : result.mutationId = some call.mutationId
  run : ∃ d₁ record, onDisk (planned W call allocation) s.disk = (.ok call.mutationId, d₁) ∧
    onDisk (applyMutation W call.mutationId call.now) d₁ = (.ok record, s'.disk)

theorem applied_applyAllocated (existing : Option WorkflowRecord) (allocation : AllocationData)
    (created : Bool) (hheld : s.held = some (allocation, true))
    (hrun : (applyAllocated W hashManifest call existing allocation created).run
      (Project.handle drawn) s = (.ok result, s'))
    (happlied : result.status = .applied) : Applied W call s s' result allocation := by
  have hsave (record : WorkflowRecord) (s : Project) :
      (saveWorkflowRecord record).run (Project.handle drawn) s =
        (.ok record, { s with record := some record }) := rfl
  rw [applyAllocated, Program.bind_eq, Program.run_bind_of_ok (hsave _ _)] at hrun
  split at hrun
  case isFalse =>
    cases hrun
    cases happlied
  rw [Program.bind_eq, Program.run_bind_of_ok ((Project.holdsDisk drawn).run_configStep call
    allocation { s with record := some _ })] at hrun
  cases houtcome : (onDisk (configured W call allocation) s.disk).1 with
  | error failure =>
      simp only [houtcome] at hrun
      cases hcaught : caughtFailure failure with
      | none =>
          simp only [hcaught] at hrun
          cases hrun
      | some error =>
          simp only [hcaught] at hrun
          exact ((returns_handleConfigFailure _ _ _ _ _).run hrun).elim
  | ok _ =>
      obtain ⟨hmutation, d₁, record, hplanned, happly⟩ := done_of_configured houtcome
      simp only [houtcome, Program.bind_eq, Program.run_bind_of_ok (hsave _ _),
        Program.run_ret] at hrun
      cases hrun
      exact ⟨hheld, rfl, hmutation, d₁, record, hplanned, happly⟩

/-- A call that finds no record of an applied attempt, and says that its files are applied, has
planned and applied them for the allocation Central holds. -/
theorem applied_applyWorkflow
    (hrecord : ∀ record, s.record = some record → record.status ≠ .applied)
    (hrun : (applyWorkflow W hashManifest call).run (Project.handle drawn) s = (.ok result, s'))
    (happlied : result.status = .applied) :
    ∃ allocation, Applied W call s s' result allocation := by
  have hload : Project.handle drawn (.loadRecord call.requestId) s = (s.record, s) := rfl
  have hproceed (existing : Option WorkflowRecord) (created : Bool)
      (hgoes : ((createAllocation call.body).bind fun answer =>
        applyAnswered W hashManifest call existing created answer).run (Project.handle drawn) s =
          (.ok result, s')) : ∃ allocation, Applied W call s s' result allocation := by
    rcases hheld : s.held with _ | ⟨allocation, active⟩
    · have hcreate : Project.handle drawn (.create call.body) s =
          (.ok (.success ⟨drawn, false, "active"⟩), { s with held := some (drawn, true) }) := by
        simp [Project.handle, hheld]
      have hgoes := (Program.run_call_of_handle hcreate).symm.trans hgoes
      rw [answered, Program.bind, applyAnswered, if_neg (not_not.mpr rfl)] at hgoes
      obtain ⟨hkept, hports, hmutation, hdone⟩ := applied_applyAllocated _ _ _ rfl hgoes happlied
      exact ⟨drawn, hkept, hports, hmutation, hdone⟩
    · have hcreate : Project.handle drawn (.create call.body) s =
          (.ok (.success ⟨allocation, true, if active then "active" else "released"⟩), s) := by
        simp [Project.handle, hheld]
      have hgoes := (Program.run_call_of_handle hcreate).symm.trans hgoes
      rw [answered, Program.bind, applyAnswered] at hgoes
      cases active with
      | false =>
          rw [if_pos (by simp)] at hgoes
          cases hgoes
      | true =>
          rw [if_neg (by simp)] at hgoes
          exact ⟨allocation, applied_applyAllocated _ _ _ hheld hgoes happlied⟩
  rw [applyWorkflow, Program.bind_eq, loadWorkflowRecord] at hrun
  have hrun := (Program.run_call_of_handle hload).symm.trans hrun
  cases hfound : s.record with
  | none =>
      rw [hfound] at hrun
      exact hproceed _ _ hrun
  | some record =>
      rw [hfound] at hrun
      simp only [Program.bind] at hrun
      split at hrun
      · cases hrun
      · split at hrun
        · next hcomplete =>
            cases hrun
            exact (hrecord record hfound happlied).elim
        · exact hproceed _ _ hrun

/-- After kills that come before a project file is written, a call that says that its files are
applied reports the ports of the allocation that Central holds, and the mutation it reports can
be rolled back to the files as they were before the first attempt. -/
theorem resumed_call_undone {s₀ : Project} (hnone : s₀.record = none)
    (hreliable : s₀.disk.Reliable) (hseparate : SeparateFiles W call.manifest)
    (hkilled : KilledEarly W hashManifest s₀ s)
    (hfresh : ∀ name, backupAt s.disk call.mutationId name = none)
    (hrun : (applyWorkflow W hashManifest call).run (Project.handle drawn) s = (.ok result, s'))
    (happlied : result.status = .applied) (rolledBackAt : String) :
    (∃ allocation, s'.held = some (allocation, true) ∧ result.ports = portsByName allocation) ∧
      ∃ mutationId rolledBack d', result.mutationId = some mutationId ∧
        onDisk (rollbackMutation W mutationId rolledBackAt) s'.disk = (.ok rolledBack, d') ∧
        bytesAt d' = bytesAt s₀.disk := by
  have hunwritten := hkilled.untouched hnone hreliable
  obtain ⟨allocation, hheld, hports, hmutation, d₂, record, hplanned, happly⟩ :=
    applied_applyWorkflow hunwritten.record hrun happlied
  obtain ⟨plan, d₁, hbuild, hpersist, -⟩ := plan_of_planned hplanned
  have hfaithful := hseparate.faithful ((files_of_buildPlan call.manifest).run hbuild)
    (bytesAt s.disk)
  obtain ⟨rolledBack, d', hrolled, hback⟩ : ∃ rolledBack d',
      onDisk (rollbackMutation W call.mutationId rolledBackAt) s'.disk = (.ok rolledBack, d') ∧
        bytesAt d' = bytesAt s.disk :=
    (restored_of_plan_iff hunwritten.reliable hfresh hbuild hpersist happly).mpr hfaithful
  exact ⟨⟨allocation, hheld, hports⟩, call.mutationId, rolledBack, d', hmutation, hrolled,
    hback.trans hunwritten.files⟩

end Retry

/-! ## A project with one dotenv file -/

/-- The port of `api`, mapped to `PORT` in `.env`. -/
def oneFileManifest : ProjectManifest where
  version := 1
  project := "web"
  host := none
  requests := [⟨"api", "api", "tcp", none, none⟩]
  requestId := some "req-1"
  config := some ⟨[⟨".env", [("PORT", "api")]⟩], [], []⟩

def oneFileCall (mutationId : String) : WorkflowCall where
  manifest := oneFileManifest
  host := ⟨"h1", "web-1"⟩
  requestId := "req-1"
  mutationId := mutationId
  now := "2026-01-01T00:00:00+00:00"

/-- Before the first attempt. -/
def oneFileProject : Project where
  disk := sampleDisk [(".env", "PORT=80\n")] [] fun _ _ => none
  record := none
  held := none

/-- The first attempt, killed after some operations. -/
def killedProject (n : ℕ) : Project :=
  (applyWorkflow sampleWorkspace (fun _ => "h1") (oneFileCall "m1")).stoppedAfter
    (Project.handle ⟨"a1", [("api", 8001)]⟩) n oneFileProject

theorem resumed_call_undone_sample :
    ∃ result s', (applyWorkflow sampleWorkspace (fun _ => "h1") (oneFileCall "m2")).run
        (Project.handle ⟨"a2", [("api", 9001)]⟩) (killedProject 3) = (.ok result, s') ∧
      (∃ allocation, s'.held = some (allocation, true) ∧
          result.ports = portsByName allocation) ∧
        ∃ mutationId rolledBack d', result.mutationId = some mutationId ∧
          onDisk (rollbackMutation sampleWorkspace mutationId "later") s'.disk =
            (.ok rolledBack, d') ∧
          bytesAt d' = bytesAt oneFileProject.disk := by
  have hkilled : KilledEarly sampleWorkspace (fun _ => "h1") oneFileProject (killedProject 3) := by
    refine .kill (oneFileCall "m1") _ 3 .start ⟨trivial, trivial, And.intro ?_ trivial⟩
    intro h
    cases h
  obtain ⟨result, s', hrun, happlied⟩ : ∃ result s',
      (applyWorkflow sampleWorkspace (fun _ => "h1") (oneFileCall "m2")).run
        (Project.handle ⟨"a2", [("api", 9001)]⟩) (killedProject 3) = (.ok result, s') ∧
      result.status = .applied := by
    refine ⟨_, _, rfl, ?_⟩
    rfl
  exact ⟨result, s', hrun, resumed_call_undone rfl (fun _ _ => rfl) ⟨by decide, by decide⟩ hkilled
    (fun _ => rfl) hrun happlied "later"⟩

/-- A kill right after the target is written: the next call plans over the new content, backs it up,
and its rollback brings that back. -/
theorem resumed_call_not_undone :
    ∃ result s' rolledBack d',
      (applyWorkflow sampleWorkspace (fun _ => "h1") (oneFileCall "m2")).run
        (Project.handle ⟨"a2", [("api", 9001)]⟩) (killedProject 10) = (.ok result, s') ∧
      result.status = .applied ∧ result.mutationId = some "m2" ∧
      onDisk (rollbackMutation sampleWorkspace "m2" "later") s'.disk = (.ok rolledBack, d') ∧
      bytesAt d' ≠ bytesAt oneFileProject.disk := by
  refine ⟨_, _, _, _, rfl, ?_, ?_, rfl, fun hback => ?_⟩
  · rfl
  · rfl
  · have hfile := congrFun hback ["project", ".env"]
    revert hfile
    decide

end Agent
