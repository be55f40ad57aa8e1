/-
# Edits by the user

Between the calls the user may edit, create or delete any project file. Applying a
mutation and rolling it back first compare every file with a hash, so that a file the
user has edited is not replaced, and then no other file is either. Any write may fail.
-/

import PortForge.Agent.MutationRuns
import PortForge.Agent.RollbackRoundTrip
import Mathlib.Data.List.Pairwise

namespace Agent

open Effects

variable {Document Documents : Type} {W : Workspace Document Documents} {d : AgentDisk}

/-- A plan with the project files it was computed from. -/
structure Planning where
  plan : ConfigPlan
  contents : Path → Option ByteArray

/-- The states that calls and edits of the user lead to, with the plans that were made. A
plan is made under an identifier drawn for it. -/
inductive EditedRun (W : Workspace Document Documents) : List Planning → AgentDisk → Prop
  | start (d : AgentDisk) (hempty : ∀ mutationId, recordAt d mutationId = none) : EditedRun W [] d
  | plan {plannings : List Planning} {d d' : AgentDisk} {manifest : ProjectManifest}
      {allocation : AllocationData} {mutationId createdAt : String} {plan : ConfigPlan}
      (h : EditedRun W plannings d)
      (hfresh : ∀ planning ∈ plannings, planning.plan.mutationId ≠ mutationId)
      (hplan : onDisk (buildPlan W manifest allocation mutationId createdAt) d = (.ok plan, d')) :
      EditedRun W (⟨plan, bytesAt d⟩ :: plannings) d'
  | persist {plannings : List Planning} {d : AgentDisk} {planning : Planning}
      (h : EditedRun W plannings d) (hplanning : planning ∈ plannings) :
      EditedRun W plannings (onDisk (persistPlan planning.plan) d).2
  | apply {plannings : List Planning} {d : AgentDisk} (mutationId now : String)
      (h : EditedRun W plannings d) :
      EditedRun W plannings (onDisk (applyMutation W mutationId now) d).2
  | rollback {plannings : List Planning} {d : AgentDisk} (mutationId now : String)
      (h : EditedRun W plannings d) :
      EditedRun W plannings (onDisk (rollbackMutation W mutationId now) d).2
  | edit {plannings : List Planning} {d : AgentDisk} (path : Path) (content : Option ByteArray)
      (h : EditedRun W plannings d) : EditedRun W plannings (d.put (.file path) content)

/-! ## What a plan is computed from -/

/-- The file is planned from the given contents. -/
structure PlannedFile.From (W : Workspace Document Documents) (contents : Path → Option ByteArray)
    (file : PlannedFile) : Prop where
  inside : file.record.Inside W
  beforeHash : file.beforeHash = (contents (file.record.target W)).map W.sha256

/-- A composition that returns. -/
theorem onDisk_bind_eq_ok {α β : Type} {task : Task α} {next : α → Task β} {value : β}
    {d' : AgentDisk} (h : onDisk (task.bind next) d = (.ok value, d')) :
    ∃ middle d₁, onDisk task d = (.ok middle, d₁) ∧ onDisk (next middle) d₁ = (.ok value, d') := by
  rcases hrun : onDisk task d with ⟨result, d₁⟩
  cases result with
  | ok middle =>
      rw [onDisk_bind_of_ok hrun] at h
      exact ⟨middle, d₁, rfl, h⟩
  | error failure =>
      rw [onDisk_bind_of_error hrun] at h
      cases h

theorem onDisk_ofExcept_bind_eq_ok {α β : Type} {result : Except ConfigFailure α}
    {next : α → Task β} {value : β} {d' : AgentDisk}
    (h : onDisk ((Program.ofExcept result).bind next) d = (.ok value, d')) :
    ∃ middle, result = .ok middle ∧ onDisk (next middle) d = (.ok value, d') := by
  obtain ⟨middle, d₁, hfirst, hrest⟩ := onDisk_bind_eq_ok h
  rw [onDisk_ofExcept] at hfirst
  cases hfirst
  exact ⟨middle, rfl, hrest⟩

theorem resolveMapped_eq_ok {file : String} {target : Path}
    (h : resolveMapped W file = .ok target) :
    W.root.isPrefixOf (W.locate file) = true ∧ target = W.locate file := by
  rw [resolveMapped, resolveWithinRoot] at h
  split at h
  · cases h
  · split at h
    · next hinside =>
        cases h
        exact ⟨hinside, rfl⟩
    · cases h

theorem requireOriginal_eq_ok {label file : String} {original : Option ByteArray}
    {bytes : ByteArray} (h : requireOriginal label file original = .ok bytes) :
    original = some bytes := by
  cases original with
  | none => cases h
  | some found =>
      cases h
      rfl

theorem from_planDotenvFile {mapping : DotenvFileMapping} {ports : List (String × ℕ)}
    {file : PlannedFile} {d' : AgentDisk}
    (h : onDisk (planDotenvFile W mapping ports) d = (.ok file, d')) :
    file.From W (bytesAt d) := by
  obtain ⟨target, htarget, h⟩ := onDisk_ofExcept_bind_eq_ok h
  obtain ⟨hinside, rfl⟩ := resolveMapped_eq_ok htarget
  obtain ⟨original, d₁, hread, h⟩ := onDisk_bind_eq_ok h
  rw [onDisk_readFile] at hread
  cases hread
  obtain ⟨⟨newText, changes⟩, -, h⟩ := onDisk_ofExcept_bind_eq_ok h
  cases h
  exact ⟨hinside, rfl⟩

/-- A plan of a YAML file, whatever edits its text. -/
theorem from_plannedYaml {label path : String} {kind : FileKind}
    {content : String → Except ConfigFailure (String × List Change)} {file : PlannedFile}
    {d' : AgentDisk}
    (h : onDisk (do
        let target ← Program.ofExcept (resolveMapped W path)
        let found ← readFile target
        let original ← Program.ofExcept (requireOriginal label path found)
        let originalText ← Program.ofExcept (decode original)
        let (newText, changes) ← Program.ofExcept (content originalText)
        pure (plannedYaml W kind path original originalText newText changes)) d =
      (.ok file, d')) :
    file.From W (bytesAt d) := by
  obtain ⟨target, htarget, h⟩ := onDisk_ofExcept_bind_eq_ok h
  obtain ⟨hinside, rfl⟩ := resolveMapped_eq_ok htarget
  obtain ⟨found, d₁, hread, h⟩ := onDisk_bind_eq_ok h
  rw [onDisk_readFile] at hread
  cases hread
  obtain ⟨original, horiginal, h⟩ := onDisk_ofExcept_bind_eq_ok h
  obtain ⟨originalText, -, h⟩ := onDisk_ofExcept_bind_eq_ok h
  obtain ⟨⟨newText, changes⟩, -, h⟩ := onDisk_ofExcept_bind_eq_ok h
  cases h
  exact ⟨hinside, (congrArg (Option.map W.sha256) (requireOriginal_eq_ok horiginal)).symm⟩

theorem from_planComposeFile {mapping : ComposeFileMapping} {ports : List (String × ℕ)}
    {file : PlannedFile} {d' : AgentDisk}
    (h : onDisk (planComposeFile W mapping ports) d = (.ok file, d')) :
    file.From W (bytesAt d) :=
  from_plannedYaml h

theorem from_planKubernetesFile {mapping : KubernetesFileMapping} {ports : List (String × ℕ)}
    {file : PlannedFile} {d' : AgentDisk}
    (h : onDisk (planKubernetesFile W mapping ports) d = (.ok file, d')) :
    file.From W (bytesAt d) :=
  from_plannedYaml h

/-- Plans that only read are all computed from one state of the files. -/
theorem from_planAll {α : Type} {plan : α → Task PlannedFile}
    (hreads : ∀ mapping, (plan mapping).Uses ReadsOnly)
    (hplan : ∀ mapping file d', onDisk (plan mapping) d = (.ok file, d') →
      file.From W (bytesAt d))
    {mappings : List α} {files : List PlannedFile} {d' : AgentDisk}
    (h : onDisk (planAll plan mappings) d = (.ok files, d')) :
    ∀ file ∈ files, file.From W (bytesAt d) := by
  induction mappings generalizing files d' with
  | nil =>
      cases h
      intro file hfile
      cases hfile
  | cons mapping mappings ih =>
      obtain ⟨file, d₁, hfile, hafter⟩ := onDisk_bind_eq_ok h
      have hsame : d₁ = d := by
        rw [← Disk.run_of_reads (d := d) (hreads mapping)]
        exact (congrArg Prod.snd hfile).symm
      rw [hsame] at hafter
      obtain ⟨rest, d₂, hrest, hdone⟩ := onDisk_bind_eq_ok hafter
      cases hdone
      exact List.forall_mem_cons.mpr ⟨hplan mapping file _ hfile, ih hrest⟩

theorem onDisk_planAll_eq {α : Type} {plan : α → Task PlannedFile}
    (hreads : ∀ mapping, (plan mapping).Uses ReadsOnly) {mappings : List α}
    {files : List PlannedFile} {d' : AgentDisk}
    (h : onDisk (planAll plan mappings) d = (.ok files, d')) : d' = d := by
  rw [← Disk.run_of_reads (d := d) (uses_planAll hreads mappings)]
  exact (congrArg Prod.snd h).symm

/-- Every file of a plan is planned from the files the plan finds. -/
theorem from_buildPlan {manifest : ProjectManifest} {allocation : AllocationData}
    {mutationId createdAt : String} {plan : ConfigPlan} {d' : AgentDisk}
    (h : onDisk (buildPlan W manifest allocation mutationId createdAt) d = (.ok plan, d')) :
    ∀ file ∈ plan.files, file.From W (bytesAt d) := by
  rw [buildPlan] at h
  split at h
  · split at h
    · cases h
    · obtain ⟨dotenv, d₁, hdotenv, h₁⟩ := onDisk_bind_eq_ok h
      rw [onDisk_planAll_eq (fun mapping => uses_planDotenvFile mapping _) hdotenv] at h₁
      obtain ⟨compose, d₂, hcompose, h₂⟩ := onDisk_bind_eq_ok h₁
      rw [onDisk_planAll_eq (fun mapping => uses_planComposeFile mapping _) hcompose] at h₂
      obtain ⟨kubernetes, d₃, hkubernetes, h₃⟩ := onDisk_bind_eq_ok h₂
      cases h₃
      intro file hfile
      rcases List.mem_append.mp hfile with hfile | hfile
      · rcases List.mem_append.mp hfile with hfile | hfile
        · exact from_planAll (fun mapping => uses_planDotenvFile mapping _)
            (fun _ _ _ => from_planDotenvFile) hdotenv file hfile
        · exact from_planAll (fun mapping => uses_planComposeFile mapping _)
            (fun _ _ _ => from_planComposeFile) hcompose file hfile
      · exact from_planAll (fun mapping => uses_planKubernetesFile mapping _)
          (fun _ _ _ => from_planKubernetesFile) hkubernetes file hfile
  · cases h

theorem mutationId_of_buildPlan {manifest : ProjectManifest} {allocation : AllocationData}
    {mutationId createdAt : String} {plan : ConfigPlan} {d' : AgentDisk}
    (h : onDisk (buildPlan W manifest allocation mutationId createdAt) d = (.ok plan, d')) :
    plan.mutationId = mutationId :=
  returns_buildPlan.run h

/-! ## What a call leaves alone -/

/-- One of the files has the path as its target. -/
def IsTarget (W : Workspace Document Documents) (files : List FileRecord) (path : Path) : Prop :=
  ∃ file ∈ files, file.target W = path

/-- Restoring reaches the listed paths only. -/
theorem bytesAt_restoreAll {site : Site} {entries : List (Path × Option ByteArray)} {path : Path}
    (h : path ∉ entries.map Prod.fst) :
    bytesAt (onDisk (restoreAll site entries) d).2 path = bytesAt d path := by
  have huses : (restoreAll site entries).Uses
      (FileOp.Within (· = site) fun place => place ≠ .file path) := by
    induction entries with
    | nil => exact trivial
    | cons entry entries ih =>
        obtain ⟨target, original⟩ := entry
        rw [List.map_cons, List.mem_cons, not_or] at h
        have htarget : Location.file target ≠ .file path := fun heq =>
            h.1 (by injection heq with h; exact h.symm)
        refine Program.Uses.bind ?_ fun _ => ih h.2
        cases original <;>
          exact ⟨⟨rfl, htarget⟩, fun answer => by cases answer <;> exact trivial⟩
  exact Disk.run_content_of_uses huses fun hplace => hplace rfl

theorem bytesAt_restoreFromBackups {mutationId : String} {files : List FileRecord} {path : Path}
    (hinside : ∀ file ∈ files, file.Inside W) (h : ¬ IsTarget W files path) :
    bytesAt (onDisk (restoreFromBackups W mutationId files) d).2 path = bytesAt d path := by
  have huses : (restoreFromBackups W mutationId files).Uses
      (FileOp.Within (· = .rollback) fun place => place ≠ .file path) := by
    induction files with
    | nil => exact trivial
    | cons file files ih =>
        obtain ⟨hfile, hfiles⟩ := List.forall_mem_cons.mp hinside
        have htarget : Location.file (file.target W) ≠ .file path :=
          fun heq => h ⟨file, List.mem_cons_self, by injection heq⟩
        rw [restoreFromBackups, resolveWithinRoot_of_inside hfile]
        refine ⟨trivial, fun original => ?_⟩
        change ((restoreFile .rollback (file.target W) original).bind fun _ =>
          restoreFromBackups W mutationId files).Uses _
        refine Program.Uses.bind ?_ fun _ => ih hfiles fun hrest => by
          obtain ⟨other, hother, hsame⟩ := hrest
          exact h ⟨other, List.mem_cons_of_mem file hother, hsame⟩
        cases original <;>
          exact ⟨⟨rfl, htarget⟩, fun answer => by cases answer <;> exact trivial⟩
  exact Disk.run_content_of_uses huses fun hplace => hplace rfl

/-- The records after a write at an identifier, which may fail. -/
def SavedOrNot (d : AgentDisk) (saved : MutationRecord) (d' : AgentDisk) : Prop :=
  recordAt d' = recordAt d ∨
    recordAt d' = Function.update (recordAt d) saved.mutationId (some saved)

theorem savedOrNot_saveRecord (site : Site) (record : MutationRecord) :
    SavedOrNot d record (onDisk (saveRecord site record) d).2 := by
  cases hfault : d.faults site 0 with
  | some error =>
      left
      rw [saveRecord, onDisk_atomicWrite_of_some hfault]
      rfl
  | none =>
      right
      rw [saveRecord, onDisk_atomicWrite_of_none hfault]
      exact recordAt_put _ _

theorem bytesAt_saveRecord (site : Site) (record : MutationRecord) :
    bytesAt (onDisk (saveRecord site record) d).2 = bytesAt d := by
  cases hfault : d.faults site 0 with
  | some error =>
      rw [saveRecord, onDisk_atomicWrite_of_some hfault]
      rfl
  | none =>
      rw [saveRecord, onDisk_atomicWrite_of_none hfault]
      funext path
      exact Disk.put_content_of_ne (by simp)

/-! ## What a call does -/

/-- Raising in the end changes nothing on the disk. -/
theorem onDisk_bind_raise_snd {α β : Type} (task : Task α) (failure : ConfigFailure) :
    (onDisk (task.bind fun _ => (.raise failure : Task β)) d).2 = (onDisk task d).2 := by
  rcases hrun : onDisk task d with ⟨result, d'⟩
  cases result with
  | ok value => rw [onDisk_bind_of_ok hrun, onDisk_raise]
  | error earlier => rw [onDisk_bind_of_error hrun]

/-- Applying refuses and changes nothing at all, or every file is as it was planned; then it
changes no other file, and saves the applied record or none. -/
theorem applyMutation_cases {mutationId : String} (now : String) {record : MutationRecord}
    (hrecord : recordAt d mutationId = some record) (hstatus : record.status ≠ .applied) :
    (¬ AsExpected W (fun file => file.beforeHash) d record.files ∧ ∃ failure,
        onDisk (applyMutation W mutationId now) d = (.error failure, d)) ∨
      (AsExpected W (fun file => file.beforeHash) d record.files ∧
        SavedOrNot d (record.applied W now) (onDisk (applyMutation W mutationId now) d).2 ∧
        ∀ path, ¬ IsTarget W record.files path →
          bytesAt (onDisk (applyMutation W mutationId now) d).2 path = bytesAt d path) := by
  rw [applyMutation, Program.bind_eq, onDisk_bind_of_ok (onDisk_loadRecord hrecord),
    if_neg hstatus, Program.bind_eq]
  rcases onDisk_checkUnchangedSincePlan (W := W) (d := d) record.files with
    ⟨hcheck, hrun⟩ | ⟨hcheck, failure, hrun⟩
  case inr => exact .inl ⟨hcheck, failure, onDisk_bind_of_error hrun⟩
  right
  rw [onDisk_bind_of_ok hrun, Program.bind_eq]
  have hbytes := bytesAt_backUp (W := W) (d := d) mutationId record.files
  have hrecords := recordAt_backUp (W := W) (d := d) mutationId record.files
  rcases onDisk_backUp (d := d) mutationId fun file hfile => (hcheck file hfile).1 with
    ⟨-, d₁, hrun₁, -⟩ | ⟨-, failure, d₁, hrun₁⟩
  case inr =>
    rw [hrun₁] at hbytes hrecords
    rw [onDisk_bind_of_error hrun₁]
    exact ⟨hcheck, .inl hrecords, fun path _ => congrFun hbytes path⟩
  rw [hrun₁] at hbytes hrecords
  rw [onDisk_bind_of_ok hrun₁, Program.bind_eq]
  have hrecords₂ : recordAt (onDisk (writeTargets W (record.files.map (prepare W d)) []) d₁).2 =
      recordAt d₁ := by
    funext other
    exact Disk.run_content_of_uses (uses_writeTargets _ []) (by rintro ⟨path, hpath⟩; cases hpath)
  rcases onDisk_writeTargets (W := W) (d := d₁) (record.files.map (prepare W d)) [] with
    ⟨-, d₂, hrun₂, hd₂⟩ | ⟨-, begun, rest, failure, d₂, hprepared, hrun₂, hd₂⟩
  · rw [hrun₂] at hrecords₂
    have hfiles : (record.files.map (prepare W d)).map (fun entry => entry.file.hashed W) =
        record.files.map (FileRecord.hashed W) := by
      rw [List.map_map]
      rfl
    rw [onDisk_bind_of_ok hrun₂, hfiles]
    change _ ∧ SavedOrNot d _ (onDisk ((saveRecord .record (record.applied W now)).bind
      fun _ => .ret (record.applied W now)) d₂).2 ∧ ∀ path, _ → bytesAt (onDisk ((saveRecord .record
        (record.applied W now)).bind fun _ => .ret (record.applied W now)) d₂).2 path = _
    rw [onDisk_bind_ret_snd, bytesAt_saveRecord]
    refine ⟨hcheck, ?_, fun path hpath => ?_⟩
    · have hsaved := savedOrNot_saveRecord (d := d₂) .record (record.applied W now)
      rwa [SavedOrNot, hrecords₂, hrecords] at hsaved
    · rw [hd₂, hbytes]
      refine updateAll_of_not_mem fun hmem => hpath ?_
      rw [List.map_map, List.map_map] at hmem
      obtain ⟨file, hfile, hsame⟩ := List.mem_map.mp hmem
      exact ⟨file, hfile, hsame⟩
  · -- Whatever the handler manages to put back, it writes targets only.
    rw [hrun₂] at hrecords₂
    have hbegun : ∀ path, ¬ IsTarget W record.files path → path ∉ begun.map fun entry =>
        entry.target := by
      intro path hpath hmem
      obtain ⟨entry, hentry, hsame⟩ := List.mem_map.mp hmem
      have hprep : entry ∈ record.files.map (prepare W d) := by
        rw [hprepared]
        exact List.mem_append_left rest hentry
      obtain ⟨file, hfile, rfl⟩ := List.mem_map.mp hprep
      exact hpath ⟨file, hfile, hsame⟩
    rw [onDisk_bind_of_ok hrun₂]
    change _ ∧ SavedOrNot d _ (onDisk ((restoreAll .restore (begun.map Prepared.undo)).bind
      fun _ => .raise (surfaced failure)) d₂).2 ∧ ∀ path, _ → bytesAt (onDisk ((restoreAll .restore
        (begun.map Prepared.undo)).bind fun _ => .raise (surfaced failure)) d₂).2 path = _
    rw [onDisk_bind_raise_snd]
    refine ⟨hcheck, .inl ?_, fun path hpath => ?_⟩
    · rw [← hrecords, ← hrecords₂]
      funext other
      exact Disk.run_content_of_uses (uses_restoreAll .restore (begun.map Prepared.undo))
        (by rintro ⟨path, hpath⟩; cases hpath)
    · rw [bytesAt_restoreAll (by rw [List.map_map]; exact hbegun path hpath), hd₂, hbytes]
      refine updateAll_of_not_mem ?_
      rw [List.map_map]
      exact hbegun path hpath

/-- Rolling back refuses and changes nothing at all, or every file is as it was applied. -/
theorem rollbackMutation_cases {mutationId : String} (now : String) {record : MutationRecord}
    (hrecord : recordAt d mutationId = some record) (hstatus : record.status = .applied) :
    (¬ AsExpected W (fun file => file.afterHash) d record.files ∧ ∃ failure,
        onDisk (rollbackMutation W mutationId now) d = (.error failure, d)) ∨
      (AsExpected W (fun file => file.afterHash) d record.files ∧
        SavedOrNot d (record.rolledBack now) (onDisk (rollbackMutation W mutationId now) d).2 ∧
        ∀ path, ¬ IsTarget W record.files path →
          bytesAt (onDisk (rollbackMutation W mutationId now) d).2 path = bytesAt d path) := by
  rw [rollbackMutation, Program.bind_eq, onDisk_bind_of_ok (onDisk_loadRecord hrecord), hstatus]
  simp only [Program.bind_eq]
  rcases onDisk_checkUnchangedSinceApply (W := W) (d := d) record.files with
    ⟨hcheck, hrun⟩ | ⟨hcheck, failure, hrun⟩
  case inr => exact .inl ⟨hcheck, failure, onDisk_bind_of_error hrun⟩
  right
  rw [onDisk_bind_of_ok hrun]
  have hbytes : ∀ path, ¬ IsTarget W record.files path →
      bytesAt (onDisk (restoreFromBackups W mutationId record.files) d).2 path = bytesAt d path :=
    fun path => bytesAt_restoreFromBackups fun file hfile => (hcheck file hfile).1
  have hrecords : recordAt (onDisk (restoreFromBackups W mutationId record.files) d).2 =
      recordAt d := by
    funext other
    exact Disk.run_content_of_uses (uses_restoreFromBackups mutationId record.files)
      (by rintro ⟨path, hpath⟩; cases hpath)
  rcases hrun₁ : onDisk (restoreFromBackups W mutationId record.files) d with ⟨result, d₁⟩
  rw [hrun₁] at hbytes hrecords
  cases result with
  | error failure =>
      rw [onDisk_bind_of_error hrun₁]
      exact ⟨hcheck, .inl hrecords, hbytes⟩
  | ok value =>
      rw [onDisk_bind_of_ok hrun₁]
      change _ ∧ SavedOrNot d _ (onDisk ((saveRecord .record (record.rolledBack now)).bind
        fun _ => .ret (record.rolledBack now)) d₁).2 ∧ ∀ path, _ → bytesAt (onDisk ((saveRecord
          .record (record.rolledBack now)).bind fun _ => .ret (record.rolledBack now)) d₁).2 path =
              _
      rw [onDisk_bind_ret_snd, bytesAt_saveRecord]
      have hsaved := savedOrNot_saveRecord (d := d₁) .record (record.rolledBack now)
      rw [SavedOrNot, hrecords] at hsaved
      exact ⟨hcheck, hsaved, hbytes⟩

/-- Applying where there is nothing to apply. -/
theorem applyMutation_idle {mutationId now : String}
    (h : ∀ record, recordAt d mutationId = some record → record.status = .applied) :
    (onDisk (applyMutation W mutationId now) d).2 = d := by
  cases hrecord : recordAt d mutationId with
  | none =>
      obtain ⟨failure, hload⟩ := onDisk_loadRecord_of_none hrecord
      rw [applyMutation, Program.bind_eq, onDisk_bind_of_error hload]
  | some record =>
      rw [applyMutation, Program.bind_eq, onDisk_bind_of_ok (onDisk_loadRecord hrecord),
        if_pos (h record hrecord)]
      rfl

theorem rollbackMutation_idle {mutationId now : String}
    (h : ∀ record, recordAt d mutationId = some record → record.status ≠ .applied) :
    (onDisk (rollbackMutation W mutationId now) d).2 = d := by
  cases hrecord : recordAt d mutationId with
  | none =>
      obtain ⟨failure, hload⟩ := onDisk_loadRecord_of_none hrecord
      rw [rollbackMutation, Program.bind_eq, onDisk_bind_of_error hload]
  | some record =>
      rw [rollbackMutation, Program.bind_eq, onDisk_bind_of_ok (onDisk_loadRecord hrecord)]
      cases hstatus : record.status with
      | applied => exact (h record hrecord hstatus).elim
      | planned => rfl
      | rolledBack => rfl

/-! ## What records follow -/

/-- The record is that of the plan, with hashes once it was applied. -/
structure MutationRecord.Follows (W : Workspace Document Documents) (plan : ConfigPlan)
    (record : MutationRecord) : Prop where
  named : record.mutationId = plan.mutationId
  files : record.files = plan.record.files ∨
    record.files = plan.record.files.map (FileRecord.hashed W)
  hashed : record.status = .applied → record.files = plan.record.files.map (FileRecord.hashed W)

/-- Records follow plans, and plans follow the files they were computed from. -/
structure PlansFollowed (W : Workspace Document Documents) (plannings : List Planning)
    (d : AgentDisk) : Prop where
  distinct : plannings.Pairwise fun first second => first.plan.mutationId ≠ second.plan.mutationId
  planned : ∀ planning ∈ plannings, ∀ file ∈ planning.plan.files, file.From W planning.contents
  recorded : ∀ mutationId record, recordAt d mutationId = some record →
    ∃ planning ∈ plannings, planning.plan.mutationId = mutationId ∧ record.Follows W planning.plan

variable {plannings : List Planning} {d' : AgentDisk} {planning : Planning}
  {record : MutationRecord}

theorem PlansFollowed.congr (h : PlansFollowed W plannings d) (hrecords : recordAt d' =
    recordAt d) :
    PlansFollowed W plannings d' := by
  refine ⟨h.distinct, h.planned, ?_⟩
  rw [hrecords]
  exact h.recorded

/-- A record is saved that follows a plan. -/
theorem PlansFollowed.saved (h : PlansFollowed W plannings d) {saved : MutationRecord}
    (hplanning : planning ∈ plannings) (hfollows : saved.Follows W planning.plan)
    (hsaved : SavedOrNot d saved d') : PlansFollowed W plannings d' := by
  rcases hsaved with hsame | hsaved
  · exact h.congr hsame
  · refine ⟨h.distinct, h.planned, fun mutationId record hrecord => ?_⟩
    rw [hsaved] at hrecord
    by_cases hid : mutationId = saved.mutationId
    · rw [hid, Function.update_self, Option.some_inj] at hrecord
      rw [← hrecord]
      exact ⟨planning, hplanning, by rw [hid, hfollows.named], hfollows⟩
    · rw [Function.update_of_ne hid] at hrecord
      exact h.recorded mutationId record hrecord

theorem hashed_hashed (files : List FileRecord) :
    (files.map (FileRecord.hashed W)).map (FileRecord.hashed W) =
      files.map (FileRecord.hashed W) := by
  rw [List.map_map]
  rfl

theorem MutationRecord.Follows.applied {plan : ConfigPlan} (h : record.Follows W plan)
    (now : String) : (record.applied W now).Follows W plan := by
  have hfiles : (record.applied W now).files = plan.record.files.map (FileRecord.hashed W) := by
    rw [MutationRecord.applied]
    rcases h.files with hplain | hhashed
    · rw [hplain]
    · rw [hhashed, hashed_hashed]
  exact ⟨h.named, .inr hfiles, fun _ => hfiles⟩

theorem MutationRecord.Follows.rolledBack {plan : ConfigPlan} (h : record.Follows W plan)
    (now : String) : (record.rolledBack now).Follows W plan :=
  ⟨h.named, h.files, fun hstatus => by cases hstatus⟩

theorem follows_record (plan : ConfigPlan) : plan.record.Follows W plan :=
  ⟨rfl, .inl rfl, fun hstatus => by cases hstatus⟩

theorem plansFollowed_of_run (hrun : EditedRun W plannings d) : PlansFollowed W plannings d := by
  induction hrun with
  | start d hempty =>
      refine ⟨List.Pairwise.nil, fun planning hplanning => ?_, fun mutationId record hrecord => ?_⟩
      · cases hplanning
      · rw [hempty] at hrecord
        cases hrecord
  | @plan plannings d d' manifest allocation mutationId createdAt plan _ hfresh hplan ih =>
      have hid := mutationId_of_buildPlan hplan
      have hsame : d' = d := by
        rw [← Disk.run_of_reads (d := d) (uses_buildPlan manifest allocation mutationId createdAt)]
        exact (congrArg Prod.snd hplan).symm
      rw [hsame]
      refine ⟨List.Pairwise.cons (fun other hother => ?_) ih.distinct, ?_,
          fun other record hrecord => ?_⟩
      · change plan.mutationId ≠ _
        rw [hid]
        exact (hfresh other hother).symm
      · exact List.forall_mem_cons.mpr ⟨from_buildPlan hplan, ih.planned⟩
      · obtain ⟨planning, hplanning, hfollows⟩ := ih.recorded other record hrecord
        exact ⟨planning, List.mem_cons_of_mem _ hplanning, hfollows⟩
  | @persist plannings d planning _ hplanning ih =>
      exact ih.saved hplanning (follows_record planning.plan) (savedOrNot_saveRecord .plan _)
  | @apply plannings d mutationId now _ ih =>
      by_cases happly : ∃ record, recordAt d mutationId = some record ∧ record.status ≠ .applied
      · obtain ⟨record, hrecord, hstatus⟩ := happly
        rcases applyMutation_cases (W := W) now hrecord hstatus with
          ⟨-, failure, hrun⟩ | ⟨-, hsaved, -⟩
        · rw [hrun]
          exact ih
        · obtain ⟨planning, hplanning, -, hfollows⟩ := ih.recorded mutationId record hrecord
          exact ih.saved hplanning (hfollows.applied now) hsaved
      · rw [applyMutation_idle fun record hrecord => not_not.mp fun hstatus =>
          happly ⟨record, hrecord, hstatus⟩]
        exact ih
  | @rollback plannings d mutationId now _ ih =>
      by_cases hroll : ∃ record, recordAt d mutationId = some record ∧ record.status = .applied
      · obtain ⟨record, hrecord, hstatus⟩ := hroll
        rcases rollbackMutation_cases (W := W) now hrecord hstatus with
          ⟨-, failure, hrun⟩ | ⟨-, hsaved, -⟩
        · rw [hrun]
          exact ih
        · obtain ⟨planning, hplanning, -, hfollows⟩ := ih.recorded mutationId record hrecord
          exact ih.saved hplanning (hfollows.rolledBack now) hsaved
      · rw [rollbackMutation_idle fun record hrecord hstatus => hroll ⟨record, hrecord, hstatus⟩]
        exact ih
  | edit path content _ ih =>
      refine ih.congr ?_
      funext mutationId
      exact Disk.put_content_of_ne (by simp)

/-- The plan whose record is stored under its identifier. -/
theorem PlansFollowed.follows (h : PlansFollowed W plannings d) (hplanning : planning ∈ plannings)
    (hrecord : recordAt d planning.plan.mutationId = some record) :
    record.Follows W planning.plan := by
  obtain ⟨other, hother, hid, hfollows⟩ := h.recorded _ record hrecord
  have hsame : other = planning := by
    by_contra hne
    have hsymm : Std.Symm fun first second : Planning =>
        first.plan.mutationId ≠ second.plan.mutationId := ⟨fun _ _ hdistinct => hdistinct.symm⟩
    exact h.distinct.forall hother hplanning hne hid
  rwa [← hsame]

/-- With an injective hash, a file with the hash it was planned from has the content it was
planned from. -/
theorem eq_of_asExpected_before (hsha : Function.Injective W.sha256)
    (hplanned : ∀ file ∈ planning.plan.files, file.From W planning.contents)
    (hfollows : record.Follows W planning.plan) :
    AsExpected W (fun file => file.beforeHash) d record.files ↔
      ∀ file ∈ planning.plan.record.files,
        bytesAt d (file.target W) = planning.contents (file.target W) := by
  have hplan : AsExpected W (fun file => file.beforeHash) d record.files ↔
      AsExpected W (fun file => file.beforeHash) d planning.plan.record.files := by
    rcases hfollows.files with hfiles | hfiles
    · rw [hfiles]
    · rw [hfiles, AsExpected, List.forall_mem_map]
      rfl
  rw [hplan, AsExpected]
  change (∀ file ∈ planning.plan.files.map PlannedFile.record, _) ↔
    ∀ file ∈ planning.plan.files.map PlannedFile.record, _
  rw [List.forall_mem_map, List.forall_mem_map]
  refine forall₂_congr fun file hfile => ?_
  obtain ⟨hinside, hbefore⟩ := hplanned file hfile
  rw [and_iff_right hinside]
  change _ = file.beforeHash ↔ _
  rw [hbefore, (Option.map_injective hsha).eq_iff]

theorem eq_of_asExpected_after (hsha : Function.Injective W.sha256)
    (hplanned : ∀ file ∈ planning.plan.files, file.From W planning.contents)
    (hfollows : record.Follows W planning.plan) (hstatus : record.status = .applied) :
    AsExpected W (fun file => file.afterHash) d record.files ↔
      ∀ file ∈ planning.plan.record.files, bytesAt d (file.target W) = some file.rendered := by
  rw [hfollows.hashed hstatus, AsExpected, List.forall_mem_map]
  change (∀ file ∈ planning.plan.files.map PlannedFile.record, _) ↔
    ∀ file ∈ planning.plan.files.map PlannedFile.record, _
  rw [List.forall_mem_map, List.forall_mem_map]
  refine forall₂_congr fun file hfile => ?_
  obtain ⟨hinside, -⟩ := hplanned file hfile
  change file.record.Inside W ∧ _ = (some file.record.rendered).map W.sha256 ↔ _
  rw [and_iff_right hinside, (Option.map_injective hsha).eq_iff]
  rfl

theorem isTarget_of_follows {plan : ConfigPlan} (hfollows : record.Follows W plan) {path : Path} :
    IsTarget W record.files path ↔ IsTarget W plan.record.files path := by
  rcases hfollows.files with hfiles | hfiles
  · rw [hfiles]
  · rw [hfiles]
    constructor
    · rintro ⟨file, hfile, hsame⟩
      obtain ⟨planned, hplanned, rfl⟩ := List.mem_map.mp hfile
      exact ⟨planned, hplanned, hsame⟩
    · rintro ⟨file, hfile, hsame⟩
      exact ⟨file.hashed W, List.mem_map_of_mem hfile, hsame⟩

/-- A file that changed, where nothing but the targets did, is a target of the plan. -/
theorem isTarget_of_changed {plan : ConfigPlan} (hfollows : record.Follows W plan)
    {d' : AgentDisk} {path : Path}
    (hothers : ∀ path, ¬ IsTarget W record.files path → bytesAt d' path = bytesAt d path)
    (hchanged : bytesAt d' path ≠ bytesAt d path) : IsTarget W plan.record.files path := by
  rw [← isTarget_of_follows hfollows]
  by_contra hnot
  exact hchanged (hothers path hnot)

/-! ## No edit is lost -/

/-- What applying and rolling back a planned mutation do to files that were edited. -/
structure EditsKept (W : Workspace Document Documents) (planning : Planning) (d : AgentDisk)
    (now : String) : Prop where
  /-- A file that applying replaces holds what the plan was computed from. -/
  applied : ∀ path,
    bytesAt (onDisk (applyMutation W planning.plan.mutationId now) d).2 path ≠ bytesAt d path →
      IsTarget W planning.plan.record.files path ∧ bytesAt d path = planning.contents path
  /-- Where one file holds something else, applying is refused and changes nothing. -/
  applyRefused : ∀ record, recordAt d planning.plan.mutationId = some record →
    record.status ≠ .applied → ∀ file ∈ planning.plan.record.files,
      bytesAt d (file.target W) ≠ planning.contents (file.target W) →
        ∃ failure, onDisk (applyMutation W planning.plan.mutationId now) d = (.error failure, d)
  /-- A file that rolling back replaces holds what applying wrote. -/
  rolledBack : ∀ path,
    bytesAt (onDisk (rollbackMutation W planning.plan.mutationId now) d).2 path ≠ bytesAt d path →
      IsTarget W planning.plan.record.files path ∧ ∀ file ∈ planning.plan.record.files,
        file.target W = path → bytesAt d path = some file.rendered
  /-- Where one file holds something else, rolling back is refused and changes nothing. -/
  rollbackRefused : ∀ record, recordAt d planning.plan.mutationId = some record →
    record.status = .applied → ∀ file ∈ planning.plan.record.files,
      bytesAt d (file.target W) ≠ some file.rendered →
        ∃ failure, onDisk (rollbackMutation W planning.plan.mutationId now) d = (.error failure, d)

/-- In every state that planning, persisting, applying, rolling back and edits of the user
lead to, with any writes failing: applying replaces no file that differs from what the plan
was computed from, rolling back none that differs from what applying wrote, and where one
refuses for this reason nothing has changed. -/
theorem edits_kept (hsha : Function.Injective W.sha256) (hrun : EditedRun W plannings d)
    (hplanning : planning ∈ plannings) (now : String) : EditsKept W planning d now := by
  have hkept := plansFollowed_of_run hrun
  have hplanned := hkept.planned planning hplanning
  refine ⟨fun path hchanged => ?_, fun record hrecord hstatus file hfile hedited => ?_,
    fun path hchanged => ?_, fun record hrecord hstatus file hfile hedited => ?_⟩
  · by_cases happly : ∃ record, recordAt d planning.plan.mutationId = some record ∧
        record.status ≠ .applied
    · obtain ⟨record, hrecord, hstatus⟩ := happly
      have hfollows := hkept.follows hplanning hrecord
      rcases applyMutation_cases (W := W) now hrecord hstatus with
        ⟨-, failure, hcall⟩ | ⟨hexpected, -, hothers⟩
      · rw [hcall] at hchanged
        exact (hchanged rfl).elim
      · have htarget := isTarget_of_changed hfollows hothers hchanged
        refine ⟨htarget, ?_⟩
        obtain ⟨file, hfile, rfl⟩ := htarget
        exact (eq_of_asExpected_before hsha hplanned hfollows).mp hexpected file hfile
    · rw [applyMutation_idle fun record hrecord => not_not.mp fun hstatus =>
        happly ⟨record, hrecord, hstatus⟩] at hchanged
      exact (hchanged rfl).elim
  · have hfollows := hkept.follows hplanning hrecord
    rcases applyMutation_cases (W := W) now hrecord hstatus with
      ⟨-, hcall⟩ | ⟨hexpected, -, -⟩
    · exact hcall
    · exact (hedited ((eq_of_asExpected_before hsha hplanned hfollows).mp hexpected file
          hfile)).elim
  · by_cases hroll : ∃ record, recordAt d planning.plan.mutationId = some record ∧
        record.status = .applied
    · obtain ⟨record, hrecord, hstatus⟩ := hroll
      have hfollows := hkept.follows hplanning hrecord
      rcases rollbackMutation_cases (W := W) now hrecord hstatus with
        ⟨-, failure, hcall⟩ | ⟨hexpected, -, hothers⟩
      · rw [hcall] at hchanged
        exact (hchanged rfl).elim
      · have htarget := isTarget_of_changed hfollows hothers hchanged
        refine ⟨htarget, fun file hfile hsame => ?_⟩
        rw [← hsame]
        exact (eq_of_asExpected_after hsha hplanned hfollows hstatus).mp hexpected file hfile
    · rw [rollbackMutation_idle fun record hrecord hstatus =>
        hroll ⟨record, hrecord, hstatus⟩] at hchanged
      exact (hchanged rfl).elim
  · have hfollows := hkept.follows hplanning hrecord
    rcases rollbackMutation_cases (W := W) now hrecord hstatus with
      ⟨-, hcall⟩ | ⟨hexpected, -, -⟩
    · exact hcall
    · exact (hedited ((eq_of_asExpected_after hsha hplanned hfollows hstatus).mp hexpected
        file hfile)).elim

/-- A manifest that maps `PORT` of `.env` to the allocation `web`. -/
def dotenvManifest : ProjectManifest where
  version := 1
  project := "web"
  host := none
  requests := []
  requestId := none
  config := some ⟨[⟨".env", [("PORT", "web")]⟩], [], []⟩

/-- Its plan, where `.env` sets `PORT` to 80. -/
def dotenvPlan : ConfigPlan :=
  { samplePlan with
    files := [⟨".env", .dotenv, .willUpdate, some "PORT=80\n", "PORT=8001\n",
      [.dotenv "PORT" (some "80") "8001" .update]⟩] }

/-- The plan is persisted, and then the user edits the file. -/
theorem edits_kept_sample :
    EditsKept spelledWorkspace
      ⟨dotenvPlan, bytesAt (sampleDisk [(".env", "PORT=80\n")] [] fun _ _ => none)⟩
      ((onDisk (persistPlan dotenvPlan)
          (sampleDisk [(".env", "PORT=80\n")] [] fun _ _ => none)).2.put
        (.file ["project", ".env"]) (some "PORT=80\nDEBUG=1\n".toUTF8)) "now" := by
  have hplan : onDisk (buildPlan spelledWorkspace dotenvManifest ⟨"a1", [("web", 8001)]⟩ "m1"
      "2026-01-01T00:00:00+00:00") (sampleDisk [(".env", "PORT=80\n")] [] fun _ _ => none) =
        (.ok dotenvPlan, sampleDisk [(".env", "PORT=80\n")] [] fun _ _ => none) := by
    refine Prod.ext ?_ (Disk.run_of_reads (uses_buildPlan _ _ _ _))
    rfl
  exact edits_kept spelled_injective
    (.edit _ _ (.persist (.plan (.start _ fun _ => rfl) (fun _ hmem => by cases hmem) hplan)
      List.mem_cons_self)) List.mem_cons_self "now"

end Agent
