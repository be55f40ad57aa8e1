/-
# Applying and rolling back

A rollback takes every original from a backup that is named after the file's path
with its separators replaced. Two paths can share such a name, and then the later
backup overwrites the earlier one; and two mappings can share a file, whose hashes
then cannot both be those of the content it was left with. Apart from these two
cases rolling back undoes applying.
-/

import PortForge.Agent.ApplyAtomicity

namespace Agent

open Python Effects

variable {Document Documents : Type} {W : Workspace Document Documents} {d : AgentDisk}

/-! ## Plans -/

/-- An operation that only reads. -/
abbrev ReadsOnly : FileOp Site Location Content → Prop :=
  FileOp.Within (fun _ => False) fun _ => False

theorem uses_planDotenvFile (mapping : DotenvFileMapping) (ports : List (String × ℕ)) :
    (planDotenvFile W mapping ports).Uses ReadsOnly :=
  (Program.uses_ofExcept _).bind fun _ => ⟨trivial, fun _ =>
    (Program.uses_ofExcept _).bind fun _ => trivial⟩

theorem uses_planComposeFile (mapping : ComposeFileMapping) (ports : List (String × ℕ)) :
    (planComposeFile W mapping ports).Uses ReadsOnly :=
  (Program.uses_ofExcept _).bind fun _ => ⟨trivial, fun _ =>
    (Program.uses_ofExcept _).bind fun _ => (Program.uses_ofExcept _).bind fun _ =>
      (Program.uses_ofExcept _).bind fun _ => trivial⟩

theorem uses_planKubernetesFile (mapping : KubernetesFileMapping) (ports : List (String × ℕ)) :
    (planKubernetesFile W mapping ports).Uses ReadsOnly :=
  (Program.uses_ofExcept _).bind fun _ => ⟨trivial, fun _ =>
    (Program.uses_ofExcept _).bind fun _ => (Program.uses_ofExcept _).bind fun _ =>
      (Program.uses_ofExcept _).bind fun _ => trivial⟩

theorem uses_planAll {α : Type} {plan : α → Task PlannedFile}
    (h : ∀ mapping, (plan mapping).Uses ReadsOnly) (mappings : List α) :
        (planAll plan mappings).Uses ReadsOnly := by
  induction mappings with
  | nil => exact trivial
  | cons mapping mappings ih => exact (h mapping).bind fun _ => ih.bind fun _ => trivial

section Plan

variable {manifest : ProjectManifest} {allocation : AllocationData} {mutationId createdAt : String}

/-- Planning only reads. -/
theorem uses_buildPlan (manifest : ProjectManifest) (allocation : AllocationData)
    (mutationId createdAt : String) :
    (buildPlan W manifest allocation mutationId createdAt).Uses ReadsOnly := by
  rw [buildPlan]
  split
  · split
    · exact trivial
    · exact (uses_planAll (fun mapping => uses_planDotenvFile mapping _) _).bind fun _ =>
        (uses_planAll (fun mapping => uses_planComposeFile mapping _) _).bind fun _ =>
          (uses_planAll (fun mapping => uses_planKubernetesFile mapping _) _).bind fun _ => trivial
  · exact trivial

theorem returns_buildPlan : (buildPlan W manifest allocation mutationId createdAt).Returns
    fun plan => plan.mutationId = mutationId := by
  rw [buildPlan]
  split
  · split
    · exact trivial
    · exact .bind fun _ => .bind fun _ => .bind fun _ => rfl
  · exact trivial

end Plan

/-! ## Backups -/

/-- Files with one target are left with one hash. -/
def HashesAgree (W : Workspace Document Documents) (files : List FileRecord) : Prop :=
  ∀ file ∈ files, ∀ other ∈ files, file.target W = other.target W →
    W.sha256 file.rendered = W.sha256 other.rendered

/-- For the last file of each target, the last existing file with its backup name has the
same bytes as the target, and there is none if the target is absent. -/
def BackupsFaithful (W : Workspace Document Documents) (content : Path → Option ByteArray)
    (files : List FileRecord) : Prop :=
  ∀ file, LastOfTarget W files file →
    lastBackup W content (safeBackupName file.relativePath) files = content (file.target W)

theorem asExpected_after_iff {files : List FileRecord} (hinside : ∀ file ∈ files, file.Inside W)
    {content : Path → Option ByteArray}
    (hcontent : bytesAt d = updateAll content (files.map (FileRecord.update W))) :
    AsExpected W (fun file => file.afterHash) d (files.map (FileRecord.hashed W)) ↔
      HashesAgree W files := by
  have hlive : ∀ file ∈ files, ∃ other ∈ files, other.target W = file.target W ∧
      bytesAt d (file.target W) = some other.rendered := by
    intro file hfile
    obtain ⟨last, hlast, htarget⟩ := exists_lastOfTarget (W := W) hfile
    refine ⟨last, ?_, htarget, ?_⟩
    · obtain ⟨before, after, rfl, -⟩ := hlast
      exact List.mem_append_right before List.mem_cons_self
    · rw [hcontent, ← htarget]
      exact updateAll_of_lastOfTarget (fun file => some file.rendered) hlast
  rw [AsExpected, List.forall_mem_map]
  refine ⟨fun h file hfile other hother htarget => ?_, fun h file hfile => ⟨hinside file hfile, ?_⟩⟩
  · have hfirst : (bytesAt d (file.target W)).map W.sha256 = some (W.sha256 file.rendered) :=
      (h file hfile).2
    have hsecond : (bytesAt d (other.target W)).map W.sha256 = some (W.sha256 other.rendered) :=
      (h other hother).2
    rw [htarget, hsecond] at hfirst
    exact (Option.some_inj.mp hfirst).symm
  · obtain ⟨other, hother, htarget, hbytes⟩ := hlive file hfile
    change (bytesAt d (file.target W)).map W.sha256 = some (W.sha256 file.rendered)
    rw [hbytes, Option.map_some, h other hother file hfile htarget]

/-- Restoring from backups brings the contents before the mutation back exactly if the
backups are faithful. -/
theorem restored_iff {files : List FileRecord} {content : Path → Option ByteArray}
    {backup : String → Option ByteArray}
    (hbackup : ∀ name, backup name = lastBackup W content name files) :
    updateAll (updateAll content (files.map (FileRecord.update W)))
        (files.map fun file => (file.target W, backup (safeBackupName file.relativePath))) =
            content ↔
      BackupsFaithful W content files := by
  refine ⟨fun h file hlast => ?_, fun h => funext fun path => ?_⟩
  · have hfile := congrFun h (file.target W)
    rw [updateAll_of_lastOfTarget
      (fun file => backup (safeBackupName file.relativePath)) hlast, hbackup] at hfile
    exact hfile
  · by_cases hpath : ∃ file ∈ files, file.target W = path
    · obtain ⟨file, hfile, rfl⟩ := hpath
      obtain ⟨last, hlast, htarget⟩ := exists_lastOfTarget (W := W) hfile
      rw [← htarget, updateAll_of_lastOfTarget
        (fun file => backup (safeBackupName file.relativePath)) hlast, hbackup]
      exact h last hlast
    · have hnone : ∀ {β : Type} (value : FileRecord → β),
          path ∉ (files.map fun file => (file.target W, value file)).map Prod.fst := by
        intro β value hmem
        rw [List.map_map] at hmem
        obtain ⟨file, hfile, heq⟩ := List.mem_map.mp hmem
        exact hpath ⟨file, hfile, heq⟩
      rw [updateAll_of_not_mem (hnone _)]
      exact updateAll_of_not_mem (hnone fun file => some file.rendered)

/-! ## The round trip -/

/-- A planned and applied mutation can be rolled back to the bytes before it exactly if its hashes
agree and its backups are faithful. -/
theorem restored_of_plan_iff {manifest : ProjectManifest} {allocation : AllocationData}
    {mutationId createdAt appliedAt rolledBackAt : String} {plan : ConfigPlan}
    {record : MutationRecord} {d₁ d₂ d₃ : AgentDisk} (hreliable : d.Reliable)
    (hfresh : ∀ name, backupAt d mutationId name = none)
    (hplan : onDisk (buildPlan W manifest allocation mutationId createdAt) d = (.ok plan, d₁))
    (hpersist : onDisk (persistPlan plan) d₁ = (.ok (), d₂))
    (happly : onDisk (applyMutation W mutationId appliedAt) d₂ = (.ok record, d₃)) :
    (∃ rolledBack d₄, onDisk (rollbackMutation W mutationId rolledBackAt) d₃ =
        (.ok rolledBack, d₄) ∧
        bytesAt d₄ = bytesAt d) ↔
      HashesAgree W plan.record.files ∧ BackupsFaithful W (bytesAt d) plan.record.files := by
  have hid : plan.mutationId = mutationId := returns_buildPlan.run hplan
  have hd₁ : d₁ = d := by
    have hreads := Disk.run_of_reads (d := d)
      (uses_buildPlan (W := W) manifest allocation mutationId createdAt)
    have hrun : Program.run Disk.handle (buildPlan W manifest allocation mutationId createdAt) d =
        (.ok plan, d₁) := hplan
    rw [hrun] at hreads
    exact hreads
  subst hd₁ hid
  -- Persisting writes the record and nothing else.
  have hd₂ : d₂ = (d₁.passed .plan).put (.record plan.mutationId) (some plan.record) := by
    have hsame : onDisk (persistPlan plan) d₁ =
        (.ok (), (d₁.passed .plan).put (.record plan.mutationId) (some plan.record)) :=
      onDisk_atomicWrite_of_none (hreliable .plan 0)
    rw [hpersist] at hsame
    exact congrArg Prod.snd hsame
  have hbytes₂ : bytesAt d₂ = bytesAt d₁ := by
    funext path
    rw [hd₂]
    exact Disk.put_content_of_ne (by simp)
  have hbackups₂ : ∀ name, backupAt d₂ plan.mutationId name = none := by
    intro name
    rw [← hfresh name, hd₂]
    exact Disk.put_content_of_ne (by simp)
  have hrecord₂ : recordAt d₂ plan.mutationId = some plan.record := by
    rw [hd₂]
    exact Disk.put_content_self
  have hreliable₂ : d₂.Reliable := by
    rw [hd₂]
    exact hreliable.passed
  have hreliable₃ : d₃.Reliable := by
    have hrun : Program.run Disk.handle (applyMutation W plan.mutationId appliedAt) d₂ =
        (.ok record, d₃) := happly
    have hkept := hreliable₂.run (p := applyMutation W plan.mutationId appliedAt)
    rwa [hrun] at hkept
  rcases onDisk_applyMutation (W := W) appliedAt hrecord₂
    (by simp [ConfigPlan.record]) (hreliable₂ .restore) with
    ⟨-, failure, d', hrun, -⟩ | ⟨-, -, failure, d', hrun, -⟩ |
      ⟨hreaches, -, d', hrun, hbytes₃, hrecords₃, hbackups₃⟩
  · rw [happly] at hrun
    cases hrun
  · rw [happly] at hrun
    cases hrun
  rw [happly] at hrun
  cases hrun
  have hrecord₃ : recordAt d₃ plan.mutationId = some (plan.record.applied W appliedAt) := by
    rw [hrecords₃]
    exact Function.update_self _ _ _
  have hinside : ∀ file ∈ plan.record.files, file.Inside W :=
    fun file hfile => (hreaches.unchanged file hfile).1
  have hcontent : bytesAt d₃ = updateAll (bytesAt d₁) (plan.record.files.map
      (FileRecord.update W)) := by
    rw [hbytes₃, afterApply, hbytes₂]
  have hbackup : ∀ name, backupAt d₃ plan.mutationId name =
      lastBackup W (bytesAt d₁) name plan.record.files := by
    intro name
    rw [hbackups₃, hbackups₂, Option.or_none, hbytes₂]
  have hhashes := asExpected_after_iff hinside hcontent
  have hrestored := restored_iff (W := W) hbackup
  rcases onDisk_rollbackMutation (W := W) rolledBackAt hrecord₃ rfl (hreliable₃ .rollback)
    (hreliable₃ .record 0) with ⟨hnot, failure, hrun⟩ | ⟨hall, d₄, hrun, hbytes₄, -⟩
  · refine iff_of_false ?_ fun h => hnot (hhashes.mpr h.1)
    rintro ⟨rolledBack, d₄, hok, -⟩
    rw [hrun] at hok
    cases hok
  · have hfinal : bytesAt d₄ = updateAll (bytesAt d₃) (plan.record.files.map fun file =>
        (file.target W, backupAt d₃ plan.mutationId (safeBackupName file.relativePath))) := by
      rw [hbytes₄, afterRollback]
      change updateAll _ ((plan.record.files.map _).map _) = _
      rw [List.map_map]
      rfl
    rw [and_iff_right (hhashes.mp hall), ← hrestored, ← hcontent, ← hfinal]
    refine ⟨?_, fun h => ⟨_, d₄, hrun, h⟩⟩
    rintro ⟨rolledBack, d', hok, hback⟩
    rw [hrun] at hok
    cases hok
    exact hback

/-- On a disk that does not fail, for a mutation whose directory is new: once a plan is
built, persisted and applied, rolling it back succeeds and leaves every file of the
project as it was before exactly if files with one target were left with one hash, and
every target's last backup holds its original bytes. -/
theorem rollback_restores_iff {manifest : ProjectManifest} {allocation : AllocationData}
    {mutationId createdAt appliedAt rolledBackAt : String} {plan : ConfigPlan}
    {record : MutationRecord} {d₁ d₂ d₃ : AgentDisk} (hreliable : d.Reliable)
    (hfresh : ∀ name, backupAt d mutationId name = none)
    (hplan : onDisk (buildPlan W manifest allocation mutationId createdAt) d = (.ok plan, d₁))
    (hpersist : onDisk (persistPlan plan) d₁ = (.ok (), d₂))
    (happly : onDisk (applyMutation W mutationId appliedAt) d₂ = (.ok record, d₃)) :
    (∃ rolledBack d₄, onDisk (rollbackMutation W mutationId rolledBackAt) d₃ =
        (.ok rolledBack, d₄) ∧
        bytesAt d₄ = bytesAt d) ↔
      HashesAgree W plan.record.files ∧ BackupsFaithful W (bytesAt d) plan.record.files :=
  restored_of_plan_iff hreliable hfresh hplan hpersist happly

/-- A manifest that maps the port of `api` to `PORT` in every given file. -/
def sampleManifest (files : List String) : List (Scalar × Value) :=
  [(.str "version", .int 1), (.str "project", .str "web"),
    (.str "ports", .dict [(.str "api", .dict [(.str "purpose", .str "api")])]),
    (.str "config", .dict
      [(.str "dotenv", .list (files.map fun file =>
        .dict [(.str "file", .str file), (.str "values", .dict [(.str "PORT", .str "api")])]))])]

def sampleAllocation : AllocationData := ⟨"a1", [("api", 8001)]⟩

theorem rollback_restores_iff_sample : ∃ manifest plan record d₁ d₂ d₃,
    validateManifest (sampleManifest [".env"]) = .ok manifest ∧
      onDisk (buildPlan sampleWorkspace manifest sampleAllocation "m1" "plan")
        (sampleDisk [(".env", "PORT=80\n")] [] fun _ _ => none) = (.ok plan, d₁) ∧
      onDisk (persistPlan plan) d₁ = (.ok (), d₂) ∧
      onDisk (applyMutation sampleWorkspace "m1" "apply") d₂ = (.ok record, d₃) ∧
      ((∃ rolledBack d₄,
          onDisk (rollbackMutation sampleWorkspace "m1" "rollback") d₃ = (.ok rolledBack, d₄) ∧
            bytesAt d₄ = bytesAt (sampleDisk [(".env", "PORT=80\n")] [] fun _ _ => none)) ↔
        HashesAgree sampleWorkspace plan.record.files ∧
          BackupsFaithful sampleWorkspace
            (bytesAt (sampleDisk [(".env", "PORT=80\n")] [] fun _ _ => none)) plan.record.files) := by
  have hruns : ∃ manifest plan record d₁ d₂ d₃,
      validateManifest (sampleManifest [".env"]) = .ok manifest ∧
        onDisk (buildPlan sampleWorkspace manifest sampleAllocation "m1" "plan")
          (sampleDisk [(".env", "PORT=80\n")] [] fun _ _ => none) = (.ok plan, d₁) ∧
        onDisk (persistPlan plan) d₁ = (.ok (), d₂) ∧
        onDisk (applyMutation sampleWorkspace "m1" "apply") d₂ = (.ok record, d₃) :=
    ⟨_, _, _, _, _, _, rfl, rfl, rfl, rfl⟩
  obtain ⟨manifest, plan, record, d₁, d₂, d₃, hvalid, hplan, hpersist, happly⟩ := hruns
  exact ⟨manifest, plan, record, d₁, d₂, d₃, hvalid, hplan, hpersist, happly,
    rollback_restores_iff (fun _ _ => rfl) (fun _ => rfl) hplan hpersist happly⟩

/-- The backup of `a__b` overwrites that of `a/b`. -/
theorem rollback_misplaces : ∃ manifest plan record d₁ d₂ d₃,
    validateManifest (sampleManifest ["a/b", "a__b"]) = .ok manifest ∧
      onDisk (buildPlan sampleWorkspace manifest sampleAllocation "m1" "plan")
        (sampleDisk [("a/b", "X=1\n"), ("a__b", "X=2\n")] [] fun _ _ => none) = (.ok plan, d₁) ∧
      onDisk (persistPlan plan) d₁ = (.ok (), d₂) ∧
      onDisk (applyMutation sampleWorkspace "m1" "apply") d₂ = (.ok record, d₃) ∧
      ¬ ∃ rolledBack d₄,
        onDisk (rollbackMutation sampleWorkspace "m1" "rollback") d₃ = (.ok rolledBack, d₄) ∧
          bytesAt d₄ =
            bytesAt (sampleDisk [("a/b", "X=1\n"), ("a__b", "X=2\n")] [] fun _ _ => none) := by
  refine ⟨_, _, _, _, _, _, rfl, rfl, rfl, rfl, ?_⟩
  rintro ⟨rolledBack, d₄, hrun, hback⟩
  have hfile := congrFun hback ["project", "a", "b"]
  cases hrun
  revert hfile
  decide

end Agent
