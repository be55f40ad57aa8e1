/-
# A rollback that fails on the way

A rollback whose write fails leaves the files in front of it restored and the others as
they were applied. The next rollback compares every file with its applied content first,
so the files that are already restored stop it. It gets by only where restoring them
changed nothing.
-/

import PortForge.Agent.UserEdits

namespace Agent

open Effects

variable {Document Documents : Type} {W : Workspace Document Documents} {d : AgentDisk}
  {mutationId : String} {record : MutationRecord} {before rest files : List FileRecord}

/-! ## One failing write -/

/-- The failure of one write of a rollback: of the file after `before`, or of the record
where no file is left. -/
def failingAfter (before rest : List FileRecord) (error : String) : Site → ℕ → Option String :=
  match rest with
  | [] => fun site n => if site = .record ∧ n = 0 then some error else none
  | _ :: _ => fun site n => if site = .rollback ∧ n = before.length then some error else none

theorem onDisk_restoreFile_of_some {site : Site} {path : Path} {original : Option ByteArray}
    {error : String} (h : d.faults site 0 = some error) :
    onDisk (restoreFile site path original) d = (.error (.os error), d.passed site) := by
  cases original with
  | some bytes => exact onDisk_atomicWrite_of_some h
  | none =>
      have hattempt : Disk.handle (.unlink site (.file path)) d = (some error, d.passed site) :=
        Disk.attempt_of_some h
      exact Program.run_call_of_handle hattempt

/-- The files in front are restored, and the loop goes on with the others. -/
theorem onDisk_restoreFromBackups_append (hinside : ∀ file ∈ before, file.Inside W)
    (hclear : Clear d .rollback before.length) :
    ∃ d', onDisk (restoreFromBackups W mutationId (before ++ rest)) d =
        onDisk (restoreFromBackups W mutationId rest) d' ∧
      bytesAt d' = updateAll (bytesAt d) (before.map (FileRecord.fromBackup W d mutationId)) ∧
      (∀ place, (∀ path, place ≠ Location.file path) → d'.content place = d.content place) ∧
      (∀ n, d'.faults .rollback n = d.faults .rollback (n + before.length)) ∧
      ∀ site, site ≠ .rollback → d'.faults site = d.faults site := by
  induction before generalizing d with
  | nil => exact ⟨d, rfl, rfl, fun _ _ => rfl, fun _ => rfl, fun _ _ => rfl⟩
  | cons file before ih =>
      obtain ⟨hfile, hfiles⟩ := List.forall_mem_cons.mp hinside
      obtain ⟨hfirst, hrest⟩ := clear_succ.mp hclear
      obtain ⟨d₁, hd₁⟩ : ∃ d₁, d₁ = (d.passed .rollback).put (.file (file.target W))
        (backupAt d mutationId (safeBackupName file.relativePath)) := ⟨_, rfl⟩
      have hplaces₁ : ∀ place, (∀ path, place ≠ Location.file path) →
          d₁.content place = d.content place := by
        intro place hplace
        rw [hd₁]
        exact Disk.put_content_of_ne (hplace _)
      have hbackups : FileRecord.fromBackup W d₁ mutationId =
          FileRecord.fromBackup W d mutationId := by
        funext other
        have hsame : ∀ name, backupAt d₁ mutationId name = backupAt d mutationId name :=
          fun name => hplaces₁ _ (by simp)
        rw [FileRecord.fromBackup, FileRecord.fromBackup, hsame]
      obtain ⟨d', hrun, hbytes, hplaces, hfaults, hothers⟩ :=
        ih (d := d₁) hfiles (by rw [hd₁, clear_put]; exact hrest)
      refine ⟨d', ?_, ?_, fun place hplace => ?_, fun n => ?_, fun site hsite => ?_⟩
      · rw [List.cons_append, restoreFromBackups, resolveWithinRoot_of_inside hfile]
        simp only [Program.bind_eq, Program.ofExcept, Program.bind]
        rw [onDisk_bind_of_ok (onDisk_readBackup _ _),
          onDisk_bind_of_ok (onDisk_restoreFile_of_none hfirst), ← hd₁, hrun]
      · rw [hbytes, hbackups, List.map_cons, updateAll_cons]
        congr 1
        funext path
        rw [hd₁, bytesAt_put]
        rfl
      · rw [hplaces place hplace, hplaces₁ place hplace]
      · rw [hfaults, hd₁, Disk.put_faults, Disk.passed_faults_self]
        rfl
      · rw [hothers site hsite, hd₁, Disk.put_faults, Disk.passed_faults_of_ne hsite]

/-- A rollback that passes its check and has one failing write: the files in front of the
failure are restored, the record still says that the mutation is applied, and no further
write fails. -/
theorem onDisk_rollbackMutation_failing {error : String} (now : String)
    (hrecord : recordAt d mutationId = some record) (hstatus : record.status = .applied)
    (hfiles : record.files = before ++ rest) (hfaults : d.faults = failingAfter before rest error)
    (hexpected : AsExpected W (fun file => file.afterHash) d record.files) :
    ∃ d', onDisk (rollbackMutation W mutationId now) d = (.error (.os error), d') ∧
      bytesAt d' = updateAll (bytesAt d) (before.map (FileRecord.fromBackup W d mutationId)) ∧
      recordAt d' = recordAt d ∧ (∀ name, backupAt d' mutationId name =
          backupAt d mutationId name) ∧
      d'.Reliable := by
  have hcheck : onDisk (checkUnchangedSinceApply W record.files) d = (.ok (), d) := by
    rcases onDisk_checkUnchangedSinceApply (W := W) (d := d) record.files with
      ⟨-, hrun⟩ | ⟨hnot, -⟩
    · exact hrun
    · exact (hnot hexpected).elim
  have hclear : Clear d .rollback before.length := by
    intro n hn
    rw [hfaults]
    cases rest with
    | nil => rfl
    | cons file rest => exact if_neg fun h => absurd h.2 (Nat.ne_of_lt hn)
  obtain ⟨d₁, hrun, hbytes, hplaces, hrollback, hothers⟩ :=
    @onDisk_restoreFromBackups_append _ _ W d mutationId before rest
      (fun file hfile => (hexpected file (by rw [hfiles]; exact List.mem_append_left rest hfile)).1)
      hclear
  rw [rollbackMutation, Program.bind_eq, onDisk_bind_of_ok (onDisk_loadRecord hrecord), hstatus]
  simp only [Program.bind_eq]
  rw [onDisk_bind_of_ok hcheck, hfiles]
  cases rest with
  | nil =>
      have hdone : onDisk (restoreFromBackups W mutationId (before ++ [])) d = (.ok (), d₁) := hrun
      have hsave : d₁.faults .record 0 = some error := by
        rw [hothers .record (by decide), hfaults]
        rfl
      refine ⟨d₁.passed .record, ?_, hbytes, ?_, fun name => hplaces _ (by simp), fun site n => ?_⟩
      · rw [onDisk_bind_of_ok hdone]
        exact onDisk_bind_of_error (onDisk_atomicWrite_of_some hsave)
      · funext other
        exact hplaces _ (by simp)
      · by_cases hsite : site = .record
        · rw [hsite, Disk.passed_faults_self, hothers .record (by decide), hfaults]
          simp [failingAfter]
        · rw [Disk.passed_faults_of_ne hsite]
          by_cases hback : site = .rollback
          · rw [hback, hrollback, hfaults]
            rfl
          · rw [hothers site hback, hfaults]
            exact if_neg fun h => hsite h.1
  | cons file rest =>
      have hinside : file.Inside W :=
        (hexpected file (by rw [hfiles]; exact List.mem_append_right before List.mem_cons_self)).1
      have hfault : d₁.faults .rollback 0 = some error := by
        rw [hrollback, hfaults, Nat.zero_add]
        exact if_pos ⟨rfl, rfl⟩
      have hstop : onDisk (restoreFromBackups W mutationId (before ++ file :: rest)) d =
          (.error (.os error), d₁.passed .rollback) := by
        rw [hrun, restoreFromBackups, resolveWithinRoot_of_inside hinside]
        simp only [Program.bind_eq, Program.ofExcept, Program.bind]
        rw [onDisk_bind_of_ok (onDisk_readBackup _ _)]
        exact onDisk_bind_of_error (onDisk_restoreFile_of_some hfault)
      refine ⟨d₁.passed .rollback, onDisk_bind_of_error hstop, hbytes, ?_,
        fun name => hplaces _ (by simp), fun site n => ?_⟩
      · funext other
        exact hplaces _ (by simp)
      · by_cases hsite : site = .rollback
        · rw [hsite, Disk.passed_faults_self]
          change d₁.faults .rollback (n + 1) = none
          rw [hrollback, hfaults]
          exact if_neg fun h => absurd h.2 (by omega)
        · rw [Disk.passed_faults_of_ne hsite, hothers site hsite, hfaults]
          exact if_neg fun h => hsite h.1

/-! ## Restored and applied files together -/

/-- The last file of each target has the content as its backup. -/
def RestoresTo (W : Workspace Document Documents) (d : AgentDisk) (mutationId : String)
    (content : Path → Option ByteArray) (files : List FileRecord) : Prop :=
  ∀ file, LastOfTarget W files file →
    backupAt d mutationId (safeBackupName file.relativePath) = content (file.target W)

theorem LastOfTarget.mem {file : FileRecord} (h : LastOfTarget W files file) : file ∈ files := by
  obtain ⟨before, after, rfl, -⟩ := h
  exact List.mem_append_right before List.mem_cons_self

theorem updateAll_of_not_isTarget {content : Path → Option ByteArray} {path : Path}
    (h : ¬ IsTarget W files path) :
    updateAll content (files.map (FileRecord.fromBackup W d mutationId)) path = content path := by
  refine updateAll_of_not_mem fun hmem => h ?_
  rw [List.map_map] at hmem
  obtain ⟨file, hfile, hsame⟩ := List.mem_map.mp hmem
  exact ⟨file, hfile, hsame⟩

/-- What the targets hold once some of the files are restored. -/
theorem forall_restored_iff {content : Path → Option ByteArray} (holds : Path →
    Option ByteArray → Prop)
    (hsub : ∀ file ∈ before, file ∈ files) :
    (∀ file ∈ files, holds (file.target W)
        (updateAll content (before.map (FileRecord.fromBackup W d mutationId)) (file.target W))) ↔
      (∀ file, LastOfTarget W before file →
        holds (file.target W) (backupAt d mutationId (safeBackupName file.relativePath))) ∧
      ∀ file ∈ files, ¬ IsTarget W before (file.target W) →
        holds (file.target W) (content (file.target W)) := by
  have hlast : ∀ file, LastOfTarget W before file →
      updateAll content (before.map (FileRecord.fromBackup W d mutationId)) (file.target W) =
        backupAt d mutationId (safeBackupName file.relativePath) :=
    fun file => updateAll_of_lastOfTarget
      fun file => backupAt d mutationId (safeBackupName file.relativePath)
  constructor
  · intro h
    refine ⟨fun file hfile => ?_, fun file hfile hnot => ?_⟩
    · rw [← hlast file hfile]
      exact h file (hsub file hfile.mem)
    · have hholds := h file hfile
      rwa [updateAll_of_not_isTarget hnot] at hholds
  · rintro ⟨hrestored, hothers⟩ file hfile
    by_cases htarget : IsTarget W before (file.target W)
    · obtain ⟨other, hother, hsame⟩ := htarget
      obtain ⟨last, hfinal, htarget⟩ := exists_lastOfTarget (W := W) hother
      rw [← hsame, ← htarget, hlast last hfinal]
      exact hrestored last hfinal
    · rw [updateAll_of_not_isTarget htarget]
      exact hothers file hfile htarget

/-! ## The retry -/

/-- After a rollback, every target holds what it held, or every target holds its original
content, or the next rollback returns and brings every original back. -/
def Recovered (W : Workspace Document Documents) (mutationId now later : String)
    (original : Path → Option ByteArray) (files : List FileRecord) (d : AgentDisk) : Prop :=
  let stopped := (onDisk (rollbackMutation W mutationId now) d).2
  (∀ file ∈ files, bytesAt stopped (file.target W) = bytesAt d (file.target W)) ∨
    (∀ file ∈ files, bytesAt stopped (file.target W) = original (file.target W)) ∨
    ((∃ record, (onDisk (rollbackMutation W mutationId later) stopped).1 = .ok record) ∧
      ∀ file ∈ files, bytesAt (onDisk (rollbackMutation W mutationId later) stopped).2
        (file.target W) = original (file.target W))

/-- A failure after `before` leaves no mixture that the check stops: a file has changed since
the mutation was applied, so that nothing is written; or restoring `before` changes nothing;
or it restores whatever was not as it originally was; or it changes no hash, and the
backups bring every original back. -/
def NoMixture (W : Workspace Document Documents) (d : AgentDisk) (mutationId : String)
    (original : Path → Option ByteArray) (before rest : List FileRecord) : Prop :=
  AsExpected W (fun file => file.afterHash) d (before ++ rest) →
    RestoresTo W d mutationId (bytesAt d) before ∨
    (RestoresTo W d mutationId original before ∧ ∀ file ∈ rest,
        ¬ IsTarget W before (file.target W) →
      bytesAt d (file.target W) = original (file.target W)) ∨
    ((∀ file, LastOfTarget W before file →
        (backupAt d mutationId (safeBackupName file.relativePath)).map W.sha256 =
          (bytesAt d (file.target W)).map W.sha256) ∧
      RestoresTo W d mutationId original (before ++ rest))

/-- For every applied mutation, whatever its files originally held, and every choice of one
failing write: the rollback leaves all files applied, or all original, or the next one
succeeds, exactly if the failure leaves no mixture. -/
theorem rollback_recovered_iff {error : String} (now later : String)
    (original : Path → Option ByteArray) (hrecord : recordAt d mutationId = some record)
    (hstatus : record.status = .applied) (hfiles : record.files = before ++ rest)
    (hfaults : d.faults = failingAfter before rest error) :
    Recovered W mutationId now later original record.files d ↔
      NoMixture W d mutationId original before rest := by
  by_cases hexpected : AsExpected W (fun file => file.afterHash) d record.files
  case neg =>
    refine iff_of_true ?_ fun h => (hexpected (hfiles ▸ h)).elim
    rcases rollbackMutation_cases (W := W) now hrecord hstatus with ⟨-, failure, hrun⟩ | ⟨h, -⟩
    · left
      rw [hrun]
      exact fun _ _ => rfl
    · exact (hexpected h).elim
  obtain ⟨d', hrun, hbytes, hrecords, hbackups, hreliable⟩ :=
    onDisk_rollbackMutation_failing now hrecord hstatus hfiles hfaults hexpected
  have hsub : ∀ file ∈ before, file ∈ record.files := fun file hfile => by
    rw [hfiles]
    exact List.mem_append_left rest hfile
  have hlive : ∀ file ∈ record.files, file.Inside W ∧
      (bytesAt d (file.target W)).map W.sha256 = file.afterHash := hexpected
  -- The three outcomes, each in terms of the backups.
  have hkept : (∀ file ∈ record.files, bytesAt d' (file.target W) = bytesAt d (file.target W)) ↔
      RestoresTo W d mutationId (bytesAt d) before := by
    rw [hbytes, forall_restored_iff (fun path content => content = bytesAt d path) hsub]
    exact and_iff_left fun _ _ _ => rfl
  have horiginal : (∀ file ∈ record.files, bytesAt d' (file.target W) = original (file.target W)) ↔
      RestoresTo W d mutationId original before ∧ ∀ file ∈ rest,
        ¬ IsTarget W before (file.target W) → bytesAt d (file.target W) =
            original (file.target W) := by
    rw [hbytes, forall_restored_iff (fun path content => content = original path) hsub]
    refine and_congr_right fun _ => ?_
    rw [hfiles, List.forall_mem_append]
    exact and_iff_right fun file hfile hnot => (hnot ⟨file, hfile, rfl⟩).elim
  have hcheck : AsExpected W (fun file => file.afterHash) d' record.files ↔
      ∀ file, LastOfTarget W before file →
        (backupAt d mutationId (safeBackupName file.relativePath)).map W.sha256 =
          (bytesAt d (file.target W)).map W.sha256 := by
    have hsame : AsExpected W (fun file => file.afterHash) d' record.files ↔
        ∀ file ∈ record.files, (bytesAt d' (file.target W)).map W.sha256 =
          (bytesAt d (file.target W)).map W.sha256 := by
      refine forall₂_congr fun file hfile => ?_
      rw [and_iff_right (hlive file hfile).1, (hlive file hfile).2]
    rw [hsame, hbytes, forall_restored_iff
      (fun path content => content.map W.sha256 = (bytesAt d path).map W.sha256) hsub]
    exact and_iff_left fun _ _ _ => rfl
  have hretry : ((∃ record, (onDisk (rollbackMutation W mutationId later) d').1 = .ok record) ∧
      ∀ file ∈ record.files, bytesAt (onDisk (rollbackMutation W mutationId later) d').2
        (file.target W) = original (file.target W)) ↔
      AsExpected W (fun file => file.afterHash) d' record.files ∧
        RestoresTo W d mutationId original record.files := by
    rcases onDisk_rollbackMutation (W := W) later ((congrFun hrecords mutationId).trans
        hrecord) hstatus
      (hreliable .rollback) (hreliable .record 0) with
        ⟨hnot, failure, hlater⟩ | ⟨hpass, d₂, hlater, hafter, -⟩
    · rw [hlater]
      refine iff_of_false (fun ⟨⟨found, hfound⟩, _⟩ => ?_) fun h => hnot h.1
      cases hfound
    · have hfrom : FileRecord.fromBackup W d' mutationId =
          FileRecord.fromBackup W d mutationId := by
        funext file
        rw [FileRecord.fromBackup, FileRecord.fromBackup, hbackups]
      rw [hlater, and_iff_right ⟨_, rfl⟩, and_iff_right hpass]
      change (∀ file ∈ record.files, bytesAt d₂ (file.target W) = original (file.target W)) ↔ _
      rw [hafter, afterRollback, hfrom,
        forall_restored_iff (fun path content => content = original path) fun _ hfile => hfile]
      exact and_iff_left fun file hfile hnot => (hnot ⟨file, hfile, rfl⟩).elim
  have houtcomes : Recovered W mutationId now later original record.files d ↔
      (∀ file ∈ record.files, bytesAt d' (file.target W) = bytesAt d (file.target W)) ∨
        (∀ file ∈ record.files, bytesAt d' (file.target W) = original (file.target W)) ∨
        ((∃ record, (onDisk (rollbackMutation W mutationId later) d').1 = .ok record) ∧
          ∀ file ∈ record.files, bytesAt (onDisk (rollbackMutation W mutationId later) d').2
            (file.target W) = original (file.target W)) := by
    rw [Recovered, hrun]
  rw [houtcomes, hkept, horiginal, hretry, hcheck, hfiles]
  refine ⟨fun h _ => h, fun h => h ?_⟩
  rw [← hfiles]
  exact hexpected

/-- The project before that plan is applied. -/
def twoFileDisk : AgentDisk :=
  sampleDisk [("a.env", "PORT=80\n"), ("b.env", "PORT=81\n")] [twoFilePlan.record] fun _ _ => none

/-- The record once it is applied. -/
def twoFileRecord : MutationRecord := twoFilePlan.record.applied sampleWorkspace "apply"

/-- The project after it is applied; restoring the second file is about to fail. -/
def twoFileApplied : AgentDisk :=
  { (onDisk (applyMutation sampleWorkspace "m1" "apply") twoFileDisk).2 with
    faults := failingAfter (twoFileRecord.files.take 1) (twoFileRecord.files.drop 1) "disk full" }

theorem rollback_recovered_iff_sample :
    Recovered sampleWorkspace "m1" "rollback" "retry" (bytesAt twoFileDisk) twoFileRecord.files
        twoFileApplied ↔
      NoMixture sampleWorkspace twoFileApplied "m1" (bytesAt twoFileDisk)
        (twoFileRecord.files.take 1) (twoFileRecord.files.drop 1) :=
  @rollback_recovered_iff _ _ sampleWorkspace twoFileApplied "m1" twoFileRecord _ _ "disk full"
    "rollback" "retry" (bytesAt twoFileDisk) rfl rfl rfl rfl

/-- The first file is restored and the second is not, and the retry is refused. -/
theorem rollback_stuck :
    ¬ Recovered sampleWorkspace "m1" "rollback" "retry" (bytesAt twoFileDisk) twoFileRecord.files
        twoFileApplied := by
  rintro (hkept | horiginal | ⟨⟨record, hretry⟩, -⟩)
  · have hfirst := hkept _ List.mem_cons_self
    revert hfirst
    decide +kernel
  · have hsecond := horiginal _ (List.mem_cons_of_mem _ List.mem_cons_self)
    revert hsecond
    decide +kernel
  · have hrefused : ((onDisk (rollbackMutation sampleWorkspace "m1" "retry")
        (onDisk (rollbackMutation sampleWorkspace "m1" "rollback") twoFileApplied).2).1.isOk) =
          false := by
      decide +kernel
    rw [hretry] at hrefused
    cases hrefused

end Agent
