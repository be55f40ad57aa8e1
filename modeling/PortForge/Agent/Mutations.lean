/-
# What the steps of a mutation do

One specification for each step of applying and rolling back: the check, the
backups, the writing of the targets, the restoring. Each says what the step
returns, when it fails, and what it leaves on the disk.
-/

import PortForge.Agent.ConfigManager
import PortForge.Effects.Updates

namespace Agent

open Effects

variable {Document Documents : Type} {W : Workspace Document Documents} {d : AgentDisk}

/-- Run a part of a command against a disk. -/
def onDisk {α : Type} (task : Task α) (d : AgentDisk) : Except ConfigFailure α × AgentDisk :=
  task.run Disk.handle d

/-! ## Single operations -/

theorem onDisk_bind_of_ok {α β : Type} {task : Task α} {next : α → Task β} {value : α}
    {d' : AgentDisk} (h : onDisk task d = (.ok value, d')) :
    onDisk (task.bind next) d = onDisk (next value) d' :=
  Program.run_bind_of_ok h

theorem onDisk_bind_of_error {α β : Type} {task : Task α} {next : α → Task β}
    {failure : ConfigFailure} {d' : AgentDisk} (h : onDisk task d = (.error failure, d')) :
    onDisk (task.bind next) d = (.error failure, d') :=
  Program.run_bind_of_error h

/-- Shaping the value that is returned changes nothing on the disk. -/
theorem onDisk_bind_ret_snd {α β : Type} (task : Task α) (f : α → β) :
    (onDisk (task.bind fun value => .ret (f value)) d).2 = (onDisk task d).2 := by
  rcases hrun : onDisk task d with ⟨result, d'⟩
  cases result with
  | ok value => rw [onDisk_bind_of_ok hrun]; rfl
  | error failure => rw [onDisk_bind_of_error hrun]

@[simp]
theorem onDisk_ret {α : Type} (value : α) : onDisk (.ret value : Task α) d = (.ok value, d) := rfl

@[simp]
theorem onDisk_raise {α : Type} (failure : ConfigFailure) :
    onDisk (.raise failure : Task α) d = (.error failure, d) := rfl

@[simp]
theorem onDisk_ofExcept {α : Type} (result : Except ConfigFailure α) :
    onDisk (Program.ofExcept result) d = (result, d) := Program.run_ofExcept result

@[simp]
theorem onDisk_readFile (path : Path) : onDisk (readFile path) d = (.ok (bytesAt d path), d) := rfl

@[simp]
theorem onDisk_readBackup (mutationId name : String) :
    onDisk (readBackup mutationId name) d = (.ok (backupAt d mutationId name), d) := rfl

theorem onDisk_loadRecord {mutationId : String} {record : MutationRecord}
    (h : recordAt d mutationId = some record) :
    onDisk (loadRecord mutationId) d = (.ok record, d) := by
  have hcontent : d.content (.record mutationId) = some record := h
  rw [onDisk, loadRecord, Disk.run_read, hcontent]
  rfl

/-- A write that succeeds. -/
theorem onDisk_atomicWrite_of_none {site : Site} {location : Location} {content : Content location}
    (h : d.faults site 0 = none) :
    onDisk (atomicWrite site location content) d =
      (.ok (), (d.passed site).put location (some content)) := by
  rw [onDisk, atomicWrite, Disk.run_write_of_none h]
  rfl

/-- A write that fails. -/
theorem onDisk_atomicWrite_of_some {site : Site} {location : Location} {content : Content location}
    {error : String} (h : d.faults site 0 = some error) :
    onDisk (atomicWrite site location content) d = (.error (.os error), d.passed site) := by
  rw [onDisk, atomicWrite, Disk.run_write_of_some h]
  rfl

theorem onDisk_restoreFile_of_none {site : Site} {path : Path} {original : Option ByteArray}
    (h : d.faults site 0 = none) :
    onDisk (restoreFile site path original) d =
      (.ok (), (d.passed site).put (.file path) original) := by
  cases original with
  | some bytes => exact onDisk_atomicWrite_of_none h
  | none =>
      rw [onDisk, restoreFile, unlinkFile, Disk.run_unlink_of_none h]
      rfl

/-! ## Project files -/

@[simp]
theorem bytesAt_passed (site : Site) (path : Path) : bytesAt (d.passed site) path =
    bytesAt d path :=
  rfl

theorem bytesAt_put (location path : Path) (content : Option ByteArray) :
    bytesAt (d.put (.file location) content) path =
      Function.update (bytesAt d) location content path := by
  by_cases h : path = location
  · rw [h, Function.update_self]
    exact Disk.put_content_self
  · rw [Function.update_of_ne h]
    exact Disk.put_content_of_ne fun heq => h (by injection heq)

theorem recordAt_put (mutationId : String) (saved : Option MutationRecord) :
    recordAt (d.put (.record mutationId) saved) =
      Function.update (recordAt d) mutationId saved := by
  funext other
  by_cases hother : other = mutationId
  · rw [hother, Function.update_self]
    exact Disk.put_content_self
  · rw [Function.update_of_ne hother]
    exact Disk.put_content_of_ne fun heq => hother (by injection heq)

/-- The path a file of a record resolves to. -/
def FileRecord.target (W : Workspace Document Documents) (file : FileRecord) : Path :=
  W.locate file.relativePath

/-- Its path lies within the project root. -/
def FileRecord.Inside (W : Workspace Document Documents) (file : FileRecord) : Prop :=
  W.root.isPrefixOf (file.target W) = true

instance (file : FileRecord) : Decidable (file.Inside W) :=
  inferInstanceAs (Decidable (_ = true))

theorem resolveWithinRoot_of_inside {file : FileRecord} (h : file.Inside W) :
    resolveWithinRoot W file.relativePath = .ok (file.target W) := if_pos h

theorem resolveWithinRoot_of_not_inside {file : FileRecord} (h : ¬ file.Inside W) :
    ∃ failure, resolveWithinRoot W file.relativePath = .error failure := ⟨_, if_neg h⟩

/-! ## The check -/

section Check

variable {expected : FileRecord → Option String} {code reason : String}

/-- Every file of the list is as the hashes say. -/
def AsExpected (W : Workspace Document Documents) (expected : FileRecord → Option String)
    (d : AgentDisk) (files : List FileRecord) : Prop :=
  ∀ file ∈ files, file.Inside W ∧ (bytesAt d (file.target W)).map W.sha256 = expected file

/-- The check passes or fails, and changes nothing. -/
theorem onDisk_checkUnchanged (files : List FileRecord) :
    (AsExpected W expected d files ∧
        onDisk (checkUnchanged W expected code reason files) d = (.ok (), d)) ∨
      (¬ AsExpected W expected d files ∧
        ∃ failure, onDisk (checkUnchanged W expected code reason files) d =
            (.error failure, d)) := by
  induction files with
  | nil =>
      refine .inl ⟨fun file hfile => ?_, rfl⟩
      cases hfile
  | cons file files ih =>
      by_cases hinside : file.Inside W
      · have hstep : onDisk (checkUnchanged W expected code reason (file :: files)) d =
            onDisk (if (bytesAt d (file.target W)).map W.sha256 = expected file then
              checkUnchanged W expected code reason files
              else .raise (configError code
                ("'" ++ toString file.relativePath ++ "' " ++ toString reason) 409
                [[("file", .str file.relativePath)]])) d := by
          rw [checkUnchanged, resolveWithinRoot_of_inside hinside]
          rfl
        by_cases hhash : (bytesAt d (file.target W)).map W.sha256 = expected file
        · rw [hstep, if_pos hhash]
          rcases ih with ⟨hall, hrun⟩ | ⟨hnot, hrun⟩
          · exact .inl ⟨List.forall_mem_cons.mpr ⟨⟨hinside, hhash⟩, hall⟩, hrun⟩
          · exact .inr ⟨fun hall => hnot (List.forall_mem_cons.mp hall).2, hrun⟩
        · rw [hstep, if_neg hhash]
          exact .inr ⟨fun hall => hhash (hall file List.mem_cons_self).2, _, rfl⟩
      · obtain ⟨failure, hresolve⟩ := resolveWithinRoot_of_not_inside hinside
        refine .inr ⟨fun hall => hinside (hall file List.mem_cons_self).1, failure, ?_⟩
        rw [checkUnchanged, hresolve]
        rfl

end Check

theorem onDisk_checkUnchangedSincePlan (files : List FileRecord) :
    (AsExpected W (fun file => file.beforeHash) d files ∧
        onDisk (checkUnchangedSincePlan W files) d = (.ok (), d)) ∨
      (¬ AsExpected W (fun file => file.beforeHash) d files ∧
        ∃ failure, onDisk (checkUnchangedSincePlan W files) d = (.error failure, d)) :=
  onDisk_checkUnchanged files

theorem onDisk_checkUnchangedSinceApply (files : List FileRecord) :
    (AsExpected W (fun file => file.afterHash) d files ∧
        onDisk (checkUnchangedSinceApply W files) d = (.ok (), d)) ∨
      (¬ AsExpected W (fun file => file.afterHash) d files ∧
        ∃ failure, onDisk (checkUnchangedSinceApply W files) d = (.error failure, d)) :=
  onDisk_checkUnchanged files

/-! ## The backups -/

/-- A file of the record with its target and the bytes it has now. -/
def prepare (W : Workspace Document Documents) (d : AgentDisk) (file : FileRecord) : Prepared :=
  ⟨file, file.target W, bytesAt d (file.target W)⟩

/-- The files of the list that exist. -/
def existing (W : Workspace Document Documents) (d : AgentDisk) (files : List FileRecord) :
    List FileRecord :=
  files.filter fun file => (bytesAt d (file.target W)).isSome

/-- None of the next `count` writes at a site fails. -/
def Clear (d : AgentDisk) (site : Site) (count : ℕ) : Prop := ∀ n < count, d.faults site n = none

theorem clear_succ {site : Site} {count : ℕ} :
    Clear d site (count + 1) ↔ d.faults site 0 = none ∧ Clear (d.passed site) site count := by
  refine ⟨fun h => ⟨h 0 (Nat.succ_pos _), fun n hn => ?_⟩, fun h n hn => ?_⟩
  · rw [Disk.passed_faults_self]
    exact h (n + 1) (Nat.succ_lt_succ hn)
  · cases n with
    | zero => exact h.1
    | succ n =>
        have hnext := h.2 n (Nat.lt_of_succ_lt_succ hn)
        rwa [Disk.passed_faults_self] at hnext

theorem clear_put {site : Site} {count : ℕ} {location : Location}
    {content : Option (Content location)} :
    Clear (d.put location content) site count ↔ Clear d site count := Iff.rfl

theorem uses_backUp (mutationId : String) (files : List FileRecord) :
    (backUp W mutationId files).Uses
      (FileOp.Within (· = .backup) fun place => ∃ name, place = .backup mutationId name) := by
  induction files with
  | nil => exact trivial
  | cons file files ih =>
      refine (Program.uses_ofExcept _).bind fun target => ⟨trivial, fun original => ?_⟩
      cases original with
      | none => exact ih.bind fun _ => trivial
      | some bytes =>
          refine ⟨⟨rfl, _, rfl⟩, fun answer => ?_⟩
          match answer with
          | none => exact ih.bind fun _ => trivial
          | some error => exact trivial

/-- The backups leave every project file as it is. -/
theorem bytesAt_backUp (mutationId : String) (files : List FileRecord) :
    bytesAt (onDisk (backUp W mutationId files) d).2 = bytesAt d := by
  funext path
  refine Disk.run_content_of_uses (uses_backUp mutationId files) ?_
  rintro ⟨name, hname⟩
  cases hname

theorem recordAt_backUp (mutationId : String) (files : List FileRecord) :
    recordAt (onDisk (backUp W mutationId files) d).2 = recordAt d := by
  funext other
  refine Disk.run_content_of_uses (uses_backUp mutationId files) ?_
  rintro ⟨name, hname⟩
  cases hname

theorem faults_backUp (mutationId : String) (files : List FileRecord) (site : Site)
    (hsite : site ≠ .backup) :
    (onDisk (backUp W mutationId files) d).2.faults site = d.faults site :=
  Disk.run_faults_of_uses (uses_backUp mutationId files) hsite

/-- However far the loop gets, a new backup holds the bytes of a file with its name. -/
theorem backup_of_backUp (mutationId : String) (files : List FileRecord) {name : String}
    {bytes : ByteArray}
    (h : backupAt (onDisk (backUp W mutationId files) d).2 mutationId name = some bytes) :
    backupAt d mutationId name = some bytes ∨
      ∃ file ∈ files, safeBackupName file.relativePath = name ∧
        bytesAt d (file.target W) = some bytes := by
  induction files generalizing d with
  | nil => exact .inl h
  | cons file files ih =>
      by_cases hinside : file.Inside W
      case neg =>
        obtain ⟨failure, hresolve⟩ := resolveWithinRoot_of_not_inside hinside
        rw [backUp, hresolve] at h
        exact .inl h
      rw [backUp, resolveWithinRoot_of_inside hinside] at h
      simp only [Program.bind_eq, Program.ofExcept, Program.bind] at h
      rw [onDisk_bind_of_ok (onDisk_readFile _)] at h
      cases horiginal : bytesAt d (file.target W) with
      | none =>
          simp only [horiginal, Program.pure_eq_ret] at h
          rw [onDisk_bind_ret_snd] at h
          rcases ih h with hold | ⟨other, hother, hname, hbytes⟩
          · exact .inl hold
          · exact .inr ⟨other, List.mem_cons_of_mem file hother, hname, hbytes⟩
      | some original =>
          simp only [horiginal, Program.pure_eq_ret] at h
          cases hfault : d.faults .backup 0 with
          | some error =>
              rw [onDisk_bind_of_error (onDisk_atomicWrite_of_some hfault)] at h
              exact .inl h
          | none =>
              rw [onDisk_bind_of_ok (onDisk_atomicWrite_of_none hfault), onDisk_bind_ret_snd] at h
              rcases ih h with hold | ⟨other, hother, hname, hbytes⟩
              · by_cases hsame : safeBackupName file.relativePath = name
                · have hwritten : backupAt ((d.passed .backup).put
                      (.backup mutationId (safeBackupName file.relativePath)) (some original))
                      mutationId (safeBackupName file.relativePath) = some original :=
                    Disk.put_content_self
                  rw [← hsame, hwritten] at hold
                  exact .inr ⟨file, List.mem_cons_self, hsame, horiginal.trans hold⟩
                · have hkept : backupAt ((d.passed .backup).put
                      (.backup mutationId (safeBackupName file.relativePath)) (some original))
                      mutationId name = backupAt d mutationId name :=
                    Disk.put_content_of_ne fun heq =>
                        hsame (by injection heq with _ h; exact h.symm)
                  exact .inl (hkept.symm.trans hold)
              · exact .inr ⟨other, List.mem_cons_of_mem file hother, hname,
                  (Disk.put_content_of_ne (by simp)).symm.trans hbytes⟩

/-- The bytes of the last existing file with a backup name, where one has it. -/
def lastBackup (W : Workspace Document Documents) (content : Path → Option ByteArray)
    (name : String) :
    List FileRecord → Option ByteArray
  | [] => none
  | file :: files =>
      (lastBackup W content name files).or
        (if safeBackupName file.relativePath = name then content (file.target W) else none)

/-- The loop backs every existing file up, or one of its writes fails. A backup holds
what the last file with its name had. -/
theorem onDisk_backUp (mutationId : String) {files : List FileRecord}
    (hinside : ∀ file ∈ files, file.Inside W) :
    (Clear d .backup (existing W d files).length ∧ ∃ d',
        onDisk (backUp W mutationId files) d = (.ok (files.map (prepare W d)), d') ∧
          ∀ name, backupAt d' mutationId name =
            (lastBackup W (bytesAt d) name files).or (backupAt d mutationId name)) ∨
      (¬ Clear d .backup (existing W d files).length ∧ ∃ failure d',
        onDisk (backUp W mutationId files) d = (.error failure, d')) := by
  induction files generalizing d with
  | nil => exact .inl ⟨fun n hn => absurd hn (Nat.not_lt_zero n), d, rfl, fun name => rfl⟩
  | cons file files ih =>
      obtain ⟨hfile, hfiles⟩ := List.forall_mem_cons.mp hinside
      cases horiginal : bytesAt d (file.target W) with
      | none =>
          have hexisting : existing W d (file :: files) = existing W d files := by
            simp [existing, horiginal]
          have hstep : onDisk (backUp W mutationId (file :: files)) d =
              onDisk ((backUp W mutationId files).bind fun prepared =>
                .ret (prepare W d file :: prepared)) d := by
            rw [backUp, resolveWithinRoot_of_inside hfile, prepare, horiginal]
            have hcontent : d.content (.file (file.target W)) = none := horiginal
            simp only [Program.bind_eq, Program.ofExcept, Program.bind, readFile]
            rw [onDisk, Disk.run_read, hcontent]
            rfl
          rw [hexisting, hstep]
          rcases ih hfiles with ⟨hclear, d', hrun, hbackups⟩ | ⟨hfault, failure, d', hrun⟩
          · refine .inl ⟨hclear, d', ?_, fun name => ?_⟩
            · rw [onDisk_bind_of_ok hrun]
              rfl
            · rw [hbackups, lastBackup, horiginal]
              simp
          · exact .inr ⟨hfault, failure, d', onDisk_bind_of_error hrun⟩
      | some bytes =>
          have hexisting : (existing W d (file :: files)).length =
              (existing W d files).length + 1 := by
            simp [existing, horiginal]
          have hcontent : d.content (.file (file.target W)) = some bytes := horiginal
          rw [hexisting, clear_succ]
          have hstep : onDisk (backUp W mutationId (file :: files)) d =
              onDisk ((atomicWrite .backup
                (.backup mutationId (safeBackupName file.relativePath)) bytes).bind fun _ =>
                (backUp W mutationId files).bind fun prepared =>
                  .ret (prepare W d file :: prepared)) d := by
            rw [backUp, resolveWithinRoot_of_inside hfile, prepare, horiginal]
            simp only [Program.bind_eq, Program.ofExcept, Program.bind, readFile]
            rw [onDisk, Disk.run_read, hcontent]
            rfl
          cases hfault : d.faults .backup 0 with
          | some error =>
              refine .inr ⟨by simp, .os error, d.passed .backup, ?_⟩
              rw [hstep]
              exact onDisk_bind_of_error (onDisk_atomicWrite_of_some hfault)
          | none =>
              -- The backup of this file is on the disk the rest of the loop starts from.
              have hsame : bytesAt ((d.passed .backup).put
                  (.backup mutationId (safeBackupName file.relativePath)) (some bytes)) =
                  bytesAt d := by
                funext path
                exact Disk.put_content_of_ne (by simp)
              have hprepare : prepare W ((d.passed .backup).put
                  (.backup mutationId (safeBackupName file.relativePath)) (some bytes)) =
                  prepare W d := by
                funext other
                rw [prepare, prepare, hsame]
              have hlength : existing W ((d.passed .backup).put
                  (.backup mutationId (safeBackupName file.relativePath)) (some bytes)) files =
                  existing W d files := by
                rw [existing, existing, hsame]
              rw [hstep, onDisk_bind_of_ok (onDisk_atomicWrite_of_none hfault)]
              have hrest := ih (d := (d.passed .backup).put
                (.backup mutationId (safeBackupName file.relativePath)) (some bytes)) hfiles
              rw [hlength, hprepare, hsame, clear_put] at hrest
              rcases hrest with ⟨hclear, d', hrun, hbackups⟩ | ⟨hbad, failure, d', hrun⟩
              · refine .inl ⟨⟨rfl, hclear⟩, d', ?_, fun name => ?_⟩
                · rw [onDisk_bind_of_ok hrun]
                  rfl
                · rw [hbackups, lastBackup, horiginal]
                  by_cases hname : safeBackupName file.relativePath = name
                  · subst hname
                    simp [backupAt]
                  · have hother : backupAt ((d.passed .backup).put
                        (.backup mutationId (safeBackupName file.relativePath)) (some bytes))
                        mutationId name = backupAt d mutationId name :=
                      Disk.put_content_of_ne fun heq =>
                          hname (by injection heq with _ h; exact h.symm)
                    simp [hname, hother]
              · exact .inr ⟨fun h => hbad h.2, failure, d', onDisk_bind_of_error hrun⟩

/-! ## Writing the targets -/

/-- The rendered file parses again. -/
def FileRecord.Valid (W : Workspace Document Documents) (file : FileRecord) : Prop :=
  ∃ value, validateRenderedFile W file.kind file.rendered = .ok value

/-- A file as the record keeps it once it is written. -/
def FileRecord.hashed (W : Workspace Document Documents) (file : FileRecord) : FileRecord :=
  { file with afterHash := some (W.sha256 file.rendered) }

/-- The write of a prepared file. -/
def Prepared.update (prepared : Prepared) : Path × Option ByteArray :=
  (prepared.target, some prepared.file.rendered)

/-- What undoes it. -/
def Prepared.undo (prepared : Prepared) : Path × Option ByteArray :=
  (prepared.target, prepared.original)

theorem verifyWritten_of_valid {prepared : Prepared} (h : prepared.file.Valid W) :
    verifyWritten W prepared (some prepared.file.rendered) = .ok (prepared.file.hashed W) := by
  obtain ⟨value, hvalue⟩ := h
  rw [verifyWritten, if_pos rfl, hvalue]
  rfl

theorem verifyWritten_of_not_valid {prepared : Prepared} (h : ¬ prepared.file.Valid W) :
    ∃ failure, verifyWritten W prepared (some prepared.file.rendered) = .error failure := by
  cases hvalue : validateRenderedFile W prepared.file.kind prepared.file.rendered with
  | ok value => exact (h ⟨value, hvalue⟩).elim
  | error failure =>
      refine ⟨failure, ?_⟩
      rw [verifyWritten, if_pos rfl, hvalue]

theorem uses_writeTargets (prepared : List Prepared) (done : List (Path × Option ByteArray)) :
    (writeTargets W prepared done).Uses
      (FileOp.Within (· = .target) fun place => ∃ path, place = .file path) := by
  induction prepared generalizing done with
  | nil => exact trivial
  | cons first rest ih =>
      refine ⟨⟨rfl, _, rfl⟩, fun answer => ?_⟩
      cases answer with
      | some error => exact trivial
      | none =>
          refine ⟨trivial, fun live => ?_⟩
          simp only [Program.bind]
          cases verifyWritten W first live with
          | error failure => exact trivial
          | ok file => exact (ih _).bind fun _ => trivial

/-- All targets are written, or the loop stops and says which are. -/
theorem onDisk_writeTargets (prepared : List Prepared) (done : List (Path × Option ByteArray)) :
    ((Clear d .target prepared.length ∧ ∀ entry ∈ prepared, entry.file.Valid W) ∧ ∃ d',
        onDisk (writeTargets W prepared done) d =
          (.ok (done ++ prepared.map Prepared.undo,
            .ok (prepared.map fun entry => entry.file.hashed W)), d') ∧
          bytesAt d' = updateAll (bytesAt d) (prepared.map Prepared.update)) ∨
      (¬ (Clear d .target prepared.length ∧ ∀ entry ∈ prepared, entry.file.Valid W) ∧
        ∃ begun rest failure d', prepared = begun ++ rest ∧
          onDisk (writeTargets W prepared done) d =
            (.ok (done ++ begun.map Prepared.undo, .error failure), d') ∧
          bytesAt d' = updateAll (bytesAt d) (begun.map Prepared.update)) := by
  induction prepared generalizing d done with
  | nil =>
      refine .inl ⟨⟨fun n hn => absurd hn (Nat.not_lt_zero n), fun entry hentry => ?_⟩, d, ?_, rfl⟩
      · cases hentry
      · simp [writeTargets]
  | cons first rest ih =>
      cases hfault : d.faults .target 0 with
      | some error =>
          refine .inr ⟨fun h => ?_, [], first :: rest, .os error, d.passed .target, rfl, ?_, rfl⟩
          · have hclear := (clear_succ.mp h.1).1
            rw [hfault] at hclear
            cases hclear
          · rw [onDisk, writeTargets, Disk.run_write_of_some hfault]
            simp
      | none =>
          -- The first target is written, read back and verified.
          obtain ⟨d₁, hd₁⟩ : ∃ d₁, d₁ = (d.passed .target).put (.file first.target)
            (some first.file.rendered) := ⟨_, rfl⟩
          have hbytes : bytesAt d₁ = updateAll (bytesAt d) [first.update] := by
            funext path
            rw [hd₁, bytesAt_put]
            rfl
          have hclear : Clear d .target (first :: rest).length ↔ Clear d₁ .target rest.length := by
            rw [List.length_cons, clear_succ, hd₁, clear_put]
            exact and_iff_right hfault
          have hlive : d₁.content (.file first.target) = some first.file.rendered := by
            change bytesAt d₁ first.target = _
            rw [hbytes]
            exact Function.update_self _ _ _
          by_cases hvalid : first.file.Valid W
          · have hstep : onDisk (writeTargets W (first :: rest) done) d =
                onDisk ((writeTargets W rest (done ++ [first.undo])).bind fun result =>
                  .ret (result.1, result.2.map fun files => first.file.hashed W :: files)) d₁ := by
              rw [onDisk, writeTargets, Disk.run_write_of_none hfault, ← hd₁]
              simp only [readFile, Program.bind]
              rw [Disk.run_read, hlive, verifyWritten_of_valid hvalid]
              rfl
            rw [hstep]
            have hmem : (∀ entry ∈ first :: rest, entry.file.Valid W) ↔
                ∀ entry ∈ rest, entry.file.Valid W := by
              rw [List.forall_mem_cons]
              exact and_iff_right hvalid
            rw [hclear, hmem]
            rcases ih (d := d₁) (done ++ [first.undo]) with
              ⟨hall, d', hrun, hd'⟩ | ⟨hnot, begun, rest', failure, d', rfl, hrun, hd'⟩
            · refine .inl ⟨hall, d', ?_, ?_⟩
              · rw [onDisk_bind_of_ok hrun]
                simp [Except.map]
              · rw [hd', hbytes]
                rfl
            · refine .inr ⟨hnot, first :: begun, rest', failure, d', rfl, ?_, ?_⟩
              · rw [onDisk_bind_of_ok hrun]
                simp [Except.map]
              · rw [hd', hbytes]
                rfl
          · obtain ⟨failure, hfailure⟩ := verifyWritten_of_not_valid hvalid
            refine .inr ⟨fun h => hvalid (h.2 first List.mem_cons_self), [first], rest, failure, d₁,
              rfl, ?_, hbytes⟩
            rw [onDisk, writeTargets, Disk.run_write_of_none hfault, ← hd₁]
            simp only [readFile, Program.bind]
            rw [Disk.run_read, hlive, hfailure]
            rfl

/-! ## Restoring -/

theorem uses_restoreAll (site : Site) (entries : List (Path × Option ByteArray)) :
    (restoreAll site entries).Uses
      (FileOp.Within (· = site) fun place => ∃ path, place = .file path) := by
  induction entries with
  | nil => exact trivial
  | cons entry entries ih =>
      obtain ⟨target, original⟩ := entry
      refine Program.Uses.bind ?_ fun _ => ih
      cases original <;>
        exact ⟨⟨rfl, _, rfl⟩, fun answer => by cases answer <;> exact trivial⟩

/-- Restoring that does not fail writes all contents back. -/
theorem onDisk_restoreAll {site : Site} {entries : List (Path × Option ByteArray)}
    (hclear : Clear d site entries.length) :
    ∃ d', onDisk (restoreAll site entries) d = (.ok (), d') ∧
      bytesAt d' = updateAll (bytesAt d) entries := by
  induction entries generalizing d with
  | nil => exact ⟨d, rfl, rfl⟩
  | cons entry entries ih =>
      obtain ⟨target, original⟩ := entry
      obtain ⟨hfirst, hrest⟩ := clear_succ.mp hclear
      obtain ⟨d', hrun, hd'⟩ := ih (d := (d.passed site).put (.file target) original)
        (clear_put.mpr hrest)
      refine ⟨d', ?_, ?_⟩
      · rw [restoreAll, Program.bind_eq, onDisk_bind_of_ok (onDisk_restoreFile_of_none hfirst),
            hrun]
      · rw [hd', updateAll_cons]
        congr 1
        funext path
        rw [bytesAt_put]
        rfl

/-- What a rollback writes to a file: its backup, or nothing where there is none. -/
def FileRecord.fromBackup (W : Workspace Document Documents) (d : AgentDisk) (mutationId : String)
    (file : FileRecord) : Path × Option ByteArray :=
  (file.target W, backupAt d mutationId (safeBackupName file.relativePath))

/-- The restoring loop of a rollback is that of its backups. -/
theorem onDisk_restoreFromBackups (mutationId : String) {files : List FileRecord}
    (hinside : ∀ file ∈ files, file.Inside W) (hclear : Clear d .rollback files.length) :
    ∃ d', onDisk (restoreFromBackups W mutationId files) d = (.ok (), d') ∧
      bytesAt d' = updateAll (bytesAt d) (files.map (FileRecord.fromBackup W d mutationId)) := by
  induction files generalizing d with
  | nil => exact ⟨d, rfl, rfl⟩
  | cons file files ih =>
      obtain ⟨hfile, hfiles⟩ := List.forall_mem_cons.mp hinside
      obtain ⟨hfirst, hrest⟩ := clear_succ.mp hclear
      obtain ⟨d₁, hd₁⟩ : ∃ d₁, d₁ = (d.passed .rollback).put (.file (file.target W))
        (backupAt d mutationId (safeBackupName file.relativePath)) := ⟨_, rfl⟩
      have hbackups : FileRecord.fromBackup W d₁ mutationId =
          FileRecord.fromBackup W d mutationId := by
        funext other
        have hsame : ∀ name, backupAt d₁ mutationId name = backupAt d mutationId name := by
          intro name
          rw [hd₁]
          exact Disk.put_content_of_ne (by simp)
        rw [FileRecord.fromBackup, FileRecord.fromBackup, hsame]
      obtain ⟨d', hrun, hd'⟩ := ih (d := d₁) hfiles (by rw [hd₁, clear_put]; exact hrest)
      refine ⟨d', ?_, ?_⟩
      · rw [restoreFromBackups, resolveWithinRoot_of_inside hfile]
        simp only [Program.bind_eq, Program.ofExcept, Program.bind]
        rw [onDisk_bind_of_ok (onDisk_readBackup _ _),
          onDisk_bind_of_ok (onDisk_restoreFile_of_none hfirst), ← hd₁, hrun]
      · rw [hd', hbackups, List.map_cons, updateAll_cons]
        congr 1
        funext path
        rw [hd₁, bytesAt_put]
        rfl

/-! ## Applying as a whole -/

/-- The write of a file of the record. -/
def FileRecord.update (W : Workspace Document Documents) (file : FileRecord) :
    Path × Option ByteArray :=
  (file.target W, some file.rendered)

/-- The project files once every file of the record is written. -/
def afterApply (W : Workspace Document Documents) (d : AgentDisk) (files : List FileRecord) :
    Path → Option ByteArray :=
  updateAll (bytesAt d) (files.map (FileRecord.update W))

/-- The record of an applied mutation. -/
def MutationRecord.applied (W : Workspace Document Documents) (record : MutationRecord)
    (now : String) : MutationRecord :=
  { record with
    status := .applied
    files := record.files.map (FileRecord.hashed W)
    appliedAt := some now }

/-- Every file is as it was planned, and no backup, target or validation fails. -/
structure Reaches (W : Workspace Document Documents) (d : AgentDisk) (files : List FileRecord) :
    Prop where
  unchanged : AsExpected W (fun file => file.beforeHash) d files
  backups : Clear d .backup (existing W d files).length
  targets : Clear d .target files.length
  valid : ∀ file ∈ files, file.Valid W

/-- Undoing the targets begun so far brings every file back. -/
theorem updateAll_undo {files : List FileRecord} {begun rest : List Prepared}
    (hprepared : files.map (prepare W d) = begun ++ rest) :
    updateAll (updateAll (bytesAt d) (begun.map Prepared.update)) (begun.map Prepared.undo) =
      bytesAt d := by
  have hbegun : ∀ entry ∈ begun, entry.original = bytesAt d entry.target := by
    intro entry hentry
    have hmem : entry ∈ files.map (prepare W d) := by
      rw [hprepared]
      exact List.mem_append_left rest hentry
    obtain ⟨file, -, rfl⟩ := List.mem_map.mp hmem
    rfl
  refine updateAll_restore ?_ ?_
  · intro entry hentry
    obtain ⟨prepared, hmem, rfl⟩ := List.mem_map.mp hentry
    exact hbegun prepared hmem
  · intro entry hentry
    obtain ⟨prepared, hmem, rfl⟩ := List.mem_map.mp hentry
    rw [List.map_map]
    exact List.mem_map_of_mem hmem

/-- `apply_mutation` stops without a trace, fails to save its record after it has
written every target, or leaves every target written and the record saved. -/
theorem onDisk_applyMutation {mutationId : String} (now : String) {record : MutationRecord}
    (hrecord : recordAt d mutationId = some record) (hstatus : record.status ≠ .applied)
    (hrestore : ∀ n, d.faults .restore n = none) :
    (¬ Reaches W d record.files ∧ ∃ failure d',
        onDisk (applyMutation W mutationId now) d = (.error failure, d') ∧
          bytesAt d' = bytesAt d ∧ recordAt d' = recordAt d ∧
          ∀ name bytes, backupAt d' mutationId name = some bytes →
            backupAt d mutationId name = some bytes ∨
              ∃ file ∈ record.files, safeBackupName file.relativePath = name ∧
                file.beforeHash = some (W.sha256 bytes)) ∨
      (Reaches W d record.files ∧ d.faults .record 0 ≠ none ∧ ∃ failure d',
        onDisk (applyMutation W mutationId now) d = (.error failure, d') ∧
          bytesAt d' = afterApply W d record.files) ∨
      (Reaches W d record.files ∧ d.faults .record 0 = none ∧ ∃ d',
        onDisk (applyMutation W mutationId now) d = (.ok (record.applied W now), d') ∧
          bytesAt d' = afterApply W d record.files ∧
          recordAt d' = Function.update (recordAt d) record.mutationId
              (some (record.applied W now)) ∧
          ∀ name, backupAt d' mutationId name =
            (lastBackup W (bytesAt d) name record.files).or (backupAt d mutationId name)) := by
  rw [applyMutation, Program.bind_eq, onDisk_bind_of_ok (onDisk_loadRecord hrecord),
    if_neg hstatus, Program.bind_eq]
  rcases onDisk_checkUnchangedSincePlan (W := W) (d := d) record.files with
    ⟨hcheck, hrun⟩ | ⟨hcheck, failure, hrun⟩
  case inr =>
    exact .inl ⟨fun h => hcheck h.unchanged, failure, d, onDisk_bind_of_error hrun, rfl, rfl,
      fun _ _ => .inl⟩
  rw [onDisk_bind_of_ok hrun, Program.bind_eq]
  have hbytes := bytesAt_backUp (W := W) (d := d) mutationId record.files
  have hrecords := recordAt_backUp (W := W) (d := d) mutationId record.files
  have hfaults := fun site => faults_backUp (W := W) (d := d) mutationId record.files site
  have hnew : ∀ name bytes, backupAt (onDisk (backUp W mutationId record.files) d).2
      mutationId name =
      some bytes → backupAt d mutationId name = some bytes ∨
        ∃ file ∈ record.files, safeBackupName file.relativePath = name ∧
          file.beforeHash = some (W.sha256 bytes) := by
    intro name bytes hbackup
    rcases backup_of_backUp mutationId record.files hbackup with hold | ⟨file, hfile, hname, hlive⟩
    · exact .inl hold
    · refine .inr ⟨file, hfile, hname, ?_⟩
      have hhash : (bytesAt d (file.target W)).map W.sha256 = file.beforeHash :=
          (hcheck file hfile).2
      rw [← hhash, hlive, Option.map_some]
  rcases onDisk_backUp (d := d) mutationId fun file hfile => (hcheck file hfile).1 with
    ⟨hclear, d₁, hrun₁, hbackups⟩ | ⟨hclear, failure, d₁, hrun₁⟩
  case inr =>
    rw [hrun₁] at hbytes hrecords hnew
    exact .inl ⟨fun h => hclear h.backups, failure, d₁, onDisk_bind_of_error hrun₁, hbytes,
        hrecords,
      hnew⟩
  rw [hrun₁] at hbytes hrecords hfaults hnew
  rw [onDisk_bind_of_ok hrun₁, Program.bind_eq]
  -- The loop over the targets starts from the same files and the same failures to come.
  have hreaches : Reaches W d record.files ↔
      Clear d₁ .target (record.files.map (prepare W d)).length ∧
      ∀ entry ∈ record.files.map (prepare W d), entry.file.Valid W := by
    rw [List.length_map, Clear, hfaults .target (by decide), List.forall_mem_map]
    exact ⟨fun h => ⟨h.targets, h.valid⟩, fun h => ⟨hcheck, hclear, h.1, h.2⟩⟩
  have huses := uses_writeTargets (W := W) (record.files.map (prepare W d)) []
  have hrecords' : recordAt (onDisk (writeTargets W (record.files.map (prepare W d)) []) d₁).2 =
      recordAt d₁ := by
    funext other
    exact Disk.run_content_of_uses huses (by rintro ⟨path, hpath⟩; cases hpath)
  have hbackups' : ∀ name, backupAt (onDisk (writeTargets W (record.files.map (prepare W d))
      []) d₁).2
      mutationId name = backupAt d₁ mutationId name := by
    intro name
    exact Disk.run_content_of_uses huses (by rintro ⟨path, hpath⟩; cases hpath)
  have hfaults' : ∀ site, site ≠ .target →
      (onDisk (writeTargets W (record.files.map (prepare W d)) []) d₁).2.faults site =
        d₁.faults site :=
    fun site hsite => Disk.run_faults_of_uses huses hsite
  rcases onDisk_writeTargets (W := W) (d := d₁) (record.files.map (prepare W d)) [] with
    ⟨hall, d₂, hrun₂, hd₂⟩ | ⟨hnot, begun, rest, failure, d₂, hprepared, hrun₂, hd₂⟩
  · -- Every target is written; the record is next.
    rw [hrun₂] at hrecords' hbackups' hfaults'
    have hafter : bytesAt d₂ = afterApply W d record.files := by
      rw [hd₂, hbytes, afterApply, List.map_map]
      rfl
    have hfiles : (record.files.map (prepare W d)).map (fun entry => entry.file.hashed W) =
        record.files.map (FileRecord.hashed W) := by
      rw [List.map_map]
      rfl
    have hsave : d₂.faults .record 0 = d.faults .record 0 := by
      rw [hfaults' .record (by decide), hfaults .record (by decide)]
    rw [onDisk_bind_of_ok hrun₂, hfiles]
    change _ ∨ _ ∨ _
    cases hfault : d.faults .record 0 with
    | some error =>
        refine .inr (.inl ⟨hreaches.mpr hall, by simp, .os error, d₂.passed .record, ?_, hafter⟩)
        exact onDisk_bind_of_error (onDisk_atomicWrite_of_some (hsave.trans hfault))
    | none =>
        refine .inr (.inr ⟨hreaches.mpr hall, rfl, _, onDisk_bind_of_ok
          (onDisk_atomicWrite_of_none (hsave.trans hfault)), ?_, ?_, fun name => ?_⟩)
        · rw [← hafter]
          funext path
          exact Disk.put_content_of_ne (by simp)
        · rw [← hrecords, ← hrecords']
          exact recordAt_put _ _
        · rw [← hbackups, ← hbackups']
          exact Disk.put_content_of_ne (by simp)
  · -- The handler puts the targets written so far back.
    rw [hrun₂] at hrecords' hbackups' hfaults'
    have hclear₂ : Clear d₂ .restore (begun.map Prepared.undo).length := by
      intro n _
      rw [hfaults' .restore (by decide), hfaults .restore (by decide)]
      exact hrestore n
    obtain ⟨d₃, hrun₃, hd₃⟩ := onDisk_restoreAll hclear₂
    have hrecords₃ : recordAt d₃ = recordAt d₂ := by
      funext other
      have hkeep : recordAt (onDisk (restoreAll .restore (begun.map Prepared.undo)) d₂).2 other =
          recordAt d₂ other :=
        Disk.run_content_of_uses (uses_restoreAll .restore (begun.map Prepared.undo))
          (by rintro ⟨path, hpath⟩; cases hpath)
      rwa [hrun₃] at hkeep
    have hbackups₃ : ∀ name, backupAt d₃ mutationId name = backupAt d₂ mutationId name := by
      intro name
      have hkeep : backupAt (onDisk (restoreAll .restore (begun.map Prepared.undo)) d₂).2 mutationId
          name = backupAt d₂ mutationId name :=
        Disk.run_content_of_uses (uses_restoreAll .restore (begun.map Prepared.undo))
          (by rintro ⟨path, hpath⟩; cases hpath)
      rwa [hrun₃] at hkeep
    refine .inl ⟨fun h => hnot (hreaches.mp h), surfaced failure, d₃, ?_, ?_, ?_,
        fun name bytes h => ?_⟩
    · rw [onDisk_bind_of_ok hrun₂]
      exact onDisk_bind_of_ok hrun₃
    · rw [hd₃, hd₂, hbytes, updateAll_undo hprepared]
    · rw [hrecords₃, hrecords', hrecords]
    · rw [hbackups₃, hbackups'] at h
      exact hnew name bytes h

/-! ## Rolling back as a whole -/

/-- The record of a mutation that was rolled back. -/
def MutationRecord.rolledBack (record : MutationRecord) (now : String) : MutationRecord :=
  { record with status := .rolledBack, rolledBackAt := some now }

/-- The project files once every file of the record is restored. -/
def afterRollback (W : Workspace Document Documents) (d : AgentDisk) (mutationId : String)
    (files : List FileRecord) : Path → Option ByteArray :=
  updateAll (bytesAt d) (files.map (FileRecord.fromBackup W d mutationId))

theorem uses_restoreFromBackups (mutationId : String) (files : List FileRecord) :
    (restoreFromBackups W mutationId files).Uses
      (FileOp.Within (· = .rollback) fun place => ∃ path, place = .file path) := by
  induction files with
  | nil => exact trivial
  | cons file files ih =>
      refine (Program.uses_ofExcept _).bind fun target => ⟨trivial, fun original => ?_⟩
      change ((restoreFile .rollback target original).bind fun _ =>
        restoreFromBackups W mutationId files).Uses _
      refine Program.Uses.bind ?_ fun _ => ih
      cases original <;>
        exact ⟨⟨rfl, _, rfl⟩, fun answer => by cases answer <;> exact trivial⟩

/-- On a disk that does not fail, rolling an applied mutation back refuses, where a file
is not as it was applied, or restores every file from its backup. -/
theorem onDisk_rollbackMutation {mutationId : String} (now : String) {record : MutationRecord}
    (hrecord : recordAt d mutationId = some record) (hstatus : record.status = .applied)
    (hclear : ∀ n, d.faults .rollback n = none) (hsave : d.faults .record 0 = none) :
    (¬ AsExpected W (fun file => file.afterHash) d record.files ∧ ∃ failure,
        onDisk (rollbackMutation W mutationId now) d = (.error failure, d)) ∨
      (AsExpected W (fun file => file.afterHash) d record.files ∧ ∃ d',
        onDisk (rollbackMutation W mutationId now) d = (.ok (record.rolledBack now), d') ∧
          bytesAt d' = afterRollback W d mutationId record.files ∧
          recordAt d' =
            Function.update (recordAt d) record.mutationId (some (record.rolledBack now)) ∧
          ∀ other name, backupAt d' other name = backupAt d other name) := by
  rw [rollbackMutation, Program.bind_eq, onDisk_bind_of_ok (onDisk_loadRecord hrecord), hstatus]
  simp only [Program.bind_eq]
  rcases onDisk_checkUnchangedSinceApply (W := W) (d := d) record.files with
    ⟨hcheck, hrun⟩ | ⟨hcheck, failure, hrun⟩
  case inr => exact .inl ⟨hcheck, failure, onDisk_bind_of_error hrun⟩
  rw [onDisk_bind_of_ok hrun]
  have huses := uses_restoreFromBackups (W := W) mutationId record.files
  obtain ⟨d₁, hrun₁, hd₁⟩ := onDisk_restoreFromBackups (W := W) (d := d) mutationId
    (fun file hfile => (hcheck file hfile).1) (fun n _ => hclear n)
  have hplaces : ∀ place : Location, (∀ path, place ≠ .file path) →
      d₁.content place = d.content place := by
    intro place hplace
    have hkeep : (onDisk (restoreFromBackups W mutationId record.files) d).2.content place =
        d.content place :=
      Disk.run_content_of_uses huses (by rintro ⟨path, hpath⟩; exact hplace path hpath)
    rwa [hrun₁] at hkeep
  have hfault : d₁.faults .record 0 = none := by
    have hkeep : (onDisk (restoreFromBackups W mutationId record.files) d).2.faults .record =
        d.faults .record := Disk.run_faults_of_uses huses (by decide)
    rw [hrun₁] at hkeep
    rw [hkeep]
    exact hsave
  refine .inr ⟨hcheck, (d₁.passed .record).put (.record record.mutationId)
    (some (record.rolledBack now)), ?_, ?_, ?_, fun other name => ?_⟩
  · rw [onDisk_bind_of_ok hrun₁]
    exact onDisk_bind_of_ok (onDisk_atomicWrite_of_none hfault)
  · rw [afterRollback, ← hd₁]
    funext path
    exact Disk.put_content_of_ne (by simp)
  · funext other
    by_cases hother : other = record.mutationId
    · rw [hother, Function.update_self]
      exact Disk.put_content_self
    · rw [Function.update_of_ne hother]
      exact (Disk.put_content_of_ne fun heq => hother (by injection heq)).trans
        (hplaces _ fun path => by simp)
  · exact (Disk.put_content_of_ne (by simp)).trans (hplaces _ fun path => by simp)

end Agent
