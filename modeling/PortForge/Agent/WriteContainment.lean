/-
# Where a mutation writes

The targets of a mutation are resolved before they are written, links and all, and refused
outside the project. Its record and its backups are not: they go to a directory below the
project root that is taken as it is named, so they stay inside the project exactly if no
link leads that directory out of it.
-/

import PortForge.Agent.FilePermissions
import PortForge.Python.Links

namespace Agent

open Python Effects

variable {Document Documents : Type} {W : Workspace Document Documents} {d d' : AgentDisk}

/-! ## A project in a file tree -/

/-- A project root in a tree of directories and links. -/
structure LinkedProject (Document Documents : Type) where
  tree : FileTree
  /-- `project_root`. One that is given relatively starts with the working directory. -/
  path : PurePath
  root : Path
  /-- `project_root.resolve(strict=True)`. -/
  resolves : tree.resolve path = some root
  isDirectory : tree.node root = some .directory
  rootText : String
  sha256 : ByteArray → String
  editors : Editors Document Documents

namespace LinkedProject

variable (P : LinkedProject Document Documents)

/-- `(project_root / file).resolve(strict=False)`. Links that go round are an error, as a
path outside the root is; the directory above the root stands for them. -/
def locate (file : String) : Path :=
  (P.tree.resolve (P.path.join (PurePath.ofText file))).getD P.root.dropLast

def workspace : Workspace Document Documents where
  root := P.root
  rootText := P.rootText
  locate := P.locate
  sha256 := P.sha256
  editors := P.editors

/-- `MUTATIONS_DIR_NAME`. -/
def mutationsDirName : String := ".portforge"

/-- `_mutations_root`. -/
def mutationsRoot : PurePath := (P.path.child mutationsDirName).child "mutations"

/-- `_mutation_dir`. -/
def mutationDir (mutationId : String) : PurePath := P.mutationsRoot.join (PurePath.ofText mutationId)

/-- The path that a place is written under. -/
def pathOf : Location → PurePath
  | .file path => ⟨"/", path⟩
  | .record mutationId => (P.mutationDir mutationId).child "record.json"
  | .backup mutationId name => ((P.mutationDir mutationId).child "files").join (PurePath.ofText name)

/-- Every file that the task writes or deletes lies inside the resolved root, with all
links followed. -/
def StaysInside {α : Type} (task : Task α) (d : AgentDisk) : Prop :=
  ∀ location, task.Performs Disk.handle (FileOp.Changes location) d →
    ∀ place, P.tree.placeOf (P.pathOf location) = some place → P.root <+: place

/-- The directory of a record or a backup resolves to one inside the root, unless nothing
can be put there. -/
def HeldInside (location : Location) : Prop :=
  (P.tree.placeOf (P.pathOf location)).isSome →
    ∀ directory, P.tree.resolve (P.pathOf location).parent = some directory → P.root <+: directory

variable {P}

/-- A file lies inside the root if its directory does. -/
theorem heldInside_iff {location : Location} : P.HeldInside location ↔
    ∀ place, P.tree.placeOf (P.pathOf location) = some place → P.root <+: place := by
  constructor
  · intro h place hplace
    obtain ⟨name, directory, -, -, hresolve, rfl, -⟩ := FileTree.placeOf_eq_some_iff.mp hplace
    exact (h (by rw [hplace, Option.isSome_some]) directory hresolve).trans
      (List.prefix_append directory [name])
  · intro h hsome directory hresolve
    obtain ⟨place, hplace⟩ := Option.isSome_iff_exists.mp hsome
    obtain ⟨name, other, -, -, hother, rfl, hnode⟩ := FileTree.placeOf_eq_some_iff.mp hplace
    cases hresolve.symm.trans hother
    obtain hroot | hinside := List.prefix_concat_iff.mp (h _ hplace)
    · exact absurd (hroot ▸ P.isDirectory) hnode
    · exact hinside

/-- A target that is not refused is free of links. -/
theorem linkFree_of_inside {file : String}
    (h : P.root.isPrefixOf (P.locate file) = true) : P.tree.LinkFree (P.locate file) := by
  rw [List.isPrefixOf_iff_prefix] at h
  rw [locate] at h ⊢
  cases hresolve : P.tree.resolve (P.path.join (PurePath.ofText file)) with
  | some path => exact FileTree.linkFree_of_resolve hresolve
  | none =>
      rw [hresolve, Option.getD_none] at h
      have hlength := h.length_le
      rw [List.length_dropLast] at hlength
      have hroot : P.root = [] := List.eq_nil_of_length_eq_zero (by omega)
      rw [Option.getD_none, hroot]
      exact FileTree.linkFree_nil

end LinkedProject

/-! ## Targets are resolved -/

/-- A change of a project file is one of a target that was resolved and not refused. -/
abbrev ChangesTargets (W : Workspace Document Documents) : FileOp Site Location Content → Prop :=
  FileOp.Within (fun _ => True) fun place =>
    ∀ path, place = .file path → ∃ file, resolveWithinRoot W file = .ok path

theorem resolveWithinRoot_eq_ok {file : String} {path : Path}
    (h : resolveWithinRoot W file = .ok path) :
    W.root.isPrefixOf (W.locate file) = true ∧ W.locate file = path := by
  rw [resolveWithinRoot] at h
  split at h
  · next hinside => exact ⟨hinside, Except.ok.inj h⟩
  · cases h

theorem changesTargets_of_reads {α : Type} {task : Task α} (h : task.Uses ReadsOnly) :
    task.Uses (ChangesTargets W) :=
  h.mono (FileOp.Within.mono (fun _ _ => trivial) fun _ hplace => hplace.elim)

theorem changesTargets_saveRecord (site : Site) (record : MutationRecord) :
    (saveRecord site record).Uses (ChangesTargets W) :=
  ⟨⟨trivial, fun _ heq => by cases heq⟩,
    fun (answer : Option String) => by cases answer <;> exact trivial⟩

theorem changesTargets_restoreFile (site : Site) {target : Path} (original : Option ByteArray)
    (h : ∃ file, resolveWithinRoot W file = .ok target) :
    (restoreFile site target original).Uses (ChangesTargets W) := by
  have hplace : ∀ path, Location.file target = .file path →
      ∃ file, resolveWithinRoot W file = .ok path := by
    rintro path ⟨⟩
    exact h
  cases original <;>
    exact ⟨⟨trivial, hplace⟩, fun answer => by cases answer <;> exact trivial⟩

/-- The loop of the backups returns resolved targets. -/
theorem returns_backUp (mutationId : String) (files : List FileRecord) :
    (backUp W mutationId files).Returns fun prepared =>
      ∀ entry ∈ prepared, ∃ file, resolveWithinRoot W file = .ok entry.target := by
  induction files with
  | nil => exact fun entry hentry => by cases hentry
  | cons file files ih =>
      rw [backUp]
      cases htarget : resolveWithinRoot W file.relativePath with
      | error failure => exact trivial
      | ok target =>
          have hrest : ∀ original, ((backUp W mutationId files).bind fun prepared =>
              .ret (⟨file, target, original⟩ :: prepared)).Returns fun prepared =>
                ∀ entry ∈ prepared, ∃ file, resolveWithinRoot W file = .ok entry.target :=
            fun original => ih.bind_of fun prepared hprepared => List.forall_mem_cons.mpr
              ⟨⟨file.relativePath, htarget⟩, hprepared⟩
          intro original
          cases original with
          | none => exact hrest none
          | some bytes =>
              intro answer
              cases answer with
              | none => exact hrest (some bytes)
              | some error => exact trivial

section Loops

variable {prepared : List Prepared} {done : List (Path × Option ByteArray)}

theorem changesTargets_writeTargets
    (h : ∀ entry ∈ prepared, ∃ file, resolveWithinRoot W file = .ok entry.target) :
    (writeTargets W prepared done).Uses (ChangesTargets W) := by
  induction prepared generalizing done with
  | nil => exact trivial
  | cons first rest ih =>
      obtain ⟨hfirst, hrest⟩ := List.forall_mem_cons.mp h
      refine ⟨⟨trivial, ?_⟩, fun answer => ?_⟩
      · rintro path ⟨⟩
        exact hfirst
      · cases answer with
        | some error => exact trivial
        | none =>
            refine ⟨trivial, fun live => ?_⟩
            simp only [Program.bind]
            cases verifyWritten W first live with
            | error failure => exact trivial
            | ok file => exact (ih hrest).bind fun _ => trivial

/-- The loop over the targets returns the targets it was given. -/
theorem returns_writeTargets
    (h : ∀ entry ∈ prepared, ∃ file, resolveWithinRoot W file = .ok entry.target)
    (hdone : ∀ entry ∈ done, ∃ file, resolveWithinRoot W file = .ok entry.1) :
    (writeTargets W prepared done).Returns fun result =>
      ∀ entry ∈ result.1, ∃ file, resolveWithinRoot W file = .ok entry.1 := by
  induction prepared generalizing done with
  | nil => exact hdone
  | cons first rest ih =>
      obtain ⟨hfirst, hrest⟩ := List.forall_mem_cons.mp h
      have hnext : ∀ entry ∈ done ++ [(first.target, first.original)],
          ∃ file, resolveWithinRoot W file = .ok entry.1 := by
        intro entry hentry
        obtain hold | hnew := List.mem_append.mp hentry
        · exact hdone entry hold
        · cases List.mem_singleton.mp hnew
          exact hfirst
      intro answer
      cases answer with
      | some error => exact hdone
      | none =>
          intro live
          simp only [Program.bind]
          cases verifyWritten W first live with
          | error failure => exact hnext
          | ok file => exact (ih hrest hnext).bind_of fun _ => id

theorem changesTargets_restoreAll {site : Site} {entries : List (Path × Option ByteArray)}
    (h : ∀ entry ∈ entries, ∃ file, resolveWithinRoot W file = .ok entry.1) :
    (restoreAll site entries).Uses (ChangesTargets W) := by
  induction entries with
  | nil => exact trivial
  | cons entry entries ih =>
      obtain ⟨hfirst, hrest⟩ := List.forall_mem_cons.mp h
      exact (changesTargets_restoreFile site entry.2 hfirst).bind fun _ => ih hrest

end Loops

theorem changesTargets_restoreFromBackups (mutationId : String) (files : List FileRecord) :
    (restoreFromBackups W mutationId files).Uses (ChangesTargets W) := by
  induction files with
  | nil => exact trivial
  | cons file files ih =>
      rw [restoreFromBackups]
      cases htarget : resolveWithinRoot W file.relativePath with
      | error failure => exact trivial
      | ok target =>
          refine ⟨trivial, fun original => ?_⟩
          change ((restoreFile .rollback target original).bind fun _ =>
            restoreFromBackups W mutationId files).Uses _
          exact (changesTargets_restoreFile .rollback original ⟨_, htarget⟩).bind fun _ => ih

theorem changesTargets_applyMutation (mutationId now : String) :
    (applyMutation W mutationId now).Uses (ChangesTargets W) := by
  refine (changesTargets_of_reads (reads_loadRecord mutationId)).bind fun record => ?_
  by_cases hstatus : record.status = .applied
  · rw [if_pos hstatus]
    exact trivial
  · rw [if_neg hstatus]
    refine (changesTargets_of_reads (reads_checkUnchanged _ _ _ record.files)).bind fun _ => ?_
    refine Program.Uses.bind_of_returns ((uses_backUp mutationId record.files).mono
      (FileOp.Within.mono (fun _ _ => trivial) ?_)) (returns_backUp mutationId record.files)
      fun prepared hprepared => ?_
    · rintro place ⟨name, rfl⟩ path heq
      cases heq
    refine Program.Uses.bind_of_returns (changesTargets_writeTargets hprepared)
      (returns_writeTargets hprepared fun entry hentry => by cases hentry) ?_
    rintro ⟨written, outcome⟩ hwritten
    cases outcome with
    | error failure => exact (changesTargets_restoreAll hwritten).bind fun _ => trivial
    | ok files => exact (changesTargets_saveRecord .record _).bind fun _ => trivial

theorem changesTargets_rollbackMutation (mutationId now : String) :
    (rollbackMutation W mutationId now).Uses (ChangesTargets W) := by
  refine (changesTargets_of_reads (reads_loadRecord mutationId)).bind fun record => ?_
  cases record.status with
  | planned | rolledBack => exact trivial
  | applied =>
      refine (changesTargets_of_reads (reads_checkUnchanged _ _ _ record.files)).bind fun _ => ?_
      refine (changesTargets_restoreFromBackups mutationId record.files).bind fun _ => ?_
      exact (changesTargets_saveRecord .record _).bind fun _ => trivial

/-! ## Records and backups -/

section Changes

variable {α β : Type} {task : Task α} {next : α → Task β} {location : Location}
  {mutationId now : String} {files : List FileRecord}

/-- The backups that the loop makes: one of every file that exists, up to the first write
that fails. -/
theorem changesAt_backUp_iff (hinside : ∀ file ∈ files, file.Inside W) :
    ChangesAt (backUp W mutationId files) d location ↔
      ∃ file ∈ performed (fun _ => true) (d.faults .backup) (existing W d files),
        .backup mutationId (safeBackupName file.relativePath) = location := by
  induction files generalizing d with
  | nil => exact iff_of_false not_false (by simp [existing, performed])
  | cons file files ih =>
      obtain ⟨hfile, hfiles⟩ := List.forall_mem_cons.mp hinside
      have hread : (readFile (file.target W)).Uses ReadsOnly := ⟨trivial, fun _ => trivial⟩
      rw [backUp, resolveWithinRoot_of_inside hfile]
      simp only [Program.bind_eq, Program.ofExcept, Program.bind]
      rw [changesAt_bind_of_reads hread (onDisk_readFile _)]
      cases horiginal : bytesAt d (file.target W) with
      | none =>
          have hexisting : existing W d (file :: files) = existing W d files := by
            simp [existing, horiginal]
          rw [hexisting]
          exact Program.performs_bind_ret.trans (ih hfiles)
      | some bytes =>
          have hexisting : existing W d (file :: files) = file :: existing W d files := by
            simp [existing, horiginal]
          rw [hexisting, performed]
          cases hfault : d.faults .backup 0 with
          | some error =>
              refine (changesAt_bind_of_error (onDisk_atomicWrite_of_some hfault)).trans ?_
              rw [changesAt_atomicWrite_iff, hfault]
              exact iff_of_false (by simp) (by simp)
          | none =>
              refine (changesAt_bind_of_ok (onDisk_atomicWrite_of_none hfault)).trans ?_
              obtain ⟨d₁, hd₁⟩ : ∃ d₁, d₁ = (d.passed .backup).put
                (.backup mutationId (safeBackupName file.relativePath)) (some bytes) := ⟨_, rfl⟩
              have hsame : existing W d₁ files = existing W d files := by
                have hbytes : bytesAt d₁ = bytesAt d := by
                  funext path
                  rw [hd₁]
                  exact Disk.put_content_of_ne (by simp)
                rw [existing, existing, hbytes]
              have hfaults : d₁.faults .backup = fun n => d.faults .backup (n + 1) := by
                rw [hd₁, Disk.put_faults, Disk.passed_faults_self]
              rw [changesAt_atomicWrite_iff, ← hd₁]
              simp only [hfault, true_and, if_true, List.mem_cons, exists_eq_or_imp]
              refine or_congr_right (Program.performs_bind_ret.trans ?_)
              rw [← hfaults, ← hsame]
              exact ih hfiles

/-- A record that the call goes on to write. -/
theorem changesAt_saveRecord_iff {site : Site} {record : MutationRecord} {value : α} :
    ChangesAt ((saveRecord site record).bind fun _ => (.ret value : Task α)) d location ↔
      d.faults site 0 = none ∧ .record record.mutationId = location :=
  (Program.performs_bind_ret (g := fun _ => value)).trans changesAt_atomicWrite_iff

end Changes

section Calls

variable {location : Location} {mutationId now : String} {record : MutationRecord}

/-- What applying writes besides targets, from the backups on. -/
theorem changesAt_applyMutation_of_checks (now : String) (hchecks : ApplyChecks W d mutationId record)
    (hfile : ∀ path, location ≠ .file path) :
    ChangesAt (applyMutation W mutationId now) d location ↔
      (∃ file ∈ performed (fun _ => true) (d.faults .backup) (existing W d record.files),
        .backup mutationId (safeBackupName file.relativePath) = location) ∨
      (Reaches W d record.files ∧ d.faults .record 0 = none ∧
        .record record.mutationId = location) := by
  obtain ⟨hrecord, hstatus, hcheck⟩ := hchecks
  have hchecked := checkUnchangedSincePlan_passes hcheck
  have hquiet : ∀ {sites} {α : Type} {task : Task α} {d : AgentDisk},
      task.Uses (FileOp.Within sites fun place => ∃ path, place = .file path) →
        ¬ ChangesAt task d location :=
    fun huses => not_changesAt_of_uses huses (by rintro ⟨path, rfl⟩; exact hfile path rfl)
  rw [applyMutation, Program.bind_eq,
    changesAt_bind_of_reads (reads_loadRecord mutationId) (onDisk_loadRecord hrecord),
    if_neg hstatus, Program.bind_eq, changesAt_bind_of_reads (reads_checkUnchangedSincePlan _) hchecked,
    Program.bind_eq, ← changesAt_backUp_iff fun file hfile => (hcheck file hfile).1]
  have hfaults := fun site => faults_backUp (W := W) (d := d) mutationId record.files site
  obtain ⟨hclear, d₁, hrun₁, -⟩ | ⟨hclear, failure, d₁, hrun₁⟩ :=
    onDisk_backUp (d := d) mutationId fun file hfile => (hcheck file hfile).1
  case inr =>
    rw [changesAt_bind_of_error hrun₁]
    exact (or_iff_left fun h => hclear h.1.backups).symm
  rw [hrun₁] at hfaults
  rw [changesAt_bind_of_ok hrun₁, Program.bind_eq]
  refine or_congr_right ?_
  have hreaches : Reaches W d record.files ↔
      Clear d₁ .target (record.files.map (prepare W d)).length ∧
      ∀ entry ∈ record.files.map (prepare W d), entry.file.Valid W := by
    rw [List.length_map, Clear, hfaults .target (by decide), List.forall_mem_map]
    exact ⟨fun h => ⟨h.targets, h.valid⟩, fun h => ⟨hcheck, hclear, h.1, h.2⟩⟩
  have huses := uses_writeTargets (W := W) (record.files.map (prepare W d)) []
  obtain ⟨hall, d₂, hrun₂, -⟩ | ⟨hnot, begun, rest, failure, d₂, -, hrun₂, -⟩ :=
    onDisk_writeTargets (W := W) (d := d₁) (record.files.map (prepare W d)) []
  · have hsave : d₂.faults .record = d.faults .record := by
      have hkeep : (onDisk (writeTargets W (record.files.map (prepare W d)) []) d₁).2.faults
          .record = d₁.faults .record := Disk.run_faults_of_uses huses (by decide)
      rw [hrun₂] at hkeep
      rw [hkeep, hfaults .record (by decide)]
    rw [changesAt_bind_of_ok hrun₂, or_iff_right (hquiet huses), and_iff_right (hreaches.mpr hall),
      ← hsave]
    exact changesAt_saveRecord_iff
  · rw [changesAt_bind_of_ok hrun₂, or_iff_right (hquiet huses)]
    refine iff_of_false ?_ fun h => hnot (hreaches.mp h.1)
    have hrestore : ((restoreAll .restore (begun.map Prepared.undo)).bind fun _ =>
        (.raise (surfaced failure) : Task MutationRecord)).Uses
          (FileOp.Within (· = .restore) fun place => ∃ path, place = .file path) :=
      (uses_restoreAll .restore _).bind fun _ => trivial
    exact hquiet hrestore

/-- What applying writes besides targets. -/
theorem changesAt_applyMutation_iff (hfile : ∀ path, location ≠ .file path) :
    ChangesAt (applyMutation W mutationId now) d location ↔
      ∃ record, ApplyChecks W d mutationId record ∧
        ((∃ file ∈ performed (fun _ => true) (d.faults .backup) (existing W d record.files),
          .backup mutationId (safeBackupName file.relativePath) = location) ∨
        (Reaches W d record.files ∧ d.faults .record 0 = none ∧
          .record record.mutationId = location)) := by
  by_cases hstarts : ∃ record, ApplyChecks W d mutationId record
  · obtain ⟨record, hchecks⟩ := hstarts
    rw [changesAt_applyMutation_of_checks now hchecks hfile]
    refine ⟨fun h => ⟨record, hchecks, h⟩, ?_⟩
    rintro ⟨other, hother, h⟩
    cases hother.recorded.symm.trans hchecks.recorded
    exact h
  · exact iff_of_false ((applyMutation_of_not_checks now fun record hchecks =>
      hstarts ⟨record, hchecks⟩).1 location) fun ⟨record, hchecks, _⟩ => hstarts ⟨record, hchecks⟩

/-- The restoring loop of a rollback comes to its end, or one of its writes fails. -/
theorem onDisk_restoreFromBackups_cases {files : List FileRecord}
    (hinside : ∀ file ∈ files, file.Inside W) :
    (Clear d .rollback files.length ∧
        ∃ d', onDisk (restoreFromBackups W mutationId files) d = (.ok (), d')) ∨
      (¬ Clear d .rollback files.length ∧
        ∃ failure d', onDisk (restoreFromBackups W mutationId files) d = (.error failure, d')) := by
  by_cases hclear : Clear d .rollback files.length
  · obtain ⟨d', hrun, -⟩ := onDisk_restoreFromBackups (W := W) mutationId hinside hclear
    exact .inl ⟨hclear, d', hrun⟩
  refine .inr ⟨hclear, ?_⟩
  induction files generalizing d with
  | nil => exact absurd (fun n hn => absurd hn (Nat.not_lt_zero n)) hclear
  | cons file files ih =>
      obtain ⟨hfile, hfiles⟩ := List.forall_mem_cons.mp hinside
      rw [restoreFromBackups, resolveWithinRoot_of_inside hfile]
      simp only [Program.bind_eq, Program.ofExcept, Program.bind]
      rw [onDisk_bind_of_ok (onDisk_readBackup _ _)]
      cases hfault : d.faults .rollback 0 with
      | some error => exact ⟨_, _, onDisk_bind_of_error (onDisk_restoreFile_of_some hfault)⟩
      | none =>
          rw [onDisk_bind_of_ok (onDisk_restoreFile_of_none hfault)]
          refine ih hfiles fun hrest => hclear ?_
          rw [List.length_cons, clear_succ]
          exact ⟨hfault, clear_put.mp hrest⟩

/-- What rolling back writes besides targets. -/
theorem changesAt_rollbackMutation_iff (hfile : ∀ path, location ≠ .file path) :
    ChangesAt (rollbackMutation W mutationId now) d location ↔
      ∃ record, RollbackStarts W d mutationId record ∧ Clear d .rollback record.files.length ∧
        d.faults .record 0 = none ∧ .record record.mutationId = location := by
  by_cases hstarts : ∃ record, RollbackStarts W d mutationId record
  case neg =>
    exact iff_of_false ((rollbackMutation_of_not_starts now fun record hstart =>
      hstarts ⟨record, hstart⟩).1 location) fun ⟨record, hstart, _⟩ => hstarts ⟨record, hstart⟩
  obtain ⟨record, hstart⟩ := hstarts
  obtain ⟨hrecord, hstatus, hcheck⟩ := id hstart
  have honly : (∃ other, RollbackStarts W d mutationId other ∧
      Clear d .rollback other.files.length ∧ d.faults .record 0 = none ∧
        .record other.mutationId = location) ↔
      Clear d .rollback record.files.length ∧ d.faults .record 0 = none ∧
        .record record.mutationId = location := by
    refine ⟨?_, fun h => ⟨record, hstart, h⟩⟩
    rintro ⟨other, hother, h⟩
    cases hother.recorded.symm.trans hrecord
    exact h
  have huses := uses_restoreFromBackups (W := W) mutationId record.files
  have hquiet : ¬ ChangesAt (restoreFromBackups W mutationId record.files) d location :=
    not_changesAt_of_uses huses (by rintro ⟨path, rfl⟩; exact hfile path rfl)
  rw [honly, rollbackMutation, Program.bind_eq,
    changesAt_bind_of_reads (reads_loadRecord mutationId) (onDisk_loadRecord hrecord), hstatus]
  simp only [Program.bind_eq]
  rw [changesAt_bind_of_reads (reads_checkUnchangedSinceApply _)
    (checkUnchangedSinceApply_passes hcheck)]
  obtain ⟨hclear, d', hrun⟩ | ⟨hclear, failure, d', hrun⟩ :=
    @onDisk_restoreFromBackups_cases _ _ W d mutationId record.files
      fun file hfile => (hcheck file hfile).1
  · have hsave : d'.faults .record = d.faults .record := by
      have hkeep : (onDisk (restoreFromBackups W mutationId record.files) d).2.faults .record =
          d.faults .record := Disk.run_faults_of_uses huses (by decide)
      rwa [hrun] at hkeep
    rw [changesAt_bind_of_ok hrun, or_iff_right hquiet, and_iff_right hclear, ← hsave]
    exact changesAt_saveRecord_iff
  · rw [changesAt_bind_of_error hrun]
    exact iff_of_false hquiet fun h => hclear h.1

end Calls

/-! ## Containment -/

section Containment

variable {P : LinkedProject Document Documents}

/-- The targets of a task lie inside the root, so only its records and backups matter. -/
theorem staysInside_iff {α : Type} {task : Task α} (huses : task.Uses (ChangesTargets P.workspace)) :
    P.StaysInside task d ↔ ∀ location, (∀ path, location ≠ .file path) →
      ChangesAt task d location → P.HeldInside location := by
  constructor
  · intro h location _ hchanges
    exact LinkedProject.heldInside_iff.mpr (h location hchanges)
  · intro h location hchanges place hplace
    by_cases hfile : ∃ path, location = .file path
    · obtain ⟨path, rfl⟩ := hfile
      obtain ⟨file, hresolved⟩ := hchanges.of_uses huses
        (fun _ _ hop hevent => hop.of_changes hevent) path rfl
      obtain ⟨hinside, rfl⟩ := resolveWithinRoot_eq_ok hresolved
      rw [(LinkedProject.linkFree_of_inside hinside).eq_of_placeOf hplace]
      exact List.isPrefixOf_iff_prefix.mp hinside
    · exact LinkedProject.heldInside_iff.mp
        (h location (fun path heq => hfile ⟨path, heq⟩) hchanges) place hplace

/-- For every tree of directories and links, every disk and every choice of failing writes:
everything that a call writes or deletes lies inside the resolved root exactly if the
directories of the record and of the backups that it writes do. -/
theorem staysInside_of_calls_iff (P : LinkedProject Document Documents) (d : AgentDisk)
    (plan : ConfigPlan) (mutationId now : String) :
    (P.StaysInside (persistPlan plan) d ↔
      (d.faults .plan 0 = none → P.HeldInside (.record plan.mutationId))) ∧
    (P.StaysInside (applyMutation P.workspace mutationId now) d ↔
      ∀ record, ApplyChecks P.workspace d mutationId record →
        (∀ file ∈ performed (fun _ => true) (d.faults .backup)
            (existing P.workspace d record.files),
          P.HeldInside (.backup mutationId (safeBackupName file.relativePath))) ∧
        (Reaches P.workspace d record.files → d.faults .record 0 = none →
          P.HeldInside (.record record.mutationId))) ∧
    (P.StaysInside (rollbackMutation P.workspace mutationId now) d ↔
      ∀ record, RollbackStarts P.workspace d mutationId record →
        Clear d .rollback record.files.length → d.faults .record 0 = none →
          P.HeldInside (.record record.mutationId)) := by
  refine ⟨?_, ?_, ?_⟩
  · rw [persistPlan, staysInside_iff (changesTargets_saveRecord .plan plan.record)]
    constructor
    · intro h hfault
      exact h _ (fun path heq => by cases heq) (changesAt_atomicWrite_iff.mpr ⟨hfault, rfl⟩)
    · intro h location _ hchanges
      obtain ⟨hfault, rfl⟩ := changesAt_atomicWrite_iff.mp hchanges
      exact h hfault
  · rw [staysInside_iff (changesTargets_applyMutation mutationId now)]
    constructor
    · intro h record hchecks
      refine ⟨fun file hfile => ?_, fun hreaches hfault => ?_⟩
      · exact h _ (fun path heq => by cases heq) ((changesAt_applyMutation_iff fun path heq => by
          cases heq).mpr ⟨record, hchecks, .inl ⟨file, hfile, rfl⟩⟩)
      · exact h _ (fun path heq => by cases heq) ((changesAt_applyMutation_iff fun path heq => by
          cases heq).mpr ⟨record, hchecks, .inr ⟨hreaches, hfault, rfl⟩⟩)
    · intro h location hfile hchanges
      obtain ⟨record, hchecks, ⟨file, hmem, rfl⟩ | ⟨hreaches, hfault, rfl⟩⟩ :=
        (changesAt_applyMutation_iff hfile).mp hchanges
      · exact (h record hchecks).1 file hmem
      · exact (h record hchecks).2 hreaches hfault
  · rw [staysInside_iff (changesTargets_rollbackMutation mutationId now)]
    constructor
    · intro h record hstarts hclear hfault
      exact h _ (fun path heq => by cases heq) ((changesAt_rollbackMutation_iff fun path heq => by
        cases heq).mpr ⟨record, hstarts, hclear, hfault, rfl⟩)
    · intro h location hfile hchanges
      obtain ⟨record, hstarts, hclear, hfault, rfl⟩ :=
        (changesAt_rollbackMutation_iff hfile).mp hchanges
      exact h record hstarts hclear hfault

end Containment

/-- A project whose `.portforge` is a link to a directory beside it. -/
def linkedProject : LinkedProject Unit Unit where
  tree :=
    { node := fun place =>
        if place = ["project"] ∨ place = ["elsewhere"] then some .directory
        else if place = ["project", ".portforge"] then some (.link ⟨"/", ["elsewhere"]⟩)
        else none
      limit := 40 }
  path := ⟨"/", ["project"]⟩
  root := ["project"]
  resolves := by decide
  isDirectory := by decide
  rootText := "/project"
  sha256 := sampleWorkspace.sha256
  editors := sampleWorkspace.editors

/-- A plan is persisted outside the project where the directory of the mutations is a link. -/
theorem persistPlan_leavesProject :
    linkedProject.tree.placeOf (linkedProject.pathOf (.record "m1")) =
        some ["elsewhere", "mutations", "m1", "record.json"] ∧
      ¬ linkedProject.StaysInside (persistPlan samplePlan)
        (sampleDisk [(".env", "PORT=80\n")] [] fun _ _ => none) := by
  have hplace : linkedProject.tree.placeOf (linkedProject.pathOf (.record "m1")) =
      some ["elsewhere", "mutations", "m1", "record.json"] := by decide
  refine ⟨hplace, fun h => ?_⟩
  have habove := h (.record "m1") (changesAt_atomicWrite_iff.mpr ⟨rfl, rfl⟩) _ hplace
  revert habove
  decide

end Agent
