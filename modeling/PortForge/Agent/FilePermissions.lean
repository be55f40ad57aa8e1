/-
# Permissions of the targets

A target is replaced by a file that `mkstemp` made, so it ends with the permissions of
that file, and nothing puts the old ones back: neither the writes, nor the restoring ones,
nor a rollback. Which targets are replaced is decided by the record, by the hashes and by
the writes that fail, and a target keeps its permissions exactly if it is not replaced or
had those of the new file before.
-/

import PortForge.Agent.RollbackRetry
import PortForge.Effects.Modes

namespace Agent

open Effects

variable {Document Documents : Type} {W : Workspace Document Documents} {d d' : AgentDisk}

/-! ## Files with permissions -/

/-- The disk under the agent, with the permission bits of its files. -/
abbrev ProjectTree := ModedDisk Site Location Content ℕ

/-- The permission bits of a file that `mkstemp` creates. -/
def mkstempMode : ℕ := 0o600

/-- The permission bits of a project file. -/
def permissionsAt (t : ProjectTree) (path : Path) : Option ℕ :=
  (bytesAt t.disk path).map fun _ => t.mode (.file path)

/-- Run a part of a command against a disk with permissions. -/
def onTree {α : Type} (task : Task α) (t : ProjectTree) : Except ConfigFailure α × ProjectTree :=
  task.run (ModedDisk.handle mkstempMode) t

/-- The task replaces the project file. -/
def Overwrites {α : Type} (task : Task α) (d : AgentDisk) (path : Path) : Prop :=
  task.Performs Disk.handle (FileOp.Replaces (.file path)) d

/-- The task replaces or removes what is at the place. -/
def ChangesAt {α : Type} (task : Task α) (d : AgentDisk) (location : Location) : Prop :=
  task.Performs Disk.handle (FileOp.Changes location) d

theorem Overwrites.changesAt {α : Type} {task : Task α} {path : Path} (h : Overwrites task d path) :
    ChangesAt task d (.file path) :=
  h.mono fun _ _ => FileOp.Replaces.changes

section Tree

variable {α : Type} {task : Task α} {t : ProjectTree} {path : Path} {bits : ℕ}

theorem onTree_disk : (onTree task t).2.disk = (onDisk task t.disk).2 :=
  congrArg Prod.snd ModedDisk.run_disk

theorem permissionsAt_eq_some_iff : permissionsAt t path = some bits ↔
    (bytesAt t.disk path).isSome ∧ t.mode (.file path) = bits := by
  rw [permissionsAt]
  cases bytesAt t.disk path <;> simp

theorem permissionsAt_eq_none_iff :
    permissionsAt t path = none ↔ bytesAt t.disk path = none := by
  rw [permissionsAt, Option.map_eq_none_iff]

/-- A file that is still there has its old permissions unless it was replaced. -/
theorem permissionsAt_onTree_iff (h : permissionsAt t path = some bits)
    (hstill : (bytesAt (onDisk task t.disk).2 path).isSome) :
    permissionsAt (onTree task t).2 path = some bits ↔
      (Overwrites task t.disk path → bits = mkstempMode) := by
  obtain ⟨-, hbits⟩ := permissionsAt_eq_some_iff.mp h
  rw [permissionsAt_eq_some_iff, onTree_disk]
  by_cases hover : Overwrites task t.disk path
  · have hmode : (onTree task t).2.mode (.file path) = mkstempMode :=
      ModedDisk.run_mode_of_replaces hover
    rw [hmode]
    exact ⟨fun heq _ => heq.2.symm, fun heq => ⟨hstill, (heq hover).symm⟩⟩
  · have hmode : (onTree task t).2.mode (.file path) = t.mode (.file path) :=
      ModedDisk.run_mode_of_not_replaces hover
    rw [hmode]
    exact iff_of_true ⟨hstill, hbits⟩ fun h => (hover h).elim

end Tree

/-! ## Steps that change nothing -/

section Quiet

variable {α β : Type} {task : Task α} {next : α → Task β} {path : Path} {location : Location}

theorem overwrites_bind_of_ok {value : α} (h : onDisk task d = (.ok value, d')) :
    Overwrites (task.bind next) d path ↔
      Overwrites task d path ∨ Overwrites (next value) d' path :=
  Program.performs_bind_of_ok h

theorem overwrites_bind_of_error {failure : ConfigFailure}
    (h : onDisk task d = (.error failure, d')) :
    Overwrites (task.bind next) d path ↔ Overwrites task d path :=
  Program.performs_bind_of_error h

theorem changesAt_bind_of_ok {value : α} (h : onDisk task d = (.ok value, d')) :
    ChangesAt (task.bind next) d location ↔
      ChangesAt task d location ∨ ChangesAt (next value) d' location :=
  Program.performs_bind_of_ok h

theorem changesAt_bind_of_error {failure : ConfigFailure}
    (h : onDisk task d = (.error failure, d')) :
    ChangesAt (task.bind next) d location ↔ ChangesAt task d location :=
  Program.performs_bind_of_error h

theorem not_changesAt_of_uses {sites : Site → Prop} {places : Location → Prop}
    (huses : task.Uses (FileOp.Within sites places)) (hplace : ¬ places location) :
    ¬ ChangesAt task d location :=
  fun h => hplace (h.of_uses huses fun _ _ hop hevent => hop.of_changes hevent)

theorem not_changesAt_of_reads (huses : task.Uses ReadsOnly) : ¬ ChangesAt task d location :=
  not_changesAt_of_uses huses not_false

/-- After a task that only reads. -/
theorem changesAt_bind_of_reads {value : α} (huses : task.Uses ReadsOnly)
    (h : onDisk task d = (.ok value, d')) :
    ChangesAt (task.bind next) d location ↔ ChangesAt (next value) d' location :=
  (changesAt_bind_of_ok h).trans (or_iff_right (not_changesAt_of_reads huses))

theorem not_overwrites_of_reads (huses : task.Uses ReadsOnly) : ¬ Overwrites task d path :=
  fun h => not_changesAt_of_reads huses h.changesAt

/-- After a task that does not replace the file. -/
theorem overwrites_bind_of_quiet {value : α} (hquiet : ¬ Overwrites task d path)
    (h : onDisk task d = (.ok value, d')) :
    Overwrites (task.bind next) d path ↔ Overwrites (next value) d' path :=
  (overwrites_bind_of_ok h).trans (or_iff_right hquiet)

theorem reads_loadRecord (mutationId : String) : (loadRecord mutationId).Uses ReadsOnly :=
  ⟨trivial, fun (answer : Option MutationRecord) => by cases answer <;> exact trivial⟩

theorem reads_checkUnchanged (expected : FileRecord → Option String) (code reason : String)
    (files : List FileRecord) : (checkUnchanged W expected code reason files).Uses ReadsOnly := by
  induction files with
  | nil => exact trivial
  | cons file files ih =>
      refine (Program.uses_ofExcept _).bind fun target => ⟨trivial, fun live => ?_⟩
      change Program.Uses _ (ite _ _ _)
      split
      · exact ih
      · exact trivial

theorem reads_checkUnchangedSincePlan (files : List FileRecord) :
    (checkUnchangedSincePlan W files).Uses ReadsOnly :=
  reads_checkUnchanged _ _ _ files

theorem reads_checkUnchangedSinceApply (files : List FileRecord) :
    (checkUnchangedSinceApply W files).Uses ReadsOnly :=
  reads_checkUnchanged _ _ _ files

theorem checkUnchangedSincePlan_passes {files : List FileRecord}
    (h : AsExpected W (fun file => file.beforeHash) d files) :
    onDisk (checkUnchangedSincePlan W files) d = (.ok (), d) := by
  obtain ⟨-, hrun⟩ | ⟨hnot, -⟩ := onDisk_checkUnchangedSincePlan (W := W) (d := d) files
  · exact hrun
  · exact (hnot h).elim

theorem checkUnchangedSinceApply_passes {files : List FileRecord}
    (h : AsExpected W (fun file => file.afterHash) d files) :
    onDisk (checkUnchangedSinceApply W files) d = (.ok (), d) := by
  obtain ⟨-, hrun⟩ | ⟨hnot, -⟩ := onDisk_checkUnchangedSinceApply (W := W) (d := d) files
  · exact hrun
  · exact (hnot h).elim

theorem changesAt_atomicWrite_iff {site : Site} {place : Location} {content : Content place} :
    ChangesAt (atomicWrite site place content) d location ↔
      d.faults site 0 = none ∧ place = location := by
  cases hfault : d.faults site 0 with
  | none =>
      have hhandle : Disk.handle (.write site place content) d =
          (none, (d.passed site).put place (some content)) := Disk.attempt_of_none hfault
      change FileOp.Changes _ _ (Disk.handle _ d).1 ∨ Program.Performs _ _ _ _ ↔ _
      rw [hhandle]
      constructor
      · rintro (⟨-, hplace⟩ | hrest)
        · exact ⟨rfl, hplace⟩
        · exact hrest.elim
      · rintro ⟨-, hplace⟩
        exact .inl ⟨rfl, hplace⟩
  | some error =>
      have hhandle : Disk.handle (.write site place content) d = (some error, d.passed site) :=
        Disk.attempt_of_some hfault
      change FileOp.Changes _ _ (Disk.handle _ d).1 ∨ Program.Performs _ _ _ _ ↔ _
      rw [hhandle]
      refine iff_of_false ?_ (by simp)
      rintro (⟨hanswer, -⟩ | hrest)
      · cases hanswer
      · exact hrest

theorem not_overwrites_saveRecord (site : Site) (record : MutationRecord) :
    ¬ Overwrites (saveRecord site record) d path := by
  intro h
  cases (changesAt_atomicWrite_iff.mp h.changesAt).2

end Quiet

/-! ## Loops that stop -/

/-- The items a loop of writes performs: it stops before the first write that fails, and
after the first item that does not pass. -/
def performed {α : Type} (passes : α → Bool) : (ℕ → Option String) → List α → List α
  | _, [] => []
  | faults, item :: items =>
      match faults 0 with
      | some _ => []
      | none =>
          item :: if passes item then performed passes (fun n => faults (n + 1)) items else []

theorem performed_subset {α : Type} {passes : α → Bool} {faults : ℕ → Option String}
    {items : List α} {item : α} (h : item ∈ performed passes faults items) : item ∈ items := by
  induction items generalizing faults with
  | nil => exact h
  | cons first items ih =>
      rw [performed] at h
      split at h
      · cases h
      · obtain rfl | hlater := List.mem_cons.mp h
        · exact List.mem_cons_self
        · split at hlater
          · exact List.mem_cons_of_mem first (ih hlater)
          · cases hlater

theorem performed_map {α β : Type} (f : α → β) (passes : β → Bool) (faults : ℕ → Option String)
    (items : List α) : performed passes faults (items.map f) =
      (performed (passes ∘ f) faults items).map f := by
  induction items generalizing faults with
  | nil => rfl
  | cons item items ih =>
      rw [List.map_cons, performed, performed]
      split
      · rfl
      · rw [List.map_cons, ih, Function.comp_apply]
        split <;> rfl

/-- The rendered file parses again, as a test. -/
def FileRecord.valid (W : Workspace Document Documents) (file : FileRecord) : Bool :=
  (validateRenderedFile W file.kind file.rendered).isOk

theorem FileRecord.valid_iff (file : FileRecord) : file.valid W = true ↔ file.Valid W := by
  rw [FileRecord.valid, FileRecord.Valid]
  cases validateRenderedFile W file.kind file.rendered <;> simp [Except.isOk, Except.toBool]

/-! ## Applying -/

/-- What the loop does once a target is written. -/
def afterWrite (W : Workspace Document Documents) (first : Prepared) (rest : List Prepared)
    (done : List (Path × Option ByteArray)) :
    Task (List (Path × Option ByteArray) × Except ConfigFailure (List FileRecord)) :=
  match verifyWritten W first (some first.file.rendered) with
  | .error failure => .ret (done ++ [first.undo], .error failure)
  | .ok file => (writeTargets W rest (done ++ [first.undo])).bind
      fun result => .ret (result.1, result.2.map fun files => file :: files)

section Targets

variable {first : Prepared} {rest prepared : List Prepared} {done : List (Path × Option ByteArray)}
  {path : Path}

/-- The first target is written, and the loop goes on from there. -/
theorem writeTargets_of_none (hfault : d.faults .target 0 = none) :
    ∃ d₁, d₁.faults .target = (fun n => d.faults .target (n + 1)) ∧
      onDisk (writeTargets W (first :: rest) done) d = onDisk (afterWrite W first rest done) d₁ ∧
      ∀ path, Overwrites (writeTargets W (first :: rest) done) d path ↔
        first.target = path ∨ Overwrites (afterWrite W first rest done) d₁ path := by
  obtain ⟨d₁, hd₁⟩ : ∃ d₁, d₁ = (d.passed .target).put (.file first.target)
    (some first.file.rendered) := ⟨_, rfl⟩
  have hhandle : Disk.handle (.write .target (.file first.target) first.file.rendered) d =
      (none, d₁) := (Disk.attempt_of_none hfault).trans (by rw [hd₁])
  have hlive : bytesAt d₁ first.target = some first.file.rendered := by
    rw [hd₁, bytesAt_put]
    exact Function.update_self _ _ _
  refine ⟨d₁, by rw [hd₁, Disk.put_faults, Disk.passed_faults_self], ?_, fun path => ?_⟩
  · rw [afterWrite, ← hlive]
    change Program.run _ _ (Disk.handle _ d).2 = _
    rw [hhandle]
    rfl
  · rw [afterWrite, ← hlive]
    change FileOp.Replaces _ _ (Disk.handle _ d).1 ∨ Program.Performs _ _ _ _ ↔ _
    rw [hhandle]
    refine or_congr ⟨fun h => by injection h.2, fun h => ⟨rfl, by rw [h]⟩⟩ ?_
    exact (iff_of_eq (false_or _)).trans Iff.rfl

/-- A target that cannot be written ends the loop. -/
theorem writeTargets_of_some {error : String} (hfault : d.faults .target 0 = some error) :
    onDisk (writeTargets W (first :: rest) done) d =
        (.ok (done, .error (.os error)), d.passed .target) ∧
      ∀ path, ¬ Overwrites (writeTargets W (first :: rest) done) d path := by
  have hhandle : Disk.handle (.write .target (.file first.target) first.file.rendered) d =
      (some error, d.passed .target) := Disk.attempt_of_some hfault
  refine ⟨Program.run_call_of_handle hhandle, fun path => ?_⟩
  rintro (hop | hrest)
  · rw [hhandle] at hop
    cases hop.1
  · rw [hhandle] at hrest
    exact hrest

/-- The entries whose targets the loop writes. -/
abbrev begunEntries (W : Workspace Document Documents) (d : AgentDisk) (prepared : List Prepared) :
    List Prepared :=
  performed (fun entry : Prepared => entry.file.valid W) (d.faults .target) prepared

/-- The targets that the loop replaces. -/
theorem overwrites_writeTargets_iff (prepared : List Prepared)
    (done : List (Path × Option ByteArray)) :
    Overwrites (writeTargets W prepared done) d path ↔
      ∃ entry ∈ begunEntries W d prepared, entry.target = path := by
  induction prepared generalizing d done with
  | nil => exact iff_of_false not_false (by simp [performed])
  | cons first rest ih =>
      rw [begunEntries, performed]
      cases hfault : d.faults .target 0 with
      | some error => exact iff_of_false ((writeTargets_of_some hfault).2 path) (by simp)
      | none =>
          obtain ⟨d₁, hfaults, -, hover⟩ := @writeTargets_of_none _ _ W d first rest done hfault
          rw [hover]
          simp only [List.mem_cons, exists_eq_or_imp]
          refine or_congr_right ?_
          by_cases hvalid : first.file.Valid W
          · rw [afterWrite, verifyWritten_of_valid hvalid,
              if_pos ((FileRecord.valid_iff _).mpr hvalid), ← hfaults]
            exact Program.performs_bind_ret.trans (ih (done ++ [first.undo]))
          · obtain ⟨failure, hfailure⟩ := verifyWritten_of_not_valid hvalid
            rw [afterWrite, hfailure, if_neg fun h => hvalid ((FileRecord.valid_iff _).mp h)]
            exact iff_of_false not_false (by simp)

/-- The loop says which targets it has written. -/
theorem onDisk_writeTargets_written (prepared : List Prepared)
    (done : List (Path × Option ByteArray)) :
    ∃ outcome d', onDisk (writeTargets W prepared done) d =
      (.ok (done ++ (begunEntries W d prepared).map Prepared.undo, outcome), d') := by
  induction prepared generalizing d done with
  | nil => exact ⟨.ok [], d, by simp [writeTargets, performed]⟩
  | cons first rest ih =>
      rw [begunEntries, performed]
      cases hfault : d.faults .target 0 with
      | some error =>
          refine ⟨.error (.os error), d.passed .target, ?_⟩
          rw [(writeTargets_of_some hfault).1, List.map_nil, List.append_nil]
      | none =>
          obtain ⟨d₁, hfaults, hrun, -⟩ := @writeTargets_of_none _ _ W d first rest done hfault
          rw [hrun, afterWrite]
          by_cases hvalid : first.file.Valid W
          · rw [verifyWritten_of_valid hvalid, if_pos ((FileRecord.valid_iff _).mpr hvalid),
              ← hfaults]
            obtain ⟨outcome, d', hrest⟩ := ih (d := d₁) (done ++ [first.undo])
            refine ⟨outcome.map fun files => first.file.hashed W :: files, d', ?_⟩
            change onDisk (Program.bind _ _) d₁ = _
            rw [onDisk_bind_of_ok hrest, List.append_assoc]
            rfl
          · obtain ⟨failure, hfailure⟩ := verifyWritten_of_not_valid hvalid
            rw [hfailure, if_neg fun h => hvalid ((FileRecord.valid_iff _).mp h)]
            exact ⟨.error failure, d₁, rfl⟩

/-- The loop removes nothing. -/
theorem spares_writeTargets (place : Location) (prepared : List Prepared)
    (done : List (Path × Option ByteArray)) :
    (writeTargets W prepared done).Uses (FileOp.Spares place) := by
  induction prepared generalizing done with
  | nil => exact trivial
  | cons first rest ih =>
      refine ⟨trivial, fun answer => ?_⟩
      match answer with
      | some error => exact trivial
      | none =>
          refine ⟨trivial, fun live => ?_⟩
          show (match verifyWritten W first live with
            | .error failure => _
            | .ok file => _ : Task _).Uses _
          split
          · exact trivial
          · exact (ih _).bind fun _ => trivial

theorem uses_restoreEntries (site : Site) (entries : List (Path × Option ByteArray)) :
    (restoreAll site entries).Uses
      (FileOp.Within (· = site) fun place => ∃ entry ∈ entries, place = .file entry.1) := by
  induction entries with
  | nil => exact trivial
  | cons entry entries ih =>
      refine Program.Uses.bind ?_ fun _ => ih.mono (FileOp.Within.mono (fun _ => id) ?_)
      · obtain ⟨target, original⟩ := entry
        cases original <;>
          exact ⟨⟨rfl, _, List.mem_cons_self, rfl⟩, fun answer => by cases answer <;> exact trivial⟩
      · rintro place ⟨other, hother, rfl⟩
        exact ⟨other, List.mem_cons_of_mem entry hother, rfl⟩

/-- Putting files back removes only those that were not there. -/
theorem spares_restoreAll {site : Site} {entries : List (Path × Option ByteArray)}
    (h : ∀ entry ∈ entries, entry.1 = path → entry.2.isSome) :
    (restoreAll site entries).Uses (FileOp.Spares (.file path)) := by
  induction entries with
  | nil => exact trivial
  | cons entry entries ih =>
      obtain ⟨⟨target, original⟩, hfirst⟩ : ∃ first, first = entry := ⟨entry, rfl⟩
      subst hfirst
      refine Program.Uses.bind ?_ fun _ => ih fun other hother =>
        h other (List.mem_cons_of_mem _ hother)
      cases original with
      | some bytes => exact ⟨trivial, fun answer => by cases answer <;> exact trivial⟩
      | none =>
          refine ⟨fun heq => ?_, fun answer => by cases answer <;> exact trivial⟩
          have habsent := h (target, none) List.mem_cons_self (by injection heq)
          cases habsent

end Targets

/-- `apply_mutation` finds a record to apply, and every file as it was planned. -/
structure ApplyChecks (W : Workspace Document Documents) (d : AgentDisk) (mutationId : String)
    (record : MutationRecord) : Prop where
  recorded : recordAt d mutationId = some record
  planned : record.status ≠ .applied
  unchanged : AsExpected W (fun file => file.beforeHash) d record.files

/-- `apply_mutation` gets as far as writing targets. -/
structure ApplyStarts (W : Workspace Document Documents) (d : AgentDisk) (mutationId : String)
    (record : MutationRecord) : Prop where
  recorded : recordAt d mutationId = some record
  planned : record.status ≠ .applied
  unchanged : AsExpected W (fun file => file.beforeHash) d record.files
  backups : Clear d .backup (existing W d record.files).length

section Apply

variable {mutationId : String} {record : MutationRecord} {path : Path}

/-- What applying does, from the backups on. -/
theorem applyMutation_of_unchanged (now : String) (hrecord : recordAt d mutationId = some record)
    (hstatus : record.status ≠ .applied)
    (hcheck : AsExpected W (fun file => file.beforeHash) d record.files) :
    (Overwrites (applyMutation W mutationId now) d path ↔
        Clear d .backup (existing W d record.files).length ∧
          ∃ file ∈ performed (FileRecord.valid W) (d.faults .target) record.files,
            file.target W = path) ∧
      ((bytesAt d path).isSome →
        (bytesAt (onDisk (applyMutation W mutationId now) d).2 path).isSome) := by
  have hchecked := checkUnchangedSincePlan_passes hcheck
  have hchecks : ¬ Overwrites (checkUnchangedSincePlan W record.files) d path :=
    not_overwrites_of_reads (reads_checkUnchangedSincePlan record.files)
  rw [applyMutation, Program.bind_eq, onDisk_bind_of_ok (onDisk_loadRecord hrecord),
    overwrites_bind_of_quiet (not_overwrites_of_reads (reads_loadRecord mutationId))
      (onDisk_loadRecord hrecord), if_neg hstatus, Program.bind_eq, onDisk_bind_of_ok hchecked,
    overwrites_bind_of_quiet hchecks hchecked, Program.bind_eq]
  have hquiet : ¬ Overwrites (backUp W mutationId record.files) d path :=
    fun h => not_changesAt_of_uses (uses_backUp mutationId record.files)
      (by rintro ⟨name, hname⟩; cases hname) h.changesAt
  have hbytes := bytesAt_backUp (W := W) (d := d) mutationId record.files
  have hfaults := faults_backUp (W := W) (d := d) mutationId record.files .target (by decide)
  obtain ⟨hclear, d₁, hrun₁, -⟩ | ⟨hclear, failure, d₁, hrun₁⟩ :=
    onDisk_backUp (d := d) mutationId fun file hfile => (hcheck file hfile).1
  case inr =>
    rw [hrun₁] at hbytes
    rw [overwrites_bind_of_error hrun₁, onDisk_bind_of_error hrun₁, hbytes]
    exact ⟨iff_of_false hquiet fun h => hclear h.1, id⟩
  rw [hrun₁] at hbytes hfaults
  rw [overwrites_bind_of_quiet hquiet hrun₁, onDisk_bind_of_ok hrun₁, Program.bind_eq,
    and_iff_right hclear, ← hbytes]
  -- The loop over the targets, which starts from the files and the failures to come of `d`.
  have hover : Overwrites (writeTargets W (record.files.map (prepare W d)) []) d₁ path ↔
      ∃ file ∈ performed (FileRecord.valid W) (d.faults .target) record.files,
        file.target W = path := by
    rw [overwrites_writeTargets_iff, begunEntries, performed_map, hfaults]
    simp only [List.mem_map, exists_exists_and_eq_and]
    rfl
  obtain ⟨outcome, d₂, hrun₂⟩ := onDisk_writeTargets_written (W := W) (d := d₁)
    (record.files.map (prepare W d)) []
  rw [overwrites_bind_of_ok hrun₂, onDisk_bind_of_ok hrun₂, hover]
  have hthere : (bytesAt d₁ path).isSome → (bytesAt d₂ path).isSome := fun h => by
    have hkept := Disk.isSome_of_uses (d := d₁)
      (spares_writeTargets (W := W) (.file path) (record.files.map (prepare W d)) []) h
    rwa [show Program.run Disk.handle _ d₁ = _ from hrun₂] at hkept
  cases outcome with
  | ok files =>
      have hsave : ∀ saved : MutationRecord, ¬ Overwrites ((saveRecord .record saved).bind
          fun _ => (.ret saved : Task MutationRecord)) d₂ path :=
        fun saved h => not_overwrites_saveRecord .record saved
          ((Program.performs_bind_ret (g := fun _ => saved)).mp h)
      refine ⟨or_iff_left (hsave _), fun h => ?_⟩
      change (bytesAt (onDisk ((saveRecord .record _).bind fun _ => .ret _) d₂).2 path).isSome
      rw [onDisk_bind_ret_snd, bytesAt_saveRecord]
      exact hthere h
  | error failure =>
      -- The handler puts back only targets that were replaced, and removes none that was there.
      obtain ⟨entries, hentries⟩ : ∃ entries, entries =
        [] ++ (begunEntries W d₁ (record.files.map (prepare W d))).map Prepared.undo := ⟨_, rfl⟩
      have hbegun : ∀ entry ∈ entries, ∃ prepared ∈ begunEntries W d₁ (record.files.map (prepare W d)),
          prepared.undo = entry := by
        intro entry hentry
        rw [hentries, List.nil_append] at hentry
        exact List.mem_map.mp hentry
      rw [← hentries]
      change (_ ∨ Overwrites ((restoreAll .restore entries).bind fun _ => .raise _) d₂ path ↔ _) ∧
        (_ → (bytesAt (onDisk ((restoreAll .restore entries).bind fun _ => .raise _) d₂).2
          path).isSome)
      constructor
      · refine or_iff_left_of_imp fun h => ?_
        have huses : ((restoreAll .restore entries).bind fun _ =>
            (.raise (surfaced failure) : Task MutationRecord)).Uses
              (FileOp.Within (· = .restore) fun place => ∃ entry ∈ entries, place = .file entry.1) :=
          (uses_restoreEntries .restore entries).bind fun _ => trivial
        obtain ⟨entry, hentry, hpath⟩ := h.of_uses huses
          fun _ _ hop hevent => hop.of_changes hevent.changes
        obtain ⟨prepared, hprepared, rfl⟩ := hbegun entry hentry
        have htarget : prepared.target = path := by injection hpath with h; exact h.symm
        exact hover.mp ((overwrites_writeTargets_iff _ []).mpr ⟨prepared, hprepared, htarget⟩)
      · intro h
        rw [onDisk_bind_raise_snd]
        refine Disk.isSome_of_uses (spares_restoreAll ?_) (hthere h)
        intro entry hentry hpath
        obtain ⟨prepared, hprepared, rfl⟩ := hbegun entry hentry
        obtain ⟨file, -, rfl⟩ := List.mem_map.mp (performed_subset hprepared)
        have hsame : file.target W = path := hpath
        change (bytesAt d (file.target W)).isSome
        rwa [hsame, ← hbytes]

/-- Applying changes nothing where there is nothing to apply or a file is not as planned. -/
theorem applyMutation_of_not_checks (now : String)
    (h : ∀ record, ¬ ApplyChecks W d mutationId record) :
    (∀ location, ¬ ChangesAt (applyMutation W mutationId now) d location) ∧
      (onDisk (applyMutation W mutationId now) d).2 = d := by
  have hload := reads_loadRecord mutationId
  cases hrecord : recordAt d mutationId with
  | none =>
      obtain ⟨failure, hrun⟩ := onDisk_loadRecord_of_none hrecord
      rw [applyMutation, Program.bind_eq, onDisk_bind_of_error hrun]
      exact ⟨fun location hchanges => not_changesAt_of_reads hload
        ((changesAt_bind_of_error hrun).mp hchanges), rfl⟩
  | some record =>
      have hrun := onDisk_loadRecord hrecord
      rw [applyMutation, Program.bind_eq, onDisk_bind_of_ok hrun]
      by_cases hstatus : record.status = .applied
      · rw [if_pos hstatus]
        refine ⟨fun location hchanges => ?_, rfl⟩
        rw [changesAt_bind_of_reads hload hrun, if_pos hstatus] at hchanges
        exact hchanges
      · obtain ⟨hall, -⟩ | ⟨-, failure, hfails⟩ :=
          onDisk_checkUnchangedSincePlan (W := W) (d := d) record.files
        · exact (h record ⟨hrecord, hstatus, hall⟩).elim
        rw [if_neg hstatus, Program.bind_eq, onDisk_bind_of_error hfails]
        refine ⟨fun location hchanges => ?_, rfl⟩
        rw [changesAt_bind_of_reads hload hrun, if_neg hstatus, Program.bind_eq,
          changesAt_bind_of_error hfails] at hchanges
        exact not_changesAt_of_reads (reads_checkUnchangedSincePlan record.files) hchanges

/-- The targets that `apply_mutation` replaces; what was there is still there. -/
theorem overwrites_applyMutation_iff (now : String) :
    (Overwrites (applyMutation W mutationId now) d path ↔
        ∃ record, ApplyStarts W d mutationId record ∧
          ∃ file ∈ performed (FileRecord.valid W) (d.faults .target) record.files,
            file.target W = path) ∧
      ((bytesAt d path).isSome →
        (bytesAt (onDisk (applyMutation W mutationId now) d).2 path).isSome) := by
  by_cases hchecks : ∃ record, ApplyChecks W d mutationId record
  · obtain ⟨record, hrecord, hstatus, hcheck⟩ := hchecks
    obtain ⟨hover, hthere⟩ := @applyMutation_of_unchanged _ _ W d mutationId record path now
      hrecord hstatus hcheck
    refine ⟨hover.trans ⟨fun h => ⟨record, ⟨hrecord, hstatus, hcheck, h.1⟩, h.2⟩, ?_⟩, hthere⟩
    rintro ⟨other, hstarts, hfile⟩
    cases hstarts.recorded.symm.trans hrecord
    exact ⟨hstarts.backups, hfile⟩
  · obtain ⟨hquiet, hsame⟩ := applyMutation_of_not_checks now fun record hrecord =>
      hchecks ⟨record, hrecord⟩
    rw [hsame]
    refine ⟨iff_of_false (fun h => hquiet _ h.changesAt) ?_, id⟩
    rintro ⟨record, hstarts, -⟩
    exact hchecks ⟨record, hstarts.recorded, hstarts.planned, hstarts.unchanged⟩

end Apply

/-! ## Rolling back -/

/-- `rollback_mutation` gets as far as restoring targets. -/
structure RollbackStarts (W : Workspace Document Documents) (d : AgentDisk) (mutationId : String)
    (record : MutationRecord) : Prop where
  recorded : recordAt d mutationId = some record
  applied : record.status = .applied
  unchanged : AsExpected W (fun file => file.afterHash) d record.files

section Rollback

variable {mutationId : String} {record : MutationRecord} {files : List FileRecord} {path : Path}

/-- The files that a rollback restores: those in front of the first restoring that fails. -/
def restoredFiles (d : AgentDisk) (files : List FileRecord) : List FileRecord :=
  performed (fun _ => true) (d.faults .rollback) files

/-- Restoring a file replaces it if it has an original content. -/
theorem overwrites_restoreFile_iff {site : Site} {target : Path} {original : Option ByteArray}
    (hfault : d.faults site 0 = none) :
    Overwrites (restoreFile site target original) d path ↔ target = path ∧ original.isSome := by
  cases original with
  | none =>
      refine iff_of_false ?_ (by simp)
      rintro (hop | hrest)
      · exact hop
      · have hhandle : Disk.handle (.unlink site (.file target)) d =
            (none, (d.passed site).put (.file target) none) := Disk.attempt_of_none hfault
        rw [hhandle] at hrest
        exact hrest
  | some bytes =>
      have hhandle : Disk.handle (.write site (.file target) bytes) d =
          (none, (d.passed site).put (.file target) (some bytes)) := Disk.attempt_of_none hfault
      change FileOp.Replaces _ _ (Disk.handle _ d).1 ∨ Program.Performs _ _ _ _ ↔ _
      rw [hhandle]
      constructor
      · rintro (⟨-, hplace⟩ | hrest)
        · exact ⟨by injection hplace, rfl⟩
        · exact hrest.elim
      · rintro ⟨rfl, -⟩
        exact .inl ⟨rfl, rfl⟩

theorem not_overwrites_restoreFile {site : Site} {target : Path} {original : Option ByteArray}
    {error : String} (hfault : d.faults site 0 = some error) :
    ¬ Overwrites (restoreFile site target original) d path := by
  cases original with
  | none =>
      have hhandle : Disk.handle (.unlink site (.file target)) d = (some error, d.passed site) :=
        Disk.attempt_of_some hfault
      rintro (hop | hrest)
      · exact hop
      · rw [hhandle] at hrest
        exact hrest
  | some bytes =>
      have hhandle : Disk.handle (.write site (.file target) bytes) d =
          (some error, d.passed site) := Disk.attempt_of_some hfault
      rintro (hop | hrest)
      · rw [hhandle] at hop
        cases hop.1
      · rw [hhandle] at hrest
        exact hrest

/-- What the restoring loop replaces, and what it leaves behind, wherever it stops. -/
theorem restoreFromBackups_restores (hinside : ∀ file ∈ files, file.Inside W) :
    (Overwrites (restoreFromBackups W mutationId files) d path ↔
        ∃ file ∈ restoredFiles d files, file.target W = path ∧
          (backupAt d mutationId (safeBackupName file.relativePath)).isSome) ∧
      bytesAt (onDisk (restoreFromBackups W mutationId files) d).2 =
        updateAll (bytesAt d)
          ((restoredFiles d files).map (FileRecord.fromBackup W d mutationId)) := by
  induction files generalizing d with
  | nil => exact ⟨iff_of_false not_false (by simp [restoredFiles, performed]), rfl⟩
  | cons file files ih =>
      obtain ⟨hfile, hfiles⟩ := List.forall_mem_cons.mp hinside
      obtain ⟨original, horiginal⟩ : ∃ original, original =
        backupAt d mutationId (safeBackupName file.relativePath) := ⟨_, rfl⟩
      have hread : ¬ Overwrites (readBackup mutationId (safeBackupName file.relativePath)) d path :=
        fun h => h.elim not_false not_false
      rw [restoreFromBackups, resolveWithinRoot_of_inside hfile]
      simp only [Program.bind_eq, Program.ofExcept, Program.bind]
      rw [onDisk_bind_of_ok (onDisk_readBackup _ _),
        overwrites_bind_of_quiet hread (onDisk_readBackup _ _), ← horiginal, restoredFiles, performed]
      cases hfault : d.faults .rollback 0 with
      | some error =>
          have hrun : onDisk (restoreFile .rollback (file.target W) original) d = _ :=
            onDisk_restoreFile_of_some hfault
          rw [overwrites_bind_of_error hrun, onDisk_bind_of_error hrun]
          exact ⟨iff_of_false (not_overwrites_restoreFile hfault) (by simp), rfl⟩
      | none =>
          obtain ⟨d₁, hd₁⟩ : ∃ d₁, d₁ = (d.passed .rollback).put (.file (file.target W)) original :=
            ⟨_, rfl⟩
          have hrun : onDisk (restoreFile .rollback (file.target W) original) d = _ :=
            onDisk_restoreFile_of_none hfault
          rw [← hd₁] at hrun
          have hbackups : ∀ name, backupAt d₁ mutationId name = backupAt d mutationId name := by
            intro name
            rw [hd₁]
            exact Disk.put_content_of_ne (by simp)
          have hfrom : FileRecord.fromBackup W d₁ mutationId =
              FileRecord.fromBackup W d mutationId := by
            funext other
            rw [FileRecord.fromBackup, FileRecord.fromBackup, hbackups]
          have hrest : restoredFiles d₁ files =
              performed (fun _ => true) (fun n => d.faults .rollback (n + 1)) files := by
            rw [restoredFiles, hd₁, Disk.put_faults, Disk.passed_faults_self]
          have hbytes : bytesAt d₁ = Function.update (bytesAt d) (file.target W) original := by
            funext other
            rw [hd₁, bytesAt_put]
            rfl
          obtain ⟨hover, hleft⟩ := ih (d := d₁) hfiles
          rw [hrest] at hover hleft
          rw [overwrites_bind_of_ok hrun, onDisk_bind_of_ok hrun, hover,
            overwrites_restoreFile_iff hfault, hleft, hfrom, hbytes]
          simp only [hbackups, if_true, List.mem_cons, exists_eq_or_imp, List.map_cons,
            updateAll_cons, horiginal]
          exact ⟨trivial, rfl⟩

/-- What rolling back does, from the restoring on. -/
theorem rollbackMutation_of_unchanged (now : String)
    (hrecord : recordAt d mutationId = some record) (hstatus : record.status = .applied)
    (hcheck : AsExpected W (fun file => file.afterHash) d record.files) :
    (Overwrites (rollbackMutation W mutationId now) d path ↔
        ∃ file ∈ restoredFiles d record.files, file.target W = path ∧
          (backupAt d mutationId (safeBackupName file.relativePath)).isSome) ∧
      bytesAt (onDisk (rollbackMutation W mutationId now) d).2 =
        updateAll (bytesAt d)
          ((restoredFiles d record.files).map (FileRecord.fromBackup W d mutationId)) := by
  have hchecked := checkUnchangedSinceApply_passes hcheck
  have hchecks : ¬ Overwrites (checkUnchangedSinceApply W record.files) d path :=
    not_overwrites_of_reads (reads_checkUnchangedSinceApply record.files)
  rw [rollbackMutation, Program.bind_eq, onDisk_bind_of_ok (onDisk_loadRecord hrecord),
    overwrites_bind_of_quiet (not_overwrites_of_reads (reads_loadRecord mutationId))
      (onDisk_loadRecord hrecord), hstatus]
  simp only [Program.bind_eq]
  rw [onDisk_bind_of_ok hchecked, overwrites_bind_of_quiet hchecks hchecked]
  obtain ⟨hover, hbytes⟩ := @restoreFromBackups_restores _ _ W d mutationId record.files path
    fun file hfile => (hcheck file hfile).1
  rcases hrun : onDisk (restoreFromBackups W mutationId record.files) d with ⟨result, d₁⟩
  rw [hrun] at hbytes
  cases result with
  | error failure =>
      rw [overwrites_bind_of_error hrun, onDisk_bind_of_error hrun]
      exact ⟨hover, hbytes⟩
  | ok value =>
      have hsave : ∀ saved : MutationRecord, ¬ Overwrites ((saveRecord .record saved).bind
          fun _ => (.ret saved : Task MutationRecord)) d₁ path :=
        fun saved h => not_overwrites_saveRecord .record saved
          ((Program.performs_bind_ret (g := fun _ => saved)).mp h)
      rw [overwrites_bind_of_ok hrun, onDisk_bind_of_ok hrun]
      refine ⟨(or_iff_left (hsave _)).trans hover, ?_⟩
      rw [← hbytes]
      change bytesAt (onDisk ((saveRecord .record _).bind fun _ => .ret _) d₁).2 = _
      rw [onDisk_bind_ret_snd, bytesAt_saveRecord]

/-- A rollback that does not start changes nothing. -/
theorem rollbackMutation_of_not_starts (now : String)
    (h : ∀ record, ¬ RollbackStarts W d mutationId record) :
    (∀ location, ¬ ChangesAt (rollbackMutation W mutationId now) d location) ∧
      (onDisk (rollbackMutation W mutationId now) d).2 = d := by
  have hload := reads_loadRecord mutationId
  cases hrecord : recordAt d mutationId with
  | none =>
      obtain ⟨failure, hrun⟩ := onDisk_loadRecord_of_none hrecord
      rw [rollbackMutation, Program.bind_eq, onDisk_bind_of_error hrun]
      exact ⟨fun location hchanges => not_changesAt_of_reads hload
        ((changesAt_bind_of_error hrun).mp hchanges), rfl⟩
  | some record =>
      have hrun := onDisk_loadRecord hrecord
      rw [rollbackMutation, Program.bind_eq, onDisk_bind_of_ok hrun]
      simp only [changesAt_bind_of_reads hload hrun]
      cases hstatus : record.status with
      | planned => exact ⟨fun _ => not_false, rfl⟩
      | rolledBack => exact ⟨fun _ => not_false, rfl⟩
      | applied =>
          obtain ⟨hall, -⟩ | ⟨-, failure, hfails⟩ :=
            onDisk_checkUnchangedSinceApply (W := W) (d := d) record.files
          · exact (h record ⟨hrecord, hstatus, hall⟩).elim
          simp only [Program.bind_eq]
          rw [onDisk_bind_of_error hfails]
          refine ⟨fun location hchanges => ?_, rfl⟩
          rw [changesAt_bind_of_error hfails] at hchanges
          exact not_changesAt_of_reads (reads_checkUnchangedSinceApply record.files) hchanges

/-- The file is put back in the end: the last of the files with this target has a backup. -/
def PutBack (W : Workspace Document Documents) (d : AgentDisk) (mutationId : String)
    (files : List FileRecord) (path : Path) : Prop :=
  ∃ before bytes after, files.map (FileRecord.fromBackup W d mutationId) =
    before ++ (path, some bytes) :: after ∧ path ∉ after.map Prod.fst

/-- The file is put back exactly if it is replaced and there in the end. -/
theorem putBack_iff (content : Path → Option ByteArray) :
    PutBack W d mutationId files path ↔
      (∃ file ∈ files, file.target W = path ∧
          (backupAt d mutationId (safeBackupName file.relativePath)).isSome) ∧
        (updateAll content (files.map (FileRecord.fromBackup W d mutationId)) path).isSome := by
  constructor
  · rintro ⟨before, bytes, after, hfiles, hlast⟩
    have hmem : (path, some bytes) ∈ files.map (FileRecord.fromBackup W d mutationId) := by
      rw [hfiles]
      exact List.mem_append_right before List.mem_cons_self
    obtain ⟨file, hfile, heq⟩ := List.mem_map.mp hmem
    rw [FileRecord.fromBackup, Prod.mk.injEq] at heq
    refine ⟨⟨file, hfile, heq.1, by rw [heq.2, Option.isSome_some]⟩, ?_⟩
    rw [hfiles, updateAll_of_last hlast, Option.isSome_some]
  · rintro ⟨⟨file, hfile, hpath, -⟩, hthere⟩
    have hmem : path ∈ (files.map (FileRecord.fromBackup W d mutationId)).map Prod.fst :=
      List.mem_map.mpr ⟨_, List.mem_map_of_mem hfile, hpath⟩
    obtain ⟨before, original, after, hfiles, hlast⟩ := exists_last hmem
    rw [hfiles, updateAll_of_last hlast] at hthere
    obtain ⟨bytes, rfl⟩ := Option.isSome_iff_exists.mp hthere
    exact ⟨before, bytes, after, hfiles, hlast⟩

end Rollback

/-! ## Permissions -/

section Permissions

variable {t : ProjectTree} {mutationId now : String} {path : Path} {bits : ℕ}

/-- The path is a target of the recorded mutation. -/
def MutationTarget (W : Workspace Document Documents) (d : AgentDisk) (mutationId : String)
    (path : Path) : Prop :=
  ∃ record, recordAt d mutationId = some record ∧ IsTarget W record.files path

/-- The mutation has no backup of the target, so that rolling it back removes the file. -/
def WithoutBackup (W : Workspace Document Documents) (d : AgentDisk) (mutationId : String)
    (path : Path) : Prop :=
  ∃ record, recordAt d mutationId = some record ∧ ∃ file ∈ record.files, file.target W = path ∧
    backupAt d mutationId (safeBackupName file.relativePath) = none

theorem permissionsAt_applyMutation_iff (h : permissionsAt t path = some bits) :
    permissionsAt (onTree (applyMutation W mutationId now) t).2 path = some bits ↔
      ∀ record, ApplyStarts W t.disk mutationId record →
        ∀ file ∈ performed (FileRecord.valid W) (t.disk.faults .target) record.files,
          file.target W = path → bits = mkstempMode := by
  obtain ⟨hover, hthere⟩ := @overwrites_applyMutation_iff _ _ W t.disk mutationId path now
  rw [permissionsAt_onTree_iff h (hthere (permissionsAt_eq_some_iff.mp h).1), hover]
  constructor
  · intro hbits record hstarts file hfile hpath
    exact hbits ⟨record, hstarts, file, hfile, hpath⟩
  · rintro hbits ⟨record, hstarts, file, hfile, hpath⟩
    exact hbits record hstarts file hfile hpath

theorem permissionsAt_rollbackMutation_iff (h : permissionsAt t path = some bits) :
    (permissionsAt (onTree (rollbackMutation W mutationId now) t).2 path = some bits ∨
        permissionsAt (onTree (rollbackMutation W mutationId now) t).2 path = none ∧
          WithoutBackup W t.disk mutationId path) ↔
      ∀ record, RollbackStarts W t.disk mutationId record →
        PutBack W t.disk mutationId (restoredFiles t.disk record.files) path →
          bits = mkstempMode := by
  have hbefore := (permissionsAt_eq_some_iff.mp h).1
  by_cases hstarts : ∃ record, RollbackStarts W t.disk mutationId record
  case neg =>
    obtain ⟨hquiet, hsame⟩ := rollbackMutation_of_not_starts now fun record hstart =>
      hstarts ⟨record, hstart⟩
    have hstill : (bytesAt (onDisk (rollbackMutation W mutationId now) t.disk).2 path).isSome := by
      rwa [hsame]
    exact iff_of_true (.inl ((permissionsAt_onTree_iff h hstill).mpr
      fun hover => (hquiet _ hover.changesAt).elim)) fun record hstart => (hstarts ⟨record, hstart⟩).elim
  obtain ⟨record, hstart⟩ := hstarts
  have honly : (∀ other, RollbackStarts W t.disk mutationId other →
      PutBack W t.disk mutationId (restoredFiles t.disk other.files) path → bits = mkstempMode) ↔
      (PutBack W t.disk mutationId (restoredFiles t.disk record.files) path →
        bits = mkstempMode) := by
    refine ⟨fun hall => hall record hstart, fun hone other hother => ?_⟩
    cases hother.recorded.symm.trans hstart.recorded
    exact hone
  obtain ⟨hover, hafter⟩ := @rollbackMutation_of_unchanged _ _ W t.disk mutationId record path now
    hstart.recorded hstart.applied hstart.unchanged
  rw [honly, putBack_iff (bytesAt t.disk), ← hafter, ← hover]
  cases hthere : bytesAt (onDisk (rollbackMutation W mutationId now) t.disk).2 path with
  | some bytes =>
      have hstill : (bytesAt (onDisk (rollbackMutation W mutationId now) t.disk).2 path).isSome := by
        rw [hthere, Option.isSome_some]
      have hnot : permissionsAt (onTree (rollbackMutation W mutationId now) t).2 path ≠ none := by
        rw [Ne, permissionsAt_eq_none_iff, onTree_disk, hthere]
        simp
      rw [or_iff_left fun hgone => hnot hgone.1, permissionsAt_onTree_iff h hstill]
      simp
  | none =>
      -- A file that is gone was removed, so it has no backup.
      refine iff_of_true (.inr ⟨?_, record, hstart.recorded, ?_⟩) (by simp)
      · rw [permissionsAt_eq_none_iff, onTree_disk, hthere]
      · have hmem : path ∈ ((restoredFiles t.disk record.files).map
            (FileRecord.fromBackup W t.disk mutationId)).map Prod.fst := by
          by_contra hnot
          rw [hafter, updateAll_of_not_mem hnot] at hthere
          rw [hthere] at hbefore
          cases hbefore
        have hlast := updateAll_mem (f := bytesAt t.disk) hmem
        rw [← hafter, hthere] at hlast
        obtain ⟨file, hfile, heq⟩ := List.mem_map.mp hlast
        rw [FileRecord.fromBackup, Prod.mk.injEq] at heq
        exact ⟨file, performed_subset hfile, heq.1, heq.2⟩

/-- For every disk, every record and every choice of failing writes: applying a mutation
keeps the permissions of its targets exactly if those that it replaces had the permissions
of a new file before, and rolling it back keeps them exactly if those that it puts back had
them, where a target without a backup is removed. -/
theorem permissions_survive_iff (t : ProjectTree) (mutationId now : String) :
    ((∀ path bits, MutationTarget W t.disk mutationId path → permissionsAt t path = some bits →
        permissionsAt (onTree (applyMutation W mutationId now) t).2 path = some bits) ↔
      ∀ record, ApplyStarts W t.disk mutationId record →
        ∀ file ∈ performed (FileRecord.valid W) (t.disk.faults .target) record.files,
          ∀ bits, permissionsAt t (file.target W) = some bits → bits = mkstempMode) ∧
    ((∀ path bits, MutationTarget W t.disk mutationId path → permissionsAt t path = some bits →
        permissionsAt (onTree (rollbackMutation W mutationId now) t).2 path = some bits ∨
          permissionsAt (onTree (rollbackMutation W mutationId now) t).2 path = none ∧
            WithoutBackup W t.disk mutationId path) ↔
      ∀ record, RollbackStarts W t.disk mutationId record →
        ∀ path, PutBack W t.disk mutationId (restoredFiles t.disk record.files) path →
          ∀ bits, permissionsAt t path = some bits → bits = mkstempMode) := by
  constructor
  · constructor
    · intro hkept record hstarts file hfile bits hbits
      have htarget : MutationTarget W t.disk mutationId (file.target W) :=
        ⟨record, hstarts.recorded, file, performed_subset hfile, rfl⟩
      exact (permissionsAt_applyMutation_iff hbits).mp (hkept _ bits htarget hbits) record hstarts
        file hfile rfl
    · intro hnew path bits _ hbits
      refine (permissionsAt_applyMutation_iff hbits).mpr ?_
      rintro record hstarts file hfile rfl
      exact hnew record hstarts file hfile bits hbits
  · constructor
    · intro hkept record hstarts path hput bits hbits
      obtain ⟨⟨file, hfile, hpath, -⟩, -⟩ := (putBack_iff (bytesAt t.disk)).mp hput
      have htarget : MutationTarget W t.disk mutationId path :=
        ⟨record, hstarts.recorded, file, performed_subset hfile, hpath⟩
      exact (permissionsAt_rollbackMutation_iff hbits).mp (hkept path bits htarget hbits) record
        hstarts hput
    · intro hnew path bits _ hbits
      refine (permissionsAt_rollbackMutation_iff hbits).mpr ?_
      exact fun record hstarts hput => hnew record hstarts path hput bits hbits

end Permissions

/-- A project file that others may read, with a plan that updates it. -/
def sampleTree : ProjectTree where
  disk := sampleDisk [(".env", "PORT=80\n")] [samplePlan.record] fun _ _ => none
  mode _ := 0o644

/-- Applying a plan leaves a file that only its owner may read. -/
theorem applyMutation_narrowsPermissions :
    MutationTarget sampleWorkspace sampleTree.disk "m1" ["project", ".env"] ∧
      permissionsAt sampleTree ["project", ".env"] = some 0o644 ∧
      permissionsAt (onTree (applyMutation sampleWorkspace "m1" "now") sampleTree).2
        ["project", ".env"] = some 0o600 :=
  ⟨⟨samplePlan.record, rfl, _, List.mem_cons_self, by decide⟩, by decide, by decide⟩

end Agent
