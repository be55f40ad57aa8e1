/-
# Runs over many mutations

Mutations that share files are persisted, applied and rolled back in any order the
hash checks allow. Every applied mutation stands for one edit of each of its files,
from its backup to its planned content, and these edits stay in balance: once none
stands, every file is as it was at the start.
-/

import PortForge.Agent.ApplyAtomicity
import PortForge.Effects.Undo
import Mathlib.Data.List.Nodup

namespace Agent

open Effects

variable {Document Documents : Type} {W : Workspace Document Documents} {d : AgentDisk}

/-! ## Runs -/

/-- The files have distinct targets and distinct backup names. -/
structure Separate (W : Workspace Document Documents) (files : List FileRecord) : Prop where
  targets : (files.map (FileRecord.target W)).Nodup
  backups : (files.map fun file => safeBackupName file.relativePath).Nodup

/-- A call that returned. -/
inductive Event
  | applied (mutationId : String)
  | rolledBack (mutationId : String)
  deriving DecidableEq, Repr

/-- The history with a call, if it returned. -/
def noted (history : List Event) (event : Event) (result : Except ConfigFailure MutationRecord) :
    List Event :=
  match result with
  | .ok _ => history ++ [event]
  | .error _ => history

/-- A run: its history and the disk it left. A plan is persisted once, under an identifier
that was drawn for it. -/
inductive Run (W : Workspace Document Documents) (start : AgentDisk) : List Event → AgentDisk → Prop
  | start : Run W start [] start
  | persist {history : List Event} {d : AgentDisk} (plan : ConfigPlan) (h : Run W start history d)
      (hfresh : recordAt d plan.mutationId = none) (hseparate : Separate W plan.record.files) :
      Run W start history (onDisk (persistPlan plan) d).2
  | apply {history : List Event} {d : AgentDisk} (mutationId now : String)
      (h : Run W start history d) :
      Run W start
        (noted history (.applied mutationId) (onDisk (applyMutation W mutationId now) d).1)
        (onDisk (applyMutation W mutationId now) d).2
  | rollback {history : List Event} {d : AgentDisk} (mutationId now : String)
      (h : Run W start history d) :
      Run W start
        (noted history (.rolledBack mutationId) (onDisk (rollbackMutation W mutationId now) d).1)
        (onDisk (rollbackMutation W mutationId now) d).2

/-- The mutation was applied and not rolled back since. -/
def Standing (history : List Event) (mutationId : String) : Prop :=
  ∃ before after, history = before ++ .applied mutationId :: after ∧ .rolledBack mutationId ∉ after

theorem standing_applied (history : List Event) (mutationId : String) :
    Standing (history ++ [.applied mutationId]) mutationId := ⟨history, [], rfl, List.not_mem_nil⟩

theorem Standing.append {history : List Event} {mutationId : String} {event : Event}
    (h : Standing history mutationId) (hevent : event ≠ .rolledBack mutationId) :
    Standing (history ++ [event]) mutationId := by
  obtain ⟨before, after, rfl, hafter⟩ := h
  refine ⟨before, after ++ [event], by rw [List.append_assoc, List.cons_append], fun hmem => ?_⟩
  rcases List.mem_append.mp hmem with hmem | hmem
  · exact hafter hmem
  · exact hevent (List.mem_singleton.mp hmem).symm

/-! ## What a mutation changes -/

/-- The contents of a file before and after the mutation was applied, by its backup and
its plan. -/
def FileRecord.change (d : AgentDisk) (mutationId : String) (file : FileRecord) :
    Option ByteArray × Option ByteArray :=
  (backupAt d mutationId (safeBackupName file.relativePath), some file.rendered)

/-- What the mutation changes at a path. -/
def changeAt (W : Workspace Document Documents) (d : AgentDisk) (path : Path)
    (mutationId : String) :
    Option (Option ByteArray × Option ByteArray) :=
  (recordAt d mutationId).bind fun record =>
    (record.files.find? fun file => file.target W = path).map (FileRecord.change d mutationId)

theorem changeAt_congr {d' : AgentDisk} {mutationId : String} (path : Path)
    (hrecord : recordAt d' mutationId = recordAt d mutationId)
    (hbackups : ∀ name, backupAt d' mutationId name = backupAt d mutationId name) :
    changeAt W d' path mutationId = changeAt W d path mutationId := by
  have hchange : FileRecord.change d' mutationId = FileRecord.change d mutationId := by
    funext file
    rw [FileRecord.change, FileRecord.change, hbackups]
  rw [changeAt, changeAt, hrecord, hchange]

/-- What happens to one mutation leaves the changes of the others. -/
theorem changes_congr {d' : AgentDisk} {mutationId : String} {active : List String} (path : Path)
    (hnotmem : mutationId ∉ active)
    (hrecords : ∀ other, other ≠ mutationId → recordAt d' other = recordAt d other)
    (hbackups : ∀ other name, other ≠ mutationId → backupAt d' other name = backupAt d other name) :
    active.filterMap (changeAt W d' path) = active.filterMap (changeAt W d path) := by
  apply List.filterMap_congr
  intro other hother
  have hne : other ≠ mutationId := fun heq => hnotmem (heq ▸ hother)
  exact changeAt_congr path (hrecords other hne) fun name => hbackups other name hne

/-- Where no file has the backup name, none was made. -/
theorem lastBackup_of_not_mem {content : Path → Option ByteArray} {name : String}
    {files : List FileRecord} (h : name ∉ files.map fun file => safeBackupName file.relativePath) :
    lastBackup W content name files = none := by
  induction files with
  | nil => rfl
  | cons file files ih =>
      rw [List.map_cons, List.mem_cons, not_or] at h
      rw [lastBackup, ih h.2, if_neg fun hsame => h.1 hsame.symm, Option.or_none]

/-- Where the backup names are distinct, a backup holds its own file's content. -/
theorem lastBackup_of_nodup {content : Path → Option ByteArray} {files : List FileRecord}
    (h : (files.map fun file => safeBackupName file.relativePath).Nodup) {file : FileRecord}
    (hfile : file ∈ files) :
    lastBackup W content (safeBackupName file.relativePath) files = content (file.target W) := by
  induction files with
  | nil => cases hfile
  | cons first files ih =>
      rw [List.map_cons, List.nodup_cons] at h
      rcases List.mem_cons.mp hfile with rfl | hfile
      · rw [lastBackup, lastBackup_of_not_mem h.1, if_pos rfl, Option.none_or]
      · have hname : safeBackupName first.relativePath ≠ safeBackupName file.relativePath :=
          fun hsame => h.1 (hsame ▸ List.mem_map_of_mem hfile)
        rw [lastBackup, ih h.2 hfile, if_neg hname, Option.or_none]

/-- Where the targets are distinct, every path gets the value of its file, if it has one. -/
theorem updateAll_targets {files : List FileRecord} (h : (files.map (FileRecord.target W)).Nodup)
    (content : Path → Option ByteArray) (value : FileRecord → Option ByteArray) (path : Path) :
    updateAll content (files.map fun file => (file.target W, value file)) path =
      ((files.find? fun file => file.target W = path).map value).getD (content path) := by
  have hfst : (files.map fun file => (file.target W, value file)).map Prod.fst =
      files.map (FileRecord.target W) := by
    rw [List.map_map]
    rfl
  cases hfind : files.find? fun file => file.target W = path with
  | none =>
      refine updateAll_of_not_mem ?_
      rw [hfst, List.mem_map]
      rintro ⟨file, hfile, htarget⟩
      exact absurd htarget (by simpa using List.find?_eq_none.mp hfind file hfile)
  | some file =>
      have htarget : file.target W = path := by simpa using List.find?_some hfind
      rw [← htarget]
      exact updateAll_of_nodup (hfst ▸ h) (List.mem_map_of_mem (List.mem_of_find?_eq_some hfind))

/-! ## Frames -/

/-- The places a call on a mutation can change, apart from records. -/
def Touched (mutationId : String) (place : Location) : Prop :=
  match place with
  | .file _ => True
  | .record _ => True
  | .backup other _ => other = mutationId

/-- What a call on a mutation may do. -/
abbrev TouchesOnly (mutationId : String) : FileOp Site Location Content → Prop :=
  FileOp.Within (fun _ => True) (Touched mutationId)

theorem uses_saveRecord (mutationId : String) (site : Site) (record : MutationRecord) :
    (saveRecord site record).Uses (TouchesOnly mutationId) :=
  ⟨⟨trivial, trivial⟩, fun (answer : Option String) => by cases answer <;> exact trivial⟩

theorem uses_checkUnchanged (mutationId : String) (expected : FileRecord → Option String)
    (code reason : String) (files : List FileRecord) :
    (checkUnchanged W expected code reason files).Uses (TouchesOnly mutationId) := by
  induction files with
  | nil => exact trivial
  | cons file files ih =>
      refine (Program.uses_ofExcept _).bind fun target => ⟨trivial, fun live => ?_⟩
      change Program.Uses _ (ite _ _ _)
      split
      · exact ih
      · exact trivial

theorem uses_applyMutation (mutationId now : String) :
    (applyMutation W mutationId now).Uses (TouchesOnly mutationId) := by
  refine Program.Uses.bind ⟨trivial, fun (answer : Option MutationRecord) => ?_⟩ fun record => ?_
  · cases answer <;> exact trivial
  · by_cases hstatus : record.status = .applied
    · rw [if_pos hstatus]
      exact trivial
    · rw [if_neg hstatus]
      refine (uses_checkUnchanged mutationId _ _ _ record.files).bind fun _ => ?_
      refine ((uses_backUp mutationId record.files).mono
        (FileOp.Within.mono (fun _ _ => trivial) ?_)).bind fun prepared => ?_
      · rintro place ⟨name, rfl⟩
        exact rfl
      refine ((uses_writeTargets prepared []).mono
        (FileOp.Within.mono (fun _ _ => trivial) ?_)).bind fun result => ?_
      · rintro place ⟨path, rfl⟩
        exact trivial
      obtain ⟨written, outcome⟩ := result
      cases outcome with
      | error failure =>
          refine ((uses_restoreAll .restore written).mono
            (FileOp.Within.mono (fun _ _ => trivial) ?_)).bind fun _ => trivial
          rintro place ⟨path, rfl⟩
          exact trivial
      | ok files => exact (uses_saveRecord mutationId .record _).bind fun _ => trivial

/-- Applying a mutation leaves the backups of every other mutation alone. -/
theorem backupAt_applyMutation {mutationId other : String} (now name : String)
    (h : other ≠ mutationId) :
    backupAt (onDisk (applyMutation W mutationId now) d).2 other name = backupAt d other name :=
  Disk.run_content_of_uses (uses_applyMutation mutationId now) h

/-! ## The invariant -/

/-- What holds of the record of a mutation and its backups. -/
structure WellKept (W : Workspace Document Documents) (d : AgentDisk) (mutationId : String)
    (record : MutationRecord) : Prop where
  named : record.mutationId = mutationId
  separate : Separate W record.files
  /-- A file that is to be absent has no backup. -/
  absent : ∀ file ∈ record.files, file.beforeHash = none →
    backupAt d mutationId (safeBackupName file.relativePath) = none
  hashed : record.status = .applied →
    ∀ file ∈ record.files, file.afterHash = some (W.sha256 file.rendered)

/-- The record says that the mutation is applied. -/
def IsApplied (d : AgentDisk) (mutationId : String) : Prop :=
  ∃ record, recordAt d mutationId = some record ∧ record.status = .applied

/-- The edits of the mutations that stand account for the present contents. -/
def Accounted (W : Workspace Document Documents) (start d : AgentDisk) (active : List String) :
    Prop :=
  ∀ path, Balanced (bytesAt start path) (bytesAt d path) (active.filterMap (changeAt W d path))

/-- What every run keeps. -/
structure Kept (W : Workspace Document Documents) (start : AgentDisk) (history : List Event)
    (d : AgentDisk) : Prop where
  reliable : d.Reliable
  fresh : ∀ mutationId, recordAt d mutationId = none → ∀ name, backupAt d mutationId name = none
  records : ∀ mutationId record, recordAt d mutationId = some record →
      WellKept W d mutationId record
  standing : ∀ mutationId, IsApplied d mutationId → Standing history mutationId
  accounted : ∃ active : List String, active.Nodup ∧
    (∀ mutationId, mutationId ∈ active ↔ IsApplied d mutationId) ∧ Accounted W start d active

section Steps

variable {start d' : AgentDisk} {history : List Event} {mutationId now : String}
  {record : MutationRecord}

theorem isApplied_congr (h : recordAt d' mutationId = recordAt d mutationId) :
    IsApplied d' mutationId ↔ IsApplied d mutationId := by
  rw [IsApplied, IsApplied, h]

/-- A call that returned without changing anything. -/
theorem Kept.idle (h : Kept W start history d) {event : Event}
    {result : Except ConfigFailure MutationRecord}
    (hevent : ∀ other, IsApplied d other → event ≠ .rolledBack other) :
    Kept W start (noted history event result) d := by
  refine ⟨h.reliable, h.fresh, h.records, fun other hother => ?_, h.accounted⟩
  cases result with
  | error failure => exact h.standing other hother
  | ok record => exact (h.standing other hother).append (hevent other hother)

/-- A step that leaves files and records alone, and makes backups of one mutation only. -/
theorem Kept.of_backups (h : Kept W start history d) (hrecord : recordAt d mutationId = some record)
    (hstatus : record.status ≠ .applied) (hreliable : d'.Reliable) (hbytes : bytesAt d' = bytesAt d)
    (hrecords : recordAt d' = recordAt d)
    (hothers : ∀ other name, other ≠ mutationId → backupAt d' other name = backupAt d other name)
    (hbackups : ∀ name bytes, backupAt d' mutationId name = some bytes →
      backupAt d mutationId name = some bytes ∨
        ∃ file ∈ record.files, safeBackupName file.relativePath = name ∧
          file.beforeHash = some (W.sha256 bytes)) :
    Kept W start history d' := by
  have hkept := h.records mutationId record hrecord
  have happlied : ∀ other, IsApplied d' other ↔ IsApplied d other :=
    fun other => isApplied_congr (congrFun hrecords other)
  have hidle : ¬ IsApplied d mutationId := by
    rintro ⟨other, hother, hsame⟩
    rw [hrecord, Option.some_inj] at hother
    exact hstatus (hother ▸ hsame)
  refine ⟨hreliable, fun other hother name => ?_, fun other found hfound => ?_,
    fun other hother => h.standing other ((happlied other).mp hother), ?_⟩
  · rw [hrecords] at hother
    have hne : other ≠ mutationId := fun heq => by
      rw [heq, hrecord] at hother
      cases hother
    rw [hothers other name hne]
    exact h.fresh other hother name
  · rw [hrecords] at hfound
    have hold := h.records other found hfound
    refine ⟨hold.named, hold.separate, fun file hfile hnone => ?_, hold.hashed⟩
    by_cases hother : other = mutationId
    · subst hother
      obtain rfl : record = found := Option.some_inj.mp (hrecord.symm.trans hfound)
      cases hbackup : backupAt d' other (safeBackupName file.relativePath) with
      | none => rfl
      | some bytes =>
          rcases hbackups _ bytes hbackup with hsame | ⟨source, hsource, hname, hhash⟩
          · rw [hold.absent file hfile hnone] at hsame
            cases hsame
          · have heq : source = file :=
              List.inj_on_of_nodup_map hold.separate.backups hsource hfile hname
            rw [heq, hnone] at hhash
            cases hhash
    · rw [hothers other _ hother]
      exact hold.absent file hfile hnone
  · obtain ⟨active, hnodup, hactive, hbalanced⟩ := h.accounted
    refine ⟨active, hnodup, fun other => (hactive other).trans (happlied other).symm,
        fun path => ?_⟩
    have hnotmem : mutationId ∉ active := fun hmem => hidle ((hactive mutationId).mp hmem)
    rw [hbytes, changes_congr path hnotmem (fun other _ => congrFun hrecords other) hothers]
    exact hbalanced path

/-- Persisting a plan under a fresh identifier. -/
theorem Kept.persist (h : Kept W start history d) {plan : ConfigPlan}
    (hfresh : recordAt d plan.mutationId = none) (hseparate : Separate W plan.record.files) :
    Kept W start history (onDisk (persistPlan plan) d).2 := by
  have hrun : (onDisk (persistPlan plan) d).2 =
      (d.passed .plan).put (.record plan.mutationId) (some plan.record) :=
    congrArg Prod.snd (onDisk_atomicWrite_of_none (h.reliable .plan 0))
  rw [hrun]
  obtain ⟨d', hd'⟩ : ∃ d', d' = (d.passed .plan).put (.record plan.mutationId) (some plan.record) :=
    ⟨_, rfl⟩
  rw [← hd']
  have hbytes : bytesAt d' = bytesAt d := by
    funext path
    rw [hd']
    exact Disk.put_content_of_ne (by simp)
  have hbackups : ∀ other name, backupAt d' other name = backupAt d other name := by
    intro other name
    rw [hd']
    exact Disk.put_content_of_ne (by simp)
  have hrecord : recordAt d' plan.mutationId = some plan.record := by
    rw [hd']
    exact Disk.put_content_self
  have hothers : ∀ other, other ≠ plan.mutationId → recordAt d' other = recordAt d other := by
    intro other hother
    rw [hd']
    exact Disk.put_content_of_ne fun heq => hother (by injection heq)
  have happlied : ∀ other, IsApplied d' other ↔ IsApplied d other := by
    intro other
    by_cases hother : other = plan.mutationId
    · subst hother
      simp [IsApplied, hrecord, hfresh, ConfigPlan.record]
    · exact isApplied_congr (hothers other hother)
  refine ⟨?_, fun other hother name => ?_, fun other found hfound => ?_,
    fun other hother => h.standing other ((happlied other).mp hother), ?_⟩
  · rw [hd']
    exact h.reliable.passed
  · have hne : other ≠ plan.mutationId := fun heq => by
      rw [heq, hrecord] at hother
      cases hother
    rw [hbackups]
    exact h.fresh other (hothers other hne ▸ hother) name
  · by_cases hother : other = plan.mutationId
    · subst hother
      obtain rfl : plan.record = found := Option.some_inj.mp (hrecord.symm.trans hfound)
      refine ⟨rfl, hseparate, fun file _ _ => ?_, fun hstatus => ?_⟩
      · rw [hbackups]
        exact h.fresh _ hfresh _
      · cases hstatus
    · rw [hothers other hother] at hfound
      have hold := h.records other found hfound
      refine ⟨hold.named, hold.separate, fun file hfile hnone => ?_, hold.hashed⟩
      rw [hbackups]
      exact hold.absent file hfile hnone
  · obtain ⟨active, hnodup, hactive, hbalanced⟩ := h.accounted
    refine ⟨active, hnodup, fun other => (hactive other).trans (happlied other).symm,
        fun path => ?_⟩
    have hnotmem : plan.mutationId ∉ active := by
      intro hmem
      obtain ⟨found, hfound, -⟩ := (hactive plan.mutationId).mp hmem
      rw [hfresh] at hfound
      cases hfound
    rw [hbytes, changes_congr path hnotmem hothers fun other name _ => hbackups other name]
    exact hbalanced path

/-- A mutation adds an edit of each of its files when it is applied. -/
theorem Kept.applied (h : Kept W start history d) (hrecord : recordAt d mutationId = some record)
    (hstatus : record.status ≠ .applied)
    (hexpected : AsExpected W (fun file => file.beforeHash) d record.files)
    (hreliable : d'.Reliable) (hbytes : bytesAt d' = afterApply W d record.files)
    (hrecords : recordAt d' =
      Function.update (recordAt d) record.mutationId (some (record.applied W now)))
    (hbackups : ∀ name, backupAt d' mutationId name =
      (lastBackup W (bytesAt d) name record.files).or (backupAt d mutationId name))
    (hothers : ∀ other name, other ≠ mutationId → backupAt d' other name = backupAt d other name) :
    Kept W start (history ++ [.applied mutationId]) d' := by
  have hkept := h.records mutationId record hrecord
  rw [hkept.named] at hrecords
  have hnew : recordAt d' mutationId = some (record.applied W now) := by
    rw [hrecords, Function.update_self]
  have hold : ∀ other, other ≠ mutationId → recordAt d' other = recordAt d other := by
    intro other hother
    rw [hrecords, Function.update_of_ne hother]
  have hidle : ¬ IsApplied d mutationId := by
    rintro ⟨other, hother, hsame⟩
    rw [hrecord, Option.some_inj] at hother
    exact hstatus (hother ▸ hsame)
  -- Every backup holds what its file had.
  have hbackup : ∀ file ∈ record.files,
      backupAt d' mutationId (safeBackupName file.relativePath) = bytesAt d (file.target W) := by
    intro file hfile
    rw [hbackups, lastBackup_of_nodup hkept.separate.backups hfile]
    have hhash : (bytesAt d (file.target W)).map W.sha256 = file.beforeHash :=
        (hexpected file hfile).2
    cases hlive : bytesAt d (file.target W) with
    | some bytes => rfl
    | none =>
        rw [hlive, Option.map_none] at hhash
        rw [Option.none_or, hkept.absent file hfile hhash.symm]
  refine ⟨hreliable, fun other hother name => ?_, fun other found hfound => ?_,
    fun other hother => ?_, ?_⟩
  · have hne : other ≠ mutationId := fun heq => by
      rw [heq, hnew] at hother
      cases hother
    rw [hothers other name hne]
    exact h.fresh other (hold other hne ▸ hother) name
  · by_cases hother : other = mutationId
    · subst hother
      obtain rfl : record.applied W now = found := Option.some_inj.mp (hnew.symm.trans hfound)
      refine ⟨hkept.named, ⟨?_, ?_⟩, List.forall_mem_map.mpr fun file hfile hnone => ?_,
        fun _ => List.forall_mem_map.mpr fun file _ => rfl⟩
      · change ((record.files.map (FileRecord.hashed W)).map (FileRecord.target W)).Nodup
        rw [List.map_map]
        exact hkept.separate.targets
      · change ((record.files.map (FileRecord.hashed W)).map _).Nodup
        rw [List.map_map]
        exact hkept.separate.backups
      · have hhash : (bytesAt d (file.target W)).map W.sha256 = file.beforeHash :=
          (hexpected file hfile).2
        have hbefore : file.beforeHash = none := hnone
        rw [hbefore, Option.map_eq_none_iff] at hhash
        exact (hbackup file hfile).trans hhash
    · rw [hold other hother] at hfound
      have hkeep := h.records other found hfound
      refine ⟨hkeep.named, hkeep.separate, fun file hfile hnone => ?_, hkeep.hashed⟩
      rw [hothers other _ hother]
      exact hkeep.absent file hfile hnone
  · by_cases hsame : other = mutationId
    · rw [hsame]
      exact standing_applied history mutationId
    · exact (h.standing other ((isApplied_congr (hold other hsame)).mp hother)).append (by simp)
  · obtain ⟨active, hnodup, hactive, hbalanced⟩ := h.accounted
    have hnotmem : mutationId ∉ active := fun hmem => hidle ((hactive mutationId).mp hmem)
    refine ⟨mutationId :: active, List.nodup_cons.mpr ⟨hnotmem, hnodup⟩, fun other => ?_,
      fun path => ?_⟩
    · by_cases hsame : other = mutationId
      · subst hsame
        exact iff_of_true List.mem_cons_self ⟨_, hnew, rfl⟩
      · rw [List.mem_cons, or_iff_right hsame, hactive, isApplied_congr (hold other hsame)]
    · have hchanges : active.filterMap (changeAt W d' path) =
          active.filterMap (changeAt W d path) :=
        changes_congr path hnotmem hold hothers
      have hchange : changeAt W d' path mutationId =
          (record.files.find? fun file => file.target W = path).map fun file =>
            (backupAt d' mutationId (safeBackupName file.relativePath), some file.rendered) := by
        rw [changeAt, hnew, Option.bind_some]
        change (((record.files.map (FileRecord.hashed W)).find? _).map _) = _
        rw [List.find?_map, Option.map_map]
        rfl
      have hpath : bytesAt d' path =
          ((record.files.find? fun file => file.target W = path).map fun file =>
            some file.rendered).getD (bytesAt d path) := by
        rw [hbytes, afterApply]
        exact updateAll_targets hkept.separate.targets _ _ path
      cases hfind : record.files.find? fun file => file.target W = path with
      | none =>
          rw [hfind, Option.map_none] at hchange hpath
          rw [List.filterMap_cons_none hchange, hchanges, hpath]
          exact hbalanced path
      | some file =>
          rw [hfind, Option.map_some] at hchange hpath
          have htarget : file.target W = path := by simpa using List.find?_some hfind
          rw [hbackup file (List.mem_of_find?_eq_some hfind), htarget] at hchange
          rw [List.filterMap_cons_some hchange, hchanges, hpath, Option.getD_some]
          exact (hbalanced path).push (some file.rendered)

/-- A mutation takes its edits back when it is rolled back: a file with the recorded hash
has the content it was left with. -/
theorem Kept.rolledBack (hsha : Function.Injective W.sha256) (h : Kept W start history d)
    (hrecord : recordAt d mutationId = some record) (hstatus : record.status = .applied)
    (hexpected : AsExpected W (fun file => file.afterHash) d record.files)
    (hreliable : d'.Reliable) (hbytes : bytesAt d' = afterRollback W d mutationId record.files)
    (hrecords : recordAt d' =
      Function.update (recordAt d) record.mutationId (some (record.rolledBack now)))
    (hbackups : ∀ other name, backupAt d' other name = backupAt d other name) :
    Kept W start (history ++ [.rolledBack mutationId]) d' := by
  have hkept := h.records mutationId record hrecord
  rw [hkept.named] at hrecords
  have hnew : recordAt d' mutationId = some (record.rolledBack now) := by
    rw [hrecords, Function.update_self]
  have hold : ∀ other, other ≠ mutationId → recordAt d' other = recordAt d other := by
    intro other hother
    rw [hrecords, Function.update_of_ne hother]
  have hidle : ¬ IsApplied d' mutationId := by
    rintro ⟨other, hother, hsame⟩
    rw [hnew, Option.some_inj] at hother
    rw [← hother] at hsame
    cases hsame
  have hne_of_applied : ∀ other, IsApplied d' other → other ≠ mutationId :=
    fun other hother heq => hidle (heq ▸ hother)
  have hlive : ∀ file ∈ record.files, bytesAt d (file.target W) = some file.rendered := by
    intro file hfile
    have hhash : (bytesAt d (file.target W)).map W.sha256 = file.afterHash :=
        (hexpected file hfile).2
    rw [hkept.hashed hstatus file hfile, Option.map_eq_some_iff] at hhash
    obtain ⟨bytes, hbytes, hsame⟩ := hhash
    rw [hbytes, hsha hsame]
  refine ⟨hreliable, fun other hother name => ?_, fun other found hfound => ?_,
    fun other hother => ?_, ?_⟩
  · have hne : other ≠ mutationId := fun heq => by
      rw [heq, hnew] at hother
      cases hother
    rw [hbackups]
    exact h.fresh other (hold other hne ▸ hother) name
  · by_cases hother : other = mutationId
    · subst hother
      obtain rfl : record.rolledBack now = found := Option.some_inj.mp (hnew.symm.trans hfound)
      refine ⟨hkept.named, hkept.separate, fun file hfile hnone => ?_, fun hsame => ?_⟩
      · rw [hbackups]
        exact hkept.absent file hfile hnone
      · cases hsame
    · rw [hold other hother] at hfound
      have hkeep := h.records other found hfound
      refine ⟨hkeep.named, hkeep.separate, fun file hfile hnone => ?_, hkeep.hashed⟩
      rw [hbackups]
      exact hkeep.absent file hfile hnone
  · have hne := hne_of_applied other hother
    refine (h.standing other ((isApplied_congr (hold other hne)).mp hother)).append fun heq =>
        hne ?_
    injection heq with hsame
    exact hsame.symm
  · obtain ⟨active, hnodup, hactive, hbalanced⟩ := h.accounted
    have hmem : mutationId ∈ active := (hactive mutationId).mpr ⟨record, hrecord, hstatus⟩
    refine ⟨active.erase mutationId, hnodup.erase mutationId, fun other => ?_, fun path => ?_⟩
    · rw [hnodup.mem_erase_iff]
      by_cases hsame : other = mutationId
      · subst hsame
        exact iff_of_false (fun hboth => hboth.1 rfl) hidle
      · rw [and_iff_right hsame, hactive, isApplied_congr (hold other hsame)]
    · have hchanges : (active.erase mutationId).filterMap (changeAt W d' path) =
          (active.erase mutationId).filterMap (changeAt W d path) :=
        changes_congr path hnodup.not_mem_erase hold fun other name _ => hbackups other name
      have hchange : changeAt W d path mutationId =
          (record.files.find? fun file => file.target W = path).map
              (FileRecord.change d mutationId) := by
        rw [changeAt, hrecord, Option.bind_some]
      have hpath : bytesAt d' path =
          ((record.files.find? fun file => file.target W = path).map fun file =>
            backupAt d mutationId (safeBackupName file.relativePath)).getD (bytesAt d path) := by
        rw [hbytes, afterRollback]
        exact updateAll_targets hkept.separate.targets _ _ path
      have hwithout := (hbalanced path).perm
        ((List.perm_cons_erase hmem).filterMap (changeAt W d path))
      cases hfind : record.files.find? fun file => file.target W = path with
      | none =>
          rw [hfind, Option.map_none] at hchange hpath
          rw [List.filterMap_cons_none hchange] at hwithout
          rw [hchanges, hpath]
          exact hwithout
      | some file =>
          rw [hfind, Option.map_some] at hchange hpath
          have htarget : file.target W = path := by simpa using List.find?_some hfind
          have hsame := hlive file (List.mem_of_find?_eq_some hfind)
          rw [htarget] at hsame
          rw [List.filterMap_cons_some hchange, hsame] at hwithout
          rw [hchanges, hpath]
          exact hwithout.pop

end Steps

/-! ## Every run -/

/-- A project before its first mutation, on a disk that does not fail. -/
structure Untouched (start : AgentDisk) : Prop where
  reliable : start.Reliable
  records : ∀ mutationId, recordAt start mutationId = none
  backups : ∀ mutationId name, backupAt start mutationId name = none

theorem Untouched.kept {start : AgentDisk} (h : Untouched start) : Kept W start [] start := by
  have hidle : ∀ mutationId, ¬ IsApplied start mutationId := by
    rintro mutationId ⟨record, hrecord, -⟩
    rw [h.records] at hrecord
    cases hrecord
  refine ⟨h.reliable, fun mutationId _ => h.backups mutationId, fun mutationId record hrecord => ?_,
    fun mutationId happlied => (hidle mutationId happlied).elim, [], List.nodup_nil,
    fun mutationId => iff_of_false List.not_mem_nil (hidle mutationId), fun path => ?_⟩
  · rw [h.records] at hrecord
    cases hrecord
  · exact balanced_nil.mpr rfl

/-- A call on a mutation without a record is refused. -/
theorem onDisk_loadRecord_of_none {mutationId : String} (h : recordAt d mutationId = none) :
    ∃ failure, onDisk (loadRecord mutationId) d = (.error failure, d) := by
  have hcontent : d.content (.record mutationId) = none := h
  rw [onDisk, loadRecord, Disk.run_read, hcontent]
  exact ⟨_, rfl⟩

theorem Kept.apply {start : AgentDisk} {history : List Event} (h : Kept W start history d)
    (mutationId now : String) :
    Kept W start
      (noted history (.applied mutationId) (onDisk (applyMutation W mutationId now) d).1)
      (onDisk (applyMutation W mutationId now) d).2 := by
  have hreliable : (onDisk (applyMutation W mutationId now) d).2.Reliable := h.reliable.run
  have hothers : ∀ other name, other ≠ mutationId →
      backupAt (onDisk (applyMutation W mutationId now) d).2 other name = backupAt d other name :=
    fun other name => backupAt_applyMutation now name
  cases hrecord : recordAt d mutationId with
  | none =>
      obtain ⟨failure, hload⟩ := onDisk_loadRecord_of_none hrecord
      have hrun : onDisk (applyMutation W mutationId now) d = (.error failure, d) :=
        onDisk_bind_of_error hload
      rw [hrun]
      exact h.idle fun _ _ => by simp
  | some record =>
      by_cases hstatus : record.status = .applied
      · have hrun : onDisk (applyMutation W mutationId now) d = (.ok record, d) := by
          rw [applyMutation, Program.bind_eq, onDisk_bind_of_ok (onDisk_loadRecord hrecord),
            if_pos hstatus]
          rfl
        rw [hrun]
        exact h.idle fun _ _ => by simp
      · rcases onDisk_applyMutation now hrecord hstatus (h.reliable .restore) with
          ⟨-, failure, d', hrun, hbytes, hrecords, hbackups⟩ | ⟨-, hfault, -⟩ |
            ⟨hreaches, -, d', hrun, hbytes, hrecords, hbackups⟩
        · rw [hrun] at hreliable hothers ⊢
          exact h.of_backups hrecord hstatus hreliable hbytes hrecords hothers hbackups
        · exact (hfault (h.reliable .record 0)).elim
        · rw [hrun] at hreliable hothers ⊢
          exact h.applied hrecord hstatus hreaches.unchanged hreliable hbytes hrecords hbackups
            hothers

theorem Kept.rollback {start : AgentDisk} {history : List Event}
    (hsha : Function.Injective W.sha256) (h : Kept W start history d) (mutationId now : String) :
    Kept W start
      (noted history (.rolledBack mutationId) (onDisk (rollbackMutation W mutationId now) d).1)
      (onDisk (rollbackMutation W mutationId now) d).2 := by
  have hreliable : (onDisk (rollbackMutation W mutationId now) d).2.Reliable := h.reliable.run
  cases hrecord : recordAt d mutationId with
  | none =>
      obtain ⟨failure, hload⟩ := onDisk_loadRecord_of_none hrecord
      have hrun : onDisk (rollbackMutation W mutationId now) d = (.error failure, d) :=
        onDisk_bind_of_error hload
      rw [hrun]
      exact ⟨h.reliable, h.fresh, h.records, h.standing, h.accounted⟩
  | some record =>
      cases hstatus : record.status with
      | planned =>
          have hrun : ∃ failure, onDisk (rollbackMutation W mutationId now) d =
              (.error failure, d) := by
            rw [rollbackMutation, Program.bind_eq, onDisk_bind_of_ok (onDisk_loadRecord hrecord),
              hstatus]
            exact ⟨_, rfl⟩
          obtain ⟨failure, hrun⟩ := hrun
          rw [hrun]
          exact ⟨h.reliable, h.fresh, h.records, h.standing, h.accounted⟩
      | rolledBack =>
          have hrun : onDisk (rollbackMutation W mutationId now) d = (.ok record, d) := by
            rw [rollbackMutation, Program.bind_eq, onDisk_bind_of_ok (onDisk_loadRecord hrecord),
              hstatus]
            rfl
          rw [hrun]
          refine h.idle fun other hother heq => ?_
          injection heq with hsame
          obtain ⟨found, hfound, hfoundStatus⟩ := hother
          rw [← hsame, hrecord, Option.some_inj] at hfound
          rw [← hfound, hstatus] at hfoundStatus
          cases hfoundStatus
      | applied =>
          rcases onDisk_rollbackMutation (W := W) now hrecord hstatus (h.reliable .rollback)
            (h.reliable .record 0) with ⟨-, failure, hrun⟩ |
              ⟨hexpected, d', hrun, hbytes, hrecords, hbackups⟩
          · rw [hrun]
            exact ⟨h.reliable, h.fresh, h.records, h.standing, h.accounted⟩
          · rw [hrun] at hreliable ⊢
            exact h.rolledBack hsha hrecord hstatus hexpected hreliable hbytes hrecords hbackups

theorem kept_of_run {start : AgentDisk} {history : List Event} (hsha : Function.Injective W.sha256)
    (hstart : Untouched start) (hrun : Run W start history d) : Kept W start history d := by
  induction hrun with
  | start => exact hstart.kept
  | persist plan _ hfresh hseparate ih => exact ih.persist hfresh hseparate
  | apply mutationId now _ ih => exact ih.apply mutationId now
  | rollback mutationId now _ ih => exact ih.rollback hsha mutationId now

/-- In every run of persisting, applying and rolling back, whenever every mutation that
was applied has been rolled back since, every file is as it was at the start. -/
theorem files_restored_of_run {start : AgentDisk} {history : List Event}
    (hsha : Function.Injective W.sha256) (hstart : Untouched start) (hrun : Run W start history d)
    (hback : ∀ before mutationId after, history = before ++ .applied mutationId :: after →
      .rolledBack mutationId ∈ after) :
    bytesAt d = bytesAt start := by
  have hkept := kept_of_run hsha hstart hrun
  obtain ⟨active, -, hactive, hbalanced⟩ := hkept.accounted
  have hnone : active = [] := by
    refine List.eq_nil_iff_forall_not_mem.mpr fun mutationId hmem => ?_
    obtain ⟨before, after, hhistory, hafter⟩ :=
      hkept.standing mutationId ((hactive mutationId).mp hmem)
    exact hafter (hback before mutationId after hhistory)
  funext path
  have hpath := hbalanced path
  rw [hnone] at hpath
  exact balanced_nil.mp hpath

/-- The project of the samples with a hash that spells every byte out. -/
def spelledWorkspace : Workspace Unit Unit :=
  { sampleWorkspace with
    sha256 := fun bytes => String.ofList (bytes.data.toList.map fun byte => Char.ofNat byte.toNat) }

theorem spelled_injective : Function.Injective spelledWorkspace.sha256 := by
  intro first second h
  have hbyte : Function.Injective fun byte : UInt8 => Char.ofNat byte.toNat := by
    intro a b hab
    have hvalid : ∀ n < 2 ^ 8, (Char.ofNat n).toNat = n := by decide +kernel
    have hnat : (Char.ofNat a.toNat).toNat = (Char.ofNat b.toNat).toNat := congrArg Char.toNat hab
    rw [hvalid _ a.toNat_lt, hvalid _ b.toNat_lt] at hnat
    exact UInt8.toNat_inj.mp hnat
  have hlists := List.map_injective_iff.mpr hbyte (String.ofList_injective h)
  exact ByteArray.ext (Array.toList_inj.mp hlists)

/-- A plan for `.env` and `b.env`. -/
def lowerPlan : ConfigPlan :=
  { samplePlan with
    files :=
      [⟨".env", .dotenv, .willUpdate, some "PORT=80\n", "PORT=8001\n", []⟩,
        ⟨"b.env", .dotenv, .willUpdate, some "PORT=81\n", "PORT=8002\n", []⟩] }

/-- A later plan that changes `.env` again and creates `c.env`. -/
def upperPlan : ConfigPlan :=
  { samplePlan with
    mutationId := "m2"
    files :=
      [⟨".env", .dotenv, .willUpdate, some "PORT=8001\n", "PORT=8003\n", []⟩,
        ⟨"c.env", .dotenv, .willCreate, none, "PORT=8004\n", []⟩] }

/-- The project that the two mutations share. -/
def stackedDisk : AgentDisk :=
  sampleDisk [(".env", "PORT=80\n"), ("b.env", "PORT=81\n")] [] fun _ _ => none

def lowerApplied : Except ConfigFailure MutationRecord × AgentDisk :=
  onDisk (applyMutation spelledWorkspace "m1" "apply") (onDisk (persistPlan lowerPlan) stackedDisk).2

def upperApplied : Except ConfigFailure MutationRecord × AgentDisk :=
  onDisk (applyMutation spelledWorkspace "m2" "apply")
    (onDisk (persistPlan upperPlan) lowerApplied.2).2

/-- The first mutation cannot be rolled back while the second one stands. -/
def lowerRefused : Except ConfigFailure MutationRecord × AgentDisk :=
  onDisk (rollbackMutation spelledWorkspace "m1" "early") upperApplied.2

def upperRolledBack : Except ConfigFailure MutationRecord × AgentDisk :=
  onDisk (rollbackMutation spelledWorkspace "m2" "rollback") lowerRefused.2

def lowerRolledBack : Except ConfigFailure MutationRecord × AgentDisk :=
  onDisk (rollbackMutation spelledWorkspace "m1" "rollback") upperRolledBack.2

theorem files_restored_of_run_sample :
    bytesAt upperApplied.2 ["project", ".env"] = some "PORT=8003\n".toUTF8 ∧
      lowerRefused.1.isOk = false ∧ bytesAt lowerRolledBack.2 = bytesAt stackedDisk := by
  have hrun := Run.rollback "m1" "rollback" (.rollback "m2" "rollback" (.rollback "m1" "early"
    (.apply "m2" "apply" (.persist upperPlan (.apply "m1" "apply" (.persist lowerPlan
      (.start : Run spelledWorkspace stackedDisk [] stackedDisk) rfl ⟨by decide, by decide⟩))
        (by decide +kernel) ⟨by decide, by decide⟩))))
  have hhistory : noted (noted (noted (noted (noted [] (.applied "m1") lowerApplied.1)
      (.applied "m2") upperApplied.1) (.rolledBack "m1") lowerRefused.1)
      (.rolledBack "m2") upperRolledBack.1) (.rolledBack "m1") lowerRolledBack.1 =
        [.applied "m1", .applied "m2", .rolledBack "m2", .rolledBack "m1"] := by decide +kernel
  refine ⟨by decide +kernel, by decide +kernel,
    files_restored_of_run spelled_injective ⟨fun _ _ => rfl, fun _ => rfl, fun _ _ => rfl⟩ hrun ?_⟩
  intro before mutationId after hsplit
  have hsplit : [.applied "m1", .applied "m2", .rolledBack "m2", .rolledBack "m1"] =
      before ++ .applied mutationId :: after := hhistory.symm.trans hsplit
  rcases before with _ | ⟨first, _ | ⟨second, _ | ⟨third, _ | ⟨fourth, before⟩⟩⟩⟩ <;>
    simp at hsplit <;> simp [← hsplit]

end Agent
