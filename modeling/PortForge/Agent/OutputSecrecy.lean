/-
# Secrets in the output of the config commands

Two versions of a dotenv file that differ in values the manifest does not map are printed the
same by `config plan` and `config status`. `config apply` and `config rollback` print the new
content of the file, and with it every value in it, so the versions are told apart as soon as the
mutation is applied.
-/

import PortForge.Agent.VersionRuns

namespace Agent

open Python Effects

variable {Document Documents : Type} (W : Workspace Document Documents)

/-- The disk after `config plan`. -/
def afterPlan (manifest : ProjectManifest) (allocation : AllocationData) (drawn : Drawn)
    (d : AgentDisk) : AgentDisk :=
  (onDisk (configPlan W manifest allocation drawn.mutationId drawn.createdAt) d).2

/-- Before `config apply`: there is a plan of the mutation, every file is as it was planned, and
neither a write nor a validation will fail. -/
def GoesThrough (d : AgentDisk) (mutationId : String) : Prop :=
  ∃ record, recordAt d mutationId = some record ∧ Reaches W d record.files ∧
    d.faults .record 0 = none

/-- The commands print the same on both disks, but for hashes, identifiers and timestamps. -/
def SameOutput (manifest : ProjectManifest) (allocation : AllocationData) (drawn : Drawn)
    (d d' : AgentDisk) : Prop :=
  (runCommands W manifest allocation drawn d).shown =
    (runCommands W manifest allocation drawn d').shown

/-- A project tree whose file at the path has the given text. -/
def withText (files : Path → Option ByteArray) (faults : Site → ℕ → Option String) (path : Path)
    (text : String) : AgentDisk :=
  projectTree (Function.update files path (some text.toUTF8)) faults

variable {W} {d d' : AgentDisk} {path : Path} {same : Prop} {text text' : String}

/-! ## Planned on both sides -/

/-- The state before `config apply` on both sides: each has its own record of one mutation. -/
structure BothPlanned (W : Workspace Document Documents) (path : Path) (same : Prop)
    (mutationId allocationId : String) (record record' : MutationRecord) (d d' : AgentDisk) :
    Prop where
  header : record' = { record with files := record'.files }
  mutation : record.mutationId = mutationId
  allocation : record.allocationId = allocationId
  status : record.status = .planned
  files : List.Forall₂ (FileRecord.Twin W path same) record.files record'.files
  alike : d.Alike (SidesOf path record record') d'
  unchanged : AsExpected W (fun file => file.beforeHash) d record.files
  unchanged' : AsExpected W (fun file => file.beforeHash) d' record'.files

section BothPlanned

variable {mutationId allocationId : String} {record record' : MutationRecord}
  (h : BothPlanned W path same mutationId allocationId record record' d d')

include h

theorem BothPlanned.records :
    recordAt d mutationId = some record ∧ recordAt d' mutationId = some record' :=
  h.alike.content (.record mutationId) h.mutation.symm

theorem BothPlanned.other :
    record'.mutationId = mutationId ∧ record'.allocationId = allocationId ∧
      record'.status = .planned := by
  rw [h.header]
  exact ⟨h.mutation, h.allocation, h.status⟩

end BothPlanned

/-- The files of a plan are as they were when it is saved. -/
theorem asExpected_of_plan {plan : ConfigPlan} {saved : Option MutationRecord}
    {mutationId : String} (h : ∀ file ∈ plan.files, file.From W (bytesAt d)) :
    AsExpected W (fun file => file.beforeHash) ((d.passed .plan).put (.record mutationId) saved)
      plan.record.files := by
  intro file hfile
  obtain ⟨planned, hplanned, rfl⟩ := List.mem_map.mp hfile
  exact ⟨(h planned hplanned).inside, (h planned hplanned).beforeHash.symm⟩

section Commands

variable {data : List (Scalar × Value)} {manifest : ProjectManifest} {config : ConfigMappings}
  {mutationId createdAt now allocationId : String} {allocation : AllocationData}
  {record record' : MutationRecord}

/-- `config plan` on both sides. -/
theorem agree_configPlan (hfile : bytesAt d path = some text.toUTF8)
    (hfile' : bytesAt d' path = some text'.toUTF8)
    (hother : ∀ other, other ≠ path → bytesAt d other = bytesAt d' other)
    (hfaults : d.faults = d'.faults) (hnone : recordAt d mutationId = none)
    (hnone' : recordAt d' mutationId = none) (hmanifest : validateManifest data = .ok manifest)
    (hconfig : manifest.config = some config) (hyaml : NoYaml W config path)
    (hversions : Versions (mappedKeys W config path) text text') :
    Program.Agree Disk.handle
      (fun plan plan' t t' => planToJson plan = planToJson plan' ∧
        BothPlanned W path (text = text') mutationId allocation.allocationId plan.record
          plan'.record t t')
      (fun t t' => recordAt t mutationId = none ∧ recordAt t' mutationId = none)
      (configPlan W manifest allocation mutationId createdAt)
      (configPlan W manifest allocation mutationId createdAt) d d' := by
  rcases agree_buildPlan hfile hfile' hother hmanifest hconfig hversions hyaml allocation
    mutationId createdAt with ⟨failure, _, _, hrun, hrun', rfl, rfl⟩ |
      ⟨plan, plan', e, e', hrun, hrun', ⟨hheader, ⟨hid, hallocation⟩, hfiles⟩, rfl, rfl⟩
  · exact .inl ⟨failure, _, _, Program.run_bind_of_error hrun, Program.run_bind_of_error hrun',
      hnone, hnone'⟩
  obtain ⟨files', rfl⟩ : ∃ files', plan' = { plan with files := files' } := ⟨_, hheader⟩
  refine Program.agree_bind_of_ok hrun hrun' ((agree_saveRecord hfaults ⟨hnone, hnone'⟩).bind ?_)
  rintro ⟨⟩ ⟨⟩ t t' ⟨rfl, rfl⟩
  refine Program.agree_ret ⟨planToJson_twin hfiles,
    ⟨rfl, hid, hallocation, rfl, twin_records hfiles, ⟨fun place => ?_, ?_⟩,
      asExpected_of_plan (from_buildPlan hrun), asExpected_of_plan (from_buildPlan hrun')⟩⟩
  · cases place with
    | file other =>
        change (bytesAt e other).isSome = (bytesAt e' other).isSome ∧
          (other ≠ path → bytesAt e other = bytesAt e' other)
        by_cases hpath : other = path
        · rw [hpath, hfile, hfile']
          exact ⟨rfl, fun hne => (hne rfl).elim⟩
        · rw [hother other hpath]
          exact ⟨rfl, fun _ => rfl⟩
    | record other =>
        rintro rfl
        exact ⟨Disk.put_content_self, Disk.put_content_self⟩
    | backup _ _ => exact trivial
  · rw [Disk.put_faults, Disk.put_faults, Disk.passed, Disk.passed, hfaults]

/-- Without a record there is nothing to load. -/
theorem loadRecord_missing (mutationId : String) : ∃ failure, ∀ d,
    recordAt d mutationId = none → onDisk (loadRecord mutationId) d = (.error failure, d) := by
  apply Exists.intro
  intro d h
  have hcontent : d.content (.record mutationId) = none := h
  rw [onDisk, loadRecord, Disk.run_read, hcontent]
  rfl

/-- `config apply` without a plan. -/
theorem configApply_missing (W : Workspace Document Documents)
    (mutationId allocationId now : String) :
    ∃ failure, ∀ d, recordAt d mutationId = none →
      onDisk (configApply W [mutationId] allocationId now) d = (.error failure, d) := by
  apply Exists.intro
  intro d h
  rw [configApply, Program.bind_eq, onDisk_bind_of_ok (onDisk_findLatestPlannedMutation _ _)]
  simp only [List.filterMap_cons, plannedAt, h]
  rfl

/-- `config apply` with the plan of its mutation. -/
theorem configApply_planned (hrecord : recordAt d mutationId = some record)
    (hid : record.mutationId = mutationId) (hallocation : record.allocationId = allocationId)
    (hstatus : record.status = .planned) :
    onDisk (configApply W [mutationId] allocationId now) d =
      onDisk (applyMutation W mutationId now) d := by
  have hplanned : plannedAt d allocationId mutationId = some record := by
    simp [plannedAt, hrecord, hallocation, hstatus]
  rw [configApply, Program.bind_eq, onDisk_bind_of_ok (onDisk_findLatestPlannedMutation _ _)]
  simp only [List.filterMap_cons, List.filterMap_nil, hplanned, List.insertionSort_cons,
    List.insertionSort_nil, List.orderedInsert_nil, List.head?_cons, Option.map_some, hid]

/-- `config rollback` of a mutation that was not applied. -/
theorem rollbackMutation_planned (W : Workspace Document Documents) (mutationId now : String) :
    ∃ failure, ∀ d record, recordAt d mutationId = some record → record.status = .planned →
      onDisk (rollbackMutation W mutationId now) d = (.error failure, d) := by
  apply Exists.intro
  intro d record hrecord hstatus
  rw [rollbackMutation, Program.bind_eq, onDisk_bind_of_ok (onDisk_loadRecord hrecord), hstatus]
  rfl

/-- The file at the path tells the records apart. -/
theorem same_of_newContents {files files' : List FileRecord} {file : FileRecord}
    (hfiles : List.Forall₂ (FileRecord.Twin W path same) files files')
    (hcontents : files.map FileRecord.newContent = files'.map FileRecord.newContent)
    (hfile : file ∈ files) (hpath : file.target W = path) : same := by
  induction hfiles with
  | nil => cases hfile
  | @cons first first' files files' hfirst _ ih =>
      obtain ⟨hhead, htail⟩ := List.cons.inj hcontents
      rcases List.mem_cons.mp hfile with rfl | hmem
      · exact (hfirst.dotenv hpath).2 hhead
      · exact ih htail hmem

/-- A plan begins with the dotenv files. -/
theorem dotenv_of_buildPlan (hconfig : manifest.config = some config) {plan : ConfigPlan}
    {t : AgentDisk}
    (h : onDisk (buildPlan W manifest allocation mutationId createdAt) d = (.ok plan, t)) :
    (plan.mutationId = mutationId ∧ plan.allocationId = allocation.allocationId) ∧
      ∃ dotenv rest, onDisk (planAll
        (fun mapping => planDotenvFile W mapping (portsByName allocation)) config.dotenv) d =
          (.ok dotenv, d) ∧ plan.files = dotenv ++ rest := by
  rw [buildPlan, hconfig] at h
  dsimp only at h
  split at h
  · cases h
  · obtain ⟨dotenv, d₁, hdotenv, h₁⟩ := onDisk_bind_eq_ok h
    obtain rfl := onDisk_planAll_eq (fun mapping => uses_planDotenvFile mapping _) hdotenv
    obtain ⟨compose, d₂, -, h₂⟩ := onDisk_bind_eq_ok h₁
    obtain ⟨kubernetes, d₃, -, h₃⟩ := onDisk_bind_eq_ok h₂
    cases h₃
    exact ⟨⟨rfl, rfl⟩, dotenv, compose ++ kubernetes, hdotenv, List.append_assoc ..⟩

/-- `config plan` on one disk: nothing is left, or the record of its plan. -/
theorem configPlan_cases (allocation : AllocationData) (createdAt : String)
    (hconfig : manifest.config = some config)
    (hnone : recordAt d mutationId = none) :
    (∃ failure t, onDisk (configPlan W manifest allocation mutationId createdAt) d =
        (.error failure, t) ∧ recordAt t mutationId = none) ∨
      ∃ plan t, onDisk (configPlan W manifest allocation mutationId createdAt) d = (.ok plan, t) ∧
        onDisk (buildPlan W manifest allocation mutationId createdAt) d = (.ok plan, d) ∧
        recordAt t mutationId = some plan.record ∧ plan.record.mutationId = mutationId ∧
        plan.record.allocationId = allocation.allocationId ∧
        AsExpected W (fun file => file.beforeHash) t plan.record.files := by
  have hreads := Disk.run_of_reads (d := d)
    (uses_buildPlan (W := W) manifest allocation mutationId createdAt)
  rcases hplan : onDisk (buildPlan W manifest allocation mutationId createdAt) d with ⟨result, e⟩
  obtain rfl : e = d := (congrArg Prod.snd hplan).symm.trans hreads
  cases result with
  | error failure => exact .inl ⟨failure, e, onDisk_bind_of_error hplan, hnone⟩
  | ok plan =>
      obtain ⟨⟨hid, hallocation⟩, -⟩ := dotenv_of_buildPlan hconfig hplan
      cases hfault : e.faults .plan 0 with
      | some error =>
          refine .inl ⟨.os error, e.passed .plan, ?_, hnone⟩
          rw [configPlan, Program.bind_eq, onDisk_bind_of_ok hplan]
          exact onDisk_bind_of_error (onDisk_atomicWrite_of_some hfault)
      | none =>
          refine .inr ⟨plan, (e.passed .plan).put (.record plan.mutationId) (some plan.record),
            ?_, rfl, ?_, hid, hallocation,
            asExpected_of_plan (from_buildPlan hplan)⟩
          · rw [configPlan, Program.bind_eq, onDisk_bind_of_ok hplan]
            exact onDisk_bind_of_ok (onDisk_atomicWrite_of_none hfault)
          · rw [← hid]
            exact Disk.put_content_self

/-- Two versions are told apart by the contents that are planned of them. -/
theorem eq_of_contents (hfile : bytesAt d path = some text.toUTF8)
    (hfile' : bytesAt d' path = some text'.toUTF8)
    (hother : ∀ other, other ≠ path → bytesAt d other = bytesAt d' other)
    (hmanifest : validateManifest data = .ok manifest) (hconfig : manifest.config = some config)
    (hversions : Versions (mappedKeys W config path) text text')
    (hmapped : ∃ mapping ∈ config.dotenv, W.locate mapping.file = path) {plan plan' : ConfigPlan}
    (hbuild : onDisk (buildPlan W manifest allocation mutationId createdAt) d = (.ok plan, d))
    (hbuild' : onDisk (buildPlan W manifest allocation mutationId createdAt) d' = (.ok plan', d'))
    (hcontents : plan.record.files.map FileRecord.newContent =
      plan'.record.files.map FileRecord.newContent) : text = text' := by
  -- The dotenv files stand first in both records.
  obtain ⟨-, dotenv, rest, hdotenv, hfiles⟩ := dotenv_of_buildPlan hconfig hbuild
  obtain ⟨-, dotenv', rest', hdotenv', hfiles'⟩ := dotenv_of_buildPlan hconfig hbuild'
  rcases onDisk_of_agree (agree_planDotenvFiles hfile hfile' hother hmanifest hconfig hversions
    (portsByName allocation)) with ⟨failure, _, _, hrun, -, -⟩ |
      ⟨_, _, _, _, hrun, hrun', ⟨htwins, hnames⟩, -⟩
  · cases hdotenv.symm.trans hrun
  · cases hdotenv.symm.trans hrun
    cases hdotenv'.symm.trans hrun'
    have hdotenvContents : (dotenv.map PlannedFile.record).map FileRecord.newContent =
        (dotenv'.map PlannedFile.record).map FileRecord.newContent := by
      change (plan.files.map PlannedFile.record).map _ =
        (plan'.files.map PlannedFile.record).map _ at hcontents
      rw [hfiles, hfiles', List.map_append, List.map_append, List.map_append,
        List.map_append] at hcontents
      refine (List.append_inj hcontents ?_).1
      simp only [List.length_map, htwins.length_eq]
    obtain ⟨mapping, hmapping, hpath⟩ := hmapped
    have hname : mapping.file ∈ dotenv.map PlannedFile.relativePath :=
      hnames ▸ List.mem_map_of_mem hmapping
    obtain ⟨file, hmem, heq⟩ := List.mem_map.mp hname
    exact same_of_newContents (twin_records htwins) hdotenvContents (List.mem_map_of_mem hmem)
      ((congrArg W.locate heq).trans hpath)

section Sides

variable {drawn : Drawn} (hfile : bytesAt d path = some text.toUTF8)
  (hfile' : bytesAt d' path = some text'.toUTF8)
  (hother : ∀ other, other ≠ path → bytesAt d other = bytesAt d' other)
  (hnone : recordAt d drawn.mutationId = none)
  (hnone' : recordAt d' drawn.mutationId = none) (hmanifest : validateManifest data = .ok manifest)
  (hconfig : manifest.config = some config)
  (hversions : Versions (mappedKeys W config path) text text')

include hfile hfile' hother hnone hnone' hmanifest hconfig hversions

/-- Where no mutation is applied, nothing that is printed tells two versions apart. -/
theorem runCommands_of_not_goesThrough (hfaults : d.faults = d'.faults)
    (hyaml : NoYaml W config path)
    (hstops : ¬ GoesThrough W (afterPlan W manifest allocation drawn d) drawn.mutationId) :
    runCommands W manifest allocation drawn d = runCommands W manifest allocation drawn d' := by
  rcases onDisk_of_agree (agree_configPlan hfile hfile' hother hfaults hnone hnone' hmanifest
    hconfig hyaml hversions) with
    ⟨failure, t, t', hplan, hplan', hmissing, hmissing'⟩ |
      ⟨plan, plan', t, t', hplan, hplan', hprinted, hboth⟩
  · obtain ⟨stopped, happly⟩ := configApply_missing W drawn.mutationId allocation.allocationId
      drawn.appliedAt
    obtain ⟨unknown, hload⟩ := loadRecord_missing drawn.mutationId
    have hstatus {e : AgentDisk} (he : recordAt e drawn.mutationId = none) :
        onDisk (getStatus drawn.mutationId) e = (.error unknown, e) :=
      onDisk_bind_of_error (hload e he)
    have hrollback {e : AgentDisk} (he : recordAt e drawn.mutationId = none) :
        onDisk (rollbackMutation W drawn.mutationId drawn.rolledBackAt) e = (.error unknown, e) :=
      onDisk_bind_of_error (hload e he)
    rw [runCommands_eq hplan (happly t hmissing) (hstatus hmissing) (hrollback hmissing),
      runCommands_eq hplan' (happly t' hmissing') (hstatus hmissing') (hrollback hmissing')]
  obtain ⟨hrecord, hrecord'⟩ := hboth.records
  obtain ⟨hid', hallocation', hstatus'⟩ := hboth.other
  have happly :
      onDisk (configApply W [drawn.mutationId] allocation.allocationId drawn.appliedAt) t =
        onDisk (applyMutation W drawn.mutationId drawn.appliedAt) t :=
    configApply_planned hrecord hboth.mutation hboth.allocation hboth.status
  have happly' :
      onDisk (configApply W [drawn.mutationId] allocation.allocationId drawn.appliedAt) t' =
        onDisk (applyMutation W drawn.mutationId drawn.appliedAt) t' :=
    configApply_planned hrecord' hid' hallocation' hstatus'
  rcases onDisk_of_agree (agree_applyMutation drawn.appliedAt hboth.alike hboth.mutation
    hboth.status hstatus' hboth.files hboth.unchanged hboth.unchanged') with
      ⟨failure, u, u', hrun, hrun', halike⟩ | ⟨value, value', u, u', hrun, -, -⟩
  · -- The records are still planned on both sides.
    obtain ⟨hleft, hleft'⟩ := halike.content (.record drawn.mutationId) hboth.mutation.symm
    obtain ⟨refused, hrollback⟩ := rollbackMutation_planned W drawn.mutationId drawn.rolledBackAt
    have hstatus {e : AgentDisk} {record : MutationRecord}
        (he : recordAt e drawn.mutationId = some record) :
        onDisk (getStatus drawn.mutationId) e = (.ok (statusJson record), e) :=
      onDisk_bind_of_ok (onDisk_loadRecord he)
    have hshown : statusJson plan.record = statusJson plan'.record := by
      rw [hboth.header]
      exact statusJson_twin hboth.files
    rw [runCommands_eq hplan (happly.trans hrun) (hstatus hleft)
        (hrollback u plan.record hleft hboth.status),
      runCommands_eq hplan' (happly'.trans hrun') (hstatus hleft')
        (hrollback u' plan'.record hleft' hstatus'), hshown]
    exact congrArg (fun json => Printed.mk (.ok json) _ _ _) hprinted
  · rcases applyMutation_planned drawn.appliedAt hrecord hboth.status hboth.unchanged with
      ⟨hreaches, -⟩ | ⟨-, failure, e, hfails⟩
    · rw [afterPlan, hplan] at hstops
      exact (hstops ⟨plan.record, hrecord, hreaches⟩).elim
    · cases hfails.symm.trans hrun

/-- Where a mutation is applied, the printed record tells two versions apart. -/
theorem eq_of_sameOutput (hmapped : ∃ mapping ∈ config.dotenv, W.locate mapping.file = path)
    (hgoes : GoesThrough W (afterPlan W manifest allocation drawn d) drawn.mutationId)
    (hsame : SameOutput W manifest allocation drawn d d') : text = text' := by
  rcases configPlan_cases (W := W) allocation drawn.createdAt hconfig hnone with
    ⟨failure, t, hplan, hmissing⟩ | ⟨plan, t, hplan, hbuild, hrecord, hid, hallocation, hunchanged⟩
  · rw [afterPlan, hplan] at hgoes
    obtain ⟨record, hrecord, -⟩ := hgoes
    cases hrecord.symm.trans hmissing
  rw [afterPlan, hplan] at hgoes
  obtain ⟨_, hgoing, hreaches⟩ := hgoes
  obtain rfl := Option.some_inj.mp (hgoing.symm.trans hrecord)
  rcases configPlan_cases (W := W) allocation drawn.createdAt hconfig hnone' with
    ⟨failure, t', hplan', -⟩ |
      ⟨plan', t', hplan', hbuild', hrecord', hid', hallocation', hunchanged'⟩
  · have hprinted := congrArg Printed.plan hsame
    simp [runCommands, Printed.shown, hplan, hplan', Except.map] at hprinted
  -- Both commands return the record, with the contents that were planned.
  have happly : ((onDisk (applyMutation W drawn.mutationId drawn.appliedAt) t).1.map
      appliedJson).map anonymous =
        ((onDisk (applyMutation W drawn.mutationId drawn.appliedAt) t').1.map
          appliedJson).map anonymous := by
    rw [← configApply_planned hrecord hid hallocation rfl,
      ← configApply_planned hrecord' hid' hallocation' rfl]
    have hprinted := congrArg Printed.apply hsame
    simpa only [runCommands, Printed.shown, hplan, hplan'] using hprinted
  have hcontents : plan.record.files.map FileRecord.newContent =
      plan'.record.files.map FileRecord.newContent := by
    have hkept (record : MutationRecord) :
        (record.applied W drawn.appliedAt).files.map FileRecord.newContent =
          record.files.map FileRecord.newContent := List.map_map
    rw [← hkept plan.record, ← hkept plan'.record]
    rcases applyMutation_planned drawn.appliedAt hrecord rfl hunchanged with
      ⟨-, u, hrun⟩ | ⟨hstops, -⟩
    · rcases applyMutation_planned drawn.appliedAt hrecord' rfl hunchanged' with
        ⟨-, u', hrun'⟩ | ⟨-, failure, u', hrun'⟩
      · rw [hrun, hrun'] at happly
        exact newContents_of_appliedJson (Except.ok.inj happly)
      · rw [hrun, hrun'] at happly
        cases happly
    · exact (hstops hreaches).elim
  exact eq_of_contents hfile hfile' hother hmanifest hconfig hversions hmapped hbuild hbuild'
    hcontents

end Sides

/-- On two versions of a dotenv file that is no YAML file as well, the commands print the same
exactly if the versions are one text or the mutation is not applied. Where the file is a YAML file
as well, they do so only then. -/
theorem sameOutput_iff (hmanifest : validateManifest data = .ok manifest)
    (hconfig : manifest.config = some config)
    (hmapped : ∃ mapping ∈ config.dotenv, W.locate mapping.file = path)
    (hversions : Versions (mappedKeys W config path) text text') (allocation : AllocationData)
    (drawn : Drawn) (files : Path → Option ByteArray) (faults : Site → ℕ → Option String) :
    (NoYaml W config path →
      (SameOutput W manifest allocation drawn (withText files faults path text)
          (withText files faults path text') ↔
        text = text' ∨ ¬ GoesThrough W
          (afterPlan W manifest allocation drawn (withText files faults path text))
          drawn.mutationId)) ∧
      (SameOutput W manifest allocation drawn (withText files faults path text)
          (withText files faults path text') →
        text = text' ∨ ¬ GoesThrough W
          (afterPlan W manifest allocation drawn (withText files faults path text))
          drawn.mutationId) := by
  have hat (content : String) : bytesAt (withText files faults path content) path =
      some content.toUTF8 := Function.update_self ..
  have haway (other : Path) (hne : other ≠ path) :
      bytesAt (withText files faults path text) other =
        bytesAt (withText files faults path text') other :=
    (Function.update_of_ne hne _ _).trans (Function.update_of_ne hne _ _).symm
  have honly (hsame : SameOutput W manifest allocation drawn (withText files faults path text)
      (withText files faults path text')) :
      text = text' ∨ ¬ GoesThrough W
        (afterPlan W manifest allocation drawn (withText files faults path text))
        drawn.mutationId := by
    refine or_not_of_imp fun hgoes => ?_
    exact eq_of_sameOutput (hat text) (hat text') haway rfl rfl hmanifest hconfig hversions hmapped
      hgoes hsame
  refine ⟨fun hyaml => ⟨honly, ?_⟩, honly⟩
  rintro (rfl | hstops)
  · rfl
  · rw [SameOutput, runCommands_of_not_goesThrough (hat text) (hat text') haway rfl rfl hmanifest
      hconfig hversions rfl hyaml hstops]

end Commands

/-- A manifest that maps `PORT` in `.env`. -/
def portConfig : ConfigMappings where
  dotenv := [⟨".env", [("PORT", "api")]⟩]
  compose := []
  kubernetes := []

def portManifest : ProjectManifest where
  version := 1
  project := "web"
  host := none
  requests := [⟨"api", "api", "tcp", none, none⟩]
  requestId := none
  config := some portConfig

def sampleDrawn : Drawn := ⟨"m1", "plan", "apply", "rollback"⟩

/-- A project with a `.env` of the given text. -/
def dotenvTree (text : String) : AgentDisk :=
  withText (fun _ => none) (fun _ _ => none) ["project", ".env"] text

theorem validateManifest_port : validateManifest (sampleManifest [".env"]) = .ok portManifest :=
  rfl

theorem mapped_port :
    ∃ mapping ∈ portConfig.dotenv, sampleWorkspace.locate mapping.file = ["project", ".env"] :=
  ⟨_, List.mem_cons_self, by decide⟩

/-- Two passwords; the manifest maps no password. -/
theorem versions_password :
    Versions (mappedKeys sampleWorkspace portConfig ["project", ".env"])
      "PORT=80\nDB_PASSWORD=hunter1\n" "PORT=80\nDB_PASSWORD=hunter2\n" := by
  have hkey : KeyShape "DB_PASSWORD".toList := keyShape_of_isEnvKey (by decide)
  have hlines : (readLines (some "PORT=80\nDB_PASSWORD=hunter1\n")).lines =
      ["PORT=80".toList, "DB_PASSWORD=hunter1".toList] := by decide
  have hlines' : (readLines (some "PORT=80\nDB_PASSWORD=hunter2\n")).lines =
      ["PORT=80".toList, "DB_PASSWORD=hunter2".toList] := by decide
  have hline : matchAssignment "DB_PASSWORD".toList "DB_PASSWORD=hunter1".toList =
      some ([], "hunter1".toList) := by decide
  have hline' : matchAssignment "DB_PASSWORD".toList "DB_PASSWORD=hunter2".toList =
      some ([], "hunter2".toList) := by decide
  refine ⟨by decide, by decide, ?_⟩
  rw [hlines, hlines']
  exact .cons (.refl _) (.cons (.value hkey (by decide) (matches_of_matchAssignment hline)
    (matches_of_matchAssignment hline')) .nil)

theorem sameOutput_iff_password :
    SameOutput sampleWorkspace portManifest sampleAllocation sampleDrawn
        (dotenvTree "PORT=80\nDB_PASSWORD=hunter1\n")
        (dotenvTree "PORT=80\nDB_PASSWORD=hunter2\n") ↔
      "PORT=80\nDB_PASSWORD=hunter1\n" = "PORT=80\nDB_PASSWORD=hunter2\n" ∨
        ¬ GoesThrough sampleWorkspace
          (afterPlan sampleWorkspace portManifest sampleAllocation sampleDrawn
            (dotenvTree "PORT=80\nDB_PASSWORD=hunter1\n")) "m1" :=
  (sameOutput_iff validateManifest_port rfl mapped_port versions_password sampleAllocation
    sampleDrawn (fun _ => none) fun _ _ => none).1 ⟨nofun, nofun⟩

/-- The content of the first file in what `config apply` prints. -/
def Printed.firstContent (printed : Printed) : Option String :=
  match printed.apply with
  | .ok (.dict [_, _, _, _, (_, .list (.dict [_, _, _, (_, .scalar (.str content))] :: _))]) =>
      some content
  | _ => none

/-- `config apply` prints the password. -/
theorem configApply_printsPassword :
    validateManifest (sampleManifest [".env"]) = .ok portManifest ∧
      portManifest.config = some portConfig ∧
      (∃ mapping ∈ portConfig.dotenv,
        sampleWorkspace.locate mapping.file = ["project", ".env"]) ∧
      Versions (mappedKeys sampleWorkspace portConfig ["project", ".env"])
        "PORT=80\nDB_PASSWORD=hunter1\n" "PORT=80\nDB_PASSWORD=hunter2\n" ∧
      (runCommands sampleWorkspace portManifest sampleAllocation sampleDrawn
          (dotenvTree "PORT=80\nDB_PASSWORD=hunter1\n")).shown.firstContent =
        some "PORT=8001\nDB_PASSWORD=hunter1\n" ∧
      ¬ SameOutput sampleWorkspace portManifest sampleAllocation sampleDrawn
        (dotenvTree "PORT=80\nDB_PASSWORD=hunter1\n")
        (dotenvTree "PORT=80\nDB_PASSWORD=hunter2\n") := by
  have hfirst : (runCommands sampleWorkspace portManifest sampleAllocation sampleDrawn
      (dotenvTree "PORT=80\nDB_PASSWORD=hunter1\n")).shown.firstContent =
        some "PORT=8001\nDB_PASSWORD=hunter1\n" := by decide +kernel
  have hsecond : (runCommands sampleWorkspace portManifest sampleAllocation sampleDrawn
      (dotenvTree "PORT=80\nDB_PASSWORD=hunter2\n")).shown.firstContent =
        some "PORT=8001\nDB_PASSWORD=hunter2\n" := by decide +kernel
  refine ⟨validateManifest_port, rfl, mapped_port, versions_password, hfirst, fun hsame => ?_⟩
  rw [SameOutput] at hsame
  rw [hsame, hsecond] at hfirst
  exact absurd hfirst (by decide)

end Agent
