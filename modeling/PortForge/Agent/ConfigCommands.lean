/-
# The config commands

`config plan` leaves a record, `config apply` looks for the newest record of its allocation
that is still planned, and `config rollback` is told which mutation it is to undo. Since an
applied record is not planned any more, the command that has applied a mutation does not find
it again: a second `config apply` stops with an error, or applies an older plan.
-/

import PortForge.Agent.UserEdits
import Mathlib.Data.List.Sort

namespace Agent

open Effects

variable {Document Documents : Type} (W : Workspace Document Documents)

/-! ## The commands -/

/-- `read_file_bytes` of a mutation's `record.json`. -/
def readRecord (mutationId : String) : Task (Option MutationRecord) :=
  .call (.read (.record mutationId)) .ret

/-- The loop of `find_latest_planned_mutation` over the directories below
`.portforge/mutations`. -/
def plannedMutations (allocationId : String) : List String → Task (List MutationRecord)
  | [] => pure []
  | entry :: entries => do
      let found ← readRecord entry
      let candidates ← plannedMutations allocationId entries
      match found with
      | some record =>
          if record.allocationId = allocationId ∧ record.status = .planned then
            pure (record :: candidates)
          else pure candidates
      | none => pure candidates

/-- `find_latest_planned_mutation`, on the directories in the order the system lists them. -/
def findLatestPlannedMutation (entries : List String) (allocationId : String) :
    Task (Option String) := do
  let candidates ← plannedMutations allocationId entries
  -- `reverse=True` leaves ties in the order they came in.
  let sorted := candidates.insertionSort fun first second => second.createdAt ≤ first.createdAt
  pure (sorted.head?.map MutationRecord.mutationId)

/-- `_cmd_config_plan`, once the manifest, the host and the allocation are loaded. -/
def configPlan (manifest : ProjectManifest) (allocation : AllocationData)
    (mutationId createdAt : String) : Task ConfigPlan := do
  let plan ← buildPlan W manifest allocation mutationId createdAt
  persistPlan plan
  pure plan

/-- `_cmd_config_apply`, once the manifest, the host and the allocation are loaded. -/
def configApply (entries : List String) (allocationId now : String) : Task MutationRecord := do
  let found ← findLatestPlannedMutation entries allocationId
  match found with
  | some mutationId => applyMutation W mutationId now
  | none =>
      let root := W.rootText
      .raise (configError "CONFIG_MUTATION_NOT_FOUND"
        (s!"No pending config plan found for allocation '{allocationId}' in {root}. " ++
          "Run 'config plan' first.") 404 [])

/-- The disks that the commands for one allocation and manifest lead to. Any of their writes
may fail. A command whose manifest, host or allocation does not load does nothing. -/
inductive History (manifest : ProjectManifest) (allocation : AllocationData) : AgentDisk → Prop
  | start (d : AgentDisk) (hempty : ∀ mutationId, recordAt d mutationId = none) :
      History manifest allocation d
  | plan {d : AgentDisk} (mutationId createdAt : String) (h : History manifest allocation d) :
      History manifest allocation
        (onDisk (configPlan W manifest allocation mutationId createdAt) d).2
  | apply {d : AgentDisk} (entries : List String) (now : String)
      (h : History manifest allocation d) :
      History manifest allocation (onDisk (configApply W entries allocation.allocationId now) d).2
  | rollback {d : AgentDisk} (mutationId now : String) (h : History manifest allocation d) :
      History manifest allocation (onDisk (rollbackMutation W mutationId now) d).2

/-- `config apply` on this disk reports the mutation of the record, applied, and changes no
file. -/
def Repeats (d : AgentDisk) (entries : List String) (allocationId now : String)
    (record : MutationRecord) : Prop :=
  ∃ again d', onDisk (configApply W entries allocationId now) d = (.ok again, d') ∧
    again.mutationId = record.mutationId ∧ again.status = .applied ∧ bytesAt d' = bytesAt d

variable {W} {d d' : AgentDisk}

/-! ## The plan that is found -/

/-- The record in a directory, if it is a planned one of the allocation. -/
def plannedAt (d : AgentDisk) (allocationId entry : String) : Option MutationRecord :=
  (recordAt d entry).filter fun record =>
    record.allocationId = allocationId ∧ record.status = .planned

theorem onDisk_plannedMutations (allocationId : String) (entries : List String) :
    onDisk (plannedMutations allocationId entries) d =
      (.ok (entries.filterMap (plannedAt d allocationId)), d) := by
  induction entries with
  | nil => rfl
  | cons entry entries ih =>
      have hstep : onDisk (plannedMutations allocationId (entry :: entries)) d =
          onDisk ((plannedMutations allocationId entries).bind fun rest =>
            match recordAt d entry with
            | some record =>
                if record.allocationId = allocationId ∧ record.status = .planned then
                  .ret (record :: rest)
                else .ret rest
            | none => .ret rest) d := rfl
      rw [hstep, onDisk_bind_of_ok ih]
      cases hentry : recordAt d entry with
      | none => simp [plannedAt, hentry]
      | some record =>
          by_cases hplanned : record.allocationId = allocationId ∧ record.status = .planned
          · have hfound : plannedAt d allocationId entry = some record := by
              simp [plannedAt, hentry, hplanned]
            rw [List.filterMap_cons_some hfound]
            simp [hplanned]
          · have hfound : plannedAt d allocationId entry = none := by
              simp [plannedAt, hentry, hplanned, Option.filter]
            rw [List.filterMap_cons_none hfound]
            simp [hplanned]

/-- Looking for the newest plan changes nothing. -/
theorem onDisk_findLatestPlannedMutation (entries : List String) (allocationId : String) :
    onDisk (findLatestPlannedMutation entries allocationId) d =
      (.ok (((entries.filterMap (plannedAt d allocationId)).insertionSort fun first second =>
        second.createdAt ≤ first.createdAt).head?.map MutationRecord.mutationId), d) := by
  rw [findLatestPlannedMutation, Program.bind_eq,
    onDisk_bind_of_ok (onDisk_plannedMutations allocationId entries)]
  rfl

/-- The mutation that is found has a planned record. -/
theorem exists_planned_of_findLatest {entries : List String} {allocationId mutationId : String}
    (h : onDisk (findLatestPlannedMutation entries allocationId) d = (.ok (some mutationId), d)) :
    ∃ entry record, recordAt d entry = some record ∧ record.status = .planned ∧
      record.mutationId = mutationId := by
  rw [onDisk_findLatestPlannedMutation] at h
  have hfound := Except.ok.inj (congrArg Prod.fst h)
  obtain ⟨record, hhead, hid⟩ := Option.map_eq_some_iff.mp hfound
  have hmem := (List.mem_insertionSort _).mp (List.mem_of_mem_head? hhead)
  obtain ⟨entry, -, hentry⟩ := List.mem_filterMap.mp hmem
  obtain ⟨hrecord, hplanned⟩ := Option.filter_eq_some_iff.mp hentry
  exact ⟨entry, record, hrecord, (of_decide_eq_true hplanned).2, hid⟩

/-! ## Records under their names -/

/-- Every record lies in the directory of its own mutation. -/
def Named (d : AgentDisk) : Prop :=
  ∀ mutationId record, recordAt d mutationId = some record → record.mutationId = mutationId

theorem Named.saved (h : Named d) {saved : MutationRecord} (hsaved : SavedOrNot d saved d') :
    Named d' := by
  intro mutationId record hrecord
  rcases hsaved with hsame | hsaved
  · rw [hsame] at hrecord
    exact h mutationId record hrecord
  · rw [hsaved] at hrecord
    by_cases hid : mutationId = saved.mutationId
    · rw [hid, Function.update_self, Option.some_inj] at hrecord
      rw [hid, hrecord]
    · rw [Function.update_of_ne hid] at hrecord
      exact h mutationId record hrecord

theorem Named.apply (h : Named d) (mutationId now : String) :
    Named (onDisk (applyMutation W mutationId now) d).2 := by
  by_cases happly : ∃ record, recordAt d mutationId = some record ∧ record.status ≠ .applied
  · obtain ⟨record, hrecord, hstatus⟩ := happly
    rcases applyMutation_cases (W := W) now hrecord hstatus with
      ⟨-, failure, hrun⟩ | ⟨-, hsaved, -⟩
    · rw [hrun]
      exact h
    · exact h.saved hsaved
  · rw [applyMutation_idle fun record hrecord => not_not.mp fun hstatus =>
      happly ⟨record, hrecord, hstatus⟩]
    exact h

theorem Named.rollback (h : Named d) (mutationId now : String) :
    Named (onDisk (rollbackMutation W mutationId now) d).2 := by
  by_cases hroll : ∃ record, recordAt d mutationId = some record ∧ record.status = .applied
  · obtain ⟨record, hrecord, hstatus⟩ := hroll
    rcases rollbackMutation_cases (W := W) now hrecord hstatus with
      ⟨-, failure, hrun⟩ | ⟨-, hsaved, -⟩
    · rw [hrun]
      exact h
    · exact h.saved hsaved
  · rw [rollbackMutation_idle fun record hrecord hstatus => hroll ⟨record, hrecord, hstatus⟩]
    exact h

theorem Named.plan (h : Named d) (manifest : ProjectManifest) (allocation : AllocationData)
    (mutationId createdAt : String) :
    Named (onDisk (configPlan W manifest allocation mutationId createdAt) d).2 := by
  have hreads := Disk.run_of_reads (d := d)
    (uses_buildPlan (W := W) manifest allocation mutationId createdAt)
  rcases hplan : onDisk (buildPlan W manifest allocation mutationId createdAt) d with ⟨result, d₁⟩
  have hsame : d₁ = d := (congrArg Prod.snd hplan).symm.trans hreads
  subst hsame
  cases result with
  | error failure =>
      rw [configPlan, Program.bind_eq, onDisk_bind_of_error hplan]
      exact h
  | ok plan =>
      have hrun : (onDisk (configPlan W manifest allocation mutationId createdAt) d₁).2 =
          (onDisk (saveRecord .plan plan.record) d₁).2 := by
        rw [configPlan, Program.bind_eq, onDisk_bind_of_ok hplan]
        exact onDisk_bind_ret_snd (persistPlan plan) fun _ => plan
      rw [hrun]
      exact h.saved (savedOrNot_saveRecord .plan plan.record)

/-! ## What the command does -/

/-- The command applies a mutation that is planned, or stops and changes nothing. -/
theorem configApply_cases (h : Named d) (entries : List String) (allocationId now : String) :
    (∃ failure, onDisk (configApply W entries allocationId now) d = (.error failure, d)) ∨
      ∃ mutationId record, recordAt d mutationId = some record ∧ record.status = .planned ∧
        onDisk (configApply W entries allocationId now) d =
          onDisk (applyMutation W mutationId now) d := by
  have hfind := onDisk_findLatestPlannedMutation (d := d) entries allocationId
  rw [configApply, Program.bind_eq, onDisk_bind_of_ok hfind]
  generalize Option.map MutationRecord.mutationId _ = found at hfind
  cases found with
  | none => exact .inl ⟨_, rfl⟩
  | some mutationId =>
      obtain ⟨entry, record, hentry, hstatus, hid⟩ := exists_planned_of_findLatest hfind
      have hsame : entry = mutationId := (h entry record hentry).symm.trans hid
      exact .inr ⟨mutationId, record, hsame ▸ hentry, hstatus, rfl⟩

theorem recordAt_of_saveRecord {site : Site} {record : MutationRecord}
    (h : onDisk (saveRecord site record) d = (.ok (), d')) :
    recordAt d' record.mutationId = some record := by
  cases hfault : d.faults site 0 with
  | some error =>
      rw [saveRecord, onDisk_atomicWrite_of_some hfault] at h
      cases h
  | none =>
      rw [saveRecord, onDisk_atomicWrite_of_none hfault] at h
      cases h
      exact Disk.put_content_self

/-- A mutation that was applied now has an applied record, which is what was returned. -/
theorem recordAt_of_applyMutation {mutationId now : String} {record result : MutationRecord}
    (hrecord : recordAt d mutationId = some record) (hstatus : record.status ≠ .applied)
    (h : onDisk (applyMutation W mutationId now) d = (.ok result, d')) :
    result.mutationId = record.mutationId ∧ result.status = .applied ∧
      recordAt d' record.mutationId = some result := by
  rw [applyMutation, Program.bind_eq, onDisk_bind_of_ok (onDisk_loadRecord hrecord),
    if_neg hstatus] at h
  obtain ⟨-, d₁, -, h⟩ := onDisk_bind_eq_ok h
  obtain ⟨prepared, d₂, -, h⟩ := onDisk_bind_eq_ok h
  obtain ⟨⟨written, outcome⟩, d₃, -, h⟩ := onDisk_bind_eq_ok h
  cases outcome with
  | error failure =>
      obtain ⟨-, d₄, -, h⟩ := onDisk_bind_eq_ok h
      cases h
  | ok files =>
      obtain ⟨⟨⟩, d₄, hsave, h⟩ := onDisk_bind_eq_ok h
      obtain ⟨hresult, hdisk⟩ := Prod.mk.inj h
      rw [← Except.ok.inj hresult, ← hdisk]
      exact ⟨rfl, rfl, recordAt_of_saveRecord hsave⟩

variable {manifest : ProjectManifest} {allocation : AllocationData}

theorem Named.configApply (h : Named d) (entries : List String) (allocationId now : String) :
    Named (onDisk (configApply W entries allocationId now) d).2 := by
  rcases configApply_cases (W := W) h entries allocationId now with
    ⟨failure, hrun⟩ | ⟨mutationId, record, -, -, hrun⟩
  · rw [hrun]
    exact h
  · rw [hrun]
    exact h.apply mutationId now

theorem named_of_history (h : History W manifest allocation d) : Named d := by
  induction h with
  | start d hempty =>
      intro mutationId record hrecord
      rw [hempty] at hrecord
      cases hrecord
  | plan mutationId createdAt _ ih => exact ih.plan manifest allocation mutationId createdAt
  | apply entries now _ ih => exact ih.configApply entries allocation.allocationId now
  | rollback mutationId now _ ih => exact ih.rollback mutationId now

/-- After every history, a `config apply` that follows a `config apply` which returned never
reports the mutation that is applied: it stops, or it has applied another one. -/
theorem not_repeats_of_history (h : History W manifest allocation d) {entries : List String}
    {now : String} {record : MutationRecord}
    (happly : onDisk (configApply W entries allocation.allocationId now) d = (.ok record, d'))
    (later : List String) (afterwards : String) :
    ¬ Repeats W d' later allocation.allocationId afterwards record := by
  have hnamed := named_of_history h
  have hnamed' : Named d' := by
    have hkept := hnamed.configApply (W := W) entries allocation.allocationId now
    rwa [happly] at hkept
  -- The record of the mutation that was applied.
  have hrecord : recordAt d' record.mutationId = some record ∧ record.status = .applied := by
    rcases configApply_cases (W := W) hnamed entries allocation.allocationId now with
      ⟨failure, hrun⟩ | ⟨mutationId, planned, hplanned, hstatus, hrun⟩
    · rw [happly] at hrun
      cases hrun
    · obtain ⟨hid, happlied, hsaved⟩ := recordAt_of_applyMutation hplanned
        (by rw [hstatus]; decide) (hrun.symm.trans happly)
      rw [hid]
      exact ⟨hsaved, happlied⟩
  rintro ⟨again, d'', hagain, hid, -, -⟩
  rcases configApply_cases (W := W) hnamed' later allocation.allocationId afterwards with
    ⟨failure, hrun⟩ | ⟨mutationId, planned, hplanned, hstatus, hrun⟩
  · rw [hagain] at hrun
    cases hrun
  · obtain ⟨hsame, -, -⟩ := recordAt_of_applyMutation hplanned
      (by rw [hstatus]; decide) (hrun.symm.trans hagain)
    have hmutation : record.mutationId = mutationId := by
      rw [← hid, hsame, hnamed' mutationId planned hplanned]
    rw [← hmutation, hrecord.1, Option.some_inj] at hplanned
    rw [← hplanned, hrecord.2] at hstatus
    cases hstatus

/-! ## Two plans of a project that is up to date -/

/-- `.env` sets `PORT` to 8001 already when two plans are made. -/
def twicePlanned : AgentDisk :=
  (onDisk (configPlan sampleWorkspace dotenvManifest ⟨"a1", [("web", 8001)]⟩ "m2" "2026-01-02")
    (onDisk (configPlan sampleWorkspace dotenvManifest ⟨"a1", [("web", 8001)]⟩ "m1" "2026-01-01")
      (sampleDisk [(".env", "PORT=8001\n")] [] fun _ _ => none)).2).2

theorem history_twicePlanned :
    History sampleWorkspace dotenvManifest ⟨"a1", [("web", 8001)]⟩ twicePlanned :=
  .plan "m2" "2026-01-02" (.plan "m1" "2026-01-01" (.start _ fun _ => rfl))

/-- The first `config apply` applies the newer plan. -/
def firstApplied : Except ConfigFailure MutationRecord × AgentDisk :=
  onDisk (configApply sampleWorkspace ["m1", "m2"] "a1" "first") twicePlanned

/-- The newer plan's record, once it is applied. -/
def newerRecord : MutationRecord :=
  { mutationId := "m2"
    allocationId := "a1"
    project := "web"
    projectRoot := "/project"
    createdAt := "2026-01-02"
    status := .applied
    files := [⟨".env", .dotenv, .noChange, some "PORT=8001\n", "PORT=8001\n",
      some "PORT=8001\n"⟩]
    appliedAt := some "first"
    rolledBackAt := none }

theorem not_repeats_of_history_sample :
    ¬ Repeats sampleWorkspace firstApplied.2 ["m1", "m2"] "a1" "second" newerRecord :=
  not_repeats_of_history history_twicePlanned
    (show firstApplied = (.ok newerRecord, firstApplied.2) from rfl) ["m1", "m2"] "second"

/-- The second `config apply` applies the older plan. -/
theorem configApply_applies_older :
    History sampleWorkspace dotenvManifest ⟨"a1", [("web", 8001)]⟩ twicePlanned ∧
      firstApplied.1 = .ok newerRecord ∧
      (∃ older, (onDisk (configApply sampleWorkspace ["m1", "m2"] "a1" "second")
        firstApplied.2).1 = .ok older ∧ older.mutationId = "m1" ∧ older.status = .applied) ∧
      ¬ Repeats sampleWorkspace firstApplied.2 ["m1", "m2"] "a1" "second" newerRecord := by
  refine ⟨history_twicePlanned, rfl, ⟨_, rfl, rfl, rfl⟩, ?_⟩
  rintro ⟨again, d'', hagain, hid, -, -⟩
  have hresult := congrArg (fun run => run.1.toOption.map MutationRecord.mutationId) hagain
  have holder : (onDisk (configApply sampleWorkspace ["m1", "m2"] "a1" "second")
      firstApplied.2).1.toOption.map MutationRecord.mutationId = some "m1" := rfl
  have hnewer : some again.mutationId = some "m1" := hresult.symm.trans holder
  rw [hid] at hnewer
  exact absurd hnewer (by decide)

end Agent
