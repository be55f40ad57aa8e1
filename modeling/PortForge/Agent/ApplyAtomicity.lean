/-
# Applying a mutation, all or nothing

Whatever write fails in front of the last one, `apply_mutation` puts every target
back. The last write, of the record itself, lies outside the handler: when it fails
the targets stay written. And where two files of a plan have one target the second
write wins, so the first one's content is not what the target ends up with.
-/

import PortForge.Agent.Mutations

namespace Agent

open Effects

variable {Document Documents : Type} {W : Workspace Document Documents} {d : AgentDisk}
  {files : List FileRecord}

/-- Either no target has changed, or every target holds its planned content and the
stored record says so. -/
def AllOrNothing (W : Workspace Document Documents) (files : List FileRecord) (mutationId : String)
    (d : AgentDisk) (outcome : Except ConfigFailure MutationRecord × AgentDisk) : Prop :=
  match outcome.1 with
  | .error _ =>
      ∀ file ∈ files, file.Inside W →
        bytesAt outcome.2 (file.target W) = bytesAt d (file.target W)
  | .ok _ =>
      (∀ file ∈ files, file.Inside W ∧ bytesAt outcome.2 (file.target W) = some file.rendered) ∧
        ∃ stored, recordAt outcome.2 mutationId = some stored ∧ stored.status = .applied

/-- No later file of the plan has the same target. -/
def LastOfTarget (W : Workspace Document Documents) (files : List FileRecord) (file : FileRecord) :
    Prop :=
  ∃ before after, files = before ++ file :: after ∧
    ∀ later ∈ after, later.target W ≠ file.target W

/-- Every target already holds what the plan gives it. -/
def NothingToChange (W : Workspace Document Documents) (d : AgentDisk) (files : List FileRecord) :
    Prop :=
  ∀ file, LastOfTarget W files file → bytesAt d (file.target W) = some file.rendered

/-- Files of the plan with one target are planned to hold the same. -/
def Agreeing (W : Workspace Document Documents) (files : List FileRecord) : Prop :=
  ∀ file ∈ files, ∀ other ∈ files, file.target W = other.target W → file.rendered = other.rendered

/-- A target has a last file. -/
theorem exists_lastOfTarget {file : FileRecord} (h : file ∈ files) :
    ∃ last, LastOfTarget W files last ∧ last.target W = file.target W := by
  induction files generalizing file with
  | nil => cases h
  | cons first rest ih =>
      by_cases hlater : ∃ later ∈ rest, later.target W = file.target W
      · obtain ⟨later, hmem, htarget⟩ := hlater
        obtain ⟨last, ⟨before, after, hsplit, hafter⟩, hlast⟩ := ih hmem
        exact ⟨last, ⟨first :: before, after, by rw [hsplit, List.cons_append], hafter⟩,
          hlast.trans htarget⟩
      · have hhead : file = first := by
          rcases List.mem_cons.mp h with hhead | htail
          · exact hhead
          · exact (hlater ⟨file, htail, rfl⟩).elim
        subst hhead
        exact ⟨file, ⟨[], rest, rfl, fun later hmem hsame => hlater ⟨later, hmem, hsame⟩⟩, rfl⟩

/-- A target ends with what the last of its files writes. -/
theorem updateAll_of_lastOfTarget {β : Type} {content : Path → β} (value : FileRecord → β)
    {file : FileRecord} (h : LastOfTarget W files file) :
    updateAll content (files.map fun file => (file.target W, value file)) (file.target W) =
      value file := by
  obtain ⟨before, after, rfl, hafter⟩ := h
  rw [List.map_append, List.map_cons]
  refine updateAll_of_last fun hmem => ?_
  rw [List.map_map] at hmem
  obtain ⟨later, hlater, hsame⟩ := List.mem_map.mp hmem
  exact hafter later hlater hsame

/-- Applying leaves every target alone exactly if there is nothing to change. -/
theorem afterApply_eq_iff :
    (∀ file ∈ files, afterApply W d files (file.target W) = bytesAt d (file.target W)) ↔
      NothingToChange W d files := by
  refine ⟨fun h file hlast => ?_, fun h file hfile => ?_⟩
  · have hmem : file ∈ files := by
      obtain ⟨before, after, rfl, -⟩ := hlast
      exact List.mem_append_right before List.mem_cons_self
    rw [← h file hmem]
    exact updateAll_of_lastOfTarget (fun file => some file.rendered) hlast
  · obtain ⟨last, hlast, htarget⟩ := exists_lastOfTarget (W := W) hfile
    rw [← htarget, h last hlast]
    exact updateAll_of_lastOfTarget (fun file => some file.rendered) hlast

/-- Applying gives every target its planned content exactly if the plan agrees with itself. -/
theorem afterApply_eq_rendered_iff :
    (∀ file ∈ files, afterApply W d files (file.target W) = some file.rendered) ↔
      Agreeing W files := by
  refine ⟨fun h file hfile other hother htarget => ?_, fun h file hfile => ?_⟩
  · have hboth : some file.rendered = some other.rendered := by
      rw [← h file hfile, ← h other hother, htarget]
    exact Option.some_inj.mp hboth
  · have hmem : file.target W ∈ (files.map (FileRecord.update W)).map Prod.fst := by
      rw [List.map_map]
      exact List.mem_map_of_mem hfile
    obtain ⟨other, hother, heq⟩ := List.mem_map.mp (updateAll_mem (f := bytesAt d) hmem)
    rw [FileRecord.update, Prod.mk.injEq] at heq
    rw [afterApply, ← heq.2, h file hfile other hother heq.1.symm]

/-- For every recorded plan, every state of the files and every choice of failing writes
(the restoring ones apart): `apply_mutation` is all or nothing exactly if, where it
gets as far as saving the record, either that write succeeds and the plan agrees with
itself, or it fails and the plan changes nothing. -/
theorem applyMutation_allOrNothing_iff {plan : ConfigPlan} {now : String}
    (hrecord : recordAt d plan.mutationId = some plan.record)
    (hrestore : ∀ n, d.faults .restore n = none) :
    AllOrNothing W plan.record.files plan.mutationId d
        (onDisk (applyMutation W plan.mutationId now) d) ↔
      (Reaches W d plan.record.files →
        if d.faults .record 0 = none then Agreeing W plan.record.files
        else NothingToChange W d plan.record.files) := by
  have hstatus : plan.record.status ≠ .applied := by simp [ConfigPlan.record]
  rcases onDisk_applyMutation now hrecord hstatus hrestore with
    ⟨hnot, failure, d', hrun, hbytes, -, -⟩ | ⟨hreaches, hfault, failure, d', hrun, hbytes⟩ |
      ⟨hreaches, hfault, d', hrun, hbytes, hrecords, -⟩
  · refine iff_of_true ?_ fun h => (hnot h).elim
    rw [hrun]
    intro file _ _
    rw [hbytes]
  · rw [hrun, if_neg hfault, ← afterApply_eq_iff]
    refine ⟨fun h _ file hfile => ?_, fun h file hfile _ => ?_⟩
    · rw [← hbytes]
      exact h file hfile (hreaches.unchanged file hfile).1
    · rw [hbytes]
      exact h hreaches file hfile
  · rw [hrun, if_pos hfault, ← afterApply_eq_rendered_iff (d := d)]
    refine ⟨fun h _ file hfile => ?_, fun h => ⟨fun file hfile => ?_, plan.record.applied W now,
        ?_, rfl⟩⟩
    · rw [← hbytes]
      exact (h.1 file hfile).2
    · rw [hbytes]
      exact ⟨(hreaches.unchanged file hfile).1, h hreaches file hfile⟩
    · rw [hrecords]
      exact Function.update_self _ _ _

/-! ## A project with one dotenv file -/

/-- A project below `/project`, without YAML files. -/
def sampleWorkspace : Workspace Unit Unit where
  root := ["project"]
  rootText := "/project"
  locate file := "project" :: (file.toList.splitOn '/').map String.ofList
  sha256 bytes := (String.fromUTF8? bytes).getD ""
  editors :=
    { loadCompose := fun _ => .error ⟨"CONFIG_PARSE_ERROR", "not YAML", []⟩
      applyPortMapping := fun _ _ _ _ _ => .error ⟨"COMPOSE_SERVICE_NOT_FOUND", "no service", []⟩
      dumpCompose := fun _ => ""
      loadKubernetesDocuments := fun _ => .error ⟨"CONFIG_PARSE_ERROR", "not YAML", []⟩
      applyHostPort := fun _ _ _ => .error ⟨"KUBERNETES_RESOURCE_NOT_FOUND", "no resource", []⟩
      applyNodePort := fun _ _ _ => .error ⟨"KUBERNETES_RESOURCE_NOT_FOUND", "no resource", []⟩
      dumpKubernetesDocuments := fun _ => "" }

/-- A disk with the given project files and mutation records. -/
def sampleDisk (files : List (String × String)) (records : List MutationRecord)
    (faults : Site → ℕ → Option String) : AgentDisk where
  content := fun location =>
    match location with
    | .file path =>
        (files.find? fun file => sampleWorkspace.locate file.1 = path).map fun file => file.2.toUTF8
    | .record mutationId => records.find? fun record => record.mutationId = mutationId
    | .backup _ _ => none
  faults := faults

/-- A plan that sets `PORT` in `.env` to 8001. -/
def samplePlan : ConfigPlan where
  mutationId := "m1"
  allocationId := "a1"
  project := "web"
  projectRoot := "/project"
  createdAt := "2026-01-01T00:00:00+00:00"
  files := [⟨".env", .dotenv, .willUpdate, some "PORT=80\n", "PORT=8001\n", []⟩]

/-- A plan that sets `PORT` to 8001 in two dotenv files. -/
def twoFilePlan : ConfigPlan :=
  { samplePlan with
    files :=
      [⟨"a.env", .dotenv, .willUpdate, some "PORT=80\n", "PORT=8001\n", []⟩,
        ⟨"b.env", .dotenv, .willUpdate, some "PORT=81\n", "PORT=8001\n", []⟩] }

/-- A project in which the second write of a target fails. -/
def unwritableDisk : AgentDisk :=
  sampleDisk [("a.env", "PORT=80\n"), ("b.env", "PORT=81\n")] [twoFilePlan.record] fun site n =>
    if site = .target ∧ n = 1 then some "disk full" else none

/-- The second file cannot be written, and the first one is restored. -/
theorem applyMutation_allOrNothing_iff_sample :
    (onDisk (applyMutation sampleWorkspace "m1" "now") unwritableDisk).1.isOk = false ∧
      AllOrNothing sampleWorkspace twoFilePlan.record.files "m1" unwritableDisk
        (onDisk (applyMutation sampleWorkspace "m1" "now") unwritableDisk) := by
  have hagreeing : ∀ file ∈ twoFilePlan.record.files, ∀ other ∈ twoFilePlan.record.files,
      file.target sampleWorkspace = other.target sampleWorkspace →
        file.rendered = other.rendered := by decide +kernel
  refine ⟨by decide +kernel, ?_⟩
  refine (@applyMutation_allOrNothing_iff _ _ sampleWorkspace unwritableDisk twoFilePlan "now" rfl
    fun _ => rfl).mpr fun _ => ?_
  have hsaved : unwritableDisk.faults .record 0 = none := rfl
  rw [if_pos hsaved]
  exact hagreeing

/-- When saving the record fails, the targets stay written. -/
theorem applyMutation_leavesTargets :
    ¬ AllOrNothing sampleWorkspace samplePlan.record.files "m1"
        (sampleDisk [(".env", "PORT=80\n")] [samplePlan.record]
          fun site _ => if site = .record then some "disk full" else none)
        (onDisk (applyMutation sampleWorkspace "m1" "now")
          (sampleDisk [(".env", "PORT=80\n")] [samplePlan.record]
            fun site _ => if site = .record then some "disk full" else none)) := by
  intro h
  have hkept := (show ∀ file ∈ samplePlan.record.files, _ from h) _ List.mem_cons_self rfl
  revert hkept
  decide

end Agent
