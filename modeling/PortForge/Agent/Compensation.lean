/-
# Compensation

One call of `apply_workflow`, whatever Central answers. When it raises after Central has
reported a new allocation, the allocation is released, no project file has changed and the
record says so, as long as the config step ends with an exception that its handler names and
the answer to the release arrives.
-/

import PortForge.Agent.RollbackRetry
import PortForge.Agent.RollbackRoundTrip
import PortForge.Agent.Workflow

namespace Agent

open Effects

/-! ## A disk inside a state -/

/-- The handler answers the operations on the disk from the disk that the state holds. -/
structure HoldsDisk {S : Type} (handle : (op : WorkflowOp) → S → op.Answer × S)
    (disk : S → AgentDisk) (put : S → AgentDisk → S) : Prop where
  handles : ∀ op s, handle (.disk op) s =
    ((Disk.handle op (disk s)).1, put s (Disk.handle op (disk s)).2)
  disk_put : ∀ s d, disk (put s d) = d
  put_put : ∀ s d d', put (put s d) d' = put s d'
  put_disk : ∀ s, put s (disk s) = s

/-- The config commands work on the disk alone. -/
theorem HoldsDisk.run_attemptTask {S : Type} {handle : (op : WorkflowOp) → S → op.Answer × S}
    {disk : S → AgentDisk} {put : S → AgentDisk → S} (h : HoldsDisk handle disk put) {α : Type}
    (task : Task α) (s : S) :
    (attemptTask task).run handle s =
      (.ok (onDisk task (disk s)).1, put s (onDisk task (disk s)).2) := by
  induction task generalizing s with
  | ret value =>
      show (_, s) = (_, put s (disk s))
      rw [h.put_disk]
      rfl
  | raise failure =>
      show (_, s) = (_, put s (disk s))
      rw [h.put_disk]
      rfl
  | call op next ih =>
      refine (Program.run_call_of_handle (h.handles op s)).trans ((ih _ _).trans ?_)
      rw [h.disk_put, h.put_put]
      rfl

/-! ## One call -/

/-- What a call works on: the disk, the record of its request id, the failures to come where that
record is written, and what the call has saved and released. -/
structure Attempt where
  disk : AgentDisk
  record : Option WorkflowRecord
  faults : ℕ → Option String
  saved : List WorkflowRecord := []
  released : List String := []

/-- How Central answers a call, which asks it to create once and to release once. A release whose
answer breaks off may have been carried out. -/
structure CentralAnswers where
  created : Except String CreateResult
  releases : String → Except String Bool
  carriesOut : String → Bool

/-- Whether the allocation is gone after the release. -/
def CentralAnswers.frees (central : CentralAnswers) (allocationId : String) : Bool :=
  match central.releases allocationId with
  | .ok released => released
  | .error _ => central.carriesOut allocationId

/-- After a write of the record. -/
def Attempt.saves (s : Attempt) (record : WorkflowRecord) : Attempt :=
  { s with
    record := some record
    faults := fun n => s.faults (n + 1)
    saved := s.saved ++ [record] }

def Attempt.frees (s : Attempt) (allocationId : String) : Attempt :=
  { s with released := s.released ++ [allocationId] }

def Attempt.on (s : Attempt) (disk : AgentDisk) : Attempt := { s with disk := disk }

/-- What an operation of the call answers and leaves behind. -/
def CentralAnswers.handle (central : CentralAnswers) :
    (op : WorkflowOp) → Attempt → op.Answer × Attempt
  | .loadRecord _, s => (s.record, s)
  | .saveRecord record, s =>
      match s.faults 0 with
      | some error => (some error, { s with faults := fun n => s.faults (n + 1) })
      | none => (none, s.saves record)
  | .create _, s => (central.created, s)
  | .release allocationId, s =>
      (central.releases allocationId,
        if central.frees allocationId then s.frees allocationId else s)
  | .disk op, s => ((Disk.handle op s.disk).1, s.on (Disk.handle op s.disk).2)

variable {central : CentralAnswers} {s s' : Attempt}

theorem CentralAnswers.holdsDisk (central : CentralAnswers) :
    HoldsDisk central.handle Attempt.disk Attempt.on :=
  ⟨fun _ _ => rfl, fun _ _ => rfl, fun _ _ _ => rfl, fun _ => rfl⟩

section Applying

variable {Document Documents : Type} {W : Workspace Document Documents} {d d' : AgentDisk}

end Applying

/-! ## The config step -/

section ConfigStep

variable {Document Documents : Type} (W : Workspace Document Documents)

/-- `build_plan` and `persist_plan`. -/
def planned (call : WorkflowCall) (allocation : AllocationData) : Task String := do
  let plan ← buildPlan W call.manifest allocation call.mutationId call.now
  persistPlan plan
  pure plan.mutationId

/-- What the `try` block of the config step runs. -/
def configured (call : WorkflowCall) (allocation : AllocationData) : Task Unit := do
  let mutationId ← planned W call allocation
  let _ ← applyMutation W mutationId call.now
  pure ()

variable (call : WorkflowCall) (allocation : AllocationData) {W} {d : AgentDisk}

/-- Where planning succeeds, the `try` block goes on to apply. -/
theorem onDisk_configured {mutationId : String} {d₁ : AgentDisk}
    (h : onDisk (planned W call allocation) d = (.ok mutationId, d₁)) :
    onDisk (configured W call allocation) d =
      ((onDisk (applyMutation W mutationId call.now) d₁).1.map fun _ => (),
        (onDisk (applyMutation W mutationId call.now) d₁).2) := by
  refine (onDisk_bind_of_ok h).trans ?_
  rcases happly : onDisk (applyMutation W mutationId call.now) d₁ with ⟨outcome, d₂⟩
  cases outcome with
  | error failure => exact onDisk_bind_of_error happly
  | ok applied => exact onDisk_bind_of_ok happly

/-- The config step does what its `try` block does. -/
theorem HoldsDisk.run_configStep {S : Type} {handle : (op : WorkflowOp) → S → op.Answer × S}
    {disk : S → AgentDisk} {put : S → AgentDisk → S} (h : HoldsDisk handle disk put) (s : S) :
    (configStep W call allocation).run handle s =
      (.ok ((onDisk (planned W call allocation) (disk s)).1.toOption,
          (onDisk (configured W call allocation) (disk s)).1),
        put s (onDisk (configured W call allocation) (disk s)).2) := by
  have hrun := h.run_attemptTask (planned W call allocation) s
  rcases hplanned : onDisk (planned W call allocation) (disk s) with ⟨result, d₁⟩
  rw [hplanned] at hrun
  refine (Program.run_bind_of_ok hrun).trans ?_
  cases result with
  | error failure =>
      have hconfigured : onDisk (configured W call allocation) (disk s) = (.error failure, d₁) :=
        onDisk_bind_of_error hplanned
      rw [hconfigured]
      rfl
  | ok mutationId =>
      refine (Program.run_bind_of_ok (h.run_attemptTask _ _)).trans ?_
      rw [onDisk_configured call allocation hplanned, h.disk_put, h.put_put]
      rfl

end ConfigStep

/-! ## The handler -/

/-- What `_compensate` reports of the allocation, or what the release raises. -/
def reported (central : CentralAnswers) (allocationId : String) (created : Bool) :
    Except WorkflowFailure String :=
  if created then
    match central.releases allocationId with
    | .ok released =>
        .ok (if released then "allocation_released" else "allocation_release_failed")
    | .error message => .error (.http message)
  else .ok "allocation_preserved_not_created_by_this_attempt"

section Handler

variable {Document Documents : Type} (W : Workspace Document Documents)

end Handler

/-! ## What a call leaves behind when it raises -/

section Calls

variable {Document Documents : Type} (W : Workspace Document Documents)
  (hashManifest : ProjectManifest → String)

variable {W hashManifest} {call : WorkflowCall} {answer : AllocationAnswer}
  {failure : WorkflowFailure}

end Calls

/-! ## A Compose file that cannot be read -/

/-- One port, mapped into `compose.yaml`. -/
def composeManifest : ProjectManifest where
  version := 1
  project := "shop"
  host := none
  requests := [⟨"api", "api", "tcp", some 8000, none⟩]
  requestId := some "req-1"
  config := some ⟨[], [⟨"compose.yaml", [("api", [⟨"api", 80, "tcp"⟩])]⟩], []⟩

def composeCall : WorkflowCall where
  manifest := composeManifest
  host := ⟨"h1", "web-1"⟩
  requestId := "req-1"
  mutationId := "m1"
  now := "2026-01-01T00:00:00+00:00"

end Agent
