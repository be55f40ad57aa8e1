/-
# What a workflow releases

Attempts of `apply_workflow` share one project, one disk and one Central. An attempt may be
killed after any operation, its create request may still reach Central, and Central may
fail or refuse. A release is compensation for an allocation that the attempt's own request
inserted, as long as Central's answers tell truthfully which request inserted it.
-/

import PortForge.Agent.Compensation
import PortForge.Central.Idempotency
import PortForge.Effects.Threads

namespace Fleet

open Agent Effects

/-! ## The surroundings of the attempts -/

/-- Whose request inserted an allocation. -/
inductive Origin
  | attempt (n : ℕ)
  | elsewhere
  deriving DecidableEq

/-- What happens at one operation: whether a record can be written, which requests have inserted
allocations by then, and how Central answers. -/
structure Weather where
  saveError : Option String := none
  insertions : List (Origin × String) := []
  created : Except String CreateResult
  released : Except String Bool := .ok true

/-- The disk, the workflow records, whose request inserted which allocation, and what the attempts
were told to be a replay and have released. -/
structure Surroundings where
  disk : AgentDisk
  records : String → Option WorkflowRecord
  insertedBy : String → Option Origin
  replayed : List (ℕ × String) := []
  released : List (ℕ × String) := []
  clock : ℕ := 0

/-- An allocation is inserted once. -/
def insert (insertedBy : String → Option Origin) (insertion : Origin × String) :
    String → Option Origin :=
  if insertedBy insertion.2 = none then
    Function.update insertedBy insertion.2 (some insertion.1)
  else insertedBy

def insertAll (insertedBy : String → Option Origin) (insertions : List (Origin × String)) :
    String → Option Origin :=
  insertions.foldl insert insertedBy

/-- The allocation an answer calls a replay. -/
def replayOf : Except String CreateResult → Option String
  | .ok (.success answer) =>
      if answer.idempotentReplay then some answer.allocation.allocationId else none
  | _ => none

/-- The allocation an answer calls new. -/
def novelOf : Except String CreateResult → Option String
  | .ok (.success answer) =>
      if answer.idempotentReplay then none else some answer.allocation.allocationId
  | _ => none

/-- What an operation of an attempt answers and leaves behind; `key` is the digest by which records
are filed. -/
def handle (key : String → String) (weather : ℕ → Weather) :
    Handler ℕ WorkflowOp WorkflowOp.Answer Surroundings
  | _, .loadRecord requestId, s => (s.records (key requestId), { s with clock := s.clock + 1 })
  | _, .saveRecord record, s =>
      match (weather s.clock).saveError with
      | some error => (some error, { s with clock := s.clock + 1 })
      | none =>
          (none, { s with
            records := Function.update s.records (key record.requestId) (some record)
            clock := s.clock + 1 })
  | n, .create _, s =>
      ((weather s.clock).created,
        { s with
          insertedBy := insertAll s.insertedBy (weather s.clock).insertions
          replayed :=
            s.replayed ++ (replayOf (weather s.clock).created).toList.map fun id => (n, id)
          clock := s.clock + 1 })
  | n, .release allocationId, s =>
      ((weather s.clock).released,
        { s with released := s.released ++ [(n, allocationId)], clock := s.clock + 1 })
  | _, .disk op, s =>
      ((Disk.handle op s.disk).1,
        { s with disk := (Disk.handle op s.disk).2, clock := s.clock + 1 })

/-- Attempts at work. -/
abbrev Attempts : Type :=
  Threads ℕ WorkflowOp WorkflowOp.Answer WorkflowFailure Surroundings WorkflowResult

/-- Where Central answers an attempt that an allocation is new, the attempt's request inserted
it. -/
def answersTruly (weather : ℕ → Weather) (τ : Attempts) (n : ℕ) : Prop :=
  ∀ body next id, τ.program n = .call (.create body) next →
    novelOf (weather τ.state.clock).created = some id →
      insertAll τ.state.insertedBy (weather τ.state.clock).insertions id = some (.attempt n)

/-! ## What a program may release -/

/-- Having asked Central at most once, and been told that `held` is new, a program releases that
allocation only. -/
def Licensed {α : Type} : Option (Option String) → WorkflowProgram α → Prop
  | _, .ret _ => True
  | _, .raise _ => True
  | licence, .call (.create _) next =>
      licence = none ∧ ∀ answer, Licensed (some (novelOf answer)) (next answer)
  | licence, .call (.release id) next =>
      licence = some (some id) ∧ ∀ answer, Licensed licence (next answer)
  | licence, .call (.loadRecord _) next => ∀ answer, Licensed licence (next answer)
  | licence, .call (.saveRecord _) next => ∀ answer, Licensed licence (next answer)
  | licence, .call (.disk _) next => ∀ answer, Licensed licence (next answer)

/-- The operation leaves Central alone. -/
def Local : WorkflowOp → Prop
  | .create _ => False
  | .release _ => False
  | _ => True

section Licences

variable {α β : Type} {licence : Option (Option String)} {p : WorkflowProgram α}

/-- A local part in front keeps the licence. -/
theorem licensed_bind {f : α → WorkflowProgram β} (hp : p.Uses Local)
    (hf : ∀ value, Licensed licence (f value)) : Licensed licence (p.bind f) := by
  induction p with
  | ret value => exact hf value
  | raise error => trivial
  | call op next ih =>
      cases op with
      | create body => exact hp.1.elim
      | release id => exact hp.1.elim
      | loadRecord requestId => exact fun answer => ih answer (hp.2 answer)
      | saveRecord record => exact fun answer => ih answer (hp.2 answer)
      | disk op => exact fun answer => ih answer (hp.2 answer)

theorem local_attemptTask (task : Agent.Task α) : (attemptTask task).Uses Local := by
  induction task with
  | ret value | raise failure => trivial
  | call op next ih => exact ⟨trivial, ih⟩

theorem local_loadWorkflowRecord (requestId : String) :
    (loadWorkflowRecord requestId).Uses Local := ⟨trivial, fun _ => trivial⟩

theorem local_saveWorkflowRecord (record : WorkflowRecord) :
    (saveWorkflowRecord record).Uses Local := by
  refine ⟨trivial, fun answer => ?_⟩
  match answer with
  | none => trivial
  | some error => trivial

variable {Document Documents : Type} (W : Workspace Document Documents)
  (hashManifest : ProjectManifest → String)

theorem local_compensateConfig (mutationId now : String) :
    (compensateConfig W mutationId now).Uses Local := by
  refine (local_attemptTask _).bind fun outcome => ?_
  match outcome with
  | .ok action => trivial
  | .error (.config error) => trivial
  | .error (.path message) => trivial
  | .error (.os message) => trivial
  | .error .unicode => trivial
  | .error (.compose error) => trivial
  | .error (.key name) => trivial

theorem local_configStep (call : WorkflowCall) (allocation : AllocationData) :
    (configStep W call allocation).Uses Local := by
  refine (local_attemptTask _).bind fun planned => ?_
  match planned with
  | .error failure => trivial
  | .ok mutationId => exact (local_attemptTask _).bind fun _ => trivial

/-- Compensation releases what the attempt has been told is new, and what follows it asks nothing
of Central. -/
theorem licensed_compensate (mutationId : Option String) (now allocationId : String)
    (created : Bool) {held : Option String} (hheld : created = true → held = some allocationId)
    {f : List String → WorkflowProgram α} (hf : ∀ actions, Licensed (some held) (f actions)) :
    Licensed (some held) ((compensate W mutationId now allocationId created).bind f) := by
  have hrelease (actions : List String) : Licensed (some held)
      ((if created then
          (releaseAllocation allocationId).bind fun released => .ret (actions ++
            [if released then "allocation_released" else "allocation_release_failed"])
        else .ret (actions ++ ["allocation_preserved_not_created_by_this_attempt"])).bind f) := by
    cases created with
    | true =>
        refine ⟨congrArg some (hheld rfl), fun answer => ?_⟩
        cases answer with
        | error message => trivial
        | ok released => exact hf _
    | false => exact hf _
  cases mutationId with
  | none => exact hrelease []
  | some mutationId =>
      show Licensed (some held) (((compensateConfig W mutationId now).bind _).bind f)
      rw [Program.bind_assoc]
      exact licensed_bind (local_compensateConfig W mutationId now) hrelease

/-- The handler of the config step releases nothing else. -/
theorem licensed_handleConfigFailure (call : WorkflowCall) (base : WorkflowRecord)
    (error : ConfigError) (mutationId : Option String) (allocationId : String) (created : Bool)
    {held : Option String} (hheld : created = true → held = some allocationId) :
    Licensed (some held)
      (handleConfigFailure W call base error mutationId allocationId created) := by
  refine licensed_compensate W mutationId call.now allocationId created hheld fun actions => ?_
  refine licensed_bind (local_saveWorkflowRecord _) fun _ => ?_
  simp only
  split <;> trivial

theorem licensed_applyAllocated (call : WorkflowCall) (existing : Option WorkflowRecord)
    (allocation : AllocationData) (created : Bool) {held : Option String}
    (hheld : created = true → held = some allocation.allocationId) :
    Licensed (some held)
      (applyAllocated W hashManifest call existing allocation created) := by
  refine licensed_bind (local_saveWorkflowRecord _) fun allocated => ?_
  split
  · refine licensed_bind (local_configStep W call allocation) fun step => ?_
    obtain ⟨mutationId, outcome⟩ := step
    cases outcome with
    | ok _ => exact licensed_bind (local_saveWorkflowRecord _) fun _ => trivial
    | error failure =>
        simp only
        cases caughtFailure failure with
        | none => trivial
        | some error =>
            exact licensed_handleConfigFailure W call _ error mutationId _ created hheld
  · trivial

theorem licensed_applyAnswered (call : WorkflowCall) (existing : Option WorkflowRecord)
    (created : Bool) (result : CreateResult) :
    Licensed (some (novelOf (.ok result)))
      (applyAnswered W hashManifest call existing created result) := by
  cases result with
  | failure underlying error => exact licensed_bind (local_saveWorkflowRecord _) fun _ => trivial
  | success answer =>
      simp only [applyAnswered]
      split
      · exact licensed_bind (local_saveWorkflowRecord _) fun _ => trivial
      · refine licensed_applyAllocated W hashManifest call existing _ _ fun hnew => ?_
        obtain ⟨-, hflag⟩ := Bool.and_eq_true_iff.mp hnew
        rw [novelOf, if_neg (by simpa using hflag)]

/-- An attempt releases only what Central has told it is new. -/
theorem licensed_applyWorkflow (call : WorkflowCall) :
    Licensed none (applyWorkflow W hashManifest call) := by
  refine licensed_bind (local_loadWorkflowRecord _) fun existing => ?_
  have hproceed (created : Bool) : Licensed none
      ((createAllocation call.body).bind fun result =>
        applyAnswered W hashManifest call existing created result) :=
    ⟨rfl, fun answer => by
      cases answer with
      | error message => trivial
      | ok result => exact licensed_applyAnswered W hashManifest call existing created result⟩
  cases existing with
  | none => exact hproceed _
  | some record =>
      simp only
      split
      · trivial
      · split
        · trivial
        · exact hproceed _

end Licences

/-! ## What an operation does to the surroundings -/

theorem insert_of_some {insertedBy : String → Option Origin} {id : String} {origin : Origin}
    (h : insertedBy id = some origin) (insertion : Origin × String) :
    insert insertedBy insertion id = some origin := by
  rw [insert]
  split
  · next hfree =>
      have hne : id ≠ insertion.2 := by
        rintro rfl
        simp [h] at hfree
      rw [Function.update_of_ne hne, h]
  · exact h

/-- What is inserted stays inserted by whom it was. -/
theorem insertAll_of_some {insertedBy : String → Option Origin} {id : String} {origin : Origin}
    (h : insertedBy id = some origin) (insertions : List (Origin × String)) :
    insertAll insertedBy insertions id = some origin := by
  induction insertions generalizing insertedBy with
  | nil => exact h
  | cons insertion rest ih => exact ih (insert_of_some h insertion)

section Operations

variable {key : String → String} {weather : ℕ → Weather} {n m : ℕ} {id : String} {origin : Origin}
  {op : WorkflowOp} {s : Surroundings}

theorem handle_insertedBy (h : s.insertedBy id = some origin) :
    (handle key weather n op s).2.insertedBy id = some origin := by
  cases op with
  | create body => exact insertAll_of_some h _
  | saveRecord record =>
      simp only [handle]
      split <;> exact h
  | _ => exact h

/-- What the others were told and have released stays as it is. -/
theorem handle_others (h : m ≠ n) :
    ((m, id) ∈ (handle key weather n op s).2.replayed ↔ (m, id) ∈ s.replayed) ∧
      ((m, id) ∈ (handle key weather n op s).2.released ↔ (m, id) ∈ s.released) := by
  cases op with
  | saveRecord record =>
      simp only [handle]
      split <;> exact ⟨Iff.rfl, Iff.rfl⟩
  | create body => simp [handle, h.symm]
  | release other => simp [handle, h]
  | _ => exact ⟨Iff.rfl, Iff.rfl⟩

theorem handle_local (key : String → String) (weather : ℕ → Weather) (n : ℕ) (s : Surroundings)
    (h : Local op) :
    (handle key weather n op s).2.insertedBy = s.insertedBy ∧
      (handle key weather n op s).2.replayed = s.replayed ∧
      (handle key weather n op s).2.released = s.released := by
  cases op with
  | saveRecord record =>
      simp only [handle]
      split <;> exact ⟨rfl, rfl, rfl⟩
  | create body | release other => exact h.elim
  | _ => exact ⟨rfl, rfl, rfl⟩

end Operations

/-! ## Every run -/

/-- The attempt's own request inserted the allocation, and nobody told it otherwise. -/
def Own (s : Surroundings) (n : ℕ) (id : String) : Prop :=
  s.insertedBy id = some (.attempt n) ∧ (n, id) ∉ s.replayed

/-- What an attempt with this licence has done so far. -/
structure Entitled (s : Surroundings) (n : ℕ) (licence : Option (Option String)) : Prop where
  fresh : licence = none → ∀ id, (n, id) ∉ s.replayed ∧ (n, id) ∉ s.released
  held : ∀ id, licence = some (some id) → Own s n id

/-- Releases are of the attempts' own allocations, and no attempt is about to do otherwise. -/
structure Sound (τ : Attempts) : Prop where
  released : ∀ n id, (n, id) ∈ τ.state.released → Own τ.state n id
  licensed : ∀ n, ∃ licence, Licensed licence (τ.program n) ∧ Entitled τ.state n licence

section Runs

variable {key : String → String} {weather : ℕ → Weather} {n m : ℕ} {id : String}
  {op : WorkflowOp} {s : Surroundings} {licence : Option (Option String)} {τ : Attempts}

theorem Own.handle_of_ne (h : Own s m id) (hne : m ≠ n) :
    Own (handle key weather n op s).2 m id :=
  ⟨handle_insertedBy h.1, fun hreplayed => h.2 ((handle_others hne).1.mp hreplayed)⟩

theorem Own.handle_of_replayed (h : Own s m id)
    (hreplayed : (handle key weather n op s).2.replayed = s.replayed) :
    Own (handle key weather n op s).2 m id :=
  ⟨handle_insertedBy h.1, hreplayed ▸ h.2⟩

theorem Entitled.handle_of_ne (h : Entitled s m licence) (hne : m ≠ n) :
    Entitled (handle key weather n op s).2 m licence where
  fresh := fun hnone id =>
    ⟨fun hreplayed => (h.fresh hnone id).1 ((handle_others hne).1.mp hreplayed),
      fun hreleased => (h.fresh hnone id).2 ((handle_others hne).2.mp hreleased)⟩
  held := fun id hsome => (h.held id hsome).handle_of_ne hne

theorem Entitled.handle_of_local (h : Entitled s m licence) (hlocal : Local op) :
    Entitled (handle key weather n op s).2 m licence := by
  obtain ⟨-, hreplayed, hreleased⟩ := handle_local key weather n s hlocal
  refine ⟨fun hnone id => ?_, fun id hsome => (h.held id hsome).handle_of_replayed hreplayed⟩
  rw [hreplayed, hreleased]
  exact h.fresh hnone id

/-- An answer calls an allocation new or a replay, not both. -/
theorem replayOf_of_novelOf {answer : Except String CreateResult} (h : novelOf answer = some id) :
    replayOf answer = none := by
  cases answer with
  | error message => rfl
  | ok result =>
      cases result with
      | failure underlying error => rfl
      | success answer =>
          simp only [novelOf] at h
          split at h
          · cases h
          · next hflag => exact if_neg hflag

/-- A truthful answer entitles the attempt to what it calls new. -/
theorem Entitled.create (h : Entitled s n none) (body : AllocationBody)
    (htruth : ∀ id, novelOf (weather s.clock).created = some id →
      insertAll s.insertedBy (weather s.clock).insertions id = some (.attempt n)) :
    Entitled (handle key weather n (.create body) s).2 n
      (some (novelOf (weather s.clock).created)) := by
  refine ⟨fun hnone => (Option.some_ne_none _ hnone).elim, fun id hheld => ?_⟩
  have hnovel : novelOf (weather s.clock).created = some id := Option.some.inj hheld
  refine ⟨htruth id hnovel, ?_⟩
  simp only [handle, replayOf_of_novelOf hnovel]
  simpa using (h.fresh rfl id).1

/-- A release spends nothing: the attempt stays entitled to what it has released. -/
theorem Entitled.release (h : Entitled s n (some (some id))) :
    Entitled (handle key weather n (.release id) s).2 n (some (some id)) where
  fresh := fun hnone => by cases hnone
  held := fun other hheld => h.held other hheld

/-- An attempt stays entitled to what it may still do. -/
theorem Entitled.next {next : op.Answer → WorkflowProgram WorkflowResult}
    (h : Entitled s n licence) (hlicensed : Licensed licence (.call op next))
    (htruth : ∀ body, op = .create body → ∀ id, novelOf (weather s.clock).created = some id →
      insertAll s.insertedBy (weather s.clock).insertions id = some (.attempt n)) :
    ∃ licence, Licensed licence (next (handle key weather n op s).1) ∧
      Entitled (handle key weather n op s).2 n licence := by
  cases op with
  | create body =>
      obtain ⟨rfl, hnext⟩ := hlicensed
      exact ⟨_, hnext _, h.create body (htruth body rfl)⟩
  | release id =>
      obtain ⟨rfl, hnext⟩ := hlicensed
      exact ⟨_, hnext _, h.release⟩
  | loadRecord requestId | saveRecord record | disk op =>
      exact ⟨licence, hlicensed _, h.handle_of_local trivial⟩

/-- What has been released is the attempt's own, also after its next operation. -/
theorem Entitled.released {next : op.Answer → WorkflowProgram WorkflowResult}
    (h : Entitled s n licence) (hlicensed : Licensed licence (.call op next))
    (hown : ∀ id, (n, id) ∈ s.released → Own s n id)
    (hreleased : (n, id) ∈ (handle key weather n op s).2.released) :
    Own (handle key weather n op s).2 n id := by
  cases op with
  | create body =>
      obtain ⟨rfl, -⟩ := hlicensed
      exact absurd hreleased (h.fresh rfl id).2
  | release other =>
      obtain ⟨rfl, -⟩ := hlicensed
      rcases List.mem_append.mp hreleased with hbefore | hnow
      · exact hown id hbefore
      · cases List.mem_singleton.mp hnow
        exact h.held id rfl
  | loadRecord requestId | disk op => exact (hown id hreleased).handle_of_replayed rfl
  | saveRecord record =>
      have hlocal : Local (.saveRecord record) := trivial
      obtain ⟨-, hreplayed, hkept⟩ := handle_local key weather n s hlocal
      exact (hown id (hkept ▸ hreleased)).handle_of_replayed hreplayed

/-- A move whose answer is true keeps releases to the attempts' own allocations. -/
theorem Sound.move (h : Sound τ) (htruth : answersTruly weather τ n) :
    Sound (τ.move (handle key weather) n) := by
  cases hprogram : τ.program n with
  | ret value =>
      obtain ⟨hsame, hstate⟩ := Threads.move_of_ret (handle key weather) hprogram
      exact ⟨hstate ▸ h.released, hsame ▸ hstate ▸ h.licensed⟩
  | raise error =>
      obtain ⟨hsame, hstate⟩ := Threads.move_of_raise (handle key weather) hprogram
      exact ⟨hstate ▸ h.released, hsame ▸ hstate ▸ h.licensed⟩
  | call op next =>
      obtain ⟨hnext, hstate⟩ := Threads.move_of_call (handle key weather) hprogram
      obtain ⟨licence, hlicensed, hentitled⟩ := h.licensed n
      rw [hprogram] at hlicensed
      refine ⟨fun m id hreleased => ?_, fun m => ?_⟩
      · rw [hstate] at hreleased ⊢
        by_cases hm : m = n
        · subst hm
          exact hentitled.released hlicensed (h.released m) hreleased
        · exact (h.released m id ((handle_others hm).2.mp hreleased)).handle_of_ne hm
      · rw [hstate]
        by_cases hm : m = n
        · subst hm
          rw [hnext]
          refine hentitled.next hlicensed fun body hop => ?_
          subst hop
          exact fun id => htruth body next id hprogram
        · obtain ⟨licence, hlicensed, hentitled⟩ := h.licensed m
          rw [Threads.move_program_of_ne hm]
          exact ⟨licence, hlicensed, hentitled.handle_of_ne hm⟩

end Runs

/-! ## Replays and releases -/

section Workflows

variable {Document Documents : Type} (W : Workspace Document Documents)
  (hashManifest : ProjectManifest → String) (key : String → String) (weather : ℕ → Weather)

/-- Before any attempt has begun, nothing has been told or released. -/
structure Untouched (s : Surroundings) : Prop where
  replayed : s.replayed = []
  released : s.released = []

/-- A complete record is all that its attempt looks at. -/
theorem applyWorkflow_complete (n : ℕ) (call : WorkflowCall) {s : Surroundings}
    {existing : WorkflowRecord} (hrecord : s.records (key call.requestId) = some existing)
    (hhash : existing.manifestHash = hashManifest call.manifest)
    (hcomplete : existing.complete call.manifest = true) :
    (applyWorkflow W hashManifest call).run (handle key weather n) s =
      (.ok (resultFromRecord existing), { s with clock := s.clock + 1 }) := by
  have hload : handle key weather n (.loadRecord call.requestId) s =
      (some existing, { s with clock := s.clock + 1 }) := by
    rw [handle, hrecord]
  refine (Program.run_call_of_handle hload).trans ?_
  simp [Program.bind, hhash, hcomplete]

/-- As long as Central's answers are true, a workflow releases nothing but what its own request
has inserted, and an attempt whose record is complete changes nothing. -/
theorem releases_own (calls : ℕ → WorkflowCall) {s₀ : Surroundings} (hs₀ : Untouched s₀) :
    (∀ τ, Threads.Reachable (handle key weather) (answersTruly weather)
        (Threads.start s₀ fun n => applyWorkflow W hashManifest (calls n)) τ →
      ∀ n id, (n, id) ∈ τ.state.released →
        τ.state.insertedBy id = some (.attempt n) ∧ (n, id) ∉ τ.state.replayed) ∧
      ∀ n (s : Surroundings) existing,
        s.records (key (calls n).requestId) = some existing →
        existing.manifestHash = hashManifest (calls n).manifest →
        existing.complete (calls n).manifest = true →
        (applyWorkflow W hashManifest (calls n)).run (handle key weather n) s =
          (.ok (resultFromRecord existing), { s with clock := s.clock + 1 }) := by
  refine ⟨fun τ hreach => ?_, fun n s existing => applyWorkflow_complete W _ key weather n _⟩
  have hsound : Sound τ := by
    refine hreach.invariant ⟨?_, fun n => ⟨none, licensed_applyWorkflow W _ _, ?_⟩⟩
      fun τ n h htruth => h.move htruth
    · intro n id hreleased
      simp [Threads.start, hs₀.released] at hreleased
    · exact ⟨fun _ id => by simp [Threads.start, hs₀.replayed, hs₀.released],
        fun id hheld => by cases hheld⟩
  exact hsound.released

end Workflows

/-! ## A project whose Compose file is missing -/

/-- A call for the sample bundle, with a Compose file that nobody has written. -/
def sampleCall : WorkflowCall :=
  { composeCall with host := ⟨Central.sampleHost.id.text, "web-1"⟩ }

/-- What Central's answer is to the agent. -/
def answerOf (out : Central.AllocationOut) : AllocationAnswer where
  allocation := ⟨out.allocationId.text, out.allocations.map fun entry => (entry.name, entry.port)⟩
  idempotentReplay := out.idempotentReplay
  status := match out.status with
    | .active => "active"
    | .released => "released"

/-- The identifier that the sample bundle gets. -/
def sampleId : String := "00000000-0000-0000-0000-00000000006a"

/-- An answer that calls the sample bundle new. -/
def sampleAnswer : AllocationAnswer := ⟨⟨sampleId, [("api", 8000)]⟩, false, "active"⟩

/-- An empty project, and no allocation yet. -/
def sampleSurroundings : Surroundings where
  disk := sampleDisk [] [] fun _ _ => none
  records := fun _ => none
  insertedBy := fun _ => none

/-- Attempts of the sample call. -/
def sampleAttempts : Attempts :=
  Threads.start sampleSurroundings fun _ =>
    applyWorkflow sampleWorkspace (fun _ => "h1") sampleCall

/-- The first attempt's request inserts what the answer of clock time `answered` is about; other
create requests fail. -/
def sampleWeather (answer : AllocationAnswer) (answered : ℕ) (clock : ℕ) : Weather where
  insertions := if clock = answered then [(.attempt 0, answer.allocation.allocationId)] else []
  created :=
    if clock = answered then .ok (.success answer) else .ok (.failure {} (some "timed out"))

section Samples

variable {answer : AllocationAnswer} {answered : ℕ} {τ : Attempts}

theorem sampleWeather_other (n : ℕ) (h : τ.state.clock ≠ answered) :
    answersTruly (sampleWeather answer answered) τ n := by
  intro body next id hprogram hnovel
  simp [sampleWeather, h, novelOf] at hnovel

theorem sampleWeather_answered (hclock : τ.state.clock = answered)
    (hfree : τ.state.insertedBy answer.allocation.allocationId = none) :
    answersTruly (sampleWeather answer answered) τ 0 := by
  intro body next id hprogram hnovel
  have hid : id = answer.allocation.allocationId := by
    simp only [sampleWeather, hclock, novelOf, if_true] at hnovel
    split at hnovel <;> simp_all
  simp [sampleWeather, hclock, insertAll, insert, hid, hfree]

/-- The attempts after the given moves, where Central answers at clock time `answered`. -/
def sampleRun (answered : ℕ) (moves : List ℕ) : Attempts :=
  Threads.play (handle (fun key => key) (sampleWeather sampleAnswer answered)) sampleAttempts moves

end Samples

/-- A truthful answer: the attempt releases its own allocation. -/
theorem releases_own_sample :
    (0, sampleId) ∈ (sampleRun 1 [0, 0, 0, 0, 0, 0]).state.released ∧
      (sampleRun 1 [0, 0, 0, 0, 0, 0]).state.insertedBy sampleId = some (.attempt 0) ∧
      (0, sampleId) ∉ (sampleRun 1 [0, 0, 0, 0, 0, 0]).state.replayed := by
  have hreleased : (0, sampleId) ∈ (sampleRun 1 [0, 0, 0, 0, 0, 0]).state.released := by decide
  have huntouched : Untouched sampleSurroundings := ⟨rfl, rfl⟩
  refine ⟨hreleased, (releases_own sampleWorkspace (fun _ => "h1") (fun key => key)
    (sampleWeather sampleAnswer 1) (fun _ => sampleCall) huntouched).1 _ ?_ 0 sampleId hreleased⟩
  refine .step 0 (.step 0 (.step 0 (.step 0 (.step 0 (.step 0 .start ?_) ?_) ?_) ?_) ?_) ?_
  · exact sampleWeather_other 0 (by decide)
  · exact sampleWeather_answered (by decide) (by decide)
  · exact sampleWeather_other 0 (by decide)
  · exact sampleWeather_other 0 (by decide)
  · exact sampleWeather_other 0 (by decide)
  · exact sampleWeather_other 0 (by decide)

/-- The first attempt gives up on Central, whose answer to the second attempt then calls new what
the first attempt's request has inserted meanwhile. The second attempt releases it. -/
theorem releases_foreign :
    ∃ σ status out, Transaction.System.play Central.store
        (false :: (List.replicate 30 true ++ List.replicate 9 false))
        (Central.keyedRequests fun first : Bool => Central.sampleDraws (if first then 100 else 200))
          = some σ ∧
      σ.program false = .ret (status, out) ∧ (σ.session false).journal = [] ∧
      ∃ τ, Threads.Reachable (handle (fun key => key) (sampleWeather (answerOf out) 4))
          Threads.anyOrder sampleAttempts τ ∧
        (1, out.allocationId.text) ∈ τ.state.released ∧
        τ.state.insertedBy out.allocationId.text = some (.attempt 0) := by
  obtain ⟨σ, status, out, hplay, hanswer, hjournal, hout, hid⟩ : ∃ σ status out,
      Transaction.System.play Central.store
        (false :: (List.replicate 30 true ++ List.replicate 9 false))
        (Central.keyedRequests fun first : Bool => Central.sampleDraws (if first then 100 else 200))
          = some σ ∧
      σ.program false = .ret (status, out) ∧ (σ.session false).journal = [] ∧
      answerOf out = sampleAnswer ∧ out.allocationId.text = sampleId :=
    ⟨_, _, _, rfl, rfl, rfl, rfl, rfl⟩
  refine ⟨σ, status, out, hplay, hanswer, hjournal, sampleRun 4 [0, 0, 0, 1, 1, 1, 1, 1, 1], ?_⟩
  rw [hout, hid]
  exact ⟨Threads.Reachable.of_play .start fun _ _ _ _ => trivial, by decide, by decide⟩

end Fleet
