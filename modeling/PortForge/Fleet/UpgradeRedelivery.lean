/-
# The delivery of an upgrade

The central registry and the agents as one system, with what an agent's host remembers
across a restart: the version that is installed, and nothing else. The response to a
heartbeat carries the oldest upgrade of the host that nobody has claimed, whatever the
agent has done with it before. An install step is repeated for an upgrade only where a
response carries it again, so once a report has been accepted it is not; where all
reports of an upgrade get lost, the agent that runs its target installs it again.
-/

import PortForge.Agent.UpgradePayload
import PortForge.Fleet.UpgradeCompletion

namespace Fleet

open Transaction Central

/-! ## Agents across restarts -/

/-- A run of the install step: the upgrade and its target, and the version that was installed
when the step began. -/
structure Install where
  upgradeId : Uuid
  targetVersion : String
  runningVersion : String
  deriving DecidableEq

/-- What the process of an agent is at. -/
inductive Activity
  | idle
  | /-- The response to a heartbeat carries an upgrade. -/
    delivered (pending : PendingUpgrade)
  | /-- The rest of `run_upgrade` is still to be done. -/
    upgrading (pending : PendingUpgrade) (rest : Agent.UpgradeProgram Bool)

/-- A host's agent: `get_portforge_version`, its process, and the install steps there were. -/
structure HostAgent where
  version : String
  activity : Activity
  installs : List Install

/-- The registry with the calls it serves, and the agents of all hosts. -/
structure Cycle (ι : Type) where
  central : System ι Db Write ℤ Draw Failure Unit
  agent : Uuid → HostAgent

/-- A registry that serves nobody yet, and agents that are idle. -/
def Cycle.start {ι : Type} (db : Db) (draws : ι → ℕ → Draw) (version : Uuid → String) :
    Cycle ι where
  central := System.start db (fun _ => .ret ()) draws
  agent hostId := ⟨version hostId, .idle, []⟩

/-- The host's agent goes on to the given activity. -/
def Cycle.turnTo {ι : Type} (φ : Cycle ι) (hostId : Uuid) (activity : Activity) : Cycle ι :=
  { φ with agent := Function.update φ.agent hostId { φ.agent hostId with activity := activity } }

/-- The host's agent after its install step: what `pip` has installed is what runs next. -/
def HostAgent.afterInstall (agent : HostAgent) (pending : PendingUpgrade) (answer : Option String)
    (rest : Agent.UpgradeProgram Bool) : HostAgent where
  version := if answer = none then pending.targetVersion else agent.version
  activity := .upgrading pending rest
  installs := agent.installs ++ [⟨pending.id, pending.targetVersion, agent.version⟩]

variable {ι : Type} [DecidableEq ι]

/-- One step of the system. The process that ends with an upgrade, or stops, is followed by a
new one, of the installed version. -/
inductive CycleStep (env : Environment) (checkUrl : String → Option String) :
    Cycle ι → Cycle ι → Prop
  | /-- A call under way performs its next operation. -/
    serve {φ : Cycle ι} (i : ι) (hfree : ¬ φ.central.Blocked store i) :
      CycleStep env checkUrl φ { φ with central := φ.central.move store i }
  | /-- A request arrives. -/
    request {φ : Cycle ι} (i : ι) (hidle : (φ.central.program i).Finished) {p : Service Unit}
      (hp : Request env p) (draws : ℕ → Draw) (faults : ℕ → Option DbError) :
      CycleStep env checkUrl φ { φ with central := φ.central.arrive i p draws faults }
  | /-- The last query of a heartbeat finds an upgrade, and the response carries it. -/
    deliver {φ : Cycle ι} (hostId : Uuid) (hidle : (φ.agent hostId).activity = .idle) (host : Host)
      {row : HostUpgrade} (hrow : φ.central.db.getPendingForHost hostId = some row) :
      CycleStep env checkUrl φ (φ.turnTo hostId (.delivered (pendingUpgrade env host row)))
  | begin {φ : Cycle ι} {hostId : Uuid} {pending : PendingUpgrade}
      (hagent : (φ.agent hostId).activity = .delivered pending) :
      CycleStep env checkUrl φ
        (φ.turnTo hostId (.upgrading pending (Agent.runUpgrade pending.id)))
  | /-- An agent's report arrives. -/
    report {φ : Cycle ι} (i : ι) (hidle : (φ.central.program i).Finished) {hostId upgradeId : Uuid}
      {pending : PendingUpgrade} {status : UpgradeStatusIn}
      {next : Unit → Agent.UpgradeProgram Bool}
      (hagent : (φ.agent hostId).activity =
          .upgrading pending (.call (.report upgradeId status) next))
      (draws : ℕ → Draw) (faults : ℕ → Option DbError) :
      CycleStep env checkUrl φ
        { φ.turnTo hostId (.upgrading pending (next ())) with
          central := φ.central.arrive i ((UpgradeCall.report hostId upgradeId status).program env)
            draws faults }
  | /-- An agent's report gets lost. -/
    lose {φ : Cycle ι} {hostId upgradeId : Uuid} {pending : PendingUpgrade}
        {status : UpgradeStatusIn}
      {next : Unit → Agent.UpgradeProgram Bool}
      (hagent : (φ.agent hostId).activity =
        .upgrading pending (.call (.report upgradeId status) next)) :
      CycleStep env checkUrl φ (φ.turnTo hostId (.upgrading pending (next ())))
  | /-- The payload is checked against the installed version. -/
    validate {φ : Cycle ι} {hostId : Uuid} {pending : PendingUpgrade}
      {next : Option String → Agent.UpgradeProgram Bool}
      (hagent : (φ.agent hostId).activity =
        .upgrading pending (.call (.perform .validatePayload) next)) (answer : Option String)
      (hanswer : answer = none ↔
        Agent.validatePayload checkUrl pending (φ.agent hostId).version = none) :
      CycleStep env checkUrl φ (φ.turnTo hostId (.upgrading pending (next answer)))
  | /-- A phase that neither checks the payload nor installs ends. -/
    perform {φ : Cycle ι} {hostId : Uuid} {pending : PendingUpgrade} {phase : Agent.UpgradePhase}
      {next : Option String → Agent.UpgradeProgram Bool}
      (hagent : (φ.agent hostId).activity = .upgrading pending (.call (.perform phase) next))
      (hcheck : phase ≠ .validatePayload) (hinstall : phase ≠ .installWheel)
      (answer : Option String) :
      CycleStep env checkUrl φ (φ.turnTo hostId (.upgrading pending (next answer)))
  | /-- The install step ends. -/
    install {φ : Cycle ι} {hostId : Uuid} {pending : PendingUpgrade}
      {next : Option String → Agent.UpgradeProgram Bool}
      (hagent : (φ.agent hostId).activity =
        .upgrading pending (.call (.perform .installWheel) next)) (answer : Option String) :
      CycleStep env checkUrl φ
        { φ with
          agent := Function.update φ.agent hostId
            ((φ.agent hostId).afterInstall pending answer (next answer)) }
  | /-- An upgrade is over; a successful one ends the process. -/
    finish {φ : Cycle ι} {hostId : Uuid} {pending : PendingUpgrade} {value : Bool}
      (hagent : (φ.agent hostId).activity = .upgrading pending (.ret value)) :
      CycleStep env checkUrl φ (φ.turnTo hostId .idle)
  | /-- An agent stops, and a new process takes its place. -/
    stop {φ : Cycle ι} (hostId : Uuid) : CycleStep env checkUrl φ (φ.turnTo hostId .idle)

/-! ## Which upgrades are delivered -/

/-- The upgrade is one that a heartbeat delivers. -/
def Deliverable (row : HostUpgrade) : Prop := row.state = .approved ∨ row.state = .waitingForAgent

instance (row : HostUpgrade) : Decidable (Deliverable row) := inferInstanceAs (Decidable (_ ∨ _))

/-- The write makes no upgrade on file deliverable, and takes none away. -/
def NeverReopens : Write → Prop
  | .updateUpgrade _ change => change.state ≠ .approved ∧ change.state ≠ .waitingForAgent
  | .purgeHost .upgrades _ => False
  | _ => True

theorem neverReopens_of_spares {write : Write} (h : write.SparesUpgrades) : NeverReopens write := by
  cases write with
  | purgeHost table id => cases table <;> first | exact h.elim | trivial
  | _ => first | exact h.elim | trivial

theorem neverReopens_of_request {env : Environment} {p : Service Unit} (h : Request env p) :
    p.Adds NeverReopens := by
  refine h.adds (fun _ => trivial) (fun id change hchange => ?_) (fun _ _ _ => trivial)
    fun write => neverReopens_of_spares
  simp [NeverReopens, hchange]

theorem neverReopens_of_report (env : Environment) (hostId upgradeId : Uuid)
    (status : UpgradeStatusIn) :
    ((UpgradeCall.report hostId upgradeId status).program env).Adds NeverReopens := by
  rw [UpgradeCall.program, reportUpgradeStatus, Program.bind_eq, Program.bind_assoc]
  refine Program.Adds.bind ?_ fun row => adds_settleUpgrade row
  apply adds_updateUpgradeStatus hostId upgradeId status ?_ fun _ => trivial
  intro upgrade newState hstate change hchange
  have hsettable : newState ∈ agentSettable := (of_reportedState hstate).2.2.1
  rw [NeverReopens, hchange]
  constructor
  · rintro rfl
    exact absurd hsettable (by decide)
  · rintro rfl
    exact absurd hsettable (by decide)

/-- The primary key of the upgrades. -/
def upgradeIds : UniqueKey store Uuid where
  keys db := db.upgrades.map HostUpgrade.id
  inserted
    | .insertUpgrade row => some row.id
    | _ => none
  admits := NeverReopens
  keys_apply write db hadmits := by
    have hkept : ∀ change : HostUpgrade → HostUpgrade, (∀ row, (change row).id = row.id) →
        (db.upgrades.map change).map HostUpgrade.id = db.upgrades.map HostUpgrade.id := by
      intro change hid
      rw [List.map_map]
      exact List.map_congr_left fun row _ => hid row
    cases write with
    | insertUpgrade row => simp [Write.apply]
    | updateUpgrade id change =>
        simp only [store_apply, Write.apply, Option.toList_none, List.append_nil]
        refine hkept _ fun row => ?_
        split <;> rfl
    | failUpgrade id reason now =>
        simp only [store_apply, Write.apply, Option.toList_none, List.append_nil]
        refine hkept _ fun row => ?_
        split <;> rfl
    | purgeHost table id =>
        cases table with
        | upgrades => exact hadmits.elim
        | _ => simp [Write.apply, HostTable.purge]
    | _ => simp [Write.apply]
  refused write db id hinserted hmem := by
    cases write with
    | insertUpgrade row =>
        cases hinserted
        exact fun haccepted => fresh_of_accepted haccepted hmem
    | _ => cases hinserted
  waits write other id hwrite hother := by
    cases write with
    | insertUpgrade row =>
        cases other with
        | insertUpgrade row' =>
            cases hwrite
            have hsame : row'.id = row.id := Option.some.inj hother
            simp [store, Write.waitsFor, hsame]
        | _ => cases hother
    | _ => cases hwrite

/-- The upgrade with the id is on file, with the target it had, and deliverable only if it was. -/
structure StaysClosed (id : Uuid) (db later : Db) : Prop where
  known : id ∈ later.upgrades.map HostUpgrade.id
  stems : ∀ row ∈ later.upgrades, row.id = id → ∃ old ∈ db.upgrades, old.id = id ∧
    old.targetVersion = row.targetVersion ∧ (Deliverable row → Deliverable old)

namespace StaysClosed

variable {id : Uuid} {db next later : Db}

theorem refl (h : id ∈ db.upgrades.map HostUpgrade.id) : StaysClosed id db db :=
  ⟨h, fun row hrow hid => ⟨row, hrow, hid, rfl, fun hdeliverable => hdeliverable⟩⟩

theorem trans (h : StaysClosed id db next) (h' : StaysClosed id next later) :
    StaysClosed id db later := by
  refine ⟨h'.known, fun row hrow hid => ?_⟩
  obtain ⟨middle, hmiddle, hid', htarget, hdeliverable⟩ := h'.stems row hrow hid
  obtain ⟨old, hold, hid'', htarget', hdeliverable'⟩ := h.stems middle hmiddle hid'
  exact ⟨old, hold, hid'', htarget'.trans htarget, fun hrow => hdeliverable' (hdeliverable hrow)⟩

theorem of_write {write : Write} (hreopens : NeverReopens write)
    (hinserted : upgradeIds.inserted write ≠ some id) (h : id ∈ db.upgrades.map HostUpgrade.id) :
    StaysClosed id db (store.apply write db) := by
  have hknown : id ∈ (store.apply write db).upgrades.map HostUpgrade.id := by
    have hkeys := upgradeIds.keys_apply write db hreopens
    change id ∈ upgradeIds.keys (store.apply write db)
    rw [hkeys]
    exact List.mem_append_left _ h
  refine ⟨hknown, fun row hrow hid => ?_⟩
  cases write with
  | insertUpgrade new =>
      rcases List.mem_append.mp hrow with hold | hnew
      · exact ⟨row, hold, hid, rfl, fun hdeliverable => hdeliverable⟩
      · rw [List.mem_singleton.mp hnew] at hid
        exact (hinserted (congrArg some hid)).elim
  | updateUpgrade other change =>
      obtain ⟨old, hold, rfl⟩ := List.mem_map.mp hrow
      refine ⟨old, hold, ?_⟩
      by_cases hsame : old.id = other
      · rw [if_pos hsame] at hid ⊢
        refine ⟨hid, rfl, fun hdeliverable => ?_⟩
        rcases hdeliverable with happroved | hwaiting
        · exact (hreopens.1 happroved).elim
        · exact (hreopens.2 hwaiting).elim
      · rw [if_neg hsame] at hid ⊢
        exact ⟨hid, rfl, fun hdeliverable => hdeliverable⟩
  | failUpgrade other reason now =>
      obtain ⟨old, hold, rfl⟩ := List.mem_map.mp hrow
      refine ⟨old, hold, ?_⟩
      split at hid <;> rename_i hsame
      · rw [if_pos hsame]
        refine ⟨hid, rfl, fun hdeliverable => ?_⟩
        rcases hdeliverable with happroved | hwaiting
        · cases happroved
        · cases hwaiting
      · rw [if_neg hsame]
        exact ⟨hid, rfl, fun hdeliverable => hdeliverable⟩
  | purgeHost table other =>
      cases table with
      | upgrades => exact hreopens.elim
      | _ => exact ⟨row, hrow, hid, rfl, fun hdeliverable => hdeliverable⟩
  | _ => exact ⟨row, hrow, hid, rfl, fun hdeliverable => hdeliverable⟩

theorem of_writes {writes : List Write} (hreopens : ∀ write ∈ writes, NeverReopens write)
    (hinserted : id ∉ upgradeIds.insertedAll writes) (h : id ∈ db.upgrades.map HostUpgrade.id) :
    StaysClosed id db (store.applyAll writes db) := by
  induction writes generalizing db with
  | nil => exact .refl h
  | cons write writes ih =>
      obtain ⟨hwrite, hwrites⟩ := List.forall_mem_cons.mp hreopens
      have hfirst : upgradeIds.inserted write ≠ some id := fun hsome =>
        hinserted (List.mem_filterMap.mpr ⟨write, List.mem_cons_self, hsome⟩)
      have hrest : id ∉ upgradeIds.insertedAll writes := fun hmem => by
        obtain ⟨other, hother, hsome⟩ := List.mem_filterMap.mp hmem
        exact hinserted (List.mem_filterMap.mpr ⟨other, List.mem_cons_of_mem _ hother, hsome⟩)
      have hone := of_write hwrite hfirst h
      rw [Store.applyAll_cons]
      exact hone.trans (ih hwrites hrest hone.known)

/-- A call of the registry that goes on. -/
theorem of_move {σ : System ι Db Write ℤ Draw Failure Unit} {i : ι}
    (hkept : upgradeIds.Kept σ) (hwrites : σ.Writes NeverReopens) (hfree : ¬ σ.Blocked store i)
    (h : id ∈ σ.db.upgrades.map HostUpgrade.id) : StaysClosed id σ.db (σ.move store i).db := by
  rcases System.move_db store σ i with hsame | ⟨next, hcommit, herror, -, -, hdb⟩
  · rw [hsame]
    exact .refl h
  · have hturn : σ.TurnOf store i := by
      intro j hj write hwrite other hother hwaits
      refine hfree ?_
      rw [System.Blocked, hcommit]
      exact ⟨j, hj, write, hwrite, other, hother, hwaits⟩
    obtain ⟨hnodup, -⟩ := hkept.batch (hwrites i).2 herror hturn
    rw [hdb]
    exact of_writes (hwrites i).2 (fun hmem => List.disjoint_of_nodup_append hnodup h hmem) h

end StaysClosed

theorem getPendingForHost_spec {db : Db} {hostId : Uuid} {row : HostUpgrade}
    (h : db.getPendingForHost hostId = some row) : row ∈ db.upgrades ∧ Deliverable row := by
  have hsorted := List.mem_of_mem_head? h
  rw [List.mem_insertionSort, List.mem_filter, decide_eq_true_iff] at hsorted
  exact ⟨hsorted.1, hsorted.2.2⟩

/-! ## Agents that install once -/

/-- The operation is not the install step. -/
def NotInstall (op : Agent.UpgradeOp) : Prop := op ≠ .perform .installWheel

/-- No install step follows another. -/
def InstallsLast : Agent.UpgradeProgram Bool → Prop
  | .ret _ => True
  | .raise _ => True
  | .call op next =>
      (op = .perform .installWheel → ∀ answer, (next answer).Uses NotInstall) ∧
        ∀ answer, InstallsLast (next answer)

theorem installsLast_of_uses {p : Agent.UpgradeProgram Bool} (h : p.Uses NotInstall) :
    InstallsLast p := by
  induction p with
  | ret value | raise error => trivial
  | call op next ih => exact ⟨fun _ => h.2, fun answer => ih answer (h.2 answer)⟩

theorem notInstall_attempt (upgradeId : Uuid) {phase : Agent.UpgradePhase} (blame : String)
    {next : Agent.UpgradeProgram Bool} (hphase : phase ≠ .installWheel)
    (hnext : next.Uses NotInstall) : (Agent.attempt upgradeId phase blame next).Uses
        NotInstall := by
  refine ⟨fun hinstall => hphase (Agent.UpgradeOp.perform.inj hinstall), fun answer => ?_⟩
  cases answer with
  | none => exact hnext
  | some error => exact ⟨nofun, fun _ => trivial⟩

theorem installsLast_attempt (upgradeId : Uuid) {phase : Agent.UpgradePhase} (blame : String)
    {next : Agent.UpgradeProgram Bool} (hphase : phase ≠ .installWheel)
        (hnext : InstallsLast next) :
    InstallsLast (Agent.attempt upgradeId phase blame next) := by
  refine ⟨fun hinstall => (hphase (Agent.UpgradeOp.perform.inj hinstall)).elim, fun answer => ?_⟩
  cases answer with
  | none => exact hnext
  | some error => exact ⟨nofun, fun _ => trivial⟩

/-- An upgrade runs the install step once at most. -/
theorem installsLast_runUpgrade (upgradeId : Uuid) : InstallsLast (Agent.runUpgrade upgradeId) := by
  refine installsLast_attempt upgradeId _ (by decide) ⟨fun h => (by cases h), fun _ => ?_⟩
  refine installsLast_attempt upgradeId _ (by decide) ⟨fun h => (by cases h), fun _ => ?_⟩
  refine installsLast_attempt upgradeId _ (by decide) ⟨fun h => (by cases h), fun _ => ?_⟩
  -- What follows the step restarts the service, or reports a failure.
  have hrestarts : ((Agent.report upgradeId "RESTARTING" none).bind fun _ =>
      Agent.attempt upgradeId .restartService "Restart failed: " (pure true)).Uses NotInstall :=
    ⟨fun h => (by cases h), fun _ => notInstall_attempt upgradeId _ (by decide) trivial⟩
  have hfails (error : String) : ((Agent.report upgradeId "FAILED"
      (some ("Installation failed: " ++ error))).bind fun _ => .ret false :
        Agent.UpgradeProgram Bool).Uses NotInstall := ⟨fun h => (by cases h), fun _ => trivial⟩
  refine ⟨fun _ answer => ?_, fun answer => ?_⟩
  · cases answer with
    | none => exact hrestarts
    | some error => exact hfails error
  · cases answer with
    | none => exact installsLast_of_uses hrestarts
    | some error => exact installsLast_of_uses (hfails error)

/-- No install step was run again for an upgrade whose target was already installed. -/
def NoReinstall (installs : List Install) : Prop :=
  installs.Pairwise fun earlier later =>
    earlier.upgradeId = later.upgradeId → later.runningVersion ≠ later.targetVersion

/-- No upgrade that the agent has run the install step for, and whose target it runs, is still
one that a heartbeat delivers. -/
def Reported (db : Db) (agent : HostAgent) : Prop :=
  ∀ install ∈ agent.installs, ∀ row ∈ db.upgrades, row.id = install.upgradeId →
    row.targetVersion = agent.version → ¬ Deliverable row

/-- Whenever an agent is idle again, a report on what it has installed has been accepted. -/
def Acknowledged (φ φ' : Cycle ι) : Prop :=
  ∀ hostId, (φ.agent hostId).activity ≠ .idle → (φ'.agent hostId).activity = .idle →
    Reported φ.central.db (φ.agent hostId)

/-- The agent does not run the upgrade's target, or has not run its install step. -/
def HostAgent.Fresh (agent : HostAgent) (pending : PendingUpgrade) : Prop :=
  agent.version = pending.targetVersion → ∀ install ∈ agent.installs, install.upgradeId ≠ pending.id

/-- What holds of an agent at the activity. -/
def AtWork (db : Db) (agent : HostAgent) : Activity → Prop
  | .idle => Reported db agent
  | .delivered pending =>
      pending.id ∈ db.upgrades.map HostUpgrade.id ∧ Reported db agent ∧ agent.Fresh pending
  | .upgrading pending rest =>
      pending.id ∈ db.upgrades.map HostUpgrade.id ∧
        (Reported db agent ∧ agent.Fresh pending ∧ InstallsLast rest ∨ rest.Uses NotInstall)

/-- What holds of an agent and the registry. -/
structure Tidy (db : Db) (agent : HostAgent) : Prop where
  law : NoReinstall agent.installs
  known : ∀ install ∈ agent.installs, install.upgradeId ∈ db.upgrades.map HostUpgrade.id
  work : AtWork db agent agent.activity

section Closed

variable {db later : Db} {agent : HostAgent}
  (hclosed : ∀ id ∈ db.upgrades.map HostUpgrade.id, StaysClosed id db later)

include hclosed

theorem Reported.keep (h : Reported db agent)
    (hknown : ∀ install ∈ agent.installs, install.upgradeId ∈ db.upgrades.map HostUpgrade.id) :
    Reported later agent := by
  intro install hinstall row hrow hid htarget hdeliverable
  obtain ⟨old, hold, hid', htarget', hstill⟩ :=
    (hclosed _ (hknown install hinstall)).stems row hrow hid
  exact h install hinstall old hold hid' (htarget'.trans htarget) (hstill hdeliverable)

/-- What the registry does does not disturb the agents. -/
theorem Tidy.keep (h : Tidy db agent) : Tidy later agent := by
  refine ⟨h.law, fun install hinstall => (hclosed _ (h.known install hinstall)).known, ?_⟩
  have hreported (hbefore : Reported db agent) : Reported later agent :=
    hbefore.keep hclosed h.known
  have hwork := h.work
  cases hactivity : agent.activity with
  | idle =>
      rw [hactivity] at hwork
      exact hreported hwork
  | delivered pending =>
      rw [hactivity] at hwork
      exact ⟨(hclosed _ hwork.1).known, hreported hwork.2.1, hwork.2.2⟩
  | upgrading pending rest =>
      rw [hactivity] at hwork
      refine ⟨(hclosed _ hwork.1).known, hwork.2.imp_left fun hbefore => ?_⟩
      exact ⟨hreported hbefore.1, hbefore.2⟩

end Closed

/-- What holds in a run. -/
structure CycleKept (φ : Cycle ι) : Prop where
  ids : upgradeIds.Kept φ.central
  writes : φ.central.Writes NeverReopens
  agents : ∀ hostId, Tidy φ.central.db (φ.agent hostId)

namespace CycleKept

variable {φ : Cycle ι} {hostId : Uuid}

omit [DecidableEq ι] in
/-- An agent whose activity alone changes. -/
theorem turnTo (h : CycleKept φ) {activity : Activity}
    (hwork : AtWork φ.central.db (φ.agent hostId) activity) :
        CycleKept (φ.turnTo hostId activity) := by
  refine ⟨h.ids, h.writes, fun other => ?_⟩
  by_cases hsame : other = hostId
  · subst hsame
    have hagent := h.agents other
    simp only [Cycle.turnTo, Function.update_self]
    refine ⟨hagent.law, hagent.known, ?_⟩
    cases activity <;> exact hwork
  · simp only [Cycle.turnTo, Function.update_of_ne hsame]
    exact h.agents other

/-- A call that arrives changes nothing yet. -/
theorem arrive (h : CycleKept φ) (i : ι) {p : Service Unit} (hp : p.Adds NeverReopens)
    (draws : ℕ → Draw) (faults : ℕ → Option DbError) :
    CycleKept { φ with central := φ.central.arrive i p draws faults } :=
  ⟨System.keptKeys_arrive h.ids p draws faults, h.writes.arrive hp draws faults, h.agents⟩

end CycleKept

/-- An agent that goes on with the same upgrade. -/
theorem AtWork.goOn {db : Db} {agent : HostAgent} {pending : PendingUpgrade} {op : Agent.UpgradeOp}
    {next : op.Answer → Agent.UpgradeProgram Bool}
    (h : AtWork db agent (.upgrading pending (.call op next))) (answer : op.Answer) :
    AtWork db agent (.upgrading pending (next answer)) := by
  obtain ⟨hknown, ⟨hreported, hfresh, hlast⟩ | hnone⟩ := h
  · exact ⟨hknown, .inl ⟨hreported, hfresh, hlast.2 answer⟩⟩
  · exact ⟨hknown, .inr (hnone.2 answer)⟩

/-- One step of the system. -/
theorem cycleKept_step {env : Environment} {checkUrl : String → Option String} {φ φ' : Cycle ι}
    (h : CycleKept φ) (hstep : CycleStep env checkUrl φ φ') (hacknowledged : Acknowledged φ φ') :
    CycleKept φ' := by
  have hworks {hostId : Uuid} {activity : Activity} (hagent : (φ.agent hostId).activity =
      activity) :
      AtWork φ.central.db (φ.agent hostId) activity := hagent ▸ (h.agents hostId).work
  -- An agent that comes to rest has been acknowledged, or has done nothing.
  have hrests (hostId : Uuid) (hidle : Acknowledged φ (φ.turnTo hostId .idle)) :
      CycleKept (φ.turnTo hostId .idle) := by
    refine h.turnTo ?_
    by_cases hbusy : (φ.agent hostId).activity = .idle
    · exact hworks hbusy
    · exact hidle hostId hbusy (by simp [Cycle.turnTo])
  cases hstep with
  | serve i hfree =>
      refine ⟨h.ids.move (h.writes i).2 hfree, h.writes.move i, fun hostId => ?_⟩
      exact (h.agents hostId).keep fun id hid => StaysClosed.of_move h.ids h.writes hfree hid
  | request i hidle hp draws faults => exact h.arrive i (neverReopens_of_request hp) draws faults
  | @deliver hostId hidle host row hrow =>
      obtain ⟨hmem, hdeliverable⟩ := getPendingForHost_spec hrow
      have hreported : Reported φ.central.db (φ.agent hostId) := hworks hidle
      refine h.turnTo ⟨List.mem_map_of_mem hmem, hreported, fun hversion install hinstall hid => ?_⟩
      exact hreported install hinstall row hmem hid.symm hversion.symm hdeliverable
  | begin hagent =>
      obtain ⟨hknown, hreported, hfresh⟩ := hworks hagent
      exact h.turnTo ⟨hknown, .inl ⟨hreported, hfresh, installsLast_runUpgrade _⟩⟩
  | @report i hidle hostId upgradeId pending status next hagent draws faults =>
      have hturned := h.turnTo ((hworks hagent).goOn ())
      exact hturned.arrive i (neverReopens_of_report env hostId upgradeId status) draws faults
  | lose hagent => exact h.turnTo ((hworks hagent).goOn ())
  | validate hagent answer hanswer => exact h.turnTo ((hworks hagent).goOn answer)
  | perform hagent hcheck hinstall answer =>
      exact h.turnTo ((hworks hagent).goOn answer)
  | @install hostId pending next hagent answer =>
      have hwork := hworks hagent
      have hold := h.agents hostId
      obtain ⟨hknown, hbefore | hnone⟩ := hwork
      swap
      · exact (hnone.1 rfl).elim
      obtain ⟨hreported, hfresh, hlast⟩ := hbefore
      refine ⟨h.ids, h.writes, fun other => ?_⟩
      by_cases hsame : other = hostId
      swap
      · simp only [Function.update_of_ne hsame]
        exact h.agents other
      subst hsame
      simp only [Function.update_self]
      refine ⟨?_, ?_, hknown, .inr (hlast.1 rfl answer)⟩
      · refine List.pairwise_append.mpr ⟨hold.law, List.pairwise_singleton _ _, ?_⟩
        intro earlier hearlier later hlater hid hversion
        rw [List.mem_singleton.mp hlater] at hid hversion
        exact hfresh hversion earlier hearlier hid
      · intro install hinstall
        rcases List.mem_append.mp hinstall with hearlier | hnew
        · exact hold.known install hearlier
        · rw [List.mem_singleton.mp hnew]
          exact hknown
  | finish hagent | stop hostId => exact hrests _ hacknowledged

omit [DecidableEq ι] in
theorem cycleKept_start {db : Db} (hids : (db.upgrades.map HostUpgrade.id).Nodup)
    (draws : ι → ℕ → Draw) (version : Uuid → String) :
    CycleKept (Cycle.start db draws version) where
  ids := UniqueKey.kept_start hids
  writes := System.start_writes fun _ => trivial
  agents _ := ⟨List.Pairwise.nil, nofun, nofun⟩

/-- The runs in which every agent that becomes idle again has been acknowledged. -/
def AcknowledgedRun (env : Environment) (checkUrl : String → Option String) :
    Cycle ι → Cycle ι → Prop :=
  Relation.ReflTransGen fun φ φ' => CycleStep env checkUrl φ φ' ∧ Acknowledged φ φ'

/-- In every state of every such run, no agent that runs the target of an upgrade has run the
install step for that upgrade again. -/
theorem installs_once {env : Environment} {checkUrl : String → Option String} {db : Db}
    (hids : (db.upgrades.map HostUpgrade.id).Nodup) {draws : ι → ℕ → Draw} {version : Uuid → String}
    {φ : Cycle ι} (hrun : AcknowledgedRun env checkUrl (Cycle.start db draws version) φ)
    (hostId : Uuid) : NoReinstall (φ.agent hostId).installs := by
  have hkept : CycleKept φ := by
    induction hrun with
    | refl => exact cycleKept_start hids draws version
    | tail _ hstep ih => exact cycleKept_step ih hstep.1 hstep.2
  exact (hkept.agents hostId).law

/-! ## Runs that deliver an upgrade again -/

section Again

variable {env : Environment} {checkUrl : String → Option String} {φ : Cycle ι} {hostId : Uuid}

omit [DecidableEq ι] in
@[simp]
theorem agent_turnTo (activity : Activity) :
    (φ.turnTo hostId activity).agent hostId = { φ.agent hostId with activity := activity } := by
  simp [Cycle.turnTo]

omit [DecidableEq ι] in
@[simp]
theorem turnTo_turnTo (first second : Activity) :
    (φ.turnTo hostId first).turnTo hostId second = φ.turnTo hostId second := by
  simp [Cycle.turnTo, Function.update_idem]

omit [DecidableEq ι] in
theorem install_turnTo (activity : Activity) (pending : PendingUpgrade) (answer : Option String)
    (rest : Agent.UpgradeProgram Bool) :
    ({ φ.turnTo hostId activity with
        agent := Function.update (φ.turnTo hostId activity).agent hostId
          (((φ.turnTo hostId activity).agent hostId).afterInstall pending answer rest) } :
              Cycle ι) =
      { φ with
        agent := Function.update φ.agent hostId
          ((φ.agent hostId).afterInstall pending answer rest) } := by
  simp [Cycle.turnTo, HostAgent.afterInstall, Function.update_idem]

/-- Acknowledged or not, a run is one. -/
theorem AcknowledgedRun.steps {φ₀ : Cycle ι} (hrun : AcknowledgedRun env checkUrl φ₀ φ) :
    Relation.ReflTransGen (CycleStep env checkUrl) φ₀ φ := by
  induction hrun with
  | refl => exact .refl
  | tail _ hstep ih => exact ih.tail hstep.1

omit [DecidableEq ι] in
/-- An agent at work has nothing to acknowledge. -/
theorem acknowledged_of_busy (hostId : Uuid) {φ' : Cycle ι}
    (hothers : ∀ other, other ≠ hostId → φ'.agent other = φ.agent other)
    (hbusy : (φ'.agent hostId).activity ≠ .idle) : Acknowledged φ φ' := by
  intro other hbefore hidle
  by_cases hsame : other = hostId
  · rw [hsame] at hidle
    exact (hbusy hidle).elim
  · rw [hothers other hsame] at hidle
    exact (hbefore hidle).elim

theorem AcknowledgedRun.turnTo {φ₀ : Cycle ι} (hrun : AcknowledgedRun env checkUrl φ₀ φ)
    {activity : Activity} (hbusy : activity ≠ .idle)
    (hstep : CycleStep env checkUrl φ (φ.turnTo hostId activity)) :
    AcknowledgedRun env checkUrl φ₀ (φ.turnTo hostId activity) := by
  refine hrun.tail ⟨hstep, acknowledged_of_busy hostId (fun other hother => ?_) ?_⟩
  · simp [Cycle.turnTo, Function.update_of_ne hother]
  · simpa using hbusy

/-- A report that gets lost. -/
theorem AcknowledgedRun.lose {φ₀ : Cycle ι} {pending : PendingUpgrade} {upgradeId : Uuid}
    {status : UpgradeStatusIn} {next : Unit → Agent.UpgradeProgram Bool}
    (hrun : AcknowledgedRun env checkUrl φ₀
      (φ.turnTo hostId (.upgrading pending (.call (.report upgradeId status) next)))) :
    AcknowledgedRun env checkUrl φ₀ (φ.turnTo hostId (.upgrading pending (next ()))) := by
  have hlost := hrun.turnTo (Activity.noConfusion) (.lose (by rw [agent_turnTo]))
  rwa [turnTo_turnTo] at hlost

/-- A phase that neither checks the payload nor installs, and succeeds. -/
theorem AcknowledgedRun.perform {φ₀ : Cycle ι} {pending : PendingUpgrade}
    {phase : Agent.UpgradePhase} {next : Option String → Agent.UpgradeProgram Bool}
    (hrun : AcknowledgedRun env checkUrl φ₀
      (φ.turnTo hostId (.upgrading pending (.call (.perform phase) next))))
    (hcheck : phase ≠ .validatePayload) (hinstall : phase ≠ .installWheel) :
    AcknowledgedRun env checkUrl φ₀ (φ.turnTo hostId (.upgrading pending (next none))) := by
  have hperformed := hrun.turnTo (Activity.noConfusion)
    (.perform (by rw [agent_turnTo]) hcheck hinstall none)
  rwa [turnTo_turnTo] at hperformed

/-- The rest of an upgrade once its wheel is installed. -/
def restarting (upgradeId : Uuid) : Agent.UpgradeProgram Bool :=
  (Agent.report upgradeId "RESTARTING" none).bind fun _ =>
    Agent.attempt upgradeId .restartService "Restart failed: " (pure true)

/-- An agent that gets an upgrade whose payload it accepts may install it, while its reports
get lost. -/
theorem exists_installed (host : Host) {row : HostUpgrade}
    (hidle : (φ.agent hostId).activity = .idle)
    (hrow : φ.central.db.getPendingForHost hostId = some row)
    (hvalid : Agent.validatePayload checkUrl (pendingUpgrade env host row)
      (φ.agent hostId).version = none) :
    AcknowledgedRun env checkUrl φ
      { φ with
        agent := Function.update φ.agent hostId
          ((φ.agent hostId).afterInstall (pendingUpgrade env host row) none (restarting row.id))
              } := by
  have hdelivered : AcknowledgedRun env checkUrl φ
      (φ.turnTo hostId (.delivered (pendingUpgrade env host row))) :=
    AcknowledgedRun.turnTo .refl (Activity.noConfusion) (.deliver hostId hidle host hrow)
  have hbegun := hdelivered.turnTo (Activity.noConfusion) (.begin (by rw [agent_turnTo]))
  rw [turnTo_turnTo] at hbegun
  have hvalidated := hbegun.turnTo (Activity.noConfusion)
    (.validate (by rw [agent_turnTo]; rfl) none (by simpa using hvalid))
  rw [turnTo_turnTo] at hvalidated
  have hdownloaded := hvalidated.lose.perform (by decide) (by decide)
  have hverified := hdownloaded.lose.perform (by decide) (by decide)
  have hinstalled := hverified.lose.tail ⟨.install (by rw [agent_turnTo]; rfl) none,
    acknowledged_of_busy hostId (fun other hother => by
      simp [Function.update_of_ne hother]) (by simp [HostAgent.afterInstall])⟩
  rw [install_turnTo] at hinstalled
  exact hinstalled

/-- An agent that installs an upgrade while all its reports get lost is idle again, runs the
target, and nothing has changed for the registry. -/
theorem exists_unreported (host : Host) {row : HostUpgrade}
    (hidle : (φ.agent hostId).activity = .idle)
    (hrow : φ.central.db.getPendingForHost hostId = some row)
    (hvalid : Agent.validatePayload checkUrl (pendingUpgrade env host row)
      (φ.agent hostId).version = none) :
    ∃ φ', Relation.ReflTransGen (CycleStep env checkUrl) φ φ' ∧ φ'.central = φ.central ∧
      φ'.agent hostId = ⟨row.targetVersion, .idle,
        (φ.agent hostId).installs ++ [⟨row.id, row.targetVersion, (φ.agent hostId).version⟩]⟩ := by
  let installed : Cycle ι := { φ with
    agent := Function.update φ.agent hostId
      ((φ.agent hostId).afterInstall (pendingUpgrade env host row) none (restarting row.id)) }
  have hinstalled : AcknowledgedRun env checkUrl φ installed :=
      exists_installed host hidle hrow hvalid
  have hrestarting : installed.turnTo hostId (.upgrading (pendingUpgrade env host row)
      (restarting row.id)) = installed := by
    simp [installed, Cycle.turnTo, HostAgent.afterInstall, Function.update_idem]
  rw [← hrestarting] at hinstalled
  have hrestarted : AcknowledgedRun env checkUrl φ
      (installed.turnTo hostId (.upgrading (pendingUpgrade env host row) (.ret true))) :=
    hinstalled.lose.perform (by decide) (by decide)
  have hover : ((installed.turnTo hostId (.upgrading (pendingUpgrade env host row)
      (.ret true))).agent hostId).activity = .upgrading (pendingUpgrade env host row)
          (.ret true) := by
    rw [agent_turnTo]
  refine ⟨installed.turnTo hostId .idle, ?_, rfl, ?_⟩
  · refine hrestarted.steps.tail ?_
    rw [← turnTo_turnTo (.upgrading (pendingUpgrade env host row) (.ret true)) .idle]
    exact .finish hover
  · rw [agent_turnTo]
    simp [installed, HostAgent.afterInstall, pendingUpgrade]

/-- Where all reports of an upgrade get lost, the agent that runs its target installs it
again. -/
theorem reinstalled_of_unreported (host : Host) {row : HostUpgrade}
    (hidle : (φ.agent hostId).activity = .idle)
    (hrow : φ.central.db.getPendingForHost hostId = some row)
    (hvalid : Agent.validatePayload checkUrl (pendingUpgrade env host row)
      (φ.agent hostId).version = none) :
    ∃ φ', Relation.ReflTransGen (CycleStep env checkUrl) φ φ' ∧
      (φ'.agent hostId).installs = (φ.agent hostId).installs ++
        [⟨row.id, row.targetVersion, (φ.agent hostId).version⟩] ++
          [⟨row.id, row.targetVersion, row.targetVersion⟩] := by
  obtain ⟨φ₁, hfirst, hcentral, hagent⟩ := exists_unreported host hidle hrow hvalid
  have hidle₁ : (φ₁.agent hostId).activity = .idle := by rw [hagent]
  have hrow₁ : φ₁.central.db.getPendingForHost hostId = some row := by rw [hcentral, hrow]
  have hversion : (φ₁.agent hostId).version = (pendingUpgrade env host row).targetVersion := by
    rw [hagent]
    rfl
  have hvalid₁ : Agent.validatePayload checkUrl (pendingUpgrade env host row)
      (φ₁.agent hostId).version = none := by
    rw [hversion]
    exact Agent.validatePayload_again hvalid
  obtain ⟨φ₂, hsecond, -, hagent₂⟩ := exists_unreported host hidle₁ hrow₁ hvalid₁
  refine ⟨φ₂, hfirst.trans hsecond, ?_⟩
  rw [hagent₂, hagent]

end Again

/-! ## The sample host -/

/-- A request for version 2.0, with a digest. -/
def digestedUpgrade : UpgradeIn :=
  { sampleUpgrade with artifactSha256 := String.ofList (List.replicate 64 '0') }

/-- The registry once the upgrade of the sample host is requested. -/
def approvedDb : Db :=
  afterCall ((UpgradeCall.create sampleHost.id digestedUpgrade).program sampleEnvironment) sampleDb

/-- The upgrade on file. -/
def approvedUpgrade : HostUpgrade where
  id := sampleUpgradeId
  hostId := sampleHost.id
  requestId := none
  state := .approved
  targetVersion := "2.0"
  artifactUrl := "https://example.org/agent-2.0.whl"
  artifactSha256 := String.ofList (List.replicate 64 '0')
  previousVersion := none
  previousArtifactUrl := none
  previousArtifactSha256 := none
  failureReason := none
  approvedAt := some 0
  claimedAt := none
  completedAt := none
  createdBy := some "admin"
  createdAt := 0

theorem approvedDb_pending : approvedDb.getPendingForHost sampleHost.id =
    some approvedUpgrade := rfl

/-- A registry with one place, and agents of version 1.0. -/
def sampleCycle : Cycle Unit := Cycle.start approvedDb (fun _ => sampleDraws 0) fun _ => "1.0"

theorem validatePayload_sample : Agent.validatePayload (fun _ => none)
    (pendingUpgrade sampleEnvironment sampleHost approvedUpgrade) "1.0" = none := by decide

/-- Both times all four reports get lost. The second time the agent runs version 2.0, and
installs it for the same upgrade. -/
theorem upgrade_installedTwice :
    ∃ φ : Cycle Unit, Relation.ReflTransGen (CycleStep sampleEnvironment fun _ =>
        none) sampleCycle φ ∧
      (φ.agent sampleHost.id).installs =
        [⟨sampleUpgradeId, "2.0", "1.0"⟩, ⟨sampleUpgradeId, "2.0", "2.0"⟩] ∧
      ¬ NoReinstall (φ.agent sampleHost.id).installs := by
  have hidle : (sampleCycle.agent sampleHost.id).activity = .idle := rfl
  obtain ⟨φ, hrun, hinstalls⟩ := reinstalled_of_unreported sampleHost hidle approvedDb_pending
    validatePayload_sample
  have htwo : (φ.agent sampleHost.id).installs =
      [⟨sampleUpgradeId, "2.0", "1.0"⟩, ⟨sampleUpgradeId, "2.0", "2.0"⟩] := hinstalls
  refine ⟨φ, hrun, htwo, ?_⟩
  rw [htwo]
  simp [NoReinstall]

section Served

variable {env : Environment} {checkUrl : String → Option String} {hostId : Uuid}

/-- A place that nobody disturbs may move as often as it likes. -/
theorem acknowledged_moves {i : ι} (n : ℕ) {φ : Cycle ι} (hundisturbed : φ.central.Undisturbed i) :
    AcknowledgedRun env checkUrl φ { φ with central := System.moves store i n φ.central } := by
  induction n generalizing φ with
  | zero => exact .refl
  | succ n ih =>
      have hmoved : (φ.central.move store i).Undisturbed i := hundisturbed.move
      exact .head ⟨.serve i hundisturbed.not_blocked, fun _ hbusy hidle => (hbusy hidle).elim⟩
        (ih (φ := { φ with central := φ.central.move store i }) hmoved)

/-- A report that arrives at the one place of a registry, and is served to its end. -/
theorem exists_served_report {φ₀ φ : Cycle Unit} {pending : PendingUpgrade} {upgradeId : Uuid}
    {status : UpgradeStatusIn} {next : Unit → Agent.UpgradeProgram Bool}
    (hrun : AcknowledgedRun env checkUrl φ₀
      (φ.turnTo hostId (.upgrading pending (.call (.report upgradeId status) next))))
    (hfinished : (φ.central.program ()).Finished) :
    ∃ central, AcknowledgedRun env checkUrl φ₀
        { φ.turnTo hostId (.upgrading pending (next ())) with central := central } ∧
      central.db = afterCall ((UpgradeCall.report hostId upgradeId status).program env)
          φ.central.db := by
  let arrived := φ.central.arrive () ((UpgradeCall.report hostId upgradeId status).program env)
    (sampleDraws 100) fun _ => none
  obtain ⟨n, hn⟩ := System.exists_completed store () arrived
  have hundisturbed : arrived.Undisturbed () := fun j hj => (hj rfl).elim
  have harrived : AcknowledgedRun env checkUrl φ₀
      { φ.turnTo hostId (.upgrading pending (next ())) with central := arrived } := by
    refine hrun.tail ⟨?_, acknowledged_of_busy hostId (fun other hother => ?_) ?_⟩
    · have hstep : CycleStep env checkUrl _ _ := .report () hfinished
        (φ := φ.turnTo hostId (.upgrading pending (.call (.report upgradeId status) next)))
        (by rw [agent_turnTo]) (sampleDraws 100) fun _ => none
      rwa [turnTo_turnTo] at hstep
    · simp [Cycle.turnTo, Function.update_of_ne hother]
    · simp [Cycle.turnTo]
  refine ⟨System.moves store () n arrived, harrived.trans (acknowledged_moves n hundisturbed), ?_⟩
  rw [hn.db, afterCall]
  simp only [arrived, System.arrive, Function.update_self]

end Served

/-- The registry once the agent has reported that it restarts. -/
def reportedDb : Db :=
  afterCall ((UpgradeCall.report sampleHost.id sampleUpgradeId ⟨"RESTARTING", none, none⟩).program
    sampleEnvironment) approvedDb

/-- Of the four reports of the sample host's agent the last one arrives. -/
theorem installs_once_sample :
    ∃ φ : Cycle Unit, AcknowledgedRun sampleEnvironment (fun _ => none) sampleCycle φ ∧
      φ.agent sampleHost.id = ⟨"2.0", .idle, [⟨sampleUpgradeId, "2.0", "1.0"⟩]⟩ ∧
      NoReinstall (φ.agent sampleHost.id).installs := by
  let pending := pendingUpgrade sampleEnvironment sampleHost approvedUpgrade
  let installed : Cycle Unit := { sampleCycle with
    agent := Function.update sampleCycle.agent sampleHost.id
      ((sampleCycle.agent sampleHost.id).afterInstall pending none (restarting sampleUpgradeId)) }
  have hinstalled : AcknowledgedRun sampleEnvironment (fun _ => none) sampleCycle installed :=
    exists_installed sampleHost rfl approvedDb_pending validatePayload_sample
  have hsame : installed.turnTo sampleHost.id (.upgrading pending (restarting sampleUpgradeId)) =
      installed := by
    simp [installed, Cycle.turnTo, HostAgent.afterInstall, Function.update_idem]
  rw [← hsame] at hinstalled
  obtain ⟨central, hreported, hdb⟩ := exists_served_report hinstalled trivial
  let served : Cycle Unit := { installed with central := central }
  have hrestarting : AcknowledgedRun sampleEnvironment (fun _ => none) sampleCycle
      (served.turnTo sampleHost.id (.upgrading pending
        (Agent.attempt sampleUpgradeId .restartService "Restart failed: " (pure true)))) := hreported
  have hrestarted : AcknowledgedRun sampleEnvironment (fun _ => none) sampleCycle
      (served.turnTo sampleHost.id (.upgrading pending (.ret true))) :=
    hrestarting.perform (by decide) (by decide)
  have hover : ((served.turnTo sampleHost.id (.upgrading pending (.ret true))).agent
      sampleHost.id).activity = .upgrading pending (.ret true) := by
    rw [agent_turnTo]
  have hrest : AcknowledgedRun sampleEnvironment (fun _ => none) sampleCycle
      (served.turnTo sampleHost.id .idle) := by
    rw [← turnTo_turnTo (.upgrading pending (.ret true)) .idle]
    refine hrestarted.tail ⟨.finish hover, fun hostId hbusy hidle install _ row hrow _ _ => ?_⟩
    have hclosed : ∀ row ∈ reportedDb.upgrades, ¬ Deliverable row := by decide
    have hserved : served.central.db = reportedDb := hdb
    exact hclosed row (hserved ▸ hrow)
  refine ⟨_, hrest, ?_, installs_once (by decide) hrest sampleHost.id⟩
  rw [agent_turnTo]
  simp only [served, installed, Function.update_self]
  rfl

end Fleet
