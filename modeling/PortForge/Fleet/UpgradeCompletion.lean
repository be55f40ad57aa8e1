/-
# The end of an upgrade

The central registry and the agents of its hosts as one system. The registry serves calls
that arrive while others are under way: requests of the admin, heartbeats, reports on
upgrades, and calls that have nothing to do with upgrades. An agent that is not at work
may send a heartbeat or begin an upgrade, and one at work reports on its phases; a report
may get lost, and an agent may stop at any point. No heartbeat handled by the registry
touches an upgrade, and no agent names the version it runs, so that no upgrade of the
system ever succeeds, and one that was reported as restarting stays in the way of the
next.
-/

import PortForge.Agent.UpgradeHandler
import PortForge.Central.Heartbeats
import PortForge.Central.UpgradeLaw
import PortForge.Transaction.Arrivals
import Mathlib.Logic.Relation

namespace Fleet

open Transaction Central

/-- The registry with the calls it serves, and what each host's agent still has to do. -/
structure State (ι : Type) where
  central : System ι Db Write ℤ Draw Failure Unit
  agent : Uuid → Agent.UpgradeProgram Bool

/-- A registry that serves nobody yet, and agents that are not at work. -/
def State.start {ι : Type} (db : Db) (draws : ι → ℕ → Draw) : State ι where
  central := System.start db (fun _ => .ret ()) draws
  agent _ := .ret false

/-- The calls that do not come from an upgrade's agent. -/
inductive Request (env : Environment) : Service Unit → Prop
  | create (hostId : Uuid) (request : UpgradeIn) :
      Request env ((UpgradeCall.create hostId request).program env)
  | rollback (upgradeId : Uuid) : Request env ((UpgradeCall.rollback upgradeId).program env)
  | decommission (hostId : Uuid) (reason : Option String) :
      Request env ((UpgradeCall.decommission hostId reason).program env)
  | heartbeat (hostId : Uuid) (heartbeat : HeartbeatIn) :
      Request env ((heartbeatEndpoint env hostId heartbeat).bind fun _ => .ret ())
  | other (p : Service Unit) (hspares : p.Adds Write.SparesUpgrades) : Request env p

variable {ι : Type} [DecidableEq ι]

/-- One step of the system. -/
inductive Step (env : Environment) : State ι → State ι → Prop
  | /-- A call under way performs its next operation. -/
    serve {φ : State ι} (i : ι) (hfree : ¬ φ.central.Blocked store i) :
      Step env φ { φ with central := φ.central.move store i }
  | /-- A request arrives. -/
    request {φ : State ι} (i : ι) (hidle : (φ.central.program i).Finished) {p : Service Unit}
      (hp : Request env p) (draws : ℕ → Draw) (faults : ℕ → Option DbError) :
      Step env φ { φ with central := φ.central.arrive i p draws faults }
  | /-- An agent begins an upgrade that a response delivered. -/
    begin {φ : State ι} (hostId upgradeId : Uuid) (hidle : ∃ value, φ.agent hostId = .ret value) :
      Step env φ { φ with agent := Function.update φ.agent hostId (Agent.runUpgrade upgradeId) }
  | /-- An agent's report arrives. -/
    report {φ : State ι} (i : ι) (hidle : (φ.central.program i).Finished) {hostId upgradeId : Uuid}
      {status : UpgradeStatusIn} {next : Unit → Agent.UpgradeProgram Bool}
      (hagent : φ.agent hostId = .call (.report upgradeId status) next) (draws : ℕ → Draw)
      (faults : ℕ → Option DbError) :
      Step env φ
        { central := φ.central.arrive i ((UpgradeCall.report hostId upgradeId status).program env)
            draws faults
          agent := Function.update φ.agent hostId (next ()) }
  | /-- An agent's report gets lost. -/
    lose {φ : State ι} {hostId upgradeId : Uuid} {status : UpgradeStatusIn}
      {next : Unit → Agent.UpgradeProgram Bool}
      (hagent : φ.agent hostId = .call (.report upgradeId status) next) :
      Step env φ { φ with agent := Function.update φ.agent hostId (next ()) }
  | /-- A phase of an upgrade ends on its host. -/
    perform {φ : State ι} {hostId : Uuid} {phase : Agent.UpgradePhase}
      {next : Option String → Agent.UpgradeProgram Bool}
      (hagent : φ.agent hostId = .call (.perform phase) next) (answer : Option String) :
      Step env φ { φ with agent := Function.update φ.agent hostId (next answer) }
  | /-- An agent stops, and a new process takes its place. -/
    stop {φ : State ι} (hostId : Uuid) :
      Step env φ { φ with agent := Function.update φ.agent hostId (.ret false) }

/-- Every state a run of the system reaches. -/
def Reachable (env : Environment) : State ι → State ι → Prop := Relation.ReflTransGen (Step env)

/-! ## Writes that complete no upgrade -/

/-- The write makes no upgrade a success. -/
def CompletesNothing : Write → Prop
  | .insertUpgrade row => row.state ≠ .succeeded
  | .updateUpgrade _ change => change.state ≠ .succeeded
  | _ => True

theorem completesNothing_of_spares {write : Write} (h : write.SparesUpgrades) :
    CompletesNothing write := by
  cases write <;> first | exact h.elim | trivial

theorem completesNothing_of_isNew {row : HostUpgrade} {hostId : Uuid} (h : row.IsNew hostId) :
    CompletesNothing (.insertUpgrade row) := by
  rcases h.state with hstate | hstate <;> simp [CompletesNothing, hstate]

theorem notSucceeded_apply {write : Write} (h : CompletesNothing write) {db : Db}
    (hdb : ∀ row ∈ db.upgrades, row.state ≠ .succeeded) :
    ∀ row ∈ (write.apply db).upgrades, row.state ≠ .succeeded := by
  intro row hrow
  cases write with
  | insertUpgrade new =>
      rcases List.mem_append.mp hrow with hold | hnew
      · exact hdb row hold
      · rw [List.mem_singleton.mp hnew]
        exact h
  | updateUpgrade id change =>
      obtain ⟨old, hold, rfl⟩ := List.mem_map.mp hrow
      split
      · exact h
      · exact hdb old hold
  | failUpgrade id reason now =>
      obtain ⟨old, hold, rfl⟩ := List.mem_map.mp hrow
      split
      · exact UpgradeState.noConfusion
      · exact hdb old hold
  | purgeHost table id =>
      cases table with
      | upgrades => exact hdb row (List.mem_filter.mp hrow).1
      | _ => exact hdb row hrow
  | _ => exact hdb row hrow

/-- What the calls that do not come from an upgrade's agent write: new upgrades, marks of
rolled back ones, failures, and what has nothing to do with upgrades. -/
theorem Request.adds {P : Write → Prop} {env : Environment} {p : Service Unit} (h : Request env p)
    (hinsert : ∀ {row : HostUpgrade} {hostId : Uuid}, row.IsNew hostId → P (.insertUpgrade row))
    (hmark : ∀ (id : Uuid) (change : UpgradeChange), change.state = .rolledBack →
      P (.updateUpgrade id change))
    (hfail : ∀ id reason now, P (.failUpgrade id reason now))
    (hspares : ∀ write : Write, write.SparesUpgrades → P write) : p.Adds P := by
  cases h with
  | create hostId request =>
      rw [UpgradeCall.program, createUpgradeEndpoint, Program.bind_eq, Program.bind_assoc]
      refine Program.Adds.bind ?_ fun row => adds_settleUpgrade row
      exact adds_createUpgrade env hostId request fun row hnew => hinsert hnew
  | rollback upgradeId =>
      rw [UpgradeCall.program, rollbackUpgradeEndpoint, Program.bind_eq, Program.bind_assoc]
      refine Program.Adds.bind ?_ fun row => adds_settleUpgrade row
      refine Program.Adds.bind observes_select.adds fun row => ?_
      cases row with
      | none => trivial
      | some original =>
          exact adds_rollbackOriginal env original (fun row hnew => hinsert hnew)
              (hmark original.id)
  | decommission hostId reason =>
      refine adds_decommission env hostId reason fun write hwrite => ?_
      cases write <;> first | exact hwrite.elim | exact hfail _ _ _ | exact hspares _ trivial
  | heartbeat hostId heartbeat =>
      refine ((adds_heartbeatEndpoint env hostId heartbeat).mono fun write hwrite => ?_).bind
        fun _ => trivial
      cases write <;> first | exact hwrite.elim | exact hspares _ trivial
  | other p hother => exact hother.mono hspares

theorem adds_of_request {env : Environment} {p : Service Unit} (h : Request env p) :
    p.Adds CompletesNothing := by
  refine h.adds completesNothing_of_isNew (fun id change hchange => ?_) (fun _ _ _ => trivial)
    fun write => completesNothing_of_spares
  simp [CompletesNothing, hchange]

/-- A report that names no version completes no upgrade. -/
theorem adds_of_report (env : Environment) (hostId upgradeId : Uuid) {status : UpgradeStatusIn}
    (hunversioned : status.reportedVersion = none) :
    ((UpgradeCall.report hostId upgradeId status).program env).Adds CompletesNothing := by
  rw [UpgradeCall.program, reportUpgradeStatus, Program.bind_eq, Program.bind_assoc]
  refine Program.Adds.bind ?_ fun row => adds_settleUpgrade row
  apply adds_updateUpgradeStatus hostId upgradeId status ?_ fun _ => trivial
  intro upgrade newState hstate change hchange
  have hopen : newState ≠ .succeeded := by
    intro hsucceeded
    have hversion := (of_reportedState hstate).2.2.2.2 hsucceeded
    rw [hunversioned] at hversion
    cases hversion
  rwa [CompletesNothing, hchange]

/-! ## Runs -/

/-- No upgrade on file has succeeded, and nothing under way will make one succeed. -/
structure Incomplete (φ : State ι) : Prop where
  rows : ∀ row ∈ φ.central.db.upgrades, row.state ≠ .succeeded
  writes : φ.central.Writes CompletesNothing
  agents : ∀ hostId, (φ.agent hostId).Uses Agent.UpgradeOp.Unversioned

omit [DecidableEq ι] in
theorem incomplete_start {db : Db} (hdb : ∀ row ∈ db.upgrades, row.state ≠ .succeeded)
    (draws : ι → ℕ → Draw) : Incomplete (State.start db draws) where
  rows := hdb
  writes := System.start_writes fun _ => trivial
  agents _ := trivial

omit [DecidableEq ι] in
/-- An agent that goes on with a program of the same kind. -/
theorem Incomplete.uses_update {φ : State ι} (h : Incomplete φ) {hostId : Uuid}
    {p : Agent.UpgradeProgram Bool} (hp : p.Uses Agent.UpgradeOp.Unversioned) (other : Uuid) :
    (Function.update φ.agent hostId p other).Uses Agent.UpgradeOp.Unversioned := by
  by_cases hsame : other = hostId
  · subst hsame
    rwa [Function.update_self]
  · rw [Function.update_of_ne hsame]
    exact h.agents other

theorem incomplete_step {env : Environment} {φ φ' : State ι} (h : Incomplete φ)
    (hstep : Step env φ φ') : Incomplete φ' := by
  cases hstep with
  | serve i hfree =>
      have hrows : ∀ row ∈ (φ.central.move store i).db.upgrades, row.state ≠ .succeeded :=
        System.Writes.move_db_invariant (motive := fun db => ∀ row ∈ db.upgrades,
          row.state ≠ .succeeded) h.writes i h.rows fun _ _ hwrite hdb =>
            notSucceeded_apply hwrite hdb
      exact ⟨hrows, h.writes.move i, h.agents⟩
  | request i hidle hp draws faults =>
      exact ⟨h.rows, h.writes.arrive (adds_of_request hp) draws faults, h.agents⟩
  | begin hostId upgradeId hidle =>
      exact ⟨h.rows, h.writes, h.uses_update (Agent.uses_runUpgrade upgradeId)⟩
  | @report i hidle hostId upgradeId status next hagent draws faults =>
      have hcall := h.agents hostId
      rw [hagent] at hcall
      exact ⟨h.rows, h.writes.arrive (adds_of_report env hostId upgradeId hcall.1) draws faults,
        h.uses_update (hcall.2 ())⟩
  | @lose hostId upgradeId status next hagent =>
      have hcall := h.agents hostId
      rw [hagent] at hcall
      exact ⟨h.rows, h.writes, h.uses_update (hcall.2 ())⟩
  | @perform hostId phase next hagent answer =>
      have hcall := h.agents hostId
      rw [hagent] at hcall
      exact ⟨h.rows, h.writes, h.uses_update (hcall.2 answer)⟩
  | stop hostId => exact ⟨h.rows, h.writes, h.uses_update trivial⟩

theorem incomplete_of_reachable {env : Environment} {φ₀ φ : State ι} (h : Incomplete φ₀)
    (hreach : Reachable env φ₀ φ) : Incomplete φ := by
  induction hreach with
  | refl => exact h
  | tail _ hstep ih => exact incomplete_step ih hstep

/-! ## The heartbeat after the restart -/

/-- A heartbeat leaves every upgrade as it is. -/
theorem upgrades_heartbeat (env : Environment) (hostId : Uuid) (heartbeat : HeartbeatIn)
    (draws : ℕ → Draw) (faults : ℕ → Option DbError) (db : Db) :
    ((heartbeatEndpoint env hostId heartbeat).exec store (Session.start draws faults) db
      ).db.upgrades = db.upgrades := by
  refine (adds_heartbeatEndpoint env hostId heartbeat).exec_induction
    (motive := fun later => later.upgrades = db.upgrades) (s := Session.start draws faults)
    (by simp [Session.start, Session.batch]) rfl fun write contents hwrite hcontents => ?_
  rw [← hcontents]
  cases write <;> first | exact hwrite.elim | rfl

/-- Where an upgrade of the host is open, the check for one refuses every request. -/
theorem refused_of_open (env : Environment) {host : Host} {db : Db} {row : HostUpgrade}
    (hrow : row ∈ db.upgrades) (hhost : row.hostId = host.id) (hopen : row.state.terminal = false)
    (request : UpgradeIn) {s : ServiceSession} (hflushed : s.flushed = []) :
    ∃ state, ((openUnlessPending env host request).exec store s db).result =
      .error (.upgrade (.pendingUpgrade state)) := by
  cases hpending : db.getNonTerminalForHost host.id with
  | none =>
      have hnone := List.find?_eq_none.mp hpending row hrow
      simp [hhost, hopen] at hnone
  | some pending =>
      refine ⟨pending.state, ?_⟩
      simp only [openUnlessPending, Program.bind_eq, select, Program.exec_bind, Program.exec_query,
        Session.view_of_flushed_nil store hflushed, hpending]
      rfl

/-- In every state of every run, from a registry without an upgrade that succeeded, no
upgrade has succeeded; and where one is restarting, a heartbeat of its host, whatever
version it names, leaves it as it is, so that every later request is refused. -/
theorem upgrade_neverSucceeds {env : Environment} {db : Db}
    (hdb : ∀ row ∈ db.upgrades, row.state ≠ .succeeded) {draws : ι → ℕ → Draw} {φ : State ι}
    (hreach : Reachable env (State.start db draws) φ) :
    (∀ row ∈ φ.central.db.upgrades, row.state ≠ .succeeded) ∧
      ∀ row ∈ φ.central.db.upgrades, row.state = .restarting →
        ∀ (heartbeat : HeartbeatIn) (drawn : ℕ → Draw) (faults : ℕ → Option DbError),
          heartbeat.report.agentVersion = some row.targetVersion →
            ∃ later, later = ((heartbeatEndpoint env row.hostId heartbeat).exec store
                (Session.start drawn faults) φ.central.db).db ∧
              row ∈ later.upgrades ∧
              ∀ (host : Host) (request : UpgradeIn) (s : ServiceSession),
                host.id = row.hostId → s.flushed = [] →
                  ∃ state, ((openUnlessPending env host request).exec store s later).result =
                    .error (.upgrade (.pendingUpgrade state)) := by
  refine ⟨(incomplete_of_reachable (incomplete_start hdb draws) hreach).rows, ?_⟩
  intro row hrow hrestarting heartbeat drawn faults _
  have hkept : row ∈ ((heartbeatEndpoint env row.hostId heartbeat).exec store
      (Session.start drawn faults) φ.central.db).db.upgrades := by
    rwa [upgrades_heartbeat]
  refine ⟨_, rfl, hkept, fun host request s hhost hflushed => ?_⟩
  have hopen : row.state.terminal = false := by rw [hrestarting]; rfl
  exact refused_of_open env hkept hhost.symm hopen request hflushed

/-! ## A run of one host -/

/-- A place that nobody disturbs may move as often as it likes. -/
theorem reachable_moves {env : Environment} {i : ι} (n : ℕ) {φ : State ι}
    (hundisturbed : φ.central.Undisturbed i) :
    Reachable env φ { φ with central := System.moves store i n φ.central } := by
  induction n generalizing φ with
  | zero => exact .refl
  | succ n ih =>
      have hmoved : (φ.central.move store i).Undisturbed i := hundisturbed.move
      exact .head (.serve i hundisturbed.not_blocked)
        (ih (φ := { φ with central := φ.central.move store i }) hmoved)

/-- The contents after a call that ran alone. -/
def afterCall (p : Service Unit) (db : Db) : Db :=
  (p.exec store (Session.start (sampleDraws 100) fun _ => none) db).db

/-- A registry with one place, which is not busy. -/
structure Idle (φ : State Unit) (db : Db) : Prop where
  db : φ.central.db = db
  finished : (φ.central.program ()).Finished

/-- A call that arrives at the one place is served to its end. -/
theorem exists_served (env : Environment) (c : System Unit Db Write ℤ Draw Failure Unit)
    (p : Service Unit) (agent : Uuid → Agent.UpgradeProgram Bool) :
    ∃ φ, Reachable env
        { central := c.arrive () p (sampleDraws 100) fun _ => none, agent := agent } φ ∧
      Idle φ (afterCall p c.db) ∧ φ.agent = agent := by
  obtain ⟨n, hn⟩ := System.exists_completed store ()
    (c.arrive () p (sampleDraws 100) fun _ => none)
  have hundisturbed : (c.arrive () p (sampleDraws 100) fun _ => none).Undisturbed () :=
    fun j hj => (hj rfl).elim
  refine ⟨_, reachable_moves n (φ := ⟨_, agent⟩) hundisturbed, ⟨?_, hn.finished⟩, rfl⟩
  rw [hn.db, afterCall]
  simp only [System.arrive, Function.update_self]

theorem exists_requested (env : Environment) {φ : State Unit} {db : Db} (h : Idle φ db)
    {p : Service Unit} (hp : Request env p) :
    ∃ φ', Reachable env φ φ' ∧ Idle φ' (afterCall p db) ∧ φ'.agent = φ.agent := by
  obtain ⟨φ', hserved, hidle, hagent⟩ := exists_served env φ.central p φ.agent
  rw [h.db] at hidle
  exact ⟨φ', .head (.request () h.finished hp _ _) hserved, hidle, hagent⟩

/-- An agent at rest begins an upgrade, and its payload passes the checks. -/
theorem exists_begun (env : Environment) {φ : State Unit} {db : Db} (h : Idle φ db)
    {hostId : Uuid} {value : Bool} (hagent : φ.agent hostId = .ret value) (upgradeId : Uuid)
    {phase : Agent.UpgradePhase} {rest : Option String → Agent.UpgradeProgram Bool}
    (hrun : Agent.runUpgrade upgradeId = .call (.perform phase) rest) :
    ∃ φ', Reachable env φ φ' ∧ Idle φ' db ∧ φ'.agent hostId = rest none := by
  have hbegun : Reachable env φ
      { φ with agent := Function.update φ.agent hostId (.call (.perform phase) rest) } := by
    rw [← hrun]
    exact .single (.begin hostId upgradeId ⟨value, hagent⟩)
  refine ⟨_, hbegun.tail (.perform (Function.update_self _ _ _) none), ⟨h.db, h.finished⟩, ?_⟩
  exact Function.update_self _ _ _

/-- The agent's report arrives and is served; the agent then does its next phase. -/
theorem exists_reported (env : Environment) {φ : State Unit} {db : Db} (h : Idle φ db)
    {hostId upgradeId : Uuid} {status : UpgradeStatusIn}
    {next : Unit → Agent.UpgradeProgram Bool}
    (hagent : φ.agent hostId = .call (.report upgradeId status) next)
    {phase : Agent.UpgradePhase} {rest : Option String → Agent.UpgradeProgram Bool}
    (hnext : next () = .call (.perform phase) rest) :
    ∃ φ', Reachable env φ φ' ∧
      Idle φ' (afterCall ((UpgradeCall.report hostId upgradeId status).program env) db) ∧
      φ'.agent hostId = rest none := by
  obtain ⟨φ', hserved, hidle, hagent'⟩ := exists_served env φ.central
    ((UpgradeCall.report hostId upgradeId status).program env)
    (Function.update φ.agent hostId (next ()))
  have hperforms : φ'.agent hostId = .call (.perform phase) rest := by
    rw [hagent', Function.update_self, hnext]
  rw [h.db] at hidle
  refine ⟨{ φ' with agent := Function.update φ'.agent hostId (rest none) }, ?_, ⟨hidle.db,
    hidle.finished⟩, Function.update_self _ _ _⟩
  exact .head (.report () h.finished hagent _ _) (.tail hserved (.perform hperforms none))

/-- The upgrade the sample requests open. -/
def sampleUpgradeId : Uuid := ⟨101⟩

/-- What the agent of the sample host reports about a phase. -/
def sampleReport (state : String) : Service Unit :=
  (UpgradeCall.report sampleHost.id sampleUpgradeId ⟨state, none, none⟩).program sampleEnvironment

/-- The registry once the agent has reported that it restarts. -/
def restartingDb : Db :=
  let created := afterCall
    ((UpgradeCall.create sampleHost.id sampleUpgrade).program sampleEnvironment) sampleDb
  afterCall (sampleReport "RESTARTING") <| afterCall (sampleReport "INSTALLING") <|
    afterCall (sampleReport "VERIFYING") <| afterCall (sampleReport "DOWNLOADING") created

/-- A run in which the sample host's agent reports all phases of its upgrade and restarts. -/
theorem restarted_reachable :
    ∃ φ : State Unit, Reachable sampleEnvironment (State.start sampleDb fun _ => sampleDraws 0) φ ∧
      Idle φ restartingDb ∧ φ.agent sampleHost.id = .ret true := by
  have hstart : Idle (State.start (ι := Unit) sampleDb fun _ => sampleDraws 0) sampleDb :=
    ⟨rfl, trivial⟩
  obtain ⟨φ₁, hcreated, hidle₁, hagent₁⟩ := exists_requested sampleEnvironment hstart
    (.create sampleHost.id sampleUpgrade)
  have hresting : φ₁.agent sampleHost.id = .ret false := by rw [hagent₁]; rfl
  obtain ⟨φ₂, hbegun, hidle₂, hagent₂⟩ := exists_begun sampleEnvironment hidle₁ hresting
    sampleUpgradeId rfl
  obtain ⟨φ₃, hdownloading, hidle₃, hagent₃⟩ := exists_reported sampleEnvironment hidle₂
    hagent₂ rfl
  obtain ⟨φ₄, hverifying, hidle₄, hagent₄⟩ := exists_reported sampleEnvironment hidle₃
    hagent₃ rfl
  obtain ⟨φ₅, hinstalling, hidle₅, hagent₅⟩ := exists_reported sampleEnvironment hidle₄
    hagent₄ rfl
  obtain ⟨φ₆, hrestarting, hidle₆, hagent₆⟩ := exists_reported sampleEnvironment hidle₅
    hagent₅ rfl
  refine ⟨φ₆, ?_, hidle₆, hagent₆⟩
  exact hcreated.trans <| hbegun.trans <| hdownloading.trans <| hverifying.trans <|
    hinstalling.trans hrestarting

theorem restartingDb_upgrades :
    restartingDb.upgrades.map (fun row => (row.id, row.hostId, row.state, row.targetVersion)) =
      [(sampleUpgradeId, sampleHost.id, .restarting, "2.0")] := rfl

/-- The heartbeat of the restarted agent, which runs the version the upgrade is for. -/
def sampleHeartbeat : HeartbeatIn where
  report :=
    { hostname := "web-1"
      operatingSystem := "Linux"
      osVersion := none
      architecture := none
      agentVersion := some "2.0"
      dockerAvailable := false
      protocolVersion := none
      contractVersion := none
      pythonVersion := none }
  timestamp := ⟨1000000, true⟩

/-- The theorem on the run of the sample host. -/
theorem upgrade_neverSucceeds_sample :
    ∃ row ∈ restartingDb.upgrades, row.state = .restarting ∧
      ∃ later, later = ((heartbeatEndpoint sampleEnvironment row.hostId sampleHeartbeat).exec store
          (Session.start (sampleDraws 100) fun _ => none) restartingDb).db ∧
        row ∈ later.upgrades := by
  obtain ⟨φ, hreach, hidle, -⟩ := restarted_reachable
  have hnone : ∀ row ∈ sampleDb.upgrades, row.state ≠ .succeeded := by simp [sampleDb]
  obtain ⟨-, hlater⟩ := upgrade_neverSucceeds hnone hreach
  rw [hidle.db] at hlater
  obtain ⟨row, hrow, hfields⟩ : ∃ row ∈ restartingDb.upgrades,
      (row.id, row.hostId, row.state, row.targetVersion) =
        (sampleUpgradeId, sampleHost.id, .restarting, "2.0") := by
    rw [← List.mem_map, restartingDb_upgrades]
    exact List.mem_singleton.mpr rfl
  simp only [Prod.mk.injEq] at hfields
  obtain ⟨-, -, hstate, htarget⟩ := hfields
  obtain ⟨later, hexec, hkept, -⟩ := hlater row hrow hstate sampleHeartbeat (sampleDraws 100)
    (fun _ => none) (by rw [htarget]; rfl)
  exact ⟨row, hrow, hstate, later, hexec, hkept⟩

/-- The registry after that heartbeat. -/
def restartedDb : Db :=
  afterCall ((heartbeatEndpoint sampleEnvironment sampleHost.id sampleHeartbeat).bind fun _ =>
    .ret ()) restartingDb

/-- The agent reports every phase and restarts, its heartbeat with the version of the upgrade
is handled, and the upgrade is still restarting; the next request is refused for it. -/
theorem restarted_upgradeNotSucceeded :
    ∃ φ φ' : State Unit,
      Reachable sampleEnvironment (State.start sampleDb fun _ => sampleDraws 0) φ ∧
      Idle φ restartingDb ∧ φ.agent sampleHost.id = .ret true ∧
      Reachable sampleEnvironment φ φ' ∧ Idle φ' restartedDb ∧
      restartedDb.hosts.map (fun host => (host.id, host.agentVersion)) =
        [(sampleHost.id, some "2.0")] ∧
      restartedDb.upgrades.map (fun row => (row.id, row.hostId, row.state, row.targetVersion)) =
        [(sampleUpgradeId, sampleHost.id, .restarting, "2.0")] ∧
      ((createUpgradeEndpoint sampleEnvironment sampleHost.id sampleUpgrade).exec store
        (Session.start (sampleDraws 200) fun _ => none) restartedDb).result =
          .error (.upgrade (.pendingUpgrade .restarting)) := by
  obtain ⟨φ, hreach, hidle, hagent⟩ := restarted_reachable
  obtain ⟨φ', hbeat, hidle', -⟩ := exists_requested sampleEnvironment hidle
    (.heartbeat sampleHost.id sampleHeartbeat)
  exact ⟨φ, φ', hreach, hidle, hagent, hbeat, hidle', rfl, rfl, rfl⟩

end Fleet
