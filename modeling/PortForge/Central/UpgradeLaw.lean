/-
# The law of upgrades

What each call on the upgrades commits when it runs alone, what that does to every row,
and what holds along every sequence of calls: the place in the agent's order only grows,
a terminal state stays, but for the rollback of a success, `completed_at` is set exactly
in the terminal states, a success is reported with the target version, and an agent's
report changes the upgrades of its own host only.
-/

import PortForge.Central.Lifecycle
import PortForge.Central.SingleCall

namespace Central

open Transaction

/-- A call on the upgrades. -/
inductive UpgradeCall
  | create (hostId : Uuid) (request : UpgradeIn)
  | report (hostId upgradeId : Uuid) (status : UpgradeStatusIn)
  | rollback (upgradeId : Uuid)
  | decommission (hostId : Uuid) (reason : Option String)

/-- What a call runs; its answer plays no part here. -/
def UpgradeCall.program (env : Environment) : UpgradeCall → Service Unit
  | create hostId request => (createUpgradeEndpoint env hostId request).bind fun _ => .ret ()
  | report hostId upgradeId status =>
      (reportUpgradeStatus hostId upgradeId status).bind fun _ => .ret ()
  | rollback upgradeId => (rollbackUpgradeEndpoint env upgradeId).bind fun _ => .ret ()
  | decommission hostId reason => (decommissionHostEndpoint hostId reason).bind fun _ => .ret ()

/-! ## What a call commits -/

/-- The write leaves the upgrades alone. -/
def Write.SparesUpgrades : Write → Prop
  | .insertUpgrade _ => False
  | .updateUpgrade _ _ => False
  | .failUpgrade _ _ _ => False
  | .purgeHost .upgrades _ => False
  | _ => True

/-- The write fails open upgrades at most. -/
def Write.OnlyFailsUpgrades : Write → Prop
  | .insertUpgrade _ => False
  | .updateUpgrade _ _ => False
  | .purgeHost .upgrades _ => False
  | _ => True

theorem Write.IsRetiring.onlyFailsUpgrades {hostId : Uuid} {write : Write}
    (h : write.IsRetiring hostId) : write.OnlyFailsUpgrades := by
  cases write <;> first | exact h.elim | trivial

/-- A row as an upgrade starts: open and not completed. -/
structure HostUpgrade.IsNew (row : HostUpgrade) (hostId : Uuid) : Prop where
  host : row.hostId = hostId
  state : row.state = .approved ∨ row.state = .waitingForAgent
  completedAt : row.completedAt = none

theorem initialUpgradeState_cases (env : Environment) (host : Host) (now : ℤ) :
    initialUpgradeState env host now = .approved ∨
      initialUpgradeState env host now = .waitingForAgent := by
  rw [initialUpgradeState]
  split
  · exact .inr rfl
  · exact .inl rfl

/-- The writes that mark a rolled back upgrade. -/
def rollbackMarks (original : HostUpgrade) (now : ℤ) : List Write :=
  if original.state.terminal = false ∨ original.state = .succeeded then
    [.updateUpgrade original.id
      { state := .rolledBack
        completedAt := if original.completedAt = none then some now else none }]
  else []

/-- What a call that runs alone on `db` commits. -/
inductive Changes (db : Db) : UpgradeCall → List Write → Prop
  | nothing (call : UpgradeCall) : Changes db call []
  | created (hostId : Uuid) (request : UpgradeIn) (row : HostUpgrade) (hnew : row.IsNew hostId)
      (haccepted : store.refuses db (.insertUpgrade row) = none) :
      Changes db (.create hostId request) [.insertUpgrade row]
  | reported (hostId upgradeId : Uuid) (status : UpgradeStatusIn) (upgrade : HostUpgrade)
      (newState : UpgradeState) (now : ℤ) (others : List Write)
      (hget : db.getUpgrade upgradeId = some upgrade)
      (hstate : reportedState hostId upgrade status = .ok newState)
      (hothers : ∀ write ∈ others, write.SparesUpgrades) :
      Changes db (.report hostId upgradeId status)
        (.updateUpgrade upgradeId (statusChange upgrade newState status.failureReason
            now) :: others)
  | rolledBack (upgradeId : Uuid) (original row : HostUpgrade) (now : ℤ)
      (hget : db.getUpgrade upgradeId = some original) (hnew : row.IsNew original.hostId)
      (haccepted : store.refuses db (.insertUpgrade row) = none) :
      Changes db (.rollback upgradeId) (.insertUpgrade row :: rollbackMarks original now)
  | decommissioned (hostId : Uuid) (reason : Option String) (writes : List Write)
      (hwrites : ∀ write ∈ writes, write.OnlyFailsUpgrades) :
      Changes db (.decommission hostId reason) writes

section Rules

variable {rely : ServiceSession → Db → Prop} {guar : ServiceSession → Prop} {s : ServiceSession}

/-- A service has committed nothing, and where it returns its batch is of one kind. -/
def Stages {α : Type} (kind : List Write → Prop) (s' : ServiceSession)
    (result : Except Failure α) : Prop :=
  s'.committedWrites = [] ∧ ∀ value, result = .ok value → kind s'.batch

/-- A service that stages one kind of batch commits that or nothing, when it is committed
and the call then only observes. -/
theorem Stages.ensures_commit {α β : Type} {kind : List Write → Prop} {p : Service α}
    {f : α → Service β} (hp : p.Ensures store rely guar s fun s' result => Stages kind s' result)
    (hguar : ∀ s, guar s) (hf : ∀ value, (f value).Observes) :
    ((p.bind fun value => commit.bind fun _ => f value).bind fun _ => .ret ()).Ensures store rely
      guar s fun s' _ => s'.committedWrites = [] ∨ kind s'.committedWrites := by
  rw [Program.bind_assoc]
  refine Program.Ensures.bind hp ?_ fun s' error hstages => .inl hstages.1
  rintro s' value ⟨hcommitted, hkind⟩
  rw [Program.bind_assoc, Program.ensures_bind, Central.ensures_commit]
  refine ⟨hguar _, fun db _ _ => ?_, fun db error _ _ => ?_⟩
  · have hends : ((f value).bind fun _ => .ret ()).Observes := (hf value).bind fun _ => trivial
    refine hends.ensures.mono ?_
    rintro _ _ ⟨draws, rfl⟩
    refine .inr ?_
    change kind s'.afterCommit.committedWrites
    rw [Session.committedWrites_afterCommit, hcommitted]
    exact hkind value rfl
  · refine .inl ?_
    rw [Session.committedWrites_afterFailure, hcommitted]

theorem observes_refreshUpgrade (upgradeId : Uuid) : (refreshUpgrade upgradeId).Observes := by
  refine observes_select.bind fun row => ?_
  cases row <;> trivial

theorem isNew_requestedUpgrade (env : Environment) (host : Host) (request : UpgradeIn) (id : Uuid)
    (now createdAt : ℤ) : (requestedUpgrade env host request id now createdAt).IsNew host.id :=
  ⟨rfl, initialUpgradeState_cases env host now, rfl⟩

theorem isNew_rollbackRow (env : Environment) (original : HostUpgrade) (host : Host)
    (previousVersion previousUrl previousSha256 : String) (id : Uuid) (now createdAt : ℤ) :
    (rollbackRow env original host previousVersion previousUrl previousSha256 id now
      createdAt).IsNew original.hostId :=
  ⟨rfl, initialUpgradeState_cases env host now, rfl⟩

/-- The insertion of a new upgrade: on success its row is the batch, accepted on contents
the call met. -/
theorem ensures_openUpgrade (env : Environment) (host : Host) (request : UpgradeIn)
    (hbatch : s.batch = []) :
    (openUpgrade env host request).Ensures store rely guar s fun s' result =>
      s'.committedWrites = s.committedWrites ∧ ∀ value, result = .ok value →
        ∃ row : HostUpgrade, row.IsNew host.id ∧ s'.batch = [.insertUpgrade row] ∧
          ∃ s₁ db, rely s₁ db ∧ s₁.committedWrites = s.committedWrites ∧
            store.refuses db (.insertUpgrade row) = none := by
  obtain ⟨hflushed, hpending⟩ := List.append_eq_nil_iff.mp hbatch
  simp only [openUpgrade, Program.bind_eq, Program.ensures_bind, ensures_clock, ensures_newUuid,
    ensures_serverNow, ensures_add]
  generalize hrow : requestedUpgrade env host request _ _ _ = row
  have hnew : row.IsNew host.id := hrow ▸ isNew_requestedUpgrade env host request _ _ _
  generalize hs₁ : s.afterDraw.afterDraw.afterDraw = s₁
  have hpending₁ : s₁.pending = [] := by simp [← hs₁, hpending]
  have hflushed₁ : s₁.flushed = [] := by simp [← hs₁, hflushed]
  have hcommitted₁ : s₁.committedWrites = s.committedWrites := by simp [← hs₁]
  rw [ensures_flush]
  refine ⟨fun db hdb haccepted => ?_, fun db error _ _ => ?_⟩
  · refine ⟨hcommitted₁, fun value _ => ⟨row, hnew, ?_, _, db, hdb, hcommitted₁, ?_⟩⟩
    · rw [Session.afterFlush_batch, Session.afterAdd_batch, Session.batch, hflushed₁, hpending₁]
      rfl
    · have hall := Session.refusesAll_of_flushError haccepted
      simp only [Session.afterAdd_pending, hpending₁, List.nil_append, Session.view,
        Session.afterAdd_flushed, hflushed₁, Store.applyAll_nil, Store.refusesAll_cons_eq_none]
        at hall
      exact hall.1
  · refine ⟨?_, fun value herror => by cases herror⟩
    rw [Session.committedWrites_afterFailure]
    exact hcommitted₁

/-- The marks of a rollback are staged behind what the session has. -/
theorem ensures_markRolledBack (original : HostUpgrade) (now : ℤ)
    {post : ServiceSession → Except Failure Unit → Prop} :
    (markRolledBack original now).Ensures store rely guar s post ↔
      post { s with pending := s.pending ++ rollbackMarks original now } (.ok ()) := by
  rw [markRolledBack, rollbackMarks]
  split
  · rfl
  · simp only [List.append_nil, Program.pure_eq_ret, Program.ensures_ret]

theorem ensures_openRollback (env : Environment) (original : HostUpgrade) (host : Host)
    (previousVersion previousUrl previousSha256 : String) (hbatch : s.batch = []) :
    (openRollback env original host previousVersion previousUrl previousSha256).Ensures store rely
      guar s fun s' result =>
        s'.committedWrites = s.committedWrites ∧ ∀ value, result = .ok value →
          ∃ (row : HostUpgrade) (now : ℤ), row.IsNew original.hostId ∧
            s'.batch = .insertUpgrade row :: rollbackMarks original now ∧
            ∃ s₁ db, rely s₁ db ∧ s₁.committedWrites = s.committedWrites ∧
              store.refuses db (.insertUpgrade row) = none := by
  obtain ⟨hflushed, hpending⟩ := List.append_eq_nil_iff.mp hbatch
  simp only [openRollback, Program.bind_eq, Program.ensures_bind, ensures_clock, ensures_newUuid,
    ensures_serverNow, ensures_add, ensures_markRolledBack]
  generalize hrow :
    rollbackRow env original host previousVersion previousUrl previousSha256 _ _ _ = row
  have hnew : row.IsNew original.hostId := by
    rw [← hrow]
    exact isNew_rollbackRow env original host _ _ _ _ _ _
  generalize hs₁ : s.afterDraw.afterDraw.afterDraw = s₁
  have hpending₁ : s₁.pending = [] := by simp [← hs₁, hpending]
  have hflushed₁ : s₁.flushed = [] := by simp [← hs₁, hflushed]
  have hcommitted₁ : s₁.committedWrites = s.committedWrites := by simp [← hs₁]
  generalize hs₂ : ({ s₁.afterAdd (.insertUpgrade row) with
    pending := (s₁.afterAdd (.insertUpgrade row)).pending ++
      rollbackMarks original (s.draws 0).now } : ServiceSession) = s₂
  have hpending₂ : s₂.pending = .insertUpgrade row :: rollbackMarks original (s.draws 0).now := by
    simp [← hs₂, hpending₁]
  have hflushed₂ : s₂.flushed = [] := by
    rw [← hs₂]
    exact hflushed₁
  have hcommitted₂ : s₂.committedWrites = s.committedWrites := by
    rw [← hs₂]
    exact hcommitted₁
  rw [ensures_flush]
  refine ⟨fun db hdb haccepted => ?_, fun db error _ _ => ?_⟩
  · refine ⟨hcommitted₂, fun value _ =>
      ⟨row, (s.draws 0).now, hnew, ?_, s₂, db, hdb, hcommitted₂, ?_⟩⟩
    · rw [Session.afterFlush_batch, Session.batch, hflushed₂, hpending₂]
      rfl
    · have hall := Session.refusesAll_of_flushError haccepted
      rw [hpending₂, Session.view_of_flushed_nil store hflushed₂,
        Store.refusesAll_cons_eq_none] at hall
      exact hall.1
  · refine ⟨?_, fun value herror => by cases herror⟩
    rw [Session.committedWrites_afterFailure]
    exact hcommitted₂

end Rules

/-! ## What a call can write -/

theorem observes_findRequested (hostId : Uuid) (requestId : Option String) :
    (findRequested hostId requestId).Observes := by
  rw [findRequested]
  split
  · trivial
  · exact observes_select

theorem observes_refuseDowngrade (env : Environment) (host : Host) (targetVersion : String) :
    (refuseDowngrade env host targetVersion).Observes := by
  rw [refuseDowngrade]
  split
  · trivial
  · split <;> trivial

theorem observes_checkArtifact (settings : Settings) (request : UpgradeIn) :
    (checkArtifact settings request).Observes := by
  rw [checkArtifact]
  split
  · split <;> trivial
  · trivial

section Adds

variable {P : Write → Prop}

theorem adds_settleUpgrade {α : Type} (upgrade : HostUpgrade) {value : α} :
    ((settleUpgrade upgrade).bind fun _ => (.ret value : Service α)).Adds P := by
  refine Program.Adds.bind ?_ fun _ => trivial
  exact adds_commit.bind fun _ => (observes_refreshUpgrade upgrade.id).adds

theorem adds_openUpgrade (env : Environment) (host : Host) (request : UpgradeIn)
    (hinsert : ∀ row : HostUpgrade, row.IsNew host.id → P (.insertUpgrade row)) :
    (openUpgrade env host request).Adds P := by
  intro now id createdAt
  refine ⟨hinsert _ (isNew_requestedUpgrade env host request _ _ _), ?_⟩
  exact Program.Adds.bind trivial fun _ => Program.Adds.bind adds_flush fun _ => trivial

/-- A request for an upgrade inserts a new upgrade of its host. -/
theorem adds_createUpgrade (env : Environment) (hostId : Uuid) (request : UpgradeIn)
    (hinsert : ∀ row : HostUpgrade, row.IsNew hostId → P (.insertUpgrade row)) :
    (createUpgrade env hostId request).Adds P := by
  rw [createUpgrade]
  intro db
  simp only [Program.bind_eq, Program.bind]
  cases hget : db.getHost hostId with
  | none => trivial
  | some host =>
      obtain rfl : host.id = hostId := by simpa using List.find?_some hget
      simp only
      split
      · trivial
      · refine (observes_findRequested host.id request.requestId).adds.bind fun existing => ?_
        cases existing with
        | some upgrade => trivial
        | none =>
            refine (observes_refuseDowngrade env host request.targetVersion).adds.bind fun _ => ?_
            refine (observes_checkArtifact env.settings request).adds.bind fun _ => ?_
            refine Program.Adds.bind observes_select.adds fun pending => ?_
            cases pending with
            | some upgrade => trivial
            | none => exact adds_openUpgrade env host request hinsert

theorem adds_openRollback (env : Environment) (original : HostUpgrade) (host : Host)
    (previousVersion previousUrl previousSha256 : String)
    (hinsert : ∀ row : HostUpgrade, row.IsNew original.hostId → P (.insertUpgrade row))
    (hmark : ∀ change : UpgradeChange, change.state = .rolledBack →
      P (.updateUpgrade original.id change)) :
    (openRollback env original host previousVersion previousUrl previousSha256).Adds P := by
  intro now id createdAt
  refine ⟨hinsert _ (isNew_rollbackRow env original host _ _ _ _ _ _), ?_⟩
  refine Program.Adds.bind trivial fun _ => ?_
  refine Program.Adds.bind ?_ fun _ => Program.Adds.bind adds_flush fun _ => trivial
  rw [markRolledBack]
  split
  · exact ⟨hmark _ rfl, trivial⟩
  · trivial

/-- A rollback inserts a new upgrade of its upgrade's host and marks its upgrade. -/
theorem adds_rollbackOriginal (env : Environment) (original : HostUpgrade)
    (hinsert : ∀ row : HostUpgrade, row.IsNew original.hostId → P (.insertUpgrade row))
    (hmark : ∀ change : UpgradeChange, change.state = .rolledBack →
      P (.updateUpgrade original.id change)) :
    (rollbackOriginal env original).Adds P := by
  have hopen := fun host version url sha256 =>
    adds_openRollback env original host version url sha256 hinsert hmark
  rw [rollbackOriginal]
  split
  · trivial
  · refine Program.Adds.bind observes_select.adds fun host => ?_
    cases host with
    | none => trivial
    | some host =>
        simp only
        split
        · trivial
        · refine Program.Adds.bind observes_select.adds fun pending => ?_
          cases pending with
          | none => exact hopen host _ _ _
          | some pending =>
              simp only
              split
              · trivial
              · exact hopen host _ _ _
  · trivial

/-- An accepted report updates its upgrade, and shows its end on the host. -/
theorem adds_recordStatus (hostId : Uuid) (upgrade : HostUpgrade) (newState : UpgradeState)
    (failureReason : Option String)
    (hupdate : ∀ change : UpgradeChange, change.state = newState →
      P (.updateUpgrade upgrade.id change))
    (hsurface : ∀ text, P (.setHostError hostId text)) :
    (recordStatus hostId upgrade newState failureReason).Adds P := by
  have houtcome : (surfaceOutcome hostId newState failureReason).Adds P := by
    rw [surfaceOutcome]
    split
    · refine Program.Adds.bind observes_select.adds fun host => ?_
      cases host with
      | none => trivial
      | some host => exact ⟨hsurface _, trivial⟩
    · trivial
  refine fun now => ⟨hupdate _ rfl, Program.Adds.bind trivial fun _ => ?_⟩
  exact Program.Adds.bind houtcome fun _ => Program.Adds.bind adds_flush fun _ => trivial

/-- A report adds nothing unless the table of the transitions accepts it. -/
theorem adds_updateUpgradeStatus (hostId upgradeId : Uuid) (status : UpgradeStatusIn)
    (hupdate : ∀ upgrade newState, reportedState hostId upgrade status = .ok newState →
      ∀ change : UpgradeChange, change.state = newState → P (.updateUpgrade upgrade.id change))
    (hsurface : ∀ text, P (.setHostError hostId text)) :
    (updateUpgradeStatus hostId upgradeId status).Adds P := by
  apply Program.Adds.bind observes_select.adds
  intro row
  cases row with
  | none => trivial
  | some upgrade =>
      cases hstate : reportedState hostId upgrade status with
      | error error =>
          simp only [hstate]
          trivial
      | ok newState =>
          simp only [hstate]
          exact adds_recordStatus hostId upgrade newState _ (hupdate upgrade newState hstate)
            hsurface

theorem adds_decommission (env : Environment) (hostId : Uuid) (reason : Option String)
    (hretiring : ∀ write : Write, write.IsRetiring hostId → P write) :
    ((UpgradeCall.decommission hostId reason).program env).Adds P := by
  refine Program.Adds.bind ?_ fun _ => trivial
  refine Program.Adds.bind ((staging_decommissionHost hostId reason).adds.mono hretiring) fun _ =>
      ?_
  exact Program.Adds.bind adds_commit fun _ => (observes_refreshHost hostId).adds

/-- No call on an upgrade removes what Central knows of a host. -/
theorem adds_upgradeCall (env : Environment) (call : UpgradeCall) :
    (call.program env).Adds fun write => ¬ write.Purges := by
  cases call with
  | create hostId request =>
      rw [UpgradeCall.program, createUpgradeEndpoint, Program.bind_eq, Program.bind_assoc]
      refine Program.Adds.bind ?_ fun row => adds_settleUpgrade row
      exact adds_createUpgrade env hostId request fun _ _ => id
  | report hostId upgradeId status =>
      rw [UpgradeCall.program, reportUpgradeStatus, Program.bind_eq, Program.bind_assoc]
      refine Program.Adds.bind ?_ fun row => adds_settleUpgrade row
      exact adds_updateUpgradeStatus hostId upgradeId status (fun _ _ _ _ _ => id) fun _ => id
  | rollback upgradeId =>
      rw [UpgradeCall.program, rollbackUpgradeEndpoint, Program.bind_eq, Program.bind_assoc]
      refine Program.Adds.bind ?_ fun row => adds_settleUpgrade row
      refine Program.Adds.bind observes_select.adds fun row => ?_
      cases row with
      | none => trivial
      | some original => exact adds_rollbackOriginal env original (fun _ _ => id) fun _ _ => id
  | decommission hostId reason =>
      refine adds_decommission env hostId reason fun write hwrite => ?_
      cases write <;> first | exact hwrite.elim | exact id

end Adds

/-! ## The calls, run alone -/

section Exec

variable {db : Db} {s : ServiceSession} {draws : ℕ → Draw} {faults : ℕ → Option DbError}

@[simp]
theorem exec_select {α : Type} (q : Db → α) (s : ServiceSession) (db : Db) :
    (select q).exec store s db = ⟨.ok (q (s.view store db)), s, db⟩ := rfl

@[simp]
theorem exec_add (write : Write) (s : ServiceSession) (db : Db) :
    (add write).exec store s db = ⟨.ok (), s.afterAdd write, db⟩ := rfl

theorem exec_flush_of_none (h : s.flushError store db = none) :
    flush.exec store s db = ⟨.ok (), s.afterFlush, db⟩ := by
  simp only [flush, Program.exec, h]

theorem exec_flush_of_some {error : DbError} (h : s.flushError store db = some error) :
    flush.exec store s db = ⟨.error (.db error), s.afterFailure error, db⟩ := by
  simp only [flush, Program.exec, h]

theorem exec_commit_of_none (h : s.flushError store db = none) :
    commit.exec store s db = ⟨.ok (), s.afterCommit, store.applyAll s.batch db⟩ := by
  simp only [commit, Program.exec, h]

theorem view_start : (Session.start draws faults : ServiceSession).view store db = db := rfl

end Exec

/-- A session that has staged and committed nothing. -/
structure Blank (s : ServiceSession) : Prop where
  batch : s.batch = []
  committed : s.committedWrites = []

theorem blank_start (draws : ℕ → Draw) (faults : ℕ → Option DbError) :
    Blank (Session.start draws faults) := ⟨rfl, rfl⟩

namespace Blank

variable {guar : ServiceSession → Prop} {s : ServiceSession} {db : Db}

/-- An observer leaves a session fresh. -/
theorem observe {α : Type} {rely : ServiceSession → Db → Prop} (h : Blank s) {p : Service α}
    (hp : p.Observes) : p.Ensures store rely guar s fun s' _ => Blank s' := by
  refine hp.ensures.mono ?_
  rintro _ _ ⟨draws, rfl⟩
  exact ⟨h.batch, h.committed⟩

/-- Alone, a fresh session sees the contents its call started on. -/
theorem view_eq (h : Blank s) {seen : Db} (hseen : Program.alone store db s seen) :
    s.view store seen = db := by
  have hflushed : s.flushed = [] := (List.append_eq_nil_iff.mp h.batch).1
  rw [Session.view_of_flushed_nil store hflushed, hseen, h.committed, Store.applyAll_nil]

theorem stages_error {α : Type} (h : Blank s) {kind : List Write → Prop} {failure : Failure} :
    Stages kind s (.error failure : Except Failure α) :=
  ⟨h.committed, fun _ hvalue => by cases hvalue⟩

theorem stages_nothing {α : Type} (h : Blank s) {call : UpgradeCall} {value : α} :
    Stages (Changes db call) s (.ok value : Except Failure α) :=
  ⟨h.committed, fun _ _ => h.batch ▸ .nothing call⟩

end Blank

section Alone

variable {guar : ServiceSession → Prop} {s : ServiceSession} {db : Db}

theorem stages_openUnlessPending (env : Environment) {host : Host} {hostId : Uuid}
    (hhost : host.id = hostId) (request : UpgradeIn) (hs : Blank s) :
    (openUnlessPending env host request).Ensures store (Program.alone store db) guar s
      (Stages (Changes db (.create hostId request))) := by
  simp only [openUnlessPending, Program.bind_eq, Program.ensures_bind, ensures_select]
  intro seen hseen
  rw [hs.view_eq hseen]
  cases db.getNonTerminalForHost host.id with
  | some upgrade => exact hs.stages_error
  | none =>
      refine (ensures_openUpgrade env host request hs.batch).mono ?_
      rintro s' result ⟨hcommitted, hopened⟩
      refine ⟨hcommitted.trans hs.committed, fun value hvalue => ?_⟩
      obtain ⟨row, hnew, hbatch, s₁, met, hmet, hcommitted₁, haccepted⟩ := hopened value hvalue
      rw [Program.alone, hcommitted₁, hs.committed, Store.applyAll_nil] at hmet
      rw [hbatch]
      exact .created hostId request row (hhost ▸ hnew) (hmet ▸ haccepted)

theorem stages_createUpgrade (env : Environment) (hostId : Uuid) (request : UpgradeIn)
    (hs : Blank s) :
    (createUpgrade env hostId request).Ensures store (Program.alone store db) guar s
      (Stages (Changes db (.create hostId request))) := by
  simp only [createUpgrade, Program.bind_eq, Program.ensures_bind, ensures_select]
  intro seen hseen
  rw [hs.view_eq hseen]
  cases hget : db.getHost hostId with
  | none => exact hs.stages_error
  | some host =>
      have hhost : host.id = hostId := by simpa using List.find?_some hget
      simp only
      split
      · exact hs.stages_error
      · refine Program.Ensures.bind (hs.observe (observes_findRequested hostId _)) ?_ ?_
        · intro s₁ existing hs₁
          cases existing with
          | some upgrade => exact hs₁.stages_nothing
          | none =>
              have hdowngrade := observes_refuseDowngrade env host request.targetVersion
              refine Program.Ensures.bind (hs₁.observe hdowngrade) ?_ fun _ _ hs₂ =>
                  hs₂.stages_error
              intro s₂ _ hs₂
              have hartifact := observes_checkArtifact env.settings request
              refine Program.Ensures.bind (hs₂.observe hartifact) ?_ fun _ _ hs₃ => hs₃.stages_error
              intro s₃ _ hs₃
              exact stages_openUnlessPending env hhost request hs₃
        · exact fun _ _ hs₁ => hs₁.stages_error

theorem stages_rollbackUnlessPending (env : Environment) {upgradeId : Uuid}
    {original : HostUpgrade} (hget : db.getUpgrade upgradeId = some original) (host : Host)
    (previousVersion previousUrl previousSha256 : String) (hs : Blank s) :
    (rollbackUnlessPending env original host previousVersion previousUrl previousSha256).Ensures
      store (Program.alone store db) guar s (Stages (Changes db (.rollback upgradeId))) := by
  have hopen : (openRollback env original host previousVersion previousUrl previousSha256).Ensures
      store (Program.alone store db) guar s (Stages (Changes db (.rollback upgradeId))) := by
    refine (ensures_openRollback env original host _ _ _ hs.batch).mono ?_
    rintro s' result ⟨hcommitted, hopened⟩
    refine ⟨hcommitted.trans hs.committed, fun value hvalue => ?_⟩
    obtain ⟨row, now, hnew, hbatch, s₁, met, hmet, hcommitted₁, haccepted⟩ := hopened value hvalue
    rw [Program.alone, hcommitted₁, hs.committed, Store.applyAll_nil] at hmet
    rw [hbatch]
    exact .rolledBack upgradeId original row now hget hnew (hmet ▸ haccepted)
  simp only [rollbackUnlessPending, Program.bind_eq, Program.ensures_bind, ensures_select]
  intro seen _
  cases (s.view store seen).getNonTerminalForHost original.hostId with
  | none => exact hopen
  | some upgrade =>
      simp only
      split
      · exact hs.stages_error
      · exact hopen

theorem stages_rollbackUpgrade (env : Environment) (upgradeId : Uuid) (hs : Blank s) :
    (rollbackUpgrade env upgradeId).Ensures store (Program.alone store db) guar s
      (Stages (Changes db (.rollback upgradeId))) := by
  simp only [rollbackUpgrade, Program.bind_eq, Program.ensures_bind, ensures_select]
  intro seen hseen
  rw [hs.view_eq hseen]
  cases hget : db.getUpgrade upgradeId with
  | none => exact hs.stages_error
  | some original =>
      simp only [rollbackOriginal]
      split
      · exact hs.stages_error
      · simp only [rollbackOnHost, Program.bind_eq, Program.ensures_bind, ensures_select]
        intro seen' _
        cases (s.view store seen').getHost original.hostId with
        | none => exact hs.stages_error
        | some host =>
            simp only
            split
            · exact hs.stages_error
            · exact stages_rollbackUnlessPending env hget host _ _ _ hs
      · exact hs.stages_error

/-- Surfacing the outcome stages at most a write on the host. -/
theorem ensures_surfaceOutcome {rely : ServiceSession → Db → Prop} (hostId : Uuid)
    (newState : UpgradeState) (failureReason : Option String) :
    (surfaceOutcome hostId newState failureReason).Ensures store rely guar s fun s' result =>
      result = .ok () ∧ ∃ others : List Write, (∀ write ∈ others, write.SparesUpgrades) ∧
        s' = { s with pending := s.pending ++ others } := by
  have hnothing : ∃ others : List Write, (∀ write ∈ others, write.SparesUpgrades) ∧
      s = { s with pending := s.pending ++ others } := ⟨[], by simp, by simp⟩
  rw [surfaceOutcome]
  split
  · simp only [Program.bind_eq, Program.ensures_bind, ensures_select]
    intro db _
    cases (s.view store db).getHost hostId with
    | none => exact ⟨rfl, hnothing⟩
    | some host =>
        refine ⟨rfl, [_], ?_, rfl⟩
        intro write hwrite
        rw [List.mem_singleton.mp hwrite]
        trivial
  · exact ⟨rfl, hnothing⟩

/-- An accepted report stages its change, and at most a write on the host. -/
theorem ensures_recordStatus {rely : ServiceSession → Db → Prop} (hostId : Uuid)
    (upgrade : HostUpgrade) (newState : UpgradeState) (failureReason : Option String)
    (hbatch : s.batch = []) :
    (recordStatus hostId upgrade newState failureReason).Ensures store rely guar s fun s' result =>
      s'.committedWrites = s.committedWrites ∧ ∀ value, result = .ok value →
        ∃ (now : ℤ) (others : List Write), (∀ write ∈ others, write.SparesUpgrades) ∧
          s'.batch =
            .updateUpgrade upgrade.id (statusChange upgrade newState failureReason now) ::
                others := by
  simp only [recordStatus, Program.bind_eq, Program.ensures_bind, ensures_clock, ensures_add]
  generalize hs₁ : s.afterDraw.afterAdd
    (.updateUpgrade upgrade.id (statusChange upgrade newState failureReason (s.draws 0).now)) = s₁
  have hbatch₁ : s₁.batch = [.updateUpgrade upgrade.id
      (statusChange upgrade newState failureReason (s.draws 0).now)] := by
    rw [← hs₁, Session.afterAdd_batch, Session.afterDraw_batch, hbatch]
    rfl
  have hcommitted₁ : s₁.committedWrites = s.committedWrites := by
    rw [← hs₁]
    rfl
  refine (ensures_surfaceOutcome hostId newState failureReason).mono ?_
  rintro _ _ ⟨rfl, others, hothers, rfl⟩
  simp only [ensures_flush, Program.pure_eq_ret, Program.ensures_ret]
  refine ⟨fun _ _ _ => ⟨hcommitted₁, fun _ _ =>
    ⟨(s.draws 0).now, others, hothers, ?_⟩⟩, fun _ error _ _ => ?_⟩
  · rw [Session.afterFlush_batch]
    change s₁.flushed ++ (s₁.pending ++ others) = _
    rw [← List.append_assoc]
    change s₁.batch ++ others = _
    rw [hbatch₁]
    rfl
  · refine ⟨?_, fun _ herror => by cases herror⟩
    rw [Session.committedWrites_afterFailure]
    exact hcommitted₁

theorem stages_updateUpgradeStatus (hostId upgradeId : Uuid) (status : UpgradeStatusIn)
    (hs : Blank s) :
    (updateUpgradeStatus hostId upgradeId status).Ensures store (Program.alone store db) guar s
      (Stages (Changes db (.report hostId upgradeId status))) := by
  simp only [updateUpgradeStatus, Program.bind_eq, Program.ensures_bind, ensures_select]
  intro seen hseen
  rw [hs.view_eq hseen]
  cases hget : db.getUpgrade upgradeId with
  | none => exact hs.stages_error
  | some upgrade =>
      have hid : upgrade.id = upgradeId := by simpa using List.find?_some hget
      cases hstate : reportedState hostId upgrade status with
      | error error =>
          simp only [hstate]
          exact hs.stages_error
      | ok newState =>
          simp only [hstate]
          refine (ensures_recordStatus hostId upgrade newState _ hs.batch).mono ?_
          rintro s' result ⟨hcommitted, hstaged⟩
          refine ⟨hcommitted.trans hs.committed, fun value hvalue => ?_⟩
          obtain ⟨now, others, hothers, hbatch⟩ := hstaged value hvalue
          rw [hbatch, hid]
          exact .reported hostId upgradeId status upgrade newState now others hget hstate hothers

end Alone

/-- What a call that runs alone commits. -/
theorem ensures_program (env : Environment) (call : UpgradeCall) (db : Db) (draws : ℕ → Draw)
    (faults : ℕ → Option DbError) :
    (call.program env).Ensures store (Program.alone store db) (fun _ => True)
      (Session.start draws faults) fun s' _ => Changes db call s'.committedWrites := by
  have hfresh := blank_start draws faults
  have hdone : ∀ (s' : ServiceSession) (result : Except Failure Unit),
      s'.committedWrites = [] ∨ Changes db call s'.committedWrites →
        Changes db call s'.committedWrites := by
    rintro s' _ (hnothing | hchanges)
    · rw [hnothing]
      exact .nothing call
    · exact hchanges
  cases call with
  | create hostId request =>
      exact (Stages.ensures_commit (stages_createUpgrade env hostId request hfresh)
        (fun _ => trivial) fun value => observes_refreshUpgrade value.id).mono hdone
  | report hostId upgradeId status =>
      exact (Stages.ensures_commit (stages_updateUpgradeStatus hostId upgradeId status hfresh)
        (fun _ => trivial) fun value => observes_refreshUpgrade value.id).mono hdone
  | rollback upgradeId =>
      exact (Stages.ensures_commit (stages_rollbackUpgrade env upgradeId hfresh)
        (fun _ => trivial) fun value => observes_refreshUpgrade value.id).mono hdone
  | decommission hostId reason =>
      have hstaging := staging_decommissionHost hostId reason
      have hkind : (decommissionHost hostId reason).Ensures store (Program.alone store db)
          (fun _ => True) (Session.start draws faults)
          (Stages (Changes db (.decommission hostId reason))) := by
        have hadds : (decommissionHost hostId reason).Ensures store (Program.alone store db)
            (fun _ => True) (Session.start draws faults)
            fun s' _ => ∀ write ∈ s'.batch, write.IsRetiring hostId :=
          hstaging.adds.ensures (by simp [hfresh.batch])
        have hholding : (decommissionHost hostId reason).Ensures store (Program.alone store db)
            (fun _ => True) (Session.start draws faults)
            fun s' _ => s'.committedWrites = [] :=
          hstaging.holding.ensures.mono fun _ _ h => h.1
        refine (hholding.and hadds).mono ?_
        rintro s' result ⟨hcommitted, hwrites⟩
        refine ⟨hcommitted, fun _ _ => .decommissioned hostId reason _ fun write hwrite => ?_⟩
        exact (hwrites write hwrite).onlyFailsUpgrades
      exact (Stages.ensures_commit hkind (fun _ => trivial) fun _ =>
          observes_refreshHost hostId).mono
        hdone

/-! ## What the calls do to a row -/

/-- From one state to another the place in the agent's order does not decrease, and a
terminal state stays, but for the rollback of a success. -/
def UpgradeState.Advances (state later : UpgradeState) : Prop :=
  (state ∈ agentStatesOrder → later ∈ agentStatesOrder → state.order ≤ later.order) ∧
    (state.terminal = true → later = state ∨ state = .succeeded ∧ later = .rolledBack)

theorem mem_agentStatesOrder_iff {state : UpgradeState} :
    state ∈ agentStatesOrder ↔ state ≠ .failed ∧ state ≠ .rolledBack := by
  cases state <;> decide

theorem UpgradeState.Advances.refl (state : UpgradeState) : state.Advances state :=
  ⟨fun _ _ => le_rfl, fun _ => .inl rfl⟩

theorem UpgradeState.Advances.trans {first second third : UpgradeState}
    (h : first.Advances second) (h' : second.Advances third) : first.Advances third := by
  refine ⟨fun hfirst hthird => ?_, fun hterminal => ?_⟩
  · by_cases hsecond : second ∈ agentStatesOrder
    · exact (h.1 hfirst hsecond).trans (h'.1 hsecond hthird)
    · -- A terminal state outside the order is never left.
      have hout : second = .failed ∨ second = .rolledBack := by
        by_contra hnot
        exact hsecond (mem_agentStatesOrder_iff.mpr (not_or.mp hnot))
      obtain ⟨hfailed, hrolledBack⟩ := mem_agentStatesOrder_iff.mp hthird
      rcases hout with rfl | rfl
      · rcases h'.2 rfl with hsame | ⟨hsucceeded, -⟩
        · exact (hfailed hsame).elim
        · cases hsucceeded
      · rcases h'.2 rfl with hsame | ⟨hsucceeded, -⟩
        · exact (hrolledBack hsame).elim
        · cases hsucceeded
  · rcases h.2 hterminal with rfl | ⟨rfl, rfl⟩
    · exact h'.2 hterminal
    · rcases h'.2 rfl with rfl | ⟨hsucceeded, -⟩
      · exact .inr ⟨rfl, rfl⟩
      · cases hsucceeded

/-- `completed_at` is set exactly in the terminal states. -/
def HostUpgrade.Timed (row : HostUpgrade) : Prop :=
  row.completedAt.isSome = true ↔ row.state.terminal = true

/-- What a call may do to an upgrade on file. -/
structure UpgradeLaw (call : UpgradeCall) (row later : HostUpgrade) : Prop where
  id : later.id = row.id
  hostId : later.hostId = row.hostId
  targetVersion : later.targetVersion = row.targetVersion
  state : row.state.Advances later.state
  timed : row.Timed → later.Timed
  rolledBack : row.state = .succeeded → later.state ≠ .succeeded → call = .rollback row.id
  succeeded : later.state = .succeeded → row.state ≠ .succeeded →
    ∃ hostId status, call = .report hostId row.id status ∧
      status.reportedVersion = some row.targetVersion
  foreign : ∀ hostId upgradeId status, call = .report hostId upgradeId status →
    row.hostId ≠ hostId → later = row

theorem UpgradeLaw.trans {call : UpgradeCall} {first second third : HostUpgrade}
    (h : UpgradeLaw call first second) (h' : UpgradeLaw call second third) :
    UpgradeLaw call first third where
  id := h'.id.trans h.id
  hostId := h'.hostId.trans h.hostId
  targetVersion := h'.targetVersion.trans h.targetVersion
  state := h.state.trans h'.state
  timed htimed := h'.timed (h.timed htimed)
  rolledBack hsucceeded hnot := by
    by_cases hsecond : second.state = .succeeded
    · rw [h'.rolledBack hsecond hnot, h.id]
    · exact h.rolledBack hsucceeded hsecond
  succeeded hsucceeded hnot := by
    by_cases hsecond : second.state = .succeeded
    · exact h.succeeded hsecond hnot
    · rw [← h.id, ← h.targetVersion]
      exact h'.succeeded hsucceeded hsecond
  foreign hostId upgradeId status hcall hforeign := by
    have hsecond := h.foreign hostId upgradeId status hcall hforeign
    rw [← hsecond] at hforeign ⊢
    exact h'.foreign hostId upgradeId status hcall hforeign

theorem UpgradeLaw.refl (call : UpgradeCall) (row : HostUpgrade) : UpgradeLaw call row row where
  id := rfl
  hostId := rfl
  targetVersion := rfl
  state := .refl _
  timed h := h
  rolledBack hsucceeded hnot := (hnot hsucceeded).elim
  succeeded hsucceeded hnot := (hnot hsucceeded).elim
  foreign _ _ _ _ _ := rfl

/-- What an accepted report has been checked for. -/
theorem of_reportedState {hostId : Uuid} {upgrade : HostUpgrade} {status : UpgradeStatusIn}
    {newState : UpgradeState} (h : reportedState hostId upgrade status = .ok newState) :
    upgrade.hostId = hostId ∧ upgrade.state.terminal = false ∧ newState ∈ agentSettable ∧
      (newState = .failed ∨ upgrade.state.order < newState.order) ∧
      (newState = .succeeded → status.reportedVersion = some upgrade.targetVersion) := by
  rw [reportedState] at h
  split_ifs at h with hhost hterminal
  cases hread : readSettable status.state with
  | none => rw [hread] at h; cases h
  | some named =>
      simp only [hread] at h
      split_ifs at h with hforward hversion
      cases h
      refine ⟨not_not.mp hhost, by simpa using hterminal, List.mem_of_find?_eq_some hread, ?_, ?_⟩
      · by_cases hfailed : newState = .failed
        · exact .inl hfailed
        · exact .inr (not_le.mp fun hle => hforward ⟨hfailed, hle⟩)
      · intro hsucceeded
        have hgiven : given status.reportedVersion = some upgrade.targetVersion := by
          by_contra hnot
          exact hversion ⟨hsucceeded, hnot⟩
        rw [given, Option.filter_eq_some_iff] at hgiven
        exact hgiven.1

/-- An accepted report keeps the law. -/
theorem law_reported {hostId : Uuid} {upgrade : HostUpgrade} {status : UpgradeStatusIn}
    {newState : UpgradeState} (hstate : reportedState hostId upgrade status = .ok newState)
    (now : ℤ) :
    UpgradeLaw (.report hostId upgrade.id status) upgrade
      (upgrade.after (statusChange upgrade newState status.failureReason now)) := by
  obtain ⟨hhost, hopen, hsettable, hforward, hversion⟩ := of_reportedState hstate
  refine ⟨rfl, rfl, rfl, ⟨fun _ hlater => ?_, fun hterminal => ?_⟩, fun htimed => ?_, ?_, ?_, ?_⟩
  · rcases hforward with hfailed | hlt
    · exact ((mem_agentStatesOrder_iff.mp hlater).1 hfailed).elim
    · exact hlt.le
  · rw [hopen] at hterminal
    cases hterminal
  · have hnone : upgrade.completedAt = none := by
      cases hcompleted : upgrade.completedAt with
      | none => rfl
      | some time =>
          have hset := htimed.mp (by rw [hcompleted]; rfl)
          rw [hopen] at hset
          cases hset
    simp only [HostUpgrade.Timed, HostUpgrade.after, statusChange, hnone]
    clear hstate hforward hversion
    revert hsettable
    cases newState <;> simp [agentSettable, agentStatesOrder, UpgradeState.terminal]
  · intro hsucceeded
    rw [hsucceeded] at hopen
    cases hopen
  · exact fun hsucceeded _ => ⟨hostId, status, rfl, hversion hsucceeded⟩
  · rintro other _ _ ⟨⟩ hforeign
    exact (hforeign hhost).elim

/-- Marking an upgrade as rolled back keeps the law. -/
theorem law_rolledBack {original : HostUpgrade} (now : ℤ)
    (hstate : original.state.terminal = false ∨ original.state = .succeeded) :
    UpgradeLaw (.rollback original.id) original (original.after
      { state := .rolledBack
        completedAt := if original.completedAt = none then some now else none }) := by
  refine ⟨rfl, rfl, rfl, ⟨fun _ hlater => ?_, fun hterminal => ?_⟩, fun _ => ?_, fun _ _ => rfl,
    nofun, nofun⟩
  · exact ((mem_agentStatesOrder_iff.mp hlater).2 rfl).elim
  · rcases hstate with hopen | hsucceeded
    · rw [hopen] at hterminal
      cases hterminal
    · exact .inr ⟨hsucceeded, rfl⟩
  · simp only [HostUpgrade.Timed, HostUpgrade.after]
    cases original.completedAt <;> simp [UpgradeState.terminal]

/-- Failing an open upgrade keeps the law of a decommissioning. -/
theorem law_failed {row : HostUpgrade} (hostId : Uuid) (reason : Option String) (text : String)
    (now : ℤ) (hopen : row.state.terminal = false) :
    UpgradeLaw (.decommission hostId reason) row
      (row.after ⟨.failed, none, some (some text), some now⟩) := by
  refine ⟨rfl, rfl, rfl, ⟨fun _ hlater => ?_, fun hterminal => ?_⟩, fun _ => ?_, ?_, nofun, nofun⟩
  · exact ((mem_agentStatesOrder_iff.mp hlater).1 rfl).elim
  · rw [hopen] at hterminal
    cases hterminal
  · simp [HostUpgrade.Timed, HostUpgrade.after, UpgradeState.terminal]
  · intro hsucceeded
    rw [hsucceeded] at hopen
    cases hopen

/-! ## What the calls do to the table -/

/-- What a call may make of the upgrades: every row after the law, and new rows behind. -/
structure TableLaw (call : UpgradeCall) (rows later : List HostUpgrade) : Prop where
  kept : ∃ (change : HostUpgrade → HostUpgrade) (new : List HostUpgrade),
    later = rows.map change ++ new ∧ (∀ row ∈ rows, UpgradeLaw call row (change row)) ∧
      ∀ row ∈ new, row.Timed ∧ row.state.terminal = false
  ids : (later.map HostUpgrade.id).Nodup

/-- Changes by the law, without new rows, keep the ids. -/
theorem TableLaw.of_map {call : UpgradeCall} {rows : List HostUpgrade}
    {change : HostUpgrade → HostUpgrade} (hids : (rows.map HostUpgrade.id).Nodup)
    (hlaw : ∀ row ∈ rows, UpgradeLaw call row (change row)) :
    TableLaw call rows (rows.map change) := by
  refine ⟨⟨change, [], by simp, hlaw, by simp⟩, ?_⟩
  rw [List.map_map]
  have hsame : rows.map (HostUpgrade.id ∘ change) = rows.map HostUpgrade.id :=
    List.map_congr_left fun row hrow => (hlaw row hrow).id
  rwa [hsame]

/-- Changes by the law, with one new row under an id of its own. -/
theorem TableLaw.of_map_append {call : UpgradeCall} {rows : List HostUpgrade}
    {change : HostUpgrade → HostUpgrade} {new : HostUpgrade}
    (hids : (rows.map HostUpgrade.id).Nodup)
    (hlaw : ∀ row ∈ rows, UpgradeLaw call row (change row)) (hnew : new.Timed ∧
        new.state.terminal = false)
    (hfresh : new.id ∉ rows.map HostUpgrade.id) :
    TableLaw call rows (rows.map change ++ [new]) := by
  refine ⟨⟨change, [new], rfl, hlaw, fun row hrow => ?_⟩, ?_⟩
  · rwa [List.mem_singleton.mp hrow]
  · have hsame : rows.map (HostUpgrade.id ∘ change) = rows.map HostUpgrade.id :=
      List.map_congr_left fun row hrow => (hlaw row hrow).id
    rw [List.map_append, List.map_map, hsame, List.map_singleton, ← List.concat_eq_append]
    exact hids.concat hfresh

theorem HostUpgrade.IsNew.timed {row : HostUpgrade} {hostId : Uuid} (h : row.IsNew hostId) :
    row.Timed ∧ row.state.terminal = false := by
  rw [HostUpgrade.Timed, h.completedAt]
  rcases h.state with hstate | hstate <;> simp [hstate, UpgradeState.terminal]

/-- An accepted upgrade has an id of its own. -/
theorem fresh_of_accepted {db : Db} {row : HostUpgrade}
    (h : store.refuses db (.insertUpgrade row) = none) :
        row.id ∉ db.upgrades.map HostUpgrade.id := by
  intro hmem
  obtain ⟨old, hold, hsame⟩ := List.mem_map.mp hmem
  have hany : (db.upgrades.any fun old => old.id = row.id) = true :=
    List.any_eq_true.mpr ⟨old, hold, by simpa using hsame⟩
  simp only [store, Write.refused, hany, if_true] at h
  split_ifs at h

theorem upgrades_applyAll_of_spares {writes : List Write}
    (h : ∀ write ∈ writes, write.SparesUpgrades) (db : Db) :
    (store.applyAll writes db).upgrades = db.upgrades := by
  induction writes generalizing db with
  | nil => rfl
  | cons write writes ih =>
      obtain ⟨hwrite, hwrites⟩ := List.forall_mem_cons.mp h
      rw [Store.applyAll_cons, ih hwrites]
      cases write with
      | purgeHost table id => cases table <;> first | exact hwrite.elim | rfl
      | _ => first | exact hwrite.elim | rfl

/-- With unique ids, the row found by its id is the one with it. -/
theorem eq_of_getUpgrade {db : Db} (hids : (db.upgrades.map HostUpgrade.id).Nodup)
    {upgrade row : HostUpgrade} {upgradeId : Uuid}
    (hget : db.getUpgrade upgradeId = some upgrade) (hrow : row ∈ db.upgrades)
    (hid : row.id = upgradeId) : row = upgrade := by
  have hfound : upgrade.id = upgradeId := by simpa using List.find?_some hget
  exact List.inj_on_of_nodup_map hids hrow (List.mem_of_find?_eq_some hget)
    (hid.trans hfound.symm)

/-- Writes that fail open upgrades at most keep the law of a decommissioning. -/
theorem rows_of_onlyFails (hostId : Uuid) (reason : Option String) {writes : List Write}
    (h : ∀ write ∈ writes, write.OnlyFailsUpgrades) (db : Db) :
    ∃ change : HostUpgrade → HostUpgrade,
      (store.applyAll writes db).upgrades = db.upgrades.map change ∧
        ∀ row, UpgradeLaw (.decommission hostId reason) row (change row) := by
  induction writes generalizing db with
  | nil => exact ⟨id, by simp, fun row => .refl _ row⟩
  | cons write writes ih =>
      obtain ⟨hwrite, hwrites⟩ := List.forall_mem_cons.mp h
      obtain ⟨change, hchange, hlaw⟩ := ih hwrites (store.apply write db)
      rw [Store.applyAll_cons, hchange]
      cases write with
      | failUpgrade id text now =>
          refine ⟨change ∘ fun row => if row.id = id ∧ row.state.terminal = false then
            row.after ⟨.failed, none, some (some text), some now⟩ else row, ?_, fun row => ?_⟩
          · rw [← List.map_map]
            rfl
          · refine UpgradeLaw.trans ?_ (hlaw _)
            dsimp only
            split
            · next hopen => exact law_failed hostId reason text now hopen.2
            · exact .refl _ row
      | insertUpgrade row => exact hwrite.elim
      | updateUpgrade id change => exact hwrite.elim
      | purgeHost table id =>
          cases table <;> first | exact hwrite.elim | exact ⟨change, rfl, hlaw⟩
      | _ => exact ⟨change, rfl, hlaw⟩

/-- What a call that runs alone makes of the upgrades. -/
theorem Changes.tableLaw {db : Db} {call : UpgradeCall} {writes : List Write}
    (h : Changes db call writes) (hids : (db.upgrades.map HostUpgrade.id).Nodup) :
    TableLaw call db.upgrades (store.applyAll writes db).upgrades := by
  cases h with
  | nothing => 
      have hsame := TableLaw.of_map hids fun row _ => UpgradeLaw.refl call row
      simpa using hsame
  | created hostId request row hnew haccepted =>
      have hadded := TableLaw.of_map_append hids
        (fun old _ => UpgradeLaw.refl (.create hostId request) old) hnew.timed
        (fresh_of_accepted haccepted)
      simpa [Write.apply] using hadded
  | reported hostId upgradeId status upgrade newState now others hget hstate hothers =>
      rw [Store.applyAll_cons, upgrades_applyAll_of_spares hothers]
      refine TableLaw.of_map hids fun row hrow => ?_
      split
      · next hid =>
          obtain rfl := eq_of_getUpgrade hids hget hrow hid
          rw [← hid]
          exact law_reported hstate now
      · exact .refl _ row
  | rolledBack upgradeId original row now hget hnew haccepted =>
      have hfresh := fresh_of_accepted haccepted
      have hid : original.id = upgradeId := by simpa using List.find?_some hget
      rw [rollbackMarks]
      split
      · next hstate =>
          have hother : row.id ≠ original.id := fun hsame =>
            hfresh (hsame ▸ List.mem_map_of_mem (List.mem_of_find?_eq_some hget))
          have hlaw : ∀ old ∈ db.upgrades, UpgradeLaw (.rollback upgradeId) old
              (if old.id = original.id then old.after
                { state := .rolledBack
                  completedAt := if original.completedAt = none then some now else none }
              else old) := by
            intro old hold
            split
            · next hsame =>
                obtain rfl := eq_of_getUpgrade hids hget hold (hsame.trans hid)
                rw [← hid]
                exact law_rolledBack now hstate
            · exact .refl _ old
          have hmarked := TableLaw.of_map_append hids hlaw hnew.timed hfresh
          simpa [Write.apply, hother] using hmarked
      · have hadded := TableLaw.of_map_append hids
          (fun old _ => UpgradeLaw.refl (.rollback upgradeId) old) hnew.timed hfresh
        simpa [Write.apply] using hadded
  | decommissioned hostId reason writes hwrites =>
      obtain ⟨change, hchange, hlaw⟩ := rows_of_onlyFails hostId reason hwrites db
      rw [hchange]
      exact .of_map hids fun row _ => hlaw row

/-! ## Sequences of calls -/

/-- A call with what it draws and the faults of the database it meets. -/
structure UpgradeStep where
  call : UpgradeCall
  draws : ℕ → Draw
  faults : ℕ → Option DbError

/-- The contents after a call has run alone. -/
def UpgradeStep.run (env : Environment) (step : UpgradeStep) (db : Db) : Db :=
  ((step.call.program env).exec store (Session.start step.draws step.faults) db).db

/-- The contents after a sequence of calls. -/
def runUpgrades (env : Environment) (steps : List UpgradeStep) (db : Db) : Db :=
  steps.foldl (fun db step => step.run env db) db

/-- Upgrades with ids of their own, completed exactly where their state is terminal. -/
structure UpgradesKept (rows : List HostUpgrade) : Prop where
  ids : (rows.map HostUpgrade.id).Nodup
  timed : ∀ row ∈ rows, row.Timed

theorem tableLaw_run (env : Environment) (step : UpgradeStep) {db : Db}
    (hids : (db.upgrades.map HostUpgrade.id).Nodup) :
    TableLaw step.call db.upgrades (step.run env db).upgrades := by
  have hexec := (ensures_program env step.call db step.draws step.faults).exec_start
  obtain ⟨hchanges, halone⟩ := hexec
  rw [UpgradeStep.run, halone]
  exact hchanges.tableLaw hids

/-- Under the law of a call every upgrade is still there, after the law. -/
theorem TableLaw.later {call : UpgradeCall} {rows later : List HostUpgrade}
    (h : TableLaw call rows later) {row : HostUpgrade} (hrow : row ∈ rows) :
    ∃ row' ∈ later, UpgradeLaw call row row' := by
  obtain ⟨change, new, rfl, hlaw, -⟩ := h.kept
  exact ⟨change row, List.mem_append_left _ (List.mem_map_of_mem hrow), hlaw row hrow⟩

theorem TableLaw.upgradesKept {call : UpgradeCall} {rows later : List HostUpgrade}
    (h : TableLaw call rows later) (hrows : UpgradesKept rows) : UpgradesKept later := by
  refine ⟨h.ids, fun row' hrow' => ?_⟩
  obtain ⟨change, new, rfl, hlaw, hnew⟩ := h.kept
  rcases List.mem_append.mp hrow' with hold | hadded
  · obtain ⟨row, hrow, rfl⟩ := List.mem_map.mp hold
    exact (hlaw row hrow).timed (hrows.timed row hrow)
  · exact (hnew row' hadded).1

/-- An upgrade that was not on file before a call is open after it. -/
theorem TableLaw.earlier {call : UpgradeCall} {rows later : List HostUpgrade}
    (h : TableLaw call rows later) {row' : HostUpgrade} (hrow' : row' ∈ later) :
    (∃ row ∈ rows, UpgradeLaw call row row') ∨ row'.state.terminal = false := by
  obtain ⟨change, new, rfl, hlaw, hnew⟩ := h.kept
  rcases List.mem_append.mp hrow' with hold | hadded
  · obtain ⟨row, hrow, rfl⟩ := List.mem_map.mp hold
    exact .inl ⟨row, hrow, hlaw row hrow⟩
  · exact .inr (hnew row' hadded).2

/-- Along a sequence of calls the table stays kept, and every upgrade advances. -/
theorem kept_runUpgrades (env : Environment) (steps : List UpgradeStep) {db : Db}
    (hkept : UpgradesKept db.upgrades) :
    UpgradesKept (runUpgrades env steps db).upgrades ∧
      ∀ row ∈ db.upgrades, ∃ later ∈ (runUpgrades env steps db).upgrades,
        later.id = row.id ∧ row.state.Advances later.state := by
  induction steps generalizing db with
  | nil => exact ⟨hkept, fun row hrow => ⟨row, hrow, rfl, .refl _⟩⟩
  | cons step steps ih =>
      have hlaw := tableLaw_run env step hkept.ids
      obtain ⟨hkept', hlater⟩ := ih (hlaw.upgradesKept hkept)
      refine ⟨hkept', fun row hrow => ?_⟩
      obtain ⟨next, hnext, hstep⟩ := hlaw.later hrow
      obtain ⟨later, hmem, hid, hadvances⟩ := hlater next hnext
      exact ⟨later, hmem, hid.trans hstep.id, hstep.state.trans hadvances⟩

/-- Along every sequence of calls from a table that is kept: every upgrade of the start
is still there and has advanced, `completed_at` is set exactly in the terminal states,
and the last call treated every upgrade it found by the law and added open ones only. -/
theorem upgrades_stateMachine (env : Environment) {db : Db} (hkept : UpgradesKept db.upgrades)
    (before : List UpgradeStep) (last : UpgradeStep) :
    (∀ row ∈ db.upgrades, ∃ later ∈ (last.run env (runUpgrades env before db)).upgrades,
        later.id = row.id ∧ row.state.Advances later.state) ∧
      UpgradesKept (last.run env (runUpgrades env before db)).upgrades ∧
      (∀ row ∈ (runUpgrades env before db).upgrades,
        ∃ later ∈ (last.run env (runUpgrades env before db)).upgrades,
          UpgradeLaw last.call row later) ∧
      ∀ later ∈ (last.run env (runUpgrades env before db)).upgrades,
        (∃ row ∈ (runUpgrades env before db).upgrades, UpgradeLaw last.call row later) ∨
          later.state.terminal = false := by
  obtain ⟨hkept', hadvanced⟩ := kept_runUpgrades env before hkept
  have hlaw := tableLaw_run env last hkept'.ids
  refine ⟨fun row hrow => ?_, hlaw.upgradesKept hkept', fun row hrow => hlaw.later hrow,
    fun later hlater => hlaw.earlier hlater⟩
  obtain ⟨next, hnext, hid, hadvances⟩ := hadvanced row hrow
  obtain ⟨later, hmem, hstep⟩ := hlaw.later hnext
  exact ⟨later, hmem, hstep.id.trans hid, hadvances.trans hstep.state⟩

/-- A request for version 2.0 on the sample host. -/
def sampleUpgrade : UpgradeIn where
  targetVersion := "2.0"
  artifactUrl := "https://example.org/agent-2.0.whl"
  artifactSha256 := "00"
  requestId := none
  previousArtifactUrl := none
  previousArtifactSha256 := none

/-- The sample host, with an earlier upgrade that has failed. -/
def upgradingDb : Db :=
  { sampleDb with
    upgrades := [
      { id := ⟨7⟩
        hostId := sampleHost.id
        requestId := none
        state := .failed
        targetVersion := "1.9"
        artifactUrl := "https://example.org/agent-1.9.whl"
        artifactSha256 := "01"
        previousVersion := none
        previousArtifactUrl := none
        previousArtifactSha256 := none
        failureReason := some "SHA256_MISMATCH"
        approvedAt := some 1
        claimedAt := some 2
        completedAt := some 3
        createdBy := none
        createdAt := 1 }] }

/-- A report on the upgrade that is created, from a host. -/
def reportStep (hostId : Uuid) (state : String) (version : Option String) (first : ℕ) :
    UpgradeStep :=
  ⟨.report hostId ⟨101⟩ ⟨state, none, version⟩, sampleDraws first, fun _ => none⟩

/-- The upgrade is created and begun, and another host reports its success. -/
def upgradeSteps : List UpgradeStep :=
  [⟨.create sampleHost.id sampleUpgrade, sampleDraws 100, fun _ => none⟩,
    reportStep sampleHost.id "DOWNLOADING" none 200,
    reportStep ⟨99⟩ "SUCCEEDED" (some "2.0") 300]

/-- Its own host then reports the success, beside an upgrade that has failed before. -/
theorem upgrades_stateMachine_sample :
    let last := reportStep sampleHost.id "SUCCEEDED" (some "2.0") 400
    let rows := (runUpgrades sampleEnvironment upgradeSteps upgradingDb).upgrades
    let later := (last.run sampleEnvironment
      (runUpgrades sampleEnvironment upgradeSteps upgradingDb)).upgrades
    rows.map HostUpgrade.state = [.failed, .downloading] ∧
      later.map HostUpgrade.state = [.failed, .succeeded] ∧
      (∀ row ∈ upgradingDb.upgrades, ∃ row' ∈ later, row'.id = row.id ∧
        row.state.Advances row'.state) ∧
      UpgradesKept later ∧ (∀ row ∈ rows, ∃ row' ∈ later, UpgradeLaw last.call row row') ∧
      ∀ row' ∈ later, (∃ row ∈ rows, UpgradeLaw last.call row row') ∨
        row'.state.terminal = false := by
  have hkept : UpgradesKept upgradingDb.upgrades :=
    ⟨by decide, fun row hrow => by
      rw [List.mem_singleton.mp hrow]
      exact iff_of_true rfl rfl⟩
  exact ⟨rfl, rfl, upgrades_stateMachine sampleEnvironment hkept upgradeSteps
    (reportStep sampleHost.id "SUCCEEDED" (some "2.0") 400)⟩

end Central
