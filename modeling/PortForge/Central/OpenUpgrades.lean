/-
# One open upgrade per host

Upgrade calls of one host in any interleaving. A call that opens an upgrade looks for an
open one, or reads the upgrade it reports on, and takes no lock: what it read may be out
of date when it commits. In a run in which no commit opens an upgrade of the host while
another call that may open one stands between its last look and the end of its
transaction, and no commit reopens an upgrade whose rollback has begun, the host never
has two open upgrades.
-/

import PortForge.Central.UpgradeLaw
import PortForge.Transaction.UniqueKey
import PortForge.Transaction.Windows

namespace Central

open Transaction

/-! ## Open upgrades -/

/-- The open upgrades of a host. -/
def Db.openUpgrades (db : Db) (hostId : Uuid) : List HostUpgrade :=
  db.upgrades.filter fun row => row.hostId = hostId ∧ row.state.terminal = false

/-- The host has at most one open upgrade. -/
def Db.OneOpenUpgrade (db : Db) (hostId : Uuid) : Prop := (db.openUpgrades hostId).length ≤ 1

instance (db : Db) (hostId : Uuid) : Decidable (db.OneOpenUpgrade hostId) :=
  inferInstanceAs (Decidable (_ ≤ _))

/-- An upgrade of the host with this id is open. -/
def Db.Open (db : Db) (hostId id : Uuid) : Prop :=
  ∃ row ∈ db.upgrades, row.id = id ∧ row.hostId = hostId ∧ row.state.terminal = false

/-- No upgrade of the host is open but the one that may be. -/
def Db.OpenOnly (db : Db) (hostId : Uuid) (allowed : Option Uuid) : Prop :=
  ∀ id, db.Open hostId id → allowed = some id

/-- The open upgrades of the host, if any, share one id. -/
def Db.OneOpenId (db : Db) (hostId : Uuid) : Prop := ∃ allowed, db.OpenOnly hostId allowed

variable {hostId : Uuid} {db : Db}

theorem oneOpenId_of_oneOpenUpgrade (h : db.OneOpenUpgrade hostId) : db.OneOpenId hostId := by
  cases hrows : db.openUpgrades hostId with
  | nil =>
      refine ⟨none, fun id hopen => ?_⟩
      obtain ⟨row, hrow, -, hhost, hstate⟩ := hopen
      have hmem : row ∈ db.openUpgrades hostId :=
        List.mem_filter.mpr ⟨hrow, decide_eq_true ⟨hhost, hstate⟩⟩
      rw [hrows] at hmem
      cases hmem
  | cons first rows =>
      have hrest : rows = [] := by
        rw [Db.OneOpenUpgrade, hrows, List.length_cons] at h
        exact List.length_eq_zero_iff.mp (by omega)
      refine ⟨some first.id, fun id hopen => ?_⟩
      obtain ⟨row, hrow, rfl, hhost, hstate⟩ := hopen
      have hmem : row ∈ db.openUpgrades hostId :=
        List.mem_filter.mpr ⟨hrow, decide_eq_true ⟨hhost, hstate⟩⟩
      rw [hrows, hrest, List.mem_singleton] at hmem
      rw [hmem]

theorem oneOpenUpgrade_of_oneOpenId (hids : (db.upgrades.map HostUpgrade.id).Nodup)
    (h : db.OneOpenId hostId) : db.OneOpenUpgrade hostId := by
  obtain ⟨allowed, honly⟩ := h
  have hsame : ∀ row ∈ db.openUpgrades hostId, allowed = some row.id := by
    intro row hrow
    obtain ⟨hmem, hopen⟩ := List.mem_filter.mp hrow
    obtain ⟨hhost, hstate⟩ := of_decide_eq_true hopen
    exact honly row.id ⟨row, hmem, rfl, hhost, hstate⟩
  have hnodup : ((db.openUpgrades hostId).map HostUpgrade.id).Nodup :=
    hids.sublist (List.filter_sublist.map _)
  rw [Db.OneOpenUpgrade]
  match hrows : db.openUpgrades hostId with
  | [] => simp
  | [row] => simp
  | first :: second :: rows =>
      rw [hrows] at hsame hnodup
      have heq : first.id = second.id := Option.some.inj
        ((hsame first (by simp)).symm.trans (hsame second (by simp)))
      simp [heq] at hnodup

/-- The look-up for an open upgrade, on contents with one open id at most. -/
theorem openOnly_of_lookUp (h : db.OneOpenId hostId) :
    db.OpenOnly hostId ((db.getNonTerminalForHost hostId).map HostUpgrade.id) := by
  intro id hopen
  obtain ⟨row, hrow, rfl, hhost, hstate⟩ := hopen
  cases hfind : db.getNonTerminalForHost hostId with
  | none =>
      have hnone := List.find?_eq_none.mp hfind row hrow
      simp [hhost, hstate] at hnone
  | some found =>
      obtain ⟨allowed, honly⟩ := h
      have hmatch := List.find?_some hfind
      obtain ⟨hfoundHost, hfoundState⟩ := of_decide_eq_true hmatch
      have hfound := honly found.id
        ⟨found, List.mem_of_find?_eq_some hfind, rfl, hfoundHost, hfoundState⟩
      have hrowOnly := honly row.id ⟨row, hrow, rfl, hhost, hstate⟩
      exact hfound.symm.trans hrowOnly

/-! ## What the writes open -/

/-- The write opens no upgrade of the host. -/
def Write.OpensNothing (hostId : Uuid) : Write → Prop
  | .insertUpgrade row => row.hostId ≠ hostId ∨ row.state.terminal = true
  | .updateUpgrade _ change => change.state.terminal = true
  | _ => True

theorem open_of_apply {write : Write} (h : write.OpensNothing hostId) {id : Uuid}
    (hopen : (write.apply db).Open hostId id) : db.Open hostId id := by
  cases write with
  | insertUpgrade new =>
      obtain ⟨row, hrow, hid, hhost, hstate⟩ := hopen
      rcases List.mem_append.mp hrow with hold | hnew
      · exact ⟨row, hold, hid, hhost, hstate⟩
      · rw [List.mem_singleton.mp hnew] at hhost hstate
        rcases h with hother | hterminal
        · exact (hother hhost).elim
        · rw [hstate] at hterminal
          cases hterminal
  | updateUpgrade changed change =>
      obtain ⟨row, hrow, hid, hhost, hstate⟩ := hopen
      obtain ⟨old, hold, rfl⟩ := List.mem_map.mp hrow
      split at hid <;> rename_i hsame
      · have hterminal : change.state.terminal = true := h
        simp only [hsame, if_true, HostUpgrade.after, hterminal] at hstate
        cases hstate
      · rw [if_neg hsame] at hhost hstate
        exact ⟨old, hold, hid, hhost, hstate⟩
  | failUpgrade failed reason now =>
      obtain ⟨row, hrow, hid, hhost, hstate⟩ := hopen
      obtain ⟨old, hold, rfl⟩ := List.mem_map.mp hrow
      split at hid <;> rename_i hsame
      · rw [if_pos hsame] at hstate
        cases hstate
      · rw [if_neg hsame] at hhost hstate
        exact ⟨old, hold, hid, hhost, hstate⟩
  | purgeHost table purged =>
      cases table with
      | upgrades =>
          obtain ⟨row, hrow, hid, hhost, hstate⟩ := hopen
          exact ⟨row, (List.mem_filter.mp hrow).1, hid, hhost, hstate⟩
      | _ => exact hopen
  | _ => exact hopen

theorem open_of_applyAll {writes : List Write}
    (h : ∀ write ∈ writes, write.OpensNothing hostId) {id : Uuid}
    (hopen : (store.applyAll writes db).Open hostId id) : db.Open hostId id := by
  induction writes generalizing db with
  | nil => exact hopen
  | cons write writes ih =>
      obtain ⟨hwrite, hwrites⟩ := List.forall_mem_cons.mp h
      exact open_of_apply hwrite (ih hwrites hopen)

/-! ## Calls -/

/-- The call is one on this host; a rollback names an upgrade only. -/
def UpgradeCall.ForHost (hostId : Uuid) : UpgradeCall → Prop
  | .create id _ => id = hostId
  | .report id _ _ => id = hostId
  | .rollback _ => True
  | .decommission id _ => id = hostId

/-- The call may open an upgrade: it creates one, or it reports a state that is not terminal. -/
def UpgradeCall.MayOpen : UpgradeCall → Prop
  | .create _ _ => True
  | .report _ _ status => ∃ state, readSettable status.state = some state ∧ state.terminal = false
  | .rollback _ => True
  | .decommission _ _ => False

/-- A call that may open an upgrade stands between its last query and the end of its
transaction. -/
def UpgradeCall.InWindow (call : UpgradeCall) (p : Service Unit) : Prop :=
  call.MayOpen ∧ p.Decided ∧ ¬ p.Quiet

/-- Where the host has no open upgrade but the allowed one, the batch leaves at most one. -/
def KeepsOne (hostId : Uuid) (allowed : Option Uuid) (s : ServiceSession) : Prop :=
  ∀ db, db.OpenOnly hostId allowed → (store.applyAll s.batch db).OneOpenId hostId

/-- The call has decided on contents where no upgrade is open but the allowed one. -/
def Decides (hostId : Uuid) (call : UpgradeCall) (start : Db) (p : Service Unit) : Prop :=
  ∃ allowed, start.OpenOnly hostId allowed ∧ call.MayOpen ∧ p.Decided ∧
    ∀ s : ServiceSession, s.batch = [] →
      p.Ensures store (fun _ db => db.OpenOnly hostId allowed) (KeepsOne hostId allowed) s
        fun _ _ => True

/-- A query that settles what the call does, if the upgrade it knows to be closed still is. -/
def SettlesBy (hostId : Uuid) (call : UpgradeCall) (closed : Option Uuid) (start : Db)
    (p : Service Unit) : Prop :=
  start.OneOpenId hostId → (∀ id ∈ closed, ¬ start.Open hostId id) →
    p.Adds (Write.OpensNothing hostId) ∨ Decides hostId call start p

/-- The first query of a rollback, by which it may learn that its upgrade is closed. -/
def Finds (hostId : Uuid) (call : UpgradeCall) (start : Db) (p : Service Unit) : Prop :=
  (start.upgrades.map HostUpgrade.id).Nodup →
    p.Adds (Write.OpensNothing hostId) ∨
      ∃ closed, (∀ id ∈ closed, ¬ start.Open hostId id ∧ call = .rollback id) ∧
        p.Asks (SettlesBy hostId call closed)

/-- The phases of a call that has taken a number of steps, on the contents `db`. -/
inductive UpgradePhase (hostId : Uuid) (call : UpgradeCall) (steps : ℕ) (db : Db)
    (p : Service Unit) (s : ServiceSession) : Prop
  | /-- A rollback in front of its first query. -/
    finding (hasks : p.Asks (Finds hostId call)) (hbatch : s.batch = [])
  | /-- In front of the query it decides by. A rollback may know its upgrade closed. -/
    asking (closed : Option Uuid) (hclosed : ∀ id ∈ closed, ¬ db.Open hostId id)
      (hrollback : ∀ id ∈ closed, call = .rollback id ∧ 0 < steps)
      (hasks : p.Asks (SettlesBy hostId call closed)) (hbatch : s.batch = [])
  | deciding (allowed : Option Uuid) (honly : db.OpenOnly hostId allowed) (hopens : call.MayOpen)
      (hdecided : p.Decided)
      (hensures : p.Ensures store (fun _ db => db.OpenOnly hostId allowed)
        (KeepsOne hostId allowed) s fun _ _ => True)
  | /-- It opens nothing more. -/
    harmless (hquiet : p.Quiet ∨ p.Adds (Write.OpensNothing hostId) ∧
      ∀ write ∈ s.batch, write.OpensNothing hostId)

variable {call : UpgradeCall} {steps : ℕ} {p p' : Service Unit} {s s' : ServiceSession} {db' : Db}

/-- Another call's commit leaves a call in its phase, if it opens nothing while the call
is in its window, and does not reopen the upgrade of a rollback that has begun. -/
theorem UpgradePhase.frame (h : UpgradePhase hostId call steps db p s)
    (hwindow : call.InWindow p → ∀ id, db'.Open hostId id → db.Open hostId id)
    (hreopen : ∀ id, call = .rollback id → 0 < steps → ¬ p.Quiet →
      db'.Open hostId id → db.Open hostId id) :
    UpgradePhase hostId call steps db' p s := by
  cases h with
  | finding hasks hbatch => exact .finding hasks hbatch
  | asking closed hclosed hrollback hasks hbatch =>
      by_cases hquiet : p.Quiet
      · exact .harmless (.inl hquiet)
      · refine .asking closed (fun id hid hopen => ?_) hrollback hasks hbatch
        obtain ⟨hcall, hsteps⟩ := hrollback id hid
        exact hclosed id hid (hreopen id hcall hsteps hquiet hopen)
  | deciding allowed honly hopens hdecided hensures =>
      by_cases hquiet : p.Quiet
      · exact .harmless (.inl hquiet)
      · refine .deciding allowed (fun id hopen => honly id ?_) hopens hdecided hensures
        exact hwindow ⟨hopens, hdecided, hquiet⟩ id hopen
  | harmless hquiet => exact .harmless hquiet

/-- A query that settled what a call does leaves it deciding, or harmless. -/
theorem UpgradePhase.of_settlesBy {closed : Option Uuid} (h : SettlesBy hostId call closed db p)
    (hone : db.OneOpenId hostId) (hclosed : ∀ id ∈ closed, ¬ db.Open hostId id)
    (hbatch : s.batch = []) : UpgradePhase hostId call steps db p s := by
  rcases h hone hclosed with hadds | ⟨allowed, honly, hopens, hdecided, hensures⟩
  · exact .harmless (.inr ⟨hadds, by simp [hbatch]⟩)
  · exact .deciding allowed honly hopens hdecided (hensures s hbatch)

/-- One step of a call keeps it in its phases, and one open upgrade at most. -/
theorem UpgradePhase.advance (h : UpgradePhase hostId call steps db p s)
    (hids : (db.upgrades.map HostUpgrade.id).Nodup) (hone : db.OneOpenId hostId)
    (hstep : p.advance store s db = some (p', s', db')) :
    UpgradePhase hostId call (steps + 1) db' p' s' ∧ db'.OneOpenId hostId := by
  cases h with
  | finding hasks hbatch =>
      have hflushed := (List.append_eq_nil_iff.mp hbatch).1
      obtain ⟨hnext, ⟨draws, rfl⟩, rfl⟩ := hasks.advance hflushed hstep
      refine ⟨?_, hone⟩
      rcases hnext with hfinds | hasks'
      · rcases hfinds hids with hadds | ⟨closed, hclosed, hasks'⟩
        · exact .harmless (.inr ⟨hadds, fun write hwrite => by
            change write ∈ s.batch at hwrite
            simp [hbatch] at hwrite⟩)
        · exact .asking closed (fun id hid => (hclosed id hid).1)
            (fun id hid => ⟨(hclosed id hid).2, Nat.succ_pos steps⟩) hasks' hbatch
      · exact .finding hasks' hbatch
  | asking closed hclosed hrollback hasks hbatch =>
      have hflushed := (List.append_eq_nil_iff.mp hbatch).1
      obtain ⟨hnext, ⟨draws, rfl⟩, rfl⟩ := hasks.advance hflushed hstep
      refine ⟨?_, hone⟩
      rcases hnext with hsettles | hasks'
      · exact .of_settlesBy hsettles hone hclosed hbatch
      · exact .asking closed hclosed
          (fun id hid => ⟨(hrollback id hid).1, Nat.succ_pos steps⟩) hasks' hbatch
  | deciding allowed honly hopens hdecided hensures =>
      have hmoved := hdecided.locked.advance hstep
      refine ⟨?_, ?_⟩
      · rcases hmoved with ⟨-, -, -, rfl⟩ | ⟨hquiet, -⟩
        · exact .deciding allowed honly hopens (hdecided.advance hstep)
            (hensures.advance honly hstep)
        · exact .harmless (.inl hquiet)
      · rcases Program.advance_db hstep with rfl | ⟨next, rfl, rfl⟩
        · exact hone
        · exact hensures.of_commit db honly
  | harmless hquiet =>
      rcases hquiet with hquiet | ⟨hadds, hbatch⟩
      · obtain ⟨hquiet', rfl⟩ := hquiet.advance hstep
        exact ⟨.harmless (.inl hquiet'), hone⟩
      · refine ⟨.harmless (.inr (hadds.advance hbatch hstep)), ?_⟩
        rcases Program.advance_db hstep with rfl | ⟨next, rfl, rfl⟩
        · exact hone
        · obtain ⟨allowed, honly⟩ := hone
          exact ⟨allowed, fun id hopen => honly id (open_of_applyAll hbatch hopen)⟩

/-! ## Where the calls start -/

theorem decided_settleUpgrade (upgrade : HostUpgrade) :
    ((settleUpgrade upgrade).bind fun _ => .ret ()).Decided := by
  rintro (_ | error)
  · exact (observes_refreshUpgrade upgrade.id).quiet.bind fun _ => trivial
  · trivial

/-- A service that stages a batch which keeps one open upgrade is committed so. -/
theorem ensures_settled {allowed : Option Uuid} {q : Service HostUpgrade}
    (hq : q.Ensures store (fun _ db => db.OpenOnly hostId allowed) (KeepsOne hostId allowed) s
      fun s' result => ∀ value, result = .ok value → KeepsOne hostId allowed s') :
    (q.bind fun upgrade => (settleUpgrade upgrade).bind fun _ => .ret ()).Ensures store
      (fun _ db => db.OpenOnly hostId allowed) (KeepsOne hostId allowed) s fun _ _ => True := by
  refine Program.Ensures.bind hq (fun s' upgrade hkeeps => ?_) fun _ _ _ => trivial
  have hends : ((refreshUpgrade upgrade.id).bind fun _ => .ret () : Service Unit).Observes :=
    (observes_refreshUpgrade upgrade.id).bind fun _ => trivial
  simp only [settleUpgrade, Program.bind_eq, Program.bind_assoc, Program.ensures_bind,
    ensures_commit]
  refine ⟨hkeeps upgrade rfl, fun _ _ _ => ?_, fun _ _ _ _ => trivial⟩
  rw [← Program.ensures_bind]
  exact hends.quiet.ensures_true

/-! ### What the batches keep -/

theorem openOnly_insertUpgrade {row : HostUpgrade} (h : db.OpenOnly hostId none) :
    (store.apply (.insertUpgrade row) db).OpenOnly hostId (some row.id) := by
  intro id hopen
  obtain ⟨found, hfound, rfl, hhost, hstate⟩ := hopen
  rcases List.mem_append.mp hfound with hold | hnew
  · cases h found.id ⟨found, hold, rfl, hhost, hstate⟩
  · rw [List.mem_singleton.mp hnew]

theorem opensNothing_rollbackMarks (original : HostUpgrade) (now : ℤ) :
    ∀ write ∈ rollbackMarks original now, write.OpensNothing hostId := by
  intro write hwrite
  rw [rollbackMarks] at hwrite
  split at hwrite
  · rw [List.mem_singleton.mp hwrite]
    rfl
  · cases hwrite

theorem keepsOne_insertUpgrade {row : HostUpgrade} (hbatch : s.batch = [.insertUpgrade row]) :
    KeepsOne hostId none s := by
  intro db honly
  rw [hbatch]
  exact ⟨some row.id, openOnly_insertUpgrade honly⟩

/-- A rollback closes the upgrade it was allowed to find open. -/
theorem keepsOne_rollback {allowed : Option Uuid} {original row : HostUpgrade} {now : ℤ}
    (hbatch : s.batch = .insertUpgrade row :: rollbackMarks original now)
    (hallowed : allowed = none ∨ allowed = some original.id ∧
      (original.state.terminal = false ∨ original.state = .succeeded)) :
    KeepsOne hostId allowed s := by
  intro db honly
  rw [hbatch, Store.applyAll_cons]
  rcases hallowed with rfl | ⟨rfl, hstate⟩
  · have hinserted : (store.apply (.insertUpgrade row) db).OpenOnly hostId (some row.id) :=
      openOnly_insertUpgrade honly
    exact ⟨some row.id, fun id hopen =>
      hinserted id (open_of_applyAll (opensNothing_rollbackMarks original now) hopen)⟩
  · refine ⟨some row.id, fun id hopen => ?_⟩
    rw [rollbackMarks, if_pos hstate] at hopen
    obtain ⟨found, hfound, rfl, hhost, hopen⟩ := hopen
    obtain ⟨old, hold, rfl⟩ := List.mem_map.mp hfound
    by_cases hsame : old.id = original.id
    · rw [if_pos hsame] at hopen
      cases hopen
    · rw [if_neg hsame] at hhost hopen ⊢
      rcases List.mem_append.mp hold with hold | hnew
      · have heq := honly old.id ⟨old, hold, rfl, hhost, hopen⟩
        exact (hsame (Option.some.inj heq).symm).elim
      · rw [List.mem_singleton.mp hnew]

theorem open_applyAll_of_spares {writes : List Write}
    (h : ∀ write ∈ writes, write.SparesUpgrades) {id : Uuid} :
    (store.applyAll writes db).Open hostId id ↔ db.Open hostId id := by
  simp only [Db.Open, upgrades_applyAll_of_spares h]

/-- A report opens no upgrade but its own. -/
theorem keepsOne_report {upgradeId : Uuid} {change : UpgradeChange} {others : List Write}
    (hothers : ∀ write ∈ others, write.SparesUpgrades)
    (hbatch : s.batch = .updateUpgrade upgradeId change :: others) :
    KeepsOne hostId (some upgradeId) s := by
  intro db honly
  refine ⟨some upgradeId, fun id hopen => ?_⟩
  rw [hbatch, Store.applyAll_cons, open_applyAll_of_spares hothers] at hopen
  obtain ⟨found, hfound, rfl, hhost, hopen⟩ := hopen
  obtain ⟨old, hold, rfl⟩ := List.mem_map.mp hfound
  by_cases hsame : old.id = upgradeId
  · rw [if_pos hsame, ← hsame]
    rfl
  · rw [if_neg hsame] at hhost hopen ⊢
    exact honly old.id ⟨old, hold, rfl, hhost, hopen⟩

/-! ### Creating -/

theorem decides_openUpgrade (env : Environment) {host : Host} (request : UpgradeIn) {start : Db}
    (honly : start.OpenOnly hostId none) :
    Decides hostId (.create hostId request) start
      ((openUpgrade env host request).bind fun upgrade =>
        (settleUpgrade upgrade).bind fun _ => .ret ()) := by
  refine ⟨none, honly, trivial, fun _ _ _ => ⟨?_, fun _ => trivial⟩, fun s hbatch => ?_⟩
  · exact decided_settleUpgrade _
  · refine ensures_settled ((ensures_openUpgrade env host request hbatch).mono ?_)
    rintro s' result ⟨-, hopened⟩ value hvalue
    obtain ⟨row, -, hbatch', -⟩ := hopened value hvalue
    exact keepsOne_insertUpgrade hbatch'

theorem asks_createUpgrade {decides : Db → Service HostUpgrade → Prop} (env : Environment)
    (request : UpgradeIn) (hfound : ∀ db upgrade, decides db (.ret upgrade))
    (hopen : ∀ db host, db.getNonTerminalForHost hostId = none →
      decides db (openUpgrade env host request)) :
    (createUpgrade env hostId request).Asks decides := by
  refine Program.asks_query_bind fun db => .inr ?_
  cases hget : db.getHost hostId with
  | none => trivial
  | some host =>
      have hhost : host.id = hostId := by simpa using List.find?_some hget
      simp only
      split
      · trivial
      · have hfresh : ((refuseDowngrade env host request.targetVersion).bind fun _ =>
            (checkArtifact env.settings request).bind fun _ =>
              openUnlessPending env host request).Asks decides := by
          refine (observes_refuseDowngrade _ _ _).bind_asks fun _ => ?_
          refine (observes_checkArtifact _ _).bind_asks fun _ => ?_
          refine Program.asks_query_bind fun db => ?_
          rw [hhost]
          cases hpending : db.getNonTerminalForHost hostId with
          | some upgrade => exact .inr trivial
          | none => exact .inl (hopen db host hpending)
        rw [findRequested]
        cases given request.requestId with
        | none => exact hfresh
        | some requestId =>
            refine Program.asks_query_bind fun db => ?_
            cases db.getUpgradeByRequestId hostId requestId with
            | some upgrade => exact .inl (hfound db upgrade)
            | none => exact .inr hfresh

theorem phase_create (env : Environment) (request : UpgradeIn) (hbatch : s.batch = []) :
    UpgradePhase hostId (.create hostId request) steps db
      ((UpgradeCall.create hostId request).program env) s := by
  refine .asking none (by simp) (by simp) ?_ hbatch
  rw [UpgradeCall.program, createUpgradeEndpoint, Program.bind_eq, Program.bind_assoc]
  refine Program.Asks.bind (asks_createUpgrade env request ?_ ?_)
  · exact fun _ upgrade _ _ => .inl (adds_settleUpgrade upgrade)
  · intro start host hpending hone _
    refine .inr (decides_openUpgrade env request ?_)
    have honly := openOnly_of_lookUp hone
    rwa [hpending] at honly

/-! ### Reporting -/

theorem decides_recordStatus {upgrade : HostUpgrade} {status : UpgradeStatusIn}
    {newState : UpgradeState} {upgradeId : Uuid} {start : Db}
    (hread : readSettable status.state = some newState) (hopen : newState.terminal = false)
    (honly : start.OpenOnly hostId (some upgrade.id)) :
    Decides hostId (.report hostId upgradeId status) start
      ((recordStatus hostId upgrade newState status.failureReason).bind fun upgrade =>
        (settleUpgrade upgrade).bind fun _ => .ret ()) := by
  refine ⟨some upgrade.id, honly, ⟨newState, hread, hopen⟩, fun _ => ?_, fun s hbatch => ?_⟩
  · have hquiet : surfaceOutcome hostId newState status.failureReason = .ret () := by
      rw [surfaceOutcome, if_neg]
      · rfl
      · rintro (rfl | rfl) <;> cases hopen
    rw [hquiet]
    exact ⟨decided_settleUpgrade _, fun _ => trivial⟩
  · refine ensures_settled ((ensures_recordStatus hostId upgrade newState _ hbatch).mono ?_)
    rintro s' result ⟨-, hstaged⟩ value hvalue
    obtain ⟨now, others, hothers, hbatch'⟩ := hstaged value hvalue
    exact keepsOne_report hothers hbatch'

theorem readSettable_of_reportedState {upgrade : HostUpgrade} {status : UpgradeStatusIn}
    {newState : UpgradeState} (h : reportedState hostId upgrade status = .ok newState) :
    readSettable status.state = some newState := by
  rw [reportedState] at h
  split_ifs at h
  cases hread : readSettable status.state with
  | none => rw [hread] at h; cases h
  | some named =>
      simp only [hread] at h
      split_ifs at h
      cases h
      rfl

theorem asks_updateUpgradeStatus {decides : Db → Service HostUpgrade → Prop} (upgradeId : Uuid)
    (status : UpgradeStatusIn)
    (hfound : ∀ db upgrade newState, db.getUpgrade upgradeId = some upgrade →
      reportedState hostId upgrade status = .ok newState →
        decides db (recordStatus hostId upgrade newState status.failureReason)) :
    (updateUpgradeStatus hostId upgradeId status).Asks decides := by
  refine Program.asks_query_bind fun db => ?_
  cases hget : db.getUpgrade upgradeId with
  | none => exact .inr trivial
  | some upgrade =>
      cases hstate : reportedState hostId upgrade status with
      | error error =>
          simp only [hstate]
          exact .inr trivial
      | ok newState =>
          simp only [hstate]
          exact .inl (hfound db upgrade newState hget hstate)

theorem phase_report (env : Environment) (upgradeId : Uuid) (status : UpgradeStatusIn)
    (hbatch : s.batch = []) :
    UpgradePhase hostId (.report hostId upgradeId status) steps db
      ((UpgradeCall.report hostId upgradeId status).program env) s := by
  refine .asking none (by simp) (by simp) ?_ hbatch
  rw [UpgradeCall.program, reportUpgradeStatus, Program.bind_eq, Program.bind_assoc]
  refine Program.Asks.bind (asks_updateUpgradeStatus upgradeId status ?_)
  intro start upgrade newState hget hstate hone _
  obtain ⟨hhost, hopen, -⟩ := of_reportedState hstate
  by_cases hterminal : newState.terminal = true
  · have hadds : (recordStatus hostId upgrade newState status.failureReason).Adds
        (Write.OpensNothing hostId) :=
      adds_recordStatus hostId upgrade newState _ (fun change hchange => by
        rwa [← hchange] at hterminal) fun _ => trivial
    exact .inl (hadds.bind fun row => adds_settleUpgrade row)
  · refine .inr (decides_recordStatus (readSettable_of_reportedState hstate)
      (by simpa using hterminal) ?_)
    obtain ⟨allowed, honly⟩ := hone
    have hallowed := honly upgrade.id
      ⟨upgrade, List.mem_of_find?_eq_some hget, rfl, hhost, hopen⟩
    rwa [hallowed] at honly

/-! ### Rolling back -/

theorem decides_openRollback (env : Environment) {original : HostUpgrade} (host : Host)
    (version url sha256 : String) {upgradeId : Uuid} {start : Db} {allowed : Option Uuid}
    (honly : start.OpenOnly hostId allowed)
    (hallowed : allowed = none ∨ allowed = some original.id ∧
      (original.state.terminal = false ∨ original.state = .succeeded)) :
    Decides hostId (.rollback upgradeId) start
      ((openRollback env original host version url sha256).bind fun upgrade =>
        (settleUpgrade upgrade).bind fun _ => .ret ()) := by
  refine ⟨allowed, honly, trivial, fun _ _ _ => ?_, fun s hbatch => ?_⟩
  · rw [markRolledBack]
    split
    · exact ⟨decided_settleUpgrade _, fun _ => trivial⟩
    · exact ⟨decided_settleUpgrade _, fun _ => trivial⟩
  · refine ensures_settled ((ensures_openRollback env original host _ _ _ hbatch).mono ?_)
    rintro s' result ⟨-, hopened⟩ value hvalue
    obtain ⟨row, now, -, hbatch', -⟩ := hopened value hvalue
    exact keepsOne_rollback hbatch' hallowed

theorem asks_rollbackOriginal {decides : Db → Service HostUpgrade → Prop} (env : Environment)
    (original : HostUpgrade)
    (hopen : ∀ db host version url sha256,
      (∀ pending, db.getNonTerminalForHost original.hostId = some pending →
        pending.id = original.id) →
      decides db (openRollback env original host version url sha256)) :
    (rollbackOriginal env original).Asks decides := by
  rw [rollbackOriginal]
  split
  · trivial
  · refine Program.asks_query_bind fun db => .inr ?_
    cases db.getHost original.hostId with
    | none => trivial
    | some host =>
        simp only
        split
        · trivial
        · refine Program.asks_query_bind fun db => ?_
          cases hpending : db.getNonTerminalForHost original.hostId with
          | none => exact .inl (hopen db host _ _ _ (by simp [hpending]))
          | some pending =>
              simp only
              split
              · exact .inr trivial
              · next hsame =>
                  refine .inl (hopen db host _ _ _ fun found hfound => ?_)
                  rw [hpending] at hfound
                  cases hfound
                  exact not_not.mp hsame
  · trivial

/-- What a rollback knows once it has read its upgrade. -/
theorem finds_rollbackOriginal (env : Environment) {upgradeId : Uuid} {original : HostUpgrade}
    {start : Db} (hget : start.getUpgrade upgradeId = some original) :
    Finds hostId (.rollback upgradeId) start
      ((rollbackOriginal env original).bind fun upgrade =>
        (settleUpgrade upgrade).bind fun _ => .ret ()) := by
  intro hids
  have hid : original.id = upgradeId := by simpa using List.find?_some hget
  by_cases hhost : original.hostId = hostId
  · refine .inr ?_
    by_cases hlasting : original.state.terminal = false ∨ original.state = .succeeded
    · refine ⟨none, by simp, Program.Asks.bind (asks_rollbackOriginal env original ?_)⟩
      intro db host version url sha256 hpending hone _
      have honly := openOnly_of_lookUp hone
      rw [← hhost] at honly
      refine .inr ?_
      cases hlook : db.getNonTerminalForHost original.hostId with
      | none =>
          rw [hlook] at honly
          exact hhost ▸ decides_openRollback env host version url sha256 honly (.inl rfl)
      | some pending =>
          rw [hlook, Option.map_some, hpending pending hlook] at honly
          exact hhost ▸ decides_openRollback env host version url sha256 honly (.inr ⟨rfl,
              hlasting⟩)
    · refine ⟨some upgradeId, ?_, Program.Asks.bind (asks_rollbackOriginal env original ?_)⟩
      · rintro _ ⟨⟩
        refine ⟨?_, rfl⟩
        rintro ⟨row, hrow, hrowId, -, hopen⟩
        obtain rfl := eq_of_getUpgrade hids hget hrow hrowId
        exact hlasting (.inl hopen)
      · intro db host version url sha256 hpending hone hclosed
        have honly := openOnly_of_lookUp hone
        rw [← hhost] at honly
        refine .inr ?_
        cases hlook : db.getNonTerminalForHost original.hostId with
        | none =>
            rw [hlook] at honly
            exact hhost ▸ decides_openRollback env host version url sha256 honly (.inl rfl)
        | some pending =>
            -- The upgrade was closed for good, and still is.
            have hmatch := List.find?_some hlook
            obtain ⟨hfoundHost, hfoundState⟩ := of_decide_eq_true hmatch
            refine (hclosed upgradeId rfl ⟨pending, List.mem_of_find?_eq_some hlook, ?_, ?_,
              hfoundState⟩).elim
            · exact (hpending pending hlook).trans hid
            · exact hfoundHost.trans hhost
  · -- The rollback of another host's upgrade opens nothing on this one.
    have hadds : (rollbackOriginal env original).Adds (Write.OpensNothing hostId) := by
      refine adds_rollbackOriginal env original (fun row hnew => .inl ?_) fun change hchange => ?_
      · rwa [hnew.host]
      · rw [Write.OpensNothing, hchange]
        rfl
    exact .inl (hadds.bind fun row => adds_settleUpgrade row)

theorem phase_rollback (env : Environment) (upgradeId : Uuid) (hbatch : s.batch = []) :
    UpgradePhase hostId (.rollback upgradeId) steps db
      ((UpgradeCall.rollback upgradeId).program env) s := by
  refine .finding ?_ hbatch
  rw [UpgradeCall.program, rollbackUpgradeEndpoint, Program.bind_eq, Program.bind_assoc]
  refine Program.Asks.bind (Program.asks_query_bind fun db => ?_)
  cases hget : db.getUpgrade upgradeId with
  | none => exact .inr trivial
  | some original => exact .inl (finds_rollbackOriginal env hget)

/-! ### Decommissioning -/

/-- Every call of the host starts in a phase. -/
theorem phase_start (env : Environment) (hcall : call.ForHost hostId) (draws : ℕ → Draw) :
    UpgradePhase hostId call 0 db (call.program env) (Session.start draws fun _ => none) := by
  cases call with
  | create id request =>
      obtain rfl : id = hostId := hcall
      exact phase_create env request rfl
  | report id upgradeId status =>
      obtain rfl : id = hostId := hcall
      exact phase_report env upgradeId status rfl
  | rollback upgradeId => exact phase_rollback env upgradeId rfl
  | decommission id reason =>
      refine .harmless (.inr ⟨adds_decommission env id reason fun write hwrite => ?_, by
        simp [Session.start, Session.batch]⟩)
      cases write <;> first | exact hwrite.elim | trivial

/-! ## Runs -/

/-- A known id is refused. -/
theorem refused_upgradeId (write : Write) (db : Db) (id : Uuid)
    (hinserted : (match write with
      | .insertUpgrade row => some row.id
      | _ => none) = some id)
    (hmem : id ∈ db.upgrades.map HostUpgrade.id) : store.refuses db write ≠ none := by
  cases write with
  | insertUpgrade row =>
      cases hinserted
      exact fun haccepted => fresh_of_accepted haccepted hmem
  | _ => cases hinserted

theorem waits_upgradeId (write other : Write) (id : Uuid)
    (hwrite : (match write with
      | .insertUpgrade row => some row.id
      | _ => none) = some id)
    (hother : (match other with
      | .insertUpgrade row => some row.id
      | _ => none) = some id) : store.waits write other = true := by
  cases write with
  | insertUpgrade row =>
      cases other with
      | insertUpgrade row' =>
          cases hwrite
          have hsame : row'.id = row.id := Option.some.inj hother
          simp [store, Write.waitsFor, hsame]
      | _ => cases hother
  | _ => cases hwrite

/-- The ids of the upgrades are a unique key. -/
def upgradeId : UniqueKey store Uuid where
  keys db := db.upgrades.map HostUpgrade.id
  inserted
    | .insertUpgrade row => some row.id
    | _ => none
  admits write := ¬ write.Purges
  keys_apply write db hkeeps := by
    cases write with
    | insertUpgrade row => simp [Write.apply]
    | purgeHost table id => exact (hkeeps trivial).elim
    | updateUpgrade id change =>
        simp only [store_apply, Write.apply, List.map_map, Option.toList_none, List.append_nil]
        refine List.map_congr_left fun row _ => ?_
        simp only [Function.comp_apply]
        split <;> rfl
    | failUpgrade id reason now =>
        simp only [store_apply, Write.apply, List.map_map, Option.toList_none, List.append_nil]
        refine List.map_congr_left fun row _ => ?_
        simp only [Function.comp_apply]
        split <;> rfl
    | _ => simp [Write.apply]
  refused := refused_upgradeId
  waits := waits_upgradeId

section Runs

variable {ι : Type} {call : ι → UpgradeCall}

/-- The steps of the runs with one open upgrade. A commit opens no upgrade of the host
while another call stands in its window, and reopens none whose rollback has begun. -/
def OpensAlone (hostId : Uuid) (call : ι → UpgradeCall)
    [DecidableEq ι] (σ : System ι Db Write ℤ Draw Failure Unit) (i : ι) : Prop :=
  ∀ next, σ.program i = .commit next → ∀ j, j ≠ i →
    ∀ id, (store.applyAll (σ.session i).batch σ.db).Open hostId id →
      ((call j).InWindow (σ.program j) ∨
        call j = .rollback id ∧ 0 < σ.history.count j ∧ ¬ (σ.program j).Quiet) →
      σ.db.Open hostId id

variable [DecidableEq ι] {env : Environment} {draws : ι → ℕ → Draw}
  {σ : System ι Db Write ℤ Draw Failure Unit}

/-- One step of a run keeps every call in its phases and one open upgrade at most. -/
theorem opensAlone_move {i : ι} (hids : (σ.db.upgrades.map HostUpgrade.id).Nodup)
    (hone : σ.db.OneOpenId hostId)
    (hphases : ∀ j, UpgradePhase hostId (call j) (σ.history.count j) σ.db (σ.program j)
      (σ.session j)) (hallowed : OpensAlone hostId call σ i) :
    (σ.move store i).db.OneOpenId hostId ∧ ∀ j, UpgradePhase hostId (call j)
      ((σ.move store i).history.count j) (σ.move store i).db ((σ.move store i).program j)
        ((σ.move store i).session j) := by
  refine @System.standing_move ι Db Write ℤ Draw Failure Unit _ store σ i
    (fun db => db.OneOpenId hostId)
    (fun j steps db p s => UpgradePhase hostId (call j) steps db p s)
    (fun _ _ _ _ _ hquiet => .harmless (.inl hquiet)) hone hphases ?_ ?_
  · intro p s db hstep
    exact (hphases i).advance hids hone hstep
  · intro next hcommit _ j hj
    refine (hphases j).frame (fun hwindow id hopen => ?_) fun id hcall hsteps hquiet hopen => ?_
    · exact hallowed next hcommit j hj id hopen (.inl hwindow)
    · exact hallowed next hcommit j hj id hopen (.inr ⟨hcall, hsteps, hquiet⟩)

/-- In a run of such steps no reachable state has two open upgrades of the host. -/
theorem oneOpenUpgrade_of_reachable (hids : (db.upgrades.map HostUpgrade.id).Nodup)
    (hstart : db.OneOpenUpgrade hostId) (hcalls : ∀ i, (call i).ForHost hostId)
    (hreach : System.Reachable store (OpensAlone hostId call)
      (System.start db (fun i => (call i).program env) draws) σ) :
    σ.db.OneOpenUpgrade hostId := by
  have hunique : ∀ {τ : System ι Db Write ℤ Draw Failure Unit},
      System.Reachable store (OpensAlone hostId call)
        (System.start db (fun i => (call i).program env) draws) τ →
          (τ.db.upgrades.map HostUpgrade.id).Nodup := by
    intro τ hτ
    exact upgradeId.nodup_of_reachable hτ
      (System.start_writes fun i => adds_upgradeCall env (call i))
      (UniqueKey.kept_start hids)
  have hboth : σ.db.OneOpenId hostId ∧ ∀ j, UpgradePhase hostId (call j) (σ.history.count j) σ.db
      (σ.program j) (σ.session j) := by
    induction hreach with
    | start =>
        exact ⟨oneOpenId_of_oneOpenUpgrade hstart, fun j => phase_start env (hcalls j) (draws j)⟩
    | step hreach _ hallowed ih => exact opensAlone_move (hunique hreach) ih.1 ih.2 hallowed
  exact oneOpenUpgrade_of_oneOpenId (hunique hreach) hboth.1

end Runs

/-! ## Two open upgrades -/

/-- Any number of requests for an upgrade of the sample host. -/
def sampleCreations {ι : Type} (draws : ι → ℕ → Draw) :
    System ι Db Write ℤ Draw Failure Unit :=
  System.start sampleDb
    (fun _ => (UpgradeCall.create sampleHost.id sampleUpgrade).program sampleEnvironment) draws

/-- A commit finds the other request in front of a query, or at its end. -/
def outsideWindow (σ : System Bool Db Write ℤ Draw Failure Unit) (first : Bool) : Bool :=
  !(σ.program first).atCommit || decide (σ.program !first).AtQuery ||
    decide (σ.program !first).Finished

/-- The second request has looked at the host when the first one commits: it finds the upgrade
that is open by then. -/
theorem oneOpenUpgrade_of_reachable_sample :
    ∃ σ, System.play store (false :: List.replicate 9 true ++ List.replicate 4 false)
        (sampleCreations fun first : Bool => sampleDraws (if first then 100 else 200)) = some σ ∧
      σ.program true = .ret () ∧
      σ.program false = .raise (.upgrade (.pendingUpgrade .approved)) ∧
      σ.db.OneOpenUpgrade sampleHost.id := by
  obtain ⟨σ, hplay, hfirst, hsecond⟩ : ∃ σ,
      System.play store (false :: List.replicate 9 true ++ List.replicate 4 false)
        (sampleCreations fun first : Bool => sampleDraws (if first then 100 else 200)) = some σ ∧
      σ.program true = .ret () ∧
      σ.program false = .raise (.upgrade (.pendingUpgrade .approved)) := ⟨_, rfl, rfl, rfl⟩
  have hcalls : ∀ _ : Bool,
      (UpgradeCall.create sampleHost.id sampleUpgrade).ForHost sampleHost.id := fun _ => rfl
  have hreach : System.Reachable store
      (OpensAlone sampleHost.id fun _ => .create sampleHost.id sampleUpgrade)
      (sampleCreations fun first : Bool => sampleDraws (if first then 100 else 200)) σ := by
    refine System.Reachable.of_play_tested .start (fun υ i _ htest => ?_)
      (rfl : System.tested store outsideWindow _ _ = true) hplay
    intro next hcommit j hj id _ hwindow
    obtain rfl := Bool.eq_not.mpr hj
    have htest : (υ.program !i).AtQuery ∨ (υ.program !i).Finished := by
      simpa [outsideWindow, hcommit, Program.atCommit] using htest
    rcases hwindow with ⟨-, hdecided, hquiet⟩ | ⟨hrollback, -⟩
    · rcases htest with hquery | hfinished
      · exact (hdecided.not_atQuery hquiet hquery).elim
      · exact (hquiet hfinished.quiet).elim
    · cases hrollback
  exact ⟨σ, hplay, hfirst, hsecond, oneOpenUpgrade_of_reachable (by decide) (by decide) hcalls
    hreach⟩

/-- Two requests look for an open upgrade before either commits, and both open one. -/
theorem twoOpenUpgrades_reachable :
    sampleDb.OneOpenUpgrade sampleHost.id ∧
      ∃ σ, System.Reachable store System.anyOrder
          (sampleCreations fun first : Bool => sampleDraws (if first then 100 else 200)) σ ∧
        ¬ σ.db.OneOpenUpgrade sampleHost.id := by
  obtain ⟨σ, hplay, hdouble⟩ : ∃ σ, System.play store
      (true :: true :: List.replicate 9 false ++ List.replicate 7 true)
      (sampleCreations fun first : Bool => sampleDraws (if first then 100 else 200)) =
        some σ ∧ ¬ σ.db.OneOpenUpgrade sampleHost.id := ⟨_, rfl, by decide⟩
  exact ⟨by decide, σ, System.Reachable.of_play .start hplay, hdouble⟩

end Central
