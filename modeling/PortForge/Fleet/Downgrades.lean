/-
# Downgrades

The response to a heartbeat allows a downgrade whenever the upgrade it carries targets a
version that is older than the one on file for the host. A request for such an upgrade is
refused when it is made, but the version on file is the one the agent reported last. So in
a run in which no agent reports a new version while an upgrade waits for it that is older,
only rollbacks are delivered with the permission; an agent that was upgraded by hand past
a waiting upgrade is allowed to install it.
-/

import PortForge.Fleet.UpgradeRedelivery
import PortForge.Transaction.Provenance
import PortForge.Transaction.Turns

namespace Fleet

open Transaction Central

/-- A call on the upgrades of the fleet, or the heartbeat of an agent. -/
inductive DeliveryCall
  | create (hostId : Uuid) (request : UpgradeIn)
  | report (hostId upgradeId : Uuid) (status : UpgradeStatusIn)
  | rollback (upgradeId : Uuid)
  | heartbeat (hostId : Uuid) (heartbeat : HeartbeatIn)

/-- What a call runs. Only a heartbeat's response is looked at. -/
def DeliveryCall.program (env : Environment) : DeliveryCall → Service (Option HeartbeatOut)
  | create hostId request => (createUpgradeEndpoint env hostId request).bind fun _ => .ret none
  | report hostId upgradeId status =>
      (reportUpgradeStatus hostId upgradeId status).bind fun _ => .ret none
  | rollback upgradeId => (rollbackUpgradeEndpoint env upgradeId).bind fun _ => .ret none
  | heartbeat hostId beat => (heartbeatEndpoint env hostId beat).bind fun out => .ret (some out)

/-- The target is older than the version, where there is one. -/
def olderThan (env : Environment) (target : String) (version : Option String) : Bool :=
  match given version with
  | none => false
  | some agentVersion => versionCompare env target agentVersion < 0

/-! ## What the calls write -/

/-- The write opens an upgrade, or goes on with one, or is an error shown on a host. -/
def IsUpgrading : Write → Prop
  | .insertUpgrade _ => True
  | .updateUpgrade _ change => change.state ≠ .approved ∧ change.state ≠ .waitingForAgent
  | .setHostError _ _ => True
  | _ => False

/-- An upgrade that is opened on the contents is not older than its host. -/
def NotOlder (env : Environment) (db : Db) : Write → Prop
  | .insertUpgrade row =>
      ∀ host, db.getHost row.hostId = some host →
        olderThan env row.targetVersion host.agentVersion = false
  | _ => True

section Adds

variable {env : Environment} {P : Write → Prop} {α : Type}

/-- A report opens no upgrade. -/
theorem isUpgrading_report (hostId upgradeId : Uuid) (status : UpgradeStatusIn) :
    ((DeliveryCall.report hostId upgradeId status).program env).Adds
      fun write => IsUpgrading write ∧ ∀ row, write ≠ .insertUpgrade row := by
  rw [DeliveryCall.program, reportUpgradeStatus, Program.bind_eq, Program.bind_assoc]
  refine Program.Adds.bind ?_ fun row => adds_settleUpgrade row
  apply adds_updateUpgradeStatus hostId upgradeId status ?_
    fun _ => ⟨trivial, fun _ hinsert => by cases hinsert⟩
  intro upgrade newState hstate change hchange
  have hsettable : newState ∈ agentSettable := (of_reportedState hstate).2.2.1
  refine ⟨?_, fun _ hinsert => by cases hinsert⟩
  rw [IsUpgrading, hchange]
  constructor <;> rintro rfl <;> exact absurd hsettable (by decide)

theorem isUpgrading_rollback (upgradeId : Uuid) :
    ((DeliveryCall.rollback upgradeId).program env).Adds IsUpgrading := by
  rw [DeliveryCall.program, rollbackUpgradeEndpoint, Program.bind_eq, Program.bind_assoc]
  refine Program.Adds.bind ?_ fun row => adds_settleUpgrade row
  refine Program.Adds.bind observes_select.adds fun row => ?_
  cases row with
  | none => trivial
  | some original =>
      refine adds_rollbackOriginal env original (fun _ _ => trivial) fun change hchange => ?_
      simp [IsUpgrading, hchange]

theorem adds_requestedUpgrade (host : Host) (request : UpgradeIn)
    (hinsert : ∀ id now createdAt,
      P (.insertUpgrade (requestedUpgrade env host request id now createdAt))) :
    (openUnlessPending env host request).Adds P := by
  refine Program.Adds.bind observes_select.adds fun pending => ?_
  cases pending with
  | some upgrade => trivial
  | none =>
      intro now id createdAt
      refine ⟨hinsert _ _ _, ?_⟩
      exact Program.Adds.bind trivial fun _ => Program.Adds.bind adds_flush fun _ => trivial

end Adds

/-- A request that runs alone opens no upgrade that is older than the host on file. -/
theorem ensures_create (env : Environment) (hostId : Uuid) (request : UpgradeIn) (db : Db)
    (draws : ℕ → Draw) (faults : ℕ → Option DbError) :
    ((DeliveryCall.create hostId request).program env).Ensures store (Program.alone store db)
      (fun _ => True) (Session.start draws faults) fun s' _ =>
        ∀ write ∈ s'.committedWrites, IsUpgrading write ∧ NotOlder env db write := by
  have hblank := blank_start draws faults
  have hkeeps {p : Service (Option HeartbeatOut)}
      (hp : p.Adds fun write => IsUpgrading write ∧ NotOlder env db write) :
      p.Ensures store (Program.alone store db) (fun _ => True) (Session.start draws faults)
        fun s' _ => ∀ write ∈ s'.committedWrites, IsUpgrading write ∧ NotOlder env db write :=
    Program.Keeps.ensures ⟨hp, by simp [hblank.batch], by simp⟩
  simp only [DeliveryCall.program, createUpgradeEndpoint, createUpgrade, Program.bind_eq,
    Program.bind_assoc]
  rw [Program.ensures_bind, ensures_select]
  intro seen hseen
  rw [hblank.view_eq hseen]
  cases hhost : db.getHost hostId with
  | none => exact hkeeps trivial
  | some host =>
      have hid : host.id = hostId := by simpa using List.find?_some hhost
      simp only
      split
      · exact hkeeps trivial
      · refine hkeeps ?_
        rw [Program.bind_assoc]
        refine (observes_findRequested hostId request.requestId).adds.bind fun existing => ?_
        cases existing with
        | some upgrade => exact adds_settleUpgrade upgrade
        | none =>
            simp only [Program.bind_assoc]
            rw [refuseDowngrade]
            have hopens (hfits : olderThan env request.targetVersion host.agentVersion = false) :
                ((checkArtifact env.settings request).bind fun _ =>
                  (openUnlessPending env host request).bind fun upgrade =>
                    (settleUpgrade upgrade).bind fun _ =>
                      (.ret none : Service (Option HeartbeatOut))).Adds
                  fun write => IsUpgrading write ∧ NotOlder env db write := by
              refine (observes_checkArtifact env.settings request).adds.bind fun _ => ?_
              refine Program.Adds.bind ?_ fun row => adds_settleUpgrade row
              refine adds_requestedUpgrade host request fun _ _ _ => ⟨trivial, ?_⟩
              intro other hother
              obtain rfl : host = other := by
                change db.getHost host.id = some other at hother
                rw [hid, hhost] at hother
                exact Option.some.inj hother
              exact hfits
            split
            · next hnone => exact hopens (by rw [olderThan, hnone])
            · next agentVersion hsome =>
                split
                · trivial
                · next hnot => exact hopens (by simp [olderThan, hsome, hnot])

/-! ## What the writes leave -/

section Writes

variable {db : Db} {writes : List Write}

/-- No write of a request changes the version that is on file for a host. -/
theorem version_applyAll (h : ∀ write ∈ writes, IsUpgrading write) (hostId : Uuid) :
    ((store.applyAll writes db).getHost hostId).map Host.agentVersion =
      (db.getHost hostId).map Host.agentVersion := by
  refine Store.applyAll_induction store (motive := fun contents =>
    (contents.getHost hostId).map Host.agentVersion = (db.getHost hostId).map Host.agentVersion)
    rfl fun write hwrite contents hcontents => ?_
  rw [← hcontents]
  have hkind := h write hwrite
  cases write with
  | insertUpgrade row | updateUpgrade id change => rfl
  | setHostError id lastError =>
      rw [show ((store.apply (.setHostError id lastError) contents).getHost hostId) = _ from
        Db.getHost_map (fun host => by split <;> rfl) rfl hostId, Option.map_map]
      congr 1
      funext host
      simp only [Function.comp]
      split <;> rfl
  | _ => exact hkind.elim

/-- A waiting upgrade was waiting before the writes of a request, or they have opened it. -/
theorem deliverable_applyAll (h : ∀ write ∈ writes, IsUpgrading write) :
    ∀ row ∈ (store.applyAll writes db).upgrades, Deliverable row →
      ∃ old, (old ∈ db.upgrades ∧ Deliverable old ∨ .insertUpgrade old ∈ writes) ∧
        old.id = row.id ∧ old.hostId = row.hostId ∧ old.targetVersion = row.targetVersion := by
  refine Store.applyAll_induction store (motive := fun contents => ∀ row ∈ contents.upgrades,
    Deliverable row → ∃ old, (old ∈ db.upgrades ∧ Deliverable old ∨ .insertUpgrade old ∈ writes) ∧
      old.id = row.id ∧ old.hostId = row.hostId ∧ old.targetVersion = row.targetVersion)
    (fun row hrow hwaits => ⟨row, .inl ⟨hrow, hwaits⟩, rfl, rfl, rfl⟩)
    fun write hwrite contents hcontents row hrow hwaits => ?_
  have hkind := h write hwrite
  cases write with
  | insertUpgrade new =>
      rcases List.mem_append.mp hrow with hold | hnew
      · exact hcontents row hold hwaits
      · obtain rfl := List.mem_singleton.mp hnew
        exact ⟨row, .inr hwrite, rfl, rfl, rfl⟩
  | updateUpgrade id change =>
      obtain ⟨old, hold, rfl⟩ := List.mem_map.mp hrow
      split at hwaits
      · rcases hwaits with hstate | hstate
        · exact (hkind.1 hstate).elim
        · exact (hkind.2 hstate).elim
      · next hother =>
          rw [if_neg hother]
          exact hcontents old hold hwaits
  | setHostError id lastError => exact hcontents row hrow hwaits
  | _ => exact hkind.elim

end Writes

/-! ## Heartbeats -/

section Heartbeats

variable {env : Environment} {hostId : Uuid} {beat : HeartbeatIn} {db : Db}

/-- The write sets the version of the host to the reported one, and no other version. -/
def ReportsVersion (hostId : Uuid) (version : Option String) : Write → Prop
  | .insertHost row => row.id = hostId ∧ row.agentVersion = version
  | .reportHost id report _ => id = hostId ∧ report.agentVersion = version
  | .insertActivity _ => True
  | .deliverProbe _ _ => True
  | _ => False

theorem reportsVersion_heartbeat (env : Environment) (hostId : Uuid) (beat : HeartbeatIn) :
    (heartbeatEndpoint env hostId beat).Adds (ReportsVersion hostId beat.report.agentVersion) :=
  adds_heartbeat (⟨rfl, rfl⟩) ⟨rfl, rfl⟩ (fun _ => trivial) fun _ _ => trivial

/-- The version on file for a host after a heartbeat was there before, or was reported. -/
theorem version_heartbeat (draws : ℕ → Draw) (faults : ℕ → Option DbError) :
    ∀ id host, ((heartbeatEndpoint env hostId beat).exec store (Session.start draws faults)
        db).db.getHost id = some host →
      (∃ old, db.getHost id = some old ∧ old.agentVersion = host.agentVersion) ∨
        id = hostId ∧ host.agentVersion = beat.report.agentVersion := by
  refine (reportsVersion_heartbeat env hostId beat).exec_induction
    (motive := fun contents => ∀ id host, contents.getHost id = some host →
      (∃ old, db.getHost id = some old ∧ old.agentVersion = host.agentVersion) ∨
        id = hostId ∧ host.agentVersion = beat.report.agentVersion)
    (s := Session.start draws faults) (by simp [Session.start, Session.batch])
    (fun id host hhost => .inl ⟨host, hhost, rfl⟩)
    fun write contents hwrite hcontents id host hhost => ?_
  cases write with
  | insertHost row =>
      change (contents.hosts ++ [row]).find? _ = some host at hhost
      rw [List.find?_append, Option.or_eq_some_iff] at hhost
      rcases hhost with hold | ⟨-, hnew⟩
      · exact hcontents id host hold
      · obtain rfl := List.mem_singleton.mp (List.mem_of_find?_eq_some hnew)
        have hid : host.id = id := by simpa using List.find?_some hnew
        exact .inr ⟨hid.symm.trans hwrite.1, hwrite.2⟩
  | reportHost target report now =>
      rw [show ((store.apply (.reportHost target report now) contents).getHost id) = _ from
        Db.getHost_map (fun host => by split <;> rfl) rfl id] at hhost
      obtain ⟨old, hold, rfl⟩ := Option.map_eq_some_iff.mp hhost
      have hid : old.id = id := by simpa using List.find?_some hold
      split
      · next hsame => exact .inr ⟨hid.symm.trans (hsame.trans hwrite.1), hwrite.2⟩
      · exact hcontents id old hold
  | insertActivity event | deliverProbe probeId now => exact hcontents id host hhost
  | _ => exact hwrite.elim

section Alone

variable {guar : ServiceSession → Prop} {s : ServiceSession}

/-- The session has nothing open, and the host is on file in what it has left. -/
structure Refreshed (db : Db) (hostId : Uuid) (host : Host) (s : ServiceSession) : Prop where
  batch : s.batch = []
  onFile : (store.applyAll s.committedWrites db).getHost hostId = some host

theorem Refreshed.view_eq {host : Host} (h : Refreshed db hostId host s) {seen : Db}
    (hseen : Program.alone store db s seen) :
    s.view store seen = store.applyAll s.committedWrites db := by
  have hflushed : s.flushed = [] := (List.append_eq_nil_iff.mp h.batch).1
  rw [Session.view_of_flushed_nil store hflushed, hseen]

theorem refreshed_commit (hostId : Uuid) :
    (commit.bind fun _ => (refreshHost hostId).bind fun host =>
      whenReadable host.readable (pure host)).Ensures store (Program.alone store db)
      (fun _ => True) s fun s' result => ∀ host, result = .ok host →
        Refreshed db hostId host s' := by
  rw [Program.ensures_bind, Central.ensures_commit]
  refine ⟨trivial, fun _ _ _ => ?_, fun _ _ _ _ _ herror => by cases herror⟩
  simp only [refreshHost, Program.bind_eq, Program.ensures_bind, ensures_select]
  intro seen hseen
  rw [Session.view_of_flushed_nil store (Session.afterCommit_flushed s), hseen]
  cases hget : (store.applyAll s.afterCommit.committedWrites db).getHost hostId with
  | none =>
      rintro found ⟨⟩
  | some host =>
      refine ensures_whenReadable (fun _ => ?_) (by rintro found ⟨⟩)
      rintro found ⟨⟩
      exact ⟨rfl, hget⟩

theorem refreshed_recordHeartbeat (env : Environment) (hostId : Uuid) (beat : HeartbeatIn) :
    (recordHeartbeat env hostId beat).Ensures store (Program.alone store db) (fun _ => True) s
      fun s' result => ∀ host, result = .ok host → Refreshed db hostId host s' := by
  have hany {α : Type} (p : Service α) (s : ServiceSession) :
      p.Ensures store (Program.alone store db) (fun _ => True) s fun _ _ => True :=
    ((Program.adds_true p).ensures fun _ _ => trivial).mono fun _ _ _ => trivial
  have hraised (s' : ServiceSession) (error : Failure) (_ : True) (host : Host)
      (herror : (.error error : Except Failure Host) = .ok host) : Refreshed db hostId host s' := by
    cases herror
  refine Program.Ensures.bind (hany _ s) (fun s₁ existing _ => ?_) hraised
  refine ensures_whenReadable (fun _ => ?_) (hraised s₁ _ trivial)
  refine Program.Ensures.bind (hany _ s₁) (fun s₂ offline _ => ?_) hraised
  refine Program.Ensures.bind (hany _ s₂) (fun s₃ _ _ => ?_) hraised
  refine Program.Ensures.bind (hany _ s₃) (fun s₄ _ _ => ?_) hraised
  exact refreshed_commit hostId

theorem hosts_deliver {writes : List Write} {contents : Db}
    (h : ∀ write ∈ writes, ∃ id now, write = .deliverProbe id now) :
    (store.applyAll writes contents).hosts = contents.hosts := by
  refine Store.applyAll_induction store (motive := fun later => later.hosts = contents.hosts)
    rfl fun write hwrite later hlater => ?_
  obtain ⟨id, now, rfl⟩ := h write hwrite
  exact hlater

theorem ensures_deliverProbes (now : ℤ) (probes : List HostProbe)
    {rely : ServiceSession → Db → Prop} {post : ServiceSession → Except Failure Unit → Prop}
    (h : post { s with pending := s.pending ++ probes.map fun probe => .deliverProbe probe.id now }
      (.ok ())) : (deliverProbes now probes).Ensures store rely guar s post := by
  induction probes generalizing s with
  | nil =>
      rw [deliverProbes, Program.pure_eq_ret, Program.ensures_ret]
      simpa using h
  | cons probe probes ih =>
      simp only [deliverProbes, Program.bind_eq, Program.ensures_bind, ensures_add]
      refine ih ?_
      simpa [Session.afterAdd] using h

/-- The delivery of the probes leaves the host as it was refreshed. -/
theorem refreshed_claimPendingProbes {host : Host} (h : Refreshed db hostId host s) :
    (claimPendingProbes env hostId).Ensures store (Program.alone store db) (fun _ => True) s
      fun s' result => ∀ delivered, result = .ok delivered → Refreshed db hostId host s' := by
  obtain ⟨hflushed, hpending⟩ := List.append_eq_nil_iff.mp h.batch
  simp only [claimPendingProbes, Program.bind_eq, Program.ensures_bind, ensures_clock,
    ensures_select]
  intro seen hseen
  refine ensures_deliverProbes _ _ ?_
  simp only
  generalize (s.afterDraw.view store seen).listPendingProbes hostId _ _ = pending
  split
  · next hnone =>
      rintro delivered ⟨⟩
      rw [hnone]
      exact ⟨by simp [Session.batch, hflushed, hpending], h.onFile⟩
  · rw [Program.ensures_bind, Central.ensures_commit]
    refine ⟨trivial, fun _ _ _ => ?_, fun _ _ _ _ _ herror => by cases herror⟩
    rintro delivered ⟨⟩
    refine ⟨rfl, ?_⟩
    rw [Session.committedWrites_afterCommit, Store.applyAll_append, Db.getHost, hosts_deliver]
    · exact h.onFile
    · intro write hwrite
      obtain ⟨probe, -, rfl⟩ :
          ∃ probe ∈ pending, write = .deliverProbe probe.id (s.draws 0).now := by
        simpa [Session.batch, hflushed, hpending, eq_comm] using hwrite
      exact ⟨_, _, rfl⟩

end Alone

/-- What a heartbeat that runs alone delivers is the oldest upgrade that waits for its host
afterwards, compared with the version that is on file afterwards. -/
theorem delivered_alone (draws : ℕ → Draw) (faults : ℕ → Option DbError) (out : HeartbeatOut)
    (hout : ((heartbeatEndpoint env hostId beat).exec store (Session.start draws faults)
      db).result = .ok out) :
    ∃ host, ((heartbeatEndpoint env hostId beat).exec store (Session.start draws faults)
        db).db.getHost hostId = some host ∧
      out.pendingUpgrade = (((heartbeatEndpoint env hostId beat).exec store
        (Session.start draws faults) db).db.getPendingForHost hostId).map
          (pendingUpgrade env host) := by
  have hensures : (heartbeatEndpoint env hostId beat).Ensures store (Program.alone store db)
      (fun _ => True) (Session.start draws faults) fun s' result => ∀ out, result = .ok out →
        ∃ host, (store.applyAll s'.committedWrites db).getHost hostId = some host ∧
          out.pendingUpgrade = ((store.applyAll s'.committedWrites db).getPendingForHost
            hostId).map (pendingUpgrade env host) := by
    refine Program.Ensures.bind (refreshed_recordHeartbeat env hostId beat)
      (fun s₁ host hhost => ?_) fun _ _ _ => nofun
    refine Program.Ensures.bind (refreshed_claimPendingProbes (hhost host rfl))
      (fun s₂ delivered hdelivered => ?_) fun _ _ _ => nofun
    have hrefreshed := hdelivered delivered rfl
    simp only [Program.bind_eq, Program.ensures_bind, ensures_select]
    intro seen hseen
    rw [hrefreshed.view_eq hseen]
    rintro out ⟨⟩
    exact ⟨host, hrefreshed.onFile, rfl⟩
  obtain ⟨hpost, halone⟩ := hensures.exec_start
  rw [show _ = _ from halone]
  exact hpost out hout

theorem getPendingForHost_host {row : HostUpgrade}
    (h : db.getPendingForHost hostId = some row) : row.hostId = hostId := by
  have hsorted := List.mem_of_mem_head? h
  rw [List.mem_insertionSort, List.mem_filter, decide_eq_true_iff] at hsorted
  exact hsorted.2.1

end Heartbeats

/-! ## Runs -/

section Runs

variable {env : Environment} {made : List Uuid} {db : Db} {turn : Turn DeliveryCall Draw}

/-- The upgrades a rollback inserts; other calls roll nothing back. -/
def rolledBackBy (env : Environment) (turn : Turn DeliveryCall Draw) (db : Db) : List Uuid :=
  match turn.call with
  | .rollback _ =>
      (turn.run store (DeliveryCall.program env) db).session.committedWrites.filterMap fun write =>
        match write with
        | .insertUpgrade row => some row.id
        | _ => none
  | _ => []

/-- The upgrades that the rollbacks of a sequence of turns insert. -/
def rolledBackIn (env : Environment) : List (Turn DeliveryCall Draw) → Db → List Uuid
  | [], _ => []
  | turn :: turns, db =>
      rolledBackBy env turn db ++
        rolledBackIn env turns (turn.next store (DeliveryCall.program env) db)

theorem rolledBackIn_concat (turns : List (Turn DeliveryCall Draw)) (last : Turn DeliveryCall Draw)
    (db : Db) :
    rolledBackIn env (turns ++ [last]) db = rolledBackIn env turns db ++
      rolledBackBy env last (Turn.runAll store (DeliveryCall.program env) turns db) := by
  induction turns generalizing db with
  | nil => simp [rolledBackIn]
  | cons turn turns ih => simp [rolledBackIn, ih]

/-- An agent reports the version on file for its host, or one that is not newer than the target
of any upgrade that waits for it, rollbacks apart. -/
def NotOutrun (env : Environment) (made : List Uuid) (db : Db) (turn : Turn DeliveryCall Draw) :
    Prop :=
  ∀ hostId beat, turn.call = .heartbeat hostId beat →
    (∃ host, db.getHost hostId = some host ∧ host.agentVersion = beat.report.agentVersion) ∨
      ∀ row ∈ db.upgrades, row.hostId = hostId → Deliverable row →
        row.id ∈ made ∨ olderThan env row.targetVersion beat.report.agentVersion = false

/-- No upgrade that waits is older than its host, rollbacks apart. -/
def NoneOlder (env : Environment) (made : List Uuid) (db : Db) : Prop :=
  ∀ row ∈ db.upgrades, Deliverable row → row.id ∈ made ∨
    ∀ host, db.getHost row.hostId = some host →
      olderThan env row.targetVersion host.agentVersion = false

/-- The writes of a request leave no older upgrade waiting, where those they open are not older
or rolled back. -/
theorem NoneOlder.applyAll {back : List Uuid} {writes : List Write} (h : NoneOlder env made db)
    (hwrites : ∀ write ∈ writes, IsUpgrading write)
    (hopened : ∀ row, .insertUpgrade row ∈ writes → row.id ∈ back ∨
      NotOlder env db (.insertUpgrade row)) :
    NoneOlder env (made ++ back) (store.applyAll writes db) := by
  intro row hrow hwaits
  obtain ⟨old, hold, hid, hsame, htarget⟩ := deliverable_applyAll hwrites row hrow hwaits
  have hknown : old.id ∈ made ++ back ∨ NotOlder env db (.insertUpgrade old) := by
    rcases hold with ⟨hmem, hwaited⟩ | hnew
    · exact (h old hmem hwaited).imp (List.mem_append_left _) id
    · exact (hopened old hnew).imp (List.mem_append_right _) id
  rw [← hid, ← hsame, ← htarget]
  refine hknown.imp id fun hfits host hhost => ?_
  -- The version on file is the one the upgrade was opened under.
  have hversion : ((store.applyAll writes db).getHost old.hostId).map Host.agentVersion =
      (db.getHost old.hostId).map Host.agentVersion := version_applyAll hwrites old.hostId
  rw [hhost] at hversion
  obtain ⟨before, hbefore, hagent⟩ := Option.map_eq_some_iff.mp hversion.symm
  rw [← hagent]
  exact hfits before hbefore

/-- A heartbeat's turn is the endpoint, run alone. -/
theorem run_heartbeat {hostId : Uuid} {beat : HeartbeatIn}
    (hcall : turn.call = .heartbeat hostId beat) (db : Db) :
    let run := (heartbeatEndpoint env hostId beat).exec store
      (Session.start turn.draws turn.faults) db
    turn.next store (DeliveryCall.program env) db = run.db ∧
      turn.answer store (DeliveryCall.program env) db = run.result.map some := by
  rw [Turn.next, Turn.answer, Turn.run, hcall, DeliveryCall.program, Program.exec_bind]
  generalize (heartbeatEndpoint env hostId beat).exec store
    (Session.start turn.draws turn.faults) db = run
  obtain ⟨_ | out, session, contents⟩ := run <;> exact ⟨rfl, rfl⟩

theorem NoneOlder.heartbeat {hostId : Uuid} {beat : HeartbeatIn} (h : NoneOlder env made db)
    (hcall : turn.call = .heartbeat hostId beat) (hkept : NotOutrun env made db turn) :
    NoneOlder env made (turn.next store (DeliveryCall.program env) db) := by
  rw [(run_heartbeat hcall db).1]
  intro row hrow hwaits
  rw [upgrades_heartbeat] at hrow
  rcases h row hrow hwaits with hmade | hfits
  · exact .inl hmade
  · by_cases hmade : row.id ∈ made
    · exact .inl hmade
    · refine .inr fun host hhost => ?_
      rcases version_heartbeat turn.draws turn.faults row.hostId host hhost with
        ⟨old, hold, hsame⟩ | ⟨rfl, hreported⟩
      · rw [← hsame]
        exact hfits old hold
      · rw [hreported]
        rcases hkept row.hostId beat hcall with ⟨old, hold, hsame⟩ | hnewer
        · rw [← hsame]
          exact hfits old hold
        · exact (hnewer row hrow rfl hwaits).resolve_left hmade

/-- One turn leaves no older upgrade waiting, rollbacks apart. -/
theorem NoneOlder.next (h : NoneOlder env made db) (hkept : NotOutrun env made db turn) :
    NoneOlder env (made ++ rolledBackBy env turn db)
      (turn.next store (DeliveryCall.program env) db) := by
  let run := turn.run store (DeliveryCall.program env) db
  have halone {P : Write → Prop} (hadds : ((turn.call).program env).Adds P) :
      (∀ write ∈ run.session.committedWrites, P write) ∧
        turn.next store (DeliveryCall.program env) db =
          store.applyAll run.session.committedWrites db :=
    (Program.Keeps.ensures ⟨hadds, by simp [Session.start, Session.batch], by simp⟩).exec_start
  cases hcall : turn.call with
  | create hostId request =>
      obtain ⟨s, hnext, hwrites⟩ := turn.next_eq_of_ensures
        (hcall ▸ ensures_create env hostId request db turn.draws turn.faults)
      rw [hnext]
      exact h.applyAll (fun write hwrite => (hwrites write hwrite).1)
        fun row hrow => .inr (hwrites _ hrow).2
  | report hostId upgradeId status =>
      obtain ⟨hwrites, halone⟩ := halone (hcall ▸ isUpgrading_report hostId upgradeId status)
      rw [halone]
      exact h.applyAll (fun write hwrite => (hwrites write hwrite).1)
        fun row hrow => ((hwrites _ hrow).2 row rfl).elim
  | rollback upgradeId =>
      obtain ⟨hwrites, halone⟩ := halone (hcall ▸ isUpgrading_rollback upgradeId)
      rw [halone]
      refine h.applyAll hwrites fun row hrow => .inl ?_
      rw [rolledBackBy, hcall]
      exact List.mem_filterMap.mpr ⟨.insertUpgrade row, hrow, rfl⟩
  | heartbeat hostId beat =>
      have hnothing : rolledBackBy env turn db = [] := by rw [rolledBackBy, hcall]
      rw [hnothing, List.append_nil]
      exact h.heartbeat hcall hkept

theorem noneOlder_runAll (hstart : db.upgrades = []) (turns : List (Turn DeliveryCall Draw))
    (hrun : ∀ before turn after, turns = before ++ turn :: after →
      NotOutrun env (rolledBackIn env before db)
        (Turn.runAll store (DeliveryCall.program env) before db) turn) :
    NoneOlder env (rolledBackIn env turns db)
      (Turn.runAll store (DeliveryCall.program env) turns db) := by
  induction turns using List.reverseRecOn with
  | nil =>
      intro row hrow
      rw [Turn.runAll_nil, hstart] at hrow
      cases hrow
  | append_singleton turns last ih =>
      rw [rolledBackIn_concat, Turn.runAll_append, Turn.runAll_cons, Turn.runAll_nil]
      refine (ih fun before turn after hsplit => ?_).next (hrun turns last [] rfl)
      refine hrun before turn (after ++ [last]) ?_
      rw [hsplit, List.append_assoc, List.cons_append]

/-- Downgrades only by rollback. In every sequence of calls from a registry without upgrades in
which no agent outruns an upgrade that waits for it, a heartbeat's response allows a downgrade
only for an upgrade that a rollback of the sequence has inserted. -/
theorem downgrades_only_by_rollback (env : Environment) (db : Db) (hstart : db.upgrades = [])
    (turns : List (Turn DeliveryCall Draw))
    (hrun : ∀ before turn after, turns = before ++ turn :: after →
      NotOutrun env (rolledBackIn env before db)
        (Turn.runAll store (DeliveryCall.program env) before db) turn)
    (before after : List (Turn DeliveryCall Draw)) (turn : Turn DeliveryCall Draw)
    (hsplit : turns = before ++ turn :: after) (out : HeartbeatOut)
    (hanswer : turn.answer store (DeliveryCall.program env)
      (Turn.runAll store (DeliveryCall.program env) before db) = .ok (some out))
    (pending : PendingUpgrade) (hpending : out.pendingUpgrade = some pending)
    (hallowed : pending.allowDowngrade = true) :
    pending.id ∈ rolledBackIn env before db := by
  let contents := Turn.runAll store (DeliveryCall.program env) before db
  have hbefore : NoneOlder env (rolledBackIn env before db) contents := by
    refine noneOlder_runAll hstart before fun first next rest hfirst => ?_
    refine hrun first next (rest ++ turn :: after) ?_
    rw [hsplit, hfirst, List.append_assoc, List.cons_append]
  have hkept := hrun before turn after hsplit
  cases hcall : turn.call with
  | heartbeat hostId beat =>
      obtain ⟨hnext, hresult⟩ := run_heartbeat hcall contents
      have hafter := hbefore.heartbeat hcall hkept
      rw [hnext] at hafter
      have hout := hresult.symm.trans hanswer
      obtain ⟨host, hhost, hdelivered⟩ := delivered_alone turn.draws turn.faults out (by
        cases hrun : ((heartbeatEndpoint env hostId beat).exec store
            (Session.start turn.draws turn.faults) contents).result with
        | error error =>
            rw [hrun] at hout
            cases hout
        | ok found =>
            rw [hrun] at hout
            cases hout
            rfl)
      rw [hpending] at hdelivered
      obtain ⟨row, hrow, hsame⟩ := Option.map_eq_some_iff.mp hdelivered.symm
      obtain ⟨hmem, hwaits⟩ := getPendingForHost_spec hrow
      have howner : row.hostId = hostId := getPendingForHost_host hrow
      rw [← hsame] at hallowed ⊢
      rcases hafter row hmem hwaits with hmade | hfits
      · exact hmade
      · have hfalse := hfits host (howner ▸ hhost)
        exact absurd (hfalse.symm.trans hallowed) (by decide)
  | _ =>
      rw [Turn.answer, Turn.run, hcall, DeliveryCall.program, Program.exec_bind] at hanswer
      split at hanswer <;> cases hanswer

end Runs

/-! ## An agent upgraded by hand -/

/-- Versions of one digit, in their order. -/
def versionedEnvironment : Environment :=
  { sampleEnvironment with compareVersions := fun a b => some (compareOfLessAndEq a b) }

/-- The sample host's agent reports a version. -/
def versionReport (version : String) : DeliveryCall :=
  .heartbeat sampleHost.id
    { sampleHeartbeat with
      report := { sampleHeartbeat.report with agentVersion := some version } }

/-- Version 2.0 is requested for the sample host, with the way back to version 1.0. -/
def reversibleUpgrade : DeliveryCall :=
  .create sampleHost.id
    { sampleUpgrade with
      previousArtifactUrl := some "https://example.org/agent-1.0.whl"
      previousArtifactSha256 := some "11" }

/-- The turn of a call, with draws of its own. -/
def deliveryTurn (first : ℕ) (call : DeliveryCall) : Turn DeliveryCall Draw :=
  ⟨call, sampleDraws first, fun _ => none⟩

/-- An agent of version 1.0, an upgrade to version 2.0, and its rollback. -/
def rollbackTurns : List (Turn DeliveryCall Draw) :=
  [deliveryTurn 100 (versionReport "1.0"), deliveryTurn 200 reversibleUpgrade,
    deliveryTurn 300 (.rollback ⟨201⟩)]

/-- The rollback is delivered to the agent, which has version 2.0 by then, as a downgrade. -/
theorem downgrades_only_by_rollback_sample :
    ∃ out pending, (deliveryTurn 400 (versionReport "2.0")).answer store
        (DeliveryCall.program versionedEnvironment)
        (Turn.runAll store (DeliveryCall.program versionedEnvironment) rollbackTurns sampleDb) =
          .ok (some out) ∧
      out.pendingUpgrade = some pending ∧ pending.allowDowngrade = true ∧
      pending.id ∈ rolledBackIn versionedEnvironment rollbackTurns sampleDb := by
  refine ⟨_, _, rfl, rfl, rfl, ?_⟩
  refine downgrades_only_by_rollback versionedEnvironment sampleDb rfl
    (rollbackTurns ++ [deliveryTurn 400 (versionReport "2.0")]) ?_ rollbackTurns []
    (deliveryTurn 400 (versionReport "2.0")) rfl _ rfl _ rfl rfl
  intro before turn after hsplit hostId beat hcall
  rcases before with _ | ⟨_, _ | ⟨_, _ | ⟨_, _ | ⟨_, _ | ⟨_, before⟩⟩⟩⟩⟩ <;> cases hsplit
  · cases hcall
    exact .inr (by decide)
  · cases hcall
  · cases hcall
  · cases hcall
    exact .inr (by decide)

/-- The agent has version 1.0 when version 2.0 is requested, and is upgraded to version 3.0 by
hand: version 2.0 is delivered to it as a downgrade, and there was no rollback. -/
theorem requested_downgrade :
    ∃ out pending, (deliveryTurn 300 (versionReport "3.0")).answer store
        (DeliveryCall.program versionedEnvironment)
        (Turn.runAll store (DeliveryCall.program versionedEnvironment)
          [deliveryTurn 100 (versionReport "1.0"), deliveryTurn 200 reversibleUpgrade] sampleDb) =
          .ok (some out) ∧
      out.pendingUpgrade = some pending ∧ pending.targetVersion = "2.0" ∧
      pending.allowDowngrade = true ∧
      rolledBackIn versionedEnvironment
        [deliveryTurn 100 (versionReport "1.0"), deliveryTurn 200 reversibleUpgrade]
        sampleDb = [] :=
  ⟨_, _, rfl, rfl, rfl, rfl, rfl⟩

end Fleet
