/-
# Which heartbeats are accepted

`record_heartbeat` compares the heartbeat's time with the stored `last_seen`, which Python
refuses where one of the two carries no UTC offset. `last_seen` always carries one. So of a
known, active host whose row can be read, every heartbeat is accepted and recorded whose time
carries one too and can be read back, and whose values fit their columns.
-/

import PortForge.Central.Heartbeats
import PortForge.Central.UpgradeLaw

namespace Central

open Transaction

/-- PostgreSQL stores no zero character. -/
def fitsText (text : String) : Bool := '\x00' ∉ text.toList

/-- The values fit their columns: texts without zero characters, and 32-bit integers. The lengths
are checked by the schema. -/
def HostReport.fits (report : HostReport) : Bool :=
  fitsText report.hostname && fitsText report.operatingSystem &&
    report.osVersion.all fitsText && report.architecture.all fitsText &&
    report.agentVersion.all fitsText && report.pythonVersion.all fitsText &&
    report.protocolVersion.all (fun version => version < 2 ^ 31) &&
    report.contractVersion.all fun version => version < 2 ^ 31

/-- The database fails on values that do not fit, and on nothing else. -/
def HostReport.FailsUnfit (report : HostReport) (faults : ℕ → Option DbError) : Prop :=
  if report.fits then ∀ n, faults n = none else faults 0 = some .data

/-! ## Running the service step by step -/

section Exec

variable {env : Environment} {hostId : Uuid} {host : Host} {db : Db} {s : ServiceSession}
  {draws : ℕ → Draw} {faults : ℕ → Option DbError}

/-- A report replaces one of the times of a host. -/
theorem readable_afterReport (report : HostReport) (now : ℤ) (hreadable : host.readable = true) :
    (host.afterReport report now).readable = readableInstant now := by
  simp only [Host.readable, Bool.and_eq_true] at hreadable
  simp [Host.readable, Host.afterReport, hreadable]

/-- A row that cannot be read ends the heartbeat. -/
theorem exec_recordHeartbeat_unreadable (heartbeat : HeartbeatIn)
    (hhost : db.getHost hostId = some host) (hunreadable : ¬ host.readable = true) :
    ((recordHeartbeat env hostId heartbeat).exec store (Session.start draws faults)
      db).result = .error (.db .data) := by
  simp only [recordHeartbeat, Program.bind_eq, Program.exec_bind, exec_select, view_start, hhost,
    Option.all_some, whenReadable, hunreadable]
  rfl

/-- A time without an offset cannot be compared with the stored one. -/
theorem exec_recordHeartbeat_naive {heartbeat : HeartbeatIn}
    (hhost : db.getHost hostId = some host) (hreadable : host.readable = true)
    (hactive : host.lifecycleState = .active) (hnaive : heartbeat.timestamp.aware = false) :
    ((recordHeartbeat env hostId heartbeat).exec store (Session.start draws faults)
      db).result = .error .typeError := by
  have hoffline : wasOffline env heartbeat.timestamp (some host) = raise .typeError := by
    simp [wasOffline, hactive, hnaive]
  simp only [recordHeartbeat, Program.bind_eq, Program.exec_bind, exec_select, view_start, hhost,
    Option.all_some, whenReadable, hreadable, if_true, hoffline]
  rfl

/-- A time with an offset can be compared. -/
theorem exists_wasOffline (env : Environment) {timestamp : Datetime}
    (hactive : host.lifecycleState = .active) (haware : timestamp.aware = true) :
    ∃ offline, wasOffline env timestamp (some host) = pure offline := by
  rw [wasOffline, hactive, if_neg (by decide), if_pos haware]
  exact ⟨_, rfl⟩

/-- The session in which the report of a known host has been flushed. -/
def reportedSession (draws : ℕ → Draw) (faults : ℕ → Option DbError) (hostId : Uuid)
    (report : HostReport) (now : ℤ) : ServiceSession :=
  ((Session.start draws faults : ServiceSession).afterAdd (.reportHost hostId report now)).afterFlush

theorem exec_upsertHost (report : HostReport) (now : ℤ) (hhost : db.getHost hostId = some host)
    (hfaults : faults 0 = none) :
    (upsertHost hostId report now).exec store (Session.start draws faults) db =
      ⟨.ok (), reportedSession draws faults hostId report now, db⟩ := by
  have herror : ((Session.start draws faults : ServiceSession).afterAdd
      (.reportHost hostId report now)).flushError store db = none := by
    simp [Session.flushError, Session.start, Session.afterAdd, hfaults, Store.refusesAll, store,
      Write.refused]
  simp only [upsertHost, Program.bind_eq, Program.exec_bind, exec_select, view_start, hhost,
    exec_add, exec_flush_of_none herror, reportedSession]

theorem exec_upsertHost_unfit (report : HostReport) (now : ℤ)
    (hhost : db.getHost hostId = some host) (hfaults : faults 0 = some .data) :
    ((upsertHost hostId report now).exec store (Session.start draws faults) db).result =
      .error (.db .data) := by
  have herror : ((Session.start draws faults : ServiceSession).afterAdd
      (.reportHost hostId report now)).flushError store db = some .data := by
    simp [Session.flushError, Session.start, Session.afterAdd, hfaults]
  simp only [upsertHost, Program.bind_eq, Program.exec_bind, exec_select, view_start, hhost,
    exec_add, exec_flush_of_some herror]

/-- The session in which a host that was offline has been announced. -/
def announcedSession (s : ServiceSession) (hostId : Uuid) (hostname : String) (now : ℤ)
    (offline : Bool) : ServiceSession :=
  if offline then
    s.afterDraw.afterAdd
      (.insertActivity (hostOnlineEvent hostId hostname (s.draws 0).uuid now))
  else s

theorem exec_announceOnline (hostname : String) (now : ℤ) (offline : Bool) :
    (announceOnline hostId hostname now offline).exec store s db =
      ⟨.ok (), announcedSession s hostId hostname now offline, db⟩ := by
  cases offline <;> rfl

/-- What a report writes is found under the host's id. -/
theorem getHost_reported (report : HostReport) (now : ℤ) (hhost : db.getHost hostId = some host) :
    ((Write.reportHost hostId report now).apply db).getHost hostId =
      some (host.afterReport report now) := by
  have hid : host.id = hostId := by simpa using List.find?_some hhost
  rw [Db.getHost_map (fun row => by split <;> rfl) rfl hostId, hhost]
  simp [hid]

/-- The database accepts the event of a known host. -/
theorem flushError_announced (report : HostReport) (now : ℤ) (offline : Bool)
    (hhost : db.getHost hostId = some host) (hfaults : faults 1 = none) :
    (announcedSession (reportedSession draws faults hostId report now) hostId report.hostname now
      offline).flushError store db = none := by
  cases offline with
  | false =>
      simp [announcedSession, Session.flushError, reportedSession, Session.start,
        Session.afterAdd, Session.afterFlush, hfaults]
  | true =>
      have hknown : ((Write.reportHost hostId report now).apply db).hasHost hostId :=
        hasHost_of_getHost (getHost_reported report now hhost)
      simp [announcedSession, Session.flushError, reportedSession, Session.start,
        Session.afterAdd, Session.afterFlush, Session.afterDraw, Session.batch, Session.view,
        hfaults, Store.refusesAll, store, Write.refused, Store.applyAll, hknown, hostOnlineEvent]

/-- What a heartbeat leaves of its host. -/
theorem getHost_announced (report : HostReport) (now : ℤ) (offline : Bool)
    (hhost : db.getHost hostId = some host) :
    (store.applyAll (announcedSession (reportedSession draws faults hostId report now) hostId
      report.hostname now offline).batch db).getHost hostId =
        some (host.afterReport report now) := by
  cases offline <;> exact getHost_reported report now hhost

theorem exec_recordHeartbeat_unfit {heartbeat : HeartbeatIn}
    (hhost : db.getHost hostId = some host) (hreadable : host.readable = true)
    (hactive : host.lifecycleState = .active)
    (haware : heartbeat.timestamp.aware = true) (hfaults : faults 0 = some .data) :
    ((recordHeartbeat env hostId heartbeat).exec store (Session.start draws faults)
      db).result = .error (.db .data) := by
  obtain ⟨offline, hoffline⟩ := exists_wasOffline env hactive haware
  have hunfit := @exec_upsertHost_unfit _ _ _ draws _ heartbeat.report
    (env.stored heartbeat.timestamp) hhost hfaults
  simp only [recordHeartbeat, Program.bind_eq, Program.exec_bind, exec_select, view_start, hhost,
    Option.all_some, whenReadable, hreadable, if_true, hoffline, Program.pure_eq_ret,
    Program.exec_ret]
  split
  · next hok =>
      rw [hok] at hunfit
      cases hunfit
  · next herror =>
      rw [herror] at hunfit
      simpa using hunfit

/-- The report is committed. The answer is its row, if the driver can read it back. -/
theorem exec_recordHeartbeat {heartbeat : HeartbeatIn}
    (hhost : db.getHost hostId = some host) (hreadable : host.readable = true)
    (hactive : host.lifecycleState = .active)
    (haware : heartbeat.timestamp.aware = true) (hfaults : ∀ n, faults n = none) :
    ((recordHeartbeat env hostId heartbeat).exec store (Session.start draws faults) db).result =
        (if readableInstant (env.stored heartbeat.timestamp) then
          .ok (host.afterReport heartbeat.report (env.stored heartbeat.timestamp))
        else .error (.db .data)) ∧
      ((recordHeartbeat env hostId heartbeat).exec store (Session.start draws faults)
        db).db.getHost hostId =
          some (host.afterReport heartbeat.report (env.stored heartbeat.timestamp)) := by
  obtain ⟨offline, hoffline⟩ := exists_wasOffline env hactive haware
  have hannounced : (announcedSession (reportedSession draws faults hostId heartbeat.report
      (env.stored heartbeat.timestamp)) hostId heartbeat.report.hostname
        (env.stored heartbeat.timestamp) offline).flushError store db = none :=
    flushError_announced _ _ offline hhost (hfaults 1)
  have hleft : (store.applyAll (announcedSession (reportedSession draws faults hostId
      heartbeat.report (env.stored heartbeat.timestamp)) hostId heartbeat.report.hostname
        (env.stored heartbeat.timestamp) offline).batch db).getHost hostId =
          some (host.afterReport heartbeat.report (env.stored heartbeat.timestamp)) :=
    getHost_announced _ _ offline hhost
  simp only [recordHeartbeat, Program.bind_eq, Program.exec_bind, exec_select, view_start, hhost,
    Option.all_some, whenReadable, hreadable, if_true, hoffline, Program.pure_eq_ret,
    Program.exec_ret, exec_upsertHost _ _ hhost (hfaults 0), exec_announceOnline,
    exec_commit_of_none hannounced, refreshHost]
  rw [Session.view_of_flushed_nil store rfl, hleft]
  simp only [Program.exec_ret, readable_afterReport _ _ hreadable]
  split
  · exact ⟨rfl, hleft⟩
  · exact ⟨rfl, hleft⟩

end Exec

/-- The heartbeat is recorded on the host's row: the values it gives are stored, and the host's
health is derived from its time. -/
structure HeartbeatIn.RecordedIn (heartbeat : HeartbeatIn) (env : Environment) (host later : Host) :
    Prop where
  stored : later = host.afterReport heartbeat.report (env.stored heartbeat.timestamp)
  health : ∀ now, env.health later.lastSeen now = env.health (env.stored heartbeat.timestamp) now

/-- A heartbeat of a known, active host is answered with the row that records it if and only if
the row can be read, its time carries a UTC offset and can be read back, and its values fit their
columns. -/
theorem heartbeat_recorded_iff (env : Environment) (hostId : Uuid) (heartbeat : HeartbeatIn)
    (draws : ℕ → Draw) (faults : ℕ → Option DbError) (db : Db) (host : Host)
    (hhost : db.getHost hostId = some host) (hactive : host.lifecycleState = .active)
    (hfaults : heartbeat.report.FailsUnfit faults) :
    (∃ later, ((recordHeartbeat env hostId heartbeat).exec store (Session.start draws faults)
        db).result = .ok later ∧
      ((recordHeartbeat env hostId heartbeat).exec store (Session.start draws faults)
        db).db.getHost hostId = some later ∧
      heartbeat.RecordedIn env host later) ↔
      host.readable = true ∧ heartbeat.timestamp.aware = true ∧
        readableInstant (env.stored heartbeat.timestamp) = true ∧
          heartbeat.report.fits = true := by
  rw [HostReport.FailsUnfit] at hfaults
  constructor
  · rintro ⟨later, hresult, -, -⟩
    by_cases hreadable : host.readable = true
    swap
    · rw [exec_recordHeartbeat_unreadable heartbeat hhost hreadable] at hresult
      cases hresult
    cases haware : heartbeat.timestamp.aware with
    | false =>
        rw [exec_recordHeartbeat_naive hhost hreadable hactive haware] at hresult
        cases hresult
    | true =>
        by_cases hfits : heartbeat.report.fits = true
        · rw [if_pos hfits] at hfaults
          rw [(exec_recordHeartbeat hhost hreadable hactive haware hfaults).1] at hresult
          split at hresult
          · next hinstant => exact ⟨hreadable, rfl, hinstant, hfits⟩
          · cases hresult
        · rw [if_neg hfits] at hfaults
          rw [exec_recordHeartbeat_unfit hhost hreadable hactive haware hfaults] at hresult
          cases hresult
  · rintro ⟨hreadable, haware, hinstant, hfits⟩
    rw [if_pos hfits] at hfaults
    obtain ⟨hresult, hfile⟩ := exec_recordHeartbeat hhost hreadable hactive haware hfaults
    rw [if_pos hinstant] at hresult
    exact ⟨_, hresult, hfile, rfl, fun _ => rfl⟩

/-- A heartbeat of the sample host, with a time that carries an offset or not. -/
def timedHeartbeat (aware : Bool) : HeartbeatIn where
  timestamp := ⟨10, aware⟩
  report :=
    { hostname := "web-1"
      operatingSystem := "Linux"
      osVersion := none
      architecture := none
      agentVersion := some "1.4.0"
      dockerAvailable := false
      protocolVersion := some 1
      contractVersion := none
      pythonVersion := none }

theorem heartbeat_recorded_iff_sample :
    ∃ later, ((recordHeartbeat sampleEnvironment sampleHost.id (timedHeartbeat true)).exec store
        (Session.start (sampleDraws 100) fun _ => none) sampleDb).result = .ok later ∧
      ((recordHeartbeat sampleEnvironment sampleHost.id (timedHeartbeat true)).exec store
        (Session.start (sampleDraws 100) fun _ => none) sampleDb).db.getHost sampleHost.id =
          some later ∧
      (timedHeartbeat true).RecordedIn sampleEnvironment sampleHost later :=
  (heartbeat_recorded_iff sampleEnvironment sampleHost.id (timedHeartbeat true) (sampleDraws 100)
    (fun _ => none) sampleDb sampleHost rfl rfl fun _ => rfl).mpr
      ⟨by decide, rfl, by decide, by decide⟩

/-- A heartbeat whose time carries no offset ends in a `TypeError`, and nothing is recorded. -/
theorem naive_heartbeat_refused :
    (timedHeartbeat false).report.fits = true ∧
      ((recordHeartbeat sampleEnvironment sampleHost.id (timedHeartbeat false)).exec store
        (Session.start (sampleDraws 100) fun _ => none) sampleDb).result = .error .typeError ∧
      ((recordHeartbeat sampleEnvironment sampleHost.id (timedHeartbeat false)).exec store
        (Session.start (sampleDraws 100) fun _ => none) sampleDb).db.hosts = [sampleHost] :=
  ⟨by decide, rfl, rfl⟩

end Central
