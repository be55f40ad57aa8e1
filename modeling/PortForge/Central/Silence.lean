/-
# Silent hosts

Central tells a host's health from `last_seen`, which it copies out of the host's own
heartbeats and snapshots: it holds what the host's clock said, not when Central heard of it.
In any interleaving of heartbeats, snapshots and allocations every `last_seen` is the
timestamp of a report that was committed, so a host that has been silent is refused as long
as no report was stamped ahead of Central's clock.
-/

import PortForge.Central.SingleCall
import PortForge.Central.Ingestion
import PortForge.Central.Heartbeats
import PortForge.Transaction.Provenance

namespace Central

open Transaction

/-- A call that hears from a host, or allocates on it. -/
inductive ContactCall
  | heartbeat (hostId : Uuid) (heartbeat : HeartbeatIn)
  | snapshot (hostId scanId : Uuid) (observedAt : Datetime) (observations : List ObservationIn)
  | allocate (payload : AllocationIn)

namespace ContactCall

/-- What a call runs. A batch of observations is bounded by the settings. -/
def program (env : Environment) : ContactCall → Service Unit
  | heartbeat hostId beat => (heartbeatEndpoint env hostId beat).bind fun _ => .ret ()
  | snapshot hostId scanId observedAt observations =>
      (ingestSnapshot env hostId scanId observedAt observations
        env.settings.maxObservationsPerSnapshot).bind fun _ => .ret ()
  | allocate payload => (createAllocation env payload).bind fun _ => .ret ()

/-- The host a call speaks for, and the instant it is stamped with. -/
def report (env : Environment) : ContactCall → Option (Uuid × ℤ)
  | heartbeat hostId beat => some (hostId, env.stored beat.timestamp)
  | snapshot hostId _ observedAt _ => some (hostId, observedAt.micros)
  | allocate _ => none

end ContactCall

/-! ## Where a `last_seen` comes from -/

/-- The write sets a `last_seen` to nothing but the report's instant, on the report's host. -/
def Write.Hears (report : Option (Uuid × ℤ)) : Write → Prop
  | .insertHost row => report = some (row.id, row.lastSeen)
  | .reportHost id _ now => report = some (id, now)
  | .scanHost id observedAt => report = some (id, observedAt)
  | _ => True

/-- Some host of the contents has this id and this `last_seen`. -/
def Db.LastSeen (db : Db) (host : Host) : Prop :=
  ∃ row ∈ db.hosts, row.id = host.id ∧ row.lastSeen = host.lastSeen

/-- A host keeps its `last_seen` over a write, or has the instant of the report. -/
theorem lastSeen_apply {report : Option (Uuid × ℤ)} {write : Write} (h : write.Hears report)
    {db : Db} {host : Host} (hhost : host ∈ (write.apply db).hosts) :
    db.LastSeen host ∨ report = some (host.id, host.lastSeen) := by
  have hkept : host ∈ db.hosts → db.LastSeen host ∨ report = some (host.id, host.lastSeen) :=
    fun hold => .inl ⟨host, hold, rfl, rfl⟩
  cases write with
  | insertHost row =>
      rcases List.mem_append.mp hhost with hold | hnew
      · exact hkept hold
      · obtain rfl := List.mem_singleton.mp hnew
        exact .inr h
  | reportHost id report' now =>
      obtain ⟨row, hrow, rfl⟩ := List.mem_map.mp hhost
      split
      · next hid =>
          subst hid
          exact .inr h
      · exact .inl ⟨row, hrow, rfl, rfl⟩
  | scanHost id observedAt =>
      obtain ⟨row, hrow, rfl⟩ := List.mem_map.mp hhost
      split
      · next hid =>
          subst hid
          exact .inr h
      · exact .inl ⟨row, hrow, rfl, rfl⟩
  | decommissionHost id decommissionedAt reason =>
      obtain ⟨row, hrow, rfl⟩ := List.mem_map.mp hhost
      refine .inl ⟨row, hrow, ?_⟩
      split <;> exact ⟨rfl, rfl⟩
  | reactivateHost id =>
      obtain ⟨row, hrow, rfl⟩ := List.mem_map.mp hhost
      refine .inl ⟨row, hrow, ?_⟩
      split <;> exact ⟨rfl, rfl⟩
  | setHostError id lastError =>
      obtain ⟨row, hrow, rfl⟩ := List.mem_map.mp hhost
      refine .inl ⟨row, hrow, ?_⟩
      split <;> exact ⟨rfl, rfl⟩
  | purgeHost table id => exact hkept (by cases table <;> exact hhost)
  | deleteHost id => exact hkept (List.mem_of_mem_filter hhost)
  | _ => exact hkept hhost

/-- A host keeps its `last_seen` over a batch, or has the instant of the report. -/
theorem lastSeen_applyAll {report : Option (Uuid × ℤ)} {batch : List Write}
    (h : ∀ write ∈ batch, write.Hears report) {db : Db} :
    ∀ host ∈ (store.applyAll batch db).hosts,
      db.LastSeen host ∨ report = some (host.id, host.lastSeen) := by
  refine Store.applyAll_induction store (motive := fun contents => ∀ host ∈ contents.hosts,
    db.LastSeen host ∨ report = some (host.id, host.lastSeen)) ?_ ?_
  · exact fun host hhost => .inl ⟨host, hhost, rfl, rfl⟩
  · intro write hwrite contents ih host hhost
    rcases lastSeen_apply (h write hwrite) hhost with ⟨row, hrow, hid, hseen⟩ | hreport
    · rw [Db.LastSeen, ← hid, ← hseen]
      exact ih row hrow
    · exact .inr hreport

/-! ## What the calls write -/

/-- A heartbeat sets the `last_seen` of its host to its own timestamp. -/
theorem hears_heartbeatEndpoint (env : Environment) (hostId : Uuid) (heartbeat : HeartbeatIn) :
    (heartbeatEndpoint env hostId heartbeat).Adds
      (Write.Hears (some (hostId, env.stored heartbeat.timestamp))) :=
  adds_heartbeat rfl rfl (fun _ => trivial) fun _ _ => trivial

section Snapshots

variable {report : Option (Uuid × ℤ)} (env : Environment) (ingest : Ingest)

theorem hears_recordObservation (rows : List CurrentPortObservation) (obs : ObservationIn) :
    (recordObservation env ingest rows obs).Adds (Write.Hears report) := by
  rw [recordObservation]
  cases rows.find? fun row => row.key = obs.key with
  | none =>
      refine Program.Adds.bind ?_ fun _ => trivial
      rw [appear]
      cases ingest.isBaseline with
      | true => exact fun _ => ⟨trivial, fun _ => ⟨trivial, trivial⟩⟩
      | false => exact fun _ => ⟨trivial, fun _ => ⟨trivial, fun _ => ⟨trivial, trivial⟩⟩⟩
  | some existing =>
      refine Program.Adds.bind ?_ fun _ => trivial
      rw [refreshCurrent]
      split
      · exact fun _ => ⟨trivial, trivial, trivial⟩
      · exact ⟨trivial, trivial⟩

theorem hears_recordObservations (rows : List CurrentPortObservation)
    (observations : List ObservationIn) :
    (recordObservations env ingest rows observations).Adds (Write.Hears report) := by
  induction observations with
  | nil => trivial
  | cons obs observations ih =>
      refine (hears_recordObservation env ingest rows obs).bind fun counts => ?_
      exact ih.bind fun later => trivial

theorem hears_recordDisappearances (incoming : List BindingKey)
    (rows : List CurrentPortObservation) :
    (recordDisappearances ingest incoming rows).Adds (Write.Hears report) := by
  induction rows with
  | nil => trivial
  | cons row rows ih =>
      rw [recordDisappearances]
      split
      · exact ih
      · refine observes_newUuid.adds.bind fun eventId => ?_
        refine Program.Adds.bind ⟨trivial, trivial⟩ fun _ => ?_
        refine observes_newUuid.adds.bind fun activityId => ?_
        refine Program.Adds.bind ⟨trivial, trivial⟩ fun _ => ?_
        refine Program.Adds.bind ⟨trivial, trivial⟩ fun _ => ?_
        exact ih.bind fun _ => trivial

theorem hears_stageSnapshot (observations canonical : List ObservationIn) :
    (stageSnapshot env ingest observations canonical).Adds
      (Write.Hears (some (ingest.hostId, ingest.observedAt))) := by
  refine observes_select.adds.bind fun rows => adds_whenReadable _ ?_
  refine (hears_recordObservations env ingest rows canonical).bind fun counts => ?_
  refine (hears_recordDisappearances ingest _ rows).bind fun disappeared => ?_
  exact observes_clock.adds.bind fun receivedAt => ⟨trivial, rfl, trivial⟩

end Snapshots

/-- A snapshot sets the `last_seen` of its host to its own timestamp. -/
theorem hears_ingestSnapshot (env : Environment) (hostId scanId : Uuid) (observedAt : Datetime)
    (observations : List ObservationIn) (maxBatchSize : ℕ) :
    (ingestSnapshot env hostId scanId observedAt observations maxBatchSize).Adds
      (Write.Hears (some (hostId, observedAt.micros))) := by
  rw [ingestSnapshot]
  split
  · trivial
  · refine Program.Adds.bind trivial fun _ => ?_
    refine observes_select.adds.bind fun existing => ?_
    cases existing with
    | some scan => exact adds_whenReadable _ trivial
    | none =>
        refine observes_select.adds.bind fun host => ?_
        cases host with
        | none => trivial
        | some host =>
            refine adds_whenReadable _ ?_
            simp only [ingestFor]
            split
            · trivial
            · split
              · trivial
              · refine (hears_stageSnapshot env
                  { hostId := hostId, scanId := scanId, observedAt := observedAt.micros,
                    isBaseline := host.lastScanObservedAt.isNone } observations _).bind
                      fun result => ?_
                exact adds_commit.bind fun _ => trivial

/-- An allocation writes on no host. -/
theorem hears_createAllocation (env : Environment) (payload : AllocationIn) :
    (createAllocation env payload).Adds (Write.Hears none) :=
  (adds_createAllocation env payload).mono fun write h => by
    cases write <;> first | exact h.elim | trivial

theorem ContactCall.hears (env : Environment) (call : ContactCall) :
    (call.program env).Adds (Write.Hears (call.report env)) := by
  cases call with
  | heartbeat hostId beat => exact (hears_heartbeatEndpoint env hostId beat).bind fun _ => trivial
  | snapshot hostId scanId observedAt observations =>
      exact (hears_ingestSnapshot env hostId scanId observedAt observations _).bind
        fun _ => trivial
  | allocate payload => exact (hears_createAllocation env payload).bind fun _ => trivial

/-! ## Runs -/

section Runs

variable {ι : Type} {env : Environment} {calls : ι → ContactCall} {db : Db}
  {draws : ι → ℕ → Draw} {σ : System ι Db Write ℤ Draw Failure Unit}

/-- Central has accepted what the call brings: its session has committed something. -/
def Recorded (σ : System ι Db Write ℤ Draw Failure Unit) (i : ι) : Prop :=
  (σ.session i).committedWrites ≠ []

instance (i : ι) : Decidable (Recorded σ i) := inferInstanceAs (Decidable (_ ≠ _))

/-- Every `last_seen` stood there at the start, or is that of an accepted report. -/
structure HeardFrom (env : Environment) (calls : ι → ContactCall) (db : Db)
    (σ : System ι Db Write ℤ Draw Failure Unit) : Prop where
  adds : ∀ i, (σ.program i).Adds (Write.Hears ((calls i).report env))
  batch : ∀ i, ∀ write ∈ (σ.session i).batch, write.Hears ((calls i).report env)
  hosts : ∀ host ∈ σ.db.hosts, db.LastSeen host ∨
    ∃ i, Recorded σ i ∧ (calls i).report env = some (host.id, host.lastSeen)

theorem heardFrom_start :
    HeardFrom env calls db (System.start db (fun i => (calls i).program env) draws) where
  adds i := (calls i).hears env
  batch i write hwrite := by simp [System.start, Session.start, Session.batch] at hwrite
  hosts host hhost := .inl ⟨host, hhost, rfl, rfl⟩

variable [DecidableEq ι]

/-- What has been accepted stays accepted. -/
theorem Recorded.move {i : ι} (h : Recorded σ i) (j : ι) : Recorded (σ.move store j) i :=
  System.committedWrites_move_ne_nil h j

theorem HeardFrom.move (h : HeardFrom env calls db σ) (j : ι) :
    HeardFrom env calls db (σ.move store j) := by
  have hsession : ∀ i, ((σ.move store j).program i).Adds (Write.Hears ((calls i).report env)) ∧
      ∀ write ∈ ((σ.move store j).session i).batch, write.Hears ((calls i).report env) := by
    intro i
    by_cases hij : i = j
    · subst hij
      cases hstep : (σ.program i).advance store (σ.session i) σ.db with
      | none =>
          obtain ⟨hprogram, hsession, -⟩ := System.move_of_finished hstep
          rw [hprogram, hsession, Session.close_batch]
          exact ⟨h.adds i, fun _ hwrite => (List.not_mem_nil hwrite).elim⟩
      | some after =>
          obtain ⟨p, s, contents⟩ := after
          obtain ⟨hprogram, hsession, -⟩ := System.move_of_advance hstep
          rw [hprogram, hsession]
          exact (h.adds i).advance (h.batch i) hstep
    · rw [System.move_program_of_ne hij, System.move_session_of_ne hij]
      exact ⟨h.adds i, h.batch i⟩
  have hkept : ∀ host, (db.LastSeen host ∨
      ∃ i, Recorded σ i ∧ (calls i).report env = some (host.id, host.lastSeen)) →
        db.LastSeen host ∨ ∃ i, Recorded (σ.move store j) i ∧
          (calls i).report env = some (host.id, host.lastSeen) := by
    rintro host (hstart | ⟨i, hrecorded, hreport⟩)
    · exact .inl hstart
    · exact .inr ⟨i, hrecorded.move j, hreport⟩
  refine ⟨fun i => (hsession i).1, fun i => (hsession i).2, fun host hhost => ?_⟩
  rcases System.move_db store σ j with hsame | ⟨next, -, -, -, hcommitted, hdb⟩
  · rw [hsame] at hhost
    exact hkept host (h.hosts host hhost)
  · rw [hdb] at hhost
    by_cases hbatch : (σ.session j).batch = []
    · rw [hbatch] at hhost
      exact hkept host (h.hosts host hhost)
    · rcases lastSeen_applyAll (h.batch j) host hhost with ⟨row, hrow, hid, hseen⟩ | hreport
      · have hold := hkept row (h.hosts row hrow)
        rwa [Db.LastSeen, hid, hseen] at hold
      · refine .inr ⟨j, ?_, hreport⟩
        rw [Recorded, hcommitted, Session.committedWrites_afterCommit]
        exact List.append_ne_nil_of_right_ne_nil _ hbatch

/-- In every run a `last_seen` is the timestamp of an accepted report. -/
theorem heardFrom_of_reachable {allowed : System ι Db Write ℤ Draw Failure Unit → ι → Prop}
    (hreach : System.Reachable store allowed
      (System.start db (fun i => (calls i).program env) draws) σ) :
    HeardFrom env calls db σ := by
  induction hreach with
  | start => exact heardFrom_start
  | step _ _ _ ih => exact ih.move _

end Runs

/-! ## Silence -/

/-- The host counts as offline at the given instant. -/
def Db.Offline (env : Environment) (db : Db) (hostId : Uuid) (now : ℤ) : Prop :=
  ∀ host, db.getHost hostId = some host → (env.health host.lastSeen now).1 = .offline

/-- Nothing is allocated on the host by a call that reads the given instant off the clock:
the contents stay as they are, and a new request is refused. -/
def Db.Refuses (env : Environment) (db : Db) (hostId : Uuid) (now : ℤ) : Prop :=
  ∀ (payload : AllocationIn) (draws : ℕ → Draw) (faults : ℕ → Option DbError),
    payload.hostId = hostId → (draws 0).now = now →
      let run := runCreateAllocation env payload db draws faults
      run.db = db ∧ (NewRequest payload db → ∃ error, run.result = .error error)

/-- A host that is not healthy is allocated nothing. -/
theorem refuses_of_unhealthy {env : Environment} {db : Db} {hostId : Uuid} {now : ℤ}
    (h : ∀ host, db.getHost hostId = some host → (env.health host.lastSeen now).1 ≠ .healthy) :
    db.Refuses env hostId now := by
  rintro payload draws faults rfl rfl run
  obtain ⟨hpost, hdb⟩ :=
    runCreateAllocation_spec (resolvesAlone_resolved env payload db draws faults)
  have hkept : run.session.committedWrites = [] → run.db = db := by
    intro hnothing
    rw [show run.db = _ from hdb, hnothing]
    rfl
  rcases hresult : (runCreateAllocation env payload db draws faults).result with error | out
  · rw [hresult] at hpost
    exact ⟨hkept hpost, fun _ => ⟨error, rfl⟩⟩
  · rw [hresult] at hpost
    have hold : ¬ NewRequest payload db := by
      intro hnew
      obtain ⟨-, -, -, -, ⟨_, host, rfl, hhost, -, hhealthy⟩, -⟩ := hpost.1 hnew
      exact h host hhost hhealthy
    refine ⟨hkept ?_, fun hnew => (hold hnew).elim⟩
    rw [Session.committedWrites, (hpost.2 hold).1]
    rfl

/-- Past the offline threshold a host is not healthy, already within the second in which it
is not yet offline. -/
theorem health_ne_healthy {env : Environment} {lastSeen now : ℤ}
    (h : env.settings.hostOfflineAfterSeconds * 1000000 < now - lastSeen) :
    (env.health lastSeen now).1 ≠ .healthy := by
  rw [Ne, health_eq_healthy_iff, not_le]
  refine lt_of_lt_of_le env.settings.stale_lt_offline ?_
  calc env.settings.hostOfflineAfterSeconds
      = (env.settings.hostOfflineAfterSeconds * 1000000).tdiv 1000000 :=
        (Int.mul_tdiv_cancel _ (by decide)).symm
    _ ≤ ageSeconds lastSeen now := Int.tdiv_le_tdiv (by decide) h.le

/-- The silence is past the offline threshold, by less than a second: `derive_health_state`
counts whole seconds, and none has gone by. -/
def Environment.WithinFirstSecond (env : Environment) (since now : ℤ) : Prop :=
  env.settings.hostOfflineAfterSeconds * 1000000 < now - since ∧
    now - since < (env.settings.hostOfflineAfterSeconds + 1) * 1000000

/-- Silence past the offline threshold that is not within its first second is counted. -/
theorem offline_lt_ageSeconds {env : Environment} {since now : ℤ}
    (hlong : env.settings.hostOfflineAfterSeconds * 1000000 < now - since)
    (hcounted : ¬ env.WithinFirstSecond since now) :
    env.settings.hostOfflineAfterSeconds < ageSeconds since now := by
  have hwhole : (env.settings.hostOfflineAfterSeconds + 1) * 1000000 ≤ now - since :=
    not_lt.mp fun hshort => hcounted ⟨hlong, hshort⟩
  calc env.settings.hostOfflineAfterSeconds
      < env.settings.hostOfflineAfterSeconds + 1 := lt_add_one _
    _ = ((env.settings.hostOfflineAfterSeconds + 1) * 1000000).tdiv 1000000 :=
        (Int.mul_tdiv_cancel _ (by decide)).symm
    _ ≤ ageSeconds since now := Int.tdiv_le_tdiv (by decide) hwhole

/-- A silent host is not allocated to. In every run whose accepted reports were stamped no
later than Central accepted them, a host that Central has heard nothing from for longer than
the offline threshold is allocated nothing, and counts as offline unless its silence is within
the first second past the threshold. -/
theorem silent_host_refused {ι : Type} [DecidableEq ι] (env : Environment)
    (calls : ι → ContactCall) (db : Db) (draws : ι → ℕ → Draw) (receivedAt : ι → ℤ)
    (hostId : Uuid) (since now : ℤ) (σ : System ι Db Write ℤ Draw Failure Unit)
    (hreach : System.Reachable store System.anyOrder
      (System.start db (fun i => (calls i).program env) draws) σ)
    (hstamps : ∀ i, Recorded σ i → ∀ report ∈ (calls i).report env, report.2 ≤ receivedAt i)
    (hsilent : ∀ i, Recorded σ i → ∀ report ∈ (calls i).report env, report.1 = hostId →
      receivedAt i ≤ since)
    (hstart : ∀ host ∈ db.hosts, host.id = hostId → host.lastSeen ≤ since)
    (hlong : env.settings.hostOfflineAfterSeconds * 1000000 < now - since) :
    σ.db.Refuses env hostId now ∧
      (¬ env.WithinFirstSecond since now → σ.db.Offline env hostId now) := by
  have hseen : ∀ host, σ.db.getHost hostId = some host → host.lastSeen ≤ since := by
    intro host hhost
    have hid : host.id = hostId := by simpa using List.find?_some hhost
    rcases (heardFrom_of_reachable hreach).hosts host (List.mem_of_find?_eq_some hhost) with
      ⟨row, hrow, hsame, hseen⟩ | ⟨i, hrecorded, hreport⟩
    · rw [← hseen]
      exact hstart row hrow (hsame.trans hid)
    · have hstamp := hstamps i hrecorded (host.id, host.lastSeen) hreport
      exact hstamp.trans (hsilent i hrecorded (host.id, host.lastSeen) hreport hid)
  constructor
  · refine refuses_of_unhealthy fun host hhost => health_ne_healthy ?_
    have hbefore := hseen host hhost
    omega
  · intro hcounted host hhost
    rw [health_eq_offline_iff]
    exact lt_of_lt_of_le (offline_lt_ageSeconds hlong hcounted)
      (ageSeconds_mono (hseen host hhost) le_rfl)

/-! ## A clock that runs ahead -/

/-- The heartbeat of the sample host, stamped by a clock that is ahead of Central's. -/
def sampleBeat (ahead : ℤ) : ContactCall :=
  .heartbeat sampleHost.id
    { report :=
        { hostname := sampleHost.hostname
          operatingSystem := sampleHost.operatingSystem
          osVersion := none
          architecture := none
          agentVersion := none
          dockerAvailable := false
          protocolVersion := some 1
          contractVersion := none
          pythonVersion := none }
      timestamp := ⟨ahead, true⟩ }

/-- A run of that heartbeat, which Central receives at instant 0. -/
def sampleContact (ahead : ℤ) : System Unit Db Write ℤ Draw Failure Unit :=
  System.start sampleDb (fun _ => (sampleBeat ahead).program sampleEnvironment)
    fun _ => sampleDraws 200

/-- What an allocation draws ten minutes later. -/
def sampleLater (i : ℕ) : Draw := ⟨600000000, ⟨BitVec.ofNat 128 (300 + i)⟩, 0⟩

/-- A heartbeat stamped in time, and silence up to the first whole second past the threshold. -/
theorem silent_host_refused_sample :
    ∃ σ, System.play store (List.replicate 30 ()) (sampleContact 0) = some σ ∧
      Recorded σ () ∧ σ.db.Refuses sampleEnvironment sampleHost.id 301000000 ∧
      σ.db.Offline sampleEnvironment sampleHost.id 301000000 := by
  obtain ⟨σ, hplay, hrecorded⟩ : ∃ σ, System.play store (List.replicate 30 ())
      (sampleContact 0) = some σ ∧ Recorded σ () := ⟨_, rfl, by decide⟩
  have hsilence := silent_host_refused sampleEnvironment (fun _ => sampleBeat 0) sampleDb
    (fun _ => sampleDraws 200) (fun _ => 0) sampleHost.id 0 301000000 σ (.of_play .start hplay)
    (fun _ _ => by decide) (fun _ _ => by decide) (by decide) (by decide)
  exact ⟨σ, hplay, hrecorded, hsilence.1, hsilence.2 fun hwithin => by
    exact absurd hwithin.2 (by decide)⟩

/-- One heartbeat stamped a day ahead, accepted at instant 0, and ten minutes of silence: the
host is healthy, and a port is allocated on it. And one stamped in time, 300.5 seconds later:
the host is stale. -/
theorem silent_host_allocated :
    (∃ σ, System.Reachable store System.anyOrder (sampleContact 86400000000) σ ∧
      Recorded σ () ∧ (∀ host ∈ sampleDb.hosts, host.lastSeen ≤ 0) ∧
      sampleEnvironment.settings.hostOfflineAfterSeconds * 1000000 < 600000000 - 0 ∧
      (∃ host, σ.db.getHost sampleHost.id = some host ∧
        (sampleEnvironment.health host.lastSeen 600000000).1 = .healthy) ∧
      NewRequest samplePayload σ.db ∧
      ∃ out, (runCreateAllocation sampleEnvironment samplePayload σ.db sampleLater
        fun _ => none).result = .ok out) ∧
    ∃ σ, System.Reachable store System.anyOrder (sampleContact 0) σ ∧ Recorded σ () ∧
      sampleEnvironment.settings.hostOfflineAfterSeconds * 1000000 < 300500000 - 0 ∧
      ∃ host, σ.db.getHost sampleHost.id = some host ∧
        (sampleEnvironment.health host.lastSeen 300500000).1 = .stale := by
  constructor
  · obtain ⟨σ, hplay, hrecorded, hhealthy, hnew, hout⟩ : ∃ σ,
        System.play store (List.replicate 30 ()) (sampleContact 86400000000) = some σ ∧
          Recorded σ () ∧
          (∃ host, σ.db.getHost sampleHost.id = some host ∧
            (sampleEnvironment.health host.lastSeen 600000000).1 = .healthy) ∧
          NewRequest samplePayload σ.db ∧
          ∃ out, (runCreateAllocation sampleEnvironment samplePayload σ.db sampleLater
            fun _ => none).result = .ok out :=
      ⟨_, rfl, by decide, ⟨_, rfl, rfl⟩, by decide, _, rfl⟩
    exact ⟨σ, .of_play .start hplay, hrecorded, by decide, by decide, hhealthy, hnew, hout⟩
  · obtain ⟨σ, hplay, hrecorded, hstale⟩ : ∃ σ,
        System.play store (List.replicate 30 ()) (sampleContact 0) = some σ ∧ Recorded σ () ∧
          ∃ host, σ.db.getHost sampleHost.id = some host ∧
            (sampleEnvironment.health host.lastSeen 300500000).1 = .stale :=
      ⟨_, rfl, by decide, _, rfl, rfl⟩
    exact ⟨σ, .of_play .start hplay, hrecorded, by decide, hstale⟩

end Central
