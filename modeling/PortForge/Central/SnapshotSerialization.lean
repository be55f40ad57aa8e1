/-
# Snapshots and allocations of one host serialise

Any number of snapshots and of allocations without idempotency key, all of one host, in
any interleaving. Each decides and writes under the host lock only, so the committed
contents are those of the calls that committed, one after another in the order in which
they obtained the lock. What a bundle is granted was not observed when it committed, a
scan is processed once at most, and no snapshot meets an integrity error.
-/

import PortForge.Central.SingleCall
import PortForge.Central.SnapshotBatches
import PortForge.Transaction.Serialization

namespace Central

open Transaction

variable {hostId : Uuid} {db : Db}

/-- A call of one host. -/
inductive ScanCall (hostId : Uuid)
  | ingest (scanId : Uuid) (observedAt : Datetime) (observations : List ObservationIn)
      (maxBatchSize : ℕ)
  | allocate (payload : AllocationIn) (onHost : payload.hostId = hostId)
      (unkeyed : payload.requestId = none)

namespace ScanCall

/-- What a call runs; its answer plays no part here. -/
def program (env : Environment) : ScanCall hostId → Service Unit
  | ingest scanId observedAt observations maxBatchSize =>
      (ingestSnapshot env hostId scanId observedAt observations maxBatchSize).bind fun _ => .ret ()
  | allocate payload _ _ => (createAllocation env payload).bind fun _ => .ret ()

/-- What it does under the lock. -/
def body (env : Environment) : ScanCall hostId → Service Unit
  | ingest scanId observedAt observations _ =>
      (ingestLocked env hostId scanId observedAt.micros observations).bind fun _ => .ret ()
  | allocate payload _ _ => (allocateLocked env payload).bind fun _ => .ret ()

/-- The purposes of a payload are known. -/
def knowsPurposes (requests : List AllocationRequestItem) : Prop :=
  (requests.filter fun item => (defaultRange item.purpose).isNone) = []

/-- What it checks in front of the lock. -/
def Ready : ScanCall hostId → Db → Prop
  | ingest _ _ observations maxBatchSize, _ => observations.length ≤ maxBatchSize
  | allocate payload _ _, db => knowsPurposes payload.requests ∧ db.hasHost hostId = true

/-- The scan a call submits. -/
def scan : ScanCall hostId → Option Uuid
  | ingest scanId _ _ _ => some scanId
  | allocate _ _ _ => none

end ScanCall

theorem getHost_isSome : (db.getHost hostId).isSome = db.hasHost hostId := by
  rw [Db.getHost, Db.hasHost, List.isSome_find?]

theorem guarded_ingest (env : Environment) (scanId : Uuid) (observedAt : Datetime)
    (observations : List ObservationIn) (maxBatchSize : ℕ) :
    ((ScanCall.ingest scanId observedAt observations maxBatchSize : ScanCall hostId).program
      env).Guarded (hostKey env hostId)
        (ScanCall.ingest scanId observedAt observations maxBatchSize : ScanCall hostId).Ready
        ((ScanCall.ingest scanId observedAt observations maxBatchSize : ScanCall hostId).body
            env) := by
  by_cases hlarge : maxBatchSize < observations.length
  · refine .inr (.inr ⟨?_, fun _ hready => absurd hlarge (not_lt.mpr hready)⟩)
    rw [ScanCall.program, ingestSnapshot, if_pos hlarge]
    exact ⟨_, rfl⟩
  · refine .inl ⟨?_, fun _ => not_lt.mp hlarge⟩
    rw [ScanCall.program, ingestSnapshot, if_neg hlarge]
    rfl

theorem guarded_allocate (env : Environment) (payload : AllocationIn)
    (onHost : payload.hostId = hostId) (unkeyed : payload.requestId = none) :
    ((ScanCall.allocate payload onHost unkeyed).program env).Guarded (hostKey env hostId)
      (ScanCall.allocate payload onHost unkeyed).Ready
      ((ScanCall.allocate payload onHost unkeyed).body env) := by
  subst onHost
  by_cases hpurposes : ScanCall.knowsPurposes payload.requests
  · refine .inr (.inl ⟨fun db => ((db.getHost payload.hostId).elim
      (raise (.allocation (hostNotFound payload.hostId))) fun _ =>
        (acquireHostLock env payload.hostId).bind fun _ => allocateLocked env payload).bind
          fun _ => .ret (), ?_, fun db hready => ?_, fun db hnone => ?_⟩)
    · rw [ScanCall.program, createAllocation, validatePurposes]
      have hknown : (payload.requests.filter fun item => (defaultRange item.purpose).isNone) = [] :=
        hpurposes
      simp only [hknown, ne_eq, not_true_eq_false, if_false, lookUpRequest, unkeyed]
      refine congrArg Program.read (funext fun db => ?_)
      simp only [Program.bind]
      cases db.getHost payload.hostId <;> rfl
    · have hsome : (db.getHost payload.hostId).isSome = true := getHost_isSome.trans hready.2
      obtain ⟨host, hhost⟩ := Option.isSome_iff_exists.mp hsome
      simp only [hhost]
      rfl
    · have hmissing : db.getHost payload.hostId = none := by
        rw [← Option.not_isSome_iff_eq_none, getHost_isSome]
        exact fun hknown => hnone ⟨hpurposes, hknown⟩
      simp only [hmissing]
      exact ⟨_, rfl⟩
  · refine .inr (.inr ⟨⟨.allocation (unknownPurpose ((payload.requests.filter fun item =>
      (defaultRange item.purpose).isNone).map fun item => item.name)), ?_⟩,
      fun _ hready => hpurposes hready.1⟩)
    have hunknown : (payload.requests.filter fun item => (defaultRange item.purpose).isNone) ≠ [] :=
      hpurposes
    rw [ScanCall.program, createAllocation, validatePurposes]
    simp only [ne_eq, hunknown, not_false_eq_true, if_true]
    rfl

/-- Neither a snapshot nor an allocation removes anything Central knows of a host. -/
theorem adds_program (env : Environment) (call : ScanCall hostId) :
    (call.program env).Adds fun write => ¬ write.Purges := by
  cases call with
  | ingest scanId observedAt observations maxBatchSize =>
      refine Program.Adds.bind ?_ fun _ => trivial
      rw [ingestSnapshot]
      split
      · trivial
      · exact (locked_ingestLocked env hostId scanId _ observations).2.mono
          fun _ hwrite => hwrite.not_purges
  | allocate payload onHost unkeyed =>
      refine ((adds_createAllocation env payload).mono fun write hwrite => ?_).bind fun _ => trivial
      cases write <;> first | exact hwrite.elim | exact id

/-- Snapshots and allocations of a host decide and write under its lock only. -/
def scanCalls {ι : Type} (env : Environment) (call : ι → ScanCall hostId) :
    LockedCalls store ι ℤ Draw Failure Unit where
  key := hostKey env hostId
  program i := (call i).program env
  body i := (call i).body env
  ready i := (call i).Ready
  writes write := ¬ write.Purges
  guarded i := by
    cases call i with
    | ingest scanId observedAt observations maxBatchSize => exact guarded_ingest env _ _ _ _
    | allocate payload onHost unkeyed => exact guarded_allocate env payload onHost unkeyed
  locked i := by
    cases call i with
    | ingest scanId observedAt observations maxBatchSize =>
        exact (locked_ingestLocked env hostId scanId _ observations).1.bind fun _ => trivial
    | allocate payload onHost unkeyed =>
        exact (locked_allocateLocked env payload).bind fun _ => trivial
  adds i := adds_program env (call i)
  ready_apply i write db hkeeps hready := by
    cases hcall : call i with
    | ingest scanId observedAt observations maxBatchSize =>
        rw [hcall] at hready
        exact hready
    | allocate payload onHost unkeyed =>
        rw [hcall] at hready
        exact ⟨hready.1, hasHost_apply hkeeps hready.2⟩

/-! ## A snapshot alone -/

section Alone

variable {draws : ℕ → Draw} {scanId : Uuid}

/-- A snapshot has met no integrity error, and what it has committed is its scan, which
was not on file. -/
structure ScansWell (scanId : Uuid) (db : Db) (s : ServiceSession) : Prop where
  integrity : .failed .integrity ∉ s.journal
  committed : ∀ batch, .committed batch ∈ s.journal →
    newScans batch = [scanId] ∧ scanId ∉ db.scans.map Scan.id

/-- The session of a snapshot that runs alone, once it has the lock. -/
def scanning (env : Environment) (hostId : Uuid) (draws : ℕ → Draw) : ServiceSession :=
  (Session.start draws fun _ => none).afterLock (hostKey env hostId)

theorem scansWell_scanning (env : Environment) : ScansWell scanId db (scanning env hostId draws) :=
  ⟨by simp [scanning, Session.start, Session.afterLock], fun batch hbatch => by
    simp [scanning, Session.start, Session.afterLock] at hbatch⟩

/-- A snapshot alone, on contents that know the host and not the scan. -/
theorem scansWell_ingestFor (env : Environment) (host : Host) (observedAt : ℤ)
    (observations : List ObservationIn) (hhost : db.hasHost hostId = true)
    (hscan : scanId ∉ db.scans.map Scan.id) :
    (ingestFor env host hostId scanId observedAt observations).Ensures store
      (Program.alone store db) (fun _ => True) (scanning env hostId draws)
      fun s' _ => ScansWell scanId db s' := by
  rw [ingestFor]
  split
  · exact scansWell_scanning env
  · split
    · exact scansWell_scanning env
    · next canonical hcanonical =>
        simp only [stageSnapshot, Program.bind_eq, Program.ensures_bind, ensures_select]
        intro contents hcontents
        obtain rfl := alone_of_journal rfl hcontents
        have hview : (scanning env hostId draws).view store db = db := rfl
        rw [hview]
        refine ensures_whenReadable (fun _ => ?_) (scansWell_scanning env)
        have hfresh : ∀ scan ∈ db.scans, scan.id ≠ scanId := fun scan hmem hid =>
          hscan (List.mem_map.mpr ⟨scan, hmem, hid⟩)
        refine (ensures_stageChanges env ⟨hostId, scanId, observedAt,
          host.lastScanObservedAt.isNone⟩ rfl hcanonical hhost hfresh).mono ?_
        rintro _ result ⟨⟨value, rfl⟩, ⟨writes, draws', rfl, hscans⟩, hrefused⟩
        have hstart : (scanning env hostId draws).journal = [.locked (hostKey env hostId)] := rfl
        refine ensures_commit.mpr ⟨trivial, fun _ _ _ => ?_, fun last error hlast herror => ?_⟩
        · refine ⟨by simp [Session.afterCommit, hstart], fun batch hbatch => ?_⟩
          simp only [Session.afterCommit, hstart, List.mem_append, List.mem_singleton, reduceCtorEq,
            false_or, Event.committed.injEq] at hbatch
          rw [hbatch]
          exact ⟨hscans, hscan⟩
        · obtain rfl := alone_of_journal rfl hlast
          have hne : error ≠ .integrity := by
            rintro rfl
            exact hrefused herror
          refine ⟨by simp [Session.afterFailure, hstart, hne.symm], fun batch hbatch => ?_⟩
          simp [Session.afterFailure, hstart] at hbatch

/-- A snapshot alone. -/
theorem scansWell_ingest (env : Environment) (observedAt : Datetime)
    (observations : List ObservationIn) (maxBatchSize : ℕ) (db : Db) :
    ScansWell scanId db (((ScanCall.ingest scanId observedAt observations maxBatchSize :
      ScanCall hostId).program env).exec store (Session.start draws fun _ => none) db).session := by
  have hlocked : (ingestLocked env hostId scanId observedAt.micros observations).Ensures store
      (Program.alone store db) (fun _ => True) (scanning env hostId draws)
      fun s' _ => ScansWell scanId db s' := by
    simp only [ingestLocked, Program.bind_eq, Program.ensures_bind, ensures_select]
    intro contents hcontents
    obtain rfl := alone_of_journal rfl hcontents
    have hview : (scanning env hostId draws).view store db = db := rfl
    rw [hview]
    cases hscan : db.scans.find? fun scan => scan.id = scanId with
    | some scan =>
        exact ensures_whenReadable (fun _ => scansWell_scanning env) (scansWell_scanning env)
    | none =>
        simp only [Program.ensures_bind, ensures_select]
        intro contents hcontents
        obtain rfl := alone_of_journal rfl hcontents
        rw [hview]
        cases hhost : db.getHost hostId with
        | none => exact scansWell_scanning env
        | some host =>
            refine ensures_whenReadable (fun _ => ?_) (scansWell_scanning env)
            refine scansWell_ingestFor env host _ observations ?_ fun hmem => ?_
            · rw [← getHost_isSome, hhost]
              rfl
            · obtain ⟨scan, hscanned, hid⟩ := List.mem_map.mp hmem
              have hnone := List.find?_eq_none.mp hscan scan hscanned
              simp [hid] at hnone
  have hwhole : ((ScanCall.ingest scanId observedAt observations maxBatchSize :
      ScanCall hostId).program env).Ensures store (Program.alone store db) (fun _ => True)
        (Session.start draws fun _ => none) fun s' _ => ScansWell scanId db s' := by
    refine Program.Ensures.bind (M := fun s' _ => ScansWell scanId db s') ?_ (fun _ _ h => h)
      fun _ _ h => h
    rw [ingestSnapshot]
    split
    · exact ⟨List.not_mem_nil, fun batch hbatch => (List.not_mem_nil hbatch).elim⟩
    · exact hlocked
  exact (hwhole.exec rfl).1

/-- A bundle inserts the ports it has resolved, and no scan. -/
theorem unobserved_bundle {env : Environment} {payload : AllocationIn} {allocation : Allocation}
    {batch : List Write} (h : BundleBatch (· = db)
      (Resolved (· = db) payload.hostId payload.requests ∅) env payload allocation batch) :
    (∀ row, .insertReservation row ∈ batch → ¬ db.Observed payload.hostId row.port row.protocol) ∧
      newScans batch = [] := by
  obtain ⟨probes, resolved, grants, rfl, hprobes, hresolved, hgrants⟩ := h.writes
  have hwrites : ∀ write ∈ grantWrites grants, ∃ grant ∈ grants,
      write = .insertReservation grant.1 ∨ write = .insertActivity grant.2 := by
    intro write hwrite
    obtain ⟨grant, hgrant, hmem⟩ := List.mem_flatMap.mp hwrite
    exact ⟨grant, hgrant, by simpa using hmem⟩
  refine ⟨fun row hrow => ?_, ?_⟩
  · rcases List.mem_append.mp hrow with hprobe | hrest
    · exact (hprobes _ hprobe).elim
    · rcases List.mem_cons.mp hrest with hsame | hgrant
      · cases hsame
      · obtain ⟨grant, hmem, hsame | hsame⟩ := hwrites _ hgrant
        · obtain ⟨entry, hentry, ⟨rowId, hgranted⟩, -⟩ := exists_entry_of_mem hgrants hmem
          cases hsame
          obtain ⟨_, rfl, hunobserved⟩ := (hresolved.grantable entry hentry).unobserved
          rw [hgranted]
          exact hunobserved
        · cases hsame
  · rw [newScans, List.filterMap_eq_nil_iff]
    intro write hwrite
    rcases List.mem_append.mp hwrite with hprobe | hrest
    · have hkind := hprobes write hprobe
      cases write <;> first | exact hkind.elim | rfl
    · rcases List.mem_cons.mp hrest with rfl | hgrant
      · rfl
      · obtain ⟨grant, -, rfl | rfl⟩ := hwrites write hgrant <;> rfl

/-- What an allocation alone commits holds ports that were not observed, and no scan. -/
theorem unobserved_allocate (env : Environment) {payload : AllocationIn}
    (onHost : payload.hostId = hostId) (unkeyed : payload.requestId = none) {batch : List Write}
    (hbatch : .committed batch ∈ (((ScanCall.allocate payload onHost unkeyed).program
        env).exec store
      (Session.start draws fun _ => none) db).session.journal) :
    (∀ row, .insertReservation row ∈ batch → ¬ db.Observed hostId row.port row.protocol) ∧
      newScans batch = [] := by
  subst onHost
  have halone := ((createAllocation_alone (resolvesAlone_resolved env payload db draws
    fun _ => none)).exec_start).1
  rw [ScanCall.program, Program.exec_bind] at hbatch
  generalize (createAllocation env payload).exec store (Session.start draws fun _ => none) db = run
    at halone hbatch
  obtain ⟨_ | out, session, contents⟩ := run
  · have hnone : session.committedWrites = [] := halone
    have hempty : batch = [] := by
      rw [Session.committedWrites, List.flatMap_eq_nil_iff] at hnone
      exact hnone _ hbatch
    rw [hempty]
    exact ⟨fun row hrow => (List.not_mem_nil hrow).elim, rfl⟩
  · obtain ⟨allocation, written, hjournal, hbundle, -⟩ := halone.1 (by simp [NewRequest, unkeyed])
    have hmem : Event.committed batch ∈ session.journal := hbatch
    have hsame : batch = written := by
      change session.journal = _ at hjournal
      rw [hjournal] at hmem
      simpa using hmem
    rw [hsame]
    exact unobserved_bundle hbundle

end Alone

/-! ## A snapshot that returns -/

/-- The scan is on file. -/
def Db.OnFile (db : Db) (scanId : Uuid) : Prop := scanId ∈ db.scans.map Scan.id

/-- No scan is lost. -/
def ScansGrow (db later : Db) : Prop := ∀ scanId, db.OnFile scanId → later.OnFile scanId

theorem scansGrow_applyAll {writes : List Write} (hkeeps : ∀ write ∈ writes, ¬ write.Purges)
    (db : Db) : ScansGrow db (store.applyAll writes db) := by
  intro scanId hfile
  rw [Db.OnFile, scans_applyAll hkeeps]
  exact List.mem_append_left _ hfile

section Returns

variable {s : ServiceSession} {sees : Db → Prop} {good : Db → List Write → Prop}

theorem follows_ingestFor (env : Environment) (host : Host) (scanId : Uuid) (observedAt : ℤ)
    (observations : List ObservationIn) (hbatch : s.batch = []) :
    (ingestFor env host hostId scanId observedAt observations).Follows store ScansGrow sees
      (fun _ _ => True) s db fun _ later result => ∀ value, result = .ok value →
        later.OnFile scanId := by
  obtain ⟨hflushed, hpending⟩ := List.append_eq_nil_iff.mp hbatch
  rw [ingestFor]
  split
  · exact fun _ h => by cases h
  · split
    · exact fun _ h => by cases h
    · next canonical _ =>
        simp only [stageSnapshot, Program.bind_eq, Program.bind_assoc]
        refine follows_select fun later _ _ => ?_
        generalize (s.view store later).listCurrentForHost hostId = rows
        refine of_whenReadable (fun p => ((p.bind _).Follows store ScansGrow sees _ s later _ : Prop))
          (fun _ => ?_) fun _ h => by cases h
        let ingest : Ingest := ⟨hostId, scanId, observedAt, host.lastScanObservedAt.isNone⟩
        have hadds : (stageChanges env ingest observations canonical rows).Ensures store
            (fun _ _ => True) (fun _ => True) s fun s' _ =>
              ∀ write ∈ s'.batch, write.IsIngesting hostId scanId :=
          (staging_stageChanges env ingest observations canonical rows).adds.ensures
              (by simp [hbatch])
        have hstages : (stageChanges env ingest observations canonical rows).Ensures store
            (fun _ _ => True) (fun _ => True) s _ :=
          (stagesBindings_stageChanges env ingest observations canonical rows).and hadds
        refine Program.Follows.bind ((staging_stageChanges env ingest observations canonical
          rows).holding.follows hstages (fun _ _ hfile => hfile)
            fun _ _ _ hfirst hsecond scanId hfile => hsecond scanId (hfirst scanId hfile)) ?_ ?_
        · rintro _ seen result ⟨-, ⟨-, writes, draws, rfl, -, -, hscans⟩, hingesting⟩ last _ _
          split
          · refine ⟨trivial, fun value _ => ?_⟩
            rw [Db.OnFile, scans_applyAll fun write hwrite => (hingesting write hwrite).not_purges]
            refine List.mem_append_right _ ?_
            simp only [Session.batch, hflushed, hpending, List.nil_append, hscans]
            exact List.mem_singleton_self _
          · exact fun _ h => by cases h
        · rintro _ _ error ⟨-, ⟨⟨value, hvalue⟩, -⟩, -⟩
          cases hvalue

theorem follows_ingestLocked (env : Environment) (scanId : Uuid) (observedAt : ℤ)
    (observations : List ObservationIn) (hbatch : s.batch = []) :
    (ingestLocked env hostId scanId observedAt observations).Follows store ScansGrow sees
      (fun _ _ => True) s db fun _ later result => ∀ value, result = .ok value →
        later.OnFile scanId := by
  have hflushed : s.flushed = [] := (List.append_eq_nil_iff.mp hbatch).1
  refine follows_select fun later _ _ => ?_
  rw [Session.view_of_flushed_nil store hflushed]
  cases hscan : later.scans.find? fun scan => scan.id = scanId with
  | some scan =>
      refine of_whenReadable (fun p => p.Follows store ScansGrow sees _ s later _) (fun _ => ?_)
        fun _ h => by cases h
      intro value _
      have hid : scan.id = scanId := by simpa using List.find?_some hscan
      exact List.mem_map.mpr ⟨scan, List.mem_of_find?_eq_some hscan, hid⟩
  | none =>
      refine follows_select fun last _ _ => ?_
      rw [Session.view_of_flushed_nil store hflushed]
      cases last.getHost hostId with
      | none => exact nofun
      | some host =>
          exact of_whenReadable (fun p => p.Follows store ScansGrow sees _ s last _)
            (fun _ => follows_ingestFor env host scanId observedAt observations hbatch)
            fun _ h => by cases h

/-- A snapshot that returns has its scan on file. -/
theorem follows_program (env : Environment) (scanId : Uuid) (observedAt : Datetime)
    (observations : List ObservationIn) (maxBatchSize : ℕ) (draws : ℕ → Draw) :
    ((ScanCall.ingest scanId observedAt observations maxBatchSize : ScanCall hostId).program
      env).Follows store ScansGrow sees (fun _ _ => True) (Session.start draws fun _ => none) db
        fun _ later result => result = .ok () → later.OnFile scanId := by
  have hingest : (ingestSnapshot env hostId scanId observedAt observations maxBatchSize).Follows
      store ScansGrow sees (fun _ _ => True) (Session.start draws fun _ => none) db
      fun _ later result => ∀ value, result = .ok value → later.OnFile scanId := by
    rw [ingestSnapshot]
    split
    · exact nofun
    · exact follows_ingestLocked env scanId observedAt.micros observations rfl
  exact Program.Follows.bind hingest (fun _ _ value hfile _ => hfile value rfl)
    fun _ _ _ _ => nofun

end Returns

/-! ## Runs -/

section Runs

variable {ι : Type} {env : Environment} {call : ι → ScanCall hostId} {draws : ι → ℕ → Draw}
  {σ : System ι Db Write ℤ Draw Failure Unit}

/-- What holds of the snapshots and allocations of a host in a state they reach from `db`. -/
structure SnapshotsSerialise (env : Environment) (call : ι → ScanCall hostId) (draws : ι → ℕ → Draw)
    (db : Db) (σ : System ι Db Write ℤ Draw Failure Unit) : Prop where
  /-- The contents are those of the calls that committed, one after another in the order in
  which they obtained the host lock. -/
  serial : σ.db = (scanCalls env call).serial draws (LockedCalls.commitOrder σ) db
  /-- A bundle that commits now holds no port that is observed now. -/
  unobserved : ∀ i payload onHost unkeyed next, call i = .allocate payload onHost unkeyed →
    σ.program i = .commit next → (σ.session i).flushError store σ.db = none →
    ∀ row, .insertReservation row ∈ (σ.session i).batch →
      ¬ σ.db.Observed hostId row.port row.protocol
  /-- A scan is processed once at most. -/
  once : ∀ i j scanId, (call i).scan = some scanId → (call j).scan = some scanId →
    (σ.session i).hasCommitted = true → (σ.session j).hasCommitted = true → i = j
  /-- Once a snapshot has returned its scan has been processed, or was on file before. -/
  processed : ∀ i scanId, (call i).scan = some scanId → σ.program i = .ret () →
    db.OnFile scanId ∨ ∃ j, (call j).scan = some scanId ∧ (σ.session j).hasCommitted = true
  /-- No snapshot meets an integrity error. -/
  integrity : ∀ i, (call i).scan.isSome = true → .failed .integrity ∉ (σ.session i).journal

/-- The scans on file are those from before and those that calls have committed. -/
structure ScansOnce (call : ι → ScanCall hostId) (db : Db)
    (σ : System ι Db Write ℤ Draw Failure Unit) : Prop where
  filed : ∀ i scanId, (call i).scan = some scanId → (σ.session i).hasCommitted = true →
    σ.db.OnFile scanId
  origin : ∀ scanId, σ.db.OnFile scanId → db.OnFile scanId ∨
    ∃ j, (call j).scan = some scanId ∧ (σ.session j).hasCommitted = true
  once : ∀ i j scanId, (call i).scan = some scanId → (call j).scan = some scanId →
    (σ.session i).hasCommitted = true → (σ.session j).hasCommitted = true → i = j

variable [DecidableEq ι]

/-- What a session of a run has staged removes nothing. -/
theorem keeps_batch {allowed : System ι Db Write ℤ Draw Failure Unit → ι → Prop}
    (hreach : System.Reachable store allowed
      (System.start db (fun i => (call i).program env) draws) σ) (i : ι) :
    ∀ write ∈ (σ.session i).batch, ¬ write.Purges :=
  (hreach.writes (System.start_writes fun j => adds_program env (call j)) i).2

/-- What a call commits in a run, it commits alone on the contents it commits to. -/
theorem committed_alone {allowed : System ι Db Write ℤ Draw Failure Unit → ι → Prop}
    (hreach : System.Reachable store allowed
      (System.start db (fun i => (call i).program env) draws) σ) {i : ι}
    {next : Option DbError → Service Unit} (hcommit : σ.program i = .commit next)
    (haccepted : (σ.session i).flushError store σ.db = none) :
    .committed (σ.session i).batch ∈
      (((call i).program env).exec store (Session.start (draws i) fun _ =>
          none) σ.db).session.journal := by
  have hexec := (scanCalls env call).commit_eq_exec hreach hcommit
  have hmem : .committed (σ.session i).batch ∈
      ((σ.program i).exec store (σ.session i) σ.db).session.journal := by
    rw [hcommit, Program.exec, haccepted]
    refine Program.journal_subset_exec store _ _ _ ?_
    simp [Session.afterCommit]
  rw [hexec] at hmem
  exact hmem

/-- What a call commits: its scan, which was not on file, if it is a snapshot. -/
theorem newScans_of_commit {allowed : System ι Db Write ℤ Draw Failure Unit → ι → Prop}
    (hreach : System.Reachable store allowed
      (System.start db (fun i => (call i).program env) draws) σ) {i : ι}
    {next : Option DbError → Service Unit} (hcommit : σ.program i = .commit next)
    (haccepted : (σ.session i).flushError store σ.db = none) :
    newScans (σ.session i).batch = (call i).scan.toList ∧
      ∀ scanId ∈ (call i).scan, ¬ σ.db.OnFile scanId := by
  have hmem := committed_alone hreach hcommit haccepted
  cases hcall : call i with
  | ingest scanId observedAt observations maxBatchSize =>
      rw [hcall] at hmem
      obtain ⟨hscans, hnew⟩ := (scansWell_ingest env observedAt observations maxBatchSize
          σ.db).committed
        _ hmem
      refine ⟨hscans, fun other hother => ?_⟩
      obtain rfl : scanId = other := Option.some.inj hother
      exact hnew
  | allocate payload onHost unkeyed =>
      rw [hcall] at hmem
      exact ⟨(unobserved_allocate env onHost unkeyed hmem).2, fun _ hother => by cases hother⟩

/-- One step of a run files every scan once at most. -/
theorem scansOnce_move {allowed : System ι Db Write ℤ Draw Failure Unit → ι → Prop}
    (hreach : System.Reachable store allowed
      (System.start db (fun i => (call i).program env) draws) σ) (h : ScansOnce call db σ) (k : ι) :
    ScansOnce call db (σ.move store k) := by
  have hother : ∀ j, j ≠ k → ((σ.move store k).session j).hasCommitted =
      (σ.session j).hasCommitted :=
    fun j hj => by rw [System.move_session_of_ne hj]
  have hsame (hdb : (σ.move store k).db = σ.db)
      (hself : ((σ.move store k).session k).hasCommitted = (σ.session k).hasCommitted) :
      ScansOnce call db (σ.move store k) := by
    have hall : ∀ j, ((σ.move store k).session j).hasCommitted = (σ.session j).hasCommitted := by
      intro j
      by_cases hj : j = k
      · rw [hj, hself]
      · exact hother j hj
    refine ⟨fun i scanId hscan hcommitted => ?_, fun scanId hfile => ?_,
      fun i j scanId hi hj hcommitted hcommitted' => ?_⟩
    · rw [hdb]
      exact h.filed i scanId hscan ((hall i) ▸ hcommitted)
    · rw [hdb] at hfile
      refine (h.origin scanId hfile).imp id fun hby => ?_
      obtain ⟨j, hj, hcommitted⟩ := hby
      exact ⟨j, hj, (hall j).trans hcommitted⟩
    · exact h.once i j scanId hi hj ((hall i) ▸ hcommitted) ((hall j) ▸ hcommitted')
  cases hstep : (σ.program k).advance store (σ.session k) σ.db with
  | none =>
      obtain ⟨-, hsession, hdb⟩ := System.move_of_finished hstep
      exact hsame hdb (by rw [hsession]; rfl)
  | some after =>
      obtain ⟨p, s, contents⟩ := after
      obtain ⟨-, hsession, hdb⟩ := System.move_of_advance hstep
      rcases Program.advance_committed hstep with
        ⟨hkept, hcommitted⟩ | ⟨next, hcommit, haccepted, rfl, rfl⟩
      · exact hsame (hdb.trans hkept) (by rw [hsession, hcommitted])
      · obtain ⟨hscans, hnew⟩ := newScans_of_commit hreach hcommit haccepted
        have hfiled : ∀ scanId, (σ.move store k).db.OnFile scanId ↔
            σ.db.OnFile scanId ∨ (call k).scan = some scanId := by
          intro scanId
          rw [Db.OnFile, hdb, scans_applyAll (keeps_batch hreach k), hscans, List.mem_append,
            Option.mem_toList]
          rfl
        have hself : ((σ.move store k).session k).hasCommitted = true := by
          rw [hsession]
          simp [Session.hasCommitted]
        refine ⟨fun i scanId hscan hcommitted => ?_, fun scanId hfile => ?_,
          fun i j scanId hi hj hcommitted hcommitted' => ?_⟩
        · rw [hfiled]
          by_cases hik : i = k
          · exact .inr (hik ▸ hscan)
          · exact .inl (h.filed i scanId hscan (hother i hik ▸ hcommitted))
        · rcases (hfiled scanId).mp hfile with hold | hadded
          · refine (h.origin scanId hold).imp id fun hby => ?_
            obtain ⟨j, hj, hcommitted⟩ := hby
            by_cases hjk : j = k
            · exact ⟨k, hjk ▸ hj, hself⟩
            · exact ⟨j, hj, (hother j hjk).trans hcommitted⟩
          · exact .inr ⟨k, hadded, hself⟩
        · by_cases hik : i = k
          · by_cases hjk : j = k
            · exact hik.trans hjk.symm
            · exact (hnew scanId (hik ▸ hi) (h.filed j scanId hj (hother j hjk ▸ hcommitted'))).elim
          · by_cases hjk : j = k
            · exact (hnew scanId (hjk ▸ hj) (h.filed i scanId hi (hother i hik ▸ hcommitted))).elim
            · exact h.once i j scanId hi hj (hother i hik ▸ hcommitted) (hother j hjk ▸ hcommitted')

omit [DecidableEq ι] in
/-- Nothing has been committed yet. -/
theorem scansOnce_start (env : Environment) (call : ι → ScanCall hostId) (draws : ι → ℕ → Draw)
    (db : Db) : ScansOnce call db (System.start db (fun i => (call i).program env) draws) where
  filed _ _ _ hcommitted := Bool.noConfusion hcommitted
  origin _ hfile := .inl hfile
  once _ _ _ _ _ hcommitted := Bool.noConfusion hcommitted

/-- In every run a scan is filed once at most. -/
theorem scansOnce_of_reachable {allowed : System ι Db Write ℤ Draw Failure Unit → ι → Prop}
    (hreach : System.Reachable store allowed
      (System.start db (fun i => (call i).program env) draws) σ) : ScansOnce call db σ := by
  induction hreach with
  | start => exact scansOnce_start env call draws db
  | step hprev _ _ ih => exact scansOnce_move hprev ih _

/-- Every snapshot of a run is on its way to having its scan on file. -/
def Filing (call : ι → ScanCall hostId) (σ : System ι Db Write ℤ Draw Failure Unit) : Prop :=
  ∀ i scanId, (call i).scan = some scanId →
    (σ.program i).Follows store ScansGrow (fun _ => True) (fun _ _ => True) (σ.session i) σ.db
      fun _ later result => result = .ok () → later.OnFile scanId

omit [DecidableEq ι] in
theorem filing_start (env : Environment) (call : ι → ScanCall hostId) (draws : ι → ℕ → Draw)
    (db : Db) : Filing call (System.start db (fun i => (call i).program env) draws) := by
  intro i scanId hscan
  show ((call i).program env).Follows store ScansGrow _ _ _ _ _
  cases hcall : call i with
  | ingest other observedAt observations maxBatchSize =>
      rw [hcall] at hscan
      obtain rfl : other = scanId := Option.some.inj hscan
      exact follows_program env other observedAt observations maxBatchSize (draws i)
  | allocate payload onHost unkeyed =>
      rw [hcall] at hscan
      cases hscan

/-- One step of a run: the scans on file only grow. -/
theorem filing_move {allowed : System ι Db Write ℤ Draw Failure Unit → ι → Prop}
    (hreach : System.Reachable store allowed
      (System.start db (fun i => (call i).program env) draws) σ) (h : Filing call σ) (k : ι) :
    Filing call (σ.move store k) := by
  have hgrows : ScansGrow σ.db (σ.move store k).db := by
    rcases System.move_db store σ k with hsame | ⟨_, _, _, _, _, hdb⟩
    · rw [hsame]
      exact fun _ hfile => hfile
    · rw [hdb]
      exact scansGrow_applyAll (keeps_batch hreach k) _
  have hdrifts (i : ι) (scanId : Uuid) (p : Service Unit) (s : ServiceSession)
      (hp : p.Follows store ScansGrow (fun _ => True) (fun _ _ => True) s σ.db
        fun _ later result => result = .ok () → later.OnFile scanId) :
      p.Follows store ScansGrow (fun _ => True) (fun _ _ => True) s (σ.move store k).db
        fun _ later result => result = .ok () → later.OnFile scanId :=
    hp.drifted (fun _ _ _ hfirst hsecond scan hfile => hsecond scan (hfirst scan hfile))
      (fun _ _ hpost hok => hgrows scanId (hpost hok)) hgrows
  intro i scanId hscan
  have hi := h i scanId hscan
  by_cases hik : i = k
  · subst hik
    cases hstep : (σ.program i).advance store (σ.session i) σ.db with
    | none =>
        obtain ⟨hprogram, hsession, hdb⟩ := System.move_of_finished hstep
        rw [hprogram, hsession, hdb]
        cases hend : σ.program i with
        | ret value =>
            rw [hend] at hi
            exact hi
        | raise error =>
            rw [hend] at hi
            exact hi
        | flush next =>
            rw [hend, Program.advance] at hstep
            split at hstep <;> cases hstep
        | commit next =>
            rw [hend, Program.advance] at hstep
            split at hstep <;> cases hstep
        | _ =>
            rw [hend] at hstep
            cases hstep
    | some after =>
        obtain ⟨p, s, contents⟩ := after
        obtain ⟨hprogram, hsession, hdb⟩ := System.move_of_advance hstep
        rw [hprogram, hsession, hdb]
        exact hi.advance (fun _ hfile => hfile) trivial hstep
  · rw [System.move_program_of_ne hik, System.move_session_of_ne hik]
    exact hdrifts i scanId _ _ hi

theorem filing_of_reachable {allowed : System ι Db Write ℤ Draw Failure Unit → ι → Prop}
    (hreach : System.Reachable store allowed
      (System.start db (fun i => (call i).program env) draws) σ) : Filing call σ := by
  induction hreach with
  | start => exact filing_start env call draws db
  | step hprev _ _ ih => exact filing_move hprev ih _

/-- No snapshot of a run meets an integrity error. -/
theorem integrity_of_reachable {allowed : System ι Db Write ℤ Draw Failure Unit → ι → Prop}
    (hreach : System.Reachable store allowed
      (System.start db (fun i => (call i).program env) draws) σ) (i : ι)
    (hscan : (call i).scan.isSome = true) : .failed .integrity ∉ (σ.session i).journal := by
  have hgood := (scanCalls env call).journal_of_reachable (motive := fun _ => True)
    (fun i event => (call i).scan.isSome = true → event ≠ .failed .integrity) hreach trivial
    (fun _ _ _ _ => trivial) (fun i db _ event hevent hsome => ?_) (fun _ _ => by simp) i
  · exact fun hmem => hgood _ hmem hscan rfl
  · rintro rfl
    change Event.failed DbError.integrity ∈
      (((call i).program env).exec store (Session.start (draws i) fun _ => none) db).session.journal
      at hevent
    cases hcall : call i with
    | ingest scanId observedAt observations maxBatchSize =>
        rw [hcall] at hevent
        exact (scansWell_ingest env observedAt observations maxBatchSize db).integrity hevent
    | allocate payload onHost unkeyed =>
        rw [hcall] at hsome
        cases hsome

/-- Snapshots and allocations of one host, in every order of their database operations. -/
theorem snapshots_serialise {allowed : System ι Db Write ℤ Draw Failure Unit → ι → Prop}
    (hreach : System.Reachable store allowed
      (System.start db (fun i => (call i).program env) draws) σ) :
    SnapshotsSerialise env call draws db σ where
  serial := (scanCalls env call).serializable hreach
  unobserved i payload onHost unkeyed next hcall hcommit haccepted := by
    have hmem := committed_alone hreach hcommit haccepted
    rw [hcall] at hmem
    exact (unobserved_allocate env onHost unkeyed hmem).1
  once := (scansOnce_of_reachable hreach).once
  processed i scanId hscan hreturned := by
    have hfiled := filing_of_reachable hreach i scanId hscan
    rw [hreturned] at hfiled
    exact (scansOnce_of_reachable hreach).origin scanId (hfiled rfl)
  integrity := integrity_of_reachable hreach

end Runs

/-- A snapshot of a host on which nothing listens, and an allocation that prefers port 8000. -/
def snapshotAndAllocation (first : Bool) : ScanCall sampleHost.id :=
  if first then .ingest ⟨50⟩ ⟨5, true⟩ [] 1000 else .allocate samplePayload rfl rfl

theorem snapshots_serialise_sample :
    ∃ σ, System.play store (List.replicate 10 true ++ List.replicate 28 false)
        (System.start sampleDb (fun i => (snapshotAndAllocation i).program sampleEnvironment)
          fun first => sampleDraws (if first then 100 else 200)) = some σ ∧
      σ.db.scans.map Scan.id = [⟨50⟩] ∧
      σ.db.reservations.map CentralReservation.port = [8000] ∧
      SnapshotsSerialise sampleEnvironment snapshotAndAllocation
        (fun first => sampleDraws (if first then 100 else 200)) sampleDb σ := by
  obtain ⟨σ, hplay, hscans, hports⟩ : ∃ σ, System.play store
      (List.replicate 10 true ++ List.replicate 28 false)
        (System.start sampleDb (fun i => (snapshotAndAllocation i).program sampleEnvironment)
          fun first => sampleDraws (if first then 100 else 200)) = some σ ∧
      σ.db.scans.map Scan.id = [⟨50⟩] ∧
      σ.db.reservations.map CentralReservation.port = [8000] := ⟨_, rfl, rfl, rfl⟩
  exact ⟨σ, hplay, hscans, hports, snapshots_serialise (.of_play .start hplay)⟩

/-- A host whose last snapshot is newer than the one that is submitted twice. -/
def scannedDb : Db :=
  { sampleDb with hosts := [{ sampleHost with lastScanObservedAt := some 10 }] }

def resubmittedSnapshot (_ : Bool) : ScanCall sampleHost.id := .ingest ⟨50⟩ ⟨5, true⟩ [] 1000

/-- Both calls with the scan are refused, and none is processed. -/
theorem resubmittedSnapshot_refused :
    ∃ σ, System.Reachable store System.anyOrder (System.start scannedDb
        (fun i => (resubmittedSnapshot i).program sampleEnvironment)
        fun first => sampleDraws (if first then 100 else 200)) σ ∧
      (∀ i, (resubmittedSnapshot i).scan = some ⟨50⟩ ∧ ∃ error, σ.program i = .raise error) ∧
      ¬ ∃! i, (resubmittedSnapshot i).scan = some ⟨50⟩ ∧ (σ.session i).hasCommitted = true := by
  obtain ⟨σ, hplay, hdone, hnone⟩ : ∃ σ, System.play store
      (List.replicate 5 true ++ List.replicate 5 false) (System.start scannedDb
        (fun i => (resubmittedSnapshot i).program sampleEnvironment)
        fun first => sampleDraws (if first then 100 else 200)) = some σ ∧
      (∀ i, ∃ error, σ.program i = .raise error) ∧ ∀ i, (σ.session i).hasCommitted = false :=
    ⟨_, rfl, fun i => by cases i <;> exact ⟨_, rfl⟩, fun i => by cases i <;> rfl⟩
  refine ⟨σ, .of_play .start hplay, fun i => ⟨rfl, hdone i⟩, ?_⟩
  rintro ⟨i, ⟨-, hcommitted⟩, -⟩
  rw [hnone i] at hcommitted
  cases hcommitted

end Central
