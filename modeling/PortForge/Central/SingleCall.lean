/-
# An allocation that runs alone

What one call of `createAllocation` does to the database, for every state of it,
every payload, every outcome of its draws and every flush that fails: a call that
raises leaves the committed contents as they were, and a call that returns for a
new request commits its bundle once, with the host lock held from its first
decision to that commit.
-/

import PortForge.Central.Bundles

namespace Central

open Transaction

/-- No allocation on file carries the payload's idempotency key. -/
def NewRequest (payload : AllocationIn) (db : Db) : Prop :=
  ∀ requestId ∈ payload.requestId, ∀ allocation ∈ db.allocations,
    allocation.requestId ≠ some requestId

instance (payload : AllocationIn) (db : Db) : Decidable (NewRequest payload db) :=
  inferInstanceAs (Decidable (∀ requestId ∈ payload.requestId, _))

/-- The allocations on file under the payload's idempotency key. -/
def Db.filedFor (db : Db) (payload : AllocationIn) : List Allocation :=
  match payload.requestId with
  | none => []
  | some requestId => db.allocationsByRequestId requestId

/-- How a call that runs alone on `db` ends, where `good` holds of the ports it resolves. -/
def RunsAlone (good : List (AllocationRequestItem × ℕ) → Prop) (env : Environment)
    (payload : AllocationIn) (db : Db) (now : ℤ)
    (s : ServiceSession) : Except Failure AllocationOut → Prop
  | .error _ => s.committedWrites = []
  | .ok out =>
      (NewRequest payload db → ∃ allocation batch,
        s.journal = [.locked (hostKey env payload.hostId), .committed batch] ∧
          BundleBatch (· = db) good env payload allocation batch ∧
          HostVouchedFor (· = db) env payload.hostId now ∧
          out.allocationId = allocation.id ∧ out.idempotentReplay = false) ∧
      (¬ NewRequest payload db → s.journal = [] ∧ out.idempotentReplay = true ∧
        ∃ existing, db.filedFor payload = [existing] ∧ out.allocationId = existing.id ∧
          List.Forall₂ (fun row entry => entry.port = row.port ∧ entry.protocol = row.protocol)
            (db.listedFor existing) out.allocations)

theorem allocationsByRequestId_eq_nil_iff {db : Db} {requestId : String} :
    db.allocationsByRequestId requestId = [] ↔
      ∀ allocation ∈ db.allocations, allocation.requestId ≠ some requestId := by
  simp [Db.allocationsByRequestId, List.filter_eq_nil_iff]

section Alone

variable {env : Environment} {payload : AllocationIn} {db : Db} {draws : ℕ → Draw}
  {faults : ℕ → Option DbError} {good : List (AllocationRequestItem × ℕ) → Prop}

/-- The session that resolves the ports of a call that runs alone. -/
def resolvingSession (env : Environment) (payload : AllocationIn) (draws : ℕ → Draw)
    (faults : ℕ → Option DbError) : ServiceSession :=
  ((Session.start draws faults).afterLock (hostKey env payload.hostId)).afterDraw

/-- Whatever is resolved alone satisfies `good`. -/
def ResolvesAlone (good : List (AllocationRequestItem × ℕ) → Prop) (env : Environment)
    (payload : AllocationIn) (db : Db) (draws : ℕ → Draw) (faults : ℕ → Option DbError) : Prop :=
  ∀ host, Yields (Program.alone store db) (fun _ => True)
    (resolveAll env host payload.hostId payload.requests ∅)
    (resolvingSession env payload draws faults) fun found => good found.1

/-- A session that committed nothing meets the contents it started on. -/
theorem alone_of_journal {s : ServiceSession} {contents : Db}
    (hjournal : s.committedWrites = []) (h : Program.alone store db s contents) : db =
        contents := by
  rw [Program.alone, hjournal] at h
  exact h.symm

/-- The session that holds the lock sees the contents the call started on. -/
theorem resolving_afterLock (key : ℤ) :
    Resolving (Program.alone store db) (· = db)
      ((Session.start draws faults : ServiceSession).afterLock key) := by
  refine ⟨by simp [Session.batch, Session.start], ?_⟩
  intro t contents _ hjournal hcontents
  refine (alone_of_journal ?_ hcontents).symm
  rw [Session.committedWrites, hjournal]
  rfl

private theorem allocateFresh_alone (hgood : ResolvesAlone good env payload db draws faults)
    (hnew : NewRequest payload db) :
    (allocateFresh env payload).Ensures store (Program.alone store db) (fun _ => True)
      (Session.start draws faults) (RunsAlone good env payload db (draws 0).now) := by
  simp only [allocateFresh, Program.bind_eq, Program.ensures_bind, ensures_select]
  intro contents hcontents
  obtain rfl := alone_of_journal rfl hcontents
  split
  · exact rfl
  · simp only [Program.ensures_bind, ensures_acquireHostLock]
    refine ensures_allocateLocked (resolving_afterLock _) hgood ?_ (fun _ _ _ _ _ _ => trivial) ?_
    · intro s' error hcommitted
      exact hcommitted
    · intro s' allocation bindProbe _ hjournal hbatch hhost
      have hcommitted : s'.afterCommit.committedWrites = s'.batch := by
        rw [Session.committedWrites_afterCommit, Session.committedWrites, hjournal]
        rfl
      have hvisible : ∀ contents, Program.alone store db s'.afterCommit contents →
          (s'.afterCommit.view store contents).getAllocation allocation.id = some allocation ∧
            ((s'.afterCommit.view store contents).getHost allocation.hostId).isSome = true := by
        intro contents hcontents
        rw [Program.alone, hcommitted] at hcontents
        rw [Session.view_of_flushed_nil store rfl, hcontents]
        obtain ⟨_, rfl, hfresh⟩ := hbatch.fresh
        obtain ⟨_, host, rfl, hhost, -⟩ := hhost
        obtain ⟨id, createdAt, rfl⟩ := hbatch.row
        refine ⟨hbatch.getAllocation hfresh, ?_⟩
        rw [Db.getHost, hbatch.hosts]
        exact Option.isSome_iff_exists.mpr ⟨host, hhost⟩
      have hanswer : (finishBundle env allocation.id bindProbe payload.requests).Ensures store
          (Program.alone store db) (fun _ => True) s'.afterCommit _ :=
        ensures_finishBundle env allocation bindProbe payload.requests hvisible
      have hobserves : (finishBundle env allocation.id bindProbe payload.requests).Ensures store
          (Program.alone store db) (fun _ => True) s'.afterCommit _ :=
        (observes_finishBundle env allocation.id bindProbe payload.requests).ensures
      refine (hanswer.and hobserves).mono ?_
      rintro s'' outcome ⟨⟨out, rfl, hid, hreplay⟩, draws', rfl⟩
      refine ⟨fun _ => ⟨allocation, s'.batch, ?_, hbatch, hhost, hid, hreplay⟩,
        fun hold => (hold hnew).elim⟩
      simp [hjournal, Session.start, hostKey]

private theorem replayAllocation_alone {requestId : String} {existing : Allocation}
    (hexisting : db.filedFor payload = [existing]) (hold : ¬ NewRequest payload db) :
    (replayAllocation env payload requestId existing).Ensures store (Program.alone store db)
      (fun _ => True) (Session.start draws faults) (RunsAlone good env payload db
          (draws 0).now) := by
  rw [replayAllocation]
  split
  · have hobserves : (buildAllocationOut env existing .notRemoteCapable payload.requests).Ensures
        store (Program.alone store db) (fun _ => True) (Session.start draws faults) _ :=
      (observes_buildAllocationOut env existing .notRemoteCapable payload.requests).ensures
    have hlists : (buildAllocationOut env existing .notRemoteCapable payload.requests).Ensures
        store (Program.alone store db) (fun _ => True) (Session.start draws faults) _ :=
      ensures_buildAllocationOut_lists env existing .notRemoteCapable payload.requests
    refine Program.Ensures.bind (hobserves.and hlists) ?_ ?_
    · rintro s' out ⟨⟨draws', rfl⟩, hout⟩
      obtain ⟨hid, contents, hcontents, hentries⟩ := hout out rfl
      obtain rfl := alone_of_journal rfl hcontents
      exact ⟨fun hnew => (hold hnew).elim, fun _ => ⟨rfl, rfl, existing, hexisting, hid,
        forall₂_of_map_shown hentries⟩⟩
    · rintro s' error ⟨⟨draws', rfl⟩, -⟩
      exact rfl
  · exact rfl

/-- The call as a whole. -/
theorem createAllocation_alone (hgood : ResolvesAlone good env payload db draws faults) :
    (createAllocation env payload).Ensures store (Program.alone store db) (fun _ => True)
      (Session.start draws faults) (RunsAlone good env payload db (draws 0).now) := by
  simp only [createAllocation, validatePurposes, Program.bind_eq, Program.ensures_bind]
  split
  · exact rfl
  · simp only [Program.pure_eq_ret, Program.ensures_ret, lookUpRequest, getByRequestId]
    cases hrequest : payload.requestId with
    | none => exact allocateFresh_alone hgood (by simp [NewRequest, hrequest])
    | some requestId =>
        simp only [Program.bind_eq, Program.ensures_bind, ensures_select]
        intro contents hcontents
        obtain rfl := alone_of_journal rfl hcontents
        have hview : (Session.start draws faults : ServiceSession).view store db = db := rfl
        rw [hview]
        cases hrows : db.allocationsByRequestId requestId with
        | nil =>
            refine allocateFresh_alone hgood ?_
            intro other hother
            rw [hrequest, Option.mem_some_iff] at hother
            subst hother
            exact allocationsByRequestId_eq_nil_iff.mp hrows
        | cons existing rows =>
            have hold : ¬ NewRequest payload db := by
              intro hnew
              rw [allocationsByRequestId_eq_nil_iff.mpr (hnew requestId hrequest)] at hrows
              cases hrows
            cases rows with
            | nil =>
                refine replayAllocation_alone ?_ hold
                rw [Db.filedFor, hrequest]
                exact hrows
            | cons other rows => exact rfl

end Alone

/-- A call that runs alone on `db`. -/
def runCreateAllocation (env : Environment) (payload : AllocationIn) (db : Db) (draws : ℕ → Draw)
    (faults : ℕ → Option DbError) : Outcome Db Write ℤ Draw Failure AllocationOut :=
  (createAllocation env payload).exec store (Session.start draws faults) db

/-- What a call that ran alone leaves, and how it got there. -/
theorem runCreateAllocation_spec {env : Environment} {payload : AllocationIn} {db : Db}
    {draws : ℕ → Draw} {faults : ℕ → Option DbError}
    {good : List (AllocationRequestItem × ℕ) → Prop}
    (hgood : ResolvesAlone good env payload db draws faults) :
    let run := runCreateAllocation env payload db draws faults
    RunsAlone good env payload db (draws 0).now run.session run.result ∧
      run.db = store.applyAll run.session.committedWrites db := by
  obtain ⟨hpost, hdb⟩ := (createAllocation_alone hgood).exec rfl
  exact ⟨hpost, hdb⟩

/-- Whatever runs alone resolves ports that were free in the contents it started on. -/
theorem resolvesAlone_resolved (env : Environment) (payload : AllocationIn) (db : Db)
    (draws : ℕ → Draw) (faults : ℕ → Option DbError) :
    ResolvesAlone (Resolved (· = db) payload.hostId payload.requests ∅) env payload db draws
      faults :=
  fun host => yields_resolveAll env host (resolving_afterLock _).afterDraw payload.hostId
    payload.requests ∅

/-- All or nothing. A call that raises leaves the committed database as it was; a call
that returns for a new request commits once, everything of the bundle in that one
commit, and holds the host lock from before its checks until then. -/
theorem createAllocation_atomic (env : Environment) (payload : AllocationIn) (db : Db)
    (draws : ℕ → Draw) (faults : ℕ → Option DbError) :
    let run := runCreateAllocation env payload db draws faults
    (∀ error, run.result = .error error → run.db = db) ∧
      ∀ out, run.result = .ok out → NewRequest payload db →
        ∃ probes allocation grants,
          run.session.journal = [.locked (hostKey env payload.hostId),
            .committed (probes ++ .insertAllocation allocation :: grantWrites grants)] ∧
          run.db = store.applyAll (probes ++ .insertAllocation allocation :: grantWrites
              grants) db ∧
          (∀ write ∈ probes, write.IsProbe) ∧
          allocation.id = out.allocationId ∧ allocation.requestId = payload.requestId ∧
          grants.length = payload.requests.length ∧
          ∀ grant ∈ grants, grant.1.allocationId = some allocation.id ∧
            ∃ id timestamp, grant.2 = reservationCreated grant.1 id timestamp := by
  intro run
  obtain ⟨hpost, hdb⟩ := runCreateAllocation_spec (resolvesAlone_resolved env payload db
      draws faults)
  refine ⟨?_, ?_⟩
  · intro error herror
    rw [show (runCreateAllocation env payload db draws faults).result = .error error from herror]
      at hpost
    have hnothing : run.session.committedWrites = [] := hpost
    rw [show run.db = _ from hdb, hnothing]
    rfl
  · intro out hok hnew
    rw [show (runCreateAllocation env payload db draws faults).result = .ok out from hok] at hpost
    obtain ⟨allocation, batch, hjournal, hbatch, -, hid, -⟩ := hpost.1 hnew
    obtain ⟨probes, resolved, grants, rfl, hprobes, hresolved, hgrants⟩ := hbatch.writes
    refine ⟨probes, allocation, grants, hjournal, ?_, hprobes, hid.symm, ?_, ?_, ?_⟩
    · have hcommitted : run.session.committedWrites =
          probes ++ .insertAllocation allocation :: grantWrites grants := by
        rw [Session.committedWrites, hjournal]
        simp
      rw [show run.db = _ from hdb, hcommitted]
    · obtain ⟨id, createdAt, rfl⟩ := hbatch.row
      rfl
    · rw [← hgrants.length_eq, ← hresolved.names, List.length_map]
    · intro grant hgrant
      obtain ⟨entry, -, ⟨id, hrow⟩, hevent⟩ := exists_entry_of_mem hgrants hgrant
      refine ⟨?_, hevent⟩
      rw [hrow]
      rfl

/-! ## A sample registry -/

/-- Settings without environment variables, with simple stand-ins for the hashes. -/
def sampleEnvironment : Environment where
  settings := .default
  digest payload := String.intercalate "," (payload.project :: payload.hostId ::
    payload.requests.map fun request => request.name)
  hashtext _ := 7
  databaseUtcOffset := 0

/-- A host that was last seen at instant 0. -/
def sampleHost : Host where
  id := ⟨1⟩
  hostname := "web-1"
  operatingSystem := "Linux"
  osVersion := none
  architecture := none
  agentVersion := none
  dockerAvailable := false
  protocolVersion := some 1
  firstSeen := 0
  lastSeen := 0
  status := "online"
  lifecycleState := .active
  lastScanObservedAt := none
  contractVersion := none
  pythonVersion := none

/-- A registry that knows one host and nothing else. -/
def sampleDb : Db where
  hosts := [sampleHost]
  allocations := []
  reservations := []
  current := []
  events := []
  activity := []
  probes := []
  scans := []

/-- A request for an API port, preferably 8000. -/
def sampleItem : AllocationRequestItem where
  name := "api"
  purpose := "api"
  protocol := .tcp
  preferredPort := some 8000
  requestedRange := none
  name_length := by decide
  name_stripped := by decide
  purpose_length := by decide
  preferredPort_bounds := by decide
  requestedRange_accepted := requestedRange_none_accepted
  preferredPort_within_range := by decide

theorem shop_length : 1 ≤ "shop".length ∧ "shop".length ≤ 255 := by decide

/-- A bundle of one such request on the sample host. -/
def samplePayload : AllocationIn where
  project := "shop"
  hostId := sampleHost.id
  requests := [sampleItem]
  requestId := none
  project_length := shop_length
  requests_length := by decide
  requestId_length := requestId_none_length
  names_nodup := by decide

theorem samplePayload_hostId : samplePayload.hostId = sampleHost.id := rfl

/-- Clocks that stand at instant 0, and a fresh identifier at every draw. -/
def sampleDraws (first : ℕ) (i : ℕ) : Draw := ⟨0, ⟨BitVec.ofNat 128 (first + i)⟩, 0⟩

/-! ## What is granted -/

/-- A reservation row serves an entry of a bundle in the contents before the call: the
entry asked for its port, which was neither observed nor reserved. -/
structure Serves (db : Db) (hostId : Uuid) (item : AllocationRequestItem)
    (row : CentralReservation) : Prop where
  host : row.hostId = hostId
  name : row.requestName = some item.name
  protocol : row.protocol = item.protocol
  wanted : item.Wants row.port
  unobserved : ¬ db.Observed hostId row.port item.protocol
  unreserved : ¬ db.Reserved hostId row.port item.protocol

theorem serves_grantedRow {db : Db} {payload : AllocationIn} {allocationId : Uuid}
    {entry : AllocationRequestItem × ℕ} (id : Uuid) (hcomplete : db.ListingComplete payload.hostId)
    (h : Grantable (· = db) payload.hostId entry.1 ∅ entry.2) :
    Serves db payload.hostId entry.1 (grantedRow payload allocationId entry id) := by
  obtain ⟨_, rfl, hunobserved⟩ := h.unobserved
  obtain ⟨_, rfl, hunreserved⟩ := h.unreserved
  exact ⟨rfl, rfl, rfl, h.wanted, hunobserved, hunreserved hcomplete⟩

/-- The rows of a bundle, one for each request in order. -/
theorem serves_grants {db : Db} {payload : AllocationIn} {allocationId : Uuid}
    {resolved : List (AllocationRequestItem × ℕ)}
    {grants : List (CentralReservation × ActivityEvent)}
    (hcomplete : db.ListingComplete payload.hostId)
    (hresolved : ∀ entry ∈ resolved, Grantable (· = db) payload.hostId entry.1 ∅ entry.2)
    (h : List.Forall₂ (IsGrant payload allocationId) resolved grants) :
    List.Forall₂ (Serves db payload.hostId) (resolved.map Prod.fst) (grants.map Prod.fst) := by
  induction h with
  | nil => exact .nil
  | @cons entry grant resolved grants hgrant _ ih =>
      obtain ⟨⟨id, hrow⟩, -⟩ := hgrant
      refine .cons ?_ (ih fun other hother => hresolved other (List.mem_cons_of_mem _ hother))
      rw [hrow]
      exact serves_grantedRow id hcomplete (hresolved entry List.mem_cons_self)

/-- The names of a bundle's rows are those of its requests. -/
theorem names_of_serves {db : Db} {hostId : Uuid} {items : List AllocationRequestItem}
    {rows : List CentralReservation} (h : List.Forall₂ (Serves db hostId) items rows) :
    rows.map CentralReservation.requestName = items.map fun item => some item.name := by
  induction h with
  | nil => rfl
  | cons hserves _ ih => simp only [List.map_cons, ih, hserves.name]

/-- A granted bundle is sound: its new rows correspond to its requests by name, on
distinct ports, each of them wanted by its request and free on the host before. -/
theorem createAllocation_sound (env : Environment) (payload : AllocationIn) (db : Db)
    (draws : ℕ → Draw) (faults : ℕ → Option DbError) (out : AllocationOut)
    (hcomplete : db.ListingComplete payload.hostId) (hnew : NewRequest payload db)
    (hok : (runCreateAllocation env payload db draws faults).result = .ok out) :
    ∃ rows,
      (runCreateAllocation env payload db draws faults).db.reservations =
        db.reservations ++ rows ∧
      List.Forall₂ (Serves db payload.hostId) payload.requests rows ∧
      (rows.map CentralReservation.requestName).Nodup ∧
      (rows.map CentralReservation.port).Nodup ∧
      ∀ row ∈ rows, row.allocationId = some out.allocationId := by
  obtain ⟨hpost, hdb⟩ := runCreateAllocation_spec (resolvesAlone_resolved env payload db
      draws faults)
  rw [hok] at hpost
  obtain ⟨allocation, batch, hjournal, hbatch, -, hid, -⟩ := hpost.1 hnew
  obtain ⟨resolved, grants, hresolved, hgrants, happly⟩ := hbatch.applyAll
  obtain ⟨probes, hcontents⟩ := happly db
  have hserves : List.Forall₂ (Serves db payload.hostId) payload.requests
      (grants.map Prod.fst) := by
    have hall := serves_grants hcomplete hresolved.grantable hgrants
    rwa [hresolved.names] at hall
  refine ⟨grants.map Prod.fst, ?_, hserves, ?_, ?_, ?_⟩
  · have hcommitted :
        (runCreateAllocation env payload db draws faults).session.committedWrites = batch := by
      rw [Session.committedWrites, hjournal]
      simp
    rw [hdb, hcommitted, hcontents]
  · have hnames := payload.names_nodup.map (Option.some_injective String)
    rw [List.map_map] at hnames
    rw [names_of_serves hserves]
    exact hnames
  · rw [ports_grants hgrants]
    exact hresolved.nodup
  · intro row hrow
    obtain ⟨grant, hgrant, rfl⟩ := List.mem_map.mp hrow
    obtain ⟨entry, -, ⟨id, hgranted⟩, -⟩ := exists_entry_of_mem hgrants hgrant
    rw [hgranted, hid]
    rfl

/-- The sample host, where something listens on 8000 and 8001 is reserved. -/
def busyDb : Db :=
  { sampleDb with
    current := [
      { id := ⟨10⟩
        hostId := sampleHost.id
        port := 8000
        protocol := .tcp
        bindAddress := defaultBindAddress
        state := "ACTIVE"
        source := "SYSTEM"
        pid := none
        processName := none
        processPath := none
        workingDirectory := none
        containerId := none
        containerName := none
        containerImage := none
        containerPort := none
        dockerComposeProject := none
        serviceName := none
        projectName := none
        purpose := none
        category := none
        detectionConfidence := none
        firstSeen := 0
        lastSeen := 0
        observedAt := 0
        scanId := ⟨11⟩ }]
    reservations := [
      { id := ⟨12⟩
        hostId := sampleHost.id
        port := 8001
        protocol := .tcp
        bindAddress := none
        project := "blog"
        service := none
        purpose := none
        notes := none
        localReservationId := none
        allocationId := none
        requestName := none }] }

/-- Two entries that prefer 8000, and a database. -/
def busyPayload : AllocationIn :=
  { samplePayload with
    requests := [
      sampleItem,
      { sampleItem with
        name := "admin"
        name_length := by decide
        name_stripped := by decide },
      { sampleItem with
        name := "db"
        purpose := "postgres"
        preferredPort := none
        name_length := by decide
        name_stripped := by decide
        purpose_length := by decide
        preferredPort_bounds := preferredPort_none_bounds
        preferredPort_within_range := by decide }]
    requests_length := by decide
    names_nodup := by decide }

/-- The two entries that prefer 8000 are given the next free ports, each its own; the answer lists
the bundle by port. -/
theorem createAllocation_sound_sample :
    ∃ out, (runCreateAllocation sampleEnvironment busyPayload busyDb (sampleDraws 100)
        fun _ => none).result = .ok out ∧
      out.allocations.map AllocationEntryOut.port = [5432, 8002, 8003] ∧
      ∃ rows,
        (runCreateAllocation sampleEnvironment busyPayload busyDb (sampleDraws 100)
          fun _ => none).db.reservations = busyDb.reservations ++ rows ∧
        List.Forall₂ (Serves busyDb busyPayload.hostId) busyPayload.requests rows ∧
        (rows.map CentralReservation.requestName).Nodup ∧
        (rows.map CentralReservation.port).Nodup ∧
        ∀ row ∈ rows, row.allocationId = some out.allocationId :=
  ⟨_, rfl, by decide +kernel, createAllocation_sound sampleEnvironment busyPayload busyDb
    (sampleDraws 100) (fun _ => none) _ (by decide) (by decide) rfl⟩

end Central
