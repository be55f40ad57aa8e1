/-
# Allocation bundles

`createAllocation` grants a bundle of ports in one transaction: it looks an
idempotency key up, takes the host lock, re-reads the host, resolves a port for
every request, inserts the bundle and commits once. `createAllocationEndpoint`
is the API route around it.
-/

import PortForge.Central.AllocationSchema
import PortForge.Central.Recommendation
import PortForge.Central.Reservations

namespace Central

open Transaction

/-! ## Results -/

/-- `AllocationValidationOut`. -/
structure AllocationValidationOut where
  snapshotAgeSeconds : ℤ
  hostHealthState : HostHealthState
  bindProbe : BindProbe
  deriving DecidableEq

/-- `AllocationEntryOut`. -/
structure AllocationEntryOut where
  name : String
  purpose : String
  protocol : Protocol
  port : ℕ
  reservationId : Uuid
  bindAddress : Option String
  bindProbe : BindProbe
  requestedRange : Option String
  deriving DecidableEq

/-- `AllocationHostOut`. -/
structure AllocationHostOut where
  id : Uuid
  hostname : String
  deriving DecidableEq

/-- `AllocationOut`. -/
structure AllocationOut where
  idempotentReplay : Bool
  allocationId : Uuid
  project : String
  host : AllocationHostOut
  status : AllocationStatus
  allocations : List AllocationEntryOut
  validation : AllocationValidationOut
  createdAt : ℤ
  releasedAt : Option ℤ
  requestId : Option String
  deriving DecidableEq

/-! ## Errors -/

/-- The known purposes, as the error message lists them. -/
def knownPurposes : String :=
  String.intercalate ", " ((defaultRanges.map Prod.fst).insertionSort fun a b => a ≤ b)

def unknownPurpose (names : List String) : AllocationError :=
  let joined := String.intercalate ", " names
  let known := knownPurposes
  { code := .invalidRequest
    message := s!"Unknown purpose for request(s): {joined}. Known purposes: {known}."
    statusCode := 422
    details := names.map fun name => [("name", name), ("reason", "unknown purpose")] }

def idempotencyConflict (requestId : String) : AllocationError where
  code := .idempotencyConflict
  message := s!"request_id '{requestId}' was already used with a different request payload."
  statusCode := 409
  details := [[("request_id", requestId)]]

def hostNotFound (hostId : Uuid) : AllocationError :=
  let hostText := hostId.text
  { code := .hostNotFound
    message := s!"No host with id '{hostText}'."
    statusCode := 404
    details := [[("host_id", hostText)]] }

def hostDecommissioned (host : Host) : AllocationError :=
  let hostname := host.hostname
  { code := .hostDecommissioned
    message := s!"Host '{hostname}' is decommissioned -- refusing to allocate."
    statusCode := 409
    details := [[("host_id", host.id.text), ("lifecycle_state", "DECOMMISSIONED")]] }

def hostUnhealthy (host : Host) (validation : AllocationValidationOut) : AllocationError :=
  let hostname := host.hostname
  let state := validation.hostHealthState.value
  let age := validation.snapshotAgeSeconds
  { code := if validation.hostHealthState = .offline then .hostOffline else .hostStale
    message := s!"Host '{hostname}' is {state} (last seen {age}s ago) -- refusing to allocate " ++
      "against state Central cannot currently vouch for."
    statusCode := 409
    details := [[("host_id", host.id.text), ("health_state", state)]] }

def allocationUnavailable (item : AllocationRequestItem) : AllocationError :=
  let name := item.name
  let purpose := item.purpose
  { code := .allocationUnavailable
    message := s!"No available port for request '{name}' (purpose '{purpose}')."
    statusCode := 409
    details := [[("name", name), ("purpose", purpose), ("protocol", item.protocol.value)]] }

def candidatesClaimed : AllocationError where
  code := .allocationUnavailable
  message := "One or more candidate ports were claimed by a concurrent request; no reservations " ++
    "were created."
  statusCode := 409
  details := []

/-! ## Idempotency -/

/-- What `_hash_payload` hashes: order of the requests does not matter. -/
def canonicalPayload (payload : AllocationIn) : CanonicalPayload where
  project := payload.project
  hostId := payload.hostId.text
  requests :=
    (payload.requests.map fun item =>
      { name := item.name
        purpose := item.purpose
        protocol := item.protocol.value
        preferredPort := item.preferredPort
        requestedRange := item.requestedRange : CanonicalRequest }).insertionSort
      fun a b => a.name ≤ b.name

/-- `_hash_payload`. -/
def hashPayload (env : Environment) (payload : AllocationIn) : String :=
  env.digest (canonicalPayload payload)

/-- `AllocationRepository.get_by_request_id`. -/
def getByRequestId (requestId : String) : Service (Option Allocation) := do
  let rows ← select fun db => db.allocationsByRequestId requestId
  scalarOneOrNone rows

/-- The look-up of a payload's idempotency key, where it has one. -/
def lookUpRequest (payload : AllocationIn) : Service (Option Allocation) :=
  match payload.requestId with
  | none => pure none
  | some requestId => getByRequestId requestId

/-! ## Checks -/

/-- `_build_validation`. -/
def buildValidation (env : Environment) (host : Host) (bindProbe : BindProbe) :
    Service AllocationValidationOut := do
  let now ← clock
  pure
    { snapshotAgeSeconds := (env.health host.lastSeen now).2.2
      hostHealthState := (env.health host.lastSeen now).1
      bindProbe := bindProbe }

/-- `_ensure_host_allocatable`: refused unless the host is active and healthy. -/
def ensureHostAllocatable (env : Environment) (host : Host) : Service AllocationValidationOut :=
  if host.lifecycleState = .decommissioned then raise (.allocation (hostDecommissioned host))
  else do
    let validation ← buildValidation env host .notRemoteCapable
    if validation.hostHealthState ≠ .healthy then
      raise (.allocation (hostUnhealthy host validation))
    else pure validation

/-- `_validate_purposes`. -/
def validatePurposes (requests : List AllocationRequestItem) : Service Unit :=
  let unknown := requests.filter fun item => (defaultRange item.purpose).isNone
  if unknown ≠ [] then
    raise (.allocation (unknownPurpose (unknown.map fun item => item.name)))
  else pure ()

/-- `_port_is_free`. -/
def portIsFree (hostId : Uuid) (port : ℕ) (protocol : Protocol) (claimed : Finset ℕ) :
    Service Bool :=
  if port ∈ claimed then pure false
  else do
    let current ← select fun db => db.listCurrentForHost hostId
    if current.any fun row => row.port = port ∧ row.protocol = protocol then pure false
    else do
      let rows ← select fun db => db.listReservations hostId 10000
      if rows.any fun row => row.port = port ∧ row.protocol = protocol then pure false
      else do
        let evidence ← getProbeEvidence hostId port protocol
        pure (evidence.bindProbe ≠ .verifiedOccupied)

/-! ## Resolving ports -/

/-- The preferred port of a request, where it has one and it is free. -/
def freePreferredPort (hostId : Uuid) (item : AllocationRequestItem) (claimed : Finset ℕ) :
    Service (Option ℕ) :=
  match item.preferredPort with
  | none => pure none
  | some port => do
      let free ← portIsFree hostId port item.protocol claimed
      pure (if free then some port else none)

/-- `_resolve_candidate`: the preferred port if it is free, else the first suitable
port of the range. `host` is the object the session holds. -/
def resolveCandidate (env : Environment) (host : Host) (hostId : Uuid)
    (item : AllocationRequestItem) (claimed : Finset ℕ) : Service (Option ℕ × BindProbe) := do
  let preferred ← freePreferredPort hostId item claimed
  match preferred with
  | some port => do
      let evidence ← getProbeEvidence hostId port item.protocol
      if evidence.bindProbe = .verifiedFree then pure (some port, .verifiedFree)
      else if evidence.bindProbe = .notRemoteCapable then do
        let _ ← queueProbe env (some host) hostId port item.protocol
        pure (some port, .notRemoteCapable)
      else pure (some port, .notRemoteCapable)
  | none => do
      let initial ← findAvailablePort hostId item.purpose item.protocol claimed item.range
      let (result, bindProbe) ← resolveWithProbeAwareness env (some host) hostId item.protocol
        initial fun exclude =>
          findAvailablePort hostId item.purpose item.protocol (claimed ∪ exclude) item.range
      pure (result.port, bindProbe)

/-- The resolution loop of `create_allocation`: a port for every request, and whether a
fresh probe confirmed any of them. -/
def resolveAll (env : Environment) (host : Host) (hostId : Uuid) :
    List AllocationRequestItem → Finset ℕ → Service (List (AllocationRequestItem × ℕ) × BindProbe)
  | [], _ => pure ([], .notRemoteCapable)
  | item :: items, claimed => do
      let (port, itemBindProbe) ← resolveCandidate env host hostId item claimed
      match port with
      | none => do
          rollback
          raise (.allocation (allocationUnavailable item))
      | some port => do
          let (resolved, bindProbe) ← resolveAll env host hostId items (insert port claimed)
          pure ((item, port) :: resolved,
            if itemBindProbe = .verifiedFree then .verifiedFree else bindProbe)

/-! ## Inserting the bundle -/

/-- `AllocationRepository.add` of the bundle's own row. -/
def insertAllocation (env : Environment) (payload : AllocationIn) : Service Allocation := do
  let id ← newUuid
  let createdAt ← serverNow
  let allocation : Allocation :=
    { id := id
      hostId := payload.hostId
      project := payload.project
      status := .active
      releasedAt := none
      requestId := payload.requestId
      requestPayloadHash := payload.requestId.map fun _ => hashPayload env payload
      createdAt := createdAt }
  add (.insertAllocation allocation)
  flush
  pure allocation

/-- The insertion loop: one reservation and one event for every granted port. -/
def insertBundle (payload : AllocationIn) (allocationId : Uuid) :
    List (AllocationRequestItem × ℕ) → Service Unit
  | [] => pure ()
  | (item, port) :: resolved => do
      let _ ← insertReservation payload.hostId port item.protocol none payload.project none
        (some item.purpose) none none (some allocationId) (some item.name)
      insertBundle payload allocationId resolved

/-- `except IntegrityError` around the insertion loop. -/
def refuseClaimed (failure : Failure) : Service Unit :=
  if failure = .db .integrity then do
    rollback
    raise (.allocation candidatesClaimed)
  else raise failure

/-! ## Building the answer -/

/-- One entry of the answer, with its live probe evidence. -/
def buildEntry (hostId : Uuid) (requests : List AllocationRequestItem)
    (row : CentralReservation) : Service AllocationEntryOut := do
  let bindAddress := (row.bindAddress.filter fun address => address ≠ "").getD defaultBindAddress
  let evidence ← getProbeEvidence hostId row.port row.protocol bindAddress
  let request := requests.find? fun item => some item.name = row.requestName
  pure
    { name := row.requestName.getD ""
      purpose := row.purpose.getD ""
      protocol := row.protocol
      port := row.port
      reservationId := row.id
      bindAddress := row.bindAddress
      bindProbe := evidence.bindProbe
      requestedRange := request.bind fun item => item.requestedRange }

/-- The entries of the answer, in order. -/
def buildEntries (hostId : Uuid) (requests : List AllocationRequestItem) :
    List CentralReservation → Service (List AllocationEntryOut)
  | [] => pure []
  | row :: rows => do
      let entry ← buildEntry hostId requests row
      let entries ← buildEntries hostId requests rows
      pure (entry :: entries)

/-- `_build_allocation_out`. -/
def buildAllocationOut (env : Environment) (allocation : Allocation) (bindProbe : BindProbe)
    (requests : List AllocationRequestItem) : Service AllocationOut := do
  let host ← select fun db => db.getHost allocation.hostId
  let rows ← select fun db => db.listReservations allocation.hostId 1000
  let ownRows := rows.filter fun row => row.allocationId = some allocation.id
  let entries ← buildEntries allocation.hostId requests ownRows
  match host with
  | none => raise .attributeError
  | some host => do
      let validation ← buildValidation env host bindProbe
      pure
        { idempotentReplay := false
          allocationId := allocation.id
          project := allocation.project
          host := { id := host.id, hostname := host.hostname }
          status := allocation.status
          allocations := entries
          validation := validation
          createdAt := allocation.createdAt
          releasedAt := allocation.releasedAt
          requestId := allocation.requestId }

/-! ## The operation -/

/-- `db.refresh(host)`. -/
def refreshHost (hostId : Uuid) : Service Host := do
  let row ← select fun db => db.getHost hostId
  match row with
  | some host => pure host
  | none => raise .invalidRequest

/-- `db.refresh(allocation)`. -/
def refreshAllocation (allocationId : Uuid) : Service Allocation := do
  let row ← select fun db => db.getAllocation allocationId
  match row with
  | some allocation => pure allocation
  | none => raise .invalidRequest

/-- The transaction of a new bundle, up to its commit: the host re-read and checked,
every port resolved, every row inserted. -/
def prepareBundle (env : Environment) (payload : AllocationIn) :
    Service (Allocation × BindProbe) := do
  let host ← refreshHost payload.hostId
  let _ ← ensureHostAllocatable env host
  let (resolved, bindProbe) ← resolveAll env host payload.hostId payload.requests ∅
  let allocation ← insertAllocation env payload
  (insertBundle payload allocation.id resolved).tryCatch refuseClaimed
  pure (allocation, bindProbe)

/-- The answer of a new bundle, built after its commit. -/
def finishBundle (env : Environment) (allocationId : Uuid) (bindProbe : BindProbe)
    (requests : List AllocationRequestItem) : Service AllocationOut := do
  let allocation ← refreshAllocation allocationId
  buildAllocationOut env allocation bindProbe requests

/-- What happens under the host lock. -/
def allocateLocked (env : Environment) (payload : AllocationIn) : Service AllocationOut := do
  let (allocation, bindProbe) ← prepareBundle env payload
  commit
  finishBundle env allocation.id bindProbe payload.requests

/-- A request that is no replay: the host must exist, and its lock is taken. -/
def allocateFresh (env : Environment) (payload : AllocationIn) : Service AllocationOut := do
  let host ← select fun db => db.getHost payload.hostId
  match host with
  | none => raise (.allocation (hostNotFound payload.hostId))
  | some _ => do
      acquireHostLock env payload.hostId
      allocateLocked env payload

/-- A request whose key is on file: a replay, or a conflict. -/
def replayAllocation (env : Environment) (payload : AllocationIn) (requestId : String)
    (existing : Allocation) : Service AllocationOut :=
  if existing.requestPayloadHash = some (hashPayload env payload) then do
    let out ← buildAllocationOut env existing .notRemoteCapable payload.requests
    pure { out with idempotentReplay := true }
  else raise (.allocation (idempotencyConflict requestId))

/-- `create_allocation`. -/
def createAllocation (env : Environment) (payload : AllocationIn) : Service AllocationOut := do
  validatePurposes payload.requests
  let existing ← lookUpRequest payload
  match existing with
  | some existing => replayAllocation env payload (payload.requestId.getD "") existing
  | none => allocateFresh env payload

/-- `_create_allocation_impl`: the status code and the flag of the answer are what the
endpoint's own look-up found. -/
def createAllocationEndpoint (env : Environment) (payload : AllocationIn) :
    Service (ℕ × AllocationOut) := do
  let existing ← lookUpRequest payload
  let result ← createAllocation env payload
  pure (if existing.isSome then 200 else 201,
    { result with idempotentReplay := existing.isSome })

/-! ## What each part can do to its session -/

theorem observes_lookUpRequest (payload : AllocationIn) : (lookUpRequest payload).Observes := by
  rw [lookUpRequest]
  split
  · trivial
  · exact observes_select.bind fun rows => observes_scalarOneOrNone rows

theorem observes_validatePurposes (requests : List AllocationRequestItem) :
    (validatePurposes requests).Observes := by
  simp only [validatePurposes]
  split <;> trivial

theorem observes_refreshHost (hostId : Uuid) : (refreshHost hostId).Observes := by
  refine observes_select.bind fun row => ?_
  cases row <;> trivial

theorem observes_refreshAllocation (allocationId : Uuid) :
    (refreshAllocation allocationId).Observes := by
  refine observes_select.bind fun row => ?_
  cases row <;> trivial

theorem observes_ensureHostAllocatable (env : Environment) (host : Host) :
    (ensureHostAllocatable env host).Observes := by
  rw [ensureHostAllocatable]
  split
  · trivial
  · refine Program.Observes.bind (fun _ => trivial) fun validation => ?_
    split <;> trivial

theorem observes_portIsFree (hostId : Uuid) (port : ℕ) (protocol : Protocol)
    (claimed : Finset ℕ) : (portIsFree hostId port protocol claimed).Observes := by
  rw [portIsFree]
  split
  · trivial
  · refine observes_select.bind fun current => ?_
    split
    · trivial
    · refine observes_select.bind fun rows => ?_
      split
      · trivial
      · exact (observes_getProbeEvidence hostId port protocol _).bind fun _ => trivial

theorem observes_freePreferredPort (hostId : Uuid) (item : AllocationRequestItem)
    (claimed : Finset ℕ) : (freePreferredPort hostId item claimed).Observes := by
  rw [freePreferredPort]
  split
  · trivial
  · exact (observes_portIsFree hostId _ item.protocol claimed).bind fun _ => trivial

theorem probesOnly_resolveCandidate (env : Environment) (host : Host) (hostId : Uuid)
    (item : AllocationRequestItem) (claimed : Finset ℕ) :
    ProbesOnly (resolveCandidate env host hostId item claimed) := by
  refine Staging.bind (.of_observes (observes_freePreferredPort hostId item claimed))
    fun preferred => ?_
  cases preferred with
  | some port =>
      refine Staging.bind
        (.of_observes (observes_getProbeEvidence hostId port item.protocol _)) fun evidence => ?_
      split
      · exact .of_observes trivial
      · split
        · refine Staging.bind (probesOnly_queueProbe env _ hostId port item.protocol _)
            fun _ => .of_observes trivial
        · exact .of_observes trivial
  | none =>
      refine Staging.bind
        (.of_observes (observes_findAvailablePort hostId item.purpose item.protocol claimed _))
        fun initial => ?_
      refine Staging.bind ?_ fun _ => .of_observes trivial
      exact probesOnly_skipOccupied env _ hostId item.protocol
        (fun exclude => .of_observes (observes_findAvailablePort hostId _ _ _ _)) _ _ initial

theorem probesOnly_resolveAll (env : Environment) (host : Host) (hostId : Uuid)
    (items : List AllocationRequestItem) (claimed : Finset ℕ) :
    ProbesOnly (resolveAll env host hostId items claimed) := by
  induction items generalizing claimed with
  | nil => exact .of_observes trivial
  | cons item items ih =>
      rw [resolveAll]
      refine Staging.bind (probesOnly_resolveCandidate env host hostId item claimed)
        fun found => ?_
      obtain ⟨port, itemBindProbe⟩ := found
      cases port with
      | none => exact ⟨trivial, trivial⟩
      | some port => exact Staging.bind (ih _) fun _ => .of_observes trivial

theorem holding_insertReservation (hostId : Uuid) (port : ℕ) (protocol : Protocol)
    (bindAddress : Option String) (project : String)
    (service purpose notes localReservationId : Option String) (allocationId : Option Uuid)
    (requestName : Option String) :
    (insertReservation hostId port protocol bindAddress project service purpose notes
      localReservationId allocationId requestName).Holding :=
  fun _ => ⟨fun _ _ => trivial, fun _ => trivial⟩

theorem holding_insertBundle (payload : AllocationIn) (allocationId : Uuid)
    (resolved : List (AllocationRequestItem × ℕ)) :
    (insertBundle payload allocationId resolved).Holding := by
  induction resolved with
  | nil => trivial
  | cons entry resolved ih =>
      exact (holding_insertReservation _ _ _ _ _ _ _ _ _ _ _).bind fun _ => ih

theorem fails_refuseClaimed (failure : Failure) : (refuseClaimed failure).Fails := by
  rw [refuseClaimed]
  split <;> trivial

theorem holding_prepareBundle (env : Environment) (payload : AllocationIn) :
    (prepareBundle env payload).Holding := by
  refine (observes_refreshHost _).holding.bind fun host => ?_
  refine (observes_ensureHostAllocatable env host).holding.bind fun _ => ?_
  refine (probesOnly_resolveAll env host _ _ _).holding.bind fun resolved => ?_
  refine Program.Holding.bind (fun _ _ => ⟨trivial, fun _ => trivial⟩) fun allocation => ?_
  exact ((holding_insertBundle payload _ _).tryCatch fails_refuseClaimed).bind fun _ => trivial

theorem observes_buildEntries (hostId : Uuid) (requests : List AllocationRequestItem)
    (rows : List CentralReservation) : (buildEntries hostId requests rows).Observes := by
  induction rows with
  | nil => trivial
  | cons row rows ih =>
      refine Program.Observes.bind (fun _ _ => trivial) fun entry => ?_
      exact ih.bind fun _ => trivial

theorem observes_buildAllocationOut (env : Environment) (allocation : Allocation)
    (bindProbe : BindProbe) (requests : List AllocationRequestItem) :
    (buildAllocationOut env allocation bindProbe requests).Observes := by
  refine observes_select.bind fun host => observes_select.bind fun rows => ?_
  refine (observes_buildEntries _ _ _).bind fun entries => ?_
  cases host with
  | none => trivial
  | some host => exact fun _ => trivial

/-- After its commit an allocation only reads. -/
theorem observes_finishBundle (env : Environment) (allocationId : Uuid) (bindProbe : BindProbe)
    (requests : List AllocationRequestItem) :
    (finishBundle env allocationId bindProbe requests).Observes :=
  (observes_refreshAllocation allocationId).bind fun allocation =>
    observes_buildAllocationOut env allocation bindProbe requests

/-- Under the lock an allocation commits once and then only reads. -/
theorem locked_allocateLocked (env : Environment) (payload : AllocationIn) :
    (allocateLocked env payload).Locked := by
  refine (holding_prepareBundle env payload).bind_locked fun prepared => ?_
  rintro (_ | error)
  · exact (observes_finishBundle env _ _ _).quiet
  · trivial

theorem observes_replayAllocation (env : Environment) (payload : AllocationIn)
    (requestId : String) (existing : Allocation) :
    (replayAllocation env payload requestId existing).Observes := by
  rw [replayAllocation]
  split
  · exact (observes_buildAllocationOut env existing _ _).bind fun _ => trivial
  · trivial

/-- The advisory lock of a host. -/
def hostKey (env : Environment) (hostId : Uuid) : ℤ := env.hashtext hostId.text

theorem approaches_allocateFresh (env : Environment) (payload : AllocationIn) :
    (allocateFresh env payload).Approaches (hostKey env payload.hostId)
      (allocateLocked env payload) := by
  refine observes_select.bind_approaches fun host => ?_
  cases host with
  | none => trivial
  | some host => exact ⟨rfl, rfl⟩

/-- Until it has the host lock an allocation only observes. -/
theorem approaches_createAllocation (env : Environment) (payload : AllocationIn) :
    (createAllocation env payload).Approaches (hostKey env payload.hostId)
      (allocateLocked env payload) := by
  refine (observes_validatePurposes payload.requests).bind_approaches fun _ => ?_
  refine (observes_lookUpRequest payload).bind_approaches fun existing => ?_
  cases existing with
  | none => exact approaches_allocateFresh env payload
  | some existing => exact (observes_replayAllocation env payload _ existing).approaches

/-! ## What an allocation writes -/

/-- The write is one of those that allocate on a host: a probe, the allocation, its
reservations and their events. -/
def Write.IsAllocating (hostId : Uuid) : Write → Prop
  | .insertProbe _ => True
  | .insertAllocation allocation => allocation.hostId = hostId
  | .insertReservation row => row.hostId = hostId
  | .insertActivity _ => True
  | _ => False

theorem Write.IsProbe.isAllocating {write : Write} (h : write.IsProbe) (hostId : Uuid) :
    write.IsAllocating hostId := by
  cases write <;> first | exact h.elim | trivial

theorem adds_insertAllocation (env : Environment) (payload : AllocationIn) :
    (insertAllocation env payload).Adds (Write.IsAllocating payload.hostId) := by
  refine fun id createdAt => ⟨rfl, ?_⟩
  rintro (_ | error) <;> trivial

theorem adds_insertReservation {P : Write → Prop} (hostId : Uuid) (port : ℕ) (protocol : Protocol)
    (bindAddress : Option String) (project : String)
    (service purpose notes localReservationId : Option String) (allocationId : Option Uuid)
    (requestName : Option String)
    (hrow : ∀ row : CentralReservation, row.hostId = hostId → row.port = port →
      row.protocol = protocol → row.bindAddress = bindAddress → P (.insertReservation row))
    (hevent : ∀ event, P (.insertActivity event)) :
    (insertReservation hostId port protocol bindAddress project service purpose notes
      localReservationId allocationId requestName).Adds P := by
  refine fun id => ⟨hrow _ rfl rfl rfl rfl, ?_⟩
  rintro (_ | error)
  · exact fun timestamp eventId => ⟨hevent _, trivial⟩
  · trivial

theorem adds_insertBundle (payload : AllocationIn) (allocationId : Uuid)
    (resolved : List (AllocationRequestItem × ℕ)) :
    (insertBundle payload allocationId resolved).Adds (Write.IsAllocating payload.hostId) := by
  induction resolved with
  | nil => trivial
  | cons entry resolved ih =>
      refine Program.Adds.bind ?_ fun _ => ih
      exact adds_insertReservation _ _ _ _ _ _ _ _ _ _ _ (fun row hhost _ _ _ => hhost)
        fun _ => trivial

theorem adds_prepareBundle (env : Environment) (payload : AllocationIn) :
    (prepareBundle env payload).Adds (Write.IsAllocating payload.hostId) := by
  refine (observes_refreshHost _).adds.bind fun host => ?_
  refine (observes_ensureHostAllocatable env host).adds.bind fun _ => ?_
  have hresolve := (probesOnly_resolveAll env host payload.hostId payload.requests ∅).adds
  refine (hresolve.mono fun _ hprobe => hprobe.isAllocating _).bind fun resolved => ?_
  refine (adds_insertAllocation env payload).bind fun allocation => ?_
  have hbundle := adds_insertBundle payload allocation.id resolved.1
  refine (hbundle.tryCatch fun error => ?_).bind fun _ => trivial
  exact (fails_refuseClaimed error).quiet.adds

/-- An allocation writes nothing but what allocates on its host. -/
theorem adds_createAllocation (env : Environment) (payload : AllocationIn) :
    (createAllocation env payload).Adds (Write.IsAllocating payload.hostId) := by
  refine (observes_validatePurposes payload.requests).adds.bind fun _ => ?_
  refine (observes_lookUpRequest payload).adds.bind fun existing => ?_
  cases existing with
  | some existing => exact (observes_replayAllocation env payload _ existing).adds
  | none =>
      refine Program.Adds.bind observes_select.adds fun host => ?_
      cases host with
      | none => trivial
      | some host =>
          refine (adds_prepareBundle env payload).bind fun prepared => ?_
          rintro (_ | error)
          · exact (observes_finishBundle env _ _ _).adds
          · trivial

end Central
