/-
# Snapshot ingestion

`ingest_snapshot`: a snapshot is authoritative for the whole host. Under the host lock it
is compared with the current rows of the host: what is new appears, what is known is
updated, and what is missing disappears. Observations of one binding in one snapshot are
merged beforehand.
-/

import PortForge.Central.Allocations

namespace Central

open Transaction

/-- `ObservationIn`. -/
structure ObservationIn where
  port : ℕ
  protocol : Protocol
  bindAddress : String
  state : String
  source : String
  pid : Option ℕ
  processName : Option String
  processPath : Option String
  workingDirectory : Option String
  containerId : Option String
  containerName : Option String
  containerImage : Option String
  containerPort : Option ℕ
  dockerComposeProject : Option String
  serviceName : Option String
  projectName : Option String
  purpose : Option String
  category : Option String
  detectionConfidence : Option String
  firstSeen : Datetime
  lastSeen : Datetime
  deriving DecidableEq

/-- `IngestionResult`. -/
structure IngestionResult where
  scanId : Uuid
  accepted : Bool
  reason : Option String
  observationsProcessed : ℕ
  appeared : ℕ
  changed : ℕ
  disappeared : ℕ
  duplicatesMerged : ℕ
  deriving DecidableEq

/-- `_BindingKey`. -/
abbrev BindingKey := ℕ × Protocol × String

instance : LawfulBEq BindingKey := inferInstance

/-- `_binding_key`. -/
def ObservationIn.key (obs : ObservationIn) : BindingKey := (obs.port, obs.protocol,
    obs.bindAddress)

def CurrentPortObservation.key (row : CurrentPortObservation) : BindingKey :=
  (row.port, row.protocol, row.bindAddress)

/-! ## Duplicate bindings -/

/-- `_SOURCE_RANK`. -/
def sourceRank (source : String) : ℕ :=
  if source = "docker" then 2
  else if source = "process" then 1
  else if source = "system" then 1
  else 0

/-- `_confidence_rank`. -/
def confidenceRank (confidence : Option String) : ℕ :=
  match given confidence with
  | none => 0
  | some value =>
      if value.toLower = "high" then 3
      else if value.toLower = "medium" then 2
      else if value.toLower = "low" then 1
      else 0

/-- The rank of a text that Python takes for true. -/
def givenRank (text : Option String) : ℕ := if (given text).isSome then 1 else 0

/-- `_observation_sort_key`, as the order of two observations. -/
def ObservationIn.compareRank (a b : ObservationIn) : Ordering :=
  (compare (sourceRank a.source) (sourceRank b.source)).then <|
  (compare (confidenceRank a.detectionConfidence) (confidenceRank b.detectionConfidence)).then <|
  (compare (givenRank a.processName) (givenRank b.processName)).then <|
  (compare (givenRank a.containerId) (givenRank b.containerId)).then <|
  (compare (givenRank a.projectName) (givenRank b.projectName)).then <|
  (compare (givenRank a.purpose) (givenRank b.purpose)).then <|
  (compare (a.processName.getD "") (b.processName.getD "")).then <|
  (compare (a.containerId.getD "") (b.containerId.getD "")).then <|
  (compare (a.containerName.getD "") (b.containerName.getD "")).then <|
  (compare (a.projectName.getD "") (b.projectName.getD "")).then <|
  (compare (a.category.getD "") (b.category.getD "")).then <|
  compare (a.pid.getD 0) (b.pid.getD 0)

/-- `_group_has_value` for `_PROCESS_FIELDS`. -/
def ObservationIn.hasProcess (obs : ObservationIn) : Bool :=
  obs.pid.any (fun pid => pid ≠ 0) || (given obs.processName).isSome ||
    (given obs.processPath).isSome || (given obs.workingDirectory).isSome

/-- `_copy_field_group` for `_PROCESS_FIELDS`. -/
def ObservationIn.copyProcess (target source : ObservationIn) : ObservationIn :=
  { target with
    pid := source.pid
    processName := source.processName
    processPath := source.processPath
    workingDirectory := source.workingDirectory }

/-- `_group_has_value` for `_CONTAINER_FIELDS`. -/
def ObservationIn.hasContainer (obs : ObservationIn) : Bool :=
  (given obs.containerId).isSome || (given obs.containerName).isSome ||
    (given obs.containerImage).isSome || obs.containerPort.any (fun port => port ≠ 0) ||
    (given obs.dockerComposeProject).isSome || (given obs.serviceName).isSome

/-- `_copy_field_group` for `_CONTAINER_FIELDS`. -/
def ObservationIn.copyContainer (target source : ObservationIn) : ObservationIn :=
  { target with
    containerId := source.containerId
    containerName := source.containerName
    containerImage := source.containerImage
    containerPort := source.containerPort
    dockerComposeProject := source.dockerComposeProject
    serviceName := source.serviceName }

/-- `_group_has_value` for `_DETECTION_FIELDS`. -/
def ObservationIn.hasDetection (obs : ObservationIn) : Bool :=
  (given obs.purpose).isSome || (given obs.category).isSome ||
    (given obs.detectionConfidence).isSome

/-- `_copy_field_group` for `_DETECTION_FIELDS`. -/
def ObservationIn.copyDetection (target source : ObservationIn) : ObservationIn :=
  { target with
    purpose := source.purpose
    category := source.category
    detectionConfidence := source.detectionConfidence }

/-- `_INDEPENDENT_BACKFILL_FIELDS`. -/
def ObservationIn.hasProject (obs : ObservationIn) : Bool := (given obs.projectName).isSome

def ObservationIn.copyProject (target source : ObservationIn) : ObservationIn :=
  { target with projectName := source.projectName }

/-- Fields the merged observation lacks are those of the first runner-up that has them. -/
def backfill (has : ObservationIn → Bool) (copy : ObservationIn → ObservationIn → ObservationIn)
    (runnersUp : List ObservationIn) (merged : ObservationIn) : ObservationIn :=
  if has merged then merged
  else
    match runnersUp.find? has with
    | none => merged
    | some candidate => copy merged candidate

/-- The merged observation, but for the times. -/
def mergeFields (primary : ObservationIn) (runnersUp : List ObservationIn) : ObservationIn :=
  let merged := backfill ObservationIn.hasProcess ObservationIn.copyProcess runnersUp primary
  let merged := backfill ObservationIn.hasContainer ObservationIn.copyContainer runnersUp merged
  let merged := backfill ObservationIn.hasDetection ObservationIn.copyDetection runnersUp merged
  backfill ObservationIn.hasProject ObservationIn.copyProject runnersUp merged

/-- `min` or `max` of datetimes: a naive one does not compare with an aware one. -/
def extremal (choose : ℤ → ℤ → ℤ) (first : Datetime) (rest : List Datetime) : Option Datetime :=
  if rest.all fun time => time.aware = first.aware then
    some { first with micros := rest.foldl (fun best time => choose best time.micros) first.micros }
  else none

/-- `_merge_observation_group`. -/
def mergeGroup (group : List ObservationIn) : Option ObservationIn :=
  match group.insertionSort fun a b => b.compareRank a ≠ .gt, group with
  | primary :: runnersUp, first :: rest => do
      let firstSeen ← extremal min first.firstSeen (rest.map ObservationIn.firstSeen)
      let lastSeen ← extremal max first.lastSeen (rest.map ObservationIn.lastSeen)
      some { mergeFields primary runnersUp with firstSeen := firstSeen, lastSeen := lastSeen }
  | _, _ => none

/-- The binding keys of a snapshot, in the order of their first observations. -/
def bindingOrder (observations : List ObservationIn) : List BindingKey :=
  observations.foldl (fun order obs => if obs.key ∈ order then order else order ++ [obs.key]) []

/-- The canonical observation of a binding. -/
def canonical (observations : List ObservationIn) (key : BindingKey) : Option ObservationIn :=
  match observations.filter fun obs => obs.key = key with
  | [obs] => some obs
  | group => mergeGroup group

/-- `_canonicalize_observations`; `none` where a comparison of times raises `TypeError`. -/
def canonicalizeObservations (observations : List ObservationIn) : Option (List ObservationIn) :=
  (bindingOrder observations).mapM (canonical observations)

/-! ## What is recorded -/

/-- `_meaningfully_changed`. -/
def meaningfullyChanged (current : CurrentPortObservation) (incoming : ObservationIn) : Bool :=
  current.state ≠ incoming.state ∨ current.processName ≠ incoming.processName ∨
    current.containerId ≠ incoming.containerId ∨ current.projectName ≠ incoming.projectName ∨
    current.purpose ≠ incoming.purpose

/-- The columns of a current row that follow the observation. -/
def CurrentPortObservation.observed (row : CurrentPortObservation) (env : Environment)
    (obs : ObservationIn) (scanId : Uuid) (observedAt : ℤ) : CurrentPortObservation :=
  { row with
    state := obs.state
    source := obs.source
    pid := obs.pid
    processName := obs.processName
    processPath := obs.processPath
    workingDirectory := obs.workingDirectory
    containerId := obs.containerId
    containerName := obs.containerName
    containerImage := obs.containerImage
    containerPort := obs.containerPort
    dockerComposeProject := obs.dockerComposeProject
    serviceName := obs.serviceName
    projectName := obs.projectName
    purpose := obs.purpose
    category := obs.category
    detectionConfidence := obs.detectionConfidence
    lastSeen := env.stored obs.lastSeen
    observedAt := observedAt
    scanId := scanId }

/-- The row of a binding that appears. -/
def currentRow (env : Environment) (hostId : Uuid) (obs : ObservationIn) (scanId : Uuid)
    (observedAt : ℤ) (id : Uuid) : CurrentPortObservation where
  id := id
  hostId := hostId
  port := obs.port
  protocol := obs.protocol
  bindAddress := obs.bindAddress
  state := obs.state
  source := obs.source
  pid := obs.pid
  processName := obs.processName
  processPath := obs.processPath
  workingDirectory := obs.workingDirectory
  containerId := obs.containerId
  containerName := obs.containerName
  containerImage := obs.containerImage
  containerPort := obs.containerPort
  dockerComposeProject := obs.dockerComposeProject
  serviceName := obs.serviceName
  projectName := obs.projectName
  purpose := obs.purpose
  category := obs.category
  detectionConfidence := obs.detectionConfidence
  firstSeen := env.stored obs.firstSeen
  lastSeen := env.stored obs.lastSeen
  observedAt := observedAt
  scanId := scanId

/-- The history event of an observation that appears or changes. -/
def observationEvent (hostId : Uuid) (obs : ObservationIn) (eventType : PortEventType)
    (scanId : Uuid) (observedAt : ℤ) (id : Uuid) : PortObservationEvent where
  id := id
  hostId := hostId
  port := obs.port
  protocol := obs.protocol
  bindAddress := obs.bindAddress
  eventType := eventType
  state := obs.state
  processName := obs.processName
  projectName := obs.projectName
  purpose := obs.purpose
  scanId := scanId
  occurredAt := observedAt

/-- The history event of a binding that disappears. -/
def disappearedEvent (hostId : Uuid) (row : CurrentPortObservation) (scanId : Uuid)
    (observedAt : ℤ) (id : Uuid) : PortObservationEvent where
  id := id
  hostId := hostId
  port := row.port
  protocol := row.protocol
  bindAddress := row.bindAddress
  eventType := .disappeared
  state := row.state
  processName := row.processName
  projectName := row.projectName
  purpose := row.purpose
  scanId := scanId
  occurredAt := observedAt

/-- Whom an activity event names: the process, the container or the project. -/
def identityContext (processName containerName projectName : Option String) : String :=
  (given processName <|> given containerName <|> given projectName).getD "unknown"

/-- The metadata of an activity event. -/
def projectMetadata (projectName : Option String) : Option (List (String × String)) :=
  (given projectName).map fun name => [("project_name", name)]

/-- The activity event of a binding that appears. -/
def portAppeared (hostId : Uuid) (obs : ObservationIn) (observedAt : ℤ) (id : Uuid) :
    ActivityEvent :=
  let port := obs.port
  let protocol := obs.protocol.value
  let source := obs.source
  { id := id
    hostId := hostId
    timestamp := observedAt
    eventType := .portAppeared
    port := some obs.port
    protocol := some obs.protocol
    bindAddress := some obs.bindAddress
    source := some obs.source
    identityContext := some (identityContext obs.processName obs.containerName obs.projectName)
    reservationId := none
    summary := s!"Port {port}/{protocol} appeared (source: {source})"
    metadata := projectMetadata obs.projectName }

/-- The activity event of a binding that disappears. -/
def portDisappeared (hostId : Uuid) (row : CurrentPortObservation) (observedAt : ℤ) (id : Uuid) :
    ActivityEvent :=
  let port := row.port
  let protocol := row.protocol.value
  { id := id
    hostId := hostId
    timestamp := observedAt
    eventType := .portDisappeared
    port := some row.port
    protocol := some row.protocol
    bindAddress := some row.bindAddress
    source := some row.source
    identityContext := some (identityContext row.processName row.containerName row.projectName)
    reservationId := none
    summary := s!"Port {port}/{protocol} disappeared"
    metadata := projectMetadata row.projectName }

/-! ## The operation -/

/-- What a snapshot is ingested with. -/
structure Ingest where
  hostId : Uuid
  scanId : Uuid
  observedAt : ℤ
  isBaseline : Bool

/-- A binding that was not current. -/
def appear (env : Environment) (ingest : Ingest) (obs : ObservationIn) : Service Unit := do
  let id ← newUuid
  add (.insertCurrent (currentRow env ingest.hostId obs ingest.scanId ingest.observedAt id))
  let eventId ← newUuid
  add (.insertEvent
    (observationEvent ingest.hostId obs .appeared ingest.scanId ingest.observedAt eventId))
  if ingest.isBaseline then pure ()
  else do
    let activityId ← newUuid
    add (.insertActivity (portAppeared ingest.hostId obs ingest.observedAt activityId))

/-- A binding that is current: its row follows the observation. -/
def refreshCurrent (env : Environment) (ingest : Ingest) (existing : CurrentPortObservation)
    (obs : ObservationIn) : Service Bool := do
  if meaningfullyChanged existing obs then do
    let eventId ← newUuid
    add (.insertEvent
      (observationEvent ingest.hostId obs .changed ingest.scanId ingest.observedAt eventId))
  else pure ()
  add (.updateCurrent (existing.observed env obs ingest.scanId ingest.observedAt))
  pure (meaningfullyChanged existing obs)

/-- One canonical observation: what it adds to the bindings that appeared, and to those that
changed. -/
def recordObservation (env : Environment) (ingest : Ingest) (rows : List CurrentPortObservation)
    (obs : ObservationIn) : Service (ℕ × ℕ) :=
  match rows.find? fun row => row.key = obs.key with
  | none => do
      appear env ingest obs
      pure (1, 0)
  | some existing => do
      let changed ← refreshCurrent env ingest existing obs
      pure (0, if changed then 1 else 0)

/-- The loop over the canonical observations. -/
def recordObservations (env : Environment) (ingest : Ingest)
    (rows : List CurrentPortObservation) : List ObservationIn → Service (ℕ × ℕ)
  | [] => pure (0, 0)
  | obs :: observations => do
      let counts ← recordObservation env ingest rows obs
      let later ← recordObservations env ingest rows observations
      pure (counts.1 + later.1, counts.2 + later.2)

/-- The loop over the current rows: those the snapshot lacks disappear. -/
def recordDisappearances (ingest : Ingest) (incoming : List BindingKey) :
    List CurrentPortObservation → Service ℕ
  | [] => pure 0
  | row :: rows =>
      if row.key ∈ incoming then recordDisappearances ingest incoming rows
      else do
        let eventId ← newUuid
        add (.insertEvent
          (disappearedEvent ingest.hostId row ingest.scanId ingest.observedAt eventId))
        let activityId ← newUuid
        add (.insertActivity (portDisappeared ingest.hostId row ingest.observedAt activityId))
        add (.deleteCurrent row.id)
        let disappeared ← recordDisappearances ingest incoming rows
        pure (disappeared + 1)

/-- What a snapshot changes in the current rows of its host, and the scan itself. -/
def stageChanges (env : Environment) (ingest : Ingest) (observations canonical : List ObservationIn)
    (rows : List CurrentPortObservation) : Service IngestionResult := do
  let counts ← recordObservations env ingest rows canonical
  let disappeared ← recordDisappearances ingest (canonical.map ObservationIn.key) rows
  let receivedAt ← clock
  add (.insertScan
    { id := ingest.scanId
      hostId := ingest.hostId
      observedAt := ingest.observedAt
      observationCount := observations.length
      receivedAt := receivedAt })
  add (.scanHost ingest.hostId ingest.observedAt)
  pure
    { scanId := ingest.scanId
      accepted := true
      reason := none
      observationsProcessed := observations.length
      appeared := counts.1
      changed := counts.2
      disappeared := disappeared
      duplicatesMerged := observations.length - canonical.length }

/-- What is staged for a snapshot that is neither a repetition nor stale. -/
def stageSnapshot (env : Environment) (ingest : Ingest)
    (observations canonical : List ObservationIn) : Service IngestionResult := do
  let rows ← select fun db => db.listCurrentForHost ingest.hostId
  whenReadable (rows.all CurrentPortObservation.readable)
    (stageChanges env ingest observations canonical rows)

/-- The answer to a scan that has been processed. -/
def duplicateScan (scanId : Uuid) : IngestionResult where
  scanId := scanId
  accepted := true
  reason := some "duplicate scan_id (already processed)"
  observationsProcessed := 0
  appeared := 0
  changed := 0
  disappeared := 0
  duplicatesMerged := 0

/-- A snapshot of a known host that is no repetition. -/
def ingestFor (env : Environment) (host : Host) (hostId scanId : Uuid) (observedAt : ℤ)
    (observations : List ObservationIn) : Service IngestionResult :=
  if host.lastScanObservedAt.any fun last => observedAt ≤ last then
    raise (.staleSnapshot ⟨observedAt, true⟩ (host.lastScanObservedAt.getD 0))
  else
    match canonicalizeObservations observations with
    | none => raise .typeError
    | some canonical => do
        let result ← stageSnapshot env
          { hostId := hostId, scanId := scanId, observedAt := observedAt,
            isBaseline := host.lastScanObservedAt.isNone } observations canonical
        commit
        pure result

/-- What happens under the host lock. -/
def ingestLocked (env : Environment) (hostId scanId : Uuid) (observedAt : ℤ)
    (observations : List ObservationIn) : Service IngestionResult := do
  let existing ← select fun db => db.scans.find? fun scan => scan.id = scanId
  match existing with
  | some scan => whenReadable scan.readable (pure (duplicateScan scanId))
  | none => do
      let host ← select fun db => db.getHost hostId
      match host with
      | none =>
          let hostText := hostId.text
          raise (.snapshotRejected
            s!"Unknown host_id {hostText}; enroll before submitting observations.")
      | some host =>
          whenReadable host.readable (ingestFor env host hostId scanId observedAt observations)

/-- `ingest_snapshot`. A naive `observed_at` is read as UTC. -/
def ingestSnapshot (env : Environment) (hostId scanId : Uuid) (observedAt : Datetime)
    (observations : List ObservationIn) (maxBatchSize : ℕ) : Service IngestionResult :=
  if maxBatchSize < observations.length then
    let count := observations.length
    raise (.batchTooLarge (s!"Snapshot has {count} observations, exceeding the configured " ++
      s!"limit of {maxBatchSize}."))
  else do
    acquireHostLock env hostId
    ingestLocked env hostId scanId observedAt.micros observations

/-! ## Canonical observations -/

theorem nodup_bindingOrder (observations : List ObservationIn) :
    (bindingOrder observations).Nodup := by
  have hgrow : ∀ order : List BindingKey, order.Nodup → (observations.foldl
      (fun order obs => if obs.key ∈ order then order else order ++ [obs.key]) order).Nodup := by
    induction observations with
    | nil => exact fun order h => h
    | cons obs observations ih =>
        intro order h
        rw [List.foldl_cons]
        refine ih _ ?_
        split
        · exact h
        · next hnew =>
            refine List.nodup_append.mpr ⟨h, List.nodup_singleton _, ?_⟩
            rintro a ha b hb rfl
            exact hnew (List.mem_singleton.mp hb ▸ ha)
  exact hgrow [] List.nodup_nil

/-- What copying leaves alone, backfilling leaves alone. -/
theorem backfill_frame {β : Type} (f : ObservationIn → β) (has : ObservationIn → Bool)
    (copy : ObservationIn → ObservationIn → ObservationIn)
    (hcopy : ∀ target source, f (copy target source) = f target)
    (runnersUp : List ObservationIn) (merged : ObservationIn) :
    f (backfill has copy runnersUp merged) = f merged := by
  rw [backfill]
  split
  · rfl
  · split
    · rfl
    · exact hcopy _ _

theorem key_mergeFields (primary : ObservationIn) (runnersUp : List ObservationIn) :
    (mergeFields primary runnersUp).key = primary.key := by
  simp only [mergeFields]
  have hproject := backfill_frame ObservationIn.key ObservationIn.hasProject
    ObservationIn.copyProject (fun _ _ => rfl) runnersUp
  have hdetection := backfill_frame ObservationIn.key ObservationIn.hasDetection
    ObservationIn.copyDetection (fun _ _ => rfl) runnersUp
  have hcontainer := backfill_frame ObservationIn.key ObservationIn.hasContainer
    ObservationIn.copyContainer (fun _ _ => rfl) runnersUp
  have hprocess := backfill_frame ObservationIn.key ObservationIn.hasProcess
    ObservationIn.copyProcess (fun _ _ => rfl) runnersUp
  rw [hproject, hdetection, hcontainer, hprocess]

/-- A merged observation has the binding of its group. -/
theorem key_mergeGroup {group : List ObservationIn} {merged : ObservationIn} {key : BindingKey}
    (hgroup : ∀ obs ∈ group, obs.key = key) (h : mergeGroup group = some merged) :
    merged.key = key := by
  unfold mergeGroup at h
  split at h
  · next primary runnersUp first rest hsorted =>
      simp only [Option.bind_eq_bind, Option.bind_eq_some_iff] at h
      obtain ⟨firstSeen, -, lastSeen, -, hmerged⟩ := h
      cases hmerged
      have hmem : primary ∈ (first :: rest).insertionSort fun a b => b.compareRank a ≠ .gt := by
        rw [hsorted]
        exact List.mem_cons_self
      exact (key_mergeFields primary runnersUp).trans
        (hgroup primary ((List.perm_insertionSort _ _).mem_iff.mp hmem))
  · cases h

theorem key_canonical {observations : List ObservationIn} {key : BindingKey} {obs : ObservationIn}
    (h : canonical observations key = some obs) : obs.key = key := by
  have hgroup : ∀ obs ∈ observations.filter fun obs => obs.key = key, obs.key = key :=
    fun obs hobs => of_decide_eq_true (List.mem_filter.mp hobs).2
  rw [canonical] at h
  split at h
  · next found hfound =>
      cases h
      exact hgroup obs (hfound ▸ List.mem_singleton_self obs)
  · exact key_mergeGroup hgroup h

/-- The canonical observations of a snapshot are those of its bindings. -/
theorem canonicalizeObservations_eq {observations found : List ObservationIn}
    (h : canonicalizeObservations observations = some found) :
    found.map ObservationIn.key = bindingOrder observations ∧
      ∀ obs ∈ found, canonical observations obs.key = some obs := by
  rw [canonicalizeObservations] at h
  generalize bindingOrder observations = keys at h
  induction keys generalizing found with
  | nil =>
      obtain rfl : [] = found := by simpa using h
      exact ⟨rfl, fun _ hobs => (List.not_mem_nil hobs).elim⟩
  | cons key keys ih =>
      rw [List.mapM_cons] at h
      simp only [Option.bind_eq_bind, Option.bind_eq_some_iff, Option.pure_def] at h
      obtain ⟨obs, hobs, rest, hrest, hcons⟩ := h
      cases hcons
      obtain ⟨hkeys, hcanonical⟩ := ih hrest
      refine ⟨by rw [List.map_cons, hkeys, key_canonical hobs],
        List.forall_mem_cons.mpr ⟨?_, hcanonical⟩⟩
      rw [key_canonical hobs]
      exact hobs

theorem mem_bindingOrder {observations : List ObservationIn} {key : BindingKey} :
    key ∈ bindingOrder observations ↔ key ∈ observations.map ObservationIn.key := by
  have hgrow : ∀ order : List BindingKey, key ∈ observations.foldl
      (fun order obs => if obs.key ∈ order then order else order ++ [obs.key]) order ↔
        key ∈ order ∨ key ∈ observations.map ObservationIn.key := by
    induction observations with
    | nil => simp
    | cons obs observations ih =>
        intro order
        rw [List.foldl_cons, ih, List.map_cons, List.mem_cons]
        split
        · next hmem =>
            constructor
            · exact Or.imp_right .inr
            · rintro (hold | rfl | hlater)
              · exact .inl hold
              · exact .inl hmem
              · exact .inr hlater
        · rw [List.mem_append, List.mem_singleton, or_assoc]
  exact (hgrow []).trans (by simp)

/-- A canonical observation stands for one of the snapshot's at least. -/
theorem length_canonicalizeObservations_le {observations found : List ObservationIn}
    (h : canonicalizeObservations observations = some found) :
    found.length ≤ observations.length := by
  have hsub := List.subperm_of_subset (nodup_bindingOrder observations)
    fun _ hkey => mem_bindingOrder.mp hkey
  rw [← (canonicalizeObservations_eq h).1] at hsub
  simpa using hsub.length_le

/-- A binding that a snapshot lacks has no canonical observation. -/
theorem canonical_eq_none {observations : List ObservationIn} {key : BindingKey}
    (h : key ∉ observations.map ObservationIn.key) : canonical observations key = none := by
  have hnone : observations.filter (fun obs => obs.key = key) = [] := by
    refine List.filter_eq_nil_iff.mpr fun obs hobs hsame => h ?_
    exact of_decide_eq_true hsame ▸ List.mem_map_of_mem hobs
  rw [canonical, hnone]
  rfl

/-- The canonical observations of a snapshot have different bindings. -/
theorem nodup_canonicalizeObservations {observations canonical : List ObservationIn}
    (h : canonicalizeObservations observations = some canonical) :
    (canonical.map ObservationIn.key).Nodup := by
  rw [(canonicalizeObservations_eq h).1]
  exact nodup_bindingOrder observations

/-! ## What ingestion can do to its session -/

/-- The write is one of a snapshot of a host. -/
def Write.IsIngesting (hostId scanId : Uuid) : Write → Prop
  | .insertCurrent row => row.hostId = hostId
  | .updateCurrent _ => True
  | .deleteCurrent _ => True
  | .insertEvent event => event.hostId = hostId
  | .insertActivity event => event.hostId = hostId
  | .insertScan scan => scan.hostId = hostId ∧ scan.id = scanId
  | .scanHost id _ => id = hostId
  | _ => False

theorem staging_appear (env : Environment) (ingest : Ingest) (obs : ObservationIn) :
    Staging (Write.IsIngesting ingest.hostId ingest.scanId) (appear env ingest obs) := by
  rw [appear]
  cases ingest.isBaseline with
  | true => exact ⟨fun _ _ => trivial, fun _ => ⟨rfl, fun _ => ⟨rfl, trivial⟩⟩⟩
  | false => exact ⟨fun _ _ _ => trivial, fun _ => ⟨rfl, fun _ => ⟨rfl, fun _ => ⟨rfl, trivial⟩⟩⟩⟩

theorem staging_refreshCurrent (env : Environment) (ingest : Ingest)
    (existing : CurrentPortObservation) (obs : ObservationIn) :
    Staging (Write.IsIngesting ingest.hostId ingest.scanId) (refreshCurrent env ingest existing
        obs) := by
  rw [refreshCurrent]
  split
  · exact ⟨fun _ => trivial, fun _ => ⟨rfl, trivial, trivial⟩⟩
  · exact ⟨trivial, trivial, trivial⟩

theorem staging_recordObservations (env : Environment) (ingest : Ingest)
    (rows : List CurrentPortObservation) (observations : List ObservationIn) :
    Staging (Write.IsIngesting ingest.hostId ingest.scanId) (recordObservations env ingest rows
        observations) := by
  induction observations with
  | nil => exact .of_observes trivial
  | cons obs observations ih =>
      rw [recordObservations]
      refine Staging.bind ?_ fun counts => ih.bind fun later => ⟨trivial, trivial⟩
      rw [recordObservation]
      cases rows.find? fun row => row.key = obs.key with
      | none => exact (staging_appear env ingest obs).bind fun _ => ⟨trivial, trivial⟩
      | some existing =>
          exact (staging_refreshCurrent env ingest existing obs).bind fun _ => ⟨trivial, trivial⟩

theorem staging_recordDisappearances (ingest : Ingest) (incoming : List BindingKey)
    (rows : List CurrentPortObservation) :
    Staging (Write.IsIngesting ingest.hostId ingest.scanId) (recordDisappearances ingest incoming
        rows) := by
  induction rows with
  | nil => exact .of_observes trivial
  | cons row rows ih =>
      rw [recordDisappearances]
      split
      · exact ih
      · refine Staging.bind (.of_observes observes_newUuid) fun eventId => ?_
        refine Staging.bind ⟨trivial, rfl, trivial⟩ fun _ => ?_
        refine Staging.bind (.of_observes observes_newUuid) fun activityId => ?_
        refine Staging.bind ⟨trivial, rfl, trivial⟩ fun _ => ?_
        refine Staging.bind ⟨trivial, trivial, trivial⟩ fun _ => ?_
        exact ih.bind fun _ => .of_observes trivial

theorem staging_stageChanges (env : Environment) (ingest : Ingest)
    (observations canonical : List ObservationIn) (rows : List CurrentPortObservation) :
    Staging (Write.IsIngesting ingest.hostId ingest.scanId)
      (stageChanges env ingest observations canonical rows) := by
  refine (staging_recordObservations env ingest rows canonical).bind fun counts => ?_
  refine (staging_recordDisappearances ingest _ rows).bind fun disappeared => ?_
  refine Staging.bind (.of_observes observes_clock) fun receivedAt => ?_
  exact ⟨trivial, ⟨rfl, rfl⟩, rfl, trivial⟩

theorem staging_stageSnapshot (env : Environment) (ingest : Ingest)
    (observations canonical : List ObservationIn) :
    Staging (Write.IsIngesting ingest.hostId ingest.scanId)
      (stageSnapshot env ingest observations canonical) :=
  Staging.bind (.of_observes observes_select) fun rows =>
    of_whenReadable (Staging _) (fun _ => staging_stageChanges env ingest observations canonical rows)
      (.of_observes trivial)

/-- Under the lock a snapshot commits once, and writes on its host. -/
theorem locked_ingestLocked (env : Environment) (hostId scanId : Uuid) (observedAt : ℤ)
    (observations : List ObservationIn) :
    (ingestLocked env hostId scanId observedAt observations).Locked ∧
      (ingestLocked env hostId scanId observedAt observations).Adds (Write.IsIngesting hostId
          scanId) := by
  have hfor : ∀ host : Host, (ingestFor env host hostId scanId observedAt observations).Locked ∧
      (ingestFor env host hostId scanId observedAt observations).Adds (Write.IsIngesting hostId
          scanId) := by
    intro host
    rw [ingestFor]
    split
    · exact ⟨trivial, trivial⟩
    · split
      · exact ⟨trivial, trivial⟩
      · next canonical _ =>
          have hstage := staging_stageSnapshot env
            { hostId := hostId, scanId := scanId, observedAt := observedAt,
              isBaseline := host.lastScanObservedAt.isNone } observations canonical
          refine ⟨hstage.holding.bind_locked fun result => ?_, hstage.adds.bind fun result => ?_⟩
          · rintro (_ | error) <;> trivial
          · exact adds_commit.bind fun _ => trivial
  constructor
  · refine Program.Holding.bind_locked (fun _ => trivial) fun existing => ?_
    cases existing with
    | some scan => exact of_whenReadable Program.Locked (fun _ => trivial) trivial
    | none =>
        refine Program.Holding.bind_locked (fun _ => trivial) fun host => ?_
        cases host with
        | none => trivial
        | some host => exact of_whenReadable Program.Locked (fun _ => (hfor host).1) trivial
  · refine observes_select.adds.bind fun existing => ?_
    cases existing with
    | some scan => exact adds_whenReadable _ trivial
    | none =>
        refine observes_select.adds.bind fun host => ?_
        cases host with
        | none => trivial
        | some host => exact adds_whenReadable _ (hfor host).2

end Central
