/-
# What `workflow prepare` promises

`prepare_workflow` asks Central for one suggestion per request and is ready if every suggestion
names a port. A suggestion looks at the default range of the purpose alone: it knows neither the
preferred port nor the range of the request, nor what the other requests are given. So the
workflow is ready exactly if Central could serve every request by itself, without its preferred
port and range; of the bundle as a whole it says nothing.
-/

import PortForge.Agent.ManifestBodies
import PortForge.Central.Giving

namespace Agent

open Central Transaction Python Effects

/-! ## The preview -/

/-- An entry of `build_candidate_preview`. -/
structure CandidatePreview where
  name : String
  purpose : String
  protocol : String
  preferredPort : Option ℕ
  candidatePort : Option ℕ
  candidatesConsidered : Option ℕ
  basis : Option String

/-- The entry of a request, from what Central answered, if the call succeeded. -/
def previewOf (item : ManifestPortRequest) (answer : Option CentralRecommendationOut) :
    CandidatePreview where
  name := item.name
  purpose := item.purpose
  protocol := item.protocol
  preferredPort := item.preferredPort
  candidatePort := answer.bind fun out => out.recommendedPort
  candidatesConsidered := answer.map fun out => out.candidatesConsidered
  basis := answer.map fun out => out.basis

/-- `build_candidate_preview`. The call for the request at an index gets the answer at it. -/
def buildCandidatePreview (answers : ℕ → Option CentralRecommendationOut)
    (requests : List ManifestPortRequest) : List CandidatePreview :=
  requests.mapIdx fun index item => previewOf item (answers index)

/-- What `prepare_workflow` returns. -/
structure PreparedWorkflow where
  contractVersion : ℕ
  ready : Bool
  project : String
  host : NormalizedHostRef
  requests : List CandidatePreview
  configFiles : List (String × String)
  warnings : List String
  nextActions : List String

/-- The files that the manifest maps, with their kinds. -/
def configFilesOf (config : Option ConfigMappings) : List (String × String) :=
  match config with
  | none => []
  | some config =>
      config.dotenv.map (fun mapping => (mapping.file, "dotenv")) ++
        config.compose.map (fun mapping => (mapping.file, "compose")) ++
        config.kubernetes.map fun mapping => (mapping.file, "kubernetes")

/-- The warning of a preview without a port. -/
def warningOf (candidate : CandidatePreview) : Option String :=
  if candidate.candidatePort.isNone then
    let name := candidate.name
    let purpose := candidate.purpose
    some s!"No candidate port currently available for '{name}' (purpose '{purpose}')."
  else none

/-- `prepare_workflow`. -/
def prepareWorkflow (answers : ℕ → Option CentralRecommendationOut) (manifest : ProjectManifest)
    (host : NormalizedHostRef) : PreparedWorkflow :=
  let candidates := buildCandidatePreview answers manifest.requests
  let configFiles := configFilesOf manifest.config
  let warnings := candidates.filterMap warningOf
  { contractVersion := 1
    ready := warnings.length = 0
    project := manifest.project
    host := host
    requests := candidates
    configFiles := configFiles
    warnings := warnings
    nextActions := ["workflow apply"] ++
      if configFiles = [] then
        ["allocate (no config mappings declared -- 'workflow apply' will only allocate)"]
      else [] }

/-! ## What the calls are answered -/

/-- Every call for a suggestion is answered by `suggest_port` on the same contents. Each call has
a session of its own. -/
def AnsweredOn (env : Environment) (db : Db) (hostId : Uuid) (requests : List ManifestPortRequest)
    (answers : ℕ → Option CentralRecommendationOut) : Prop :=
  ∀ index item, requests[index]? = some item → ∃ protocol draws faults out,
    Protocol.value protocol = item.protocol ∧
    (runSuggestPort env hostId item.purpose protocol db draws faults).result = .ok out ∧
    answers index = some out

/-- The listings show a port of the purpose's default range free, for every request. -/
def PurposesOpen (db : Db) (hostId : Uuid) (items : List AllocationRequestItem) : Prop :=
  ∀ item ∈ items, ∃ range ∈ defaultRange item.purpose, ∃ port,
    range.1 ≤ port ∧ port ≤ range.2 ∧ db.Free hostId item.protocol port

theorem preferredPort_none_within_range : ∀ port ∈ (none : Option ℕ),
    ∀ text ∈ (none : Option String), ∀ range ∈ rangeBounds text,
      range.1 ≤ port ∧ port ≤ range.2 := by
  simp

/-- The request without its preferred port and its range. -/
def plainRequest (item : AllocationRequestItem) : AllocationRequestItem where
  name := item.name
  purpose := item.purpose
  protocol := item.protocol
  preferredPort := none
  requestedRange := none
  name_length := item.name_length
  name_stripped := item.name_stripped
  purpose_length := item.purpose_length
  preferredPort_bounds := preferredPort_none_bounds
  requestedRange_accepted := requestedRange_none_accepted
  preferredPort_within_range := preferredPort_none_within_range

/-- The body for one plain request. -/
def bodyAlone (payload : AllocationIn) (item : AllocationRequestItem) : AllocationIn where
  project := payload.project
  hostId := payload.hostId
  requests := [plainRequest item]
  requestId := payload.requestId
  project_length := payload.project_length
  requests_length := by simp [maxBundleSize]
  requestId_length := payload.requestId_length
  names_nodup := List.nodup_singleton _

section Readiness

variable {env : Environment} {db : Db} {hostId : Uuid} {manifest : ProjectManifest}
  {host : NormalizedHostRef} {answers : ℕ → Option CentralRecommendationOut}

/-- Where no probe of the host is recorded, none counts as evidence. -/
theorem noOccupationKnown_of_probes (h : ∀ probe ∈ db.probes, probe.hostId ≠ hostId) :
    db.NoOccupationKnown hostId := by
  intro protocol now port hoccupied
  have hnone : (db.probes.filter fun probe => probe.hostId = hostId ∧ probe.port = port ∧
      probe.protocol = protocol ∧ probe.bindAddress = defaultBindAddress) = [] := by
    refine List.filter_eq_nil_iff.mpr fun probe hprobe hmatch => ?_
    exact h probe hprobe (of_decide_eq_true hmatch).1
  rw [Db.KnownOccupied, Db.probeEvidence, Db.findLatestForBinding, hnone] at hoccupied
  cases hoccupied

/-- The workflow is ready if every entry of the preview has a port. -/
theorem ready_iff : (prepareWorkflow answers manifest host).ready = true ↔
    ∀ candidate ∈ buildCandidatePreview answers manifest.requests,
      candidate.candidatePort.isSome = true := by
  change decide (_ = 0) = true ↔ _
  rw [decide_eq_true_eq, List.length_eq_zero_iff, List.filterMap_eq_nil_iff]
  refine forall_congr' fun candidate => imp_congr_right fun _ => ?_
  cases hport : candidate.candidatePort <;> simp [warningOf, hport]

/-- A range has a candidate exactly if the listings show one of its ports free. -/
theorem head?_candidates_isSome_iff {protocol : Protocol} {range : Option (ℕ × ℕ)} :
    (db.candidates hostId protocol ∅ range).head?.isSome = true ↔
      ∃ bounds ∈ range, ∃ port, bounds.1 ≤ port ∧ port ≤ bounds.2 ∧ db.Free hostId protocol port := by
  have hmem {ports : List ℕ} : ports ≠ [] ↔ ∃ port, port ∈ ports :=
    ⟨List.exists_mem_of_ne_nil ports, fun ⟨_, hport⟩ => List.ne_nil_of_mem hport⟩
  rw [List.isSome_head?, hmem]
  cases range with
  | none => simp [Db.candidates]
  | some bounds =>
      simp only [Db.candidates, Option.map_some, Option.getD_some, Db.freeInRange,
        Finset.union_empty, List.mem_filter, List.mem_range'_1, decide_eq_true_eq,
        Finset.mem_union, not_or, mem_occupiedPorts, mem_reservedPorts, Option.mem_some_iff,
        exists_eq_left', Db.Free, List.any_eq_true]
      refine exists_congr fun port => ?_
      constructor
      · rintro ⟨hbounds, hcurrent, hrows⟩
        have hrange : bounds.1 ≤ port ∧ port ≤ bounds.2 := by omega
        exact ⟨hrange.1, hrange.2, fun h => hcurrent ⟨hrange, h⟩, fun h => hrows ⟨hrange, h⟩⟩
      · rintro ⟨hlow, hhigh, hcurrent, hrows⟩
        exact ⟨by omega, fun h => hcurrent h.2, fun h => hrows h.2⟩

/-- The suggestion for a request is a port exactly if its default range is open. -/
theorem candidatePort_isSome_iff {request : ManifestPortRequest} {item : AllocationRequestItem}
    {index : ℕ} (hquiet : db.NoOccupationKnown hostId)
    (hanswers : AnsweredOn env db hostId manifest.requests answers)
    (hrequest : manifest.requests[index]? = some request) (hitem : ItemAccepted request item) :
    (previewOf request (answers index)).candidatePort.isSome = true ↔
      ∃ range ∈ defaultRange item.purpose, ∃ port,
        range.1 ≤ port ∧ port ≤ range.2 ∧ db.Free hostId item.protocol port := by
  obtain ⟨protocol, draws, faults, out, hprotocol, hresult, hanswer⟩ :=
    hanswers index request hrequest
  have hsame : protocol = item.protocol := by
    have hvalue := hprotocol.trans hitem.protocol.symm
    revert hvalue
    cases protocol <;> cases item.protocol <;> decide
  rw [previewOf, hanswer, Option.bind_some, recommendedPort_eq hquiet hresult, hsame,
    ← hitem.purpose]
  exact head?_candidates_isSome_iff

/-- The suggestions name a port for every request exactly if the default ranges are open. -/
theorem ready_iff_purposesOpen {items : List AllocationRequestItem}
    (hquiet : db.NoOccupationKnown hostId)
    (hanswers : AnsweredOn env db hostId manifest.requests answers)
    (hitems : List.Forall₂ ItemAccepted manifest.requests items) :
    (prepareWorkflow answers manifest host).ready = true ↔ PurposesOpen db hostId items := by
  obtain ⟨hlength, hget⟩ := List.forall₂_iff_get.mp hitems
  rw [ready_iff]
  constructor
  · intro hports item hitem
    obtain ⟨index, hindex, rfl⟩ := List.getElem_of_mem hitem
    have hlow : index < manifest.requests.length := hlength ▸ hindex
    refine (candidatePort_isSome_iff hquiet hanswers (List.getElem?_eq_getElem hlow)
      (hget index hlow hindex)).mp (hports _ ?_)
    exact List.mem_mapIdx.mpr ⟨index, hlow, rfl⟩
  · intro hopen candidate hcandidate
    obtain ⟨index, hindex, rfl⟩ := List.mem_mapIdx.mp hcandidate
    have hhigh : index < items.length := hlength ▸ hindex
    exact (candidatePort_isSome_iff hquiet hanswers (List.getElem?_eq_getElem hindex)
      (hget index hindex hhigh)).mpr (hopen _ (List.getElem_mem hhigh))

/-- A plain request by itself is given a port exactly if its default range is open. -/
theorem findPorts_alone_iff {payload : AllocationIn} {item : AllocationRequestItem}
    {hostRow : Host} {draws : ℕ → Draw} {faults : ℕ → Option DbError}
    (hquiet : db.NoOccupationKnown payload.hostId)
    (hdatabase : ∀ error, (runFindPorts env hostRow (bodyAlone payload item) db draws faults).result ≠
      .error (.db error)) :
    (∃ found, (runFindPorts env hostRow (bodyAlone payload item) db draws faults).result = .ok found) ↔
      ∃ range ∈ defaultRange item.purpose, ∃ port,
        range.1 ≤ port ∧ port ≤ range.2 ∧ db.Free payload.hostId item.protocol port := by
  have hsearched : (plainRequest item).searchedRange = defaultRange item.purpose := rfl
  have hgive : db.give payload.hostId (plainRequest item) ∅ =
      (db.candidates payload.hostId item.protocol ∅ (defaultRange item.purpose)).head? := by
    rw [Db.give, hsearched]
    rfl
  have hknown : KnownPurposes [plainRequest item] ↔ (defaultRange item.purpose).isSome = true := by
    simp only [KnownPurposes, List.forall_mem_singleton]
    exact Iff.rfl
  have halone : db.NoOccupationKnown (bodyAlone payload item).hostId := hquiet
  rw [← head?_candidates_isSome_iff, ← hgive, findPorts_iff halone hdatabase]
  change KnownPurposes [plainRequest item] ∧ db.GivesAll payload.hostId ∅ [plainRequest item] ↔ _
  rw [hknown, Db.GivesAll]
  constructor
  · rintro ⟨-, port, hport, -⟩
    exact Option.isSome_iff_exists.mpr ⟨port, hport⟩
  · intro hgiven
    obtain ⟨port, hport⟩ := Option.isSome_iff_exists.mp hgiven
    refine ⟨?_, port, hport, trivial⟩
    cases hrange : defaultRange item.purpose with
    | some range => rfl
    | none =>
        rw [hgive, hrange] at hport
        cases hport

/-- On a host without a recorded probe, and unless the database fails, `prepare_workflow` is
ready if and only if `create_allocation` would find a port for every request by itself, without
its preferred port and its range. -/
theorem readiness_iff {payload : AllocationIn} {hostRow : Host} {draws : ℕ → Draw}
    {faults : ℕ → Option DbError} (hprobes : ∀ probe ∈ db.probes, probe.hostId ≠ payload.hostId)
    (hbody : BodyAccepted (toAllocationBody manifest host manifest.requestId) payload)
    (hanswers : AnsweredOn env db payload.hostId manifest.requests answers)
    (hdatabase : ∀ item ∈ payload.requests, ∀ error,
      (runFindPorts env hostRow (bodyAlone payload item) db draws faults).result ≠
        .error (.db error)) :
    (prepareWorkflow answers manifest host).ready = true ↔
      ∀ item ∈ payload.requests, ∃ found,
        (runFindPorts env hostRow (bodyAlone payload item) db draws faults).result = .ok found := by
  have hquiet := noOccupationKnown_of_probes hprobes
  rw [ready_iff_purposesOpen hquiet hanswers hbody.requests]
  refine forall_congr' fun item => forall_congr' fun hitem => ?_
  exact (findPorts_alone_iff hquiet (hdatabase item hitem)).symm

end Readiness

/-! ## Two requests for overlapping ranges -/

/-- A manifest that asks for a port from 8000 to 8001, and for port 8000. -/
def overlappingData : List (Scalar × Value) :=
  [(.str "version", .int 1), (.str "project", .str "shop"),
    (.str "ports", .dict
      [(.str "wide", .dict [(.str "purpose", .str "api"), (.str "range", .str "8000-8001")]),
        (.str "narrow", .dict [(.str "purpose", .str "api"), (.str "range", .str "8000-8000")])])]

def overlappingManifest : ProjectManifest where
  version := 1
  project := "shop"
  host := none
  requests := [⟨"wide", "api", "tcp", none, some "8000-8001"⟩,
    ⟨"narrow", "api", "tcp", none, some "8000-8000"⟩]
  requestId := none
  config := none

/-- Central's answer to both calls: the default range of an API is open. -/
def apiSuggestion : Option CentralRecommendationOut :=
  match (runSuggestPort sampleEnvironment sampleHost.id "api" .tcp sampleDb (sampleDraws 100)
    fun _ => none).result with
  | .ok out => some out
  | .error _ => none

theorem bodyAccepted_overlapping :
    BodyAccepted (toAllocationBody overlappingManifest ⟨sampleHost.id.text, "web-1"⟩ none)
      (overlappingPayload true) := by
  refine ⟨rfl, rfl, .cons ?_ (.cons ?_ .nil), rfl⟩
  · exact ⟨by decide, by decide, rfl, rfl, rfl, rfl⟩
  · exact ⟨by decide, by decide, rfl, rfl, rfl, rfl⟩

theorem answeredOn_overlapping :
    AnsweredOn sampleEnvironment sampleDb (overlappingPayload true).hostId
      overlappingManifest.requests fun _ => apiSuggestion := by
  intro index item hitem
  have hall : ∀ request ∈ overlappingManifest.requests,
      request.purpose = "api" ∧ request.protocol = "tcp" := by decide
  obtain ⟨hpurpose, hprotocol⟩ := hall item (List.mem_of_getElem? hitem)
  rw [hpurpose, hprotocol]
  exact ⟨.tcp, sampleDraws 100, fun _ => none, _, rfl, rfl, rfl⟩

/-- Each of the two requests would be served by itself, and the workflow is ready. -/
theorem readiness_iff_sample :
    (prepareWorkflow (fun _ => apiSuggestion) overlappingManifest
        ⟨sampleHost.id.text, "web-1"⟩).ready = true ∧
      ∀ item ∈ (overlappingPayload true).requests, ∃ found,
        (runFindPorts sampleEnvironment sampleHost (bodyAlone (overlappingPayload true) item) sampleDb
          (sampleDraws 100) fun _ => none).result = .ok found := by
  have hiff := @readiness_iff sampleEnvironment sampleDb overlappingManifest
    ⟨sampleHost.id.text, "web-1"⟩ (fun _ => apiSuggestion) (overlappingPayload true) sampleHost
    (sampleDraws 100) (fun _ => none) (fun probe hprobe => by cases hprobe)
    bodyAccepted_overlapping answeredOn_overlapping fun item hitem error => by
      fin_cases hitem <;> rintro ⟨⟩
  exact ⟨rfl, hiff.mp rfl⟩

/-! ### A full range, and a preferred port outside -/

/-- A manifest that asks for a Redis port, preferably 7000. -/
def preferringData : List (Scalar × Value) :=
  [(.str "version", .int 1), (.str "project", .str "shop"),
    (.str "ports", .dict
      [(.str "cache", .dict [(.str "purpose", .str "redis"), (.str "preferred", .int 7000)])])]

def preferringManifest : ProjectManifest where
  version := 1
  project := "shop"
  host := none
  requests := [⟨"cache", "redis", "tcp", some 7000, none⟩]
  requestId := none
  config := none

def preferringItem : AllocationRequestItem where
  name := "cache"
  purpose := "redis"
  protocol := .tcp
  preferredPort := some 7000
  requestedRange := none
  name_length := by decide
  name_stripped := by decide
  purpose_length := by decide
  preferredPort_bounds := by decide
  requestedRange_accepted := requestedRange_none_accepted
  preferredPort_within_range := by simp

def preferringPayload : AllocationIn :=
  { samplePayload with
    requests := [preferringItem]
    requests_length := by decide
    names_nodup := by decide }

/-- The sample registry with every Redis port reserved. -/
def redisReservedDb : Db :=
  { sampleDb with
    reservations := (List.range' 6379 21).map fun port =>
      grantedRow samplePayload ⟨2⟩ (sampleItem, port) ⟨BitVec.ofNat 128 port⟩ }

/-- Central's answer about a Redis port. -/
def redisSuggestion : Option CentralRecommendationOut :=
  match (runSuggestPort sampleEnvironment sampleHost.id "redis" .tcp redisReservedDb
    (sampleDraws 100) fun _ => none).result with
  | .ok out => some out
  | .error _ => none

theorem bodyAccepted_preferring :
    BodyAccepted (toAllocationBody preferringManifest ⟨sampleHost.id.text, "web-1"⟩ none)
      preferringPayload :=
  ⟨rfl, rfl, .cons ⟨by decide, by decide, rfl, rfl, rfl, rfl⟩ .nil, rfl⟩

theorem answeredOn_preferring :
    AnsweredOn sampleEnvironment redisReservedDb preferringPayload.hostId
      preferringManifest.requests fun _ => redisSuggestion := by
  intro index item hitem
  obtain rfl := List.mem_singleton.mp (List.mem_of_getElem? hitem)
  exact ⟨.tcp, sampleDraws 100, fun _ => none, _, rfl, rfl, rfl⟩

/-- The workflow is ready, but the second request is left without a port; and it is not ready
where the request would be given its preferred port. -/
theorem ready_without_ports :
    (validateManifest overlappingData = .ok overlappingManifest ∧
      BodyAccepted (toAllocationBody overlappingManifest ⟨sampleHost.id.text, "web-1"⟩ none)
        (overlappingPayload true) ∧
      sampleHost.lifecycleState = .active ∧
      (sampleEnvironment.health sampleHost.lastSeen 0).1 = .healthy ∧ sampleDb.probes = [] ∧
      AnsweredOn sampleEnvironment sampleDb (overlappingPayload true).hostId
        overlappingManifest.requests (fun _ => apiSuggestion) ∧
      (prepareWorkflow (fun _ => apiSuggestion) overlappingManifest
          ⟨sampleHost.id.text, "web-1"⟩).ready = true ∧
      ¬ ∃ found, (runFindPorts sampleEnvironment sampleHost (overlappingPayload true) sampleDb
          (sampleDraws 100) fun _ => none).result = .ok found) ∧
    validateManifest preferringData = .ok preferringManifest ∧
      BodyAccepted (toAllocationBody preferringManifest ⟨sampleHost.id.text, "web-1"⟩ none)
        preferringPayload ∧
      redisReservedDb.probes = [] ∧
      AnsweredOn sampleEnvironment redisReservedDb preferringPayload.hostId
        preferringManifest.requests (fun _ => redisSuggestion) ∧
      (prepareWorkflow (fun _ => redisSuggestion) preferringManifest
          ⟨sampleHost.id.text, "web-1"⟩).ready = false ∧
      ∃ found, (runFindPorts sampleEnvironment sampleHost preferringPayload redisReservedDb
          (sampleDraws 100) fun _ => none).result = .ok found := by
  refine ⟨⟨by rfl, bodyAccepted_overlapping, rfl, rfl, rfl, answeredOn_overlapping, rfl, ?_⟩,
    by rfl, bodyAccepted_preferring, rfl, answeredOn_preferring, by decide +kernel, ?_⟩
  · rintro ⟨found, hfound⟩
    cases hfound
  · exact ⟨_, rfl⟩

end Agent
