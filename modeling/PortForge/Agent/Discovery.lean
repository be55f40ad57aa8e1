/-
# Discovered ports and their encoders

A scan merges what the collectors of the operating system and of Docker report, and enriches
every port with what detection infers. Two encoders turn a discovered port into an
observation for Central: `capture_snapshot` of the daemon, and `_observation_dict` of the
one-shot synchronization. They differ in the confidence of the detection alone, which the
daemon reads under a name that no port has.
-/

import PortForge.Central.Ingestion
import Mathlib.Data.List.Sort
import Mathlib.Data.Prod.Lex
import Mathlib.Data.String.Basic

namespace Agent.Discovery

open Central

/-- `Source`. -/
inductive Source
  | process
  | docker
  | system
  | reservation
  deriving DecidableEq

def Source.value : Source → String
  | process => "process"
  | docker => "docker"
  | system => "system"
  | reservation => "reservation"

/-- `PortState`. -/
inductive PortState
  | active
  | free
  | reserved
  | conflict
  | system
  deriving DecidableEq

def PortState.value : PortState → String
  | active => "ACTIVE"
  | free => "FREE"
  | reserved => "RESERVED"
  | conflict => "CONFLICT"
  | system => "SYSTEM"

/-- `Confidence`. -/
inductive Confidence
  | high
  | medium
  | low
  | unknown
  deriving DecidableEq

def Confidence.value : Confidence → String
  | high => "high"
  | medium => "medium"
  | low => "low"
  | unknown => "unknown"

/-- `_CONFIDENCE_RANK`. -/
def Confidence.rank : Confidence → ℕ
  | unknown => 0
  | low => 1
  | medium => 2
  | high => 3

/-- `DetectionInfo`. -/
structure DetectionInfo where
  confidence : Confidence
  method : String
  evidence : List String
  deriving DecidableEq

/-- `DetectionFacts`. -/
structure DetectionFacts where
  source : String
  processName : Option String
  processPath : Option String
  commandLine : Option (List String)
  workingDirectory : Option String
  parentProcessName : Option String
  parentWorkingDirectory : Option String
  containerName : Option String
  containerImage : Option String
  containerCommand : Option (List String)
  composeProject : Option String
  composeService : Option String

/-- `ProjectDetectionResult`; the dependencies are a set in the source. -/
structure ProjectDetectionResult where
  projectName : Option String := none
  confidence : Confidence := .unknown
  method : String := "no_evidence"
  evidence : List String := []
  manifestDependencies : List String := []

/-- `PurposeDetectionResult`. -/
structure PurposeDetectionResult where
  purpose : Option String := none
  category : String := "unknown"
  confidence : Confidence := .unknown
  method : String := "no_evidence"
  evidence : List String := []

/-- `detect_project_for_directory` on the file system of the scan, and `detect_purpose`. -/
structure Detectors where
  detectProjectForDirectory : Option String → ProjectDetectionResult
  detectPurpose : DetectionFacts → List String → PurposeDetectionResult

/-- `DiscoveredPort`. -/
structure DiscoveredPort where
  port : ℕ
  protocol : Protocol
  bindAddress : String
  source : Source
  pid : Option ℕ := none
  processName : Option String := none
  processPath : Option String := none
  workingDirectory : Option String := none
  commandLine : Option (List String) := none
  parentProcessName : Option String := none
  parentWorkingDirectory : Option String := none
  containerId : Option String := none
  containerName : Option String := none
  dockerComposeProject : Option String := none
  containerImage : Option String := none
  containerCommand : Option (List String) := none
  hostPort : Option ℕ := none
  containerPort : Option ℕ := none
  projectName : Option String := none
  serviceName : Option String := none
  purpose : Option String := none
  category : Option String := none
  detection : Option DetectionInfo := none
  state : PortState := .active
  rawState : Option String := none
  firstSeen : Datetime
  lastSeen : Datetime
  deriving DecidableEq

namespace DiscoveredPort

/-- `__post_init__`. -/
def postInit (port : DiscoveredPort) : DiscoveredPort :=
  { port with hostPort := some (port.hostPort.getD port.port) }

/-- `dedupe_key`. -/
def dedupeKey (port : DiscoveredPort) : Protocol × String × ℕ × Option ℕ :=
  (port.protocol, port.bindAddress, port.port, port.pid)

/-- The key by which `discover_docker_ports` drops repetitions. -/
def dockerKey (port : DiscoveredPort) : Protocol × String × Option ℕ × Option String :=
  (port.protocol, port.bindAddress, port.hostPort, port.containerId)

/-- `_binding_key`. -/
def bindingKey (port : DiscoveredPort) : Protocol × String × ℕ :=
  (port.protocol, port.bindAddress, port.hostPort.getD port.port)

/-- `p.host_port or p.port`. -/
def shownPort (port : DiscoveredPort) : ℕ :=
  match port.hostPort with
  | none => port.port
  | some hostPort => if hostPort = 0 then port.port else hostPort

/-- The order of a scan, by a port number. -/
def Precedes (number : DiscoveredPort → ℕ) (a b : DiscoveredPort) : Prop :=
  toLex (number a, toLex (a.protocol.value, a.bindAddress)) ≤
    toLex (number b, toLex (b.protocol.value, b.bindAddress))

instance (number : DiscoveredPort → ℕ) : DecidableRel (Precedes number) :=
  fun _ _ => inferInstanceAs (Decidable (_ ≤ _))

/-- The port carries the number it has on the host. -/
def Numbered (port : DiscoveredPort) : Prop := port.hostPort = some port.port

end DiscoveredPort

open Discovery.DiscoveredPort

/-! ## Collectors -/

/-- A socket as a collector of the operating system reports it. -/
structure NativeSocket where
  port : ℕ
  protocol : Protocol
  bindAddress : String
  pid : Option ℕ
  processName : Option String
  processPath : Option String
  workingDirectory : Option String
  commandLine : Option (List String)
  parentProcessName : Option String
  parentWorkingDirectory : Option String
  rawState : Option String
  seenAt : Datetime

/-- The port a collector of the operating system makes of a socket. -/
def NativeSocket.toPort (socket : NativeSocket) : DiscoveredPort :=
  postInit
    { port := socket.port
      protocol := socket.protocol
      bindAddress := socket.bindAddress
      source := if socket.pid.getD 0 = 0 then .system else .process
      pid := socket.pid
      processName := socket.processName
      processPath := socket.processPath
      workingDirectory := socket.workingDirectory
      commandLine := socket.commandLine
      parentProcessName := socket.parentProcessName
      parentWorkingDirectory := socket.parentWorkingDirectory
      rawState := socket.rawState
      firstSeen := socket.seenAt
      lastSeen := socket.seenAt }

/-- A published port as `container_record_to_ports` reads it from a container's record. -/
structure DockerBinding where
  hostPort : ℕ
  protocol : Protocol
  bindAddress : String
  containerId : Option String
  containerName : Option String
  composeProject : Option String
  composeService : Option String
  image : Option String
  command : Option (List String)
  containerPort : ℕ
  status : Option String
  seenAt : Datetime

/-- The port `container_record_to_ports` makes of it. -/
def DockerBinding.toPort (binding : DockerBinding) : DiscoveredPort :=
  postInit
    { port := binding.hostPort
      protocol := binding.protocol
      bindAddress := binding.bindAddress
      source := .docker
      containerId := binding.containerId
      containerName := binding.containerName
      dockerComposeProject := binding.composeProject
      containerImage := binding.image
      containerCommand := binding.command
      hostPort := some binding.hostPort
      containerPort := some binding.containerPort
      serviceName := binding.composeService
      rawState := binding.status
      firstSeen := binding.seenAt
      lastSeen := binding.seenAt }

theorem NativeSocket.numbered (socket : NativeSocket) : socket.toPort.Numbered := rfl

theorem DockerBinding.numbered (binding : DockerBinding) : binding.toPort.Numbered := rfl

/-! ## Discovery -/

section Dedupe

variable {K : Type} [DecidableEq K] {key : DiscoveredPort → K} {ports : List DiscoveredPort}
  {port : DiscoveredPort}

/-- One assignment to the dict of a scan: a key it has keeps its place. -/
def assign (key : DiscoveredPort → K) (ports : List DiscoveredPort) (port : DiscoveredPort) :
    List DiscoveredPort :=
  if ports.any fun old => key old = key port then
    ports.map fun old => if key old = key port then port else old
  else ports ++ [port]

/-- The values of the dict after all assignments. -/
def deduped (key : DiscoveredPort → K) (ports : List DiscoveredPort) : List DiscoveredPort :=
  ports.foldl (assign key) []

theorem mem_of_mem_assign {new : DiscoveredPort} (h : port ∈ assign key ports new) :
    port ∈ ports ∨ port = new := by
  rw [assign] at h
  split at h
  · obtain ⟨old, hold, hsame⟩ := List.mem_map.mp h
    split at hsame
    · exact .inr hsame.symm
    · exact .inl (hsame ▸ hold)
  · simpa using h

theorem mem_of_mem_deduped (h : port ∈ deduped key ports) : port ∈ ports := by
  have hfold : ∀ (given done : List DiscoveredPort), port ∈ given.foldl (assign key) done →
      port ∈ done ∨ port ∈ given := by
    intro given
    induction given with
    | nil => exact fun done => .inl
    | cons new rest ih =>
        intro done hmem
        rcases ih _ hmem with hdone | hrest
        · rcases mem_of_mem_assign hdone with hold | rfl
          · exact .inl hold
          · exact .inr (List.mem_cons_self ..)
        · exact .inr (List.mem_cons_of_mem _ hrest)
  simpa using hfold ports [] h

end Dedupe

/-- `discover_ports`, where the collector runs. -/
def discoverPorts (sockets : List NativeSocket) : List DiscoveredPort :=
  (deduped dedupeKey (sockets.map NativeSocket.toPort)).insertionSort
    (Precedes DiscoveredPort.port)

/-- `discover_docker_ports`, where Docker answers. -/
def discoverDockerPorts (bindings : List DockerBinding) : List DiscoveredPort :=
  (deduped dockerKey (bindings.map DockerBinding.toPort)).insertionSort (Precedes shownPort)

/-- A Docker port with what the operating system says of its socket. -/
def mergedPort (nativePorts : List DiscoveredPort) (dockerPort : DiscoveredPort) :
    DiscoveredPort :=
  match nativePorts.find? fun port => bindingKey port = bindingKey dockerPort with
  | none => dockerPort
  | some native =>
      { dockerPort with
        pid := native.pid
        processName := native.processName
        processPath := native.processPath
        workingDirectory := native.workingDirectory
        rawState := (given native.rawState).or dockerPort.rawState }

/-- `merge_native_and_docker`. -/
def mergeNativeAndDocker (nativePorts dockerPorts : List DiscoveredPort) : List DiscoveredPort :=
  let unmatched := nativePorts.filter fun port =>
    ¬ dockerPorts.any fun dockerPort => bindingKey dockerPort = bindingKey port
  (dockerPorts.map (mergedPort nativePorts) ++ unmatched).insertionSort (Precedes shownPort)

/-! ## The merge -/

section Merge

variable {nativePorts dockerPorts : List DiscoveredPort} {port : DiscoveredPort}

/-- No record of Docker has the native port's socket. -/
def Unmatched (dockerPorts : List DiscoveredPort) (port : DiscoveredPort) : Bool :=
  ¬ dockerPorts.any fun dockerPort => bindingKey dockerPort = bindingKey port

/-- What becomes of a Docker record: it stays as it is where no native port has its socket, and
else takes five fields of one that has. -/
def Kept (nativePorts : List DiscoveredPort) (dockerPort merged : DiscoveredPort) : Prop :=
  (merged = dockerPort ∧ ∀ native ∈ nativePorts, bindingKey native ≠ bindingKey dockerPort) ∨
    ∃ native ∈ nativePorts, bindingKey native = bindingKey dockerPort ∧
      merged =
        { dockerPort with
          pid := native.pid
          processName := native.processName
          processPath := native.processPath
          workingDirectory := native.workingDirectory
          rawState := (given native.rawState).or dockerPort.rawState }

theorem kept_mergedPort (nativePorts : List DiscoveredPort) (dockerPort : DiscoveredPort) :
    Kept nativePorts dockerPort (mergedPort nativePorts dockerPort) := by
  unfold mergedPort
  cases hfind : nativePorts.find? fun port => bindingKey port = bindingKey dockerPort with
  | none =>
      refine .inl ⟨rfl, fun native hnative hkey => ?_⟩
      exact List.find?_eq_none.mp hfind native hnative (decide_eq_true hkey)
  | some native =>
      have hkey := List.find?_some hfind
      exact .inr ⟨native, List.mem_of_find?_eq_some hfind, of_decide_eq_true hkey, rfl⟩

theorem Kept.bindingKey_eq {dockerPort merged : DiscoveredPort}
    (h : Kept nativePorts dockerPort merged) : bindingKey merged = bindingKey dockerPort := by
  rcases h with ⟨rfl, -⟩ | ⟨native, -, -, rfl⟩
  · rfl
  · rfl

/-- The merge has the Docker records and the unmatched native ports, each as often as it was
given. -/
theorem mergeNativeAndDocker_perm (nativePorts dockerPorts : List DiscoveredPort) :
    (mergeNativeAndDocker nativePorts dockerPorts).Perm
      (dockerPorts.map (mergedPort nativePorts) ++ nativePorts.filter (Unmatched dockerPorts)) :=
  List.perm_insertionSort _ _

theorem mem_mergeNativeAndDocker :
    port ∈ mergeNativeAndDocker nativePorts dockerPorts ↔
      (∃ dockerPort ∈ dockerPorts, mergedPort nativePorts dockerPort = port) ∨
        port ∈ nativePorts ∧ Unmatched dockerPorts port := by
  rw [(mergeNativeAndDocker_perm nativePorts dockerPorts).mem_iff, List.mem_append, List.mem_map,
    List.mem_filter]

/-- The sockets of the merge are those of both scans. -/
theorem mem_bindingKeys_merge (key : Protocol × String × ℕ) :
    key ∈ (mergeNativeAndDocker nativePorts dockerPorts).map bindingKey ↔
      key ∈ nativePorts.map bindingKey ∨ key ∈ dockerPorts.map bindingKey := by
  simp only [List.mem_map, mem_mergeNativeAndDocker]
  constructor
  · rintro ⟨port, ⟨dockerPort, hdocker, rfl⟩ | ⟨hnative, -⟩, rfl⟩
    · exact .inr ⟨dockerPort, hdocker, (kept_mergedPort nativePorts dockerPort).bindingKey_eq.symm⟩
    · exact .inl ⟨port, hnative, rfl⟩
  · rintro (⟨port, hnative, rfl⟩ | ⟨dockerPort, hdocker, rfl⟩)
    · by_cases hunmatched : Unmatched dockerPorts port
      · exact ⟨port, .inr ⟨hnative, hunmatched⟩, rfl⟩
      · have hmatched :
        dockerPorts.any fun dockerPort => bindingKey dockerPort = bindingKey port := by
          simpa [Unmatched] using hunmatched
        obtain ⟨dockerPort, hdocker, hkey⟩ := List.any_eq_true.mp hmatched
        refine ⟨_, .inl ⟨dockerPort, hdocker, rfl⟩, ?_⟩
        rw [(kept_mergedPort nativePorts dockerPort).bindingKey_eq]
        exact of_decide_eq_true hkey
    · exact ⟨_, .inl ⟨dockerPort, hdocker, rfl⟩,
        (kept_mergedPort nativePorts dockerPort).bindingKey_eq⟩

/-- With one native port for each socket, the first of a socket is the one of it. -/
theorem find?_bindingKey_iff (hkeys : (nativePorts.map bindingKey).Nodup)
    {dockerPort native : DiscoveredPort} :
    (nativePorts.find? fun port => bindingKey port = bindingKey dockerPort) = some native ↔
      native ∈ nativePorts ∧ bindingKey native = bindingKey dockerPort := by
  constructor
  · intro hfind
    have hkey := List.find?_some hfind
    exact ⟨List.mem_of_find?_eq_some hfind, of_decide_eq_true hkey⟩
  · rintro ⟨hmem, hkey⟩
    cases hfind : nativePorts.find? fun port => bindingKey port = bindingKey dockerPort with
    | none => exact absurd (decide_eq_true hkey) (List.find?_eq_none.mp hfind native hmem)
    | some first =>
        have hfirst := List.find?_some hfind
        exact congrArg some (List.inj_on_of_nodup_map hkeys (List.mem_of_find?_eq_some hfind) hmem
          ((of_decide_eq_true hfirst).trans hkey.symm))

/-- So their order makes no difference to what a Docker record takes over. -/
theorem mergedPort_perm {nativePorts' : List DiscoveredPort} (hperm : nativePorts'.Perm nativePorts)
    (hkeys : (nativePorts.map bindingKey).Nodup) (dockerPort : DiscoveredPort) :
    mergedPort nativePorts' dockerPort = mergedPort nativePorts dockerPort := by
  have hkeys' : (nativePorts'.map bindingKey).Nodup := (hperm.map bindingKey).nodup_iff.mpr hkeys
  have hfind : (nativePorts'.find? fun port => bindingKey port = bindingKey dockerPort) =
      nativePorts.find? fun port => bindingKey port = bindingKey dockerPort := by
    ext native
    rw [find?_bindingKey_iff hkeys', find?_bindingKey_iff hkeys, hperm.mem_iff]
  unfold mergedPort
  rw [hfind]

/-- A merge loses and invents nothing: its sockets are those of both scans, every Docker record
is kept, every native port of another socket is as it was, nothing else is there, and the order
of native ports of distinct sockets does not show. -/
theorem mergeNativeAndDocker_conserves (nativePorts dockerPorts : List DiscoveredPort) :
    (∀ key, key ∈ (mergeNativeAndDocker nativePorts dockerPorts).map bindingKey ↔
      key ∈ nativePorts.map bindingKey ∨ key ∈ dockerPorts.map bindingKey) ∧
    (∃ kept, List.Forall₂ (Kept nativePorts) dockerPorts kept ∧
      (mergeNativeAndDocker nativePorts dockerPorts).Perm
        (kept ++ nativePorts.filter (Unmatched dockerPorts))) ∧
    (∀ port ∈ nativePorts, (∀ dockerPort ∈ dockerPorts, bindingKey dockerPort ≠ bindingKey port) →
      port ∈ mergeNativeAndDocker nativePorts dockerPorts) ∧
    (∀ port ∈ mergeNativeAndDocker nativePorts dockerPorts,
      (∃ dockerPort ∈ dockerPorts, Kept nativePorts dockerPort port) ∨
        port ∈ nativePorts ∧
          ∀ dockerPort ∈ dockerPorts, bindingKey dockerPort ≠ bindingKey port) ∧
    ∀ nativePorts' : List DiscoveredPort, nativePorts'.Perm nativePorts →
      (nativePorts.map bindingKey).Nodup → ∀ port,
        port ∈ mergeNativeAndDocker nativePorts' dockerPorts ↔
          port ∈ mergeNativeAndDocker nativePorts dockerPorts := by
  have hunmatched (port : DiscoveredPort) : Unmatched dockerPorts port ↔
      ∀ dockerPort ∈ dockerPorts, bindingKey dockerPort ≠ bindingKey port := by
    simp [Unmatched]
  refine ⟨mem_bindingKeys_merge, ?_, ?_, ?_, ?_⟩
  · refine ⟨_, ?_, mergeNativeAndDocker_perm nativePorts dockerPorts⟩
    rw [List.forall₂_map_right_iff, List.forall₂_same]
    exact fun dockerPort _ => kept_mergedPort nativePorts dockerPort
  · intro port hnative hnone
    exact mem_mergeNativeAndDocker.mpr (.inr ⟨hnative, (hunmatched port).mpr hnone⟩)
  · intro port hport
    rcases mem_mergeNativeAndDocker.mp hport with ⟨dockerPort, hdocker, rfl⟩ | ⟨hnative, hnone⟩
    · exact .inl ⟨dockerPort, hdocker, kept_mergedPort nativePorts dockerPort⟩
    · exact .inr ⟨hnative, (hunmatched port).mp hnone⟩
  · intro nativePorts' hperm hkeys port
    rw [mem_mergeNativeAndDocker, mem_mergeNativeAndDocker, hperm.mem_iff]
    simp only [mergedPort_perm hperm hkeys]

end Merge

/-! ## Detection -/

/-- `_facts_from_port`. -/
def factsFromPort (port : DiscoveredPort) : DetectionFacts where
  source := port.source.value
  processName := port.processName
  processPath := port.processPath
  commandLine := port.commandLine
  workingDirectory := port.workingDirectory
  parentProcessName := port.parentProcessName
  parentWorkingDirectory := port.parentWorkingDirectory
  containerName := port.containerName
  containerImage := port.containerImage
  containerCommand := port.containerCommand
  composeProject := port.dockerComposeProject
  composeService := port.serviceName

/-- `_combine_confidence`: the weaker of the two that are known. -/
def combineConfidence (a b : Confidence) : Confidence :=
  if a = .unknown then b
  else if b = .unknown then a
  else if b.rank < a.rank then b else a

/-- `_combine_method`. -/
def combineMethod (a b : String) : String :=
  let parts := [a, b].filter fun method => method ≠ "" ∧ method ≠ "no_evidence"
  if parts = [] then "no_evidence"
  else String.intercalate "+" (if a = b then parts.take 1 else parts)

/-- What `enrich_port` takes for the project of a port. -/
def projectOf (D : Detectors) (port : DiscoveredPort) : ProjectDetectionResult :=
  match given port.dockerComposeProject with
  | some project =>
      { projectName := some project
        confidence := .high
        method := "docker_compose"
        evidence := s!"com.docker.compose.project={project}" ::
          ((given port.serviceName).map fun service =>
            s!"com.docker.compose.service={service}").toList }
  | none =>
      if port.source = .docker then {}
      else D.detectProjectForDirectory
        ((given port.workingDirectory).or port.parentWorkingDirectory)

/-- `enrich_port`. -/
def enrichPort (D : Detectors) (port : DiscoveredPort) : DiscoveredPort :=
  let project := projectOf D port
  let purpose := D.detectPurpose (factsFromPort port) project.manifestDependencies
  { port with
    projectName := project.projectName
    purpose := purpose.purpose
    category := some purpose.category
    detection := some
      { confidence := combineConfidence project.confidence purpose.confidence
        method := combineMethod project.method purpose.method
        evidence := project.evidence ++ purpose.evidence } }

/-- `discover_all_ports`. -/
def discoverAllPorts (D : Detectors) (sockets : List NativeSocket)
    (bindings : List DockerBinding) : List DiscoveredPort :=
  (mergeNativeAndDocker (discoverPorts sockets) (discoverDockerPorts bindings)).map (enrichPort D)

section Pipeline

variable {D : Detectors} {sockets : List NativeSocket} {bindings : List DockerBinding}
  {nativePorts dockerPorts : List DiscoveredPort} {port : DiscoveredPort}

theorem numbered_discoverPorts (h : port ∈ discoverPorts sockets) : port.Numbered := by
  rw [discoverPorts, List.mem_insertionSort] at h
  obtain ⟨socket, -, rfl⟩ := List.mem_map.mp (mem_of_mem_deduped h)
  exact socket.numbered

theorem numbered_discoverDockerPorts (h : port ∈ discoverDockerPorts bindings) :
    port.Numbered := by
  rw [discoverDockerPorts, List.mem_insertionSort] at h
  obtain ⟨binding, -, rfl⟩ := List.mem_map.mp (mem_of_mem_deduped h)
  exact binding.numbered

theorem numbered_mergedPort (h : port.Numbered) : (mergedPort nativePorts port).Numbered := by
  rw [mergedPort]
  split <;> exact h

/-- A merge keeps the numbers of the ports. -/
theorem numbered_mergeNativeAndDocker (hnative : ∀ port ∈ nativePorts, port.Numbered)
    (hdocker : ∀ port ∈ dockerPorts, port.Numbered)
    (h : port ∈ mergeNativeAndDocker nativePorts dockerPorts) : port.Numbered := by
  rw [mergeNativeAndDocker, List.mem_insertionSort] at h
  rcases List.mem_append.mp h with hmerged | hunmatched
  · obtain ⟨dockerPort, hmem, rfl⟩ := List.mem_map.mp hmerged
    exact numbered_mergedPort (hdocker dockerPort hmem)
  · exact hnative port (List.mem_of_mem_filter hunmatched)

/-- Every port of a scan carries its number on the host and what detection found. -/
theorem discovered_of_mem (h : port ∈ discoverAllPorts D sockets bindings) :
    port.Numbered ∧ port.detection ≠ none := by
  obtain ⟨raw, hraw, rfl⟩ := List.mem_map.mp h
  have hnumbered := numbered_mergeNativeAndDocker (fun _ => numbered_discoverPorts)
    (fun _ => numbered_discoverDockerPorts) hraw
  exact ⟨hnumbered, Option.some_ne_none _⟩

end Pipeline

/-! ## Encoders -/

/-- One observation of `SyncManager.capture_snapshot`, with the state it evaluates. -/
def captureObservation (evaluated : PortState) (port : DiscoveredPort) : ObservationIn where
  port := port.port
  protocol := port.protocol
  bindAddress := port.bindAddress
  state := evaluated.value
  source := port.source.value
  pid := port.pid
  processName := port.processName
  processPath := port.processPath
  workingDirectory := port.workingDirectory
  containerId := port.containerId
  containerName := port.containerName
  containerImage := port.containerImage
  containerPort := port.containerPort
  dockerComposeProject := port.dockerComposeProject
  serviceName := port.serviceName
  projectName := port.projectName
  purpose := port.purpose
  category := port.category
  -- `getattr` of `detection_confidence`, an attribute no `DiscoveredPort` has.
  detectionConfidence := none
  firstSeen := port.firstSeen
  lastSeen := port.lastSeen

/-- `_observation_dict`. -/
def observationDict (port : DiscoveredPort) : ObservationIn where
  port := port.hostPort.getD port.port
  protocol := port.protocol
  bindAddress := port.bindAddress
  state := port.state.value
  source := port.source.value
  pid := port.pid
  processName := port.processName
  processPath := port.processPath
  workingDirectory := port.workingDirectory
  containerId := port.containerId
  containerName := port.containerName
  containerImage := port.containerImage
  containerPort := port.containerPort
  dockerComposeProject := port.dockerComposeProject
  serviceName := port.serviceName
  projectName := port.projectName
  purpose := port.purpose
  category := port.category
  detectionConfidence := port.detection.map fun detection => detection.confidence.value
  firstSeen := port.firstSeen
  lastSeen := port.lastSeen

/-- The observations agree, apart from the state and the times. -/
def Agree (a b : ObservationIn) : Prop :=
  { a with state := b.state, firstSeen := b.firstSeen, lastSeen := b.lastSeen } = b

instance (a b : ObservationIn) : Decidable (Agree a b) := inferInstanceAs (Decidable (_ = _))

/-- On any port, the encoders agree exactly where nothing was detected and the port carries its
number on the host. -/
theorem agree_iff (evaluated : PortState) (port : DiscoveredPort) :
    Agree (captureObservation evaluated port) (observationDict port) ↔
      port.detection = none ∧ port.hostPort.getD port.port = port.port := by
  constructor
  · intro hagree
    have hconfidence := congrArg ObservationIn.detectionConfidence hagree
    exact ⟨Option.map_eq_none_iff.mp hconfidence.symm, (congrArg ObservationIn.port hagree).symm⟩
  · rintro ⟨hdetection, hport⟩
    rw [Agree, captureObservation, observationDict, hdetection, hport]
    rfl

/-- Of no port of a scan do the two encoders agree: the daemon's observation lacks the confidence
of the detection, and agrees in all else. -/
theorem encoders_disagree (D : Detectors) (sockets : List NativeSocket)
    (bindings : List DockerBinding) (evaluated : PortState) (port : DiscoveredPort)
    (hport : port ∈ discoverAllPorts D sockets bindings) :
    ¬ Agree (captureObservation evaluated port) (observationDict port) ∧
      Agree (captureObservation evaluated port)
        { observationDict port with detectionConfidence := none } := by
  obtain ⟨hnumbered, hdetected⟩ := discovered_of_mem hport
  constructor
  · rw [agree_iff]
    exact fun hagree => hdetected hagree.1
  · rw [Agree, captureObservation, observationDict, hnumbered]
    rfl

/-- Detection without evidence. -/
def sampleDetectors : Detectors where
  detectProjectForDirectory _ := {}
  detectPurpose _ _ := {}

/-- A socket of which the operating system tells nothing more. -/
def sampleSocket : NativeSocket where
  port := 8000
  protocol := .tcp
  bindAddress := "0.0.0.0"
  pid := none
  processName := none
  processPath := none
  workingDirectory := none
  commandLine := none
  parentProcessName := none
  parentWorkingDirectory := none
  rawState := some "LISTEN"
  seenAt := ⟨0, true⟩

theorem encoders_disagree_sample :
    ¬ Agree (captureObservation .active (enrichPort sampleDetectors sampleSocket.toPort))
      (observationDict (enrichPort sampleDetectors sampleSocket.toPort)) :=
  (encoders_disagree sampleDetectors [sampleSocket] [] .active _ (List.mem_singleton.mpr rfl)).1

/-- The daemon sends no confidence where the one-shot synchronization sends `unknown`. -/
theorem confidence_lost :
    ∃ port ∈ discoverAllPorts sampleDetectors [sampleSocket] [],
      (captureObservation .active port).detectionConfidence = none ∧
        (observationDict port).detectionConfidence = some "unknown" ∧
        ¬ Agree (captureObservation .active port) (observationDict port) :=
  ⟨_, List.mem_singleton.mpr rfl, rfl, rfl, by decide⟩

end Agent.Discovery
