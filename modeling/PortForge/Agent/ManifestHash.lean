/-
# The fingerprint of a manifest

`_hash_manifest_for_workflow` is the digest of a JSON text in which the manifest's lists are sorted.
The text has the project, the host, the config mappings and four fields of every request. The
fifth field that is sent to Central, the requested range, is missing: so manifests of one
fingerprint ask for the same exactly while they agree on the ranges.
-/

import PortForge.Agent.Manifest
import PortForge.Python.Json

namespace Agent

open Python

/-! ## The text -/

/-- Compare as tuples: by a first text, and among equal ones by the rest. -/
def TupleLe {α : Type} (first : α → String) (rest : α → α → Prop) (a b : α) : Prop :=
  first a < first b ∨ first a = first b ∧ rest a b

instance {α : Type} (first : α → String) (rest : α → α → Prop) [DecidableRel rest] :
    DecidableRel (TupleLe first rest) :=
  fun _ _ => inferInstanceAs (Decidable (_ ∨ _ ∧ _))

/-- A list as JSON, sorted. -/
def sortedJson {α : Type} (r : α → α → Prop) [DecidableRel r] (write : α → Json) (items : List α) :
    Json :=
  .arr ((items.insertionSort r).map write)

/-- What is written of a port request. -/
def portRequestJson (request : ManifestPortRequest) : Json :=
  .obj
    [("name", .str request.name), ("purpose", .str request.purpose),
      ("protocol", .str request.protocol),
      ("preferred_port", Json.optional .num request.preferredPort)]

/-- A dictionary as JSON, its keys sorted. -/
def dictJson {α : Type} (write : α → Json) (items : List (String × α)) : Json :=
  .obj ((items.insertionSort fun a b => a.1 ≤ b.1).map fun item => (item.1, write item.2))

def dotenvJson (mapping : DotenvFileMapping) : Json :=
  .obj [("file", .str mapping.file), ("values", dictJson .str mapping.values)]

def composePortJson (entry : ComposePortEntry) : Json :=
  .obj
    [("allocation", .str entry.allocation), ("container", .num entry.container),
      ("protocol", .str entry.protocol)]

def composePortsJson (entries : List ComposePortEntry) : Json :=
  sortedJson (TupleLe (fun entry => entry.allocation) fun a b => a.container ≤ b.container)
    composePortJson entries

def composeJson (mapping : ComposeFileMapping) : Json :=
  .obj [("file", .str mapping.file), ("services", dictJson composePortsJson mapping.services)]

def hostPortJson (entry : KubernetesHostPortEntry) : Json :=
  .obj
    [("kind", .str entry.kind), ("name", .str entry.name),
      ("namespace", Json.optional .str entry.namespace), ("container", .str entry.container),
      ("container_port", .num entry.containerPort), ("protocol", .str entry.protocol),
      ("allocation", .str entry.allocation)]

def hostPortsJson (entries : List KubernetesHostPortEntry) : Json :=
  sortedJson (TupleLe (fun entry => entry.kind) <| TupleLe (fun entry => entry.name) <|
    TupleLe (fun entry => entry.container) fun a b => a.containerPort ≤ b.containerPort)
      hostPortJson entries

def nodePortJson (entry : KubernetesNodePortEntry) : Json :=
  .obj
    [("name", .str entry.name), ("namespace", Json.optional .str entry.namespace),
      ("service_port", .num entry.servicePort), ("protocol", .str entry.protocol),
      ("allocation", .str entry.allocation)]

def nodePortsJson (entries : List KubernetesNodePortEntry) : Json :=
  sortedJson (TupleLe (fun entry => entry.name) fun a b => a.servicePort ≤ b.servicePort)
    nodePortJson entries

def kubernetesJson (mapping : KubernetesFileMapping) : Json :=
  .obj
    [("file", .str mapping.file), ("host_ports", hostPortsJson mapping.hostPorts),
      ("node_ports", nodePortsJson mapping.nodePorts)]

def configJson (config : ConfigMappings) : Json :=
  .obj
    [("dotenv", sortedJson (fun a b => a.file ≤ b.file) dotenvJson config.dotenv),
      ("compose", sortedJson (fun a b => a.file ≤ b.file) composeJson config.compose),
      ("kubernetes", sortedJson (fun a b => a.file ≤ b.file) kubernetesJson config.kubernetes)]

def portRequestsJson (requests : List ManifestPortRequest) : Json :=
  sortedJson (fun a b => a.name ≤ b.name) portRequestJson requests

/-- The dictionary that `_hash_manifest_for_workflow` writes as JSON. -/
def manifestJson (manifest : ProjectManifest) : Json :=
  .obj
    [("project", .str manifest.project), ("host", Json.optional .str manifest.host),
      ("requests", portRequestsJson manifest.requests),
      ("config", Json.optional configJson manifest.config)]

/-- `_hash_manifest_for_workflow`. -/
def hashManifestForWorkflow (sha256 : ByteArray → String) (manifest : ProjectManifest) : String :=
  sha256 (dumps (manifestJson manifest)).toUTF8

/-! ## Asking for the same -/

/-- The lists match item by item in some order. -/
def Rearranged {α : Type} (same : α → α → Prop) (l l' : List α) : Prop :=
  ∃ order : List α, l.Perm order ∧ List.Forall₂ same order l'

structure DotenvFileMapping.Same (a b : DotenvFileMapping) : Prop where
  file : a.file = b.file
  values : a.values.Perm b.values

structure ComposeFileMapping.Same (a b : ComposeFileMapping) : Prop where
  file : a.file = b.file
  services : Rearranged (fun service other => service.1 = other.1 ∧ service.2.Perm other.2)
    a.services b.services

structure KubernetesFileMapping.Same (a b : KubernetesFileMapping) : Prop where
  file : a.file = b.file
  hostPorts : a.hostPorts.Perm b.hostPorts
  nodePorts : a.nodePorts.Perm b.nodePorts

/-- The same mappings, in any order. -/
structure ConfigMappings.Same (a b : ConfigMappings) : Prop where
  dotenv : Rearranged DotenvFileMapping.Same a.dotenv b.dotenv
  compose : Rearranged ComposeFileMapping.Same a.compose b.compose
  kubernetes : Rearranged KubernetesFileMapping.Same a.kubernetes b.kubernetes

/-- One request of the body that `to_allocation_body` sends; a field that is not given is left out. -/
def sentRequest (request : ManifestPortRequest) : List (String × Json) :=
  [("name", .str request.name), ("purpose", .str request.purpose),
    ("protocol", .str request.protocol)] ++
    (request.preferredPort.map fun port => ("preferred_port", .num port)).toList ++
      (request.requestedRange.map fun range => ("requested_range", .str range)).toList

/-- The manifests ask for the same: the project, the host, the set of port requests with every field
that is sent, and the config mappings, in any order. -/
structure ProjectManifest.AsksSame (a b : ProjectManifest) : Prop where
  project : a.project = b.project
  host : a.host = b.host
  requests : ∀ body, body ∈ a.requests.map sentRequest ↔ body ∈ b.requests.map sentRequest
  config : Option.Rel ConfigMappings.Same a.config b.config

/-- The fields of a request that are written. -/
def ManifestPortRequest.written (request : ManifestPortRequest) :
    String × String × String × Option ℕ :=
  (request.name, request.purpose, request.protocol, request.preferredPort)

/-- Requests that agree on the fields that are written ask for the same ranges in both manifests:
where both have such requests, a range is asked for in the one as it is in the other. -/
def ProjectManifest.RangesAgree (a b : ProjectManifest) : Prop :=
  ∀ request : ManifestPortRequest, request.written ∈ a.requests.map ManifestPortRequest.written →
    request.written ∈ b.requests.map ManifestPortRequest.written →
      (request ∈ a.requests ↔ request ∈ b.requests)

/-! ## What the text keeps -/

section Lists

variable {α β : Type} {f : α → β} {same : α → α → Prop}

/-- Lists whose images agree in some order match in that order. -/
theorem rearranged_of_perm_map (hsame : ∀ a b, f a = f b → same a b) {l l' : List α}
    (h : (l.map f).Perm (l'.map f)) : Rearranged same l l' := by
  induction l' generalizing l with
  | nil =>
      obtain rfl := List.map_eq_nil_iff.mp h.eq_nil
      exact ⟨[], .refl _, .nil⟩
  | cons b l' ih =>
      obtain ⟨a, ha, hab⟩ := List.mem_map.mp (h.mem_iff.mpr List.mem_cons_self)
      obtain ⟨before, after, rfl⟩ := List.append_of_mem ha
      have hmiddle : (before ++ a :: after).Perm (a :: (before ++ after)) := List.perm_middle
      have hrest : ((before ++ after).map f).Perm (l'.map f) := by
        have hcons := (hmiddle.map f).symm.trans h
        rw [List.map_cons, List.map_cons, hab] at hcons
        exact hcons.cons_inv
      obtain ⟨order, hperm, hmatch⟩ := ih hrest
      exact ⟨a :: order, hmiddle.trans (hperm.cons a), .cons (hsame a b hab) hmatch⟩

theorem perm_of_perm_map (hf : Function.Injective f) {l l' : List α}
    (h : (l.map f).Perm (l'.map f)) : l.Perm l' := by
  have hequal : ∀ a b, f a = f b → a = b := fun a b hab => hf hab
  obtain ⟨order, hperm, hmatch⟩ := rearranged_of_perm_map hequal h
  rw [List.forall₂_eq_eq_eq] at hmatch
  exact hmatch ▸ hperm

theorem perm_map_of_sortedJson {r : α → α → Prop} [DecidableRel r] {write : α → Json}
    {l l' : List α} (h : (sortedJson r write l).sortKeys = (sortedJson r write l').sortKeys) :
    (l.map fun item => (write item).sortKeys).Perm (l'.map fun item => (write item).sortKeys) := by
  have hitems : (l.insertionSort r).map (fun item => (write item).sortKeys) =
      (l'.insertionSort r).map fun item => (write item).sortKeys := by
    simpa [sortedJson, Json.sortKeys, Function.comp_def] using h
  exact ((List.perm_insertionSort r l).map _).symm.trans
    (hitems ▸ (List.perm_insertionSort r l').map _)

theorem perm_map_of_dictJson {write : α → Json} {l l' : List (String × α)}
    (h : (dictJson write l).sortKeys = (dictJson write l').sortKeys) :
    (l.map fun item => (item.1, (write item.2).sortKeys)).Perm
      (l'.map fun item => (item.1, (write item.2).sortKeys)) := by
  have hfields : ∀ items : List (String × α), ∃ fields : List (String × Json),
      (dictJson write items).sortKeys = .obj fields ∧
        fields.Perm (items.map fun item => (item.1, (write item.2).sortKeys)) := by
    intro items
    refine ⟨_, rfl, (List.perm_insertionSort _ _).trans ?_⟩
    rw [sortFields_eq_map, List.map_map]
    exact (List.perm_insertionSort _ items).map _
  obtain ⟨fields, hl, hperm⟩ := hfields l
  obtain ⟨fields', hl', hperm'⟩ := hfields l'
  rw [hl, hl'] at h
  exact hperm.symm.trans (Json.obj.inj h ▸ hperm')

end Lists

/-- Every field of a request is sent. -/
theorem sentRequest_injective : Function.Injective sentRequest := by
  rintro ⟨name, purpose, protocol, port, range⟩ ⟨name', purpose', protocol', port', range'⟩ h
  cases port <;> cases port' <;> cases range <;> cases range' <;> simp_all [sentRequest]

theorem written_of_sortKeys {a b : ManifestPortRequest}
    (h : (portRequestJson a).sortKeys = (portRequestJson b).sortKeys) : a.written = b.written := by
  simpa [portRequestJson, Json.sortKeys, ManifestPortRequest.written, and_assoc, and_left_comm,
    and_comm] using h

theorem DotenvFileMapping.same_of_sortKeys {a b : DotenvFileMapping}
    (h : (dotenvJson a).sortKeys = (dotenvJson b).sortKeys) : a.Same b := by
  have hparts : a.file = b.file ∧
      (dictJson .str a.values).sortKeys = (dictJson .str b.values).sortKeys := by
    simpa [dotenvJson, Json.sortKeys] using h
  refine ⟨hparts.1, ?_⟩
  have hinjective : Function.Injective fun item : String × String =>
      (item.1, (Json.str item.2).sortKeys) := by
    rintro ⟨key, value⟩ ⟨key', value'⟩ hitems
    simpa using hitems
  exact perm_of_perm_map hinjective (perm_map_of_dictJson hparts.2)

theorem composePortJson_injective :
    Function.Injective fun entry => (composePortJson entry).sortKeys := by
  rintro ⟨allocation, container, protocol⟩ ⟨allocation', container', protocol'⟩ h
  simpa [composePortJson, Json.sortKeys] using h

theorem ComposeFileMapping.same_of_sortKeys {a b : ComposeFileMapping}
    (h : (composeJson a).sortKeys = (composeJson b).sortKeys) : a.Same b := by
  have hparts : a.file = b.file ∧ (dictJson composePortsJson a.services).sortKeys =
      (dictJson composePortsJson b.services).sortKeys := by
    simpa [composeJson, Json.sortKeys] using h
  refine ⟨hparts.1, ?_⟩
  apply rearranged_of_perm_map _ (perm_map_of_dictJson hparts.2)
  rintro ⟨name, entries⟩ ⟨name', entries'⟩ hservice
  rw [Prod.mk.injEq] at hservice
  exact ⟨hservice.1, perm_of_perm_map composePortJson_injective
    (perm_map_of_sortedJson hservice.2)⟩

theorem hostPortJson_injective : Function.Injective fun entry => (hostPortJson entry).sortKeys := by
  rintro ⟨kind, name, ns, container, port, protocol, allocation⟩
    ⟨kind', name', ns', container', port', protocol', allocation'⟩ h
  simpa [hostPortJson, Json.sortKeys, and_assoc, and_left_comm, and_comm] using h

theorem nodePortJson_injective : Function.Injective fun entry => (nodePortJson entry).sortKeys := by
  rintro ⟨name, ns, port, protocol, allocation⟩ ⟨name', ns', port', protocol', allocation'⟩ h
  simpa [nodePortJson, Json.sortKeys, and_assoc, and_left_comm, and_comm] using h

theorem KubernetesFileMapping.same_of_sortKeys {a b : KubernetesFileMapping}
    (h : (kubernetesJson a).sortKeys = (kubernetesJson b).sortKeys) : a.Same b := by
  have hparts : a.file = b.file ∧
      (hostPortsJson a.hostPorts).sortKeys = (hostPortsJson b.hostPorts).sortKeys ∧
        (nodePortsJson a.nodePorts).sortKeys = (nodePortsJson b.nodePorts).sortKeys := by
    simpa [kubernetesJson, Json.sortKeys] using h
  exact ⟨hparts.1, perm_of_perm_map hostPortJson_injective (perm_map_of_sortedJson hparts.2.1),
    perm_of_perm_map nodePortJson_injective (perm_map_of_sortedJson hparts.2.2)⟩

theorem ConfigMappings.same_of_sortKeys {a b : ConfigMappings}
    (h : (configJson a).sortKeys = (configJson b).sortKeys) : a.Same b := by
  have hparts : (sortedJson (fun a b => a.file ≤ b.file) dotenvJson a.dotenv).sortKeys =
        (sortedJson (fun a b => a.file ≤ b.file) dotenvJson b.dotenv).sortKeys ∧
      (sortedJson (fun a b => a.file ≤ b.file) composeJson a.compose).sortKeys =
        (sortedJson (fun a b => a.file ≤ b.file) composeJson b.compose).sortKeys ∧
      (sortedJson (fun a b => a.file ≤ b.file) kubernetesJson a.kubernetes).sortKeys =
        (sortedJson (fun a b => a.file ≤ b.file) kubernetesJson b.kubernetes).sortKeys := by
    simpa [configJson, Json.sortKeys, and_assoc, and_left_comm, and_comm] using h
  constructor
  · exact rearranged_of_perm_map (fun _ _ => DotenvFileMapping.same_of_sortKeys)
      (perm_map_of_sortedJson hparts.1)
  · exact rearranged_of_perm_map (fun _ _ => ComposeFileMapping.same_of_sortKeys)
      (perm_map_of_sortedJson hparts.2.1)
  · exact rearranged_of_perm_map (fun _ _ => KubernetesFileMapping.same_of_sortKeys)
      (perm_map_of_sortedJson hparts.2.2)

theorem config_of_sortKeys {a b : Option ConfigMappings}
    (h : (Json.optional configJson a).sortKeys = (Json.optional configJson b).sortKeys) :
    Option.Rel ConfigMappings.Same a b := by
  cases a with
  | none =>
      cases b with
      | none => exact .none
      | some b => simp [Json.optional, configJson, Json.sortKeys] at h
  | some a =>
      cases b with
      | none => simp [Json.optional, configJson, Json.sortKeys] at h
      | some b => exact .some (ConfigMappings.same_of_sortKeys h)

/-! ## What a fingerprint determines -/

/-- Manifests of one fingerprint agree on everything that is written. -/
theorem written_of_hash {sha256 : ByteArray → String} (hsha256 : Function.Injective sha256)
    {a b : ProjectManifest}
    (h : hashManifestForWorkflow sha256 a = hashManifestForWorkflow sha256 b) :
    a.project = b.project ∧ a.host = b.host ∧
      (a.requests.map ManifestPortRequest.written).Perm
        (b.requests.map ManifestPortRequest.written) ∧
      Option.Rel ConfigMappings.Same a.config b.config := by
  have hjson := dumps_eq_iff.mp (String.toByteArray_inj.mp (hsha256 h))
  have hparts : a.project = b.project ∧ a.host = b.host ∧
      (portRequestsJson a.requests).sortKeys = (portRequestsJson b.requests).sortKeys ∧
        (Json.optional configJson a.config).sortKeys =
          (Json.optional configJson b.config).sortKeys := by
    simpa [manifestJson, Json.sortKeys, and_assoc, and_left_comm, and_comm] using hjson
  obtain ⟨hproject, hhost, hrequests, hconfig⟩ := hparts
  refine ⟨hproject, hhost, ?_, config_of_sortKeys hconfig⟩
  obtain ⟨order, hperm, hmatch⟩ :=
    rearranged_of_perm_map (fun _ _ => written_of_sortKeys) (perm_map_of_sortedJson hrequests)
  have hwritten : order.map ManifestPortRequest.written =
      b.requests.map ManifestPortRequest.written := by
    rw [← List.forall₂_eq_eq_eq, List.forall₂_map_left_iff, List.forall₂_map_right_iff]
    exact hmatch
  exact hwritten ▸ hperm.map _

/-- While the digest tells texts apart, manifests of one fingerprint ask for the same, if and only
if they agree on the requested ranges. -/
theorem asksSame_iff_ranges (sha256 : ByteArray → String) (hsha256 : Function.Injective sha256)
    (a b : ProjectManifest)
    (hhash : hashManifestForWorkflow sha256 a = hashManifestForWorkflow sha256 b) :
    a.AsksSame b ↔ a.RangesAgree b := by
  obtain ⟨hproject, hhost, hwritten, hconfig⟩ := written_of_hash hsha256 hhash
  constructor
  · intro h request _ _
    have hbody := h.requests (sentRequest request)
    rwa [List.mem_map_of_injective sentRequest_injective,
      List.mem_map_of_injective sentRequest_injective] at hbody
  · intro h
    refine ⟨hproject, hhost, fun body => ?_, hconfig⟩
    rw [List.mem_map, List.mem_map]
    apply exists_congr
    intro request
    apply and_congr_left'
    constructor
    · intro hmem
      have hthere : request.written ∈ a.requests.map ManifestPortRequest.written :=
        List.mem_map_of_mem hmem
      exact (h request hthere (hwritten.mem_iff.mp hthere)).mp hmem
    · intro hmem
      have hthere : request.written ∈ b.requests.map ManifestPortRequest.written :=
        List.mem_map_of_mem hmem
      exact (h request (hwritten.mem_iff.mpr hthere) hthere).mpr hmem

/-- A parsed manifest with one port request in a range. -/
def rangedManifest (range : String) : List (Scalar × Value) :=
  [(.str "version", .int 1), (.str "project", .str "shop"),
    (.str "target", .dict [(.str "host", .str "web-1")]),
    (.str "ports", .dict [(.str "web", .dict
      [(.str "purpose", .str "frontend"), (.str "range", .str range)])])]

/-- The manifest it is accepted as. -/
def acceptedManifest (range : String) : ProjectManifest where
  version := 1
  project := "shop"
  host := some "web-1"
  requests := [⟨"web", "frontend", "tcp", none, some range⟩]
  requestId := none
  config := none

/-- A manifest with two port requests, in either order. -/
def orderedManifest (flip : Bool) : ProjectManifest where
  version := 1
  project := "shop"
  host := none
  requests :=
    if flip then [⟨"web", "frontend", "tcp", none, none⟩, ⟨"api", "api", "tcp", some 8000, none⟩]
    else [⟨"api", "api", "tcp", some 8000, none⟩, ⟨"web", "frontend", "tcp", none, none⟩]
  requestId := none
  config := none

/-- The order of the requests is sorted away. -/
theorem asksSame_iff_ranges_sample : (orderedManifest true).AsksSame (orderedManifest false) := by
  apply (asksSame_iff_ranges showBytes showBytes_injective (orderedManifest true)
    (orderedManifest false) rfl).mpr
  intro request _ _
  exact (List.Perm.swap _ _ []).mem_iff

/-- Two accepted manifests have one fingerprint, whatever the digest, and ask for ports of different
ranges. -/
theorem moved_range_same_hash :
    validateManifest (rangedManifest "3000-3009") = .ok (acceptedManifest "3000-3009") ∧
      validateManifest (rangedManifest "3010-3019") = .ok (acceptedManifest "3010-3019") ∧
      (∀ sha256, hashManifestForWorkflow sha256 (acceptedManifest "3000-3009") =
        hashManifestForWorkflow sha256 (acceptedManifest "3010-3019")) ∧
      ¬ (acceptedManifest "3000-3009").AsksSame (acceptedManifest "3010-3019") := by
  refine ⟨rfl, rfl, fun _ => rfl, fun h => ?_⟩
  have hbody := (h.requests (sentRequest ⟨"web", "frontend", "tcp", none, some "3000-3009"⟩)).mp
    (List.mem_map_of_mem List.mem_cons_self)
  rw [List.mem_map_of_injective sentRequest_injective] at hbody
  simp [acceptedManifest] at hbody

end Agent
