/-
# Accepted manifests and the bodies sent for them

A manifest that `validate_manifest` accepts is well formed, and Central accepts the body that
`to_allocation_body` builds from it, up to three things the validator does not look at: keys of
`ports` that differ only in blanks, an empty `ports`, and the length of the request id.
-/

import PortForge.Agent.DotenvPlans
import PortForge.Agent.Workflow
import PortForge.Central.AllocationSchema
import PortForge.Python.Digits

namespace Agent

open Central Python Effects

/-! ## The body -/

/-- What `to_allocation_body` returns. -/
structure AllocationPayload where
  project : String
  hostId : String
  requests : List ManifestPortRequest
  requestId : Option String

/-- `to_allocation_body`, of a manifest normalized for a host. -/
def toAllocationBody (manifest : ProjectManifest) (host : NormalizedHostRef)
    (requestId : Option String) : AllocationPayload where
  project := manifest.project
  hostId := host.id
  requests := manifest.requests
  requestId := requestId

/-- The validators of `AllocationRequestItem` turn a request into an item. -/
structure ItemAccepted (request : ManifestPortRequest) (item : AllocationRequestItem) : Prop where
  name_length : 1 ≤ request.name.length ∧ request.name.length ≤ 255
  name : item.name = strip request.name
  purpose : item.purpose = request.purpose
  protocol : item.protocol.value = request.protocol
  preferredPort : item.preferredPort = request.preferredPort
  requestedRange : item.requestedRange = request.requestedRange

/-- The validators of `AllocationIn` turn a body into a payload. -/
structure BodyAccepted (body : AllocationPayload) (payload : AllocationIn) : Prop where
  project : payload.project = body.project
  hostId : payload.hostId.text = body.hostId
  requests : List.Forall₂ ItemAccepted body.requests payload.requests
  requestId : payload.requestId = body.requestId

/-! ## Well-formed manifests -/

/-- The request names that the mappings refer to. -/
def ConfigMappings.references (config : ConfigMappings) : List String :=
  config.dotenv.flatMap (fun mapping => mapping.values.map Prod.snd) ++
    config.compose.flatMap (fun mapping => mapping.services.flatMap fun service =>
      service.2.map fun entry => entry.allocation) ++
    config.kubernetes.flatMap fun mapping =>
      mapping.hostPorts.map (fun entry => entry.allocation) ++
        mapping.nodePorts.map fun entry => entry.allocation

/-- The ports that the mappings look for. -/
def ConfigMappings.targetPorts (config : ConfigMappings) : List ℕ :=
  config.compose.flatMap (fun mapping => mapping.services.flatMap fun service =>
      service.2.map fun entry => entry.container) ++
    config.kubernetes.flatMap fun mapping =>
      mapping.hostPorts.map (fun entry => entry.containerPort) ++
        mapping.nodePorts.map fun entry => entry.servicePort

/-- A port number. -/
def IsPort (port : ℕ) : Prop := 1 ≤ port ∧ port ≤ 65535

/-- The port and the range of a request. -/
structure ManifestPortRequest.Bounded (request : ManifestPortRequest) : Prop where
  preferredPort : ∀ port ∈ request.preferredPort, IsPort port
  requestedRange : ∀ text ∈ request.requestedRange, ∃ low high : ℕ, text = s!"{low}-{high}" ∧
    IsPort low ∧ IsPort high ∧ low ≤ high ∧
      ∀ port ∈ request.preferredPort, low ≤ port ∧ port ≤ high

structure ProjectManifest.WellFormed (manifest : ProjectManifest) : Prop where
  names : (manifest.requests.map fun request => request.name).Nodup
  count : manifest.requests.length ≤ maxPortsPerManifest
  references : ∀ config ∈ manifest.config, ∀ name ∈ config.references,
    name ∈ manifest.requests.map fun request => request.name
  targetPorts : ∀ config ∈ manifest.config, ∀ port ∈ config.targetPorts, IsPort port
  bounded : ∀ request ∈ manifest.requests, request.Bounded

/-- Central accepts the body for every host it knows. -/
def ProjectManifest.Sendable (manifest : ProjectManifest) : Prop :=
  ∀ (hostId : Uuid) (hostname : String), ∃ payload,
    BodyAccepted (toAllocationBody manifest ⟨hostId.text, hostname⟩ manifest.requestId) payload

/-! ## What the validators ensure -/

section Strip

variable {text : String}

theorem strip_strip (text : String) : strip (strip text) = strip text := by
  rw [strip, strip, String.toList_ofList, stripChars_stripChars]

theorem toList_strip (text : String) : (strip text).toList = stripChars text.toList := by
  rw [strip, String.toList_ofList]

theorem length_strip_le (text : String) : (strip text).length ≤ text.length := by
  rw [← String.length_toList, ← String.length_toList, toList_strip]
  exact length_stripChars_le _

theorem length_pos_of_ne (h : text ≠ "") : 1 ≤ text.length := by
  rw [Nat.one_le_iff_ne_zero, ← String.length_toList, Ne, List.length_eq_zero_iff]
  exact fun hnil => h (String.toList_eq_nil_iff.mp hnil)

theorem nonBlank?_eq_some {raw : Option Value} (h : nonBlank? raw = some text) :
    text ≠ "" ∧ strip text = text ∧ ∃ source, raw = some (.str source) ∧ text = strip source := by
  unfold nonBlank? at h
  split at h
  · split at h
    · cases h
    · rename_i source hne
      cases h
      exact ⟨hne, strip_strip source, source, rfl, rfl⟩
  · cases h

theorem portNumber?_eq_some {raw : Option Value} {port : ℕ} (h : portNumber? raw = some port) :
    IsPort port := by
  unfold portNumber? at h
  split at h
  · split at h
    · rename_i hbounds
      cases h
      exact ⟨by omega, by omega⟩
    · cases h
  · cases h

end Strip

section Checks

variable {entry : List (Scalar × Value)} {key context : String} {knownNames : List String}

theorem requireString_eq_ok {maxLength : ℕ} {text : String}
    (h : requireString entry key context maxLength = .ok text) :
    (1 ≤ text.length ∧ text.length ≤ maxLength) ∧ strip text = text := by
  unfold requireString at h
  split at h
  · cases h
  · rename_i value hvalue
    obtain ⟨hne, hstrip, -⟩ := nonBlank?_eq_some hvalue
    split at h
    · cases h
    · rename_i hlength
      cases h
      exact ⟨⟨length_pos_of_ne hne, Nat.le_of_not_gt hlength⟩, hstrip⟩

theorem requirePort_eq_ok {port : ℕ} (h : requirePort entry key context = .ok port) :
    IsPort port := by
  unfold requirePort at h
  split at h
  · rename_i hport
    cases h
    exact portNumber?_eq_some hport
  · cases h

theorem requireAllocation_eq_ok {allocation : String}
    (h : requireAllocation entry context knownNames = .ok allocation) : allocation ∈ knownNames := by
  unfold requireAllocation at h
  split at h
  · cases h
  · split at h
    · rename_i hknown
      cases h
      exact hknown
    · cases h

theorem readProtocol_eq_ok {details : List (List (String × Value))} {protocol : String}
    (h : readProtocol entry context details = .ok protocol) :
    protocol = "tcp" ∨ protocol = "udp" := by
  unfold readProtocol at h
  split at h
  · split at h
    · rename_i hknown
      cases h
      simpa [protocols] using hknown
    · cases h
  · cases h

theorem readRequestedRange_eq_ok {low high : ℤ}
    (h : readRequestedRange entry context = .ok (some (low, high))) :
    (1 ≤ low ∧ low ≤ 65535) ∧ (1 ≤ high ∧ high ≤ 65535) ∧ low ≤ high := by
  unfold readRequestedRange at h
  split at h
  · cases h
  · split at h
    · cases h
    · split at h
      · split at h
        · rename_i hbounds
          cases h
          exact hbounds
        · cases h
      · cases h
  · cases h

end Checks

/-- What the validator ensures of a request. -/
structure ManifestPortRequest.Sound (request : ManifestPortRequest) : Prop extends
    request.Bounded where
  name_length : 1 ≤ request.name.length ∧ request.name.length ≤ 255
  name_stripped : strip request.name = request.name
  purpose_length : 1 ≤ request.purpose.length ∧ request.purpose.length ≤ 64
  protocol : request.protocol = "tcp" ∨ request.protocol = "udp"

section Requests

variable {key : Scalar} {entry : Value} {request : ManifestPortRequest}

/-- The end of `_validate_port_entry`, behind the check of the preferred port. -/
def finishPortEntry (items : List (Scalar × Value)) (name purpose protocol : String)
    (preferredPort : Option ℕ) : Validation ManifestPortRequest :=
  let context := s!"ports.{name}"
  if (get? items "range").isSome && (get? items "requested_range").isSome then
    invalid (plain s!"'{context}' may specify only one of 'range' or 'requested_range'.")
  else do
    match ← readRequestedRange items context with
    | none => pure ⟨strip name, purpose, protocol, preferredPort, none⟩
    | some (low, high) =>
        let requestedRange := s!"{low}-{high}"
        if preferredPort.any fun port => !(low ≤ port && port ≤ high) then
          invalid (plain s!"'{context}.preferred' must fall inside '{requestedRange}'.")
        else pure ⟨strip name, purpose, protocol, preferredPort, some requestedRange⟩

theorem finishPortEntry_eq_ok {items : List (Scalar × Value)} {name purpose protocol : String}
    {preferredPort : Option ℕ} (hport : ∀ port ∈ preferredPort, IsPort port)
    (h : finishPortEntry items name purpose protocol preferredPort = .ok request) :
    (request.name = strip name ∧ request.purpose = purpose ∧ request.protocol = protocol) ∧
      request.Bounded := by
  unfold finishPortEntry at h
  dsimp only at h
  split at h
  · cases h
  · simp only [bind_eq_ok_iff] at h
    obtain ⟨range, hrange, h⟩ := h
    split at h
    · cases h
      exact ⟨⟨rfl, rfl, rfl⟩, hport, by simp⟩
    · rename_i low high
      obtain ⟨hlow, hhigh, hle⟩ := readRequestedRange_eq_ok hrange
      split at h
      · cases h
      · rename_i hinside
        cases h
        refine ⟨⟨rfl, rfl, rfl⟩, hport, ?_⟩
        intro text htext
        cases htext
        obtain ⟨low, rfl⟩ := Int.eq_ofNat_of_zero_le (by omega : 0 ≤ low)
        obtain ⟨high, rfl⟩ := Int.eq_ofNat_of_zero_le (by omega : 0 ≤ high)
        refine ⟨low, high, rfl, ⟨by omega, by omega⟩, ⟨by omega, by omega⟩, by omega, ?_⟩
        intro port hmem
        cases hmem
        simpa using hinside

/-- What an accepted entry has passed before its range is looked at. -/
theorem validatePortEntry_eq_ok_iff {items : List (Scalar × Value)} {name : String}
    (h : validatePortEntry (.str name) (.dict items) = .ok request) :
    (strip name ≠ "" ∧ name.length ≤ 255) ∧
      ∃ purpose protocol preferredPort,
        requireString items "purpose" s!"ports.{name}" 64 = .ok purpose ∧
        (protocol = "tcp" ∨ protocol = "udp") ∧ (∀ port ∈ preferredPort, IsPort port) ∧
        finishPortEntry items name purpose protocol preferredPort = .ok request := by
  unfold validatePortEntry at h
  dsimp only at h
  split at h
  · cases h
  · rename_i hblank
    split at h
    · cases h
    · rename_i hlong
      simp only [bind_eq_ok_iff] at h
      obtain ⟨found, hfound, _, -, purpose, hpurpose, protocol, hprotocol, h⟩ := h
      cases hfound
      refine ⟨⟨hblank, Nat.le_of_not_gt hlong⟩, purpose, protocol, ?_⟩
      have hknown := readProtocol_eq_ok hprotocol
      split at h
      · exact ⟨none, hpurpose, hknown, nofun, h⟩
      · split at h
        · rename_i port hport
          refine ⟨some port, hpurpose, hknown, ?_, h⟩
          intro found hfound
          cases hfound
          exact portNumber?_eq_some hport
        · cases h

theorem validatePortEntry_eq_ok (h : validatePortEntry key entry = .ok request) :
    (∃ name, key = .str name ∧ request.name = strip name) ∧ request.Sound := by
  cases key with
  | str name =>
      cases entry with
      | dict items =>
          obtain ⟨⟨hblank, hlong⟩, purpose, protocol, preferredPort, hpurpose, hprotocol, hport,
            hfinish⟩ := validatePortEntry_eq_ok_iff h
          obtain ⟨⟨hname, hpurposeName, hprotocolName⟩, hbounded⟩ :=
            finishPortEntry_eq_ok hport hfinish
          obtain ⟨hpurposeLength, -⟩ := requireString_eq_ok hpurpose
          refine ⟨⟨name, rfl, hname⟩, hbounded, ?_, ?_, ?_, ?_⟩
          · rw [hname]
            exact ⟨length_pos_of_ne hblank, (length_strip_le name).trans hlong⟩
          · rw [hname, strip_strip]
          · rwa [hpurposeName]
          · rwa [hprotocolName]
      | scalar value | list items =>
          unfold validatePortEntry at h
          dsimp only at h
          split at h
          · cases h
          · split at h <;> cases h
  | none | bool value | int value | other typeName text =>
      unfold validatePortEntry at h
      simp only [bind_eq_ok_iff] at h
      obtain ⟨_, -, h⟩ := h
      cases h

/-- A written range is read as its bounds. -/
theorem readRange_text {low high : ℕ} (hlow : IsPort low) (hhigh : IsPort high) :
    readRange s!"{low}-{high}" = some ((low : ℤ), (high : ℤ)) := by
  have hsmall : ∀ {port : ℕ}, IsPort port → Printable port := fun {port} hport =>
    Nat.lt_of_lt_of_le (show port < 10 ^ 5 by have := hport.2; omega)
      (Nat.pow_le_pow_right (by decide) (by decide))
  have hdash : ∀ n : ℕ, '-' ∉ (toString n).toList := by
    intro n hmem
    have hdigits := (Bool.and_eq_true_iff.mp (isDigitText_toString n)).2
    exact (ne_sign_of_isDigitChar (List.all_eq_true.mp hdigits '-' hmem)).1 rfl
  have htext : (s!"{low}-{high}").toList =
      ['-'].intercalate [(toString low).toList, (toString high).toList] := by
    simp [List.intercalate_cons_cons]
    rfl
  have hsplit : (s!"{low}-{high}").toList.splitOn '-' =
      [(toString low).toList, (toString high).toList] := by
    rw [htext]
    refine List.splitOn_intercalate '-' ?_ (List.cons_ne_nil _ _)
    intro part hpart
    simp only [List.mem_cons, List.not_mem_nil, or_false] at hpart
    rcases hpart with rfl | rfl
    · exact hdash low
    · exact hdash high
  rw [readRange, hsplit]
  dsimp only
  rw [readInt_toString (hsmall hlow), readInt_toString (hsmall hhigh)]
  rfl

/-- Central accepts a sound request as it is. -/
theorem exists_itemAccepted (hsound : request.Sound) : ∃ item, ItemAccepted request item := by
  obtain ⟨protocol, hprotocol⟩ : ∃ protocol : Protocol, protocol.value = request.protocol := by
    rcases hsound.protocol with h | h
    · exact ⟨.tcp, h.symm⟩
    · exact ⟨.udp, h.symm⟩
  have hrange : ∀ text ∈ request.requestedRange, RangeAccepted text ∧
      ∀ port ∈ request.preferredPort, ∀ range ∈ rangeBounds text, range.1 ≤ port ∧ port ≤ range.2 := by
    intro text htext
    obtain ⟨low, high, rfl, hlow, hhigh, hle, hinside⟩ := hsound.requestedRange text htext
    have hread := readRange_text hlow hhigh
    refine ⟨?_, fun port hport range hbounds => ?_⟩
    · rw [RangeAccepted, hread]
      have := hlow
      have := hhigh
      unfold IsPort at *
      dsimp only
      omega
    · rw [rangeBounds, hread] at hbounds
      cases hbounds
      exact hinside port hport
  have hname : stripChars request.name.toList = request.name.toList := by
    rw [← toList_strip, hsound.name_stripped]
  exact ⟨⟨request.name, request.purpose, protocol, request.preferredPort, request.requestedRange,
      hsound.name_length, hname, hsound.purpose_length, hsound.preferredPort,
      fun text htext => (hrange text htext).1,
      fun port hport text htext range hbounds => (hrange text htext).2 port hport range hbounds⟩,
    ⟨hsound.name_length, hsound.name_stripped.symm, rfl, hprotocol, rfl, rfl⟩⟩

theorem exists_itemsAccepted {requests : List ManifestPortRequest}
    (h : ∀ request ∈ requests, request.Sound) :
    ∃ items, List.Forall₂ ItemAccepted requests items := by
  induction requests with
  | nil => exact ⟨[], .nil⟩
  | cons request requests ih =>
      obtain ⟨items, hitems⟩ := ih fun other hother => h other (List.mem_cons_of_mem _ hother)
      obtain ⟨item, hitem⟩ := exists_itemAccepted (h request List.mem_cons_self)
      exact ⟨item :: items, .cons hitem hitems⟩

/-- The names are already stripped. -/
theorem names_of_itemsAccepted {requests : List ManifestPortRequest}
    {items : List AllocationRequestItem} (hsound : ∀ request ∈ requests, request.Sound)
    (h : List.Forall₂ ItemAccepted requests items) :
    (items.map fun item => item.name) = requests.map fun request => request.name := by
  induction h with
  | nil => rfl
  | cons hitem hitems ih =>
      have hstripped := (hsound _ List.mem_cons_self).name_stripped
      rw [List.map_cons, List.map_cons, ih fun other hother =>
        hsound other (List.mem_cons_of_mem _ hother), hitem.name, hstripped]

end Requests

/-! ## Mappings -/

section Mappings

variable {knownNames : List String} {entry : Value} {context : String} {index : ℕ}

theorem known_of_validateDotenvValue {key : Scalar} {resolved : String × String}
    (h : validateDotenvValue context knownNames key entry = .ok resolved) :
    resolved.2 ∈ knownNames := by
  unfold validateDotenvValue at h
  dsimp only at h
  split at h
  · split at h
    · split at h
      · cases h
      · split at h
        · rename_i hknown
          cases h
          exact hknown
        · cases h
    · cases h
  · cases h

theorem known_of_validateDotenvMapping {mapping : DotenvFileMapping}
    (h : validateDotenvMapping knownNames entry index = .ok mapping) :
    ∀ item ∈ mapping.values, item.2 ∈ knownNames := by
  unfold validateDotenvMapping at h
  simp only [bind_eq_ok_iff] at h
  obtain ⟨items, -, _, -, file, -, h⟩ := h
  split at h
  · split at h
    · cases h
    · obtain ⟨resolved, hresolved, h⟩ := bind_eq_ok_iff.mp h
      cases h
      have hnil : (([] : List (String × String)).map Prod.fst).Nodup := List.nodup_nil
      intro item hitem
      have hmem := ((foldl_setItem resolved hnil).2 item hitem).resolve_left List.not_mem_nil
      obtain ⟨raw, -, hraw⟩ := exists_of_mem_mapM hresolved hmem
      exact known_of_validateDotenvValue hraw
  · cases h

theorem known_of_validateComposePortEntry {found : ComposePortEntry}
    (h : validateComposePortEntry knownNames entry context = .ok found) :
    found.allocation ∈ knownNames ∧ IsPort found.container := by
  unfold validateComposePortEntry at h
  simp only [bind_eq_ok_iff] at h
  obtain ⟨items, -, _, -, allocation, hallocation, container, hcontainer, protocol, -, h⟩ := h
  cases h
  exact ⟨requireAllocation_eq_ok hallocation, requirePort_eq_ok hcontainer⟩

theorem known_of_validateComposeService {name : Scalar} {service : String × List ComposePortEntry}
    (h : validateComposeService context knownNames name entry = .ok service) :
    ∀ found ∈ service.2, found.allocation ∈ knownNames ∧ IsPort found.container := by
  unfold validateComposeService at h
  split at h
  · split at h
    · cases h
    · simp only [bind_eq_ok_iff] at h
      obtain ⟨items, -, _, -, h⟩ := h
      split at h
      · split at h
        · cases h
        · obtain ⟨entries, hentries, h⟩ := bind_eq_ok_iff.mp h
          cases h
          intro found hfound
          obtain ⟨raw, -, hraw⟩ := exists_of_mem_mapM hentries hfound
          exact known_of_validateComposePortEntry hraw
      · cases h
  · simp only [bind_eq_ok_iff] at h
    obtain ⟨_, -, h⟩ := h
    cases h

theorem known_of_validateComposeMapping {mapping : ComposeFileMapping}
    (h : validateComposeMapping knownNames entry index = .ok mapping) :
    ∀ service ∈ mapping.services, ∀ found ∈ service.2,
      found.allocation ∈ knownNames ∧ IsPort found.container := by
  unfold validateComposeMapping at h
  simp only [bind_eq_ok_iff] at h
  obtain ⟨items, -, _, -, file, -, h⟩ := h
  split at h
  · split at h
    · cases h
    · obtain ⟨resolved, hresolved, h⟩ := bind_eq_ok_iff.mp h
      cases h
      have hnil : (([] : List (String × List ComposePortEntry)).map Prod.fst).Nodup :=
        List.nodup_nil
      intro service hservice
      have hmem := ((foldl_setItem resolved hnil).2 service hservice).resolve_left List.not_mem_nil
      obtain ⟨raw, -, hraw⟩ := exists_of_mem_mapM hresolved hmem
      exact known_of_validateComposeService hraw
  · cases h

theorem known_of_validateHostPort {found : KubernetesHostPortEntry}
    (h : validateKubernetesHostPortEntry knownNames entry context = .ok found) :
    found.allocation ∈ knownNames ∧ IsPort found.containerPort := by
  unfold validateKubernetesHostPortEntry at h
  simp only [bind_eq_ok_iff] at h
  obtain ⟨items, -, _, -, h⟩ := h
  have htail : ∀ kind : String, (do
      let name ← requireString items "name" context 255
      let ns ← readNamespace items context
      let container ← requireString items "container" context 255
      let containerPort ← requirePort items "containerPort" context
      let protocol ← readProtocol items context []
      let allocation ← requireAllocation items context knownNames
      pure (⟨kind, name, ns, container, containerPort, protocol, allocation⟩ :
        KubernetesHostPortEntry) : Validation KubernetesHostPortEntry) = .ok found →
      found.allocation ∈ knownNames ∧ IsPort found.containerPort := by
    intro kind h
    simp only [bind_eq_ok_iff] at h
    obtain ⟨name, -, ns, -, container, -, port, hport, protocol, -, allocation, hallocation, h⟩ := h
    cases h
    exact ⟨requireAllocation_eq_ok hallocation, requirePort_eq_ok hport⟩
  split at h
  · split at h
    · exact htail _ h
    · cases h
  · cases h

theorem known_of_validateNodePort {found : KubernetesNodePortEntry}
    (h : validateKubernetesNodePortEntry knownNames entry context = .ok found) :
    found.allocation ∈ knownNames ∧ IsPort found.servicePort := by
  unfold validateKubernetesNodePortEntry at h
  simp only [bind_eq_ok_iff] at h
  obtain ⟨items, -, _, -, name, -, ns, -, port, hport, protocol, -, allocation, hallocation, h⟩ := h
  cases h
  exact ⟨requireAllocation_eq_ok hallocation, requirePort_eq_ok hport⟩

theorem known_of_validateKubernetesMapping {mapping : KubernetesFileMapping}
    (h : validateKubernetesMapping knownNames entry index = .ok mapping) :
    (∀ found ∈ mapping.hostPorts, found.allocation ∈ knownNames ∧ IsPort found.containerPort) ∧
      ∀ found ∈ mapping.nodePorts, found.allocation ∈ knownNames ∧ IsPort found.servicePort := by
  unfold validateKubernetesMapping at h
  simp only [bind_eq_ok_iff] at h
  obtain ⟨items, -, _, -, file, -, _, -, hostPorts, hhostPorts, _, -, nodePorts, hnodePorts, h⟩ := h
  split at h
  · cases h
  · split at h
    · cases h
    · split at h
      · cases h
      · cases h
        refine ⟨fun found hfound => ?_, fun found hfound => ?_⟩
        · obtain ⟨raw, -, hraw⟩ := exists_of_mem_mapM hhostPorts hfound
          exact known_of_validateHostPort hraw
        · obtain ⟨raw, -, hraw⟩ := exists_of_mem_mapM hnodePorts hfound
          exact known_of_validateNodePort hraw

/-- The mappings of an accepted manifest refer to its requests, and look for ports. -/
theorem known_of_validateConfig {data : Option Value} {config : ConfigMappings}
    (h : validateConfig knownNames data = .ok (some config)) :
    (∀ name ∈ config.references, name ∈ knownNames) ∧ ∀ port ∈ config.targetPorts, IsPort port := by
  unfold validateConfig at h
  split at h
  · cases h
  · simp only [bind_eq_ok_iff] at h
    obtain ⟨_, -, _, -, dotenv, hdotenv, _, -, compose, hcompose, _, -, kubernetes, hkubernetes, h⟩ := h
    split at h
    · cases h
    · cases h
      have hvalues : ∀ mapping ∈ dotenv, ∀ item ∈ mapping.values, item.2 ∈ knownNames := by
        intro mapping hmapping
        obtain ⟨raw, -, hraw⟩ := exists_of_mem_mapM hdotenv hmapping
        exact known_of_validateDotenvMapping hraw
      have hservices : ∀ mapping ∈ compose, ∀ service ∈ mapping.services, ∀ found ∈ service.2,
          found.allocation ∈ knownNames ∧ IsPort found.container := by
        intro mapping hmapping
        obtain ⟨raw, -, hraw⟩ := exists_of_mem_mapM hcompose hmapping
        exact known_of_validateComposeMapping hraw
      have hentries : ∀ mapping ∈ kubernetes,
          (∀ found ∈ mapping.hostPorts,
            found.allocation ∈ knownNames ∧ IsPort found.containerPort) ∧
          ∀ found ∈ mapping.nodePorts, found.allocation ∈ knownNames ∧ IsPort found.servicePort := by
        intro mapping hmapping
        obtain ⟨raw, -, hraw⟩ := exists_of_mem_mapM hkubernetes hmapping
        exact known_of_validateKubernetesMapping hraw
      constructor
      · intro name hname
        simp only [ConfigMappings.references, List.mem_append, List.mem_flatMap, List.mem_map] at hname
        rcases hname with (⟨mapping, hmapping, item, hitem, rfl⟩ |
          ⟨mapping, hmapping, service, hservice, found, hfound, rfl⟩) |
          ⟨mapping, hmapping, ⟨found, hfound, rfl⟩ | ⟨found, hfound, rfl⟩⟩
        · exact hvalues mapping hmapping item hitem
        · exact (hservices mapping hmapping service hservice found hfound).1
        · exact ((hentries mapping hmapping).1 found hfound).1
        · exact ((hentries mapping hmapping).2 found hfound).1
      · intro port hport
        simp only [ConfigMappings.targetPorts, List.mem_append, List.mem_flatMap, List.mem_map] at hport
        rcases hport with ⟨mapping, hmapping, service, hservice, found, hfound, rfl⟩ |
          ⟨mapping, hmapping, ⟨found, hfound, rfl⟩ | ⟨found, hfound, rfl⟩⟩
        · exact (hservices mapping hmapping service hservice found hfound).2
        · exact ((hentries mapping hmapping).1 found hfound).2
        · exact ((hentries mapping hmapping).2 found hfound).2
  · cases h

end Mappings

/-! ## The law -/

/-- The names of the ports that a manifest declares. -/
def portKeys (data : List (Scalar × Value)) : List String :=
  match get? data "ports" with
  | some (.dict ports) => textKeys (ports.map fun entry => entry.1)
  | _ => []

/-- What the validator does not look at: the keys of `ports` differ in more than blanks, there is
one, and the request id is not too long. -/
structure SendableData (data : List (Scalar × Value)) : Prop where
  names : ((portKeys data).map strip).Nodup
  ports : portKeys data ≠ []
  requestId : ∀ text, get? data "request_id" = some (.str text) → (strip text).length ≤ 255

section Manifests

variable {data : List (Scalar × Value)} {manifest : ProjectManifest}

/-- The requests are named after the keys of their entries. -/
theorem names_of_requests {ports : List (Scalar × Value)} {requests : List ManifestPortRequest}
    (h : ports.map (fun entry => validatePortEntry entry.1 entry.2) = requests.map .ok) :
    (requests.map fun request => request.name) =
      (textKeys (ports.map fun entry => entry.1)).map strip := by
  induction ports generalizing requests with
  | nil =>
      rw [List.map_eq_nil_iff.mp h.symm]
      rfl
  | cons port ports ih =>
      cases requests with
      | nil => cases h
      | cons request requests =>
          obtain ⟨hfirst, hrest⟩ := List.cons.inj h
          obtain ⟨⟨name, hkey, hname⟩, -⟩ := validatePortEntry_eq_ok hfirst
          rw [List.map_cons, ih hrest, List.map_cons, hkey, hname]
          rfl

/-- What an accepted manifest is made of. -/
theorem validateManifest_eq_ok (h : validateManifest data = .ok manifest) :
    (1 ≤ manifest.project.length ∧ manifest.project.length ≤ 255) ∧
    manifest.requests.length ≤ maxPortsPerManifest ∧
    (manifest.requests.map fun request => request.name) = (portKeys data).map strip ∧
    (∀ request ∈ manifest.requests, request.Sound) ∧
    (∀ config ∈ manifest.config,
      (∀ name ∈ config.references, name ∈ manifest.requests.map fun request => request.name) ∧
        ∀ port ∈ config.targetPorts, IsPort port) ∧
    (manifest.requestId = match get? data "request_id" with
      | some (.scalar (.str text)) => some (strip text)
      | _ => none) ∧
    ∀ text ∈ manifest.requestId, 1 ≤ text.length := by
  unfold validateManifest at h
  simp only [bind_eq_ok_iff] at h
  obtain ⟨_, -, version, -, project, hproject, host, -, requests, hrequests, requestId, hrequestId,
    config, hconfig, h⟩ := h
  cases h
  obtain ⟨hlength, hnames, hsound⟩ : requests.length ≤ maxPortsPerManifest ∧
      (requests.map fun request => request.name) = (portKeys data).map strip ∧
      ∀ request ∈ requests, request.Sound := by
    unfold validatePorts at hrequests
    split at hrequests
    · rename_i ports hports
      split at hrequests
      · cases hrequests
      · split at hrequests
        · cases hrequests
        · rename_i hcount
          have hmap := mapM_eq_ok_iff.mp hrequests
          have hsame : requests.length = ports.length := by
            have := congrArg List.length hmap
            simpa using this.symm
          refine ⟨hsame ▸ Nat.le_of_not_gt hcount, ?_, fun request hrequest => ?_⟩
          · rw [portKeys, hports]
            exact names_of_requests hmap
          · obtain ⟨raw, -, hraw⟩ := exists_of_mem_mapM hrequests hrequest
            exact (validatePortEntry_eq_ok hraw).2
    · cases hrequests
  refine ⟨(requireString_eq_ok hproject).1, hlength, hnames, hsound, ?_, ?_⟩
  · rintro found hfound
    cases hfound
    obtain ⟨hreferences, hports⟩ := known_of_validateConfig hconfig
    exact ⟨fun name hname => List.mem_eraseDups.mp (hreferences name hname), hports⟩
  · unfold validateRequestId at hrequestId
    split at hrequestId
    · rename_i hnone
      cases hrequestId
      rw [hnone]
      exact ⟨rfl, nofun⟩
    · rename_i raw hraw
      split at hrequestId
      · rename_i text htext
        cases hrequestId
        obtain ⟨hne, -, source, hsource, rfl⟩ := nonBlank?_eq_some htext
        cases hsource
        rw [hraw]
        refine ⟨rfl, fun found hfound => ?_⟩
        cases hfound
        exact length_pos_of_ne hne
      · cases hrequestId

/-- An accepted manifest is well formed and Central accepts its body exactly when the validator
missed nothing. -/
theorem wellFormed_and_sendable_iff (data : List (Scalar × Value)) (manifest : ProjectManifest)
    (h : validateManifest data = .ok manifest) :
    (manifest.WellFormed ∧ manifest.Sendable) ↔ SendableData data := by
  obtain ⟨hproject, hcount, hnames, hsound, hconfig, hrequestId, hgiven⟩ := validateManifest_eq_ok h
  constructor
  · rintro ⟨hwell, hsend⟩
    obtain ⟨payload, haccepted⟩ := hsend ⟨0⟩ ""
    have hlength : payload.requests.length = manifest.requests.length :=
      haccepted.requests.length_eq.symm
    refine ⟨hnames ▸ hwell.names, ?_, fun text htext => ?_⟩
    · rintro hnil
      rw [hnil] at hnames
      have hempty := List.map_eq_nil_iff.mp hnames
      have hpos := payload.requests_length.1
      rw [hlength, hempty] at hpos
      exact absurd hpos (by decide)
    · have hid : manifest.requestId = some (strip text) := by
        rw [hrequestId, htext]
        rfl
      have hsame : payload.requestId = some (strip text) := haccepted.requestId.trans hid
      exact (payload.requestId_length _ hsame).2
  · intro hdata
    have hnodup : (manifest.requests.map fun request => request.name).Nodup := hnames ▸ hdata.names
    refine ⟨⟨hnodup, hcount, fun config hmem => (hconfig config hmem).1,
      fun config hmem => (hconfig config hmem).2,
      fun request hrequest => (hsound request hrequest).toBounded⟩, fun hostId hostname => ?_⟩
    obtain ⟨items, hitems⟩ := exists_itemsAccepted hsound
    have hitemNames := names_of_itemsAccepted hsound hitems
    have hlength : items.length = manifest.requests.length := hitems.length_eq.symm
    have hpos : 1 ≤ manifest.requests.length := by
      have hsame : manifest.requests.length = (portKeys data).length := by
        simpa using congrArg List.length hnames
      rw [hsame]
      exact List.length_pos_iff.mpr hdata.ports
    refine ⟨⟨manifest.project, hostId, items, manifest.requestId, hproject, ?_, ?_, ?_⟩,
      ⟨rfl, rfl, hitems, rfl⟩⟩
    · rw [hlength]
      exact ⟨hpos, hcount⟩
    · intro text htext
      refine ⟨hgiven text htext, ?_⟩
      rw [hrequestId] at htext
      split at htext
      · rename_i source hsource
        cases htext
        exact hdata.requestId source hsource
      · cases htext
    · rwa [hitemNames]

end Manifests

/-- A manifest whose ports are `web` and `web` with a blank behind it. -/
def blankManifest : List (Scalar × Value) :=
  [(.str "version", .int 1), (.str "project", .str "shop"),
    (.str "ports", .dict
      [(.str "web", .dict [(.str "purpose", .str "api")]),
        (.str "web ", .dict [(.str "purpose", .str "api")])])]

/-- A manifest with three ports, one of them with a range, and a file that takes two of them. -/
def shopData : List (Scalar × Value) :=
  [(.str "version", .int 1), (.str "project", .str "shop"),
    (.str "target", .dict [(.str "host", .str "web-1")]), (.str "request_id", .str " deploy-7 "),
    (.str "ports", .dict
      [(.str "web", .dict [(.str "purpose", .str "api"), (.str "range", .str "8000-8010"),
          (.str "preferred", .int 8005)]),
        (.str " db ", .dict [(.str "purpose", .str "postgres")]),
        (.str "dns", .dict [(.str "purpose", .str "other"), (.str "protocol", .str "udp"),
          (.str "range", .str "5300-5353")])]),
    (.str "config", .dict [(.str "dotenv", .list [.dict [(.str "file", .str ".env"),
      (.str "values", .dict [(.str "PORT", .str "web"), (.str "DB_PORT", .str "db")])]])])]

/-- What it is read as. -/
def shopProject : ProjectManifest where
  version := 1
  project := "shop"
  host := some "web-1"
  requests := [⟨"web", "api", "tcp", some 8005, some "8000-8010"⟩,
    ⟨"db", "postgres", "tcp", none, none⟩, ⟨"dns", "other", "udp", none, some "5300-5353"⟩]
  requestId := some "deploy-7"
  config := some ⟨[⟨".env", [("PORT", "web"), ("DB_PORT", "db")]⟩], [], []⟩

theorem wellFormed_and_sendable_iff_sample :
    shopProject.WellFormed ∧ shopProject.Sendable := by
  refine (wellFormed_and_sendable_iff shopData shopProject (by rfl)).mpr ⟨by decide, by decide, ?_⟩
  intro text htext
  cases htext
  decide

/-- Two ports whose names are the same without blanks are accepted. -/
theorem not_wellFormed_and_sendable :
    ¬ ∀ (data : List (Scalar × Value)) (manifest : ProjectManifest),
      validateManifest data = .ok manifest → manifest.WellFormed ∧ manifest.Sendable := by
  intro h
  have hnames := (h blankManifest
    ⟨1, "shop", none, [⟨"web", "api", "tcp", none, none⟩, ⟨"web", "api", "tcp", none, none⟩], none,
      none⟩ (by rfl)).1.names
  exact absurd hnames (by decide)

end Agent
