/-
# Project manifests

`validate_manifest` turns a parsed `portforge.yml` into a `ProjectManifest`, and
refuses every unknown field, wrong type, bound and dangling reference on the way.
-/

import PortForge.Python.Value

namespace Agent

open Python

/-! ## What a manifest declares -/

/-- `ManifestPortRequest`. -/
structure ManifestPortRequest where
  name : String
  purpose : String
  protocol : String
  preferredPort : Option ℕ
  requestedRange : Option String
  deriving DecidableEq, Repr

/-- `DotenvFileMapping`: a file, and which request's port each of its variables gets. -/
structure DotenvFileMapping where
  file : String
  values : List (String × String)
  deriving DecidableEq, Repr

/-- `ComposePortEntry`. -/
structure ComposePortEntry where
  allocation : String
  container : ℕ
  protocol : String
  deriving DecidableEq, Repr

/-- `ComposeFileMapping`. -/
structure ComposeFileMapping where
  file : String
  services : List (String × List ComposePortEntry)
  deriving DecidableEq, Repr

/-- `KubernetesHostPortEntry`. -/
structure KubernetesHostPortEntry where
  kind : String
  name : String
  «namespace» : Option String
  container : String
  containerPort : ℕ
  protocol : String
  allocation : String
  deriving DecidableEq, Repr

/-- `KubernetesNodePortEntry`. -/
structure KubernetesNodePortEntry where
  name : String
  «namespace» : Option String
  servicePort : ℕ
  protocol : String
  allocation : String
  deriving DecidableEq, Repr

/-- `KubernetesFileMapping`. -/
structure KubernetesFileMapping where
  file : String
  hostPorts : List KubernetesHostPortEntry
  nodePorts : List KubernetesNodePortEntry
  deriving DecidableEq, Repr

/-- `ConfigMappings`. -/
structure ConfigMappings where
  dotenv : List DotenvFileMapping
  compose : List ComposeFileMapping
  kubernetes : List KubernetesFileMapping
  deriving DecidableEq, Repr

/-- `ProjectManifest`. -/
structure ProjectManifest where
  version : ℤ
  project : String
  host : Option String
  requests : List ManifestPortRequest
  requestId : Option String
  config : Option ConfigMappings
  deriving DecidableEq, Repr

/-! ## How validation fails -/

/-- A piece of a message: fixed text, or a value as `!r` or `str()` prints it. -/
inductive Fragment
  | text (text : String)
  | repr (value : Option Value)
  | str (key : Scalar)
  deriving Repr

/-- `ManifestError`. -/
structure ManifestError where
  code : String
  message : List Fragment
  details : List (List (String × Value))
  deriving Repr

/-- What validation raises: its own error, or one of Python's that no check forestalls. -/
inductive ValidationFailure
  | manifest (error : ManifestError)
  | typeError
  | valueError
  deriving Repr

abbrev Validation := Except ValidationFailure

/-- Python prints no integer with more digits than it reads. -/
def isPrintable : Scalar → Bool
  | .int number => (Nat.toDigits 10 number.natAbs).length ≤ maxIntDigits
  | _ => true

mutual

/-- Whether `repr` prints a value. -/
def isPrintableValue : Value → Bool
  | .scalar value => isPrintable value
  | .list items => arePrintable items
  | .dict items => areEntriesPrintable items

def arePrintable : List Value → Bool
  | [] => true
  | value :: values => isPrintableValue value && arePrintable values

def areEntriesPrintable : List (Scalar × Value) → Bool
  | [] => true
  | (key, value) :: entries =>
      isPrintable key && isPrintableValue value && areEntriesPrintable entries

end

def Fragment.printable : Fragment → Bool
  | .text _ => true
  | .repr value => value.all isPrintableValue
  | .str key => isPrintable key

/-- The fixed text alone. -/
def plain (text : String) : List Fragment := [.text text]

/-- Raises `ManifestError`, if its message can be printed. -/
def refuse {α : Type} (code : String) (message : List Fragment)
    (details : List (List (String × Value))) : Validation α :=
  .error (if message.all Fragment.printable then .manifest ⟨code, message, details⟩ else .valueError)

/-- A key in the name of a context, which is printed before the key is checked. -/
def requirePrintable (key : Scalar) : Validation Unit :=
  if isPrintable key then pure () else .error .valueError

/-- Most refusals have this code. -/
def invalid {α : Type} (message : List Fragment) (details : List (List (String × Value)) := []) :
    Validation α :=
  refuse "MANIFEST_INVALID" message details

/-! ## Bounds and known fields -/

def supportedManifestVersion : ℤ := 1
def maxPortsPerManifest : ℕ := 20
def maxConfigFilesPerKind : ℕ := 10
def maxValuesPerDotenvFile : ℕ := 50
def maxServicesPerComposeFile : ℕ := 50
def maxPortsPerComposeService : ℕ := 20
def maxHostPortsPerKubernetesFile : ℕ := 50
def maxNodePortsPerKubernetesFile : ℕ := 50

def protocols : List String := ["tcp", "udp"]
def kubernetesSupportedKinds : List String := ["Deployment", "StatefulSet"]

def topLevelKeys : List String := ["version", "project", "target", "ports", "request_id", "config"]
def targetKeys : List String := ["host"]
def portEntryKeys : List String := ["purpose", "protocol", "preferred", "range", "requested_range"]
def configKeys : List String := ["dotenv", "compose", "kubernetes"]
def dotenvEntryKeys : List String := ["file", "values"]
def composeEntryKeys : List String := ["file", "services"]
def composePortEntryKeys : List String := ["allocation", "container", "protocol"]
def kubernetesEntryKeys : List String := ["file", "hostPorts", "nodePorts"]
def kubernetesHostPortEntryKeys : List String :=
  ["kind", "name", "namespace", "container", "containerPort", "protocol", "allocation"]
def kubernetesNodePortEntryKeys : List String :=
  ["name", "namespace", "servicePort", "protocol", "allocation"]

/-! ## Checks that the validators share -/

/-- `', '.join(...)`. -/
def commaSeparated (texts : List String) : String := ", ".intercalate texts

/-- The texts among the keys. -/
def textKeys (keys : List Scalar) : List String :=
  keys.filterMap fun key =>
    match key with
    | .str text => some text
    | _ => none

/-- `_reject_unknown_keys`. An unknown key that is not a text can be neither sorted nor
joined with the others. -/
def rejectUnknownKeys (data : List (Scalar × Value)) (allowed : List String) (context : String) :
    Validation Unit :=
  let unknown := (data.map fun entry => entry.1).filter fun key =>
    !(allowed.any fun name => key = .str name)
  if unknown = [] then pure ()
  else if (textKeys unknown).length < unknown.length then .error .typeError
  else
    let fields := sorted (textKeys unknown)
    invalid
      (plain (s!"Unknown field(s) in {context}: " ++ commaSeparated fields ++ ". " ++
        "Known field(s): " ++ commaSeparated (sorted allowed) ++ "."))
      (fields.map fun field => [("context", .str context), ("field", .str field)])

/-- A text that is not blank, stripped. -/
def nonBlank? : Option Value → Option String
  | some (.scalar (.str text)) => if strip text = "" then none else some (strip text)
  | _ => none

/-- `_require_string`. -/
def requireString (data : List (Scalar × Value)) (key context : String) (maxLength : ℕ) :
    Validation String :=
  match nonBlank? (get? data key) with
  | none =>
      invalid (plain s!"'{key}' in {context} must be a non-empty string.") [[("field", .str key)]]
  | some value =>
      if value.length > maxLength then
        invalid (plain s!"'{key}' in {context} exceeds the {maxLength}-character limit.")
          [[("field", .str key)]]
      else pure value

/-- An integer between 1 and 65535; booleans are not integers here. -/
def portNumber? : Option Value → Option ℕ
  | some (.scalar (.int value)) =>
      if 1 ≤ value ∧ value ≤ 65535 then some value.toNat else none
  | _ => none

/-- A required port number under `key`. -/
def requirePort (entry : List (Scalar × Value)) (key context : String) : Validation ℕ :=
  match portNumber? (get? entry key) with
  | some port => pure port
  | none =>
      invalid [.text s!"'{context}.{key}' must be an integer between 1 and 65535, got ",
        .repr (get? entry key), .text "."]

/-- The protocol of an entry, `tcp` where it has none. -/
def readProtocol (entry : List (Scalar × Value)) (context : String)
    (details : List (List (String × Value))) : Validation String :=
  match (get? entry "protocol").getD (.str "tcp") with
  | .scalar (.str protocol) =>
      if protocol ∈ protocols then pure protocol else refused (.str protocol)
  | other => refused other
where
  refused (value : Value) : Validation String :=
    invalid [.text s!"'{context}.protocol' must be one of ('tcp', 'udp'), got ",
      .repr (some value), .text "."] details

/-- A reference to one of the manifest's port requests. -/
def requireAllocation (entry : List (Scalar × Value)) (context : String)
    (knownNames : List String) :
    Validation String :=
  match nonBlank? (get? entry "allocation") with
  | none => invalid (plain s!"'{context}.allocation' must be a non-empty string.")
  | some allocation =>
      if allocation ∈ knownNames then pure allocation
      else
        refuse "CONFIG_MAPPING_INVALID"
          (plain (s!"'{context}.allocation' references '{allocation}', which is not one of this " ++
            "manifest's 'ports' entries: " ++ commaSeparated (sorted knownNames) ++ "."))
          [[("field", .str s!"{context}.allocation"), ("reference", .str allocation)]]

/-- A mapping's entries, or a refusal. -/
def requireMapping (value : Value) (context : String) : Validation (List (Scalar × Value)) :=
  match value with
  | .dict items => pure items
  | _ => invalid (plain s!"'{context}' must be a mapping.")

/-- An optional list of at most `limit` items, as `field` of the enclosing mapping. -/
def readList (data : List (Scalar × Value)) (key field : String) (limit : ℕ) :
    Validation (List Value) :=
  match (get? data key).getD (.list []) with
  | .list items =>
      if items.length > limit then
        let count := items.length
        invalid (plain s!"'{field}' has {count} entries, exceeding the {limit}-entry limit.")
      else pure items
  | _ => invalid (plain s!"'{field}' must be a list.")

/-! ## Port requests -/

/-- Whether all characters are ASCII digits, and there is one. -/
def isAsciiDigits (digits : List Char) : Bool :=
  !digits.isEmpty && digits.all fun c => '0' ≤ c && c ≤ '9'

/-- `MIN-MAX` in ASCII digits, as the two digit strings. -/
def rangeDigits (text : List Char) : Option (List Char × List Char) :=
  match text.splitOn '-' with
  | [low, high] => if isAsciiDigits low && isAsciiDigits high then some (low, high) else none
  | _ => none

/-- The range of a port entry. Its bounds are converted by `int`, which refuses digit
strings that are too long. -/
def readRequestedRange (entry : List (Scalar × Value)) (context : String) :
    Validation (Option (ℤ × ℤ)) :=
  match ((get? entry "range").or (get? entry "requested_range")).getD (.scalar .none) with
  | .scalar .none => pure none
  | .scalar (.str text) =>
      match rangeDigits (stripChars text.toList) with
      | none => malformed
      | some (low, high) =>
          match readInt low, readInt high with
          | some low, some high =>
              if (1 ≤ low ∧ low ≤ 65535) ∧ (1 ≤ high ∧ high ≤ 65535) ∧ low ≤ high then
                pure (some (low, high))
              else
                invalid (plain s!"'{context}.range' must be within 1-65535 with MIN <= MAX.")
          | _, _ => .error .valueError
  | _ => malformed
where
  malformed : Validation (Option (ℤ × ℤ)) :=
    invalid (plain s!"'{context}.range' must use MIN-MAX format.")

/-- `_validate_port_entry`. -/
def validatePortEntry (name : Scalar) (entry : Value) : Validation ManifestPortRequest :=
  match name with
  | .str name =>
      if strip name = "" then invalid (plain "Port entry names must be non-empty strings.")
      else if name.length > 255 then
        invalid (plain s!"Port entry name '{name}' exceeds the 255-character limit.")
      else do
        let context := s!"ports.{name}"
        let entry ← requireMapping entry context
        rejectUnknownKeys entry portEntryKeys context
        let purpose ← requireString entry "purpose" context 64
        let protocol ← readProtocol entry context [[("field", .str s!"{context}.protocol")]]
        let preferredPort ←
          match get? entry "preferred" with
          | none => pure none
          | some raw =>
              match portNumber? (some raw) with
              | some port => pure (some port)
              | none =>
                  invalid
                    [.text s!"'{context}.preferred' must be an integer between 1 and 65535, got ",
                      .repr (some raw), .text "."]
                    [[("field", .str s!"{context}.preferred")]]
        if (get? entry "range").isSome && (get? entry "requested_range").isSome then
          invalid (plain s!"'{context}' may specify only one of 'range' or 'requested_range'.")
        else
          match ← readRequestedRange entry context with
          | none => pure ⟨strip name, purpose, protocol, preferredPort, none⟩
          | some (low, high) =>
              let requestedRange := s!"{low}-{high}"
              if preferredPort.any fun port => !(low ≤ port && port ≤ high) then
                invalid (plain s!"'{context}.preferred' must fall inside '{requestedRange}'.")
              else pure ⟨strip name, purpose, protocol, preferredPort, some requestedRange⟩
  | name => do
      requirePrintable name
      invalid (plain "Port entry names must be non-empty strings.")

/-! ## Dotenv mappings -/

/-- The characters of `[A-Za-z_]`. -/
def isKeyStart (c : Char) : Bool :=
  ('A' ≤ c && c ≤ 'Z') || ('a' ≤ c && c ≤ 'z') || c = '_'

/-- `_ENV_KEY_RE.match`; its `$` also matches in front of a final line feed. -/
def isEnvKey (key : String) : Bool :=
  match (if key.toList.getLast? = some '\n' then key.toList.dropLast else key.toList) with
  | [] => false
  | first :: rest => isKeyStart first && rest.all fun c => isKeyStart c || ('0' ≤ c && c ≤ '9')

/-- One entry of a dotenv mapping's `values`. -/
def validateDotenvValue (context : String) (knownNames : List String) (key : Scalar)
    (value : Value) :
    Validation (String × String) :=
  let badKey : Validation (String × String) :=
    invalid [.text s!"'{context}.values' key '", .str key,
      .text "' is not a valid environment variable name (expected [A-Za-z_][A-Za-z0-9_]*)."]
  match key with
  | .str envKey =>
      if isEnvKey envKey then
        match nonBlank? (some value) with
        | none =>
            invalid
              (plain s!"'{context}.values.{envKey}' must reference a port request name (a string).")
        | some name =>
            if name ∈ knownNames then pure (envKey, name)
            else
              refuse "CONFIG_MAPPING_INVALID"
                (plain (s!"'{context}.values.{envKey}' references '{name}', which is not one of " ++
                  "this manifest's 'ports' entries: " ++ commaSeparated (sorted knownNames) ++ "."))
                [[("field", .str s!"{context}.values.{envKey}"), ("reference", .str name)]]
      else badKey
  | _ => badKey

/-- `_validate_dotenv_mapping`. -/
def validateDotenvMapping (knownNames : List String) (entry : Value) (index : ℕ) :
    Validation DotenvFileMapping := do
  let context := s!"config.dotenv[{index}]"
  let entry ← requireMapping entry context
  rejectUnknownKeys entry dotenvEntryKeys context
  let file ← requireString entry "file" context 1024
  match get? entry "values" with
  | some (.dict (first :: rest)) =>
      let values := first :: rest
      if values.length > maxValuesPerDotenvFile then
        let count := values.length
        let limit := maxValuesPerDotenvFile
        invalid
          (plain s!"'{context}.values' has {count} entries, exceeding the {limit}-entry limit.")
      else
        let resolved ← values.mapM fun item => validateDotenvValue context knownNames item.1 item.2
        pure ⟨file, resolved.foldl (fun data item => setItem data item.1 item.2) []⟩
  | _ => invalid (plain s!"'{context}.values' must be a non-empty mapping.")

/-! ## Compose mappings -/

/-- `_validate_compose_port_entry`. -/
def validateComposePortEntry (knownNames : List String) (entry : Value) (context : String) :
    Validation ComposePortEntry := do
  let entry ← requireMapping entry context
  rejectUnknownKeys entry composePortEntryKeys context
  let allocation ← requireAllocation entry context knownNames
  let container ← requirePort entry "container" context
  let protocol ← readProtocol entry context []
  pure ⟨allocation, container, protocol⟩

/-- One service of a Compose mapping. -/
def validateComposeService (context : String) (knownNames : List String) (name : Scalar)
    (entry : Value) : Validation (String × List ComposePortEntry) :=
  match name with
  | .str name =>
      if strip name = "" then
        invalid (plain s!"'{context}.services' keys must be non-empty strings.")
      else do
        let serviceContext := s!"{context}.services.{name}"
        let entry ← requireMapping entry serviceContext
        rejectUnknownKeys entry ["ports"] serviceContext
        match get? entry "ports" with
        | some (.list (first :: rest)) =>
            let ports := first :: rest
            if ports.length > maxPortsPerComposeService then
              let count := ports.length
              let limit := maxPortsPerComposeService
              invalid (plain (s!"'{serviceContext}.ports' has {count} entries, exceeding the " ++
                s!"{limit}-entry limit."))
            else
              let entries ← ports.zipIdx.mapM fun item =>
                let index := item.2
                validateComposePortEntry knownNames item.1 s!"{serviceContext}.ports[{index}]"
              pure (strip name, entries)
        | _ => invalid (plain s!"'{serviceContext}.ports' must be a non-empty list.")
  | name => do
      requirePrintable name
      invalid (plain s!"'{context}.services' keys must be non-empty strings.")

/-- `_validate_compose_mapping`. -/
def validateComposeMapping (knownNames : List String) (entry : Value) (index : ℕ) :
    Validation ComposeFileMapping := do
  let context := s!"config.compose[{index}]"
  let entry ← requireMapping entry context
  rejectUnknownKeys entry composeEntryKeys context
  let file ← requireString entry "file" context 1024
  match get? entry "services" with
  | some (.dict (first :: rest)) =>
      let services := first :: rest
      if services.length > maxServicesPerComposeFile then
        let count := services.length
        let limit := maxServicesPerComposeFile
        invalid
          (plain s!"'{context}.services' has {count} entries, exceeding the {limit}-entry limit.")
      else
        let resolved ← services.mapM fun item =>
          validateComposeService context knownNames item.1 item.2
        pure ⟨file, resolved.foldl (fun data item => setItem data item.1 item.2) []⟩
  | _ => invalid (plain s!"'{context}.services' must be a non-empty mapping.")

/-! ## Kubernetes mappings -/

/-- The optional `namespace` of an entry. -/
def readNamespace (entry : List (Scalar × Value)) (context : String) : Validation (Option String) :=
  match get? entry "namespace" with
  | none => pure none
  | some raw =>
      match nonBlank? (some raw) with
      | some text => pure (some text)
      | none => invalid (plain s!"'{context}.namespace' must be a non-empty string if present.")

/-- `_validate_kubernetes_hostport_entry`. -/
def validateKubernetesHostPortEntry (knownNames : List String) (entry : Value) (context : String) :
    Validation KubernetesHostPortEntry := do
  let entry ← requireMapping entry context
  rejectUnknownKeys entry kubernetesHostPortEntryKeys context
  let refusedKind : Validation String :=
    invalid
      [.text s!"'{context}.kind' must be one of ('Deployment', 'StatefulSet'), got ",
        .repr (get? entry "kind"), .text "."]
      [[("field", .str s!"{context}.kind")]]
  let kind ←
    match get? entry "kind" with
    | some (.scalar (.str kind)) =>
        if kind ∈ kubernetesSupportedKinds then pure kind else refusedKind
    | _ => refusedKind
  let name ← requireString entry "name" context 255
  let ns ← readNamespace entry context
  let container ← requireString entry "container" context 255
  let containerPort ← requirePort entry "containerPort" context
  let protocol ← readProtocol entry context []
  let allocation ← requireAllocation entry context knownNames
  pure ⟨kind, name, ns, container, containerPort, protocol, allocation⟩

/-- `_validate_kubernetes_nodeport_entry`. -/
def validateKubernetesNodePortEntry (knownNames : List String) (entry : Value) (context : String) :
    Validation KubernetesNodePortEntry := do
  let entry ← requireMapping entry context
  rejectUnknownKeys entry kubernetesNodePortEntryKeys context
  let name ← requireString entry "name" context 255
  let ns ← readNamespace entry context
  let servicePort ← requirePort entry "servicePort" context
  let protocol ← readProtocol entry context []
  let allocation ← requireAllocation entry context knownNames
  pure ⟨name, ns, servicePort, protocol, allocation⟩

/-- What a host port entry edits. -/
def KubernetesHostPortEntry.place (entry : KubernetesHostPortEntry) :
    String × Option String × String × String × ℕ × String :=
  (entry.kind, entry.namespace, entry.name, entry.container, entry.containerPort, entry.protocol)

/-- What a node port entry edits. -/
def KubernetesNodePortEntry.place (entry : KubernetesNodePortEntry) :
    Option String × String × ℕ × String :=
  (entry.namespace, entry.name, entry.servicePort, entry.protocol)

/-- The first entry, with its index, that edits the place of an earlier one. -/
def findRepeated {α κ : Type} [DecidableEq κ] (place : α → κ) (entries : List α) :
    Option (α × ℕ) :=
  entries.zipIdx.find? fun item => (entries.take item.2).any fun earlier => place earlier =
      place item.1

/-- `_validate_kubernetes_mapping`. -/
def validateKubernetesMapping (knownNames : List String) (entry : Value) (index : ℕ) :
    Validation KubernetesFileMapping := do
  let context := s!"config.kubernetes[{index}]"
  let entry ← requireMapping entry context
  rejectUnknownKeys entry kubernetesEntryKeys context
  let file ← requireString entry "file" context 1024
  let hostPortsRaw ← readList entry "hostPorts" s!"{context}.hostPorts" maxHostPortsPerKubernetesFile
  let hostPorts ← hostPortsRaw.zipIdx.mapM fun item =>
    let index := item.2
    validateKubernetesHostPortEntry knownNames item.1 s!"{context}.hostPorts[{index}]"
  let nodePortsRaw ← readList entry "nodePorts" s!"{context}.nodePorts" maxNodePortsPerKubernetesFile
  let nodePorts ← nodePortsRaw.zipIdx.mapM fun item =>
    let index := item.2
    validateKubernetesNodePortEntry knownNames item.1 s!"{context}.nodePorts[{index}]"
  if hostPorts.isEmpty && nodePorts.isEmpty then
    invalid (plain
      s!"'{context}' declares neither 'hostPorts' nor 'nodePorts' -- nothing to map.")
  else
    match findRepeated KubernetesHostPortEntry.place hostPorts with
    | some (entry, index) =>
        let kind := entry.kind
        let name := entry.name
        let container := entry.container
        let port := entry.containerPort
        let protocol := entry.protocol
        refuse "CONFIG_MAPPING_INVALID"
          (plain (s!"'{context}.hostPorts' has more than one mapping targeting {kind} '{name}' " ++
            s!"container '{container}' containerPort {port}/{protocol}."))
          [[("field", .str s!"{context}.hostPorts[{index}]")]]
    | none =>
        match findRepeated KubernetesNodePortEntry.place nodePorts with
        | some (entry, index) =>
            let name := entry.name
            let port := entry.servicePort
            let protocol := entry.protocol
            refuse "CONFIG_MAPPING_INVALID"
              (plain (s!"'{context}.nodePorts' has more than one mapping targeting Service " ++
                s!"'{name}' servicePort {port}/{protocol}."))
              [[("field", .str s!"{context}.nodePorts[{index}]")]]
        | none => pure ⟨file, hostPorts, nodePorts⟩

/-! ## The whole manifest -/

/-- `_validate_config`. -/
def validateConfig (knownNames : List String) (data : Option Value) :
    Validation (Option ConfigMappings) :=
  match data.getD (.scalar .none) with
  | .scalar .none => pure none
  | .dict data => do
      rejectUnknownKeys data configKeys "config"
      let dotenvRaw ← readList data "dotenv" "config.dotenv" maxConfigFilesPerKind
      let dotenv ← dotenvRaw.zipIdx.mapM fun item => validateDotenvMapping knownNames item.1 item.2
      let composeRaw ← readList data "compose" "config.compose" maxConfigFilesPerKind
      let compose ← composeRaw.zipIdx.mapM fun item =>
        validateComposeMapping knownNames item.1 item.2
      let kubernetesRaw ← readList data "kubernetes" "config.kubernetes" maxConfigFilesPerKind
      let kubernetes ← kubernetesRaw.zipIdx.mapM fun item =>
        validateKubernetesMapping knownNames item.1 item.2
      if dotenv.isEmpty && compose.isEmpty && kubernetes.isEmpty then
        invalid (plain ("'config' was given but declares no 'dotenv', 'compose', or " ++
          "'kubernetes' entries."))
      else pure (some ⟨dotenv, compose, kubernetes⟩)
  | _ => invalid (plain "'config' must be a mapping.")

/-- The `version` field. -/
def validateVersion (data : List (Scalar × Value)) : Validation ℤ :=
  match (get? data "version").getD (.scalar .none) with
  | .scalar .none => invalid (plain "Manifest is missing required field 'version'.")
  | .scalar (.int version) =>
      if version = supportedManifestVersion then pure version
      else
        let supported := supportedManifestVersion
        refuse "UNSUPPORTED_MANIFEST_VERSION"
          [.text "Manifest version ", .str (.int version),
            .text (" is not supported. This version of PortForge " ++
              s!"supports version {supported} only. No automatic migration is attempted.")]
          [[("version", .int version), ("supported", .int supported)]]
  | other => invalid [.text "'version' must be an integer, got ", .repr (some other), .text "."]

/-- The `target` field: the host, where one is declared. -/
def validateTarget (data : List (Scalar × Value)) : Validation (Option String) :=
  match (get? data "target").getD (.scalar .none) with
  | .scalar .none => pure none
  | .dict target => do
      rejectUnknownKeys target targetKeys "target"
      let host ← requireString target "host" "target" 255
      pure (some host)
  | _ => invalid (plain "'target' must be a mapping with a 'host' field.")

/-- The `ports` field, which may be empty only without a target. -/
def validatePorts (data : List (Scalar × Value)) (hasTarget : Bool) :
    Validation (List ManifestPortRequest) :=
  match get? data "ports" with
  | some (.dict ports) =>
      if ports.isEmpty && hasTarget then
        invalid (plain "'ports' must contain at least one entry when a target is declared.")
      else if ports.length > maxPortsPerManifest then
        let count := ports.length
        let limit := maxPortsPerManifest
        invalid (plain s!"'ports' has {count} entries, exceeding the {limit}-entry limit.")
      else ports.mapM fun entry => validatePortEntry entry.1 entry.2
  | _ =>
      invalid (plain ("'ports' must be a mapping of name -> \x7bpurpose, protocol?, preferred?\x7d " ++
        "(a list is Phase 4's separate .portforge.yml 'ports' schema, not this manifest's)."))

/-- The `request_id` field. -/
def validateRequestId (data : List (Scalar × Value)) : Validation (Option String) :=
  match get? data "request_id" with
  | none => pure none
  | some raw =>
      match nonBlank? (some raw) with
      | some text => pure (some text)
      | none => invalid (plain "'request_id' must be a non-empty string if present.")

/-- `validate_manifest`. -/
def validateManifest (data : List (Scalar × Value)) : Validation ProjectManifest := do
  rejectUnknownKeys data topLevelKeys "manifest"
  let version ← validateVersion data
  let project ← requireString data "project" "manifest" 255
  let host ← validateTarget data
  let requests ← validatePorts data host.isSome
  let knownNames := (requests.map fun request => request.name).eraseDups
  let requestId ← validateRequestId data
  let config ← validateConfig knownNames (get? data "config")
  pure ⟨version, project, host, requests, requestId, config⟩

end Agent
