/-
# Editing Kubernetes documents

A mapping names a resource, a container and a port, or a service and a port. The editor looks for
the one entry it means and assigns the host port or the node port of that entry. It reads
everything before it writes, and it never reads what it writes.
-/

import PortForge.Agent.Manifest
import PortForge.Effects.Exceptions
import PortForge.Python.Documents

namespace Agent.Kubernetes

open Python Effects

variable {R : Type}

/-- `KubernetesError`. -/
structure KubernetesError (R : Type) where
  code : String
  message : String
  details : List (List (String × Item R Scalar))

/-- What the editor raises: its own error, or Python's where a number has too many digits to be
printed. -/
inductive KubernetesFailure (R : Type)
  | kubernetes (error : KubernetesError R)
  | valueError

/-- A search through the documents. -/
abbrev Search (R : Type) := Except (KubernetesFailure R)

/-- `KubernetesChange`. -/
structure KubernetesChange (R : Type) where
  kind : String
  name : String
  field : String
  container : Option String
  matchPort : ℕ
  before : Option (Item R Scalar)
  after : ℕ
  action : String

def error (code message : String) (details : List (List (String × Item R Scalar))) :
    KubernetesFailure R :=
  .kubernetes ⟨code, message, details⟩

/-- `SUPPORTED_WORKLOAD_KINDS`. -/
def supportedWorkloadKinds : List String := ["Deployment", "StatefulSet"]

/-- `_SUPPORTED_SERVICE_TYPES_FOR_NODEPORT`. -/
def supportedServiceTypesForNodeport : List String := ["NodePort", "LoadBalancer"]

/-! ## Reading -/

/-- The list under a key; anything else counts as an empty list. -/
def listOf (heap : Heap R Scalar) (object : R) (key : String) : List (Item R Scalar) :=
  ((getItem heap object key).bind (asList heap)).getD []

/-- `value == text`. -/
def equalsText (value : Option (Item R Scalar)) (expected : String) : Bool :=
  match value with
  | some (.scalar (.str found)) => found = expected
  | _ => false

/-- `value == port`. A float that equals a port prints as the port with one decimal. -/
def equalsPort (value : Option (Item R Scalar)) (port : ℕ) : Bool :=
  match value with
  | some (.scalar (.int number)) => number = port
  | some (.scalar (.bool flag)) => flag.toNat = port
  | some (.scalar (.other _ shown)) => shown = toString port ++ ".0"
  | _ => false

/-- `str(value)` of a scalar. -/
def str (value : Scalar) : Search R String :=
  if isPrintable value then pure value.shown else .error .valueError

/-- The one match of a search. -/
def exactlyOne {α : Type} (found : List α) (missing : KubernetesFailure R)
    (ambiguous : ℕ → KubernetesFailure R) : Search R α :=
  match found with
  | [] => .error missing
  | [only] => pure only
  | _ :: _ :: _ => .error (ambiguous found.length)

/-- The value has to be a mapping. -/
def requireDict (heap : Heap R Scalar) (value : Option (Item R Scalar)) (message : String) :
    Search R R :=
  match value.bind (asDict heap) with
  | some object => pure object
  | none => .error (error "CONFIG_PARSE_ERROR" message [])

/-- The value under a key has to be a list. -/
def requireList (heap : Heap R Scalar) (object : R) (key : String) (failure : KubernetesFailure R) :
    Search R Unit :=
  if ((getItem heap object key).bind (asList heap)).isSome then pure () else .error failure

/-- Whether a document is the named resource. -/
def isResource (heap : Heap R Scalar) (kind name : String) («namespace» : Option String)
    (document : R) : Bool :=
  equalsText (getItem heap document "kind") kind &&
    match (getItem heap document "metadata").bind (asDict heap) with
    | none => false
    | some metadata =>
        equalsText (getItem heap metadata "name") name &&
          «namespace».all fun expected => equalsText (getItem heap metadata "namespace") expected

/-- The mappings of a list that satisfy a condition, with their places. -/
def dictsWhere (heap : Heap R Scalar) (condition : R → Bool) (items : List (Item R Scalar)) :
    List (ℕ × R) :=
  items.zipIdx.filterMap fun (item, index) =>
    ((asDict heap item).filter condition).map fun object => (index, object)

/-- `_find_resource`. -/
def findResource (heap : Heap R Scalar) (documents : R) (kind name : String)
    («namespace» : Option String) : Search R (ℕ × R) :=
  let found := dictsWhere heap (isResource heap kind name «namespace»)
    ((asList heap (.ref documents)).getD [])
  -- An empty namespace is told from none in the search, and not in the message.
  let place := match «namespace» with
    | some expected => if expected = "" then "" else s!" in namespace '{expected}'"
    | none => ""
  let given : Item R Scalar := match «namespace» with
    | some expected => textItem expected
    | none => .scalar .none
  exactlyOne found
    (error "KUBERNETES_RESOURCE_NOT_FOUND" (s!"No {kind} named '{name}'" ++ place ++
      " found in file.") [[("kind", textItem kind), ("name", textItem name), ("namespace", given)]])
    fun count => error "KUBERNETES_RESOURCE_AMBIGUOUS"
      (s!"{count} {kind} resources named '{name}' found in file -- PortForge cannot safely " ++
        "determine which one to update. Add an explicit 'namespace' to the manifest mapping to " ++
        "disambiguate.")
      [[("kind", textItem kind), ("name", textItem name)]]

section Ports

variable (upper : String → String)

/-- Whether an entry has the protocol. What a mapping or a list prints begins with a bracket and
is no protocol of a manifest. -/
def hasProtocol (heap : Heap R Scalar) (protocol : String) (entry : R) : Search R Bool :=
  match (getItem heap entry "protocol").getD (textItem "TCP") with
  | .scalar value => do
      let entryProtocol ← str value
      pure (upper entryProtocol = upper protocol)
  | .ref _ => pure false

/-- The loop over a list of ports: the entries with a port and a protocol. -/
def portEntries (heap : Heap R Scalar) (key : String) (port : ℕ) (protocol : String) :
    List (ℕ × R) → Search R (List (ℕ × R))
  | [] => pure []
  | (index, entry) :: entries =>
      if equalsPort (getItem heap entry key) port then do
        let here ← hasProtocol upper heap protocol entry
        let found ← portEntries heap key port protocol entries
        pure (if here then (index, entry) :: found else found)
      else portEntries heap key port protocol entries

/-- The search of `apply_host_port`. -/
def selectHostPort (heap : Heap R Scalar) (documents : R) (mapping : KubernetesHostPortEntry) :
    Search R R := do
  let ⟨kind, name, «namespace», container, containerPort, protocol, _⟩ := mapping
  let about := [("kind", textItem kind), ("name", textItem name), ("container", textItem container)]
  if kind ∉ supportedWorkloadKinds then
    .error (error "KUBERNETES_KIND_UNSUPPORTED"
      (s!"'{kind}' is not a supported hostPort workload kind for v1.1-C. Supported: " ++
        ", ".intercalate supportedWorkloadKinds ++ ".") [[("kind", textItem kind)]])
  else do
    let (_, document) ← findResource heap documents kind name «namespace»
    let spec ← requireDict heap (getItem heap document "spec") s!"{kind} '{name}' has no 'spec'."
    let template ← requireDict heap (getItem heap spec "template")
      s!"{kind} '{name}' has no 'spec.template'."
    let podSpec ← requireDict heap (getItem heap template "spec")
      s!"{kind} '{name}' has no 'spec.template.spec'."
    requireList heap podSpec "containers" (error "CONFIG_PARSE_ERROR"
      s!"{kind} '{name}' has no 'spec.template.spec.containers'." [])
    let (_, containerMap) ← exactlyOne
      (dictsWhere heap (fun found => equalsText (getItem heap found "name") container)
        (listOf heap podSpec "containers"))
      (error "KUBERNETES_CONTAINER_NOT_FOUND"
        s!"Container '{container}' not found in {kind} '{name}'." [about])
      fun _ => error "KUBERNETES_CONTAINER_AMBIGUOUS"
        s!"Multiple containers named '{container}' found in {kind} '{name}'." [about]
    let found ← portEntries upper heap "containerPort" containerPort protocol
      (dictsWhere heap (fun _ => true) (listOf heap containerMap "ports"))
    let details := [about ++ [("container_port", .scalar (.int containerPort))]]
    let (_, entry) ← exactlyOne found
      (error "KUBERNETES_PORT_NOT_FOUND"
        (s!"No containerPort {containerPort}/{protocol} entry found on container " ++
          s!"'{container}' in {kind} '{name}'. PortForge will not invent a new port entry -- " ++
          "add it to the YAML first.") details)
      fun count => error "KUBERNETES_PORT_AMBIGUOUS"
        (s!"Container '{container}' in {kind} '{name}' has {count} port entries for " ++
          s!"containerPort {containerPort}/{protocol} -- PortForge cannot safely determine " ++
          "which one to update.") details
    pure entry

/-- What an f-string prints of a value. `spelling` is what it prints of an object. -/
def spelled (spelling : Heap R Scalar → R → String) (heap : Heap R Scalar) :
    Item R Scalar → Search R String
  | .scalar value => str value
  | .ref object => pure (spelling heap object)

/-- The service has to be of a type with node ports. -/
def checkServiceType (spelling : Heap R Scalar → R → String) (heap : Heap R Scalar) (name : String)
    (spec : R) : Search R Unit :=
  let serviceType := (getItem heap spec "type").getD (textItem "ClusterIP")
  if supportedServiceTypesForNodeport.any (equalsText (some serviceType)) then pure ()
  else do
    let shownType ← spelled spelling heap serviceType
    .error (error "KUBERNETES_SERVICE_TYPE_UNSUPPORTED"
      (s!"Service '{name}' has type '{shownType}', which does not support nodePort. PortForge will " ++
        "not change a Service's type -- set 'spec.type: NodePort' in the YAML first.")
      [[("name", textItem name), ("type", serviceType)]])

/-- The search of `apply_node_port`. -/
def selectNodePort (spelling : Heap R Scalar → R → String) (heap : Heap R Scalar) (documents : R)
    (mapping : KubernetesNodePortEntry) : Search R R := do
  let ⟨name, «namespace», servicePort, protocol, _⟩ := mapping
  let (_, document) ← findResource heap documents "Service" name «namespace»
  let spec ← requireDict heap (getItem heap document "spec") s!"Service '{name}' has no 'spec'."
  checkServiceType spelling heap name spec
  requireList heap spec "ports" (error "KUBERNETES_PORT_NOT_FOUND"
    s!"Service '{name}' has no 'spec.ports'." [[("name", textItem name)]])
  let found ← portEntries upper heap "port" servicePort protocol
    (dictsWhere heap (fun _ => true) (listOf heap spec "ports"))
  let details := [[("name", textItem name), ("service_port", .scalar (.int servicePort))]]
  let (_, entry) ← exactlyOne found
    (error "KUBERNETES_PORT_NOT_FOUND"
      (s!"No Service port {servicePort}/{protocol} entry found on Service '{name}'. " ++
        "PortForge will not invent a new port entry -- add it to the YAML first.") details)
    fun count => error "KUBERNETES_PORT_AMBIGUOUS"
      (s!"Service '{name}' has {count} port entries for port {servicePort}/{protocol} -- " ++
        "PortForge cannot safely determine which one to update.") details
  pure entry

/-! ## Writing -/

/-- A mapping of the manifest. -/
inductive PortMapping
  | hostPort (entry : KubernetesHostPortEntry)
  | nodePort (entry : KubernetesNodePortEntry)
  deriving DecidableEq, Repr

/-- The field that is assigned. -/
def PortMapping.field : PortMapping → String
  | hostPort _ => "hostPort"
  | nodePort _ => "nodePort"

/-- What is reported of the change. -/
def PortMapping.change (mapping : PortMapping) (before : Option (Item R Scalar)) (port : ℕ) :
    KubernetesChange R :=
  match mapping with
  | hostPort entry =>
      { kind := entry.kind
        name := entry.name
        field := "hostPort"
        container := some entry.container
        matchPort := entry.containerPort
        before := before
        after := port
        action := "update" }
  | nodePort entry =>
      { kind := "Service"
        name := entry.name
        field := "nodePort"
        container := none
        matchPort := entry.servicePort
        before := before
        after := port
        action := "update" }

variable (spelling : Heap R Scalar → R → String)

/-- The entry that a mapping means. -/
def select (heap : Heap R Scalar) (documents : R) : PortMapping → Search R R
  | .hostPort entry => selectHostPort upper heap documents entry
  | .nodePort entry => selectNodePort upper spelling heap documents entry

/-- Assign the field of the entry that a mapping means. The documents are changed in place. -/
def applyPort [DecidableEq R] (documents : R) (mapping : PortMapping) (port : ℕ) :
    EStateM (KubernetesFailure R) (Heap R Scalar) (KubernetesChange R) := do
  let heap ← MonadState.get
  match select upper spelling heap documents mapping with
  | .error failure => throw failure
  | .ok entry =>
      let before := getItem heap entry mapping.field
      set (Python.assign heap entry (.str mapping.field) (.scalar (.int port)))
      pure (mapping.change before port)

/-- `apply_host_port`. -/
def applyHostPort [DecidableEq R] (documents : R) (entry : KubernetesHostPortEntry)
    (newHostPort : ℕ) : EStateM (KubernetesFailure R) (Heap R Scalar) (KubernetesChange R) :=
  applyPort upper spelling documents (.hostPort entry) newHostPort

/-- `apply_node_port`. -/
def applyNodePort [DecidableEq R] (documents : R) (entry : KubernetesNodePortEntry)
    (newNodePort : ℕ) : EStateM (KubernetesFailure R) (Heap R Scalar) (KubernetesChange R) :=
  applyPort upper spelling documents (.nodePort entry) newNodePort

end Ports

end Agent.Kubernetes
