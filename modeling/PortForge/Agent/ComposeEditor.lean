/-
# Editing Compose documents

A mapping of the manifest names a service, a container port and a protocol. The editor compares
every entry of the service's ports with the binding. The one entry that matches gets the new host
port; if none does, an entry is added. It decides what to do before it writes.
-/

import PortForge.Agent.ComposePorts
import PortForge.Agent.Manifest
import PortForge.Python.Documents

namespace Agent.Compose

open Python

variable {R : Type}

/-- `ComposeChange`. -/
structure ComposeChange where
  service : String
  containerPort : ℕ
  protocol : String
  beforeHost : Option String
  afterHost : String
  action : String
  deriving DecidableEq, Repr

/-- The arguments that name a binding, and its new host port. -/
structure Binding where
  service : String
  containerPort : ℕ
  protocol : String
  newHostPort : ℕ
  deriving DecidableEq, Repr

def error (code message : String) (details : List (List (String × Scalar))) : ComposeFailure :=
  .compose ⟨code, message, details⟩

/-! ## Reading -/

/-- What `str` prints of an object, unless a number in it has too many digits. -/
abbrev Spelling (R : Type) := Heap R Scalar → R → Option String

/-- `str(value)`. -/
def str (spelling : Spelling R) (heap : Heap R Scalar) : Item R Scalar → Editing String
  | .scalar value => if isPrintable value then pure value.shown else .error .valueError
  | .ref object =>
      match spelling heap object with
      | some printed => pure printed
      | none => .error .valueError

/-- `isinstance(value, int)`, which a boolean is as well, and the number. -/
def asInt : Option (Item R Scalar) → Option ℤ
  | some (.scalar (.int number)) => some number
  | some (.scalar (.bool flag)) => some flag.toNat
  | _ => none

/-- `_entry_container_and_protocol`. -/
def entryContainerAndProtocol (spelling : Spelling R) (heap : Heap R Scalar) :
    Item R Scalar → Editing (Option (ℤ × String))
  | .scalar (.str value) => do
      let parsed ← parseShortEntry value
      pure (parsed.map fun entry => ((entry.container : ℤ), entry.protocol))
  | .scalar _ => pure none
  | .ref object =>
      match heap object with
      | .list _ => pure none
      | .dict _ =>
          match asInt (getItem heap object "target") with
          | none => pure none
          | some target => do
              let protocol ← str spelling heap ((getItem heap object "protocol").getD (textItem "tcp"))
              pure (some (target, protocol))

/-- The services and the one that is named. The document is a mapping: `load_compose` refuses
anything else. -/
def findService (heap : Heap R Scalar) (data : R) (service : String) : Editing (R × R) :=
  let missing : ComposeFailure :=
    error "COMPOSE_SERVICE_NOT_FOUND" s!"Service '{service}' not found in compose file." []
  match (getItem heap data "services").bind (asDict heap) with
  | none => .error missing
  | some services =>
      match getItem heap services service with
      | none => .error missing
      | some value =>
          match asDict heap value with
          | none => .error (error "CONFIG_PARSE_ERROR" s!"Service '{service}' is not a mapping." [])
          | some serviceMap => pure (services, serviceMap)

/-- The ports of a service: there are none, or a list. -/
inductive Ports (R : Type)
  | missing
  | listed (list : R) (items : List (Item R Scalar))

/-- `service_map.get("ports")`. -/
def portsOf (heap : Heap R Scalar) (service : String) (serviceMap : R) : Editing (Ports R) :=
  match getItem heap serviceMap "ports" with
  | none => pure .missing
  | some (.scalar .none) => pure .missing
  | some (.ref object) =>
      match heap object with
      | .list items => pure (.listed object items)
      | .dict _ => .error notList
  | some (.scalar _) => .error notList
where
  notList : ComposeFailure :=
    error "CONFIG_PARSE_ERROR" s!"Service '{service}'.ports must be a list." []

/-- The loop over the entries: where the binding was found. -/
def matchesOf (binding : Binding) (found : List (Option (ℤ × String))) : List ℕ :=
  (List.range found.length).filter fun index =>
    found[index]? = some (some ((binding.containerPort : ℤ), binding.protocol))

/-- What is to be written. -/
inductive Edit (R : Type)
  | /-- A new list with one entry. -/
    create
  | append (list : R) (items : List (Item R Scalar))
  | rewrite (list : R) (items : List (Item R Scalar)) (index : ℕ) (before : Option String)
      (value : String)
  | publish (entry : R) (before : Option String)

/-- What to do with the one entry that matches. -/
def planUpdate (spelling : Spelling R) (heap : Heap R Scalar) (binding : Binding) (list : R)
    (items : List (Item R Scalar)) (index : ℕ) : Editing (Edit R) :=
  match items[index]? with
  | some (.scalar (.str value)) => do
      let parsed ← parseShortEntry value
      let rewritten ← rewriteShortEntry value binding.newHostPort
      pure (.rewrite list items index (parsed.bind fun entry => entry.host) rewritten)
  | some (.ref object) =>
      match getItem heap object "published" with
      | none => pure (.publish object none)
      | some published => do
          let before ← str spelling heap published
          pure (.publish object (some before))
  -- Only a text or a mapping matches.
  | _ => .error .typeError

/-- The part of `apply_port_mapping` that reads a list of ports. -/
def planList (spelling : Spelling R) (heap : Heap R Scalar) (binding : Binding) (list : R)
    (items : List (Item R Scalar)) : Editing (Edit R) := do
  let found ← items.mapM (entryContainerAndProtocol spelling heap)
  match matchesOf binding found with
  | [] => pure (.append list items)
  | [index] => planUpdate spelling heap binding list items index
  | first :: second :: others =>
      let service := binding.service
      let containerPort := binding.containerPort
      let protocol := binding.protocol
      let count := (first :: second :: others).length
      .error (error "COMPOSE_PORT_AMBIGUOUS"
        (s!"Service '{service}' has {count} existing port mappings for container port " ++
          s!"{containerPort}/{protocol} -- PortForge cannot safely determine which one to update.")
        [[("service", .str service), ("container_port", .int containerPort),
          ("protocol", .str protocol)]])

/-- What to do with the ports of a service. -/
def planPorts (spelling : Spelling R) (heap : Heap R Scalar) (binding : Binding) :
    Ports R → Editing (Edit R)
  | .missing => pure .create
  | .listed list items => planList spelling heap binding list items

/-! ## Writing -/

/-- The text of an entry that is added. -/
def newEntry (binding : Binding) : String :=
  toString binding.newHostPort ++ ":" ++ toString binding.containerPort ++
    if binding.protocol = "tcp" then "" else "/" ++ binding.protocol

variable [DecidableEq R]

/-- Write to the objects. `fresh` is the list that is created if there is none. -/
def Edit.write (binding : Binding) (fresh serviceMap : R) (heap : Heap R Scalar) :
    Edit R → Heap R Scalar
  | create =>
      let heap := Python.assign (Function.update heap fresh (.list [])) serviceMap (.str "ports")
        (.ref fresh)
      Function.update heap fresh (.list [textItem (newEntry binding)])
  | append list items => Function.update heap list (.list (items ++ [textItem (newEntry binding)]))
  | rewrite list items index _ value =>
      Function.update heap list (.list (items.set index (textItem value)))
  | publish entry _ =>
      Python.assign heap entry (.str "published") (.scalar (.str (toString binding.newHostPort)))

/-- What is reported of an edit. -/
def Edit.change (binding : Binding) (edit : Edit R) : ComposeChange :=
  let (before, action) := match edit with
    | create => (none, "add")
    | append _ _ => (none, "add")
    | rewrite _ _ _ before _ => (before, "update")
    | publish _ before => (before, "update")
  { service := binding.service
    containerPort := binding.containerPort
    protocol := binding.protocol
    beforeHost := before
    afterHost := toString binding.newHostPort
    action := action }

/-- What `apply_port_mapping` is going to write, and the service it writes to. -/
def plan (spelling : Spelling R) (heap : Heap R Scalar) (data : R) (binding : Binding) :
    Editing (R × Edit R) := do
  let (_, serviceMap) ← findService heap data binding.service
  let ports ← portsOf heap binding.service serviceMap
  let edit ← planPorts spelling heap binding ports
  pure (serviceMap, edit)

/-- `apply_port_mapping`. The objects are changed in place. -/
def applyPortMapping (spelling : Spelling R) (data fresh : R) (binding : Binding) :
    EStateM ComposeFailure (Heap R Scalar) ComposeChange := do
  let heap ← MonadState.get
  match plan spelling heap data binding with
  | .error failure => throw failure
  | .ok (serviceMap, edit) =>
      set (edit.write binding fresh serviceMap heap)
      pure (edit.change binding)

end Agent.Compose
