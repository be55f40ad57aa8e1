/-
# Local reservations of an agent

`reserve`, `release` and `release_by_id` work on the list of reservations the agent keeps on
its host, under the reservation lock; `sync_now` pushes each of them to the central registry.
A reservation is found by its port and protocol, and keeps its identifier when it is
refreshed, whatever else changes.
-/

import PortForge.Central.Reservations
import PortForge.Python.Text

namespace Agent

open Central Python

/-- `Reservation`. -/
structure Reservation where
  reservationId : String
  hostId : String
  port : ℕ
  protocol : Protocol
  project : String
  service : Option String
  purpose : Option String
  bindAddress : Option String
  notes : Option String
  createdAt : ℤ
  updatedAt : ℤ
  deriving DecidableEq

/-- What `reserve` uses of a discovered port. -/
structure DiscoveredPort where
  hostPort : Option ℕ
  port : ℕ
  protocol : Protocol
  projectName : Option String
  containerName : Option String
  processName : Option String
  deriving DecidableEq

/-- `ReserveOutcome`. -/
inductive ReserveOutcome
  | created
  | updatedSameProject
  | adoptedActiveSameProject
  | refusedOtherProjectReservation
  | refusedActiveOtherOwner
  deriving DecidableEq

/-- `ReserveResult`. -/
structure ReserveResult where
  outcome : ReserveOutcome
  reservation : Option Reservation
  message : String

/-- `ReleaseOutcome`. -/
inductive ReleaseOutcome
  | released
  | alreadyAbsent
  | refusedOtherProject
  deriving DecidableEq

/-- `ReleaseResult`. -/
structure ReleaseResult where
  outcome : ReleaseOutcome
  reservation : Option Reservation
  message : String

/-- The arguments of `reserve`. -/
structure ReserveArguments where
  port : ℕ
  project : String
  protocol : Protocol := .tcp
  service : Option String := none
  purpose : Option String := none
  bindAddress : Option String := none
  notes : Option String := none

/-- An agent: `get_host_id()`, and Unicode's lower case of a text. -/
structure AgentHost where
  hostId : String
  lower : String → String

/-- `_same_project`. -/
def sameProject (A : AgentHost) (a b : Option String) : Bool :=
  match a, b with
  | some a, some b =>
      a ≠ "" && b ≠ "" &&
        A.lower (String.ofList (stripChars a.toList)) =
            A.lower (String.ofList (stripChars b.toList))
  | _, _ => false

/-- The entry is a reservation of the host for the port and protocol. -/
def Reservation.claims (hostId : String) (port : ℕ) (protocol : Protocol)
    (reservation : Reservation) : Bool :=
  reservation.hostId = hostId ∧ reservation.port = port ∧ reservation.protocol = protocol

/-- `_find_exact`. -/
def findExact (reservations : List Reservation) (hostId : String) (port : ℕ) (protocol : Protocol) :
    Option Reservation :=
  reservations.find? (Reservation.claims hostId port protocol)

/-- `find_discovered`. -/
def findDiscovered (discovered : List DiscoveredPort) (port : ℕ) (protocol : Protocol) :
    Option DiscoveredPort :=
  discovered.find? fun found => found.hostPort.getD found.port = port ∧ found.protocol = protocol

/-- The refresh of an existing reservation: what is given replaces what was there. -/
def Reservation.refreshed (existing : Reservation) (args : ReserveArguments) (now : ℤ) :
    Reservation :=
  { existing with
    service := args.service.or existing.service
    purpose := args.purpose.or existing.purpose
    notes := args.notes.or existing.notes
    bindAddress := args.bindAddress.or existing.bindAddress
    updatedAt := now }

/-- The list with the first entry that qualifies changed in place. -/
def changeFirst (qualifies : Reservation → Bool) (change : Reservation → Reservation) :
    List Reservation → List Reservation
  | [] => []
  | reservation :: rest =>
      if qualifies reservation then change reservation :: rest
      else reservation :: changeFirst qualifies change rest

/-- `Reservation.create`, with the identifier and the time it draws. -/
def Reservation.create (A : AgentHost) (args : ReserveArguments) (id : String) (now : ℤ) :
    Reservation where
  reservationId := id
  hostId := A.hostId
  port := args.port
  protocol := args.protocol
  project := args.project
  service := args.service
  purpose := args.purpose
  bindAddress := args.bindAddress
  notes := args.notes
  createdAt := now
  updatedAt := now

/-- The name of who uses a port, for a message. -/
def DiscoveredPort.owner (active : DiscoveredPort) : String :=
  ((given active.projectName).or ((given active.containerName).or (given active.processName))).getD
    "an unrecognized owner"

/-- `reserve` on the reservations that are stored: the result, and what is stored then. -/
def reserve (A : AgentHost) (discovered : List DiscoveredPort) (reservations : List Reservation)
    (args : ReserveArguments) (id : String) (now : ℤ) : ReserveResult × List Reservation :=
  let port := args.port
  let protocolText := args.protocol.value
  let project := args.project
  match findExact reservations A.hostId args.port args.protocol with
  | some existing =>
      if sameProject A (some existing.project) (some args.project) then
        (⟨.updatedSameProject, some (existing.refreshed args now),
            s!"Port {port}/{protocolText} was already reserved by '{project}' -- reservation refreshed."⟩,
          changeFirst (Reservation.claims A.hostId args.port args.protocol)
            (fun reservation => reservation.refreshed args now) reservations)
      else
        let holder := existing.project
        let serviceText := ((given existing.service).map fun service => "/" ++ service).getD ""
        (⟨.refusedOtherProjectReservation, some existing,
            s!"Port {port}/{protocolText} is already reserved by '{holder}'" ++ serviceText ++
              s!", not '{project}'. Refusing to overwrite another project's reservation."⟩,
          reservations)
  | none =>
      match findDiscovered discovered args.port args.protocol with
      | none =>
          (⟨.created, some (.create A args id now),
              s!"Reservation created: {port}/{protocolText} -> '{project}'."⟩,
            reservations ++ [.create A args id now])
      | some active =>
          if sameProject A active.projectName (some args.project) then
            (⟨.adoptedActiveSameProject, some (.create A args id now),
                s!"Port {port}/{protocolText} is actively used by '{project}' -- adopted as a " ++
                  "reservation."⟩,
              reservations ++ [.create A args id now])
          else
            let owner := active.owner
            (⟨.refusedActiveOtherOwner, none,
                s!"Port {port}/{protocolText} is actively in use by {owner}, not confidently " ++
                  s!"'{project}'. Refusing to reserve it out from under an active listener."⟩,
              reservations)

/-- `release`. -/
def release (A : AgentHost) (reservations : List Reservation) (port : ℕ) (project : String)
    (protocol : Protocol) : ReleaseResult × List Reservation :=
  let protocolText := protocol.value
  match findExact reservations A.hostId port protocol with
  | none =>
      (⟨.alreadyAbsent, none,
          s!"No reservation exists for {port}/{protocolText} -- nothing to release."⟩, reservations)
  | some existing =>
      let holder := existing.project
      if sameProject A (some existing.project) (some project) then
        (⟨.released, some existing, s!"Released reservation for {port}/{protocolText} ('{project}')."⟩,
          reservations.filter fun other => other.reservationId ≠ existing.reservationId)
      else
        (⟨.refusedOtherProject, some existing,
            s!"Port {port}/{protocolText} is reserved by '{holder}', not '{project}'. Refusing to " ++
              "release another project's reservation."⟩, reservations)

/-- `release_by_id`. -/
def releaseById (A : AgentHost) (reservations : List Reservation) (reservationId : String)
    (project : Option String) : ReleaseResult × List Reservation :=
  match reservations.find? fun reservation => reservation.reservationId = reservationId with
  | none =>
      (⟨.alreadyAbsent, none,
          s!"No reservation with id {reservationId} -- nothing to release."⟩, reservations)
  | some existing =>
      let holder := existing.project
      let wanted := project.getD ""
      if project.isSome ∧ ¬ sameProject A (some existing.project) project then
        (⟨.refusedOtherProject, some existing,
            s!"Reservation {reservationId} belongs to '{holder}', not '{wanted}'. Refusing " ++
              "to release."⟩, reservations)
      else
        (⟨.released, some existing, s!"Released reservation {reservationId} ('{holder}')."⟩,
          reservations.filter fun other => other.reservationId ≠ reservationId)

/-- The reservations `sync_now` pushes. -/
def syncedReservations (A : AgentHost) (reservations : List Reservation) : List Reservation :=
  reservations.filter fun reservation => reservation.hostId = A.hostId

/-- The body of a push, where the registry accepts it as valid. -/
def Reservation.payload (reservation : Reservation) : Option ReservationIn :=
  if h : reservation.port ≤ 65535 ∧ TextFits 64 reservation.bindAddress ∧
      (1 ≤ reservation.project.length ∧ reservation.project.length ≤ 255) ∧
      TextFits 255 reservation.service ∧ TextFits 255 reservation.purpose ∧
      TextFits 1024 reservation.notes ∧ TextFits 64 (some reservation.reservationId) then
    some
      { port := reservation.port
        protocol := reservation.protocol
        bindAddress := reservation.bindAddress
        project := reservation.project
        service := reservation.service
        purpose := reservation.purpose
        notes := reservation.notes
        localReservationId := some reservation.reservationId
        port_le := h.1
        bindAddress_fits := h.2.1
        project_length := h.2.2.1
        service_fits := h.2.2.2.1
        purpose_fits := h.2.2.2.2.1
        notes_fits := h.2.2.2.2.2.1
        localReservationId_fits := h.2.2.2.2.2.2 }
  else none

end Agent
