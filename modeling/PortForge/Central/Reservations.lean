/-
# Central reservations

One reservation row and its activity event are inserted by `insertReservation`,
which flushes and never commits. `createReservation` looks a binding up, inserts
it where it is free, and commits; it takes no lock.
-/

import PortForge.Central.Repositories

namespace Central

open Transaction

/-- An optional text within its `max_length`. -/
def TextFits (limit : ℕ) (text : Option String) : Prop := ∀ value ∈ text, value.length ≤ limit

instance (limit : ℕ) (text : Option String) : Decidable (TextFits limit text) :=
  inferInstanceAs (Decidable (∀ value ∈ text, _))

/-- `ReservationIn`: a validated request body. -/
structure ReservationIn where
  port : ℕ
  protocol : Protocol
  bindAddress : Option String
  project : String
  service : Option String
  purpose : Option String
  notes : Option String
  localReservationId : Option String
  port_le : port ≤ 65535
  bindAddress_fits : TextFits 64 bindAddress
  project_length : 1 ≤ project.length ∧ project.length ≤ 255
  service_fits : TextFits 255 service
  purpose_fits : TextFits 255 purpose
  notes_fits : TextFits 1024 notes
  localReservationId_fits : TextFits 64 localReservationId

/-- The activity event of a new reservation. -/
def reservationCreated (row : CentralReservation) (id : Uuid) (timestamp : ℤ) : ActivityEvent :=
  let port := row.port
  let protocolText := row.protocol.value
  let project := row.project
  { id := id
    hostId := row.hostId
    timestamp := timestamp
    eventType := .reservationCreated
    port := some row.port
    protocol := some row.protocol
    bindAddress := row.bindAddress
    source := none
    identityContext := some row.project
    reservationId := some row.id
    summary := s!"Port {port}/{protocolText} reserved for project '{project}'"
    metadata := none }

/-- `_insert_reservation`: add the row and flush, then add its event. -/
def insertReservation (hostId : Uuid) (port : ℕ) (protocol : Protocol)
    (bindAddress : Option String) (project : String)
    (service purpose notes localReservationId : Option String) (allocationId : Option Uuid)
    (requestName : Option String) : Service CentralReservation := do
  let id ← newUuid
  let reservation : CentralReservation :=
    { id := id
      hostId := hostId
      port := port
      protocol := protocol
      bindAddress := bindAddress
      project := project
      service := service
      purpose := purpose
      notes := notes
      localReservationId := localReservationId
      allocationId := allocationId
      requestName := requestName }
  add (.insertReservation reservation)
  flush
  let timestamp ← clock
  let eventId ← newUuid
  add (.insertActivity (reservationCreated reservation eventId timestamp))
  pure reservation

/-- `db.refresh(reservation)`. -/
def refreshReservation (reservationId : Uuid) : Service CentralReservation := do
  let row ← select fun db => db.getReservation reservationId
  match row with
  | some reservation => pure reservation
  | none => raise .invalidRequest

/-- The re-sync of an existing binding: allowed to its own local reservation only. -/
def resyncReservation (payload : ReservationIn) (existing : CentralReservation) :
    Service CentralReservation :=
  let port := payload.port
  let protocolText := payload.protocol.value
  if payload.localReservationId.any (fun localId => localId ≠ "") ∧
      existing.localReservationId = payload.localReservationId then do
    add (.updateReservation existing.id payload.project payload.service payload.purpose
      payload.notes)
    commit
    refreshReservation existing.id
  else
    raise (.reservationConflict
      (s!"Port {port}/{protocolText} is already reserved centrally for this host by a different " ++
        "reservation."))

/-- The insertion of a binding that was found free. -/
def storeReservation (hostId : Uuid) (payload : ReservationIn) : Service CentralReservation := do
  let reservation ← insertReservation hostId payload.port payload.protocol payload.bindAddress
    payload.project payload.service payload.purpose payload.notes payload.localReservationId
    none none
  commit
  refreshReservation reservation.id

/-- `create_reservation`. -/
def createReservation (hostId : Uuid) (payload : ReservationIn) : Service CentralReservation := do
  let rows ← select fun db =>
    db.reservationsByBinding hostId payload.port payload.protocol payload.bindAddress
  let existing ← scalarOneOrNone rows
  match existing with
  | some existing => resyncReservation payload existing
  | none => storeReservation hostId payload

theorem observes_refreshReservation (reservationId : Uuid) :
    (refreshReservation reservationId).Observes := by
  refine observes_select.bind fun row => ?_
  cases row <;> trivial

end Central
