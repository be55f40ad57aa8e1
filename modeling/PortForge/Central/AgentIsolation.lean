/-
# An agent keeps to its host

The endpoints an agent calls act for the host its bearer token proves. Whatever requests
arrive, with whatever tokens and in whatever order their steps are taken, the rows of a host
are only changed by requests with the token of one of its credentials.

The writes of an endpoint name rows by identifiers it has read, so an identifier has to stand
for rows of one host: `owner` says which. A draw of the request's session belongs to the host
it serves.
-/

import PortForge.Central.DoubleBooking
import PortForge.Central.ProbeLifecycle
import PortForge.Central.SnapshotRuns
import PortForge.Central.UpgradeLaw
import PortForge.Transaction.Confinement

namespace Central

open Transaction

/-! ## The endpoints -/

/-- The status codes of the endpoints' own checks. -/
inductive AgentRefusal
  | /-- 401: `Missing bearer token.` -/
    missingToken
  | /-- 401: `Invalid or revoked agent credential.` -/
    invalidCredential
  | /-- 403: `host_id does not match the authenticated agent credential.` -/
    foreignHost
  | /-- 404: `Reservation not found.` -/
    reservationNotFound
  deriving DecidableEq

/-- `AgentRepository.get_active_credential_by_token_hash`, its rows. -/
def Db.credentialsByTokenHash (db : Db) (tokenHash : String) : List AgentCredential :=
  db.credentials.filter fun row => row.tokenHash = tokenHash ∧ row.revokedAt = none

/-- `require_agent`: the host of the credential. -/
def requireAgent (env : Environment) (token : Option String) :
    Service (Except AgentRefusal Uuid) :=
  match token with
  | none => pure (.error .missingToken)
  | some rawToken => do
      let rows ← select fun db => db.credentialsByTokenHash (env.hashToken rawToken)
      let credential ← scalarOneOrNone rows
      match credential with
      | none => pure (.error .invalidCredential)
      | some credential => pure (.ok credential.hostId)

/-- The service `delete_reservation`: whether there was such a reservation of the host. -/
def deleteReservation (hostId reservationId : Uuid) : Service Bool := do
  let row ← select fun db => db.getReservation reservationId
  match row with
  | none => pure false
  | some reservation =>
      if reservation.hostId ≠ hostId then pure false
      else do
        add (.deleteReservation reservation.id)
        let timestamp ← clock
        let eventId ← newUuid
        add (.insertActivity (reservationReleased hostId reservation eventId timestamp))
        commit
        pure true

/-- A request to an endpoint that requires an agent's token. -/
inductive AgentRequest
  | heartbeat (hostId : Uuid) (body : HeartbeatIn)
  | probeResult (hostId probeId : Uuid) (available : Option Bool) (reason : Option String)
  | observations (hostId scanId : Uuid) (observedAt : Datetime) (found : List ObservationIn)
  | upgradeStatus (upgradeId : Uuid) (report : UpgradeStatusIn)
  | createReservation (payload : ReservationIn)
  | deleteReservation (reservationId : Uuid)

/-- The `host_id` in the body, where there is one. -/
def AgentRequest.claimedHost : AgentRequest → Option Uuid
  | heartbeat hostId _ => some hostId
  | probeResult hostId _ _ _ => some hostId
  | observations hostId _ _ _ => some hostId
  | _ => none

/-- What the endpoint does for the host the token proves. -/
def AgentRequest.serve (env : Environment) (hostId : Uuid) :
    AgentRequest → Service (Except AgentRefusal Unit)
  | heartbeat _ body => do
      let _ ← heartbeatEndpoint env hostId body
      pure (.ok ())
  | probeResult _ probeId available reason => do
      let _ ← submitResult hostId probeId available reason
      pure (.ok ())
  | .observations _ scanId observedAt found => do
      let _ ← ingestSnapshot env hostId scanId observedAt found
        env.settings.maxObservationsPerSnapshot
      pure (.ok ())
  | upgradeStatus upgradeId report => do
      let _ ← reportUpgradeStatus hostId upgradeId report
      pure (.ok ())
  | createReservation payload => do
      let _ ← Central.createReservation hostId payload
      pure (.ok ())
  | deleteReservation reservationId => do
      let deleted ← Central.deleteReservation hostId reservationId
      pure (if deleted then .ok () else .error .reservationNotFound)

/-- A request with its bearer token. -/
structure AgentCall where
  token : Option String
  request : AgentRequest

/-- The endpoint. -/
def AgentCall.program (env : Environment) (call : AgentCall) :
    Service (Except AgentRefusal Unit) := do
  let agent ← requireAgent env call.token
  match agent with
  | .error refusal => pure (.error refusal)
  | .ok hostId =>
      if call.request.claimedHost.any fun claimed => claimed ≠ hostId then
        pure (.error .foreignHost)
      else call.request.serve env hostId

/-! ## Whose rows they are -/

/-- The host whose rows an identifier stands for, in each of the tables that have rows changed
by their identifiers. -/
structure Owners where
  reservations : Uuid → Uuid
  current : Uuid → Uuid
  probes : Uuid → Uuid
  upgrades : Uuid → Uuid

/-- A new row of the host may have this identifier. -/
def Owners.Gives (owner : Owners) (hostId id : Uuid) : Prop :=
  owner.reservations id = hostId ∧ owner.current id = hostId

/-- An identifier stands for rows of its owner. -/
structure Db.OwnedBy (owner : Owners) (db : Db) : Prop where
  reservations : ∀ row ∈ db.reservations, row.hostId = owner.reservations row.id
  current : ∀ row ∈ db.current, row.hostId = owner.current row.id
  probes : ∀ row ∈ db.probes, row.hostId = owner.probes row.id
  upgrades : ∀ row ∈ db.upgrades, row.hostId = owner.upgrades row.id

/-- The rows of a host, and what belongs to no host. -/
def Db.rowsOf (db : Db) (hostId : Uuid) : Db where
  hosts := db.hosts.filter fun row => row.id = hostId
  allocations := db.allocations.filter fun row => row.hostId = hostId
  reservations := db.reservations.filter fun row => row.hostId = hostId
  current := db.current.filter fun row => row.hostId = hostId
  events := db.events.filter fun row => row.hostId = hostId
  activity := db.activity.filter fun row => row.hostId = hostId
  probes := db.probes.filter fun row => row.hostId = hostId
  scans := db.scans.filter fun row => row.hostId = hostId
  enrollmentTokens := db.enrollmentTokens
  credentials := db.credentials
  upgrades := db.upgrades.filter fun row => row.hostId = hostId

/-- The write is one of an agent's, on rows of its host. -/
def Write.Within (owner : Owners) (hostId : Uuid) : Write → Prop
  | .insertHost row => row.id = hostId
  | .reportHost id _ _ => id = hostId
  | .scanHost id _ => id = hostId
  | .setHostError id _ => id = hostId
  | .insertReservation row => row.hostId = hostId ∧ owner.reservations row.id = hostId
  | .updateReservation id _ _ _ _ => owner.reservations id = hostId
  | .deleteReservation id => owner.reservations id = hostId
  | .insertCurrent row => row.hostId = hostId ∧ owner.current row.id = hostId
  | .updateCurrent row => row.hostId = hostId ∧ owner.current row.id = hostId
  | .deleteCurrent id => owner.current id = hostId
  | .insertEvent row => row.hostId = hostId
  | .insertActivity row => row.hostId = hostId
  | .deliverProbe id _ => owner.probes id = hostId
  | .answerProbe id _ _ _ => owner.probes id = hostId
  | .insertScan row => row.hostId = hostId
  | .updateUpgrade id _ => owner.upgrades id = hostId
  | _ => False

section Rows

variable {α : Type} {rows : List α}

/-- A change of the rows of one identifier is not seen among the rows of another host. -/
theorem rows_fixed {owner : Uuid → Uuid} {host id : α → Uuid} {hostId other changed : Uuid}
    {change : α → α} (h : owner changed = hostId) (hother : other ≠ hostId)
    (hrows : ∀ row ∈ rows, host row = owner (id row))
    (hchange : ∀ row ∈ rows, id row = changed → host (change row) = host row) :
    (rows.map fun row => if id row = changed then change row else row).filter
        (fun row => host row = other) = rows.filter fun row => host row = other := by
  induction rows with
  | nil => rfl
  | cons row rows ih =>
      obtain ⟨hrow, hlater⟩ := List.forall_mem_cons.mp hrows
      obtain ⟨hfirst, hrest⟩ := List.forall_mem_cons.mp hchange
      rw [List.map_cons, List.filter_cons, List.filter_cons, ih hlater hrest]
      by_cases hid : id row = changed
      · have hforeign : host row ≠ other := by
          rw [hrow, hid, h]
          exact hother.symm
        simp [hid, hfirst hid, hforeign]
      · rw [if_neg hid]

/-- Deleting the rows of one identifier is not seen among the rows of another host. -/
theorem rows_kept {owner : Uuid → Uuid} {host id : α → Uuid} {hostId other deleted : Uuid}
    (h : owner deleted = hostId) (hother : other ≠ hostId)
    (hrows : ∀ row ∈ rows, host row = owner (id row)) :
    (rows.filter fun row => id row ≠ deleted).filter (fun row => host row = other) =
      rows.filter fun row => host row = other := by
  rw [List.filter_filter]
  refine List.filter_congr fun row hrow => ?_
  by_cases hid : id row = deleted
  · have hforeign : host row ≠ other := by
      rw [hrows row hrow, hid, h]
      exact hother.symm
    simp [hforeign]
  · simp [hid]

end Rows

section Writes

variable {owner : Owners} {hostId other : Uuid} {write : Write} {db : Db}

theorem ownedBy_apply (h : write.Within owner hostId) (hdb : db.OwnedBy owner) :
    (write.apply db).OwnedBy owner := by
  cases write with
  | insertReservation row =>
      refine ⟨fun other hother => ?_, hdb.current, hdb.probes, hdb.upgrades⟩
      rcases List.mem_append.mp hother with hold | hnew
      · exact hdb.reservations other hold
      · rw [List.mem_singleton.mp hnew]
        exact h.1.trans h.2.symm
  | updateReservation id project service purpose notes =>
      refine ⟨fun row hrow => ?_, hdb.current, hdb.probes, hdb.upgrades⟩
      obtain ⟨old, hold, rfl⟩ := List.mem_map.mp hrow
      split <;> exact hdb.reservations old hold
  | deleteReservation id =>
      exact ⟨fun row hrow => hdb.reservations row (List.mem_filter.mp hrow).1, hdb.current,
        hdb.probes, hdb.upgrades⟩
  | insertCurrent row =>
      refine ⟨hdb.reservations, fun other hother => ?_, hdb.probes, hdb.upgrades⟩
      rcases List.mem_append.mp hother with hold | hnew
      · exact hdb.current other hold
      · rw [List.mem_singleton.mp hnew]
        exact h.1.trans h.2.symm
  | updateCurrent row =>
      refine ⟨hdb.reservations, fun other hother => ?_, hdb.probes, hdb.upgrades⟩
      obtain ⟨old, hold, rfl⟩ := List.mem_map.mp hother
      split
      · exact h.1.trans h.2.symm
      · exact hdb.current old hold
  | deleteCurrent id =>
      exact ⟨hdb.reservations, fun row hrow => hdb.current row (List.mem_filter.mp hrow).1,
        hdb.probes, hdb.upgrades⟩
  | deliverProbe id deliveredAt =>
      refine ⟨hdb.reservations, hdb.current, fun row hrow => ?_, hdb.upgrades⟩
      obtain ⟨old, hold, rfl⟩ := List.mem_map.mp hrow
      split <;> exact hdb.probes old hold
  | answerProbe id completedAt available reason =>
      refine ⟨hdb.reservations, hdb.current, fun row hrow => ?_, hdb.upgrades⟩
      obtain ⟨old, hold, rfl⟩ := List.mem_map.mp hrow
      split <;> exact hdb.probes old hold
  | updateUpgrade id change =>
      refine ⟨hdb.reservations, hdb.current, hdb.probes, fun row hrow => ?_⟩
      obtain ⟨old, hold, rfl⟩ := List.mem_map.mp hrow
      split <;> exact hdb.upgrades old hold
  | insertHost row | reportHost id report now | scanHost id observedAt
  | setHostError id lastError | insertEvent row | insertActivity row | insertScan row =>
      exact ⟨hdb.reservations, hdb.current, hdb.probes, hdb.upgrades⟩
  | _ => exact h.elim

theorem credentials_apply_within (h : write.Within owner hostId) :
    (write.apply db).credentials = db.credentials := by
  cases write <;> first | rfl | exact h.elim

/-- A write on rows of one host leaves those of another alone. -/
theorem rowsOf_apply (h : write.Within owner hostId) (hdb : db.OwnedBy owner)
    (hother : other ≠ hostId) : (write.apply db).rowsOf other = db.rowsOf other := by
  have hne : hostId ≠ other := hother.symm
  cases write with
  | insertHost row => simp [Write.apply, Db.rowsOf, show row.id = hostId from h, hne]
  | insertEvent row | insertActivity row | insertScan row =>
      simp [Write.apply, Db.rowsOf, show row.hostId = hostId from h, hne]
  | insertReservation row | insertCurrent row => simp [Write.apply, Db.rowsOf, h.1, hne]
  | reportHost id report now =>
      refine congrArg (fun rows => { db.rowsOf other with hosts := rows }) ?_
      exact @rows_fixed _ _ (fun id => id) _ _ _ _ _ _ h hother (fun _ _ => rfl) fun _ _ _ => rfl
  | scanHost id observedAt =>
      refine congrArg (fun rows => { db.rowsOf other with hosts := rows }) ?_
      exact @rows_fixed _ _ (fun id => id) _ _ _ _ _ _ h hother (fun _ _ => rfl) fun _ _ _ => rfl
  | setHostError id lastError =>
      refine congrArg (fun rows => { db.rowsOf other with hosts := rows }) ?_
      exact @rows_fixed _ _ (fun id => id) _ _ _ _ _ _ h hother (fun _ _ => rfl) fun _ _ _ => rfl
  | updateReservation id project service purpose notes =>
      refine congrArg (fun rows => { db.rowsOf other with reservations := rows }) ?_
      exact rows_fixed h hother hdb.reservations fun _ _ _ => rfl
  | deleteReservation id =>
      refine congrArg (fun rows => { db.rowsOf other with reservations := rows }) ?_
      exact rows_kept h hother hdb.reservations
  | updateCurrent row =>
      refine congrArg (fun rows => { db.rowsOf other with current := rows }) ?_
      refine rows_fixed h.2 hother hdb.current fun old hold hid => ?_
      rw [h.1, hdb.current old hold, hid, h.2]
  | deleteCurrent id =>
      refine congrArg (fun rows => { db.rowsOf other with current := rows }) ?_
      exact rows_kept h hother hdb.current
  | deliverProbe id deliveredAt =>
      refine congrArg (fun rows => { db.rowsOf other with probes := rows }) ?_
      exact rows_fixed h hother hdb.probes fun _ _ _ => rfl
  | answerProbe id completedAt available reason =>
      refine congrArg (fun rows => { db.rowsOf other with probes := rows }) ?_
      exact rows_fixed h hother hdb.probes fun _ _ _ => rfl
  | updateUpgrade id change =>
      refine congrArg (fun rows => { db.rowsOf other with upgrades := rows }) ?_
      exact rows_fixed h hother hdb.upgrades fun _ _ _ => rfl
  | _ => exact h.elim

end Writes

/-! ## The endpoints write on their host -/

section Endpoints

variable {α : Type} {owner : Owners} {hostId : Uuid} {sees : Db → Prop}

/-- As long as the contents are in order and the draws are the host's, the writes are on rows
of the host. -/
def KeepsToHost (sees : Db → Prop) (owner : Owners) (hostId : Uuid) (p : Service α) : Prop :=
  p.Confined sees (fun drawn => owner.Gives hostId drawn.uuid) (Write.Within owner hostId)
    fun _ => True

theorem KeepsToHost.bind {β : Type} {p : Service α} {f : α → Service β}
    (hp : KeepsToHost sees owner hostId p) (hf : ∀ value, KeepsToHost sees owner hostId (f value)) :
    KeepsToHost sees owner hostId (p >>= f) :=
  Program.Confined.bind hp fun value _ => hf value

theorem KeepsToHost.of_observes {p : Service α} (h : p.Observes) :
    KeepsToHost sees owner hostId p := h.confined

theorem keepsToHost_commit : KeepsToHost sees owner hostId commit :=
  Program.Adds.confined adds_commit

theorem keepsToHost_flush : KeepsToHost sees owner hostId flush :=
  Program.Adds.confined adds_flush

theorem keepsToHost_add {write : Write} (h : write.Within owner hostId) :
    KeepsToHost sees owner hostId (add write) := ⟨h, trivial⟩

/-- A query, with what its answer has of contents in order. -/
theorem KeepsToHost.select_bind {β : Type} {q : Db → α} {f : α → Service β} (known : α → Prop)
    (hq : ∀ db, sees db → known (q db))
    (hf : ∀ value, known value → KeepsToHost sees owner hostId (f value)) :
    KeepsToHost sees owner hostId (select q >>= f) :=
  fun db hdb => hf (q db) (hq db hdb)

/-- A fresh identifier is the host's. -/
theorem KeepsToHost.newUuid_bind {β : Type} {f : Uuid → Service β}
    (hf : ∀ id, owner.Gives hostId id → KeepsToHost sees owner hostId (f id)) :
    KeepsToHost sees owner hostId (newUuid >>= f) :=
  fun drawn hdrawn => hf drawn.uuid hdrawn

/-- What is known of all rows is known of the one they are. -/
theorem confined_scalarOneOrNone {own : Draw → Prop} {P : Write → Prop} {known : α → Prop}
    {rows : List α} (h : ∀ row ∈ rows, known row) :
    (scalarOneOrNone rows).Confined sees own P fun existing => ∀ row ∈ existing, known row := by
  rcases rows with _ | ⟨row, _ | ⟨other, rows⟩⟩
  · intro row hrow
    cases hrow
  · intro found hfound
    cases hfound
    exact h row List.mem_cons_self
  · trivial

theorem keepsToHost_surfaceOutcome (newState : UpgradeState) (failureReason : Option String) :
    KeepsToHost sees owner hostId (surfaceOutcome hostId newState failureReason) := by
  rw [surfaceOutcome]
  split
  · refine KeepsToHost.bind (.of_observes observes_select) fun host => ?_
    cases host with
    | none => trivial
    | some host => exact keepsToHost_add rfl
  · trivial

theorem keepsToHost_appear (env : Environment) {ingest : Ingest} (h : ingest.hostId = hostId)
    (obs : ObservationIn) : KeepsToHost sees owner hostId (appear env ingest obs) := by
  rw [appear]
  refine KeepsToHost.newUuid_bind fun id hid => ?_
  refine KeepsToHost.bind (keepsToHost_add ⟨h, hid.2⟩) fun _ => ?_
  refine KeepsToHost.newUuid_bind fun eventId _ => ?_
  refine KeepsToHost.bind (keepsToHost_add h) fun _ => ?_
  split
  · trivial
  · exact KeepsToHost.newUuid_bind fun activityId _ => keepsToHost_add h

theorem keepsToHost_refreshCurrent (env : Environment) {ingest : Ingest}
    (h : ingest.hostId = hostId) {existing : CurrentPortObservation}
    (hhost : existing.hostId = hostId) (hid : owner.current existing.id = hostId)
    (obs : ObservationIn) :
    KeepsToHost sees owner hostId (refreshCurrent env ingest existing obs) := by
  rw [refreshCurrent]
  split
  · exact KeepsToHost.newUuid_bind fun eventId _ => ⟨h, ⟨hhost, hid⟩, trivial⟩
  · exact ⟨⟨hhost, hid⟩, trivial⟩

theorem keepsToHost_recordObservations (env : Environment) {ingest : Ingest}
    (h : ingest.hostId = hostId) {rows : List CurrentPortObservation}
    (hrows : ∀ row ∈ rows, row.hostId = hostId ∧ owner.current row.id = hostId)
    (observations : List ObservationIn) :
    KeepsToHost sees owner hostId (recordObservations env ingest rows observations) := by
  induction observations with
  | nil => trivial
  | cons obs observations ih =>
      rw [recordObservations]
      refine KeepsToHost.bind ?_ fun counts => ih.bind fun later => trivial
      rw [recordObservation]
      cases hfound : rows.find? fun row => row.key = obs.key with
      | none => exact (keepsToHost_appear env h obs).bind fun _ => trivial
      | some existing =>
          obtain ⟨hhost, hid⟩ := hrows existing (List.mem_of_find?_eq_some hfound)
          exact (keepsToHost_refreshCurrent env h hhost hid obs).bind fun _ => trivial

theorem keepsToHost_recordDisappearances {ingest : Ingest} (h : ingest.hostId = hostId)
    (incoming : List BindingKey) {rows : List CurrentPortObservation}
    (hrows : ∀ row ∈ rows, owner.current row.id = hostId) :
    KeepsToHost sees owner hostId (recordDisappearances ingest incoming rows) := by
  induction rows with
  | nil => trivial
  | cons row rows ih =>
      obtain ⟨hrow, hlater⟩ := List.forall_mem_cons.mp hrows
      rw [recordDisappearances]
      split
      · exact ih hlater
      · refine KeepsToHost.newUuid_bind fun eventId _ => ?_
        refine KeepsToHost.bind (keepsToHost_add h) fun _ => ?_
        refine KeepsToHost.newUuid_bind fun activityId _ => ?_
        refine KeepsToHost.bind (keepsToHost_add h) fun _ => ?_
        refine KeepsToHost.bind (keepsToHost_add hrow) fun _ => ?_
        exact (ih hlater).bind fun _ => trivial

theorem keepsToHost_recordHeartbeat (env : Environment) (heartbeat : HeartbeatIn) :
    KeepsToHost sees owner hostId (recordHeartbeat env hostId heartbeat) := by
  refine KeepsToHost.bind (.of_observes observes_select) fun existing => ?_
  refine of_whenReadable (KeepsToHost sees owner hostId) (fun _ => ?_) trivial
  refine KeepsToHost.bind (.of_observes (observes_wasOffline env _ existing)) fun offline => ?_
  refine KeepsToHost.bind (Program.Adds.confined (adds_upsertHost rfl rfl)) fun _ => ?_
  refine KeepsToHost.bind ?_ fun _ => keepsToHost_commit.bind fun _ =>
    KeepsToHost.bind (.of_observes (observes_refreshHost hostId)) fun host =>
      of_whenReadable (KeepsToHost sees owner hostId) (fun _ => trivial) trivial
  rw [announceOnline]
  split
  · exact KeepsToHost.newUuid_bind fun id _ => keepsToHost_add rfl
  · trivial

variable (hsees : ∀ db, sees db → db.OwnedBy owner)

include hsees

theorem keepsToHost_claimPendingProbes (env : Environment) :
    KeepsToHost sees owner hostId (claimPendingProbes env hostId) := by
  have hdeliver : ∀ (now : ℤ) (probes : List HostProbe),
      (∀ probe ∈ probes, owner.probes probe.id = hostId) →
        KeepsToHost sees owner hostId (deliverProbes now probes) := by
    intro now probes hprobes
    induction probes with
    | nil => trivial
    | cons probe probes ih =>
        obtain ⟨hprobe, hlater⟩ := List.forall_mem_cons.mp hprobes
        exact KeepsToHost.bind (keepsToHost_add hprobe) fun _ => ih hlater
  refine KeepsToHost.bind (.of_observes observes_clock) fun now => ?_
  refine KeepsToHost.select_bind (fun probes => ∀ probe ∈ probes, owner.probes probe.id = hostId)
    (fun db hdb probe hprobe => ?_) fun pending hpending => ?_
  · have hlisted := (List.perm_insertionSort _ _).mem_iff.mp (List.mem_of_mem_take hprobe)
    obtain ⟨hmem, hselected⟩ := List.mem_filter.mp hlisted
    rw [← (hsees db hdb).probes probe hmem]
    exact (of_decide_eq_true hselected).1
  · refine (hdeliver now pending hpending).bind fun _ => ?_
    split
    · trivial
    · exact keepsToHost_commit.bind fun _ => trivial

theorem keepsToHost_heartbeatEndpoint (env : Environment) (heartbeat : HeartbeatIn) :
    KeepsToHost sees owner hostId (heartbeatEndpoint env hostId heartbeat) := by
  refine (keepsToHost_recordHeartbeat env heartbeat).bind fun host => ?_
  refine (keepsToHost_claimPendingProbes hsees env).bind fun delivered => ?_
  exact KeepsToHost.bind (.of_observes observes_select) fun pending => trivial

theorem keepsToHost_submitResult (probeId : Uuid) (available : Option Bool)
    (reason : Option String) :
    KeepsToHost sees owner hostId (submitResult hostId probeId available reason) := by
  refine KeepsToHost.select_bind
    (fun row => ∀ probe ∈ row, probe.hostId = owner.probes probe.id)
    (fun db hdb probe hprobe => (hsees db hdb).probes probe (List.mem_of_find?_eq_some hprobe))
    fun row hrow => ?_
  cases row with
  | none => trivial
  | some probe =>
      simp only [submitFor]
      split_ifs with hhost
      · trivial
      · trivial
      · have hid : owner.probes probe.id = hostId := by
          rw [← hrow probe rfl]
          exact not_not.mp hhost
        refine KeepsToHost.bind (.of_observes observes_clock) fun now => ?_
        refine KeepsToHost.bind (keepsToHost_add hid) fun _ => ?_
        exact keepsToHost_commit.bind fun _ => .of_observes (observes_refreshProbe probe.id)

theorem keepsToHost_stageSnapshot (env : Environment) {ingest : Ingest}
    (h : ingest.hostId = hostId) (observations canonical : List ObservationIn) :
    KeepsToHost sees owner hostId (stageSnapshot env ingest observations canonical) := by
  refine KeepsToHost.select_bind
    (fun rows => ∀ row ∈ rows, row.hostId = hostId ∧ owner.current row.id = hostId)
    (fun db hdb row hrow => ?_) fun rows hrows => ?_
  · obtain ⟨hmem, hselected⟩ := List.mem_filter.mp hrow
    have hhost : row.hostId = hostId := (of_decide_eq_true hselected).trans h
    exact ⟨hhost, by rw [← (hsees db hdb).current row hmem, hhost]⟩
  · refine of_whenReadable (KeepsToHost sees owner hostId) (fun _ => ?_) trivial
    refine (keepsToHost_recordObservations env h hrows canonical).bind fun counts => ?_
    refine (keepsToHost_recordDisappearances h _ fun row hrow =>
      (hrows row hrow).2).bind fun disappeared => ?_
    refine KeepsToHost.bind (.of_observes observes_clock) fun receivedAt => ?_
    exact ⟨h, h, trivial⟩

theorem keepsToHost_ingestSnapshot (env : Environment) (scanId : Uuid) (observedAt : Datetime)
    (observations : List ObservationIn) (maxBatchSize : ℕ) :
    KeepsToHost sees owner hostId
      (ingestSnapshot env hostId scanId observedAt observations maxBatchSize) := by
  rw [ingestSnapshot]
  split
  · trivial
  refine KeepsToHost.bind trivial fun _ => ?_
  rw [ingestLocked]
  refine KeepsToHost.bind (.of_observes observes_select) fun existing => ?_
  cases existing with
  | some scan => exact of_whenReadable (KeepsToHost sees owner hostId) (fun _ => trivial) trivial
  | none =>
      refine KeepsToHost.bind (.of_observes observes_select) fun host => ?_
      cases host with
      | none => trivial
      | some host =>
          refine of_whenReadable (KeepsToHost sees owner hostId) (fun _ => ?_) trivial
          simp only [ingestFor]
          split
          · trivial
          split
          · trivial
          · next canonical _ =>
              refine KeepsToHost.bind (keepsToHost_stageSnapshot hsees env (by rfl) _ _) ?_
              exact fun result => keepsToHost_commit.bind fun _ => trivial

theorem keepsToHost_reportUpgradeStatus (upgradeId : Uuid) (report : UpgradeStatusIn) :
    KeepsToHost sees owner hostId (reportUpgradeStatus hostId upgradeId report) := by
  refine KeepsToHost.bind ?_ fun upgrade => keepsToHost_commit.bind fun _ =>
    .of_observes (observes_refreshUpgrade upgrade.id)
  refine KeepsToHost.select_bind
    (fun row => ∀ upgrade ∈ row, upgrade.hostId = owner.upgrades upgrade.id)
    (fun db hdb upgrade hrow => (hsees db hdb).upgrades upgrade (List.mem_of_find?_eq_some hrow))
    fun row hrow => ?_
  cases row with
  | none => trivial
  | some upgrade =>
      cases hstate : reportedState hostId upgrade report with
      | error error =>
          simp only [hstate]
          trivial
      | ok newState =>
          simp only [hstate]
          have hid : owner.upgrades upgrade.id = hostId := by
            rw [← hrow upgrade rfl]
            unfold reportedState at hstate
            split at hstate
            · cases hstate
            · next hhost => exact not_not.mp hhost
          refine KeepsToHost.bind (.of_observes observes_clock) fun now => ?_
          refine KeepsToHost.bind (keepsToHost_add hid) fun _ => ?_
          refine (keepsToHost_surfaceOutcome newState report.failureReason).bind fun _ => ?_
          exact keepsToHost_flush.bind fun _ => trivial

theorem keepsToHost_createReservation (payload : ReservationIn) :
    KeepsToHost sees owner hostId (createReservation hostId payload) := by
  refine KeepsToHost.select_bind
    (fun rows => ∀ row ∈ rows, owner.reservations row.id = hostId)
    (fun db hdb row hrow => ?_) fun rows hrows => ?_
  · obtain ⟨hmem, hselected⟩ := List.mem_filter.mp hrow
    rw [← (hsees db hdb).reservations row hmem]
    exact (of_decide_eq_true hselected).1
  refine Program.Confined.bind (confined_scalarOneOrNone hrows) fun existing hexisting => ?_
  cases existing with
  | some existing =>
      simp only [resyncReservation]
      split
      · refine KeepsToHost.bind (keepsToHost_add (hexisting existing rfl)) fun _ => ?_
        refine keepsToHost_commit.bind fun _ => .of_observes ?_
        exact observes_refreshReservation existing.id
      · trivial
  | none =>
      refine KeepsToHost.bind ?_ fun row => keepsToHost_commit.bind fun _ =>
        .of_observes (observes_refreshReservation row.id)
      refine KeepsToHost.newUuid_bind fun id hid => ?_
      refine KeepsToHost.bind (keepsToHost_add ⟨rfl, hid.1⟩) fun _ => ?_
      refine keepsToHost_flush.bind fun _ => ?_
      refine KeepsToHost.bind (.of_observes observes_clock) fun timestamp => ?_
      refine KeepsToHost.newUuid_bind fun eventId _ => ?_
      exact KeepsToHost.bind (keepsToHost_add rfl) fun _ => trivial

theorem keepsToHost_deleteReservation (reservationId : Uuid) :
    KeepsToHost sees owner hostId (deleteReservation hostId reservationId) := by
  refine KeepsToHost.select_bind
    (fun row => ∀ reservation ∈ row, reservation.hostId = owner.reservations reservation.id)
    (fun db hdb row hrow => (hsees db hdb).reservations row (List.mem_of_find?_eq_some hrow))
    fun row hrow => ?_
  cases row with
  | none => trivial
  | some reservation =>
      simp only
      split_ifs with hhost
      · trivial
      · have hid : owner.reservations reservation.id = hostId := by
          rw [← hrow reservation rfl]
          exact not_not.mp hhost
        refine KeepsToHost.bind (keepsToHost_add hid) fun _ => ?_
        refine KeepsToHost.bind (.of_observes observes_clock) fun timestamp => ?_
        refine KeepsToHost.newUuid_bind fun eventId _ => ?_
        refine KeepsToHost.bind (keepsToHost_add rfl) fun _ => ?_
        exact keepsToHost_commit.bind fun _ => trivial

theorem keepsToHost_serve (env : Environment) (request : AgentRequest) :
    KeepsToHost sees owner hostId (request.serve env hostId) := by
  cases request with
  | heartbeat claimed body =>
      exact (keepsToHost_heartbeatEndpoint hsees env body).bind fun _ => trivial
  | probeResult claimed probeId available reason =>
      exact (keepsToHost_submitResult hsees probeId available reason).bind fun _ => trivial
  | observations claimed scanId observedAt found =>
      exact (keepsToHost_ingestSnapshot hsees env scanId observedAt found _).bind fun _ => trivial
  | upgradeStatus upgradeId report =>
      exact (keepsToHost_reportUpgradeStatus hsees upgradeId report).bind fun _ => trivial
  | createReservation payload =>
      exact (keepsToHost_createReservation hsees payload).bind fun _ => trivial
  | deleteReservation reservationId =>
      exact (keepsToHost_deleteReservation hsees reservationId).bind fun _ => trivial

end Endpoints

/-! ## Any number of requests -/

/-- The token is that of a live credential of the host. -/
def Db.Authenticates (db : Db) (env : Environment) (token : Option String) (hostId : Uuid) : Prop :=
  ∃ rawToken credential, token = some rawToken ∧
    db.credentialsByTokenHash (env.hashToken rawToken) = [credential] ∧ credential.hostId = hostId

theorem Db.Authenticates.unique {db : Db} {env : Environment} {token : Option String}
    {hostId other : Uuid} (h : db.Authenticates env token hostId)
    (h' : db.Authenticates env token other) : hostId = other := by
  obtain ⟨rawToken, credential, rfl, hrows, rfl⟩ := h
  obtain ⟨_, credential', htoken, hrows', rfl⟩ := h'
  cases htoken
  rw [hrows] at hrows'
  rw [(List.cons.inj hrows').1]

/-- Primary keys. -/
structure Db.Keyed (db : Db) : Prop where
  reservations : (db.reservations.map CentralReservation.id).Nodup
  current : (db.current.map CurrentPortObservation.id).Nodup
  probes : (db.probes.map HostProbe.id).Nodup
  upgrades : (db.upgrades.map HostUpgrade.id).Nodup

open Classical in
/-- The host of the row with this identifier, or another one where there is none. -/
noncomputable def hostOfKey {α : Type} (rows : List α) (id host : α → Uuid) (key other : Uuid) :
    Uuid :=
  if h : ∃ row ∈ rows, id row = key then host h.choose else other

theorem hostOfKey_of_mem {α : Type} {rows : List α} {id host : α → Uuid} {other : Uuid}
    (hkeys : (rows.map id).Nodup) {row : α} (hrow : row ∈ rows) :
    host row = hostOfKey rows id host (id row) other := by
  have h : ∃ found ∈ rows, id found = id row := ⟨row, hrow, rfl⟩
  rw [hostOfKey, dif_pos h]
  rw [List.inj_on_of_nodup_map hkeys h.choose_spec.1 hrow h.choose_spec.2]

theorem hostOfKey_of_fresh {α : Type} {rows : List α} {id host : α → Uuid} {key other : Uuid}
    (h : key ∉ rows.map id) : hostOfKey rows id host key other = other := by
  rw [hostOfKey, dif_neg]
  rintro ⟨row, hrow, rfl⟩
  exact h (List.mem_map_of_mem hrow)

section Isolation

variable {ι : Type} {env : Environment} {calls : ι → AgentCall} {draws : ι → ℕ → Draw} {db : Db}

/-- `uuid4` does not collide: what a request draws is no identifier on file and none that
another request draws. -/
structure DrawsFresh (db : Db) (draws : ι → ℕ → Draw) : Prop where
  distinct : ∀ i n j m, (draws i n).uuid = (draws j m).uuid → i = j
  reservations : ∀ i n, (draws i n).uuid ∉ db.reservations.map CentralReservation.id
  current : ∀ i n, (draws i n).uuid ∉ db.current.map CurrentPortObservation.id

open Classical in
/-- The host that the request which draws an identifier acts for. -/
noncomputable def drawnFor (db : Db) (env : Environment) (calls : ι → AgentCall)
    (draws : ι → ℕ → Draw) (key : Uuid) : Uuid :=
  if h : ∃ hostId i n, (draws i n).uuid = key ∧ db.Authenticates env (calls i).token hostId then
    h.choose
  else key

theorem drawnFor_eq (hfresh : DrawsFresh db draws) {i : ι} {hostId : Uuid}
    (h : db.Authenticates env (calls i).token hostId) (n : ℕ) :
    drawnFor db env calls draws (draws i n).uuid = hostId := by
  have hdrawn : ∃ other j m, (draws j m).uuid = (draws i n).uuid ∧
      db.Authenticates env (calls j).token other := ⟨hostId, i, n, rfl, h⟩
  rw [drawnFor, dif_pos hdrawn]
  obtain ⟨j, m, hsame, hother⟩ := hdrawn.choose_spec
  obtain rfl := hfresh.distinct j m i n hsame
  exact hother.unique h

/-- The owners of the identifiers on file and of those to be drawn. -/
noncomputable def ownersOf (db : Db) (env : Environment) (calls : ι → AgentCall)
    (draws : ι → ℕ → Draw) : Owners where
  reservations key := hostOfKey db.reservations CentralReservation.id CentralReservation.hostId key
    (drawnFor db env calls draws key)
  current key := hostOfKey db.current CurrentPortObservation.id CurrentPortObservation.hostId key
    (drawnFor db env calls draws key)
  probes key := hostOfKey db.probes HostProbe.id HostProbe.hostId key key
  upgrades key := hostOfKey db.upgrades HostUpgrade.id HostUpgrade.hostId key key

theorem ownedBy_ownersOf (h : db.Keyed) : db.OwnedBy (ownersOf db env calls draws) where
  reservations _ hrow := hostOfKey_of_mem h.reservations hrow
  current _ hrow := hostOfKey_of_mem h.current hrow
  probes _ hrow := hostOfKey_of_mem h.probes hrow
  upgrades _ hrow := hostOfKey_of_mem h.upgrades hrow

/-- The contents are in order: rows have their owners, and the credentials are the same. -/
def Orderly (owner : Owners) (db later : Db) : Prop :=
  later.OwnedBy owner ∧ later.credentials = db.credentials

/-- The write is on rows of the host the token proves. -/
def WritesFor (owner : Owners) (db : Db) (env : Environment) (call : AgentCall)
    (write : Write) : Prop :=
  ∃ hostId, db.Authenticates env call.token hostId ∧ write.Within owner hostId

theorem confined_requireAgent {owner : Owners} {own : Draw → Prop} {P : Write → Prop}
    (token : Option String) :
    (requireAgent env token).Confined (Orderly owner db) own P fun agent =>
      ∀ hostId, agent = .ok hostId → db.Authenticates env token hostId := by
  cases token with
  | none =>
      intro hostId hagent
      cases hagent
  | some rawToken =>
      have hselect : (select fun later => later.credentialsByTokenHash
          (env.hashToken rawToken)).Confined (Orderly owner db) own P fun rows =>
            rows = db.credentialsByTokenHash (env.hashToken rawToken) := by
        rintro later ⟨-, hcredentials⟩
        exact congrArg (List.filter _) hcredentials
      refine Program.Confined.bind hselect ?_
      rintro rows rfl
      cases hfound : db.credentialsByTokenHash (env.hashToken rawToken) with
      | nil =>
          intro hostId hagent
          cases hagent
      | cons credential rest =>
          cases rest with
          | nil =>
              intro hostId hagent
              exact ⟨rawToken, credential, rfl, hfound, Except.ok.inj hagent⟩
          | cons second others => trivial

/-- An endpoint writes on the rows of the host its token proves. -/
theorem confined_program {owner : Owners} {own : Draw → Prop} (call : AgentCall)
    (hown : ∀ drawn, own drawn → ∀ hostId, db.Authenticates env call.token hostId →
      owner.Gives hostId drawn.uuid) :
    (call.program env).Confined (Orderly owner db) own (WritesFor owner db env call)
      fun _ => True := by
  refine Program.Confined.bind (confined_requireAgent call.token) fun agent hagent => ?_
  cases agent with
  | error refusal => trivial
  | ok hostId =>
      have hproved := hagent hostId rfl
      simp only
      split
      · trivial
      · exact Program.Confined.weaken
          (keepsToHost_serve (fun _ h => h) env call.request)
          (fun later hlater => hlater.1) (fun drawn hdrawn => hown drawn hdrawn hostId hproved)
          fun write hwrite => ⟨hostId, hproved, hwrite⟩

variable [DecidableEq ι]

/-- Whatever requests arrive and in whatever order their steps are taken, the rows of a host
stay as they are unless a request has the token of one of its credentials. -/
theorem rows_isolated (hkeys : db.Keyed) (hfresh : DrawsFresh db draws)
    {σ : System ι Db Write ℤ Draw Failure (Except AgentRefusal Unit)}
    (hreach : System.Reachable store System.anyOrder
      (System.start db (fun i => (calls i).program env) draws) σ)
    {hostId : Uuid} (hforeign : ∀ i, ¬ db.Authenticates env (calls i).token hostId) :
    σ.db.rowsOf hostId = db.rowsOf hostId := by
  have hstart : (System.start db (fun i => (calls i).program env) draws).Confined
      (Orderly (ownersOf db env calls draws) db)
      (fun i drawn => ∃ n, drawn = draws i n)
      (fun i => WritesFor (ownersOf db env calls draws) db env (calls i)) := by
    refine System.confined_start ⟨ownedBy_ownersOf hkeys, rfl⟩ (fun i => ?_) fun i n => ⟨n, rfl⟩
    refine confined_program (calls i) ?_
    rintro drawn ⟨n, rfl⟩ host hhost
    refine ⟨?_, ?_⟩
    · exact (hostOfKey_of_fresh (hfresh.reservations i n)).trans (drawnFor_eq hfresh hhost n)
    · exact (hostOfKey_of_fresh (hfresh.current i n)).trans (drawnFor_eq hfresh hhost n)
  have hkeep : ∀ (i : ι) (write : Write) (later : Db),
      WritesFor (ownersOf db env calls draws) db env (calls i) write →
        Orderly (ownersOf db env calls draws) db later →
        Orderly (ownersOf db env calls draws) db (store.apply write later) := by
    rintro i write later ⟨host, -, hwrite⟩ ⟨howned, hcredentials⟩
    exact ⟨ownedBy_apply hwrite howned, (credentials_apply_within hwrite).trans hcredentials⟩
  have hmotive : ∀ (i : ι) (write : Write) (later : Db),
      WritesFor (ownersOf db env calls draws) db env (calls i) write →
        Orderly (ownersOf db env calls draws) db later ∧ later.rowsOf hostId = db.rowsOf hostId →
        Orderly (ownersOf db env calls draws) db (store.apply write later) ∧
          (store.apply write later).rowsOf hostId = db.rowsOf hostId := by
    rintro i write later ⟨host, hproved, hwrite⟩ ⟨horder, hrows⟩
    refine ⟨hkeep i write later ⟨host, hproved, hwrite⟩ horder, ?_⟩
    refine (rowsOf_apply hwrite horder.1 ?_).trans hrows
    rintro rfl
    exact hforeign i hproved
  exact (hstart.db_invariant hreach hkeep ⟨⟨ownedBy_ownersOf hkeys, rfl⟩, rfl⟩ hmotive).2.2

end Isolation

/-- Two hosts with an agent each, and a reservation of the second. -/
def guardedDb : Db :=
  { sampleDb with
    hosts := [sampleHost, { sampleHost with id := ⟨2⟩ }]
    reservations :=
      [{ id := ⟨88⟩, hostId := ⟨2⟩, port := 8000, protocol := .tcp, bindAddress := none,
         project := "shop", service := none, purpose := none, notes := none,
         localReservationId := none, allocationId := none, requestName := none }]
    credentials :=
      [{ id := ⟨80⟩, hostId := sampleHost.id, tokenHash := "web", createdAt := 0,
         revokedAt := none },
        { id := ⟨84⟩, hostId := ⟨2⟩, tokenHash := "db", createdAt := 0, revokedAt := none }] }

/-- The first host's agent reserves a port, and asks for the other's reservation to be
deleted. -/
def trespass (i : Bool) : AgentCall where
  token := some "web"
  request := if i then .deleteReservation ⟨88⟩ else .createReservation sampleReservation

def trespassDraws (i : Bool) (n : ℕ) : Draw :=
  ⟨0, ⟨BitVec.ofNat 128 (if i then 4 * n + 1 else 4 * n + 2)⟩, 0⟩

theorem trespassDraws_fresh : DrawsFresh guardedDb trespassDraws := by
  have hbits : ∀ i n, ((trespassDraws i n).uuid.bits.toNat) % 4 = if i then 1 else 2 := by
    intro i n
    cases i <;> simp [trespassDraws, BitVec.toNat_ofNat]
  refine ⟨fun i n j m hsame => ?_, fun i n hmem => ?_, fun i n => by simp [guardedDb, sampleDb]⟩
  · have hmod := hbits i n
    rw [hsame, hbits j m] at hmod
    cases i <;> cases j <;> first | rfl | (simp at hmod)
  · have hmod := hbits i n
    obtain hid : (trespassDraws i n).uuid = ⟨88⟩ := by simpa [guardedDb] using hmem
    rw [hid] at hmod
    cases i <;> simp at hmod

theorem trespass_isolated :
    ∃ σ, System.play store (List.replicate 20 false ++ List.replicate 10 true)
        (System.start guardedDb (fun i => (trespass i).program sampleEnvironment) trespassDraws) =
          some σ ∧
      σ.program true = .ret (.error .reservationNotFound) ∧ σ.db.reservations.length = 2 ∧
      σ.db.rowsOf ⟨2⟩ = guardedDb.rowsOf ⟨2⟩ := by
  obtain ⟨σ, hplay, hanswered, hreserved⟩ : ∃ σ,
      System.play store (List.replicate 20 false ++ List.replicate 10 true)
        (System.start guardedDb (fun i => (trespass i).program sampleEnvironment) trespassDraws) =
          some σ ∧
      σ.program true = .ret (.error .reservationNotFound) ∧ σ.db.reservations.length = 2 :=
    ⟨_, rfl, rfl, rfl⟩
  refine ⟨σ, hplay, hanswered, hreserved, rows_isolated ⟨?_, ?_, ?_, ?_⟩ trespassDraws_fresh
    (.of_play .start hplay) fun i => ?_⟩
  · decide
  · decide
  · decide
  · decide
  · rintro ⟨rawToken, credential, htoken, hrows, hhost⟩
    cases htoken
    obtain rfl := (List.cons.inj hrows).1
    exact absurd hhost (by decide)

end Central
