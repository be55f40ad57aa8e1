/-
# Services of the central registry

What the service functions share: the settings, the exceptions they raise, and
the session operations they use, as programs over the central database.
-/

import PortForge.Central.Schema
import PortForge.Transaction.Drift

namespace Central

open Transaction

/-- The part of `Settings` the modelled services read. Construction refuses a stale
threshold that is not below the offline threshold. -/
structure Settings where
  hostStaleAfterSeconds : ℤ
  hostOfflineAfterSeconds : ℤ
  remoteProbeTtlSeconds : ℤ
  maxPendingProbesPerHost : ℕ
  maxProbesDeliveredPerHeartbeat : ℕ := 5
  maxObservationsPerSnapshot : ℕ
  updateTargetVersion : Option String := none
  updateArtifactUrl : Option String := none
  updateArtifactSha256 : Option String := none
  stale_lt_offline : hostStaleAfterSeconds < hostOfflineAfterSeconds

/-- The settings without environment variables. -/
def Settings.default : Settings where
  hostStaleAfterSeconds := 120
  hostOfflineAfterSeconds := 300
  remoteProbeTtlSeconds := 120
  maxPendingProbesPerHost := 20
  maxObservationsPerSnapshot := 5000
  stale_lt_offline := by decide

/-- One entry of the payload an idempotency key stands for. -/
structure CanonicalRequest where
  name : String
  purpose : String
  protocol : String
  preferredPort : Option ℕ
  requestedRange : Option String
  deriving DecidableEq

/-- The payload an idempotency key stands for, with its requests sorted by name. -/
structure CanonicalPayload where
  project : String
  hostId : String
  requests : List CanonicalRequest
  deriving DecidableEq

/-- What surrounds the services: their settings, the digest of a canonical payload
(SHA-256 of its JSON text), PostgreSQL's `hashtext`, the UTC offset of the database
session, by which the driver reads a `datetime` that carries none, the order of
`packaging.version.Version`, where both texts are versions, and the digest of a bearer
token. -/
structure Environment where
  settings : Settings
  digest : CanonicalPayload → String
  hashtext : String → ℤ
  databaseUtcOffset : ℤ
  compareVersions : String → String → Option Ordering := fun _ _ => none
  hashToken : String → String := id

/-- The instants that a `datetime` can hold: those of the years 1 to 9999. The column stores
others, which an offset leads to, and the driver raises when it reads them. -/
def readableInstant (micros : ℤ) : Bool :=
  -62135596800000000 ≤ micros && micros < 253402300800000000

/-- The driver can read the row. -/
def Host.readable (host : Host) : Bool :=
  readableInstant host.firstSeen && readableInstant host.lastSeen &&
    host.lastScanObservedAt.all readableInstant && host.decommissionedAt.all readableInstant

/-- The driver can read the row. -/
def Scan.readable (scan : Scan) : Bool :=
  readableInstant scan.observedAt && readableInstant scan.receivedAt

/-- The driver can read the row. -/
def CurrentPortObservation.readable (row : CurrentPortObservation) : Bool :=
  readableInstant row.firstSeen && readableInstant row.lastSeen && readableInstant row.observedAt

/-- The instant a `timestamptz` column stores for a `datetime`. -/
def Environment.stored (env : Environment) (time : Datetime) : ℤ :=
  if time.aware then time.micros else time.micros - env.databaseUtcOffset

/-- The machine-readable codes of `AllocationError`. -/
inductive AllocationCode
  | invalidRequest
  | idempotencyConflict
  | hostNotFound
  | hostDecommissioned
  | hostOffline
  | hostStale
  | allocationUnavailable
  | allocationNotFound
  deriving DecidableEq

/-- `AllocationError`. -/
structure AllocationError where
  code : AllocationCode
  message : String
  statusCode : ℕ
  details : List (List (String × String))
  deriving DecidableEq

/-- `UpgradeError`, by the check that raises it; the message names what is given here. -/
inductive UpgradeError
  | hostNotFound
  | upgradeNotFound
  | /-- `UpgradeOwnershipError`. -/
    notOwned
  | hostDecommissioned
  | olderVersion (targetVersion agentVersion : String)
  | artifactMismatch
  | pendingUpgrade (state : UpgradeState)
  | alreadyTerminal (state : UpgradeState)
  | notSettable (newState : String)
  | notForward (state newState : UpgradeState)
  | versionMismatch (targetVersion : String) (reportedVersion : Option String)
  | noPreviousVersion
  | noPreviousArtifact
  deriving DecidableEq

/-- `status_code`. -/
def UpgradeError.statusCode : UpgradeError → ℕ
  | hostNotFound => 404
  | upgradeNotFound => 404
  | notOwned => 403
  | hostDecommissioned => 409
  | olderVersion _ _ => 422
  | artifactMismatch => 422
  | pendingUpgrade _ => 409
  | alreadyTerminal _ => 409
  | notSettable _ => 422
  | notForward _ _ => 422
  | versionMismatch _ _ => 422
  | noPreviousVersion => 422
  | noPreviousArtifact => 422

/-- The exceptions a service call can end with. -/
inductive Failure
  | allocation (error : AllocationError)
  | reservationConflict (message : String)
  | snapshotRejected (message : String)
  | /-- `StaleSnapshotError`; its message is built from the two times. -/
    staleSnapshot (observedAt : Datetime) (lastAccepted : ℤ)
  | batchTooLarge (message : String)
  | valueError (message : String)
  | typeError
  | attributeError
  | multipleResultsFound
  | upgrade (error : UpgradeError)
  | /-- `HostLifecycleError`. -/
    lifecycle (message : String) (statusCode : ℕ)
  | /-- `EnrollmentError`. -/
    enrollment (message : String)
  | /-- `LookupError`. -/
    lookup (message : String)
  | /-- `ProbeOwnershipError`. -/
    probeOwnership (message : String)
  | /-- `refresh` of an object whose row is gone. -/
    invalidRequest
  | db (error : DbError)
  deriving DecidableEq

/-- What a call draws from outside the database: Central's clock, a fresh UUID, and
the clock of the database for a server default. -/
structure Draw where
  now : ℤ
  uuid : Uuid
  serverNow : ℤ

/-- A service call. -/
abbrev Service := Program Db Write ℤ Draw Failure

/-- The session of a service call. -/
abbrev ServiceSession := Session Write ℤ Draw

/-- `datetime.now(timezone.utc)`. -/
def clock : Service ℤ := .draw fun drawn => .ret drawn.now

/-- `uuid.uuid4()`. -/
def newUuid : Service Uuid := .draw fun drawn => .ret drawn.uuid

/-- The server default `now()`. -/
def serverNow : Service ℤ := .draw fun drawn => .ret drawn.serverNow

/-- One query. -/
def select {α : Type} (q : Db → α) : Service α := .query q

/-- Raise an exception. -/
def raise {α : Type} (failure : Failure) : Service α := .raise failure

/-- Go on with a row, if the driver can read its times. -/
def whenReadable {α : Type} (readable : Bool) (next : Service α) : Service α :=
  if readable then next else raise (.db .data)

/-- What holds of the program behind the row, and of a failure to read it. -/
theorem of_whenReadable {α : Type} (motive : Service α → Prop) {readable : Bool}
    {next : Service α} (hnext : readable = true → motive next)
    (hraise : motive (raise (.db .data))) : motive (whenReadable readable next) := by
  cases readable
  · exact hraise
  · exact hnext rfl

/-- `db.add(row)`. -/
def add (write : Write) : Service Unit := .add write (.ret ())

/-- `db.flush()`. -/
def flush : Service Unit :=
  .flush fun outcome =>
    match outcome with
    | none => .ret ()
    | some error => .raise (.db error)

/-- `db.commit()`. -/
def commit : Service Unit :=
  .commit fun outcome =>
    match outcome with
    | none => .ret ()
    | some error => .raise (.db error)

/-- `db.rollback()`. -/
def rollback : Service Unit := .rollback (.ret ())

/-- `acquire_host_lock`: a transaction-scoped advisory lock on the hashed host id. -/
def acquireHostLock (env : Environment) (hostId : Uuid) : Service Unit :=
  .lock (env.hashtext hostId.text) (.ret ())

/-- A text that Python takes for true: given and not empty. -/
def given (text : Option String) : Option String := text.filter fun value => value ≠ ""

/-- `scalar_one_or_none()`. -/
def scalarOneOrNone {α : Type} : List α → Service (Option α)
  | [] => pure none
  | [row] => pure (some row)
  | _ => raise .multipleResultsFound

section Rules

variable {rely : ServiceSession → Db → Prop} {guar : ServiceSession → Prop} {s : ServiceSession}

@[simp]
theorem ensures_clock {post : ServiceSession → Except Failure ℤ → Prop} :
    clock.Ensures store rely guar s post ↔ post s.afterDraw (.ok (s.draws 0).now) := Iff.rfl

@[simp]
theorem ensures_newUuid {post : ServiceSession → Except Failure Uuid → Prop} :
    newUuid.Ensures store rely guar s post ↔ post s.afterDraw (.ok (s.draws 0).uuid) := Iff.rfl

@[simp]
theorem ensures_serverNow {post : ServiceSession → Except Failure ℤ → Prop} :
    serverNow.Ensures store rely guar s post ↔ post s.afterDraw (.ok (s.draws 0).serverNow) :=
  Iff.rfl

@[simp]
theorem ensures_select {α : Type} {q : Db → α} {post : ServiceSession → Except Failure α → Prop} :
    (select q).Ensures store rely guar s post ↔
      ∀ db, rely s db → post s (.ok (q (s.view store db))) := Iff.rfl

@[simp]
theorem ensures_raise {α : Type} {failure : Failure}
    {post : ServiceSession → Except Failure α → Prop} :
    (raise failure : Service α).Ensures store rely guar s post ↔ post s (.error failure) := Iff.rfl

@[simp]
theorem ensures_add {write : Write} {post : ServiceSession → Except Failure Unit → Prop} :
    (add write).Ensures store rely guar s post ↔ post (s.afterAdd write) (.ok ()) := Iff.rfl

theorem ensures_flush {post : ServiceSession → Except Failure Unit → Prop} :
    flush.Ensures store rely guar s post ↔
      (∀ db, rely s db → s.flushError store db = none → post s.afterFlush (.ok ())) ∧
        ∀ db error, rely s db → s.flushError store db = some error →
          post (s.afterFailure error) (.error (.db error)) := by
  rw [flush, Program.ensures_flush]
  rfl

theorem ensures_commit {post : ServiceSession → Except Failure Unit → Prop} :
    commit.Ensures store rely guar s post ↔ guar s ∧
      (∀ db, rely s db → s.flushError store db = none → post s.afterCommit (.ok ())) ∧
        ∀ db error, rely s db → s.flushError store db = some error →
          post (s.afterFailure error) (.error (.db error)) := by
  rw [commit, Program.ensures_commit]
  rfl

@[simp]
theorem ensures_rollback {post : ServiceSession → Except Failure Unit → Prop} :
    rollback.Ensures store rely guar s post ↔ post s.afterRollback (.ok ()) := Iff.rfl

@[simp]
theorem ensures_acquireHostLock {env : Environment} {hostId : Uuid}
    {post : ServiceSession → Except Failure Unit → Prop} :
    (acquireHostLock env hostId).Ensures store rely guar s post ↔
      post (s.afterLock (env.hashtext hostId.text)) (.ok ()) := Iff.rfl

theorem ensures_whenReadable {α : Type} {readable : Bool} {next : Service α}
    {post : ServiceSession → Except Failure α → Prop}
    (hnext : readable = true → next.Ensures store rely guar s post)
    (hraise : post s (.error (.db .data))) :
    (whenReadable readable next).Ensures store rely guar s post :=
  of_whenReadable (fun p => p.Ensures store rely guar s post) hnext hraise

end Rules

section Follows

variable {drift : Db → Db → Prop} {sees : Db → Prop} {good : Db → List Write → Prop}
  {s : ServiceSession} {db : Db} {α β : Type}

/-- A query in front of a program that uses its answer. -/
theorem follows_select {q : Db → α} {f : α → Service β}
    {post : ServiceSession → Db → Except Failure β → Prop}
    (h : ∀ later, drift db later → sees later →
      (f (q (s.view store later))).Follows store drift sees good s later post) :
    ((select q).bind f).Follows store drift sees good s db post := h

theorem follows_clock {f : ℤ → Service β} {post : ServiceSession → Db → Except Failure β → Prop}
    (h : (f (s.draws 0).now).Follows store drift sees good s.afterDraw db post) :
    (clock.bind f).Follows store drift sees good s db post := h

theorem follows_add {write : Write} {f : Unit → Service β}
    {post : ServiceSession → Db → Except Failure β → Prop}
    (h : (f ()).Follows store drift sees good (s.afterAdd write) db post) :
    ((add write).bind f).Follows store drift sees good s db post := h

/-- A commit in front of a program that only observes. -/
theorem follows_commit {f : Unit → Service α} (hf : ∀ value, (f value).Quiet)
    (hgood : ∀ later, drift db later → sees later → good later s.batch) :
    (commit.bind f).Follows store drift sees good s db fun _ _ _ => True := by
  intro later hdrift hsees
  cases herror : s.flushError store later with
  | none => exact ⟨hgood later hdrift hsees, (hf ()).follows⟩
  | some error => trivial

end Follows

/-! ## Shapes -/

theorem observes_select {α : Type} {q : Db → α} : (select q).Observes := fun _ => trivial

theorem observes_clock : clock.Observes := fun _ => trivial

theorem observes_newUuid : newUuid.Observes := fun _ => trivial

theorem observes_serverNow : serverNow.Observes := fun _ => trivial

theorem adds_whenReadable {α : Type} {P : Write → Prop} (readable : Bool) {next : Service α}
    (h : next.Adds P) : (whenReadable readable next).Adds P :=
  of_whenReadable (Program.Adds P) (fun _ => h) trivial

theorem observes_scalarOneOrNone {α : Type} (rows : List α) : (scalarOneOrNone rows).Observes := by
  match rows with
  | [] => trivial
  | [_] => trivial
  | _ :: _ :: _ => trivial

theorem holding_flush : flush.Holding := ⟨trivial, fun _ => trivial⟩

theorem adds_flush {P : Write → Prop} : flush.Adds P := by
  rintro (_ | _) <;> trivial

theorem adds_commit {P : Write → Prop} : commit.Adds P := by
  rintro (_ | _) <;> trivial

end Central
