/-
# The mirror of an agent's reservations

An agent's reservations are reserved, refreshed and released on its host, and pushed to the
central registry, which looks a pushed reservation up by its binding and not by its local
identifier. As long as every push names the binding that its reservation already has in the
registry, each local reservation has one row there, with what was pushed last. A refresh that
changes the bind address leaves a second row behind.
-/

import PortForge.Agent.Reservations
import PortForge.Central.SingleCall

namespace Fleet

open Transaction Central Agent

/-! ## One push -/

section Push

variable {hostId : Uuid} {payload : ReservationIn} {db : Db} {draws : ℕ → Draw}
  {faults : ℕ → Option DbError}

/-- What the registry does with a push. -/
def pushOutcome (hostId : Uuid) (payload : ReservationIn) (db : Db) (draws : ℕ → Draw)
    (faults : ℕ → Option DbError) : Outcome Db Write ℤ Draw Failure CentralReservation :=
  (createReservation hostId payload).exec store (Session.start draws faults) db

/-- The row is one of the host, under the local identifier. -/
def MirrorsLocal (hostId : Uuid) (localId : String) (row : CentralReservation) : Prop :=
  row.hostId = hostId ∧ row.localReservationId = some localId

instance (hostId : Uuid) (localId : String) (row : CentralReservation) :
    Decidable (MirrorsLocal hostId localId row) :=
  inferInstanceAs (Decidable (_ ∧ _))

/-- The row has the binding of the payload. -/
def OfBinding (hostId : Uuid) (payload : ReservationIn) (row : CentralReservation) : Prop :=
  row.hostId = hostId ∧ row.port = payload.port ∧ row.protocol = payload.protocol ∧
    row.bindAddress = payload.bindAddress

/-- The row holds what the payload says. -/
structure HoldsPayload (hostId : Uuid) (payload : ReservationIn) (row : CentralReservation) :
    Prop where
  binding : OfBinding hostId payload row
  project : row.project = payload.project
  service : row.service = payload.service
  localId : row.localReservationId = payload.localReservationId

/-- The row after a re-sync. -/
def resynced (payload : ReservationIn) (row : CentralReservation) : CentralReservation :=
  { row with
    project := payload.project
    service := payload.service
    purpose := payload.purpose
    notes := payload.notes }

theorem exec_commit_bind {α : Type} {next : Unit → Service α} {s : ServiceSession} :
    ((commit.bind next).exec store s db) =
      match s.flushError store db with
      | none => (next ()).exec store s.afterCommit (store.applyAll s.batch db)
      | some error => ⟨.error (.db error), s.afterFailure error, db⟩ := by
  rw [commit, Program.bind, Program.exec]
  cases s.flushError store db <;> rfl

theorem exec_flush_bind {α : Type} {next : Unit → Service α} {s : ServiceSession} :
    ((flush.bind next).exec store s db) =
      match s.flushError store db with
      | none => (next ()).exec store s.afterFlush db
      | some error => ⟨.error (.db error), s.afterFailure error, db⟩ := by
  rw [flush, Program.bind, Program.exec]
  cases s.flushError store db <;> rfl

/-- The refresh after a commit finds a row that is on file. -/
theorem exec_refreshReservation {id : Uuid} {s : ServiceSession} (hflushed : s.flushed = [])
    (h : ∃ row ∈ db.reservations, row.id = id) :
    ((refreshReservation id).exec store s db).db = db ∧
      ∃ answer, ((refreshReservation id).exec store s db).result = .ok answer := by
  obtain ⟨row, hrow, hid⟩ := h
  have hfound : (db.getReservation id).isSome := by
    rw [Db.getReservation, List.find?_isSome]
    exact ⟨row, hrow, by simpa using hid⟩
  obtain ⟨found, hfound⟩ := Option.isSome_iff_exists.mp hfound
  rw [refreshReservation, Program.bind_eq, select, Program.exec_bind, Program.exec_query,
    Session.view_of_flushed_nil store hflushed, hfound]
  exact ⟨rfl, found, rfl⟩

/-- The row an insertion adds. -/
def insertedRow (hostId : Uuid) (payload : ReservationIn) (id : Uuid) : CentralReservation where
  id := id
  hostId := hostId
  port := payload.port
  protocol := payload.protocol
  bindAddress := payload.bindAddress
  project := payload.project
  service := payload.service
  purpose := payload.purpose
  notes := payload.notes
  localReservationId := payload.localReservationId
  allocationId := none
  requestName := none

/-- An insertion is refused as a whole, or commits its row, whose identifier is new. -/
theorem exec_storeReservation :
    (((storeReservation hostId payload).exec store (Session.start draws faults) db).db = db ∧
        ∃ failure, ((storeReservation hostId payload).exec store (Session.start draws faults)
          db).result = .error failure) ∨
      ((∀ old ∈ db.reservations, old.id ≠ (draws 0).uuid) ∧
        ((storeReservation hostId payload).exec store (Session.start draws faults)
          db).db.reservations = db.reservations ++ [insertedRow hostId payload (draws 0).uuid] ∧
        ∃ answer, ((storeReservation hostId payload).exec store (Session.start draws faults)
          db).result = .ok answer) := by
  obtain ⟨row, hrow⟩ : ∃ row, row = insertedRow hostId payload (draws 0).uuid := ⟨_, rfl⟩
  obtain ⟨s₁, hs₁⟩ : ∃ s₁, s₁ = (((Session.start draws faults : ServiceSession).afterDraw).afterAdd
    (.insertReservation row)) := ⟨_, rfl⟩
  have hinsert : (storeReservation hostId payload).exec store (Session.start draws faults) db =
      (flush.bind fun _ => clock.bind fun timestamp => newUuid.bind fun eventId =>
        (add (.insertActivity (reservationCreated row eventId timestamp))).bind fun _ =>
          commit.bind fun _ => refreshReservation row.id).exec store s₁ db := by
    rw [hs₁, hrow]
    simp only [storeReservation, insertReservation, Program.bind_eq, Program.bind_assoc]
    rfl
  rw [hinsert, exec_flush_bind]
  cases hflush : s₁.flushError store db with
  | some error => exact .inl ⟨rfl, _, rfl⟩
  | none =>
      have hnew : ∀ old ∈ db.reservations, old.id ≠ (draws 0).uuid := by
        have hrefused := Session.refusesAll_of_flushError hflush
        rw [hs₁] at hrefused
        have hsingle : store.refuses db (.insertReservation row) = none :=
          (Store.refusesAll_cons_eq_none store).mp hrefused |>.1
        intro old hold hsame
        have hany : (db.reservations.any fun other => other.id = row.id) = true := by
          rw [List.any_eq_true]
          exact ⟨old, hold, by rw [hrow]; exact decide_eq_true hsame⟩
        change Write.refused db (.insertReservation row) = none at hsingle
        rw [Write.refused, hany] at hsingle
        simp only [if_true] at hsingle
        split at hsingle
        · cases hsingle
        · split at hsingle
          · cases hsingle
          · cases hsingle
      obtain ⟨s₂, hs₂⟩ : ∃ s₂, s₂ = ((s₁.afterFlush.afterDraw.afterDraw).afterAdd
        (.insertActivity (reservationCreated row (s₁.afterFlush.afterDraw.draws 0).uuid
          (s₁.afterFlush.draws 0).now))) := ⟨_, rfl⟩
      have hevent : ((clock.bind fun timestamp => newUuid.bind fun eventId =>
          (add (.insertActivity (reservationCreated row eventId timestamp))).bind fun _ =>
            commit.bind fun _ => refreshReservation row.id).exec store s₁.afterFlush db) =
          (commit.bind fun _ => refreshReservation row.id).exec store s₂ db := by
        rw [hs₂]
        rfl
      simp only [hevent]
      rw [exec_commit_bind]
      cases hcommit : s₂.flushError store db with
      | some error => exact .inl ⟨rfl, _, rfl⟩
      | none =>
          have hafter : (store.applyAll s₂.batch db).reservations = db.reservations ++ [row] := by
            rw [hs₂, hs₁]
            rfl
          obtain ⟨hdb, answer, hanswer⟩ := @exec_refreshReservation
            (store.applyAll s₂.batch db) row.id s₂.afterCommit rfl
            ⟨row, by rw [hafter]; exact List.mem_append_right _ (List.mem_singleton_self row), rfl⟩
          simp only [hdb, hafter]
          exact .inr ⟨hnew, by rw [hrow], answer, hanswer⟩

/-- A re-sync is refused, or commits the values of the payload to the row of its own. -/
theorem exec_resyncReservation {old : CentralReservation} (hold : old ∈ db.reservations) :
    (((resyncReservation payload old).exec store (Session.start draws faults) db).db = db ∧
        ∃ failure, ((resyncReservation payload old).exec store (Session.start draws faults)
          db).result = .error failure) ∨
      (old.localReservationId = payload.localReservationId ∧
        ((resyncReservation payload old).exec store (Session.start draws faults) db).db.reservations
            =
          db.reservations.map (fun row => if row.id = old.id then resynced payload row else row) ∧
        ∃ answer, ((resyncReservation payload old).exec store (Session.start draws faults)
          db).result = .ok answer) := by
  rw [resyncReservation]
  split
  case isFalse => exact .inl ⟨rfl, _, rfl⟩
  case isTrue hown =>
    obtain ⟨s₁, hs₁⟩ : ∃ s₁, s₁ = ((Session.start draws faults : ServiceSession).afterAdd
      (.updateReservation old.id payload.project payload.service payload.purpose payload.notes)) :=
      ⟨_, rfl⟩
    have hupdate : (do
        add (.updateReservation old.id payload.project payload.service payload.purpose
            payload.notes)
        commit
        refreshReservation old.id : Service CentralReservation).exec store
          (Session.start draws faults) db =
        (commit.bind fun _ => refreshReservation old.id).exec store s₁ db := by
      rw [hs₁]
      rfl
    rw [hupdate, exec_commit_bind]
    cases hcommit : s₁.flushError store db with
    | some error => exact .inl ⟨rfl, _, rfl⟩
    | none =>
        have hafter : (store.applyAll s₁.batch db).reservations = db.reservations.map
            (fun row => if row.id = old.id then resynced payload row else row) := by
          rw [hs₁]
          rfl
        obtain ⟨hdb, answer, hanswer⟩ := @exec_refreshReservation (store.applyAll s₁.batch db)
          old.id s₁.afterCommit rfl
          ⟨resynced payload old, by
            rw [hafter, List.mem_map]
            exact ⟨old, hold, if_pos rfl⟩, rfl⟩
        simp only [hdb, hafter]
        exact .inr ⟨hown.2, trivial, answer, hanswer⟩

/-- A push changes nothing and is refused, adds a row where the binding is free, or brings the
only row of the binding up to date, which is the reservation's own. -/
theorem pushOutcome_cases :
    ((pushOutcome hostId payload db draws faults).db.reservations = db.reservations ∧
        ∃ failure, (pushOutcome hostId payload db draws faults).result = .error failure) ∨
      (∃ row, (∀ old ∈ db.reservations, ¬ OfBinding hostId payload old) ∧
        (∀ old ∈ db.reservations, old.id ≠ row.id) ∧ HoldsPayload hostId payload row ∧
        (pushOutcome hostId payload db draws faults).db.reservations = db.reservations ++ [row] ∧
        ∃ answer, (pushOutcome hostId payload db draws faults).result = .ok answer) ∨
      (∃ old ∈ db.reservations, OfBinding hostId payload old ∧
        old.localReservationId = payload.localReservationId ∧
        (pushOutcome hostId payload db draws faults).db.reservations =
          db.reservations.map (fun row => if row.id = old.id then resynced payload row else row) ∧
        ∃ answer, (pushOutcome hostId payload db draws faults).result = .ok answer) := by
  have hmem : ∀ row, row ∈ db.reservationsByBinding hostId payload.port payload.protocol
      payload.bindAddress ↔ row ∈ db.reservations ∧ OfBinding hostId payload row := by
    intro row
    rw [Db.reservationsByBinding, List.mem_filter]
    simp [OfBinding]
  have hlookup : pushOutcome hostId payload db draws faults =
      ((scalarOneOrNone (db.reservationsByBinding hostId payload.port payload.protocol
        payload.bindAddress)).bind fun existing =>
          existing.elim (storeReservation hostId payload) (resyncReservation payload)).exec store
            (Session.start draws faults) db := by
    change ((scalarOneOrNone (db.reservationsByBinding hostId payload.port payload.protocol
      payload.bindAddress)).bind _).exec store _ db = _
    congr 2
    funext existing
    cases existing <;> rfl
  rw [hlookup]
  cases hrows : db.reservationsByBinding hostId payload.port payload.protocol
      payload.bindAddress with
  | nil =>
      -- The binding is free.
      have hfree : ∀ old ∈ db.reservations, ¬ OfBinding hostId payload old := by
        intro old hold hbinding
        have hlisted := (hmem old).mpr ⟨hold, hbinding⟩
        rw [hrows] at hlisted
        cases hlisted
      rcases @exec_storeReservation hostId payload db draws faults with
        ⟨hdb, hfailed⟩ | ⟨hnew, hdb, hanswer⟩
      · exact .inl ⟨congrArg Db.reservations hdb, hfailed⟩
      · exact .inr (.inl ⟨_, hfree, hnew, ⟨⟨rfl, rfl, rfl, rfl⟩, rfl, rfl, rfl⟩, hdb, hanswer⟩)
  | cons old rows =>
      cases rows with
      | cons other rows =>
          exact .inl ⟨rfl, _, rfl⟩
      | nil =>
          obtain ⟨hold, hbinding⟩ := (hmem old).mp (hrows ▸ List.mem_singleton_self old)
          rcases @exec_resyncReservation payload db draws faults old hold
            with ⟨hdb, hfailed⟩ | ⟨hown, hdb, hanswer⟩
          · exact .inl ⟨congrArg Db.reservations hdb, hfailed⟩
          · exact .inr (.inr ⟨old, hold, hbinding, hown, hdb, hanswer⟩)

end Push

/-! ## Runs -/

/-- The registry, the reservations stored on the host, those that a sync still has to push,
and what was pushed last under each local identifier. -/
structure MirrorState where
  registry : Db
  reservations : List Reservation
  outbox : List Reservation
  pushed : String → Option Reservation

/-- After a push: it counts as the last one of its reservation if the registry accepts it. -/
def MirrorState.afterPush (φ : MirrorState) (reservation : Reservation) (rest : List Reservation)
    (outcome : Outcome Db Write ℤ Draw Failure CentralReservation) : MirrorState where
  registry := outcome.db
  reservations := φ.reservations
  outbox := rest
  pushed :=
    match outcome.result with
    | .ok _ => Function.update φ.pushed reservation.reservationId (some reservation)
    | .error _ => φ.pushed

/-- The states that an agent's commands, its syncs and the registry's other callers lead to.
A push may get lost or be rejected as invalid, and a database statement may fail. Other
callers leave the rows of the host alone. -/
inductive MirrorRun (A : AgentHost) (hostId : Uuid) (meets : Db → Reservation → Prop) :
    MirrorState → Prop
  | start (registry : Db) (reservations : List Reservation)
      (hids : (registry.reservations.map CentralReservation.id).Nodup)
      (hnone : ∀ row ∈ registry.reservations, row.hostId = hostId → row.localReservationId = none) :
      MirrorRun A hostId meets ⟨registry, reservations, [], fun _ => none⟩
  | reserve {φ : MirrorState} (h : MirrorRun A hostId meets φ) (discovered : List DiscoveredPort)
      (args : ReserveArguments) (id : String) (now : ℤ) :
      MirrorRun A hostId meets
        { φ with reservations := (Agent.reserve A discovered φ.reservations args id now).2 }
  | release {φ : MirrorState} (h : MirrorRun A hostId meets φ) (port : ℕ) (project : String)
      (protocol : Protocol) :
      MirrorRun A hostId meets
        { φ with reservations := (Agent.release A φ.reservations port project protocol).2 }
  | releaseById {φ : MirrorState} (h : MirrorRun A hostId meets φ) (reservationId : String)
      (project : Option String) :
      MirrorRun A hostId meets
        { φ with reservations := (Agent.releaseById A φ.reservations reservationId project).2 }
  | others {φ : MirrorState} (h : MirrorRun A hostId meets φ) (db : Db)
      (hids : (db.reservations.map CentralReservation.id).Nodup)
      (hsame : (db.reservations.filter fun row => row.hostId = hostId) =
        φ.registry.reservations.filter fun row => row.hostId = hostId) :
      MirrorRun A hostId meets { φ with registry := db }
  | sync {φ : MirrorState} (h : MirrorRun A hostId meets φ) (hidle : φ.outbox = []) :
      MirrorRun A hostId meets { φ with outbox := syncedReservations A φ.reservations }
  | push {φ : MirrorState} (h : MirrorRun A hostId meets φ) {reservation : Reservation}
      {rest : List Reservation} (hnext : φ.outbox = reservation :: rest) {payload : ReservationIn}
      (hpayload : reservation.payload = some payload) (hmeets : meets φ.registry reservation)
      (draws : ℕ → Draw) (faults : ℕ → Option DbError) :
      MirrorRun A hostId meets
        (φ.afterPush reservation rest (pushOutcome hostId payload φ.registry draws faults))
  | lose {φ : MirrorState} (h : MirrorRun A hostId meets φ) {reservation : Reservation}
      {rest : List Reservation} (hnext : φ.outbox = reservation :: rest) :
      MirrorRun A hostId meets { φ with outbox := rest }

/-- The row holds what the reservation says. -/
structure Carries (reservation : Reservation) (row : CentralReservation) : Prop where
  port : row.port = reservation.port
  protocol : row.protocol = reservation.protocol
  bindAddress : row.bindAddress = reservation.bindAddress
  project : row.project = reservation.project
  service : row.service = reservation.service

/-- Under each local identifier the host has at most one row, with what was pushed last. -/
def Mirrored (hostId : Uuid) (φ : MirrorState) : Prop :=
  ∀ localId, (φ.registry.reservations.filter (MirrorsLocal hostId localId)).length ≤ 1 ∧
    ∀ row ∈ φ.registry.reservations, MirrorsLocal hostId localId row →
      ∃ reservation, φ.pushed localId = some reservation ∧ Carries reservation row

/-- Where the registry has the reservation already, it has it under the same binding. -/
def KeepsBinding (hostId : Uuid) (db : Db) (reservation : Reservation) : Prop :=
  ∀ row ∈ db.reservations, MirrorsLocal hostId reservation.reservationId row →
    row.port = reservation.port ∧ row.protocol = reservation.protocol ∧
      row.bindAddress = reservation.bindAddress

section Kept

variable {A : AgentHost} {hostId : Uuid} {φ : MirrorState} {reservation : Reservation}
  {payload : ReservationIn} {rest : List Reservation}

theorem carries_of_payload (hpayload : reservation.payload = some payload)
    {row : CentralReservation}
    (hbinding : OfBinding hostId payload row) (hproject : row.project = payload.project)
    (hservice : row.service = payload.service) : Carries reservation row := by
  rw [Reservation.payload] at hpayload
  split at hpayload
  · cases hpayload
    exact ⟨hbinding.2.1, hbinding.2.2.1, hbinding.2.2.2, hproject, hservice⟩
  · cases hpayload

theorem ofBinding_of_payload (hpayload : reservation.payload = some payload)
    {row : CentralReservation} (hhost : row.hostId = hostId) (hbinding : row.port =
        reservation.port ∧
      row.protocol = reservation.protocol ∧ row.bindAddress = reservation.bindAddress) :
    OfBinding hostId payload row := by
  rw [Reservation.payload] at hpayload
  split at hpayload
  · cases hpayload
    exact ⟨hhost, hbinding⟩
  · cases hpayload

theorem localId_of_payload (hpayload : reservation.payload = some payload) :
    payload.localReservationId = some reservation.reservationId := by
  rw [Reservation.payload] at hpayload
  split at hpayload
  · cases hpayload
    rfl
  · cases hpayload

theorem eq_of_length_le_one {α : Type} {l : List α} (h : l.length ≤ 1) {a b : α} (ha : a ∈ l)
    (hb : b ∈ l) : a = b := by
  match l, h with
  | [only], _ => rw [List.mem_singleton.mp ha, List.mem_singleton.mp hb]

/-- What every run keeps. -/
structure MirrorKept (hostId : Uuid) (φ : MirrorState) : Prop where
  ids : (φ.registry.reservations.map CentralReservation.id).Nodup
  mirrored : Mirrored hostId φ

theorem MirrorKept.unique (h : MirrorKept hostId φ) {localId : String}
    {row other : CentralReservation}
    (hrow : row ∈ φ.registry.reservations) (hother : other ∈ φ.registry.reservations)
    (hlocal : MirrorsLocal hostId localId row) (hlocal' : MirrorsLocal hostId localId other) :
    row = other :=
  eq_of_length_le_one (h.mirrored localId).1
    (List.mem_filter.mpr ⟨hrow, decide_eq_true hlocal⟩)
    (List.mem_filter.mpr ⟨hother, decide_eq_true hlocal'⟩)

/-- A push that names the binding of its row. -/
theorem MirrorKept.push (h : MirrorKept hostId φ) (hpayload : reservation.payload = some payload)
    (hkeeps : KeepsBinding hostId φ.registry reservation) (draws : ℕ → Draw)
    (faults : ℕ → Option DbError) :
    MirrorKept hostId
      (φ.afterPush reservation rest (pushOutcome hostId payload φ.registry draws faults)) := by
  have hlocalId := localId_of_payload hpayload
  rcases @pushOutcome_cases hostId payload φ.registry draws faults with
      ⟨hdb, failure, hresult⟩ | ⟨row, hfree, hnew, hholds, hdb, answer, hresult⟩ |
        ⟨old, hold, hbinding, hown, hdb, answer, hresult⟩
  · -- Nothing has changed.
    refine ⟨?_, fun localId => ?_⟩
    · change ((pushOutcome hostId payload φ.registry draws faults).db.reservations.map _).Nodup
      rw [hdb]
      exact h.ids
    · simp only [MirrorState.afterPush, hresult, hdb]
      exact h.mirrored localId
  · -- The reservation had no row, and has one now.
    have hnone : ∀ old ∈ φ.registry.reservations,
        ¬ MirrorsLocal hostId reservation.reservationId old := by
      intro old hold hlocal
      exact hfree old hold (ofBinding_of_payload hpayload hlocal.1 (hkeeps old hold hlocal))
    refine ⟨?_, fun localId => ?_⟩
    · change ((pushOutcome hostId payload φ.registry draws faults).db.reservations.map _).Nodup
      rw [hdb, List.map_append, List.map_singleton]
      refine List.nodup_append.mpr ⟨h.ids, List.nodup_singleton _, fun a ha b hb hab => ?_⟩
      obtain ⟨old, hold, rfl⟩ := List.mem_map.mp ha
      exact hnew old hold (hab.trans (List.mem_singleton.mp hb))
    · simp only [MirrorState.afterPush, hresult, hdb]
      by_cases hsame : localId = reservation.reservationId
      · subst hsame
        rw [List.filter_append, List.filter_eq_nil_iff.mpr fun old hold =>
            by simpa using hnone old hold,
          List.nil_append, Function.update_self]
        refine ⟨List.length_filter_le _ _, fun found hfound hlocal => ⟨reservation, rfl, ?_⟩⟩
        rcases List.mem_append.mp hfound with hold | hadded
        · exact (hnone found hold hlocal).elim
        · rw [List.mem_singleton.mp hadded]
          exact carries_of_payload hpayload hholds.binding hholds.project hholds.service
      · have hother : ¬ MirrorsLocal hostId localId row := fun hlocal => hsame (by
          have hboth := hlocal.2.symm.trans (hholds.localId.trans hlocalId)
          exact Option.some_inj.mp hboth)
        have hskipped : [row].filter (fun row => decide (MirrorsLocal hostId localId row)) = [] :=
          List.filter_eq_nil_iff.mpr fun found hfound => by
            rw [List.mem_singleton.mp hfound]
            simpa using hother
        rw [List.filter_append, hskipped, List.append_nil, Function.update_of_ne hsame]
        refine ⟨(h.mirrored localId).1, fun found hfound hlocal => ?_⟩
        rcases List.mem_append.mp hfound with hold | hadded
        · exact (h.mirrored localId).2 found hold hlocal
        · exact (hother (List.mem_singleton.mp hadded ▸ hlocal)).elim
  · -- The row of the reservation is brought up to date.
    have howned : MirrorsLocal hostId reservation.reservationId old :=
      ⟨hbinding.1, hown.trans hlocalId⟩
    have hfields : ∀ (localId : String) (row : CentralReservation), MirrorsLocal hostId localId
        (if row.id = old.id then resynced payload row else row) ↔
            MirrorsLocal hostId localId row := by
      intro localId row
      split
      · exact Iff.rfl
      · exact Iff.rfl
    refine ⟨?_, fun localId => ?_⟩
    · change ((pushOutcome hostId payload φ.registry draws faults).db.reservations.map _).Nodup
      have hids : CentralReservation.id ∘ (fun row : CentralReservation =>
          if row.id = old.id then resynced payload row else row) = CentralReservation.id := by
        funext row
        rw [Function.comp_apply]
        split
        · rfl
        · rfl
      rw [hdb, List.map_map, hids]
      exact h.ids
    · simp only [MirrorState.afterPush, hresult, hdb]
      refine ⟨?_, fun found hfound hlocal => ?_⟩
      · rw [List.filter_map, List.length_map]
        have hsame : (fun row => decide (MirrorsLocal hostId localId row)) ∘
            (fun row : CentralReservation => if row.id = old.id then resynced payload row else row)
                =
            fun row => decide (MirrorsLocal hostId localId row) := by
          funext row
          rw [Function.comp_apply, decide_eq_decide]
          exact hfields localId row
        rw [hsame]
        exact (h.mirrored localId).1
      · obtain ⟨row, hrow, rfl⟩ := List.mem_map.mp hfound
        rw [hfields] at hlocal
        by_cases hid : row.id = old.id
        · have hrowOld : row = old := List.inj_on_of_nodup_map h.ids hrow hold hid
          subst hrowOld
          have hsame : localId = reservation.reservationId :=
            Option.some_inj.mp (hlocal.2.symm.trans howned.2)
          rw [if_pos rfl, hsame, Function.update_self]
          exact ⟨reservation, rfl, carries_of_payload hpayload hbinding rfl rfl⟩
        · rw [if_neg hid]
          have hother : localId ≠ reservation.reservationId := by
            rintro rfl
            exact hid (congrArg _ (h.unique hrow hold hlocal howned))
          rw [Function.update_of_ne hother]
          exact (h.mirrored localId).2 row hrow hlocal

theorem filter_mirrorsLocal (rows : List CentralReservation) (localId : String) :
    rows.filter (MirrorsLocal hostId localId) = (rows.filter fun row => row.hostId = hostId).filter
      fun row => row.localReservationId = some localId := by
  rw [List.filter_filter]
  refine List.filter_congr fun row _ => ?_
  rw [Bool.and_comm]
  exact Bool.decide_and _ _

theorem mirrorKept_of_run (hrun : MirrorRun A hostId (KeepsBinding hostId) φ) :
    MirrorKept hostId φ := by
  induction hrun with
  | start registry reservations hids hnone =>
      have hfree : ∀ localId, ∀ row ∈ registry.reservations, ¬ MirrorsLocal hostId localId row := by
        intro localId row hrow hlocal
        cases (hnone row hrow hlocal.1).symm.trans hlocal.2
      refine ⟨hids, fun localId => ⟨?_, fun row hrow hlocal =>
          (hfree localId row hrow hlocal).elim⟩⟩
      rw [List.filter_eq_nil_iff.mpr fun row hrow => by simpa using hfree localId row hrow]
      exact Nat.zero_le 1
  | @others φ _ db hids hsame ih =>
      have hrows : ∀ localId, db.reservations.filter (MirrorsLocal hostId localId) =
          φ.registry.reservations.filter (MirrorsLocal hostId localId) := by
        intro localId
        rw [filter_mirrorsLocal, filter_mirrorsLocal, hsame]
      refine ⟨hids, fun localId => ⟨?_, fun row hrow hlocal => ?_⟩⟩
      · change (db.reservations.filter _).length ≤ 1
        rw [hrows]
        exact (ih.mirrored localId).1
      · have hlisted : row ∈ db.reservations.filter (MirrorsLocal hostId localId) :=
          List.mem_filter.mpr ⟨hrow, decide_eq_true hlocal⟩
        rw [hrows] at hlisted
        exact (ih.mirrored localId).2 row (List.mem_filter.mp hlisted).1 hlocal
  | push _ _ hpayload hmeets draws faults ih => exact ih.push hpayload hmeets draws faults
  | reserve _ _ _ _ _ ih | release _ _ _ _ ih | releaseById _ _ _ ih | sync _ _ ih | lose _ _ ih =>
      exact ⟨ih.ids, ih.mirrored⟩

end Kept

/-- In every run in which each push names the binding that its reservation already has in the
registry, the host has at most one row under each local identifier, with the port, the
protocol, the bind address, the project and the service that were pushed last. -/
theorem reservations_mirrored {A : AgentHost} {hostId : Uuid} {φ : MirrorState}
    (hrun : MirrorRun A hostId (KeepsBinding hostId) φ) : Mirrored hostId φ :=
  (mirrorKept_of_run hrun).mirrored

/-! ## A refresh that changes the bind address -/

/-- An agent, with the lower case of ASCII. -/
def sampleAgent : AgentHost := ⟨"h1", fun text => String.ofList (text.toList.map Char.toLower)⟩

/-- `reserve 8003 --project web`. -/
def reserveWeb : ReserveArguments := { port := 8003, project := "web" }

/-- The same with a bind address. -/
def reserveWebLocally : ReserveArguments := { reserveWeb with bindAddress := some "127.0.0.1" }

/-- The reservation that is made first. -/
def webReservation : Reservation := Reservation.create sampleAgent reserveWeb "r1" 0

/-- The reservation with its bind address. -/
def webReservationLocally : Reservation := webReservation.refreshed reserveWebLocally 1

/-- The port is reserved, and a sync is about to push it. -/
def mirrorReserved : MirrorState := ⟨sampleDb, [webReservation], [webReservation], fun _ => none⟩

/-- The reservation is pushed. -/
def mirrorPushed : MirrorState :=
  mirrorReserved.afterPush webReservation []
    (pushOutcome sampleHost.id (webReservation.payload.get (by decide)) sampleDb (sampleDraws 100)
      fun _ => none)

/-- The reservation is refreshed with a bind address, and a sync is about to push it. -/
def mirrorRefreshed : MirrorState :=
  { mirrorPushed with
    reservations := [webReservationLocally]
    outbox := [webReservationLocally] }

/-- The refreshed reservation is pushed. -/
def mirrorMoved : MirrorState :=
  mirrorRefreshed.afterPush webReservationLocally []
    (pushOutcome sampleHost.id (webReservationLocally.payload.get (by decide))
      mirrorRefreshed.registry (sampleDraws 200) fun _ => none)

theorem mirrorRun_reserved (meets : Db → Reservation → Prop) :
    MirrorRun sampleAgent sampleHost.id meets mirrorReserved :=
  .sync (.reserve (.start sampleDb [] (by decide) (by decide)) [] reserveWeb "r1" 0) rfl

/-- The web reservation, refreshed with a service. -/
def webServed : Reservation :=
  webReservation.refreshed { reserveWeb with service := some "front" } 1

/-- `reserve 8010 --project api`. -/
def reserveApi : ReserveArguments := { port := 8010, project := "api" }

/-- The reservation of the second port. -/
def apiReservation : Reservation := Reservation.create sampleAgent reserveApi "r2" 2

/-- The first reservation is refreshed and the second one made; a sync is about to push both. -/
def mirrorGrown : MirrorState :=
  { mirrorPushed with
    reservations := [webServed, apiReservation]
    outbox := [webServed, apiReservation] }

/-- The refreshed reservation is pushed. -/
def mirrorServed : MirrorState :=
  mirrorGrown.afterPush webServed [apiReservation]
    (pushOutcome sampleHost.id (webServed.payload.get (by decide)) mirrorGrown.registry
      (sampleDraws 200) fun _ => none)

/-- Both are pushed, and the first one is released on the host. -/
def mirrorReleased : MirrorState :=
  { mirrorServed.afterPush apiReservation []
      (pushOutcome sampleHost.id (apiReservation.payload.get (by decide)) mirrorServed.registry
        (sampleDraws 300) fun _ => none) with
    reservations := [apiReservation] }

theorem keepsBinding_webServed :
    KeepsBinding sampleHost.id mirrorGrown.registry webServed := by
  unfold KeepsBinding
  decide +kernel

theorem keepsBinding_apiReservation :
    KeepsBinding sampleHost.id mirrorServed.registry apiReservation := by
  unfold KeepsBinding
  decide +kernel

/-- Two reservations, one of them refreshed between its pushes and then released. -/
theorem reservations_mirrored_sample :
    mirrorReleased.registry.reservations.map (fun row => (row.port, row.service)) =
        [(8003, some "front"), (8010, none)] ∧
      mirrorReleased.reservations = [apiReservation] ∧
      Mirrored sampleHost.id mirrorReleased := by
  have hpushed : MirrorRun sampleAgent sampleHost.id (KeepsBinding sampleHost.id) mirrorPushed :=
    .push (mirrorRun_reserved _) rfl (Option.some_get _).symm (fun row hrow => by cases hrow)
      (sampleDraws 100) fun _ => none
  have hgrown : MirrorRun sampleAgent sampleHost.id (KeepsBinding sampleHost.id) mirrorGrown :=
    .sync (.reserve (.reserve hpushed [] { reserveWeb with service := some "front" } "r3" 1) []
      reserveApi "r2" 2) rfl
  have hserved : MirrorRun sampleAgent sampleHost.id (KeepsBinding sampleHost.id) mirrorServed :=
    .push hgrown rfl (Option.some_get _).symm keepsBinding_webServed (sampleDraws 200) fun _ => none
  have hreleased : MirrorRun sampleAgent sampleHost.id (KeepsBinding sampleHost.id)
      mirrorReleased :=
    .release (.push hserved rfl (Option.some_get _).symm keepsBinding_apiReservation
      (sampleDraws 300) fun _ => none) 8003 "web" .tcp
  exact ⟨by decide +kernel, rfl, reservations_mirrored hreleased⟩

/-- The registry has two rows of one local reservation. -/
theorem reservation_mirroredTwice :
    ∃ φ, MirrorRun sampleAgent sampleHost.id (fun _ _ => True) φ ∧ φ.outbox = [] ∧
      ¬ Mirrored sampleHost.id φ := by
  have hpushed : MirrorRun sampleAgent sampleHost.id (fun _ _ => True) mirrorPushed :=
    .push (mirrorRun_reserved _) rfl (Option.some_get _).symm trivial (sampleDraws 100) fun _ =>
        none
  have hrefreshed : MirrorRun sampleAgent sampleHost.id (fun _ _ => True) mirrorRefreshed :=
    .sync (.reserve hpushed [] reserveWebLocally "r2" 1) rfl
  refine ⟨mirrorMoved, .push hrefreshed rfl (Option.some_get _).symm trivial (sampleDraws 200)
    fun _ => none, rfl, fun h => ?_⟩
  have hcount := (h "r1").1
  revert hcount
  decide +kernel

end Fleet
