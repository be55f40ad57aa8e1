/-
# Runs of snapshots

Snapshots are submitted one after another, in any order of their times and with any
repetition. The current rows of a host are those of the last snapshot that was accepted,
and its history tells how they came about.
-/

import PortForge.Central.SnapshotDiff
import PortForge.Central.UpgradeLaw
import PortForge.Transaction.Turns

namespace Central

open Transaction

/-- A call of `ingest_snapshot`. -/
structure SnapshotCall where
  hostId : Uuid
  scanId : Uuid
  observedAt : Datetime
  observations : List ObservationIn
  maxBatchSize : ℕ

namespace SnapshotCall

def program (env : Environment) (call : SnapshotCall) : Service IngestionResult :=
  ingestSnapshot env call.hostId call.scanId call.observedAt call.observations call.maxBatchSize

/-- What the snapshot is ingested with, for a host that is known. -/
def ingest (call : SnapshotCall) (host : Host) : Ingest where
  hostId := call.hostId
  scanId := call.scanId
  observedAt := call.observedAt.micros
  isBaseline := host.lastScanObservedAt.isNone

/-- What the snapshot changes. -/
def diff (call : SnapshotCall) (host : Host) (db : Db) (draws : ℕ → Draw)
    (canonical : List ObservationIn) : List Change :=
  Central.diff (call.ingest host) (db.listCurrentForHost call.hostId) draws canonical

end SnapshotCall

/-- What a snapshot leaves and answers: it is rejected, or a repetition, or it is accepted
and its changes are committed. -/
inductive SnapshotTurn (env : Environment) (call : SnapshotCall) (draws : ℕ → Draw) (db : Db) :
    Db → Except Failure IngestionResult → Prop
  | rejected (failure : Failure) : SnapshotTurn env call draws db db (.error failure)
  | repeated : SnapshotTurn env call draws db db (.ok (duplicateScan call.scanId))
  | accepted (host : Host) (canonical : List ObservationIn) (receivedAt : ℤ)
      (hhost : db.getHost call.hostId = some host)
      (hnewer : ∀ last, host.lastScanObservedAt = some last → last < call.observedAt.micros)
      (hcanonical : canonicalizeObservations call.observations = some canonical) :
      SnapshotTurn env call draws db
        (store.applyAll ((call.diff host db draws canonical).flatMap
            (Change.writes env (call.ingest host)) ++
          scanWrites (call.ingest host) call.observations.length receivedAt) db)
        (.ok (diffResult (call.ingest host) call.observations canonical
          (call.diff host db draws canonical)))

section Alone

variable {env : Environment} {call : SnapshotCall} {draws : ℕ → Draw} {db : Db}
  {guar : ServiceSession → Prop}

/-- A session that has only taken the lock. -/
structure Untouched (draws : ℕ → Draw) (s : ServiceSession) : Prop extends Blank s where
  draws : s.draws = draws

/-- What a session that had written nothing commits. -/
theorem Blank.committedWrites_staged {s : ServiceSession} (hs : Blank s) (writes : List Write)
    (draws : ℕ → Draw) :
    ({ s with pending := s.pending ++ writes, draws := draws } :
      ServiceSession).afterCommit.committedWrites = writes := by
  obtain ⟨hflushed, hpending⟩ := List.append_eq_nil_iff.mp hs.batch
  have hcommitted : ({ s with pending := s.pending ++ writes, draws := draws } :
      ServiceSession).committedWrites = [] := hs.committed
  rw [Session.committedWrites_afterCommit, hcommitted]
  simp [Session.batch, hflushed, hpending]

theorem snapshotTurn_ingestFor (hguar : ∀ s, guar s) {host : Host}
    (hhost : db.getHost call.hostId = some host) {s : ServiceSession} (hs : Untouched draws s) :
    (ingestFor env host call.hostId call.scanId call.observedAt.micros call.observations).Ensures
      store (Program.alone store db) guar s fun s' result =>
        SnapshotTurn env call draws db (store.applyAll s'.committedWrites db) result := by
  have hrejected (failure : Failure) :
      SnapshotTurn env call draws db (store.applyAll s.committedWrites db) (.error failure) := by
    rw [hs.committed]
    exact .rejected failure
  rw [ingestFor]
  split
  · exact hrejected _
  · next hnewer =>
      cases hcanonical : canonicalizeObservations call.observations with
      | none => exact hrejected _
      | some canonical =>
          simp only [stageSnapshot, Program.bind_eq, Program.ensures_bind, ensures_select]
          intro seen hseen
          rw [hs.view_eq hseen]
          refine ensures_whenReadable (fun _ => ?_) (hrejected _)
          refine ensures_stageDiff env (call.ingest host) _ _ _ fun later receivedAt => ?_
          simp only [ensures_commit]
          refine ⟨hguar _, fun _ _ _ => ?_, fun _ error _ _ => ?_⟩
          · change SnapshotTurn env call draws db
              (store.applyAll (Session.afterCommit _).committedWrites db) _
            rw [hs.committedWrites_staged, hs.draws]
            refine .accepted host canonical receivedAt hhost (fun last hlast => ?_) hcanonical
            rw [hlast] at hnewer
            simpa using hnewer
          · rw [Session.committedWrites_afterFailure]
            exact hrejected _

/-- A call that runs alone. -/
theorem snapshotTurn_program (env : Environment) (hguar : ∀ s, guar s) (faults : ℕ →
    Option DbError) :
    (call.program env).Ensures store (Program.alone store db) guar (Session.start draws faults)
      fun s' result => SnapshotTurn env call draws db (store.applyAll s'.committedWrites db)
          result := by
  rw [SnapshotCall.program, ingestSnapshot]
  split
  · exact .rejected _
  · let s : ServiceSession :=
      (Session.start draws faults).afterLock (env.hashtext call.hostId.text)
    have hs : Untouched draws s := ⟨⟨rfl, rfl⟩, rfl⟩
    simp only [Program.bind_eq, Program.ensures_bind, ensures_acquireHostLock, ingestLocked,
      ensures_select]
    intro seen hseen
    rw [show (Session.start draws faults : ServiceSession).afterLock _ = s from rfl,
      hs.view_eq hseen]
    cases db.scans.find? fun scan => scan.id = call.scanId with
    | some scan => exact ensures_whenReadable (fun _ => .repeated) (.rejected _)
    | none =>
        simp only [Program.ensures_bind, ensures_select]
        intro seen hseen
        rw [hs.view_eq hseen]
        cases hhost : db.getHost call.hostId with
        | none => exact .rejected _
        | some host =>
            exact ensures_whenReadable (fun _ => snapshotTurn_ingestFor hguar hhost hs) (.rejected _)

theorem snapshotTurn_next (env : Environment) (turn : Turn SnapshotCall Draw) (db : Db) :
    SnapshotTurn env turn.call turn.draws db (turn.next store (SnapshotCall.program env) db)
      (turn.answer store (SnapshotCall.program env) db) := by
  obtain ⟨s, hnext, hturn⟩ := Turn.next_eq_of_ensures turn
    (snapshotTurn_program env (fun _ => trivial : ∀ s, (fun _ => True) s) turn.faults)
  rw [hnext]
  exact hturn

end Alone

/-! ## What the last accepted snapshot says -/

/-- The answer accepts the snapshot, and not as a repetition. -/
def isAccepted : Except Failure IngestionResult → Bool
  | .ok result => result.accepted && result.reason.isNone
  | .error _ => false

/-- The snapshot of a host that a turn accepts, if it does. -/
def acceptedBy (env : Environment) (hostId : Uuid) (db : Db) (turn : Turn SnapshotCall Draw) :
    List SnapshotCall :=
  if isAccepted (turn.answer store (SnapshotCall.program env) db) ∧ turn.call.hostId = hostId then
    [turn.call]
  else []

/-- The accepted snapshots of a host, the last one first. -/
def acceptedCalls (env : Environment) (hostId : Uuid) :
    List (Turn SnapshotCall Draw) → Db → List SnapshotCall
  | [], _ => []
  | turn :: turns, db =>
      acceptedCalls env hostId turns (turn.next store (SnapshotCall.program env) db) ++
        acceptedBy env hostId db turn

theorem acceptedCalls_concat (env : Environment) (hostId : Uuid)
    (turns : List (Turn SnapshotCall Draw)) (last : Turn SnapshotCall Draw) (db : Db) :
    acceptedCalls env hostId (turns ++ [last]) db =
      acceptedBy env hostId (Turn.runAll store (SnapshotCall.program env) turns db) last ++
        acceptedCalls env hostId turns db := by
  induction turns generalizing db with
  | nil => simp [acceptedCalls]
  | cons turn turns ih => simp [acceptedCalls, ih]

/-- A row, but for its identifier. -/
def CurrentPortObservation.content (row : CurrentPortObservation) : CurrentPortObservation :=
  { row with id := ⟨0⟩ }

/-- What is current after accepted snapshots, the last one first: the bindings of the last
one, each with its canonical observation, and with the `first_seen` of the snapshot in which
it last appeared. -/
def currentView (env : Environment) (hostId : Uuid) :
    List SnapshotCall → BindingKey → Option CurrentPortObservation
  | [], _ => none
  | call :: earlier, key =>
      (canonical call.observations key).map fun obs =>
        let row := currentRow env hostId obs call.scanId call.observedAt.micros ⟨0⟩
        match currentView env hostId earlier key with
        | none => row
        | some before => { row with firstSeen := before.firstSeen }

/-- The identifiers a turn may draw for its observations: three for each. -/
def drawnIds (turn : Turn SnapshotCall Draw) : List Uuid :=
  (List.range (3 * turn.call.observations.length)).map fun n => (turn.draws n).uuid

/-- The identifiers that are drawn along the turns are all different. -/
def Unrepeated (turns : List (Turn SnapshotCall Draw)) : Prop := (turns.flatMap drawnIds).Nodup

section Runs

variable {env : Environment} {hostId : Uuid} {done : List (Turn SnapshotCall Draw)}
  {turn : Turn SnapshotCall Draw} {db start : Db}

/-- What holds of the contents once some turns are done. -/
structure RowsKept (done : List (Turn SnapshotCall Draw)) (db : Db) : Prop where
  tidy : db.Tidy
  drawn : ∀ id ∈ db.current.map CurrentPortObservation.id, id ∈ done.flatMap drawnIds

/-- The accepted snapshot of a turn, with all that is known of it. -/
structure Accepted (env : Environment) (turn : Turn SnapshotCall Draw) (db : Db) (host : Host)
    (found : List ObservationIn) : Prop where
  known : db.getHost turn.call.hostId = some host
  newer : ∀ last, host.lastScanObservedAt = some last → last < turn.call.observedAt.micros
  canonical : canonicalizeObservations turn.call.observations = some found
  next : ∃ receivedAt, turn.next store (SnapshotCall.program env) db =
    store.applyAll (scanWrites (turn.call.ingest host) turn.call.observations.length receivedAt)
      (store.applyAll ((turn.call.diff host db turn.draws found).flatMap
        (Change.writes env (turn.call.ingest host))) db)
  answer : turn.answer store (SnapshotCall.program env) db =
    .ok (diffResult (turn.call.ingest host) turn.call.observations found
      (turn.call.diff host db turn.draws found))

/-- A turn is accepted, or it changes nothing. -/
theorem accepted_or_unchanged (env : Environment) (turn : Turn SnapshotCall Draw) (db : Db) :
    (isAccepted (turn.answer store (SnapshotCall.program env) db) = false ∧
        turn.next store (SnapshotCall.program env) db = db ∧
        ∀ result, turn.answer store (SnapshotCall.program env) db = .ok result →
          result.appeared = 0 ∧ result.changed = 0 ∧ result.disappeared = 0) ∨
      isAccepted (turn.answer store (SnapshotCall.program env) db) = true ∧
        ∃ host found, Accepted env turn db host found := by
  have hturn := snapshotTurn_next env turn db
  generalize hnext : turn.next store (SnapshotCall.program env) db = later at hturn
  generalize hanswer : turn.answer store (SnapshotCall.program env) db = answer at hturn
  cases hturn with
  | rejected failure => exact .inl ⟨rfl, rfl, fun _ hresult => by cases hresult⟩
  | repeated =>
      refine .inl ⟨rfl, rfl, fun _ hresult => ?_⟩
      cases hresult
      exact ⟨rfl, rfl, rfl⟩
  | accepted host found receivedAt hhost hnewer hcanonical =>
      refine .inr ⟨rfl, host, found, hhost, hnewer, hcanonical, ⟨receivedAt, ?_⟩, hanswer⟩
      rw [hnext, Store.applyAll_append]

theorem applyAll_scanWrites (ingest : Ingest) (count : ℕ) (receivedAt : ℤ) (db : Db) :
    (store.applyAll (scanWrites ingest count receivedAt) db).current = db.current ∧
      (store.applyAll (scanWrites ingest count receivedAt) db).events = db.events ∧
      (store.applyAll (scanWrites ingest count receivedAt) db).hosts =
        db.hosts.map fun host => if host.id = ingest.hostId then
          { host with lastScanObservedAt := some ingest.observedAt, lastSeen := ingest.observedAt }
        else host := by
  simp [scanWrites, Write.apply]

/-- The events of an accepted snapshot are those of its changes. -/
theorem Accepted.events {host : Host} {found : List ObservationIn}
    (h : Accepted env turn db host found) :
    (turn.next store (SnapshotCall.program env) db).events =
      db.events ++ (turn.call.diff host db turn.draws found).filterMap
        (Change.event (turn.call.ingest host)) := by
  obtain ⟨receivedAt, hnext⟩ := h.next
  rw [hnext, (applyAll_scanWrites _ _ _ _).2.1, (applyAll_changes _ _).1]

theorem mem_drawnIds {n : ℕ} (h : n < 3 * turn.call.observations.length) :
    (turn.draws n).uuid ∈ drawnIds turn :=
  List.mem_map.mpr ⟨n, List.mem_range.mpr h, rfl⟩

theorem Accepted.length_le {host : Host} {found : List ObservationIn}
    (h : Accepted env turn db host found) : found.length ≤ turn.call.observations.length :=
  length_canonicalizeObservations_le h.canonical

/-- The identifiers a turn draws are new. -/
theorem RowsKept.fresh (h : RowsKept done db) (hdraws : Unrepeated (done ++ [turn])) {n : ℕ}
    (hn : n < 3 * turn.call.observations.length) :
    (turn.draws n).uuid ∉ db.current.map CurrentPortObservation.id := by
  intro hmem
  rw [Unrepeated, List.flatMap_append, List.flatMap_singleton, List.nodup_append] at hdraws
  exact hdraws.2.2 _ (h.drawn _ hmem) _ (mem_drawnIds hn) rfl

/-- A turn draws every identifier once. -/
theorem Unrepeated.draws_inj (hdraws : Unrepeated (done ++ [turn])) :
    ∀ j < 3 * turn.call.observations.length, ∀ k < 3 * turn.call.observations.length,
      (turn.draws j).uuid = (turn.draws k).uuid → j = k := by
  rw [Unrepeated, List.flatMap_append, List.flatMap_singleton, List.nodup_append] at hdraws
  intro j hj k hk hsame
  exact List.inj_on_of_nodup_map hdraws.2.1 (List.mem_range.mpr hj) (List.mem_range.mpr hk) hsame

/-- What an accepted snapshot does to the rows. -/
theorem Accepted.effects {host : Host} {found : List ObservationIn}
    (h : Accepted env turn db host found) (hkept : RowsKept done db)
    (hdraws : Unrepeated (done ++ [turn])) :
    Effects env (turn.call.ingest host) (turn.call.diff host db turn.draws found) db
      (turn.next store (SnapshotCall.program env) db) := by
  obtain ⟨receivedAt, hnext⟩ := h.next
  have hle := h.length_le
  have heffects := effects_diff env (turn.call.ingest host) hkept.tidy
    (nodup_canonicalizeObservations h.canonical)
    (fun j hj k hk => hdraws.draws_inj j (by omega) k (by omega))
    fun n hn => hkept.fresh hdraws (by omega)
  have hcurrent : (turn.next store (SnapshotCall.program env) db).current =
      (store.applyAll ((turn.call.diff host db turn.draws found).flatMap
        (Change.writes env (turn.call.ingest host))) db).current := by
    rw [hnext, (applyAll_scanWrites _ _ _ _).1]
  have hrows : ∀ slot, (turn.next store (SnapshotCall.program env) db).rowsAt slot =
      (store.applyAll ((turn.call.diff host db turn.draws found).flatMap
        (Change.writes env (turn.call.ingest host))) db).rowsAt slot := fun slot => by
    rw [Db.rowsAt, hcurrent]
    rfl
  exact ⟨fun change hchange => (hrows _).trans (heffects.own change hchange),
    fun slot hslot => (hrows _).trans (heffects.others slot hslot), hcurrent ▸ heffects.ids,
    hcurrent ▸ heffects.known⟩

theorem RowsKept.concat (env : Environment) (hkept : RowsKept done db)
    (hdraws : Unrepeated (done ++ [turn])) :
    RowsKept (done ++ [turn]) (turn.next store (SnapshotCall.program env) db) := by
  have hold : ∀ id ∈ db.current.map CurrentPortObservation.id,
      id ∈ (done ++ [turn]).flatMap drawnIds := fun id hid => by
    rw [List.flatMap_append]
    exact List.mem_append_left _ (hkept.drawn id hid)
  rcases accepted_or_unchanged env turn db with ⟨-, hsame, -⟩ | ⟨-, host, found, h⟩
  · rw [hsame]
    exact ⟨hkept.tidy, hold⟩
  · have heffects := h.effects hkept hdraws
    refine ⟨heffects.tidy hkept.tidy, fun id hid => ?_⟩
    rcases heffects.known id hid with hbefore | hnew
    · exact hold id hbefore
    · rw [SnapshotCall.diff, Central.diff, List.filterMap_append, newIds_goneFor,
        List.append_nil] at hnew
      have hle := h.length_le
      obtain ⟨n, hn, rfl⟩ := (newIds_changesFor fun j hj k hk =>
        hdraws.draws_inj j (by omega) k (by omega)).2 id hnew
      rw [List.flatMap_append, List.flatMap_singleton]
      exact List.mem_append_right _ (mem_drawnIds (by omega))

/-- The row a binding of the snapshot has afterwards: what the observation says, first seen
when the row that was there had been. -/
theorem content_after_changeFor (env : Environment) (db : Db) (ingest : Ingest) (draws : ℕ →
    Draw) (obs : ObservationIn) :
    ((changeFor ingest (db.listCurrentForHost ingest.hostId) draws obs).after env ingest).map
        CurrentPortObservation.content =
      let row := currentRow env ingest.hostId obs ingest.scanId ingest.observedAt ⟨0⟩
      match (db.listCurrentForHost ingest.hostId).find? fun row => row.key = obs.key with
      | none => some row
      | some before => some { row with firstSeen := before.firstSeen } := by
  rw [changeFor]
  cases hfind : (db.listCurrentForHost ingest.hostId).find? fun row => row.key = obs.key with
  | none => rfl
  | some existing =>
      have hkey : existing.key = obs.key := by simpa using List.find?_some hfind
      have hmem := (List.mem_filter.mp (List.mem_of_find?_eq_some hfind)).2
      have hhost : existing.hostId = ingest.hostId := of_decide_eq_true hmem
      obtain ⟨hport, hrest⟩ := Prod.mk.inj hkey
      obtain ⟨hprotocol, haddress⟩ := Prod.mk.inj hrest
      simp only
      split <;>
        simp [Change.after, CurrentPortObservation.observed, CurrentPortObservation.content,
          currentRow, hhost, hport, hprotocol, haddress]

section Own

variable {host : Host} {found : List ObservationIn}

/-- Each canonical observation is a change of the snapshot. -/
theorem exists_changeFor_mem (turn : Turn SnapshotCall Draw) (db : Db) (host : Host)
    {obs : ObservationIn} (hobs : obs ∈ found) :
    ∃ draws, changeFor (turn.call.ingest host) (db.listCurrentForHost turn.call.hostId) draws obs ∈
      turn.call.diff host db turn.draws found := by
  obtain ⟨k, hmem⟩ := exists_mem_changesFor (turn.call.ingest host)
    (db.listCurrentForHost turn.call.hostId) turn.draws hobs
  exact ⟨_, List.mem_append_left _ hmem⟩

theorem Accepted.mem_found (hfound : Accepted env turn db host found) {key : BindingKey} :
    key ∈ found.map ObservationIn.key ↔ key ∈ turn.call.observations.map ObservationIn.key := by
  rw [(canonicalizeObservations_eq hfound.canonical).1, mem_bindingOrder]

/-- A binding that is neither in the snapshot nor current is not changed. -/
theorem ne_key_of_out {key : BindingKey} (hout : key ∉ found.map ObservationIn.key)
    (hrows : db.rowsAt (turn.call.hostId, key) = []) :
    ∀ change ∈ turn.call.diff host db turn.draws found,
      (turn.call.hostId, key) ≠ (turn.call.hostId, change.key) := by
  intro change hchange hsame
  obtain rfl : key = change.key := (Prod.mk.inj hsame).2
  rcases List.mem_append.mp hchange with hfirst | hgone
  · obtain ⟨obs, hobs, k, -, rfl⟩ := mem_changesFor hfirst
    rw [key_changeFor] at hout
    exact hout (List.mem_map_of_mem hobs)
  · obtain ⟨row, hrow, -, eventId, activityId, rfl⟩ := mem_goneFor hgone
    have hmem := mem_listCurrentForHost.mp hrow
    rw [show (turn.call.hostId, row.key) = (turn.call.hostId,
      (Change.disappears row eventId activityId).key) from rfl, hrows] at hmem
    exact List.not_mem_nil hmem

/-- A binding that the snapshot lacks has no row afterwards. -/
theorem Accepted.rowsAt_out (hfound : Accepted env turn db host found) (hkept : RowsKept done db)
    (hdraws : Unrepeated (done ++ [turn])) {key : BindingKey}
    (hout : key ∉ found.map ObservationIn.key) :
    (turn.next store (SnapshotCall.program env) db).rowsAt (turn.call.hostId, key) = [] := by
  have heffects := hfound.effects hkept hdraws
  cases hrows : db.rowsAt (turn.call.hostId, key) with
  | nil =>
      rw [heffects.others _ (ne_key_of_out hout hrows)]
      exact hrows
  | cons row rows =>
      have hrow : row ∈ db.rowsAt (turn.call.hostId, key) := hrows ▸ List.mem_cons_self
      obtain ⟨-, hslot⟩ := slot_of_rowsAt hrow
      obtain rfl : row.key = key := (Prod.mk.inj hslot).2
      obtain ⟨eventId, activityId, hgone⟩ := exists_mem_goneFor
        (fun n => turn.draws (n + drawnBy (changesFor (turn.call.ingest host)
          (db.listCurrentForHost turn.call.hostId) turn.draws found)))
        (mem_listCurrentForHost.mpr hrow) hout
      exact heffects.own _ (List.mem_append_right _ hgone)

/-- After an accepted snapshot the rows are what it says. -/
theorem Accepted.view (hfound : Accepted env turn db host found) (hkept : RowsKept done db)
    (hdraws : Unrepeated (done ++ [turn])) {calls : List SnapshotCall}
    (hview : ∀ key, (db.rowsAt (turn.call.hostId, key)).map CurrentPortObservation.content =
      (currentView env turn.call.hostId calls key).toList) (key : BindingKey) :
    ((turn.next store (SnapshotCall.program env) db).rowsAt (turn.call.hostId, key)).map
        CurrentPortObservation.content =
      (currentView env turn.call.hostId (turn.call :: calls) key).toList := by
  by_cases hin : key ∈ found.map ObservationIn.key
  · obtain ⟨obs, hobs, rfl⟩ := List.mem_map.mp hin
    obtain ⟨draws, hchange⟩ := exists_changeFor_mem turn db host hobs
    have hown := (hfound.effects hkept hdraws).own _ hchange
    rw [key_changeFor] at hown
    have hbefore : ((db.listCurrentForHost turn.call.hostId).find? fun row => row.key = obs.key).map
        CurrentPortObservation.content = currentView env turn.call.hostId calls obs.key := by
      have hrows := hview obs.key
      rw [hkept.tidy.rowsAt_find, ← Option.toList_map] at hrows
      simpa using congrArg List.head? hrows
    have hcontent := content_after_changeFor env db (turn.call.ingest host) draws obs
    change (turn.next store (SnapshotCall.program env) db).rowsAt (turn.call.hostId, obs.key) = _
      at hown
    rw [hown, ← Option.toList_map]
    refine congrArg Option.toList (hcontent.trans ?_)
    rw [currentView, (canonicalizeObservations_eq hfound.canonical).2 obs hobs, ← hbefore]
    change (match (db.listCurrentForHost turn.call.hostId).find? fun row => row.key = obs.key with
      | none => _ | some before => _) = _
    cases (db.listCurrentForHost turn.call.hostId).find? fun row => row.key = obs.key <;> rfl
  · rw [hfound.rowsAt_out hkept hdraws hin, currentView,
      canonical_eq_none fun hmem => hin (hfound.mem_found.mpr hmem)]
    rfl

/-- The events of a binding tell how it came to be there, or not. -/
def Db.Told (db : Db) (slot : Slot) : Prop :=
  History ((db.eventsAt slot).map PortObservationEvent.eventType) (!(db.rowsAt slot).isEmpty)

theorem isEmpty_toList (row : Option CurrentPortObservation) :
    (!row.toList.isEmpty) = row.isSome := by
  cases row <;> rfl

/-- An accepted snapshot continues the history of every binding. -/
theorem Accepted.told (hfound : Accepted env turn db host found) (hkept : RowsKept done db)
    (hdraws : Unrepeated (done ++ [turn])) {slot : Slot} (htold : db.Told slot) :
    (turn.next store (SnapshotCall.program env) db).Told slot := by
  have heffects := hfound.effects hkept hdraws
  have hfits : ∀ change ∈ turn.call.diff host db turn.draws found,
      change.Fits (turn.call.ingest host) db :=
    fits_diff hkept.tidy fun n hn =>
      hkept.fresh hdraws (hn.trans_le (Nat.mul_le_mul_left 3 hfound.length_le))
  have hkeys : ((turn.call.diff host db turn.draws found).map Change.key).Nodup :=
    nodup_keys_diff (nodup_canonicalizeObservations hfound.canonical) (hkept.tidy.nodup_keys _)
  have hevents : (turn.next store (SnapshotCall.program env) db).eventsAt slot =
      db.eventsAt slot ++ ((turn.call.diff host db turn.draws found).filterMap
        (Change.event (turn.call.ingest host))).filter fun event => event.slot = slot := by
    rw [Db.eventsAt, hfound.events, List.filter_append]
    rfl
  rw [Db.Told, hevents, List.map_append]
  by_cases hslot : ∃ change ∈ turn.call.diff host db turn.draws found,
      slot = ((turn.call.ingest host).hostId, change.key)
  · obtain ⟨change, hchange, rfl⟩ := hslot
    rw [Db.Told, (hfits change hchange).before, isEmpty_toList] at htold
    rw [heffects.own change hchange, isEmpty_toList, filter_events hkeys hfits hchange,
      ← Option.toList_map, Change.eventType_event]
    exact change.history htold
  · push Not at hslot
    rw [heffects.others slot hslot, filter_events_other hfits hslot, List.map_nil, List.append_nil]
    exact htold

/-- The time of the last scan after an accepted snapshot. -/
theorem Accepted.lastScan (hfound : Accepted env turn db host found) (hostId : Uuid) :
    ((turn.next store (SnapshotCall.program env) db).getHost hostId).map Host.lastScanObservedAt =
      if turn.call.hostId = hostId then some (some turn.call.observedAt.micros)
      else (db.getHost hostId).map Host.lastScanObservedAt := by
  obtain ⟨receivedAt, hnext⟩ := hfound.next
  have hhosts := (applyAll_scanWrites (turn.call.ingest host) turn.call.observations.length
    receivedAt (store.applyAll ((turn.call.diff host db turn.draws found).flatMap
      (Change.writes env (turn.call.ingest host))) db)).2.2
  rw [(applyAll_changes _ _).2] at hhosts
  rw [hnext, Db.getHost_map (fun row => by split <;> rfl) hhosts, Option.map_map]
  cases hget : db.getHost hostId with
  | none =>
      split
      · next hsame =>
          rw [← hsame, hfound.known] at hget
          cases hget
      · rfl
  | some row =>
      have hid : row.id = hostId := by simpa [Db.getHost] using List.find?_some hget
      simp only [Option.map_some, Function.comp_apply]
      rw [hid, show (turn.call.ingest host).hostId = turn.call.hostId from rfl]
      by_cases hsame : turn.call.hostId = hostId
      · rw [if_pos hsame, if_pos hsame.symm]
        rfl
      · rw [if_neg hsame, if_neg (Ne.symm hsame)]

end Own

/-- What holds of a host once some turns are done. -/
structure RunKept (env : Environment) (hostId : Uuid) (done : List (Turn SnapshotCall Draw))
    (db start : Db) : Prop extends RowsKept done db where
  view : ∀ key, (db.rowsAt (hostId, key)).map CurrentPortObservation.content =
    (currentView env hostId (acceptedCalls env hostId done start) key).toList
  told : ∀ slot, db.Told slot
  increasing : (acceptedCalls env hostId done start).Pairwise fun later earlier =>
    earlier.observedAt.micros < later.observedAt.micros
  lastScan : ∀ call, (acceptedCalls env hostId done start).head? = some call →
    (db.getHost hostId).map Host.lastScanObservedAt = some (some call.observedAt.micros)

/-- The times of accepted snapshots increase when one is newer than the last scan. -/
theorem increasing_cons {host : Host} {call : SnapshotCall} {calls : List SnapshotCall}
    (hhost : db.getHost hostId = some host)
    (hnewer : ∀ last, host.lastScanObservedAt = some last → last < call.observedAt.micros)
    (hincreasing : calls.Pairwise fun later earlier =>
      earlier.observedAt.micros < later.observedAt.micros)
    (hlast : ∀ call, calls.head? = some call →
      (db.getHost hostId).map Host.lastScanObservedAt = some (some call.observedAt.micros)) :
    (call :: calls).Pairwise fun later earlier =>
      earlier.observedAt.micros < later.observedAt.micros := by
  refine List.pairwise_cons.mpr ⟨fun earlier hearlier => ?_, hincreasing⟩
  cases calls with
  | nil => cases hearlier
  | cons last calls =>
      have hscan := hlast last rfl
      rw [hhost, Option.map_some, Option.some.injEq] at hscan
      have hbefore := hnewer _ hscan
      rcases List.mem_cons.mp hearlier with rfl | hmem
      · exact hbefore
      · exact ((List.pairwise_cons.mp hincreasing).1 earlier hmem).trans hbefore

/-- A turn keeps what holds of a host. -/
theorem RunKept.concat (hkept : RunKept env hostId done db start)
    (hdb : db = Turn.runAll store (SnapshotCall.program env) done start)
    (hdraws : Unrepeated (done ++ [turn])) :
    RunKept env hostId (done ++ [turn]) (turn.next store (SnapshotCall.program env) db) start := by
  have hrows := hkept.toRowsKept.concat env hdraws
  have hcalls := acceptedCalls_concat env hostId done turn start
  rw [← hdb] at hcalls
  rcases accepted_or_unchanged env turn db with ⟨hnot, hsame, -⟩ | ⟨haccepted, host, found, hfound⟩
  · have hnone : acceptedBy env hostId db turn = [] := by simp [acceptedBy, hnot]
    rw [hnone, List.nil_append] at hcalls
    refine ⟨hrows, ?_, ?_, ?_, ?_⟩
    · rw [hcalls, hsame]
      exact hkept.view
    · rw [hsame]
      exact hkept.told
    · rw [hcalls]
      exact hkept.increasing
    · rw [hcalls, hsame]
      exact hkept.lastScan
  · have htold := fun slot => hfound.told hkept.toRowsKept hdraws (hkept.told slot)
    have hscan := hfound.lastScan hostId
    by_cases hhost : turn.call.hostId = hostId
    · subst hhost
      have hone : acceptedBy env turn.call.hostId db turn = [turn.call] := by
        simp [acceptedBy, haccepted]
      rw [hone, List.singleton_append] at hcalls
      rw [if_pos rfl] at hscan
      refine ⟨hrows, ?_, htold, ?_, ?_⟩
      · rw [hcalls]
        exact hfound.view hkept.toRowsKept hdraws hkept.view
      · rw [hcalls]
        exact increasing_cons hfound.known hfound.newer hkept.increasing hkept.lastScan
      · rw [hcalls]
        rintro call ⟨⟩
        exact hscan
    · have hnone : acceptedBy env hostId db turn = [] := by simp [acceptedBy, hhost]
      rw [hnone, List.nil_append] at hcalls
      rw [if_neg hhost] at hscan
      refine ⟨hrows, ?_, htold, ?_, ?_⟩
      · rw [hcalls]
        intro key
        have hother : ∀ change ∈ turn.call.diff host db turn.draws found,
            (hostId, key) ≠ ((turn.call.ingest host).hostId, change.key) :=
          fun change _ hsame => hhost (Prod.mk.inj hsame).1.symm
        rw [(hfound.effects hkept.toRowsKept hdraws).others _ hother]
        exact hkept.view key
      · rw [hcalls]
        exact hkept.increasing
      · rw [hcalls, hscan]
        exact hkept.lastScan

/-- The contents before any snapshot. -/
structure Db.Unscanned (db : Db) : Prop where
  current : db.current = []
  events : db.events = []

theorem Unrepeated.of_concat (h : Unrepeated (done ++ [turn])) : Unrepeated done := by
  rw [Unrepeated, List.flatMap_append, List.nodup_append] at h
  exact h.1

/-- What holds of a host along every run of snapshots. -/
theorem runKept_runAll (env : Environment) (hostId : Uuid) (hstart : start.Unscanned)
    {turns : List (Turn SnapshotCall Draw)} (hdraws : Unrepeated turns) :
    RunKept env hostId turns (Turn.runAll store (SnapshotCall.program env) turns start) start := by
  induction turns using List.reverseRecOn with
  | nil =>
      have hrows : ∀ slot, start.rowsAt slot = [] := fun slot => by
        rw [Db.rowsAt, hstart.current]
        rfl
      refine ⟨⟨⟨?_, fun slot => ?_⟩, ?_⟩, fun key => ?_, fun slot => ?_, .nil, fun _ h => ?_⟩
      · rw [Turn.runAll_nil, hstart.current]
        exact List.nodup_nil
      · rw [Turn.runAll_nil, hrows]
        exact Nat.zero_le _
      · rw [Turn.runAll_nil, hstart.current]
        exact fun _ hid => (List.not_mem_nil hid).elim
      · rw [Turn.runAll_nil, hrows]
        rfl
      · rw [Turn.runAll_nil, Db.Told, hrows, Db.eventsAt, hstart.events]
        exact .start
      · cases h
  | append_singleton done turn ih =>
      rw [Turn.runAll_append]
      exact (ih hdraws.of_concat).concat rfl hdraws

/-! ## Current state -/

theorem mem_keys_iff {key : BindingKey} :
    key ∈ (db.listCurrentForHost hostId).map CurrentPortObservation.key ↔
      db.rowsAt (hostId, key) ≠ [] := by
  constructor
  · intro hmem hnil
    obtain ⟨row, hrow, rfl⟩ := List.mem_map.mp hmem
    exact List.not_mem_nil (hnil ▸ mem_listCurrentForHost.mp hrow)
  · intro hne
    obtain ⟨row, hrow⟩ := List.exists_mem_of_ne_nil _ hne
    obtain ⟨-, hslot⟩ := slot_of_rowsAt hrow
    obtain rfl : row.key = key := (Prod.mk.inj hslot).2
    exact List.mem_map_of_mem (mem_listCurrentForHost.mpr hrow)

/-- The state of a host after a run: it is what the accepted snapshots say, and it changes with
an accepted one only. -/
structure StateFollows (env : Environment) (hostId : Uuid) (turns : List (Turn SnapshotCall Draw))
    (start : Db) : Prop where
  /-- Every binding has the row that the accepted snapshots give it, or none. -/
  rows : ∀ key, ((Turn.runAll store (SnapshotCall.program env) turns start).rowsAt
      (hostId, key)).map CurrentPortObservation.content =
    (currentView env hostId (acceptedCalls env hostId turns start) key).toList
  /-- The bindings are those of the last accepted snapshot. -/
  keys : ∀ key, key ∈ ((Turn.runAll store (SnapshotCall.program env) turns
      start).listCurrentForHost hostId).map CurrentPortObservation.key ↔
    ∃ call, (acceptedCalls env hostId turns start).head? = some call ∧
      key ∈ call.observations.map ObservationIn.key
  single : (((Turn.runAll store (SnapshotCall.program env) turns
    start).listCurrentForHost hostId).map CurrentPortObservation.key).Nodup
  increasing : (acceptedCalls env hostId turns start).Pairwise fun later earlier =>
    earlier.observedAt.micros < later.observedAt.micros
  lastScan : ∀ call, (acceptedCalls env hostId turns start).head? = some call →
    ((Turn.runAll store (SnapshotCall.program env) turns start).getHost hostId).map
      Host.lastScanObservedAt = some (some call.observedAt.micros)
  /-- A call that is rejected or answered as a repetition changes nothing. -/
  rejected : ∀ turn : Turn SnapshotCall Draw,
    isAccepted (turn.answer store (SnapshotCall.program env)
      (Turn.runAll store (SnapshotCall.program env) turns start)) = false →
    turn.next store (SnapshotCall.program env)
        (Turn.runAll store (SnapshotCall.program env) turns start) =
      Turn.runAll store (SnapshotCall.program env) turns start

/-- A snapshot that has been accepted could be made canonical. -/
theorem canonical_isSome {call : SnapshotCall}
    (h : (acceptedCalls env hostId done start).head? = some call) :
    ∃ found, canonicalizeObservations call.observations = some found := by
  induction done using List.reverseRecOn with
  | nil => cases h
  | append_singleton done turn ih =>
      rw [acceptedCalls_concat] at h
      rcases accepted_or_unchanged env turn
        (Turn.runAll store (SnapshotCall.program env) done start) with
        ⟨hnot, -, -⟩ | ⟨-, host, found, hfound⟩
      · exact ih (by simpa [acceptedBy, hnot] using h)
      · rw [acceptedBy] at h
        split at h
        · cases h
          exact ⟨found, hfound.canonical⟩
        · exact ih (by simpa using h)

/-- The bindings that a list of accepted snapshots makes current. -/
theorem currentView_ne_none {calls : List SnapshotCall} {key : BindingKey}
    (h : ∀ call, calls.head? = some call →
      ∃ found, canonicalizeObservations call.observations = some found) :
    currentView env hostId calls key ≠ none ↔
      ∃ call, calls.head? = some call ∧ key ∈ call.observations.map ObservationIn.key := by
  cases calls with
  | nil => simp [currentView]
  | cons call calls =>
      obtain ⟨found, hfound⟩ := h call rfl
      obtain ⟨hkeys, hcanonical⟩ := canonicalizeObservations_eq hfound
      rw [currentView, ne_eq, Option.map_eq_none_iff]
      constructor
      · intro hsome
        refine ⟨call, rfl, ?_⟩
        by_contra hout
        exact hsome (canonical_eq_none hout)
      · rintro ⟨_, ⟨⟩, hmem⟩ hnone
        rw [← mem_bindingOrder, ← hkeys] at hmem
        obtain ⟨obs, hobs, rfl⟩ := List.mem_map.mp hmem
        rw [hcanonical obs hobs] at hnone
        cases hnone

/-- Along every run of snapshots, whatever their order and repetitions. -/
theorem state_follows (env : Environment) (hostId : Uuid) (hstart : start.Unscanned)
    {turns : List (Turn SnapshotCall Draw)} (hdraws : Unrepeated turns) :
    StateFollows env hostId turns start := by
  have hkept := runKept_runAll env hostId hstart hdraws
  refine ⟨hkept.view, fun key => ?_, hkept.tidy.nodup_keys hostId, hkept.increasing,
    hkept.lastScan, fun turn hnot => ?_⟩
  · rw [mem_keys_iff, ← currentView_ne_none fun call hcall => canonical_isSome hcall]
    have hview := hkept.view key
    rw [ne_eq, ne_eq, not_iff_not]
    constructor
    · intro hnil
      rw [hnil] at hview
      exact Option.toList_eq_nil_iff.mp hview.symm
    · intro hnone
      rw [hnone] at hview
      exact List.map_eq_nil_iff.mp hview
  · rcases accepted_or_unchanged env turn
      (Turn.runAll store (SnapshotCall.program env) turns start) with ⟨-, hsame, -⟩ | ⟨hyes, -⟩
    · exact hsame
    · rw [hyes] at hnot
      cases hnot

/-! ## History -/

/-- The history of a host after a run. -/
structure HistoryFollows (env : Environment) (hostId : Uuid)
    (turns : List (Turn SnapshotCall Draw)) (start : Db) : Prop where
  /-- The events of a binding replay how it came to be current, or not. -/
  replay : ∀ key, ∃ there, History (((Turn.runAll store (SnapshotCall.program env) turns
      start).eventsAt (hostId, key)).map PortObservationEvent.eventType) there ∧
    (there = true ↔ key ∈ ((Turn.runAll store (SnapshotCall.program env) turns
      start).listCurrentForHost hostId).map CurrentPortObservation.key)
  latest : ∀ key, key ∈ ((Turn.runAll store (SnapshotCall.program env) turns
      start).listCurrentForHost hostId).map CurrentPortObservation.key ↔
    ∃ last, (((Turn.runAll store (SnapshotCall.program env) turns start).eventsAt
      (hostId, key)).map PortObservationEvent.eventType).getLast? = some last ∧
        last ≠ .disappeared
  /-- The observations of the last accepted snapshot, submitted again, write no event. -/
  resubmitted : ∀ turn : Turn SnapshotCall Draw, turn.call.hostId = hostId →
    (∃ call, (acceptedCalls env hostId turns start).head? = some call ∧
      turn.call.observations = call.observations) →
    (turn.next store (SnapshotCall.program env)
        (Turn.runAll store (SnapshotCall.program env) turns start)).events =
      (Turn.runAll store (SnapshotCall.program env) turns start).events
  /-- What a call counts is what it writes. -/
  counted : ∀ (turn : Turn SnapshotCall Draw) (result : IngestionResult),
    turn.answer store (SnapshotCall.program env)
        (Turn.runAll store (SnapshotCall.program env) turns start) = .ok result →
    ∃ events, (turn.next store (SnapshotCall.program env)
        (Turn.runAll store (SnapshotCall.program env) turns start)).events =
        (Turn.runAll store (SnapshotCall.program env) turns start).events ++ events ∧
      result.appeared = events.countP (fun event => event.eventType = .appeared) ∧
      result.changed = events.countP (fun event => event.eventType = .changed) ∧
      result.disappeared = events.countP (fun event => event.eventType = .disappeared)

/-- A row that says what the observation says has not changed. -/
theorem meaningfullyChanged_content {row : CurrentPortObservation} {obs : ObservationIn} :
    meaningfullyChanged row.content obs = meaningfullyChanged row obs := rfl

/-- The observations that the rows come from change none of them. -/
theorem Accepted.resubmitted {host : Host} {found : List ObservationIn}
    (hfound : Accepted env turn db host found) (htidy : db.Tidy) {call : SnapshotCall}
    {calls : List SnapshotCall} (hsame : turn.call.observations = call.observations)
    (hview : ∀ key, (db.rowsAt (turn.call.hostId, key)).map CurrentPortObservation.content =
      (currentView env turn.call.hostId (call :: calls) key).toList) :
    (turn.next store (SnapshotCall.program env) db).events = db.events := by
  have hnone : (turn.call.diff host db turn.draws found).filterMap
      (Change.event (turn.call.ingest host)) = [] := by
    refine List.filterMap_eq_nil_iff.mpr fun change hchange => ?_
    rcases List.mem_append.mp hchange with hfirst | hgone
    · obtain ⟨obs, hobs, k, -, rfl⟩ := mem_changesFor hfirst
      have hrows := hview obs.key
      rw [htidy.rowsAt_find, currentView, ← hsame,
        (canonicalizeObservations_eq hfound.canonical).2 obs hobs] at hrows
      rw [changeFor]
      cases hfind : (db.listCurrentForHost turn.call.hostId).find? fun row => row.key = obs.key with
      | none =>
          rw [hfind] at hrows
          cases hrows
      | some existing =>
          rw [hfind] at hrows
          have hcontent : existing.content = _ := (List.cons.inj hrows).1
          have hstays : meaningfullyChanged existing obs = false := by
            rw [← meaningfullyChanged_content, hcontent]
            split <;> simp [meaningfullyChanged, currentRow]
          simp [hstays, Change.event]
    · obtain ⟨row, hrow, hout, eventId, activityId, rfl⟩ := mem_goneFor hgone
      have hrows := hview row.key
      rw [htidy.rowsAt_eq (mem_listCurrentForHost.mp hrow), currentView, ← hsame,
        canonical_eq_none fun hmem => hout (hfound.mem_found.mpr hmem)] at hrows
      cases hrows
  rw [hfound.events, hnone, List.append_nil]

/-- Along every run of snapshots. -/
theorem history_follows (env : Environment) (hostId : Uuid) (hstart : start.Unscanned)
    {turns : List (Turn SnapshotCall Draw)} (hdraws : Unrepeated turns) :
    HistoryFollows env hostId turns start := by
  have hkept := runKept_runAll env hostId hstart hdraws
  have hthere : ∀ key, (!((Turn.runAll store (SnapshotCall.program env) turns start).rowsAt
      (hostId, key)).isEmpty) = true ↔ key ∈ ((Turn.runAll store (SnapshotCall.program env) turns
        start).listCurrentForHost hostId).map CurrentPortObservation.key := fun key => by
    rw [mem_keys_iff]
    simp
  refine ⟨fun key => ⟨_, hkept.told (hostId, key), hthere key⟩, fun key => ?_,
    fun turn hhost hlast => ?_, fun turn result hresult => ?_⟩
  · rw [← hthere key]
    exact (hkept.told (hostId, key)).latest
  · obtain ⟨call, hcall, hsame⟩ := hlast
    rcases accepted_or_unchanged env turn
      (Turn.runAll store (SnapshotCall.program env) turns start) with
      ⟨-, hunchanged, -⟩ | ⟨-, host, found, hfound⟩
    · rw [hunchanged]
    · subst hhost
      obtain ⟨calls, hcalls⟩ := List.head?_eq_some_iff.mp hcall
      have hview := hkept.view
      rw [hcalls] at hview
      exact hfound.resubmitted hkept.tidy hsame hview
  · rcases accepted_or_unchanged env turn
      (Turn.runAll store (SnapshotCall.program env) turns start) with
      ⟨-, hunchanged, hzero⟩ | ⟨-, host, found, hfound⟩
    · rw [hunchanged]
      exact ⟨[], (List.append_nil _).symm, hzero result hresult⟩
    · rw [hfound.answer] at hresult
      cases hresult
      refine ⟨_, hfound.events, ?_⟩
      simp only [countP_events]
      exact ⟨rfl, rfl, rfl⟩

end Runs

/-- A listener on a port of the sample host. -/
def sampleObservation (port : ℕ) : ObservationIn where
  port := port
  protocol := .tcp
  bindAddress := defaultBindAddress
  state := "ACTIVE"
  source := "system"
  pid := none
  processName := none
  processPath := none
  workingDirectory := none
  containerId := none
  containerName := none
  containerImage := none
  containerPort := none
  dockerComposeProject := none
  serviceName := none
  projectName := none
  purpose := none
  category := none
  detectionConfidence := none
  firstSeen := ⟨0, true⟩
  lastSeen := ⟨0, true⟩

/-- Ports 8000 and 8080 are observed, then port 8080 alone. -/
def snapshotTurns : List (Turn SnapshotCall Draw) :=
  [⟨⟨sampleHost.id, ⟨50⟩, ⟨5, true⟩, [sampleObservation 8000, sampleObservation 8080], 1000⟩,
      sampleDraws 100, fun _ => none⟩,
    ⟨⟨sampleHost.id, ⟨51⟩, ⟨9, true⟩, [sampleObservation 8080], 1000⟩,
      sampleDraws 200, fun _ => none⟩]

theorem unrepeated_snapshotTurns : Unrepeated snapshotTurns := by
  change (snapshotTurns.flatMap drawnIds).Nodup
  decide

theorem state_follows_sample :
    ((Turn.runAll store (SnapshotCall.program sampleEnvironment) snapshotTurns
        sampleDb).listCurrentForHost sampleHost.id).map CurrentPortObservation.key =
      [(8080, .tcp, defaultBindAddress)] ∧
    StateFollows sampleEnvironment sampleHost.id snapshotTurns sampleDb :=
  ⟨rfl, state_follows sampleEnvironment sampleHost.id ⟨rfl, rfl⟩
    unrepeated_snapshotTurns⟩

theorem history_follows_sample :
    ((Turn.runAll store (SnapshotCall.program sampleEnvironment) snapshotTurns sampleDb).eventsAt
        (sampleHost.id, 8000, .tcp, defaultBindAddress)).map PortObservationEvent.eventType =
      [.appeared, .disappeared] ∧
    HistoryFollows sampleEnvironment sampleHost.id snapshotTurns sampleDb :=
  ⟨rfl, history_follows sampleEnvironment sampleHost.id ⟨rfl, rfl⟩
    unrepeated_snapshotTurns⟩

end Central
