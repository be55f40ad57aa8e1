/-
# What a snapshot changes

A snapshot is compared with the current rows of its host binding by binding: a binding
appears, changes, stays or disappears. Ingestion stages exactly the writes of these
changes, and each of them touches the row and the events of its own binding only.
-/

import PortForge.Central.SnapshotBatches

namespace Central

open Transaction

/-- A binding of a host. -/
abbrev Slot := Uuid × BindingKey

def CurrentPortObservation.slot (row : CurrentPortObservation) : Slot := (row.hostId, row.key)

def PortObservationEvent.slot (event : PortObservationEvent) : Slot :=
  (event.hostId, event.port, event.protocol, event.bindAddress)

/-- The current rows of a binding. -/
def Db.rowsAt (db : Db) (slot : Slot) : List CurrentPortObservation :=
  db.current.filter fun row => row.slot = slot

/-- The events of a binding, in the order in which they were recorded. -/
def Db.eventsAt (db : Db) (slot : Slot) : List PortObservationEvent :=
  db.events.filter fun event => event.slot = slot

/-- What a snapshot makes of one binding. -/
inductive Change
  | appears (obs : ObservationIn) (id eventId : Uuid) (activityId : Option Uuid)
  | changes (existing : CurrentPortObservation) (obs : ObservationIn) (eventId : Uuid)
  | stays (existing : CurrentPortObservation) (obs : ObservationIn)
  | disappears (row : CurrentPortObservation) (eventId activityId : Uuid)

namespace Change

/-- The binding that is concerned. -/
def key : Change → BindingKey
  | appears obs _ _ _ => obs.key
  | changes existing _ _ => existing.key
  | stays existing _ => existing.key
  | disappears row _ _ => row.key

/-- The kind of event the change is recorded with, if any. -/
def kind : Change → Option PortEventType
  | appears _ _ _ _ => some .appeared
  | changes _ _ _ => some .changed
  | stays _ _ => none
  | disappears _ _ _ => some .disappeared

/-- How many values the change draws. -/
def drawn : Change → ℕ
  | appears _ _ _ none => 2
  | appears _ _ _ (some _) => 3
  | changes _ _ _ => 1
  | stays _ _ => 0
  | disappears _ _ _ => 2

/-- The row the binding has before. -/
def before : Change → Option CurrentPortObservation
  | appears _ _ _ _ => none
  | changes existing _ _ => some existing
  | stays existing _ => some existing
  | disappears row _ _ => some row

/-- The identifier of a row that is new. -/
def newId : Change → Option Uuid
  | appears _ id _ _ => some id
  | _ => none

section Recording

variable (env : Environment) (ingest : Ingest)

/-- The row the binding has afterwards. -/
def after : Change → Option CurrentPortObservation
  | appears obs id _ _ => some (currentRow env ingest.hostId obs ingest.scanId ingest.observedAt id)
  | changes existing obs _ => some (existing.observed env obs ingest.scanId ingest.observedAt)
  | stays existing obs => some (existing.observed env obs ingest.scanId ingest.observedAt)
  | disappears _ _ _ => none

/-- The event the change is recorded with. -/
def event : Change → Option PortObservationEvent
  | appears obs _ eventId _ => some
      (observationEvent ingest.hostId obs .appeared ingest.scanId ingest.observedAt eventId)
  | changes _ obs eventId => some
      (observationEvent ingest.hostId obs .changed ingest.scanId ingest.observedAt eventId)
  | stays _ _ => none
  | disappears row eventId _ => some
      (disappearedEvent ingest.hostId row ingest.scanId ingest.observedAt eventId)

/-- The writes of the change. -/
def writes : Change → List Write
  | appears obs id eventId activityId =>
      [.insertCurrent (currentRow env ingest.hostId obs ingest.scanId ingest.observedAt id),
        .insertEvent
          (observationEvent ingest.hostId obs .appeared ingest.scanId ingest.observedAt eventId)] ++
      activityId.toList.map fun activityId =>
        .insertActivity (portAppeared ingest.hostId obs ingest.observedAt activityId)
  | changes existing obs eventId =>
      [.insertEvent
          (observationEvent ingest.hostId obs .changed ingest.scanId ingest.observedAt eventId),
        .updateCurrent (existing.observed env obs ingest.scanId ingest.observedAt)]
  | stays existing obs =>
      [.updateCurrent (existing.observed env obs ingest.scanId ingest.observedAt)]
  | disappears row eventId activityId =>
      [.insertEvent (disappearedEvent ingest.hostId row ingest.scanId ingest.observedAt eventId),
        .insertActivity (portDisappeared ingest.hostId row ingest.observedAt activityId),
        .deleteCurrent row.id]

end Recording

end Change

section Diff

variable (ingest : Ingest) (rows : List CurrentPortObservation)

/-- What becomes of the binding of an observation. -/
def changeFor (draws : ℕ → Draw) (obs : ObservationIn) : Change :=
  match rows.find? fun row => row.key = obs.key with
  | none => .appears obs (draws 0).uuid (draws 1).uuid
      (if ingest.isBaseline then none else some (draws 2).uuid)
  | some existing =>
      if meaningfullyChanged existing obs then .changes existing obs (draws 0).uuid
      else .stays existing obs

/-- What becomes of the bindings a snapshot has. -/
def changesFor (draws : ℕ → Draw) : List ObservationIn → List Change
  | [] => []
  | obs :: observations =>
      changeFor ingest rows draws obs :: changesFor
        (fun n => draws (n + (changeFor ingest rows draws obs).drawn)) observations

/-- What becomes of the bindings a snapshot lacks. -/
def goneFor (incoming : List BindingKey) (draws : ℕ → Draw) :
    List CurrentPortObservation → List Change
  | [] => []
  | row :: rows =>
      if row.key ∈ incoming then goneFor incoming draws rows
      else .disappears row (draws 0).uuid (draws 1).uuid ::
        goneFor incoming (fun n => draws (n + 2)) rows

/-- How many values some changes draw. -/
def drawnBy (changes : List Change) : ℕ := (changes.map Change.drawn).sum

/-- All that a snapshot changes. -/
def diff (draws : ℕ → Draw) (canonical : List ObservationIn) : List Change :=
  changesFor ingest rows draws canonical ++ goneFor (canonical.map ObservationIn.key)
    (fun n => draws (n + drawnBy (changesFor ingest rows draws canonical))) rows

/-- How many changes are of a kind. -/
def countKind (kind : PortEventType) (changes : List Change) : ℕ :=
  changes.countP fun change => change.kind = some kind

end Diff

/-! ## What ingestion stages -/

section Staging

variable {rely : ServiceSession → Db → Prop} {guar : ServiceSession → Prop} {s : ServiceSession}

/-- The session once changes are staged. -/
def afterChanges (env : Environment) (ingest : Ingest) (s : ServiceSession)
    (changes : List Change) : ServiceSession :=
  { s with
    pending := s.pending ++ changes.flatMap (Change.writes env ingest)
    draws := fun n => s.draws (n + drawnBy changes) }

theorem afterChanges_cons (env : Environment) (ingest : Ingest) (change : Change)
    (changes : List Change) :
    afterChanges env ingest (afterChanges env ingest s [change]) changes =
      afterChanges env ingest s (change :: changes) := by
  simp only [afterChanges, List.flatMap_cons, List.flatMap_nil, List.append_nil, List.append_assoc,
    drawnBy, List.map_cons, List.map_nil, List.sum_cons, List.sum_nil, Nat.add_zero]
  congr 1
  funext n
  rw [Nat.add_assoc, Nat.add_comm (List.sum _)]

theorem ensures_recordObservation (env : Environment) (ingest : Ingest)
    (rows : List CurrentPortObservation) (obs : ObservationIn)
    {post : ServiceSession → Except Failure (ℕ × ℕ) → Prop} :
    (recordObservation env ingest rows obs).Ensures store rely guar s post ↔
      post (afterChanges env ingest s [changeFor ingest rows s.draws obs])
        (.ok (countKind .appeared [changeFor ingest rows s.draws obs],
          countKind .changed [changeFor ingest rows s.draws obs])) := by
  rw [recordObservation, changeFor]
  cases rows.find? fun row => row.key = obs.key with
  | none =>
      rw [appear]
      cases ingest.isBaseline <;>
        simp [Program.ensures_bind, afterChanges, Session.afterAdd, Session.afterDraw, drawnBy,
            Change.drawn,
          Change.writes, countKind, Change.kind]
  | some existing =>
      simp only [refreshCurrent]
      cases meaningfullyChanged existing obs <;>
        simp [Program.ensures_bind, afterChanges, Session.afterAdd, Session.afterDraw, drawnBy,
            Change.drawn,
          Change.writes, countKind, Change.kind]

theorem countKind_cons (kind : PortEventType) (change : Change) (changes : List Change) :
    countKind kind (change :: changes) = countKind kind [change] + countKind kind changes := by
  simp only [countKind]
  rw [← List.singleton_append, List.countP_append]

theorem ensures_recordObservations (env : Environment) (ingest : Ingest)
    (rows : List CurrentPortObservation) (observations : List ObservationIn)
    {post : ServiceSession → Except Failure (ℕ × ℕ) → Prop} :
    (recordObservations env ingest rows observations).Ensures store rely guar s post ↔
      post (afterChanges env ingest s (changesFor ingest rows s.draws observations))
        (.ok (countKind .appeared (changesFor ingest rows s.draws observations),
          countKind .changed (changesFor ingest rows s.draws observations))) := by
  induction observations generalizing s post with
  | nil => simp [recordObservations, afterChanges, changesFor, countKind, drawnBy]
  | cons obs observations ih =>
      simp only [recordObservations, Program.bind_eq, Program.ensures_bind,
        ensures_recordObservation, ih]
      have hdraws : (afterChanges env ingest s [changeFor ingest rows s.draws obs]).draws =
          fun n => s.draws (n + (changeFor ingest rows s.draws obs).drawn) := by
        simp [afterChanges, drawnBy]
      rw [hdraws, afterChanges_cons, changesFor,
        countKind_cons .appeared _ (changesFor _ _ _ observations),
        countKind_cons .changed _ (changesFor _ _ _ observations)]
      rfl

theorem ensures_recordDisappearances (env : Environment) (ingest : Ingest)
    (incoming : List BindingKey) (rows : List CurrentPortObservation)
    {post : ServiceSession → Except Failure ℕ → Prop} :
    (recordDisappearances ingest incoming rows).Ensures store rely guar s post ↔
      post (afterChanges env ingest s (goneFor incoming s.draws rows))
        (.ok (countKind .disappeared (goneFor incoming s.draws rows))) := by
  induction rows generalizing s post with
  | nil => simp [recordDisappearances, afterChanges, goneFor, countKind, drawnBy]
  | cons row rows ih =>
      rw [recordDisappearances, goneFor]
      split
      · exact ih
      · simp only [Program.bind_eq, Program.ensures_bind, ensures_newUuid, ensures_add, ih]
        rw [countKind_cons, Nat.add_comm (countKind _ [_]), ← afterChanges_cons]
        simp [afterChanges, Session.afterAdd, Session.afterDraw, drawnBy,
          Change.drawn, Change.writes, countKind, Change.kind]

/-- A snapshot's own writes. -/
def scanWrites (ingest : Ingest) (count : ℕ) (receivedAt : ℤ) : List Write :=
  [.insertScan
    { id := ingest.scanId
      hostId := ingest.hostId
      observedAt := ingest.observedAt
      observationCount := count
      receivedAt := receivedAt },
    .scanHost ingest.hostId ingest.observedAt]

/-- The answer to a snapshot that changes something. -/
def diffResult (ingest : Ingest) (observations canonical : List ObservationIn)
    (changes : List Change) : IngestionResult where
  scanId := ingest.scanId
  accepted := true
  reason := none
  observationsProcessed := observations.length
  appeared := countKind .appeared changes
  changed := countKind .changed changes
  disappeared := countKind .disappeared changes
  duplicatesMerged := observations.length - canonical.length

/-- The loop over the observations makes nothing disappear, the other one nothing else. -/
theorem kind_changesFor (ingest : Ingest) (rows : List CurrentPortObservation) (draws : ℕ → Draw)
    (observations : List ObservationIn) :
    countKind .disappeared (changesFor ingest rows draws observations) = 0 := by
  induction observations generalizing draws with
  | nil => rfl
  | cons obs observations ih =>
      rw [changesFor, countKind_cons, ih, changeFor]
      split
      · rfl
      · split <;> rfl

theorem kind_goneFor (incoming : List BindingKey) (rows : List CurrentPortObservation)
    (draws : ℕ → Draw) {kind : PortEventType} (hkind : kind ≠ .disappeared) :
    countKind kind (goneFor incoming draws rows) = 0 := by
  induction rows generalizing draws with
  | nil => rfl
  | cons row rows ih =>
      rw [goneFor]
      split
      · exact ih draws
      · rw [countKind_cons, ih]
        simp [countKind, Change.kind, hkind.symm]

theorem countKind_append (kind : PortEventType) (first second : List Change) :
    countKind kind (first ++ second) = countKind kind first + countKind kind second :=
  List.countP_append

/-- What a snapshot stages on the current rows of its host, and what it answers. -/
theorem ensures_stageDiff (env : Environment) (ingest : Ingest)
    (observations canonical : List ObservationIn) (rows : List CurrentPortObservation)
    {post : ServiceSession → Except Failure IngestionResult → Prop}
    (h : ∀ draws receivedAt, post
      { s with
        pending := s.pending ++ ((diff ingest rows s.draws canonical).flatMap
          (Change.writes env ingest) ++ scanWrites ingest observations.length receivedAt)
        draws := draws }
      (.ok (diffResult ingest observations canonical (diff ingest rows s.draws canonical)))) :
    (stageChanges env ingest observations canonical rows).Ensures store rely guar s post := by
  let changed := changesFor ingest rows s.draws canonical
  let gone := goneFor (canonical.map ObservationIn.key)
    (fun n => s.draws (n + drawnBy changed)) rows
  have hstart := h (fun n => s.draws (n + 1 + drawnBy gone + drawnBy changed))
    (s.draws (0 + drawnBy gone + drawnBy changed)).now
  simp only [stageChanges, Program.bind_eq, Program.ensures_bind, ensures_recordObservations,
    ensures_recordDisappearances env, ensures_clock, ensures_add]
  simpa [changed, gone, diff, afterChanges, Session.afterAdd, Session.afterDraw, scanWrites,
    diffResult, countKind_append, kind_changesFor, kind_goneFor] using hstart

end Staging

/-! ## What a change does to the contents -/

section Rows

variable {rows : List CurrentPortObservation} {existing row : CurrentPortObservation}

/-- A row is replaced: only its binding sees it. -/
theorem filter_replace (hids : (rows.map CurrentPortObservation.id).Nodup)
    (honly : rows.filter (fun old => old.slot = existing.slot) = [existing])
    (hid : row.id = existing.id) (hslot : row.slot = existing.slot) (slot : Slot) :
    (rows.map fun old => if old.id = row.id then row else old).filter (fun old => old.slot = slot) =
      if slot = existing.slot then [row] else rows.filter fun old => old.slot = slot := by
  have hexisting : existing ∈ rows :=
    (List.mem_filter.mp (honly ▸ List.mem_singleton_self existing)).1
  have hsame : ∀ old ∈ rows, old.id = row.id → old = existing := fun old hold h =>
    List.inj_on_of_nodup_map hids hold hexisting (h.trans hid)
  rw [List.filter_map]
  have hslots : rows.filter ((fun old : CurrentPortObservation => decide (old.slot = slot)) ∘
      fun old => if old.id = row.id then row else old) = rows.filter fun old => old.slot =
          slot := by
    refine List.filter_congr fun old hold => ?_
    simp only [Function.comp_apply]
    split
    · next h => rw [hslot, hsame old hold h]
    · rfl
  rw [hslots]
  split
  · next h => rw [h, honly, List.map_singleton, if_pos hid.symm]
  · next h =>
      refine (List.map_congr_left fun old hold => ?_).trans (List.map_id _)
      obtain ⟨hold, hother⟩ := List.mem_filter.mp hold
      refine if_neg fun hequal => h ?_
      rw [← hsame old hold hequal]
      exact (of_decide_eq_true hother).symm

/-- A row is removed: only its binding sees it. -/
theorem filter_remove (hids : (rows.map CurrentPortObservation.id).Nodup)
    (honly : rows.filter (fun old => old.slot = existing.slot) = [existing]) (slot : Slot) :
    (rows.filter fun old => old.id ≠ existing.id).filter (fun old => old.slot = slot) =
      if slot = existing.slot then [] else rows.filter fun old => old.slot = slot := by
  have hexisting : existing ∈ rows :=
    (List.mem_filter.mp (honly ▸ List.mem_singleton_self existing)).1
  rw [List.filter_filter]
  split
  · next h =>
      refine List.filter_eq_nil_iff.mpr fun old hold hboth => ?_
      rw [Bool.and_eq_true, decide_eq_true_iff, decide_eq_true_iff, h] at hboth
      have hmem : old ∈ rows.filter fun old => old.slot = existing.slot :=
        List.mem_filter.mpr ⟨hold, decide_eq_true hboth.1⟩
      rw [honly, List.mem_singleton] at hmem
      exact hboth.2 (hmem ▸ rfl)
  · next h =>
      refine List.filter_congr fun old hold => ?_
      by_cases hslot : old.slot = slot
      · have hne : old.id ≠ existing.id := fun hsame =>
          h ((List.inj_on_of_nodup_map hids hold hexisting hsame) ▸ hslot.symm)
        simp [hslot, hne]
      · simp [hslot]

end Rows

section Effect

variable {env : Environment} {ingest : Ingest} {db : Db}

/-- The change is one of the contents: it starts from the row the binding has. -/
structure Change.Fits (ingest : Ingest) (db : Db) (change : Change) : Prop where
  before : db.rowsAt (ingest.hostId, change.key) = change.before.toList
  fresh : ∀ id, change.newId = some id → id ∉ db.current.map CurrentPortObservation.id
  sameKey : ∀ existing obs eventId, change = .changes existing obs eventId → obs.key = existing.key

/-- What a change does: to the row of its binding, and to nobody else's. -/
structure Change.Effect (env : Environment) (ingest : Ingest) (change : Change) (db later : Db) :
    Prop where
  own : later.rowsAt (ingest.hostId, change.key) = (change.after env ingest).toList
  others : ∀ slot, slot ≠ (ingest.hostId, change.key) → later.rowsAt slot = db.rowsAt slot
  ids : (later.current.map CurrentPortObservation.id).Nodup
  known : ∀ id ∈ later.current.map CurrentPortObservation.id,
    id ∈ db.current.map CurrentPortObservation.id ∨ change.newId = some id

theorem slot_of_rowsAt {slot : Slot} {row : CurrentPortObservation} (h : row ∈ db.rowsAt slot) :
    row ∈ db.current ∧ row.slot = slot := by
  obtain ⟨hmem, hslot⟩ := List.mem_filter.mp h
  exact ⟨hmem, of_decide_eq_true hslot⟩

/-- The row of a binding that is current is replaced. -/
theorem effect_replace {change : Change} (existing row : CurrentPortObservation)
    (hids : (db.current.map CurrentPortObservation.id).Nodup)
    (honly : db.rowsAt (ingest.hostId, change.key) = [existing])
    (hid : row.id = existing.id) (hslot : row.slot = existing.slot)
    (hafter : change.after env ingest = some row) {later : Db}
    (hcurrent : later.current = db.current.map fun old => if old.id = row.id then row else old) :
    change.Effect env ingest db later := by
  obtain ⟨-, hexisting⟩ := slot_of_rowsAt (honly ▸ List.mem_singleton_self existing)
  have hrows := filter_replace hids (hexisting ▸ honly) hid hslot
  have hmap : later.current.map CurrentPortObservation.id =
      db.current.map CurrentPortObservation.id := by
    rw [hcurrent, List.map_map]
    refine List.map_congr_left fun old _ => ?_
    simp only [Function.comp_apply]
    split
    · next h => exact h.symm
    · rfl
  refine ⟨?_, fun slot hother => ?_, hmap ▸ hids, fun id hmem => .inl (hmap ▸ hmem)⟩
  · rw [Db.rowsAt, hcurrent, hrows, if_pos hexisting.symm, hafter]
    rfl
  · rw [Db.rowsAt, hcurrent, hrows, if_neg (hexisting ▸ hother)]
    rfl

theorem Change.effect_writes {change : Change}
    (hids : (db.current.map CurrentPortObservation.id).Nodup) (hfits : change.Fits ingest db) :
    change.Effect env ingest db (store.applyAll (change.writes env ingest) db) := by
  have hbefore := hfits.before
  cases change with
  | appears obs id eventId activityId =>
      have hcurrent : (store.applyAll ((Change.appears obs id eventId activityId).writes env ingest)
          db).current = db.current ++
            [currentRow env ingest.hostId obs ingest.scanId ingest.observedAt id] := by
        cases activityId <;> simp [Change.writes, Write.apply]
      refine ⟨?_, fun slot hother => ?_, ?_, fun other hmem => ?_⟩
      · rw [Db.rowsAt, hcurrent, List.filter_append]
        change db.rowsAt _ ++ _ = _
        rw [hbefore]
        simp [Change.before, Change.after, CurrentPortObservation.slot, currentRow, Change.key,
          CurrentPortObservation.key, ObservationIn.key]
      · rw [Db.rowsAt, hcurrent, List.filter_append]
        have hnew : (currentRow env ingest.hostId obs ingest.scanId ingest.observedAt id).slot ≠
            slot := Ne.symm hother
        simp [hnew, Db.rowsAt]
      · rw [hcurrent, List.map_append, List.nodup_append]
        refine ⟨hids, List.nodup_singleton _, fun old hold other hnew => ?_⟩
        rw [List.map_singleton, List.mem_singleton] at hnew
        rintro rfl
        rw [hnew] at hold
        exact hfits.fresh id rfl hold
      · rw [hcurrent, List.map_append, List.mem_append, List.map_singleton,
          List.mem_singleton] at hmem
        exact hmem.imp_right fun hnew => by rw [hnew]; rfl
  | changes existing obs eventId =>
      exact effect_replace existing
        (existing.observed env obs ingest.scanId ingest.observedAt) hids hbefore rfl rfl rfl
        (by simp [Change.writes, Write.apply])
  | stays existing obs =>
      exact effect_replace existing
        (existing.observed env obs ingest.scanId ingest.observedAt) hids hbefore rfl rfl rfl
        (by simp [Change.writes, Write.apply])
  | disappears row eventId activityId =>
      have honly : db.rowsAt (ingest.hostId, row.key) = [row] := hbefore
      obtain ⟨-, hrow⟩ := slot_of_rowsAt (honly ▸ List.mem_singleton_self row)
      have hrows := filter_remove hids (hrow ▸ honly)
      have hcurrent : (store.applyAll ((Change.disappears row eventId activityId).writes env ingest)
          db).current = db.current.filter fun old => old.id ≠ row.id := by
        simp [Change.writes, Write.apply]
      refine ⟨?_, fun slot hother => ?_, ?_, fun other hmem => .inl ?_⟩
      · rw [Db.rowsAt, hcurrent]
        exact (hrows _).trans (if_pos hrow.symm)
      · rw [Db.rowsAt, hcurrent]
        exact (hrows slot).trans (if_neg (hrow ▸ hother))
      · rw [hcurrent]
        exact (List.filter_sublist.map _).nodup hids
      · rw [hcurrent] at hmem
        exact (List.filter_sublist.map _).mem hmem

/-- What a list of changes does: each to the row of its binding, and together to no other. -/
structure Effects (env : Environment) (ingest : Ingest) (changes : List Change) (db later : Db) :
    Prop where
  own : ∀ change ∈ changes,
    later.rowsAt (ingest.hostId, change.key) = (change.after env ingest).toList
  others : ∀ slot, (∀ change ∈ changes, slot ≠ (ingest.hostId, change.key)) →
    later.rowsAt slot = db.rowsAt slot
  ids : (later.current.map CurrentPortObservation.id).Nodup
  known : ∀ id ∈ later.current.map CurrentPortObservation.id,
    id ∈ db.current.map CurrentPortObservation.id ∨ id ∈ changes.filterMap Change.newId

/-- A change still fits once another binding has changed. -/
theorem Change.Fits.after_other {change other : Change} {later : Db}
    (h : other.Fits ingest db) (heffect : change.Effect env ingest db later)
    (hkey : other.key ≠ change.key) (hnew : ∀ id, change.newId = some id → other.newId ≠ some id) :
    other.Fits ingest later := by
  refine ⟨?_, fun id hid hmem => ?_, h.sameKey⟩
  · rw [heffect.others _ fun hsame => hkey (Prod.mk.inj hsame).2]
    exact h.before
  · rcases heffect.known id hmem with hold | hsame
    · exact h.fresh id hid hold
    · exact hnew id hsame hid

/-- Changes of different bindings, with new identifiers, do not disturb each other. -/
theorem effects_writes {changes : List Change}
    (hids : (db.current.map CurrentPortObservation.id).Nodup)
    (hkeys : (changes.map Change.key).Nodup) (hnew : (changes.filterMap Change.newId).Nodup)
    (hfits : ∀ change ∈ changes, change.Fits ingest db) :
    Effects env ingest changes db
      (store.applyAll (changes.flatMap (Change.writes env ingest)) db) := by
  induction changes generalizing db with
  | nil =>
      exact ⟨fun _ hmem => (List.not_mem_nil hmem).elim, fun _ _ => rfl, hids,
        fun id hid => .inl hid⟩
  | cons change changes ih =>
      rw [List.flatMap_cons, Store.applyAll_append]
      obtain ⟨hhead, hrest⟩ := List.forall_mem_cons.mp hfits
      have heffect : change.Effect env ingest db
          (store.applyAll (change.writes env ingest) db) := Change.effect_writes hids hhead
      have ⟨hown, hothers, hids', hknown⟩ := heffect
      obtain ⟨hfirst, hkeys⟩ := List.nodup_cons.mp hkeys
      have hdistinct : ∀ other ∈ changes, (ingest.hostId, other.key) ≠ (ingest.hostId,
          change.key) :=
        fun other hother hsame => by
          have hkey : other.key = change.key := (Prod.mk.inj hsame).2
          exact hfirst (hkey ▸ List.mem_map_of_mem hother)
      have hnew' : (changes.filterMap Change.newId).Nodup ∧ ∀ id, change.newId = some id →
          id ∉ changes.filterMap Change.newId := by
        rw [List.filterMap_cons] at hnew
        split at hnew
        · next hnone => exact ⟨hnew, fun id hid => by rw [hnone] at hid; cases hid⟩
        · next id hsome =>
            obtain ⟨hnot, hnodup⟩ := List.nodup_cons.mp hnew
            refine ⟨hnodup, fun other hother => ?_⟩
            rw [hsome] at hother
            cases hother
            exact hnot
      have hlater := ih hids' hkeys hnew'.1 fun other hother =>
        (hrest other hother).after_other heffect
          (fun hsame => hdistinct other hother (congrArg _ hsame))
          fun id hid hother' => hnew'.2 id hid (List.mem_filterMap.mpr ⟨other, hother, hother'⟩)
      refine ⟨List.forall_mem_cons.mpr ⟨?_, hlater.own⟩, fun slot hslot => ?_, hlater.ids,
        fun id hid => ?_⟩
      · rw [hlater.others _ fun other hother => (hdistinct other hother).symm]
        exact hown
      · obtain ⟨hne, hrest⟩ := List.forall_mem_cons.mp hslot
        rw [hlater.others slot hrest, hothers slot hne]
      · rw [List.filterMap_cons]
        rcases hlater.known id hid with hold | hlate
        · rcases hknown id hold with hold | hsame
          · exact .inl hold
          · rw [hsame]
            exact .inr List.mem_cons_self
        · right
          split
          · exact hlate
          · exact List.mem_cons_of_mem _ hlate

end Effect

/-! ## The changes of a snapshot -/

theorem Change.drawn_le (change : Change) : change.drawn ≤ 3 := by
  rcases change with ⟨_, _, _, _ | _⟩ | _ | _ | _ <;> simp [drawn]

section Members

variable {ingest : Ingest} {rows : List CurrentPortObservation} {draws : ℕ → Draw}

theorem mem_changesFor {observations : List ObservationIn} {change : Change}
    (h : change ∈ changesFor ingest rows draws observations) :
    ∃ obs ∈ observations, ∃ k < 3 * observations.length,
      change = changeFor ingest rows (fun n => draws (n + k)) obs := by
  induction observations generalizing draws with
  | nil => cases h
  | cons obs observations ih =>
      rw [changesFor] at h
      rcases List.mem_cons.mp h with rfl | hrest
      · exact ⟨obs, List.mem_cons_self, 0, by simp, rfl⟩
      · obtain ⟨later, hlater, k, hk, rfl⟩ := ih hrest
        refine ⟨later, List.mem_cons_of_mem _ hlater,
          k + (changeFor ingest rows draws obs).drawn, ?_, ?_⟩
        · have hdrawn := (changeFor ingest rows draws obs).drawn_le
          rw [List.length_cons]
          omega
        · simp only [Nat.add_assoc]

theorem exists_mem_changesFor (ingest : Ingest) (rows : List CurrentPortObservation)
    (draws : ℕ → Draw) {observations : List ObservationIn} {obs : ObservationIn}
    (h : obs ∈ observations) :
    ∃ k, changeFor ingest rows (fun n => draws (n + k)) obs ∈
      changesFor ingest rows draws observations := by
  induction observations generalizing draws with
  | nil => cases h
  | cons first observations ih =>
      rw [changesFor]
      rcases List.mem_cons.mp h with rfl | hrest
      · exact ⟨0, List.mem_cons_self⟩
      · obtain ⟨k, hmem⟩ :=
          ih (fun n => draws (n + (changeFor ingest rows draws first).drawn)) hrest
        refine ⟨k + (changeFor ingest rows draws first).drawn, List.mem_cons_of_mem _ ?_⟩
        simpa only [Nat.add_assoc] using hmem

theorem mem_goneFor {incoming : List BindingKey} {change : Change}
    (h : change ∈ goneFor incoming draws rows) :
    ∃ row ∈ rows, row.key ∉ incoming ∧ ∃ eventId activityId,
      change = .disappears row eventId activityId := by
  induction rows generalizing draws with
  | nil => cases h
  | cons row rows ih =>
      rw [goneFor] at h
      split at h
      · obtain ⟨other, hother, hrest⟩ := ih h
        exact ⟨other, List.mem_cons_of_mem _ hother, hrest⟩
      · next hout =>
          rcases List.mem_cons.mp h with rfl | hrest
          · exact ⟨row, List.mem_cons_self, hout, _, _, rfl⟩
          · obtain ⟨other, hother, hrest⟩ := ih hrest
            exact ⟨other, List.mem_cons_of_mem _ hother, hrest⟩

theorem exists_mem_goneFor (draws : ℕ → Draw) {incoming : List BindingKey}
    {row : CurrentPortObservation} (h : row ∈ rows) (hout : row.key ∉ incoming) :
    ∃ eventId activityId, .disappears row eventId activityId ∈ goneFor incoming draws rows := by
  induction rows generalizing draws with
  | nil => cases h
  | cons first rows ih =>
      rw [goneFor]
      rcases List.mem_cons.mp h with rfl | hrest
      · rw [if_neg hout]
        exact ⟨_, _, List.mem_cons_self⟩
      · split
        · exact ih draws hrest
        · obtain ⟨eventId, activityId, hmem⟩ := ih (fun n => draws (n + 2)) hrest
          exact ⟨eventId, activityId, List.mem_cons_of_mem _ hmem⟩

theorem key_changeFor (obs : ObservationIn) : (changeFor ingest rows draws obs).key = obs.key := by
  rw [changeFor]
  split
  · rfl
  · next existing hfind =>
      have hkey : existing.key = obs.key := by simpa using List.find?_some hfind
      split <;> exact hkey

theorem keys_changesFor (observations : List ObservationIn) :
    (changesFor ingest rows draws observations).map Change.key =
      observations.map ObservationIn.key := by
  induction observations generalizing draws with
  | nil => rfl
  | cons obs observations ih => rw [changesFor, List.map_cons, List.map_cons, ih, key_changeFor]

theorem keys_goneFor (incoming : List BindingKey) :
    (goneFor incoming draws rows).map Change.key =
      (rows.map CurrentPortObservation.key).filter fun key => key ∉ incoming := by
  induction rows generalizing draws with
  | nil => rfl
  | cons row rows ih =>
      rw [goneFor, List.map_cons, List.filter_cons]
      by_cases hin : row.key ∈ incoming
      · rw [if_pos hin, if_neg (by simpa using hin), ih]
      · rw [if_neg hin, if_pos (by simpa using hin), List.map_cons, ih]
        rfl

theorem nodup_keys_diff {canonical : List ObservationIn}
    (hcanonical : (canonical.map ObservationIn.key).Nodup)
    (hrows : (rows.map CurrentPortObservation.key).Nodup) :
    ((diff ingest rows draws canonical).map Change.key).Nodup := by
  rw [diff, List.map_append, keys_changesFor, keys_goneFor, List.nodup_append]
  refine ⟨hcanonical, hrows.filter _, fun key hkey other hother hsame => ?_⟩
  have hout := (List.mem_filter.mp hother).2
  rw [decide_eq_true_iff] at hout
  exact hout (hsame ▸ hkey)

/-- The new identifiers are drawn, each of them once. -/
theorem newIds_changesFor {observations : List ObservationIn}
    (hdraws : ∀ j < 3 * observations.length, ∀ k < 3 * observations.length,
      (draws j).uuid = (draws k).uuid → j = k) :
    ((changesFor ingest rows draws observations).filterMap Change.newId).Nodup ∧
      ∀ id ∈ (changesFor ingest rows draws observations).filterMap Change.newId,
        ∃ n < 3 * observations.length, id = (draws n).uuid := by
  induction observations generalizing draws with
  | nil => exact ⟨List.nodup_nil, fun _ hid => (List.not_mem_nil hid).elim⟩
  | cons obs observations ih =>
      rw [List.length_cons] at hdraws ⊢
      have hle := (changeFor ingest rows draws obs).drawn_le
      rw [changesFor, List.filterMap_cons]
      obtain ⟨hnodup, hdrawn⟩ := @ih (fun n => draws (n + (changeFor ingest rows draws obs).drawn))
        fun j hj k hk hsame => Nat.add_right_cancel
          (hdraws _ (by omega) _ (by omega) hsame)
      have hlater : ∀ id ∈ (changesFor ingest rows (fun n =>
          draws (n + (changeFor ingest rows draws obs).drawn)) observations).filterMap Change.newId,
          ∃ n < 3 * (observations.length + 1), id = (draws n).uuid := fun id hid => by
        obtain ⟨n, hn, rfl⟩ := hdrawn id hid
        exact ⟨_, by omega, rfl⟩
      split
      · exact ⟨hnodup, hlater⟩
      · next id hid =>
          have hfirst : id = (draws 0).uuid ∧ 0 < (changeFor ingest rows draws obs).drawn := by
            rw [changeFor] at hid ⊢
            split at hid
            · cases hid
              cases ingest.isBaseline <;> exact ⟨rfl, Nat.succ_pos _⟩
            · split at hid <;> cases hid
          refine ⟨List.nodup_cons.mpr ⟨fun hmem => ?_, hnodup⟩,
            List.forall_mem_cons.mpr ⟨⟨0, by omega, hfirst.1⟩, hlater⟩⟩
          obtain ⟨n, hn, hsame⟩ := hdrawn id hmem
          have hzero := hdraws 0 (by omega) _ (by omega) (hfirst.1.symm.trans hsame)
          omega

theorem newIds_goneFor (incoming : List BindingKey) :
    (goneFor incoming draws rows).filterMap Change.newId = [] := by
  refine List.filterMap_eq_nil_iff.mpr fun change hchange => ?_
  obtain ⟨row, -, -, eventId, activityId, rfl⟩ := mem_goneFor hchange
  rfl

end Members

/-! ## A snapshot on the contents -/

/-- The current rows are told apart by their identifiers, and a binding has one at most. -/
structure Db.Tidy (db : Db) : Prop where
  ids : (db.current.map CurrentPortObservation.id).Nodup
  single : ∀ slot, (db.rowsAt slot).length ≤ 1

section Snapshot

variable {env : Environment} {ingest : Ingest} {db : Db} {draws : ℕ → Draw}
  {canonical : List ObservationIn}

theorem mem_listCurrentForHost {hostId : Uuid} {row : CurrentPortObservation} :
    row ∈ db.listCurrentForHost hostId ↔ row ∈ db.rowsAt (hostId, row.key) := by
  simp [Db.listCurrentForHost, Db.rowsAt, CurrentPortObservation.slot]

theorem Db.Tidy.rowsAt_eq (h : db.Tidy) {slot : Slot} {row : CurrentPortObservation}
    (hrow : row ∈ db.rowsAt slot) : db.rowsAt slot = [row] := by
  obtain ⟨only, honly⟩ := List.length_eq_one_iff.mp
    (le_antisymm (h.single slot) (List.length_pos_of_mem hrow))
  rw [honly, List.mem_singleton] at hrow
  rw [honly, hrow]

/-- What the loop finds for a binding is what the contents have. -/
theorem Db.Tidy.rowsAt_find (h : db.Tidy) (hostId : Uuid) (key : BindingKey) :
    db.rowsAt (hostId, key) =
      ((db.listCurrentForHost hostId).find? fun row => row.key = key).toList := by
  cases hfind : (db.listCurrentForHost hostId).find? fun row => row.key = key with
  | none =>
      refine List.eq_nil_iff_forall_not_mem.mpr fun row hrow => ?_
      have hslot := (slot_of_rowsAt hrow).2
      have hkey : row.key = key := (Prod.mk.inj hslot).2
      have hmem : row ∈ db.listCurrentForHost hostId :=
        mem_listCurrentForHost.mpr (hkey.symm ▸ hrow)
      have hnot := List.find?_eq_none.mp hfind row hmem
      simp [hkey] at hnot
  | some row =>
      have hkey : row.key = key := by simpa using List.find?_some hfind
      have hmem := mem_listCurrentForHost.mp (List.mem_of_find?_eq_some hfind)
      rw [hkey] at hmem
      exact h.rowsAt_eq hmem

theorem Db.Tidy.nodup_keys (h : db.Tidy) (hostId : Uuid) :
    ((db.listCurrentForHost hostId).map CurrentPortObservation.key).Nodup := by
  refine List.Nodup.map_on (fun row hrow other hother hsame => ?_) (h.ids.of_map.filter _)
  rw [mem_listCurrentForHost] at hrow hother
  rw [← hsame, h.rowsAt_eq hrow, List.mem_singleton] at hother
  exact hother.symm

theorem fits_changeFor (h : db.Tidy) (obs : ObservationIn)
    (hfresh : (draws 0).uuid ∉ db.current.map CurrentPortObservation.id) :
    (changeFor ingest (db.listCurrentForHost ingest.hostId) draws obs).Fits ingest db := by
  have hrows := h.rowsAt_find ingest.hostId obs.key
  rw [changeFor]
  cases hfind : (db.listCurrentForHost ingest.hostId).find? fun row => row.key = obs.key with
  | none =>
      rw [hfind] at hrows
      refine ⟨hrows, fun id hid => ?_, fun _ _ _ hsame => ?_⟩
      · cases hid
        exact hfresh
      · cases hsame
  | some existing =>
      have hkey : existing.key = obs.key := by simpa using List.find?_some hfind
      rw [hfind, ← hkey] at hrows
      simp only
      split
      · refine ⟨hrows, fun id hid => ?_, fun _ _ _ hsame => ?_⟩
        · cases hid
        · cases hsame
          exact hkey.symm
      · refine ⟨hrows, fun id hid => ?_, fun _ _ _ hsame => ?_⟩
        · cases hid
        · cases hsame

theorem fits_diff (h : db.Tidy)
    (hfresh : ∀ n < 3 * canonical.length,
      (draws n).uuid ∉ db.current.map CurrentPortObservation.id) :
    ∀ change ∈ diff ingest (db.listCurrentForHost ingest.hostId) draws canonical,
      change.Fits ingest db := by
  intro change hchange
  rcases List.mem_append.mp hchange with hfirst | hgone
  · obtain ⟨obs, -, k, hk, rfl⟩ := mem_changesFor hfirst
    exact fits_changeFor h obs (hfresh _ (by rwa [Nat.zero_add]))
  · obtain ⟨row, hrow, -, eventId, activityId, rfl⟩ := mem_goneFor hgone
    refine ⟨h.rowsAt_eq (mem_listCurrentForHost.mp hrow), fun id hid => ?_, fun _ _ _ hsame => ?_⟩
    · cases hid
    · cases hsame

/-- What a snapshot does to the contents. -/
theorem effects_diff (env : Environment) (ingest : Ingest) (h : db.Tidy)
    (hcanonical : (canonical.map ObservationIn.key).Nodup)
    (hdraws : ∀ j < 3 * canonical.length, ∀ k < 3 * canonical.length,
      (draws j).uuid = (draws k).uuid → j = k)
    (hfresh : ∀ n < 3 * canonical.length,
      (draws n).uuid ∉ db.current.map CurrentPortObservation.id) :
    Effects env ingest (diff ingest (db.listCurrentForHost ingest.hostId) draws canonical) db
      (store.applyAll ((diff ingest (db.listCurrentForHost ingest.hostId) draws canonical).flatMap
        (Change.writes env ingest)) db) := by
  refine effects_writes h.ids (nodup_keys_diff hcanonical (h.nodup_keys _)) ?_ (fits_diff h hfresh)
  rw [diff, List.filterMap_append, newIds_goneFor, List.append_nil]
  exact (newIds_changesFor hdraws).1

/-- A binding that a snapshot changes has one row afterwards, or none. -/
theorem Effects.tidy {changes : List Change} {later : Db} (h : db.Tidy)
    (heffects : Effects env ingest changes db later) : later.Tidy := by
  refine ⟨heffects.ids, fun slot => ?_⟩
  by_cases hslot : ∃ change ∈ changes, slot = (ingest.hostId, change.key)
  · obtain ⟨change, hchange, rfl⟩ := hslot
    rw [heffects.own change hchange]
    cases change.after env ingest <;> simp
  · push Not at hslot
    rw [heffects.others slot hslot]
    exact h.single slot

/-! ## The events of a binding -/

/-- The events that are recorded, and the tables that are left alone. -/
theorem applyAll_changes (changes : List Change) (db : Db) :
    (store.applyAll (changes.flatMap (Change.writes env ingest)) db).events =
        db.events ++ changes.filterMap (Change.event ingest) ∧
      (store.applyAll (changes.flatMap (Change.writes env ingest)) db).hosts = db.hosts := by
  induction changes generalizing db with
  | nil => simp
  | cons change changes ih =>
      rw [List.flatMap_cons, Store.applyAll_append, (ih _).1, (ih _).2, List.filterMap_cons]
      cases change with
      | appears obs id eventId activityId =>
          cases activityId <;> simp [Change.writes, Change.event, Write.apply]
      | changes existing obs eventId => simp [Change.writes, Change.event, Write.apply]
      | stays existing obs => simp [Change.writes, Change.event, Write.apply]
      | disappears row eventId activityId => simp [Change.writes, Change.event, Write.apply]

/-- The histories a binding can have: it appears, may change, and disappears, again and again.
The second index tells whether it is there at the end. -/
inductive History : List PortEventType → Bool → Prop
  | start : History [] false
  | appeared {events : List PortEventType} (h : History events false) :
      History (events ++ [.appeared]) true
  | changed {events : List PortEventType} (h : History events true) :
      History (events ++ [.changed]) true
  | disappeared {events : List PortEventType} (h : History events true) :
      History (events ++ [.disappeared]) false

/-- A binding is there exactly when its latest event exists and is not that it disappeared. -/
theorem History.latest {events : List PortEventType} {there : Bool} (h : History events there) :
    there = true ↔ ∃ last, events.getLast? = some last ∧ last ≠ .disappeared := by
  cases h <;> simp

theorem Change.history {events : List PortEventType} (change : Change)
    (h : History events change.before.isSome) :
    History (events ++ change.kind.toList) (change.after env ingest).isSome := by
  cases change with
  | appears obs id eventId activityId => exact h.appeared
  | changes existing obs eventId => exact h.changed
  | stays existing obs =>
      rw [Change.kind, Option.toList_none, List.append_nil]
      exact h
  | disappears row eventId activityId => exact h.disappeared

theorem Change.slot_event {change : Change} (hfits : change.Fits ingest db)
    {event : PortObservationEvent} (hevent : change.event ingest = some event) :
    event.slot = (ingest.hostId, change.key) := by
  cases change with
  | appears obs id eventId activityId | disappears row eventId activityId => cases hevent; rfl
  | changes existing obs eventId =>
      cases hevent
      exact congrArg (ingest.hostId, ·) (hfits.sameKey existing obs eventId rfl)
  | stays existing obs => cases hevent

theorem Change.eventType_event (change : Change) :
    (change.event ingest).map PortObservationEvent.eventType = change.kind := by
  cases change <;> rfl

theorem filter_events_other {changes : List Change}
    (hfits : ∀ change ∈ changes, change.Fits ingest db) {slot : Slot}
    (hslot : ∀ change ∈ changes, slot ≠ (ingest.hostId, change.key)) :
    ((changes.filterMap (Change.event ingest)).filter fun event => event.slot = slot) = [] := by
  refine List.filter_eq_nil_iff.mpr fun event hevent hsame => ?_
  obtain ⟨change, hchange, hsome⟩ := List.mem_filterMap.mp hevent
  refine hslot change hchange ?_
  rw [← Change.slot_event (hfits change hchange) hsome]
  exact (of_decide_eq_true hsame).symm

/-- Among the events of a snapshot, those of a binding are the one of its change. -/
theorem filter_events {changes : List Change} (hkeys : (changes.map Change.key).Nodup)
    (hfits : ∀ change ∈ changes, change.Fits ingest db) {change : Change}
    (hchange : change ∈ changes) :
    ((changes.filterMap (Change.event ingest)).filter fun event =>
        event.slot = (ingest.hostId, change.key)) = (change.event ingest).toList := by
  induction changes with
  | nil => cases hchange
  | cons first changes ih =>
      obtain ⟨hnot, hrestKeys⟩ := List.nodup_cons.mp hkeys
      obtain ⟨hfirst, hrestFits⟩ := List.forall_mem_cons.mp hfits
      rw [← List.singleton_append, List.filterMap_append, List.filter_append]
      rcases List.mem_cons.mp hchange with rfl | hrest
      · rw [filter_events_other hrestFits fun other hother hsame => hnot ?_, List.append_nil]
        · cases hevent : change.event ingest with
          | none => simp [hevent]
          | some event => simp [hevent, Change.slot_event hfirst hevent]
        · rw [(Prod.mk.inj hsame).2]
          exact List.mem_map_of_mem hother
      · rw [ih hrestKeys hrestFits hrest]
        have hother : ∀ other ∈ [first], (ingest.hostId, change.key) ≠ (ingest.hostId,
            other.key) := by
          intro other hother hsame
          rw [List.mem_singleton.mp hother] at hsame
          exact hnot ((Prod.mk.inj hsame).2 ▸ List.mem_map_of_mem hrest)
        rw [filter_events_other (List.forall_mem_singleton.mpr hfirst) hother, List.nil_append]

/-- The kinds of events a snapshot writes are those of its changes. -/
theorem countP_events (changes : List Change) (kind : PortEventType) :
    (changes.filterMap (Change.event ingest)).countP (fun event => event.eventType = kind) =
      countKind kind changes := by
  induction changes with
  | nil => rfl
  | cons change changes ih =>
      rw [countKind_cons, List.filterMap_cons, ← ih]
      have hkind : (change.event ingest).map PortObservationEvent.eventType = change.kind :=
        Change.eventType_event change
      cases hevent : change.event ingest with
      | none =>
          rw [hevent] at hkind
          simp [countKind, ← hkind]
      | some event =>
          rw [hevent] at hkind
          simp [countKind, ← hkind, List.countP_cons, Nat.add_comm]

end Snapshot

end Central
