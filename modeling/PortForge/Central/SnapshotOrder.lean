/-
# The order of a snapshot

Which member of a group of duplicates is taken goes by a ranking that does not look at all
fields. Where members tie that differ in what is taken from them, the canonical observation
depends on the order of the snapshot; everywhere else it does not, and neither do the rows
and the events.
-/

import PortForge.Central.DuplicateBindings
import PortForge.Central.SnapshotRuns

namespace Central

open Python Transaction

/-! ## One binding -/

/-- The members from which the fields can be taken agree on them. -/
def AgreesOn {β : Type} (f : ObservationIn → β) (p : ObservationIn → Bool)
    (group : List ObservationIn) : Prop :=
  ∀ x y, Leads ObservationIn.RanksFirst p group x → Leads ObservationIn.RanksFirst p group y →
    f x = f y

/-- The highest ranked members agree on what is taken from the first of them, and of those that
have a group of fields, or of all where none has it, the highest ranked agree on it. -/
structure TiesAgree (group : List ObservationIn) : Prop where
  identity : AgreesOn ObservationIn.identity (fun _ => true) group
  process : AgreesOn ObservationIn.process (eligible ObservationIn.hasProcess group) group
  container : AgreesOn ObservationIn.container (eligible ObservationIn.hasContainer group) group
  detection : AgreesOn ObservationIn.detection (eligible ObservationIn.hasDetection group) group
  project : AgreesOn ObservationIn.projectName (eligible ObservationIn.hasProject group) group

theorem tiesAgree_of_eq {group : List ObservationIn} (h : ∀ x ∈ group, ∀ y ∈ group, x = y) :
    TiesAgree group := by
  have hagrees {β : Type} (f : ObservationIn → β) (p : ObservationIn → Bool) :
      AgreesOn f p group :=
    fun x y hx hy => congrArg f (h x hx.1 y hy.1)
  exact ⟨hagrees _ _, hagrees _ _, hagrees _ _, hagrees _ _, hagrees _ _⟩

/-- The canonical observation of a group. -/
def canonicalOf : List ObservationIn → Option ObservationIn
  | [obs] => some obs
  | group => mergeGroup group

theorem timesCompare_perm {group group' : List ObservationIn} (hperm : group'.Perm group)
    (h : TimesCompare group) : TimesCompare group' := by
  constructor
  · intro a ha b hb
    exact h.1 a ((hperm.map _).mem_iff.mp ha) b ((hperm.map _).mem_iff.mp hb)
  · intro a ha b hb
    exact h.2 a ((hperm.map _).mem_iff.mp ha) b ((hperm.map _).mem_iff.mp hb)

/-- Two extreme times of the same times are the same. -/
theorem Extreme.eq_of_perm {le : ℤ → ℤ → Prop} [Std.Antisymm le] {times times' : List Datetime}
    {time time' : Datetime} (h : Extreme le times time) (h' : Extreme le times' time')
    (hperm : times'.Perm times) : time' = time := by
  obtain ⟨haware, hle⟩ := h.2 time' (hperm.mem_iff.mp h'.1)
  obtain ⟨-, hge⟩ := h'.2 time (hperm.mem_iff.mpr h.1)
  obtain ⟨micros, aware⟩ := time
  obtain ⟨micros', aware'⟩ := time'
  simp only at haware hle hge
  rw [haware, Std.Antisymm.antisymm _ _ hge hle]

/-- A group of one member at most, or one that is merged. -/
theorem canonicalOf_cases (group : List ObservationIn) :
    (∃ obs, group = [obs]) ∨ canonicalOf group = mergeGroup group := by
  rcases group with _ | ⟨obs, _ | ⟨other, rest⟩⟩
  · exact .inr rfl
  · exact .inl ⟨obs, rfl⟩
  · exact .inr rfl

section Group

variable {group group' : List ObservationIn} {merged merged' : ObservationIn}

/-- What is taken for a group of fields, in the terms of the ranking. -/
theorem agreesOn_iff {β : Type} (f : ObservationIn → β) (p : ObservationIn → Bool) :
    (∀ group' : List ObservationIn, group'.Perm group →
      ((ranked group').find? p).map f = ((ranked group).find? p).map f) ↔ AgreesOn f p group :=
  find?_insertionSort_perm_iff p f group

theorem eligible_ranked (has : ObservationIn → Bool) (group : List ObservationIn) :
    eligible has (ranked group) = eligible has group :=
  eligible_perm has (List.perm_insertionSort _ _)

/-- Two orders of a group whose ties agree are merged to the same observation. -/
theorem MergesTo.eq_of_perm (h : MergesTo group merged) (h' : MergesTo group' merged')
    (hperm : group'.Perm group) (hagree : TiesAgree group) (hkey : merged'.key = merged.key) :
    merged' = merged := by
  have htaken {β : Type} {f : ObservationIn → β} {has : ObservationIn → Bool}
      (hagrees : AgreesOn f (eligible has group) group)
      (hvalue : ((ranked group).find? (eligible has (ranked group))).map f = some (f merged))
      (hvalue' : ((ranked group').find? (eligible has (ranked group'))).map f =
        some (f merged')) : f merged' = f merged := by
    rw [eligible_ranked] at hvalue hvalue'
    rw [eligible_perm has hperm] at hvalue'
    have hsame := (agreesOn_iff f (eligible has group)).mpr hagrees group' hperm
    rw [hvalue, hvalue'] at hsame
    exact Option.some.inj hsame
  have hidentity := (agreesOn_iff _ _).mpr hagree.identity group' hperm
  rw [h.donated.identity, h'.donated.identity] at hidentity
  exact ObservationIn.eq_of_groups hkey (Option.some.inj hidentity)
    (htaken hagree.process h.donated.process h'.donated.process)
    (htaken hagree.container h.donated.container h'.donated.container)
    (htaken hagree.detection h.donated.detection h'.donated.detection)
    (htaken hagree.project h.donated.project h'.donated.project)
    (h.firstSeen.eq_of_perm h'.firstSeen (hperm.map _))
    (h.lastSeen.eq_of_perm h'.lastSeen (hperm.map _))

/-- Where all orders of a group are merged to the same observation, its ties agree. -/
theorem tiesAgree_of_mergesTo
    (hsame : ∀ group' : List ObservationIn, group'.Perm group → MergesTo group' merged) :
    TiesAgree group := by
  have hagrees {β : Type} {f : ObservationIn → β} {has : ObservationIn → Bool}
      (hvalue : ∀ group' : List ObservationIn, group'.Perm group →
        ((ranked group').find? (eligible has (ranked group'))).map f = some (f merged)) :
      AgreesOn f (eligible has group) group := by
    apply (agreesOn_iff f _).mp
    intro group' hperm
    have hleft := hvalue group' hperm
    have hright := hvalue group (List.Perm.refl group)
    rw [eligible_ranked] at hleft hright
    rw [eligible_perm has hperm] at hleft
    rw [hleft, hright]
  constructor
  · apply (agreesOn_iff _ _).mp
    intro group' hperm
    rw [(hsame group' hperm).donated.identity,
      (hsame group (List.Perm.refl group)).donated.identity]
  · exact hagrees fun group' hperm => (hsame group' hperm).donated.process
  · exact hagrees fun group' hperm => (hsame group' hperm).donated.container
  · exact hagrees fun group' hperm => (hsame group' hperm).donated.detection
  · exact hagrees fun group' hperm => (hsame group' hperm).donated.project

/-- The canonical observation of a group does not depend on its order if and only if its ties
agree, or its times do not compare. -/
theorem canonicalOf_perm_iff {key : BindingKey} (hkey : ∀ obs ∈ group, obs.key = key) :
    (∀ group' : List ObservationIn, group'.Perm group →
      canonicalOf group' = canonicalOf group) ↔ (TimesCompare group → TiesAgree group) := by
  rcases canonicalOf_cases group with ⟨obs, rfl⟩ | hmerges
  · have hties : TiesAgree [obs] := tiesAgree_of_eq fun x hx y hy => by
      rw [List.mem_singleton.mp hx, List.mem_singleton.mp hy]
    constructor
    · exact fun _ _ => hties
    · intro _ group' hperm
      rw [List.perm_singleton.mp hperm]
  · have hmerges' {group' : List ObservationIn} (hperm : group'.Perm group) :
        canonicalOf group' = mergeGroup group' := by
      rcases canonicalOf_cases group' with ⟨obs, rfl⟩ | h
      · rw [List.singleton_perm.mp hperm]
        exact hmerges
      · exact h
    cases group with
    | nil =>
        constructor
        · exact fun _ _ => tiesAgree_of_eq fun x hx => absurd hx List.not_mem_nil
        · intro _ group' hperm
          rw [List.perm_nil.mp hperm]
    | cons first rest =>
        constructor
        · intro hsame htimes
          obtain ⟨merged, hmerged⟩ := Option.isSome_iff_exists.mp
            ((mergeGroup_isSome_iff (List.cons_ne_nil first rest)).mpr htimes)
          have hall : ∀ group' : List ObservationIn, group'.Perm (first :: rest) →
              MergesTo group' merged := by
            intro group' hperm
            apply mergesTo_of_mergeGroup
            rw [← hmerges' hperm, hsame group' hperm, hmerges, hmerged]
          exact tiesAgree_of_mergesTo hall
        · intro hagree group' hperm
          rw [hmerges' hperm, hmerges]
          have hne : group' ≠ [] := by
            rintro rfl
            exact List.cons_ne_nil _ _ (List.nil_perm.mp hperm)
          cases hmerged : mergeGroup (first :: rest) with
          | none =>
              have hnot : ¬ TimesCompare (first :: rest) := by
                rw [← mergeGroup_isSome_iff (List.cons_ne_nil first rest), hmerged]
                decide
              have hnone : ¬ (mergeGroup group').isSome := by
                rw [mergeGroup_isSome_iff hne]
                exact fun htimes => hnot (timesCompare_perm hperm.symm htimes)
              rw [Option.not_isSome_iff_eq_none] at hnone
              exact hnone
          | some merged =>
              have htimes : TimesCompare (first :: rest) := by
                rw [← mergeGroup_isSome_iff (List.cons_ne_nil first rest), hmerged]
                rfl
              obtain ⟨merged', hmerged'⟩ := Option.isSome_iff_exists.mp
                ((mergeGroup_isSome_iff hne).mpr (timesCompare_perm hperm htimes))
              rw [hmerged']
              refine congrArg some (MergesTo.eq_of_perm (mergesTo_of_mergeGroup hmerged)
                (mergesTo_of_mergeGroup hmerged') hperm (hagree htimes) ?_)
              rw [key_mergeGroup hkey hmerged,
                key_mergeGroup (fun obs hobs => hkey obs (hperm.mem_iff.mp hobs)) hmerged']

end Group

/-! ## A snapshot -/

/-- Every order of a group is the group of an order of the snapshot. -/
theorem exists_perm_groupOf {observations group : List ObservationIn} {key : BindingKey}
    (hperm : group.Perm (groupOf observations key)) :
    ∃ observations' : List ObservationIn, observations'.Perm observations ∧
      groupOf observations' key = group := by
  refine ⟨group ++ observations.filter fun obs => !decide (obs.key = key), ?_, ?_⟩
  · exact (hperm.append_right _).trans (List.filter_append_perm _ observations)
  · have hkey : ∀ obs ∈ group, obs.key = key := fun obs hobs =>
      of_decide_eq_true (List.mem_filter.mp (hperm.mem_iff.mp hobs)).2
    rw [groupOf, List.filter_append, List.filter_filter]
    have hall : group.filter (fun obs => obs.key = key) = group :=
      List.filter_eq_self.mpr fun obs hobs => decide_eq_true (hkey obs hobs)
    rw [hall, List.filter_eq_nil_iff.mpr (by simp), List.append_nil]

theorem canonical_perm_iff (observations : List ObservationIn) :
    (∀ observations' : List ObservationIn, observations'.Perm observations →
      ∀ key, canonical observations' key = canonical observations key) ↔
      ∀ key, TimesCompare (groupOf observations key) → TiesAgree (groupOf observations key) := by
  have hkeys : ∀ key, ∀ obs ∈ groupOf observations key, obs.key = key := fun key obs hobs =>
    of_decide_eq_true (List.mem_filter.mp hobs).2
  constructor
  · intro hsame key
    apply (canonicalOf_perm_iff (hkeys key)).mp
    intro group' hperm
    obtain ⟨observations', hobservations, rfl⟩ := exists_perm_groupOf hperm
    exact hsame observations' hobservations key
  · intro hagree observations' hperm key
    exact (canonicalOf_perm_iff (hkeys key)).mpr (hagree key) _ (hperm.filter _)

/-! ## What is recorded -/

/-- An event, but for its identifier. -/
def PortObservationEvent.content (event : PortObservationEvent) : PortObservationEvent :=
  { event with id := ⟨0⟩ }

namespace Change

/-- A change, but for the identifiers it draws. -/
def plain : Change → Change
  | appears obs _ _ activityId => appears obs ⟨0⟩ ⟨0⟩ (activityId.map fun _ => ⟨0⟩)
  | changes existing obs _ => changes existing obs ⟨0⟩
  | stays existing obs => stays existing obs
  | disappears row _ _ => disappears row ⟨0⟩ ⟨0⟩

@[simp]
theorem key_plain (change : Change) : change.plain.key = change.key := by
  cases change <;> rfl

theorem content_after_plain (env : Environment) (ingest : Ingest) (change : Change) :
    (change.plain.after env ingest).map CurrentPortObservation.content =
      (change.after env ingest).map CurrentPortObservation.content := by
  cases change <;> rfl

theorem content_event_plain (ingest : Ingest) (change : Change) :
    (change.plain.event ingest).map PortObservationEvent.content =
      (change.event ingest).map PortObservationEvent.content := by
  cases change <;> rfl

end Change

section Recorded

variable {ingest : Ingest} {rows : List CurrentPortObservation} {draws : ℕ → Draw}

theorem plain_changeFor (draws' : ℕ → Draw) (obs : ObservationIn) :
    (changeFor ingest rows draws obs).plain = (changeFor ingest rows draws' obs).plain := by
  rw [changeFor, changeFor]
  split
  · cases ingest.isBaseline <;> rfl
  · split <;> rfl

/-- The same canonical observations, in any order, make the same changes. -/
theorem exists_plain_diff (draws' : ℕ → Draw) {found found' : List ObservationIn}
    (hsame : ∀ obs, obs ∈ found ↔ obs ∈ found') {change : Change}
    (hchange : change ∈ diff ingest rows draws found) :
    ∃ change' ∈ diff ingest rows draws' found', change'.plain = change.plain := by
  rcases List.mem_append.mp hchange with hfirst | hgone
  · obtain ⟨obs, hobs, k, -, rfl⟩ := mem_changesFor hfirst
    obtain ⟨k', hmem⟩ := exists_mem_changesFor ingest rows draws' ((hsame obs).mp hobs)
    exact ⟨_, List.mem_append_left _ hmem, plain_changeFor _ obs⟩
  · obtain ⟨row, hrow, hout, eventId, activityId, rfl⟩ := mem_goneFor hgone
    have hout' : row.key ∉ found'.map ObservationIn.key := by
      intro hin
      obtain ⟨obs, hobs, hkey⟩ := List.mem_map.mp hin
      exact hout (hkey ▸ List.mem_map_of_mem ((hsame obs).mpr hobs))
    obtain ⟨eventId', activityId', hmem⟩ := exists_mem_goneFor
      (fun n => draws' (n + drawnBy (changesFor ingest rows draws' found'))) hrow hout'
    exact ⟨_, List.mem_append_right _ hmem, rfl⟩

end Recorded

/-! ## When a snapshot is accepted -/

/-- The column types an observation has to fit. -/
def ObservationIn.storable (obs : ObservationIn) : Bool :=
  obs.state ∈ portStates ∧ fitsInteger obs.pid

/-- The column types a change has to fit. -/
def Change.storable : Change → Bool
  | appears obs _ _ _ => obs.storable
  | changes _ obs _ => obs.storable
  | stays _ obs => obs.storable
  | disappears row _ _ => row.state ∈ portStates

theorem Change.storable_plain (change : Change) : change.plain.storable = change.storable := by
  cases change <;> rfl

section Storing

variable {env : Environment} {ingest : Ingest} {db : Db}

theorem insertCurrent_accepted {row : CurrentPortObservation} :
    store.refuses db (.insertCurrent row) = none ↔
      row.fits = true ∧ db.hasHost row.hostId = true ∧ db.current.any row.sameBinding = false := by
  simp only [store, Write.refused]
  cases row.fits <;> cases db.hasHost row.hostId <;> cases db.current.any row.sameBinding <;> simp

theorem updateCurrent_accepted {row : CurrentPortObservation} :
    store.refuses db (.updateCurrent row) = none ↔ row.fits = true := by
  simp only [store, Write.refused]
  cases row.fits <;> simp

theorem insertEvent_accepted {row : PortObservationEvent} :
    store.refuses db (.insertEvent row) = none ↔
      row.state ∈ portStates ∧ db.hasHost row.hostId = true := by
  simp only [store, Write.refused]
  by_cases hstate : row.state ∈ portStates <;> cases db.hasHost row.hostId <;> simp [hstate]

theorem insertActivity_accepted {row : ActivityEvent} :
    store.refuses db (.insertActivity row) = none ↔ db.hasHost row.hostId = true := by
  simp only [store, Write.refused]
  cases db.hasHost row.hostId <;> simp

theorem ObservationIn.state_of_storable {obs : ObservationIn} (h : obs.storable = true) :
    obs.state ∈ portStates := (of_decide_eq_true h).1

/-- No row has the binding of a change that appears. -/
theorem no_sameBinding {obs : ObservationIn} (id : Uuid)
    (hbefore : db.rowsAt (ingest.hostId, obs.key) = []) :
    db.current.any (currentRow env ingest.hostId obs ingest.scanId ingest.observedAt
      id).sameBinding = false := by
  rw [List.any_eq_false]
  intro old hold hsame
  have hslot : old ∈ db.rowsAt (ingest.hostId, obs.key) := by
    have hsame := of_decide_eq_true hsame
    apply List.mem_filter.mpr
    refine ⟨hold, decide_eq_true ?_⟩
    simp only [CurrentPortObservation.slot, CurrentPortObservation.key, ObservationIn.key,
      Prod.mk.injEq]
    exact ⟨hsame.1.symm, hsame.2.1.symm, hsame.2.2.1.symm, hsame.2.2.2.symm⟩
  rw [hbefore] at hslot
  exact List.not_mem_nil hslot

/-- The database refuses a change that fits the contents for its column types only. -/
theorem refusesAll_change {change : Change} (hhost : db.hasHost ingest.hostId = true)
    (hfits : change.Fits ingest db) :
    store.refusesAll (change.writes env ingest) db = none ↔ change.storable = true := by
  cases change with
  | appears obs id eventId activityId =>
      have hnone : db.current.any (currentRow env ingest.hostId obs ingest.scanId
          ingest.observedAt id).sameBinding = false := no_sameBinding id hfits.before
      have hactivity : store.refusesAll (activityId.toList.map fun activityId =>
          Write.insertActivity (portAppeared ingest.hostId obs ingest.observedAt activityId))
            (store.applyAll [.insertCurrent (currentRow env ingest.hostId obs ingest.scanId
              ingest.observedAt id), .insertEvent (observationEvent ingest.hostId obs .appeared
                ingest.scanId ingest.observedAt eventId)] db) = none := by
        cases activityId with
        | none => rfl
        | some activityId =>
            rw [Option.toList_some, List.map_singleton, Store.refusesAll_cons_eq_none]
            exact ⟨insertActivity_accepted.mpr hhost, rfl⟩
      rw [Change.writes, Store.refusesAll_append_eq_none, and_iff_left hactivity,
        Store.refusesAll_cons_eq_none, Store.refusesAll_cons_eq_none, insertCurrent_accepted,
        insertEvent_accepted]
      constructor
      · exact fun h => h.1.1
      · exact fun h => ⟨⟨h, hhost, hnone⟩, ⟨ObservationIn.state_of_storable h, hhost⟩, rfl⟩
  | changes existing obs eventId =>
      rw [Change.writes, Store.refusesAll_cons_eq_none, Store.refusesAll_cons_eq_none,
        updateCurrent_accepted, insertEvent_accepted]
      constructor
      · exact fun h => h.2.1
      · exact fun h => ⟨⟨ObservationIn.state_of_storable h, hhost⟩, h, rfl⟩
  | stays existing obs =>
      rw [Change.writes, Store.refusesAll_cons_eq_none, updateCurrent_accepted]
      exact ⟨fun h => h.1, fun h => ⟨h, rfl⟩⟩
  | disappears row eventId activityId =>
      rw [Change.writes, Store.refusesAll_cons_eq_none, Store.refusesAll_cons_eq_none,
        Store.refusesAll_cons_eq_none, insertEvent_accepted, insertActivity_accepted]
      constructor
      · exact fun h => decide_eq_true h.1.1
      · exact fun h => ⟨⟨of_decide_eq_true h, hhost⟩, hhost, rfl, rfl⟩

/-- The database refuses the changes of a snapshot for their column types only. -/
theorem refusesAll_changes {changes : List Change} (hhost : db.hasHost ingest.hostId = true)
    (hids : (db.current.map CurrentPortObservation.id).Nodup)
    (hkeys : (changes.map Change.key).Nodup) (hnew : (changes.filterMap Change.newId).Nodup)
    (hfits : ∀ change ∈ changes, change.Fits ingest db) :
    store.refusesAll (changes.flatMap (Change.writes env ingest)) db = none ↔
      ∀ change ∈ changes, change.storable = true := by
  induction changes generalizing db with
  | nil => simp
  | cons change changes ih =>
      obtain ⟨hhead, hrest⟩ := List.forall_mem_cons.mp hfits
      have heffect : change.Effect env ingest db
          (store.applyAll (change.writes env ingest) db) := Change.effect_writes hids hhead
      have hhost' : (store.applyAll (change.writes env ingest) db).hasHost ingest.hostId = true := by
        have hhosts : (store.applyAll ([change].flatMap (Change.writes env ingest)) db).hosts =
            db.hosts := (applyAll_changes [change] db).2
        rw [List.flatMap_singleton] at hhosts
        rw [Db.hasHost, hhosts]
        exact hhost
      obtain ⟨hfirst, hkeys⟩ := List.nodup_cons.mp hkeys
      have hnew' : ((change.newId.toList ++ changes.filterMap Change.newId)).Nodup := by
        rw [List.filterMap_cons] at hnew
        cases hid : change.newId <;> simpa [hid] using hnew
      obtain ⟨-, hnewRest, hdisjoint⟩ := List.nodup_append.mp hnew'
      rw [List.flatMap_cons, Store.refusesAll_append_eq_none, refusesAll_change hhost hhead,
        List.forall_mem_cons, ih hhost' heffect.ids hkeys hnewRest fun other hother =>
          (hrest other hother).after_other heffect
            (fun hsame => hfirst (hsame ▸ List.mem_map_of_mem hother))
            fun id hid hother' => hdisjoint id (by rw [hid]; exact List.mem_singleton_self id) id
              (List.mem_filterMap.mpr ⟨other, hother, hother'⟩) rfl]

/-- The changes of a snapshot leave the scans alone. -/
theorem scans_applyAll_changes (changes : List Change) (db : Db) :
    (store.applyAll (changes.flatMap (Change.writes env ingest)) db).scans = db.scans := by
  induction changes generalizing db with
  | nil => rfl
  | cons change changes ih =>
      rw [List.flatMap_cons, Store.applyAll_append, ih]
      cases change with
      | appears obs id eventId activityId =>
          cases activityId <;> simp [Change.writes, Write.apply]
      | changes existing obs eventId => simp [Change.writes, Write.apply]
      | stays existing obs => simp [Change.writes, Write.apply]
      | disappears row eventId activityId => simp [Change.writes, Write.apply]

/-- The database accepts the scan of a known host with a new identifier. -/
theorem refusesAll_scanWrites (changes : List Change) (count : ℕ) (receivedAt : ℤ)
    (hhost : db.hasHost ingest.hostId = true)
    (hscan : db.scans.find? (fun scan => scan.id = ingest.scanId) = none) :
    store.refusesAll (scanWrites ingest count receivedAt)
      (store.applyAll (changes.flatMap (Change.writes env ingest)) db) = none := by
  have hscans : (store.applyAll (changes.flatMap (Change.writes env ingest)) db).scans =
      db.scans := scans_applyAll_changes changes db
  have hhosts : (store.applyAll (changes.flatMap (Change.writes env ingest)) db).hosts =
      db.hosts := (applyAll_changes changes db).2
  generalize store.applyAll (changes.flatMap (Change.writes env ingest)) db = later at *
  have hknown : later.hasHost ingest.hostId = true := by
    rw [Db.hasHost, hhosts]
    exact hhost
  have hnew : later.scans.any (fun scan => scan.id = ingest.scanId) = false := by
    rw [hscans, List.any_eq_false]
    exact fun scan hmem => by simpa using List.find?_eq_none.mp hscan scan hmem
  rw [scanWrites, Store.refusesAll_cons_eq_none]
  constructor
  · simp only [store, Write.refused, hnew, hknown]
    rfl
  · rfl

end Storing

/-- What decides whether a snapshot that runs alone is accepted. -/
def Accepts (turn : Turn SnapshotCall Draw) (db : Db) : Prop :=
  turn.call.observations.length ≤ turn.call.maxBatchSize ∧
    (db.scans.find? fun scan => scan.id = turn.call.scanId) = none ∧
      (db.listCurrentForHost turn.call.hostId).all CurrentPortObservation.readable = true ∧
      ∃ host found, db.getHost turn.call.hostId = some host ∧ host.readable = true ∧
        (host.lastScanObservedAt.any fun last => turn.call.observedAt.micros ≤ last) = false ∧
        canonicalizeObservations turn.call.observations = some found ∧ turn.faults 0 = none ∧
        ∀ change ∈ turn.call.diff host db turn.draws found, change.storable = true

section Accepting

variable {env : Environment} {done : List (Turn SnapshotCall Draw)}
  {turn : Turn SnapshotCall Draw} {db : Db}

/-- The changes of a snapshot: they fit the contents, each is of another binding, and what they
draw is new. -/
theorem RowsKept.diff (hkept : RowsKept done db) (hdraws : Unrepeated (done ++ [turn]))
    (host : Host) {found : List ObservationIn}
    (hfound : canonicalizeObservations turn.call.observations = some found) :
    (∀ change ∈ turn.call.diff host db turn.draws found,
        change.Fits (turn.call.ingest host) db) ∧
      ((turn.call.diff host db turn.draws found).map Change.key).Nodup ∧
      ((turn.call.diff host db turn.draws found).filterMap Change.newId).Nodup := by
  have hle := length_canonicalizeObservations_le hfound
  refine ⟨?_, ?_, ?_⟩
  · exact fits_diff hkept.tidy fun n hn => hkept.fresh hdraws (by omega)
  · exact nodup_keys_diff (nodup_canonicalizeObservations hfound) (hkept.tidy.nodup_keys _)
  · rw [SnapshotCall.diff, Central.diff, List.filterMap_append, newIds_goneFor, List.append_nil]
    exact (newIds_changesFor fun j hj k hk =>
      hdraws.draws_inj j (by omega) k (by omega)).1

/-- The writes of a snapshot are refused for the column types of its changes only. -/
theorem refusesAll_snapshot {host : Host} {found : List ObservationIn}
    (hhost : db.getHost turn.call.hostId = some host)
    (hscan : (db.scans.find? fun scan => scan.id = turn.call.scanId) = none)
    (hfound : canonicalizeObservations turn.call.observations = some found)
    (hkept : RowsKept done db) (hdraws : Unrepeated (done ++ [turn])) (receivedAt : ℤ) :
    store.refusesAll ((turn.call.diff host db turn.draws found).flatMap
        (Change.writes env (turn.call.ingest host)) ++
          scanWrites (turn.call.ingest host) turn.call.observations.length receivedAt) db = none ↔
      ∀ change ∈ turn.call.diff host db turn.draws found, change.storable = true := by
  obtain ⟨hfits, hkeys, hnew⟩ := hkept.diff hdraws host hfound
  have hknown : db.hasHost (turn.call.ingest host).hostId = true := hasHost_of_getHost hhost
  rw [Store.refusesAll_append_eq_none, refusesAll_changes hknown hkept.tidy.ids hkeys hnew hfits]
  exact and_iff_left (refusesAll_scanWrites _ _ receivedAt hknown hscan)

/-- A session that had written nothing commits unless the database fails or refuses. -/
theorem flushError_staged {s : ServiceSession} (hs : Blank s) (writes : List Write)
    (draws : ℕ → Draw) (db : Db) :
    ({ s with pending := s.pending ++ writes, draws := draws } :
      ServiceSession).flushError store db = none ↔
      s.faults 0 = none ∧ store.refusesAll writes db = none := by
  obtain ⟨hflushed, hpending⟩ := List.append_eq_nil_iff.mp hs.batch
  simp only [Session.flushError, Session.view, hflushed, hpending, List.nil_append,
    Store.applyAll_nil]
  cases s.faults 0 <;> simp

/-- The answer to a snapshot of a known host that is no repetition. -/
theorem ensures_accepts (env : Environment) (hkept : RowsKept done db)
    (hdraws : Unrepeated (done ++ [turn]))
    (hshort : turn.call.observations.length ≤ turn.call.maxBatchSize)
    (hscan : (db.scans.find? fun scan => scan.id = turn.call.scanId) = none) {host : Host}
    (hhost : db.getHost turn.call.hostId = some host) (hreadable : host.readable = true)
    {s : ServiceSession} (hs : Untouched turn.draws s) (hfaults : s.faults = turn.faults) :
    (ingestFor env host turn.call.hostId turn.call.scanId turn.call.observedAt.micros
      turn.call.observations).Ensures store (Program.alone store db) (fun _ => True) s
        fun _ result => (isAccepted result = true ↔ Accepts turn db) := by
  have hrefused {failure : Failure} (hnot : ¬ Accepts turn db) :
      isAccepted (.error failure) = true ↔ Accepts turn db :=
    iff_of_false Bool.false_ne_true hnot
  rw [ingestFor]
  split
  · next hstale =>
      apply hrefused
      rintro ⟨-, -, -, other, found, hother, -, hnewer, -⟩
      rw [hhost] at hother
      rw [← Option.some.inj hother, hstale] at hnewer
      cases hnewer
  · next hnewer =>
      cases hfound : canonicalizeObservations turn.call.observations with
      | none =>
          apply hrefused
          rintro ⟨-, -, -, other, found, -, -, -, hother, -⟩
          rw [hfound] at hother
          cases hother
      | some found =>
          simp only [stageSnapshot, Program.bind_eq, Program.ensures_bind, ensures_select]
          intro seen hseen
          rw [hs.view_eq hseen]
          rw [whenReadable]
          split
          swap
          · next hunreadable => exact hrefused fun h => hunreadable h.2.2.1
          next hrows =>
          refine ensures_stageDiff env (turn.call.ingest host) _ _ _ fun later receivedAt => ?_
          simp only [ensures_commit]
          have hmet (met : Db) (hmet : Program.alone store db s met) : met = db := by
            rw [Program.alone, hs.committed, Store.applyAll_nil] at hmet
            exact hmet
          have hcommits (met : Db) (hrely : Program.alone store db s met) :
              ({ s with
                  pending := s.pending ++ ((turn.call.diff host db s.draws found).flatMap
                    (Change.writes env (turn.call.ingest host)) ++
                      scanWrites (turn.call.ingest host) turn.call.observations.length receivedAt)
                  draws := later } : ServiceSession).flushError store met = none ↔
                turn.faults 0 = none ∧
                  ∀ change ∈ turn.call.diff host db turn.draws found, change.storable = true := by
            rw [flushError_staged hs.toBlank, hfaults, hmet met hrely, hs.draws,
              refusesAll_snapshot hhost hscan hfound hkept hdraws receivedAt]
          refine ⟨trivial, fun met hrely haccepted => ?_, fun met error hrely herror => ?_⟩
          · exact iff_of_true rfl ⟨hshort, hscan, hrows, host, found, hhost, hreadable,
              Bool.eq_false_of_not_eq_true hnewer, hfound, (hcommits met hrely).mp haccepted⟩
          · apply hrefused
            rintro ⟨-, -, -, other, found', hother, -, -, hfound', hcommitted⟩
            rw [hhost] at hother
            rw [hfound] at hfound'
            cases hother
            cases hfound'
            have hclash : none = some error :=
              ((hcommits met hrely).mpr hcommitted).symm.trans herror
            cases hclash

/-- The answer to a snapshot that runs alone. -/
theorem isAccepted_iff (env : Environment) (hkept : RowsKept done db)
    (hdraws : Unrepeated (done ++ [turn])) :
    isAccepted (turn.answer store (SnapshotCall.program env) db) = true ↔ Accepts turn db := by
  have hensures : (turn.call.program env).Ensures store (Program.alone store db) (fun _ => True)
      (Session.start turn.draws turn.faults) fun _ result =>
        (isAccepted result = true ↔ Accepts turn db) := by
    rw [SnapshotCall.program, ingestSnapshot]
    split
    · next hlong => exact iff_of_false Bool.false_ne_true fun h => absurd h.1 (not_le.mpr hlong)
    · next hshort =>
        let s : ServiceSession :=
          (Session.start turn.draws turn.faults).afterLock (env.hashtext turn.call.hostId.text)
        have hs : Untouched turn.draws s := ⟨⟨rfl, rfl⟩, rfl⟩
        simp only [Program.bind_eq, Program.ensures_bind, ensures_acquireHostLock, ingestLocked,
          ensures_select]
        intro seen hseen
        rw [show (Session.start turn.draws turn.faults : ServiceSession).afterLock _ = s from rfl,
          hs.view_eq hseen]
        cases hscan : db.scans.find? fun scan => scan.id = turn.call.scanId with
        | some scan =>
            have hrefused : ¬ Accepts turn db := by
              intro h
              rw [h.2.1] at hscan
              cases hscan
            exact ensures_whenReadable (fun _ => iff_of_false Bool.false_ne_true hrefused)
              (iff_of_false Bool.false_ne_true hrefused)
        | none =>
            simp only [Program.ensures_bind, ensures_select]
            intro seen hseen
            rw [hs.view_eq hseen]
            cases hhost : db.getHost turn.call.hostId with
            | none =>
                apply iff_of_false Bool.false_ne_true
                rintro ⟨-, -, -, host, -, hknown, -⟩
                rw [hknown] at hhost
                cases hhost
            | some host =>
                simp only [whenReadable]
                split
                · next hreadable =>
                    exact ensures_accepts env hkept hdraws (not_lt.mp hshort) hscan hhost hreadable
                      hs rfl
                · next hunreadable =>
                    apply iff_of_false Bool.false_ne_true
                    rintro ⟨-, -, -, other, -, hknown, hreadable, -⟩
                    rw [hhost] at hknown
                    cases hknown
                    exact hunreadable hreadable
  obtain ⟨-, -, h⟩ := Turn.next_eq_of_ensures turn hensures
  exact h

end Accepting

/-- The same turn with other observations. -/
def resubmit (turn : Turn SnapshotCall Draw) (observations : List ObservationIn) :
    Turn SnapshotCall Draw :=
  { turn with call := { turn.call with observations := observations } }

section Turns

variable {env : Environment} {done : List (Turn SnapshotCall Draw)}
  {turn : Turn SnapshotCall Draw} {db : Db} {host : Host} {found found' : List ObservationIn}
  {observations : List ObservationIn}

theorem Unrepeated.resubmit (h : Unrepeated (done ++ [turn]))
    (hlength : observations.length = turn.call.observations.length) :
    Unrepeated (done ++ [Central.resubmit turn observations]) := by
  have hdrawn : drawnIds (Central.resubmit turn observations) = drawnIds turn := by
    rw [drawnIds, drawnIds]
    change (List.range (3 * observations.length)).map _ = _
    rw [hlength]
    rfl
  rw [Unrepeated, List.flatMap_append, List.flatMap_singleton] at h ⊢
  rw [hdrawn]
  exact h

/-- What an accepted snapshot makes of a binding: of its row, and of its history. -/
theorem Accepted.at_change (h : Accepted env turn db host found) (hkept : RowsKept done db)
    (hdraws : Unrepeated (done ++ [turn])) {change : Change}
    (hchange : change ∈ turn.call.diff host db turn.draws found) :
    ((turn.next store (SnapshotCall.program env) db).rowsAt
        (turn.call.hostId, change.key)).map CurrentPortObservation.content =
        ((change.plain.after env (turn.call.ingest host)).map
          CurrentPortObservation.content).toList ∧
      ((turn.next store (SnapshotCall.program env) db).eventsAt
        (turn.call.hostId, change.key)).map PortObservationEvent.content =
        (db.eventsAt (turn.call.hostId, change.key)).map PortObservationEvent.content ++
          ((change.plain.event (turn.call.ingest host)).map
            PortObservationEvent.content).toList := by
  obtain ⟨hfits, hkeys, -⟩ := hkept.diff hdraws host h.canonical
  constructor
  · rw [Change.content_after_plain, Option.toList_map]
    exact congrArg _ ((h.effects hkept hdraws).own change hchange)
  · have hown := filter_events hkeys hfits hchange
    change List.filter (fun event : PortObservationEvent =>
      decide (event.slot = (turn.call.hostId, change.key))) _ = _ at hown
    rw [Db.eventsAt, h.events, List.filter_append, List.map_append, hown,
      Change.content_event_plain, Option.toList_map]
    rfl

/-- A binding that an accepted snapshot does not concern. -/
theorem Accepted.at_other (h : Accepted env turn db host found) (hkept : RowsKept done db)
    (hdraws : Unrepeated (done ++ [turn])) {slot : Slot}
    (hslot : ∀ change ∈ turn.call.diff host db turn.draws found,
      slot ≠ (turn.call.hostId, change.key)) :
    (turn.next store (SnapshotCall.program env) db).rowsAt slot = db.rowsAt slot ∧
      (turn.next store (SnapshotCall.program env) db).eventsAt slot = db.eventsAt slot := by
  obtain ⟨hfits, -⟩ := hkept.diff hdraws host h.canonical
  constructor
  · exact (h.effects hkept hdraws).others slot hslot
  · rw [Db.eventsAt, h.events, List.filter_append, filter_events_other hfits hslot,
      List.append_nil]
    rfl

/-- Two accepted snapshots with the same canonical observations leave the same. -/
theorem Accepted.alike (h : Accepted env turn db host found)
    (h' : Accepted env (Central.resubmit turn observations) db host found')
    (hkept : RowsKept done db) (hdraws : Unrepeated (done ++ [turn]))
    (hdraws' : Unrepeated (done ++ [Central.resubmit turn observations]))
    (hsame : ∀ obs, obs ∈ found ↔ obs ∈ found') (slot : Slot) :
    (((Central.resubmit turn observations).next store (SnapshotCall.program env) db).rowsAt
        slot).map CurrentPortObservation.content =
        ((turn.next store (SnapshotCall.program env) db).rowsAt slot).map
          CurrentPortObservation.content ∧
      (((Central.resubmit turn observations).next store (SnapshotCall.program env) db).eventsAt
        slot).map PortObservationEvent.content =
        ((turn.next store (SnapshotCall.program env) db).eventsAt slot).map
          PortObservationEvent.content := by
  by_cases hslot : ∃ change ∈ turn.call.diff host db turn.draws found,
      slot = (turn.call.hostId, change.key)
  · obtain ⟨change, hchange, rfl⟩ := hslot
    obtain ⟨change', hchange', hplain⟩ := exists_plain_diff turn.draws hsame hchange
    have hkey : change'.key = change.key := by
      rw [← Change.key_plain, hplain, Change.key_plain]
    obtain ⟨hrows, hevents⟩ := h.at_change hkept hdraws hchange
    obtain ⟨hrows', hevents'⟩ := h'.at_change hkept hdraws' hchange'
    rw [hkey, hplain] at hrows' hevents'
    exact ⟨hrows'.trans hrows.symm, hevents'.trans hevents.symm⟩
  · push Not at hslot
    obtain ⟨hrows, hevents⟩ := h.at_other hkept hdraws hslot
    have hslot' : ∀ change ∈ (Central.resubmit turn observations).call.diff host db
        (Central.resubmit turn observations).draws found',
        slot ≠ ((Central.resubmit turn observations).call.hostId, change.key) := by
      intro change' hchange' hequal
      obtain ⟨change, hchange, hplain⟩ := exists_plain_diff turn.draws
        (fun obs => (hsame obs).symm) hchange'
      apply hslot change hchange
      rw [hequal, ← Change.key_plain change, hplain, Change.key_plain]
      rfl
    obtain ⟨hrows', hevents'⟩ := h'.at_other hkept hdraws' hslot'
    rw [hrows, hevents, hrows', hevents']
    exact ⟨rfl, rfl⟩

/-- Another order of the observations with the same canonical observations is accepted too. -/
theorem Accepts.resubmit (h : Accepts turn db) (hperm : observations.Perm turn.call.observations)
    (hsame : ∀ key, canonical observations key = canonical turn.call.observations key) :
    Accepts (Central.resubmit turn observations) db := by
  obtain ⟨hshort, hscan, hrows, host, found, hhost, hreadable, hnewer, hfound, hfaults,
    hstorable⟩ := h
  have hsome : (canonicalizeObservations observations).isSome := by
    rw [canonicalizeObservations_isSome_iff]
    intro key
    have htimes := canonicalizeObservations_isSome_iff.mp (by rw [hfound]; rfl) key
    exact timesCompare_perm (hperm.filter _) htimes
  obtain ⟨found', hfound'⟩ := Option.isSome_iff_exists.mp hsome
  refine ⟨hperm.length_eq ▸ hshort, hscan, hrows, host, found', hhost, hreadable, hnewer, hfound',
    hfaults, ?_⟩
  intro change' hchange'
  have hmem : ∀ obs, obs ∈ found' ↔ obs ∈ found := by
    intro obs
    rw [mem_canonicalizeObservations hfound', mem_canonicalizeObservations hfound]
    exact Eq.congr_left (hsame obs.key)
  obtain ⟨change, hchange, hplain⟩ := exists_plain_diff turn.draws hmem hchange'
  rw [← Change.storable_plain, ← hplain, Change.storable_plain]
  exact hstorable change hchange

end Turns

/-- The two snapshots are both accepted or both not, after any run of snapshots, and leave the
same rows and the same events, but for the identifiers that are drawn. -/
def IngestedAlike (env : Environment) (observations observations' : List ObservationIn) : Prop :=
  ∀ (start : Db) (done : List (Turn SnapshotCall Draw)) (turn : Turn SnapshotCall Draw),
    start.Unscanned → turn.call.observations = observations → Unrepeated (done ++ [turn]) →
    ∀ db, db = Turn.runAll store (SnapshotCall.program env) done start →
    isAccepted ((resubmit turn observations').answer store (SnapshotCall.program env) db) =
        isAccepted (turn.answer store (SnapshotCall.program env) db) ∧
      ∀ slot,
        (((resubmit turn observations').next store (SnapshotCall.program env) db).rowsAt slot).map
            CurrentPortObservation.content =
          ((turn.next store (SnapshotCall.program env) db).rowsAt slot).map
            CurrentPortObservation.content ∧
        (((resubmit turn observations').next store (SnapshotCall.program env) db).eventsAt slot).map
            PortObservationEvent.content =
          ((turn.next store (SnapshotCall.program env) db).eventsAt slot).map
            PortObservationEvent.content

theorem ingestedAlike_of_canonical (env : Environment) {observations observations' :
    List ObservationIn} (hperm : observations'.Perm observations)
    (hsame : ∀ key, canonical observations' key = canonical observations key) :
    IngestedAlike env observations observations' := by
  rintro start done turn hstart rfl hdraws db hdb
  have hkept : RowsKept done db := by
    rw [hdb]
    exact (runKept_runAll env turn.call.hostId hstart hdraws.of_concat).toRowsKept
  have hdraws' := hdraws.resubmit hperm.length_eq
  have haccepts := isAccepted_iff env hkept hdraws
  have haccepts' := isAccepted_iff env hkept hdraws'
  have hiff : Accepts (resubmit turn observations') db ↔ Accepts turn db := by
    constructor
    · intro h
      show Accepts (resubmit (resubmit turn observations') turn.call.observations) db
      exact h.resubmit hperm.symm fun key => (hsame key).symm
    · exact fun h => h.resubmit hperm hsame
  have hanswer := Bool.eq_iff_iff.mpr (haccepts'.trans (hiff.trans haccepts.symm))
  refine ⟨hanswer, fun slot => ?_⟩
  rcases accepted_or_unchanged env turn db with ⟨hrejected, hnext, -⟩ | ⟨haccepted, host, found, h⟩
  · rcases accepted_or_unchanged env (resubmit turn observations') db with
      ⟨-, hnext', -⟩ | ⟨haccepted', -⟩
    · rw [hnext, hnext']
      exact ⟨rfl, rfl⟩
    · rw [haccepted', hrejected] at hanswer
      cases hanswer
  · rcases accepted_or_unchanged env (resubmit turn observations') db with
      ⟨hrejected', -⟩ | ⟨-, host', found', h'⟩
    · rw [hrejected', haccepted] at hanswer
      cases hanswer
    · have hhost : host' = host := Option.some.inj (h'.known.symm.trans h.known)
      rw [hhost] at h'
      refine h.alike h' hkept hdraws hdraws' (fun obs => ?_) slot
      rw [mem_canonicalizeObservations h.canonical, mem_canonicalizeObservations h'.canonical]
      exact Eq.congr_left (hsame obs.key).symm

/-- The order of a snapshot is irrelevant, for its canonical observations and for what is recorded
of them, if and only if in each of its bindings whose times compare the ties agree. -/
theorem order_irrelevant_iff (env : Environment) (observations : List ObservationIn) :
    (∀ observations' : List ObservationIn, observations'.Perm observations →
      (∀ key, canonical observations' key = canonical observations key) ∧
        IngestedAlike env observations observations') ↔
      ∀ key, TimesCompare (groupOf observations key) → TiesAgree (groupOf observations key) := by
  rw [← canonical_perm_iff]
  constructor
  · exact fun h observations' hperm => (h observations' hperm).1
  · intro h observations' hperm
    exact ⟨h observations' hperm, ingestedAlike_of_canonical env hperm (h observations' hperm)⟩

/-- Two observations of one binding that differ in the path of the process only, which the ranking
does not look at: the first one of the snapshot is taken. -/
theorem order_matters :
    let first := { plainObservation with processPath := some "/usr/bin/node" }
    let second := { plainObservation with processPath := some "/opt/node/bin/node" }
    [second, first].Perm [first, second] ∧
      canonical [first, second] first.key = some first ∧
      canonical [second, first] first.key = some second := by
  decide

end Central
