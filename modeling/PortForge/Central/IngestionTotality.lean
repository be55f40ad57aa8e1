/-
# Which snapshots are answered

A snapshot that passes the schema can still fail in three ways that are no rejection: times
with and without a UTC offset do not compare when observations of one binding are merged,
what the merged observation takes from its group may not fit the columns, and a row that is
read may hold a time that no `datetime` can. Whether the first two happen is decided binding
by binding, by the members of the group whose fields are taken.
-/

import PortForge.Central.HeartbeatTotality
import PortForge.Central.SnapshotOrder

namespace Central

open Transaction

/-! ## What fits the columns -/

/-- The texts an observation is stored with hold no zero character. Their lengths are
checked by the schema. -/
def ObservationIn.textsFit (obs : ObservationIn) : Bool :=
  fitsText obs.bindAddress && fitsText obs.source && obs.processName.all fitsText &&
    obs.processPath.all fitsText && obs.workingDirectory.all fitsText &&
    obs.containerId.all fitsText && obs.containerName.all fitsText &&
    obs.containerImage.all fitsText && obs.dockerComposeProject.all fitsText &&
    obs.serviceName.all fitsText && obs.projectName.all fitsText &&
    obs.purpose.all fitsText && obs.category.all fitsText && obs.detectionConfidence.all fitsText

/-- The fields of the first ranked member: the state is one of the enum. -/
def ObservationIn.identityFits (obs : ObservationIn) : Bool :=
  obs.state ∈ portStates && fitsText obs.source

/-- `_PROCESS_FIELDS`: the process id is a 32-bit integer. -/
def ObservationIn.processFits (obs : ObservationIn) : Bool :=
  fitsInteger obs.pid && obs.processName.all fitsText && obs.processPath.all fitsText &&
    obs.workingDirectory.all fitsText

/-- `_CONTAINER_FIELDS`. -/
def ObservationIn.containerFits (obs : ObservationIn) : Bool :=
  obs.containerId.all fitsText && obs.containerName.all fitsText &&
    obs.containerImage.all fitsText && obs.dockerComposeProject.all fitsText &&
    obs.serviceName.all fitsText

/-- `_DETECTION_FIELDS`. -/
def ObservationIn.detectionFits (obs : ObservationIn) : Bool :=
  obs.purpose.all fitsText && obs.category.all fitsText && obs.detectionConfidence.all fitsText

/-- An observation fits if its groups of fields do. -/
theorem storable_and_textsFit_iff (obs : ObservationIn) :
    obs.storable = true ∧ obs.textsFit = true ↔
      fitsText obs.bindAddress = true ∧ obs.identityFits = true ∧ obs.processFits = true ∧
        obs.containerFits = true ∧ obs.detectionFits = true ∧
        obs.projectName.all fitsText = true := by
  simp only [ObservationIn.storable, ObservationIn.textsFit, ObservationIn.identityFits,
    ObservationIn.processFits, ObservationIn.containerFits, ObservationIn.detectionFits,
    Bool.and_eq_true, decide_eq_true_eq]
  tauto

/-! ## Groups -/

/-- The member of a group whose fields are taken. -/
def taken (has : ObservationIn → Bool) (group : List ObservationIn) : Option ObservationIn :=
  (ranked group).find? (eligible has (ranked group))

/-- The observations of a binding can be merged and stored: their times compare, and
what is taken from each member fits the columns. -/
structure GroupFits (group : List ObservationIn) : Prop where
  times : TimesCompare group
  binding : ∀ obs ∈ group, fitsText obs.bindAddress = true
  identity : ∀ obs ∈ (ranked group).head?, obs.identityFits = true
  process : ∀ obs ∈ taken ObservationIn.hasProcess group, obs.processFits = true
  container : ∀ obs ∈ taken ObservationIn.hasContainer group, obs.containerFits = true
  detection : ∀ obs ∈ taken ObservationIn.hasDetection group, obs.detectionFits = true
  project : ∀ obs ∈ taken ObservationIn.hasProject group, obs.projectName.all fitsText = true

/-- A condition on fields that are taken from somebody is one on the fields taken. -/
theorem forall_mem_iff_of_map_eq {β : Type} {found : Option ObservationIn}
    {f : ObservationIn → β} {merged : ObservationIn} (fits : ObservationIn → Bool)
    (h : found.map f = some (f merged)) (hfits : ∀ a b, f a = f b → fits a = fits b) :
    (∀ obs ∈ found, fits obs = true) ↔ fits merged = true := by
  obtain ⟨donor, hfound, hsame⟩ := Option.map_eq_some_iff.mp h
  rw [hfound, ← hfits donor merged hsame]
  simp

theorem donated_singleton (obs : ObservationIn) : Donated (ranked [obs]) obs := by
  constructor <;> simp [ranked, eligible]

theorem donated_canonical {observations : List ObservationIn} {key : BindingKey}
    {obs : ObservationIn} (h : canonical observations key = some obs) :
    Donated (ranked (groupOf observations key)) obs := by
  rw [canonical] at h
  split at h
  · next found hgroup =>
      cases h
      rw [groupOf, hgroup]
      exact donated_singleton obs
  · exact (mergesTo_of_mergeGroup h).donated

/-- The merged observation of a binding fits if its group does. -/
theorem canonical_fits_iff {observations : List ObservationIn} {key : BindingKey}
    {obs : ObservationIn} (hmem : key ∈ observations.map ObservationIn.key)
    (h : canonical observations key = some obs) :
    obs.storable = true ∧ obs.textsFit = true ↔ GroupFits (groupOf observations key) := by
  have htimes : TimesCompare (groupOf observations key) :=
    (canonical_isSome_iff hmem).mp (by rw [h]; rfl)
  obtain ⟨hidentity, hprocess, hcontainer, hdetection, hproject⟩ := donated_canonical h
  have hbinding : (∀ member ∈ groupOf observations key, fitsText member.bindAddress = true) ↔
      fitsText obs.bindAddress = true := by
    obtain ⟨member, hmember, hkey⟩ := List.mem_map.mp hmem
    have hin : member ∈ groupOf observations key :=
      List.mem_filter.mpr ⟨hmember, decide_eq_true hkey⟩
    have hsame : ∀ other ∈ groupOf observations key, other.bindAddress = obs.bindAddress := by
      intro other hother
      have hotherKey : other.key = key := of_decide_eq_true (List.mem_filter.mp hother).2
      have hkeys : other.key = obs.key := hotherKey.trans (key_canonical h).symm
      exact congrArg (fun key : BindingKey => key.2.2) hkeys
    constructor
    · intro hall
      rw [← hsame member hin]
      exact hall member hin
    · intro hfits other hother
      rw [hsame other hother]
      exact hfits
  have hhead : (ranked (groupOf observations key)).head? =
      (ranked (groupOf observations key)).find? fun _ => true := by
    cases ranked (groupOf observations key) <;> rfl
  have hidentityFits := forall_mem_iff_of_map_eq ObservationIn.identityFits hidentity
    fun a b hsame => by
      simp only [ObservationIn.identity, Prod.mk.injEq] at hsame
      simp only [ObservationIn.identityFits, hsame]
  have hprocessFits := forall_mem_iff_of_map_eq ObservationIn.processFits hprocess
    fun a b hsame => by
      simp only [ObservationIn.process, Prod.mk.injEq] at hsame
      simp only [ObservationIn.processFits, hsame]
  have hcontainerFits := forall_mem_iff_of_map_eq ObservationIn.containerFits hcontainer
    fun a b hsame => by
      simp only [ObservationIn.container, Prod.mk.injEq] at hsame
      simp only [ObservationIn.containerFits, hsame]
  have hdetectionFits := forall_mem_iff_of_map_eq ObservationIn.detectionFits hdetection
    fun a b hsame => by
      simp only [ObservationIn.detection, Prod.mk.injEq] at hsame
      simp only [ObservationIn.detectionFits, hsame]
  have hprojectFits := forall_mem_iff_of_map_eq (fun obs => obs.projectName.all fitsText)
    hproject fun a b hsame => by rw [hsame]
  rw [storable_and_textsFit_iff, ← hbinding, ← hidentityFits, ← hprocessFits, ← hcontainerFits,
    ← hdetectionFits, ← hprojectFits, ← hhead]
  constructor
  · rintro ⟨hbinding, hidentity, hprocess, hcontainer, hdetection, hproject⟩
    exact ⟨htimes, hbinding, hidentity, hprocess, hcontainer, hdetection, hproject⟩
  · intro hgroup
    exact ⟨hgroup.binding, hgroup.identity, hgroup.process, hgroup.container, hgroup.detection,
      hgroup.project⟩

/-- Every binding of the snapshot can be merged and stored. -/
def Ingestible (observations : List ObservationIn) : Prop :=
  ∀ obs ∈ observations, GroupFits (groupOf observations obs.key)

theorem ingestible_iff {observations : List ObservationIn} :
    Ingestible observations ↔ ∃ found, canonicalizeObservations observations = some found ∧
      ∀ obs ∈ found, obs.storable = true ∧ obs.textsFit = true := by
  constructor
  · intro h
    have hsome : (canonicalizeObservations observations).isSome := by
      rw [canonicalizeObservations, isSome_mapM_iff]
      intro key hkey
      have hmem := mem_bindingOrder.mp hkey
      obtain ⟨obs, hobs, rfl⟩ := List.mem_map.mp hmem
      exact (canonical_isSome_iff hmem).mpr (h obs hobs).times
    obtain ⟨found, hfound⟩ := Option.isSome_iff_exists.mp hsome
    obtain ⟨hkeys, hcanonical⟩ := canonicalizeObservations_eq hfound
    refine ⟨found, hfound, fun obs hobs => ?_⟩
    have hmem : obs.key ∈ observations.map ObservationIn.key :=
      mem_bindingOrder.mp (hkeys ▸ List.mem_map_of_mem hobs)
    obtain ⟨member, hmember, hkey⟩ := List.mem_map.mp hmem
    have hgroup := h member hmember
    rw [hkey] at hgroup
    exact (canonical_fits_iff hmem (hcanonical obs hobs)).mpr hgroup
  · rintro ⟨found, hfound, hfits⟩ member hmember
    obtain ⟨hkeys, hcanonical⟩ := canonicalizeObservations_eq hfound
    have hmem : member.key ∈ observations.map ObservationIn.key := List.mem_map_of_mem hmember
    have hin : member.key ∈ found.map ObservationIn.key := by
      rw [hkeys]
      exact mem_bindingOrder.mpr hmem
    obtain ⟨obs, hobs, hkey⟩ := List.mem_map.mp hin
    have hfound := hcanonical obs hobs
    rw [hkey] at hfound
    exact (canonical_fits_iff hmem hfound).mp (hfits obs hobs)

/-! ## The answer -/

/-- `SnapshotRejectedError` and its subclasses. -/
def Failure.rejectsSnapshot : Failure → Bool
  | snapshotRejected _ => true
  | staleSnapshot _ _ => true
  | batchTooLarge _ => true
  | _ => false

/-- A result, or a rejection. -/
def Answered : Except Failure IngestionResult → Prop
  | .ok _ => True
  | .error failure => failure.rejectsSnapshot = true

/-- The current rows as their table holds them: its keys are unique, and its states are
those of the enum. -/
structure Db.RowsSound (db : Db) : Prop where
  tidy : db.Tidy
  states : ∀ row ∈ db.current, row.state ∈ portStates

/-- `uuid4` does not collide, as far as a snapshot of this length draws. -/
structure FreshDraws (draws : ℕ → Draw) (db : Db) (count : ℕ) : Prop where
  inj : ∀ j < 3 * count, ∀ k < 3 * count, (draws j).uuid = (draws k).uuid → j = k
  fresh : ∀ n < 3 * count, (draws n).uuid ∉ db.current.map CurrentPortObservation.id

/-- The database fails on a text it cannot store, and on nothing else besides the column
types and keys of the schema. -/
def FailsOnUnfitText (observations : List ObservationIn) (faults : ℕ → Option DbError) : Prop :=
  ∀ found, canonicalizeObservations observations = some found →
    if found.all ObservationIn.textsFit then ∀ n, faults n = none else faults 0 = some .data

/-- The snapshot gets as far as its observations: it is not too long, no repetition, of a
known host and not stale. -/
def Considered (db : Db) (hostId scanId : Uuid) (observedAt : Datetime)
    (observations : List ObservationIn) (maxBatchSize : ℕ) : Prop :=
  observations.length ≤ maxBatchSize ∧
    (db.scans.find? fun scan => scan.id = scanId) = none ∧
      ∃ host, db.getHost hostId = some host ∧
        (host.lastScanObservedAt.any fun last => observedAt.micros ≤ last) = false

/-- The driver can read what a snapshot looks up first: the scan on file under its identifier, or
else its host. -/
def LookUpReadable (db : Db) (hostId scanId : Uuid) : Prop :=
  match db.scans.find? fun scan => scan.id = scanId with
  | some scan => scan.readable = true
  | none => ∀ host ∈ db.getHost hostId, host.readable = true

/-- The driver can read the current rows of the host. -/
def RowsReadable (db : Db) (hostId : Uuid) : Prop :=
  ∀ row ∈ db.listCurrentForHost hostId, row.readable = true

section Answering

variable {ingest : Ingest} {db : Db} {draws : ℕ → Draw} {found : List ObservationIn}

theorem storable_changeFor (rows : List CurrentPortObservation) (obs : ObservationIn) :
    (changeFor ingest rows draws obs).storable = obs.storable := by
  rw [changeFor]
  split
  · rfl
  · split <;> rfl

/-- The column types are those of the observations only: rows that disappear fit. -/
theorem storable_diff_iff (hdb : db.RowsSound) :
    (∀ change ∈ diff ingest (db.listCurrentForHost ingest.hostId) draws found,
        change.storable = true) ↔ ∀ obs ∈ found, obs.storable = true := by
  constructor
  · intro h obs hobs
    obtain ⟨k, hmem⟩ := exists_mem_changesFor ingest (db.listCurrentForHost ingest.hostId) draws hobs
    have hstorable := h _ (List.mem_append_left _ hmem)
    rwa [storable_changeFor] at hstorable
  · intro h change hchange
    rcases List.mem_append.mp hchange with hfirst | hgone
    · obtain ⟨obs, hobs, k, -, rfl⟩ := mem_changesFor hfirst
      rw [storable_changeFor]
      exact h obs hobs
    · obtain ⟨row, hrow, -, eventId, activityId, rfl⟩ := mem_goneFor hgone
      exact decide_eq_true (hdb.states row (List.mem_filter.mp hrow).1)

/-- What a snapshot writes is refused for the column types of its observations only. -/
theorem refusesAll_considered (env : Environment) (hdb : db.RowsSound)
    (hdraws : FreshDraws draws db found.length) (hnodup : (found.map ObservationIn.key).Nodup)
    (hhost : db.hasHost ingest.hostId = true)
    (hscan : (db.scans.find? fun scan => scan.id = ingest.scanId) = none) (count : ℕ)
    (receivedAt : ℤ) :
    store.refusesAll ((diff ingest (db.listCurrentForHost ingest.hostId) draws found).flatMap
        (Change.writes env ingest) ++ scanWrites ingest count receivedAt) db = none ↔
      ∀ obs ∈ found, obs.storable = true := by
  have hkeys : ((diff ingest (db.listCurrentForHost ingest.hostId) draws found).map
      Change.key).Nodup := nodup_keys_diff hnodup (hdb.tidy.nodup_keys ingest.hostId)
  have hnew : ((diff ingest (db.listCurrentForHost ingest.hostId) draws found).filterMap
      Change.newId).Nodup := by
    rw [diff, List.filterMap_append, newIds_goneFor, List.append_nil]
    exact (newIds_changesFor hdraws.inj).1
  rw [Store.refusesAll_append_eq_none,
    refusesAll_changes hhost hdb.tidy.ids hkeys hnew (fits_diff hdb.tidy hdraws.fresh),
    and_iff_left (refusesAll_scanWrites _ _ receivedAt hhost hscan), storable_diff_iff hdb]

/-- The answer to a snapshot of a known host that is no repetition. -/
theorem ensures_answered (env : Environment) {hostId scanId : Uuid} {observedAt : ℤ}
    {observations : List ObservationIn} {faults : ℕ → Option DbError} {host : Host}
    (hdb : db.RowsSound) (hdraws : FreshDraws draws db observations.length)
    (hfaults : FailsOnUnfitText observations faults) (hhost : db.getHost hostId = some host)
    (hscan : (db.scans.find? fun scan => scan.id = scanId) = none) {s : ServiceSession}
    (hs : Untouched draws s) (hsame : s.faults = faults) :
    (ingestFor env host hostId scanId observedAt observations).Ensures store
      (Program.alone store db) (fun _ => True) s fun _ result => (Answered result ↔
        ((host.lastScanObservedAt.any fun last => observedAt ≤ last) = false →
          Ingestible observations ∧ RowsReadable db hostId)) := by
  rw [ingestFor]
  split
  · next hstale =>
      refine iff_of_true rfl fun hnewer => ?_
      rw [hstale] at hnewer
      cases hnewer
  · next hnewer =>
      have hnewer' : (host.lastScanObservedAt.any fun last => observedAt ≤ last) = false :=
        Bool.eq_false_of_not_eq_true hnewer
      simp only [hnewer', forall_const]
      cases hfound : canonicalizeObservations observations with
      | none =>
          refine iff_of_false Bool.false_ne_true fun h => ?_
          obtain ⟨found, hsome, -⟩ := ingestible_iff.mp h.1
          rw [hfound] at hsome
          cases hsome
      | some found =>
          have hingestible : Ingestible observations ↔
              ∀ obs ∈ found, obs.storable = true ∧ obs.textsFit = true := by
            rw [ingestible_iff, hfound]
            simp
          have hle := length_canonicalizeObservations_le hfound
          have hdraws' : FreshDraws draws db found.length :=
            ⟨fun j hj k hk => hdraws.inj j (by omega) k (by omega),
              fun n hn => hdraws.fresh n (by omega)⟩
          have hfails := hfaults found hfound
          simp only [stageSnapshot, Program.bind_eq, Program.ensures_bind, ensures_select]
          intro seen hseen
          rw [hs.view_eq hseen]
          by_cases hrows : RowsReadable db hostId
          swap
          · rw [whenReadable, if_neg fun h => hrows (List.all_eq_true.mp h)]
            exact iff_of_false Bool.false_ne_true fun h => hrows h.2
          rw [whenReadable, if_pos (List.all_eq_true.mpr hrows), and_iff_left hrows]
          refine ensures_stageDiff env _ _ _ _ fun later receivedAt => ?_
          simp only [ensures_commit]
          have hcommits (met : Db) (hmet : Program.alone store db s met) :
              ({ s with
                  pending := s.pending ++ ((diff ⟨hostId, scanId, observedAt,
                    host.lastScanObservedAt.isNone⟩ (db.listCurrentForHost hostId) s.draws
                      found).flatMap (Change.writes env ⟨hostId, scanId, observedAt,
                        host.lastScanObservedAt.isNone⟩) ++ scanWrites ⟨hostId, scanId, observedAt,
                          host.lastScanObservedAt.isNone⟩ observations.length receivedAt)
                  draws := later } : ServiceSession).flushError store met = none ↔
                Ingestible observations := by
            rw [Program.alone, hs.committed, Store.applyAll_nil] at hmet
            rw [flushError_staged hs.toBlank, hsame, hmet, hs.draws,
              refusesAll_considered env hdb hdraws' (nodup_canonicalizeObservations hfound)
                (hasHost_of_getHost hhost) hscan, hingestible]
            by_cases htexts : found.all ObservationIn.textsFit = true
            · rw [if_pos htexts] at hfails
              rw [List.all_eq_true] at htexts
              constructor
              · exact fun h obs hobs => ⟨h.2 obs hobs, htexts obs hobs⟩
              · exact fun h => ⟨hfails 0, fun obs hobs => (h obs hobs).1⟩
            · rw [if_neg htexts] at hfails
              refine iff_of_false (fun h => ?_) fun h => htexts ?_
              · rw [hfails] at h
                cases h.1
              · exact List.all_eq_true.mpr fun obs hobs => (h obs hobs).2
          refine ⟨trivial, fun met hrely haccepted => ?_, fun met error hrely herror => ?_⟩
          · exact iff_of_true trivial ((hcommits met hrely).mp haccepted)
          · refine iff_of_false Bool.false_ne_true fun h => ?_
            have hclash : none = some error := ((hcommits met hrely).mpr h).symm.trans herror
            cases hclash

/-- The answer to a snapshot that is not too long is a result or a rejection exactly if what it
looks up can be read, and, once it gets as far as its observations, every binding can be merged
and stored and the current rows can be read. -/
theorem ingestSnapshot_answered_iff (env : Environment) (hostId scanId : Uuid)
    (observedAt : Datetime) (observations : List ObservationIn) (maxBatchSize : ℕ)
    (draws : ℕ → Draw) (faults : ℕ → Option DbError) (db : Db) (hdb : db.RowsSound)
    (hdraws : FreshDraws draws db observations.length)
    (hfaults : FailsOnUnfitText observations faults) :
    Answered ((ingestSnapshot env hostId scanId observedAt observations maxBatchSize).exec store
        (Session.start draws faults) db).result ↔
      (observations.length ≤ maxBatchSize → LookUpReadable db hostId scanId) ∧
        (Considered db hostId scanId observedAt observations maxBatchSize →
          Ingestible observations ∧ RowsReadable db hostId) := by
  have hensures : (ingestSnapshot env hostId scanId observedAt observations
      maxBatchSize).Ensures store (Program.alone store db) (fun _ => True)
        (Session.start draws faults) fun _ result => (Answered result ↔
          (observations.length ≤ maxBatchSize → LookUpReadable db hostId scanId) ∧
            (Considered db hostId scanId observedAt observations maxBatchSize →
              Ingestible observations ∧ RowsReadable db hostId)) := by
    rw [ingestSnapshot]
    split
    · next hlong =>
        exact iff_of_true rfl ⟨fun h => absurd h (not_le.mpr hlong),
          fun h => absurd h.1 (not_le.mpr hlong)⟩
    · next hshort =>
        let s : ServiceSession :=
          (Session.start draws faults).afterLock (env.hashtext hostId.text)
        have hs : Untouched draws s := ⟨⟨rfl, rfl⟩, rfl⟩
        simp only [Program.bind_eq, Program.ensures_bind, ensures_acquireHostLock, ingestLocked,
          ensures_select]
        intro seen hseen
        rw [show (Session.start draws faults : ServiceSession).afterLock _ = s from rfl,
          hs.view_eq hseen]
        cases hscan : db.scans.find? fun scan => scan.id = scanId with
        | some scan =>
            have hnot : ¬ Considered db hostId scanId observedAt observations maxBatchSize := by
              intro h
              rw [h.2.1] at hscan
              cases hscan
            simp only [LookUpReadable, hscan, hnot, false_implies, and_true, not_lt.mp hshort,
              true_implies]
            rw [whenReadable]
            split
            · next hreadable => exact iff_of_true trivial hreadable
            · next hunreadable => exact iff_of_false Bool.false_ne_true hunreadable
        | none =>
            simp only [Program.ensures_bind, ensures_select]
            intro seen hseen
            rw [hs.view_eq hseen]
            cases hhost : db.getHost hostId with
            | none =>
                refine iff_of_true rfl ⟨fun _ => ?_, ?_⟩
                · simp [LookUpReadable, hscan, hhost]
                · rintro ⟨-, -, host, hknown, -⟩
                  rw [hknown] at hhost
                  cases hhost
            | some host =>
                have hconsidered :
                    Considered db hostId scanId observedAt observations maxBatchSize ↔
                      (host.lastScanObservedAt.any fun last => observedAt.micros ≤ last) =
                        false := by
                  simp [Considered, not_lt.mp hshort, hscan, hhost]
                have hlookUp : LookUpReadable db hostId scanId ↔ host.readable = true := by
                  simp [LookUpReadable, hscan, hhost]
                simp only [hconsidered, hlookUp, not_lt.mp hshort, true_implies]
                rw [whenReadable]
                split
                · next hreadable =>
                    simp only [hreadable, true_and]
                    exact ensures_answered env hdb hdraws hfaults hhost hscan hs rfl
                · next hunreadable =>
                    exact iff_of_false Bool.false_ne_true fun h => hunreadable h.1
  exact hensures.exec_start.1

end Answering

/-- A listener whose process id does not fit a 32-bit column. -/
def widePidObservation : ObservationIn :=
  { plainObservation with state := "ACTIVE", pid := some 3000000000 }

/-- Two observations of one binding, by a process and by a container, and a system service. -/
def mixedSnapshot : List ObservationIn :=
  [{ plainObservation with state := "ACTIVE" },
    { plainObservation with state := "SYSTEM", source := "docker", containerId := some "c1" },
    { plainObservation with port := 53, protocol := .udp, state := "SYSTEM", pid := none }]

/-- The sample host with a current row, which the snapshot no longer observes. -/
def listeningDb : Db :=
  { sampleDb with
    current := [currentRow sampleEnvironment sampleHost.id
      { plainObservation with port := 8001, state := "SYSTEM" } ⟨9⟩ 5 ⟨8⟩] }

theorem ingestSnapshot_answered_iff_sample :
    Answered ((ingestSnapshot sampleEnvironment sampleHost.id ⟨1⟩ ⟨10, true⟩ mixedSnapshot
        5000).exec store (Session.start (sampleDraws 100) fun _ => none) listeningDb).result ∧
      (Considered listeningDb sampleHost.id ⟨1⟩ ⟨10, true⟩ mixedSnapshot 5000 →
        Ingestible mixedSnapshot ∧ RowsReadable listeningDb sampleHost.id) := by
  have hiff := ingestSnapshot_answered_iff sampleEnvironment sampleHost.id ⟨1⟩ ⟨10, true⟩
    mixedSnapshot 5000 (sampleDraws 100) (fun _ => none) listeningDb
    ⟨⟨List.nodup_singleton _, fun _ => List.length_filter_le _ _⟩, by decide⟩
    ⟨by decide, by decide⟩ (fun found hfound => by
      cases hfound
      rw [if_pos (by decide)]
      exact fun _ => rfl)
  have hanswered : Answered ((ingestSnapshot sampleEnvironment sampleHost.id ⟨1⟩ ⟨10, true⟩
      mixedSnapshot 5000).exec store (Session.start (sampleDraws 100) fun _ => none)
        listeningDb).result := trivial
  exact ⟨hanswered, (hiff.mp hanswered).2⟩

/-- The schema accepts it, and the snapshot ends with an error of the database. -/
theorem wide_pid_not_answered :
    ¬ Answered ((ingestSnapshot sampleEnvironment sampleHost.id ⟨1⟩ ⟨10, true⟩
        [widePidObservation] 5000).exec store
          (Session.start (sampleDraws 100) fun _ => none) sampleDb).result := by
  have hfailed : ((ingestSnapshot sampleEnvironment sampleHost.id ⟨1⟩ ⟨10, true⟩
      [widePidObservation] 5000).exec store
        (Session.start (sampleDraws 100) fun _ => none) sampleDb).result = .error (.db .data) := by
    decide
  rw [hfailed]
  exact Bool.false_ne_true

end Central
