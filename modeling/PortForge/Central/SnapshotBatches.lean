/-
# What a snapshot stages

The writes of a snapshot never collide with a key on file: a binding is inserted only if
the current rows of the host lack it, and only once.
-/

import PortForge.Central.Ingestion

namespace Central

open Transaction

variable {rely : ServiceSession → Db → Prop} {guar : ServiceSession → Prop} {s : ServiceSession}
  {db : Db} {hostId scanId : Uuid}

/-- The bindings a batch inserts. -/
def newBindings (writes : List Write) : List BindingKey :=
  writes.filterMap fun write =>
    match write with
    | .insertCurrent row => some row.key
    | _ => none

/-- The scans a batch inserts. -/
def newScans (writes : List Write) : List Uuid :=
  writes.filterMap fun write =>
    match write with
    | .insertScan scan => some scan.id
    | _ => none

/-- The updated rows keep to known bindings. -/
def KeepsTo (known : List BindingKey) (writes : List Write) : Prop :=
  ∀ row, .updateCurrent row ∈ writes → row.key ∈ known

theorem newBindings_append (first second : List Write) :
    newBindings (first ++ second) = newBindings first ++ newBindings second :=
  List.filterMap_append

theorem newScans_append (first second : List Write) :
    newScans (first ++ second) = newScans first ++ newScans second :=
  List.filterMap_append

theorem KeepsTo.append {known : List BindingKey} {first second : List Write}
    (h : KeepsTo known first) (h' : KeepsTo known second) : KeepsTo known (first ++ second) := by
  intro row hrow
  rcases List.mem_append.mp hrow with hfirst | hsecond
  · exact h row hfirst
  · exact h' row hsecond

theorem Write.IsIngesting.not_purges {write : Write} (h : write.IsIngesting hostId scanId) :
    ¬ write.Purges := by
  cases write <;> first | exact h.elim | exact id

/-- The scans on file, after a batch. -/
theorem scans_applyAll {writes : List Write} (hkeeps : ∀ write ∈ writes, ¬ write.Purges) (db : Db) :
    (store.applyAll writes db).scans.map Scan.id = db.scans.map Scan.id ++ newScans writes := by
  induction writes generalizing db with
  | nil => simp [newScans]
  | cons write writes ih =>
      obtain ⟨hwrite, hwrites⟩ := List.forall_mem_cons.mp hkeeps
      rw [Store.applyAll_cons, ih hwrites]
      cases write with
      | insertScan scan => simp [Write.apply, newScans]
      | purgeHost table id => exact (hwrite trivial).elim
      | _ => rfl

theorem hasHost_apply {write : Write} (hkeeps : ¬ write.Purges) {db : Db}
    (h : db.hasHost hostId = true) : (write.apply db).hasHost hostId = true := by
  obtain ⟨host, hhost, hid⟩ := hasHost_iff.mp h
  have hmapped : ∀ change : Host → Host, (∀ host, (change host).id = host.id) →
      ∃ host ∈ db.hosts.map change, host.id = hostId := fun change hkeeps =>
    ⟨change host, List.mem_map_of_mem hhost, (hkeeps host).trans hid⟩
  refine hasHost_iff.mpr ?_
  cases write with
  | insertHost row => exact ⟨host, List.mem_append_left _ hhost, hid⟩
  | reportHost id report now =>
      refine hmapped _ fun host => ?_
      split <;> rfl
  | scanHost id observedAt =>
      refine hmapped _ fun host => ?_
      split <;> rfl
  | decommissionHost id now reason =>
      refine hmapped _ fun host => ?_
      split <;> rfl
  | reactivateHost id =>
      refine hmapped _ fun host => ?_
      split <;> rfl
  | purgeHost table id | deleteHost id => exact (hkeeps trivial).elim
  | setHostError id lastError =>
      refine hmapped _ fun host => ?_
      split <;> rfl
  | _ => exact ⟨host, hhost, hid⟩

/-- A batch with new bindings and a new scan meets no integrity error. -/
theorem refusesAll_ne_integrity {writes : List Write} {known : List BindingKey}
    (hingesting : ∀ write ∈ writes, write.IsIngesting hostId scanId)
    (hhost : db.hasHost hostId = true)
    (hknown : ∀ row ∈ db.current, row.hostId = hostId → row.key ∈ known)
    (hupdates : KeepsTo known writes) (hnodup : (newBindings writes).Nodup)
    (hnew : ∀ key ∈ newBindings writes, key ∉ known)
    (hscans : (newScans writes).Nodup) (hscan : ∀ id ∈ newScans writes, ∀ scan ∈ db.scans,
        scan.id ≠ id) :
    store.refusesAll writes db ≠ some .integrity := by
  induction writes generalizing db known with
  | nil => nofun
  | cons write writes ih =>
      obtain ⟨hwrite, hwrites⟩ := List.forall_mem_cons.mp hingesting
      have hhost' := hasHost_apply hwrite.not_purges hhost
      have hupdates' : KeepsTo known writes := fun row hrow =>
        hupdates row (List.mem_cons_of_mem _ hrow)
      rw [Store.refusesAll_cons]
      cases write with
      | insertCurrent row =>
          have hrow : row.hostId = hostId := hwrite
          have hbindings : newBindings (.insertCurrent row :: writes) =
              row.key :: newBindings writes :=
            rfl
          rw [hbindings] at hnodup hnew
          obtain ⟨hnotin, hrest⟩ := List.nodup_cons.mp hnodup
          have hclear : (db.current.any row.sameBinding) = false := by
            rw [List.any_eq_false]
            intro old hold hsame
            simp only [CurrentPortObservation.sameBinding, decide_eq_true_eq] at hsame
            obtain ⟨hhostSame, hport, hprotocol, haddress⟩ := hsame
            refine hnew row.key List.mem_cons_self ?_
            have hkey : row.key = old.key := by
              simp [CurrentPortObservation.key, hport, hprotocol, haddress]
            rw [hkey]
            exact hknown old hold (hhostSame.symm.trans hrow)
          have hrefused : store.refuses db (.insertCurrent row) ≠ some .integrity := by
            have hrowHost : db.hasHost row.hostId = true := hrow ▸ hhost
            have hdata : store.refuses db (.insertCurrent row) =
                if ¬ row.fits then some .data else none := by
              simp [store, Write.refused, hrowHost, hclear]
            rw [hdata]
            split <;> simp
          cases herror : store.refuses db (.insertCurrent row) with
          | some error =>
              rw [herror] at hrefused
              exact hrefused
          | none =>
              have hkept : KeepsTo (row.key :: known) writes := fun other hother =>
                List.mem_cons_of_mem _ (hupdates' other hother)
              refine ih hwrites hhost' ?_ hkept hrest ?_ hscans hscan
              · intro other hother hotherHost
                rcases List.mem_append.mp hother with hold | hadded
                · exact List.mem_cons_of_mem _ (hknown other hold hotherHost)
                · rw [List.mem_singleton.mp hadded]
                  exact List.mem_cons_self
              · intro key hkey hmem
                rcases List.mem_cons.mp hmem with rfl | hold
                · exact hnotin hkey
                · exact hnew key (List.mem_cons_of_mem _ hkey) hold
      | updateCurrent row =>
          have hrefused : store.refuses db (.updateCurrent row) ≠ some .integrity := by
            simp only [store, Write.refused]
            split_ifs <;> simp
          cases herror : store.refuses db (.updateCurrent row) with
          | some error =>
              rw [herror] at hrefused
              exact hrefused
          | none =>
              refine ih hwrites hhost' ?_ hupdates' hnodup hnew hscans hscan
              intro other hother hotherHost
              obtain ⟨old, hold, rfl⟩ := List.mem_map.mp hother
              split
              · exact hupdates row List.mem_cons_self
              · next hne =>
                  rw [if_neg hne] at hotherHost
                  exact hknown old hold hotherHost
      | deleteCurrent id =>
          refine ih hwrites hhost' ?_ hupdates' hnodup hnew hscans hscan
          exact fun other hother => hknown other (List.mem_filter.mp hother).1
      | insertEvent event =>
          have hrefused : store.refuses db (.insertEvent event) ≠ some .integrity := by
            have hevent : event.hostId = hostId := hwrite
            have heventHost : db.hasHost event.hostId = true := hevent ▸ hhost
            have hdata : store.refuses db (.insertEvent event) =
                if event.state ∉ portStates then some .data else none := by
              simp [store, Write.refused, heventHost]
            rw [hdata]
            split <;> simp
          cases herror : store.refuses db (.insertEvent event) with
          | some error =>
              rw [herror] at hrefused
              exact hrefused
          | none => exact ih hwrites hhost' hknown hupdates' hnodup hnew hscans hscan
      | insertActivity event =>
          have hevent : event.hostId = hostId := hwrite
          have hrefused : store.refuses db (.insertActivity event) = none := by
            simp [store, Write.refused, hevent, hhost]
          rw [hrefused]
          exact ih hwrites hhost' hknown hupdates' hnodup hnew hscans hscan
      | insertScan scan =>
          have hscanHost : scan.hostId = hostId := hwrite.1
          have hinserted : newScans (.insertScan scan :: writes) = scan.id :: newScans writes := rfl
          rw [hinserted] at hscans hscan
          obtain ⟨hnotin, hrest⟩ := List.nodup_cons.mp hscans
          have hfresh : (db.scans.any fun old => old.id = scan.id) = false := by
            rw [List.any_eq_false]
            intro old hold hsame
            exact hscan scan.id List.mem_cons_self old hold (of_decide_eq_true hsame)
          have hrefused : store.refuses db (.insertScan scan) = none := by
            simp [store, Write.refused, hscanHost, hhost, hfresh]
          rw [hrefused]
          refine ih hwrites hhost' hknown hupdates' hnodup hnew hrest fun id hid old hold => ?_
          rcases List.mem_append.mp hold with hold | hadded
          · exact hscan id (List.mem_cons_of_mem _ hid) old hold
          · rw [List.mem_singleton.mp hadded]
            rintro rfl
            exact hnotin hid
      | scanHost id observedAt =>
          exact ih hwrites hhost' hknown hupdates' hnodup hnew hscans hscan
      | _ => exact hwrite.elim

/-! ## What the loops stage -/

/-- What a part of ingestion stages: it does not fail, and its writes insert the given
bindings and scans. -/
def StagesBindings (rely : ServiceSession → Db → Prop) (guar : ServiceSession → Prop) {α : Type}
    (p : Service α) (s : ServiceSession) (known inserted : List BindingKey) (scans : List Uuid) :
    Prop :=
  p.Ensures store rely guar s fun s' result => (∃ value, result = .ok value) ∧
    ∃ writes draws, s' = { s with pending := s.pending ++ writes, draws := draws } ∧
      newBindings writes = inserted ∧ KeepsTo known writes ∧ newScans writes = scans

variable {known : List BindingKey}

theorem StagesBindings.bind {α β : Type} {p : Service α} {f : α → Service β}
    {first second all : List BindingKey} {scans later allScans : List Uuid}
    (hp : StagesBindings rely guar p s known first scans)
    (hf : ∀ value t, StagesBindings rely guar (f value) t known second later)
    (hall : all = first ++ second) (hscans : allScans = scans ++ later) :
    StagesBindings rely guar (p >>= f) s known all allScans := by
  refine Program.Ensures.bind hp (fun t value hstaged => ?_) fun _ _ hstaged => ?_
  · obtain ⟨-, writes, draws, rfl, hnew, hkeeps, hscanned⟩ := hstaged
    refine Program.Ensures.mono (hf value _) ?_
    rintro t' result ⟨hreturns, writes', draws', rfl, hnew', hkeeps', hscanned'⟩
    refine ⟨hreturns, writes ++ writes', draws', by simp, ?_, hkeeps.append hkeeps', ?_⟩
    · rw [newBindings_append, hnew, hnew', hall]
    · rw [newScans_append, hscanned, hscanned', hscans]
  · obtain ⟨⟨value, hvalue⟩, -⟩ := hstaged
    cases hvalue

theorem stagesBindings_ret {α : Type} (value : α) : StagesBindings rely guar (.ret value) s known
    [] [] :=
  ⟨⟨value, rfl⟩, [], s.draws, by simp, rfl, fun _ hrow => (List.not_mem_nil hrow).elim, rfl⟩

theorem stagesBindings_newUuid : StagesBindings rely guar newUuid s known [] [] :=
  ⟨⟨_, rfl⟩, [], fun n => s.draws (n + 1), by simp [Session.afterDraw], rfl,
    fun _ hrow => (List.not_mem_nil hrow).elim, rfl⟩

theorem stagesBindings_clock : StagesBindings rely guar clock s known [] [] :=
  ⟨⟨_, rfl⟩, [], fun n => s.draws (n + 1), by simp [Session.afterDraw], rfl,
    fun _ hrow => (List.not_mem_nil hrow).elim, rfl⟩

theorem stagesBindings_add {write : Write} (hkeeps : ∀ row, write = .updateCurrent row →
    row.key ∈ known) :
    StagesBindings rely guar (add write) s known (newBindings [write]) (newScans [write]) :=
  ⟨⟨(), rfl⟩, [write], s.draws, rfl, rfl,
    fun row hrow => hkeeps row (List.mem_singleton.mp hrow).symm, rfl⟩

theorem stagesBindings_appear (env : Environment) (ingest : Ingest) (obs : ObservationIn) :
    StagesBindings rely guar (appear env ingest obs) s known [obs.key] [] := by
  have hactivity : ∀ t : ServiceSession, StagesBindings rely guar (if ingest.isBaseline then pure
      () else do
      let activityId ← newUuid
      add (.insertActivity (portAppeared ingest.hostId obs ingest.observedAt activityId)) :
        Service Unit) t known [] [] := by
    intro t
    split
    · exact stagesBindings_ret ()
    · refine stagesBindings_newUuid.bind (fun id t₁ => stagesBindings_add ?_) rfl rfl
      intro row hsame
      cases hsame
  refine stagesBindings_newUuid.bind (fun id t₁ => ?_) rfl rfl
  refine StagesBindings.bind (stagesBindings_add ?_) (fun _ t₂ => ?_) rfl rfl
  · intro row hsame
    cases hsame
  · refine stagesBindings_newUuid.bind (fun eventId t₃ => ?_) rfl rfl
    refine StagesBindings.bind (stagesBindings_add ?_) (fun _ t₄ => hactivity t₄) rfl rfl
    intro row hsame
    cases hsame

theorem stagesBindings_refreshCurrent (env : Environment) (ingest : Ingest)
    {existing : CurrentPortObservation} (obs : ObservationIn) (hknown : existing.key ∈ known) :
    StagesBindings rely guar (refreshCurrent env ingest existing obs) s known [] [] := by
  have hupdate : ∀ (t : ServiceSession) (changed : Bool), StagesBindings rely guar (do
      add (.updateCurrent (existing.observed env obs ingest.scanId ingest.observedAt))
      pure changed) t known [] [] := by
    intro t changed
    refine StagesBindings.bind (stagesBindings_add ?_) (fun _ _ =>
        stagesBindings_ret changed) rfl rfl
    intro row hsame
    cases hsame
    exact hknown
  rw [refreshCurrent]
  split
  · refine stagesBindings_newUuid.bind (fun id t₁ => ?_) rfl rfl
    refine StagesBindings.bind (stagesBindings_add ?_) (fun _ t₂ => hupdate t₂ _) rfl rfl
    intro row hsame
    cases hsame
  · exact hupdate s _

/-- The loop over the canonical observations inserts the bindings the current rows lack. -/
theorem stagesBindings_recordObservations (env : Environment) (ingest : Ingest)
    (rows : List CurrentPortObservation) (observations : List ObservationIn) :
    StagesBindings rely guar (recordObservations env ingest rows observations) s
      (rows.map CurrentPortObservation.key)
      ((observations.map ObservationIn.key).filter fun key =>
        key ∉ rows.map CurrentPortObservation.key) [] := by
  induction observations generalizing s with
  | nil => exact stagesBindings_ret _
  | cons obs observations ih =>
      rw [recordObservations]
      have hlater : ∀ (counts : ℕ × ℕ) (t : ServiceSession), StagesBindings rely guar (do
          let later ← recordObservations env ingest rows observations
          pure (counts.1 + later.1, counts.2 + later.2)) t
            (rows.map CurrentPortObservation.key) _ [] := fun counts t =>
        ih.bind (fun _ _ => stagesBindings_ret _) (List.append_nil _).symm rfl
      rw [List.map_cons, List.filter_cons]
      cases hfind : rows.find? fun row => row.key = obs.key with
      | none =>
          have hnew : obs.key ∉ rows.map CurrentPortObservation.key := by
            intro hmem
            obtain ⟨row, hrow, hkey⟩ := List.mem_map.mp hmem
            have hnone := List.find?_eq_none.mp hfind row hrow
            simp [hkey] at hnone
          rw [if_pos (decide_eq_true hnew)]
          have hone : StagesBindings rely guar (recordObservation env ingest rows obs) s
              (rows.map CurrentPortObservation.key) [obs.key] [] := by
            rw [recordObservation, hfind]
            exact (stagesBindings_appear env ingest obs).bind (fun _ _ =>
                stagesBindings_ret _) rfl rfl
          exact hone.bind hlater rfl rfl
      | some existing =>
          have hkey : existing.key = obs.key := by simpa using List.find?_some hfind
          have hmem : existing.key ∈ rows.map CurrentPortObservation.key :=
            List.mem_map_of_mem (List.mem_of_find?_eq_some hfind)
          rw [if_neg (by simpa [hkey] using hmem)]
          have hone : StagesBindings rely guar (recordObservation env ingest rows obs) s
              (rows.map CurrentPortObservation.key) [] [] := by
            rw [recordObservation, hfind]
            exact (stagesBindings_refreshCurrent env ingest obs hmem).bind (fun _ _ =>
                stagesBindings_ret _) rfl rfl
          exact hone.bind hlater rfl rfl

theorem stagesBindings_recordDisappearances (ingest : Ingest) (incoming : List BindingKey)
    (rows : List CurrentPortObservation) :
    StagesBindings rely guar (recordDisappearances ingest incoming rows) s known [] [] := by
  induction rows generalizing s with
  | nil => exact stagesBindings_ret _
  | cons row rows ih =>
      rw [recordDisappearances]
      split
      · exact ih
      · refine stagesBindings_newUuid.bind (fun eventId t₁ => ?_) rfl rfl
        refine StagesBindings.bind (stagesBindings_add ?_) (fun _ t₂ => ?_) rfl rfl
        · intro row hsame
          cases hsame
        · refine stagesBindings_newUuid.bind (fun activityId t₃ => ?_) rfl rfl
          refine StagesBindings.bind (stagesBindings_add ?_) (fun _ t₄ => ?_) rfl rfl
          · intro row hsame
            cases hsame
          · refine StagesBindings.bind (stagesBindings_add ?_) (fun _ t₅ => ?_) rfl rfl
            · intro row hsame
              cases hsame
            · exact ih.bind (fun _ _ => stagesBindings_ret _) rfl rfl

/-- A snapshot inserts the bindings the current rows lack, and its scan. -/
theorem stagesBindings_stageChanges (env : Environment) (ingest : Ingest)
    (observations canonical : List ObservationIn) (rows : List CurrentPortObservation) :
    StagesBindings rely guar (stageChanges env ingest observations canonical rows) s
      (rows.map CurrentPortObservation.key)
      ((canonical.map ObservationIn.key).filter fun key =>
        key ∉ rows.map CurrentPortObservation.key) [ingest.scanId] := by
  refine (stagesBindings_recordObservations env ingest rows canonical).bind (fun counts t₁ => ?_)
    (List.append_nil _).symm rfl
  refine (stagesBindings_recordDisappearances ingest _ rows).bind (fun disappeared t₂ => ?_) rfl rfl
  refine stagesBindings_clock.bind (fun receivedAt t₃ => ?_) rfl rfl
  refine StagesBindings.bind (stagesBindings_add ?_) (fun _ t₄ => ?_) rfl rfl
  · intro row hsame
    cases hsame
  · refine StagesBindings.bind (stagesBindings_add ?_) (fun _ t₅ => stagesBindings_ret _) rfl rfl
    intro row hsame
    cases hsame

/-- A snapshot staged on contents that know its host, its current rows and not its scan
meets no integrity error. -/
theorem ensures_stageChanges (env : Environment) (ingest : Ingest)
    {observations canonical : List ObservationIn} (hbatch : s.batch = [])
    (hcanonical : canonicalizeObservations observations = some canonical)
    (hhost : db.hasHost ingest.hostId = true) (hscan : ∀ scan ∈ db.scans, scan.id ≠ ingest.scanId) :
    (stageChanges env ingest observations canonical (db.listCurrentForHost ingest.hostId)).Ensures
      store rely guar s fun s' result => (∃ value, result = .ok value) ∧
        (∃ writes draws, s' = { s with pending := writes, draws := draws } ∧
          newScans writes = [ingest.scanId]) ∧
        store.refusesAll s'.pending db ≠ some .integrity := by
  obtain ⟨hflushed, hpending⟩ := List.append_eq_nil_iff.mp hbatch
  have hadds : (stageChanges env ingest observations canonical
      (db.listCurrentForHost ingest.hostId)).Ensures store rely (fun _ => True) s fun s' _ =>
        ∀ write ∈ s'.batch, write.IsIngesting ingest.hostId ingest.scanId :=
    (staging_stageChanges env ingest observations canonical _).adds.ensures (by simp [hbatch])
  refine ((stagesBindings_stageChanges env ingest observations canonical
    (db.listCurrentForHost ingest.hostId)).and hadds).mono ?_
  rintro _ result ⟨⟨hreturns, writes, draws, rfl, hnew, hkeeps, hscans⟩, hingesting⟩
  refine ⟨hreturns, ⟨writes, draws, by simp [hpending], hscans⟩, ?_⟩
  have hwrites : ∀ write ∈ writes, write.IsIngesting ingest.hostId ingest.scanId :=
      fun write hwrite =>
    hingesting write (List.mem_append_right _ (List.mem_append_right _ hwrite))
  have hknown : ∀ row ∈ db.current, row.hostId = ingest.hostId →
      row.key ∈ (db.listCurrentForHost ingest.hostId).map CurrentPortObservation.key :=
    fun row hrow hrowHost => List.mem_map_of_mem (List.mem_filter.mpr ⟨hrow,
        decide_eq_true hrowHost⟩)
  rw [hpending, List.nil_append]
  refine refusesAll_ne_integrity hwrites hhost hknown hkeeps ?_ ?_ ?_ ?_
  · rw [hnew]
    exact (nodup_canonicalizeObservations hcanonical).filter _
  · rw [hnew]
    exact fun key hkey => of_decide_eq_true (List.mem_filter.mp hkey).2
  · rw [hscans]
    exact List.nodup_singleton _
  · rw [hscans]
    intro id hid scan hmem
    rw [List.mem_singleton.mp hid]
    exact hscan scan hmem

end Central
