/-
# What a bundle writes

The transaction of a granted bundle holds, besides probe rows, exactly one
allocation row and, for every request in order, one reservation row with its
activity event. `BundleBatch` states this, with what every granted port
satisfies.
-/

import PortForge.Central.Granting

namespace Central

open Transaction

variable {rely : ServiceSession → Db → Prop} {guar : ServiceSession → Prop} {R : Db → Prop}
  {good : List (AllocationRequestItem × ℕ) → Prop} {s : ServiceSession}

/-- The reservation row of a granted entry. -/
def grantedRow (payload : AllocationIn) (allocationId : Uuid) (entry : AllocationRequestItem × ℕ)
    (id : Uuid) : CentralReservation where
  id := id
  hostId := payload.hostId
  port := entry.2
  protocol := entry.1.protocol
  bindAddress := none
  project := payload.project
  service := none
  purpose := some entry.1.purpose
  notes := none
  localReservationId := none
  allocationId := some allocationId
  requestName := some entry.1.name

/-- A reservation and its event are those of a granted entry. -/
def IsGrant (payload : AllocationIn) (allocationId : Uuid) (entry : AllocationRequestItem × ℕ)
    (grant : CentralReservation × ActivityEvent) : Prop :=
  (∃ id, grant.1 = grantedRow payload allocationId entry id) ∧
    ∃ id timestamp, grant.2 = reservationCreated grant.1 id timestamp

/-- The writes that store a reservation with its event. -/
def grantWrites (grants : List (CentralReservation × ActivityEvent)) : List Write :=
  grants.flatMap fun grant => [.insertReservation grant.1, .insertActivity grant.2]

/-- The allocation row of a bundle. -/
def newAllocation (env : Environment) (payload : AllocationIn) (id : Uuid) (createdAt : ℤ) :
    Allocation where
  id := id
  hostId := payload.hostId
  project := payload.project
  status := .active
  releasedAt := none
  requestId := payload.requestId
  requestPayloadHash := payload.requestId.map fun _ => hashPayload env payload
  createdAt := createdAt

/-- Every grant of a bundle has its entry. -/
theorem exists_entry_of_mem {payload : AllocationIn} {allocationId : Uuid}
    {resolved : List (AllocationRequestItem × ℕ)}
    {grants : List (CentralReservation × ActivityEvent)}
    (h : List.Forall₂ (IsGrant payload allocationId) resolved grants)
    {grant : CentralReservation × ActivityEvent} (hgrant : grant ∈ grants) :
    ∃ entry ∈ resolved, IsGrant payload allocationId entry grant := by
  induction h with
  | nil => cases hgrant
  | @cons entry first resolved grants hfirst _ ih =>
      rcases List.mem_cons.mp hgrant with rfl | hlater
      · exact ⟨entry, List.mem_cons_self, hfirst⟩
      · obtain ⟨other, hother, hgrant⟩ := ih hlater
        exact ⟨other, List.mem_cons_of_mem _ hother, hgrant⟩

/-- The rows of a bundle keep the name, the protocol and the port of their entries. -/
theorem rows_grants {payload : AllocationIn} {allocationId : Uuid}
    {resolved : List (AllocationRequestItem × ℕ)}
    {grants : List (CentralReservation × ActivityEvent)}
    (h : List.Forall₂ (IsGrant payload allocationId) resolved grants) :
    (grants.map Prod.fst).map (fun row => (row.requestName, row.protocol, row.port)) =
      resolved.map fun entry => (some entry.1.name, entry.1.protocol, entry.2) := by
  induction h with
  | nil => rfl
  | cons hgrant _ ih =>
      obtain ⟨⟨id, hrow⟩, -⟩ := hgrant
      simp only [List.map_cons, ih, hrow]
      rfl

/-- The ports of a bundle's rows are those that were resolved. -/
theorem ports_grants {payload : AllocationIn} {allocationId : Uuid}
    {resolved : List (AllocationRequestItem × ℕ)}
    {grants : List (CentralReservation × ActivityEvent)}
    (h : List.Forall₂ (IsGrant payload allocationId) resolved grants) :
    (grants.map Prod.fst).map CentralReservation.port = resolved.map Prod.snd := by
  have hports := congrArg (List.map fun row => row.2.2) (rows_grants h)
  simp only [List.map_map] at hports ⊢
  exact hports

/-- What holds of every row of a bundle's protocol and port. -/
theorem forall_rows_iff {payload : AllocationIn} {allocationId : Uuid}
    {resolved : List (AllocationRequestItem × ℕ)}
    {grants : List (CentralReservation × ActivityEvent)}
    (h : List.Forall₂ (IsGrant payload allocationId) resolved grants) (P : Protocol → ℕ → Prop) :
    (∀ row ∈ grants.map Prod.fst, P row.protocol row.port) ↔
      ∀ entry ∈ resolved, P entry.1.protocol entry.2 := by
  induction h with
  | nil => simp
  | cons hgrant _ ih =>
      obtain ⟨⟨id, hrow⟩, -⟩ := hgrant
      rw [List.map_cons, List.forall_mem_cons, List.forall_mem_cons, ih, hrow]
      rfl

theorem ensures_insertReservation (hostId : Uuid) (port : ℕ) (protocol : Protocol)
    (bindAddress : Option String) (project : String)
    (service purpose notes localReservationId : Option String) (allocationId : Option Uuid)
    (requestName : Option String) :
    (insertReservation hostId port protocol bindAddress project service purpose notes
      localReservationId allocationId requestName).Ensures store rely guar s fun s' outcome =>
        ∀ row, outcome = .ok row →
          (∃ id, row =
            { id := id, hostId := hostId, port := port, protocol := protocol,
              bindAddress := bindAddress, project := project, service := service,
              purpose := purpose, notes := notes, localReservationId := localReservationId,
              allocationId := allocationId, requestName := requestName }) ∧
          ∃ eventId timestamp, s'.batch = s.batch ++
            [.insertReservation row, .insertActivity (reservationCreated row eventId
                timestamp)] := by
  simp only [insertReservation, Program.bind_eq, Program.ensures_bind, ensures_newUuid, ensures_add,
    ensures_flush, ensures_clock, Program.pure_eq_ret, Program.ensures_ret]
  refine ⟨?_, ?_⟩
  · rintro db - - row ⟨⟩
    refine ⟨⟨_, rfl⟩, (s.draws 2).uuid, (s.draws 1).now, ?_⟩
    simp only [Session.afterAdd_batch, Session.afterDraw_batch, Session.afterFlush_batch,
      List.append_assoc]
    rfl
  · rintro db error - - row ⟨⟩

theorem ensures_insertBundle (payload : AllocationIn) (allocationId : Uuid)
    (resolved : List (AllocationRequestItem × ℕ)) :
    (insertBundle payload allocationId resolved).Ensures store rely guar s fun s' outcome =>
      outcome = .ok () → ∃ grants, List.Forall₂ (IsGrant payload allocationId) resolved grants ∧
        s'.batch = s.batch ++ grantWrites grants := by
  induction resolved generalizing s with
  | nil => exact fun _ => ⟨[], .nil, by simp [grantWrites]⟩
  | cons entry resolved ih =>
      refine Program.Ensures.bind (ensures_insertReservation _ _ _ _ _ _ _ _ _ _ _) ?_ ?_
      · intro s' row hrow
        obtain ⟨⟨id, rfl⟩, eventId, timestamp, hbatch⟩ := hrow row rfl
        refine ih.mono ?_
        intro s'' outcome hrest houtcome
        obtain ⟨grants, hgrants, hbatch'⟩ := hrest houtcome
        refine ⟨(grantedRow payload allocationId entry id,
          reservationCreated (grantedRow payload allocationId entry id) eventId timestamp) ::
              grants,
          .cons ⟨⟨id, rfl⟩, eventId, timestamp, rfl⟩ hgrants, ?_⟩
        rw [hbatch', hbatch]
        simp [grantWrites, grantedRow]
      · rintro s' error - ⟨⟩

/-- The handler around the insertion loop never returns, so the loop's result stands. -/
theorem ensures_guardedBundle (payload : AllocationIn) (allocationId : Uuid)
    (resolved : List (AllocationRequestItem × ℕ)) :
    ((insertBundle payload allocationId resolved).tryCatch refuseClaimed).Ensures store rely guar s
      fun s' outcome => outcome = .ok () →
        ∃ grants, List.Forall₂ (IsGrant payload allocationId) resolved grants ∧
          s'.batch = s.batch ++ grantWrites grants := by
  refine Program.Ensures.tryCatch (ensures_insertBundle payload allocationId resolved)
    (fun _ _ hok => hok) fun s' error _ => ?_
  refine (fails_refuseClaimed error).ensures.mono ?_
  rintro s'' outcome ⟨-, failure, rfl⟩ houtcome
  cases houtcome

/-- The writes of a bundle's transaction at its commit. `R` holds of the contents it
read, `good` of the ports it resolved. -/
structure BundleBatch (R : Db → Prop) (good : List (AllocationRequestItem × ℕ) → Prop)
    (env : Environment) (payload : AllocationIn) (allocation : Allocation)
    (batch : List Write) : Prop where
  /-- The allocation row is the payload's. -/
  row : ∃ id createdAt, allocation = newAllocation env payload id createdAt
  /-- Nothing else carried its id. -/
  fresh : ∃ db, R db ∧ db.getAllocation allocation.id = none
  /-- Every request is granted a port. -/
  writes : ∃ probes resolved grants,
    batch = probes ++ .insertAllocation allocation :: grantWrites grants ∧
      (∀ write ∈ probes, write.IsProbe) ∧
      good resolved ∧ List.Forall₂ (IsGrant payload allocation.id) resolved grants

/-- The host a bundle was granted on: active, and healthy at the given instant. -/
def HostVouchedFor (R : Db → Prop) (env : Environment) (hostId : Uuid) (now : ℤ) : Prop :=
  ∃ db host, R db ∧ db.getHost hostId = some host ∧ host.lifecycleState = .active ∧
    (env.health host.lastSeen now).1 = .healthy

theorem getHost_of_sameButProbes {seen db : Db} (h : SameButProbes seen db) (hostId : Uuid) :
    seen.getHost hostId = db.getHost hostId := by
  rw [Db.getHost, Db.getHost, h.1]

theorem Resolving.afterDraw (hs : Resolving rely R s) : Resolving rely R s.afterDraw :=
  ⟨hs.probing, hs.within⟩

/-- The check in front of the resolution: the host is there, active and healthy. -/
theorem ensures_checkHost {α : Type} (env : Environment) (hs : Resolving rely R s) (hostId : Uuid)
    {next : Host → Service α} {result : ServiceSession → α → Prop}
    (hnext : ∀ host, HostVouchedFor R env hostId (s.draws 0).now →
      (next host).Ensures store rely guar s.afterDraw fun s' outcome =>
        ∀ value, outcome = .ok value → result s' value) :
    (do
      let host ← refreshHost hostId
      let _ ← ensureHostAllocatable env host
      next host : Service α).Ensures store rely guar s fun s' outcome =>
        ∀ value, outcome = .ok value → result s' value := by
  intro db hdb
  simp only
  rw [getHost_of_sameButProbes (hs.view db)]
  cases hhost : db.getHost hostId with
  | none => rintro _ ⟨⟩
  | some host =>
      simp only [Program.pure_eq_ret, Program.bind, ensureHostAllocatable]
      split
      · rintro _ ⟨⟩
      · rename_i hlifecycle
        have hactive : host.lifecycleState = .active := by
          cases hstate : host.lifecycleState with
          | active => rfl
          | decommissioned => exact (hlifecycle hstate).elim
        simp only [buildValidation, Program.bind_eq, Program.ensures_bind, ensures_clock,
          Program.pure_eq_ret, Program.ensures_ret]
        split
        · rintro _ ⟨⟩
        · rename_i hhealth
          exact hnext host ⟨db, host, hs.contents hdb, hhost, hactive, not_not.mp hhealth⟩

/-- The allocation row: its id was free when it was flushed. -/
theorem ensures_insertAllocation (env : Environment) (hs : Resolving rely R s)
    (payload : AllocationIn) :
    (insertAllocation env payload).Ensures store rely guar s fun s' outcome =>
      ∀ allocation, outcome = .ok allocation →
        (∃ id createdAt, allocation = newAllocation env payload id createdAt) ∧
          (∃ db, R db ∧ db.getAllocation allocation.id = none) ∧
          s'.batch = s.batch ++ [.insertAllocation allocation] := by
  simp only [insertAllocation, Program.bind_eq, Program.ensures_bind, ensures_newUuid,
    ensures_serverNow, ensures_add, ensures_flush, Program.pure_eq_ret, Program.ensures_ret]
  refine ⟨?_, ?_⟩
  · rintro db hdb hflush allocation ⟨⟩
    have hcontents : R db := hs.within _ db (by rfl) (by rfl) hdb
    refine ⟨⟨_, _, rfl⟩, ⟨db, hcontents, ?_⟩, by simp⟩
    have hrefused := Session.refusesAll_of_flushError hflush
    rw [Session.afterAdd_pending, Store.refusesAll_append_eq_none,
      Store.refusesAll_cons_eq_none] at hrefused
    obtain ⟨-, hnew, -⟩ := hrefused
    have hseen : SameButProbes (store.applyAll s.afterDraw.afterDraw.pending
        ((s.afterDraw.afterDraw.afterAdd (.insertAllocation
          (newAllocation env payload (s.draws 0).uuid (s.draws 1).serverNow))).view store db))
              db := by
      have happly := sameButProbes_applyAll hs.probing db
      rwa [Session.batch, Store.applyAll_append] at happly
    obtain ⟨-, hid, -⟩ := insertAllocation_accepted.mp hnew
    rw [Db.getAllocation, List.find?_eq_none]
    intro old hold heq
    refine hid old ?_ (by simpa using heq)
    exact hseen.2.1 ▸ hold
  · rintro db error - - allocation ⟨⟩

/-- The transaction of a bundle that gets as far as its commit. -/
theorem ensures_prepareBundle (env : Environment) (hs : Resolving rely R s)
    (payload : AllocationIn)
    (hresolve : ∀ host, Yields rely guar
      (resolveAll env host payload.hostId payload.requests ∅) s.afterDraw fun found =>
        good found.1) :
    (prepareBundle env payload).Ensures store rely guar s fun s' outcome =>
      ∀ prepared, outcome = .ok prepared →
        BundleBatch R good env payload prepared.1 s'.batch ∧
          HostVouchedFor R env payload.hostId (s.draws 0).now := by
  refine ensures_checkHost env hs payload.hostId fun host hhost => ?_
  have hprobes := probesOnly_resolveAll env host payload.hostId payload.requests ∅
  refine Program.Ensures.bind (hprobes.resolving hs.afterDraw (hresolve host)) ?_ ?_
  · rintro s₁ ⟨resolved, bindProbe⟩ hresolved
    obtain ⟨hports, hs₁⟩ := hresolved _ rfl
    refine Program.Ensures.bind (ensures_insertAllocation env hs₁ payload) ?_ ?_
    · intro s₂ allocation hallocation
      obtain ⟨hrow, hfresh, hbatch₂⟩ := hallocation allocation rfl
      refine Program.Ensures.bind (ensures_guardedBundle payload allocation.id resolved) ?_ ?_
      · rintro s₃ ⟨⟩ hok
        obtain ⟨grants, hgrants, hbatch₃⟩ := hok rfl
        rintro _ ⟨⟩
        refine ⟨⟨hrow, hfresh, s₁.batch, resolved, grants, ?_, hs₁.probing, hports, hgrants⟩, hhost⟩
        rw [hbatch₃, hbatch₂]
        simp
      · rintro s₃ error - _ ⟨⟩
    · rintro s₂ error - _ ⟨⟩
  · rintro s₁ error - _ ⟨⟩

/-- An allocation under its lock: what remains is to say what its commit owes, and
what its answer satisfies. -/
theorem ensures_allocateLocked {env : Environment} {payload : AllocationIn}
    {post : ServiceSession → Except Failure AllocationOut → Prop} (hs : Resolving rely R s)
    (hresolve : ∀ host, Yields rely guar
      (resolveAll env host payload.hostId payload.requests ∅) s.afterDraw fun found =>
        good found.1)
    (hfail : ∀ s' error, s'.committedWrites = s.committedWrites → post s' (.error error))
    (hguar : ∀ (s' : ServiceSession) allocation, s'.held = s.held → s'.journal = s.journal →
      BundleBatch R good env payload allocation s'.batch →
      HostVouchedFor R env payload.hostId (s.draws 0).now → guar s')
    (hfinish : ∀ (s' : ServiceSession) allocation bindProbe, s'.held = s.held → s'.journal =
        s.journal →
      BundleBatch R good env payload allocation s'.batch →
      HostVouchedFor R env payload.hostId (s.draws 0).now →
      (finishBundle env allocation.id bindProbe payload.requests).Ensures store rely guar
        s'.afterCommit post) :
    (allocateLocked env payload).Ensures store rely guar s post := by
  have hholding : (prepareBundle env payload).Ensures store rely (fun _ => True) s _ :=
    (holding_prepareBundle env payload).ensures
  refine Program.Ensures.bind ((ensures_prepareBundle env hs payload hresolve).and hholding) ?_ ?_
  · rintro s₁ ⟨allocation, bindProbe⟩ ⟨hprepared, hcommitted, hopen⟩
    obtain ⟨hbatch, hhost⟩ := hprepared _ rfl
    obtain ⟨hheld, hjournal⟩ := hopen _ rfl
    simp only [Program.bind_eq, Program.ensures_bind, ensures_commit]
    refine ⟨hguar s₁ allocation hheld hjournal hbatch hhost, ?_, ?_⟩
    · intro db _ _
      exact hfinish s₁ allocation bindProbe hheld hjournal hbatch hhost
    · intro db error _ _
      exact hfail _ _ (by simpa using hcommitted)
  · rintro s₁ error ⟨-, hcommitted, -⟩
    exact hfail s₁ error hcommitted

/-- Nothing is asked of the ports. -/
def anyPorts (_ : List (AllocationRequestItem × ℕ)) : Prop := True

theorem yields_anyPorts (env : Environment) (host : Host) (hostId : Uuid)
    (items : List AllocationRequestItem) :
    Yields rely guar (resolveAll env host hostId items ∅) s fun found => anyPorts found.1 :=
  Yields.trivial _ (probesOnly_resolveAll env host hostId items ∅).holding

/-- A transaction that is still empty resolves, whatever it may meet. -/
theorem resolving_of_batch_nil (hbatch : s.batch = []) (key : ℤ) :
    Resolving rely (fun _ => True) (s.afterLock key) := by
  refine ⟨fun write hwrite => ?_, fun _ _ _ _ _ => trivial⟩
  have hnone : (s.afterLock key).batch = [] := hbatch
  rw [hnone] at hwrite
  cases hwrite

/-! ## What a bundle leaves -/

/-- The rows of a bundle, appended to the tables. -/
theorem applyAll_grantWrites (grants : List (CentralReservation × ActivityEvent)) (db : Db) :
    store.applyAll (grantWrites grants) db =
      { db with
        reservations := db.reservations ++ grants.map Prod.fst
        activity := db.activity ++ grants.map Prod.snd } := by
  induction grants generalizing db with
  | nil => simp [grantWrites]
  | cons grant grants ih =>
      have hcons : grantWrites (grant :: grants) =
          .insertReservation grant.1 :: .insertActivity grant.2 :: grantWrites grants := rfl
      rw [hcons, Store.applyAll_cons, Store.applyAll_cons, ih]
      simp [Write.apply]

/-- Probe rows, appended to their table. -/
theorem applyAll_probes {writes : List Write} (h : ∀ write ∈ writes, write.IsProbe) (db : Db) :
    ∃ probes, store.applyAll writes db = { db with probes := db.probes ++ probes } := by
  induction writes generalizing db with
  | nil => exact ⟨[], by simp⟩
  | cons write writes ih =>
      cases write with
      | insertProbe row =>
          obtain ⟨probes, hprobes⟩ :=
            ih (fun other hother => h other (List.mem_cons_of_mem _ hother))
              (Write.apply (.insertProbe row) db)
          exact ⟨row :: probes,
              by rw [Store.applyAll_cons, store_apply, hprobes]; simp [Write.apply]⟩
      | _ => exact (h _ List.mem_cons_self).elim

/-- The tables after a bundle's commit. -/
theorem BundleBatch.applyAll {env : Environment} {payload : AllocationIn}
    {allocation : Allocation} {batch : List Write}
    (h : BundleBatch R good env payload allocation batch) :
    ∃ resolved grants, good resolved ∧
      List.Forall₂ (IsGrant payload allocation.id) resolved grants ∧
      ∀ db, ∃ probes, store.applyAll batch db =
        { db with
          allocations := db.allocations ++ [allocation]
          reservations := db.reservations ++ grants.map Prod.fst
          activity := db.activity ++ grants.map Prod.snd
          probes := db.probes ++ probes } := by
  obtain ⟨probeWrites, resolved, grants, rfl, hprobes, hresolved, hgrants⟩ := h.writes
  refine ⟨resolved, grants, hresolved, hgrants, fun db => ?_⟩
  obtain ⟨probes, happly⟩ := applyAll_probes hprobes db
  refine ⟨probes, ?_⟩
  rw [Store.applyAll_append, happly, Store.applyAll_cons, store_apply, applyAll_grantWrites]
  rfl

/-- Once a bundle is committed its row is found under its id. -/
theorem BundleBatch.getAllocation {env : Environment} {payload : AllocationIn}
    {allocation : Allocation} {batch : List Write} {db : Db}
    (h : BundleBatch R good env payload allocation batch)
    (hfresh : db.getAllocation allocation.id = none) :
    (store.applyAll batch db).getAllocation allocation.id = some allocation := by
  obtain ⟨resolved, grants, -, -, happly⟩ := h.applyAll
  obtain ⟨probes, hdb⟩ := happly db
  rw [Db.getAllocation] at hfresh ⊢
  rw [hdb]
  simp [List.find?_append, hfresh]

/-- A bundle's commit leaves the hosts alone. -/
theorem BundleBatch.hosts {env : Environment} {payload : AllocationIn} {allocation : Allocation}
    {batch : List Write} (h : BundleBatch R good env payload allocation batch) (db : Db) :
    (store.applyAll batch db).hosts = db.hosts := by
  obtain ⟨resolved, grants, -, -, happly⟩ := h.applyAll
  obtain ⟨probes, hdb⟩ := happly db
  rw [hdb]

/-! ## The answer -/

/-- An entry as it is answered, its probe evidence apart. -/
structure ShownEntry where
  reservationId : Uuid
  name : String
  port : ℕ
  protocol : Protocol
  purpose : String
  deriving DecidableEq

def AllocationEntryOut.shown (entry : AllocationEntryOut) : ShownEntry where
  reservationId := entry.reservationId
  name := entry.name
  port := entry.port
  protocol := entry.protocol
  purpose := entry.purpose

/-- The entry for a reservation. -/
def CentralReservation.shown (row : CentralReservation) : ShownEntry where
  reservationId := row.id
  name := row.requestName.getD ""
  port := row.port
  protocol := row.protocol
  purpose := row.purpose.getD ""

theorem ensures_buildEntries (hostId : Uuid) (requests : List AllocationRequestItem)
    (rows : List CentralReservation) :
    (buildEntries hostId requests rows).Ensures store rely guar s fun _ outcome =>
      ∃ entries, outcome = .ok entries ∧
        entries.map AllocationEntryOut.shown = rows.map CentralReservation.shown := by
  induction rows generalizing s with
  | nil => exact ⟨[], rfl, rfl⟩
  | cons row rows ih =>
      simp only [buildEntries, buildEntry, getProbeEvidence, Program.bind_eq, Program.ensures_bind,
        ensures_select, ensures_clock, Program.pure_eq_ret, Program.ensures_ret]
      intro db _
      refine ih.mono ?_
      rintro s' outcome ⟨entries, rfl, hentries⟩
      exact ⟨_, rfl, congrArg (row.shown :: ·) hentries⟩

/-- Entries shown for reservations have their ports and protocols. -/
theorem forall₂_of_map_shown {entries : List AllocationEntryOut} {rows : List CentralReservation}
    (h : entries.map AllocationEntryOut.shown = rows.map CentralReservation.shown) :
    List.Forall₂ (fun row entry => entry.port = row.port ∧ entry.protocol = row.protocol) rows
      entries := by
  induction rows generalizing entries with
  | nil =>
      obtain rfl := List.map_eq_nil_iff.mp h
      exact .nil
  | cons row rows ih =>
      obtain ⟨entry, rest, rfl, hentry, hrest⟩ := List.map_eq_cons_iff.mp h
      exact .cons ⟨congrArg ShownEntry.port hentry, congrArg ShownEntry.protocol hentry⟩ (ih hrest)

/-- The reservations on file that an answer about an allocation lists. -/
def Db.listedFor (db : Db) (allocation : Allocation) : List CentralReservation :=
  (db.listReservations allocation.hostId 1000).filter fun row =>
    row.allocationId = some allocation.id

/-- An answer lists what is on file for its allocation. -/
theorem ensures_buildAllocationOut_lists (env : Environment) (allocation : Allocation)
    (bindProbe : BindProbe) (requests : List AllocationRequestItem) :
    (buildAllocationOut env allocation bindProbe requests).Ensures store rely guar s
      fun _ outcome => ∀ out, outcome = .ok out → out.allocationId = allocation.id ∧
        ∃ db, rely s db ∧ out.allocations.map AllocationEntryOut.shown =
          ((s.view store db).listedFor allocation).map CentralReservation.shown := by
  simp only [buildAllocationOut, Program.bind_eq, Program.ensures_bind, ensures_select]
  intro db _ db' hdb'
  refine (ensures_buildEntries _ _ _).mono ?_
  rintro s' outcome ⟨entries, rfl, hentries⟩
  cases hhost : (s.view store db).getHost allocation.hostId with
  | none => rintro _ ⟨⟩
  | some host =>
      simp only [buildValidation, Program.bind_eq, Program.ensures_bind, ensures_clock,
        Program.pure_eq_ret, Program.ensures_ret]
      rintro _ ⟨⟩
      exact ⟨rfl, db', hdb', hentries⟩

/-- While the allocation's host is on file an answer can be built for it. -/
theorem ensures_buildAllocationOut (env : Environment) (allocation : Allocation)
    (bindProbe : BindProbe) (requests : List AllocationRequestItem)
    (hhost : ∀ db, rely s db → ((s.view store db).getHost allocation.hostId).isSome = true) :
    (buildAllocationOut env allocation bindProbe requests).Ensures store rely guar s
      fun _ outcome => ∃ out, outcome = .ok out ∧ out.allocationId = allocation.id ∧
        out.idempotentReplay = false := by
  simp only [buildAllocationOut, Program.bind_eq, Program.ensures_bind, ensures_select]
  intro db hdb db' _
  refine (ensures_buildEntries _ _ _).mono ?_
  rintro s' outcome ⟨entries, rfl, -⟩
  obtain ⟨host, hfound⟩ := Option.isSome_iff_exists.mp (hhost db hdb)
  simp only [hfound, buildValidation, Program.bind_eq, Program.ensures_bind, ensures_clock,
    Program.pure_eq_ret, Program.ensures_ret]
  exact ⟨_, rfl, rfl, rfl⟩

/-- While a bundle's rows are on file its answer can be built. -/
theorem ensures_finishBundle (env : Environment) (allocation : Allocation) (bindProbe : BindProbe)
    (requests : List AllocationRequestItem)
    (hfound : ∀ db, rely s db →
      (s.view store db).getAllocation allocation.id = some allocation ∧
        ((s.view store db).getHost allocation.hostId).isSome = true) :
    (finishBundle env allocation.id bindProbe requests).Ensures store rely guar s
      fun _ outcome => ∃ out, outcome = .ok out ∧ out.allocationId = allocation.id ∧
        out.idempotentReplay = false := by
  simp only [finishBundle, refreshAllocation, Program.bind_eq, Program.ensures_bind,
    ensures_select]
  intro db hdb
  simp only [(hfound db hdb).1, Program.pure_eq_ret, Program.ensures_ret]
  exact ensures_buildAllocationOut env allocation bindProbe requests fun db hdb =>
    (hfound db hdb).2

/-- The answer of a bundle is about the bundle. -/
theorem ensures_finishBundle_id (env : Environment) (allocationId : Uuid) (bindProbe : BindProbe)
    (requests : List AllocationRequestItem) :
    (finishBundle env allocationId bindProbe requests).Ensures store rely guar s
      fun _ outcome => ∀ out, outcome = .ok out → out.allocationId = allocationId := by
  simp only [finishBundle, refreshAllocation, Program.bind_eq, Program.ensures_bind,
    ensures_select]
  intro db _
  cases hfound : (s.view store db).getAllocation allocationId with
  | none => rintro _ ⟨⟩
  | some allocation =>
      have hid : allocation.id = allocationId := by
        simpa using List.find?_some hfound
      refine (ensures_buildAllocationOut_lists env allocation bindProbe requests).mono ?_
      intro s' outcome hlists out hout
      exact (hlists out hout).1.trans hid

end Central
