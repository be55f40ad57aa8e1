/-
# Two views of an allocation

`get_allocation` lists the reservations of the allocation's host by port, a thousand at most, and
shows those that carry the allocation's id. `list_allocations` loads the reservations of a page of
allocations by these ids. The two show the same entries exactly while every reservation with the
id is on the allocation's host, behind fewer than a thousand others.
-/

import PortForge.Central.ReleaseCompleteness
import PortForge.Central.Verification
import PortForge.Python.Ranking

namespace Central

open Python Transaction

/-! ## The operations -/

/-- `get_allocation`. -/
def getAllocation (env : Environment) (allocationId : Uuid) : Service AllocationOut := do
  let row ← select fun db => db.getAllocation allocationId
  match row with
  | none => raise (.allocation (allocationNotFound allocationId))
  | some allocation => buildAllocationOut env allocation .notRemoteCapable []

/-- What texts are searched with: Python's `str.lower`, and `lower` and `LIKE` of the database. -/
structure TextSearch where
  lower : String → String
  dbLower : String → String
  like : String → String → Bool

/-- The parameters of `list_allocations`. -/
structure AllocationQuery where
  hostId : Option Uuid := none
  project : Option String := none
  status : Option AllocationStatus := none
  search : Option String := none
  limit : ℕ := 50
  offset : ℕ := 0

/-- The conditions of `AllocationRepository.list`. -/
def AllocationQuery.selects (text : TextSearch) (query : AllocationQuery)
    (row : Allocation) : Bool :=
  query.hostId.all (fun hostId => row.hostId = hostId) &&
    (given query.project).all (fun project => text.dbLower row.project = text.lower project) &&
    query.status.all (fun status => row.status = status) &&
    (given query.search).all fun search =>
      text.like (text.dbLower row.project) ("%" ++ text.lower search ++ "%") ||
        row.requestId.any fun requestId =>
          text.like (text.dbLower requestId) ("%" ++ text.lower search ++ "%")

/-- `AllocationRepository.list`: a page of rows, and the number of all rows. -/
def Db.listAllocations (db : Db) (text : TextSearch) (query : AllocationQuery) :
    List Allocation × ℕ :=
  let rows := db.allocations.filter (query.selects text)
  (((rows.insertionSort Db.newerFirst).drop query.offset).take query.limit, rows.length)

/-- `HostRepository.get_many`. -/
def Db.getManyHosts (db : Db) (hostIds : List Uuid) : List Host :=
  db.hosts.filter fun host => host.id ∈ hostIds

/-- `ReservationRepository.list_by_allocation_ids`. -/
def Db.listByAllocationIds (db : Db) (allocationIds : List Uuid) : List CentralReservation :=
  db.reservations.filter fun row => row.allocationId.any fun id => id ∈ allocationIds

/-- One entry of a page. -/
def listedEntry (evidence : List HostProbe) (now : ℤ) (hostId : Uuid) (row : CentralReservation) :
    AllocationEntryOut where
  name := row.requestName.getD ""
  purpose := row.purpose.getD ""
  protocol := row.protocol
  port := row.port
  reservationId := row.id
  bindAddress := row.bindAddress
  bindProbe := classifyBindProbe (evidence.find? fun probe => probe.IsForRow hostId row) now
  requestedRange := none

/-- The loop over a page; an allocation whose host is missing is left out. -/
def listedOuts (env : Environment) (hosts : List Host) (reservations : List CentralReservation)
    (evidence : List HostProbe) (now : ℤ) : List Allocation → Service (List AllocationOut)
  | [] => pure []
  | allocation :: rows =>
      match hosts.find? fun host => host.id = allocation.hostId with
      | none => listedOuts env hosts reservations evidence now rows
      | some host => do
          let validation ← buildValidation env host .notRemoteCapable
          let outs ← listedOuts env hosts reservations evidence now rows
          let ownRows := reservations.filter fun row => row.allocationId = some allocation.id
          pure
            ({ idempotentReplay := false
               allocationId := allocation.id
               project := allocation.project
               host := { id := host.id, hostname := host.hostname }
               status := allocation.status
               allocations := ownRows.map (listedEntry evidence now allocation.hostId)
               validation := validation
               createdAt := allocation.createdAt
               releasedAt := allocation.releasedAt
               requestId := allocation.requestId } :: outs)

/-- `list_allocations`. -/
def listAllocations (env : Environment) (text : TextSearch) (query : AllocationQuery) :
    Service (List AllocationOut × ℕ) := do
  let (rows, total) ← select fun db => db.listAllocations text query
  if rows = [] then pure ([], total)
  else do
    let hostIds := (rows.map Allocation.hostId).dedup
    let hosts ← select fun db => db.getManyHosts hostIds
    let reservations ← select fun db => db.listByAllocationIds (rows.map Allocation.id)
    let now ← clock
    let evidence ← select fun db => getProbeEvidenceMap [] db hostIds
    let outs ← listedOuts env hosts reservations evidence now rows
    pure (outs, total)

/-! ## What the views show -/

/-- The set of entries of an answer, their probe evidence apart. -/
def AllocationOut.shown (out : AllocationOut) : Finset ShownEntry :=
  (out.allocations.map AllocationEntryOut.shown).toFinset

/-- The reservations that carry an allocation's id. -/
def Db.carrying (db : Db) (allocationId : Uuid) : List CentralReservation :=
  db.reservations.filter fun row => row.allocationId = some allocationId

/-- The entries for the reservations that carry an allocation's id. -/
def Db.carried (db : Db) (allocationId : Uuid) : Finset ShownEntry :=
  ((db.carrying allocationId).map CentralReservation.shown).toFinset

/-- The two views of an allocation show the same entries, and these are the reservations that
carry its id. -/
structure ViewsAgree (env : Environment) (text : TextSearch) (db : Db)
    (allocationId : Uuid) : Prop where
  same : ∀ draws faults one, ((getAllocation env allocationId).exec store
      (Session.start draws faults) db).result = .ok one →
    ∀ draws' faults' query page, ((listAllocations env text query).exec store
        (Session.start draws' faults') db).result = .ok page →
      ∀ out ∈ page.1, out.allocationId = allocationId → one.shown = out.shown
  single : ∀ draws faults one, ((getAllocation env allocationId).exec store
      (Session.start draws faults) db).result = .ok one → one.shown = db.carried allocationId
  listed : ∀ draws faults query page, ((listAllocations env text query).exec store
      (Session.start draws faults) db).result = .ok page →
    ∀ out ∈ page.1, out.allocationId = allocationId → out.shown = db.carried allocationId

/-- The other reservations of its host on ports up to its own. -/
def Db.before (db : Db) (row : CentralReservation) : ℕ :=
  rivals CentralReservation.port (fun other => decide (other = row))
    (db.hostReservations row.hostId) row

section Views

variable {env : Environment} {text : TextSearch} {allocationId : Uuid} {allocation : Allocation}
  {db : Db} {guar : ServiceSession → Prop} {s : ServiceSession}

theorem ensures_listedOuts {rely : ServiceSession → Db → Prop} {hosts : List Host}
    {reservations : List CentralReservation} {evidence : List HostProbe} {now : ℤ}
    (rows : List Allocation) :
    (listedOuts env hosts reservations evidence now rows).Ensures store rely guar s
      fun _ result => ∀ outs, result = .ok outs → ∀ out ∈ outs, out.allocationId ∈
        rows.map Allocation.id ∧ out.allocations.map AllocationEntryOut.shown =
          (reservations.filter fun row => row.allocationId = some out.allocationId).map
            CentralReservation.shown := by
  induction rows generalizing s with
  | nil =>
      rintro outs ⟨⟩ out hout
      cases hout
  | cons allocation rows ih =>
      rw [listedOuts]
      cases hosts.find? fun host => host.id = allocation.hostId with
      | none =>
          refine ih.mono fun _ _ hrest outs houts out hout => ?_
          exact ⟨List.mem_cons_of_mem _ (hrest outs houts out hout).1,
            (hrest outs houts out hout).2⟩
      | some host =>
          simp only [buildValidation, Program.bind_eq, Program.ensures_bind, ensures_clock,
            Program.pure_eq_ret, Program.ensures_ret]
          apply ih.mono
          intro s' result hrest
          cases result with
          | error error => rintro outs ⟨⟩
          | ok rest =>
              rintro outs ⟨⟩ out hout
              rcases List.mem_cons.mp hout with rfl | hout
              · refine ⟨List.mem_cons_self, ?_⟩
                rw [List.map_map]
                rfl
              · exact ⟨List.mem_cons_of_mem _ (hrest rest rfl out hout).1,
                  (hrest rest rfl out hout).2⟩

/-- A page shows what carries the ids of its allocations. -/
theorem ensures_listAllocations (hs : Blank s) (query : AllocationQuery) :
    (listAllocations env text query).Ensures store (Program.alone store db) guar s
      fun _ result => ∀ page, result = .ok page → ∀ out ∈ page.1,
        out.shown = db.carried out.allocationId := by
  simp only [listAllocations, Program.bind_eq, Program.ensures_bind, ensures_select]
  intro seen hseen
  rw [hs.view_eq hseen]
  split
  · rintro page ⟨⟩ out hout
    cases hout
  · simp only [Program.ensures_bind, ensures_select, ensures_clock]
    intro seen₁ _ seen₂ hseen₂ seen₃ _
    rw [hs.view_eq hseen₂]
    apply (ensures_listedOuts _).mono
    intro s' result houts
    cases result with
    | error error => rintro page ⟨⟩
    | ok outs =>
        rintro page ⟨⟩ out hout
        obtain ⟨hid, hshown⟩ := houts outs rfl out hout
        rw [AllocationOut.shown, hshown, Db.carried, Db.carrying, Db.listByAllocationIds,
          List.filter_filter]
        congr 2
        apply List.filter_congr
        intro row _
        by_cases hrow : row.allocationId = some out.allocationId
        · simp only [hrow, decide_true, Option.any_some, Bool.true_and, decide_eq_true_eq]
          exact hid
        · simp [hrow]

/-- While its host is on file, the single view shows what the listing of the host has of the
allocation. -/
theorem exec_getAllocation (hfound : db.getAllocation allocationId = some allocation)
    (hhost : (db.getHost allocation.hostId).isSome = true) (draws : ℕ → Draw)
    (faults : ℕ → Option DbError) :
    ∃ one, ((getAllocation env allocationId).exec store (Session.start draws faults)
        db).result = .ok one ∧
      one.shown = ((db.listedFor allocation).map CentralReservation.shown).toFinset := by
  have hbuilds : (buildAllocationOut env allocation .notRemoteCapable []).Ensures store
      (Program.alone store db) (fun _ => True) (Session.start draws faults) _ :=
    ensures_buildAllocationOut env allocation .notRemoteCapable [] fun seen hseen => by
      rw [(blank_start draws faults).view_eq hseen]
      exact hhost
  have hlists : (buildAllocationOut env allocation .notRemoteCapable []).Ensures store
      (Program.alone store db) (fun _ => True) (Session.start draws faults) _ :=
    ensures_buildAllocationOut_lists env allocation .notRemoteCapable []
  have hexec : (getAllocation env allocationId).exec store (Session.start draws faults) db =
      (buildAllocationOut env allocation .notRemoteCapable []).exec store
        (Session.start draws faults) db := by
    simp only [getAllocation, Program.bind_eq, Program.exec_bind, exec_select, view_start, hfound]
  obtain ⟨⟨one, hone, -⟩, hshown⟩ := (hbuilds.and hlists).exec_start.1
  obtain ⟨-, seen, hseen, hentries⟩ := hshown one hone
  rw [(blank_start draws faults).view_eq hseen] at hentries
  refine ⟨one, hexec ▸ hone, ?_⟩
  rw [AllocationOut.shown, hentries]

theorem shown_of_getAllocation (hfound : db.getAllocation allocationId = some allocation)
    (hhost : (db.getHost allocation.hostId).isSome = true) {draws : ℕ → Draw}
    {faults : ℕ → Option DbError} {one : AllocationOut}
    (hone : ((getAllocation env allocationId).exec store (Session.start draws faults)
      db).result = .ok one) :
    one.shown = ((db.listedFor allocation).map CentralReservation.shown).toFinset := by
  obtain ⟨other, hother, hshown⟩ := exec_getAllocation hfound hhost draws faults
  rw [← Except.ok.inj (hother.symm.trans hone)]
  exact hshown

theorem shown_of_listAllocations {draws : ℕ → Draw} {faults : ℕ → Option DbError}
    {query : AllocationQuery} {page : List AllocationOut × ℕ}
    (hpage : ((listAllocations env text query).exec store (Session.start draws faults)
      db).result = .ok page) {out : AllocationOut} (hout : out ∈ page.1) :
    out.shown = db.carried out.allocationId := by
  have hensures : (listAllocations env text query).Ensures store (Program.alone store db)
      (fun _ => True) (Session.start draws faults) _ :=
    ensures_listAllocations (blank_start draws faults) query
  exact hensures.exec_start.1 page hpage out hout

/-- The listing of the host has all reservations that carry the allocation's id. -/
def Db.ListsCarrying (db : Db) (allocation : Allocation) : Prop :=
  ∀ row ∈ db.carrying allocation.id, row ∈ db.listReservations allocation.hostId 1000

/-- The views agree on one state of the database, if and only if the host's listing is complete
for the allocation. -/
theorem viewsAgree_iff_lists (hkeys : (db.reservations.map CentralReservation.id).Nodup)
    (hfound : db.getAllocation allocation.id = some allocation)
    (hhost : (db.getHost allocation.hostId).isSome = true) :
    ViewsAgree env text db allocation.id ↔ db.ListsCarrying allocation := by
  constructor
  · intro hagree row hrow
    obtain ⟨one, hone, hshown⟩ := exec_getAllocation hfound hhost (sampleDraws 0) fun _ => none
    have hcarried : row.shown ∈ db.carried allocation.id :=
      List.mem_toFinset.mpr (List.mem_map_of_mem hrow)
    rw [← hagree.single _ _ one hone, hshown, List.mem_toFinset] at hcarried
    obtain ⟨other, hother, hequal⟩ := List.mem_map.mp hcarried
    have hlisted := List.mem_of_mem_filter hother
    -- The entry names its reservation.
    have hid : other.id = row.id := congrArg ShownEntry.reservationId hequal
    have hsame : other = row := List.inj_on_of_nodup_map hkeys
      (Db.of_mem_listReservations hlisted).1 (List.mem_of_mem_filter hrow) hid
    exact hsame ▸ hlisted
  · intro hlists
    have hcomplete : ((db.listedFor allocation).map CentralReservation.shown).toFinset =
        db.carried allocation.id := by
      ext entry
      rw [Db.carried, List.mem_toFinset, List.mem_toFinset, List.mem_map, List.mem_map]
      apply exists_congr
      intro row
      apply and_congr_left'
      rw [Db.listedFor, List.mem_filter]
      constructor
      · intro h
        exact List.mem_filter.mpr ⟨(Db.of_mem_listReservations h.1).1, h.2⟩
      · intro h
        exact ⟨hlists row h, (List.mem_filter.mp h).2⟩
    have hsingle : ∀ draws faults one, ((getAllocation env allocation.id).exec store
        (Session.start draws faults) db).result = .ok one →
          one.shown = db.carried allocation.id := by
      intro draws faults one hone
      rw [shown_of_getAllocation hfound hhost hone, hcomplete]
    refine ⟨?_, hsingle, ?_⟩
    · intro draws faults one hone draws' faults' query page hpage out hout hid
      rw [hsingle draws faults one hone, shown_of_listAllocations hpage hout, hid]
    · intro draws faults query page hpage out hout hid
      rw [shown_of_listAllocations hpage hout, hid]

/-- A reservation is listed in every order of the rows, if and only if it is on the host, behind
fewer than a thousand others. -/
theorem listed_in_every_order_iff {row : CentralReservation} (hrow : row ∈ db.reservations)
    (hostId : Uuid) :
    (∀ rows : List CentralReservation, rows.Perm db.reservations →
      row ∈ ({ db with reservations := rows } : Db).listReservations hostId 1000) ↔
        row.hostId = hostId ∧ db.before row < 1000 := by
  have hfind : ∀ page : List CentralReservation,
      (page.find? fun other => decide (other = row)).isSome = true ↔ row ∈ page := by
    intro page
    rw [List.find?_isSome]
    simp
  by_cases hhost : row.hostId = hostId
  · have hleads : Leads (fun a b => a.port ≤ b.port) (fun other => decide (other = row))
        (db.hostReservations hostId) row := by
      refine ⟨List.mem_filter.mpr ⟨hrow, decide_eq_true hhost⟩, decide_eq_true rfl, ?_⟩
      intro other _ hother
      rw [of_decide_eq_true hother]
    have hpage := page_iff (n := 1000) hleads
    simp only [hfind] at hpage
    rw [and_iff_right hhost, Db.before, hhost]
    exact hpage
  · apply iff_of_false
    · intro hevery
      exact hhost (Db.of_mem_listReservations (hevery _ (List.Perm.refl _))).2
    · exact fun h => hhost h.1

end Views

/-- Whatever order the rows come in, the two views of an allocation agree, if and only if the
reservations that carry its id are on its host, each behind fewer than a thousand others. -/
theorem views_agree_iff (env : Environment) (text : TextSearch) (db : Db) (allocation : Allocation)
    (hkeys : (db.reservations.map CentralReservation.id).Nodup)
    (hfound : db.getAllocation allocation.id = some allocation)
    (hhost : (db.getHost allocation.hostId).isSome = true) :
    (∀ rows : List CentralReservation, rows.Perm db.reservations →
      ViewsAgree env text { db with reservations := rows } allocation.id) ↔
        ∀ row ∈ db.reservations, row.allocationId = some allocation.id →
          row.hostId = allocation.hostId ∧ db.before row < 1000 := by
  have hviews : ∀ rows : List CentralReservation, rows.Perm db.reservations →
      (ViewsAgree env text { db with reservations := rows } allocation.id ↔
        ∀ row ∈ db.reservations, row.allocationId = some allocation.id →
          row ∈ ({ db with reservations := rows } : Db).listReservations allocation.hostId 1000) := by
    intro rows hperm
    have hlists : ViewsAgree env text { db with reservations := rows } allocation.id ↔
        ({ db with reservations := rows } : Db).ListsCarrying allocation :=
      viewsAgree_iff_lists ((hperm.map _).nodup_iff.mpr hkeys) hfound hhost
    rw [hlists, Db.ListsCarrying, Db.carrying]
    simp only [List.mem_filter, decide_eq_true_eq, and_imp, hperm.mem_iff]
  constructor
  · intro hagree row hrow hid
    apply (listed_in_every_order_iff hrow allocation.hostId).mp
    exact fun rows hperm => (hviews rows hperm).mp (hagree rows hperm) row hrow hid
  · intro hlisted rows hperm
    apply (hviews rows hperm).mpr
    intro row hrow hid
    exact (listed_in_every_order_iff hrow allocation.hostId).mpr (hlisted row hrow hid) rows hperm

/-- A search in lower case, with patterns whose only wildcards are at their ends. -/
def plainSearch : TextSearch where
  lower := String.toLower
  dbLower := String.toLower
  like text pattern := decide (pattern.toList.filter (· ≠ '%') <:+: text.toList)

/-- With one other reservation on the host the views agree. -/
theorem views_agree_iff_sample :
    ViewsAgree sampleEnvironment plainSearch (crowdedDb 1) heldAllocation.id :=
  (views_agree_iff sampleEnvironment plainSearch (crowdedDb 1) heldAllocation (by decide) rfl
    rfl).mpr (by decide) _ (.refl _)

/-- With a thousand other reservations on smaller ports they do not. -/
theorem crowded_views_disagree :
    ¬ ViewsAgree sampleEnvironment plainSearch (crowdedDb 1000) heldAllocation.id := by
  have hkeys := nodup_crowdedDb 1000 (by omega)
  have hfound : (crowdedDb 1000).getAllocation heldAllocation.id = some heldAllocation := rfl
  rw [viewsAgree_iff_lists hkeys hfound rfl]
  intro hlists
  have hcarried : heldReservation 8000 (some heldAllocation.id) ∈
      (crowdedDb 1000).carrying heldAllocation.id :=
    List.mem_filter.mpr ⟨List.mem_append_right _ (List.mem_singleton_self _), decide_eq_true rfl⟩
  exact unlisted_crowdedDb (by omega : 1000 ≤ 8000) (hlists _ hcarried)

end Central
