/-
# What a host owns

The active allocations of a host, the reservations that belong to allocations, and its
live credentials: what the writes of a release or a decommissioning leave of them, and
what the writes of an allocation or an enrollment add. A release and a decommissioning
are followed through contents that drift: what they delete and mark at their commit is
all there is to delete and mark, as long as their listings were not cut off.
-/

import PortForge.Central.Enrollment
import PortForge.Central.ReleaseCompleteness

namespace Central

open Transaction

variable {hostId : Uuid} {db later : Db}

/-! ## Ownership -/

/-- No row of the host is decommissioned. -/
def Db.InService (db : Db) (hostId : Uuid) : Prop :=
  ∀ host ∈ db.hosts, host.id = hostId → host.lifecycleState ≠ .decommissioned

/-- The host has no active allocation, no reservation that belongs to an allocation and no
unrevoked credential. -/
structure Db.OwnsNothing (db : Db) (hostId : Uuid) : Prop where
  allocations : ∀ row ∈ db.allocations, row.hostId = hostId → row.status ≠ .active
  reservations : ∀ row ∈ db.reservations, row.hostId = hostId → row.allocationId = none
  credentials : ∀ row ∈ db.credentials, row.hostId = hostId → row.revokedAt ≠ none

/-- A decommissioned host owns nothing. -/
def Db.Retired (db : Db) (hostId : Uuid) : Prop :=
  (∃ host ∈ db.hosts, host.id = hostId ∧ host.lifecycleState = .decommissioned) →
    db.OwnsNothing hostId

/-- Every reservation of the host that belongs to an allocation belongs to an active one of
the host. -/
def Db.Attached (db : Db) (hostId : Uuid) : Prop :=
  ∀ row ∈ db.reservations, row.hostId = hostId → ∀ id, row.allocationId = some id →
    ∃ allocation ∈ db.allocations, allocation.id = id ∧ allocation.hostId = hostId ∧
      allocation.status = .active

/-- What every run keeps. -/
structure Db.Intact (db : Db) (hostId : Uuid) : Prop where
  retired : db.Retired hostId
  attached : db.Attached hostId

/-- From `db` to `later` the host gained nothing. -/
structure GainsNothing (hostId : Uuid) (db later : Db) : Prop where
  allocations : ∀ row ∈ later.allocations, row.hostId = hostId → row.status = .active →
    row ∈ db.allocations
  reservations : ∀ row ∈ later.reservations, row.hostId = hostId → row.allocationId ≠ none →
    row ∈ db.reservations
  credentials : ∀ row ∈ later.credentials, row.hostId = hostId → row.revokedAt = none →
    row ∈ db.credentials

theorem GainsNothing.refl (db : Db) : GainsNothing hostId db db :=
  ⟨fun _ h _ _ => h, fun _ h _ _ => h, fun _ h _ _ => h⟩

theorem GainsNothing.trans {first second third : Db} (h : GainsNothing hostId first second)
    (h' : GainsNothing hostId second third) : GainsNothing hostId first third where
  allocations row hrow hhost hactive :=
    h.allocations row (h'.allocations row hrow hhost hactive) hhost hactive
  reservations row hrow hhost hattached :=
    h.reservations row (h'.reservations row hrow hhost hattached) hhost hattached
  credentials row hrow hhost hlive :=
    h.credentials row (h'.credentials row hrow hhost hlive) hhost hlive

/-! ## Writes that retire -/

/-- A write that retires changes no row but to end it, and adds none to what hosts own. -/
theorem gainsNothing_apply {write : Write} (h : write.IsRetiring hostId) (other : Uuid) (db : Db) :
    GainsNothing other db (write.apply db) := by
  cases write with
  | revokeCredential id revokedAt =>
      refine ⟨fun _ h _ _ => h, fun _ h _ _ => h, fun row hrow _ hlive => ?_⟩
      obtain ⟨old, hold, rfl⟩ := List.mem_map.mp hrow
      split at hlive
      · cases hlive
      · next hne => rwa [if_neg hne]
  | releaseAllocation id releasedAt =>
      refine ⟨fun row hrow _ hactive => ?_, fun _ h _ _ => h, fun _ h _ _ => h⟩
      obtain ⟨old, hold, rfl⟩ := List.mem_map.mp hrow
      split at hactive
      · cases hactive
      · next hne => rwa [if_neg hne]
  | deleteReservation id =>
      exact ⟨fun _ h _ _ => h, fun row hrow _ _ => (List.mem_filter.mp hrow).1, fun _ h _ _ => h⟩
  | decommissionHost id now reason =>
      exact ⟨fun _ h _ _ => h, fun _ h _ _ => h, fun _ h _ _ => h⟩
  | failUpgrade id reason now =>
      exact ⟨fun _ h _ _ => h, fun _ h _ _ => h, fun _ h _ _ => h⟩
  | insertActivity event =>
      exact ⟨fun _ h _ _ => h, fun _ h _ _ => h, fun _ h _ _ => h⟩
  | _ => exact h.elim

theorem gainsNothing_applyAll {writes : List Write} (h : ∀ write ∈ writes, write.IsRetiring hostId)
    (other : Uuid) (db : Db) : GainsNothing other db (store.applyAll writes db) :=
  Store.applyAll_induction store (motive := fun later => GainsNothing other db later) (.refl db)
    fun write hwrite contents hcontents =>
      hcontents.trans (gainsNothing_apply (h write hwrite) other contents)

/-- A credential that a batch revokes is not live after it. -/
theorem revoked_of_mem {writes : List Write} (h : ∀ write ∈ writes, write.IsRetiring hostId)
    {id : Uuid} {revokedAt : ℤ} (hrevokes : .revokeCredential id revokedAt ∈ writes) {db : Db}
    {row : AgentCredential} (hrow : row ∈ (store.applyAll writes db).credentials)
    (hid : row.id = id) : row.revokedAt ≠ none := by
  obtain ⟨before, after, rfl⟩ := List.append_of_mem hrevokes
  rw [Store.applyAll_append, Store.applyAll_cons] at hrow
  intro hlive
  have hafter : ∀ write ∈ after, write.IsRetiring hostId := fun write hwrite =>
    h write (List.mem_append_right _ (List.mem_cons_of_mem _ hwrite))
  have hmarked := (gainsNothing_applyAll hafter row.hostId _).credentials row hrow rfl hlive
  obtain ⟨old, -, hold⟩ := List.mem_map.mp hmarked
  split at hold
  · rw [← hold] at hlive
    cases hlive
  · next hne => exact hne (by rw [hold, hid])

/-- An allocation that a batch releases is not active after it. -/
theorem released_of_mem {writes : List Write} (h : ∀ write ∈ writes, write.IsRetiring hostId)
    {id : Uuid} {releasedAt : ℤ} (hreleases : .releaseAllocation id releasedAt ∈ writes) {db : Db}
    {row : Allocation} (hrow : row ∈ (store.applyAll writes db).allocations) (hid : row.id = id) :
    row.status ≠ .active := by
  obtain ⟨before, after, rfl⟩ := List.append_of_mem hreleases
  rw [Store.applyAll_append, Store.applyAll_cons] at hrow
  intro hactive
  have hafter : ∀ write ∈ after, write.IsRetiring hostId := fun write hwrite =>
    h write (List.mem_append_right _ (List.mem_cons_of_mem _ hwrite))
  have hmarked := (gainsNothing_applyAll hafter row.hostId _).allocations row hrow rfl hactive
  obtain ⟨old, -, hold⟩ := List.mem_map.mp hmarked
  split at hold
  · rw [← hold] at hactive
    cases hactive
  · next hne => exact hne (by rw [hold, hid])

/-- A reservation that a batch deletes is gone after it. -/
theorem deleted_of_mem {writes : List Write} (h : ∀ write ∈ writes, write.IsRetiring hostId)
    {id : Uuid} (hdeletes : .deleteReservation id ∈ writes) {db : Db}
    {row : CentralReservation} (hrow : row ∈ (store.applyAll writes db).reservations)
    (hattached : row.allocationId ≠ none) : row.id ≠ id := by
  obtain ⟨before, after, rfl⟩ := List.append_of_mem hdeletes
  rw [Store.applyAll_append, Store.applyAll_cons] at hrow
  have hafter : ∀ write ∈ after, write.IsRetiring hostId := fun write hwrite =>
    h write (List.mem_append_right _ (List.mem_cons_of_mem _ hwrite))
  have hkept := (gainsNothing_applyAll hafter row.hostId _).reservations row hrow rfl hattached
  simpa using (List.mem_filter.mp hkept).2

/-! ## A release, on contents that drift -/

/-- The write is one of the release of an allocation. -/
def Write.IsReleasing (allocationId : Uuid) : Write → Prop
  | .deleteReservation _ => True
  | .insertActivity _ => True
  | .releaseAllocation id _ => id = allocationId
  | _ => False

theorem Write.IsReleasing.isRetiring {allocationId : Uuid} {write : Write}
    (h : write.IsReleasing allocationId) (hostId : Uuid) : write.IsRetiring hostId := by
  cases write <;> first | exact h.elim | trivial

theorem adds_releaseRows (other allocationId : Uuid) {timestamp : Service ℤ}
    (hobserves : timestamp.Observes) (rows : List CentralReservation) :
    (releaseRows other allocationId timestamp rows).Adds (Write.IsReleasing allocationId) := by
  induction rows with
  | nil => trivial
  | cons row rows ih =>
      rw [releaseRows]
      split
      · refine ⟨trivial, hobserves.adds.bind fun now => ?_⟩
        exact observes_newUuid.adds.bind fun id => ⟨trivial, ih⟩
      · exact ih

theorem adds_releaseLocked (allocation : Allocation) :
    (releaseLocked allocation).Adds (Write.IsReleasing allocation.id) := by
  refine Program.Adds.bind observes_select.adds fun rows => ?_
  refine (adds_releaseRows _ _ observes_clock rows).bind fun _ => ?_
  exact observes_clock.adds.bind fun now => ⟨rfl, adds_commit⟩

/-- The allocation's row is on file, on its host. -/
structure Tracks (allocation : Allocation) (db : Db) : Prop where
  found : ∃ row ∈ db.allocations, row.id = allocation.id
  host : ∀ row ∈ db.allocations, row.id = allocation.id → row.hostId = allocation.hostId

/-- What other calls do to an allocation on file: it stays, and gains no reservation. -/
def AllocationDrift (allocation : Allocation) (db later : Db) : Prop :=
  Tracks allocation db → Tracks allocation later ∧
    ∀ row ∈ later.reservations, row.allocationId = some allocation.id → row ∈ db.reservations

theorem AllocationDrift.refl (allocation : Allocation) (db : Db) :
    AllocationDrift allocation db db :=
  fun htracks => ⟨htracks, fun _ hrow _ => hrow⟩

theorem AllocationDrift.trans {allocation : Allocation} {first second third : Db}
    (h : AllocationDrift allocation first second) (h' : AllocationDrift allocation second third) :
    AllocationDrift allocation first third := by
  intro htracks
  obtain ⟨hsecond, hrows⟩ := h htracks
  obtain ⟨hthird, hrows'⟩ := h' hsecond
  exact ⟨hthird, fun row hrow hid => hrows row (hrows' row hrow hid) hid⟩

/-- Writes that retire keep the allocations but for their states. -/
theorem allocations_applyAll {writes : List Write} (h : ∀ write ∈ writes, write.IsRetiring hostId)
    (db : Db) :
    (store.applyAll writes db).allocations.map (fun row => (row.id, row.hostId)) =
      db.allocations.map fun row => (row.id, row.hostId) := by
  refine Store.applyAll_induction store (motive := fun later =>
    later.allocations.map (fun row => (row.id, row.hostId)) =
      db.allocations.map fun row => (row.id, row.hostId)) rfl fun write hwrite contents hsame => ?_
  rw [← hsame]
  have hretiring := h write hwrite
  cases write with
  | releaseAllocation id releasedAt =>
      rw [store_apply, Write.apply, List.map_map]
      refine List.map_congr_left fun row _ => ?_
      simp only [Function.comp_apply]
      split <;> rfl
  | _ => first | exact hretiring.elim | rfl

theorem tracks_iff {allocation : Allocation} :
    Tracks allocation db ↔
      (∃ entry ∈ db.allocations.map fun row => (row.id, row.hostId), entry.1 = allocation.id) ∧
        ∀ entry ∈ db.allocations.map fun row => (row.id, row.hostId),
          entry.1 = allocation.id → entry.2 = allocation.hostId := by
  constructor
  · rintro ⟨⟨row, hrow, hid⟩, hhost⟩
    refine ⟨⟨_, List.mem_map_of_mem hrow, hid⟩, fun entry hentry hid' => ?_⟩
    obtain ⟨other, hother, rfl⟩ := List.mem_map.mp hentry
    exact hhost other hother hid'
  · rintro ⟨⟨entry, hentry, hid⟩, hhost⟩
    obtain ⟨row, hrow, rfl⟩ := List.mem_map.mp hentry
    exact ⟨⟨row, hrow, hid⟩, fun other hother hid' => hhost _ (List.mem_map_of_mem hother) hid'⟩

theorem allocationDrift_retiring (allocation : Allocation) {writes : List Write}
    (h : ∀ write ∈ writes, write.IsRetiring hostId) (db : Db) :
    AllocationDrift allocation db (store.applyAll writes db) := by
  intro htracks
  refine ⟨?_, fun row hrow hid => ?_⟩
  · rw [tracks_iff, allocations_applyAll h, ← tracks_iff]
    exact htracks
  · exact (gainsNothing_applyAll h row.hostId db).reservations row hrow rfl (by simp [hid])

/-- An active allocation that a batch does not release stays active. -/
theorem active_of_not_released {writes : List Write} {allocationId : Uuid}
    (h : ∀ write ∈ writes, write.IsReleasing allocationId) {row : Allocation}
    (hother : row.id ≠ allocationId) (hrow : row ∈ db.allocations) :
    row ∈ (store.applyAll writes db).allocations := by
  refine Store.applyAll_induction store (motive := fun later => row ∈ later.allocations) hrow
    fun write hwrite contents hmem => ?_
  have hreleasing := h write hwrite
  cases write with
  | releaseAllocation id releasedAt =>
      obtain rfl : id = allocationId := hreleasing
      exact List.mem_map.mpr ⟨row, hmem, if_neg hother⟩
  | _ => first | exact hreleasing.elim | exact hmem

theorem hosts_of_releasing {writes : List Write} {allocationId : Uuid}
    (h : ∀ write ∈ writes, write.IsReleasing allocationId) (db : Db) :
    (store.applyAll writes db).hosts = db.hosts := by
  refine Store.applyAll_induction store (motive := fun later => later.hosts = db.hosts) rfl
    fun write hwrite contents hsame => ?_
  have hreleasing := h write hwrite
  cases write <;> first | exact hreleasing.elim | exact hsame

theorem Db.OwnsNothing.of_gainsNothing (h : db.OwnsNothing hostId)
    (hgains : GainsNothing hostId db later) : later.OwnsNothing hostId where
  allocations row hrow hhost hactive :=
    h.allocations row (hgains.allocations row hrow hhost hactive) hhost hactive
  reservations row hrow hhost := by
    by_contra hattached
    exact hattached (h.reservations row (hgains.reservations row hrow hhost hattached) hhost)
  credentials row hrow hhost hlive :=
    h.credentials row (hgains.credentials row hrow hhost hlive) hhost hlive

/-- A release that deletes all reservations of its allocation keeps the host intact. -/
theorem intact_of_releasing {allocation : Allocation} {writes : List Write}
    (h : ∀ write ∈ writes, write.IsReleasing allocation.id) (htracks : Tracks allocation db)
    (hdeletes : allocation.hostId = hostId → ∀ row ∈ db.reservations, row.hostId = hostId →
      row.allocationId = some allocation.id → .deleteReservation row.id ∈ writes)
    (hintact : db.Intact hostId) : (store.applyAll writes db).Intact hostId := by
  have hretiring : ∀ write ∈ writes, write.IsRetiring hostId := fun write hwrite =>
    (h write hwrite).isRetiring hostId
  have hgains := gainsNothing_applyAll hretiring hostId db
  refine ⟨fun hdecommissioned => ?_, fun row hrow hhost id hid => ?_⟩
  · rw [hosts_of_releasing h] at hdecommissioned
    exact (hintact.retired hdecommissioned).of_gainsNothing hgains
  · have hold := hgains.reservations row hrow hhost (by simp [hid])
    obtain ⟨active, hactive, rfl, hactiveHost, hstatus⟩ := hintact.attached row hold hhost id hid
    by_cases hsame : active.id = allocation.id
    · have hsameHost : allocation.hostId = hostId :=
        (htracks.host active hactive hsame).symm.trans hactiveHost
      have hdeleted := hdeletes hsameHost row hold hhost (hid.trans (by rw [hsame]))
      exact (deleted_of_mem hretiring hdeleted hrow (by simp [hid]) rfl).elim
    · exact ⟨active, active_of_not_released h hsame hactive, rfl, hactiveHost, hstatus⟩

/-- The listings of a host are not cut off. -/
structure Listed (hostId : Uuid) (db : Db) : Prop where
  reservations : (db.hostReservations hostId).length ≤ 1000
  allocations : (db.activeAllocations hostId).length ≤ 1000

/-- What a release or a decommissioning owes at its commit. -/
def KeepsIntact (hostId : Uuid) (db : Db) (batch : List Write) : Prop :=
  (∀ write ∈ batch, write.IsRetiring hostId) ∧
    (db.Intact hostId → (store.applyAll batch db).Intact hostId)

section Follows

variable {drift : Db → Db → Prop} {sees : Db → Prop} {good : Db → List Write → Prop}
  {s : ServiceSession} {α β : Type}

theorem holding_releaseRows (other allocationId : Uuid) {timestamp : Service ℤ}
    (hobserves : timestamp.Observes) (rows : List CentralReservation) :
    (releaseRows other allocationId timestamp rows).Holding := by
  induction rows with
  | nil => trivial
  | cons row rows ih =>
      rw [releaseRows]
      split
      · exact hobserves.holding.bind fun now => observes_newUuid.holding.bind fun id => ih
      · exact ih

theorem mem_releaseWrites (other : Uuid) {released : Releases} {rows : List CentralReservation}
    {allocationId : Uuid} (hfst : released.map Prod.fst = ownRows allocationId rows)
    {row : CentralReservation} (hrow : row ∈ rows) (hown : row.allocationId = some allocationId) :
    .deleteReservation row.id ∈ releaseWrites other released := by
  have hmem : row ∈ released.map Prod.fst := by
    rw [hfst]
    exact List.mem_filter.mpr ⟨hrow, decide_eq_true hown⟩
  obtain ⟨entry, hentry, rfl⟩ := List.mem_map.mp hmem
  exact List.mem_flatMap.mpr ⟨entry, hentry, List.mem_cons_self⟩

/-- A release of an allocation on file keeps the host intact while the listing of
reservations is complete. -/
theorem follows_releaseLocked {allocation : Allocation} {f : Unit → Service α}
    (hf : ∀ value, (f value).Quiet) (hbatch : s.batch = []) (htracks : Tracks allocation db) :
    ((releaseLocked allocation).bind f).Follows store (AllocationDrift allocation)
      (fun db => (db.hostReservations hostId).length ≤ 1000) (KeepsIntact hostId) s db
      fun _ _ _ => True := by
  have hadds : ((releaseLocked allocation).bind f).Follows store (AllocationDrift allocation)
      (fun db => (db.hostReservations hostId).length ≤ 1000)
      (fun _ batch => ∀ write ∈ batch, write.IsReleasing allocation.id) s db fun _ _ _ => True :=
    ((adds_releaseLocked allocation).bind fun value => (hf value).adds).follows (by simp [hbatch])
  have hdeletes : ((releaseLocked allocation).bind f).Follows store (AllocationDrift allocation)
      (fun db => (db.hostReservations hostId).length ≤ 1000)
      (fun later batch => Tracks allocation later ∧ (allocation.hostId = hostId →
        ∀ row ∈ later.reservations, row.hostId = hostId →
          row.allocationId = some allocation.id → .deleteReservation row.id ∈ batch)) s db
      fun _ _ _ => True := by
    have hflushed : s.flushed = [] := (List.append_eq_nil_iff.mp hbatch).1
    simp only [releaseLocked, Program.bind_eq, Program.bind_assoc]
    refine follows_select fun later hdrift hsees => ?_
    obtain ⟨htracks', -⟩ := hdrift htracks
    rw [Session.view_of_flushed_nil store hflushed]
    refine Program.Follows.bind ((holding_releaseRows _ _ observes_clock _).follows
      (ensures_releaseRows allocation.hostId allocation.id stamps_clock _)
      (AllocationDrift.refl allocation) fun _ _ _ => AllocationDrift.trans) ?_ ?_
    · rintro _ seen _ ⟨hseen, -, released, hfst, draws, rfl⟩
      refine follows_clock (follows_add (follows_commit hf fun last hlast _ => ?_))
      have hdrifted := hseen.trans hlast
      refine ⟨(hdrifted htracks').1, fun hhost row hrow hrowHost hown => ?_⟩
      have hold := (hdrifted htracks').2 row hrow hown
      have hlisted : row ∈ later.listReservations allocation.hostId 1000 := by
        rw [hhost]
        exact (Db.mem_listReservations_of_le hsees).mpr ⟨hold, hrowHost⟩
      have hmem := mem_releaseWrites allocation.hostId hfst hlisted hown
      exact List.mem_append_right _ (List.mem_append_left _ (List.mem_append_right _ hmem))
    · exact fun _ _ _ _ => trivial
  refine ((hadds.and hdeletes).good_mono fun later batch hgood => ⟨fun write hwrite =>
    (hgood.1 write hwrite).isRetiring hostId, fun hintact => ?_⟩).mono fun _ _ _ _ => trivial
  exact intact_of_releasing hgood.1 hgood.2.1 hgood.2.2 hintact

/-- A release, from the moment it has found its allocation. -/
theorem follows_releaseFound (env : Environment) {allocation : Allocation}
    (hbatch : s.batch = []) (htracks : Tracks allocation db) :
    ((if allocation.status = .released then
        buildAllocationOut env allocation .notRemoteCapable []
      else do
        acquireHostLock env allocation.hostId
        releaseLocked allocation
        let allocation ← refreshAllocation allocation.id
        buildAllocationOut env allocation .notRemoteCapable [] : Service AllocationOut).bind
      fun _ => .ret ()).Follows store (AllocationDrift allocation)
      (fun db => (db.hostReservations hostId).length ≤ 1000) (KeepsIntact hostId) s db
      fun _ _ _ => True := by
  split
  · have hobserves := observes_buildAllocationOut env allocation .notRemoteCapable []
    exact (hobserves.bind (f := fun _ => .ret ()) fun _ => trivial).quiet.follows
  · simp only [Program.bind_eq, Program.bind_assoc]
    refine follows_releaseLocked (fun value => ?_) (s := s.afterLock _) hbatch htracks
    refine Program.Observes.quiet ((observes_refreshAllocation allocation.id).bind fun row => ?_)
    exact Program.Observes.bind (f := fun _ => .ret ()) (observes_buildAllocationOut env row _ _)
      fun _ => trivial

end Follows

/-! ## A decommissioning, on contents that drift -/

/-- The batch ends all that the host owns. -/
structure Ends (hostId : Uuid) (batch : List Write) (db : Db) : Prop where
  allocations : ∀ row ∈ db.allocations, row.hostId = hostId → row.status = .active →
    ∃ releasedAt, .releaseAllocation row.id releasedAt ∈ batch
  reservations : ∀ row ∈ db.reservations, row.hostId = hostId →
    ∀ allocation ∈ db.allocations, allocation.hostId = hostId → allocation.status = .active →
      row.allocationId = some allocation.id → .deleteReservation row.id ∈ batch

/-- The batch revokes every live credential of the host. -/
def Revokes (hostId : Uuid) (batch : List Write) (db : Db) : Prop :=
  ∀ row ∈ db.credentials, row.hostId = hostId → row.revokedAt = none →
    ∃ revokedAt, .revokeCredential row.id revokedAt ∈ batch

theorem Ends.drifted {batch writes : List Write} (h : Ends hostId batch db)
    (hgains : GainsNothing hostId db later) : Ends hostId (batch ++ writes) later where
  allocations row hrow hhost hactive := by
    obtain ⟨releasedAt, hmem⟩ :=
      h.allocations row (hgains.allocations row hrow hhost hactive) hhost hactive
    exact ⟨releasedAt, List.mem_append_left _ hmem⟩
  reservations row hrow hhost allocation hallocation hallocationHost hactive hid := by
    have hold := hgains.reservations row hrow hhost (by simp [hid])
    have hknown := hgains.allocations allocation hallocation hallocationHost hactive
    exact List.mem_append_left _ (h.reservations row hold hhost allocation hknown hallocationHost
      hactive hid)

theorem Revokes.drifted {batch writes : List Write} (h : Revokes hostId batch db)
    (hgains : GainsNothing hostId db later) : Revokes hostId (batch ++ writes) later := by
  intro row hrow hhost hlive
  obtain ⟨revokedAt, hmem⟩ := h row (hgains.credentials row hrow hhost hlive) hhost hlive
  exact ⟨revokedAt, List.mem_append_left _ hmem⟩

/-- A batch that ends all that the host owns keeps it intact. -/
theorem intact_of_ends {batch : List Write} (h : ∀ write ∈ batch, write.IsRetiring hostId)
    (hends : Ends hostId batch db) (hrevokes : Revokes hostId batch db)
    (hattached : db.Attached hostId) : (store.applyAll batch db).Intact hostId := by
  have hgains := gainsNothing_applyAll h hostId db
  have howns : (store.applyAll batch db).OwnsNothing hostId := by
    refine ⟨fun row hrow hhost hactive => ?_, fun row hrow hhost => ?_, fun row hrow hhost hlive =>
        ?_⟩
    · obtain ⟨releasedAt, hmem⟩ :=
        hends.allocations row (hgains.allocations row hrow hhost hactive) hhost hactive
      exact released_of_mem h hmem hrow rfl hactive
    · by_contra hnone
      obtain ⟨id, hid⟩ := Option.ne_none_iff_exists'.mp hnone
      have hold := hgains.reservations row hrow hhost hnone
      obtain ⟨allocation, hallocation, rfl, hallocationHost, hactive⟩ :=
        hattached row hold hhost id hid
      have hmem := hends.reservations row hold hhost allocation hallocation hallocationHost
          hactive hid
      exact deleted_of_mem h hmem hrow hnone rfl
    · obtain ⟨revokedAt, hmem⟩ :=
        hrevokes row (hgains.credentials row hrow hhost hlive) hhost hlive
      exact revoked_of_mem h hmem hrow rfl hlive
  refine ⟨fun _ => howns, fun row hrow hhost id hid => ?_⟩
  rw [howns.reservations row hrow hhost] at hid
  cases hid

/-- The write marks the host or a credential. -/
def Write.IsMarking : Write → Prop
  | .decommissionHost _ _ _ => True
  | .revokeCredential _ _ => True
  | _ => False

/-- Marks that a session has flushed do not show in what it reads of the other tables. -/
theorem view_of_marking {s : ServiceSession} (h : ∀ write ∈ s.flushed, write.IsMarking) (db : Db) :
    (s.view store db).allocations = db.allocations ∧
      (s.view store db).reservations = db.reservations := by
  refine Store.applyAll_induction store (motive := fun seen =>
    seen.allocations = db.allocations ∧ seen.reservations = db.reservations) ⟨rfl, rfl⟩
    fun write hwrite contents hsame => ?_
  have hmarking := h write hwrite
  cases write <;> first | exact hmarking.elim | exact hsame

/-- A session that has marked the host and revokes its credential. -/
structure Marked (hostId : Uuid) (s : ServiceSession) (db : Db) : Prop where
  flushed : ∀ write ∈ s.flushed, write.IsMarking
  revokes : Revokes hostId s.batch db

section Decommissioning

variable {sees : Db → Prop} {good : Db → List Write → Prop} {s : ServiceSession}

theorem follows_revokeActiveCredential (revokedAt : ℤ) (hflushed : s.flushed = [])
    (hmarking : ∀ write ∈ s.pending, write.IsMarking) :
    (revokeActiveCredential hostId revokedAt).Follows store (GainsNothing hostId) sees good s db
      fun s' db' result => result = .ok () → Marked hostId s' db' := by
  refine follows_select fun later _ _ => ?_
  rw [Session.view_of_flushed_nil store hflushed]
  have hlive : ∀ row ∈ later.credentials, row.hostId = hostId → row.revokedAt = none →
      row ∈ later.activeCredentials hostId := fun row hrow hhost hnone =>
    List.mem_filter.mpr ⟨hrow, decide_eq_true ⟨hhost, hnone⟩⟩
  generalize later.activeCredentials hostId = rows at hlive
  rcases rows with _ | ⟨credential, _ | ⟨other, others⟩⟩
  ·   refine fun _ => ⟨by simp [hflushed], fun row hrow hhost hnone => ?_⟩
      cases hlive row hrow hhost hnone
  ·   intro last hdrift _
      cases herror : (s.afterAdd (.revokeCredential credential.id revokedAt)).flushError store
          last with
      | some error => exact fun h => by cases h
      | none =>
          refine fun _ => ⟨fun write hwrite => ?_, fun row hrow hhost hnone => ?_⟩
          · rw [Session.afterFlush_flushed, Session.afterAdd_batch, Session.batch, hflushed,
              List.nil_append, List.mem_append, List.mem_singleton] at hwrite
            rcases hwrite with hpending | rfl
            · exact hmarking write hpending
            · trivial
          · have hmem := hlive row (hdrift.credentials row hrow hhost hnone) hhost hnone
            obtain rfl := List.mem_singleton.mp hmem
            refine ⟨revokedAt, ?_⟩
            rw [Session.afterFlush_batch, Session.afterAdd_batch]
            exact List.mem_append_right _ List.mem_cons_self
  · exact fun h => by cases h

/-- The loop over the active allocations releases each of them, with its listed rows. -/
theorem ensures_releaseAllocations {rely : ServiceSession → Db → Prop}
    {guar : ServiceSession → Prop} (now : ℤ) (rows : List CentralReservation)
    (allocations : List Allocation) :
    (releaseAllocations hostId now rows allocations).Ensures store rely guar s fun s' _ =>
      ∃ writes draws, s' = { s with pending := s.pending ++ writes, draws := draws } ∧
        ∀ allocation ∈ allocations, .releaseAllocation allocation.id now ∈ writes ∧
          ∀ row ∈ rows, row.allocationId = some allocation.id →
            .deleteReservation row.id ∈ writes := by
  induction allocations generalizing s with
  | nil => exact ⟨[], s.draws, by simp, by simp⟩
  | cons allocation allocations ih =>
      simp only [releaseAllocations, Program.bind_eq, Program.ensures_bind]
      refine (ensures_releaseRows hostId allocation.id (stamps_ret now) rows).mono ?_
      rintro _ _ ⟨rfl, released, hfst, draws, rfl⟩
      simp only [ensures_add]
      refine Program.Ensures.mono ih ?_
      rintro _ _ ⟨writes, draws', rfl, hall⟩
      refine ⟨releaseWrites hostId released ++ [.releaseAllocation allocation.id now] ++ writes,
        draws', by simp [Session.afterAdd], fun other hother => ?_⟩
      rcases List.mem_cons.mp hother with rfl | hother
      · refine ⟨by simp, fun row hrow hown => ?_⟩
        have hmem := mem_releaseWrites hostId hfst hrow hown
        exact List.mem_append_left _ (List.mem_append_left _ hmem)
      · obtain ⟨hreleased, hdeleted⟩ := hall other hother
        exact ⟨List.mem_append_right _ hreleased, fun row hrow hown =>
          List.mem_append_right _ (hdeleted row hrow hown)⟩

/-- The listings of a session that has only marked its host, read one after the other, and
the loop over them: all that the host owns is ended. -/
theorem follows_releaseActiveAllocations (now : ℤ) (hmarked : Marked hostId s db) :
    (releaseActiveAllocations hostId now).Follows store (GainsNothing hostId) (Listed hostId) good
      s db fun s' db' _ => Revokes hostId s'.batch db' ∧ Ends hostId s'.batch db' := by
  simp only [releaseActiveAllocations, Program.bind_eq]
  refine follows_select fun first hfirst hlistedFirst => ?_
  refine follows_select fun second hsecond hlistedSecond => ?_
  have hactive : ∀ row ∈ first.allocations, row.hostId = hostId → row.status = .active →
      row ∈ (s.view store first).listActiveAllocations hostId 1000 := by
    intro row hrow hhost hstatus
    have hcount : ((s.view store first).activeAllocations hostId).length ≤ 1000 := by
      rw [Db.activeAllocations, (view_of_marking hmarked.flushed first).1]
      exact hlistedFirst.allocations
    rw [Db.mem_listActiveAllocations_of_le hcount, (view_of_marking hmarked.flushed first).1]
    exact ⟨hrow, hhost, hstatus⟩
  have hrows : ∀ row ∈ second.reservations, row.hostId = hostId →
      row ∈ (s.view store second).listReservations hostId 1000 := by
    intro row hrow hhost
    have hcount : ((s.view store second).hostReservations hostId).length ≤ 1000 := by
      rw [Db.hostReservations, (view_of_marking hmarked.flushed second).2]
      exact hlistedSecond.reservations
    rw [Db.mem_listReservations_of_le hcount, (view_of_marking hmarked.flushed second).2]
    exact ⟨hrow, hhost⟩
  refine ((staging_releaseAllocations hostId now _ _).holding.follows
    (ensures_releaseAllocations now _ _) GainsNothing.refl fun _ _ _ => GainsNothing.trans).mono ?_
  rintro _ last _ ⟨hlast, writes, draws, rfl, hall⟩
  have hgrown : Session.batch { s with pending := s.pending ++ writes, draws := draws } =
      s.batch ++ writes := by
    rw [Session.batch, Session.batch, List.append_assoc]
  refine ⟨?_, fun row hrow hhost hstatus => ?_,
    fun row hrow hhost allocation hallocation hallocationHost hstatus hid => ?_⟩
  · rw [hgrown]
    exact hmarked.revokes.drifted ((hfirst.trans hsecond).trans hlast)
  · have hold := (hsecond.trans hlast).allocations row hrow hhost hstatus
    rw [hgrown]
    exact ⟨now, List.mem_append_right _ (hall row (hactive row hold hhost hstatus)).1⟩
  · have hold := hlast.reservations row hrow hhost (by simp [hid])
    have hknown := (hsecond.trans hlast).allocations allocation hallocation hallocationHost hstatus
    rw [hgrown]
    exact List.mem_append_right _ ((hall allocation (hactive allocation hknown hallocationHost
      hstatus)).2 row (hrows row hold hhost) hid)

/-- Retiring a host, up to its commit. -/
theorem follows_retireHost (host : Host) (reason : Option String) (now : ℤ) (hbatch : s.batch =
    []) :
    (retireHost hostId host reason now).Follows store (GainsNothing hostId) (Listed hostId) good
      s db fun s' db' result => result = .ok () →
        Revokes hostId s'.batch db' ∧ Ends hostId s'.batch db' := by
  obtain ⟨hflushed, hpending⟩ := List.append_eq_nil_iff.mp hbatch
  simp only [retireHost, Program.bind_eq]
  refine follows_add (Program.Follows.bind (follows_revokeActiveCredential now hflushed ?_) ?_ ?_)
  · intro write hwrite
    rw [Session.afterAdd_pending, hpending, List.nil_append, List.mem_singleton] at hwrite
    rw [hwrite]
    trivial
  · rintro s₁ db₁ ⟨⟩ hmarked
    refine Program.Follows.bind (follows_releaseActiveAllocations now (hmarked rfl)) ?_ ?_
    · rintro s₂ db₂ ⟨⟩ ⟨hrevokes, hends⟩
      have hfail : (failActiveForHost hostId "host_decommissioned" now).Holding :=
        observes_select.holding.bind fun ids => (staging_failUpgrades hostId _ now ids).holding
      have htail : ((failActiveForHost hostId "host_decommissioned" now).bind fun _ =>
          newUuid.bind fun id =>
            (add (.insertActivity (hostDecommissionedEvent hostId host reason id now))).bind
                fun _ =>
              flush).Holding :=
        hfail.bind fun _ => observes_newUuid.holding.bind fun id => holding_flush
      refine (htail.follows (Program.Holding.ensures_batch htail) GainsNothing.refl
        fun _ _ _ => GainsNothing.trans).mono ?_
      rintro s₃ db₃ result ⟨hgains, hgrown⟩ hok
      obtain ⟨writes, hbatch₃⟩ := hgrown () hok
      rw [hbatch₃]
      exact ⟨hrevokes.drifted hgains, hends.drifted hgains⟩
    · exact fun _ _ _ _ => nofun
  · exact fun _ _ _ _ => nofun

/-- The endpoint of a decommissioning, from the moment it has looked at the host. -/
theorem follows_decommissionFound (reason : Option String) (found : Option Host)
    (hbatch : s.batch = []) :
    (((match found with
        | none => raise (.lifecycle "Host not found." 404)
        | some host => do
            let now ← clock
            if host.lifecycleState = .decommissioned then pure ()
            else retireHost hostId host (cleanedReason reason) now : Service Unit).bind fun _ =>
          commit.bind fun _ => refreshHost hostId).bind fun _ => .ret ()).Follows store
      (GainsNothing hostId) (Listed hostId) (KeepsIntact hostId) s db fun _ _ _ => True := by
  have hquiet : ∀ value : Unit, ((refreshHost hostId).bind fun _ => .ret () : Service Unit).Quiet :=
    fun _ => ((observes_refreshHost hostId).bind (f := fun _ => .ret ()) fun _ => trivial).quiet
  cases found with
  | none => trivial
  | some host =>
      simp only [Program.bind_eq, Program.bind_assoc]
      refine follows_clock ?_
      split
      · refine follows_commit hquiet fun later _ _ => ?_
        have hnone : s.afterDraw.batch = [] := hbatch
        rw [hnone]
        exact ⟨by simp, fun hintact => hintact⟩
      · generalize (s.draws 0).now = now
        have hadds : ((retireHost hostId host (cleanedReason reason) now).bind fun _ =>
            commit.bind fun _ => (refreshHost hostId).bind fun _ => .ret ()).Follows store
              (GainsNothing hostId) (Listed hostId)
              (fun _ batch => ∀ write ∈ batch, write.IsRetiring hostId) s.afterDraw db
              fun _ _ _ => True := by
          refine Program.Adds.follows ?_ (by simp [hbatch])
          refine (staging_retireHost hostId host _ now).adds.bind fun _ => ?_
          exact adds_commit.bind fun _ => (hquiet ()).adds
        have hends : ((retireHost hostId host (cleanedReason reason) now).bind fun _ =>
            commit.bind fun _ => (refreshHost hostId).bind fun _ => .ret ()).Follows store
              (GainsNothing hostId) (Listed hostId)
              (fun later batch => Revokes hostId batch later ∧ Ends hostId batch later) s.afterDraw
              db fun _ _ _ => True := by
          refine Program.Follows.bind (follows_retireHost host _ now hbatch) ?_ ?_
          · rintro s' db' ⟨⟩ hended
            obtain ⟨hrevokes, hends⟩ := hended rfl
            refine follows_commit hquiet fun later hgains _ => ⟨?_, ?_⟩
            · rw [← List.append_nil s'.batch]
              exact hrevokes.drifted hgains
            · rw [← List.append_nil s'.batch]
              exact hends.drifted hgains
          · exact fun _ _ _ _ => trivial
        refine ((hadds.and hends).good_mono fun later batch hgood =>
          ⟨hgood.1, fun hintact => ?_⟩).mono fun _ _ _ _ => trivial
        exact intact_of_ends hgood.1 hgood.2.2 hgood.2.1 hintact.attached

end Decommissioning

end Central
