/-
# A decommissioned host owns nothing

Allocations, releases, enrollments and decommissionings of one host in any interleaving.
Whether the host is in service is looked at by an allocation and an enrollment, and
changed by a decommissioning, without a common lock, and the listings of a release and a
decommissioning are cut off at a thousand rows. In a run in which no commit takes the
host out of service under a call that has looked at it, no commit gives the host anything
under a decommissioning that has looked at it, and no listing is cut off, a decommissioned
host owns nothing.
-/

import PortForge.Central.HostOwnership
import PortForge.Central.SingleCall
import PortForge.Transaction.UniqueKey
import PortForge.Transaction.Windows

namespace Central

open Transaction

variable {hostId : Uuid} {db later : Db}

/-! ## Calls -/

/-- A call on one host. -/
inductive HostCall (hostId : Uuid)
  | allocate (payload : AllocationIn) (onHost : payload.hostId = hostId)
  | release (allocationId : Uuid)
  | enroll (enrollment : EnrollmentIn) (onHost : enrollment.hostId = hostId)
  | decommission (reason : Option String)

namespace HostCall

/-- What a call runs; its answer plays no part here. -/
def program (env : Environment) : HostCall hostId → Service Unit
  | allocate payload _ => (createAllocation env payload).bind fun _ => .ret ()
  | release allocationId => (releaseAllocation env allocationId).bind fun _ => .ret ()
  | enroll enrollment _ => (enrollHost env enrollment).bind fun _ => .ret ()
  | decommission reason => (decommissionHostEndpoint hostId reason).bind fun _ => .ret ()

/-- The call has looked at the host and relies on it to be in service: an allocation once it
holds the host lock, an enrollment from its third operation on. -/
def ServesIn (env : Environment) (call : HostCall hostId) (steps : ℕ) (s : ServiceSession) : Prop :=
  match call with
  | allocate _ _ => hostKey env hostId ∈ s.held
  | enroll _ _ => 3 ≤ steps
  | _ => False

/-- The call is a decommissioning that has looked at the host. -/
def RetiresIn (call : HostCall hostId) (steps : ℕ) : Prop :=
  match call with
  | decommission _ => 0 < steps
  | _ => False

/-- The listings the call may read are not cut off. -/
def Lists (call : HostCall hostId) (db : Db) : Prop :=
  match call with
  | release _ => (db.hostReservations hostId).length ≤ 1000
  | decommission _ => Listed hostId db
  | _ => True

end HostCall

/-! ## Writes that serve -/

/-- The write is one of an allocation or an enrollment. -/
def Write.IsServing : Write → Prop
  | .insertHost row => row.lifecycleState ≠ .decommissioned
  | .reportHost _ _ _ => True
  | .insertProbe _ => True
  | .insertAllocation _ => True
  | .insertReservation _ => True
  | .insertActivity _ => True
  | .insertCredential _ => True
  | .revokeCredential _ _ => True
  | .consumeToken _ _ _ => True
  | _ => False

/-- The batch serves the host: every reservation in it that belongs to an allocation belongs
to an active one of the host that is in it, too. -/
structure Grants (hostId : Uuid) (batch : List Write) : Prop where
  serving : ∀ write ∈ batch, write.IsServing
  attached : ∀ row, .insertReservation row ∈ batch → ∀ id, row.allocationId = some id →
    ∃ allocation, .insertAllocation allocation ∈ batch ∧ allocation.id = id ∧
      allocation.hostId = hostId ∧ allocation.status = .active

theorem Write.IsServing.not_purges {write : Write} (h : write.IsServing) : ¬ write.Purges := by
  cases write <;> first | exact h.elim | exact id

theorem inService_apply_serving {write : Write} (h : write.IsServing) (db : Db) :
    (write.apply db).InService hostId ↔ db.InService hostId := by
  cases write with
  | insertHost row =>
      refine ⟨fun hlater host hhost => hlater host (List.mem_append_left _ hhost),
        fun hdb host hhost hid => ?_⟩
      rcases List.mem_append.mp hhost with hold | hnew
      · exact hdb host hold hid
      · rw [List.mem_singleton.mp hnew]
        exact h
  | reportHost id report now =>
      constructor
      · intro hlater host hhost hid
        have hmapped := hlater _ (List.mem_map_of_mem hhost)
        split at hmapped
        · exact hmapped hid
        · exact hmapped hid
      · intro hdb host hhost hid
        obtain ⟨old, hold, rfl⟩ := List.mem_map.mp hhost
        split at hid
        · next hsame =>
            rw [if_pos hsame]
            exact hdb old hold hid
        · next hne =>
            rw [if_neg hne]
            exact hdb old hold hid
  | _ => first | exact h.elim | rfl

theorem inService_applyAll_serving {writes : List Write} (h : ∀ write ∈ writes, write.IsServing)
    (db : Db) : (store.applyAll writes db).InService hostId ↔ db.InService hostId :=
  Store.applyAll_induction store
    (motive := fun later => later.InService hostId ↔ db.InService hostId) Iff.rfl
    fun write hwrite contents hsame =>
        (inService_apply_serving (h write hwrite) contents).trans hsame

/-- Retiring takes hosts out of service only. -/
theorem inService_of_retiring {writes : List Write} {other : Uuid}
    (h : ∀ write ∈ writes, write.IsRetiring other) {db : Db}
    (hlater : (store.applyAll writes db).InService hostId) : db.InService hostId := by
  revert hlater
  refine Store.applyAll_induction store
    (motive := fun later => later.InService hostId → db.InService hostId) id
    fun write hwrite contents hbefore hlater => hbefore ?_
  have hretiring := h write hwrite
  cases write with
  | decommissionHost id now reason =>
      intro host hhost hid
      have hmapped := hlater _ (List.mem_map_of_mem hhost)
      split at hmapped
      · exact (hmapped hid rfl).elim
      · exact hmapped hid
  | _ => first | exact hretiring.elim | exact hlater

theorem mem_allocations_serving {writes : List Write} (h : ∀ write ∈ writes, write.IsServing)
    (db : Db) (row : Allocation) :
    row ∈ (store.applyAll writes db).allocations ↔
      row ∈ db.allocations ∨ .insertAllocation row ∈ writes := by
  induction writes generalizing db with
  | nil => simp
  | cons write writes ih =>
      obtain ⟨hwrite, hwrites⟩ := List.forall_mem_cons.mp h
      rw [Store.applyAll_cons, ih hwrites]
      cases write with
      | insertAllocation new =>
          simp only [store_apply, Write.apply, List.mem_append, List.mem_cons, List.not_mem_nil,
            or_false, Write.insertAllocation.injEq, or_assoc]
      | _ => first | exact hwrite.elim | simp [Write.apply]

theorem mem_reservations_serving {writes : List Write} (h : ∀ write ∈ writes, write.IsServing)
    (db : Db) (row : CentralReservation) :
    row ∈ (store.applyAll writes db).reservations ↔
      row ∈ db.reservations ∨ .insertReservation row ∈ writes := by
  induction writes generalizing db with
  | nil => simp
  | cons write writes ih =>
      obtain ⟨hwrite, hwrites⟩ := List.forall_mem_cons.mp h
      rw [Store.applyAll_cons, ih hwrites]
      cases write with
      | insertReservation new =>
          simp only [store_apply, Write.apply, List.mem_append, List.mem_cons, List.not_mem_nil,
            or_false, Write.insertReservation.injEq, or_assoc]
      | _ => first | exact hwrite.elim | simp [Write.apply]

/-- Serving a host that is in service keeps it intact. -/
theorem intact_of_grants {batch : List Write} (h : Grants hostId batch)
    (hservice : db.InService hostId) (hintact : db.Intact hostId) :
    (store.applyAll batch db).Intact hostId := by
  refine ⟨?_, fun row hrow hhost id hid => ?_⟩
  · rintro ⟨host, hhost, hid, hstate⟩
    have hlater := (inService_applyAll_serving h.serving db).mpr hservice
    exact (hlater host hhost hid hstate).elim
  · rcases (mem_reservations_serving h.serving db row).mp hrow with hold | hnew
    · obtain ⟨allocation, hallocation, hfound⟩ := hintact.attached row hold hhost id hid
      exact ⟨allocation, (mem_allocations_serving h.serving db _).mpr (.inl hallocation), hfound⟩
    · obtain ⟨allocation, hallocation, hfound⟩ := h.attached row hnew id hid
      exact ⟨allocation, (mem_allocations_serving h.serving db _).mpr (.inr hallocation), hfound⟩

/-- The ids of the allocations are a unique key. -/
def allocationIds : UniqueKey store Uuid where
  keys db := db.allocations.map Allocation.id
  inserted
    | .insertAllocation row => some row.id
    | _ => none
  admits write := ¬ write.Purges
  keys_apply write db hkeeps := by
    cases write with
    | insertAllocation row => simp [Write.apply]
    | purgeHost table id => exact (hkeeps trivial).elim
    | releaseAllocation id releasedAt =>
        simp only [store_apply, Write.apply, List.map_map, Option.toList_none, List.append_nil]
        refine List.map_congr_left fun row _ => ?_
        simp only [Function.comp_apply]
        split <;> rfl
    | _ => simp [Write.apply]
  refused write db id hinserted hmem := by
    cases write with
    | insertAllocation row =>
        cases hinserted
        intro haccepted
        obtain ⟨old, hold, hsame⟩ := List.mem_map.mp hmem
        exact (insertAllocation_accepted.mp haccepted).2.1 old hold hsame
    | _ => cases hinserted
  waits write other id hwrite hother := by
    cases write with
    | insertAllocation row =>
        cases other with
        | insertAllocation row' =>
            cases hwrite
            have hsame : row'.id = row.id := Option.some.inj hother
            simp [store, Write.waitsFor, hsame]
        | _ => cases hother
    | _ => cases hwrite

/-- The ids of the hosts are a unique key. -/
def hostIds : UniqueKey store Uuid where
  keys db := db.hosts.map Host.id
  inserted
    | .insertHost row => some row.id
    | _ => none
  admits write := ¬ write.Purges
  keys_apply write db hkeeps := by
    have hkept : ∀ change : Host → Host, (∀ host, (change host).id = host.id) →
        (db.hosts.map change).map Host.id = db.hosts.map Host.id := by
      intro change hid
      rw [List.map_map]
      exact List.map_congr_left fun host _ => hid host
    cases write with
    | insertHost row => simp [Write.apply]
    | reportHost id report now =>
        simp only [store_apply, Write.apply, Option.toList_none, List.append_nil]
        refine hkept _ fun host => ?_
        split <;> rfl
    | scanHost id observedAt =>
        simp only [store_apply, Write.apply, Option.toList_none, List.append_nil]
        refine hkept _ fun host => ?_
        split <;> rfl
    | decommissionHost id now reason =>
        simp only [store_apply, Write.apply, Option.toList_none, List.append_nil]
        refine hkept _ fun host => ?_
        split <;> rfl
    | setHostError id lastError =>
        simp only [store_apply, Write.apply, Option.toList_none, List.append_nil]
        refine hkept _ fun host => ?_
        split <;> rfl
    | reactivateHost id =>
        simp only [store_apply, Write.apply, Option.toList_none, List.append_nil]
        refine hkept _ fun host => ?_
        split <;> rfl
    | purgeHost table id | deleteHost id => exact (hkeeps trivial).elim
    | _ => simp [Write.apply]
  refused write db id hinserted hmem := by
    cases write with
    | insertHost row =>
        cases hinserted
        obtain ⟨old, hold, hsame⟩ := List.mem_map.mp hmem
        have hknown : db.hasHost row.id = true := hasHost_iff.mpr ⟨old, hold, hsame⟩
        simp [store, Write.refused, hknown]
    | _ => cases hinserted
  waits write other id hwrite hother := by
    cases write with
    | insertHost row =>
        cases other with
        | insertHost row' =>
            cases hwrite
            have hsame : row'.id = row.id := Option.some.inj hother
            simp [store, Write.waitsFor, hsame]
        | _ => cases hother
    | _ => cases hwrite

/-- Serving leaves an allocation on file alone, as long as the ids stay unique. -/
theorem allocationDrift_grants (allocation : Allocation) {batch : List Write}
    (h : Grants hostId batch)
    (hids : ((store.applyAll batch db).allocations.map Allocation.id).Nodup) :
    AllocationDrift allocation db (store.applyAll batch db) := by
  rintro ⟨⟨row, hrow, hid⟩, hhost⟩
  have hkeys : (store.applyAll batch db).allocations.map Allocation.id =
      db.allocations.map Allocation.id ++ allocationIds.insertedAll batch :=
    allocationIds.keys_applyAll (fun write hwrite => (h.serving write hwrite).not_purges) db
  rw [hkeys] at hids
  -- No allocation of the batch has the id of the one on file.
  have hnew : ∀ other, .insertAllocation other ∈ batch → other.id ≠ allocation.id := by
    intro other hother hsame
    have hold : allocation.id ∈ db.allocations.map Allocation.id := List.mem_map.mpr ⟨row,
        hrow, hid⟩
    have hinserted : allocation.id ∈ allocationIds.insertedAll batch :=
      List.mem_filterMap.mpr ⟨_, hother, by rw [← hsame]; rfl⟩
    exact (List.nodup_append.mp hids).2.2 _ hold _ hinserted rfl
  refine ⟨⟨⟨row, (mem_allocations_serving h.serving db row).mpr (.inl hrow), hid⟩,
    fun other hother hother' => ?_⟩, fun reservation hreservation hattached => ?_⟩
  · rcases (mem_allocations_serving h.serving db other).mp hother with hold | hadded
    · exact hhost other hold hother'
    · exact (hnew other hadded hother').elim
  · rcases (mem_reservations_serving h.serving db _).mp hreservation with hold | hadded
    · exact hold
    · obtain ⟨other, hother, hother', -⟩ := h.attached reservation hadded _ hattached
      exact (hnew other hother hother').elim

/-! ## Where a call stands -/

/-- What a serving call relies on: the host is in service as it was when the call looked. -/
def ServesFrom (hostId : Uuid) (start : Db) (_ : ServiceSession) (db : Db) : Prop :=
  (db.hosts.map Host.id).Nodup ∧ (db.InService hostId ↔ start.InService hostId)

/-- What a serving call owes at its commit. -/
def ServesWell (hostId : Uuid) (start : Db) (s : ServiceSession) : Prop :=
  start.InService hostId ∧ Grants hostId s.batch

theorem inService_of_active {host : Host} (hhosts : (db.hosts.map Host.id).Nodup)
    (hget : db.getHost hostId = some host) (hactive : host.lifecycleState ≠ .decommissioned) :
    db.InService hostId := by
  intro other hother hid
  have hhost : host.id = hostId := by simpa using List.find?_some hget
  have hmem : host ∈ db.hosts := List.mem_of_find?_eq_some hget
  obtain rfl := List.inj_on_of_nodup_map hhosts hother hmem (hid.trans hhost.symm)
  exact hactive

/-- A bundle grants. -/
theorem grants_bundle {R : Db → Prop} {good : List (AllocationRequestItem × ℕ) → Prop}
    {env : Environment} {payload : AllocationIn} {allocation : Allocation} {batch : List Write}
    (h : BundleBatch R good env payload allocation batch) : Grants payload.hostId batch := by
  obtain ⟨probes, resolved, grants, rfl, hprobes, -, hgrants⟩ := h.writes
  obtain ⟨id, createdAt, hrow⟩ := h.row
  have hwrites : ∀ write ∈ grantWrites grants, ∃ grant ∈ grants,
      write = .insertReservation grant.1 ∨ write = .insertActivity grant.2 := by
    intro write hwrite
    obtain ⟨grant, hgrant, hmem⟩ := List.mem_flatMap.mp hwrite
    exact ⟨grant, hgrant, by simpa using hmem⟩
  refine ⟨fun write hwrite => ?_, fun row hwrite allocationId hid => ?_⟩
  · rcases List.mem_append.mp hwrite with hprobe | hrest
    · have hkind := hprobes write hprobe
      cases write <;> first | exact hkind.elim | trivial
    · rcases List.mem_cons.mp hrest with rfl | hgrant
      · trivial
      · obtain ⟨grant, -, rfl | rfl⟩ := hwrites write hgrant <;> trivial
  · refine ⟨allocation, List.mem_append_right _ List.mem_cons_self, ?_,
        by simp [hrow, newAllocation],
      by simp [hrow, newAllocation]⟩
    rcases List.mem_append.mp hwrite with hprobe | hrest
    · exact (hprobes _ hprobe).elim
    · rcases List.mem_cons.mp hrest with hsame | hgrant
      · cases hsame
      · obtain ⟨grant, hmem, hsame | hsame⟩ := hwrites _ hgrant
        · obtain ⟨entry, -, ⟨rowId, hgranted⟩, -⟩ := exists_entry_of_mem hgrants hmem
          cases hsame
          rw [hgranted] at hid
          exact Option.some.inj hid
        · cases hsame

/-- What the query that a call decides by is followed by. -/
def Opens (call : HostCall hostId) (db : Db) (p : Service Unit) : Prop :=
  (db.hosts.map Host.id).Nodup → (db.allocations.map Allocation.id).Nodup → p.Quiet ∨
    match call with
    | .allocate _ _ => False
    | .release _ => ∃ allocation, Tracks allocation db ∧ ∀ s : ServiceSession, s.batch = [] →
        p.Follows store (AllocationDrift allocation)
          (fun db => (db.hostReservations hostId).length ≤ 1000) (KeepsIntact hostId) s db
          fun _ _ _ => True
    | .enroll _ _ => p.Locked ∧ ∀ s : ServiceSession, s.batch = [] →
        p.Ensures store (ServesFrom hostId db) (ServesWell hostId db) s fun _ _ => True
    | .decommission _ => ∀ s : ServiceSession, s.batch = [] →
        p.Follows store (GainsNothing hostId) (Listed hostId) (KeepsIntact hostId) s db
          fun _ _ _ => True

/-- The operations in front of the query that a call decides by. -/
def HostCall.looksIn : HostCall hostId → ℕ
  | enroll _ _ => 2
  | _ => 0

/-- The phases of a call that has taken a number of steps, on the contents `db`. -/
inductive HostPhase (env : Environment) (call : HostCall hostId) (steps : ℕ) (db : Db)
    (p : Service Unit) (s : ServiceSession) : Prop
  | quiet (hquiet : p.Quiet)
  | /-- An allocation in front of its lock. -/
    approaching (payload : AllocationIn) (onHost : payload.hostId = hostId)
      (hcall : call = .allocate payload onHost)
      (hprogram : p.Approaches (hostKey env hostId)
        ((allocateLocked env payload).bind fun _ => .ret ()))
      (hbatch : s.batch = [])
  | /-- In front of the query it decides by. -/
    asking (n : ℕ) (hsteps : steps + n = call.looksIn) (hasks : p.AsksIn (Opens call) n)
      (hbatch : s.batch = [])
  | serving (start : Db) (hsame : db.InService hostId ↔ start.InService hostId)
      (hserves : call.ServesIn env steps s) (hlocked : p.Locked)
      (hensures : p.Ensures store (ServesFrom hostId start) (ServesWell hostId start) s
        fun _ _ => True)
  | retiring (hretires : call.RetiresIn steps)
      (hlists : ∀ contents, call.Lists contents → Listed hostId contents)
      (hfollows : p.Follows store (GainsNothing hostId) (Listed hostId) (KeepsIntact hostId) s db
        fun _ _ _ => True)
  | releasing (allocation : Allocation) (htracks : Tracks allocation db)
      (hlists : ∀ contents, call.Lists contents →
        (contents.hostReservations hostId).length ≤ 1000)
      (hfollows : p.Follows store (AllocationDrift allocation)
        (fun db => (db.hostReservations hostId).length ≤ 1000) (KeepsIntact hostId) s db
        fun _ _ _ => True)

/-- An allocation under its lock serves the host it has found in service. -/
theorem ensures_serve (env : Environment) (payload : AllocationIn)
    (onHost : payload.hostId = hostId) {s : ServiceSession} (hbatch : s.batch = []) {start : Db} :
    (allocateLocked env payload).Ensures store (ServesFrom hostId start) (ServesWell hostId start)
      (s.afterLock (hostKey env hostId)) fun _ _ => True := by
  subst onHost
  have hresolving : Resolving (ServesFrom payload.hostId start)
      (fun db => (db.hosts.map Host.id).Nodup ∧
        (db.InService payload.hostId ↔ start.InService payload.hostId))
      (s.afterLock (hostKey env payload.hostId)) := by
    refine ⟨fun write hwrite => ?_, fun _ _ _ _ hrely => hrely⟩
    have hnone : (s.afterLock (hostKey env payload.hostId)).batch = [] := hbatch
    rw [hnone] at hwrite
    cases hwrite
  refine ensures_allocateLocked hresolving
    (fun host => yields_anyPorts env host payload.hostId payload.requests) (fun _ _ _ => trivial)
    (fun s' allocation _ _ hbundle hvouched => ?_) fun s' allocation bindProbe _ _ _ _ => ?_
  · obtain ⟨db, host, ⟨hhosts, hsame⟩, hget, hactive, -⟩ := hvouched
    exact ⟨hsame.mp (inService_of_active hhosts hget (by simp [hactive])), grants_bundle hbundle⟩
  · exact (observes_finishBundle env allocation.id bindProbe payload.requests).quiet.ensures_true

/-- A commit is one that retires or one that serves. -/
def Commits (hostId : Uuid) (batch : List Write) : Prop :=
  (∀ write ∈ batch, write.IsRetiring hostId) ∨ Grants hostId batch

section Phases

variable {env : Environment} {call : HostCall hostId} {steps : ℕ} {p p' : Service Unit}
  {s s' : ServiceSession} {db' : Db} {batch : List Write}

/-- What other calls commit leaves a call in its phase, if it does not take the host out of
service under a call that serves it, and gives it nothing under one that retires it. -/
theorem HostPhase.frame (h : HostPhase env call steps db p s) (hcommits : Commits hostId batch)
    (hids : ((store.applyAll batch db).allocations.map Allocation.id).Nodup)
    (hserving : ¬ p.Quiet → call.ServesIn env steps s → db.InService hostId →
      (store.applyAll batch db).InService hostId)
    (hretiring : ¬ p.Quiet → call.RetiresIn steps →
      GainsNothing hostId db (store.applyAll batch db)) :
    HostPhase env call steps (store.applyAll batch db) p s := by
  by_cases hquiet : p.Quiet
  · exact .quiet hquiet
  · cases h with
    | quiet hquiet => exact .quiet hquiet
    | approaching payload onHost hcall hprogram hbatch =>
        exact .approaching payload onHost hcall hprogram hbatch
    | asking n hsteps hasks hbatch => exact .asking n hsteps hasks hbatch
    | serving start hsame hserves hlocked hensures =>
        refine .serving start (Iff.trans ⟨?_, hserving hquiet hserves⟩ hsame) hserves hlocked
            hensures
        rcases hcommits with hretires | hgrants
        · exact inService_of_retiring hretires
        · exact (inService_applyAll_serving hgrants.serving db).mp
    | retiring hretires hlists hfollows =>
        refine .retiring hretires hlists (hfollows.drifted (fun _ _ _ => GainsNothing.trans)
          (fun _ _ _ => trivial) (hretiring hquiet hretires))
    | releasing allocation htracks hlists hfollows =>
        have hdrift : AllocationDrift allocation db (store.applyAll batch db) := by
          rcases hcommits with hretires | hgrants
          · exact allocationDrift_retiring allocation hretires db
          · exact allocationDrift_grants allocation hgrants hids
        refine .releasing allocation (hdrift htracks).1 hlists (hfollows.drifted
          (fun _ _ _ => AllocationDrift.trans) (fun _ _ _ => trivial) hdrift)

/-- A commit in a phase retires or serves. -/
theorem HostPhase.commits {next : Option DbError → Service Unit}
    (h : HostPhase env call steps db (.commit next) s) (hlists : call.Lists db)
    (haccepted : s.flushError store db = none) :
    Commits hostId s.batch := by
  cases h with
  | quiet hquiet => exact hquiet.elim
  | approaching payload onHost hcall hprogram hbatch => exact hprogram.elim
  | asking n hsteps hasks hbatch => cases n <;> exact hasks.elim
  | serving start hsame hserves hlocked hensures =>
      exact .inr (hensures.of_commit).2
  | retiring hretires hlisted hfollows =>
      exact .inl (hfollows.good_of_commit (.refl db) (hlisted db hlists) haccepted).1
  | releasing allocation htracks hlisted hfollows =>
      exact .inl (hfollows.good_of_commit (.refl allocation db) (hlisted db hlists) haccepted).1

/-- The commit of a call keeps the host intact. -/
theorem HostPhase.intact_of_commit {next : Option DbError → Service Unit}
    (h : HostPhase env call steps db (.commit next) s) (hlists : call.Lists db)
    (haccepted : s.flushError store db = none)
    (hintact : db.Intact hostId) : (store.applyAll s.batch db).Intact hostId := by
  cases h with
  | quiet hquiet => exact hquiet.elim
  | approaching payload onHost hcall hprogram hbatch => exact hprogram.elim
  | asking n hsteps hasks hbatch => cases n <;> exact hasks.elim
  | serving start hsame hserves hlocked hensures =>
      obtain ⟨hservice, hgrants⟩ := hensures.of_commit
      exact intact_of_grants hgrants (hsame.mpr hservice) hintact
  | retiring hretires hlisted hfollows =>
      exact (hfollows.good_of_commit (.refl db) (hlisted db hlists) haccepted).2 hintact
  | releasing allocation htracks hlisted hfollows =>
      exact (hfollows.good_of_commit (.refl allocation db) (hlisted db hlists) haccepted).2 hintact

theorem HostCall.ServesIn.advance (h : call.ServesIn env steps s) (hheld : s'.held = s.held) :
    call.ServesIn env (steps + 1) s' := by
  cases call with
  | allocate payload onHost =>
      show hostKey env hostId ∈ s'.held
      rwa [hheld]
  | enroll enrollment onHost => exact Nat.le_succ_of_le h
  | _ => exact h

theorem HostCall.RetiresIn.advance (h : call.RetiresIn steps) : call.RetiresIn (steps + 1) := by
  cases call with
  | decommission reason => exact Nat.succ_pos steps
  | _ => exact h

/-- The query that a call decides by leaves it in a phase. -/
theorem HostPhase.of_opens (h : Opens call db p) (hhosts : (db.hosts.map Host.id).Nodup)
    (hids : (db.allocations.map Allocation.id).Nodup) (hsteps : steps = call.looksIn)
    (hbatch : s.batch = []) : HostPhase env call (steps + 1) db p s := by
  rcases h hhosts hids with hquiet | hopens
  · exact .quiet hquiet
  · cases call with
    | allocate payload onHost => exact hopens.elim
    | release allocationId =>
        obtain ⟨allocation, htracks, hfollows⟩ := hopens
        exact .releasing allocation htracks (fun _ hlists => hlists) (hfollows s hbatch)
    | enroll enrollment onHost =>
        obtain ⟨hlocked, hensures⟩ := hopens
        have hsteps' : steps = 2 := hsteps
        exact .serving db Iff.rfl (Nat.succ_le_succ hsteps'.ge) hlocked (hensures s hbatch)
    | decommission reason =>
        exact .retiring (Nat.succ_pos steps) (fun _ hlists => hlists) (hopens s hbatch)

/-- One step of a call keeps it in its phases. -/
theorem HostPhase.advance (h : HostPhase env call steps db p s)
    (hhosts : (db.hosts.map Host.id).Nodup) (hids : (db.allocations.map Allocation.id).Nodup)
    (hlists : ¬ p.Quiet → call.Lists db) (hstep : p.advance store s db = some (p', s', db')) :
    HostPhase env call (steps + 1) db' p' s' := by
  by_cases hquiet : p.Quiet
  · exact .quiet (hquiet.advance hstep).1
  · cases h with
    | quiet hquiet' => exact (hquiet hquiet').elim
    | approaching payload onHost hcall hprogram hbatch =>
        rcases hprogram.advance hstep with ⟨hprogram', ⟨draws, rfl⟩, rfl⟩ | ⟨-, rfl, rfl, rfl⟩
        · exact .approaching payload onHost hcall hprogram' hbatch
        · subst hcall
          refine .serving db' Iff.rfl (List.mem_cons_self) ?_ ?_
          · exact (locked_allocateLocked env payload).bind fun _ => trivial
          · exact Program.Ensures.bind (ensures_serve env payload onHost hbatch)
              (fun _ _ _ => trivial) fun _ _ _ => trivial
    | asking n hsteps hasks hbatch =>
        have hflushed := (List.append_eq_nil_iff.mp hbatch).1
        obtain ⟨hnext, ⟨draws, rfl⟩, rfl⟩ := hasks.advance hflushed hstep
        rcases hnext with hquiet' | ⟨rfl, hopens⟩ | ⟨m, rfl, hasks'⟩
        · exact .quiet hquiet'
        · exact .of_opens hopens hhosts hids hsteps hbatch
        · exact .asking m (by omega) hasks' hbatch
    | serving start hsame hserves hlocked hensures =>
        rcases hlocked.advance hstep with ⟨hlocked', hheld, -, rfl⟩ | ⟨hquiet', -⟩
        · exact .serving start hsame (hserves.advance hheld) hlocked'
            (hensures.advance ⟨hhosts, hsame⟩ hstep)
        · exact .quiet hquiet'
    | retiring hretires hlisted hfollows =>
        exact .retiring hretires.advance hlisted
          (hfollows.advance (.refl db) (hlisted db (hlists hquiet)) hstep)
    | releasing allocation htracks hlisted hfollows =>
        have hfollows' := hfollows.advance (.refl allocation db) (hlisted db (hlists hquiet)) hstep
        refine .releasing allocation ?_ hlisted hfollows'
        rcases Program.advance_accepted hstep with rfl | ⟨next, rfl, haccepted, rfl⟩
        · exact htracks
        · have hgood := hfollows.good_of_commit (.refl allocation db) (hlisted db (hlists hquiet))
            haccepted
          exact (allocationDrift_retiring allocation hgood.1 db htracks).1

/-! ### Where the calls start -/

theorem phase_release (allocationId : Uuid) (hbatch : s.batch = []) :
    HostPhase env (.release allocationId : HostCall hostId) 0 db
      ((HostCall.release allocationId : HostCall hostId).program env) s := by
  refine .asking 0 rfl (fun contents hhosts hids => ?_) hbatch
  cases hget : contents.getAllocation allocationId with
  | none =>
      refine .inl ?_
      simp only [hget]
      trivial
  | some allocation =>
      refine .inr ⟨allocation, ⟨⟨allocation, List.mem_of_find?_eq_some hget, rfl⟩, ?_⟩, ?_⟩
      · intro row hrow hid
        rw [List.inj_on_of_nodup_map hids hrow (List.mem_of_find?_eq_some hget) hid]
      · intro t ht
        simp only [hget]
        exact follows_releaseFound env ht ⟨⟨allocation, List.mem_of_find?_eq_some hget, rfl⟩,
            fun row hrow hid => by
          rw [List.inj_on_of_nodup_map hids hrow (List.mem_of_find?_eq_some hget) hid]⟩

theorem phase_decommission (reason : Option String) (hbatch : s.batch = []) :
    HostPhase env (.decommission reason : HostCall hostId) 0 db
      ((HostCall.decommission reason : HostCall hostId).program env) s := by
  refine .asking 0 rfl (fun contents _ _ => .inr fun t ht => ?_) hbatch
  exact follows_decommissionFound reason (contents.getHost hostId) ht

/-- The write is one of an enrollment. -/
def Write.IsEnrolling : Write → Prop
  | .insertHost row => row.lifecycleState ≠ .decommissioned
  | .reportHost _ _ _ => True
  | .insertCredential _ => True
  | .revokeCredential _ _ => True
  | .consumeToken _ _ _ => True
  | _ => False

theorem grants_enrolling {batch : List Write} (h : ∀ write ∈ batch, write.IsEnrolling) :
    Grants hostId batch := by
  refine ⟨fun write hwrite => ?_, fun row hwrite => (h _ hwrite).elim⟩
  have henrolling := h write hwrite
  cases write <;> first | exact henrolling.elim | exact henrolling

theorem staging_upsertHost (hostId : Uuid) (report : HostReport) (now : ℤ) :
    Staging Write.IsEnrolling (upsertHost hostId report now) := by
  refine Staging.bind (.of_observes observes_select) fun host => ?_
  cases host with
  | none => exact ⟨holding_flush, nofun, adds_flush⟩
  | some host => exact ⟨holding_flush, trivial, adds_flush⟩

theorem staging_replaceCredential {P : Write → Prop} (hostId : Uuid) (tokenHash : String)
    (createdAt : ℤ) (hrevoke : ∀ id, P (.revokeCredential id createdAt))
    (hinsert : ∀ row, P (.insertCredential row)) :
    Staging P (replaceCredential hostId tokenHash createdAt) := by
  have hrevokes : Staging P (revokeActiveCredential hostId createdAt) := by
    refine Staging.bind (.of_observes observes_select) fun rows => ?_
    refine Staging.bind (.of_observes (observes_scalarOneOrNone rows)) fun existing => ?_
    cases existing with
    | none => exact .of_observes trivial
    | some credential => exact ⟨holding_flush, hrevoke _, adds_flush⟩
  refine hrevokes.bind fun _ => Staging.bind (.of_observes observes_newUuid) fun id => ?_
  exact ⟨holding_flush, hinsert _, adds_flush⟩

theorem adds_enrollAccepted (env : Environment) (enrollment : EnrollmentIn)
    (token : EnrollmentToken) (now : ℤ) :
    (enrollAccepted env enrollment token now).Adds Write.IsEnrolling := by
  refine (staging_upsertHost enrollment.hostId enrollment.report now).adds.bind fun _ => ?_
  refine Program.Adds.bind (fun _ => trivial) fun agentToken => ?_
  refine (staging_replaceCredential enrollment.hostId _ now (fun _ => trivial)
    fun _ => trivial).adds.bind fun _ => ?_
  exact Program.Adds.bind ⟨trivial, adds_flush⟩ fun _ => adds_commit.bind fun _ => trivial

/-- An accepted enrollment commits once, and serves the host. -/
theorem serves_enrollAccepted (env : Environment) (enrollment : EnrollmentIn)
    (token : EnrollmentToken) (now : ℤ) (hservice : db.InService hostId) :
    ((enrollAccepted env enrollment token now).bind fun _ => .ret () : Service Unit).Locked ∧
      ∀ s : ServiceSession, s.batch = [] →
        ((enrollAccepted env enrollment token now).bind fun _ => .ret ()).Ensures store
          (ServesFrom hostId db) (ServesWell hostId db) s fun _ _ => True := by
  have hupsert := staging_upsertHost enrollment.hostId enrollment.report now
  have hreplace := staging_replaceCredential (P := Write.IsEnrolling) enrollment.hostId
  refine ⟨?_, fun s hbatch => ?_⟩
  · refine Program.Locked.bind ?_ fun _ => trivial
    refine hupsert.holding.bind_locked fun _ => ?_
    refine Program.Holding.bind_locked (fun _ => trivial) fun agentToken => ?_
    refine (hreplace _ now (fun _ => trivial) fun _ => trivial).holding.bind_locked fun _ => ?_
    refine Program.Holding.bind_locked (holding_flush) fun _ => ?_
    rintro (_ | error) <;> trivial
  · have hadds : ((enrollAccepted env enrollment token now).bind fun _ => .ret () :
        Service Unit).Adds Write.IsEnrolling :=
      (adds_enrollAccepted env enrollment token now).bind fun _ => trivial
    refine (hadds.ensures_guar (by simp [hbatch]) fun t ht => ?_).mono fun _ _ _ => trivial
    exact ⟨hservice, grants_enrolling ht⟩

theorem asksIn_clock_bind {decides : Db → Service Unit → Prop} {n : ℕ} {f : ℤ → Service Unit}
    (h : ∀ now, (f now).Quiet ∨ (f now).AsksIn decides n) :
    (clock.bind f).AsksIn decides (n + 1) := fun drawn => h drawn.now

/-- An enrollment registers its host, rotates its credential and uses its token up. -/
theorem adds_enrollHost (env : Environment) (enrollment : EnrollmentIn) :
    (enrollHost env enrollment).Adds Write.IsEnrolling := by
  refine observes_select.adds.bind fun rows => ?_
  refine (observes_scalarOneOrNone rows).adds.bind fun found => ?_
  cases found with
  | none => trivial
  | some token =>
      refine observes_clock.adds.bind fun now => ?_
      refine Program.Adds.bind ?_ fun _ => observes_select.adds.bind fun existing => ?_
      · rcases checkToken_cases token now with hchecked | ⟨error, hrefused⟩
        · rw [hchecked]
          trivial
        · rw [hrefused]
          trivial
      · split
        · trivial
        · exact adds_enrollAccepted env enrollment token now

/-- No call on a host removes what Central knows of it. -/
theorem adds_hostCall (env : Environment) (call : HostCall hostId) :
    (call.program env).Adds fun write => ¬ write.Purges := by
  cases call with
  | allocate payload onHost =>
      refine ((adds_createAllocation env payload).mono fun write hwrite => ?_).bind fun _ => trivial
      cases write <;> first | exact hwrite.elim | exact id
  | release allocationId =>
      refine Program.Adds.bind (observes_select.adds.bind fun row => ?_) fun _ => trivial
      cases row with
      | none => trivial
      | some allocation =>
          have hbuild := fun row => observes_buildAllocationOut env row .notRemoteCapable []
          simp only
          split
          · exact (hbuild allocation).adds
          · refine Program.Adds.bind (p := acquireHostLock env allocation.hostId) trivial fun _ =>
                ?_
            refine ((adds_releaseLocked allocation).mono fun write hwrite => ?_).bind fun _ => ?_
            · cases write <;> first | exact hwrite.elim | exact id
            · exact (observes_refreshAllocation _).adds.bind fun row => (hbuild row).adds
  | enroll enrollment onHost =>
      refine ((adds_enrollHost env enrollment).mono fun write hwrite => ?_).bind fun _ => trivial
      cases write <;> first | exact hwrite.elim | exact id
  | decommission reason =>
      refine Program.Adds.bind ?_ fun _ => trivial
      refine ((staging_decommissionHost hostId reason).adds.mono fun write hwrite => ?_).bind
        fun _ => adds_commit.bind fun _ => (observes_refreshHost hostId).adds
      cases write <;> first | exact hwrite.elim | exact id

/-- With its token in hand an enrollment looks at the host after one more operation. -/
theorem asksIn_enrollWith (env : Environment) (enrollment : EnrollmentIn)
    (onHost : enrollment.hostId = hostId) (token : EnrollmentToken) :
    ((enrollWith env enrollment token).bind fun _ => .ret ()).AsksIn
      (Opens (.enroll enrollment onHost : HostCall hostId)) 1 := by
  subst onHost
  rw [enrollWith, Program.bind_eq, Program.bind_assoc]
  refine asksIn_clock_bind fun now => ?_
  rcases checkToken_cases token now with hchecked | ⟨error, hrefused⟩
  · refine .inr ?_
    rw [hchecked]
    simp only [Program.bind_eq, Program.bind, Program.bind_assoc]
    refine Program.asksIn_zero_query_bind fun contents hhosts _ => ?_
    split
    · exact .inl trivial
    · next hlooked =>
        refine .inr (serves_enrollAccepted env enrollment token now ?_)
        cases hget : contents.getHost enrollment.hostId with
        | none =>
            intro host hhost hid
            have hnone := List.find?_eq_none.mp hget host hhost
            exact (hnone (by simpa using hid)).elim
        | some host =>
            refine inService_of_active hhosts hget fun hstate => hlooked ?_
            rw [hget]
            simpa using hstate
  · rw [hrefused]
    exact .inl trivial

theorem phase_enroll (enrollment : EnrollmentIn) (onHost : enrollment.hostId = hostId)
    (hbatch : s.batch = []) :
    HostPhase env (.enroll enrollment onHost : HostCall hostId) 0 db
      ((HostCall.enroll enrollment onHost : HostCall hostId).program env) s := by
  refine .asking 2 rfl ?_ hbatch
  rw [HostCall.program, enrollHost, Program.bind_eq, Program.bind_assoc]
  refine Program.asksIn_query_bind fun contents => ?_
  match contents.tokensByHash (env.hashToken enrollment.enrollmentToken) with
  | [] => exact .inl trivial
  | _ :: _ :: _ => exact .inl trivial
  | [token] => exact .inr (asksIn_enrollWith env enrollment onHost token)

/-- Every call of the host starts in a phase. -/
theorem host_phase_start (env : Environment) (call : HostCall hostId) (draws : ℕ → Draw) :
    HostPhase env call 0 db (call.program env) (Session.start draws fun _ => none) := by
  cases call with
  | allocate payload onHost =>
      refine .approaching payload onHost rfl ?_ rfl
      have happroaches := approaches_createAllocation env payload
      rw [onHost] at happroaches
      exact happroaches.bind fun _ => trivial
  | release allocationId => exact phase_release allocationId rfl
  | enroll enrollment onHost => exact phase_enroll enrollment onHost rfl
  | decommission reason => exact phase_decommission reason rfl

end Phases

/-! ## Runs -/

section Runs

variable {ι : Type} {env : Environment} {call : ι → HostCall hostId}

/-- The steps of the runs in which a decommissioned host owns nothing. A call that moves
before its end does not find its listings cut off. A commit does not take the host out of
service under a call that serves it, and gives it nothing under one that retires it. -/
def RetiresAlone [DecidableEq ι] (env : Environment) (call : ι → HostCall hostId)
    (σ : System ι Db Write ℤ Draw Failure Unit) (i : ι) : Prop :=
  (¬ (σ.program i).Quiet → (call i).Lists σ.db) ∧
    ∀ next, σ.program i = .commit next → ∀ j, j ≠ i → ¬ (σ.program j).Quiet →
      ((call j).ServesIn env (σ.history.count j) (σ.session j) → σ.db.InService hostId →
        (store.applyAll (σ.session i).batch σ.db).InService hostId) ∧
      ((call j).RetiresIn (σ.history.count j) →
        GainsNothing hostId σ.db (store.applyAll (σ.session i).batch σ.db))

variable [DecidableEq ι] {draws : ι → ℕ → Draw} {σ : System ι Db Write ℤ Draw Failure Unit}

/-- One step of a run keeps every call in its phases and the host intact. -/
theorem retiresAlone_move {i : ι} (hhosts : (σ.db.hosts.map Host.id).Nodup)
    (hids : (σ.db.allocations.map Allocation.id).Nodup)
    (hnext : ((σ.move store i).db.allocations.map Allocation.id).Nodup)
    (hintact : σ.db.Intact hostId)
    (hphases : ∀ j, HostPhase env (call j) (σ.history.count j) σ.db (σ.program j) (σ.session j))
    (hallowed : RetiresAlone env call σ i) :
    (σ.move store i).db.Intact hostId ∧ ∀ j, HostPhase env (call j)
      ((σ.move store i).history.count j) (σ.move store i).db ((σ.move store i).program j)
        ((σ.move store i).session j) := by
  refine @System.standing_move ι Db Write ℤ Draw Failure Unit _ store σ i
    (fun db => db.Intact hostId) (fun j steps db p s => HostPhase env (call j) steps db p s)
    (fun _ _ _ _ _ hquiet => .quiet hquiet) hintact hphases ?_ ?_
  · intro p s db hstep
    refine ⟨(hphases i).advance hhosts hids hallowed.1 hstep, ?_⟩
    rcases Program.advance_accepted hstep with rfl | ⟨next, hcommit, haccepted, rfl⟩
    · exact hintact
    · have hphase := hphases i
      rw [hcommit] at hphase
      refine hphase.intact_of_commit (hallowed.1 ?_) haccepted hintact
      rw [hcommit]
      exact id
  · intro next hcommit haccepted j hj
    have hcommits : Commits hostId (σ.session i).batch := by
      have hphase := hphases i
      rw [hcommit] at hphase
      refine hphase.commits (hallowed.1 ?_) haccepted
      rw [hcommit]
      exact id
    have hmoved : (σ.move store i).db = store.applyAll (σ.session i).batch σ.db := by
      refine (System.move_of_advance (p := next none) (s := (σ.session i).afterCommit) ?_).2.2
      rw [hcommit, Program.advance, haccepted]
    refine (hphases j).frame hcommits (hmoved ▸ hnext) (fun hquiet => ?_) fun hquiet => ?_
    · exact (hallowed.2 next hcommit j hj hquiet).1
    · exact (hallowed.2 next hcommit j hj hquiet).2

/-- In a run of such steps a decommissioned host owns nothing in any reachable state. -/
theorem retired_of_reachable (hhosts : (db.hosts.map Host.id).Nodup)
    (hids : (db.allocations.map Allocation.id).Nodup) (hstart : db.Intact hostId)
    (hreach : System.Reachable store (RetiresAlone env call)
      (System.start db (fun i => (call i).program env) draws) σ) : σ.db.Retired hostId := by
  have hunique : ∀ {τ : System ι Db Write ℤ Draw Failure Unit},
      System.Reachable store (RetiresAlone env call)
        (System.start db (fun i => (call i).program env) draws) τ →
          (τ.db.hosts.map Host.id).Nodup ∧ (τ.db.allocations.map Allocation.id).Nodup := by
    intro τ hτ
    have hwrites : (System.start db (fun i => (call i).program env) draws).Writes
        fun write => ¬ write.Purges := System.start_writes fun i => adds_hostCall env (call i)
    exact ⟨hostIds.nodup_of_reachable hτ hwrites (UniqueKey.kept_start hhosts),
      allocationIds.nodup_of_reachable hτ hwrites (UniqueKey.kept_start hids)⟩
  have hboth : σ.db.Intact hostId ∧ ∀ j, HostPhase env (call j) (σ.history.count j) σ.db
      (σ.program j) (σ.session j) := by
    induction hreach with
    | start => exact ⟨hstart, fun j => host_phase_start env (call j) (draws j)⟩
    | step hreach hfree hallowed ih =>
        exact retiresAlone_move (hunique hreach).1 (hunique hreach).2
          (hunique (hreach.step hfree hallowed)).2 ih.1 ih.2 hallowed
  exact hboth.1.retired

end Runs

/-! ## A host that is decommissioned while a port is granted on it -/

/-- The sample host with one granted port and a credential. -/
def grantedDb : Db :=
  { sampleDb with
    allocations := [newAllocation sampleEnvironment samplePayload ⟨2⟩ 0]
    reservations := [grantedRow samplePayload ⟨2⟩ (sampleItem, 8000) ⟨3⟩]
    credentials :=
      [{ id := ⟨4⟩, hostId := sampleHost.id, tokenHash := "a", createdAt := 0, revokedAt := none }] }

theorem intact_grantedDb : grantedDb.Intact sampleHost.id := by
  refine ⟨fun hretired => ?_, fun row hrow _ id hid => ?_⟩
  · obtain ⟨host, hhost, -, hstate⟩ := hretired
    rw [List.mem_singleton.mp hhost] at hstate
    cases hstate
  · obtain rfl := List.mem_singleton.mp hrow
    exact ⟨_, List.mem_singleton.mpr rfl, Option.some.inj hid, rfl, rfl⟩

instance (db later : Db) : Decidable (GainsNothing hostId db later) :=
  decidable_of_iff
    ((∀ row ∈ later.allocations, row.hostId = hostId → row.status = .active →
        row ∈ db.allocations) ∧
      (∀ row ∈ later.reservations, row.hostId = hostId → row.allocationId ≠ none →
        row ∈ db.reservations) ∧
      ∀ row ∈ later.credentials, row.hostId = hostId → row.revokedAt = none → row ∈ db.credentials)
    ⟨fun h => ⟨h.1, h.2.1, h.2.2⟩, fun h => ⟨h.allocations, h.reservations, h.credentials⟩⟩

instance (db : Db) : Decidable (Listed hostId db) :=
  decidable_of_iff ((db.hostReservations hostId).length ≤ 1000 ∧
      (db.activeAllocations hostId).length ≤ 1000)
    ⟨fun h => ⟨h.1, h.2⟩, fun h => ⟨h.reservations, h.allocations⟩⟩

/-- Three callers on one host. -/
inductive Caller
  | releasing
  | allocating
  | decommissioning
  deriving DecidableEq

instance : Fintype Caller :=
  ⟨{.releasing, .allocating, .decommissioning}, fun caller => by cases caller <;> decide⟩

/-- The release of the granted port, an allocation of another one, and the decommissioning. -/
def threeCalls : Caller → HostCall sampleHost.id
  | .releasing => .release ⟨2⟩
  | .allocating => .allocate samplePayload samplePayload_hostId
  | .decommissioning => .decommission none

/-- The values that the three calls draw. -/
def threeDraws : Caller → ℕ → Draw
  | .releasing => sampleDraws 100
  | .allocating => sampleDraws 200
  | .decommissioning => sampleDraws 300

/-- The three calls on the sample host. -/
def threeOnHost : System Caller Db Write ℤ Draw Failure Unit :=
  System.start grantedDb (fun caller => (threeCalls caller).program sampleEnvironment) threeDraws

/-- No listing is cut off. The allocation is over when the others commit; it commits before the
decommissioning begins, and the release commits at any time. -/
def retiring (σ : System Caller Db Write ℤ Draw Failure Unit) (caller : Caller) : Bool :=
  decide (Listed sampleHost.id σ.db) && (!(σ.program caller).atCommit ||
    match caller with
    | .releasing => decide (σ.program .allocating).Finished &&
        decide (GainsNothing sampleHost.id σ.db
          (store.applyAll (σ.session .releasing).batch σ.db))
    | .allocating => σ.history.count .decommissioning = 0
    | .decommissioning => decide (σ.program .allocating).Finished)

/-- The steps that pass the test are those of the runs in which a retired host owns nothing. -/
theorem retiresAlone_of_retiring {σ : System Caller Db Write ℤ Draw Failure Unit} {caller : Caller}
    (htest : retiring σ caller = true) : RetiresAlone sampleEnvironment threeCalls σ caller := by
  obtain ⟨hlisted, htest⟩ := Bool.and_eq_true_iff.mp htest
  have hlisted := of_decide_eq_true hlisted
  refine ⟨fun _ => ?_, fun next hcommit other hother hquiet => ?_⟩
  · cases caller with
    | releasing => exact hlisted.reservations
    | allocating => exact trivial
    | decommissioning => exact hlisted
  rw [hcommit] at htest
  have hover (h : (σ.program .allocating).Finished) (hsame : other = .allocating) : False := by
    subst hsame
    exact hquiet h.quiet
  cases caller with
  | releasing =>
      obtain ⟨hfinished, hgains⟩ := Bool.and_eq_true_iff.mp htest
      have hdone := hover (of_decide_eq_true hfinished)
      have hgains := of_decide_eq_true hgains
      cases other with
      | releasing => exact (hother rfl).elim
      | allocating => exact (hdone rfl).elim
      | decommissioning => exact ⟨fun hserves => hserves.elim, fun _ => hgains⟩
  | allocating =>
      have hidle : σ.history.count .decommissioning = 0 := of_decide_eq_true htest
      cases other with
      | releasing => exact ⟨fun hserves => hserves.elim, fun hretires => hretires.elim⟩
      | allocating => exact (hother rfl).elim
      | decommissioning =>
          exact ⟨fun hserves => hserves.elim, fun hretires => (hretires.ne' hidle).elim⟩
  | decommissioning =>
      have hdone := hover (of_decide_eq_true htest)
      cases other with
      | releasing => exact ⟨fun hserves => hserves.elim, fun hretires => hretires.elim⟩
      | allocating => exact (hdone rfl).elim
      | decommissioning => exact (hother rfl).elim

/-- The release has looked at its allocation when the other allocation is made. It runs to its end
while the decommissioning, which has looked at the host, waits. -/
theorem retired_of_reachable_sample :
    ∃ σ, System.play store (.releasing :: List.replicate 40 .allocating ++
        List.replicate 3 .decommissioning ++ List.replicate 20 .releasing ++
        List.replicate 20 .decommissioning) threeOnHost = some σ ∧
      σ.db.hosts.map Host.lifecycleState = [.decommissioned] ∧
      σ.db.allocations.map Allocation.status = [.released, .released] ∧
      σ.db.Retired sampleHost.id := by
  obtain ⟨σ, hplay, hhosts, hallocations⟩ : ∃ σ, System.play store
      (.releasing :: List.replicate 40 .allocating ++ List.replicate 3 .decommissioning ++
        List.replicate 20 .releasing ++ List.replicate 20 .decommissioning) threeOnHost =
          some σ ∧
      σ.db.hosts.map Host.lifecycleState = [.decommissioned] ∧
      σ.db.allocations.map Allocation.status = [.released, .released] := ⟨_, rfl, rfl, rfl⟩
  have hreach : System.Reachable store (RetiresAlone sampleEnvironment threeCalls) threeOnHost σ :=
    System.Reachable.of_play_tested .start (fun _ _ _ => retiresAlone_of_retiring)
      (rfl : System.tested store retiring _ _ = true) hplay
  exact ⟨σ, hplay, hhosts, hallocations,
    retired_of_reachable (by decide) (by decide) intact_grantedDb hreach⟩

/-- A request for a port on the sample host, and its decommissioning. -/
def allocationAndDecommission : System Bool Db Write ℤ Draw Failure Unit :=
  System.start sampleDb (fun first =>
    (if first then (HostCall.allocate samplePayload samplePayload_hostId : HostCall sampleHost.id)
      else .decommission none).program sampleEnvironment)
    fun first => sampleDraws (if first then 100 else 200)

/-- The host is decommissioned between the check of an allocation and its commit. -/
theorem grantedAfterRetirement_reachable :
    ∃ σ, System.Reachable store System.anyOrder allocationAndDecommission σ ∧
      σ.db.hosts.map (fun host => (host.id, host.lifecycleState)) =
        [(sampleHost.id, .decommissioned)] ∧
      σ.db.allocations.map (fun row => (row.hostId, row.status)) = [(sampleHost.id, .active)] ∧
      ¬ σ.db.Retired sampleHost.id := by
  obtain ⟨σ, hplay, hhosts, hallocations⟩ : ∃ σ, System.play store
      (List.replicate 27 true ++ List.replicate 14 false ++ [true]) allocationAndDecommission =
        some σ ∧
      σ.db.hosts.map (fun host => (host.id, host.lifecycleState)) =
        [(sampleHost.id, .decommissioned)] ∧
      σ.db.allocations.map (fun row => (row.hostId, row.status)) = [(sampleHost.id, .active)] :=
    ⟨_, rfl, rfl, rfl⟩
  refine ⟨σ, .of_play .start hplay, hhosts, hallocations, fun hretired => ?_⟩
  have hhost : (sampleHost.id, LifecycleState.decommissioned) ∈
      σ.db.hosts.map fun host => (host.id, host.lifecycleState) := by simp [hhosts]
  have hallocation : (sampleHost.id, AllocationStatus.active) ∈
      σ.db.allocations.map fun row => (row.hostId, row.status) := by simp [hallocations]
  obtain ⟨host, hmem, hentry⟩ := List.mem_map.mp hhost
  obtain ⟨row, hrow, hactive⟩ := List.mem_map.mp hallocation
  obtain ⟨hid, hstate⟩ := Prod.mk.inj hentry
  obtain ⟨hrowHost, hstatus⟩ := Prod.mk.inj hactive
  exact (hretired ⟨host, hmem, hid, hstate⟩).allocations row hrow hrowHost hstatus

end Central
