/-
# Double booking

Allocations and reservations of one host in any interleaving. A binding with an
address is kept unique by the table's constraint. A binding without one (`NULL`,
which the constraint takes to differ from itself) is unique only as far as the
calls keep out of each other's way: an allocation decides under the host lock,
a reservation decides by a look-up and takes no lock. No such binding is booked
twice in a run in which none is committed while another call that may take it
stands between its decision and the end of its transaction.
-/

import PortForge.Central.SingleCall
import PortForge.Transaction.UniqueKey

namespace Central

open Transaction

/-! ## Bindings -/

/-- What a reservation books. -/
structure Binding where
  hostId : Uuid
  port : ℕ
  protocol : Protocol
  bindAddress : Option String
  deriving DecidableEq

/-- The binding of a reservation row. -/
def CentralReservation.binding (row : CentralReservation) : Binding :=
  ⟨row.hostId, row.port, row.protocol, row.bindAddress⟩

/-- The bindings on file. -/
def Db.bindings (db : Db) : List Binding := db.reservations.map CentralReservation.binding

/-- No two reservations have the same host, port, protocol and bind address. -/
def Db.NoDoubleBooking (db : Db) : Prop := db.bindings.Nodup

instance (db : Db) : Decidable db.NoDoubleBooking := inferInstanceAs (Decidable (List.Nodup _))

/-- The binding a write books. -/
def Write.booked : Write → Option Binding
  | .insertReservation row => some row.binding
  | _ => none

/-- The bindings that a batch books. -/
def booked (writes : List Write) : List Binding := writes.filterMap Write.booked

/-- The write takes no reservation away. -/
def Write.KeepsBindings : Write → Prop
  | .deleteReservation _ => False
  | .purgeHost _ _ => False
  | _ => True

theorem bindings_apply {write : Write} (hkeeps : write.KeepsBindings) (db : Db) :
    (write.apply db).bindings = db.bindings ++ write.booked.toList := by
  cases write with
  | deleteReservation id | purgeHost table id => exact hkeeps.elim
  | insertReservation row => simp [Db.bindings, Write.apply, Write.booked]
  | updateReservation id project service purpose notes =>
      simp only [Db.bindings, Write.apply, Write.booked, List.map_map, Option.toList_none,
        List.append_nil]
      refine List.map_congr_left fun row _ => ?_
      simp only [Function.comp_apply]
      split <;> rfl
  | _ => simp [Db.bindings, Write.apply, Write.booked]

theorem bindings_applyAll {writes : List Write} (hkeeps : ∀ write ∈ writes, write.KeepsBindings)
    (db : Db) : (store.applyAll writes db).bindings = db.bindings ++ booked writes := by
  induction writes generalizing db with
  | nil => simp [booked]
  | cons write writes ih =>
      obtain ⟨hwrite, hwrites⟩ := List.forall_mem_cons.mp hkeeps
      rw [Store.applyAll_cons, ih hwrites, store_apply, bindings_apply hwrite, List.append_assoc]
      congr 1
      simp only [booked]
      cases hbooked : write.booked <;> simp [hbooked]

/-- The binding is one the table's constraint covers. -/
def Binding.addressed (binding : Binding) : Bool := binding.bindAddress.isSome

theorem sameBinding_iff {row old : CentralReservation} :
    row.sameBinding old = true ↔ row.binding.addressed = true ∧ row.binding = old.binding := by
  simp only [CentralReservation.sameBinding, Binding.addressed, CentralReservation.binding,
    decide_eq_true_eq, Binding.mk.injEq]
  tauto

/-- A covered binding that is on file is refused. -/
theorem insertReservation_refused {db : Db} {row : CentralReservation}
    (haddressed : row.binding.addressed = true) (hmem : row.binding ∈ db.bindings) :
    store.refuses db (.insertReservation row) ≠ none := by
  obtain ⟨old, hold, hsame⟩ := List.mem_map.mp hmem
  have hany : (db.reservations.any row.sameBinding) = true :=
    List.any_eq_true.mpr ⟨old, hold, sameBinding_iff.mpr ⟨haddressed, hsame.symm⟩⟩
  simp only [store, Write.refused, hany, if_true]
  split_ifs <;> simp

/-- The unique constraint of the reservations, on the bindings it covers. -/
def addressedBinding : UniqueKey store Binding where
  keys db := db.bindings.filter Binding.addressed
  inserted write := write.booked.filter Binding.addressed
  admits := Write.KeepsBindings
  keys_apply write db hkeeps := by
    rw [store_apply, bindings_apply hkeeps, List.filter_append]
    congr 1
    cases write.booked with
    | none => rfl
    | some binding => cases haddressed : binding.addressed <;> simp [Option.filter, haddressed]
  refused write db binding hinserted hmem := by
    obtain ⟨hbooked, haddressed⟩ := Option.filter_eq_some_iff.mp hinserted
    cases write with
    | insertReservation row =>
        cases hbooked
        exact insertReservation_refused haddressed (List.mem_of_mem_filter hmem)
    | _ => cases hbooked
  waits write other binding hwrite hother := by
    obtain ⟨hbooked, haddressed⟩ := Option.filter_eq_some_iff.mp hwrite
    obtain ⟨hbooked', -⟩ := Option.filter_eq_some_iff.mp hother
    cases write with
    | insertReservation row =>
        cases other with
        | insertReservation row' =>
            cases hbooked
            have hsame : row.sameBinding row' = true :=
              sameBinding_iff.mpr ⟨haddressed, (Option.some.inj hbooked').symm⟩
            simp [store, Write.waitsFor, hsame]
        | _ => cases hbooked'
    | _ => cases hbooked

/-- The bindings on file that the constraint does not cover. -/
def Db.wildcards (db : Db) : List Binding := db.bindings.filter fun binding => !binding.addressed

theorem noDoubleBooking_iff {db : Db} :
    db.NoDoubleBooking ↔ (addressedBinding.keys db).Nodup ∧ db.wildcards.Nodup := by
  constructor
  · intro h
    exact ⟨h.filter _, h.filter _⟩
  · rintro ⟨haddressed, hwildcards⟩
    have hperm := List.filter_append_perm Binding.addressed db.bindings
    rw [Db.NoDoubleBooking, ← hperm.nodup_iff]
    refine haddressed.append hwildcards fun binding hleft hright => ?_
    have hyes := (List.mem_filter.mp hleft).2
    have hno := (List.mem_filter.mp hright).2
    rw [hyes] at hno
    cases hno

/-- The uncovered bindings that a batch books. -/
def bookedWildcards (writes : List Write) : List Binding :=
  (booked writes).filter fun binding => !binding.addressed

theorem wildcards_applyAll {writes : List Write}
    (hkeeps : ∀ write ∈ writes, write.KeepsBindings) (db : Db) :
    (store.applyAll writes db).wildcards = db.wildcards ++ bookedWildcards writes := by
  rw [Db.wildcards, bindings_applyAll hkeeps, List.filter_append]
  rfl

/-! ## Calls -/

/-- A call on the registry of one host. -/
inductive RegistryCall (hostId : Uuid)
  | allocate (payload : AllocationIn) (onHost : payload.hostId = hostId)
  | reserve (payload : ReservationIn)

namespace RegistryCall

variable {hostId : Uuid}

/-- What a call runs; its answer plays no part here. -/
def program (env : Environment) : RegistryCall hostId → Service Unit
  | allocate payload _ => (createAllocation env payload).bind fun _ => .ret ()
  | reserve payload => (createReservation hostId payload).bind fun _ => .ret ()

/-- A binding without address that the call books in its open transaction, or that
some continuation of it may still book. -/
def MayTake (p : Service Unit) (s : ServiceSession) (binding : Binding) : Prop :=
  binding.bindAddress = none ∧
    (binding ∈ booked s.batch ∨ ¬ p.Adds fun write => write.booked ≠ some binding)

/-- The call stands between its decision and the end of its transaction: an allocation
from the moment it has the host lock, a reservation from its look-up on. -/
def InWindow (env : Environment) (call : RegistryCall hostId) (p : Service Unit)
    (s : ServiceSession) : Prop :=
  ¬ p.Quiet ∧
    match call with
    | allocate _ _ => hostKey env hostId ∈ s.held
    | reserve _ => ¬ p.AtQuery

/-- The contents a call may decide on: an allocation must not find its listing of
reservations cut off. -/
def Ready (call : RegistryCall hostId) (db : Db) : Prop :=
  match call with
  | allocate _ _ => db.ListingComplete hostId
  | reserve _ => True

/-! ### What a call knows when it commits -/

/-- The contents still agree with those the call decided on, as to one binding. -/
def Agrees (binding : Binding) (start db : Db) : Prop :=
  binding ∈ db.bindings ↔ binding ∈ start.bindings

/-- The call books the binding at most once, and only where it is new, on contents that
still agree. -/
def BooksNew (call : RegistryCall hostId) (binding : Binding) (start : Db)
    (s : ServiceSession) : Prop :=
  ∀ db, Agrees binding start db → call.Ready db →
    (booked s.batch).count binding ≤ 1 ∧ (binding ∈ booked s.batch → binding ∉ db.bindings)

/-- A commit that does not book the binding keeps the agreement. -/
theorem Agrees.applyAll {binding : Binding} {start db : Db} {writes : List Write}
    (h : Agrees binding start db) (hkeeps : ∀ write ∈ writes, write.KeepsBindings)
    (hapart : binding ∉ booked writes) : Agrees binding start (store.applyAll writes db) := by
  rw [Agrees, bindings_applyAll hkeeps, List.mem_append, or_iff_left hapart]
  exact h

theorem mem_bookedWildcards {writes : List Write} {binding : Binding} :
    binding ∈ bookedWildcards writes ↔ binding ∈ booked writes ∧ binding.bindAddress = none := by
  simp [bookedWildcards, Binding.addressed]

theorem bookedWildcards_nodup {writes : List Write}
    (h : ∀ binding ∈ bookedWildcards writes, (booked writes).count binding ≤ 1) :
    (bookedWildcards writes).Nodup := by
  refine List.nodup_iff_count_le_one.mpr fun binding => ?_
  by_cases hmem : binding ∈ bookedWildcards writes
  · exact (List.filter_sublist.count_le binding).trans (h binding hmem)
  · rw [List.count_eq_zero_of_not_mem hmem]
    exact Nat.zero_le 1

/-- What a call may not take it does not book, and it may not take it later. -/
theorem not_mayTake_iff {p : Service Unit} {s : ServiceSession} {binding : Binding}
    (hnone : binding.bindAddress = none) :
    ¬ MayTake p s binding ↔ p.Adds (fun write => write.booked ≠ some binding) ∧
      ∀ write ∈ s.batch, write.booked ≠ some binding := by
  have hbatch : binding ∉ booked s.batch ↔ ∀ write ∈ s.batch, write.booked ≠ some binding := by
    simp [booked]
  simp only [MayTake, hnone, true_and, not_or, not_not, hbatch]
  exact and_comm

/-! ### Reservations -/

/-- A write that books no binding without address. -/
def BooksAddressed (write : Write) : Prop := ∀ binding ∈ write.booked, binding.bindAddress ≠ none

theorem bookedWildcards_eq_nil {writes : List Write} (h : ∀ write ∈ writes, BooksAddressed write) :
    bookedWildcards writes = [] := by
  refine List.eq_nil_iff_forall_not_mem.mpr fun binding hmem => ?_
  obtain ⟨hbooked, hnone⟩ := mem_bookedWildcards.mp hmem
  obtain ⟨write, hwrite, hbinding⟩ := List.mem_filterMap.mp hbooked
  exact h write hwrite binding hbinding hnone

section Adds

variable {P : Write → Prop}
  (hupdate : ∀ id project service purpose notes,
    P (.updateReservation id project service purpose notes))

include hupdate

theorem adds_resyncReservation (payload : ReservationIn) (existing : CentralReservation) :
    (resyncReservation payload existing).Adds P := by
  rw [resyncReservation]
  split
  · refine ⟨hupdate _ _ _ _ _, ?_⟩
    rintro (_ | error)
    · exact (observes_refreshReservation existing.id).adds
    · trivial
  · trivial

omit hupdate in
theorem adds_storeReservation (payload : ReservationIn)
    (hrow : ∀ row : CentralReservation,
      row.binding = ⟨hostId, payload.port, payload.protocol, payload.bindAddress⟩ →
        P (.insertReservation row)) (hevent : ∀ event, P (.insertActivity event)) :
    (storeReservation hostId payload).Adds P := by
  refine Program.Adds.bind ?_ fun row => ?_
  · refine adds_insertReservation _ _ _ _ _ _ _ _ _ _ _
      (fun row hhost hport hprotocol haddress => ?_) hevent
    exact hrow row (by rw [CentralReservation.binding, hhost, hport, hprotocol, haddress])
  rintro (_ | error)
  · exact (observes_refreshReservation row.id).adds
  · trivial

/-- What a reservation writes: a row with its own binding and the row's event, or a
change of other columns of a row on file. -/
theorem adds_createReservation (payload : ReservationIn)
    (hrow : ∀ row : CentralReservation,
      row.binding = ⟨hostId, payload.port, payload.protocol, payload.bindAddress⟩ →
        P (.insertReservation row)) (hevent : ∀ event, P (.insertActivity event)) :
    (createReservation hostId payload).Adds P := by
  refine Program.Adds.bind observes_select.adds fun rows => ?_
  refine Program.Adds.bind (observes_scalarOneOrNone rows).adds fun existing => ?_
  cases existing with
  | none => exact adds_storeReservation payload hrow hevent
  | some existing => exact adds_resyncReservation hupdate payload existing

end Adds

theorem booksAddressed_updateReservation (id : Uuid) (project : String)
    (service purpose notes : Option String) :
    BooksAddressed (.updateReservation id project service purpose notes) := by
  simp [BooksAddressed, Write.booked]

theorem booksAddressed_insertActivity (event : ActivityEvent) :
    BooksAddressed (.insertActivity event) := by
  simp [BooksAddressed, Write.booked]

/-- A reservation of an address books nothing else. -/
theorem addsAddressed_createReservation (payload : ReservationIn)
    (haddress : payload.bindAddress ≠ none) :
    (createReservation hostId payload).Adds BooksAddressed := by
  refine adds_createReservation booksAddressed_updateReservation payload ?_
    booksAddressed_insertActivity
  rintro row hsame _ ⟨⟩
  rw [hsame]
  exact haddress

/-- A reservation books its own binding only. -/
theorem addsOther_createReservation (payload : ReservationIn) {binding : Binding}
    (hother : binding ≠ ⟨hostId, payload.port, payload.protocol, payload.bindAddress⟩) :
    (createReservation hostId payload).Adds fun write => write.booked ≠ some binding := by
  refine adds_createReservation (fun _ _ _ _ _ => by simp [Write.booked]) payload ?_
    fun _ => by simp [Write.booked]
  intro row hsame hbooked
  exact hother ((Option.some.inj hbooked).symm.trans hsame)

/-- No call takes a reservation away. -/
theorem addsKeeping_program (env : Environment) (call : RegistryCall hostId) :
    (call.program env).Adds Write.KeepsBindings := by
  cases call with
  | allocate payload onHost =>
      refine Program.Adds.bind ((adds_createAllocation env payload).mono ?_) fun _ => trivial
      intro write hwrite
      cases write <;> first | exact hwrite.elim | trivial
  | reserve payload =>
      refine Program.Adds.bind ?_ fun _ => trivial
      exact adds_createReservation (fun _ _ _ _ _ => trivial) payload (fun _ _ => trivial)
        fun _ => trivial

/-- What a reservation inserts once its look-up found the binding free. -/
theorem ensures_storeReservation {rely : ServiceSession → Db → Prop} {guar : ServiceSession → Prop}
    {s : ServiceSession} (payload : ReservationIn) (hbatch : s.batch = [])
    (hguar : ∀ s', booked (Session.batch s') =
      [⟨hostId, payload.port, payload.protocol, payload.bindAddress⟩] → guar s') :
    (storeReservation hostId payload).Ensures store rely guar s fun _ _ => True := by
  refine Program.Ensures.bind (ensures_insertReservation _ _ _ _ _ _ _ _ _ _ _) ?_ ?_
  · intro s' row hrow
    obtain ⟨⟨id, rfl⟩, eventId, timestamp, hinserted⟩ := hrow row rfl
    simp only [Program.bind_eq, Program.ensures_bind, ensures_commit]
    refine ⟨hguar s' ?_, ?_, fun _ _ _ _ => trivial⟩
    · rw [hinserted, hbatch]
      rfl
    · intro db _ _
      exact (observes_refreshReservation id).quiet.ensures_true
  · exact fun _ _ _ => trivial

theorem decided_storeReservation (payload : ReservationIn) :
    (storeReservation hostId payload).Decided := by
  refine fun drawn => ⟨fun _ _ => ?_, fun _ => trivial⟩
  rintro (_ | error)
  · exact (observes_refreshReservation drawn.uuid).quiet
  · trivial

/-! ### Allocations -/

/-- A bundle books its granted ports, without addresses. -/
theorem booked_bundle {R : Db → Prop} {good : List (AllocationRequestItem × ℕ) → Prop}
    {env : Environment} {payload : AllocationIn} {allocation : Allocation} {batch : List Write}
    (h : BundleBatch R good env payload allocation batch) :
    ∃ resolved, good resolved ∧ booked batch = resolved.map fun entry =>
      ⟨payload.hostId, entry.2, entry.1.protocol, none⟩ := by
  obtain ⟨probes, resolved, grants, rfl, hprobes, hgood, hgrants⟩ := h.writes
  refine ⟨resolved, hgood, ?_⟩
  have hnone : booked probes = [] := by
    refine List.filterMap_eq_nil_iff.mpr fun write hwrite => ?_
    have hprobe := hprobes write hwrite
    cases write <;> first | exact hprobe.elim | rfl
  have hrows : booked (grantWrites grants) = resolved.map fun entry =>
      ⟨payload.hostId, entry.2, entry.1.protocol, none⟩ := by
    clear h hgood
    induction hgrants with
    | nil => rfl
    | @cons entry grant resolved grants hgrant _ ih =>
        obtain ⟨⟨id, hrow⟩, -⟩ := hgrant
        have hcons : grantWrites (grant :: grants) =
            .insertReservation grant.1 :: .insertActivity grant.2 :: grantWrites grants := rfl
        rw [hcons, List.map_cons, ← ih, hrow]
        rfl
  rw [booked, List.filterMap_append]
  change booked probes ++ booked (.insertAllocation allocation :: grantWrites grants) = _
  rw [hnone, List.nil_append, ← hrows]
  rfl

/-- Under the lock an allocation books a binding once, and where it is new only. -/
theorem ensures_allocateLocked_new (env : Environment) (payload : AllocationIn)
    (onHost : payload.hostId = hostId) (binding : Binding) (start : Db) {s : ServiceSession}
    (hbatch : s.batch = []) :
    (allocateLocked env payload).Ensures store
      (fun _ db => Agrees binding start db ∧ (allocate payload onHost).Ready db)
      ((allocate payload onHost).BooksNew binding start) s fun _ _ => True := by
  subst onHost
  have hresolving : Resolving
      (fun _ db => Agrees binding start db ∧ (allocate payload rfl).Ready db)
      (fun db => Agrees binding start db ∧ db.ListingComplete payload.hostId) s :=
    ⟨by simp [hbatch], fun _ _ _ _ hrely => hrely⟩
  refine ensures_allocateLocked hresolving (fun host => yields_resolveAll env host
    hresolving.afterDraw payload.hostId payload.requests ∅) (fun _ _ _ => trivial) ?_ ?_
  · intro s' allocation _ _ hbundle _ db hagrees hready
    obtain ⟨resolved, hresolved, hbooked⟩ := booked_bundle hbundle
    rw [hbooked]
    refine ⟨List.nodup_iff_count_le_one.mp ?_ binding, ?_⟩
    · refine List.Nodup.of_map Binding.port ?_
      rw [List.map_map]
      exact hresolved.nodup
    · intro hmem hold
      obtain ⟨entry, hentry, rfl⟩ := List.mem_map.mp hmem
      -- What the search saw free was free when the lock was taken, and is so still.
      obtain ⟨seen, ⟨hseen, hcomplete⟩, hfree⟩ := (hresolved.grantable entry hentry).unreserved
      obtain ⟨row, hrow, hbinding⟩ := List.mem_map.mp (hseen.mpr (hagrees.mp hold))
      refine hfree hcomplete ⟨row, hrow, ?_⟩
      simp only [CentralReservation.binding, Binding.mk.injEq] at hbinding
      exact ⟨hbinding.1, hbinding.2.1, hbinding.2.2.1⟩
  · intro s' allocation bindProbe _ _ _ _
    exact (observes_finishBundle env allocation.id bindProbe payload.requests).quiet.ensures_true

/-! ### Where a call stands -/

/-- The call has what it decides by, or the lock under which it decides. -/
def Decides (env : Environment) (call : RegistryCall hostId) (p : Service Unit)
    (s : ServiceSession) : Prop :=
  match call with
  | allocate _ _ => p.Locked ∧ hostKey env hostId ∈ s.held
  | reserve _ => p.Decided

/-- Where the call may still take a binding, it decides, or has decided, on contents that
agree with the present ones as to it. -/
def Knows (call : RegistryCall hostId) (db : Db) (p : Service Unit) (s : ServiceSession)
    (binding : Binding) : Prop :=
  ¬ MayTake p s binding ∨ ∃ start, Agrees binding start db ∧
    p.Ensures store (fun _ db => Agrees binding start db ∧ call.Ready db)
      (call.BooksNew binding start) s fun _ _ => True

/-- The phases of a call on the contents `db`. -/
inductive Standing (env : Environment) (call : RegistryCall hostId) (db : Db) (p : Service Unit)
    (s : ServiceSession) : Prop
  | /-- A reservation in front of its look-up. -/
    looking (payload : ReservationIn) (hcall : call = reserve payload)
      (hprogram : p = call.program env) (hbatch : s.batch = [])
  | /-- An allocation in front of its lock. -/
    approaching (payload : AllocationIn) (onHost : payload.hostId = hostId)
      (hcall : call = allocate payload onHost)
      (hprogram : p.Approaches (hostKey env hostId)
        ((allocateLocked env payload).bind fun _ => .ret ()))
      (hbatch : s.batch = [])
  | /-- The call decides, or has decided. -/
    deciding (hdecides : call.Decides env p s)
      (hknows : ∀ binding, binding.bindAddress = none → call.Knows db p s binding)
  | /-- It books nothing more without an address. -/
    harmless (hquiet : p.Quiet ∨ p.Adds BooksAddressed ∧ ∀ write ∈ s.batch, BooksAddressed write)

variable {env : Environment} {call : RegistryCall hostId} {db db' : Db} {p p' : Service Unit}
  {s s' : ServiceSession}

theorem standing_start (env : Environment) (call : RegistryCall hostId) (db : Db)
    (draws : ℕ → Draw) :
    call.Standing env db (call.program env) (Session.start draws fun _ => none) := by
  cases call with
  | allocate payload onHost =>
      refine .approaching payload onHost rfl ?_ rfl
      have happroaches := approaches_createAllocation env payload
      rw [onHost] at happroaches
      exact happroaches.bind fun _ => trivial
  | reserve payload => exact .looking payload rfl rfl rfl

theorem Decides.inWindow (h : call.Decides env p s) (hquiet : ¬ p.Quiet) :
    call.InWindow env p s := by
  refine ⟨hquiet, ?_⟩
  cases call with
  | allocate payload onHost => exact h.2
  | reserve payload => exact Program.Decided.not_atQuery h hquiet

/-- A deciding call goes on deciding, or its transaction is over. -/
theorem Decides.advance (h : call.Decides env p s)
    (hstep : p.advance store s db = some (p', s', db')) :
    call.Decides env p' s' ∧ db' = db ∨ p'.Quiet := by
  have hlocked : p.Locked := by
    cases call with
    | allocate payload onHost => exact h.1
    | reserve payload => exact Program.Decided.locked h
  rcases hlocked.advance hstep with ⟨hlocked', hheld, -, hdb⟩ | ⟨hquiet, -⟩
  · refine .inl ⟨?_, hdb⟩
    cases call with
    | allocate payload onHost => exact ⟨hlocked', hheld ▸ h.2⟩
    | reserve payload => exact Program.Decided.advance h hstep
  · exact .inr hquiet

/-- Another call's commit leaves a call where it stands, unless it books a binding that
the call may take while the call is in its window. -/
theorem Standing.frame (h : call.Standing env db p s) {writes : List Write}
    (hkeeps : ∀ write ∈ writes, write.KeepsBindings)
    (hapart : ∀ binding ∈ booked writes, ¬ (call.InWindow env p s ∧ MayTake p s binding)) :
    call.Standing env (store.applyAll writes db) p s := by
  cases h with
  | looking payload hcall hprogram hbatch => exact .looking payload hcall hprogram hbatch
  | approaching payload onHost hcall hprogram hbatch =>
      exact .approaching payload onHost hcall hprogram hbatch
  | deciding hdecides hknows =>
      by_cases hquiet : p.Quiet
      · exact .harmless (.inl hquiet)
      · have hwindow := hdecides.inWindow hquiet
        refine .deciding hdecides fun binding hnone => ?_
        by_cases hmay : MayTake p s binding
        · obtain hnot | ⟨start, hagrees, hensures⟩ := hknows binding hnone
          · exact (hnot hmay).elim
          · refine .inr ⟨start, hagrees.applyAll hkeeps fun hbinding => ?_, hensures⟩
            exact hapart binding hbinding ⟨hwindow, hmay⟩
        · exact .inl hmay
  | harmless hquiet => exact .harmless hquiet

/-- What a reservation does after its look-up. -/
def afterLookUp (payload : ReservationIn) (rows : List CentralReservation) : Service Unit :=
  ((scalarOneOrNone rows).bind fun existing =>
    match existing with
    | some existing => resyncReservation payload existing
    | none => storeReservation hostId payload).bind fun _ => .ret ()

theorem bindings_of_lookUp {payload : ReservationIn}
    (hrows : db.reservationsByBinding hostId payload.port payload.protocol payload.bindAddress =
      []) :
    ⟨hostId, payload.port, payload.protocol, payload.bindAddress⟩ ∉ db.bindings := by
  intro hmem
  obtain ⟨row, hrow, hbinding⟩ := List.mem_map.mp hmem
  simp only [CentralReservation.binding, Binding.mk.injEq] at hbinding
  rw [Db.reservationsByBinding, List.filter_eq_nil_iff] at hrows
  exact hrows row hrow (decide_eq_true hbinding)

/-- The look-up of a reservation. -/
theorem standing_of_lookUp {payload : ReservationIn} (hbatch : s.batch = [])
    (hstep : ((reserve payload : RegistryCall hostId).program env).advance store s db =
      some (p', s', db')) :
    (reserve payload : RegistryCall hostId).Standing env db' p' s' ∧ db' = db := by
  by_cases haddress : payload.bindAddress = none
  · have hflushed : s.flushed = [] := (List.append_eq_nil_iff.mp hbatch).1
    have hview : s.view store db = db := Session.view_of_flushed_nil store hflushed db
    have hread : ((reserve payload : RegistryCall hostId).program env).advance store s db =
        some ((afterLookUp payload ((s.view store db).reservationsByBinding hostId
          payload.port payload.protocol payload.bindAddress) : Service Unit), s, db) := rfl
    rw [hread, hview] at hstep
    cases hstep
    refine ⟨?_, rfl⟩
    cases hrows : db.reservationsByBinding hostId payload.port payload.protocol
        payload.bindAddress with
    | nil =>
        refine .deciding ((decided_storeReservation payload).bind fun _ => trivial) ?_
        refine fun binding _ => .inr ⟨db, Iff.rfl, ?_⟩
        refine Program.Ensures.bind (ensures_storeReservation payload hbatch ?_)
          (fun _ _ _ => trivial) fun _ _ _ => trivial
        intro s' hbooked contents hagrees _
        rw [hbooked]
        refine ⟨List.nodup_iff_count_le_one.mp (List.nodup_singleton _) binding, ?_⟩
        intro hmem hold
        rw [List.mem_singleton.mp hmem] at hagrees hold
        exact bindings_of_lookUp hrows (hagrees.mp hold)
    | cons existing rows =>
        refine .harmless (.inr ⟨?_, by simp [hbatch]⟩)
        cases rows with
        | nil =>
            have hresync :=
              adds_resyncReservation booksAddressed_updateReservation payload existing
            exact hresync.bind fun _ => trivial
        | cons other rows => trivial
  · have hadds : ((reserve payload : RegistryCall hostId).program env).Adds BooksAddressed :=
      (addsAddressed_createReservation payload haddress).bind fun _ => trivial
    refine ⟨.harmless (.inr (hadds.advance (by simp [hbatch]) hstep)), ?_⟩
    rcases Program.advance_db hstep with hdb | ⟨next, hcommit, -⟩
    · exact hdb
    · cases hcommit

/-- A step of the call that changes nothing on file keeps what it knows. -/
theorem Knows.advance {binding : Binding} (h : call.Knows db p s binding)
    (hnone : binding.bindAddress = none) (hready : call.Ready db)
    (hstep : p.advance store s db = some (p', s', db)) : call.Knows db p' s' binding := by
  rcases h with hnot | ⟨start, hagrees, hensures⟩
  · obtain ⟨hadds, hbatch⟩ := (not_mayTake_iff hnone).mp hnot
    exact .inl ((not_mayTake_iff hnone).mpr (hadds.advance hbatch hstep))
  · exact .inr ⟨start, hagrees, hensures.advance ⟨hagrees, hready⟩ hstep⟩

/-- One step of a call on contents it may decide on, and what it commits in it. -/
theorem Standing.advance (h : call.Standing env db p s) (hready : call.Ready db)
    (hstep : p.advance store s db = some (p', s', db')) :
    call.Standing env db' p' s' ∧
      (db' = db ∨ (∃ next, p = .commit next) ∧ db' = store.applyAll s.batch db ∧
        (bookedWildcards s.batch).Nodup ∧
        ∀ binding ∈ bookedWildcards s.batch, binding ∉ db.bindings) := by
  cases h with
  | looking payload hcall hprogram hbatch =>
      subst hcall hprogram
      obtain ⟨hstanding, hdb⟩ := standing_of_lookUp hbatch hstep
      exact ⟨hstanding, .inl hdb⟩
  | approaching payload onHost hcall hprogram hbatch =>
      subst hcall
      rcases hprogram.advance hstep with ⟨hprogram', ⟨draws, rfl⟩, hdb⟩ | ⟨-, rfl, rfl, rfl⟩
      · exact ⟨.approaching payload onHost rfl hprogram' hbatch, .inl hdb⟩
      · refine ⟨.deciding ?_ fun binding _ => .inr ⟨_, Iff.rfl, ?_⟩, .inl rfl⟩
        · refine ⟨(locked_allocateLocked env payload).bind fun _ => trivial, ?_⟩
          exact List.mem_cons_self
        · exact Program.Ensures.bind
            (ensures_allocateLocked_new env payload onHost binding _ hbatch)
            (fun _ _ _ => trivial) fun _ _ _ => trivial
  | deciding hdecides hknows =>
      refine ⟨?_, ?_⟩
      · rcases hdecides.advance hstep with ⟨hdecides', rfl⟩ | hquiet
        · refine .deciding hdecides' fun binding hnone => ?_
          exact (hknows binding hnone).advance hnone hready hstep
        · exact .harmless (.inl hquiet)
      · rcases Program.advance_db hstep with hdb | ⟨next, rfl, hdb⟩
        · exact .inl hdb
        · have hnew : ∀ binding ∈ bookedWildcards s.batch,
              (booked s.batch).count binding ≤ 1 ∧ binding ∉ db.bindings := by
            intro binding hmem
            obtain ⟨hbooked, hnone⟩ := mem_bookedWildcards.mp hmem
            obtain hnot | ⟨start, hagrees, hensures⟩ := hknows binding hnone
            · exact (hnot ⟨hnone, .inl hbooked⟩).elim
            · obtain ⟨hcount, hfree⟩ := hensures.of_commit db hagrees hready
              exact ⟨hcount, hfree hbooked⟩
          refine .inr ⟨⟨next, rfl⟩, hdb, bookedWildcards_nodup fun binding hmem => ?_, ?_⟩
          · exact (hnew binding hmem).1
          · exact fun binding hmem => (hnew binding hmem).2
  | harmless hquiet =>
      rcases hquiet with hquiet | ⟨hadds, hbatch⟩
      · obtain ⟨hquiet', hdb⟩ := hquiet.advance hstep
        exact ⟨.harmless (.inl hquiet'), .inl hdb⟩
      · refine ⟨.harmless (.inr (hadds.advance hbatch hstep)), ?_⟩
        rcases Program.advance_db hstep with hdb | ⟨next, rfl, hdb⟩
        · exact .inl hdb
        · refine .inr ⟨⟨next, rfl⟩, hdb, ?_⟩
          rw [bookedWildcards_eq_nil hbatch]
          exact ⟨List.nodup_nil, by simp⟩

end RegistryCall

/-! ## Runs -/

section Runs

variable {ι : Type} {hostId : Uuid}

/-- The steps of the runs without double booking. An allocation acts on contents whose
reservation listing is complete, and nothing without an address is committed that
another call in its window may still book. -/
def Uncontended (env : Environment) (call : ι → RegistryCall hostId)
    (σ : System ι Db Write ℤ Draw Failure Unit) (i : ι) : Prop :=
  (call i).Ready σ.db ∧
    ∀ next, σ.program i = .commit next → ∀ binding ∈ booked (σ.session i).batch, ∀ j, j ≠ i →
      ¬ ((call j).InWindow env (σ.program j) (σ.session j) ∧
        RegistryCall.MayTake (σ.program j) (σ.session j) binding)

variable [DecidableEq ι] {env : Environment} {call : ι → RegistryCall hostId}
  {draws : ι → ℕ → Draw} {db : Db} {σ : System ι Db Write ℤ Draw Failure Unit}

/-- Every call stands in one of its phases. -/
def AllStanding (env : Environment) (call : ι → RegistryCall hostId)
    (σ : System ι Db Write ℤ Draw Failure Unit) : Prop :=
  ∀ i, (call i).Standing env σ.db (σ.program i) (σ.session i)

/-- An uncontended step keeps every call in its phases and books nothing twice. -/
theorem uncontended_move {i : ι} (hstanding : AllStanding env call σ)
    (hwildcards : σ.db.wildcards.Nodup) (hwrites : σ.Writes Write.KeepsBindings)
    (hallowed : Uncontended env call σ i) :
    AllStanding env call (σ.move store i) ∧ (σ.move store i).db.wildcards.Nodup := by
  obtain ⟨hready, hapart⟩ := hallowed
  cases hstep : (σ.program i).advance store (σ.session i) σ.db with
  | none =>
      obtain ⟨hprogram, hsession, hdb⟩ := System.move_of_finished hstep
      refine ⟨fun j => ?_, by rwa [hdb]⟩
      by_cases hj : j = i
      · subst hj
        refine .harmless (.inl ?_)
        rw [hprogram]
        exact Program.quiet_of_finished hstep
      · rw [System.move_program_of_ne hj, System.move_session_of_ne hj, hdb]
        exact hstanding j
  | some after =>
      obtain ⟨p, s, contents⟩ := after
      obtain ⟨hprogram, hsession, hdb⟩ := System.move_of_advance hstep
      obtain ⟨hmover, hcommitted⟩ := (hstanding i).advance hready hstep
      have hothers : ∀ j, j ≠ i →
          (call j).Standing env contents (σ.program j) (σ.session j) := by
        intro j hj
        rcases hcommitted with rfl | ⟨⟨next, hcommit⟩, rfl, -, -⟩
        · exact hstanding j
        · exact (hstanding j).frame (hwrites i).2 fun binding hbinding =>
            hapart next hcommit binding hbinding j hj
      refine ⟨fun j => ?_, ?_⟩
      · rw [hdb]
        by_cases hj : j = i
        · subst hj
          rw [hprogram, hsession]
          exact hmover
        · rw [System.move_program_of_ne hj, System.move_session_of_ne hj]
          exact hothers j hj
      · rw [hdb]
        rcases hcommitted with rfl | ⟨-, rfl, hnodup, hnew⟩
        · exact hwildcards
        · rw [wildcards_applyAll (hwrites i).2]
          refine hwildcards.append hnodup fun binding hold hbooked => ?_
          exact hnew binding hbooked (List.mem_of_mem_filter hold)

/-- In a run of uncontended steps no binding is ever booked twice. -/
theorem noDoubleBooking_of_reachable (hstart : db.NoDoubleBooking)
    (hreach : System.Reachable store (Uncontended env call)
      (System.start db (fun i => (call i).program env) draws) σ) :
    σ.db.NoDoubleBooking := by
  obtain ⟨haddressed, hwildcards⟩ := noDoubleBooking_iff.mp hstart
  have hwrites : (System.start db (fun i => (call i).program env) draws).Writes
      Write.KeepsBindings :=
    System.start_writes fun i => RegistryCall.addsKeeping_program env (call i)
  refine noDoubleBooking_iff.mpr ⟨?_, ?_⟩
  · exact addressedBinding.nodup_of_reachable hreach hwrites (UniqueKey.kept_start haddressed)
  · have hboth : AllStanding env call σ ∧ σ.db.wildcards.Nodup := by
      clear haddressed hstart
      induction hreach with
      | start =>
          exact ⟨fun i => RegistryCall.standing_start env (call i) db (draws i), hwildcards⟩
      | step hreach _ hallowed ih =>
          exact uncontended_move ih.1 ih.2 (hreach.writes hwrites) hallowed
    exact hboth.2

end Runs

/-! ## A binding booked twice -/

/-- A reservation of port 8000 without a bind address. -/
def sampleReservation : ReservationIn where
  port := 8000
  protocol := .tcp
  bindAddress := none
  project := "shop"
  service := none
  purpose := none
  notes := none
  localReservationId := none
  port_le := by decide
  bindAddress_fits := by decide
  project_length := shop_length
  service_fits := by decide
  purpose_fits := by decide
  notes_fits := by decide
  localReservationId_fits := by decide

/-- Any number of reservations of that port on the sample host. -/
def sampleReservations {ι : Type} (draws : ι → ℕ → Draw) :
    System ι Db Write ℤ Draw Failure Unit :=
  System.start sampleDb
    (fun _ => (RegistryCall.reserve sampleReservation : RegistryCall sampleHost.id).program
      sampleEnvironment) draws

/-- An allocation that prefers port 8000, and reservations of the ports 8005 and 8000. -/
def sampleCalls : Fin 3 → RegistryCall sampleHost.id
  | 0 => .allocate samplePayload samplePayload_hostId
  | 1 => .reserve { sampleReservation with port := 8005, port_le := by decide }
  | 2 => .reserve sampleReservation

/-- The three calls at their beginning. -/
def sampleRegistry : System (Fin 3) Db Write ℤ Draw Failure Unit :=
  System.start sampleDb (fun i => (sampleCalls i).program sampleEnvironment)
    fun i => sampleDraws (100 * (i + 1))

/-- Whatever the call commits, the allocation does not hold the lock, the first reservation
is of another port, and the second is of another port or has not looked it up yet. -/
def outsideWindows (σ : System (Fin 3) Db Write ℤ Draw Failure Unit) (i : Fin 3) : Bool :=
  decide (σ.db.ListingComplete sampleHost.id) &&
    (!(σ.program i).atCommit || (booked (σ.session i).batch).all fun binding =>
      decide ((i = 0 ∨ hostKey sampleEnvironment sampleHost.id ∉ (σ.session 0).held) ∧
        (i = 1 ∨ binding.port ≠ 8005) ∧
        (i = 2 ∨ binding.port ≠ 8000 ∨ (σ.program 2).AtQuery)))

/-- A reservation of one port may not take another. -/
theorem not_mayTake_of_reachable {payload : ReservationIn} {i : Fin 3} {binding : Binding}
    {σ : System (Fin 3) Db Write ℤ Draw Failure Unit}
    {allowed : System (Fin 3) Db Write ℤ Draw Failure Unit → Fin 3 → Prop}
    (hreach : System.Reachable store allowed sampleRegistry σ)
    (hcall : sampleCalls i = .reserve payload) (hport : binding.port ≠ payload.port) :
    ¬ RegistryCall.MayTake (σ.program i) (σ.session i) binding := by
  intro hmay
  refine (RegistryCall.not_mayTake_iff hmay.1).mpr (hreach.writes_at ⟨?_, ?_⟩) hmay
  · change ((sampleCalls i).program sampleEnvironment).Adds _
    rw [hcall]
    refine (RegistryCall.addsOther_createReservation payload fun hsame => ?_).bind
      fun _ => trivial
    exact hport (by rw [hsame])
  · intro write hwrite
    cases hwrite

/-- The allocation and the first reservation take turns; the other one looks its port up once
the allocation has committed. -/
def registryTurns : List (Fin 3) :=
  [0, 1] ++ List.replicate 15 0 ++ List.replicate 3 1 ++ List.replicate 12 0 ++
    List.replicate 4 1 ++ [2] ++ List.replicate 6 0 ++ [1]

/-- Two calls decide at the same time and book two ports of one range, and a third is refused. -/
theorem noDoubleBooking_of_reachable_sample :
    ∃ σ, System.play store registryTurns sampleRegistry = some σ ∧
      σ.program 0 = .ret () ∧ σ.program 1 = .ret () ∧
      (∃ message, σ.program 2 = .raise (.reservationConflict message)) ∧
      σ.db.reservations.map CentralReservation.port = [8000, 8005] ∧ σ.db.NoDoubleBooking := by
  obtain ⟨σ, hplay, hfirst, hsecond, hthird, hports⟩ :
      ∃ σ, System.play store registryTurns sampleRegistry = some σ ∧
        σ.program 0 = .ret () ∧ σ.program 1 = .ret () ∧
        (∃ message, σ.program 2 = .raise (.reservationConflict message)) ∧
        σ.db.reservations.map CentralReservation.port = [8000, 8005] :=
    ⟨_, rfl, rfl, rfl, ⟨_, rfl⟩, rfl⟩
  have hreach : System.Reachable store (Uncontended sampleEnvironment sampleCalls)
      sampleRegistry σ := by
    refine System.Reachable.of_play_tested .start (fun υ i hυ htest => ?_)
      (rfl : System.tested store outsideWindows _ _ = true) hplay
    obtain ⟨hlisting, hcommits⟩ := Bool.and_eq_true_iff.mp htest
    have hcomplete : υ.db.ListingComplete sampleHost.id := of_decide_eq_true hlisting
    refine ⟨?_, fun next hcommit binding hbooked j hj => ?_⟩
    · fin_cases i
      · exact hcomplete
      · exact trivial
      · exact trivial
    · rw [hcommit, Program.atCommit, Bool.not_true, Bool.false_or, List.all_eq_true] at hcommits
      obtain ⟨hlock, hother, hlooking⟩ := of_decide_eq_true (hcommits binding hbooked)
      rintro ⟨⟨-, hwindow⟩, hmay⟩
      fin_cases j
      · exact (hlock.resolve_left (Ne.symm hj)) hwindow
      · exact not_mayTake_of_reachable hυ rfl (hother.resolve_left (Ne.symm hj)) hmay
      · rcases hlooking.resolve_left (Ne.symm hj) with hport | hquery
        · exact not_mayTake_of_reachable hυ rfl hport hmay
        · exact hwindow hquery
  exact ⟨σ, hplay, hfirst, hsecond, hthird, hports,
    noDoubleBooking_of_reachable (by decide) hreach⟩

/-- Two reservations look the port up before either commits, and both are stored. -/
theorem doubleBooking_reachable :
    sampleDb.NoDoubleBooking ∧
      ∃ σ, System.Reachable store System.anyOrder
          (sampleReservations fun first : Bool => sampleDraws (if first then 100 else 200)) σ ∧
        ¬ σ.db.NoDoubleBooking := by
  obtain ⟨σ, hplay, hdouble⟩ : ∃ σ, System.play store
      (true :: false :: List.replicate 8 true ++ List.replicate 8 false)
      (sampleReservations fun first : Bool => sampleDraws (if first then 100 else 200)) =
        some σ ∧ ¬ σ.db.NoDoubleBooking := ⟨_, rfl, by decide⟩
  exact ⟨by decide, σ, System.Reachable.of_play .start hplay, hdouble⟩

end Central
