/-
# Verifying an allocation

`verify_allocation` queues a probe for every port of an allocation, commits, and polls for
the agent's answers. The session's identity map stands between the polls and what other
sessions commit: a row it still references keeps the attributes it was first loaded with.
A probe that is open at the first poll therefore stays open for the call.
-/

import PortForge.Central.ProbeLifecycle
import PortForge.Central.Releases
import Mathlib.Data.List.Pairwise

namespace Central

open Transaction

/-! ## The identity map -/

/-- The object a query returns for a row: one that the session still references is not
loaded again. -/
def loaded (held : List HostProbe) (row : HostProbe) : HostProbe :=
  (held.find? fun probe => probe.id = row.id).getD row

/-- `ProbeRepository.list_recent_for_hosts`. -/
def Db.listRecentForHosts (db : Db) (hostIds : List Uuid) (limit : ℕ := 500) : List HostProbe :=
  if hostIds = [] then []
  else ((db.probes.filter fun probe => probe.hostId ∈ hostIds).insertionSort fun a b =>
    b.createdAt ≤ a.createdAt).take limit

instance (row other : HostProbe) : Decidable (row.SameBinding other) :=
  inferInstanceAs (Decidable (_ ∧ _ ∧ _ ∧ _))

instance (row : HostProbe) (hostId : Uuid) (port : ℕ) (protocol : Protocol) (bindAddress : String) :
    Decidable (row.IsFor hostId port protocol bindAddress) :=
  inferInstanceAs (Decidable (_ ∧ _ ∧ _ ∧ _))

/-- The loop of `get_probe_evidence_map`: the first probe of each binding is kept. -/
def firstPerBinding (latest : List HostProbe) : List HostProbe → List HostProbe
  | [] => latest
  | probe :: rows =>
      if latest.any fun other => probe.SameBinding other then firstPerBinding latest rows
      else firstPerBinding (latest ++ [probe]) rows

/-- `get_probe_evidence_map`: the latest probe of each binding, as the session holds it. Of
the evidence the caller reads the probes. -/
def getProbeEvidenceMap (held : List HostProbe) (db : Db) (hostIds : List Uuid) : List HostProbe :=
  firstPerBinding [] ((db.listRecentForHosts hostIds).map (loaded held))

/-! ## The call -/

/-- `r.bind_address or "0.0.0.0"`. -/
def CentralReservation.probedAddress (row : CentralReservation) : String :=
  (row.bindAddress.filter fun address => address ≠ "").getD defaultBindAddress

/-- The probe is for the port of the reservation. -/
def HostProbe.IsForRow (probe : HostProbe) (hostId : Uuid) (row : CentralReservation) : Prop :=
  probe.IsFor hostId row.port row.protocol row.probedAddress

instance (probe : HostProbe) (hostId : Uuid) (row : CentralReservation) :
    Decidable (probe.IsForRow hostId row) := inferInstanceAs (Decidable (_ ∧ _ ∧ _ ∧ _))

/-- The rows of an allocation among the listed reservations of its host. -/
def Db.ownRows (db : Db) (allocation : Allocation) : List CentralReservation :=
  (db.listReservations allocation.hostId 1000).filter fun row =>
    row.allocationId = some allocation.id

/-- What a verification knows when its wait begins. -/
structure Begun where
  allocation : Allocation
  ownRows : List CentralReservation
  /-- The probes `queue_probe` has returned. -/
  queued : List HostProbe
  hostHealthState : HostHealthState

/-- The loop that queues a probe for every port. -/
def queueProbes (env : Environment) (hostId : Uuid) :
    List CentralReservation → Service (List HostProbe)
  | [] => pure []
  | row :: rows => do
      let probe ← queueProbe env none hostId row.port row.protocol row.probedAddress
      let probes ← queueProbes env hostId rows
      pure (probe.toList ++ probes)

/-- `verify_allocation` up to its wait. -/
def beginVerification (env : Environment) (allocationId : Uuid) : Service Begun := do
  let row ← select fun db => db.getAllocation allocationId
  match row with
  | none => raise (.allocation (allocationNotFound allocationId))
  | some allocation => do
      let ownRows ← select fun db => db.ownRows allocation
      let queued ← queueProbes env allocation.hostId ownRows
      commit
      let host ← select fun db => db.getHost allocation.hostId
      match host with
      | none => raise .attributeError
      | some host => do
          let validation ← buildValidation env host .notRemoteCapable
          pure
            { allocation := allocation
              ownRows := ownRows
              queued := queued
              hostHealthState := validation.hostHealthState }

/-- The evidence of a row is there and has a result. -/
def rowDone (evidence : List HostProbe) (hostId : Uuid) (row : CentralReservation) : Bool :=
  match evidence.find? fun probe => probe.IsForRow hostId row with
  | none => false
  | some probe => ¬ probe.Open

/-- `all_done`. -/
def allDone (evidence : List HostProbe) (hostId : Uuid) (rows : List CentralReservation) : Bool :=
  rows.all (rowDone evidence hostId)

/-- The polling loop with time for `left` more polls, of which the next is number `poll` and
finds `contents poll` committed. The evidence of one poll is referenced during the next. The
result is the number of polls, and what the session references after them. -/
def pollEvidence (hostId : Uuid) (rows : List CentralReservation) (contents : ℕ → Db) :
    ℕ → ℕ → List HostProbe → ℕ × List HostProbe
  | 0, poll, held => (poll, held)
  | left + 1, poll, held =>
      let evidence := getProbeEvidenceMap held (contents poll) [hostId]
      if allDone evidence hostId rows then (poll + 1, evidence)
      else pollEvidence hostId rows contents left (poll + 1) evidence

/-- What a verification has done when it returns. -/
structure Verified where
  polls : ℕ
  /-- The `bind_probe` of each port of the answer. -/
  bindProbes : List (CentralReservation × BindProbe)

/-- `get_probe_evidence` in a session that references `held`. -/
def heldBindProbe (held : List HostProbe) (db : Db) (hostId : Uuid) (row : CentralReservation)
    (now : ℤ) : BindProbe :=
  classifyBindProbe ((db.findLatestForBinding hostId row.port row.protocol row.probedAddress).map
    (loaded held)) now

/-- `verify_allocation` from its wait on, with time for `limit` polls; a host that is not
healthy is not waited for. The evidence on a row is classified at `now row`. -/
def finishVerification (begun : Begun) (contents : ℕ → Db) (limit : ℕ)
    (now : CentralReservation → ℤ) : Verified :=
  let (polls, held) :=
    if begun.hostHealthState ≠ .healthy then (0, [])
    else pollEvidence begun.allocation.hostId begun.ownRows contents limit 0 []
  { polls := polls
    bindProbes := ((contents polls).ownRows begun.allocation).map fun row =>
      (row, heldBindProbe held (contents polls) begun.allocation.hostId row (now row)) }

/-! ## What is asked of it -/

/-- An agent makes the call: it reports, claims its probes or answers one. -/
def ProbeCall.FromAgent : ProbeCall → Prop
  | queue _ _ _ _ => False
  | _ => True

/-- What is committed at each poll: between two polls agents make calls. -/
def contentsAt (env : Environment) (arrivals : ℕ → List (Turn ProbeCall Draw)) (start : Db) : ℕ → Db
  | 0 => Turn.runAll store (ProbeCall.program env) (arrivals 0) start
  | poll + 1 =>
      Turn.runAll store (ProbeCall.program env) (arrivals (poll + 1)) (contentsAt env arrivals
          start poll)

/-- The probe has a committed answer. -/
def Db.Answers (db : Db) (probe : HostProbe) : Prop :=
  ∃ row ∈ db.probes, row.id = probe.id ∧ ¬ row.Open

instance (db : Db) (probe : HostProbe) : Decidable (db.Answers probe) :=
  inferInstanceAs (Decidable (∃ row ∈ db.probes, _))

/-- Every port's value is the classification of what is committed at the return, and the wait
ends with the first poll that finds every queued probe answered. -/
structure SeesAnswers (begun : Begun) (contents : ℕ → Db) (limit : ℕ)
    (now : CentralReservation → ℤ) (verified : Verified) : Prop where
  committed : ∀ entry ∈ verified.bindProbes,
    entry.2 = (contents verified.polls).probeEvidence begun.allocation.hostId entry.1.port
      entry.1.protocol entry.1.probedAddress (now entry.1)
  early : ∀ poll < limit, (∀ probe ∈ begun.queued, (contents poll).Answers probe) →
    verified.polls ≤ poll + 1

/-- The wait needs no answer that comes during it: there is none, or the first poll finds
everything answered, or no probe that is open at the first poll is answered until the time is
up, and no poll but the last finds every queued probe answered. -/
def NeedsNoLaterAnswer (begun : Begun) (contents : ℕ → Db) (limit : ℕ) : Prop :=
  begun.hostHealthState ≠ .healthy ∨ limit = 0 ∨
    allDone (getProbeEvidenceMap [] (contents 0) [begun.allocation.hostId])
      begun.allocation.hostId begun.ownRows = true ∨
    (∀ row ∈ begun.ownRows, ∀ probe,
      (contents 0).findLatestForBinding begun.allocation.hostId row.port row.protocol
        row.probedAddress = some probe →
      probe ∈ getProbeEvidenceMap [] (contents 0) [begun.allocation.hostId] → probe.Open →
        ¬ (contents limit).Answers probe) ∧
    ∀ poll, poll + 1 < limit → ∃ probe ∈ begun.queued, ¬ (contents poll).Answers probe

/-! ## What agents do to the probes -/

namespace HostProbe

/-- The same probe at a later point: a result that it has stays. -/
structure Continues (row later : HostProbe) : Prop where
  id : later.id = row.id
  createdAt : later.createdAt = row.createdAt
  binding : later.SameBinding row
  final : ¬ row.Open → later = row

theorem Continues.refl (row : HostProbe) : row.Continues row :=
  ⟨rfl, rfl, ⟨rfl, rfl, rfl, rfl⟩, fun _ => rfl⟩

theorem Continues.trans {row next later : HostProbe} (h : row.Continues next)
    (h' : next.Continues later) : row.Continues later where
  id := h'.id.trans h.id
  createdAt := h'.createdAt.trans h.createdAt
  binding := by
    obtain ⟨hhost, hport, hprotocol, haddress⟩ := h'.binding
    obtain ⟨hhost', hport', hprotocol', haddress'⟩ := h.binding
    exact ⟨hhost.trans hhost', hport.trans hport', hprotocol.trans hprotocol',
      haddress.trans haddress'⟩
  final hfinal := by
    obtain rfl := h.final hfinal
    exact h'.final hfinal

theorem Continues.isFor {row later : HostProbe} (h : row.Continues later) {hostId : Uuid} {port : ℕ}
    {protocol : Protocol} {bindAddress : String} :
    later.IsFor hostId port protocol bindAddress ↔ row.IsFor hostId port protocol bindAddress := by
  obtain ⟨hhost, hport, hprotocol, haddress⟩ := h.binding
  rw [IsFor, IsFor, hhost, hport, hprotocol, haddress]

theorem Continues.sameBinding {row later other otherLater : HostProbe} (h : row.Continues later)
    (h' : other.Continues otherLater) : later.SameBinding otherLater ↔ row.SameBinding other := by
  obtain ⟨hhost, hport, hprotocol, haddress⟩ := h'.binding
  rw [SameBinding, SameBinding, hhost, hport, hprotocol, haddress]
  exact h.isFor

end HostProbe

theorem ProbeStep.continues {call : ProbeCall} {row later : HostProbe}
    (h : ProbeStep call row later) : row.Continues later :=
  ⟨h.id, h.createdAt, h.isFor.mpr ⟨rfl, rfl, rfl, rfl⟩, h.eq_of_not_open⟩

/-- A binding without a result is not evidence either way, and only such a binding. -/
theorem classifyBindProbe_eq_notRemoteCapable {probe : HostProbe} {now : ℤ} :
    classifyBindProbe (some probe) now = .notRemoteCapable ↔ probe.Open := by
  have hfinal : probe.Open ↔ probe.status ≠ .completed ∧ probe.status ≠ .failed := by
    rw [HostProbe.Open]
    cases probe.status <;> simp
  rw [hfinal, classifyBindProbe]
  split_ifs <;> simp_all

/-- The contents at a later point of a wait: the probes go on, and the reservations stay. -/
structure Db.GoesOn (db later : Db) : Prop where
  probes : ∃ change : HostProbe → HostProbe, later.probes = db.probes.map change ∧
    ∀ row ∈ db.probes, row.Continues (change row)
  reservations : later.reservations = db.reservations

namespace Db.GoesOn

variable {db next later : Db}

theorem refl (db : Db) : db.GoesOn db := ⟨⟨id, by simp, fun row _ => .refl row⟩, rfl⟩

theorem trans (h : db.GoesOn next) (h' : next.GoesOn later) : db.GoesOn later := by
  obtain ⟨change, hprobes, hchange⟩ := h.probes
  obtain ⟨change', hprobes', hchange'⟩ := h'.probes
  refine ⟨⟨change' ∘ change, ?_, fun row hrow => ?_⟩, h'.reservations.trans h.reservations⟩
  · rw [hprobes', hprobes, List.map_map]
  · have hnext : change row ∈ next.probes := hprobes ▸ List.mem_map_of_mem hrow
    exact (hchange row hrow).trans (hchange' _ hnext)

theorem ids (h : db.GoesOn later) : later.probes.map HostProbe.id = db.probes.map HostProbe.id := by
  obtain ⟨change, hprobes, hchange⟩ := h.probes
  rw [hprobes, List.map_map]
  exact List.map_congr_left fun row hrow => (hchange row hrow).id

theorem ownRows (h : db.GoesOn later) (allocation : Allocation) :
    later.ownRows allocation = db.ownRows allocation := by
  rw [Db.ownRows, Db.ownRows, listReservations, listReservations, hostReservations,
    hostReservations, h.reservations]

end Db.GoesOn

/-- The write leaves the reservations alone. -/
def Write.SparesReservations (write : Write) : Prop :=
  ∀ db : Db, (store.apply write db).reservations = db.reservations

theorem reservations_exec {α : Type} {program : Service α}
    (hadds : program.Adds Write.SparesReservations)
    (draws : ℕ → Draw) (faults : ℕ → Option DbError) (db : Db) :
    (program.exec store (Session.start draws faults) db).db.reservations = db.reservations :=
  hadds.exec_induction (motive := fun later => later.reservations = db.reservations)
    (blank_start draws faults).forall_batch rfl fun _ contents hspares hsame =>
      (hspares contents).trans hsame

theorem ProbeCall.adds_program (env : Environment) {call : ProbeCall} (hagent : call.FromAgent) :
    (call.program env).Adds Write.SparesReservations := by
  cases call with
  | record hostId heartbeat =>
      refine Program.Adds.bind ?_ fun _ => trivial
      exact adds_record (fun _ => rfl) (fun _ => rfl) fun _ _ => rfl
  | queue hostId port protocol bindAddress => exact hagent.elim
  | claim hostId =>
      refine Program.Adds.bind ?_ fun _ => trivial
      exact adds_claimPendingProbes (fun _ _ _ => rfl) env hostId
  | submit authenticatedHostId probeId available reason =>
      refine Program.Adds.bind ?_ fun _ => trivial
      refine observes_select.adds.bind fun row => ?_
      cases row with
      | none => trivial
      | some probe =>
          simp only [submitFor]
          split_ifs
          · trivial
          · trivial
          · refine observes_clock.adds.bind fun now => ⟨fun _ => rfl, ?_⟩
            exact adds_commit.bind fun _ => (observes_refreshProbe probe.id).adds

/-- What agents do, one call. -/
theorem goesOn_turn (env : Environment) {turn : Turn ProbeCall Draw} (hagent : turn.call.FromAgent)
    {db : Db} (hids : (db.probes.map HostProbe.id).Nodup) :
    db.GoesOn (turn.next store (ProbeCall.program env) db) := by
  refine ⟨?_, reservations_exec (ProbeCall.adds_program env hagent) _ _ _⟩
  obtain ⟨writes, hturn⟩ := probeTurn env turn db
  rw [hturn.probes]
  rcases hturn.changes.steps_or_queues hids with ⟨change, hlater, hchange⟩ | ⟨row, -, rfl⟩
  · exact ⟨change, hlater, fun row hrow => (hchange row hrow).continues⟩
  · have hchanges := hturn.changes
    generalize turn.call = call at hchanges hagent
    generalize hwrites : [Write.insertProbe row] = writes at hchanges
    cases hchanges with
    | nothing | submitted => cases hwrites
    | queued => exact hagent.elim
    | claimed hostId limit =>
        obtain ⟨probe, -, hdeliver⟩ := List.map_eq_singleton_iff.mp hwrites.symm
        cases hdeliver

theorem goesOn_runAll (env : Environment) {turns : List (Turn ProbeCall Draw)}
    (hagents : ∀ turn ∈ turns, turn.call.FromAgent) {db : Db}
    (hids : (db.probes.map HostProbe.id).Nodup) :
    db.GoesOn (Turn.runAll store (ProbeCall.program env) turns db) := by
  refine Turn.runAll_induction (motive := db.GoesOn) (.refl db) fun turn hturn contents hgoes => ?_
  exact hgoes.trans (goesOn_turn env (hagents turn hturn) (hgoes.ids ▸ hids))

/-- Along a schedule of agents' calls. -/
theorem goesOn_contentsAt (env : Environment) {arrivals : ℕ → List (Turn ProbeCall Draw)}
    (hagents : ∀ poll, ∀ turn ∈ arrivals poll, turn.call.FromAgent) {start : Db}
    (hids : (start.probes.map HostProbe.id).Nodup) (poll : ℕ) :
    start.GoesOn (contentsAt env arrivals start 0) ∧
      (contentsAt env arrivals start 0).GoesOn (contentsAt env arrivals start poll) := by
  have hfirst : start.GoesOn (contentsAt env arrivals start 0) := goesOn_runAll env (hagents 0) hids
  refine ⟨hfirst, ?_⟩
  induction poll with
  | zero => exact .refl _
  | succ poll ih =>
      have hbefore := (hfirst.trans ih).ids
      exact ih.trans (goesOn_runAll env (hagents (poll + 1)) (hbefore ▸ hids))

/-! ## The polls -/

theorem Db.latest_map {change : HostProbe → HostProbe} {probes : List HostProbe}
    (h : ∀ probe ∈ probes, (change probe).createdAt = probe.createdAt) :
    Db.latest (probes.map change) = (Db.latest probes).map change := by
  induction probes with
  | nil => rfl
  | cons probe probes ih =>
      obtain ⟨hfirst, hrest⟩ := List.forall_mem_cons.mp h
      rw [List.map_cons, Db.latest, Db.latest, ih hrest]
      cases hlatest : Db.latest probes with
      | none => rfl
      | some other =>
          have hother := hrest other (Db.latest_spec hlatest).1
          simp only [Option.map_some, hfirst, hother]
          split <;> rfl

/-- A list that is mapped, filtered by what the map keeps. -/
theorem filter_map_of_iff {change : HostProbe → HostProbe} {keep : HostProbe → Bool}
    {probes : List HostProbe} (h : ∀ probe ∈ probes, keep (change probe) = keep probe) :
    (probes.map change).filter keep = (probes.filter keep).map change := by
  rw [List.filter_map]
  congr 1
  exact List.filter_congr fun probe hprobe => h probe hprobe

section Change

variable {db later : Db} {change : HostProbe → HostProbe}

theorem findLatestForBinding_map (hprobes : later.probes = db.probes.map change)
    (hchange : ∀ row ∈ db.probes, row.Continues (change row)) (hostId : Uuid) (port : ℕ)
    (protocol : Protocol) (bindAddress : String) :
    later.findLatestForBinding hostId port protocol bindAddress =
      (db.findLatestForBinding hostId port protocol bindAddress).map change := by
  rw [Db.findLatestForBinding, Db.findLatestForBinding, hprobes, filter_map_of_iff, Db.latest_map]
  · exact fun probe hprobe => (hchange probe (List.mem_of_mem_filter hprobe)).createdAt
  · exact fun probe hprobe => decide_eq_decide.mpr (hchange probe hprobe).isFor

theorem mem_listRecentForHosts {hostIds : List Uuid} {limit : ℕ} {row : HostProbe}
    (h : row ∈ db.listRecentForHosts hostIds limit) : row ∈ db.probes := by
  rw [Db.listRecentForHosts] at h
  split at h
  · cases h
  · have hsorted := List.mem_of_mem_take h
    rw [List.mem_insertionSort] at hsorted
    exact List.mem_of_mem_filter hsorted

theorem listRecentForHosts_map (hprobes : later.probes = db.probes.map change)
    (hchange : ∀ row ∈ db.probes, row.Continues (change row)) (hostIds : List Uuid) (limit : ℕ) :
    later.listRecentForHosts hostIds limit = (db.listRecentForHosts hostIds limit).map change := by
  rw [Db.listRecentForHosts, Db.listRecentForHosts]
  split
  · rfl
  · have hfilter : (later.probes.filter fun probe => probe.hostId ∈ hostIds) =
        (db.probes.filter fun probe => probe.hostId ∈ hostIds).map change := by
      rw [hprobes]
      refine filter_map_of_iff fun row hrow => ?_
      have hhost : (change row).hostId = row.hostId := (hchange row hrow).binding.1
      rw [hhost]
    rw [hfilter, List.map_take]
    congr 1
    symm
    refine List.map_insertionSort _ _ change _ fun row hrow other hother => ?_
    rw [(hchange row (List.mem_of_mem_filter hrow)).createdAt,
      (hchange other (List.mem_of_mem_filter hother)).createdAt]

end Change

theorem firstPerBinding_subset {latest rows : List HostProbe} {probe : HostProbe}
    (h : probe ∈ firstPerBinding latest rows) : probe ∈ latest ∨ probe ∈ rows := by
  induction rows generalizing latest with
  | nil => exact .inl h
  | cons row rows ih =>
      rw [firstPerBinding] at h
      split at h
      · exact (ih h).imp_right (List.mem_cons_of_mem _)
      · rcases ih h with hlatest | hrows
        · rcases List.mem_append.mp hlatest with hold | hnew
          · exact .inl hold
          · exact .inr (List.mem_singleton.mp hnew ▸ List.mem_cons_self)
        · exact .inr (List.mem_cons_of_mem _ hrows)

/-- Which probe is the first of its binding depends on the bindings only. -/
theorem firstPerBinding_map {change : HostProbe → HostProbe} {latest rows : List HostProbe}
    (h : ∀ probe ∈ latest ++ rows, probe.Continues (change probe)) :
    firstPerBinding (latest.map change) (rows.map change) =
      (firstPerBinding latest rows).map change := by
  induction rows generalizing latest with
  | nil => rfl
  | cons row rows ih =>
      have hrow : row.Continues (change row) := h row (by simp)
      have hany : (latest.map change).any (fun other => (change row).SameBinding other) =
          latest.any fun other => row.SameBinding other := by
        rw [List.any_map, Bool.eq_iff_iff, List.any_eq_true, List.any_eq_true]
        refine exists_congr fun other => and_congr_right fun hother => ?_
        rw [Function.comp_apply, decide_eq_true_iff, decide_eq_true_iff]
        exact hrow.sameBinding (h other (List.mem_append_left _ hother))
      rw [List.map_cons, firstPerBinding, firstPerBinding, hany]
      split
      · refine ih fun probe hprobe => h probe ?_
        rcases List.mem_append.mp hprobe with hold | hnew
        · exact List.mem_append_left _ hold
        · exact List.mem_append_right _ (List.mem_cons_of_mem _ hnew)
      · rw [← ih fun probe hprobe => h probe (by simpa [or_assoc] using hprobe), List.map_append]
        rfl

/-- A row that the session references is what it was when it was loaded. -/
theorem loaded_of_mem {held : List HostProbe} {probe row : HostProbe} (hmem : probe ∈ held)
    (hids : ∀ other ∈ held, other.id = probe.id → other = probe) (hid : row.id = probe.id) :
    loaded held row = probe := by
  rw [loaded]
  cases hfind : held.find? fun other => other.id = row.id with
  | none =>
      have hmissing := List.find?_eq_none.mp hfind probe hmem
      simp [hid] at hmissing
  | some other =>
      have hother : other.id = row.id := by simpa using List.find?_some hfind
      exact hids other (List.mem_of_find?_eq_some hfind) (hother.trans hid)

theorem loaded_of_forall_ne {held : List HostProbe} {row : HostProbe}
    (h : ∀ probe ∈ held, probe.id ≠ row.id) : loaded held row = row := by
  rw [loaded, List.find?_eq_none.mpr fun probe hprobe => by simpa using h probe hprobe]
  rfl

/-- The bindings of the kept probes differ. -/
theorem firstPerBinding_pairwise {latest rows : List HostProbe}
    (h : latest.Pairwise fun other probe => ¬ probe.SameBinding other) :
    (firstPerBinding latest rows).Pairwise fun other probe => ¬ probe.SameBinding other := by
  induction rows generalizing latest with
  | nil => exact h
  | cons row rows ih =>
      rw [firstPerBinding]
      split
      · exact ih h
      · next hany =>
          refine ih (List.pairwise_append.mpr ⟨h, List.pairwise_singleton _ _,
              fun other hother probe hprobe => ?_⟩)
          rw [List.mem_singleton.mp hprobe]
          rw [Bool.not_eq_true, List.any_eq_false] at hany
          have hdiffers := hany other hother
          rwa [decide_eq_true_iff] at hdiffers

section First

variable {db later : Db} {hostId : Uuid}

theorem getProbeEvidenceMap_nil (db : Db) (hostIds : List Uuid) :
    getProbeEvidenceMap [] db hostIds = firstPerBinding [] (db.listRecentForHosts hostIds) := by
  rw [getProbeEvidenceMap]
  congr 1
  exact List.map_id _

theorem mem_getProbeEvidenceMap {hostIds : List Uuid} {probe : HostProbe}
    (h : probe ∈ getProbeEvidenceMap [] db hostIds) : probe ∈ db.probes := by
  rw [getProbeEvidenceMap_nil] at h
  rcases firstPerBinding_subset h with hnil | hrow
  · cases hnil
  · exact mem_listRecentForHosts hrow

/-- What the session holds of a row after the first poll. -/
theorem loaded_change (hids : (db.probes.map HostProbe.id).Nodup) {change : HostProbe → HostProbe}
    (hchange : ∀ row ∈ db.probes, row.Continues (change row)) {hostIds : List Uuid}
        {row : HostProbe}
    (hrow : row ∈ db.probes) :
    loaded (getProbeEvidenceMap [] db hostIds) (change row) =
      if row ∈ getProbeEvidenceMap [] db hostIds then row else change row := by
  have hsame : ∀ other ∈ getProbeEvidenceMap [] db hostIds, other.id = row.id → other = row :=
    fun other hother hid => List.inj_on_of_nodup_map hids (mem_getProbeEvidenceMap hother) hrow hid
  split
  · next hmem => exact loaded_of_mem hmem hsame (hchange row hrow).id
  · next hmem =>
      refine loaded_of_forall_ne fun other hother hid => hmem ?_
      rw [← hsame other hother (hid.trans (hchange row hrow).id)]
      exact hother

/-- A later poll finds what the first one has found. -/
theorem getProbeEvidenceMap_stays (hids : (db.probes.map HostProbe.id).Nodup) (h : db.GoesOn later)
    (hostIds : List Uuid) :
    getProbeEvidenceMap (getProbeEvidenceMap [] db hostIds) later hostIds =
      getProbeEvidenceMap [] db hostIds := by
  obtain ⟨change, hprobes, hchange⟩ := h.probes
  have hcontinues : ∀ row ∈ db.probes,
      row.Continues (loaded (getProbeEvidenceMap [] db hostIds) (change row)) := by
    intro row hrow
    rw [loaded_change hids hchange hrow]
    split
    · exact .refl row
    · exact hchange row hrow
  have hlisted : ∀ probe ∈ [] ++ db.listRecentForHosts hostIds,
      probe.Continues ((loaded (getProbeEvidenceMap [] db hostIds) ∘ change) probe) :=
    fun probe hprobe => hcontinues probe (mem_listRecentForHosts hprobe)
  have hmap : firstPerBinding [] ((db.listRecentForHosts hostIds).map
      (loaded (getProbeEvidenceMap [] db hostIds) ∘ change)) =
        (firstPerBinding [] (db.listRecentForHosts hostIds)).map
          (loaded (getProbeEvidenceMap [] db hostIds) ∘ change) :=
    firstPerBinding_map hlisted
  rw [getProbeEvidenceMap, listRecentForHosts_map hprobes hchange, List.map_map, hmap,
    ← getProbeEvidenceMap_nil]
  -- The probes it kept are the ones the session references.
  have hkept : ∀ probe ∈ getProbeEvidenceMap [] db hostIds,
      (loaded (getProbeEvidenceMap [] db hostIds) ∘ change) probe = probe := by
    intro probe hprobe
    rw [Function.comp_apply, loaded_change hids hchange (mem_getProbeEvidenceMap hprobe),
        if_pos hprobe]
  rw [List.map_congr_left hkept, List.map_id']

theorem answers_iff (hids : (db.probes.map HostProbe.id).Nodup) {change : HostProbe → HostProbe}
    (hprobes : later.probes = db.probes.map change)
    (hchange : ∀ row ∈ db.probes, row.Continues (change row)) {probe : HostProbe}
    (hprobe : probe ∈ db.probes) : later.Answers probe ↔ ¬ (change probe).Open := by
  constructor
  · rintro ⟨row, hrow, hid, hfinal⟩
    rw [hprobes] at hrow
    obtain ⟨old, hold, rfl⟩ := List.mem_map.mp hrow
    obtain rfl := List.inj_on_of_nodup_map hids hold hprobe ((hchange old hold).id.symm.trans hid)
    exact hfinal
  · intro hfinal
    exact ⟨change probe, hprobes ▸ List.mem_map_of_mem hprobe, (hchange probe hprobe).id, hfinal⟩

/-- The value of a port is right unless its latest probe is held open and has been answered. -/
theorem heldBindProbe_eq_iff (hids : (db.probes.map HostProbe.id).Nodup) (h : db.GoesOn later)
    (row : CentralReservation) (now : ℤ) :
    heldBindProbe (getProbeEvidenceMap [] db [hostId]) later hostId row now =
        later.probeEvidence hostId row.port row.protocol row.probedAddress now ↔
      ∀ probe, db.findLatestForBinding hostId row.port row.protocol row.probedAddress = some probe →
        probe ∈ getProbeEvidenceMap [] db [hostId] → probe.Open → ¬ later.Answers probe := by
  obtain ⟨change, hprobes, hchange⟩ := h.probes
  rw [heldBindProbe, Db.probeEvidence, findLatestForBinding_map hprobes hchange]
  cases hlatest : db.findLatestForBinding hostId row.port row.protocol row.probedAddress with
  | none => exact ⟨fun _ probe hprobe => (by cases hprobe), fun _ => rfl⟩
  | some probe =>
      have hprobe : probe ∈ db.probes := (findLatestForBinding_spec hlatest).1
      rw [Option.map_some, Option.map_some, loaded_change hids hchange hprobe]
      simp only [Option.some.injEq, forall_eq']
      rw [answers_iff hids hprobes hchange hprobe, not_not]
      by_cases hheld : probe ∈ getProbeEvidenceMap [] db [hostId]
      · rw [if_pos hheld]
        by_cases hopen : probe.Open
        · rw [classifyBindProbe_eq_notRemoteCapable.mpr hopen, eq_comm,
            classifyBindProbe_eq_notRemoteCapable]
          exact ⟨fun hlater _ _ => hlater, fun hlater => hlater hheld hopen⟩
        · rw [(hchange probe hprobe).final hopen]
          exact ⟨fun _ _ hopen' => (hopen hopen').elim, fun _ => rfl⟩
      · rw [if_neg hheld]
        exact ⟨fun _ hheld' => (hheld hheld').elim, fun _ => rfl⟩

end First

/-- A loop whose evidence does not change takes all the time there is. -/
theorem pollEvidence_stuck {hostId : Uuid} {rows : List CentralReservation} {contents : ℕ → Db}
    {held : List HostProbe}
    (hstays : ∀ poll, getProbeEvidenceMap held (contents poll) [hostId] = held)
    (hopen : allDone held hostId rows = false) (left poll : ℕ) :
    pollEvidence hostId rows contents left poll held = (poll + left, held) := by
  induction left generalizing poll with
  | zero => rfl
  | succ left ih =>
      rw [pollEvidence, hstays poll]
      simp only [hopen, Bool.false_eq_true, if_false]
      rw [ih, Nat.add_right_comm, Nat.add_assoc]

/-! ## The call as a whole -/

theorem adds_queueProbes (env : Environment) (hostId : Uuid) (rows : List CentralReservation) :
    (queueProbes env hostId rows).Adds Write.SparesReservations := by
  induction rows with
  | nil => trivial
  | cons row rows ih =>
      refine Program.Adds.bind ?_ fun probe => ih.bind fun probes => trivial
      refine observes_clock.adds.bind fun now => observes_select.adds.bind fun host => ?_
      cases host with
      | none => trivial
      | some host =>
          simp only
          split
          · trivial
          · refine observes_select.adds.bind fun existing => ?_
            split
            · trivial
            · refine observes_select.adds.bind fun active => ?_
              split
              · trivial
              · refine observes_newUuid.adds.bind fun id =>
                    observes_serverNow.adds.bind fun createdAt => ?_
                exact ⟨fun _ => rfl, adds_flush.bind fun _ => trivial⟩

theorem adds_beginVerification (env : Environment) (allocationId : Uuid) :
    (beginVerification env allocationId).Adds Write.SparesReservations := by
  refine observes_select.adds.bind fun row => ?_
  cases row with
  | none => trivial
  | some allocation =>
      refine observes_select.adds.bind fun ownRows => ?_
      refine (adds_queueProbes env _ _).bind fun queued => adds_commit.bind fun _ => ?_
      refine observes_select.adds.bind fun host => ?_
      cases host with
      | none => trivial
      | some host =>
          have hvalidation : (buildValidation env host .notRemoteCapable).Adds
              Write.SparesReservations := observes_clock.adds.bind fun now => trivial
          exact hvalidation.bind fun _ => trivial

/-- The rows a verification works on are those of its allocation. -/
theorem ownRows_begun (env : Environment) {request : Turn Uuid Draw} {db : Db} {begun : Begun}
    (h : request.answer store (beginVerification env) db = .ok begun) :
    begun.ownRows =
      (request.next store (beginVerification env) db).ownRows begun.allocation := by
  have hlisted : (beginVerification env request.call).Ensures store (Program.alone store db)
      (fun _ => True) (Session.start request.draws request.faults) fun _ result =>
        ∀ begun, result = .ok begun → begun.ownRows = db.ownRows begun.allocation := by
    have hs := blank_start request.draws request.faults
    simp only [beginVerification, Program.bind_eq, Program.ensures_bind, ensures_select]
    intro seen hseen
    rw [hs.view_eq hseen]
    cases db.getAllocation request.call with
    | none => exact fun _ hbegun => by cases hbegun
    | some allocation =>
        simp only [Program.ensures_bind, ensures_select]
        intro seen hseen
        rw [hs.view_eq hseen]
        refine (((Program.adds_true _).ensures fun _ _ => trivial)).mono fun s' result _ => ?_
        cases result with
        | error failure => exact fun _ hbegun => by cases hbegun
        | ok queued =>
            simp only [ensures_commit]
            refine ⟨trivial, fun _ _ _ seen _ => ?_, fun _ _ _ _ _ hbegun => by cases hbegun⟩
            cases (Session.view store _ seen).getHost allocation.hostId with
            | none => exact fun _ hbegun => by cases hbegun
            | some host =>
                rintro _ ⟨⟩
                rfl
  obtain ⟨s, -, hrows⟩ := Turn.next_eq_of_ensures request hlisted
  have hreservations : (request.next store (beginVerification env) db).reservations =
      db.reservations := reservations_exec (adds_beginVerification env request.call) _ _ db
  rw [hrows begun h, Db.ownRows, Db.ownRows, Db.listReservations, Db.listReservations,
    Db.hostReservations, Db.hostReservations, hreservations]

/-- Evidence with a result for every row holds no open probe for one. -/
theorem not_open_of_allDone {db : Db} {hostId : Uuid} {rows : List CentralReservation}
    (hdone : allDone (getProbeEvidenceMap [] db [hostId]) hostId rows = true)
    {row : CentralReservation} (hrow : row ∈ rows) {probe : HostProbe}
    (hmem : probe ∈ getProbeEvidenceMap [] db [hostId]) (hfor : probe.IsForRow hostId row) :
    ¬ probe.Open := by
  have hrowDone := List.all_eq_true.mp hdone row hrow
  rw [rowDone] at hrowDone
  split at hrowDone
  · cases hrowDone
  · next other hfind =>
      have hother : other.IsForRow hostId row := by simpa using List.find?_some hfind
      have hpairwise : (getProbeEvidenceMap [] db [hostId]).Pairwise fun other probe =>
          ¬ probe.SameBinding other := by
        rw [getProbeEvidenceMap_nil]
        exact firstPerBinding_pairwise List.Pairwise.nil
      have hsymm : Std.Symm fun other probe : HostProbe => ¬ probe.SameBinding other := by
        refine ⟨?_⟩
        rintro first second hdiffers ⟨hhost, hport, hprotocol, haddress⟩
        exact hdiffers ⟨hhost.symm, hport.symm, hprotocol.symm, haddress.symm⟩
      have hsame : probe = other := by
        by_contra hne
        exact hpairwise.forall hmem (List.mem_of_find?_eq_some hfind) hne
          (hother.sameBinding hfor)
      rw [hsame]
      simpa using hrowDone

/-- Which answers the ports of a verification that has polled are right for. -/
theorem committed_iff {begun : Begun} {db later : Db} (hids : (db.probes.map HostProbe.id).Nodup)
    (h : db.GoesOn later) (hrows : later.ownRows begun.allocation = begun.ownRows)
    (now : CentralReservation → ℤ) :
    (∀ entry ∈ (later.ownRows begun.allocation).map fun row =>
      (row, heldBindProbe (getProbeEvidenceMap [] db [begun.allocation.hostId]) later
        begun.allocation.hostId row (now row)),
      entry.2 = later.probeEvidence begun.allocation.hostId entry.1.port entry.1.protocol
        entry.1.probedAddress (now entry.1)) ↔
      ∀ row ∈ begun.ownRows, ∀ probe, db.findLatestForBinding begun.allocation.hostId row.port
        row.protocol row.probedAddress = some probe →
          probe ∈ getProbeEvidenceMap [] db [begun.allocation.hostId] → probe.Open →
            ¬ later.Answers probe := by
  rw [hrows, List.forall_mem_map]
  exact forall₂_congr fun row _ => heldBindProbe_eq_iff hids h row (now row)

/-- A verification sees the agents' answers if and only if it needs none that comes during
its wait. -/
theorem seesAnswers_iff (env : Environment) {request : Turn Uuid Draw} {db : Db} {begun : Begun}
    (hbegun : request.answer store (beginVerification env) db = .ok begun)
    (hids : ((request.next store (beginVerification env) db).probes.map HostProbe.id).Nodup)
    {arrivals : ℕ → List (Turn ProbeCall Draw)}
    (hagents : ∀ poll, ∀ turn ∈ arrivals poll, turn.call.FromAgent) (limit : ℕ)
    (now : CentralReservation → ℤ) :
    SeesAnswers begun (contentsAt env arrivals (request.next store (beginVerification env) db))
        limit
        now (finishVerification begun
          (contentsAt env arrivals (request.next store (beginVerification env) db)) limit now) ↔
      NeedsNoLaterAnswer begun
        (contentsAt env arrivals (request.next store (beginVerification env) db)) limit := by
  have hrows := ownRows_begun env hbegun
  have hgoes := goesOn_contentsAt env hagents hids
  generalize request.next store (beginVerification env) db = start at hids hrows hgoes
  generalize contentsAt env arrivals start = contents at hgoes
  have hfirst : start.GoesOn (contents 0) := (hgoes 0).1
  have hids₀ : ((contents 0).probes.map HostProbe.id).Nodup := hfirst.ids ▸ hids
  have hown (poll : ℕ) : (contents poll).ownRows begun.allocation = begun.ownRows := by
    rw [((hgoes poll).1.trans (hgoes poll).2).ownRows, hrows]
  -- A wait that reads each row once.
  have hunread (hfinish : finishVerification begun contents limit now =
      { polls := 0, bindProbes := ((contents 0).ownRows begun.allocation).map fun row =>
          (row, heldBindProbe [] (contents 0) begun.allocation.hostId row (now row)) }) :
      SeesAnswers begun contents limit now (finishVerification begun contents limit now) := by
    rw [hfinish]
    refine ⟨fun entry hentry => ?_, fun poll _ _ => Nat.zero_le _⟩
    obtain ⟨row, -, rfl⟩ := List.mem_map.mp hentry
    simp only [heldBindProbe, Db.probeEvidence]
    congr 1
    exact Option.map_id'
  by_cases hhealthy : begun.hostHealthState = .healthy
  swap
  · refine iff_of_true (hunread ?_) (.inl hhealthy)
    rw [finishVerification, if_pos hhealthy]
  cases limit with
  | zero =>
      refine iff_of_true (hunread ?_) (.inr (.inl rfl))
      rw [finishVerification, if_neg (not_not.mpr hhealthy)]
      rfl
  | succ left =>
      have hstays (poll : ℕ) := getProbeEvidenceMap_stays hids₀ (hgoes poll).2
          [begun.allocation.hostId]
      have hpolls (polls : ℕ) (hpolls : pollEvidence begun.allocation.hostId begun.ownRows contents
          (left + 1) 0 [] = (polls, getProbeEvidenceMap [] (contents 0)
              [begun.allocation.hostId])) :
          SeesAnswers begun contents (left + 1) now
              (finishVerification begun contents (left + 1) now) ↔
            (∀ row ∈ begun.ownRows, ∀ probe, (contents 0).findLatestForBinding
              begun.allocation.hostId row.port row.protocol row.probedAddress = some probe →
                probe ∈ getProbeEvidenceMap [] (contents 0) [begun.allocation.hostId] →
                  probe.Open → ¬ (contents polls).Answers probe) ∧
            ∀ poll < left + 1, (∀ probe ∈ begun.queued, (contents poll).Answers probe) →
              polls ≤ poll + 1 := by
        rw [← committed_iff hids₀ (hgoes polls).2 (hown polls) now, finishVerification,
          if_neg (not_not.mpr hhealthy), hpolls]
        exact ⟨fun h => ⟨h.committed, h.early⟩, fun h => ⟨h.1, h.2⟩⟩
      by_cases hdone : allDone (getProbeEvidenceMap [] (contents 0) [begun.allocation.hostId])
          begun.allocation.hostId begun.ownRows = true
      · refine iff_of_true ((hpolls 1 ?_).mpr ⟨?_, fun poll _ _ => Nat.le_add_left 1 poll⟩)
          (.inr (.inr (.inl hdone)))
        · rw [pollEvidence]
          simp only [hdone, if_true, Nat.zero_add]
        · intro row hrow probe hlatest hmem hopen
          have hfor : probe.IsForRow begun.allocation.hostId row :=
            (findLatestForBinding_spec hlatest).2.1
          exact (not_open_of_allDone hdone hrow hmem hfor hopen).elim
      · rw [hpolls (left + 1) ?_]
        · have hwait : (∀ poll < left + 1, (∀ probe ∈ begun.queued, (contents poll).Answers probe) →
              left + 1 ≤ poll + 1) ↔
              ∀ poll, poll + 1 < left + 1 → ∃ probe ∈ begun.queued,
                  ¬ (contents poll).Answers probe := by
            refine forall_congr' fun poll => ?_
            constructor
            · intro hearly hlast
              by_contra hall
              push Not at hall
              have hend := hearly (by omega) hall
              omega
            · intro hmissing _ hall
              by_contra hlast
              obtain ⟨probe, hprobe, hopen⟩ := hmissing (by omega)
              exact hopen (hall probe hprobe)
          rw [hwait, NeedsNoLaterAnswer]
          simp [hhealthy, hdone]
        · rw [pollEvidence]
          simp only [hdone, Bool.false_eq_true, if_false]
          rw [pollEvidence_stuck hstays (by simpa using hdone)]
          simp [Nat.add_comm]

/-- The allocation of one port that is verified. -/
def verifiedAllocation : Allocation where
  id := ⟨5⟩
  hostId := sampleHost.id
  project := "shop"
  status := .active
  releasedAt := none
  requestId := none
  requestPayloadHash := none
  createdAt := 0

/-- Its reservation of port 8000. -/
def verifiedRow : CentralReservation where
  id := ⟨6⟩
  hostId := sampleHost.id
  port := 8000
  protocol := .tcp
  bindAddress := none
  project := "shop"
  service := none
  purpose := some "api"
  notes := none
  localReservationId := none
  allocationId := some verifiedAllocation.id
  requestName := some "api"

def verifiedDb : Db :=
  { sampleDb with allocations := [verifiedAllocation], reservations := [verifiedRow] }

/-- The verification begins at instant 10. -/
def verifyRequest : Turn Uuid Draw :=
  ⟨verifiedAllocation.id, fun j => ⟨10, ⟨BitVec.ofNat 128 (10 + j)⟩, 10⟩, fun _ => none⟩

/-- The agent claims the probe and answers it before the poll of the given number. -/
def answersBefore (number : ℕ) (poll : ℕ) : List (Turn ProbeCall Draw) :=
  if poll = number then
    [turnAt 20 (.claim sampleHost.id),
      turnAt 30 (.submit sampleHost.id ⟨BitVec.ofNat 128 11⟩ (some true) none)]
  else []

/-- What the verification knows when its wait begins. -/
def sampleBegun : Begun where
  allocation := verifiedAllocation
  ownRows := [verifiedRow]
  queued :=
    [{ id := ⟨BitVec.ofNat 128 11⟩
       hostId := sampleHost.id
       port := 8000
       protocol := .tcp
       bindAddress := defaultBindAddress
       status := .pending
       resultAvailable := none
       expiresAt := 10 + sampleEnvironment.settings.remoteProbeTtlSeconds * 1000000
       createdAt := 10 }]
  hostHealthState := .healthy

theorem answer_verifyRequest :
    verifyRequest.answer store (beginVerification sampleEnvironment) verifiedDb =
        .ok sampleBegun := rfl

theorem agents_answersBefore (number poll : ℕ) :
    ∀ turn ∈ answersBefore number poll, turn.call.FromAgent := by
  intro turn hturn
  rw [answersBefore] at hturn
  split at hturn
  · rcases List.mem_cons.mp hturn with rfl | hturn
    · trivial
    · rw [List.mem_singleton.mp hturn]
      trivial
  · cases hturn

/-- What is committed when the agent answers before a poll. -/
def sampleContents (number : ℕ) : ℕ → Db :=
  contentsAt sampleEnvironment (answersBefore number)
    (verifyRequest.next store (beginVerification sampleEnvironment) verifiedDb)

/-- An answer that is there at the first poll is seen. -/
theorem seesAnswers_iff_sample :
    SeesAnswers sampleBegun (sampleContents 0) 2 (fun _ => 40)
        (finishVerification sampleBegun (sampleContents 0) 2 fun _ => 40) ↔
      NeedsNoLaterAnswer sampleBegun (sampleContents 0) 2 :=
  seesAnswers_iff sampleEnvironment answer_verifyRequest (by decide) (agents_answersBefore 0) 2 _

/-- The agent answers between the first poll and the second: the port is reported as one
without evidence, and the wait goes on. -/
theorem verification_unseen :
    (finishVerification sampleBegun (sampleContents 1) 4 fun _ => 40).polls = 4 ∧
      (∀ probe ∈ sampleBegun.queued, (sampleContents 1 1).Answers probe) ∧
      ¬ SeesAnswers sampleBegun (sampleContents 1) 4 (fun _ => 40)
        (finishVerification sampleBegun (sampleContents 1) 4 fun _ => 40) := by
  refine ⟨rfl, by decide, fun h => ?_⟩
  have hvalue := h.committed (verifiedRow, .notRemoteCapable) (List.mem_singleton.mpr rfl)
  have hcommitted : (sampleContents 1 4).probeEvidence sampleHost.id 8000 .tcp
      defaultBindAddress 40 = .verifiedFree := rfl
  exact absurd (hvalue.trans hcommitted) (by decide)

end Central
