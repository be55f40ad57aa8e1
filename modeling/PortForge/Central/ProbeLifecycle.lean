/-
# The life of a probe

Probes are queued, delivered and answered, one call after another. What a call that runs
alone commits is described by `ProbeChanges`. Along a run whose clock moves on from call to
call the number of active probes of a host stays bounded, a binding has one active probe at
most, a probe is delivered once at most and only its host's agent answers it, once. A
verdict on a binding rests on the latest of its probes and on the answer to it.
-/

import PortForge.Central.Heartbeats
import PortForge.Central.UpgradeLaw
import PortForge.Transaction.Turns

namespace Central

open Transaction

/-- A call that concerns probes, or tells that a host is alive. -/
inductive ProbeCall
  | record (hostId : Uuid) (heartbeat : HeartbeatIn)
  | queue (hostId : Uuid) (port : ℕ) (protocol : Protocol) (bindAddress : String)
  | claim (hostId : Uuid)
  | submit (authenticatedHostId probeId : Uuid) (available : Option Bool) (reason : Option String)

/-- What a call answers. -/
inductive ProbeAnswer
  | recorded
  | queued (probe : Option HostProbe)
  | claimed (probes : List HostProbe)
  | submitted (probe : HostProbe)

/-- What a call runs: a queued probe is committed by the caller. -/
def ProbeCall.program (env : Environment) : ProbeCall → Service ProbeAnswer
  | record hostId heartbeat =>
      (recordHeartbeat env hostId heartbeat).bind fun _ => .ret .recorded
  | queue hostId port protocol bindAddress =>
      (queueProbe env none hostId port protocol bindAddress).bind fun probe =>
        commit.bind fun _ => .ret (.queued probe)
  | claim hostId => (claimPendingProbes env hostId).bind fun probes => .ret (.claimed probes)
  | submit authenticatedHostId probeId available reason =>
      (submitResult authenticatedHostId probeId available reason).bind fun probe =>
        .ret (.submitted probe)

namespace HostProbe

/-- The probe is for the binding. -/
def IsFor (row : HostProbe) (hostId : Uuid) (port : ℕ) (protocol : Protocol)
    (bindAddress : String) : Prop :=
  row.hostId = hostId ∧ row.port = port ∧ row.protocol = protocol ∧ row.bindAddress = bindAddress

/-- The probes are for one binding. -/
def SameBinding (row other : HostProbe) : Prop :=
  row.IsFor other.hostId other.port other.protocol other.bindAddress

/-- The probe has no result yet. -/
def Open (row : HostProbe) : Prop := row.status = .pending ∨ row.status = .delivered

/-- The probe has no result yet and has not expired. -/
def Active (row : HostProbe) (now : ℤ) : Prop := row.Open ∧ now ≤ row.expiresAt

theorem IsFor.sameBinding {row other : HostProbe} {hostId : Uuid} {port : ℕ} {protocol : Protocol}
    {bindAddress : String} (h : row.IsFor hostId port protocol bindAddress)
    (hother : other.IsFor hostId port protocol bindAddress) : row.SameBinding other := by
  obtain ⟨rfl, rfl, rfl, rfl⟩ := hother
  exact h

instance (row : HostProbe) : Decidable row.Open := inferInstanceAs (Decidable (_ ∨ _))

instance (row : HostProbe) (now : ℤ) : Decidable (row.Active now) :=
  inferInstanceAs (Decidable (_ ∧ _))

end HostProbe

/-- How far a probe is: asked for, delivered, answered. -/
def ProbeStatus.rank : ProbeStatus → ℕ
  | pending => 0
  | delivered => 1
  | completed => 2
  | failed => 2

/-- A probe as `queue_probe` creates it. -/
structure HostProbe.IsQueued (row : HostProbe) (env : Environment) (draws : ℕ → Draw)
    (hostId : Uuid) (port : ℕ) (protocol : Protocol) (bindAddress : String) : Prop where
  binding : row.IsFor hostId port protocol bindAddress
  pending : row.status = .pending
  created : ∃ j, row.createdAt = (draws j).serverNow

/-- What a call that runs alone on `db` commits. -/
inductive ProbeChanges (env : Environment) (draws : ℕ → Draw) (db : Db) :
    ProbeCall → List Write → Prop
  | nothing (call : ProbeCall) : ProbeChanges env draws db call []
  | queued (hostId : Uuid) (port : ℕ) (protocol : Protocol) (bindAddress : String)
      (row : HostProbe) (hrow : row.IsQueued env draws hostId port protocol bindAddress)
      (hlatest : ∀ existing, db.findLatestForBinding hostId port protocol bindAddress =
        some existing → ¬ existing.Active (draws 0).now)
      (hcap : db.countActiveForHost hostId (draws 0).now < env.settings.maxPendingProbesPerHost)
      (hfresh : ∀ old ∈ db.probes, old.id ≠ row.id) :
      ProbeChanges env draws db (.queue hostId port protocol bindAddress) [.insertProbe row]
  | claimed (hostId : Uuid) (limit : ℕ) :
      ProbeChanges env draws db (.claim hostId)
        ((db.listPendingProbes hostId (draws 0).now limit).map fun row =>
          .deliverProbe row.id (draws 0).now)
  | submitted (row : HostProbe) (available : Option Bool) (reason : Option String)
      (hrow : db.getProbe row.id = some row) (hopen : row.Open) :
      ProbeChanges env draws db (.submit row.hostId row.id available reason)
        [.answerProbe row.id (draws 0).now available reason]

/-! ## The calls, run alone -/

section Alone

variable {guar : ServiceSession → Prop} {db : Db} {draws : ℕ → Draw}
  {faults : ℕ → Option DbError}

/-- What a call leaves: one of its batches is committed, and probes it answers with as
claimed are marked as delivered. -/
def Leaves (env : Environment) (draws : ℕ → Draw) (db : Db) (call : ProbeCall)
    (s' : ServiceSession) (result : Except Failure ProbeAnswer) : Prop :=
  ProbeChanges env draws db call s'.committedWrites ∧
    ∀ probes, result = .ok (.claimed probes) →
      s'.committedWrites = probes.map (fun row => .deliverProbe row.id (draws 0).now) ∧
        ∃ hostId limit, probes = db.listPendingProbes hostId (draws 0).now limit

theorem leaves_error (env : Environment) {call : ProbeCall} {s : ServiceSession}
    {failure : Failure} (h : s.committedWrites = []) :
    Leaves env draws db call s (.error failure) :=
  ⟨h ▸ .nothing call, nofun⟩

theorem filter_active {probe : Option HostProbe} {now : ℤ} :
    (probe.filter fun row => (row.status = .pending ∨ row.status = .delivered) ∧
        now ≤ row.expiresAt) = none ↔ ∀ row, probe = some row → ¬ row.Active now := by
  cases probe with
  | none => simp
  | some row =>
      simp only [Option.filter_eq_none_iff, Option.some.injEq, decide_eq_true_eq, HostProbe.Active,
        HostProbe.Open]

/-- The end of a queueing call: the caller commits. -/
theorem leaves_commit (env : Environment) {call : ProbeCall} {s : ServiceSession}
    (hguar : ∀ s, guar s) (hcommitted : s.committedWrites = []) {probe : Option HostProbe}
    (hchanges : ProbeChanges env draws db call s.batch) :
    (commit.bind fun _ => .ret (.queued probe)).Ensures store (Program.alone store db) guar s
      (Leaves env draws db call) := by
  rw [Program.ensures_bind, ensures_commit]
  refine ⟨hguar s, fun _ _ _ => ⟨?_, nofun⟩, fun _ error _ _ => leaves_error env ?_⟩
  · rw [Session.committedWrites_afterCommit, hcommitted]
    exact hchanges
  · rw [Session.committedWrites_afterFailure, hcommitted]

theorem leaves_queue (env : Environment) (hguar : ∀ s, guar s) (hostId : Uuid) (port : ℕ)
    (protocol : Protocol) (bindAddress : String) :
    ((ProbeCall.queue hostId port protocol bindAddress).program env).Ensures store
      (Program.alone store db) guar (Session.start draws faults)
      (Leaves env draws db (.queue hostId port protocol bindAddress)) := by
  let s₁ : ServiceSession := (Session.start draws faults).afterDraw
  have hs₁ : Blank s₁ := ⟨rfl, rfl⟩
  have hnothing (probe : Option HostProbe) :
      (commit.bind fun _ => .ret (.queued probe)).Ensures store (Program.alone store db) guar s₁
        (Leaves env draws db (.queue hostId port protocol bindAddress)) :=
    leaves_commit env hguar rfl (.nothing _)
  simp only [ProbeCall.program, queueProbe, findHost, Program.bind_eq, Program.bind_assoc,
    Program.ensures_bind, ensures_clock, ensures_select]
  intro seen hseen
  rw [show (Session.start draws faults : ServiceSession).afterDraw = s₁ from rfl, hs₁.view_eq hseen]
  cases db.getHost hostId with
  | none => exact hnothing none
  | some host =>
      simp only
      split
      · exact hnothing none
      · simp only [queueForHealthy, Program.bind_eq, Program.ensures_bind, ensures_select]
        intro seen hseen
        rw [hs₁.view_eq hseen]
        split
        · exact hnothing _
        · next hnone =>
            simp only [Program.ensures_bind, ensures_select]
            intro seen hseen
            rw [hs₁.view_eq hseen]
            split
            · exact hnothing none
            · next hcap =>
                simp only [insertProbe, Program.bind_eq, Program.ensures_bind, ensures_newUuid,
                  ensures_serverNow, ensures_add, ensures_flush]
                refine ⟨fun seen hseen haccepted => ?_, fun _ error _ _ => leaves_error env ?_⟩
                · refine leaves_commit env hguar rfl ?_
                  have hrefused := Session.refusesAll_of_flushError haccepted
                  have hseen' : seen = db := hseen
                  rw [hseen'] at hrefused
                  have hrow := (Store.refusesAll_cons_eq_none store).mp hrefused |>.1
                  refine .queued hostId port protocol bindAddress _ ⟨⟨rfl, rfl, rfl, rfl⟩,
                      rfl, 2, rfl⟩
                    (filter_active.mp hnone) (not_le.mp hcap) fun old hold => ?_
                  simp only [store, Write.refused] at hrow
                  split at hrow
                  · cases hrow
                  · split at hrow
                    · cases hrow
                    · next hany =>
                        rw [Bool.not_eq_true, List.any_eq_false] at hany
                        exact fun hsame => hany old hold (decide_eq_true hsame)
                · rw [Session.committedWrites_afterFailure]
                  rfl

theorem ensures_deliverProbes (now : ℤ) (probes : List HostProbe) {s : ServiceSession} :
    (deliverProbes now probes).Ensures store (Program.alone store db) guar s fun s' result =>
      result = .ok () ∧ s' = { s with
        pending := s.pending ++ probes.map fun row => .deliverProbe row.id now } := by
  induction probes generalizing s with
  | nil => exact ⟨rfl, by simp⟩
  | cons probe probes ih =>
      simp only [deliverProbes, Program.bind_eq, Program.ensures_bind, ensures_add]
      refine Program.Ensures.mono ih ?_
      rintro _ _ ⟨hresult, rfl⟩
      exact ⟨hresult, by simp [Session.afterAdd]⟩

theorem leaves_claim (env : Environment) (hguar : ∀ s, guar s) (hostId : Uuid) :
    ((ProbeCall.claim hostId).program env).Ensures store (Program.alone store db) guar
      (Session.start draws faults) (Leaves env draws db (.claim hostId)) := by
  let s₁ : ServiceSession := (Session.start draws faults).afterDraw
  have hs₁ : Blank s₁ := ⟨rfl, rfl⟩
  simp only [ProbeCall.program, claimPendingProbes, Program.bind_eq, Program.bind_assoc,
    Program.ensures_bind, ensures_clock, ensures_select]
  intro seen hseen
  rw [show (Session.start draws faults : ServiceSession).afterDraw = s₁ from rfl, hs₁.view_eq hseen]
  change Program.Ensures store _ _ (deliverProbes (draws 0).now
    (db.listPendingProbes hostId (draws 0).now _)) s₁ _
  refine (ensures_deliverProbes _ _).mono ?_
  rintro _ _ ⟨rfl, rfl⟩
  simp only
  split
  · next hnone =>
      refine ⟨.nothing _, fun probes hprobes =>
        ⟨?_, hostId, env.settings.maxProbesDeliveredPerHeartbeat, ?_⟩⟩
      · cases hprobes
        rw [hnone]
        rfl
      · cases hprobes
        rfl
  · simp only [Program.ensures_bind, ensures_commit]
    refine ⟨hguar _, fun _ _ _ => ⟨?_, fun probes hprobes => ?_⟩, fun _ error _ _ =>
        leaves_error env ?_⟩
    · rw [Session.committedWrites_afterCommit]
      exact .claimed hostId env.settings.maxProbesDeliveredPerHeartbeat
    · cases hprobes
      rw [Session.committedWrites_afterCommit]
      exact ⟨rfl, hostId, env.settings.maxProbesDeliveredPerHeartbeat, rfl⟩
    · rw [Session.committedWrites_afterFailure]
      rfl

theorem observes_refreshProbe (probeId : Uuid) : (refreshProbe probeId).Observes := by
  refine observes_select.bind fun row => ?_
  cases row <;> trivial

theorem leaves_submit (env : Environment) (hguar : ∀ s, guar s) (authenticatedHostId probeId : Uuid)
    (available : Option Bool) (reason : Option String) :
    ((ProbeCall.submit authenticatedHostId probeId available reason).program env).Ensures store
      (Program.alone store db) guar (Session.start draws faults)
      (Leaves env draws db (.submit authenticatedHostId probeId available reason)) := by
  have hs := blank_start draws faults
  simp only [ProbeCall.program, submitResult, Program.bind_eq, Program.bind_assoc,
    Program.ensures_bind, ensures_select]
  intro seen hseen
  rw [hs.view_eq hseen]
  cases hget : db.getProbe probeId with
  | none => exact leaves_error env rfl
  | some row =>
      obtain rfl : row.id = probeId := by simpa [Db.getProbe] using List.find?_some hget
      simp only [submitFor]
      split
      · exact leaves_error env rfl
      · next howner =>
          obtain rfl : row.hostId = authenticatedHostId := not_not.mp howner
          split
          · exact ⟨.nothing _, fun _ h => by cases h⟩
          · next hfinal =>
              have hopen : row.Open := by
                rw [not_or] at hfinal
                cases hstatus : row.status with
                | pending => exact .inl hstatus
                | delivered => exact .inr hstatus
                | completed => exact (hfinal.1 hstatus).elim
                | failed => exact (hfinal.2 hstatus).elim
              simp only [Program.bind_eq, Program.ensures_bind, ensures_clock, ensures_add,
                ensures_commit]
              refine ⟨hguar _, fun _ _ _ => ?_, fun _ error _ _ => leaves_error env ?_⟩
              · have hchanges : ProbeChanges env draws db (.submit row.hostId row.id
                    available reason)
                    [.answerProbe row.id (draws 0).now available reason] :=
                  .submitted row available reason hget hopen
                refine Program.Ensures.mono (observes_refreshProbe row.id).ensures ?_
                rintro _ (error | value) ⟨_, rfl⟩ <;>
                  exact ⟨hchanges, fun _ h => by cases h⟩
              · rw [Session.committedWrites_afterFailure]
                rfl

theorem Blank.forall_batch {s : ServiceSession} (hs : Blank s) {P : Write → Prop} :
    ∀ write ∈ s.batch, P write := by
  rw [hs.batch]
  exact List.forall_mem_nil P

/-- A heartbeat that is recorded changes no probe. -/
theorem probes_record (env : Environment) (hostId : Uuid) (heartbeat : HeartbeatIn)
    (draws : ℕ → Draw) (faults : ℕ → Option DbError) :
    (((ProbeCall.record hostId heartbeat).program env).exec store (Session.start draws faults)
      db).db.probes = db.probes := by
  have hadds : ((ProbeCall.record hostId heartbeat).program env).Adds Write.IsRecording :=
    (adds_recordHeartbeat env hostId heartbeat).bind fun _ => trivial
  refine hadds.exec_induction (motive := fun later => later.probes = db.probes)
    (blank_start draws faults).forall_batch rfl fun write contents hrecording hsame => ?_
  rw [← hsame]
  cases write <;> first | rfl | exact hrecording.elim

theorem answer_record (env : Environment) (hostId : Uuid) (heartbeat : HeartbeatIn)
    (draws : ℕ → Draw) (faults : ℕ → Option DbError) :
    ((ProbeCall.record hostId heartbeat).program env).Ensures store (Program.alone store db)
      (fun _ => True) (Session.start draws faults) fun _ result => ∀ probes,
          result ≠ .ok (.claimed probes) := by
  rw [ProbeCall.program, Program.ensures_bind]
  refine ((adds_recordHeartbeat env hostId heartbeat).ensures
    (blank_start draws faults).forall_batch).mono fun _ result _ => ?_
  cases result with
  | ok host | error failure => exact fun probes hprobes => by cases hprobes

end Alone

/-! ## What the writes make of the probes -/

/-- How a call may change a probe. -/
inductive ProbeStep (call : ProbeCall) (row : HostProbe) : HostProbe → Prop
  | same : ProbeStep call row row
  | delivered (now : ℤ) (hcall : call = .claim row.hostId) (hpending : row.status = .pending) :
      ProbeStep call row { row with status := .delivered, deliveredAt := some now }
  | answered (now : ℤ) (available : Option Bool) (reason : Option String)
      (hcall : call = .submit row.hostId row.id available reason) (hopen : row.Open) :
      ProbeStep call row (row.answered now available reason)

namespace ProbeStep

variable {call : ProbeCall} {row later : HostProbe}

theorem id (h : ProbeStep call row later) : later.id = row.id := by cases h <;> rfl

theorem hostId (h : ProbeStep call row later) : later.hostId = row.hostId := by cases h <;> rfl

theorem expiresAt (h : ProbeStep call row later) : later.expiresAt = row.expiresAt := by
  cases h <;> rfl

theorem createdAt (h : ProbeStep call row later) : later.createdAt = row.createdAt := by
  cases h <;> rfl

theorem isFor (h : ProbeStep call row later) {hostId : Uuid} {port : ℕ} {protocol : Protocol}
    {bindAddress : String} :
    later.IsFor hostId port protocol bindAddress ↔ row.IsFor hostId port protocol bindAddress := by
  cases h <;> rfl

/-- A probe that is open after a call was open before. -/
theorem open_of_open (h : ProbeStep call row later) (hlater : later.Open) : row.Open := by
  cases h with
  | same => exact hlater
  | delivered now hcall hpending => exact .inl hpending
  | answered now available reason hcall hopen => exact hopen

theorem active (h : ProbeStep call row later) {now : ℤ} (hlater : later.Active now) :
    row.Active now :=
  ⟨h.open_of_open hlater.1, h.expiresAt ▸ hlater.2⟩

/-- A probe only moves forward. -/
theorem rank (h : ProbeStep call row later) : row.status.rank ≤ later.status.rank := by
  cases h with
  | same => exact le_refl _
  | delivered now hcall hpending =>
      rw [hpending]
      exact Nat.zero_le _
  | answered now available reason hcall hopen =>
      have hfinal : (row.answered now available reason).status.rank = 2 := by
        simp only [HostProbe.answered]
        split <;> rfl
      rw [hfinal]
      rcases hopen with hstatus | hstatus <;> rw [hstatus] <;> decide

/-- A probe that has a result keeps it, and all that is recorded with it. -/
theorem eq_of_not_open (h : ProbeStep call row later) (hfinal : ¬ row.Open) : later = row := by
  cases h with
  | same => rfl
  | delivered now hcall hpending => exact (hfinal (.inl hpending)).elim
  | answered now available reason hcall hopen => exact (hfinal hopen).elim

/-- A probe that is completed says whether the port was available. -/
theorem verdict (h : ProbeStep call row later)
    (hrow : row.status = .completed → row.resultAvailable ≠ none)
    (hlater : later.status = .completed) : later.resultAvailable ≠ none := by
  cases h with
  | same => exact hrow hlater
  | delivered now hcall hpending => cases hlater
  | answered now available reason hcall hopen =>
      cases available with
      | none => cases hlater
      | some value => exact nofun

/-- Only a submission of the probe's own host answers it. -/
theorem owner (h : ProbeStep call row later) (hopen : row.Open) (hlater : ¬ later.Open) :
    ∃ available reason now, call = .submit row.hostId row.id available reason ∧
      later = row.answered now available reason := by
  cases h with
  | same => exact (hlater hopen).elim
  | delivered now hcall hpending => exact (hlater (.inr rfl)).elim
  | answered now available reason hcall _ => exact ⟨available, reason, now, hcall, rfl⟩

end ProbeStep

/-- Each probe steps. -/
def Steps (call : ProbeCall) (rows later : List HostProbe) : Prop :=
  ∃ change : HostProbe → HostProbe, later = rows.map change ∧
    ∀ row ∈ rows, ProbeStep call row (change row)

/-- A probe is queued where its host's number of active probes and the latest probe for its
binding allow it. -/
structure Queues (env : Environment) (draws : ℕ → Draw) (db : Db) (row : HostProbe) : Prop where
  pending : row.status = .pending
  created : ∃ j, row.createdAt = (draws j).serverNow
  latest : ∀ existing, db.findLatestForBinding row.hostId row.port row.protocol row.bindAddress =
    some existing → ¬ existing.Active (draws 0).now
  cap : db.countActiveForHost row.hostId (draws 0).now < env.settings.maxPendingProbesPerHost
  fresh : ∀ old ∈ db.probes, old.id ≠ row.id

theorem probes_applyAll_deliver (probes : List HostProbe) (now : ℤ) (db : Db) :
    (store.applyAll (probes.map fun row => Write.deliverProbe row.id now) db).probes =
      db.probes.map fun row =>
        if row.id ∈ probes.map HostProbe.id then
          { row with status := .delivered, deliveredAt := some now }
        else row := by
  induction probes generalizing db with
  | nil => simp
  | cons probe probes ih =>
      rw [List.map_cons, Store.applyAll_cons, ih]
      simp only [store_apply, Write.apply, List.map_map]
      refine List.map_congr_left fun row _ => ?_
      simp only [Function.comp_apply, List.map_cons, List.mem_cons]
      by_cases hsame : row.id = probe.id
      · by_cases hmem : row.id ∈ probes.map HostProbe.id <;> simp [hsame]
      · simp [hsame]

theorem mem_listPendingProbes {db : Db} {hostId : Uuid} {now : ℤ} {limit : ℕ} {row : HostProbe}
    (h : row ∈ db.listPendingProbes hostId now limit) :
    row ∈ db.probes ∧ row.hostId = hostId ∧ row.status = .pending ∧ now ≤ row.expiresAt := by
  have hsorted := List.mem_of_mem_take h
  rw [(List.perm_insertionSort _ _).mem_iff, List.mem_filter, decide_eq_true_iff] at hsorted
  exact hsorted

/-- The probes after what a call commits: each has stepped, or one more is queued. -/
theorem ProbeChanges.steps_or_queues {env : Environment} {draws : ℕ → Draw} {db : Db}
    {call : ProbeCall} {writes : List Write} (h : ProbeChanges env draws db call writes)
    (hids : (db.probes.map HostProbe.id).Nodup) :
    Steps call db.probes (store.applyAll writes db).probes ∨
      ∃ row, Queues env draws db row ∧ writes = [.insertProbe row] := by
  cases h with
  | nothing call => exact .inl ⟨id, by simp, fun _ _ => .same⟩
  | queued hostId port protocol bindAddress row hrow hlatest hcap hfresh =>
      obtain ⟨⟨rfl, rfl, rfl, rfl⟩, hpending, hcreated⟩ := hrow
      exact .inr ⟨row, ⟨hpending, hcreated, hlatest, hcap, hfresh⟩, rfl⟩
  | claimed hostId limit =>
      refine .inl ⟨_, probes_applyAll_deliver _ _ _, fun row hrow => ?_⟩
      split
      · next hmem =>
          obtain ⟨claimed, hclaimed, hid⟩ := List.mem_map.mp hmem
          obtain ⟨hold, hhost, hpending, -⟩ := mem_listPendingProbes hclaimed
          obtain rfl : claimed = row := List.inj_on_of_nodup_map hids hold hrow hid
          exact .delivered _ (by rw [hhost]) hpending
      · exact .same
  | submitted row available reason hget hopen =>
      refine .inl ⟨fun old =>
        if old.id = row.id then old.answered (draws 0).now available reason else old,
        by simp [Write.apply], fun old hold => ?_⟩
      beta_reduce
      split
      · next hid =>
          obtain rfl : old = row :=
            List.inj_on_of_nodup_map hids hold (List.mem_of_find?_eq_some hget) hid
          exact .answered _ available reason rfl hopen
      · exact .same

theorem Steps.map_eq {call : ProbeCall} {rows later : List HostProbe} (h : Steps call rows later)
    {β : Type} {f : HostProbe → β} (hf : ∀ row later, ProbeStep call row later → f later = f row) :
    later.map f = rows.map f := by
  obtain ⟨change, rfl, hchange⟩ := h
  rw [List.map_map]
  exact List.map_congr_left fun row hrow => hf row _ (hchange row hrow)

/-- Every probe there was is there afterwards, stepped. -/
theorem Steps.later {call : ProbeCall} {rows later : List HostProbe} (h : Steps call rows later)
    {row : HostProbe} (hrow : row ∈ rows) : ∃ next ∈ later, ProbeStep call row next := by
  obtain ⟨change, rfl, hchange⟩ := h
  exact ⟨change row, List.mem_map_of_mem hrow, hchange row hrow⟩

/-- Every probe there is was there before. -/
theorem Steps.before {call : ProbeCall} {rows later : List HostProbe} (h : Steps call rows later)
    {next : HostProbe} (hnext : next ∈ later) : ∃ row ∈ rows, ProbeStep call row next := by
  obtain ⟨change, rfl, hchange⟩ := h
  obtain ⟨row, hrow, rfl⟩ := List.mem_map.mp hnext
  exact ⟨row, hrow, hchange row hrow⟩

/-! ## A turn -/

section Turns

variable {env : Environment} {turn : Turn ProbeCall Draw} {db : Db}

/-- What a turn leaves of the probes, and the probes it hands out. -/
structure ProbeTurn (env : Environment) (turn : Turn ProbeCall Draw) (db : Db)
    (writes : List Write) : Prop where
  probes : (turn.next store (ProbeCall.program env) db).probes = (store.applyAll writes db).probes
  changes : ProbeChanges env turn.draws db turn.call writes
  claimed : ∀ probes, turn.answer store (ProbeCall.program env) db = .ok (.claimed probes) →
    writes = probes.map (fun row => .deliverProbe row.id (turn.draws 0).now) ∧
      ∃ hostId limit, probes = db.listPendingProbes hostId (turn.draws 0).now limit

theorem probeTurn_of_leaves
    (h : (turn.call.program env).Ensures store (Program.alone store db) (fun _ => True)
      (Session.start turn.draws turn.faults) (Leaves env turn.draws db turn.call)) :
    ∃ writes, ProbeTurn env turn db writes := by
  obtain ⟨s, hnext, hchanges, hclaimed⟩ := Turn.next_eq_of_ensures turn h
  exact ⟨s.committedWrites, ⟨by rw [hnext], hchanges, hclaimed⟩⟩

theorem probeTurn (env : Environment) (turn : Turn ProbeCall Draw) (db : Db) :
    ∃ writes, ProbeTurn env turn db writes := by
  obtain ⟨call, draws, faults⟩ := turn
  cases call with
  | record hostId heartbeat =>
      refine ⟨[], ⟨probes_record env hostId heartbeat draws faults, .nothing _,
          fun probes hprobes => ?_⟩⟩
      obtain ⟨-, -, hanswer⟩ := Turn.next_eq_of_ensures ⟨ProbeCall.record hostId heartbeat,
          draws, faults⟩
        (answer_record env hostId heartbeat draws faults)
      exact (hanswer probes hprobes).elim
  | queue hostId port protocol bindAddress =>
      exact probeTurn_of_leaves (leaves_queue env (fun _ => trivial) _ _ _ _)
  | claim hostId => exact probeTurn_of_leaves (leaves_claim env (fun _ => trivial) hostId)
  | submit authenticatedHostId probeId available reason =>
      exact probeTurn_of_leaves (leaves_submit env (fun _ => trivial) _ _ _ _)

/-- The probes a turn hands out. -/
def delivered (env : Environment) (db : Db) (turn : Turn ProbeCall Draw) : List Uuid :=
  match turn.answer store (ProbeCall.program env) db with
  | .ok (.claimed probes) => probes.map HostProbe.id
  | _ => []

/-- The probes a sequence of turns hands out. -/
def deliveries (env : Environment) : List (Turn ProbeCall Draw) → Db → List Uuid
  | [], _ => []
  | turn :: turns, db =>
      delivered env db turn ++ deliveries env turns (turn.next store (ProbeCall.program env) db)

theorem deliveries_concat (turns : List (Turn ProbeCall Draw)) (last : Turn ProbeCall Draw) :
    deliveries env (turns ++ [last]) db = deliveries env turns db ++
      delivered env (Turn.runAll store (ProbeCall.program env) turns db) last := by
  induction turns generalizing db with
  | nil => simp [deliveries]
  | cons turn turns ih => simp [deliveries, ih]

end Turns

/-! ## Along a run -/

/-- The clocks of a turn are behind those of another. -/
def Earlier (turn later : Turn ProbeCall Draw) : Prop :=
  ∀ j k, (turn.draws j).now < (later.draws k).now ∧
    (turn.draws j).serverNow < (later.draws k).serverNow

/-- The instant is not before any clock of the turns. -/
def Past (turns : List (Turn ProbeCall Draw)) (now : ℤ) : Prop :=
  ∀ turn ∈ turns, ∀ j, (turn.draws j).now ≤ now

/-- The latest of some probes is among them, and none of them was created after it. -/
theorem Db.latest_spec {probes : List HostProbe} {probe : HostProbe}
    (h : Db.latest probes = some probe) :
    probe ∈ probes ∧ ∀ other ∈ probes, other.createdAt ≤ probe.createdAt := by
  induction probes generalizing probe with
  | nil => cases h
  | cons first probes ih =>
      rw [Db.latest] at h
      cases hrest : Db.latest probes with
      | none =>
          rw [hrest] at h
          cases h
          have hnil : probes = [] := by
            cases probes with
            | nil => rfl
            | cons second probes =>
                rw [Db.latest] at hrest
                split at hrest
                · cases hrest
                · split at hrest <;> cases hrest
          subst hnil
          simp
      | some other =>
          rw [hrest] at h
          obtain ⟨hmem, hmax⟩ := ih hrest
          simp only at h
          split at h
          · next hle =>
              cases h
              refine ⟨List.mem_cons_self, List.forall_mem_cons.mpr ⟨le_refl _, fun row hrow => ?_⟩⟩
              exact (hmax row hrow).trans hle
          · next hlt =>
              cases h
              exact ⟨List.mem_cons_of_mem _ hmem,
                List.forall_mem_cons.mpr ⟨(not_le.mp hlt).le, hmax⟩⟩

theorem Db.latest_eq_none {probes : List HostProbe} (h : Db.latest probes = none) : probes =
    [] := by
  cases probes with
  | nil => rfl
  | cons probe probes =>
      rw [Db.latest] at h
      split at h
      · cases h
      · split at h <;> cases h

theorem mem_filter_isFor {db : Db} {hostId : Uuid} {port : ℕ} {protocol : Protocol}
    {bindAddress : String} {row : HostProbe} :
    row ∈ (db.probes.filter fun probe => probe.hostId = hostId ∧ probe.port = port ∧
        probe.protocol = protocol ∧ probe.bindAddress = bindAddress) ↔
      row ∈ db.probes ∧ row.IsFor hostId port protocol bindAddress := by
  rw [List.mem_filter, decide_eq_true_iff, HostProbe.IsFor]

/-- The probe a binding's evidence rests on. -/
theorem findLatestForBinding_spec {db : Db} {hostId : Uuid} {port : ℕ} {protocol : Protocol}
    {bindAddress : String} {probe : HostProbe}
    (h : db.findLatestForBinding hostId port protocol bindAddress = some probe) :
    probe ∈ db.probes ∧ probe.IsFor hostId port protocol bindAddress ∧
      ∀ other ∈ db.probes, other.IsFor hostId port protocol bindAddress →
        other.createdAt ≤ probe.createdAt := by
  obtain ⟨hmem, hmax⟩ := Db.latest_spec h
  obtain ⟨hmem, hfor⟩ := mem_filter_isFor.mp hmem
  exact ⟨hmem, hfor, fun other hother hsame => hmax other (mem_filter_isFor.mpr ⟨hother, hsame⟩)⟩

theorem findLatestForBinding_eq_none {db : Db} {hostId : Uuid} {port : ℕ} {protocol : Protocol}
    {bindAddress : String}
    (h : db.findLatestForBinding hostId port protocol bindAddress = none) :
    ∀ row ∈ db.probes, ¬ row.IsFor hostId port protocol bindAddress := by
  intro row hrow hfor
  have hnil := Db.latest_eq_none h
  exact List.not_mem_nil (hnil ▸ mem_filter_isFor.mpr ⟨hrow, hfor⟩)

/-- What the probes on file satisfy once some turns are done. -/
structure ProbesOnFile (done : List (Turn ProbeCall Draw)) (db : Db) : Prop where
  ids : (db.probes.map HostProbe.id).Nodup
  answered : ∀ row ∈ db.probes, ¬ row.Open →
    ∃ turn ∈ done, turn.call = .submit row.hostId row.id row.resultAvailable row.resultReason
  verdict : ∀ row ∈ db.probes, row.status = .completed → row.resultAvailable ≠ none

/-- What the probes on file satisfy once some turns are done, each at a later clock than those
before. -/
structure ProbesKept (env : Environment) (done : List (Turn ProbeCall Draw)) (db start : Db) :
    Prop extends ProbesOnFile done db where
  created : (db.probes.map HostProbe.createdAt).Nodup
  past : ∀ row ∈ db.probes, ∃ turn ∈ done, ∃ j, row.createdAt = (turn.draws j).serverNow
  capped : ∀ now, Past done now → ∀ hostId,
    db.countActiveForHost hostId now ≤ env.settings.maxPendingProbesPerHost
  /-- An active probe is the latest of its binding. -/
  latest : ∀ now, Past done now → ∀ older ∈ db.probes, ∀ newer ∈ db.probes,
    older.createdAt < newer.createdAt → older.SameBinding newer → ¬ older.Active now
  handedOut : (deliveries env done start).Nodup ∧
    ∀ probeId ∈ deliveries env done start, ∃ row ∈ db.probes,
      row.id = probeId ∧ row.status ≠ .pending

theorem countActiveForHost_eq (db : Db) (hostId : Uuid) (now : ℤ) :
    db.countActiveForHost hostId now =
      db.probes.countP fun row => row.hostId = hostId ∧ row.Active now := rfl

@[simp]
theorem ProbeStatus.rank_eq_zero {status : ProbeStatus} : status.rank = 0 ↔ status = .pending := by
  cases status <;> simp [rank]

theorem countP_map_le {rows : List HostProbe} {change : HostProbe → HostProbe}
    {p q : HostProbe → Bool} (h : ∀ row ∈ rows, p (change row) → q row) :
    (rows.map change).countP p ≤ rows.countP q := by
  rw [List.countP_map]
  exact List.countP_mono_left h

/-- The active probes of a host become fewer as time goes by and calls are made. -/
theorem Steps.countP_active_le {call : ProbeCall} {rows later : List HostProbe}
    (h : Steps call rows later) (hostId : Uuid) {now then_ : ℤ} (hnow : now ≤ then_) :
    later.countP (fun row => row.hostId = hostId ∧ row.Active then_) ≤
      rows.countP fun row => row.hostId = hostId ∧ row.Active now := by
  obtain ⟨change, rfl, hchange⟩ := h
  refine countP_map_le fun row hrow hactive => ?_
  rw [decide_eq_true_iff] at hactive ⊢
  have hstep := hchange row hrow
  have hbefore := hstep.active hactive.2
  exact ⟨hstep.hostId ▸ hactive.1, hbefore.1, hnow.trans hbefore.2⟩

theorem ProbeStep.sameBinding {call call' : ProbeCall} {row next other otherNext : HostProbe}
    (h : ProbeStep call row next) (h' : ProbeStep call' other otherNext) :
    next.SameBinding otherNext ↔ row.SameBinding other := by
  cases h <;> cases h' <;> rfl

section Kept

variable {env : Environment} {done : List (Turn ProbeCall Draw)} {turn : Turn ProbeCall Draw}
  {db start : Db} {writes : List Write}

theorem Past.of_concat {now : ℤ} (h : Past (done ++ [turn]) now) :
    Past done now ∧ ∀ j, (turn.draws j).now ≤ now :=
  ⟨fun earlier hearlier => h earlier (List.mem_append_left _ hearlier),
    h turn (List.mem_append_right _ List.mem_cons_self)⟩

/-- What a turn hands out was pending, and is marked as delivered. -/
theorem ProbeTurn.delivered_spec (h : ProbeTurn env turn db writes)
    (hids : (db.probes.map HostProbe.id).Nodup) :
    (delivered env db turn).Nodup ∧ ∀ probeId ∈ delivered env db turn,
      ∃ row ∈ db.probes, row.id = probeId ∧ row.status = .pending ∧
        { row with status := .delivered, deliveredAt := some (turn.draws 0).now } ∈
          (turn.next store (ProbeCall.program env) db).probes := by
  rw [delivered]
  split
  · next probes hanswer =>
      obtain ⟨rfl, hostId, limit, rfl⟩ := h.claimed probes hanswer
      refine ⟨?_, fun probeId hprobeId => ?_⟩
      · refine ((List.take_sublist _ _).map _).nodup ?_
        rw [((List.perm_insertionSort _ _).map _).nodup_iff]
        exact (List.filter_sublist.map _).nodup hids
      · obtain ⟨row, hrow, rfl⟩ := List.mem_map.mp hprobeId
        obtain ⟨hold, -, hpending, -⟩ := mem_listPendingProbes hrow
        refine ⟨row, hold, rfl, hpending, ?_⟩
        rw [h.probes, probes_applyAll_deliver]
        refine List.mem_map.mpr ⟨row, hold, ?_⟩
        rw [if_pos hprobeId]
  · exact ⟨List.nodup_nil, nofun⟩

/-- A probe that has been handed out is not handed out again. -/
theorem ProbesKept.handedOut_concat (hkept : ProbesKept env done db start)
    (hdb : db = Turn.runAll store (ProbeCall.program env) done start)
    (h : ProbeTurn env turn db writes)
    (hlater : ∀ row ∈ db.probes, ∃ next ∈ (turn.next store (ProbeCall.program env) db).probes,
      ∃ call, ProbeStep call row next) :
    (deliveries env (done ++ [turn]) start).Nodup ∧
      ∀ probeId ∈ deliveries env (done ++ [turn]) start,
        ∃ row ∈ (turn.next store (ProbeCall.program env) db).probes,
          row.id = probeId ∧ row.status ≠ .pending := by
  obtain ⟨hnodup, hpending⟩ := h.delivered_spec hkept.ids
  obtain ⟨hbefore, hanswered⟩ := hkept.handedOut
  rw [deliveries_concat, ← hdb]
  constructor
  · refine hbefore.append hnodup fun probeId hfirst hagain => ?_
    obtain ⟨row, hrow, hid, hnot⟩ := hanswered probeId hfirst
    obtain ⟨other, hother, hsame, hstill, -⟩ := hpending probeId hagain
    obtain rfl := List.inj_on_of_nodup_map hkept.ids hrow hother (hid.trans hsame.symm)
    exact hnot hstill
  · intro probeId hprobeId
    rcases List.mem_append.mp hprobeId with hfirst | hnow
    · obtain ⟨row, hrow, rfl, hnot⟩ := hanswered probeId hfirst
      obtain ⟨next, hnext, call, hstep⟩ := hlater row hrow
      refine ⟨next, hnext, hstep.id, fun hstill => hnot ?_⟩
      have hrank := hstep.rank
      rw [hstill] at hrank
      exact ProbeStatus.rank_eq_zero.mp (Nat.le_zero.mp hrank)
    · obtain ⟨row, -, rfl, -, hnext⟩ := hpending probeId hnow
      exact ⟨_, hnext, rfl, nofun⟩

/-- A turn in which the probes step keeps what holds of them. -/
theorem ProbesOnFile.steps {later : Db} (hkept : ProbesOnFile done db)
    (hsteps : Steps turn.call db.probes later.probes) :
    ProbesOnFile (done ++ [turn]) later where
  ids := by
    rw [hsteps.map_eq fun _ _ hstep => hstep.id]
    exact hkept.ids
  answered := by
    intro next hnext hfinal
    obtain ⟨row, hrow, hstep⟩ := hsteps.before hnext
    by_cases hopen : row.Open
    · obtain ⟨available, reason, now, hcall, rfl⟩ := hstep.owner hopen hfinal
      exact ⟨turn, List.mem_append_right _ List.mem_cons_self, hcall⟩
    · obtain rfl := hstep.eq_of_not_open hopen
      obtain ⟨earlier, hearlier, hcall⟩ := hkept.answered next hrow hopen
      exact ⟨earlier, List.mem_append_left _ hearlier, hcall⟩
  verdict := by
    intro next hnext hcompleted
    obtain ⟨row, hrow, hstep⟩ := hsteps.before hnext
    exact hstep.verdict (hkept.verdict row hrow) hcompleted

/-- A turn that queues a probe keeps what holds of the probes. -/
theorem ProbesOnFile.queues {later : Db} (hkept : ProbesOnFile done db) {row : HostProbe}
    (hrow : Queues env turn.draws db row) (hprobes : later.probes = db.probes ++ [row]) :
    ProbesOnFile (done ++ [turn]) later := by
  have hcases : ∀ other, other ∈ later.probes → other ∈ db.probes ∨ other = row :=
    fun other hother => by rwa [hprobes, List.mem_append, List.mem_singleton] at hother
  refine ⟨?_, fun other hother hfinal => ?_, fun other hother hcompleted => ?_⟩
  · rw [hprobes, List.map_append, List.nodup_append]
    refine ⟨hkept.ids, List.nodup_singleton _, fun id hid _ hnew => ?_⟩
    obtain ⟨old, hold, rfl⟩ := List.mem_map.mp hid
    rw [List.map_singleton, List.mem_singleton] at hnew
    exact hnew ▸ hrow.fresh old hold
  · rcases hcases other hother with hold | rfl
    · obtain ⟨earlier, hearlier, hcall⟩ := hkept.answered other hold hfinal
      exact ⟨earlier, List.mem_append_left _ hearlier, hcall⟩
    · exact (hfinal (.inl hrow.pending)).elim
  · rcases hcases other hother with hold | rfl
    · exact hkept.verdict other hold hcompleted
    · rw [hrow.pending] at hcompleted
      cases hcompleted

/-- A turn keeps what holds of the probes. -/
theorem ProbesOnFile.concat (env : Environment) (turn : Turn ProbeCall Draw)
    (hkept : ProbesOnFile done db) :
    ProbesOnFile (done ++ [turn]) (turn.next store (ProbeCall.program env) db) := by
  obtain ⟨writes, h⟩ := probeTurn env turn db
  rcases h.changes.steps_or_queues hkept.ids with hsteps | ⟨row, hrow, rfl⟩
  · exact hkept.steps (h.probes ▸ hsteps)
  · exact hkept.queues hrow (by rw [h.probes]; simp [Write.apply])

/-- A turn in which the probes step keeps what holds of them at later and later clocks. -/
theorem ProbesKept.steps (hkept : ProbesKept env done db start)
    (hdb : db = Turn.runAll store (ProbeCall.program env) done start)
    (h : ProbeTurn env turn db writes)
    (hsteps : Steps turn.call db.probes (turn.next store (ProbeCall.program env) db).probes) :
    ProbesKept env (done ++ [turn]) (turn.next store (ProbeCall.program env) db) start where
  toProbesOnFile := hkept.toProbesOnFile.steps hsteps
  created := by
    rw [hsteps.map_eq fun _ _ hstep => hstep.createdAt]
    exact hkept.created
  past := by
    intro next hnext
    obtain ⟨row, hrow, hstep⟩ := hsteps.before hnext
    obtain ⟨earlier, hearlier, hcreated⟩ := hkept.past row hrow
    exact ⟨earlier, List.mem_append_left _ hearlier, hstep.createdAt ▸ hcreated⟩
  capped := fun now hpast hostId =>
    (hsteps.countP_active_le hostId (le_refl now)).trans (hkept.capped now hpast.of_concat.1 hostId)
  latest := by
    intro now hpast older holder newer hnewer hlt hsame hactive
    obtain ⟨row, hrow, hstep⟩ := hsteps.before holder
    obtain ⟨other, hother, hotherStep⟩ := hsteps.before hnewer
    rw [hstep.createdAt, hotherStep.createdAt] at hlt
    exact hkept.latest now hpast.of_concat.1 row hrow other hother hlt
      ((hstep.sameBinding hotherStep).mp hsame) (hstep.active hactive)
  handedOut := hkept.handedOut_concat hdb h fun row hrow => by
    obtain ⟨next, hnext, hstep⟩ := hsteps.later hrow
    exact ⟨next, hnext, turn.call, hstep⟩

/-- A turn that queues a probe keeps what holds of the probes at later and later clocks. -/
theorem ProbesKept.queues (hkept : ProbesKept env done db start)
    (hdb : db = Turn.runAll store (ProbeCall.program env) done start)
    (h : ProbeTurn env turn db writes) (hclock : ∀ earlier ∈ done, Earlier earlier turn)
    {row : HostProbe} (hrow : Queues env turn.draws db row)
    (hprobes : (turn.next store (ProbeCall.program env) db).probes = db.probes ++ [row]) :
    ProbesKept env (done ++ [turn]) (turn.next store (ProbeCall.program env) db) start := by
  obtain ⟨k, hcreated⟩ := hrow.created
  have holder : ∀ old ∈ db.probes, old.createdAt < row.createdAt := fun old hold => by
    obtain ⟨earlier, hearlier, j, hold'⟩ := hkept.past old hold
    rw [hold', hcreated]
    exact (hclock earlier hearlier j k).2
  have hcases : ∀ other, other ∈ (turn.next store (ProbeCall.program env) db).probes ↔
      other ∈ db.probes ∨ other = row := fun other => by
    rw [hprobes, List.mem_append, List.mem_singleton]
  refine ⟨hkept.toProbesOnFile.queues hrow hprobes, ?_, fun other hother => ?_,
    fun now hpast hostId => ?_, fun now hpast older holder' newer hnewer hlt hsame hactive => ?_,
    hkept.handedOut_concat hdb h fun old hold =>
      ⟨old, (hcases old).mpr (.inl hold), turn.call, .same⟩⟩
  · rw [hprobes, List.map_append, List.nodup_append]
    refine ⟨hkept.created, List.nodup_singleton _, fun created hmem _ hnew => ?_⟩
    obtain ⟨old, hold, rfl⟩ := List.mem_map.mp hmem
    rw [List.map_singleton, List.mem_singleton] at hnew
    exact hnew ▸ (holder old hold).ne
  · rcases (hcases other).mp hother with hold | rfl
    · obtain ⟨earlier, hearlier, hcreated'⟩ := hkept.past other hold
      exact ⟨earlier, List.mem_append_left _ hearlier, hcreated'⟩
    · exact ⟨turn, List.mem_append_right _ List.mem_cons_self, k, hcreated⟩
  · obtain ⟨hbefore, hnow⟩ := hpast.of_concat
    by_cases hhost : row.hostId = hostId
    · -- The cap was checked at the turn's clock, and no probe becomes active later.
      subst hhost
      have hcap := hrow.cap
      have hfewer : db.probes.countP (fun old => old.hostId = row.hostId ∧ old.Active now) ≤
          db.probes.countP fun old => old.hostId = row.hostId ∧ old.Active (turn.draws 0).now := by
        refine List.countP_mono_left fun old _ hactive => ?_
        rw [decide_eq_true_iff] at hactive ⊢
        exact ⟨hactive.1, hactive.2.1, (hnow 0).trans hactive.2.2⟩
      rw [countActiveForHost_eq] at hcap ⊢
      rw [hprobes, List.countP_append]
      have hone := List.countP_le_length
        (p := fun old : HostProbe => decide (old.hostId = row.hostId ∧ old.Active now)) (l := [row])
      rw [List.length_singleton] at hone
      omega
    · rw [countActiveForHost_eq, hprobes, List.countP_append]
      have hnone : [row].countP (fun old => old.hostId = hostId ∧ old.Active now) = 0 := by
        simp [hhost]
      rw [hnone]
      exact hkept.capped now hbefore hostId
  · obtain ⟨hbefore, hnow⟩ := hpast.of_concat
    rcases (hcases older).mp holder' with hold | rfl
    · rcases (hcases newer).mp hnewer with hnew | rfl
      · exact hkept.latest now hbefore older hold newer hnew hlt hsame hactive
      · -- The latest probe that was found for the binding was not active any more.
        have hthen : older.Active (turn.draws 0).now := ⟨hactive.1, (hnow 0).trans hactive.2⟩
        cases hlatest : db.findLatestForBinding newer.hostId newer.port newer.protocol
            newer.bindAddress with
        | none => exact findLatestForBinding_eq_none hlatest older hold hsame
        | some existing =>
            obtain ⟨hexisting, hfor, hmax⟩ := findLatestForBinding_spec hlatest
            have hnot := hrow.latest existing hlatest
            rcases (hmax older hold hsame).lt_or_eq with hbehind | hequal
            · have hpast' : Past done (turn.draws 0).now := fun earlier hearlier j =>
                (hclock earlier hearlier j 0).1.le
              exact hkept.latest _ hpast' older hold existing hexisting hbehind
                (HostProbe.IsFor.sameBinding hsame hfor)
                hthen
            · obtain rfl := List.inj_on_of_nodup_map hkept.created hold hexisting hequal
              exact hnot hthen
    · rcases (hcases newer).mp hnewer with hnew | rfl
      · exact (lt_asymm hlt (holder newer hnew)).elim
      · exact (lt_irrefl _ hlt).elim

theorem probesOnFile_of_empty (hempty : start.probes = []) : ProbesOnFile [] start := by
  refine ⟨?_, ?_, ?_⟩ <;> simp [hempty]

/-- What holds of the probes along every run. -/
theorem probesOnFile_runAll (env : Environment) (hempty : start.probes = [])
    (turns : List (Turn ProbeCall Draw)) :
    ProbesOnFile turns (Turn.runAll store (ProbeCall.program env) turns start) := by
  induction turns using List.reverseRecOn with
  | nil => exact probesOnFile_of_empty hempty
  | append_singleton done turn ih =>
      rw [Turn.runAll_append]
      exact ih.concat env turn

/-- What a turn at a later clock keeps. -/
theorem ProbesKept.concat (hkept : ProbesKept env done db start)
    (hdb : db = Turn.runAll store (ProbeCall.program env) done start)
    (hclock : ∀ earlier ∈ done, Earlier earlier turn) :
    ProbesKept env (done ++ [turn]) (turn.next store (ProbeCall.program env) db) start := by
  obtain ⟨writes, h⟩ := probeTurn env turn db
  rcases h.changes.steps_or_queues hkept.ids with hsteps | ⟨row, hrow, rfl⟩
  · exact hkept.steps hdb h (h.probes ▸ hsteps)
  · exact hkept.queues hdb h hclock hrow (by rw [h.probes]; simp [Write.apply])

/-- What holds of the probes along every run whose clock moves on. -/
theorem probesKept_runAll (env : Environment) {start : Db} (hempty : start.probes = [])
    {turns : List (Turn ProbeCall Draw)} (hclock : turns.Pairwise Earlier) :
    ProbesKept env turns (Turn.runAll store (ProbeCall.program env) turns start) start := by
  induction turns using List.reverseRecOn with
  | nil =>
      refine ⟨probesOnFile_of_empty hempty, ?_, ?_, fun now _ hostId => ?_, ?_,
        ⟨List.nodup_nil, nofun⟩⟩
      all_goals simp [hempty, countActiveForHost_eq]
  | append_singleton done turn ih =>
      obtain ⟨hdone, -, hturn⟩ := List.pairwise_append.mp hclock
      rw [Turn.runAll_append]
      exact (ih hdone).concat rfl fun earlier hearlier =>
        hturn earlier hearlier turn List.mem_cons_self

/-- How a probe may change between two moments of a run, by the turns in between. -/
structure ProbeMoves (turns : List (Turn ProbeCall Draw)) (row later : HostProbe) : Prop where
  id : later.id = row.id
  binding : later.SameBinding row
  forward : row.status.rank ≤ later.status.rank
  recorded : ¬ row.Open → later = row
  /-- Only a submission of the host's own agent answers the probe, and with that result. -/
  completed : row.Open → ¬ later.Open → ∃ turn ∈ turns,
    turn.call = .submit row.hostId row.id later.resultAvailable later.resultReason

theorem ProbeMoves.step {row next later : HostProbe} {turns : List (Turn ProbeCall Draw)}
    (hstep : ProbeStep turn.call row next) (h : ProbeMoves turns next later) :
    ProbeMoves (turn :: turns) row later where
  id := h.id.trans hstep.id
  binding := by
    have hsame : ProbeStep turn.call later later := .same
    exact (hsame.sameBinding hstep).mp h.binding
  forward := hstep.rank.trans h.forward
  recorded := fun hfinal => by
    obtain rfl := hstep.eq_of_not_open hfinal
    exact h.recorded hfinal
  completed := fun hopen hlater => by
    by_cases hnext : next.Open
    · obtain ⟨other, hother, hcall⟩ := h.completed hnext hlater
      rw [hstep.hostId, hstep.id] at hcall
      exact ⟨other, List.mem_cons_of_mem _ hother, hcall⟩
    · obtain ⟨available, reason, now, hcall, rfl⟩ := hstep.owner hopen hnext
      obtain rfl := h.recorded hnext
      exact ⟨turn, List.mem_cons_self, hcall⟩

/-- Every probe on file is there after a turn, stepped. -/
theorem exists_step (env : Environment) (turn : Turn ProbeCall Draw) {db : Db}
    (hids : (db.probes.map HostProbe.id).Nodup) {row : HostProbe} (hrow : row ∈ db.probes) :
    ∃ next ∈ (turn.next store (ProbeCall.program env) db).probes,
      ProbeStep turn.call row next := by
  obtain ⟨writes, h⟩ := probeTurn env turn db
  rw [h.probes]
  rcases h.changes.steps_or_queues hids with hsteps | ⟨queued, -, rfl⟩
  · exact hsteps.later hrow
  · exact ⟨row, by simp [Write.apply, hrow], .same⟩

theorem exists_moves (env : Environment) {start : Db} (hempty : start.probes = [])
    (first second : List (Turn ProbeCall Draw)) {row : HostProbe}
    (hrow : row ∈ (Turn.runAll store (ProbeCall.program env) first start).probes) :
    ∃ later ∈ (Turn.runAll store (ProbeCall.program env) (first ++ second) start).probes,
      ProbeMoves second row later := by
  induction second generalizing first row with
  | nil =>
      rw [List.append_nil]
      refine ⟨row, hrow, rfl, ⟨rfl, rfl, rfl, rfl⟩, le_refl _, fun _ => rfl, ?_⟩
      exact fun hopen hfinal => (hfinal hopen).elim
  | cons turn second ih =>
      have hids := (probesOnFile_runAll env hempty first).ids
      obtain ⟨next, hnext, hstep⟩ := exists_step env turn hids hrow
      rw [List.append_cons]
      obtain ⟨later, hlater, hmoves⟩ := ih (first ++ [turn]) (by rwa [Turn.runAll_append])
      exact ⟨later, hlater, hmoves.step hstep⟩

end Kept

/-- The life of the probes at a moment of a run, and from there to a later one. -/
structure ProbeLife (env : Environment) (first second : List (Turn ProbeCall Draw)) (start : Db) :
    Prop where
  capped : ∀ now, Past first now → ∀ hostId,
    (Turn.runAll store (ProbeCall.program env) first start).countActiveForHost hostId now ≤
      env.settings.maxPendingProbesPerHost
  single : ∀ now, Past first now →
    ∀ row ∈ (Turn.runAll store (ProbeCall.program env) first start).probes,
      ∀ other ∈ (Turn.runAll store (ProbeCall.program env) first start).probes,
        row.Active now → other.Active now → row.SameBinding other → row = other
  deliveredOnce : (deliveries env first start).Nodup
  moves : ∀ row ∈ (Turn.runAll store (ProbeCall.program env) first start).probes,
    ∃ later ∈ (Turn.runAll store (ProbeCall.program env) (first ++ second) start).probes,
      ProbeMoves second row later
  answered : ∀ row ∈ (Turn.runAll store (ProbeCall.program env) first start).probes, ¬ row.Open →
    ∃ turn ∈ first, turn.call = .submit row.hostId row.id row.resultAvailable row.resultReason

theorem probes_live (env : Environment) {start : Db} (hempty : start.probes = [])
    {first second : List (Turn ProbeCall Draw)} (hclock : (first ++ second).Pairwise Earlier) :
    ProbeLife env first second start := by
  have hkept := probesKept_runAll env hempty (List.pairwise_append.mp hclock).1
  refine ⟨hkept.capped, fun now hpast row hrow other hother hactive hactive' hsame => ?_,
    hkept.handedOut.1, fun row hrow => exists_moves env hempty first second hrow, hkept.answered⟩
  rcases lt_trichotomy row.createdAt other.createdAt with hlt | hequal | hlt
  · exact (hkept.latest now hpast row hrow other hother hlt hsame hactive).elim
  · exact List.inj_on_of_nodup_map hkept.created hrow hother hequal
  · obtain ⟨hhost, hport, hprotocol, haddress⟩ := hsame
    have hback : other.SameBinding row :=
      ⟨hhost.symm, hport.symm, hprotocol.symm, haddress.symm⟩
    exact (hkept.latest now hpast other hother row hrow hlt hback hactive').elim

/-- A turn at a clock of its own. -/
def turnAt (now : ℕ) (call : ProbeCall) : Turn ProbeCall Draw :=
  ⟨call, fun j => ⟨now, ⟨BitVec.ofNat 128 (now + j)⟩, now⟩, fun _ => none⟩

theorem earlier_turnAt {now later : ℕ} (h : now < later) (call call' : ProbeCall) :
    Earlier (turnAt now call) (turnAt later call') :=
  fun _ _ => ⟨Int.ofNat_lt.mpr h, Int.ofNat_lt.mpr h⟩

/-- A probe is queued and delivered. -/
def probeTurns : List (Turn ProbeCall Draw) :=
  [turnAt 10 (.queue sampleHost.id 8000 .tcp defaultBindAddress),
    turnAt 20 (.claim sampleHost.id)]

/-- The agent answers the probe. -/
def answerTurn : Turn ProbeCall Draw :=
  turnAt 30 (.submit sampleHost.id ⟨BitVec.ofNat 128 11⟩ (some true) none)

theorem pairwise_sampleTurns : (probeTurns ++ [answerTurn]).Pairwise Earlier := by
  simp [probeTurns, answerTurn, earlier_turnAt]

theorem probes_live_sample :
    (Turn.runAll store (ProbeCall.program sampleEnvironment) (probeTurns ++ [answerTurn])
        sampleDb).probes.map (fun row => (row.status, row.resultAvailable)) =
      [(.completed, some true)] ∧
    ProbeLife sampleEnvironment probeTurns [answerTurn] sampleDb :=
  ⟨rfl, probes_live sampleEnvironment rfl pairwise_sampleTurns⟩

/-! ## Evidence -/

/-- What a verdict on a binding rests on: the latest of its probes, answered in time by the
host's own agent with that very result. -/
structure Supports (turns : List (Turn ProbeCall Draw)) (db : Db) (now : ℤ) (hostId : Uuid)
    (port : ℕ) (protocol : Protocol) (bindAddress : String) (available : Bool)
    (probe : HostProbe) : Prop where
  onFile : probe ∈ db.probes
  binding : probe.IsFor hostId port protocol bindAddress
  latest : ∀ other ∈ db.probes, other.IsFor hostId port protocol bindAddress →
    other.createdAt ≤ probe.createdAt
  /-- Where the clock moves on from turn to turn, no other probe of the binding is as late. -/
  strictlyLatest : turns.Pairwise Earlier → ∀ other ∈ db.probes,
    other.IsFor hostId port protocol bindAddress → other ≠ probe →
      other.createdAt < probe.createdAt
  inTime : now ≤ probe.expiresAt
  result : probe.status = .completed ∧ probe.resultAvailable = some available
  answered : ∃ turn ∈ turns, turn.call = .submit hostId probe.id (some available) probe.resultReason

/-- The verdict that a port is free, or occupied. -/
def BindProbe.verified : Bool → BindProbe
  | true => .verifiedFree
  | false => .verifiedOccupied

theorem classifyBindProbe_eq_verified {probe : Option HostProbe} {now : ℤ} {available : Bool}
    (h : classifyBindProbe probe now = .verified available) :
    ∃ row, probe = some row ∧ row.status = .completed ∧ now ≤ row.expiresAt ∧
      (row.resultAvailable = some true ↔ available = true) := by
  cases probe with
  | none => cases available <;> cases h
  | some row =>
      simp only [classifyBindProbe] at h
      split_ifs at h with hfailed hexpired hcompleted hpending hfree
      · cases available <;> cases h
      · cases available <;> cases h
      · cases available <;> cases h
      · cases available <;> cases h
      · refine ⟨row, rfl, not_not.mp hpending, not_lt.mp hexpired, ?_⟩
        cases available with
        | true => simp [hfree]
        | false => cases h
      · refine ⟨row, rfl, not_not.mp hpending, not_lt.mp hexpired, ?_⟩
        cases available with
        | true => cases h
        | false => simp [hfree]

/-- `get_probe_evidence` after any run of the calls on the probes, at any time: a verdict is
supported by the probe it comes with. -/
theorem evidence_supported (env : Environment) {start : Db} (hempty : start.probes = [])
    (turns : List (Turn ProbeCall Draw)) (draws : ℕ → Draw) (faults : ℕ → Option DbError)
    (hostId : Uuid) (port : ℕ) (protocol : Protocol) (bindAddress : String) :
    ∃ evidence, ((getProbeEvidence hostId port protocol bindAddress).exec store
        (Session.start draws faults)
        (Turn.runAll store (ProbeCall.program env) turns start)).result = .ok evidence ∧
      ∀ available, evidence.bindProbe = .verified available →
        ∃ probe, evidence.probe = some probe ∧
          Supports turns (Turn.runAll store (ProbeCall.program env) turns start) (draws 0).now
            hostId port protocol bindAddress available probe := by
  refine ⟨_, rfl, fun available hverified => ?_⟩
  obtain ⟨probe, hprobe, hcompleted, hinTime, hagrees⟩ := classifyBindProbe_eq_verified hverified
  obtain ⟨hmem, hfor, hmax⟩ := findLatestForBinding_spec hprobe
  have hkept := probesOnFile_runAll env hempty turns
  have hresult : probe.resultAvailable = some available := by
    have hsome := hkept.verdict probe hmem hcompleted
    cases hcase : probe.resultAvailable with
    | none => exact (hsome hcase).elim
    | some value =>
        rw [hcase] at hagrees
        cases value <;> cases available <;> simp_all
  have hfinal : ¬ probe.Open := by
    rintro (hopen | hopen) <;> rw [hcompleted] at hopen <;> cases hopen
  obtain ⟨turn, hturn, hcall⟩ := hkept.answered probe hmem hfinal
  refine ⟨probe, hprobe, hmem, hfor, hmax, fun hclock other hother hsame hne => ?_, hinTime,
    ⟨hcompleted, hresult⟩, turn, hturn, ?_⟩
  · refine (hmax other hother hsame).lt_of_ne fun hequal => hne ?_
    exact List.inj_on_of_nodup_map (probesKept_runAll env hempty hclock).created hother hmem hequal
  · rw [hcall, hfor.1, hresult]

/-- The probe that has been answered supports the verdict on its binding. -/
theorem evidence_supported_sample :
    Supports (probeTurns ++ [answerTurn])
      (Turn.runAll store (ProbeCall.program sampleEnvironment) (probeTurns ++ [answerTurn])
          sampleDb)
      40 sampleHost.id 8000 .tcp defaultBindAddress true
      { id := ⟨BitVec.ofNat 128 11⟩
        hostId := sampleHost.id
        port := 8000
        protocol := .tcp
        bindAddress := defaultBindAddress
        status := .completed
        resultAvailable := some true
        expiresAt := 10 + sampleEnvironment.settings.remoteProbeTtlSeconds * 1000000
        createdAt := 10
        deliveredAt := some 20
        completedAt := some 30 } := by
  obtain ⟨evidence, hevidence, hsupported⟩ :=
    evidence_supported sampleEnvironment (show sampleDb.probes =
        [] from rfl) (probeTurns ++ [answerTurn])
      (fun _ => ⟨40, ⟨0⟩, 40⟩) (fun _ => none) sampleHost.id 8000 .tcp defaultBindAddress
  cases hevidence
  obtain ⟨probe, hprobe, hsupports⟩ := hsupported true rfl
  cases hprobe
  exact hsupports

end Central
