/-
# Where a verdict on a port comes from

Central hands probes out with the answer to a heartbeat, the agent of the host tries the ports
and reports, and Central records the reports. Answers and reports may get lost, late or
repeated, and agents may stop at any point. A verdict that Central gives on a binding is what
the host itself answered when its agent tried that very binding, for a probe that Central had
handed to it; and all the probes handed out with one answer are tried.
-/

import PortForge.Agent.RemoteProbes
import PortForge.Central.ProbeLifecycle
import PortForge.Central.PayloadHash

namespace Fleet

open Transaction Central Python
open Agent.RemoteProbes

/-! ## The answer to a heartbeat -/

/-- `PendingProbeOut`, as a JSON object. -/
def pendingProbeOut (probe : HostProbe) : List (Scalar × Value) :=
  [(.str "probe_id", .str probe.id.text), (.str "port", .int probe.port),
    (.str "protocol", .str probe.protocol.value), (.str "bind_address", .str probe.bindAddress)]

/-- The fields of a `HeartbeatResponse` that `process_pending_probes` does not read. -/
structure Unread where
  lastSeen : Value
  status : Value
  protocolCompatibility : Value
  pendingUpgrade : Value

/-- `HeartbeatResponse`, as JSON. -/
def heartbeatResponse (hostId : Uuid) (unread : Unread) (probes : List HostProbe) : Value :=
  .dict [(.str "host_id", .str hostId.text), (.str "last_seen", unread.lastSeen),
    (.str "status", unread.status), (.str "protocol_compatibility", unread.protocolCompatibility),
    (.str "pending_probes", .list (probes.map fun probe => .dict (pendingProbeOut probe))),
    (.str "pending_upgrade", unread.pendingUpgrade)]

/-- The port has a number that can be tried. -/
def InRange (probe : HostProbe) : Prop := 1 ≤ probe.port ∧ probe.port ≤ 65535

instance (probe : HostProbe) : Decidable (InRange probe) := inferInstanceAs (Decidable (_ ∧ _))

/-- The address that is tried for a probe. -/
def triedAddress (bindAddress : String) : String :=
  if bindAddress = "" then "0.0.0.0" else bindAddress

/-- A probe as the agent reads it. -/
def requestOf (probe : HostProbe) : ProbeRequest where
  probeId := probe.id.text
  port := probe.port
  protocol := probe.protocol
  bindAddress := triedAddress probe.bindAddress

section Reading

variable {F : Formats} {probe : HostProbe} {probes : List HostProbe} {hostId : Uuid}
  {unread : Unread}

theorem asciiLower_value (protocol : Protocol) :
    Agent.Upgrade.asciiLower protocol.value = protocol.value := by
  cases protocol <;> rfl

theorem readRequest_pendingProbeOut : readRequest F (pendingProbeOut probe) =
    if InRange probe then .ok (requestOf probe) else .error .valueError := by
  have hprobeId : get? (pendingProbeOut probe) "probe_id" = some (.str probe.id.text) := rfl
  have hport : get? (pendingProbeOut probe) "port" = some (.int probe.port) := rfl
  have hprotocol : get? (pendingProbeOut probe) "protocol" = some (.str probe.protocol.value) := rfl
  have haddress : get? (pendingProbeOut probe) "bind_address" = some (.str probe.bindAddress) := rfl
  have hrange : (1 ≤ (probe.port : ℤ) ∧ (probe.port : ℤ) ≤ 65535) ↔ InRange probe := by
    rw [InRange]
    omega
  simp only [readRequest, hprobeId, hport, hprotocol, haddress, Value.int, Formats.int, hrange,
    Option.map_some, Option.getD_some, Value.str, Formats.text, asciiLower_value]
  split
  · refine congrArg Except.ok ?_
    rw [requestOf, ProbeRequest.mk.injEq]
    refine ⟨rfl, rfl, ?_, ?_⟩
    · cases probe.protocol <;> rfl
    · rw [triedAddress, Option.filter_some, Agent.Identity.truthy]
      by_cases hempty : probe.bindAddress = "" <;> simp [hempty, Formats.text]
  · rfl

theorem survey_cons :
    survey F (.dict (pendingProbeOut probe) ::
        probes.map fun probe => .dict (pendingProbeOut probe)) =
      if InRange probe then
        (requestOf probe :: (survey F (probes.map fun probe => .dict (pendingProbeOut probe))).1,
          (survey F (probes.map fun probe => .dict (pendingProbeOut probe))).2)
      else survey F (probes.map fun probe => .dict (pendingProbeOut probe)) := by
  rw [survey, readRequest_pendingProbeOut]
  by_cases hrange : InRange probe
  · rw [if_pos hrange, if_pos hrange]
  · rw [if_neg hrange, if_neg hrange]

/-- The agent reads what Central has written. -/
theorem survey_pendingProbeOut :
    survey F (probes.map fun probe => .dict (pendingProbeOut probe)) =
    ((probes.filter fun probe => InRange probe).map requestOf, false) := by
  induction probes with
  | nil => rfl
  | cons probe probes ih =>
      rw [List.map_cons, survey_cons, ih, List.filter_cons]
      by_cases hrange : InRange probe <;> simp [hrange]

theorem pendingEntries_heartbeatResponse :
    pendingEntries (heartbeatResponse hostId unread probes) =
      (probes.take maxProbesPerCycle).map fun probe => .dict (pendingProbeOut probe) := by
  rw [List.map_take]
  rfl

end Reading

/-! ## Heartbeats and reports -/

/-- A heartbeat that was answered: the host, the probes it was handed, and what its agent does
about them. -/
structure Round where
  hostId : Uuid
  probes : List HostProbe
  events : List Event

/-- What Central has served, and the heartbeats that were answered. -/
inductive Probing (env : Environment) (F : Formats) (start : Db) :
    List (Turn ProbeCall Draw) → List Round → Prop
  | start : Probing env F start [] []
  | /-- Probes are queued and hosts are recorded, and the answer to a heartbeat gets lost. -/
    other {turns : List (Turn ProbeCall Draw)} {rounds : List Round} (turn : Turn ProbeCall Draw)
      (h : Probing env F start turns rounds)
      (hother : ∀ hostId probeId available reason,
        turn.call ≠ .submit hostId probeId available reason) :
      Probing env F start (turns ++ [turn]) rounds
  | /-- A host hears which probes it is handed. -/
    heartbeat {turns : List (Turn ProbeCall Draw)} {rounds : List Round}
      (turn : Turn ProbeCall Draw) (round : Round) (h : Probing env F start turns rounds)
      (hcall : turn.call = .claim round.hostId)
      (hanswer : turn.answer store (ProbeCall.program env)
        (Turn.runAll store (ProbeCall.program env) turns start) = .ok (.claimed round.probes))
      (unread : Unread) {outcome : Except Trouble ℕ}
      (hruns : (processPendingProbes F
        (heartbeatResponse round.hostId unread round.probes)).Runs round.events outcome) :
      Probing env F start (turns ++ [turn]) (rounds ++ [round])
  | /-- A report arrives, late or once more. -/
    report {turns : List (Turn ProbeCall Draw)} {rounds : List Round}
      (turn : Turn ProbeCall Draw) (h : Probing env F start turns rounds) {round : Round}
      (hround : round ∈ rounds) {probeId : Uuid} {available : Option Bool}
      {reason : Option String} {sent : Except Agent.Upgrade.Outside Unit}
      (hsent : (⟨.submit round.hostId.text probeId.text available reason, sent⟩ : Event) ∈
        round.events)
      (hcall : turn.call = .submit round.hostId probeId available reason) :
      Probing env F start (turns ++ [turn]) rounds

section Verdicts

variable {env : Environment} {F : Formats} {start : Db} {turns : List (Turn ProbeCall Draw)}
  {rounds : List Round}

theorem Probing.runs (h : Probing env F start turns rounds) :
    ∀ round ∈ rounds, ∃ unread outcome, (processPendingProbes F
      (heartbeatResponse round.hostId unread round.probes)).Runs round.events outcome := by
  induction h with
  | start => exact fun round hround => by cases hround
  | other turn h hother ih | report turn h hround hsent hcall ih => exact ih
  | heartbeat turn last h hcall hanswer unread hruns ih =>
      intro round hround
      rcases List.mem_append.mp hround with hold | hnew
      · exact ih round hold
      · obtain rfl := List.mem_singleton.mp hnew
        exact ⟨unread, _, hruns⟩

/-- A report that Central has served was sent by an agent of the host. -/
theorem Probing.reported (h : Probing env F start turns rounds) {hostId probeId : Uuid}
    {available : Option Bool} {reason : Option String} :
    ∀ turn ∈ turns, turn.call = .submit hostId probeId available reason →
      ∃ round ∈ rounds, round.hostId = hostId ∧ ∃ sent,
        (⟨.submit hostId.text probeId.text available reason, sent⟩ : Event) ∈ round.events := by
  induction h with
  | start => exact fun turn hturn => by cases hturn
  | other last h hother ih =>
      intro turn hturn hcall
      rcases List.mem_append.mp hturn with hold | hnew
      · exact ih turn hold hcall
      · obtain rfl := List.mem_singleton.mp hnew
        exact absurd hcall (hother _ _ _ _)
  | heartbeat last round h hclaim hanswer unread hruns ih =>
      intro turn hturn hcall
      rcases List.mem_append.mp hturn with hold | hnew
      · obtain ⟨earlier, hearlier, hsent⟩ := ih turn hold hcall
        exact ⟨earlier, List.mem_append_left _ hearlier, hsent⟩
      · obtain rfl := List.mem_singleton.mp hnew
        rw [hclaim] at hcall
        cases hcall
  | report last h hround hsent hsubmit ih =>
      intro turn hturn hcall
      rcases List.mem_append.mp hturn with hold | hnew
      · exact ih turn hold hcall
      · obtain rfl := List.mem_singleton.mp hnew
        rw [hsubmit] at hcall
        cases hcall
        exact ⟨_, hround, rfl, _, hsent⟩

/-- A probe that was handed out is on file, for the same binding. -/
theorem Probing.onFile (h : Probing env F start turns rounds) (hempty : start.probes = []) :
    ∀ round ∈ rounds, ∀ probe ∈ round.probes,
      ∃ later ∈ (Turn.runAll store (ProbeCall.program env) turns start).probes,
        later.id = probe.id ∧ later.SameBinding probe := by
  have hmove {turns : List (Turn ProbeCall Draw)} (turn : Turn ProbeCall Draw)
      {probe row : HostProbe}
      (hrow : row ∈ (Turn.runAll store (ProbeCall.program env) turns start).probes)
      (hid : row.id = probe.id) (hsame : row.SameBinding probe) :
      ∃ later ∈ (Turn.runAll store (ProbeCall.program env) (turns ++ [turn]) start).probes,
        later.id = probe.id ∧ later.SameBinding probe := by
    obtain ⟨later, hlater, hmoves⟩ := exists_moves env hempty turns [turn] hrow
    refine ⟨later, hlater, hmoves.id.trans hid, ?_⟩
    obtain ⟨hhost, hport, hprotocol, haddress⟩ := hmoves.binding
    exact ⟨hhost.trans hsame.1, hport.trans hsame.2.1, hprotocol.trans hsame.2.2.1,
      haddress.trans hsame.2.2.2⟩
  have hkeep {turns : List (Turn ProbeCall Draw)} {rounds : List Round}
      (turn : Turn ProbeCall Draw)
      (ih : ∀ round ∈ rounds, ∀ probe ∈ round.probes,
        ∃ later ∈ (Turn.runAll store (ProbeCall.program env) turns start).probes,
          later.id = probe.id ∧ later.SameBinding probe) :
      ∀ round ∈ rounds, ∀ probe ∈ round.probes,
        ∃ later ∈ (Turn.runAll store (ProbeCall.program env) (turns ++ [turn]) start).probes,
          later.id = probe.id ∧ later.SameBinding probe := by
    intro round hround probe hprobe
    obtain ⟨row, hrow, hid, hsame⟩ := ih round hround probe hprobe
    exact hmove turn hrow hid hsame
  induction h with
  | start => exact fun round hround => by cases hround
  | other turn h hother ih | report turn h hround hsent hcall ih => exact hkeep turn ih
  | @heartbeat turns rounds turn last h hcall hanswer unread _ hruns ih =>
      intro round hround
      rcases List.mem_append.mp hround with hold | hnew
      · exact hkeep turn ih round hold
      · obtain rfl := List.mem_singleton.mp hnew
        intro probe hprobe
        obtain ⟨writes, hturn⟩ := probeTurn env turn
          (Turn.runAll store (ProbeCall.program env) turns start)
        obtain ⟨-, hostId, limit, hpending⟩ := hturn.claimed _ hanswer
        rw [hpending] at hprobe
        exact hmove turn (mem_listPendingProbes hprobe).1 rfl ⟨rfl, rfl, rfl, rfl⟩

/-- A verdict that Central gives on a binding, at any time and after any run, is what the host
answered when its agent tried the port, for a probe of that binding that Central had handed to
it. -/
theorem verdict_measured (h : Probing env F start turns rounds) (hempty : start.probes = [])
    {hostId : Uuid} {port : ℕ} {protocol : Protocol} {bindAddress : String} {now : ℤ}
    {available : Bool}
    (hverdict : (Turn.runAll store (ProbeCall.program env) turns start).probeEvidence hostId port
      protocol bindAddress now = .verified available) :
    ∃ round ∈ rounds, round.hostId = hostId ∧
      (∃ probe ∈ round.probes, probe.IsFor hostId port protocol bindAddress) ∧
        ∃ reason, (⟨.bind port protocol (triedAddress bindAddress),
          (.ok ⟨available, reason⟩ : Except String Agent.PortSearch.BindProbeResult)⟩ : Event) ∈
            round.events := by
  obtain ⟨row, hrow, hcompleted, -, hagrees⟩ := classifyBindProbe_eq_verified hverdict
  obtain ⟨hmem, hfor, -⟩ := findLatestForBinding_spec hrow
  have hkept := probesOnFile_runAll env hempty turns
  have hfinal : ¬ row.Open := by
    rintro (hopen | hopen) <;> rw [hcompleted] at hopen <;> cases hopen
  obtain ⟨turn, hturn, hcall⟩ := hkept.answered row hmem hfinal
  obtain ⟨round, hround, hhost, sent, hsent⟩ := h.reported turn hturn hcall
  obtain ⟨unread, outcome, hruns⟩ := h.runs round hround
  obtain ⟨-, request, hrequest, hid, tried, hbound, havailable, -⟩ :=
    (processEntries_runs hruns).1.of_submit hsent
  rw [pendingEntries_heartbeatResponse, survey_pendingProbeOut] at hrequest
  obtain ⟨probe, hprobe, rfl⟩ := List.mem_map.mp hrequest
  have hprobe : probe ∈ round.probes := List.mem_of_mem_take (List.mem_filter.mp hprobe).1
  -- The probe that was tried is the row that was answered.
  obtain ⟨later, hlater, hlaterId, hsame⟩ := h.onFile hempty round hround probe hprobe
  obtain rfl : later = row := List.inj_on_of_nodup_map hkept.ids hlater hmem
    (hlaterId.trans (Uuid.text_injective hid))
  obtain ⟨hhostId, hport, hprotocol, haddress⟩ := hsame
  have hprobeFor : probe.IsFor hostId port protocol bindAddress :=
    ⟨hhostId.symm.trans hfor.1, hport.symm.trans hfor.2.1, hprotocol.symm.trans hfor.2.2.1,
      haddress.symm.trans hfor.2.2.2⟩
  obtain ⟨-, rfl, rfl, rfl⟩ := hprobeFor
  have hsome := hkept.verdict later hmem hcompleted
  cases tried with
  | error text => exact absurd havailable hsome
  | ok result =>
      rw [havailable] at hagrees
      have hresult : result.available = available := by
        have hsame : some result.available = some true ↔ available = true := hagrees
        rwa [Option.some_inj, ← Bool.eq_iff_iff] at hsame
      refine ⟨round, hround, hhost.trans hfor.1, ⟨probe, hprobe, ?_⟩, result.reason, ?_⟩
      · exact ⟨hhostId.symm.trans hfor.1, rfl, rfl, rfl⟩
      · rw [← hresult]
        exact hbound

end Verdicts

/-! ## Nothing is left out -/

section Complete

variable {env : Environment} {F : Formats} {db : Db} {turn : Turn ProbeCall Draw} {hostId : Uuid}
  {probes : List HostProbe}

/-- An answer to a heartbeat hands out no more probes than the setting allows. -/
theorem length_claimed_le (hcall : turn.call = .claim hostId)
    (hanswer : turn.answer store (ProbeCall.program env) db = .ok (.claimed probes)) :
    probes.length ≤ env.settings.maxProbesDeliveredPerHeartbeat := by
  have hensures : (turn.call.program env).Ensures store (Program.alone store db) (fun _ => True)
      (Session.start turn.draws turn.faults) fun _ result => ∀ probes,
        result = .ok (.claimed probes) →
          probes.length ≤ env.settings.maxProbesDeliveredPerHeartbeat := by
    rw [hcall]
    simp only [ProbeCall.program, claimPendingProbes, Program.bind_eq, Program.bind_assoc,
      Program.ensures_bind, ensures_clock, ensures_select]
    intro seen hseen
    refine (Central.ensures_deliverProbes _ _).mono ?_
    rintro _ _ ⟨rfl, rfl⟩
    simp only
    split
    · rintro probes ⟨⟩
      exact List.length_take_le _ _
    · simp only [Program.ensures_bind, ensures_commit]
      refine ⟨trivial, fun _ _ _ => ?_, fun _ error _ _ => ?_⟩
      · rintro probes ⟨⟩
        exact List.length_take_le _ _
      · rintro probes ⟨⟩
  obtain ⟨-, -, hlength⟩ := Turn.next_eq_of_ensures turn hensures
  exact hlength probes hanswer

/-- Where Central hands out ten probes at a time at most, the agent tries and reports each of
them that has a port, once and in order, and never raises. -/
theorem handed_out_tried (hlimit : env.settings.maxProbesDeliveredPerHeartbeat ≤ 10)
    (hcall : turn.call = .claim hostId)
    (hanswer : turn.answer store (ProbeCall.program env) db = .ok (.claimed probes))
    {unread : Unread} {events : List Event} {outcome : Except Trouble ℕ}
    (hruns : (processPendingProbes F (heartbeatResponse hostId unread probes)).Runs events
      outcome) :
    Dealt hostId.text ((probes.filter fun probe => InRange probe).map requestOf) events ∧
      outcome = .ok (probes.filter fun probe => InRange probe).length := by
  have htaken : probes.take maxProbesPerCycle = probes :=
    List.take_of_length_le ((length_claimed_le hcall hanswer).trans hlimit)
  obtain ⟨hdealt, houtcome⟩ := processEntries_runs hruns
  rw [pendingEntries_heartbeatResponse, htaken, survey_pendingProbeOut] at hdealt houtcome
  refine ⟨hdealt, houtcome.trans ?_⟩
  simp

end Complete

/-! ## A probe of the sample host -/

/-- The probe of the sample host, as it is handed out. -/
def sampleProbe : HostProbe where
  id := ⟨BitVec.ofNat 128 11⟩
  hostId := sampleHost.id
  port := 8000
  protocol := .tcp
  bindAddress := defaultBindAddress
  status := .pending
  resultAvailable := none
  expiresAt := 10 + sampleEnvironment.settings.remoteProbeTtlSeconds * 1000000
  createdAt := 10

def sampleUnread : Unread := ⟨.scalar .none, .str "healthy", .str "unknown", .scalar .none⟩

/-- The agent of the sample host finds the port free. -/
def sampleRound : Round where
  hostId := sampleHost.id
  probes := [sampleProbe]
  events :=
    [⟨.bind 8000 .tcp "0.0.0.0",
        (.ok ⟨true, none⟩ : Except String Agent.PortSearch.BindProbeResult)⟩,
      ⟨.submit sampleHost.id.text sampleProbe.id.text (some true) none,
        (.ok () : Except Agent.Upgrade.Outside Unit)⟩]

theorem sampleRound_runs : (processPendingProbes plainFormats
    (heartbeatResponse sampleHost.id sampleUnread [sampleProbe])).Runs sampleRound.events
      (.ok 1) := by
  have hprogram : processPendingProbes plainFormats
      (heartbeatResponse sampleHost.id sampleUnread [sampleProbe]) =
        .call (.bind 8000 .tcp "0.0.0.0")
          fun (outcome : Except String Agent.PortSearch.BindProbeResult) =>
            .call (.submit sampleHost.id.text sampleProbe.id.text (reported outcome)
              (reasonOf outcome)) fun _ => .ret 1 := by
    rfl
  rw [hprogram]
  exact .call _ (.call _ (.ret _))

theorem sampleRound_answered : (turnAt 20 (.claim sampleHost.id)).answer store
    (ProbeCall.program sampleEnvironment)
    (Turn.runAll store (ProbeCall.program sampleEnvironment)
      [turnAt 10 (.queue sampleHost.id 8000 .tcp defaultBindAddress)] sampleDb) =
        .ok (.claimed [sampleProbe]) := rfl

theorem sample_probing : Probing sampleEnvironment plainFormats sampleDb
    (probeTurns ++ [answerTurn]) [sampleRound] := by
  have hqueued : Probing sampleEnvironment plainFormats sampleDb
      [turnAt 10 (.queue sampleHost.id 8000 .tcp defaultBindAddress)] [] :=
    .other _ .start fun _ _ _ _ hcall => by cases hcall
  have hdelivered : Probing sampleEnvironment plainFormats sampleDb probeTurns [sampleRound] :=
    .heartbeat _ sampleRound hqueued rfl sampleRound_answered sampleUnread sampleRound_runs
  exact .report answerTurn hdelivered (List.mem_singleton_self _)
    (List.mem_cons_of_mem _ (List.mem_singleton_self _)) rfl

theorem verdict_measured_sample : ∃ round ∈ [sampleRound], round.hostId = sampleHost.id ∧
    (∃ probe ∈ round.probes, probe.IsFor sampleHost.id 8000 .tcp defaultBindAddress) ∧
      ∃ reason, (⟨.bind (8000 : ℕ) .tcp (triedAddress defaultBindAddress),
        (.ok ⟨true, reason⟩ : Except String Agent.PortSearch.BindProbeResult)⟩ : Event) ∈
          round.events :=
  @verdict_measured sampleEnvironment plainFormats sampleDb _ _ sample_probing rfl _ _ _ _ 40 true rfl

theorem handed_out_tried_sample :
    Dealt sampleHost.id.text [requestOf sampleProbe] sampleRound.events ∧
      (.ok 1 : Except Trouble ℕ) = .ok 1 :=
  handed_out_tried (by decide) rfl sampleRound_answered sampleRound_runs

end Fleet
