/-
# Conflicts at Central and on the host

Central keeps the rows an agent's scans reported and lists conflicts of its own. The agent
evaluates the same reservations against the same listeners. Central asks for the row of the
reservation's own address, and the agent for the first listener of the port on any address,
which is no conflict where it belongs to the system. The two verdicts are compared here for
each reservation of a host.
-/

import PortForge.Agent.Evaluation
import PortForge.Central.Conflicts

namespace Fleet

open Central Agent Agent.Evaluation

/-- The kind of listener a row's `source` names. -/
def sourceOf (source : String) : Discovery.Source :=
  if source = "system" then .system
  else if source = "docker" then .docker
  else if source = "reservation" then .reservation
  else .process

/-- The row of an observation as a port of a scan. -/
def listenerOf (row : CurrentPortObservation) : Discovery.DiscoveredPort where
  port := row.port
  protocol := row.protocol
  bindAddress := row.bindAddress
  source := sourceOf row.source
  pid := row.pid
  processName := row.processName
  processPath := row.processPath
  workingDirectory := row.workingDirectory
  containerId := row.containerId
  containerName := row.containerName
  dockerComposeProject := row.dockerComposeProject
  containerImage := row.containerImage
  hostPort := some row.port
  containerPort := row.containerPort
  projectName := row.projectName
  serviceName := row.serviceName
  purpose := row.purpose
  category := row.category
  firstSeen := ⟨row.firstSeen, true⟩
  lastSeen := ⟨row.lastSeen, true⟩

/-- A reservation of the registry as the agent of its host has it. -/
def localReservation (A : AgentHost) (row : CentralReservation) : Agent.Reservation where
  reservationId := row.localReservationId.getD row.id.text
  hostId := A.hostId
  port := row.port
  protocol := row.protocol
  project := row.project
  service := row.service
  purpose := row.purpose
  bindAddress := row.bindAddress
  notes := row.notes
  createdAt := 0
  updatedAt := 0

/-- The agent's state of a reservation against what the registry has of its host. -/
def localStatus (A : AgentHost) (db : Db) (hostId : Uuid) (row : CentralReservation) :
    Option Discovery.PortState :=
  statusOf A ((db.listCurrentForHost hostId).map listenerOf)
    ((db.hostReservations hostId).map (localReservation A)) (localReservation A row)

/-- The first row of the host on the reservation's port and protocol, on any address. -/
def firstListener (db : Db) (hostId : Uuid) (reservation : CentralReservation) :
    Option CurrentPortObservation :=
  (db.listCurrentForHost hostId).find? fun row =>
    row.port = reservation.port ∧ row.protocol = reservation.protocol

/-- The first reservation of the host on the same port and protocol. -/
def firstReservation (db : Db) (hostId : Uuid) (reservation : CentralReservation) :
    CentralReservation :=
  ((db.hostReservations hostId).find? fun row =>
    row.port = reservation.port ∧ row.protocol = reservation.protocol).getD reservation

/-- A row that the agent counts as a conflict with a reservation. -/
def Contests (A : AgentHost) (row : CurrentPortObservation) (reservation : CentralReservation) :
    Prop :=
  row.source ≠ "system" ∧ ¬ Central.projectMatches A.lower row.projectName reservation.project

instance (A : AgentHost) (row : CurrentPortObservation) (reservation : CentralReservation) :
    Decidable (Contests A row reservation) :=
  inferInstanceAs (Decidable (_ ∧ _))

/-- Central misses a conflict of the agent: the first listener of the port is another's, but
Central does not read the reservation, or nothing listens on its own address, or its project's
own listener does. -/
def MissedByCentral (A : AgentHost) (db : Db) (query : Option Uuid) (hostId : Uuid)
    (reservation : CentralReservation) : Prop :=
  (∃ first ∈ firstListener db hostId reservation,
    Contests A first (firstReservation db hostId reservation)) ∧
    (reservation ∉ db.reservationPage query 10000 ∨ ∀ own ∈ db.currentOf reservation,
      Central.projectMatches A.lower own.projectName reservation.project)

/-- The agent misses a conflict of Central: the listener on the reservation's own address is
another's, but the first one of the port is the system's, or belongs to the project of the first
reservation of the port. -/
def MissedByAgent (A : AgentHost) (db : Db) (query : Option Uuid) (hostId : Uuid)
    (reservation : CentralReservation) : Prop :=
  (reservation ∈ db.reservationPage query 10000 ∧ ∃ own ∈ db.currentOf reservation,
    ¬ Central.projectMatches A.lower own.projectName reservation.project) ∧
    ∀ first ∈ firstListener db hostId reservation, first.source = "system" ∨
      Central.projectMatches A.lower first.projectName
        (firstReservation db hostId reservation).project

instance (A : AgentHost) (db : Db) (query : Option Uuid) (hostId : Uuid)
    (reservation : CentralReservation) : Decidable (MissedByCentral A db query hostId reservation) :=
  inferInstanceAs (Decidable (_ ∧ _))

instance (A : AgentHost) (db : Db) (query : Option Uuid) (hostId : Uuid)
    (reservation : CentralReservation) : Decidable (MissedByAgent A db query hostId reservation) :=
  inferInstanceAs (Decidable (_ ∧ _))

section Agreement

variable {A : AgentHost} {db : Db} {hostId : Uuid} {reservation : CentralReservation}

theorem sourceOf_eq_system_iff (source : String) :
    sourceOf source = .system ↔ source = "system" := by
  unfold sourceOf
  split_ifs with hsystem <;> simp [hsystem]

/-- The agent looks up the first listener. -/
theorem findDiscovered_listenerOf :
    Evaluation.findDiscovered ((db.listCurrentForHost hostId).map listenerOf) reservation.port
        reservation.protocol = (firstListener db hostId reservation).map listenerOf := by
  rw [Evaluation.findDiscovered, List.find?_map]
  rfl

/-- The agent looks up the first reservation. -/
theorem findReservation_localReservation (hmem : reservation ∈ db.hostReservations hostId) :
    findReservation ((db.hostReservations hostId).map (localReservation A)) A.hostId
        reservation.port reservation.protocol none =
      some (localReservation A (firstReservation db hostId reservation)) := by
  have hpred : ((fun other : Agent.Reservation => decide
      (other.claims A.hostId reservation.port reservation.protocol = true ∧
        (other.bindAddress = none ∨ (none : Option String) = none ∨ other.bindAddress = none))) ∘
          localReservation A) = fun row : CentralReservation =>
            decide (row.port = reservation.port ∧ row.protocol = reservation.protocol) := by
    funext row
    apply decide_eq_decide.mpr
    simp [Reservation.claims, localReservation]
  have hsome : ((db.hostReservations hostId).find? fun row => decide
      (row.port = reservation.port ∧ row.protocol = reservation.protocol)).isSome :=
    List.find?_isSome.mpr ⟨reservation, hmem, by simp⟩
  obtain ⟨first, hfirst⟩ := Option.isSome_iff_exists.mp hsome
  rw [findReservation, List.find?_map, hpred, firstReservation, hfirst]
  rfl

/-- The agent's state is a conflict where the first listener is one. -/
theorem localStatus_eq_conflict_iff (hmem : reservation ∈ db.hostReservations hostId) :
    localStatus A db hostId reservation = some .conflict ↔
      ∃ first, firstListener db hostId reservation = some first ∧
        Contests A first (firstReservation db hostId reservation) := by
  have hlocal : localReservation A reservation ∈
      (db.hostReservations hostId).map (localReservation A) := List.mem_map_of_mem hmem
  obtain ⟨evaluated, hevaluated, hstatus⟩ :=
    @statusOf_eq A ((db.listCurrentForHost hostId).map listenerOf) _ _ hlocal rfl
  have hfound : findReservation ((db.hostReservations hostId).map (localReservation A)) A.hostId
      reservation.port reservation.protocol none = some evaluated := hevaluated
  rw [findReservation_localReservation hmem, Option.some.injEq] at hfound
  subst hfound
  have hlistener : Evaluation.findDiscovered ((db.listCurrentForHost hostId).map listenerOf)
      (localReservation A reservation).port (localReservation A reservation).protocol =
        (firstListener db hostId reservation).map listenerOf := findDiscovered_listenerOf
  rw [localStatus, hstatus, hlistener, Option.some.injEq]
  cases firstListener db hostId reservation with
  | none => simp
  | some first =>
      simp only [Option.map_some, Option.getD_some, standing_eq_conflict_iff, Contests,
        Option.some.injEq, exists_eq_left']
      rw [show (listenerOf first).source = sourceOf first.source from rfl, ne_eq,
        sourceOf_eq_system_iff]
      rfl

/-- Central flags a reservation where the row of its own address does not match. -/
theorem flags_iff {query : Option Uuid} (hhost : (db.getHost hostId).isSome)
    (hmem : reservation ∈ db.hostReservations hostId) :
    db.Flags A.lower query reservation ↔ reservation ∈ db.reservationPage query 10000 ∧
      ∃ own, db.currentOf reservation = some own ∧
        ¬ Central.projectMatches A.lower own.projectName reservation.project := by
  have hown : reservation.hostId = hostId := of_decide_eq_true (List.mem_filter.mp hmem).2
  rw [Db.Flags, Db.conflictOf_isSome_iff (hown ▸ hhost)]

/-- The two verdicts on one reservation differ where one of the two misses it. -/
theorem flags_iff_conflict_iff {query : Option Uuid} (hhost : (db.getHost hostId).isSome)
    (hmem : reservation ∈ db.hostReservations hostId) :
    (db.Flags A.lower query reservation ↔ localStatus A db hostId reservation = some .conflict) ↔
      ¬ MissedByCentral A db query hostId reservation ∧
        ¬ MissedByAgent A db query hostId reservation := by
  have hflags := @flags_iff A db hostId reservation query hhost hmem
  have hconflict := @localStatus_eq_conflict_iff A db hostId reservation hmem
  have hcentral : MissedByCentral A db query hostId reservation ↔
      localStatus A db hostId reservation = some .conflict ∧
        ¬ db.Flags A.lower query reservation := by
    rw [hflags, hconflict, MissedByCentral, not_and_or]
    push Not
    rfl
  have hagent : MissedByAgent A db query hostId reservation ↔
      db.Flags A.lower query reservation ∧
        localStatus A db hostId reservation ≠ some .conflict := by
    rw [hflags, ne_eq, hconflict, MissedByAgent]
    refine and_congr_right fun _ => ?_
    simp only [Contests, Option.mem_def]
    push Not
    exact forall_congr' fun first => imp_congr_right fun _ => or_iff_not_imp_left
  rw [hcentral, hagent]
  tauto

end Agreement

/-- Central and the agent agree on the conflicts of a host, if and only if neither of them misses
one: each looks at one listener of the port, and they may be two. -/
theorem conflicts_agree_iff (A : AgentHost) (db : Db) (query : Option Uuid) (hostId : Uuid)
    (hhost : (db.getHost hostId).isSome) :
    (∀ reservation ∈ db.hostReservations hostId, (db.Flags A.lower query reservation ↔
        localStatus A db hostId reservation = some .conflict)) ↔
      ∀ reservation ∈ db.hostReservations hostId,
        ¬ MissedByCentral A db query hostId reservation ∧
          ¬ MissedByAgent A db query hostId reservation := by
  apply forall_congr'
  intro reservation
  apply forall_congr'
  intro hmem
  exact flags_iff_conflict_iff hhost hmem

def sampleLower : AgentHost := ⟨"h1", id⟩

/-- A listener of a project on the sample host. -/
def projectListener (port : ℕ) (bindAddress project : String) : CurrentPortObservation where
  id := ⟨BitVec.ofNat 128 port⟩
  hostId := sampleHost.id
  port := port
  protocol := .tcp
  bindAddress := bindAddress
  state := "ACTIVE"
  source := "process"
  pid := some 4100
  processName := some "python"
  processPath := none
  workingDirectory := none
  containerId := none
  containerName := none
  containerImage := none
  containerPort := none
  dockerComposeProject := none
  serviceName := none
  projectName := some project
  purpose := none
  category := none
  detectionConfidence := none
  firstSeen := 0
  lastSeen := 0
  observedAt := 0
  scanId := ⟨3⟩

/-- A reservation of the project alpha. -/
def alphaReservation (port : ℕ) (bindAddress : Option String) : CentralReservation where
  id := ⟨BitVec.ofNat 128 port⟩
  hostId := sampleHost.id
  port := port
  protocol := .tcp
  bindAddress := bindAddress
  project := "alpha"
  service := none
  purpose := none
  notes := none
  localReservationId := none
  allocationId := none
  requestName := none

/-- Two listeners of beta on 8000, one on alpha's loopback address; alpha's own server on 8001;
and nothing on 8002. -/
def servingDb : Db :=
  { sampleDb with
    reservations := [alphaReservation 8000 (some "127.0.0.1"), alphaReservation 8001 none,
      alphaReservation 8002 none]
    current := [projectListener 8000 "0.0.0.0" "beta", projectListener 8000 "127.0.0.1" "beta",
      projectListener 8001 "0.0.0.0" "Alpha "] }

/-- Both report the first of the reservations, and neither of them the others. -/
theorem conflicts_agree_iff_sample :
    (∀ reservation ∈ servingDb.hostReservations sampleHost.id,
      (servingDb.Flags loweringHost.lower none reservation ↔
        localStatus loweringHost servingDb sampleHost.id reservation = some .conflict)) ∧
      (servingDb.hostReservations sampleHost.id).map
          (localStatus loweringHost servingDb sampleHost.id) =
        [some .conflict, some .active, some .reserved] := by
  refine ⟨(conflicts_agree_iff loweringHost servingDb none sampleHost.id (by decide)).mpr ?_, ?_⟩
  · decide +kernel
  · decide +kernel

/-- The reserved port is used by another project, on the loopback address. -/
def loopbackDb : Db :=
  { reservedDb with current := [projectListener 8000 "127.0.0.1" "beta"] }

/-- The agent reports the conflict, and Central looks at `0.0.0.0` only. -/
theorem conflicts_disagree :
    ¬ ∀ (A : AgentHost) (db : Db) (query : Option Uuid) (hostId : Uuid),
      (db.getHost hostId).isSome → query = none ∨ query = some hostId →
        ∀ reservation ∈ db.hostReservations hostId, (db.Flags A.lower query reservation ↔
          localStatus A db hostId reservation = some .conflict) := by
  intro hall
  have hhost : (loopbackDb.getHost sampleHost.id).isSome := by decide
  have hmem : loopbackDb.reservations[0] ∈ loopbackDb.hostReservations sampleHost.id := by decide
  have hverdict := (flags_iff_conflict_iff hhost hmem).mp
    (hall sampleLower loopbackDb none sampleHost.id hhost (.inl rfl) _ hmem)
  exact hverdict.1 (by decide +kernel)

end Fleet
