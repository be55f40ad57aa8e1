/-
# The state of a port on an agent's host

`evaluate_all` puts what listens on a port beside its reservation, for every port that either
of them names. Several processes can listen on one port, on different addresses, and the
state is that of the listener which the scan lists first. So it is the state of the port, and a
conflict is seen, exactly where all listeners of the port stand alike to the reservation.
`reserve` asks the same first listener before it adopts a port for a project.
-/

import PortForge.Agent.Discovery
import PortForge.Agent.LocalStore
import PortForge.Python.Ranking
import PortForge.Python.Value

namespace Agent.Evaluation

open Central Discovery Python

/-- The port a listener has on the host. -/
def hostPortOf (found : Discovery.DiscoveredPort) : ℕ := found.hostPort.getD found.port

/-- The listener is on the port and protocol, on some address. -/
def listensOn (port : ℕ) (protocol : Protocol) (found : Discovery.DiscoveredPort) : Bool :=
  hostPortOf found = port ∧ found.protocol = protocol

/-- `_project_matches`. -/
def projectMatches (A : AgentHost) (discoveredProject : Option String)
    (reservationProject : String) : Bool :=
  match given discoveredProject with
  | none => false
  | some project => A.lower (strip project) = A.lower (strip reservationProject)

/-- `find_discovered`. -/
def findDiscovered (discovered : List Discovery.DiscoveredPort) (port : ℕ) (protocol : Protocol) :
    Option Discovery.DiscoveredPort :=
  discovered.find? (listensOn port protocol)

/-- `EvaluatedPort`. -/
structure EvaluatedPort where
  hostId : String
  port : ℕ
  protocol : Protocol
  state : PortState
  discovered : Option Discovery.DiscoveredPort := none
  reservation : Option Reservation := none
  conflictReason : Option String := none

/-- The name of who uses a port, for a reason. -/
def ownerDesc (found : Discovery.DiscoveredPort) : String :=
  ((given found.projectName).or ((given found.containerName).or (given found.processName))).getD
    "an unrecognized owner"

/-- The reason of a conflict. -/
def conflictReason (found : Discovery.DiscoveredPort) (reservation : Reservation) : String :=
  let project := reservation.project
  let owner := ownerDesc found
  s!"reserved for '{project}'" ++
    ((given reservation.service).map fun service => "/" ++ service).getD "" ++
    s!", but currently used by {owner}"

/-- `evaluate_port`. -/
def evaluatePort (A : AgentHost) (hostId : String) (port : ℕ) (protocol : Protocol)
    (discovered : Option Discovery.DiscoveredPort) (reservation : Option Reservation) :
    EvaluatedPort :=
  match discovered, reservation with
  | none, none => { hostId, port, protocol, state := .free }
  | none, some reservation =>
      { hostId, port, protocol, state := .reserved, reservation := some reservation }
  | some found, reservation =>
      if found.source = .system then
        { hostId, port, protocol, state := .system, discovered := some found, reservation }
      else
        match reservation with
        | none => { hostId, port, protocol, state := .active, discovered := some found }
        | some reservation =>
            if projectMatches A found.projectName reservation.project then
              { hostId, port, protocol, state := .active, discovered := some found,
                reservation := some reservation }
            else
              { hostId, port, protocol, state := .conflict, discovered := some found,
                reservation := some reservation,
                conflictReason := some (conflictReason found reservation) }

/-- The order of the results: by port, then by the protocol's name. -/
def PrecedesKey (a b : Protocol × ℕ) : Prop := toLex (a.2, a.1.value) ≤ toLex (b.2, b.1.value)

instance : DecidableRel PrecedesKey := fun _ _ => inferInstanceAs (Decidable (_ ≤ _))

/-- The keys that are evaluated. -/
def evaluationKeys (hostId : String) (discovered : List Discovery.DiscoveredPort)
    (reservations : List Reservation) : List (Protocol × ℕ) :=
  ((discovered.map fun found => (found.protocol, hostPortOf found)) ++
    (reservations.filter fun reservation => reservation.hostId = hostId).map fun reservation =>
      (reservation.protocol, reservation.port)).dedup.insertionSort PrecedesKey

/-- `evaluate_all`. -/
def evaluateAll (A : AgentHost) (discovered : List Discovery.DiscoveredPort)
    (reservations : List Reservation) : List EvaluatedPort :=
  (evaluationKeys A.hostId discovered reservations).map fun key =>
    evaluatePort A A.hostId key.2 key.1 (findDiscovered discovered key.2 key.1)
      (findReservation reservations A.hostId key.2 key.1 none)

/-! ## The state of a reservation -/

/-- The state of the port and protocol of a reservation among the results. -/
def statusOf (A : AgentHost) (discovered : List Discovery.DiscoveredPort)
    (reservations : List Reservation) (reservation : Reservation) : Option PortState :=
  ((evaluateAll A discovered reservations).find? fun result =>
    result.protocol = reservation.protocol ∧ result.port = reservation.port).map
      EvaluatedPort.state

/-- How a listener stands to a reservation of its port. -/
def standing (A : AgentHost) (reservation : Reservation) (found : Discovery.DiscoveredPort) :
    PortState :=
  if found.source = .system then .system
  else if projectMatches A found.projectName reservation.project then .active
  else .conflict

section Status

variable {A : AgentHost} {discovered : List Discovery.DiscoveredPort}
  {reservations : List Reservation} {reservation : Reservation}

theorem evaluatePort_key (hostId : String) (port : ℕ) (protocol : Protocol)
    (found : Option Discovery.DiscoveredPort) (reserved : Option Reservation) :
    (evaluatePort A hostId port protocol found reserved).protocol = protocol ∧
      (evaluatePort A hostId port protocol found reserved).port = port := by
  unfold evaluatePort
  split
  · exact ⟨rfl, rfl⟩
  · exact ⟨rfl, rfl⟩
  · split_ifs
    · exact ⟨rfl, rfl⟩
    · split
      · exact ⟨rfl, rfl⟩
      · split_ifs <;> exact ⟨rfl, rfl⟩

/-- A reserved port has the standing of its listener. -/
theorem evaluatePort_state (hostId : String) (port : ℕ) (protocol : Protocol)
    (found : Option Discovery.DiscoveredPort) (reserved : Reservation) :
    (evaluatePort A hostId port protocol found (some reserved)).state =
      (found.map (standing A reserved)).getD .reserved := by
  cases found with
  | none => rfl
  | some found =>
      simp only [evaluatePort, Option.map_some, Option.getD_some, standing]
      split_ifs <;> rfl

theorem mem_evaluationKeys {hostId : String} (hmem : reservation ∈ reservations)
    (hhost : reservation.hostId = hostId) :
    (reservation.protocol, reservation.port) ∈ evaluationKeys hostId discovered reservations := by
  rw [evaluationKeys, List.mem_insertionSort, List.mem_dedup, List.mem_append]
  apply Or.inr
  apply List.mem_map.mpr
  exact ⟨reservation, List.mem_filter.mpr ⟨hmem, decide_eq_true hhost⟩, rfl⟩

/-- A reservation of the host is evaluated by the first reservation of its port and protocol
and their first listener. -/
theorem statusOf_eq (hmem : reservation ∈ reservations) (hhost : reservation.hostId = A.hostId) :
    ∃ evaluated, findReservation reservations A.hostId reservation.port reservation.protocol none =
        some evaluated ∧
      statusOf A discovered reservations reservation =
        some (((findDiscovered discovered reservation.port reservation.protocol).map
          (standing A evaluated)).getD .reserved) := by
  have hfound : (findReservation reservations A.hostId reservation.port reservation.protocol
      none).isSome := by
    rw [findReservation, List.find?_isSome]
    exact ⟨reservation, hmem, by simp [Reservation.claims, hhost]⟩
  obtain ⟨evaluated, hevaluated⟩ := Option.isSome_iff_exists.mp hfound
  refine ⟨evaluated, hevaluated, ?_⟩
  have hkey : (evaluationKeys A.hostId discovered reservations).find? (fun key =>
      key = (reservation.protocol, reservation.port)) =
        some (reservation.protocol, reservation.port) := by
    cases hfind : (evaluationKeys A.hostId discovered reservations).find? (fun key =>
        key = (reservation.protocol, reservation.port)) with
    | none =>
        have hnot := List.find?_eq_none.mp hfind _ (mem_evaluationKeys hmem hhost)
        exact absurd (decide_eq_true rfl) hnot
    | some key =>
        have hsame := List.find?_some hfind
        exact congrArg some (of_decide_eq_true hsame)
  have hpred : (fun result : EvaluatedPort => decide
      (result.protocol = reservation.protocol ∧ result.port = reservation.port)) ∘ (fun key =>
        evaluatePort A A.hostId key.2 key.1 (findDiscovered discovered key.2 key.1)
          (findReservation reservations A.hostId key.2 key.1 none)) =
      fun key : Protocol × ℕ => decide (key = (reservation.protocol, reservation.port)) := by
    funext key
    obtain ⟨hprotocol, hport⟩ := evaluatePort_key (A := A) A.hostId key.2 key.1
      (findDiscovered discovered key.2 key.1)
      (findReservation reservations A.hostId key.2 key.1 none)
    simp only [Function.comp_apply, hprotocol, hport, Prod.ext_iff]
  rw [statusOf, evaluateAll, List.find?_map, hpred, hkey, Option.map_some, Option.map_some,
    hevaluated, evaluatePort_state]

/-- The state does not depend on the order of a scan exactly where all listeners of the port
stand alike to the reservation that is evaluated. -/
theorem statusOf_perm_iff (hmem : reservation ∈ reservations)
    (hhost : reservation.hostId = A.hostId) {evaluated : Reservation}
    (hevaluated : findReservation reservations A.hostId reservation.port reservation.protocol none =
      some evaluated) :
    (∀ discovered' : List Discovery.DiscoveredPort, discovered'.Perm discovered →
        statusOf A discovered' reservations reservation =
          statusOf A discovered reservations reservation) ↔
      ∀ a ∈ discovered, ∀ b ∈ discovered, listensOn reservation.port reservation.protocol a →
        listensOn reservation.port reservation.protocol b →
          standing A evaluated a = standing A evaluated b := by
  rw [← find?_perm_iff]
  have hstatus (ports : List Discovery.DiscoveredPort) :
      statusOf A ports reservations reservation =
        some (((findDiscovered ports reservation.port reservation.protocol).map
          (standing A evaluated)).getD .reserved) := by
    obtain ⟨other, hother, heq⟩ := @statusOf_eq A ports _ _ hmem hhost
    rw [hevaluated] at hother
    cases hother
    exact heq
  have hreserved (found : Discovery.DiscoveredPort) : standing A evaluated found ≠ .reserved := by
    unfold standing
    split_ifs <;> exact nofun
  apply forall_congr'
  intro ports
  apply forall_congr'
  intro _
  rw [hstatus ports, hstatus discovered, Option.some.injEq, findDiscovered, findDiscovered]
  cases ports.find? (listensOn reservation.port reservation.protocol) with
  | none =>
      cases discovered.find? (listensOn reservation.port reservation.protocol) with
      | none => exact iff_of_true rfl rfl
      | some b => exact iff_of_false (fun h => hreserved b h.symm) nofun
  | some a =>
      cases discovered.find? (listensOn reservation.port reservation.protocol) with
      | none => exact iff_of_false (hreserved a) nofun
      | some b => exact (Option.some_inj (a := standing A evaluated a)).symm

/-- A listener of the reservation's port, not of the system, that does not match it. -/
def Contested (A : AgentHost) (discovered : List Discovery.DiscoveredPort)
    (reservation : Reservation) : Prop :=
  ∃ found ∈ discovered, listensOn reservation.port reservation.protocol found ∧
    found.source ≠ .system ∧ ¬ projectMatches A found.projectName reservation.project

theorem standing_eq_conflict_iff (found : Discovery.DiscoveredPort) :
    standing A reservation found = .conflict ↔
      found.source ≠ .system ∧ ¬ projectMatches A found.projectName reservation.project := by
  unfold standing
  split_ifs with hsystem hmatches
  · exact iff_of_false nofun fun h => h.1 hsystem
  · exact iff_of_false nofun fun h => h.2 hmatches
  · exact iff_of_true rfl ⟨hsystem, hmatches⟩

/-- The reservation's state is one of the port, and its conflict is one of the reservation. -/
def Unanimous (A : AgentHost) (discovered : List Discovery.DiscoveredPort)
    (reservations : List Reservation) (reservation : Reservation) : Prop :=
  ∀ evaluated, findReservation reservations A.hostId reservation.port reservation.protocol none =
      some evaluated →
    (∀ a ∈ discovered, ∀ b ∈ discovered, listensOn reservation.port reservation.protocol a →
      listensOn reservation.port reservation.protocol b →
        standing A evaluated a = standing A evaluated b) ∧
    ((∃ found ∈ discovered, listensOn reservation.port reservation.protocol found ∧
        standing A evaluated found = .conflict) ↔ Contested A discovered reservation)

/-- Where all listeners stand alike, the state is a conflict if one of them makes one. -/
theorem statusOf_eq_conflict_iff (hmem : reservation ∈ reservations)
    (hhost : reservation.hostId = A.hostId) {evaluated : Reservation}
    (hevaluated : findReservation reservations A.hostId reservation.port reservation.protocol none =
      some evaluated)
    (halike : ∀ a ∈ discovered, ∀ b ∈ discovered,
      listensOn reservation.port reservation.protocol a →
      listensOn reservation.port reservation.protocol b →
        standing A evaluated a = standing A evaluated b) :
    statusOf A discovered reservations reservation = some .conflict ↔
      ∃ found ∈ discovered, listensOn reservation.port reservation.protocol found ∧
        standing A evaluated found = .conflict := by
  obtain ⟨other, hother, heq⟩ := @statusOf_eq A discovered _ _ hmem hhost
  rw [hevaluated] at hother
  cases hother
  rw [heq, Option.some.injEq, findDiscovered]
  cases hfirst : discovered.find? (listensOn reservation.port reservation.protocol) with
  | none =>
      refine iff_of_false nofun ?_
      rintro ⟨found, hfound, hlistens, -⟩
      exact List.find?_eq_none.mp hfirst found hfound hlistens
  | some first =>
      have hfirstMem := List.mem_of_find?_eq_some hfirst
      have hfirstOn := List.find?_some hfirst
      constructor
      · intro hconflict
        exact ⟨first, hfirstMem, hfirstOn, hconflict⟩
      · rintro ⟨found, hfound, hlistens, hconflict⟩
        exact (halike first hfirstMem found hfound hfirstOn hlistens).trans hconflict

/-- For every reservation, the state does not depend on the order of the scan and is a conflict
exactly where a listener makes one, if and only if the listeners of its port stand alike to the
reservation that is evaluated and that one is contested exactly where it is. -/
theorem evaluateAll_iff (A : AgentHost) (discovered : List Discovery.DiscoveredPort)
    (reservations : List Reservation) :
    (∀ reservation ∈ reservations, reservation.hostId = A.hostId →
      (∀ discovered' : List Discovery.DiscoveredPort, discovered'.Perm discovered →
        statusOf A discovered' reservations reservation =
          statusOf A discovered reservations reservation) ∧
      (statusOf A discovered reservations reservation = some .conflict ↔
        Contested A discovered reservation)) ↔
      ∀ reservation ∈ reservations, reservation.hostId = A.hostId →
        Unanimous A discovered reservations reservation := by
  apply forall_congr'
  intro reservation
  apply forall_congr'
  intro hmem
  apply forall_congr'
  intro hhost
  constructor
  · rintro ⟨horder, hconflict⟩ evaluated hevaluated
    have halike := (statusOf_perm_iff hmem hhost hevaluated).mp horder
    exact ⟨halike, (statusOf_eq_conflict_iff hmem hhost hevaluated halike).symm.trans hconflict⟩
  · intro hunanimous
    obtain ⟨evaluated, hevaluated, -⟩ := @statusOf_eq A discovered _ _ hmem hhost
    obtain ⟨halike, hsame⟩ := hunanimous evaluated hevaluated
    exact ⟨(statusOf_perm_iff hmem hhost hevaluated).mpr halike,
      (statusOf_eq_conflict_iff hmem hhost hevaluated halike).trans hsame⟩

/-- Where no two reservations share a port and protocol, the second part of the condition
holds. -/
theorem unanimous_iff_of_findReservation (hself : findReservation reservations A.hostId
      reservation.port reservation.protocol none = some reservation) :
    Unanimous A discovered reservations reservation ↔
      ∀ a ∈ discovered, ∀ b ∈ discovered, listensOn reservation.port reservation.protocol a →
        listensOn reservation.port reservation.protocol b →
          standing A reservation a = standing A reservation b := by
  constructor
  · intro hunanimous
    exact (hunanimous reservation hself).1
  · intro halike evaluated hevaluated
    rw [hself] at hevaluated
    cases hevaluated
    refine ⟨halike, ?_⟩
    simp only [standing_eq_conflict_iff, Contested]

end Status

/-- A project's server on one address of port 8000, and another's on a second address. -/
def mixedListeners : List Discovery.DiscoveredPort :=
  [{ port := 8000, protocol := .tcp, bindAddress := "127.0.0.1", source := .process,
     projectName := some "alpha", firstSeen := ⟨0, true⟩, lastSeen := ⟨0, true⟩ },
   { port := 8000, protocol := .tcp, bindAddress := "192.168.1.5", source := .process,
     projectName := some "beta", firstSeen := ⟨0, true⟩, lastSeen := ⟨0, true⟩ }]

def mixedReservation : Reservation where
  reservationId := "r1"
  hostId := "h1"
  port := 8000
  protocol := .tcp
  project := "alpha"
  service := none
  purpose := none
  bindAddress := none
  notes := none
  createdAt := 0
  updatedAt := 0

/-- The conflict with the second listener is not seen, and is seen where it comes first. -/
theorem evaluateAll_order_matters :
    ¬ ∀ (A : AgentHost) (discovered : List Discovery.DiscoveredPort)
      (reservations : List Reservation), ∀ reservation ∈ reservations,
        reservation.hostId = A.hostId →
        (∀ discovered' : List Discovery.DiscoveredPort, discovered'.Perm discovered →
          statusOf A discovered' reservations reservation =
            statusOf A discovered reservations reservation) ∧
        (statusOf A discovered reservations reservation = some .conflict ↔
          Contested A discovered reservation) := by
  intro hall
  have hperm : mixedListeners.reverse.Perm mixedListeners := List.reverse_perm _
  have hsame := (hall ⟨"h1", id⟩ mixedListeners [mixedReservation] mixedReservation
    (List.mem_singleton_self _) rfl).1 _ hperm
  exact absurd hsame (by decide)

end Agent.Evaluation

namespace Agent

/-- What `reserve` uses of a port of the scan. -/
def DiscoveredPort.ofScan (found : Discovery.DiscoveredPort) : DiscoveredPort where
  hostPort := found.hostPort
  port := found.port
  protocol := found.protocol
  projectName := found.projectName
  containerName := found.containerName
  processName := found.processName

/-- `ReserveResult.success`. -/
def ReserveResult.success (result : ReserveResult) : Bool :=
  result.outcome = .created ∨ result.outcome = .updatedSameProject ∨
    result.outcome = .adoptedActiveSameProject

/-- The listener is on the port and protocol, on some address. -/
def DiscoveredPort.listensOn (port : ℕ) (protocol : Central.Protocol) (found : DiscoveredPort) :
    Bool :=
  found.hostPort.getD found.port = port ∧ found.protocol = protocol

/-- Where nothing is reserved, `reserve` succeeds unless the first listener is another's. -/
theorem reserve_success_iff {A : AgentHost} {discovered : List DiscoveredPort}
    {reservations : List Reservation} {args : ReserveArguments} (id : String) (now : ℤ)
    (hnone : findExact reservations A.hostId args.port args.protocol = none) :
    (reserve A discovered reservations args id now).1.success ↔
      ∀ first ∈ discovered.find? (DiscoveredPort.listensOn args.port args.protocol),
        sameProject A first.projectName (some args.project) := by
  have hfind : discovered.find? (DiscoveredPort.listensOn args.port args.protocol) =
      findDiscovered discovered args.port args.protocol := rfl
  unfold reserve
  rw [hnone, hfind]
  cases findDiscovered discovered args.port args.protocol with
  | none => exact iff_of_true rfl nofun
  | some active =>
      dsimp only
      by_cases hsame : sameProject A active.projectName (some args.project)
      · rw [if_pos hsame]
        refine iff_of_true rfl ?_
        intro first hfirst
        cases hfirst
        exact hsame
      · rw [if_neg hsame]
        exact iff_of_false (by simp [ReserveResult.success]) fun hall => hsame (hall active rfl)

/-- On a port without a reservation, success of `reserve` means that every listener belongs to
the project, if and only if no listener of another follows a first one of the project's. -/
theorem reserve_sound_iff (A : AgentHost) (discovered : List DiscoveredPort)
    (reservations : List Reservation) (args : ReserveArguments) (id : String) (now : ℤ)
    (hnone : findExact reservations A.hostId args.port args.protocol = none) :
    ((reserve A discovered reservations args id now).1.success →
        ∀ found ∈ discovered, found.listensOn args.port args.protocol →
          sameProject A found.projectName (some args.project)) ↔
      ∀ before first after, discovered = before ++ first :: after →
        (∀ found ∈ before, ¬ found.listensOn args.port args.protocol) →
        first.listensOn args.port args.protocol →
        sameProject A first.projectName (some args.project) →
          ∀ found ∈ after, found.listensOn args.port args.protocol →
            sameProject A found.projectName (some args.project) := by
  rw [reserve_success_iff id now hnone]
  constructor
  · intro hsound before first after hsplit hbefore hlistens hsame found hfound
    refine hsound ?_ found (by simp [hsplit, hfound])
    intro other hother
    have hfirst : discovered.find? (DiscoveredPort.listensOn args.port args.protocol) =
        some first := by
      apply List.find?_eq_some_iff_append.mpr
      exact ⟨hlistens, before, after, hsplit, fun found hfound => by simp [hbefore found hfound]⟩
    rw [hfirst] at hother
    cases hother
    exact hsame
  · intro hfollow hfirst found hfound hlistens
    have hsome : (discovered.find? (DiscoveredPort.listensOn args.port args.protocol)).isSome :=
      List.find?_isSome.mpr ⟨found, hfound, hlistens⟩
    obtain ⟨first, heq⟩ := Option.isSome_iff_exists.mp hsome
    have hsame := hfirst first heq
    obtain ⟨hfirstOn, before, after, hsplit, hbefore⟩ := List.find?_eq_some_iff_append.mp heq
    rw [hsplit, List.mem_append, List.mem_cons] at hfound
    have hnot : ∀ found ∈ before, ¬ found.listensOn args.port args.protocol := by
      intro other hother hon
      have hoff := hbefore other hother
      rw [hon] at hoff
      cases hoff
    rcases hfound with hmem | rfl | hmem
    · exact absurd hlistens (hnot found hmem)
    · exact hsame
    · exact hfollow before first after hsplit hnot hfirstOn hsame found hmem hlistens

/-- A host that lowers the letters of ASCII. -/
def loweringHost : AgentHost := ⟨"h1", fun text => String.ofList (text.toList.map Char.toLower)⟩

/-- The two listeners, as `reserve` sees them. -/
def mixedPorts : List DiscoveredPort :=
  Evaluation.mixedListeners.map DiscoveredPort.ofScan

/-- A project adopts a port on which another project listens as well. -/
theorem reserve_adopts_shared :
    ¬ ∀ (A : AgentHost) (discovered : List DiscoveredPort) (reservations : List Reservation)
      (args : ReserveArguments) (id : String) (now : ℤ),
      findExact reservations A.hostId args.port args.protocol = none →
      (reserve A discovered reservations args id now).1.success →
        ∀ found ∈ discovered, found.listensOn args.port args.protocol →
          sameProject A found.projectName (some args.project) := by
  intro hall
  have hshared := hall ⟨"h1", id⟩ mixedPorts [] { port := 8000, project := "alpha" } "r1" 0
    (by decide) (by decide)
  exact absurd hshared (by decide)

/-- Listeners on two ports and by two protocols. Two of them are the project's own on one port,
one of these published by a container. -/
def ownListeners : List DiscoveredPort :=
  [⟨none, 9000, .tcp, some "beta", none, some "node"⟩,
    ⟨some 8000, 80, .tcp, some "alpha", some "alpha-web-1", none⟩,
    ⟨none, 8000, .udp, some "beta", none, some "dns"⟩,
    ⟨none, 8000, .tcp, some " Alpha", none, some "python"⟩]

/-- A reservation of the other port, and one of the same port on another host. -/
def otherReservations : List Reservation :=
  [{ Evaluation.mixedReservation with port := 9000, project := "beta" },
    { Evaluation.mixedReservation with reservationId := "r2", hostId := "h2", project := "beta" }]

/-- On a port with listeners of one project, the condition holds and so the law. -/
theorem reserve_sound_own :
    (reserve loweringHost ownListeners otherReservations { port := 8000, project := "alpha" }
        "r3" 0).1.success = true ∧
      ∀ found ∈ ownListeners, found.listensOn 8000 .tcp →
        sameProject loweringHost found.projectName (some "alpha") := by
  have hsuccess : (reserve loweringHost ownListeners otherReservations
      { port := 8000, project := "alpha" } "r3" 0).1.success = true := by decide +kernel
  refine ⟨hsuccess, (reserve_sound_iff loweringHost ownListeners otherReservations
    { port := 8000, project := "alpha" } "r3" 0 (by decide +kernel)).mpr ?_ hsuccess⟩
  intro before first after hsplit hbefore hlistens _
  -- The first listener on the port is the second of the list.
  rcases before with _ | ⟨other, _ | ⟨second, before⟩⟩
  · cases hsplit
    cases hlistens
  · cases hsplit
    decide +kernel
  · simp only [ownListeners, List.cons_append, List.cons.injEq] at hsplit
    obtain ⟨-, rfl, -⟩ := hsplit
    exact absurd rfl (hbefore _ (List.mem_cons_of_mem _ List.mem_cons_self))

end Agent
