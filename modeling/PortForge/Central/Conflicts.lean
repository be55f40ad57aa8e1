/-
# Conflicts and projects as Central lists them

`list_conflicts` compares every reservation with the current row of its own address; a
reservation without an address is compared with the row of `0.0.0.0`. `list_projects` and
`get_project` aggregate bindings, reservations and conflicts by project, each with its own
queries. A project has the hosts of its bindings in the list and those of its reservations as
well in the detail, so the counts agree exactly where its reservations add no host.
-/

import PortForge.Central.Health
import PortForge.Central.Repositories
import PortForge.Central.SingleCall
import PortForge.Python.Value

namespace Central

open Python

/-! ## Conflicts -/

/-- `ConflictOut`. -/
structure ConflictOut where
  hostId : Uuid
  hostname : String
  port : ℕ
  protocol : String
  reservedForProject : String
  reservedForService : Option String
  actualProject : Option String
  actualProcessName : Option String
  actualContainerName : Option String
  reason : String

/-- `_project_matches`, with Unicode's lower case of a text. -/
def projectMatches (lower : String → String) (observed : Option String) (reserved : String) :
    Bool :=
  match given observed with
  | none => false
  | some observed => lower (strip observed) = lower (strip reserved)

/-- `ReservationRepository.list(host_id, limit)`, of one host or of all: ordered by port. -/
def Db.reservationPage (db : Db) (hostId : Option Uuid) (limit : ℕ) : List CentralReservation :=
  ((db.reservations.filter fun row => hostId.all fun id => row.hostId = id).insertionSort
    fun a b => a.port ≤ b.port).take limit

/-- `PortRepository.get_current`: a binding has one row at most. -/
def Db.getCurrent (db : Db) (hostId : Uuid) (port : ℕ) (protocol : Protocol)
    (bindAddress : String) : Option CurrentPortObservation :=
  db.current.find? fun row =>
    row.hostId = hostId ∧ row.port = port ∧ row.protocol = protocol ∧ row.bindAddress = bindAddress

/-- The name of who uses a port, for a reason. -/
def CurrentPortObservation.owner (row : CurrentPortObservation) : String :=
  ((given row.projectName).or ((given row.containerName).or (given row.processName))).getD
    "an unrecognized owner"

/-- The row a reservation is compared with. -/
def Db.currentOf (db : Db) (reservation : CentralReservation) : Option CurrentPortObservation :=
  db.getCurrent reservation.hostId reservation.port reservation.protocol
    ((given reservation.bindAddress).getD "0.0.0.0")

/-- The entry of a reservation, if it is one. -/
def Db.conflictOf (db : Db) (lower : String → String) (reservation : CentralReservation) :
    Option ConflictOut :=
  match db.getHost reservation.hostId with
  | none => none
  | some host =>
      match db.currentOf reservation with
      | none => none
      | some current =>
          if projectMatches lower current.projectName reservation.project then none
          else
            let project := reservation.project
            let owner := current.owner
            some
              { hostId := host.id
                hostname := host.hostname
                port := reservation.port
                protocol := reservation.protocol.value
                reservedForProject := reservation.project
                reservedForService := reservation.service
                actualProject := current.projectName
                actualProcessName := current.processName
                actualContainerName := current.containerName
                reason := s!"reserved for '{project}', but currently used by {owner}" }

/-- `list_conflicts`. -/
def Db.listConflicts (db : Db) (lower : String → String) (hostId : Option Uuid) :
    List ConflictOut :=
  (db.reservationPage hostId 10000).filterMap (db.conflictOf lower)

/-- The listing has an entry for the reservation. -/
def Db.Flags (db : Db) (lower : String → String) (hostId : Option Uuid)
    (reservation : CentralReservation) : Prop :=
  reservation ∈ db.reservationPage hostId 10000 ∧ (db.conflictOf lower reservation).isSome

theorem Db.conflictOf_isSome_iff {db : Db} {lower : String → String}
    {reservation : CentralReservation} (hhost : (db.getHost reservation.hostId).isSome) :
    (db.conflictOf lower reservation).isSome ↔ ∃ current, db.currentOf reservation = some current ∧
      ¬ projectMatches lower current.projectName reservation.project := by
  obtain ⟨host, hhost⟩ := Option.isSome_iff_exists.mp hhost
  unfold Db.conflictOf
  rw [hhost]
  cases hcurrent : db.currentOf reservation with
  | none => simp
  | some current =>
      dsimp only
      by_cases hmatches : projectMatches lower current.projectName reservation.project
      · simp [hmatches]
      · simp [hmatches]

/-! ## Projects -/

/-- The counts of a project. -/
structure ProjectCounts where
  hostCount : ℕ
  portCount : ℕ
  processCount : ℕ
  dockerBindingCount : ℕ
  containerCount : ℕ
  reservationCount : ℕ
  conflictCount : ℕ
  healthyHostCount : ℕ
  staleHostCount : ℕ
  offlineHostCount : ℕ
  deriving DecidableEq

/-- `ProjectOut`: the counts, with the names. -/
structure ProjectOut where
  projectName : String
  counts : ProjectCounts
  lastActivity : Option ℤ
  hosts : List String

/-- The bindings with a project, each with its host. -/
def Db.projectBindings (db : Db) : List (CurrentPortObservation × Host) :=
  db.current.filterMap fun row =>
    (db.getHost row.hostId).bind fun host => row.projectName.map fun _ => (row, host)

/-- `bindings_by_project.get(name, [])`: bindings of the empty name are left out. -/
def Db.bindingsByProject (db : Db) (name : String) : List (CurrentPortObservation × Host) :=
  db.projectBindings.filter fun entry => given entry.1.projectName = some name

/-- The bindings that `get_project` selects. -/
def Db.bindingsOf (db : Db) (name : String) : List (CurrentPortObservation × Host) :=
  db.projectBindings.filter fun entry => entry.1.projectName = some name

/-- The reservations of a project. -/
def Db.reservationsOf (db : Db) (name : String) : List CentralReservation :=
  db.reservations.filter fun row => row.project = name

/-- What a conflict adds to the count of a project in the list. -/
def ConflictOut.weight (name : String) (conflict : ConflictOut) : ℕ :=
  (if conflict.reservedForProject = name then 1 else 0) +
    (if (given conflict.actualProject).any fun actual =>
        actual ≠ conflict.reservedForProject ∧ actual = name then 1 else 0)

/-- The conflict is one of the project in the detail. -/
def ConflictOut.concerns (name : String) (conflict : ConflictOut) : Bool :=
  conflict.reservedForProject = name ∨ conflict.actualProject = some name

/-- The hosts of the bindings: `{host.id: host for _, host in rows}`. -/
def hostsOf (rows : List (CurrentPortObservation × Host)) : List Host :=
  (rows.map Prod.snd).dedup

/-- The hosts that `get_project` selects: those of the bindings and of the reservations. -/
def Db.projectHosts (db : Db) (name : String) : List Host :=
  (((db.bindingsOf name).map fun entry => entry.1.hostId) ++
    (db.reservationsOf name).map CentralReservation.hostId).filterMap db.getHost |>.dedup

/-- The counts that both services make, of bindings, hosts, reservations and conflicts. -/
def projectCounts (env : Environment) (now : ℤ) (rows : List (CurrentPortObservation × Host))
    (hosts : List Host) (reservationCount conflictCount : ℕ) : ProjectCounts where
  hostCount := hosts.length
  portCount := rows.length
  processCount := rows.countP fun entry => entry.1.source = "process"
  dockerBindingCount := rows.countP fun entry => entry.1.source = "docker"
  containerCount := (rows.filterMap fun entry => given entry.1.containerId).dedup.length
  reservationCount := reservationCount
  conflictCount := conflictCount
  healthyHostCount := hosts.countP fun host => (env.health host.lastSeen now).1 = .healthy
  staleHostCount := hosts.countP fun host => (env.health host.lastSeen now).1 = .stale
  offlineHostCount := hosts.countP fun host => (env.health host.lastSeen now).1 = .offline

/-- `ORDER BY timestamp DESC`. -/
def newestFirst (events : List ActivityEvent) : List ActivityEvent :=
  events.insertionSort fun a b => b.timestamp ≤ a.timestamp

/-- `metadata_json["project_name"]`. -/
def ActivityEvent.metadataProject (event : ActivityEvent) : Option String :=
  (event.metadata.getD []).lookup "project_name"

/-- The project of the list that an event is linked to. -/
def ActivityEvent.linkedProject (names : List String) (event : ActivityEvent) : Option String :=
  match event.metadataProject with
  | some project => if project ∈ names then some project else event.identityContext
  | none => event.identityContext

/-- The names of `list_projects`, before the page is cut. -/
def Db.projectNames (db : Db) : List String :=
  sorted ((db.projectBindings.filterMap fun entry => given entry.1.projectName) ++
    db.reservations.map CentralReservation.project).dedup

/-- `list_projects`. -/
def Db.listProjects (db : Db) (env : Environment) (lower : String → String) (now : ℤ)
    (limit offset : ℕ) : List ProjectOut :=
  let names := (db.projectNames.drop offset).take limit
  names.map fun name =>
    let rows := db.bindingsByProject name
    { projectName := name
      counts := projectCounts env now rows (hostsOf rows) (db.reservationsOf name).length
        (((db.listConflicts lower none).map (ConflictOut.weight name)).sum)
      lastActivity := ((newestFirst db.activity).find? fun event =>
        event.linkedProject names = some name).map ActivityEvent.timestamp
      hosts := sorted ((hostsOf rows).map Host.hostname) }

/-- `_project_activity`. -/
def Db.projectActivity (db : Db) (name : String) (limit : ℕ) : List ActivityEvent :=
  let candidates := (newestFirst db.activity).filter fun event => event.identityContext = some name
  let metadataCandidates := (newestFirst db.activity).filter fun event =>
    event.metadataProject = some name
  (newestFirst (candidates.take limit ++ metadataCandidates.take limit).dedup).take limit

/-- `get_project`, without its pages: they cut the same rows. -/
def Db.getProject (db : Db) (env : Environment) (lower : String → String) (now : ℤ)
    (activityLimit : ℕ) (name : String) : Option ProjectOut :=
  let rows := db.bindingsOf name
  let reservationRows := db.reservationsOf name
  if rows = [] ∧ reservationRows = [] then none
  else
    some
      { projectName := name
        counts := projectCounts env now rows (db.projectHosts name) reservationRows.length
          ((db.listConflicts lower none).filter (ConflictOut.concerns name)).length
        lastActivity := (db.projectActivity name activityLimit).head?.map ActivityEvent.timestamp
        hosts := sorted ((db.projectHosts name).map Host.hostname) }

/-! ## Where the two agree -/

/-- Every host that a reservation adds has a binding of the project, and no binding has the
empty name. -/
def Db.HostsBound (db : Db) (name : String) : Prop :=
  (∀ row ∈ db.reservationsOf name, ∀ host, db.getHost row.hostId = some host →
    host ∈ hostsOf (db.bindingsByProject name)) ∧
  (name = "" → db.bindingsOf name = [])

section Counts

variable {db : Db} {name : String}

theorem bindingsByProject_eq (h : name ≠ "") :
    db.bindingsByProject name = db.bindingsOf name := by
  apply List.filter_congr
  intro entry _
  cases entry.1.projectName with
  | none => rfl
  | some project =>
      by_cases hproject : project = name
      · subst hproject
        simp [given, h]
      · by_cases hempty : project = ""
        · simp [given, hempty, h.symm]
        · simp [given, h]

theorem bindingsByProject_empty : db.bindingsByProject "" = [] := by
  apply List.filter_eq_nil_iff.mpr
  intro entry _ hgiven
  have hsome := of_decide_eq_true hgiven
  cases hproject : entry.1.projectName with
  | none | some project => simp [hproject, given] at hsome

theorem mem_projectBindings {entry : CurrentPortObservation × Host} :
    entry ∈ db.projectBindings ↔ entry.1 ∈ db.current ∧ db.getHost entry.1.hostId = some entry.2 ∧
      entry.1.projectName.isSome := by
  obtain ⟨row, host⟩ := entry
  simp only [Db.projectBindings, List.mem_filterMap, Option.bind_eq_some_iff,
    Option.map_eq_some_iff, Prod.mk.injEq]
  constructor
  · rintro ⟨other, hmem, found, hfound, project, hproject, rfl, rfl⟩
    exact ⟨hmem, hfound, by simp [hproject]⟩
  · rintro ⟨hmem, hfound, hproject⟩
    obtain ⟨project, hproject⟩ := Option.isSome_iff_exists.mp hproject
    exact ⟨row, hmem, host, hfound, project, hproject, rfl, rfl⟩

theorem mem_projectHosts {host : Host} :
    host ∈ db.projectHosts name ↔ host ∈ hostsOf (db.bindingsOf name) ∨
      ∃ row ∈ db.reservationsOf name, db.getHost row.hostId = some host := by
  simp only [Db.projectHosts, hostsOf, List.mem_dedup, List.mem_filterMap, List.mem_append,
    List.mem_map]
  constructor
  · rintro ⟨hostId, ⟨entry, hentry, rfl⟩ | ⟨row, hrow, rfl⟩, hfound⟩
    · have hown := (mem_projectBindings.mp (List.mem_of_mem_filter hentry)).2.1
      rw [hown] at hfound
      exact .inl ⟨entry, hentry, Option.some.inj hfound⟩
    · exact .inr ⟨row, hrow, hfound⟩
  · rintro (⟨entry, hentry, rfl⟩ | ⟨row, hrow, hfound⟩)
    · exact ⟨_, .inl ⟨entry, hentry, rfl⟩,
        (mem_projectBindings.mp (List.mem_of_mem_filter hentry)).2.1⟩
    · exact ⟨_, .inr ⟨row, hrow, rfl⟩, hfound⟩

theorem hostsOf_subset : hostsOf (db.bindingsByProject name) ⊆ db.projectHosts name := by
  intro host hhost
  by_cases h : name = ""
  · subst h
    rw [bindingsByProject_empty] at hhost
    cases hhost
  · rw [bindingsByProject_eq h] at hhost
    exact mem_projectHosts.mpr (.inl hhost)

/-- The detail has no more hosts than the list exactly where the reservations add none. -/
theorem hostsOf_perm_iff (hnonempty : name = "" → db.bindingsOf name = []) :
    (hostsOf (db.bindingsByProject name)).Perm (db.projectHosts name) ↔
      ∀ row ∈ db.reservationsOf name, ∀ host, db.getHost row.hostId = some host →
        host ∈ hostsOf (db.bindingsByProject name) := by
  have hrows : db.bindingsByProject name = db.bindingsOf name := by
    by_cases h : name = ""
    · rw [hnonempty h, h, bindingsByProject_empty]
    · exact bindingsByProject_eq h
  constructor
  · intro hperm row hrow host hfound
    exact hperm.mem_iff.mpr (mem_projectHosts.mpr (.inr ⟨row, hrow, hfound⟩))
  · intro hbound
    apply (List.perm_ext_iff_of_nodup (List.nodup_dedup _) (List.nodup_dedup _)).mpr
    intro host
    constructor
    · exact fun hhost => hostsOf_subset hhost
    · intro hhost
      rcases mem_projectHosts.mp hhost with hmem | ⟨row, hrow, hfound⟩
      · exact hrows ▸ hmem
      · exact hbound row hrow host hfound

/-- A conflict counts once for a project that it concerns. -/
theorem weight_eq {conflict : ConflictOut}
    (hactual : name = "" → conflict.actualProject ≠ some "") :
    conflict.weight name = if conflict.concerns name then 1 else 0 := by
  unfold ConflictOut.weight ConflictOut.concerns
  by_cases hreserved : conflict.reservedForProject = name
  · have hother : ¬ (given conflict.actualProject).any fun actual =>
        decide (actual ≠ conflict.reservedForProject ∧ actual = name) := by
      simp [hreserved]
    rw [if_pos hreserved, if_neg hother, if_pos (by simp [hreserved])]
  · rw [if_neg hreserved, Nat.zero_add]
    apply if_congr _ rfl rfl
    cases hproject : conflict.actualProject with
    | none => simp [given, hreserved]
    | some actual =>
        by_cases hempty : actual = ""
        · subst hempty
          have hname : "" ≠ name := fun h => hactual h.symm hproject
          simp [given, hreserved, hname]
        · by_cases hactualName : actual = name
          · subst hactualName
            simp [given, hempty, Ne.symm hreserved]
          · simp [given, hempty, hactualName, hreserved]

theorem sum_weight {conflicts : List ConflictOut}
    (hactual : name = "" → ∀ conflict ∈ conflicts, conflict.actualProject ≠ some "") :
    (conflicts.map (ConflictOut.weight name)).sum =
      (conflicts.filter (ConflictOut.concerns name)).length := by
  induction conflicts with
  | nil => rfl
  | cons conflict conflicts ih =>
      have hrest := ih fun hname other hother => hactual hname other (List.mem_cons_of_mem _ hother)
      rw [List.map_cons, List.sum_cons, hrest,
        weight_eq fun hname => hactual hname conflict List.mem_cons_self]
      by_cases hconcerns : conflict.concerns name
      · rw [if_pos hconcerns, List.filter_cons_of_pos hconcerns, List.length_cons, Nat.add_comm]
      · rw [if_neg hconcerns, List.filter_cons_of_neg hconcerns, Nat.zero_add]

/-- The project of a conflict's listener is that of a binding. -/
theorem exists_binding_of_conflict {lower : String → String} {hostId : Option Uuid}
    {conflict : ConflictOut} (h : conflict ∈ db.listConflicts lower hostId) {actual : String}
    (hactual : conflict.actualProject = some actual) : db.bindingsOf actual ≠ [] := by
  obtain ⟨row, -, hconflict⟩ := List.mem_filterMap.mp h
  unfold Db.conflictOf at hconflict
  cases hhost : db.getHost row.hostId with
  | none => simp [hhost] at hconflict
  | some host =>
      cases hcurrent : db.currentOf row with
      | none => simp [hhost, hcurrent] at hconflict
      | some current =>
          rw [hhost, hcurrent] at hconflict
          dsimp only at hconflict
          split_ifs at hconflict
          cases hconflict
          have hmem := List.mem_of_find?_eq_some hcurrent
          have hsame := List.find?_some hcurrent
          simp only [decide_eq_true_eq] at hsame
          have hproject : current.projectName = some actual := hactual
          refine List.ne_nil_of_mem (a := (current, host)) (List.mem_filter.mpr ⟨?_, ?_⟩)
          · refine mem_projectBindings.mpr ⟨hmem, ?_, ?_⟩
            · rw [hsame.1]
              exact hhost
            · rw [hproject]
              rfl
          · exact decide_eq_true hproject

/-- A name of the list has a binding or a reservation. -/
theorem listed_of_mem_projectNames (h : name ∈ db.projectNames) :
    db.bindingsOf name ≠ [] ∨ db.reservationsOf name ≠ [] := by
  rw [Db.projectNames, sorted, List.mem_mergeSort, List.mem_dedup, List.mem_append] at h
  rcases h with hbound | hreserved
  · obtain ⟨entry, hentry, hgiven⟩ := List.mem_filterMap.mp hbound
    refine .inl (List.ne_nil_of_mem (a := entry) (List.mem_filter.mpr ⟨hentry, ?_⟩))
    apply decide_eq_true
    exact (Option.filter_eq_some_iff.mp hgiven).1
  · obtain ⟨row, hrow, hproject⟩ := List.mem_map.mp hreserved
    exact .inr (List.ne_nil_of_mem (a := row) (List.mem_filter.mpr ⟨hrow, decide_eq_true hproject⟩))

/-- The counts of a project in the list and in its detail. -/
theorem projectCounts_eq_iff (env : Environment) (lower : String → String) (now : ℤ) :
    projectCounts env now (db.bindingsByProject name) (hostsOf (db.bindingsByProject name))
        (db.reservationsOf name).length
        (((db.listConflicts lower none).map (ConflictOut.weight name)).sum) =
      projectCounts env now (db.bindingsOf name) (db.projectHosts name)
        (db.reservationsOf name).length
        ((db.listConflicts lower none).filter (ConflictOut.concerns name)).length ↔
      db.HostsBound name := by
  constructor
  · intro hequal
    have hhosts : (hostsOf (db.bindingsByProject name)).length = (db.projectHosts name).length :=
      congrArg ProjectCounts.hostCount hequal
    have hports : (db.bindingsByProject name).length = (db.bindingsOf name).length :=
      congrArg ProjectCounts.portCount hequal
    have hempty : name = "" → db.bindingsOf name = [] := by
      rintro rfl
      rw [bindingsByProject_empty, List.length_nil] at hports
      exact List.eq_nil_of_length_eq_zero hports.symm
    have hperm : (hostsOf (db.bindingsByProject name)).Perm (db.projectHosts name) :=
      ((List.nodup_dedup _).subperm hostsOf_subset).perm_of_length_le hhosts.ge
    exact ⟨(hostsOf_perm_iff hempty).mp hperm, hempty⟩
  · rintro ⟨hbound, hempty⟩
    have hrows : db.bindingsByProject name = db.bindingsOf name := by
      by_cases h : name = ""
      · rw [hempty h, h, bindingsByProject_empty]
      · exact bindingsByProject_eq h
    have hperm := (hostsOf_perm_iff hempty).mpr hbound
    have hconflicts : ((db.listConflicts lower none).map (ConflictOut.weight name)).sum =
        ((db.listConflicts lower none).filter (ConflictOut.concerns name)).length := by
      apply sum_weight
      intro hname conflict hconflict hactual
      rw [← hname] at hactual
      exact exists_binding_of_conflict hconflict hactual (hempty hname)
    rw [hconflicts, projectCounts, projectCounts, hperm.length_eq, hperm.countP_eq, hperm.countP_eq,
      hperm.countP_eq, hrows]

end Counts

/-- Every row of the list agrees with the detail of its project, if and only if no reservation
of a listed project adds a host and the empty name has no binding. -/
theorem projects_agree_iff (db : Db) (env : Environment) (lower : String → String) (now : ℤ)
    (limit offset activityLimit : ℕ) :
    (∀ row ∈ db.listProjects env lower now limit offset,
      ∃ detail, db.getProject env lower now activityLimit row.projectName = some detail ∧
        row.counts = detail.counts) ↔
      ∀ row ∈ db.listProjects env lower now limit offset, db.HostsBound row.projectName := by
  apply forall_congr'
  intro row
  apply forall_congr'
  intro hrow
  obtain ⟨name, hname, rfl⟩ := List.mem_map.mp hrow
  have hlisted := listed_of_mem_projectNames (List.drop_subset _ _ (List.take_subset _ _ hname))
  have hfound : ¬ (db.bindingsOf name = [] ∧ db.reservationsOf name = []) := by
    rintro ⟨hbindings, hreservations⟩
    exact hlisted.elim (fun h => h hbindings) fun h => h hreservations
  rw [← projectCounts_eq_iff env lower now]
  unfold Db.getProject
  simp only [if_neg hfound, Option.some.injEq]
  exact exists_eq_left'

/-- A registry with one host and a reservation of a project that has not been seen. -/
def reservedDb : Db :=
  { sampleDb with
    reservations :=
      [{ id := ⟨7⟩, hostId := sampleHost.id, port := 8000, protocol := .tcp, bindAddress := none,
         project := "alpha", service := none, purpose := none, notes := none,
         localReservationId := none, allocationId := none, requestName := none }] }

/-- A project that is only reserved has no host in the list, and one in its detail. -/
theorem projects_differ :
    ¬ ∀ (db : Db) (env : Environment) (lower : String → String) (now : ℤ)
      (limit offset activityLimit : ℕ), ∀ row ∈ db.listProjects env lower now limit offset,
        ∃ detail, db.getProject env lower now activityLimit row.projectName = some detail ∧
          row.counts = detail.counts := by
  intro hall
  have hnames : reservedDb.projectNames = ["alpha"] := by
    have hdedup : ((reservedDb.projectBindings.filterMap fun entry =>
        given entry.1.projectName) ++
          reservedDb.reservations.map CentralReservation.project).dedup = ["alpha"] := rfl
    rw [Db.projectNames, hdedup, sorted, List.mergeSort_singleton]
  have hlisted : "alpha" ∈ (reservedDb.projectNames.drop 0).take 200 := by
    rw [hnames]
    exact List.mem_singleton_self _
  obtain ⟨detail, hdetail, hcounts⟩ := hall reservedDb sampleEnvironment id 0 200 0 50 _
    (List.mem_map_of_mem hlisted)
  cases hdetail
  have hhosts := congrArg ProjectCounts.hostCount hcounts
  exact absurd hhosts (by decide)

end Central
