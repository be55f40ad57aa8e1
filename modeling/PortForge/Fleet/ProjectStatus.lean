/-
# The status of a project

`project status` shows for every service of a manifest what Central's list of allocations
has of it. The list is one page of the newest allocations, of any status and on any host;
where several of the project's allocations have an entry for a service, the oldest one on
the page is what is shown.
-/

import PortForge.Agent.HostReferences
import PortForge.Agent.Manifest
import PortForge.Central.AllocationViews
import Mathlib.Data.List.Duplicate

namespace Fleet

open Central Agent Transaction

/-! ## The command -/

/-- The value of `Allocation.status`. -/
def statusText : AllocationStatus → String
  | .active => "active"
  | .released => "released"

/-- What is shown for one service. -/
structure StatusRow where
  service : String
  purpose : String
  protocol : String
  preferredPort : Option ℕ
  requestedRange : Option String
  allocationStatus : String
  allocationId : Option Uuid
  host : Option AllocationHostOut
  allocatedPort : Option ℕ
  verification : Option BindProbe

/-- The row of a service before Central is asked. -/
def unallocated (item : ManifestPortRequest) : StatusRow where
  service := item.name
  purpose := item.purpose
  protocol := item.protocol
  preferredPort := item.preferredPort
  requestedRange := item.requestedRange
  allocationStatus := "UNALLOCATED"
  allocationId := none
  host := none
  allocatedPort := none
  verification := none

/-- The row after an entry of its service has been met. -/
def StatusRow.matched (row : StatusRow) (allocation : AllocationOut)
    (entry : AllocationEntryOut) : StatusRow :=
  { row with
    allocationId := some allocation.allocationId
    host := some allocation.host
    allocatedPort := some entry.port
    allocationStatus := statusText allocation.status
    verification := some entry.bindProbe }

/-- An entry changes the first row of its service. -/
def matchRow (allocation : AllocationOut) (entry : AllocationEntryOut) :
    List StatusRow → List StatusRow
  | [] => []
  | row :: rows =>
      if row.service = entry.name then row.matched allocation entry :: rows
      else row :: matchRow allocation entry rows

/-- The loop over the allocations. -/
def matchRows (project : String) (rows : List StatusRow) (allocations : List AllocationOut) :
    List StatusRow :=
  allocations.foldl (fun rows allocation =>
    if allocation.project ≠ project then rows
    else allocation.allocations.foldl (fun rows entry => matchRow allocation entry rows) rows) rows

/-- What `project status` reports. -/
structure ProjectStatus where
  project : String
  centralAvailable : Bool
  centralError : Option String
  services : List StatusRow

/-- `_cmd_project_status`, from the manifest and what `client.list_allocations()` returns. -/
def projectStatus (manifest : ProjectManifest) (listed : Except String (List AllocationOut)) :
    ProjectStatus where
  project := manifest.project
  centralAvailable := listed.toOption.isSome
  centralError :=
    match listed with
    | .error error => some error
    | .ok _ => none
  services := matchRows manifest.project (manifest.requests.map unallocated)
    (listed.toOption.getD [])

/-- The page that `list_allocations` of the client asks for. -/
def statusQuery : AllocationQuery := { limit := 100 }

/-! ## The rows -/

/-- The entries that are looked at, with their allocations. -/
def entriesOf (project : String) (allocations : List AllocationOut) :
    List (AllocationOut × AllocationEntryOut) :=
  (allocations.filter fun allocation => allocation.project = project).flatMap fun allocation =>
    allocation.allocations.map fun entry => (allocation, entry)

theorem matchRows_eq (project : String) (rows : List StatusRow)
    (allocations : List AllocationOut) :
    matchRows project rows allocations =
      (entriesOf project allocations).foldl (fun rows met => matchRow met.1 met.2 rows) rows := by
  induction allocations generalizing rows with
  | nil => rfl
  | cons allocation allocations ih =>
      rw [matchRows, List.foldl_cons, ← matchRows, ih, entriesOf, entriesOf, List.filter_cons]
      by_cases hproject : allocation.project = project
      · rw [if_neg (not_not.mpr hproject), if_pos (by simpa using hproject), List.flatMap_cons,
          List.foldl_append, List.foldl_map]
      · rw [if_pos hproject, if_neg (by simpa using hproject)]

/-- The last entry of a service. -/
def lastEntry (service : String) (met : List (AllocationOut × AllocationEntryOut)) :
    Option (AllocationOut × AllocationEntryOut) :=
  (met.filter fun entry => entry.2.name = service).getLast?

/-- A row after some entries: the last one of its service is what counts. -/
def StatusRow.after (row : StatusRow) : Option (AllocationOut × AllocationEntryOut) → StatusRow
  | none => row
  | some (allocation, entry) => row.matched allocation entry

/-- The rows of the requests, where the first of each name is the one that is changed. -/
def rowsFor (change : String → Option (AllocationOut × AllocationEntryOut)) :
    List String → List ManifestPortRequest → List StatusRow
  | _, [] => []
  | seen, item :: items =>
      (if item.name ∈ seen then unallocated item else (unallocated item).after (change item.name)) ::
        rowsFor change (item.name :: seen) items

theorem rowsFor_none (seen : List String) (items : List ManifestPortRequest) :
    rowsFor (fun _ => none) seen items = items.map unallocated := by
  induction items generalizing seen with
  | nil => rfl
  | cons item items ih =>
      rw [rowsFor, ih, List.map_cons]
      split <;> rfl

theorem rowsFor_congr {change other : String → Option (AllocationOut × AllocationEntryOut)}
    {seen : List String} (h : ∀ name, name ∉ seen → change name = other name)
    (items : List ManifestPortRequest) : rowsFor change seen items = rowsFor other seen items := by
  induction items generalizing seen with
  | nil => rfl
  | cons item items ih =>
      rw [rowsFor, rowsFor, ih fun name hname => h name fun hmem =>
        hname (List.mem_cons_of_mem _ hmem)]
      split
      · rfl
      · next hnew => rw [h item.name hnew]

theorem service_after (item : ManifestPortRequest)
    (met : Option (AllocationOut × AllocationEntryOut)) :
    ((unallocated item).after met).service = item.name := by
  cases met <;> rfl

theorem matched_after (row : StatusRow) (met : Option (AllocationOut × AllocationEntryOut))
    (allocation : AllocationOut) (entry : AllocationEntryOut) :
    (row.after met).matched allocation entry = row.matched allocation entry := by
  cases met <;> rfl

/-- An entry replaces what was there for its service. -/
theorem matchRow_rowsFor (change : String → Option (AllocationOut × AllocationEntryOut))
    {seen : List String} (allocation : AllocationOut) {entry : AllocationEntryOut}
    (hnew : entry.name ∉ seen) (items : List ManifestPortRequest) :
    matchRow allocation entry (rowsFor change seen items) =
      rowsFor (Function.update change entry.name (some (allocation, entry))) seen items := by
  induction items generalizing seen with
  | nil => rfl
  | cons item items ih =>
      rw [rowsFor, rowsFor]
      by_cases hname : item.name = entry.name
      · have hseen : item.name ∉ seen := hname ▸ hnew
        rw [if_neg hseen, if_neg hseen, matchRow, service_after, if_pos hname, matched_after,
          hname, Function.update_self]
        refine congrArg _ (rowsFor_congr (fun name hout => ?_) items)
        have hne : name ≠ entry.name := by
          rintro rfl
          exact hout List.mem_cons_self
        exact (Function.update_of_ne hne _ _).symm
      · have hservice : (if item.name ∈ seen then unallocated item
            else (unallocated item).after (change item.name)).service = item.name := by
          split
          · rfl
          · exact service_after item _
        rw [matchRow, hservice, if_neg hname, Function.update_of_ne hname,
          ih fun hmem => (List.mem_cons.mp hmem).elim (fun h => hname h.symm) hnew]

/-- The last entry of each service is what is left. -/
theorem foldl_matchRow (change : String → Option (AllocationOut × AllocationEntryOut))
    (met : List (AllocationOut × AllocationEntryOut)) (items : List ManifestPortRequest) :
    met.foldl (fun rows entry => matchRow entry.1 entry.2 rows) (rowsFor change [] items) =
      rowsFor (fun service => (lastEntry service met).or (change service)) [] items := by
  induction met generalizing change with
  | nil => rfl
  | cons entry met ih =>
      rw [List.foldl_cons, matchRow_rowsFor change entry.1 List.not_mem_nil, ih]
      refine rowsFor_congr (fun service _ => ?_) items
      rw [lastEntry, lastEntry, List.filter_cons]
      by_cases hname : entry.2.name = service
      · rw [if_pos (by simpa using hname), ← hname, Function.update_self, List.getLast?_cons]
        cases (met.filter fun other => other.2.name = entry.2.name).getLast? <;> rfl
      · rw [if_neg (by simpa using hname), Function.update_of_ne fun h => hname h.symm]

theorem services_eq (manifest : ProjectManifest) (listed : List AllocationOut) :
    (projectStatus manifest (.ok listed)).services =
      rowsFor (fun service => lastEntry service (entriesOf manifest.project listed)) []
        manifest.requests := by
  have hrows := foldl_matchRow (fun _ => none) (entriesOf manifest.project listed)
    manifest.requests
  rw [rowsFor_none] at hrows
  simp only [Option.or_none] at hrows
  rw [← hrows, ← matchRows_eq]
  rfl

/-- A condition on the rows, by the names of the requests. -/
theorem forall_mem_rowsFor {change : String → Option (AllocationOut × AllocationEntryOut)}
    {good : StatusRow → Prop} (changed left : String → Prop)
    (hchanged : ∀ item, good ((unallocated item).after (change item.name)) ↔ changed item.name)
    (hleft : ∀ item, good (unallocated item) ↔ left item.name) (seen : List String)
    (items : List ManifestPortRequest) :
    (∀ row ∈ rowsFor change seen items, good row) ↔
      (∀ name ∈ items.map fun item => item.name, name ∉ seen → changed name) ∧
        ∀ name ∈ items.map fun item => item.name,
          name ∈ seen ∨ List.Duplicate name (items.map fun item => item.name) → left name := by
  induction items generalizing seen with
  | nil => simp [rowsFor]
  | cons item items ih =>
      have hfirst : good (if item.name ∈ seen then unallocated item
          else (unallocated item).after (change item.name)) ↔
            (item.name ∉ seen → changed item.name) ∧ (item.name ∈ seen → left item.name) := by
        split
        · next hseen => simp [hleft, hseen]
        · next hnew => simp [hchanged, hnew]
      rw [rowsFor, List.forall_mem_cons, ih, hfirst, List.map_cons]
      constructor
      · rintro ⟨⟨hnew, hseen⟩, hlaterNew, hlaterSeen⟩
        constructor
        · intro name hname hout
          obtain rfl | hrest := List.mem_cons.mp hname
          · exact hnew hout
          · by_cases heq : name = item.name
            · exact heq ▸ hnew (heq ▸ hout)
            · exact hlaterNew name hrest fun h => (List.mem_cons.mp h).elim heq hout
        · intro name hname hrepeated
          obtain hin | hdup := hrepeated
          · obtain rfl | hrest := List.mem_cons.mp hname
            · exact hseen hin
            · exact hlaterSeen name hrest (.inl (List.mem_cons_of_mem _ hin))
          · obtain ⟨rfl, hrest⟩ | hdup := List.duplicate_cons_iff.mp hdup
            · exact hlaterSeen item.name hrest (.inl List.mem_cons_self)
            · exact hlaterSeen name hdup.mem (.inr hdup)
      · rintro ⟨hnew, hseen⟩
        refine ⟨⟨hnew item.name List.mem_cons_self,
          fun hin => hseen item.name List.mem_cons_self (.inl hin)⟩, ?_, ?_⟩
        · intro name hname hout
          exact hnew name (List.mem_cons_of_mem _ hname) fun hin =>
            hout (List.mem_cons_of_mem _ hin)
        · intro name hname hrepeated
          refine hseen name (List.mem_cons_of_mem _ hname) ?_
          obtain hin | hdup := hrepeated
          · obtain rfl | hin := List.mem_cons.mp hin
            · exact .inr (List.duplicate_cons_iff.mpr (.inl ⟨rfl, hname⟩))
            · exact .inl hin
          · exact .inr (List.duplicate_cons_iff.mpr (.inr hdup))

/-! ## What Central holds -/

/-- The host a manifest's target means: the one with this identifier, or the only one with
this name. -/
def IsTarget (lower : String → String) (db : Db) (reference : String) (hostId : Uuid) : Prop :=
  match readUuid reference with
  | some id => id = hostId
  | none => ∃ host, namedHosts lower reference db.hosts = [host] ∧ host.id = hostId

/-- The host is the manifest's target, if it has one. -/
def OnTarget (lower : String → String) (db : Db) (manifest : ProjectManifest)
    (hostId : Uuid) : Prop :=
  ∀ reference ∈ manifest.host, IsTarget lower db reference hostId

/-- A reservation is the entry of a service. -/
def IsEntryFor (service : String) (row : CentralReservation) : Prop :=
  row.requestName.getD "" = service

instance (service : String) (row : CentralReservation) : Decidable (IsEntryFor service row) :=
  inferInstanceAs (Decidable (_ = _))

/-- The allocation is the project's and has an entry for the service. -/
def Serves (db : Db) (project service : String) (allocation : Allocation) : Prop :=
  allocation.project = project ∧ ∃ row ∈ db.carrying allocation.id, IsEntryFor service row

instance (db : Db) (project service : String) (allocation : Allocation) :
    Decidable (Serves db project service allocation) :=
  inferInstanceAs (Decidable (_ ∧ _))

/-- An active allocation of the project on its target that has an entry for the service. -/
structure Holds (lower : String → String) (db : Db) (manifest : ProjectManifest)
    (service : String) (allocation : Allocation) : Prop where
  held : allocation ∈ db.allocations
  active : allocation.status = .active
  onTarget : OnTarget lower db manifest allocation.hostId
  serves : Serves db manifest.project service allocation

/-- What is shown for a service agrees with what Central holds. -/
structure ReflectsCentral (lower : String → String) (db : Db) (manifest : ProjectManifest)
    (row : StatusRow) : Prop where
  allocated : row.allocationStatus = "active" ↔
    ∃ allocation, Holds lower db manifest row.service allocation
  shown : row.allocationStatus = "active" →
    ∃ allocation, Holds lower db manifest row.service allocation ∧
      (∃ entry ∈ db.carrying allocation.id, IsEntryFor row.service entry ∧
        row.allocatedPort = some entry.port) ∧
      ∃ host ∈ db.hosts, host.id = allocation.hostId ∧ row.host = some ⟨host.id, host.hostname⟩

/-- The oldest of the project's allocations with an entry for the service, among the hundred
newest allocations. -/
def oldestListed (db : Db) (project service : String) : Option Allocation :=
  (((db.allocations.insertionSort Db.newerFirst).take 100).filter
    fun allocation => Serves db project service allocation).getLast?

/-- The listing shows of the service what Central holds. -/
def ListedRight (lower : String → String) (db : Db) (manifest : ProjectManifest)
    (service : String) : Prop :=
  match oldestListed db manifest.project service with
  | some allocation =>
      if allocation.status = .active then OnTarget lower db manifest allocation.hostId
      else ¬ ∃ other, Holds lower db manifest service other
  | none => ¬ ∃ other, Holds lower db manifest service other

/-! ## The listing -/

/-- What the list says of an allocation. -/
structure Represents (db : Db) (allocation : Allocation) (out : AllocationOut) : Prop where
  project : out.project = allocation.project
  status : out.status = allocation.status
  host : ∃ host ∈ db.hosts, host.id = allocation.hostId ∧ out.host = ⟨host.id, host.hostname⟩
  entries : out.allocations.map (fun entry => (entry.name, entry.port)) =
    (db.carrying allocation.id).map fun row => (row.requestName.getD "", row.port)

section Listing

variable {guar : ServiceSession → Prop} {s : ServiceSession}

theorem ensures_listedOuts_represents {rely : ServiceSession → Db → Prop} (db : Db)
    (env : Environment) {hosts : List Host} {reservations : List CentralReservation} (evidence : List HostProbe)
    (now : ℤ) (rows : List Allocation) (hhosts : ∀ host ∈ hosts, host ∈ db.hosts)
    (hknown : ∀ row ∈ rows, ∃ host ∈ hosts, host.id = row.hostId)
    (hcarrying : ∀ row ∈ rows, (reservations.filter fun entry => entry.allocationId =
      some row.id) = db.carrying row.id) :
    (listedOuts env hosts reservations evidence now rows).Ensures store rely guar s
      fun _ result => ∃ outs, result = .ok outs ∧ List.Forall₂ (Represents db) rows outs := by
  induction rows generalizing s with
  | nil => exact ⟨[], rfl, .nil⟩
  | cons allocation rows ih =>
      rw [listedOuts]
      cases hfind : hosts.find? fun host => host.id = allocation.hostId with
      | none =>
          obtain ⟨host, hhost, hid⟩ := hknown allocation List.mem_cons_self
          have hnot := List.find?_eq_none.mp hfind host hhost
          simp [hid] at hnot
      | some host =>
          have hid : host.id = allocation.hostId := by simpa using List.find?_some hfind
          simp only [buildValidation, Program.bind_eq, Program.ensures_bind, ensures_clock,
            Program.pure_eq_ret, Program.ensures_ret]
          apply ih (fun row hrow => hknown row (List.mem_cons_of_mem _ hrow))
            (fun row hrow => hcarrying row (List.mem_cons_of_mem _ hrow)) |>.mono
          rintro s' _ ⟨rest, rfl, hrest⟩
          refine ⟨_, rfl, .cons ⟨rfl, rfl, ⟨host, hhosts host (List.mem_of_find?_eq_some hfind),
            hid, rfl⟩, ?_⟩ hrest⟩
          rw [hcarrying allocation List.mem_cons_self, List.map_map]
          rfl

/-- Central answers the client with a page that represents the hundred newest allocations. -/
theorem represents_listAllocations {db : Db} (env : Environment) (text : TextSearch)
    (hhosts : ∀ row ∈ db.allocations, db.hasHost row.hostId = true) (draws : ℕ → Draw)
    (faults : ℕ → Option DbError) :
    ∃ page, ((listAllocations env text statusQuery).exec store (Session.start draws faults)
      db).result = .ok page ∧ List.Forall₂ (Represents db)
        ((db.allocations.insertionSort Db.newerFirst).take 100) page.1 := by
  have hensures : (listAllocations env text statusQuery).Ensures store (Program.alone store db)
      (fun _ => True) (Session.start draws faults) fun _ result => ∃ page, result = .ok page ∧
        List.Forall₂ (Represents db) ((db.allocations.insertionSort Db.newerFirst).take 100)
          page.1 := by
    have hs := blank_start draws faults
    have hrows : (db.listAllocations text statusQuery).1 =
        (db.allocations.insertionSort Db.newerFirst).take 100 := by
      have hall : db.allocations.filter (statusQuery.selects text) = db.allocations :=
        List.filter_eq_self.mpr fun _ _ => rfl
      simp only [Db.listAllocations, hall]
      rfl
    simp only [listAllocations, Program.bind_eq, Program.ensures_bind, ensures_select]
    intro seen hseen
    rw [hs.view_eq hseen, hrows]
    split
    · next hempty =>
        rw [hempty]
        exact ⟨_, rfl, .nil⟩
    · simp only [Program.ensures_bind, ensures_select, ensures_clock]
      intro seen₁ hseen₁ seen₂ hseen₂ seen₃ _
      rw [hs.view_eq hseen₁, hs.view_eq hseen₂]
      refine (ensures_listedOuts_represents db env _ _ _ (fun host hhost => ?_) (fun row hrow => ?_)
        fun row hrow => ?_).mono ?_
      · exact (List.mem_filter.mp hhost).1
      · have hmem := (List.mem_insertionSort _).mp (List.mem_of_mem_take hrow)
        obtain ⟨host, hhost, hid⟩ := hasHost_iff.mp (hhosts row hmem)
        refine ⟨host, List.mem_filter.mpr ⟨hhost, decide_eq_true ?_⟩, hid⟩
        rw [List.mem_dedup, hid]
        exact List.mem_map_of_mem hrow
      · rw [Db.listByAllocationIds, List.filter_filter, Db.carrying]
        refine List.filter_congr fun entry _ => ?_
        by_cases hentry : entry.allocationId = some row.id
        · simp only [hentry, decide_true, Option.any_some, Bool.true_and, decide_eq_true_eq]
          exact List.mem_map_of_mem hrow
        · simp [hentry]
      · rintro s' _ ⟨outs, rfl, houts⟩
        exact ⟨_, rfl, houts⟩
  exact hensures.exec_start.1

end Listing

/-! ## Agreement -/

section Agreement

variable {lower : String → String} {db : Db} {manifest : ProjectManifest}

/-- Entries for the service on both sides. -/
theorem exists_entry_iff {allocation : Allocation} {out : AllocationOut}
    (h : Represents db allocation out) (service : String) :
    (∃ entry ∈ out.allocations, entry.name = service) ↔
      ∃ row ∈ db.carrying allocation.id, IsEntryFor service row := by
  have hnames := congrArg (List.map Prod.fst) h.entries
  simp only [List.map_map] at hnames
  constructor
  · rintro ⟨entry, hentry, rfl⟩
    have hmem : entry.name ∈ out.allocations.map (Prod.fst ∘ fun entry => (entry.name, entry.port)) :=
      List.mem_map.mpr ⟨entry, hentry, rfl⟩
    rw [hnames] at hmem
    exact List.mem_map.mp hmem
  · rintro ⟨row, hrow, rfl⟩
    have hmem : row.requestName.getD "" ∈ (db.carrying allocation.id).map
        (Prod.fst ∘ fun row => (row.requestName.getD "", row.port)) := List.mem_map_of_mem hrow
    rw [← hnames] at hmem
    exact List.mem_map.mp hmem

theorem lastEntry_append (service : String) (met others : List (AllocationOut × AllocationEntryOut)) :
    lastEntry service (met ++ others) = (lastEntry service others).or (lastEntry service met) := by
  rw [lastEntry, List.filter_append, List.getLast?_append, lastEntry, lastEntry]

/-- An allocation of the list contributes an entry of a service if it serves it. -/
theorem lastEntry_own {allocation : Allocation} {out : AllocationOut}
    (h : Represents db allocation out) (project service : String) :
    (¬ Serves db project service allocation ∧ lastEntry service
        (if out.project = project then out.allocations.map fun entry => (out, entry) else []) =
          none) ∨
      (Serves db project service allocation ∧ ∃ entry ∈ out.allocations, entry.name = service ∧
        lastEntry service
          (if out.project = project then out.allocations.map fun entry => (out, entry) else []) =
            some (out, entry)) := by
  by_cases hproject : out.project = project
  · rw [if_pos hproject]
    cases hlast : lastEntry service (out.allocations.map fun entry => (out, entry)) with
    | none =>
        refine .inl ⟨fun hserves => ?_, rfl⟩
        obtain ⟨entry, hentry, hname⟩ := (exists_entry_iff h service).mpr hserves.2
        have hnil := List.filter_eq_nil_iff.mp (List.getLast?_eq_none_iff.mp hlast) (out, entry)
          (List.mem_map_of_mem hentry)
        simp [hname] at hnil
    | some met =>
        obtain ⟨hmem, hname⟩ := List.mem_filter.mp (List.mem_of_getLast? hlast)
        obtain ⟨entry, hentry, rfl⟩ := List.mem_map.mp hmem
        have hname : entry.name = service := of_decide_eq_true hname
        exact .inr ⟨⟨h.project ▸ hproject, (exists_entry_iff h service).mp ⟨entry, hentry, hname⟩⟩,
          entry, hentry, hname, rfl⟩
  · rw [if_neg hproject]
    exact .inl ⟨fun hserves => hproject (h.project.trans hserves.1), rfl⟩

/-- The last entry of a service is one of the oldest allocation that serves it. -/
theorem lastEntry_cases {rows : List Allocation} {outs : List AllocationOut}
    (h : List.Forall₂ (Represents db) rows outs) (project service : String) :
    (lastEntry service (entriesOf project outs) = none ∧
      (rows.filter fun row => Serves db project service row).getLast? = none) ∨
    ∃ allocation out entry, lastEntry service (entriesOf project outs) = some (out, entry) ∧
      (rows.filter fun row => Serves db project service row).getLast? = some allocation ∧
      Represents db allocation out ∧ entry ∈ out.allocations ∧ entry.name = service := by
  induction h with
  | nil => exact .inl ⟨rfl, rfl⟩
  | @cons allocation out rows outs hrep _ ih =>
      have hentries : entriesOf project (out :: outs) =
          (if out.project = project then out.allocations.map fun entry => (out, entry) else []) ++
            entriesOf project outs := by
        rw [entriesOf, List.filter_cons]
        by_cases hproject : out.project = project
        · rw [if_pos (by simpa using hproject), if_pos hproject, List.flatMap_cons, entriesOf]
        · rw [if_neg (by simpa using hproject), if_neg hproject, List.nil_append, entriesOf]
      have hrows : ((allocation :: rows).filter fun row => Serves db project service row) =
          (if Serves db project service allocation then [allocation] else []) ++
            rows.filter fun row => Serves db project service row := by
        rw [List.filter_cons]
        by_cases hserves : Serves db project service allocation <;> simp [hserves]
      rw [hentries, hrows, lastEntry_append, List.getLast?_append]
      obtain ⟨hnone, hnoneRows⟩ | ⟨later, laterOut, entry, hlast, hlastRows, hrest⟩ := ih
      · rw [hnone, hnoneRows, Option.none_or, Option.none_or]
        obtain ⟨hnot, hlast⟩ | ⟨hserves, entry, hentry, hname, hlast⟩ :=
          lastEntry_own hrep project service
        · exact .inl ⟨hlast, by rw [if_neg hnot]; rfl⟩
        · exact .inr ⟨allocation, out, entry, hlast, by rw [if_pos hserves]; rfl, hrep, hentry,
            hname⟩
      · rw [hlast, hlastRows, Option.some_or, Option.some_or]
        exact .inr ⟨later, laterOut, entry, rfl, rfl, hrest⟩

theorem statusText_eq_active_iff (status : AllocationStatus) :
    statusText status = "active" ↔ status = .active := by
  cases status <;> decide

/-- The row of a service that nothing was found for. -/
theorem reflects_unallocated_iff (item : ManifestPortRequest) :
    ReflectsCentral lower db manifest (unallocated item) ↔
      ¬ ∃ allocation, Holds lower db manifest item.name allocation := by
  have hstatus : ¬ (unallocated item).allocationStatus = "active" := by simp [unallocated]
  constructor
  · intro h hholds
    exact hstatus (h.allocated.mpr hholds)
  · intro h
    exact ⟨iff_of_false hstatus h, fun hactive => absurd hactive hstatus⟩

/-- The row of a service that an entry was found for. -/
theorem reflects_matched_iff (item : ManifestPortRequest) {allocation : Allocation}
    {out : AllocationOut} {entry : AllocationEntryOut} (hrep : Represents db allocation out)
    (hheld : allocation ∈ db.allocations)
    (hserves : Serves db manifest.project item.name allocation)
    (hentry : entry ∈ out.allocations) (hname : entry.name = item.name) :
    ReflectsCentral lower db manifest ((unallocated item).matched out entry) ↔
      if allocation.status = .active then OnTarget lower db manifest allocation.hostId
      else ¬ ∃ other, Holds lower db manifest item.name other := by
  have hstatus : ((unallocated item).matched out entry).allocationStatus = "active" ↔
      allocation.status = .active := by
    rw [← hrep.status]
    exact statusText_eq_active_iff out.status
  obtain ⟨host, hhost, hid, hshown⟩ := hrep.host
  split
  · next hactive =>
      constructor
      · intro h
        obtain ⟨other, hholds, -, otherHost, -, hother, hsame⟩ := h.shown (hstatus.mpr hactive)
        have hhosts : some out.host = some ⟨otherHost.id, otherHost.hostname⟩ := hsame
        rw [hshown, Option.some.injEq, AllocationHostOut.mk.injEq] at hhosts
        have hhostId : other.hostId = allocation.hostId :=
          hother.symm.trans (hhosts.1.symm.trans hid)
        exact hhostId ▸ hholds.onTarget
      · intro htarget
        have hholds : Holds lower db manifest item.name allocation :=
          ⟨hheld, hactive, htarget, hserves⟩
        have hport : ∃ row ∈ db.carrying allocation.id, IsEntryFor item.name row ∧
            some entry.port = some row.port := by
          have hmem : (entry.name, entry.port) ∈
              out.allocations.map fun entry => (entry.name, entry.port) :=
            List.mem_map.mpr ⟨entry, hentry, rfl⟩
          rw [hrep.entries] at hmem
          obtain ⟨row, hrow, hsame⟩ := List.mem_map.mp hmem
          rw [Prod.mk.injEq] at hsame
          exact ⟨row, hrow, hsame.1.trans hname, congrArg some hsame.2.symm⟩
        exact ⟨iff_of_true (hstatus.mpr hactive) ⟨allocation, hholds⟩,
          fun _ => ⟨allocation, hholds, hport, host, hhost, hid, congrArg some hshown⟩⟩
  · next hreleased =>
      have hnot := mt hstatus.mp hreleased
      constructor
      · intro h hholds
        exact hnot (h.allocated.mpr hholds)
      · intro h
        exact ⟨iff_of_false hnot h, fun hactive => absurd hactive hnot⟩

/-- What is shown for a service is right if its listing is. -/
theorem reflects_after_iff (item : ManifestPortRequest) {outs : List AllocationOut}
    (hpage : List.Forall₂ (Represents db)
      ((db.allocations.insertionSort Db.newerFirst).take 100) outs) :
    ReflectsCentral lower db manifest
        ((unallocated item).after (lastEntry item.name (entriesOf manifest.project outs))) ↔
      ListedRight lower db manifest item.name := by
  rw [ListedRight, oldestListed]
  obtain ⟨hnone, hnoneRows⟩ | ⟨allocation, out, entry, hlast, hlastRows, hrep, hentry, hname⟩ :=
    lastEntry_cases hpage manifest.project item.name
  · rw [hnone, hnoneRows]
    exact reflects_unallocated_iff item
  · rw [hlast, hlastRows]
    obtain ⟨hmem, hserves⟩ := List.mem_filter.mp (List.mem_of_getLast? hlastRows)
    exact reflects_matched_iff item hrep
      ((List.mem_insertionSort _).mp (List.mem_of_mem_take hmem)) (of_decide_eq_true hserves)
      hentry hname

end Agreement

/-- When Central answers, the status of a manifest reflects what Central holds exactly if, for
every service, the oldest allocation among those listed that serves it is active and on the
target, or there is none to show, and no service is named twice that Central holds an
allocation for. -/
theorem projectStatus_reflects_iff (env : Environment) (text : TextSearch)
    (lower : String → String) (db : Db)
    (hhosts : ∀ row ∈ db.allocations, db.hasHost row.hostId = true)
    (draws : ℕ → Draw) (faults : ℕ → Option DbError) (manifest : ProjectManifest) :
    ∃ page, ((listAllocations env text statusQuery).exec store (Session.start draws faults)
        db).result = .ok page ∧
      ((∀ row ∈ (projectStatus manifest (.ok page.1)).services,
          ReflectsCentral lower db manifest row) ↔
        (∀ item ∈ manifest.requests, ListedRight lower db manifest item.name) ∧
          ∀ service, List.Duplicate service (manifest.requests.map fun item => item.name) →
            ¬ ∃ allocation, Holds lower db manifest service allocation) := by
  obtain ⟨page, hpage, hlisted⟩ := represents_listAllocations env text hhosts draws faults
  refine ⟨page, hpage, ?_⟩
  rw [services_eq, forall_mem_rowsFor (ListedRight lower db manifest)
    (fun service => ¬ ∃ allocation, Holds lower db manifest service allocation)
    (fun item => reflects_after_iff item hlisted) reflects_unallocated_iff]
  constructor
  · rintro ⟨hfirst, hrepeated⟩
    exact ⟨fun item hitem => hfirst item.name (List.mem_map_of_mem hitem) List.not_mem_nil,
      fun service hdup => hrepeated service hdup.mem (.inr hdup)⟩
  · rintro ⟨hfirst, hrepeated⟩
    constructor
    · rintro name hname -
      obtain ⟨item, hitem, rfl⟩ := List.mem_map.mp hname
      exact hfirst item hitem
    · rintro name - (hnil | hdup)
      · exact absurd hnil List.not_mem_nil
      · exact hrepeated name hdup

/-- The entry `web` of an allocation of the shop. -/
def shopReservation (id : Uuid) (port : ℕ) (hostId allocationId : Uuid) : CentralReservation where
  id := id
  hostId := hostId
  port := port
  protocol := .tcp
  bindAddress := none
  project := "shop"
  service := none
  purpose := some "api"
  notes := none
  localReservationId := none
  allocationId := some allocationId
  requestName := some "web"

/-- An active allocation. -/
def activeAllocation (project : String) (id hostId : Uuid) (createdAt : ℤ) : Allocation where
  id := id
  hostId := hostId
  project := project
  status := .active
  releasedAt := none
  requestId := none
  requestPayloadHash := none
  createdAt := createdAt

/-- Two hosts, with an allocation of the shop on each: the older one on the second. -/
def twoHostsDb : Db :=
  { sampleDb with
    hosts := [sampleHost, { sampleHost with id := ⟨9⟩, hostname := "web-2" }]
    allocations :=
      [activeAllocation "shop" ⟨5⟩ ⟨9⟩ 10, activeAllocation "shop" ⟨6⟩ sampleHost.id 20]
    reservations := [shopReservation ⟨1⟩ 9000 ⟨9⟩ ⟨5⟩, shopReservation ⟨2⟩ 8000 sampleHost.id ⟨6⟩] }

/-- An allocation of the shop, and a hundred newer ones of other projects. -/
def crowdedDb : Db :=
  { sampleDb with
    allocations :=
      (List.range 100).map (fun n =>
        activeAllocation "other" ⟨BitVec.ofNat 128 (n + 100)⟩ sampleHost.id (1000 - n)) ++
          [activeAllocation "shop" ⟨5⟩ sampleHost.id 10]
    reservations := [shopReservation ⟨1⟩ 8000 sampleHost.id ⟨5⟩] }

theorem hosts_crowdedDb : ∀ row ∈ crowdedDb.allocations, crowdedDb.hasHost row.hostId = true := by
  intro row hrow
  obtain hother | hshop := List.mem_append.mp hrow
  · obtain ⟨n, -, rfl⟩ := List.mem_map.mp hother
    rfl
  · cases List.mem_singleton.mp hshop
    rfl

/-- The allocation of the shop is not among the hundred newest. -/
theorem oldestListed_crowdedDb : oldestListed crowdedDb "shop" "web" = none := by
  decide +kernel

/-- The manifest of the shop, whose target is the first host. -/
def shopManifest : ProjectManifest :=
  ⟨1, "shop", some sampleHost.id.text, [⟨"web", "api", "tcp", none, none⟩], none, none⟩

theorem projectStatus_reflects_iff_shop :
    ∃ page, ((listAllocations sampleEnvironment plainSearch statusQuery).exec store
        (Session.start (sampleDraws 100) fun _ => none) twoHostsDb).result = .ok page ∧
      ((∀ row ∈ (projectStatus shopManifest (.ok page.1)).services,
          ReflectsCentral id twoHostsDb shopManifest row) ↔
        (∀ item ∈ shopManifest.requests, ListedRight id twoHostsDb shopManifest item.name) ∧
          ∀ service, List.Duplicate service (shopManifest.requests.map fun item => item.name) →
            ¬ ∃ allocation, Holds id twoHostsDb shopManifest service allocation) :=
  projectStatus_reflects_iff sampleEnvironment plainSearch id twoHostsDb (by decide)
    (sampleDraws 100) (fun _ => none) shopManifest

/-- The first host is the target. -/
theorem isTarget_sampleHost (db : Db) : IsTarget id db sampleHost.id.text sampleHost.id := by
  rw [IsTarget, readUuid_text]

/-- An allocation behind a hundred newer ones is not shown, and an older one on another
host is shown instead of the one on the target. -/
theorem status_misses_allocation :
    (∃ page, ((listAllocations sampleEnvironment plainSearch statusQuery).exec store
        (Session.start (sampleDraws 100) fun _ => none) crowdedDb).result = .ok page ∧
      ∃ row ∈ (projectStatus shopManifest (.ok page.1)).services,
        row.allocationStatus = "UNALLOCATED" ∧
          ¬ ReflectsCentral id crowdedDb shopManifest row) ∧
    ∃ page, ((listAllocations sampleEnvironment plainSearch statusQuery).exec store
        (Session.start (sampleDraws 100) fun _ => none) twoHostsDb).result = .ok page ∧
      ∃ row ∈ (projectStatus shopManifest (.ok page.1)).services, row.allocatedPort = some 9000 ∧
        ¬ ReflectsCentral id twoHostsDb shopManifest row := by
  constructor
  · obtain ⟨page, hpage, hlisted⟩ := represents_listAllocations sampleEnvironment plainSearch
      hosts_crowdedDb (sampleDraws 100) fun _ => none
    have hnone : lastEntry "web" (entriesOf "shop" page.1) = none := by
      obtain ⟨hnone, -⟩ | ⟨allocation, -, -, -, hshown, -⟩ := lastEntry_cases hlisted "shop" "web"
      · exact hnone
      · have holdest : oldestListed crowdedDb "shop" "web" = some allocation := hshown
        rw [oldestListed_crowdedDb] at holdest
        cases holdest
    refine ⟨page, hpage, unallocated ⟨"web", "api", "tcp", none, none⟩, ?_, rfl, ?_⟩
    · rw [services_eq]
      have hrow : (unallocated ⟨"web", "api", "tcp", none, none⟩).after
          (lastEntry "web" (entriesOf "shop" page.1)) =
            unallocated ⟨"web", "api", "tcp", none, none⟩ := by rw [hnone]; rfl
      rw [← hrow]
      exact List.mem_cons_self
    · rw [reflects_unallocated_iff, not_not]
      refine ⟨activeAllocation "shop" ⟨5⟩ sampleHost.id 10,
        List.mem_append_right _ List.mem_cons_self, rfl, ?_, by decide⟩
      rintro _ ⟨⟩
      exact isTarget_sampleHost crowdedDb
  · refine ⟨_, rfl, _, List.mem_cons_self, rfl, fun h => ?_⟩
    obtain ⟨allocation, hholds, -, host, -, hhost, hshown⟩ := h.shown rfl
    have hother : host.id = ⟨9⟩ := (congrArg AllocationHostOut.id (Option.some.inj hshown)).symm
    have htarget := hholds.onTarget sampleHost.id.text rfl
    rw [IsTarget, readUuid_text] at htarget
    have hsame : sampleHost.id = host.id := htarget.trans hhost.symm
    rw [hother] at hsame
    exact absurd hsame (by decide)

end Fleet
