/-
# Batched probe evidence

`get_probe_evidence_map` loads the newest probes of many hosts, five hundred at most, and keeps the
first of each binding. `get_probe_evidence` loads the newest probe of one binding. They give the
same evidence on a binding exactly while it has no two newest probes, and fewer than five hundred
probes of the hosts' other bindings are as new.
-/

import PortForge.Central.AllocationViews

namespace Central

open Python Transaction

/-- What a caller reads of the map on a binding; an absent key is read as the default evidence. -/
def mapEvidence (evidence : List HostProbe) (now : ℤ) (hostId : Uuid) (port : ℕ)
    (protocol : Protocol) (bindAddress : String) : ProbeEvidence :=
  let probe := evidence.find? fun probe => probe.IsFor hostId port protocol bindAddress
  { bindProbe := classifyBindProbe probe now, probe := probe }

/-- The creation time of a probe, newest first. -/
def HostProbe.age (probe : HostProbe) : ℤᵒᵈ := OrderDual.toDual probe.createdAt

/-- The probes of the hosts. -/
def Db.probesOf (db : Db) (hostIds : List Uuid) : List HostProbe :=
  db.probes.filter fun probe => probe.hostId ∈ hostIds

/-- The probe is a newest one of the binding. -/
def Db.Newest (db : Db) (hostIds : List Uuid) (hostId : Uuid) (port : ℕ) (protocol : Protocol)
    (bindAddress : String) (probe : HostProbe) : Prop :=
  Leads (fun a b => a.age ≤ b.age)
    (fun other => decide (other.IsFor hostId port protocol bindAddress)) (db.probesOf hostIds) probe

/-- The probes of the hosts' other bindings that are as new as the probe. -/
def Db.crowd (db : Db) (hostIds : List Uuid) (probe : HostProbe) : ℕ :=
  rivals HostProbe.age (fun other => decide (other.SameBinding probe)) (db.probesOf hostIds) probe

section Batch

variable {db : Db} {hostIds : List Uuid} {hostId : Uuid} {port : ℕ} {protocol : Protocol}
  {bindAddress : String}

/-- Keeping the first probe of each binding keeps the first of this one. -/
theorem find?_firstPerBinding (latest rows : List HostProbe) :
    ((firstPerBinding latest rows).find? fun probe =>
      decide (probe.IsFor hostId port protocol bindAddress)) =
        (latest ++ rows).find? fun probe =>
          decide (probe.IsFor hostId port protocol bindAddress) := by
  induction rows generalizing latest with
  | nil => rw [firstPerBinding, List.append_nil]
  | cons row rows ih =>
      rw [firstPerBinding]
      split
      · next hany =>
          rw [ih, List.find?_append, List.find?_append]
          by_cases hfor : row.IsFor hostId port protocol bindAddress
          · obtain ⟨other, hother, hsame⟩ := List.any_eq_true.mp hany
            have hotherFor : other.IsFor hostId port protocol bindAddress := by
              obtain ⟨rfl, rfl, rfl, rfl⟩ := hfor
              obtain ⟨hhost, hport, hprotocol, haddress⟩ := of_decide_eq_true hsame
              exact ⟨hhost.symm, hport.symm, hprotocol.symm, haddress.symm⟩
            have hsome : (latest.find? fun probe =>
                decide (probe.IsFor hostId port protocol bindAddress)).isSome = true :=
              List.find?_isSome.mpr ⟨other, hother, decide_eq_true hotherFor⟩
            obtain ⟨first, hfirst⟩ := Option.isSome_iff_exists.mp hsome
            rw [hfirst]
            rfl
          · rw [List.find?_cons_of_neg (by simpa using hfor)]
      · rw [ih, List.append_assoc, List.singleton_append]

/-- The page of newest probes that the map is made of. -/
theorem find?_getProbeEvidenceMap (hmem : hostId ∈ hostIds) (db : Db) :
    ((getProbeEvidenceMap [] db hostIds).find? fun probe =>
      decide (probe.IsFor hostId port protocol bindAddress)) =
        (((db.probesOf hostIds).insertionSort fun a b => a.age ≤ b.age).take 500).find? fun probe =>
          decide (probe.IsFor hostId port protocol bindAddress) := by
  rw [getProbeEvidenceMap_nil, find?_firstPerBinding, List.nil_append, Db.listRecentForHosts,
    if_neg (List.ne_nil_of_mem hmem)]
  rfl

/-- The first of a list is its latest where none is later. -/
theorem latest_cons_of_forall {probe : HostProbe} {probes : List HostProbe}
    (h : ∀ other ∈ probes, other.createdAt ≤ probe.createdAt) :
    Db.latest (probe :: probes) = some probe := by
  rw [Db.latest]
  cases hrest : Db.latest probes with
  | none => rfl
  | some other => exact if_pos (h other (Db.latest_spec hrest).1)

/-- With its probes in the order of `db`, the map gives the evidence on a binding that the single
lookup gives with the probes in the order of `db'`, and an entry for the binding shows the same. -/
structure BatchAgrees (hostIds : List Uuid) (hostId : Uuid) (port : ℕ) (protocol : Protocol)
    (bindAddress : String) (draws : ℕ → Draw) (faults : ℕ → Option DbError) (db db' : Db) :
    Prop where
  evidence : ((getProbeEvidence hostId port protocol bindAddress).exec store
    (Session.start draws faults) db').result =
      .ok (mapEvidence (getProbeEvidenceMap [] db hostIds) (draws 0).now hostId port protocol
        bindAddress)
  entries : ∀ row : CentralReservation, row.port = port → row.protocol = protocol →
    row.probedAddress = bindAddress →
      ((buildEntry hostId [] row).exec store (Session.start draws faults) db').result =
        .ok (listedEntry (getProbeEvidenceMap [] db hostIds) (draws 0).now hostId row)

/-- Both rest on the probe that is found. -/
theorem batchAgrees_iff_probe {draws : ℕ → Draw} {faults : ℕ → Option DbError} {db db' : Db} :
    BatchAgrees hostIds hostId port protocol bindAddress draws faults db db' ↔
      db'.findLatestForBinding hostId port protocol bindAddress =
        (getProbeEvidenceMap [] db hostIds).find? fun probe =>
          decide (probe.IsFor hostId port protocol bindAddress) := by
  have hsingle : ((getProbeEvidence hostId port protocol bindAddress).exec store
      (Session.start draws faults) db').result =
        .ok { bindProbe := classifyBindProbe (db'.findLatestForBinding hostId port protocol
                bindAddress) (draws 0).now
              probe := db'.findLatestForBinding hostId port protocol bindAddress } := rfl
  constructor
  · intro hagree
    have hequal := Except.ok.inj (hsingle.symm.trans hagree.evidence)
    exact congrArg ProbeEvidence.probe hequal
  · intro hprobe
    constructor
    · rw [hsingle, mapEvidence, hprobe]
    · rintro row rfl rfl rfl
      have hentry : ((buildEntry hostId [] row).exec store (Session.start draws faults) db').result =
          .ok { listedEntry [] (draws 0).now hostId row with
            bindProbe := classifyBindProbe (db'.findLatestForBinding hostId row.port row.protocol
              row.probedAddress) (draws 0).now } := rfl
      rw [hentry, hprobe]
      rfl

/-- The database with its probes in another order. -/
def Db.withProbes (db : Db) (rows : List HostProbe) : Db := { db with probes := rows }

/-- The single lookup finds a newest probe. -/
theorem newest_of_findLatest (hmem : hostId ∈ hostIds) {probe : HostProbe}
    (h : db.findLatestForBinding hostId port protocol bindAddress = some probe) :
    db.Newest hostIds hostId port protocol bindAddress probe := by
  obtain ⟨hprobe, hfor, hmax⟩ := findLatestForBinding_spec h
  refine ⟨List.mem_filter.mpr ⟨hprobe, decide_eq_true (hfor.1 ▸ hmem)⟩, decide_eq_true hfor, ?_⟩
  intro other hother hotherFor
  exact hmax other (List.mem_of_mem_filter hother) (of_decide_eq_true hotherFor)

/-- Every newest probe is the one the single lookup finds in some order of the rows. -/
theorem Db.Newest.exists_order (hmem : hostId ∈ hostIds) {probe : HostProbe}
    (h : db.Newest hostIds hostId port protocol bindAddress probe) :
    ∃ rows : List HostProbe, rows.Perm db.probes ∧
      (db.withProbes rows).findLatestForBinding hostId port protocol bindAddress = some probe := by
  have hprobe : probe ∈ db.probes := List.mem_of_mem_filter h.1
  have hfor : probe.IsFor hostId port protocol bindAddress := of_decide_eq_true h.2.1
  refine ⟨probe :: db.probes.erase probe, (List.perm_cons_erase hprobe).symm, ?_⟩
  show Db.latest ((probe :: db.probes.erase probe).filter fun other =>
    decide (other.IsFor hostId port protocol bindAddress)) = some probe
  have hfirst : decide (probe.IsFor hostId port protocol bindAddress) = true :=
    decide_eq_true hfor
  simp only [List.filter_cons, hfirst, if_true]
  apply latest_cons_of_forall
  intro other hother
  obtain ⟨hother, hotherFor⟩ := List.mem_filter.mp hother
  have hotherFor : other.IsFor hostId port protocol bindAddress := of_decide_eq_true hotherFor
  have hlisted : other ∈ db.probesOf hostIds :=
    List.mem_filter.mpr ⟨List.mem_of_mem_erase hother, decide_eq_true (hotherFor.1 ▸ hmem)⟩
  exact h.2.2 other hlisted (decide_eq_true hotherFor)

theorem crowd_eq {probe : HostProbe} (hfor : probe.IsFor hostId port protocol bindAddress) :
    rivals HostProbe.age (fun other => decide (other.IsFor hostId port protocol bindAddress))
      (db.probesOf hostIds) probe = db.crowd hostIds probe := by
  obtain ⟨rfl, rfl, rfl, rfl⟩ := hfor
  rfl

/-- The page has a newest probe of the binding, and no other. -/
theorem find?_page_of_newest (hmem : hostId ∈ hostIds) {probe : HostProbe}
    (hnewest : db.Newest hostIds hostId port protocol bindAddress probe)
    (hfew : db.crowd hostIds probe < 500)
    (honly : ∀ other, db.Newest hostIds hostId port protocol bindAddress other → other = probe)
    {rows : List HostProbe} (hperm : rows.Perm db.probes) :
    ((getProbeEvidenceMap [] (db.withProbes rows) hostIds).find? fun other =>
      decide (other.IsFor hostId port protocol bindAddress)) = some probe := by
  have hsame : (((db.withProbes rows).probesOf hostIds).insertionSort fun a b =>
      a.age ≤ b.age).Perm (db.probesOf hostIds) :=
    (List.perm_insertionSort _ _).trans (hperm.filter _)
  rw [← crowd_eq (of_decide_eq_true hnewest.2.1), ← rivals_perm hsame] at hfew
  obtain ⟨other, hother, hrank⟩ := exists_find?_take (List.pairwise_insertionSort _ _)
    (hsame.mem_iff.mpr hnewest.1) hnewest.2.1 hfew
  have hlisted := List.mem_of_mem_take (List.mem_of_find?_eq_some hother)
  have hfor := List.find?_some hother
  have hotherNewest : db.Newest hostIds hostId port protocol bindAddress other :=
    ⟨hsame.mem_iff.mp hlisted, hfor, fun third hthird hthirdFor =>
      hrank.trans (hnewest.2.2 third hthird hthirdFor)⟩
  rw [find?_getProbeEvidenceMap hmem, hother, honly other hotherNewest]

end Batch

/-- Whatever order the rows come in, the map and the single lookup agree on a binding, if and only
if it has at most one newest probe, which has fewer than five hundred probes of the hosts' other
bindings as new as it. -/
theorem batch_agrees_iff (db : Db) (hostIds : List Uuid) (hostId : Uuid) (hmem : hostId ∈ hostIds)
    (port : ℕ) (protocol : Protocol) (bindAddress : String) (draws : ℕ → Draw)
    (faults : ℕ → Option DbError) :
    (∀ rows rows' : List HostProbe, rows.Perm db.probes → rows'.Perm db.probes →
      BatchAgrees hostIds hostId port protocol bindAddress draws faults (db.withProbes rows)
        (db.withProbes rows')) ↔
      ∀ probe, db.Newest hostIds hostId port protocol bindAddress probe →
        db.crowd hostIds probe < 500 ∧
          ∀ other, db.Newest hostIds hostId port protocol bindAddress other → other = probe := by
  simp only [batchAgrees_iff_probe]
  constructor
  · intro hagree probe hnewest
    obtain ⟨first, hfirst, hfound⟩ := hnewest.exists_order hmem
    constructor
    · rw [← crowd_eq (of_decide_eq_true hnewest.2.1)]
      apply (page_iff hnewest).mp
      intro rows hperm
      have hpage := hagree rows first hperm hfirst
      rw [hfound, find?_getProbeEvidenceMap hmem] at hpage
      exact Option.isSome_iff_exists.mpr ⟨probe, hpage.symm⟩
    · intro other hother
      obtain ⟨second, hsecond, hfound'⟩ := hother.exists_order hmem
      have hpage := (hagree first first hfirst hfirst).trans
        (hagree first second hfirst hsecond).symm
      rw [hfound, hfound'] at hpage
      exact (Option.some.inj hpage).symm
  · intro hnewest rows rows' hrows hrows'
    cases hfound : (db.withProbes rows').findLatestForBinding hostId port protocol bindAddress with
    | none =>
        symm
        apply List.find?_eq_none.mpr
        intro probe hprobe hfor
        have hstored := hrows'.mem_iff.mpr (hrows.mem_iff.mp (mem_getProbeEvidenceMap hprobe))
        exact findLatestForBinding_eq_none hfound probe hstored (of_decide_eq_true hfor)
    | some probe =>
        have hthere : db.Newest hostIds hostId port protocol bindAddress probe :=
          (newest_of_findLatest hmem hfound).of_perm (hrows'.filter _).symm
        obtain ⟨hfew, honly⟩ := hnewest probe hthere
        exact (find?_page_of_newest hmem hthere hfew honly hrows).symm

/-- A probe of the sample host that found its port occupied. -/
def foundOccupied (port : ℕ) (createdAt : ℤ) : HostProbe where
  id := ⟨BitVec.ofInt 128 (2000 + createdAt)⟩
  hostId := sampleHost.id
  port := port
  protocol := .tcp
  bindAddress := defaultBindAddress
  status := .completed
  resultAvailable := some false
  expiresAt := 100000
  createdAt := createdAt

/-- A probe of port 8000, and newer ones of port 9000. -/
def probedDb (newer : ℕ) : Db :=
  { sampleDb with
    probes := foundOccupied 8000 0 :: (List.range newer).map fun n : ℕ => foundOccupied 9000 (n + 1) }

theorem probesOf_probedDb (newer : ℕ) :
    (probedDb newer).probesOf [sampleHost.id] = (probedDb newer).probes := by
  apply List.filter_eq_self.mpr
  intro probe hprobe
  rcases List.mem_cons.mp hprobe with rfl | hprobe
  · rfl
  · obtain ⟨n, -, rfl⟩ := List.mem_map.mp hprobe
    rfl

theorem eq_of_isFor_probedDb {newer : ℕ} {probe : HostProbe}
    (hprobe : probe ∈ (probedDb newer).probes)
    (hfor : probe.IsFor sampleHost.id 8000 .tcp defaultBindAddress) :
    probe = foundOccupied 8000 0 := by
  rcases List.mem_cons.mp hprobe with rfl | hprobe
  · rfl
  · obtain ⟨n, -, rfl⟩ := List.mem_map.mp hprobe
    exact absurd hfor.2.1 (by decide : (9000 : ℕ) ≠ 8000)

theorem crowd_probedDb (newer : ℕ) :
    (probedDb newer).crowd [sampleHost.id] (foundOccupied 8000 0) = newer := by
  rw [Db.crowd, probesOf_probedDb, rivals, probedDb, List.countP_cons_of_neg (by decide)]
  rw [List.countP_eq_length.mpr, List.length_map, List.length_range]
  intro probe hprobe
  obtain ⟨n, -, rfl⟩ := List.mem_map.mp hprobe
  have hother : ¬ (foundOccupied 9000 (n + 1)).SameBinding (foundOccupied 8000 0) := fun hsame =>
    absurd hsame.2.1 (by decide : (9000 : ℕ) ≠ 8000)
  have hnewer : (foundOccupied 9000 (n + 1)).age ≤ (foundOccupied 8000 0).age := by
    show (0 : ℤ) ≤ n + 1
    omega
  simp [hother, hnewer]

/-- With one newer probe the two agree. -/
theorem batch_agrees_iff_sample :
    BatchAgrees [sampleHost.id] sampleHost.id 8000 .tcp defaultBindAddress (sampleDraws 100)
      (fun _ => none) (probedDb 1) (probedDb 1) := by
  have honly : ∀ probe, (probedDb 1).Newest [sampleHost.id] sampleHost.id 8000 .tcp
      defaultBindAddress probe → probe = foundOccupied 8000 0 := fun probe hnewest =>
    eq_of_isFor_probedDb (List.mem_of_mem_filter hnewest.1) (of_decide_eq_true hnewest.2.1)
  apply (batch_agrees_iff (probedDb 1) [sampleHost.id] sampleHost.id (by simp) 8000 .tcp
    defaultBindAddress (sampleDraws 100) fun _ => none).mpr
  · intro probe hnewest
    obtain rfl := honly probe hnewest
    rw [crowd_probedDb]
    exact ⟨by decide, honly⟩
  · exact .refl _
  · exact .refl _

/-- With five hundred newer probes of another port the map has none of this one: the entry of a
list says that nothing is known, and the single one that the port is occupied. -/
theorem crowded_batch_disagrees :
    ¬ BatchAgrees [sampleHost.id] sampleHost.id 8000 .tcp defaultBindAddress (sampleDraws 100)
      (fun _ => none) (probedDb 500) (probedDb 500) := by
  rw [batchAgrees_iff_probe, find?_getProbeEvidenceMap (by simp)]
  intro hequal
  -- The one probe of port 8000 is older than all others.
  have hbehind : (((probedDb 500).probesOf [sampleHost.id]).insertionSort fun a b =>
      a.age ≤ b.age).Pairwise (Behind HostProbe.age fun other =>
        decide (other.IsFor sampleHost.id 8000 .tcp defaultBindAddress)) := by
    apply (List.pairwise_insertionSort _ _).imp_of_mem
    intro a b ha hb hle
    rcases hle.lt_or_eq with hlt | heq
    · exact .inl hlt
    · refine .inr ⟨heq, fun hfor => ?_⟩
      have ha := List.mem_of_mem_filter ((List.mem_insertionSort _).mp ha)
      have hb := List.mem_of_mem_filter ((List.mem_insertionSort _).mp hb)
      rw [eq_of_isFor_probedDb ha (of_decide_eq_true hfor)] at heq
      rcases List.mem_cons.mp hb with rfl | hb
      · rfl
      · obtain ⟨n, -, rfl⟩ := List.mem_map.mp hb
        have htime : (0 : ℤ) = n + 1 := congrArg OrderDual.ofDual heq
        omega
  cases hfound : (probedDb 500).findLatestForBinding sampleHost.id 8000 .tcp defaultBindAddress with
  | none => exact findLatestForBinding_eq_none hfound _ List.mem_cons_self (by decide)
  | some probe =>
      obtain ⟨hprobe, hfor, -⟩ := findLatestForBinding_spec hfound
      obtain rfl := eq_of_isFor_probedDb hprobe hfor
      have hfew := rivals_lt_of_find?_take hbehind (hequal.symm.trans hfound)
      rw [rivals_perm (List.perm_insertionSort _ _), crowd_eq hfor, crowd_probedDb] at hfew
      omega

end Central
