/-
# Ports a probe found occupied

The candidate searches skip ports that a fresh probe found occupied, but only so
often: the loop of `resolveWithProbeAwareness` checks five candidates and hands
out whatever the search finds after that. `settle` is the loop on a list of
candidates; what it returns is occupied exactly if the first six candidates all
are, and this decides both operations that use it.
-/

import PortForge.Central.SingleCall

namespace Central

open Transaction

/-! ## The loop on a list -/

section Settle

variable {occupied : ℕ → Prop} [DecidablePred occupied]

/-- Skip occupied candidates, `attempts` times at most; the candidate after that is taken
as it is. -/
def settle (occupied : ℕ → Prop) [DecidablePred occupied] : ℕ → List ℕ → Option ℕ
  | 0, candidates => candidates.head?
  | _ + 1, [] => none
  | attempts + 1, candidate :: candidates =>
      if occupied candidate then settle occupied attempts candidates else some candidate

/-- The loop settles on an occupied candidate exactly if it runs out of attempts. -/
theorem settle_occupied_iff {attempts : ℕ} {candidates : List ℕ} :
    (∃ port ∈ settle occupied attempts candidates, occupied port) ↔
      attempts < candidates.length ∧ ∀ port ∈ candidates.take (attempts + 1), occupied port := by
  induction attempts generalizing candidates with
  | zero => cases candidates <;> simp [settle]
  | succ attempts ih =>
      cases candidates with
      | nil => simp [settle]
      | cons candidate candidates =>
          by_cases hcandidate : occupied candidate
          · simpa [settle, hcandidate] using @ih candidates
          · simp [settle, hcandidate]

/-- Otherwise it settles on the first candidate that is not occupied. -/
theorem settle_eq_find? {attempts : ℕ} {candidates : List ℕ}
    (h : ∀ port ∈ settle occupied attempts candidates, ¬ occupied port) :
    settle occupied attempts candidates = candidates.find? fun port => ¬ occupied port := by
  induction attempts generalizing candidates with
  | zero =>
      cases candidates with
      | nil => rfl
      | cons candidate candidates =>
          have hfree := h candidate rfl
          simp [settle, hfree]
  | succ attempts ih =>
      cases candidates with
      | nil => rfl
      | cons candidate candidates =>
          by_cases hcandidate : occupied candidate
          · simp only [settle, hcandidate, if_true] at h ⊢
            rw [ih h]
            simp [hcandidate]
          · simp [settle, hcandidate]

end Settle

/-! ## Candidates -/

/-- The ports of a range the search may still choose, in order: not observed, not
reserved, not in the given set. -/
def Db.freeInRange (db : Db) (hostId : Uuid) (protocol : Protocol) (exclude : Finset ℕ)
    (range : ℕ × ℕ) : List ℕ :=
  let taken := occupiedPorts (db.listCurrentForHost hostId) range.1 range.2 protocol ∪
    reservedPorts (db.listReservations hostId 10000) range.1 range.2 protocol
  (List.range' range.1 (range.2 + 1 - range.1)).filter fun port => port ∉ taken ∪ exclude

/-- The candidates of a search, none where no range is known. -/
def Db.candidates (db : Db) (hostId : Uuid) (protocol : Protocol) (exclude : Finset ℕ)
    (range : Option (ℕ × ℕ)) : List ℕ :=
  (range.map (db.freeInRange hostId protocol exclude)).getD []

/-- A fresh probe at the default address found the port occupied. -/
def Db.KnownOccupied (db : Db) (hostId : Uuid) (protocol : Protocol) (now : ℤ) (port : ℕ) : Prop :=
  db.probeEvidence hostId port protocol defaultBindAddress now = .verifiedOccupied

instance (db : Db) (hostId : Uuid) (protocol : Protocol) (now : ℤ) :
    DecidablePred (db.KnownOccupied hostId protocol now) :=
  fun _ => inferInstanceAs (Decidable (_ = _))

/-- There are six candidates or more, and the first six are all known to be occupied. -/
def Db.SixOccupied (db : Db) (hostId : Uuid) (protocol : Protocol) (now : ℤ) (exclude : Finset ℕ)
    (range : Option (ℕ × ℕ)) : Prop :=
  maxProbeSkipAttempts < (db.candidates hostId protocol exclude range).length ∧
    ∀ port ∈ (db.candidates hostId protocol exclude range).take (maxProbeSkipAttempts + 1),
      db.KnownOccupied hostId protocol now port

instance (db : Db) (hostId : Uuid) (protocol : Protocol) (now : ℤ) (exclude : Finset ℕ)
    (range : Option (ℕ × ℕ)) : Decidable (db.SixOccupied hostId protocol now exclude range) :=
  inferInstanceAs (Decidable (_ ∧ _))

theorem head?_freeInRange (db : Db) (hostId : Uuid) (protocol : Protocol) (exclude : Finset ℕ)
    (range : ℕ × ℕ) :
    (db.freeInRange hostId protocol exclude range).head? =
      firstAvailable range.1 range.2
        (occupiedPorts (db.listCurrentForHost hostId) range.1 range.2 protocol ∪
          reservedPorts (db.listReservations hostId 10000) range.1 range.2 protocol ∪ exclude) := by
  rw [Db.freeInRange, firstAvailable, List.head?_filter]

/-- No candidate is in the excluded set. -/
theorem notMem_of_candidates {db : Db} {hostId : Uuid} {protocol : Protocol} {exclude : Finset ℕ}
    {range : Option (ℕ × ℕ)} {port : ℕ} {ports : List ℕ}
    (h : db.candidates hostId protocol exclude range = port :: ports) : port ∉ exclude := by
  have hmem : port ∈ db.candidates hostId protocol exclude range := h ▸ List.mem_cons_self
  cases range with
  | none => cases hmem
  | some range =>
      simp only [Db.candidates, Option.map_some, Option.getD_some, Db.freeInRange,
        List.mem_filter, decide_eq_true_eq, Finset.mem_union, not_or] at hmem
      exact hmem.2.2

/-- Excluding the first candidate leaves the others. -/
theorem candidates_insert {db : Db} {hostId : Uuid} {protocol : Protocol} {exclude : Finset ℕ}
    {range : Option (ℕ × ℕ)} {port : ℕ} {ports : List ℕ}
    (h : db.candidates hostId protocol exclude range = port :: ports) :
    db.candidates hostId protocol (insert port exclude) range = ports := by
  cases range with
  | none => cases h
  | some range =>
      have hfiltered : db.freeInRange hostId protocol (insert port exclude) range =
          (db.freeInRange hostId protocol exclude range).filter fun other => other ≠ port := by
        simp only [Db.freeInRange, List.filter_filter]
        refine List.filter_congr fun other _ => ?_
        simp only [Finset.union_insert, Finset.mem_insert, not_or, ne_eq, Bool.decide_and]
      have hnodup : (db.freeInRange hostId protocol exclude range).Nodup := by
        have hrange : (List.range' range.1 (range.2 + 1 - range.1)).Nodup := List.nodup_range'
        exact hrange.filter _
      simp only [Db.candidates, Option.map_some, Option.getD_some] at h ⊢
      rw [hfiltered, h]
      rw [h, List.nodup_cons] at hnodup
      have hothers : ports.filter (fun other => other ≠ port) = ports := by
        refine List.filter_eq_self.mpr fun other hother => ?_
        have hne : other ≠ port := fun heq => hnodup.1 (heq ▸ hother)
        simpa using hne
      simpa using hothers

/-- A preferred port the allocation keeps. -/
def Db.Usable (db : Db) (hostId : Uuid) (now : ℤ) (protocol : Protocol) (claimed : Finset ℕ)
    (port : ℕ) : Prop :=
  port ∉ claimed ∧
    ¬ (db.listCurrentForHost hostId).any (fun row => row.port = port ∧ row.protocol = protocol) ∧
    ¬ (db.listReservations hostId 10000).any
      (fun row => row.port = port ∧ row.protocol = protocol) ∧
    ¬ db.KnownOccupied hostId protocol now port

instance (db : Db) (hostId : Uuid) (now : ℤ) (protocol : Protocol) (claimed : Finset ℕ) :
    DecidablePred (db.Usable hostId now protocol claimed) :=
  fun _ => inferInstanceAs (Decidable (_ ∧ _))

/-- The preferred port of an entry, where it is usable. -/
def Db.usablePreferred (db : Db) (hostId : Uuid) (now : ℤ) (item : AllocationRequestItem)
    (claimed : Finset ℕ) : Option ℕ :=
  item.preferredPort.filter fun port => db.Usable hostId now item.protocol claimed port

theorem unclaimed_of_usablePreferred {db : Db} {hostId : Uuid} {now : ℤ}
    {item : AllocationRequestItem} {claimed : Finset ℕ} {port : ℕ}
    (h : db.usablePreferred hostId now item claimed = some port) : port ∉ claimed := by
  rw [Db.usablePreferred, Option.filter_eq_some_iff] at h
  exact (of_decide_eq_true h.2).1

theorem free_of_usablePreferred {db : Db} {hostId : Uuid} {now : ℤ}
    {item : AllocationRequestItem} {claimed : Finset ℕ} {port : ℕ}
    (h : db.usablePreferred hostId now item claimed = some port) :
    ¬ db.KnownOccupied hostId item.protocol now port := by
  rw [Db.usablePreferred, Option.filter_eq_some_iff] at h
  exact (of_decide_eq_true h.2).2.2.2

/-- The port an entry gets, if the earlier entries got those in `claimed`. -/
def Db.choose (db : Db) (hostId : Uuid) (now : ℤ) (item : AllocationRequestItem)
    (claimed : Finset ℕ) : Option ℕ :=
  db.usablePreferred hostId now item claimed <|>
    settle (db.KnownOccupied hostId item.protocol now) maxProbeSkipAttempts
      (db.candidates hostId item.protocol claimed item.searchedRange)

/-- Every entry got the port it is due. -/
def Db.Chosen (db : Db) (hostId : Uuid) (now : ℤ) :
    Finset ℕ → List (AllocationRequestItem × ℕ) → Prop
  | _, [] => True
  | claimed, (item, port) :: resolved =>
      db.choose hostId now item claimed = some port ∧
        db.Chosen hostId now (insert port claimed) resolved

/-! ## The search as it runs alone -/

section Alone

variable {db : Db} {hostId : Uuid} {now : ℤ} {claimed : Finset ℕ} {s : ServiceSession} {α β : Type}

/-- A session that resolves ports of a host. The probes it queued are for ports it has
claimed. -/
structure Searching (hostId : Uuid) (claimed : Finset ℕ) (s : ServiceSession) : Prop where
  journal : s.committedWrites = []
  queued : ∀ write ∈ s.batch, ∃ probe, write = .insertProbe probe ∧
    (probe.hostId = hostId → probe.port ∈ claimed)

/-- What a searching session sees: the starting contents and the probes it queued. -/
theorem Searching.view (hs : Searching hostId claimed s) {contents : Db}
    (hcontents : Program.alone store db s contents) :
    ∃ queued, s.view store contents = { db with probes := db.probes ++ queued } ∧
      ∀ probe ∈ queued, probe.hostId = hostId → probe.port ∈ claimed := by
  obtain rfl := alone_of_journal hs.journal hcontents
  rw [Session.view]
  refine Store.applyAll_induction store (motive := fun seen =>
    ∃ queued, seen = { db with probes := db.probes ++ queued } ∧
      ∀ probe ∈ queued, probe.hostId = hostId → probe.port ∈ claimed) ?_ ?_
  · exact ⟨[], by simp, by simp⟩
  · rintro write hwrite seen ⟨queued, rfl, hqueued⟩
    obtain ⟨probe, rfl, hprobe⟩ := hs.queued write (List.mem_append_left _ hwrite)
    refine ⟨queued ++ [probe], by simp [Write.apply], ?_⟩
    intro other hother
    rcases List.mem_append.mp hother with hearlier | hlast
    · exact hqueued other hearlier
    · rw [List.mem_singleton.mp hlast]
      exact hprobe

/-- Queueing a probe claims its port, however it ends. -/
theorem searching_queueProbe (env : Environment) (loaded : Option Host)
    (hs : Searching hostId claimed s) (port : ℕ) (protocol : Protocol) :
    (queueProbe env loaded hostId port protocol).Ensures store (Program.alone store db)
      (fun _ => True) s fun s' _ => Searching hostId (insert port claimed) s' := by
  have hstaging := staging_queueProbe env loaded hostId port protocol defaultBindAddress
  have hholding : (queueProbe env loaded hostId port protocol).Ensures store
      (Program.alone store db) (fun _ => True) s _ := hstaging.holding.ensures
  have hadds := hstaging.adds.mono fun write hwrite =>
    (Or.inr hwrite : write ∈ s.batch ∨ write.IsProbeFor hostId port)
  refine (hholding.and (hadds.ensures fun write hwrite => Or.inl hwrite)).mono ?_
  rintro s' outcome ⟨⟨hcommitted, -⟩, hbatch⟩
  refine ⟨hcommitted.trans hs.journal, ?_⟩
  intro write hwrite
  rcases hbatch write hwrite with hearlier | hprobe
  · obtain ⟨probe, rfl, hclaimed⟩ := hs.queued write hearlier
    exact ⟨probe, rfl, fun hhost => Finset.mem_insert_of_mem (hclaimed hhost)⟩
  · cases write with
    | insertProbe probe => exact ⟨probe, rfl, fun _ => hprobe.2 ▸ Finset.mem_insert_self _ _⟩
    | _ => exact hprobe.elim

/-- A session that resolves ports on `db` with its clock standing at `now`. The probes it
queued are for ports it has claimed. -/
structure Settling (db : Db) (hostId : Uuid) (now : ℤ) (claimed : Finset ℕ) (s : ServiceSession) :
    Prop where
  journal : s.committedWrites = []
  queued : ∀ write ∈ s.batch, ∃ probe, write = .insertProbe probe ∧
    (probe.hostId = hostId → probe.port ∈ claimed)
  clock : ∀ i, (s.draws i).now = now

theorem Settling.afterDraw (hs : Settling db hostId now claimed s) :
    Settling db hostId now claimed s.afterDraw :=
  ⟨hs.journal, hs.queued, fun i => hs.clock (i + 1)⟩

theorem Settling.mono {larger : Finset ℕ} (hs : Settling db hostId now claimed s)
    (hsub : claimed ⊆ larger) : Settling db hostId now larger s := by
  refine ⟨hs.journal, fun write hwrite => ?_, hs.clock⟩
  obtain ⟨probe, rfl, hprobe⟩ := hs.queued write hwrite
  exact ⟨probe, rfl, fun hhost => hsub (hprobe hhost)⟩

theorem Settling.searching (hs : Settling db hostId now claimed s) : Searching hostId claimed s :=
  ⟨hs.journal, hs.queued⟩

/-- What a settling session sees: the starting contents and the probes it queued. -/
theorem Settling.view (hs : Settling db hostId now claimed s) {contents : Db}
    (hcontents : Program.alone store db s contents) :
    ∃ queued, s.view store contents = { db with probes := db.probes ++ queued } ∧
      ∀ probe ∈ queued, probe.hostId = hostId → probe.port ∈ claimed :=
  hs.searching.view hcontents

/-- Queued probes do not change the evidence on a port that is not claimed. -/
theorem findLatestForBinding_append {queued : List HostProbe} {port : ℕ} {protocol : Protocol}
    {bindAddress : String}
    (hqueued : ∀ probe ∈ queued, probe.hostId = hostId → probe.port ∈ claimed)
    (hport : port ∉ claimed) :
    ({ db with probes := db.probes ++ queued } : Db).findLatestForBinding hostId port protocol
      bindAddress = db.findLatestForBinding hostId port protocol bindAddress := by
  have hnone : (queued.filter fun probe =>
      probe.hostId = hostId ∧ probe.port = port ∧ probe.protocol = protocol ∧
        probe.bindAddress = bindAddress) = [] := by
    refine List.filter_eq_nil_iff.mpr fun probe hprobe hmatch => hport ?_
    obtain ⟨hhost, hsame, -⟩ := of_decide_eq_true hmatch
    exact hsame ▸ hqueued probe hprobe hhost
  simp only [Db.findLatestForBinding, List.filter_append, hnone, List.append_nil]

/-- What a program returns, if it returns; its session goes on settling. -/
def Settles (db : Db) (hostId : Uuid) (now : ℤ) (p : Service α) (s : ServiceSession)
    (result : α → Finset ℕ → Prop) : Prop :=
  p.Ensures store (Program.alone store db) (fun _ => True) s fun s' outcome =>
    ∀ value, outcome = .ok value →
      ∃ claimed, result value claimed ∧ Settling db hostId now claimed s'

theorem Settles.bind {p : Service α} {f : α → Service β} {M : α → Finset ℕ → Prop}
    {result : β → Finset ℕ → Prop} (h : Settles db hostId now p s M)
    (hf : ∀ s' value claimed, M value claimed → Settling db hostId now claimed s' →
      Settles db hostId now (f value) s' result) :
    Settles db hostId now (p >>= f) s result := by
  refine Program.Ensures.bind h ?_ ?_
  · intro s' value hvalue
    obtain ⟨claimed, hmid, hs'⟩ := hvalue value rfl
    exact hf s' value claimed hmid hs'
  · intro s' error _ value hvalue
    cases hvalue

theorem Settles.ret {value : α} {result : α → Finset ℕ → Prop} (h : result value claimed)
    (hs : Settling db hostId now claimed s) : Settles db hostId now (pure value) s result := by
  rintro _ ⟨⟩
  exact ⟨claimed, h, hs⟩

/-- The evidence on an unclaimed port is what the starting contents say. -/
theorem settles_getProbeEvidence (hs : Settling db hostId now claimed s) {port : ℕ}
    (protocol : Protocol) (hport : port ∉ claimed) :
    Settles db hostId now (getProbeEvidence hostId port protocol) s fun evidence after =>
      evidence.bindProbe = db.probeEvidence hostId port protocol defaultBindAddress now ∧
        after = claimed := by
  intro contents hcontents value hvalue
  cases hvalue
  obtain ⟨queued, hview, hqueued⟩ := hs.view hcontents
  refine ⟨claimed, ⟨?_, rfl⟩, hs.afterDraw⟩
  simp only [hview, findLatestForBinding_append hqueued hport, hs.clock, Db.probeEvidence]

/-- The search finds the first candidate. -/
theorem settles_findAvailablePort (hs : Settling db hostId now claimed s) (serviceType : String)
    (protocol : Protocol) (exclude : Finset ℕ) (range : Option (ℕ × ℕ)) :
    Settles db hostId now (findAvailablePort hostId serviceType protocol exclude range) s
      fun result after =>
        result.port = (db.candidates hostId protocol exclude
          (range <|> defaultRange serviceType)).head? ∧ after = claimed := by
  rw [findAvailablePort]
  split
  · rename_i hnone
    refine Settles.ret ⟨?_, rfl⟩ hs
    rw [hnone]
    rfl
  · rename_i bounds hbounds
    rw [hbounds]
    intro contents hcontents contents' hcontents' value hvalue
    cases hvalue
    obtain ⟨queued, hview, -⟩ := hs.view hcontents
    obtain ⟨queued', hview', -⟩ := hs.view hcontents'
    refine ⟨claimed, ⟨?_, rfl⟩, hs⟩
    simp only [hview, hview', Db.candidates, Option.map_some, Option.getD_some,
      head?_freeInRange]
    rfl

/-- Queueing a probe claims its port. -/
theorem settles_queueProbe (env : Environment) (loaded : Option Host)
    (hs : Settling db hostId now claimed s) (port : ℕ) (protocol : Protocol) :
    Settles db hostId now (queueProbe env loaded hostId port protocol) s
      fun _ after => after = insert port claimed := by
  refine ((searching_queueProbe env loaded hs.searching port protocol).and
    (Program.ensures_draws _)).mono ?_
  rintro s' outcome ⟨hsearching, k, hdraws⟩ value -
  refine ⟨insert port claimed, rfl, hsearching.journal, hsearching.queued, fun i => ?_⟩
  rw [hdraws]
  exact hs.clock _

/-- The loop on the session does what `settle` does on the candidates left. -/
theorem settles_skipOccupied (env : Environment) (loaded : Option Host) (protocol : Protocol)
    {refine : Finset ℕ → Service CandidateSearchResult} {range : Option (ℕ × ℕ)}
    (hrefine : ∀ exclude s', Settling db hostId now claimed s' →
      Settles db hostId now (refine exclude) s' fun result after =>
        result.port = (db.candidates hostId protocol (claimed ∪ exclude) range).head? ∧
          after = claimed)
    (hs : Settling db hostId now claimed s) (attempts : ℕ) (exclude : Finset ℕ)
    (result : CandidateSearchResult)
    (hresult : result.port = (db.candidates hostId protocol (claimed ∪ exclude) range).head?) :
    Settles db hostId now (skipOccupied env loaded hostId protocol refine attempts exclude result) s
      fun found after =>
        found.1.port = settle (db.KnownOccupied hostId protocol now) attempts
            (db.candidates hostId protocol (claimed ∪ exclude) range) ∧
          ∀ port, found.1.port = some port → after ⊆ insert port claimed := by
  induction attempts generalizing s exclude result with
  | zero => exact Settles.ret ⟨hresult, fun port _ => Finset.subset_insert port claimed⟩ hs
  | succ attempts ih =>
      rw [skipOccupied]
      cases hcandidates : db.candidates hostId protocol (claimed ∪ exclude) range with
      | nil =>
          rw [hcandidates] at hresult
          simp only [hresult, List.head?_nil]
          exact Settles.ret ⟨hresult, fun port _ => Finset.subset_insert port claimed⟩ hs
      | cons port ports =>
          rw [hcandidates] at hresult
          have hunclaimed : port ∉ claimed := fun hclaimed =>
            notMem_of_candidates hcandidates (Finset.mem_union_left exclude hclaimed)
          have hnext := candidates_insert hcandidates
          rw [← Finset.union_insert] at hnext
          simp only [hresult, List.head?_cons]
          refine Settles.bind (settles_getProbeEvidence hs protocol hunclaimed) ?_
          rintro s' evidence _ ⟨hevidence, rfl⟩ hs'
          split
          · rename_i hoccupied
            have hknown : db.KnownOccupied hostId protocol now port :=
                hevidence.symm.trans hoccupied
            refine Settles.bind (hrefine _ s' hs') ?_
            rintro s'' next _ ⟨hport, rfl⟩ hs''
            have hrest := ih hs'' (insert port exclude) next hport
            rw [hnext] at hrest
            simpa only [settle, hknown, if_true] using hrest
          · rename_i hfree
            have hknown : ¬ db.KnownOccupied hostId protocol now port := by
              rw [Db.KnownOccupied, ← hevidence, hfree]
              simp
            refine Settles.ret ⟨?_, fun port _ => Finset.subset_insert port _⟩ hs'
            simp only [settle, hknown, if_false, hresult, List.head?_cons]
          · rename_i hoccupied _
            have hknown : ¬ db.KnownOccupied hostId protocol now port := by
              rw [Db.KnownOccupied, ← hevidence]
              exact hoccupied
            refine Settles.bind (settles_queueProbe env loaded hs' port protocol) ?_
            rintro s'' probe _ rfl hs''
            refine Settles.ret ⟨?_, ?_⟩ hs''
            · simp only [settle, hknown, if_false, hresult, List.head?_cons]
            · intro other hother
              rw [hresult, List.head?_cons, Option.some_inj] at hother
              rw [hother]

theorem settles_select (hs : Settling db hostId now claimed s) {q : Db → α}
    (hq : ∀ queued, q { db with probes := db.probes ++ queued } = q db) :
    Settles db hostId now (select q) s fun value after => value = q db ∧ after = claimed := by
  intro contents hcontents value hvalue
  cases hvalue
  obtain ⟨queued, hview, -⟩ := hs.view hcontents
  exact ⟨claimed, ⟨by rw [hview, hq], rfl⟩, hs⟩

/-- The preferred port is kept exactly if it is usable. -/
theorem settles_freePreferredPort (hs : Settling db hostId now claimed s)
    (item : AllocationRequestItem) :
    Settles db hostId now (freePreferredPort hostId item claimed) s fun found after =>
      found = db.usablePreferred hostId now item claimed ∧ after = claimed := by
  rw [freePreferredPort, Db.usablePreferred]
  cases hpreferred : item.preferredPort with
  | none => exact Settles.ret ⟨rfl, rfl⟩ hs
  | some port =>
      refine Settles.bind (M := fun free after =>
        (free = true ↔ db.Usable hostId now item.protocol claimed port) ∧ after = claimed) ?_ ?_
      · rw [portIsFree]
        split
        · rename_i hclaimed
          exact Settles.ret ⟨by simp [Db.Usable, hclaimed], rfl⟩ hs
        · rename_i hclaimed
          refine Settles.bind (settles_select hs fun _ => rfl) ?_
          rintro s₁ _ _ ⟨rfl, rfl⟩ hs₁
          split
          · rename_i hcurrent
            refine Settles.ret ⟨?_, rfl⟩ hs₁
            simp only [Db.Usable, hcurrent, not_true, false_and, and_false, Bool.false_eq_true]
          · rename_i hcurrent
            refine Settles.bind (settles_select hs₁ fun _ => rfl) ?_
            rintro s₂ _ _ ⟨rfl, rfl⟩ hs₂
            split
            · rename_i hrows
              refine Settles.ret ⟨?_, rfl⟩ hs₂
              simp only [Db.Usable, hrows, not_true, false_and, and_false, Bool.false_eq_true]
            · rename_i hrows
              refine Settles.bind (settles_getProbeEvidence hs₂ item.protocol hclaimed) ?_
              rintro s₃ evidence _ ⟨hevidence, rfl⟩ hs₃
              refine Settles.ret ⟨?_, rfl⟩ hs₃
              simp only [Db.Usable, Db.KnownOccupied, hclaimed, hcurrent, hrows, hevidence,
                Bool.false_eq_true, not_false_iff, true_and, ne_eq, decide_eq_true_eq]
      · rintro s' free _ ⟨hfree, rfl⟩ hs'
        refine Settles.ret ⟨?_, rfl⟩ hs'
        cases free with
        | false => simp [Option.filter, ← hfree]
        | true => simp [Option.filter, ← hfree]

/-- One entry's port. -/
theorem settles_resolveCandidate (env : Environment) (host : Host)
    (hs : Settling db hostId now claimed s) (item : AllocationRequestItem) :
    Settles db hostId now (resolveCandidate env host hostId item claimed) s fun found after =>
      found.1 = db.choose hostId now item claimed ∧
        ∀ port, found.1 = some port → after ⊆ insert port claimed := by
  refine Settles.bind (settles_freePreferredPort hs item) ?_
  rintro s' preferred claimed ⟨hpreferred, rfl⟩ hs'
  cases preferred with
  | some port =>
      have hchoose : some port = db.choose hostId now item claimed := by
        rw [Db.choose, ← hpreferred]
        rfl
      have hunclaimed := unclaimed_of_usablePreferred hpreferred.symm
      refine Settles.bind (settles_getProbeEvidence hs' item.protocol hunclaimed) ?_
      rintro s'' evidence claimed ⟨-, rfl⟩ hs''
      split
      · exact Settles.ret ⟨hchoose, fun port _ => Finset.subset_insert port _⟩ hs''
      · split
        · refine Settles.bind (settles_queueProbe env _ hs'' port item.protocol) ?_
          rintro _ _ _ rfl hqueued
          refine Settles.ret ⟨hchoose, ?_⟩ hqueued
          rintro _ ⟨⟩
          exact subset_rfl
        · exact Settles.ret ⟨hchoose, fun port _ => Finset.subset_insert port _⟩ hs''
  | none =>
      have hchoose : db.choose hostId now item claimed =
          settle (db.KnownOccupied hostId item.protocol now) maxProbeSkipAttempts
            (db.candidates hostId item.protocol claimed item.searchedRange) := by
        rw [Db.choose, ← hpreferred]
        rfl
      refine Settles.bind (settles_findAvailablePort hs' item.purpose item.protocol _ item.range) ?_
      rintro s'' initial claimed ⟨hinitial, rfl⟩ hs''
      refine Settles.bind (settles_skipOccupied env (some host) item.protocol (fun exclude t ht =>
          settles_findAvailablePort ht item.purpose item.protocol _ item.range) hs''
        maxProbeSkipAttempts ∅ initial ?_) ?_
      · rw [Finset.union_empty]
        exact hinitial
      · rintro _ ⟨found, bindProbe⟩ after ⟨hfound, hafter⟩ hlast
        rw [Finset.union_empty] at hfound
        exact Settles.ret ⟨hfound.trans hchoose.symm, hafter⟩ hlast

/-- The whole bundle's ports. -/
theorem settles_resolveAll (env : Environment) (host : Host)
    (hs : Settling db hostId now claimed s) (items : List AllocationRequestItem) :
    Yields (Program.alone store db) (fun _ => True) (resolveAll env host hostId items claimed) s
      fun found => db.Chosen hostId now claimed found.1 ∧ found.1.map Prod.fst = items := by
  induction items generalizing s claimed with
  | nil =>
      rintro _ ⟨⟩
      exact ⟨trivial, rfl⟩
  | cons item items ih =>
      rw [resolveAll]
      refine Program.Ensures.bind (settles_resolveCandidate env host hs item) ?_ ?_
      · rintro s' ⟨port, itemBindProbe⟩ hfound
        obtain ⟨after, ⟨hport, hafter⟩, hs'⟩ := hfound _ rfl
        cases port with
        | none =>
            intro value hvalue
            cases hvalue
        | some port =>
            refine Program.Ensures.bind (ih (hs'.mono (hafter port rfl))) ?_ ?_
            · rintro s'' ⟨resolved, bindProbe⟩ hrest
              obtain ⟨hchosen, hnames⟩ := hrest _ rfl
              rintro _ ⟨⟩
              refine ⟨⟨hport.symm, hchosen⟩, ?_⟩
              rw [List.map_cons, hnames]
            · rintro s'' error - value ⟨⟩
      · rintro s' error - value ⟨⟩

end Alone

/-! ## Who is handed an occupied port -/

/-- No entry exhausts its attempts, when the entries before it get the first candidates
not known to be occupied. -/
def Db.SearchesSettle (db : Db) (hostId : Uuid) (now : ℤ) :
    Finset ℕ → List AllocationRequestItem → Prop
  | _, [] => True
  | claimed, item :: items =>
      match db.usablePreferred hostId now item claimed with
      | some port => db.SearchesSettle hostId now (insert port claimed) items
      | none =>
          ¬ db.SixOccupied hostId item.protocol now claimed item.searchedRange ∧
            ∀ port ∈ (db.candidates hostId item.protocol claimed item.searchedRange).find?
                fun port =>
                ¬ db.KnownOccupied hostId item.protocol now port,
              db.SearchesSettle hostId now (insert port claimed) items

/-- Of the ports the entries are due none is known to be occupied exactly if every search
settles. -/
theorem Db.Chosen.occupied_iff {db : Db} {hostId : Uuid} {now : ℤ} {claimed : Finset ℕ}
    {resolved : List (AllocationRequestItem × ℕ)} (h : db.Chosen hostId now claimed resolved) :
    (∀ entry ∈ resolved, ¬ db.KnownOccupied hostId entry.1.protocol now entry.2) ↔
      db.SearchesSettle hostId now claimed (resolved.map Prod.fst) := by
  induction resolved generalizing claimed with
  | nil => simp [Db.SearchesSettle]
  | cons entry resolved ih =>
      obtain ⟨item, port⟩ := entry
      obtain ⟨hport, hrest⟩ := h
      rw [List.forall_mem_cons, ih hrest, List.map_cons, Db.SearchesSettle]
      rw [Db.choose] at hport
      cases hpreferred : db.usablePreferred hostId now item claimed with
      | some preferred =>
          rw [hpreferred] at hport
          obtain rfl : preferred = port := by simpa using hport
          have hfree := free_of_usablePreferred hpreferred
          simp [hfree]
      | none =>
          rw [hpreferred] at hport
          have hsettle : settle (db.KnownOccupied hostId item.protocol now) maxProbeSkipAttempts
              (db.candidates hostId item.protocol claimed item.searchedRange) = some port := by
            simpa using hport
          have hsix : db.KnownOccupied hostId item.protocol now port ↔
              db.SixOccupied hostId item.protocol now claimed item.searchedRange := by
            rw [Db.SixOccupied, ← settle_occupied_iff, hsettle]
            simp
          by_cases hoccupied : db.KnownOccupied hostId item.protocol now port
          · simp [hoccupied, ← hsix]
          · have hfree : ∀ other ∈ settle (db.KnownOccupied hostId item.protocol now)
                maxProbeSkipAttempts (db.candidates hostId item.protocol claimed
                    item.searchedRange),
                ¬ db.KnownOccupied hostId item.protocol now other := by
              rw [hsettle]
              simpa using hoccupied
            have hfind := settle_eq_find? hfree
            simp only [← hfind, hsettle, ← hsix, hoccupied]
            simp

/-- A suggestion that runs alone on `db`. -/
def runSuggestPort (env : Environment) (hostId : Uuid) (serviceType : String) (protocol : Protocol)
    (db : Db) (draws : ℕ → Draw) (faults : ℕ → Option DbError) :
    Outcome Db Write ℤ Draw Failure CentralRecommendationOut :=
  (suggestPort env hostId serviceType protocol).exec store (Session.start draws faults) db

section Calls

variable {env : Environment} {db : Db} {draws : ℕ → Draw} {faults : ℕ → Option DbError} {now : ℤ}

theorem settling_start (hostId : Uuid) (hclock : ∀ i, (draws i).now = now) :
    Settling db hostId now ∅ (Session.start draws faults) :=
  ⟨rfl, by simp [Session.batch, Session.start], hclock⟩

/-- A bundle resolves the ports its entries are due. -/
theorem resolvesAlone_chosen (env : Environment) (payload : AllocationIn) (db : Db)
    (faults : ℕ → Option DbError) (hclock : ∀ i, (draws i).now = now) :
    ResolvesAlone (fun resolved => db.Chosen payload.hostId now ∅ resolved ∧
      resolved.map Prod.fst = payload.requests) env payload db draws faults := by
  intro host
  have hstart : Settling db payload.hostId now ∅ (resolvingSession env payload draws faults) :=
    ⟨rfl, by simp [Session.batch, Session.start, resolvingSession], fun i => hclock (i + 1)⟩
  exact settles_resolveAll env host hstart payload.requests

/-- A suggestion settles like an entry without a preferred port. -/
theorem runSuggestPort_spec (env : Environment) (hostId : Uuid) (serviceType : String)
    (protocol : Protocol) (db : Db) (faults : ℕ → Option DbError)
    (hclock : ∀ i, (draws i).now = now) (out : CentralRecommendationOut)
    (hok : (runSuggestPort env hostId serviceType protocol db draws faults).result = .ok out) :
    out.recommendedPort = settle (db.KnownOccupied hostId protocol now) maxProbeSkipAttempts
      (db.candidates hostId protocol ∅ (defaultRange serviceType)) := by
  have hspec : (suggestPort env hostId serviceType protocol).Ensures store (Program.alone store db)
      (fun _ => True) (Session.start draws faults) fun _ outcome => ∀ out, outcome = .ok out →
        out.recommendedPort = settle (db.KnownOccupied hostId protocol now) maxProbeSkipAttempts
          (db.candidates hostId protocol ∅ (defaultRange serviceType)) := by
    have hstart : Settling db hostId now ∅ (Session.start draws faults) :=
      settling_start hostId hclock
    rw [suggestPort]
    split
    · rename_i hunknown
      rintro _ ⟨⟩
      rw [Option.isNone_iff_eq_none.mp hunknown]
      rfl
    · have hsearch : ∀ exclude t, Settling db hostId now ∅ t →
          Settles db hostId now (findAvailablePort hostId serviceType protocol exclude none) t
            fun result after => result.port = (db.candidates hostId protocol (∅ ∪ exclude)
              (defaultRange serviceType)).head? ∧ after = ∅ := by
        intro exclude t ht
        have hfound := settles_findAvailablePort ht serviceType protocol exclude none
        have hrange : (none <|> defaultRange serviceType) = defaultRange serviceType := rfl
        rw [Finset.empty_union]
        rwa [hrange] at hfound
      refine Program.Ensures.bind (hsearch ∅ _ hstart) ?_ ?_
      · rintro s' initial hinitial
        obtain ⟨_, ⟨hport, rfl⟩, hs'⟩ := hinitial _ rfl
        have hskip := settles_skipOccupied env none protocol hsearch hs' maxProbeSkipAttempts ∅
          initial hport
        refine Program.Ensures.bind hskip ?_ ?_
        · rintro s'' ⟨result, bindProbe⟩ hfound
          obtain ⟨after, ⟨hresult, -⟩, -⟩ := hfound _ rfl
          simp only [Program.bind_eq, Program.ensures_bind, ensures_commit]
          refine ⟨trivial, ?_, ?_⟩
          · rintro contents - - _ ⟨⟩
            exact hresult
          · rintro contents error - - _ ⟨⟩
        · rintro s'' error - _ ⟨⟩
      · rintro s' error - _ ⟨⟩
  exact (hspec.exec rfl).1 out hok

/-- When a granted bundle's ports are free of known occupants. -/
theorem createAllocation_occupied_iff {payload : AllocationIn} {out : AllocationOut}
    (hclock : ∀ i, (draws i).now = now) (hnew : NewRequest payload db)
    (hok : (runCreateAllocation env payload db draws faults).result = .ok out) :
    ∃ rows,
      (runCreateAllocation env payload db draws faults).db.reservations =
        db.reservations ++ rows ∧
      rows.map CentralReservation.requestName = payload.requests.map (fun item => some item.name) ∧
      ((∀ row ∈ rows, ¬ db.KnownOccupied payload.hostId row.protocol now row.port) ↔
        db.SearchesSettle payload.hostId now ∅ payload.requests) := by
  obtain ⟨hpost, hdb⟩ := runCreateAllocation_spec (resolvesAlone_chosen env payload db
      faults hclock)
  rw [hok] at hpost
  obtain ⟨allocation, batch, hjournal, hbatch, -, -, -⟩ := hpost.1 hnew
  obtain ⟨resolved, grants, ⟨hchosen, hnames⟩, hgrants, happly⟩ := hbatch.applyAll
  obtain ⟨probes, hcontents⟩ := happly db
  have hrows := rows_grants hgrants
  refine ⟨grants.map Prod.fst, ?_, ?_, ?_⟩
  · have hcommitted :
        (runCreateAllocation env payload db draws faults).session.committedWrites = batch := by
      rw [Session.committedWrites, hjournal]
      simp
    rw [hdb, hcommitted, hcontents]
  · have hrequested := congrArg (List.map fun row => row.1) hrows
    rw [← hnames]
    simp only [List.map_map] at hrequested ⊢
    exact hrequested
  · rw [← hnames, ← hchosen.occupied_iff]
    exact forall_rows_iff hgrants fun protocol port =>
      ¬ db.KnownOccupied payload.hostId protocol now port

/-- None of the reservations that an answer about an allocation lists has become known to be
occupied. -/
def Db.FiledFree (db : Db) (allocation : Allocation) (now : ℤ) : Prop :=
  ∀ row ∈ db.listedFor allocation, ¬ db.KnownOccupied allocation.hostId row.protocol now row.port

instance (db : Db) (allocation : Allocation) (now : ℤ) : Decidable (db.FiledFree allocation now) :=
  inferInstanceAs (Decidable (∀ row ∈ db.listedFor allocation, _))

/-- What holds of the ports listed holds of those shown. -/
theorem forall_shown_iff {rows : List CentralReservation} {entries : List AllocationEntryOut}
    (h : List.Forall₂ (fun row entry => entry.port = row.port ∧ entry.protocol = row.protocol) rows
      entries) (good : Protocol → ℕ → Prop) :
    (∀ entry ∈ entries, good entry.protocol entry.port) ↔
      ∀ row ∈ rows, good row.protocol row.port := by
  induction h with
  | nil => simp
  | cons hshown _ ih => rw [List.forall_mem_cons, List.forall_mem_cons, ih, hshown.1, hshown.2]

/-- Handing out ports known to be occupied. With the clock standing still during the
call, a bundle's new reservations avoid such ports exactly if every one of its searches
settles, and a suggestion avoids them exactly if not all of the first six candidates are
known to be occupied. A replay reserves nothing and repeats what is on file under its key,
without a look at the probes: its answer avoids such ports exactly if no reservation it
lists has become occupied. -/
theorem knownOccupied_iff (env : Environment) (db : Db) (draws : ℕ → Draw)
    (faults : ℕ → Option DbError) (now : ℤ) (hclock : ∀ i, (draws i).now = now) :
    (∀ payload out, (runCreateAllocation env payload db draws faults).result = .ok out →
      (NewRequest payload db → ∃ rows,
        (runCreateAllocation env payload db draws faults).db.reservations =
          db.reservations ++ rows ∧
        rows.map CentralReservation.requestName =
          payload.requests.map (fun item => some item.name) ∧
        ((∀ row ∈ rows, ¬ db.KnownOccupied payload.hostId row.protocol now row.port) ↔
          db.SearchesSettle payload.hostId now ∅ payload.requests)) ∧
      (¬ NewRequest payload db →
        (runCreateAllocation env payload db draws faults).db = db ∧
        ∃ existing, db.filedFor payload = [existing] ∧ out.allocationId = existing.id ∧
          List.Forall₂ (fun row entry => entry.port = row.port ∧ entry.protocol = row.protocol)
            (db.listedFor existing) out.allocations ∧
          ((∀ entry ∈ out.allocations,
              ¬ db.KnownOccupied existing.hostId entry.protocol now entry.port) ↔
            db.FiledFree existing now))) ∧
    ∀ hostId serviceType protocol out,
      (runSuggestPort env hostId serviceType protocol db draws faults).result = .ok out →
      ((∀ port ∈ out.recommendedPort, ¬ db.KnownOccupied hostId protocol now port) ↔
        ¬ db.SixOccupied hostId protocol now ∅ (defaultRange serviceType)) := by
  refine ⟨fun payload out hok => ⟨fun hnew => ?_, fun hold => ?_⟩, ?_⟩
  · exact createAllocation_occupied_iff hclock hnew hok
  · obtain ⟨hpost, hdb⟩ :=
      runCreateAllocation_spec (resolvesAlone_chosen env payload db faults hclock)
    rw [hok] at hpost
    obtain ⟨hjournal, -, existing, hfiled, hid, hlisted⟩ := hpost.2 hold
    refine ⟨?_, existing, hfiled, hid, hlisted, ?_⟩
    · rw [hdb, Session.committedWrites, hjournal]
      rfl
    · exact forall_shown_iff hlisted fun protocol port =>
        ¬ db.KnownOccupied existing.hostId protocol now port
  · intro hostId serviceType protocol out hok
    have hport := runSuggestPort_spec env hostId serviceType protocol db faults hclock out hok
    rw [Db.SixOccupied, ← settle_occupied_iff, ← hport]
    push Not
    rfl

end Calls

/-! ## Six occupied ports, and one that is in use -/

/-- A completed probe of the sample host that found a port occupied. -/
def occupiedProbe (port : ℕ) : HostProbe where
  id := ⟨BitVec.ofNat 128 port⟩
  hostId := sampleHost.id
  port := port
  protocol := .tcp
  bindAddress := defaultBindAddress
  status := .completed
  resultAvailable := some false
  expiresAt := 120000000
  createdAt := 0

/-- The sample registry after the agent reported 8000 to 8005 occupied. -/
def sixOccupiedDb : Db :=
  { sampleDb with probes := (List.range' 8000 6).map occupiedProbe }

/-- The sample bundle, sent with a key. -/
def repeatedPayload : AllocationIn :=
  { samplePayload with requestId := some "deploy-7", requestId_length := by decide }

/-- The bundle was granted 8000 and its service has started; 8001 and 8002 are occupied too. -/
def servedDb : Db :=
  { sampleDb with
    allocations := [newAllocation sampleEnvironment repeatedPayload ⟨2⟩ 0]
    reservations := [grantedRow repeatedPayload ⟨2⟩ (sampleItem, 8000) ⟨3⟩]
    probes := (List.range' 8000 3).map occupiedProbe }

/-- A new bundle and a suggestion pass the occupied ports over. -/
theorem knownOccupied_iff_sample :
    (∃ out, (runCreateAllocation sampleEnvironment samplePayload servedDb (sampleDraws 100)
        fun _ => none).result = .ok out ∧
      out.allocations.map AllocationEntryOut.port = [8003] ∧
      ∃ rows,
        (runCreateAllocation sampleEnvironment samplePayload servedDb (sampleDraws 100)
          fun _ => none).db.reservations = servedDb.reservations ++ rows ∧
        ∀ row ∈ rows, ¬ servedDb.KnownOccupied sampleHost.id row.protocol 0 row.port) ∧
      ∃ out, (runSuggestPort sampleEnvironment sampleHost.id "api" .tcp servedDb
          (sampleDraws 100) fun _ => none).result = .ok out ∧
        out.recommendedPort = some 8003 ∧
        ∀ port ∈ out.recommendedPort, ¬ servedDb.KnownOccupied sampleHost.id .tcp 0 port := by
  have hlaw := knownOccupied_iff sampleEnvironment servedDb (sampleDraws 100) (fun _ => none) 0
    fun _ => rfl
  refine ⟨⟨_, rfl, by decide +kernel, ?_⟩, _, rfl, by decide +kernel,
    (hlaw.2 sampleHost.id "api" .tcp _ rfl).mpr (by decide +kernel)⟩
  obtain ⟨rows, hrows, -, hfree⟩ := (hlaw.1 samplePayload _ rfl).1 (by decide)
  refine ⟨rows, hrows, hfree.mpr ?_⟩
  have hpreferred : servedDb.usablePreferred sampleHost.id 0 sampleItem ∅ = none := by
    decide +kernel
  have hsettles : servedDb.SearchesSettle sampleHost.id 0 ∅ [sampleItem] := by
    rw [Db.SearchesSettle, hpreferred]
    exact ⟨by decide +kernel, fun _ _ => trivial⟩
  exact hsettles

/-- Both operations hand out 8005, which a fresh probe found occupied; and a bundle sent again
is given the port of its own service. -/
theorem handsOut_knownOccupied :
    (∃ out, (runSuggestPort sampleEnvironment sampleHost.id "api" .tcp sixOccupiedDb
        (sampleDraws 100) fun _ => none).result = .ok out ∧ out.recommendedPort = some 8005) ∧
      (∃ out, (runCreateAllocation sampleEnvironment samplePayload sixOccupiedDb
        (sampleDraws 100) fun _ => none).result = .ok out ∧
        out.allocations.map AllocationEntryOut.port = [8005]) ∧
      sixOccupiedDb.probeEvidence sampleHost.id 8005 .tcp defaultBindAddress 0 =
        .verifiedOccupied ∧
      (∃ out, (runCreateAllocation sampleEnvironment repeatedPayload servedDb
        (sampleDraws 100) fun _ => none).result = .ok out ∧
        out.allocations.map AllocationEntryOut.port = [8000]) ∧
      servedDb.probeEvidence sampleHost.id 8000 .tcp defaultBindAddress 0 = .verifiedOccupied :=
  ⟨⟨_, rfl, rfl⟩, ⟨_, rfl, rfl⟩, by decide, ⟨_, rfl, rfl⟩, by decide⟩

end Central
