/-
# What a granted port satisfies

The candidate search of an allocation, read as a specification: whatever the
other sessions commit in the meantime, a port it settles on is one the request
asked for, is not claimed by an earlier entry of the bundle, and was neither
observed nor reserved on the host in contents the search saw. `R` stands for
what is known of those contents.
-/

import PortForge.Central.Allocations
import Mathlib.Data.Finset.Lattice.Lemmas

namespace Central

open Transaction

/-! ## Free ports -/

/-- Some current row observes the port in use. -/
def Db.Observed (db : Db) (hostId : Uuid) (port : ℕ) (protocol : Protocol) : Prop :=
  ∃ row ∈ db.current, row.hostId = hostId ∧ row.port = port ∧ row.protocol = protocol

/-- Some reservation holds the port, on whatever address. -/
def Db.Reserved (db : Db) (hostId : Uuid) (port : ℕ) (protocol : Protocol) : Prop :=
  ∃ row ∈ db.reservations, row.hostId = hostId ∧ row.port = port ∧ row.protocol = protocol

instance (db : Db) (hostId : Uuid) (port : ℕ) (protocol : Protocol) :
    Decidable (db.Observed hostId port protocol) :=
  inferInstanceAs (Decidable (∃ row ∈ db.current, _))

instance (db : Db) (hostId : Uuid) (port : ℕ) (protocol : Protocol) :
    Decidable (db.Reserved hostId port protocol) :=
  inferInstanceAs (Decidable (∃ row ∈ db.reservations, _))

/-- The listing of a host's reservations is not cut off. -/
def Db.ListingComplete (db : Db) (hostId : Uuid) : Prop :=
  (db.hostReservations hostId).length ≤ 10000

instance (db : Db) (hostId : Uuid) : Decidable (db.ListingComplete hostId) :=
  inferInstanceAs (Decidable (_ ≤ _))

/-- The range an entry is searched in: its own, else its purpose's. -/
def AllocationRequestItem.searchedRange (item : AllocationRequestItem) : Option (ℕ × ℕ) :=
  item.range <|> defaultRange item.purpose

/-- A port the entry asks for. -/
def AllocationRequestItem.Wants (item : AllocationRequestItem) (port : ℕ) : Prop :=
  item.preferredPort = some port ∨
    ∃ range ∈ item.searchedRange, range.1 ≤ port ∧ port ≤ range.2

theorem mem_occupiedPorts {rows : List CurrentPortObservation} {start stop port : ℕ}
    {protocol : Protocol} :
    port ∈ occupiedPorts rows start stop protocol ↔
      (start ≤ port ∧ port ≤ stop) ∧ ∃ row ∈ rows, row.port = port ∧ row.protocol = protocol := by
  simp only [occupiedPorts, List.mem_toFinset, List.mem_map, List.mem_filter, decide_eq_true_eq]
  constructor
  · rintro ⟨row, ⟨hrow, hstart, hstop, hprotocol⟩, rfl⟩
    exact ⟨⟨hstart, hstop⟩, row, hrow, rfl, hprotocol⟩
  · rintro ⟨⟨hstart, hstop⟩, row, hrow, rfl, hprotocol⟩
    exact ⟨row, ⟨hrow, hstart, hstop, hprotocol⟩, rfl⟩

theorem mem_reservedPorts {rows : List CentralReservation} {start stop port : ℕ}
    {protocol : Protocol} :
    port ∈ reservedPorts rows start stop protocol ↔
      (start ≤ port ∧ port ≤ stop) ∧ ∃ row ∈ rows, row.port = port ∧ row.protocol = protocol := by
  simp only [reservedPorts, List.mem_toFinset, List.mem_map, List.mem_filter, decide_eq_true_eq]
  constructor
  · rintro ⟨row, ⟨hrow, hstart, hstop, hprotocol⟩, rfl⟩
    exact ⟨⟨hstart, hstop⟩, row, hrow, rfl, hprotocol⟩
  · rintro ⟨⟨hstart, hstop⟩, row, hrow, rfl, hprotocol⟩
    exact ⟨row, ⟨hrow, hstart, hstop, hprotocol⟩, rfl⟩

/-- The rows of a host that the observation check looks at. -/
theorem observed_iff {db : Db} {hostId : Uuid} {port : ℕ} {protocol : Protocol} :
    db.Observed hostId port protocol ↔
      ∃ row ∈ db.listCurrentForHost hostId, row.port = port ∧ row.protocol = protocol := by
  simp only [Db.Observed, Db.listCurrentForHost, List.mem_filter, decide_eq_true_eq, and_assoc]

/-- The rows of a host that the reservation check looks at, while the listing is
complete. -/
theorem reserved_iff {db : Db} {hostId : Uuid} {port : ℕ} {protocol : Protocol}
    (hcomplete : db.ListingComplete hostId) :
    db.Reserved hostId port protocol ↔
      ∃ row ∈ db.listReservations hostId 10000, row.port = port ∧ row.protocol = protocol := by
  simp only [Db.Reserved, Db.mem_listReservations_of_le hcomplete, and_assoc]

/-- The scan stops at a port of the range that is not in the set. -/
theorem of_firstAvailable {start stop port : ℕ} {unavailable : Finset ℕ}
    (h : firstAvailable start stop unavailable = some port) :
    (start ≤ port ∧ port ≤ stop) ∧ port ∉ unavailable := by
  have hmem := List.mem_of_find?_eq_some h
  have hfree := List.find?_some h
  rw [List.mem_range'_1] at hmem
  refine ⟨by omega, by simpa using hfree⟩

/-! ## Sessions that only probed so far -/

/-- The contents look to the session as they are committed, up to probe rows. -/
def SameButProbes (seen db : Db) : Prop :=
  seen.hosts = db.hosts ∧ seen.allocations = db.allocations ∧
    seen.reservations = db.reservations ∧ seen.current = db.current

theorem sameButProbes_applyAll {writes : List Write} (h : ∀ write ∈ writes, write.IsProbe)
    (db : Db) : SameButProbes (store.applyAll writes db) db := by
  refine Store.applyAll_induction store (motive := fun seen => SameButProbes seen db)
    ⟨rfl, rfl, rfl, rfl⟩ ?_
  intro write hwrite contents hcontents
  have hprobe := h write hwrite
  cases write <;> first | exact hprobe.elim | exact hcontents

variable {rely : ServiceSession → Db → Prop} {guar : ServiceSession → Prop} {R : Db → Prop}
  {s : ServiceSession} {α β : Type}

/-- The session is resolving ports: its transaction holds probe rows only, and while
the transaction lasts the committed contents satisfy `R`. -/
structure Resolving (rely : ServiceSession → Db → Prop) (R : Db → Prop) (s : ServiceSession) :
    Prop where
  probing : ∀ write ∈ s.batch, write.IsProbe
  within : ∀ t db, t.held = s.held → t.journal = s.journal → rely t db → R db

theorem Resolving.view (hs : Resolving rely R s) (db : Db) :
    SameButProbes (s.view store db) db :=
  sameButProbes_applyAll (fun write hwrite => hs.probing write (List.mem_append_left _ hwrite)) db

/-- What a program returns, if it returns. -/
def Yields (rely : ServiceSession → Db → Prop) (guar : ServiceSession → Prop) (p : Service α)
    (s : ServiceSession) (result : α → Prop) : Prop :=
  p.Ensures store rely guar s fun _ outcome => ∀ value, outcome = .ok value → result value

/-- A program that probes only leaves its session resolving. -/
theorem ProbesOnly.resolving {p : Service α} (hp : ProbesOnly p) (hs : Resolving rely R s)
    {result : α → Prop} (h : Yields rely guar p s result) :
    p.Ensures store rely guar s fun s' outcome =>
      ∀ value, outcome = .ok value → result value ∧ Resolving rely R s' := by
  have hholding : p.Ensures store rely guar s _ := hp.holding.ensures
  refine ((h.and hholding).and (hp.adds.ensures hs.probing)).mono ?_
  rintro s' outcome ⟨⟨hresult, -, hsame⟩, hbatch⟩ value hvalue
  obtain ⟨hheld, hjournal⟩ := hsame value hvalue
  refine ⟨hresult value hvalue, hbatch, ?_⟩
  intro t db htheld htjournal
  exact hs.within t db (htheld.trans hheld) (htjournal.trans hjournal)

/-- Composition of programs that probe only. -/
theorem Yields.bind {p : Service α} {f : α → Service β} {M : α → Prop} {result : β → Prop}
    (hp : ProbesOnly p) (hs : Resolving rely R s) (h : Yields rely guar p s M)
    (hf : ∀ s' value, Resolving rely R s' → M value → Yields rely guar (f value) s' result) :
    Yields rely guar (p >>= f) s result := by
  refine Program.Ensures.bind (hp.resolving hs h) ?_ ?_
  · intro s' value hmid
    obtain ⟨hvalue, hs'⟩ := hmid value rfl
    exact hf s' value hs' hvalue
  · intro s' error _ value hvalue
    cases hvalue

theorem Yields.trivial (p : Service α) (hp : p.Holding) :
    Yields rely guar p s fun _ => True :=
  hp.ensures.mono fun _ _ _ _ _ => True.intro

theorem Yields.ret {value : α} {result : α → Prop} (h : result value) :
    Yields rely guar (pure value) s result := by
  rintro _ ⟨⟩
  exact h

theorem Yields.select {q : Db → α} {result : α → Prop}
    (h : ∀ db, rely s db → result (q (s.view store db))) :
    Yields rely guar (select q) s result := by
  intro db hdb value hvalue
  cases hvalue
  exact h db hdb

theorem Resolving.contents (hs : Resolving rely R s) {db : Db} (h : rely s db) : R db :=
  hs.within s db rfl rfl h

/-! ## The search -/

/-- Some contents within `R` do not show the port observed. -/
def Unobserved (R : Db → Prop) (hostId : Uuid) (port : ℕ) (protocol : Protocol) : Prop :=
  ∃ db, R db ∧ ¬ db.Observed hostId port protocol

/-- Some contents within `R` do not show the port reserved, as far as the listing of
reservations reaches. -/
def Unreserved (R : Db → Prop) (hostId : Uuid) (port : ℕ) (protocol : Protocol) : Prop :=
  ∃ db, R db ∧ (db.ListingComplete hostId → ¬ db.Reserved hostId port protocol)

/-- What a port granted to an entry satisfies. -/
structure Grantable (R : Db → Prop) (hostId : Uuid) (item : AllocationRequestItem)
    (claimed : Finset ℕ) (port : ℕ) : Prop where
  wanted : item.Wants port
  unclaimed : port ∉ claimed
  unobserved : Unobserved R hostId port item.protocol
  unreserved : Unreserved R hostId port item.protocol

/-- The preferred port check. -/
theorem yields_freePreferredPort (hs : Resolving rely R s) (hostId : Uuid)
    (item : AllocationRequestItem) (claimed : Finset ℕ) :
    Yields rely guar (freePreferredPort hostId item claimed) s fun found =>
      ∀ port, found = some port → Grantable R hostId item claimed port := by
  rw [freePreferredPort]
  split
  · exact Yields.ret (by simp)
  · rename_i port hpreferred
    refine Yields.bind (.of_observes (observes_portIsFree hostId port item.protocol claimed)) hs
      (M := fun free => free = true → Grantable R hostId item claimed port) ?_ ?_
    · rw [portIsFree]
      split
      · exact Yields.ret (by simp)
      · rename_i hclaimed
        refine Yields.bind (.of_observes observes_select) hs
          (M := fun current => ∃ db, R db ∧ current = db.listCurrentForHost hostId) ?_ ?_
        · refine Yields.select fun db hdb => ⟨db, hs.contents hdb, ?_⟩
          simp only [Db.listCurrentForHost, (hs.view db).2.2.2]
        · rintro s' current hs' ⟨db, hdb, rfl⟩
          split
          · exact Yields.ret (by simp)
          · rename_i hcurrent
            have hunobserved : Unobserved R hostId port item.protocol := by
              refine ⟨db, hdb, fun hobserved => hcurrent ?_⟩
              obtain ⟨row, hrow, hport, hprotocol⟩ := observed_iff.mp hobserved
              exact List.any_eq_true.mpr ⟨row, hrow, by simp [hport, hprotocol]⟩
            refine Yields.bind (.of_observes observes_select) hs'
              (M := fun rows => ∃ db, R db ∧ rows = db.listReservations hostId 10000) ?_ ?_
            · refine Yields.select fun db hdb => ⟨db, hs'.contents hdb, ?_⟩
              simp only [Db.listReservations, Db.hostReservations, (hs'.view db).2.2.1]
            · rintro s'' rows hs'' ⟨db', hdb', rfl⟩
              split
              · exact Yields.ret (by simp)
              · rename_i hrows
                have hunreserved : Unreserved R hostId port item.protocol := by
                  refine ⟨db', hdb', fun hcomplete hreserved => hrows ?_⟩
                  obtain ⟨row, hrow, hport, hprotocol⟩ := (reserved_iff hcomplete).mp hreserved
                  exact List.any_eq_true.mpr ⟨row, hrow, by simp [hport, hprotocol]⟩
                refine Yields.bind
                  (.of_observes (observes_getProbeEvidence hostId port item.protocol _)) hs''
                  (Yields.trivial _ (observes_getProbeEvidence _ _ _ _).holding) ?_
                intro _ evidence _ _
                exact Yields.ret fun _ =>
                  ⟨.inl hpreferred, hclaimed, hunobserved, hunreserved⟩
    · intro s' free _ hfree
      refine Yields.ret ?_
      intro found hfound
      cases free with
      | false => simp at hfound
      | true =>
          simp only [if_true, Option.some.injEq] at hfound
          rw [← hfound]
          exact hfree rfl

/-- The range search finds only ports that may be granted. -/
theorem yields_findAvailablePort (hs : Resolving rely R s) (hostId : Uuid)
    (item : AllocationRequestItem) (claimed excluded : Finset ℕ) :
    Yields rely guar
      (findAvailablePort hostId item.purpose item.protocol (claimed ∪ excluded) item.range) s
      fun result => ∀ port, result.port = some port → Grantable R hostId item claimed port := by
  rw [findAvailablePort]
  split
  · exact Yields.ret (by simp)
  · rename_i range hrange
    obtain ⟨start, stop⟩ := range
    refine Yields.bind (.of_observes observes_select) hs
      (M := fun current => ∃ db, R db ∧ current = db.listCurrentForHost hostId) ?_ ?_
    · refine Yields.select fun db hdb => ⟨db, hs.contents hdb, ?_⟩
      simp only [Db.listCurrentForHost, (hs.view db).2.2.2]
    · rintro s' current hs' ⟨db, hdb, rfl⟩
      refine Yields.bind (.of_observes observes_select) hs'
        (M := fun rows => ∃ db, R db ∧ rows = db.listReservations hostId 10000) ?_ ?_
      · refine Yields.select fun db hdb => ⟨db, hs'.contents hdb, ?_⟩
        simp only [Db.listReservations, Db.hostReservations, (hs'.view db).2.2.1]
      · rintro s'' rows hs'' ⟨db', hdb', rfl⟩
        refine Yields.ret ?_
        intro port hport
        obtain ⟨hbounds, hfree⟩ := of_firstAvailable hport
        simp only [Finset.mem_union, not_or] at hfree
        obtain ⟨⟨hoccupied, hreserved⟩, hclaimed, -⟩ := hfree
        refine ⟨.inr ⟨(start, stop), hrange, hbounds⟩, hclaimed, ⟨db, hdb, ?_⟩, db', hdb', ?_⟩
        · intro hobserved
          exact hoccupied (mem_occupiedPorts.mpr ⟨hbounds, observed_iff.mp hobserved⟩)
        · intro hcomplete hres
          exact hreserved (mem_reservedPorts.mpr ⟨hbounds, (reserved_iff hcomplete).mp hres⟩)

/-- Skipping occupied candidates keeps what the search found. -/
theorem yields_skipOccupied (env : Environment) (loaded : Option Host) (hostId : Uuid)
    (protocol : Protocol) {refine : Finset ℕ → Service CandidateSearchResult} {good : ℕ → Prop}
    (hprobes : ∀ exclude, ProbesOnly (refine exclude))
    (hrefine : ∀ exclude s', Resolving rely R s' →
      Yields rely guar (refine exclude) s' fun result => ∀ port, result.port = some port →
          good port)
    (hs : Resolving rely R s) (attempts : ℕ) (exclude : Finset ℕ) (result : CandidateSearchResult)
    (hresult : ∀ port, result.port = some port → good port) :
    Yields rely guar (skipOccupied env loaded hostId protocol refine attempts exclude result) s
      fun found => ∀ port, found.1.port = some port → good port := by
  induction attempts generalizing s exclude result with
  | zero => exact Yields.ret hresult
  | succ attempts ih =>
      rw [skipOccupied]
      split
      · exact Yields.ret hresult
      · rename_i port _
        refine Yields.bind (.of_observes (observes_getProbeEvidence hostId port protocol _)) hs
          (Yields.trivial _ (observes_getProbeEvidence _ _ _ _).holding) ?_
        intro s' evidence hs' _
        split
        · refine Yields.bind (hprobes _) hs' (hrefine _ s' hs') ?_
          intro s'' next hs'' hnext
          exact ih hs'' _ next hnext
        · exact Yields.ret hresult
        · refine Yields.bind (probesOnly_queueProbe env loaded hostId port protocol _) hs'
            (Yields.trivial _ (probesOnly_queueProbe _ _ _ _ _ _).holding) ?_
          intro s'' _ _ _
          exact Yields.ret hresult

/-- One entry's candidate. -/
theorem yields_resolveCandidate (env : Environment) (host : Host) (hs : Resolving rely R s)
    (hostId : Uuid) (item : AllocationRequestItem) (claimed : Finset ℕ) :
    Yields rely guar (resolveCandidate env host hostId item claimed) s fun found =>
      ∀ port, found.1 = some port → Grantable R hostId item claimed port := by
  refine Yields.bind (.of_observes (observes_freePreferredPort hostId item claimed)) hs
    (yields_freePreferredPort hs hostId item claimed) ?_
  intro s' preferred hs' hpreferred
  cases preferred with
  | some port =>
      have hport := hpreferred port rfl
      have hgood : ∀ found, some port = some found → Grantable R hostId item claimed found := by
        rintro _ ⟨⟩
        exact hport
      refine Yields.bind (.of_observes (observes_getProbeEvidence hostId port item.protocol _)) hs'
        (Yields.trivial _ (observes_getProbeEvidence _ _ _ _).holding) ?_
      intro s'' evidence hs'' _
      split
      · exact Yields.ret hgood
      · split
        · refine Yields.bind (probesOnly_queueProbe env _ hostId port item.protocol _) hs''
            (Yields.trivial _ (probesOnly_queueProbe _ _ _ _ _ _).holding) ?_
          intro _ _ _ _
          exact Yields.ret hgood
        · exact Yields.ret hgood
  | none =>
      have hsearch := fun exclude t (ht : Resolving rely R t) =>
        (yields_findAvailablePort ht hostId item claimed exclude :
          Yields rely guar _ t _)
      refine Yields.bind (.of_observes (observes_findAvailablePort _ _ _ _ _)) hs'
        (M := fun result =>
          ∀ port, result.port = some port → Grantable R hostId item claimed port) ?_ ?_
      · simpa using hsearch ∅ s' hs'
      · intro s'' initial hs'' hinitial
        refine Yields.bind ?_ hs''
          (M := fun found =>
            ∀ port, found.1.port = some port → Grantable R hostId item claimed port) ?_ ?_
        · exact probesOnly_skipOccupied env _ hostId item.protocol
            (fun exclude => .of_observes (observes_findAvailablePort _ _ _ _ _)) _ _ initial
        · exact yields_skipOccupied env _ hostId item.protocol
            (fun exclude => .of_observes (observes_findAvailablePort _ _ _ _ _)) hsearch hs'' _ _
            initial hinitial
        · intro _ found _ hfound
          exact Yields.ret hfound

/-- The whole bundle's ports. -/
structure Resolved (R : Db → Prop) (hostId : Uuid) (items : List AllocationRequestItem)
    (claimed : Finset ℕ) (resolved : List (AllocationRequestItem × ℕ)) : Prop where
  names : resolved.map Prod.fst = items
  nodup : (resolved.map Prod.snd).Nodup
  grantable : ∀ entry ∈ resolved, Grantable R hostId entry.1 claimed entry.2

theorem Grantable.mono {hostId : Uuid} {item : AllocationRequestItem} {claimed larger : Finset ℕ}
    {port : ℕ} (h : Grantable R hostId item larger port) (hsub : claimed ⊆ larger) :
    Grantable R hostId item claimed port :=
  { h with unclaimed := fun hmem => h.unclaimed (hsub hmem) }

theorem yields_resolveAll (env : Environment) (host : Host) (hs : Resolving rely R s)
    (hostId : Uuid) (items : List AllocationRequestItem) (claimed : Finset ℕ) :
    Yields rely guar (resolveAll env host hostId items claimed) s fun found =>
      Resolved R hostId items claimed found.1 := by
  induction items generalizing s claimed with
  | nil => exact Yields.ret ⟨rfl, List.nodup_nil, by simp⟩
  | cons item items ih =>
      rw [resolveAll]
      refine Yields.bind (probesOnly_resolveCandidate env host hostId item claimed) hs
        (yields_resolveCandidate env host hs hostId item claimed) ?_
      rintro s' ⟨port, itemBindProbe⟩ hs' hport
      cases port with
      | none =>
          intro value hvalue
          cases hvalue
      | some port =>
          refine Yields.bind (probesOnly_resolveAll env host hostId items _) hs'
            (ih hs' (insert port claimed)) ?_
          rintro s'' ⟨resolved, bindProbe⟩ _ hrest
          refine Yields.ret ⟨?_, ?_, ?_⟩
          · simpa using hrest.names
          · refine List.nodup_cons.mpr ⟨?_, hrest.nodup⟩
            intro hmem
            obtain ⟨entry, hentry, rfl⟩ := List.mem_map.mp hmem
            exact (hrest.grantable entry hentry).unclaimed (Finset.mem_insert_self _ _)
          · intro entry hentry
            rcases List.mem_cons.mp hentry with rfl | hlater
            · exact hport port rfl
            · exact (hrest.grantable entry hlater).mono (Finset.subset_insert _ _)

end Central
