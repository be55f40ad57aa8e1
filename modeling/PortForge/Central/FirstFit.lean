/-
# First fit

The resolution loop gives the requests of a bundle their ports one after the other, in
the order of the payload: a request gets its preferred port if that is open, else the
lowest open port of its range, and a port once given is closed to the later requests.
`FirstFit` says so of the ports that were handed out. No choice is ever taken back, so
a request can be left without a port although the bundle has an assignment, and the
same requests in another order can succeed: `createAllocation_unavailable` says what a
refusal does mean.
-/

import PortForge.Central.BundleInsertion
import PortForge.Central.OccupiedPorts
import Mathlib.Data.Finset.Card

namespace Central

open Transaction

/-! ## Assignments -/

/-- A port a request may be given: it asks for it, and nothing observed or reserved is
in the way. -/
def Db.Offers (db : Db) (hostId : Uuid) (item : AllocationRequestItem) (port : ℕ) : Prop :=
  item.Wants port ∧ ¬ db.Observed hostId port item.protocol ∧
    ¬ db.Reserved hostId port item.protocol

/-- Pairwise distinct ports, each of them offered to its request. -/
def Db.Assigns (db : Db) (hostId : Uuid) (items : List AllocationRequestItem)
    (ports : List ℕ) : Prop :=
  ports.Nodup ∧ List.Forall₂ (db.Offers hostId) items ports

/-- A port that is offered and was not given to an earlier request. -/
def Db.OpenTo (db : Db) (hostId : Uuid) (claimed : Finset ℕ) (item : AllocationRequestItem)
    (port : ℕ) : Prop :=
  db.Offers hostId item port ∧ port ∉ claimed

/-- The port first fit gives a request: its preferred one if that is open, else the
lowest open one. -/
structure Db.FirstFor (db : Db) (hostId : Uuid) (claimed : Finset ℕ)
    (item : AllocationRequestItem) (port : ℕ) : Prop where
  isOpen : db.OpenTo hostId claimed item port
  first : item.preferredPort = some port ∨
    (∀ preferred ∈ item.preferredPort, ¬ db.OpenTo hostId claimed item preferred) ∧
      ∀ other, db.OpenTo hostId claimed item other → port ≤ other

/-- The requests got the ports first fit gives them, in this order. -/
def Db.FirstFit (db : Db) (hostId : Uuid) :
    Finset ℕ → List (AllocationRequestItem × ℕ) → Prop
  | _, [] => True
  | claimed, (item, port) :: resolved =>
      db.FirstFor hostId claimed item port ∧ db.FirstFit hostId (insert port claimed) resolved

/-- First fit leaves a request without a port: whatever it is offered is claimed, or was
given to a request before it. -/
def Db.ShortFor (db : Db) (hostId : Uuid) (claimed : Finset ℕ)
    (items : List AllocationRequestItem) (item : AllocationRequestItem) : Prop :=
  ∃ resolved rest, items = resolved.map Prod.fst ++ item :: rest ∧
    db.FirstFit hostId claimed resolved ∧
    ∀ port, db.Offers hostId item port → port ∈ claimed ∨ port ∈ resolved.map Prod.snd

section Abstract

variable {db : Db} {hostId : Uuid} {claimed : Finset ℕ} {item : AllocationRequestItem} {port : ℕ}

/-- A request first fit gives nothing to has no open port. -/
theorem Db.ShortFor.of_not_open {rest : List AllocationRequestItem}
    (h : ∀ port, ¬ db.OpenTo hostId claimed item port) :
    db.ShortFor hostId claimed (item :: rest) item := by
  refine ⟨[], rest, rfl, trivial, fun port hport => .inl ?_⟩
  by_contra hunclaimed
  exact h port ⟨hport, hunclaimed⟩

/-- One more request in front. -/
theorem Db.ShortFor.cons {first : AllocationRequestItem} {items : List AllocationRequestItem}
    (hfirst : db.FirstFor hostId claimed first port)
    (h : db.ShortFor hostId (insert port claimed) items item) :
    db.ShortFor hostId claimed (first :: items) item := by
  obtain ⟨resolved, rest, rfl, hresolved, hports⟩ := h
  refine ⟨(first, port) :: resolved, rest, rfl, ⟨hfirst, hresolved⟩, fun other hother => ?_⟩
  rcases hports other hother with hclaimed | hgiven
  · rcases Finset.mem_insert.mp hclaimed with rfl | hearlier
    · exact .inr List.mem_cons_self
    · exact .inl hearlier
  · exact .inr (List.mem_cons_of_mem _ hgiven)

/-- With room for every request first fit never gets stuck, whatever the order: no
request is short that is offered as many ports as the bundle has requests. -/
theorem Db.ShortFor.card_lt {items : List AllocationRequestItem}
    (h : db.ShortFor hostId ∅ items item) {ports : Finset ℕ}
    (hports : ∀ port ∈ ports, db.Offers hostId item port) : ports.card < items.length := by
  obtain ⟨resolved, rest, rfl, -, hgiven⟩ := h
  have hsubset : ports ⊆ (resolved.map Prod.snd).toFinset := by
    intro port hport
    rw [List.mem_toFinset]
    exact (hgiven port (hports port hport)).resolve_left (Finset.notMem_empty port)
  have hcard := (Finset.card_le_card hsubset).trans (List.toFinset_card_le _)
  rw [List.length_map] at hcard
  rw [List.length_append, List.length_map, List.length_cons]
  omega

end Abstract

/-! ## Candidates -/

section Candidates

variable {db : Db} {hostId : Uuid} {claimed : Finset ℕ} {item : AllocationRequestItem} {port : ℕ}

/-- The candidates of a request are the open ports of its range. -/
theorem mem_candidates (hcomplete : db.ListingComplete hostId) :
    port ∈ db.candidates hostId item.protocol claimed item.searchedRange ↔
      (∃ range ∈ item.searchedRange, range.1 ≤ port ∧ port ≤ range.2) ∧
        ¬ db.Observed hostId port item.protocol ∧ ¬ db.Reserved hostId port item.protocol ∧
        port ∉ claimed := by
  cases item.searchedRange with
  | none => simp [Db.candidates]
  | some range =>
      simp only [Db.candidates, Option.map_some, Option.getD_some, Db.freeInRange, List.mem_filter,
        List.mem_range'_1, decide_eq_true_eq, Finset.mem_union, not_or, mem_occupiedPorts,
        mem_reservedPorts, ← observed_iff, ← reserved_iff hcomplete, Option.mem_some_iff,
        exists_eq_left']
      constructor
      · rintro ⟨hbounds, ⟨hobserved, hreserved⟩, hclaimed⟩
        have hrange : range.1 ≤ port ∧ port ≤ range.2 := by omega
        exact ⟨hrange, fun h => hobserved ⟨hrange, h⟩, fun h => hreserved ⟨hrange, h⟩, hclaimed⟩
      · rintro ⟨hrange, hobserved, hreserved, hclaimed⟩
        exact ⟨by omega, ⟨fun h => hobserved h.2, fun h => hreserved h.2⟩, hclaimed⟩

/-- The candidates come in ascending order. -/
theorem pairwise_candidates (db : Db) (hostId : Uuid) (protocol : Protocol) (exclude : Finset ℕ)
    (range : Option (ℕ × ℕ)) :
    (db.candidates hostId protocol exclude range).Pairwise (· < ·) := by
  cases range with
  | none => exact .nil
  | some range =>
      have hrange : (List.range' range.1 (range.2 + 1 - range.1)).Pairwise (· < ·) :=
        List.pairwise_lt_range'
      exact hrange.filter _

/-- Where the preferred port is not open, the open ports are the candidates. -/
theorem open_iff_mem_candidates (hcomplete : db.ListingComplete hostId)
    (hpreferred : ∀ preferred ∈ item.preferredPort, ¬ db.OpenTo hostId claimed item preferred) :
    db.OpenTo hostId claimed item port ↔
      port ∈ db.candidates hostId item.protocol claimed item.searchedRange := by
  rw [mem_candidates hcomplete]
  constructor
  · intro hopen
    obtain ⟨⟨hwants, hobserved, hreserved⟩, hclaimed⟩ := id hopen
    rcases hwants with hpref | hrange
    · exact (hpreferred port hpref hopen).elim
    · exact ⟨hrange, hobserved, hreserved, hclaimed⟩
  · rintro ⟨hrange, hobserved, hreserved, hclaimed⟩
    exact ⟨⟨.inr hrange, hobserved, hreserved⟩, hclaimed⟩

/-- The first candidate is what first fit gives. -/
theorem firstFor_of_candidates (hcomplete : db.ListingComplete hostId)
    (hpreferred : ∀ preferred ∈ item.preferredPort, ¬ db.OpenTo hostId claimed item preferred)
    (hhead : (db.candidates hostId item.protocol claimed item.searchedRange).head? = some port) :
    db.FirstFor hostId claimed item port := by
  obtain ⟨others, hcandidates⟩ := List.head?_eq_some_iff.mp hhead
  have hsorted := pairwise_candidates db hostId item.protocol claimed item.searchedRange
  rw [hcandidates, List.pairwise_cons] at hsorted
  refine ⟨?_, .inr ⟨hpreferred, fun other hother => ?_⟩⟩
  · rw [open_iff_mem_candidates hcomplete hpreferred, hcandidates]
    exact List.mem_cons_self
  · rw [open_iff_mem_candidates hcomplete hpreferred, hcandidates] at hother
    rcases List.mem_cons.mp hother with rfl | hlater
    · exact le_rfl
    · exact (hsorted.1 other hlater).le

end Candidates

/-! ## The search without evidence -/

/-- No probe of the host's agent ever counts as evidence that a port is occupied. -/
def Db.NoOccupationKnown (db : Db) (hostId : Uuid) : Prop :=
  ∀ protocol now port, ¬ db.KnownOccupied hostId protocol now port

section Search

variable {db : Db} {hostId : Uuid} {claimed : Finset ℕ} {s : ServiceSession} {α β : Type}

theorem raises_select {P : Failure → Prop} {q : Db → α} : (select q).Raises P := fun _ => trivial

/-- Queueing a probe fails only where the database refuses it. -/
theorem raises_queueProbe {P : Failure → Prop} (hdb : ∀ error, P (.db error)) (env : Environment)
    (loaded : Option Host) (port : ℕ) (protocol : Protocol) :
    (queueProbe env loaded hostId port protocol).Raises P := by
  intro drawn
  have hqueue : (queueForHealthy env hostId port protocol defaultBindAddress drawn.now).Raises
      P := by
    apply Program.Raises.bind raises_select
    intro existing
    split
    · trivial
    · apply Program.Raises.bind raises_select
      intro active
      split
      · trivial
      · rintro id createdAt (_ | error)
        · trivial
        · exact hdb error
  apply Program.Raises.bind (p := findHost loaded hostId)
  · cases loaded with
    | none => exact raises_select
    | some host => trivial
  · intro host
    cases host with
    | none => trivial
    | some host =>
        simp only
        split
        · trivial
        · exact hqueue

/-- What a program returns, if it returns; its session goes on searching, and its failures
are not for want of ports. -/
def Searches (db : Db) (hostId : Uuid) (p : Service α) (s : ServiceSession)
    (result : α → Finset ℕ → Prop) : Prop :=
  p.Ensures store (Program.alone store db) (fun _ => True) s fun s' outcome =>
    (∀ value, outcome = .ok value →
      ∃ claimed, result value claimed ∧ Searching hostId claimed s') ∧
      ∀ failure, outcome = .error failure → ¬ failure.Unavailable

theorem Searches.bind {p : Service α} {f : α → Service β} {M : α → Finset ℕ → Prop}
    {result : β → Finset ℕ → Prop} (h : Searches db hostId p s M)
    (hf : ∀ s' value claimed, M value claimed → Searching hostId claimed s' →
      Searches db hostId (f value) s' result) : Searches db hostId (p >>= f) s result := by
  apply Program.Ensures.bind h
  · intro s' value hvalue
    obtain ⟨claimed, hmid, hs'⟩ := hvalue.1 value rfl
    exact hf s' value claimed hmid hs'
  · intro s' failure hfailure
    constructor
    · intro value hvalue
      cases hvalue
    · intro other hother
      cases hother
      exact hfailure.2 failure rfl

theorem Searches.ret {value : α} {result : α → Finset ℕ → Prop} (h : result value claimed)
    (hs : Searching hostId claimed s) : Searches db hostId (pure value) s result := by
  constructor
  · rintro _ ⟨⟩
    exact ⟨claimed, h, hs⟩
  · intro failure hfailure
    cases hfailure

/-- A query that does not look at probes answers from the starting contents. -/
theorem searches_select (hs : Searching hostId claimed s) {q : Db → α}
    (hq : ∀ queued, q { db with probes := db.probes ++ queued } = q db) :
    Searches db hostId (select q) s fun value after => value = q db ∧ after = claimed := by
  intro contents hcontents
  obtain ⟨queued, hview, -⟩ := hs.view hcontents
  exact Searches.ret ⟨by rw [hview, hq], rfl⟩ hs

/-- No unclaimed port is known to be occupied. -/
theorem searches_getProbeEvidence (hquiet : db.NoOccupationKnown hostId)
    (hs : Searching hostId claimed s) {port : ℕ} (protocol : Protocol) (hport : port ∉ claimed) :
    Searches db hostId (getProbeEvidence hostId port protocol) s fun evidence after =>
      evidence.bindProbe ≠ .verifiedOccupied ∧ after = claimed := by
  intro contents hcontents
  obtain ⟨queued, hview, hqueued⟩ := hs.view hcontents
  constructor
  · rintro evidence ⟨⟩
    refine ⟨claimed, ⟨?_, rfl⟩, hs.journal, hs.queued⟩
    simp only [hview, findLatestForBinding_append hqueued hport]
    exact hquiet protocol (s.draws 0).now port
  · intro failure hfailure
    cases hfailure

/-- The range search finds the first candidate. -/
theorem searches_findAvailablePort (hs : Searching hostId claimed s) (serviceType : String)
    (protocol : Protocol) (exclude : Finset ℕ) (range : Option (ℕ × ℕ)) :
    Searches db hostId (findAvailablePort hostId serviceType protocol exclude range) s
      fun result after =>
        result.port = (db.candidates hostId protocol exclude
          (range <|> defaultRange serviceType)).head? ∧ after = claimed := by
  rw [findAvailablePort]
  cases hrange : range <|> defaultRange serviceType with
  | none => exact Searches.ret ⟨rfl, rfl⟩ hs
  | some bounds =>
      apply Searches.bind (searches_select hs fun _ => rfl)
      rintro s₁ _ _ ⟨rfl, rfl⟩ hs₁
      apply Searches.bind (searches_select hs₁ fun _ => rfl)
      rintro s₂ _ _ ⟨rfl, rfl⟩ hs₂
      refine Searches.ret ⟨?_, rfl⟩ hs₂
      simp only [Db.candidates, Option.map_some, Option.getD_some, head?_freeInRange]

theorem searches_queueProbe (env : Environment) (loaded : Option Host)
    (hs : Searching hostId claimed s) (port : ℕ) (protocol : Protocol) :
    Searches db hostId (queueProbe env loaded hostId port protocol) s
      fun _ after => after = insert port claimed := by
  have hraises : (queueProbe env loaded hostId port protocol).Ensures store
      (Program.alone store db) (fun _ => True) s _ :=
    (raises_queueProbe (P := fun failure => ¬ failure.Unavailable) not_unavailable_db env loaded port
      protocol).ensures
  apply ((searching_queueProbe env loaded hs port protocol).and hraises).mono
  rintro s' outcome ⟨hsearching, hfailure⟩
  exact ⟨fun _ _ => ⟨insert port claimed, rfl, hsearching⟩, hfailure⟩

/-- Without evidence the loop keeps the candidate it is given. -/
theorem searches_skipOccupied (hquiet : db.NoOccupationKnown hostId) (env : Environment)
    (loaded : Option Host) (protocol : Protocol)
    (refine : Finset ℕ → Service CandidateSearchResult) (hs : Searching hostId claimed s)
    (attempts : ℕ) (exclude : Finset ℕ) (result : CandidateSearchResult)
    (hunclaimed : ∀ port, result.port = some port → port ∉ claimed) :
    Searches db hostId (skipOccupied env loaded hostId protocol refine attempts exclude result) s
      fun found after =>
        found.1.port = result.port ∧
          ∀ port, found.1.port = some port → after ⊆ insert port claimed := by
  have hkept : ∀ bindProbe : BindProbe, Searches db hostId (pure (result, bindProbe)) s
      fun found after => found.1.port = result.port ∧
        ∀ port, found.1.port = some port → after ⊆ insert port claimed :=
    fun bindProbe => Searches.ret ⟨rfl, fun port _ => Finset.subset_insert port claimed⟩ hs
  cases attempts with
  | zero => exact hkept _
  | succ attempts =>
      rw [skipOccupied]
      split
      · exact hkept _
      · rename_i port hport
        apply Searches.bind (searches_getProbeEvidence hquiet hs protocol (hunclaimed port hport))
        rintro s' evidence _ ⟨hevidence, rfl⟩ hs'
        split
        · rename_i hoccupied
          exact (hevidence hoccupied).elim
        · exact Searches.ret ⟨rfl, fun port _ => Finset.subset_insert port _⟩ hs'
        · apply Searches.bind (searches_queueProbe env loaded hs' port protocol)
          rintro s'' _ _ rfl hs''
          refine Searches.ret ⟨rfl, fun other hother => ?_⟩ hs''
          have hsame : port = other := Option.some_inj.mp (hport.symm.trans hother)
          rw [hsame]

/-- The preferred port is kept exactly if it is open. -/
theorem searches_freePreferredPort (hcomplete : db.ListingComplete hostId)
    (hquiet : db.NoOccupationKnown hostId) (hs : Searching hostId claimed s)
    (item : AllocationRequestItem) :
    Searches db hostId (freePreferredPort hostId item claimed) s fun found after =>
      ((∀ port, found = some port →
          item.preferredPort = some port ∧ db.OpenTo hostId claimed item port) ∧
        (found = none →
          ∀ preferred ∈ item.preferredPort, ¬ db.OpenTo hostId claimed item preferred)) ∧
        after = claimed := by
  rw [freePreferredPort]
  cases hpreferred : item.preferredPort with
  | none => exact Searches.ret ⟨⟨by simp, by simp⟩, rfl⟩ hs
  | some port =>
      have hfree : Searches db hostId (portIsFree hostId port item.protocol claimed) s
          fun free after =>
            (free = true ↔ db.OpenTo hostId claimed item port) ∧ after = claimed := by
        rw [portIsFree]
        split
        · rename_i hclaimed
          exact Searches.ret ⟨by simp [Db.OpenTo, hclaimed], rfl⟩ hs
        · rename_i hclaimed
          apply Searches.bind (searches_select hs fun _ => rfl)
          rintro s₁ _ _ ⟨rfl, rfl⟩ hs₁
          split
          · rename_i hcurrent
            have hobserved : db.Observed hostId port item.protocol := by
              simpa [observed_iff] using hcurrent
            exact Searches.ret ⟨by simp [Db.OpenTo, Db.Offers, hobserved], rfl⟩ hs₁
          · rename_i hcurrent
            have hobserved : ¬ db.Observed hostId port item.protocol := by
              simpa [observed_iff] using hcurrent
            apply Searches.bind (searches_select hs₁ fun _ => rfl)
            rintro s₂ _ _ ⟨rfl, rfl⟩ hs₂
            split
            · rename_i hrows
              have hreserved : db.Reserved hostId port item.protocol := by
                simpa [reserved_iff hcomplete] using hrows
              exact Searches.ret ⟨by simp [Db.OpenTo, Db.Offers, hreserved], rfl⟩ hs₂
            · rename_i hrows
              have hreserved : ¬ db.Reserved hostId port item.protocol := by
                simpa [reserved_iff hcomplete] using hrows
              apply Searches.bind (searches_getProbeEvidence hquiet hs₂ item.protocol hclaimed)
              rintro s₃ evidence claimed ⟨hevidence, rfl⟩ hs₃
              have hopen : db.OpenTo hostId claimed item port :=
                ⟨⟨.inl hpreferred, hobserved, hreserved⟩, hclaimed⟩
              exact Searches.ret ⟨by simp [hevidence, hopen], rfl⟩ hs₃
      apply Searches.bind hfree
      rintro s' free _ ⟨hopen, rfl⟩ hs'
      refine Searches.ret ⟨?_, rfl⟩ hs'
      cases free with
      | false => simpa using hopen
      | true => simpa using hopen

/-- One request's port: what first fit gives it. -/
theorem searches_resolveCandidate (hcomplete : db.ListingComplete hostId)
    (hquiet : db.NoOccupationKnown hostId) (env : Environment) (host : Host)
    (hs : Searching hostId claimed s) (item : AllocationRequestItem) :
    Searches db hostId (resolveCandidate env host hostId item claimed) s fun found after =>
      (∀ port, found.1 = some port →
          db.FirstFor hostId claimed item port ∧ after ⊆ insert port claimed) ∧
        (found.1 = none → ∀ port, ¬ db.OpenTo hostId claimed item port) := by
  apply Searches.bind (searches_freePreferredPort hcomplete hquiet hs item)
  rintro s' preferred claimed ⟨⟨hkept, hgone⟩, rfl⟩ hs'
  cases preferred with
  | some port =>
      obtain ⟨hpreferred, hopen⟩ := hkept port rfl
      have hfirst : db.FirstFor hostId claimed item port := ⟨hopen, .inl hpreferred⟩
      have hreturn : ∀ after bindProbe s'', after ⊆ insert port claimed →
          Searching hostId after s'' → Searches db hostId (pure (some port, bindProbe)) s''
            fun (found : Option ℕ × BindProbe) after =>
              (∀ port, found.1 = some port →
                db.FirstFor hostId claimed item port ∧ after ⊆ insert port claimed) ∧
                (found.1 = none → ∀ port, ¬ db.OpenTo hostId claimed item port) := by
        intro after bindProbe s'' hafter hs''
        refine Searches.ret ⟨?_, ?_⟩ hs''
        · rintro _ ⟨⟩
          exact ⟨hfirst, hafter⟩
        · rintro ⟨⟩
      apply Searches.bind (searches_getProbeEvidence hquiet hs' item.protocol hopen.2)
      rintro s'' evidence claimed ⟨-, rfl⟩ hs''
      split
      · exact hreturn _ _ _ (Finset.subset_insert port _) hs''
      · split
        · apply Searches.bind (searches_queueProbe env _ hs'' port item.protocol)
          rintro _ _ _ rfl hqueued
          exact hreturn _ _ _ subset_rfl hqueued
        · exact hreturn _ _ _ (Finset.subset_insert port _) hs''
  | none =>
      have hpreferred := hgone rfl
      apply Searches.bind
        (searches_findAvailablePort hs' item.purpose item.protocol claimed item.range)
      rintro s'' initial claimed ⟨hinitial, rfl⟩ hs''
      have hfirst : ∀ port, initial.port = some port → db.FirstFor hostId claimed item port :=
        fun port hport => firstFor_of_candidates hcomplete hpreferred (hinitial.symm.trans hport)
      apply Searches.bind (searches_skipOccupied hquiet env (some host) item.protocol
        (fun exclude => findAvailablePort hostId item.purpose item.protocol (claimed ∪ exclude)
          item.range) hs'' maxProbeSkipAttempts ∅ initial
        fun port hport => (hfirst port hport).isOpen.2)
      rintro _ ⟨found, bindProbe⟩ after ⟨hfound, hafter⟩ hlast
      refine Searches.ret ⟨fun port hport => ?_, fun hnone port hopen => ?_⟩ hlast
      · exact ⟨hfirst port (hfound.symm.trans hport), hafter port hport⟩
      · rw [open_iff_mem_candidates hcomplete hpreferred] at hopen
        have hempty := List.head?_eq_none_iff.mp (hinitial.symm.trans (hfound.symm.trans hnone))
        rw [AllocationRequestItem.searchedRange, hempty] at hopen
        cases hopen

/-- The whole bundle: first fit, and a refusal names a request that first fit leaves
without a port. -/
theorem searches_resolveAll (hcomplete : db.ListingComplete hostId)
    (hquiet : db.NoOccupationKnown hostId) (env : Environment) (host : Host)
    (hs : Searching hostId claimed s) (items : List AllocationRequestItem) :
    (resolveAll env host hostId items claimed).Ensures store (Program.alone store db)
      (fun _ => True) s fun _ outcome =>
        (∀ found, outcome = .ok found →
          db.FirstFit hostId claimed found.1 ∧ found.1.map Prod.fst = items) ∧
        ∀ failure, outcome = .error failure → failure.Unavailable →
          ∃ item, failure = .allocation (allocationUnavailable item) ∧
            db.ShortFor hostId claimed items item := by
  induction items generalizing s claimed with
  | nil =>
      constructor
      · rintro _ ⟨⟩
        exact ⟨trivial, rfl⟩
      · rintro _ ⟨⟩
  | cons item items ih =>
      rw [resolveAll]
      apply Program.Ensures.bind (searches_resolveCandidate hcomplete hquiet env host hs item)
      · rintro s' ⟨port, itemBindProbe⟩ hfound
        obtain ⟨after, ⟨hgiven, hnone⟩, hs'⟩ := hfound.1 _ rfl
        cases port with
        | none =>
            constructor
            · rintro _ ⟨⟩
            · rintro _ ⟨⟩ -
              exact ⟨item, rfl, .of_not_open (hnone rfl)⟩
        | some port =>
            obtain ⟨hfirst, hafter⟩ := hgiven port rfl
            have hlater : Searching hostId (insert port claimed) s' := by
              refine ⟨hs'.journal, fun write hwrite => ?_⟩
              obtain ⟨probe, rfl, hprobe⟩ := hs'.queued write hwrite
              exact ⟨probe, rfl, fun hhost => hafter (hprobe hhost)⟩
            apply Program.Ensures.bind (ih hlater)
            · rintro s'' ⟨resolved, bindProbe⟩ hrest
              obtain ⟨hfit, hnames⟩ := hrest.1 _ rfl
              constructor
              · rintro _ ⟨⟩
                exact ⟨⟨hfirst, hfit⟩, congrArg (item :: ·) hnames⟩
              · rintro _ ⟨⟩
            · rintro s'' failure hrest
              constructor
              · rintro _ ⟨⟩
              · rintro _ ⟨⟩ hunavailable
                obtain ⟨short, rfl, hshort⟩ := hrest.2 _ rfl hunavailable
                exact ⟨short, rfl, hshort.cons hfirst⟩
      · rintro s' failure hfailure
        constructor
        · rintro _ ⟨⟩
        · rintro _ ⟨⟩ hunavailable
          exact (hfailure.2 _ rfl hunavailable).elim

end Search

/-! ## Why an allocation finds no ports -/

/-- What an `ALLOCATION_UNAVAILABLE` of a call on `db` means: first fit leaves the
request it names without a port, or first fit found a port for every request and the
session that began the call was in for trouble with its database. -/
def Db.Unallocatable (db : Db) (payload : AllocationIn) (start : ServiceSession)
    (error : AllocationError) : Prop :=
  (∃ item, error = allocationUnavailable item ∧
    db.ShortFor payload.hostId ∅ payload.requests item) ∨
  (error = candidatesClaimed ∧ ¬ Untroubled db start ∧
    ∃ resolved, db.FirstFit payload.hostId ∅ resolved ∧
      resolved.map Prod.fst = payload.requests)

section Refusals

variable {env : Environment} {payload : AllocationIn} {db : Db} {start s : ServiceSession}
  {claimed : Finset ℕ} {α β : Type}

/-- The program fails for want of ports only where it says why. -/
def Explains (db : Db) (payload : AllocationIn) (start : ServiceSession) (p : Service α)
    (s : ServiceSession) : Prop :=
  p.Ensures store (Program.alone store db) (fun _ => True) s fun _ outcome =>
    ∀ failure, outcome = .error failure → failure.Unavailable →
      ∃ error, failure = .allocation error ∧ db.Unallocatable payload start error

theorem Explains.of_raises {p : Service α} (h : p.Raises fun failure => ¬ failure.Unavailable) :
    Explains db payload start p s := by
  have hraises : p.Ensures store (Program.alone store db) (fun _ => True) s _ := h.ensures
  apply hraises.mono
  intro s' outcome hfailure failure houtcome hunavailable
  exact (hfailure failure houtcome hunavailable).elim

theorem Explains.bind {p : Service α} {f : α → Service β} {M : α → Finset ℕ → Prop}
    (htrouble : Untroubled db start → Untroubled db s) (h : Searches db payload.hostId p s M)
    (hf : ∀ s' value claimed, (Untroubled db start → Untroubled db s') → M value claimed →
      Searching payload.hostId claimed s' → Explains db payload start (f value) s') :
    Explains db payload start (p >>= f) s := by
  apply Program.Ensures.bind (h.and (ensures_untroubled htrouble p))
  · rintro s' value ⟨hvalue, htrouble'⟩
    obtain ⟨claimed, hmid, hs'⟩ := hvalue.1 value rfl
    exact hf s' value claimed htrouble' hmid hs'
  · rintro s' failure ⟨hfailure, -⟩ _ ⟨⟩ hunavailable
    exact (hfailure.2 failure rfl hunavailable).elim

/-- An observer leaves its session searching. -/
theorem searches_of_observes {p : Service α} (hobserves : p.Observes)
    (hraises : p.Raises fun failure => ¬ failure.Unavailable)
    (hs : Searching payload.hostId claimed s) :
    Searches db payload.hostId p s fun _ after => after = claimed := by
  have hsession : p.Ensures store (Program.alone store db) (fun _ => True) s _ := hobserves.ensures
  apply (hsession.and hraises.ensures).mono
  rintro s' outcome ⟨⟨draws, rfl⟩, hfailure⟩
  exact ⟨fun _ _ => ⟨claimed, rfl, hs.journal, hs.queued⟩, hfailure⟩

theorem raises_refreshHost (hostId : Uuid) :
    (refreshHost hostId).Raises fun failure => ¬ failure.Unavailable := by
  apply Program.Raises.bind raises_select
  intro row
  cases row with
  | none => rintro ⟨_, ⟨⟩, _⟩
  | some host => trivial

/-- The refusals of a host have codes of their own. -/
theorem raises_ensureHostAllocatable (env : Environment) (host : Host) :
    (ensureHostAllocatable env host).Raises fun failure => ¬ failure.Unavailable := by
  rw [ensureHostAllocatable]
  split
  · rintro ⟨_, ⟨⟩, ⟨⟩⟩
  · intro drawn
    show Program.Raises _ (if _ then _ else _)
    split
    · rintro ⟨_, ⟨⟩, hcode⟩
      simp only [hostUnhealthy] at hcode
      split at hcode <;> cases hcode
    · trivial

theorem raises_validatePurposes (requests : List AllocationRequestItem) :
    (validatePurposes requests).Raises fun failure => ¬ failure.Unavailable := by
  simp only [validatePurposes]
  split
  · rintro ⟨_, ⟨⟩, ⟨⟩⟩
  · trivial

/-- The handler turns an integrity error into a refusal of the whole bundle. -/
theorem raises_guardedBundle (payload : AllocationIn) (allocationId : Uuid)
    (resolved : List (AllocationRequestItem × ℕ)) :
    ((insertBundle payload allocationId resolved).tryCatch refuseClaimed).Raises
      fun failure => failure.Unavailable → failure = .allocation candidatesClaimed := by
  apply (raises_insertBundle payload allocationId resolved).tryCatch
  intro failure hfailure
  rw [refuseClaimed]
  split
  · exact fun _ => rfl
  · exact fun hunavailable => (hfailure hunavailable).elim

theorem raises_finishBundle (env : Environment) (allocationId : Uuid) (bindProbe : BindProbe)
    (requests : List AllocationRequestItem) :
    (finishBundle env allocationId bindProbe requests).Raises
      fun failure => ¬ failure.Unavailable := by
  have hentries : ∀ hostId rows, (buildEntries hostId requests rows).Raises
      fun failure => ¬ failure.Unavailable := by
    intro hostId rows
    induction rows with
    | nil => trivial
    | cons row rows ih =>
        apply Program.Raises.bind
        · exact fun _ _ => trivial
        · exact fun _ => ih.bind fun _ => trivial
  apply Program.Raises.bind
  · apply Program.Raises.bind raises_select
    intro row
    cases row with
    | none => rintro ⟨_, ⟨⟩, _⟩
    | some allocation => trivial
  · intro allocation
    apply Program.Raises.bind raises_select
    intro host
    apply Program.Raises.bind raises_select
    intro rows
    apply (hentries _ _).bind
    intro entries
    cases host with
    | none => rintro ⟨_, ⟨⟩, _⟩
    | some host => exact fun _ => trivial

/-- What is raised after the ports are found. -/
theorem explains_insertion {resolved : List (AllocationRequestItem × ℕ)} (bindProbe : BindProbe)
    (hfit : db.FirstFit payload.hostId ∅ resolved)
    (hnames : resolved.map Prod.fst = payload.requests) (hjournal : s.committedWrites = [])
    (hprobes : ∀ write ∈ s.batch, write.IsProbe)
    (htrouble : Untroubled db start → Untroubled db s) :
    Explains db payload start (do
      let allocation ← insertAllocation env payload
      (insertBundle payload allocation.id resolved).tryCatch refuseClaimed
      pure (allocation, bindProbe)) s := by
  have hraises : (insertAllocation env payload).Raises fun failure => ¬ failure.Unavailable := by
    rintro id createdAt (_ | error)
    · trivial
    · exact not_unavailable_db error
  have hensures : (insertAllocation env payload).Ensures store (Program.alone store db)
      (fun _ => True) s _ := hraises.ensures
  by_cases huntroubled : Untroubled db start
  · have hlength : resolved.length ≤ maxBundleSize := by
      have hcount := payload.requests_length.2
      rwa [← hnames, List.length_map] at hcount
    have hfilling := ensures_insertAllocation_filling env payload hjournal hprobes
      (htrouble huntroubled) hlength
    apply Program.Ensures.bind (hfilling.and hensures)
    · intro s' allocation hrow
      have hguarded := ensures_guardedBundle_filling payload resolved (hrow.1 allocation rfl)
      apply Program.Ensures.bind hguarded
      · rintro s'' _ - failure ⟨⟩
      · rintro s'' failure hfailure _ ⟨⟩ hunavailable
        exact (hfailure failure rfl hunavailable).elim
    · rintro s' failure ⟨-, hfailure⟩ _ ⟨⟩ hunavailable
      exact (hfailure failure rfl hunavailable).elim
  · apply Program.Ensures.bind hensures
    · intro s' allocation _
      have hguarded : ((insertBundle payload allocation.id resolved).tryCatch
          refuseClaimed).Ensures store (Program.alone store db) (fun _ => True) s' _ :=
        (raises_guardedBundle payload allocation.id resolved).ensures
      apply Program.Ensures.bind hguarded
      · rintro s'' _ - failure ⟨⟩
      · rintro s'' failure hfailure _ ⟨⟩ hunavailable
        exact ⟨candidatesClaimed, hfailure failure rfl hunavailable,
          .inr ⟨rfl, huntroubled, resolved, hfit, hnames⟩⟩
    · rintro s' failure hfailure _ ⟨⟩ hunavailable
      exact (hfailure failure rfl hunavailable).elim

theorem explains_prepareBundle (hcomplete : db.ListingComplete payload.hostId)
    (hquiet : db.NoOccupationKnown payload.hostId)
    (htrouble : Untroubled db start → Untroubled db s) (hs : Searching payload.hostId ∅ s) :
    Explains db payload start (prepareBundle env payload) s := by
  apply Explains.bind htrouble
    (searches_of_observes (observes_refreshHost _) (raises_refreshHost _) hs)
  rintro s₁ host _ htrouble₁ rfl hs₁
  apply Explains.bind htrouble₁ (searches_of_observes (observes_ensureHostAllocatable env host)
    (raises_ensureHostAllocatable env host) hs₁)
  rintro s₂ _ _ htrouble₂ rfl hs₂
  have hprobes : ∀ write ∈ s₂.batch, write.IsProbe := by
    intro write hwrite
    obtain ⟨probe, rfl, -⟩ := hs₂.queued write hwrite
    trivial
  have hstaging := probesOnly_resolveAll env host payload.hostId payload.requests ∅
  have hholding : (resolveAll env host payload.hostId payload.requests ∅).Ensures store
      (Program.alone store db) (fun _ => True) s₂ _ := hstaging.holding.ensures
  apply Program.Ensures.bind (((searches_resolveAll hcomplete hquiet env host hs₂
    payload.requests).and (hholding.and (hstaging.adds.ensures hprobes))).and
      (ensures_untroubled htrouble₂ _))
  · rintro s₃ ⟨resolved, bindProbe⟩ ⟨⟨hfound, ⟨hjournal, -⟩, hbatch⟩, htrouble₃⟩
    obtain ⟨hfit, hnames⟩ := hfound.1 _ rfl
    exact explains_insertion bindProbe hfit hnames (hjournal.trans hs₂.journal) hbatch htrouble₃
  · rintro s₃ failure ⟨⟨hfound, -⟩, -⟩ _ ⟨⟩ hunavailable
    obtain ⟨item, rfl, hshort⟩ := hfound.2 failure rfl hunavailable
    exact ⟨allocationUnavailable item, rfl, .inl ⟨item, rfl, hshort⟩⟩

theorem explains_createAllocation (hcomplete : db.ListingComplete payload.hostId)
    (hquiet : db.NoOccupationKnown payload.hostId) (hrequest : payload.requestId = none)
    (htrouble : Untroubled db start → Untroubled db s) (hs : Searching payload.hostId ∅ s) :
    Explains db payload start (createAllocation env payload) s := by
  apply Explains.bind htrouble (searches_of_observes (observes_validatePurposes payload.requests)
    (raises_validatePurposes payload.requests) hs)
  rintro s₁ _ _ htrouble₁ rfl hs₁
  rw [lookUpRequest, hrequest]
  show Explains db payload start (allocateFresh env payload) s₁
  apply Explains.bind htrouble₁ (searches_select hs₁ fun _ => rfl)
  rintro s₂ _ _ htrouble₂ ⟨rfl, rfl⟩ hs₂
  cases db.getHost payload.hostId with
  | none =>
      apply Explains.of_raises
      rintro ⟨_, ⟨⟩, ⟨⟩⟩
  | some host =>
      have hlocked : Searching payload.hostId ∅ (s₂.afterLock (env.hashtext payload.hostId.text)) :=
        ⟨(Session.committedWrites_afterLock _ _).trans hs₂.journal, hs₂.queued⟩
      have huntroubled : Untroubled db start →
          Untroubled db (s₂.afterLock (env.hashtext payload.hostId.text)) := fun h =>
        (htrouble₂ h).later (k := 0) (l := 0) (fun _ => rfl) fun _ => rfl
      show Explains db payload start (allocateLocked env payload) (s₂.afterLock _)
      apply Program.Ensures.bind (explains_prepareBundle hcomplete hquiet huntroubled hlocked)
      · intro s₃ prepared _
        apply Explains.of_raises
        rintro (_ | error)
        · exact raises_finishBundle env _ _ _
        · exact not_unavailable_db error
      · intro s₃ failure hfailure
        rintro _ ⟨⟩
        exact hfailure failure rfl

end Refusals

/-- Completeness, as far as first fit goes. A bundle without an idempotency key is
refused with `ALLOCATION_UNAVAILABLE` only if first fit, in the order of the payload,
leaves a request without a port, trouble with the database apart. If every request is
offered as many ports as the bundle has requests, only such trouble is left, whatever the
order. -/
theorem createAllocation_unavailable (env : Environment) (payload : AllocationIn) (db : Db)
    (draws : ℕ → Draw) (faults : ℕ → Option DbError) (error : AllocationError)
    (hrequest : payload.requestId = none) (hcomplete : db.ListingComplete payload.hostId)
    (hquiet : db.NoOccupationKnown payload.hostId)
    (herror : (runCreateAllocation env payload db draws faults).result =
      .error (.allocation error))
    (hcode : error.code = .allocationUnavailable) :
    db.Unallocatable payload (Session.start draws faults) error ∧
      ((∀ item ∈ payload.requests, ∃ ports : Finset ℕ, payload.requests.length ≤ ports.card ∧
          ∀ port ∈ ports, db.Offers payload.hostId item port) →
        ¬ Untroubled db (Session.start draws faults)) := by
  have hstart : Searching payload.hostId ∅ (Session.start draws faults : ServiceSession) :=
    ⟨rfl, by simp [Session.batch, Session.start]⟩
  have hexplains : Explains db payload (Session.start draws faults) (createAllocation env payload)
      (Session.start draws faults) :=
    explains_createAllocation hcomplete hquiet hrequest id hstart
  obtain ⟨_, hsame, hcause⟩ := hexplains.exec_start.1 _ herror ⟨error, rfl, hcode⟩
  obtain rfl := Failure.allocation.inj hsame
  refine ⟨hcause, fun hroom => ?_⟩
  rcases hcause with ⟨item, -, hshort⟩ | ⟨-, htrouble, -⟩
  · have hitem : item ∈ payload.requests := by
      obtain ⟨resolved, rest, hrequests, -⟩ := hshort
      rw [hrequests]
      exact List.mem_append_right _ List.mem_cons_self
    obtain ⟨ports, hmany, hoffered⟩ := hroom item hitem
    exact absurd (hshort.card_lt hoffered) (Nat.not_lt.mpr hmany)
  · exact htrouble

/-- A request for a port of the given range. -/
def wideItem : AllocationRequestItem where
  name := "wide"
  purpose := "api"
  protocol := .tcp
  preferredPort := none
  requestedRange := some "8000-8001"
  name_length := by decide
  name_stripped := by decide
  purpose_length := sampleItem.purpose_length
  preferredPort_bounds := preferredPort_none_bounds
  requestedRange_accepted := by decide
  preferredPort_within_range := by decide

/-- A request that only one port serves. -/
def narrowItem : AllocationRequestItem where
  name := "narrow"
  purpose := "api"
  protocol := .tcp
  preferredPort := none
  requestedRange := some "8000-8000"
  name_length := by decide
  name_stripped := by decide
  purpose_length := sampleItem.purpose_length
  preferredPort_bounds := preferredPort_none_bounds
  requestedRange_accepted := by decide
  preferredPort_within_range := by decide

/-- The two requests, the wide one first or last. -/
def overlappingPayload (wideFirst : Bool) : AllocationIn where
  project := "shop"
  hostId := sampleHost.id
  requests := if wideFirst then [wideItem, narrowItem] else [narrowItem, wideItem]
  requestId := none
  project_length := shop_length
  requests_length := by cases wideFirst <;> decide
  requestId_length := requestId_none_length
  names_nodup := by cases wideFirst <;> decide

theorem noOccupationKnown_sampleDb : sampleDb.NoOccupationKnown sampleHost.id := by
  rintro protocol now port ⟨⟩

theorem untroubled_sample :
    Untroubled sampleDb (Session.start (sampleDraws 100) fun _ => none) := by
  constructor
  · rintro i ⟨⟩
  · rintro i row ⟨⟩
  · intro i j hij hspan hsame
    have hbits := congrArg BitVec.toNat (Uuid.mk.inj hsame)
    simp only [BitVec.toNat_ofNat, maxBundleSize] at hbits hspan
    omega

theorem createAllocation_unavailable_sample :
    sampleDb.Unallocatable (overlappingPayload true)
        (Session.start (sampleDraws 100) fun _ => none) (allocationUnavailable narrowItem) ∧
      ((∀ item ∈ (overlappingPayload true).requests, ∃ ports : Finset ℕ,
          (overlappingPayload true).requests.length ≤ ports.card ∧
            ∀ port ∈ ports, sampleDb.Offers sampleHost.id item port) →
        ¬ Untroubled sampleDb (Session.start (sampleDraws 100) fun _ => none)) :=
  createAllocation_unavailable sampleEnvironment (overlappingPayload true) sampleDb
    (sampleDraws 100) (fun _ => none) (allocationUnavailable narrowItem) rfl (by decide)
    noOccupationKnown_sampleDb rfl rfl

/-- With the wide request first the bundle is refused, although it has an assignment and is
granted with the narrow request first. -/
theorem wideFirst_unavailable :
    sampleDb.ListingComplete sampleHost.id ∧ sampleDb.NoOccupationKnown sampleHost.id ∧
      Untroubled sampleDb (Session.start (sampleDraws 100) fun _ => none) ∧
      sampleHost.lifecycleState = .active ∧
      (sampleEnvironment.health sampleHost.lastSeen 0).1 = .healthy ∧
      (runCreateAllocation sampleEnvironment (overlappingPayload true) sampleDb (sampleDraws 100)
        fun _ => none).result = .error (.allocation (allocationUnavailable narrowItem)) ∧
      sampleDb.Assigns sampleHost.id (overlappingPayload true).requests [8001, 8000] ∧
      canonicalPayload (overlappingPayload false) = canonicalPayload (overlappingPayload true) ∧
      ∃ out, (runCreateAllocation sampleEnvironment (overlappingPayload false) sampleDb
        (sampleDraws 100) fun _ => none).result = .ok out := by
  have hwide : sampleDb.Offers sampleHost.id wideItem 8001 :=
    ⟨.inr ⟨(8000, 8001), rfl, by decide⟩, by decide, by decide⟩
  have hnarrow : sampleDb.Offers sampleHost.id narrowItem 8000 :=
    ⟨.inr ⟨(8000, 8000), rfl, by decide⟩, by decide, by decide⟩
  refine ⟨by decide, noOccupationKnown_sampleDb, untroubled_sample, rfl, rfl, rfl, ?_, ?_, ?_⟩
  · exact ⟨by decide, .cons hwide (.cons hnarrow .nil)⟩
  · rfl
  · exact ⟨_, rfl⟩

end Central
