/-
# Which ports are given without evidence

Where no probe of the host counts as evidence, a request is given its preferred port if the
listings show it free, else the first candidate of its range. This says it of the listings as the
searches read them, however long they are, and so of both callers: the resolution loop, and the
suggestion for one purpose.
-/

import PortForge.Central.FirstFit

namespace Central

open Transaction

/-- Neither listing of the host shows the port taken. -/
def Db.Free (db : Db) (hostId : Uuid) (protocol : Protocol) (port : ℕ) : Prop :=
  ¬ (db.listCurrentForHost hostId).any (fun row => row.port = port ∧ row.protocol = protocol) ∧
    ¬ (db.listReservations hostId 10000).any
      (fun row => row.port = port ∧ row.protocol = protocol)

instance (db : Db) (hostId : Uuid) (protocol : Protocol) :
    DecidablePred (db.Free hostId protocol) :=
  fun _ => inferInstanceAs (Decidable (_ ∧ _))

/-- The preferred port of a request, where it is free and not given yet. -/
def Db.freePreferred (db : Db) (hostId : Uuid) (item : AllocationRequestItem)
    (claimed : Finset ℕ) : Option ℕ :=
  item.preferredPort.filter fun port => port ∉ claimed ∧ db.Free hostId item.protocol port

/-- The port a request is given, if the requests before it got those in `claimed`. -/
def Db.give (db : Db) (hostId : Uuid) (item : AllocationRequestItem) (claimed : Finset ℕ) :
    Option ℕ :=
  db.freePreferred hostId item claimed <|>
    (db.candidates hostId item.protocol claimed item.searchedRange).head?

/-- Every request is given a port, one after the other. -/
def Db.GivesAll (db : Db) (hostId : Uuid) : Finset ℕ → List AllocationRequestItem → Prop
  | _, [] => True
  | claimed, item :: items =>
      ∃ port, db.give hostId item claimed = some port ∧
        db.GivesAll hostId (insert port claimed) items

section Search

variable {db : Db} {hostId : Uuid} {claimed : Finset ℕ} {s : ServiceSession}

theorem unclaimed_of_freePreferred {item : AllocationRequestItem} {port : ℕ}
    (h : db.freePreferred hostId item claimed = some port) : port ∉ claimed := by
  rw [Db.freePreferred, Option.filter_eq_some_iff] at h
  exact (of_decide_eq_true h.2).1

theorem unclaimed_of_candidates {protocol : Protocol} {range : Option (ℕ × ℕ)} {port : ℕ}
    (h : (db.candidates hostId protocol claimed range).head? = some port) : port ∉ claimed := by
  obtain ⟨ports, hcandidates⟩ := List.head?_eq_some_iff.mp h
  exact notMem_of_candidates hcandidates

/-- The preferred port is kept exactly if the listings show it free. -/
theorem searches_freePreferred (hquiet : db.NoOccupationKnown hostId)
    (hs : Searching hostId claimed s) (item : AllocationRequestItem) :
    Searches db hostId (freePreferredPort hostId item claimed) s fun found after =>
      found = db.freePreferred hostId item claimed ∧ after = claimed := by
  rw [freePreferredPort, Db.freePreferred]
  cases hpreferred : item.preferredPort with
  | none => exact Searches.ret ⟨rfl, rfl⟩ hs
  | some port =>
      have hfree : Searches db hostId (portIsFree hostId port item.protocol claimed) s
          fun free after => (free = true ↔ port ∉ claimed ∧ db.Free hostId item.protocol port) ∧
            after = claimed := by
        rw [portIsFree]
        split
        · rename_i hclaimed
          exact Searches.ret ⟨by simp [hclaimed], rfl⟩ hs
        · rename_i hclaimed
          apply Searches.bind (searches_select hs fun _ => rfl)
          rintro s₁ _ _ ⟨rfl, rfl⟩ hs₁
          split
          · rename_i hcurrent
            exact Searches.ret ⟨by simp only [Db.Free, hcurrent, not_true, false_and, and_false,
              Bool.false_eq_true], rfl⟩ hs₁
          · rename_i hcurrent
            apply Searches.bind (searches_select hs₁ fun _ => rfl)
            rintro s₂ _ _ ⟨rfl, rfl⟩ hs₂
            split
            · rename_i hrows
              exact Searches.ret ⟨by simp only [Db.Free, hrows, not_true, and_false,
                Bool.false_eq_true], rfl⟩ hs₂
            · rename_i hrows
              apply Searches.bind (searches_getProbeEvidence hquiet hs₂ item.protocol hclaimed)
              rintro s₃ evidence claimed ⟨hevidence, rfl⟩ hs₃
              have hopen : port ∉ claimed ∧ db.Free hostId item.protocol port :=
                ⟨hclaimed, hcurrent, hrows⟩
              exact Searches.ret ⟨by simp [hevidence, hopen], rfl⟩ hs₃
      apply Searches.bind hfree
      rintro s' free _ ⟨hopen, rfl⟩ hs'
      refine Searches.ret ⟨?_, rfl⟩ hs'
      cases free with
      | false => simp [Option.filter, ← hopen]
      | true => simp [Option.filter, ← hopen]

/-- One request's port. -/
theorem searches_give (hquiet : db.NoOccupationKnown hostId) (env : Environment) (host : Host)
    (hs : Searching hostId claimed s) (item : AllocationRequestItem) :
    Searches db hostId (resolveCandidate env host hostId item claimed) s fun found after =>
      found.1 = db.give hostId item claimed ∧
        ∀ port, found.1 = some port → after ⊆ insert port claimed := by
  apply Searches.bind (searches_freePreferred hquiet hs item)
  rintro s' preferred claimed ⟨hpreferred, rfl⟩ hs'
  cases preferred with
  | some port =>
      have hgive : some port = db.give hostId item claimed := by
        rw [Db.give, ← hpreferred]
        rfl
      have hunclaimed := unclaimed_of_freePreferred hpreferred.symm
      apply Searches.bind (searches_getProbeEvidence hquiet hs' item.protocol hunclaimed)
      rintro s'' evidence claimed ⟨-, rfl⟩ hs''
      split
      · exact Searches.ret ⟨hgive, fun port _ => Finset.subset_insert port _⟩ hs''
      · split
        · apply Searches.bind (searches_queueProbe env _ hs'' port item.protocol)
          rintro _ _ _ rfl hqueued
          refine Searches.ret ⟨hgive, ?_⟩ hqueued
          rintro _ ⟨⟩
          exact subset_rfl
        · exact Searches.ret ⟨hgive, fun port _ => Finset.subset_insert port _⟩ hs''
  | none =>
      have hgive : db.give hostId item claimed =
          (db.candidates hostId item.protocol claimed item.searchedRange).head? := by
        rw [Db.give, ← hpreferred]
        rfl
      apply Searches.bind
        (searches_findAvailablePort hs' item.purpose item.protocol claimed item.range)
      rintro s'' initial claimed ⟨hinitial, rfl⟩ hs''
      apply Searches.bind (searches_skipOccupied hquiet env (some host) item.protocol
        (fun exclude => findAvailablePort hostId item.purpose item.protocol (claimed ∪ exclude)
          item.range) hs'' maxProbeSkipAttempts ∅ initial
        fun port hport => unclaimed_of_candidates (hinitial.symm.trans hport))
      rintro _ ⟨found, bindProbe⟩ after ⟨hfound, hafter⟩ hlast
      exact Searches.ret ⟨hfound.trans (hinitial.trans hgive.symm), hafter⟩ hlast

/-- The whole bundle: the loop returns where every request is given a port, and is refused for
want of ports where one is not. -/
theorem searches_givesAll (hquiet : db.NoOccupationKnown hostId) (env : Environment) (host : Host)
    (hs : Searching hostId claimed s) (items : List AllocationRequestItem) :
    (resolveAll env host hostId items claimed).Ensures store (Program.alone store db)
      (fun _ => True) s fun _ outcome =>
        (∀ found, outcome = .ok found → db.GivesAll hostId claimed items) ∧
        ∀ failure, outcome = .error failure → failure.Unavailable →
          ¬ db.GivesAll hostId claimed items := by
  induction items generalizing s claimed with
  | nil =>
      constructor
      · rintro _ ⟨⟩
        trivial
      · rintro _ ⟨⟩
  | cons item items ih =>
      rw [resolveAll]
      apply Program.Ensures.bind (searches_give hquiet env host hs item)
      · rintro s' ⟨port, itemBindProbe⟩ hfound
        obtain ⟨after, ⟨hport, hafter⟩, hs'⟩ := hfound.1 _ rfl
        cases port with
        | none =>
            constructor
            · rintro _ ⟨⟩
            · rintro _ ⟨⟩ -
              rintro ⟨port, hgive, -⟩
              rw [← hport] at hgive
              cases hgive
        | some port =>
            have hlater : Searching hostId (insert port claimed) s' := by
              refine ⟨hs'.journal, fun write hwrite => ?_⟩
              obtain ⟨probe, rfl, hprobe⟩ := hs'.queued write hwrite
              exact ⟨probe, rfl, fun hhost => hafter port rfl (hprobe hhost)⟩
            apply Program.Ensures.bind (ih hlater)
            · rintro s'' ⟨resolved, bindProbe⟩ hrest
              constructor
              · rintro _ ⟨⟩
                exact ⟨port, hport.symm, hrest.1 _ rfl⟩
              · rintro _ ⟨⟩
            · rintro s'' failure hrest
              constructor
              · rintro _ ⟨⟩
              · rintro _ ⟨⟩ hunavailable
                rintro ⟨other, hother, hothers⟩
                rw [← hport, Option.some_inj] at hother
                rw [← hother] at hothers
                exact hrest.2 _ rfl hunavailable hothers
      · rintro s' failure hfailure
        constructor
        · rintro _ ⟨⟩
        · rintro _ ⟨⟩ hunavailable
          exact (hfailure.2 _ rfl hunavailable).elim

end Search

/-! ## What can stop the search -/

section Raising

variable {P : Failure → Prop} {hostId : Uuid}

theorem raises_getProbeEvidence (port : ℕ) (protocol : Protocol) :
    (getProbeEvidence hostId port protocol).Raises P := fun _ _ => trivial

theorem raises_findAvailablePort (serviceType : String) (protocol : Protocol)
    (exclude : Finset ℕ) (range : Option (ℕ × ℕ)) :
    (findAvailablePort hostId serviceType protocol exclude range).Raises P := by
  rw [findAvailablePort]
  split
  · trivial
  · exact fun _ _ => trivial

theorem raises_skipOccupied (hdb : ∀ error, P (.db error)) (env : Environment)
    (loaded : Option Host) (protocol : Protocol) {refine : Finset ℕ → Service CandidateSearchResult}
    (hrefine : ∀ exclude, (refine exclude).Raises P) (attempts : ℕ) (exclude : Finset ℕ)
    (result : CandidateSearchResult) :
    (skipOccupied env loaded hostId protocol refine attempts exclude result).Raises P := by
  induction attempts generalizing exclude result with
  | zero => trivial
  | succ attempts ih =>
      rw [skipOccupied]
      split
      · trivial
      · apply Program.Raises.bind (raises_getProbeEvidence _ _)
        intro evidence
        split
        · exact Program.Raises.bind (hrefine _) fun next => ih _ next
        · trivial
        · exact Program.Raises.bind (raises_queueProbe hdb env loaded _ protocol) fun _ => trivial

theorem raises_freePreferredPort (item : AllocationRequestItem) (claimed : Finset ℕ) :
    (freePreferredPort hostId item claimed).Raises P := by
  rw [freePreferredPort]
  split
  · trivial
  · refine Program.Raises.bind ?_ fun _ => trivial
    rw [portIsFree]
    split
    · trivial
    · refine Program.Raises.bind raises_select fun current => ?_
      split
      · trivial
      · refine Program.Raises.bind raises_select fun rows => ?_
        split
        · trivial
        · exact Program.Raises.bind (raises_getProbeEvidence _ _) fun _ => trivial

theorem raises_resolveCandidate (hdb : ∀ error, P (.db error)) (env : Environment) (host : Host)
    (item : AllocationRequestItem) (claimed : Finset ℕ) :
    (resolveCandidate env host hostId item claimed).Raises P := by
  refine Program.Raises.bind (raises_freePreferredPort item claimed) fun preferred => ?_
  cases preferred with
  | some port =>
      refine Program.Raises.bind (raises_getProbeEvidence _ _) fun evidence => ?_
      split
      · trivial
      · split
        · exact Program.Raises.bind (raises_queueProbe hdb env _ port _) fun _ => trivial
        · trivial
  | none =>
      refine Program.Raises.bind (raises_findAvailablePort _ _ _ _) fun initial => ?_
      exact Program.Raises.bind (raises_skipOccupied hdb env _ _
        (fun exclude => raises_findAvailablePort _ _ _ _) _ _ _) fun _ => trivial

/-- The loop is stopped by the database, or for want of a port. -/
theorem raises_resolveAll (hdb : ∀ error, P (.db error))
    (hunavailable : ∀ item, P (.allocation (allocationUnavailable item))) (env : Environment)
    (host : Host) (items : List AllocationRequestItem) (claimed : Finset ℕ) :
    (resolveAll env host hostId items claimed).Raises P := by
  induction items generalizing claimed with
  | nil => trivial
  | cons item items ih =>
      rw [resolveAll]
      refine Program.Raises.bind (raises_resolveCandidate hdb env host item claimed) fun found => ?_
      obtain ⟨port, itemBindProbe⟩ := found
      cases port with
      | none => exact hunavailable item
      | some port => exact Program.Raises.bind (ih (insert port claimed)) fun _ => trivial

end Raising

/-! ## Both callers -/

/-- How `create_allocation` finds a port for every request, on a host that it allocates on. -/
def findPorts (env : Environment) (host : Host) (payload : AllocationIn) :
    Service (List (AllocationRequestItem × ℕ)) := do
  validatePurposes payload.requests
  let (resolved, _) ← resolveAll env host payload.hostId payload.requests ∅
  pure resolved

/-- The search that runs alone on `db`. -/
def runFindPorts (env : Environment) (host : Host) (payload : AllocationIn) (db : Db)
    (draws : ℕ → Draw) (faults : ℕ → Option DbError) :
    Outcome Db Write ℤ Draw Failure (List (AllocationRequestItem × ℕ)) :=
  (findPorts env host payload).exec store (Session.start draws faults) db

/-- The purposes of the requests are known. -/
def KnownPurposes (items : List AllocationRequestItem) : Prop :=
  ∀ item ∈ items, (defaultRange item.purpose).isSome = true

/-- Unless the database fails, a port is found for every request exactly if all purposes are
known and every request is given a port. -/
theorem findPorts_iff {env : Environment} {host : Host} {payload : AllocationIn} {db : Db}
    {draws : ℕ → Draw} {faults : ℕ → Option DbError} (hquiet : db.NoOccupationKnown payload.hostId)
    (hdatabase : ∀ error, (runFindPorts env host payload db draws faults).result ≠
      .error (.db error)) :
    (∃ found, (runFindPorts env host payload db draws faults).result = .ok found) ↔
      KnownPurposes payload.requests ∧ db.GivesAll payload.hostId ∅ payload.requests := by
  have hstart : Searching payload.hostId ∅ (Session.start draws faults : ServiceSession) :=
    ⟨rfl, by simp [Session.batch, Session.start]⟩
  have hspec : (findPorts env host payload).Ensures store (Program.alone store db)
      (fun _ => True) (Session.start draws faults) fun _ outcome =>
        (∀ found, outcome = .ok found →
          KnownPurposes payload.requests ∧ db.GivesAll payload.hostId ∅ payload.requests) ∧
        ∀ failure, outcome = .error failure → (∀ error, failure ≠ .db error) →
          ¬ (KnownPurposes payload.requests ∧
            db.GivesAll payload.hostId ∅ payload.requests) := by
    rw [findPorts]
    by_cases hknown : KnownPurposes payload.requests
    · have hnone : (payload.requests.filter fun item => (defaultRange item.purpose).isNone) = [] := by
        refine List.filter_eq_nil_iff.mpr fun item hitem => ?_
        have hsome := hknown item hitem
        rw [Option.isSome_iff_ne_none] at hsome
        simpa using hsome
      have hvalid : validatePurposes payload.requests = pure () := by
        simp [validatePurposes, hnone]
      have hraises : (resolveAll env host payload.hostId payload.requests ∅).Ensures store
          (Program.alone store db) (fun _ => True) (Session.start draws faults) _ :=
        (raises_resolveAll (P := fun failure => failure.Unavailable ∨ ∃ error, failure = .db error)
          (fun error => .inr ⟨error, rfl⟩) (fun item => .inl ⟨_, rfl, rfl⟩) env host
          payload.requests ∅).ensures
      rw [hvalid]
      apply Program.Ensures.bind
        ((searches_givesAll hquiet env host hstart payload.requests).and hraises)
      · rintro s' ⟨resolved, bindProbe⟩ ⟨hfound, -⟩
        constructor
        · rintro _ ⟨⟩
          exact ⟨hknown, hfound.1 _ rfl⟩
        · rintro _ ⟨⟩
      · rintro s' failure ⟨hfound, hraised⟩
        constructor
        · rintro _ ⟨⟩
        · rintro _ ⟨⟩ hnot ⟨-, hgives⟩
          rcases hraised failure rfl with hunavailable | ⟨error, rfl⟩
          · exact hfound.2 failure rfl hunavailable hgives
          · exact hnot error rfl
    · have hsome : (payload.requests.filter fun item => (defaultRange item.purpose).isNone) ≠ [] := by
        intro hnil
        refine hknown fun item hitem => ?_
        have hnot := List.filter_eq_nil_iff.mp hnil item hitem
        simpa [Option.isSome_iff_ne_none] using hnot
      have hraise : validatePurposes payload.requests = raise (.allocation (unknownPurpose
          ((payload.requests.filter fun item => (defaultRange item.purpose).isNone).map
            fun item => item.name))) := by
        simp [validatePurposes, hsome]
      rw [hraise]
      constructor
      · rintro _ ⟨⟩
      · rintro _ ⟨⟩ - ⟨hall, -⟩
        exact hknown hall
  obtain ⟨hok, herror⟩ := (hspec.exec rfl).1
  constructor
  · rintro ⟨found, hfound⟩
    exact hok found hfound
  · intro hgives
    cases hresult : (runFindPorts env host payload db draws faults).result with
    | ok found => exact ⟨found, rfl⟩
    | error failure =>
        refine (herror failure hresult (fun error hfailure => ?_) hgives).elim
        exact hdatabase error (hfailure ▸ hresult)

/-- A suggestion is the first candidate of its purpose's range. -/
theorem recommendedPort_eq {env : Environment} {db : Db} {hostId : Uuid} {serviceType : String}
    {protocol : Protocol} {draws : ℕ → Draw} {faults : ℕ → Option DbError}
    {out : CentralRecommendationOut} (hquiet : db.NoOccupationKnown hostId)
    (hok : (runSuggestPort env hostId serviceType protocol db draws faults).result = .ok out) :
    out.recommendedPort = (db.candidates hostId protocol ∅ (defaultRange serviceType)).head? := by
  have hstart : Searching hostId ∅ (Session.start draws faults : ServiceSession) :=
    ⟨rfl, by simp [Session.batch, Session.start]⟩
  have hspec : (suggestPort env hostId serviceType protocol).Ensures store (Program.alone store db)
      (fun _ => True) (Session.start draws faults) fun _ outcome => ∀ out, outcome = .ok out →
        out.recommendedPort =
          (db.candidates hostId protocol ∅ (defaultRange serviceType)).head? := by
    rw [suggestPort]
    split
    · rename_i hunknown
      rintro _ ⟨⟩
      rw [Option.isNone_iff_eq_none.mp hunknown]
      rfl
    · apply Program.Ensures.bind (searches_findAvailablePort hstart serviceType protocol ∅ none)
      · rintro s' initial hinitial
        obtain ⟨_, ⟨hport, rfl⟩, hs'⟩ := hinitial.1 _ rfl
        apply Program.Ensures.bind (searches_skipOccupied hquiet env none protocol
          (fun exclude => findAvailablePort hostId serviceType protocol exclude none) hs'
          maxProbeSkipAttempts ∅ initial fun port _ => Finset.notMem_empty port)
        · rintro s'' ⟨result, bindProbe⟩ hfound
          obtain ⟨after, ⟨hresult, -⟩, -⟩ := hfound.1 _ rfl
          simp only [Program.bind_eq, Program.ensures_bind, ensures_commit]
          refine ⟨trivial, ?_, ?_⟩
          · rintro contents - - _ ⟨⟩
            exact hresult.trans hport
          · rintro contents error - - _ ⟨⟩
        · rintro s'' error - _ ⟨⟩
      · rintro s' error - _ ⟨⟩
  exact (hspec.exec rfl).1 out hok

end Central
