/-
# The last time a host was seen

A heartbeat and a snapshot both write `last_seen`, each with the time its agent put on it.
Where the reports of a host are accepted in the order of those times `last_seen` only
grows; a report that is delivered late turns it back.
-/

import PortForge.Central.Silence

namespace Central

open Transaction

/-- The host a write tells of, and the instant it stores for it. -/
def Write.heard : Write → Option (Uuid × ℤ)
  | .insertHost row => some (row.id, row.lastSeen)
  | .reportHost id _ now => some (id, now)
  | .scanHost id observedAt => some (id, observedAt)
  | _ => none

/-- The host is on file, and was seen at the bound or later. -/
def Db.SeenFrom (db : Db) (hostId : Uuid) (bound : ℤ) : Prop :=
  ∃ host, db.getHost hostId = some host ∧ bound ≤ host.lastSeen

variable {hostId : Uuid} {bound : ℤ} {db : Db}

/-- A change of the rows that keeps ids, and stores nothing earlier for the host. -/
theorem Db.SeenFrom.of_map (h : db.SeenFrom hostId bound) (change : Host → Host)
    (hid : ∀ host, (change host).id = host.id)
    (hseen : ∀ host, host.id = hostId → bound ≤ host.lastSeen → bound ≤ (change host).lastSeen)
    {later : Db} (hhosts : later.hosts = db.hosts.map change) : later.SeenFrom hostId bound := by
  obtain ⟨host, hhost, hbound⟩ := h
  have hsame : host.id = hostId := by simpa using List.find?_some hhost
  refine ⟨change host, ?_, hseen host hsame hbound⟩
  rw [Db.getHost_map hid hhosts, hhost]
  rfl

/-- A write that stores no earlier instant for the host leaves it seen from the bound on. -/
theorem Db.SeenFrom.apply (h : db.SeenFrom hostId bound) {write : Write}
    (hkeeps : ¬ write.Purges)
    (hheard : ∀ heard ∈ write.heard, heard.1 = hostId → bound ≤ heard.2) :
    (write.apply db).SeenFrom hostId bound := by
  have hmapped (change : Host → Host) (hid : ∀ host, (change host).id = host.id)
      (hseen : ∀ host, (change host).lastSeen = host.lastSeen) {later : Db}
      (hhosts : later.hosts = db.hosts.map change) : later.SeenFrom hostId bound :=
    h.of_map change hid (fun host _ hbound => (hseen host).symm ▸ hbound) hhosts
  cases write with
  | insertHost row =>
      obtain ⟨host, hhost, hbound⟩ := h
      refine ⟨host, ?_, hbound⟩
      change (db.hosts ++ [row]).find? _ = some host
      rw [Db.getHost] at hhost
      rw [List.find?_append, hhost]
      rfl
  | reportHost id report now =>
      refine h.of_map _ (fun host => ?_) (fun host hsame hbound => ?_) rfl
      · split <;> rfl
      · split
        · next hid => exact hheard (id, now) rfl (hid.symm.trans hsame)
        · exact hbound
  | scanHost id observedAt =>
      refine h.of_map _ (fun host => ?_) (fun host hsame hbound => ?_) rfl
      · split <;> rfl
      · split
        · next hid => exact hheard (id, observedAt) rfl (hid.symm.trans hsame)
        · exact hbound
  | decommissionHost id decommissionedAt reason =>
      exact hmapped _ (fun host => by split <;> rfl) (fun host => by split <;> rfl) rfl
  | reactivateHost id =>
      exact hmapped _ (fun host => by split <;> rfl) (fun host => by split <;> rfl) rfl
  | setHostError id lastError =>
      exact hmapped _ (fun host => by split <;> rfl) (fun host => by split <;> rfl) rfl
  | purgeHost table id | deleteHost id => exact (hkeeps trivial).elim
  | _ => exact h

/-- No call of a run removes a host. -/
theorem ContactCall.keeps (env : Environment) (call : ContactCall) :
    (call.program env).Adds fun write => ¬ write.Purges := by
  cases call with
  | heartbeat hostId beat =>
      refine Program.Adds.bind ((adds_heartbeatEndpoint env hostId beat).mono ?_) fun _ => trivial
      intro write h
      cases write <;> first | exact h.elim | exact id
  | snapshot hostId scanId observedAt observations =>
      refine Program.Adds.bind ?_ fun _ => trivial
      rw [ingestSnapshot]
      split
      · trivial
      · refine Program.Adds.bind trivial fun _ => ?_
        refine (locked_ingestLocked env hostId scanId observedAt.micros observations).2.mono ?_
        intro write h
        cases write <;> first | exact h.elim | exact id
  | allocate payload =>
      refine Program.Adds.bind ((adds_createAllocation env payload).mono ?_) fun _ => trivial
      intro write h
      cases write <;> first | exact h.elim | exact id

/-! ## Reports in the order of their times -/

section Runs

variable {ι : Type} {env : Environment} {calls : ι → ContactCall} {draws : ι → ℕ → Draw}
  {σ τ : System ι Db Write ℤ Draw Failure Unit}

/-- A report is committed after those of its host with earlier times: none that has been
accepted, and nothing on file at the start, is stamped later. -/
def InOrder (env : Environment) (calls : ι → ContactCall) (db : Db)
    (σ : System ι Db Write ℤ Draw Failure Unit) (i : ι) : Prop :=
  ∀ next, σ.program i = .commit next →
    ∀ write ∈ (σ.session i).batch, ∀ heard ∈ write.heard,
      (∀ host ∈ db.hosts, host.id = heard.1 → host.lastSeen ≤ heard.2) ∧
      ∀ j, Recorded σ j → ∀ other ∈ (calls j).report env, other.1 = heard.1 → other.2 ≤ heard.2

variable [DecidableEq ι]

theorem Recorded.of_reachable {allowed : System ι Db Write ℤ Draw Failure Unit → ι → Prop} {i : ι}
    (h : Recorded σ i) (hreach : System.Reachable store allowed σ τ) : Recorded τ i := by
  induction hreach with
  | start => exact h
  | step _ _ _ ih => exact ih.move _

/-- Where the bound is that of an accepted report, or of the start, a report committed in
order leaves the host seen from it on. -/
theorem seenFrom_move (hkeeps : σ.Writes fun write => ¬ write.Purges) {i : ι}
    (horder : InOrder env calls db σ i) (hseen : σ.db.SeenFrom hostId bound)
    (hbound : (∃ host ∈ db.hosts, host.id = hostId ∧ host.lastSeen = bound) ∨
      ∃ j, Recorded σ j ∧ (calls j).report env = some (hostId, bound)) :
    (σ.move store i).db.SeenFrom hostId bound := by
  rcases System.move_db store σ i with hsame | ⟨next, hcommit, -, -, -, hdb⟩
  · rw [hsame]
    exact hseen
  · rw [hdb]
    refine Store.applyAll_induction store (motive := fun contents => contents.SeenFrom hostId bound)
      hseen fun write hwrite contents hcontents => ?_
    refine hcontents.apply ((hkeeps i).2 write hwrite) fun heard hheard hhost => ?_
    obtain ⟨hfile, haccepted⟩ := horder next hcommit write hwrite heard hheard
    rcases hbound with ⟨host, hmem, hid, rfl⟩ | ⟨j, hrecorded, hreport⟩
    · exact hfile host hmem (hid.trans hhost.symm)
    · exact haccepted j hrecorded (hostId, bound) hreport hhost.symm

/-- The `last_seen` of a host never decreases in a run in which the reports of each host are
accepted in the order of their times. -/
theorem lastSeen_never_decreases (env : Environment) (calls : ι → ContactCall) (db : Db)
    (draws : ι → ℕ → Draw) (hostId : Uuid) (host : Host)
    (hreach : System.Reachable store (InOrder env calls db)
      (System.start db (fun i => (calls i).program env) draws) σ)
    (hlater : System.Reachable store (InOrder env calls db) σ τ)
    (hhost : σ.db.getHost hostId = some host) :
    ∃ later, τ.db.getHost hostId = some later ∧ host.lastSeen ≤ later.lastSeen := by
  have hid : host.id = hostId := by simpa using List.find?_some hhost
  have hbound : (∃ row ∈ db.hosts, row.id = hostId ∧ row.lastSeen = host.lastSeen) ∨
      ∃ j, Recorded σ j ∧ (calls j).report env = some (hostId, host.lastSeen) := by
    have hfrom := (heardFrom_of_reachable hreach).hosts host (List.mem_of_find?_eq_some hhost)
    rwa [Db.LastSeen, hid] at hfrom
  have hkeeps : σ.Writes fun write => ¬ write.Purges :=
    hreach.writes (System.start_writes fun i => (calls i).keeps env)
  change τ.db.SeenFrom hostId host.lastSeen
  -- The induction is on the later part of the run.
  induction hlater with
  | start => exact ⟨host, hhost, le_rfl⟩
  | @step υ i hbefore _ horder ih =>
      refine seenFrom_move (hbefore.writes hkeeps) horder ih (hbound.imp id ?_)
      rintro ⟨j, hrecorded, hreport⟩
      exact ⟨j, hrecorded.of_reachable hbefore, hreport⟩

end Runs

/-! ## Reports out of order -/

/-- A heartbeat, and a snapshot, each with the time its agent put on it. -/
def sampleReports (beatAt scanAt : ℤ) : Bool → ContactCall
  | true => sampleBeat beatAt
  | false => .snapshot sampleHost.id ⟨50⟩ ⟨scanAt, true⟩ []

/-- A run of the two. -/
def sampleReporting (beatAt scanAt : ℤ) : System Bool Db Write ℤ Draw Failure Unit :=
  System.start sampleDb (fun i => (sampleReports beatAt scanAt i).program sampleEnvironment)
    fun i => sampleDraws (if i then 200 else 300)

/-- The heartbeat commits before any report has been accepted. -/
def beatFirst (σ : System Bool Db Write ℤ Draw Failure Unit) (first : Bool) : Bool :=
  !first || !(σ.program true).atCommit || decide (¬ Recorded σ false)

/-- The snapshot of instant 10 begins before the heartbeat of instant 5, and waits for it to be
accepted. -/
theorem lastSeen_never_decreases_sample :
    ∃ σ τ host later, System.play store (List.replicate 4 false ++ List.replicate 20 true)
        (sampleReporting 5 10) = some σ ∧
      System.play store (List.replicate 20 false) σ = some τ ∧
      σ.db.getHost sampleHost.id = some host ∧ host.lastSeen = 5 ∧
      τ.db.getHost sampleHost.id = some later ∧ later.lastSeen = 10 ∧
      host.lastSeen ≤ later.lastSeen := by
  obtain ⟨σ, τ, host, hbefore, hafter, hhost, hseen, hlast⟩ : ∃ σ τ host,
      System.play store (List.replicate 4 false ++ List.replicate 20 true)
        (sampleReporting 5 10) = some σ ∧
      System.play store (List.replicate 20 false) σ = some τ ∧
      σ.db.getHost sampleHost.id = some host ∧ host.lastSeen = 5 ∧
      (τ.db.getHost sampleHost.id).map Host.lastSeen = some 10 :=
    ⟨_, _, _, rfl, rfl, rfl, rfl, rfl⟩
  have hallowed : ∀ υ i, System.Reachable store
      (InOrder sampleEnvironment (sampleReports 5 10) sampleDb) (sampleReporting 5 10) υ →
      beatFirst υ i = true → InOrder sampleEnvironment (sampleReports 5 10) sampleDb υ i := by
    intro υ i hreach htest next hcommit write hwrite heard hheard
    have hreport : (sampleReports 5 10 i).report sampleEnvironment = some heard := by
      have hhears := (heardFrom_of_reachable hreach).batch i write hwrite
      cases write <;> first | exact hhears.trans hheard | cases hheard
    cases i with
    | true =>
        obtain rfl : (sampleHost.id, (5 : ℤ)) = heard := Option.some.inj hreport
        refine ⟨by decide, fun j hrecorded other hother _ => ?_⟩
        have hnone : ¬ Recorded υ false := by
          simpa [beatFirst, hcommit, Program.atCommit] using htest
        cases j with
        | true => exact (Option.some.inj hother : (sampleHost.id, (5 : ℤ)) = other) ▸ le_rfl
        | false => exact (hnone hrecorded).elim
    | false =>
        obtain rfl : (sampleHost.id, (10 : ℤ)) = heard := Option.some.inj hreport
        refine ⟨by decide, fun j _ other hother _ => ?_⟩
        cases j with
        | true =>
            obtain rfl : (sampleHost.id, (5 : ℤ)) = other := Option.some.inj hother
            decide
        | false => exact (Option.some.inj hother : (sampleHost.id, (10 : ℤ)) = other) ▸ le_rfl
  have hreach : System.Reachable store _ (sampleReporting 5 10) σ :=
    System.Reachable.of_play_tested .start hallowed
      (rfl : System.tested store beatFirst _ _ = true) hbefore
  have hlater : System.Reachable store _ σ τ :=
    System.Reachable.of_play_tested .start (fun υ i hυ => hallowed υ i (hreach.trans hυ))
      (rfl : System.tested store beatFirst _ _ = true) hafter
  obtain ⟨later, hfound, hle⟩ := lastSeen_never_decreases sampleEnvironment (sampleReports 5 10)
    sampleDb _ sampleHost.id host hreach hlater hhost
  rw [hfound] at hlast
  exact ⟨σ, τ, host, later, hbefore, hafter, hhost, hseen, hfound, Option.some.inj hlast, hle⟩

/-- A heartbeat of instant 10 is accepted, and then a snapshot of instant 5: the host was last
seen at 10, and later at 5. -/
theorem lastSeen_decreases :
    ∃ σ τ, System.Reachable store System.anyOrder (sampleReporting 10 5) σ ∧
      System.Reachable store System.anyOrder σ τ ∧
      (σ.db.getHost sampleHost.id).map Host.lastSeen = some 10 ∧
      (τ.db.getHost sampleHost.id).map Host.lastSeen = some 5 := by
  obtain ⟨σ, hplay, hbefore, τ, hlater, hafter⟩ : ∃ σ,
      System.play store (List.replicate 20 true) (sampleReporting 10 5) = some σ ∧
        (σ.db.getHost sampleHost.id).map Host.lastSeen = some 10 ∧
        ∃ τ, System.play store (List.replicate 20 false) σ = some τ ∧
          (τ.db.getHost sampleHost.id).map Host.lastSeen = some 5 := ⟨_, rfl, rfl, _, rfl, rfl⟩
  exact ⟨σ, τ, .of_play .start hplay, .of_play .start hlater, hbefore, hafter⟩

end Central
