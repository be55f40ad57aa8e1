/-
# Remote bind probes

Queueing a probe for a host's agent, classifying the evidence a recorded probe
gives, and the bounded loop in which the candidate searches skip ports that a
fresh probe found occupied.
-/

import PortForge.Central.Repositories
import PortForge.Central.Health
import Mathlib.Data.Finset.Insert

namespace Central

open Transaction

/-- What recorded evidence says about a binding. -/
inductive BindProbe
  | notRemoteCapable
  | verifiedFree
  | verifiedOccupied
  | expired
  | unavailable
  deriving DecidableEq

/-- The wildcard address, the default of every probe function. -/
def defaultBindAddress : String := "0.0.0.0"

/-- `MAX_PROBE_SKIP_ATTEMPTS`. -/
def maxProbeSkipAttempts : ℕ := 5

/-- `db.get(Host, host_id)`: the identity map answers when the session already holds
the object. -/
def findHost (loaded : Option Host) (hostId : Uuid) : Service (Option Host) :=
  match loaded with
  | some host => pure (some host)
  | none => select fun db => db.getHost hostId

/-- The insertion at the end of `queue_probe`: flushed, never committed here. -/
def insertProbe (env : Environment) (hostId : Uuid) (port : ℕ) (protocol : Protocol)
    (bindAddress : String) (now : ℤ) : Service (Option HostProbe) := do
  let id ← newUuid
  let createdAt ← serverNow
  let probe : HostProbe :=
    { id := id
      hostId := hostId
      port := port
      protocol := protocol
      bindAddress := bindAddress
      status := .pending
      resultAvailable := none
      expiresAt := now + env.settings.remoteProbeTtlSeconds * 1000000
      createdAt := createdAt }
  add (.insertProbe probe)
  flush
  pure (some probe)

/-- `queue_probe` for a host that exists and is healthy: an active probe is reused, and
the number of active probes is bounded. -/
def queueForHealthy (env : Environment) (hostId : Uuid) (port : ℕ) (protocol : Protocol)
    (bindAddress : String) (now : ℤ) : Service (Option HostProbe) := do
  let existing ← select fun db => db.findLatestForBinding hostId port protocol bindAddress
  match existing.filter fun probe =>
      (probe.status = .pending ∨ probe.status = .delivered) ∧ now ≤ probe.expiresAt with
  | some probe => pure (some probe)
  | none => do
      let active ← select fun db => db.countActiveForHost hostId now
      if active ≥ env.settings.maxPendingProbesPerHost then pure none
      else insertProbe env hostId port protocol bindAddress now

/-- `queue_probe`: queue a probe for the host's next heartbeat. `loaded` is the host
object the session holds, if any. -/
def queueProbe (env : Environment) (loaded : Option Host) (hostId : Uuid) (port : ℕ)
    (protocol : Protocol) (bindAddress : String := defaultBindAddress) :
    Service (Option HostProbe) := do
  let now ← clock
  let host ← findHost loaded hostId
  match host with
  | none => pure none
  | some host =>
      if (env.health host.lastSeen now).1 ≠ .healthy then pure none
      else queueForHealthy env hostId port protocol bindAddress now

/-- `ProbeRepository.get`. -/
def Db.getProbe (db : Db) (probeId : Uuid) : Option HostProbe :=
  db.probes.find? fun row => row.id = probeId

/-- `db.refresh(probe)`. -/
def refreshProbe (probeId : Uuid) : Service HostProbe := do
  let row ← select fun db => db.getProbe probeId
  match row with
  | some probe => pure probe
  | none => raise .invalidRequest

/-- What `submit_result` does with the probe it has found: a probe that has a result keeps
it. -/
def submitFor (authenticatedHostId : Uuid) (probe : HostProbe) (available : Option Bool)
    (reason : Option String) : Service HostProbe :=
  if probe.hostId ≠ authenticatedHostId then
    let probeText := probe.id.text
    raise (.probeOwnership (s!"Probe {probeText} belongs to a different host than the " ++
      "authenticated credential."))
  else if probe.status = .completed ∨ probe.status = .failed then pure probe
  else do
    let now ← clock
    add (.answerProbe probe.id now available reason)
    commit
    refreshProbe probe.id

/-- `submit_result`. -/
def submitResult (authenticatedHostId probeId : Uuid) (available : Option Bool)
    (reason : Option String) : Service HostProbe := do
  let row ← select fun db => db.getProbe probeId
  match row with
  | none =>
      let probeText := probeId.text
      raise (.lookup s!"No probe with id '{probeText}'.")
  | some probe => submitFor authenticatedHostId probe available reason

/-- `classify_bind_probe`: a failed attempt and an expired result are no evidence
either way. -/
def classifyBindProbe (probe : Option HostProbe) (now : ℤ) : BindProbe :=
  match probe with
  | none => .notRemoteCapable
  | some probe =>
      if probe.status = .failed then .unavailable
      else if probe.expiresAt < now then
        if probe.status = .completed then .expired else .notRemoteCapable
      else if probe.status ≠ .completed then .notRemoteCapable
      else if probe.resultAvailable = some true then .verifiedFree
      else .verifiedOccupied

/-- `ProbeEvidence`. -/
structure ProbeEvidence where
  bindProbe : BindProbe
  probe : Option HostProbe
  deriving DecidableEq

/-- The evidence the contents hold on a binding at an instant. -/
def Db.probeEvidence (db : Db) (hostId : Uuid) (port : ℕ) (protocol : Protocol)
    (bindAddress : String) (now : ℤ) : BindProbe :=
  classifyBindProbe (db.findLatestForBinding hostId port protocol bindAddress) now

/-- `get_probe_evidence`. -/
def getProbeEvidence (hostId : Uuid) (port : ℕ) (protocol : Protocol)
    (bindAddress : String := defaultBindAddress) : Service ProbeEvidence := do
  let probe ← select fun db => db.findLatestForBinding hostId port protocol bindAddress
  let now ← clock
  pure { bindProbe := classifyBindProbe probe now, probe := probe }

/-- `CandidateSearchResult`. -/
structure CandidateSearchResult where
  port : Option ℕ
  candidatesConsidered : ℕ
  excluded : List ℕ
  deriving DecidableEq

/-- The loop of `resolve_with_probe_awareness` with `attempts` rounds left: a candidate
that a fresh probe found occupied is excluded and the search repeated. -/
def skipOccupied (env : Environment) (loaded : Option Host) (hostId : Uuid) (protocol : Protocol)
    (refine : Finset ℕ → Service CandidateSearchResult) :
    ℕ → Finset ℕ → CandidateSearchResult → Service (CandidateSearchResult × BindProbe)
  | 0, _, result => pure (result, .notRemoteCapable)
  | attempts + 1, exclude, result =>
      match result.port with
      | none => pure (result, .notRemoteCapable)
      | some port => do
          let evidence ← getProbeEvidence hostId port protocol
          match evidence.bindProbe with
          | .verifiedOccupied => do
              let result ← refine (insert port exclude)
              skipOccupied env loaded hostId protocol refine attempts (insert port exclude) result
          | .verifiedFree => pure (result, .verifiedFree)
          | bindProbe => do
              let _ ← queueProbe env loaded hostId port protocol
              pure (result, bindProbe)

/-- `resolve_with_probe_awareness`. -/
def resolveWithProbeAwareness (env : Environment) (loaded : Option Host) (hostId : Uuid)
    (protocol : Protocol) (initialResult : CandidateSearchResult)
    (refine : Finset ℕ → Service CandidateSearchResult) :
    Service (CandidateSearchResult × BindProbe) :=
  skipOccupied env loaded hostId protocol refine maxProbeSkipAttempts ∅ initialResult

/-! ## What probing can do to a session -/

/-- The write inserts a probe row. -/
def Write.IsProbe : Write → Prop
  | .insertProbe _ => True
  | _ => False

/-- The write inserts a probe for a port of a host. -/
def Write.IsProbeFor (hostId : Uuid) (port : ℕ) : Write → Prop
  | .insertProbe row => row.hostId = hostId ∧ row.port = port
  | _ => False

theorem Write.IsProbeFor.isProbe {hostId : Uuid} {port : ℕ} {write : Write}
    (h : write.IsProbeFor hostId port) : write.IsProbe := by
  cases write <;> trivial

/-- A program that stays inside its transaction and adds only writes of one kind. -/
structure Staging {α : Type} (P : Write → Prop) (p : Service α) : Prop where
  holding : p.Holding
  adds : p.Adds P

theorem Staging.bind {α β : Type} {P : Write → Prop} {p : Service α} {f : α → Service β}
    (hp : Staging P p) (hf : ∀ value, Staging P (f value)) : Staging P (p >>= f) :=
  ⟨hp.holding.bind fun value => (hf value).holding, hp.adds.bind fun value => (hf value).adds⟩

theorem Staging.of_observes {α : Type} {P : Write → Prop} {p : Service α} (h : p.Observes) :
    Staging P p :=
  ⟨h.holding, h.adds⟩

/-- A program that stays inside its transaction and adds nothing but probe rows. -/
abbrev ProbesOnly {α : Type} (p : Service α) : Prop := Staging Write.IsProbe p

theorem observes_getProbeEvidence (hostId : Uuid) (port : ℕ) (protocol : Protocol)
    (bindAddress : String) : (getProbeEvidence hostId port protocol bindAddress).Observes :=
  fun _ _ => trivial

theorem observes_findHost (loaded : Option Host) (hostId : Uuid) :
    (findHost loaded hostId).Observes := by
  cases loaded with
  | none => exact observes_select
  | some host => trivial

theorem staging_insertProbe (env : Environment) (hostId : Uuid) (port : ℕ)
    (protocol : Protocol) (bindAddress : String) (now : ℤ) :
    Staging (Write.IsProbeFor hostId port)
      (insertProbe env hostId port protocol bindAddress now) where
  holding := fun _ _ => ⟨trivial, fun _ => trivial⟩
  adds := by
    refine fun _ _ => ⟨⟨rfl, rfl⟩, ?_⟩
    rintro (_ | _) <;> trivial

theorem staging_queueForHealthy (env : Environment) (hostId : Uuid) (port : ℕ)
    (protocol : Protocol) (bindAddress : String) (now : ℤ) :
    Staging (Write.IsProbeFor hostId port)
      (queueForHealthy env hostId port protocol bindAddress now) := by
  refine Staging.bind (.of_observes observes_select) fun existing => ?_
  split
  · exact Staging.of_observes trivial
  · refine Staging.bind (.of_observes observes_select) fun active => ?_
    split
    · exact Staging.of_observes trivial
    · exact staging_insertProbe env hostId port protocol bindAddress now

/-- Queueing adds at most a probe for the port it is asked about. -/
theorem staging_queueProbe (env : Environment) (loaded : Option Host) (hostId : Uuid)
    (port : ℕ) (protocol : Protocol) (bindAddress : String) :
    Staging (Write.IsProbeFor hostId port)
      (queueProbe env loaded hostId port protocol bindAddress) := by
  refine Staging.bind (.of_observes observes_clock) fun now => ?_
  refine Staging.bind (.of_observes (observes_findHost loaded hostId)) fun host => ?_
  cases host with
  | none => exact Staging.of_observes trivial
  | some host =>
      simp only
      split
      · exact Staging.of_observes trivial
      · exact staging_queueForHealthy env hostId port protocol bindAddress now

theorem probesOnly_queueProbe (env : Environment) (loaded : Option Host) (hostId : Uuid)
    (port : ℕ) (protocol : Protocol) (bindAddress : String) :
    ProbesOnly (queueProbe env loaded hostId port protocol bindAddress) :=
  let h := staging_queueProbe env loaded hostId port protocol bindAddress
  ⟨h.holding, h.adds.mono fun _ hwrite => hwrite.isProbe⟩

theorem probesOnly_skipOccupied (env : Environment) (loaded : Option Host) (hostId : Uuid)
    (protocol : Protocol) {refine : Finset ℕ → Service CandidateSearchResult}
    (hrefine : ∀ exclude, ProbesOnly (refine exclude)) (attempts : ℕ) (exclude : Finset ℕ)
    (result : CandidateSearchResult) :
    ProbesOnly (skipOccupied env loaded hostId protocol refine attempts exclude result) := by
  induction attempts generalizing exclude result with
  | zero => exact Staging.of_observes trivial
  | succ attempts ih =>
      rw [skipOccupied]
      split
      · exact Staging.of_observes trivial
      · rename_i port _
        refine Staging.bind
          (.of_observes (observes_getProbeEvidence hostId port protocol _)) fun evidence => ?_
        split
        · exact Staging.bind (hrefine _) fun next => ih _ next
        · exact Staging.of_observes trivial
        · refine Staging.bind
            (probesOnly_queueProbe env loaded hostId port protocol _) fun _ => ?_
          exact Staging.of_observes trivial

end Central
