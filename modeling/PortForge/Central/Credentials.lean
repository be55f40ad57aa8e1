/-
# Credentials

Tokens are minted, hosts enrolled, decommissioned, reactivated and removed, one call after
another. What a call that runs alone commits is described by `Rotates`; from it follows that
a host has one live credential at most and a decommissioned host none, that a revoked
credential stays revoked, and that a refused enrollment changes nothing.
-/

import PortForge.Central.UpgradeLaw
import PortForge.Central.Enrollment
import PortForge.Transaction.Turns

namespace Central

open Transaction

/-- A call that concerns tokens or credentials. -/
inductive CredentialCall
  | mint (label : Option String) (ttlHours : ℤ)
  | enroll (enrollment : EnrollmentIn)
  | decommission (hostId : Uuid) (reason : Option String)
  | reactivate (hostId : Uuid)
  | remove (hostId : Uuid)

/-- What a call runs; of its answer only the exception plays a part here. -/
def CredentialCall.program (env : Environment) : CredentialCall → Service Unit
  | mint label ttlHours => (mintEnrollmentTokenEndpoint env label ttlHours).bind fun _ => .ret ()
  | enroll enrollment => (enrollHost env enrollment).bind fun _ => .ret ()
  | decommission hostId reason => (decommissionHostEndpoint hostId reason).bind fun _ => .ret ()
  | reactivate hostId => (reactivateHostEndpoint hostId).bind fun _ => .ret ()
  | remove hostId => removeHostRecord hostId

/-! ## The contents -/

/-- The host has a credential that is not revoked. -/
def Db.Live (db : Db) (hostId : Uuid) : Prop :=
  ∃ row ∈ db.credentials, row.hostId = hostId ∧ row.revokedAt = none

/-- The host is on file as decommissioned. -/
def Db.Decommissioned (db : Db) (hostId : Uuid) : Prop :=
  ∃ host ∈ db.hosts, host.id = hostId ∧ host.lifecycleState = .decommissioned

/-- Every host has one live credential at most, and a decommissioned one has none. -/
structure Db.Disciplined (db : Db) : Prop where
  hosts : (db.hosts.map Host.id).Nodup
  ids : (db.credentials.map AgentCredential.id).Nodup
  hashes : (db.credentials.map AgentCredential.tokenHash).Nodup
  single : ∀ a ∈ db.credentials, ∀ b ∈ db.credentials, a.hostId = b.hostId →
    a.revokedAt = none → b.revokedAt = none → a = b
  retired : ∀ hostId, db.Decommissioned hostId → ¬ db.Live hostId

/-- The writes that revoke the live credentials of a host. -/
def revocations (db : Db) (hostId : Uuid) (now : ℤ) : List Write :=
  (db.activeCredentials hostId).map fun row => .revokeCredential row.id now

/-- The write that registers a host. -/
inductive Registers (db : Db) (hostId : Uuid) (report : HostReport) (now : ℤ) : Write → Prop
  | first (hnew : db.getHost hostId = none) :
      Registers db hostId report now (.insertHost (firstHost hostId report now))
  | again : Registers db hostId report now (.reportHost hostId report now)

/-- The write leaves hosts, tokens and credentials alone. -/
def Write.SparesCredentials : Write → Prop
  | .insertHost _ => False
  | .reportHost _ _ _ => False
  | .scanHost _ _ => False
  | .decommissionHost _ _ _ => False
  | .reactivateHost _ => False
  | .purgeHost .credentials _ => False
  | .deleteHost _ => False
  | .setHostError _ _ => False
  | .insertToken _ => False
  | .consumeToken _ _ _ => False
  | .forgetConsumer _ => False
  | .insertCredential _ => False
  | .revokeCredential _ _ => False
  | _ => True

/-- What a call that runs alone on `db` commits. -/
inductive Rotates (env : Environment) (draws : ℕ → Draw) (db : Db) :
    CredentialCall → List Write → Prop
  | nothing (call : CredentialCall) : Rotates env draws db call []
  | minted (label : Option String) (ttlHours : ℤ) (row : EnrollmentToken) :
      Rotates env draws db (.mint label ttlHours) [.insertToken row]
  | enrolled (enrollment : EnrollmentIn) (token : EnrollmentToken) (now : ℤ) (register : Write)
      (credential : AgentCredential)
      (hactive : ∀ host, db.getHost enrollment.hostId = some host →
        host.lifecycleState ≠ .decommissioned)
      (hregister : Registers db enrollment.hostId enrollment.report now register)
      (hhost : credential.hostId = enrollment.hostId)
      (hdrawn : ∃ j, credential.tokenHash = env.hashToken (draws j).uuid.text)
      (haccepted : store.refuses
        (store.applyAll (register :: revocations db enrollment.hostId now) db)
        (.insertCredential credential) = none) :
      Rotates env draws db (.enroll enrollment)
        (register :: revocations db enrollment.hostId now ++
          [.insertCredential credential, .consumeToken token.id enrollment.hostId now])
  | decommissioned (hostId : Uuid) (reason cleaned : Option String) (now : ℤ) (others : List Write)
      (hothers : ∀ write ∈ others, write.SparesCredentials) :
      Rotates env draws db (.decommission hostId reason)
        (.decommissionHost hostId now cleaned :: revocations db hostId now ++ others)
  | reactivated (hostId : Uuid) (event : ActivityEvent)
      (hretired : db.Decommissioned hostId) :
      Rotates env draws db (.reactivate hostId) [.reactivateHost hostId, .insertActivity event]
  | removed (hostId : Uuid) :
      Rotates env draws db (.remove hostId)
        (.forgetConsumer hostId :: dependentTables.map (fun table => .purgeHost table hostId) ++
          [.deleteHost hostId])

/-! ## The calls, run alone -/

section Alone

variable {guar : ServiceSession → Prop} {s : ServiceSession} {db : Db}

/-- A session that has committed nothing sees what it has flushed on the contents it
started on. -/
theorem view_of_uncommitted (hcommitted : s.committedWrites = []) {seen : Db}
    (hseen : Program.alone store db s seen) : s.view store seen = store.applyAll s.flushed db := by
  rw [Program.alone, hcommitted, Store.applyAll_nil] at hseen
  rw [hseen, Session.view]

/-- The registration of a host: a single write, flushed. -/
theorem ensures_upsertHost (hostId : Uuid) (report : HostReport) (now : ℤ) (hs : Blank s) :
    (upsertHost hostId report now).Ensures store (Program.alone store db) guar s
      fun s' result => s'.committedWrites = [] ∧ (result = .ok () → s'.draws = s.draws ∧
        s'.pending = [] ∧ ∃ register, Registers db hostId report now register ∧
          s'.flushed = [register]) := by
  have hwrite (register : Write) (hregister : Registers db hostId report now register) :
      ((add register).bind fun _ => flush).Ensures store (Program.alone store db) guar s
        fun s' result => s'.committedWrites = [] ∧ (result = .ok () → s'.draws = s.draws ∧
          s'.pending = [] ∧ ∃ register, Registers db hostId report now register ∧
            s'.flushed = [register]) := by
    rw [Program.ensures_bind, ensures_add, ensures_flush]
    refine ⟨fun _ _ _ => ⟨hs.committed, fun _ => ⟨rfl, rfl, register, hregister, ?_⟩⟩,
      fun _ error _ _ => ⟨?_, nofun⟩⟩
    · rw [Session.afterFlush_flushed, Session.afterAdd_batch, hs.batch, List.nil_append]
    · rw [Session.committedWrites_afterFailure]
      exact hs.committed
  simp only [upsertHost, Program.bind_eq, Program.ensures_bind, ensures_select]
  intro seen hseen
  rw [hs.view_eq hseen]
  cases hget : db.getHost hostId with
  | none => exact hwrite _ (.first hget)
  | some host => exact hwrite _ .again

/-- The revocation of the live credentials of a host, of which there is one at most. -/
theorem ensures_revokeActiveCredential (hostId : Uuid) (now : ℤ)
    (hcommitted : s.committedWrites = [])
    (hcredentials : (store.applyAll s.flushed db).credentials = db.credentials) :
    (revokeActiveCredential hostId now).Ensures store (Program.alone store db) guar s
      fun s' result => s'.committedWrites = [] ∧ (result = .ok () → s'.draws = s.draws ∧
        s'.batch = s.batch ++ revocations db hostId now ∧ (s.pending = [] → s'.pending = [])) := by
  simp only [revokeActiveCredential, Program.bind_eq, Program.ensures_bind, ensures_select]
  intro seen hseen
  have hactive : (s.view store seen).activeCredentials hostId = db.activeCredentials hostId := by
    rw [view_of_uncommitted hcommitted hseen, Db.activeCredentials, hcredentials]
    rfl
  rw [hactive, revocations]
  rcases db.activeCredentials hostId with _ | ⟨credential, _ | ⟨other, others⟩⟩
  · exact ⟨hcommitted, fun _ => ⟨rfl, by simp, id⟩⟩
  ·
      simp only [scalarOneOrNone, Program.pure_eq_ret, Program.ensures_ret, Program.ensures_bind,
        ensures_add, ensures_flush]
      refine ⟨fun _ _ _ => ⟨hcommitted, fun _ => ⟨rfl, ?_, fun _ => rfl⟩⟩, fun _ error _ _ =>
          ⟨?_, fun h => by cases h⟩⟩
      · rw [Session.afterFlush_batch, Session.afterAdd_batch]
        rfl
      · rw [Session.committedWrites_afterFailure]
        exact hcommitted
  · exact ⟨hcommitted, fun h => by cases h⟩

/-- What a call leaves that has committed one batch of a kind, or has failed. -/
def Concludes {α : Type} (kind : List Write → Prop) (s' : ServiceSession)
    (result : Except Failure α) : Prop :=
  (∃ error, result = .error error) ∧ s'.committedWrites = [] ∨
    (∃ value, result = .ok value) ∧ kind s'.committedWrites

theorem concludes_error {α : Type} {kind : List Write → Prop} {failure : Failure}
    (hcommitted : s.committedWrites = []) : Concludes kind s (.error failure : Except Failure α) :=
  .inl ⟨⟨_, rfl⟩, hcommitted⟩

/-- A commit at the end of a call. -/
theorem concludes_commit {α : Type} {kind : List Write → Prop} {value : α}
    (hguar : ∀ s, s.committedWrites = [] → kind s.batch → guar s)
    (hcommitted : s.committedWrites = []) (hkind : kind s.batch) :
    (commit.bind fun _ => .ret value).Ensures store (Program.alone store db) guar s
      (Concludes kind) := by
  rw [Program.ensures_bind, ensures_commit]
  refine ⟨hguar s hcommitted hkind, fun _ _ _ => .inr ⟨⟨value, rfl⟩, ?_⟩,
    fun _ error _ _ => concludes_error ?_⟩
  · rw [Session.committedWrites_afterCommit, hcommitted]
    exact hkind
  · rw [Session.committedWrites_afterFailure, hcommitted]

theorem concludes_commit_unit {kind : List Write → Prop}
    (hguar : ∀ s, s.committedWrites = [] → kind s.batch → guar s)
    (hcommitted : s.committedWrites = []) (hkind : kind s.batch) :
    commit.Ensures store (Program.alone store db) guar s (Concludes kind) := by
  have hcommit : (commit.bind fun _ => .ret ()).Ensures store (Program.alone store db) guar s
      (Concludes kind) := concludes_commit hguar hcommitted hkind
  rwa [Program.bind_ret] at hcommit

theorem credentials_register {hostId : Uuid} {report : HostReport} {now : ℤ} {register : Write}
    (h : Registers db hostId report now register) :
    (store.applyAll [register] db).credentials = db.credentials := by
  cases h <;> rfl

/-- What an enrollment does once its host is registered. -/
def enrollRegistered (env : Environment) (enrollment : EnrollmentIn) (token : EnrollmentToken)
    (now : ℤ) : Service EnrollmentResult := do
  let agentToken ← generateToken
  replaceCredential enrollment.hostId (env.hashToken agentToken) now
  consumeToken token enrollment.hostId now
  commit
  pure { hostId := enrollment.hostId, agentToken := agentToken }

theorem enrollAccepted_eq (env : Environment) (enrollment : EnrollmentIn) (token : EnrollmentToken)
    (now : ℤ) : enrollAccepted env enrollment token now =
      (upsertHost enrollment.hostId enrollment.report now).bind fun _ =>
        enrollRegistered env enrollment token now := rfl

/-- The batch of an enrollment that is alone on `db` from the registration of its host on. -/
inductive Issues (env : Environment) (draws : ℕ → Draw) (db : Db) (enrollment : EnrollmentIn)
    (token : EnrollmentToken) : List Write → Prop
  | issued (now : ℤ) (register : Write) (credential : AgentCredential)
      (hregister : Registers db enrollment.hostId enrollment.report now register)
      (hhost : credential.hostId = enrollment.hostId)
      (hdrawn : ∃ j, credential.tokenHash = env.hashToken (draws j).uuid.text)
      (haccepted : store.refuses
        (store.applyAll (register :: revocations db enrollment.hostId now) db)
        (.insertCredential credential) = none) :
      Issues env draws db enrollment token
        (register :: revocations db enrollment.hostId now ++
          [.insertCredential credential, .consumeToken token.id enrollment.hostId now])

theorem Issues.rotates {env : Environment} {draws : ℕ → Draw} {enrollment : EnrollmentIn}
    {token : EnrollmentToken} {batch : List Write} (h : Issues env draws db enrollment token batch)
    (hactive : ∀ host, db.getHost enrollment.hostId = some host →
      host.lifecycleState ≠ .decommissioned) :
    Rotates env draws db (.enroll enrollment) batch := by
  cases h with
  | issued now register credential hregister hhost hdrawn haccepted =>
      exact .enrolled enrollment token now register credential hactive hregister hhost hdrawn
        haccepted

/-- An enrollment whose host is registered. -/
theorem concludes_enrollRegistered (env : Environment) (enrollment : EnrollmentIn)
    (token : EnrollmentToken) (now : ℤ) {draws : ℕ → Draw}
    (hguar : ∀ s, s.committedWrites = [] → Issues env draws db enrollment token s.batch → guar s)
    (hdraws : ∃ j, s.draws 0 = draws j) (hcommitted : s.committedWrites = [])
    (hpending : s.pending = []) {register : Write}
    (hregister : Registers db enrollment.hostId enrollment.report now register)
    (hflushed : s.flushed = [register]) :
    (enrollRegistered env enrollment token now).Ensures store (Program.alone store db) guar s
      (Concludes (Issues env draws db enrollment token)) := by
  refine Program.Ensures.bind (M := fun s' result =>
    s' = s.afterDraw ∧ result = .ok (s.draws 0).uuid.text) ⟨rfl, rfl⟩ ?_ ?_
  · rintro _ agentToken ⟨rfl, htoken⟩
    obtain rfl := Except.ok.inj htoken
    have hcredentials : (store.applyAll s.afterDraw.flushed db).credentials = db.credentials := by
      rw [show s.afterDraw.flushed = [register] from hflushed]
      exact credentials_register hregister
    refine Program.Ensures.bind (M := fun s' result => s'.committedWrites = [] ∧
      (result = .ok () → s'.pending = [] ∧ ∃ credential : AgentCredential,
        credential.hostId = enrollment.hostId ∧
        credential.tokenHash = env.hashToken (s.draws 0).uuid.text ∧
        store.refuses (store.applyAll (register :: revocations db enrollment.hostId now) db)
          (.insertCredential credential) = none ∧
        s'.flushed = register :: revocations db enrollment.hostId now ++
          [.insertCredential credential])) ?_ ?_ ?_
    · -- The old credentials are revoked, then the new one is inserted.
      refine Program.Ensures.bind (ensures_revokeActiveCredential enrollment.hostId now hcommitted
        hcredentials) ?_ fun _ _ hend => ⟨hend.1, fun h => by cases h⟩
      rintro s₂ _ ⟨hcommitted₂, hrevoked⟩
      obtain ⟨-, hbatch, hempty⟩ := hrevoked rfl
      have hpending₂ : s₂.pending = [] := hempty hpending
      have hflushed₂ : s₂.flushed = register :: revocations db enrollment.hostId now := by
        have hall : s₂.batch = s₂.flushed := by rw [Session.batch, hpending₂, List.append_nil]
        rw [← hall, hbatch, Session.batch]
        simp [hflushed, hpending]
      simp only [Program.bind_eq, Program.ensures_bind, ensures_newUuid, ensures_add, ensures_flush]
      let credential : AgentCredential :=
        { id := (s₂.draws 0).uuid
          hostId := enrollment.hostId
          tokenHash := env.hashToken (s.draws 0).uuid.text
          createdAt := now
          revokedAt := none }
      refine ⟨fun seen hseen haccepted => ⟨hcommitted₂, fun _ => ⟨rfl, credential, rfl, rfl,
          ?_, ?_⟩⟩,
        fun _ error _ _ => ⟨?_, fun h => by cases h⟩⟩
      · have hrefused := Session.refusesAll_of_flushError haccepted
        rw [view_of_uncommitted (s := (s₂.afterDraw).afterAdd _) hcommitted₂ hseen] at hrefused
        simp only [Session.afterAdd, Session.afterDraw, hpending₂, List.nil_append,
            hflushed₂] at hrefused
        exact (Store.refusesAll_cons_eq_none store).mp hrefused |>.1
      · rw [Session.afterFlush_flushed, Session.afterAdd_batch, Session.batch]
        simp [Session.afterDraw, hpending₂, hflushed₂, credential]
      · rw [Session.committedWrites_afterFailure]
        exact hcommitted₂
    · rintro s₃ _ ⟨hcommitted₃, hinserted⟩
      obtain ⟨hpending₃, credential, hhost, hhash, haccepted, hflushed₃⟩ := hinserted rfl
      simp only [consumeToken, Program.bind_eq, Program.bind_assoc, Program.ensures_bind,
          ensures_add,
        ensures_flush]
      refine ⟨fun _ _ _ => ?_, fun _ error _ _ => concludes_error ?_⟩
      · refine concludes_commit hguar hcommitted₃ ?_
        have hbatch : ((s₃.afterAdd (.consumeToken token.id enrollment.hostId
            now)).afterFlush).batch =
            register :: revocations db enrollment.hostId now ++
              [.insertCredential credential, .consumeToken token.id enrollment.hostId now] := by
          rw [Session.afterFlush_batch, Session.afterAdd_batch, Session.batch, hpending₃, hflushed₃]
          simp
        rw [hbatch]
        obtain ⟨j, hj⟩ := hdraws
        exact .issued now register credential hregister hhost
          ⟨j, by rw [hhash, hj]⟩ haccepted
      · rw [Session.committedWrites_afterFailure]
        exact hcommitted₃
    · exact fun _ _ hend => concludes_error hend.1
  · rintro _ _ ⟨-, hvalue⟩
    cases hvalue

/-- An enrollment whose token and host are accepted. -/
theorem concludes_enrollAccepted (env : Environment) (enrollment : EnrollmentIn)
    (token : EnrollmentToken) (now : ℤ) {draws : ℕ → Draw}
    (hguar : ∀ s, s.committedWrites = [] → Issues env draws db enrollment token s.batch → guar s)
    (hs : Blank s) (hdraws : ∃ j, s.draws 0 = draws j) :
    (enrollAccepted env enrollment token now).Ensures store (Program.alone store db) guar s
      (Concludes (Issues env draws db enrollment token)) := by
  rw [enrollAccepted_eq]
  refine Program.Ensures.bind (ensures_upsertHost enrollment.hostId enrollment.report now hs) ?_
    fun _ _ hend => concludes_error hend.1
  rintro s₁ _ ⟨hcommitted, hregistered⟩
  obtain ⟨hdraws₁, hpending, register, hregister, hflushed⟩ := hregistered rfl
  exact concludes_enrollRegistered env enrollment token now hguar (hdraws₁ ▸ hdraws) hcommitted
    hpending hregister hflushed

/-- The batch of an enrollment that is alone on `db`, where its host is not decommissioned. -/
structure Enrolls (env : Environment) (draws : ℕ → Draw) (db : Db) (enrollment : EnrollmentIn)
    (token : EnrollmentToken) (batch : List Write) : Prop where
  issues : Issues env draws db enrollment token batch
  active : ∀ host, db.getHost enrollment.hostId = some host →
    host.lifecycleState ≠ .decommissioned
  unused : token.consumedAt = none

theorem Concludes.mono {α : Type} {kind kind' : List Write → Prop} {s' : ServiceSession}
    {result : Except Failure α} (h : Concludes kind s' result)
    (himp : ∀ batch, kind batch → kind' batch) : Concludes kind' s' result :=
  h.imp id fun hdone => ⟨hdone.1, himp _ hdone.2⟩

/-- An enrollment that has found its token. -/
theorem concludes_enrollWith (env : Environment) (enrollment : EnrollmentIn)
    (token : EnrollmentToken) {draws : ℕ → Draw}
    (hguar : ∀ s, s.committedWrites = [] → Enrolls env draws db enrollment token s.batch → guar s)
    (hs : Blank s) (hdraws : ∃ j, s.draws 1 = draws j) :
    (enrollWith env enrollment token).Ensures store (Program.alone store db) guar s
      (Concludes (Enrolls env draws db enrollment token)) := by
  simp only [enrollWith, Program.bind_eq, Program.ensures_bind, ensures_clock]
  rw [checkToken]
  split
  · exact concludes_error hs.committed
  · next hunused =>
      split
      · exact concludes_error hs.committed
      · simp only [Program.pure_eq_ret, Program.ensures_ret, ensures_select]
        intro seen hseen
        have hview : s.afterDraw.view store seen = db :=
          Blank.view_eq (s := s.afterDraw) ⟨hs.batch, hs.committed⟩ hseen
        rw [hview]
        split
        · exact concludes_error hs.committed
        · next hlooked =>
            have henrolls {batch : List Write} (hissues : Issues env draws db enrollment token
                batch) : Enrolls env draws db enrollment token batch := by
              refine ⟨hissues, fun host hget hstate => hlooked ?_, not_not.mp hunused⟩
              rw [hget]
              simpa using hstate
            refine (concludes_enrollAccepted env enrollment token _
              (fun s hcommitted hissues => hguar s hcommitted (henrolls hissues))
              (s := s.afterDraw) ⟨hs.batch, hs.committed⟩ hdraws).mono fun _ _ hend => ?_
            exact hend.mono fun _ hissues => henrolls hissues

/-- An enrollment commits the rotation of a credential, or fails and commits nothing. -/
theorem concludes_enrollHost (env : Environment) (enrollment : EnrollmentIn) {draws : ℕ → Draw}
    (hguar : ∀ s, s.committedWrites = [] → Rotates env draws db (.enroll enrollment) s.batch →
      guar s) (hs : Blank s) (hdraws : s.draws = draws) :
    (enrollHost env enrollment).Ensures store (Program.alone store db) guar s
      (Concludes (Rotates env draws db (.enroll enrollment))) := by
  simp only [enrollHost, Program.bind_eq, Program.ensures_bind, ensures_select]
  intro seen _
  rcases (s.view store seen).tokensByHash (env.hashToken enrollment.enrollmentToken) with
    _ | ⟨token, _ | ⟨other, others⟩⟩
  · exact concludes_error hs.committed
  ·   refine (concludes_enrollWith env enrollment token (fun s hcommitted henrolls =>
        hguar s hcommitted (henrolls.issues.rotates henrolls.active)) hs
        ⟨1, by rw [hdraws]⟩).mono fun _ _ hend => ?_
      exact hend.mono fun _ henrolls => henrolls.issues.rotates henrolls.active
  · exact concludes_error hs.committed

/-- A statement executed at once is flushed, or fails. -/
theorem ensures_execute (write : Write) (hcommitted : s.committedWrites = []) :
    (execute write).Ensures store (Program.alone store db) guar s fun s' result =>
      s'.committedWrites = [] ∧ (result = .ok () → s'.batch = s.batch ++ [write]) := by
  rw [execute, Program.bind_eq, Program.ensures_bind, ensures_add, ensures_flush]
  refine ⟨fun _ _ _ => ⟨hcommitted, fun _ => ?_⟩, fun _ error _ _ => ⟨?_, nofun⟩⟩
  · rw [Session.afterFlush_batch, Session.afterAdd_batch]
  · rw [Session.committedWrites_afterFailure]
    exact hcommitted

theorem concludes_mint (env : Environment) (draws : ℕ → Draw) (label : Option String) (ttlHours : ℤ)
    (hguar : ∀ s, guar s) (hs : Blank s) :
    (mintEnrollmentTokenEndpoint env label ttlHours).Ensures store (Program.alone store db) guar s
      (Concludes (Rotates env draws db (.mint label ttlHours))) := by
  have hgenerate (post : ServiceSession → Except Failure String → Prop) :
      generateToken.Ensures store (Program.alone store db) guar s post ↔
        post s.afterDraw (.ok (s.draws 0).uuid.text) := Iff.rfl
  simp only [mintEnrollmentTokenEndpoint, mintEnrollmentToken, Program.bind_eq, Program.bind_assoc]
  rw [Program.ensures_bind, hgenerate]
  simp only [Program.ensures_bind, ensures_clock, ensures_newUuid]
  refine Program.Ensures.mono (ensures_execute _ hs.committed) ?_
  rintro t (error | ⟨⟩) ⟨hcommitted, hbatch⟩
  · exact concludes_error hcommitted
  · refine (concludes_commit (fun s _ _ => hguar s) hcommitted ?_)
    rw [hbatch rfl]
    have hempty : (s.afterDraw.afterDraw.afterDraw).batch = [] := hs.batch
    rw [hempty]
    exact .minted label ttlHours _

theorem concludes_reactivate (env : Environment) (draws : ℕ → Draw) (hostId : Uuid)
    (hguar : ∀ s, guar s) (hs : Blank s) :
    (reactivateHost hostId >>= fun _ => commit).Ensures store (Program.alone store db) guar s
      (Concludes (Rotates env draws db (.reactivate hostId))) := by
  simp only [reactivateHost, Program.bind_eq, Program.bind_assoc, Program.ensures_bind,
      ensures_select]
  intro seen hseen
  rw [hs.view_eq hseen]
  cases hget : db.getHost hostId with
  | none => exact concludes_error hs.committed
  | some host =>
      have hid : host.id = hostId := by simpa using List.find?_some hget
      simp only
      split
      · exact concludes_error hs.committed
      · next hstate =>
          have hretired : db.Decommissioned hostId :=
            ⟨host, List.mem_of_find?_eq_some hget, hid, not_not.mp hstate⟩
          simp only [Program.ensures_bind, ensures_clock, ensures_add, ensures_newUuid,
              ensures_flush]
          refine ⟨fun _ _ _ => ?_, fun _ error _ _ => concludes_error ?_⟩
          · refine concludes_commit_unit (fun s _ _ => hguar s) hs.committed ?_
            have hempty : s.batch = [] := hs.batch
            rw [Session.afterFlush_batch, Session.afterAdd_batch]
            change s.flushed ++ (s.pending ++ [_]) ++ [_] |> Rotates env draws db _
            rw [← List.append_assoc s.flushed, show s.flushed ++ s.pending = [] from hempty]
            exact .reactivated hostId _ hretired
          · rw [Session.committedWrites_afterFailure]
            exact hs.committed

/-- What ends the allocations and upgrades of a host spares its credentials. -/
theorem adds_releaseAllocations (hostId : Uuid) (now : ℤ) (rows : List CentralReservation)
    (allocations : List Allocation) :
    (releaseAllocations hostId now rows allocations).Adds Write.SparesCredentials := by
  have hrows : ∀ (allocationId : Uuid) (rows : List CentralReservation),
      (releaseRows hostId allocationId (pure now) rows).Adds Write.SparesCredentials := by
    intro allocationId rows
    induction rows with
    | nil => trivial
    | cons row rows ih =>
        rw [releaseRows]
        split
        · exact ⟨trivial, fun _ => ⟨trivial, ih⟩⟩
        · exact ih
  induction allocations with
  | nil => trivial
  | cons allocation allocations ih =>
      exact (hrows allocation.id rows).bind fun _ => ⟨trivial, ih⟩

theorem adds_failUpgrades (reason : String) (now : ℤ) (ids : List Uuid) :
    (failUpgrades reason now ids).Adds Write.SparesCredentials := by
  induction ids with
  | nil => trivial
  | cons id ids ih => exact ⟨trivial, ih⟩

/-- A host that is retired: it is marked, its credential revoked, and the rest spares the
credentials. -/
theorem stages_retireHost (env : Environment) (hostId : Uuid) (host : Host)
    (reason cleaned : Option String) (now : ℤ) {draws : ℕ → Draw} (hs : Blank s) :
    (retireHost hostId host cleaned now).Ensures store (Program.alone store db) guar s
      (Stages (Rotates env draws db (.decommission hostId reason))) := by
  have hflushed : s.flushed = [] := (List.append_eq_nil_iff.mp hs.batch).1
  have hcredentials : (store.applyAll (s.afterAdd (.decommissionHost hostId now cleaned)).flushed
      db).credentials = db.credentials := by
    rw [Session.afterAdd_flushed, hflushed]
    rfl
  rw [retireHost, Program.bind_eq, Program.ensures_bind, ensures_add]
  refine Program.Ensures.bind (ensures_revokeActiveCredential hostId now hs.committed hcredentials)
      ?_
    fun _ _ hend => ⟨hend.1, nofun⟩
  rintro t _ ⟨hcommitted, hrevoked⟩
  obtain ⟨-, hbatch, -⟩ := hrevoked rfl
  let rest : Service Unit := do
    releaseActiveAllocations hostId now
    failActiveForHost hostId "host_decommissioned" now
    let id ← newUuid
    add (.insertActivity (hostDecommissionedEvent hostId host cleaned id now))
    flush
  have hadds : rest.Adds Write.SparesCredentials := by
    refine Program.Adds.bind ?_ fun _ => Program.Adds.bind ?_ fun _ => ?_
    · exact observes_select.adds.bind fun activeRows => observes_select.adds.bind fun rows =>
        adds_releaseAllocations hostId now rows activeRows
    · exact observes_select.adds.bind fun ids => adds_failUpgrades _ now ids
    · exact fun _ => ⟨trivial, adds_flush⟩
  have hholding : rest.Holding := by
    refine Program.Holding.bind ?_ fun _ => Program.Holding.bind ?_ fun _ => ?_
    · exact Program.Holding.bind (fun _ => trivial) fun activeRows => Program.Holding.bind
        (fun _ => trivial) fun rows =>
            (staging_releaseAllocations hostId now rows activeRows).holding
    · exact Program.Holding.bind (fun _ => trivial) fun ids =>
        (staging_failUpgrades hostId _ now ids).holding
    · exact fun _ => holding_flush
  have hholds : rest.Ensures store (Program.alone store db) guar t _ := hholding.ensures
  refine ((hholding.ensures_grown hadds).and hholds).mono ?_
  rintro t' result ⟨hgrown, hcommitted', -⟩
  refine ⟨hcommitted'.trans hcommitted, fun value hvalue => ?_⟩
  obtain ⟨others, hall, hothers⟩ := hgrown value hvalue
  have hmarked : t.batch = .decommissionHost hostId now cleaned :: revocations db hostId now := by
    rw [hbatch, Session.afterAdd_batch, hs.batch]
    rfl
  rw [hall, hmarked]
  exact .decommissioned hostId reason cleaned now others hothers

theorem stages_decommissionHost (env : Environment) (draws : ℕ → Draw) (hostId : Uuid)
    (reason : Option String) (hs : Blank s) :
    (decommissionHost hostId reason).Ensures store (Program.alone store db) guar s
      (Stages (Rotates env draws db (.decommission hostId reason))) := by
  simp only [decommissionHost, Program.bind_eq, Program.ensures_bind, ensures_select]
  intro seen _
  cases (s.view store seen).getHost hostId with
  | none => exact hs.stages_error
  | some host =>
      simp only [Program.ensures_bind, ensures_clock]
      split
      · exact ⟨hs.committed, fun _ _ => hs.batch ▸ .nothing _⟩
      · exact stages_retireHost env hostId host reason _ _ (s := s.afterDraw) ⟨hs.batch,
            hs.committed⟩

theorem ensures_purgeTables (hostId : Uuid) (tables : List HostTable)
    (hcommitted : s.committedWrites = []) :
    (purgeTables hostId tables).Ensures store (Program.alone store db) guar s fun s' result =>
      s'.committedWrites = [] ∧ (result = .ok () →
        s'.batch = s.batch ++ tables.map fun table => .purgeHost table hostId) := by
  induction tables generalizing s with
  | nil => exact ⟨hcommitted, fun _ => by simp⟩
  | cons table tables ih =>
      refine Program.Ensures.bind (ensures_execute (.purgeHost table hostId) hcommitted) ?_
        fun _ _ hend => ⟨hend.1, nofun⟩
      rintro t _ ⟨hcommitted', hexecuted⟩
      refine (ih hcommitted').mono ?_
      rintro t' result ⟨hcommitted'', hpurged⟩
      refine ⟨hcommitted'', fun hresult => ?_⟩
      rw [hpurged hresult, hexecuted rfl, List.append_assoc]
      rfl

theorem concludes_remove (env : Environment) (draws : ℕ → Draw) (hostId : Uuid)
    (hguar : ∀ s, guar s) (hs : Blank s) :
    (removeHostRecord hostId).Ensures store (Program.alone store db) guar s
      (Concludes (Rotates env draws db (.remove hostId))) := by
  simp only [removeHostRecord, deleteHost, Program.bind_eq, Program.bind_assoc,
      Program.ensures_bind,
    ensures_select]
  intro seen _
  cases (s.view store seen).getHost hostId with
  | none => exact concludes_error hs.committed
  | some host =>
      simp only [Program.ensures_bind]
      refine Program.Ensures.mono (ensures_execute (.forgetConsumer hostId) hs.committed) ?_
      rintro t₁ (error | ⟨⟩) ⟨hcommitted₁, hforgotten⟩
      · exact concludes_error hcommitted₁
      · refine Program.Ensures.mono (ensures_purgeTables hostId dependentTables hcommitted₁) ?_
        rintro t₂ (error | ⟨⟩) ⟨hcommitted₂, hpurged⟩
        · exact concludes_error hcommitted₂
        · refine Program.Ensures.mono (ensures_execute (.deleteHost hostId) hcommitted₂) ?_
          rintro t₃ (error | ⟨⟩) ⟨hcommitted₃, hdeleted⟩
          · exact concludes_error hcommitted₃
          · refine concludes_commit_unit (fun s _ _ => hguar s) hcommitted₃ ?_
            rw [hdeleted rfl, hpurged rfl, hforgotten rfl, hs.batch]
            exact .removed hostId

/-- What a call that runs alone commits. A call that fails has committed nothing, but for a
host that is gone when it is read again for the answer. -/
theorem rotates_program (env : Environment) (call : CredentialCall) (db : Db) (draws : ℕ → Draw)
    (faults : ℕ → Option DbError) :
    (call.program env).Ensures store (Program.alone store db) (fun _ => True)
      (Session.start draws faults) fun s' result => Rotates env draws db call s'.committedWrites ∧
        ∀ enrollment, call = .enroll enrollment → (∃ error, result = .error error) →
          s'.committedWrites = [] := by
  have hguar : ∀ _ : ServiceSession, True := fun _ => trivial
  have hs := blank_start draws faults
  have hnothing {s' : ServiceSession} (h : s'.committedWrites = []) :
      Rotates env draws db call s'.committedWrites := h ▸ .nothing call
  cases call with
  | mint label ttlHours =>
      refine Program.Ensures.bind (concludes_mint env draws label ttlHours hguar hs) ?_ ?_
      · rintro s' value (⟨⟨_, herror⟩, -⟩ | ⟨-, hkind⟩)
        · cases herror
        · exact ⟨hkind, fun _ hcall => CredentialCall.noConfusion hcall⟩
      · rintro s' error (⟨-, hcommitted⟩ | ⟨⟨_, hvalue⟩, -⟩)
        · exact ⟨hnothing hcommitted, fun _ hcall => CredentialCall.noConfusion hcall⟩
        · cases hvalue
  | enroll enrollment =>
      refine Program.Ensures.bind
        (concludes_enrollHost env enrollment (fun s _ _ => hguar s) hs rfl) ?_ ?_
      · rintro s' value (⟨⟨_, herror⟩, -⟩ | ⟨-, hkind⟩)
        · cases herror
        · exact ⟨hkind, fun _ _ ⟨_, herror⟩ => by cases herror⟩
      · rintro s' error (⟨-, hcommitted⟩ | ⟨⟨_, hvalue⟩, -⟩)
        · exact ⟨hnothing hcommitted, fun _ _ _ => hcommitted⟩
        · cases hvalue
  | decommission hostId reason =>
      refine Program.Ensures.mono (Stages.ensures_commit (stages_decommissionHost env draws hostId
        reason hs) hguar fun _ => observes_refreshHost hostId) ?_
      rintro s' result (hcommitted | hkind)
      · exact ⟨hnothing hcommitted, fun _ hcall => CredentialCall.noConfusion hcall⟩
      · exact ⟨hkind, fun _ hcall => CredentialCall.noConfusion hcall⟩
  | reactivate hostId =>
      have hreactivate : (reactivateHost hostId >>= fun _ => commit).Ensures store
          (Program.alone store db) (fun _ => True) (Session.start draws faults)
            (Concludes (Rotates env draws db (.reactivate hostId))) :=
        concludes_reactivate env draws hostId hguar hs
      rw [CredentialCall.program, reactivateHostEndpoint, Program.bind_eq, Program.bind_assoc]
      have hshape : ((reactivateHost hostId).bind fun _ => (commit >>= fun _ =>
          refreshHost hostId).bind fun _ => .ret ()) =
          (reactivateHost hostId >>= fun _ => commit).bind fun _ =>
            (refreshHost hostId).bind fun _ => .ret () := by
        simp only [Program.bind_eq, Program.bind_assoc]
      rw [hshape]
      refine Program.Ensures.bind hreactivate ?_ ?_
      · rintro s' value (⟨⟨_, herror⟩, -⟩ | ⟨-, hkind⟩)
        · cases herror
        · have hends : ((refreshHost hostId).bind fun _ => .ret () : Service Unit).Observes :=
            (observes_refreshHost hostId).bind fun _ => trivial
          refine hends.ensures.mono ?_
          rintro _ _ ⟨_, rfl⟩
          exact ⟨hkind, fun _ hcall => CredentialCall.noConfusion hcall⟩
      · rintro s' error (⟨-, hcommitted⟩ | ⟨⟨_, hvalue⟩, -⟩)
        · exact ⟨hnothing hcommitted, fun _ hcall => CredentialCall.noConfusion hcall⟩
        · cases hvalue
  | remove hostId =>
      refine (concludes_remove env draws hostId hguar hs).mono ?_
      rintro s' result (⟨-, hcommitted⟩ | ⟨-, hkind⟩)
      · exact ⟨hnothing hcommitted, fun _ hcall => CredentialCall.noConfusion hcall⟩
      · exact ⟨hkind, fun _ hcall => CredentialCall.noConfusion hcall⟩

end Alone

/-! ## What the writes make of the credentials -/

/-- The write revokes credentials at most. -/
def Write.OnlyRevokes : Write → Prop
  | .insertCredential _ => False
  | .purgeHost .credentials _ => False
  | _ => True

/-- The credential is the other one, or the other one revoked. -/
def AgentCredential.Stems (row old : AgentCredential) : Prop :=
  row = old ∨ ∃ revokedAt, row = { old with revokedAt := some revokedAt }

namespace AgentCredential.Stems

variable {row old older : AgentCredential}

theorem refl (row : AgentCredential) : row.Stems row := .inl rfl

theorem trans (h : row.Stems old) (h' : old.Stems older) : row.Stems older := by
  rcases h with rfl | ⟨revokedAt, rfl⟩
  · exact h'
  · rcases h' with rfl | ⟨earlier, rfl⟩ <;> exact .inr ⟨revokedAt, rfl⟩

theorem id (h : row.Stems old) : row.id = old.id := by rcases h with rfl | ⟨_, rfl⟩ <;> rfl

theorem tokenHash (h : row.Stems old) : row.tokenHash = old.tokenHash := by
  rcases h with rfl | ⟨_, rfl⟩ <;> rfl

/-- What is revoked stays revoked. -/
theorem eq_of_live (h : row.Stems old) (hlive : row.revokedAt = none) : row = old := by
  rcases h with rfl | ⟨_, rfl⟩
  · rfl
  · cases hlive

end AgentCredential.Stems

/-- A batch that revokes at most leaves the credentials, some of them revoked. -/
theorem credentials_of_onlyRevokes {writes : List Write} (h : ∀ write ∈ writes, write.OnlyRevokes)
    (db : Db) : ∃ change : AgentCredential → AgentCredential,
      (store.applyAll writes db).credentials = db.credentials.map change ∧
        (∀ row, (change row).Stems row) ∧
        ∀ row now, .revokeCredential row.id now ∈ writes → (change row).revokedAt ≠ none := by
  induction writes generalizing db with
  | nil => exact ⟨id, by simp, .refl, fun _ _ hrow => (List.not_mem_nil hrow).elim⟩
  | cons write writes ih =>
      obtain ⟨hwrite, hwrites⟩ := List.forall_mem_cons.mp h
      obtain ⟨change, hchange, hstems, hrevokes⟩ := ih hwrites (store.apply write db)
      rw [Store.applyAll_cons, hchange]
      cases write with
      | revokeCredential id now =>
          refine ⟨change ∘ fun row =>
              if row.id = id then { row with revokedAt := some now } else row,
            by rw [← List.map_map]; rfl, fun row => ?_, fun row revokedAt hmem => ?_⟩
          · refine (hstems _).trans ?_
            dsimp only
            split
            · exact .inr ⟨now, rfl⟩
            · exact .refl row
          · dsimp only [Function.comp_apply]
            rcases List.mem_cons.mp hmem with hsame | hlater
            · cases hsame
              rw [if_pos rfl]
              intro hlive
              have heq := (hstems _).eq_of_live hlive
              rw [heq] at hlive
              cases hlive
            · split
              · exact hrevokes { row with revokedAt := some now } revokedAt hlater
              · exact hrevokes row revokedAt hlater
      | insertCredential row => exact hwrite.elim
      | purgeHost table id =>
          refine ⟨change, ?_, hstems, fun row now hmem => hrevokes row now (by simpa using hmem)⟩
          cases table <;> first | exact hwrite.elim | rfl
      | _ => exact ⟨change, rfl, hstems, fun row now hmem => hrevokes row now (by simpa using hmem)⟩

/-- The write does not put the host out of service. -/
def Write.KeepsInService (hostId : Uuid) : Write → Prop
  | .insertHost row => row.lifecycleState ≠ .decommissioned
  | .decommissionHost id _ _ => id ≠ hostId
  | _ => True

/-- A host that is decommissioned after a batch that keeps it in service was so before. -/
theorem decommissioned_of_keeps {hostId : Uuid} {writes : List Write}
    (h : ∀ write ∈ writes, write.KeepsInService hostId) {db : Db}
    (hlater : (store.applyAll writes db).Decommissioned hostId) : db.Decommissioned hostId := by
  have hmapped : ∀ (db : Db) (change : Host → Host), (∀ host, (change host).id = host.id) →
      (∀ host, (change host).id = hostId → (change host).lifecycleState = .decommissioned →
        host.lifecycleState = .decommissioned) →
      (∃ host ∈ db.hosts.map change, host.id = hostId ∧ host.lifecycleState = .decommissioned) →
        db.Decommissioned hostId := by
    rintro db change hid hstate ⟨_, hmapped, hhost, hretired⟩
    obtain ⟨host, hmem, rfl⟩ := List.mem_map.mp hmapped
    exact ⟨host, hmem, (hid host).symm.trans hhost, hstate host hhost hretired⟩
  induction writes generalizing db with
  | nil => exact hlater
  | cons write writes ih =>
      obtain ⟨hwrite, hwrites⟩ := List.forall_mem_cons.mp h
      have hnext : (write.apply db).Decommissioned hostId := ih hwrites hlater
      cases write with
      | insertHost row =>
          obtain ⟨host, hmem, hhost, hretired⟩ := hnext
          rcases List.mem_append.mp hmem with hold | hnew
          · exact ⟨host, hold, hhost, hretired⟩
          · rw [List.mem_singleton.mp hnew] at hretired
            exact (hwrite hretired).elim
      | reportHost id report now =>
          refine hmapped db _ (fun host => ?_) (fun host _ => ?_) hnext <;> split <;>
            first | rfl | exact fun hretired => hretired
      | scanHost id observedAt =>
          refine hmapped db _ (fun host => ?_) (fun host _ => ?_) hnext <;> split <;>
            first | rfl | exact fun hretired => hretired
      | decommissionHost id now reason =>
          refine hmapped db _ (fun host => ?_) (fun host hhost => ?_) hnext
          · split <;> rfl
          · split
            · next hsame =>
                rw [if_pos hsame] at hhost
                exact (hwrite (hsame.symm.trans hhost)).elim
            · exact fun hretired => hretired
      | reactivateHost id =>
          refine hmapped db _ (fun host => ?_) (fun host _ => ?_) hnext
          · split <;> rfl
          · split
            · exact nofun
            · exact fun hretired => hretired
      | deleteHost id =>
          obtain ⟨host, hmem, hhost, hretired⟩ := hnext
          exact ⟨host, (List.mem_filter.mp hmem).1, hhost, hretired⟩
      | setHostError id lastError =>
          refine hmapped db _ (fun host => ?_) (fun host _ => ?_) hnext <;> split <;>
            first | rfl | exact fun hretired => hretired
      | purgeHost table id => cases table <;> exact hnext
      | _ => exact hnext

/-- The write keeps the ids of the hosts apart. -/
def Write.KeepsHostsApart (db : Db) : Write → Prop
  | .insertHost row => ∀ host ∈ db.hosts, host.id ≠ row.id
  | _ => True

theorem nodup_hosts_apply {write : Write} {db : Db} (h : write.KeepsHostsApart db)
    (hdb : (db.hosts.map Host.id).Nodup) : ((write.apply db).hosts.map Host.id).Nodup := by
  have hmapped : ∀ change : Host → Host, (∀ host, (change host).id = host.id) →
      ((db.hosts.map change).map Host.id).Nodup := by
    intro change hid
    have hsame : (db.hosts.map change).map Host.id = db.hosts.map Host.id := by
      rw [List.map_map]
      exact List.map_congr_left fun host _ => hid host
    rwa [hsame]
  cases write with
  | insertHost row =>
      simp only [Write.apply, List.map_append, List.map_cons, List.map_nil]
      refine List.nodup_append.mpr ⟨hdb, List.nodup_singleton _, fun a ha b hb => ?_⟩
      obtain ⟨host, hhost, rfl⟩ := List.mem_map.mp ha
      rw [List.mem_singleton.mp hb]
      exact h host hhost
  | reportHost id report now | scanHost id observedAt | decommissionHost id now reason
  | reactivateHost id | setHostError id lastError => exact hmapped _ fun host => by split <;> rfl
  | deleteHost id => exact hdb.sublist (List.filter_sublist.map Host.id)
  | purgeHost table id => cases table <;> exact hdb
  | _ => exact hdb

/-- Where a batch inserts no host, the ids of the hosts stay apart. -/
theorem nodup_hosts_applyAll {writes : List Write}
    (h : ∀ write ∈ writes, ∀ row, write ≠ .insertHost row) {db : Db}
    (hdb : (db.hosts.map Host.id).Nodup) :
        ((store.applyAll writes db).hosts.map Host.id).Nodup := by
  refine store.applyAll_induction (motive := fun db => (db.hosts.map Host.id).Nodup) hdb ?_
  intro write hwrite contents hcontents
  refine nodup_hosts_apply ?_ hcontents
  cases write with
  | insertHost row => exact (h _ hwrite row rfl).elim
  | _ => trivial

/-- How the credentials of `later` come from those of `db`: some are gone, some revoked, and
the issued ones are new, each the only live one of its host. -/
structure Reissues (db later : Db) (issued : List AgentCredential) : Prop where
  shape : ∃ (kept : List AgentCredential) (change : AgentCredential → AgentCredential),
    kept.Sublist db.credentials ∧ later.credentials = kept.map change ++ issued ∧
      ∀ row, (change row).Stems row
  atMostOne : issued.length ≤ 1
  fresh : ∀ row ∈ issued, ∀ old ∈ db.credentials, old.id ≠ row.id ∧ old.tokenHash ≠ row.tokenHash
  only : ∀ row ∈ issued, ∀ other ∈ later.credentials, other.hostId = row.hostId →
    other.revokedAt = none → other = row

namespace Reissues

variable {db later : Db} {issued : List AgentCredential}

/-- Every credential is issued, or comes from one that was on file. -/
theorem origin (h : Reissues db later issued) {row : AgentCredential}
    (hrow : row ∈ later.credentials) :
    row ∈ issued ∨ ∃ old ∈ db.credentials, row.Stems old := by
  obtain ⟨kept, change, hkept, hshape, hstems⟩ := h.shape
  rw [hshape] at hrow
  rcases List.mem_append.mp hrow with hold | hnew
  · obtain ⟨old, hmem, rfl⟩ := List.mem_map.mp hold
    exact .inr ⟨old, hkept.subset hmem, hstems old⟩
  · exact .inl hnew

/-- A live credential is issued, or was live before. -/
theorem live (h : Reissues db later issued) {row : AgentCredential}
    (hrow : row ∈ later.credentials) (hlive : row.revokedAt = none) :
    row ∈ issued ∨ row ∈ db.credentials := by
  rcases h.origin hrow with hnew | ⟨old, hold, hstems⟩
  · exact .inl hnew
  · exact .inr (hstems.eq_of_live hlive ▸ hold)

/-- A column that revoking keeps and that is new in what is issued stays unique. -/
theorem nodup (h : Reissues db later issued) {β : Type} (column : AgentCredential → β)
    (hcolumn : ∀ row old : AgentCredential, row.Stems old → column row = column old)
    (hfresh : ∀ row ∈ issued, ∀ old ∈ db.credentials, column old ≠ column row)
    (hdb : (db.credentials.map column).Nodup) : (later.credentials.map column).Nodup := by
  obtain ⟨kept, change, hkept, hshape, hstems⟩ := h.shape
  have hsame : (kept.map change).map column = kept.map column := by
    rw [List.map_map]
    exact List.map_congr_left fun row _ => hcolumn _ row (hstems row)
  rw [hshape, List.map_append, hsame]
  refine List.nodup_append.mpr ⟨hdb.sublist (hkept.map column), ?_, fun a ha b hb => ?_⟩
  · match issued, h.atMostOne with
    | [], _ => exact List.nodup_nil
    | [row], _ => exact List.nodup_singleton _
  · obtain ⟨old, hold, rfl⟩ := List.mem_map.mp ha
    obtain ⟨row, hrow, rfl⟩ := List.mem_map.mp hb
    exact hfresh row hrow old (hkept.subset hold)

/-- Reissuing keeps the discipline, as far as the decommissioned hosts have no live
credential. -/
theorem disciplined (h : Reissues db later issued) (hdb : db.Disciplined)
    (hhosts : (later.hosts.map Host.id).Nodup)
    (hretired : ∀ hostId, later.Decommissioned hostId → ¬ later.Live hostId) :
    later.Disciplined where
  hosts := hhosts
  ids := h.nodup _ (fun _ _ hstems => hstems.id) (fun row hrow old hold =>
      (h.fresh row hrow old hold).1)
    hdb.ids
  hashes := h.nodup _ (fun _ _ hstems => hstems.tokenHash)
    (fun row hrow old hold => (h.fresh row hrow old hold).2) hdb.hashes
  single a ha b hb hhost hlivea hliveb := by
    rcases h.live ha hlivea with hnew | holda
    · exact (h.only a hnew b hb hhost.symm hliveb).symm
    · rcases h.live hb hliveb with hnew | holdb
      · exact h.only b hnew a ha hhost hlivea
      · exact hdb.single a holda b holdb hhost hlivea hliveb
  retired := hretired

/-- A batch that revokes at most reissues nothing. -/
theorem of_onlyRevokes {writes : List Write} (h : ∀ write ∈ writes, write.OnlyRevokes) (db : Db) :
    Reissues db (store.applyAll writes db) [] := by
  obtain ⟨change, hchange, hstems, -⟩ := credentials_of_onlyRevokes h db
  exact ⟨⟨db.credentials, change, .refl _, by rw [hchange, List.append_nil], hstems⟩, Nat.zero_le _,
    fun _ hrow => (List.not_mem_nil hrow).elim, fun _ hrow => (List.not_mem_nil hrow).elim⟩

end Reissues

theorem mem_activeCredentials {db : Db} {hostId : Uuid} {row : AgentCredential} :
    row ∈ db.activeCredentials hostId ↔
      row ∈ db.credentials ∧ row.hostId = hostId ∧ row.revokedAt = none := by
  rw [Db.activeCredentials, List.mem_filter, decide_eq_true_iff]

/-- After its revocations a host has no live credential. -/
theorem not_live_of_revocations {db : Db} {hostId : Uuid} (now : ℤ) {writes : List Write}
    (h : ∀ write ∈ writes, write.OnlyRevokes)
    (hrevokes : ∀ write ∈ revocations db hostId now, write ∈ writes) :
    ¬ (store.applyAll writes db).Live hostId := by
  rintro ⟨row, hrow, hhost, hlive⟩
  obtain ⟨change, hchange, hstems, hrevoked⟩ := credentials_of_onlyRevokes h db
  rw [hchange] at hrow
  obtain ⟨old, hold, rfl⟩ := List.mem_map.mp hrow
  have hsame := (hstems old).eq_of_live hlive
  have hactive : old ∈ db.activeCredentials hostId :=
    mem_activeCredentials.mpr ⟨hold, hsame ▸ hhost, hsame ▸ hlive⟩
  exact hrevoked old now (hrevokes _ (List.mem_map_of_mem hactive)) hlive

theorem onlyRevokes_revocations {db : Db} {hostId : Uuid} {now : ℤ} :
    ∀ write ∈ revocations db hostId now, write.OnlyRevokes := by
  intro write hwrite
  obtain ⟨row, -, rfl⟩ := List.mem_map.mp hwrite
  trivial

theorem refuses_insertCredential {db : Db} {row : AgentCredential}
    (h : store.refuses db (.insertCredential row) = none) :
    ∀ old ∈ db.credentials, old.id ≠ row.id ∧ old.tokenHash ≠ row.tokenHash := by
  intro old hold
  simp only [store, Write.refused] at h
  split at h
  · cases h
  · split at h
    · cases h
    · next hany =>
        rw [Bool.not_eq_true, List.any_eq_false] at hany
        have hclear := hany old hold
        simpa [not_or] using hclear

/-- The credentials after an enrollment. -/
theorem reissues_enrolled {db : Db} {enrollment : EnrollmentIn}
    (token : EnrollmentToken) {now : ℤ} {register : Write} {credential : AgentCredential}
    (hregister : Registers db enrollment.hostId enrollment.report now register)
    (hhost : credential.hostId = enrollment.hostId)
    (haccepted : store.refuses (store.applyAll (register :: revocations db enrollment.hostId
        now) db)
      (.insertCredential credential) = none) :
    Reissues db (store.applyAll (register :: revocations db enrollment.hostId now ++
      [.insertCredential credential, .consumeToken token.id enrollment.hostId now]) db)
        [credential] := by
  have hrevoking : ∀ write ∈ register :: revocations db enrollment.hostId now,
      write.OnlyRevokes := by
    refine List.forall_mem_cons.mpr ⟨?_, onlyRevokes_revocations⟩
    cases hregister <;> trivial
  have hdead := not_live_of_revocations now hrevoking fun write hwrite =>
    List.mem_cons_of_mem _ hwrite
  obtain ⟨change, hchange, hstems, -⟩ := credentials_of_onlyRevokes hrevoking db
  have hlater : (store.applyAll (register :: revocations db enrollment.hostId now ++
      [.insertCredential credential, .consumeToken token.id enrollment.hostId now]) db).credentials
          =
        db.credentials.map change ++ [credential] := by
    rw [Store.applyAll_append, ← hchange]
    rfl
  refine ⟨⟨db.credentials, change, .refl _, hlater, hstems⟩, le_refl _, ?_, ?_⟩
  · intro row hrow old hold
    rw [List.mem_singleton.mp hrow]
    have hmem : change old ∈
        (store.applyAll (register :: revocations db enrollment.hostId now) db).credentials := by
      rw [hchange]
      exact List.mem_map_of_mem hold
    obtain ⟨hid, hhash⟩ := refuses_insertCredential haccepted _ hmem
    exact ⟨(hstems old).id ▸ hid, (hstems old).tokenHash ▸ hhash⟩
  · intro row hrow other hother hsame hlive
    rw [hlater] at hother
    rcases List.mem_append.mp hother with hold | hnew
    · rw [List.mem_singleton.mp hrow, hhost] at hsame
      exact (hdead ⟨other, hchange ▸ hold, hsame, hlive⟩).elim
    · rw [List.mem_singleton.mp hnew, List.mem_singleton.mp hrow]

/-- What a call commits keeps the discipline, and issues only tokens it has drawn. -/
theorem Rotates.kept {env : Environment} {draws : ℕ → Draw} {db : Db} {call : CredentialCall}
    {writes : List Write} (h : Rotates env draws db call writes) (hdb : db.Disciplined) :
    (store.applyAll writes db).Disciplined ∧ ∃ issued,
      Reissues db (store.applyAll writes db) issued ∧
        ∀ row ∈ issued, ∃ j, row.tokenHash = env.hashToken (draws j).uuid.text := by
  have hnone : ∀ row ∈ ([] : List AgentCredential),
      ∃ j, row.tokenHash = env.hashToken (draws j).uuid.text :=
    fun _ hrow => (List.not_mem_nil hrow).elim
  -- A batch that revokes at most and puts no host out of service.
  have hplain : ∀ writes : List Write, (∀ write ∈ writes, write.OnlyRevokes) →
      (∀ hostId, ∀ write ∈ writes, write.KeepsInService hostId) →
      (∀ write ∈ writes, ∀ row, write ≠ .insertHost row) →
      (store.applyAll writes db).Disciplined ∧ ∃ issued,
        Reissues db (store.applyAll writes db) issued ∧
          ∀ row ∈ issued, ∃ j, row.tokenHash = env.hashToken (draws j).uuid.text := by
    intro writes hrevokes hkeeps hhosts
    have hreissues := Reissues.of_onlyRevokes hrevokes db
    refine ⟨hreissues.disciplined hdb (nodup_hosts_applyAll hhosts hdb.hosts) ?_,
        [], hreissues, hnone⟩
    rintro hostId hretired ⟨row, hrow, hhost, hlive⟩
    rcases hreissues.live hrow hlive with hnew | hold
    · cases hnew
    · exact hdb.retired hostId (decommissioned_of_keeps (hkeeps hostId) hretired)
        ⟨row, hold, hhost, hlive⟩
  cases h with
  | nothing call => exact hplain [] (by simp) (by simp) (by simp)
  | minted label ttlHours row =>
      refine hplain _ ?_ (fun hostId => ?_) ?_ <;> intro write hwrite <;>
        rw [List.mem_singleton.mp hwrite]
      · trivial
      · trivial
      · intro row hsame
        cases hsame
  | enrolled enrollment token now register credential hactive hregister hhost hdrawn haccepted =>
      have hreissues := reissues_enrolled token hregister hhost haccepted
      refine ⟨hreissues.disciplined hdb ?_ ?_, [credential], hreissues, fun row hrow => ?_⟩
      · have hrest : ∀ write ∈ revocations db enrollment.hostId now ++
            [.insertCredential credential, .consumeToken token.id enrollment.hostId now],
            ∀ row, write ≠ .insertHost row := by
          intro write hwrite row hsame
          rw [hsame] at hwrite
          simp [revocations] at hwrite
        rw [List.cons_append, Store.applyAll_cons]
        refine nodup_hosts_applyAll hrest (nodup_hosts_apply ?_ hdb.hosts)
        cases hregister with
        | first hnew =>
            intro host hmem hid
            have hmissing := List.find?_eq_none.mp hnew host hmem
            exact hmissing (by simpa [firstHost] using hid)
        | again => trivial
      · rintro hostId hretired ⟨row, hrow, hrowHost, hlive⟩
        have hbefore : db.Decommissioned hostId := by
          refine decommissioned_of_keeps (fun write hwrite => ?_) hretired
          rcases List.mem_append.mp hwrite with hfirst | hlast
          · rcases List.mem_cons.mp hfirst with rfl | hrevoke
            · cases hregister with
              | first hnew =>
                  intro hstate
                  simp [firstHost] at hstate
              | again => trivial
            · obtain ⟨old, -, rfl⟩ := List.mem_map.mp hrevoke
              trivial
          · rcases List.mem_cons.mp hlast with rfl | hconsume
            · trivial
            · rw [List.mem_singleton.mp hconsume]
              trivial
        rcases hreissues.live hrow hlive with hnew | hold
        · rw [List.mem_singleton.mp hnew, hhost] at hrowHost
          obtain ⟨host, hmem, hid, hstate⟩ := hbefore
          -- The decommissioned row is the one the enrollment has found.
          have hfound : ∃ found, db.getHost enrollment.hostId = some found := by
            rw [← Option.isSome_iff_exists, Db.getHost, List.find?_isSome]
            exact ⟨host, hmem, by simp [hid, hrowHost]⟩
          obtain ⟨found, hget⟩ := hfound
          have hsame : host = found := List.inj_on_of_nodup_map hdb.hosts hmem
            (List.mem_of_find?_eq_some hget) (by
              have hfoundId : found.id = enrollment.hostId := by simpa using List.find?_some hget
              rw [hid, hfoundId, hrowHost])
          exact hactive found hget (hsame ▸ hstate)
        · exact hdb.retired hostId hbefore ⟨row, hold, hrowHost, hlive⟩
      · rw [List.mem_singleton.mp hrow]
        exact hdrawn
  | decommissioned hostId reason cleaned now others hothers =>
      have hrevokes : ∀ write ∈ .decommissionHost hostId now cleaned :: revocations db hostId now ++
          others, write.OnlyRevokes := by
        intro write hwrite
        rcases List.mem_append.mp hwrite with hfirst | hother
        · rcases List.mem_cons.mp hfirst with rfl | hrevoke
          · trivial
          · exact onlyRevokes_revocations write hrevoke
        · have hspares := hothers write hother
          cases write with
          | insertCredential row => exact hspares.elim
          | purgeHost table id => cases table <;> first | exact hspares.elim | trivial
          | _ => trivial
      have hreissues := Reissues.of_onlyRevokes hrevokes db
      refine ⟨hreissues.disciplined hdb ?_ ?_, [], hreissues, hnone⟩
      · refine nodup_hosts_applyAll (fun write hwrite row hsame => ?_) hdb.hosts
        rw [hsame] at hwrite
        rcases List.mem_append.mp hwrite with hfirst | hother
        · simp [revocations] at hfirst
        · exact hothers _ hother
      · intro other hretired
        by_cases hsame : other = hostId
        · rw [hsame]
          exact not_live_of_revocations _ hrevokes fun write hwrite =>
            List.mem_append_left _ (List.mem_cons_of_mem _ hwrite)
        · rintro ⟨row, hrow, hhost, hlive⟩
          rcases hreissues.live hrow hlive with hnew | hold
          · cases hnew
          · refine hdb.retired other (decommissioned_of_keeps (fun write hwrite => ?_) hretired)
              ⟨row, hold, hhost, hlive⟩
            rcases List.mem_append.mp hwrite with hfirst | hother
            · rcases List.mem_cons.mp hfirst with rfl | hrevoke
              · exact fun hid => hsame hid.symm
              · obtain ⟨old, -, rfl⟩ := List.mem_map.mp hrevoke
                trivial
            · have hspares := hothers write hother
              cases write <;> first | exact hspares.elim | trivial
  | reactivated hostId event hretired =>
      refine hplain _ ?_ (fun other => ?_) ?_ <;> simp [Write.OnlyRevokes, Write.KeepsInService]
  | removed hostId =>
      have hlater : ∀ db : Db, (store.applyAll (.forgetConsumer hostId ::
          dependentTables.map (fun table => .purgeHost table hostId) ++ [.deleteHost hostId])
            db).credentials = db.credentials.filter fun row => row.hostId ≠ hostId := fun _ => rfl
      have hreissues : Reissues db (store.applyAll (.forgetConsumer hostId ::
          dependentTables.map (fun table => .purgeHost table hostId) ++ [.deleteHost hostId]) db)
              [] := by
        refine ⟨⟨db.credentials.filter fun row => row.hostId ≠ hostId, id, List.filter_sublist, ?_,
          .refl⟩, Nat.zero_le _, ?_, ?_⟩
        · rw [hlater, List.map_id, List.append_nil]
        · exact fun _ hrow => (List.not_mem_nil hrow).elim
        · exact fun _ hrow => (List.not_mem_nil hrow).elim
      refine ⟨hreissues.disciplined hdb (nodup_hosts_applyAll
          (by simp [dependentTables]) hdb.hosts) ?_,
        [], hreissues,
        hnone⟩
      rintro other hretired ⟨row, hrow, hhost, hlive⟩
      rcases hreissues.live hrow hlive with hnew | hold
      · cases hnew
      · refine hdb.retired other (decommissioned_of_keeps ?_ hretired) ⟨row, hold, hhost, hlive⟩
        simp [Write.KeepsInService, dependentTables]

/-! ## Sequences of calls -/

/-- The credential with this hash is accepted. -/
def Db.Valid (db : Db) (tokenHash : String) : Prop :=
  ∃ row ∈ db.credentials, row.tokenHash = tokenHash ∧ row.revokedAt = none

/-- One turn: the discipline is kept, a hash the turn does not draw becomes valid by no
means, and an enrollment that fails leaves everything as it was. -/
theorem credentials_turn (env : Environment) (turn : Turn CredentialCall Draw) {db : Db}
    (hdb : db.Disciplined) :
    (turn.next store (CredentialCall.program env) db).Disciplined ∧
      (∀ tokenHash, (∀ j, env.hashToken (turn.draws j).uuid.text ≠ tokenHash) →
        (turn.next store (CredentialCall.program env) db).Valid tokenHash → db.Valid tokenHash) ∧
      ∀ enrollment, turn.call = .enroll enrollment →
        (∃ error, turn.answer store (CredentialCall.program env) db = .error error) →
          turn.next store (CredentialCall.program env) db = db := by
  obtain ⟨s, hnext, hrotates, hrefused⟩ := Turn.next_eq_of_ensures turn
    (rotates_program env turn.call db turn.draws turn.faults)
  obtain ⟨hkept, issued, hreissues, hdrawn⟩ := hrotates.kept hdb
  rw [hnext]
  refine ⟨hkept, ?_, fun enrollment hcall herror => ?_⟩
  · rintro tokenHash hfresh ⟨row, hrow, rfl, hlive⟩
    rcases hreissues.live hrow hlive with hnew | hold
    · obtain ⟨j, hj⟩ := hdrawn row hnew
      exact (hfresh j hj.symm).elim
    · exact ⟨row, hold, rfl, hlive⟩
  · rw [hrefused enrollment hcall herror, Store.applyAll_nil]

/-- What holds at every point of a sequence of calls, with any calls still to follow. -/
structure CredentialsKept (env : Environment) (before after : List (Turn CredentialCall Draw))
    (db : Db) : Prop where
  /-- One live credential a host at most, and none for a decommissioned one. -/
  disciplined : (Turn.runAll store (CredentialCall.program env) before db).Disciplined
  /-- A revoked credential is accepted at no later point, as long as its token is not drawn
  again for another. -/
  revoked : ∀ row ∈ (Turn.runAll store (CredentialCall.program env) before db).credentials,
    row.revokedAt ≠ none →
      (∀ turn ∈ after, ∀ j, env.hashToken (turn.draws j).uuid.text ≠ row.tokenHash) →
        ¬ (Turn.runAll store (CredentialCall.program env) (before ++ after) db).Valid row.tokenHash
  /-- A refused enrollment changes nothing. -/
  refused : ∀ (turn : Turn CredentialCall Draw) (enrollment : EnrollmentIn),
    turn.call = .enroll enrollment →
      (∃ error, turn.answer store (CredentialCall.program env)
        (Turn.runAll store (CredentialCall.program env) before db) = .error error) →
      turn.next store (CredentialCall.program env)
        (Turn.runAll store (CredentialCall.program env) before db) =
          Turn.runAll store (CredentialCall.program env) before db

/-- Along every sequence of calls from contents that are disciplined. -/
theorem credentials_kept (env : Environment) (before after : List (Turn CredentialCall Draw))
    {db : Db} (hdb : db.Disciplined) : CredentialsKept env before after db := by
  have hdisciplined : ∀ turns : List (Turn CredentialCall Draw),
      (Turn.runAll store (CredentialCall.program env) turns db).Disciplined := fun turns =>
    Turn.runAll_induction hdb fun turn _ contents hcontents =>
      (credentials_turn env turn hcontents).1
  refine ⟨hdisciplined before, fun row hrow hrevoked hfresh => ?_, fun turn => ?_⟩
  · rw [Turn.runAll_append]
    -- Until the end the contents stay disciplined, and the hash invalid.
    suffices hboth : (Turn.runAll store (CredentialCall.program env) after
        (Turn.runAll store (CredentialCall.program env) before db)).Disciplined ∧
          ¬ (Turn.runAll store (CredentialCall.program env) after
            (Turn.runAll store (CredentialCall.program env) before db)).Valid row.tokenHash
                from hboth.2
    refine Turn.runAll_induction (motive := fun db : Db => db.Disciplined ∧
        ¬ db.Valid row.tokenHash)
      ⟨hdisciplined before, ?_⟩ fun turn hturn contents hcontents => ?_
    · rintro ⟨other, hother, hhash, hlive⟩
      have hsame := List.inj_on_of_nodup_map (hdisciplined before).hashes hother hrow hhash
      exact hrevoked (hsame ▸ hlive)
    · obtain ⟨hkept, hvalid, -⟩ := credentials_turn env turn hcontents.1
      exact ⟨hkept, fun hlater => hcontents.2 (hvalid _ (hfresh turn hturn) hlater)⟩
  · exact (credentials_turn env turn (hdisciplined before)).2.2

/-- The host enrolls with a token that has been minted. -/
def sampleEnrollment : EnrollmentIn where
  enrollmentToken := (sampleDraws 100 0).uuid.text
  hostId := sampleHost.id
  report :=
    { hostname := "web-1"
      operatingSystem := "Linux"
      osVersion := none
      architecture := none
      agentVersion := none
      dockerAvailable := false
      protocolVersion := none
      contractVersion := none
      pythonVersion := none }

/-- The token is minted, the host enrolls with it and is decommissioned. -/
def sampleTurns : List (Turn CredentialCall Draw) :=
  [⟨.mint none 24, sampleDraws 100, fun _ => none⟩,
    ⟨.enroll sampleEnrollment, sampleDraws 200, fun _ => none⟩,
    ⟨.decommission sampleHost.id none, sampleDraws 300, fun _ => none⟩]

theorem credentials_kept_sample :
    (Turn.runAll store (CredentialCall.program sampleEnvironment) sampleTurns
        sampleDb).credentials.map
        (fun row => (row.hostId, row.revokedAt)) = [(sampleHost.id, some 0)] ∧
      CredentialsKept sampleEnvironment sampleTurns [] sampleDb := by
  have hdb : sampleDb.Disciplined :=
    ⟨by decide, List.nodup_nil, List.nodup_nil, nofun, fun _ _ hlive => by
      obtain ⟨row, hrow, -⟩ := hlive
      cases hrow⟩
  exact ⟨rfl, credentials_kept sampleEnvironment sampleTurns [] hdb⟩

end Central
