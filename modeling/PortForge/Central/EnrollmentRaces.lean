/-
# Enrollments at the same time

An enrollment reads its token, checks it and marks it in one transaction, but nothing makes
it wait between the check and the mark. As long as a call commits only when no other call
that presents the token is under way, the token is used once; two calls that check it
before either commits both enroll.

The credential of a host is rotated once the host's row is written, and only one transaction
at a time holds that row: enrollments of one host leave it one live credential.
-/

import PortForge.Central.Credentials
import PortForge.Central.DecommissionedHosts
import PortForge.Transaction.Exclusion

namespace Central

open Transaction

/-! ## What an enrollment spends -/

/-- The batch of an enrollment that has found its token unused on `start`. -/
def Spends (env : Environment) (call : EnrollmentIn) (start : Db) (batch : List Write) : Prop :=
  ∃ token draws, start.tokensByHash (env.hashToken call.enrollmentToken) = [token] ∧
    Enrolls env draws start call token batch

/-- Every token on file with the text's hash is consumed. -/
def Db.Used (env : Environment) (text : String) (db : Db) : Prop :=
  ∀ row ∈ db.tokensByHash (env.hashToken text), row.consumedAt ≠ none

theorem ensures_enrollHost (env : Environment) (call : EnrollmentIn) (db : Db)
    (draws : ℕ → Draw) (faults : ℕ → Option DbError) :
    (enrollHost env call).Ensures store (Program.alone store db)
      (fun s => s.committedWrites = [] ∧ Spends env call db s.batch) (Session.start draws faults)
      (Concludes (Spends env call db)) := by
  have hblank := blank_start draws faults
  simp only [enrollHost, Program.bind_eq, Program.ensures_bind, ensures_select]
  intro seen hseen
  rw [hblank.view_eq hseen]
  match hrows : db.tokensByHash (env.hashToken call.enrollmentToken) with
  | [] => exact concludes_error rfl
  | [token] =>
      refine (concludes_enrollWith env call token (fun s hcommitted henrolls =>
        ⟨hcommitted, token, draws, hrows, henrolls⟩) hblank ⟨1, rfl⟩).mono fun _ _ hend => ?_
      exact hend.mono fun _ henrolls => ⟨token, draws, hrows, henrolls⟩
  | _ :: _ :: _ => exact concludes_error rfl

theorem Spends.not_used {env : Environment} {call : EnrollmentIn} {start : Db}
    {batch : List Write} (h : Spends env call start batch) :
    ¬ start.Used env call.enrollmentToken := by
  obtain ⟨token, draws, hrows, henrolls⟩ := h
  intro hused
  exact hused token (hrows ▸ List.mem_singleton.mpr rfl) henrolls.unused

theorem Spends.ne_nil {env : Environment} {call : EnrollmentIn} {start : Db} {batch : List Write}
    (h : Spends env call start batch) : batch ≠ [] := by
  obtain ⟨token, draws, hrows, henrolls⟩ := h
  cases henrolls.issues
  simp

/-- Once the batch is applied the token is used. -/
theorem Spends.used {env : Environment} {call : EnrollmentIn} {start : Db}
    {batch : List Write} (h : Spends env call start batch) :
    (store.applyAll batch start).Used env call.enrollmentToken := by
  obtain ⟨token, draws, hrows, henrolls⟩ := h
  cases henrolls.issues with
  | issued now register credential hregister hhost hdrawn haccepted =>
      intro row hrow
      rw [show register :: revocations start call.hostId now ++ [.insertCredential credential,
          .consumeToken token.id call.hostId now] =
        (register :: revocations start call.hostId now ++ [.insertCredential credential]) ++
          [.consumeToken token.id call.hostId now] by simp, Store.applyAll_append] at hrow
      have htokens : (store.applyAll (register :: revocations start call.hostId now ++
          [.insertCredential credential]) start).enrollmentTokens = start.enrollmentTokens := by
        refine Store.applyAll_induction store
          (motive := fun contents => contents.enrollmentTokens = start.enrollmentTokens) rfl
          fun write hwrite contents hcontents => ?_
        rcases List.mem_append.mp hwrite with hfront | hback
        · rcases List.mem_cons.mp hfront with rfl | hrevoked
          · cases hregister <;> exact hcontents
          · obtain ⟨_, -, rfl⟩ := List.mem_map.mp hrevoked
            exact hcontents
        · obtain rfl := List.mem_singleton.mp hback
          exact hcontents
      obtain ⟨hmem, hhash⟩ := List.mem_filter.mp hrow
      obtain ⟨old, hold, rfl⟩ := List.mem_map.mp hmem
      rw [htokens] at hold
      -- The only row with the hash is the token, which the last write consumes.
      have hfound : old ∈ start.tokensByHash (env.hashToken call.enrollmentToken) := by
        refine List.mem_filter.mpr ⟨hold, ?_⟩
        split at hhash <;> exact hhash
      rw [hrows] at hfound
      obtain rfl := List.mem_singleton.mp hfound
      simp

/-- A batch inserts one credential. -/
theorem Spends.single {env : Environment} {call : EnrollmentIn} {start : Db}
    {batch : List Write} (h : Spends env call start batch) {a b : AgentCredential}
    (ha : .insertCredential a ∈ batch) (hb : .insertCredential b ∈ batch) : a = b := by
  obtain ⟨token, draws, hrows, henrolls⟩ := h
  cases henrolls.issues with
  | issued now register credential hregister hhost hdrawn haccepted =>
      have honly : ∀ row, .insertCredential row ∈ register ::
          revocations start call.hostId now ++
            [.insertCredential credential, .consumeToken token.id call.hostId now] →
              row = credential := by
        intro row hrow
        rcases List.mem_append.mp hrow with hfront | hback
        · rcases List.mem_cons.mp hfront with rfl | hrevoked
          · cases hregister
          · obtain ⟨_, -, hsame⟩ := List.mem_map.mp hrevoked
            cases hsame
        · simpa using hback
      rw [honly a ha, honly b hb]

/-! ## Runs with one token -/

section Token

variable {ι : Type} [DecidableEq ι] {env : Environment} {text : String} {calls : ι → EnrollmentIn}
  {db : Db} {draws : ι → ℕ → Draw}
  {σ : System ι Db Write ℤ Draw Failure EnrollmentResult}

/-- Where a call has committed, it has spent the token, which is used then, and no other call
has committed. -/
structure Once (env : Environment) (text : String) (calls : ι → EnrollmentIn)
    (σ : System ι Db Write ℤ Draw Failure EnrollmentResult) : Prop where
  spent : ∀ i, (σ.session i).committedWrites ≠ [] →
    ∃ start, Spends env (calls i) start (σ.session i).committedWrites
  used : ∀ i, (σ.session i).committedWrites ≠ [] → σ.db.Used env text
  single : ∀ i j, (σ.session i).committedWrites ≠ [] → (σ.session j).committedWrites ≠ [] → i = j

theorem Once.move (h : Once env text calls σ) (htext : ∀ i, (calls i).enrollmentToken = text)
    {k : ι} (hsettled : System.Settled store (fun i => enrollHost env (calls i)) draws
      (fun i start s => s.committedWrites = [] ∧ Spends env (calls i) start s.batch)
      (fun i start s result => Concludes (Spends env (calls i) start) s result) σ k) :
    Once env text calls (σ.move store k) := by
  rcases System.move_commits store σ k with ⟨hdb, hsame⟩ | ⟨next, hcommit, -, hcommitted, hdb⟩
  · refine ⟨fun i hi => ?_, fun i hi => ?_, fun i j hi hj => ?_⟩
    · rw [hsame] at hi ⊢
      exact h.spent i hi
    · rw [hdb]
      exact h.used i (hsame i ▸ hi)
    · exact h.single i j (hsame i ▸ hi) (hsame j ▸ hj)
  · -- The token is unused at the commit, so no call has committed before.
    obtain ⟨start, hensures, halone⟩ := hsettled.advance
      (fun i start => ensures_enrollHost env (calls i) start (draws i) _)
      (by simp [hcommit, Program.Finished])
    rw [hcommit] at hensures
    obtain ⟨hnothing, hspends⟩ := hensures.of_commit
    obtain rfl : σ.db = start := by simpa [Program.alone, hnothing] using halone
    rw [hnothing, List.nil_append] at hcommitted
    have hnone : ∀ i, i ≠ k → ((σ.move store k).session i).committedWrites = [] := by
      intro i hik
      rw [System.move_session_of_ne hik]
      by_contra hi
      exact hspends.not_used ((htext k).symm ▸ h.used i hi)
    have honly : ∀ i, ((σ.move store k).session i).committedWrites ≠ [] → i = k :=
      fun i hi => by_contra fun hik => hi (hnone i hik)
    refine ⟨fun i hi => ?_, fun i _ => ?_, fun i j hi hj => ?_⟩
    · rw [honly i hi, hcommitted]
      exact ⟨σ.db, hspends⟩
    · rw [hdb, ← htext k]
      exact hspends.used
    · rw [honly i hi, honly j hj]

/-- Where a call stands in a run whose calls commit alone. -/
theorem settled_enrollHost
    (hreach : System.Reachable store System.commitsAlone
      (System.start db (fun i => enrollHost env (calls i)) draws) σ) (i : ι) :
    System.Settled store (fun i => enrollHost env (calls i)) draws
      (fun i start s => s.committedWrites = [] ∧ Spends env (calls i) start s.batch)
      (fun i start s result => Concludes (Spends env (calls i) start) s result) σ i :=
  System.settled_of_reachable (fun i start => ensures_enrollHost env (calls i) start (draws i) _)
    (fun _ _ _ _ => id) hreach i

theorem once_of_reachable (htext : ∀ i, (calls i).enrollmentToken = text)
    (hreach : System.Reachable store System.commitsAlone
      (System.start db (fun i => enrollHost env (calls i)) draws) σ) :
    Once env text calls σ := by
  induction hreach with
  | start => exact ⟨fun i hi => (hi rfl).elim, fun i hi => (hi rfl).elim,
      fun i _ hi => (hi rfl).elim⟩
  | step hbefore _ _ ih => exact ih.move htext (settled_enrollHost hbefore _)

/-- A call that has succeeded has committed. -/
theorem committed_of_answered
    (hreach : System.Reachable store System.commitsAlone
      (System.start db (fun i => enrollHost env (calls i)) draws) σ) {i : ι}
    {out : EnrollmentResult} (hout : σ.program i = .ret out) :
    (σ.session i).committedWrites ≠ [] := by
  cases settled_enrollHost hreach i with
  | waiting _ hprogram => cases hout.symm.trans hprogram
  | begun start _ hensures =>
      rw [hout] at hensures
      rcases hensures with ⟨⟨error, herror⟩, -⟩ | ⟨-, hspends⟩
      · cases herror
      · exact hspends.ne_nil

/-- A token is used once. In every run of enrollments that present one token in which a call
commits only when no other call is under way, one call succeeds at most, and one credential
is issued at most. -/
theorem token_used_once (env : Environment) (text : String) (calls : ι → EnrollmentIn)
    (htext : ∀ i, (calls i).enrollmentToken = text) (db : Db) (draws : ι → ℕ → Draw)
    (hreach : System.Reachable store System.commitsAlone
      (System.start db (fun i => enrollHost env (calls i)) draws) σ) :
    (∀ i j first second, σ.program i = .ret first → σ.program j = .ret second → i = j) ∧
      ∀ i j a b, .insertCredential a ∈ (σ.session i).committedWrites →
        .insertCredential b ∈ (σ.session j).committedWrites → a = b := by
  have honce := once_of_reachable htext hreach
  constructor
  · intro i j first second hi hj
    exact honce.single i j (committed_of_answered hreach hi) (committed_of_answered hreach hj)
  · intro i j a b ha hb
    obtain rfl := honce.single i j (List.ne_nil_of_mem ha) (List.ne_nil_of_mem hb)
    obtain ⟨start, hspends⟩ := honce.spent i (List.ne_nil_of_mem ha)
    exact hspends.single ha hb

end Token

/-! ## One token, two hosts -/

/-- A registry with an unused token, whose hash is its text. -/
def tokenDb : Db :=
  { sampleDb with
    enrollmentTokens :=
      [{ id := ⟨70⟩, tokenHash := "token", createdAt := 0, expiresAt := none, consumedAt := none,
         consumedByHostId := none, label := none }] }

/-- Two enrollments that present it, the second for any host. -/
def rivalEnrollment (second : Uuid) (i : Bool) : EnrollmentIn :=
  { sampleEnrollment with
    enrollmentToken := "token"
    hostId := if i then second else sampleHost.id }

/-- A run of the two. -/
def sampleRivals (second : Uuid) : System Bool Db Write ℤ Draw Failure EnrollmentResult :=
  System.start tokenDb (fun i => enrollHost sampleEnvironment (rivalEnrollment second i))
    fun i => sampleDraws (if i then 200 else 300)

/-- The second enrollment begins after the first has ended, and is refused. -/
theorem token_used_once_sample :
    ∃ σ, System.play store (List.replicate 20 false ++ List.replicate 10 true)
        (sampleRivals ⟨2⟩) = some σ ∧
      σ.program true = raise (.enrollment "Enrollment token has already been used.") ∧
      ∀ i j a b, .insertCredential a ∈ (σ.session i).committedWrites →
        .insertCredential b ∈ (σ.session j).committedWrites → a = b := by
  obtain ⟨σ₁, hfirst, hended, σ, hsecond, hplay, hrefused⟩ : ∃ σ₁,
      System.play store (List.replicate 20 false) (sampleRivals ⟨2⟩) = some σ₁ ∧
        (σ₁.program false).Finished ∧
        ∃ σ, System.play store (List.replicate 10 true) σ₁ = some σ ∧
          System.play store (List.replicate 20 false ++ List.replicate 10 true)
            (sampleRivals ⟨2⟩) = some σ ∧
          σ.program true = raise (.enrollment "Enrollment token has already been used.") :=
    ⟨_, rfl, trivial, _, rfl, rfl, rfl⟩
  have hbefore : System.Reachable store System.commitsAlone (sampleRivals ⟨2⟩) σ₁ := by
    refine System.Reachable.of_play_allowed (P := fun υ => υ.history.count true = 0) .start rfl
      (fun υ hυ i hi => ?_) hfirst
    obtain rfl := List.eq_of_mem_replicate hi
    refine ⟨fun _ j hj => ?_, by rwa [System.count_move_history_of_ne (by decide)]⟩
    obtain rfl : j = true := by cases j <;> simp_all
    exact .inl hυ
  have hreach : System.Reachable store System.commitsAlone (sampleRivals ⟨2⟩) σ := by
    refine System.Reachable.of_play_allowed (P := fun υ => (υ.program false).Finished) hbefore
      hended (fun υ hυ i hi => ?_) hsecond
    obtain rfl := List.eq_of_mem_replicate hi
    refine ⟨fun _ j hj => ?_, by rwa [System.move_program_of_ne (by decide)]⟩
    obtain rfl : j = false := by cases j <;> simp_all
    exact .inr hυ
  exact ⟨σ, hplay, hrefused, (token_used_once sampleEnvironment "token" (rivalEnrollment ⟨2⟩)
    (fun _ => rfl) tokenDb (fun i => sampleDraws (if i then 200 else 300)) hreach).2⟩

/-- Both enrollments check the token before either commits: both succeed, and each of the two
hosts has a live credential. -/
theorem token_used_twice :
    ∃ σ, System.Reachable store System.anyOrder (sampleRivals ⟨2⟩) σ ∧
      (∃ first second, σ.program false = .ret first ∧ σ.program true = .ret second) ∧
      (σ.db.activeCredentials sampleHost.id).length = 1 ∧
      (σ.db.activeCredentials ⟨2⟩).length = 1 := by
  obtain ⟨σ, hplay, hanswered, hfirst, hsecond⟩ : ∃ σ, System.play store
      (List.replicate 3 false ++ List.replicate 20 true ++ List.replicate 20 false)
        (sampleRivals ⟨2⟩) = some σ ∧
      (∃ first second, σ.program false = .ret first ∧ σ.program true = .ret second) ∧
      (σ.db.activeCredentials sampleHost.id).length = 1 ∧
      (σ.db.activeCredentials ⟨2⟩).length = 1 := ⟨_, rfl, ⟨_, _, rfl, rfl⟩, rfl, rfl⟩
  exact ⟨σ, .of_play .start hplay, hanswered, hfirst, hsecond⟩

/-! ## Runs with one host -/

/-- The row of a host, among enrollments. -/
def hostRow (hostId : Uuid) : RowLock store where
  creates write := ∃ row, write = .insertHost row ∧ row.id = hostId
  changes write := ∃ report now, write = .reportHost hostId report now
  present db := db.hasHost hostId = true
  admits := Write.IsEnrolling
  waits_creates := by
    rintro _ _ ⟨row, rfl, hrow⟩ ⟨other, rfl, hother⟩
    simp [store, Write.waitsFor, hrow, hother]
  waits_changes := by
    rintro _ _ ⟨report, now, rfl⟩ ⟨report', now', rfl⟩
    simp [store, Write.waitsFor, Write.updatedHost]
  refuses := by
    rintro db _ ⟨row, rfl, rfl⟩ hpresent
    simp [store, Write.refused, hpresent]
  stays := by
    intro db write henrolling hpresent
    obtain ⟨host, hhost, hid⟩ := hasHost_iff.mp hpresent
    rw [hasHost_iff]
    cases write with
    | insertHost row => exact ⟨host, List.mem_append_left _ hhost, hid⟩
    | reportHost id report now =>
        refine ⟨_, List.mem_map_of_mem hhost, ?_⟩
        split <;> exact hid
    | insertCredential row | revokeCredential id now => exact ⟨host, hhost, hid⟩
    | consumeToken id host now => exact ⟨_, hhost, hid⟩
    | _ => exact henrolling.elim
  appears := by
    intro db write henrolling hpresent
    obtain ⟨host, hhost, hid⟩ := hasHost_iff.mp hpresent
    rw [hasHost_iff]
    cases write with
    | insertHost row =>
        rcases List.mem_append.mp hhost with hold | hnew
        · exact .inl ⟨host, hold, hid⟩
        · exact .inr ⟨row, rfl, List.mem_singleton.mp hnew ▸ hid⟩
    | reportHost id report now =>
        obtain ⟨old, hold, rfl⟩ := List.mem_map.mp hhost
        refine .inl ⟨old, hold, ?_⟩
        split at hid <;> exact hid
    | insertCredential row | revokeCredential id now => exact .inl ⟨host, hhost, hid⟩
    | consumeToken id host now => exact .inl ⟨_, hhost, hid⟩
    | _ => exact henrolling.elim

section Host

variable {env : Environment} {call : EnrollmentIn} {token : EnrollmentToken} {now : ℤ}
  {db db' later : Db} {p p' : Service EnrollmentResult} {s s' : ServiceSession} {register : Write}

/-- The write registers the host of an enrollment that has read `db`. -/
def Registering (db : Db) (call : EnrollmentIn) (now : ℤ) (register : Write) : Prop :=
  register = .insertHost (firstHost call.hostId call.report now) ∨
    register = .reportHost call.hostId call.report now ∧ db.hasHost call.hostId = true

/-- The rest of an enrollment, from the registration of its host on. -/
def registering (env : Environment) (call : EnrollmentIn) (token : EnrollmentToken) (now : ℤ)
    (register : Write) : Service EnrollmentResult :=
  (add register).bind fun _ => flush.bind fun _ => enrollRegistered env call token now

/-- What the look at its host leaves of an enrollment. -/
def LooksUp (env : Environment) (call : EnrollmentIn) (db : Db)
    (next : Service EnrollmentResult) : Prop :=
  ∃ token now register, Registering db call now register ∧
    next = registering env call token now register

/-- The write of an enrollment whose host is registered. -/
def Write.IsRotating : Write → Prop
  | .insertCredential _ => True
  | .revokeCredential _ _ => True
  | .consumeToken _ _ _ => True
  | _ => False

theorem Write.IsRotating.not_changes {write : Write} (h : write.IsRotating) (hostId : Uuid) :
    ¬ (hostRow hostId).changes write := by
  rintro ⟨report, now, rfl⟩
  exact h

theorem Registering.touches (h : Registering db call now register) :
    (hostRow call.hostId).Touches register := by
  rcases h with rfl | ⟨rfl, -⟩
  · exact .inl ⟨_, rfl, rfl⟩
  · exact .inr ⟨_, _, rfl⟩

theorem Registering.mono (h : Registering db call now register)
    (hstays : db.hasHost call.hostId = true → later.hasHost call.hostId = true) :
    Registering later call now register :=
  h.imp id fun hagain => ⟨hagain.1, hstays hagain.2⟩

/-- A registration that is accepted is the one of the contents it is accepted on. -/
theorem Registering.registers (h : Registering db call now register)
    (haccepted : store.refuses db register = none) :
    Registers db call.hostId call.report now register := by
  rcases h with rfl | ⟨rfl, -⟩
  · refine .first ?_
    by_contra hfound
    obtain ⟨host, hhost⟩ := Option.ne_none_iff_exists'.mp hfound
    refine (hostRow call.hostId).refuses db _ ⟨_, rfl, rfl⟩ ?_ haccepted
    exact hasHost_of_getHost hhost
  · exact .again

theorem staging_rotation (env : Environment) (call : EnrollmentIn) (agentToken : String)
    (now : ℤ) :
    Staging Write.IsRotating (replaceCredential call.hostId (env.hashToken agentToken) now) :=
  staging_replaceCredential call.hostId _ now (fun _ => trivial) fun _ => trivial

theorem locked_enrollRegistered (env : Environment) (call : EnrollmentIn)
    (token : EnrollmentToken) (now : ℤ) : (enrollRegistered env call token now).Locked := by
  refine Program.Holding.bind_locked (fun _ => trivial) fun agentToken => ?_
  refine (staging_rotation env call agentToken now).holding.bind_locked fun _ => ?_
  refine Program.Holding.bind_locked holding_flush fun _ => ?_
  rintro (_ | error) <;> trivial

theorem adds_enrollRegistered (env : Environment) (call : EnrollmentIn)
    (token : EnrollmentToken) (now : ℤ) :
    (enrollRegistered env call token now).Adds Write.IsRotating := by
  refine Program.Adds.bind (fun _ => trivial) fun agentToken => ?_
  refine (staging_rotation env call agentToken now).adds.bind fun _ => ?_
  exact Program.Adds.bind ⟨trivial, adds_flush⟩ fun _ => adds_commit.bind fun _ => trivial

/-- Where an enrollment stands on the committed contents `db`: it asks for its host, registers
it, holds the host's row and rotates the credential, or is over. -/
inductive Rotating (env : Environment) (call : EnrollmentIn) (db : Db)
    (p : Service EnrollmentResult) (s : ServiceSession) : Prop
  | asking (hasks : p.Asks (LooksUp env call)) (hblank : Blank s)
  | adding (hlooked : LooksUp env call db p) (hblank : Blank s)
  | flushing (token : EnrollmentToken) (now : ℤ) (register : Write)
      (hregister : Registering db call now register)
      (hp : p = flush.bind fun _ => enrollRegistered env call token now)
      (hflushed : s.flushed = []) (hpending : s.pending = [register])
      (hcommitted : s.committedWrites = [])
  | holding (token : EnrollmentToken) (hlocked : p.Locked) (hadds : p.Adds Write.IsRotating)
      (hpending : ∀ write ∈ s.pending, write.IsRotating)
      (hheld : ∃ write ∈ s.flushed, (hostRow call.hostId).Touches write)
      (hensures : p.Ensures store (Program.alone store db)
        (fun s => s.committedWrites = [] ∧ ∃ draws, Issues env draws db call token s.batch) s
        fun _ _ => True)
      (halone : Program.alone store db s db)
  | ended (hquiet : p.Quiet) (hpending : ∀ write ∈ s.pending, write.IsRotating)

namespace Rotating

/-- Commits of others that leave the host on file, and leave everything where the session holds
its row. -/
theorem frame (h : Rotating env call db p s)
    (hstays : db.hasHost call.hostId = true → later.hasHost call.hostId = true)
    (hheld : (∃ write ∈ s.flushed, (hostRow call.hostId).Touches write) → later = db) :
    Rotating env call later p s := by
  cases h with
  | asking hasks hblank => exact .asking hasks hblank
  | adding hlooked hblank =>
      obtain ⟨token, now, register, hregister, hnext⟩ := hlooked
      exact .adding ⟨token, now, register, hregister.mono hstays, hnext⟩ hblank
  | flushing token now register hregister hp hflushed hpending hcommitted =>
      exact .flushing token now register (hregister.mono hstays) hp hflushed hpending hcommitted
  | holding token hlocked hadds hpending hrow hensures halone =>
      rw [hheld hrow]
      exact .holding token hlocked hadds hpending hrow hensures halone
  | ended hquiet hpending => exact .ended hquiet hpending

/-- A session that is about to change the host's row has it on file. -/
theorem present_of_pending (h : Rotating env call db p s) :
    ∀ write ∈ s.pending, (hostRow call.hostId).changes write → db.hasHost call.hostId = true := by
  cases h with
  | asking hasks hblank =>
      have hnone : s.pending = [] := (List.append_eq_nil_iff.mp hblank.batch).2
      simp [hnone]
  | adding hlooked hblank =>
      have hnone : s.pending = [] := (List.append_eq_nil_iff.mp hblank.batch).2
      simp [hnone]
  | flushing token now register hregister hp hflushed hpending hcommitted =>
      rintro write hwrite ⟨report, at', rfl⟩
      rw [hpending] at hwrite
      obtain rfl := List.mem_singleton.mp hwrite
      rcases hregister with hfirst | ⟨-, hhost⟩
      · cases hfirst
      · exact hhost
  | holding token hlocked hadds hpending hrow hensures halone =>
      exact fun write hwrite hchanges => ((hpending write hwrite).not_changes _ hchanges).elim
  | ended hquiet hpending =>
      exact fun write hwrite hchanges => ((hpending write hwrite).not_changes _ hchanges).elim

/-- Only a session that holds the host's row commits, and then it commits what an enrollment
commits alone. -/
theorem issues_of_commit {next : Option DbError → Service EnrollmentResult}
    (h : Rotating env call db p s) (hcommit : p = .commit next) :
    (∃ write ∈ s.flushed, (hostRow call.hostId).Touches write) ∧
      ∃ token draws, Issues env draws db call token s.batch := by
  subst hcommit
  cases h with
  | asking hasks hblank => exact hasks.elim
  | adding hlooked hblank =>
      obtain ⟨token, now, register, -, hnext⟩ := hlooked
      cases hnext
  | flushing token now register hregister hp hflushed hpending hcommitted => cases hp
  | holding token hlocked hadds hpending hrow hensures halone =>
      exact ⟨hrow, token, hensures.of_commit.2⟩
  | ended hquiet hpending => exact hquiet.elim

/-- One step of an enrollment. -/
theorem advance (h : Rotating env call db p s)
    (hstep : p.advance store s db = some (p', s', db')) : Rotating env call db' p' s' := by
  cases h with
  | asking hasks hblank =>
      have hflushed : s.flushed = [] := (List.append_eq_nil_iff.mp hblank.batch).1
      obtain ⟨hnext, ⟨draws, rfl⟩, rfl⟩ := hasks.advance hflushed hstep
      rcases hnext with hlooked | hasks'
      · exact .adding hlooked ⟨hblank.batch, hblank.committed⟩
      · exact .asking hasks' ⟨hblank.batch, hblank.committed⟩
  | adding hlooked hblank =>
      obtain ⟨token, now, register, hregister, rfl⟩ := hlooked
      obtain ⟨hflushed, hpending⟩ := List.append_eq_nil_iff.mp hblank.batch
      cases hstep
      exact .flushing token now register hregister rfl hflushed (by simp [hpending])
        hblank.committed
  | flushing token now register hregister hp hflushed hpending hcommitted =>
      subst hp
      have hbatch : s.batch = [register] := by rw [Session.batch, hflushed, hpending]; rfl
      rw [flush, Program.bind, Program.advance] at hstep
      cases herror : s.flushError store db with
      | some error =>
          rw [herror] at hstep
          cases hstep
          exact .ended trivial (by simp)
      | none =>
          -- The row is written: from here on the enrollment is alone with its host.
          rw [herror] at hstep
          cases hstep
          have haccepted : store.refuses db register = none := by
            have hall := Session.refusesAll_of_flushError herror
            rw [Session.view, hflushed, hpending] at hall
            exact ((Store.refusesAll_cons_eq_none store).mp hall).1
          refine .holding token (locked_enrollRegistered env call token now)
            (adds_enrollRegistered env call token now) (by simp)
            ⟨register, by simp [hbatch], hregister.touches⟩ ?_ ?_
          · have hissues (t : ServiceSession) (hnothing : t.committedWrites = [])
                (hissues : Issues env s.draws db call token t.batch) : t.committedWrites = [] ∧
                  ∃ draws, Issues env draws db call token t.batch := ⟨hnothing, s.draws, hissues⟩
            have hends := concludes_enrollRegistered (s := s.afterFlush) env call token now hissues
              ⟨0, rfl⟩ hcommitted rfl (hregister.registers haccepted) hbatch
            exact hends.mono fun _ _ _ => trivial
          · rw [Program.alone, Session.committedWrites_afterFlush, hcommitted, Store.applyAll_nil]
  | holding token hlocked hadds hpending hrow hensures halone =>
      obtain ⟨hadds', hpending'⟩ := hadds.advance_pending hpending hstep
      obtain ⟨write, hwrite, htouches⟩ := hrow
      rcases hlocked.advance_flushed hstep hwrite with hquiet | hkept
      · exact .ended hquiet hpending'
      · rcases hlocked.advance hstep with ⟨hlocked', -, -, rfl⟩ | ⟨hquiet, -⟩
        · exact .holding token hlocked' hadds' hpending' ⟨write, hkept, htouches⟩
            (hensures.advance halone hstep) (Program.alone_advance halone hstep)
        · exact .ended hquiet hpending'
  | ended hquiet hpending =>
      obtain ⟨-, hpending'⟩ := hquiet.adds.advance_pending hpending hstep
      exact .ended (hquiet.advance hstep).1 hpending'

/-- An enrollment that is finished stays over. -/
theorem close (hfinished : p.advance store s db = none) : Rotating env call db p s.close :=
  .ended (Program.quiet_of_finished hfinished) (by simp [Session.close])

end Rotating

/-- The batch of an enrollment leaves its host with one live credential at most. -/
theorem Issues.single {draws : ℕ → Draw} {batch : List Write}
    (h : Issues env draws db call token batch) :
    ((store.applyAll batch db).activeCredentials call.hostId).length ≤ 1 := by
  cases h with
  | issued now register credential hregister hhost hdrawn haccepted =>
      have hrevoking : ∀ write ∈ register :: revocations db call.hostId now,
          write.OnlyRevokes := by
        refine List.forall_mem_cons.mpr ⟨?_, onlyRevokes_revocations⟩
        cases hregister <;> trivial
      have hdead := not_live_of_revocations now hrevoking fun write hwrite =>
        List.mem_cons_of_mem _ hwrite
      have hnone : (store.applyAll (register :: revocations db call.hostId now) db).activeCredentials
          call.hostId = [] := by
        rw [List.eq_nil_iff_forall_not_mem]
        intro row hrow
        exact hdead ⟨row, mem_activeCredentials.mp hrow⟩
      rw [Store.applyAll_append]
      show (List.filter _ ((store.applyAll (register :: revocations db call.hostId now) db).credentials
        ++ [credential])).length ≤ 1
      rw [Db.activeCredentials] at hnone
      rw [List.filter_append, hnone, List.nil_append]
      exact List.length_filter_le _ [credential]

section Runs

variable {ι : Type} [DecidableEq ι] {calls : ι → EnrollmentIn} {hostId : Uuid}
  {σ : System ι Db Write ℤ Draw Failure EnrollmentResult} {k : ι}

/-- Every enrollment is in its phase, one transaction at most holds the host's row, and the
host has one live credential at most. -/
structure Rotated (env : Environment) (calls : ι → EnrollmentIn) (hostId : Uuid)
    (σ : System ι Db Write ℤ Draw Failure EnrollmentResult) : Prop where
  phases : ∀ i, Rotating env (calls i) σ.db (σ.program i) (σ.session i)
  kept : (hostRow hostId).Kept σ
  single : (σ.db.activeCredentials hostId).length ≤ 1

theorem Rotated.move (h : Rotated env calls hostId σ) (hhost : ∀ i, (calls i).hostId = hostId)
    (hadmits : ∀ write ∈ (σ.session k).batch, write.IsEnrolling) (hfree : ¬ σ.Blocked store k) :
    Rotated env calls hostId (σ.move store k) := by
  have hphases : ∀ i, Rotating env (calls i) (σ.move store k).db ((σ.move store k).program i)
      ((σ.move store k).session i) := by
    intro i
    by_cases hik : i = k
    · subst hik
      cases hstep : (σ.program i).advance store (σ.session i) σ.db with
      | none =>
          obtain ⟨hprogram, hsession, hdb⟩ := System.move_of_finished hstep
          rw [hprogram, hsession, hdb]
          exact Rotating.close hstep
      | some after =>
          obtain ⟨p, s, db⟩ := after
          obtain ⟨hprogram, hsession, hdb⟩ := System.move_of_advance hstep
          rw [hprogram, hsession, hdb]
          exact (h.phases i).advance hstep
    · rw [System.move_program_of_ne hik, System.move_session_of_ne hik]
      rcases System.move_db store σ k with hsame | ⟨next, hcommit, -, -, -, hdb⟩
      · rw [hsame]
        exact h.phases i
      · refine (h.phases i).frame (fun hpresent => ?_) ?_
        · rw [hdb]
          exact (hostRow (calls i).hostId).stays_applyAll hadmits hpresent
        · -- The session that commits holds the row itself.
          rintro ⟨other, hother, htouches⟩
          obtain ⟨⟨write, hwrite, hholds⟩, -⟩ := (h.phases k).issues_of_commit hcommit
          rw [hhost] at htouches hholds
          exact (h.kept.apart k i (Ne.symm hik) write hwrite hholds other hother htouches).elim
  have hpresent := (hphases k).present_of_pending
  rw [hhost] at hpresent
  refine ⟨hphases, h.kept.move hadmits hfree hpresent, ?_⟩
  rcases System.move_db store σ k with hsame | ⟨next, hcommit, -, -, -, hdb⟩
  · rw [hsame]
    exact h.single
  · obtain ⟨-, token, draws, hissues⟩ := (h.phases k).issues_of_commit hcommit
    rw [hdb, ← hhost k]
    exact hissues.single

end Runs

end Host

end Central
