/-
# Scan ids

An agent names each scan, and a snapshot whose name is on file is answered as one that has
been processed. The name is looked up among the scans of every host: as long as no scan of
another host is on file under it when it is looked up, the answer is right, whatever the
order of the steps. A name that another host has used first makes Central report a snapshot
as stored that it has thrown away.
-/

import PortForge.Central.SnapshotRuns
import PortForge.Transaction.Provenance

namespace Central

open Transaction

/-- What a call does under the lock, beginning with the look-up of its scan id. -/
def SnapshotCall.locked (env : Environment) (call : SnapshotCall) : Service IngestionResult :=
  ingestLocked env call.hostId call.scanId call.observedAt.micros call.observations

/-- Scans come onto file in a snapshot. -/
def scansOnFile : Provenance store Scan where
  onFile db scan := scan ∈ db.scans
  brings write scan := write = .insertScan scan
  onFile_apply write db scan h := by
    cases write with
    | insertScan row =>
        rcases List.mem_append.mp h with hold | hnew
        · exact .inl hold
        · exact .inr (congrArg Write.insertScan (List.mem_singleton.mp hnew).symm)
    | purgeHost table hostId =>
        cases table <;> first | exact .inl h | exact .inl (List.mem_of_mem_filter h)
    | _ => exact .inl h

theorem adds_snapshot (env : Environment) (call : SnapshotCall) :
    (call.program env).Adds (Write.IsIngesting call.hostId call.scanId) := by
  rw [SnapshotCall.program, ingestSnapshot]
  split
  · trivial
  · exact Program.Adds.bind trivial fun _ => (locked_ingestLocked env _ _ _ _).2

section Answers

variable {env : Environment} {call : SnapshotCall}

/-- A snapshot that was not found on file is answered as new, and committed. -/
def AnsweredAsNew (s : ServiceSession) (result : Except Failure IngestionResult) : Prop :=
  ∀ out, result = .ok out → out.reason = none ∧ s.committedWrites ≠ []

theorem answeredAsNew_ingestFor (env : Environment) (host : Host) (hostId scanId : Uuid)
    (observedAt : ℤ) (observations : List ObservationIn) (s : ServiceSession) :
    (ingestFor env host hostId scanId observedAt observations).Ensures store (fun _ _ => True)
      (fun _ => True) s AnsweredAsNew := by
  rw [ingestFor]
  split
  · rintro out ⟨⟩
  · split
    · rintro out ⟨⟩
    · next canonical _ =>
        simp only [stageSnapshot, Program.bind_eq, Program.ensures_bind, ensures_select]
        intro seen _
        refine ensures_whenReadable (fun _ => ?_) (by rintro out ⟨⟩)
        refine ensures_stageDiff env _ _ _ _ fun later receivedAt => ?_
        simp only [ensures_commit]
        refine ⟨trivial, fun _ _ _ => ?_, fun _ error _ _ => ?_⟩
        · rintro out ⟨⟩
          refine ⟨rfl, ?_⟩
          rw [Session.committedWrites_afterCommit]
          apply List.append_ne_nil_of_right_ne_nil
          simp [Session.batch, scanWrites]
        · rintro out ⟨⟩

/-- Where a call stands: it has not looked its scan id up, it was told that the scan is
processed, or it goes on to store it. -/
inductive Looks (env : Environment) (call : SnapshotCall) (processed : Prop)
    (p : Service IngestionResult) (s : ServiceSession) : Prop
  | arriving (hp : p = call.program env) (hflushed : s.flushed = [])
  | locked (hp : p = call.locked env) (hflushed : s.flushed = [])
  | repeated (hp : p = .ret (duplicateScan call.scanId)) (hprocessed : processed)
  | storing (h : p.Ensures store (fun _ _ => True) (fun _ => True) s AnsweredAsNew)

theorem Looks.imp {processed processed' : Prop} {p : Service IngestionResult} {s : ServiceSession}
    (h : Looks env call processed p s) (himp : processed → processed') :
    Looks env call processed' p s := by
  cases h with
  | arriving hp hflushed => exact .arriving hp hflushed
  | locked hp hflushed => exact .locked hp hflushed
  | repeated hp hprocessed => exact .repeated hp (himp hprocessed)
  | storing h => exact .storing h

/-- The look-up: a scan on file under the id ends the call. -/
theorem looks_locked {db : Db} {processed : Prop} {p : Service IngestionResult}
    {s s' : ServiceSession} {db' : Db} (hflushed : s.flushed = [])
    (hprocessed : ∀ scan ∈ db.scans, scan.id = call.scanId → processed)
    (hstep : (call.locked env).advance store s db = some (p, s', db')) :
    Looks env call processed p s' := by
  cases hstep
  rw [Session.view_of_flushed_nil store hflushed]
  beta_reduce
  cases hscan : db.scans.find? fun scan => scan.id = call.scanId with
  | some scan =>
      have hanswer : Looks env call processed
          (whenReadable scan.readable (pure (duplicateScan call.scanId))) s := by
        refine of_whenReadable (fun p => Looks env call processed p s) (fun _ => ?_) ?_
        · refine .repeated rfl (hprocessed scan (List.mem_of_find?_eq_some hscan) ?_)
          simpa using List.find?_some hscan
        · exact .storing (by rintro out ⟨⟩)
      exact hanswer
  | none =>
      refine .storing ?_
      simp only [Program.bind_eq, Program.ensures_bind]
      intro seen _
      simp only [Program.bind]
      cases (Session.view store s seen).getHost call.hostId with
      | none => rintro out ⟨⟩
      | some host =>
          exact ensures_whenReadable (fun _ => answeredAsNew_ingestFor env host _ _ _ _ s)
            (by rintro out ⟨⟩)

/-- One operation of a call keeps it where it stands, or takes it to the next place. -/
theorem looks_advance {db : Db} {processed : Prop} {p p' : Service IngestionResult}
    {s s' : ServiceSession} {db' : Db} (h : Looks env call processed p s)
    (hprocessed : p = call.locked env →
      ∀ scan ∈ db.scans, scan.id = call.scanId → processed)
    (hstep : p.advance store s db = some (p', s', db')) : Looks env call processed p' s' := by
  cases h with
  | arriving hp hflushed =>
      rw [hp, SnapshotCall.program, ingestSnapshot] at hstep
      split at hstep
      · cases hstep
      · cases hstep
        exact .locked rfl hflushed
  | locked hp hflushed =>
      rw [hp] at hstep
      exact looks_locked hflushed (hprocessed hp) hstep
  | repeated hp =>
      rw [hp] at hstep
      cases hstep
  | storing h => exact .storing (h.advance trivial hstep)

theorem looks_close {processed : Prop} {p : Service IngestionResult} {s : ServiceSession}
    {db : Db} (h : Looks env call processed p s) (hstep : p.advance store s db = none) :
    Looks env call processed p s.close := by
  cases h with
  | arriving hp => exact .arriving hp rfl
  | locked hp => exact .locked hp rfl
  | repeated hp hprocessed => exact .repeated hp hprocessed
  | storing h =>
      refine .storing ?_
      rcases Program.eq_of_advance_eq_none hstep with ⟨value, rfl⟩ | ⟨error, rfl⟩
      · exact h
      · exact h

/-- What the call has answered. -/
theorem Looks.answered {processed : Prop} {s : ServiceSession} {result : IngestionResult}
    (h : Looks env call processed (.ret result) s) :
    (result = duplicateScan call.scanId ∧ processed) ∨
      result.reason = none ∧ s.committedWrites ≠ [] := by
  cases h with
  | arriving hp =>
      rw [SnapshotCall.program, ingestSnapshot] at hp
      split at hp <;> cases hp
  | locked hp => cases hp
  | repeated hp hprocessed =>
      cases hp
      exact .inl ⟨rfl, hprocessed⟩
  | storing h => exact .inr (h result rfl)

end Answers

/-! ## Runs -/

section Runs

variable {ι : Type} {env : Environment} {calls : ι → SnapshotCall} {db : Db}
  {draws : ι → ℕ → Draw} {σ : System ι Db Write ℤ Draw Failure IngestionResult}

/-- A snapshot of the host was accepted under the scan id: its scan is on file from before
the run, or a call of the run that submits it has committed it. -/
def AcceptedFor (calls : ι → SnapshotCall) (db : Db)
    (σ : System ι Db Write ℤ Draw Failure IngestionResult) (hostId scanId : Uuid) : Prop :=
  ∃ scan, scan.id = scanId ∧ scan.hostId = hostId ∧
    (scan ∈ db.scans ∨ ∃ j, (calls j).hostId = hostId ∧ (calls j).scanId = scanId ∧
      .insertScan scan ∈ (σ.session j).committedWrites)

theorem AcceptedFor.move [DecidableEq ι] {hostId scanId : Uuid}
    (h : AcceptedFor calls db σ hostId scanId)
    (k : ι) : AcceptedFor calls db (σ.move store k) hostId scanId := by
  obtain ⟨scan, hid, hhost, hstart | ⟨j, hcall, hscan, hcommitted⟩⟩ := h
  · exact ⟨scan, hid, hhost, .inl hstart⟩
  · exact ⟨scan, hid, hhost, .inr ⟨j, hcall, hscan, System.mem_committedWrites_move hcommitted k⟩⟩

/-- A call looks its scan id up when no scan of another host is on file under it. -/
def LooksAtOwn (env : Environment) (calls : ι → SnapshotCall)
    (σ : System ι Db Write ℤ Draw Failure IngestionResult) (i : ι) : Prop :=
  σ.program i = (calls i).locked env →
    ∀ scan ∈ σ.db.scans, scan.id = (calls i).scanId → scan.hostId = (calls i).hostId

/-- Each session writes on its own host and under its own scan id, and the scans on file are
those of the start and the committed ones. -/
structure Attributed (calls : ι → SnapshotCall) (db : Db)
    (σ : System ι Db Write ℤ Draw Failure IngestionResult) : Prop where
  writes : σ.WritesOf fun i => Write.IsIngesting (calls i).hostId (calls i).scanId
  scans : ∀ scan ∈ σ.db.scans, scansOnFile.Known db σ scan

theorem attributed_start :
    Attributed calls db (System.start db (fun i => (calls i).program env) draws) where
  writes := System.start_writesOf fun i => adds_snapshot env (calls i)
  scans _ hscan := .inl hscan

/-- A scan on file was accepted for its host. -/
theorem Attributed.acceptedFor (h : Attributed calls db σ) {scan : Scan}
    (hscan : scan ∈ σ.db.scans) : AcceptedFor calls db σ scan.hostId scan.id := by
  rcases h.scans scan hscan with hstart | ⟨j, write, hcommitted, rfl⟩
  · exact ⟨scan, rfl, rfl, .inl hstart⟩
  · obtain ⟨hhost, hid⟩ := (h.writes j).committed (.insertScan scan) hcommitted
    exact ⟨scan, rfl, rfl, .inr ⟨j, hhost.symm, hid.symm, hcommitted⟩⟩

variable [DecidableEq ι]

theorem Attributed.move (h : Attributed calls db σ) (k : ι) :
    Attributed calls db (σ.move store k) where
  writes := h.writes.move k
  scans _ hscan := Provenance.known_move (V := scansOnFile) h.scans k hscan

/-- One move keeps every call at a place where it is told nothing wrong. -/
theorem looks_move (hattributed : Attributed calls db σ)
    (hlooks : ∀ i, Looks env (calls i) (AcceptedFor calls db σ (calls i).hostId (calls i).scanId)
      (σ.program i) (σ.session i)) {k : ι} (hallowed : LooksAtOwn env calls σ k) (i : ι) :
    Looks env (calls i) (AcceptedFor calls db (σ.move store k) (calls i).hostId (calls i).scanId)
      ((σ.move store k).program i) ((σ.move store k).session i) := by
  refine Looks.imp ?_ fun haccepted => AcceptedFor.move haccepted k
  by_cases hik : i = k
  · subst hik
    cases hstep : (σ.program i).advance store (σ.session i) σ.db with
    | none =>
        obtain ⟨hprogram, hsession, -⟩ := System.move_of_finished hstep
        rw [hprogram, hsession]
        exact looks_close (hlooks i) hstep
    | some after =>
        obtain ⟨hprogram, hsession, -⟩ := System.move_of_advance hstep
        rw [hprogram, hsession]
        refine looks_advance (hlooks i) (fun hlocked scan hscan hid => ?_) hstep
        have haccepted := hattributed.acceptedFor hscan
        rwa [hid, hallowed hlocked scan hscan hid] at haccepted
  · rw [System.move_program_of_ne hik, System.move_session_of_ne hik]
    exact hlooks i

/-- What holds of the contents and of every call in a run. -/
theorem looks_of_reachable
    (hreach : System.Reachable store (LooksAtOwn env calls)
      (System.start db (fun i => (calls i).program env) draws) σ) :
    Attributed calls db σ ∧
      ∀ i, Looks env (calls i) (AcceptedFor calls db σ (calls i).hostId (calls i).scanId)
        (σ.program i) (σ.session i) := by
  induction hreach with
  | start => exact ⟨attributed_start, fun i => .arriving rfl rfl⟩
  | step _ _ hallowed ih => exact ⟨ih.1.move _, looks_move ih.1 ih.2 hallowed⟩

/-- Scan ids are isolated between hosts. In every run in which each scan id is looked up while
no scan of another host is on file under it, a snapshot is answered as processed only where
one was accepted under its id for the same host, and where none was, what is answered as
stored is stored. -/
theorem scan_ids_isolated (env : Environment) (calls : ι → SnapshotCall) (db : Db)
    (draws : ι → ℕ → Draw)
    (hreach : System.Reachable store (LooksAtOwn env calls)
      (System.start db (fun i => (calls i).program env) draws) σ)
    (i : ι) (result : IngestionResult) (hanswer : σ.program i = .ret result) :
    (result.reason ≠ none → AcceptedFor calls db σ (calls i).hostId (calls i).scanId) ∧
      ((σ.session i).committedWrites = [] →
        AcceptedFor calls db σ (calls i).hostId (calls i).scanId) := by
  have hlooks := (looks_of_reachable hreach).2 i
  rw [hanswer] at hlooks
  rcases hlooks.answered with ⟨-, haccepted⟩ | ⟨hreason, hstored⟩
  · exact ⟨fun _ => haccepted, fun _ => haccepted⟩
  · exact ⟨fun h => (h hreason).elim, fun h => (hstored h).elim⟩

end Runs

/-! ## Two submissions under one id -/

/-- A second host. -/
def sampleNeighbour : Host := { sampleHost with id := ⟨2⟩, hostname := "web-2" }

/-- Two hosts, of which nothing was scanned. -/
def sampleHosts : Db := { sampleDb with hosts := [sampleHost, sampleNeighbour] }

/-- The sample host submits a scan, and then the other host, or it once more, under that id. -/
def sampleScans (second : Uuid) (i : Bool) : SnapshotCall where
  hostId := if i then second else sampleHost.id
  scanId := ⟨50⟩
  observedAt := ⟨if i then 9 else 5, true⟩
  observations := [sampleObservation (if i then 8080 else 8000)]
  maxBatchSize := 1000

/-- A run of the two. -/
def sampleScanning (second : Uuid) : System Bool Db Write ℤ Draw Failure IngestionResult :=
  System.start sampleHosts (fun i => (sampleScans second i).program sampleEnvironment)
    fun i => sampleDraws (if i then 200 else 300)

/-- The sample host submits its scan once more. -/
theorem scan_ids_isolated_sample :
    ∃ σ, System.play store (List.replicate 20 false ++ List.replicate 5 true)
        (sampleScanning sampleHost.id) = some σ ∧
      σ.program true = .ret (duplicateScan ⟨50⟩) ∧
      AcceptedFor (sampleScans sampleHost.id) sampleHosts σ sampleHost.id ⟨50⟩ := by
  obtain ⟨σ, hplay, hanswer⟩ : ∃ σ, System.play store
      (List.replicate 20 false ++ List.replicate 5 true) (sampleScanning sampleHost.id) = some σ ∧
        σ.program true = .ret (duplicateScan ⟨50⟩) := ⟨_, rfl, rfl⟩
  have hown : ∀ i, (sampleScans sampleHost.id i).hostId = sampleHost.id := by decide
  have hreach : System.Reachable store
      (LooksAtOwn sampleEnvironment (sampleScans sampleHost.id))
      (sampleScanning sampleHost.id) σ := by
    refine System.Reachable.of_play_allowed
      (P := Attributed (sampleScans sampleHost.id) sampleHosts) .start attributed_start
      (fun υ hυ i _ => ⟨fun _ scan hscan _ => ?_, hυ.move i⟩) hplay
    obtain ⟨_, -, -, hstart | ⟨j, hhost, -⟩⟩ := hυ.acceptedFor hscan
    · cases hstart
    · rw [hown, ← hhost, hown]
  exact ⟨σ, hplay, hanswer, (scan_ids_isolated sampleEnvironment (sampleScans sampleHost.id)
    sampleHosts (fun i => sampleDraws (if i then 200 else 300)) hreach true _ hanswer).1
      (by decide)⟩

/-- The other host submits its scan under an id the sample host has used: it is answered as
processed, although nothing of that host was ever accepted, and none of its rows is there. -/
theorem scan_id_shared :
    ∃ σ, System.Reachable store System.anyOrder (sampleScanning sampleNeighbour.id) σ ∧
      σ.program true = .ret (duplicateScan ⟨50⟩) ∧ (duplicateScan ⟨50⟩).accepted = true ∧
      (sampleScans sampleNeighbour.id true).observations ≠ [] ∧
      σ.db.listCurrentForHost sampleNeighbour.id = [] ∧
      ¬ AcceptedFor (sampleScans sampleNeighbour.id) sampleHosts σ sampleNeighbour.id ⟨50⟩ := by
  obtain ⟨σ, hplay, hanswer, hrows, hnothing⟩ : ∃ σ, System.play store
      (List.replicate 20 false ++ List.replicate 5 true)
        (sampleScanning sampleNeighbour.id) = some σ ∧
        σ.program true = .ret (duplicateScan ⟨50⟩) ∧
        σ.db.listCurrentForHost sampleNeighbour.id = [] ∧
        (σ.session true).committedWrites = [] := ⟨_, rfl, rfl, rfl, rfl⟩
  refine ⟨σ, .of_play .start hplay, hanswer, rfl, by decide, hrows, ?_⟩
  rintro ⟨scan, -, -, hstart | ⟨j, hhost, -, hcommitted⟩⟩
  · cases hstart
  · cases j with
    | false => exact absurd hhost (by decide)
    | true =>
        rw [hnothing] at hcommitted
        cases hcommitted

end Central
