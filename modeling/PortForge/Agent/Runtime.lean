/-
# The agent's loop

`AgentRuntime.run`: a heartbeat when one is due, the probes and the upgrade that Central
delivers with it, a snapshot when one is due, and the wait for the next action. Everything
outside the loop answers with a result or an exception, and each `except` clause catches
what it catches in the source, so a statement about every run is one about every behaviour
of Central, of the operating system and of the disk.

Instants and durations are microseconds. The delay that `next_delay` draws at random and
returns is left out: the loop looks at `current_delay` only.
-/

import PortForge.Agent.Discovery
import PortForge.Agent.UpgradeRuns
import PortForge.Effects.Histories

namespace Agent.Runtime

open Effects Discovery
open Upgrade (Outside Payload)

/-- A second, in microseconds. -/
def second : ℤ := 1000000

/-- `ExponentialBackoff`. -/
structure Backoff where
  initial : ℤ
  maxDelay : ℤ
  factor : ℤ
  currentDelay : Option ℤ

/-- `next_delay`, as far as it changes the object. -/
def Backoff.nextDelay (backoff : Backoff) : Backoff :=
  { backoff with currentDelay :=
      match backoff.currentDelay with
      | none => some backoff.initial
      | some delay => some (min backoff.maxDelay (delay * backoff.factor)) }

/-- `reset`. -/
def Backoff.reset (backoff : Backoff) : Backoff := { backoff with currentDelay := none }

/-- `RuntimeState`. -/
structure RuntimeState where
  lastScan : Option ℤ := none
  lastSync : Option ℤ := none
  lastSyncError : Option String := none
  lastHeartbeat : Option ℤ := none
  lastObservationCount : ℕ := 0
  agentVersion : String := ""
  sequenceId : ℤ := 0

/-- What `capture_snapshot` changes of the state. -/
def RuntimeState.scanned (state : RuntimeState) (lastScan : ℤ) (observations : ℕ) : RuntimeState :=
  { state with
    sequenceId := state.sequenceId + 1
    lastScan := some lastScan
    lastObservationCount := observations }

/-- What `capture_snapshot` builds. -/
structure Snapshot where
  scanId : Central.Uuid
  observedAt : ℤ
  sequence : ℤ
  observations : List Central.ObservationIn

/-- A `CentralResult`, with the upgrade that a heartbeat's response carries, if any. -/
structure CentralResult where
  success : Bool
  error : Option String
  pendingUpgrade : Option Payload

/-- What the loop asks of its surroundings. -/
inductive Op
  | /-- Whether a signal has come by now. -/
    signal
  | /-- `time.time`. -/
    time
  | /-- The facts of the host, and `client.heartbeat` with them. -/
    heartbeat
  | /-- `process_pending_probes`. -/
    probes
  | /-- `run_upgrade`. -/
    upgrade (pending : Payload)
  | /-- `discover_all_ports`, with the state `evaluate_physical` gives each port. -/
    discover
  | /-- `uuid.uuid4`. -/
    newScanId
  | /-- `client.submit_observations`. -/
    submit (snapshot : Snapshot)
  | /-- `save_state`. -/
    saveState (state : RuntimeState)
  | /-- `time.sleep`, for half a second. -/
    sleep

/-- What it is answered. -/
def Op.Answer : Op → Type
  | signal => Bool
  | time => ℤ
  | heartbeat => Except Outside CentralResult
  | probes => Except Outside ℕ
  | upgrade _ => Except Outside Bool
  | discover => Except Outside (List (PortState × Discovery.DiscoveredPort))
  | newScanId => Central.Uuid
  | submit _ => Except Outside CentralResult
  | saveState _ => Except Outside Unit
  | sleep => Unit

/-- A part of the loop. -/
abbrev Script := Program Op Op.Answer Outside

/-- An operation with its answer. -/
abbrev Event := Sigma Op.Answer

/-- The runtime: its own fields, those of its `SyncManager`, and the two variables of `run`. -/
structure Daemon where
  running : Bool
  state : RuntimeState
  buffered : Option Snapshot
  backoff : Backoff
  lastScanTime : ℤ
  lastHeartbeatTime : ℤ

/-- The runtime as the loop is entered. -/
def Daemon.start (state : RuntimeState) : Daemon where
  running := true
  state := state
  buffered := none
  backoff := ⟨second, 60 * second, 2, none⟩
  lastScanTime := 0
  lastHeartbeatTime := 0

def scanInterval : ℤ := 15 * second

def heartbeatInterval : ℤ := 30 * second

/-- `save_state`, whose exception nothing in the loop catches. -/
def saveState (state : RuntimeState) : Script Unit :=
  .call (.saveState state) fun (answer : Except Outside Unit) => Program.ofExcept answer

/-- `SyncManager.capture_snapshot` within its `try`: the state, also where it fails, and the
snapshot or the exception. Nothing raises between the discovery and `save_state`. -/
def captureSnapshot (state : RuntimeState) : Script (RuntimeState × Except Outside Snapshot) :=
  .call .discover fun (found : Except Outside (List (PortState × Discovery.DiscoveredPort))) =>
    match found with
    | .error error => .ret (state, .error error)
    | .ok ports =>
        .call .newScanId fun (scanId : Central.Uuid) =>
        .call .time fun (observedAt : ℤ) =>
        .call .time fun (lastScan : ℤ) =>
          let snapshot : Snapshot :=
            { scanId := scanId
              observedAt := observedAt
              sequence := state.sequenceId + 1
              observations := ports.map fun entry => captureObservation entry.1 entry.2 }
          let state := state.scanned lastScan ports.length
          .call (.saveState state) fun (answer : Except Outside Unit) =>
            .ret (state, answer.map fun _ => snapshot)

/-- `SyncManager.flush_snapshot`. -/
def flushSnapshot (daemon : Daemon) (snapshot : Option Snapshot) : Script (Daemon × Bool) :=
  let daemon := { daemon with buffered := snapshot <|> daemon.buffered }
  match daemon.buffered with
  | none => .ret (daemon, true)
  | some target =>
      .call (.submit target) fun (answer : Except Outside CentralResult) =>
        match answer with
        | .error error => .raise error
        | .ok result =>
            if result.success then
              .call .time fun (now : ℤ) =>
                let state := { daemon.state with lastSync := some now, lastSyncError := none }
                (saveState state).bind fun _ =>
                  .ret ({ daemon with buffered := none, state := state }, true)
            else
              let state := { daemon.state with lastSyncError := result.error }
              (saveState state).bind fun _ => .ret ({ daemon with state := state }, false)

/-- `_handle_pending_upgrade`, within its `try`. -/
def handlePendingUpgrade (daemon : Daemon) (pending : Payload) : Script Daemon :=
  .call (.upgrade pending) fun (answer : Except Outside Bool) =>
    match answer with
    | .ok true => .ret { daemon with running := false }
    | _ => .ret daemon

/-- The heartbeat of a pass, when one is due. -/
def beat (now : ℤ) (daemon : Daemon) : Script Daemon :=
  if heartbeatInterval ≤ now - daemon.lastHeartbeatTime then
    .call .heartbeat fun (answer : Except Outside CentralResult) =>
      match answer with
      | .error error => .raise error
      | .ok result =>
          if result.success then
            .call .time fun (sentAt : ℤ) =>
              let state := { daemon.state with lastHeartbeat := some sentAt }
              (saveState state).bind fun _ =>
                let daemon :=
                  { daemon with
                    lastHeartbeatTime := sentAt
                    state := state
                    backoff := daemon.backoff.reset }
                .call .probes fun _ =>
                  match result.pendingUpgrade with
                  | none => .ret daemon
                  | some pending => handlePendingUpgrade daemon pending
          else .ret { daemon with backoff := daemon.backoff.nextDelay }
  else .ret daemon

/-- The snapshot of a pass, when one is due. -/
def scan (now : ℤ) (daemon : Daemon) : Script Daemon :=
  if scanInterval ≤ now - daemon.lastScanTime then
    (captureSnapshot daemon.state).bind fun captured =>
      let daemon := { daemon with state := captured.1 }
      match captured.2 with
      | .error _ => .ret daemon
      | .ok snapshot =>
          (flushSnapshot daemon (some snapshot)).bind fun flushed =>
            if flushed.2 then
              .call .time fun (sentAt : ℤ) =>
                .ret { flushed.1 with
                  backoff := flushed.1.backoff.reset
                  lastScanTime := sentAt }
            else .ret { flushed.1 with backoff := flushed.1.backoff.nextDelay }
  else .ret daemon

/-- How long a pass waits. -/
def sleepTime (now : ℤ) (daemon : Daemon) : ℤ :=
  let timeToNextScan := max 0 (scanInterval - (now - daemon.lastScanTime))
  let timeToNextHeartbeat := max 0 (heartbeatInterval - (now - daemon.lastHeartbeatTime))
  let sleepTime := min timeToNextScan timeToNextHeartbeat
  let sleepTime := if sleepTime ≤ 0 then second else sleepTime
  match daemon.backoff.currentDelay with
  | none => sleepTime
  | some delay => max sleepTime delay

/-- `self._running`, which a signal clears. -/
def checkRunning (daemon : Daemon) : Script Daemon :=
  .call .signal fun (came : Bool) => .ret { daemon with running := daemon.running && !came }

/-- The wait, in steps of half a second. -/
def nap : ℕ → Daemon → Script Daemon
  | 0, daemon => .ret daemon
  | steps + 1, daemon =>
      (checkRunning daemon).bind fun daemon =>
        if daemon.running then .call .sleep fun _ => nap steps daemon else .ret daemon

/-- The steps of a wait: as many half seconds as cover it. -/
def napSteps (duration : ℤ) : ℕ := ((2 * duration + second - 1) / second).toNat

/-- One pass of the loop. -/
def pass (daemon : Daemon) : Script Daemon :=
  .call .time fun (now : ℤ) =>
    (beat now daemon).bind fun daemon =>
    (scan now daemon).bind fun daemon =>
    .call .time fun (now : ℤ) => nap (napSteps (sleepTime now daemon)) daemon

/-- The loop, for at most so many passes. -/
def loop : ℕ → Daemon → Script Daemon
  | 0, daemon => .ret daemon
  | passes + 1, daemon =>
      (checkRunning daemon).bind fun daemon =>
        if daemon.running then (pass daemon).bind fun daemon => loop passes daemon
        else .ret daemon

/-- `AgentRuntime.run`: without a configured Central or a credential there is no loop. -/
def run (enabled hasToken : Bool) (state : RuntimeState) (passes : ℕ) : Script (Option Daemon) :=
  if enabled && hasToken then
    (loop passes (Daemon.start state)).bind fun daemon => .ret (some daemon)
  else .ret none

/-! ## Histories -/

/-- What became of an attempt to reach Central. -/
def succeeded : Except Outside CentralResult → Option Bool
  | .ok result => some result.success
  | .error _ => none

/-- Whether an event is an attempt to reach Central that was answered, and how it went. -/
def attempt : Event → Option Bool
  | ⟨.heartbeat, answer⟩ => succeeded answer
  | ⟨.submit _, answer⟩ => succeeded answer
  | _ => none

/-- The snapshot of a submission. -/
def submission : Event → Option Snapshot
  | ⟨.submit snapshot, _⟩ => some snapshot
  | _ => none

/-- The submitted snapshots. -/
def submitted (events : List Event) : List Snapshot := events.filterMap submission

/-- How many attempts have failed since the last one that did not. -/
def failures (events : List Event) : ℕ :=
  events.foldl (fun count event =>
    match attempt event with
    | none => count
    | some true => 0
    | some false => count + 1) 0

/-- The snapshot that was submitted last, as long as Central has not taken it. -/
def waiting (events : List Event) : Option Snapshot :=
  events.foldl (fun held event =>
    match submission event with
    | none => held
    | some snapshot => if attempt event = some true then none else some snapshot) none

/-- The delay after so many failures: it doubles up to a minute. -/
def delayAfter : ℕ → Option ℤ
  | 0 => none
  | failures + 1 => some (min (60 * second) (second * 2 ^ failures))

/-- An upgrade has succeeded. -/
def Upgraded (events : List Event) : Prop :=
  ∃ pending, (⟨.upgrade pending, (.ok true : Except Outside Bool)⟩ : Event) ∈ events

/-- A signal has been noticed. -/
def Signalled (events : List Event) : Prop := (⟨.signal, true⟩ : Event) ∈ events

/-- The last thing that happened is that this snapshot was captured. -/
def JustCaptured (events : List Event) (snapshot : Snapshot) : Prop :=
  ∃ before ports lastScan state, events = before ++
      [⟨.discover, (.ok ports : Except Outside (List (PortState × Discovery.DiscoveredPort)))⟩,
        ⟨.newScanId, snapshot.scanId⟩, ⟨.time, snapshot.observedAt⟩, ⟨.time, lastScan⟩,
        ⟨.saveState state, (.ok () : Except Outside Unit)⟩] ∧
    snapshot.observations = ports.map fun entry => captureObservation entry.1 entry.2

/-- The last thing that happened is that a heartbeat was answered with this upgrade, and the
probes were dealt with. -/
def JustDelivered (events : List Event) (pending : Payload) : Prop :=
  ∃ before result sentAt state probed, events = before ++
      [⟨.heartbeat, (.ok result : Except Outside CentralResult)⟩, ⟨.time, sentAt⟩,
        ⟨.saveState state, (.ok () : Except Outside Unit)⟩, ⟨.probes, probed⟩] ∧
    result.success = true ∧ result.pendingUpgrade = some pending

/-- What the loop may do after these events. Once a signal is noticed it does nothing but look
for one, and after a successful upgrade it asks Central for nothing more. -/
def Admits (before : List Event) (event : Event) : Prop :=
  (Signalled before → event.1 = .signal) ∧
    match event.1 with
    | .submit snapshot => JustCaptured before snapshot ∧
        ∀ earlier ∈ submitted before, earlier.sequence < snapshot.sequence
    | .heartbeat => ¬ Upgraded before
    | .upgrade pending => ¬ Upgraded before ∧ JustDelivered before pending
    | .sleep => ¬ Upgraded before ∧ ∃ rest, before = rest ++ [⟨.signal, false⟩]
    | _ => True

/-- The exception of an event that ends the loop: of a heartbeat, of a submission, or of saving
the state. -/
def Breaks : Event → Outside → Prop
  | ⟨.heartbeat, answer⟩, error => answer = .error error
  | ⟨.submit _, answer⟩, error => answer = .error error
  | ⟨.saveState _, answer⟩, error => answer = .error error
  | _, _ => False

/-! ## One event more -/

section Concat

variable {events : List Event} {event : Event}

theorem submitted_concat :
    submitted (events ++ [event]) = submitted events ++ (submission event).toList := by
  unfold submitted
  rw [List.filterMap_append]
  cases h : submission event <;> simp [h]

theorem failures_concat_of_none (h : attempt event = none) :
    failures (events ++ [event]) = failures events := by
  simp [failures, h]

theorem failures_concat_of_succeeded (h : attempt event = some true) :
    failures (events ++ [event]) = 0 := by
  simp [failures, h]

theorem failures_concat_of_failed (h : attempt event = some false) :
    failures (events ++ [event]) = failures events + 1 := by
  simp [failures, h]

theorem waiting_concat_of_none (h : submission event = none) :
    waiting (events ++ [event]) = waiting events := by
  simp [waiting, h]

theorem waiting_concat_of_submission {snapshot : Snapshot} (h : submission event = some snapshot) :
    waiting (events ++ [event]) = if attempt event = some true then none else some snapshot := by
  simp [waiting, h]

theorem upgraded_concat :
    Upgraded (events ++ [event]) ↔
      Upgraded events ∨
        ∃ pending, event = ⟨.upgrade pending, (.ok true : Except Outside Bool)⟩ := by
  simp only [Upgraded, List.mem_append, List.mem_singleton, exists_or, eq_comm (b := event)]

theorem signalled_concat :
    Signalled (events ++ [event]) ↔ Signalled events ∨ event = ⟨.signal, true⟩ := by
  simp only [Signalled, List.mem_append, List.mem_singleton, eq_comm (b := event)]

end Concat

theorem nextDelay_delayAfter (failed : ℕ) :
    (Backoff.mk second (60 * second) 2 (delayAfter failed)).nextDelay =
      ⟨second, 60 * second, 2, delayAfter (failed + 1)⟩ := by
  cases failed with
  | zero => rfl
  | succ failed =>
      simp only [Backoff.nextDelay, delayAfter, pow_succ, second]
      congr 2
      omega

/-! ## What every step keeps -/

/-- The history is orderly, and the runtime is what its history says. -/
structure Kept (events : List Event) (daemon : Daemon) : Prop where
  orderly : Orderly Admits events
  running : daemon.running = true ↔ ¬ Upgraded events ∧ ¬ Signalled events
  buffered : daemon.buffered = waiting events
  backoff : daemon.backoff = ⟨second, 60 * second, 2, delayAfter (failures events)⟩
  sequence : ∀ snapshot ∈ submitted events, snapshot.sequence ≤ daemon.state.sequenceId

/-- How a run ends that raises: with the exception of its last event. -/
def Broken (events : List Event) (error : Outside) : Prop :=
  Orderly Admits events ∧ ∃ before event, events = before ++ [event] ∧ Breaks event error

/-- An operation that neither reaches for Central nor stops the loop. -/
def Quiet : Event → Prop
  | ⟨.signal, _⟩ | ⟨.heartbeat, _⟩ | ⟨.upgrade _, _⟩ | ⟨.submit _, _⟩ | ⟨.sleep, _⟩ => False
  | _ => True

section Steps

variable {events : List Event} {event : Event} {daemon daemon' : Daemon}

theorem kept_start {state : RuntimeState} : Kept [] (Daemon.start state) where
  orderly := orderly_nil
  running := by simp [Daemon.start, Upgraded, Signalled]
  buffered := rfl
  backoff := rfl
  sequence := by simp [submitted]

/-- What the invariant reads of the runtime. -/
theorem Kept.congr (h : Kept events daemon) (hrunning : daemon'.running = daemon.running)
    (hbuffered : daemon'.buffered = daemon.buffered) (hbackoff : daemon'.backoff = daemon.backoff)
    (hsequence : daemon.state.sequenceId ≤ daemon'.state.sequenceId) : Kept events daemon' where
  orderly := h.orderly
  running := by rw [hrunning, h.running]
  buffered := by rw [hbuffered, h.buffered]
  backoff := by rw [hbackoff, h.backoff]
  sequence snapshot hmem := (h.sequence snapshot hmem).trans hsequence

theorem Quiet.attempt_eq (h : Quiet event) : attempt event = none := by
  obtain ⟨op, answer⟩ := event
  cases op <;> first | rfl | exact absurd h id

theorem Quiet.submission_eq (h : Quiet event) : submission event = none := by
  obtain ⟨op, answer⟩ := event
  cases op <;> first | rfl | exact absurd h id

theorem Quiet.admits (h : Quiet event) (hsignal : ¬ Signalled events) : Admits events event := by
  refine ⟨fun hsignalled => absurd hsignalled hsignal, ?_⟩
  obtain ⟨op, answer⟩ := event
  cases op <;> first | exact trivial | exact absurd h id

theorem not_signalled_concat (h : ¬ Signalled events) (hsignal : event ≠ ⟨.signal, true⟩) :
    ¬ Signalled (events ++ [event]) := by
  rw [signalled_concat]
  exact not_or.mpr ⟨h, hsignal⟩

theorem Kept.running_concat (h : Kept events daemon)
    (hupgrade : ∀ pending, event ≠ ⟨.upgrade pending, (.ok true : Except Outside Bool)⟩)
    (hsignal : event ≠ ⟨.signal, true⟩) :
    daemon.running = true ↔ ¬ Upgraded (events ++ [event]) ∧ ¬ Signalled (events ++ [event]) := by
  simp [upgraded_concat, signalled_concat, hupgrade, hsignal, h.running]

/-- An event that neither succeeds nor fails at Central, and does not stop the loop. -/
theorem Kept.concat (h : Kept events daemon) (hadmits : Admits events event)
    (hattempt : attempt event = none) (hsubmission : submission event = none)
    (hupgrade : ∀ pending, event ≠ ⟨.upgrade pending, (.ok true : Except Outside Bool)⟩)
    (hsignal : event ≠ ⟨.signal, true⟩) : Kept (events ++ [event]) daemon where
  orderly := orderly_concat.mpr ⟨h.orderly, hadmits⟩
  running := h.running_concat hupgrade hsignal
  buffered := by rw [waiting_concat_of_none hsubmission, h.buffered]
  backoff := by rw [failures_concat_of_none hattempt, h.backoff]
  sequence := by simpa [submitted_concat, hsubmission] using h.sequence

/-- No signal has been noticed: the loop is in the middle of a pass. -/
structure Awake (events : List Event) (daemon : Daemon) : Prop where
  kept : Kept events daemon
  unsignalled : ¬ Signalled events

theorem Awake.quiet (h : Awake events daemon) (event : Event) (hquiet : Quiet event) :
    Awake (events ++ [event]) daemon := by
  have hsignal : event ≠ ⟨.signal, true⟩ := by
    rintro rfl
    exact hquiet
  refine ⟨h.kept.concat (hquiet.admits h.unsignalled) hquiet.attempt_eq hquiet.submission_eq ?_
    hsignal, not_signalled_concat h.unsignalled hsignal⟩
  rintro pending rfl
  exact hquiet

theorem Awake.congr (h : Awake events daemon) (hrunning : daemon'.running = daemon.running)
    (hbuffered : daemon'.buffered = daemon.buffered) (hbackoff : daemon'.backoff = daemon.backoff)
    (hsequence : daemon.state.sequenceId ≤ daemon'.state.sequenceId) : Awake events daemon' :=
  ⟨h.kept.congr hrunning hbuffered hbackoff hsequence, h.unsignalled⟩

theorem Kept.reached (h : Kept events daemon) {success : Bool}
    (hattempt : attempt event = some success) :
    (if success then daemon.backoff.reset else daemon.backoff.nextDelay) =
      ⟨second, 60 * second, 2, delayAfter (failures (events ++ [event]))⟩ := by
  cases success with
  | true => rw [if_pos rfl, h.backoff, failures_concat_of_succeeded hattempt]; rfl
  | false =>
      rw [if_neg Bool.false_ne_true, h.backoff, failures_concat_of_failed hattempt,
        nextDelay_delayAfter]

theorem Awake.heartbeat (h : Awake events daemon) (hupgrade : ¬ Upgraded events)
    (result : CentralResult) :
    Awake (events ++ [⟨.heartbeat, (.ok result : Except Outside CentralResult)⟩])
      { daemon with
        backoff := if result.success then daemon.backoff.reset else daemon.backoff.nextDelay } where
  kept :=
    { orderly := orderly_concat.mpr
        ⟨h.kept.orderly, fun hsignal => absurd hsignal h.unsignalled, hupgrade⟩
      running := h.kept.running_concat (fun _ heq => by cases heq) fun heq => by cases heq
      buffered := by rw [waiting_concat_of_none rfl, h.kept.buffered]
      backoff := h.kept.reached rfl
      sequence := by simpa [submitted_concat, submission] using h.kept.sequence }
  unsignalled := not_signalled_concat h.unsignalled fun heq => by cases heq

theorem Awake.submit (h : Awake events daemon) {snapshot : Snapshot}
    (hcaptured : JustCaptured events snapshot)
    (hnew : ∀ earlier ∈ submitted events, earlier.sequence < snapshot.sequence)
    (hsequence : snapshot.sequence ≤ daemon.state.sequenceId) (result : CentralResult) :
    Awake (events ++ [⟨.submit snapshot, (.ok result : Except Outside CentralResult)⟩])
      { daemon with
        buffered := if result.success then none else some snapshot
        backoff := if result.success then daemon.backoff.reset else daemon.backoff.nextDelay } where
  kept :=
    { orderly := orderly_concat.mpr
        ⟨h.kept.orderly, fun hsignal => absurd hsignal h.unsignalled, hcaptured, hnew⟩
      running := h.kept.running_concat (fun _ heq => by cases heq) fun heq => by cases heq
      buffered := by simp [waiting_concat_of_submission, submission, attempt, succeeded]
      backoff := h.kept.reached rfl
      sequence := by
        intro earlier hmem
        rw [submitted_concat, List.mem_append] at hmem
        rcases hmem with hbefore | hlast
        · exact h.kept.sequence earlier hbefore
        · obtain rfl : earlier = snapshot := by simpa [submission] using hlast
          exact hsequence }
  unsignalled := not_signalled_concat h.unsignalled fun heq => by cases heq

theorem saveState_leads (h : Awake events daemon) (state : RuntimeState) :
    (saveState state).Leads
      (fun later _ => later = events ++ [⟨.saveState state, (.ok () : Except Outside Unit)⟩] ∧
        Awake later daemon) Broken events := by
  intro (answer : Except Outside Unit)
  have hsaved := h.quiet ⟨.saveState state, answer⟩ trivial
  cases answer with
  | ok value => exact ⟨rfl, hsaved⟩
  | error error => exact ⟨hsaved.kept.orderly, events, _, rfl, rfl⟩

theorem captureSnapshot_leads (h : Awake events daemon) :
    (captureSnapshot daemon.state).Leads
      (fun later captured => Awake later { daemon with state := captured.1 } ∧
        ∀ snapshot, captured.2 = .ok snapshot → JustCaptured later snapshot ∧
          (∀ earlier ∈ submitted later, earlier.sequence < snapshot.sequence) ∧
          snapshot.sequence ≤ captured.1.sequenceId) Broken events := by
  intro (found : Except Outside (List (PortState × Discovery.DiscoveredPort)))
  have hdiscover := h.quiet ⟨.discover, found⟩ trivial
  cases found with
  | error error =>
      refine ⟨hdiscover, ?_⟩
      intro snapshot hsnapshot
      cases hsnapshot
  | ok ports =>
      intro (scanId : Central.Uuid) (observedAt : ℤ) (lastScan : ℤ) (answer : Except Outside Unit)
      have hscanned := ((hdiscover.quiet ⟨.newScanId, scanId⟩ trivial).quiet
        ⟨.time, observedAt⟩ trivial).quiet ⟨.time, lastScan⟩ trivial
      have hsaved := hscanned.quiet
        ⟨.saveState (daemon.state.scanned lastScan ports.length), answer⟩ trivial
      refine ⟨hsaved.congr rfl rfl rfl (Int.le_add_one le_rfl), ?_⟩
      intro snapshot hsnapshot
      cases answer with
      | error error => cases hsnapshot
      | ok value =>
          obtain rfl := Except.ok.inj hsnapshot
          refine ⟨⟨events, ports, lastScan, daemon.state.scanned lastScan ports.length, ?_, rfl⟩,
            ?_, le_rfl⟩
          · simp only [List.append_assoc, List.cons_append, List.nil_append]
          · exact fun earlier hmem => Int.lt_add_one_iff.mpr (hsaved.kept.sequence earlier hmem)

/-- A new snapshot is submitted; what the caller does with the delay is taken together with it. -/
theorem flushSnapshot_leads (h : Awake events daemon) {snapshot : Snapshot}
    (hcaptured : JustCaptured events snapshot)
    (hnew : ∀ earlier ∈ submitted events, earlier.sequence < snapshot.sequence)
    (hsequence : snapshot.sequence ≤ daemon.state.sequenceId) :
    (flushSnapshot daemon (some snapshot)).Leads
      (fun later flushed => Awake later { flushed.1 with
        backoff := if flushed.2 then flushed.1.backoff.reset else flushed.1.backoff.nextDelay })
      Broken events := by
  intro (answer : Except Outside CentralResult)
  cases answer with
  | error error =>
      refine ⟨orderly_concat.mpr ⟨h.kept.orderly, ?_⟩, events, _, rfl, rfl⟩
      exact ⟨fun hsignal => absurd hsignal h.unsignalled, hcaptured, hnew⟩
  | ok result =>
      have hsubmitted := h.submit hcaptured hnew hsequence result
      by_cases hsuccess : result.success
      · simp only [hsuccess, if_true] at hsubmitted ⊢
        intro (now : ℤ)
        have htime := hsubmitted.quiet ⟨.time, now⟩ trivial
        refine (saveState_leads htime _).bind ?_
        rintro later value ⟨-, hlater⟩
        exact hlater.congr rfl rfl rfl le_rfl
      · simp only [hsuccess, Bool.false_eq_true, if_false] at hsubmitted ⊢
        refine (saveState_leads hsubmitted _).bind ?_
        rintro later value ⟨-, hlater⟩
        exact hlater.congr rfl rfl rfl le_rfl

theorem scan_leads (h : Awake events daemon) (now : ℤ) :
    (scan now daemon).Leads Awake Broken events := by
  unfold scan
  split
  · refine (captureSnapshot_leads h).bind ?_
    rintro later ⟨state, captured⟩ ⟨hlater, hsnapshot⟩
    cases captured with
    | error error => exact hlater
    | ok snapshot =>
        obtain ⟨hcaptured, hnew, hsequence⟩ := hsnapshot snapshot rfl
        refine (flushSnapshot_leads hlater hcaptured hnew hsequence).bind ?_
        rintro last ⟨daemon', success⟩ hlast
        cases success with
        | true =>
            intro (sentAt : ℤ)
            exact (hlast.quiet ⟨.time, sentAt⟩ trivial).congr rfl rfl rfl le_rfl
        | false => exact hlast
  · exact h

theorem handlePendingUpgrade_leads (h : Awake events daemon) {pending : Payload}
    (hupgrade : ¬ Upgraded events) (hdelivered : JustDelivered events pending) :
    (handlePendingUpgrade daemon pending).Leads Awake Broken events := by
  intro (answer : Except Outside Bool)
  have hadmits : Admits events ⟨.upgrade pending, answer⟩ :=
    ⟨fun hsignal => absurd hsignal h.unsignalled, hupgrade, hdelivered⟩
  have hunsignalled : ¬ Signalled (events ++ [⟨.upgrade pending, answer⟩]) :=
    not_signalled_concat h.unsignalled fun heq => by cases heq
  by_cases hsucceeded : answer = .ok true
  · subst hsucceeded
    have hupgraded : Upgraded (events ++ [⟨.upgrade pending, (.ok true : Except Outside Bool)⟩]) :=
      upgraded_concat.mpr (.inr ⟨pending, rfl⟩)
    refine ⟨⟨orderly_concat.mpr ⟨h.kept.orderly, hadmits⟩, ?_, ?_, ?_, ?_⟩, hunsignalled⟩
    · simp [hupgraded]
    · rw [waiting_concat_of_none rfl, h.kept.buffered]
    · rw [failures_concat_of_none rfl, h.kept.backoff]
    · simpa [submitted_concat, submission] using h.kept.sequence
  · have hkept : Kept (events ++ [⟨.upgrade pending, answer⟩]) daemon := by
      refine h.kept.concat hadmits rfl rfl ?_ fun heq => by cases heq
      intro other heq
      cases heq
      exact hsucceeded rfl
    cases answer with
    | error error => exact ⟨hkept, hunsignalled⟩
    | ok succeeded =>
        cases succeeded with
        | true => exact absurd rfl hsucceeded
        | false => exact ⟨hkept, hunsignalled⟩

theorem beat_leads (h : Awake events daemon) (hrunning : daemon.running = true) (now : ℤ) :
    (beat now daemon).Leads Awake Broken events := by
  unfold beat
  split
  · intro (answer : Except Outside CentralResult)
    cases answer with
    | error error =>
        refine ⟨orderly_concat.mpr ⟨h.kept.orderly, ?_⟩, events, _, rfl, rfl⟩
        exact ⟨fun hsignal => absurd hsignal h.unsignalled, (h.kept.running.mp hrunning).1⟩
    | ok result =>
        have hheartbeat := h.heartbeat (h.kept.running.mp hrunning).1 result
        by_cases hsuccess : result.success
        · simp only [hsuccess, if_true] at hheartbeat ⊢
          intro (sentAt : ℤ)
          have htime := hheartbeat.quiet ⟨.time, sentAt⟩ trivial
          refine (saveState_leads htime _).bind ?_
          rintro later value ⟨rfl, hlater⟩
          intro (probed : Except Outside ℕ)
          have hprobed : Awake _ { daemon with
              lastHeartbeatTime := sentAt
              state := { daemon.state with lastHeartbeat := some sentAt }
              backoff := daemon.backoff.reset } :=
            (hlater.quiet ⟨.probes, probed⟩ trivial).congr rfl rfl rfl le_rfl
          cases hpending : result.pendingUpgrade with
          | none => exact hprobed
          | some pending =>
              refine handlePendingUpgrade_leads hprobed (hprobed.kept.running.mp hrunning).1
                ⟨events, result, sentAt, { daemon.state with lastHeartbeat := some sentAt }, probed,
                  ?_, hsuccess, hpending⟩
              simp only [List.append_assoc, List.cons_append, List.nil_append]
        · simp only [hsuccess, Bool.false_eq_true, if_false] at hheartbeat ⊢
          exact hheartbeat
  · exact h

/-- Looking for a signal, when nothing else has stopped the loop, or when it is over. -/
theorem checkRunning_leads (h : Kept events daemon) :
    (checkRunning daemon).Leads
      (fun later daemon' => Kept later daemon' ∧ (daemon'.running = true →
        Awake later daemon' ∧ ∃ rest, later = rest ++ [⟨.signal, false⟩])) Broken events := by
  intro (came : Bool)
  have hadmits : Admits events ⟨.signal, came⟩ := ⟨fun _ => rfl, trivial⟩
  cases came with
  | true =>
      have hsignalled : Signalled (events ++ [⟨.signal, true⟩]) := signalled_concat.mpr (.inr rfl)
      refine ⟨⟨orderly_concat.mpr ⟨h.orderly, hadmits⟩, ?_, ?_, ?_, ?_⟩, ?_⟩
      · simp [hsignalled]
      · rw [waiting_concat_of_none rfl, h.buffered]
      · rw [failures_concat_of_none rfl, h.backoff]
      · simpa [submitted_concat, submission] using h.sequence
      · simp
  | false =>
      have hkept : Kept (events ++ [⟨.signal, false⟩])
          { daemon with running := daemon.running && !false } :=
        (h.concat hadmits rfl rfl (fun _ heq => by cases heq) fun heq => by cases heq).congr
          (by simp) rfl rfl le_rfl
      refine ⟨hkept, fun hrunning => ⟨⟨hkept, (hkept.running.mp hrunning).2⟩, events, rfl⟩⟩

theorem nap_leads (h : Kept events daemon) (steps : ℕ) :
    (nap steps daemon).Leads Kept Broken events := by
  induction steps generalizing events daemon with
  | zero => exact h
  | succ steps ih =>
      refine (checkRunning_leads h).bind ?_
      rintro later daemon' ⟨hlater, hawake⟩
      split
      · rename_i hrunning
        obtain ⟨hawake, hchecked⟩ := hawake hrunning
        intro (slept : Unit)
        refine ih (hlater.concat ?_ rfl rfl (fun _ heq => by cases heq) fun heq => by cases heq)
        exact ⟨fun hsignal => absurd hsignal hawake.unsignalled,
          (hlater.running.mp hrunning).1, hchecked⟩
      · exact hlater

theorem pass_leads (h : Awake events daemon) (hrunning : daemon.running = true) :
    (pass daemon).Leads Kept Broken events := by
  intro (now : ℤ)
  have htime := h.quiet ⟨.time, now⟩ trivial
  refine (beat_leads htime hrunning now).bind ?_
  intro beaten daemon₁ hbeaten
  refine (scan_leads hbeaten now).bind ?_
  intro scanned daemon₂ hscanned (woken : ℤ)
  exact nap_leads (hscanned.quiet ⟨.time, woken⟩ trivial).kept _

/-- The loop, whatever its surroundings do. -/
theorem loop_leads (h : Kept events daemon) (passes : ℕ) :
    (loop passes daemon).Leads Kept Broken events := by
  induction passes generalizing events daemon with
  | zero => exact h
  | succ passes ih =>
      refine (checkRunning_leads h).bind ?_
      rintro later daemon' ⟨hlater, hawake⟩
      split
      · rename_i hrunning
        exact (pass_leads (hawake hrunning).1 hrunning).bind fun _ _ hpassed => ih hpassed
      · exact hlater

end Steps

theorem run_leads (enabled hasToken : Bool) (state : RuntimeState) (passes : ℕ) :
    (run enabled hasToken state passes).Leads
      (fun events result => Orderly Admits events ∧ ∀ daemon ∈ result, Kept events daemon)
      Broken [] := by
  unfold run
  split
  · refine (loop_leads kept_start passes).bind fun later daemon hlater => ⟨hlater.orderly, ?_⟩
    intro other hother
    obtain rfl := Option.some.inj hother
    exact hlater
  · exact ⟨orderly_nil, by simp⟩

/-- A pass in which the heartbeat fails and the snapshot arrives, cut short by a signal. -/
def briefEvents : List Event :=
  [⟨.signal, false⟩, ⟨.time, (60 * second : ℤ)⟩,
    ⟨.heartbeat, (.ok ⟨false, some "Timeout", none⟩ : Except Outside CentralResult)⟩,
    ⟨.discover, (.ok [] : Except Outside (List (PortState × Discovery.DiscoveredPort)))⟩,
    ⟨.newScanId, (⟨7⟩ : Central.Uuid)⟩, ⟨.time, (61 * second : ℤ)⟩, ⟨.time, (62 * second : ℤ)⟩,
    ⟨.saveState (RuntimeState.scanned {} (62 * second) 0), (.ok () : Except Outside Unit)⟩,
    ⟨.submit ⟨⟨7⟩, 61 * second, 1, []⟩, (.ok ⟨true, none, none⟩ : Except Outside CentralResult)⟩,
    ⟨.time, (63 * second : ℤ)⟩,
    ⟨.saveState { RuntimeState.scanned {} (62 * second) 0 with lastSync := some (63 * second) },
      (.ok () : Except Outside Unit)⟩,
    ⟨.time, (64 * second : ℤ)⟩, ⟨.time, (65 * second : ℤ)⟩, ⟨.signal, true⟩]

def briefDaemon : Daemon where
  running := false
  state := { RuntimeState.scanned {} (62 * second) 0 with lastSync := some (63 * second) }
  buffered := none
  backoff := ⟨second, 60 * second, 2, none⟩
  lastScanTime := 64 * second
  lastHeartbeatTime := 0

theorem brief_runs : (run true true {} 1).Runs briefEvents (.ok (some briefDaemon)) := by
  unfold briefEvents
  repeat' first | exact Program.Runs.ret _ | refine Program.Runs.call _ ?_

section Runs

variable {enabled hasToken : Bool} {state : RuntimeState} {passes : ℕ} {events : List Event}

/-- Whatever its surroundings do, and wherever it stops, the agent only does what is in order. -/
theorem run_orderly {outcome : Except Outside (Option Daemon)}
    (h : (run enabled hasToken state passes).Runs events outcome) : Orderly Admits events := by
  obtain ⟨hreturned, hraised⟩ := (run_leads enabled hasToken state passes).of_runs h
  cases outcome with
  | ok result => exact (hreturned result rfl).1
  | error error => exact (hraised error rfl).1

theorem brief_orderly : Orderly Admits briefEvents := run_orderly brief_runs

/-- After so many passes the runtime is what the history says: the delay doubles with each
failure in a row, and the buffer holds the last snapshot while Central has not taken it. -/
theorem run_keeps {daemon : Daemon}
    (h : (run enabled hasToken state passes).Runs events (.ok (some daemon))) :
    daemon.backoff.currentDelay = delayAfter (failures events) ∧
      daemon.buffered = waiting events ∧
      (daemon.running = false ↔ Upgraded events ∨ Signalled events) := by
  obtain ⟨hreturned, -⟩ := (run_leads enabled hasToken state passes).of_runs h
  have hkept : Kept events daemon := (hreturned _ rfl).2 daemon rfl
  refine ⟨congrArg Backoff.currentDelay hkept.backoff, hkept.buffered, ?_⟩
  rw [Bool.eq_false_iff, Ne, hkept.running]
  tauto

theorem brief_keeps : none = delayAfter (failures briefEvents) ∧ none = waiting briefEvents ∧
    (false = false ↔ Upgraded briefEvents ∨ Signalled briefEvents) := run_keeps brief_runs

/-- Only a heartbeat, a submission or saving the state can end the agent with an exception, and
then with its own. -/
theorem run_raises {error : Outside}
    (h : (run enabled hasToken state passes).Runs events (.error error)) :
    ∃ before event, events = before ++ [event] ∧ Breaks event error :=
  (((run_leads enabled hasToken state passes).of_runs h).2 error rfl).2

theorem unanswered_raises : ∃ before event,
    ([⟨.signal, false⟩, ⟨.time, (60 * second : ℤ)⟩,
      ⟨.heartbeat, (.error (.osError "No space left on device") :
        Except Outside CentralResult)⟩] : List Event) = before ++ [event] ∧
          Breaks event (.osError "No space left on device") := by
  refine @run_raises true true {} 1 _ _ ?_
  repeat' first | exact Program.Runs.raise _ | refine Program.Runs.call _ ?_

end Runs

end Agent.Runtime
