/-
# What Central knows of an agent's host

The loop of an agent on the one side, and on the other Central, which serves the snapshots of
every host. Between them a request may get lost, an answer may get lost after the request was
served, and a request may be served late or more than once. The agent never submits a snapshot
again, and drops it from its buffer on a positive answer only; Central takes no snapshot that
is older than what it has. Together this makes the current rows of the host those of the last
scan, as soon as the buffer is empty.
-/

import PortForge.Agent.Runtime
import PortForge.Central.ScanIds
import PortForge.Central.SnapshotOrder

namespace Fleet

open Transaction Central
open Agent.Runtime
open Agent.Upgrade (Outside)

/-! ## The two sides -/

/-- The call that Central makes of a snapshot. Its `observed_at` counts seconds since the epoch,
which the schema reads as UTC. -/
def callOf (hostId : Uuid) (maxBatchSize : ℕ) (snapshot : Snapshot) : SnapshotCall where
  hostId := hostId
  scanId := snapshot.scanId
  observedAt := ⟨snapshot.observedAt, true⟩
  observations := snapshot.observations
  maxBatchSize := maxBatchSize

/-- Calls of `ingest_snapshot`, one after another. -/
abbrev Turns := List (Turn SnapshotCall Draw)

section Delivery

variable (env : Environment) (hostId : Uuid) (maxBatchSize : ℕ) (start : Db) (before : Turns)

/-- What Central has served by the time the agent has come to the end of its events. -/
inductive Delivered : List Event → Turns → Prop
  | /-- Before the agent starts Central has served anything. -/
    start : Delivered [] before
  | /-- Other hosts submit at any time. -/
    other {events : List Event} {turns : Turns} (turn : Turn SnapshotCall Draw)
      (h : Delivered events turns) (hother : turn.call.hostId ≠ hostId) :
      Delivered events (turns ++ [turn])
  | /-- The agent does something else. -/
    event {events : List Event} {turns : Turns} (event : Event) (h : Delivered events turns)
      (hevent : submission event = none) : Delivered (events ++ [event]) turns
  | /-- The agent is told of no success, or of nothing. -/
    unanswered {events : List Event} {turns : Turns} (snapshot : Snapshot)
      (answer : Except Outside CentralResult) (h : Delivered events turns)
      (hanswer : ∀ result, answer = .ok result → result.success = false) :
      Delivered (events ++ [⟨.submit snapshot, answer⟩]) turns
  | /-- A request of the agent is served, late or once more. -/
    late {events : List Event} {turns : Turns} (turn : Turn SnapshotCall Draw)
      (h : Delivered events turns) {snapshot : Snapshot} (hsubmitted : snapshot ∈ submitted events)
      (hcall : turn.call = callOf hostId maxBatchSize snapshot) : Delivered events (turns ++ [turn])
  | /-- A request is served without an error, and the agent is told so. -/
    answered {events : List Event} {turns : Turns} (snapshot : Snapshot) (result : CentralResult)
      (turn : Turn SnapshotCall Draw) (h : Delivered events turns)
      (hsuccess : result.success = true)
      (hcall : turn.call = callOf hostId maxBatchSize snapshot) {out : IngestionResult}
      (hanswer : turn.answer store (SnapshotCall.program env)
        (Turn.runAll store (SnapshotCall.program env) turns start) = .ok out) :
      Delivered (events ++ [⟨.submit snapshot, (.ok result : Except Outside CentralResult)⟩])
        (turns ++ [turn])

/-- What the two sides rely on: Central starts empty, identifiers are not drawn twice, and the
clock of the agent's host runs forward. -/
structure Undisturbed (events : List Event) (turns : Turns) : Prop where
  unscanned : start.Unscanned
  scans : start.scans = []
  drawn : Unrepeated turns
  ids : ∀ turn ∈ turns, ∀ snapshot ∈ submitted events, turn.call.scanId = snapshot.scanId →
    turn.call = callOf hostId maxBatchSize snapshot
  clock : (submitted events).Pairwise fun earlier later => earlier.observedAt < later.observedAt
  older : ∀ turn ∈ before, turn.call.hostId = hostId → ∀ snapshot ∈ submitted events,
    turn.call.observedAt.micros < snapshot.observedAt

end Delivery

/-- A row, but for its identifier and the time it was first seen. -/
def shown (row : CurrentPortObservation) : CurrentPortObservation :=
  { row with id := ⟨0⟩, firstSeen := 0 }

/-- The current rows of the host are those of the snapshot. -/
def Shows (env : Environment) (hostId : Uuid) (snapshot : Snapshot) (db : Db) : Prop :=
  ∀ key, (db.rowsAt (hostId, key)).map shown =
    ((canonical snapshot.observations key).map fun obs =>
      shown (currentRow env hostId obs snapshot.scanId snapshot.observedAt ⟨0⟩)).toList

/-- The agent was told that Central has taken the snapshot. -/
def Confirmed (events : List Event) (snapshot : Snapshot) : Prop :=
  ∃ result : CentralResult, result.success = true ∧
    (⟨.submit snapshot, (.ok result : Except Outside CentralResult)⟩ : Event) ∈ events

/-! ## What Central has accepted -/

section Accepting

variable {env : Environment} {hostId : Uuid} {turn : Turn SnapshotCall Draw} {turns : Turns}
  {db start : Db} {call : SnapshotCall}

/-- A snapshot under an identifier that is not on file is not answered as a repetition. -/
theorem answeredAsNew_program
    (hscan : (db.scans.find? fun scan => scan.id = turn.call.scanId) = none) {out : IngestionResult}
    (hanswer : turn.answer store (SnapshotCall.program env) db = .ok out) : out.reason = none := by
  have hensures : (turn.call.program env).Ensures store (Program.alone store db) (fun _ => True)
      (Session.start turn.draws turn.faults) AnsweredAsNew := by
    rw [SnapshotCall.program, ingestSnapshot]
    split
    · rintro out ⟨⟩
    · let s : ServiceSession :=
        (Session.start turn.draws turn.faults).afterLock (env.hashtext turn.call.hostId.text)
      have hs : Central.Untouched turn.draws s := ⟨⟨rfl, rfl⟩, rfl⟩
      simp only [Program.bind_eq, Program.ensures_bind, ensures_acquireHostLock, ingestLocked,
        ensures_select]
      intro seen hseen
      rw [show (Session.start turn.draws turn.faults : ServiceSession).afterLock _ = s from rfl,
        hs.view_eq hseen, hscan]
      simp only [Program.ensures_bind, ensures_select]
      intro seen hseen
      rw [hs.view_eq hseen]
      cases db.getHost turn.call.hostId with
      | none => rintro out ⟨⟩
      | some host =>
          refine ensures_whenReadable (fun _ => ?_) ?_
          · exact (answeredAsNew_ingestFor env host _ _ _ _ s).mono_rely fun _ _ _ => trivial
          · rintro out ⟨⟩
  obtain ⟨s, -, hnew⟩ := Turn.next_eq_of_ensures turn hensures
  exact (hnew out hanswer).1

/-- A snapshot that is answered without an error is accepted, or its identifier is on file. -/
theorem isAccepted_or_onFile {out : IngestionResult}
    (hanswer : turn.answer store (SnapshotCall.program env) db = .ok out) :
    isAccepted (turn.answer store (SnapshotCall.program env) db) = true ∨
      ∃ scan ∈ db.scans, scan.id = turn.call.scanId := by
  cases hscan : db.scans.find? fun scan => scan.id = turn.call.scanId with
  | some scan =>
      exact .inr ⟨scan, List.mem_of_find?_eq_some hscan, by simpa using List.find?_some hscan⟩
  | none =>
      left
      have hreason := answeredAsNew_program hscan hanswer
      have hturn := snapshotTurn_next env turn db
      rw [hanswer] at hturn ⊢
      generalize turn.next store (SnapshotCall.program env) db = later at hturn
      cases hturn with
      | repeated => cases hreason
      | accepted => rfl

theorem mem_acceptedCalls (h : call ∈ acceptedCalls env hostId turns db) :
    call.hostId = hostId ∧ ∃ turn ∈ turns, turn.call = call := by
  induction turns generalizing db with
  | nil => cases h
  | cons turn turns ih =>
      rcases List.mem_append.mp h with hlater | hfirst
      · obtain ⟨hhost, other, hmem, hcall⟩ := ih hlater
        exact ⟨hhost, other, List.mem_cons_of_mem _ hmem, hcall⟩
      · rw [acceptedBy] at hfirst
        split at hfirst
        · next haccepted =>
            obtain rfl := List.mem_singleton.mp hfirst
            exact ⟨haccepted.2, turn, List.mem_cons_self, rfl⟩
        · cases hfirst

/-- Every scan on file comes from an accepted snapshot of its host. -/
theorem accepted_of_onFile (hstart : start.scans = []) :
    ∀ scan ∈ (Turn.runAll store (SnapshotCall.program env) turns start).scans,
      ∃ call ∈ acceptedCalls env scan.hostId turns start, call.scanId = scan.id := by
  induction turns using List.reverseRecOn with
  | nil =>
      intro scan hscan
      rw [Turn.runAll_nil, hstart] at hscan
      cases hscan
  | append_singleton turns turn ih =>
      intro scan hscan
      rw [acceptedCalls_concat]
      rw [Turn.runAll_append, Turn.runAll_cons, Turn.runAll_nil] at hscan
      rcases accepted_or_unchanged env turn
          (Turn.runAll store (SnapshotCall.program env) turns start) with
        ⟨-, hsame, -⟩ | ⟨haccepted, host, found, hfound⟩
      · rw [hsame] at hscan
        obtain ⟨call, hcall, hid⟩ := ih scan hscan
        exact ⟨call, List.mem_append_right _ hcall, hid⟩
      · obtain ⟨receivedAt, hnext⟩ := hfound.next
        rw [hnext] at hscan
        simp only [scanWrites, Store.applyAll_cons, Store.applyAll_nil] at hscan
        rcases List.mem_append.mp hscan with hold | hnew
        · rw [scans_applyAll_changes] at hold
          obtain ⟨call, hcall, hid⟩ := ih scan hold
          exact ⟨call, List.mem_append_right _ hcall, hid⟩
        · obtain rfl := List.mem_singleton.mp hnew
          refine ⟨turn.call, List.mem_append_left _ ?_, rfl⟩
          simp [acceptedBy, haccepted, SnapshotCall.ingest]

end Accepting

/-! ## What has been delivered -/

section Delivering

variable {env : Environment} {hostId : Uuid} {maxBatchSize : ℕ} {start : Db} {before : Turns}
  {events : List Event} {turns : Turns} {snapshot : Snapshot}

theorem mem_submitted : snapshot ∈ submitted events ↔
    ∃ answer, (⟨.submit snapshot, answer⟩ : Event) ∈ events := by
  rw [submitted, List.mem_filterMap]
  constructor
  · rintro ⟨⟨op, answer⟩, hmem, hsubmission⟩
    cases op with
    | submit other =>
        obtain rfl := Option.some.inj hsubmission
        exact ⟨answer, hmem⟩
    | _ => cases hsubmission
  · rintro ⟨answer, hmem⟩
    exact ⟨_, hmem, rfl⟩

/-- A snapshot that the agent has submitted stays submitted. -/
theorem mem_submitted_concat {event : Event} (h : snapshot ∈ submitted events) :
    snapshot ∈ submitted (events ++ [event]) := by
  rw [submitted_concat]
  exact List.mem_append_left _ h

/-- The snapshots of the host that Central has served are the agent's, but for those from before
its start. -/
theorem Delivered.origin (h : Delivered env hostId maxBatchSize start before events turns) :
    ∀ turn ∈ turns, turn.call.hostId = hostId → turn ∈ before ∨
      ∃ snapshot ∈ submitted events, turn.call = callOf hostId maxBatchSize snapshot := by
  induction h with
  | start => exact fun turn hmem _ => .inl hmem
  | other turn h hother ih =>
      intro served hserved hhost
      rcases List.mem_append.mp hserved with hold | hnew
      · exact ih served hold hhost
      · obtain rfl := List.mem_singleton.mp hnew
        exact absurd hhost hother
  | event event h hevent ih =>
      intro served hserved hhost
      refine (ih served hserved hhost).imp id ?_
      rintro ⟨snapshot, hsubmitted, hcall⟩
      exact ⟨snapshot, mem_submitted_concat hsubmitted, hcall⟩
  | unanswered snapshot answer h hanswer ih =>
      intro served hserved hhost
      refine (ih served hserved hhost).imp id ?_
      rintro ⟨snapshot, hsubmitted, hcall⟩
      exact ⟨snapshot, mem_submitted_concat hsubmitted, hcall⟩
  | late turn h hsubmitted hcall ih =>
      intro served hserved hhost
      rcases List.mem_append.mp hserved with hold | hnew
      · exact ih served hold hhost
      · obtain rfl := List.mem_singleton.mp hnew
        exact .inr ⟨_, hsubmitted, hcall⟩
  | answered snapshot result turn h hsuccess hcall hanswer ih =>
      intro served hserved hhost
      rcases List.mem_append.mp hserved with hold | hnew
      · refine (ih served hold hhost).imp id ?_
        rintro ⟨snapshot, hsubmitted, hcall⟩
        exact ⟨snapshot, mem_submitted_concat hsubmitted, hcall⟩
      · obtain rfl := List.mem_singleton.mp hnew
        refine .inr ⟨snapshot, mem_submitted.mpr ⟨.ok result, ?_⟩, hcall⟩
        exact List.mem_append_right _ (List.mem_singleton_self _)

/-- What Central has accepted it goes on having accepted. -/
theorem mem_acceptedCalls_concat {call : SnapshotCall} {turn : Turn SnapshotCall Draw}
    (h : call ∈ acceptedCalls env hostId turns start) :
    call ∈ acceptedCalls env hostId (turns ++ [turn]) start := by
  rw [acceptedCalls_concat]
  exact List.mem_append_right _ h

/-- A snapshot of which the agent was told that it is taken has been accepted. -/
theorem Delivered.accepted (h : Delivered env hostId maxBatchSize start before events turns)
    (hscans : start.scans = [])
    (hids : ∀ turn ∈ turns, ∀ snapshot ∈ submitted events, turn.call.scanId = snapshot.scanId →
      turn.call = callOf hostId maxBatchSize snapshot)
    (hconfirmed : Confirmed events snapshot) :
    callOf hostId maxBatchSize snapshot ∈ acceptedCalls env hostId turns start := by
  induction h with
  | start =>
      obtain ⟨result, -, hmem⟩ := hconfirmed
      cases hmem
  | other turn h hother ih =>
      refine mem_acceptedCalls_concat (ih ?_ hconfirmed)
      exact fun served hserved => hids served (List.mem_append_left _ hserved)
  | event event h hevent ih =>
      obtain ⟨result, hsuccess, hmem⟩ := hconfirmed
      refine ih (fun served hserved other hother => hids served hserved other
        (mem_submitted_concat hother)) ⟨result, hsuccess, ?_⟩
      rcases List.mem_append.mp hmem with hold | hnew
      · exact hold
      · rw [← List.mem_singleton.mp hnew] at hevent
        cases hevent
  | unanswered other answer h hanswer ih =>
      obtain ⟨result, hsuccess, hmem⟩ := hconfirmed
      refine ih (fun served hserved other hother => hids served hserved other
        (mem_submitted_concat hother)) ⟨result, hsuccess, ?_⟩
      rcases List.mem_append.mp hmem with hold | hnew
      · exact hold
      · cases List.mem_singleton.mp hnew
        exact absurd hsuccess (by simp [hanswer result rfl])
  | late turn h hsubmitted hcall ih =>
      refine mem_acceptedCalls_concat (ih ?_ hconfirmed)
      exact fun served hserved => hids served (List.mem_append_left _ hserved)
  | answered other result turn h hsuccess hcall hanswer ih =>
      obtain ⟨answer, hanswered, hmem⟩ := hconfirmed
      rcases List.mem_append.mp hmem with hold | hnew
      · refine mem_acceptedCalls_concat (ih ?_ ⟨answer, hanswered, hold⟩)
        exact fun served hserved other hother =>
          hids served (List.mem_append_left _ hserved) other (mem_submitted_concat hother)
      · cases List.mem_singleton.mp hnew
        rcases isAccepted_or_onFile hanswer with haccepted | ⟨scan, hscan, hid⟩
        · rw [acceptedCalls_concat]
          refine List.mem_append_left _ ?_
          rw [acceptedBy, if_pos ⟨haccepted, by rw [hcall]; rfl⟩, hcall]
          exact List.mem_singleton_self _
        · -- An earlier copy of the request was accepted.
          obtain ⟨call, haccepted, hscanId⟩ := accepted_of_onFile hscans scan hscan
          obtain ⟨hhost, served, hserved, rfl⟩ := mem_acceptedCalls haccepted
          have hsame : served.call = callOf hostId maxBatchSize snapshot := by
            refine hids served (List.mem_append_left _ hserved) snapshot
              (mem_submitted.mpr ⟨_, hmem⟩) ?_
            rw [hscanId, hid, hcall]
            rfl
          rw [hsame] at haccepted hhost
          rw [← hhost] at haccepted
          exact mem_acceptedCalls_concat haccepted

/-- The snapshot that was accepted last is what Central shows. -/
theorem shows_of_accepted {db : Db} (hkept : RunKept env hostId turns db start)
    {calls : List SnapshotCall}
    (hlast : acceptedCalls env hostId turns start =
      callOf hostId maxBatchSize snapshot :: calls) : Shows env hostId snapshot db := by
  intro key
  have hview := congrArg (List.map shown) (hkept.view key)
  rw [List.map_map, hlast, currentView] at hview
  refine Eq.trans ?_ (hview.trans ?_)
  · rfl
  · rw [← Option.toList_map, Option.map_map]
    refine congrArg Option.toList (Option.map_congr fun obs _ => ?_)
    simp only [Function.comp_apply]
    cases currentView env hostId calls key <;> rfl

/-- Central is never behind what the agent was told: once a snapshot is confirmed, the current
rows of the host are those of a submitted snapshot that is at least as new. -/
theorem shows_of_confirmed
    (h : Delivered env hostId maxBatchSize start before events turns)
    (hundisturbed : Undisturbed hostId maxBatchSize start before events turns)
    (hconfirmed : Confirmed events snapshot) :
    ∃ latest ∈ submitted events, snapshot.observedAt ≤ latest.observedAt ∧
      (acceptedCalls env hostId turns start).head? = some (callOf hostId maxBatchSize latest) ∧
      Shows env hostId latest (Turn.runAll store (SnapshotCall.program env) turns start) := by
  have hkept := runKept_runAll env hostId hundisturbed.unscanned hundisturbed.drawn
  have haccepted := h.accepted hundisturbed.scans hundisturbed.ids hconfirmed
  obtain ⟨result, -, hmem⟩ := hconfirmed
  have hsubmitted : snapshot ∈ submitted events := mem_submitted.mpr ⟨_, hmem⟩
  have hincreasing := hkept.increasing
  cases hcalls : acceptedCalls env hostId turns start with
  | nil =>
      rw [hcalls] at haccepted
      cases haccepted
  | cons last calls =>
      have hnewest : snapshot.observedAt ≤ last.observedAt.micros := by
        rw [hcalls] at haccepted hincreasing
        rcases List.mem_cons.mp haccepted with rfl | hearlier
        · exact le_rfl
        · exact ((List.pairwise_cons.mp hincreasing).1 _ hearlier).le
      have hlast : last ∈ acceptedCalls env hostId turns start := by
        rw [hcalls]
        exact List.mem_cons_self
      obtain ⟨hhost, turn, hturn, rfl⟩ := mem_acceptedCalls hlast
      rcases h.origin turn hturn hhost with hbefore | ⟨latest, hlatest, hcall⟩
      · exact absurd (hundisturbed.older turn hbefore hhost snapshot hsubmitted)
          (not_lt.mpr hnewest)
      · rw [hcall] at hcalls hnewest
        exact ⟨latest, hlatest, hnewest, congrArg some hcall, shows_of_accepted hkept hcalls⟩

/-- When the buffer is empty, the last snapshot was confirmed. -/
theorem confirmed_of_waiting (hwaiting : waiting events = none)
    (hlast : (submitted events).getLast? = some snapshot) : Confirmed events snapshot := by
  induction events using List.reverseRecOn with
  | nil => cases hlast
  | append_singleton events event ih =>
      cases hsubmission : submission event with
      | none =>
          rw [waiting_concat_of_none hsubmission] at hwaiting
          rw [submitted_concat, hsubmission, Option.toList_none, List.append_nil] at hlast
          obtain ⟨result, hsuccess, hmem⟩ := ih hwaiting hlast
          exact ⟨result, hsuccess, List.mem_append_left _ hmem⟩
      | some other =>
          rw [waiting_concat_of_submission hsubmission] at hwaiting
          rw [submitted_concat, hsubmission, Option.toList_some, List.getLast?_concat] at hlast
          obtain rfl := Option.some.inj hlast
          obtain ⟨op, answer⟩ := event
          cases op with
          | submit submitted =>
              obtain rfl := Option.some.inj hsubmission
              split at hwaiting
              · next hattempt =>
                  cases answer with
                  | error error => cases hattempt
                  | ok result =>
                      exact ⟨result, Option.some.inj hattempt,
                        List.mem_append_right _ (List.mem_singleton_self _)⟩
              · cases hwaiting
          | _ => cases hsubmission

/-- The last of increasing captures is the newest. -/
theorem eq_or_older_of_last (hclock : (submitted events).Pairwise fun earlier later =>
      earlier.observedAt < later.observedAt)
    (hlast : (submitted events).getLast? = some snapshot) {other : Snapshot}
    (hother : other ∈ submitted events) :
    other = snapshot ∨ other.observedAt < snapshot.observedAt := by
  obtain ⟨earlier, hearlier⟩ := List.getLast?_eq_some_iff.mp hlast
  rw [hearlier] at hclock hother
  rcases List.mem_append.mp hother with hold | hnew
  · right
    exact (List.pairwise_append.mp hclock).2.2 other hold snapshot (List.mem_singleton_self _)
  · exact .inl (List.mem_singleton.mp hnew)

/-- What an orderly agent submits it has just found. -/
theorem captured_of_orderly (horderly : Effects.Orderly Admits events)
    (hsubmitted : snapshot ∈ submitted events) :
    ∃ ports : List (Agent.Discovery.PortState × Agent.Discovery.DiscoveredPort),
      (⟨.discover, (.ok ports : Except Outside _)⟩ : Event) ∈ events ∧
        snapshot.observations =
          ports.map fun entry => Agent.Discovery.captureObservation entry.1 entry.2 := by
  obtain ⟨answer, hmem⟩ := mem_submitted.mp hsubmitted
  obtain ⟨earlier, later, rfl⟩ := List.append_of_mem hmem
  obtain ⟨-, ⟨first, ports, lastScan, state, rfl, hobservations⟩, -⟩ :=
    horderly earlier _ later rfl
  exact ⟨ports, by simp, hobservations⟩

/-- The bindings of the host at Central. -/
def bindingsOf (hostId : Uuid) (db : Db) : List BindingKey :=
  (db.listCurrentForHost hostId).map CurrentPortObservation.key

theorem mem_bindingsOf {db : Db} (hshows : Shows env hostId snapshot db)
    (hcanonical : ∃ found, canonicalizeObservations snapshot.observations = some found)
    (key : BindingKey) :
    key ∈ bindingsOf hostId db ↔ key ∈ snapshot.observations.map ObservationIn.key := by
  obtain ⟨found, hfound⟩ := hcanonical
  obtain ⟨hkeys, hsome⟩ := canonicalizeObservations_eq hfound
  have hnone : db.rowsAt (hostId, key) = [] ↔ canonical snapshot.observations key = none := by
    have hrows := congrArg (· = []) (hshows key)
    simpa only [List.map_eq_nil_iff, Option.toList_eq_nil_iff, Option.map_eq_none_iff, eq_iff_iff]
      using hrows
  rw [bindingsOf, mem_keys_iff, ne_eq, hnone]
  constructor
  · intro hne
    by_contra hout
    exact hne (canonical_eq_none hout)
  · intro hmem hnone
    rw [← mem_bindingOrder, ← hkeys] at hmem
    obtain ⟨obs, hobs, rfl⟩ := List.mem_map.mp hmem
    rw [hsome obs hobs] at hnone
    cases hnone

/-- As soon as the buffer of the agent is empty, Central shows the last scan of the host: one row
for each binding that the last discovery found, as it was captured, and no other. Requests and
answers may have been lost, late or repeated before that, and other hosts may submit at will. -/
theorem central_follows_agent {enabled hasToken : Bool} {state : RuntimeState} {passes : ℕ}
    {daemon : Daemon} (h : Delivered env hostId maxBatchSize start before events turns)
    (hundisturbed : Undisturbed hostId maxBatchSize start before events turns)
    (hruns : (run enabled hasToken state passes).Runs events (.ok (some daemon)))
    (hempty : daemon.buffered = none) (hlast : (submitted events).getLast? = some snapshot) :
    Shows env hostId snapshot (Turn.runAll store (SnapshotCall.program env) turns start) ∧
      ∃ ports : List (Agent.Discovery.PortState × Agent.Discovery.DiscoveredPort),
        (⟨.discover, (.ok ports : Except Outside _)⟩ : Event) ∈ events ∧
          ∀ key, key ∈ bindingsOf hostId
              (Turn.runAll store (SnapshotCall.program env) turns start) ↔
            ∃ entry ∈ ports, (entry.2.port, entry.2.protocol, entry.2.bindAddress) = key := by
  obtain ⟨horderly, hkept⟩ := ((run_leads enabled hasToken state passes).of_runs hruns).1 _ rfl
  have hwaiting : waiting events = none := by
    rw [← hempty]
    exact (hkept daemon rfl).buffered.symm
  obtain ⟨latest, hlatest, hnewest, hhead, hshows⟩ :=
    shows_of_confirmed h hundisturbed (confirmed_of_waiting hwaiting hlast)
  obtain rfl : latest = snapshot :=
    (eq_or_older_of_last hundisturbed.clock hlast hlatest).resolve_right (not_lt.mpr hnewest)
  obtain ⟨ports, hdiscovered, hobservations⟩ := captured_of_orderly horderly hlatest
  refine ⟨hshows, ports, hdiscovered, fun key => ?_⟩
  rw [mem_bindingsOf hshows (canonical_isSome hhead), hobservations]
  simp [ObservationIn.key, Agent.Discovery.captureObservation]

/-- The agent does other things for a while. -/
theorem Delivered.append {more : List Event}
    (h : Delivered env hostId maxBatchSize start before events turns)
    (hmore : ∀ event ∈ more, submission event = none) :
    Delivered env hostId maxBatchSize start before (events ++ more) turns := by
  induction more using List.reverseRecOn with
  | nil =>
      rw [List.append_nil]
      exact h
  | append_singleton more event ih =>
      rw [← List.append_assoc]
      refine .event event (ih fun other hother => hmore other (List.mem_append_left _ hother)) ?_
      exact hmore event (List.mem_append_right _ (List.mem_singleton_self _))

end Delivering

/-! ## A port that is found -/

/-- A port of the sample host. -/
def foundPort : Agent.Discovery.DiscoveredPort where
  port := 8000
  protocol := .tcp
  bindAddress := "0.0.0.0"
  source := .process
  firstSeen := ⟨0, true⟩
  lastSeen := ⟨0, true⟩

def foundSnapshot : Snapshot where
  scanId := ⟨50⟩
  observedAt := 61 * second
  sequence := 1
  observations := [Agent.Discovery.captureObservation .active foundPort]

/-- What the agent does until it submits the port, -/
def findingEvents : List Event :=
  [⟨.signal, false⟩, ⟨.time, (60 * second : ℤ)⟩,
    ⟨.heartbeat, (.ok ⟨false, some "Timeout", none⟩ : Except Outside CentralResult)⟩,
    ⟨.discover, (.ok [(.active, foundPort)] :
      Except Outside (List (Agent.Discovery.PortState × Agent.Discovery.DiscoveredPort)))⟩,
    ⟨.newScanId, (⟨50⟩ : Uuid)⟩, ⟨.time, (61 * second : ℤ)⟩, ⟨.time, (62 * second : ℤ)⟩,
    ⟨.saveState (RuntimeState.scanned {} (62 * second) 1), (.ok () : Except Outside Unit)⟩]

/-- and after that. -/
def settlingEvents : List Event :=
  [⟨.time, (63 * second : ℤ)⟩,
    ⟨.saveState { RuntimeState.scanned {} (62 * second) 1 with lastSync := some (63 * second) },
      (.ok () : Except Outside Unit)⟩,
    ⟨.time, (64 * second : ℤ)⟩, ⟨.time, (65 * second : ℤ)⟩, ⟨.signal, true⟩]

def foundDaemon : Daemon :=
  { briefDaemon with
    state := { RuntimeState.scanned {} (62 * second) 1 with lastSync := some (63 * second) } }

def foundHistory : List Event :=
  findingEvents ++ [⟨.submit foundSnapshot,
    (.ok ⟨true, none, none⟩ : Except Outside CentralResult)⟩] ++ settlingEvents

theorem found_runs : (run true true {} 1).Runs foundHistory (.ok (some foundDaemon)) := by
  unfold foundHistory findingEvents settlingEvents
  repeat' first | exact Effects.Program.Runs.ret _ | refine Effects.Program.Runs.call _ ?_

/-- Another host submits before. -/
def neighbourTurn : Turn SnapshotCall Draw where
  call := ⟨sampleNeighbour.id, ⟨40⟩, ⟨5, true⟩, [sampleObservation 9000], 1000⟩
  draws := sampleDraws 300
  faults _ := none

def foundTurn : Turn SnapshotCall Draw where
  call := callOf sampleHost.id 1000 foundSnapshot
  draws := sampleDraws 100
  faults _ := none

theorem found_answered : ∃ out, foundTurn.answer store (SnapshotCall.program sampleEnvironment)
    (Turn.runAll store (SnapshotCall.program sampleEnvironment) [neighbourTurn] sampleHosts) =
      .ok out := ⟨_, rfl⟩

theorem found_delivered : Delivered sampleEnvironment sampleHost.id 1000 sampleHosts []
    foundHistory [neighbourTurn, foundTurn] := by
  obtain ⟨out, hanswer⟩ := found_answered
  have hother : Delivered sampleEnvironment sampleHost.id 1000 sampleHosts [] [] [neighbourTurn] :=
    .other neighbourTurn .start (by decide)
  have hfound : Delivered sampleEnvironment sampleHost.id 1000 sampleHosts [] findingEvents
      [neighbourTurn] := hother.append (by simp [submission])
  have hsubmitted := Delivered.answered foundSnapshot ⟨true, none, none⟩ foundTurn hfound rfl rfl
    hanswer
  exact hsubmitted.append (by simp [settlingEvents, submission])

theorem submitted_found : submitted foundHistory = [foundSnapshot] := rfl

theorem found_undisturbed : Undisturbed sampleHost.id 1000 sampleHosts []
    foundHistory [neighbourTurn, foundTurn] where
  unscanned := ⟨rfl, rfl⟩
  scans := rfl
  drawn := by
    change ([neighbourTurn, foundTurn].flatMap drawnIds).Nodup
    decide
  ids := by
    rw [submitted_found]
    intro turn hturn snapshot hsnapshot hid
    obtain rfl := List.mem_singleton.mp hsnapshot
    rcases List.mem_cons.mp hturn with rfl | hfound
    · exact absurd hid (by decide)
    · rw [List.mem_singleton.mp hfound]
      rfl
  clock := by
    rw [submitted_found]
    exact List.pairwise_singleton _ _
  older := by simp

theorem central_follows_agent_found :
    Shows sampleEnvironment sampleHost.id foundSnapshot
        (Turn.runAll store (SnapshotCall.program sampleEnvironment) [neighbourTurn, foundTurn]
          sampleHosts) ∧
      ∃ ports : List (Agent.Discovery.PortState × Agent.Discovery.DiscoveredPort),
        (⟨.discover, (.ok ports : Except Outside _)⟩ : Event) ∈ foundHistory ∧
          ∀ key, key ∈ bindingsOf sampleHost.id
              (Turn.runAll store (SnapshotCall.program sampleEnvironment)
                [neighbourTurn, foundTurn] sampleHosts) ↔
            ∃ entry ∈ ports, (entry.2.port, entry.2.protocol, entry.2.bindAddress) = key :=
  central_follows_agent found_delivered found_undisturbed found_runs rfl
    (by rw [submitted_found]; rfl)

end Fleet
