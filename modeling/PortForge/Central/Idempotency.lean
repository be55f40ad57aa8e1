/-
# Idempotency keys among concurrent requests

A request looks its key up before it takes the host lock, and the endpoint looks
it up once more in front of that. Nothing holds the other requests still between
these look-ups and the insertion. What idempotency promises therefore holds in
runs in which no request is caught in between: the flag of an answer is honest
when nothing is committed between a request's two look-ups, and two requests
with one key agree when the second looks the key up after the first's
transaction.
-/

import PortForge.Central.SingleCall
import PortForge.Transaction.Interleaving

namespace Central

open Transaction

/-! ## The flag of an answer -/

/-- The session committed the row of an allocation. -/
def Inserted (s : ServiceSession) (allocationId : Uuid) : Prop :=
  ∃ writes, .committed writes ∈ s.journal ∧
    ∃ row, .insertAllocation row ∈ writes ∧ row.id = allocationId

/-- The flag says whether the request inserted the allocation it answers with. -/
def Honest (s : ServiceSession) (outcome : Except Failure (ℕ × AllocationOut)) : Prop :=
  ∀ status out, outcome = .ok (status, out) →
    (out.idempotentReplay = false ↔ Inserted s out.allocationId)

/-- The endpoint's answer, after its own look-up found the key or did not. -/
def answerWith (found : Bool) (result : AllocationOut) : Service (ℕ × AllocationOut) :=
  pure (if found then 200 else 201, { result with idempotentReplay := found })

section Flag

variable {rely : ServiceSession → Db → Prop} {env : Environment} {payload : AllocationIn}
  {s : ServiceSession}

/-- A fresh request that succeeds has inserted the allocation it answers with. -/
theorem ensures_allocateFresh_inserted (hbatch : s.batch = []) :
    (allocateFresh env payload).Ensures store rely (fun _ => True) s fun s' outcome =>
      ∀ out, outcome = .ok out → Inserted s' out.allocationId := by
  simp only [allocateFresh, Program.bind_eq, Program.ensures_bind, ensures_select]
  intro db _
  cases hhost : (s.view store db).getHost payload.hostId with
  | none => rintro _ ⟨⟩
  | some host =>
      simp only [Program.ensures_bind, ensures_acquireHostLock]
      refine ensures_allocateLocked (resolving_of_batch_nil hbatch _)
        (fun host => yields_anyPorts env host payload.hostId payload.requests)
        (fun _ _ _ _ hout => by cases hout) (fun _ _ _ _ _ _ => trivial) ?_
      intro s' allocation bindProbe _ _ hbundle _
      obtain ⟨probes, resolved, grants, hwrites, -⟩ := hbundle.writes
      have hid : (finishBundle env allocation.id bindProbe payload.requests).Ensures store rely
          (fun _ => True) s'.afterCommit _ :=
        ensures_finishBundle_id env allocation.id bindProbe payload.requests
      have hobserves : (finishBundle env allocation.id bindProbe payload.requests).Ensures store
          rely (fun _ => True) s'.afterCommit _ :=
        (observes_finishBundle env allocation.id bindProbe payload.requests).ensures
      refine (hid.and hobserves).mono ?_
      rintro s'' outcome ⟨hanswer, draws, rfl⟩ out hout
      refine ⟨s'.batch, by simp, allocation, ?_, (hanswer out hout).symm⟩
      rw [hwrites]
      exact List.mem_append_right _ List.mem_cons_self

/-- What a request does after its two look-ups, when both found the key or both did not. -/
theorem ensures_afterLookUps (hbatch : s.batch = []) (hjournal : s.journal = [])
    {requestId : String} (rows : List Allocation) {found : Bool}
    (hfound : found = true ↔ rows ≠ []) :
    ((scalarOneOrNone rows).bind fun existing =>
      (match existing with
        | some existing => replayAllocation env payload requestId existing
        | none => allocateFresh env payload).bind (answerWith found)).Ensures store rely
      (fun _ => True) s Honest := by
  match rows with
  | [] =>
      have hfresh : found = false := by simpa using hfound
      change ((allocateFresh env payload).bind (answerWith found)).Ensures store rely _ s Honest
      refine Program.Ensures.bind (ensures_allocateFresh_inserted hbatch) ?_ ?_
      · rintro s' out hinserted status _ ⟨⟩
        exact iff_of_true hfresh (hinserted out rfl)
      · rintro s' error - status out ⟨⟩
  | [existing] =>
      have hreplay : found = true := by simpa using hfound
      have hobserves : (replayAllocation env payload requestId existing).Ensures store rely
          (fun _ => True) s _ := (observes_replayAllocation env payload requestId existing).ensures
      change ((replayAllocation env payload requestId existing).bind
        (answerWith found)).Ensures store rely _ s Honest
      refine Program.Ensures.bind hobserves ?_ ?_
      · rintro s' out ⟨draws, rfl⟩ status _ ⟨⟩
        refine iff_of_false (by simp [hreplay]) ?_
        rintro ⟨writes, hwrites, -⟩
        rw [hjournal] at hwrites
        cases hwrites
      · rintro s' error - status out ⟨⟩
  | _ :: _ :: _ => rintro status out ⟨⟩

end Flag

/-! ### Runs -/

section Requests

variable {ι : Type} {env : Environment} {payload : AllocationIn} {requestId : String}
  {draws : ι → ℕ → Draw} {db : Db} {σ : System ι Db Write ℤ Draw Failure (ℕ × AllocationOut)}

/-- Where a request stands on the contents `db`, after `begun` moves. -/
inductive Asking (env : Environment) (payload : AllocationIn) (db : Db) (begun : ℕ)
    (p : Service (ℕ × AllocationOut)) (s : ServiceSession) : Prop
  | /-- It has not begun. -/
    waiting (hprogram : p = createAllocationEndpoint env payload) (hbatch : s.batch = [])
      (hjournal : s.journal = []) (hbegun : begun = 0)
  | /-- It stands between its two look-ups, the first of which would still turn out as it did. -/
    between (found : Bool) (hprogram : p = (createAllocation env payload).bind (answerWith found))
      (hfound : ∀ requestId ∈ payload.requestId,
        (found = true ↔ db.allocationsByRequestId requestId ≠ []))
      (hpurposes : validatePurposes payload.requests = pure ())
      (hbatch : s.batch = []) (hjournal : s.journal = []) (hbegun : begun = 1)
  | /-- Both look-ups lie behind it. -/
    decided (hhonest : p.Ensures store (fun _ _ => True) (fun _ => True) s Honest)

/-- Nothing is committed while another request stands between its look-ups. -/
def Unstraddled [DecidableEq ι] (σ : System ι Db Write ℤ Draw Failure (ℕ × AllocationOut)) (i : ι) :
    Prop :=
  ∀ next, σ.program i = .commit next → ∀ j, j ≠ i → σ.history.count j ≠ 1

theorem validatePurposes_cases (requests : List AllocationRequestItem) :
    validatePurposes requests = pure () ∨
      ∃ failure, validatePurposes requests = raise failure := by
  simp only [validatePurposes]
  split
  · exact .inr ⟨_, rfl⟩
  · exact .inl rfl

/-- A request whose purposes are known begins with its look-up. -/
theorem createAllocation_eq_read (hrequest : payload.requestId = some requestId)
    (hpurposes : validatePurposes payload.requests = pure ()) :
    createAllocation env payload = .read fun db =>
      (scalarOneOrNone (db.allocationsByRequestId requestId)).bind fun existing =>
        match existing with
        | some existing => replayAllocation env payload requestId existing
        | none => allocateFresh env payload := by
  rw [createAllocation, hpurposes, lookUpRequest, hrequest]
  rfl

theorem view_of_batch_nil {s : ServiceSession} (hbatch : s.batch = []) (db : Db) :
    s.view store db = db :=
  Session.view_of_flushed_nil store (List.append_eq_nil_iff.mp hbatch).1 db

/-- The endpoint begins with its own look-up. -/
theorem createAllocationEndpoint_eq_read (hrequest : payload.requestId = some requestId) :
    createAllocationEndpoint env payload = .read fun db =>
      (scalarOneOrNone (db.allocationsByRequestId requestId)).bind fun existing =>
        (createAllocation env payload).bind (answerWith existing.isSome) := by
  rw [createAllocationEndpoint, lookUpRequest, hrequest]
  rfl

variable {db' : Db} {begun : ℕ} {p p' : Service (ℕ × AllocationOut)} {s s' : ServiceSession}

/-- What the first look-up leaves a request with. -/
theorem asking_of_lookUp (hrequest : payload.requestId = some requestId) (hbatch : s.batch = [])
    (hjournal : s.journal = []) :
    Asking env payload db 1
      ((scalarOneOrNone (db.allocationsByRequestId requestId)).bind fun existing =>
        (createAllocation env payload).bind (answerWith existing.isSome)) s := by
  have hasked : ∀ found : Bool, (found = true ↔ db.allocationsByRequestId requestId ≠ []) →
      Asking env payload db 1 ((createAllocation env payload).bind (answerWith found)) s := by
    intro found hfound
    rcases validatePurposes_cases payload.requests with hpurposes | ⟨failure, hpurposes⟩
    · refine .between found rfl ?_ hpurposes hbatch hjournal rfl
      intro other hother
      rw [hrequest, Option.mem_some_iff] at hother
      rw [← hother]
      exact hfound
    · refine .decided ?_
      rw [createAllocation, hpurposes]
      rintro status out ⟨⟩
  cases hrows : db.allocationsByRequestId requestId with
  | nil => exact hasked false (by simp [hrows])
  | cons existing rows =>
      cases rows with
      | nil => exact hasked true (by simp [hrows])
      | cons other rows =>
          refine .decided ?_
          rintro status out ⟨⟩

/-- One move of a request. -/
theorem Asking.advance (hrequest : payload.requestId = some requestId)
    (h : Asking env payload db begun p s) (hstep : p.advance store s db = some (p', s', db')) :
    Asking env payload db' (begun + 1) p' s' := by
  cases h with
  | waiting hprogram hbatch hjournal hbegun =>
      subst hbegun
      rw [hprogram, createAllocationEndpoint_eq_read hrequest] at hstep
      simp only [Program.advance, view_of_batch_nil hbatch] at hstep
      cases hstep
      exact asking_of_lookUp hrequest hbatch hjournal
  | between found hprogram hfound hpurposes hbatch hjournal hbegun =>
      rw [hprogram, createAllocation_eq_read hrequest hpurposes] at hstep
      simp only [Program.bind, Program.advance, view_of_batch_nil hbatch] at hstep
      cases hstep
      refine .decided ?_
      rw [Program.bind_assoc]
      exact ensures_afterLookUps hbatch hjournal _ (hfound requestId hrequest)
  | decided hhonest => exact .decided (hhonest.advance trivial hstep)

/-- Another request's commit finds no request between its look-ups. -/
theorem Asking.frame (h : Asking env payload db begun p s) (hbetween : begun ≠ 1) :
    Asking env payload db' begun p s := by
  cases h with
  | waiting hprogram hbatch hjournal hbegun => exact .waiting hprogram hbatch hjournal hbegun
  | between found hprogram hfound hpurposes hbatch hjournal hbegun => exact (hbetween hbegun).elim
  | decided hhonest => exact .decided hhonest

/-- A request whose program is over stands behind its look-ups. -/
theorem Asking.finished (hrequest : payload.requestId = some requestId)
    (h : Asking env payload db begun p s) (hstep : p.advance store s db = none) :
    p.Ensures store (fun _ _ => True) (fun _ => True) s Honest := by
  cases h with
  | waiting hprogram hbatch hjournal hbegun =>
      rw [hprogram, createAllocationEndpoint_eq_read hrequest] at hstep
      cases hstep
  | between found hprogram hfound hpurposes hbatch hjournal hbegun =>
      rw [hprogram, createAllocation_eq_read hrequest hpurposes] at hstep
      cases hstep
  | decided hhonest => exact hhonest

/-- Closing a session does not change what it inserted. -/
theorem ensures_close (hstep : p.advance store s db = none)
    (h : p.Ensures store (fun _ _ => True) (fun _ => True) s Honest) :
    p.Ensures store (fun _ _ => True) (fun _ => True) s.close Honest := by
  rcases Program.eq_of_advance_eq_none hstep with ⟨value, rfl⟩ | ⟨error, rfl⟩
  · exact h
  · exact h

variable [DecidableEq ι]

/-- In a run in which nothing is committed between a request's two look-ups, every
answer's flag is honest: it is false exactly if that very request inserted the
allocation it answers with. -/
theorem idempotentReplay_iff_inserted (hrequest : payload.requestId = some requestId)
    (hreach : System.Reachable store Unstraddled
      (System.start db (fun _ => createAllocationEndpoint env payload) draws) σ)
    {i : ι} {status : ℕ} {out : AllocationOut} (hanswer : σ.program i = .ret (status, out)) :
    out.idempotentReplay = false ↔ Inserted (σ.session i) out.allocationId := by
  have hasking : ∀ i, Asking env payload σ.db (σ.history.count i) (σ.program i) (σ.session i) := by
    clear hanswer i
    induction hreach with
    | start => exact fun i => .waiting rfl rfl rfl rfl
    | @step σ k _ _ hallowed ih =>
        intro i
        by_cases hik : i = k
        · subst hik
          rw [System.count_move_history_self]
          cases hstep : (σ.program i).advance store (σ.session i) σ.db with
          | none =>
              obtain ⟨hprogram, hsession, hdb⟩ := System.move_of_finished hstep
              rw [hprogram, hsession]
              exact .decided (ensures_close hstep ((ih i).finished hrequest hstep))
          | some after =>
              obtain ⟨p, s, contents⟩ := after
              obtain ⟨hprogram, hsession, hdb⟩ := System.move_of_advance hstep
              rw [hprogram, hsession, hdb]
              exact (ih i).advance hrequest hstep
        · rw [System.count_move_history_of_ne hik, System.move_program_of_ne hik,
            System.move_session_of_ne hik]
          rcases System.move_db store σ k with hdb | ⟨next, hcommit, -⟩
          · rw [hdb]
            exact ih i
          · exact (ih i).frame (hallowed next hcommit i hik)
  have hend := hasking i
  rw [hanswer] at hend
  cases hend with
  | waiting hprogram _ _ _ =>
      rw [createAllocationEndpoint_eq_read hrequest] at hprogram
      cases hprogram
  | between found hprogram _ hpurposes _ _ _ =>
      rw [createAllocation_eq_read hrequest hpurposes] at hprogram
      cases hprogram
  | decided hhonest => exact hhonest status out rfl

end Requests

/-- The sample bundle under an idempotency key. -/
def keyedPayload : AllocationIn :=
  { samplePayload with requestId := some "req-1", requestId_length := by decide }

/-- Any number of requests for the keyed bundle. -/
def keyedRequests {ι : Type} (draws : ι → ℕ → Draw) :
    System ι Db Write ℤ Draw Failure (ℕ × AllocationOut) :=
  System.start sampleDb (fun _ => createAllocationEndpoint sampleEnvironment keyedPayload) draws

/-- A commit finds the other request in front of both look-ups or behind both. -/
def unstraddled (σ : System Bool Db Write ℤ Draw Failure (ℕ × AllocationOut)) (first : Bool) :
    Bool :=
  !(σ.program first).atCommit || σ.history.count (!first) ≠ 1

/-- The second request looks its key up while the first one, which has committed, still prepares
its answer: the first answer's flag is false and the second one's true, and only the first
request has inserted. -/
theorem idempotentReplay_iff_inserted_sample :
    ∃ σ status out status' out',
      System.play store
        (List.replicate 30 true ++ List.replicate 12 false ++ List.replicate 6 true)
        (keyedRequests fun first : Bool => sampleDraws (if first then 100 else 200)) = some σ ∧
      σ.program true = .ret (status, out) ∧ σ.program false = .ret (status', out') ∧
      out'.allocationId = out.allocationId ∧ Inserted (σ.session true) out.allocationId ∧
      ¬ Inserted (σ.session false) out.allocationId := by
  obtain ⟨σ, status, out, status', out', hplay, hanswer, hanswer', hsame, hnew, hreplay⟩ :
      ∃ σ status out status' out',
        System.play store
          (List.replicate 30 true ++ List.replicate 12 false ++ List.replicate 6 true)
          (keyedRequests fun first : Bool => sampleDraws (if first then 100 else 200)) = some σ ∧
        σ.program true = .ret (status, out) ∧ σ.program false = .ret (status', out') ∧
        out'.allocationId = out.allocationId ∧ out.idempotentReplay = false ∧
        out'.idempotentReplay = true := ⟨_, _, _, _, _, rfl, rfl, rfl, rfl, rfl, rfl⟩
  have hreach : System.Reachable store Unstraddled
      (keyedRequests fun first : Bool => sampleDraws (if first then 100 else 200)) σ := by
    refine System.Reachable.of_play_tested .start (fun υ i _ htest => ?_)
      (rfl : System.tested store unstraddled _ _ = true) hplay
    intro next hcommit j hj
    obtain rfl := Bool.eq_not.mpr hj
    simpa [unstraddled, hcommit, Program.atCommit] using htest
  refine ⟨σ, status, out, status', out', hplay, hanswer, hanswer', hsame,
    (idempotentReplay_iff_inserted rfl hreach hanswer).mp hnew, fun hinserted => ?_⟩
  rw [← hsame] at hinserted
  have hfirst := (idempotentReplay_iff_inserted rfl hreach hanswer').mpr hinserted
  rw [hreplay] at hfirst
  cases hfirst

/-- A request whose key is first used between its two look-ups answers with another
request's allocation as if it were new. -/
theorem idempotentReplay_dishonest :
    ∃ σ status out, System.Reachable store System.anyOrder
        (keyedRequests fun first : Bool => sampleDraws (if first then 100 else 200)) σ ∧
      σ.program false = .ret (status, out) ∧ out.idempotentReplay = false ∧
      ¬ Inserted (σ.session false) out.allocationId := by
  obtain ⟨σ, status, out, hplay, hanswer, hflag, hjournal⟩ : ∃ σ status out,
      System.play store (false :: (List.replicate 30 true ++ List.replicate 9 false))
        (keyedRequests fun first : Bool => sampleDraws (if first then 100 else 200)) = some σ ∧
      σ.program false = .ret (status, out) ∧ out.idempotentReplay = false ∧
      (σ.session false).journal = [] := ⟨_, _, _, rfl, rfl, rfl, rfl⟩
  refine ⟨σ, status, out, System.Reachable.of_play .start hplay, hanswer, hflag, ?_⟩
  rintro ⟨committed, hcommitted, -⟩
  rw [hjournal] at hcommitted
  cases hcommitted

/-! ## Two requests with one key -/

/-- A request begins only while the other has not begun, or has nothing left to write. -/
def OneAtATime (σ : System Bool Db Write ℤ Draw Failure AllocationOut) (i : Bool) : Prop :=
  i ∉ σ.history → (!i) ∉ σ.history ∨ (σ.program !i).Quiet

/-- Two outcomes agree on the result and on what is committed. -/
structure SameEnd {α : Type} (first second : Outcome Db Write ℤ Draw Failure α) : Prop where
  result : first.result = second.result
  db : first.db = second.db

theorem SameEnd.trans {α : Type} {first second third : Outcome Db Write ℤ Draw Failure α}
    (h : SameEnd first second) (h' : SameEnd second third) : SameEnd first third :=
  ⟨h.result.trans h'.result, h.db.trans h'.db⟩

section TwoRequests

variable {env : Environment} {requestId : String} {db : Db}

/-! ### The second request -/

/-- One allocation carries the key, and its host is on file. -/
structure KeyedBy (db : Db) (requestId : String) (allocation : Allocation) : Prop where
  only : db.allocationsByRequestId requestId = [allocation]
  host : (db.getHost allocation.hostId).isSome = true

/-- A call that succeeds alone knows its purposes. -/
theorem validatePurposes_of_ok {payload : AllocationIn} {draws : ℕ → Draw} {out : AllocationOut}
    (hok : (runCreateAllocation env payload db draws fun _ => none).result = .ok out) :
    validatePurposes payload.requests = pure () := by
  rcases validatePurposes_cases payload.requests with hpurposes | ⟨failure, hpurposes⟩
  · exact hpurposes
  · rw [runCreateAllocation, createAllocation, hpurposes] at hok
    cases hok

/-- The first request leaves its allocation under the key. -/
theorem keyedBy_of_ok {payload : AllocationIn} {draws : ℕ → Draw} {out : AllocationOut}
    (hrequest : payload.requestId = some requestId)
    (hnew : ∀ allocation ∈ db.allocations, allocation.requestId ≠ some requestId)
    (hok : (runCreateAllocation env payload db draws fun _ => none).result = .ok out) :
    ∃ allocation, KeyedBy (runCreateAllocation env payload db draws fun _ => none).db requestId
        allocation ∧
      allocation.requestPayloadHash = some (hashPayload env payload) ∧
      out.allocationId = allocation.id := by
  have hfresh : NewRequest payload db := by
    intro other hother
    rw [hrequest, Option.mem_some_iff] at hother
    rwa [← hother]
  obtain ⟨hpost, hdb⟩ :=
    runCreateAllocation_spec (resolvesAlone_resolved env payload db draws fun _ => none)
  rw [hok] at hpost
  obtain ⟨allocation, batch, hjournal, hbatch, hhost, hid, -⟩ := hpost.1 hfresh
  obtain ⟨_, _, _, _, happly⟩ := hbatch.applyAll
  obtain ⟨probes, hcontents⟩ := happly db
  have hcommitted :
      (runCreateAllocation env payload db draws fun _ => none).session.committedWrites = batch := by
    rw [Session.committedWrites, hjournal]
    simp
  obtain ⟨db, host, rfl, hfound, -⟩ := hhost
  obtain ⟨id, createdAt, hrow⟩ := hbatch.row
  have hold : db.allocations.filter (fun allocation => allocation.requestId = some requestId) =
      [] := by
    refine List.filter_eq_nil_iff.mpr fun other hother => ?_
    simpa using hnew other hother
  refine ⟨allocation, ⟨?_, ?_⟩, ?_, hid⟩
  · rw [hdb, hcommitted, hcontents, Db.allocationsByRequestId, List.filter_append, hold]
    simp [hrow, newAllocation, hrequest]
  · rw [hdb, hcommitted, Db.getHost, hbatch.hosts, hrow]
    exact Option.isSome_iff_exists.mpr ⟨host, hfound⟩
  · rw [hrow]
    simp [newAllocation, hrequest]

/-- On contents with the key a request replays or conflicts, by its payload's hash. -/
theorem runCreateAllocation_of_keyedBy {payload : AllocationIn} {draws : ℕ → Draw}
    {allocation : Allocation} (hrequest : payload.requestId = some requestId)
    (hpurposes : validatePurposes payload.requests = pure ())
    (hkeyed : KeyedBy db requestId allocation) :
    (runCreateAllocation env payload db draws fun _ => none).db = db ∧
      (allocation.requestPayloadHash = some (hashPayload env payload) →
        ∃ out, (runCreateAllocation env payload db draws fun _ => none).result = .ok out ∧
          out.allocationId = allocation.id) ∧
      (allocation.requestPayloadHash ≠ some (hashPayload env payload) →
        (runCreateAllocation env payload db draws fun _ => none).result =
          .error (.allocation (idempotencyConflict requestId))) := by
  have hrun : runCreateAllocation env payload db draws (fun _ => none) =
      (replayAllocation env payload requestId allocation).exec store
        (Session.start draws fun _ => none) db := by
    rw [runCreateAllocation, createAllocation_eq_read hrequest hpurposes]
    have hrows := hkeyed.only
    simp only [Program.exec, view_of_batch_nil (rfl : (Session.start draws fun _ => none :
      ServiceSession).batch = []), hrows]
    rfl
  rw [hrun]
  refine ⟨(observes_replayAllocation env payload requestId allocation).quiet.exec_db _ _, ?_, ?_⟩
  · intro hsame
    have hanswer : (replayAllocation env payload requestId allocation).Ensures store
        (Program.alone store db) (fun _ => True) (Session.start draws fun _ => none)
        fun _ outcome => ∃ out, outcome = .ok out ∧ out.allocationId = allocation.id := by
      rw [replayAllocation, if_pos hsame]
      refine Program.Ensures.bind (ensures_buildAllocationOut env allocation .notRemoteCapable
        payload.requests ?_) ?_ ?_
      · rintro contents rfl
        exact hkeyed.host
      · rintro s' out ⟨_, ⟨⟩, hid, -⟩
        exact ⟨_, rfl, hid⟩
      · rintro s' error ⟨_, ⟨⟩, -⟩
    exact (hanswer.exec rfl).1
  · intro hother
    rw [replayAllocation, if_neg hother]
    rfl

/-! ### Runs -/

variable {payload : Bool → AllocationIn} {draws : Bool → ℕ → Draw}
  {σ : System Bool Db Write ℤ Draw Failure AllocationOut} {i : Bool}

/-- How request `i` ends when it runs alone on `db`. -/
def endsAlone (env : Environment) (payload : Bool → AllocationIn) (draws : Bool → ℕ → Draw)
    (i : Bool) (db : Db) : Outcome Db Write ℤ Draw Failure AllocationOut :=
  runCreateAllocation env (payload i) db (draws i) fun _ => none

/-- How request `i` will end if nobody else moves from here on. -/
def willEnd (σ : System Bool Db Write ℤ Draw Failure AllocationOut) (i : Bool) :
    Outcome Db Write ℤ Draw Failure AllocationOut :=
  (σ.program i).exec store (σ.session i) σ.db

/-- Request `i` has not begun. -/
structure Fresh (env : Environment) (payload : Bool → AllocationIn) (draws : Bool → ℕ → Draw)
    (σ : System Bool Db Write ℤ Draw Failure AllocationOut) (i : Bool) : Prop where
  program : σ.program i = createAllocation env (payload i)
  session : σ.session i = Session.start (draws i) fun _ => none
  history : i ∉ σ.history

theorem Fresh.willEnd (h : Fresh env payload draws σ i) :
    willEnd σ i = endsAlone env payload draws i σ.db := by
  rw [Central.willEnd, h.program, h.session]
  rfl

/-- The mover's own move keeps what it will end with. -/
theorem willEnd_move_self (σ : System Bool Db Write ℤ Draw Failure AllocationOut) (i : Bool) :
    SameEnd (willEnd (σ.move store i) i) (willEnd σ i) := by
  cases hstep : (σ.program i).advance store (σ.session i) σ.db with
  | none =>
      obtain ⟨hprogram, hsession, hdb⟩ := System.move_of_finished hstep
      rw [willEnd, willEnd, hprogram, hsession, hdb]
      rcases Program.eq_of_advance_eq_none hstep with ⟨value, hvalue⟩ | ⟨error, herror⟩
      · rw [hvalue]
        exact ⟨rfl, rfl⟩
      · rw [herror]
        exact ⟨rfl, rfl⟩
  | some after =>
      obtain ⟨p, s, contents⟩ := after
      obtain ⟨hprogram, hsession, hdb⟩ := System.move_of_advance hstep
      rw [willEnd, willEnd, hprogram, hsession, hdb, ← Program.exec_of_advance store hstep]
      exact ⟨rfl, rfl⟩

/-- A move that leaves the database alone keeps what the other will end with. -/
theorem willEnd_move_of_ne {k : Bool} (hik : i ≠ k) (hdb : (σ.move store k).db = σ.db) :
    willEnd (σ.move store k) i = willEnd σ i := by
  rw [willEnd, willEnd, System.move_program_of_ne hik, System.move_session_of_ne hik, hdb]

/-- The move of a quiet program leaves it quiet, and the database alone. -/
theorem quiet_move (hquiet : (σ.program i).Quiet) :
    ((σ.move store i).program i).Quiet ∧ (σ.move store i).db = σ.db := by
  cases hstep : (σ.program i).advance store (σ.session i) σ.db with
  | none =>
      obtain ⟨hprogram, -, hdb⟩ := System.move_of_finished hstep
      rw [hprogram]
      exact ⟨hquiet, hdb⟩
  | some after =>
      obtain ⟨p, s, contents⟩ := after
      obtain ⟨hprogram, -, hdb⟩ := System.move_of_advance hstep
      rw [hprogram, hdb]
      exact hquiet.advance hstep

/-- The requests run one after the other: the second begins when the first has nothing
left to write, and from then on nothing is written. -/
inductive Serially (env : Environment) (payload : Bool → AllocationIn) (draws : Bool → ℕ → Draw)
    (db : Db) (σ : System Bool Db Write ℤ Draw Failure AllocationOut) : Prop
  | /-- None has begun. -/
    idle (hfresh : ∀ i, Fresh env payload draws σ i) (hdb : σ.db = db)
  | /-- One has begun. -/
    one (i : Bool) (hbegun : i ∈ σ.history)
      (hfirst : SameEnd (willEnd σ i) (endsAlone env payload draws i db))
      (hother : Fresh env payload draws σ (!i))
  | /-- Both have begun. -/
    both (i : Bool) (hbegun : ∀ j, j ∈ σ.history)
      (hfirst : SameEnd (willEnd σ i) (endsAlone env payload draws i db))
      (hsecond : SameEnd (willEnd σ !i)
        (endsAlone env payload draws (!i) (endsAlone env payload draws i db).db))
      (hquiet : ∀ j, (σ.program j).Quiet)

/-- Another request's move leaves a request fresh. -/
theorem Fresh.frame {k : Bool} (h : Fresh env payload draws σ i) (hik : i ≠ k) :
    Fresh env payload draws (σ.move store k) i where
  program := (System.move_program_of_ne hik).trans h.program
  session := (System.move_session_of_ne hik).trans h.session
  history := by
    rw [System.move_history, List.mem_append, List.mem_singleton, not_or]
    exact ⟨h.history, hik⟩

theorem mem_move_history {j k : Bool} : j ∈ (σ.move store k).history ↔ j ∈ σ.history ∨ j = k := by
  rw [System.move_history, List.mem_append, List.mem_singleton]

/-- The first move of a request that finds its key in use leaves it nothing to write. -/
theorem Fresh.move_of_keyedBy {allocation : Allocation} (h : Fresh env payload draws σ i)
    (hrequest : (payload i).requestId = some requestId)
    (hpurposes : validatePurposes (payload i).requests = pure ())
    (hkeyed : KeyedBy σ.db requestId allocation) :
    ((σ.move store i).program i).Quiet ∧ (σ.move store i).db = σ.db := by
  have hview : (σ.session i).view store σ.db = σ.db := by
    rw [h.session]
    exact view_of_batch_nil rfl σ.db
  have hstep : (σ.program i).advance store (σ.session i) σ.db =
      some (replayAllocation env (payload i) requestId allocation, σ.session i, σ.db) := by
    rw [h.program, createAllocation_eq_read hrequest hpurposes]
    simp only [Program.advance, hview, hkeyed.only]
    rfl
  obtain ⟨hprogram, -, hdb⟩ := System.move_of_advance hstep
  rw [hprogram]
  exact ⟨(observes_replayAllocation env (payload i) requestId allocation).quiet, hdb⟩

theorem Serially.move {k : Bool} (hrequest : ∀ i, (payload i).requestId = some requestId)
    (hnew : ∀ allocation ∈ db.allocations, allocation.requestId ≠ some requestId)
    (halone : ∀ i, ∃ out, (endsAlone env payload draws i db).result = .ok out)
    (h : Serially env payload draws db σ) (hallowed : OneAtATime σ k) :
    Serially env payload draws db (σ.move store k) := by
  cases h with
  | idle hfresh hdb =>
      refine .one k (mem_move_history.mpr (.inr rfl)) ?_ ((hfresh !k).frame (by simp))
      refine (willEnd_move_self σ k).trans ?_
      rw [(hfresh k).willEnd, hdb]
      exact ⟨rfl, rfl⟩
  | one i hbegun hfirst hother =>
      by_cases hki : k = i
      · subst hki
        exact .one k (mem_move_history.mpr (.inl hbegun)) ((willEnd_move_self σ k).trans hfirst)
          (hother.frame (by simp))
      · obtain rfl : k = !i := Bool.eq_not.mpr hki
        -- The first request has nothing left to write, so its allocation is on file.
        have hquiet : (σ.program i).Quiet := by
          rcases hallowed hother.history with hnot | hquiet
          · exact (hnot (by simpa using hbegun)).elim
          · simpa using hquiet
        have hdb : σ.db = (endsAlone env payload draws i db).db := by
          rw [← hfirst.db]
          exact (hquiet.exec_db _ _).symm
        obtain ⟨out, hout⟩ := halone i
        obtain ⟨allocation, hkeyed, -⟩ := keyedBy_of_ok (hrequest i) hnew hout
        obtain ⟨_, hother'⟩ := halone !i
        obtain ⟨hquiet', hsame⟩ := hother.move_of_keyedBy (hrequest !i)
          (validatePurposes_of_ok hother') (by rw [hdb]; exact hkeyed)
        refine .both i ?_ ?_ ?_ ?_
        · intro j
          rw [mem_move_history]
          by_cases hj : j = i
          · exact .inl (hj ▸ hbegun)
          · exact .inr (Bool.eq_not.mpr hj)
        · rw [willEnd_move_of_ne (by simp) hsame]
          exact hfirst
        · refine (willEnd_move_self σ !i).trans ?_
          rw [hother.willEnd, hdb]
          exact ⟨rfl, rfl⟩
        · intro j
          by_cases hj : j = i
          · rw [hj, System.move_program_of_ne (by simp)]
            exact hquiet
          · obtain rfl : j = !i := Bool.eq_not.mpr hj
            exact hquiet'
  | both i hbegun hfirst hsecond hquiet =>
      obtain ⟨hquiet', hsame⟩ := quiet_move (hquiet k)
      have hkeep : ∀ j, SameEnd (willEnd (σ.move store k) j) (willEnd σ j) := by
        intro j
        by_cases hj : j = k
        · rw [hj]
          exact willEnd_move_self σ k
        · rw [willEnd_move_of_ne hj hsame]
          exact ⟨rfl, rfl⟩
      refine .both i (fun j => mem_move_history.mpr (.inl (hbegun j)))
        ((hkeep i).trans hfirst) ((hkeep !i).trans hsecond) fun j => ?_
      by_cases hj : j = k
      · rw [hj]
        exact hquiet'
      · rw [System.move_program_of_ne hj]
        exact hquiet j

/-- A request that is over ended as its program says. -/
theorem program_of_willEnd (hdone : (σ.program i).Finished) :
    (∀ out, (willEnd σ i).result = .ok out → σ.program i = .ret out) ∧
      ∀ error, (willEnd σ i).result = .error error → σ.program i = .raise error := by
  cases hprogram : σ.program i with
  | ret value =>
      rw [willEnd, hprogram]
      refine ⟨?_, ?_⟩
      · rintro out ⟨⟩
        rfl
      · rintro error ⟨⟩
  | raise failure =>
      rw [willEnd, hprogram]
      refine ⟨?_, ?_⟩
      · rintro out ⟨⟩
      · rintro error ⟨⟩
        rfl
  | _ => rw [hprogram] at hdone; exact hdone.elim

theorem Fresh.not_finished (h : Fresh env payload draws σ i)
    (hrequest : (payload i).requestId = some requestId)
    (hpurposes : validatePurposes (payload i).requests = pure ()) :
    ¬ (σ.program i).Finished := by
  rw [h.program, createAllocation_eq_read hrequest hpurposes]
  exact id

/-- Two requests with one key, of which the second looks the key up when the first has
nothing left to write: one allocation carries the key; with one payload both answer
with it, with two the later one is refused as a conflict. -/
theorem idempotent_of_reachable (hrequest : ∀ i, (payload i).requestId = some requestId)
    (hnew : ∀ allocation ∈ db.allocations, allocation.requestId ≠ some requestId)
    (halone : ∀ i, ∃ out, (endsAlone env payload draws i db).result = .ok out)
    (hdigest : ∀ i, hashPayload env (payload i) = hashPayload env (payload !i) →
      canonicalPayload (payload i) = canonicalPayload (payload !i))
    (hreach : System.Reachable store OneAtATime
      (System.start db (fun i => createAllocation env (payload i)) draws) σ)
    (hdone : ∀ i, (σ.program i).Finished) :
    ∃ allocation, σ.db.allocationsByRequestId requestId = [allocation] ∧
      (canonicalPayload (payload true) = canonicalPayload (payload false) →
        ∀ i, ∃ out, σ.program i = .ret out ∧ out.allocationId = allocation.id) ∧
      (canonicalPayload (payload true) ≠ canonicalPayload (payload false) →
        ∃ i out, σ.program i = .ret out ∧ out.allocationId = allocation.id ∧
          σ.program (!i) = .raise (.allocation (idempotencyConflict requestId))) := by
  have hserially : Serially env payload draws db σ := by
    clear hdone
    induction hreach with
    | start => exact .idle (fun i => ⟨rfl, rfl, by simp [System.start]⟩) rfl
    | step _ _ hallowed ih => exact ih.move hrequest hnew halone hallowed
  have hpurposes : ∀ i, validatePurposes (payload i).requests = pure () := by
    intro i
    obtain ⟨out, hout⟩ := halone i
    exact validatePurposes_of_ok hout
  cases hserially with
  | idle hfresh _ => exact ((hfresh true).not_finished (hrequest _) (hpurposes _) (hdone _)).elim
  | one i _ _ hother => exact (hother.not_finished (hrequest _) (hpurposes _) (hdone _)).elim
  | both i _ hfirst hsecond hquiet =>
      obtain ⟨out, hout⟩ := halone i
      obtain ⟨allocation, hkeyed, hhash, hid⟩ := keyedBy_of_ok (hrequest i) hnew hout
      have hsecond' : _ ∧ (_ → ∃ out', (endsAlone env payload draws (!i)
          (endsAlone env payload draws i db).db).result = .ok out' ∧ _) ∧ _ :=
        runCreateAllocation_of_keyedBy (hrequest !i) (hpurposes !i) hkeyed
      obtain ⟨-, hreplay, hconflict⟩ := hsecond'
      have hdb : σ.db = (endsAlone env payload draws i db).db := by
        rw [← hfirst.db]
        exact ((hquiet i).exec_db _ _).symm
      have hanswer := (program_of_willEnd (hdone i)).1 out (hfirst.result.trans hout)
      have hcanonical : allocation.requestPayloadHash = some (hashPayload env (payload !i)) ↔
          canonicalPayload (payload true) = canonicalPayload (payload false) := by
        rw [hhash, Option.some_inj]
        refine ⟨fun hsame => ?_, fun hsame => ?_⟩
        · have hpayloads := hdigest i hsame
          cases i with
          | true => exact hpayloads
          | false => exact hpayloads.symm
        · cases i with
          | true => exact congrArg env.digest hsame
          | false => exact congrArg env.digest hsame.symm
      refine ⟨allocation, by rw [hdb]; exact hkeyed.only, fun hsame j => ?_, fun hother => ?_⟩
      · by_cases hj : j = i
        · rw [hj]
          exact ⟨out, hanswer, hid⟩
        · obtain rfl : j = !i := Bool.eq_not.mpr hj
          obtain ⟨out', hout', hid'⟩ := hreplay (hcanonical.mpr hsame)
          exact ⟨out', (program_of_willEnd (hdone _)).1 out' (hsecond.result.trans hout'), hid'⟩
      · have herror := hconflict fun hsame => hother (hcanonical.mp hsame)
        exact ⟨i, out, hanswer, hid,
          (program_of_willEnd (hdone _)).2 _ (hsecond.result.trans herror)⟩

end TwoRequests

/-- Two requests for the keyed bundle. -/
def keyedPair : System Bool Db Write ℤ Draw Failure AllocationOut :=
  System.start sampleDb (fun _ => createAllocation sampleEnvironment keyedPayload)
    fun first => sampleDraws (if first then 100 else 200)

theorem idempotent_of_reachable_sample :
    ∃ σ, (∀ i, (σ.program i).Finished) ∧ System.Reachable store OneAtATime keyedPair σ ∧
      ∃ allocation, σ.db.allocationsByRequestId "req-1" = [allocation] ∧
        (canonicalPayload keyedPayload = canonicalPayload keyedPayload →
          ∀ i, ∃ out, σ.program i = .ret out ∧ out.allocationId = allocation.id) ∧
        (canonicalPayload keyedPayload ≠ canonicalPayload keyedPayload →
          ∃ i out, σ.program i = .ret out ∧ out.allocationId = allocation.id ∧
            σ.program (!i) = .raise (.allocation (idempotencyConflict "req-1"))) := by
  obtain ⟨τ, σ, out, hfirst, hplay, hanswer, hidle, hdone⟩ : ∃ τ σ out,
      System.play store (List.replicate 36 true) keyedPair = some τ ∧
      System.play store (List.replicate 12 false) τ = some σ ∧
      τ.program true = .ret out ∧ false ∉ τ.history ∧
      ∀ i, (σ.program i).Finished :=
    ⟨_, _, _, rfl, rfl, rfl, by decide, by rintro (_ | _) <;> exact trivial⟩
  have hreach : System.Reachable store OneAtATime keyedPair τ := by
    refine System.Reachable.of_play_allowed (P := fun τ => false ∉ τ.history) .start (by decide)
      (fun υ hυ i hi => ?_) hfirst
    obtain rfl := List.eq_of_mem_replicate hi
    exact ⟨fun _ => .inl hυ, by simpa [System.move_history] using hυ⟩
  have hreach' : System.Reachable store OneAtATime keyedPair σ := by
    refine hreach.of_play_allowed (P := fun υ => υ.program true = .ret out) hanswer
      (fun υ hυ i hi => ?_) hplay
    obtain rfl := List.eq_of_mem_replicate hi
    refine ⟨fun _ => .inr ?_, by rw [System.move_program_of_ne (by decide)]; exact hυ⟩
    change (υ.program true).Quiet
    rw [hυ]
    exact trivial
  exact ⟨σ, hdone, hreach', idempotent_of_reachable (fun _ => rfl) (by decide)
    (fun i => by cases i <;> exact ⟨_, rfl⟩) (fun _ _ => rfl) hreach' hdone⟩

/-- When both requests look the key up before either inserts it, the later one fails
with the integrity error of the unique index. -/
theorem idempotent_violated :
    (∀ allocation ∈ sampleDb.allocations, allocation.requestId ≠ some "req-1") ∧
      (∀ i : Bool, ∃ out, (endsAlone sampleEnvironment (fun _ => keyedPayload)
        (fun first => sampleDraws (if first then 100 else 200)) i sampleDb).result = .ok out) ∧
      ∃ σ, System.Reachable store System.anyOrder keyedPair σ ∧
        (∃ out, σ.program true = .ret out) ∧ σ.program false = .raise (.db .integrity) := by
  refine ⟨by decide, fun i => by cases i <;> exact ⟨_, rfl⟩, ?_⟩
  obtain ⟨σ, hplay, hanswer, herror⟩ : ∃ σ,
      System.play store (true :: false :: (List.replicate 36 true ++ List.replicate 21 false))
        keyedPair = some σ ∧
      (∃ out, σ.program true = .ret out) ∧ σ.program false = .raise (.db .integrity) :=
    ⟨_, rfl, ⟨_, rfl⟩, rfl⟩
  exact ⟨σ, System.Reachable.of_play .start hplay, hanswer, herror⟩

end Central
