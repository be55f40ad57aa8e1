/-
# Ownership in the local store

Calls on behalf of one project leave the reservations of other projects alone. A release
finds its reservation by host, port and protocol but removes by identifier, so a foreign
reservation is safe as long as it does not bear the identifier of one of the project's.
-/

import PortForge.Agent.LocalStore

namespace Agent

open Central Effects Python

/-! ## Whose a reservation is -/

/-- A project's name without case and surrounding space. -/
def foldedName (lower : String → String) (project : String) : String :=
  lower (String.ofList (stripChars project.toList))

/-- The reservation is the project's. -/
def Reservation.ownedBy (lower : String → String) (project : String)
    (reservation : Reservation) : Bool :=
  foldedName lower reservation.project = foldedName lower project

/-- The reservation is another project's, and bears none of the identifiers. -/
def Reservation.foreign (lower : String → String) (project : String) (shared : List String)
    (reservation : Reservation) : Bool :=
  ¬ reservation.ownedBy lower project ∧ reservation.reservationId ∉ shared

/-- The section works on behalf of the project, and draws an identifier of the list. -/
def StoreOp.OnBehalf (lower : String → String) (project : String) (shared : List String) :
    StoreOp → Prop
  | load => True
  | reserve _ _ args id _ =>
      foldedName lower args.project = foldedName lower project ∧ id ∈ shared
  | release _ _ owner _ => foldedName lower owner = foldedName lower project
  | _ => False

/-- The call works on behalf of the project. -/
def LocalCall.OnBehalf (lower : String → String) (project : String) : LocalCall → Prop
  | reserve _ args => foldedName lower args.project = foldedName lower project
  | release _ _ owner _ => foldedName lower owner = foldedName lower project
  | sync config _ =>
      ∀ owner, config.project = some owner → foldedName lower owner = foldedName lower project
  | _ => False

/-- The identifiers a call draws. -/
def LocalCall.drawnIds : LocalCall → List String
  | reserve around _ => [around.id]
  | sync config around => (List.range (config.ports.getD []).length).map fun n => (around n).id
  | _ => []

/-- The outcome is a refusal. -/
def ReserveOutcome.isRefusal : ReserveOutcome → Bool
  | refusedOtherProjectReservation => true
  | refusedActiveOtherOwner => true
  | _ => false

/-- The call is refused on the stored reservations. -/
def LocalCall.Refused (lower : String → String) (reservations : List Reservation) :
    LocalCall → Prop
  | reserve around args =>
      (Agent.reserve ⟨around.hostId, lower⟩ around.discovered reservations args around.id
        around.now).1.outcome.isRefusal = true
  | release hostId port project protocol =>
      (Agent.release ⟨hostId, lower⟩ reservations port project protocol).1.outcome =
        .refusedOtherProject
  | sync config around =>
      match ((syncProjectReservations config around).run (StoreOp.handle lower)
        reservations).1 with
      | .ok results => ∀ result ∈ results, result.outcome.isRefusal = true
      | .error _ => True
  | _ => False

/-- What a call leaves stored. -/
def LocalCall.leaves (lower : String → String) (reservations : List Reservation)
    (call : LocalCall) : List Reservation :=
  (call.program.run (StoreOp.handle lower) reservations).2

section Sections

variable {lower : String → String} {project : String} {shared : List String}
  {reservations : List Reservation}

theorem foldedName_of_sameProject {hostId : String} {a b : String}
    (h : sameProject ⟨hostId, lower⟩ (some a) (some b) = true) :
    foldedName lower a = foldedName lower b := by
  simp only [sameProject, Bool.and_eq_true, decide_eq_true_eq] at h
  exact h.2

theorem foreign_of_ownedBy {reservation : Reservation}
    (h : reservation.ownedBy lower project = true) :
    reservation.foreign lower project shared = false := by
  simp [Reservation.foreign, h]

theorem foreign_of_shared {reservation : Reservation} (h : reservation.reservationId ∈ shared) :
    reservation.foreign lower project shared = false := by
  simp [Reservation.foreign, h]

theorem mem_changeFirst {qualifies : Reservation → Bool} {change : Reservation → Reservation}
    {reservation : Reservation} (h : reservation ∈ changeFirst qualifies change reservations) :
    reservation ∈ reservations ∨
      ∃ old, reservations.find? qualifies = some old ∧ reservation = change old := by
  induction reservations with
  | nil => cases h
  | cons first rest ih =>
      rw [changeFirst] at h
      by_cases hfirst : qualifies first
      · rw [if_pos hfirst] at h
        rcases List.mem_cons.mp h with rfl | hrest
        · exact .inr ⟨first, List.find?_cons_of_pos hfirst, rfl⟩
        · exact .inl (List.mem_cons_of_mem _ hrest)
      · rw [if_neg hfirst] at h
        rw [List.find?_cons_of_neg hfirst]
        rcases List.mem_cons.mp h with rfl | hrest
        · exact .inl (List.mem_cons_self ..)
        · exact (ih hrest).imp_left (List.mem_cons_of_mem _)

/-- A change of an entry that is filtered out, before and after. -/
theorem filter_changeFirst {qualifies keep : Reservation → Bool}
    {change : Reservation → Reservation} {old : Reservation}
    (hold : reservations.find? qualifies = some old) (hbefore : keep old = false)
    (hafter : keep (change old) = false) :
    (changeFirst qualifies change reservations).filter keep = reservations.filter keep := by
  induction reservations with
  | nil => cases hold
  | cons first rest ih =>
      rw [changeFirst]
      by_cases hfirst : qualifies first
      · rw [List.find?_cons_of_pos hfirst] at hold
        obtain rfl := Option.some.inj hold
        rw [if_pos hfirst, List.filter_cons_of_neg (by simp [hafter]),
          List.filter_cons_of_neg (by simp [hbefore])]
      · rw [List.find?_cons_of_neg hfirst] at hold
        rw [if_neg hfirst, List.filter_cons, List.filter_cons, ih hold]

/-- The project's own reservations bear identifiers of the list. -/
def Known (lower : String → String) (project : String) (shared : List String)
    (reservations : List Reservation) : Prop :=
  ∀ reservation ∈ reservations, reservation.ownedBy lower project = true →
    reservation.reservationId ∈ shared

/-- The later reservations have the same foreign ones, and the project's own are known. -/
structure Spares (lower : String → String) (project : String) (shared : List String)
    (reservations later : List Reservation) : Prop where
  known : Known lower project shared later
  foreign : later.filter (Reservation.foreign lower project shared) =
    reservations.filter (Reservation.foreign lower project shared)

theorem Spares.trans {first second third : List Reservation}
    (h : Spares lower project shared first second)
    (hnext : Spares lower project shared second third) :
    Spares lower project shared first third :=
  ⟨hnext.known, hnext.foreign.trans h.foreign⟩

/-- A new reservation of the project spares the others. -/
theorem spares_append (h : Known lower project shared reservations) {new : Reservation}
    (howned : new.ownedBy lower project = true) (hid : new.reservationId ∈ shared) :
    Spares lower project shared reservations (reservations ++ [new]) := by
  constructor
  · intro reservation hmem
    rcases List.mem_append.mp hmem with hold | hnew
    · exact h reservation hold
    · obtain rfl := List.mem_singleton.mp hnew
      exact fun _ => hid
  · rw [List.filter_append, List.filter_cons_of_neg (by simp [foreign_of_ownedBy howned]),
      List.filter_nil, List.append_nil]

theorem spares_reserve (h : Known lower project shared reservations) (hostId : String)
    (discovered : List DiscoveredPort) (args : ReserveArguments) (id : String) (now : ℤ)
    (hproject : foldedName lower args.project = foldedName lower project) (hid : id ∈ shared) :
    Spares lower project shared reservations
      (reserve ⟨hostId, lower⟩ discovered reservations args id now).2 := by
  have hsame : Spares lower project shared reservations reservations := ⟨h, rfl⟩
  have hadded : Spares lower project shared reservations
      (reservations ++ [.create ⟨hostId, lower⟩ args id now]) :=
    spares_append h (decide_eq_true hproject) hid
  rw [reserve]
  cases hfound : findExact reservations hostId args.port args.protocol with
  | some existing =>
      simp only
      split
      · next hmatch =>
          have howned : existing.ownedBy lower project = true := by
            simpa [Reservation.ownedBy] using (foldedName_of_sameProject hmatch).trans hproject
          have hchanged : (existing.refreshed args now).ownedBy lower project = true := howned
          constructor
          · intro reservation hmem
            rcases mem_changeFirst hmem with hold | ⟨old, hold, rfl⟩
            · exact h reservation hold
            · obtain rfl := Option.some.inj (hfound.symm.trans hold)
              exact fun _ => h existing (List.mem_of_find?_eq_some hfound) howned
          · exact filter_changeFirst hfound (foreign_of_ownedBy howned)
              (foreign_of_ownedBy hchanged)
      · exact hsame
  | none =>
      cases findDiscovered discovered args.port args.protocol with
      | none => exact hadded
      | some active =>
          simp only
          split
          · exact hadded
          · exact hsame

theorem spares_release (h : Known lower project shared reservations) (hostId : String)
    (port : ℕ) (owner : String) (protocol : Protocol)
    (howner : foldedName lower owner = foldedName lower project) :
    Spares lower project shared reservations
      (release ⟨hostId, lower⟩ reservations port owner protocol).2 := by
  have hsame : Spares lower project shared reservations reservations := ⟨h, rfl⟩
  rw [release]
  cases hfound : findExact reservations hostId port protocol with
  | none => exact hsame
  | some existing =>
      simp only
      split
      · next hmatch =>
          -- What is removed bears an identifier of the project's.
          have howned : existing.ownedBy lower project = true := by
            simpa [Reservation.ownedBy] using (foldedName_of_sameProject hmatch).trans howner
          have hshared := h existing (List.mem_of_find?_eq_some hfound) howned
          refine ⟨fun reservation hmem => h reservation (List.mem_of_mem_filter hmem), ?_⟩
          rw [List.filter_filter]
          refine List.filter_congr fun reservation _ => ?_
          by_cases hid : reservation.reservationId = existing.reservationId
          · simp [foreign_of_shared (hid ▸ hshared : reservation.reservationId ∈ shared)]
          · simp [hid]
      · exact hsame

/-- One section on behalf of the project. -/
theorem spares_handle (h : Known lower project shared reservations) {op : StoreOp}
    (hop : op.OnBehalf lower project shared) :
    Spares lower project shared reservations (op.handle lower reservations).2 := by
  cases op with
  | load => exact ⟨h, rfl⟩
  | reserve hostId discovered args id now =>
      exact spares_reserve h hostId discovered args id now hop.1 hop.2
  | release hostId port owner protocol => exact spares_release h hostId port owner protocol hop
  | _ => exact hop.elim

/-! ## Calls -/

theorem uses_syncEntries {P : StoreOp → Prop} (owner : String) (entries : List (Option ProjectPort))
    (around : ℕ → Surroundings)
    (h : ∀ n < entries.length, ∀ entry : ProjectPort,
      P (.reserve (around n).hostId (around n).discovered
        { port := entry.port, project := owner, protocol := entry.protocol
          service := entry.service, purpose := entry.purpose } (around n).id (around n).now)) :
    (syncEntries owner around entries).Uses P := by
  induction entries generalizing around with
  | nil => trivial
  | cons entry rest ih =>
      have hrest := ih (fun n => around (n + 1)) fun n hn => h (n + 1) (Nat.succ_lt_succ hn)
      cases entry with
      | none => exact hrest
      | some entry =>
          exact ⟨h 0 (Nat.succ_pos _) entry, fun _ => hrest.bind fun _ => trivial⟩

/-- The sections of a call on behalf of the project are on behalf of it. -/
theorem uses_program {call : LocalCall} (h : call.OnBehalf lower project)
    (hids : ∀ id ∈ call.drawnIds, id ∈ shared) :
    call.program.Uses (StoreOp.OnBehalf lower project shared) := by
  cases call with
  | reserve around args => exact ⟨⟨h, hids _ (List.mem_singleton.mpr rfl)⟩, fun _ => trivial⟩
  | release hostId port owner protocol => exact ⟨h, fun _ => trivial⟩
  | sync config around =>
      refine Program.Uses.bind ?_ fun _ => trivial
      rw [syncProjectReservations]
      cases hproject : given config.project with
      | none => trivial
      | some owner =>
          have howner : config.project = some owner := by
            rw [given] at hproject
            exact (Option.filter_eq_some_iff.mp hproject).1
          cases hports : config.ports with
          | none => trivial
          | some entries =>
              refine uses_syncEntries owner entries around fun n hn entry => ⟨h owner howner, ?_⟩
              refine hids _ (List.mem_map_of_mem (List.mem_range.mpr ?_))
              rwa [hports]
  | _ => exact h.elim

theorem spares_call (h : Known lower project shared reservations) {call : LocalCall}
    (hcall : call.OnBehalf lower project) (hids : ∀ id ∈ call.drawnIds, id ∈ shared) :
    Spares lower project shared reservations (call.leaves lower reservations) :=
  (uses_program hcall hids).run_induction ⟨h, rfl⟩ fun _ _ hop hspares =>
    hspares.trans (spares_handle hspares.known hop)

theorem unchanged_of_refused_reserve {A : AgentHost} {discovered : List DiscoveredPort}
    {args : ReserveArguments} {id : String} {now : ℤ}
    (h : (reserve A discovered reservations args id now).1.outcome.isRefusal = true) :
    (reserve A discovered reservations args id now).2 = reservations := by
  rw [reserve] at h ⊢
  cases hfound : findExact reservations A.hostId args.port args.protocol with
  | some existing =>
      simp only [hfound] at h ⊢
      split at h
      · cases h
      · next hmatch => rw [if_neg hmatch]
  | none =>
      simp only [hfound] at h ⊢
      cases hactive : findDiscovered discovered args.port args.protocol with
      | none =>
          rw [hactive] at h
          cases h
      | some active =>
          simp only [hactive] at h ⊢
          split at h
          · cases h
          · next hmatch => rw [if_neg hmatch]

theorem unchanged_of_refused_release {A : AgentHost} {port : ℕ} {owner : String}
    {protocol : Protocol}
    (h : (release A reservations port owner protocol).1.outcome = .refusedOtherProject) :
    (release A reservations port owner protocol).2 = reservations := by
  rw [release] at h ⊢
  cases hfound : findExact reservations A.hostId port protocol with
  | none => rfl
  | some existing =>
      simp only [hfound] at h ⊢
      split at h
      · cases h
      · next hmatch => rw [if_neg hmatch]

/-- The loop of a sync returns. -/
theorem syncEntries_returns (lower : String → String) (owner : String)
    (entries : List (Option ProjectPort)) (around : ℕ → Surroundings)
    (reservations : List Reservation) :
    ∃ results later, (syncEntries owner around entries).run (StoreOp.handle lower) reservations =
      (.ok results, later) := by
  induction entries generalizing around reservations with
  | nil => exact ⟨[], reservations, rfl⟩
  | cons entry rest ih =>
      cases entry with
      | none => exact ih (fun n => around (n + 1)) reservations
      | some entry =>
          obtain ⟨results, later, hrest⟩ := ih (fun n => around (n + 1))
            (reserve ⟨(around 0).hostId, lower⟩ (around 0).discovered reservations
              { port := entry.port, project := owner, protocol := entry.protocol
                service := entry.service, purpose := entry.purpose }
              (around 0).id (around 0).now).2
          exact ⟨_, later, Program.run_bind_of_ok hrest⟩

theorem unchanged_of_refused_sync {owner : String} {entries : List (Option ProjectPort)}
    {around : ℕ → Surroundings} {results : List ReserveResult} {later : List Reservation}
    (hrun : (syncEntries owner around entries).run (StoreOp.handle lower) reservations =
      (.ok results, later))
    (h : ∀ result ∈ results, result.outcome.isRefusal = true) : later = reservations := by
  induction entries generalizing around results reservations with
  | nil =>
      cases hrun
      rfl
  | cons entry rest ih =>
      cases entry with
      | none => exact ih hrun h
      | some entry =>
          let args : ReserveArguments :=
            { port := entry.port, project := owner, protocol := entry.protocol
              service := entry.service, purpose := entry.purpose }
          let done := reserve ⟨(around 0).hostId, lower⟩ (around 0).discovered reservations args
            (around 0).id (around 0).now
          have hdone : ((syncEntries owner (fun n => around (n + 1)) rest).bind fun results =>
              .ret (done.1 :: results)).run (StoreOp.handle lower) done.2 =
                (.ok results, later) := hrun
          obtain ⟨others, stored, hrest⟩ :=
            syncEntries_returns lower owner rest (fun n => around (n + 1)) done.2
          rw [Program.run_bind_of_ok hrest] at hdone
          cases hdone
          obtain ⟨hfirst, hothers⟩ := List.forall_mem_cons.mp h
          exact (ih hrest hothers).trans (unchanged_of_refused_reserve hfirst)

/-- A call that is refused leaves what is stored. -/
theorem leaves_of_refused {call : LocalCall} (h : call.Refused lower reservations) :
    call.leaves lower reservations = reservations := by
  cases call with
  | reserve around args => exact unchanged_of_refused_reserve h
  | release hostId port owner protocol => exact unchanged_of_refused_release h
  | sync config around =>
      rw [LocalCall.leaves, LocalCall.program]
      rw [LocalCall.Refused] at h
      cases hproject : given config.project with
      | none =>
          simp only [syncProjectReservations, hproject]
          rfl
      | some owner =>
          cases hports : config.ports with
          | none =>
              simp only [syncProjectReservations, hproject, hports]
              rfl
          | some entries =>
              simp only [syncProjectReservations, hproject, hports] at h ⊢
              obtain ⟨results, later, hrun⟩ :=
                syncEntries_returns lower owner entries around reservations
              rw [hrun] at h
              rw [Program.run_bind_of_ok hrun]
              exact unchanged_of_refused_sync hrun h
  | _ => exact h.elim

/-- Calls on behalf of a project, one after the other, neither change nor remove a reservation of
another project, unless it bears an identifier of one of the project's own; and a call that is
refused leaves the stored list as it was. -/
theorem foreign_kept (lower : String → String) (project : String) (calls : List LocalCall)
    (hcalls : ∀ call ∈ calls, call.OnBehalf lower project) (reservations : List Reservation) :
    let shared := (reservations.filter (Reservation.ownedBy lower project)).map
      Reservation.reservationId ++ calls.flatMap LocalCall.drawnIds
    (calls.foldl (LocalCall.leaves lower) reservations).filter
        (Reservation.foreign lower project shared) =
      reservations.filter (Reservation.foreign lower project shared) ∧
    ∀ call ∈ calls, ∀ stored, call.Refused lower stored → call.leaves lower stored = stored := by
  intro shared
  have hknown : Known lower project shared reservations := fun reservation hmem howned =>
    List.mem_append_left _ (List.mem_map_of_mem (List.mem_filter.mpr ⟨hmem, howned⟩))
  have hruns : ∀ (rest : List LocalCall) (stored : List Reservation),
      (∀ call ∈ rest, call ∈ calls) → Known lower project shared stored →
        Spares lower project shared stored (rest.foldl (LocalCall.leaves lower) stored) := by
    intro rest
    induction rest with
    | nil => exact fun stored _ hstored => ⟨hstored, rfl⟩
    | cons call rest ih =>
        intro stored hrest hstored
        obtain ⟨hcall, hothers⟩ := List.forall_mem_cons.mp hrest
        have hspares := spares_call hstored (hcalls call hcall) fun id hid =>
          List.mem_append_right _ (List.mem_flatMap.mpr ⟨call, hcall, hid⟩)
        exact hspares.trans (ih _ hothers hspares.known)
  exact ⟨(hruns calls reservations (fun _ => id) hknown).foreign,
    fun _ _ _ hrefused => leaves_of_refused hrefused⟩

end Sections

/-! ## Shared identifiers -/

/-- A reservation of one project, and one of another. -/
def twoProjects (otherId : String) : List Reservation :=
  [{ legacyReservation with project := "shop" },
    { legacyReservation with reservationId := otherId, port := 3001 }]

/-- What `shop` releases leaves the reservation of `blog`. -/
theorem foreign_kept_sample :
    ([LocalCall.release "box" 3000 " shop" .tcp].foldl (LocalCall.leaves id)
      (twoProjects "2")).filter (Reservation.foreign id "shop" ["1"]) =
        (twoProjects "2").filter (Reservation.foreign id "shop" ["1"]) :=
  (foreign_kept id "shop" [.release "box" 3000 " shop" .tcp]
    (fun call hcall => by
      rw [List.mem_singleton.mp hcall]
      exact (by decide : foldedName id " shop" = foldedName id "shop")) (twoProjects "2")).1

/-- The reservation of `blog` bears the identifier of the one `shop` releases, and is removed with
it. -/
theorem foreign_removed :
    (LocalCall.release "box" 3000 "shop" .tcp).OnBehalf id "shop" ∧
      ∃ reservation ∈ twoProjects "1", reservation.ownedBy id "shop" = false ∧
        (LocalCall.release "box" 3000 "shop" .tcp).leaves id (twoProjects "1") = [] :=
  ⟨rfl, { legacyReservation with port := 3001 }, by simp [twoProjects, legacyReservation],
    by decide, by decide⟩

end Agent
