/-
# The local store of reservations

Every operation on the stored reservations loads, decides and saves under the reservation
lock, so calls interleave by whole sections. Insertions check the key of a reservation;
the migration of legacy host ids rewrites the host part of it and checks nothing.
-/

import PortForge.Agent.Reservations
import PortForge.Effects.Threads

namespace Agent

open Central Effects Python

/-! ## Recommendations -/

/-- `PortRange`. -/
structure PortRange where
  first : ℕ
  last : ℕ

/-- `Exclusion`. -/
structure Exclusion where
  first : ℕ
  last : ℕ

/-- `PortForgeConfig`. -/
structure PortForgeConfig where
  ranges : List (String × PortRange)
  exclusions : List Exclusion

/-- `is_excluded`. -/
def PortForgeConfig.isExcluded (config : PortForgeConfig) (port : ℕ) : Bool :=
  config.exclusions.any fun exclusion => exclusion.first ≤ port ∧ port ≤ exclusion.last

/-- `range_for`. -/
def PortForgeConfig.rangeFor (config : PortForgeConfig) (serviceType : String) :
    Option PortRange :=
  (config.ranges.find? fun entry => entry.1 = serviceType).map Prod.snd

/-- `find_reservation`. -/
def findReservation (reservations : List Reservation) (hostId : String) (port : ℕ)
    (protocol : Protocol) (bindAddress : Option String) : Option Reservation :=
  reservations.find? fun reservation =>
    reservation.claims hostId port protocol ∧
      (reservation.bindAddress = none ∨ bindAddress = none ∨
        reservation.bindAddress = bindAddress)

/-- `SequentialStrategy.candidates`. -/
def sequentialCandidates (range : PortRange) : List ℕ :=
  List.range' range.first (range.last + 1 - range.first)

/-- `RecommendationResult`; its steps are those of the candidate that passed. -/
structure RecommendationResult where
  recommendedPort : Option ℕ
  steps : List (String × String)
  candidatesTried : ℕ
  unknownServiceType : Bool

/-- The first candidate that passes, and how many were tried. -/
def firstPassing (passes : ℕ → Bool) : List ℕ → ℕ → Option ℕ × ℕ
  | [], tried => (none, tried)
  | candidate :: rest, tried =>
      if passes candidate then (some candidate, tried + 1)
      else firstPassing passes rest (tried + 1)

theorem passes_of_firstPassing {passes : ℕ → Bool} {candidates : List ℕ} {tried port : ℕ}
    (h : (firstPassing passes candidates tried).1 = some port) : passes port = true := by
  induction candidates generalizing tried with
  | nil => cases h
  | cons candidate rest ih =>
      rw [firstPassing] at h
      split at h
      · next hpasses => exact Option.some.inj h ▸ hpasses
      · exact ih h

/-- The arguments of `recommend_and_reserve`, with the configuration it loads, the order in which
candidates are tried and what the bind probe finds. -/
structure RecommendArguments where
  serviceType : String
  project : String
  service : Option String := none
  purpose : Option String := none
  protocol : Protocol := .tcp
  notes : Option String := none
  config : PortForgeConfig
  candidates : PortRange → List ℕ := sequentialCandidates
  bindable : ℕ → Bool

/-- The three layers of validation. -/
def RecommendArguments.passes (args : RecommendArguments) (hostId : String)
    (discovered : List DiscoveredPort) (reservations : List Reservation) (candidate : ℕ) : Bool :=
  ¬ args.config.isExcluded candidate ∧
    findDiscovered discovered candidate args.protocol = none ∧
    findReservation reservations hostId candidate args.protocol none = none ∧
    args.bindable candidate

/-- `recommend_port`, on reservations and discovered ports that are given. -/
def recommendPort (hostId : String) (discovered : List DiscoveredPort)
    (reservations : List Reservation) (args : RecommendArguments) : RecommendationResult :=
  match args.config.rangeFor args.serviceType with
  | none => ⟨none, [], 0, true⟩
  | some range =>
      let (port, tried) :=
        firstPassing (args.passes hostId discovered reservations) (args.candidates range) 0
      { recommendedPort := port
        steps :=
          if port.isSome then
            [("discovery", "no active listener"), ("reservation", "no reservation"),
              ("exclusion", "not excluded"), ("bind_probe", "bind succeeded")]
          else []
        candidatesTried := tried
        unknownServiceType := false }

/-- `recommend_and_reserve` on the reservations that are stored. -/
def recommendAndReserve (A : AgentHost) (discovered : List DiscoveredPort)
    (reservations : List Reservation) (args : RecommendArguments) (id : String) (now : ℤ) :
    (RecommendationResult × Option Reservation) × List Reservation :=
  let result := recommendPort A.hostId discovered reservations args
  match result.recommendedPort with
  | none => ((result, none), reservations)
  | some port =>
      let reservation := Reservation.create A
        { port := port, project := args.project, protocol := args.protocol
          service := args.service, purpose := args.purpose, notes := args.notes } id now
      ((result, some reservation), reservations ++ [reservation])

/-! ## Migration -/

/-- The locked section of `migrate_legacy_reservations`. -/
def migrateLegacyReservations (newHostId legacyHostId : String)
    (reservations : List Reservation) : ℕ × List Reservation :=
  (reservations.countP fun reservation => reservation.hostId = legacyHostId,
    reservations.map fun reservation =>
      if reservation.hostId = legacyHostId then { reservation with hostId := newHostId }
      else reservation)

/-! ## Calls and their locked sections -/

/-- What a call does with the stored reservations: load them, or one section under the lock. -/
inductive StoreOp
  | load
  | reserve (hostId : String) (discovered : List DiscoveredPort) (args : ReserveArguments)
      (id : String) (now : ℤ)
  | release (hostId : String) (port : ℕ) (project : String) (protocol : Protocol)
  | releaseById (reservationId : String) (project : Option String)
  | recommendAndReserve (hostId : String) (discovered : List DiscoveredPort)
      (args : RecommendArguments) (id : String) (now : ℤ)
  | migrate (newHostId legacyHostId : String)

@[reducible]
def StoreOp.Answer : StoreOp → Type
  | load => List Reservation
  | reserve _ _ _ _ _ => ReserveResult
  | release _ _ _ _ => ReleaseResult
  | releaseById _ _ => ReleaseResult
  | recommendAndReserve _ _ _ _ _ => RecommendationResult × Option Reservation
  | migrate _ _ => ℕ

/-- A call; its exceptions carry their text. -/
abbrev StoreProgram := Program StoreOp StoreOp.Answer String

/-- What a section answers and leaves stored; `lower` is Unicode's lower case. -/
def StoreOp.handle (lower : String → String) :
    (op : StoreOp) → List Reservation → op.Answer × List Reservation
  | load, reservations => (reservations, reservations)
  | reserve hostId discovered args id now, reservations =>
      Agent.reserve ⟨hostId, lower⟩ discovered reservations args id now
  | release hostId port project protocol, reservations =>
      Agent.release ⟨hostId, lower⟩ reservations port project protocol
  | releaseById reservationId project, reservations =>
      Agent.releaseById ⟨"", lower⟩ reservations reservationId project
  | recommendAndReserve hostId discovered args id now, reservations =>
      Agent.recommendAndReserve ⟨hostId, lower⟩ discovered reservations args id now
  | migrate newHostId legacyHostId, reservations =>
      migrateLegacyReservations newHostId legacyHostId reservations

/-- One entry of the `ports` list of a project's configuration, with its texts; entries that are
no mapping or carry no integer port are none. -/
structure ProjectPort where
  port : ℕ
  service : Option String
  purpose : Option String
  protocol : Protocol

/-- What `sync_project_reservations` reads of a project's configuration. -/
structure ProjectConfig where
  project : Option String
  ports : Option (List (Option ProjectPort))

/-- What a call finds out around one section: the host id, the ports in use, a fresh identifier
and the time. -/
structure Surroundings where
  hostId : String
  discovered : List DiscoveredPort
  id : String
  now : ℤ

/-- The `reserve` call of one entry. -/
def syncEntry (project : String) (entry : ProjectPort) (around : Surroundings) :
    StoreProgram ReserveResult :=
  .call (.reserve around.hostId around.discovered
    { port := entry.port, project := project, protocol := entry.protocol
      service := entry.service, purpose := entry.purpose } around.id around.now) .ret

/-- The loop over the entries; `around` tells what each finds out. -/
def syncEntries (project : String) (around : ℕ → Surroundings) :
    List (Option ProjectPort) → StoreProgram (List ReserveResult)
  | [] => .ret []
  | none :: rest => syncEntries project (fun n => around (n + 1)) rest
  | some entry :: rest =>
      (syncEntry project entry (around 0)).bind fun result =>
        (syncEntries project (fun n => around (n + 1)) rest).bind fun results =>
          .ret (result :: results)

/-- `sync_project_reservations`. -/
def syncProjectReservations (config : ProjectConfig) (around : ℕ → Surroundings) :
    StoreProgram (List ReserveResult) :=
  match given config.project with
  | none => .raise "Project config has no 'project' name -- refusing to sync reservations."
  | some project =>
      match config.ports with
      | none => .ret []
      | some entries => syncEntries project around entries

/-- `migrate_legacy_reservations`: a look without the lock, and the section only where it finds
something to migrate. -/
def migrateReservations (newHostId legacyHostId : String) : StoreProgram ℕ :=
  if legacyHostId = "" ∨ newHostId = legacyHostId then .ret 0
  else .call .load fun reservations =>
    if reservations.any fun reservation => reservation.hostId = legacyHostId then
      .call (.migrate newHostId legacyHostId) .ret
    else .ret 0

/-- A call on the local store, with what it finds out. -/
inductive LocalCall
  | reserve (around : Surroundings) (args : ReserveArguments)
  | release (hostId : String) (port : ℕ) (project : String) (protocol : Protocol)
  | releaseById (reservationId : String) (project : Option String)
  | recommendAndReserve (around : Surroundings) (args : RecommendArguments)
  | sync (config : ProjectConfig) (around : ℕ → Surroundings)
  | migrate (newHostId legacyHostId : String)

/-- What a call runs; its answer plays no part in what it leaves stored. -/
def LocalCall.program : LocalCall → StoreProgram Unit
  | reserve around args =>
      .call (.reserve around.hostId around.discovered args around.id around.now) fun _ => .ret ()
  | release hostId port project protocol =>
      .call (.release hostId port project protocol) fun _ => .ret ()
  | releaseById reservationId project =>
      .call (.releaseById reservationId project) fun _ => .ret ()
  | recommendAndReserve around args =>
      .call (.recommendAndReserve around.hostId around.discovered args around.id around.now)
        fun _ => .ret ()
  | sync config around => (syncProjectReservations config around).bind fun _ => .ret ()
  | migrate newHostId legacyHostId =>
      (migrateReservations newHostId legacyHostId).bind fun _ => .ret ()

/-! ## One reservation for each key -/

/-- The key of a reservation. -/
def Reservation.key (reservation : Reservation) : String × ℕ × Protocol :=
  (reservation.hostId, reservation.port, reservation.protocol)

/-- No two reservations share their key. -/
def Distinct (reservations : List Reservation) : Prop := (reservations.map Reservation.key).Nodup

instance (reservations : List Reservation) : Decidable (Distinct reservations) :=
  inferInstanceAs (Decidable (List.Nodup _))

/-- The new host has no reservation on a port and protocol for which the legacy one has one. -/
def NoClash (newHostId legacyHostId : String) (reservations : List Reservation) : Prop :=
  ∀ legacy ∈ reservations, legacy.hostId = legacyHostId →
    ∀ other ∈ reservations, other.hostId = newHostId →
      (other.port, other.protocol) ≠ (legacy.port, legacy.protocol)

section Keys

variable {reservations : List Reservation} {lower : String → String}

theorem claims_iff {hostId : String} {port : ℕ} {protocol : Protocol}
    {reservation : Reservation} :
    reservation.claims hostId port protocol = true ↔
      reservation.key = (hostId, port, protocol) := by
  simp [Reservation.claims, Reservation.key]

theorem Distinct.filter (h : Distinct reservations) (keep : Reservation → Bool) :
    Distinct (reservations.filter keep) :=
  h.sublist (List.filter_sublist.map Reservation.key)

/-- A reservation whose key is not taken can be added. -/
theorem Distinct.append (h : Distinct reservations) {new : Reservation}
    (hnew : ∀ old ∈ reservations, old.key ≠ new.key) : Distinct (reservations ++ [new]) := by
  rw [Distinct, List.map_append, List.nodup_append]
  refine ⟨h, List.nodup_singleton _, fun key hkey other hother => ?_⟩
  obtain ⟨old, hold, rfl⟩ := List.mem_map.mp hkey
  rw [List.mem_singleton.mp hother]
  exact hnew old hold

theorem key_ne_of_findExact {hostId : String} {port : ℕ} {protocol : Protocol}
    (h : findExact reservations hostId port protocol = none) :
    ∀ old ∈ reservations, old.key ≠ (hostId, port, protocol) := by
  intro old hold hkey
  exact List.find?_eq_none.mp h old hold (claims_iff.mpr hkey)

theorem findExact_of_findReservation {hostId : String} {port : ℕ} {protocol : Protocol}
    (h : findReservation reservations hostId port protocol none = none) :
    findExact reservations hostId port protocol = none := by
  refine List.find?_eq_none.mpr fun old hold hclaims => ?_
  exact List.find?_eq_none.mp h old hold (by simp [hclaims])

theorem map_key_changeFirst {qualifies : Reservation → Bool} {change : Reservation → Reservation}
    (hchange : ∀ reservation, (change reservation).key = reservation.key) :
    (changeFirst qualifies change reservations).map Reservation.key =
      reservations.map Reservation.key := by
  induction reservations with
  | nil => rfl
  | cons first rest ih =>
      rw [changeFirst]
      split
      · rw [List.map_cons, List.map_cons, hchange]
      · rw [List.map_cons, List.map_cons, ih]

theorem distinct_reserve (h : Distinct reservations) (A : AgentHost)
    (discovered : List DiscoveredPort) (args : ReserveArguments) (id : String) (now : ℤ) :
    Distinct (reserve A discovered reservations args id now).2 := by
  rw [reserve]
  cases hfound : findExact reservations A.hostId args.port args.protocol with
  | some existing =>
      simp only
      split
      · show Distinct (changeFirst _ _ reservations)
        rw [Distinct, map_key_changeFirst]
        · exact h
        · exact fun _ => rfl
      · exact h
  | none =>
      have hadded : Distinct (reservations ++ [.create A args id now]) :=
        h.append (key_ne_of_findExact hfound)
      cases findDiscovered discovered args.port args.protocol with
      | none => exact hadded
      | some active =>
          simp only
          split
          · exact hadded
          · exact h

theorem distinct_release (h : Distinct reservations) (A : AgentHost) (port : ℕ)
    (project : String) (protocol : Protocol) :
    Distinct (release A reservations port project protocol).2 := by
  rw [release]
  cases findExact reservations A.hostId port protocol with
  | none => exact h
  | some existing =>
      simp only
      split
      · exact h.filter _
      · exact h

theorem distinct_releaseById (h : Distinct reservations) (A : AgentHost)
    (reservationId : String) (project : Option String) :
    Distinct (releaseById A reservations reservationId project).2 := by
  rw [releaseById]
  cases reservations.find? fun reservation => reservation.reservationId = reservationId with
  | none => exact h
  | some existing =>
      simp only
      split
      · exact h
      · exact h.filter _

/-- A recommended port has no reservation yet. -/
theorem findExact_of_recommendPort {hostId : String} {discovered : List DiscoveredPort}
    {args : RecommendArguments} {port : ℕ}
    (h : (recommendPort hostId discovered reservations args).recommendedPort = some port) :
    findExact reservations hostId port args.protocol = none := by
  rw [recommendPort] at h
  cases hrange : args.config.rangeFor args.serviceType with
  | none => rw [hrange] at h; cases h
  | some range =>
      rw [hrange] at h
      have hpasses := passes_of_firstPassing h
      simp only [RecommendArguments.passes, decide_eq_true_eq] at hpasses
      exact findExact_of_findReservation hpasses.2.2.1

theorem distinct_recommendAndReserve (h : Distinct reservations) (A : AgentHost)
    (discovered : List DiscoveredPort) (args : RecommendArguments) (id : String) (now : ℤ) :
    Distinct (recommendAndReserve A discovered reservations args id now).2 := by
  rw [recommendAndReserve]
  cases hport : (recommendPort A.hostId discovered reservations args).recommendedPort with
  | none => exact h
  | some port => exact h.append (key_ne_of_findExact (findExact_of_recommendPort hport))

/-- What a migration makes of one reservation. -/
def Reservation.migrated (newHostId legacyHostId : String) (reservation : Reservation) :
    Reservation :=
  if reservation.hostId = legacyHostId then { reservation with hostId := newHostId }
  else reservation

theorem migrated_of_eq {newHostId legacyHostId : String} {reservation : Reservation}
    (h : reservation.hostId = legacyHostId) :
    (reservation.migrated newHostId legacyHostId).key =
      (newHostId, reservation.port, reservation.protocol) := by
  rw [Reservation.migrated, if_pos h]
  rfl

theorem migrated_of_ne {newHostId legacyHostId : String} {reservation : Reservation}
    (h : reservation.hostId ≠ legacyHostId) :
    (reservation.migrated newHostId legacyHostId).key = reservation.key := by
  rw [Reservation.migrated, if_neg h]

/-- A migration keeps the keys apart exactly where the new host has no reservation in the way. -/
theorem distinct_migrate_iff (h : Distinct reservations) {newHostId legacyHostId : String}
    (hne : newHostId ≠ legacyHostId) :
    Distinct (migrateLegacyReservations newHostId legacyHostId reservations).2 ↔
      NoClash newHostId legacyHostId reservations := by
  have hmap : (migrateLegacyReservations newHostId legacyHostId reservations).2.map
      Reservation.key =
        reservations.map fun reservation => (reservation.migrated newHostId legacyHostId).key :=
    List.map_map
  rw [Distinct, hmap]
  constructor
  · -- Distinct keys come from distinct reservations only.
    intro hdistinct legacy hlegacy hold other hother hnew hclash
    have hsame : legacy = other := by
      refine List.inj_on_of_nodup_map hdistinct hlegacy hother ?_
      rw [migrated_of_eq hold, migrated_of_ne (hnew ▸ hne), Reservation.key, hnew]
      exact congrArg (Prod.mk newHostId) hclash.symm
    exact hne (hnew.symm.trans (hsame ▸ hold))
  · intro hclear
    rw [Distinct, List.Nodup, List.pairwise_map] at h
    rw [List.Nodup, List.pairwise_map]
    refine h.imp_of_mem fun {a b} ha hb hkeys => ?_
    by_cases hlegacyA : a.hostId = legacyHostId <;> by_cases hlegacyB : b.hostId = legacyHostId
    · rw [migrated_of_eq hlegacyA, migrated_of_eq hlegacyB]
      intro hsame
      apply hkeys
      rw [Reservation.key, Reservation.key, hlegacyA, hlegacyB]
      exact congrArg (Prod.mk legacyHostId) (congrArg Prod.snd hsame)
    · rw [migrated_of_eq hlegacyA, migrated_of_ne hlegacyB]
      exact fun hsame => hclear a ha hlegacyA b hb (congrArg Prod.fst hsame).symm
        (congrArg Prod.snd hsame).symm
    · rw [migrated_of_ne hlegacyA, migrated_of_eq hlegacyB]
      exact fun hsame => hclear b hb hlegacyB a ha (congrArg Prod.fst hsame)
        (congrArg Prod.snd hsame)
    · rw [migrated_of_ne hlegacyA, migrated_of_ne hlegacyB]
      exact hkeys

/-- Every section but a migration that finds a reservation in the way keeps the keys apart. -/
theorem distinct_handle (h : Distinct reservations) (op : StoreOp)
    (hclear : ∀ newHostId legacyHostId, op = .migrate newHostId legacyHostId →
      newHostId ≠ legacyHostId → NoClash newHostId legacyHostId reservations) :
    Distinct (op.handle lower reservations).2 := by
  cases op with
  | load => exact h
  | reserve hostId discovered args id now => exact distinct_reserve h _ discovered args id now
  | release hostId port project protocol => exact distinct_release h _ port project protocol
  | releaseById reservationId project => exact distinct_releaseById h _ reservationId project
  | recommendAndReserve hostId discovered args id now =>
      exact distinct_recommendAndReserve h _ discovered args id now
  | migrate newHostId legacyHostId =>
      by_cases hne : newHostId = legacyHostId
      · have hsame : (migrateLegacyReservations newHostId legacyHostId reservations).2 =
            reservations := by
          rw [migrateLegacyReservations]
          refine List.map_congr_left (fun reservation _ => ?_) |>.trans (List.map_id _)
          subst hne
          split
          · next hlegacy => rw [← hlegacy]; rfl
          · rfl
        exact hsame.symm ▸ h
      · exact (distinct_migrate_iff h hne).mpr (hclear newHostId legacyHostId rfl hne)

/-! ## Runs -/

section Runs

variable {ι : Type} [DecidableEq ι]

/-- Calls at work on the stored reservations. -/
abbrev Store (ι : Type) : Type :=
  Threads ι StoreOp StoreOp.Answer String (List Reservation) Unit

/-- The section of a migration finds no reservation of the new host in the way. -/
def migratesClear (τ : Store ι) (i : ι) : Prop :=
  ∀ newHostId legacyHostId next, τ.program i = .call (.migrate newHostId legacyHostId) next →
    newHostId ≠ legacyHostId → NoClash newHostId legacyHostId τ.state

/-- No two reservations share their key. In every interleaving of calls in which no migration finds
a reservation of the new host on a port and protocol of a legacy one, a store whose keys are
apart keeps them apart. -/
theorem distinct_of_reachable (lower : String → String) (calls : ι → LocalCall)
    (reservations : List Reservation) (hstart : Distinct reservations) {τ : Store ι}
    (hreach : Threads.Reachable (fun _ => StoreOp.handle lower) migratesClear
      (.start reservations fun i => (calls i).program) τ) : Distinct τ.state := by
  refine hreach.invariant (motive := fun τ => Distinct τ.state) hstart
    fun τ i hdistinct hclear => ?_
  cases hprogram : τ.program i with
  | call op next =>
      rw [(Threads.move_of_call _ hprogram).2]
      exact distinct_handle hdistinct op fun newHostId legacyHostId hop =>
        hclear newHostId legacyHostId (hop ▸ next) (by subst hop; exact hprogram)
  | ret value =>
      rw [(Threads.move_of_ret _ hprogram).2]
      exact hdistinct
  | raise error =>
      rw [(Threads.move_of_raise _ hprogram).2]
      exact hdistinct

end Runs

end Keys

/-! ## A migration into a taken key -/

/-- A reservation of the days of host names. -/
def legacyReservation : Reservation where
  reservationId := "1"
  hostId := "box"
  port := 3000
  protocol := .tcp
  project := "blog"
  service := none
  purpose := none
  bindAddress := none
  notes := none
  createdAt := 0
  updatedAt := 0

/-- A reservation of the same port under the persistent id, and the migration of `box`. -/
def reserveAndMigrate : Bool → LocalCall
  | false => .reserve ⟨"uuid", [], "2", 5⟩ { port := 3000, project := "shop" }
  | true => .migrate "uuid" "box"

/-- The migration comes first, and the reservation is refused. -/
theorem distinct_of_reachable_sample :
    let τ : Store Bool := (Threads.start [legacyReservation] fun i =>
      (reserveAndMigrate i).program).play (fun _ => StoreOp.handle id) [true, true, false]
    τ.state = [{ legacyReservation with hostId := "uuid" }] ∧ Distinct τ.state := by
  have hreach : Threads.Reachable (fun _ : Bool => StoreOp.handle id) migratesClear
      (.start [legacyReservation] fun i => (reserveAndMigrate i).program)
      ((Threads.start [legacyReservation] fun i => (reserveAndMigrate i).program).play
        (fun _ => StoreOp.handle id) [true, true, false]) := by
    refine .step false (.step true (.step true .start ?_) ?_) ?_
    · rintro newHostId legacyHostId next hnext
      cases hnext
    · rintro newHostId legacyHostId next hnext
      cases hnext
      intro _ legacy hlegacy _ other hother hnew
      obtain rfl := List.mem_singleton.mp hother
      exact absurd hnew (by decide)
    · rintro newHostId legacyHostId next hnext
      cases hnext
  exact ⟨rfl, distinct_of_reachable id reserveAndMigrate [legacyReservation] (by decide) hreach⟩

/-- The port is reserved under the persistent id while the host has another name; then the legacy
reservation is migrated to the same key. -/
theorem migration_duplicates :
    Distinct [legacyReservation] ∧
      ∃ τ : Store Bool, Threads.Reachable (fun _ => StoreOp.handle id) Threads.anyOrder
          (.start [legacyReservation] fun i => (reserveAndMigrate i).program) τ ∧
        ¬ Distinct τ.state := by
  have hreach : Threads.Reachable (fun _ : Bool => StoreOp.handle id) Threads.anyOrder
      (.start [legacyReservation] fun i => (reserveAndMigrate i).program)
      ((Threads.start [legacyReservation] fun i => (reserveAndMigrate i).program).play
        (fun _ => StoreOp.handle id) [false, true, true]) :=
    .of_play .start fun _ _ _ _ => trivial
  exact ⟨by decide, _, hreach, by decide⟩

end Agent
