/-
# What the candidate search finds

The search reads the current observations and the reservations of a host and scans a
range against them. What it finds is the least port that neither of the two nor the
caller excludes, and it comes back with nothing only where every port of the range is
excluded in one of these ways.
-/

import PortForge.Central.Granting
import PortForge.Central.SingleCall
import Mathlib.Order.Bounds.Defs

namespace Central

open Transaction

/-! ## The scan -/

/-- The scan finds the least port of its range outside the set. -/
theorem firstAvailable_eq_some_iff {start stop port : ℕ} {unavailable : Finset ℕ} :
    firstAvailable start stop unavailable = some port ↔
      IsLeast {candidate | (start ≤ candidate ∧ candidate ≤ stop) ∧ candidate ∉ unavailable}
        port := by
  rw [firstAvailable, List.find?_range'_eq_some]
  constructor
  · rintro ⟨hfree, hmem, hbefore⟩
    rw [List.mem_range'_1] at hmem
    refine ⟨⟨by omega, by simpa using hfree⟩, ?_⟩
    rintro other ⟨hother, hotherFree⟩
    by_contra hless
    have htaken := hbefore other hother.1 (by omega)
    exact hotherFree (by simpa using htaken)
  · rintro ⟨⟨hbounds, hfree⟩, hleast⟩
    refine ⟨by simpa using hfree, ?_, ?_⟩
    · rw [List.mem_range'_1]
      omega
    · intro other hstart hless
      by_contra htaken
      have hle := hleast ⟨⟨hstart, by omega⟩, by simpa using htaken⟩
      omega

/-- The scan finds nothing when the set covers its range. -/
theorem firstAvailable_eq_none_iff {start stop : ℕ} {unavailable : Finset ℕ} :
    firstAvailable start stop unavailable = none ↔
      ∀ port, start ≤ port → port ≤ stop → port ∈ unavailable := by
  rw [firstAvailable, List.find?_eq_none]
  constructor
  · intro hall port hstart hstop
    have htaken := hall port (by rw [List.mem_range'_1]; omega)
    simpa using htaken
  · intro hall port hmem
    rw [List.mem_range'_1] at hmem
    simpa using hall port (by omega) (by omega)

/-! ## The search -/

/-- The port is in the way of a search: observed, reserved or excluded by the caller. -/
def Db.Taken (db : Db) (hostId : Uuid) (protocol : Protocol) (excludePorts : Finset ℕ)
    (port : ℕ) : Prop :=
  db.Observed hostId port protocol ∨ db.Reserved hostId port protocol ∨ port ∈ excludePorts

instance (db : Db) (hostId : Uuid) (protocol : Protocol) (excludePorts : Finset ℕ) (port : ℕ) :
    Decidable (db.Taken hostId protocol excludePorts port) :=
  inferInstanceAs (Decidable (_ ∨ _ ∨ _))

/-- Inside a range, the sets built from the two listings and the exclusions are the
ports that are taken. -/
theorem mem_unavailable_iff {db : Db} {hostId : Uuid} {protocol : Protocol}
    {excludePorts : Finset ℕ} {start stop port : ℕ} (hcomplete : db.ListingComplete hostId)
    (hbounds : start ≤ port ∧ port ≤ stop) :
    port ∈ occupiedPorts (db.listCurrentForHost hostId) start stop protocol ∪
        reservedPorts (db.listReservations hostId 10000) start stop protocol ∪ excludePorts ↔
      db.Taken hostId protocol excludePorts port := by
  rw [Finset.mem_union, Finset.mem_union, mem_occupiedPorts, mem_reservedPorts, ← observed_iff,
    ← reserved_iff hcomplete, and_iff_right hbounds, and_iff_right hbounds, or_assoc, Db.Taken]

/-- What a search of a range is to return. -/
structure ExactSearch (db : Db) (hostId : Uuid) (protocol : Protocol) (excludePorts : Finset ℕ)
    (range : ℕ × ℕ) (found : Option ℕ) : Prop where
  least : ∀ port, found = some port ↔
    IsLeast {candidate | (range.1 ≤ candidate ∧ candidate ≤ range.2) ∧
      ¬ db.Taken hostId protocol excludePorts candidate} port
  exhausted : found = none ↔
    ∀ port, range.1 ≤ port → port ≤ range.2 → db.Taken hostId protocol excludePorts port

theorem exactSearch_firstAvailable {db : Db} {hostId : Uuid} {protocol : Protocol}
    {excludePorts : Finset ℕ} {start stop : ℕ} (hcomplete : db.ListingComplete hostId) :
    ExactSearch db hostId protocol excludePorts (start, stop) (firstAvailable start stop
      (occupiedPorts (db.listCurrentForHost hostId) start stop protocol ∪
        reservedPorts (db.listReservations hostId 10000) start stop protocol ∪
          excludePorts)) where
  least port := by
    rw [firstAvailable_eq_some_iff]
    refine iff_of_eq (congrArg (IsLeast · port) (Set.ext fun candidate => ?_))
    exact and_congr_right fun hbounds => not_congr (mem_unavailable_iff hcomplete hbounds)
  exhausted := by
    rw [firstAvailable_eq_none_iff]
    constructor
    · intro hall port hstart hstop
      exact (mem_unavailable_iff hcomplete ⟨hstart, hstop⟩).mp (hall port hstart hstop)
    · intro hall port hstart hstop
      exact (mem_unavailable_iff hcomplete ⟨hstart, hstop⟩).mpr (hall port hstart hstop)

/-- The search reads only, and what it returns is exact for the range it is given, or
else for the range of the service type. Without either it returns nothing. -/
theorem findAvailablePort_exact (hostId : Uuid) (serviceType : String) (protocol : Protocol)
    (excludePorts : Finset ℕ) (requestedRange : Option (ℕ × ℕ)) (s : ServiceSession) (db : Db)
    (hcomplete : (s.view store db).ListingComplete hostId) :
    ∃ result,
      (findAvailablePort hostId serviceType protocol excludePorts requestedRange).exec store s
          db = ⟨.ok result, s, db⟩ ∧
        match requestedRange <|> defaultRange serviceType with
        | none => result.port = none
        | some range => ExactSearch (s.view store db) hostId protocol excludePorts range
            result.port := by
  rw [findAvailablePort]
  cases requestedRange <|> defaultRange serviceType with
  | none => exact ⟨_, rfl, rfl⟩
  | some range =>
      obtain ⟨start, stop⟩ := range
      exact ⟨_, rfl, exactSearch_firstAvailable hcomplete⟩

/-- A registry with one host, on which the first port of the API range is reserved. -/
def partlyReservedDb : Db :=
  { sampleDb with
    reservations :=
      [{ id := ⟨7⟩, hostId := sampleHost.id, port := 8000, protocol := .tcp, bindAddress := none,
         project := "alpha", service := none, purpose := none, notes := none,
         localReservationId := none, allocationId := none, requestName := none }] }

/-- With the first port reserved and the second excluded, the search is exact all the same. -/
theorem findAvailablePort_exact_partlyReserved :
    ∃ result,
      (findAvailablePort sampleHost.id "api" .tcp {8001} none).exec store
          (Session.start (sampleDraws 100) fun _ => none) partlyReservedDb =
        ⟨.ok result, Session.start (sampleDraws 100) fun _ => none, partlyReservedDb⟩ ∧
        ExactSearch partlyReservedDb sampleHost.id .tcp {8001} (8000, 8999) result.port :=
  findAvailablePort_exact sampleHost.id "api" .tcp {8001} none
    (Session.start (sampleDraws 100) fun _ => none) partlyReservedDb (by decide)

end Central
