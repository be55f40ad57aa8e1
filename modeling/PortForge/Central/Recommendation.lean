/-
# Candidate search and suggestions

The one search for a free port that the suggestion endpoint and the allocation
bundle share, and the suggestion built on it.
-/

import PortForge.Central.Probes
import Mathlib.Data.Finset.Dedup
import Mathlib.Data.Finset.Lattice.Basic

namespace Central

open Transaction

/-- `DEFAULT_RANGES`. -/
def defaultRanges : List (String × (ℕ × ℕ)) :=
  [("frontend", (3000, 3999)), ("api", (8000, 8999)), ("postgres", (5432, 5499)),
    ("mysql", (3306, 3399)), ("redis", (6379, 6399)), ("generic", (10000, 19999))]

/-- `DEFAULT_RANGES.get(service_type)`. -/
def defaultRange (serviceType : String) : Option (ℕ × ℕ) :=
  (defaultRanges.find? fun entry => entry.1 = serviceType).map Prod.snd

/-- The ports of a range that are observed in use for the protocol. -/
def occupiedPorts (rows : List CurrentPortObservation) (start stop : ℕ) (protocol : Protocol) :
    Finset ℕ :=
  ((rows.filter fun row => start ≤ row.port ∧ row.port ≤ stop ∧ row.protocol = protocol).map
    fun row => row.port).toFinset

/-- The ports of a range that are reserved for the protocol. -/
def reservedPorts (rows : List CentralReservation) (start stop : ℕ) (protocol : Protocol) :
    Finset ℕ :=
  ((rows.filter fun row => start ≤ row.port ∧ row.port ≤ stop ∧ row.protocol = protocol).map
    fun row => row.port).toFinset

/-- The first port of a range that is not in the given set. -/
def firstAvailable (start stop : ℕ) (unavailable : Finset ℕ) : Option ℕ :=
  (List.range' start (stop + 1 - start)).find? fun candidate => candidate ∉ unavailable

/-- How many candidates of the range the scan looked at. -/
def candidatesLookedAt (start stop : ℕ) : Option ℕ → ℕ
  | some found => found + 1 - start
  | none => stop + 1 - start

/-- The search inside a given range. -/
def searchRange (hostId : Uuid) (protocol : Protocol) (excludePorts : Finset ℕ)
    (range : ℕ × ℕ) : Service CandidateSearchResult := do
  let (start, stop) := range
  let current ← select fun db => db.listCurrentForHost hostId
  let rows ← select fun db => db.listReservations hostId 10000
  let taken := occupiedPorts current start stop protocol ∪ reservedPorts rows start stop protocol
  let recommended := firstAvailable start stop (taken ∪ excludePorts)
  pure
    { port := recommended
      candidatesConsidered := candidatesLookedAt start stop recommended
      excluded := (List.range' start (stop + 1 - start)).filter fun port => port ∈ taken }

/-- `find_available_port`. -/
def findAvailablePort (hostId : Uuid) (serviceType : String) (protocol : Protocol)
    (excludePorts : Finset ℕ) (requestedRange : Option (ℕ × ℕ)) :
    Service CandidateSearchResult :=
  match requestedRange <|> defaultRange serviceType with
  | none => pure { port := none, candidatesConsidered := 0, excluded := [] }
  | some range => searchRange hostId protocol excludePorts range

theorem observes_findAvailablePort (hostId : Uuid) (serviceType : String) (protocol : Protocol)
    (excludePorts : Finset ℕ) (requestedRange : Option (ℕ × ℕ)) :
    (findAvailablePort hostId serviceType protocol excludePorts requestedRange).Observes := by
  rw [findAvailablePort]
  split
  · trivial
  · exact fun _ _ => trivial

/-- `CentralRecommendationOut.verification`. -/
inductive VerificationLevel
  | centralSuggestion
  | locallyVerified
  deriving DecidableEq

/-- `CentralRecommendationOut`. -/
structure CentralRecommendationOut where
  serviceType : String
  protocol : Protocol
  recommendedPort : Option ℕ
  verification : VerificationLevel
  bindProbe : BindProbe
  basis : String
  candidatesConsidered : ℕ
  knownConflictsExcluded : List ℕ
  deriving DecidableEq

/-- The basis of a suggestion without a fresh probe. -/
def registryBasis : String :=
  "Based on the most recently reported state and reservations on file for this host in the central " ++
  "registry -- NOT a live check. The target host must still perform fresh discovery, a local " ++
  "reservation check, and a real socket bind probe before actually using this port " ++
  "(see `portforge check <port>` on that host)."

/-- The basis of a suggestion that a fresh probe confirmed. -/
def probedBasis : String :=
  "A fresh, authoritative bind probe performed BY THE TARGET HOST'S OWN AGENT confirmed this port " ++
  "was free. This is still a point-in-time observation, not a lock -- another process could still " ++
  "bind it before you do (see `portforge check <port>` on that host)."

/-- `suggest_port`. -/
def suggestPort (env : Environment) (hostId : Uuid) (serviceType : String) (protocol : Protocol) :
    Service CentralRecommendationOut :=
  if (defaultRange serviceType).isNone then
    pure
      { serviceType := serviceType
        protocol := protocol
        recommendedPort := none
        verification := .centralSuggestion
        bindProbe := .notRemoteCapable
        basis := s!"Unknown service type '{serviceType}'."
        candidatesConsidered := 0
        knownConflictsExcluded := [] }
  else do
    let initial ← findAvailablePort hostId serviceType protocol ∅ none
    let (result, bindProbe) ← resolveWithProbeAwareness env none hostId protocol initial
      fun exclude => findAvailablePort hostId serviceType protocol exclude none
    commit
    pure
      { serviceType := serviceType
        protocol := protocol
        recommendedPort := result.port
        verification := if bindProbe = .verifiedFree then .locallyVerified else .centralSuggestion
        bindProbe := bindProbe
        basis := if bindProbe = .verifiedFree then probedBasis else registryBasis
        candidatesConsidered := result.candidatesConsidered
        knownConflictsExcluded := result.excluded }

end Central
