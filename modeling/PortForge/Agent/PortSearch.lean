/-
# Recommending a port

`recommend_port` walks the range that the configuration gives for a kind of service and returns
the first port that is not excluded, has no listener, is not reserved and can be bound. Ranges
and exclusions come from the user's configuration file, whose bounds are any integers that
`int` reads; the port of a bind probe is checked by the socket library, which raises an
exception that the probe does not catch. Port 0 can be bound and is no port.
-/

import Mathlib
import PortForge.Agent.LocalStore
import PortForge.Python.Value

namespace Agent.PortSearch

open Central Python

/-! ## Configuration -/

/-- `PortRange`, with the bounds a file can give. -/
structure Range where
  name : String
  first : ℤ
  last : ℤ
  deriving DecidableEq

/-- `Exclusion`. -/
structure Exclusion where
  first : ℤ
  last : ℤ

/-- `PortForgeConfig`. -/
structure Config where
  ranges : List (String × Range)
  exclusions : List Exclusion

/-- `DEFAULT_RANGES`. -/
def defaultRanges : List (String × Range) :=
  [("frontend", ⟨"frontend", 3000, 3999⟩), ("api", ⟨"api", 8000, 8999⟩),
    ("postgres", ⟨"postgres", 5432, 5499⟩), ("mysql", ⟨"mysql", 3306, 3399⟩),
    ("redis", ⟨"redis", 6379, 6399⟩), ("generic", ⟨"generic", 10000, 19999⟩)]

/-- `is_excluded`. -/
def Config.isExcluded (config : Config) (port : ℤ) : Bool :=
  config.exclusions.any fun exclusion => exclusion.first ≤ port ∧ port ≤ exclusion.last

/-- `range_for`. -/
def Config.rangeFor (config : Config) (serviceType : String) : Option Range :=
  (config.ranges.find? fun entry => entry.1 = serviceType).map Prod.snd

/-- What `int(value)` does with a value of the file. -/
inductive IntResult
  | value (number : ℤ)
  | /-- `TypeError` or `ValueError`. -/
    malformed
  | /-- `OverflowError`, of an infinite float. -/
    overflow

/-- `int(value)`; scalars of other types (floats, dates, bytes) are read by `readOther`. -/
def toInt (readOther : String → String → IntResult) : Value → IntResult
  | .scalar (.int number) => .value number
  | .scalar (.bool flag) => .value (if flag then 1 else 0)
  | .scalar (.str text) =>
      match readInt text.toList with
      | some number => .value number
      | none => .malformed
  | .scalar (.other typeName text) => readOther typeName text
  | _ => .malformed

/-- `item[key]` and `int` of it; a missing key is a `KeyError`. -/
def readBound (readOther : String → String → IntResult) (item : List (Scalar × Value))
    (key : String) : IntResult :=
  match get? item key with
  | some value => toInt readOther value
  | none => .malformed

/-- The bounds in order. -/
def ordered (first last : ℤ) : ℤ × ℤ := if first > last then (last, first) else (first, last)

/-- `_parse_range`; `none` where it raises. -/
def parseRange (readOther : String → String → IntResult) (name : String) :
    Value → Option (Option Range)
  | .dict item =>
      match readBound readOther item "start" with
      | .overflow => none
      | .malformed => some none
      | .value first =>
          match readBound readOther item "end" with
          | .overflow => none
          | .malformed => some none
          | .value last => some (some ⟨name, (ordered first last).1, (ordered first last).2⟩)
  | _ => some none

/-- `_parse_exclusion`. -/
def parseExclusion : Value → Option Exclusion
  | .scalar (.int port) => some ⟨port, port⟩
  | .scalar (.str text) =>
      let stripped := stripChars text.toList
      if '-' ∈ stripped then
        match readInt (stripChars (stripped.takeWhile (· ≠ '-'))),
            readInt (stripChars ((stripped.dropWhile (· ≠ '-')).drop 1)) with
        | some first, some last => some ⟨(ordered first last).1, (ordered first last).2⟩
        | _, _ => none
      else (readInt stripped).map fun port => ⟨port, port⟩
  | _ => none

/-- `str(name)` of a key. -/
def scalarText : Scalar → String
  | .none => "None"
  | .bool flag => if flag then "True" else "False"
  | .int number => toString number
  | .str text => text
  | .other _ text => text

/-- The ranges of the file over those there are; malformed entries are passed over. -/
def mergeRanges (readOther : String → String → IntResult) :
    List (Scalar × Value) → List (String × Range) → Option (List (String × Range))
  | [], ranges => some ranges
  | (name, item) :: rest, ranges =>
      match parseRange readOther (scalarText name) item with
      | none => none
      | some none => mergeRanges readOther rest ranges
      | some (some range) => mergeRanges readOther rest (setItem ranges (scalarText name) range)

/-- `_merge_raw_config`; `none` where it raises. -/
def mergeRawConfig (readOther : String → String → IntResult) (config : Config)
    (raw : List (Scalar × Value)) : Option Config := do
  let ranges ←
    match get? raw "ranges" with
    | some (.dict items) => mergeRanges readOther items config.ranges
    | _ => some config.ranges
  let exclusions :=
    match get? raw "exclude" with
    | some (.list items) => config.exclusions ++ items.filterMap parseExclusion
    | _ => config.exclusions
  pure ⟨ranges, exclusions⟩

/-- `load_config`, with the mapping of the first file that exists, if it has one. -/
def loadConfig (readOther : String → String → IntResult) (raw : Option (List (Scalar × Value))) :
    Option Config :=
  match raw with
  | none => some ⟨defaultRanges, []⟩
  | some raw => mergeRawConfig readOther ⟨defaultRanges, []⟩ raw

/-! ## The bind probe -/

/-- The failure of `bind`: `PermissionError`, or another `OSError`. -/
inductive BindFailure
  | permission (text : String)
  | os (text : String)

/-- What the system does at a candidate: the `OSError` of making a socket, the `OSError` of
reading the address, and the failure of the bind. -/
structure Sockets where
  create : ℤ → Option String
  resolve : ℤ → Option String
  bind : ℤ → Option BindFailure

/-- `BindProbeResult`. -/
structure BindProbeResult where
  available : Bool
  reason : Option String

/-- `sock.bind`: the port has to fit a C `int`, the address is read, and then the port has to be
one of 16 bits. -/
def Sockets.bindPort (sockets : Sockets) (port : ℤ) : Except String (Option BindFailure) :=
  if port < -2 ^ 31 ∨ 2 ^ 31 ≤ port then .error "Python int too large to convert to C int"
  else
    match sockets.resolve port with
    | some text => .ok (some (.os text))
    | none =>
        if port < 0 ∨ 65535 < port then .error "bind(): port must be 0-65535."
        else .ok (sockets.bind port)

/-- `probe_bind`; its error is an exception it does not catch. -/
def probeBind (sockets : Sockets) (address : String) (port : ℤ) :
    Except String BindProbeResult :=
  match sockets.create port with
  | some text => .ok ⟨false, some ("could not create probe socket: " ++ text)⟩
  | none =>
      match sockets.bindPort port with
      | .error text => .error text
      | .ok none => .ok ⟨true, none⟩
      | .ok (some (.permission text)) =>
          .ok ⟨false, some ("permission denied binding " ++ address ++ ":" ++ toString port ++
            " (privileged port, or restricted policy): " ++ text)⟩
      | .ok (some (.os text)) => .ok ⟨false, some ("bind failed: " ++ text)⟩

/-! ## The search -/

/-- `ValidationStep`, of a step that passed. -/
abbrev Step := String × String

/-- `RecommendationResult`. -/
structure Result where
  serviceType : String
  protocol : Protocol
  address : String
  recommendedPort : Option ℤ
  steps : List Step
  candidatesTried : ℕ
  unknownServiceType : Bool

/-- What `recommend_port` is given. -/
structure Query where
  serviceType : String
  protocol : Protocol
  address : String
  config : Config
  hostId : String
  reservations : List Reservation
  discovered : List DiscoveredPort
  sockets : Sockets

namespace Query

variable (query : Query)

/-- `find_discovered`. -/
def findDiscovered (port : ℤ) : Option DiscoveredPort :=
  query.discovered.find? fun found =>
    (found.hostPort.getD found.port : ℕ) = port ∧ found.protocol = query.protocol

/-- `find_reservation`. -/
def findReservation (port : ℤ) : Option Reservation :=
  query.reservations.find? fun reservation =>
    reservation.hostId = query.hostId ∧ (reservation.port : ℤ) = port ∧
      reservation.protocol = query.protocol

/-- The port is neither excluded nor in use nor reserved. -/
def Open (port : ℤ) : Prop :=
  ¬ query.config.isExcluded port ∧ query.findDiscovered port = none ∧
    query.findReservation port = none

instance (port : ℤ) : Decidable (query.Open port) := inferInstanceAs (Decidable (_ ∧ _))

/-- One candidate of the loop: its steps where it passes. -/
def tryCandidate (candidate : ℤ) : Except String (Option (List Step)) :=
  if query.config.isExcluded candidate then .ok none
  else if (query.findDiscovered candidate).isSome then .ok none
  else if (query.findReservation candidate).isSome then .ok none
  else
    match probeBind query.sockets query.address candidate with
    | .error text => .error text
    | .ok probe =>
        if probe.available then
          .ok (some [("discovery", "no active listener"), ("reservation", "no reservation"),
            ("exclusion", "not excluded"), ("bind_probe", "bind succeeded")])
        else .ok none

end Query

/-- `range(start, end + 1)`. -/
def candidates (range : Range) : List ℤ :=
  (List.range (range.last + 1 - range.first).toNat).map fun index : ℕ => range.first + index

/-- The loop of `recommend_port`: the first candidate that passes, and how many were tried. -/
def search (attempt : ℤ → Except String (Option (List Step))) :
    List ℤ → ℕ → Except String (Option (ℤ × List Step) × ℕ)
  | [], tried => .ok (none, tried)
  | candidate :: rest, tried =>
      match attempt candidate with
      | .error text => .error text
      | .ok none => search attempt rest (tried + 1)
      | .ok (some steps) => .ok (some (candidate, steps), tried + 1)

/-- `recommend_port`. -/
def recommendPort (query : Query) : Except String Result :=
  match query.config.rangeFor query.serviceType with
  | none => .ok ⟨query.serviceType, query.protocol, query.address, none, [], 0, true⟩
  | some range =>
      match search query.tryCandidate (candidates range) 0 with
      | .error text => .error text
      | .ok (none, tried) =>
          .ok ⟨query.serviceType, query.protocol, query.address, none, [], tried, false⟩
      | .ok (some (port, steps), tried) =>
          .ok ⟨query.serviceType, query.protocol, query.address, some port, steps, tried, false⟩

/-! ## What a recommendation says -/

/-- The port passes the four tests. -/
def Query.Passes (query : Query) (port : ℤ) : Prop :=
  query.Open port ∧ ∃ probe, probeBind query.sockets query.address port = .ok probe ∧
    probe.available

/-- The probe of the port gets as far as a check of the number, and fails it. -/
def Sockets.Rejects (sockets : Sockets) (port : ℤ) : Prop :=
  sockets.create port = none ∧
    (port < -2 ^ 31 ∨ 2 ^ 31 ≤ port ∨
      sockets.resolve port = none ∧ (port < 0 ∨ 65535 < port))

/-- The recommendation is the least port of the range that passes, and one of the ports there
are; or no port of the range passes. -/
def Sound (query : Query) : Prop :=
  ∃ result, recommendPort query = .ok result ∧
    (∀ port, result.recommendedPort = some port → 1 ≤ port ∧ port ≤ 65535 ∧
      ∃ range, query.config.rangeFor query.serviceType = some range ∧
        IsLeast {p | p ∈ Set.Icc range.first range.last ∧ query.Passes p} port) ∧
    (result.recommendedPort = none → ∀ range,
      query.config.rangeFor query.serviceType = some range →
        ∀ port ∈ Set.Icc range.first range.last, ¬ query.Passes port)

/-- The walk of the range ends before a port whose number is rejected, and not at port 0. -/
def Bounded (query : Query) : Prop :=
  ∀ range, query.config.rangeFor query.serviceType = some range →
    (∀ port ∈ Set.Icc range.first range.last, query.Open port → query.sockets.Rejects port →
      ∃ earlier ∈ Set.Icc range.first range.last, earlier < port ∧ query.Passes earlier) ∧
    ¬ (0 ∈ Set.Icc range.first range.last ∧ query.Passes 0)

section Search

variable {query : Query} {sockets : Sockets} {address : String} {port : ℤ}

/-- A bind that gets as far as the system has a port of 16 bits. -/
theorem bindPort_none (h : sockets.bindPort port = .ok none) : 0 ≤ port ∧ port ≤ 65535 := by
  unfold Sockets.bindPort at h
  by_cases hint : port < -2 ^ 31 ∨ 2 ^ 31 ≤ port
  · rw [if_pos hint] at h
    cases h
  · rw [if_neg hint] at h
    cases hresolve : sockets.resolve port with
    | some text =>
        rw [hresolve] at h
        cases h
    | none =>
        by_cases hport : port < 0 ∨ 65535 < port
        · simp [hresolve, hport] at h
        · omega

theorem bindPort_error_iff :
    (∃ text, sockets.bindPort port = .error text) ↔ port < -2 ^ 31 ∨ 2 ^ 31 ≤ port ∨
      sockets.resolve port = none ∧ (port < 0 ∨ 65535 < port) := by
  unfold Sockets.bindPort
  by_cases hint : port < -2 ^ 31 ∨ 2 ^ 31 ≤ port
  · rw [if_pos hint]
    exact iff_of_true ⟨_, rfl⟩ (or_assoc.mp (.inl hint))
  · rw [if_neg hint, ← or_assoc, or_iff_right hint]
    cases sockets.resolve port with
    | some text => simp
    | none =>
        dsimp only
        by_cases hport : port < 0 ∨ 65535 < port
        · rw [if_pos hport]
          exact iff_of_true ⟨_, rfl⟩ ⟨rfl, hport⟩
        · rw [if_neg hport]
          exact iff_of_false (by simp) fun h => hport h.2

/-- A probe raises exactly where the number is rejected. -/
theorem probeBind_error_iff :
    (∃ text, probeBind sockets address port = .error text) ↔ sockets.Rejects port := by
  unfold probeBind Sockets.Rejects
  cases sockets.create port with
  | some text => simp
  | none =>
      rw [← bindPort_error_iff]
      cases hbind : sockets.bindPort port with
      | error text => exact iff_of_true ⟨text, rfl⟩ ⟨rfl, text, rfl⟩
      | ok failure =>
          refine iff_of_false ?_ fun h => ?_
          · rintro ⟨text, heq⟩
            cases failure with
            | none => cases heq
            | some failure => cases failure <;> cases heq
          · obtain ⟨text, heq⟩ := h.2
            cases heq

/-- A port that can be bound is one of 16 bits. -/
theorem Query.Passes.bounds (h : query.Passes port) : 0 ≤ port ∧ port ≤ 65535 := by
  obtain ⟨-, probe, hprobe, havailable⟩ := h
  unfold probeBind at hprobe
  cases hcreate : query.sockets.create port with
  | some text =>
      rw [hcreate] at hprobe
      cases hprobe
      cases havailable
  | none =>
      simp only [hcreate] at hprobe
      cases hbind : query.sockets.bindPort port with
      | error text =>
          rw [hbind] at hprobe
          cases hprobe
      | ok failure =>
          cases failure with
          | none => exact bindPort_none hbind
          | some failure =>
              rw [hbind] at hprobe
              cases failure <;> cases hprobe <;> cases havailable

/-- What becomes of a candidate: its probe raises, or it passes, or the walk goes on. -/
theorem tryCandidate_cases (query : Query) (port : ℤ) :
    (∃ text, query.tryCandidate port = .error text ∧ query.Open port ∧
      query.sockets.Rejects port) ∨
    (∃ steps, query.tryCandidate port = .ok (some steps) ∧ query.Passes port) ∨
    (query.tryCandidate port = .ok none ∧ ¬ query.Passes port ∧
      ¬ (query.Open port ∧ query.sockets.Rejects port)) := by
  unfold Query.tryCandidate
  by_cases hopen : query.Open port
  · obtain ⟨hexcluded, hdiscovered, hreserved⟩ := hopen
    rw [if_neg hexcluded, hdiscovered, hreserved]
    simp only [Option.isSome_none, Bool.false_eq_true, if_false]
    cases hprobe : probeBind query.sockets query.address port with
    | error text =>
        have hrejects := probeBind_error_iff.mp ⟨text, hprobe⟩
        exact .inl ⟨text, rfl, ⟨hexcluded, hdiscovered, hreserved⟩, hrejects⟩
    | ok probe =>
        have hnot : ¬ query.sockets.Rejects port := by
          intro hrejects
          obtain ⟨text, heq⟩ := (@probeBind_error_iff _ query.address _).mpr hrejects
          rw [hprobe] at heq
          cases heq
        by_cases havailable : probe.available
        · refine .inr (.inl ⟨_, if_pos havailable, ?_⟩)
          exact ⟨⟨hexcluded, hdiscovered, hreserved⟩, probe, hprobe, havailable⟩
        · refine .inr (.inr ⟨if_neg havailable, ?_, fun h => hnot h.2⟩)
          rintro ⟨-, other, hother, havailable'⟩
          rw [hprobe] at hother
          cases hother
          exact havailable havailable'
  · refine .inr (.inr ⟨?_, fun h => hopen h.1, fun h => hopen h.1⟩)
    by_cases hexcluded : query.config.isExcluded port
    · rw [if_pos hexcluded]
    · rw [if_neg hexcluded]
      by_cases hdiscovered : (query.findDiscovered port).isSome
      · rw [if_pos hdiscovered]
      · rw [if_neg hdiscovered]
        by_cases hreserved : (query.findReservation port).isSome
        · rw [if_pos hreserved]
        · exact absurd ⟨hexcluded, by simpa using hdiscovered, by simpa using hreserved⟩ hopen

/-- How a walk ends: at the first candidate that raises or passes, or at the end. -/
theorem search_cases (attempt : ℤ → Except String (Option (List Step))) (ports : List ℤ)
    (tried : ℕ) :
    (∃ before port after text, ports = before ++ port :: after ∧
      (∀ other ∈ before, attempt other = .ok none) ∧ attempt port = .error text ∧
      search attempt ports tried = .error text) ∨
    (∃ before port after steps count, ports = before ++ port :: after ∧
      (∀ other ∈ before, attempt other = .ok none) ∧ attempt port = .ok (some steps) ∧
      search attempt ports tried = .ok (some (port, steps), count)) ∨
    ((∀ other ∈ ports, attempt other = .ok none) ∧
      ∃ count, search attempt ports tried = .ok (none, count)) := by
  induction ports generalizing tried with
  | nil => exact .inr (.inr ⟨nofun, tried, rfl⟩)
  | cons candidate rest ih =>
      rw [search]
      cases hattempt : attempt candidate with
      | error text => exact .inl ⟨[], candidate, rest, text, rfl, nofun, hattempt, rfl⟩
      | ok result =>
          cases result with
          | some steps =>
              exact .inr (.inl ⟨[], candidate, rest, steps, tried + 1, rfl, nofun, hattempt, rfl⟩)
          | none =>
              have hcons {before : List ℤ} (hbefore : ∀ other ∈ before, attempt other = .ok none) :
                  ∀ other ∈ candidate :: before, attempt other = .ok none := by
                intro other hother
                rcases List.mem_cons.mp hother with rfl | hmem
                · exact hattempt
                · exact hbefore other hmem
              rcases ih (tried + 1) with ⟨before, port, after, text, rfl, hbefore, hport, hsearch⟩ |
                ⟨before, port, after, steps, count, rfl, hbefore, hport, hsearch⟩ |
                ⟨hall, hsearch⟩
              · exact .inl ⟨candidate :: before, port, after, text, rfl, hcons hbefore, hport,
                  hsearch⟩
              · exact .inr (.inl ⟨candidate :: before, port, after, steps, count, rfl,
                  hcons hbefore, hport, hsearch⟩)
              · exact .inr (.inr ⟨hcons hall, hsearch⟩)

theorem mem_candidates {range : Range} : port ∈ candidates range ↔
    port ∈ Set.Icc range.first range.last := by
  rw [candidates, List.mem_map, Set.mem_Icc]
  constructor
  · rintro ⟨index, hindex, rfl⟩
    have hlt := List.mem_range.mp hindex
    omega
  · rintro ⟨hfirst, hlast⟩
    exact ⟨(port - range.first).toNat, List.mem_range.mpr (by omega), by omega⟩

theorem candidates_pairwise (range : Range) : (candidates range).Pairwise (· < ·) := by
  rw [candidates, List.pairwise_map]
  refine List.pairwise_lt_range.imp ?_
  intro a b hlt
  omega

/-- The ports of the range below a candidate come before it. -/
theorem mem_before {range : Range} {before after : List ℤ} {candidate : ℤ}
    (hsplit : candidates range = before ++ candidate :: after)
    (hmem : port ∈ Set.Icc range.first range.last) (hlt : port < candidate) : port ∈ before := by
  have hpairwise := candidates_pairwise range
  have hport := mem_candidates.mpr hmem
  rw [hsplit] at hpairwise hport
  rcases List.mem_append.mp hport with hbefore | hrest
  · exact hbefore
  · rcases List.mem_cons.mp hrest with rfl | hafter
    · exact absurd hlt (lt_irrefl _)
    · have hgt := List.rel_of_pairwise_cons (List.pairwise_append.mp hpairwise).2.1 hafter
      exact absurd hlt hgt.not_gt

/-- What a recommendation is, from the ports that the walk has gone past. -/
theorem not_passes_of_skipped (h : query.tryCandidate port = .ok none) :
    ¬ query.Passes port ∧ ¬ (query.Open port ∧ query.sockets.Rejects port) := by
  rcases tryCandidate_cases query port with ⟨text, herror, -⟩ | ⟨steps, hsome, -⟩ | ⟨-, hskipped⟩
  · rw [h] at herror
    cases herror
  · rw [h] at hsome
    cases hsome
  · exact hskipped

theorem passes_of_steps {steps : List Step} (h : query.tryCandidate port = .ok (some steps)) :
    query.Passes port := by
  rcases tryCandidate_cases query port with ⟨text, herror, -⟩ | ⟨other, -, hpasses⟩ | ⟨hnone, -⟩
  · rw [h] at herror
    cases herror
  · exact hpasses
  · rw [h] at hnone
    cases hnone

theorem rejects_of_error {text : String} (h : query.tryCandidate port = .error text) :
    query.Open port ∧ query.sockets.Rejects port := by
  rcases tryCandidate_cases query port with ⟨other, -, hrejects⟩ | ⟨steps, hsome, -⟩ | ⟨hnone, -⟩
  · exact hrejects
  · rw [h] at hsome
    cases hsome
  · rw [h] at hnone
    cases hnone

end Search

/-- A recommendation is sound exactly where the walk of the range ends before a port whose number
the socket library rejects, and not at port 0. -/
theorem sound_iff_bounded (query : Query) : Sound query ↔ Bounded query := by
  unfold Sound Bounded recommendPort
  cases hrange : query.config.rangeFor query.serviceType with
  | none => exact iff_of_true ⟨_, rfl, nofun, nofun⟩ nofun
  | some range =>
      simp only [Option.some.injEq, forall_eq']
      rcases search_cases query.tryCandidate (candidates range) 0 with
        ⟨before, port, after, text, hsplit, hbefore, hport, hsearch⟩ |
        ⟨before, port, after, steps, count, hsplit, hbefore, hport, hsearch⟩ |
        ⟨hall, count, hsearch⟩
      · -- The walk ends with the exception of a probe.
        rw [hsearch]
        have hmem : port ∈ Set.Icc range.first range.last := by
          rw [← mem_candidates, hsplit]
          simp
        refine iff_of_false ?_ ?_
        · rintro ⟨result, heq, -⟩
          cases heq
        · rintro ⟨hends, -⟩
          obtain ⟨hopen, hrejects⟩ := rejects_of_error hport
          obtain ⟨earlier, hearlier, hlt, hpasses⟩ := hends port hmem hopen hrejects
          exact (not_passes_of_skipped (hbefore earlier (mem_before hsplit hearlier hlt))).1 hpasses
      · -- The walk ends at the first port that passes.
        rw [hsearch]
        have hpasses := passes_of_steps hport
        have hmem : port ∈ Set.Icc range.first range.last := by
          rw [← mem_candidates, hsplit]
          simp
        have hleast : IsLeast {p | p ∈ Set.Icc range.first range.last ∧ query.Passes p} port := by
          refine ⟨⟨hmem, hpasses⟩, ?_⟩
          rintro other ⟨hother, hpassesOther⟩
          by_contra hlt
          exact (not_passes_of_skipped
            (hbefore other (mem_before hsplit hother (not_le.mp hlt)))).1 hpassesOther
        constructor
        · rintro ⟨result, heq, hsome, -⟩
          cases heq
          obtain ⟨hone, hmax, -⟩ := hsome port rfl
          refine ⟨?_, ?_⟩
          · intro other hother hopen hrejects
            refine ⟨port, hmem, ?_, hpasses⟩
            by_contra hle
            rcases (not_lt.mp hle).lt_or_eq with hlt | rfl
            · exact (not_passes_of_skipped (hbefore other (mem_before hsplit hother hlt))).2
                ⟨hopen, hrejects⟩
            · obtain ⟨text, htext⟩ := (@probeBind_error_iff _ query.address _).mpr hrejects
              obtain ⟨-, probe, hprobe, -⟩ := hpasses
              rw [htext] at hprobe
              cases hprobe
          · rintro ⟨hzero, hpassesZero⟩
            have hle : port ≤ 0 := hleast.2 ⟨hzero, hpassesZero⟩
            omega
        · rintro ⟨-, hzero⟩
          refine ⟨_, rfl, ?_, nofun⟩
          intro other hother
          cases hother
          obtain ⟨hnonneg, hmax⟩ := hpasses.bounds
          refine ⟨?_, hmax, range, rfl, hleast⟩
          rcases hnonneg.lt_or_eq with hpos | heq
          · omega
          · exact absurd ⟨heq ▸ hmem, heq ▸ hpasses⟩ hzero
      · -- No port of the range passes.
        rw [hsearch]
        have hskipped {other : ℤ} (hother : other ∈ Set.Icc range.first range.last) :=
          not_passes_of_skipped (hall other (mem_candidates.mpr hother))
        refine iff_of_true ⟨_, rfl, nofun, ?_⟩ ⟨?_, ?_⟩
        · intro _ other hother
          exact (hskipped hother).1
        · intro other hother hopen hrejects
          exact absurd ⟨hopen, hrejects⟩ (hskipped hother).2
        · rintro ⟨hzero, hpassesZero⟩
          exact (hskipped hzero).1 hpassesZero

/-- A configuration file whose range of API ports ends above the ports there are. -/
def wideRange : List (Scalar × Value) :=
  [(.str "ranges", .dict [(.str "api",
    .dict [(.str "start", .int 65536), (.str "end", .int 65540)])])]

/-- The loader accepts the range, and the first probe raises. -/
theorem recommendPort_raises :
    ¬ ∀ (readOther : String → String → IntResult) (raw : Option (List (Scalar × Value)))
      (query : Query), loadConfig readOther raw = some query.config → Sound query := by
  intro hall
  have hload : loadConfig (fun _ _ => .malformed) (some wideRange) =
      some ⟨setItem defaultRanges "api" ⟨"api", 65536, 65540⟩, []⟩ := rfl
  have hsound := hall _ _
    { serviceType := "api", protocol := .tcp, address := "0.0.0.0"
      config := ⟨setItem defaultRanges "api" ⟨"api", 65536, 65540⟩, []⟩
      hostId := "h1", reservations := [], discovered := []
      sockets := ⟨fun _ => none, fun _ => none, fun _ => none⟩ } hload
  obtain ⟨result, hresult, -⟩ := hsound
  cases hresult

end Agent.PortSearch
