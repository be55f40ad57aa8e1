/-
# The reservation file of an agent

`ReservationStore` keeps the agent's reservations in a JSON file. What it saves it loads again, and
a file with a malformed entry is refused as a whole, so that no entry is lost with the next save.
It does not refuse every file it cannot read with its own error, though: a file that is not UTF-8,
a number with too many digits, values nested too deep, and an infinite port raise the errors of the
standard library.
-/

import PortForge.Agent.Reservations
import PortForge.Effects.Exceptions
import PortForge.Python.JsonReader
import PortForge.Python.Release
import Mathlib.Data.Nat.Digits.Defs

namespace Agent.ReservationStore

open Central Effects Python

/-! ## Reservations and their entries -/

/-- A Python text. -/
abbrev CodePoints := List ℕ

/-- `Reservation`, with all the texts and numbers that a file can give it. -/
structure SavedReservation (Datetime : Type) where
  reservationId : CodePoints
  hostId : CodePoints
  port : ℤ
  protocol : Protocol
  project : CodePoints
  service : Option CodePoints
  purpose : Option CodePoints
  bindAddress : Option CodePoints
  notes : Option CodePoints
  createdAt : Datetime
  updatedAt : Datetime

/-- What `int` makes of a float. -/
inductive FloatInt
  | finite (n : ℤ)
  | nan
  | infinite

/-- The texts of the standard library: ISO 8601, `str` of a value, and floats by their spelling; and
how many containers the JSON reader can nest on the interpreter's stack. -/
structure StoreFormats (Datetime : Type) where
  isoformat : Datetime → CodePoints
  fromisoformat : CodePoints → Option Datetime
  str : JsonValue → CodePoints
  floatInt : List Char → FloatInt
  isOne : List Char → Bool
  recursionLimit : ℕ
  isText_isoformat : ∀ time, IsText (isoformat time)
  fromisoformat_isoformat : ∀ time, fromisoformat (isoformat time) = some time
  str_str : ∀ text, str (.str text) = text
  three_le_recursionLimit : 3 ≤ recursionLimit

/-- The exceptions that `from_dict` turns into its own `ValueError`. -/
inductive EntryError
  | key (name : String)
  | type
  | value
  deriving DecidableEq

/-- The exceptions of `from_dict`: its own, and the `OverflowError` of an infinite port. -/
inductive EntryFailure
  | malformed (error : EntryError)
  | overflow
  deriving DecidableEq

variable {Datetime : Type} (F : StoreFormats Datetime)

/-- `data.get(key)`. -/
def field? (data : List (CodePoints × JsonValue)) (key : String) : Option JsonValue :=
  (data.find? fun field => field.1 = codes key).map Prod.snd

/-- `data[key]`. -/
def item (data : List (CodePoints × JsonValue)) (key : String) : Except EntryFailure JsonValue :=
  match field? data key with
  | some value => .ok value
  | none => .error (.malformed (.key key))

/-- The character of a code point that is no surrogate. -/
def charOf (n : ℕ) : Option Char := if n.isValidChar then some (Char.ofNat n) else none

/-- `int(value)`. -/
def intOf : JsonValue → Except EntryFailure ℤ
  | .int n => .ok n
  | .bool value => .ok (if value then 1 else 0)
  | .float literal =>
      match F.floatInt literal with
      | .finite n => .ok n
      | .nan => .error (.malformed .value)
      | .infinite => .error .overflow
  | .str text =>
      match (text.mapM charOf).bind readInt with
      | some n => .ok n
      | none => .error (.malformed .value)
  | .null => .error (.malformed .type)
  | .list _ => .error (.malformed .type)
  | .dict _ => .error (.malformed .type)

/-- `Protocol(text)`. -/
def readProtocol (text : CodePoints) : Except EntryFailure Protocol :=
  if text = codes Protocol.tcp.value then .ok .tcp
  else if text = codes Protocol.udp.value then .ok .udp
  else .error (.malformed .value)

/-- `_opt_str`. -/
def optStr (data : List (CodePoints × JsonValue)) (key : String) : Option CodePoints :=
  match field? data key with
  | none => none
  | some .null => none
  | some value => some (F.str value)

/-- `_parse_datetime`, without the current time it falls back on. -/
def readDatetime : Option JsonValue → Option Datetime
  | some (.str text) => F.fromisoformat text
  | _ => none

/-- `Reservation.from_dict`. The clock gives the times for `created_at` and `updated_at`, where the
entry has none that can be read. -/
def fromDict (clock : Datetime × Datetime) :
    JsonValue → Except EntryFailure (SavedReservation Datetime)
  | .dict data => do
      let reservationId ← item data "reservation_id"
      let hostId ← item data "host_id"
      let port ← intOf F (← item data "port")
      let protocol ← readProtocol (F.str (← item data "protocol"))
      let project ← item data "project"
      pure
        { reservationId := F.str reservationId
          hostId := F.str hostId
          port := port
          protocol := protocol
          project := F.str project
          service := optStr F data "service"
          purpose := optStr F data "purpose"
          bindAddress := optStr F data "bind_address"
          notes := optStr F data "notes"
          createdAt := (readDatetime F (field? data "created_at")).getD clock.1
          updatedAt := (readDatetime F (field? data "updated_at")).getD clock.2 }
  | _ => .error (.malformed .type)

/-- A text or nothing, as JSON. -/
def optionalText : Option CodePoints → JsonValue
  | none => .null
  | some text => .str text

/-- The fields of `Reservation.to_dict`. -/
def entryFields (reservation : SavedReservation Datetime) : List (CodePoints × JsonValue) :=
  [(codes "reservation_id", .str reservation.reservationId),
    (codes "host_id", .str reservation.hostId),
    (codes "port", .int reservation.port),
    (codes "protocol", .str (codes reservation.protocol.value)),
    (codes "project", .str reservation.project),
    (codes "service", optionalText reservation.service),
    (codes "purpose", optionalText reservation.purpose),
    (codes "bind_address", optionalText reservation.bindAddress),
    (codes "notes", optionalText reservation.notes),
    (codes "created_at", .str (F.isoformat reservation.createdAt)),
    (codes "updated_at", .str (F.isoformat reservation.updatedAt))]

/-- `Reservation.to_dict`. -/
def toDict (reservation : SavedReservation Datetime) : JsonValue := .dict (entryFields F reservation)

/-! ## Loading -/

/-- `ReservationStorageError`, by what it reports. -/
inductive StorageError
  | permissionDenied
  | readFailed
  | malformedJson
  | unexpectedShape
  | unsupportedSchema (found : Option JsonValue)
  | malformedList
  | malformedEntry (error : EntryError)

/-- The exceptions of `load`: its own, and those of the standard library it lets through, which are
`UnicodeDecodeError`, `ValueError`, `RecursionError` and `OverflowError`. -/
inductive StoreFailure
  | storage (error : StorageError)
  | unicode
  | intDigits
  | recursion
  | overflow

/-- What is found at the store's path. -/
inductive FileState
  | missing
  | denied
  | unreadable
  | content (bytes : ByteArray)

/-- The line ends of a text file, as Python reads them. -/
def universalNewlines : List Char → List Char
  | [] => []
  | '\r' :: '\n' :: rest => '\n' :: universalNewlines rest
  | '\r' :: rest => '\n' :: universalNewlines rest
  | c :: rest => c :: universalNewlines rest

/-- `schema_version == SCHEMA_VERSION`. -/
def isStoreVersion : Option JsonValue → Bool
  | some (.int version) => version = 1
  | some (.bool version) => version
  | some (.float literal) => F.isOne literal
  | _ => false

/-- The reservations of the entries, or the exception of the first that has one. -/
def readEntries (clock : ℕ → Datetime × Datetime) (entries : List JsonValue) :
    Except EntryFailure (List (SavedReservation Datetime)) :=
  entries.zipIdx.mapM fun entry => fromDict F (clock entry.2) entry.1

def loadEntries (clock : ℕ → Datetime × Datetime) (entries : List JsonValue) :
    Except StoreFailure (List (SavedReservation Datetime)) :=
  match readEntries F clock entries with
  | .ok reservations => .ok reservations
  | .error (.malformed error) => .error (.storage (.malformedEntry error))
  | .error .overflow => .error .overflow

/-- What `load` makes of a text. -/
def loadText (clock : ℕ → Datetime × Datetime) (text : List Char) :
    Except StoreFailure (List (SavedReservation Datetime)) :=
  if stripChars text = [] then .ok []
  else
    match loads F.recursionLimit text with
    | .error .decode => .error (.storage .malformedJson)
    | .error .digits => .error .intDigits
    | .error .recursion => .error .recursion
    | .ok (.dict data) =>
        if isStoreVersion F (field? data "schema_version") then
          match field? data "reservations" with
          | some (.list entries) => loadEntries F clock entries
          | _ => .error (.storage .malformedList)
        else .error (.storage (.unsupportedSchema (field? data "schema_version")))
    | .ok _ => .error (.storage .unexpectedShape)

/-- `ReservationStore.load`. -/
def load (clock : ℕ → Datetime × Datetime) :
    FileState → Except StoreFailure (List (SavedReservation Datetime))
  | .missing => .ok []
  | .denied => .error (.storage .permissionDenied)
  | .unreadable => .error (.storage .readFailed)
  | .content bytes =>
      match String.fromUTF8? bytes with
      | none => .error .unicode
      | some text => loadText F clock (universalNewlines text.toList)

/-! ## Saving -/

/-- What `save` writes as JSON. -/
def storePayload (reservations : List (SavedReservation Datetime)) : JsonValue :=
  .dict [(codes "schema_version", .int 1), (codes "reservations", .list (reservations.map (toDict F)))]

/-- The line end of a text file that is written. -/
def lineEnd (windows : Bool) : List Char := if windows then ['\r', '\n'] else ['\n']

/-- The file that `ReservationStore.save` puts in place. -/
def saved (windows : Bool) (reservations : List (SavedReservation Datetime)) : ByteArray :=
  (String.ofList ((dumpsIndented (storePayload F reservations)).flatMap fun c =>
    if c = '\n' then lineEnd windows else [c])).toUTF8

/-! ## What entries are refused -/

section Entries

variable {F} {clock : Datetime × Datetime}

/-- An entry that `from_dict` accepts: a dictionary with the five required keys, a port that is a
number and a protocol that is one. -/
def WellFormed (F : StoreFormats Datetime) (entry : JsonValue) : Prop :=
  ∃ data, entry = .dict data ∧ (field? data "reservation_id").isSome ∧
    (field? data "host_id").isSome ∧
    (∃ value n, field? data "port" = some value ∧ intOf F value = .ok n) ∧
    (∃ value protocol, field? data "protocol" = some value ∧
      readProtocol (F.str value) = .ok protocol) ∧
    (field? data "project").isSome

/-- An entry whose port is an infinite float, and is looked at. -/
def InfinitePort (F : StoreFormats Datetime) (entry : JsonValue) : Prop :=
  ∃ data literal, entry = .dict data ∧ (field? data "reservation_id").isSome ∧
    (field? data "host_id").isSome ∧ field? data "port" = some (.float literal) ∧
    F.floatInt literal = .infinite

theorem item_eq_ok_iff {data : List (CodePoints × JsonValue)} {key : String} {value : JsonValue} :
    item data key = .ok value ↔ field? data key = some value := by
  unfold item
  cases field? data key <;> simp

theorem item_ne_overflow {data : List (CodePoints × JsonValue)} {key : String} :
    item data key ≠ .error .overflow := by
  unfold item
  cases field? data key <;> simp

theorem readProtocol_ne_overflow {text : CodePoints} : readProtocol text ≠ .error .overflow := by
  unfold readProtocol
  split_ifs <;> simp

/-- Only an infinite float overflows. -/
theorem intOf_eq_overflow_iff {value : JsonValue} : intOf F value = .error .overflow ↔
    ∃ literal, value = .float literal ∧ F.floatInt literal = .infinite := by
  cases value with
  | float literal => cases hfloat : F.floatInt literal <;> simp [intOf, hfloat]
  | str text => cases htext : (text.mapM charOf).bind readInt <;> simp [intOf, htext]
  | _ => simp [intOf]

theorem fromDict_ok_iff {entry : JsonValue} :
    (∃ reservation, fromDict F clock entry = .ok reservation) ↔ WellFormed F entry := by
  cases entry with
  | dict data =>
      simp only [fromDict, bind_eq_ok_iff, item_eq_ok_iff, WellFormed, JsonValue.dict.injEq,
        Option.isSome_iff_exists]
      constructor
      · rintro ⟨reservation, id, hid, host, hhost, port, hport, n, hn, protocol, hprotocol, p, hp,
          project, hproject, -⟩
        exact ⟨data, rfl, ⟨id, hid⟩, ⟨host, hhost⟩, ⟨port, n, hport, hn⟩,
          ⟨protocol, p, hprotocol, hp⟩, project, hproject⟩
      · rintro ⟨_, rfl, ⟨id, hid⟩, ⟨host, hhost⟩, ⟨port, n, hport, hn⟩,
          ⟨protocol, p, hprotocol, hp⟩, project, hproject⟩
        exact ⟨_, id, hid, host, hhost, port, hport, n, hn, protocol, hprotocol, p, hp, project,
          hproject, rfl⟩
  | _ =>
      refine iff_of_false ?_ ?_
      · rintro ⟨reservation, h⟩
        cases h
      · rintro ⟨data, h, -⟩
        cases h

theorem fromDict_overflow_iff {entry : JsonValue} :
    fromDict F clock entry = .error .overflow ↔ InfinitePort F entry := by
  cases entry with
  | dict data =>
      simp only [fromDict, bind_eq_error_iff, item_ne_overflow, readProtocol_ne_overflow,
        item_eq_ok_iff, intOf_eq_overflow_iff, InfinitePort, JsonValue.dict.injEq,
        Option.isSome_iff_exists, false_or]
      constructor
      · rintro ⟨id, hid, host, hhost, port, hport, ⟨literal, rfl, hliteral⟩ | ⟨n, -, protocol, -,
          p, -, project, -, h⟩⟩
        · exact ⟨data, literal, rfl, ⟨id, hid⟩, ⟨host, hhost⟩, hport, hliteral⟩
        · cases h
      · rintro ⟨_, literal, rfl, ⟨id, hid⟩, ⟨host, hhost⟩, hport, hliteral⟩
        exact ⟨id, hid, host, hhost, _, hport, .inl ⟨literal, rfl, hliteral⟩⟩
  | _ =>
      refine iff_of_false nofun ?_
      rintro ⟨data, literal, h, -⟩
      cases h

end Entries

/-! ## What files are refused -/

/-- The entries of a text. -/
def textEntries (text : List Char) : Option (List JsonValue) :=
  if stripChars text = [] then some []
  else
    match loads F.recursionLimit text with
    | .ok (.dict data) =>
        match field? data "reservations" with
        | some (.list entries) => some entries
        | _ => none
    | _ => none

/-- The entries of a file. -/
def storedEntries : FileState → Option (List JsonValue)
  | .missing => some []
  | .denied => none
  | .unreadable => none
  | .content bytes =>
      (String.fromUTF8? bytes).bind fun text => textEntries F (universalNewlines text.toList)

/-- The result is the store's own error, or one reservation for each entry, in order. -/
def Accounts (clock : ℕ → Datetime × Datetime) (entries : Option (List JsonValue))
    (result : Except StoreFailure (List (SavedReservation Datetime))) : Prop :=
  (∃ error, result = .error (.storage error)) ∨
    ∃ stored reservations, entries = some stored ∧ result = .ok reservations ∧
      (stored.zipIdx.map fun entry => fromDict F (clock entry.2) entry.1) = reservations.map .ok

/-- The first entry that is not well formed, if there is one, has no infinite port. -/
def FinitePorts (entries : List JsonValue) : Prop :=
  ∀ front entry back, entries = front ++ entry :: back → (∀ other ∈ front, WellFormed F other) →
    ¬ InfinitePort F entry

/-- A text on which the store meets none of the standard library's other errors. -/
structure PlainText (text : List Char) : Prop where
  digits : loads F.recursionLimit text ≠ .error .digits
  recursion : loads F.recursionLimit text ≠ .error .recursion
  ports : ∀ data entries, loads F.recursionLimit text = .ok (.dict data) →
    isStoreVersion F (field? data "schema_version") = true →
      field? data "reservations" = some (.list entries) → FinitePorts F entries

/-- A file that is UTF-8, and has such a text or none but blanks. -/
def PlainFile (file : FileState) : Prop :=
  ∀ bytes, file = .content bytes → ∃ text, String.fromUTF8? bytes = some text ∧
    (stripChars (universalNewlines text.toList) = [] ∨ PlainText F (universalNewlines text.toList))

section Files

variable {F} {clock : ℕ → Datetime × Datetime} {entries : List JsonValue} {text : List Char}

theorem readEntries_overflow_iff :
    readEntries F clock entries = .error .overflow ↔ ¬ FinitePorts F entries := by
  unfold readEntries FinitePorts
  push Not
  rw [mapM_eq_error_iff]
  constructor
  · rintro ⟨front, found, back, hsplit, hfront, hfound⟩
    have hentries : entries = front.map Prod.fst ++ found.1 :: back.map Prod.fst := by
      have hmap := congrArg (List.map Prod.fst) hsplit
      simpa using hmap
    refine ⟨front.map Prod.fst, found.1, back.map Prod.fst, hentries, fun other hother => ?_,
      fromDict_overflow_iff.mp hfound⟩
    obtain ⟨pair, hpair, rfl⟩ := List.mem_map.mp hother
    exact fromDict_ok_iff.mp (hfront pair hpair)
  · rintro ⟨front, entry, back, rfl, hfront, hport⟩
    refine ⟨front.zipIdx, (entry, front.length), back.zipIdx (front.length + 1), ?_, ?_,
      fromDict_overflow_iff.mpr hport⟩
    · rw [List.zipIdx_append, List.zipIdx_cons, Nat.zero_add]
    · rintro ⟨other, index⟩ hother
      have hmem : other ∈ front := by
        obtain ⟨hlt, heq⟩ := List.mem_zipIdx' hother
        exact heq ▸ List.getElem_mem hlt
      exact fromDict_ok_iff.mpr (hfront other hmem)

theorem accounts_loadEntries_iff :
    Accounts F clock (some entries) (loadEntries F clock entries) ↔ FinitePorts F entries := by
  rw [← not_iff_not, ← @readEntries_overflow_iff _ F clock]
  unfold loadEntries
  cases hread : readEntries F clock entries with
  | ok reservations =>
      refine iff_of_false (not_not.mpr (.inr ⟨entries, reservations, rfl, rfl, ?_⟩)) nofun
      exact mapM_eq_ok_iff.mp hread
  | error failure =>
      cases failure with
      | malformed error => exact iff_of_false (not_not.mpr (.inl ⟨_, rfl⟩)) nofun
      | overflow =>
          refine iff_of_true ?_ rfl
          rintro (⟨error, h⟩ | ⟨stored, reservations, -, h, -⟩) <;> cases h

theorem plainText_dict_iff {data : List (CodePoints × JsonValue)}
    (hloads : loads F.recursionLimit text = .ok (.dict data)) :
    PlainText F text ↔ (isStoreVersion F (field? data "schema_version") = true →
      ∀ entries, field? data "reservations" = some (.list entries) → FinitePorts F entries) := by
  constructor
  · exact fun h hversion entries hlist => h.ports data entries hloads hversion hlist
  · refine fun h => ⟨by simp [hloads], by simp [hloads], ?_⟩
    intro other entries hother hversion hlist
    rw [hloads, Except.ok.injEq, JsonValue.dict.injEq] at hother
    subst hother
    exact h hversion entries hlist

theorem accounts_loadText_iff :
    Accounts F clock (textEntries F text) (loadText F clock text) ↔
      stripChars text = [] ∨ PlainText F text := by
  unfold loadText textEntries
  by_cases hblank : stripChars text = []
  · rw [if_pos hblank, if_pos hblank]
    exact iff_of_true (.inr ⟨[], [], rfl, rfl, rfl⟩) (.inl hblank)
  rw [if_neg hblank, if_neg hblank, or_iff_right hblank]
  have hown (result : Except StoreFailure (List (SavedReservation Datetime)))
      (entries : Option (List JsonValue)) {error : StorageError}
      (hresult : result = .error (.storage error)) : Accounts F clock entries result :=
    .inl ⟨error, hresult⟩
  cases hloads : loads F.recursionLimit text with
  | error error =>
      cases error with
      | decode =>
          refine iff_of_true (hown _ _ rfl) ⟨by simp [hloads], by simp [hloads], ?_⟩
          intro data entries hdata
          rw [hloads] at hdata
          cases hdata
      | digits =>
          refine iff_of_false ?_ fun h => h.digits hloads
          rintro (⟨error, h⟩ | ⟨stored, reservations, -, h, -⟩) <;> cases h
      | recursion =>
          refine iff_of_false ?_ fun h => h.recursion hloads
          rintro (⟨error, h⟩ | ⟨stored, reservations, -, h, -⟩) <;> cases h
  | ok value =>
      cases value with
      | dict data =>
          rw [plainText_dict_iff hloads]
          dsimp only
          split_ifs with hversion
          · cases hlist : field? data "reservations" with
            | none => exact iff_of_true (hown _ _ rfl) nofun
            | some value =>
                cases value with
                | list entries =>
                    simp only [hversion, true_imp_iff, Option.some.injEq, JsonValue.list.injEq,
                      forall_eq']
                    exact accounts_loadEntries_iff
                | _ => exact iff_of_true (hown _ _ rfl) nofun
          · exact iff_of_true (hown _ _ rfl) fun h => absurd h hversion
      | _ =>
          refine iff_of_true (hown _ _ rfl) ⟨by simp [hloads], by simp [hloads], ?_⟩
          intro data entries hdata
          rw [hloads] at hdata
          cases hdata

/-- A file is refused with the store's own error, or loaded entry by entry, if and only if it is
plain. -/
theorem accounts_load_iff {file : FileState} :
    Accounts F clock (storedEntries F file) (load F clock file) ↔ PlainFile F file := by
  cases file with
  | missing => exact iff_of_true (.inr ⟨[], [], rfl, rfl, rfl⟩) nofun
  | denied | unreadable => exact iff_of_true (.inl ⟨_, rfl⟩) nofun
  | content bytes =>
      unfold PlainFile load storedEntries
      simp only [FileState.content.injEq, forall_eq']
      cases hdecode : String.fromUTF8? bytes with
      | none =>
          refine iff_of_false ?_ ?_
          · rintro (⟨error, h⟩ | ⟨stored, reservations, -, h, -⟩) <;> cases h
          · rintro ⟨text, h, -⟩
            cases h
      | some text =>
          simp only [Option.some.injEq, exists_eq_left', Option.bind_some]
          exact accounts_loadText_iff

end Files

/-! ## What is saved is loaded -/

/-- A reservation that the agent can build and save: its texts are texts, and its port has no more
digits than Python writes. -/
structure SavedReservation.Buildable (reservation : SavedReservation Datetime) : Prop where
  reservationId : IsText reservation.reservationId
  hostId : IsText reservation.hostId
  port : (Nat.toDigits 10 reservation.port.natAbs).length ≤ maxIntDigits
  project : IsText reservation.project
  service : ∀ text ∈ reservation.service, IsText text
  purpose : ∀ text ∈ reservation.purpose, IsText text
  bindAddress : ∀ text ∈ reservation.bindAddress, IsText text
  notes : ∀ text ∈ reservation.notes, IsText text

section RoundTrip

variable {F} {reservation : SavedReservation Datetime}
  {reservations : List (SavedReservation Datetime)}

/-- The line ends that were written are read back. -/
theorem universalNewlines_lineEnd {text : List Char} (h : '\r' ∉ text) (windows : Bool) :
    universalNewlines (text.flatMap fun c => if c = '\n' then lineEnd windows else [c]) = text := by
  induction text with
  | nil => rfl
  | cons c text ih =>
      rw [List.mem_cons, not_or] at h
      have hrest := ih h.2
      rw [List.flatMap_cons]
      generalize (text.flatMap fun c => if c = '\n' then lineEnd windows else [c]) = rest at hrest ⊢
      by_cases hfeed : c = '\n'
      · subst hfeed
        cases windows <;> simp [lineEnd, universalNewlines, hrest]
      · rw [if_neg hfeed, List.singleton_append, universalNewlines, hrest]
        · rintro _ rfl -
          exact h.1 rfl
        · rintro rfl
          exact h.1 rfl

/-- The keys of an entry. -/
def entryKeys : List String :=
  ["reservation_id", "host_id", "port", "protocol", "project", "service", "purpose", "bind_address",
    "notes", "created_at", "updated_at"]

theorem nodup_entryKeys : (entryKeys.map codes).Nodup := by decide

theorem fits_optionalText {text : Option CodePoints} (h : ∀ found ∈ text, IsText found)
    (limit : ℕ) :
    (optionalText text).Fits limit := by
  cases text with
  | none => trivial
  | some found => exact h found rfl

/-- The dictionary of a reservation can be written and read. -/
theorem fits_toDict (h : reservation.Buildable) (limit : ℕ) :
    (toDict F reservation).Fits (limit + 1) := by
  refine ⟨nodup_entryKeys, limit, rfl, ?_⟩
  exact ⟨⟨isText_codes _, h.reservationId⟩, ⟨isText_codes _, h.hostId⟩, ⟨isText_codes _, h.port⟩,
    ⟨isText_codes _, isText_codes _⟩, ⟨isText_codes _, h.project⟩,
    ⟨isText_codes _, fits_optionalText h.service _⟩,
    ⟨isText_codes _, fits_optionalText h.purpose _⟩,
    ⟨isText_codes _, fits_optionalText h.bindAddress _⟩,
    ⟨isText_codes _, fits_optionalText h.notes _⟩, ⟨isText_codes _, F.isText_isoformat _⟩,
    ⟨isText_codes _, F.isText_isoformat _⟩, trivial⟩

theorem itemsFit_map_toDict (h : ∀ reservation ∈ reservations, reservation.Buildable) (limit : ℕ) :
    ItemsFit (limit + 1) (reservations.map (toDict F)) := by
  induction reservations with
  | nil => trivial
  | cons reservation reservations ih =>
      exact ⟨fits_toDict (h reservation List.mem_cons_self) limit,
        ih fun other hother => h other (List.mem_cons_of_mem _ hother)⟩

theorem fits_storePayload (h : ∀ reservation ∈ reservations, reservation.Buildable) :
    (storePayload F reservations).Fits F.recursionLimit := by
  obtain ⟨limit, hlimit⟩ := Nat.exists_eq_add_of_le F.three_le_recursionLimit
  have hsum : F.recursionLimit = limit + 1 + 1 + 1 := by omega
  rw [hsum]
  have hkeys : (["schema_version", "reservations"].map codes).Nodup := by decide
  have hversion : (Nat.toDigits 10 (1 : ℤ).natAbs).length ≤ maxIntDigits := by decide
  exact ⟨hkeys, limit + 1 + 1, rfl, ⟨isText_codes _, hversion⟩,
    ⟨isText_codes _, limit + 1, rfl, itemsFit_map_toDict h limit⟩, trivial⟩

theorem optStr_optionalText {data : List (CodePoints × JsonValue)} {key : String}
    {text : Option CodePoints} (h : field? data key = some (optionalText text)) :
    optStr F data key = text := by
  rw [optStr, h]
  cases text with
  | none => rfl
  | some found => exact congrArg some (F.str_str found)

/-- `from_dict` takes back what `to_dict` has made. -/
theorem fromDict_toDict (clock : Datetime × Datetime) :
    fromDict F clock (toDict F reservation) = .ok reservation := by
  have hid : item (entryFields F reservation) "reservation_id" =
      .ok (.str reservation.reservationId) := item_eq_ok_iff.mpr rfl
  have hhost : item (entryFields F reservation) "host_id" = .ok (.str reservation.hostId) :=
    item_eq_ok_iff.mpr rfl
  have hport : item (entryFields F reservation) "port" = .ok (.int reservation.port) :=
    item_eq_ok_iff.mpr rfl
  have hprotocolItem : item (entryFields F reservation) "protocol" =
      .ok (.str (codes reservation.protocol.value)) := item_eq_ok_iff.mpr rfl
  have hproject : item (entryFields F reservation) "project" = .ok (.str reservation.project) :=
    item_eq_ok_iff.mpr rfl
  have hservice : optStr F (entryFields F reservation) "service" = reservation.service :=
    optStr_optionalText rfl
  have hpurpose : optStr F (entryFields F reservation) "purpose" = reservation.purpose :=
    optStr_optionalText rfl
  have haddress : optStr F (entryFields F reservation) "bind_address" = reservation.bindAddress :=
    optStr_optionalText rfl
  have hnotes : optStr F (entryFields F reservation) "notes" = reservation.notes :=
    optStr_optionalText rfl
  have hcreated : readDatetime F (field? (entryFields F reservation) "created_at") =
      some reservation.createdAt := F.fromisoformat_isoformat _
  have hupdated : readDatetime F (field? (entryFields F reservation) "updated_at") =
      some reservation.updatedAt := F.fromisoformat_isoformat _
  have hprotocol : readProtocol (codes reservation.protocol.value) = .ok reservation.protocol := by
    cases reservation.protocol <;> rfl
  simp only [toDict, fromDict, hid, hhost, hport, hprotocolItem, hproject, hservice, hpurpose,
    haddress, hnotes, hcreated, hupdated, F.str_str, bind, Except.bind, intOf, hprotocol,
    Option.getD_some, pure, Except.pure]

/-- What is saved is loaded. -/
theorem load_saved (clock : ℕ → Datetime × Datetime) (windows : Bool)
    (h : ∀ reservation ∈ reservations, reservation.Buildable) :
    load F clock (.content (saved F windows reservations)) = .ok reservations := by
  have hfits := fits_storePayload (F := F) h
  have hdecode (text : String) : String.fromUTF8? text.toUTF8 = some text := by
    unfold String.fromUTF8?
    rw [String.toUTF8_eq_toByteArray, dif_pos text.isValidUTF8]
    rfl
  have htext := universalNewlines_lineEnd (noReturn_pretty _ _ 0 hfits) windows
  have hloads := loads_dumpsIndented hfits
  have hstrip : stripChars (dumpsIndented (storePayload F reservations)) ≠ [] :=
    stripChars_ne_nil (c := '\x7b') (by simp [dumpsIndented, storePayload, JsonValue.pretty]) rfl
  have hentries : readEntries F clock (reservations.map (toDict F)) = .ok reservations := by
    rw [readEntries, mapM_eq_ok_iff]
    apply List.ext_getElem
    · simp
    · intro index _ _
      simp [fromDict_toDict]
  unfold saved load
  dsimp only
  rw [hdecode]
  dsimp only
  rw [dumpsIndented] at hstrip hloads ⊢
  rw [String.toList_ofList, htext, loadText, if_neg hstrip, hloads]
  change (if true = true then loadEntries F clock (reservations.map (toDict F)) else _) = _
  rw [if_pos rfl, loadEntries, hentries]

end RoundTrip

/-- What the agent saves it loads, and any file is refused with the store's own error or loaded
entry by entry, if and only if it is plain. -/
theorem load_accounts_iff (F : StoreFormats Datetime) (clock : ℕ → Datetime × Datetime) :
    (∀ (windows : Bool) (reservations : List (SavedReservation Datetime)),
      (∀ reservation ∈ reservations, reservation.Buildable) →
        load F clock (.content (saved F windows reservations)) = .ok reservations) ∧
      ∀ file, Accounts F clock (storedEntries F file) (load F clock file) ↔ PlainFile F file :=
  ⟨fun windows _ h => load_saved clock windows h, fun _ => accounts_load_iff⟩

/-- The days of a month at midnight, as `isoformat` writes them. -/
def isoDay (day : Fin 31) : CodePoints :=
  codes ("2026-07-" ++ String.ofList [Nat.digitChar ((day.val + 1) / 10),
    Nat.digitChar ((day.val + 1) % 10)] ++ "T00:00:00+00:00")

/-- Formats of these times, of scalars that are no float, and of texts. -/
def dayFormats : StoreFormats (Fin 31) where
  isoformat := isoDay
  fromisoformat text := (List.finRange 31).find? fun day => isoDay day = text
  str
    | .str text => text
    | .int n => codes (toString n)
    | .bool true => codes "True"
    | .bool false => codes "False"
    | .null => codes "None"
    | _ => []
  floatInt _ := .infinite
  isOne _ := false
  recursionLimit := 1000
  isText_isoformat _ := isText_codes _
  fromisoformat_isoformat := by decide +kernel
  str_str _ := rfl
  three_le_recursionLimit := by decide

/-- Two reservations, of the first and the last day. -/
def daySaved : List (SavedReservation (Fin 31)) :=
  [⟨codes "r1", codes "h1", 8000, .tcp, codes "shop", some (codes "web"), none,
      some (codes "127.0.0.1"), some (codes "caf\u00e9"), 0, 30⟩,
    ⟨codes "r2", codes "h1", 5432, .udp, codes "shop", none, some (codes "postgres"), none, none,
      30, 30⟩]

/-- A saved file with the line ends of Windows is read back, and one that was cut off is reported. -/
theorem load_accounts_iff_sample :
    load dayFormats (fun _ => (0, 0)) (.content (saved dayFormats true daySaved)) = .ok daySaved ∧
      Accounts dayFormats (fun _ => (0, 0))
        (storedEntries dayFormats (.content "[1, ".toUTF8))
        (load dayFormats (fun _ => (0, 0)) (.content "[1, ".toUTF8)) := by
  obtain ⟨hround, haccounts⟩ := load_accounts_iff dayFormats fun _ => (0, 0)
  refine ⟨hround true daySaved ?_, (haccounts (.content "[1, ".toUTF8)).mpr ?_⟩
  · intro reservation hmem
    simp only [daySaved, List.mem_cons, List.not_mem_nil, or_false] at hmem
    rcases hmem with rfl | rfl
    · exact ⟨isText_codes _, isText_codes _, by decide, isText_codes _, by simp [isText_codes],
        by simp, by simp [isText_codes], by simp [isText_codes]⟩
    · exact ⟨isText_codes _, isText_codes _, by decide, isText_codes _, by simp,
        by simp [isText_codes], by simp, by simp⟩
  · rintro bytes ⟨⟩
    have hloads : loads dayFormats.recursionLimit (universalNewlines "[1, ".toList) =
        .error .decode := by rfl
    refine ⟨"[1, ", by decide, .inr ⟨by rw [hloads]; simp, by rw [hloads]; simp, ?_⟩⟩
    intro data entries hdata
    rw [hloads] at hdata
    cases hdata

/-- Formats that know one time only, and no float but infinite ones. -/
def sampleFormats : StoreFormats Unit where
  isoformat _ := codes "2026-07-01T00:00:00+00:00"
  fromisoformat text := if text = codes "2026-07-01T00:00:00+00:00" then some () else none
  str
    | .str text => text
    | _ => []
  floatInt _ := .infinite
  isOne _ := false
  recursionLimit := 1000
  isText_isoformat _ := isText_codes _
  fromisoformat_isoformat _ := if_pos rfl
  str_str _ := rfl
  three_le_recursionLimit := by decide

/-- A file with a byte that UTF-8 never has raises `UnicodeDecodeError`. -/
theorem load_raises :
    load sampleFormats (fun _ => ((), ())) (.content ⟨#[0xff]⟩) = .error .unicode := by
  have hdecode : String.fromUTF8? ⟨#[0xff]⟩ = none := by decide
  rw [load, hdecode]

end Agent.ReservationStore
