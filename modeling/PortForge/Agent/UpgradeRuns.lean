/-
# What an upgrade does and reports

`run_upgrade` in full: the payload's checks on whatever Central sent, the directory made for
the artifact, the four phases with their handlers, and the clean-up of the `finally` clause.
Everything outside the handler answers with a result or an exception, and each `except`
clause catches exactly the exceptions it names.

No phase is entered out of order, and the installation is reached only with a payload that
passed its checks and an artifact of the expected digest. The handler is meant to return
`False` on every failure; it raises where a step fails with an exception that its clause does
not name.
-/

import PortForge.Agent.UpgradeHandler
import PortForge.Agent.UpgradePayload
import PortForge.Effects.Runs
import PortForge.Python.Value

namespace Agent.Upgrade

open Effects

/-- An exception of a library or of the system: an `OSError` or another one. -/
inductive Outside
  | osError (text : String)
  | other (text : String)
  deriving DecidableEq

/-- An exception inside the handler. -/
inductive Raised
  | /-- `UpgradeValidationError`. -/
    validation (text : String)
  | /-- `UpgradeSHA256Error`. -/
    sha256 (text : String)
  | outside (error : Outside)

/-- `str(exc)`. -/
def Raised.text : Raised → String
  | validation text => text
  | sha256 text => text
  | outside (.osError text) => text
  | outside (.other text) => text

/-- A value of the payload: a text, or another object with its truth value and `str(value)`. -/
inductive PayloadValue
  | str (text : String)
  | other (truthy : Bool) (text : String)

def PayloadValue.text : PayloadValue → String
  | str text => text
  | other _ text => text

def PayloadValue.truthy : PayloadValue → Bool
  | str text => text ≠ ""
  | other truthy _ => truthy

/-- The `pending_upgrade` object of a heartbeat's response. -/
abbrev Payload := List (String × PayloadValue)

/-- `pending.get(key, default)`. -/
def Payload.get (pending : Payload) (key : String) (default : PayloadValue) : PayloadValue :=
  match pending.find? fun entry => entry.1 = key with
  | none => default
  | some entry => entry.2

/-- What `urlparse` returns. -/
structure ParsedUrl where
  scheme : String
  hostname : Option String
  path : String

/-- The library the handler calls. -/
structure Library where
  /-- `urlparse`, which raises `ValueError` on a malformed address in brackets. -/
  urlparse : String → Except Outside ParsedUrl
  /-- `hashlib.sha256(data).hexdigest()`. -/
  sha256 : List UInt8 → String
  /-- `repr(value)`. -/
  repr : PayloadValue → String
  /-- `Path(text).name` on the platform at hand. -/
  pathName : String → String
  /-- What the `ValueError` of `_parse_version_tuple` says. -/
  parseError : String → String

/-- `str.lower`, as far as digests and the names of local hosts need it. -/
def asciiLower (text : String) : String := String.ofList (text.toList.map Char.toLower)

/-- The fields a payload may not have. -/
def bannedFields : List String := ["command", "script", "executable", "shell"]

/-- The host names that are local. -/
def localHosts : List String := ["localhost", "127.0.0.1", "::1", "0.0.0.0"]

/-- The URL's checks, after `urlparse`. -/
def checkParsedUrl (lib : Library) (url : String) (parsed : ParsedUrl) : Except Raised Unit :=
  if parsed.scheme ≠ "https" then
    .error (.validation ("artifact_url must use https scheme, got " ++
      lib.repr (.str parsed.scheme) ++ ": " ++ url))
  else
    let hostname := asciiLower (parsed.hostname.getD "")
    if hostname = "" ∨ hostname ∈ localHosts then
      .error (.validation ("artifact_url points to a local/internal address: " ++ url))
    else .ok ()

/-- The third check. -/
def validateUrl (lib : Library) (pending : Payload) : Except Raised Unit :=
  match pending.get "artifact_url" (.str "") with
  | .other _ _ => .error (.validation "artifact_url is missing or empty")
  | .str url =>
      if Python.strip url = "" then .error (.validation "artifact_url is missing or empty")
      else
        match lib.urlparse url with
        | .error error => .error (.outside error)
        | .ok parsed => checkParsedUrl lib url parsed

/-- The last two checks. -/
def validateVersion (lib : Library) (pending : Payload) (currentVersion : String)
    (allowDowngrade : Bool) : Except Raised Unit :=
  match pending.get "target_version" (.str "") with
  | .other _ _ => .error (.validation "target_version is missing or empty")
  | .str target =>
      if Python.strip target = "" then .error (.validation "target_version is missing or empty")
      else
        match parseVersionTuple target with
        | none =>
            .error (.validation ("target_version not parseable: " ++ lib.parseError target))
        | some numbers =>
            match checkOrder numbers currentVersion allowDowngrade with
            | none => .ok ()
            | some _ =>
                .error (.validation ("Refusing downgrade: target " ++ lib.repr (.str target) ++
                  " < current " ++ lib.repr (.str currentVersion) ++
                  ". Use the admin rollback path for explicit downgrades."))

/-- The second check. -/
def validSha256 (pending : Payload) : Bool :=
  match pending.get "artifact_sha256" (.str "") with
  | .str text => matchesSha256 text.toList
  | .other _ _ => false

/-- `_validate_payload`. -/
def validatePayload (lib : Library) (pending : Payload) (currentVersion : String)
    (allowDowngrade : Bool) : Except Raised Unit :=
  match bannedFields.find? fun banned => pending.any fun entry => entry.1 = banned with
  | some banned =>
      .error (.validation ("Upgrade payload contains disallowed field " ++
        lib.repr (.str banned) ++ " -- rejected."))
  | none =>
      if ¬ validSha256 pending then
        .error (.validation ("Invalid artifact_sha256: must be exactly 64 hex characters, got " ++
          lib.repr (pending.get "artifact_sha256" (.str ""))))
      else do
        validateUrl lib pending
        validateVersion lib pending currentVersion allowDowngrade

/-- Where the artifact is stored: the directory of `mkdtemp`, and a name in it. -/
structure TmpPath where
  dir : String
  name : String
  deriving DecidableEq

/-- What the handler asks of its surroundings. -/
inductive Op
  | /-- `client.report_upgrade_status`. -/
    report (upgradeId state : String) (failureReason : Option String)
  | /-- `tempfile.mkdtemp`. -/
    mkdtemp
  | /-- `_download_artifact`. -/
    download (url : String) (path : TmpPath)
  | /-- `open` and `read` of the stored artifact. -/
    readArtifact (path : TmpPath)
  | /-- `_install_wheel`. -/
    install (path : TmpPath)
  | /-- `restart_service`. -/
    restart
  | /-- `tmp_path.unlink(missing_ok=True)`. -/
    unlink (path : TmpPath)
  | /-- `shutil.rmtree(tmp_dir, ignore_errors=True)`. -/
    rmtree (dir : String)

/-- What it is answered. A download that succeeds has stored these bytes, and the artifact
then reads as them. -/
def Op.Answer : Op → Type
  | report _ _ _ => Except Outside Unit
  | mkdtemp => Except Outside String
  | download _ _ => Except Outside (List UInt8)
  | readArtifact _ => Except Outside Unit
  | install _ => Except Outside Unit
  | restart => Except Outside Unit
  | unlink _ => Except Outside Unit
  | rmtree _ => Except Outside Unit

/-- A part of the handler. -/
abbrev Script := Program Op Op.Answer Raised

/-- An operation with its answer. -/
abbrev Event := Sigma Op.Answer

/-- An outside exception, inside. -/
def lift {α : Type} : Except Outside α → Script α
  | .ok value => .ret value
  | .error error => .raise (.outside error)

/-- `_report`: a report that fails is logged. -/
def report (upgradeId state : String) (failureReason : Option String) : Script Unit :=
  .call (.report upgradeId state failureReason) fun _ => .ret ()

def downloadArtifact (url : String) (path : TmpPath) : Script (List UInt8) :=
  .call (.download url path) fun (answer : Except Outside (List UInt8)) => lift answer

/-- `_verify_sha256`, of a file with these bytes. -/
def verifySha256 (lib : Library) (path : TmpPath) (data : List UInt8) (expectedHex : String) :
    Script Unit :=
  .call (.readArtifact path) fun (answer : Except Outside Unit) =>
    match answer with
    | .error error => .raise (.outside error)
    | .ok () =>
        let actual := lib.sha256 data
        if asciiLower actual ≠ asciiLower expectedHex then
          .raise (.sha256 ("SHA-256 mismatch -- artifact may be corrupt or tampered with. " ++
            "Expected " ++ asciiLower expectedHex ++ ", got " ++ asciiLower actual))
        else .ret ()

def installWheel (path : TmpPath) : Script Unit :=
  .call (.install path) fun (answer : Except Outside Unit) => lift answer

def restartService : Script Unit :=
  .call .restart fun (answer : Except Outside Unit) => lift answer

/-- A phase: it is announced, and where an exception is caught, that is reported with the
reason and the upgrade ends. -/
def stage {α : Type} (upgradeId state : String) (phase : Script α)
    (caught : Raised → Option String) (next : α → Script Bool) : Script Bool :=
  (report upgradeId state none).bind fun _ => phase.attempt.bind fun result =>
    match result with
    | .ok value => next value
    | .error error =>
        match caught error with
        | some reason => (report upgradeId "FAILED" (some reason)).bind fun _ => .ret false
        | none => .raise error

/-- `except Exception`. -/
def anyException (blame : String) (error : Raised) : Option String := some (blame ++ error.text)

/-- `except UpgradeSHA256Error`. -/
def sha256Error : Raised → Option String
  | .sha256 text => some text
  | _ => none

/-- `except UpgradeValidationError`. -/
def validationError : Raised → Option String
  | .validation text => some text
  | _ => none

/-- The phases, once the directory is there. -/
def phases (lib : Library) (upgradeId url sha256 : String) (path : TmpPath) : Script Bool :=
  stage upgradeId "DOWNLOADING" (downloadArtifact url path) (anyException "Download failed: ")
    fun data =>
  stage upgradeId "VERIFYING" (verifySha256 lib path data sha256) sha256Error fun _ =>
  stage upgradeId "INSTALLING" (installWheel path) (anyException "Installation failed: ") fun _ =>
  stage upgradeId "RESTARTING" restartService (anyException "Restart failed: ") fun _ => .ret true

/-- The `finally` clause: an `OSError` of `unlink` is passed over, and whatever `rmtree`
raises. -/
def cleanUp (path : TmpPath) : Script Unit :=
  .call (.unlink path) fun (answer : Except Outside Unit) =>
    match answer with
    | .error (.other text) => .raise (.outside (.other text))
    | _ => .call (.rmtree path.dir) fun _ => .ret ()

/-- The name the artifact is stored under. -/
def safeFilename (lib : Library) (pending : Payload) : Except Raised String :=
  let named (rawFilename : String) : String :=
    if lib.pathName rawFilename = "" then "artifact.whl" else lib.pathName rawFilename
  let given := pending.get "artifact_filename" (.other false "None")
  if given.truthy then .ok (named given.text)
  else
    match lib.urlparse (pending.get "artifact_url" (.str "")).text with
    | .error error => .error (.outside error)
    | .ok parsed => .ok (named (named parsed.path))

/-- The upgrade of a payload that passed its checks. -/
def proceed (lib : Library) (pending : Payload) : Script Bool :=
  (Program.ofExcept (safeFilename lib pending)).bind fun name =>
    .call .mkdtemp fun (answer : Except Outside String) =>
      match answer with
      | .error error => .raise (.outside error)
      | .ok dir =>
          (phases lib (pending.get "id" (.str "")).text (pending.get "artifact_url" (.str "")).text
            (pending.get "artifact_sha256" (.str "")).text ⟨dir, name⟩).ensuring (cleanUp ⟨dir, name⟩)

/-- `run_upgrade`. -/
def runUpgrade (lib : Library) (pending : Payload) (currentVersion : String)
    (allowDowngrade : Bool) : Script Bool :=
  match validatePayload lib pending currentVersion allowDowngrade with
  | .ok () => proceed lib pending
  | .error error =>
      match validationError error with
      | some reason =>
          (report (pending.get "id" (.str "")).text "FAILED" (some reason)).bind fun _ => .ret false
      | none => .raise error

/-! ## The law of a run -/

/-- The statuses a run reports. -/
def statuses (events : List Event) : List String :=
  events.filterMap fun event =>
    match event.1 with
    | .report _ state _ => some state
    | _ => none

/-- Whether an event is an installation. -/
def Installs (event : Event) : Prop := ∃ path, event.1 = .install path

/-- The run has downloaded these bytes. -/
def Downloaded (events : List Event) (data : List UInt8) : Prop :=
  ∃ url path, (⟨.download url path, (.ok data : Except Outside (List UInt8))⟩ : Event) ∈ events

/-- The statuses of an upgrade that succeeds. -/
def stageStates : List String := ["DOWNLOADING", "VERIFYING", "INSTALLING", "RESTARTING"]

/-- `FAILED`, exactly when the handler returns `False`. -/
def failure : Except Raised Bool → List String
  | .ok false => ["FAILED"]
  | _ => []

/-- The statuses reported are the first few of these, and then the failure, if any. -/
def Announces (states : List String) (events : List Event) (outcome : Except Raised Bool) : Prop :=
  ∃ reached, reached <+: states ∧ statuses events = reached ++ failure outcome

/-- What an upgrade is meant to do on every run. -/
structure TraceLaw (lib : Library) (pending : Payload) (currentVersion : String)
    (allowDowngrade : Bool) (events : List Event) (outcome : Except Raised Bool) : Prop where
  /-- It returns. -/
  returns : ∃ result, outcome = .ok result
  /-- It installs only what passed its checks. -/
  gated : ∀ event ∈ events, Installs event →
    validatePayload lib pending currentVersion allowDowngrade = .ok () ∧
      ∃ data, Downloaded events data ∧ asciiLower (lib.sha256 data) =
        asciiLower (pending.get "artifact_sha256" (.str "")).text
  announces : Announces stageStates events outcome

/-- The exception an operation ends with is one the handler has no clause for. -/
def Escapes : Event → Prop
  | ⟨.mkdtemp, answer⟩ => ∃ error, answer = (.error error : Except Outside String)
  | ⟨.readArtifact _, answer⟩ => ∃ error, answer = (.error error : Except Outside Unit)
  | ⟨.unlink _, answer⟩ => ∃ text, answer = (.error (.other text) : Except Outside Unit)
  | _ => False

/-- Where the checks get to the URL, `urlparse` reads it. -/
def ReadableUrl (lib : Library) (pending : Payload) : Prop :=
  (∀ banned ∈ bannedFields, ∀ entry ∈ pending, entry.1 ≠ banned) → validSha256 pending →
    ∀ url, pending.get "artifact_url" (.str "") = .str url → Python.strip url ≠ "" →
      ∃ parsed, lib.urlparse url = .ok parsed

@[simp]
theorem statuses_append (before after : List Event) :
    statuses (before ++ after) = statuses before ++ statuses after := List.filterMap_append

theorem Downloaded.mono {before after : List Event} {data : List UInt8}
    (h : Downloaded before data) (hsub : ∀ event ∈ before, event ∈ after) :
    Downloaded after data := by
  obtain ⟨url, path, hmem⟩ := h
  exact ⟨url, path, hsub _ hmem⟩

/-! ## One phase -/

/-- A report is one event, and never raises. -/
theorem runs_report {upgradeId state : String} {reason : Option String} {events : List Event}
    {outcome : Except Raised Unit} (h : (report upgradeId state reason).Runs events outcome) :
    ∃ answer, events = [⟨.report upgradeId state reason, answer⟩] ∧ outcome = .ok () := by
  obtain ⟨answer, rest, hrest, rfl⟩ := Program.runs_call_iff.mp h
  obtain ⟨rfl, rfl⟩ := Program.runs_ret_iff.mp hrest
  exact ⟨answer, rfl, rfl⟩

/-- A caught failure is reported, and the upgrade ends. -/
theorem runs_failed {upgradeId : String} {reason : Option String} {events : List Event}
    {outcome : Except Raised Bool}
    (h : ((report upgradeId "FAILED" reason).bind fun _ => .ret false).Runs events outcome) :
    ∃ answer, events = [⟨.report upgradeId "FAILED" reason, answer⟩] ∧ outcome = .ok false := by
  rcases h.of_bind with ⟨error, hraised, -⟩ | ⟨value, before, after, hreport, hret, rfl⟩
  · obtain ⟨-, -, hok⟩ := runs_report hraised
    cases hok
  · obtain ⟨answer, rfl, -⟩ := runs_report hreport
    obtain ⟨rfl, rfl⟩ := Program.runs_ret_iff.mp hret
    exact ⟨answer, rfl, rfl⟩

/-- How a phase and what follows it can run: the phase returns, or its exception is caught,
or it is not. -/
theorem runs_stage {α : Type} {upgradeId state : String} {phase : Script α}
    {caught : Raised → Option String} {next : α → Script Bool} {events : List Event}
    {outcome : Except Raised Bool}
    (h : (stage upgradeId state phase caught next).Runs events outcome) :
    ∃ answer during after, events = ⟨.report upgradeId state none, answer⟩ :: (during ++ after) ∧
      ((∃ value, phase.Runs during (.ok value) ∧ (next value).Runs after outcome) ∨
      (∃ error reason, phase.Runs during (.error error) ∧ caught error = some reason ∧
        (∃ answer', after = [⟨.report upgradeId "FAILED" (some reason), answer'⟩]) ∧
        outcome = .ok false) ∨
      ∃ error, phase.Runs during (.error error) ∧ caught error = none ∧ after = [] ∧
        outcome = .error error) := by
  rcases h.of_bind with ⟨error, hraised, -⟩ | ⟨value, before, rest, hreport, hrest, rfl⟩
  · obtain ⟨-, -, hok⟩ := runs_report hraised
    cases hok
  obtain ⟨answer, rfl, -⟩ := runs_report hreport
  obtain ⟨result, during, after, hphase, hafter, rfl⟩ := Program.Runs.of_attempt_bind hrest
  refine ⟨answer, during, after, rfl, ?_⟩
  cases result with
  | ok value => exact .inl ⟨value, hphase, hafter⟩
  | error error =>
      cases hcaught : caught error with
      | some reason =>
          simp only [hcaught] at hafter
          obtain ⟨answer', rfl, rfl⟩ := runs_failed hafter
          exact .inr (.inl ⟨error, reason, hphase, hcaught, ⟨answer', rfl⟩, rfl⟩)
      | none =>
          simp only [hcaught] at hafter
          obtain ⟨rfl, rfl⟩ := Program.runs_raise_iff.mp hafter
          exact .inr (.inr ⟨error, hphase, hcaught, rfl, rfl⟩)

/-- A phase that reports nothing announces itself before what follows. -/
theorem announces_stage {α : Type} {upgradeId state : String} {phase : Script α}
    {caught : Raised → Option String} {next : α → Script Bool} {states : List String}
    (hphase : ∀ events result, phase.Runs events result → statuses events = [])
    (hnext : ∀ value events outcome, (next value).Runs events outcome →
      Announces states events outcome) {events : List Event} {outcome : Except Raised Bool}
    (h : (stage upgradeId state phase caught next).Runs events outcome) :
    Announces (state :: states) events outcome := by
  obtain ⟨answer, during, after, rfl, hrest⟩ := runs_stage h
  have hstatuses : statuses (⟨.report upgradeId state none, answer⟩ :: (during ++ after)) =
      state :: (statuses during ++ statuses after) := by
    rw [← statuses_append]
    rfl
  rcases hrest with ⟨value, hok, hrun⟩ | ⟨error, reason, herror, -, ⟨answer', rfl⟩, rfl⟩ |
    ⟨error, herror, -, rfl, rfl⟩
  · obtain ⟨reached, hprefix, hreached⟩ := hnext value after outcome hrun
    refine ⟨state :: reached, List.cons_prefix_cons.mpr ⟨rfl, hprefix⟩, ?_⟩
    rw [hstatuses, hphase during _ hok, hreached, List.nil_append, List.cons_append]
  · refine ⟨[state], List.cons_prefix_cons.mpr ⟨rfl, List.nil_prefix⟩, ?_⟩
    rw [hstatuses, hphase during _ herror]
    rfl
  · refine ⟨[state], List.cons_prefix_cons.mpr ⟨rfl, List.nil_prefix⟩, ?_⟩
    rw [hstatuses, hphase during _ herror]
    rfl

/-- A phase ends the handler with an exception where an event of it escapes, and only there. -/
theorem returns_stage {α : Type} {upgradeId state : String} {phase : Script α}
    {caught : Raised → Option String} {next : α → Script Bool}
    (hphase : ∀ events result, phase.Runs events result →
      ((∃ event ∈ events, Escapes event) ↔ ∃ error, result = .error error ∧ caught error = none))
    (hnext : ∀ value events outcome, (next value).Runs events outcome →
      ((∃ result, outcome = .ok result) ↔ ∀ event ∈ events, ¬ Escapes event))
    {events : List Event} {outcome : Except Raised Bool}
    (h : (stage upgradeId state phase caught next).Runs events outcome) :
    (∃ result, outcome = .ok result) ↔ ∀ event ∈ events, ¬ Escapes event := by
  obtain ⟨answer, during, after, rfl, hrest⟩ := runs_stage h
  have hreport : ¬ Escapes ⟨.report upgradeId state none, answer⟩ := fun hescapes => hescapes
  rcases hrest with ⟨value, hok, hrun⟩ | ⟨error, reason, herror, hcaught, ⟨answer', rfl⟩, rfl⟩ |
    ⟨error, herror, hcaught, rfl, rfl⟩
  · have hduring : ∀ event ∈ during, ¬ Escapes event := by
      intro event hevent hescapes
      obtain ⟨error, heq, -⟩ := (hphase during _ hok).mp ⟨event, hevent, hescapes⟩
      cases heq
    rw [hnext value after outcome hrun]
    simp only [List.mem_cons, List.mem_append]
    constructor
    · rintro hafter event (rfl | hevent | hevent)
      · exact hreport
      · exact hduring event hevent
      · exact hafter event hevent
    · exact fun hall event hevent => hall event (.inr (.inr hevent))
  · refine ⟨fun _ => ?_, fun _ => ⟨false, rfl⟩⟩
    simp only [List.mem_cons, List.mem_append, List.not_mem_nil, or_false]
    rintro event (rfl | hevent | rfl)
    · exact hreport
    · intro hescapes
      obtain ⟨other, heq, hnone⟩ := (hphase during _ herror).mp ⟨event, hevent, hescapes⟩
      cases heq
      rw [hcaught] at hnone
      cases hnone
    · exact fun hescapes => hescapes
  · constructor
    · rintro ⟨result, heq⟩
      cases heq
    · intro hall
      obtain ⟨event, hevent, hescapes⟩ := (hphase during _ herror).mpr ⟨error, rfl, hcaught⟩
      exact absurd hescapes (hall event (by simp [hevent]))

/-- An installation after a phase that installs nothing is one after the phase returned. -/
theorem runs_next_of_installs {α : Type} {upgradeId state : String} {phase : Script α}
    {caught : Raised → Option String} {next : α → Script Bool} {events : List Event}
    {outcome : Except Raised Bool}
    (hphase : ∀ events result, phase.Runs events result → ∀ event ∈ events, ¬ Installs event)
    (h : (stage upgradeId state phase caught next).Runs events outcome) {event : Event}
    (hevent : event ∈ events) (hinstalls : Installs event) :
    ∃ value during after, phase.Runs during (.ok value) ∧ (next value).Runs after outcome ∧
      (∀ other ∈ during, other ∈ events) ∧ (∀ other ∈ after, other ∈ events) ∧ event ∈ after := by
  have hreport (state : String) (reason : Option String)
      (answer : Op.Answer (.report upgradeId state reason)) :
      ¬ Installs ⟨.report upgradeId state reason, answer⟩ := by
    rintro ⟨path, heq⟩
    cases heq
  obtain ⟨answer, during, after, rfl, hrest⟩ := runs_stage h
  simp only [List.mem_cons, List.mem_append] at hevent
  have hafter : event ∈ after := by
    rcases hevent with rfl | hduring | hafter
    · exact absurd hinstalls (hreport _ _ _)
    · rcases hrest with ⟨value, hok, -⟩ | ⟨error, reason, herror, -⟩ | ⟨error, herror, -⟩
      · exact absurd hinstalls (hphase _ _ hok event hduring)
      · exact absurd hinstalls (hphase _ _ herror event hduring)
      · exact absurd hinstalls (hphase _ _ herror event hduring)
    · exact hafter
  rcases hrest with ⟨value, hok, hrun⟩ | ⟨error, reason, -, -, ⟨answer', rfl⟩, -⟩ |
    ⟨error, -, -, rfl, -⟩
  · exact ⟨value, during, after, hok, hrun, fun other hother => by simp [hother],
      fun other hother => by simp [hother], hafter⟩
  · rw [List.mem_singleton] at hafter
    subst hafter
    exact absurd hinstalls (hreport _ _ _)
  · cases hafter

/-! ## The four phases -/

theorem runs_lift_iff {α : Type} {answer : Except Outside α} {events : List Event}
    {result : Except Raised α} :
    (lift answer).Runs events result ↔ events = [] ∧ result = answer.mapError .outside := by
  cases answer with
  | ok value => exact Program.runs_ret_iff
  | error error => exact Program.runs_raise_iff

/-- A call whose answer is passed on. -/
theorem runs_lifted {op : Op} {α : Type} {pass : op.Answer → Except Outside α}
    {events : List Event} {result : Except Raised α}
    (h : (Program.call op fun answer => lift (pass answer)).Runs events result) :
    ∃ answer, events = [⟨op, answer⟩] ∧ result = (pass answer).mapError .outside := by
  obtain ⟨answer, rest, hrest, rfl⟩ := Program.runs_call_iff.mp h
  obtain ⟨rfl, rfl⟩ := runs_lift_iff.mp hrest
  exact ⟨answer, rfl, rfl⟩

theorem runs_downloadArtifact {url : String} {path : TmpPath} {events : List Event}
    {result : Except Raised (List UInt8)} (h : (downloadArtifact url path).Runs events result) :
    ∃ answer : Except Outside (List UInt8), events = [⟨.download url path, answer⟩] ∧
      result = answer.mapError .outside := runs_lifted h

theorem runs_installWheel {path : TmpPath} {events : List Event} {result : Except Raised Unit}
    (h : (installWheel path).Runs events result) :
    ∃ answer : Except Outside Unit, events = [⟨.install path, answer⟩] ∧
      result = answer.mapError .outside := runs_lifted h

theorem runs_restartService {events : List Event} {result : Except Raised Unit}
    (h : restartService.Runs events result) :
    ∃ answer : Except Outside Unit, events = [⟨.restart, answer⟩] ∧
      result = answer.mapError .outside := runs_lifted h

/-- The digest's phase: the file cannot be read, or it is compared. -/
theorem runs_verifySha256 {lib : Library} {path : TmpPath} {data : List UInt8}
    {expectedHex : String} {events : List Event} {result : Except Raised Unit}
    (h : (verifySha256 lib path data expectedHex).Runs events result) :
    ∃ answer : Except Outside Unit, events = [⟨.readArtifact path, answer⟩] ∧
      ((∃ error, answer = .error error ∧ result = .error (.outside error)) ∨
      answer = .ok () ∧ asciiLower (lib.sha256 data) = asciiLower expectedHex ∧ result = .ok () ∨
      answer = .ok () ∧ ∃ text, result = .error (.sha256 text)) := by
  obtain ⟨answer, rest, hrest, rfl⟩ := Program.runs_call_iff.mp h
  refine ⟨answer, ?_⟩
  cases (answer : Except Outside Unit) with
  | error error =>
      obtain ⟨rfl, rfl⟩ := Program.runs_raise_iff.mp hrest
      exact ⟨rfl, .inl ⟨error, rfl, rfl⟩⟩
  | ok value =>
      simp only at hrest
      split_ifs at hrest with hdigest
      · obtain ⟨rfl, rfl⟩ := Program.runs_raise_iff.mp hrest
        exact ⟨rfl, .inr (.inr ⟨rfl, _, rfl⟩)⟩
      · obtain ⟨rfl, rfl⟩ := Program.runs_ret_iff.mp hrest
        exact ⟨rfl, .inr (.inl ⟨rfl, not_not.mp hdigest, rfl⟩)⟩

section Phases

variable {lib : Library} {upgradeId url sha256 : String} {path : TmpPath} {events : List Event}
  {outcome : Except Raised Bool}

/-- The phases report their statuses in order, and a failure last. -/
theorem announces_phases (h : (phases lib upgradeId url sha256 path).Runs events outcome) :
    Announces stageStates events outcome := by
  refine announces_stage ?_ (fun data _ _ => announces_stage ?_ (fun _ _ _ =>
    announces_stage ?_ (fun _ _ _ => announces_stage ?_ ?_))) h
  · intro events result hrun
    obtain ⟨answer, rfl, -⟩ := runs_downloadArtifact hrun
    rfl
  · intro events result hrun
    obtain ⟨answer, rfl, -⟩ := runs_verifySha256 hrun
    rfl
  · intro events result hrun
    obtain ⟨answer, rfl, -⟩ := runs_installWheel hrun
    rfl
  · intro events result hrun
    obtain ⟨answer, rfl, -⟩ := runs_restartService hrun
    rfl
  · intro value events outcome hrun
    obtain ⟨rfl, rfl⟩ := Program.runs_ret_iff.mp hrun
    exact ⟨[], List.nil_prefix, rfl⟩

/-- A phase whose `except` clause names every exception lets none escape. -/
theorem not_escapes_of_anyException {α : Type} {blame : String} {event : Event}
    {result : Except Raised α} (hevent : ¬ Escapes event) :
    (∃ other ∈ [event], Escapes other) ↔
      ∃ error, result = .error error ∧ anyException blame error = none := by
  simp [hevent, anyException]

/-- The phases return unless the artifact cannot be read. -/
theorem returns_phases (h : (phases lib upgradeId url sha256 path).Runs events outcome) :
    (∃ result, outcome = .ok result) ↔ ∀ event ∈ events, ¬ Escapes event := by
  refine returns_stage ?_ (fun data _ _ => returns_stage ?_ (fun _ _ _ =>
    returns_stage ?_ (fun _ _ _ => returns_stage ?_ ?_))) h
  · intro events result hrun
    obtain ⟨answer, rfl, -⟩ := runs_downloadArtifact hrun
    exact not_escapes_of_anyException fun hescapes => hescapes
  · intro events result hrun
    obtain ⟨answer, rfl, ⟨error, rfl, rfl⟩ | ⟨rfl, -, rfl⟩ | ⟨rfl, text, rfl⟩⟩ :=
      runs_verifySha256 hrun
    · exact iff_of_true ⟨_, List.mem_singleton_self _, error, rfl⟩ ⟨_, rfl, rfl⟩
    · simp [Escapes]
    · simp [Escapes, sha256Error]
  · intro events result hrun
    obtain ⟨answer, rfl, -⟩ := runs_installWheel hrun
    exact not_escapes_of_anyException fun hescapes => hescapes
  · intro events result hrun
    obtain ⟨answer, rfl, -⟩ := runs_restartService hrun
    exact not_escapes_of_anyException fun hescapes => hescapes
  · intro value events outcome hrun
    obtain ⟨rfl, rfl⟩ := Program.runs_ret_iff.mp hrun
    exact ⟨fun _ event hevent => absurd hevent List.not_mem_nil, fun _ => ⟨true, rfl⟩⟩

/-- An installation comes after a download of the expected digest. -/
theorem gated_phases (h : (phases lib upgradeId url sha256 path).Runs events outcome)
    {event : Event} (hevent : event ∈ events) (hinstalls : Installs event) :
    ∃ data, Downloaded events data ∧ asciiLower (lib.sha256 data) = asciiLower sha256 := by
  obtain ⟨data, during, after, hdownload, hrest, hduring, -, hmem⟩ := runs_next_of_installs (by
    intro events result hrun event hevent
    obtain ⟨answer, rfl, -⟩ := runs_downloadArtifact hrun
    rw [List.mem_singleton.mp hevent]
    rintro ⟨path, heq⟩
    cases heq) h hevent hinstalls
  obtain ⟨value, read, -, hverify, -, -, -, -⟩ := runs_next_of_installs (by
    intro events result hrun event hevent
    obtain ⟨answer, rfl, -⟩ := runs_verifySha256 hrun
    rw [List.mem_singleton.mp hevent]
    rintro ⟨path, heq⟩
    cases heq) hrest hmem hinstalls
  refine ⟨data, ?_, ?_⟩
  · obtain ⟨answer, rfl, hanswer⟩ := runs_downloadArtifact hdownload
    cases answer with
    | ok value =>
        cases hanswer
        exact ⟨url, path, hduring _ (List.mem_singleton_self _)⟩
    | error error => cases hanswer
  · obtain ⟨answer, -, ⟨error, -, heq⟩ | ⟨-, hdigest, -⟩ | ⟨-, text, heq⟩⟩ :=
      runs_verifySha256 hverify
    · cases heq
    · exact hdigest
    · cases heq

/-- The clean-up: `unlink` raises what the clause does not name, or the directory is removed. -/
theorem runs_cleanUp {result : Except Raised Unit} (h : (cleanUp path).Runs events result) :
    statuses events = [] ∧ (∀ event ∈ events, ¬ Installs event) ∧
      ((∃ value, result = .ok value) ↔ ∀ event ∈ events, ¬ Escapes event) := by
  obtain ⟨answer, rest, hrest, rfl⟩ := Program.runs_call_iff.mp h
  have hremoved (hrest : (Program.call (.rmtree path.dir) fun _ => .ret () : Script Unit).Runs
      rest result) (hunlink : ¬ Escapes ⟨.unlink path, answer⟩) :
      statuses (⟨.unlink path, answer⟩ :: rest) = [] ∧
      (∀ event ∈ (⟨.unlink path, answer⟩ :: rest : List Event), ¬ Installs event) ∧
      ((∃ value, result = .ok value) ↔
        ∀ event ∈ (⟨.unlink path, answer⟩ :: rest : List Event), ¬ Escapes event) := by
    obtain ⟨removed, none, hret, rfl⟩ := Program.runs_call_iff.mp hrest
    obtain ⟨rfl, rfl⟩ := Program.runs_ret_iff.mp hret
    refine ⟨rfl, ?_, fun _ => ?_, fun _ => ⟨(), rfl⟩⟩
    · intro event hevent hinstalls
      obtain ⟨path, heq⟩ := hinstalls
      rcases List.mem_pair.mp hevent with rfl | rfl <;> cases heq
    · intro event hevent
      rcases List.mem_pair.mp hevent with rfl | rfl
      · exact hunlink
      · exact fun hescapes => hescapes
  match answer, hrest, hremoved with
  | .ok (), hrest, hremoved =>
      refine hremoved hrest ?_
      rintro ⟨text, heq⟩
      cases heq
  | .error (.osError text), hrest, hremoved =>
      refine hremoved hrest ?_
      rintro ⟨text, heq⟩
      cases heq
  | .error (.other text), hrest, _ =>
      obtain ⟨rfl, rfl⟩ := Program.runs_raise_iff.mp hrest
      refine ⟨rfl, ?_, ?_⟩
      · intro event hevent hinstalls
        obtain ⟨path, heq⟩ := hinstalls
        rw [List.mem_singleton] at hevent
        subst hevent
        cases heq
      · refine iff_of_false ?_ fun hall => hall _ (List.mem_singleton_self _) ⟨text, rfl⟩
        rintro ⟨value, heq⟩
        cases heq

end Phases

/-! ## The whole upgrade -/

/-- A check fails with `UpgradeValidationError` only. -/
def Validates (check : Except Raised Unit) : Prop :=
  ∀ error, check = .error error → validationError error ≠ none

theorem validates_ok : Validates (.ok ()) := by
  intro error heq
  cases heq

theorem validates_error (text : String) : Validates (.error (.validation text)) := by
  intro error heq
  cases heq
  exact nofun

theorem validates_checkParsedUrl (lib : Library) (url : String) (parsed : ParsedUrl) :
    Validates (checkParsedUrl lib url parsed) := by
  unfold checkParsedUrl
  dsimp only
  split_ifs
  · exact validates_error _
  · exact validates_error _
  · exact validates_ok

theorem validates_validateVersion (lib : Library) (pending : Payload) (currentVersion : String)
    (allowDowngrade : Bool) :
    Validates (validateVersion lib pending currentVersion allowDowngrade) := by
  unfold validateVersion
  split
  · exact validates_error _
  · split_ifs
    · exact validates_error _
    · split
      · exact validates_error _
      · split
        · exact validates_ok
        · exact validates_error _

/-- `_validate_payload` raises another exception than its own only where `urlparse` does. -/
theorem readableUrl_iff (lib : Library) (pending : Payload) (currentVersion : String)
    (allowDowngrade : Bool) :
    ReadableUrl lib pending ↔
      Validates (validatePayload lib pending currentVersion allowDowngrade) := by
  unfold validatePayload
  cases hbanned : bannedFields.find? fun banned => pending.any fun entry => entry.1 = banned with
  | some banned =>
      refine iff_of_true (fun hnone _ _ _ _ => ?_) (validates_error _)
      have hfound := List.find?_some hbanned
      simp only [List.any_eq_true, decide_eq_true_eq] at hfound
      obtain ⟨entry, hentry, heq⟩ := hfound
      exact absurd heq (hnone banned (List.mem_of_find?_eq_some hbanned) entry hentry)
  | none =>
      have hnone : ∀ banned ∈ bannedFields, ∀ entry ∈ pending, entry.1 ≠ banned := by
        intro banned hmem entry hentry heq
        exact List.find?_eq_none.mp hbanned banned hmem
          (List.any_eq_true.mpr ⟨entry, hentry, decide_eq_true heq⟩)
      dsimp only
      by_cases hsha256 : validSha256 pending
      · rw [if_neg (not_not.mpr hsha256), validateUrl]
        cases hurl : pending.get "artifact_url" (.str "") with
        | other truthy text =>
            refine iff_of_true (fun _ _ url heq => ?_) (validates_error _)
            rw [hurl] at heq
            cases heq
        | str url =>
            dsimp only
            by_cases hstrip : Python.strip url = ""
            · rw [if_pos hstrip]
              refine iff_of_true (fun _ _ other heq hne => ?_) (validates_error _)
              rw [hurl] at heq
              cases heq
              exact absurd hstrip hne
            · rw [if_neg hstrip]
              cases hparsed : lib.urlparse url with
              | error error =>
                  refine iff_of_false (fun hreadable => ?_) (fun hvalidates => ?_)
                  · obtain ⟨parsed, hok⟩ := hreadable hnone hsha256 url hurl hstrip
                    rw [hparsed] at hok
                    cases hok
                  · exact hvalidates _ rfl rfl
              | ok parsed =>
                  refine iff_of_true (fun _ _ other heq _ => ?_) ?_
                  · rw [hurl] at heq
                    cases heq
                    exact ⟨parsed, hparsed⟩
                  · have hchecked := validates_checkParsedUrl lib url parsed
                    dsimp only
                    cases hcheck : checkParsedUrl lib url parsed with
                    | error error =>
                        intro other heq
                        cases heq
                        exact hchecked _ hcheck
                    | ok value => exact validates_validateVersion lib pending currentVersion _
      · rw [if_pos hsha256]
        exact iff_of_true (fun _ hvalid => absurd hvalid hsha256) (validates_error _)

/-- The URL of a payload that passes its checks is a text that `urlparse` reads. -/
theorem urlparse_of_validatePayload {lib : Library} {pending : Payload} {currentVersion : String}
    {allowDowngrade : Bool}
    (h : validatePayload lib pending currentVersion allowDowngrade = .ok ()) :
    ∃ url parsed, pending.get "artifact_url" (.str "") = .str url ∧
      lib.urlparse url = .ok parsed := by
  unfold validatePayload at h
  split at h
  · cases h
  · split_ifs at h
    unfold validateUrl at h
    cases hurl : pending.get "artifact_url" (.str "") with
    | other truthy text =>
        rw [hurl] at h
        cases h
    | str url =>
        rw [hurl] at h
        cases hparsed : lib.urlparse url with
        | ok parsed => exact ⟨url, parsed, rfl, hparsed⟩
        | error error =>
            simp only [hparsed] at h
            split_ifs at h <;> cases h

/-- It names a file. -/
theorem exists_safeFilename {lib : Library} {pending : Payload} {currentVersion : String}
    {allowDowngrade : Bool}
    (h : validatePayload lib pending currentVersion allowDowngrade = .ok ()) :
    ∃ name, safeFilename lib pending = .ok name := by
  obtain ⟨url, parsed, hurl, hparsed⟩ := urlparse_of_validatePayload h
  unfold safeFilename
  simp only [hurl, PayloadValue.text, hparsed]
  split_ifs <;> exact ⟨_, rfl⟩

section Law

variable {lib : Library} {pending : Payload} {currentVersion : String} {allowDowngrade : Bool}
  {events : List Event} {outcome : Except Raised Bool}

/-- How the upgrade of a checked payload runs: the directory cannot be made, or the phases run
and then the clean-up. -/
theorem runs_proceed (hvalid : validatePayload lib pending currentVersion allowDowngrade = .ok ())
    (h : (proceed lib pending).Runs events outcome) :
    (∃ error, events = [⟨.mkdtemp, (.error error : Except Outside String)⟩] ∧
        outcome = .error (.outside error)) ∨
      ∃ dir path result before after, events =
          (⟨.mkdtemp, (.ok dir : Except Outside String)⟩ : Event) :: (before ++ after) ∧
        (phases lib (pending.get "id" (.str "")).text (pending.get "artifact_url" (.str "")).text
          (pending.get "artifact_sha256" (.str "")).text path).Runs before result ∧
        ((∃ error, (cleanUp path).Runs after (.error error) ∧ outcome = .error error) ∨
          (cleanUp path).Runs after (.ok ()) ∧ outcome = result) := by
  obtain ⟨name, hname⟩ := exists_safeFilename hvalid
  rw [proceed, hname] at h
  obtain ⟨answer, rest, hrest, rfl⟩ := Program.runs_call_iff.mp h
  match answer, hrest with
  | .error error, hrest =>
      obtain ⟨rfl, rfl⟩ := Program.runs_raise_iff.mp hrest
      exact .inl ⟨error, rfl, rfl⟩
  | .ok dir, hrest =>
      obtain ⟨result, before, after, hphases, rfl, hclean⟩ := Program.Runs.of_ensuring hrest
      exact .inr ⟨dir, ⟨dir, name⟩, result, before, after, rfl, hphases, hclean⟩

/-- A checked payload's upgrade returns unless an exception escapes. -/
theorem returns_proceed
    (hvalid : validatePayload lib pending currentVersion allowDowngrade = .ok ())
    (h : (proceed lib pending).Runs events outcome) :
    (∃ result, outcome = .ok result) ↔ ∀ event ∈ events, ¬ Escapes event := by
  rcases runs_proceed hvalid h with ⟨error, rfl, rfl⟩ |
    ⟨dir, path, result, before, after, rfl, hphases, hclean⟩
  · refine iff_of_false ?_ fun hall => hall _ (List.mem_singleton_self _) ⟨error, rfl⟩
    rintro ⟨result, heq⟩
    cases heq
  · have hmade : ¬ Escapes ⟨.mkdtemp, (.ok dir : Except Outside String)⟩ := by
      rintro ⟨error, heq⟩
      cases heq
    simp only [List.mem_cons, List.mem_append]
    rcases hclean with ⟨error, hraised, rfl⟩ | ⟨hdone, rfl⟩
    · refine iff_of_false ?_ fun hall => ?_
      · rintro ⟨result, heq⟩
        cases heq
      · obtain ⟨value, heq⟩ := (runs_cleanUp hraised).2.2.mpr fun event hevent =>
          hall event (.inr (.inr hevent))
        cases heq
    · rw [returns_phases hphases]
      constructor
      · rintro hall event (rfl | hevent | hevent)
        · exact hmade
        · exact hall event hevent
        · exact (runs_cleanUp hdone).2.2.mp ⟨(), rfl⟩ event hevent
      · exact fun hall event hevent => hall event (.inr (.inl hevent))

/-- An upgrade returns exactly where its URL is read and no exception escapes. -/
theorem returns_runUpgrade
    (h : (runUpgrade lib pending currentVersion allowDowngrade).Runs events outcome) :
    (∃ result, outcome = .ok result) ↔
      ReadableUrl lib pending ∧ ∀ event ∈ events, ¬ Escapes event := by
  rw [readableUrl_iff lib pending currentVersion allowDowngrade]
  rw [runUpgrade] at h
  cases hvalid : validatePayload lib pending currentVersion allowDowngrade with
  | ok value =>
      rw [hvalid] at h
      rw [returns_proceed hvalid h]
      exact (and_iff_right validates_ok).symm
  | error error =>
      rw [hvalid] at h
      cases hcaught : validationError error with
      | some reason =>
          simp only [hcaught] at h
          obtain ⟨answer, rfl, rfl⟩ := runs_failed h
          refine iff_of_true ⟨false, rfl⟩ ⟨?_, ?_⟩
          · intro other heq hnone
            cases heq
            rw [hcaught] at hnone
            cases hnone
          · intro event hevent
            rw [List.mem_singleton.mp hevent]
            exact fun hescapes => hescapes
      | none =>
          simp only [hcaught] at h
          obtain ⟨rfl, rfl⟩ := Program.runs_raise_iff.mp h
          refine iff_of_false ?_ fun hvalidates => hvalidates.1 error rfl hcaught
          rintro ⟨result, heq⟩
          cases heq

/-- An installation follows the checks and a download of the expected digest. -/
theorem gated_runUpgrade
    (h : (runUpgrade lib pending currentVersion allowDowngrade).Runs events outcome)
    {event : Event} (hevent : event ∈ events) (hinstalls : Installs event) :
    validatePayload lib pending currentVersion allowDowngrade = .ok () ∧
      ∃ data, Downloaded events data ∧ asciiLower (lib.sha256 data) =
        asciiLower (pending.get "artifact_sha256" (.str "")).text := by
  rw [runUpgrade] at h
  cases hvalid : validatePayload lib pending currentVersion allowDowngrade with
  | ok value =>
      rw [hvalid] at h
      refine ⟨rfl, ?_⟩
      rcases runs_proceed hvalid h with ⟨error, rfl, rfl⟩ |
        ⟨dir, path, result, before, after, rfl, hphases, hclean⟩
      · rw [List.mem_singleton] at hevent
        subst hevent
        obtain ⟨path, heq⟩ := hinstalls
        cases heq
      · have hafter : ∀ other ∈ after, ¬ Installs other := by
          rcases hclean with ⟨error, hraised, -⟩ | ⟨hdone, -⟩
          · exact (runs_cleanUp hraised).2.1
          · exact (runs_cleanUp hdone).2.1
        simp only [List.mem_cons, List.mem_append] at hevent
        rcases hevent with rfl | hbefore | hmem
        · obtain ⟨path, heq⟩ := hinstalls
          cases heq
        · obtain ⟨data, hdata, hdigest⟩ := gated_phases hphases hbefore hinstalls
          exact ⟨data, hdata.mono fun other hother => by simp [hother], hdigest⟩
        · exact absurd hinstalls (hafter event hmem)
  | error error =>
      rw [hvalid] at h
      cases hcaught : validationError error with
      | some reason =>
          simp only [hcaught] at h
          obtain ⟨answer, rfl, -⟩ := runs_failed h
          rw [List.mem_singleton] at hevent
          subst hevent
          obtain ⟨path, heq⟩ := hinstalls
          cases heq
      | none =>
          simp only [hcaught] at h
          obtain ⟨rfl, -⟩ := Program.runs_raise_iff.mp h
          cases hevent

/-- An upgrade that returns has reported its statuses in order, and its failure last. -/
theorem announces_runUpgrade
    (h : (runUpgrade lib pending currentVersion allowDowngrade).Runs events outcome)
    (hreturns : ∃ result, outcome = .ok result) : Announces stageStates events outcome := by
  rw [runUpgrade] at h
  cases hvalid : validatePayload lib pending currentVersion allowDowngrade with
  | ok value =>
      rw [hvalid] at h
      rcases runs_proceed hvalid h with ⟨error, rfl, rfl⟩ |
        ⟨dir, path, result, before, after, rfl, hphases, ⟨error, -, rfl⟩ | ⟨hdone, rfl⟩⟩
      · obtain ⟨result, heq⟩ := hreturns
        cases heq
      · obtain ⟨result, heq⟩ := hreturns
        cases heq
      · obtain ⟨reached, hprefix, hreached⟩ := announces_phases hphases
        refine ⟨reached, hprefix, ?_⟩
        rw [← hreached]
        calc statuses ((⟨.mkdtemp, (.ok dir : Except Outside String)⟩ : Event) :: (before ++ after))
            = statuses (before ++ after) := rfl
          _ = statuses before := by
            rw [statuses_append, (runs_cleanUp hdone).1, List.append_nil]
  | error error =>
      rw [hvalid] at h
      cases hcaught : validationError error with
      | some reason =>
          simp only [hcaught] at h
          obtain ⟨answer, rfl, rfl⟩ := runs_failed h
          exact ⟨[], List.nil_prefix, rfl⟩
      | none =>
          simp only [hcaught] at h
          obtain ⟨-, rfl⟩ := Program.runs_raise_iff.mp h
          obtain ⟨result, heq⟩ := hreturns
          cases heq

/-- An upgrade keeps its law on exactly the runs in which no exception escapes: its URL is read
where the checks get to it, its directory is made, its artifact can be read back, and `unlink`
raises at most an `OSError`. -/
theorem traceLaw_iff
    (h : (runUpgrade lib pending currentVersion allowDowngrade).Runs events outcome) :
    TraceLaw lib pending currentVersion allowDowngrade events outcome ↔
      ReadableUrl lib pending ∧ ∀ event ∈ events, ¬ Escapes event := by
  constructor
  · intro hlaw
    exact (returns_runUpgrade h).mp hlaw.returns
  · intro hcontained
    have hreturns := (returns_runUpgrade h).mpr hcontained
    exact ⟨hreturns, fun event hevent hinstalls => gated_runUpgrade h hevent hinstalls,
      announces_runUpgrade h hreturns⟩

end Law

/-- A library with the answers for the payload below. -/
def plainLibrary : Library where
  urlparse url :=
    if url = "https://files.example/agent.whl" then
      .ok { scheme := "https", hostname := some "files.example", path := "/agent.whl" }
    else .error (.other "Invalid IPv6 URL")
  sha256 data :=
    if data = [97, 98, 99] then "ba7816bf8f01cfea414140de5dae2223b00361a396177a9cb410ff61f20015ad"
    else "e3b0c44298fc1c149afbf4c8996fb92427ae41e4649b934ca495991b7852b855"
  repr value := value.text
  pathName text := text
  parseError text := text

def plainPayload : Payload :=
  [("id", .str "7"), ("target_version", .str "1.4.0"),
    ("artifact_url", .str "https://files.example/agent.whl"),
    ("artifact_sha256",
      .str "e3b0c44298fc1c149afbf4c8996fb92427ae41e4649b934ca495991b7852b855"),
    ("artifact_filename", .str "agent.whl")]

/-- The events of an upgrade whose artifact cannot be opened after it was downloaded. -/
def unreadableEvents : List Event :=
  [⟨.mkdtemp, (.ok "/tmp/portforge-upgrade-1" : Except Outside String)⟩,
    ⟨.report "7" "DOWNLOADING" none, (.ok () : Except Outside Unit)⟩,
    ⟨.download "https://files.example/agent.whl" ⟨"/tmp/portforge-upgrade-1", "agent.whl"⟩,
      (.ok [] : Except Outside (List UInt8))⟩,
    ⟨.report "7" "VERIFYING" none, (.ok () : Except Outside Unit)⟩,
    ⟨.readArtifact ⟨"/tmp/portforge-upgrade-1", "agent.whl"⟩,
      (.error (.osError "Permission denied") : Except Outside Unit)⟩,
    ⟨.unlink ⟨"/tmp/portforge-upgrade-1", "agent.whl"⟩, (.ok () : Except Outside Unit)⟩,
    ⟨.rmtree "/tmp/portforge-upgrade-1", (.ok () : Except Outside Unit)⟩]

theorem validatePayload_plain :
    validatePayload plainLibrary plainPayload "1.3.0" false = .ok () := by
  rfl

theorem runs_unreadable :
    (runUpgrade plainLibrary plainPayload "1.3.0" false).Runs unreadableEvents
      (.error (.outside (.osError "Permission denied"))) := by
  rw [runUpgrade, validatePayload_plain]
  exact .call _ (.call _ (.call _ (.call _ (.call _ (.call _ (.call _ (.raise _)))))))

/-- An artifact that cannot be opened ends the handler with the exception of `open`, after a
report of `VERIFYING`. -/
theorem upgrade_raises :
    ¬ ∀ (lib : Library) (pending : Payload) (currentVersion : String) (allowDowngrade : Bool)
      (events : List Event) (outcome : Except Raised Bool),
      (runUpgrade lib pending currentVersion allowDowngrade).Runs events outcome →
        TraceLaw lib pending currentVersion allowDowngrade events outcome := by
  intro hall
  obtain ⟨result, heq⟩ := (hall _ _ _ _ _ _ runs_unreadable).returns
  cases heq

/-- A payload for an artifact with the bytes of `abc`, its digest in upper case. -/
def wheelPayload : Payload :=
  [("id", .str "7"), ("target_version", .str "1.4.0"),
    ("artifact_url", .str "https://files.example/agent.whl"),
    ("artifact_sha256",
      .str "BA7816BF8F01CFEA414140DE5DAE2223B00361A396177A9CB410FF61F20015AD"),
    ("artifact_filename", .str "agent.whl")]

/-- The events of its upgrade until the restart. One report is lost. -/
def installedEvents : List Event :=
  [⟨.mkdtemp, (.ok "/tmp/portforge-upgrade-1" : Except Outside String)⟩,
    ⟨.report "7" "DOWNLOADING" none, (.ok () : Except Outside Unit)⟩,
    ⟨.download "https://files.example/agent.whl" ⟨"/tmp/portforge-upgrade-1", "agent.whl"⟩,
      (.ok [97, 98, 99] : Except Outside (List UInt8))⟩,
    ⟨.report "7" "VERIFYING" none, (.error (.other "not reachable") : Except Outside Unit)⟩,
    ⟨.readArtifact ⟨"/tmp/portforge-upgrade-1", "agent.whl"⟩, (.ok () : Except Outside Unit)⟩,
    ⟨.report "7" "INSTALLING" none, (.ok () : Except Outside Unit)⟩,
    ⟨.install ⟨"/tmp/portforge-upgrade-1", "agent.whl"⟩, (.ok () : Except Outside Unit)⟩,
    ⟨.report "7" "RESTARTING" none, (.ok () : Except Outside Unit)⟩]

/-- The events of its upgrade where the restart succeeds. -/
def restartedEvents : List Event :=
  installedEvents ++
    [⟨.restart, (.ok () : Except Outside Unit)⟩,
      ⟨.unlink ⟨"/tmp/portforge-upgrade-1", "agent.whl"⟩, (.ok () : Except Outside Unit)⟩,
      ⟨.rmtree "/tmp/portforge-upgrade-1", (.ok () : Except Outside Unit)⟩]

/-- The events where it fails, and the artifact cannot be removed. -/
def stoppedEvents : List Event :=
  installedEvents ++
    [⟨.restart, (.error (.other "no service") : Except Outside Unit)⟩,
      ⟨.report "7" "FAILED" (some "Restart failed: no service"), (.ok () : Except Outside Unit)⟩,
      ⟨.unlink ⟨"/tmp/portforge-upgrade-1", "agent.whl"⟩,
        (.error (.osError "Permission denied") : Except Outside Unit)⟩,
      ⟨.rmtree "/tmp/portforge-upgrade-1", (.ok () : Except Outside Unit)⟩]

theorem validatePayload_wheel :
    validatePayload plainLibrary wheelPayload "1.3.0" false = .ok () := by
  rfl

theorem runs_restarted :
    (runUpgrade plainLibrary wheelPayload "1.3.0" false).Runs restartedEvents (.ok true) := by
  rw [runUpgrade, validatePayload_wheel]
  exact .call _ (.call _ (.call _ (.call _ (.call _ (.call _ (.call _ (.call _ (.call _
    (.call _ (.call _ (.ret _)))))))))))

theorem runs_stopped :
    (runUpgrade plainLibrary wheelPayload "1.3.0" false).Runs stoppedEvents (.ok false) := by
  rw [runUpgrade, validatePayload_wheel]
  exact .call _ (.call _ (.call _ (.call _ (.call _ (.call _ (.call _ (.call _ (.call _
    (.call _ (.call _ (.call _ (.ret _))))))))))))

/-- An upgrade that installs its artifact keeps the law, whether the restart succeeds or
fails. -/
theorem traceLaw_iff_sample :
    TraceLaw plainLibrary wheelPayload "1.3.0" false restartedEvents (.ok true) ∧
      TraceLaw plainLibrary wheelPayload "1.3.0" false stoppedEvents (.ok false) := by
  have hreadable : ReadableUrl plainLibrary wheelPayload := by
    intro _ _ url hurl _
    cases hurl
    exact ⟨_, rfl⟩
  refine ⟨(traceLaw_iff runs_restarted).mpr ⟨hreadable, ?_⟩,
    (traceLaw_iff runs_stopped).mpr ⟨hreadable, ?_⟩⟩
  · simp [restartedEvents, installedEvents, Escapes]
  · have hunlink : ¬ Escapes ⟨.unlink ⟨"/tmp/portforge-upgrade-1", "agent.whl"⟩,
        (.error (.osError "Permission denied") : Except Outside Unit)⟩ := by
      rintro ⟨text, herror⟩
      cases herror
    simp only [stoppedEvents, installedEvents, List.cons_append, List.nil_append,
      List.forall_mem_cons]
    refine ⟨?_, ?_, ?_, ?_, ?_, ?_, ?_, ?_, ?_, ?_, hunlink, ?_, ?_⟩ <;> simp [Escapes]

end Agent.Upgrade
