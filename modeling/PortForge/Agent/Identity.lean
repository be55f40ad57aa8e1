/-
# The identity of a host

`get_or_create_host_identity` looks for the identity file, reads it where it is there, and
else generates an identity and renames a complete temporary file into place. Each write is
whole, but nothing keeps two calls from both finding no file: each then returns the identity
it generated itself. A call that checks while no other is creating returns what is stored.
-/

import PortForge.Effects.Threads
import PortForge.Central.Schema
import PortForge.Python.Value

namespace Agent.Identity

open Effects Python

/-- `HostIdentity`. -/
structure HostIdentity where
  hostId : String
  createdAt : ℤ
  hostnameAtCreation : String
  deriving DecidableEq

/-- The text of a file, by what `json.loads` makes of it. -/
inductive FileText
  | blank
  | malformed (error : String)
  | json (value : Value)

/-- An error of the operating system. -/
inductive OsError
  | permission
  | other (error : String)

/-- `HostIdentityError`, by the check that raises it. -/
inductive HostIdentityError
  | permissionDenied
  | unreadable (error : String)
  | malformed (error : String)
  | unexpectedShape
  | unsupportedSchema (found : Option Value)
  | malformedFields

/-- The exceptions of a call. -/
inductive IdentityFailure
  | identity (error : HostIdentityError)
  | os (error : OsError)

/-- The texts of the standard library: `uuid.UUID`, ISO 8601 and `str` of a value. -/
structure Formats where
  readUuid : String → Option String
  isoformat : ℤ → String
  fromisoformat : String → Option ℤ
  str : Value → String
  readUuid_text : ∀ uuid : Central.Uuid, readUuid uuid.text = some uuid.text
  fromisoformat_isoformat : ∀ time, fromisoformat (isoformat time) = some time
  str_str : ∀ text, str (.str text) = text

/-- The file steps of a call. -/
inductive IdentityOp
  | checkExists
  | readText
  | generate
  | writeTemporary (text : FileText)
  | replace
  | unlinkTemporary

/-- What a step answers. -/
@[reducible]
def IdentityOp.Answer : IdentityOp → Type
  | checkExists => Bool
  | readText => Except OsError FileText
  | generate => HostIdentity
  | writeTemporary _ => Option OsError
  | replace => Option OsError
  | unlinkTemporary => Unit

abbrev IdentityProgram := Program IdentityOp IdentityOp.Answer IdentityFailure

/-! ## The contents of the file -/

/-- `SCHEMA_VERSION`, as Python compares with it. -/
def isSchemaVersion : Option Value → Bool
  | some (.scalar (.int version)) => version = 1
  | some (.scalar (.bool version)) => version
  | some (.scalar (.other typeName text)) => typeName = "float" ∧ text = "1.0"
  | _ => false

/-- Whether Python takes a value for true. -/
def truthy : Value → Bool
  | .scalar .none => false
  | .scalar (.bool value) => value
  | .scalar (.int value) => value ≠ 0
  | .scalar (.str text) => text ≠ ""
  | .scalar (.other typeName text) => ¬ (typeName = "float" ∧ (text = "0.0" ∨ text = "-0.0"))
  | .list items => ¬ items.isEmpty
  | .dict items => ¬ items.isEmpty

/-- `_parse_datetime`. -/
def parseDatetime (F : Formats) : Value → Option ℤ
  | .scalar (.str text) => F.fromisoformat text
  | _ => none

/-- The identity in the fields of the file, where `load_host_identity` accepts them. -/
def parseFields (F : Formats) (data : List (Scalar × Value)) : Option HostIdentity := do
  let hostId ← F.readUuid (F.str (← get? data "host_id"))
  let createdAt ← parseDatetime F (← get? data "created_at")
  let hostname := ((get? data "hostname_at_creation").filter truthy).map F.str
  pure { hostId := hostId, createdAt := createdAt, hostnameAtCreation := hostname.getD "" }

/-- What `load_host_identity` makes of the text of the file. -/
def parseIdentity (F : Formats) : FileText → Except HostIdentityError (Option HostIdentity)
  | .blank => .ok none
  | .malformed error => .error (.malformed error)
  | .json (.dict data) =>
      if isSchemaVersion (get? data "schema_version") then
        match parseFields F data with
        | some identity => .ok (some identity)
        | none => .error .malformedFields
      else .error (.unsupportedSchema (get? data "schema_version"))
  | .json _ => .error .unexpectedShape

/-- The text `_save_host_identity` writes. -/
def payload (F : Formats) (identity : HostIdentity) : FileText :=
  .json (.dict
    [(.str "schema_version", .int 1), (.str "host_id", .str identity.hostId),
      (.str "created_at", .str (F.isoformat identity.createdAt)),
      (.str "hostname_at_creation", .str identity.hostnameAtCreation)])

/-- An identity whose id is a UUID is read back as it was written. -/
theorem parseIdentity_payload (F : Formats) {identity : HostIdentity}
    (huuid : F.readUuid identity.hostId = some identity.hostId) :
    parseIdentity F (payload F identity) = .ok (some identity) := by
  obtain ⟨hostId, createdAt, hostname⟩ := identity
  have hname : (((some (Value.str hostname)).filter truthy).map F.str).getD "" = hostname := by
    by_cases hempty : hostname = ""
    · subst hempty
      rfl
    · have htruthy : truthy (.str hostname) = true := by simpa [Value.str, truthy] using hempty
      rw [Option.filter_some, if_pos htruthy]
      exact F.str_str hostname
  have hfields : parseFields F
      [(.str "schema_version", .int 1), (.str "host_id", .str hostId),
        (.str "created_at", .str (F.isoformat createdAt)),
        (.str "hostname_at_creation", .str hostname)] =
          some ⟨hostId, createdAt, hostname⟩ := by
    have hcreated : parseDatetime F (.str (F.isoformat createdAt)) = some createdAt :=
      F.fromisoformat_isoformat createdAt
    simp only [parseFields, get?, List.find?, Option.bind_eq_bind, Option.map_some,
      Option.bind_some, F.str_str, Scalar.str.injEq, String.reduceEq, decide_true,
      decide_false, huuid, hcreated, hname, Option.pure_def]
  rw [payload, parseIdentity, hfields]
  rfl

/-! ## The calls -/

def checkExists : IdentityProgram Bool := .call .checkExists .ret

def readText : IdentityProgram (Except OsError FileText) := .call .readText .ret

def generate : IdentityProgram HostIdentity := .call .generate .ret

def writeTemporary (text : FileText) : IdentityProgram (Option OsError) :=
  .call (.writeTemporary text) .ret

def replace : IdentityProgram (Option OsError) := .call .replace .ret

def unlinkTemporary : IdentityProgram Unit := .call .unlinkTemporary .ret

/-- `load_host_identity`. -/
def loadHostIdentity (F : Formats) : IdentityProgram (Option HostIdentity) := do
  let found ← checkExists
  if found then
    match ← readText with
    | .ok text =>
        match parseIdentity F text with
        | .ok identity => .ret identity
        | .error error => .raise (.identity error)
    | .error .permission => .raise (.identity .permissionDenied)
    | .error (.other error) => .raise (.identity (.unreadable error))
  else .ret none

/-- `_save_host_identity`; a temporary file that is not renamed is removed. -/
def saveHostIdentity (F : Formats) (identity : HostIdentity) : IdentityProgram Unit := do
  match ← writeTemporary (payload F identity) with
  | some error =>
      unlinkTemporary
      .raise (.os error)
  | none =>
      match ← replace with
      | some error =>
          unlinkTemporary
          .raise (.os error)
      | none => .ret ()

/-- What a call does that has found no identity. -/
def createHostIdentity (F : Formats) : IdentityProgram HostIdentity := do
  let identity ← generate
  saveHostIdentity F identity
  .ret identity

/-- `get_or_create_host_identity`. -/
def getOrCreateHostIdentity (F : Formats) : IdentityProgram HostIdentity := do
  match ← loadHostIdentity F with
  | some identity => .ret identity
  | none => createHostIdentity F

/-! ## Calls at the same time -/

section Calls

variable {ι : Type} [DecidableEq ι]

/-- The identity file, and the temporary file of each call. -/
structure IdentityFiles (ι : Type) where
  file : Option FileText
  temporary : ι → Option FileText

/-- What each call generates: a fresh UUID, the time and the hostname. -/
structure Drawn where
  uuid : Central.Uuid
  now : ℤ
  hostname : String

def Drawn.identity (drawn : Drawn) : HostIdentity where
  hostId := drawn.uuid.text
  createdAt := drawn.now
  hostnameAtCreation := drawn.hostname

/-- What a step does to the files of a healthy disk. -/
def handle (drawn : ι → Drawn) :
    Handler ι IdentityOp IdentityOp.Answer (IdentityFiles ι)
  | _, .checkExists, files => (files.file.isSome, files)
  | _, .readText, files =>
      match files.file with
      | some text => (.ok text, files)
      | none => (.error (.other "No such file or directory"), files)
  | i, .generate, files => ((drawn i).identity, files)
  | i, .writeTemporary text, files =>
      (none, { files with temporary := Function.update files.temporary i (some text) })
  | i, .replace, files =>
      (none, { file := files.temporary i, temporary := Function.update files.temporary i none })
  | i, .unlinkTemporary, files =>
      ((), { files with temporary := Function.update files.temporary i none })

/-- Calls on one path. -/
abbrev Calls (ι : Type) : Type :=
  Threads ι IdentityOp IdentityOp.Answer IdentityFailure (IdentityFiles ι) HostIdentity

/-- The calls before their first step, where there is no file. -/
def beginning (F : Formats) : Calls ι :=
  .start { file := none, temporary := fun _ => none } fun _ => getOrCreateHostIdentity F

/-- A call that checks for the file finds it, or is the first to begin. -/
def findsOrBegins (τ : Calls ι) (i : ι) : Prop :=
  (∃ next, τ.program i = .call .checkExists next) → τ.state.file = none →
    ∀ j, j ≠ i → τ.history.count j = 0

variable {F : Formats} {drawn : ι → Drawn} {τ : Calls ι} {i k : ι}

/-! ## One identity -/

/-- What a call does that has found the file. -/
def readIdentity (F : Formats) : IdentityProgram HostIdentity :=
  .call .readText fun answer =>
    match answer with
    | .ok text =>
        match parseIdentity F text with
        | .ok (some identity) => .ret identity
        | .ok none => createHostIdentity F
        | .error error => .raise (.identity error)
    | .error .permission => .raise (.identity .permissionDenied)
    | .error (.other error) => .raise (.identity (.unreadable error))

/-- What a call does that has written its temporary file. -/
def replaceIdentity (identity : HostIdentity) : IdentityProgram HostIdentity :=
  .call .replace fun answer =>
    match answer with
    | some error => .call .unlinkTemporary fun _ => .raise (.os error)
    | none => .ret identity

/-- What a call does that has generated an identity. -/
def writeIdentity (F : Formats) (identity : HostIdentity) : IdentityProgram HostIdentity :=
  .call (.writeTemporary (payload F identity)) fun answer =>
    match answer with
    | some error => .call .unlinkTemporary fun _ => .raise (.os error)
    | none => replaceIdentity identity

theorem getOrCreateHostIdentity_eq (F : Formats) :
    getOrCreateHostIdentity F =
      .call .checkExists fun found => if found then readIdentity F else createHostIdentity F := by
  refine congrArg (Program.call IdentityOp.checkExists) (funext fun found => ?_)
  cases found with
  | false => rfl
  | true =>
      refine congrArg (Program.call IdentityOp.readText) (funext fun answer => ?_)
      match answer with
      | .error .permission => rfl
      | .error (.other error) => rfl
      | .ok text =>
          simp only [Program.bind]
          match parseIdentity F text with
          | .ok (some identity) => rfl
          | .ok none => rfl
          | .error error => rfl

theorem createHostIdentity_eq (F : Formats) :
    createHostIdentity F = .call .generate fun identity => writeIdentity F identity := by
  refine congrArg (Program.call IdentityOp.generate) (funext fun identity => ?_)
  refine congrArg (Program.call (IdentityOp.writeTemporary (payload F identity)))
    (funext fun answer => ?_)
  match answer with
  | some error => rfl
  | none =>
      refine congrArg (Program.call IdentityOp.replace) (funext fun answer => ?_)
      cases answer <;> rfl

/-- Where a call stands after `n` steps, beside the file and its own temporary file. -/
inductive Stage (F : Formats) (drawn : Drawn) (file temporary : Option FileText) (n : ℕ)
    (p : IdentityProgram HostIdentity) : Prop
  | waiting (hn : n = 0) (hp : p = getOrCreateHostIdentity F)
  | reading (hn : n = 1) (hp : p = readIdentity F) (hfile : file ≠ none)
  | generating (hn : n = 1) (hp : p = createHostIdentity F) (hfile : file = none)
  | writing (hn : n = 2) (hp : p = writeIdentity F drawn.identity) (hfile : file = none)
  | replacing (hn : n = 3) (hp : p = replaceIdentity drawn.identity) (hfile : file = none)
      (htemporary : temporary = some (payload F drawn.identity))
  | returned (hn : n ≠ 0) (identity : HostIdentity) (hp : p = .ret identity)
      (hfile : file = some (payload F identity))
      (huuid : F.readUuid identity.hostId = some identity.hostId)

/-- A call that is over has returned what is in the file. -/
theorem Stage.of_ended {drawn : Drawn} {file temporary : Option FileText} {n : ℕ}
    {p : IdentityProgram HostIdentity} (h : Stage F drawn file temporary n p)
    (hended : ∀ op next, p ≠ .call op next) :
    ∃ identity, p = .ret identity ∧ file = some (payload F identity) ∧
      F.readUuid identity.hostId = some identity.hostId := by
  cases h with
  | waiting hn hp => exact (hended _ _ (hp.trans (getOrCreateHostIdentity_eq F))).elim
  | reading hn hp | writing hn hp | replacing hn hp => exact (hended _ _ hp).elim
  | generating hn hp => exact (hended _ _ (hp.trans (createHostIdentity_eq F))).elim
  | returned hn identity hp hfile huuid => exact ⟨identity, hp, hfile, huuid⟩

/-- What a call returns is in the file. -/
theorem Stage.parse_of_ret {drawn : Drawn} {file temporary : Option FileText} {n : ℕ}
    {p : IdentityProgram HostIdentity} {identity : HostIdentity}
    (h : Stage F drawn file temporary n p) (hret : p = .ret identity) :
    ∃ text, file = some text ∧ parseIdentity F text = .ok (some identity) := by
  subst hret
  obtain ⟨_, hp, hfile, huuid⟩ := h.of_ended fun _ _ hcall => by cases hcall
  cases hp
  exact ⟨_, hfile, parseIdentity_payload F huuid⟩

theorem Stage.not_raise {drawn : Drawn} {file temporary : Option FileText} {n : ℕ}
    {failure : IdentityFailure} : ¬ Stage F drawn file temporary n (.raise failure) := by
  intro h
  obtain ⟨_, hp, -⟩ := h.of_ended fun _ _ hcall => by cases hcall
  cases hp

/-- Every call is at its stage, the file holds an identity once it is there, and as long as it
is not, one call at most has begun. -/
structure Orderly (F : Formats) (drawn : ι → Drawn) (τ : Calls ι) : Prop where
  stages : ∀ i, Stage F (drawn i) τ.state.file (τ.state.temporary i) (τ.history.count i)
    (τ.program i)
  stored : ∀ text, τ.state.file = some text →
    ∃ identity, text = payload F identity ∧ F.readUuid identity.hostId = some identity.hostId
  alone : τ.state.file = none → ∀ i j, j ≠ i → τ.history.count i ≠ 0 → τ.history.count j = 0

theorem orderly_beginning (F : Formats) (drawn : ι → Drawn) :
    Orderly F drawn (beginning F) where
  stages _ := .waiting rfl rfl
  stored _ h := by cases h
  alone _ _ _ _ h := (h rfl).elim

theorem Drawn.readUuid_identity (F : Formats) (drawn : Drawn) :
    F.readUuid drawn.identity.hostId = some drawn.identity.hostId :=
  F.readUuid_text drawn.uuid

/-- One step of a call: it reaches its next stage, and leaves the file or, as the creator, puts
its identity there. -/
theorem Orderly.advance (h : Orderly F drawn τ) :
    Stage F (drawn k) (τ.move (handle drawn) k).state.file
        ((τ.move (handle drawn) k).state.temporary k) (τ.history.count k + 1)
        ((τ.move (handle drawn) k).program k) ∧
      (∀ i, i ≠ k → (τ.move (handle drawn) k).state.temporary i = τ.state.temporary i) ∧
      ((τ.move (handle drawn) k).state.file = τ.state.file ∨
        τ.state.file = none ∧ τ.history.count k ≠ 0 ∧
          (τ.move (handle drawn) k).state.file = some (payload F (drawn k).identity)) := by
  cases h.stages k with
  | waiting hn hp =>
      rw [getOrCreateHostIdentity_eq] at hp
      obtain ⟨hprogram, hstate⟩ := Threads.move_of_call (handle drawn) hp
      rw [hprogram, hstate]
      refine ⟨?_, fun _ _ => rfl, .inl rfl⟩
      cases hfile : τ.state.file with
      | none => exact .generating (by rw [hn]) (by simp [handle, hfile]) hfile
      | some text =>
          exact .reading (by rw [hn]) (by simp [handle, hfile]) (by simp [handle, hfile])
  | reading hn hp hfile =>
      obtain ⟨text, htext⟩ := Option.ne_none_iff_exists'.mp hfile
      obtain ⟨identity, rfl, huuid⟩ := h.stored text htext
      obtain ⟨hprogram, hstate⟩ := Threads.move_of_call (handle drawn) hp
      have hsame : (τ.move (handle drawn) k).state = τ.state := by
        rw [hstate]
        simp [handle, htext]
      rw [hsame]
      refine ⟨.returned (Nat.succ_ne_zero _) identity ?_ htext huuid, fun _ _ => rfl, .inl rfl⟩
      rw [hprogram]
      simp only [handle, htext, parseIdentity_payload F huuid]
  | generating hn hp hfile =>
      rw [createHostIdentity_eq] at hp
      obtain ⟨hprogram, hstate⟩ := Threads.move_of_call (handle drawn) hp
      rw [hprogram, hstate]
      exact ⟨.writing (by rw [hn]) rfl hfile, fun _ _ => rfl, .inl rfl⟩
  | writing hn hp hfile =>
      obtain ⟨hprogram, hstate⟩ := Threads.move_of_call (handle drawn) hp
      rw [hprogram, hstate]
      exact ⟨.replacing (by rw [hn]) rfl hfile (by simp [handle]),
        fun i hi => Function.update_of_ne hi _ _, .inl rfl⟩
  | replacing hn hp hfile htemporary =>
      obtain ⟨hprogram, hstate⟩ := Threads.move_of_call (handle drawn) hp
      rw [hprogram, hstate]
      exact ⟨.returned (Nat.succ_ne_zero _) _ rfl htemporary ((drawn k).readUuid_identity F),
        fun i hi => Function.update_of_ne hi _ _, .inr ⟨hfile, by simp [hn], htemporary⟩⟩
  | returned hn identity hp hfile huuid =>
      obtain ⟨hprogram, hstate⟩ := Threads.move_of_ret (handle drawn) hp
      rw [hprogram, hstate]
      exact ⟨.returned (Nat.succ_ne_zero _) identity hp hfile huuid, fun _ _ => rfl, .inl rfl⟩

theorem Orderly.move (h : Orderly F drawn τ) (hallowed : findsOrBegins τ k) :
    Orderly F drawn (τ.move (handle drawn) k) := by
  obtain ⟨hstage, htemporary, hfile⟩ := h.advance (k := k)
  have hself : (τ.move (handle drawn) k).history.count k = τ.history.count k + 1 := by simp
  have hother (i : ι) (hi : i ≠ k) :
      (τ.move (handle drawn) k).history.count i = τ.history.count i := by
    simp [List.count_append, Ne.symm hi]
  -- As long as there is no file, nobody else has begun.
  have hidle (hnone : τ.state.file = none) (j : ι) (hj : j ≠ k) : τ.history.count j = 0 := by
    by_cases hbegun : τ.history.count k = 0
    · refine hallowed ?_ hnone j hj
      cases h.stages k with
      | waiting hn hp => exact ⟨_, hp.trans (getOrCreateHostIdentity_eq F)⟩
      | reading hn | generating hn | writing hn | replacing hn => simp [hn] at hbegun
      | returned hn => exact (hn hbegun).elim
    · exact h.alone hnone k j hj hbegun
  refine ⟨fun i => ?_, fun text htext => ?_, fun hnone i j hij hbegun => ?_⟩
  · by_cases hik : i = k
    · rw [hik, hself]
      exact hstage
    · rw [hother i hik, htemporary i hik, Threads.move_program_of_ne hik]
      rcases hfile with hsame | ⟨hnone, -⟩
      · rw [hsame]
        exact h.stages i
      · cases h.stages i with
        | waiting hn hp => exact .waiting hn hp
        | reading hn | generating hn | writing hn | replacing hn => simp [hidle hnone i hik] at hn
        | returned hn => exact (hn (hidle hnone i hik)).elim
  · rcases hfile with hsame | ⟨-, -, hcreated⟩
    · exact h.stored text (hsame ▸ htext)
    · rw [hcreated] at htext
      exact ⟨_, (Option.some.inj htext).symm, (drawn k).readUuid_identity F⟩
  · have hbefore : τ.state.file = none := by
      rcases hfile with hsame | ⟨-, -, hcreated⟩
      · rw [← hsame, hnone]
      · cases hnone.symm.trans hcreated
    by_cases hik : i = k
    · subst hik
      rw [hother j hij]
      exact hidle hbefore j hij
    · rw [hother i hik] at hbegun
      exact (hbegun (hidle hbefore i hik)).elim

/-- Calls on one path share one identity. In every run from an absent file in which each call that
checks for the file finds it or is the first to begin, a call returns within four steps, what it
returns is what the file holds, and any two calls return the same UUID. -/
theorem one_identity (F : Formats) (drawn : ι → Drawn)
    (hreach : Threads.Reachable (handle drawn) findsOrBegins (beginning F) τ) :
    (∀ i, 4 ≤ τ.history.count i → ∃ identity, τ.program i = .ret identity) ∧
      (∀ i failure, τ.program i ≠ .raise failure) ∧
      (∀ i identity, τ.program i = .ret identity →
        ∃ text, τ.state.file = some text ∧ parseIdentity F text = .ok (some identity)) ∧
      ∀ i j first second, τ.program i = .ret first → τ.program j = .ret second →
        first.hostId = second.hostId := by
  have horderly : Orderly F drawn τ :=
    hreach.invariant (orderly_beginning F drawn) fun _ _ h hallowed => h.move hallowed
  have hstored := fun i identity (hi : τ.program i = .ret identity) =>
    (horderly.stages i).parse_of_ret hi
  refine ⟨fun i hi => ?_, fun i failure hi => ?_, hstored, fun i j first second hi hj => ?_⟩
  · cases horderly.stages i with
    | waiting hn | reading hn | generating hn | writing hn | replacing hn => omega
    | returned hn identity hp => exact ⟨identity, hp⟩
  · exact Stage.not_raise (hi ▸ horderly.stages i)
  · obtain ⟨text, htext, hfirst⟩ := hstored i first hi
    obtain ⟨text', htext', hsecond⟩ := hstored j second hj
    obtain rfl := Option.some.inj (htext.symm.trans htext')
    cases hfirst.symm.trans hsecond
    rfl

end Calls

/-! ## Two creators -/

/-- Formats that write the epoch as Python does, and any other time by counting. -/
def sampleFormats : Formats where
  readUuid := some
  isoformat time :=
    if time = 0 then "1970-01-01T00:00:00+00:00"
    else String.ofList (List.replicate time.natAbs (if time < 0 then '-' else '+'))
  fromisoformat text :=
    if text = "1970-01-01T00:00:00+00:00" then some 0
    else some (if text.toList.head? = some '-' then -text.toList.length else text.toList.length)
  str
    | .scalar (.str text) => text
    | _ => ""
  readUuid_text _ := rfl
  fromisoformat_isoformat time := by
    by_cases hzero : time = 0
    · rw [if_pos hzero, if_pos rfl, hzero]
    · obtain ⟨n, hn⟩ := Nat.exists_eq_succ_of_ne_zero (Int.natAbs_ne_zero.mpr hzero)
      rw [if_neg hzero, if_neg, hn]
      · by_cases hneg : time < 0 <;> simp [hneg, List.replicate_succ] <;> omega
      · intro hsame
        have hhead := congrArg (fun text => text.toList.head?) hsame
        rw [hn] at hhead
        by_cases hneg : time < 0 <;> simp [hneg, List.replicate_succ] at hhead
  str_str _ := rfl

/-- Two calls, each with a UUID of its own. -/
def sampleDrawn (i : Bool) : Drawn where
  uuid := if i then ⟨2⟩ else ⟨1⟩
  now := 0
  hostname := "box"

/-- The second call begins once the first has its file in place. -/
theorem one_identity_sample :
    let τ := (beginning sampleFormats).play (handle sampleDrawn)
      [false, false, false, false, true, true]
    τ.program true = .ret (sampleDrawn false).identity ∧
      ∃ text, τ.state.file = some text ∧
        parseIdentity sampleFormats text = .ok (some (sampleDrawn false).identity) := by
  have hreach : Threads.Reachable (handle sampleDrawn) findsOrBegins (beginning sampleFormats)
      ((beginning sampleFormats).play (handle sampleDrawn)
        [false, false, false, false, true, true]) := by
    refine .step true (.step true (.step false (.step false (.step false (.step false .start
      fun _ _ _ _ => rfl) ?_) ?_) ?_) fun _ hnone => ?_) ?_
    · rintro ⟨next, hnext⟩
      cases hnext
    · rintro ⟨next, hnext⟩
      cases hnext
    · rintro ⟨next, hnext⟩
      cases hnext
    · cases hnone
    · rintro ⟨next, hnext⟩
      cases hnext
  have hreturned : ((beginning sampleFormats).play (handle sampleDrawn)
      [false, false, false, false, true, true]).program true =
        .ret (sampleDrawn false).identity := rfl
  exact ⟨hreturned, (one_identity sampleFormats sampleDrawn hreach).2.2.1 true _ hreturned⟩

/-- Both calls check before either has its file in place: they return two identities. -/
theorem two_identities :
    ∃ τ : Calls Bool, Threads.Reachable (handle sampleDrawn) Threads.anyOrder
        (beginning sampleFormats) τ ∧
      ∃ first second, τ.program false = .ret first ∧ τ.program true = .ret second ∧
        first.hostId ≠ second.hostId := by
  have hreach : Threads.Reachable (handle sampleDrawn) Threads.anyOrder (beginning sampleFormats)
      ((beginning sampleFormats).play (handle sampleDrawn)
        [false, true, false, false, false, true, true, true]) :=
    .of_play .start fun _ _ _ _ => trivial
  exact ⟨_, hreach, _, _, rfl, rfl, by decide⟩

end Agent.Identity
