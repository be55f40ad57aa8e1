/-
# How the agent saves its files

Configuration files, the daemon's state, the credential, the host's identity, the settings for
Central and the reservations are saved in one way: the content goes to a file of its own beside the
target, which is synchronized, closed and then moved over the target. A save that fails removes its
file and raises. Other modules take a save for one step that happens or fails; here is what that
rests on, for any saves at the same time, and with losses of power.
-/

import PortForge.Effects.Placement
import PortForge.Python.Paths

namespace Agent.Saving

open Python Effects

/-! ## The functions that save -/

/-- `OSError`: whether it is a `PermissionError`, and its text. -/
structure OsError where
  permission : Bool
  text : String

/-- What a save raises. -/
inductive SaveError
  | osError (error : OsError)
  | reservationStorage (message : String)

/-- A part of a save. -/
abbrev Task (α : Type) : Type :=
  Program (PlaceOp String PurePath UInt8) (PlaceOp.Answer OsError) SaveError α

/-- An operation whose failure is raised. -/
def must (wrap : OsError → SaveError) (op : PlaceOp String PurePath UInt8) : Task op.Value :=
  .call op fun (answer : Except OsError op.Value) => Program.ofExcept (answer.mapError wrap)

/-- What the failures of a save become: of the directory, of the new file, and of what follows. -/
structure SaveErrors where
  onMkdir : OsError → SaveError
  onMkstemp : OsError → SaveError
  onWrite : OsError → SaveError

/-- The block under `with os.fdopen(...)`, which closes the file however it ends. -/
def writeTemp (wrap : OsError → SaveError) (temp : String) (content : List UInt8) : Task Unit :=
  (must wrap (.handle temp .fdopen)).bind fun _ =>
    ((must wrap (.handle temp (.write content))).bind fun _ =>
      (must wrap (.handle temp .flush)).bind fun _ =>
        must wrap (.handle temp .fsync)).ensuring
      (must wrap (.handle temp .close))

/-- The block under `try`. -/
def replaceTarget (wrap : OsError → SaveError) (restrict : Bool) (temp : String) (path : PurePath)
    (content : List UInt8) : Task Unit :=
  (writeTemp wrap temp content).bind fun _ =>
    (if restrict then must wrap (.handle temp .chmod) else .ret ()).bind fun _ =>
      must wrap (.replace temp path)

/-- `except OSError`: the file is removed, and only the error of the block is raised. -/
def cleanUp (temp : String) (outcome : Except SaveError Unit) : Task Unit :=
  match outcome with
  | .ok _ => .ret ()
  | .error error => .call (.unlink temp) fun _ => .raise error

/-- The way in which all the files are saved. -/
def replaceFile (errors : SaveErrors) (stem : String) (restrict : Bool) (path : PurePath)
    (content : List UInt8) : Task Unit :=
  (must errors.onMkdir (.mkdir path)).bind fun _ =>
    (must errors.onMkstemp (.mkstemp stem path)).bind fun temp =>
      (replaceTarget errors.onWrite restrict temp path content).attempt.bind (cleanUp temp)

/-- The system's own errors. -/
def osErrors : SaveErrors := ⟨.osError, .osError, .osError⟩

/-- The errors of `ReservationStore.save`. -/
def storageErrors (path : PurePath) : SaveErrors where
  onMkdir error :=
    let directory := path.parent.text
    let cause := error.text
    .reservationStorage s!"Could not create reservation directory {directory}: {cause}"
  onMkstemp error :=
    let target := path.text
    let cause := error.text
    .reservationStorage s!"Could not create temp file for {target}: {cause}"
  onWrite error :=
    let target := path.text
    let cause := error.text
    if error.permission then .reservationStorage s!"Permission denied writing {target}: {cause}"
    else .reservationStorage s!"Failed to write {target}: {cause}"

/-- `atomic_write`. -/
def atomicWrite (path : PurePath) (content : List UInt8) : Task Unit :=
  replaceFile osErrors ".portforge-config-" false path content

/-- `save_state`, with the bytes of its JSON text. -/
def saveState (path : PurePath) (payload : List UInt8) : Task Unit :=
  replaceFile osErrors ".state-" false path payload

/-- `save_credential`, which restricts the file to its owner except on Windows. -/
def saveCredential (windows : Bool) (path : PurePath) (payload : List UInt8) : Task Unit :=
  replaceFile osErrors ".cred-" (!windows) path payload

/-- `_save_host_identity`. -/
def saveHostIdentity (path : PurePath) (payload : List UInt8) : Task Unit :=
  replaceFile osErrors ".host-" false path payload

/-- `save_central_config`. -/
def saveCentralConfig (path : PurePath) (payload : List UInt8) : Task Unit :=
  replaceFile osErrors ".central-" false path payload

/-- `ReservationStore.save`. -/
def saveReservations (path : PurePath) (payload : List UInt8) : Task Unit :=
  replaceFile (storageErrors path) ".reservations-" false path payload

/-- The functions. -/
inductive SaveFunction
  | atomicWrite
  | saveState
  | saveCredential (windows : Bool)
  | saveHostIdentity
  | saveCentralConfig
  | saveReservations

/-- A call of one of them, with the path and the bytes that it gets. -/
structure SaveCall where
  function : SaveFunction
  path : PurePath
  payload : List UInt8

def SaveCall.program (call : SaveCall) : Task Unit :=
  match call.function with
  | .atomicWrite => Saving.atomicWrite call.path call.payload
  | .saveState => Saving.saveState call.path call.payload
  | .saveCredential windows => Saving.saveCredential windows call.path call.payload
  | .saveHostIdentity => Saving.saveHostIdentity call.path call.payload
  | .saveCentralConfig => Saving.saveCentralConfig call.path call.payload
  | .saveReservations => Saving.saveReservations call.path call.payload

def SaveCall.goal (call : SaveCall) : Goal PurePath UInt8 := ⟨call.path, call.payload⟩

/-! ## A save keeps to its own file -/

section Keeping

variable {goal : Goal PurePath UInt8} {hold : Hold String UInt8} {temp stem : String}
  {wrap : OsError → SaveError} {path : PurePath} {content : List UInt8}

/-- Where a save returns, its file is in place. -/
def Done (hold : Hold String UInt8) (_ : Unit) : Prop := hold = .placed

/-- Where a save raises, it has no file, or one it could not remove. -/
def Failed (hold : Hold String UInt8) (_ : SaveError) : Prop :=
  hold = .nothing ∨ ∃ temp, hold = .left temp

/-- A part of a save after which the file is still the save's own. -/
def Owns (temp : String) (hold : Hold String UInt8) : Prop := ∃ f, hold = .own temp f

theorem keeps_must {op : PlaceOp String PurePath UInt8} {post : Hold String UInt8 → op.Value → Prop}
    {fails : Hold String UInt8 → SaveError → Prop} (hallows : Hold.Allows goal op hold)
    (hpost : ∀ value later,
      Hold.After op (.ok value : Except OsError op.Value) hold later → post later value)
    (hfails : ∀ error later,
      Hold.After op (.error error : Except OsError op.Value) hold later →
        fails later (wrap error)) :
    (must wrap op).Keeps goal post fails hold := by
  refine ⟨hallows, fun answer later hafter => ?_⟩
  cases answer with
  | ok value => exact hpost value later hafter
  | error error => exact hfails error later hafter

/-- An operation on the file object leaves the file the save's own, as the operation says. -/
theorem keeps_handle (op : HandleOp UInt8) (f : File UInt8) (state : File UInt8 → Prop)
    (hop : ∀ f', op.After (.ok () : Except OsError Unit) f f' → state f') :
    (must wrap (.handle temp op)).Keeps goal (fun later _ => ∃ f', later = .own temp f' ∧ state f')
      (fun later _ => Owns temp later) (.own temp f) := by
  refine keeps_must ⟨f, rfl⟩ ?_ ?_
  · rintro _ later ⟨_, f', hf, hafter, rfl⟩
    cases hf
    exact ⟨f', rfl, hop f' hafter⟩
  · rintro error later ⟨_, f', hf, -, rfl⟩
    cases hf
    exact ⟨f', rfl⟩

/-- Under `with` the content is written, synchronized and closed, or something has failed. -/
theorem keeps_writeTemp :
    (writeTemp wrap temp content).Keeps goal (fun later _ => later = .own temp (.stored content))
      (fun later _ => Owns temp later) (.own temp ⟨[], [], false⟩) := by
  rw [writeTemp, Program.keeps_bind]
  refine (keeps_handle .fdopen ⟨[], [], false⟩ (· = ⟨[], [], false⟩) fun f' hf' => hf').mono ?_
    fun _ _ => id
  rintro _ _ ⟨_, rfl, rfl⟩
  rw [Program.ensuring, Program.keeps_bind, Program.keeps_attempt]
  have hwritten : ((must wrap (.handle temp (.write content))).bind fun _ =>
      (must wrap (.handle temp .flush)).bind fun _ =>
        must wrap (.handle temp .fsync)).Keeps goal
      (fun later _ => ∃ f, later = .own temp f ∧ f = .stored content)
      (fun later _ => Owns temp later) (.own temp ⟨[], [], false⟩) := by
    rw [Program.keeps_bind]
    refine (keeps_handle (.write content) ⟨[], [], false⟩ (fun f' => f'.written = content)
      fun f' hf' => hf'.written).mono ?_ fun _ _ => id
    rintro _ _ ⟨f, rfl, hf⟩
    rw [Program.keeps_bind]
    refine (keeps_handle .flush f (fun f' => f'.written = content ∧ f'.content = content)
      fun f' hf' => ⟨hf'.1.written.trans hf, (hf'.2 rfl).trans hf⟩).mono ?_ fun _ _ => id
    rintro _ _ ⟨g, rfl, hwritten, hcontent⟩
    refine keeps_handle .fsync g _ fun f' hf' => ?_
    obtain rfl : f' = { g with synced := true } := hf'
    rw [File.stored, hwritten, hcontent]
  refine hwritten.mono ?_ ?_
  · rintro _ _ ⟨_, rfl, rfl⟩
    rw [Program.keeps_bind]
    refine (keeps_handle .close (.stored content) (· = .stored content)
      fun f' hf' => hf'.1.eq_stored).mono ?_ fun _ _ => id
    rintro _ _ ⟨_, rfl, rfl⟩
    exact rfl
  · rintro _ error ⟨f, rfl⟩
    rw [Program.keeps_bind]
    refine (keeps_handle .close f (fun _ => True) fun _ _ => trivial).mono ?_ fun _ _ => id
    rintro _ _ ⟨f', rfl, -⟩
    exact ⟨f', rfl⟩

/-- Under `try` the file comes into place, or something has failed and it is still there. -/
theorem keeps_replaceTarget {restrict : Bool} :
    (replaceTarget wrap restrict temp path content).Keeps ⟨path, content⟩ Done
      (fun later _ => Owns temp later) (.own temp ⟨[], [], false⟩) := by
  rw [replaceTarget, Program.keeps_bind]
  refine keeps_writeTemp.mono ?_ fun _ _ => id
  rintro _ _ rfl
  rw [Program.keeps_bind]
  have hrestricted :
      (if restrict then must wrap (.handle temp .chmod) else .ret () : Task Unit).Keeps
        ⟨path, content⟩ (fun later _ => ∃ f, later = .own temp f ∧ f = .stored content)
        (fun later _ => Owns temp later) (.own temp (.stored content)) := by
    split
    · exact keeps_handle .chmod _ _ fun f' hf' => hf'
    · exact ⟨_, rfl, rfl⟩
  refine hrestricted.mono ?_ fun _ _ => id
  rintro _ _ ⟨_, rfl, rfl⟩
  refine keeps_must ⟨rfl, rfl⟩ (fun _ _ hlater => hlater) ?_
  rintro _ _ rfl
  exact ⟨_, rfl⟩

theorem keeps_replaceFile (errors : SaveErrors) (stem : String) (restrict : Bool) (path : PurePath)
    (content : List UInt8) :
    (replaceFile errors stem restrict path content).Keeps ⟨path, content⟩ Done Failed .nothing := by
  rw [replaceFile, Program.keeps_bind]
  refine keeps_must rfl ?_ ?_
  · rintro _ _ rfl
    rw [Program.keeps_bind]
    refine keeps_must rfl ?_ ?_
    · rintro temp _ rfl
      rw [Program.keeps_bind, Program.keeps_attempt]
      refine keeps_replaceTarget.mono (fun _ _ hdone => hdone) ?_
      rintro _ error ⟨f, rfl⟩
      refine ⟨⟨f, rfl⟩, fun answer later hafter => ?_⟩
      cases answer with
      | ok value => exact .inl hafter
      | error failure => exact .inr ⟨temp, hafter⟩
    · rintro _ _ rfl
      exact .inl rfl
  · rintro _ _ rfl
    exact .inl rfl

theorem keeps_program (call : SaveCall) : call.program.Keeps call.goal Done Failed .nothing := by
  obtain ⟨function, path, payload⟩ := call
  cases function <;> exact keeps_replaceFile _ _ _ _ _

end Keeping

/-! ## Saves at the same time -/

section Runs

variable {ι : Type} [DecidableEq ι] {calls : ι → SaveCall}
  {old : String → Option (File UInt8)} {contents : PurePath → Option (List UInt8)}
  {s : Writers ι String PurePath UInt8 OsError SaveError Unit}

/-- Whatever the order of the saves, whichever of their operations fail, whichever of them are
killed, and wherever the power is lost: each target has all of its first content or all of what a
save was given that has moved its file there. A save that returns is one of these, a save that
raises is not, and none comes twice. Unless the power was lost the targets have the contents they
would have if these saves had been made at once, one after another. -/
theorem saves_atomic
    (h : Writers.Reaches (Writers.start old contents fun i => (calls i).program) s) :
    (∀ path, s.tree.places path = (contents path).map File.stored ∨
      ∃ i ∈ placements s.trace, (calls i).path = path ∧
        s.tree.places path = some (.stored (calls i).payload)) ∧
    (placements s.trace).Nodup ∧
    (∀ i, (∀ value, s.program i = .ret value → i ∈ placements s.trace) ∧
      ∀ error, s.program i = .raise error → i ∉ placements s.trace) ∧
    ((∀ i, ¬ s.stopped i) → ∀ path, s.tree.places path =
      (Writers.contentsAfter (fun i => (calls i).goal) contents (placements s.trace) path).map
        File.stored) := by
  obtain ⟨hold, hsound⟩ := h.sound fun i => keeps_program (calls i)
  refine ⟨fun path => hsound.whole path _ List.mem_cons_self, hsound.once,
    fun i => ⟨fun value hvalue => ?_, fun error herror hmem => ?_⟩, hsound.places⟩
  · have hdone := hsound.program i
    rw [hvalue] at hdone
    exact (hsound.placed i).mpr hdone
  · have hfailed := hsound.program i
    rw [herror, (hsound.placed i).mp hmem] at hfailed
    rcases hfailed with hnothing | ⟨temp, hleft⟩
    · cases hnothing
    · cases hleft

/-- Each temporary file was there before, or is that of a save that is not over, that was stopped by
a loss of power, or that failed and could not remove it. -/
theorem temporaries_accounted
    (h : Writers.Reaches (Writers.start old contents fun i => (calls i).program) s) (temp : String)
    (htemp : s.tree.temps temp ≠ none) :
    old temp ≠ none ∨ ∃ i, Writers.Made s.trace i temp ∧
      (s.stopped i ∨ (∃ op next, s.program i = .call op next) ∨
        (∃ error, s.program i = .raise error) ∧
          ∃ error, (i, (⟨.unlink temp, .error error⟩ : PlaceEvent OsError String PurePath UInt8)) ∈
            s.trace) := by
  obtain ⟨hold, hsound⟩ := h.sound fun i => keeps_program (calls i)
  refine (hsound.temps temp htemp).imp_right ?_
  rintro ⟨i, hmade, hstate⟩
  refine ⟨i, hmade, hstate.imp_right fun howned => ?_⟩
  have hkeeps := hsound.program i
  cases hprogram : s.program i with
  | call op next => exact .inl ⟨op, next, rfl⟩
  | ret value =>
      rw [hprogram] at hkeeps
      have hplaced : hold i = .placed := hkeeps
      rcases howned with ⟨f, hown⟩ | hleft
      · rw [hplaced] at hown
        cases hown
      · rw [hplaced] at hleft
        cases hleft
  | raise error =>
      rw [hprogram] at hkeeps
      rcases howned with ⟨f, hown⟩ | hleft
      · rw [hown] at hkeeps
        rcases hkeeps with hnothing | ⟨other, hother⟩
        · cases hnothing
        · cases hother
      · exact .inr ⟨⟨error, rfl⟩, hsound.left i temp hleft⟩

end Runs

section Sample

/-- Two versions of one configuration file, saved at the same time. -/
def sampleCalls (second : Bool) : SaveCall :=
  ⟨.atomicWrite, ⟨"/", ["app", ".env"]⟩, if second then [80, 61, 50] else [80, 61, 49]⟩

def sampleStart : Writers Bool String PurePath UInt8 OsError SaveError Unit :=
  Writers.start (fun _ => none) (fun _ => some [80]) fun i => (sampleCalls i).program

/-- The first save is over when the power is lost, and of the second only a part has arrived. -/
theorem sample_reached : ∃ s, Writers.Reaches sampleStart s ∧ s.program false = .ret () ∧
    s.tree.temps ".portforge-config-1.tmp" = some ⟨[80, 61], [80, 61, 50], false⟩ ∧
    s.stopped true := by
  have hstart : Writers.Reaches sampleStart sampleStart := .start
  have hmkdir := hstart.perform true id rfl (.ok ()) _ rfl
  have hmade := hmkdir.perform true id rfl (.ok ".portforge-config-1.tmp") _ ⟨rfl, rfl⟩
  have hopened := hmade.perform true id rfl (.ok ()) _ ⟨_, rfl, rfl⟩
  have htorn := hopened.perform true id rfl (.ok ()) _
    ⟨⟨[80, 61], [80, 61, 50], false⟩, ⟨rfl, by decide, by decide, by decide⟩, rfl⟩
  have hmkdir := htorn.perform false id rfl (.ok ()) _ rfl
  have hmade := hmkdir.perform false id rfl (.ok ".portforge-config-0.tmp") _ ⟨rfl, rfl⟩
  have hopened := hmade.perform false id rfl (.ok ()) _ ⟨_, rfl, rfl⟩
  have hwritten := hopened.perform false id rfl (.ok ()) _
    ⟨⟨[], [80, 61, 49], false⟩, ⟨rfl, by decide, by decide, by decide⟩, rfl⟩
  have hflushed := hwritten.perform false id rfl (.ok ()) _
    ⟨⟨[80, 61, 49], [80, 61, 49], false⟩,
      ⟨⟨rfl, by decide, by decide, by decide⟩, fun _ => rfl⟩, rfl⟩
  have hsynced := hflushed.perform false id rfl (.ok ()) _ ⟨_, rfl, rfl⟩
  have hclosed := hsynced.perform false id rfl (.ok ()) _
    ⟨⟨[80, 61, 49], [80, 61, 49], true⟩,
      ⟨⟨rfl, by decide, by decide, by decide⟩, fun _ => rfl⟩, rfl⟩
  have hplaced := hclosed.perform false id rfl (.ok ()) _ ⟨_, rfl, rfl⟩
  exact ⟨_, hplaced.powerLoss_recorded, rfl, rfl, _, List.mem_cons_self⟩

theorem saves_atomic_sample : ∃ s, Writers.Reaches sampleStart s ∧
    s.tree.temps ".portforge-config-1.tmp" = some ⟨[80, 61], [80, 61, 50], false⟩ ∧
    false ∈ placements s.trace ∧
    (s.tree.places ⟨"/", ["app", ".env"]⟩ = some (.stored [80]) ∨
      ∃ i ∈ placements s.trace, (sampleCalls i).path = ⟨"/", ["app", ".env"]⟩ ∧
        s.tree.places ⟨"/", ["app", ".env"]⟩ = some (.stored (sampleCalls i).payload)) := by
  obtain ⟨s, h, hreturned, htorn, -⟩ := sample_reached
  obtain ⟨hwhole, -, hended, -⟩ :=
    @saves_atomic Bool _ sampleCalls (fun _ => none) (fun _ => some [80]) s h
  exact ⟨s, h, htorn, (hended false).1 () hreturned, hwhole _⟩

theorem temporaries_accounted_sample : ∃ s, Writers.Reaches sampleStart s ∧
    ∃ i, Writers.Made s.trace i ".portforge-config-1.tmp" ∧
      (s.stopped i ∨ (∃ op next, s.program i = .call op next) ∨
        (∃ error, s.program i = .raise error) ∧ ∃ error,
          (i, (⟨.unlink ".portforge-config-1.tmp", .error error⟩ :
            PlaceEvent OsError String PurePath UInt8)) ∈ s.trace) := by
  obtain ⟨s, h, -, htorn, -⟩ := sample_reached
  have hthere : s.tree.temps ".portforge-config-1.tmp" ≠ none := by
    rw [htorn]
    exact Option.some_ne_none _
  have haccounted :=
    @temporaries_accounted Bool _ sampleCalls (fun _ => none) (fun _ => some [80]) s h _ hthere
  exact ⟨s, h, haccounted.resolve_left fun hnone => hnone rfl⟩

end Sample

end Agent.Saving
