/-
# Probes for Central

`process_pending_probes` reads the probe requests of a heartbeat's response, tries each of them
on this host, and reports what came of it. A request that cannot be read is skipped, and so is
a report that fails. The response is what `json.loads` made of it, whatever Central has sent.
-/

import PortForge.Agent.Identity
import PortForge.Agent.PortSearch
import PortForge.Agent.UpgradeRuns

namespace Agent.RemoteProbes

open Effects Python
open Central (Protocol)
open PortSearch (BindProbeResult)
open Upgrade (Outside asciiLower)

/-- What reading a request raises. -/
inductive Trouble
  | keyError
  | typeError
  | valueError
  | overflowError
  deriving DecidableEq

/-- What the model leaves to Python's own conversions. -/
structure Formats where
  /-- `str` of a value that is no text. -/
  str : Value → String
  /-- `int` of the float that prints so. -/
  truncate : String → Except Trouble ℤ

/-- `str`. -/
def Formats.text (F : Formats) : Value → String
  | .scalar (.str text) => text
  | value => F.str value

/-- `int`. -/
def Formats.int (F : Formats) : Value → Except Trouble ℤ
  | .scalar .none => .error .typeError
  | .scalar (.bool value) => .ok value.toInt
  | .scalar (.int value) => .ok value
  | .scalar (.str text) =>
      match readInt text.toList with
      | none => .error .valueError
      | some value => .ok value
  | .scalar (.other _ text) => F.truncate text
  | .list _ => .error .typeError
  | .dict _ => .error .typeError

/-- A request that was read. -/
structure ProbeRequest where
  probeId : String
  port : ℤ
  protocol : Protocol
  bindAddress : String
  deriving DecidableEq

/-- `MAX_PROBES_PER_CYCLE`. -/
def maxProbesPerCycle : ℕ := 10

/-- An entry of `pending_probes`, within its `try`. -/
def readRequest (F : Formats) (item : List (Scalar × Value)) : Except Trouble ProbeRequest :=
  match get? item "probe_id", get? item "port" with
  | none, _ | _, none => .error .keyError
  | some probeId, some port =>
      match F.int port with
      | .error trouble => .error trouble
      | .ok port =>
          if 1 ≤ port ∧ port ≤ 65535 then
            let protocol := asciiLower (((get? item "protocol").map F.text).getD "tcp")
            let bindAddress := (get? item "bind_address").filter Identity.truthy
            .ok { probeId := F.text probeId
                  port := port
                  protocol := if protocol = "udp" then .udp else .tcp
                  bindAddress := (bindAddress.map F.text).getD "0.0.0.0" }
          else .error .valueError

/-- What is asked of the surroundings. -/
inductive Op
  | /-- `probe_bind`. -/
    bind (port : ℤ) (protocol : Protocol) (address : String)
  | /-- `client.submit_probe_result`. -/
    submit (hostId probeId : String) (available : Option Bool) (reason : Option String)

/-- What they answer. An exception of `probe_bind` comes with its text. -/
def Op.Answer : Op → Type
  | bind _ _ _ => Except String BindProbeResult
  | submit _ _ _ _ => Except Outside Unit

abbrev Script := Program Op Op.Answer Trouble

/-- An operation with its answer. -/
abbrev Event := Sigma Op.Answer

/-- What is reported of a probe as `available`. -/
def reported : Except String BindProbeResult → Option Bool
  | .ok result => some result.available
  | .error _ => none

/-- What is reported of it as `reason`. -/
def reasonOf : Except String BindProbeResult → Option String
  | .ok result => result.reason
  | .error text => some text

/-- The loop over the entries. `OverflowError` is an `ArithmeticError`, which no clause catches. -/
def processEntries (F : Formats) (hostId : String) : List Value → ℕ → Script ℕ
  | [], processed => .ret processed
  | .dict item :: entries, processed =>
      match readRequest F item with
      | .error .overflowError => .raise .overflowError
      | .error _ => processEntries F hostId entries processed
      | .ok request =>
          .call (.bind request.port request.protocol request.bindAddress)
            fun (outcome : Except String BindProbeResult) =>
              .call (.submit hostId request.probeId (reported outcome) (reasonOf outcome)) fun _ =>
                processEntries F hostId entries (processed + 1)
  | _ :: entries, processed => processEntries F hostId entries processed

/-- The entries of a response that are looked at. -/
def pendingEntries : Value → List Value
  | .dict data =>
      match get? data "pending_probes" with
      | some (.list pending) => pending.take maxProbesPerCycle
      | _ => []
  | _ => []

/-- The host a response names. -/
def namedHost (F : Formats) : Value → String
  | .dict data => ((get? data "host_id").map F.text).getD ""
  | _ => ""

/-- `process_pending_probes`. -/
def processPendingProbes (F : Formats) (heartbeatData : Value) : Script ℕ :=
  processEntries F (namedHost F heartbeatData) (pendingEntries heartbeatData) 0

/-! ## What is done about the requests -/

/-- The requests among some entries that come to be tried: up to the first whose port is too
large a float, and whether there is one. -/
def survey (F : Formats) : List Value → List ProbeRequest × Bool
  | [] => ([], false)
  | .dict item :: entries =>
      match readRequest F item with
      | .error .overflowError => ([], true)
      | .error _ => survey F entries
      | .ok request => (request :: (survey F entries).1, (survey F entries).2)
  | _ :: entries => survey F entries

/-- Every request is tried once and then reported once, with what the host has answered, and
nothing else is done. -/
inductive Dealt (hostId : String) : List ProbeRequest → List Event → Prop
  | nil : Dealt hostId [] []
  | cons {request : ProbeRequest} {requests : List ProbeRequest} {events : List Event}
      (outcome : Except String BindProbeResult) (sent : Except Outside Unit)
      (rest : Dealt hostId requests events) :
      Dealt hostId (request :: requests)
        (⟨.bind request.port request.protocol request.bindAddress, outcome⟩ ::
          ⟨.submit hostId request.probeId (reported outcome) (reasonOf outcome), sent⟩ :: events)

section Runs

variable {F : Formats} {hostId : String} {entries : List Value} {processed : ℕ}
  {events : List Event} {outcome : Except Trouble ℕ}

theorem processEntries_runs (h : (processEntries F hostId entries processed).Runs events outcome) :
    Dealt hostId (survey F entries).1 events ∧ outcome =
      if (survey F entries).2 then .error .overflowError
      else .ok (processed + (survey F entries).1.length) := by
  induction entries generalizing processed events with
  | nil =>
      obtain ⟨rfl, rfl⟩ := Program.runs_ret_iff.mp h
      exact ⟨.nil, rfl⟩
  | cons entry entries ih =>
      cases entry with
      | scalar value => exact ih h
      | list items => exact ih h
      | dict item =>
          rw [processEntries] at h
          rw [survey]
          cases hread : readRequest F item with
          | error trouble =>
              rw [hread] at h
              cases trouble with
              | overflowError =>
                  obtain ⟨rfl, rfl⟩ := Program.runs_raise_iff.mp h
                  exact ⟨.nil, rfl⟩
              | keyError => exact ih h
              | typeError => exact ih h
              | valueError => exact ih h
          | ok request =>
              rw [hread] at h
              obtain ⟨tried, rest, hrest, rfl⟩ := Program.runs_call_iff.mp h
              obtain ⟨sent, later, hlater, rfl⟩ := Program.runs_call_iff.mp hrest
              obtain ⟨hdealt, houtcome⟩ := ih hlater
              refine ⟨.cons tried sent hdealt, houtcome.trans ?_⟩
              rw [List.length_cons, Nat.add_assoc, Nat.add_comm 1]

/-- Whatever the response holds, and whatever comes of the probes and the reports: each of the
first ten entries that can be read is tried once and reported once, in order, with what the host
answered, and nothing else is done. Only a port that is an infinite float makes it raise, and
then what came before it is dealt with all the same. -/
theorem processPendingProbes_runs {heartbeatData : Value}
    (h : (processPendingProbes F heartbeatData).Runs events outcome) :
    Dealt (namedHost F heartbeatData) (survey F (pendingEntries heartbeatData)).1 events ∧
      outcome =
        if (survey F (pendingEntries heartbeatData)).2 then .error .overflowError
        else .ok (survey F (pendingEntries heartbeatData)).1.length := by
  obtain ⟨hdealt, houtcome⟩ := processEntries_runs h
  rw [Nat.zero_add] at houtcome
  exact ⟨hdealt, houtcome⟩

/-- A report was sent of what the probe before it was answered. -/
theorem Dealt.of_submit {requests : List ProbeRequest} (h : Dealt hostId requests events)
    {host probeId : String} {available : Option Bool} {reason : Option String}
    {sent : Except Outside Unit}
    (hmem : (⟨.submit host probeId available reason, sent⟩ : Event) ∈ events) :
    host = hostId ∧ ∃ request ∈ requests, request.probeId = probeId ∧
      ∃ tried : Except String BindProbeResult,
        (⟨.bind request.port request.protocol request.bindAddress, tried⟩ : Event) ∈ events ∧
          available = reported tried ∧ reason = reasonOf tried := by
  induction h with
  | nil => cases hmem
  | cons tried other rest ih =>
      rcases List.mem_cons.mp hmem with hbind | hmem
      · cases hbind
      · rcases List.mem_cons.mp hmem with hsubmit | hlater
        · cases hsubmit
          exact ⟨rfl, _, List.mem_cons_self, rfl, tried, List.mem_cons_self, rfl, rfl⟩
        · obtain ⟨hhost, request, hrequest, hid, earlier, hbound, hreported⟩ := ih hlater
          refine ⟨hhost, request, List.mem_cons_of_mem _ hrequest, hid, earlier, ?_, hreported⟩
          exact List.mem_cons_of_mem _ (List.mem_cons_of_mem _ hbound)

end Runs

/-! ## A port that is an infinite float -/

def plainFormats : Formats where
  str _ := "None"
  truncate text := if text = "inf" then .error .overflowError else .error .valueError

/-- A probe, an entry that is none, and a probe whose port is out of all bounds. -/
def oversizedResponse : Value :=
  .dict [(.str "host_id", .str "h1"), (.str "pending_probes", .list
    [.dict [(.str "probe_id", .str "p1"), (.str "port", .int 8000)], .scalar .none,
      .dict [(.str "probe_id", .str "p2"), (.str "port", .scalar (.other "float" "inf"))]])]

def oversizedEvents : List Event :=
  [⟨.bind 8000 .tcp "0.0.0.0", (.ok ⟨true, none⟩ : Except String BindProbeResult)⟩,
    ⟨.submit "h1" "p1" (some true) none, (.ok () : Except Outside Unit)⟩]

theorem oversized_runs :
    (processPendingProbes plainFormats oversizedResponse).Runs oversizedEvents
      (.error .overflowError) := by
  have hprogram : processPendingProbes plainFormats oversizedResponse =
      .call (.bind 8000 .tcp "0.0.0.0") fun (outcome : Except String BindProbeResult) =>
        .call (.submit "h1" "p1" (reported outcome) (reasonOf outcome)) fun _ =>
          .raise .overflowError := by
    rfl
  rw [hprogram]
  exact .call _ (.call _ (.raise _))

theorem oversized_dealt :
    Dealt "h1" [⟨"p1", 8000, .tcp, "0.0.0.0"⟩] oversizedEvents ∧
      (.error .overflowError : Except Trouble ℕ) = .error .overflowError :=
  processPendingProbes_runs oversized_runs

end Agent.RemoteProbes
