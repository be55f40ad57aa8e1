/-
# The payload of an upgrade

`_validate_payload`: the checks an agent makes of an upgrade before it downloads anything.
A target that equals the version the agent runs passes them.
-/

import PortForge.Central.Heartbeats
import PortForge.Python.Text

namespace Agent

open Central

/-- The check an upgrade's payload fails. -/
inductive PayloadError
  | artifactSha256
  | artifactUrl (text : String)
  | targetMissing
  | targetNotParseable
  | downgrade
  deriving DecidableEq

/-- The numbers the parts of a version start with, up to the first part without one; `none`
where `int` raises. -/
def leadingNumbers : List (List Char) → Option (List ℤ)
  | [] => some []
  | part :: parts =>
      match part.takeWhile fun c => (Python.decimalDigit c).isSome with
      | [] => some []
      | digits => do
          let number ← Python.readInt digits
          let numbers ← leadingNumbers parts
          pure (number :: numbers)

/-- `_parse_version_tuple`, `none` where it raises. -/
def parseVersionTuple (version : String) : Option (List ℤ) :=
  (leadingNumbers (version.toList.splitOnP fun c => c = '.' ∨ c = '-')).filter fun numbers =>
    numbers ≠ []

/-- `tuple.__lt__`. -/
def tupleLt : List ℤ → List ℤ → Bool
  | _, [] => false
  | [], _ :: _ => true
  | a :: as, b :: bs => if a = b then tupleLt as bs else a < b

def isHexDigit (c : Char) : Bool :=
  ('0' ≤ c ∧ c ≤ '9') ∨ ('a' ≤ c ∧ c ≤ 'f') ∨ ('A' ≤ c ∧ c ≤ 'F')

/-- `_SHA256_RE.match`: the end of the pattern also matches before a last newline. -/
def matchesSha256 (text : List Char) : Bool :=
  let digits := if text.getLast? = some '\n' then text.dropLast else text
  digits.length = 64 ∧ digits.all isHexDigit

/-- The last check: a downgrade must be allowed. A current version without a number is not
compared. -/
def checkOrder (target : List ℤ) (currentVersion : String) (allowDowngrade : Bool) :
    Option PayloadError :=
  if allowDowngrade then none
  else
    match parseVersionTuple currentVersion with
    | none => none
    | some current => if tupleLt target current then some .downgrade else none

/-- `_validate_payload`: the check the payload fails, if any. The payload has none of the
banned fields; what `urlparse` makes of its URL is judged by `checkUrl`. -/
def validatePayload (checkUrl : String → Option String) (pending : PendingUpgrade)
    (currentVersion : String) : Option PayloadError :=
  if ¬ matchesSha256 pending.artifactSha256.toList then some .artifactSha256
  else
    match checkUrl pending.artifactUrl with
    | some text => some (.artifactUrl text)
    | none =>
        if Python.stripChars pending.targetVersion.toList = [] then some .targetMissing
        else
          match parseVersionTuple pending.targetVersion with
          | none => some .targetNotParseable
          | some target => checkOrder target currentVersion pending.allowDowngrade

theorem tupleLt_irrefl (numbers : List ℤ) : tupleLt numbers numbers = false := by
  induction numbers with
  | nil => rfl
  | cons number numbers ih => rw [tupleLt, if_pos rfl, ih]

/-- The order of versions is no reason to refuse the version the agent runs. -/
theorem checkOrder_self {version : String} {numbers : List ℤ}
    (h : parseVersionTuple version = some numbers) (allowDowngrade : Bool) :
    checkOrder numbers version allowDowngrade = none := by
  rw [checkOrder, h]
  split
  · rfl
  · simp only [tupleLt_irrefl, Bool.false_eq_true, if_false]

/-- A payload that an agent accepts before the upgrade, it accepts when it runs the target. -/
theorem validatePayload_again {checkUrl : String → Option String} {pending : PendingUpgrade}
    {currentVersion : String} (h : validatePayload checkUrl pending currentVersion = none) :
    validatePayload checkUrl pending pending.targetVersion = none := by
  rw [validatePayload] at h ⊢
  cases hurl : checkUrl pending.artifactUrl with
  | some text =>
      simp only [hurl] at h
      split_ifs at h
  | none =>
      simp only [hurl] at h ⊢
      split_ifs at h ⊢
      cases hparsed : parseVersionTuple pending.targetVersion with
      | none => simp [hparsed] at h
      | some numbers => exact checkOrder_self hparsed _

example : parseVersionTuple "1.4.0-rc1" = some [1, 4, 0] := by decide

end Agent
