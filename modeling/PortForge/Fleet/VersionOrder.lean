/-
# Two orders of versions

An agent compares release versions as tuples of integers, Central compares them as
`packaging` does, where a missing number is zero. So the agent refuses as a downgrade what
Central compares as older, and it also refuses its own version written with fewer zeros.
-/

import Mathlib.Data.List.TakeWhile
import PortForge.Agent.UpgradePayload
import PortForge.Central.ArtifactPolicy

namespace Fleet

open Agent Central Python

/-! ## What the agent reads of a release -/

theorem leadingNumbers_eq {parts : List (List Char)} (hne : ∀ part ∈ parts, part ≠ [])
    (hdecimal : ∀ part ∈ parts, ∀ c ∈ part, isDecimal c) :
    leadingNumbers parts = readNumbers parts := by
  induction parts with
  | nil => rfl
  | cons part parts ih =>
      have hall : part.takeWhile (fun c => (decimalDigit c).isSome) = part := by
        apply List.takeWhile_eq_self_iff.mpr
        intro c hc
        rw [decimalDigit_of_isDecimal (hdecimal part List.mem_cons_self c hc)]
        rfl
      have ih := ih (fun other h => hne other (List.mem_cons_of_mem _ h))
        fun other h => hdecimal other (List.mem_cons_of_mem _ h)
      cases part with
      | nil => exact absurd rfl (hne [] List.mem_cons_self)
      | cons c digits =>
          rw [leadingNumbers, hall, ih]
          rfl

theorem readNumbers_ne_nil {parts : List (List Char)} (h : parts ≠ []) {numbers : List ℤ}
    (hread : readNumbers parts = some numbers) : numbers ≠ [] := by
  cases parts with
  | nil => exact absurd rfl h
  | cons part parts =>
      rintro rfl
      cases hpart : readInt part <;> cases hrest : readNumbers parts <;>
        simp [readNumbers, hpart, hrest] at hread

/-- The agent reads all numbers of a release. -/
theorem parseVersionTuple_text (release : Release) :
    parseVersionTuple release.text = release.numbers := by
  have hsplit : release.text.toList.splitOnP (fun c => c = '.' ∨ c = '-') = release.parts := by
    rw [Release.text, String.toList_ofList]
    apply splitOnP_intercalate rfl release.parts_ne_nil
    intro part hpart c hc
    have hother := ne_of_isDecimal (release.isDecimal part hpart c hc)
    simp [hother.1, hother.2.1]
  rw [parseVersionTuple, hsplit, leadingNumbers_eq release.part_ne_nil release.isDecimal]
  show release.numbers.filter _ = _
  cases hnumbers : release.numbers with
  | none => rfl
  | some numbers =>
      have hne := readNumbers_ne_nil release.parts_ne_nil hnumbers
      simp [hne]

theorem stripChars_text (release : Release) : stripChars release.text.toList ≠ [] := by
  obtain ⟨part, parts, hparts⟩ := List.exists_cons_of_ne_nil release.parts_ne_nil
  have hpart : part ∈ release.parts := hparts ▸ List.mem_cons_self
  obtain ⟨c, hc⟩ := List.exists_mem_of_ne_nil part (release.part_ne_nil part hpart)
  apply stripChars_ne_nil (c := c)
  · rw [Release.text, String.toList_ofList, hparts]
    cases parts with
    | nil => simpa using hc
    | cons next parts =>
        rw [List.intercalate_cons_cons, List.append_assoc]
        exact List.mem_append_left _ hc
  · exact not_isSpace_of_isDecimal (release.isDecimal part hpart c hc)

/-! ## Where the orders differ -/

/-- Python's order of tuples is the padded order, except that zeros added make a tuple
larger. -/
theorem tupleLt_iff {ts cs : List ℤ} (ht : ∀ t ∈ ts, 0 ≤ t) (hc : ∀ c ∈ cs, 0 ≤ c) :
    tupleLt ts cs = true ↔ comparePadded ts cs = .lt ∨ ZerosAdded ts cs := by
  induction ts generalizing cs with
  | nil =>
      cases cs with
      | nil => simp [tupleLt, comparePadded, compareZeros]
      | cons c cs =>
          rw [comparePadded, compareZeros_eq_lt_iff hc, zerosAdded_nil_cons]
          simp only [tupleLt, true_iff]
          exact (em _).symm
  | cons t ts ih =>
      cases cs with
      | nil => simp [tupleLt, comparePadded_nil_ne_lt ht]
      | cons c cs =>
          have ih := ih (fun n hn => ht n (List.mem_cons_of_mem _ hn))
            fun n hn => hc n (List.mem_cons_of_mem _ hn)
          rw [tupleLt, comparePadded, List.headD_cons, List.tail_cons, zerosAdded_cons_cons]
          rcases lt_trichotomy t c with hlt | rfl | hgt
          · rw [compare_lt_iff_lt.mpr hlt]
            simp [hlt.ne, hlt]
          · rw [compare_eq_iff_eq.mpr rfl]
            simpa using ih
          · rw [compare_gt_iff_gt.mpr hgt]
            simp [hgt.ne', hgt.le]

theorem versionCompare_lt_zero_iff {env : Environment} (henv : OrdersReleases env)
    (target current : Release) :
    versionCompare env target.text current.text < 0 ↔
      ∃ ts cs, target.numbers = some ts ∧ current.numbers = some cs ∧
        comparePadded ts cs = .lt := by
  rw [versionCompare, henv]
  cases target.numbers with
  | none => simp
  | some ts =>
      cases current.numbers with
      | none => simp
      | some cs =>
          cases h : comparePadded ts cs <;> simp [h]

/-- A payload with nothing else against it is refused as a downgrade when its numbers are
smaller as a tuple. -/
theorem validatePayload_eq_downgrade_iff {checkUrl : String → Option String}
    {pending : PendingUpgrade} {target : Release} (current : Release)
    (htarget : pending.targetVersion = target.text) (hallow : pending.allowDowngrade = false)
    (hsha256 : matchesSha256 pending.artifactSha256.toList)
    (hurl : checkUrl pending.artifactUrl = none) :
    validatePayload checkUrl pending current.text = some .downgrade ↔
      ∃ ts cs, target.numbers = some ts ∧ current.numbers = some cs ∧ tupleLt ts cs = true := by
  simp only [validatePayload, hsha256, not_true, if_false, hurl, htarget, stripChars_text,
    parseVersionTuple_text, checkOrder, hallow, Bool.false_eq_true]
  cases target.numbers with
  | none => simp
  | some ts =>
      cases current.numbers with
      | none => simp
      | some cs => simp

/-- The current version is the target with further numbers, all of them zero. -/
def SpelledLonger (target current : Release) : Prop :=
  ∃ ts cs, target.numbers = some ts ∧ current.numbers = some cs ∧ ZerosAdded ts cs

/-- An agent refuses as downgrades the targets that Central compares as older, if and only if its
version is not the target with zeros added. -/
theorem downgrade_iff_older {env : Environment} (henv : OrdersReleases env)
    {checkUrl : String → Option String} {pending : PendingUpgrade} {target : Release}
    (current : Release) (htarget : pending.targetVersion = target.text)
    (hallow : pending.allowDowngrade = false)
    (hsha256 : matchesSha256 pending.artifactSha256.toList)
    (hurl : checkUrl pending.artifactUrl = none) :
    (validatePayload checkUrl pending current.text = some .downgrade ↔
      versionCompare env pending.targetVersion current.text < 0) ↔
      ¬ SpelledLonger target current := by
  rw [validatePayload_eq_downgrade_iff current htarget hallow hsha256 hurl, htarget,
    versionCompare_lt_zero_iff henv, SpelledLonger]
  cases ht : target.numbers with
  | none => simp
  | some ts =>
      cases hc : current.numbers with
      | none => simp
      | some cs =>
          have htuple := tupleLt_iff (Release.numbers_nonneg ht) (Release.numbers_nonneg hc)
          have hequal := fun h : ZerosAdded ts cs => comparePadded_of_zerosAdded h
          simp only [Option.some.injEq, exists_and_left, exists_eq_left', htuple]
          constructor
          · intro hsame hzeros
            have hlt := hsame.mp (.inr hzeros)
            rw [hequal hzeros] at hlt
            cases hlt
          · intro hnot
            simp [hnot]

/-! ## One version in two spellings -/

/-- Version 1.4. -/
def shortRelease : Release :=
  ⟨[['1'], ['4']], by decide, by decide, by simp [isDecimal]⟩

/-- Version 1.4.0. -/
def longRelease : Release :=
  ⟨[['1'], ['4'], ['0']], by decide, by decide, by simp [isDecimal]⟩

/-- Version 1.10. -/
def laterRelease : Release :=
  ⟨[['1'], ['1', '0']], by decide, by decide, by simp [isDecimal]⟩

/-- An upgrade to a release. -/
def releasePayload (release : Release) : PendingUpgrade where
  id := ⟨1⟩
  targetVersion := release.text
  artifactUrl := "https://example.org/agent.whl"
  artifactSha256 := String.ofList (List.replicate 64 '0')
  state := .approved
  allowDowngrade := false

theorem downgrade_iff_older_sample :
    ¬ SpelledLonger laterRelease longRelease ∧
      (validatePayload (fun _ => none) (releasePayload laterRelease) longRelease.text =
          some .downgrade ↔
        versionCompare releaseEnvironment laterRelease.text longRelease.text < 0) := by
  have hspelled : ¬ SpelledLonger laterRelease longRelease := by
    rintro ⟨ts, cs, hts, hcs, hzeros⟩
    rw [show laterRelease.numbers = some [1, 10] by decide, Option.some.injEq] at hts
    rw [show longRelease.numbers = some [1, 4, 0] by decide, Option.some.injEq] at hcs
    rw [← hts, ← hcs] at hzeros
    exact absurd hzeros (by decide)
  refine ⟨hspelled, (downgrade_iff_older ordersReleases_releaseEnvironment longRelease ?_ ?_ ?_
    ?_).mpr hspelled⟩ <;> decide

/-- The agent refuses version 1.4 as a downgrade from version 1.4.0, which Central compares as the
same. -/
theorem refused_own_version :
    OrdersReleases releaseEnvironment ∧
      validatePayload (fun _ => none) (releasePayload shortRelease) longRelease.text =
        some .downgrade ∧
      versionCompare releaseEnvironment shortRelease.text longRelease.text = 0 :=
  ⟨ordersReleases_releaseEnvironment, by decide, by decide⟩

end Fleet
