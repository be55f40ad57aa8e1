/-
# Releases

A release version written as dotted decimal numbers, and the order of such versions: number
by number, a missing number counting as zero.
-/

import Mathlib.Data.List.Basic
import Mathlib.Order.Compare
import Mathlib.Algebra.Order.Group.Int
import PortForge.Python.Text

namespace Python

/-! ## Tuples padded with zeros -/

section Padded

variable {α : Type*} [LinearOrder α] [Zero α]

/-- Zeros compared with a tuple. -/
def compareZeros : List α → Ordering
  | [] => .eq
  | b :: bs => (compare 0 b).then (compareZeros bs)

/-- Two tuples compared part by part, a missing part counting as zero. -/
def comparePadded : List α → List α → Ordering
  | [], bs => compareZeros bs
  | a :: as, bs => (compare a (bs.headD 0)).then (comparePadded as bs.tail)

/-- The second tuple is the first followed by zeros, one at least. -/
def ZerosAdded (as bs : List α) : Prop :=
  as <+: bs ∧ as.length < bs.length ∧ ∀ b ∈ bs.drop as.length, b = 0

instance (as bs : List α) : Decidable (ZerosAdded as bs) :=
  inferInstanceAs (Decidable (_ ∧ _ ∧ _))

omit [LinearOrder α] in
@[simp] theorem zerosAdded_nil_cons {b : α} {bs : List α} :
    ZerosAdded [] (b :: bs) ↔ ∀ c ∈ b :: bs, c = 0 := by
  simp [ZerosAdded]

omit [LinearOrder α] in
@[simp] theorem not_zerosAdded_nil {as : List α} : ¬ ZerosAdded as [] := by
  simp [ZerosAdded]

omit [LinearOrder α] in
@[simp] theorem zerosAdded_cons_cons {a b : α} {as bs : List α} :
    ZerosAdded (a :: as) (b :: bs) ↔ a = b ∧ ZerosAdded as bs := by
  simp [ZerosAdded, List.cons_prefix_cons, and_assoc]

/-- Zeros are smaller than what is not all zero. -/
theorem compareZeros_eq_lt_iff {bs : List α} (h : ∀ b ∈ bs, 0 ≤ b) :
    compareZeros bs = .lt ↔ ¬ ∀ b ∈ bs, b = 0 := by
  induction bs with
  | nil => simp [compareZeros]
  | cons b bs ih =>
      have ih := ih fun c hc => h c (List.mem_cons_of_mem _ hc)
      rw [compareZeros, List.forall_mem_cons]
      rcases (h b List.mem_cons_self).eq_or_lt with hzero | hpos
      · rw [← hzero, compare_eq_iff_eq.mpr rfl]
        simpa using ih
      · rw [compare_lt_iff_lt.mpr hpos]
        simp [hpos.ne']

theorem comparePadded_nil_ne_lt {as : List α} (h : ∀ a ∈ as, 0 ≤ a) :
    comparePadded as [] ≠ .lt := by
  induction as with
  | nil => simp [comparePadded, compareZeros]
  | cons a as ih =>
      rw [comparePadded, List.headD_nil]
      rcases (h a List.mem_cons_self).eq_or_lt with hzero | hpos
      · rw [← hzero, compare_eq_iff_eq.mpr rfl]
        exact ih fun c hc => h c (List.mem_cons_of_mem _ hc)
      · rw [compare_gt_iff_gt.mpr hpos]
        simp

theorem compareZeros_of_forall {bs : List α} (h : ∀ b ∈ bs, b = 0) : compareZeros bs = .eq := by
  induction bs with
  | nil => rfl
  | cons b bs ih =>
      rw [compareZeros, h b List.mem_cons_self, compare_eq_iff_eq.mpr rfl]
      exact ih fun c hc => h c (List.mem_cons_of_mem _ hc)

/-- Zeros at the end change nothing. -/
theorem comparePadded_of_zerosAdded {as bs : List α} (h : ZerosAdded as bs) :
    comparePadded as bs = .eq := by
  induction as generalizing bs with
  | nil => exact compareZeros_of_forall h.2.2
  | cons a as ih =>
      cases bs with
      | nil => exact absurd h not_zerosAdded_nil
      | cons b bs =>
          obtain ⟨rfl, hzeros⟩ := zerosAdded_cons_cons.mp h
          rw [comparePadded, List.headD_cons, compare_eq_iff_eq.mpr rfl]
          exact ih hzeros

end Padded

/-! ## Digits -/

/-- A digit of ASCII, from `0` to `9`. -/
def isDecimal (c : Char) : Bool := 48 ≤ c.toNat ∧ c.toNat ≤ 57

theorem toNat_of_isDecimal {c : Char} (h : isDecimal c) : 48 ≤ c.toNat ∧ c.toNat ≤ 57 := by
  simpa [isDecimal] using h

theorem decimalDigit_of_isDecimal {c : Char} (h : isDecimal c) :
    decimalDigit c = some (c.toNat - 48) := by
  obtain ⟨hlow, hhigh⟩ := toNat_of_isDecimal h
  rw [decimalDigit, decimalZeros, List.find?_cons_of_pos (by simp; omega)]
  rfl

theorem not_isSpace_of_isDecimal {c : Char} (h : isDecimal c) : isSpace c = false := by
  obtain ⟨hlow, hhigh⟩ := toNat_of_isDecimal h
  simp only [isSpace, spaceCodes, List.mem_cons, List.not_mem_nil, or_false, decide_eq_false_iff_not]
  omega

theorem ne_of_isDecimal {c : Char} (h : isDecimal c) : c ≠ '.' ∧ c ≠ '-' ∧ c ≠ '+' := by
  refine ⟨?_, ?_, ?_⟩ <;> rintro rfl <;> exact absurd h (by decide)

theorem stripChars_ne_nil {text : List Char} {c : Char} (hmem : c ∈ text)
    (hc : isSpace c = false) : stripChars text ≠ [] := by
  have hdrop {chars : List Char} (hmem : c ∈ chars) : c ∈ chars.dropWhile isSpace := by
    rw [← List.takeWhile_append_dropWhile (p := isSpace) (l := chars), List.mem_append] at hmem
    rcases hmem with htake | hdrop
    · have hspace : isSpace c = true := List.all_eq_true.mp List.all_takeWhile c htake
      rw [hc] at hspace
      cases hspace
    · exact hdrop
  apply List.ne_nil_of_mem (a := c)
  rw [stripChars, List.mem_reverse]
  exact hdrop (List.mem_reverse.mpr (hdrop hmem))

/-- Digits without a sign are no negative number. -/
theorem readInt_nonneg {digits : List Char} (h : ∀ c ∈ digits, isDecimal c) {number : ℤ}
    (hread : readInt digits = some number) : 0 ≤ number := by
  have hstrip : ∀ c ∈ stripInt digits, isDecimal c := by
    intro c hc
    rw [stripInt, List.mem_reverse] at hc
    have hc := (List.dropWhile_sublist _).subset hc
    rw [List.mem_reverse] at hc
    exact h c ((List.dropWhile_sublist _).subset hc)
  rw [readInt] at hread
  split at hread
  rename_i negative rest hsign
  have hplain : negative = false := by
    split at hsign
    · rename_i heq
      exact absurd rfl (ne_of_isDecimal (hstrip '-' (heq ▸ List.mem_cons_self))).2.1
    · cases hsign
      rfl
    · cases hsign
      rfl
  rw [hplain] at hread
  split at hread
  · cases hread
  · split at hread
    · cases hread
    · simp only [Bool.false_eq_true, if_false, Option.some.injEq] at hread
      omega

/-! ## Release versions -/

/-- A version written as dotted decimal numbers. -/
structure Release where
  parts : List (List Char)
  parts_ne_nil : parts ≠ []
  part_ne_nil : ∀ part ∈ parts, part ≠ []
  isDecimal : ∀ part ∈ parts, ∀ c ∈ part, isDecimal c

/-- The version as it is written. -/
def Release.text (release : Release) : String := String.ofList (['.'].intercalate release.parts)

/-- The numbers of the parts, `none` where `int` raises: it refuses long digit strings. -/
def readNumbers : List (List Char) → Option (List ℤ)
  | [] => some []
  | part :: parts => do
      let number ← readInt part
      let numbers ← readNumbers parts
      pure (number :: numbers)

/-- The numbers of a version. -/
def Release.numbers (release : Release) : Option (List ℤ) := readNumbers release.parts

theorem readNumbers_nonneg {parts : List (List Char)} (h : ∀ part ∈ parts, ∀ c ∈ part, isDecimal c)
    {numbers : List ℤ} (hread : readNumbers parts = some numbers) :
    ∀ number ∈ numbers, 0 ≤ number := by
  induction parts generalizing numbers with
  | nil =>
      cases hread
      simp
  | cons part parts ih =>
      cases hpart : readInt part with
      | none => simp [readNumbers, hpart] at hread
      | some first =>
          cases hrest : readNumbers parts with
          | none => simp [readNumbers, hpart, hrest] at hread
          | some rest =>
              have hnumbers : first :: rest = numbers := by
                simpa [readNumbers, hpart, hrest] using hread
              rw [← hnumbers, List.forall_mem_cons]
              constructor
              · exact readInt_nonneg (h part List.mem_cons_self) hpart
              · exact ih (fun other hother => h other (List.mem_cons_of_mem _ hother)) hrest

theorem Release.numbers_nonneg {release : Release} {numbers : List ℤ}
    (h : release.numbers = some numbers) : ∀ number ∈ numbers, 0 ≤ number :=
  readNumbers_nonneg release.isDecimal h

theorem splitOnP_intercalate {p : Char → Bool} {sep : Char} (hsep : p sep = true) :
    ∀ {parts : List (List Char)}, parts ≠ [] → (∀ part ∈ parts, ∀ c ∈ part, p c = false) →
      ([sep].intercalate parts).splitOnP p = parts
  | [], hne, _ => absurd rfl hne
  | [part], _, hparts => by
      simpa using List.splitOnP_eq_singleton (hparts part List.mem_cons_self)
  | part :: next :: parts, _, hparts => by
      have hsplit := splitOnP_intercalate hsep (List.cons_ne_nil next parts)
        fun other hother => hparts other (List.mem_cons_of_mem _ hother)
      rw [List.intercalate_cons_cons, List.append_assoc, List.singleton_append,
        List.splitOnP_append_cons_of_forall_mem (hparts part List.mem_cons_self) sep hsep, hsplit]

/-- The parts of a split text do not contain the separator. -/
theorem not_mem_of_mem_splitOn {sep : Char} {text part : List Char} (h : part ∈ text.splitOn sep) :
    sep ∉ part := by
  induction text generalizing part with
  | nil =>
      rw [List.mem_singleton.mp h]
      exact List.not_mem_nil
  | cons c text ih =>
      rw [List.splitOn, List.splitOnP_cons_eq_if_modifyHead] at h
      split at h
      · rcases List.mem_cons.mp h with rfl | hmem
        · exact List.not_mem_nil
        · exact ih hmem
      · rename_i hc
        cases hsplit : text.splitOnP (· == sep) with
        | nil => exact absurd hsplit (List.splitOnP_ne_nil _ text)
        | cons first others =>
            rw [hsplit, List.modifyHead_cons] at h
            have hall : ∀ other ∈ first :: others, sep ∉ other := by
              intro other hother
              apply ih
              rw [List.splitOn, hsplit]
              exact hother
            rcases List.mem_cons.mp h with rfl | hmem
            · rw [List.mem_cons, not_or]
              exact ⟨fun heq => hc (beq_iff_eq.mpr heq.symm), hall first List.mem_cons_self⟩
            · exact hall part (List.mem_cons_of_mem _ hmem)

/-- The numbers of a text that is a release. -/
def readRelease (text : String) : Option (List ℤ) := readNumbers (text.toList.splitOn '.')

theorem readRelease_text (release : Release) : readRelease release.text = release.numbers := by
  rw [readRelease, Release.text, String.toList_ofList, List.splitOn_intercalate,
    Release.numbers]
  · intro part hpart hdot
    exact (ne_of_isDecimal (release.isDecimal part hpart '.' hdot)).1 rfl
  · exact release.parts_ne_nil

example : comparePadded [(1 : ℤ), 4] [1, 4, 0] = .eq ∧ comparePadded [(1 : ℤ), 9] [1, 10] = .lt := by decide

end Python
