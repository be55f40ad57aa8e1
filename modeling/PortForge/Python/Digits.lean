/-
# Digits and printed numbers

`str.isdigit` accepts more than the decimal digits: superscripts, circled digits and others count
as digits and have no value for `int`. What `str` prints of a number reads back as the number, as
long as it is not too long for `int`.
-/

import Mathlib
import PortForge.Python.Release

namespace Python

/-- The digits that are no decimal digits, as ranges of code points. -/
def otherDigits : List (ℕ × ℕ) :=
  [(0xb2, 0xb3), (0xb9, 0xb9), (0x1369, 0x1371), (0x19da, 0x19da), (0x2070, 0x2070),
    (0x2074, 0x2079), (0x2080, 0x2089), (0x2460, 0x2468), (0x2474, 0x247c), (0x2488, 0x2490),
    (0x24ea, 0x24ea), (0x24f5, 0x24fd), (0x24ff, 0x24ff), (0x2776, 0x277e), (0x2780, 0x2788),
    (0x278a, 0x2792), (0x10a40, 0x10a43), (0x10e60, 0x10e68), (0x11052, 0x1105a),
    (0x1f100, 0x1f10a)]

/-- The characters `str.isdigit` accepts. -/
def isDigitChar (c : Char) : Bool :=
  (decimalDigit c).isSome || otherDigits.any fun range => range.1 ≤ c.toNat && c.toNat ≤ range.2

/-- `text.isdigit()`. -/
def isDigitText (text : List Char) : Bool := !text.isEmpty && text.all isDigitChar

/-- The numbers that `str` prints and `int` reads. -/
def Printable (n : ℕ) : Prop := n < 10 ^ maxIntDigits

section Reading

variable {text : List Char} {c : Char} {n : ℕ}

theorem decimalDigit_le_nine {digit : ℕ} (h : decimalDigit c = some digit) : digit ≤ 9 := by
  obtain ⟨code, hcode, rfl⟩ := Option.map_eq_some_iff.mp h
  have hrange := List.find?_some hcode
  simp only [decide_eq_true_eq] at hrange
  omega

theorem not_isSpace_of_isDigitChar (h : isDigitChar c = true) : isSpace c = false := by
  rw [Bool.eq_false_iff]
  intro hspace
  simp only [isSpace, spaceCodes, List.mem_cons, List.not_mem_nil, or_false,
    decide_eq_true_eq] at hspace
  obtain ⟨code, hcode⟩ : ∃ code, c.toNat = code := ⟨_, rfl⟩
  rw [isDigitChar, decimalDigit, hcode] at h
  rw [hcode] at hspace
  rcases hspace with rfl | rfl | rfl | rfl | rfl | rfl | rfl | rfl | rfl | rfl | rfl | rfl | rfl |
    rfl | rfl | rfl | rfl | rfl | rfl | rfl | rfl | rfl | rfl | rfl | rfl | rfl | rfl | rfl |
    rfl <;> cases h

theorem ne_sign_of_isDigitChar (h : isDigitChar c = true) : c ≠ '-' ∧ c ≠ '+' ∧ c ≠ '_' := by
  refine ⟨?_, ?_, ?_⟩ <;> rintro rfl <;> cases h

theorem isDigitChar_of_isDecimal (h : isDecimal c) : isDigitChar c = true := by
  rw [isDigitChar, decimalDigit_of_isDecimal h]
  rfl

theorem isDecimal_of_isDigit (h : c.isDigit = true) : isDecimal c := by
  rw [Char.isDigit_iff_toNat] at h
  exact decide_eq_true h

theorem dropWhile_eq_self {p : Char → Bool} (h : ∀ c ∈ text.head?, p c = false) :
    text.dropWhile p = text := by
  cases text with
  | nil => rfl
  | cons first rest => exact List.dropWhile_cons_of_neg (by simp [h first rfl])

/-- A text without blanks at its ends is left alone. -/
theorem stripChars_eq_self (hhead : ∀ c ∈ text.head?, isSpace c = false)
    (hlast : ∀ c ∈ text.getLast?, isSpace c = false) : stripChars text = text := by
  rw [stripChars, dropWhile_eq_self hhead, dropWhile_eq_self (by simpa using hlast),
    List.reverse_reverse]

theorem isIntSpace_eq_false (h : isSpace c = false) : isIntSpace c = false := by
  rw [isIntSpace, h, Bool.false_and]

theorem stripInt_eq_self (hhead : ∀ c ∈ text.head?, isSpace c = false)
    (hlast : ∀ c ∈ text.getLast?, isSpace c = false) : stripInt text = text := by
  have hfront : ∀ c ∈ text.head?, isIntSpace c = false := fun c hc => isIntSpace_eq_false (hhead c hc)
  have hback : ∀ c ∈ text.reverse.head?, isIntSpace c = false := fun c hc =>
    isIntSpace_eq_false (hlast c (by simpa using hc))
  rw [stripInt, dropWhile_eq_self hfront, dropWhile_eq_self hback, List.reverse_reverse]

/-- What is left of a text does not start with a blank. -/
theorem head_stripChars (h : c ∈ (stripChars text).head?) : isSpace c = false := by
  have hfront : stripChars text <+: text.dropWhile isSpace := by
    rw [stripChars, ← List.reverse_suffix, List.reverse_reverse]
    exact List.dropWhile_suffix _
  obtain ⟨back, hback⟩ := hfront
  have hnot := List.head?_dropWhile_not isSpace text
  cases hstrip : stripChars text with
  | nil => simp [hstrip] at h
  | cons first rest =>
      rw [hstrip] at h hback
      cases h
      rw [← hback] at hnot
      exact hnot

/-- Nor does it end with one. -/
theorem last_stripChars (h : c ∈ (stripChars text).getLast?) : isSpace c = false := by
  rw [stripChars, List.getLast?_reverse] at h
  have hnot := List.head?_dropWhile_not isSpace (text.dropWhile isSpace).reverse
  rw [Option.mem_def] at h
  rw [h] at hnot
  exact hnot

theorem stripChars_stripChars (text : List Char) : stripChars (stripChars text) = stripChars text :=
  stripChars_eq_self (fun _ hc => head_stripChars hc) (fun _ hc => last_stripChars hc)

theorem length_stripChars_le (text : List Char) : (stripChars text).length ≤ text.length := by
  rw [stripChars, List.length_reverse]
  refine (List.dropWhile_sublist _).length_le.trans ?_
  rw [List.length_reverse]
  exact (List.dropWhile_sublist _).length_le

end Reading

/-! ## Reading a number -/

section Numbers

variable {text : List Char} {n : ℕ}

/-- Digits in front of digits: there is no underscore to skip. -/
theorem underscoredDigits_cons {c d : Char} {rest : List Char} (h : d ≠ '_') :
    underscoredDigits (c :: d :: rest) = (do
      let digit ← decimalDigit c
      let digits ← underscoredDigits (d :: rest)
      pure (digit :: digits)) := by
  rw [underscoredDigits]
  all_goals grind

theorem underscoredDigits_of_isDecimal (hne : text ≠ []) (h : ∀ c ∈ text, isDecimal c) :
    underscoredDigits text = some (text.map fun c => c.toNat - 48) := by
  induction text with
  | nil => exact absurd rfl hne
  | cons c rest ih =>
      have hc := decimalDigit_of_isDecimal (h c List.mem_cons_self)
      have hrest : ∀ c ∈ rest, isDecimal c := fun c hc => h c (List.mem_cons_of_mem _ hc)
      cases rest with
      | nil => simp [underscoredDigits, hc]
      | cons d rest =>
          have hd : d ≠ '_' := (ne_sign_of_isDigitChar
            (isDigitChar_of_isDecimal (hrest d List.mem_cons_self))).2.2
          rw [underscoredDigits_cons hd, hc, ih (List.cons_ne_nil _ _) hrest]
          rfl

/-- A text of digits is read as it stands. -/
theorem readInt_of_isDigitText (h : isDigitText text = true) :
    readInt text = (underscoredDigits text).bind fun digits =>
      if digits.length > maxIntDigits then none
      else some (Int.ofNat (digits.foldl (fun value digit => value * 10 + digit) 0)) := by
  obtain ⟨-, hall⟩ := Bool.and_eq_true_iff.mp h
  have hdigit : ∀ c ∈ text, isDigitChar c = true := List.all_eq_true.mp hall
  have hstrip : stripInt text = text :=
    stripInt_eq_self
      (fun c hc => not_isSpace_of_isDigitChar (hdigit c (List.mem_of_mem_head? hc)))
      (fun c hc => not_isSpace_of_isDigitChar (hdigit c (List.mem_of_mem_getLast? hc)))
  rw [readInt, hstrip]
  split
  rename_i negative digits hsign
  have hplain : negative = false ∧ digits = text := by
    split at hsign
    · exact absurd rfl (ne_sign_of_isDigitChar (hdigit '-' List.mem_cons_self)).1
    · exact absurd rfl (ne_sign_of_isDigitChar (hdigit '+' List.mem_cons_self)).2.1
    · cases hsign
      exact ⟨rfl, rfl⟩
  obtain ⟨rfl, rfl⟩ := hplain
  cases underscoredDigits digits <;> simp

theorem readInt_toString (h : Printable n) : readInt (toString n).toList = some n := by
  have htext : (toString n).toList = Nat.toDigits 10 n := by
    rw [Nat.toString_eq_repr, Nat.toList_repr]
  have hdecimal : ∀ c ∈ Nat.toDigits 10 n, isDecimal c := fun c hc =>
    isDecimal_of_isDigit (Nat.isDigit_of_mem_toDigits (by decide) (by decide) hc)
  have hne : Nat.toDigits 10 n ≠ [] := Nat.toDigits_ne_nil
  have hdigits : isDigitText (Nat.toDigits 10 n) = true := by
    simp only [isDigitText, Bool.and_eq_true, List.all_eq_true]
    exact ⟨by simp, fun c hc => isDigitChar_of_isDecimal (hdecimal c hc)⟩
  have hlength : (Nat.toDigits 10 n).length ≤ maxIntDigits := by
    rw [Nat.length_toDigits_le_iff (by decide) (by decide)]
    exact h
  have hvalue : ((Nat.toDigits 10 n).map fun c => c.toNat - 48).foldl
      (fun value digit => value * 10 + digit) 0 = n := by
    have hof := Nat.ofDigitChars_ten_toDigits (n := n)
    rw [Nat.ofDigitChars_eq_foldl] at hof
    rw [List.foldl_map]
    simpa only [Nat.mul_comm, Char.reduceToNat] using hof
  rw [htext, readInt_of_isDigitText hdigits, underscoredDigits_of_isDecimal hne hdecimal,
    Option.bind_some, if_neg (by rw [List.length_map]; omega), hvalue]
  rfl

theorem isDigitText_toString (n : ℕ) : isDigitText (toString n).toList = true := by
  rw [Nat.toString_eq_repr, Nat.toList_repr]
  simp only [isDigitText, Bool.and_eq_true, List.all_eq_true]
  refine ⟨by simp [Nat.toDigits_ne_nil], fun c hc => isDigitChar_of_isDecimal
    (isDecimal_of_isDigit (Nat.isDigit_of_mem_toDigits (by decide) (by decide) hc))⟩

theorem foldl_digits_lt {digits : List ℕ} (h : ∀ digit ∈ digits, digit ≤ 9) (start : ℕ) :
    digits.foldl (fun value digit => value * 10 + digit) start <
      (start + 1) * 10 ^ digits.length := by
  induction digits generalizing start with
  | nil => simp
  | cons digit rest ih =>
      have hdigit : digit ≤ 9 := h digit List.mem_cons_self
      have hrest := ih (fun digit hmem => h digit (List.mem_cons_of_mem _ hmem)) (start * 10 + digit)
      rw [List.foldl_cons, List.length_cons]
      calc _ < (start * 10 + digit + 1) * 10 ^ rest.length := hrest
        _ ≤ ((start + 1) * 10) * 10 ^ rest.length := Nat.mul_le_mul_right _ (by omega)
        _ = (start + 1) * 10 ^ (rest.length + 1) := by rw [Nat.pow_succ, Nat.mul_assoc, Nat.mul_comm 10]

theorem le_nine_of_underscoredDigits {digits : List ℕ} (h : underscoredDigits text = some digits) :
    ∀ digit ∈ digits, digit ≤ 9 := by
  induction text using underscoredDigits.induct generalizing digits with
  | case1 => cases h
  | case2 c =>
      obtain ⟨digit, hdigit, rfl⟩ := Option.map_eq_some_iff.mp h
      simpa using decimalDigit_le_nine hdigit
  | case3 c rest ih =>
      obtain ⟨digit, hdigit, hrest⟩ := Option.bind_eq_some_iff.mp h
      obtain ⟨others, hothers, heq⟩ := Option.bind_eq_some_iff.mp hrest
      cases heq
      exact List.forall_mem_cons.mpr ⟨decimalDigit_le_nine hdigit, ih hothers⟩
  | case4 c rest hne hunder ih =>
      rw [underscoredDigits] at h
      · obtain ⟨digit, hdigit, hrest⟩ := Option.bind_eq_some_iff.mp h
        obtain ⟨others, hothers, heq⟩ := Option.bind_eq_some_iff.mp hrest
        cases heq
        exact List.forall_mem_cons.mpr ⟨decimalDigit_le_nine hdigit, ih hothers⟩
      all_goals grind

/-- The number that a text of digits stands for can be printed. -/
theorem printable_of_readInt (h : isDigitText text = true) {value : ℤ}
    (hread : readInt text = some value) : ∃ n : ℕ, value = n ∧ Printable n := by
  rw [readInt_of_isDigitText h] at hread
  obtain ⟨digits, hdigits, hvalue⟩ := Option.bind_eq_some_iff.mp hread
  split at hvalue
  · cases hvalue
  · cases hvalue
    refine ⟨_, rfl, ?_⟩
    have hlt := foldl_digits_lt (le_nine_of_underscoredDigits hdigits) 0
    rw [Nat.zero_add, Nat.one_mul] at hlt
    exact hlt.trans_le (Nat.pow_le_pow_right (by decide) (by omega))

end Numbers

end Python
