/-
# Identifiers as text

`uuid.UUID` reads more than the text that `str` writes: capitals, braces, the `urn:uuid:` prefix,
any placement of the dashes, and whatever else `int` takes for 32 hexadecimal digits. The written
text is one of these forms.
-/

import PortForge.Central.PayloadHash
import PortForge.Python.Digits

namespace Central

open Python

/-! ## `int(text, 16)` -/

/-- A decimal digit of any script as the digit of ASCII. -/
def asciiDigit (c : Char) : Char :=
  match decimalDigit c with
  | some digit => Nat.digitChar digit
  | none => c

/-- The value of a hexadecimal digit. -/
def hexValue (c : Char) : Option ℕ :=
  if '0' ≤ c ∧ c ≤ '9' then some (c.toNat - 48)
  else if 'a' ≤ c ∧ c ≤ 'f' then some (c.toNat - 87)
  else if 'A' ≤ c ∧ c ≤ 'F' then some (c.toNat - 55)
  else none

/-- Hexadecimal digits, with single underscores between them allowed. -/
def underscoredHex : List Char → Option (List ℕ)
  | [] => none
  | [c] => (hexValue c).map fun digit => [digit]
  | c :: '_' :: rest => do
      let digit ← hexValue c
      let digits ← underscoredHex rest
      pure (digit :: digits)
  | c :: rest => do
      let digit ← hexValue c
      let digits ← underscoredHex rest
      pure (digit :: digits)

/-- The digits behind a prefix `0x`, which may have an underscore behind it. -/
def dropHexPrefix : List Char → List Char
  | '0' :: x :: rest =>
      if x = 'x' ∨ x = 'X' then
        match rest with
        | '_' :: digits => digits
        | digits => digits
      else '0' :: x :: rest
  | text => text

/-- `int(text, 16)`, where it does not raise. -/
def readHexInt (text : List Char) : Option ℤ :=
  let (negative, digits) :=
    match (stripInt text).map asciiDigit with
    | '-' :: rest => (true, rest)
    | '+' :: rest => (false, rest)
    | rest => (false, rest)
  (underscoredHex (dropHexPrefix digits)).map fun digits =>
    let value : ℤ := (digits.foldl (fun value digit => value * 16 + digit) 0 : ℕ)
    if negative then -value else value

/-! ## `uuid.UUID(text)` -/

/-- `text.replace(needle, "")` from the left; `skip` characters belong to an occurrence. -/
def removeAll (needle : List Char) (skip : ℕ) : List Char → List Char
  | [] => []
  | c :: rest =>
      match skip with
      | skip + 1 => removeAll needle skip rest
      | 0 =>
          if needle.isPrefixOf (c :: rest) then removeAll needle (needle.length - 1) rest
          else c :: removeAll needle 0 rest

/-- `text.strip("{}")`. -/
def stripBraces (text : List Char) : List Char :=
  let isBrace (c : Char) : Bool := c = '\x7b' || c = '\x7d'
  ((text.dropWhile isBrace).reverse.dropWhile isBrace).reverse

/-- The identifier with a value of 128 bits. -/
def uuidOf (value : ℤ) : Option Uuid :=
  if 0 ≤ value ∧ value < 2 ^ 128 then some ⟨BitVec.ofInt 128 value⟩ else none

/-- What `uuid.UUID` reads as digits. -/
def uuidHex (text : String) : List Char :=
  (stripBraces (removeAll "uuid:".toList 0 (removeAll "urn:".toList 0 text.toList))).filter (· ≠ '-')

/-- `uuid.UUID(text)`, where it does not raise. -/
def readUuid (text : String) : Option Uuid :=
  if (uuidHex text).length ≠ 32 then none
  else (readHexInt (uuidHex text)).bind uuidOf

example : readUuid "urn:uuid:\x7b0000000000000000000000000000000A\x7d" = some ⟨10⟩ := by decide

/-! ## Reading what is written -/

section Written

variable {c : Char} {text : List Char} {width n : ℕ}

/-- A digit that `str` writes. -/
def IsHexDigit (c : Char) : Prop := ∃ digit < 16, c = Nat.digitChar digit

theorem isHexDigit_of_mem (h : c ∈ hexDigits width n) : IsHexDigit c := by
  induction width generalizing n with
  | zero => cases h
  | succ width ih =>
      rcases List.mem_append.mp h with hc | hc
      · exact ih hc
      · exact ⟨_, Nat.mod_lt n (by decide), List.mem_singleton.mp hc⟩

theorem length_hexDigits (width n : ℕ) : (hexDigits width n).length = width := by
  induction width generalizing n with
  | zero => rfl
  | succ width ih => rw [hexDigits, List.length_append, ih, List.length_singleton]

/-- What the reader looks for besides digits is not among the digits. -/
theorem IsHexDigit.facts (h : IsHexDigit c) :
    asciiDigit c = c ∧ isSpace c = false ∧ c ≠ '-' ∧ c ≠ '+' ∧ c ≠ '_' ∧ c ≠ 'x' ∧ c ≠ 'X' ∧
      c ≠ '\x7b' ∧ c ≠ '\x7d' ∧ c ≠ ':' := by
  have hall : ∀ digit < 16, asciiDigit (Nat.digitChar digit) = Nat.digitChar digit ∧
      isSpace (Nat.digitChar digit) = false ∧ Nat.digitChar digit ≠ '-' ∧
      Nat.digitChar digit ≠ '+' ∧ Nat.digitChar digit ≠ '_' ∧ Nat.digitChar digit ≠ 'x' ∧
      Nat.digitChar digit ≠ 'X' ∧ Nat.digitChar digit ≠ '\x7b' ∧ Nat.digitChar digit ≠ '\x7d' ∧
      Nat.digitChar digit ≠ ':' := by decide
  obtain ⟨digit, hdigit, rfl⟩ := h
  exact hall digit hdigit

theorem hexValue_digitChar : ∀ digit < 16, hexValue (Nat.digitChar digit) = some digit := by decide

/-- The value of a digit. -/
def digitValue (c : Char) : ℕ := (hexValue c).getD 0

theorem IsHexDigit.hexValue_eq (h : IsHexDigit c) : hexValue c = some (digitValue c) := by
  obtain ⟨digit, hdigit, rfl⟩ := h
  rw [digitValue, hexValue_digitChar digit hdigit]
  rfl

theorem underscoredHex_of_digits (hne : text ≠ []) (h : ∀ c ∈ text, IsHexDigit c) :
    underscoredHex text = some (text.map digitValue) := by
  induction text with
  | nil => exact absurd rfl hne
  | cons c rest ih =>
      have hc := (h c List.mem_cons_self).hexValue_eq
      have hrest : ∀ d ∈ rest, IsHexDigit d := fun d hd => h d (List.mem_cons_of_mem _ hd)
      cases rest with
      | nil => simp [underscoredHex, hc]
      | cons d rest =>
          obtain ⟨-, -, -, -, hunder, -⟩ := (hrest d List.mem_cons_self).facts
          rw [underscoredHex, hc, ih (List.cons_ne_nil _ _) hrest]
          · rfl
          all_goals grind

theorem foldl_hexDigits (width n : ℕ) :
    (hexDigits width n).foldl (fun value c => value * 16 + digitValue c) 0 = n % 16 ^ width := by
  induction width generalizing n with
  | zero => simp [hexDigits, Nat.mod_one]
  | succ width ih =>
      have hvalue : digitValue (Nat.digitChar (n % 16)) = n % 16 := by
        rw [digitValue, hexValue_digitChar _ (Nat.mod_lt n (by decide))]
        rfl
      rw [hexDigits, List.foldl_append, ih, List.foldl_cons, List.foldl_nil, hvalue, Nat.pow_succ,
        Nat.mul_comm (16 ^ width), Nat.mod_mul]
      omega

end Written

theorem removeAll_eq_self {needle text : List Char} {c : Char} (hneedle : c ∈ needle)
    (htext : c ∉ text) : removeAll needle 0 text = text := by
  induction text with
  | nil => rfl
  | cons d rest ih =>
      have hnot : needle.isPrefixOf (d :: rest) = false := by
        rw [Bool.eq_false_iff]
        intro hprefix
        exact htext ((List.isPrefixOf_iff_prefix.mp hprefix).subset hneedle)
      rw [removeAll, hnot, if_neg Bool.false_ne_true,
        ih fun hmem => htext (List.mem_cons_of_mem _ hmem)]

theorem readHexInt_hexDigits (n : ℕ) : readHexInt (hexDigits 32 n) = some ((n % 16 ^ 32 : ℕ) : ℤ) := by
  have hdigit : ∀ c ∈ hexDigits 32 n, IsHexDigit c := fun c hc => isHexDigit_of_mem hc
  have hlength := length_hexDigits 32 n
  have hfold := foldl_hexDigits 32 n
  generalize hexDigits 32 n = text at hdigit hlength hfold ⊢
  have hstrip : stripInt text = text :=
    stripInt_eq_self (fun c hc => (hdigit c (List.mem_of_mem_head? hc)).facts.2.1)
      (fun c hc => (hdigit c (List.mem_of_mem_getLast? hc)).facts.2.1)
  have hascii : text.map asciiDigit = text :=
    (List.map_congr_left fun c hc => (hdigit c hc).facts.1).trans (List.map_id text)
  match text, hlength with
  | first :: second :: rest, _ =>
      obtain ⟨-, -, hminus, hplus, -⟩ := (hdigit first (by simp)).facts
      obtain ⟨-, -, -, -, -, hx, hX, -⟩ := (hdigit second (by simp)).facts
      have hbare : dropHexPrefix (first :: second :: rest) = first :: second :: rest := by
        unfold dropHexPrefix
        split
        · rename_i heq
          obtain ⟨-, rfl, rfl⟩ := by simpa using heq
          rw [if_neg (by simp [hx, hX])]
          rw [heq]
        · rfl
      have hsign : (match first :: second :: rest with
          | '-' :: rest => (true, rest)
          | '+' :: rest => (false, rest)
          | rest => (false, rest)) = (false, first :: second :: rest) := by
        split
        · rename_i heq
          exact absurd (List.cons.inj heq).1 hminus
        · rename_i heq
          exact absurd (List.cons.inj heq).1 hplus
        · rfl
      rw [readHexInt, hstrip, hascii, hsign]
      dsimp only
      rw [hbare, underscoredHex_of_digits (List.cons_ne_nil _ _) hdigit, Option.map_some,
        List.foldl_map, hfold]
      rfl

/-- The written text is read as the identifier. -/
theorem readUuid_text (id : Uuid) : readUuid id.text = some id := by
  have hchars : ∀ c ∈ id.text.toList, c = '-' ∨ IsHexDigit c := by
    intro c hc
    by_cases hdash : c = '-'
    · exact Or.inl hdash
    · have hmem : c ∈ hexDigits 32 id.bits.toNat := by
        rw [← filter_text]
        exact List.mem_filter.mpr ⟨hc, decide_eq_true hdash⟩
      exact Or.inr (isHexDigit_of_mem hmem)
  have hcolon : ':' ∉ id.text.toList := by
    intro hmem
    rcases hchars ':' hmem with h | h
    · cases h
    · exact h.facts.2.2.2.2.2.2.2.2.2 rfl
  have hbrace : ∀ c ∈ id.text.toList, (decide (c = '\x7b') || decide (c = '\x7d')) = false := by
    intro c hc
    rcases hchars c hc with rfl | h
    · rfl
    · obtain ⟨-, -, -, -, -, -, -, hopen, hclose, -⟩ := h.facts
      simp [hopen, hclose]
  have hstrip : stripBraces id.text.toList = id.text.toList := by
    rw [stripBraces]
    rw [dropWhile_eq_self fun c hc => hbrace c (List.mem_of_mem_head? hc),
      dropWhile_eq_self fun c hc => hbrace c (List.mem_reverse.mp (List.mem_of_mem_head? hc)),
      List.reverse_reverse]
  have hvalue : id.bits.toNat % 16 ^ 32 = id.bits.toNat := by
    have hpow : 16 ^ 32 = 2 ^ 128 := by rw [← Nat.pow_mul 2 4 32]
    rw [hpow]
    exact Nat.mod_eq_of_lt id.bits.isLt
  have hid : uuidOf id.bits.toNat = some id := by
    have hbound : (id.bits.toNat : ℤ) < 2 ^ 128 := by exact_mod_cast id.bits.isLt
    rw [uuidOf, if_pos ⟨Int.natCast_nonneg _, hbound⟩, BitVec.ofInt_natCast]
    simp
  have hhex : uuidHex id.text = hexDigits 32 id.bits.toNat := by
    rw [uuidHex, removeAll_eq_self (c := ':') (by decide) hcolon,
      removeAll_eq_self (c := ':') (by decide) hcolon, hstrip, filter_text]
  have hread := readHexInt_hexDigits id.bits.toNat
  have hlength := length_hexDigits 32 id.bits.toNat
  rw [hvalue] at hread
  rw [readUuid, hhex]
  generalize hexDigits 32 id.bits.toNat = digits at hread hlength
  rw [if_neg fun hne => hne hlength, hread, Option.bind_some, hid]

end Central
