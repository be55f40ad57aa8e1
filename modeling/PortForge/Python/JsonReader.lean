/-
# Reading JSON texts

`json.loads`, with the exceptions it raises, and `json.dumps` with an indentation of two blanks. The
text that is written for a value is read back as that value, where the value is not nested deeper
than the interpreter's stack and has no number with too many digits.
-/

import PortForge.Python.Json
import PortForge.Python.Text
import Mathlib.Data.List.Induction
import Mathlib.Data.Nat.Init
import Mathlib.Tactic.Common

namespace Python

/-- The code points of a text. A text that was read may have surrogates among them. -/
def codes (text : String) : List ℕ := text.toList.map Char.toNat

/-- A value that was read. A float is kept as it was spelled. -/
inductive JsonValue
  | null
  | bool (value : Bool)
  | int (value : ℤ)
  | float (literal : List Char)
  | str (text : List ℕ)
  | list (items : List JsonValue)
  | dict (fields : List (List ℕ × JsonValue))

/-- The exceptions of the reader: `JSONDecodeError`, the `ValueError` of an integer with too many
digits, and `RecursionError`. -/
inductive JsonError
  | decode
  | digits
  | recursion
  deriving DecidableEq

/-- What is read, and what follows it. -/
abbrev Reading (α : Type) := Except JsonError (α × List Char)

/-! ## Texts -/

/-- The whitespace between tokens. -/
def isBlank (c : Char) : Bool := c = ' ' || c = '\t' || c = '\n' || c = '\r'

def skipBlanks (chars : List Char) : List Char := chars.dropWhile isBlank

/-- The value of a hexadecimal digit, of either case. -/
def hexDigit (c : Char) : Option ℕ :=
  if c.isDigit then some (c.toNat - 48)
  else if 'a' ≤ c ∧ c ≤ 'f' then some (c.toNat - 87)
  else if 'A' ≤ c ∧ c ≤ 'F' then some (c.toNat - 55)
  else none

/-- `_decode_uXXXX`. -/
def hexUnit (a b c d : Char) : Option ℕ := do
  let a ← hexDigit a
  let b ← hexDigit b
  let c ← hexDigit c
  let d ← hexDigit d
  pure (a * 4096 + b * 256 + c * 16 + d)

/-- The characters that may follow a backslash, and what they stand for. -/
def readEscapes : List (Char × Char) := ('/', '/') :: shortEscapes

/-- The code points of a text, up to its quotation mark, before surrogates are joined. -/
def scanUnits : List Char → Reading (List ℕ)
  | [] => .error .decode
  | c :: rest =>
      if c = '\x22' then .ok ([], rest)
      else if c = '\x5c' then
        match rest with
        | 'u' :: h₁ :: h₂ :: h₃ :: h₄ :: rest =>
            match hexUnit h₁ h₂ h₃ h₄ with
            | some unit => (scanUnits rest).map fun found => (unit :: found.1, found.2)
            | none => .error .decode
        | letter :: rest =>
            match readEscapes.find? fun escape => escape.2 = letter with
            | some escape => (scanUnits rest).map fun found => (escape.1.toNat :: found.1, found.2)
            | none => .error .decode
        | [] => .error .decode
      else if c.toNat < 32 then .error .decode
      else (scanUnits rest).map fun found => (c.toNat :: found.1, found.2)

/-- A high surrogate and a low one behind it are one code point. -/
def joinSurrogates : List ℕ → List ℕ
  | high :: low :: rest =>
      if 55296 ≤ high ∧ high < 56320 ∧ 56320 ≤ low ∧ low < 57344 then
        (65536 + (high - 55296) * 1024 + (low - 56320)) :: joinSurrogates rest
      else high :: joinSurrogates (low :: rest)
  | units => units

/-- `scanstring`, behind the opening quotation mark. -/
def scanString (chars : List Char) : Reading (List ℕ) :=
  (scanUnits chars).map fun found => (joinSurrogates found.1, found.2)

/-! ## Numbers -/

/-- `0|[1-9]\d*`. -/
def scanInteger : List Char → Option (List Char × List Char)
  | [] => none
  | c :: rest =>
      if c = '0' then some ([c], rest)
      else if c.isDigit then some (c :: rest.takeWhile Char.isDigit, rest.dropWhile Char.isDigit)
      else none

/-- `(\.\d+)?`. -/
def scanFraction : List Char → List Char × List Char
  | '.' :: rest =>
      if rest.takeWhile Char.isDigit = [] then ([], '.' :: rest)
      else ('.' :: rest.takeWhile Char.isDigit, rest.dropWhile Char.isDigit)
  | rest => ([], rest)

/-- `[-+]?`. -/
def scanSign : List Char → List Char × List Char
  | '+' :: rest => (['+'], rest)
  | '-' :: rest => (['-'], rest)
  | rest => ([], rest)

/-- `([eE][-+]?\d+)?`. -/
def scanExponent : List Char → List Char × List Char
  | [] => ([], [])
  | c :: rest =>
      if (c = 'e' ∨ c = 'E') ∧ (scanSign rest).2.takeWhile Char.isDigit ≠ [] then
        (c :: (scanSign rest).1 ++ (scanSign rest).2.takeWhile Char.isDigit,
          (scanSign rest).2.dropWhile Char.isDigit)
      else ([], c :: rest)

/-- A number behind its minus sign, if it has one. -/
def readUnsigned (sign : List Char) (chars : List Char) : Reading JsonValue :=
  match scanInteger chars with
  | none => .error .decode
  | some (digits, rest) =>
      let fraction := scanFraction rest
      let exponent := scanExponent fraction.2
      if fraction.1 = [] ∧ exponent.1 = [] then
        if digits.length > maxIntDigits then .error .digits
        else
          let value : ℤ := Nat.ofDigitChars 10 digits 0
          .ok (.int (if sign = [] then value else -value), rest)
      else .ok (.float (sign ++ digits ++ fraction.1 ++ exponent.1), exponent.2)

/-- `_match_number`. -/
def readNumber : List Char → Reading JsonValue
  | '-' :: rest => readUnsigned ['-'] rest
  | chars => readUnsigned [] chars

/-! ## Values -/

/-- The constants, with the spellings of floats that JSON does not have. -/
def constants : List (List Char × JsonValue) :=
  [("null".toList, .null), ("true".toList, .bool true), ("false".toList, .bool false),
    ("NaN".toList, .float "NaN".toList), ("Infinity".toList, .float "Infinity".toList),
    ("-Infinity".toList, .float "-Infinity".toList)]

/-- A constant or a number. -/
def readScalar (chars : List Char) : Reading JsonValue :=
  match constants.findSome? fun entry =>
      (entry.1.isPrefixOf? chars).map fun rest => (entry.2, rest) with
  | some found => .ok found
  | none => readNumber chars

/-- `data[key] = value`. -/
def setField (data : List (List ℕ × JsonValue)) (field : List ℕ × JsonValue) :
    List (List ℕ × JsonValue) :=
  if data.any fun other => other.1 = field.1 then
    data.map fun other => if other.1 = field.1 then field else other
  else data ++ [field]

/-- The dictionary of the pairs of an object. -/
def dictOf (pairs : List (List ℕ × JsonValue)) : List (List ℕ × JsonValue) := pairs.foldl setField []

/-- The items of an array, from the first one on. Each takes a character at least, so the length of
the text bounds their number. -/
def readItems (parse : List Char → Reading JsonValue) :
    ℕ → List Char → Reading (List JsonValue)
  | 0, _ => .error .decode
  | fuel + 1, chars =>
      match parse chars with
      | .error error => .error error
      | .ok (value, rest) =>
          match skipBlanks rest with
          | ']' :: rest => .ok ([value], rest)
          | ',' :: rest =>
              (readItems parse fuel (skipBlanks rest)).map fun found =>
                (value :: found.1, found.2)
          | _ => .error .decode

/-- The pairs of an object, from the first one on. -/
def readFields (parse : List Char → Reading JsonValue) :
    ℕ → List Char → Reading (List (List ℕ × JsonValue))
  | fuel + 1, '\x22' :: chars =>
      match scanString chars with
      | .error error => .error error
      | .ok (key, rest) =>
          match skipBlanks rest with
          | ':' :: rest =>
              match parse (skipBlanks rest) with
              | .error error => .error error
              | .ok (value, rest) =>
                  match skipBlanks rest with
                  | '\x7d' :: rest => .ok ([(key, value)], rest)
                  | ',' :: rest =>
                      (readFields parse fuel (skipBlanks rest)).map fun found =>
                        ((key, value) :: found.1, found.2)
                  | _ => .error .decode
          | _ => .error .decode
  | _, _ => .error .decode

/-- What stands behind the bracket of an array. -/
def readArray (parse : List Char → Reading JsonValue) (chars : List Char) : Reading JsonValue :=
  match skipBlanks chars with
  | ']' :: rest => .ok (.list [], rest)
  | chars => (readItems parse chars.length chars).map fun found => (.list found.1, found.2)

/-- What stands behind the brace of an object. -/
def readObject (parse : List Char → Reading JsonValue) (chars : List Char) : Reading JsonValue :=
  match skipBlanks chars with
  | '\x7d' :: rest => .ok (.dict [], rest)
  | chars => (readFields parse chars.length chars).map fun found => (.dict (dictOf found.1), found.2)

/-- `scan_once`. The limit is how many more containers the interpreter's stack can take. -/
def readValue : ℕ → List Char → Reading JsonValue
  | _, '\x22' :: rest => (scanString rest).map fun found => (.str found.1, found.2)
  | 0, '[' :: _ => .error .recursion
  | 0, '\x7b' :: _ => .error .recursion
  | limit + 1, '[' :: rest => readArray (readValue limit) rest
  | limit + 1, '\x7b' :: rest => readObject (readValue limit) rest
  | _, chars => readScalar chars

/-- `json.loads`. -/
def loads (limit : ℕ) (chars : List Char) : Except JsonError JsonValue :=
  match readValue limit (skipBlanks chars) with
  | .error error => .error error
  | .ok (value, rest) => if skipBlanks rest = [] then .ok value else .error .decode

/-! ## Writing -/

/-- A code point of a text, as `json.dumps` writes it. -/
def escapeCode (n : ℕ) : List Char :=
  match shortEscapes.find? fun escape => escape.1.toNat = n with
  | some escape => ['\x5c', escape.2]
  | none =>
      if 32 ≤ n ∧ n ≤ 126 then [Char.ofNat n]
      else if n < 65536 then escapeUnit n
      else escapeUnit (55296 + (n - 65536) / 1024) ++ escapeUnit (56320 + (n - 65536) % 1024)

/-- A text in quotation marks. -/
def quoteCodes (text : List ℕ) : List Char := '\x22' :: (text.flatMap escapeCode ++ ['\x22'])

/-- `int.__repr__`. -/
def intText (n : ℤ) : List Char :=
  if n < 0 then '-' :: Nat.toDigits 10 n.natAbs else Nat.toDigits 10 n.natAbs

/-- A new line and its indentation. -/
def indented (level : ℕ) : List Char := '\n' :: List.replicate (2 * level) ' '

mutual

/-- The indented text of a value. -/
def JsonValue.pretty (level : ℕ) : JsonValue → List Char
  | .null => ['n', 'u', 'l', 'l']
  | .bool true => ['t', 'r', 'u', 'e']
  | .bool false => ['f', 'a', 'l', 's', 'e']
  | .int n => intText n
  | .float literal => literal
  | .str text => quoteCodes text
  | .list [] => ['[', ']']
  | .list (item :: items) =>
      '[' :: (indented (level + 1) ++ (item.pretty (level + 1) ++ prettyItems level items))
  | .dict [] => ['\x7b', '\x7d']
  | .dict ((key, value) :: fields) =>
      '\x7b' :: (indented (level + 1) ++ (quoteCodes key ++ ':' :: ' ' ::
        (value.pretty (level + 1) ++ prettyFields level fields)))

/-- The rest of a list, behind its first item. -/
def prettyItems (level : ℕ) : List JsonValue → List Char
  | [] => indented level ++ [']']
  | item :: items =>
      ',' :: (indented (level + 1) ++ (item.pretty (level + 1) ++ prettyItems level items))

/-- The rest of a dictionary, behind its first field. -/
def prettyFields (level : ℕ) : List (List ℕ × JsonValue) → List Char
  | [] => indented level ++ ['\x7d']
  | (key, value) :: fields =>
      ',' :: (indented (level + 1) ++ (quoteCodes key ++ ':' :: ' ' ::
        (value.pretty (level + 1) ++ prettyFields level fields)))

end

/-- `json.dumps(value, indent=2)`. -/
def dumpsIndented (value : JsonValue) : List Char := value.pretty 0

example : loads 3 (dumpsIndented (.list [.int (-80), .null])) = .ok (.list [.int (-80), .null]) :=
  rfl

/-! ## Texts are read back -/

/-- The UTF-16 units of a code point. -/
def unitsOf (n : ℕ) : List ℕ :=
  if n < 65536 then [n] else [55296 + (n - 65536) / 1024, 56320 + (n - 65536) % 1024]

/-- No high surrogate has a low one behind it, where a reader would join them. -/
def Unpaired : List ℕ → Prop
  | high :: low :: rest =>
      ¬ (55296 ≤ high ∧ high < 56320 ∧ 56320 ≤ low ∧ low < 57344) ∧ Unpaired (low :: rest)
  | _ => True

/-- A text that Python can have, of code points, without a pair of surrogates. -/
structure IsText (text : List ℕ) : Prop where
  bound : ∀ n ∈ text, n < 1114112
  unpaired : Unpaired text

theorem hexDigit_digitChar : ∀ n < 16, hexDigit (Nat.digitChar n) = some n := by decide

/-- What is written for a unit is read as it. -/
theorem scanUnits_escapeUnit {n : ℕ} (h : n < 65536) (rest : List Char) :
    scanUnits (escapeUnit n ++ rest) =
      (scanUnits rest).map fun found => (n :: found.1, found.2) := by
  have hdigit : ∀ m, hexDigit (Nat.digitChar (m % 16)) = some (m % 16) := fun m =>
    hexDigit_digitChar _ (Nat.mod_lt _ (by decide))
  have hsum : n / 4096 % 16 * 4096 + n / 256 % 16 * 256 + n / 16 % 16 * 16 + n % 16 = n := by omega
  have hunit : hexUnit (Nat.digitChar (n / 4096 % 16)) (Nat.digitChar (n / 256 % 16))
      (Nat.digitChar (n / 16 % 16)) (Nat.digitChar (n % 16)) = some n := by
    simp only [hexUnit, hdigit, Option.bind_eq_bind, Option.bind_some, Option.pure_def, hsum]
  simp only [escapeUnit, List.cons_append, List.nil_append, scanUnits, hunit]
  rfl

/-- What is written for a code point is read as its units. -/
theorem scanUnits_escapeCode {n : ℕ} (hbound : n < 1114112) (rest : List Char) :
    scanUnits (escapeCode n ++ rest) =
      (scanUnits rest).map fun found => (unitsOf n ++ found.1, found.2) := by
  rw [escapeCode]
  split
  · next escape hfind =>
      have hmem := List.mem_of_find?_eq_some hfind
      obtain rfl : escape.1.toNat = n := by simpa using List.find?_some hfind
      simp only [shortEscapes, List.mem_cons, List.not_mem_nil, or_false] at hmem
      rcases hmem with rfl | rfl | rfl | rfl | rfl | rfl | rfl <;> rfl
  · next hnone =>
      have hquote : n ≠ 34 := by
        rintro rfl
        exact absurd hnone (by decide)
      have hslash : n ≠ 92 := by
        rintro rfl
        exact absurd hnone (by decide)
      split_ifs with hprint hbmp
      · have hvalid : n.isValidChar := .inl (by omega)
        have hcode : (Char.ofNat n).toNat = n := by
          rw [Char.ofNat, dif_pos hvalid]
          rfl
        have hnot (c : Char) (hc : n ≠ c.toNat) : Char.ofNat n ≠ c := by
          rintro rfl
          exact hc hcode.symm
        have hlow : ¬ n < 32 := by omega
        have hunits : unitsOf n = [n] := if_pos (by omega)
        rw [List.cons_append, List.nil_append, scanUnits.eq_def]
        simp only [if_neg (hnot '\x22' hquote), if_neg (hnot '\x5c' hslash), hcode, if_neg hlow,
          hunits, List.cons_append, List.nil_append]
      · rw [scanUnits_escapeUnit hbmp, unitsOf, if_pos hbmp]
        rfl
      · have hhigh : 55296 + (n - 65536) / 1024 < 65536 := by omega
        have hlow : 56320 + (n - 65536) % 1024 < 65536 := by omega
        rw [List.append_assoc, scanUnits_escapeUnit hhigh, scanUnits_escapeUnit hlow, unitsOf,
          if_neg hbmp]
        cases scanUnits rest <;> rfl

theorem scanUnits_text {text : List ℕ} (hbound : ∀ n ∈ text, n < 1114112) (rest : List Char) :
    scanUnits (text.flatMap escapeCode ++ '\x22' :: rest) = .ok (text.flatMap unitsOf, rest) := by
  induction text with
  | nil =>
      rw [List.flatMap_nil, List.nil_append, List.flatMap_nil, scanUnits.eq_def]
      exact if_pos rfl
  | cons n text ih =>
      rw [List.flatMap_cons, List.append_assoc, scanUnits_escapeCode (hbound n List.mem_cons_self),
        ih fun m hm => hbound m (List.mem_cons_of_mem _ hm), List.flatMap_cons]
      rfl

/-- The units of code points are joined to them. -/
theorem joinSurrogates_units {text : List ℕ} (h : IsText text) :
    joinSurrogates (text.flatMap unitsOf) = text := by
  obtain ⟨hbound, hunpaired⟩ := h
  induction text with
  | nil => rfl
  | cons n text ih =>
      have hn := hbound n List.mem_cons_self
      have hrest := ih (fun m hm => hbound m (List.mem_cons_of_mem _ hm)) (by
        cases text with
        | nil => trivial
        | cons m text => exact hunpaired.2)
      rw [List.flatMap_cons]
      by_cases hbmp : n < 65536
      · rw [unitsOf, if_pos hbmp, List.singleton_append]
        cases text with
        | nil => rfl
        | cons m text =>
            have hnot := hunpaired.1
            rw [List.flatMap_cons] at hrest ⊢
            by_cases hm : m < 65536
            · rw [unitsOf, if_pos hm, List.singleton_append] at hrest ⊢
              rw [joinSurrogates, if_neg hnot, hrest]
            · have hmax := hbound m (by simp)
              rw [unitsOf, if_neg hm, List.cons_append] at hrest ⊢
              rw [joinSurrogates, if_neg (by omega), hrest]
      · have hcode : 65536 + (55296 + (n - 65536) / 1024 - 55296) * 1024 +
            (56320 + (n - 65536) % 1024 - 56320) = n := by omega
        rw [unitsOf, if_neg hbmp, List.cons_append, List.cons_append, List.nil_append,
          joinSurrogates, if_pos (by omega), hcode, hrest]

/-- A text in quotation marks is read back. -/
theorem scanString_text {text : List ℕ} (h : IsText text) (rest : List Char) :
    scanString (text.flatMap escapeCode ++ '\x22' :: rest) = .ok (text, rest) := by
  rw [scanString, scanUnits_text h.bound]
  change Except.ok (joinSurrogates _, rest) = _
  rw [joinSurrogates_units h]

/-- The code points of a Lean text are no surrogates. -/
theorem isText_codes (text : String) : IsText (codes text) := by
  constructor
  · intro n hn
    obtain ⟨c, -, rfl⟩ := List.mem_map.mp hn
    rcases c.valid with h | ⟨-, h⟩
    · exact lt_trans (show c.toNat < 55296 from h) (by decide)
    · exact h
  · rw [codes]
    induction text.toList with
    | nil => trivial
    | cons c chars ih =>
        cases chars with
        | nil => trivial
        | cons d chars =>
            have hnot := toNat_not_surrogate c
            exact ⟨fun h => hnot ⟨h.1, by omega⟩, ih⟩

/-! ## Numbers are read back -/

/-- A number starts with a zero only where it is zero. -/
theorem toDigits_cons {n : ℕ} (h : 0 < n) :
    ∃ c rest, Nat.toDigits 10 n = c :: rest ∧ c ≠ '0' := by
  induction n using Nat.strong_induction_on with
  | _ n ih =>
      by_cases hsmall : n < 10
      · refine ⟨n.digitChar, [], Nat.toDigits_of_lt_base hsmall, fun hzero => ?_⟩
        exact h.ne' (Nat.digitChar_eq_zero.mp hzero)
      · obtain ⟨c, rest, hdigits, hc⟩ := ih (n / 10) (by omega) (by omega)
        refine ⟨c, rest ++ Nat.toDigits 10 (n % 10), ?_, hc⟩
        have hsplit := Nat.toDigits_append_toDigits (b := 10) (by decide)
          (show 0 < n / 10 by omega) (Nat.mod_lt n (by decide))
        rw [Nat.div_add_mod, hdigits] at hsplit
        rw [← hsplit]
        rfl

/-- What follows a value in a written text. -/
def FollowsValue (rest : List Char) : Prop := ∀ c ∈ rest.head?, c = ',' ∨ c = '\n'

theorem takeWhile_digits {digits rest : List Char} (hdigits : ∀ c ∈ digits, c.isDigit = true)
    (hrest : FollowsValue rest) :
    (digits ++ rest).takeWhile Char.isDigit = digits ∧
      (digits ++ rest).dropWhile Char.isDigit = rest := by
  rw [List.takeWhile_append_of_pos hdigits, List.dropWhile_append_of_pos hdigits]
  cases rest with
  | nil => simp
  | cons c rest =>
      have hc : c.isDigit = false := by
        rcases hrest c rfl with rfl | rfl <;> rfl
      simp [hc]

/-- A number is read back, behind its sign. -/
theorem readUnsigned_toDigits {n : ℕ} {rest : List Char} (sign : List Char)
    (hrest : FollowsValue rest)
    (hlength : (Nat.toDigits 10 n).length ≤ maxIntDigits) :
    readUnsigned sign (Nat.toDigits 10 n ++ rest) =
      .ok (.int (if sign = [] then (n : ℤ) else -n), rest) := by
  have hend : scanFraction rest = ([], rest) ∧ scanExponent rest = ([], rest) := by
    cases rest with
    | nil => exact ⟨rfl, rfl⟩
    | cons c rest => rcases hrest c rfl with rfl | rfl <;> exact ⟨rfl, rfl⟩
  have hdigits : ∀ c ∈ Nat.toDigits 10 n, c.isDigit = true := fun c hc =>
    Nat.isDigit_of_mem_toDigits (by decide) (by decide) hc
  have hscan : scanInteger (Nat.toDigits 10 n ++ rest) = some (Nat.toDigits 10 n, rest) := by
    by_cases hzero : n = 0
    · subst hzero
      rfl
    · obtain ⟨c, more, heq, hc⟩ := toDigits_cons (Nat.pos_of_ne_zero hzero)
      rw [heq] at hdigits ⊢
      obtain ⟨htake, hdrop⟩ := takeWhile_digits
        (fun d hd => hdigits d (List.mem_cons_of_mem _ hd)) hrest
      rw [List.cons_append, scanInteger, if_neg hc, if_pos (hdigits c List.mem_cons_self), htake,
        hdrop]
  simp only [readUnsigned, hscan, hend.1, hend.2, and_self, if_true, if_neg (not_lt.mpr hlength),
    Nat.ofDigitChars_ten_toDigits]

theorem exists_toDigits (n : ℕ) :
    ∃ c rest, Nat.toDigits 10 n = c :: rest ∧ c.isDigit = true := by
  obtain ⟨c, rest, heq⟩ := List.exists_cons_of_ne_nil (Nat.toDigits_ne_nil :
    Nat.toDigits 10 n ≠ [])
  exact ⟨c, rest, heq, Nat.isDigit_of_mem_toDigits (by decide) (by decide)
    (heq ▸ List.mem_cons_self)⟩

theorem ne_of_isDigit {c d : Char} (hc : c.isDigit = true) (hd : d.isDigit = false) : c ≠ d := by
  rintro rfl
  rw [hc] at hd
  cases hd

/-- An integer is read back. -/
theorem readNumber_intText {n : ℤ} {rest : List Char} (hrest : FollowsValue rest)
    (hlength : (Nat.toDigits 10 n.natAbs).length ≤ maxIntDigits) :
    readNumber (intText n ++ rest) = .ok (.int n, rest) := by
  unfold intText
  split_ifs with hneg
  · have hread := readUnsigned_toDigits ['-'] hrest hlength
    have hvalue : -(n.natAbs : ℤ) = n := by omega
    rw [if_neg (by simp), hvalue] at hread
    exact hread
  · have hread := readUnsigned_toDigits [] hrest hlength
    have hvalue : (n.natAbs : ℤ) = n := by omega
    rw [if_pos rfl, hvalue] at hread
    obtain ⟨c, more, heq, hdigit⟩ := exists_toDigits n.natAbs
    rw [← hread, heq, List.cons_append, readNumber]
    rintro rest' hminus
    exact ne_of_isDigit hdigit (by decide) (List.cons.inj hminus).1

/-- A text that starts with a digit, or a minus sign and a digit, is read as a number. -/
theorem readValue_intText (n : ℤ) (limit : ℕ) (rest : List Char) :
    readValue limit (intText n ++ rest) = readNumber (intText n ++ rest) := by
  obtain ⟨c, more, heq, hdigit⟩ := exists_toDigits n.natAbs
  have hne : ∀ d : Char, d.isDigit = false → c ≠ d := fun d hd => ne_of_isDigit hdigit hd
  have hscalar : readScalar (intText n ++ rest) = readNumber (intText n ++ rest) := by
    have hnone : (constants.findSome? fun entry =>
        (entry.1.isPrefixOf? (intText n ++ rest)).map fun rest => (entry.2, rest)) = none := by
      unfold intText
      split_ifs
      · simp [heq, constants, List.isPrefixOf?, (hne 'I' rfl).symm]
      · simp [heq, constants, List.isPrefixOf?, (hne 'n' rfl).symm, (hne 't' rfl).symm,
          (hne 'f' rfl).symm, (hne 'N' rfl).symm, (hne 'I' rfl).symm, (hne '-' rfl).symm]
    rw [readScalar, hnone]
  rw [← hscalar]
  unfold intText
  split_ifs
  · cases limit <;> simp [readValue]
  · rw [heq]
    cases limit <;> simp [readValue, hne '\x22' rfl, hne '[' rfl, hne '\x7b' rfl]

/-! ## Values are read back -/

mutual

/-- The value can be written and read: its containers are not nested too deep, its integers have not
too many digits, its texts are texts, and no dictionary has a key twice. Floats are left out. -/
def JsonValue.Fits (limit : ℕ) : JsonValue → Prop
  | .null => True
  | .bool _ => True
  | .int n => (Nat.toDigits 10 n.natAbs).length ≤ maxIntDigits
  | .float _ => False
  | .str text => IsText text
  | .list items => ∃ inner, limit = inner + 1 ∧ ItemsFit inner items
  | .dict fields => (fields.map Prod.fst).Nodup ∧ ∃ inner, limit = inner + 1 ∧ FieldsFit inner fields

def ItemsFit (limit : ℕ) : List JsonValue → Prop
  | [] => True
  | item :: items => item.Fits limit ∧ ItemsFit limit items

def FieldsFit (limit : ℕ) : List (List ℕ × JsonValue) → Prop
  | [] => True
  | field :: fields => (IsText field.1 ∧ field.2.Fits limit) ∧ FieldsFit limit fields

end

theorem skipBlanks_indented (level : ℕ) {c : Char} (hc : isBlank c = false) (rest : List Char) :
    skipBlanks (indented level ++ c :: rest) = c :: rest := by
  have hblanks : ∀ d ∈ indented level, isBlank d = true := by
    intro d hd
    rcases List.mem_cons.mp hd with rfl | hmem
    · rfl
    · rw [List.eq_of_mem_replicate hmem]
      rfl
  rw [skipBlanks, List.dropWhile_append_of_pos hblanks, List.dropWhile_cons_of_neg (by simp [hc])]

/-- A value starts with no blank. -/
theorem JsonValue.exists_pretty {value : JsonValue} {limit : ℕ} (hfits : value.Fits limit)
    (level : ℕ) : ∃ c rest, value.pretty level = c :: rest ∧ isBlank c = false ∧ c ≠ ']' := by
  cases value with
  | null | str text => exact ⟨_, _, rfl, rfl, by decide⟩
  | bool value => cases value <;> exact ⟨_, _, rfl, rfl, by decide⟩
  | int n =>
      obtain ⟨c, rest, heq, hdigit⟩ := exists_toDigits n.natAbs
      rw [JsonValue.pretty, intText]
      split_ifs
      · exact ⟨_, _, rfl, rfl, by decide⟩
      · refine ⟨c, rest, heq, ?_, ne_of_isDigit hdigit (by decide)⟩
        simp [isBlank, ne_of_isDigit hdigit (show ' '.isDigit = false from rfl),
          ne_of_isDigit hdigit (show '\t'.isDigit = false from rfl),
          ne_of_isDigit hdigit (show '\n'.isDigit = false from rfl),
          ne_of_isDigit hdigit (show '\r'.isDigit = false from rfl)]
  | float literal => exact absurd hfits id
  | list items => cases items <;> exact ⟨_, _, rfl, rfl, by decide⟩
  | dict fields => cases fields <;> exact ⟨_, _, rfl, rfl, by decide⟩

theorem follows_prettyItems (level : ℕ) (items : List JsonValue) (rest : List Char) :
    FollowsValue (prettyItems level items ++ rest) := by
  cases items with
  | nil => rintro c ⟨⟩; exact .inr rfl
  | cons item items => rintro c ⟨⟩; exact .inl rfl

theorem follows_prettyFields (level : ℕ) (fields : List (List ℕ × JsonValue)) (rest : List Char) :
    FollowsValue (prettyFields level fields ++ rest) := by
  cases fields with
  | nil => rintro c ⟨⟩; exact .inr rfl
  | cons field fields => rintro c ⟨⟩; exact .inl rfl

/-- Pairs with different keys are a dictionary as they stand. -/
theorem dictOf_of_nodup {pairs : List (List ℕ × JsonValue)} (h : (pairs.map Prod.fst).Nodup) :
    dictOf pairs = pairs := by
  induction pairs using List.reverseRecOn with
  | nil => rfl
  | append_singleton pairs field ih =>
      rw [List.map_append, List.nodup_append] at h
      obtain ⟨hpairs, -, hnew⟩ := h
      have hprefix : pairs.foldl setField [] = pairs := ih hpairs
      rw [dictOf, List.foldl_append, hprefix, List.foldl_cons, List.foldl_nil, setField, if_neg]
      rw [List.any_eq_true]
      rintro ⟨other, hother, hsame⟩
      exact hnew other.1 (List.mem_map_of_mem hother) field.1 (by simp) (by simpa using hsame)

theorem length_prettyItems (level : ℕ) (items : List JsonValue) :
    items.length < (prettyItems level items).length := by
  induction items with
  | nil => simp [prettyItems, indented]
  | cons item items ih =>
      simp only [prettyItems, List.length_cons, List.length_append]
      omega

theorem length_prettyFields (level : ℕ) (fields : List (List ℕ × JsonValue)) :
    fields.length < (prettyFields level fields).length := by
  induction fields with
  | nil => simp [prettyFields, indented]
  | cons field fields ih =>
      obtain ⟨key, value⟩ := field
      simp only [prettyFields, List.length_cons, List.length_append]
      omega

/-- The blanks in front of a value are skipped. -/
theorem skipBlanks_value {value : JsonValue} {limit : ℕ} (hfits : value.Fits limit)
    (level inner : ℕ) (rest : List Char) :
    skipBlanks (indented level ++ (value.pretty inner ++ rest)) = value.pretty inner ++ rest := by
  obtain ⟨c, more, heq, hblank, -⟩ := JsonValue.exists_pretty hfits inner
  rw [heq, List.cons_append, skipBlanks_indented level hblank]

theorem skipBlanks_colon (rest : List Char) : skipBlanks (':' :: rest) = ':' :: rest := rfl

/-- The blank behind a colon is skipped. -/
theorem skipBlanks_blank {value : JsonValue} {limit : ℕ} (hfits : value.Fits limit) (level : ℕ)
    (rest : List Char) :
    skipBlanks (' ' :: (value.pretty level ++ rest)) = value.pretty level ++ rest := by
  obtain ⟨c, more, heq, hblank, -⟩ := JsonValue.exists_pretty hfits level
  rw [skipBlanks, List.dropWhile_cons_of_pos rfl, heq, List.cons_append,
    List.dropWhile_cons_of_neg (by simp [hblank])]

mutual

/-- A value is read back from its text, whatever follows it in a written text. -/
theorem readValue_pretty : ∀ (value : JsonValue) (limit level : ℕ) (rest : List Char),
    value.Fits limit → FollowsValue rest →
      readValue limit (value.pretty level ++ rest) = .ok (value, rest)
  | .null, limit, level, rest, _, _ => by cases limit <;> rfl
  | .bool true, limit, level, rest, _, _ => by cases limit <;> rfl
  | .bool false, limit, level, rest, _, _ => by cases limit <;> rfl
  | .int n, limit, level, rest, hfits, hrest => by
      rw [JsonValue.pretty, readValue_intText, readNumber_intText hrest hfits]
  | .float _, _, _, _, hfits, _ => absurd hfits id
  | .str text, limit, level, rest, hfits, _ => by
      have hread : readValue limit ('\x22' :: (text.flatMap escapeCode ++ '\x22' :: rest)) =
          .ok (.str text, rest) := by
        have hstring := scanString_text hfits rest
        cases limit <;>
          · rw [readValue, hstring]
            rfl
      rw [JsonValue.pretty, ← hread, quoteCodes]
      simp
  | .list items, limit, level, rest, hfits, hrest => by
      obtain ⟨inner, rfl, hitems⟩ := hfits
      cases items with
      | nil => rfl
      | cons item items =>
          obtain ⟨hitem, hitems⟩ := hitems
          have hchars : (JsonValue.list (item :: items)).pretty level ++ rest =
              '[' :: (indented (level + 1) ++ (item.pretty (level + 1) ++
                (prettyItems level items ++ rest))) := by simp [JsonValue.pretty]
          have hlength : items.length < (item.pretty (level + 1) ++
              (prettyItems level items ++ rest)).length := by
            have hmore := length_prettyItems level items
            simp only [List.length_append]
            omega
          have hread := readItems_pretty items item inner level _ rest
            (fun rest hfollows => readValue_pretty item inner (level + 1) rest hitem hfollows)
            hitems hlength
          obtain ⟨c, more, heq, -, hc⟩ := JsonValue.exists_pretty hitem (level + 1)
          rw [hchars]
          change readArray (readValue inner) _ = _
          rw [readArray, skipBlanks_value hitem]
          rw [heq, List.cons_append] at hread ⊢
          split
          · next hbracket => exact absurd (List.cons.inj hbracket).1 hc
          · rw [hread]
            rfl
  | .dict fields, limit, level, rest, hfits, hrest => by
      obtain ⟨hnodup, inner, rfl, hfields⟩ := hfits
      cases fields with
      | nil => rfl
      | cons field fields =>
          obtain ⟨key, value⟩ := field
          obtain ⟨⟨hkey, hvalue⟩, hfields⟩ := hfields
          have hchars : (JsonValue.dict ((key, value) :: fields)).pretty level ++ rest =
              '\x7b' :: (indented (level + 1) ++ '\x22' :: (key.flatMap escapeCode ++
                '\x22' :: ':' :: ' ' :: (value.pretty (level + 1) ++
                  (prettyFields level fields ++ rest)))) := by simp [JsonValue.pretty, quoteCodes]
          have hlength : fields.length < ('\x22' :: (key.flatMap escapeCode ++
              '\x22' :: ':' :: ' ' :: (value.pretty (level + 1) ++
                (prettyFields level fields ++ rest)))).length := by
            have hmore := length_prettyFields level fields
            simp only [List.length_append, List.length_cons]
            omega
          have hread := readFields_pretty fields key value inner level _ rest hkey hvalue
            (fun rest hfollows => readValue_pretty value inner (level + 1) rest hvalue hfollows)
            hfields hlength
          rw [hchars]
          change readObject (readValue inner) _ = _
          rw [readObject, skipBlanks_indented (level + 1) rfl]
          split
          · next hbrace => cases (List.cons.inj hbrace).1
          · rw [hread]
            change Except.ok (JsonValue.dict (dictOf _), rest) = _
            rw [dictOf_of_nodup hnodup]

/-- The items of a list are read back, from one that is read back on. -/
theorem readItems_pretty : ∀ (items : List JsonValue) (item : JsonValue) (limit level fuel : ℕ)
    (rest : List Char),
    (∀ rest : List Char, FollowsValue rest →
      readValue limit (item.pretty (level + 1) ++ rest) = .ok (item, rest)) →
    ItemsFit limit items → items.length < fuel →
      readItems (readValue limit) fuel (item.pretty (level + 1) ++
        (prettyItems level items ++ rest)) = .ok (item :: items, rest)
  | [], item, limit, level, fuel + 1, rest, hitem, _, _ => by
      have hend : skipBlanks (prettyItems level [] ++ rest) = ']' :: rest := by
        rw [prettyItems, List.append_assoc, List.singleton_append,
          skipBlanks_indented level rfl]
      rw [readItems, hitem _ (follows_prettyItems level [] rest)]
      simp only [hend]
  | next :: items, item, limit, level, fuel + 1, rest, hitem, hfits, hfuel => by
      obtain ⟨hnext, hitems⟩ := hfits
      have hread := readItems_pretty items next limit level fuel rest
        (fun rest hfollows => readValue_pretty next limit (level + 1) rest hnext hfollows) hitems
        (Nat.lt_of_succ_lt_succ hfuel)
      have hcomma : skipBlanks (prettyItems level (next :: items) ++ rest) =
          ',' :: (indented (level + 1) ++ (next.pretty (level + 1) ++
            (prettyItems level items ++ rest))) := by
        simp [prettyItems, skipBlanks, isBlank]
      rw [readItems, hitem _ (follows_prettyItems level (next :: items) rest)]
      simp only [hcomma, skipBlanks_value hnext, hread]
      rfl

/-- The fields of a dictionary are read back, from one whose value is read back on. -/
theorem readFields_pretty : ∀ (fields : List (List ℕ × JsonValue)) (key : List ℕ)
    (value : JsonValue) (limit level fuel : ℕ) (rest : List Char),
    IsText key → value.Fits limit →
    (∀ rest : List Char, FollowsValue rest →
      readValue limit (value.pretty (level + 1) ++ rest) = .ok (value, rest)) →
    FieldsFit limit fields → fields.length < fuel →
      readFields (readValue limit) fuel ('\x22' :: (key.flatMap escapeCode ++
        '\x22' :: ':' :: ' ' :: (value.pretty (level + 1) ++
          (prettyFields level fields ++ rest)))) = .ok ((key, value) :: fields, rest)
  | [], key, value, limit, level, fuel + 1, rest, hkey, hfits, hvalue, _, _ => by
      have hend : skipBlanks (prettyFields level [] ++ rest) = '\x7d' :: rest := by
        rw [prettyFields, List.append_assoc, List.singleton_append,
          skipBlanks_indented level rfl]
      rw [readFields, scanString_text hkey]
      simp only [skipBlanks_colon, skipBlanks_blank hfits,
        hvalue _ (follows_prettyFields level [] rest), hend]
  | (next, item) :: fields, key, value, limit, level, fuel + 1, rest, hkey, hvalueFits, hvalue,
      hfits, hfuel => by
      obtain ⟨⟨hnext, hitem⟩, hfields⟩ := hfits
      have hread := readFields_pretty fields next item limit level fuel rest hnext hitem
        (fun rest hfollows => readValue_pretty item limit (level + 1) rest hitem hfollows) hfields
        (Nat.lt_of_succ_lt_succ hfuel)
      have hcomma : skipBlanks (prettyFields level ((next, item) :: fields) ++ rest) =
          ',' :: (indented (level + 1) ++ '\x22' :: (next.flatMap escapeCode ++
            '\x22' :: ':' :: ' ' :: (item.pretty (level + 1) ++
              (prettyFields level fields ++ rest)))) := by
        simp [prettyFields, skipBlanks, isBlank, quoteCodes]
      rw [readFields, scanString_text hkey]
      simp only [skipBlanks_colon, skipBlanks_blank hvalueFits,
        hvalue _ (follows_prettyFields level ((next, item) :: fields) rest), hcomma,
        skipBlanks_indented (level + 1) (show isBlank '\x22' = false from rfl), hread]
      rfl

end

/-- `json.loads` takes back what `json.dumps` has written. -/
theorem loads_dumpsIndented {value : JsonValue} {limit : ℕ} (h : value.Fits limit) :
    loads limit (dumpsIndented value) = .ok value := by
  have hread := readValue_pretty value limit 0 [] h nofun
  obtain ⟨c, more, heq, hblank, -⟩ := JsonValue.exists_pretty h 0
  rw [List.append_nil] at hread
  have hskip : skipBlanks (dumpsIndented value) = dumpsIndented value := by
    rw [dumpsIndented, heq, skipBlanks, List.dropWhile_cons_of_neg (by simp [hblank])]
  rw [loads, hskip, dumpsIndented, hread]
  exact if_pos rfl

/-! ## Line ends -/

theorem noReturn_escapeCode (n : ℕ) : '\r' ∉ escapeCode n := by
  have hdigit : ∀ m, Nat.digitChar (m % 16) ≠ '\r' := by
    intro m h
    have hlt : m % 16 < 16 := Nat.mod_lt _ (by decide)
    generalize m % 16 = d at h hlt
    exact absurd h ((show ∀ d < 16, Nat.digitChar d ≠ '\r' by decide) d hlt)
  have hunit (m : ℕ) : '\r' ∉ escapeUnit m := by
    simp [escapeUnit, (hdigit _).symm]
  rw [escapeCode]
  split
  · next escape hfind =>
      have hmem := List.mem_of_find?_eq_some hfind
      simp only [shortEscapes, List.mem_cons, List.not_mem_nil, or_false] at hmem
      rcases hmem with rfl | rfl | rfl | rfl | rfl | rfl | rfl <;> decide
  · split_ifs with hprint hbmp
    · intro hmem
      have hcode : (Char.ofNat n).toNat = n := by
        rw [Char.ofNat, dif_pos (.inl (by omega))]
        rfl
      rw [← List.mem_singleton.mp hmem] at hcode
      change 13 = n at hcode
      omega
    · exact hunit n
    · rw [List.mem_append, not_or]
      exact ⟨hunit _, hunit _⟩

theorem noReturn_quoteCodes (text : List ℕ) : '\r' ∉ quoteCodes text := by
  simp [quoteCodes, noReturn_escapeCode]

theorem noReturn_indented (level : ℕ) : '\r' ∉ indented level := by
  simp [indented]

theorem noReturn_intText (n : ℤ) : '\r' ∉ intText n := by
  have hdigits : '\r' ∉ Nat.toDigits 10 n.natAbs := fun hmem =>
    absurd (Nat.isDigit_of_mem_toDigits (by decide) (by decide) hmem) (by decide)
  rw [intText]
  split_ifs <;> simp [hdigits]

mutual

/-- A written text has no carriage return. -/
theorem noReturn_pretty : ∀ (value : JsonValue) (limit level : ℕ), value.Fits limit →
    '\r' ∉ value.pretty level
  | .null, _, _, _ => by simp [JsonValue.pretty]
  | .bool true, _, _, _ => by simp [JsonValue.pretty]
  | .bool false, _, _, _ => by simp [JsonValue.pretty]
  | .int n, _, _, _ => noReturn_intText n
  | .float _, _, _, hfits => absurd hfits id
  | .str text, _, _, _ => noReturn_quoteCodes text
  | .list [], _, _, _ => by simp [JsonValue.pretty]
  | .list (item :: items), limit, level, hfits => by
      obtain ⟨inner, rfl, hitem, hitems⟩ := hfits
      have hfirst := noReturn_pretty item inner (level + 1) hitem
      have hrest := noReturn_prettyItems items inner level hitems
      simp [JsonValue.pretty, noReturn_indented, hfirst, hrest]
  | .dict [], _, _, _ => by simp [JsonValue.pretty]
  | .dict ((key, value) :: fields), limit, level, hfits => by
      obtain ⟨-, inner, rfl, ⟨-, hvalue⟩, hfields⟩ := hfits
      have hfirst := noReturn_pretty value inner (level + 1) hvalue
      have hrest := noReturn_prettyFields fields inner level hfields
      simp [JsonValue.pretty, noReturn_indented, noReturn_quoteCodes, hfirst, hrest]

theorem noReturn_prettyItems : ∀ (items : List JsonValue) (limit level : ℕ),
    ItemsFit limit items → '\r' ∉ prettyItems level items
  | [], _, level, _ => by simp [prettyItems, noReturn_indented]
  | item :: items, limit, level, hfits => by
      have hfirst := noReturn_pretty item limit (level + 1) hfits.1
      have hrest := noReturn_prettyItems items limit level hfits.2
      simp [prettyItems, noReturn_indented, hfirst, hrest]

theorem noReturn_prettyFields : ∀ (fields : List (List ℕ × JsonValue)) (limit level : ℕ),
    FieldsFit limit fields → '\r' ∉ prettyFields level fields
  | [], _, level, _ => by simp [prettyFields, noReturn_indented]
  | (key, value) :: fields, limit, level, hfits => by
      have hfirst := noReturn_pretty value limit (level + 1) hfits.1.2
      have hrest := noReturn_prettyFields fields limit level hfits.2
      simp [prettyFields, noReturn_indented, noReturn_quoteCodes, hfirst, hrest]

end

end Python
