/-
# JSON texts

`json.dumps` with sorted keys, no blanks, and all characters outside ASCII escaped. A text is read
back character by character, so it determines the value that it was written for.
-/

import Mathlib.Data.List.Sort

namespace Python

/-- The values that are written: no booleans, and no numbers but the natural ones. -/
inductive Json
  | null
  | num (n : ℕ)
  | str (text : String)
  | arr (items : List Json)
  | obj (fields : List (String × Json))

/-- A value that may be missing. -/
def Json.optional {α : Type*} (write : α → Json) : Option α → Json
  | none => .null
  | some a => write a

/-! ## Characters -/

/-- `'\\u{0:04x}'`, for a UTF-16 unit. -/
def escapeUnit (n : ℕ) : List Char :=
  ['\x5c', 'u', Nat.digitChar (n / 4096 % 16), Nat.digitChar (n / 256 % 16),
    Nat.digitChar (n / 16 % 16), Nat.digitChar (n % 16)]

/-- The characters with an escape of their own, and its letter: the quotation mark, the backslash,
line feed, carriage return, tabulator, form feed and backspace. -/
def shortEscapes : List (Char × Char) :=
  [('\x22', '\x22'), ('\x5c', '\x5c'), ('\n', 'n'), ('\r', 'r'), ('\t', 't'), ('\x0c', 'f'),
    ('\x08', 'b')]

/-- A character of a text. Beyond the first 65536, it is escaped as two units. -/
def escapeChar (c : Char) : List Char :=
  match shortEscapes.find? fun escape => escape.1 = c with
  | some escape => ['\x5c', escape.2]
  | none =>
      if 32 ≤ c.toNat ∧ c.toNat ≤ 126 then [c]
      else if c.toNat < 65536 then escapeUnit c.toNat
      else escapeUnit (55296 + (c.toNat - 65536) / 1024) ++
        escapeUnit (56320 + (c.toNat - 65536) % 1024)

/-- The value of a hexadecimal digit. -/
def hexValue (c : Char) : ℕ := ((List.range 16).find? fun n => Nat.digitChar n = c).getD 0

/-- Read a UTF-16 unit. -/
def readUnit : List Char → Option (ℕ × List Char)
  | '\x5c' :: 'u' :: a :: b :: c :: d :: rest =>
      some (hexValue a * 4096 + hexValue b * 256 + hexValue c * 16 + hexValue d, rest)
  | _ => none

/-- Read a character of a text. -/
def readEscaped (chars : List Char) : Option (Char × List Char) :=
  match readUnit chars with
  | some (n, rest) =>
      if 55296 ≤ n ∧ n < 57344 then
        (readUnit rest).map fun low =>
          (Char.ofNat (65536 + (n - 55296) * 1024 + (low.1 - 56320)), low.2)
      else some (Char.ofNat n, rest)
  | none =>
      match chars with
      | [] => none
      | c :: rest =>
          if c = '\x5c' then
            rest.head?.bind fun letter =>
              (shortEscapes.find? fun escape => escape.2 = letter).map fun escape =>
                (escape.1, rest.tail)
          else some (c, rest)

theorem hexValue_digitChar : ∀ n < 16, hexValue (Nat.digitChar n) = n := by decide

theorem readUnit_escapeUnit {n : ℕ} (h : n < 65536) (rest : List Char) :
    readUnit (escapeUnit n ++ rest) = some (n, rest) := by
  have hdigit : ∀ m, hexValue (Nat.digitChar (m % 16)) = m % 16 := fun m =>
    hexValue_digitChar _ (Nat.mod_lt _ (by decide))
  have hsum : n / 4096 % 16 * 4096 + n / 256 % 16 * 256 + n / 16 % 16 * 16 + n % 16 = n := by omega
  simp only [escapeUnit, List.cons_append, List.nil_append, readUnit, hdigit, hsum]

/-- No character is a surrogate. -/
theorem toNat_not_surrogate (c : Char) : ¬ (55296 ≤ c.toNat ∧ c.toNat < 57344) := by
  rcases c.valid with h | ⟨h, -⟩
  · have hlow : c.toNat < 55296 := h
    omega
  · have hhigh : 57343 < c.toNat := h
    omega

/-- What is written for a character is read back. -/
theorem readEscaped_escapeChar (c : Char) (rest : List Char) :
    readEscaped (escapeChar c ++ rest) = some (c, rest) := by
  rw [escapeChar]
  split
  · next escape hfind =>
      have hmem := List.mem_of_find?_eq_some hfind
      obtain rfl : escape.1 = c := by simpa using List.find?_some hfind
      simp only [shortEscapes, List.mem_cons, List.not_mem_nil, or_false] at hmem
      rcases hmem with rfl | rfl | rfl | rfl | rfl | rfl | rfl <;> rfl
  · next hnone =>
      have hplain : c ≠ '\x5c' := by
        rintro rfl
        exact absurd hnone (by decide)
      split_ifs with hprint hbmp
      · have hunit : readUnit (c :: rest) = none := by
          rw [readUnit]
          intro a b c' d rest' hchars
          exact hplain (List.cons.inj hchars).1
        simp only [readEscaped, List.cons_append, List.nil_append, hunit, if_neg hplain]
      · simp only [readEscaped, readUnit_escapeUnit hbmp, if_neg (toNat_not_surrogate c),
          Char.ofNat_toNat]
      · have hmax : c.toNat < 1114112 := by
          rcases c.valid with h | ⟨-, h⟩
          · exact lt_trans (show c.toNat < 55296 from h) (by decide)
          · exact h
        have hhigh : 55296 ≤ 55296 + (c.toNat - 65536) / 1024 ∧
            55296 + (c.toNat - 65536) / 1024 < 57344 := by omega
        have hfirst : 55296 + (c.toNat - 65536) / 1024 < 65536 := by omega
        have hsecond : 56320 + (c.toNat - 65536) % 1024 < 65536 := by omega
        have hcode : 65536 + (55296 + (c.toNat - 65536) / 1024 - 55296) * 1024 +
            (56320 + (c.toNat - 65536) % 1024 - 56320) = c.toNat := by omega
        simp only [readEscaped, List.append_assoc, readUnit_escapeUnit hfirst, if_pos hhigh,
          readUnit_escapeUnit hsecond, Option.map_some, hcode, Char.ofNat_toNat]

theorem escapeChar_append_inj {c d : Char} {r s : List Char}
    (h : escapeChar c ++ r = escapeChar d ++ s) : c = d ∧ r = s := by
  have hread := congrArg readEscaped h
  rw [readEscaped_escapeChar, readEscaped_escapeChar, Option.some.injEq, Prod.mk.injEq] at hread
  exact hread

/-! ## Values -/

/-- A text in quotation marks. -/
def quote (text : String) : List Char :=
  '\x22' :: (text.toList.flatMap escapeChar ++ ['\x22'])

mutual

/-- The text of a value. -/
def Json.text : Json → List Char
  | .null => ['n', 'u', 'l', 'l']
  | .num n => Nat.toDigits 10 n
  | .str text => quote text
  | .arr items => '[' :: itemsText true items
  | .obj fields => '\x7b' :: fieldsText true fields

/-- The rest of a list, a comma in front of every item but the first. -/
def itemsText (first : Bool) : List Json → List Char
  | [] => [']']
  | item :: items => (if first then [] else [',']) ++ (item.text ++ itemsText false items)

/-- The rest of an object. -/
def fieldsText (first : Bool) : List (String × Json) → List Char
  | [] => ['\x7d']
  | (key, value) :: fields =>
      (if first then [] else [',']) ++
        (quote key ++ ':' :: (value.text ++ fieldsText false fields))

end

mutual

/-- The value with the fields of every object sorted by their keys. -/
def Json.sortKeys : Json → Json
  | .null => .null
  | .num n => .num n
  | .str text => .str text
  | .arr items => .arr (sortItems items)
  | .obj fields => .obj ((sortFields fields).insertionSort fun a b => a.1 ≤ b.1)

def sortItems : List Json → List Json
  | [] => []
  | item :: items => item.sortKeys :: sortItems items

def sortFields : List (String × Json) → List (String × Json)
  | [] => []
  | (key, value) :: fields => (key, value.sortKeys) :: sortFields fields

end

@[simp]
theorem sortItems_eq_map (items : List Json) : sortItems items = items.map Json.sortKeys := by
  induction items with
  | nil => rfl
  | cons item items ih => rw [sortItems, ih, List.map_cons]

@[simp]
theorem sortFields_eq_map (fields : List (String × Json)) :
    sortFields fields = fields.map fun field => (field.1, field.2.sortKeys) := by
  induction fields with
  | nil => rfl
  | cons field fields ih => rw [sortFields, ih, List.map_cons]

@[simp]
theorem Json.sortKeys_str (text : String) : (Json.str text).sortKeys = .str text := by
  rw [Json.sortKeys]

/-- Sorting keeps what an optional number was. -/
@[simp]
theorem Json.sortKeys_optional_num {a b : Option ℕ} :
    (Json.optional .num a).sortKeys = (Json.optional .num b).sortKeys ↔ a = b := by
  cases a <;> cases b <;> simp [Json.optional, Json.sortKeys]

@[simp]
theorem Json.sortKeys_optional_str {a b : Option String} :
    (Json.optional .str a).sortKeys = (Json.optional .str b).sortKeys ↔ a = b := by
  cases a <;> cases b <;> simp [Json.optional, Json.sortKeys]

/-- `json.dumps(value, sort_keys=True, separators=(",", ":"))`. -/
def dumps (value : Json) : String := String.ofList value.sortKeys.text

/-! ## What a text determines -/

theorem exists_escapeChar (c : Char) :
    ∃ first rest, escapeChar c = first :: rest ∧ first ≠ '\x22' := by
  rw [escapeChar]
  split
  · exact ⟨_, _, rfl, by decide⟩
  · next hnone =>
      split_ifs
      · refine ⟨c, [], rfl, ?_⟩
        rintro rfl
        exact absurd hnone (by decide)
      · exact ⟨_, _, rfl, by decide⟩
      · exact ⟨_, _, rfl, by decide⟩

theorem flatMap_escapeChar_append_inj {cs ds r s : List Char}
    (h : cs.flatMap escapeChar ++ '\x22' :: r = ds.flatMap escapeChar ++ '\x22' :: s) :
    cs = ds ∧ r = s := by
  induction cs generalizing ds with
  | nil =>
      cases ds with
      | nil => exact ⟨rfl, (List.cons.inj h).2⟩
      | cons d ds =>
          obtain ⟨first, rest, hd, hfirst⟩ := exists_escapeChar d
          rw [List.flatMap_cons, hd] at h
          exact absurd (List.cons.inj h).1.symm hfirst
  | cons c cs ih =>
      cases ds with
      | nil =>
          obtain ⟨first, rest, hc, hfirst⟩ := exists_escapeChar c
          rw [List.flatMap_cons, hc] at h
          exact absurd (List.cons.inj h).1 hfirst
      | cons d ds =>
          rw [List.flatMap_cons, List.flatMap_cons, List.append_assoc, List.append_assoc] at h
          obtain ⟨rfl, hrest⟩ := escapeChar_append_inj h
          obtain ⟨rfl, hend⟩ := ih hrest
          exact ⟨rfl, hend⟩

theorem quote_append_inj {t u : String} {r s : List Char} (h : quote t ++ r = quote u ++ s) :
    t = u ∧ r = s := by
  rw [quote, quote, List.cons_append, List.cons_append, List.append_assoc, List.append_assoc] at h
  obtain ⟨hchars, hrest⟩ := flatMap_escapeChar_append_inj (List.cons.inj h).2
  exact ⟨String.toList_inj.mp hchars, hrest⟩

/-- What follows a number does not continue it. -/
def Delimits (rest : List Char) : Prop := ∀ c ∈ rest.head?, c.isDigit = false

theorem toDigits_append_inj {m n : ℕ} {r s : List Char} (hr : Delimits r) (hs : Delimits s)
    (h : Nat.toDigits 10 m ++ r = Nat.toDigits 10 n ++ s) : m = n ∧ r = s := by
  have hdigits : ∀ (k : ℕ) (rest : List Char), Delimits rest →
      (Nat.toDigits 10 k ++ rest).takeWhile Char.isDigit = Nat.toDigits 10 k := by
    intro k rest hrest
    rw [List.takeWhile_append_of_pos fun c hc =>
      Nat.isDigit_of_mem_toDigits (by decide) (by decide) hc]
    cases rest with
    | nil => rw [List.takeWhile_nil, List.append_nil]
    | cons c rest =>
        rw [List.takeWhile_cons_of_neg (by simp [hrest c rfl]), List.append_nil]
  have hsame : Nat.toDigits 10 m = Nat.toDigits 10 n := by
    rw [← hdigits m r hr, h, hdigits n s hs]
  have hvalue := congrArg (fun digits => Nat.ofDigitChars 10 digits 0) hsame
  simp only [Nat.ofDigitChars_ten_toDigits] at hvalue
  rw [hsame] at h
  exact ⟨hvalue, List.append_cancel_left h⟩

/-- The kind of a value, which the first character of its text shows. -/
def Json.kind : Json → ℕ
  | .null => 0
  | .num _ => 1
  | .str _ => 2
  | .arr _ => 3
  | .obj _ => 4

/-- The kind of value that begins with a character. -/
def kindOf (c : Char) : ℕ :=
  if c.isDigit then 1
  else if c = 'n' then 0
  else if c = '\x22' then 2
  else if c = '[' then 3
  else if c = '\x7b' then 4
  else 5

theorem Json.exists_text (value : Json) :
    ∃ first rest, value.text = first :: rest ∧ kindOf first = value.kind := by
  cases value with
  | null | str text | arr items | obj fields => exact ⟨_, _, rfl, rfl⟩
  | num n =>
      obtain ⟨first, rest, hdigits⟩ := List.exists_cons_of_ne_nil (Nat.toDigits_ne_nil :
        Nat.toDigits 10 n ≠ [])
      have hdigit : first.isDigit = true :=
        Nat.isDigit_of_mem_toDigits (by decide) (by decide) (hdigits ▸ List.mem_cons_self)
      refine ⟨first, rest, hdigits, ?_⟩
      rw [kindOf, if_pos hdigit]
      rfl

theorem Json.kind_eq_of_text {v w : Json} {r s : List Char} (h : v.text ++ r = w.text ++ s) :
    v.kind = w.kind := by
  obtain ⟨a, as, hv, ha⟩ := v.exists_text
  obtain ⟨b, bs, hw, hb⟩ := w.exists_text
  rw [hv, hw] at h
  rw [← ha, ← hb, (List.cons.inj h).1]

/-- No value begins with a closing bracket. -/
theorem Json.text_ne_cons {v : Json} {c : Char} (hc : kindOf c = 5) (r s : List Char) :
    v.text ++ r ≠ c :: s := by
  intro h
  obtain ⟨a, as, hv, ha⟩ := v.exists_text
  rw [hv] at h
  rw [(List.cons.inj h).1, hc] at ha
  cases v <;> cases ha

theorem delimits_itemsText (items : List Json) (rest : List Char) :
    Delimits (itemsText false items ++ rest) := by
  cases items with
  | nil | cons item items => rintro c ⟨⟩; rfl

theorem delimits_fieldsText (fields : List (String × Json)) (rest : List Char) :
    Delimits (fieldsText false fields ++ rest) := by
  cases fields with
  | nil | cons field fields => rintro c ⟨⟩; rfl

mutual

/-- A value is determined by its text, whatever delimits it. -/
theorem Json.text_append_inj : ∀ (v w : Json) {r s : List Char}, Delimits r → Delimits s →
    v.text ++ r = w.text ++ s → v = w ∧ r = s
  | .null, w, r, s, _, _, h => by
      have hkind := Json.kind_eq_of_text h
      cases w <;> cases hkind
      exact ⟨rfl, List.append_cancel_left h⟩
  | .num m, w, r, s, hr, hs, h => by
      have hkind := Json.kind_eq_of_text h
      cases w <;> cases hkind
      obtain ⟨rfl, hrest⟩ := toDigits_append_inj hr hs h
      exact ⟨rfl, hrest⟩
  | .str t, w, r, s, _, _, h => by
      have hkind := Json.kind_eq_of_text h
      cases w <;> cases hkind
      obtain ⟨rfl, hrest⟩ := quote_append_inj h
      exact ⟨rfl, hrest⟩
  | .arr items, w, r, s, _, _, h => by
      have hkind := Json.kind_eq_of_text h
      cases w <;> cases hkind
      obtain ⟨rfl, hrest⟩ := itemsText_append_inj items _ (List.cons.inj h).2
      exact ⟨rfl, hrest⟩
  | .obj fields, w, r, s, _, _, h => by
      have hkind := Json.kind_eq_of_text h
      cases w <;> cases hkind
      obtain ⟨rfl, hrest⟩ := fieldsText_append_inj fields _ (List.cons.inj h).2
      exact ⟨rfl, hrest⟩

theorem itemsText_append_inj : ∀ (vs ws : List Json) {first : Bool} {r s : List Char},
    itemsText first vs ++ r = itemsText first ws ++ s → vs = ws ∧ r = s
  | [], [], _, r, s, h => ⟨rfl, (List.cons.inj h).2⟩
  | [], w :: ws, first, r, s, h => by
      cases first with
      | false => cases (List.cons.inj h).1
      | true =>
          rw [itemsText, itemsText, if_pos rfl, List.nil_append, List.append_assoc] at h
          exact absurd h.symm (Json.text_ne_cons rfl _ _)
  | v :: vs, [], first, r, s, h => by
      cases first with
      | false => cases (List.cons.inj h).1
      | true =>
          rw [itemsText, itemsText, if_pos rfl, List.nil_append, List.append_assoc] at h
          exact absurd h (Json.text_ne_cons rfl _ _)
  | v :: vs, w :: ws, first, r, s, h => by
      simp only [itemsText, List.append_assoc] at h
      have htail := List.append_cancel_left h
      obtain ⟨rfl, hrest⟩ := Json.text_append_inj v w (delimits_itemsText vs r)
        (delimits_itemsText ws s) htail
      obtain ⟨rfl, hend⟩ := itemsText_append_inj vs ws hrest
      exact ⟨rfl, hend⟩

theorem fieldsText_append_inj : ∀ (vs ws : List (String × Json)) {first : Bool}
    {r s : List Char}, fieldsText first vs ++ r = fieldsText first ws ++ s → vs = ws ∧ r = s
  | [], [], _, r, s, h => ⟨rfl, (List.cons.inj h).2⟩
  | [], (key, w) :: ws, first, r, s, h => by
      cases first <;> cases (List.cons.inj h).1
  | (key, v) :: vs, [], first, r, s, h => by
      cases first <;> cases (List.cons.inj h).1
  | (key, v) :: vs, (key', w) :: ws, first, r, s, h => by
      simp only [fieldsText, List.append_assoc, List.cons_append] at h
      obtain ⟨rfl, hvalues⟩ := quote_append_inj (List.append_cancel_left h)
      have hvalue := (List.cons.inj hvalues).2
      obtain ⟨rfl, hrest⟩ := Json.text_append_inj v w (delimits_fieldsText vs r)
        (delimits_fieldsText ws s) hvalue
      obtain ⟨rfl, hend⟩ := fieldsText_append_inj vs ws hrest
      exact ⟨rfl, hend⟩

end

/-- A text is that of one value, up to the order of the fields of its objects. -/
theorem dumps_eq_iff {v w : Json} : dumps v = dumps w ↔ v.sortKeys = w.sortKeys := by
  constructor
  · intro h
    have htext := String.ofList_injective h
    have hempty : Delimits [] := fun c hc => by cases hc
    exact (Json.text_append_inj _ _ hempty hempty (congrArg (· ++ []) htext)).1
  · intro h
    rw [dumps, dumps, h]

/-! ## Digests -/

/-- A stand-in for a digest that tells all texts apart: the bytes as characters. -/
def showBytes (bytes : ByteArray) : String :=
  String.ofList (bytes.data.toList.map Char.ofUInt8)

theorem showBytes_injective : Function.Injective showBytes := by
  have hchar : Function.Injective Char.ofUInt8 := by
    intro a b h
    have hnat : a.toUInt32.toNat = b.toUInt32.toNat := congrArg Char.toNat h
    rw [UInt8.toNat_toUInt32, UInt8.toNat_toUInt32] at hnat
    exact UInt8.toNat_inj.mp hnat
  intro a b h
  have hlist := List.map_injective_iff.mpr hchar (String.ofList_injective h)
  cases a
  cases b
  exact congrArg ByteArray.mk (Array.toList_inj.mp hlist)

end Python
