/-
# Text as Python reads it

The validators of the agent and of Central read integers and strip blanks the way
Python does: the decimal digits of every script, underscores between digits, and
the blanks of `str.isspace`.
-/

import Mathlib.Data.Int.Notation
import Mathlib.Data.Nat.Notation

namespace Python

/-- The characters `str.isspace` accepts, by code point. -/
def spaceCodes : List ℕ :=
  [0x09, 0x0a, 0x0b, 0x0c, 0x0d, 0x1c, 0x1d, 0x1e, 0x1f, 0x20, 0x85, 0xa0, 0x1680, 0x2000, 0x2001,
    0x2002, 0x2003, 0x2004, 0x2005, 0x2006, 0x2007, 0x2008, 0x2009, 0x200a, 0x2028, 0x2029, 0x202f,
    0x205f, 0x3000]

def isSpace (c : Char) : Bool := c.toNat ∈ spaceCodes

/-- `str.strip()` on characters. -/
def stripChars (text : List Char) : List Char :=
  ((text.dropWhile isSpace).reverse.dropWhile isSpace).reverse

/-- The code points of the decimal zeros of all scripts. -/
def decimalZeros : List ℕ :=
  [0x30, 0x660, 0x6f0, 0x7c0, 0x966, 0x9e6, 0xa66, 0xae6, 0xb66, 0xbe6, 0xc66, 0xce6, 0xd66, 0xde6,
    0xe50, 0xed0, 0xf20, 0x1040, 0x1090, 0x17e0, 0x1810, 0x1946, 0x19d0, 0x1a80, 0x1a90, 0x1b50,
    0x1bb0, 0x1c40, 0x1c50, 0xa620, 0xa8d0, 0xa900, 0xa9d0, 0xa9f0, 0xaa50, 0xabf0, 0xff10, 0x104a0,
    0x10d30, 0x11066, 0x110f0, 0x11136, 0x111d0, 0x112f0, 0x11450, 0x114d0, 0x11650, 0x116c0,
    0x11730, 0x118e0, 0x11950, 0x11c50, 0x11d50, 0x11da0, 0x16a60, 0x16ac0, 0x16b50, 0x1d7ce,
    0x1d7d8, 0x1d7e2, 0x1d7ec, 0x1d7f6, 0x1e140, 0x1e2f0, 0x1e950, 0x1fbf0]

/-- The value of a decimal digit of any script. -/
def decimalDigit (c : Char) : Option ℕ :=
  (decimalZeros.find? fun code => code ≤ c.toNat ∧ c.toNat ≤ code + 9).map fun code =>
    c.toNat - code

/-- Digits, with single underscores between them allowed. -/
def underscoredDigits : List Char → Option (List ℕ)
  | [] => none
  | [c] => (decimalDigit c).map fun digit => [digit]
  | c :: '_' :: rest => do
      let digit ← decimalDigit c
      let digits ← underscoredDigits rest
      pure (digit :: digits)
  | c :: rest => do
      let digit ← decimalDigit c
      let digits ← underscoredDigits rest
      pure (digit :: digits)

/-- Python refuses to convert longer digit strings. -/
def maxIntDigits : ℕ := 4300

/-- The blanks around a number: `int` does not skip the separators `\x1c` to `\x1f`. -/
def isIntSpace (c : Char) : Bool := isSpace c && !(0x1c ≤ c.toNat && c.toNat ≤ 0x1f)

/-- A number's text without the blanks around it. -/
def stripInt (text : List Char) : List Char :=
  ((text.dropWhile isIntSpace).reverse.dropWhile isIntSpace).reverse

/-- `int(text)`, where it does not raise. -/
def readInt (text : List Char) : Option ℤ :=
  let (negative, digits) :=
    match stripInt text with
    | '-' :: rest => (true, rest)
    | '+' :: rest => (false, rest)
    | rest => (false, rest)
  match underscoredDigits digits with
  | none => none
  | some digits =>
      if digits.length > maxIntDigits then none
      else
        let value : ℤ := (digits.foldl (fun value digit => value * 10 + digit) 0 : ℕ)
        some (if negative then -value else value)

/-- A `MIN-MAX` text as a pair of integers. -/
def readRange (text : String) : Option (ℤ × ℤ) :=
  match text.toList.splitOn '-' with
  | [low, high] => do
      let low ← readInt low
      let high ← readInt high
      pure (low, high)
  | _ => none

example : readRange " 8_000-+8100" = some (8000, 8100) := by decide

end Python
