/-
# Editing dotenv files

A line-based editor: it rewrites the lines that assign a mapped key, appends the
keys no line assigns, and passes every other line through unchanged.
-/

import PortForge.Python.Value

namespace Agent

open Python

/-- The shape of the editors' errors: `DotenvError`, `ComposeError`, `KubernetesError`. -/
structure EditorError where
  code : String
  message : String
  details : List (List (String × Value))
  deriving Repr

/-- `DotenvChange.action`. -/
inductive DotenvAction
  | update
  | append
  deriving DecidableEq, Repr

/-- `DotenvChange`. -/
structure DotenvChange where
  key : String
  before : Option String
  after : String
  action : DotenvAction
  deriving DecidableEq, Repr

/-! ## Lines -/

/-- `text.split("\r\n")`. -/
def splitCrlf : List Char → List (List Char)
  | [] => [[]]
  | '\r' :: '\n' :: rest => [] :: splitCrlf rest
  | c :: rest =>
      match splitCrlf rest with
      | [] => [[c]]
      | line :: lines => (c :: line) :: lines

/-- `"\r\n" in text`. -/
def hasCrlf : List Char → Bool
  | '\r' :: '\n' :: _ => true
  | _ :: rest => hasCrlf rest
  | [] => false

/-- `_detect_newline`. -/
def detectNewline (text : List Char) : List Char := if hasCrlf text then ['\r', '\n'] else ['\n']

/-- `text.split(newline)`. -/
def splitLines (newline text : List Char) : List (List Char) :=
  if newline = ['\n'] then text.splitOn '\n' else splitCrlf text

/-- What the editor takes a text apart into. -/
structure DotenvLines where
  newline : List Char
  lines : List (List Char)
  trailing : Bool
  deriving DecidableEq, Repr

/-- The lines of a text; a missing or empty file has none. -/
def readLines (original : Option String) : DotenvLines :=
  match (original.getD "").toList with
  | [] => ⟨['\n'], [], true⟩
  | text =>
      let newline := detectNewline text
      let trailing := newline.isSuffixOf text
      let body := if trailing then text.take (text.length - newline.length) else text
      ⟨newline, splitLines newline body, trailing⟩

/-- `newline.join(lines)`, with the final newline where there is one. -/
def DotenvLines.text (file : DotenvLines) : String :=
  String.ofList (file.newline.intercalate file.lines ++ if file.trailing then file.newline else [])

/-! ## Assignments -/

/-- `(?P<rest>.*)$` on what follows the equals sign: `.` stops at a line feed, and `$`
also matches in front of a final one. -/
def matchRest (text : List Char) : Option (List Char) :=
  if '\n' ∉ text then some text
  else if text.getLast? = some '\n' ∧ '\n' ∉ text.dropLast then some text.dropLast
  else none

/-- `KEY=(?P<rest>.*)$`. -/
def matchKey (key text : List Char) : Option (List Char) :=
  ((key ++ ['=']).isPrefixOf? text).bind matchRest

/-- `_key_regex(key).match(line)`: the groups `prefix` and `rest`. The prefix is blanks
and, where the key follows it, `export` with more blanks. -/
def matchAssignment (key line : List Char) : Option (List Char × List Char) :=
  let blanks := line.takeWhile isSpace
  let body := line.dropWhile isSpace
  let exported :=
    ("export".toList.isPrefixOf? body).bind fun rest =>
      let more := rest.takeWhile isSpace
      if more = [] then none
      else
        (matchKey key (rest.dropWhile isSpace)).map fun value =>
          (blanks ++ "export".toList ++ more, value)
  exported.orElse fun _ => (matchKey key body).map fun value => (blanks, value)

/-- `_split_value_and_comment`: where the comment begins, outside quotes. -/
def splitValueAndComment (inSingle inDouble : Bool) : List Char → List Char × List Char
  | [] => ([], [])
  | c :: rest =>
      if c = '\'' ∧ inDouble = false then
        let parts := splitValueAndComment (!inSingle) inDouble rest
        (c :: parts.1, parts.2)
      else if c = '"' ∧ inSingle = false then
        let parts := splitValueAndComment inSingle (!inDouble) rest
        (c :: parts.1, parts.2)
      else if c = '#' ∧ inSingle = false ∧ inDouble = false then ([], c :: rest)
      else
        let parts := splitValueAndComment inSingle inDouble rest
        (c :: parts.1, parts.2)

/-! ## The update -/

/-- The indices of the lines that assign the key. -/
def occurrences (key : String) (lines : List (List Char)) : List ℕ :=
  (lines.zipIdx.filter fun entry => (matchAssignment key.toList entry.1).isSome).map Prod.snd

/-- The mapped keys that more than one line assigns. -/
def duplicateKeys (lines : List (List Char)) (mapping : List (String × String)) : List String :=
  (mapping.map Prod.fst).filter fun key => 1 < (occurrences key lines).length

def duplicateKeyError (lines : List (List Char)) (duplicates : List String) : EditorError where
  code := "DOTENV_DUPLICATE_KEY"
  message :=
    "The following key(s) appear more than once in the dotenv file, so PortForge cannot safely " ++
      "determine which occurrence controls behavior: " ++ ", ".intercalate (sorted duplicates) ++ "."
  details := duplicates.map fun key =>
    [("key", .str key),
      ("line_numbers", .list ((occurrences key lines).map fun index : ℕ => .int (index + 1)))]

/-- The rewritten line of an assignment. -/
def rewrittenLine (blanks key value rest : List Char) : List Char :=
  let comment := (splitValueAndComment false false rest).2
  blanks ++ key ++ ['='] ++ value ++ if comment = [] then [] else [' ', ' '] ++ comment

/-- One round of the update loop: the new lines and changes, and whether a key was
appended. `lines` are the original lines. -/
def updateKey (lines : List (List Char)) (state : List (List Char) × List DotenvChange × Bool)
    (entry : String × String) : List (List Char) × List DotenvChange × Bool :=
  let (newLines, changes, appended) := state
  let (key, value) := entry
  match occurrences key lines with
  | index :: _ =>
      match matchAssignment key.toList (lines.getD index []) with
      | none => state
      | some (blanks, rest) =>
          let before := String.ofList (stripChars (splitValueAndComment false false rest).1)
          (newLines.set index (rewrittenLine blanks key.toList value.toList rest),
            if before ≠ value then changes ++ [⟨key, some before, value, .update⟩] else changes,
            appended)
  | [] =>
      (newLines ++ [key.toList ++ ['='] ++ value.toList],
        changes ++ [⟨key, none, value, .append⟩], true)

/-- `compute_dotenv_update`: the new text and the changes, or the duplicate keys. -/
def computeDotenvUpdate (original : Option String) (mapping : List (String × String)) :
    Except EditorError (String × List DotenvChange) :=
  let file := readLines original
  let duplicates := duplicateKeys file.lines mapping
  if duplicates ≠ [] then .error (duplicateKeyError file.lines duplicates)
  else
    let (newLines, changes, appended) := mapping.foldl (updateKey file.lines) (file.lines,
        [], false)
    .ok (DotenvLines.text ⟨file.newline, newLines, appended || file.trailing⟩, changes)

example : (computeDotenvUpdate (some "# db\nexport PORT = 1\nPORT=80 # web\n") [("PORT", "8001")]).toOption =
    some ("# db\nexport PORT = 1\nPORT=8001  # web\n", [⟨"PORT", some "80", "8001", .update⟩]) := by
  decide

end Agent
