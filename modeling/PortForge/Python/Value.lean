/-
# Values of a YAML document

What `yaml.safe_load` returns. Keys of mappings are scalars, as no other value can
be hashed. Scalars without a Lean counterpart (floats, dates, bytes) keep the text
Python prints for them.
-/

import PortForge.Python.Text

namespace Python

/-- A scalar, and so a possible key. -/
inductive Scalar
  | none
  | bool (value : Bool)
  | int (value : ℤ)
  | str (value : String)
  | /-- A scalar of another type. -/
    other (typeName text : String)
  deriving DecidableEq, Repr

/-- What `str` prints of a scalar. -/
def Scalar.shown : Scalar → String
  | .none => "None"
  | .bool true => "True"
  | .bool false => "False"
  | .int number => toString number
  | .str value => value
  | .other _ value => value

/-- A value. -/
inductive Value
  | scalar (value : Scalar)
  | list (items : List Value)
  | dict (items : List (Scalar × Value))
  deriving Repr

namespace Value

/-- A text. -/
def str (text : String) : Value := scalar (.str text)

/-- A number. -/
def int (value : ℤ) : Value := scalar (.int value)

end Value

/-- `data.get(key)`. -/
def get? (data : List (Scalar × Value)) (key : String) : Option Value :=
  (data.find? fun entry => entry.1 = .str key).map fun entry => entry.2

/-- `data[key] = value` on a `dict` with text keys: an existing key keeps its place. -/
def setItem {α : Type} (data : List (String × α)) (key : String) (value : α) : List (String × α) :=
  if data.any fun entry => entry.1 = key then
    data.map fun entry => if entry.1 = key then (key, value) else entry
  else data ++ [(key, value)]

/-- `str.strip()`. -/
def strip (text : String) : String := String.ofList (stripChars text.toList)

/-- `sorted()` of texts, by code points. -/
def sorted (texts : List String) : List String :=
  texts.mergeSort fun first second => decide (first ≤ second)

end Python
