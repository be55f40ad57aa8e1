/-
# Loaded documents

Objects whose scalars are those of a YAML loader: a mapping is read by a key that is a text.
-/

import PortForge.Python.Objects
import PortForge.Python.Value

namespace Python

variable {R : Type}

/-- A text as a value. -/
def textItem (value : String) : Item R Scalar := .scalar (.str value)

/-- `data.get(key)` of a mapping. -/
def getItem (heap : Heap R Scalar) (object : R) (key : String) : Option (Item R Scalar) :=
  (heap object).child (.key (.str key))

section Assign

variable [DecidableEq R] {heap : Heap R Scalar} {object reached : R} {key field : String}
  {value : Item R Scalar} {entries : List (Scalar × Item R Scalar)}

theorem getItem_assign (h : key ≠ field) :
    getItem (assign heap object (.str field) value) reached key = getItem heap reached key :=
  child_assign fun hkey => h (by injection hkey)

theorem getItem_assign_self (hnode : heap object = .dict entries) :
    getItem (assign heap object (.str field) value) object field = some value := by
  rw [getItem, assign, Function.update_self, hnode]
  exact child_assign_self

theorem getItem_assign_of_ne (h : reached ≠ object) :
    getItem (assign heap object (.str field) value) reached key = getItem heap reached key := by
  rw [getItem, assign, Function.update_of_ne h]
  rfl

end Assign

end Python
