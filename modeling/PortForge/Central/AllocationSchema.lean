/-
# Allocation payloads

`AllocationIn` as the schema validates it. A payload carries the facts its
validators checked, so a payload the endpoint would have refused cannot be
built.
-/

import PortForge.Python.Text
import PortForge.Central.Schema

namespace Central

open Python

/-- `MAX_BUNDLE_SIZE`. -/
def maxBundleSize : ℕ := 20

/-- A range text that `_validate_requested_range` accepts. -/
def RangeAccepted (text : String) : Prop :=
  match readRange text with
  | some (low, high) => (1 ≤ low ∧ low ≤ 65535) ∧ (1 ≤ high ∧ high ≤ 65535) ∧ low ≤ high
  | none => False

instance (text : String) : Decidable (RangeAccepted text) := by
  unfold RangeAccepted
  split <;> infer_instance

/-- The bounds of a range text. -/
def rangeBounds (text : String) : Option (ℕ × ℕ) :=
  (readRange text).map fun range => (range.1.toNat, range.2.toNat)

/-- `AllocationRequestItem`: one requested port of a bundle. -/
structure AllocationRequestItem where
  name : String
  purpose : String
  protocol : Protocol
  preferredPort : Option ℕ
  requestedRange : Option String
  name_length : 1 ≤ name.length ∧ name.length ≤ 255
  name_stripped : stripChars name.toList = name.toList
  purpose_length : 1 ≤ purpose.length ∧ purpose.length ≤ 64
  preferredPort_bounds : ∀ port ∈ preferredPort, 1 ≤ port ∧ port ≤ 65535
  requestedRange_accepted : ∀ text ∈ requestedRange, RangeAccepted text
  preferredPort_within_range : ∀ port ∈ preferredPort, ∀ text ∈ requestedRange,
    ∀ range ∈ rangeBounds text, range.1 ≤ port ∧ port ≤ range.2

/-- The requested range as the pair of bounds the search uses. -/
def AllocationRequestItem.range (item : AllocationRequestItem) : Option (ℕ × ℕ) :=
  item.requestedRange.bind rangeBounds

/-- `AllocationIn`. -/
structure AllocationIn where
  project : String
  hostId : Uuid
  requests : List AllocationRequestItem
  requestId : Option String
  project_length : 1 ≤ project.length ∧ project.length ≤ 255
  requests_length : 1 ≤ requests.length ∧ requests.length ≤ maxBundleSize
  requestId_length : ∀ text ∈ requestId, 1 ≤ text.length ∧ text.length ≤ 255
  names_nodup : (requests.map fun item => item.name).Nodup

theorem preferredPort_none_bounds : ∀ port ∈ (none : Option ℕ), 1 ≤ port ∧ port ≤ 65535 := by
  simp

theorem requestedRange_none_accepted : ∀ text ∈ (none : Option String), RangeAccepted text := by
  simp

theorem requestId_none_length : ∀ text ∈ (none : Option String),
    1 ≤ text.length ∧ text.length ≤ 255 := by
  simp

end Central
