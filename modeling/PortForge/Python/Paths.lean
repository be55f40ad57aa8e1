/-
# Paths

Paths as `pathlib` takes them apart: an anchor and the components after it.
-/

import Mathlib.Data.List.Basic
import Mathlib.Tactic.Common

namespace Python

/-- A path, by its anchor and components. A relative path has an empty anchor. -/
structure PurePath where
  anchor : String
  parts : List String
  deriving DecidableEq

namespace PurePath

/-- `Path(text)`, without the components that stay in place. -/
def ofText (text : String) : PurePath where
  anchor :=
    if "//".toList <+: text.toList ∧ ¬ "///".toList <+: text.toList then "//"
    else if "/".toList <+: text.toList then "/" else ""
  parts :=
    ((text.toList.splitOn '/').map String.ofList).filter fun part => part ≠ "" ∧ part ≠ "."

/-- `str(path)`. -/
def text (path : PurePath) : String :=
  if path.anchor = "" ∧ path.parts = [] then "." else path.anchor ++ "/".intercalate path.parts

/-- `path / name`, for a plain name. -/
def child (path : PurePath) (name : String) : PurePath := { path with parts := path.parts ++ [name] }

/-- `path / other`. -/
def join (path other : PurePath) : PurePath :=
  if other.anchor = "" then { path with parts := path.parts ++ other.parts } else other

/-- `Path.parent`. The root of a file system is its own parent. -/
def parent (path : PurePath) : PurePath := { path with parts := path.parts.dropLast }

/-- The directory some levels up. -/
def up (path : PurePath) (levels : ℕ) : PurePath :=
  { path with parts := path.parts.take (path.parts.length - levels) }

/-- `Path.parents`, from the nearest. -/
def parents (path : PurePath) : List PurePath :=
  (List.range path.parts.length).map fun levels => path.up (levels + 1)

/-- The directory contains the path, or is it. -/
def Contains (directory path : PurePath) : Prop :=
  directory.anchor = path.anchor ∧ directory.parts <+: path.parts

instance (directory path : PurePath) : Decidable (directory.Contains path) :=
  inferInstanceAs (Decidable (_ ∧ _))

theorem contains_refl (path : PurePath) : path.Contains path :=
  ⟨rfl, List.prefix_refl _⟩

theorem Contains.antisymm {first second : PurePath} (h : first.Contains second)
    (h' : second.Contains first) : first = second := by
  obtain ⟨anchor, parts⟩ := first
  obtain ⟨hanchor, hparts⟩ := h
  cases hanchor
  cases hparts.eq_of_length_le h'.2.length_le
  rfl

/-- What contains a path and is not that path contains its parent. -/
theorem Contains.parent {directory path : PurePath} (h : directory.Contains path)
    (hne : directory ≠ path) : directory.Contains path.parent := by
  refine ⟨h.1, ?_⟩
  obtain ⟨rest, hrest⟩ := h.2
  obtain rfl | ⟨front, last, rfl⟩ := List.eq_nil_or_concat rest
  · rw [List.append_nil] at hrest
    exact absurd (h.antisymm ⟨h.1.symm, [], by rw [List.append_nil, hrest]⟩) hne
  · refine ⟨front, ?_⟩
    rw [PurePath.parent, ← hrest, List.concat_eq_append, ← List.append_assoc,
      List.dropLast_concat]

@[simp]
theorem up_zero (path : PurePath) : path.up 0 = path := by
  simp [up]

theorem up_succ (path : PurePath) (levels : ℕ) : path.up (levels + 1) = path.parent.up levels := by
  simp only [up, parent, List.length_dropLast, mk.injEq, true_and]
  rw [List.dropLast_eq_take, List.take_take]
  congr 1
  omega

theorem parent_eq_self_iff {path : PurePath} : path.parent = path ↔ path.parts = [] := by
  constructor
  · intro h
    have hlength := congrArg (fun other => other.parts.length) h
    simp only [parent, List.length_dropLast] at hlength
    exact List.eq_nil_of_length_eq_zero (by omega)
  · intro h
    obtain ⟨anchor, parts⟩ := path
    cases h
    rfl

theorem up_of_root {path : PurePath} (h : path.parts = []) (levels : ℕ) :
    path.up levels = path := by
  obtain ⟨anchor, parts⟩ := path
  cases h
  simp [up]

@[simp]
theorem parent_child (path : PurePath) (name : String) : (path.child name).parent = path := by
  simp [parent, child]

/-- A directory above another has fewer components. -/
theorem length_up (path : PurePath) (levels : ℕ) :
    (path.up levels).parts.length = path.parts.length - levels := by
  rw [up, List.length_take]
  omega

theorem ne_of_mem_parents {path above : PurePath} (h : above ∈ path.parents) : above ≠ path := by
  rintro rfl
  obtain ⟨levels, hlevels, hup⟩ := List.mem_map.mp h
  have hlength := congrArg (fun other => other.parts.length) hup
  rw [length_up] at hlength
  rw [List.mem_range] at hlevels
  omega

end PurePath

end Python
