/-
# Symbolic links

A tree of directories, files and symbolic links, and what a path means in it: a walk takes
the names one after another, goes up at `..`, and goes on with the words of a link where it
meets one. The place where a walk ends has no link on the way to it, so that it resolves to
itself.
-/

import PortForge.Python.Paths

namespace Python

/-- What is at a place of a file tree. -/
inductive TreeNode
  | directory
  | file
  | link (target : PurePath)
  deriving DecidableEq

/-- A file tree. A place is the list of the names that lead to it from the root. -/
structure FileTree where
  node : List String → Option TreeNode
  /-- How many links of a path are followed before it is given up as a loop. -/
  limit : ℕ

namespace FileTree

variable (tree : FileTree)

/-- Walk along names up to the first link: the place in front of it, what the link says, and
the names behind it. -/
def descend : List String → List String → List String × Option (PurePath × List String)
  | place, [] => (place, none)
  | place, name :: rest =>
      if name = ".." then descend place.dropLast rest
      else
        match tree.node (place ++ [name]) with
        | some (.link target) => (place, some (target, rest))
        | _ => descend (place ++ [name]) rest

/-- Walk along names and through links, if there are not too many. -/
def follow (limit : ℕ) (place names : List String) : Option (List String) :=
  match tree.descend place names, limit with
  | (place, none), _ => some place
  | (_, some _), 0 => none
  | (place, some (target, rest)), limit + 1 =>
      follow limit (if target.anchor = "" then place else []) (target.parts ++ rest)

/-- `os.path.realpath` of an absolute path, which need not exist. -/
def resolve (path : PurePath) : Option (List String) := tree.follow tree.limit [] path.parts

/-- Where a file ends up that is renamed to a path: in the directory that the parent resolves
to. A link of that name is replaced, not followed, and a directory is in the way. -/
def placeOf (path : PurePath) : Option (List String) :=
  match path.parts.getLast? with
  | none => none
  | some name =>
      if name = ".." then none
      else
        (tree.resolve path.parent).bind fun directory =>
          if tree.node (directory ++ [name]) = some .directory then none
          else some (directory ++ [name])

/-- No link and no `..` is on the way to the place. -/
structure LinkFree (place : List String) : Prop where
  links : ∀ above name, above ++ [name] <+: place → ∀ target,
    tree.node (above ++ [name]) ≠ some (.link target)
  names : ".." ∉ place

variable {tree} {place names : List String} {name : String} {limit : ℕ} {path : PurePath}

theorem linkFree_nil : tree.LinkFree [] := by
  refine ⟨fun above name habove => ?_, List.not_mem_nil⟩
  simp at habove

theorem LinkFree.of_isPrefix {above : List String} (h : tree.LinkFree place)
    (habove : above <+: place) : tree.LinkFree above :=
  ⟨fun front name hfront => h.links front name (hfront.trans habove),
    fun hmem => h.names (habove.subset hmem)⟩

theorem LinkFree.concat (h : tree.LinkFree place) (hname : name ≠ "..")
    (hnode : ∀ target, tree.node (place ++ [name]) ≠ some (.link target)) :
    tree.LinkFree (place ++ [name]) := by
  refine ⟨fun above other habove => ?_, ?_⟩
  · obtain heq | habove := List.prefix_concat_iff.mp habove
    · rw [heq]
      exact hnode
    · exact h.links above other habove
  · rw [List.mem_append, not_or]
    exact ⟨h.names, fun hmem => hname (List.mem_singleton.mp hmem).symm⟩

theorem LinkFree.descend (h : tree.LinkFree place) (names : List String) :
    tree.LinkFree (tree.descend place names).1 := by
  induction names generalizing place with
  | nil => exact h
  | cons name rest ih =>
      rw [FileTree.descend]
      split
      · exact ih (h.of_isPrefix (List.dropLast_prefix place))
      · next hname =>
          split
          · exact h
          · next hnode => exact ih (h.concat hname hnode)

theorem follow_of_end {target : List String} (h : tree.descend place names = (target, none)) :
    tree.follow limit place names = some target := by
  unfold follow
  rw [h]

theorem follow_zero_of_link {front rest : List String} {target : PurePath}
    (h : tree.descend place names = (front, some (target, rest))) :
    tree.follow 0 place names = none := by
  unfold follow
  rw [h]

theorem follow_succ_of_link {front rest : List String} {target : PurePath}
    (h : tree.descend place names = (front, some (target, rest))) :
    tree.follow (limit + 1) place names =
      tree.follow limit (if target.anchor = "" then front else []) (target.parts ++ rest) := by
  conv_lhs => unfold follow
  rw [h]

/-- A walk ends at a place without links. -/
theorem LinkFree.follow (h : tree.LinkFree place) {target : List String}
    (hfollow : tree.follow limit place names = some target) : tree.LinkFree target := by
  have hfront := h.descend names
  induction limit generalizing place names with
  | zero =>
      rcases hdescend : tree.descend place names with ⟨front, none | ⟨link, rest⟩⟩
      · rw [follow_of_end hdescend, Option.some_inj] at hfollow
        rwa [hdescend, hfollow] at hfront
      · rw [follow_zero_of_link hdescend] at hfollow
        cases hfollow
  | succ limit ih =>
      rcases hdescend : tree.descend place names with ⟨front, none | ⟨link, rest⟩⟩
      · rw [follow_of_end hdescend, Option.some_inj] at hfollow
        rwa [hdescend, hfollow] at hfront
      · rw [follow_succ_of_link hdescend] at hfollow
        rw [hdescend] at hfront
        split at hfollow
        · exact ih hfront hfollow (hfront.descend _)
        · exact ih linkFree_nil hfollow (linkFree_nil.descend _)

theorem linkFree_of_resolve (h : tree.resolve path = some place) : tree.LinkFree place :=
  linkFree_nil.follow h

/-- Without links on the way a walk goes straight on. -/
theorem LinkFree.descend_eq (h : tree.LinkFree (place ++ names)) :
    tree.descend place names = (place ++ names, none) := by
  induction names generalizing place with
  | nil => rw [FileTree.descend, List.append_nil]
  | cons name rest ih =>
      have hrest : place ++ name :: rest = place ++ [name] ++ rest := by
        rw [List.append_assoc, List.singleton_append]
      have hname : name ≠ ".." := by
        rintro rfl
        exact h.names (List.mem_append_right place List.mem_cons_self)
      rw [FileTree.descend, if_neg hname]
      rw [hrest] at h
      split
      · next target hlink => exact absurd hlink (h.links place name (List.prefix_append _ rest) target)
      · rw [ih h, hrest]

/-- A place without links on the way to it resolves to itself. -/
theorem LinkFree.resolve_eq (h : tree.LinkFree place) {anchor : String} :
    tree.resolve ⟨anchor, place⟩ = some place :=
  follow_of_end h.descend_eq

/-- What is renamed to a path ends up in the directory that the parent resolves to. -/
theorem placeOf_eq_some_iff : tree.placeOf path = some place ↔
    ∃ name directory, path.parts.getLast? = some name ∧ name ≠ ".." ∧
      tree.resolve path.parent = some directory ∧ place = directory ++ [name] ∧
      tree.node place ≠ some .directory := by
  rw [placeOf]
  cases hlast : path.parts.getLast? with
  | none => simp
  | some name =>
      by_cases hname : name = ".."
      · simp [hname]
      · simp only [if_neg hname, Option.bind_eq_some_iff, Option.ite_none_left_eq_some,
          Option.some_inj, exists_and_left, exists_eq_left']
        constructor
        · rintro ⟨directory, hresolve, hnode, rfl⟩
          exact ⟨hname, directory, hresolve, rfl, hnode⟩
        · rintro ⟨-, directory, hresolve, rfl, hnode⟩
          exact ⟨directory, hresolve, hnode, rfl⟩

/-- A file that is renamed to a resolved path ends up there. -/
theorem LinkFree.eq_of_placeOf (h : tree.LinkFree place) {anchor : String} {other : List String}
    (hplace : tree.placeOf ⟨anchor, place⟩ = some other) : other = place := by
  obtain ⟨name, directory, hlast, -, hresolve, rfl, -⟩ := placeOf_eq_some_iff.mp hplace
  have hparent : tree.resolve ⟨anchor, place.dropLast⟩ = some place.dropLast :=
    (h.of_isPrefix (List.dropLast_prefix place)).resolve_eq
  rw [PurePath.parent, hparent, Option.some_inj] at hresolve
  rw [← hresolve]
  exact List.dropLast_append_getLast? name hlast

end FileTree

end Python
