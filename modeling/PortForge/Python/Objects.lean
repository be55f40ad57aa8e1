/-
# Objects that share parts

A loaded document is a graph: a mapping or a list may be the value at several places, as an
alias shares its anchor's object. What is at a path is found by walking down from a root, and
the content of a document says what every path shows. Replacing the value of one object at
one step edits the content at one place exactly if no other path leads to the object, or the
value was there before.
-/

import Mathlib.Data.List.Induction
import Mathlib.Logic.Function.Basic

namespace Python

/-- A value: a scalar, or a reference to an object. -/
inductive Item (R S : Type)
  | scalar (value : S)
  | ref (object : R)
  deriving DecidableEq, Repr

/-- An object: a mapping with its keys in order, or a list. -/
inductive Node (R S : Type)
  | dict (entries : List (S × Item R S))
  | list (items : List (Item R S))
  deriving DecidableEq, Repr

/-- The objects. -/
abbrev Heap (R S : Type) := R → Node R S

/-- One step of a path. -/
inductive Step (S : Type)
  | key (key : S)
  | index (index : ℕ)
  deriving DecidableEq, Repr

/-- What a path shows: a scalar, the keys of a mapping, the length of a list. -/
inductive Shape (S : Type)
  | scalar (value : S)
  | dict (keys : List S)
  | list (length : ℕ)
  deriving DecidableEq, Repr

variable {R S : Type} [DecidableEq R] [DecidableEq S]

/-! ## Entries -/

section Entries

variable {α : Type}

/-- `data[key] = value`: an existing key keeps its place. -/
def setEntry (key : S) (value : α) : List (S × α) → List (S × α)
  | [] => [(key, value)]
  | entry :: entries =>
      if entry.1 = key then (key, value) :: entries else entry :: setEntry key value entries

/-- The keys after an assignment. -/
def withKey (key : S) (keys : List S) : List S := if key ∈ keys then keys else keys ++ [key]

@[simp]
theorem lookup_setEntry_self (key : S) (value : α) (entries : List (S × α)) :
    (setEntry key value entries).lookup key = some value := by
  induction entries with
  | nil => simp [setEntry]
  | cons entry entries ih =>
      by_cases h : entry.1 = key
      · simp [setEntry, h]
      · have hne : (key == entry.1) = false := by simpa using Ne.symm h
        rw [setEntry, if_neg h, List.lookup_cons, hne]
        exact ih

theorem lookup_setEntry_of_ne {key other : S} (value : α) (entries : List (S × α))
    (h : other ≠ key) : (setEntry key value entries).lookup other = entries.lookup other := by
  have hother : (other == key) = false := by simpa using h
  induction entries with
  | nil => simp [setEntry, List.lookup_cons, hother]
  | cons entry entries ih =>
      by_cases hentry : entry.1 = key
      · rw [setEntry, if_pos hentry, List.lookup_cons, List.lookup_cons, hentry, hother]
      · rw [setEntry, if_neg hentry, List.lookup_cons, List.lookup_cons, ih]

/-- Assigning what is there changes nothing. -/
theorem setEntry_of_lookup {key : S} {value : α} {entries : List (S × α)}
    (h : entries.lookup key = some value) : setEntry key value entries = entries := by
  induction entries with
  | nil => cases h
  | cons entry entries ih =>
      by_cases hentry : entry.1 = key
      · rw [List.lookup_cons, hentry, beq_self_eq_true] at h
        have hvalue : entry.2 = value := Option.some.inj h
        rw [setEntry, if_pos hentry, ← hentry, ← hvalue]
      · have hne : (key == entry.1) = false := by simpa using Ne.symm hentry
        rw [List.lookup_cons, hne] at h
        rw [setEntry, if_neg hentry, ih h]

theorem map_fst_setEntry (key : S) (value : α) (entries : List (S × α)) :
    (setEntry key value entries).map Prod.fst = withKey key (entries.map Prod.fst) := by
  induction entries with
  | nil => simp [setEntry, withKey]
  | cons entry entries ih =>
      by_cases hentry : entry.1 = key
      · simp [setEntry, withKey, hentry]
      · rw [setEntry, if_neg hentry, List.map_cons, ih, withKey, withKey, List.map_cons]
        have hmem : key ∈ entry.1 :: entries.map Prod.fst ↔ key ∈ entries.map Prod.fst := by
          rw [List.mem_cons, or_iff_right (Ne.symm hentry)]
        by_cases hkey : key ∈ entries.map Prod.fst
        · rw [if_pos hkey, if_pos (hmem.mpr hkey)]
        · rw [if_neg hkey, if_neg (mt hmem.mp hkey), List.cons_append]

end Entries

/-! ## Walking down -/

/-- The value of an object at a step. -/
def Node.child : Node R S → Step S → Option (Item R S)
  | .dict entries, .key key => entries.lookup key
  | .list items, .index index => items[index]?
  | _, _ => none

/-- What a node shows of itself. -/
def Node.shape : Node R S → Shape S
  | .dict entries => .dict (entries.map Prod.fst)
  | .list items => .list items.length

/-- The value one step below a value. -/
def childOf (heap : Heap R S) : Item R S → Step S → Option (Item R S)
  | .scalar _, _ => none
  | .ref object, step => (heap object).child step

/-- The value at a path below a root. -/
def itemAt (heap : Heap R S) (root : Item R S) (path : List (Step S)) : Option (Item R S) :=
  path.foldlM (childOf heap) root

/-- What a value shows. -/
def shapeOf (heap : Heap R S) : Item R S → Shape S
  | .scalar value => .scalar value
  | .ref object => (heap object).shape

/-- What every path below a root shows. -/
def content (heap : Heap R S) (root : Item R S) (path : List (Step S)) : Option (Shape S) :=
  (itemAt heap root path).map (shapeOf heap)

variable {heap : Heap R S} {root item : Item R S} {path rest : List (Step S)} {step : Step S}

omit [DecidableEq R] in
@[simp]
theorem itemAt_nil : itemAt heap root [] = some root := rfl

omit [DecidableEq R] in
theorem itemAt_cons : itemAt heap root (step :: path) =
    (childOf heap root step).bind fun item => itemAt heap item path := rfl

omit [DecidableEq R] in
theorem itemAt_append : itemAt heap root (path ++ rest) =
    (itemAt heap root path).bind fun item => itemAt heap item rest :=
  List.foldlM_append ..

omit [DecidableEq R] in
theorem itemAt_concat : itemAt heap root (path ++ [step]) =
    (itemAt heap root path).bind fun item => childOf heap item step := by
  rw [itemAt_append]
  congr 1
  funext item
  rw [itemAt_cons]
  cases childOf heap item step with
  | none | some below => rfl

omit [DecidableEq R] in
theorem itemAt_singleton : itemAt heap root [step] = childOf heap root step := by
  rw [← List.nil_append [step], itemAt_concat]
  rfl

omit [DecidableEq R] in
/-- Nothing is below a scalar. -/
theorem itemAt_scalar {value : S} (h : path ≠ []) :
    itemAt heap (.scalar value) path = none := by
  cases path with
  | nil => exact (h rfl).elim
  | cons step path => rfl

/-! ## Replacing a value -/

variable {object : R} {node : Node R S} {place : List (Step S)} {value : S}

/-- Only this path leads to the object, apart from paths through the old value at the step. -/
def SolePath (heap : Heap R S) (root : Item R S) (object : R) (place : List (Step S))
    (step : Step S) : Prop :=
  ∀ path, itemAt heap root path = some (.ref object) → ¬ place ++ [step] <+: path → path = place

/-- A path that never takes the step from the object is not affected. -/
theorem itemAt_update_of_avoids
    (hnode : ∀ other, other ≠ step → node.child other = (heap object).child other)
    (havoids : ∀ before next, before ++ [next] <+: path →
      itemAt heap root before = some (.ref object) → next ≠ step) :
    itemAt (Function.update heap object node) root path = itemAt heap root path := by
  induction path using List.reverseRecOn with
  | nil => rfl
  | append_singleton path last ih =>
      have hpath := ih fun before next hpre =>
        havoids before next (hpre.trans (List.prefix_append path [last]))
      rw [itemAt_concat, itemAt_concat, hpath]
      cases hitem : itemAt heap root path with
      | none => rfl
      | some item =>
          cases item with
          | scalar value => rfl
          | ref reached =>
              by_cases hreached : reached = object
              · have hlast : last ≠ step :=
                  havoids path last (List.prefix_refl _) (hreached ▸ hitem)
                rw [Option.bind_some, Option.bind_some, childOf, childOf, hreached,
                  Function.update_self, hnode last hlast]
              · rw [Option.bind_some, Option.bind_some, childOf, childOf,
                  Function.update_of_ne hreached]

theorem itemAt_update_outside (hsole : SolePath heap root object place step)
    (hnode : ∀ other, other ≠ step → node.child other = (heap object).child other)
    (hpath : ¬ place ++ [step] <+: path) :
    itemAt (Function.update heap object node) root path = itemAt heap root path := by
  refine itemAt_update_of_avoids hnode fun before next hpre hbefore hnext => ?_
  have hnot : ¬ place ++ [step] <+: before := fun h =>
    hpath (h.trans ((List.prefix_append before [next]).trans hpre))
  rw [hsole before hbefore hnot, hnext] at hpre
  exact hpath hpre

/-- What no path leads to can be replaced. -/
theorem itemAt_update_unreached (h : ∀ path, itemAt heap root path ≠ some (.ref object)) :
    itemAt (Function.update heap object node) root path = itemAt heap root path := by
  induction path using List.reverseRecOn with
  | nil => rfl
  | append_singleton path last ih =>
      rw [itemAt_concat, itemAt_concat, ih]
      cases hitem : itemAt heap root path with
      | none => rfl
      | some item =>
          cases item with
          | scalar value => rfl
          | ref reached =>
              have hreached : reached ≠ object := fun hreached => h path (hreached ▸ hitem)
              rw [Option.bind_some, Option.bind_some, childOf, childOf,
                Function.update_of_ne hreached]

theorem content_update_unreached (h : ∀ path, itemAt heap root path ≠ some (.ref object)) :
    content (Function.update heap object node) root = content heap root := by
  funext path
  rw [content, content, itemAt_update_unreached h]
  cases hitem : itemAt heap root path with
  | none => rfl
  | some item =>
      cases item with
      | scalar value => rfl
      | ref reached =>
          have hreached : reached ≠ object := fun hreached => h path (hreached ▸ hitem)
          rw [Option.map_some, Option.map_some, shapeOf, shapeOf, Function.update_of_ne hreached]

/-- Another path to the object, if there is one, leads to it after the replacement as well. -/
theorem exists_other_path
    (hnode : ∀ other, other ≠ step → node.child other = (heap object).child other)
    (hitem : itemAt heap root path = some (.ref object)) (hnot : ¬ place ++ [step] <+: path)
    (hne : path ≠ place) :
    ∃ other, other ≠ place ∧ ¬ place ++ [step] <+: other ∧
      itemAt heap root other = some (.ref object) ∧
      itemAt (Function.update heap object node) root other = some (.ref object) := by
  induction hlength : path.length using Nat.strongRecOn generalizing path with
  | ind n ih =>
      by_cases havoids : ∀ before next, before ++ [next] <+: path →
          itemAt heap root before = some (.ref object) → next ≠ step
      · exact ⟨path, hne, hnot, hitem, (itemAt_update_of_avoids hnode havoids).trans hitem⟩
      · push Not at havoids
        obtain ⟨before, next, hpre, hbefore, rfl⟩ := havoids
        have hshorter : before.length < n := by
          have hle := hpre.length_le
          rw [List.length_append, List.length_singleton] at hle
          omega
        refine ih before.length hshorter hbefore (fun h => ?_) (fun h => ?_) rfl
        · exact hnot (h.trans ((List.prefix_append before [next]).trans hpre))
        · exact hnot (h ▸ hpre)

/-- The content after a scalar was put below a place, whose object then has another shape. -/
def edited (before : List (Step S) → Option (Shape S)) (place : List (Step S)) (step : Step S)
    (shape : Shape S) (value : S) (path : List (Step S)) : Option (Shape S) :=
  if path = place then some shape
  else if path = place ++ [step] then some (.scalar value)
  else if place ++ [step] <+: path then none
  else before path

/-- The content after a value was put below a place, whose object then has another shape. -/
def grafted (before : List (Step S) → Option (Shape S)) (place : List (Step S)) (step : Step S)
    (shape : Shape S) (below : List (Step S) → Option (Shape S)) (path : List (Step S)) :
    Option (Shape S) :=
  if path = place then some shape
  else if place ++ [step] <+: path then below (path.drop (place.length + 1))
  else before path

omit [DecidableEq R] in
/-- An edit puts a scalar, below which there is nothing. -/
theorem edited_eq_grafted (before : List (Step S) → Option (Shape S)) (shape : Shape S) :
    edited before place step shape value =
      grafted before place step shape (content heap (.scalar value)) := by
  have hdrop (rest : List (Step S)) :
      (place ++ [step] ++ rest).drop (place.length + 1) = rest := by
    rw [List.drop_left' (by rw [List.length_append, List.length_singleton])]
  funext path
  rw [edited, grafted]
  by_cases hself : path = place
  · rw [if_pos hself, if_pos hself]
  rw [if_neg hself, if_neg hself]
  by_cases hpre : place ++ [step] <+: path
  · obtain ⟨rest, rfl⟩ := hpre
    rw [if_pos (List.prefix_append _ _), if_pos (List.prefix_append _ _), hdrop]
    cases rest with
    | nil => simp [content, shapeOf]
    | cons next rest => simp [content, itemAt_scalar]
  · have hstep : path ≠ place ++ [step] := fun h => hpre (h ▸ List.prefix_refl _)
    rw [if_neg hstep, if_neg hpre, if_neg hpre]

/-- Where one path leads to the object, exactly what is below its step is replaced. -/
theorem content_graft {item : Item R S} (hplace : itemAt heap root place = some (.ref object))
    (hsole : SolePath heap root object place step)
    (hnode : ∀ other, other ≠ step → node.child other = (heap object).child other)
    (hvalue : node.child step = some item) :
    content (Function.update heap object node) root =
      grafted (content heap root) place step node.shape
        (content (Function.update heap object node) item) := by
  have hnot : ¬ place ++ [step] <+: place := by
    intro hpre
    have hlength := hpre.length_le
    rw [List.length_append, List.length_singleton] at hlength
    omega
  have hthere : itemAt (Function.update heap object node) root place = some (.ref object) :=
    (itemAt_update_outside hsole hnode hnot).trans hplace
  have hbelow (rest : List (Step S)) :
      itemAt (Function.update heap object node) root (place ++ [step] ++ rest) =
        itemAt (Function.update heap object node) item rest := by
    rw [itemAt_append, itemAt_concat, hthere, Option.bind_some, childOf, Function.update_self,
      hvalue, Option.bind_some]
  funext path
  rw [grafted]
  by_cases hself : path = place
  · rw [if_pos hself, hself, content, hthere, Option.map_some, shapeOf, Function.update_self]
  rw [if_neg hself]
  by_cases hpre : place ++ [step] <+: path
  · obtain ⟨rest, rfl⟩ := hpre
    rw [if_pos (List.prefix_append _ _), content, hbelow, content,
      List.drop_left' (by rw [List.length_append, List.length_singleton])]
  · rw [if_neg hpre, content, content, itemAt_update_outside hsole hnode hpre]
    cases hitem : itemAt heap root path with
    | none => rfl
    | some item =>
        cases item with
        | scalar value => rfl
        | ref reached =>
            have hreached : reached ≠ object := fun hreached =>
              hself (hsole path (hreached ▸ hitem) hpre)
            rw [Option.map_some, Option.map_some, shapeOf, shapeOf, Function.update_of_ne hreached]

/-- Where one path leads to the object, exactly its value at the step is edited. -/
theorem content_update (hplace : itemAt heap root place = some (.ref object))
    (hsole : SolePath heap root object place step)
    (hnode : ∀ other, other ≠ step → node.child other = (heap object).child other)
    (hvalue : node.child step = some (.scalar value)) :
    content (Function.update heap object node) root =
      edited (content heap root) place step node.shape value := by
  rw [edited_eq_grafted]
  exact content_graft hplace hsole hnode hvalue

omit [DecidableEq R] in
/-- Where the value was there before, nothing is edited. -/
theorem edited_content_self (hplace : itemAt heap root place = some (.ref object))
    (hvalue : (heap object).child step = some (.scalar value)) :
    edited (content heap root) place step (heap object).shape value = content heap root := by
  have hbelow (rest : List (Step S)) :
      itemAt heap root (place ++ [step] ++ rest) = itemAt heap (.scalar value) rest := by
    rw [itemAt_append, itemAt_concat, hplace, Option.bind_some, childOf, hvalue, Option.bind_some]
  funext path
  rw [edited]
  by_cases hself : path = place
  · rw [if_pos hself, hself, content, hplace]
    rfl
  rw [if_neg hself]
  by_cases hstep : path = place ++ [step]
  · rw [if_pos hstep, hstep, content, ← List.append_nil (place ++ [step]), hbelow]
    rfl
  rw [if_neg hstep]
  by_cases hpre : place ++ [step] <+: path
  · obtain ⟨rest, rfl⟩ := hpre
    have hrest : rest ≠ [] := fun hrest => hstep (by rw [hrest, List.append_nil])
    rw [if_pos (List.prefix_append _ _), content, hbelow, itemAt_scalar hrest, Option.map_none]
  · rw [if_neg hpre]

/-- A path to the object shows the new value in place of the old one. -/
theorem content_update_step (hvalue : node.child step = some item)
    (hpath : itemAt (Function.update heap object node) root path = some (.ref object)) :
    content (Function.update heap object node) root (path ++ [step]) =
      some (shapeOf (Function.update heap object node) item) := by
  rw [content, itemAt_concat, hpath, Option.bind_some, childOf, Function.update_self, hvalue]
  rfl

omit [DecidableEq R] [DecidableEq S] in
theorem child_of_shape {item : Option (Item R S)}
    (h : item.map (shapeOf heap) = some (.scalar value)) : item = some (.scalar value) := by
  cases item with
  | none => cases h
  | some item =>
      cases item with
      | scalar other =>
          have hvalue : other = value := by simpa [shapeOf] using h
          rw [hvalue]
      | ref object => cases hnode : heap object <;> simp [shapeOf, Node.shape, hnode] at h

/-- Putting a scalar into an object edits exactly one place, if and only if the scalar was
there before or no other path leads to the object. -/
theorem content_update_iff (hplace : itemAt heap root place = some (.ref object))
    (hnode : ∀ other, other ≠ step → node.child other = (heap object).child other)
    (hvalue : node.child step = some (.scalar value))
    (hsame : (heap object).child step = some (.scalar value) → node = heap object) :
    content (Function.update heap object node) root =
        edited (content heap root) place step node.shape value ↔
      (heap object).child step = some (.scalar value) ∨
        SolePath heap root object place step := by
  constructor
  · intro hcontent
    by_contra hneither
    push Not at hneither
    obtain ⟨hnew, hsole⟩ := hneither
    rw [SolePath] at hsole
    push Not at hsole
    obtain ⟨path, hitem, hnot, hne⟩ := hsole
    obtain ⟨other, hother, hfree, hbefore, hafter⟩ := exists_other_path hnode hitem hnot hne
    have hshown := congrFun hcontent (other ++ [step])
    rw [content_update_step hvalue hafter, shapeOf, edited] at hshown
    split at hshown
    · cases hkind : node <;> simp [Node.shape, hkind] at hshown
    split at hshown
    · rename_i hsuffix
      exact hother (List.append_cancel_right hsuffix)
    split at hshown
    · cases hshown
    · rw [content, itemAt_concat, hbefore, Option.bind_some, childOf] at hshown
      exact hnew (child_of_shape hshown.symm)
  · rintro (hthere | hsole)
    · have hupdate : Function.update heap object node = heap := by
        rw [hsame hthere, Function.update_eq_self]
      rw [hupdate, hsame hthere, edited_content_self hplace hthere]
    · exact content_update hplace hsole hnode hvalue

/-- Putting something new into an object replaces what is below exactly one place, if and only
if no other path leads to the object. -/
theorem content_graft_iff (hplace : itemAt heap root place = some (.ref object))
    (hnode : ∀ other, other ≠ step → node.child other = (heap object).child other)
    (hvalue : node.child step = some item)
    (hshape : shapeOf (Function.update heap object node) item ≠ node.shape)
    (hnew : ((heap object).child step).map (shapeOf heap) ≠
      some (shapeOf (Function.update heap object node) item)) :
    content (Function.update heap object node) root =
        grafted (content heap root) place step node.shape
          (content (Function.update heap object node) item) ↔
      SolePath heap root object place step := by
  refine ⟨fun hcontent => ?_, fun hsole => content_graft hplace hsole hnode hvalue⟩
  by_contra hsole
  rw [SolePath] at hsole
  push Not at hsole
  obtain ⟨path, hitem, hnot, hne⟩ := hsole
  obtain ⟨other, hother, hfree, hbefore, hafter⟩ := exists_other_path hnode hitem hnot hne
  have hshown := congrFun hcontent (other ++ [step])
  rw [content_update_step hvalue hafter, grafted] at hshown
  split at hshown
  · exact hshape (Option.some.inj hshown)
  split at hshown
  · rename_i hpre
    rcases List.prefix_concat_iff.mp hpre with h | h
    · exact hother (List.append_cancel_right h).symm
    · exact hfree h
  · rw [content, itemAt_concat, hbefore, Option.bind_some, childOf] at hshown
    exact hnew hshown.symm

/-! ## Assignments -/

/-- `isinstance(value, dict)`. -/
def asDict (heap : Heap R S) : Item R S → Option R
  | .scalar _ => none
  | .ref object =>
      match heap object with
      | .dict _ => some object
      | .list _ => none

/-- `isinstance(value, list)`, and its items. -/
def asList (heap : Heap R S) : Item R S → Option (List (Item R S))
  | .scalar _ => none
  | .ref object =>
      match heap object with
      | .dict _ => none
      | .list items => some items

/-- `value[key] = item` on a mapping. -/
def Node.assign (key : S) (item : Item R S) : Node R S → Node R S
  | .dict entries => .dict (setEntry key item entries)
  | .list items => .list items

/-- `value[key] = item` on a mapping of the heap. -/
def assign (heap : Heap R S) (object : R) (key : S) (item : Item R S) : Heap R S :=
  Function.update heap object ((heap object).assign key item)

section Assign

variable {key : S} {value : Item R S}

omit [DecidableEq R] [DecidableEq S] in
theorem asDict_eq_some_iff {object : R} :
    asDict heap item = some object ↔ item = .ref object ∧ ∃ entries, heap object = .dict entries := by
  cases item with
  | scalar value => simp [asDict]
  | ref reached =>
      cases hnode : heap reached with
      | dict entries =>
          simp only [asDict, hnode, Option.some_inj, Item.ref.injEq]
          refine ⟨fun h => ⟨h, entries, h ▸ hnode⟩, fun h => h.1⟩
      | list items =>
          constructor
          · intro h
            simp [asDict, hnode] at h
          · rintro ⟨h, entries, hentries⟩
            rw [Item.ref.inj h] at hnode
            rw [hnode] at hentries
            cases hentries

omit [DecidableEq R] [DecidableEq S] in
theorem asList_eq_some_iff {items : List (Item R S)} :
    asList heap item = some items ↔ ∃ object, item = .ref object ∧ heap object = .list items := by
  cases item with
  | scalar value => simp [asList]
  | ref object => cases hnode : heap object <;> simp [asList, hnode]

omit [DecidableEq R] in
theorem child_assign_of_ne {other : Step S} (node : Node R S) (h : other ≠ .key key) :
    (node.assign key value).child other = node.child other := by
  cases node with
  | list items => rfl
  | dict entries =>
      cases other with
      | index index => rfl
      | key other => exact lookup_setEntry_of_ne value entries fun hkey => h (congrArg Step.key hkey)

omit [DecidableEq R] in
theorem child_assign_self {entries : List (S × Item R S)} :
    ((Node.dict entries).assign key value).child (.key key) = some value :=
  lookup_setEntry_self key value entries

@[simp]
theorem asDict_assign : asDict (assign heap object key value) item = asDict heap item := by
  cases item with
  | scalar value => rfl
  | ref reached =>
      by_cases hreached : reached = object
      · cases hnode : heap object <;> simp [asDict, assign, hreached, Node.assign, hnode]
      · simp [asDict, assign, Function.update_of_ne hreached]

@[simp]
theorem asList_assign : asList (assign heap object key value) item = asList heap item := by
  cases item with
  | scalar value => rfl
  | ref reached =>
      by_cases hreached : reached = object
      · cases hnode : heap object <;> simp [asList, assign, hreached, Node.assign, hnode]
      · simp [asList, assign, Function.update_of_ne hreached]

/-- Reading another key does not see the assignment. -/
theorem child_assign {reached : R} {other : S} (h : other ≠ key) :
    (assign heap object key value reached).child (.key other) =
      (heap reached).child (.key other) := by
  by_cases hreached : reached = object
  · rw [assign, hreached, Function.update_self]
    exact child_assign_of_ne _ fun hkey => h (by injection hkey)
  · rw [assign, Function.update_of_ne hreached]

/-- Assignments to different objects can be swapped. -/
theorem assign_comm {other : R} {otherKey : S} {otherValue : Item R S} (h : object ≠ other) :
    assign (assign heap object key value) other otherKey otherValue =
      assign (assign heap other otherKey otherValue) object key value := by
  rw [assign, assign, assign, assign, Function.update_of_ne (Ne.symm h), Function.update_of_ne h]
  exact Function.update_comm h _ _ _

theorem assign_of_child {entries : List (S × Item R S)} (hnode : heap object = .dict entries)
    (h : (heap object).child (.key key) = some value) : assign heap object key value = heap := by
  rw [hnode] at h
  rw [assign, hnode, Node.assign, setEntry_of_lookup h, ← hnode, Function.update_eq_self]

/-- An assignment of a scalar edits exactly one place, if and only if the scalar was there
before or no other path leads to the mapping. -/
theorem content_assign_iff {entries : List (S × Item R S)} {place : List (Step S)} {value : S}
    (hnode : heap object = .dict entries) (hplace : itemAt heap root place = some (.ref object)) :
    content (assign heap object key (.scalar value)) root =
        edited (content heap root) place (.key key) (.dict (withKey key (entries.map Prod.fst)))
          value ↔
      (heap object).child (.key key) = some (.scalar value) ∨
        SolePath heap root object place (.key key) := by
  have hshape : ((heap object).assign key (.scalar value)).shape =
      .dict (withKey key (entries.map Prod.fst)) := by
    rw [hnode, Node.assign, Node.shape, map_fst_setEntry]
  rw [← hshape]
  refine content_update_iff hplace (fun other hother => child_assign_of_ne _ hother) ?_ fun h => ?_
  · rw [hnode]
    exact child_assign_self
  · rw [hnode] at h
    rw [hnode, Node.assign, setEntry_of_lookup h]

end Assign

end Python
