/-
# Which places a Kubernetes edit changes

The search ends at the only place that fits a mapping, and one value of that entry is assigned.
A YAML alias can put the same entry at several places, and then all of them change. So an edit
changes one place, and two edits can be swapped, exactly if the entries they mean are not shared
or hold the port already.
-/

import Mathlib
import PortForge.Agent.KubernetesEditor

namespace Agent.Kubernetes

open Python Effects

variable {R : Type} {heap : Heap R Scalar} {documents : R}
  {path place : List (Step Scalar)}

/-! ## Places -/

/-- The mapping at a path. -/
def dictAt (heap : Heap R Scalar) (documents : R) (path : List (Step Scalar)) : Option R :=
  (itemAt heap (.ref documents) path).bind (asDict heap)

/-- The way to an item of the list under a key. -/
def inList (path : List (Step Scalar)) (key : String) (index : ℕ) : List (Step Scalar) :=
  path ++ [.key (.str key)] ++ [.index index]

/-- The entry at a place of a ports list has the port and the protocol. -/
def FitsPort (upper : String → String) (heap : Heap R Scalar) (documents : R) (key : String)
    (port : ℕ) (protocol : String) (place : List (Step Scalar)) : Prop :=
  ∃ entry, dictAt heap documents place = some entry ∧
    equalsPort (getItem heap entry key) port = true ∧
    hasProtocol upper heap protocol entry = .ok true

/-- The document at an index is the named resource. -/
def FitsResource (heap : Heap R Scalar) (documents : R) (kind name : String)
    («namespace» : Option String) (index : ℕ) : Prop :=
  ∃ document, dictAt heap documents [.index index] = some document ∧
    isResource heap kind name «namespace» document = true

/-- The mapping at a place has the name of the container. -/
def FitsContainer (heap : Heap R Scalar) (documents : R) (container : String)
    (place : List (Step Scalar)) : Prop :=
  ∃ found, dictAt heap documents place = some found ∧
    equalsText (getItem heap found "name") container = true

/-- `spec.template.spec` of a document. -/
def podSpecPath (index : ℕ) : List (Step Scalar) :=
  [.index index] ++ [.key (.str "spec")] ++ [.key (.str "template")] ++ [.key (.str "spec")]

/-- `spec` of a document. -/
def specPath (index : ℕ) : List (Step Scalar) := [.index index] ++ [.key (.str "spec")]

/-- The place fits the mapping's kind, name and namespace, its container, and its port and
protocol. -/
def Fits (upper : String → String) (heap : Heap R Scalar) (documents : R) (mapping : PortMapping)
    (place : List (Step Scalar)) : Prop :=
  match mapping with
  | .hostPort entry => ∃ i c p,
      place = inList (inList (podSpecPath i) "containers" c) "ports" p ∧
      FitsResource heap documents entry.kind entry.name entry.namespace i ∧
      FitsContainer heap documents entry.container (inList (podSpecPath i) "containers" c) ∧
      FitsPort upper heap documents "containerPort" entry.containerPort entry.protocol place
  | .nodePort entry => ∃ i p,
      place = inList (specPath i) "ports" p ∧
      FitsResource heap documents "Service" entry.name entry.namespace i ∧
      FitsPort upper heap documents "port" entry.servicePort entry.protocol place

/-! ## Walking to a place -/

theorem dictAt_key {object found : R} {key : String} (h : dictAt heap documents path = some object)
    (hfound : (getItem heap object key).bind (asDict heap) = some found) :
    dictAt heap documents (path ++ [.key (.str key)]) = some found := by
  obtain ⟨item, hitem, hdict⟩ := Option.bind_eq_some_iff.mp h
  obtain ⟨rfl, -⟩ := asDict_eq_some_iff.mp hdict
  rw [dictAt, itemAt_concat, hitem, Option.bind_some]
  exact hfound

/-- The items of the list under a key are where its indices lead. -/
theorem itemAt_inList {object : R} (h : dictAt heap documents path = some object) (key : String)
    (index : ℕ) :
    itemAt heap (.ref documents) (inList path key index) = (listOf heap object key)[index]? := by
  obtain ⟨item, hitem, hdict⟩ := Option.bind_eq_some_iff.mp h
  obtain ⟨rfl, -⟩ := asDict_eq_some_iff.mp hdict
  have hkey : itemAt heap (.ref documents) (path ++ [.key (.str key)]) = getItem heap object key := by
    rw [itemAt_concat, hitem]
    rfl
  rw [inList, itemAt_concat, hkey, listOf]
  cases hvalue : getItem heap object key with
  | none => rfl
  | some value =>
      cases value with
      | scalar value => rfl
      | ref reached =>
          cases hnode : heap reached with
          | dict entries => simp [childOf, asList, hnode, Node.child]
          | list items => simp [childOf, asList, hnode, Node.child]

theorem mem_dictsWhere_iff {condition : R → Bool} {items : List (Item R Scalar)} {index : ℕ}
    {object : R} :
    (index, object) ∈ dictsWhere heap condition items ↔
      (items[index]?).bind (asDict heap) = some object ∧ condition object = true := by
  simp only [dictsWhere, List.mem_filterMap, Prod.exists, Option.map_eq_some_iff,
    Option.filter_eq_some_iff, Prod.mk.injEq, List.mem_zipIdx_iff_getElem?]
  constructor
  · rintro ⟨item, found, hitem, other, ⟨hdict, hcondition⟩, rfl, rfl⟩
    rw [hitem]
    exact ⟨hdict, hcondition⟩
  · rintro ⟨hdict, hcondition⟩
    obtain ⟨item, hitem, hdict⟩ := Option.bind_eq_some_iff.mp hdict
    exact ⟨item, index, hitem, object, ⟨hdict, hcondition⟩, rfl, rfl⟩

theorem mem_dictsWhere_listOf_iff {holder object : R} {condition : R → Bool} {key : String}
    {index : ℕ} (h : dictAt heap documents path = some holder) :
    (index, object) ∈ dictsWhere heap condition (listOf heap holder key) ↔
      dictAt heap documents (inList path key index) = some object ∧ condition object = true := by
  rw [mem_dictsWhere_iff, dictAt, itemAt_inList h]

theorem exactlyOne_eq_ok_iff {α : Type} {found : List α} {only : α} {missing : KubernetesFailure R}
    {ambiguous : ℕ → KubernetesFailure R} :
    exactlyOne found missing ambiguous = .ok only ↔ found = [only] := by
  match found with
  | [] => simp [exactlyOne]
  | [first] => simp [exactlyOne, pure, Except.pure]
  | first :: second :: rest => simp [exactlyOne]

theorem requireDict_eq_ok_iff {value : Option (Item R Scalar)} {message : String} {object : R} :
    requireDict heap value message = .ok object ↔ value.bind (asDict heap) = some object := by
  unfold requireDict
  cases value.bind (asDict heap) <;> simp [pure, Except.pure]

/-! ## What the searches find -/

/-- What a search with one result says of every index. -/
theorem exists_iff_of_mem_singleton {P : ℕ → R → Prop} {index : ℕ} {object : R}
    (h : ∀ i found, (i, found) ∈ [(index, object)] ↔ P i found) :
    P index object ∧ ∀ i, (∃ found, P i found) ↔ i = index := by
  have hhere := (h index object).mp (List.mem_singleton_self _)
  refine ⟨hhere, fun i => ⟨?_, ?_⟩⟩
  · rintro ⟨found, hfound⟩
    exact congrArg Prod.fst (List.mem_singleton.mp ((h i found).mpr hfound))
  · rintro rfl
    exact ⟨object, hhere⟩

/-- The resource that is found is the only one that fits. -/
theorem findResource_eq_ok {kind name : String} {«namespace» : Option String} {index : ℕ}
    {document : R} (h : findResource heap documents kind name «namespace» = .ok (index, document)) :
    dictAt heap documents [.index index] = some document ∧
      ∀ other, FitsResource heap documents kind name «namespace» other ↔ other = index := by
  simp only [findResource, exactlyOne_eq_ok_iff] at h
  have hitem (i : ℕ) : itemAt heap (.ref documents) [.index i] =
      ((asList heap (.ref documents)).getD [])[i]? := by
    rw [itemAt_singleton]
    cases hnode : heap documents <;> simp [childOf, asList, hnode, Node.child]
  have hfits (i : ℕ) (found : R) : (i, found) ∈ [(index, document)] ↔
      dictAt heap documents [.index i] = some found ∧
        isResource heap kind name «namespace» found = true := by
    rw [← h, mem_dictsWhere_iff, dictAt, hitem]
  obtain ⟨hhere, honly⟩ := exists_iff_of_mem_singleton hfits
  exact ⟨hhere.1, honly⟩

/-- The container that is found is the only one of its list that fits. -/
theorem fitsContainer_iff {container : String} {holder found : R} {index : ℕ}
    (hholder : dictAt heap documents path = some holder)
    (h : dictsWhere heap (fun found => equalsText (getItem heap found "name") container)
      (listOf heap holder "containers") = [(index, found)]) :
    dictAt heap documents (inList path "containers" index) = some found ∧
      ∀ other, FitsContainer heap documents container (inList path "containers" other) ↔
        other = index := by
  have hfits (i : ℕ) (other : R) : (i, other) ∈ [(index, found)] ↔
      dictAt heap documents (inList path "containers" i) = some other ∧
        equalsText (getItem heap other "name") container = true := by
    rw [← h, mem_dictsWhere_listOf_iff hholder]
  obtain ⟨hhere, honly⟩ := exists_iff_of_mem_singleton hfits
  exact ⟨hhere.1, honly⟩

theorem mem_portEntries_iff {upper : String → String} {key protocol : String} {port : ℕ}
    {entries found : List (ℕ × R)}
    (h : portEntries upper heap key port protocol entries = .ok found) (entry : ℕ × R) :
    entry ∈ found ↔ entry ∈ entries ∧ equalsPort (getItem heap entry.2 key) port = true ∧
      hasProtocol upper heap protocol entry.2 = .ok true := by
  induction entries generalizing found with
  | nil =>
      cases h
      simp
  | cons first entries ih =>
      rw [portEntries] at h
      split at h
      · rename_i hport
        obtain ⟨here, hhere, hrest⟩ := bind_eq_ok_iff.mp h
        obtain ⟨others, hothers, hresult⟩ := bind_eq_ok_iff.mp hrest
        have hmem := ih hothers
        cases here with
        | true =>
            cases hresult
            rw [if_pos rfl, List.mem_cons, List.mem_cons, hmem]
            constructor
            · rintro (rfl | hentry)
              · exact ⟨.inl rfl, hport, hhere⟩
              · exact ⟨.inr hentry.1, hentry.2⟩
            · rintro ⟨rfl | hentry, hfits⟩
              · exact .inl rfl
              · exact .inr ⟨hentry, hfits⟩
        | false =>
            cases hresult
            rw [if_neg (by decide), List.mem_cons, hmem]
            constructor
            · exact fun hentry => ⟨.inr hentry.1, hentry.2⟩
            · rintro ⟨rfl | hentry, hfits⟩
              · rw [hhere] at hfits
                cases hfits.2
              · exact ⟨hentry, hfits⟩
      · rename_i hport
        rw [ih h, List.mem_cons]
        constructor
        · exact fun hentry => ⟨.inr hentry.1, hentry.2⟩
        · rintro ⟨rfl | hentry, hfits⟩
          · exact (hport hfits.1).elim
          · exact ⟨hentry, hfits⟩

/-- The port entry that is found is the only one of its list that fits. -/
theorem fitsPort_iff {upper : String → String} {key protocol : String} {port index : ℕ}
    {holder entry : R} (hholder : dictAt heap documents path = some holder)
    (h : portEntries upper heap key port protocol
      (dictsWhere heap (fun _ => true) (listOf heap holder "ports")) = .ok [(index, entry)]) :
    dictAt heap documents (inList path "ports" index) = some entry ∧
      ∀ other, FitsPort upper heap documents key port protocol (inList path "ports" other) ↔
        other = index := by
  have hfits (i : ℕ) (found : R) : (i, found) ∈ [(index, entry)] ↔
      dictAt heap documents (inList path "ports" i) = some found ∧
        equalsPort (getItem heap found key) port = true ∧
        hasProtocol upper heap protocol found = .ok true := by
    rw [mem_portEntries_iff h, mem_dictsWhere_listOf_iff hholder]
    simp
  obtain ⟨hhere, honly⟩ := exists_iff_of_mem_singleton hfits
  exact ⟨hhere.1, honly⟩

theorem requireList_eq_ok_iff {object : R} {key : String} {failure : KubernetesFailure R}
    {result : Unit} : requireList heap object key failure = .ok result ↔
      ((getItem heap object key).bind (asList heap)).isSome = true := by
  unfold requireList
  split <;> simp_all [pure, Except.pure]

variable {upper : String → String} {spelling : Heap R Scalar → R → String} {entry : R}

/-- The place of the entry that is found fits the mapping, and no other place does. -/
def FoundAt (upper : String → String) (heap : Heap R Scalar) (documents : R) (mapping : PortMapping)
    (place : List (Step Scalar)) (entry : R) : Prop :=
  dictAt heap documents place = some entry ∧
    ∀ other, Fits upper heap documents mapping other ↔ other = place

theorem foundAt_of_selectHostPort {mapping : KubernetesHostPortEntry}
    (h : selectHostPort upper heap documents mapping = .ok entry) :
    ∃ place, FoundAt upper heap documents (.hostPort mapping) place entry := by
  simp only [selectHostPort] at h
  split at h
  · cases h
  simp only [bind_eq_ok_iff, requireDict_eq_ok_iff, requireList_eq_ok_iff, exactlyOne_eq_ok_iff] at h
  obtain ⟨⟨i, document⟩, hresource, spec, hspec, template, htemplate, podSpec, hpodSpec, -, -,
    ⟨c, container⟩, hcontainer, found, hfound, ⟨p, object⟩, rfl, hentry⟩ := h
  obtain rfl : object = entry := Except.ok.inj hentry
  obtain ⟨hdocument, honly⟩ := findResource_eq_ok hresource
  have hpod : dictAt heap documents (podSpecPath i) = some podSpec :=
    dictAt_key (dictAt_key (dictAt_key hdocument hspec) htemplate) hpodSpec
  obtain ⟨hcontainerAt, honlyContainer⟩ := fitsContainer_iff hpod hcontainer
  obtain ⟨hentryAt, honlyPort⟩ := fitsPort_iff hcontainerAt hfound
  refine ⟨_, hentryAt, fun other => ⟨?_, ?_⟩⟩
  · rintro ⟨i', c', p', rfl, hresource', hcontainer', hport'⟩
    obtain rfl := (honly i').mp hresource'
    obtain rfl := (honlyContainer c').mp hcontainer'
    obtain rfl := (honlyPort p').mp hport'
    rfl
  · rintro rfl
    exact ⟨i, c, p, rfl, (honly i).mpr rfl, (honlyContainer c).mpr rfl, (honlyPort p).mpr rfl⟩

theorem foundAt_of_selectNodePort {mapping : KubernetesNodePortEntry}
    (h : selectNodePort upper spelling heap documents mapping = .ok entry) :
    ∃ place, FoundAt upper heap documents (.nodePort mapping) place entry := by
  simp only [selectNodePort, bind_eq_ok_iff, requireDict_eq_ok_iff, requireList_eq_ok_iff,
    exactlyOne_eq_ok_iff] at h
  obtain ⟨⟨i, document⟩, hresource, spec, hspec, -, -, -, -, found, hfound, ⟨p, object⟩, rfl,
    hentry⟩ := h
  obtain rfl : object = entry := Except.ok.inj hentry
  obtain ⟨hdocument, honly⟩ := findResource_eq_ok hresource
  have hspecAt : dictAt heap documents (specPath i) = some spec := dictAt_key hdocument hspec
  obtain ⟨hentryAt, honlyPort⟩ := fitsPort_iff hspecAt hfound
  refine ⟨_, hentryAt, fun other => ⟨?_, ?_⟩⟩
  · rintro ⟨i', p', rfl, hresource', hport'⟩
    obtain rfl := (honly i').mp hresource'
    obtain rfl := (honlyPort p').mp hport'
    rfl
  · rintro rfl
    exact ⟨i, p, rfl, (honly i).mpr rfl, (honlyPort p).mpr rfl⟩

theorem foundAt_of_select {mapping : PortMapping}
    (h : select upper spelling heap documents mapping = .ok entry) :
    ∃ place, FoundAt upper heap documents mapping place entry := by
  cases mapping with
  | hostPort mapping => exact foundAt_of_selectHostPort h
  | nodePort mapping => exact foundAt_of_selectNodePort h

/-! ## What is written is never read -/

section Frame

variable [DecidableEq R] {object : R} {field key : String} {value : Item R Scalar}

/-- The keys that the searches read. -/
def readKeys : List String :=
  ["kind", "metadata", "name", "namespace", "spec", "template", "containers", "ports",
    "containerPort", "protocol", "port", "type"]

theorem field_not_mem_readKeys (mapping : PortMapping) : mapping.field ∉ readKeys := by
  cases mapping with
  | hostPort entry => exact (show "hostPort" ∉ readKeys by decide)
  | nodePort entry => exact (show "nodePort" ∉ readKeys by decide)

theorem getItem_assign_of_read (hfield : field ∉ readKeys) (hkey : key ∈ readKeys) (reached : R) :
    getItem (Python.assign heap object (.str field) value) reached key = getItem heap reached key :=
  getItem_assign (ne_of_mem_of_not_mem hkey hfield)

theorem listOf_assign (hfield : field ∉ readKeys) (hkey : key ∈ readKeys) (reached : R) :
    listOf (Python.assign heap object (.str field) value) reached key = listOf heap reached key := by
  rw [listOf, listOf, getItem_assign_of_read hfield hkey]
  congr 2
  funext item
  exact asList_assign

theorem asDict_assign_eq :
    asDict (Python.assign heap object (.str field) value) = asDict heap := funext fun _ => asDict_assign

theorem asList_assign_eq :
    asList (Python.assign heap object (.str field) value) = asList heap := funext fun _ => asList_assign

theorem isResource_assign (hfield : field ∉ readKeys) (kind name : String)
    («namespace» : Option String) :
    isResource (Python.assign heap object (.str field) value) kind name «namespace» =
      isResource heap kind name «namespace» := by
  funext document
  simp (disch := decide) only [isResource, getItem_assign_of_read hfield, asDict_assign_eq]

theorem findResource_assign (hfield : field ∉ readKeys) (kind name : String)
    («namespace» : Option String) :
    findResource (Python.assign heap object (.str field) value) documents kind name «namespace» =
      findResource heap documents kind name «namespace» := by
  simp only [findResource, dictsWhere, isResource_assign hfield, asDict_assign_eq,
    asList_assign_eq]

theorem hasProtocol_assign (hfield : field ∉ readKeys) (protocol : String) (reached : R) :
    hasProtocol upper (Python.assign heap object (.str field) value) protocol reached =
      hasProtocol upper heap protocol reached := by
  simp (disch := decide) only [hasProtocol, getItem_assign_of_read hfield]

theorem portEntries_assign (hfield : field ∉ readKeys) (hkey : key ∈ readKeys) (port : ℕ)
    (protocol : String) (entries : List (ℕ × R)) :
    portEntries upper (Python.assign heap object (.str field) value) key port protocol entries =
      portEntries upper heap key port protocol entries := by
  induction entries with
  | nil => rfl
  | cons entry entries ih =>
      rw [portEntries, portEntries, getItem_assign_of_read hfield hkey, hasProtocol_assign hfield, ih]

theorem checkServiceType_assign (hfield : field ∉ readKeys) {name : String} {spec : R}
    {result : Unit} (h : checkServiceType spelling heap name spec = .ok result) :
    checkServiceType spelling (Python.assign heap object (.str field) value) name spec = .ok result := by
  simp (disch := decide) only [checkServiceType, getItem_assign_of_read hfield] at h ⊢
  split at h
  · rename_i hsupported
    rw [if_pos hsupported]
    exact h
  · obtain ⟨shownType, -, hraised⟩ := bind_eq_ok_iff.mp h
    cases hraised

/-- An assignment of a port does not change what a mapping means. -/
theorem select_assign (hfield : field ∉ readKeys) {mapping : PortMapping}
    (h : select upper spelling heap documents mapping = .ok entry) :
    select upper spelling (Python.assign heap object (.str field) value) documents mapping =
      .ok entry := by
  cases mapping with
  | hostPort mapping =>
      have hsame : selectHostPort upper (Python.assign heap object (.str field) value) documents mapping =
          selectHostPort upper heap documents mapping := by
        simp (disch := decide) only [selectHostPort, findResource_assign hfield, requireDict,
          requireList, getItem_assign_of_read hfield, listOf_assign hfield, dictsWhere, asDict_assign_eq,
          asList_assign_eq, portEntries_assign hfield]
      exact hsame.trans h
  | nodePort mapping =>
      rw [select] at h ⊢
      simp (disch := decide) only [selectNodePort, findResource_assign hfield, requireDict,
        requireList, getItem_assign_of_read hfield, listOf_assign hfield, dictsWhere, asDict_assign_eq,
        asList_assign_eq, portEntries_assign hfield] at h ⊢
      simp only [bind_eq_ok_iff] at h ⊢
      obtain ⟨found, hfound, spec, hspec, ⟨⟩, htype, hrest⟩ := h
      exact ⟨found, hfound, spec, hspec, (), checkServiceType_assign hfield htype, hrest⟩

end Frame

/-! ## Edits -/

section Edits

variable [DecidableEq R]

/-- The documents after an edit. -/
def after (upper : String → String) (spelling : Heap R Scalar → R → String) (documents : R)
    (mapping : PortMapping) (port : ℕ) (heap : Heap R Scalar) : Heap R Scalar :=
  match applyPort upper spelling documents mapping port heap with
  | .ok _ after => after
  | .error _ after => after

theorem applyPort_of_ok {mapping : PortMapping}
    (h : select upper spelling heap documents mapping = .ok entry) (port : ℕ) :
    applyPort upper spelling documents mapping port heap =
      .ok (mapping.change (getItem heap entry mapping.field) port)
        (Python.assign heap entry (.str mapping.field) (.scalar (.int port))) := by
  simp only [applyPort, bind, EStateM.bind, MonadState.get, getThe, MonadStateOf.get,
    EStateM.get, h, set, EStateM.set]
  rfl

theorem applyPort_of_error {mapping : PortMapping} {failure : KubernetesFailure R}
    (h : select upper spelling heap documents mapping = .error failure) (port : ℕ) :
    applyPort upper spelling documents mapping port heap = .error failure heap := by
  simp only [applyPort, bind, EStateM.bind, MonadState.get, getThe, MonadStateOf.get,
    EStateM.get, h]
  rfl

/-- What an edit promises: it raises and changes nothing, or exactly one place fits the mapping,
and exactly the field at this place has the port now. -/
def EditsOneField (upper : String → String) (spelling : Heap R Scalar → R → String)
    (heap : Heap R Scalar) (documents : R) (mapping : PortMapping) (port : ℕ) : Prop :=
  match applyPort upper spelling documents mapping port heap with
  | .error _ after => Python.content after (.ref documents) = Python.content heap (.ref documents)
  | .ok _ after => ∃ place keys, (∀ other, Fits upper heap documents mapping other ↔ other = place) ∧
      Python.content heap (.ref documents) place = some (.dict keys) ∧
      Python.content after (.ref documents) = Python.edited (Python.content heap (.ref documents)) place
        (.key (.str mapping.field)) (.dict (withKey (.str mapping.field) keys)) (.int port)

/-- The entry that a mapping means has the port already, or there is only one way to it. -/
def Unshared (upper : String → String) (spelling : Heap R Scalar → R → String)
    (heap : Heap R Scalar) (documents : R) (mapping : PortMapping) (port : ℕ) : Prop :=
  ∀ entry place, select upper spelling heap documents mapping = .ok entry →
    Fits upper heap documents mapping place →
      getItem heap entry mapping.field = some (.scalar (.int port)) ∨
        SolePath heap (.ref documents) entry place (.key (.str mapping.field))

theorem editsOneField_iff {mapping : PortMapping} {port : ℕ} :
    EditsOneField upper spelling heap documents mapping port ↔
      Unshared upper spelling heap documents mapping port := by
  cases hselect : select upper spelling heap documents mapping with
  | error failure =>
      rw [EditsOneField, applyPort_of_error hselect]
      refine iff_of_true rfl fun entry place hentry => ?_
      rw [hselect] at hentry
      cases hentry
  | ok entry =>
      obtain ⟨place, hdict, honly⟩ := foundAt_of_select hselect
      obtain ⟨item, hitem, hentry⟩ := Option.bind_eq_some_iff.mp hdict
      obtain ⟨rfl, entries, hnode⟩ := asDict_eq_some_iff.mp hentry
      have hcontent : Python.content heap (.ref documents) place =
          some (.dict (entries.map Prod.fst)) := by
        rw [Python.content, hitem, Option.map_some, shapeOf, hnode, Node.shape]
      have hedit : Python.content (Python.assign heap entry (.str mapping.field) (.scalar (.int port)))
            (.ref documents) = Python.edited (Python.content heap (.ref documents)) place
              (.key (.str mapping.field))
              (.dict (withKey (.str mapping.field) (entries.map Prod.fst))) (.int port) ↔
          getItem heap entry mapping.field = some (.scalar (.int port)) ∨
            SolePath heap (.ref documents) entry place (.key (.str mapping.field)) :=
        content_assign_iff hnode hitem
      rw [EditsOneField, applyPort_of_ok hselect]
      constructor
      · rintro ⟨place', keys, honly', hkeys, hedited⟩ found other hfound hother
        rw [hselect, Except.ok.injEq] at hfound
        obtain rfl : place' = place := (honly place').mp ((honly' place').mpr rfl)
        obtain rfl : other = place' := (honly other).mp hother
        rw [hcontent, Option.some_inj, Shape.dict.injEq] at hkeys
        rw [← hfound]
        rw [← hkeys] at hedited
        exact hedit.mp hedited
      · intro hunshared
        exact ⟨place, _, honly, hcontent,
          hedit.mpr (hunshared entry place hselect ((honly place).mpr rfl))⟩

/-- Two edits that mean different places can be made in either order. -/
def Swaps (upper : String → String) (spelling : Heap R Scalar → R → String)
    (heap : Heap R Scalar) (documents : R) (first second : PortMapping) (firstPort secondPort : ℕ) :
    Prop :=
  ∀ entry other place otherPlace, select upper spelling heap documents first = .ok entry →
    select upper spelling heap documents second = .ok other →
    Fits upper heap documents first place → Fits upper heap documents second otherPlace →
    place ≠ otherPlace →
      Python.content (after upper spelling documents second secondPort
          (after upper spelling documents first firstPort heap)) (.ref documents) =
        Python.content (after upper spelling documents first firstPort
          (after upper spelling documents second secondPort heap)) (.ref documents)

theorem after_of_ok {mapping : PortMapping}
    (h : select upper spelling heap documents mapping = .ok entry) (port : ℕ) :
    after upper spelling documents mapping port heap =
      Python.assign heap entry (.str mapping.field) (.scalar (.int port)) := by
  rw [after, applyPort_of_ok h]

omit [DecidableEq R] in
/-- A place that fits a mapping is reached by keys that the search reads. -/
theorem mem_readKeys_of_fits {mapping : PortMapping} {key : String}
    (h : Fits upper heap documents mapping place) (hkey : .key (.str key) ∈ place) :
    key ∈ readKeys := by
  cases mapping with
  | hostPort entry =>
      obtain ⟨i, c, p, rfl, -⟩ := h
      simp only [inList, podSpecPath, List.cons_append, List.nil_append,
        List.mem_cons, Step.key.injEq, Scalar.str.injEq, reduceCtorEq, List.not_mem_nil, or_false,
        false_or] at hkey
      rcases hkey with rfl | rfl | rfl | rfl | rfl
      all_goals decide
  | nodePort entry =>
      obtain ⟨i, p, rfl, -⟩ := h
      simp only [inList, specPath, List.cons_append, List.nil_append,
        List.mem_cons, Step.key.injEq, Scalar.str.injEq, reduceCtorEq, List.not_mem_nil, or_false,
        false_or] at hkey
      rcases hkey with rfl | rfl
      all_goals decide

omit [DecidableEq R] in
/-- An entry with one way to it is not meant by a mapping that means another place. -/
theorem not_solePath_of_fits {mapping : PortMapping} {field : String}
    {otherPlace : List (Step Scalar)} (hfield : field ∉ readKeys) (hfound : FoundAt upper heap documents mapping place entry)
    (hne : place ≠ otherPlace) :
    ¬ SolePath heap (.ref documents) entry otherPlace (.key (.str field)) := by
  intro hsole
  obtain ⟨item, hitem, hdict⟩ := Option.bind_eq_some_iff.mp hfound.1
  obtain ⟨rfl, -⟩ := asDict_eq_some_iff.mp hdict
  refine hne (hsole place hitem fun hpre => hfield ?_)
  refine mem_readKeys_of_fits ((hfound.2 place).mpr rfl) (hpre.subset ?_)
  exact List.mem_append_right _ (List.mem_singleton_self _)

theorem after_of_there {mapping : PortMapping} {port : ℕ}
    (hselect : select upper spelling heap documents mapping = .ok entry)
    (hfound : FoundAt upper heap documents mapping place entry)
    (h : getItem heap entry mapping.field = some (.scalar (.int port))) :
    after upper spelling documents mapping port heap = heap := by
  obtain ⟨item, hitem, hdict⟩ := Option.bind_eq_some_iff.mp hfound.1
  obtain ⟨-, entries, hnode⟩ := asDict_eq_some_iff.mp hdict
  rw [after_of_ok hselect]
  exact assign_of_child hnode h

theorem swaps_of_unshared {first second : PortMapping} {firstPort secondPort : ℕ}
    (hfirst : Unshared upper spelling heap documents first firstPort)
    (hsecond : Unshared upper spelling heap documents second secondPort) :
    Swaps upper spelling heap documents first second firstPort secondPort := by
  intro entry other place otherPlace hentry hother hplace hotherPlace hne
  obtain ⟨place', hfound⟩ := foundAt_of_select hentry
  obtain rfl : place = place' := (hfound.2 place).mp hplace
  obtain ⟨otherPlace', hotherFound⟩ := foundAt_of_select hother
  obtain rfl : otherPlace = otherPlace' := (hotherFound.2 otherPlace).mp hotherPlace
  by_cases hsame : entry = other
  · -- Both mappings mean the same shared entry, which has both ports already.
    subst hsame
    have hthere := (hfirst entry place hentry hplace).resolve_right
      (not_solePath_of_fits (field_not_mem_readKeys first) hotherFound (Ne.symm hne))
    have hotherThere := (hsecond entry otherPlace hother hotherPlace).resolve_right
      (not_solePath_of_fits (field_not_mem_readKeys second) hfound hne)
    have hafter := after_of_there hentry hfound hthere
    have hotherAfter := after_of_there hother hotherFound hotherThere
    rw [hafter, hotherAfter, hafter]
  · have hlater : select upper spelling (Python.assign heap entry (.str first.field)
        (.scalar (.int firstPort))) documents second = .ok other :=
      select_assign (field_not_mem_readKeys first) hother
    have hearlier : select upper spelling (Python.assign heap other (.str second.field)
        (.scalar (.int secondPort))) documents first = .ok entry :=
      select_assign (field_not_mem_readKeys second) hentry
    rw [after_of_ok hentry, after_of_ok hother, after_of_ok hlater, after_of_ok hearlier,
      assign_comm hsame]

/-- Two edits each change one place and can be swapped, if and only if the entries they mean are
not shared or have their ports already. -/
theorem edits_iff (first second : PortMapping) (firstPort secondPort : ℕ) :
    (EditsOneField upper spelling heap documents first firstPort ∧
        EditsOneField upper spelling heap documents second secondPort ∧
        Swaps upper spelling heap documents first second firstPort secondPort) ↔
      Unshared upper spelling heap documents first firstPort ∧
        Unshared upper spelling heap documents second secondPort := by
  constructor
  · rintro ⟨hfirst, hsecond, -⟩
    exact ⟨editsOneField_iff.mp hfirst, editsOneField_iff.mp hsecond⟩
  · rintro ⟨hfirst, hsecond⟩
    exact ⟨editsOneField_iff.mpr hfirst, editsOneField_iff.mpr hsecond,
      swaps_of_unshared hfirst hsecond⟩

end Edits

/-! ## Two containers with one ports list -/

/-- A deployment whose container `b` has an alias of the ports of its container `a`. -/
def sharedPorts : Heap ℕ Scalar
  | 0 => .list [.ref 1]
  | 1 => .dict [(.str "kind", textItem "Deployment"), (.str "metadata", .ref 2), (.str "spec", .ref 3)]
  | 2 => .dict [(.str "name", textItem "web")]
  | 3 => .dict [(.str "template", .ref 4)]
  | 4 => .dict [(.str "spec", .ref 5)]
  | 5 => .dict [(.str "containers", .ref 6)]
  | 6 => .list [.ref 7, .ref 8]
  | 7 => .dict [(.str "name", textItem "a"), (.str "ports", .ref 9)]
  | 8 => .dict [(.str "name", textItem "b"), (.str "ports", .ref 9)]
  | 9 => .list [.ref 10]
  | _ => .dict [(.str "containerPort", .scalar (.int 80))]

/-- Port 80 of a container of the deployment. -/
def webPort (container : String) : PortMapping :=
  .hostPort
    { kind := "Deployment"
      name := "web"
      «namespace» := none
      container := container
      containerPort := 80
      protocol := "tcp"
      allocation := container }

/-- `str.upper` of an ASCII text. -/
def upperAscii (value : String) : String := String.ofList (value.toList.map Char.toUpper)

/-- The host port of container `a` is that of container `b` as well. -/
theorem edits_share_alias :
    ¬ (EditsOneField upperAscii (fun _ _ => "{}") sharedPorts 0 (webPort "a") 9000 ∧
      EditsOneField upperAscii (fun _ _ => "{}") sharedPorts 0 (webPort "b") 9001 ∧
      Swaps upperAscii (fun _ _ => "{}") sharedPorts 0 (webPort "a") (webPort "b") 9000 9001) := by
  rintro ⟨⟨place, keys, honly, -, hcontent⟩, -, -⟩
  have hfits : Fits upperAscii sharedPorts 0 (webPort "a")
      (inList (inList (podSpecPath 0) "containers" 0) "ports" 0) :=
    ⟨0, 0, 0, rfl, ⟨1, rfl, rfl⟩, ⟨7, rfl, rfl⟩, ⟨10, rfl, rfl, rfl⟩⟩
  obtain rfl := (honly _).mp hfits
  have hother := congrFun hcontent
    (inList (inList (podSpecPath 0) "containers" 1) "ports" 0 ++ [.key (.str "hostPort")])
  rw [Python.edited, if_neg (by decide), if_neg (by decide), if_neg (by decide)] at hother
  exact absurd hother (by decide)

end Agent.Kubernetes
