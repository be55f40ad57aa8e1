/-
# The promise of a Compose edit

An edit raises its own error and changes nothing, or one entry publishes the binding afterwards
and nothing else is changed. Here the promise is stated, with what it takes to keep it, and shown
for the edits that write to the list: a text is added, or is rewritten in its place.
-/

import Mathlib
import PortForge.Agent.ComposeEntries
import PortForge.Effects.Exceptions

namespace Agent.Compose

open Python Effects

variable {R : Type}

/-! ## What an edit promises -/

/-- The way from the services to the ports of one. -/
def portsPath (service : String) : List (Step Scalar) :=
  [.key (.str service), .key (.str "ports")]

/-- The entries of a service. -/
def entriesOf (heap : Heap R Scalar) (services : R) (service : String) : List (Item R Scalar) :=
  ((itemAt heap (.ref services) (portsPath service)).bind (asList heap)).getD []

/-- All the entries of a service are valid. -/
def Valid (heap : Heap R Scalar) (services : R) (service : String) : Prop :=
  ∀ entry ∈ entriesOf heap services service, (publication heap entry).isSome = true

/-- The entry at an index publishes the binding. -/
def PublishesAt (heap : Heap R Scalar) (services : R) (binding : Binding) (index : ℕ) : Prop :=
  ∃ entry found, (entriesOf heap services binding.service)[index]? = some entry ∧
    publication heap entry = some found ∧ found.Covers binding.containerPort binding.protocol

/-- What the entry at an index publishes. -/
def publicationAt (heap : Heap R Scalar) (services : R) (service : String) (index : ℕ) :
    Option Publication :=
  (entriesOf heap services service)[index]?.bind (publication heap)

/-- Below the services, the entry at an index is changed, or is new, and nothing else: of a
mapping only the field `published`. -/
def OneEntryChanged (heap after : Heap R Scalar) (services : R) (binding : Binding) (index : ℕ) :
    Prop :=
  let path := portsPath binding.service
  let entries := entriesOf heap services binding.service
  let before := Python.content heap (.ref services)
  match entries[index]? with
  | some (.ref _) => ∃ keys, before (path ++ [.index index]) = some (.dict keys) ∧
      Python.content after (.ref services) = Python.edited before (path ++ [.index index])
        (.key (.str "published")) (.dict (withKey (.str "published") keys))
        (.str (toString binding.newHostPort))
  | some (.scalar _) => ∃ value,
      (entriesOf after services binding.service)[index]? = some (.scalar value) ∧
      Python.content after (.ref services) =
        Python.edited before path (.index index) (.list entries.length) value
  | none => ∃ value, entriesOf after services binding.service = entries ++ [.scalar value] ∧
      if (before path).any fun shape => shape ≠ .scalar .none then
        Python.content after (.ref services) =
          Python.edited before path (.index index) (.list (entries.length + 1)) value
      else ∃ keys list, before [.key (.str binding.service)] = some (.dict keys) ∧
        itemAt after (.ref services) path = some list ∧
        Python.content after (.ref services) = grafted before [.key (.str binding.service)]
          (.key (.str "ports")) (.dict (withKey (.str "ports") keys)) (Python.content after list)

variable [DecidableEq R]

/-- One entry publishes the binding after an edit, with the new host port and the address it had;
nothing else is changed, and a second edit changes nothing. -/
structure EditedAt (spelling : Spelling R) (heap after : Heap R Scalar) (data services : R)
    (binding : Binding) (index : ℕ) : Prop where
  publishes : ∀ other, PublishesAt after services binding other ↔ other = index
  fields : publicationAt after services binding.service index = some
    { ip := (publicationAt heap services binding.service index).bind fun found => found.ip
      host := some (binding.newHostPort, binding.newHostPort)
      container := (binding.containerPort, binding.containerPort)
      protocol := binding.protocol }
  changed : OneEntryChanged heap after services binding index
  again : ∀ fresh, ∃ change, applyPortMapping spelling data fresh binding after = .ok change after

/-- What an edit promises: it raises its own error and changes nothing, or, if the entries of the
service are valid, one of them is edited. -/
def EditsPort (spelling : Spelling R) (heap : Heap R Scalar) (data fresh : R) (binding : Binding) :
    Prop :=
  match applyPortMapping spelling data fresh binding heap with
  | .error failure after =>
      (∃ error, failure = .compose error) ∧ Python.content after (.ref data) = Python.content heap (.ref data)
  | .ok _ after => ∀ services, (getItem heap data "services").bind (asDict heap) = some services →
      Valid heap services binding.service →
      ∃ index, EditedAt spelling heap after data services binding index

/-! ## When it keeps the promise -/

/-- The list or the mapping that an update writes to is reached in one way, or has what is
written already. -/
def UpdateUnshared (heap : Heap R Scalar) (services : R) (binding : Binding) (list : R)
    (index : ℕ) : Item R Scalar → Prop
  | .ref object =>
      getItem heap object "published" = some (textItem (toString binding.newHostPort)) ∨
        SolePath heap (.ref services) object (portsPath binding.service ++ [.index index])
          (.key (.str "published"))
  | .scalar (.str value) =>
      rewriteShortEntry value binding.newHostPort = .ok value ∨
        SolePath heap (.ref services) list (portsPath binding.service) (.index index)
  | .scalar _ => True

/-- What an edit of a list needs. The editor can read every entry. If it adds one, none publishes
the binding, and the list is reached in one way. If one entry matches, its port is printed, and
where the entries are valid no other publishes the binding and no other place is changed. -/
def ListSafe (spelling : Spelling R) (heap : Heap R Scalar) (services : R) (binding : Binding)
    (list : R) (items : List (Item R Scalar)) : Prop :=
  ∃ found, items.mapM (entryContainerAndProtocol spelling heap) = .ok found ∧
    match matchesOf binding found with
    | [] => Valid heap services binding.service →
        (∀ other, ¬ PublishesAt heap services binding other) ∧
          SolePath heap (.ref services) list (portsPath binding.service) (.index items.length)
    | [index] => ∀ entry, items[index]? = some entry →
        (∀ object published, entry = .ref object → getItem heap object "published" = some published →
          ∃ printed, str spelling heap published = .ok printed) ∧
        (Valid heap services binding.service →
          (∀ other, PublishesAt heap services binding other → other = index) ∧
            UpdateUnshared heap services binding list index entry)
    | _ => True

/-- What an edit of a service's ports needs. -/
def PortsSafe (spelling : Spelling R) (heap : Heap R Scalar) (services serviceMap : R)
    (binding : Binding) : Ports R → Prop
  | .missing => SolePath heap (.ref services) serviceMap [.key (.str binding.service)]
      (.key (.str "ports"))
  | .listed list items => ListSafe spelling heap services binding list items

/-- What an edit needs. -/
def EditsSafely (spelling : Spelling R) (heap : Heap R Scalar) (data : R) (binding : Binding) :
    Prop :=
  ∀ services serviceMap ports, findService heap data binding.service = .ok (services, serviceMap) →
    portsOf heap binding.service serviceMap = .ok ports →
    PortsSafe spelling heap services serviceMap binding ports

/-! ## What the editor finds -/

/-- A service of the document. -/
structure FoundService (heap : Heap R Scalar) (data services serviceMap : R) (service : String) :
    Prop where
  services_get : getItem heap data "services" = some (.ref services)
  services_dict : ∃ entries, heap services = .dict entries
  service_get : getItem heap services service = some (.ref serviceMap)
  service_dict : ∃ entries, heap serviceMap = .dict entries

/-- A service with a list of ports. -/
structure Located (heap : Heap R Scalar) (data services serviceMap : R) (service : String)
    (list : R) (items : List (Item R Scalar)) : Prop
    extends FoundService heap data services serviceMap service where
  ports_get : getItem heap serviceMap "ports" = some (.ref list)
  list_node : heap list = .list items

section Finding

omit [DecidableEq R]

variable {heap : Heap R Scalar} {data services serviceMap list object : R} {service key : String}
  {items : List (Item R Scalar)} {spelling : Spelling R} {binding : Binding}

/-- A mapping is no list. -/
theorem ne_of_get {value : Item R Scalar} (hget : getItem heap object key = some value)
    (hlist : heap list = .list items) : object ≠ list := by
  rintro rfl
  rw [getItem, hlist] at hget
  cases hget

theorem findService_eq_ok_iff : findService heap data service = .ok (services, serviceMap) ↔
    FoundService heap data services serviceMap service := by
  constructor
  · intro h
    rw [findService] at h
    split at h
    · cases h
    · rename_i found hfound
      split at h
      · cases h
      · rename_i value hvalue
        split at h
        · cases h
        · rename_i serviceMap' hmap
          cases h
          obtain ⟨item, hitem, hdict⟩ := Option.bind_eq_some_iff.mp hfound
          obtain ⟨rfl, hservices⟩ := asDict_eq_some_iff.mp hdict
          obtain ⟨rfl, hservice⟩ := asDict_eq_some_iff.mp hmap
          exact ⟨hitem, hservices, hvalue, hservice⟩
  · intro h
    have hservices : asDict heap (.ref services) = some services :=
      asDict_eq_some_iff.mpr ⟨rfl, h.services_dict⟩
    have hservice : asDict heap (.ref serviceMap) = some serviceMap :=
      asDict_eq_some_iff.mpr ⟨rfl, h.service_dict⟩
    simp [findService, h.services_get, h.service_get, hservices, hservice, pure, Except.pure]

theorem portsOf_eq_listed_iff : portsOf heap service serviceMap = .ok (.listed list items) ↔
    getItem heap serviceMap "ports" = some (.ref list) ∧ heap list = .list items := by
  constructor
  · intro h
    rw [portsOf] at h
    split at h
    · cases h
    · cases h
    · rename_i object hobject
      split at h
      · rename_i found hnode
        cases h
        exact ⟨hobject, hnode⟩
      · cases h
    · cases h
  · rintro ⟨hget, hnode⟩
    rw [portsOf, hget]
    simp only [hnode]
    rfl

theorem portsOf_eq_missing (h : portsOf heap service serviceMap = .ok .missing) :
    getItem heap serviceMap "ports" = none ∨ getItem heap serviceMap "ports" = some (.scalar .none) := by
  rw [portsOf] at h
  split at h
  · rename_i hget
    exact .inl hget
  · rename_i hget
    exact .inr hget
  · split at h <;> cases h
  · cases h

/-- The searches raise errors of the editor. -/
theorem compose_of_findService {failure : ComposeFailure}
    (h : findService heap data service = .error failure) : ∃ error, failure = .compose error := by
  rw [findService] at h
  split at h
  · cases h
    exact ⟨_, rfl⟩
  · split at h
    · cases h
      exact ⟨_, rfl⟩
    · split at h
      · cases h
        exact ⟨_, rfl⟩
      · cases h

theorem compose_of_portsOf {failure : ComposeFailure}
    (h : portsOf heap service serviceMap = .error failure) : ∃ error, failure = .compose error := by
  rw [portsOf] at h
  split at h
  · cases h
  · cases h
  · split at h
    · cases h
    · cases h
      exact ⟨_, rfl⟩
  · cases h
    exact ⟨_, rfl⟩

theorem FoundService.itemAt_service (h : FoundService heap data services serviceMap service) :
    itemAt heap (.ref services) [.key (.str service)] = some (.ref serviceMap) := by
  rw [itemAt_singleton]
  exact h.service_get

theorem FoundService.itemAt_ports (h : FoundService heap data services serviceMap service) :
    itemAt heap (.ref services) (portsPath service) = getItem heap serviceMap "ports" := by
  have hpath : portsPath service = [.key (.str service)] ++ [.key (.str "ports")] := rfl
  rw [hpath, itemAt_concat, h.itemAt_service]
  rfl

theorem Located.itemAt_list (h : Located heap data services serviceMap service list items) :
    itemAt heap (.ref services) (portsPath service) = some (.ref list) :=
  h.itemAt_ports.trans h.ports_get

theorem Located.entriesOf (h : Located heap data services serviceMap service list items) :
    entriesOf heap services service = items := by
  have hlist : asList heap (.ref list) = some items := asList_eq_some_iff.mpr ⟨list, rfl, h.list_node⟩
  rw [Compose.entriesOf, h.itemAt_list, Option.bind_some, hlist]
  rfl

theorem Located.content_list (h : Located heap data services serviceMap service list items) :
    Python.content heap (.ref services) (portsPath service) = some (.list items.length) := by
  rw [Python.content, h.itemAt_list, Option.map_some, shapeOf, h.list_node]
  rfl

theorem Located.itemAt_index (h : Located heap data services serviceMap service list items)
    (index : ℕ) : itemAt heap (.ref services) (portsPath service ++ [.index index]) =
      items[index]? := by
  rw [itemAt_concat, h.itemAt_list, Option.bind_some, childOf, h.list_node]
  rfl

theorem mem_matchesOf {found : List (Option (ℤ × String))} {index : ℕ}
    (h : items.mapM (entryContainerAndProtocol spelling heap) = .ok found) :
    index ∈ matchesOf binding found ↔ ∃ entry, items[index]? = some entry ∧
      entryContainerAndProtocol spelling heap entry =
        .ok (some ((binding.containerPort : ℤ), binding.protocol)) := by
  have hmap := congrArg (·[index]?) (mapM_eq_ok_iff.mp h)
  simp only [List.getElem?_map] at hmap
  rw [matchesOf, List.mem_filter, List.mem_range, decide_eq_true_eq]
  constructor
  · rintro ⟨-, hfound⟩
    rw [hfound] at hmap
    obtain ⟨entry, hentry, hread⟩ := Option.map_eq_some_iff.mp hmap
    exact ⟨entry, hentry, hread⟩
  · rintro ⟨entry, hentry, hread⟩
    rw [hentry, Option.map_some, hread] at hmap
    obtain ⟨result, hresult, heq⟩ := Option.map_eq_some_iff.mp hmap.symm
    cases heq
    exact ⟨(List.getElem?_eq_some_iff.mp hresult).1, hresult⟩

theorem matchesOf_eq_singleton {found : List (Option (ℤ × String))} {index : ℕ}
    (h : ∀ other, other ∈ matchesOf binding found ↔ other = index) :
    matchesOf binding found = [index] := by
  have hnodup : (matchesOf binding found).Nodup := List.nodup_range.filter _
  refine List.perm_singleton.mp ((List.perm_ext_iff_of_nodup hnodup (by simp)).mpr ?_)
  intro other
  rw [h, List.mem_singleton]

/-- Where one entry matches, it is updated. -/
theorem planList_of_sole {index : ℕ}
    (hread : ∀ entry ∈ items, ∃ result, entryContainerAndProtocol spelling heap entry = .ok result)
    (hsole : ∀ other, (∃ entry, items[other]? = some entry ∧
      entryContainerAndProtocol spelling heap entry =
        .ok (some ((binding.containerPort : ℤ), binding.protocol))) ↔ other = index) :
    planList spelling heap binding list items = planUpdate spelling heap binding list items index := by
  obtain ⟨found, hfound⟩ : ∃ found,
      items.mapM (entryContainerAndProtocol spelling heap) = .ok found := by
    cases hmap : items.mapM (entryContainerAndProtocol spelling heap) with
    | ok found => exact ⟨found, rfl⟩
    | error error =>
        obtain ⟨front, item, back, rfl, -, herror⟩ := mapM_eq_error_iff.mp hmap
        obtain ⟨result, hresult⟩ := hread item (by simp)
        rw [hresult] at herror
        cases herror
  have hmatches := matchesOf_eq_singleton fun other => (mem_matchesOf hfound).trans (hsole other)
  rw [planList, hfound]
  simp only [bind, Except.bind, hmatches]

end Finding

/-! ## What is written -/

section Writing

variable {heap : Heap R Scalar} {data services serviceMap list object fresh : R}
  {service key : String} {items : List (Item R Scalar)} {spelling : Spelling R} {binding : Binding}

theorem applyPortMapping_of_ok {edit : Edit R}
    (h : plan spelling heap data binding = .ok (serviceMap, edit)) :
    applyPortMapping spelling data fresh binding heap =
      .ok (edit.change binding) (edit.write binding fresh serviceMap heap) := by
  simp only [applyPortMapping, bind, EStateM.bind, MonadState.get, getThe, MonadStateOf.get,
    EStateM.get, h, set, EStateM.set]
  rfl

theorem applyPortMapping_of_error {failure : ComposeFailure}
    (h : plan spelling heap data binding = .error failure) :
    applyPortMapping spelling data fresh binding heap = .error failure heap := by
  simp only [applyPortMapping, bind, EStateM.bind, MonadState.get, getThe, MonadStateOf.get,
    EStateM.get, h]
  rfl

omit [DecidableEq R] in
theorem plan_of_found {ports : Ports R}
    (hfound : FoundService heap data services serviceMap binding.service)
    (hports : portsOf heap binding.service serviceMap = .ok ports) :
    plan spelling heap data binding =
      (planPorts spelling heap binding ports).map fun edit => (serviceMap, edit) := by
  rw [plan, findService_eq_ok_iff.mpr hfound]
  simp only [bind, Except.bind, hports]
  cases planPorts spelling heap binding ports <;> rfl

omit [DecidableEq R] in
theorem Located.plan_eq (h : Located heap data services serviceMap binding.service list items) :
    plan spelling heap data binding =
      (planList spelling heap binding list items).map fun edit => (serviceMap, edit) :=
  plan_of_found h.toFoundService (portsOf_eq_listed_iff.mpr ⟨h.ports_get, h.list_node⟩)

/-- A mapping is read as before when a list is replaced. -/
theorem get_update_list {node : Node R Scalar} {value : Item R Scalar}
    (hget : getItem heap object key = some value) (hlist : heap list = .list items) :
    getItem (Function.update heap list node) object key = some value := by
  rw [getItem, Function.update_of_ne (ne_of_get hget hlist)]
  exact hget

theorem dict_update_list {node : Node R Scalar}
    (hdict : ∃ entries, heap object = .dict entries) (hlist : heap list = .list items) :
    ∃ entries, Function.update heap list node object = .dict entries := by
  obtain ⟨entries, hentries⟩ := hdict
  have hne : object ≠ list := by
    rintro rfl
    rw [hentries] at hlist
    cases hlist
  exact ⟨entries, by rw [Function.update_of_ne hne, hentries]⟩

/-- The list of a service is replaced. -/
theorem Located.update_list (h : Located heap data services serviceMap service list items)
    (items' : List (Item R Scalar)) :
    Located (Function.update heap list (.list items')) data services serviceMap service list
      items' where
  services_get := get_update_list h.services_get h.list_node
  services_dict := dict_update_list h.services_dict h.list_node
  service_get := get_update_list h.service_get h.list_node
  service_dict := dict_update_list h.service_dict h.list_node
  ports_get := get_update_list h.ports_get h.list_node
  list_node := Function.update_self ..

/-- Entries publish as before when a list is replaced. -/
theorem publication_update_list (hlist : heap list = .list items) (items' : List (Item R Scalar))
    (entry : Item R Scalar) : publication (Function.update heap list (.list items')) entry =
      publication heap entry := by
  by_cases hentry : entry = .ref list
  · rw [hentry, publication_of_list hlist,
      publication_of_list (Function.update_self list (.list items') heap)]
  · refine publication_eq fun object hobject => Function.update_of_ne ?_ _ _
    rintro rfl
    exact hentry hobject

theorem entry_update_list (hlist : heap list = .list items) (items' : List (Item R Scalar))
    {entry : Item R Scalar} (hvalid : (publication heap entry).isSome = true) :
    entryContainerAndProtocol spelling (Function.update heap list (.list items')) entry =
      entryContainerAndProtocol spelling heap entry := by
  refine entry_eq hvalid fun object hobject => Function.update_of_ne ?_ _ _
  rintro rfl
  rw [hobject, publication_of_list hlist] at hvalid
  cases hvalid

/-- Replacing a list by one with a text at an index edits one place, if and only if the text was
there or no other path leads to the list. -/
theorem Located.content_list_iff {items' : List (Item R Scalar)} {index : ℕ} {value : Scalar}
    (h : Located heap data services serviceMap service list items)
    (hother : ∀ other, other ≠ index → items'[other]? = items[other]?)
    (hvalue : items'[index]? = some (.scalar value)) :
    Python.content (Function.update heap list (.list items')) (.ref services) =
        Python.edited (Python.content heap (.ref services)) (portsPath service) (.index index)
          (.list items'.length) value ↔
      items[index]? = some (.scalar value) ∨
        SolePath heap (.ref services) list (portsPath service) (.index index) := by
  have hchild : (heap list).child (.index index) = items[index]? := by rw [h.list_node]; rfl
  rw [← hchild]
  refine content_update_iff h.itemAt_list (fun other hne => ?_) hvalue fun hthere => ?_
  · rw [h.list_node]
    cases other with
    | key key => rfl
    | index other => exact hother other fun heq => hne (congrArg Step.index heq)
  · rw [h.list_node]
    refine congrArg Node.list (List.ext_getElem? fun other => ?_)
    by_cases heq : other = index
    · rw [heq, hvalue, ← hthere, hchild]
    · exact hother other heq

end Writing

/-! ## Texts that are written -/

/-- What the manifest and the allocation ensure of a binding. -/
structure Binding.Accepted (binding : Binding) : Prop where
  container_le : binding.containerPort ≤ 65535
  port_le : binding.newHostPort ≤ 65535
  protocol : binding.protocol = "tcp" ∨ binding.protocol = "udp"

/-- A text that publishes the binding as the editor would write it. -/
structure Written (binding : Binding) (value : String) (ip : Option String) : Prop where
  parse : ∃ short, parseShortEntry value = .ok (some short) ∧
    short.container = binding.containerPort ∧ short.protocol = binding.protocol
  rewrite : rewriteShortEntry value binding.newHostPort = .ok value
  published : shortPublication value = some
    ⟨ip, some (binding.newHostPort, binding.newHostPort),
      (binding.containerPort, binding.containerPort), binding.protocol⟩

section Texts

variable {binding : Binding} {value : String} {short : ShortEntry}

theorem written_shortText {explicit : Bool} (hshort : short.WellFormed explicit)
    (hbinding : binding.Accepted) (hcontainer : short.container = binding.containerPort)
    (hprotocol : short.protocol = binding.protocol)
    (hip : ∀ ip ∈ short.ip, ip.toList.all isAddressChar = true) :
    Written binding (shortText short.ip (toString binding.newHostPort) (toString short.container)
      (suffixText explicit short.protocol)) short.ip := by
  obtain ⟨hparse, hexplicit⟩ := parseShortEntry_shortText hshort binding.newHostPort
  refine ⟨⟨_, hparse, hcontainer, hprotocol⟩, ?_, ?_⟩
  · rw [rewriteShortEntry_eq hparse, hexplicit]
  · rw [shortPublication_shortText hshort hbinding.port_le (hcontainer ▸ hbinding.container_le) hip,
      hcontainer, hprotocol]

/-- The entry that is added publishes the binding. -/
theorem written_newEntry (hbinding : binding.Accepted) :
    Written binding (newEntry binding) none := by
  have hshort : (⟨none, none, binding.containerPort, binding.protocol⟩ : ShortEntry).WellFormed
      (decide (binding.protocol ≠ "tcp")) := by
    refine ⟨printable_of_le hbinding.container_le, ?_, nofun, nofun, nofun, nofun⟩
    split
    · exact hbinding.protocol
    · rename_i htcp
      simpa using htcp
  have hwritten := written_shortText hshort hbinding rfl rfl nofun
  have htext : newEntry binding = shortText none (toString binding.newHostPort)
      (toString binding.containerPort)
      (suffixText (decide (binding.protocol ≠ "tcp")) binding.protocol) := by
    by_cases htcp : binding.protocol = "tcp" <;> simp [newEntry, shortText, suffixText, htcp]
  rw [htext]
  exact hwritten

/-- What is written in place of a matching entry publishes the binding at the same address. -/
theorem written_rewrite {publication : Publication} (hbinding : binding.Accepted)
    (hparse : parseShortEntry value = .ok (some short))
    (hcontainer : short.container = binding.containerPort)
    (hprotocol : short.protocol = binding.protocol)
    (hpublication : shortPublication value = some publication) :
    ∃ rewritten, rewriteShortEntry value binding.newHostPort = .ok rewritten ∧
      Written binding rewritten publication.ip := by
  obtain ⟨hip, -, -, -, haddress⟩ := fields_of_parse hpublication hparse
  refine ⟨_, rewriteShortEntry_eq hparse _, ?_⟩
  rw [hip]
  exact written_shortText (wellFormed_of_parseShortEntry hparse) hbinding hcontainer hprotocol
    haddress

end Texts

/-! ## Editing a list -/

section Lists

variable {heap : Heap R Scalar} {data services serviceMap list fresh : R}
  {items : List (Item R Scalar)} {spelling : Spelling R} {binding : Binding} {value : String}
  {ip : Option String} {index : ℕ} {found : List (Option (ℤ × String))}

omit [DecidableEq R] in
theorem Located.publishesAt_iff
    (h : Located heap data services serviceMap binding.service list items) :
    PublishesAt heap services binding index ↔ ∃ entry found, items[index]? = some entry ∧
      publication heap entry = some found ∧
      found.Covers binding.containerPort binding.protocol := by
  rw [PublishesAt, h.entriesOf]

omit [DecidableEq R] in
theorem FoundService.services_eq
    (h : FoundService heap data services serviceMap binding.service) {other : R} : (getItem heap data "services").bind (asDict heap) = some other ↔ services = other := by
  have hservices : asDict heap (.ref services) = some services :=
    asDict_eq_some_iff.mpr ⟨rfl, h.services_dict⟩
  rw [h.services_get, Option.bind_some, hservices, Option.some_inj]

omit [DecidableEq R] in
/-- A written text is matched. -/
theorem Written.entry (h : Written binding value ip) :
    entryContainerAndProtocol spelling heap (textItem value) =
      .ok (some ((binding.containerPort : ℤ), binding.protocol)) := by
  obtain ⟨short, hparse, hcontainer, hprotocol⟩ := h.parse
  rw [textItem, entryContainerAndProtocol, hparse, ← hcontainer, ← hprotocol]
  rfl

omit [DecidableEq R] in
theorem Written.covers (h : Written binding value ip) :
    ∃ found, publication heap (textItem value) = some found ∧
      found.Covers binding.containerPort binding.protocol :=
  ⟨_, h.published, le_refl _, le_refl _, rfl⟩

/-- Where the one entry that matches is a written text, an edit changes nothing. -/
theorem Located.again (h : Located heap data services serviceMap binding.service list items)
    (hwritten : Written binding value ip) (hindex : items[index]? = some (textItem value))
    (hread : ∀ entry ∈ items, ∃ result, entryContainerAndProtocol spelling heap entry = .ok result)
    (hsole : ∀ other entry, items[other]? = some entry →
      entryContainerAndProtocol spelling heap entry =
        .ok (some ((binding.containerPort : ℤ), binding.protocol)) → other = index) (fresh : R) :
    ∃ change, applyPortMapping spelling data fresh binding heap = .ok change heap := by
  have hplan : plan spelling heap data binding = _ := h.plan_eq
  have hiff : ∀ other, (∃ entry, items[other]? = some entry ∧
      entryContainerAndProtocol spelling heap entry =
        .ok (some ((binding.containerPort : ℤ), binding.protocol))) ↔ other = index := fun other =>
    ⟨fun ⟨entry, hentry, hmatch⟩ => hsole other entry hentry hmatch,
      fun heq => ⟨_, heq ▸ hindex, hwritten.entry⟩⟩
  rw [planList_of_sole hread hiff] at hplan
  obtain ⟨short, hparse, -⟩ := hwritten.parse
  simp only [planUpdate, hindex, textItem, bind, Except.bind, hparse, hwritten.rewrite] at hplan
  have hset : items.set index (.scalar (.str value)) = items := by
    refine List.ext_getElem? fun other => ?_
    by_cases heq : other = index
    · rw [heq, List.getElem?_set_self (List.getElem?_eq_some_iff.mp hindex).1, hindex]
      rfl
    · rw [List.getElem?_set_ne (Ne.symm heq)]
  rw [applyPortMapping_of_ok hplan, Edit.write, textItem, hset, ← h.list_node, Function.update_eq_self]
  exact ⟨_, rfl⟩

omit [DecidableEq R] in
theorem exists_of_mapM (hfound : items.mapM (entryContainerAndProtocol spelling heap) = .ok found)
    {entry : Item R Scalar} (hentry : entry ∈ items) :
    ∃ result, entryContainerAndProtocol spelling heap entry = .ok result := by
  have hmem := List.mem_map_of_mem (f := entryContainerAndProtocol spelling heap) hentry
  rw [mapM_eq_ok_iff.mp hfound] at hmem
  obtain ⟨result, -, hresult⟩ := List.mem_map.mp hmem
  exact ⟨result, hresult.symm⟩

/-- An edit that publishes the binding at an index keeps its promise, if and only if no other
entry publishes the binding, and only that entry is changed. -/
theorem exists_editedAt_iff {after : Heap R Scalar}
    (hfields : publicationAt after services binding.service index = some
      { ip := (publicationAt heap services binding.service index).bind fun found => found.ip
        host := some (binding.newHostPort, binding.newHostPort)
        container := (binding.containerPort, binding.containerPort)
        protocol := binding.protocol })
    (hothers : ∀ other, other ≠ index →
      (PublishesAt after services binding other ↔ PublishesAt heap services binding other))
    (hagain : ∀ fresh, ∃ change,
      applyPortMapping spelling data fresh binding after = .ok change after) :
    (∃ other, EditedAt spelling heap after data services binding other) ↔
      (∀ other, PublishesAt heap services binding other → other = index) ∧
        OneEntryChanged heap after services binding index := by
  have hindex : PublishesAt after services binding index := by
    obtain ⟨entry, hentry, hfound⟩ := Option.bind_eq_some_iff.mp hfields
    exact ⟨entry, _, hentry, hfound, le_refl _, le_refl _, rfl⟩
  constructor
  · rintro ⟨other, hedited⟩
    obtain rfl : index = other := (hedited.publishes index).mp hindex
    refine ⟨fun other hpublishes => ?_, hedited.changed⟩
    by_contra hne
    exact hne ((hedited.publishes other).mp ((hothers other hne).mpr hpublishes))
  · rintro ⟨hsole, hchanged⟩
    refine ⟨index, fun other => ⟨fun hpublishes => ?_, fun heq => heq ▸ hindex⟩, hfields, hchanged,
      hagain⟩
    by_contra hne
    exact hne (hsole other ((hothers other hne).mp hpublishes))

/-- An edit that puts a written text at an index of the list. -/
structure PutsText (heap : Heap R Scalar) (services : R) (binding : Binding)
    (items items' : List (Item R Scalar)) (index : ℕ) (value : String) : Prop where
  written : Written binding value
    ((publicationAt heap services binding.service index).bind fun found => found.ip)
  index_eq : items'[index]? = some (textItem value)
  other_eq : ∀ other, other ≠ index → items'[other]? = items[other]?

section PutsText

variable {items' : List (Item R Scalar)}

theorem PutsText.publishesAt_iff
    (h : Located heap data services serviceMap binding.service list items)
    (hputs : PutsText heap services binding items items' index value) {other : ℕ} :
    PublishesAt (Function.update heap list (.list items')) services binding other ↔
      other = index ∨ PublishesAt heap services binding other := by
  rw [(h.update_list items').publishesAt_iff, h.publishesAt_iff]
  by_cases heq : other = index
  · subst heq
    obtain ⟨found, hfound, hcovers⟩ : ∃ found,
        publication (Function.update heap list (.list items')) (textItem value) = some found ∧
          found.Covers binding.containerPort binding.protocol := hputs.written.covers
    exact iff_of_true ⟨_, found, hputs.index_eq, hfound, hcovers⟩ (.inl rfl)
  · simp only [hputs.other_eq other heq, publication_update_list h.list_node, heq, false_or]

theorem PutsText.publicationAt_eq
    (h : Located heap data services serviceMap binding.service list items)
    (hputs : PutsText heap services binding items items' index value) :
    publicationAt (Function.update heap list (.list items')) services binding.service index = some
      { ip := (publicationAt heap services binding.service index).bind fun found => found.ip
        host := some (binding.newHostPort, binding.newHostPort)
        container := (binding.containerPort, binding.containerPort)
        protocol := binding.protocol } := by
  rw [publicationAt, (h.update_list items').entriesOf, hputs.index_eq]
  exact hputs.written.published

/-- A second edit of a text that was written changes nothing. -/
theorem PutsText.again (h : Located heap data services serviceMap binding.service list items)
    (hputs : PutsText heap services binding items items' index value)
    (hvalid : Valid heap services binding.service)
    (hfound : items.mapM (entryContainerAndProtocol spelling heap) = .ok found)
    (hmatches : ∀ other ∈ matchesOf binding found, other = index) (fresh : R) :
    ∃ change, applyPortMapping spelling data fresh binding
      (Function.update heap list (.list items')) =
        .ok change (Function.update heap list (.list items')) := by
  rw [Valid, h.entriesOf] at hvalid
  refine (h.update_list items').again hputs.written hputs.index_eq (fun entry hentry => ?_)
    (fun other entry hentry hmatch => ?_) fresh
  · obtain ⟨other, hother⟩ := List.mem_iff_getElem?.mp hentry
    by_cases heq : other = index
    · subst heq
      rw [hputs.index_eq, Option.some_inj] at hother
      exact ⟨_, hother ▸ hputs.written.entry⟩
    · rw [hputs.other_eq other heq] at hother
      have hmem := List.mem_of_getElem? hother
      rw [entry_update_list h.list_node items' (hvalid entry hmem)]
      exact exists_of_mapM hfound hmem
  · by_contra heq
    rw [hputs.other_eq other heq] at hentry
    rw [entry_update_list h.list_node items' (hvalid entry (List.mem_of_getElem? hentry))] at hmatch
    exact heq (hmatches other ((mem_matchesOf hfound).mpr ⟨entry, hentry, hmatch⟩))

/-- An edit that puts a written text keeps its promise, if and only if no other entry publishes
the binding, and only that place is changed. -/
theorem PutsText.exists_editedAt_iff
    (h : Located heap data services serviceMap binding.service list items)
    (hputs : PutsText heap services binding items items' index value)
    (hvalid : Valid heap services binding.service)
    (hfound : items.mapM (entryContainerAndProtocol spelling heap) = .ok found)
    (hmatches : ∀ other ∈ matchesOf binding found, other = index) :
    (∃ other, EditedAt spelling heap (Function.update heap list (.list items')) data services
        binding other) ↔
      (∀ other, PublishesAt heap services binding other → other = index) ∧
        OneEntryChanged heap (Function.update heap list (.list items')) services binding index := by
  refine Compose.exists_editedAt_iff (hputs.publicationAt_eq h) (fun other hother => ?_)
    (hputs.again h hvalid hfound hmatches)
  rw [hputs.publishesAt_iff h, or_iff_right hother]

end PutsText

/-- An edit that writes something keeps its promise where the entries are valid. -/
theorem editsPort_of_plan {edit : Edit R}
    (h : FoundService heap data services serviceMap binding.service)
    (hplan : plan spelling heap data binding = .ok (serviceMap, edit)) :
    EditsPort spelling heap data fresh binding ↔ (Valid heap services binding.service →
      ∃ index, EditedAt spelling heap (edit.write binding fresh serviceMap heap) data services
        binding index) := by
  rw [EditsPort, applyPortMapping_of_ok hplan]
  constructor
  · intro hedits
    exact hedits services (h.services_eq.mpr rfl)
  · intro hedits other hother
    obtain rfl := h.services_eq.mp hother
    exact hedits

theorem editsPort_of_ok {edit : Edit R}
    (h : Located heap data services serviceMap binding.service list items)
    (hplan : planList spelling heap binding list items = .ok edit) :
    EditsPort spelling heap data fresh binding ↔ (Valid heap services binding.service →
      ∃ index, EditedAt spelling heap (edit.write binding fresh serviceMap heap) data services
        binding index) := by
  refine editsPort_of_plan h.toFoundService ?_
  rw [h.plan_eq, hplan]
  rfl

/-- An entry is added. -/
theorem editsPort_append_iff (hbinding : binding.Accepted)
    (h : Located heap data services serviceMap binding.service list items)
    (hfound : items.mapM (entryContainerAndProtocol spelling heap) = .ok found)
    (hmatches : matchesOf binding found = []) :
    EditsPort spelling heap data fresh binding ↔ (Valid heap services binding.service →
      (∀ other, ¬ PublishesAt heap services binding other) ∧
        SolePath heap (.ref services) list (portsPath binding.service) (.index items.length)) := by
  have hplan : planList spelling heap binding list items = .ok (.append list items) := by
    rw [planList, hfound]
    simp only [bind, Except.bind, hmatches]
    rfl
  rw [editsPort_of_ok h hplan]
  refine imp_congr_right fun hvalid => ?_
  have hnone : publicationAt heap services binding.service items.length = none := by
    rw [publicationAt, h.entriesOf, List.getElem?_eq_none (le_refl _), Option.bind_none]
  have hputs : PutsText heap services binding items (items ++ [textItem (newEntry binding)])
      items.length (newEntry binding) := by
    refine ⟨?_, by simp, fun other hother => ?_⟩
    · rw [hnone]
      exact written_newEntry hbinding
    · rcases Nat.lt_or_gt_of_ne hother with hlt | hgt
      · rw [List.getElem?_append_left hlt]
      · rw [List.getElem?_eq_none (by simp; omega), List.getElem?_eq_none (by omega)]
  have hchanged := h.content_list_iff hputs.other_eq hputs.index_eq
  rw [Edit.write, hputs.exists_editedAt_iff h hvalid hfound (by simp [hmatches])]
  refine and_congr (forall_congr' fun other => ?_) ?_
  · -- There is no entry at the end of the list.
    have hend : ¬ PublishesAt heap services binding items.length := by
      rintro ⟨entry, found, hentry, -⟩
      rw [h.entriesOf, List.getElem?_eq_none (le_refl _)] at hentry
      cases hentry
    exact ⟨fun hsole hpublishes => hend (hsole hpublishes ▸ hpublishes),
      fun hnot hpublishes => absurd hpublishes hnot⟩
  · have hlist : (Python.content heap (.ref services) (portsPath binding.service)).any
        (fun shape => shape ≠ .scalar .none) = true := by
      rw [h.content_list]
      rfl
    simp only [OneEntryChanged, h.entriesOf, (h.update_list _).entriesOf,
      List.getElem?_eq_none (le_refl items.length), hlist, if_true]
    constructor
    · rintro ⟨value, hentries, hcontent⟩
      have hvalue : (textItem (newEntry binding) : Item R Scalar) = .scalar value := by
        simpa using hentries
      rw [textItem, Item.scalar.injEq] at hvalue
      subst hvalue
      rw [List.length_append, List.length_singleton] at hchanged
      exact (hchanged.mp hcontent).resolve_left (by simp)
    · intro hsole
      rw [List.length_append, List.length_singleton] at hchanged
      exact ⟨_, rfl, hchanged.mpr (.inr hsole)⟩

/-- The text of the one entry that matches is rewritten. -/
theorem editsPort_rewrite_iff {short : ShortEntry} (hbinding : binding.Accepted)
    (h : Located heap data services serviceMap binding.service list items)
    (hfound : items.mapM (entryContainerAndProtocol spelling heap) = .ok found)
    (hmatches : matchesOf binding found = [index]) (hentry : items[index]? = some (textItem value))
    (hparse : parseShortEntry value = .ok (some short))
    (hcontainer : short.container = binding.containerPort)
    (hprotocol : short.protocol = binding.protocol) :
    EditsPort spelling heap data fresh binding ↔ (Valid heap services binding.service →
      (∀ other, PublishesAt heap services binding other → other = index) ∧
        UpdateUnshared heap services binding list index (textItem value)) := by
  obtain ⟨rewritten, hrewritten⟩ : ∃ rewritten,
      rewriteShortEntry value binding.newHostPort = .ok rewritten :=
    ⟨_, rewriteShortEntry_eq hparse _⟩
  have hplan : planList spelling heap binding list items =
      .ok (.rewrite list items index short.host rewritten) := by
    rw [planList, hfound]
    simp only [bind, Except.bind, hmatches, planUpdate, hentry, textItem, hparse, hrewritten]
    rfl
  rw [editsPort_of_ok h hplan]
  refine imp_congr_right fun hvalid => ?_
  have hlt : index < items.length := (List.getElem?_eq_some_iff.mp hentry).1
  have hputs : PutsText heap services binding items (items.set index (textItem rewritten)) index
      rewritten := by
    refine ⟨?_, List.getElem?_set_self hlt, fun other hother => List.getElem?_set_ne hother.symm⟩
    rw [Valid, h.entriesOf] at hvalid
    obtain ⟨publication, hpublication⟩ :=
      Option.isSome_iff_exists.mp (hvalid _ (List.mem_of_getElem? hentry))
    obtain ⟨rewritten', hrewritten', hwritten⟩ :=
      written_rewrite hbinding hparse hcontainer hprotocol hpublication
    rw [hrewritten, Except.ok.injEq] at hrewritten'
    rw [publicationAt, h.entriesOf, hentry, Option.bind_some, hpublication, Option.bind_some,
      hrewritten']
    exact hwritten
  have hchanged := h.content_list_iff hputs.other_eq hputs.index_eq
  rw [List.length_set] at hchanged
  rw [Edit.write, hputs.exists_editedAt_iff h hvalid hfound (by simp [hmatches])]
  refine and_congr_right fun _ => ?_
  have hthere : items[index]? = some (.scalar (.str rewritten)) ↔
      rewriteShortEntry value binding.newHostPort = .ok value := by
    rw [hentry, hrewritten, textItem]
    simp [eq_comm]
  simp only [OneEntryChanged, h.entriesOf, (h.update_list _).entriesOf, hentry, textItem,
    UpdateUnshared, List.getElem?_set_self hlt] at hchanged ⊢
  rw [hentry, textItem] at hthere
  rw [← hthere, ← hchanged]
  constructor
  · rintro ⟨value', hvalue', hcontent⟩
    cases hvalue'
    exact hcontent
  · intro hcontent
    exact ⟨_, rfl, hcontent⟩

end Lists

end Agent.Compose
