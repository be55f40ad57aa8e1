/-
# What a Compose edit changes

If the editor sees every entry that publishes a binding, and the list or the mapping it writes to
is reached in one way, then one entry publishes the binding afterwards, with the new host port,
and everything else is as before. An entry that it cannot match (an integer, a target that is a
text, an address with colons) leaves two publishers, and a list that a YAML alias shares changes
for another service as well.
-/

import PortForge.Agent.ComposeLists

namespace Agent.Compose

open Python Effects

variable {R : Type} [DecidableEq R]

/-! ## Editing a mapping -/

section Mappings

variable {heap : Heap R Scalar} {data services serviceMap list fresh object reached : R}
  {items : List (Item R Scalar)} {spelling : Spelling R} {binding : Binding} {index : ℕ}
  {found : List (Option (ℤ × String))} {entries : List (Scalar × Item R Scalar)}
  {service key field : String} {value : Item R Scalar}

theorem dict_assign (h : ∃ entries, heap reached = .dict entries) :
    ∃ entries, Python.assign heap object (.str field) value reached = .dict entries := by
  have hdict : asDict (Python.assign heap object (.str field) value) (.ref reached) = some reached := by
    rw [asDict_assign]
    exact asDict_eq_some_iff.mpr ⟨rfl, h⟩
  exact (asDict_eq_some_iff.mp hdict).2

/-- The service is found as before when a field of a mapping is assigned, unless it is the service
itself. -/
theorem FoundService.assign (h : FoundService heap data services serviceMap service)
    (hfield : "services" ≠ field) (hne : services ≠ object ∨ service ≠ field) :
    FoundService (Python.assign heap object (.str field) value) data services serviceMap service where
  services_get := (getItem_assign hfield).trans h.services_get
  services_dict := dict_assign h.services_dict
  service_get := (hne.elim getItem_assign_of_ne getItem_assign).trans h.service_get
  service_dict := dict_assign h.service_dict

theorem Located.assign (h : Located heap data services serviceMap service list items)
    (hnode : heap object = .dict entries) (hne : services ≠ object ∨ service ≠ "published") :
    Located (Python.assign heap object (.str "published") value) data services serviceMap service
      list items where
  toFoundService := h.toFoundService.assign (by decide) hne
  ports_get := (getItem_assign (by decide)).trans h.ports_get
  list_node := by
    have hlist : list ≠ object := by
      rintro rfl
      rw [h.list_node] at hnode
      cases hnode
    rw [Python.assign, Function.update_of_ne hlist, h.list_node]

/-- A mapping with a new host port publishes what it published, at that port. -/
theorem longPublication_assign {port : ℕ} {publication : Publication} (hport : port ≤ 65535)
    (hnode : heap object = .dict entries)
    (h : longPublication heap object = some publication) :
    longPublication (Python.assign heap object (.str "published") (textItem (toString port))) object =
      some { publication with host := some (port, port) } := by
  have hhost : optionalField fieldRange (some (textItem (toString port) : Item R Scalar)) =
      some (some (port, port)) := by
    rw [optionalField, textItem, fieldRange, portRange_toString hport]
    rfl
  simp only [longPublication, Option.bind_eq_bind, Option.bind_eq_some_iff] at h
  obtain ⟨container, hcontainer, host, -, protocol, hprotocol, ip, hip, hmade⟩ := h
  cases hmade
  simp only [longPublication, getItem_assign (show "target" ≠ "published" by decide),
    getItem_assign (show "protocol" ≠ "published" by decide),
    getItem_assign (show "host_ip" ≠ "published" by decide), getItem_assign_self hnode, hcontainer,
    hprotocol, hip, hhost]
  rfl

/-- A valid entry is read as before when a host port is assigned. -/
theorem entry_assign {entry : Item R Scalar} (hvalid : (publication heap entry).isSome = true) :
    entryContainerAndProtocol spelling (Python.assign heap object (.str "published") value) entry =
      entryContainerAndProtocol spelling heap entry := by
  cases entry with
  | scalar value => cases value <;> rfl
  | ref reached =>
      cases hnode : heap reached with
      | list items => rw [publication_of_list hnode] at hvalid; cases hvalid
      | dict entries =>
          obtain ⟨entries', hafter⟩ : ∃ entries', Python.assign heap object (.str "published") value
              reached = .dict entries' := dict_assign ⟨entries, hnode⟩
          exact entry_eq_of_fields hvalid hnode hafter (getItem_assign (by decide))
            (getItem_assign (by decide))

theorem publication_assign_of_ne {entry : Item R Scalar} (h : entry ≠ .ref object) :
    publication (Python.assign heap object (.str field) value) entry = publication heap entry := by
  refine publication_eq fun reached hreached => Function.update_of_ne ?_ _ _
  rintro rfl
  exact h hreached

/-- Where the one entry that matches is a mapping with the port, an edit changes nothing. -/
theorem Located.again_publish
    (h : Located heap data services serviceMap binding.service list items)
    (hnode : heap object = .dict entries) (hindex : items[index]? = some (.ref object))
    (hpublished : getItem heap object "published" = some (textItem (toString binding.newHostPort)))
    (hread : ∀ entry ∈ items, ∃ result, entryContainerAndProtocol spelling heap entry = .ok result)
    (hsole : ∀ other, (∃ entry, items[other]? = some entry ∧
      entryContainerAndProtocol spelling heap entry =
        .ok (some ((binding.containerPort : ℤ), binding.protocol))) ↔ other = index) (fresh : R) :
    ∃ change, applyPortMapping spelling data fresh binding heap = .ok change heap := by
  have hplan : plan spelling heap data binding = _ := h.plan_eq
  rw [planList_of_sole hread hsole] at hplan
  simp only [planUpdate, hindex, hpublished] at hplan
  have hwrite : Python.assign heap object (.str "published")
      (.scalar (.str (toString binding.newHostPort))) = heap := assign_of_child hnode hpublished
  rw [applyPortMapping_of_ok hplan, Edit.write, hwrite]
  exact ⟨_, rfl⟩

/-- Only the field of the entry is changed, if and only if it had the port or no other path leads
to the mapping. -/
theorem Located.oneEntryChanged_assign_iff
    (h : Located heap data services serviceMap binding.service list items)
    (hnode : heap object = .dict entries) (hindex : items[index]? = some (.ref object)) :
    OneEntryChanged heap (Python.assign heap object (.str "published")
        (textItem (toString binding.newHostPort))) services binding index ↔
      UpdateUnshared heap services binding list index (.ref object) := by
  have hplace : itemAt heap (.ref services) (portsPath binding.service ++ [.index index]) =
      some (.ref object) := (h.itemAt_index index).trans hindex
  have hkeys : Python.content heap (.ref services) (portsPath binding.service ++ [.index index]) =
      some (.dict (entries.map Prod.fst)) := by
    rw [Python.content, hplace, Option.map_some, shapeOf, hnode]
    rfl
  have hedit : Python.content (Python.assign heap object (.str "published")
        (textItem (toString binding.newHostPort))) (.ref services) =
      Python.edited (Python.content heap (.ref services)) (portsPath binding.service ++ [.index index])
        (.key (.str "published")) (.dict (withKey (.str "published") (entries.map Prod.fst)))
        (.str (toString binding.newHostPort)) ↔ _ := content_assign_iff hnode hplace
  simp only [OneEntryChanged, h.entriesOf, hindex, hkeys, UpdateUnshared, Option.some_inj,
    Shape.dict.injEq]
  refine Iff.trans ⟨?_, fun hcontent => ⟨_, rfl, hcontent⟩⟩ hedit
  rintro ⟨keys, rfl, hcontent⟩
  exact hcontent

/-- The host port of the one mapping that matches is assigned. -/
theorem editsPort_publish_iff (hbinding : binding.Accepted)
    (h : Located heap data services serviceMap binding.service list items)
    (hfound : items.mapM (entryContainerAndProtocol spelling heap) = .ok found)
    (hmatches : matchesOf binding found = [index]) (hentry : items[index]? = some (.ref object))
    (hnode : heap object = .dict entries)
    (hshown : ∀ published, getItem heap object "published" = some published →
      ∃ printed, str spelling heap published = .ok printed) :
    EditsPort spelling heap data fresh binding ↔ (Valid heap services binding.service →
      (∀ other, PublishesAt heap services binding other → other = index) ∧
        UpdateUnshared heap services binding list index (.ref object)) := by
  obtain ⟨before, hplan⟩ : ∃ before,
      planList spelling heap binding list items = .ok (.publish object before) := by
    rw [planList, hfound]
    simp only [bind, Except.bind, hmatches, planUpdate, hentry]
    cases hpublished : getItem heap object "published" with
    | none => exact ⟨none, rfl⟩
    | some published =>
        obtain ⟨printed, hprinted⟩ := hshown published hpublished
        exact ⟨some printed, by simp only [hprinted]; rfl⟩
  rw [editsPort_of_ok h hplan]
  refine imp_congr_right fun hvalid => ?_
  have hsole : ∀ other entry, items[other]? = some entry →
      entryContainerAndProtocol spelling heap entry =
        .ok (some ((binding.containerPort : ℤ), binding.protocol)) → other = index := by
    intro other entry hother hmatch
    have hmem : other ∈ matchesOf binding found :=
      (mem_matchesOf hfound).mpr ⟨entry, hother, hmatch⟩
    rwa [hmatches, List.mem_singleton] at hmem
  have hindex : index ∈ matchesOf binding found := hmatches ▸ List.mem_singleton_self index
  obtain ⟨entry, hmatched, hmatch⟩ := (mem_matchesOf hfound).mp hindex
  obtain rfl : Item.ref object = entry := Option.some.inj (hentry.symm.trans hmatched)
  by_cases hself : services ≠ object ∨ binding.service ≠ "published"
  · have hlocated : Located (Python.assign heap object (.str "published")
        (textItem (toString binding.newHostPort))) data services serviceMap binding.service list items :=
      h.assign hnode hself
    obtain ⟨entries', hafter⟩ : ∃ entries', Python.assign heap object (.str "published")
        (textItem (toString binding.newHostPort)) object = .dict entries' := dict_assign ⟨entries, hnode⟩
    have hvalidItems : ∀ entry ∈ items, (publication heap entry).isSome = true := by
      rwa [Valid, h.entriesOf] at hvalid
    obtain ⟨published, hpublished⟩ :=
      Option.isSome_iff_exists.mp (hvalidItems _ (List.mem_of_getElem? hentry))
    obtain ⟨hcontainer, hprotocol⟩ := fields_of_entry hbinding.protocol hmatch hpublished
    have hlong := longPublication_assign hbinding.port_le hnode hpublished
    rw [Edit.write, ← textItem, ← h.oneEntryChanged_assign_iff hnode hentry]
    refine exists_editedAt_iff ?_ (fun other hother => ?_) ?_
    · rw [publicationAt, hlocated.entriesOf, hentry, Option.bind_some, publication, hlong,
        publicationAt, h.entriesOf, hentry, Option.bind_some, hpublished, Option.bind_some,
        hcontainer, hprotocol]
    · rw [hlocated.publishesAt_iff, h.publishesAt_iff]
      refine exists_congr fun entry => exists_congr fun _ => and_congr_right fun hitem => ?_
      have hne : entry ≠ .ref object := by
        rintro rfl
        exact hother (hsole other _ hitem hmatch)
      rw [publication_assign_of_ne hne]
    · refine hlocated.again_publish hafter hentry (getItem_assign_self hnode) (fun entry hmem => ?_)
        fun other => ?_
      · rw [entry_assign (hvalidItems entry hmem)]
        exact exists_of_mapM hfound hmem
      · constructor
        · rintro ⟨entry, hother, hread⟩
          rw [entry_assign (hvalidItems entry (List.mem_of_getElem? hother))] at hread
          exact hsole other entry hother hread
        · rintro rfl
          refine ⟨_, hentry, ?_⟩
          rw [entry_assign (hvalidItems _ (List.mem_of_getElem? hentry))]
          exact hmatch
  · -- The mapping is the one of the services, and the service is overwritten by the port.
    push Not at hself
    obtain ⟨rfl, hservice⟩ := hself
    have hnone : entriesOf ((Edit.publish services before).write binding fresh serviceMap heap)
        services binding.service = [] := by
      have hpath : portsPath binding.service =
          [.key (.str binding.service)] ++ [.key (.str "ports")] := rfl
      have hstep : itemAt ((Edit.publish services before).write binding fresh serviceMap heap)
          (.ref services) [.key (.str binding.service)] =
            some (textItem (toString binding.newHostPort)) := by
        rw [itemAt_singleton, hservice]
        exact getItem_assign_self hnode
      rw [entriesOf, hpath, itemAt_concat, hstep]
      rfl
    refine iff_of_false ?_ ?_
    · rintro ⟨other, hedited⟩
      obtain ⟨entry, found, hother, -⟩ := (hedited.publishes other).mpr rfl
      rw [hnone] at hother
      cases hother
    · rintro ⟨-, hthere | hpath⟩
      · have hget := h.service_get
        rw [hservice, hthere] at hget
        cases hget
      · have hnil := hpath [] rfl (by simp)
        simp [portsPath] at hnil

end Mappings

/-! ## Creating a list -/

section Creating

variable {heap : Heap R Scalar} {data services serviceMap fresh : R} {spelling : Spelling R}
  {binding : Binding}

/-- A service without ports: the list that is created is reached as the value of its ports. -/
structure Created (heap : Heap R Scalar) (data services serviceMap fresh : R) (service : String) :
    Prop extends FoundService heap data services serviceMap service where
  missing : getItem heap serviceMap "ports" = none ∨
    getItem heap serviceMap "ports" = some (.scalar .none)
  unreached : ∀ path, itemAt heap (.ref data) path ≠ some (.ref fresh)

omit [DecidableEq R] in
/-- What is below the services is below the document. -/
theorem FoundService.itemAt_data {service : String} {path : List (Step Scalar)}
    (h : FoundService heap data services serviceMap service) :
    itemAt heap (.ref data) (.key (.str "services") :: path) =
      itemAt heap (.ref services) path := by
  have hstep : childOf heap (.ref data) (.key (.str "services")) = some (.ref services) :=
    h.services_get
  rw [itemAt_cons, hstep, Option.bind_some]

omit [DecidableEq R] in
theorem Created.ne {service : String}
    (h : Created heap data services serviceMap fresh service) :
    data ≠ fresh ∧ services ≠ fresh ∧ serviceMap ≠ fresh := by
  refine ⟨?_, ?_, ?_⟩
  · rintro rfl
    exact h.unreached [] rfl
  · rintro rfl
    exact h.unreached [.key (.str "services")] (h.itemAt_data.trans rfl)
  · rintro rfl
    exact h.unreached [.key (.str "services"), .key (.str service)]
      (h.itemAt_data.trans h.itemAt_service)

omit [DecidableEq R] in
theorem Created.unreached_services {service : String}
    (h : Created heap data services serviceMap fresh service) (path : List (Step Scalar)) :
    itemAt heap (.ref services) path ≠ some (.ref fresh) := by
  rw [← h.itemAt_data]
  exact h.unreached _

omit [DecidableEq R] in
theorem Created.entriesOf {service : String}
    (h : Created heap data services serviceMap fresh service) :
    entriesOf heap services service = [] := by
  rw [Compose.entriesOf, h.itemAt_ports]
  rcases h.missing with hnone | hnone <;> rw [hnone] <;> rfl

/-- The list is filled before it is put into the service. -/
theorem Created.write_eq (h : Created heap data services serviceMap fresh binding.service) :
    (Edit.create).write binding fresh serviceMap heap =
      Python.assign (Function.update heap fresh (.list [textItem (newEntry binding)])) serviceMap
        (.str "ports") (.ref fresh) := by
  have hne := h.ne.2.2
  simp only [Edit.write, Python.assign, Function.update_of_ne hne]
  rw [Function.update_comm hne, Function.update_idem]

theorem Created.located (h : Created heap data services serviceMap fresh binding.service) :
    Located ((Edit.create).write binding fresh serviceMap heap) data services serviceMap
      binding.service fresh [textItem (newEntry binding)] := by
  obtain ⟨hdata, hservices, hserviceMap⟩ := h.ne
  have hfound : FoundService (Function.update heap fresh (.list [textItem (newEntry binding)])) data
      services serviceMap binding.service := by
    refine ⟨?_, ?_, ?_, ?_⟩
    · rw [getItem, Function.update_of_ne hdata]
      exact h.services_get
    · rw [Function.update_of_ne hservices]
      exact h.services_dict
    · rw [getItem, Function.update_of_ne hservices]
      exact h.service_get
    · rw [Function.update_of_ne hserviceMap]
      exact h.service_dict
  -- The services are not the service, or else its ports would be a mapping.
  have hne : services ≠ serviceMap ∨ binding.service ≠ "ports" := by
    by_contra hboth
    push Not at hboth
    obtain ⟨rfl, hservice⟩ := hboth
    have hget := h.service_get
    rw [hservice] at hget
    rcases h.missing with hnone | hnone <;> rw [hnone] at hget <;> cases hget
  obtain ⟨entries, hentries⟩ := hfound.service_dict
  rw [h.write_eq]
  refine ⟨hfound.assign (by decide) hne, getItem_assign_self hentries, ?_⟩
  rw [Python.assign, Function.update_of_ne hserviceMap.symm, Function.update_self]

/-- Only the list is new, if and only if no other path leads to the service. -/
theorem Created.oneEntryChanged_iff
    (h : Created heap data services serviceMap fresh binding.service) :
    OneEntryChanged heap ((Edit.create).write binding fresh serviceMap heap) services binding 0 ↔
      SolePath heap (.ref services) serviceMap [.key (.str binding.service)]
        (.key (.str "ports")) := by
  obtain ⟨entries, hentries⟩ := h.service_dict
  have hfilled : Function.update heap fresh (.list [textItem (newEntry binding)]) serviceMap =
      .dict entries := by
    rw [Function.update_of_ne h.ne.2.2, hentries]
  have hsole : SolePath (Function.update heap fresh (.list [textItem (newEntry binding)]))
      (.ref services) serviceMap [.key (.str binding.service)] (.key (.str "ports")) ↔
        SolePath heap (.ref services) serviceMap [.key (.str binding.service)]
          (.key (.str "ports")) := by
    simp only [SolePath, itemAt_update_unreached h.unreached_services]
  have hkeys : Python.content heap (.ref services) [.key (.str binding.service)] =
      some (.dict (entries.map Prod.fst)) := by
    rw [Python.content, h.itemAt_service, Option.map_some, shapeOf, hentries]
    rfl
  have hports : (Python.content heap (.ref services) (portsPath binding.service)).any
      (fun shape => shape ≠ .scalar .none) = false := by
    rw [Python.content, h.itemAt_ports]
    rcases h.missing with hnone | hnone <;> rw [hnone] <;> rfl
  have hlocated := h.located
  have hlist : shapeOf ((Edit.create).write binding fresh serviceMap heap) (.ref fresh) =
      .list 1 := by
    rw [shapeOf, hlocated.list_node]
    rfl
  have hplace : itemAt (Function.update heap fresh (.list [textItem (newEntry binding)]))
      (.ref services) [.key (.str binding.service)] = some (.ref serviceMap) :=
    (itemAt_update_unreached h.unreached_services).trans h.itemAt_service
  have hshape : ((Function.update heap fresh (.list [textItem (newEntry binding)]) serviceMap).assign
      (.str "ports") (.ref fresh)).shape = .dict (withKey (.str "ports") (entries.map Prod.fst)) := by
    rw [hfilled, Node.assign, Node.shape, map_fst_setEntry]
  have hnew : ((Function.update heap fresh (.list [textItem (newEntry binding)]) serviceMap).child
      (.key (.str "ports"))).map
        (shapeOf (Function.update heap fresh (.list [textItem (newEntry binding)]))) ≠
      some (.list 1) := by
    have hget : (heap serviceMap).child (.key (.str "ports")) = getItem heap serviceMap "ports" := rfl
    rw [Function.update_of_ne h.ne.2.2, hget]
    rcases h.missing with hnone | hnone <;> rw [hnone] <;> simp [shapeOf]
  have hgraft : Python.content ((Edit.create).write binding fresh serviceMap heap) (.ref services) =
      grafted (Python.content heap (.ref services)) [.key (.str binding.service)] (.key (.str "ports"))
        (.dict (withKey (.str "ports") (entries.map Prod.fst)))
        (Python.content ((Edit.create).write binding fresh serviceMap heap) (.ref fresh)) ↔
      SolePath (Function.update heap fresh (.list [textItem (newEntry binding)])) (.ref services)
        serviceMap [.key (.str binding.service)] (.key (.str "ports")) := by
    rw [h.write_eq] at hlist ⊢
    rw [← content_update_unreached h.unreached_services, ← hshape]
    refine content_graft_iff hplace (fun other hother => child_assign_of_ne _ hother) ?_ ?_ ?_
    · rw [hfilled]
      exact child_assign_self
    · rw [hshape]
      intro heq
      cases hlist.symm.trans heq
    · intro heq
      exact hnew (heq.trans (congrArg some hlist))
  rw [← hsole, ← hgraft]
  simp only [OneEntryChanged, h.entriesOf, hlocated.entriesOf, List.getElem?_nil, hports, hkeys,
    hlocated.itemAt_list, Option.some_inj, Shape.dict.injEq]
  constructor
  · rintro ⟨value, -, keys, list, rfl, rfl, hcontent⟩
    exact hcontent
  · intro hcontent
    exact ⟨.str (newEntry binding), rfl, _, _, rfl, rfl, hcontent⟩

theorem editsPort_create_iff (hbinding : binding.Accepted)
    (h : Created heap data services serviceMap fresh binding.service)
    (hports : portsOf heap binding.service serviceMap = .ok .missing) :
    EditsPort spelling heap data fresh binding ↔
      SolePath heap (.ref services) serviceMap [.key (.str binding.service)]
        (.key (.str "ports")) := by
  have hplan : plan spelling heap data binding = .ok (serviceMap, .create) := by
    rw [plan_of_found h.toFoundService hports]
    rfl
  have hvalid : Valid heap services binding.service := by
    intro entry hentry
    rw [h.entriesOf] at hentry
    cases hentry
  have hlocated := h.located
  have hwritten := written_newEntry hbinding
  have hbefore : ∀ other, ¬ PublishesAt heap services binding other := by
    rintro other ⟨entry, found, hentry, -⟩
    rw [h.entriesOf] at hentry
    cases hentry
  rw [editsPort_of_plan h.toFoundService hplan, imp_iff_right hvalid, ← h.oneEntryChanged_iff]
  have hedited : (∃ index, EditedAt spelling heap
      ((Edit.create).write binding fresh serviceMap heap) data services binding index) ↔
      (∀ other, PublishesAt heap services binding other → other = 0) ∧ OneEntryChanged heap
        ((Edit.create).write binding fresh serviceMap heap) services binding 0 := by
    refine exists_editedAt_iff ?_ (fun other hother => ?_) ?_
    · rw [publicationAt, hlocated.entriesOf, publicationAt, h.entriesOf]
      exact hwritten.published
    · refine iff_of_false ?_ (hbefore other)
      rw [hlocated.publishesAt_iff]
      rintro ⟨entry, found, hentry, -⟩
      rw [List.getElem?_eq_none (by simp; omega)] at hentry
      cases hentry
    · refine hlocated.again hwritten (List.getElem?_cons_zero) (fun entry hentry => ?_) fun other entry hentry _ => ?_
      · rw [List.mem_singleton] at hentry
        exact ⟨_, hentry ▸ hwritten.entry⟩
      · by_contra hother
        rw [List.getElem?_eq_none (by simp; omega)] at hentry
        cases hentry
  rw [hedited, and_iff_right fun other hpublishes => absurd hpublishes (hbefore other)]

end Creating

/-! ## Every edit -/

section Edits

variable {heap : Heap R Scalar} {data services serviceMap list fresh : R}
  {items : List (Item R Scalar)} {spelling : Spelling R} {binding : Binding}

theorem editsPort_of_error {failure : ComposeFailure}
    (h : plan spelling heap data binding = .error failure) :
    EditsPort spelling heap data fresh binding ↔ ∃ error, failure = .compose error := by
  rw [EditsPort, applyPortMapping_of_error h]
  exact and_iff_left rfl

omit [DecidableEq R] in
theorem valueError_of_str {item : Item R Scalar} {failure : ComposeFailure}
    (h : str spelling heap item = .error failure) : failure = .valueError := by
  rw [str.eq_def] at h
  split at h
  · split at h
    · cases h
    · cases h
      rfl
  · split at h
    · cases h
    · cases h
      rfl

theorem valueError_of_parseShortEntry {value : String} {failure : ComposeFailure}
    (h : parseShortEntry value = .error failure) : failure = .valueError := by
  have hentry : ∀ ip host container protocol,
      parseShortEntry.entryOf ip host container protocol = .error failure →
        failure = .valueError := by
    intro ip host container protocol herror
    rw [parseShortEntry.entryOf] at herror
    split at herror
    · cases herror
    · rcases bind_eq_error_iff.mp herror with hread | ⟨_, -, hrest⟩
      · rw [readContainer] at hread
        split at hread
        · cases hread
        · cases hread
          rfl
      · cases hrest
  rw [parseShortEntry] at h
  dsimp only at h
  split at h
  · exact hentry _ _ _ _ h
  · exact hentry _ _ _ _ h
  · exact hentry _ _ _ _ h
  · cases h

omit [DecidableEq R] in
/-- Reading an entry raises an error of Python's only. -/
theorem valueError_of_entry {entry : Item R Scalar} {failure : ComposeFailure}
    (h : entryContainerAndProtocol spelling heap entry = .error failure) :
    failure = .valueError := by
  rw [entryContainerAndProtocol.eq_def] at h
  split at h
  · rcases bind_eq_error_iff.mp h with hparse | ⟨_, -, hrest⟩
    · exact valueError_of_parseShortEntry hparse
    · cases hrest
  · cases h
  · split at h
    · cases h
    · split at h
      · cases h
      · rcases bind_eq_error_iff.mp h with hstr | ⟨_, -, hrest⟩
        · exact valueError_of_str hstr
        · cases hrest

/-- An edit of a list keeps its promise exactly under its condition. -/
theorem editsPort_list_iff (hbinding : binding.Accepted)
    (h : Located heap data services serviceMap binding.service list items) :
    EditsPort spelling heap data fresh binding ↔
      ListSafe spelling heap services binding list items := by
  have hplan : plan spelling heap data binding = _ := h.plan_eq
  cases hmap : items.mapM (entryContainerAndProtocol spelling heap) with
  | error failure =>
      -- An entry cannot be read.
      obtain ⟨front, entry, back, -, -, herror⟩ := mapM_eq_error_iff.mp hmap
      obtain rfl := valueError_of_entry herror
      rw [planList, hmap] at hplan
      rw [editsPort_of_error hplan]
      refine iff_of_false ?_ ?_
      · rintro ⟨error, herror⟩
        cases herror
      · rintro ⟨found, hfound, -⟩
        rw [hmap] at hfound
        cases hfound
  | ok found =>
      have hsafe : ListSafe spelling heap services binding list items ↔ _ :=
        ⟨fun h => by
          obtain ⟨other, hother, hcases⟩ := h
          rw [hmap, Except.ok.injEq] at hother
          exact hother ▸ hcases, fun hcases => ⟨found, hmap, hcases⟩⟩
      rw [hsafe]
      rcases hmatches : matchesOf binding found with _ | ⟨index, _ | ⟨second, others⟩⟩
      · exact editsPort_append_iff hbinding h hmap hmatches
      · have hindex : index ∈ matchesOf binding found := hmatches ▸ List.mem_singleton_self index
        obtain ⟨entry, hentry, hmatch⟩ := (mem_matchesOf hmap).mp hindex
        simp only [hentry, Option.some_inj, forall_eq']
        obtain ⟨value, short, rfl, hparse, htarget, hprotocol⟩ | ⟨object, entries, rfl, hnode, -⟩ :=
          text_or_dict_of_entry hmatch
        · have hcontainer : short.container = binding.containerPort := by
            exact_mod_cast htarget.symm
          rw [editsPort_rewrite_iff hbinding h hmap hmatches hentry hparse hcontainer
            hprotocol.symm]
          exact (and_iff_right fun object published hobject => by cases hobject).symm
        · by_cases hshown : ∀ published, getItem heap object "published" = some published →
              ∃ printed, str spelling heap published = .ok printed
          · rw [editsPort_publish_iff hbinding h hmap hmatches hentry hnode hshown]
            refine (and_iff_right fun other published hobject hpublished => ?_).symm
            cases hobject
            exact hshown published hpublished
          · -- The port that is there cannot be printed.
            have hnot := hshown
            push Not at hshown
            obtain ⟨published, hpublished, hprinted⟩ := hshown
            cases hstr : str spelling heap published with
            | ok printed => exact absurd hstr (hprinted printed)
            | error failure =>
                obtain rfl := valueError_of_str hstr
                rw [planList, hmap] at hplan
                simp only [bind, Except.bind, hmatches, planUpdate, hentry, hpublished, hstr] at hplan
                rw [editsPort_of_error hplan]
                refine iff_of_false ?_ ?_
                · rintro ⟨error, herror⟩
                  cases herror
                · rintro ⟨hprints, -⟩
                  exact hnot fun published => hprints object published rfl
      · rw [planList, hmap] at hplan
        simp only [bind, Except.bind, hmatches] at hplan
        rw [editsPort_of_error hplan]
        exact iff_of_true ⟨_, rfl⟩ trivial

/-- An edit raises its own error and changes nothing, or edits exactly the one entry that publishes
the binding afterwards, if and only if it sees what it has to see and writes where nothing is
shared. -/
theorem editsPort_iff (hbinding : binding.Accepted)
    (hfresh : ∀ path, itemAt heap (.ref data) path ≠ some (.ref fresh)) :
    EditsPort spelling heap data fresh binding ↔ EditsSafely spelling heap data binding := by
  cases hfind : findService heap data binding.service with
  | error failure =>
      have hplan : plan spelling heap data binding = .error failure := by
        rw [plan, hfind]
        rfl
      rw [editsPort_of_error hplan]
      refine iff_of_true (compose_of_findService hfind) fun services serviceMap ports hother => ?_
      rw [hfind] at hother
      cases hother
  | ok result =>
      obtain ⟨services, serviceMap⟩ := result
      have hfound := findService_eq_ok_iff.mp hfind
      cases hports : portsOf heap binding.service serviceMap with
      | error failure =>
          have hplan : plan spelling heap data binding = .error failure := by
            rw [plan, hfind]
            simp only [bind, Except.bind, hports]
          rw [editsPort_of_error hplan]
          refine iff_of_true (compose_of_portsOf hports) fun _ _ ports hother hotherPorts => ?_
          rw [hfind] at hother
          cases hother
          rw [hports] at hotherPorts
          cases hotherPorts
      | ok ports =>
          have hsafely : EditsSafely spelling heap data binding ↔
              PortsSafe spelling heap services serviceMap binding ports := by
            constructor
            · intro hsafely
              exact hsafely services serviceMap ports hfind hports
            · intro hsafe _ _ other hother hotherPorts
              rw [hfind] at hother
              cases hother
              rw [hports] at hotherPorts
              cases hotherPorts
              exact hsafe
          rw [hsafely]
          cases ports with
          | missing =>
              exact editsPort_create_iff hbinding ⟨hfound, portsOf_eq_missing hports, hfresh⟩ hports
          | listed list items =>
              obtain ⟨hget, hnode⟩ := portsOf_eq_listed_iff.mp hports
              exact editsPort_list_iff hbinding ⟨hfound, hget, hnode⟩

end Edits

/-! ## A service with a list of ports -/

/-- A document whose service `web` has these entries. -/
def webPorts (entries : List (Item ℕ Scalar)) : Heap ℕ Scalar
  | 0 => .dict [(.str "services", .ref 1)]
  | 1 => .dict [(.str "web", .ref 2)]
  | 2 => .dict [(.str "ports", .ref 3)]
  | _ => .list entries

section WebPorts

variable {entries : List (Item ℕ Scalar)}

/-- Where the entries are scalars, three steps lead to objects. -/
theorem childOf_webPorts (hscalars : ∀ entry ∈ entries, ∃ value, entry = .scalar value)
    {item : Item ℕ Scalar} {step : Step Scalar} {target : ℕ}
    (h : childOf (webPorts entries) item step = some (.ref target)) :
    item = .ref 0 ∧ step = .key (.str "services") ∧ target = 1 ∨
      item = .ref 1 ∧ step = .key (.str "web") ∧ target = 2 ∨
      item = .ref 2 ∧ step = .key (.str "ports") ∧ target = 3 := by
  have honly {name : Scalar} {object : ℕ} {key : Scalar}
      (hkey : ([(name, .ref object)] : List (Scalar × Item ℕ Scalar)).lookup key =
        some (.ref target)) : key = name ∧ target = object := by
    rw [List.lookup_cons] at hkey
    split at hkey
    · next hsame => exact ⟨eq_of_beq hsame, by cases hkey; rfl⟩
    · cases hkey
  cases item with
  | scalar value => cases h
  | ref object =>
      cases step with
      | key key =>
          rcases object with _ | _ | _ | object
          · obtain ⟨rfl, rfl⟩ := honly h
            exact .inl ⟨rfl, rfl, rfl⟩
          · obtain ⟨rfl, rfl⟩ := honly h
            exact .inr (.inl ⟨rfl, rfl, rfl⟩)
          · obtain ⟨rfl, rfl⟩ := honly h
            exact .inr (.inr ⟨rfl, rfl, rfl⟩)
          · cases h
      | index index =>
          rcases object with _ | _ | _ | object
          · cases h
          · cases h
          · cases h
          · obtain ⟨value, hvalue⟩ := hscalars _ (List.mem_of_getElem? h)
            cases hvalue

theorem unreached_webPorts (hscalars : ∀ entry ∈ entries, ∃ value, entry = .scalar value)
    (path : List (Step Scalar)) : itemAt (webPorts entries) (.ref 0) path ≠ some (.ref 9) := by
  intro h
  rcases List.eq_nil_or_concat' path with rfl | ⟨before, last, rfl⟩
  · cases h
  · rw [itemAt_concat] at h
    obtain ⟨item, -, hlast⟩ := Option.bind_eq_some_iff.mp h
    rcases childOf_webPorts hscalars hlast with ⟨-, -, hnine⟩ | ⟨-, -, hnine⟩ | ⟨-, -, hnine⟩ <;>
      cases hnine

/-- One path below the services leads to the list. -/
theorem solePath_webPorts (hscalars : ∀ entry ∈ entries, ∃ value, entry = .scalar value)
    (step : Step Scalar) :
    SolePath (webPorts entries) (.ref 1) 3 (portsPath "web") step := by
  intro path hpath _
  rcases List.eq_nil_or_concat' path with rfl | ⟨before, last, rfl⟩
  · cases hpath
  rw [itemAt_concat] at hpath
  obtain ⟨item, hitem, hlast⟩ := Option.bind_eq_some_iff.mp hpath
  obtain ⟨-, -, hthree⟩ | ⟨-, -, hthree⟩ | ⟨rfl, rfl, -⟩ := childOf_webPorts hscalars hlast
  · cases hthree
  · cases hthree
  rcases List.eq_nil_or_concat' before with rfl | ⟨first, second, rfl⟩
  · cases hitem
  rw [itemAt_concat] at hitem
  obtain ⟨other, hother, hsecond⟩ := Option.bind_eq_some_iff.mp hitem
  obtain ⟨-, -, htwo⟩ | ⟨rfl, rfl, -⟩ | ⟨-, -, htwo⟩ := childOf_webPorts hscalars hsecond
  · cases htwo
  · rcases List.eq_nil_or_concat' first with rfl | ⟨front, third, rfl⟩
    · rfl
    · -- Nothing leads from the services back to the root.
      rw [itemAt_concat] at hother
      obtain ⟨back, hback, hthird⟩ := Option.bind_eq_some_iff.mp hother
      obtain ⟨rfl, -, -⟩ | ⟨-, -, hone⟩ | ⟨-, -, hone⟩ := childOf_webPorts hscalars hthird
      · rcases List.eq_nil_or_concat' front with rfl | ⟨start, fourth, rfl⟩
        · cases hback
        · rw [itemAt_concat] at hback
          obtain ⟨_, -, hfourth⟩ := Option.bind_eq_some_iff.mp hback
          rcases childOf_webPorts hscalars hfourth with ⟨-, -, hzero⟩ | ⟨-, -, hzero⟩ |
            ⟨-, -, hzero⟩ <;> cases hzero
      · cases hone
      · cases hone
  · cases htwo

end WebPorts

/-- Host port 9000 for container port 8000. -/
def webBinding : Binding := ⟨"web", 8000, "tcp", 9000⟩

/-- A document whose service publishes two ports, the first one on the loopback address. -/
def textPorts : Heap ℕ Scalar := webPorts [textItem "127.0.0.1:8080:8000", textItem "9443:443/tcp"]

/-- The entry of the binding gets its new host port. -/
theorem editsPort_iff_sample : EditsPort (fun _ _ => some "{}") textPorts 0 9 webBinding := by
  have hscalars : ∀ entry ∈ [textItem "127.0.0.1:8080:8000", textItem "9443:443/tcp"],
      ∃ value, entry = (.scalar value : Item ℕ Scalar) := by
    simp [textItem]
  refine (editsPort_iff ⟨by decide, by decide, .inl rfl⟩ (unreached_webPorts hscalars)).mpr ?_
  intro services serviceMap ports hfind hports
  cases hfind
  cases hports
  refine ⟨[some (8000, "tcp"), some (443, "tcp")], by rfl, ?_⟩
  have hmatches : matchesOf webBinding [some (8000, "tcp"), some (443, "tcp")] = [0] := by decide
  simp only [hmatches]
  intro entry hentry
  cases hentry
  refine ⟨?_, fun _ => ⟨?_, .inr (solePath_webPorts hscalars _)⟩⟩
  · intro object published hmapping
    cases hmapping
  rintro other ⟨entry, found, hentry, hfound, hcovers⟩
  rcases other with _ | _ | other
  · rfl
  · have hsecond : publication textPorts (textItem "9443:443/tcp") =
        some ⟨none, some (9443, 9443), (443, 443), "tcp"⟩ := by rfl
    cases hentry
    cases hsecond.symm.trans hfound
    exact absurd hcovers.2.1 (by decide)
  · cases hentry

/-! ## A port that is an integer -/

/-- A document whose service publishes port 8000, written as an integer. -/
def integerPorts : Heap ℕ Scalar := webPorts [.scalar (.int 8000)]

/-- The integer is not matched: a second entry publishes the port. -/
theorem edits_integer :
    ¬ EditsPort (fun _ _ => some "{}") integerPorts 0 9 webBinding := by
  intro hedits
  have hplan : plan (fun _ _ => some "{}") integerPorts 0 webBinding =
      .ok (2, .append 3 [.scalar (.int 8000)]) := by rfl
  rw [EditsPort, applyPortMapping_of_ok hplan] at hedits
  have hentries : entriesOf integerPorts 1 webBinding.service = [.scalar (.int 8000)] := rfl
  have hvalid : Valid integerPorts 1 webBinding.service := by
    intro entry hentry
    rw [hentries, List.mem_singleton] at hentry
    rw [hentry]
    rfl
  obtain ⟨index, hedited⟩ := hedits 1 rfl hvalid
  have hinteger : 0 = index := (hedited.publishes 0).mp
    ⟨.scalar (.int 8000), ⟨none, none, (8000, 8000), "tcp"⟩, rfl, rfl, le_refl _, le_refl _, rfl⟩
  have hadded : 1 = index := (hedited.publishes 1).mp
    ⟨textItem "9000:8000", ⟨none, some (9000, 9000), (8000, 8000), "tcp"⟩, rfl, by decide,
      le_refl _, le_refl _, rfl⟩
  omega

end Agent.Compose
