/-
# New manifests

`portforge project init` writes a manifest for the ports of its command line, each of them given as
`name:purpose` or `name:purpose:protocol`. The manifest is validated before it is handed out. What
the command accepts is what the validator accepts, and a later command that reads the manifest
finds the ports that were asked for, in their order.
-/

import PortForge.Agent.ManifestFailures

namespace Agent

open Python Effects

/-! ## The functions of the command -/

/-- The refusal of a definition. -/
def invalidDefinition {α : Type} (message : String) : Validation α :=
  refuse "MANIFEST_INIT_INVALID_PORT" (plain message) []

/-- The parts of a definition, stripped. -/
def definitionParts (value : String) : List String :=
  (value.toList.splitOn ':').map fun part => strip (String.ofList part)

/-- `parse_port_definition`. -/
def parsePortDefinition (value : String) : Validation (String × Value) :=
  match definitionParts value with
  | [name, purpose] => checked name purpose "tcp"
  | [name, purpose, protocol] => checked name purpose protocol
  | _ => malformed
where
  malformed : Validation (String × Value) :=
    invalidDefinition s!"Invalid --port '{value}'; expected name:purpose[:protocol]."
  checked (name purpose protocol : String) : Validation (String × Value) :=
    if name = "" ∨ purpose = "" then malformed
    else if protocol ∈ protocols then
      pure (name, .dict [(.str "purpose", .str purpose), (.str "protocol", .str protocol)])
    else invalidDefinition s!"Invalid --port '{value}'; protocol must be tcp or udp."

/-- The loop of `build_manifest`. -/
def collectPorts (portMap : List (Scalar × Value)) :
    List String → Validation (List (Scalar × Value))
  | [] => pure portMap
  | value :: values => do
      let definition ← parsePortDefinition value
      let name := definition.1
      if portMap.any fun entry => entry.1 = .str name then
        invalidDefinition s!"Duplicate --port name '{name}'."
      else collectPorts (portMap ++ [(.str name, definition.2)]) values

/-- `if host`: an empty host is none. -/
def givenHost (host : Option String) : Option String := host.filter (· ≠ "")

/-- The data of a new manifest. -/
def newManifest (project : String) (host : Option String) (portMap : List (Scalar × Value)) :
    List (Scalar × Value) :=
  [(.str "version", .int 1), (.str "project", .str project), (.str "ports", .dict portMap)] ++
    match givenHost host with
    | none => []
    | some host => [(.str "target", .dict [(.str "host", .str host)])]

/-- `build_manifest`. -/
def buildManifest (project : String) (host : Option String) (ports : List String) :
    Validation (List (Scalar × Value)) := do
  let portMap ← collectPorts [] ports
  let data := newManifest project host portMap
  let _ ← validateManifest data
  pure data

/-! ## What is asked for -/

/-- A part of a definition: not blank, without blanks at its ends, and in one piece. -/
def IsPart (text : String) : Prop := (text ≠ "" ∧ strip text = text) ∧ ':' ∉ text.toList

/-- What a definition asks for. -/
structure PortDefinition where
  name : String
  purpose : String
  protocol : String
  name_part : IsPart name
  purpose_part : IsPart purpose
  known : protocol ∈ protocols

namespace PortDefinition

/-- The entry of a manifest. -/
def entry (definition : PortDefinition) : Scalar × Value :=
  (.str definition.name,
    .dict [(.str "purpose", .str definition.purpose), (.str "protocol", .str definition.protocol)])

/-- The request that a reader of the manifest finds. -/
def request (definition : PortDefinition) : ManifestPortRequest :=
  ⟨definition.name, definition.purpose, definition.protocol, none, none⟩

/-- The definition with all its parts and no blanks around them. -/
def text (definition : PortDefinition) : String :=
  String.ofList ([':'].intercalate
    [definition.name.toList, definition.purpose.toList, definition.protocol.toList])

end PortDefinition

/-- A text gives a definition: its parts stand between colons with blanks around them, and the
protocol may be left out where it is `tcp`. -/
def Spells (value : String) (definition : PortDefinition) : Prop :=
  ∃ parts : List (List Char),
    value.toList = [':'].intercalate parts ∧ (∀ part ∈ parts, ':' ∉ part) ∧
    (parts.map stripChars = [definition.name, definition.purpose].map String.toList ∧
        definition.protocol = "tcp" ∨
      parts.map stripChars =
        [definition.name, definition.purpose, definition.protocol].map String.toList)

/-- The bounds of a manifest hold for what is asked for. -/
structure Fits (project : String) (host : Option String) (definitions : List PortDefinition) :
    Prop where
  project : strip project ≠ "" ∧ (strip project).length ≤ 255
  host : ∀ given ∈ givenHost host,
    (strip given ≠ "" ∧ (strip given).length ≤ 255) ∧ definitions ≠ []
  few : definitions.length ≤ maxPortsPerManifest
  short : ∀ definition ∈ definitions,
    definition.name.length ≤ 255 ∧ definition.purpose.length ≤ 64

/-- What a manifest with these ports says. -/
def initManifest (project : String) (host : Option String) (definitions : List PortDefinition) :
    ProjectManifest where
  version := 1
  project := strip project
  host := (givenHost host).map strip
  requests := definitions.map PortDefinition.request
  requestId := none
  config := none

/-! ## Definitions and their texts -/

section Definitions

variable {value name : String} {texts : List String} {entry : Value}

theorem colon_not_mem_strip {part : List Char} (h : ':' ∉ part) : ':' ∉ stripChars part := by
  intro hmem
  rw [stripChars, List.mem_reverse] at hmem
  have hfront := (List.dropWhile_sublist _).subset hmem
  rw [List.mem_reverse] at hfront
  exact h ((List.dropWhile_sublist _).subset hfront)

/-- The parts of a definition are what stands between its colons. -/
theorem definitionParts_eq_iff (hne : texts ≠ []) :
    definitionParts value = texts ↔ ∃ parts : List (List Char),
      value.toList = [':'].intercalate parts ∧ (∀ part ∈ parts, ':' ∉ part) ∧
        parts.map stripChars = texts.map String.toList := by
  have hmap : ∀ parts : List (List Char),
      (parts.map fun part => strip (String.ofList part)) = texts ↔
        parts.map stripChars = texts.map String.toList := by
    intro parts
    have hchars : ((parts.map fun part => strip (String.ofList part)).map String.toList) =
        parts.map stripChars := by
      rw [List.map_map]
      refine List.map_congr_left fun part _ => ?_
      rw [Function.comp_apply, toList_strip, String.toList_ofList]
    rw [← hchars]
    exact (List.map_injective_iff.mpr fun first second h => String.toList_inj.mp h).eq_iff.symm
  constructor
  · intro h
    exact ⟨value.toList.splitOn ':', (List.intercalate_splitOn ':').symm,
      fun part hpart => not_mem_of_mem_splitOn hpart, (hmap _).mp h⟩
  · rintro ⟨parts, hvalue, hfree, hparts⟩
    have hparts_ne : parts ≠ [] := by
      rintro rfl
      exact hne (List.map_eq_nil_iff.mp hparts.symm)
    rw [definitionParts, hvalue, List.splitOn_intercalate ':' hfree hparts_ne]
    exact (hmap parts).mpr hparts

theorem isPart_of_mem (h : name ∈ definitionParts value) (hne : name ≠ "") : IsPart name := by
  obtain ⟨part, hpart, rfl⟩ := List.mem_map.mp h
  refine ⟨⟨hne, strip_strip _⟩, ?_⟩
  rw [toList_strip, String.toList_ofList]
  exact colon_not_mem_strip (not_mem_of_mem_splitOn hpart)

theorem spells_iff {definition : PortDefinition} :
    Spells value definition ↔
      definitionParts value = [definition.name, definition.purpose] ∧ definition.protocol = "tcp" ∨
        definitionParts value = [definition.name, definition.purpose, definition.protocol] := by
  rw [definitionParts_eq_iff (List.cons_ne_nil _ _), definitionParts_eq_iff (List.cons_ne_nil _ _)]
  constructor
  · rintro ⟨parts, hvalue, hfree, hshort | hlong⟩
    · exact .inl ⟨⟨parts, hvalue, hfree, hshort.1⟩, hshort.2⟩
    · exact .inr ⟨parts, hvalue, hfree, hlong⟩
  · rintro (⟨⟨parts, hvalue, hfree, hshort⟩, hprotocol⟩ | ⟨parts, hvalue, hfree, hlong⟩)
    · exact ⟨parts, hvalue, hfree, .inl ⟨hshort, hprotocol⟩⟩
    · exact ⟨parts, hvalue, hfree, .inr hlong⟩

theorem parsePortDefinition_checked (definition : PortDefinition) :
    parsePortDefinition.checked value definition.name definition.purpose definition.protocol =
      .ok (definition.name, definition.entry.2) := by
  have hparts : ¬ (definition.name = "" ∨ definition.purpose = "") := fun h =>
    h.elim definition.name_part.1.1 definition.purpose_part.1.1
  rw [parsePortDefinition.checked, if_neg hparts, if_pos definition.known]
  rfl

theorem checked_eq_ok {purpose protocol : String} (hname : name ∈ definitionParts value)
    (hpurpose : purpose ∈ definitionParts value) {result : String × Value}
    (h : parsePortDefinition.checked value name purpose protocol = .ok result) :
    ∃ definition : PortDefinition, (definition.name = name ∧ definition.purpose = purpose ∧
      definition.protocol = protocol) ∧ result = (definition.name, definition.entry.2) := by
  rw [parsePortDefinition.checked] at h
  split at h
  · cases h
  · rename_i hparts
    obtain ⟨hname_ne, hpurpose_ne⟩ := not_or.mp hparts
    split at h
    · rename_i hknown
      cases h
      exact ⟨⟨name, purpose, protocol, isPart_of_mem hname hname_ne,
        isPart_of_mem hpurpose hpurpose_ne, hknown⟩, ⟨rfl, rfl, rfl⟩, rfl⟩
    · cases h

theorem parsePortDefinition_eq_ok_iff {result : String × Value} :
    parsePortDefinition value = .ok result ↔
      ∃ definition, Spells value definition ∧ result = (definition.name, definition.entry.2) := by
  simp only [spells_iff]
  constructor
  · intro h
    rw [parsePortDefinition] at h
    split at h
    · rename_i name purpose hparts
      obtain ⟨definition, ⟨rfl, rfl, hprotocol⟩, hresult⟩ :=
        checked_eq_ok (by simp [hparts]) (by simp [hparts]) h
      exact ⟨definition, .inl ⟨hparts, hprotocol⟩, hresult⟩
    · rename_i name purpose protocol hparts
      obtain ⟨definition, ⟨rfl, rfl, rfl⟩, hresult⟩ :=
        checked_eq_ok (by simp [hparts]) (by simp [hparts]) h
      exact ⟨definition, .inr hparts, hresult⟩
    · cases h
  · rintro ⟨definition, ⟨hparts, hprotocol⟩ | hparts, rfl⟩
    · have hchecked := @parsePortDefinition_checked value definition
      rw [hprotocol] at hchecked
      rw [parsePortDefinition, hparts]
      exact hchecked
    · rw [parsePortDefinition, hparts]
      exact parsePortDefinition_checked definition

/-- A definition is read back from its text. -/
theorem spells_text (definition : PortDefinition) : Spells definition.text definition := by
  have hstrip : ∀ {text : String}, strip text = text → stripChars text.toList = text.toList := by
    intro text htext
    rw [← toList_strip, htext]
  have hprotocol : strip definition.protocol = definition.protocol ∧
      ':' ∉ definition.protocol.toList := by
    rcases List.mem_pair.mp definition.known with h | h <;> rw [h] <;> decide
  refine ⟨_, String.toList_ofList, ?_, .inr ?_⟩
  · intro part hpart
    simp only [List.mem_cons, List.not_mem_nil, or_false] at hpart
    rcases hpart with rfl | rfl | rfl
    · exact definition.name_part.2
    · exact definition.purpose_part.2
    · exact hprotocol.2
  · simp only [List.map_cons, List.map_nil, hstrip definition.name_part.1.2,
      hstrip definition.purpose_part.1.2, hstrip hprotocol.1]

end Definitions

/-! ## The ports of a manifest -/

section Collecting

variable {values : List String} {portMap result : List (Scalar × Value)}

/-- The ports are those that the texts give, in order, under names that differ. -/
theorem collectPorts_eq_ok_iff :
    collectPorts portMap values = .ok result ↔ ∃ definitions : List PortDefinition,
      List.Forall₂ Spells values definitions ∧
        ((definitions.map PortDefinition.name).Nodup ∧
          ∀ definition ∈ definitions, ∀ entry ∈ portMap, entry.1 ≠ .str definition.name) ∧
        result = portMap ++ definitions.map PortDefinition.entry := by
  induction values generalizing portMap with
  | nil =>
      simp only [collectPorts, pure, Except.pure, Except.ok.injEq, List.forall₂_nil_left_iff]
      constructor
      · rintro rfl
        exact ⟨[], rfl, ⟨List.nodup_nil, fun _ hmem => absurd hmem List.not_mem_nil⟩,
          (List.append_nil _).symm⟩
      · rintro ⟨definitions, rfl, -, rfl⟩
        exact (List.append_nil _).symm
  | cons value values ih =>
      rw [collectPorts, bind_eq_ok_iff]
      simp only [parsePortDefinition_eq_ok_iff, List.forall₂_cons_left_iff]
      constructor
      · rintro ⟨found, ⟨first, hfirst, rfl⟩, h⟩
        split at h
        · cases h
        · rename_i hnew
          obtain ⟨rest, hrest, ⟨hnodup, hapart⟩, rfl⟩ := ih.mp h
          refine ⟨first :: rest, ⟨first, rest, hfirst, hrest, rfl⟩, ⟨?_, ?_⟩, by
            rw [List.append_assoc]; rfl⟩
          · rw [List.map_cons, List.nodup_cons]
            refine ⟨fun hmem => ?_, hnodup⟩
            obtain ⟨later, hlater, hname⟩ := List.mem_map.mp hmem
            refine hapart later hlater _ (List.mem_append_right _ List.mem_cons_self) ?_
            rw [hname]
          · intro definition hmem entry hentry
            rcases List.mem_cons.mp hmem with rfl | hlater
            · intro heq
              exact hnew (List.any_eq_true.mpr ⟨entry, hentry, decide_eq_true heq⟩)
            · exact hapart definition hlater entry (List.mem_append_left _ hentry)
      · rintro ⟨definitions, ⟨first, rest, hfirst, hrest, rfl⟩, ⟨hnodup, hapart⟩, rfl⟩
        rw [List.map_cons, List.nodup_cons] at hnodup
        refine ⟨_, ⟨first, hfirst, rfl⟩, ?_⟩
        rw [if_neg fun hany => ?_]
        · refine ih.mpr ⟨rest, hrest, ⟨hnodup.2, ?_⟩, by rw [List.append_assoc]; rfl⟩
          intro later hlater entry hentry
          rcases List.mem_append.mp hentry with hold | hnew
          · exact hapart later (List.mem_cons_of_mem _ hlater) entry hold
          · obtain rfl := List.mem_singleton.mp hnew
            intro heq
            refine hnodup.1 (List.mem_map.mpr ⟨later, hlater, ?_⟩)
            exact (Scalar.str.inj heq).symm
        · obtain ⟨entry, hentry, heq⟩ := List.any_eq_true.mp hany
          exact hapart first List.mem_cons_self entry hentry (of_decide_eq_true heq)

theorem clean_parsePortDefinition (value : String) : Clean (parsePortDefinition value) := by
  have hrefused : ∀ {α : Type} (message : String),
      Clean (invalidDefinition message : Validation α) := fun message => clean_refuse_iff.mpr rfl
  have hchecked : ∀ name purpose protocol,
      Clean (parsePortDefinition.checked value name purpose protocol) := by
    intro name purpose protocol
    rw [parsePortDefinition.checked]
    split
    · exact hrefused _
    · split
      · exact clean_pure _
      · exact hrefused _
  rw [parsePortDefinition]
  split
  · exact hchecked _ _ _
  · exact hchecked _ _ _
  · exact hrefused _

theorem clean_collectPorts : Clean (collectPorts portMap values) := by
  induction values generalizing portMap with
  | nil => exact clean_pure _
  | cons value values ih =>
      refine clean_bind_iff.mpr ⟨clean_parsePortDefinition value, fun definition _ => ?_⟩
      dsimp only
      split
      · exact clean_refuse_iff.mpr rfl
      · exact ih

end Collecting

/-! ## Validation of a new manifest -/

section Validating

variable {project : String} {host : Option String} {definitions : List PortDefinition}

theorem requireString_text {data : List (Scalar × Value)} {key context found : String}
    {maxLength : ℕ} (text : String) (h : get? data key = some (.str text)) :
    requireString data key context maxLength = .ok found ↔
      (strip text ≠ "" ∧ (strip text).length ≤ maxLength) ∧ found = strip text := by
  have hread : nonBlank? (some (.str text)) =
      if strip text = "" then none else some (strip text) := rfl
  rw [requireString, h, hread]
  by_cases hblank : strip text = ""
  · simp [hblank, invalid, refuse]
  · by_cases hlong : (strip text).length > maxLength
    · simp [hblank, hlong, invalid, refuse]
    · simp [hblank, hlong, pure, Except.pure, Nat.le_of_not_gt hlong, eq_comm]

/-- The validator reads an entry as the request it was written for. -/
theorem validatePortEntry_entry {definition : PortDefinition} {found : ManifestPortRequest} :
    validatePortEntry definition.entry.1 definition.entry.2 = .ok found ↔
      (definition.name.length ≤ 255 ∧ definition.purpose.length ≤ 64) ∧
        found = definition.request := by
  obtain ⟨name, purpose, protocol, ⟨⟨hname, hname_strip⟩, -⟩, ⟨⟨hpurpose, hpurpose_strip⟩, -⟩,
    hknown⟩ := definition
  have hreject : ∀ context, rejectUnknownKeys
      [(.str "purpose", .str purpose), (.str "protocol", .str protocol)] portEntryKeys context =
        .ok () := fun context => rfl
  have hprotocol : ∀ context details, readProtocol
      [(.str "purpose", .str purpose), (.str "protocol", .str protocol)] context details =
        .ok protocol := fun context details => if_pos hknown
  unfold validatePortEntry PortDefinition.entry PortDefinition.request
  dsimp only
  rw [hname_strip, if_neg hname]
  split
  · rename_i hlong
    simp [invalid, refuse, Nat.not_le_of_gt hlong]
  · rename_i hshort
    have hmapping : ∀ context, requireMapping
        (.dict [(.str "purpose", .str purpose), (.str "protocol", .str protocol)]) context =
          .ok [(.str "purpose", .str purpose), (.str "protocol", .str protocol)] :=
      fun context => rfl
    have hget : get? [(.str "purpose", .str purpose), (.str "protocol", .str protocol)] "purpose" =
        some (.str purpose) := rfl
    simp only [bind_eq_ok_iff, hmapping, hreject, hprotocol, Except.ok.injEq, exists_eq_left',
      exists_const, requireString_text purpose hget, hpurpose_strip]
    constructor
    · rintro ⟨-, _, ⟨⟨-, hpurpose_short⟩, rfl⟩, h⟩
      cases h
      exact ⟨⟨Nat.le_of_not_gt hshort, hpurpose_short⟩, rfl⟩
    · rintro ⟨⟨-, hpurpose_short⟩, rfl⟩
      exact ⟨trivial, _, ⟨⟨hpurpose, hpurpose_short⟩, rfl⟩, rfl⟩

theorem validateEntries_eq_ok_iff {found : List ManifestPortRequest} :
    ((definitions.map PortDefinition.entry).mapM fun entry =>
        validatePortEntry entry.1 entry.2) = .ok found ↔
      (∀ definition ∈ definitions,
        definition.name.length ≤ 255 ∧ definition.purpose.length ≤ 64) ∧
        found = definitions.map PortDefinition.request := by
  induction definitions generalizing found with
  | nil => simp [pure, Except.pure, eq_comm]
  | cons definition definitions ih =>
      rw [List.map_cons, List.mapM_cons]
      simp only [bind_eq_ok_iff, validatePortEntry_entry, ih, List.forall_mem_cons]
      constructor
      · rintro ⟨_, ⟨hshort, rfl⟩, _, ⟨hrest, rfl⟩, h⟩
        cases h
        exact ⟨⟨hshort, hrest⟩, rfl⟩
      · rintro ⟨⟨hshort, hrest⟩, rfl⟩
        exact ⟨_, ⟨hshort, rfl⟩, _, ⟨hrest, rfl⟩, rfl⟩

/-! The fields of a new manifest. -/

theorem rejectUnknownKeys_new {portMap : List (Scalar × Value)} :
    rejectUnknownKeys (newManifest project host portMap) topLevelKeys "manifest" = .ok () := by
  rw [newManifest]
  cases givenHost host <;> rfl

theorem get?_new {portMap : List (Scalar × Value)} :
    get? (newManifest project host portMap) "version" = some (.int 1) ∧
      get? (newManifest project host portMap) "project" = some (.str project) ∧
      get? (newManifest project host portMap) "ports" = some (.dict portMap) ∧
      get? (newManifest project host portMap) "request_id" = none ∧
      get? (newManifest project host portMap) "config" = none ∧
      get? (newManifest project host portMap) "target" =
        (givenHost host).map fun host => .dict [(.str "host", .str host)] := by
  rw [newManifest]
  cases givenHost host <;> simp [get?]

theorem validateTarget_new {portMap : List (Scalar × Value)} {found : Option String} :
    validateTarget (newManifest project host portMap) = .ok found ↔
      (∀ given ∈ givenHost host, strip given ≠ "" ∧ (strip given).length ≤ 255) ∧
        found = (givenHost host).map strip := by
  obtain ⟨-, -, -, -, -, htarget⟩ := @get?_new project host portMap
  rw [validateTarget, htarget]
  cases givenHost host with
  | none =>
      simp only [Option.map_none, Option.getD_none, pure, Except.pure, Except.ok.injEq]
      exact ⟨fun h => ⟨nofun, h.symm⟩, fun h => h.2.symm⟩
  | some given =>
      have hreject : rejectUnknownKeys [(.str "host", .str given)] targetKeys "target" = .ok () :=
        rfl
      have hget : get? [(.str "host", .str given)] "host" = some (.str given) := rfl
      simp only [Option.map_some, Option.getD_some, bind_eq_ok_iff, hreject, exists_const,
        requireString_text given hget, Option.mem_def, Option.some.injEq, forall_eq']
      constructor
      · rintro ⟨-, _, ⟨hbounds, rfl⟩, h⟩
        cases h
        exact ⟨hbounds, rfl⟩
      · rintro ⟨hbounds, rfl⟩
        exact ⟨trivial, _, ⟨hbounds, rfl⟩, rfl⟩

theorem validatePorts_new {hasTarget : Bool} {found : List ManifestPortRequest} :
    validatePorts (newManifest project host (definitions.map PortDefinition.entry)) hasTarget =
        .ok found ↔
      ((hasTarget = true → definitions ≠ []) ∧ definitions.length ≤ maxPortsPerManifest ∧
        ∀ definition ∈ definitions,
          definition.name.length ≤ 255 ∧ definition.purpose.length ≤ 64) ∧
        found = definitions.map PortDefinition.request := by
  obtain ⟨-, -, hports, -⟩ := @get?_new project host (definitions.map PortDefinition.entry)
  rw [validatePorts, hports]
  dsimp only
  rw [List.length_map]
  split
  · rename_i hempty
    rw [Bool.and_eq_true, List.isEmpty_iff, List.map_eq_nil_iff] at hempty
    simp [hempty.1, hempty.2, invalid, refuse]
  · rename_i hempty
    have hsome : hasTarget = true → definitions ≠ [] := by
      intro htarget hnil
      rw [htarget, hnil] at hempty
      exact hempty rfl
    split
    · rename_i hmany
      simp [Nat.not_le_of_gt hmany, invalid, refuse]
    · rename_i hfew
      rw [validateEntries_eq_ok_iff]
      exact ⟨fun h => ⟨⟨hsome, Nat.le_of_not_gt hfew, h.1⟩, h.2⟩, fun h => ⟨h.1.2.2, h.2⟩⟩

/-- The validator accepts the manifest where the bounds hold, and reads what was asked for. -/
theorem validateManifest_new {manifest : ProjectManifest} :
    validateManifest (newManifest project host (definitions.map PortDefinition.entry)) =
        .ok manifest ↔
      Fits project host definitions ∧ manifest = initManifest project host definitions := by
  obtain ⟨hversion, hproject, -, hrequestId, hconfig, -⟩ :=
    @get?_new project host (definitions.map PortDefinition.entry)
  have hsupported : validateVersion
      (newManifest project host (definitions.map PortDefinition.entry)) = .ok 1 := by
    rw [validateVersion, hversion]
    rfl
  have hunrequested : validateRequestId
      (newManifest project host (definitions.map PortDefinition.entry)) = .ok none := by
    rw [validateRequestId, hrequestId]
    rfl
  have hunconfigured : ∀ names, validateConfig names none = .ok none := fun names => rfl
  rw [validateManifest]
  simp only [bind_eq_ok_iff, rejectUnknownKeys_new, hsupported, requireString_text project hproject,
    validateTarget_new, validatePorts_new, hunrequested, hconfig, hunconfigured, Except.ok.injEq,
    exists_eq_left', exists_const]
  constructor
  · rintro ⟨-, _, ⟨hname, rfl⟩, _, ⟨hhost, rfl⟩, _, ⟨⟨hsome, hfew, hshort⟩, rfl⟩, h⟩
    cases h
    refine ⟨⟨hname, fun given hmem => ⟨hhost given hmem, hsome ?_⟩, hfew, hshort⟩, rfl⟩
    rw [Option.isSome_map]
    exact Option.isSome_iff_exists.mpr ⟨given, hmem⟩
  · rintro ⟨⟨hname, hhost, hfew, hshort⟩, rfl⟩
    refine ⟨trivial, _, ⟨hname, rfl⟩, _, ⟨fun given hmem => (hhost given hmem).1, rfl⟩, _,
      ⟨⟨fun hsome => ?_, hfew, hshort⟩, rfl⟩, rfl⟩
    rw [Option.isSome_map] at hsome
    obtain ⟨given, hmem⟩ := Option.isSome_iff_exists.mp hsome
    exact (hhost given hmem).2

theorem portEntryOrderly_entry (definition : PortDefinition) :
    PortEntryOrderly definition.entry.1 definition.entry.2 := by
  intro _ _ items hitems
  cases hitems
  refine ⟨?_, fun _ _ => ⟨rfl, fun _ => ⟨rfl, ?_⟩⟩⟩
  · intro entry hentry _
    simp only [List.mem_cons, List.not_mem_nil, or_false] at hentry
    rcases hentry with rfl | rfl <;> exact ⟨_, rfl⟩
  · intro _ _ text low high htext
    cases htext

/-- Nothing in a new manifest makes the validator fail with another exception. -/
theorem clean_validateManifest_new :
    Clean (validateManifest (newManifest project host (definitions.map PortDefinition.entry))) := by
  obtain ⟨hversion, -, hports, -, hconfig, htarget⟩ :=
    @get?_new project host (definitions.map PortDefinition.entry)
  refine (clean_validateManifest_iff _).mpr
    ⟨?_, fun _ => ⟨?_, fun _ _ => ⟨?_, fun _ _ => ⟨?_, ?_⟩⟩⟩⟩
  · intro entry hentry _
    rw [newManifest] at hentry
    cases hhost : givenHost host <;>
      simp only [hhost, List.append_nil, List.mem_append, List.mem_cons, List.not_mem_nil,
        or_false] at hentry
    · rcases hentry with rfl | rfl | rfl <;> exact ⟨_, rfl⟩
    · rcases hentry with (rfl | rfl | rfl) | rfl <;> exact ⟨_, rfl⟩
  · rw [hversion]
    rfl
  · intro target hfound entry hentry _
    rw [htarget] at hfound
    obtain ⟨host, -, hdict⟩ := Option.map_eq_some_iff.mp hfound
    cases hdict
    obtain rfl := List.mem_singleton.mp hentry
    exact ⟨_, rfl⟩
  · intro ports hfound _ _ front item back hsplit _
    rw [hports] at hfound
    cases hfound
    have hmem : item ∈ definitions.map PortDefinition.entry := by
      rw [hsplit]
      exact List.mem_append_right _ List.mem_cons_self
    obtain ⟨definition, -, rfl⟩ := List.mem_map.mp hmem
    exact portEntryOrderly_entry definition
  · intro requests _ _ items hfound
    rw [hconfig] at hfound
    cases hfound

end Validating

/-! ## What the command accepts -/

section Building

variable {project : String} {host : Option String} {ports : List String}

/-- The command line asks for these ports, and the bounds hold. -/
structure AsksFor (project : String) (host : Option String) (ports : List String)
    (definitions : List PortDefinition) : Prop where
  spelled : List.Forall₂ Spells ports definitions
  distinct : (definitions.map PortDefinition.name).Nodup
  fits : Fits project host definitions

theorem buildManifest_eq_ok_iff {data : List (Scalar × Value)} :
    buildManifest project host ports = .ok data ↔ ∃ definitions,
      AsksFor project host ports definitions ∧
        data = newManifest project host (definitions.map PortDefinition.entry) := by
  rw [buildManifest]
  simp only [bind_eq_ok_iff, collectPorts_eq_ok_iff, List.nil_append]
  constructor
  · rintro ⟨_, ⟨definitions, hspelled, ⟨hdistinct, -⟩, rfl⟩, manifest, hmanifest, h⟩
    cases h
    exact ⟨definitions, ⟨hspelled, hdistinct, (validateManifest_new.mp hmanifest).1⟩, rfl⟩
  · rintro ⟨definitions, ⟨hspelled, hdistinct, hfits⟩, rfl⟩
    have hapart : ∀ definition ∈ definitions, ∀ entry ∈ ([] : List (Scalar × Value)),
        entry.1 ≠ .str definition.name := fun _ _ _ hmem => absurd hmem List.not_mem_nil
    exact ⟨_, ⟨definitions, hspelled, ⟨hdistinct, hapart⟩, rfl⟩, _,
      validateManifest_new.mpr ⟨hfits, rfl⟩, rfl⟩

theorem clean_buildManifest : Clean (buildManifest project host ports) := by
  refine clean_bind_iff.mpr ⟨clean_collectPorts, fun portMap hports => ?_⟩
  obtain ⟨definitions, -, -, rfl⟩ := collectPorts_eq_ok_iff.mp hports
  exact clean_bind_iff.mpr ⟨clean_validateManifest_new, fun _ _ => clean_pure _⟩

theorem forall₂_spells_text (definitions : List PortDefinition) :
    List.Forall₂ Spells (definitions.map PortDefinition.text) definitions := by
  rw [List.forall₂_map_left_iff]
  exact List.forall₂_same.mpr fun definition _ => spells_text definition

/-- The command makes a manifest exactly of definitions with different names within the bounds, and
otherwise refuses with its own error. Every later reader of the manifest finds the host and the
ports that were asked for, and written out in full they make the same manifest again. -/
theorem buildManifest_exact (project : String) (host : Option String) (ports : List String) :
    Clean (buildManifest project host ports) ∧
      (∀ data manifest,
        buildManifest project host ports = .ok data ∧ validateManifest data = .ok manifest ↔
          ∃ definitions, AsksFor project host ports definitions ∧
            data = newManifest project host (definitions.map PortDefinition.entry) ∧
            manifest = initManifest project host definitions) ∧
      ∀ data, buildManifest project host ports = .ok data → ∃ definitions : List PortDefinition,
        data = newManifest project host (definitions.map PortDefinition.entry) ∧
          buildManifest project host (definitions.map PortDefinition.text) = .ok data := by
  refine ⟨clean_buildManifest, fun data manifest => ⟨?_, ?_⟩, ?_⟩
  · rintro ⟨hbuilt, hmanifest⟩
    obtain ⟨definitions, hasks, rfl⟩ := buildManifest_eq_ok_iff.mp hbuilt
    exact ⟨definitions, hasks, rfl, (validateManifest_new.mp hmanifest).2⟩
  · rintro ⟨definitions, hasks, rfl, rfl⟩
    exact ⟨buildManifest_eq_ok_iff.mpr ⟨definitions, hasks, rfl⟩,
      validateManifest_new.mpr ⟨hasks.fits, rfl⟩⟩
  · intro data hbuilt
    obtain ⟨definitions, hasks, rfl⟩ := buildManifest_eq_ok_iff.mp hbuilt
    exact ⟨definitions, rfl, buildManifest_eq_ok_iff.mpr
      ⟨definitions, ⟨forall₂_spells_text definitions, hasks.distinct, hasks.fits⟩, rfl⟩⟩

end Building

end Agent
