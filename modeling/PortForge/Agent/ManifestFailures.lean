/-
# How manifest validation fails

The validators raise `ManifestError`, and in three kinds of places something else: a field that is
unknown and no text cannot be listed among the others, an integer with more digits than Python
prints cannot be shown in a message, and the bound of a range with more digits than Python reads
cannot be converted. Validation stops at its first error, so only places that it comes to matter.
-/

import PortForge.Agent.ManifestBodies
import PortForge.Effects.Exceptions

namespace Agent

open Python Effects

/-- A validation that returns or raises `ManifestError`. -/
def Clean {α : Type} (validation : Validation α) : Prop :=
  RaisesOnly (fun failure => ∃ error, failure = .manifest error) validation

/-- A validation that returns. -/
def Passes {α : Type} (validation : Validation α) : Prop := ∃ result, validation = .ok result

/-! ## The three kinds of places -/

/-- The fields that are unknown are texts. -/
def UnknownTexts (data : List (Scalar × Value)) (allowed : List String) : Prop :=
  ∀ entry ∈ data, entry.1 ∉ allowed.map Scalar.str → ∃ text, entry.1 = .str text

/-- A value that messages can show. -/
def Shown (value : Option Value) : Prop := value.all isPrintableValue = true

/-- The bounds of a range can be converted. -/
def ShortBounds (entry : List (Scalar × Value)) : Prop :=
  ∀ text low high, ((get? entry "range").or (get? entry "requested_range")) = some (.str text) →
    rangeDigits (stripChars text.toList) = some (low, high) →
      (readInt low).isSome ∧ (readInt high).isSome

section Basics

variable {α β : Type}

theorem clean_pure (a : α) : Clean (pure a : Validation α) := raisesOnly_pure a

theorem clean_bind_iff {part : Validation α} {next : α → Validation β} :
    Clean (part >>= next) ↔ Clean part ∧ ∀ a, part = .ok a → Clean (next a) :=
  raisesOnly_bind_iff

theorem clean_refuse_iff {code : String} {message : List Fragment}
    {details : List (List (String × Value))} :
    Clean (refuse code message details : Validation α) ↔ message.all Fragment.printable = true := by
  unfold Clean RaisesOnly refuse
  by_cases hprintable : message.all Fragment.printable = true <;> simp [hprintable]

theorem clean_invalid (text : String) (details : List (List (String × Value))) :
    Clean (invalid (plain text) details : Validation α) :=
  clean_refuse_iff.mpr rfl

/-- Two computations in order, where what the second needs does not depend on the first's result. -/
theorem clean_bind_same {part : Validation α} {next : α → Validation β} {first second : Prop}
    (hpart : Clean part ↔ first) (hnext : ∀ a, Clean (next a) ↔ second) :
    Clean (part >>= next) ↔ first ∧ (Passes part → second) := by
  rw [clean_bind_iff, hpart]
  simp [hnext, Passes]

theorem clean_bind_of_clean {part : Validation α} {next : α → Validation β} {second : Prop}
    (hpart : Clean part) (hnext : ∀ a, Clean (next a) ↔ second) :
    Clean (part >>= next) ↔ (Passes part → second) := by
  rw [clean_bind_same (iff_true_intro hpart) hnext]
  simp

theorem clean_bind_each {part : Validation α} {next : α → Validation β} {first : Prop}
    {second : α → Prop} (hpart : Clean part ↔ first) (hnext : ∀ a, Clean (next a) ↔ second a) :
    Clean (part >>= next) ↔ first ∧ ∀ a, part = .ok a → second a := by
  rw [clean_bind_iff, hpart]
  simp only [hnext]

theorem clean_bind_of_refused {part : Validation α} {next : α → Validation β}
    (h : ∀ a, part ≠ .ok a) : Clean (part >>= next) ↔ Clean part := by
  rw [clean_bind_iff]
  exact and_iff_left fun a ha => absurd ha (h a)

/-- The items up to the first that fails satisfy a condition. -/
def InOrder (f : α → Validation β) (condition : α → Prop) (items : List α) : Prop :=
  ∀ front item back, items = front ++ item :: back → (∀ other ∈ front, Passes (f other)) →
    condition item

theorem clean_mapM_iff {f : α → Validation β} {condition : α → Prop} {items : List α}
    (h : ∀ item, Clean (f item) ↔ condition item) :
    Clean (items.mapM f) ↔ InOrder f condition items := by
  unfold Clean InOrder
  rw [raisesOnly_mapM_iff]
  simp only [← h]
  rfl

theorem inOrder_nil (f : α → Validation β) (condition : α → Prop) : InOrder f condition [] := by
  intro front item back hsplit
  exact absurd hsplit.symm (List.append_ne_nil_of_right_ne_nil front (List.cons_ne_nil item back))

/-- Items that are checked one after the other, if there are not too many. -/
theorem clean_bounded_iff {γ : Type} {f : α → Validation β} {condition : α → Prop}
    {items : List α} {count limit : ℕ} {text : String} {finish : List β → γ}
    (h : ∀ item, Clean (f item) ↔ condition item) :
    Clean (if count > limit then invalid (plain text) else do
      let results ← items.mapM f
      pure (finish results) : Validation γ) ↔
      (count ≤ limit → InOrder f condition items) := by
  split
  · rename_i hmany
    exact iff_of_true (clean_invalid _ _) fun hfew => absurd hmany (Nat.not_lt.mpr hfew)
  · rename_i hfew
    rw [forall_prop_of_true (Nat.le_of_not_gt hfew)]
    refine (clean_bind_same (clean_mapM_iff h) fun _ => iff_true_intro (clean_pure _)).trans ?_
    simp

end Basics

/-! ## Fields -/

section Fields

variable {data entry : List (Scalar × Value)} {allowed knownNames : List String}
  {key context : String}

theorem length_textKeys_lt_iff {keys : List Scalar} :
    (textKeys keys).length < keys.length ↔ ∃ key ∈ keys, ∀ text, key ≠ .str text := by
  induction keys with
  | nil => simp [textKeys]
  | cons key keys ih =>
      have hle : (textKeys keys).length ≤ keys.length := List.length_filterMap_le _ _
      cases key with
      | str text =>
          have hcons : textKeys (.str text :: keys) = text :: textKeys keys := rfl
          rw [hcons, List.length_cons, List.length_cons, Nat.add_lt_add_iff_right, ih]
          simp
      | none | bool value | int value | other typeName text =>
          refine iff_of_true ?_ ⟨_, List.mem_cons_self, nofun⟩
          exact Nat.lt_succ_of_le hle

theorem clean_rejectUnknownKeys_iff :
    Clean (rejectUnknownKeys data allowed context) ↔ UnknownTexts data allowed := by
  have hunknown : ∀ key, key ∈ ((data.map fun entry => entry.1).filter fun key =>
      !(allowed.any fun name => key = .str name)) ↔
        ∃ entry ∈ data, entry.1 = key ∧ key ∉ allowed.map Scalar.str := by
    intro key
    simp only [List.mem_filter, List.mem_map, Bool.not_eq_true', List.any_eq_false,
      decide_eq_true_eq]
    constructor
    · rintro ⟨⟨found, hfound, rfl⟩, hnot⟩
      exact ⟨found, hfound, rfl, fun ⟨name, hname, heq⟩ => hnot name hname heq.symm⟩
    · rintro ⟨found, hfound, rfl, hnot⟩
      exact ⟨⟨found, hfound, rfl⟩, fun name hname heq => hnot ⟨name, hname, heq.symm⟩⟩
  have htexts : UnknownTexts data allowed ↔
      ¬ (textKeys ((data.map fun entry => entry.1).filter fun key =>
          !(allowed.any fun name => key = .str name))).length <
        ((data.map fun entry => entry.1).filter fun key =>
          !(allowed.any fun name => key = .str name)).length := by
    rw [length_textKeys_lt_iff]
    simp only [hunknown, UnknownTexts]
    grind
  rw [htexts]
  unfold rejectUnknownKeys
  dsimp only
  split
  · rename_i hnil
    rw [hnil]
    exact iff_of_true (clean_pure _) (Nat.lt_irrefl _)
  · split
    · rename_i hless
      refine iff_of_false (fun h => ?_) (not_not_intro hless)
      obtain ⟨error, herror⟩ := h _ rfl
      cases herror
    · rename_i hless
      exact iff_of_true (clean_invalid _ _) hless

theorem clean_requireString {maxLength : ℕ} : Clean (requireString data key context maxLength) := by
  unfold requireString
  split
  · exact clean_invalid _ _
  · split
    · exact clean_invalid _ _
    · exact clean_pure _

theorem clean_requireMapping {value : Value} : Clean (requireMapping value context) := by
  unfold requireMapping
  split
  · exact clean_pure _
  · exact clean_invalid _ _

theorem clean_requireAllocation : Clean (requireAllocation entry context knownNames) := by
  unfold requireAllocation
  split
  · exact clean_invalid _ _
  · split
    · exact clean_pure _
    · exact clean_refuse_iff.mpr rfl

theorem clean_readNamespace : Clean (readNamespace entry context) := by
  unfold readNamespace
  split
  · exact clean_pure _
  · split
    · exact clean_pure _
    · exact clean_invalid _ _

theorem clean_readList {field : String} {limit : ℕ} : Clean (readList data key field limit) := by
  unfold readList
  split
  · split
    · exact clean_invalid _ _
    · exact clean_pure _
  · exact clean_invalid _ _

theorem clean_validateRequestId : Clean (validateRequestId data) := by
  unfold validateRequestId
  split
  · exact clean_pure _
  · split
    · exact clean_pure _
    · exact clean_invalid _ _

/-- A message around a value can be shown when the value can. -/
theorem clean_shown_iff {α : Type} {code before after : String} {value : Option Value}
    {details : List (List (String × Value))} :
    Clean (refuse code [.text before, .repr value, .text after] details : Validation α) ↔
      Shown value := by
  rw [clean_refuse_iff]
  simp [Fragment.printable, Shown]

theorem isPrintable_of_port {value : ℤ} (h : 1 ≤ value ∧ value ≤ 65535) :
    isPrintable (.int value) = true := by
  rw [isPrintable, decide_eq_true_eq, Nat.length_toDigits_le_iff (by decide) (by decide)]
  exact Nat.lt_of_lt_of_le (show value.natAbs < 10 ^ 5 by omega)
    (Nat.pow_le_pow_right (by decide) (by decide))

theorem shown_of_portNumber? {value : Option Value} {port : ℕ}
    (h : portNumber? value = some port) : Shown value := by
  unfold portNumber? at h
  split at h
  · split at h
    · rename_i hbounds
      simpa [Shown, isPrintableValue] using isPrintable_of_port hbounds
    · cases h
  · cases h

theorem clean_requirePort_iff : Clean (requirePort entry key context) ↔ Shown (get? entry key) := by
  unfold requirePort
  split
  · rename_i hport
    exact iff_of_true (clean_pure _) (shown_of_portNumber? hport)
  · exact clean_shown_iff

theorem clean_readProtocol_iff {details : List (List (String × Value))} :
    Clean (readProtocol entry context details) ↔ Shown (get? entry "protocol") := by
  unfold readProtocol readProtocol.refused
  cases get? entry "protocol" with
  | none => exact iff_of_true (clean_pure _) rfl
  | some value =>
      rw [Option.getD_some]
      split
      · split
        · exact iff_of_true (clean_pure _) rfl
        · exact clean_shown_iff
      · exact clean_shown_iff

theorem clean_readRequestedRange_iff :
    Clean (readRequestedRange entry context) ↔ ShortBounds entry := by
  unfold readRequestedRange readRequestedRange.malformed ShortBounds
  cases (get? entry "range").or (get? entry "requested_range") with
  | none => exact iff_of_true (clean_pure _) nofun
  | some value =>
      rw [Option.getD_some]
      split
      · exact iff_of_true (clean_pure _) nofun
      · rename_i text
        split
        · rename_i hnone
          refine iff_of_true (clean_invalid _ _) ?_
          intro source low high hsource hdigits
          cases hsource
          rw [hnone] at hdigits
          cases hdigits
        · rename_i low high hdigits
          split
          · rename_i hlow hhigh
            refine iff_of_true ?_ ?_
            · split
              · exact clean_pure _
              · exact clean_invalid _ _
            · intro source first last hsource hfound
              cases hsource
              rw [hdigits] at hfound
              cases hfound
              simp [hlow, hhigh]
          · rename_i hbounds
            refine iff_of_false (fun h => ?_) (fun h => ?_)
            · obtain ⟨error, herror⟩ := h _ rfl
              cases herror
            · obtain ⟨hlow, hhigh⟩ := h text low high rfl hdigits
              obtain ⟨first, hfirst⟩ := Option.isSome_iff_exists.mp hlow
              obtain ⟨last, hlast⟩ := Option.isSome_iff_exists.mp hhigh
              exact hbounds first last hfirst hlast
      · refine iff_of_true (clean_invalid _ _) ?_
        rintro text low high heq
        cases heq
        rename_i hnot
        exact absurd rfl (hnot text)

theorem clean_requirePrintable_iff {name : Scalar} :
    Clean (requirePrintable name) ↔ isPrintable name = true := by
  unfold requirePrintable
  split
  · rename_i hprintable
    exact iff_of_true (clean_pure _) hprintable
  · rename_i hprintable
    refine iff_of_false (fun h => ?_) hprintable
    obtain ⟨error, herror⟩ := h _ rfl
    cases herror

/-- A value that has to be a mapping with known fields, in the order of the checks. -/
def MappingOrderly (value : Value) (context : String) (allowed : List String)
    (rest : List (Scalar × Value) → Prop) : Prop :=
  ∀ items, value = .dict items → UnknownTexts items allowed ∧
    (Passes (rejectUnknownKeys items allowed context) → rest items)

theorem clean_mapping_iff {α : Type} {value : Value}
    {next : List (Scalar × Value) → Validation α} :
    Clean (do
      let items ← requireMapping value context
      rejectUnknownKeys items allowed context
      next items) ↔
    MappingOrderly value context allowed fun items => Clean (next items) := by
  have hok : ∀ items, requireMapping value context = .ok items ↔ value = .dict items := by
    intro items
    cases value <;> simp [requireMapping, invalid, refuse, pure, Except.pure]
  have hrest : ∀ items, Clean (do rejectUnknownKeys items allowed context; next items) ↔
      UnknownTexts items allowed ∧
        (Passes (rejectUnknownKeys items allowed context) → Clean (next items)) := fun items =>
    clean_bind_same clean_rejectUnknownKeys_iff fun _ => Iff.rfl
  rw [clean_bind_iff]
  simp only [hok, hrest, clean_requireMapping, true_and, MappingOrderly]

theorem MappingOrderly.congr {value : Value} {first second : List (Scalar × Value) → Prop}
    (h : ∀ items, first items ↔ second items) :
    MappingOrderly value context allowed first ↔ MappingOrderly value context allowed second := by
  simp only [MappingOrderly, h]

end Fields

/-! ## Where validation comes -/

section Conditions

variable (knownNames : List String) (context : String)

/-- The places of a port entry: a name that is no text, then the unknown fields, the protocol, the
preferred port and the range, each only if what is checked before it passes. -/
def PortEntryOrderly (name : Scalar) (entry : Value) : Prop :=
  match name with
  | .str name =>
      strip name ≠ "" → name.length ≤ 255 →
        MappingOrderly entry s!"ports.{name}" portEntryKeys fun items =>
          Passes (requireString items "purpose" s!"ports.{name}" 64) →
            Shown (get? items "protocol") ∧
            (Passes (readProtocol items s!"ports.{name}"
                [[("field", .str s!"ports.{name}.protocol")]]) →
              Shown (get? items "preferred") ∧
              (((get? items "preferred").all fun raw => (portNumber? (some raw)).isSome) = true →
                ¬ ((get? items "range").isSome ∧ (get? items "requested_range").isSome) →
                  ShortBounds items))
  | name => isPrintable name = true

/-- The places of a dotenv mapping: the unknown fields and the keys of the values. -/
def DotenvMappingOrderly (entry : Value) (index : ℕ) : Prop :=
  MappingOrderly entry s!"config.dotenv[{index}]" dotenvEntryKeys fun items =>
    Passes (requireString items "file" s!"config.dotenv[{index}]" 1024) →
      ∀ values, get? items "values" = some (.dict values) → values.length ≤ maxValuesPerDotenvFile →
        InOrder (fun item => validateDotenvValue s!"config.dotenv[{index}]" knownNames item.1 item.2)
          (fun item => isPrintable item.1 = true) values

/-- The places of an entry of a Compose service. -/
def ComposePortEntryOrderly (entry : Value) : Prop :=
  MappingOrderly entry context composePortEntryKeys fun items =>
    Passes (requireAllocation items context knownNames) →
      Shown (get? items "container") ∧
      (Passes (requirePort items "container" context) → Shown (get? items "protocol"))

/-- The places of a Compose service. -/
def ComposeServiceOrderly (name : Scalar) (entry : Value) : Prop :=
  match name with
  | .str name =>
      let service := s!"{context}.services.{name}"
      strip name ≠ "" → MappingOrderly entry service ["ports"] fun items =>
        ∀ ports, get? items "ports" = some (.list ports) → ports.length ≤ maxPortsPerComposeService →
          InOrder
            (fun item : Value × ℕ =>
              let index := item.2
              validateComposePortEntry knownNames item.1 s!"{service}.ports[{index}]")
            (fun item =>
              let index := item.2
              ComposePortEntryOrderly knownNames s!"{service}.ports[{index}]" item.1)
            ports.zipIdx
  | name => isPrintable name = true

/-- The places of a Compose mapping. -/
def ComposeMappingOrderly (entry : Value) (index : ℕ) : Prop :=
  MappingOrderly entry s!"config.compose[{index}]" composeEntryKeys fun items =>
    Passes (requireString items "file" s!"config.compose[{index}]" 1024) →
      ∀ services, get? items "services" = some (.dict services) →
        services.length ≤ maxServicesPerComposeFile →
          InOrder
            (fun item =>
              validateComposeService s!"config.compose[{index}]" knownNames item.1 item.2)
            (fun item => ComposeServiceOrderly knownNames s!"config.compose[{index}]" item.1 item.2)
            services

/-- The places of a host port entry. -/
def HostPortEntryOrderly (entry : Value) : Prop :=
  MappingOrderly entry context kubernetesHostPortEntryKeys fun items =>
    Shown (get? items "kind") ∧
    ((∃ kind ∈ kubernetesSupportedKinds, get? items "kind" = some (.str kind)) →
      Passes (requireString items "name" context 255) → Passes (readNamespace items context) →
      Passes (requireString items "container" context 255) →
        Shown (get? items "containerPort") ∧
        (Passes (requirePort items "containerPort" context) → Shown (get? items "protocol")))

/-- The places of a node port entry. -/
def NodePortEntryOrderly (entry : Value) : Prop :=
  MappingOrderly entry context kubernetesNodePortEntryKeys fun items =>
    Passes (requireString items "name" context 255) → Passes (readNamespace items context) →
      Shown (get? items "servicePort") ∧
      (Passes (requirePort items "servicePort" context) → Shown (get? items "protocol"))

/-- A list whose items are checked in order, and what follows it. -/
def ListOrderly {β : Type} (data : List (Scalar × Value)) (key field : String) (limit : ℕ)
    (f : Value × ℕ → Validation β) (condition : Value × ℕ → Prop) (rest : Prop) : Prop :=
  ∀ raw, readList data key field limit = .ok raw →
    InOrder f condition raw.zipIdx ∧ (Passes (raw.zipIdx.mapM f) → rest)

/-- The places of a Kubernetes mapping: the unknown fields and the entries of both lists. -/
def KubernetesMappingOrderly (entry : Value) (index : ℕ) : Prop :=
  let context := s!"config.kubernetes[{index}]"
  MappingOrderly entry context kubernetesEntryKeys fun items =>
    Passes (requireString items "file" context 1024) →
      ListOrderly items "hostPorts" s!"{context}.hostPorts"
        maxHostPortsPerKubernetesFile
        (fun item =>
          let place := item.2
          validateKubernetesHostPortEntry knownNames item.1
            s!"{context}.hostPorts[{place}]")
        (fun item =>
          let place := item.2
          HostPortEntryOrderly s!"{context}.hostPorts[{place}]" item.1)
        (ListOrderly items "nodePorts" s!"{context}.nodePorts"
          maxNodePortsPerKubernetesFile
          (fun item =>
            let place := item.2
            validateKubernetesNodePortEntry knownNames item.1
              s!"{context}.nodePorts[{place}]")
          (fun item =>
            let place := item.2
            NodePortEntryOrderly s!"{context}.nodePorts[{place}]" item.1)
          True)

/-- The places of the `config` field. -/
def ConfigOrderly (data : Option Value) : Prop :=
  ∀ items, data = some (.dict items) → UnknownTexts items configKeys ∧
    (Passes (rejectUnknownKeys items configKeys "config") →
      ListOrderly items "dotenv" "config.dotenv" maxConfigFilesPerKind
        (fun item => validateDotenvMapping knownNames item.1 item.2)
        (fun item => DotenvMappingOrderly knownNames item.1 item.2)
        (ListOrderly items "compose" "config.compose" maxConfigFilesPerKind
          (fun item => validateComposeMapping knownNames item.1 item.2)
          (fun item => ComposeMappingOrderly knownNames item.1 item.2)
          (ListOrderly items "kubernetes" "config.kubernetes" maxConfigFilesPerKind
            (fun item => validateKubernetesMapping knownNames item.1 item.2)
            (fun item => KubernetesMappingOrderly knownNames item.1 item.2) True)))

end Conditions

/-- The places of the `target` field. -/
def TargetOrderly (data : List (Scalar × Value)) : Prop :=
  ∀ target, get? data "target" = some (.dict target) → UnknownTexts target targetKeys

/-- The places of the `ports` field. -/
def PortsOrderly (data : List (Scalar × Value)) (hasTarget : Bool) : Prop :=
  ∀ ports, get? data "ports" = some (.dict ports) → (ports.isEmpty && hasTarget) = false →
    ports.length ≤ maxPortsPerManifest →
      InOrder (fun entry => validatePortEntry entry.1 entry.2)
        (fun entry => PortEntryOrderly entry.1 entry.2) ports

/-- The places of a manifest, in the order of the checks: at each that validation comes to, unknown
fields are texts, values that a message shows have no overlong integer, and ranges can be read. -/
def ManifestOrderly (data : List (Scalar × Value)) : Prop :=
  UnknownTexts data topLevelKeys ∧
    (Passes (rejectUnknownKeys data topLevelKeys "manifest") →
      Shown (get? data "version") ∧
      (Passes (validateVersion data) → Passes (requireString data "project" "manifest" 255) →
        TargetOrderly data ∧
        ∀ host, validateTarget data = .ok host →
          PortsOrderly data host.isSome ∧
          ∀ requests, validatePorts data host.isSome = .ok requests →
            Passes (validateRequestId data) →
              ConfigOrderly (requests.map fun request => request.name).eraseDups
                (get? data "config")))

section Composite

variable {knownNames : List String} {context : String} {entry : Value} {index : ℕ}

theorem clean_finishPortEntry_iff (items : List (Scalar × Value)) (name purpose protocol : String)
    (preferredPort : Option ℕ) :
    Clean (finishPortEntry items name purpose protocol preferredPort) ↔
      (¬ ((get? items "range").isSome ∧ (get? items "requested_range").isSome) →
        ShortBounds items) := by
  unfold finishPortEntry
  dsimp only
  split
  · rename_i hboth
    exact iff_of_true (clean_invalid _ _) fun hnot => absurd (by simpa using hboth) hnot
  · rename_i hboth
    have hnot : ¬ ((get? items "range").isSome ∧ (get? items "requested_range").isSome) := by
      simpa using hboth
    rw [clean_bind_iff, clean_readRequestedRange_iff, forall_prop_of_true hnot]
    refine and_iff_left_of_imp fun _ range _ => ?_
    split
    · exact clean_pure _
    · split
      · exact clean_invalid _ _
      · exact clean_pure _

theorem clean_validatePortEntry_iff {name : Scalar} :
    Clean (validatePortEntry name entry) ↔ PortEntryOrderly name entry := by
  unfold validatePortEntry PortEntryOrderly
  split
  · rename_i name
    split
    · rename_i hblank
      exact iff_of_true (clean_invalid _ _) fun hne => absurd hblank hne
    · rename_i hblank
      split
      · rename_i hlong
        exact iff_of_true (clean_invalid _ _) fun _ hle => absurd hlong (Nat.not_lt.mpr hle)
      · rename_i hlong
        dsimp only
        rw [clean_mapping_iff, forall_prop_of_true hblank,
          forall_prop_of_true (Nat.le_of_not_gt hlong)]
        refine MappingOrderly.congr fun items => ?_
        refine clean_bind_of_clean clean_requireString fun purpose => ?_
        refine clean_bind_same clean_readProtocol_iff fun protocol => ?_
        cases hpreferred : get? items "preferred" with
        | none =>
            refine (clean_finishPortEntry_iff items name purpose protocol none).trans ?_
            simp [Shown]
        | some raw =>
            dsimp only
            split
            · rename_i port hport
              refine (clean_finishPortEntry_iff items name purpose protocol (some port)).trans ?_
              simp [shown_of_portNumber? hport, hport]
            · rename_i hnone
              refine (clean_bind_of_refused (by simp [invalid, refuse])).trans
                (clean_shown_iff.trans ?_)
              simp [hnone]
  · refine (clean_bind_same clean_requirePrintable_iff fun _ => iff_true_intro (clean_invalid _ _)).trans ?_
    simp

theorem clean_validateDotenvValue_iff {key : Scalar} :
    Clean (validateDotenvValue context knownNames key entry) ↔ isPrintable key = true := by
  have hbad : ∀ {before after : String}, Clean (invalid [.text before, .str key, .text after] :
      Validation (String × String)) ↔ isPrintable key = true := by
    intro before after
    refine clean_refuse_iff.trans ?_
    simp [Fragment.printable]
  unfold validateDotenvValue
  dsimp only
  split
  · split
    · split
      · exact iff_of_true (clean_invalid _ _) rfl
      · split
        · exact iff_of_true (clean_pure _) rfl
        · exact iff_of_true (clean_refuse_iff.mpr rfl) rfl
    · exact hbad
  · exact hbad

theorem clean_validateDotenvMapping_iff :
    Clean (validateDotenvMapping knownNames entry index) ↔
      DotenvMappingOrderly knownNames entry index := by
  refine clean_mapping_iff.trans (MappingOrderly.congr fun items => ?_)
  refine clean_bind_of_clean clean_requireString fun file => ?_
  split
  · rename_i first rest hvalues
    refine (clean_bounded_iff fun item => clean_validateDotenvValue_iff).trans ?_
    rw [hvalues]
    simp [Value.dict.injEq]
  · rename_i hnot
    refine iff_of_true (clean_invalid _ _) fun values hvalues _ => ?_
    cases values with
    | nil => exact inOrder_nil _ _
    | cons first rest => exact absurd hvalues (hnot first rest)

theorem clean_validateComposePortEntry_iff :
    Clean (validateComposePortEntry knownNames entry context) ↔
      ComposePortEntryOrderly knownNames context entry := by
  refine clean_mapping_iff.trans (MappingOrderly.congr fun items => ?_)
  refine clean_bind_of_clean clean_requireAllocation fun allocation => ?_
  refine clean_bind_same clean_requirePort_iff fun container => ?_
  refine (clean_bind_same clean_readProtocol_iff fun protocol => iff_true_intro (clean_pure _)).trans ?_
  simp

theorem clean_validateNodePortEntry_iff :
    Clean (validateKubernetesNodePortEntry knownNames entry context) ↔
      NodePortEntryOrderly context entry := by
  refine clean_mapping_iff.trans (MappingOrderly.congr fun items => ?_)
  refine clean_bind_of_clean clean_requireString fun name => ?_
  refine clean_bind_of_clean clean_readNamespace fun ns => ?_
  refine clean_bind_same clean_requirePort_iff fun port => ?_
  refine (clean_bind_same clean_readProtocol_iff fun protocol => (clean_bind_of_clean
    clean_requireAllocation fun allocation => iff_true_intro (clean_pure _))).trans ?_
  simp

theorem clean_validateHostPortEntry_iff :
    Clean (validateKubernetesHostPortEntry knownNames entry context) ↔
      HostPortEntryOrderly context entry := by
  refine clean_mapping_iff.trans (MappingOrderly.congr fun items => ?_)
  have hknown : ∀ kind, Clean (do
      let kind ← pure kind
      let name ← requireString items "name" context 255
      let ns ← readNamespace items context
      let container ← requireString items "container" context 255
      let containerPort ← requirePort items "containerPort" context
      let protocol ← readProtocol items context []
      let allocation ← requireAllocation items context knownNames
      pure (⟨kind, name, ns, container, containerPort, protocol, allocation⟩ :
        KubernetesHostPortEntry) : Validation KubernetesHostPortEntry) ↔
      (Passes (requireString items "name" context 255) → Passes (readNamespace items context) →
        Passes (requireString items "container" context 255) →
          Shown (get? items "containerPort") ∧
          (Passes (requirePort items "containerPort" context) →
            Shown (get? items "protocol"))) := by
    intro kind
    refine clean_bind_of_clean clean_requireString fun name => ?_
    refine clean_bind_of_clean clean_readNamespace fun ns => ?_
    refine clean_bind_of_clean clean_requireString fun container => ?_
    refine clean_bind_same clean_requirePort_iff fun port => ?_
    refine (clean_bind_same clean_readProtocol_iff fun protocol => (clean_bind_of_clean
      clean_requireAllocation fun allocation => iff_true_intro (clean_pure _))).trans ?_
    simp
  cases hkind : get? items "kind" with
  | none =>
      refine (clean_bind_of_refused (by simp [invalid, refuse])).trans (clean_shown_iff.trans ?_)
      simp
  | some value =>
      dsimp only
      split
      · rename_i kind hsome
        cases hsome
        split
        · rename_i hsupported
          have hshown : Shown (some (.str kind)) := rfl
          have hgiven : ∃ other ∈ kubernetesSupportedKinds, some (Value.str kind) = some (.str other) :=
            ⟨kind, hsupported, rfl⟩
          refine (hknown kind).trans ?_
          exact ⟨fun h => ⟨hshown, fun _ => h⟩, fun h => h.2 hgiven⟩
        · rename_i hunsupported
          refine (clean_bind_of_refused (by simp [invalid, refuse])).trans (clean_shown_iff.trans ?_)
          refine ⟨fun h => ⟨h, fun ⟨other, hother, heq⟩ => ?_⟩, fun h => h.1⟩
          cases heq
          exact absurd hother hunsupported
      · rename_i hnot
        refine (clean_bind_of_refused (by simp [invalid, refuse])).trans (clean_shown_iff.trans ?_)
        refine ⟨fun h => ⟨h, fun ⟨other, _, heq⟩ => ?_⟩, fun h => h.1⟩
        cases heq
        exact absurd rfl (hnot other)

theorem clean_validateComposeService_iff {name : Scalar} :
    Clean (validateComposeService context knownNames name entry) ↔
      ComposeServiceOrderly knownNames context name entry := by
  unfold validateComposeService ComposeServiceOrderly
  split
  · rename_i name
    split
    · rename_i hblank
      exact iff_of_true (clean_invalid _ _) fun hne => absurd hblank hne
    · rename_i hblank
      have hne : strip name ≠ "" := hblank
      refine Iff.trans ?_ (forall_prop_of_true hne).symm
      refine clean_mapping_iff.trans (MappingOrderly.congr fun items => ?_)
      split
      · rename_i first rest hports
        have hentry : ∀ item : Value × ℕ,
            Clean (validateComposePortEntry knownNames item.1
              (let service := s!"{context}.services.{name}"
               let index := item.2; s!"{service}.ports[{index}]")) ↔
            ComposePortEntryOrderly knownNames
              (let service := s!"{context}.services.{name}"
               let index := item.2; s!"{service}.ports[{index}]") item.1 :=
          fun item => clean_validateComposePortEntry_iff
        refine (clean_bounded_iff hentry).trans ?_
        rw [hports]
        simp [Value.list.injEq]
      · rename_i hnot
        refine iff_of_true (clean_invalid _ _) fun ports hports _ => ?_
        cases ports with
        | nil => exact inOrder_nil _ _
        | cons first rest => exact absurd hports (hnot first rest)
  · refine (clean_bind_same clean_requirePrintable_iff fun _ => iff_true_intro (clean_invalid _ _)).trans ?_
    simp

theorem clean_validateComposeMapping_iff :
    Clean (validateComposeMapping knownNames entry index) ↔
      ComposeMappingOrderly knownNames entry index := by
  refine clean_mapping_iff.trans (MappingOrderly.congr fun items => ?_)
  refine clean_bind_of_clean clean_requireString fun file => ?_
  split
  · rename_i first rest hservices
    refine (clean_bounded_iff fun item => clean_validateComposeService_iff).trans ?_
    rw [hservices]
    simp [Value.dict.injEq]
  · rename_i hnot
    refine iff_of_true (clean_invalid _ _) fun services hservices _ => ?_
    cases services with
    | nil => exact inOrder_nil _ _
    | cons first rest => exact absurd hservices (hnot first rest)

theorem clean_list_iff {α β : Type} {data : List (Scalar × Value)} {key field : String} {limit : ℕ}
    {f : Value × ℕ → Validation α} {condition : Value × ℕ → Prop} {next : List α → Validation β}
    {rest : Prop} (h : ∀ item, Clean (f item) ↔ condition item)
    (hnext : ∀ results, Clean (next results) ↔ rest) :
    Clean (do
      let raw ← readList data key field limit
      let results ← raw.zipIdx.mapM f
      next results) ↔
    ListOrderly data key field limit f condition rest := by
  refine (clean_bind_each (iff_true_intro clean_readList) fun raw =>
    clean_bind_same (clean_mapM_iff h) hnext).trans ?_
  simp [ListOrderly]

theorem clean_validateKubernetesMapping_iff :
    Clean (validateKubernetesMapping knownNames entry index) ↔
      KubernetesMappingOrderly knownNames entry index := by
  refine clean_mapping_iff.trans (MappingOrderly.congr fun items => ?_)
  refine clean_bind_of_clean clean_requireString fun file => ?_
  refine clean_list_iff (fun item => clean_validateHostPortEntry_iff) fun hostPorts => ?_
  refine clean_list_iff (fun item => clean_validateNodePortEntry_iff) fun nodePorts => ?_
  refine iff_true_intro ?_
  split
  · exact clean_invalid _ _
  · split
    · exact clean_refuse_iff.mpr rfl
    · split
      · exact clean_refuse_iff.mpr rfl
      · exact clean_pure _

theorem clean_validateConfig_iff {data : Option Value} :
    Clean (validateConfig knownNames data) ↔ ConfigOrderly knownNames data := by
  unfold validateConfig ConfigOrderly
  cases data with
  | none => exact iff_of_true (clean_pure _) nofun
  | some value =>
      rw [Option.getD_some]
      split
      · exact iff_of_true (clean_pure _) nofun
      · rename_i items
        simp only [Option.some.injEq, Value.dict.injEq, forall_eq']
        refine clean_bind_same clean_rejectUnknownKeys_iff fun _ => ?_
        refine clean_list_iff (fun item => clean_validateDotenvMapping_iff) fun dotenv => ?_
        refine clean_list_iff (fun item => clean_validateComposeMapping_iff) fun compose => ?_
        refine clean_list_iff (fun item => clean_validateKubernetesMapping_iff) fun kubernetes => ?_
        refine iff_true_intro ?_
        split
        · exact clean_invalid _ _
        · exact clean_pure _
      · rename_i hnot
        refine iff_of_true (clean_invalid _ _) fun items hitems => ?_
        exact absurd (Option.some.inj hitems) (hnot items)

end Composite

section Manifests

variable {data : List (Scalar × Value)}

theorem clean_validateVersion_iff :
    Clean (validateVersion data) ↔ Shown (get? data "version") := by
  unfold validateVersion
  cases get? data "version" with
  | none => exact iff_of_true (clean_invalid _ _) rfl
  | some value =>
      rw [Option.getD_some]
      split
      · exact iff_of_true (clean_invalid _ _) rfl
      · rename_i version
        split
        · rename_i hsupported
          subst hsupported
          have hshown : isPrintable (.int supportedManifestVersion) = true :=
            isPrintable_of_port (by decide)
          exact iff_of_true (clean_pure _) (by simpa [Shown, isPrintableValue] using hshown)
        · refine clean_refuse_iff.trans ?_
          simp [Fragment.printable, Shown, isPrintableValue]
      · exact clean_shown_iff

theorem clean_validateTarget_iff : Clean (validateTarget data) ↔ TargetOrderly data := by
  unfold validateTarget TargetOrderly
  cases get? data "target" with
  | none => exact iff_of_true (clean_pure _) nofun
  | some value =>
      rw [Option.getD_some]
      split
      · exact iff_of_true (clean_pure _) nofun
      · rename_i target
        simp only [Option.some.injEq, Value.dict.injEq, forall_eq']
        refine (clean_bind_same clean_rejectUnknownKeys_iff fun _ => (clean_bind_of_clean
          clean_requireString fun host => iff_true_intro (clean_pure _))).trans ?_
        simp
      · rename_i hnot
        refine iff_of_true (clean_invalid _ _) fun target htarget => ?_
        exact absurd (Option.some.inj htarget) (hnot target)

theorem clean_validatePorts_iff {hasTarget : Bool} :
    Clean (validatePorts data hasTarget) ↔ PortsOrderly data hasTarget := by
  unfold validatePorts PortsOrderly
  split
  · rename_i ports hports
    rw [hports]
    simp only [Option.some.injEq, Value.dict.injEq, forall_eq']
    split
    · rename_i hempty
      exact iff_of_true (clean_invalid _ _) fun hnot => absurd (hnot.symm.trans hempty) (by decide)
    · rename_i hempty
      split
      · rename_i hmany
        exact iff_of_true (clean_invalid _ _) fun _ hfew => absurd hmany (Nat.not_lt.mpr hfew)
      · rename_i hfew
        rw [forall_prop_of_true (Bool.eq_false_iff.mpr hempty),
          forall_prop_of_true (Nat.le_of_not_gt hfew)]
        exact clean_mapM_iff fun entry => clean_validatePortEntry_iff
  · rename_i hnot
    exact iff_of_true (clean_invalid _ _) fun ports hports => absurd hports (hnot ports)

/-- Validation fails cleanly exactly where the places it comes to are in order. -/
theorem clean_validateManifest_iff (data : List (Scalar × Value)) :
    Clean (validateManifest data) ↔ ManifestOrderly data := by
  refine clean_bind_same clean_rejectUnknownKeys_iff fun _ => ?_
  refine clean_bind_same clean_validateVersion_iff fun version => ?_
  refine clean_bind_of_clean clean_requireString fun project => ?_
  refine clean_bind_each clean_validateTarget_iff fun host => ?_
  refine clean_bind_each clean_validatePorts_iff fun requests => ?_
  refine clean_bind_of_clean clean_validateRequestId fun requestId => ?_
  refine (clean_bind_same clean_validateConfig_iff fun config =>
    iff_true_intro (clean_pure _)).trans ?_
  simp

/-- A field whose name is a number cannot be listed. -/
theorem not_clean_validateManifest :
    ¬ ∀ data : List (Scalar × Value), Clean (validateManifest data) := by
  intro h
  obtain ⟨error, herror⟩ := h [(.int 1, .scalar .none)] .typeError rfl
  cases herror

end Manifests

end Agent
