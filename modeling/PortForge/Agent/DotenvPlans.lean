/-
# The dotenv files of a plan

A plan edits a dotenv file with the variables of a validated manifest and the ports of an
allocation. The keys of such an edit differ and are names of environment variables, and its values
are decimal numbers. So a plan that follows the change of a steady file changes nothing, and a file
that the plan marks as unchanged keeps its text.
-/

import PortForge.Agent.DotenvReruns
import PortForge.Agent.UserEdits
import PortForge.Effects.Exceptions

namespace Agent

open Effects Python

/-! ## Validated mappings -/

section SetItem

variable {α : Type} {data : List (String × α)} {key : String} {value : α} {entry : String × α}

theorem mem_setItem (h : entry ∈ setItem data key value) : entry ∈ data ∨ entry = (key, value) := by
  unfold setItem at h
  split_ifs at h
  · obtain ⟨other, hother, heq⟩ := List.mem_map.mp h
    split_ifs at heq
    · exact .inr heq.symm
    · exact .inl (heq ▸ hother)
  · rcases List.mem_append.mp h with hmem | hmem
    · exact .inl hmem
    · exact .inr (List.mem_singleton.mp hmem)

theorem nodup_setItem (h : (data.map Prod.fst).Nodup) (key : String) (value : α) :
    ((setItem data key value).map Prod.fst).Nodup := by
  unfold setItem
  split_ifs with hany
  · have hkeys :
        (data.map fun entry => if entry.1 = key then (key, value) else entry).map Prod.fst =
          data.map Prod.fst := by
      rw [List.map_map]
      apply List.map_congr_left
      intro entry _
      by_cases hsame : entry.1 = key
      · simp [hsame]
      · simp [hsame]
    rwa [hkeys]
  · have hnew : key ∉ data.map Prod.fst := by
      intro hmem
      obtain ⟨entry, hentry, hsame⟩ := List.mem_map.mp hmem
      exact hany (List.any_eq_true.mpr ⟨entry, hentry, by simpa using hsame⟩)
    rw [List.map_append, List.map_singleton]
    exact h.append (List.nodup_singleton _) (by simpa using hnew)

/-- A dictionary that is filled item by item has no key twice, and only items it was given. -/
theorem foldl_setItem (items : List (String × α)) (h : (data.map Prod.fst).Nodup) :
    ((items.foldl (fun data item => setItem data item.1 item.2) data).map Prod.fst).Nodup ∧
      ∀ entry ∈ items.foldl (fun data item => setItem data item.1 item.2) data,
        entry ∈ data ∨ entry ∈ items := by
  induction items generalizing data with
  | nil => exact ⟨h, fun _ hentry => .inl hentry⟩
  | cons item items ih =>
      obtain ⟨hkeys, hitems⟩ := ih (nodup_setItem h item.1 item.2)
      refine ⟨hkeys, fun entry hentry => ?_⟩
      rcases hitems entry hentry with hmem | hmem
      · rcases mem_setItem hmem with hold | rfl
        · exact .inl hold
        · exact .inr List.mem_cons_self
      · exact .inr (List.mem_cons_of_mem _ hmem)

end SetItem

/-- The variables of a mapping differ, and are names of environment variables. -/
structure DotenvFileMapping.Named (mapping : DotenvFileMapping) : Prop where
  keys : (mapping.values.map Prod.fst).Nodup
  names : ∀ entry ∈ mapping.values, isEnvKey entry.1

section Validated

variable {knownNames : List String} {mapping : DotenvFileMapping}

theorem isEnvKey_of_validate {context : String} {key : Scalar} {value : Value}
    {entry : String × String}
    (h : validateDotenvValue context knownNames key value = .ok entry) : isEnvKey entry.1 := by
  unfold validateDotenvValue at h
  dsimp only at h
  split at h
  · next envKey =>
      split_ifs at h with hkey
      · split at h
        · cases h
        · split_ifs at h
          · cases h
            exact hkey
          · cases h
      · cases h
  · cases h

/-- A mapping that is accepted is named. -/
theorem named_of_validateMapping {raw : Value} {index : ℕ}
    (h : validateDotenvMapping knownNames raw index = .ok mapping) : mapping.Named := by
  unfold validateDotenvMapping at h
  simp only [bind_eq_ok_iff] at h
  obtain ⟨items, -, _, -, file, -, h⟩ := h
  split at h
  · split_ifs at h
    · cases h
    · obtain ⟨resolved, hresolved, h⟩ := bind_eq_ok_iff.mp h
      cases h
      have hnil : (([] : List (String × String)).map Prod.fst).Nodup := List.nodup_nil
      obtain ⟨hkeys, hitems⟩ := foldl_setItem resolved hnil
      refine ⟨hkeys, fun entry hentry => ?_⟩
      have hmem := (hitems entry hentry).resolve_left List.not_mem_nil
      obtain ⟨item, -, hitem⟩ := exists_of_mem_mapM hresolved hmem
      exact isEnvKey_of_validate hitem
  · cases h

theorem named_of_validateConfig {data : Option Value} {config : ConfigMappings}
    (h : validateConfig knownNames data = .ok (some config)) (hmapping : mapping ∈ config.dotenv) :
    mapping.Named := by
  unfold validateConfig at h
  split at h
  · cases h
  · simp only [bind_eq_ok_iff] at h
    obtain ⟨_, -, raw, -, dotenv, hdotenv, _, -, compose, -, _, -, kubernetes, -, h⟩ := h
    split_ifs at h
    · cases h
    · cases h
      obtain ⟨item, -, hitem⟩ := exists_of_mem_mapM hdotenv hmapping
      exact named_of_validateMapping hitem
  · cases h

/-- The dotenv mappings of a manifest that is accepted are named. -/
theorem named_of_validateManifest {data : List (Scalar × Value)} {manifest : ProjectManifest}
    {config : ConfigMappings} (h : validateManifest data = .ok manifest)
    (hconfig : manifest.config = some config) (hmapping : mapping ∈ config.dotenv) :
    mapping.Named := by
  unfold validateManifest at h
  simp only [bind_eq_ok_iff] at h
  obtain ⟨_, -, _, -, _, -, _, -, _, -, _, -, found, hfound, h⟩ := h
  cases h
  dsimp only at hconfig
  rw [hconfig] at hfound
  exact named_of_validateConfig hfound hmapping

end Validated

/-! ## The edit of a plan -/

section Edit

variable {mapping : DotenvFileMapping} {ports : List (String × ℕ)}
  {resolved : List (String × String)}

theorem isDecimal_toString (n : ℕ) : IsDecimal (toString n).toList := by
  have hdigits : (toString n).toList = Nat.toDigits 10 n := by
    rw [Nat.toString_eq_repr, Nat.repr, String.toList_ofList]
  rw [hdigits]
  refine ⟨Nat.toDigits_ne_nil, fun c hc => ?_⟩
  have hdigit := Nat.isDigit_of_mem_toDigits (by decide) (by decide) hc
  have hbounds : 48 ≤ c.val ∧ c.val ≤ 57 := by simpa [Char.isDigit] using hdigit
  exact hbounds

/-- What the variables of a named mapping get from an allocation is a mapping for the editor. -/
theorem isMapping_of_named (hnamed : mapping.Named)
    (hresolved : (mapping.values.mapM fun entry => do
      let port ← portOf ports entry.2
      pure (entry.1, toString port)) = .ok resolved) : IsMapping resolved := by
  have hitem : ∀ entry found : String × String, (do
      let port ← portOf ports entry.2
      pure (entry.1, toString port)) = (.ok found : Except ConfigFailure (String × String)) →
        found.1 = entry.1 ∧ IsDecimal found.2.toList := by
    intro entry found h
    obtain ⟨port, -, h⟩ := bind_eq_ok_iff.mp h
    cases h
    exact ⟨rfl, isDecimal_toString port⟩
  refine ⟨?_, ?_, ?_⟩
  · have hkeys : resolved.map Prod.fst = mapping.values.map Prod.fst :=
      map_of_mapM hresolved fun entry found h => (hitem entry found h).1
    exact hkeys ▸ hnamed.keys
  · intro found hfound
    obtain ⟨entry, hentry, h⟩ := exists_of_mem_mapM hresolved hfound
    rw [(hitem entry found h).1]
    exact hnamed.names entry hentry
  · intro found hfound
    obtain ⟨entry, -, h⟩ := exists_of_mem_mapM hresolved hfound
    exact (hitem entry found h).2

theorem decode_toUTF8 (text : String) : decode text.toUTF8 = .ok text := by
  unfold decode String.fromUTF8?
  rw [String.toUTF8_eq_toByteArray, dif_pos text.isValidUTF8]
  rfl

end Edit

end Agent
