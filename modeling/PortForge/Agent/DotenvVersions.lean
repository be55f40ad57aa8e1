/-
# Versions of a dotenv file

Two versions of a dotenv file that differ only in values of keys that a mapping does not
name are edited the same way: the same keys are refused as duplicates, the same changes are
reported, and the new texts differ exactly where the versions do.
-/

import PortForge.Agent.DotenvPlans

namespace Agent

open Python Effects

/-- Two lines are the same, or give different values to one key that is not mapped. -/
inductive SameLine (keys : List String) : List Char → List Char → Prop
  | refl (line : List Char) : SameLine keys line line
  | value {key before value value' line line' : List Char} (hkey : KeyShape key)
      (hother : ∀ mapped ∈ keys, mapped.toList ≠ key) (hline : Matches key line before value)
      (hline' : Matches key line' before value') : SameLine keys line line'

/-- Two texts that differ only in values of keys that are not mapped. -/
structure Versions (keys : List String) (text text' : String) : Prop where
  newline : (readLines (some text)).newline = (readLines (some text')).newline
  trailing : (readLines (some text)).trailing = (readLines (some text')).trailing
  lines : List.Forall₂ (SameLine keys) (readLines (some text)).lines (readLines (some text')).lines

variable {keys : List String} {line line' : List Char} {lines lines' : List (List Char)}
  {mapping : List (String × String)} {entry : String × String} {key : String}

/-- A line that gives a value to another key does not assign a mapped one. -/
theorem matchAssignment_of_other {other before value : List Char} (hkey : KeyShape key.toList)
    (hother : KeyShape other) (hne : key.toList ≠ other) (hline : Matches other line before value) :
    matchAssignment key.toList line = none := by
  cases hmatch : matchAssignment key.toList line with
  | none => rfl
  | some found =>
      obtain ⟨front, rest⟩ := found
      exact absurd ((matches_of_matchAssignment hmatch).unique hline hkey hother).1 hne

/-- What a mapped key finds in the two lines. -/
theorem SameLine.matchAssignment_eq (h : SameLine keys line line') (hmem : key ∈ keys)
    (hkey : KeyShape key.toList) :
    matchAssignment key.toList line = matchAssignment key.toList line' := by
  cases h with
  | refl => rfl
  | value hother hne hline hline' =>
      rw [matchAssignment_of_other hkey hother (hne key hmem) hline,
        matchAssignment_of_other hkey hother (hne key hmem) hline']

section Lines

variable (hlines : List.Forall₂ (SameLine keys) lines lines') (hmem : key ∈ keys)
  (hkey : KeyShape key.toList)

include hlines hmem hkey

theorem findSome?_matchAssignment_eq :
    lines.findSome? (matchAssignment key.toList) =
      lines'.findSome? (matchAssignment key.toList) := by
  induction hlines with
  | nil => rfl
  | cons hline _ ih =>
      rw [List.findSome?_cons, List.findSome?_cons, hline.matchAssignment_eq hmem hkey, ih]

theorem any_assigns_eq : lines.any (assigns key) = lines'.any (assigns key) := by
  induction hlines with
  | nil => rfl
  | cons hline _ ih =>
      rw [List.any_cons, List.any_cons, assigns, assigns, hline.matchAssignment_eq hmem hkey, ih]

theorem occurrences_eq : occurrences key lines = occurrences key lines' := by
  have hfrom : ∀ index, ((lines.zipIdx index).filter fun entry =>
      (matchAssignment key.toList entry.1).isSome).map Prod.snd =
        ((lines'.zipIdx index).filter fun entry =>
          (matchAssignment key.toList entry.1).isSome).map Prod.snd := by
    induction hlines with
    | nil => exact fun _ => rfl
    | cons hline _ ih =>
        intro index
        rw [List.zipIdx_cons, List.zipIdx_cons, List.filter_cons, List.filter_cons,
          hline.matchAssignment_eq hmem hkey]
        split
        · rw [List.map_cons, List.map_cons, ih]
        · exact ih (index + 1)
  exact hfrom 0

end Lines

/-! ## The edit -/

section Edit

variable (hmapping : IsMapping mapping) (hkeys : ∀ entry ∈ mapping, entry.1 ∈ keys)
  (hlines : List.Forall₂ (SameLine keys) lines lines')

include hmapping hkeys

/-- Editing tells two lines apart if they differ. -/
theorem SameLine.edited_eq_iff (h : SameLine keys line line') :
    edited mapping line = edited mapping line' ↔ line = line' := by
  refine ⟨fun heq => ?_, fun heq => by rw [heq]⟩
  cases h with
  | refl => rfl
  | value hother hne hline hline' =>
      have hnone {raw front rest : List Char} (hraw : Matches _ raw front rest) :
          edited mapping raw = raw :=
        edited_of_not fun entry hentry hassigns => by
          rw [assigns, matchAssignment_of_other (hmapping.keyShape hentry) hother
            (hne entry.1 (hkeys entry hentry)) hraw] at hassigns
          cases hassigns
      rwa [hnone hline, hnone hline'] at heq

include hlines

theorem appendedLines_eq : appendedLines mapping lines = appendedLines mapping lines' := by
  rw [appendedLines, appendedLines]
  congr 1
  refine List.filter_congr fun entry hentry => ?_
  rw [any_assigns_eq hlines (hkeys entry hentry) (hmapping.keyShape hentry)]

theorem duplicateKeys_eq : duplicateKeys lines mapping = duplicateKeys lines' mapping := by
  rw [duplicateKeys, duplicateKeys]
  refine List.filter_congr fun key hkey => ?_
  obtain ⟨entry, hentry, rfl⟩ := List.mem_map.mp hkey
  rw [occurrences_eq hlines (hkeys entry hentry) (hmapping.keyShape hentry)]

theorem duplicateKeyError_eq :
    duplicateKeyError lines (duplicateKeys lines mapping) =
      duplicateKeyError lines' (duplicateKeys lines' mapping) := by
  rw [duplicateKeys_eq hmapping hkeys hlines, duplicateKeyError, duplicateKeyError]
  congr 1
  refine List.map_congr_left fun key hkey => ?_
  obtain ⟨entry, hentry, rfl⟩ := List.mem_map.mp (List.mem_of_mem_filter hkey)
  rw [occurrences_eq hlines (hkeys entry hentry) (hmapping.keyShape hentry)]

theorem filterMap_changeOf_eq :
    mapping.filterMap (changeOf lines) = mapping.filterMap (changeOf lines') := by
  refine List.filterMap_congr fun entry hentry => ?_
  rw [changeOf, changeOf, findSome?_matchAssignment_eq hlines (hkeys entry hentry)
    (hmapping.keyShape hentry)]

end Edit

/-! ## Texts -/

/-- Joining lines before others: the others each follow a newline. -/
theorem intercalate_append {newline : List Char} (h : lines ≠ []) (others : List (List Char)) :
    newline.intercalate (lines ++ others) =
      newline.intercalate lines ++ (others.map (newline ++ ·)).flatten := by
  induction others using List.reverseRecOn with
  | nil => simp
  | append_singleton others last ih =>
      obtain ⟨init, final, hsplit⟩ := List.eq_nil_or_concat (lines ++ others) |>.resolve_left
        fun hnil => h (List.append_eq_nil_iff.mp hnil).1
      rw [← List.append_assoc, intercalate_concat, hsplit, List.concat_eq_append, List.map_append,
        List.map_append, List.flatten_append, List.flatten_append, ← List.append_assoc, ← ih,
        hsplit, List.concat_eq_append, intercalate_concat]
      simp

/-- A text is told by what it is taken apart into. -/
theorem text_of_readLines {text text' : String}
    (h : readLines (some text) = readLines (some text')) : text = text' := by
  have hempty {first second : String}
      (hsame : readLines (some first) = readLines (some second)) (hfirst : first = "") :
      second = "" := by
    by_contra hne
    refine (@readLines_sound_of_ne (some second) hne).1.lines ?_
    rw [← hsame, @readLines_of_empty (some first) hfirst]
  by_cases htext : text = ""
  · rw [htext, hempty h htext]
  · have htext' : text' ≠ "" := fun heq => htext (hempty h.symm heq)
    have hchars := (@readLines_sound_of_ne (some text) htext).2
    rw [h, (@readLines_sound_of_ne (some text') htext').2] at hchars
    exact (String.toList_inj.mp hchars).symm

/-- The edit of the loop tells two versions apart if they differ. -/
theorem Versions.eq_of_edited {text text' : String} {trailing : Bool} {appended : List (List Char)}
    (h : Versions keys text text') (hmapping : IsMapping mapping)
    (hkeys : ∀ entry ∈ mapping, entry.1 ∈ keys)
    (heq : DotenvLines.text ⟨(readLines (some text)).newline,
        (readLines (some text)).lines.map (edited mapping) ++ appended, trailing⟩ =
      DotenvLines.text ⟨(readLines (some text')).newline,
        (readLines (some text')).lines.map (edited mapping) ++ appended, trailing⟩) :
    text = text' := by
  obtain ⟨hnewline, htrailing, hlines⟩ := h
  have hwhole := (isLines_readLines (some text)).whole
  have hwhole' := (isLines_readLines (some text')).whole
  have hkind := (isLines_readLines (some text)).newline
  suffices hsame : (readLines (some text)).lines = (readLines (some text')).lines by
    apply text_of_readLines
    revert hnewline htrailing hsame
    generalize readLines (some text) = file
    generalize readLines (some text') = file'
    rintro hnewline htrailing hsame
    cases file
    cases file'
    exact DotenvLines.mk.injEq .. ▸ ⟨hnewline, hsame, htrailing⟩
  rw [← hnewline] at heq hwhole'
  revert heq hwhole hwhole'
  generalize (readLines (some text)).newline = newline at hkind
  generalize (readLines (some text)).lines = lines at hlines
  generalize (readLines (some text')).lines = lines' at hlines
  intro heq hwhole hwhole'
  cases lines with
  | nil => exact (List.forall₂_nil_left_iff.mp hlines).symm
  | cons first rest =>
      have hne : (first :: rest).map (edited mapping) ≠ [] := by simp
      have hne' : lines'.map (edited mapping) ≠ [] := by
        rintro hnil
        rw [List.map_eq_nil_iff.mp hnil] at hlines
        cases hlines
      have hjoined := List.append_cancel_right (String.ofList_injective heq)
      rw [intercalate_append hne, intercalate_append hne'] at hjoined
      have hbodies := congrArg (splitLines newline) (List.append_cancel_right hjoined)
      have hedited {others : List (List Char)} (hothers : ∀ line ∈ others, Whole newline line) :
          ∀ line ∈ others.map (edited mapping), Whole newline line := by
        intro line hline
        obtain ⟨original, horiginal, rfl⟩ := List.mem_map.mp hline
        exact whole_edited hmapping hkind (hothers original horiginal)
      rw [splitLines_intercalate hkind (hedited hwhole) hne,
        splitLines_intercalate hkind (hedited hwhole') hne'] at hbodies
      -- Line by line, the edits are the same only where the lines are.
      generalize first :: rest = lines at hlines hbodies
      clear hne hne' hjoined hwhole hwhole' heq
      induction hlines with
      | nil => rfl
      | cons hline _ ih =>
          obtain ⟨hfirst, hothers⟩ := List.cons.inj hbodies
          rw [(hline.edited_eq_iff hmapping hkeys).mp hfirst, ih hothers]

/-- Two versions are both refused for the same keys, or are both edited with the same changes,
and to texts that differ if they do. -/
theorem computeDotenvUpdate_versions {text text' : String} (h : Versions keys text text')
    (hmapping : IsMapping mapping) (hkeys : ∀ entry ∈ mapping, entry.1 ∈ keys) :
    (∃ error, computeDotenvUpdate (some text) mapping = .error error ∧
        computeDotenvUpdate (some text') mapping = .error error) ∨
      ∃ new new' changes, computeDotenvUpdate (some text) mapping = .ok (new, changes) ∧
        computeDotenvUpdate (some text') mapping = .ok (new', changes) ∧
        (new = new' → text = text') := by
  have hduplicates := duplicateKeys_eq hmapping hkeys h.lines
  by_cases hnone : duplicateKeys (readLines (some text)).lines mapping = []
  · have hsingle {original : String}
        (hnone : duplicateKeys (readLines (some original)).lines mapping = []) :
        ∀ entry ∈ mapping,
          (occurrences entry.1 (readLines (some original)).lines).length ≤ 1 := by
      intro entry hentry
      have hkey := List.filter_eq_nil_iff.mp hnone entry.1 (List.mem_map_of_mem hentry)
      simpa using hkey
    refine .inr ⟨_, DotenvLines.text ⟨(readLines (some text')).newline,
        (readLines (some text')).lines.map (edited mapping) ++
          appendedLines mapping (readLines (some text)).lines,
        appendedLines mapping (readLines (some text)).lines ≠ [] ||
          (readLines (some text)).trailing⟩, _,
      (computeDotenvUpdate_eq_ok_iff hmapping).mpr ⟨hsingle hnone, rfl⟩,
      (computeDotenvUpdate_eq_ok_iff hmapping).mpr ⟨hsingle (hduplicates ▸ hnone), ?_⟩, ?_⟩
    · rw [appendedLines_eq hmapping hkeys h.lines, filterMap_changeOf_eq hmapping hkeys h.lines,
        h.trailing]
    · exact h.eq_of_edited hmapping hkeys
  · refine .inl ⟨duplicateKeyError (readLines (some text)).lines
      (duplicateKeys (readLines (some text)).lines mapping), ?_, ?_⟩
    · unfold computeDotenvUpdate
      exact if_pos hnone
    · rw [duplicateKeyError_eq hmapping hkeys h.lines]
      unfold computeDotenvUpdate
      exact if_pos (hduplicates ▸ hnone)

/-- Two versions of a file are planned alike. -/
theorem dotenvContent_versions {text text' : String} {file : DotenvFileMapping}
    (ports : List (String × ℕ)) (h : Versions keys text text') (hnamed : file.Named)
    (hkeys : ∀ entry ∈ file.values, entry.1 ∈ keys) :
    (∃ failure, dotenvContent file ports (some text.toUTF8) = .error failure ∧
        dotenvContent file ports (some text'.toUTF8) = .error failure) ∨
      ∃ new new' changes, dotenvContent file ports (some text.toUTF8) = .ok (new, changes) ∧
        dotenvContent file ports (some text'.toUTF8) = .ok (new', changes) ∧
        (new = new' → text = text') := by
  have hdecode (original : String) :
      (some original.toUTF8).mapM decode = .ok (some original) := by
    change (do let text ← decode original.toUTF8; pure (some text)) = _
    rw [decode_toUTF8]
    rfl
  rw [dotenvContent, dotenvContent, hdecode, hdecode]
  cases hresolved : (file.values.mapM fun entry => do
    let port ← portOf ports entry.2
    pure (entry.1, toString port)) with
  | error failure => exact .inl ⟨failure, rfl, rfl⟩
  | ok resolved =>
      have hnames : resolved.map Prod.fst = file.values.map Prod.fst := by
        refine map_of_mapM hresolved fun entry found hfound => ?_
        obtain ⟨port, -, hfound⟩ := bind_eq_ok_iff.mp hfound
        cases hfound
        rfl
      have hmem : ∀ entry ∈ resolved, entry.1 ∈ keys := by
        intro entry hentry
        have hname : entry.1 ∈ file.values.map Prod.fst :=
          hnames ▸ List.mem_map_of_mem hentry
        obtain ⟨mapped, hmapped, heq⟩ := List.mem_map.mp hname
        exact heq ▸ hkeys mapped hmapped
      rcases computeDotenvUpdate_versions h (isMapping_of_named hnamed hresolved) hmem with
        ⟨error, hedit, hedit'⟩ | ⟨new, new', changes, hedit, hedit', hsame⟩
      · refine .inl ⟨editorRefused error, ?_, ?_⟩
        · change (computeDotenvUpdate (some text) resolved).mapError editorRefused = _
          rw [hedit]
          rfl
        · change (computeDotenvUpdate (some text') resolved).mapError editorRefused = _
          rw [hedit']
          rfl
      · refine .inr ⟨new, new', changes, ?_, ?_, hsame⟩
        · change (computeDotenvUpdate (some text) resolved).mapError editorRefused = _
          rw [hedit]
          rfl
        · change (computeDotenvUpdate (some text') resolved).mapError editorRefused = _
          rw [hedit']
          rfl

end Agent
