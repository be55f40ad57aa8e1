/-
# Editing a dotenv file twice

A second edit with the same mapping should change nothing, and an edit without changes should
leave the text alone. Both hold of the lines the editor writes. They fail where its text is not
read back as those lines, which takes a text that ends with a lone carriage return or a key with
a line feed, and where a line already has the value but not the form the editor writes it in.
-/

import PortForge.Agent.DotenvRewriting

namespace Agent

open Python

/-! ## The lines of a second run -/

section Lines

variable {mapping : List (String × String)} {lines : List (List Char)}
  {line before rest : List Char}
  {entry entry' : String × String} {key : String}

theorem assigns_iff (hkey : KeyShape key.toList) :
    assigns key line ↔ ∃ before rest, Matches key.toList line before rest := by
  rw [assigns, Option.isSome_iff_exists]
  constructor
  · rintro ⟨⟨before, rest⟩, hmatch⟩
    exact ⟨before, rest, matches_of_matchAssignment hmatch⟩
  · rintro ⟨before, rest, hmatches⟩
    exact ⟨_, matchAssignment_of_matches hmatches hkey⟩

theorem IsMapping.keyShape (hmapping : IsMapping mapping) (hentry : entry ∈ mapping) :
    KeyShape entry.1.toList := keyShape_of_isEnvKey (hmapping.names entry hentry)

/-- A line that the entry assigns, and what it is rewritten to. -/
theorem rewriteBy_of_assigns (h : assigns entry.1 line) :
    ∃ before rest, Matches entry.1.toList line before rest ∧
      matchAssignment entry.1.toList line = some (before, rest) ∧
      rewriteBy entry line = rewrittenLine before entry.1.toList entry.2.toList rest := by
  obtain ⟨⟨before, rest⟩, hmatch⟩ := Option.isSome_iff_exists.mp h
  exact ⟨before, rest, matches_of_matchAssignment hmatch, hmatch, by rw [rewriteBy, hmatch]⟩

/-- What the regular expression finds in a rewritten line. -/
theorem matchAssignment_rewrittenLine (hmapping : IsMapping mapping) (hentry : entry ∈ mapping)
    (hmatches : Matches entry.1.toList line before rest) :
    matchAssignment entry.1.toList (rewrittenLine before entry.1.toList entry.2.toList rest) =
      some (before, entry.2.toList ++ commentSuffix rest) :=
  matchAssignment_of_matches
    (matches_rewrittenLine hmatches.1 hmatches.2.1 (hmapping.values entry hentry))
    (hmapping.keyShape hentry)

/-- The value of a rewritten line is the entry's. -/
theorem oldValue_rewritten (hmapping : IsMapping mapping) (hentry : entry ∈ mapping)
    (rest : List Char) : oldValue (entry.2.toList ++ commentSuffix rest) = entry.2 := by
  rw [oldValue, (splitValueAndComment_written (hmapping.values entry hentry) rest).2,
    String.ofList_toList]

theorem appendedLine_eq (entry : String × String) :
    appendedLine entry = rewrittenLine [] entry.1.toList entry.2.toList [] := by
  simp [appendedLine, rewrittenLine, splitValueAndComment]

theorem commentSuffix_nil : commentSuffix [] = [] := rfl

/-- An appended line is what the editor would write over it. -/
theorem rewriteLine_appendedLine (hvalue : IsDecimal entry.2.toList) :
    rewrittenLine [] entry.1.toList entry.2.toList entry.2.toList = appendedLine entry := by
  have hagain := @rewrittenLine_again entry.1.toList [] [] entry.2.toList hvalue
  rw [commentSuffix_nil, List.append_nil] at hagain
  rw [hagain, appendedLine_eq]

theorem assignmentPrefix_nil : AssignmentPrefix [] := ⟨[], nofun, .inl rfl⟩

theorem matches_appendedLine (hmapping : IsMapping mapping) (hentry : entry ∈ mapping) :
    Matches entry.1.toList (appendedLine entry) [] entry.2.toList := by
  refine ⟨assignmentPrefix_nil, (hmapping.values entry hentry).noFeed, .inl ?_⟩
  simp [appendedLine]

/-- A line the editor has written for the entry: it assigns it, is rewritten to itself, and has
the entry's value. -/
structure Written (entry : String × String) (line : List Char) : Prop where
  assigned : assigns entry.1 line
  kept : rewriteBy entry line = line
  value : ∀ before rest, matchAssignment entry.1.toList line = some (before, rest) →
    oldValue rest = entry.2

theorem written_rewrittenLine (hmapping : IsMapping mapping) (hentry : entry ∈ mapping)
    (hmatches : Matches entry.1.toList line before rest) :
    Written entry (rewrittenLine before entry.1.toList entry.2.toList rest) := by
  have hmatch := matchAssignment_rewrittenLine hmapping hentry hmatches
  refine ⟨assigns_of_match hmatch, ?_, ?_⟩
  · rw [rewriteBy, hmatch]
    exact rewrittenLine_again (hmapping.values entry hentry)
  · intro before' rest' hmatch'
    rw [hmatch] at hmatch'
    cases hmatch'
    exact oldValue_rewritten hmapping hentry rest

theorem written_rewriteBy (hmapping : IsMapping mapping) (hentry : entry ∈ mapping)
    (h : assigns entry.1 line) : Written entry (rewriteBy entry line) := by
  obtain ⟨before, rest, hmatches, -, hrewrite⟩ := rewriteBy_of_assigns h
  rw [hrewrite]
  exact written_rewrittenLine hmapping hentry hmatches

theorem written_appendedLine (hmapping : IsMapping mapping) (hentry : entry ∈ mapping) :
    Written entry (appendedLine entry) := by
  have hmatch := matchAssignment_of_matches (matches_appendedLine hmapping hentry)
    (hmapping.keyShape hentry)
  have hdecimal := hmapping.values entry hentry
  have hrewritten := rewriteLine_appendedLine hdecimal
  have hvalue : oldValue entry.2.toList = entry.2 := by
    have hwritten := oldValue_rewritten hmapping hentry []
    rwa [commentSuffix_nil, List.append_nil] at hwritten
  refine ⟨assigns_of_match hmatch, ?_, ?_⟩
  · rw [rewriteBy, hmatch]
    exact hrewritten
  · intro before rest hmatch'
    rw [hmatch] at hmatch'
    cases hmatch'
    exact hvalue

/-- An entry of the mapping that assigns a written line is the one it was written for. -/
theorem Written.edited (hmapping : IsMapping mapping) (hentry : entry ∈ mapping)
    (h : Written entry line) : edited mapping line = line := by
  rw [edited_of_assigns hentry h.assigned fun other hother hassigns =>
    hmapping.unique hother hentry hassigns h.assigned]
  exact h.kept

/-- What the editor makes of a line assigns what the line did. -/
theorem edited_cases (hmapping : IsMapping mapping) (line : List Char) :
    (edited mapping line = line ∧ ∀ entry ∈ mapping, ¬ assigns entry.1 line) ∨
      ∃ entry ∈ mapping, assigns entry.1 line ∧ edited mapping line = rewriteBy entry line ∧
        Written entry (edited mapping line) := by
  by_cases hnone : ∀ entry ∈ mapping, ¬ assigns entry.1 line
  · exact .inl ⟨edited_of_not hnone, hnone⟩
  · push Not at hnone
    obtain ⟨entry, hentry, hassigns⟩ := hnone
    have hedited := edited_of_assigns hentry hassigns fun other hother h =>
      hmapping.unique hother hentry h hassigns
    refine .inr ⟨entry, hentry, hassigns, hedited, ?_⟩
    rw [hedited]
    exact written_rewriteBy hmapping hentry hassigns

theorem assigns_edited (hmapping : IsMapping mapping) (hentry : entry ∈ mapping) :
    assigns entry.1 (edited mapping line) = assigns entry.1 line := by
  rcases edited_cases hmapping line with ⟨hsame, -⟩ | ⟨other, hother, hassigns, -, hwritten⟩
  · rw [hsame]
  · by_cases heq : entry = other
    · rw [heq, hassigns, hwritten.assigned]
    · have hnot {line' : List Char} (h : assigns other.1 line') :
        assigns entry.1 line' = false := by
        rw [← Bool.not_eq_true]
        exact fun hentry' => heq (hmapping.unique hentry hother hentry' h)
      rw [hnot hassigns, hnot hwritten.assigned]

theorem edited_edited (hmapping : IsMapping mapping) (line : List Char) :
    edited mapping (edited mapping line) = edited mapping line := by
  rcases edited_cases hmapping line with ⟨hsame, -⟩ | ⟨entry, hentry, -, -, hwritten⟩
  · rw [hsame, hsame]
  · exact hwritten.edited hmapping hentry

/-- The lines after an edit. -/
def updatedLines (mapping : List (String × String)) (lines : List (List Char)) :
    List (List Char) :=
  lines.map (edited mapping) ++ appendedLines mapping lines

theorem mem_appendedLines_iff : line ∈ appendedLines mapping lines ↔
    ∃ entry ∈ mapping, lines.any (assigns entry.1) = false ∧ appendedLine entry = line := by
  simp [appendedLines, and_assoc]

/-- An appended line assigns its own entry only. -/
theorem assigns_appendedLine_iff (hmapping : IsMapping mapping) (hentry : entry ∈ mapping)
    (hentry' : entry' ∈ mapping) : assigns entry.1 (appendedLine entry') ↔ entry = entry' := by
  have hown := (written_appendedLine hmapping hentry').assigned
  constructor
  · exact fun h => hmapping.unique hentry hentry' h hown
  · rintro rfl
    exact hown

/-- A line that assigns an entry after an edit is written for it. -/
theorem written_of_assigns (hmapping : IsMapping mapping) (hentry : entry ∈ mapping)
    (hline : line ∈ updatedLines mapping lines) (h : assigns entry.1 line) :
    Written entry line := by
  rcases List.mem_append.mp hline with hmem | hmem
  · obtain ⟨original, -, rfl⟩ := List.mem_map.mp hmem
    rw [assigns_edited hmapping hentry] at h
    rcases edited_cases hmapping original with ⟨-, hnone⟩ | ⟨other, hother, hassigns, -, hwritten⟩
    · exact absurd h (hnone entry hentry)
    · rw [hmapping.unique hentry hother h hassigns]
      exact hwritten
  · obtain ⟨other, hother, -, rfl⟩ := mem_appendedLines_iff.mp hmem
    rw [(assigns_appendedLine_iff hmapping hentry hother).mp h]
    exact written_appendedLine hmapping hother

/-- After an edit, every entry is assigned. -/
theorem exists_assigns (hmapping : IsMapping mapping) (hentry : entry ∈ mapping) :
    ∃ line ∈ updatedLines mapping lines, assigns entry.1 line := by
  by_cases hany : lines.any (assigns entry.1) = true
  · obtain ⟨line, hline, hassigns⟩ := List.any_eq_true.mp hany
    refine ⟨edited mapping line, List.mem_append_left _ (List.mem_map_of_mem hline), ?_⟩
    rw [assigns_edited hmapping hentry, hassigns]
  · have hnone := Bool.eq_false_iff.mpr hany
    exact ⟨appendedLine entry,
      List.mem_append_right _ (mem_appendedLines_iff.mpr ⟨entry, hentry, hnone, rfl⟩),
      (written_appendedLine hmapping hentry).assigned⟩

theorem appendedLines_eq_nil_iff : appendedLines mapping lines = [] ↔
    ∀ entry ∈ mapping, ∃ line ∈ lines, assigns entry.1 line := by
  simp [appendedLines, List.filter_eq_nil_iff]

/-- A second edit appends nothing. -/
theorem appendedLines_updatedLines (hmapping : IsMapping mapping) :
    appendedLines mapping (updatedLines mapping lines) = [] :=
  appendedLines_eq_nil_iff.mpr fun _ hentry => exists_assigns hmapping hentry

/-- A second edit rewrites every line to itself. -/
theorem map_edited_updatedLines (hmapping : IsMapping mapping) :
    (updatedLines mapping lines).map (edited mapping) = updatedLines mapping lines := by
  unfold updatedLines
  rw [List.map_append, List.map_map]
  congr 1
  · exact List.map_congr_left fun line _ => edited_edited hmapping line
  · refine (List.map_congr_left fun line hline => ?_).trans (List.map_id _)
    obtain ⟨entry, hentry, -, rfl⟩ := mem_appendedLines_iff.mp hline
    exact (written_appendedLine hmapping hentry).edited hmapping hentry

/-- A second edit changes no value. -/
theorem changeOf_updatedLines (hmapping : IsMapping mapping) (hentry : entry ∈ mapping) :
    changeOf (updatedLines mapping lines) entry = none := by
  obtain ⟨line, hline, hassigns⟩ := @exists_assigns mapping lines entry hmapping hentry
  unfold changeOf
  cases hfind : (updatedLines mapping lines).findSome? (matchAssignment entry.1.toList) with
  | none =>
      rw [assigns, List.findSome?_eq_none_iff.mp hfind line hline] at hassigns
      cases hassigns
  | some found =>
      obtain ⟨before, rest⟩ := found
      obtain ⟨first, hfirst, hmatch⟩ := List.exists_of_findSome?_eq_some hfind
      have hwritten := written_of_assigns hmapping hentry hfirst (assigns_of_match hmatch)
      have hvalue := hwritten.value before rest hmatch
      simp [hvalue]

theorem length_occurrences (key : String) (lines : List (List Char)) :
    (occurrences key lines).length = lines.countP (assigns key) := by
  have hlines : lines = lines.zipIdx.map Prod.fst := by simp
  conv_rhs => rw [hlines, List.countP_map]
  rw [occurrences, List.length_map, ← List.countP_eq_length_filter]
  rfl

/-- A second edit finds each key once. -/
theorem occurrences_updatedLines (hmapping : IsMapping mapping) (hentry : entry ∈ mapping)
    (hsingle : (occurrences entry.1 lines).length ≤ 1) :
    (occurrences entry.1 (updatedLines mapping lines)).length ≤ 1 := by
  rw [length_occurrences] at hsingle ⊢
  have hedited : (lines.map (edited mapping)).countP (assigns entry.1) =
      lines.countP (assigns entry.1) := by
    rw [List.countP_map]
    apply List.countP_congr
    intro line _
    rw [Function.comp_apply, assigns_edited hmapping hentry]
  rw [updatedLines, List.countP_append, hedited]
  by_cases hany : lines.any (assigns entry.1) = true
  · have hnone : (appendedLines mapping lines).countP (assigns entry.1) = 0 := by
      rw [List.countP_eq_zero]
      intro line hline hassigns
      obtain ⟨other, hother, hunassigned, rfl⟩ := mem_appendedLines_iff.mp hline
      obtain rfl := (assigns_appendedLine_iff hmapping hentry hother).mp hassigns
      rw [hany] at hunassigned
      cases hunassigned
    omega
  · have hzero : lines.countP (assigns entry.1) = 0 := by
      rw [List.countP_eq_zero]
      exact fun line hline hassigns => hany (List.any_eq_true.mpr ⟨line, hline, hassigns⟩)
    have hnodup : (mapping.filter fun other => ¬ lines.any (assigns other.1)).Nodup :=
      (List.Nodup.of_map _ hmapping.keys).filter _
    have hcount : (appendedLines mapping lines).countP (assigns entry.1) =
        (mapping.filter fun other => ¬ lines.any (assigns other.1)).count entry := by
      rw [appendedLines, List.countP_map]
      apply List.countP_congr
      intro other hother
      have hmem := List.mem_of_mem_filter hother
      rw [Function.comp_apply, assigns_appendedLine_iff hmapping hentry hmem, beq_iff_eq]
      exact eq_comm
    have hone := List.nodup_iff_count_le_one.mp hnodup entry
    omega

/-- Where a text is read as the lines an edit has made, a second edit gives the same text and
no change. -/
theorem rerun_of_readLines {text : String} {newline : List Char} {trailing : Bool}
    (hmapping : IsMapping mapping)
    (hsingle : ∀ entry ∈ mapping, (occurrences entry.1 lines).length ≤ 1)
    (hread : readLines (some text) = ⟨newline, updatedLines mapping lines, trailing⟩)
    (htext : DotenvLines.text ⟨newline, updatedLines mapping lines, trailing⟩ = text) :
    computeDotenvUpdate (some text) mapping = .ok (text, []) := by
  rw [computeDotenvUpdate_eq_ok_iff hmapping, hread]
  dsimp only
  refine ⟨fun entry hentry => occurrences_updatedLines hmapping hentry (hsingle entry hentry), ?_⟩
  have hchanges : mapping.filterMap (changeOf (updatedLines mapping lines)) = [] :=
    List.filterMap_eq_nil_iff.mpr fun entry hentry => changeOf_updatedLines hmapping hentry
  rw [map_edited_updatedLines hmapping, appendedLines_updatedLines hmapping, hchanges,
    List.append_nil]
  simp [htext]

end Lines

/-! ## Carriage returns -/

section Returns

variable {line rest before key value last : List Char} {lines : List (List Char)}

theorem hasCrlf_cons {c : Char} : hasCrlf (c :: rest) = true ↔
    (c = '\r' ∧ rest.head? = some '\n') ∨ hasCrlf rest = true := by
  by_cases hcrlf : c = '\r' ∧ rest.head? = some '\n'
  · obtain ⟨rfl, hfeed⟩ := hcrlf
    cases rest with
    | nil => cases hfeed
    | cons d rest =>
        cases hfeed
        exact iff_of_true rfl (.inl ⟨rfl, rfl⟩)
  · rw [hasCrlf, or_iff_right hcrlf]
    rintro after rfl rfl
    exact hcrlf ⟨rfl, rfl⟩

/-- A line feed makes a CRLF of a carriage return in front of it. -/
theorem hasCrlf_feed : hasCrlf (line ++ '\n' :: rest) = true ↔
    (hasCrlf line = true ∨ line.getLast? = some '\r') ∨ hasCrlf rest = true := by
  induction line with
  | nil => simp [hasCrlf]
  | cons c line ih =>
      rw [List.cons_append, hasCrlf_cons, ih, hasCrlf_cons]
      cases line with
      | nil => simp [hasCrlf]
      | cons d line => simp only [List.cons_append, List.head?_cons, List.getLast?_cons_cons, or_assoc]

theorem hasCrlf_flatten : hasCrlf ((lines.map (· ++ ['\n'])).flatten ++ last) = true ↔
    (∃ line ∈ lines, hasCrlf line = true ∨ line.getLast? = some '\r') ∨ hasCrlf last = true := by
  induction lines with
  | nil => simp
  | cons line lines ih =>
      have hcons : ((line :: lines).map (· ++ ['\n'])).flatten ++ last =
          line ++ '\n' :: ((lines.map (· ++ ['\n'])).flatten ++ last) := by simp
      rw [hcons, hasCrlf_feed, ih]
      simp only [List.mem_cons, exists_eq_or_imp, or_assoc]

theorem hasCrlf_of_noFeed (h : '\n' ∉ line) : hasCrlf line = false := by
  rw [← Bool.not_eq_true, hasCrlf_iff]
  rintro ⟨before, after, rfl⟩
  exact h (by simp)

theorem hasCrlf_of_noReturn (h : '\r' ∉ line) : hasCrlf line = false := by
  rw [← Bool.not_eq_true, hasCrlf_iff]
  rintro ⟨before, after, rfl⟩
  exact h (by simp)

/-- A CRLF stands in front of what has no line feed. -/
theorem hasCrlf_append_noFeed (h : '\n' ∉ rest) : hasCrlf (line ++ rest) = true ↔
    hasCrlf line = true := by
  induction line with
  | nil =>
      rw [List.nil_append, hasCrlf_of_noFeed h]
      rfl
  | cons c line ih =>
      rw [List.cons_append, hasCrlf_cons, hasCrlf_cons, ih]
      cases line with
      | nil =>
          have hhead : rest.head? ≠ some '\n' := fun hfeed => h (List.mem_of_head? hfeed)
          simp [hhead]
      | cons d line => rfl

/-- The lines of a file that a newline follows, and what stands behind them. -/
def DotenvLines.closed (file : DotenvLines) : List (List Char) :=
  if file.trailing then file.lines else file.lines.dropLast

def DotenvLines.tail (file : DotenvLines) : List Char :=
  if file.trailing then [] else file.lines.getLastD []

theorem DotenvLines.chars_eq {file : DotenvLines} (h : file.lines ≠ []) :
    file.chars = (file.closed.map (· ++ file.newline)).flatten ++ file.tail := by
  obtain ⟨newline, lines, trailing⟩ := file
  obtain ⟨init, last, rfl⟩ := List.eq_nil_or_concat lines |>.resolve_left h
  rw [List.concat_eq_append]
  cases trailing <;> simp [DotenvLines.chars, DotenvLines.closed, DotenvLines.tail,
    intercalate_concat]

end Returns

/-! ## What is read back -/

section ReadBack

variable {mapping : List (String × String)} {file : DotenvLines} {newline line : List Char}
  {entry : String × String}

/-- The editor keeps a carriage return at the line's end: it does not rewrite the line, or does
with its comment. -/
def KeepsReturn (mapping : List (String × String)) (line : List Char) : Prop :=
  line.getLast? = some '\r' ∧ ∀ entry ∈ mapping, ∀ before rest,
    matchAssignment entry.1.toList line = some (before, rest) →
      (splitValueAndComment false false rest).2 ≠ []

theorem getLast?_value {value : List Char} (hvalue : IsDecimal value) :
    value.getLast? ≠ some '\r' := by
  intro hlast
  have hspace := (hvalue.plain _ (List.mem_of_getLast? hlast)).1
  exact absurd hspace (by decide)

theorem getLast?_edited_iff (hmapping : IsMapping mapping) (hline : '\n' ∉ line) :
    (edited mapping line).getLast? = some '\r' ↔ KeepsReturn mapping line := by
  rcases edited_cases hmapping line with ⟨hsame, hnone⟩ | ⟨entry, hentry, hassigns, hedited, -⟩
  · rw [hsame, KeepsReturn, iff_self_and]
    intro _ entry hentry before rest hmatch
    exact absurd (assigns_of_match hmatch) (hnone entry hentry)
  · obtain ⟨before, rest, hmatches, hmatch, hrewrite⟩ := rewriteBy_of_assigns hassigns
    have hvalue := hmapping.values entry hentry
    have hkeeps : KeepsReturn mapping line ↔ line.getLast? = some '\r' ∧
        (splitValueAndComment false false rest).2 ≠ [] := by
      constructor
      · exact fun h => ⟨h.1, h.2 entry hentry before rest hmatch⟩
      · refine fun h => ⟨h.1, fun other hother before' rest' hmatch' => ?_⟩
        obtain rfl := hmapping.unique hother hentry (assigns_of_match hmatch') hassigns
        rw [hmatch] at hmatch'
        cases hmatch'
        exact h.2
    have hwhole : line = before ++ entry.1.toList ++ '=' :: rest := by
      rcases hmatches.2.2 with heq | heq
      · exact heq
      · exact absurd (by simp [heq]) hline
    rw [hedited, hrewrite, rewrittenLine_eq, hkeeps]
    obtain ⟨hsplit, -⟩ := splitValueAndComment_spec false false rest
    by_cases hcomment : (splitValueAndComment false false rest).2 = []
    · rw [commentSuffix, if_pos hcomment, List.append_nil]
      refine iff_of_false ?_ fun h => h.2 hcomment
      rw [List.getLast?_append_of_ne_nil _ (by simp), List.getLast?_cons_of_ne_nil hvalue.1]
      exact getLast?_value hvalue
    · rw [and_iff_left hcomment, commentSuffix, if_neg hcomment]
      generalize hparts : splitValueAndComment false false rest = parts at hsplit hcomment
      have hlast (front : List Char) : (front ++ parts.2).getLast? = parts.2.getLast? :=
        List.getLast?_append_of_ne_nil _ hcomment
      have hold : line = before ++ entry.1.toList ++ '=' :: parts.1 ++ parts.2 := by
        rw [hwhole, ← hsplit]
        simp
      have hnew : before ++ entry.1.toList ++ '=' :: (entry.2.toList ++ ([' ', ' '] ++ parts.2)) =
          before ++ entry.1.toList ++ '=' :: (entry.2.toList ++ [' ', ' ']) ++ parts.2 := by simp
      rw [hnew, hlast, hold, hlast]

/-- An edited line is whole where the line was. -/
theorem whole_edited (hmapping : IsMapping mapping) (hnewline : IsNewline newline)
    (h : Whole newline line) : Whole newline (edited mapping line) := by
  rcases edited_cases hmapping line with ⟨hsame, -⟩ | ⟨entry, hentry, hassigns, hedited, -⟩
  · rw [hsame]
    exact h
  · obtain ⟨before, rest, hmatches, -, hrewrite⟩ := rewriteBy_of_assigns hassigns
    have hwritten : '\n' ∉ entry.2.toList ++ commentSuffix rest := by
      rw [List.mem_append, not_or]
      exact ⟨(hmapping.values entry hentry).noFeed, commentSuffix_noFeed hmatches.2.1⟩
    obtain ⟨tail, hline⟩ : ∃ tail, line = (before ++ entry.1.toList ++ ['=']) ++ tail := by
      rcases hmatches.2.2 with heq | heq
      · exact ⟨rest, by simp [heq]⟩
      · exact ⟨rest ++ ['\n'], by simp [heq]⟩
    have hresult : edited mapping line = (before ++ entry.1.toList ++ ['=']) ++
        (entry.2.toList ++ commentSuffix rest) := by
      rw [hedited, hrewrite, rewrittenLine_eq]
      simp
    rw [hresult]
    rw [hline] at h
    rcases hnewline with rfl | rfl
    · have hfront : '\n' ∉ before ++ entry.1.toList ++ ['='] := fun hmem =>
        h (List.mem_append_left _ hmem)
      change '\n' ∉ _
      rw [List.mem_append, not_or]
      exact ⟨hfront, hwritten⟩
    · change hasCrlf _ = false
      rw [← Bool.not_eq_true, hasCrlf_append_noFeed hwritten, hasCrlf_iff]
      rintro ⟨first, second, hcrlf⟩
      have hnone : hasCrlf ((before ++ entry.1.toList ++ ['=']) ++ tail) = false := h
      rw [← Bool.not_eq_true, hasCrlf_iff] at hnone
      exact hnone ⟨first, second ++ tail, by rw [hcrlf]; simp⟩

theorem appendedLine_noReturn (hmapping : IsMapping mapping) (hentry : entry ∈ mapping) :
    '\r' ∉ appendedLine entry := by
  have hvalue : '\r' ∉ entry.2.toList := fun hmem =>
    absurd ((hmapping.values entry hentry).plain _ hmem).1 (by decide)
  simp [appendedLine, (hmapping.keyShape hentry).noReturn, hvalue]

theorem whole_appendedLine (hmapping : IsMapping mapping) (hentry : entry ∈ mapping)
    (hnewline : IsNewline newline) (hkey : newline = ['\n'] → '\n' ∉ entry.1.toList) :
    Whole newline (appendedLine entry) := by
  rcases hnewline with rfl | rfl
  · change '\n' ∉ _
    simp [appendedLine, hkey rfl, (hmapping.values entry hentry).noFeed]
  · exact hasCrlf_of_noReturn (appendedLine_noReturn hmapping hentry)

/-- Lines as a text is taken apart into; an empty text has none. -/
structure IsLines (file : DotenvLines) : Prop where
  newline : IsNewline file.newline
  whole : ∀ line ∈ file.lines, Whole file.newline line
  last : file.trailing = false → file.lines.getLast? ≠ some []

theorem DotenvLines.Sound.isLines (h : file.Sound) : IsLines file := ⟨h.newline, h.whole, h.last⟩

theorem IsLines.noFeed (h : IsLines file) (hnewline : file.newline = ['\n'])
    (hline : line ∈ file.lines) : '\n' ∉ line := by
  have hwhole := h.whole line hline
  rwa [Whole, if_pos hnewline] at hwhole

theorem readLines_of_empty {text : Option String} (h : text.getD "" = "") :
    readLines text = ⟨['\n'], [], true⟩ := by
  rw [readLines, h]
  rfl

theorem readLines_getD (text : Option String) :
    readLines text = readLines (some (String.ofList (text.getD "").toList)) := by
  rw [String.ofList_toList]
  rfl

/-- A text that is not empty is taken apart into lines that are its text. -/
theorem readLines_sound_of_ne {text : Option String} (h : text.getD "" ≠ "") :
    (readLines text).Sound ∧ (readLines text).chars = (text.getD "").toList := by
  have hne : (text.getD "").toList ≠ [] := by simpa using h
  rw [readLines_getD]
  exact readLines_sound hne

theorem isLines_readLines (text : Option String) : IsLines (readLines text) := by
  by_cases h : text.getD "" = ""
  · rw [readLines_of_empty h]
    exact ⟨.inl rfl, nofun, nofun⟩
  · exact (readLines_sound_of_ne h).1.isLines

theorem newline_readLines {text : Option String} (h : text.getD "" ≠ "") :
    (readLines text).newline = detectNewline (readLines text).chars := by
  have hne : (text.getD "").toList ≠ [] := by simpa using h
  rw [(readLines_sound_of_ne h).2, readLines_getD, readLines_ofList hne]

/-- A text whose newline is a CRLF has one. -/
theorem hasCrlf_of_newline {text : Option String} (h : (readLines text).newline = ['\r', '\n']) :
    text.getD "" ≠ "" ∧ hasCrlf (readLines text).chars = true := by
  have hempty : text.getD "" ≠ "" := by
    intro hempty
    rw [readLines_of_empty hempty] at h
    cases h
  refine ⟨hempty, ?_⟩
  by_contra hnone
  have hdetect := newline_readLines hempty
  rw [h, detectNewline, if_neg hnone] at hdetect
  cases hdetect

/-- The file after an edit. -/
def updatedFile (mapping : List (String × String)) (file : DotenvLines) : DotenvLines :=
  ⟨file.newline, updatedLines mapping file.lines,
    appendedLines mapping file.lines ≠ [] || file.trailing⟩

/-- An edit makes a file that a text can be taken apart into. -/
theorem sound_updatedFile (hmapping : IsMapping mapping) (hfile : IsLines file)
    (hkeys : file.newline = ['\n'] → ∀ entry ∈ mapping, '\n' ∉ entry.1.toList)
    (hlines : updatedLines mapping file.lines ≠ []) : (updatedFile mapping file).Sound := by
  refine ⟨hfile.newline, hlines, ?_, ?_⟩
  · intro line hline
    rcases List.mem_append.mp hline with hmem | hmem
    · obtain ⟨original, horiginal, rfl⟩ := List.mem_map.mp hmem
      exact whole_edited hmapping hfile.newline (hfile.whole original horiginal)
    · obtain ⟨entry, hentry, -, rfl⟩ := mem_appendedLines_iff.mp hmem
      exact whole_appendedLine hmapping hentry hfile.newline fun heq => hkeys heq entry hentry
  · intro htrailing hlast
    obtain ⟨happended, htrailing⟩ := Bool.or_eq_false_iff.mp htrailing
    have hnil : appendedLines mapping file.lines = [] := by simpa using happended
    simp only [updatedFile, updatedLines, hnil, List.append_nil, List.getLast?_map,
      Option.map_eq_some_iff] at hlast
    obtain ⟨line, hline, hempty⟩ := hlast
    have hnotEmpty : line ≠ [] := by
      rintro rfl
      exact hfile.last htrailing hline
    rcases edited_cases hmapping line with ⟨hsame, -⟩ | ⟨entry, -, -, -, hwritten⟩
    · exact hnotEmpty (hsame ▸ hempty)
    · rw [hempty] at hwritten
      obtain ⟨⟨before, rest⟩, hmatch⟩ := Option.isSome_iff_exists.mp hwritten.assigned
      rcases (matches_of_matchAssignment hmatch).2.2 with heq | heq <;> simp at heq

/-- A key that a line without line feeds assigns has none. -/
theorem noFeed_of_assigns (hline : '\n' ∉ line) (h : assigns entry.1 line) :
    '\n' ∉ entry.1.toList := by
  intro hmem
  obtain ⟨before, rest, hmatches, -, -⟩ := rewriteBy_of_assigns h
  rcases hmatches.2.2 with heq | heq
  · exact hline (by simp [heq, hmem])
  · exact hline (by simp [heq])

/-- What stands behind the last newline is a line, or nothing. -/
theorem DotenvLines.tail_cases (file : DotenvLines) :
    file.tail = [] ∨ file.tail ∈ file.lines := by
  rw [DotenvLines.tail]
  split_ifs
  · exact .inl rfl
  · rcases List.eq_nil_or_concat file.lines with hnil | ⟨init, last, hlast⟩
    · rw [hnil]
      exact .inl rfl
    · rw [hlast, List.concat_eq_append, List.getLastD_concat]
      exact .inr (by simp)

theorem DotenvLines.mem_of_closed (h : line ∈ file.closed) : line ∈ file.lines := by
  rw [DotenvLines.closed] at h
  split_ifs at h
  · exact h
  · exact List.dropLast_subset _ h

/-- A file with CRLFs has one in its text where a newline follows a line. -/
theorem hasCrlf_chars_iff (hfile : IsLines file) (hnewline : file.newline = ['\r', '\n'])
    (hlines : file.lines ≠ []) : hasCrlf file.chars = true ↔ file.closed ≠ [] := by
  rw [DotenvLines.chars_eq hlines, hnewline]
  cases hclosed : file.closed with
  | nil =>
      refine iff_of_false ?_ fun h => h rfl
      rw [List.map_nil, List.flatten_nil, List.nil_append, Bool.not_eq_true]
      rcases file.tail_cases with hnil | hmem
      · rw [hnil]
        rfl
      · have hwhole := hfile.whole _ hmem
        rwa [Whole, hnewline, if_neg (by decide)] at hwhole
  | cons line others =>
      refine iff_of_true (hasCrlf_iff.mpr
        ⟨line, (others.map (· ++ ['\r', '\n'])).flatten ++ file.tail, ?_⟩) nofun
      simp

/-- A file with line feeds has a CRLF in its text where a line feed follows a carriage return. -/
theorem hasCrlf_chars_feed_iff (hfile : IsLines file) (hnewline : file.newline = ['\n'])
    (hlines : file.lines ≠ []) : hasCrlf file.chars = true ↔
      ∃ line ∈ file.closed, line.getLast? = some '\r' := by
  have htail : hasCrlf file.tail = false := by
    rcases file.tail_cases with hnil | hmem
    · rw [hnil]
      rfl
    · exact hasCrlf_of_noFeed (hfile.noFeed hnewline hmem)
  rw [DotenvLines.chars_eq hlines, hnewline, hasCrlf_flatten, htail]
  simp only [Bool.false_eq_true, or_false]
  constructor
  · rintro ⟨line, hline, hcrlf | hreturn⟩
    · rw [hasCrlf_of_noFeed (hfile.noFeed hnewline (DotenvLines.mem_of_closed hline))] at hcrlf
      cases hcrlf
    · exact ⟨line, hline, hreturn⟩
  · rintro ⟨line, hline, hreturn⟩
    exact ⟨line, hline, .inr hreturn⟩

/-- In a text with line feeds, no line in front of one ends with a carriage return. -/
theorem noReturn_of_closed {text : Option String} (hnewline : (readLines text).newline = ['\n']) :
    ∀ line ∈ (readLines text).closed, line.getLast? ≠ some '\r' := by
  intro line hline hreturn
  by_cases hempty : text.getD "" = ""
  · rw [readLines_of_empty hempty] at hline
    cases hline
  · obtain ⟨hsound, -⟩ := readLines_sound_of_ne hempty
    have hcrlf := (hasCrlf_chars_feed_iff hsound.isLines hnewline hsound.lines).mpr
      ⟨line, hline, hreturn⟩
    have hdetect := newline_readLines hempty
    rw [hnewline, detectNewline, if_pos hcrlf] at hdetect
    cases hdetect

theorem closed_updatedFile_of_nil (h : appendedLines mapping file.lines = []) :
    (updatedFile mapping file).closed = file.closed.map (edited mapping) := by
  have hlines : updatedLines mapping file.lines = file.lines.map (edited mapping) := by
    rw [updatedLines, h, List.append_nil]
  rw [DotenvLines.closed, DotenvLines.closed, updatedFile, hlines, h]
  cases file.trailing <;> simp [List.map_dropLast]

theorem closed_updatedFile_of_ne_nil (h : appendedLines mapping file.lines ≠ []) :
    (updatedFile mapping file).closed = updatedLines mapping file.lines := by
  rw [DotenvLines.closed, updatedFile]
  simp [h]

/-- A line of the new file ends with a carriage return where the editor has kept it. -/
theorem keepsReturn_of_updatedLines (hmapping : IsMapping mapping) (hfile : IsLines file)
    (hnewline : file.newline = ['\n']) (hline : line ∈ updatedLines mapping file.lines)
    (hreturn : line.getLast? = some '\r') :
    ∃ original ∈ file.lines, edited mapping original = line ∧ KeepsReturn mapping original := by
  rcases List.mem_append.mp hline with hmem | hmem
  · obtain ⟨original, horiginal, rfl⟩ := List.mem_map.mp hmem
    have hnoFeed := hfile.noFeed hnewline horiginal
    exact ⟨original, horiginal, rfl, (getLast?_edited_iff hmapping hnoFeed).mp hreturn⟩
  · obtain ⟨entry, hentry, -, rfl⟩ := mem_appendedLines_iff.mp hmem
    exact absurd (List.mem_of_getLast? hreturn) (appendedLine_noReturn hmapping hentry)

end ReadBack

/-! ## Steady texts -/

/-- Every key has its value in the lines. -/
def HasValues (mapping : List (String × String)) (lines : List (List Char)) : Prop :=
  ∀ entry ∈ mapping, ∃ line ∈ lines, ∃ before rest,
    matchAssignment entry.1.toList line = some (before, rest) ∧ oldValue rest = entry.2

/-- Every line that assigns a key has the form in which the editor writes it: the value without
quotes and blanks, two spaces in front of a comment, and no line feed. -/
def Formatted (mapping : List (String × String)) (lines : List (List Char)) : Prop :=
  ∀ entry ∈ mapping, ∀ line ∈ lines, ∀ before rest,
    matchAssignment entry.1.toList line = some (before, rest) →
      line = before ++ entry.1.toList ++ '=' :: (entry.2.toList ++ commentSuffix rest)

/-- A text that an edit takes to one that a second edit keeps, and keeps itself where it has all
the values. -/
structure Steady (text : Option String) (mapping : List (String × String)) : Prop where
  feeds : (readLines text).newline = ['\n'] → ∀ entry ∈ mapping, '\n' ∉ entry.1.toList
  returns : (readLines text).newline = ['\n'] →
    (∃ entry ∈ mapping, (readLines text).lines.any (assigns entry.1) = false) →
      ∀ line ∈ (readLines text).lines, ¬ KeepsReturn mapping line
  formatted : HasValues mapping (readLines text).lines → Formatted mapping (readLines text).lines
  nonempty : text.getD "" = "" → mapping ≠ []

section Steady

variable {mapping : List (String × String)} {text : Option String}
  {lines : List (List Char)}

theorem appendedLines_ne_nil_iff : appendedLines mapping lines ≠ [] ↔
    ∃ entry ∈ mapping, lines.any (assigns entry.1) = false := by
  simp [appendedLines, List.filter_eq_nil_iff]

/-- The new text has the newline of the old. -/
theorem detectNewline_updatedFile (hmapping : IsMapping mapping) (hsteady : Steady text mapping)
    (hlines : updatedLines mapping (readLines text).lines ≠ [])
    (hsound : (updatedFile mapping (readLines text)).Sound) :
    detectNewline (updatedFile mapping (readLines text)).chars = (readLines text).newline := by
  have hfile := isLines_readLines text
  rcases hfile.newline with hnewline | hnewline
  · have hnone : hasCrlf (updatedFile mapping (readLines text)).chars = false := by
      rw [← Bool.not_eq_true, hasCrlf_chars_feed_iff hsound.isLines hnewline hlines]
      rintro ⟨line, hline, hreturn⟩
      by_cases happended : appendedLines mapping (readLines text).lines = []
      · rw [closed_updatedFile_of_nil happended] at hline
        obtain ⟨original, horiginal, rfl⟩ := List.mem_map.mp hline
        have hnoFeed := hfile.noFeed hnewline (DotenvLines.mem_of_closed horiginal)
        exact noReturn_of_closed hnewline original horiginal
          ((getLast?_edited_iff hmapping hnoFeed).mp hreturn).1
      · rw [closed_updatedFile_of_ne_nil happended] at hline
        obtain ⟨original, horiginal, -, hkeeps⟩ :=
          keepsReturn_of_updatedLines hmapping hfile hnewline hline hreturn
        exact hsteady.returns hnewline (appendedLines_ne_nil_iff.mp happended) original horiginal
          hkeeps
    rw [detectNewline, hnone, hnewline]
    rfl
  · obtain ⟨hempty, hcrlf⟩ := hasCrlf_of_newline hnewline
    obtain ⟨htext, -⟩ := readLines_sound_of_ne hempty
    have hclosed := (hasCrlf_chars_iff hfile hnewline htext.lines).mp hcrlf
    have hnew : hasCrlf (updatedFile mapping (readLines text)).chars = true := by
      rw [hasCrlf_chars_iff hsound.isLines hnewline hlines]
      by_cases happended : appendedLines mapping (readLines text).lines = []
      · rw [closed_updatedFile_of_nil happended]
        simpa using hclosed
      · rw [closed_updatedFile_of_ne_nil happended]
        exact hlines
    rw [detectNewline, if_pos hnew, hnewline]

/-- A second edit of a steady text changes nothing. -/
theorem rerun_of_steady (hmapping : IsMapping mapping) (hsteady : Steady text mapping)
    (hsingle : ∀ entry ∈ mapping, (occurrences entry.1 (readLines text).lines).length ≤ 1) :
    computeDotenvUpdate (some (updatedFile mapping (readLines text)).text) mapping =
      .ok ((updatedFile mapping (readLines text)).text, []) := by
  have hlines : updatedLines mapping (readLines text).lines ≠ [] := by
    intro hnil
    obtain ⟨hmap, happended⟩ := List.append_eq_nil_iff.mp hnil
    by_cases hempty : text.getD "" = ""
    · obtain ⟨entry, others, hmappingEq⟩ := List.exists_cons_of_ne_nil (hsteady.nonempty hempty)
      have hall := appendedLines_eq_nil_iff.mp happended entry (by simp [hmappingEq])
      rw [readLines_of_empty hempty] at hall
      obtain ⟨line, hline, -⟩ := hall
      cases hline
    · exact (readLines_sound_of_ne hempty).1.lines (List.map_eq_nil_iff.mp hmap)
  have hsound := sound_updatedFile hmapping (isLines_readLines text) hsteady.feeds hlines
  have hread := readLines_chars hsound (detectNewline_updatedFile hmapping hsteady hlines hsound)
  rw [← DotenvLines.text_eq] at hread
  exact rerun_of_readLines hmapping hsingle hread rfl

theorem exists_of_changeOf {entry : String × String} (h : changeOf lines entry = none) :
    ∃ line ∈ lines, ∃ before rest,
      matchAssignment entry.1.toList line = some (before, rest) ∧ oldValue rest = entry.2 := by
  unfold changeOf at h
  cases hfind : lines.findSome? (matchAssignment entry.1.toList) with
  | none =>
      rw [hfind] at h
      cases h
  | some found =>
      obtain ⟨before, rest⟩ := found
      obtain ⟨line, hline, hmatch⟩ := List.exists_of_findSome?_eq_some hfind
      rw [hfind] at h
      dsimp only at h
      split_ifs at h with hvalue
      exact ⟨line, hline, before, rest, hmatch, not_not.mp hvalue⟩

/-- What a second edit without changes says of the lines it reads. -/
theorem rerun_inv {new : String} (hmapping : IsMapping mapping)
    (h : computeDotenvUpdate (some new) mapping = .ok (new, [])) :
    (∀ entry ∈ mapping, ∃ line ∈ (readLines (some new)).lines, assigns entry.1 line) ∧
      new = DotenvLines.text ⟨(readLines (some new)).newline,
        (readLines (some new)).lines.map (edited mapping), (readLines (some new)).trailing⟩ := by
  obtain ⟨-, hresult⟩ := (computeDotenvUpdate_eq_ok_iff hmapping).mp h
  obtain ⟨htext, hchanges⟩ := Prod.mk.inj hresult
  have hassigned : ∀ entry ∈ mapping, ∃ line ∈ (readLines (some new)).lines,
      assigns entry.1 line := by
    intro entry hentry
    obtain ⟨line, hline, before, rest, hmatch, -⟩ :=
      exists_of_changeOf (List.filterMap_eq_nil_iff.mp hchanges.symm entry hentry)
    exact ⟨line, hline, assigns_of_match hmatch⟩
  refine ⟨hassigned, ?_⟩
  rw [appendedLines_eq_nil_iff.mpr hassigned, List.append_nil] at htext
  simpa using htext

/-- A line the editor has rewritten does not end with a line feed. -/
theorem noFeed_of_edited {entry : String × String} {line : List Char} (hmapping : IsMapping mapping)
    (hentry : entry ∈ mapping) (h : assigns entry.1 line) :
    ∃ init last, edited mapping line = init ++ [last] ∧ last ≠ '\n' := by
  obtain ⟨before, rest, hmatches, -, hrewrite⟩ := rewriteBy_of_assigns h
  have hvalue := hmapping.values entry hentry
  have hfeed : '\n' ∉ entry.2.toList ++ commentSuffix rest := by
    rw [List.mem_append, not_or]
    exact ⟨hvalue.noFeed, commentSuffix_noFeed hmatches.2.1⟩
  have hne : entry.2.toList ++ commentSuffix rest ≠ [] := by simp [hvalue.1]
  obtain ⟨init, last, heq⟩ := List.eq_nil_or_concat _ |>.resolve_left hne
  rw [heq, List.concat_eq_append] at hfeed
  refine ⟨before ++ entry.1.toList ++ '=' :: init, last, ?_, ?_⟩
  · rw [edited_of_assigns hentry h fun other hother hassigns =>
      hmapping.unique hother hentry hassigns h, hrewrite, rewrittenLine_eq, heq]
    simp
  · rintro rfl
    exact hfeed (by simp)

/-- The keys of one line are one key. -/
theorem eq_singleton_of_assigns {entry : String × String} {line : List Char}
    (hmapping : IsMapping mapping) (hentry : entry ∈ mapping)
    (hall : ∀ other ∈ mapping, assigns other.1 line) : mapping = [entry] := by
  have hsame : ∀ other ∈ mapping, other = entry := fun other hother =>
    hmapping.unique hother hentry (hall other hother) (hall entry hentry)
  have hnodup : mapping.Nodup := List.Nodup.of_map _ hmapping.keys
  cases mapping with
  | nil => cases hentry
  | cons first others =>
      obtain rfl := hsame first List.mem_cons_self
      cases others with
      | nil => rfl
      | cons second others =>
          obtain rfl := hsame second (by simp)
          simp at hnodup

/-- A CRLF that an edit has made splits the new text in two, and what stands behind it ends with
a line feed. A second edit cannot keep both: it drops the line feed where the last line assigns
a key, and else every key is assigned in front of the CRLF, where only one can be; but that one
has been appended behind it. -/
theorem not_rerun_of_crlf {front back : List Char} (hmapping : IsMapping mapping)
    (hfront : hasCrlf front = false) {appended : List (String × String)}
    (happended : appended ≠ []) (hsub : appended.Sublist mapping)
    (hback : back = ((appended.map appendedLine).map (· ++ ['\n'])).flatten)
    (hrerun : computeDotenvUpdate (some (String.ofList (front ++ '\r' :: '\n' :: back))) mapping =
      .ok (String.ofList (front ++ '\r' :: '\n' :: back), [])) : False := by
  have hbackCrlf : hasCrlf back = false := by
    rw [← Bool.not_eq_true, hback, ← List.append_nil (List.flatten _), hasCrlf_flatten]
    rintro (⟨line, hline, hcrlf⟩ | hcrlf)
    · obtain ⟨entry, hentry, rfl⟩ := List.mem_map.mp hline
      have hnoReturn := appendedLine_noReturn hmapping (hsub.subset hentry)
      rcases hcrlf with hcrlf | hlast
      · rw [hasCrlf_of_noReturn hnoReturn] at hcrlf
        cases hcrlf
      · exact hnoReturn (List.mem_of_getLast? hlast)
    · cases hcrlf
  obtain ⟨body, hbody⟩ : ∃ body, back = body ++ ['\n'] := by
    obtain ⟨init, last, rfl⟩ := List.eq_nil_or_concat appended |>.resolve_left happended
    refine ⟨((init.map appendedLine).map (· ++ ['\n'])).flatten ++ appendedLine last, ?_⟩
    simp [hback]
  have hsound : DotenvLines.Sound ⟨['\r', '\n'], [front, back], false⟩ := by
    refine ⟨.inr rfl, by simp, ?_, fun _ => by simp [hbody]⟩
    intro line hline
    rcases List.mem_cons.mp hline with rfl | hmem
    · exact hfront
    · rw [List.mem_singleton.mp hmem]
      exact hbackCrlf
  have hchars : DotenvLines.chars ⟨['\r', '\n'], [front, back], false⟩ =
      front ++ '\r' :: '\n' :: back := by simp [DotenvLines.chars, List.intercalate]
  have hread := readLines_chars hsound (by
    rw [hchars, detectNewline, if_pos (hasCrlf_iff.mpr ⟨front, back, rfl⟩)])
  rw [hchars] at hread
  obtain ⟨hassigned, htext⟩ := rerun_inv hmapping hrerun
  rw [hread] at hassigned htext
  have hnot : ∀ entry ∈ mapping, ¬ assigns entry.1 back := by
    intro entry hentry hassigns
    obtain ⟨init, last, hedited, hlast⟩ := noFeed_of_edited hmapping hentry hassigns
    have hnew : front ++ '\r' :: '\n' :: back =
        edited mapping front ++ '\r' :: '\n' :: edited mapping back := by
      have hlists := congrArg String.toList htext
      simpa [DotenvLines.text_eq, DotenvLines.chars, List.intercalate] using hlists
    have hends : front ++ '\r' :: '\n' :: body ++ ['\n'] =
        edited mapping front ++ '\r' :: '\n' :: init ++ [last] := by
      rw [hedited] at hnew
      simpa [hbody] using hnew
    obtain ⟨-, heq⟩ := List.append_inj' hends rfl
    cases heq
    exact hlast rfl
  have hall : ∀ entry ∈ mapping, assigns entry.1 front := by
    intro entry hentry
    obtain ⟨line, hline, hassigns⟩ := hassigned entry hentry
    rcases List.mem_cons.mp hline with rfl | hmem
    · exact hassigns
    · rw [List.mem_singleton.mp hmem] at hassigns
      exact absurd hassigns (hnot entry hentry)
  obtain ⟨entry, others, rfl⟩ := List.exists_cons_of_ne_nil happended
  have hentry : entry ∈ mapping := hsub.subset List.mem_cons_self
  obtain rfl := eq_singleton_of_assigns hmapping hentry hall
  have hnil : others = [] := by simpa using hsub
  subst hnil
  apply hnot entry hentry
  rw [assigns_iff (hmapping.keyShape hentry)]
  refine ⟨[], entry.2.toList, assignmentPrefix_nil, (hmapping.values entry hentry).noFeed, .inr ?_⟩
  simp [hback, appendedLine]

/-- A file whose edit a second edit keeps has no carriage return that the editor keeps in front
of an appended line. -/
theorem noCrlf_of_rerun (hmapping : IsMapping mapping)
    (hnewline : (readLines text).newline = ['\n'])
    (happended : appendedLines mapping (readLines text).lines ≠ [])
    (hrerun : computeDotenvUpdate (some (updatedFile mapping (readLines text)).text) mapping =
      .ok ((updatedFile mapping (readLines text)).text, [])) :
    hasCrlf (updatedFile mapping (readLines text)).chars = false := by
  have hfile := isLines_readLines text
  have hlines : updatedLines mapping (readLines text).lines ≠ [] := fun h =>
    happended (List.append_eq_nil_iff.mp h).2
  have htail : (updatedFile mapping (readLines text)).tail = [] := by
    rw [DotenvLines.tail, updatedFile]
    simp [happended]
  have hchars := @DotenvLines.chars_eq (updatedFile mapping (readLines text)) hlines
  rw [closed_updatedFile_of_ne_nil happended, htail, List.append_nil] at hchars
  have hnoFeed : ∀ line ∈ (readLines text).lines, '\n' ∉ edited mapping line := by
    intro line hline
    have h := whole_edited hmapping hfile.newline (hfile.whole line hline)
    rwa [Whole, if_pos hnewline] at h
  have hnoReturn : ∀ line ∈ (readLines text).closed,
      (edited mapping line).getLast? ≠ some '\r' := by
    intro line hline hreturn
    have hnoFeed := hfile.noFeed hnewline (DotenvLines.mem_of_closed hline)
    exact noReturn_of_closed hnewline line hline
      ((getLast?_edited_iff hmapping hnoFeed).mp hreturn).1
  by_contra hcrlf
  have hnewline' : (updatedFile mapping (readLines text)).newline = ['\n'] := hnewline
  rw [Bool.not_eq_false, hchars, hnewline', ← List.append_nil (List.flatten _),
    hasCrlf_flatten] at hcrlf
  obtain ⟨line, hline, hreturn⟩ : ∃ line ∈ updatedLines mapping (readLines text).lines,
      line.getLast? = some '\r' := by
    rcases hcrlf with ⟨line, hline, hcrlf | hreturn⟩ | hnil
    · rcases List.mem_append.mp hline with hmem | hmem
      · obtain ⟨original, horiginal, rfl⟩ := List.mem_map.mp hmem
        rw [hasCrlf_of_noFeed (hnoFeed original horiginal)] at hcrlf
        cases hcrlf
      · obtain ⟨entry, hentry, -, rfl⟩ := mem_appendedLines_iff.mp hmem
        rw [hasCrlf_of_noReturn (appendedLine_noReturn hmapping hentry)] at hcrlf
        cases hcrlf
    · exact ⟨line, hline, hreturn⟩
    · cases hnil
  obtain ⟨original, horiginal, rfl, -⟩ :=
    keepsReturn_of_updatedLines hmapping hfile hnewline hline hreturn
  have hopen : original ∉ (readLines text).closed := fun h => hnoReturn original h hreturn
  -- Only the last line can keep a carriage return.
  obtain ⟨init, hinit⟩ : ∃ init, (readLines text).lines = init ++ [original] ∧
      (readLines text).closed = init := by
    obtain ⟨init, last, hlast⟩ :=
      List.eq_nil_or_concat _ |>.resolve_left (List.ne_nil_of_mem horiginal)
    rw [List.concat_eq_append] at hlast
    rw [DotenvLines.closed] at hopen ⊢
    split_ifs at hopen ⊢ with htrailing
    · exact absurd horiginal hopen
    · rw [hlast, List.dropLast_concat] at hopen ⊢
      rw [hlast] at horiginal
      rcases List.mem_append.mp horiginal with hmem | hmem
      · exact absurd hmem hopen
      · rw [List.mem_singleton.mp hmem]
        exact ⟨init, rfl, rfl⟩
  obtain ⟨body, hbody⟩ := List.getLast?_eq_some_iff.mp hreturn
  have hfront : hasCrlf (((init.map (edited mapping)).map (· ++ ['\n'])).flatten ++ body) =
      false := by
    rw [← Bool.not_eq_true, hasCrlf_flatten]
    rintro (⟨line, hline, hcrlf | hlast⟩ | hcrlf)
    · obtain ⟨first, hfirst, rfl⟩ := List.mem_map.mp hline
      rw [hasCrlf_of_noFeed (hnoFeed first (by simp [hinit.1, hfirst]))] at hcrlf
      cases hcrlf
    · obtain ⟨first, hfirst, rfl⟩ := List.mem_map.mp hline
      exact hnoReturn first (hinit.2 ▸ hfirst) hlast
    · have hbodyFeed := hnoFeed original horiginal
      rw [hbody, List.mem_append, not_or] at hbodyFeed
      rw [hasCrlf_of_noFeed hbodyFeed.1] at hcrlf
      cases hcrlf
  have hfilter : (mapping.filter fun entry => ¬ (readLines text).lines.any (assigns entry.1)) ≠
      [] := fun h => happended (by rw [appendedLines, h]; rfl)
  apply not_rerun_of_crlf hmapping hfront hfilter List.filter_sublist rfl
  have hsplit : (updatedFile mapping (readLines text)).chars =
      (((init.map (edited mapping)).map (· ++ ['\n'])).flatten ++ body) ++ '\r' :: '\n' ::
        ((appendedLines mapping (readLines text).lines).map (· ++ ['\n'])).flatten := by
    have hmap : (readLines text).lines.map (edited mapping) =
        init.map (edited mapping) ++ [body ++ ['\r']] := by simp [hinit.1, hbody]
    rw [hchars, hnewline', updatedLines, hmap]
    simp
  rw [← appendedLines, ← hsplit]
  exact hrerun

/-- Where a second edit changes nothing, no key has a line feed and nothing is appended behind a
carriage return, in a text with line feeds. -/
theorem steady_of_rerun (hmapping : IsMapping mapping)
    (hnewline : (readLines text).newline = ['\n'])
    (hrerun : computeDotenvUpdate (some (updatedFile mapping (readLines text)).text) mapping =
      .ok ((updatedFile mapping (readLines text)).text, [])) :
    (∀ entry ∈ mapping, '\n' ∉ entry.1.toList) ∧
      ((∃ entry ∈ mapping, (readLines text).lines.any (assigns entry.1) = false) →
        ∀ line ∈ (readLines text).lines, ¬ KeepsReturn mapping line) := by
  have hfile := isLines_readLines text
  constructor
  · by_cases happended : appendedLines mapping (readLines text).lines = []
    · intro entry hentry
      obtain ⟨line, hline, hassigns⟩ := appendedLines_eq_nil_iff.mp happended entry hentry
      exact noFeed_of_assigns (hfile.noFeed hnewline hline) hassigns
    · have hnoCrlf := noCrlf_of_rerun hmapping hnewline happended hrerun
      have hlines : updatedLines mapping (readLines text).lines ≠ [] := fun h =>
        happended (List.append_eq_nil_iff.mp h).2
      have hnonempty : (updatedFile mapping (readLines text)).chars ≠ [] := by
        intro hnil
        rw [@DotenvLines.chars_eq (updatedFile mapping (readLines text)) hlines,
          closed_updatedFile_of_ne_nil happended] at hnil
        obtain ⟨line, others, hcons⟩ := List.exists_cons_of_ne_nil hlines
        rw [hcons] at hnil
        simp [updatedFile, hnewline] at hnil
      have hread : (readLines (some (updatedFile mapping (readLines text)).text)).newline =
          ['\n'] := by
        rw [DotenvLines.text_eq, readLines_ofList hnonempty, detectNewline,
          if_neg (by simp [hnoCrlf])]
      intro entry hentry
      obtain ⟨line, hline, hassigns⟩ := (rerun_inv hmapping hrerun).1 entry hentry
      exact noFeed_of_assigns ((isLines_readLines _).noFeed hread hline) hassigns
  · intro hunassigned line hline hkeeps
    have happended := appendedLines_ne_nil_iff.mpr hunassigned
    have hnoCrlf := noCrlf_of_rerun hmapping hnewline happended hrerun
    have hlines : updatedLines mapping (readLines text).lines ≠ [] := fun h =>
      happended (List.append_eq_nil_iff.mp h).2
    have hmem : edited mapping line ∈ updatedLines mapping (readLines text).lines :=
      List.mem_append_left _ (List.mem_map_of_mem hline)
    have hnoFeed := hfile.noFeed hnewline hline
    have hreturn := (getLast?_edited_iff hmapping hnoFeed).mpr hkeeps
    rw [@DotenvLines.chars_eq (updatedFile mapping (readLines text)) hlines,
      closed_updatedFile_of_ne_nil happended, ← Bool.not_eq_true] at hnoCrlf
    have hnewline' : (updatedFile mapping (readLines text)).newline = ['\n'] := hnewline
    rw [hnewline', hasCrlf_flatten] at hnoCrlf
    exact hnoCrlf (.inl ⟨_, hmem, .inr hreturn⟩)

/-- There is no change where every key has its value. -/
theorem changes_eq_nil_iff
    (hsingle : ∀ entry ∈ mapping, (occurrences entry.1 lines).length ≤ 1) :
    mapping.filterMap (changeOf lines) = [] ↔ HasValues mapping lines := by
  rw [List.filterMap_eq_nil_iff]
  constructor
  · exact fun h entry hentry => exists_of_changeOf (h entry hentry)
  · intro h entry hentry
    obtain ⟨line, hline, before, rest, hmatch, hvalue⟩ := h entry hentry
    obtain ⟨index, hlt, rfl⟩ := List.getElem_of_mem hline
    have hassigns := assigns_of_match hmatch
    have honly : ∀ other (h : other < lines.length), assigns entry.1 lines[other] →
        other = index := by
      intro other hother h
      have hmem := mem_occurrences_iff.mpr ⟨hother, h⟩
      have hmem' := mem_occurrences_iff.mpr ⟨hlt, hassigns⟩
      have hone := hsingle entry hentry
      match hoccurrences : occurrences entry.1 lines with
      | [] =>
          rw [hoccurrences] at hmem
          cases hmem
      | [first] =>
          rw [hoccurrences, List.mem_singleton] at hmem hmem'
          rw [hmem, hmem']
      | first :: second :: others =>
          rw [hoccurrences, List.length_cons, List.length_cons] at hone
          omega
    simp [changeOf, findSome?_matchAssignment hlt hassigns honly, hmatch, hvalue]

/-- A text whose keys all have their values is kept where they stand in the editor's form. -/
theorem kept_iff (hmapping : IsMapping mapping)
    (hvalues : HasValues mapping (readLines text).lines) :
    (updatedFile mapping (readLines text)).text = text.getD "" ↔
      Formatted mapping (readLines text).lines ∧ text.getD "" ≠ "" := by
  have hassigned : ∀ entry ∈ mapping, ∃ line ∈ (readLines text).lines, assigns entry.1 line := by
    intro entry hentry
    obtain ⟨line, hline, before, rest, hmatch, -⟩ := hvalues entry hentry
    exact ⟨line, hline, assigns_of_match hmatch⟩
  have happended := appendedLines_eq_nil_iff.mpr hassigned
  have hupdated : updatedFile mapping (readLines text) = ⟨(readLines text).newline,
      (readLines text).lines.map (edited mapping), (readLines text).trailing⟩ := by
    simp [updatedFile, updatedLines, happended]
  by_cases hempty : text.getD "" = ""
  · rw [hupdated, readLines_of_empty hempty, hempty]
    exact iff_of_false (by simp [DotenvLines.text]) fun h => h.2 rfl
  obtain ⟨hsound, hchars⟩ := readLines_sound_of_ne hempty
  have htext : text.getD "" = (readLines text).text := by
    rw [DotenvLines.text_eq, hchars, String.ofList_toList]
  rw [and_iff_left hempty, htext]
  -- The lines of a text are its own, so the text is kept where every line is.
  have hlines : (updatedFile mapping (readLines text)).text = (readLines text).text ↔
      (readLines text).lines.map (edited mapping) = (readLines text).lines := by
    constructor
    · intro hsame
      have hsameChars : (updatedFile mapping (readLines text)).chars = (readLines text).chars :=
        String.ofList_injective hsame
      have hkeys : (readLines text).newline = ['\n'] →
          ∀ entry ∈ mapping, '\n' ∉ entry.1.toList := by
        intro hnewline entry hentry
        obtain ⟨line, hline, hassigns⟩ := hassigned entry hentry
        exact noFeed_of_assigns (hsound.isLines.noFeed hnewline hline) hassigns
      have hnew := sound_updatedFile hmapping hsound.isLines hkeys (by
        simp [updatedLines, hsound.lines])
      have hdetect := newline_readLines hempty
      have hread := readLines_chars hsound hdetect.symm
      have hreadNew := readLines_chars hnew (by rw [hsameChars, ← hdetect]; rfl)
      rw [hsameChars, hread, hupdated] at hreadNew
      exact congrArg DotenvLines.lines hreadNew.symm
    · intro hsame
      rw [hupdated, hsame]
  have hfixed : (readLines text).lines.map (edited mapping) = (readLines text).lines ↔
      ∀ line ∈ (readLines text).lines, edited mapping line = line := by
    conv_lhs => rhs; rw [← List.map_id (readLines text).lines]
    exact List.map_inj_left
  rw [hlines, hfixed]
  constructor
  · intro hsame entry hentry line hline before rest hmatch
    have hassigns := assigns_of_match hmatch
    have hkept := hsame line hline
    rw [edited_of_assigns hentry hassigns fun other hother h =>
      hmapping.unique hother hentry h hassigns, rewriteBy, hmatch] at hkept
    dsimp only at hkept
    rw [rewrittenLine_eq] at hkept
    exact hkept.symm
  · intro hformatted line hline
    rcases edited_cases hmapping line with ⟨hsame, -⟩ | ⟨entry, hentry, hassigns, hedited, -⟩
    · exact hsame
    · obtain ⟨before, rest, -, hmatch, hrewrite⟩ := rewriteBy_of_assigns hassigns
      rw [hedited, hrewrite, rewrittenLine_eq]
      exact (hformatted entry hentry line hline before rest hmatch).symm

/-- A steady text whose keys all have their values is kept. -/
theorem kept_of_steady (hmapping : IsMapping mapping) (hsteady : Steady text mapping)
    (hvalues : HasValues mapping (readLines text).lines) :
    (updatedFile mapping (readLines text)).text = text.getD "" := by
  refine (kept_iff hmapping hvalues).mpr ⟨hsteady.formatted hvalues, fun hempty => ?_⟩
  obtain ⟨entry, others, hcons⟩ := List.exists_cons_of_ne_nil (hsteady.nonempty hempty)
  obtain ⟨line, hline, -⟩ := hvalues entry (by simp [hcons])
  rw [readLines_of_empty hempty] at hline
  cases hline

/-- An edit whose output a second edit keeps without a change, and which keeps its own input where
it makes no change. -/
theorem dotenv_steady_iff {new : String} {changes : List DotenvChange}
    (hmapping : IsMapping mapping)
    (hok : computeDotenvUpdate text mapping = .ok (new, changes)) :
    computeDotenvUpdate (some new) mapping = .ok (new, []) ∧ (changes = [] → new = text.getD "") ↔
      Steady text mapping := by
  obtain ⟨hsingle, hresult⟩ := (computeDotenvUpdate_eq_ok_iff hmapping).mp hok
  obtain ⟨hnew, hchanges⟩ := Prod.mk.inj hresult
  have hnew : new = (updatedFile mapping (readLines text)).text := hnew
  rw [hnew, hchanges, changes_eq_nil_iff hsingle]
  constructor
  · rintro ⟨hrerun, hkept⟩
    refine ⟨fun hnewline => (steady_of_rerun hmapping hnewline hrerun).1,
      fun hnewline => (steady_of_rerun hmapping hnewline hrerun).2,
      fun hvalues => ((kept_iff hmapping hvalues).mp (hkept hvalues)).1, ?_⟩
    rintro hempty rfl
    exact ((kept_iff hmapping nofun).mp (hkept nofun)).2 hempty
  · intro hsteady
    exact ⟨rerun_of_steady hmapping hsteady hsingle, kept_of_steady hmapping hsteady⟩

theorem isMapping_port : IsMapping [("PORT", "8001")] := by
  refine ⟨by decide, by decide, fun entry hentry => ?_⟩
  rw [List.mem_singleton.mp hentry]
  refine ⟨by decide, fun c hc => ?_⟩
  have hdigits : ("8001".toList.all fun c => '0' ≤ c && c ≤ '9') = true := rfl
  simpa using List.all_eq_true.mp hdigits c hc

/-- The second edit of a dotenv file with a comment. -/
theorem dotenv_steady_commented :
    computeDotenvUpdate (some "A=1\nPORT=8001  # web\n") [("PORT", "8001")] =
        .ok ("A=1\nPORT=8001  # web\n", []) ∧
      ([DotenvChange.mk "PORT" (some "80") "8001" .update] = [] →
        "A=1\nPORT=8001  # web\n" = (some "A=1\nPORT=80 # web\n").getD "") ↔
      Steady (some "A=1\nPORT=80 # web\n") [("PORT", "8001")] :=
  dotenv_steady_iff isMapping_port rfl

/-- An edit without a change takes a blank away, and a second edit takes the line feed that the
first has appended. -/
theorem dotenv_unsteady :
    (computeDotenvUpdate (some "PORT= 80\n") [("PORT", "80")]).toOption =
        some ("PORT=80\n", []) ∧
      (computeDotenvUpdate (some "A=1\r") [("PORT", "80")]).toOption =
        some ("A=1\r\nPORT=80\n", [⟨"PORT", none, "80", .append⟩]) ∧
      (computeDotenvUpdate (some "A=1\r\nPORT=80\n") [("PORT", "80")]).toOption =
        some ("A=1\r\nPORT=80", []) := by
  decide

end Steady

end Agent
