/-
# What an edit of a dotenv file does to its lines

A reader of the file takes a line to end with a line feed, and drops a carriage return in front
of it. The editor cuts the text into pieces at one newline, and where that is CRLF a piece may
hold several lines of the reader. An edit assigns every key on one line, to its value, and keeps
every other line with its line end, exactly if every assignment stands at the end of its piece,
no blank line is swallowed behind one, and nothing is appended to a line that is not ended.
-/

import PortForge.Agent.DotenvReruns
import Mathlib.Algebra.BigOperators.Group.List.Basic
import Mathlib.Algebra.Ring.Nat
import Mathlib.Data.List.TakeWhile

namespace Agent

open Python

/-! ## Physical lines -/

/-- The lines of a text, each with its line end. -/
def physicalLines : List Char → List (List Char)
  | [] => []
  | c :: rest =>
      if c = '\n' then [c] :: physicalLines rest
      else
        match physicalLines rest with
        | [] => [[c]]
        | line :: lines => (c :: line) :: lines

/-- A physical line without its line end. -/
def content (line : List Char) : List Char :=
  if line.getLast? = some '\n' then
    if line.dropLast.getLast? = some '\r' then line.dropLast.dropLast else line.dropLast
  else line

/-- The physical line assigns the key. -/
def sets (key : String) (line : List Char) : Bool := assigns key (content line)

/-- The physical line assigns no key. -/
def isOther (mapping : List (String × String)) (line : List Char) : Bool :=
  !mapping.any fun entry => sets entry.1 line

/-- Nothing stands behind the last line feed of the text. -/
def Ended (text : List Char) : Prop := text = [] ∨ text.getLast? = some '\n'

/-- What may end a line. -/
def IsEnding (ending : List Char) : Prop := ending = [] ∨ IsNewline ending

section Physical

variable {line rest text key before front stem ending newline tail : List Char} {c : Char}
  {pieces : List (List Char)}

theorem physicalLines_cons_of_ne (hc : c ≠ '\n') : physicalLines (c :: text) =
    (c :: (physicalLines text).headD []) :: (physicalLines text).tail := by
  rw [physicalLines, if_neg hc]
  cases physicalLines text <;> rfl

theorem physicalLines_ne_nil (h : text ≠ []) : physicalLines text ≠ [] := by
  obtain ⟨c, rest, rfl⟩ := List.exists_cons_of_ne_nil h
  by_cases hc : c = '\n'
  · simp [physicalLines, hc]
  · simp [physicalLines_cons_of_ne hc]

theorem flatten_physicalLines (text : List Char) : (physicalLines text).flatten = text := by
  induction text with
  | nil => rfl
  | cons c text ih =>
      by_cases hc : c = '\n'
      · rw [physicalLines, if_pos hc, List.flatten_cons, ih]
        rfl
      · rw [physicalLines_cons_of_ne hc]
        cases hlines : physicalLines text with
        | nil =>
            rw [hlines] at ih
            simp [← ih]
        | cons line lines =>
            rw [hlines] at ih
            simp [← ih]

/-- A line feed ends its line. -/
theorem noFeed_content (h : line ∈ physicalLines text) : '\n' ∉ content line := by
  have hinit : '\n' ∉ line.dropLast := by
    induction text generalizing line with
    | nil => cases h
    | cons c text ih =>
        by_cases hc : c = '\n'
        · rw [physicalLines, if_pos hc] at h
          rcases List.mem_cons.mp h with rfl | hmem
          · simp
          · exact ih hmem
        · rw [physicalLines_cons_of_ne hc] at h
          cases hlines : physicalLines text with
          | nil =>
              rw [hlines] at h
              rw [List.mem_singleton.mp h]
              simp
          | cons first lines =>
              rw [hlines] at h ih
              rcases List.mem_cons.mp h with rfl | hmem
              · have hfirst := ih List.mem_cons_self
                cases first with
                | nil => simp
                | cons d first => simpa [Ne.symm hc] using hfirst
              · exact ih (List.mem_cons_of_mem _ hmem)
  rw [content]
  split_ifs with hlast
  · exact fun hmem => hinit (List.dropLast_subset _ hmem)
  · exact hinit
  · intro hmem
    obtain ⟨init, last, rfl⟩ := (List.eq_nil_or_concat line).resolve_left (List.ne_nil_of_mem hmem)
    rw [List.concat_eq_append] at hlast hinit hmem
    rw [List.dropLast_concat] at hinit
    rw [List.getLast?_concat, Option.some.injEq] at hlast
    rcases List.mem_append.mp hmem with hmem | hmem
    · exact hinit hmem
    · exact hlast (List.mem_singleton.mp hmem).symm

theorem content_subset (line : List Char) : content line ⊆ line := by
  rw [content]
  split_ifs
  · exact fun _ hmem => List.dropLast_subset _ (List.dropLast_subset _ hmem)
  · exact List.dropLast_subset _
  · exact List.Subset.refl _

theorem physicalLines_append (hline : '\n' ∉ line) :
    physicalLines (line ++ '\n' :: rest) = (line ++ ['\n']) :: physicalLines rest := by
  induction line with
  | nil => rfl
  | cons c line ih =>
      rw [List.mem_cons, not_or] at hline
      rw [List.cons_append, physicalLines_cons_of_ne (Ne.symm hline.1), ih hline.2]
      rfl

/-- A line without line feeds, with its end, is one physical line. -/
theorem physicalLines_single (hline : '\n' ∉ line) (hending : IsEnding ending)
    (hne : line ++ ending ≠ []) : physicalLines (line ++ ending) = [line ++ ending] := by
  rcases hending with rfl | rfl | rfl
  · rw [List.append_nil] at hne ⊢
    induction line with
    | nil => exact absurd rfl hne
    | cons c line ih =>
        rw [List.mem_cons, not_or] at hline
        rw [physicalLines_cons_of_ne (Ne.symm hline.1)]
        by_cases hnil : line = []
        · rw [hnil]
          rfl
        · rw [ih hline.2 hnil]
          rfl
  · exact physicalLines_append hline
  · have hsplit : line ++ ['\r', '\n'] = (line ++ ['\r']) ++ ['\n'] := by simp
    rw [hsplit, physicalLines_append (by simp [hline])]
    rfl

/-- The lines of two texts, where a line feed ends the first. -/
theorem Ended.physicalLines_append (h : Ended front) :
    physicalLines (front ++ rest) = physicalLines front ++ physicalLines rest := by
  induction front with
  | nil => rfl
  | cons c front ih =>
      by_cases hnil : front = []
      · subst hnil
        have hc : c = '\n' := by simpa [Ended] using h
        rw [hc]
        rfl
      · have hfront : Ended front := by
          obtain ⟨d, more, rfl⟩ := List.exists_cons_of_ne_nil hnil
          exact .inr (by simpa [Ended, List.getLast?_cons_cons] using h)
        by_cases hc : c = '\n'
        · rw [List.cons_append, physicalLines, if_pos hc, ih hfront, physicalLines, if_pos hc]
          rfl
        · obtain ⟨line, lines, hlines⟩ :=
            List.exists_cons_of_ne_nil (physicalLines_ne_nil hnil)
          rw [List.cons_append, physicalLines_cons_of_ne hc, physicalLines_cons_of_ne hc,
            ih hfront, hlines]
          rfl

/-- A text is what its last line feed ends, and what stands behind. -/
theorem exists_stem (text : List Char) :
    ∃ front stem, text = front ++ stem ∧ Ended front ∧ '\n' ∉ stem := by
  induction text using List.reverseRecOn with
  | nil => exact ⟨[], [], rfl, .inl rfl, List.not_mem_nil⟩
  | append_singleton text c ih =>
      by_cases hc : c = '\n'
      · subst hc
        exact ⟨text ++ ['\n'], [], by simp, .inr (by simp), List.not_mem_nil⟩
      · obtain ⟨front, stem, rfl, hfront, hstem⟩ := ih
        exact ⟨front, stem ++ [c], by simp, hfront, by simp [hstem, Ne.symm hc]⟩

theorem ended_append_newline (hnewline : IsNewline newline) (text : List Char) :
    Ended (text ++ newline) := by
  rcases hnewline with rfl | rfl <;> exact .inr (by simp)

/-- The physical lines of pieces that a newline ends, and of what stands behind them. -/
theorem physicalLines_flatten (hnewline : IsNewline newline) :
    physicalLines ((pieces.map (· ++ newline)).flatten ++ tail) =
      (pieces.flatMap fun piece => physicalLines (piece ++ newline)) ++ physicalLines tail := by
  induction pieces with
  | nil => rfl
  | cons piece pieces ih =>
      rw [List.map_cons, List.flatten_cons, List.append_assoc,
        (ended_append_newline hnewline piece).physicalLines_append, ih, List.flatMap_cons,
        List.append_assoc]

/-- A line's content is the line the editor has, up to a carriage return. -/
theorem content_cases (hending : IsEnding ending) (hline : '\n' ∉ line) :
    content (line ++ ending) = line ∨ line = content (line ++ ending) ++ ['\r'] := by
  rcases hending with rfl | rfl | rfl
  · rw [List.append_nil, content, if_neg fun h => hline (List.mem_of_getLast? h)]
    exact .inl rfl
  · unfold content
    rw [List.getLast?_concat, if_pos rfl, List.dropLast_concat]
    split_ifs with hreturn
    · obtain ⟨init, rfl⟩ := List.getLast?_eq_some_iff.mp hreturn
      exact .inr (by rw [List.dropLast_concat])
    · exact .inl rfl
  · have hsplit : line ++ ['\r', '\n'] = (line ++ ['\r']) ++ ['\n'] := by simp
    unfold content
    rw [hsplit, List.getLast?_concat, if_pos rfl, List.dropLast_concat, List.getLast?_concat,
      if_pos rfl, List.dropLast_concat]
    exact .inl rfl

/-- A carriage return at the end of a line is part of its value. -/
theorem matches_return_iff (hline : '\n' ∉ line) :
    Matches key (line ++ ['\r']) before rest ↔
      ∃ value, rest = value ++ ['\r'] ∧ Matches key line before value := by
  constructor
  · rintro ⟨hbefore, hrest, heq | heq⟩
    · obtain rfl | ⟨value, c, rfl⟩ := List.eq_nil_or_concat rest
      · obtain ⟨-, hc⟩ := List.append_inj' heq rfl
        cases hc
      · rw [List.concat_eq_append] at heq hrest ⊢
        have hsplit : line ++ ['\r'] = (before ++ key ++ '=' :: value) ++ [c] := by
          rw [heq]
          simp
        obtain ⟨hfront, hc⟩ := List.append_inj' hsplit rfl
        cases hc
        rw [List.mem_append, not_or] at hrest
        exact ⟨value, rfl, hbefore, hrest.1, .inl hfront⟩
    · obtain ⟨-, hc⟩ := List.append_inj' heq rfl
      cases hc
  · rintro ⟨value, rfl, hbefore, hvalue, rfl | rfl⟩
    · exact ⟨hbefore, by simp [hvalue], .inl (by simp)⟩
    · exact absurd (by simp) hline

/-- The blanks behind a value are none of it. -/
theorem stripChars_return (value : List Char) :
    stripChars (value ++ ['\r']) = stripChars value := by
  have hspace : isSpace '\r' = true := by decide
  unfold stripChars
  by_cases hblank : value.dropWhile isSpace = []
  · have hall := List.dropWhile_eq_nil_iff.mp hblank
    rw [List.dropWhile_append_of_pos hall, hblank]
    simp [hspace]
  · rw [List.dropWhile_append, if_neg (by simpa using hblank), List.reverse_append]
    simp [hspace]

theorem splitValueAndComment_return (inSingle inDouble : Bool) (text : List Char) :
    splitValueAndComment inSingle inDouble (text ++ ['\r']) =
      if (splitValueAndComment inSingle inDouble text).2 = [] then
        ((splitValueAndComment inSingle inDouble text).1 ++ ['\r'], [])
      else ((splitValueAndComment inSingle inDouble text).1,
        (splitValueAndComment inSingle inDouble text).2 ++ ['\r']) := by
  fun_induction splitValueAndComment inSingle inDouble text with
  | case1 inSingle inDouble => simp [splitValueAndComment]
  | case2 inSingle inDouble c rest hquote parts ih =>
      rw [List.cons_append, splitValueAndComment, if_pos hquote, ih]
      dsimp only [parts]
      split_ifs <;> rfl
  | case3 inSingle inDouble c rest hsingle hquote parts ih =>
      rw [List.cons_append, splitValueAndComment, if_neg hsingle, if_pos hquote, ih]
      dsimp only [parts]
      split_ifs <;> rfl
  | case4 inSingle inDouble c rest hsingle hdouble hhash =>
      rw [List.cons_append, splitValueAndComment, if_neg hsingle, if_neg hdouble, if_pos hhash]
      rfl
  | case5 inSingle inDouble c rest hsingle hdouble hhash parts ih =>
      rw [List.cons_append, splitValueAndComment, if_neg hsingle, if_neg hdouble, if_neg hhash, ih]
      dsimp only [parts]
      split_ifs <;> rfl

theorem oldValue_return (value : List Char) : oldValue (value ++ ['\r']) = oldValue value := by
  unfold oldValue
  rw [splitValueAndComment_return]
  split_ifs
  · rw [stripChars_return]
  · rfl

end Physical

/-! ## The lines of a piece -/

section Pieces

variable {mapping : List (String × String)} {entry entry' : String × String} {key : String}
  {line piece text front ending newline before rest stem : List Char}

theorem equals_of_assigns (h : assigns key line) : '=' ∈ line := by
  obtain ⟨⟨before, rest⟩, hmatch⟩ := Option.isSome_iff_exists.mp h
  rcases (matches_of_matchAssignment hmatch).2.2 with rfl | rfl <;> simp

theorem equals_of_sets (h : sets key line) : '=' ∈ line :=
  content_subset line (equals_of_assigns h)

/-- A physical line assigns what the editor's line does, and has the same value. -/
theorem matchAssignment_content (hmapping : IsMapping mapping) (hentry : entry ∈ mapping)
    (hending : IsEnding ending) (hline : '\n' ∉ line) :
    (matchAssignment entry.1.toList (content (line ++ ending))).map (fun parts => oldValue parts.2) =
      (matchAssignment entry.1.toList line).map (fun parts => oldValue parts.2) := by
  have hkey := hmapping.keyShape hentry
  rcases content_cases hending hline with hsame | hreturn
  · rw [hsame]
  · generalize content (line ++ ending) = inner at hreturn
    subst hreturn
    have hinner : '\n' ∉ inner := fun hmem => hline (List.mem_append_left _ hmem)
    cases hmatch : matchAssignment entry.1.toList inner with
    | some parts =>
        obtain ⟨before, value⟩ := parts
        have hmatches := (matches_return_iff hinner).mpr
          ⟨value, rfl, matches_of_matchAssignment hmatch⟩
        rw [matchAssignment_of_matches hmatches hkey, Option.map_some, Option.map_some,
          oldValue_return]
    | none =>
        cases hmatch' : matchAssignment entry.1.toList (inner ++ ['\r']) with
        | none => rfl
        | some parts =>
            obtain ⟨before, rest⟩ := parts
            obtain ⟨value, -, hmatches⟩ :=
              (matches_return_iff hinner).mp (matches_of_matchAssignment hmatch')
            rw [matchAssignment_of_matches hmatches hkey] at hmatch
            cases hmatch

theorem sets_ended (hmapping : IsMapping mapping) (hentry : entry ∈ mapping)
    (hending : IsEnding ending) (hline : '\n' ∉ line) :
    sets entry.1 (line ++ ending) = assigns entry.1 line := by
  have hsame := congrArg Option.isSome (matchAssignment_content hmapping hentry hending hline)
  simpa [sets, assigns] using hsame

/-- What stands behind a line feed of a prefix is a prefix. -/
theorem AssignmentPrefix.behindFeed (h : AssignmentPrefix (front ++ stem)) (hfront : Ended front) :
    AssignmentPrefix stem := by
  obtain ⟨blanks, hblanks, heq | ⟨more, hne, hmore, heq⟩⟩ := h
  · exact ⟨stem, fun c hc => hblanks c (heq ▸ List.mem_append_right _ hc), .inl rfl⟩
  rw [List.append_assoc] at heq
  rcases List.append_eq_append_iff.mp heq with ⟨d, hd, hstem⟩ | ⟨d, hd, hstem⟩
  · refine ⟨d, fun c hc => hblanks c (hd ▸ List.mem_append_right _ hc), .inr ⟨more, hne, hmore, ?_⟩⟩
    rw [hstem, List.append_assoc]
  · rcases List.append_eq_append_iff.mp hstem with ⟨e, he, hstem⟩ | ⟨e, he, hstem⟩
    · exact ⟨stem, fun c hc => hmore c (hstem ▸ List.mem_append_right _ hc), .inl rfl⟩
    · -- The line feed would be a letter of `export`.
      have hnil : d = [] := by
        by_contra hd'
        obtain ⟨init, last, rfl⟩ := (List.eq_nil_or_concat d).resolve_left hd'
        rw [List.concat_eq_append, ← List.append_assoc] at hd
        have hlast : last = '\n' := by
          rcases hfront with hfront | hfront
          · simp [hfront] at hd
          · simpa [hd] using hfront
        have hmem : '\n' ∈ "export".toList := by
          rw [he, hlast]
          simp
        exact absurd hmem (by decide)
      subst hnil
      rw [List.nil_append] at he
      refine ⟨[], fun _ hc => (List.not_mem_nil hc).elim, .inr ⟨more, hne, hmore, ?_⟩⟩
      rw [List.nil_append, he]
      assumption

/-- A piece that assigns an entry, as lines: `front` assigns nothing, `core` is the line of the
assignment, and a line feed may end it. An edit replaces `core` and the line feed. -/
structure Parts (entry : String × String) (edited piece front core written : List Char) :
    Prop where
  ended : Ended front
  noEquals : '=' ∉ front
  coreLine : '\n' ∉ core ∧ assigns entry.1 core
  writtenLine : '\n' ∉ written ∧ assigns entry.1 written
  value : ∀ before rest, matchAssignment entry.1.toList core = some (before, rest) →
    ∃ before', matchAssignment entry.1.toList piece = some (before', rest)
  eq_piece : piece = front ++ core ∨ piece = front ++ core ++ ['\n']
  eq_edited : edited = front ++ written

theorem exists_parts (hmapping : IsMapping mapping) (hentry : entry ∈ mapping)
    (hkey : '\n' ∉ entry.1.toList) (h : assigns entry.1 piece) :
    ∃ front core written, Parts entry (edited mapping piece) piece front core written := by
  have hshape := hmapping.keyShape hentry
  have hvalue := hmapping.values entry hentry
  obtain ⟨before, rest, hmatches, hmatch, hrewrite⟩ := rewriteBy_of_assigns h
  obtain ⟨front, stem, rfl, hfront, hstem⟩ := exists_stem before
  have hstemPrefix := hmatches.1.behindFeed hfront
  have hcore : Matches entry.1.toList (stem ++ entry.1.toList ++ '=' :: rest) stem rest :=
    ⟨hstemPrefix, hmatches.2.1, .inl rfl⟩
  have hwritten := written_rewrittenLine hmapping hentry hcore
  have hsuffix := (@matches_rewrittenLine entry.1.toList stem rest entry.2.toList hstemPrefix
    hmatches.2.1 hvalue).2.1
  refine ⟨front, stem ++ entry.1.toList ++ '=' :: rest,
    rewrittenLine stem entry.1.toList entry.2.toList rest, hfront,
    fun hmem => hmatches.1.noEquals (List.mem_append_left _ hmem), ⟨?_, ?_⟩, ⟨?_, hwritten.assigned⟩,
    ?_, ?_, ?_⟩
  · simp [hstem, hkey, hmatches.2.1]
  · exact assigns_of_match (matchAssignment_of_matches hcore hshape)
  · rw [rewrittenLine_eq]
    simp only [List.mem_append, List.mem_cons, not_or] at hsuffix ⊢
    exact ⟨⟨hstem, hkey⟩, by decide, hsuffix⟩
  · intro before' rest' hmatch'
    rw [matchAssignment_of_matches hcore hshape, Option.some.injEq, Prod.mk.injEq] at hmatch'
    exact ⟨_, hmatch'.2 ▸ hmatch⟩
  · rcases hmatches.2.2 with hpiece | hpiece
    · exact .inl (by simpa using hpiece)
    · exact .inr (by simpa using hpiece)
  · rw [edited_of_assigns hentry h fun other hother hassigns =>
      hmapping.unique hother hentry hassigns h, hrewrite, rewrittenLine_eq, rewrittenLine_eq]
    simp

/-- The physical lines of the piece, with its end. -/
theorem Parts.physicalLines {new core written : List Char}
    (h : Parts entry new piece front core written) (hending : IsEnding ending) :
    (piece = front ++ core ∧ physicalLines (piece ++ ending) =
        physicalLines front ++ [core ++ ending]) ∨
      piece = front ++ core ++ ['\n'] ∧ physicalLines (piece ++ ending) =
        physicalLines front ++ (core ++ ['\n']) :: physicalLines ending := by
  have hne : core ≠ [] := List.ne_nil_of_mem (equals_of_assigns h.coreLine.2)
  rcases h.eq_piece with hpiece | hpiece
  · refine .inl ⟨hpiece, ?_⟩
    rw [hpiece, List.append_assoc, h.ended.physicalLines_append,
      physicalLines_single h.coreLine.1 hending (by simp [hne])]
  · refine .inr ⟨hpiece, ?_⟩
    have hsplit : front ++ core ++ ['\n'] ++ ending = front ++ (core ++ '\n' :: ending) := by simp
    rw [hpiece, hsplit, h.ended.physicalLines_append, physicalLines_append h.coreLine.1]

/-- The physical lines of the edited piece. -/
theorem Parts.physicalLines_edited {new core written : List Char}
    (h : Parts entry new piece front core written) (hending : IsEnding ending) :
    Agent.physicalLines (new ++ ending) = Agent.physicalLines front ++ [written ++ ending] := by
  have hne : written ≠ [] := List.ne_nil_of_mem (equals_of_assigns h.writtenLine.2)
  rw [h.eq_edited, List.append_assoc, h.ended.physicalLines_append,
    physicalLines_single h.writtenLine.1 hending (by simp [hne])]

theorem countP_sets_of_noEquals (h : '=' ∉ text) :
    (physicalLines text).countP (sets key) = 0 := by
  rw [List.countP_eq_zero]
  intro line hline hsets
  apply h
  rw [← flatten_physicalLines text]
  exact List.mem_flatten_of_mem hline (equals_of_sets hsets)

theorem noEquals_of_isEnding (h : IsEnding ending) : '=' ∉ ending := by
  rcases h with rfl | rfl | rfl <;> decide

/-- The end of a piece assigns nothing. -/
theorem countP_sets_ended (hmapping : IsMapping mapping) (hentry : entry ∈ mapping)
    (hending : IsEnding ending) : (physicalLines (piece ++ ending)).countP (sets entry.1) =
      (physicalLines piece).countP (sets entry.1) := by
  obtain ⟨front, stem, rfl, hfront, hstem⟩ := exists_stem piece
  rw [List.append_assoc, hfront.physicalLines_append, hfront.physicalLines_append,
    List.countP_append, List.countP_append]
  congr 1
  by_cases hnil : stem = []
  · rw [hnil, List.nil_append, countP_sets_of_noEquals (noEquals_of_isEnding hending)]
    rfl
  · have hbare := physicalLines_single hstem (.inl rfl) (by simpa using hnil)
    rw [physicalLines_single hstem hending (by simp [hnil])]
    rw [List.append_nil] at hbare
    have hsets := sets_ended hmapping hentry (.inl rfl) hstem
    rw [List.append_nil] at hsets
    rw [hbare, List.countP_singleton, List.countP_singleton, hsets,
      sets_ended hmapping hentry hending hstem]

/-- A piece that assigns an entry has one line that does, and no line that assigns another. -/
theorem countP_sets_of_assigns (hmapping : IsMapping mapping) (hentry : entry ∈ mapping)
    (hentry' : entry' ∈ mapping) (hkey : '\n' ∉ entry.1.toList) (h : assigns entry.1 piece) :
    (physicalLines piece).countP (sets entry'.1) = if entry' = entry then 1 else 0 := by
  obtain ⟨front, core, written, hparts⟩ := exists_parts hmapping hentry hkey h
  have hnone := @countP_sets_of_noEquals entry'.1 front hparts.noEquals
  have hcore : assigns entry'.1 core = decide (entry' = entry) := by
    rw [Bool.eq_iff_iff, decide_eq_true_eq]
    constructor
    · exact fun hassigns => hmapping.unique hentry' hentry hassigns hparts.coreLine.2
    · rintro rfl
      exact hparts.coreLine.2
  have hphysical := hparts.physicalLines (.inl rfl)
  rw [List.append_nil] at hphysical
  rcases hphysical with ⟨-, hlines⟩ | ⟨-, hlines⟩
  · rw [hlines, List.countP_append, hnone, List.countP_singleton,
      sets_ended hmapping hentry' (.inl rfl) hparts.coreLine.1, hcore]
    simp
  · rw [hlines, List.countP_append, hnone, List.countP_cons,
      sets_ended hmapping hentry' (.inr (.inl rfl)) hparts.coreLine.1, hcore]
    simp [Agent.physicalLines]

theorem isOther_of_noEquals (h : '=' ∉ line) : isOther mapping line = true := by
  rw [isOther, Bool.not_eq_true', ← Bool.not_eq_true, List.any_eq_true]
  rintro ⟨entry, -, hsets⟩
  exact h (equals_of_sets hsets)

theorem filter_isOther_of_noEquals (h : '=' ∉ text) :
    (physicalLines text).filter (isOther mapping) = physicalLines text := by
  rw [List.filter_eq_self]
  intro line hline
  apply isOther_of_noEquals
  intro hmem
  apply h
  rw [← flatten_physicalLines text]
  exact List.mem_flatten_of_mem hline hmem

theorem isOther_of_assigns (hmapping : IsMapping mapping) (hentry : entry ∈ mapping)
    (hending : IsEnding ending) (hline : '\n' ∉ line) (h : assigns entry.1 line) :
    isOther mapping (line ++ ending) = false := by
  rw [isOther, Bool.not_eq_false', List.any_eq_true]
  exact ⟨entry, hentry, by rwa [sets_ended hmapping hentry hending hline]⟩

/-- The lines that an edit keeps of a piece that assigns an entry: all but that of the assignment,
and but for a blank line behind it. -/
theorem exists_kept (hmapping : IsMapping mapping) (hentry : entry ∈ mapping)
    (hkey : '\n' ∉ entry.1.toList) (h : assigns entry.1 piece) :
    ∃ kept, ∀ ending, IsEnding ending →
      (physicalLines (edited mapping piece ++ ending)).filter (isOther mapping) = kept ∧
      (physicalLines (piece ++ ending)).filter (isOther mapping) =
        kept ++ if piece.getLast? = some '\n' then physicalLines ending else [] := by
  obtain ⟨front, core, written, hparts⟩ := exists_parts hmapping hentry hkey h
  have hfront := @filter_isOther_of_noEquals mapping front hparts.noEquals
  refine ⟨physicalLines front, fun ending hending => ⟨?_, ?_⟩⟩
  · have hwritten := isOther_of_assigns hmapping hentry hending hparts.writtenLine.1 hparts.writtenLine.2
    rw [hparts.physicalLines_edited hending, List.filter_append, hfront]
    simp [hwritten]
  · rcases hparts.physicalLines hending with ⟨hpiece, hlines⟩ | ⟨hpiece, hlines⟩
    · have hcore := isOther_of_assigns hmapping hentry hending hparts.coreLine.1 hparts.coreLine.2
      have hne : core ≠ [] := List.ne_nil_of_mem (equals_of_assigns hparts.coreLine.2)
      have hlast : piece.getLast? ≠ some '\n' := by
        rw [hpiece, List.getLast?_append_of_ne_nil _ hne]
        exact fun hlast => hparts.coreLine.1 (List.mem_of_getLast? hlast)
      rw [hlines, List.filter_append, hfront, if_neg hlast]
      simp [hcore]
    · have hcore := isOther_of_assigns hmapping hentry (.inr (.inl rfl)) hparts.coreLine.1 hparts.coreLine.2
      have hlast : piece.getLast? = some '\n' := by simp [hpiece]
      rw [hlines, List.filter_append, hfront, if_pos hlast,
        List.filter_cons_of_neg (by simp [hcore]),
        filter_isOther_of_noEquals (noEquals_of_isEnding hending)]

end Pieces

/-! ## The lines of a file -/

/-- The physical lines of a file, piece by piece. -/
def DotenvLines.physical (file : DotenvLines) : List (List Char) :=
  (file.closed.flatMap fun piece => physicalLines (piece ++ file.newline)) ++
    physicalLines file.tail

/-- What the editor takes for an assignment of a key, a reader takes for one too: each line of the
piece that assigns a key is the piece's own assignment. -/
def Seen (mapping : List (String × String)) (piece : List Char) : Prop :=
  ∀ line ∈ physicalLines piece, ∀ entry ∈ mapping, sets entry.1 line → assigns entry.1 piece

/-- No blank line stands behind an assignment in its piece. -/
def Alone (mapping : List (String × String)) (piece : List Char) : Prop :=
  ∀ entry ∈ mapping, assigns entry.1 piece → piece.getLast? ≠ some '\n'

instance (mapping : List (String × String)) (piece : List Char) : Decidable (Seen mapping piece) :=
  inferInstanceAs (Decidable (∀ line ∈ physicalLines piece, _))

instance (mapping : List (String × String)) (piece : List Char) : Decidable (Alone mapping piece) :=
  inferInstanceAs (Decidable (∀ entry ∈ mapping, _))

/-- The files that an edit changes in nothing but the values of the keys. -/
structure DotenvLines.Editable (mapping : List (String × String)) (file : DotenvLines) : Prop where
  keys : ∀ entry ∈ mapping, '\n' ∉ entry.1.toList
  nonempty : file.lines = [] → mapping ≠ []
  seen : ∀ piece ∈ file.lines, Seen mapping piece
  alone : ∀ piece ∈ file.closed, Alone mapping piece
  ended : ∀ entry ∈ mapping, (∀ piece ∈ file.lines, ¬ assigns entry.1 piece) →
    file.trailing = true ∨ ∃ last ∈ file.lines.getLast?, ∃ other ∈ mapping, assigns other.1 last

/-- Each key is assigned on one line of the new text, to its value, and the other lines are those
of the old text. -/
def ExactEdit (mapping : List (String × String)) (text new : List Char) : Prop :=
  (∀ entry ∈ mapping, (physicalLines new).countP (sets entry.1) = 1 ∧
    ∀ line ∈ physicalLines new, ∀ before rest,
      matchAssignment entry.1.toList (content line) = some (before, rest) →
        oldValue rest = entry.2) ∧
    (physicalLines new).filter (isOther mapping) = (physicalLines text).filter (isOther mapping)

section Files

variable {mapping : List (String × String)} {file : DotenvLines} {piece newline : List Char}
  {entry : String × String} {text : Option String} {pieces : List (List Char)}

theorem physicalLines_chars (hnewline : IsNewline file.newline) (hlines : file.lines ≠ []) :
    physicalLines file.chars = file.physical := by
  rw [DotenvLines.chars_eq hlines, physicalLines_flatten hnewline, DotenvLines.physical]

/-- The physical lines of a text are those of its pieces. -/
theorem physicalLines_text (text : Option String) :
    physicalLines (text.getD "").toList = (readLines text).physical := by
  by_cases hempty : text.getD "" = ""
  · rw [readLines_of_empty hempty, hempty]
    rfl
  · obtain ⟨hsound, hchars⟩ := readLines_sound_of_ne hempty
    rw [← hchars]
    exact physicalLines_chars hsound.newline hsound.lines

/-- Every piece of a file is ended, or every piece but the last. -/
theorem DotenvLines.pieces_cases (hfile : file.lines = [] → file.trailing = true) :
    (file.trailing = true ∧ file.closed = file.lines ∧ file.tail = []) ∨
      ∃ init last, file.trailing = false ∧ file.lines = init ++ [last] ∧ file.closed = init ∧
        file.tail = last := by
  cases htrailing : file.trailing with
  | true => exact .inl ⟨rfl, by simp [DotenvLines.closed, htrailing],
      by simp [DotenvLines.tail, htrailing]⟩
  | false =>
      obtain ⟨init, last, hlines⟩ := (List.eq_nil_or_concat file.lines).resolve_left fun hnil => by
        rw [hfile hnil] at htrailing
        cases htrailing
      rw [List.concat_eq_append] at hlines
      exact .inr ⟨init, last, rfl, hlines, by simp [DotenvLines.closed, htrailing, hlines],
        by simp [DotenvLines.tail, htrailing, hlines]⟩

theorem physical_of_trailing (h : file.trailing = true) :
    file.physical = file.lines.flatMap fun piece => physicalLines (piece ++ file.newline) := by
  rw [DotenvLines.physical, DotenvLines.closed, DotenvLines.tail, if_pos h, if_pos h, physicalLines,
    List.append_nil]

theorem physical_concat {init : List (List Char)} {last : List Char} (h : file.trailing = false)
    (hlines : file.lines = init ++ [last]) : file.physical =
      (init.flatMap fun piece => physicalLines (piece ++ file.newline)) ++ physicalLines last := by
  rw [DotenvLines.physical, DotenvLines.closed, DotenvLines.tail, h, hlines]
  simp

theorem trailing_readLines (text : Option String) (h : (readLines text).lines = []) :
    (readLines text).trailing = true := by
  by_cases hempty : text.getD "" = ""
  · rw [readLines_of_empty hempty]
  · exact absurd h (readLines_sound_of_ne hempty).1.lines

/-! ### One line for each key -/

theorem countP_sets_physical (hmapping : IsMapping mapping) (hentry : entry ∈ mapping)
    (hnewline : IsNewline file.newline) (hfile : file.lines = [] → file.trailing = true) :
    file.physical.countP (sets entry.1) =
      (file.lines.map fun piece => (physicalLines piece).countP (sets entry.1)).sum := by
  have hclosed (pieces : List (List Char)) :
      (pieces.flatMap fun piece => physicalLines (piece ++ file.newline)).countP (sets entry.1) =
        (pieces.map fun piece => (physicalLines piece).countP (sets entry.1)).sum := by
    rw [List.countP_flatMap]
    congr 1
    exact List.map_congr_left fun piece _ =>
      countP_sets_ended hmapping hentry (.inr hnewline)
  rw [DotenvLines.physical, List.countP_append, hclosed]
  rcases file.pieces_cases hfile with ⟨-, hall, htail⟩ | ⟨init, last, -, hlines, hinit, htail⟩
  · rw [hall, htail]
    rfl
  · rw [hinit, htail, hlines, List.map_append, List.sum_append]
    simp

/-- A sum that counts the pieces a test accepts, and counts no other, counts them. -/
theorem sum_eq_countP_iff {test : List Char → Bool} {count : List Char → ℕ}
    (h : ∀ piece ∈ pieces, test piece = true → count piece = 1) :
    pieces.countP test ≤ (pieces.map count).sum ∧
      ((pieces.map count).sum = pieces.countP test ↔
        ∀ piece ∈ pieces, test piece = false → count piece = 0) := by
  induction pieces with
  | nil => simp
  | cons piece pieces ih =>
      obtain ⟨hle, hiff⟩ := ih fun other hother => h other (List.mem_cons_of_mem _ hother)
      have hpiece := h piece List.mem_cons_self
      rw [List.map_cons, List.sum_cons, List.forall_mem_cons, ← hiff]
      cases htest : test piece with
      | true =>
          rw [hpiece htest, List.countP_cons_of_pos htest]
          refine ⟨by omega, ?_⟩
          simp only [reduceCtorEq, false_imp_iff, true_and]
          omega
      | false =>
          rw [List.countP_cons_of_neg (by simp [htest])]
          refine ⟨by omega, ?_⟩
          simp only [true_imp_iff]
          omega

/-- A piece that is assigned, or that the editor has written, hides no other assignment. -/
theorem countP_sets_updated_iff (hmapping : IsMapping mapping)
    (hkeys : ∀ entry ∈ mapping, '\n' ∉ entry.1.toList) (hentry : entry ∈ mapping) :
    (∀ piece ∈ updatedLines mapping pieces, assigns entry.1 piece = false →
        (physicalLines piece).countP (sets entry.1) = 0) ↔
      ∀ piece ∈ pieces, assigns entry.1 piece = false →
        (physicalLines piece).countP (sets entry.1) = 0 := by
  have hother : ∀ other ∈ mapping, ∀ piece, assigns other.1 piece → assigns entry.1 piece = false →
      (physicalLines piece).countP (sets entry.1) = 0 := by
    intro other hmem piece hassigns hnot
    rw [countP_sets_of_assigns hmapping hmem hentry (hkeys other hmem) hassigns, if_neg]
    rintro rfl
    rw [hassigns] at hnot
    cases hnot
  constructor
  · intro h piece hpiece hnot
    rcases edited_cases hmapping piece with ⟨hsame, -⟩ | ⟨other, hmem, hassigns, -, -⟩
    · have hkept := h (edited mapping piece)
        (List.mem_append_left _ (List.mem_map_of_mem hpiece))
      rw [hsame] at hkept
      exact hkept hnot
    · exact hother other hmem piece hassigns hnot
  · intro h piece hpiece hnot
    rcases List.mem_append.mp hpiece with hmem | hmem
    · obtain ⟨original, horiginal, rfl⟩ := List.mem_map.mp hmem
      rcases edited_cases hmapping original with ⟨hsame, -⟩ | ⟨other, hmem, -, -, hwritten⟩
      · rw [hsame] at hnot ⊢
        exact h original horiginal hnot
      · exact hother other hmem _ hwritten.assigned hnot
    · obtain ⟨other, hadded, -, rfl⟩ := mem_appendedLines_iff.mp hmem
      exact hother other hadded _ (written_appendedLine hmapping hadded).assigned hnot

theorem countP_assigns_updatedLines (hmapping : IsMapping mapping) (hentry : entry ∈ mapping)
    (hsingle : (occurrences entry.1 pieces).length ≤ 1) :
    (updatedLines mapping pieces).countP (assigns entry.1) = 1 := by
  have hone := occurrences_updatedLines hmapping hentry hsingle
  rw [length_occurrences] at hone
  exact Nat.le_antisymm hone
    (List.countP_pos_iff.mpr (@exists_assigns mapping pieces entry hmapping hentry))

theorem trailing_updatedFile (hfile : file.lines = [] → file.trailing = true)
    (hlines : (updatedFile mapping file).lines = []) :
    (updatedFile mapping file).trailing = true := by
  obtain ⟨hmap, -⟩ := List.append_eq_nil_iff.mp hlines
  simp [updatedFile, hfile (List.map_eq_nil_iff.mp hmap)]

/-- After an edit one line assigns the key, exactly if no piece hides an assignment of it. -/
theorem sets_once_iff (hmapping : IsMapping mapping)
    (hkeys : ∀ entry ∈ mapping, '\n' ∉ entry.1.toList) (hentry : entry ∈ mapping)
    (hnewline : IsNewline file.newline) (hfile : file.lines = [] → file.trailing = true)
    (hsingle : (occurrences entry.1 file.lines).length ≤ 1) :
    (updatedFile mapping file).physical.countP (sets entry.1) = 1 ↔
      ∀ piece ∈ file.lines, assigns entry.1 piece = false →
        (physicalLines piece).countP (sets entry.1) = 0 := by
  rw [@countP_sets_physical mapping (updatedFile mapping file) entry hmapping hentry hnewline
      (trailing_updatedFile hfile),
    ← countP_assigns_updatedLines hmapping hentry hsingle,
    ← @countP_sets_updated_iff mapping entry file.lines hmapping hkeys hentry]
  refine (sum_eq_countP_iff fun piece _ hassigns => ?_).2
  rw [countP_sets_of_assigns hmapping hentry hentry (hkeys entry hentry) hassigns, if_pos rfl]

theorem seen_iff : (∀ piece ∈ pieces, Seen mapping piece) ↔ ∀ entry ∈ mapping, ∀ piece ∈ pieces,
    assigns entry.1 piece = false → (physicalLines piece).countP (sets entry.1) = 0 := by
  simp only [List.countP_eq_zero]
  constructor
  · intro h entry hentry piece hpiece hnot line hline hsets
    rw [h piece hpiece line hline entry hentry hsets] at hnot
    cases hnot
  · intro h piece hpiece line hline entry hentry hsets
    by_contra hnot
    exact h entry hentry piece hpiece (Bool.eq_false_of_not_eq_true hnot) line hline hsets

/-- The line that assigns a key after an edit has its value. -/
theorem value_updatedFile (hmapping : IsMapping mapping)
    (hkeys : ∀ entry ∈ mapping, '\n' ∉ entry.1.toList) (hentry : entry ∈ mapping)
    (hnewline : IsNewline file.newline) (hseen : ∀ piece ∈ file.lines, Seen mapping piece)
    {line : List Char} (hline : line ∈ (updatedFile mapping file).physical)
    {before rest : List Char}
    (hmatch : matchAssignment entry.1.toList (content line) = some (before, rest)) :
    oldValue rest = entry.2 := by
  have hsets : sets entry.1 line := assigns_of_match hmatch
  obtain ⟨piece, hpiece, ending, hending, hmem⟩ : ∃ piece ∈ updatedLines mapping file.lines,
      ∃ ending, IsEnding ending ∧ line ∈ physicalLines (piece ++ ending) := by
    rcases List.mem_append.mp hline with hmem | hmem
    · obtain ⟨piece, hpiece, hmem⟩ := List.mem_flatMap.mp hmem
      exact ⟨piece, DotenvLines.mem_of_closed hpiece, _, .inr hnewline, hmem⟩
    · rcases (updatedFile mapping file).tail_cases with hnil | hpiece
      · rw [hnil] at hmem
        cases hmem
      · exact ⟨_, hpiece, [], .inl rfl, by rwa [List.append_nil]⟩
  have hcount : 0 < (physicalLines piece).countP (sets entry.1) := by
    rw [← countP_sets_ended hmapping hentry hending]
    exact List.countP_pos_iff.mpr ⟨line, hmem, hsets⟩
  have hassigns : assigns entry.1 piece := by
    by_contra hnot
    have hnone := (@countP_sets_updated_iff mapping entry file.lines hmapping hkeys hentry).mpr
      (seen_iff.mp hseen entry hentry) piece hpiece (Bool.eq_false_of_not_eq_true hnot)
    omega
  obtain ⟨front, core, written, hparts⟩ :=
    exists_parts hmapping hentry (hkeys entry hentry) hassigns
  have hnot {text : List Char} (htext : '=' ∉ text) : line ∉ physicalLines text := by
    intro hfront
    exact (List.countP_eq_zero.mp (@countP_sets_of_noEquals entry.1 text htext)) line hfront hsets
  obtain ⟨ending', hending', rfl⟩ : ∃ ending', IsEnding ending' ∧ line = core ++ ending' := by
    rcases hparts.physicalLines hending with ⟨-, hlines⟩ | ⟨-, hlines⟩
    · rw [hlines] at hmem
      rcases List.mem_append.mp hmem with hfront | hcore
      · exact absurd hfront (hnot hparts.noEquals)
      · exact ⟨ending, hending, List.mem_singleton.mp hcore⟩
    · rw [hlines] at hmem
      rcases List.mem_append.mp hmem with hfront | hrest
      · exact absurd hfront (hnot hparts.noEquals)
      · rcases List.mem_cons.mp hrest with hcore | hend
        · exact ⟨_, .inr (.inl rfl), hcore⟩
        · exact absurd hend (hnot (noEquals_of_isEnding hending))
  have hsame := matchAssignment_content hmapping hentry hending' hparts.coreLine.1
  obtain ⟨⟨before', rest'⟩, hcore⟩ := Option.isSome_iff_exists.mp hparts.coreLine.2
  rw [hmatch, hcore, Option.map_some, Option.map_some, Option.some.injEq] at hsame
  obtain ⟨before'', hpieceMatch⟩ := hparts.value before' rest' hcore
  exact hsame.trans
    ((written_of_assigns hmapping hentry hpiece hassigns).value before'' rest' hpieceMatch)

/-! ### The other lines -/

/-- The other lines of a piece with its newline are kept, or a blank one is lost. -/
theorem kept_or_lost (hmapping : IsMapping mapping)
    (hkeys : ∀ entry ∈ mapping, '\n' ∉ entry.1.toList) (hnewline : IsNewline newline)
    (piece : List Char) :
    (physicalLines (edited mapping piece ++ newline)).filter (isOther mapping) =
        (physicalLines (piece ++ newline)).filter (isOther mapping) ∧ Alone mapping piece ∨
      ((physicalLines (edited mapping piece ++ newline)).filter (isOther mapping)).length <
        ((physicalLines (piece ++ newline)).filter (isOther mapping)).length ∧
          ¬ Alone mapping piece := by
  rcases edited_cases hmapping piece with ⟨hsame, hnone⟩ | ⟨entry, hentry, hassigns, -, -⟩
  · rw [hsame]
    exact .inl ⟨rfl, fun entry hentry hassigns => absurd hassigns (hnone entry hentry)⟩
  · obtain ⟨kept, hkept⟩ := exists_kept hmapping hentry (hkeys entry hentry) hassigns
    obtain ⟨hnew, hold⟩ := hkept newline (.inr hnewline)
    by_cases hlast : piece.getLast? = some '\n'
    · refine .inr ⟨?_, fun halone => halone entry hentry hassigns hlast⟩
      have hpos := List.length_pos_of_ne_nil
        (@physicalLines_ne_nil newline (by rcases hnewline with rfl | rfl <;> simp))
      rw [hnew, hold, if_pos hlast, List.length_append]
      omega
    · rw [if_neg hlast, List.append_nil] at hold
      exact .inl ⟨hnew.trans hold.symm, fun _ _ _ => hlast⟩

/-- The other lines of pieces with their newlines are kept exactly if no blank one is lost. -/
theorem others_closed_iff (hmapping : IsMapping mapping)
    (hkeys : ∀ entry ∈ mapping, '\n' ∉ entry.1.toList) (hnewline : IsNewline newline)
    (pieces : List (List Char)) :
    let lines := pieces.flatMap fun piece =>
      (physicalLines (piece ++ newline)).filter (isOther mapping)
    let editedLines := (pieces.map (edited mapping)).flatMap fun piece =>
      (physicalLines (piece ++ newline)).filter (isOther mapping)
    editedLines.length ≤ lines.length ∧
      (editedLines = lines ↔ ∀ piece ∈ pieces, Alone mapping piece) := by
  induction pieces with
  | nil => simp
  | cons piece pieces ih =>
      obtain ⟨hle, hiff⟩ := ih
      simp only [List.map_cons, List.flatMap_cons, List.length_append, List.forall_mem_cons]
      rcases kept_or_lost hmapping hkeys hnewline piece with ⟨hsame, halone⟩ | ⟨hlost, halone⟩
      · rw [hsame]
        exact ⟨Nat.add_le_add_left hle _, by rw [List.append_cancel_left_eq, hiff, and_iff_right halone]⟩
      · refine ⟨Nat.add_le_add hlost.le hle, iff_of_false (fun heq => ?_) fun h => halone h.1⟩
        have hlength := congrArg List.length heq
        rw [List.length_append, List.length_append] at hlength
        omega

/-- A last piece that assigns nothing is changed where something is appended behind it. -/
theorem others_last_ne (hmapping : IsMapping mapping) (hnewline : IsNewline newline)
    {last : List Char} (hwhole : Whole newline last) (hne : last ≠ [])
    (hseen : Seen mapping last) (hnone : ∀ entry ∈ mapping, ¬ assigns entry.1 last)
    (lines lines' : List (List Char)) :
    lines ++ (physicalLines (last ++ newline)).filter (isOther mapping) ≠
      lines' ++ (physicalLines last).filter (isOther mapping) := by
  have hcount : ∀ entry ∈ mapping, (physicalLines last).countP (sets entry.1) = 0 := by
    intro entry hentry
    exact List.countP_eq_zero.mpr fun line hline hsets =>
      hnone entry hentry (hseen line hline entry hentry hsets)
  have hother {ending : List Char} (hending : IsEnding ending) :
      (physicalLines (last ++ ending)).filter (isOther mapping) = physicalLines (last ++ ending) := by
    rw [List.filter_eq_self]
    intro line hline
    rw [isOther, Bool.not_eq_true', ← Bool.not_eq_true, List.any_eq_true]
    rintro ⟨entry, hentry, hsets⟩
    have hzero := hcount entry hentry
    rw [← countP_sets_ended hmapping hentry hending] at hzero
    exact List.countP_eq_zero.mp hzero line hline hsets
  have hbare := @hother [] (.inl rfl)
  rw [List.append_nil] at hbare
  rw [hbare, hother (.inr hnewline)]
  obtain ⟨front, stem, rfl, hfront, hstem⟩ := exists_stem last
  have hnewlineNe : newline ≠ [] := by rcases hnewline with rfl | rfl <;> simp
  rw [List.append_assoc, hfront.physicalLines_append, hfront.physicalLines_append,
    physicalLines_single hstem (.inr hnewline) (by simp [hnewlineNe])]
  intro heq
  have hlasts := congrArg List.getLast? heq
  rw [← List.append_assoc, List.getLast?_concat] at hlasts
  by_cases hnil : stem = []
  · -- The last line would be a newline by itself, in a piece that has none.
    subst hnil
    rw [List.append_nil] at hne hwhole
    have hlines : physicalLines front ≠ [] := physicalLines_ne_nil hne
    obtain ⟨init, line, hinit⟩ := (List.eq_nil_or_concat _).resolve_left hlines
    rw [List.concat_eq_append] at hinit
    have hline : newline = line := by simpa [physicalLines, hinit] using hlasts
    have hflat := flatten_physicalLines front
    rw [hinit, List.flatten_append, List.flatten_singleton, ← hline] at hflat
    rcases hnewline with rfl | rfl
    · rw [Whole, if_pos rfl, ← hflat] at hwhole
      exact hwhole (by simp)
    · rw [Whole, if_neg (by decide), ← hflat] at hwhole
      have hcrlf : hasCrlf (init.flatten ++ ['\r', '\n']) = true :=
        hasCrlf_iff.mpr ⟨init.flatten, [], rfl⟩
      rw [hcrlf] at hwhole
      cases hwhole
  · have hsingle := physicalLines_single hstem (.inl rfl) (by simpa using hnil)
    rw [List.append_nil] at hsingle
    rw [hsingle, ← List.append_assoc, List.getLast?_concat, Option.some.injEq,
      List.append_right_eq_self] at hlasts
    exact hnewlineNe hlasts

theorem others_appendedLines (hmapping : IsMapping mapping)
    (hkeys : ∀ entry ∈ mapping, '\n' ∉ entry.1.toList) (hnewline : IsNewline newline) :
    ((appendedLines mapping pieces).flatMap fun piece =>
      (physicalLines (piece ++ newline)).filter (isOther mapping)) = [] := by
  rw [List.flatMap_eq_nil_iff]
  intro piece hpiece
  obtain ⟨entry, hentry, -, rfl⟩ := mem_appendedLines_iff.mp hpiece
  have hfeed : '\n' ∉ appendedLine entry :=
    whole_appendedLine hmapping hentry (.inl rfl) fun _ => hkeys entry hentry
  have hassigns := (written_appendedLine hmapping hentry).assigned
  have hne : appendedLine entry ≠ [] := List.ne_nil_of_mem (equals_of_assigns hassigns)
  rw [physicalLines_single hfeed (.inr hnewline) (by simp [hne])]
  simp [isOther_of_assigns hmapping hentry (.inr hnewline) hfeed hassigns]

/-- An edit keeps the other lines exactly if it loses no blank line, and appends nothing to a last
piece that is not ended and assigns nothing. -/
theorem others_iff (hmapping : IsMapping mapping)
    (hkeys : ∀ entry ∈ mapping, '\n' ∉ entry.1.toList) (hfile : IsLines file)
    (htrailing : file.lines = [] → file.trailing = true)
    (hseen : ∀ piece ∈ file.lines, Seen mapping piece) :
    (updatedFile mapping file).physical.filter (isOther mapping) =
        file.physical.filter (isOther mapping) ↔
      (∀ piece ∈ file.closed, Alone mapping piece) ∧
        ∀ entry ∈ mapping, (∀ piece ∈ file.lines, ¬ assigns entry.1 piece) →
          file.trailing = true ∨
            ∃ last ∈ file.lines.getLast?, ∃ other ∈ mapping, assigns other.1 last := by
  have hclosed := fun pieces =>
    (others_closed_iff hmapping hkeys hfile.newline pieces).2
  have happended := @others_appendedLines mapping file.newline file.lines hmapping hkeys hfile.newline
  rcases file.pieces_cases htrailing with ⟨htrue, hall, -⟩ | ⟨init, last, hfalse, hlines, hinit, -⟩
  · have hphysical : (updatedFile mapping file).physical =
        (updatedLines mapping file.lines).flatMap fun piece =>
          physicalLines (piece ++ file.newline) :=
      physical_of_trailing (by simp [updatedFile, htrue])
    rw [hphysical, physical_of_trailing htrue, hall, List.filter_flatMap, List.filter_flatMap,
      updatedLines, List.flatMap_append, happended, List.append_nil, hclosed,
      and_iff_left fun _ _ _ => .inl htrue]
  · have hlast : last ≠ [] := by
      rintro rfl
      exact hfile.last hfalse (by simp [hlines])
    have hold := physical_concat hfalse hlines
    have hgetLast : file.lines.getLast? = some last := by simp [hlines]
    by_cases hnone : appendedLines mapping file.lines = []
    · have hfull : ∀ entry ∈ mapping, ¬ ∀ piece ∈ file.lines, ¬ assigns entry.1 piece := by
        intro entry hentry h
        obtain ⟨piece, hpiece, hassigns⟩ := appendedLines_eq_nil_iff.mp hnone entry hentry
        exact h piece hpiece hassigns
      have hnew : (updatedFile mapping file).physical =
          ((init.map (edited mapping)).flatMap fun piece =>
            physicalLines (piece ++ file.newline)) ++ physicalLines (edited mapping last) := by
        apply physical_concat
        · simp [updatedFile, hnone, hfalse]
        · rw [updatedFile, updatedLines, hnone, hlines]
          simp
      have hends : (physicalLines (edited mapping last)).filter (isOther mapping) =
          (physicalLines last).filter (isOther mapping) := by
        rcases edited_cases hmapping last with ⟨hsame, -⟩ | ⟨entry, hentry, hassigns, -, -⟩
        · rw [hsame]
        · obtain ⟨kept, hkept⟩ := exists_kept hmapping hentry (hkeys entry hentry) hassigns
          obtain ⟨hnew, hold⟩ := hkept [] (.inl rfl)
          rw [List.append_nil] at hnew hold
          rw [hnew, hold]
          simp [physicalLines]
      rw [hnew, hold, List.filter_append, List.filter_append, hends, List.append_cancel_right_eq,
        List.filter_flatMap, List.filter_flatMap, hclosed, hinit,
        and_iff_left fun entry hentry h => absurd h (hfull entry hentry)]
    · have hnew : (updatedFile mapping file).physical.filter (isOther mapping) =
          ((init.map (edited mapping)).flatMap fun piece =>
            (physicalLines (piece ++ file.newline)).filter (isOther mapping)) ++
              (physicalLines (edited mapping last ++ file.newline)).filter (isOther mapping) := by
        have hphysical : (updatedFile mapping file).physical =
            (updatedLines mapping file.lines).flatMap fun piece =>
              physicalLines (piece ++ file.newline) :=
          physical_of_trailing (by simp [updatedFile, hnone])
        rw [hphysical, List.filter_flatMap, updatedLines, List.flatMap_append, happended,
          List.append_nil, hlines, List.map_append, List.flatMap_append]
        simp
      rw [hnew, hold, List.filter_append, List.filter_flatMap, hinit]
      rcases edited_cases hmapping last with ⟨hsame, hunassigned⟩ | ⟨entry, hentry, hassigns, -, -⟩
      · have hmem : last ∈ file.lines := by simp [hlines]
        rw [hsame]
        refine iff_of_false (others_last_ne hmapping hfile.newline (hfile.whole last hmem) hlast
          (hseen last hmem) hunassigned _ _) ?_
        rintro ⟨-, hended⟩
        obtain ⟨piece, hpiece⟩ := List.exists_mem_of_ne_nil _ hnone
        obtain ⟨entry, hentry, hany, -⟩ := mem_appendedLines_iff.mp hpiece
        have hnot : ∀ piece ∈ file.lines, ¬ assigns entry.1 piece := fun piece hpiece hassigns => by
          rw [List.any_eq_true.mpr ⟨piece, hpiece, hassigns⟩] at hany
          cases hany
        rcases hended entry hentry hnot with htrue | ⟨found, hfound, other, hother, hassigns⟩
        · rw [hfalse] at htrue
          cases htrue
        · rw [hgetLast, Option.mem_some_iff] at hfound
          subst hfound
          exact hunassigned other hother hassigns
      · obtain ⟨kept, hkept⟩ := exists_kept hmapping hentry (hkeys entry hentry) hassigns
        have hnewLast := (hkept file.newline (.inr hfile.newline)).1
        have holdLast := (hkept [] (.inl rfl)).2
        rw [List.append_nil, physicalLines, ite_self, List.append_nil] at holdLast
        rw [hnewLast, holdLast, List.append_cancel_right_eq, hclosed,
          and_iff_left fun _ _ _ => .inr ⟨last, hgetLast, entry, hentry, hassigns⟩]

/-- An edit that succeeds is exact if and only if the text can be edited so: no key holds a line
feed, there is something to edit, every line that assigns a key is seen as one, no blank line
follows an assignment in its piece, and keys are appended to a text that is ended, or whose last
piece is rewritten anyway. -/
theorem dotenv_exact_iff {new : String} {changes : List DotenvChange} (hmapping : IsMapping mapping)
    (hok : computeDotenvUpdate text mapping = .ok (new, changes)) :
    ExactEdit mapping (text.getD "").toList new.toList ↔ (readLines text).Editable mapping := by
  obtain ⟨hsingle, hresult⟩ := (computeDotenvUpdate_eq_ok_iff hmapping).mp hok
  have hnew : new = (updatedFile mapping (readLines text)).text := (Prod.mk.inj hresult).1
  have hfile := isLines_readLines text
  have htrailing := trailing_readLines text
  by_cases hkeys : ∀ entry ∈ mapping, '\n' ∉ entry.1.toList
  · by_cases hnonempty : (readLines text).lines = [] ∧ mapping = []
    · obtain ⟨hlines, rfl⟩ := hnonempty
      refine iff_of_false (fun hexact => ?_) fun h => h.nonempty hlines rfl
      have hempty : text.getD "" = "" := by
        by_contra hempty
        exact (readLines_sound_of_ne hempty).1.lines hlines
      have hothers := hexact.2
      rw [hnew, readLines_of_empty hempty, hempty] at hothers
      cases hothers
    · have hlines : updatedLines mapping (readLines text).lines ≠ [] := by
        intro hlines
        obtain ⟨hmap, happended⟩ := List.append_eq_nil_iff.mp hlines
        have hnil := List.map_eq_nil_iff.mp hmap
        refine hnonempty ⟨hnil, List.eq_nil_iff_forall_not_mem.mpr fun entry hentry => ?_⟩
        obtain ⟨piece, hpiece, -⟩ := appendedLines_eq_nil_iff.mp happended entry hentry
        rw [hnil] at hpiece
        cases hpiece
      have hphysical : physicalLines new.toList = (updatedFile mapping (readLines text)).physical := by
        rw [hnew, DotenvLines.text_eq, String.toList_ofList]
        exact physicalLines_chars hfile.newline hlines
      have honce := fun entry (hentry : entry ∈ mapping) =>
        sets_once_iff hmapping hkeys hentry hfile.newline htrailing (hsingle entry hentry)
      rw [ExactEdit, hphysical, physicalLines_text]
      constructor
      · rintro ⟨hsets, hothers⟩
        have hseen : ∀ piece ∈ (readLines text).lines, Seen mapping piece :=
          seen_iff.mpr fun entry hentry => (honce entry hentry).mp (hsets entry hentry).1
        obtain ⟨halone, hended⟩ := (others_iff hmapping hkeys hfile htrailing hseen).mp hothers
        exact ⟨hkeys, fun hnil hmap => hnonempty ⟨hnil, hmap⟩, hseen, halone, hended⟩
      · intro h
        refine ⟨fun entry hentry => ⟨(honce entry hentry).mpr (seen_iff.mp h.seen entry hentry), ?_⟩,
          (others_iff hmapping hkeys hfile htrailing h.seen).mpr ⟨h.alone, h.ended⟩⟩
        intro line hline before rest hmatch
        exact value_updatedFile hmapping hkeys hentry hfile.newline h.seen hline hmatch
  · refine iff_of_false (fun hexact => ?_) fun h => hkeys h.keys
    push Not at hkeys
    obtain ⟨entry, hentry, hfeed⟩ := hkeys
    have hpos : 0 < (physicalLines new.toList).countP (sets entry.1) := by
      rw [(hexact.1 entry hentry).1]
      exact Nat.one_pos
    obtain ⟨line, hline, hsets⟩ := List.countP_pos_iff.mp hpos
    exact noFeed_of_assigns (noFeed_content hline) hsets hfeed

/-- An edit of a text that mixes its line ends: a blank line stands in front of the assignment, and
another piece holds two lines. -/
theorem dotenv_exact_iff_mixed :
    computeDotenvUpdate (some "# db\r\n\nexport PORT=80 # web\r\nB=2\nC=3\r\n") [("PORT", "8001")] =
        .ok ("# db\r\n\nexport PORT=8001  # web\r\nB=2\nC=3\r\n",
          [⟨"PORT", some "80", "8001", .update⟩]) ∧
      ExactEdit [("PORT", "8001")] "# db\r\n\nexport PORT=80 # web\r\nB=2\nC=3\r\n".toList
        "# db\r\n\nexport PORT=8001  # web\r\nB=2\nC=3\r\n".toList := by
  have hok : computeDotenvUpdate (some "# db\r\n\nexport PORT=80 # web\r\nB=2\nC=3\r\n")
      [("PORT", "8001")] = .ok ("# db\r\n\nexport PORT=8001  # web\r\nB=2\nC=3\r\n",
        [⟨"PORT", some "80", "8001", .update⟩]) := by rfl
  refine ⟨hok, (dotenv_exact_iff isMapping_port hok).mpr ⟨by decide, by decide, by decide,
    by decide, by decide⟩⟩

/-- A line behind a lone line feed is not seen where the text has a CRLF: the key is assigned twice
before the edit, which the editor does not refuse, and twice after it. -/
theorem dotenv_not_exact :
    (computeDotenvUpdate (some "PORT=1\r\nB=2\nPORT=80\r\n") [("PORT", "8001")]).toOption =
        some ("PORT=8001\r\nB=2\nPORT=80\r\n", [⟨"PORT", some "1", "8001", .update⟩]) ∧
      ((physicalLines "PORT=8001\r\nB=2\nPORT=80\r\n".toList).filter (sets "PORT")).map
        String.ofList = ["PORT=8001\r\n", "PORT=80\r\n"] ∧
      ¬ ExactEdit [("PORT", "8001")] "PORT=1\r\nB=2\nPORT=80\r\n".toList
        "PORT=8001\r\nB=2\nPORT=80\r\n".toList := by
  refine ⟨by decide, by decide, fun hexact => ?_⟩
  have hone := (hexact.1 ("PORT", "8001") (List.mem_singleton.mpr rfl)).1
  exact absurd hone (by decide)

end Files

end Agent
