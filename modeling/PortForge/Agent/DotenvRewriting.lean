/-
# What the dotenv editor writes and reads back

The editor takes a text apart at one newline, CRLF where the text has one, and joins the lines
again. Its own output is read back as the lines it wrote, unless the text ended with a lone
carriage return and a key was appended behind it: the newline between them then makes a CRLF.
A line it has rewritten, or appended, is rewritten to itself. From both follows when a second
edit with the same mapping changes nothing.
-/

import PortForge.Agent.DotenvEditor
import PortForge.Agent.Manifest
import PortForge.Python.Release
import Mathlib.Data.Bool.Basic
import Mathlib.Data.List.Induction
import Mathlib.Data.List.Nodup
import Mathlib.Data.Nat.Init
import Mathlib.Tactic.Common

namespace Agent

open Python

/-! ## Splitting and joining -/

section Lines

variable {line rest text : List Char} {lines : List (List Char)} {newline : List Char}

theorem hasCrlf_iff : hasCrlf text = true ↔
    ∃ before after, text = before ++ '\r' :: '\n' :: after := by
  fun_induction hasCrlf text with
  | case1 after => exact iff_of_true rfl ⟨[], after, rfl⟩
  | case2 c rest hnot ih =>
      rw [ih]
      constructor
      · rintro ⟨before, after, rfl⟩
        exact ⟨c :: before, after, rfl⟩
      · rintro ⟨before, after, heq⟩
        cases before with
        | nil =>
            cases heq
            exact absurd rfl (hnot after rfl)
        | cons b before =>
            cases heq
            exact ⟨before, after, rfl⟩
  | case3 => exact iff_of_false nofun (by simp)

/-- A character that begins no CRLF stays at the front of the first line. -/
theorem splitCrlf_cons {c : Char} (h : ¬ (c = '\r' ∧ rest.head? = some '\n')) :
    splitCrlf (c :: rest) = (c :: (splitCrlf rest).headD []) :: (splitCrlf rest).tail := by
  rw [splitCrlf]
  · cases splitCrlf rest <;> rfl
  · rintro after rfl rfl
    exact h ⟨rfl, rfl⟩

theorem hasCrlf_cons_of_not {c : Char} (h : hasCrlf (c :: rest) = false) :
    hasCrlf rest = false ∧ ¬ (c = '\r' ∧ rest.head? = some '\n') := by
  constructor
  · rw [← Bool.not_eq_true, hasCrlf_iff] at h ⊢
    rintro ⟨before, after, rfl⟩
    exact h ⟨c :: before, after, rfl⟩
  · rintro ⟨rfl, hfeed⟩
    cases rest with
    | nil => cases hfeed
    | cons d rest =>
        cases hfeed
        cases h

/-- A line without a CRLF is split off in front of one. -/
theorem splitCrlf_append (h : hasCrlf line = false) :
    splitCrlf (line ++ '\r' :: '\n' :: rest) = line :: splitCrlf rest := by
  induction line with
  | nil => rfl
  | cons c line ih =>
      obtain ⟨hline, hhead⟩ := hasCrlf_cons_of_not h
      have hnext : ¬ (c = '\r' ∧ (line ++ '\r' :: '\n' :: rest).head? = some '\n') := by
        rintro ⟨hc, hfeed⟩
        cases line with
        | nil => cases hfeed
        | cons d line => exact hhead ⟨hc, hfeed⟩
      rw [List.cons_append, splitCrlf_cons hnext, ih hline]
      rfl

theorem splitCrlf_of_not (h : hasCrlf line = false) : splitCrlf line = [line] := by
  induction line with
  | nil => rfl
  | cons c line ih =>
      obtain ⟨hline, hhead⟩ := hasCrlf_cons_of_not h
      rw [splitCrlf_cons hhead, ih hline]
      rfl

/-- A text with a CRLF has a line in front of the first. -/
theorem exists_first_crlf (h : hasCrlf text = true) :
    ∃ line rest, text = line ++ '\r' :: '\n' :: rest ∧ hasCrlf line = false := by
  fun_induction hasCrlf text with
  | case1 rest => exact ⟨[], rest, rfl, rfl⟩
  | case2 c text hnot ih =>
      obtain ⟨line, rest, rfl, hline⟩ := ih h
      refine ⟨c :: line, rest, rfl, ?_⟩
      rw [hasCrlf]
      · exact hline
      · rintro after rfl rfl
        exact hnot _ rfl rfl
  | case3 => cases h

/-- Induction over the lines of a text that CRLFs end. -/
theorem crlf_induction {motive : List Char → Prop}
    (plain : ∀ line, hasCrlf line = false → motive line)
    (ended : ∀ line rest, hasCrlf line = false → motive rest →
      motive (line ++ '\r' :: '\n' :: rest)) (text : List Char) : motive text := by
  induction hlength : text.length using Nat.strong_induction_on generalizing text with
  | _ n ih =>
      cases hcrlf : hasCrlf text with
      | false => exact plain text hcrlf
      | true =>
          obtain ⟨line, rest, rfl, hline⟩ := exists_first_crlf hcrlf
          refine ended line rest hline (ih rest.length ?_ rest rfl)
          simp only [List.length_append, List.length_cons] at hlength
          omega

/-- No line of a split has a CRLF. -/
theorem hasCrlf_of_mem_splitCrlf (h : line ∈ splitCrlf text) : hasCrlf line = false := by
  induction text using crlf_induction with
  | plain text htext =>
      rw [splitCrlf_of_not htext, List.mem_singleton] at h
      rw [h]
      exact htext
  | ended first rest hfirst ih =>
      rw [splitCrlf_append hfirst] at h
      rcases List.mem_cons.mp h with rfl | hmem
      · exact hfirst
      · exact ih hmem

theorem splitCrlf_ne_nil (text : List Char) : splitCrlf text ≠ [] := by
  induction text using crlf_induction with
  | plain text htext => simp [splitCrlf_of_not htext]
  | ended first rest hfirst ih => simp [splitCrlf_append hfirst]

theorem intercalate_splitCrlf (text : List Char) :
    ['\r', '\n'].intercalate (splitCrlf text) = text := by
  induction text using crlf_induction with
  | plain text htext => rw [splitCrlf_of_not htext, List.intercalate_singleton]
  | ended first rest hfirst ih =>
      rw [splitCrlf_append hfirst, List.intercalate_cons_of_ne_nil (splitCrlf_ne_nil rest), ih]
      simp

theorem splitCrlf_intercalate (hlines : ∀ line ∈ lines, hasCrlf line = false) (hne : lines ≠ []) :
    splitCrlf (['\r', '\n'].intercalate lines) = lines := by
  induction lines with
  | nil => exact absurd rfl hne
  | cons line others ih =>
      have hline := hlines line List.mem_cons_self
      by_cases hothers : others = []
      · rw [hothers, List.intercalate_singleton, splitCrlf_of_not hline]
      · rw [List.intercalate_cons_of_ne_nil hothers, List.append_assoc]
        have hrest := ih (fun other hother => hlines other (List.mem_cons_of_mem _ hother)) hothers
        exact (splitCrlf_append hline).trans (congrArg _ hrest)

/-- The two newlines. -/
def IsNewline (newline : List Char) : Prop := newline = ['\n'] ∨ newline = ['\r', '\n']

/-- The line is whole under the newline. -/
def Whole (newline line : List Char) : Prop :=
  if newline = ['\n'] then '\n' ∉ line else hasCrlf line = false

theorem splitLines_intercalate (hnewline : IsNewline newline)
    (hlines : ∀ line ∈ lines, Whole newline line) (hne : lines ≠ []) :
    splitLines newline (newline.intercalate lines) = lines := by
  rcases hnewline with rfl | rfl
  · exact List.splitOn_intercalate '\n' hlines hne
  · exact splitCrlf_intercalate hlines hne

theorem intercalate_splitLines (hnewline : IsNewline newline) (text : List Char) :
    newline.intercalate (splitLines newline text) = text := by
  rcases hnewline with rfl | rfl
  · exact List.intercalate_splitOn '\n'
  · exact intercalate_splitCrlf text

theorem whole_of_mem_splitLines (hnewline : IsNewline newline)
    (h : line ∈ splitLines newline text) : Whole newline line := by
  rcases hnewline with rfl | rfl
  · exact not_mem_of_mem_splitOn h
  · exact hasCrlf_of_mem_splitCrlf h

/-- A joined list of lines is the lines before the last, each with its newline, and the last. -/
theorem intercalate_concat (init : List (List Char)) (last : List Char) :
    newline.intercalate (init ++ [last]) = (init.map (· ++ newline)).flatten ++ last := by
  induction init with
  | nil => simp
  | cons line init ih =>
      rw [List.cons_append, List.intercalate_cons_of_ne_nil (by simp), ih]
      simp

/-! ## Reading back -/

/-- The characters of a file. -/
def DotenvLines.chars (file : DotenvLines) : List Char :=
  file.newline.intercalate file.lines ++ if file.trailing then file.newline else []

theorem DotenvLines.text_eq (file : DotenvLines) : file.text = String.ofList file.chars := rfl

theorem isNewline_detectNewline (text : List Char) : IsNewline (detectNewline text) := by
  unfold detectNewline
  split
  · exact .inr rfl
  · exact .inl rfl

/-- What a text that is not empty is taken apart into. -/
theorem readLines_ofList (hne : text ≠ []) :
    readLines (some (String.ofList text)) =
      ⟨detectNewline text,
        splitLines (detectNewline text)
          (if (detectNewline text).isSuffixOf text then
            text.take (text.length - (detectNewline text).length) else text),
        (detectNewline text).isSuffixOf text⟩ := by
  unfold readLines
  rw [Option.getD_some, String.toList_ofList]
  cases text with
  | nil => exact absurd rfl hne
  | cons c rest => rfl

/-- A file that a text can be taken apart into. -/
structure DotenvLines.Sound (file : DotenvLines) : Prop where
  newline : IsNewline file.newline
  lines : file.lines ≠ []
  whole : ∀ line ∈ file.lines, Whole file.newline line
  last : file.trailing = false → file.lines.getLast? ≠ some []

/-- A last line that is empty has a newline in front of it. -/
theorem suffix_of_getLast? (h : lines.getLast? = some []) :
    newline.intercalate lines = [] ∨ newline <:+ newline.intercalate lines := by
  obtain ⟨init, rfl⟩ := List.getLast?_eq_some_iff.mp h
  rw [intercalate_concat, List.append_nil]
  cases hinit : init.getLast? with
  | none =>
      rw [List.getLast?_eq_none_iff.mp hinit]
      exact .inl rfl
  | some line =>
      obtain ⟨front, rfl⟩ := List.getLast?_eq_some_iff.mp hinit
      refine .inr ⟨(front.map (· ++ newline)).flatten ++ line, ?_⟩
      simp

/-- A text that is not empty is taken apart into such a file, and is its text. -/
theorem readLines_sound (hne : text ≠ []) :
    (readLines (some (String.ofList text))).Sound ∧
      (readLines (some (String.ofList text))).chars = text := by
  have hnewline := isNewline_detectNewline text
  have hlines (body : List Char) : splitLines (detectNewline text) body ≠ [] := by
    rcases hnewline with h | h <;> rw [h]
    · exact List.splitOnP_ne_nil _ body
    · exact splitCrlf_ne_nil body
  rw [readLines_ofList hne]
  by_cases hsuffix : (detectNewline text).isSuffixOf text
  · obtain ⟨body, hbody⟩ := List.isSuffixOf_iff_suffix.mp hsuffix
    have htake : text.take (text.length - (detectNewline text).length) = body := by
      have hlength : text.length - (detectNewline text).length = body.length := by
        have htotal := congrArg List.length hbody
        rw [List.length_append] at htotal
        omega
      rw [hlength]
      conv_lhs => rw [← hbody]
      exact List.take_left
    simp only [hsuffix, if_true, htake]
    refine ⟨⟨hnewline, hlines body, fun line hline => whole_of_mem_splitLines hnewline hline,
      nofun⟩, ?_⟩
    rw [DotenvLines.chars, if_pos rfl, intercalate_splitLines hnewline, hbody]
  · have hfalse : (detectNewline text).isSuffixOf text = false :=
      Bool.eq_false_of_not_eq_true hsuffix
    simp only [hfalse, Bool.false_eq_true, if_false]
    refine ⟨⟨hnewline, hlines text, fun line hline => whole_of_mem_splitLines hnewline hline, ?_⟩,
      ?_⟩
    · intro _ hlast
      have hempty := @suffix_of_getLast? _ (detectNewline text) hlast
      rw [intercalate_splitLines hnewline] at hempty
      exact hempty.elim hne fun h => hsuffix (List.isSuffixOf_iff_suffix.mpr h)
    · rw [DotenvLines.chars, if_neg (by simp), intercalate_splitLines hnewline, List.append_nil]

/-- A last line that is whole and not empty does not end with the newline. -/
theorem not_suffix_of_last {init : List (List Char)} {last : List Char}
    (hnewline : IsNewline newline) (hwhole : Whole newline last) (hlast : last ≠ []) :
    ¬ newline <:+ newline.intercalate (init ++ [last]) := by
  rintro ⟨front, hfront⟩
  obtain ⟨body, c, rfl⟩ := List.eq_nil_or_concat last |>.resolve_left hlast
  rw [intercalate_concat, List.concat_eq_append, ← List.append_assoc] at hfront
  rcases hnewline with rfl | rfl
  · obtain ⟨-, hc⟩ := List.append_inj' hfront rfl
    cases hc
    exact hwhole (by simp)
  · have hsplit : front ++ ['\r'] ++ ['\n'] =
        (init.map (· ++ ['\r', '\n'])).flatten ++ body ++ [c] := by
      rw [← hfront]
      simp
    obtain ⟨hfrontBody, hc⟩ := List.append_inj' hsplit rfl
    cases hc
    obtain rfl | ⟨body', d, rfl⟩ := List.eq_nil_or_concat body
    · -- The last line is a line feed behind a CRLF.
      rw [List.append_nil] at hfrontBody
      obtain rfl | ⟨init', line, rfl⟩ := List.eq_nil_or_concat init
      · simp at hfrontBody
      · have hend := congrArg List.getLast? hfrontBody
        simp at hend
    · rw [List.concat_eq_append, ← List.append_assoc] at hfrontBody
      obtain ⟨-, hd⟩ := List.append_inj' hfrontBody rfl
      cases hd
      have hcrlf : hasCrlf ((body'.concat '\r').concat '\n') = true :=
        hasCrlf_iff.mpr ⟨body', [], by simp⟩
      have hnone : hasCrlf ((body'.concat '\r').concat '\n') = false := hwhole
      rw [hcrlf] at hnone
      cases hnone

/-- A file is read back from its text where the text's newline is its own. -/
theorem readLines_chars {file : DotenvLines} (h : file.Sound)
    (hdetect : detectNewline file.chars = file.newline) :
    readLines (some (String.ofList file.chars)) = file := by
  obtain ⟨newline, lines, trailing⟩ := file
  obtain ⟨hnewline, hlines, hwhole, hlast⟩ := h
  dsimp only at hnewline hlines hwhole hlast hdetect
  have hpos : newline ≠ [] := by
    rcases hnewline with rfl | rfl <;> simp
  obtain ⟨init, last, rfl⟩ := List.eq_nil_or_concat lines |>.resolve_left hlines
  rw [List.concat_eq_append] at *
  cases trailing with
  | true =>
      have hchars : DotenvLines.chars ⟨newline, init ++ [last], true⟩ =
          newline.intercalate (init ++ [last]) ++ newline := rfl
      have hne : DotenvLines.chars ⟨newline, init ++ [last], true⟩ ≠ [] := by
        rw [hchars]
        simp [hpos]
      have hsuffix : newline.isSuffixOf (DotenvLines.chars ⟨newline, init ++ [last], true⟩) :=
        List.isSuffixOf_iff_suffix.mpr ⟨_, hchars.symm⟩
      rw [readLines_ofList hne, hdetect, if_pos hsuffix, hsuffix, hchars, List.length_append,
        Nat.add_sub_cancel, List.take_left, splitLines_intercalate hnewline hwhole hlines]
  | false =>
      have hchars : DotenvLines.chars ⟨newline, init ++ [last], false⟩ =
          newline.intercalate (init ++ [last]) := List.append_nil _
      have hlastNe : last ≠ [] := by
        rintro rfl
        exact hlast rfl (by simp)
      have hne : DotenvLines.chars ⟨newline, init ++ [last], false⟩ ≠ [] := by
        rw [hchars, intercalate_concat]
        simp [hlastNe]
      have hsuffix : newline.isSuffixOf (DotenvLines.chars ⟨newline, init ++ [last], false⟩) =
          false := by
        rw [← Bool.not_eq_true, List.isSuffixOf_iff_suffix, hchars]
        exact not_suffix_of_last hnewline (hwhole last (by simp)) hlastNe
      rw [readLines_ofList hne, hdetect, hsuffix, hchars, if_neg (by simp),
        splitLines_intercalate hnewline hwhole hlines]

end Lines

/-! ## Assignments -/

/-- The shape of the keys a manifest may map: no equals sign and no blank, but for a last line
feed. -/
structure KeyShape (key : List Char) : Prop where
  head : ∃ c rest, key = c :: rest ∧ isSpace c = false
  noEquals : '=' ∉ key
  noReturn : '\r' ∉ key
  noBlank : ∀ c ∈ key.dropLast, isSpace c = false

/-- What may stand in front of a key: blanks, and `export` with blanks around it. -/
def AssignmentPrefix (before : List Char) : Prop :=
  ∃ blanks, (∀ c ∈ blanks, isSpace c) ∧ (before = blanks ∨
    ∃ more, more ≠ [] ∧ (∀ c ∈ more, isSpace c) ∧ before = blanks ++ "export".toList ++ more)

section Assignments

variable {key line before rest : List Char}

theorem matchRest_eq_some_iff {text : List Char} :
    matchRest text = some rest ↔ '\n' ∉ rest ∧ (text = rest ∨ text = rest ++ ['\n']) := by
  unfold matchRest
  by_cases hfeed : '\n' ∉ text
  · rw [if_pos hfeed, Option.some.injEq]
    constructor
    · rintro rfl
      exact ⟨hfeed, .inl rfl⟩
    · rintro ⟨-, rfl | rfl⟩
      · rfl
      · exact absurd (by simp) hfeed
  · rw [if_neg hfeed]
    by_cases hlast : text.getLast? = some '\n' ∧ '\n' ∉ text.dropLast
    · obtain ⟨init, rfl⟩ := List.getLast?_eq_some_iff.mp hlast.1
      rw [if_pos hlast, Option.some.injEq, List.dropLast_concat]
      have hinit : '\n' ∉ init := by simpa using hlast.2
      constructor
      · rintro rfl
        exact ⟨hinit, .inr rfl⟩
      · rintro ⟨hrest, rfl | heq⟩
        · exact absurd (by simp) hrest
        · exact (List.append_inj' heq rfl).1
    · rw [if_neg hlast]
      refine iff_of_false nofun ?_
      rintro ⟨hrest, rfl | rfl⟩
      · exact hfeed hrest
      · exact hlast ⟨by simp, by simpa using hrest⟩

theorem isPrefixOf?_eq_some_iff {text tail : List Char} :
    before.isPrefixOf? text = some tail ↔ text = before ++ tail := by
  induction before generalizing text with
  | nil => simp [List.isPrefixOf?, eq_comm]
  | cons c before ih =>
      cases text with
      | nil => simp [List.isPrefixOf?]
      | cons d text =>
          rw [List.isPrefixOf?]
          by_cases hsame : c = d
          · rw [if_pos (beq_iff_eq.mpr hsame), ih, hsame, List.cons_append, List.cons.injEq,
              and_iff_right rfl]
          · rw [if_neg (by simpa using hsame)]
            refine iff_of_false nofun ?_
            rintro heq
            cases heq
            exact hsame rfl

theorem matchKey_eq_some_iff {text : List Char} :
    matchKey key text = some rest ↔ '\n' ∉ rest ∧
      (text = key ++ '=' :: rest ∨ text = key ++ '=' :: rest ++ ['\n']) := by
  unfold matchKey
  rw [Option.bind_eq_some_iff]
  simp only [isPrefixOf?_eq_some_iff, matchRest_eq_some_iff]
  constructor
  · rintro ⟨tail, rfl, hrest, rfl | rfl⟩
    · exact ⟨hrest, .inl (by simp)⟩
    · exact ⟨hrest, .inr (by simp)⟩
  · rintro ⟨hrest, rfl | rfl⟩
    · exact ⟨rest, by simp, hrest, .inl rfl⟩
    · exact ⟨rest ++ ['\n'], by simp, hrest, .inr rfl⟩

/-- What the regular expression of a key matches. -/
def Matches (key line before rest : List Char) : Prop :=
  AssignmentPrefix before ∧ '\n' ∉ rest ∧
    (line = before ++ key ++ '=' :: rest ∨ line = before ++ key ++ '=' :: rest ++ ['\n'])

theorem matches_of_matchAssignment (h : matchAssignment key line = some (before, rest)) :
    Matches key line before rest := by
  have hblanks : ∀ c ∈ line.takeWhile isSpace, isSpace c := fun c hc =>
    List.all_eq_true.mp List.all_takeWhile c hc
  have hline : line = line.takeWhile isSpace ++ line.dropWhile isSpace :=
    List.takeWhile_append_dropWhile.symm
  have horElse {a b : Option (List Char × List Char)} {found : List Char × List Char}
      (hfound : (a.orElse fun _ => b) = some found) : a = some found ∨ b = some found := by
    cases a with
    | none => exact .inr hfound
    | some other => exact .inl hfound
  unfold matchAssignment at h
  dsimp only at h
  rcases horElse h with hexported | hplain
  · obtain ⟨tail, htail, hmatched⟩ := Option.bind_eq_some_iff.mp hexported
    have hbody := isPrefixOf?_eq_some_iff.mp htail
    split_ifs at hmatched with hmore
    obtain ⟨value, hvalue, heq⟩ := Option.map_eq_some_iff.mp hmatched
    cases heq
    obtain ⟨hfeed, hrest⟩ := matchKey_eq_some_iff.mp hvalue
    have htailSplit : tail = tail.takeWhile isSpace ++ tail.dropWhile isSpace :=
      List.takeWhile_append_dropWhile.symm
    refine ⟨⟨_, hblanks, .inr ⟨_, hmore, fun c hc =>
      List.all_eq_true.mp List.all_takeWhile c hc, rfl⟩⟩, hfeed, ?_⟩
    have hwhole : line = line.takeWhile isSpace ++ "export".toList ++ tail.takeWhile isSpace ++
        tail.dropWhile isSpace := by
      rw [List.append_assoc, ← htailSplit, List.append_assoc, ← hbody]
      exact hline
    rcases hrest with hrest | hrest
    · refine .inl ?_
      rw [hrest] at hwhole
      rw [List.append_assoc]
      exact hwhole
    · refine .inr ?_
      rw [hrest] at hwhole
      conv_lhs => rw [hwhole]
      simp
  · obtain ⟨value, hvalue, heq⟩ := Option.map_eq_some_iff.mp hplain
    cases heq
    obtain ⟨hfeed, hrest⟩ := matchKey_eq_some_iff.mp hvalue
    refine ⟨⟨_, hblanks, .inl rfl⟩, hfeed, ?_⟩
    rcases hrest with hrest | hrest
    · refine .inl ?_
      conv_lhs => rw [hline, hrest]
      simp
    · refine .inr ?_
      conv_lhs => rw [hline, hrest]
      simp

/-- A prefix is empty or ends with a blank, and has no equals sign. -/
theorem AssignmentPrefix.last (h : AssignmentPrefix before) :
    ∀ c ∈ before.getLast?, isSpace c := by
  obtain ⟨blanks, hblanks, rfl | ⟨more, hne, hmore, rfl⟩⟩ := h
  · exact fun c hc => hblanks c (List.mem_of_getLast? hc)
  · intro c hc
    obtain ⟨init, last, rfl⟩ := List.eq_nil_or_concat more |>.resolve_left hne
    simp only [List.concat_eq_append, ← List.append_assoc, List.getLast?_concat,
      Option.mem_some_iff] at hc
    subst hc
    exact hmore last (by simp)

theorem not_isSpace_equals : isSpace '=' = false := by decide

theorem AssignmentPrefix.noEquals (h : AssignmentPrefix before) : '=' ∉ before := by
  have hblank {blanks : List Char} (hblanks : ∀ c ∈ blanks, isSpace c) : '=' ∉ blanks := by
    intro hmem
    have hspace := hblanks _ hmem
    rw [not_isSpace_equals] at hspace
    cases hspace
  obtain ⟨blanks, hblanks, rfl | ⟨more, -, hmore, rfl⟩⟩ := h
  · exact hblank hblanks
  · simp only [List.mem_append, not_or]
    exact ⟨⟨hblank hblanks, by decide⟩, hblank hmore⟩

/-- What stands in front of the first equals sign. -/
theorem takeWhile_equals {front tail : List Char} (h : '=' ∉ front) :
    (front ++ '=' :: tail).takeWhile (· ≠ '=') = front := by
  rw [List.takeWhile_append_of_pos]
  · simp
  · intro c hc
    apply decide_eq_true
    rintro rfl
    exact h hc

theorem Matches.front (h : Matches key line before rest) (hkey : '=' ∉ key) :
    line.takeWhile (· ≠ '=') = before ++ key := by
  have hfront : '=' ∉ before ++ key := by
    rw [List.mem_append, not_or]
    exact ⟨h.1.noEquals, hkey⟩
  rcases h.2.2 with rfl | rfl
  · exact takeWhile_equals hfront
  · rw [List.append_assoc, List.cons_append]
    exact takeWhile_equals hfront

/-- A line assigns one key at most, and in one way. -/
theorem Matches.unique {key' before' rest' : List Char} (h : Matches key line before rest)
    (h' : Matches key' line before' rest') (hkey : KeyShape key) (hkey' : KeyShape key') :
    key = key' ∧ before = before' := by
  have hfronts : before ++ key = before' ++ key' :=
    (h.front hkey.noEquals).symm.trans (h'.front hkey'.noEquals)
  -- The longer prefix would end with a blank inside the other key.
  have hcross {p p' k k' : List Char} (hp' : AssignmentPrefix p') (hk : KeyShape k)
      (hk' : KeyShape k') {d : List Char} (hd : p' = p ++ d) (hkd : k = d ++ k') : d = [] := by
    by_contra hne
    obtain ⟨init, last, rfl⟩ := List.eq_nil_or_concat d |>.resolve_left hne
    have hspace := hp'.last last (by simp [hd])
    obtain ⟨c, tail, hc, -⟩ := hk'.head
    have hmem : last ∈ k.dropLast := by
      rw [hkd, List.dropLast_append_of_ne_nil (by simp [hc])]
      simp
    rw [hk.noBlank last hmem] at hspace
    cases hspace
  rcases List.append_eq_append_iff.mp hfronts with ⟨d, hd, hkd⟩ | ⟨d, hd, hkd⟩
  · have hnil := hcross h'.1 hkey hkey' hd hkd
    subst hnil
    exact ⟨hkd, by simpa using hd.symm⟩
  · have hnil := hcross h.1 hkey' hkey hd hkd
    subst hnil
    exact ⟨hkd.symm, by simpa using hd⟩

theorem Matches.rest_unique {rest' : List Char} (h : Matches key line before rest)
    (h' : Matches key line before rest') : rest = rest' := by
  have hfeed {value : List Char} (hvalue : '\n' ∉ value) {other : List Char} :
      value ≠ other ++ ['\n'] := by
    rintro rfl
    exact hvalue (by simp)
  obtain ⟨-, hrest, hline⟩ := h
  obtain ⟨-, hrest', hline'⟩ := h'
  rcases hline with hline | hline <;> rcases hline' with hline' | hline' <;>
    rw [hline] at hline' <;>
    simp only [List.append_assoc, List.append_cancel_left_eq, List.cons_append, List.cons.injEq,
      true_and, List.append_cancel_right_eq] at hline'
  · exact hline'
  · exact absurd hline' (hfeed hrest)
  · exact absurd hline'.symm (hfeed hrest')
  · exact hline'

/-- What stands in front of a character that is no blank. -/
theorem takeWhile_isSpace {blanks tail : List Char} (hblanks : ∀ c ∈ blanks, isSpace c)
    (htail : ∃ c rest, tail = c :: rest ∧ isSpace c = false) :
    (blanks ++ tail).takeWhile isSpace = blanks ∧ (blanks ++ tail).dropWhile isSpace = tail := by
  obtain ⟨c, rest, rfl, hc⟩ := htail
  rw [List.takeWhile_append_of_pos hblanks, List.dropWhile_append_of_pos hblanks,
    List.takeWhile_cons_of_neg (by simp [hc]), List.dropWhile_cons_of_neg (by simp [hc]),
    List.append_nil]
  exact ⟨rfl, rfl⟩

/-- The regular expression finds every way in which a line assigns the key. -/
theorem matchAssignment_of_matches (h : Matches key line before rest) (hkey : KeyShape key) :
    matchAssignment key line = some (before, rest) := by
  obtain ⟨⟨blanks, hblanks, hbefore⟩, hrest, hline⟩ := id h
  obtain ⟨c, keyRest, hhead, hc⟩ := hkey.head
  obtain ⟨tail, hwhole, htail⟩ : ∃ tail, line = before ++ (key ++ '=' :: tail) ∧
      (tail = rest ∨ tail = rest ++ ['\n']) := by
    rcases hline with rfl | rfl
    · exact ⟨rest, by simp, .inl rfl⟩
    · exact ⟨rest ++ ['\n'], by simp, .inr rfl⟩
  have hvalue : matchKey key (key ++ '=' :: tail) = some rest := by
    refine matchKey_eq_some_iff.mpr ⟨hrest, ?_⟩
    rcases htail with rfl | rfl
    · exact .inl rfl
    · exact .inr (by simp)
  have hkeyHead : ∃ d more, key ++ '=' :: tail = d :: more ∧ isSpace d = false :=
    ⟨c, keyRest ++ '=' :: tail, by rw [hhead]; rfl, hc⟩
  have hfound : (matchAssignment key line).isSome := by
    unfold matchAssignment
    dsimp only
    rcases hbefore with rfl | ⟨more, hmoreNe, hmore, rfl⟩
    · obtain ⟨-, hdrop⟩ := takeWhile_isSpace hblanks hkeyHead
      rw [hwhole, hdrop, hvalue]
      have hsome (first : Option (List Char × List Char)) (second : List Char × List Char) :
          (first.orElse fun _ => some second).isSome := by cases first <;> rfl
      exact hsome _ _
    · rw [List.append_assoc, List.append_assoc] at hwhole
      have hword : ∃ d others, "export".toList ++ (more ++ (key ++ '=' :: tail)) = d :: others ∧
          isSpace d = false := ⟨'e', _, rfl, by decide⟩
      obtain ⟨-, hdrop⟩ := takeWhile_isSpace hblanks hword
      obtain ⟨htake, hdrop'⟩ := takeWhile_isSpace hmore hkeyHead
      rw [hwhole, hdrop, isPrefixOf?_eq_some_iff.mpr rfl, Option.bind_some]
      simp only [htake, hdrop', hmoreNe, if_false, hvalue]
      simp
  obtain ⟨⟨before', rest'⟩, heq⟩ := Option.isSome_iff_exists.mp hfound
  have h' := matches_of_matchAssignment heq
  obtain ⟨-, rfl⟩ := h.unique h' hkey hkey
  rw [heq, h.rest_unique h']

/-- A character of a key is neither a blank nor an equals sign. -/
theorem not_isSpace_of_keyChar {c : Char} (h : isKeyStart c || ('0' ≤ c && c ≤ '9')) :
    isSpace c = false ∧ c ≠ '=' := by
  have hbounds : 48 ≤ c.toNat ∧ c.toNat ≤ 122 ∧ c.toNat ≠ 61 := by
    simp only [isKeyStart, Bool.or_eq_true, Bool.and_eq_true, decide_eq_true_eq] at h
    have hle (a b : Char) : a ≤ b ↔ a.toNat ≤ b.toNat := Iff.rfl
    simp only [hle] at h
    rcases h with ((⟨hlow, hhigh⟩ | ⟨hlow, hhigh⟩) | rfl) | ⟨hlow, hhigh⟩
    · change 65 ≤ _ at hlow
      change _ ≤ 90 at hhigh
      omega
    · change 97 ≤ _ at hlow
      change _ ≤ 122 at hhigh
      omega
    · decide
    · change 48 ≤ _ at hlow
      change _ ≤ 57 at hhigh
      omega
  constructor
  · apply decide_eq_false
    intro hmem
    simp only [spaceCodes, List.mem_cons, List.not_mem_nil, or_false] at hmem
    omega
  · rintro rfl
    exact hbounds.2.2 rfl

/-- The keys that a manifest's dotenv mapping may have. -/
theorem keyShape_of_isEnvKey {name : String} (h : isEnvKey name) : KeyShape name.toList := by
  obtain ⟨word, hword, htext⟩ : ∃ word, (∃ c more, word = c :: more ∧
      ∀ d ∈ word, isSpace d = false ∧ d ≠ '=') ∧
      (name.toList = word ∨ name.toList = word ++ ['\n']) := by
    unfold isEnvKey at h
    generalize hword : (if name.toList.getLast? = some '\n' then name.toList.dropLast
      else name.toList) = word at h
    refine ⟨word, ?_, ?_⟩
    · cases word with
      | nil => cases h
      | cons first rest =>
          obtain ⟨hfirst, hrest⟩ := Bool.and_eq_true_iff.mp h
          refine ⟨first, rest, rfl, fun d hd => ?_⟩
          rcases List.mem_cons.mp hd with rfl | hmem
          · exact not_isSpace_of_keyChar (by simp [hfirst])
          · exact not_isSpace_of_keyChar (List.all_eq_true.mp hrest d hmem)
    · by_cases hlast : name.toList.getLast? = some '\n'
      · obtain ⟨init, hinit⟩ := List.getLast?_eq_some_iff.mp hlast
        rw [if_pos hlast, hinit, List.dropLast_concat] at hword
        exact .inr (hword ▸ hinit)
      · rw [if_neg hlast] at hword
        exact .inl hword
  obtain ⟨⟨c, more, rfl, hall⟩, htext⟩ := And.intro hword htext
  have hc := (hall c List.mem_cons_self).1
  have hreturn : '\r' ∉ c :: more := fun hmem => absurd (hall _ hmem).1 (by decide)
  rcases htext with htext | htext <;> rw [htext]
  · exact ⟨⟨c, more, rfl, hc⟩, fun hmem => (hall _ hmem).2 rfl, hreturn,
      fun d hd => (hall d (List.dropLast_subset _ hd)).1⟩
  · refine ⟨⟨c, more ++ ['\n'], rfl, hc⟩, ?_, ?_, fun d hd => ?_⟩
    · rw [List.mem_append, not_or]
      exact ⟨fun hmem => (hall _ hmem).2 rfl, by decide⟩
    · rw [List.mem_append, not_or]
      exact ⟨hreturn, by decide⟩
    · rw [List.dropLast_concat] at hd
      exact (hall d hd).1

end Assignments

/-! ## Rewritten lines -/

/-- A port's text. -/
def IsDecimal (value : List Char) : Prop := value ≠ [] ∧ ∀ c ∈ value, '0' ≤ c ∧ c ≤ '9'

/-- What follows the new value. -/
def commentSuffix (rest : List Char) : List Char :=
  if (splitValueAndComment false false rest).2 = [] then []
  else [' ', ' '] ++ (splitValueAndComment false false rest).2

section Rewritten

variable {key before rest value : List Char}

theorem rewrittenLine_eq : rewrittenLine before key value rest =
    before ++ key ++ '=' :: (value ++ commentSuffix rest) := by
  unfold rewrittenLine commentSuffix
  simp only [List.append_assoc, List.cons_append, List.nil_append]

/-- A value and its comment are the text they were split from, and a comment starts at a `#`. -/
theorem splitValueAndComment_spec (inSingle inDouble : Bool) (text : List Char) :
    (splitValueAndComment inSingle inDouble text).1 ++
        (splitValueAndComment inSingle inDouble text).2 = text ∧
      ((splitValueAndComment inSingle inDouble text).2 = [] ∨
        ∃ tail, (splitValueAndComment inSingle inDouble text).2 = '#' :: tail) := by
  fun_induction splitValueAndComment inSingle inDouble text with
  | case1 => exact ⟨rfl, .inl rfl⟩
  | case2 inSingle inDouble c rest hquote parts ih =>
      exact ⟨congrArg (c :: ·) ih.1, ih.2⟩
  | case3 inSingle inDouble c rest hsingle hquote parts ih =>
      exact ⟨congrArg (c :: ·) ih.1, ih.2⟩
  | case4 inSingle inDouble c rest hsingle hdouble hhash =>
      obtain ⟨rfl, -⟩ := hhash
      exact ⟨rfl, .inr ⟨rest, rfl⟩⟩
  | case5 inSingle inDouble c rest hsingle hdouble hhash parts ih =>
      exact ⟨congrArg (c :: ·) ih.1, ih.2⟩

/-- A text without quotes and `#` is a value, up to a comment. -/
theorem splitValueAndComment_plain {plain comment : List Char}
    (hplain : ∀ c ∈ plain, c ≠ '\'' ∧ c ≠ '"' ∧ c ≠ '#')
    (hcomment : comment = [] ∨ ∃ tail, comment = '#' :: tail) :
    splitValueAndComment false false (plain ++ comment) = (plain, comment) := by
  induction plain with
  | nil =>
      rcases hcomment with rfl | ⟨tail, rfl⟩
      · rfl
      · rfl
  | cons c plain ih =>
      obtain ⟨hsingle, hdouble, hhash⟩ := hplain c List.mem_cons_self
      have hrest := ih fun d hd => hplain d (List.mem_cons_of_mem _ hd)
      rw [List.cons_append, splitValueAndComment]
      simp [hsingle, hdouble, hhash, hrest]

theorem IsDecimal.plain (h : IsDecimal value) :
    ∀ c ∈ value, isSpace c = false ∧ c ≠ '\'' ∧ c ≠ '"' ∧ c ≠ '#' := by
  intro c hc
  obtain ⟨hlow, hhigh⟩ := h.2 c hc
  have hkeyChar : isKeyStart c || ('0' ≤ c && c ≤ '9') := by simp [hlow, hhigh]
  refine ⟨(not_isSpace_of_keyChar hkeyChar).1, ?_, ?_, ?_⟩ <;>
    · rintro rfl
      exact absurd hlow (by decide)

theorem IsDecimal.noFeed (h : IsDecimal value) : '\n' ∉ value := by
  intro hmem
  have hspace := (h.plain _ hmem).1
  exact absurd hspace (by decide)

/-- `strip` takes away blanks behind a value without any. -/
theorem stripChars_append {blanks : List Char} (hne : value ≠ [])
    (hvalue : ∀ c ∈ value, isSpace c = false) (hblanks : ∀ c ∈ blanks, isSpace c) :
    stripChars (value ++ blanks) = value := by
  obtain ⟨c, more, rfl⟩ := List.exists_cons_of_ne_nil hne
  have hlead : ((c :: more) ++ blanks).dropWhile isSpace = (c :: more) ++ blanks := by
    rw [List.cons_append, List.dropWhile_cons_of_neg]
    rw [hvalue c List.mem_cons_self]
    exact Bool.false_ne_true
  have hend : ((c :: more) ++ blanks).reverse.dropWhile isSpace = (c :: more).reverse := by
    rw [List.reverse_append, List.dropWhile_append_of_pos fun d hd =>
      hblanks d (List.mem_reverse.mp hd)]
    cases hreverse : (c :: more).reverse with
    | nil => rfl
    | cons d tail =>
        have hmem : d ∈ c :: more := List.mem_reverse.mp (by simp [hreverse])
        rw [List.dropWhile_cons_of_neg]
        rw [hvalue d hmem]
        exact Bool.false_ne_true
  rw [stripChars, hlead, hend, List.reverse_reverse]

/-- A new value and its comment are split again, and the value is read as it was written. -/
theorem splitValueAndComment_written (hvalue : IsDecimal value) (rest : List Char) :
    (splitValueAndComment false false (value ++ commentSuffix rest)).2 =
        (splitValueAndComment false false rest).2 ∧
      stripChars (splitValueAndComment false false (value ++ commentSuffix rest)).1 = value := by
  have hchars := hvalue.plain
  have hspaces : ∀ c ∈ [' ', ' '], isSpace c = true ∧ c ≠ '\'' ∧ c ≠ '"' ∧ c ≠ '#' := by
    intro c hc
    simp only [List.mem_cons, List.not_mem_nil, or_false, or_self] at hc
    subst hc
    decide
  obtain ⟨-, hshape⟩ := splitValueAndComment_spec false false rest
  unfold commentSuffix
  by_cases hcomment : (splitValueAndComment false false rest).2 = []
  · have hplain := @splitValueAndComment_plain value [] (fun c hc => (hchars c hc).2) (.inl rfl)
    rw [if_pos hcomment, hplain, hcomment]
    have hstrip := @stripChars_append value [] hvalue.1 (fun c hc => (hchars c hc).1) nofun
    rw [List.append_nil] at hstrip
    exact ⟨rfl, hstrip⟩
  · have hpadded : ∀ c ∈ value ++ [' ', ' '], c ≠ '\'' ∧ c ≠ '"' ∧ c ≠ '#' := by
      intro c hc
      rcases List.mem_append.mp hc with hmem | hmem
      · exact (hchars c hmem).2
      · exact (hspaces c hmem).2
    have hplain := splitValueAndComment_plain hpadded hshape
    rw [if_neg hcomment, ← List.append_assoc, hplain]
    exact ⟨rfl, stripChars_append hvalue.1 (fun c hc => (hchars c hc).1)
      fun c hc => (hspaces c hc).1⟩

theorem commentSuffix_noFeed (hrest : '\n' ∉ rest) : '\n' ∉ commentSuffix rest := by
  unfold commentSuffix
  split_ifs with hcomment
  · exact List.not_mem_nil
  · intro hmem
    have hcommentMem : '\n' ∈ (splitValueAndComment false false rest).2 := by simpa using hmem
    apply hrest
    rw [← (splitValueAndComment_spec false false rest).1]
    exact List.mem_append_right _ hcommentMem

/-- A rewritten line assigns the key, with the new value and the old comment. -/
theorem matches_rewrittenLine (hbefore : AssignmentPrefix before) (hrest : '\n' ∉ rest)
    (hvalue : IsDecimal value) :
    Matches key (rewrittenLine before key value rest) before (value ++ commentSuffix rest) := by
  refine ⟨hbefore, ?_, .inl rewrittenLine_eq⟩
  rw [List.mem_append, not_or]
  exact ⟨hvalue.noFeed, commentSuffix_noFeed hrest⟩

/-- Rewriting a rewritten line changes nothing. -/
theorem rewrittenLine_again (hvalue : IsDecimal value) :
    rewrittenLine before key value (value ++ commentSuffix rest) =
      rewrittenLine before key value rest := by
  have hcomment : commentSuffix (value ++ commentSuffix rest) = commentSuffix rest := by
    rw [commentSuffix, (splitValueAndComment_written hvalue rest).1]
    rfl
  rw [rewrittenLine_eq, rewrittenLine_eq, hcomment]

end Rewritten

/-! ## The update -/

/-- The line assigns the key. -/
def assigns (key : String) (line : List Char) : Bool := (matchAssignment key.toList line).isSome

theorem assigns_of_match {key : String} {line : List Char} {found : List Char × List Char}
    (h : matchAssignment key.toList line = some found) : assigns key line = true := by
  rw [assigns, h]
  rfl

/-- The line with the entry's value. -/
def rewriteBy (entry : String × String) (line : List Char) : List Char :=
  match matchAssignment entry.1.toList line with
  | none => line
  | some (before, rest) => rewrittenLine before entry.1.toList entry.2.toList rest

/-- The line with the value of the entry that it assigns, if it assigns one. -/
def edited (mapping : List (String × String)) (line : List Char) : List Char :=
  match mapping.find? fun entry => assigns entry.1 line with
  | none => line
  | some entry => rewriteBy entry line

/-- The line that is appended for an entry. -/
def appendedLine (entry : String × String) : List Char :=
  entry.1.toList ++ ['='] ++ entry.2.toList

/-- The lines that are appended: those of the entries that no line assigns. -/
def appendedLines (mapping : List (String × String)) (lines : List (List Char)) :
    List (List Char) :=
  (mapping.filter fun entry => ¬ lines.any (assigns entry.1)).map appendedLine

/-- The value a line assigns, as the change list reports it. -/
def oldValue (rest : List Char) : String :=
  String.ofList (stripChars (splitValueAndComment false false rest).1)

/-- The change that an entry makes. -/
def changeOf (lines : List (List Char)) (entry : String × String) : Option DotenvChange :=
  match lines.findSome? (matchAssignment entry.1.toList) with
  | none => some ⟨entry.1, none, entry.2, .append⟩
  | some (_, rest) =>
      if oldValue rest ≠ entry.2 then some ⟨entry.1, some (oldValue rest), entry.2, .update⟩
      else none

/-- A mapping of environment variable names to ports, as a plan makes it of a manifest. -/
structure IsMapping (mapping : List (String × String)) : Prop where
  keys : (mapping.map Prod.fst).Nodup
  names : ∀ entry ∈ mapping, isEnvKey entry.1
  values : ∀ entry ∈ mapping, IsDecimal entry.2.toList

section Update

variable {mapping : List (String × String)} {lines : List (List Char)} {line : List Char}
  {entry : String × String} {key : String}

theorem mem_occurrences_iff {index : ℕ} :
    index ∈ occurrences key lines ↔ ∃ h : index < lines.length, assigns key lines[index] := by
  unfold occurrences
  rw [List.mem_map]
  constructor
  · rintro ⟨⟨line, other⟩, hmem, rfl⟩
    obtain ⟨hzip, hassigns⟩ := List.mem_filter.mp hmem
    obtain ⟨hlt, hline⟩ := List.mem_zipIdx' hzip
    exact ⟨hlt, by rw [← hline]; exact hassigns⟩
  · rintro ⟨hlt, hassigns⟩
    refine ⟨(lines[index], index), List.mem_filter.mpr ⟨?_, hassigns⟩, rfl⟩
    exact List.mk_mem_zipIdx_iff_getElem?.mpr (List.getElem?_eq_getElem hlt)

theorem occurrences_eq_nil_iff : occurrences key lines = [] ↔ lines.any (assigns key) = false := by
  rw [List.eq_nil_iff_forall_not_mem, ← Bool.not_eq_true, List.any_eq_true]
  constructor
  · rintro hnone ⟨line, hline, hassigns⟩
    obtain ⟨index, hlt, rfl⟩ := List.getElem_of_mem hline
    exact hnone index (mem_occurrences_iff.mpr ⟨hlt, hassigns⟩)
  · intro hnone index hindex
    obtain ⟨hlt, hassigns⟩ := mem_occurrences_iff.mp hindex
    exact hnone ⟨_, List.getElem_mem hlt, hassigns⟩

/-- A line assigns one entry of a mapping at most. -/
theorem IsMapping.unique (hmapping : IsMapping mapping) {entry' : String × String}
    (hentry : entry ∈ mapping) (hentry' : entry' ∈ mapping) (h : assigns entry.1 line)
    (h' : assigns entry'.1 line) : entry = entry' := by
  obtain ⟨⟨before, rest⟩, hmatch⟩ := Option.isSome_iff_exists.mp h
  obtain ⟨⟨before', rest'⟩, hmatch'⟩ := Option.isSome_iff_exists.mp h'
  obtain ⟨hkey, -⟩ := (matches_of_matchAssignment hmatch).unique
    (matches_of_matchAssignment hmatch') (keyShape_of_isEnvKey (hmapping.names entry hentry))
    (keyShape_of_isEnvKey (hmapping.names entry' hentry'))
  exact List.inj_on_of_nodup_map hmapping.keys hentry hentry' (String.toList_inj.mp hkey)

/-- What the loop of the editor has made of the lines after some entries. -/
def afterEntries (mapping : List (String × String)) (lines : List (List Char)) :
    List (List Char) × List DotenvChange × Bool :=
  (lines.map (edited mapping) ++ appendedLines mapping lines,
    mapping.filterMap (changeOf lines), appendedLines mapping lines ≠ [])

theorem edited_of_assigns (hmem : entry ∈ mapping) (hassigns : assigns entry.1 line)
    (honly : ∀ other ∈ mapping, assigns other.1 line → other = entry) :
    edited mapping line = rewriteBy entry line := by
  have hsome : (mapping.find? fun other => assigns other.1 line).isSome :=
    List.find?_isSome.mpr ⟨entry, hmem, hassigns⟩
  obtain ⟨other, hother⟩ := Option.isSome_iff_exists.mp hsome
  have hassignsOther := List.find?_some hother
  unfold edited
  rw [hother, honly other (List.mem_of_find?_eq_some hother) hassignsOther]

theorem edited_of_not (hnone : ∀ other ∈ mapping, ¬ assigns other.1 line) :
    edited mapping line = line := by
  unfold edited
  rw [List.find?_eq_none.mpr hnone]

theorem edited_concat_of_not (hnot : ¬ assigns entry.1 line) :
    edited (mapping ++ [entry]) line = edited mapping line := by
  have hnone : ([entry].find? fun other => assigns other.1 line) = none := by simp [hnot]
  unfold edited
  rw [List.find?_append, hnone, Option.or_none]

/-- An entry that one line assigns rewrites that line. -/
theorem map_edited_concat {index : ℕ} (hlt : index < lines.length)
    (hassigns : assigns entry.1 lines[index])
    (honly : ∀ other (h : other < lines.length), assigns entry.1 lines[other] → other = index)
    (hothers : ∀ other ∈ mapping, ¬ assigns other.1 lines[index]) :
    lines.map (edited (mapping ++ [entry])) =
      (lines.map (edited mapping)).set index (rewriteBy entry lines[index]) := by
  apply List.ext_getElem
  · simp
  · intro other hother _
    rw [List.length_map] at hother
    rw [List.getElem_map, List.getElem_set]
    split_ifs with hindex
    · subst hindex
      apply edited_of_assigns (by simp) hassigns
      intro other hmem h
      rcases List.mem_append.mp hmem with hmem | hmem
      · exact absurd h (hothers other hmem)
      · exact List.mem_singleton.mp hmem
    · rw [List.getElem_map]
      exact edited_concat_of_not fun h => hindex (honly other hother h).symm

/-- An entry that no line assigns rewrites none. -/
theorem map_edited_concat_of_not (hnone : lines.any (assigns entry.1) = false) :
    lines.map (edited (mapping ++ [entry])) = lines.map (edited mapping) := by
  apply List.map_congr_left
  intro line hline
  apply edited_concat_of_not
  intro h
  rw [← Bool.not_eq_true, List.any_eq_true] at hnone
  exact hnone ⟨line, hline, h⟩

/-- The first line that assigns a key, and how. -/
theorem findSome?_matchAssignment {index : ℕ} (hlt : index < lines.length)
    (hassigns : assigns key lines[index])
    (honly : ∀ other (h : other < lines.length), assigns key lines[other] → other = index) :
    lines.findSome? (matchAssignment key.toList) = matchAssignment key.toList lines[index] := by
  cases hfind : lines.findSome? (matchAssignment key.toList) with
  | none =>
      have hnone := List.findSome?_eq_none_iff.mp hfind _ (List.getElem_mem hlt)
      exact hnone.symm
  | some found =>
      obtain ⟨line, hline, hmatch⟩ := List.exists_of_findSome?_eq_some hfind
      obtain ⟨other, hother, rfl⟩ := List.getElem_of_mem hline
      have hsome := assigns_of_match hmatch
      obtain rfl := honly other hother hsome
      exact hmatch.symm

theorem appendedLines_concat (mapping : List (String × String)) (entry : String × String)
    (lines : List (List Char)) : appendedLines (mapping ++ [entry]) lines =
      appendedLines mapping lines ++
        if lines.any (assigns entry.1) then [] else [appendedLine entry] := by
  rw [appendedLines, List.filter_append, List.map_append, ← appendedLines]
  congr 1
  by_cases hany : lines.any (assigns entry.1) = true
  · rw [if_pos hany, List.filter_cons_of_neg (by rw [hany]; decide)]
    rfl
  · rw [if_neg hany, List.filter_cons, if_pos (decide_eq_true hany)]
    rfl

/-- One entry of the loop. -/
theorem updateKey_afterEntries (hmapping : IsMapping (mapping ++ [entry]))
    (hsingle : (occurrences entry.1 lines).length ≤ 1) :
    updateKey lines (afterEntries mapping lines) entry =
      afterEntries (mapping ++ [entry]) lines := by
  unfold updateKey afterEntries
  dsimp only
  cases hoccurrences : occurrences entry.1 lines with
  | nil =>
      have hnone := occurrences_eq_nil_iff.mp hoccurrences
      have hfind : lines.findSome? (matchAssignment entry.1.toList) = none := by
        apply List.findSome?_eq_none_iff.mpr
        intro line hline
        rw [← Bool.not_eq_true, List.any_eq_true] at hnone
        cases hmatch : matchAssignment entry.1.toList line with
        | none => rfl
        | some found => exact absurd ⟨line, hline, assigns_of_match hmatch⟩ hnone
      have happended : appendedLines (mapping ++ [entry]) lines =
          appendedLines mapping lines ++ [appendedLine entry] := by
        rw [appendedLines_concat, hnone]
        rfl
      have hchange : changeOf lines entry = some ⟨entry.1, none, entry.2, .append⟩ := by
        rw [changeOf, hfind]
      rw [map_edited_concat_of_not hnone, happended, List.filterMap_append, List.append_assoc]
      simp [hchange, appendedLine]
  | cons index others =>
      have hnil : others = [] := by
        rw [hoccurrences, List.length_cons] at hsingle
        exact List.eq_nil_of_length_eq_zero (by omega)
      subst hnil
      have hindex : index ∈ occurrences entry.1 lines := by simp [hoccurrences]
      obtain ⟨hlt, hassigns⟩ := mem_occurrences_iff.mp hindex
      have honly : ∀ other (h : other < lines.length), assigns entry.1 lines[other] →
          other = index := by
        intro other hother h
        have hmem := mem_occurrences_iff.mpr ⟨hother, h⟩
        rw [hoccurrences] at hmem
        exact List.mem_singleton.mp hmem
      have hothers : ∀ other ∈ mapping, ¬ assigns other.1 lines[index] := by
        intro other hmem h
        have hsame := hmapping.unique (List.mem_append_left _ hmem)
          (List.mem_append_right _ (List.mem_singleton_self entry)) h hassigns
        have hkeys := hmapping.keys
        rw [List.map_append, List.nodup_append] at hkeys
        exact hkeys.2.2 _ (List.mem_map_of_mem hmem) entry.1 (by simp) (by rw [hsame])
      have hany : lines.any (assigns entry.1) = true :=
        List.any_eq_true.mpr ⟨_, List.getElem_mem hlt, hassigns⟩
      have happended : appendedLines (mapping ++ [entry]) lines = appendedLines mapping lines := by
        rw [appendedLines_concat, if_pos hany, List.append_nil]
      obtain ⟨⟨before, rest⟩, hmatch⟩ := Option.isSome_iff_exists.mp hassigns
      have hrewrite : rewriteBy entry lines[index] =
          rewrittenLine before entry.1.toList entry.2.toList rest := by
        rw [rewriteBy, hmatch]
      have hgetD : lines.getD index [] = lines[index] := by simp [hlt]
      have hchange : changeOf lines entry = if oldValue rest ≠ entry.2 then
          some ⟨entry.1, some (oldValue rest), entry.2, .update⟩ else none := by
        rw [changeOf, findSome?_matchAssignment hlt hassigns honly, hmatch]
      rw [map_edited_concat hlt hassigns honly hothers, happended, List.filterMap_append]
      dsimp only
      rw [hgetD, hmatch, hrewrite]
      dsimp only
      rw [List.set_append_left _ _ (by simpa using hlt)]
      by_cases hold : oldValue rest = entry.2
      · have hnone : changeOf lines entry = none := by simp [hchange, hold]
        have hsame : String.ofList (stripChars (splitValueAndComment false false rest).1) =
          entry.2 := hold
        simp [hnone, hsame]
      · have hsome : changeOf lines entry =
            some ⟨entry.1, some (oldValue rest), entry.2, .update⟩ := by simp [hchange, hold]
        have hdiffers : String.ofList (stripChars (splitValueAndComment false false rest).1) ≠
          entry.2 := hold
        simp [hsome, hdiffers, oldValue]

/-- What the loop of the editor makes of the lines. -/
theorem foldl_updateKey (hmapping : IsMapping mapping)
    (hsingle : ∀ entry ∈ mapping, (occurrences entry.1 lines).length ≤ 1) :
    mapping.foldl (updateKey lines) (lines, [], false) = afterEntries mapping lines := by
  induction mapping using List.reverseRecOn with
  | nil =>
      have hmap : lines.map (edited []) = lines := by
        conv_rhs => rw [← List.map_id lines]
        rfl
      simp [afterEntries, appendedLines, hmap]
  | append_singleton mapping entry ih =>
      have hprefix : IsMapping mapping :=
        ⟨(List.nodup_append.mp (List.map_append ▸ hmapping.keys)).1,
          fun other hother => hmapping.names other (List.mem_append_left _ hother),
          fun other hother => hmapping.values other (List.mem_append_left _ hother)⟩
      rw [List.foldl_append, List.foldl_cons, List.foldl_nil, ih hprefix fun other hother =>
        hsingle other (List.mem_append_left _ hother)]
      exact updateKey_afterEntries hmapping (hsingle entry (by simp))

/-- The editor succeeds where no key is assigned twice, and then rewrites and appends lines. -/
theorem computeDotenvUpdate_eq_ok_iff {original : Option String} (hmapping : IsMapping mapping)
    {result : String × List DotenvChange} :
    computeDotenvUpdate original mapping = .ok result ↔
      (∀ entry ∈ mapping, (occurrences entry.1 (readLines original).lines).length ≤ 1) ∧
      result = (DotenvLines.text ⟨(readLines original).newline,
          (readLines original).lines.map (edited mapping) ++
            appendedLines mapping (readLines original).lines,
          appendedLines mapping (readLines original).lines ≠ [] || (readLines original).trailing⟩,
        mapping.filterMap (changeOf (readLines original).lines)) := by
  have hduplicates : duplicateKeys (readLines original).lines mapping = [] ↔
      ∀ entry ∈ mapping, (occurrences entry.1 (readLines original).lines).length ≤ 1 := by
    rw [duplicateKeys, List.filter_eq_nil_iff, List.forall_mem_map]
    simp
  unfold computeDotenvUpdate
  dsimp only
  by_cases hnone : duplicateKeys (readLines original).lines mapping = []
  · have hsingle := hduplicates.mp hnone
    rw [if_neg (not_not.mpr hnone), foldl_updateKey hmapping hsingle]
    simp only [afterEntries, Except.ok.injEq, and_iff_right hsingle]
    exact eq_comm
  · rw [if_pos hnone]
    exact iff_of_false nofun fun h => hnone (hduplicates.mpr h.1)

end Update

end Agent
