/-
# Allocations as environment variables

`--format env` prints a line `NAME_PORT=value` for each entry of an allocation. The variable is
named after the words of the entry's name, that is its runs of letters and digits, joined by
underscores and in capitals; a name without words counts as `PORT`. So entries share a variable
exactly where their names have the same words, and then a port is lost.
-/

import PortForge.Central.AllocationSchema
import Mathlib.Data.List.Perm.Subperm
import Mathlib.Data.List.TakeDrop
import Mathlib.Tactic.Common

namespace Agent

/-! ## The source -/

/-- The characters of `[A-Za-z0-9]`. -/
def isPlain (c : Char) : Bool :=
  ('A' ≤ c && c ≤ 'Z') || ('a' ≤ c && c ≤ 'z') || ('0' ≤ c && c ≤ '9')

/-- `re.sub(r"[^A-Za-z0-9]+", "_", name)`; `inRun` says that the underscore of the current run is
written. -/
def collapse (inRun : Bool) : List Char → List Char
  | [] => []
  | c :: rest =>
      if isPlain c then c :: collapse false rest
      else if inRun then collapse true rest
      else '_' :: collapse true rest

/-- `.strip("_")`. -/
def stripUnderscores (text : List Char) : List Char :=
  ((text.dropWhile (· = '_')).reverse.dropWhile (· = '_')).reverse

/-- `_env_var_name`. -/
def envVarName (name : String) : List Char :=
  let safe := (stripUnderscores (collapse false name.toList)).map Char.toUpper
  (if safe = [] then "PORT".toList else safe) ++ "_PORT".toList

/-- One entry of an allocation, as far as the rendering reads it. -/
structure EnvEntry where
  name : String
  port : ℕ
  deriving DecidableEq

/-- The line of an entry. -/
def envLine (entry : EnvEntry) : List Char :=
  envVarName entry.name ++ '=' :: (toString entry.port).toList

/-- `_render_allocation_env`. -/
def renderAllocationEnv (entries : List EnvEntry) : List Char :=
  ['\n'].intercalate (entries.map envLine)

/-! ## Reading back -/

/-- The assignment of a line. -/
def readAssignment (line : List Char) : Option (List Char × List Char) :=
  match line.span (· ≠ '=') with
  | (variableName, '=' :: value) => some (variableName, value)
  | _ => none

/-- An assignment after others: a variable has its last value. -/
def assign (env : List (List Char × List Char)) (assignment : List Char × List Char) :
    List (List Char × List Char) :=
  env.filter (fun other => other.1 ≠ assignment.1) ++ [assignment]

/-- The variables that a text sets, with their values. -/
def readEnv (text : List Char) : List (List Char × List Char) :=
  ((text.splitOn '\n').filterMap readAssignment).foldl assign []

/-- The text sets as many variables as there are entries, and the variable of each entry to its
port. -/
def KeepsPorts (entries : List EnvEntry) (text : List Char) : Prop :=
  (readEnv text).length = entries.length ∧
    ∀ entry ∈ entries, (envVarName entry.name, (toString entry.port).toList) ∈ readEnv text

/-! ## Words -/

/-- The runs of letters and digits in a text. -/
def words (text : List Char) : List (List Char) :=
  (text.splitOnP fun c => !isPlain c).filter (· ≠ [])

/-- The words of a name in capitals; a name without words counts as `PORT`. -/
def label (name : String) : List (List Char) :=
  if words name.toList = [] then ["PORT".toList]
  else (words name.toList).map (List.map Char.toUpper)

section Words

variable {text rest : List Char} {c d : Char}

theorem words_nil : words [] = [] := rfl

theorem words_of_not_plain (h : isPlain c = false) : words (c :: rest) = words rest := by
  rw [words, List.splitOnP_cons_eq_if_modifyHead, if_pos (by simp [h])]
  simp [words]

theorem words_plain_of_not_plain (hc : isPlain c = true) (hd : isPlain d = false) :
    words (c :: d :: rest) = [c] :: words rest := by
  rw [words, List.splitOnP_cons_eq_if_modifyHead, if_neg (by simp [hc]),
    List.splitOnP_cons_eq_if_modifyHead, if_pos (by simp [hd])]
  simp [words]

theorem words_plain_plain (rest : List Char) (hc : isPlain c = true) (hd : isPlain d = true) :
    ∃ first others, words (d :: rest) = first :: others ∧
      words (c :: d :: rest) = (c :: first) :: others := by
  obtain ⟨head, tail, hsplit⟩ :=
    List.exists_cons_of_ne_nil (List.splitOnP_ne_nil (fun c => !isPlain c) rest)
  have hnext : (d :: rest).splitOnP (fun c => !isPlain c) = (d :: head) :: tail := by
    rw [List.splitOnP_cons_eq_if_modifyHead, if_neg (by simp [hd]), hsplit]
    rfl
  refine ⟨d :: head, tail.filter (· ≠ []), by simp [words, hnext], ?_⟩
  rw [words, List.splitOnP_cons_eq_if_modifyHead, if_neg (by simp [hc]), hnext]
  simp

theorem words_singleton (h : isPlain c = true) : words [c] = [[c]] := by
  rw [words, List.splitOnP_cons_eq_if_modifyHead, if_neg (by simp [h])]
  rfl

/-- The four ways in which a text starts: with nothing, a separator, a last letter, or a letter
with more behind it. -/
theorem words_induction {motive : List Char → Prop} (nil : motive [])
    (skip : ∀ c rest, isPlain c = false → motive rest → motive (c :: rest))
    (single : ∀ c, isPlain c = true → motive [c])
    (letter : ∀ c d rest, isPlain c = true → motive (d :: rest) → motive (c :: d :: rest))
    (text : List Char) : motive text := by
  induction text with
  | nil => exact nil
  | cons c rest ih =>
      cases hplain : isPlain c with
      | false => exact skip c rest hplain ih
      | true =>
          cases rest with
          | nil => exact single c hplain
          | cons d rest => exact letter c d rest hplain ih

theorem plain_of_mem_words {word : List Char} (h : word ∈ words text) :
    word ≠ [] ∧ ∀ c ∈ word, isPlain c = true := by
  induction text using words_induction generalizing word with
  | nil => cases h
  | skip c rest hc ih => exact ih (words_of_not_plain hc ▸ h)
  | single c hc =>
      rw [words_singleton hc, List.mem_singleton] at h
      subst h
      exact ⟨List.cons_ne_nil _ _, by simpa using hc⟩
  | letter c d rest hc ih =>
      cases hd : isPlain d with
      | false =>
          rw [words_plain_of_not_plain hc hd] at h
          rcases List.mem_cons.mp h with rfl | hmem
          · exact ⟨List.cons_ne_nil _ _, by simpa using hc⟩
          · exact ih (by rwa [words_of_not_plain hd])
      | true =>
          obtain ⟨first, others, hnext, hwords⟩ := words_plain_plain rest hc hd
          rw [hwords] at h
          rw [hnext] at ih
          rcases List.mem_cons.mp h with rfl | hmem
          · have hfirst := ih List.mem_cons_self
            exact ⟨List.cons_ne_nil _ _, List.forall_mem_cons.mpr ⟨hc, hfirst.2⟩⟩
          · exact ih (List.mem_cons_of_mem _ hmem)

/-- A text without words has separators only. -/
theorem not_plain_of_words_eq_nil (h : words text = []) (hc : c ∈ text) : isPlain c = false := by
  induction text using words_induction with
  | nil => cases hc
  | skip d rest hd ih =>
      rcases List.mem_cons.mp hc with rfl | hmem
      · exact hd
      · exact ih (words_of_not_plain hd ▸ h) hmem
  | single d hd =>
      rw [words_singleton hd] at h
      cases h
  | letter d next rest hd ih =>
      cases hnext : isPlain next with
      | false =>
          rw [words_plain_of_not_plain hd hnext] at h
          cases h
      | true =>
          obtain ⟨first, others, -, hwords⟩ := words_plain_plain rest hd hnext
          rw [hwords] at h
          cases h

theorem ne_underscore_of_plain (h : isPlain c = true) : c ≠ '_' := by
  rintro rfl
  cases h

/-- What a run of separators at the end leaves. -/
def trail (text : List Char) : List Char :=
  if words text ≠ [] ∧ text.getLast?.any (fun c => !isPlain c) then ['_'] else []

/-- Behind the underscore of a run, the words follow, joined by underscores. -/
theorem collapse_true (text : List Char) :
    collapse true text = ['_'].intercalate (words text) ++ trail text := by
  induction text using words_induction with
  | nil => rfl
  | skip c rest hc ih =>
      have htrail : trail (c :: rest) = trail rest := by
        cases rest with
        | nil => simp [trail, words_of_not_plain hc, words_nil]
        | cons d rest => simp [trail, words_of_not_plain hc]
      rw [collapse, if_neg (by simp [hc]), if_pos rfl, ih, words_of_not_plain hc, htrail]
  | single c hc =>
      simp [collapse, hc, words_singleton hc, trail]
  | letter c d rest hc ih =>
      have hlast : (c :: d :: rest).getLast? = (d :: rest).getLast? := List.getLast?_cons_cons
      cases hd : isPlain d with
      | false =>
          have hnext : words (d :: rest) = words rest := words_of_not_plain hd
          have hcollapse : collapse true (c :: d :: rest) = c :: '_' :: collapse true (d :: rest) := by
            simp [collapse, hc, hd]
          rw [hcollapse, ih, words_plain_of_not_plain hc hd, hnext]
          by_cases hwords : words rest = []
          · have htrail : trail (d :: rest) = [] := by simp [trail, hnext, hwords]
            have hseparator : (d :: rest).getLast?.any (fun c => !isPlain c) = true := by
              have hall : ∀ e ∈ d :: rest, isPlain e = false := fun e he =>
                not_plain_of_words_eq_nil (hnext.trans hwords) he
              rw [List.getLast?_eq_getLast_of_ne_nil (List.cons_ne_nil _ _)]
              simp [hall _ (List.getLast_mem (List.cons_ne_nil d rest))]
            have hlong : trail (c :: d :: rest) = ['_'] := by
              simp only [trail, words_plain_of_not_plain hc hd, hlast, hseparator]
              simp
            rw [htrail, hlong, hwords]
            rfl
          · have htrail : trail (c :: d :: rest) = trail (d :: rest) := by
              simp only [trail, words_plain_of_not_plain hc hd, hnext, hlast]
              simp [hwords]
            obtain ⟨first, others, heq⟩ := List.exists_cons_of_ne_nil hwords
            rw [htrail, heq, List.intercalate_cons_cons]
            simp
      | true =>
          obtain ⟨first, others, hnext, hwords⟩ := words_plain_plain rest hc hd
          have htrail : trail (c :: d :: rest) = trail (d :: rest) := by
            simp [trail, hwords, hnext, hlast]
          have hcollapse : collapse true (c :: d :: rest) = c :: collapse true (d :: rest) := by
            simp [collapse, hc, hd]
          rw [hcollapse, ih, htrail, hnext, hwords]
          cases others <;> simp [List.intercalate]

/-- An underscore in front of the first word stands for the run of separators there. -/
theorem collapse_false (text : List Char) :
    collapse false text = collapse true text ∨ collapse false text = '_' :: collapse true text := by
  cases text with
  | nil => exact Or.inl rfl
  | cons c rest =>
      cases hc : isPlain c with
      | true => exact Or.inl (by simp [collapse, hc])
      | false => exact Or.inr (by simp [collapse, hc])

end Words

/-! ## Names and labels -/

section Labels

variable {ws : List (List Char)} {c : Char} {name other : String}

theorem mem_intercalate {s : Char} (h : c ∈ [s].intercalate ws) :
    c = s ∨ ∃ word ∈ ws, c ∈ word := by
  induction ws with
  | nil => simp at h
  | cons word others ih =>
      cases others with
      | nil => exact Or.inr ⟨word, List.mem_cons_self, by simpa using h⟩
      | cons next others =>
          rw [List.intercalate_cons_cons, List.mem_append, List.mem_append, List.mem_singleton] at h
          rcases h with (hword | rfl) | hnext
          · exact Or.inr ⟨word, List.mem_cons_self, hword⟩
          · exact Or.inl rfl
          · rcases ih hnext with rfl | ⟨found, hfound, hmem⟩
            · exact Or.inl rfl
            · exact Or.inr ⟨found, List.mem_cons_of_mem _ hfound, hmem⟩

/-- Joined words do not start with an underscore. -/
theorem dropWhile_intercalate (h : ∀ word ∈ ws, word ≠ [] ∧ ∀ c ∈ word, isPlain c = true) :
    (['_'].intercalate ws).dropWhile (· = '_') = ['_'].intercalate ws := by
  cases ws with
  | nil => rfl
  | cons word others =>
      obtain ⟨hne, hplain⟩ := h word List.mem_cons_self
      obtain ⟨first, rest, rfl⟩ := List.exists_cons_of_ne_nil hne
      have hfirst : first ≠ '_' := ne_underscore_of_plain (hplain first List.mem_cons_self)
      cases others <;> simp [List.intercalate_cons_cons, hfirst]

theorem intercalate_ne_nil (h : ∀ word ∈ ws, word ≠ [] ∧ ∀ c ∈ word, isPlain c = true)
    (hws : ws ≠ []) : ['_'].intercalate ws ≠ [] := by
  obtain ⟨word, others, rfl⟩ := List.exists_cons_of_ne_nil hws
  have hne : word ≠ [] := (h word List.mem_cons_self).1
  cases others <;> simp [List.intercalate_cons_cons, hne]

/-- Nor do they end with one. -/
theorem dropWhile_reverse_intercalate
    (h : ∀ word ∈ ws, word ≠ [] ∧ ∀ c ∈ word, isPlain c = true) :
    (['_'].intercalate ws).reverse.dropWhile (· = '_') = (['_'].intercalate ws).reverse := by
  induction ws with
  | nil => rfl
  | cons word others ih =>
      cases others with
      | nil =>
          rw [List.intercalate_singleton]
          have hword : ∀ c ∈ word.reverse, c ≠ '_' := fun c hc =>
            ne_underscore_of_plain ((h word List.mem_cons_self).2 c (List.mem_reverse.mp hc))
          cases hreverse : word.reverse with
          | nil => rfl
          | cons last front => simp [hword last (by simp [hreverse])]
      | cons next others =>
          have hothers : ∀ word ∈ next :: others, word ≠ [] ∧ ∀ c ∈ word, isPlain c = true :=
            fun word hmem => h word (List.mem_cons_of_mem _ hmem)
          have hne := intercalate_ne_nil hothers (List.cons_ne_nil _ _)
          rw [List.intercalate_cons_cons, List.reverse_append, List.dropWhile_append, ih hothers,
            if_neg (by simpa using hne)]

theorem stripUnderscores_collapse (text : List Char) :
    stripUnderscores (collapse false text) = ['_'].intercalate (words text) := by
  have hwords : ∀ word ∈ words text, word ≠ [] ∧ ∀ c ∈ word, isPlain c = true :=
    fun _ hmem => plain_of_mem_words hmem
  have hfront : (collapse false text).dropWhile (· = '_')
      = (collapse true text).dropWhile (· = '_') := by
    rcases collapse_false text with h | h <;> simp [h]
  have hclean : (collapse true text).dropWhile (· = '_') = collapse true text := by
    rw [collapse_true]
    by_cases hnil : words text = []
    · simp [trail, hnil]
    · rw [List.dropWhile_append, dropWhile_intercalate hwords, if_neg]
      simpa using intercalate_ne_nil hwords hnil
  rw [stripUnderscores, hfront, hclean, collapse_true, List.reverse_append]
  have htrail : ((trail text).reverse ++ (['_'].intercalate (words text)).reverse).dropWhile (· = '_')
      = (['_'].intercalate (words text)).reverse.dropWhile (· = '_') := by
    unfold trail
    split <;> simp
  rw [htrail, dropWhile_reverse_intercalate hwords, List.reverse_reverse]

theorem map_intercalate (f : Char → Char) (s : Char) :
    ([s].intercalate ws).map f = [f s].intercalate (ws.map (List.map f)) := by
  induction ws with
  | nil => rfl
  | cons word others ih =>
      cases others with
      | nil => simp
      | cons next others =>
          rw [List.intercalate_cons_cons, List.map_append, List.map_append, ih]
          simp [List.intercalate_cons_cons]

/-- A variable is named after the words of the name. -/
theorem envVarName_eq (name : String) :
    envVarName name = ['_'].intercalate (label name) ++ "_PORT".toList := by
  have hupper : '_'.toUpper = '_' := by decide
  rw [envVarName, label, stripUnderscores_collapse, map_intercalate, hupper]
  by_cases hnil : words name.toList = []
  · simp [hnil]
  · have hne := intercalate_ne_nil (fun _ hmem => plain_of_mem_words hmem) hnil
    rw [if_neg hnil, if_neg]
    rw [← hupper, ← map_intercalate]
    simpa using hne

theorem isPlain_toUpper (h : isPlain c = true) : isPlain c.toUpper = true := by
  unfold Char.toUpper
  split
  · rename_i hlower
    have hshift : ('A'.val - 'a'.val).toNat = 4294967264 := rfl
    have hfirst : 97 ≤ c.val.toNat := UInt32.le_iff_toNat_le.mp hlower.1
    have hlast : c.val.toNat ≤ 122 := UInt32.le_iff_toNat_le.mp hlower.2
    simp only [isPlain, Bool.or_eq_true, Bool.and_eq_true, decide_eq_true_eq, Char.le_def,
      UInt32.le_iff_toNat_le, UInt32.toNat_add, hshift]
    refine Or.inl (Or.inl ⟨?_, ?_⟩)
    · change 65 ≤ _
      omega
    · change _ ≤ 90
      omega
  · exact h

theorem plain_of_mem_label {word : List Char} (h : word ∈ label name) :
    ∀ c ∈ word, isPlain c = true := by
  unfold label at h
  split at h
  · rw [List.mem_singleton] at h
    subst h
    simp [isPlain]
  · obtain ⟨source, hsource, rfl⟩ := List.mem_map.mp h
    intro c hc
    obtain ⟨letter, hletter, rfl⟩ := List.mem_map.mp hc
    exact isPlain_toUpper ((plain_of_mem_words hsource).2 letter hletter)

theorem label_ne_nil (name : String) : label name ≠ [] := by
  unfold label
  split
  · exact List.cons_ne_nil _ _
  · simpa using ‹_›

/-- Two names share a variable exactly when they have the same words. -/
theorem envVarName_eq_iff : envVarName name = envVarName other ↔ label name = label other := by
  have hclean : ∀ name : String, ∀ word ∈ label name, '_' ∉ word := fun name word hword hmem =>
    ne_underscore_of_plain (plain_of_mem_label hword _ hmem) rfl
  rw [envVarName_eq, envVarName_eq, List.append_left_inj]
  refine ⟨fun heq => ?_, fun heq => by rw [heq]⟩
  rw [← List.splitOn_intercalate '_' (hclean name) (label_ne_nil name), heq,
    List.splitOn_intercalate '_' (hclean other) (label_ne_nil other)]

theorem mem_envVarName (h : c ∈ envVarName name) : c = '_' ∨ isPlain c = true := by
  rw [envVarName_eq, List.mem_append] at h
  rcases h with h | h
  · rcases mem_intercalate h with rfl | ⟨word, hword, hmem⟩
    · exact Or.inl rfl
    · exact Or.inr (plain_of_mem_label hword c hmem)
  · revert c
    simp [isPlain]

end Labels

/-! ## The law -/

section Env

variable {entries : List EnvEntry} {assignments : List (List Char × List Char)}

/-- The assignment that an entry stands for. -/
def assignmentOf (entry : EnvEntry) : List Char × List Char :=
  (envVarName entry.name, (toString entry.port).toList)

theorem digits_of_toString {n : ℕ} {c : Char} (h : c ∈ (toString n).toList) : c.isDigit := by
  rw [Nat.toString_eq_repr, Nat.toList_repr] at h
  exact Nat.isDigit_of_mem_toDigits (by decide) (by decide) h

theorem not_mem_envLine (entry : EnvEntry) : '\n' ∉ envLine entry := by
  intro hmem
  rcases List.mem_append.mp hmem with hname | hvalue
  · rcases mem_envVarName hname with h | h <;> cases h
  · rcases List.mem_cons.mp hvalue with h | hdigit
    · cases h
    · cases digits_of_toString hdigit

theorem readAssignment_envLine (entry : EnvEntry) :
    readAssignment (envLine entry) = some (assignmentOf entry) := by
  have hname : ∀ c ∈ envVarName entry.name, decide (c ≠ '=') = true := by
    intro c hc
    rcases mem_envVarName hc with rfl | hplain
    · rfl
    · exact decide_eq_true (by rintro rfl; cases hplain)
  rw [readAssignment, envLine, List.span_eq_takeWhile_dropWhile,
    List.takeWhile_append_of_pos hname, List.dropWhile_append_of_pos hname]
  simp [assignmentOf]

/-- The rendered text reads back as the assignments of the entries, one after the other. -/
theorem readEnv_render (entries : List EnvEntry) :
    readEnv (renderAllocationEnv entries) = (entries.map assignmentOf).foldl assign [] := by
  cases entries with
  | nil => rfl
  | cons entry rest =>
      have hlines : ∀ line ∈ (entry :: rest).map envLine, '\n' ∉ line := by
        intro line hline
        obtain ⟨source, -, rfl⟩ := List.mem_map.mp hline
        exact not_mem_envLine source
      have hread : ((entry :: rest).map envLine).filterMap readAssignment =
          (entry :: rest).map assignmentOf := by
        rw [List.filterMap_map, ← List.filterMap_eq_map]
        refine List.filterMap_congr fun entry _ => ?_
        rw [Function.comp_apply, Function.comp_apply, readAssignment_envLine]
      rw [readEnv, renderAllocationEnv, List.splitOn_intercalate '\n' hlines (by simp), hread]

/-- Every variable has one value, and only variables that were assigned are set. -/
theorem nodup_foldl_assign (env assignments : List (List Char × List Char))
    (h : (env.map Prod.fst).Nodup) :
    ((assignments.foldl assign env).map Prod.fst).Nodup ∧
      (assignments.foldl assign env).map Prod.fst ⊆
        env.map Prod.fst ++ assignments.map Prod.fst := by
  induction assignments generalizing env with
  | nil => exact ⟨h, by simp⟩
  | cons assignment rest ih =>
      have hkeep : ((env.filter fun other => other.1 ≠ assignment.1).map Prod.fst).Nodup :=
        h.sublist (List.filter_sublist.map _)
      have hnodup : ((assign env assignment).map Prod.fst).Nodup := by
        rw [assign, List.map_append, List.nodup_append]
        refine ⟨hkeep, List.pairwise_singleton _ _, ?_⟩
        rintro key hkey _ hlast rfl
        obtain ⟨other, hother, rfl⟩ := List.mem_map.mp hkey
        rw [List.map_singleton, List.mem_singleton] at hlast
        exact of_decide_eq_true (List.mem_filter.mp hother).2 hlast
      obtain ⟨hrest, hsub⟩ := ih _ hnodup
      refine ⟨hrest, fun key hkey => ?_⟩
      rcases List.mem_append.mp (hsub hkey) with hassigned | hlater
      · rw [assign, List.map_append, List.mem_append] at hassigned
        rcases hassigned with hold | hnew
        · obtain ⟨other, hother, rfl⟩ := List.mem_map.mp hold
          exact List.mem_append_left _ (List.mem_map_of_mem (List.mem_filter.mp hother).1)
        · exact List.mem_append_right _ (by simpa using Or.inl hnew)
      · exact List.mem_append_right _ (List.mem_cons_of_mem _ hlater)

/-- Assignments to different variables are all kept. -/
theorem foldl_assign_of_nodup (env : List (List Char × List Char))
    (h : ((env ++ assignments).map Prod.fst).Nodup) :
    assignments.foldl assign env = env ++ assignments := by
  induction assignments generalizing env with
  | nil => simp
  | cons assignment rest ih =>
      have hfresh : assign env assignment = env ++ [assignment] := by
        rw [assign, List.filter_eq_self.mpr]
        intro other hother
        rw [List.map_append, List.nodup_append] at h
        exact decide_eq_true
          (h.2.2 other.1 (List.mem_map_of_mem hother) assignment.1 (by simp))
      rw [List.foldl_cons, hfresh, ih _ (by simpa using h)]
      simp

/-- The rendering loses no port exactly when no two entries have names with the same words. -/
theorem keepsPorts_render_iff (entries : List EnvEntry) :
    KeepsPorts entries (renderAllocationEnv entries) ↔
      entries.Pairwise fun entry other => label entry.name ≠ label other.name := by
  have hnames : (entries.map assignmentOf).map Prod.fst
      = entries.map fun entry => envVarName entry.name := by
    simp [assignmentOf]
  have hdistinct : (entries.map fun entry => envVarName entry.name).Nodup ↔
      entries.Pairwise fun entry other => label entry.name ≠ label other.name := by
    rw [List.Nodup, List.pairwise_map]
    simp only [ne_eq, envVarName_eq_iff]
  rw [← hdistinct, KeepsPorts, readEnv_render]
  constructor
  · rintro ⟨hlength, -⟩
    obtain ⟨hnodup, hsub⟩ := nodup_foldl_assign [] (entries.map assignmentOf)
      List.nodup_nil
    rw [List.map_nil, List.nil_append, hnames] at hsub
    have hperm := (hnodup.subperm hsub).perm_of_length_le (by simp [hlength])
    exact hperm.nodup_iff.mp hnodup
  · intro hnodup
    rw [foldl_assign_of_nodup [] (by rwa [List.nil_append, hnames]),
      List.nil_append]
    exact ⟨List.length_map _, fun entry hentry => List.mem_map.mpr ⟨entry, hentry, rfl⟩⟩

/-- A request for one port under a name. -/
def namedRequest (name : String) (hlength : 1 ≤ name.length ∧ name.length ≤ 255)
    (hstripped : Python.stripChars name.toList = name.toList) : Central.AllocationRequestItem where
  name := name
  purpose := "other"
  protocol := .tcp
  preferredPort := none
  requestedRange := none
  name_length := hlength
  name_stripped := hstripped
  purpose_length := by decide
  preferredPort_bounds := by simp
  requestedRange_accepted := by simp
  preferredPort_within_range := by simp

/-- A payload that asks for the ports `a-b` and `a_b`. -/
def clashingBody : Central.AllocationIn where
  project := "shop"
  hostId := ⟨1⟩
  requests := [namedRequest "a-b" (by decide) (by decide), namedRequest "a_b" (by decide) (by decide)]
  requestId := none
  project_length := by decide
  requests_length := by decide
  requestId_length := by simp
  names_nodup := by decide

/-- Names that the schema accepts together can still share a variable. -/
theorem not_keepsPorts_render :
    ¬ ∀ (body : Central.AllocationIn) (entries : List EnvEntry),
      entries.map (fun entry => entry.name) = body.requests.map (fun item => item.name) →
        KeepsPorts entries (renderAllocationEnv entries) := by
  intro h
  have hkeeps := h clashingBody [⟨"a-b", 3000⟩, ⟨"a_b", 3001⟩] rfl
  have hone : (readEnv (renderAllocationEnv [⟨"a-b", 3000⟩, ⟨"a_b", 3001⟩])).length = 1 := by
    rw [readEnv_render]
    decide
  exact absurd (hone ▸ hkeeps.1) (by decide)

end Env

end Agent
