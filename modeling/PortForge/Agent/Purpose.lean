/-
# What a port is for

`_collect_signals` asks four sources of evidence in a fixed order and `_resolve` lets the signals
vote. The vote depends on how often a category is named and not on the order. A source may name
its categories several times, though: the process and the image each give a signal, and so does
every known dependency and every hint in the command line.
-/

import PortForge.Agent.Discovery
import PortForge.Python.Value
import Mathlib.Data.List.Dedup
import Mathlib.Data.List.Induction
import Mathlib.Data.List.Infix
import Mathlib.Data.String.Basic

namespace Agent.Discovery

open Central Python

/-! ## The rules -/

/-- `KNOWN_SOFTWARE`: the category and the purpose of an identity. -/
def knownSoftware : List (String × String × String) :=
  [("postgres", "database", "postgresql"), ("postgresql", "database", "postgresql"),
    ("mysqld", "database", "mysql"), ("mysql", "database", "mysql"),
    ("mariadbd", "database", "mariadb"), ("mongod", "database", "mongodb"),
    ("redis-server", "cache", "redis"), ("redis", "cache", "redis"),
    ("memurai", "cache", "memurai"), ("nginx", "reverse-proxy", "nginx"),
    ("traefik", "reverse-proxy", "traefik"), ("caddy", "reverse-proxy", "caddy"),
    ("grafana", "monitoring", "grafana"), ("grafana-server", "monitoring", "grafana"),
    ("prometheus", "metrics", "prometheus"), ("ollama", "ai", "ollama"),
    ("minio", "object-storage", "minio"), ("rabbitmq-server", "message-broker", "rabbitmq"),
    ("kafka", "message-broker", "kafka")]

/-- `NODE_FRAMEWORK_DEPENDENCIES`. -/
def nodeFrameworkDependencies : List (String × String × String) :=
  [("next", "frontend", "nextjs"), ("vite", "development-server", "vite"),
    ("express", "api", "express"), ("react-scripts", "development-server", "react-dev-server")]

/-- `PYTHON_FRAMEWORK_DEPENDENCIES`. -/
def pythonFrameworkDependencies : List (String × String × String) :=
  [("fastapi", "api", "fastapi"), ("flask", "api", "flask"), ("django", "api", "django")]

/-- `COMMAND_LINE_HINTS`. -/
def commandLineHints : List (String × String × String) :=
  [("uvicorn", "api", "api"), ("gunicorn", "api", "api"), ("flask", "api", "flask"),
    ("manage.py", "api", "django"), ("django-admin", "api", "django"),
    ("vite", "development-server", "vite"), ("next dev", "frontend", "nextjs"),
    ("next start", "frontend", "nextjs"),
    ("react-scripts", "development-server", "react-dev-server"),
    ("webpack-dev-server", "development-server", "webpack-dev-server"),
    ("nginx", "reverse-proxy", "nginx")]

/-- `COMPOSE_SERVICE_KEYWORDS`. -/
def composeServiceKeywords : List (String × String × String) :=
  [("frontend", "frontend", "frontend"), ("backend", "api", "api"), ("api", "api", "api"),
    ("gateway", "reverse-proxy", "reverse-proxy"), ("proxy", "reverse-proxy", "reverse-proxy"),
    ("nginx", "reverse-proxy", "nginx"), ("postgres", "database", "postgresql"),
    ("mysql", "database", "mysql"), ("mongo", "database", "mongodb"),
    ("database", "database", "database"), ("redis", "cache", "redis"), ("cache", "cache", "cache"),
    ("minio", "object-storage", "minio"), ("storage", "object-storage", "object-storage"),
    ("grafana", "monitoring", "grafana"), ("monitor", "monitoring", "monitoring"),
    ("prometheus", "metrics", "prometheus"), ("metrics", "metrics", "metrics"),
    ("queue", "message-broker", "message-broker"), ("broker", "message-broker", "message-broker"),
    ("worker", "infrastructure", "worker"), ("ui", "frontend", "frontend"),
    ("web", "frontend", "frontend")]

/-! ## Collecting signals -/

/-- `Signal`. -/
structure Signal where
  category : String
  purpose : String
  evidence : String
  deriving DecidableEq

/-- `needle in text`. -/
def contains (text needle : String) : Bool := decide (needle.toList <:+: text.toList)

section Collect

-- Python's `str.lower`, Unicode's lower case of a text.
variable (lower : String → String)

/-- `_normalize_process_identity`. -/
def normalizeProcessIdentity (name : Option String) : Option String :=
  (given name).bind fun name =>
    let normalized := (lower (strip name)).toList
    given (some (String.ofList
      (if ".exe".toList.isSuffixOf normalized then normalized.take (normalized.length - 4)
        else normalized)))

/-- `_normalize_image_identity`. -/
def normalizeImageIdentity (image : Option String) : Option String :=
  (given image).bind fun image =>
    let base := ((image.toList.splitOn '/').getLast?.getD []).takeWhile (· ≠ '@')
    given (some (lower (strip (String.ofList (base.takeWhile (· ≠ ':'))))))

/-- The rule for an identity, where there is one. -/
def identified (identity : Option String) : Option (String × String) :=
  identity.bind fun identity => knownSoftware.lookup identity

/-- Source 1: the process and the container image. -/
def identitySignals (facts : DetectionFacts) : List Signal :=
  let processName := facts.processName.getD "None"
  let containerImage := facts.containerImage.getD "None"
  ((identified (normalizeProcessIdentity lower facts.processName)).map fun (category, purpose) =>
    (⟨category, purpose, s!"process name indicates {purpose} ({processName})"⟩ : Signal)).toList ++
  ((identified (normalizeImageIdentity lower facts.containerImage)).map fun (category, purpose) =>
    (⟨category, purpose, s!"container image indicates {purpose} ({containerImage})"⟩
      : Signal)).toList

/-- The signals of one dependency. -/
def dependencySignals (dependency : String) : List Signal :=
  (nodeFrameworkDependencies.lookup dependency).toList.map (signal ·) ++
    (pythonFrameworkDependencies.lookup dependency).toList.map (signal ·)
where
  signal (rule : String × String) : Signal :=
    ⟨rule.1, rule.2, s!"manifest dependency '{dependency}' indicates {rule.2}"⟩

/-- Source 2: the dependencies, a set in the source. -/
def manifestSignals (manifestDependencies : List String) : List Signal :=
  (sorted manifestDependencies.dedup).flatMap dependencySignals

/-- The command line of the process, or else of the container, in lower case. -/
def commandText (facts : DetectionFacts) : String :=
  let givenList (tokens : Option (List String)) : Option (List String) :=
    tokens.filter (· ≠ [])
  lower (" ".intercalate
    (((givenList facts.commandLine).or (givenList facts.containerCommand)).getD []))

/-- Source 3: the hints in the command line. -/
def commandSignals (facts : DetectionFacts) : List Signal :=
  if commandText lower facts = "" then []
  else
    (commandLineHints.filter fun rule => contains (commandText lower facts) rule.1).map
      fun (hint, category, purpose) => ⟨category, purpose, s!"command line contains '{hint}'"⟩

/-- Source 4: the first keyword in the name of the Compose service. -/
def composeSignals (facts : DetectionFacts) : List Signal :=
  match given facts.composeService with
  | none => []
  | some service =>
      ((composeServiceKeywords.find? fun rule => contains (lower service) rule.1).map
        fun (_, category, purpose) =>
          (⟨category, purpose, s!"Compose service name '{service}' suggests {purpose}"⟩
            : Signal)).toList

/-- The sources of evidence. -/
inductive EvidenceSource
  | identity
  | manifest
  | commandLine
  | composeService
  deriving DecidableEq

/-- The signals of a source. -/
def signalsOf (facts : DetectionFacts) (manifestDependencies : List String) :
    EvidenceSource → List Signal
  | .identity => identitySignals lower facts
  | .manifest => manifestSignals manifestDependencies
  | .commandLine => commandSignals lower facts
  | .composeService => composeSignals lower facts

/-- `_collect_signals`. -/
def collectSignals (facts : DetectionFacts) (manifestDependencies : List String) : List Signal :=
  [EvidenceSource.identity, .manifest, .commandLine, .composeService].flatMap
    (signalsOf lower facts manifestDependencies)

end Collect

/-! ## The vote -/

/-- `votes[category] = votes.get(category, 0) + 1`. -/
def addVote (votes : List (String × ℕ)) (category : String) : List (String × ℕ) :=
  setItem votes category ((votes.lookup category).getD 0 + 1)

/-- The votes for each category, in the order of their first vote. -/
def tally (categories : List String) : List (String × ℕ) := categories.foldl addVote []

/-- The categories with the most votes. -/
def leading (categories : List String) : List String :=
  let votes := tally categories
  let maxVotes := (votes.map Prod.snd).max?
  (votes.filter fun vote => some vote.2 = maxVotes).map Prod.fst

/-- `_resolve`. -/
def resolve (signals : List Signal) : PurposeDetectionResult :=
  let evidence := signals.map fun signal => signal.evidence
  let categories := signals.map fun signal => signal.category
  match signals with
  | [] => {}
  | first :: rest =>
      if categories.dedup.length = 1 then
        { purpose := some first.purpose
          category := first.category
          confidence := .high
          method := if rest.length + 1 > 1 then "rule_based_agreement" else "rule_based"
          evidence := evidence }
      else
        match leading categories with
        | [category] =>
            { purpose := (signals.find? fun signal => signal.category = category).map
                fun signal => signal.purpose
              category := category
              confidence := .medium
              method := "rule_based_majority"
              evidence := evidence }
        | _ =>
            { purpose := none
              category := "unknown"
              confidence := .low
              method := "conflicting_evidence"
              evidence := evidence }

/-- `detect_purpose`. -/
def detectPurpose (lower : String → String) (facts : DetectionFacts)
    (manifestDependencies : List String) : PurposeDetectionResult :=
  resolve (collectSignals lower facts manifestDependencies)

/-! ## Who wins -/

/-- A category with more signals than every other. -/
def Wins (categories : List String) (category : String) : Prop :=
  category ∈ categories ∧
    ∀ other ∈ categories, other ≠ category → categories.count other < categories.count category

section Votes

variable {categories other : List String} {category : String} {votes : List (String × ℕ)}

theorem Wins.unique {rival : String} (h : Wins categories category) (hrival : Wins categories rival) :
    rival = category := by
  by_contra hne
  have hless := h.2 rival hrival.1 hne
  have hmore := hrival.2 category h.1 (Ne.symm hne)
  omega

theorem Wins.perm (hperm : categories.Perm other) (h : Wins categories category) :
    Wins other category := by
  refine ⟨hperm.mem_iff.mp h.1, fun rival hrival hne => ?_⟩
  rw [← hperm.count_eq, ← hperm.count_eq]
  exact h.2 rival (hperm.mem_iff.mpr hrival) hne

/-- The votes count how often each category is named. -/
def Counts (votes : List (String × ℕ)) (categories : List String) : Prop :=
  (votes.map Prod.fst).Nodup ∧
    ∀ category count, (category, count) ∈ votes ↔
      category ∈ categories ∧ count = categories.count category

theorem counts_addVote (h : Counts votes categories) :
    Counts (addVote votes category) (categories ++ [category]) := by
  obtain ⟨hnodup, hmem⟩ := h
  have hcount : ∀ rival, (categories ++ [category]).count rival =
      categories.count rival + if rival = category then 1 else 0 := by
    intro rival
    rw [List.count_append, List.count_singleton]
    by_cases hrival : rival = category
    · simp [hrival]
    · simp [hrival, Ne.symm hrival]
  unfold addVote setItem
  cases hlookup : votes.lookup category with
  | none =>
      have hfresh : ∀ vote ∈ votes, vote.1 ≠ category := fun vote hvote heq => by
        have hne := List.lookup_eq_none_iff.mp hlookup vote hvote
        simp [heq] at hne
      have hnot : category ∉ categories := fun hin =>
        hfresh _ ((hmem category _).mpr ⟨hin, rfl⟩) rfl
      rw [if_neg (by simpa using fun count hvote => hfresh (category, count) hvote rfl)]
      refine ⟨?_, fun rival count => ?_⟩
      · rw [List.map_append, List.nodup_append]
        refine ⟨hnodup, List.pairwise_singleton _ _, ?_⟩
        rintro key hkey _ hlast rfl
        obtain ⟨vote, hvote, rfl⟩ := List.mem_map.mp hkey
        exact hfresh vote hvote (by simpa using hlast)
      · rw [List.mem_append, hmem, hcount, List.mem_append, List.mem_singleton, List.mem_singleton,
          Prod.mk.injEq]
        by_cases hrival : rival = category
        · subst hrival
          simp [hnot, List.count_eq_zero_of_not_mem hnot]
        · simp [hrival]
  | some count =>
      obtain ⟨front, back, hsplit, -⟩ := List.lookup_eq_some_iff.mp hlookup
      have hvote : (category, count) ∈ votes := by simp [hsplit]
      obtain ⟨hin, hcurrent⟩ := (hmem category count).mp hvote
      rw [if_pos (List.any_eq_true.mpr ⟨_, hvote, by simp⟩)]
      refine ⟨?_, fun rival total => ?_⟩
      · have hkeys : (votes.map fun entry =>
            if entry.1 = category then (category, (some count).getD 0 + 1) else entry).map Prod.fst =
              votes.map Prod.fst := by
          rw [List.map_map]
          refine List.map_congr_left fun entry _ => ?_
          by_cases hkey : entry.1 = category <;> simp [hkey]
        rwa [hkeys]
      · rw [hcount, List.mem_map, List.mem_append, List.mem_singleton]
        by_cases hrival : rival = category
        · subst hrival
          constructor
          · rintro ⟨entry, hentry, heq⟩
            split at heq
            · cases heq
              exact ⟨Or.inl hin, by simp [hcurrent]⟩
            · rename_i hkey
              exact absurd (congrArg Prod.fst heq) hkey
          · rintro ⟨-, rfl⟩
            exact ⟨_, hvote, by simp [hcurrent]⟩
        · constructor
          · rintro ⟨entry, hentry, heq⟩
            split at heq
            · exact absurd (congrArg Prod.fst heq).symm hrival
            · subst heq
              obtain ⟨hold, htotal⟩ := (hmem rival total).mp hentry
              exact ⟨Or.inl hold, by simp [htotal, hrival]⟩
          · rintro ⟨hold, rfl⟩
            refine ⟨(rival, categories.count rival),
              (hmem rival _).mpr ⟨hold.resolve_right hrival, rfl⟩, ?_⟩
            simp [hrival]

theorem counts_tally (categories : List String) : Counts (tally categories) categories := by
  induction categories using List.reverseRecOn with
  | nil => exact ⟨List.nodup_nil, by simp [tally]⟩
  | append_singleton categories category ih =>
      rw [tally, List.foldl_append]
      exact counts_addVote ih

/-- The leaders are the categories that no category outnumbers. -/
theorem mem_leading : category ∈ leading categories ↔ category ∈ categories ∧
    ∀ rival ∈ categories, categories.count rival ≤ categories.count category := by
  obtain ⟨-, hmem⟩ := counts_tally categories
  have hvalue : ∀ count, count ∈ (tally categories).map Prod.snd ↔
      ∃ rival ∈ categories, count = categories.count rival := by
    intro count
    simp only [List.mem_map, Prod.exists, hmem]
    exact ⟨fun ⟨rival, _, hvote, heq⟩ => ⟨rival, hvote.1, heq ▸ hvote.2⟩,
      fun ⟨rival, hrival, heq⟩ => ⟨rival, count, ⟨hrival, heq⟩, rfl⟩⟩
  simp only [leading, List.mem_map, List.mem_filter, Prod.exists, decide_eq_true_eq]
  constructor
  · rintro ⟨_, count, ⟨hvote, hmax⟩, rfl⟩
    obtain ⟨hin, rfl⟩ := (hmem _ _).mp hvote
    obtain ⟨-, hbound⟩ := List.max?_eq_some_iff.mp hmax.symm
    exact ⟨hin, fun rival hrival => hbound _ ((hvalue _).mpr ⟨rival, hrival, rfl⟩)⟩
  · rintro ⟨hin, hbound⟩
    refine ⟨category, _, ⟨(hmem _ _).mpr ⟨hin, rfl⟩, Eq.symm ?_⟩, rfl⟩
    refine List.max?_eq_some_iff.mpr ⟨(hvalue _).mpr ⟨category, hin, rfl⟩, fun count hcount => ?_⟩
    obtain ⟨rival, hrival, rfl⟩ := (hvalue count).mp hcount
    exact hbound rival hrival

theorem nodup_leading (categories : List String) : (leading categories).Nodup :=
  (counts_tally categories).1.sublist (List.filter_sublist.map _)

theorem leading_eq_singleton_iff : leading categories = [category] ↔ Wins categories category := by
  constructor
  · intro hleading
    obtain ⟨hin, hbound⟩ := mem_leading.mp (hleading ▸ List.mem_singleton_self category)
    refine ⟨hin, fun rival hrival hne => lt_of_le_of_ne (hbound rival hrival) fun hsame => hne ?_⟩
    have hleads : rival ∈ leading categories :=
      mem_leading.mpr ⟨hrival, fun third hthird => hsame ▸ hbound third hthird⟩
    rwa [hleading, List.mem_singleton] at hleads
  · rintro ⟨hin, hless⟩
    have hleads : ∀ rival, rival ∈ leading categories ↔ rival ∈ [category] := by
      intro rival
      rw [mem_leading, List.mem_singleton]
      constructor
      · rintro ⟨hrival, hbound⟩
        by_contra hne
        exact absurd (hbound category hin) (Nat.not_le.mpr (hless rival hrival hne))
      · rintro rfl
        refine ⟨hin, fun other hother => ?_⟩
        rcases eq_or_ne other rival with rfl | hne
        · exact Nat.le_refl _
        · exact Nat.le_of_lt (hless other hother hne)
    exact List.perm_singleton.mp
      ((List.perm_ext_iff_of_nodup (nodup_leading _) (List.pairwise_singleton _ _)).mpr hleads)

end Votes

section Resolve

variable {signals other : List Signal}

/-- The category is the winner of the vote, and unknown without one. -/
theorem resolve_category (signals : List Signal) :
    (∃ category, Wins (signals.map fun signal => signal.category) category ∧
      (resolve signals).category = category) ∨
    ((¬ ∃ category, Wins (signals.map fun signal => signal.category) category) ∧
      (resolve signals).category = "unknown") := by
  cases signals with
  | nil => exact Or.inr ⟨fun ⟨_, hwins⟩ => List.not_mem_nil hwins.1, rfl⟩
  | cons first rest =>
      unfold resolve
      dsimp only
      split
      · rename_i hone
        refine Or.inl ⟨first.category, ⟨List.mem_cons_self, fun rival hrival hne => ?_⟩, rfl⟩
        obtain ⟨only, honly⟩ := List.length_eq_one_iff.mp hone
        have hall : ∀ name ∈ (first :: rest).map fun signal => signal.category, name = only :=
          fun name hname => List.mem_singleton.mp (honly ▸ List.mem_dedup.mpr hname)
        exact absurd ((hall rival hrival).trans (hall first.category List.mem_cons_self).symm) hne
      · split
        · rename_i category hleading
          exact Or.inl ⟨category, leading_eq_singleton_iff.mp hleading, rfl⟩
        · rename_i hnone
          exact Or.inr ⟨fun ⟨category, hwins⟩ =>
            hnone category (leading_eq_singleton_iff.mpr hwins), rfl⟩

/-- The category does not depend on the order of the signals. -/
theorem resolve_category_perm (hperm : signals.Perm other) :
    (resolve other).category = (resolve signals).category := by
  have hcategories := hperm.map fun signal => signal.category
  rcases resolve_category signals with ⟨category, hwins, hcategory⟩ | ⟨hnone, hunknown⟩
  · rcases resolve_category other with ⟨rival, hrival, hother⟩ | ⟨hno, -⟩
    · rw [hcategory, hother, (hwins.perm hcategories).unique hrival]
    · exact absurd ⟨category, hwins.perm hcategories⟩ hno
  · rcases resolve_category other with ⟨rival, hrival, -⟩ | ⟨-, hother⟩
    · exact absurd ⟨rival, hrival.perm hcategories.symm⟩ hnone
    · rw [hunknown, hother]

end Resolve

/-! ## How often a source counts -/

/-- A dependency that a rule names. -/
def IsKnownDependency (dependency : String) : Prop :=
  (nodeFrameworkDependencies.lookup dependency).isSome ∨
    (pythonFrameworkDependencies.lookup dependency).isSome

instance (dependency : String) : Decidable (IsKnownDependency dependency) := by
  unfold IsKnownDependency
  infer_instance

section Sources

variable (lower : String → String) (facts : DetectionFacts) (manifestDependencies : List String)

/-- The categories a source names. -/
def categoriesOf (source : EvidenceSource) : List String :=
  (signalsOf lower facts manifestDependencies source).map fun signal => signal.category

/-- Each source is counted once, so that two sources that agree outnumber a third, and the vote
has a winner or no result. -/
structure CountsSourcesOnce : Prop where
  once : ∀ source, (signalsOf lower facts manifestDependencies source).length ≤ 1
  agreeing : ∀ source first second, source ≠ first → source ≠ second → first ≠ second →
    ∀ category ∈ categoriesOf lower facts manifestDependencies first,
      category ∈ categoriesOf lower facts manifestDependencies second →
        ∀ rival ≠ category, (categoriesOf lower facts manifestDependencies source).count rival <
          ((collectSignals lower facts manifestDependencies).map fun signal =>
            signal.category).count category
  order : ∀ signals, signals.Perm (collectSignals lower facts manifestDependencies) →
    (resolve signals).category = (detectPurpose lower facts manifestDependencies).category
  winner :
    (∃ category, Wins ((collectSignals lower facts manifestDependencies).map fun signal =>
        signal.category) category ∧
      (detectPurpose lower facts manifestDependencies).category = category) ∨
    ((¬ ∃ category, Wins ((collectSignals lower facts manifestDependencies).map fun signal =>
        signal.category) category) ∧
      (detectPurpose lower facts manifestDependencies).category = "unknown")

/-- No source has two rules that apply: the process and the image are not both known, one
dependency at most is, and the command line has one hint at most. -/
structure OneRuleEach : Prop where
  identity : ¬ ((identified (normalizeProcessIdentity lower facts.processName)).isSome ∧
    (identified (normalizeImageIdentity lower facts.containerImage)).isSome)
  dependency : ∀ first ∈ manifestDependencies, ∀ second ∈ manifestDependencies,
    IsKnownDependency first → IsKnownDependency second → first = second
  hint : ∀ first ∈ commandLineHints, ∀ second ∈ commandLineHints,
    contains (commandText lower facts) first.1 → contains (commandText lower facts) second.1 →
      first = second

theorem length_filter_le_one_iff {α : Type} {items : List α} (hnodup : items.Nodup)
    (p : α → Bool) : (items.filter p).length ≤ 1 ↔
      ∀ first ∈ items, ∀ second ∈ items, p first → p second → first = second := by
  constructor
  · intro hlength first hfirst second hsecond hp hq
    have hin := List.mem_filter.mpr ⟨hfirst, hp⟩
    have hin' := List.mem_filter.mpr ⟨hsecond, hq⟩
    rcases Nat.le_one_iff_eq_zero_or_eq_one.mp hlength with hzero | hone
    · rw [List.length_eq_zero_iff.mp hzero] at hin
      cases hin
    · obtain ⟨only, honly⟩ := List.length_eq_one_iff.mp hone
      rw [honly, List.mem_singleton] at hin hin'
      rw [hin, hin']
  · intro hsame
    have hkept : (items.filter p).Nodup := hnodup.filter _
    have hall : ∀ first ∈ items.filter p, ∀ second ∈ items.filter p, first = second := by
      intro first hfirst second hsecond
      obtain ⟨hin, hp⟩ := List.mem_filter.mp hfirst
      obtain ⟨hin', hq⟩ := List.mem_filter.mp hsecond
      exact hsame first hin second hin' hp hq
    cases hfilter : items.filter p with
    | nil => exact Nat.zero_le _
    | cons first rest =>
        cases rest with
        | nil => exact Nat.le_refl _
        | cons second rest =>
            rw [hfilter] at hkept hall
            exact absurd (hall first (by simp) second (by simp))
              (List.rel_of_pairwise_cons hkept List.mem_cons_self)

/-- No name is a dependency of both worlds. -/
theorem lookup_python_of_node {dependency : String}
    (h : (nodeFrameworkDependencies.lookup dependency).isSome) :
    pythonFrameworkDependencies.lookup dependency = none := by
  obtain ⟨rule, hrule⟩ := Option.isSome_iff_exists.mp h
  obtain ⟨front, back, hsplit, -⟩ := List.lookup_eq_some_iff.mp hrule
  have hmem : (dependency, rule) ∈ nodeFrameworkDependencies := by simp [hsplit]
  simp only [nodeFrameworkDependencies, List.mem_cons, Prod.mk.injEq, List.not_mem_nil,
    or_false] at hmem
  rcases hmem with ⟨rfl, -⟩ | ⟨rfl, -⟩ | ⟨rfl, -⟩ | ⟨rfl, -⟩ <;> rfl

theorem length_dependencySignals (dependency : String) :
    (dependencySignals dependency).length = if IsKnownDependency dependency then 1 else 0 := by
  rw [dependencySignals, List.length_append, List.length_map, List.length_map]
  cases hnode : nodeFrameworkDependencies.lookup dependency with
  | some rule =>
      have hpython : pythonFrameworkDependencies.lookup dependency = none :=
        lookup_python_of_node (by simp [hnode])
      have hknown : IsKnownDependency dependency := Or.inl (by simp [hnode])
      rw [hpython, if_pos hknown]
      rfl
  | none =>
      cases hpython : pythonFrameworkDependencies.lookup dependency with
      | some rule =>
          have hknown : IsKnownDependency dependency := Or.inr (by simp [hpython])
          rw [if_pos hknown]
          rfl
      | none =>
          rw [if_neg (by simp [IsKnownDependency, hnode, hpython])]
          rfl

theorem length_manifestSignals (dependencies : List String) :
    (manifestSignals dependencies).length =
      (dependencies.dedup.filter fun dependency => IsKnownDependency dependency).length := by
  have hlength : ∀ items : List String, (items.flatMap dependencySignals).length =
      (items.filter fun dependency => IsKnownDependency dependency).length := by
    intro items
    induction items with
    | nil => rfl
    | cons dependency items ih =>
        rw [List.flatMap_cons, List.length_append, ih, length_dependencySignals, List.filter_cons]
        by_cases hknown : IsKnownDependency dependency <;> simp [hknown, Nat.add_comm]
  have hperm : (sorted dependencies.dedup).Perm dependencies.dedup := List.mergeSort_perm _ _
  rw [manifestSignals, hlength]
  exact (hperm.filter _).length_eq

theorem length_commandSignals : (commandSignals lower facts).length =
    (commandLineHints.filter fun rule => contains (commandText lower facts) rule.1).length := by
  unfold commandSignals
  split
  · rename_i hempty
    have hnone : commandLineHints.filter (fun rule => contains (commandText lower facts) rule.1) = [] := by
      rw [hempty]
      decide
    rw [hnone]
    rfl
  · exact List.length_map _

theorem length_identitySignals_le_one_iff : (identitySignals lower facts).length ≤ 1 ↔
    ¬ ((identified (normalizeProcessIdentity lower facts.processName)).isSome ∧
      (identified (normalizeImageIdentity lower facts.containerImage)).isSome) := by
  unfold identitySignals
  cases identified (normalizeProcessIdentity lower facts.processName) <;>
    cases identified (normalizeImageIdentity lower facts.containerImage) <;> simp

theorem length_composeSignals_le_one : (composeSignals lower facts).length ≤ 1 := by
  unfold composeSignals
  split
  · exact Nat.zero_le _
  · exact Option.length_toList_le

/-- Two sources that agree have two votes against one. -/
theorem outvotes_of_once
    (honce : ∀ source, (signalsOf lower facts manifestDependencies source).length ≤ 1)
    {source first second : EvidenceSource} (hne : first ≠ second) {category rival : String}
    (hfirst : category ∈ categoriesOf lower facts manifestDependencies first)
    (hsecond : category ∈ categoriesOf lower facts manifestDependencies second) :
    (categoriesOf lower facts manifestDependencies source).count rival <
      ((collectSignals lower facts manifestDependencies).map fun signal =>
        signal.category).count category := by
  have hlength : (categoriesOf lower facts manifestDependencies source).count rival ≤ 1 := by
    refine List.count_le_length.trans ?_
    rw [categoriesOf, List.length_map]
    exact honce source
  have hsum : ((collectSignals lower facts manifestDependencies).map fun signal =>
      signal.category).count category =
        (categoriesOf lower facts manifestDependencies .identity).count category +
        ((categoriesOf lower facts manifestDependencies .manifest).count category +
        ((categoriesOf lower facts manifestDependencies .commandLine).count category +
          (categoriesOf lower facts manifestDependencies .composeService).count category)) := by
    simp [collectSignals, categoriesOf, List.flatMap_cons, List.count_append]
  have hone := List.count_pos_iff.mpr hfirst
  have htwo := List.count_pos_iff.mpr hsecond
  cases first <;> cases second <;> first | exact absurd rfl hne | omega

/-- The sources are counted once each exactly when none has two rules that apply. -/
theorem countsSourcesOnce_iff :
    CountsSourcesOnce lower facts manifestDependencies ↔
      OneRuleEach lower facts manifestDependencies := by
  have hmanifest : (manifestSignals manifestDependencies).length ≤ 1 ↔
      ∀ first ∈ manifestDependencies, ∀ second ∈ manifestDependencies,
        IsKnownDependency first → IsKnownDependency second → first = second := by
    rw [length_manifestSignals, length_filter_le_one_iff (List.nodup_dedup _)]
    simp only [List.mem_dedup, decide_eq_true_eq]
  have hcommand : (commandSignals lower facts).length ≤ 1 ↔
      ∀ first ∈ commandLineHints, ∀ second ∈ commandLineHints,
        contains (commandText lower facts) first.1 → contains (commandText lower facts) second.1 →
          first = second := by
    rw [length_commandSignals, length_filter_le_one_iff (by decide)]
  constructor
  · intro h
    exact ⟨(length_identitySignals_le_one_iff lower facts).mp (h.once .identity),
      hmanifest.mp (h.once .manifest), hcommand.mp (h.once .commandLine)⟩
  · intro h
    have honce : ∀ source, (signalsOf lower facts manifestDependencies source).length ≤ 1 := by
      intro source
      cases source with
      | identity => exact (length_identitySignals_le_one_iff lower facts).mpr h.identity
      | manifest => exact hmanifest.mpr h.dependency
      | commandLine => exact hcommand.mpr h.hint
      | composeService => exact length_composeSignals_le_one lower facts
    exact ⟨honce, fun _ _ _ _ _ hne _ hfirst hsecond _ _ =>
        outvotes_of_once lower facts manifestDependencies honce hne hfirst hsecond,
      fun _ hperm => resolve_category_perm hperm.symm, resolve_category _⟩

end Sources

/-- A container of the image `nginx` whose process is `nginx`. -/
def nginxFacts : DetectionFacts where
  source := "docker"
  processName := some "nginx"
  processPath := none
  commandLine := none
  workingDirectory := none
  parentProcessName := none
  parentWorkingDirectory := none
  containerName := some "edge"
  containerImage := some "nginx:1.27"
  containerCommand := some ["uvicorn"]
  composeProject := none
  composeService := some "api"

/-- The identity alone has as many votes as the command line and the Compose service together. -/
theorem not_countsSourcesOnce :
    ¬ ∀ (lower : String → String) (facts : DetectionFacts) (manifestDependencies : List String),
      CountsSourcesOnce lower facts manifestDependencies := by
  intro h
  have honce := (h id nginxFacts []).once .identity
  exact (length_identitySignals_le_one_iff id nginxFacts).mp honce (by decide)

end Agent.Discovery
