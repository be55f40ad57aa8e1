/-
# Where evidence is looked for

The directories in which a scan looks for the project of a process: its working
directory and then its parents. The walk ends before the home directory, after a
bounded number of steps, or at the root of the file system. Only the first of these
tests comes before a directory is taken, so a walk that starts outside the home
directory passes its parents on the way to the root.
-/

import PortForge.Python.Paths
import Mathlib.Data.Int.Init
import Mathlib.Data.List.Chain
import Mathlib.Logic.Function.Basic
import Mathlib.Tactic.Common

namespace Agent

open Python PurePath

/-! ## The walk -/

/-- The loop of `candidates_for`, by the number of rounds left. -/
def candidatesFrom (home : Option PurePath) : ℕ → PurePath → List PurePath
  | 0, _ => []
  | rounds + 1, current =>
      if home = some current then []
      else if current.parent = current then [current]
      else current :: candidatesFrom home rounds current.parent

theorem length_candidatesFrom_le (home : Option PurePath) (rounds : ℕ)
    (current : PurePath) : (candidatesFrom home rounds current).length ≤ rounds := by
  induction rounds generalizing current with
  | zero => exact Nat.le_refl 0
  | succ rounds ih =>
      rw [candidatesFrom]
      split
      · exact Nat.zero_le _
      · split
        · exact Nat.succ_le_succ (Nat.zero_le rounds)
        · exact Nat.succ_le_succ (ih current.parent)

theorem head?_candidatesFrom {home : Option PurePath} {rounds : ℕ}
    {current first : PurePath} (h : (candidatesFrom home rounds current).head? = some first) :
    first = current := by
  cases rounds with
  | zero => cases h
  | succ rounds =>
      rw [candidatesFrom] at h
      split at h
      · cases h
      · split at h <;> exact (Option.some.inj h).symm

theorem isChain_candidatesFrom (home : Option PurePath) (rounds : ℕ)
    (current : PurePath) :
    (candidatesFrom home rounds current).IsChain fun child next => next = child.parent := by
  induction rounds generalizing current with
  | zero => exact .nil
  | succ rounds ih =>
      rw [candidatesFrom]
      split
      · exact .nil
      · split
        · exact .singleton current
        · refine List.isChain_cons.mpr ⟨?_, ih current.parent⟩
          intro next hnext
          exact head?_candidatesFrom hnext

/-- Below the home directory the walk stays below it. -/
theorem below_of_mem_candidatesFrom {home current directory : PurePath} {rounds : ℕ}
    (hbelow : home.Contains current)
    (hmem : directory ∈ candidatesFrom (some home) rounds current) :
    home.Contains directory ∧ directory ≠ home := by
  induction rounds generalizing current with
  | zero => cases hmem
  | succ rounds ih =>
      rw [candidatesFrom] at hmem
      split at hmem
      · cases hmem
      · rename_i hne
        have hother : home ≠ current := fun h => hne (congrArg some h)
        split at hmem
        · cases List.mem_singleton.mp hmem
          exact ⟨hbelow, hother.symm⟩
        · obtain rfl | hlater := List.mem_cons.mp hmem
          · exact ⟨hbelow, hother.symm⟩
          · exact ih (hbelow.parent hother) hlater

/-- Elsewhere nothing but the number of rounds and the root ends the walk. -/
theorem mem_candidatesFrom_iff {home : Option PurePath} {current directory : PurePath}
    {rounds : ℕ} (houtside : ∀ boundary ∈ home, ¬ boundary.Contains current) :
    directory ∈ candidatesFrom home rounds current ↔
      ∃ levels < rounds, directory = current.up levels := by
  induction rounds generalizing current with
  | zero => simp [candidatesFrom]
  | succ rounds ih =>
      have hne : home ≠ some current := fun h => houtside current h (contains_refl current)
      rw [candidatesFrom, if_neg hne]
      split
      · rename_i hroot
        rw [List.mem_singleton]
        constructor
        · rintro rfl
          exact ⟨0, Nat.succ_pos rounds, (up_zero directory).symm⟩
        · rintro ⟨levels, -, rfl⟩
          exact up_of_root (parent_eq_self_iff.mp hroot) levels
      · have hparent : ∀ boundary ∈ home, ¬ boundary.Contains current.parent := by
          intro boundary hboundary hcontains
          exact houtside boundary hboundary
            ⟨hcontains.1, hcontains.2.trans (List.dropLast_prefix _)⟩
        rw [List.mem_cons, ih hparent]
        constructor
        · rintro (rfl | ⟨levels, hlevels, rfl⟩)
          · exact ⟨0, Nat.succ_pos rounds, (up_zero directory).symm⟩
          · exact ⟨levels + 1, Nat.succ_lt_succ hlevels, (up_succ current levels).symm⟩
        · rintro ⟨levels, hlevels, rfl⟩
          cases levels with
          | zero => exact .inl (up_zero current)
          | succ levels =>
              exact .inr ⟨levels, Nat.lt_of_succ_lt_succ hlevels, up_succ current levels⟩

/-! ## The cache -/

/-- The part of `DetectionCache` that the walk uses. -/
structure DetectionCache where
  maxDepth : ℤ
  candidatesCache : PurePath → Option (List PurePath)

/-- A new cache. -/
def DetectionCache.new (maxDepth : ℤ) : DetectionCache :=
  { maxDepth := maxDepth, candidatesCache := fun _ => none }

/-- The start directory of a call, and what it resolves to at that moment. -/
structure CandidatesCall where
  startDir : Option String
  resolve : String → Option PurePath

/-- The path a call starts from, if it gets that far. -/
def CandidatesCall.start (call : CandidatesCall) : Option PurePath :=
  match call.startDir with
  | none => none
  | some startDir => if startDir = "" then none else call.resolve startDir

/-- `DetectionCache.candidates_for`. The home directory is found once for a process. -/
def DetectionCache.candidatesFor (home : Option PurePath) (cache : DetectionCache)
    (call : CandidatesCall) : List PurePath × DetectionCache :=
  match call.start with
  | none => ([], cache)
  | some resolved =>
      match cache.candidatesCache resolved with
      | some result => (result, cache)
      | none =>
          let result := candidatesFrom home (cache.maxDepth + 1).toNat resolved
          (result, { cache with
            candidatesCache := Function.update cache.candidatesCache resolved (some result) })

/-- The cache after a series of calls. -/
def DetectionCache.after (home : Option PurePath) (cache : DetectionCache)
    (calls : List CandidatesCall) : DetectionCache :=
  calls.foldl (fun state call => (state.candidatesFor home call).2) cache

/-- What is cached is what the walk finds. -/
structure DetectionCache.Sound (home : Option PurePath) (maxDepth : ℤ)
    (cache : DetectionCache) : Prop where
  depth : cache.maxDepth = maxDepth
  walked : ∀ resolved result, cache.candidatesCache resolved = some result →
    result = candidatesFrom home (maxDepth + 1).toNat resolved

section Cache

variable {home : Option PurePath} {maxDepth : ℤ} {cache : DetectionCache}

theorem DetectionCache.Sound.candidatesFor (h : cache.Sound home maxDepth)
    (call : CandidatesCall) :
    (cache.candidatesFor home call).1 =
        (call.start.map (candidatesFrom home (maxDepth + 1).toNat)).getD [] ∧
      (cache.candidatesFor home call).2.Sound home maxDepth := by
  rw [DetectionCache.candidatesFor]
  cases call.start with
  | none => exact ⟨rfl, h⟩
  | some resolved =>
      cases hcached : cache.candidatesCache resolved with
      | some result =>
          simp only [hcached]
          exact ⟨h.walked resolved result hcached, h⟩
      | none =>
          simp only [hcached, h.depth]
          refine ⟨rfl, rfl, ?_⟩
          intro other result hresult
          dsimp only at hresult
          by_cases hother : other = resolved
          · cases hother
            rw [Function.update_self, Option.some.injEq] at hresult
            exact hresult.symm
          · rw [Function.update_of_ne hother] at hresult
            exact h.walked other result hresult

theorem DetectionCache.sound_after (h : cache.Sound home maxDepth) (calls : List CandidatesCall) :
    (cache.after home calls).Sound home maxDepth := by
  induction calls generalizing cache with
  | nil => exact h
  | cons call calls ih => exact ih (h.candidatesFor call).2

theorem DetectionCache.sound_new (home : Option PurePath) (maxDepth : ℤ) :
    (DetectionCache.new maxDepth).Sound home maxDepth :=
  ⟨rfl, fun _ _ h => nomatch h⟩

end Cache

/-! ## The limits of the search -/

/-- What the directories of a search are to satisfy. -/
structure InsideLimits (home : Option PurePath) (maxDepth : ℤ) (start : Option PurePath)
    (result : List PurePath) : Prop where
  length : result.length ≤ (maxDepth + 1).toNat
  first : ∀ first ∈ result.head?, start = some first
  parents : result.IsChain fun child next => next = child.parent
  belowHome : ∀ directory ∈ result, ∀ boundary ∈ home, ¬ directory.Contains boundary
  belowRoot : ∀ directory ∈ result, directory.parts ≠ []

/-- How many components two paths share from the start. -/
def commonDepth : List String → List String → ℕ
  | first :: parts, other :: others => if first = other then commonDepth parts others + 1 else 0
  | _, _ => 0

theorem commonDepth_le (parts others : List String) : commonDepth parts others ≤ parts.length := by
  fun_induction commonDepth parts others with
  | case1 parts other others ih => exact Nat.succ_le_succ ih
  | case2 => exact Nat.zero_le _
  | case3 => exact Nat.zero_le _

theorem take_prefix_iff (parts others : List String) {count : ℕ} (h : count ≤ parts.length) :
    parts.take count <+: others ↔ count ≤ commonDepth parts others := by
  induction parts generalizing others count with
  | nil =>
      obtain rfl : count = 0 := Nat.le_zero.mp h
      simp
  | cons first parts ih =>
      cases count with
      | zero => simp
      | succ count =>
          cases others with
          | nil => simp [commonDepth]
          | cons other others =>
              rw [List.take_succ_cons, List.cons_prefix_cons, commonDepth,
                ih others (Nat.le_of_succ_le_succ h)]
              split
              · rename_i heq
                simp [heq]
              · rename_i hne
                simp [hne]

/-- How many levels up the first directory is that contains the home directory, or is
the root. -/
def levelsToShared (home : Option PurePath) (start : PurePath) : ℕ :=
  match home with
  | none => start.parts.length
  | some boundary =>
      if boundary.anchor = start.anchor then
        start.parts.length - commonDepth start.parts boundary.parts
      else start.parts.length

/-- The search starts at or below the home directory, or the directories it may reach
end below the first one that contains home. -/
def CandidatesCall.Inside (home : Option PurePath) (maxDepth : ℤ)
    (call : CandidatesCall) : Prop :=
  ∀ start ∈ call.start, maxDepth < 0 ∨ (∃ boundary ∈ home, boundary.Contains start) ∨
    maxDepth < levelsToShared home start

/-- Away from the home directory, a level up is forbidden when it is at least the level
of the first shared directory. -/
theorem up_allowed_iff (home : Option PurePath) (start : PurePath) (levels : ℕ) :
    ((∀ boundary ∈ home, ¬ (start.up levels).Contains boundary) ∧ (start.up levels).parts ≠ []) ↔
      levels < levelsToShared home start := by
  have hroot : (start.up levels).parts ≠ [] ↔ levels < start.parts.length := by
    rw [Ne, up, List.take_eq_nil_iff, ← List.length_eq_zero_iff]
    omega
  rw [hroot]
  cases home with
  | none => simp [levelsToShared]
  | some boundary =>
      simp only [Option.mem_def, Option.some.injEq, forall_eq', levelsToShared]
      split
      · rename_i hanchor
        have hshared : (start.up levels).Contains boundary ↔
            start.parts.length - levels ≤ commonDepth start.parts boundary.parts := by
          rw [Contains, up, and_iff_right hanchor.symm,
            take_prefix_iff _ _ (Nat.sub_le _ _)]
        rw [hshared]
        have hle := commonDepth_le start.parts boundary.parts
        omega
      · rename_i hanchor
        exact and_iff_right fun h => hanchor h.1.symm

theorem insideLimits_candidatesFrom_iff (home : Option PurePath) (maxDepth : ℤ)
    (start : PurePath) :
    InsideLimits home maxDepth (some start) (candidatesFrom home (maxDepth + 1).toNat start) ↔
      maxDepth < 0 ∨ (∃ boundary ∈ home, boundary.Contains start) ∨
        maxDepth < levelsToShared home start := by
  have hlength := length_candidatesFrom_le home (maxDepth + 1).toNat start
  have hfirst : ∀ first ∈ (candidatesFrom home (maxDepth + 1).toNat start).head?,
      some start = some first :=
    fun first hmem => congrArg some (head?_candidatesFrom hmem).symm
  have hparents := isChain_candidatesFrom home (maxDepth + 1).toNat start
  by_cases hbelow : ∃ boundary ∈ home, boundary.Contains start
  · -- The walk ends at the home directory, before anything that contains it.
    refine iff_of_true ⟨hlength, hfirst, hparents, ?_, ?_⟩ (.inr (.inl hbelow))
    all_goals
      obtain ⟨boundary, hboundary, hcontains⟩ := hbelow
      obtain rfl : home = some boundary := hboundary
      intro directory hmem
      obtain ⟨hinside, hne⟩ := below_of_mem_candidatesFrom hcontains hmem
    · rintro _ ⟨⟩ hover
      exact hne (hover.antisymm hinside)
    · intro hroot
      exact hne (hinside.antisymm ⟨hinside.1.symm, by rw [hroot]; exact List.nil_prefix⟩).symm
  · have houtside : ∀ boundary ∈ home, ¬ boundary.Contains start :=
      fun boundary hboundary hcontains => hbelow ⟨boundary, hboundary, hcontains⟩
    have hallowed : InsideLimits home maxDepth (some start)
          (candidatesFrom home (maxDepth + 1).toNat start) ↔
        ∀ levels < (maxDepth + 1).toNat, levels < levelsToShared home start := by
      constructor
      · intro h levels hlevels
        have hmem := (mem_candidatesFrom_iff houtside).mpr ⟨levels, hlevels, rfl⟩
        exact (up_allowed_iff home start levels).mp
          ⟨h.belowHome _ hmem, h.belowRoot _ hmem⟩
      · intro h
        refine ⟨hlength, hfirst, hparents, ?_, ?_⟩
        all_goals
          intro directory hmem
          obtain ⟨levels, hlevels, rfl⟩ := (mem_candidatesFrom_iff houtside).mp hmem
          have hfree := (up_allowed_iff home start levels).mpr (h levels hlevels)
        · exact hfree.1
        · exact hfree.2
    rw [hallowed, or_iff_right hbelow]
    constructor
    · intro h
      by_contra hover
      have hlast := h (maxDepth).toNat (by omega)
      omega
    · intro h levels hlevels
      omega

/-- After any calls before it, a search is inside its limits exactly when it starts at
or below the home directory, or ends before the first directory they share. -/
theorem candidatesFor_insideLimits_iff (home : Option PurePath) (maxDepth : ℤ)
    (calls : List CandidatesCall) (call : CandidatesCall) :
    InsideLimits home maxDepth call.start
        (((DetectionCache.new maxDepth).after home calls).candidatesFor home call).1 ↔
      call.Inside home maxDepth := by
  have hsound := DetectionCache.sound_after (DetectionCache.sound_new home maxDepth) calls
  rw [(hsound.candidatesFor call).1, CandidatesCall.Inside]
  cases hstart : call.start with
  | none =>
      refine iff_of_true ⟨Nat.zero_le _, ?_, .nil, ?_, ?_⟩ (fun _ h => nomatch h) <;> simp
  | some start =>
      simp only [Option.mem_def, Option.some.injEq, forall_eq', Option.map_some,
        Option.getD_some]
      exact insideLimits_candidatesFrom_iff home maxDepth start

/-- A process that runs outside the home directory of the agent's user. -/
def serverCall : CandidatesCall where
  startDir := some "/srv/app"
  resolve := fun _ => some ⟨"/", ["srv", "app"]⟩

/-- Its search ends at the root of the file system. -/
theorem candidatesFor_reaches_root :
    ¬ InsideLimits (some ⟨"/", ["home", "user"]⟩) 6 serverCall.start
      (((DetectionCache.new 6).candidatesFor (some ⟨"/", ["home", "user"]⟩) serverCall).1) := by
  intro h
  exact h.belowRoot ⟨"/", []⟩ (by decide) rfl

end Agent
