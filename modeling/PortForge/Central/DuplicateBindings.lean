/-
# Duplicate bindings

Observations of one binding in a snapshot are merged into one. Each group of fields of the
merged observation is that of one member whole: of the first ranked member that has any of
them, or of the first ranked member of all. The times are the earliest and the latest, which
exist where the times of the group compare. The ranking leaves members tied that differ in
what it does not look at, and ties go by the order of the snapshot.
-/

import PortForge.Central.Ingestion
import PortForge.Python.Ranking

namespace Central

open Python

/-! ## Groups of fields -/

namespace ObservationIn

/-- The fields that are only ever those of the first ranked member. -/
def identity (obs : ObservationIn) : String × String := (obs.state, obs.source)

/-- `_PROCESS_FIELDS`. -/
def process (obs : ObservationIn) : Option ℕ × Option String × Option String × Option String :=
  (obs.pid, obs.processName, obs.processPath, obs.workingDirectory)

/-- `_CONTAINER_FIELDS`. -/
def container (obs : ObservationIn) :
    Option String × Option String × Option String × Option ℕ × Option String × Option String :=
  (obs.containerId, obs.containerName, obs.containerImage, obs.containerPort,
    obs.dockerComposeProject, obs.serviceName)

/-- `_DETECTION_FIELDS`. -/
def detection (obs : ObservationIn) : Option String × Option String × Option String :=
  (obs.purpose, obs.category, obs.detectionConfidence)

/-- An observation is its binding, its groups of fields and its times. -/
theorem eq_of_groups {a b : ObservationIn} (hkey : a.key = b.key)
    (hidentity : a.identity = b.identity) (hprocess : a.process = b.process)
    (hcontainer : a.container = b.container) (hdetection : a.detection = b.detection)
    (hproject : a.projectName = b.projectName) (hfirst : a.firstSeen = b.firstSeen)
    (hlast : a.lastSeen = b.lastSeen) : a = b := by
  cases a
  cases b
  simp only [key, identity, process, container, detection, Prod.mk.injEq] at *
  simp only [ObservationIn.mk.injEq]
  tauto

/-- Ranked with the other or before it. -/
abbrev RanksFirst (a b : ObservationIn) : Prop := b.compareRank a ≠ .gt

/-- `_observation_sort_key` is a tuple of parts that are ordered each. -/
instance : Std.TransCmp compareRank :=
  inferInstanceAs (Std.TransCmp
    (compareLex (compareOn fun obs : ObservationIn => sourceRank obs.source) <|
    compareLex (compareOn fun obs => confidenceRank obs.detectionConfidence) <|
    compareLex (compareOn fun obs => givenRank obs.processName) <|
    compareLex (compareOn fun obs => givenRank obs.containerId) <|
    compareLex (compareOn fun obs => givenRank obs.projectName) <|
    compareLex (compareOn fun obs => givenRank obs.purpose) <|
    compareLex (compareOn fun obs => obs.processName.getD "") <|
    compareLex (compareOn fun obs => obs.containerId.getD "") <|
    compareLex (compareOn fun obs => obs.containerName.getD "") <|
    compareLex (compareOn fun obs => obs.projectName.getD "") <|
    compareLex (compareOn fun obs => obs.category.getD "") <|
    compareOn fun obs => obs.pid.getD 0))

instance : Std.Total RanksFirst where
  total a b := by
    by_contra h
    push Not at h
    have hswap : a.compareRank b = (b.compareRank a).swap := Std.OrientedCmp.eq_swap
    rw [h.1, h.2] at hswap
    cases hswap

instance : IsTrans ObservationIn RanksFirst where
  trans a b c hab hbc := by
    have hba : (b.compareRank a).isLE := Ordering.isLE_iff_ne_gt.mpr hab
    have hcb : (c.compareRank b).isLE := Ordering.isLE_iff_ne_gt.mpr hbc
    exact Ordering.isLE_iff_ne_gt.mp (Std.TransCmp.isLE_trans hcb hba)

end ObservationIn

/-! ## Whose fields are taken -/

/-- A member whose fields can be taken: one that has them, or any member where none has. -/
def eligible (has : ObservationIn → Bool) (group : List ObservationIn) (obs : ObservationIn) :
    Bool :=
  has obs || !group.any has

theorem eligible_perm (has : ObservationIn → Bool) {group group' : List ObservationIn}
    (hperm : group'.Perm group) : eligible has group' = eligible has group := by
  funext obs
  rw [eligible, eligible, hperm.any_eq]

section Backfill

variable {β : Type} (f : ObservationIn → β) (has : ObservationIn → Bool)
  (copy : ObservationIn → ObservationIn → ObservationIn)

/-- The fields are those of the first eligible member, the primary one included. -/
theorem backfill_donor (hcopy : ∀ target source, f (copy target source) = f source)
    {primary merged : ObservationIn} (hhas : has merged = has primary)
    (hsame : f merged = f primary) (runnersUp : List ObservationIn) :
    ((primary :: runnersUp).find? (eligible has (primary :: runnersUp))).map f =
      some (f (backfill has copy runnersUp merged)) := by
  rw [backfill, hhas]
  cases hprimary : has primary with
  | true =>
      rw [List.find?_cons_of_pos (by rw [eligible, hprimary, Bool.true_or]), if_pos rfl,
        Option.map_some, hsame]
  | false =>
      rw [if_neg (by decide)]
      cases hfound : runnersUp.find? has with
      | none =>
          have hnone : (primary :: runnersUp).any has = false := by
            rw [List.any_cons, hprimary, Bool.false_or, List.any_eq_false]
            exact List.find?_eq_none.mp hfound
          rw [List.find?_cons_of_pos (by simp [eligible, hnone]), Option.map_some, hsame]
      | some candidate =>
          have hsome : (primary :: runnersUp).any has = true := by
            apply List.any_eq_true.mpr
            exact ⟨candidate, List.mem_cons_of_mem _ (List.mem_of_find?_eq_some hfound),
              List.find?_some hfound⟩
          have heligible : eligible has (primary :: runnersUp) = has := by
            funext obs
            rw [eligible, hsome, Bool.not_true, Bool.or_false]
          rw [heligible, List.find?_cons_of_neg (by simp [hprimary]), hfound, Option.map_some]
          exact congrArg some (hcopy _ _).symm

end Backfill

/-- The group of fields of a merged observation is that of the member that is taken for it. -/
structure Donated (ranked : List ObservationIn) (merged : ObservationIn) : Prop where
  identity : (ranked.find? fun _ => true).map ObservationIn.identity = some merged.identity
  process : (ranked.find? (eligible ObservationIn.hasProcess ranked)).map ObservationIn.process =
    some merged.process
  container : (ranked.find? (eligible ObservationIn.hasContainer ranked)).map
    ObservationIn.container = some merged.container
  detection : (ranked.find? (eligible ObservationIn.hasDetection ranked)).map
    ObservationIn.detection = some merged.detection
  project : (ranked.find? (eligible ObservationIn.hasProject ranked)).map
    ObservationIn.projectName = some merged.projectName

theorem donated_mergeFields (primary : ObservationIn) (runnersUp : List ObservationIn) :
    Donated (primary :: runnersUp) (mergeFields primary runnersUp) := by
  -- Each stage leaves alone what the other stages look at and write.
  have hproject {β : Type} (f : ObservationIn → β)
      (hf : ∀ target source, f (ObservationIn.copyProject target source) = f target) :=
    backfill_frame f ObservationIn.hasProject ObservationIn.copyProject hf runnersUp
  have hdetection {β : Type} (f : ObservationIn → β)
      (hf : ∀ target source, f (ObservationIn.copyDetection target source) = f target) :=
    backfill_frame f ObservationIn.hasDetection ObservationIn.copyDetection hf runnersUp
  have hcontainer {β : Type} (f : ObservationIn → β)
      (hf : ∀ target source, f (ObservationIn.copyContainer target source) = f target) :=
    backfill_frame f ObservationIn.hasContainer ObservationIn.copyContainer hf runnersUp
  have hprocess {β : Type} (f : ObservationIn → β)
      (hf : ∀ target source, f (ObservationIn.copyProcess target source) = f target) :=
    backfill_frame f ObservationIn.hasProcess ObservationIn.copyProcess hf runnersUp
  constructor
  · simp only [mergeFields]
    rw [hproject ObservationIn.identity fun _ _ => rfl,
      hdetection ObservationIn.identity fun _ _ => rfl,
      hcontainer ObservationIn.identity fun _ _ => rfl,
      hprocess ObservationIn.identity fun _ _ => rfl]
    rfl
  · simp only [mergeFields]
    rw [hproject ObservationIn.process fun _ _ => rfl,
      hdetection ObservationIn.process fun _ _ => rfl,
      hcontainer ObservationIn.process fun _ _ => rfl]
    exact backfill_donor ObservationIn.process ObservationIn.hasProcess ObservationIn.copyProcess
      (fun _ _ => rfl) rfl rfl runnersUp
  · simp only [mergeFields]
    rw [hproject ObservationIn.container fun _ _ => rfl,
      hdetection ObservationIn.container fun _ _ => rfl]
    apply backfill_donor ObservationIn.container ObservationIn.hasContainer
      ObservationIn.copyContainer fun _ _ => rfl
    · exact hprocess ObservationIn.hasContainer (fun _ _ => rfl) primary
    · exact hprocess ObservationIn.container (fun _ _ => rfl) primary
  · simp only [mergeFields]
    rw [hproject ObservationIn.detection fun _ _ => rfl]
    apply backfill_donor ObservationIn.detection ObservationIn.hasDetection
      ObservationIn.copyDetection fun _ _ => rfl
    · rw [hcontainer ObservationIn.hasDetection fun _ _ => rfl,
        hprocess ObservationIn.hasDetection fun _ _ => rfl]
    · rw [hcontainer ObservationIn.detection fun _ _ => rfl,
        hprocess ObservationIn.detection fun _ _ => rfl]
  · simp only [mergeFields]
    apply backfill_donor ObservationIn.projectName ObservationIn.hasProject
      ObservationIn.copyProject fun _ _ => rfl
    · rw [hdetection ObservationIn.hasProject fun _ _ => rfl,
        hcontainer ObservationIn.hasProject fun _ _ => rfl,
        hprocess ObservationIn.hasProject fun _ _ => rfl]
    · rw [hdetection ObservationIn.projectName fun _ _ => rfl,
        hcontainer ObservationIn.projectName fun _ _ => rfl,
        hprocess ObservationIn.projectName fun _ _ => rfl]

/-! ## The times of a group -/

/-- The time is one of the times, and all of them compare with it as given. -/
def Extreme (le : ℤ → ℤ → Prop) (times : List Datetime) (time : Datetime) : Prop :=
  time ∈ times ∧ ∀ other ∈ times, other.aware = time.aware ∧ le time.micros other.micros

/-- All times carry an offset, or none does. -/
def Compare (times : List Datetime) : Prop :=
  ∀ a ∈ times, ∀ b ∈ times, a.aware = b.aware

section Extremal

variable {le : ℤ → ℤ → Prop} {choose : ℤ → ℤ → ℤ}

theorem extremal_isSome_iff {first : Datetime} {rest : List Datetime} :
    (extremal choose first rest).isSome ↔ Compare (first :: rest) := by
  rw [extremal]
  split
  · next hall =>
      simp only [Option.isSome_some, true_iff]
      have haware : ∀ other ∈ first :: rest, other.aware = first.aware := by
        intro other hother
        rcases List.mem_cons.mp hother with rfl | hother
        · rfl
        · exact of_decide_eq_true (List.all_eq_true.mp hall other hother)
      exact fun a ha b hb => (haware a ha).trans (haware b hb).symm
  · next hnot =>
      simp only [Option.isSome_none, Bool.false_eq_true, false_iff]
      intro hcompare
      apply hnot
      exact List.all_eq_true.mpr fun other hother => decide_eq_true
        (hcompare other (List.mem_cons_of_mem _ hother) first List.mem_cons_self)

/-- The best of some numbers is one of them, and none is better. -/
theorem foldl_choose [Std.Refl le] [IsTrans ℤ le] (hchoose : ∀ a b, choose a b = a ∨ choose a b = b)
    (hleft : ∀ a b, le (choose a b) a) (hright : ∀ a b, le (choose a b) b)
    (first : ℤ) (rest : List ℤ) :
    rest.foldl choose first ∈ first :: rest ∧
      ∀ number ∈ first :: rest, le (rest.foldl choose first) number := by
  induction rest generalizing first with
  | nil => exact ⟨List.mem_singleton_self _, by simpa using Std.Refl.refl first⟩
  | cons next rest ih =>
      obtain ⟨hmem, hbest⟩ := ih (choose first next)
      have hstart := hbest (choose first next) List.mem_cons_self
      rw [List.foldl_cons]
      constructor
      · rcases List.mem_cons.mp hmem with hsame | hlater
        · rw [hsame]
          rcases hchoose first next with h | h <;> rw [h] <;> simp
        · exact List.mem_cons_of_mem _ (List.mem_cons_of_mem _ hlater)
      · intro number hnumber
        rcases List.mem_cons.mp hnumber with rfl | hnumber
        · exact IsTrans.trans _ _ _ hstart (hleft number next)
        · rcases List.mem_cons.mp hnumber with rfl | hnumber
          · exact IsTrans.trans _ _ _ hstart (hright first number)
          · exact hbest number (List.mem_cons_of_mem _ hnumber)

/-- `min` and `max` return the extreme time, and raise where the times do not compare. -/
theorem extremal_eq_some_iff [IsPartialOrder ℤ le]
    (hchoose : ∀ a b, choose a b = a ∨ choose a b = b)
    (hleft : ∀ a b, le (choose a b) a) (hright : ∀ a b, le (choose a b) b)
    {first : Datetime} {rest : List Datetime} {time : Datetime} :
    extremal choose first rest = some time ↔ Extreme le (first :: rest) time := by
  obtain ⟨hmem, hbest⟩ := foldl_choose hchoose hleft hright first.micros
    (rest.map Datetime.micros)
  rw [List.foldl_map] at hmem hbest
  rw [← List.map_cons, List.mem_map] at hmem
  have hbest : ∀ other ∈ first :: rest,
      le (rest.foldl (fun best time => choose best time.micros) first.micros) other.micros :=
    fun other hother => hbest _ (by
      rw [← List.map_cons]
      exact List.mem_map_of_mem hother)
  obtain ⟨found, hfound, hmicros⟩ := hmem
  rw [extremal]
  split
  · next hall =>
      have haware : ∀ other ∈ first :: rest, other.aware = first.aware := by
        intro other hother
        rcases List.mem_cons.mp hother with rfl | hother
        · rfl
        · exact of_decide_eq_true (List.all_eq_true.mp hall other hother)
      constructor
      · rintro ⟨⟩
        constructor
        · obtain ⟨micros, aware⟩ := found
          have hsame : aware = first.aware := haware _ hfound
          rw [← hmicros, ← hsame]
          exact hfound
        · exact fun other hother => ⟨haware other hother, hbest other hother⟩
      · rintro ⟨htime, hextreme⟩
        have hle := (hextreme found hfound).2
        have hge := hbest time htime
        rw [hmicros] at hle
        have hequal := antisymm hle hge
        obtain ⟨micros, aware⟩ := time
        have hsame : aware = first.aware := haware _ htime
        simp only at hequal
        rw [hsame, hequal]
  · next hnot =>
      constructor
      · intro h
        cases h
      · rintro ⟨-, hextreme⟩
        refine (hnot (List.all_eq_true.mpr fun other hother => decide_eq_true ?_)).elim
        exact ((hextreme other (List.mem_cons_of_mem _ hother)).1).trans
          (hextreme first List.mem_cons_self).1.symm

end Extremal

/-! ## The merged observation -/

/-- The members, the most authoritative first. -/
def ranked (group : List ObservationIn) : List ObservationIn :=
  group.insertionSort ObservationIn.RanksFirst

theorem mem_ranked {group : List ObservationIn} {obs : ObservationIn} :
    obs ∈ ranked group ↔ obs ∈ group := List.mem_insertionSort _

/-- The times of a group compare. -/
def TimesCompare (group : List ObservationIn) : Prop :=
  Compare (group.map ObservationIn.firstSeen) ∧ Compare (group.map ObservationIn.lastSeen)

/-- What a group is merged to, binding aside. -/
structure MergesTo (group : List ObservationIn) (merged : ObservationIn) : Prop where
  donated : Donated (ranked group) merged
  firstSeen : Extreme (· ≤ ·) (group.map ObservationIn.firstSeen) merged.firstSeen
  lastSeen : Extreme (· ≥ ·) (group.map ObservationIn.lastSeen) merged.lastSeen

/-- Merging on a group that is ranked already. -/
theorem mergeGroup_cons {first primary : ObservationIn} {rest runnersUp : List ObservationIn}
    (hranked : ranked (first :: rest) = primary :: runnersUp) :
    mergeGroup (first :: rest) =
      (extremal min first.firstSeen (rest.map ObservationIn.firstSeen)).bind fun firstSeen =>
        (extremal max first.lastSeen (rest.map ObservationIn.lastSeen)).bind fun lastSeen =>
          some { mergeFields primary runnersUp with
            firstSeen := firstSeen, lastSeen := lastSeen } := by
  unfold mergeGroup
  rw [show ((first :: rest).insertionSort fun a b => b.compareRank a ≠ .gt) =
    primary :: runnersUp from hranked]
  rfl

theorem exists_ranked (first : ObservationIn) (rest : List ObservationIn) :
    ∃ primary runnersUp, ranked (first :: rest) = primary :: runnersUp := by
  apply List.exists_cons_of_ne_nil
  apply List.ne_nil_of_length_pos
  rw [ranked, List.length_insertionSort]
  exact Nat.succ_pos _

theorem mergesTo_of_mergeGroup {group : List ObservationIn} {merged : ObservationIn}
    (h : mergeGroup group = some merged) : MergesTo group merged := by
  cases group with
  | nil => cases h
  | cons first rest =>
      obtain ⟨primary, runnersUp, hranked⟩ := exists_ranked first rest
      rw [mergeGroup_cons hranked] at h
      simp only [Option.bind_eq_some_iff] at h
      obtain ⟨firstSeen, hfirst, lastSeen, hlast, hmerged⟩ := h
      cases hmerged
      obtain ⟨hidentity, hprocess, hcontainer, hdetection, hproject⟩ :=
        donated_mergeFields primary runnersUp
      constructor
      · rw [hranked]
        exact ⟨hidentity, hprocess, hcontainer, hdetection, hproject⟩
      · exact (extremal_eq_some_iff (fun a b => min_choice a b) min_le_left min_le_right).mp hfirst
      · exact (extremal_eq_some_iff (fun a b => max_choice a b) le_max_left le_max_right).mp hlast

/-- A group can be merged if and only if its times compare. -/
theorem mergeGroup_isSome_iff {group : List ObservationIn} (hne : group ≠ []) :
    (mergeGroup group).isSome ↔ TimesCompare group := by
  cases group with
  | nil => exact absurd rfl hne
  | cons first rest =>
      obtain ⟨primary, runnersUp, hranked⟩ := exists_ranked first rest
      have hfirst := @extremal_isSome_iff min first.firstSeen (rest.map ObservationIn.firstSeen)
      have hlast := @extremal_isSome_iff max first.lastSeen (rest.map ObservationIn.lastSeen)
      rw [mergeGroup_cons hranked, TimesCompare, List.map_cons, List.map_cons, ← hfirst, ← hlast]
      cases extremal min first.firstSeen (rest.map ObservationIn.firstSeen) with
      | none => simp
      | some firstSeen =>
          cases extremal max first.lastSeen (rest.map ObservationIn.lastSeen) <;> simp

/-- The members of a snapshot with a binding. -/
def groupOf (observations : List ObservationIn) (key : BindingKey) : List ObservationIn :=
  observations.filter fun obs => obs.key = key

theorem timesCompare_singleton (obs : ObservationIn) : TimesCompare [obs] := by
  constructor <;> simp [Compare]

/-- A binding of the snapshot has a canonical observation if and only if its times compare. -/
theorem canonical_isSome_iff {observations : List ObservationIn} {key : BindingKey}
    (hmem : key ∈ observations.map ObservationIn.key) :
    (canonical observations key).isSome ↔ TimesCompare (groupOf observations key) := by
  obtain ⟨member, hmember, hkey⟩ := List.mem_map.mp hmem
  have hin : member ∈ groupOf observations key :=
    List.mem_filter.mpr ⟨hmember, decide_eq_true hkey⟩
  rw [canonical]
  split
  · next obs hgroup =>
      rw [groupOf, hgroup]
      simpa using timesCompare_singleton obs
  · exact mergeGroup_isSome_iff (List.ne_nil_of_mem hin)

theorem isSome_mapM_iff {α β : Type} {f : α → Option β} {l : List α} :
    (l.mapM f).isSome ↔ ∀ a ∈ l, (f a).isSome := by
  induction l with
  | nil => simp
  | cons a l ih =>
      rw [List.mapM_cons, List.forall_mem_cons, ← ih]
      cases f a with
      | none => simp
      | some b => cases l.mapM f <;> simp

theorem canonicalizeObservations_isSome_iff {observations : List ObservationIn} :
    (canonicalizeObservations observations).isSome ↔
      ∀ key, TimesCompare (groupOf observations key) := by
  rw [canonicalizeObservations, isSome_mapM_iff]
  constructor
  · intro hsome key
    by_cases hmem : key ∈ observations.map ObservationIn.key
    · exact (canonical_isSome_iff hmem).mp (hsome key (mem_bindingOrder.mpr hmem))
    · have hnone : groupOf observations key = [] := by
        apply List.filter_eq_nil_iff.mpr
        intro obs hobs hsame
        exact hmem (of_decide_eq_true hsame ▸ List.mem_map_of_mem hobs)
      rw [hnone]
      constructor <;> simp [Compare]
  · intro hcompare key hkey
    exact (canonical_isSome_iff (mem_bindingOrder.mp hkey)).mpr (hcompare key)

/-! ## Coherence -/

/-- The merged observation takes each group of fields whole from one member, and its source from
a highest ranked one. -/
structure Coherent (group : List ObservationIn) (merged : ObservationIn) : Prop where
  process : ∃ donor ∈ group, merged.process = donor.process
  container : ∃ donor ∈ group, merged.container = donor.container
  detection : ∃ donor ∈ group, merged.detection = donor.detection
  firstSeen : Extreme (· ≤ ·) (group.map ObservationIn.firstSeen) merged.firstSeen
  lastSeen : Extreme (· ≥ ·) (group.map ObservationIn.lastSeen) merged.lastSeen
  source : ∃ top ∈ group, (∀ obs ∈ group, top.RanksFirst obs) ∧ merged.source = top.source

/-- What is taken for a group of fields is taken from a member. -/
theorem exists_donor {β : Type} {f : ObservationIn → β} {p : ObservationIn → Bool}
    {group : List ObservationIn} {value : β}
    (h : ((ranked group).find? p).map f = some value) : ∃ donor ∈ group, value = f donor := by
  obtain ⟨donor, hfound, hvalue⟩ := Option.map_eq_some_iff.mp h
  exact ⟨donor, mem_ranked.mp (List.mem_of_find?_eq_some hfound), hvalue.symm⟩

theorem MergesTo.coherent {group : List ObservationIn} {merged : ObservationIn}
    (h : MergesTo group merged) : Coherent group merged where
  process := exists_donor h.donated.process
  container := exists_donor h.donated.container
  detection := exists_donor h.donated.detection
  firstSeen := h.firstSeen
  lastSeen := h.lastSeen
  source := by
    obtain ⟨top, hfound, hidentity⟩ := Option.map_eq_some_iff.mp h.donated.identity
    have hleads := leads_of_find? hfound
    refine ⟨top, hleads.1, fun obs hobs => hleads.2.2 obs hobs rfl, ?_⟩
    exact congrArg Prod.snd hidentity.symm

theorem coherent_singleton (obs : ObservationIn) : Coherent [obs] obs where
  process := ⟨obs, List.mem_singleton_self obs, rfl⟩
  container := ⟨obs, List.mem_singleton_self obs, rfl⟩
  detection := ⟨obs, List.mem_singleton_self obs, rfl⟩
  firstSeen := by simp [Extreme]
  lastSeen := by simp [Extreme]
  source := by
    refine ⟨obs, List.mem_singleton_self obs, fun other hother => ?_, rfl⟩
    rw [List.mem_singleton.mp hother]
    exact (Std.Total.total obs obs).elim id id

theorem coherent_canonical {observations : List ObservationIn} {key : BindingKey}
    {obs : ObservationIn} (h : canonical observations key = some obs) :
    Coherent (groupOf observations key) obs := by
  rw [canonical] at h
  split at h
  · next found hgroup =>
      cases h
      rw [groupOf, hgroup]
      exact coherent_singleton obs
  · exact (mergesTo_of_mergeGroup h).coherent

/-- As many canonical observations as different bindings. -/
theorem length_canonicalizeObservations {observations found : List ObservationIn}
    (h : canonicalizeObservations observations = some found) :
    found.length = (observations.map ObservationIn.key).dedup.length := by
  rw [← List.length_map ObservationIn.key, (canonicalizeObservations_eq h).1]
  apply List.Perm.length_eq
  apply (List.perm_ext_iff_of_nodup (nodup_bindingOrder observations) (List.nodup_dedup _)).mpr
  intro key
  rw [mem_bindingOrder, List.mem_dedup]

/-- The canonical observations of a snapshot are those of its bindings. -/
theorem mem_canonicalizeObservations {observations found : List ObservationIn}
    (h : canonicalizeObservations observations = some found) {obs : ObservationIn} :
    obs ∈ found ↔ canonical observations obs.key = some obs := by
  obtain ⟨hkeys, hcanonical⟩ := canonicalizeObservations_eq h
  constructor
  · exact hcanonical obs
  · intro hobs
    have hmem : obs.key ∈ found.map ObservationIn.key := by
      rw [hkeys, mem_bindingOrder]
      by_contra hout
      rw [canonical_eq_none hout] at hobs
      cases hobs
    obtain ⟨other, hother, hkey⟩ := List.mem_map.mp hmem
    have hsame := hcanonical other hother
    rw [hkey, hobs] at hsame
    rw [Option.some.inj hsame]
    exact hother

/-- `_canonicalize_observations`, with the number of duplicates it merges. -/
def canonicalizeCounting (observations : List ObservationIn) : Option (List ObservationIn × ℕ) :=
  (canonicalizeObservations observations).map fun found =>
    (found, observations.length - found.length)

/-- A snapshot in canonical form: one coherent observation for each of its bindings, the others
counted as duplicates. -/
structure CanonicalForm (observations found : List ObservationIn) (duplicates : ℕ) : Prop where
  coherent : ∀ obs ∈ found, Coherent (groupOf observations obs.key) obs
  length : found.length = (observations.map ObservationIn.key).dedup.length
  duplicates : duplicates + found.length = observations.length

/-- A group is merged coherently if and only if its times compare, and a snapshot has a canonical
form if and only if the times of each of its bindings do. -/
theorem merges_coherently_iff (group : List ObservationIn) (hne : group ≠ [])
    (observations : List ObservationIn) :
    ((∃ merged, mergeGroup group = some merged ∧ Coherent group merged) ↔ TimesCompare group) ∧
      ((∃ found duplicates, canonicalizeCounting observations = some (found, duplicates) ∧
          CanonicalForm observations found duplicates) ↔
        ∀ key, TimesCompare (groupOf observations key)) := by
  constructor
  · rw [← mergeGroup_isSome_iff hne]
    constructor
    · rintro ⟨merged, hmerged, -⟩
      rw [hmerged]
      rfl
    · intro hsome
      obtain ⟨merged, hmerged⟩ := Option.isSome_iff_exists.mp hsome
      exact ⟨merged, hmerged, (mergesTo_of_mergeGroup hmerged).coherent⟩
  · rw [← canonicalizeObservations_isSome_iff]
    constructor
    · rintro ⟨found, duplicates, hfound, -⟩
      obtain ⟨canonical, hcanonical, -⟩ := Option.map_eq_some_iff.mp hfound
      rw [hcanonical]
      rfl
    · intro hsome
      obtain ⟨found, hfound⟩ := Option.isSome_iff_exists.mp hsome
      have hlength := length_canonicalizeObservations hfound
      have hle := length_canonicalizeObservations_le hfound
      refine ⟨found, observations.length - found.length, by rw [canonicalizeCounting, hfound]; rfl,
        ?_, hlength, by omega⟩
      intro obs hobs
      exact coherent_canonical ((canonicalizeObservations_eq hfound).2 obs hobs)

/-- A listener on port 8000, seen by a process scan. -/
def plainObservation : ObservationIn where
  port := 8000
  protocol := .tcp
  bindAddress := "0.0.0.0"
  state := "LISTEN"
  source := "process"
  pid := some 7
  processName := some "node"
  processPath := none
  workingDirectory := none
  containerId := none
  containerName := none
  containerImage := none
  containerPort := none
  dockerComposeProject := none
  serviceName := none
  projectName := none
  purpose := none
  category := none
  detectionConfidence := none
  firstSeen := ⟨0, true⟩
  lastSeen := ⟨5, true⟩

/-- The same listener, seen later by a scan of the containers. -/
def containerObservation : ObservationIn :=
  { plainObservation with
    source := "docker"
    pid := none
    processName := none
    containerId := some "c1"
    containerName := some "web-1"
    containerImage := some "node:22"
    containerPort := some 3000
    projectName := some "shop"
    detectionConfidence := some "high"
    firstSeen := ⟨3, true⟩
    lastSeen := ⟨9, true⟩ }

/-- The merged observation has the process of one, the container of the other, and the earliest
and the latest time. -/
theorem merges_coherently_iff_sample :
    mergeGroup [plainObservation, containerObservation] =
        some { containerObservation with
          pid := some 7
          processName := some "node"
          firstSeen := ⟨0, true⟩ } ∧
      (∃ merged, mergeGroup [plainObservation, containerObservation] = some merged ∧
        Coherent [plainObservation, containerObservation] merged) ∧
      ∃ found duplicates,
        canonicalizeCounting
            [plainObservation, { plainObservation with port := 22 }, containerObservation] =
          some (found, duplicates) ∧
        CanonicalForm [plainObservation, { plainObservation with port := 22 }, containerObservation]
          found duplicates := by
  have haware {group : List ObservationIn}
      (h : ∀ obs ∈ group, obs.firstSeen.aware = true ∧ obs.lastSeen.aware = true) :
      TimesCompare group := by
    constructor <;>
    · intro a ha b hb
      obtain ⟨obs, hobs, rfl⟩ := List.mem_map.mp ha
      obtain ⟨other, hother, rfl⟩ := List.mem_map.mp hb
      simp [h obs hobs, h other hother]
  obtain ⟨hgroup, hsnapshot⟩ := merges_coherently_iff [plainObservation, containerObservation]
    (by decide) [plainObservation, { plainObservation with port := 22 }, containerObservation]
  refine ⟨by decide, hgroup.mpr (haware (by decide)), hsnapshot.mpr fun key => haware ?_⟩
  exact fun obs hobs => (by decide : ∀ obs ∈ [plainObservation,
    { plainObservation with port := 22 }, containerObservation],
      obs.firstSeen.aware = true ∧ obs.lastSeen.aware = true) obs (List.mem_of_mem_filter hobs)

/-- Two observations of one binding, one time with an offset and one without: `min` raises a
`TypeError`, and nothing is merged. -/
theorem mixed_times_not_merged :
    mergeGroup [plainObservation, { plainObservation with firstSeen := ⟨0, false⟩ }] = none ∧
      canonicalizeCounting
        [plainObservation, { plainObservation with firstSeen := ⟨0, false⟩ }] = none := by
  decide

end Central
