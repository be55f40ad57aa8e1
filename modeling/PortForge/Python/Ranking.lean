/-
# Choosing from a ranked list

A list is sorted by a ranking that leaves ties in the order they came in, and the first
element of a kind is taken. It is a leader of that kind, and every leader is taken from some
order of the same list. So a choice does not depend on the order exactly when the leaders
agree on what is read off them. A page shows the elements before its end. Whether it shows one of
a kind in every order is decided by the number of the others that do not rank behind it.
-/

import Mathlib.Data.List.Sort

namespace Python

variable {α β : Type*} (r : α → α → Prop)

/-- The element is of the kind, and ranks with or before all others of the kind. -/
def Leads (p : α → Bool) (l : List α) (x : α) : Prop :=
  x ∈ l ∧ p x = true ∧ ∀ y ∈ l, p y = true → r x y

variable {r}

theorem Leads.of_perm {p : α → Bool} {l l' : List α} {x : α} (h : Leads r p l x)
    (hperm : l'.Perm l) : Leads r p l' x :=
  ⟨hperm.mem_iff.mpr h.1, h.2.1, fun y hy => h.2.2 y (hperm.mem_iff.mp hy)⟩

variable [DecidableRel r]

/-- What is taken is a leader. -/
theorem leads_of_find? [Std.Total r] [IsTrans α r] {p : α → Bool} {l : List α} {x : α}
    (h : (l.insertionSort r).find? p = some x) : Leads r p l x := by
  obtain ⟨hp, before, after, hsplit, hbefore⟩ := List.find?_eq_some_iff_append.mp h
  have hsorted : (before ++ x :: after).Pairwise r := hsplit ▸ List.pairwise_insertionSort r l
  have hmem {y : α} : y ∈ l ↔ y ∈ before ++ x :: after := by
    rw [← hsplit, List.mem_insertionSort]
  refine ⟨hmem.mpr (by simp), hp, fun y hy hpy => ?_⟩
  rcases List.mem_append.mp (hmem.mp hy) with hy | hy
  · have hnot := hbefore y hy
    rw [hpy] at hnot
    cases hnot
  · rcases List.mem_cons.mp hy with rfl | hy
    · exact (Std.Total.total y y).elim id id
    · exact List.rel_of_pairwise_cons (List.pairwise_append.mp hsorted).2.1 hy

/-- A leader that comes first is taken. -/
theorem find?_insertionSort_cons {p : α → Bool} {x : α} {l : List α}
    (h : Leads r p (x :: l) x) : ((x :: l).insertionSort r).find? p = some x := by
  rw [List.insertionSort_cons_eq_take_drop, List.find?_append, List.find?_cons_of_pos h.2.1]
  have hnone : ((l.insertionSort r).takeWhile fun b => decide ¬ r x b).find? p = none := by
    apply List.find?_eq_none.mpr
    intro y hy hp
    have hnot : decide (¬ r x y) = true := List.all_eq_true.mp List.all_takeWhile y hy
    have hmem : y ∈ l := (List.mem_insertionSort r).mp (List.takeWhile_subset _ hy)
    exact of_decide_eq_true hnot (h.2.2 y (List.mem_cons_of_mem _ hmem) hp)
  rw [hnone]
  rfl

/-- Every leader is taken from some order of the list. -/
theorem Leads.exists_perm [DecidableEq α] {p : α → Bool} {l : List α} {x : α}
    (h : Leads r p l x) :
    ∃ l' : List α, l'.Perm l ∧ (l'.insertionSort r).find? p = some x := by
  have hperm : (x :: l.erase x).Perm l := (List.perm_cons_erase h.1).symm
  exact ⟨_, hperm, find?_insertionSort_cons (h.of_perm hperm)⟩

theorem find?_isSome_insertionSort {p : α → Bool} {l : List α} :
    ((l.insertionSort r).find? p).isSome = l.any p := by
  rw [Bool.eq_iff_iff, List.find?_isSome, List.any_eq_true]
  simp only [List.mem_insertionSort]

/-- What is read off the choice does not depend on the order, if and only if it is the same for
all leaders. -/
theorem find?_insertionSort_perm_iff [DecidableEq α] [Std.Total r] [IsTrans α r] (p : α → Bool)
    (f : α → β) (l : List α) :
    (∀ l' : List α, l'.Perm l →
      ((l'.insertionSort r).find? p).map f = ((l.insertionSort r).find? p).map f) ↔
      ∀ x y, Leads r p l x → Leads r p l y → f x = f y := by
  constructor
  · intro hsame x y hx hy
    obtain ⟨first, hfirst, htaken⟩ := hx.exists_perm
    obtain ⟨second, hsecond, htaken'⟩ := hy.exists_perm
    have hequal := (hsame first hfirst).trans (hsame second hsecond).symm
    rw [htaken, htaken'] at hequal
    exact Option.some.inj hequal
  · intro hagree l' hperm
    have hsome : ((l'.insertionSort r).find? p).isSome = ((l.insertionSort r).find? p).isSome := by
      rw [find?_isSome_insertionSort, find?_isSome_insertionSort, hperm.any_eq]
    cases hx : (l'.insertionSort r).find? p with
    | none =>
        rw [hx, eq_comm, Option.isSome_none, Option.isSome_eq_false_iff,
          Option.isNone_iff_eq_none] at hsome
        rw [hsome]
    | some x =>
        rw [hx] at hsome
        obtain ⟨y, hy⟩ := Option.isSome_iff_exists.mp hsome.symm
        rw [hy, Option.map_some, Option.map_some]
        exact congrArg some (hagree x y ((leads_of_find? hx).of_perm hperm.symm)
          (leads_of_find? hy))

/-- What is read off the first element of a kind does not depend on the order of the list, if
and only if it is the same for all elements of the kind. -/
theorem find?_perm_iff (p : α → Bool) (f : α → β) (l : List α) :
    (∀ l' : List α, l'.Perm l → (l'.find? p).map f = (l.find? p).map f) ↔
      ∀ x ∈ l, ∀ y ∈ l, p x → p y → f x = f y := by
  constructor
  · intro hsame x hx y hy hpx hpy
    have hfirst {z : α} (hz : z ∈ l) (hpz : p z) : some (f z) = (l.find? p).map f := by
      obtain ⟨before, after, hsplit⟩ := List.append_of_mem hz
      have hperm : (z :: (before ++ after)).Perm l := hsplit ▸ List.perm_middle.symm
      rw [← hsame _ hperm, List.find?_cons_of_pos hpz, Option.map_some]
    exact Option.some.inj ((hfirst hx hpx).trans (hfirst hy hpy).symm)
  · intro hagree l' hperm
    cases hx : l'.find? p with
    | none =>
        have hnone : l.find? p = none := List.find?_eq_none.mpr fun y hy =>
          List.find?_eq_none.mp hx y (hperm.mem_iff.mpr hy)
        rw [hnone]
    | some x =>
        have hxl := hperm.mem_iff.mp (List.mem_of_find?_eq_some hx)
        obtain ⟨y, hy⟩ := Option.isSome_iff_exists.mp
          (List.find?_isSome.mpr ⟨x, hxl, List.find?_some hx⟩)
        rw [hy]
        exact congrArg some (hagree x hxl y (List.mem_of_find?_eq_some hy) (List.find?_some hx)
          (List.find?_some hy))

/-! ## Pages -/

section Pages

variable {γ : Type*} [LinearOrder γ] {key : α → γ} {p : α → Bool} {l : List α} {n : ℕ}

/-- The others that do not rank behind an element. -/
def rivals (key : α → γ) (p : α → Bool) (l : List α) (x : α) : ℕ :=
  l.countP fun y => !p y && decide (key y ≤ key x)

theorem rivals_perm {l' : List α} (hperm : l'.Perm l) (x : α) :
    rivals key p l' x = rivals key p l x :=
  hperm.countP_eq _

/-- An element with few rivals is on the page, or one of its kind that ranks with or before it. -/
theorem exists_find?_take (hsorted : l.Pairwise fun a b => key a ≤ key b) {x : α} (hx : x ∈ l)
    (hp : p x = true) (hfew : rivals key p l x < n) :
    ∃ y, (l.take n).find? p = some y ∧ key y ≤ key x := by
  induction l generalizing n with
  | nil => cases hx
  | cons a l ih =>
      obtain ⟨hfirst, hrest⟩ := List.pairwise_cons.mp hsorted
      have hrank : key a ≤ key x := by
        rcases List.mem_cons.mp hx with rfl | hmem
        · exact le_rfl
        · exact hfirst x hmem
      cases n with
      | zero => exact absurd hfew (Nat.not_lt_zero _)
      | succ n =>
          rw [List.take_succ_cons]
          cases hkind : p a with
          | true => exact ⟨a, List.find?_cons_of_pos hkind, hrank⟩
          | false =>
              have hmem : x ∈ l := by
                rcases List.mem_cons.mp hx with rfl | hmem
                · rw [hp] at hkind
                  cases hkind
                · exact hmem
              rw [rivals, List.countP_cons_of_pos (by simp [hkind, hrank])] at hfew
              rw [List.find?_cons_of_neg (by simp [hkind])]
              exact ih hrest hmem (Nat.lt_of_succ_lt_succ hfew)

/-- Elements of the kind come last among those of one key. -/
def Behind (key : α → γ) (p : α → Bool) (a b : α) : Prop :=
  key a < key b ∨ key a = key b ∧ (p a = true → p b = true)

instance (key : α → γ) (p : α → Bool) : DecidableRel (Behind key p) :=
  fun _ _ => inferInstanceAs (Decidable (_ ∨ _ ∧ _))

theorem Behind.le {a b : α} (h : Behind key p a b) : key a ≤ key b :=
  h.elim le_of_lt fun heq => le_of_eq heq.1

instance : Std.Total (Behind key p) where
  total a b := by
    rcases lt_trichotomy (key a) (key b) with hlt | heq | hlt
    · exact .inl (.inl hlt)
    · cases hb : p b with
      | true => exact .inl (.inr ⟨heq, fun _ => hb⟩)
      | false => exact .inr (.inr ⟨heq.symm, fun h => by rw [hb] at h; cases h⟩)
    · exact .inr (.inl hlt)

instance : IsTrans α (Behind key p) where
  trans a b c hab hbc := by
    rcases hab with hlt | ⟨heq, himp⟩
    · exact .inl (hlt.trans_le hbc.le)
    · rcases hbc with hlt | ⟨heq', himp'⟩
      · exact .inl (heq ▸ hlt)
      · exact .inr ⟨heq.trans heq', himp' ∘ himp⟩

/-- In an order that puts the kind last, the page shows only an element with few rivals. -/
theorem rivals_lt_of_find?_take (hsorted : l.Pairwise (Behind key p)) {x : α}
    (h : (l.take n).find? p = some x) : rivals key p l x < n := by
  induction l generalizing n with
  | nil => rw [List.take_nil] at h; cases h
  | cons a l ih =>
      obtain ⟨hfirst, hrest⟩ := List.pairwise_cons.mp hsorted
      cases n with
      | zero => cases h
      | succ n =>
          rw [List.take_succ_cons] at h
          cases hkind : p a with
          | true =>
              rw [List.find?_cons_of_pos hkind] at h
              obtain rfl := Option.some.inj h
              -- What comes behind is of the kind or has a later key.
              have hnone : rivals key p (a :: l) a = 0 := by
                apply List.countP_eq_zero.mpr
                intro y hy
                rcases List.mem_cons.mp hy with rfl | hy
                · simp [hkind]
                · rcases hfirst y hy with hlt | ⟨-, himp⟩
                  · simp [not_le.mpr hlt]
                  · simp [himp hkind]
              omega
          | false =>
              rw [List.find?_cons_of_neg (by simp [hkind])] at h
              have hless := ih hrest h
              have hstep : rivals key p (a :: l) x ≤ rivals key p l x + 1 := by
                rw [rivals, rivals, List.countP_cons]
                split <;> omega
              omega

/-- The list has an order that puts the kind last, and sorting by the key keeps it. -/
theorem exists_perm_behind (key : α → γ) (p : α → Bool) (l : List α) :
    ∃ l' : List α, l'.Perm l ∧ ∀ q : α → Bool,
      ((l'.filter q).insertionSort fun a b => key a ≤ key b).Pairwise (Behind key p) := by
  refine ⟨l.insertionSort (Behind key p), List.perm_insertionSort _ _, fun q => ?_⟩
  have hbehind : ((l.insertionSort (Behind key p)).filter q).Pairwise (Behind key p) :=
    (List.pairwise_insertionSort _ _).filter q
  rw [(hbehind.imp Behind.le).insertionSort_eq]
  exact hbehind

/-- The page shows an element of the kind in every order, if and only if one of its leaders has few
rivals. -/
theorem page_iff {q : α → Bool} {x : α} (hx : Leads (fun a b => key a ≤ key b) p (l.filter q) x) :
    (∀ l' : List α, l'.Perm l → ((((l'.filter q).insertionSort fun a b => key a ≤ key b).take
      n).find? p).isSome = true) ↔ rivals key p (l.filter q) x < n := by
  constructor
  · intro hevery
    obtain ⟨l', hperm, hbehind⟩ := exists_perm_behind key p l
    obtain ⟨y, hy⟩ := Option.isSome_iff_exists.mp (hevery l' hperm)
    have hfew := rivals_lt_of_find?_take (hbehind q) hy
    have hmem : y ∈ l'.filter q := (List.mem_insertionSort _).mp
      (List.mem_of_mem_take (List.mem_of_find?_eq_some hy))
    have hrank : key x ≤ key y :=
      hx.2.2 y ((hperm.filter q).mem_iff.mp hmem) (List.find?_some hy)
    have hsame : rivals key p ((l'.filter q).insertionSort fun a b => key a ≤ key b) y =
        rivals key p (l.filter q) y :=
      rivals_perm ((List.perm_insertionSort _ _).trans (hperm.filter q)) y
    have hless : rivals key p (l.filter q) x ≤ rivals key p (l.filter q) y := by
      apply List.countP_mono_left
      intro z _ hz
      simp only [Bool.and_eq_true, decide_eq_true_eq] at hz ⊢
      exact ⟨hz.1, hz.2.trans hrank⟩
    omega
  · intro hfew l' hperm
    have hsame : ((l'.filter q).insertionSort fun a b => key a ≤ key b).Perm (l.filter q) :=
      (List.perm_insertionSort _ _).trans (hperm.filter q)
    rw [← rivals_perm hsame] at hfew
    obtain ⟨y, hy, -⟩ := exists_find?_take (List.pairwise_insertionSort _ _)
      (hsame.mem_iff.mpr hx.1) hx.2.1 hfew
    rw [hy]
    rfl

end Pages

end Python
