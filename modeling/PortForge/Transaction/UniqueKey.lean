/-
# Unique keys among interleaved sessions

A database that refuses a second row with a key, and lets an insertion wait for
another session's uncommitted row with the same key, keeps the key unique in
every reachable state, as long as the sessions take no key away.
-/

import PortForge.Transaction.Interleaving

namespace Transaction

/-- A key that the store keeps unique among its rows. -/
structure UniqueKey {Db W : Type} (S : Store Db W) (K : Type) where
  /-- The keys on file. -/
  keys : Db → List K
  /-- The key a write inserts, if any. -/
  inserted : W → Option K
  /-- The writes that take no key away. -/
  admits : W → Prop
  keys_apply : ∀ write db, admits write → keys (S.apply write db) =
      keys db ++ (inserted write).toList
  refused : ∀ write db key, inserted write = some key → key ∈ keys db → S.refuses db write ≠ none
  waits : ∀ write other key, inserted write = some key → inserted other = some key →
    S.waits write other = true

namespace UniqueKey

variable {ι Db W L D E α K : Type} {S : Store Db W} (U : UniqueKey S K)

/-- The keys that a batch inserts. -/
def insertedAll (writes : List W) : List K := writes.filterMap U.inserted

@[simp]
theorem insertedAll_nil : U.insertedAll [] = [] := rfl

theorem insertedAll_append (first second : List W) :
    U.insertedAll (first ++ second) = U.insertedAll first ++ U.insertedAll second := by
  rw [insertedAll, List.filterMap_append]
  rfl

theorem keys_applyAll {writes : List W} (hadmits : ∀ write ∈ writes, U.admits write) (db : Db) :
    U.keys (S.applyAll writes db) = U.keys db ++ U.insertedAll writes := by
  induction writes generalizing db with
  | nil => simp
  | cons write writes ih =>
      obtain ⟨hwrite, hwrites⟩ := List.forall_mem_cons.mp hadmits
      rw [Store.applyAll_cons, ih hwrites, U.keys_apply write db hwrite, insertedAll, insertedAll,
        List.append_assoc]
      congr 1
      cases hinserted : U.inserted write <;> simp [hinserted]

/-- A batch that is not refused inserts new keys only. -/
theorem nodup_of_accepted {writes : List W} {db : Db} (hadmits : ∀ write ∈ writes, U.admits write)
    (hdb : (U.keys db).Nodup) (haccepted : S.refusesAll writes db = none) :
    (U.keys db ++ U.insertedAll writes).Nodup := by
  induction writes generalizing db with
  | nil => simpa using hdb
  | cons write writes ih =>
      obtain ⟨hkeeps, hadmits⟩ := List.forall_mem_cons.mp hadmits
      rw [Store.refusesAll_cons_eq_none] at haccepted
      obtain ⟨hwrite, hrest⟩ := haccepted
      have hone : (U.keys (S.apply write db)).Nodup := by
        rw [U.keys_apply write db hkeeps]
        cases hinserted : U.inserted write with
        | none => simpa using hdb
        | some key =>
            have hnew : key ∉ U.keys db := fun hmem => U.refused write db key hinserted hmem hwrite
            rw [Option.toList_some, ← List.concat_eq_append]
            exact hdb.concat hnew
      have hall := ih hadmits hone hrest
      rw [U.keys_apply write db hkeeps] at hall
      have hsplit : U.insertedAll (write :: writes) =
          (U.inserted write).toList ++ U.insertedAll writes := by
        rw [insertedAll, insertedAll]
        cases hinserted : U.inserted write <;> simp [hinserted]
      rwa [hsplit, ← List.append_assoc]

/-- The keys on file and those of each session's flushed rows are all different. -/
structure Kept (σ : System ι Db W L D E α) : Prop where
  db : (U.keys σ.db).Nodup
  flushed : ∀ i, (U.keys σ.db ++ U.insertedAll (σ.session i).flushed).Nodup
  apart : ∀ i j, i ≠ j → (U.insertedAll (σ.session i).flushed).Disjoint
    (U.insertedAll (σ.session j).flushed)

variable {U}

theorem kept_start {db : Db} {program : ι → Program Db W L D E α} {draws : ι → ℕ → D}
    (hdb : (U.keys db).Nodup) : U.Kept (System.start db program draws) where
  db := hdb
  flushed i := by simpa [System.start, Session.start] using hdb
  apart i j _ := by simp [System.start, Session.start]

variable {σ : System ι Db W L D E α} {k : ι}

/-- The batch of a session that flushes in turn is new, and apart from what the others
flushed. -/
theorem Kept.batch (h : U.Kept σ) (hadmits : ∀ write ∈ (σ.session k).batch, U.admits write)
    (herror : (σ.session k).flushError S σ.db = none)
    (hfree : σ.TurnOf S k) :
    (U.keys σ.db ++ U.insertedAll (σ.session k).batch).Nodup ∧
      ∀ j, j ≠ k → (U.insertedAll (σ.session k).batch).Disjoint
        (U.insertedAll (σ.session j).flushed) := by
  refine ⟨?_, ?_⟩
  · have haccepted := Session.refusesAll_of_flushError herror
    have hflushed : ∀ write ∈ (σ.session k).flushed, U.admits write :=
      fun write hwrite => hadmits write (List.mem_append_left _ hwrite)
    have hpending : ∀ write ∈ (σ.session k).pending, U.admits write :=
      fun write hwrite => hadmits write (List.mem_append_right _ hwrite)
    have hseen : (U.keys ((σ.session k).view S σ.db)).Nodup := by
      rw [Session.view, keys_applyAll U hflushed]
      exact h.flushed k
    have hview := U.nodup_of_accepted hpending hseen haccepted
    rw [Session.view, keys_applyAll U hflushed, List.append_assoc, ← insertedAll_append] at hview
    exact hview
  · intro j hj key hkey hother
    rw [Session.batch, insertedAll_append, List.mem_append] at hkey
    rcases hkey with hflushed | hpending
    · exact h.apart k j hj.symm hflushed hother
    · obtain ⟨write, hwrite, hinserted⟩ := List.mem_filterMap.mp hpending
      obtain ⟨other, hmem, hsame⟩ := List.mem_filterMap.mp hother
      exact hfree j hj write hwrite other hmem (U.waits write other key hinserted hsame)

variable [DecidableEq ι]

/-- One step keeps the keys apart. -/
theorem Kept.move (h : U.Kept σ) (hadmits : ∀ write ∈ (σ.session k).batch, U.admits write)
    (hfree : ¬ σ.Blocked S k) : U.Kept (σ.move S k) := by
  have hother : ∀ {j}, j ≠ k → ((σ.move S k).session j).flushed = (σ.session j).flushed :=
    fun hj => by rw [System.move_session_of_ne hj]
  rcases System.move_flushed S σ k with ⟨hdb, hsame⟩ | ⟨hturn, herror, hrest⟩
  · -- The mover keeps its flushed rows or loses them.
    have hmover : (U.insertedAll ((σ.move S k).session k).flushed).Sublist
        (U.insertedAll (σ.session k).flushed) := by
      rcases hsame with hsame | hsame
      · rw [hsame]
      · rw [hsame]
        exact List.nil_sublist _
    have hsub : ∀ i, (U.insertedAll ((σ.move S k).session i).flushed).Sublist
        (U.insertedAll (σ.session i).flushed) := by
      intro i
      by_cases hi : i = k
      · rw [hi]
        exact hmover
      · rw [hother hi]
    refine ⟨by rw [hdb]; exact h.db, fun i => ?_, fun i j hij => ?_⟩
    · rw [hdb]
      exact (h.flushed i).sublist ((List.Sublist.refl _).append (hsub i))
    · intro key hi hj
      exact h.apart i j hij ((hsub i).subset hi) ((hsub j).subset hj)
  · obtain ⟨hnodup, happart⟩ := h.batch hadmits herror (hturn hfree)
    rcases hrest with ⟨hdb, hflushed⟩ | ⟨hdb, hflushed⟩
    · refine ⟨by rw [hdb]; exact h.db, fun i => ?_, fun i j hij => ?_⟩
      · rw [hdb]
        by_cases hi : i = k
        · rw [hi, hflushed]
          exact hnodup
        · rw [hother hi]
          exact h.flushed i
      · by_cases hi : i = k <;> by_cases hj : j = k
        · exact (hij (hi.trans hj.symm)).elim
        · rw [hi, hflushed, hother hj]
          exact happart j hj
        · rw [hj, hflushed, hother hi]
          exact (happart i hi).symm
        · rw [hother hi, hother hj]
          exact h.apart i j hij
    · have hkeys : U.keys (σ.move S k).db = U.keys σ.db ++ U.insertedAll (σ.session k).batch := by
        rw [hdb, keys_applyAll U hadmits]
      refine ⟨by rw [hkeys]; exact hnodup, fun i => ?_, fun i j hij => ?_⟩
      · rw [hkeys]
        by_cases hi : i = k
        · rw [hi, hflushed]
          simpa using hnodup
        · rw [hother hi]
          refine hnodup.append ((List.sublist_append_right _ _).nodup (h.flushed i)) ?_
          refine List.disjoint_append_left.mpr ⟨?_, happart i hi⟩
          exact List.disjoint_of_nodup_append (h.flushed i)
      · by_cases hi : i = k <;> by_cases hj : j = k
        · exact (hij (hi.trans hj.symm)).elim
        · rw [hi, hflushed]
          simp
        · rw [hj, hflushed]
          simp
        · rw [hother hi, hother hj]
          exact h.apart i j hij

/-- In every reachable state the committed keys are unique. -/
theorem nodup_of_reachable (U : UniqueKey S K) {allowed : System ι Db W L D E α → ι → Prop}
    {σ₀ : System ι Db W L D E α} (hreach : System.Reachable S allowed σ₀ σ)
    (hwrites : σ₀.Writes U.admits) (hstart : U.Kept σ₀) : (U.keys σ.db).Nodup := by
  have hkept : U.Kept σ := by
    induction hreach with
    | start => exact hstart
    | @step σ k hreach hfree _ ih => exact ih.move (hreach.writes hwrites k).2 hfree
  exact hkept.db

end UniqueKey

end Transaction
