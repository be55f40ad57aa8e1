/-
# Files that come into place in one move

Programs that write files on one disk. A program makes a file of its own under a name that nobody
has, writes to it through a file object and moves it into place. What is written arrives in parts,
at times of the system's choosing, and outlives a loss of power only once it is synchronized; a move
happens at once or not at all. The programs go on in any order, each can stop for good after any
operation, and a loss of power stops all that have begun; it can also take back moves and removals
that the disk has not recorded yet.
-/

import PortForge.Effects.Runs
import Mathlib.Data.List.Basic
import Mathlib.Logic.Function.Basic

namespace Effects

/-! ## Files -/

/-- A file: what a reader finds in it, what has been written to it so far, and whether its content
outlives a loss of power. -/
structure File (B : Type) where
  content : List B
  written : List B
  synced : Bool

namespace File

variable {B : Type} {f f' : File B} {data : List B}

/-- A file that holds what was written to it, for good. -/
def stored (data : List B) : File B := ⟨data, data, true⟩

/-- More of what was written has arrived, or nothing has. -/
structure Settles (f f' : File B) : Prop where
  written : f'.written = f.written
  grows : f.content <+: f'.content
  within : f'.content <+: f.written
  synced : f'.synced = true ↔ f.synced = true ∧ f'.content = f.content

theorem Settles.eq_stored (h : (stored data).Settles f') : f' = stored data := by
  obtain ⟨content, written, synced⟩ := f'
  obtain rfl : written = data := h.written
  have hlength := Nat.le_antisymm h.within.length_le h.grows.length_le
  obtain rfl : content = written := h.within.eq_of_length hlength
  obtain rfl : synced = true := h.synced.mpr ⟨rfl, rfl⟩
  rfl

end File

/-- The operations on a file object. -/
inductive HandleOp (B : Type) : Type
  | fdopen
  | write (data : List B)
  | flush
  | fsync
  | close
  | chmod

/-- What an operation does to its file, when it succeeds and when it fails. -/
def HandleOp.After {B X : Type} : HandleOp B → Except X Unit → File B → File B → Prop
  | .fdopen, _, f, f' => f' = f
  | .write data, _, f, f' => ({ f with written := f.written ++ data } : File B).Settles f'
  | .flush, answer, f, f' => f.Settles f' ∧ (answer = .ok () → f'.content = f.written)
  | .fsync, .ok _, f, f' => f' = { f with synced := true }
  | .fsync, .error _, f, f' => f' = f
  | .close, answer, f, f' => f.Settles f' ∧ (answer = .ok () → f'.content = f.written)
  | .chmod, _, f, f' => f' = f

/-! ## The disk -/

/-- The operations of a program: `T` are the names of its own files, `L` the places. -/
inductive PlaceOp (T L B : Type) : Type
  | /-- Make the directory of a place, if it is not there. -/
    mkdir (place : L)
  | /-- Make a file under a name that nobody has, in the directory of a place. -/
    mkstemp (stem : String) (place : L)
  | /-- Work on a file through its file object. -/
    handle (temp : T) (op : HandleOp B)
  | /-- Move a file into a place. -/
    replace (temp : T) (place : L)
  | /-- Remove a file, if it is there. -/
    unlink (temp : T)

/-- What an operation returns. -/
@[reducible]
def PlaceOp.Value {T L B : Type} : PlaceOp T L B → Type
  | mkstemp _ _ => T
  | _ => Unit

/-- An operation returns, or fails with an error `X` of the system. -/
abbrev PlaceOp.Answer (X : Type) {T L B : Type} (op : PlaceOp T L B) : Type := Except X op.Value

/-- An operation and what came of it. -/
abbrev PlaceEvent (X T L B : Type) : Type := Sigma fun op : PlaceOp T L B => op.Answer X

/-- The programs' own files, the files in their places, and those that were there before and that a
loss of power can bring back. -/
structure Tree (T L B : Type) where
  temps : T → Option (File B)
  places : L → Option (File B)
  past : L → List (Option (File B))

namespace Tree

variable {T L B X : Type} [DecidableEq T] [DecidableEq L]

/-- With a program's own file changed or removed. -/
def setTemp (t : Tree T L B) (temp : T) (file : Option (File B)) : Tree T L B :=
  { t with temps := Function.update t.temps temp file }

/-- With a file moved into a place. -/
def setPlace (t : Tree T L B) (place : L) (file : File B) : Tree T L B :=
  { t with
    places := Function.update t.places place (some file)
    past := Function.update t.past place (t.places place :: t.past place) }

/-- What an operation can leave behind with its answer. -/
def After (t : Tree T L B) : (op : PlaceOp T L B) → op.Answer X → Tree T L B → Prop
  | .mkdir _, _, t' => t' = t
  | .mkstemp _ _, .ok temp, t' => t.temps temp = none ∧ t' = t.setTemp temp (some ⟨[], [], false⟩)
  | .mkstemp _ _, .error _, t' => t' = t
  | .handle temp op, answer, t' =>
      match t.temps temp with
      | none => t' = t
      | some f => ∃ f', op.After answer f f' ∧ t' = t.setTemp temp (some f')
  | .replace temp place, .ok _, t' =>
      ∃ f, t.temps temp = some f ∧ t' = (t.setTemp temp none).setPlace place f
  | .replace _ _, .error _, t' => t' = t
  | .unlink temp, .ok _, t' => t' = t.setTemp temp none
  | .unlink _, .error _, t' => t' = t

/-- A loss of power: a name has a file only if it had one before or once was made, and a place has
what it had at some time; what was not synchronized may be lost or torn. -/
structure Loses (made : T → Prop) (t t' : Tree T L B) : Prop where
  temps : ∀ temp, t'.temps temp ≠ none → t.temps temp ≠ none ∨ made temp
  places : ∀ place, ∃ old ∈ t.places place :: t.past place,
    (old = none → t'.places place = none) ∧
      ∀ f, old = some f → f.synced = true → t'.places place = some f
  past : ∀ place, t'.past place = []

end Tree

/-! ## Programs at work -/

/-- Programs at work on one disk, what they have done so far, and which of them have been stopped
by a loss of power. -/
structure Writers (ι T L B X E α : Type) where
  tree : Tree T L B
  program : ι → Program (PlaceOp T L B) (PlaceOp.Answer X) E α
  trace : List (ι × PlaceEvent X T L B)
  stopped : ι → Prop

namespace Writers

variable {ι T L B X E α : Type} [DecidableEq ι] [DecidableEq T] [DecidableEq L]

/-- Before the first operation. There may be files that earlier programs have left. -/
def start (old : T → Option (File B)) (contents : L → Option (List B))
    (program : ι → Program (PlaceOp T L B) (PlaceOp.Answer X) E α) :
    Writers ι T L B X E α where
  tree := ⟨old, fun place => (contents place).map File.stored, fun _ => []⟩
  program := program
  trace := []
  stopped := fun _ => False

/-- The program has made a file under this name. -/
def Made (trace : List (ι × PlaceEvent X T L B)) (i : ι) (temp : T) : Prop :=
  ∃ stem place, (i, (⟨.mkstemp stem place, .ok temp⟩ : PlaceEvent X T L B)) ∈ trace

/-- What the programs can reach. One that is killed makes no more moves. -/
inductive Reaches (s₀ : Writers ι T L B X E α) : Writers ι T L B X E α → Prop
  | start : Reaches s₀ s₀
  | /-- A program performs its next operation. -/
    perform {s : Writers ι T L B X E α} (h : Reaches s₀ s) (i : ι) (hstopped : ¬ s.stopped i)
      {op : PlaceOp T L B} {next : op.Answer X → Program (PlaceOp T L B) (PlaceOp.Answer X) E α}
      (hprogram : s.program i = .call op next) (answer : op.Answer X) (tree : Tree T L B)
      (hafter : s.tree.After op answer tree) :
      Reaches s₀
        { tree := tree
          program := Function.update s.program i (next answer)
          trace := s.trace ++ [(i, ⟨op, answer⟩)]
          stopped := s.stopped }
  | /-- The power is lost. -/
    powerLoss {s : Writers ι T L B X E α} (h : Reaches s₀ s) (tree : Tree T L B)
      (hloss : s.tree.Loses (fun temp => ∃ i, Made s.trace i temp) tree) :
      Reaches s₀ { s with tree := tree, stopped := fun i => ∃ event, (i, event) ∈ s.trace }

end Writers

/-- A loss of power when all is on record, which loses nothing. -/
theorem Writers.Reaches.powerLoss_recorded {ι T L B X E α : Type} [DecidableEq ι] [DecidableEq T]
    [DecidableEq L] {s₀ s : Writers ι T L B X E α} (h : Reaches s₀ s) :
    Reaches s₀
      { s with
        tree := { s.tree with past := fun _ => [] }
        stopped := fun i => ∃ event, (i, event) ∈ s.trace } :=
  h.powerLoss _ ⟨fun _ hexists => .inl hexists,
    fun _ => ⟨_, List.mem_cons_self, id, fun _ hfile _ => hfile⟩, fun _ => rfl⟩

/-- The programs that have moved a file into place, in order. -/
def placements {ι T L B X : Type} (trace : List (ι × PlaceEvent X T L B)) : List ι :=
  trace.filterMap fun entry =>
    match entry.2 with
    | ⟨.replace _ _, .ok _⟩ => some entry.1
    | _ => none

/-! ## Programs that keep to a file of their own -/

/-- What a program has of its own. -/
inductive Hold (T B : Type) : Type
  | /-- It has made no file, or removed it again. -/
    nothing
  | own (temp : T) (file : File B)
  | /-- It has moved its file into place. -/
    placed
  | /-- It could not remove its file. -/
    left (temp : T)

/-- What a program is for: a content for a place. -/
structure Goal (L B : Type) where
  place : L
  data : List B

namespace Hold

variable {T L B X : Type}

/-- The operation is one for this stage: the program works on its own file only, and moves it only
when all the content is there for good. -/
def Allows (goal : Goal L B) : PlaceOp T L B → Hold T B → Prop
  | .mkdir _, hold => hold = .nothing
  | .mkstemp _ _, hold => hold = .nothing
  | .handle temp _, hold => ∃ f, hold = .own temp f
  | .replace temp place, hold => place = goal.place ∧ hold = .own temp (.stored goal.data)
  | .unlink temp, hold => ∃ f, hold = .own temp f

/-- What the program has after an operation. -/
def After : (op : PlaceOp T L B) → op.Answer X → Hold T B → Hold T B → Prop
  | .mkdir _, _, hold, hold' => hold' = hold
  | .mkstemp _ _, .ok temp, _, hold' => hold' = .own temp ⟨[], [], false⟩
  | .mkstemp _ _, .error _, hold, hold' => hold' = hold
  | .handle temp op, answer, hold, hold' =>
      ∃ f f', hold = .own temp f ∧ op.After answer f f' ∧ hold' = .own temp f'
  | .replace _ _, .ok _, _, hold' => hold' = .placed
  | .replace _ _, .error _, hold, hold' => hold' = hold
  | .unlink _, .ok _, _, hold' => hold' = .nothing
  | .unlink temp, .error _, _, hold' => hold' = .left temp

end Hold

namespace Program

variable {T L B X E α β : Type} {goal : Goal L B} {hold : Hold T B}
  {p : Program (PlaceOp T L B) (PlaceOp.Answer X) E α} {post post' : Hold T B → α → Prop}
  {fails fails' : Hold T B → E → Prop}

/-- The program keeps to its own file, and ends so: `post` holds where it returns, and `fails`
where it raises. -/
def Keeps (goal : Goal L B) (post : Hold T B → α → Prop) (fails : Hold T B → E → Prop) :
    Program (PlaceOp T L B) (PlaceOp.Answer X) E α → Hold T B → Prop
  | ret value, hold => post hold value
  | raise error, hold => fails hold error
  | call op next, hold =>
      Hold.Allows goal op hold ∧ ∀ answer hold', Hold.After op answer hold hold' →
        (next answer).Keeps goal post fails hold'

theorem Keeps.mono (h : p.Keeps goal post fails hold)
    (hpost : ∀ later value, post later value → post' later value)
    (hfails : ∀ later error, fails later error → fails' later error) :
    p.Keeps goal post' fails' hold := by
  induction p generalizing hold with
  | ret value => exact hpost hold value h
  | raise error => exact hfails hold error h
  | call op next ih => exact ⟨h.1, fun answer later hafter => ih answer (h.2 answer later hafter)⟩

/-- A composition goes on where its first part returns. -/
theorem keeps_bind {f : α → Program (PlaceOp T L B) (PlaceOp.Answer X) E β}
    {post : Hold T B → β → Prop} :
    (p.bind f).Keeps goal post fails hold ↔
      p.Keeps goal (fun later value => (f value).Keeps goal post fails later) fails hold := by
  induction p generalizing hold with
  | ret value | raise error => exact Iff.rfl
  | call op next ih =>
      exact and_congr_right fun _ => forall_congr' fun answer => forall_congr' fun later =>
        imp_congr_right fun _ => ih answer

/-- An attempt ends as the program does. -/
theorem keeps_attempt {post : Hold T B → Except E α → Prop} :
    p.attempt.Keeps goal post fails hold ↔
      p.Keeps goal (fun later value => post later (.ok value))
        (fun later error => post later (.error error)) hold := by
  induction p generalizing hold with
  | ret value | raise error => exact Iff.rfl
  | call op next ih =>
      exact and_congr_right fun _ => forall_congr' fun answer => forall_congr' fun later =>
        imp_congr_right fun _ => ih answer

end Program

/-! ## What every order of operations keeps -/

namespace Writers

variable {ι T L B X E α : Type} [DecidableEq ι] [DecidableEq T] [DecidableEq L]
  {old : T → Option (File B)} {contents : L → Option (List B)} {goal : ι → Goal L B}
  {s s₀ : Writers ι T L B X E α}
  {hold : ι → Hold T B} {post : Hold T B → α → Prop} {fails : Hold T B → E → Prop}

/-- The contents after some programs have put theirs in place, one after another. -/
def contentsAfter (goal : ι → Goal L B) (contents : L → Option (List B)) (order : List ι) :
    L → Option (List B) :=
  order.foldl (fun found i => Function.update found (goal i).place (some (goal i).data)) contents

omit [DecidableEq ι] in
theorem contentsAfter_concat {order : List ι} {i : ι} :
    contentsAfter goal contents (order ++ [i]) =
      Function.update (contentsAfter goal contents order) (goal i).place (some (goal i).data) :=
  List.foldl_append

/-- A place had this at the start, or one of the programs has put it there. -/
def Whole (contents : L → Option (List B)) (goal : ι → Goal L B) (order : List ι) (place : L)
    (file : Option (File B)) : Prop :=
  file = (contents place).map File.stored ∨
    ∃ i ∈ order, (goal i).place = place ∧ file = some (.stored (goal i).data)

omit [DecidableEq ι] [DecidableEq L] in
theorem Whole.mono {order order' : List ι} {place : L} {file : Option (File B)}
    (h : Whole contents goal order place file) (horder : ∀ i ∈ order, i ∈ order') :
    Whole contents goal order' place file :=
  h.imp_right fun hmoved => hmoved.imp fun i hi => ⟨horder i hi.1, hi.2⟩

/-- What holds in every state: each program that has not been stopped has its own file, the places
have what was put there, and the other files are somebody's. -/
structure Sound (old : T → Option (File B)) (contents : L → Option (List B)) (goal : ι → Goal L B)
    (post : Hold T B → α → Prop) (fails : Hold T B → E → Prop) (s : Writers ι T L B X E α)
    (hold : ι → Hold T B) : Prop where
  program : ∀ i, (s.program i).Keeps (goal i) post fails (hold i)
  own : ∀ i, ¬ s.stopped i → ∀ temp f, hold i = .own temp f → s.tree.temps temp = some f
  apart : ∀ i j, ¬ s.stopped i → ¬ s.stopped j → ∀ temp f g, hold i = .own temp f →
    hold j = .own temp g → i = j
  fresh : ∀ i, (∀ event, (i, event) ∉ s.trace) → hold i = .nothing
  whole : ∀ place, ∀ file ∈ s.tree.places place :: s.tree.past place,
    Whole contents goal (placements s.trace) place file
  places : (∀ i, ¬ s.stopped i) → ∀ place, s.tree.places place =
    (contentsAfter goal contents (placements s.trace) place).map File.stored
  placed : ∀ i, i ∈ placements s.trace ↔ hold i = .placed
  once : (placements s.trace).Nodup
  temps : ∀ temp, s.tree.temps temp ≠ none → old temp ≠ none ∨ ∃ i, Made s.trace i temp ∧
    (s.stopped i ∨ (∃ f, hold i = .own temp f) ∨ hold i = .left temp)
  left : ∀ i temp, hold i = .left temp → ∃ error, (i, ⟨.unlink temp, .error error⟩) ∈ s.trace

omit [DecidableEq T] in
/-- One operation leaves the rest as it is, changes the program's own file, or moves it. -/
theorem Sound.of_operation (h : Sound old contents goal post fails s hold) {i : ι}
    {op : PlaceOp T L B} {next : op.Answer X → Program (PlaceOp T L B) (PlaceOp.Answer X) E α}
    (hprogram : s.program i = .call op next) {answer : op.Answer X} {tree : Tree T L B}
    (now : Hold T B) (hafter : Hold.After op answer (hold i) now)
    (hown : ∀ temp f, now = .own temp f → tree.temps temp = some f ∧
      ∀ j, j ≠ i → ¬ s.stopped j → ∀ g, hold j ≠ .own temp g)
    (hothers : ∀ j, j ≠ i → ¬ s.stopped j → ∀ temp f, hold j = .own temp f →
      tree.temps temp = some f)
    (hmoved : placements [(i, (⟨op, answer⟩ : PlaceEvent X T L B))] = [] ∧
        (tree.places = s.tree.places ∧ tree.past = s.tree.past) ∧
        (now = .placed ↔ hold i = .placed) ∨
      placements [(i, (⟨op, answer⟩ : PlaceEvent X T L B))] = [i] ∧
        (tree.places = (s.tree.setPlace (goal i).place (.stored (goal i).data)).places ∧
          tree.past = (s.tree.setPlace (goal i).place (.stored (goal i).data)).past) ∧
        now = .placed ∧ hold i ≠ .placed)
    (htemps : ∀ temp, tree.temps temp ≠ none →
      (s.tree.temps temp ≠ none ∧ ((∃ f, hold i = .own temp f) ∨ hold i = .left temp →
        (∃ f, now = .own temp f) ∨ now = .left temp)) ∨
      (∃ f, now = .own temp f) ∧ Made [(i, (⟨op, answer⟩ : PlaceEvent X T L B))] i temp)
    (hleft : ∀ temp, now = .left temp → ∃ error,
      (⟨op, answer⟩ : PlaceEvent X T L B) = ⟨.unlink temp, .error error⟩) :
    Sound old contents goal post fails
      { tree := tree
        program := Function.update s.program i (next answer)
        trace := s.trace ++ [(i, ⟨op, answer⟩)]
        stopped := s.stopped }
      (Function.update hold i now) := by
  have hplacements : placements (s.trace ++ [(i, (⟨op, answer⟩ : PlaceEvent X T L B))]) =
      placements s.trace ++ placements [(i, (⟨op, answer⟩ : PlaceEvent X T L B))] :=
    List.filterMap_append
  have hself : Function.update hold i now i = now := Function.update_self i now hold
  have hother : ∀ j, j ≠ i → Function.update hold i now j = hold j := fun j hne =>
    Function.update_of_ne hne now hold
  constructor
  case program =>
    intro j
    by_cases hj : j = i
    · subst hj
      have hkeeps := h.program j
      have hnext : Function.update s.program j (next answer) j = next answer :=
        Function.update_self _ _ _
      rw [hprogram] at hkeeps
      change (Function.update s.program j (next answer) j).Keeps (goal j) post fails _
      rw [hnext, hself]
      exact hkeeps.2 answer now hafter
    · have hsame : Function.update s.program i (next answer) j = s.program j :=
        Function.update_of_ne hj _ _
      change (Function.update s.program i (next answer) j).Keeps (goal j) post fails _
      rw [hsame, hother j hj]
      exact h.program j
  case own =>
    intro j hj temp f hhold
    by_cases hji : j = i
    · subst hji
      rw [hself] at hhold
      exact (hown temp f hhold).1
    · rw [hother j hji] at hhold
      exact hothers j hji hj temp f hhold
  case apart =>
    intro j k hj hk temp f g hf hg
    by_cases hji : j = i
    · by_cases hki : k = i
      · rw [hji, hki]
      · rw [hji, hself] at hf
        rw [hother k hki] at hg
        exact absurd hg ((hown temp f hf).2 k hki hk g)
    · rw [hother j hji] at hf
      by_cases hki : k = i
      · rw [hki, hself] at hg
        exact absurd hf ((hown temp g hg).2 j hji hj f)
      · rw [hother k hki] at hg
        exact h.apart j k hj hk temp f g hf hg
  case fresh =>
    intro j hj
    by_cases hji : j = i
    · subst hji
      exact absurd (List.mem_append_right _ (List.mem_singleton_self _)) (hj _)
    · rw [hother j hji]
      exact h.fresh j fun event hevent => hj event (List.mem_append_left _ hevent)
  case whole =>
    intro place file hfile
    rw [hplacements]
    rcases hmoved with ⟨hnone, ⟨hplaces, hpast⟩, -⟩ | ⟨hsome, ⟨hplaces, hpast⟩, -⟩
    · rw [hnone, List.append_nil]
      refine h.whole place file ?_
      rwa [hplaces, hpast] at hfile
    · have hlater : ∀ j ∈ placements s.trace, j ∈ placements s.trace ++ [i] := fun j hj =>
        List.mem_append_left _ hj
      rw [hplaces, hpast] at hfile
      rw [hsome]
      by_cases hplace : place = (goal i).place
      · subst hplace
        simp only [Tree.setPlace, Function.update_self] at hfile
        rcases List.mem_cons.mp hfile with rfl | hearlier
        · exact .inr ⟨i, List.mem_append_right _ (List.mem_singleton_self i), rfl, rfl⟩
        · exact (h.whole _ file hearlier).mono hlater
      · simp only [Tree.setPlace, Function.update_of_ne hplace] at hfile
        exact (h.whole place file hfile).mono hlater
  case places =>
    intro hlit place
    rw [hplacements]
    rcases hmoved with ⟨hnone, ⟨hplaces, -⟩, -⟩ | ⟨hsome, ⟨hplaces, -⟩, -⟩
    · rw [hnone, List.append_nil, hplaces]
      exact h.places hlit place
    · rw [hsome, hplaces, contentsAfter_concat, Tree.setPlace]
      by_cases hplace : place = (goal i).place
      · subst hplace
        simp
      · simpa [hplace] using h.places hlit place
  case placed =>
    intro j
    rw [hplacements, List.mem_append, h.placed j]
    rcases hmoved with ⟨hnone, -, hsame⟩ | ⟨hsome, -, hnow, hbefore⟩
    · rw [hnone]
      by_cases hji : j = i
      · subst hji
        simp [hsame]
      · simp [hother j hji]
    · rw [hsome]
      by_cases hji : j = i
      · subst hji
        simp [hnow]
      · simp [hji]
  case once =>
    rw [hplacements]
    rcases hmoved with ⟨hnone, -, -⟩ | ⟨hsome, -, -, hbefore⟩
    · rw [hnone, List.append_nil]
      exact h.once
    · rw [hsome, List.nodup_append]
      refine ⟨h.once, List.pairwise_singleton _ i, fun j hj k hk => ?_⟩
      obtain rfl := List.mem_singleton.mp hk
      rintro rfl
      exact hbefore ((h.placed j).mp hj)
  case temps =>
    intro temp htemp
    rcases htemps temp htemp with ⟨hexists, hkept⟩ | ⟨hnow, stem, place, hmade⟩
    · refine (h.temps temp hexists).imp_right ?_
      rintro ⟨j, ⟨stem, place, hmade⟩, hj⟩
      refine ⟨j, ⟨stem, place, List.mem_append_left _ hmade⟩, ?_⟩
      by_cases hji : j = i
      · subst hji
        rw [hself]
        exact hj.imp_right hkept
      · rw [hother j hji]
        exact hj
    · refine .inr ⟨i, ⟨stem, place, List.mem_append_right _ hmade⟩, .inr (.inl ?_)⟩
      rw [hself]
      exact hnow
  case left =>
    intro j temp hj
    by_cases hji : j = i
    · subst hji
      rw [hself] at hj
      obtain ⟨error, hevent⟩ := hleft temp hj
      exact ⟨error, List.mem_append_right _ (by rw [hevent]; exact List.mem_singleton_self _)⟩
    · rw [hother j hji] at hj
      obtain ⟨error, hevent⟩ := h.left j temp hj
      exact ⟨error, List.mem_append_left _ hevent⟩

omit [DecidableEq T] in
/-- An operation that changes nothing. -/
theorem Sound.of_quiet (h : Sound old contents goal post fails s hold) {i : ι}
    (hstopped : ¬ s.stopped i) {op : PlaceOp T L B}
    {next : op.Answer X → Program (PlaceOp T L B) (PlaceOp.Answer X) E α}
    (hprogram : s.program i = .call op next) {answer : op.Answer X}
    (hafter : Hold.After op answer (hold i) (hold i)) (hnotleft : ∀ temp, hold i ≠ .left temp)
    (hmoved : placements [(i, (⟨op, answer⟩ : PlaceEvent X T L B))] = []) :
    Sound old contents goal post fails
      { tree := s.tree
        program := Function.update s.program i (next answer)
        trace := s.trace ++ [(i, ⟨op, answer⟩)]
        stopped := s.stopped }
      (Function.update hold i (hold i)) := by
  refine h.of_operation hprogram _ hafter (fun temp f hf => ⟨h.own i hstopped temp f hf, ?_⟩)
    (fun j _ hj => h.own j hj) (.inl ⟨hmoved, ⟨rfl, rfl⟩, Iff.rfl⟩) (fun temp ht => .inl ⟨ht, id⟩)
    fun temp hleft => absurd hleft (hnotleft temp)
  exact fun j hj hjs g hg => hj (h.apart j i hjs hstopped temp g f hg hf)

/-- Every operation of a program keeps the state sound. -/
theorem Sound.perform (h : Sound old contents goal post fails s hold) {i : ι}
    (hstopped : ¬ s.stopped i) {op : PlaceOp T L B}
    {next : op.Answer X → Program (PlaceOp T L B) (PlaceOp.Answer X) E α}
    (hprogram : s.program i = .call op next) {answer : op.Answer X} {tree : Tree T L B}
    (hafter : s.tree.After op answer tree) :
    ∃ hold', Sound old contents goal post fails
      { tree := tree
        program := Function.update s.program i (next answer)
        trace := s.trace ++ [(i, ⟨op, answer⟩)]
        stopped := s.stopped } hold' := by
  have hallows : Hold.Allows (goal i) op (hold i) := by
    have hkeeps := h.program i
    rw [hprogram] at hkeeps
    exact hkeeps.1
  -- another program's file has another name
  have hapart : ∀ {temp f}, hold i = .own temp f → ∀ j, j ≠ i → ¬ s.stopped j → ∀ other g,
      hold j = .own other g → other ≠ temp := by
    rintro temp f hf j hj hjs other g hg rfl
    exact hj (h.apart j i hjs hstopped _ g f hg hf)
  cases op with
  | mkdir place =>
      obtain rfl : tree = s.tree := hafter
      have hnothing : hold i = .nothing := hallows
      exact ⟨_, h.of_quiet hstopped hprogram rfl (by simp [hnothing]) rfl⟩
  | mkstemp stem place =>
      have hnothing : hold i = .nothing := hallows
      cases answer with
      | error error =>
          obtain rfl : tree = s.tree := hafter
          exact ⟨_, h.of_quiet hstopped hprogram rfl (by simp [hnothing]) rfl⟩
      | ok temp =>
          obtain ⟨hfree, rfl⟩ := hafter
          refine ⟨_, h.of_operation hprogram (.own temp ⟨[], [], false⟩) rfl ?_ ?_
            (.inl ⟨rfl, ⟨rfl, rfl⟩, by simp [hnothing]⟩) ?_ fun _ hleft => by cases hleft⟩
          · rintro _ _ ⟨rfl, rfl⟩
            refine ⟨Function.update_self _ _ _, fun j _ hj g hg => ?_⟩
            rw [h.own j hj temp g hg] at hfree
            cases hfree
          · intro j _ hj other f hf
            have hfound := h.own j hj other f hf
            have hne : other ≠ temp := by
              rintro rfl
              rw [hfound] at hfree
              cases hfree
            exact (Function.update_of_ne hne _ _).trans hfound
          · intro other hother
            by_cases hne : other = temp
            · subst hne
              exact .inr ⟨⟨_, rfl⟩, stem, place, List.mem_singleton_self _⟩
            · refine .inl ⟨fun hnone => hother ((Function.update_of_ne hne _ _).trans hnone), ?_⟩
              simp [hnothing]
  | handle temp op =>
      obtain ⟨f, hf⟩ := hallows
      have hfound := h.own i hstopped temp f hf
      have hrewritten : ∃ f', op.After answer f f' ∧ tree = s.tree.setTemp temp (some f') := by
        simpa only [Tree.After, hfound] using hafter
      obtain ⟨f', hop, rfl⟩ := hrewritten
      refine ⟨_, h.of_operation hprogram (.own temp f') ⟨f, f', hf, hop, rfl⟩ ?_ ?_
        (.inl ⟨rfl, ⟨rfl, rfl⟩, by simp [hf]⟩) ?_ fun _ hleft => by cases hleft⟩
      · rintro _ _ ⟨rfl, rfl⟩
        exact ⟨Function.update_self _ _ _, fun j hj hjs g hg => hapart hf j hj hjs temp g hg rfl⟩
      · intro j hj hjs other g hg
        exact (Function.update_of_ne (hapart hf j hj hjs other g hg) _ _).trans
          (h.own j hjs other g hg)
      · intro other hother
        by_cases hne : other = temp
        · subst hne
          exact .inl ⟨by rw [hfound]; simp, fun _ => .inl ⟨f', rfl⟩⟩
        · refine .inl ⟨fun hnone => hother ((Function.update_of_ne hne _ _).trans hnone), ?_⟩
          rintro (⟨g, hg⟩ | hg) <;> rw [hf] at hg <;> cases hg
          exact absurd rfl hne
  | replace temp place =>
      obtain ⟨rfl, hf⟩ := hallows
      cases answer with
      | error error =>
          obtain rfl : tree = s.tree := hafter
          exact ⟨_, h.of_quiet hstopped hprogram rfl (by simp [hf]) rfl⟩
      | ok value =>
          obtain ⟨found, hfound, rfl⟩ := hafter
          rw [h.own i hstopped temp _ hf] at hfound
          cases hfound
          refine ⟨_, h.of_operation hprogram .placed rfl (fun _ _ hown => by cases hown) ?_
            (.inr ⟨rfl, ⟨rfl, rfl⟩, rfl, by simp [hf]⟩) ?_ fun _ hleft => by cases hleft⟩
          · intro j hj hjs other g hg
            exact (Function.update_of_ne (hapart hf j hj hjs other g hg) _ _).trans
              (h.own j hjs other g hg)
          · intro other hother
            have hne : other ≠ temp := by
              rintro rfl
              exact hother (Function.update_self _ _ _)
            refine .inl ⟨fun hnone => hother ((Function.update_of_ne hne _ _).trans hnone), ?_⟩
            rintro (⟨g, hg⟩ | hg) <;> rw [hf] at hg <;> cases hg
            exact absurd rfl hne
  | unlink temp =>
      obtain ⟨f, hf⟩ := hallows
      cases answer with
      | error error =>
          obtain rfl : tree = s.tree := hafter
          refine ⟨_, h.of_operation hprogram (.left temp) rfl (fun _ _ hown => by cases hown)
            (fun j _ hj => h.own j hj) (.inl ⟨rfl, ⟨rfl, rfl⟩, by simp [hf]⟩)
            (fun other hother => .inl ⟨hother, ?_⟩) ?_⟩
          · rintro (⟨g, hg⟩ | hg) <;> rw [hf] at hg <;> cases hg
            exact .inr rfl
          · rintro _ ⟨rfl⟩
            exact ⟨error, rfl⟩
      | ok value =>
          obtain rfl : tree = s.tree.setTemp temp none := hafter
          refine ⟨_, h.of_operation hprogram .nothing rfl (fun _ _ hown => by cases hown) ?_
            (.inl ⟨rfl, ⟨rfl, rfl⟩, by simp [hf]⟩) ?_ fun _ hleft => by cases hleft⟩
          · intro j hj hjs other g hg
            exact (Function.update_of_ne (hapart hf j hj hjs other g hg) _ _).trans
              (h.own j hjs other g hg)
          · intro other hother
            have hne : other ≠ temp := by
              rintro rfl
              exact hother (Function.update_self _ _ _)
            refine .inl ⟨fun hnone => hother ((Function.update_of_ne hne _ _).trans hnone), ?_⟩
            rintro (⟨g, hg⟩ | hg) <;> rw [hf] at hg <;> cases hg
            exact absurd rfl hne

omit [DecidableEq ι] [DecidableEq T] [DecidableEq L] in
/-- What a loss of power leaves in a place is whole: it was synchronized before it came there. -/
theorem Sound.whole_of_loses {made : T → Prop} {tree : Tree T L B}
    (hwhole : ∀ place, ∀ file ∈ s.tree.places place :: s.tree.past place,
      Whole contents goal (placements s.trace) place file)
    (hloss : s.tree.Loses made tree) (place : L) :
    Whole contents goal (placements s.trace) place (tree.places place) := by
  obtain ⟨old, hold, hnone, hsome⟩ := hloss.places place
  rcases hwhole place old hold with hstart | ⟨i, hi, hplace, hmoved⟩
  · left
    cases hdata : contents place with
    | none => exact hnone (by rw [hstart, hdata]; rfl)
    | some data => exact hsome (.stored data) (by rw [hstart, hdata]; rfl) rfl
  · exact .inr ⟨i, hi, hplace, hsome _ hmoved rfl⟩

omit [DecidableEq ι] [DecidableEq T] in
/-- A loss of power keeps the state sound. -/
theorem Sound.powerLoss (h : Sound old contents goal post fails s hold) {tree : Tree T L B}
    (hloss : s.tree.Loses (fun temp => ∃ i, Made s.trace i temp) tree) :
    Sound old contents goal post fails
      { s with tree := tree, stopped := fun i => ∃ event, (i, event) ∈ s.trace } hold := by
  have hidle : ∀ i, ¬ (∃ event, (i, event) ∈ s.trace) → ∀ temp f, hold i ≠ .own temp f := by
    intro i hi temp f hf
    rw [h.fresh i fun event hevent => hi ⟨event, hevent⟩] at hf
    cases hf
  constructor
  case program => exact h.program
  case own => exact fun i hi temp f hf => absurd hf (hidle i hi temp f)
  case apart => exact fun i j hi _ temp f g hf _ => absurd hf (hidle i hi temp f)
  case fresh => exact h.fresh
  case whole =>
    intro place file hfile
    rw [hloss.past place] at hfile
    obtain rfl := List.mem_singleton.mp hfile
    exact Sound.whole_of_loses h.whole hloss place
  case places =>
    intro hlit place
    -- nothing has happened yet
    have htrace : s.trace = [] := List.eq_nil_iff_forall_not_mem.mpr fun entry hentry =>
      hlit entry.1 ⟨entry.2, hentry⟩
    have hwhole := Sound.whole_of_loses h.whole hloss place
    rw [htrace] at hwhole ⊢
    rcases hwhole with hstart | ⟨i, hi, -⟩
    · exact hstart
    · cases hi
  case placed => exact h.placed
  case once => exact h.once
  case temps =>
    intro temp htemp
    have hmade : old temp ≠ none ∨ ∃ i, Made s.trace i temp := by
      rcases hloss.temps temp htemp with hexists | hmade
      · exact (h.temps temp hexists).imp_right fun hmade => hmade.imp fun i hi => hi.1
      · exact .inr hmade
    refine hmade.imp_right ?_
    rintro ⟨i, stem, place, hmade⟩
    exact ⟨i, ⟨stem, place, hmade⟩, .inl ⟨_, hmade⟩⟩
  case left => exact h.left

omit [DecidableEq ι] [DecidableEq T] in
theorem sound_start {program : ι → Program (PlaceOp T L B) (PlaceOp.Answer X) E α}
    (hkeeps : ∀ i, (program i).Keeps (goal i) post fails .nothing) :
    Sound old contents goal post fails (start old contents program) fun _ => .nothing where
  program := hkeeps
  own := fun _ _ _ _ hown => by cases hown
  apart := fun _ _ _ _ _ _ _ hown => by cases hown
  fresh := fun _ _ => rfl
  whole := by
    intro place file hfile
    exact .inl (List.mem_singleton.mp hfile)
  places := fun _ _ => rfl
  placed := fun i => iff_of_false List.not_mem_nil fun hplaced => by cases hplaced
  once := List.nodup_nil
  temps := fun _ h => .inl h
  left := fun _ _ hleft => by cases hleft

/-- Programs that keep to their own files keep every state sound. -/
theorem Reaches.sound {program : ι → Program (PlaceOp T L B) (PlaceOp.Answer X) E α}
    (hkeeps : ∀ i, (program i).Keeps (goal i) post fails .nothing)
    (h : Reaches (Writers.start old contents program) s) :
    ∃ hold, Sound old contents goal post fails s hold := by
  induction h with
  | start => exact ⟨_, sound_start hkeeps⟩
  | perform h i hstopped hprogram answer tree hafter ih =>
      obtain ⟨hold, hsound⟩ := ih
      exact hsound.perform hstopped hprogram hafter
  | powerLoss h tree hloss ih =>
      obtain ⟨hold, hsound⟩ := ih
      exact ⟨hold, hsound.powerLoss hloss⟩

end Writers

end Effects
