/-
# Files that can fail

A disk maps locations to contents. A program reads a location, replaces its content
in one piece or removes it; the last two can fail and then change nothing. Each
write names the site in the program it comes from, and the disk carries, for every
site, which of its next operations will fail: this is how a single failing write is
chosen.
-/

import PortForge.Effects.Program
import Mathlib.Logic.Function.Basic

namespace Effects

/-- The operations on files. -/
inductive FileOp (Site L : Type) (C : L → Type) : Type
  | /-- Read the content, if there is any. -/
    read (location : L)
  | /-- Replace the content in one piece. -/
    write (site : Site) (location : L) (content : C location)
  | /-- Remove the content; nothing happens where there is none. -/
    unlink (site : Site) (location : L)

/-- What an operation answers: the content, or the error of the operating system. -/
@[reducible]
def FileOp.Answer {Site L : Type} {C : L → Type} : FileOp Site L C → Type
  | read location => Option (C location)
  | write _ _ _ => Option String
  | unlink _ _ => Option String

/-- The contents, and the failures to come at each site. -/
structure Disk (Site L : Type) (C : L → Type) where
  content : (location : L) → Option (C location)
  faults : Site → ℕ → Option String

namespace Disk

variable {Site L : Type} {C : L → Type} {d : Disk Site L C}

section Sites

variable [DecidableEq Site] {site other : Site}

/-- After an operation at a site. -/
def passed (d : Disk Site L C) (site : Site) : Disk Site L C :=
  { d with faults := Function.update d.faults site fun n => d.faults site (n + 1) }

@[simp]
theorem passed_content : (d.passed site).content = d.content := rfl

@[simp]
theorem passed_faults_self : (d.passed site).faults site = fun n => d.faults site (n + 1) := by
  simp [passed]

theorem passed_faults_of_ne (h : other ≠ site) :
    (d.passed site).faults other = d.faults other := by
  simp [passed, h]

end Sites

section Locations

variable [DecidableEq L] {location place : L} {content : Option (C location)}

/-- With a content replaced or removed. -/
def put (d : Disk Site L C) (location : L) (content : Option (C location)) : Disk Site L C :=
  { d with content := Function.update d.content location content }

@[simp]
theorem put_faults : (d.put location content).faults = d.faults := rfl

@[simp]
theorem put_content_self : (d.put location content).content location = content := by
  simp [put]

theorem put_content_of_ne (h : place ≠ location) :
    (d.put location content).content place = d.content place := by
  simp [put, h]

end Locations

variable [DecidableEq Site] [DecidableEq L]

/-- What an operation at a site answers and leaves behind, if it can fail. -/
def attempt (d : Disk Site L C) (site : Site) (location : L) (content : Option (C location)) :
    Option String × Disk Site L C :=
  match d.faults site 0 with
  | some error => (some error, d.passed site)
  | none => (none, (d.passed site).put location content)

/-- What an operation does. -/
def handle : (op : FileOp Site L C) → Disk Site L C → op.Answer × Disk Site L C
  | .read location, d => (d.content location, d)
  | .write site location content, d => d.attempt site location (some content)
  | .unlink site location, d => d.attempt site location none

variable {site : Site} {location : L} {content : Option (C location)}

theorem attempt_of_none (h : d.faults site 0 = none) :
    d.attempt site location content = (none, (d.passed site).put location content) := by
  rw [attempt, h]

theorem attempt_of_some {error : String} (h : d.faults site 0 = some error) :
    d.attempt site location content = (some error, d.passed site) := by
  rw [attempt, h]

variable {E α : Type}

/-- A read goes on with what is there. -/
theorem run_read {next : Option (C location) → Program (FileOp Site L C) FileOp.Answer E α} :
    (Program.call (.read location) next).run handle d = (next (d.content location)).run handle d :=
  rfl

theorem run_write_of_none {content : C location}
    {next : Option String → Program (FileOp Site L C) FileOp.Answer E α}
    (h : d.faults site 0 = none) :
    (Program.call (.write site location content) next).run handle d =
      (next none).run handle ((d.passed site).put location (some content)) :=
  Program.run_call_of_handle (attempt_of_none h)

theorem run_write_of_some {content : C location} {error : String}
    {next : Option String → Program (FileOp Site L C) FileOp.Answer E α}
    (h : d.faults site 0 = some error) :
    (Program.call (.write site location content) next).run handle d =
      (next (some error)).run handle (d.passed site) :=
  Program.run_call_of_handle (attempt_of_some h)

theorem run_unlink_of_none {next : Option String → Program (FileOp Site L C) FileOp.Answer E α}
    (h : d.faults site 0 = none) :
    (Program.call (.unlink site location) next).run handle d =
      (next none).run handle ((d.passed site).put location none) :=
  Program.run_call_of_handle (attempt_of_none h)

end Disk

/-! ## Frames -/

namespace FileOp

variable {Site L : Type} {C : L → Type}

/-- The operation reads, or changes one of the given places at one of the given sites. -/
def Within (sites : Site → Prop) (places : L → Prop) : FileOp Site L C → Prop
  | read _ => True
  | write site location _ => sites site ∧ places location
  | unlink site location => sites site ∧ places location

theorem Within.mono {sites sites' : Site → Prop} {places places' : L → Prop}
    (hsites : ∀ site, sites site → sites' site) (hplaces : ∀ place, places place → places' place)
    (op : FileOp Site L C) (h : op.Within sites places) : op.Within sites' places' := by
  cases op with
  | read location => exact trivial
  | write site location content | unlink site location =>
      exact ⟨hsites site h.1, hplaces location h.2⟩

end FileOp

namespace Disk

variable {Site L : Type} {C : L → Type} [DecidableEq Site] [DecidableEq L] {d : Disk Site L C}
  {sites : Site → Prop} {places : L → Prop}

theorem attempt_content_of_ne {site : Site} {location place : L} {content : Option (C location)}
    (h : place ≠ location) : (d.attempt site location content).2.content place =
        d.content place := by
  rw [attempt]
  split
  · rfl
  · exact put_content_of_ne h

theorem attempt_faults_of_ne {site other : Site} {location : L} {content : Option (C location)}
    (h : other ≠ site) : (d.attempt site location content).2.faults other = d.faults other := by
  rw [attempt]
  split
  · exact passed_faults_of_ne h
  · exact passed_faults_of_ne h

theorem handle_content_of_within {op : FileOp Site L C} (hop : op.Within sites places) {place : L}
    (hplace : ¬ places place) : (handle op d).2.content place = d.content place := by
  cases op with
  | read location => rfl
  | write site location content =>
      exact attempt_content_of_ne fun h => hplace (h ▸ hop.2)
  | unlink site location => exact attempt_content_of_ne fun h => hplace (h ▸ hop.2)

theorem handle_faults_of_within {op : FileOp Site L C} (hop : op.Within sites places) {site : Site}
    (hsite : ¬ sites site) : (handle op d).2.faults site = d.faults site := by
  cases op with
  | read location => rfl
  | write other location content | unlink other location =>
      exact attempt_faults_of_ne fun h => hsite (h ▸ hop.1)

variable {E α : Type} {p : Program (FileOp Site L C) FileOp.Answer E α}

/-- A place the program does not write keeps its content. -/
theorem run_content_of_uses (h : p.Uses (FileOp.Within sites places)) {place : L}
    (hplace : ¬ places place) : (p.run handle d).2.content place = d.content place :=
  h.run_induction (motive := fun d' : Disk Site L C => d'.content place = d.content place) rfl
    fun _ _ hop hd => (handle_content_of_within hop hplace).trans hd

/-- The failures at a site the program does not use are still to come. -/
theorem run_faults_of_uses (h : p.Uses (FileOp.Within sites places)) {site : Site}
    (hsite : ¬ sites site) : (p.run handle d).2.faults site = d.faults site :=
  h.run_induction (motive := fun d' : Disk Site L C => d'.faults site = d.faults site) rfl
    fun _ _ hop hd => (handle_faults_of_within hop hsite).trans hd

/-- Nothing will fail. -/
def Reliable (d : Disk Site L C) : Prop := ∀ site n, d.faults site n = none

omit [DecidableEq L] in
theorem Reliable.passed {site : Site} (h : d.Reliable) : (d.passed site).Reliable := by
  intro other n
  by_cases hother : other = site
  · rw [hother, passed_faults_self]
    exact h site (n + 1)
  · rw [passed_faults_of_ne hother]
    exact h other n

/-- What did not fail so far will not fail later. -/
theorem Reliable.run (h : d.Reliable) : (p.run handle d).2.Reliable := by
  refine p.uses_true.run_induction h fun op d' _ hd' => ?_
  cases op with
  | read location => exact hd'
  | write site location content =>
      rw [handle, attempt_of_none (hd' site 0)]
      exact hd'.passed
  | unlink site location =>
      rw [handle, attempt_of_none (hd' site 0)]
      exact hd'.passed

/-- A program that only reads leaves the disk as it is. -/
theorem run_of_reads (h : p.Uses (FileOp.Within (fun _ => False) fun _ => False)) :
    (p.run handle d).2 = d := by
  have hcontent : (p.run handle d).2.content = d.content :=
    funext fun _ => run_content_of_uses h not_false
  have hfaults : (p.run handle d).2.faults = d.faults :=
    funext fun _ => run_faults_of_uses h not_false
  calc (p.run handle d).2 = ⟨(p.run handle d).2.content, (p.run handle d).2.faults⟩ := rfl
    _ = d := by rw [hcontent, hfaults]

end Disk

end Effects
