/-
# Runs side by side

Two programs agree from two states when both return, or both raise the same exception. That a
program tells nothing about a part of its state is such a statement about two of its runs. Two
disks are alike when a relation holds of their contents at every place, and the same operations
will fail on both.
-/

import PortForge.Effects.Storage

namespace Effects

namespace Program

variable {O : Type} {R : O → Type} {E S α α' β β' : Type}
  {handle : (op : O) → S → R op × S} {middle : α → α' → S → S → Prop}
  {returned : β → β' → S → S → Prop} {raised : S → S → Prop} {s s' : S}

/-- Both programs return, or both raise the same exception, and the relations hold of what they
return and leave behind. -/
def Agree (handle : (op : O) → S → R op × S) (returned : α → α' → S → S → Prop)
    (raised : S → S → Prop) (p : Program O R E α) (p' : Program O R E α') (s s' : S) : Prop :=
  (∃ error t t', p.run handle s = (.error error, t) ∧ p'.run handle s' = (.error error, t') ∧
      raised t t') ∨
    ∃ value value' t t', p.run handle s = (.ok value, t) ∧ p'.run handle s' = (.ok value', t') ∧
      returned value value' t t'

theorem agree_ret {value : β} {value' : β'} (h : returned value value' s s') :
    Agree handle returned raised (ret value : Program O R E β) (ret value') s s' :=
  .inr ⟨value, value', s, s', rfl, rfl, h⟩

theorem agree_raise {error : E} (h : raised s s') :
    Agree handle returned raised (raise error : Program O R E β)
      (raise error : Program O R E β') s s' :=
  .inl ⟨error, s, s', rfl, rfl, h⟩

/-- Compositions whose first parts return agree where the rests do. -/
theorem agree_bind_of_ok {p : Program O R E α} {p' : Program O R E α'} {f : α → Program O R E β}
    {f' : α' → Program O R E β'} {value : α} {value' : α'} {t t' : S}
    (hrun : p.run handle s = (.ok value, t)) (hrun' : p'.run handle s' = (.ok value', t'))
    (h : Agree handle returned raised (f value) (f' value') t t') :
    Agree handle returned raised (p.bind f) (p'.bind f') s s' := by
  unfold Agree at h ⊢
  rwa [run_bind_of_ok hrun, run_bind_of_ok hrun']

/-- Compositions agree where their first parts do and the rests do. -/
theorem Agree.bind {p : Program O R E α} {p' : Program O R E α'} {f : α → Program O R E β}
    {f' : α' → Program O R E β'} (h : Agree handle middle raised p p' s s')
    (hnext : ∀ value value' t t', middle value value' t t' →
      Agree handle returned raised (f value) (f' value') t t') :
    Agree handle returned raised (p.bind f) (p'.bind f') s s' := by
  rcases h with ⟨error, t, t', hrun, hrun', hraised⟩ | ⟨value, value', t, t', hrun, hrun', hmiddle⟩
  · exact .inl ⟨error, t, t', run_bind_of_error hrun, run_bind_of_error hrun', hraised⟩
  · exact agree_bind_of_ok hrun hrun' (hnext value value' t t' hmiddle)

end Program

namespace Disk

variable {Site L : Type} {C : L → Type} [DecidableEq Site] [DecidableEq L]
  {d d' : Disk Site L C} {rel : (place : L) → Option (C place) → Option (C place) → Prop}
  {site : Site} {location : L}

/-- The contents are related at every place, and the same operations will fail. -/
structure Alike (rel : (place : L) → Option (C place) → Option (C place) → Prop)
    (d d' : Disk Site L C) : Prop where
  content : ∀ place, rel place (d.content place) (d'.content place)
  faults : d.faults = d'.faults

omit [DecidableEq L] in
theorem Alike.passed (h : d.Alike rel d') (site : Site) :
    (d.passed site).Alike rel (d'.passed site) :=
  ⟨h.content, by rw [Disk.passed, Disk.passed, h.faults]⟩

omit [DecidableEq Site] in
theorem Alike.put (h : d.Alike rel d') {content content' : Option (C location)}
    (hcontent : rel location content content') :
    (d.put location content).Alike rel (d'.put location content') := by
  refine ⟨fun place => ?_, h.faults⟩
  by_cases hplace : place = location
  · subst hplace
    rw [put_content_self, put_content_self]
    exact hcontent
  · rw [put_content_of_ne hplace, put_content_of_ne hplace]
    exact h.content place

variable {E α α' : Type} {returned : α → α' → Disk Site L C → Disk Site L C → Prop}
  {raised : Disk Site L C → Disk Site L C → Prop}

/-- Two writes at one site fail or succeed together. -/
theorem agree_write {content content' : C location}
    {next : Option String → Program (FileOp Site L C) FileOp.Answer E α}
    {next' : Option String → Program (FileOp Site L C) FileOp.Answer E α'}
    (hfaults : d.faults = d'.faults)
    (hdone : Program.Agree handle returned raised (next none) (next' none)
      ((d.passed site).put location (some content)) ((d'.passed site).put location (some content')))
    (hfailed : ∀ error, Program.Agree handle returned raised (next (some error))
      (next' (some error)) (d.passed site) (d'.passed site)) :
    Program.Agree handle returned raised (.call (.write site location content) next)
      (.call (.write site location content') next') d d' := by
  unfold Program.Agree at hdone hfailed ⊢
  cases hfault : d.faults site 0 with
  | none =>
      rw [run_write_of_none hfault, run_write_of_none (hfaults ▸ hfault)]
      exact hdone
  | some error =>
      rw [run_write_of_some hfault, run_write_of_some (hfaults ▸ hfault)]
      exact hfailed error

/-- Two removals at one site fail or succeed together. -/
theorem agree_unlink
    {next : Option String → Program (FileOp Site L C) FileOp.Answer E α}
    {next' : Option String → Program (FileOp Site L C) FileOp.Answer E α'}
    (hfaults : d.faults = d'.faults)
    (hdone : Program.Agree handle returned raised (next none) (next' none)
      ((d.passed site).put location none) ((d'.passed site).put location none))
    (hfailed : ∀ error, Program.Agree handle returned raised (next (some error))
      (next' (some error)) (d.passed site) (d'.passed site)) :
    Program.Agree handle returned raised (.call (.unlink site location) next)
      (.call (.unlink site location) next') d d' := by
  unfold Program.Agree at hdone hfailed ⊢
  cases hfault : d.faults site 0 with
  | none =>
      rw [run_unlink_of_none hfault, run_unlink_of_none (hfaults ▸ hfault)]
      exact hdone
  | some error =>
      rw [Program.run_call_of_handle (attempt_of_some hfault),
        Program.run_call_of_handle (attempt_of_some (hfaults ▸ hfault))]
      exact hfailed error

end Disk

end Effects
