/-
# Calls one after another

A sequence of turns: in each a call opens a session of its own, runs to its end, and leaves
the contents to the next. What every turn keeps, the sequence keeps; a turn may be
restricted by the contents it meets.
-/

import PortForge.Transaction.Logic

namespace Transaction

/-- A call with what its session draws and the faults it meets. -/
structure Turn (Call D : Type) where
  call : Call
  draws : ℕ → D
  faults : ℕ → Option DbError

namespace Turn

variable {Db W L D E α Call : Type} (S : Store Db W) (program : Call → Program Db W L D E α)

/-- The turn is taken on the given contents. -/
def run (turn : Turn Call D) (db : Db) : Outcome Db W L D E α :=
  (program turn.call).exec S (Session.start turn.draws turn.faults) db

/-- The contents a turn leaves. -/
def next (turn : Turn Call D) (db : Db) : Db := (turn.run S program db).db

/-- What a turn answers. -/
def answer (turn : Turn Call D) (db : Db) : Except E α := (turn.run S program db).result

/-- The contents a sequence of turns leaves. -/
def runAll (turns : List (Turn Call D)) (db : Db) : Db :=
  turns.foldl (fun contents turn => turn.next S program contents) db

@[simp]
theorem runAll_nil (db : Db) : runAll S program [] db = db := rfl

@[simp]
theorem runAll_cons (turn : Turn Call D) (turns : List (Turn Call D)) (db : Db) :
    runAll S program (turn :: turns) db = runAll S program turns (turn.next S program db) := rfl

theorem runAll_append (first second : List (Turn Call D)) (db : Db) :
    runAll S program (first ++ second) db = runAll S program second (runAll S program first db) :=
  List.foldl_append

variable {S program} {admits : Db → Turn Call D → Prop}

/-- What every turn of a kind keeps, a sequence of them keeps. -/
theorem runAll_induction {motive : Db → Prop} {turns : List (Turn Call D)} {db : Db}
    (hstart : motive db) (hturn : ∀ turn ∈ turns, ∀ contents, motive contents →
      motive (turn.next S program contents)) : motive (runAll S program turns db) := by
  induction turns generalizing db with
  | nil => exact hstart
  | cons turn turns ih =>
      obtain ⟨hfirst, hrest⟩ := List.forall_mem_cons.mp hturn
      exact ih (hfirst db hstart) hrest

/-- Alone, a turn leaves what its session has committed. -/
theorem next_eq_of_ensures (turn : Turn Call D) {db : Db} {guar : Session W L D → Prop}
    {post : Session W L D → Except E α → Prop}
    (h : (program turn.call).Ensures S (Program.alone S db) guar
      (Session.start turn.draws turn.faults) post) :
    ∃ s, turn.next S program db = S.applyAll s.committedWrites db ∧
      post s (turn.answer S program db) := by
  obtain ⟨hpost, halone⟩ := h.exec_start
  exact ⟨_, halone, hpost⟩

end Turn

end Transaction
