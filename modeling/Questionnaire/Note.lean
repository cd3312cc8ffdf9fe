/-
# Notes

What a long computation has to say beside its result. A computation returns
its notes in the order in which it made them, and a reader keeps those of the
level it wants or above.
-/
import Questionnaire.Fault

namespace Questionnaire

/-- How much a note matters. -/
inductive Level where
  | debug
  | info
  | warning
  deriving DecidableEq, Repr

/-- Levels in rising order. -/
def Level.rank : Level → Nat
  | .debug => 0
  | .info => 1
  | .warning => 2

/-- A note: its level and its text. -/
structure Note where
  level : Level
  text : String
  deriving DecidableEq, Repr

/-- The notes of a level or above, in order. -/
def Note.atLeast (level : Level) (notes : List Note) : List Note :=
  notes.filter fun n => level.rank ≤ n.level.rank

/-- A computation that makes notes and may fail. The notes made before a failure are kept. -/
abbrev Noting (α : Type) := ExceptT Fault (StateM (List Note)) α

/-- Makes notes. -/
def makeNotes (notes : List Note) : Noting Unit := modify (· ++ notes)

/-- The result of a computation and its notes. -/
def Noting.run {α : Type} (c : Noting α) : Except Fault α × List Note :=
  StateT.run (ExceptT.run c) []

end Questionnaire
