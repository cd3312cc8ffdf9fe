/-
# Differences of documents

A number can be taken from a number, a day from a day, a moment from a moment
and a set from a set; for documents of two kinds there is no difference, nor is
there one between a moment with a time zone and one without. Differences are
compared by their values, and those of two kinds are never equal.

Key definitions: `Document.Difference`, `Document.minus`.
-/
import Questionnaire.Document.Access

namespace Questionnaire.Document

/-- A member of a set: a document that may be a key. -/
structure Member where
  document : Document
  fit : document.isKey = true

instance : BEq Member := ⟨fun a b => a.document == b.document⟩

/-- A document as a member of a set. -/
def member (d : Document) : Except Fault Member :=
  if h : d.isKey = true then .ok ⟨d, h⟩ else .error .illTyped

/-- What lies between two documents: a number, the millionth parts of a second between two days or
moments, or the members of the one set that the other one does not have. -/
inductive Difference where
  | number (n : Number)
  | span (micros : Int)
  | members (ms : List Member)

/-- Whether two differences are of one kind and have the same value. -/
def Difference.beq : Difference → Difference → Bool
  | number m, number n => m == n
  | span m, span n => m == n
  | members ms, members ns => ms.all ns.contains && ns.all ms.contains
  | _, _ => false

instance : BEq Difference := ⟨Difference.beq⟩

/-- The millionth parts of a second that a day has. -/
def dayMicros : Int := 86400000000

/-- A document less another one. -/
def minus (a b : Document) : Except Fault Difference :=
  match a.opened, b.opened with
  | day a, day b => .ok (.span ((a.number - b.number) * dayMicros))
  | moment a, moment b =>
    if a.zone.isSome == b.zone.isSome then .ok (.span (a.instant - b.instant))
    else .error .illTyped
  | set xs, set ys => do return .members (← (xs.filter (!ys.contains ·)).mapM member)
  | a, b => do return .number (← orTooLarge ((← a.number).sub? (← b.number)))

end Questionnaire.Document
