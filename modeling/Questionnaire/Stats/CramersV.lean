/-
# Cramér's V

How much the answers to two questions depend on one another, from zero to one.
The answers come in pairs, one pair from each respondent. Pairs with a choice
that is not one of its question's are left out with a warning.

Key definitions: `pairTable`, `cramersV`.
-/
import Questionnaire.Whole
import Questionnaire.Fault
import Questionnaire.Note
import Questionnaire.Stats.ChiSquared
import Questionnaire.Document.Display
import Questionnaire.Survey.Basic

namespace Questionnaire.Stats

/-- The place of a choice among those of a question; of equal ones, the last. -/
def lastPlace? (q : Question) (c : Choice) : Option Nat :=
  (q.choices.zipIdx.reverse.find? (·.1 == c)).map (·.2)

/-- The places of a pair of choices. -/
def placesOf? (q r : Question) (pair : Choice × Choice) : Option (Nat × Nat) := do
  let i ← lastPlace? q pair.1
  let j ← lastPlace? r pair.2
  return (i, j)

/-- How often the choices of two questions come together. -/
def pairTable (q r : Question) (pairs : List (Choice × Choice)) : List (List Nat) :=
  let found := pairs.filterMap (placesOf? q r)
  (List.range q.choices.length).map fun i =>
    (List.range r.choices.length).map fun j => found.count (i, j)

/-- A table without its empty rows. -/
def withoutEmptyRows (t : List (List Nat)) : List (List Nat) := t.filter (sumOf · != 0)

/-- The columns of a table as rows. -/
def transposed : List (List Nat) → List (List Nat)
  | [] => []
  | [row] => row.map ([·])
  | row :: rest => List.zipWith (· :: ·) row (transposed rest)

/-- A table without its empty rows and columns. -/
def condensed (t : List (List Nat)) : List (List Nat) :=
  transposed (withoutEmptyRows (transposed (withoutEmptyRows t)))

/-- What the test has to say: the pairs it leaves out. -/
def cramersNotes (q r : Question) (pairs : List (Choice × Choice)) : List Note :=
  if q.choices.isEmpty || r.choices.isEmpty then []
  else (pairs.filter fun p => (placesOf? q r p).isNone).map fun (a, b) =>
    ⟨.warning, s!"No co-occurrences of {a.id.display} and {b.id.display}; consider using smoothing"⟩

/-- Cramér's V of paired answers. It is measured against the choices of the
questions, not only against those that were selected, and these must be fit to be looked up. -/
def cramersV (q r : Question) (as bs : List Choice) : Except Fault Outcome :=
  if as.length ≠ bs.length then
    .error (.citing [q.id, r.id]
      (.answerCountsDiffer as.length q.id.display bs.length r.id.display))
  else if as.isEmpty || q.choices.isEmpty || r.choices.isEmpty then .ok .nothing
  else if !(q.choices ++ r.choices).all (·.isKey) then .error .illTyped
  else
    let observed := condensed (pairTable q r (as.zip bs))
    let smaller := min (q.choices.length - 1) (r.choices.length - 1)
    let shape := min observed.length (observed.headD []).length
    if smaller = 0 || shape < 2 then .ok .nothing
    else
      let outcome := chiSquared (observed.map (·.map Float.ofNat))
      let total := Float.ofNat (sumOf (observed.map sumOf))
      let v := Float.sqrt (outcome.statistic / total / Float.ofNat (shape - 1))
      let scale := Float.sqrt (Float.ofNat (shape - 1) / Float.ofNat smaller)
      .ok ⟨v * scale, outcome.pValue⟩

end Questionnaire.Stats
