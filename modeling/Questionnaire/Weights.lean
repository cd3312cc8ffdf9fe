/-
# Weights

Weights are scaled by their sum. It is formed in the format of the weights: the
sum of words of 64 bits is again such a word, so it may pass the end and begin
anew, and floats are added in pairs. Whole numbers that fit no word are added
exactly.

Key definitions: `totalWeight`, `scaledWeights`.
-/
import Questionnaire.Document.Grid
import Questionnaire.Stats.Sum

namespace Questionnaire

/-- The sum of weights of no common format, from left to right: whole as long as all are. -/
def exactTotal (weights : List Document) : Except Fault Number :=
  weights.foldlM (fun sum d => do Document.orTooLarge (sum.add? (← d.number))) 0

/-- The sum of those numbers that are whole. -/
def wholeTotal (ns : List Number) : Int :=
  ns.foldl (fun sum n => match n with
    | .int n => sum + n
    | .float _ => sum) 0

/-- The sum of weights in a format. -/
def ColumnFormat.total (f : ColumnFormat) (weights : List Number) : Float :=
  match f with
  | .floating => pairwiseSum (weights.map (·.toFloat))
  | .unsigned => Float.ofInt (wholeTotal weights % unsignedLimit)
  | .truth | .signed => Float.ofInt ((wholeTotal weights).bmod (twoTo 64))

/-- The sum of weights, which must be numbers. -/
def totalWeight (weights : List Document) : Except Fault Float :=
  match Document.Cells.of weights with
  | .numbers f ns => .ok (f.total ns)
  | .texts _ => .error .illTyped
  | .mixed ds => do Document.floatOf (← exactTotal ds)

/-- The weights that a document lists, scaled to a sum of one. -/
def scaledWeights (d : Document) : Except Fault (List Float) := do
  let shape ← d.shape
  let weights ← d.leaves.mapM (·.floatCell)
  if shape.length ≠ 1 then throw .illTyped
  let total ← totalWeight d.leaves
  return weights.map (· / total)

end Questionnaire
