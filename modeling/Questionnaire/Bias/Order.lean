/-
# Order bias

Do answers to a question depend on whether it was seen before another one? The
answers before and after are compared unless one of the two samples is small or
they are about as large as one another.

Key definitions: `OrderSamples`, `isPassedOver`, `orderBiases`.
-/
import Questionnaire.Bias.Basic
import Questionnaire.Config.Basic
import Questionnaire.Document.Order

namespace Questionnaire

/-- Answers to a question that was seen before another one, and after it. -/
structure OrderSamples where
  before : List Choice
  after : List Choice
  deriving Repr, Inhabited

namespace OrderSamples

/-- The samples with what a response answers to `q`, if it answers `r` too. An answer that comes
neither before nor after the other one is left out. -/
def addAnswer (q r : Question) (s : OrderSamples) (response : Response) :
    Except Fault OrderSamples :=
  match response.answerTo? q, response.answerTo? r with
  | some a, some b =>
    match a.first? with
    | none => .ok s
    | some c => do
      if ← a.seen.less b.seen then return { s with before := s.before ++ [c] }
      else if ← b.seen.less a.seen then return { s with after := s.after ++ [c] }
      else return s
  | _, _ => .ok s

end OrderSamples

/-- The answers to `q` before and after `r`. -/
def orderSamples (q r : Question) (responses : List Response) : Except Fault OrderSamples :=
  responses.foldlM (OrderSamples.addAnswer q r) ⟨[], []⟩

/-- Whether the ratio of two sample sizes is within the configured distance of one. -/
def isBalanced (balance : Number) (before after : Nat) : Bool :=
  let ratio := Number.float (Float.ofNat before / Float.ofNat after)
  (1 - balance).blt ratio && ratio.blt (1 + balance)

/-- Whether samples are not to be compared: too small, or about equally large. -/
def isPassedOver (c : Config) (s : OrderSamples) : Except Fault Bool := do
  let before := s.before.length
  let after := s.after.length
  let least ← c.orderMinSamples.number
  if (Number.int before).blt least || (Number.int after).blt least then return true
  else if after = 0 then throw .divisionByZero
  else return isBalanced (← c.orderBalance.number) before after

/-- The ordered pairs of comparable questions. -/
def Survey.orderPairs (s : Survey) : List (Question × Question) :=
  let qs := s.comparableQuestions
  qs.flatMap fun q => (qs.filter (·.key != q.key)).map (q, ·)

/-- Compares the answers to `q` before and after `r`, if that is to be done. -/
def compareOrders (c : Config) (responses : List Response) (q r : Question) :
    Except Fault (Option Comparison) := do
  let samples ← orderSamples q r responses
  if ← isPassedOver c samples then return none
  else
    let ordered := q.isOrdered && r.isOrdered
    let (coefficient, outcome) ← compareRanks ordered q q samples.before samples.after
    return some ⟨coefficient, outcome.statistic, outcome.pValue, q, r, samples.before.length,
      samples.after.length⟩

/-- The comparisons of all ordered pairs that are not passed over. -/
def orderBiases (s : Survey) (c : Config) (responses : List Response) :
    Except Fault (List Comparison) := do
  return (← s.orderPairs.mapM fun (q, r) => compareOrders c responses q r).filterMap id

end Questionnaire
