/-
# Arranging the contents of a block

The questions of a block and those of its blocks that may move are put into
random places; the blocks that may not move fill the places that are left, from
the first to the last, so they keep their order.

Key definition: `arrange`.
-/
import Questionnaire.Random

namespace Questionnaire

/-- The contents of each of `size` places, if something was put there. -/
def places {γ : Type} (size : Nat) (placed : List (Nat × γ)) : List (Option γ) :=
  (List.range size).map fun i => placed.lookup i

/-- Fills the empty places in order. -/
def fillGaps {γ : Type} : List (Option γ) → List γ → List γ
  | [], _ => []
  | some x :: rest, fill => x :: fillGaps rest fill
  | none :: rest, [] => fillGaps rest []
  | none :: rest, x :: fill => x :: fillGaps rest fill

/-- The questions and blocks in the places that an order of all places gives
them: its first entries are the places of the questions, the next ones those of
the blocks that may move. -/
def arrangeBy {α β : Type} (order : List Nat) (questions : List α) (blocks : List β)
    (mayMove : β → Bool) : List (α ⊕ β) :=
  let moving := questions.map .inl ++ (blocks.filter mayMove).map .inr
  let fixed := (blocks.filter fun b => !mayMove b).map .inr
  fillGaps (places order.length (order.zip moving)) fixed

/-- The questions and blocks of a block in a random order that keeps the blocks
that may not move in theirs. -/
def arrange {α β : Type} (questions : List α) (blocks : List β) (mayMove : β → Bool) :
    Trial (List (α ⊕ β)) := fun g =>
  if questions.length + blocks.length = 0 then .error .nothingToArrange
  else
    let (order, g) := Gen.permutation (questions.length + blocks.length) g
    .ok (arrangeBy order questions blocks mayMove, g)

end Questionnaire
