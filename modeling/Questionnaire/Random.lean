/-
# Drawing at random

A generator is one 64-bit word that a step of SplitMix advances. All that is
random takes a generator and gives the advanced one back, so a seed fixes every
result and the number of draws can be read off the generator.

Key definitions: `Gen.word`, `Gen.below`, `Gen.permutation`, `Gen.weighted`.
Key theorem: `Gen.permutation_perm`.
-/
import Questionnaire.Whole
import Questionnaire.Fault
import Questionnaire.Number

namespace Questionnaire

/-- The state of a generator. -/
structure Gen where
  state : UInt64
  deriving DecidableEq, Repr, Inhabited

/-- A computation that draws. -/
abbrev Draw (α : Type) := Gen → α × Gen

/-- A computation that draws and may fail. -/
abbrev Trial (α : Type) := Gen → Except Fault (α × Gen)

namespace Gen

/-- The generator of a seed, which counts modulo two to the 64. -/
def ofSeed (seed : Int) : Gen := ⟨UInt64.ofNat (seed % (twoTo 64 : Nat)).toNat⟩

/-- Scrambles a word. -/
def scramble (z : UInt64) : UInt64 :=
  let z := (0xBF58476D1CE4E5B9 : UInt64) * (z ^^^ (z >>> 30))
  let z := (0x94D049BB133111EB : UInt64) * (z ^^^ (z >>> 27))
  z ^^^ (z >>> 31)

/-- The generator after one draw. -/
def next (g : Gen) : Gen := ⟨0x9E3779B97F4A7C15 + g.state⟩

/-- A word; each of the draws below takes exactly one. -/
def word : Draw UInt64 := fun g => (scramble g.next.state, g.next)

/-- A number under `n`; zero if `n` is zero. -/
def below (n : Nat) : Draw Nat := fun g => (g.word.1.toNat % n, g.next)

/-- A number from `lo` up to but not including `hi`. -/
def between (lo hi : Nat) : Draw Nat := fun g => (lo + (g.below (hi - lo)).1, g.next)

/-- A float from zero up to but not including one, with 53 random bits. -/
def unit : Draw Float := fun g => ((g.word.1 >>> 11).toFloat * (1.0 / 9007199254740992.0), g.next)

/-- Heads with probability one half. -/
def coin : Draw Bool := fun g => ((g.word.1 >>> 11) < 4503599627370496, g.next)

/-- The results of `n` draws. -/
def times {α : Type} (draw : Draw α) : Nat → Draw (List α)
  | 0, g => ([], g)
  | n + 1, g =>
    let (x, g) := draw g
    let (xs, g) := times draw n g
    (x :: xs, g)

/-- Draws for each element in turn. -/
def each {α β : Type} (draw : α → Draw β) : List α → Draw (List β)
  | [], g => ([], g)
  | x :: xs, g =>
    let (y, g) := draw x g
    let (ys, g) := each draw xs g
    (y :: ys, g)

/-- Draws for each element in turn, up to the first failure. -/
def tryEach {α β : Type} (draw : α → Trial β) : List α → Trial (List β)
  | [], g => .ok ([], g)
  | x :: xs, g => do
    let (y, g) ← draw x g
    let (ys, g) ← tryEach draw xs g
    return (y :: ys, g)

/-- Exchanges each of the positions `i, …, 1` with a drawn one that is not above it. -/
def shuffle {α : Type} : Nat → Array α → Draw (Array α)
  | 0, a, g => (a, g)
  | i + 1, a, g =>
    let (j, g) := g.below (i + 2)
    shuffle i (a.swapIfInBounds (i + 1) j) g

/-- The numbers under `n` in a random order. -/
def permutation (n : Nat) : Draw (List Nat) := fun g =>
  let (a, g) := shuffle (n - 1) (Array.range n) g
  (a.toList, g)

/-- The first position whose running sum of weights passes `u`. -/
def reach (u : Float) : Float → Nat → List Float → Option Nat
  | _, _, [] => none
  | acc, i, w :: ws =>
    let acc := acc + w
    if u < acc then some i else reach u acc (i + 1) ws

/-- The last position with a positive weight. -/
def lastPositive (weights : List Float) : Nat :=
  (((weights.zipIdx.filter fun (w, _) => 0 < w).map (·.2)).getLast?).getD 0

/-- Whether the weights are those of a choice among `n`: as many, none negative
or not a number, and their sum one up to rounding. -/
def areWeights (n : Nat) (weights : List Float) : Bool :=
  weights.length == n && weights.all (0 ≤ ·) &&
    (weights.foldl (· + ·) 0.0 - 1.0).abs ≤ 1e-8

/-- A position among `n`, each with the probability that its weight gives. -/
def weighted (n : Nat) (weights : List Float) : Trial Nat := fun g =>
  if areWeights n weights then
    let (u, g) := g.unit
    .ok ((reach u 0.0 0 weights).getD (lastPositive weights), g)
  else .error .unsuitable

theorem swapIfInBounds_perm {α : Type} (a : Array α) (i j : Nat) :
    (a.swapIfInBounds i j).Perm a := by
  unfold Array.swapIfInBounds
  split
  · split
    · exact Array.swap_perm _ _
    · exact .refl _
  · exact .refl _

theorem shuffle_perm {α : Type} (i : Nat) (a : Array α) (g : Gen) :
    ((shuffle i a g).1).Perm a := by
  induction i generalizing a g with
  | zero => simp [shuffle]
  | succ i ih =>
    simp only [shuffle]
    exact (ih _ _).trans (swapIfInBounds_perm _ _ _)

/-- Every number under `n` comes exactly once. -/
theorem permutation_perm (n : Nat) (g : Gen) : ((permutation n g).1).Perm (List.range n) := by
  have h := (shuffle_perm (n - 1) (Array.range n) g).toList
  simpa [permutation, Array.toList_range] using h

end Gen

end Questionnaire
