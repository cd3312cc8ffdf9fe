/-
# Sums and powers of whole numbers

The sum of a list, and the powers of two and ten that place digits. A power
with a negative exponent is taken to be one: where a number is scaled by a
power, one of the two sides is scaled up and the other stays.
-/

namespace Questionnaire

/-- The sum of whole numbers. -/
def sumOf (ns : List Nat) : Nat := ns.foldr (fun n sum => n + sum) 0

@[simp] theorem sumOf_nil : sumOf [] = 0 := rfl

@[simp] theorem sumOf_cons (n : Nat) (ns : List Nat) : sumOf (n :: ns) = n + sumOf ns := rfl

/-- Two to a power. -/
def twoTo (n : Int) : Nat := Nat.pow 2 n.toNat

/-- Ten to a power. -/
def tenTo (n : Int) : Nat := Nat.pow 10 n.toNat

end Questionnaire
