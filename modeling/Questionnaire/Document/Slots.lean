/-
# Sets of numbers

The members of a set are known in the order of the slots of a table. A number
goes to the slot of its residue or, if that is taken, to one of the next slots;
if these are taken too, the search leaps on to another slot. Equal numbers have
the same residue, whole or not. A set with a member that is no number keeps the
order in which its members came.

Key definitions: `Number.residue?`, `freeSlot`, `Document.ofMembers`.
-/
import Questionnaire.Document
import Questionnaire.Whole

namespace Questionnaire

/-- The modulus of residues. -/
def residueModulus : Nat := twoTo 61 - 1

/-- A residue with a sign. Minus one stands for nothing, and minus two is taken instead. -/
def signedResidue (negative : Bool) (r : Nat) : Int :=
  if negative then (if r == 1 then -2 else -(r : Int)) else r

/-- The residue of a number; none if it is no number. A power of two with a negative exponent
counts as its inverse: two to the 61 is one. -/
def Number.residue? : Number → Option Int
  | .int n => some (signedResidue (n < 0) (n.natAbs % residueModulus))
  | .float x =>
    match Dyadic.ofFloat? x with
    | some d => some (signedResidue d.negative
        (d.mantissa % residueModulus * twoTo (d.exponent % 61) % residueModulus))
    | none => if x.isNaN then none else some (if x < 0 then -314159 else 314159)

/-- How many slots there are for `n` members: more than twice as many, and a power of two. -/
def slotCount (n : Nat) : Nat := if n < 5 then 8 else twoTo (Nat.log2 (2 * n) + 1 : Nat)

/-- How many slots after a taken one are tried before a leap. -/
def nearSlots : Nat := 9

/-- The first free slot from a slot on, with at most `fuel` leaps; the later ones lead to all
slots in turn. -/
def freeSlot (size : Nat) (isTaken : Nat → Bool) : Nat → Nat → Nat → Option Nat
  | 0, _, _ => none
  | fuel + 1, slot, rest =>
    let near := if slot + nearSlots < size then nearSlots else 0
    match (List.range (near + 1)).find? fun k => !isTaken (slot + k) with
    | some k => some (slot + k)
    | none => freeSlot size isTaken fuel ((5 * slot + 1 + rest / 32) % size) (rest / 32)

/-- Puts a member with a residue into a free slot. -/
def putMember (slots : Array (Option Document)) (residue : Int) (d : Document) :
    Array (Option Document) :=
  let word := (residue % (twoTo 64 : Nat)).toNat
  let isTaken (slot : Nat) : Bool := (slots[slot]?).any (·.isSome)
  match freeSlot slots.size isTaken (slots.size + 64) (word % slots.size) word with
  | some slot => slots.setIfInBounds slot (some d)
  | none => slots

/-- The set of some members, of which no two are the same. -/
def Document.ofMembers (members : List Document) : Document :=
  match members.mapM fun d => d.number?.bind (·.residue?) with
  | none => .set members
  | some residues =>
    let slots := (residues.zip members).foldl (fun slots (r, d) => putMember slots r d)
      (Array.replicate (slotCount members.length) none)
    .set (slots.toList.filterMap id)

end Questionnaire
