/-
# The order of documents

Numbers, texts, bytes, days and moments have an order, and lists and pairs the
lexicographic one of their items. Documents of two kinds have none, and asking
for it is at fault.

Key definitions: `Document.less`, `Document.sorted`.
-/
import Questionnaire.Document.Access
import Questionnaire.Sorting

namespace Questionnaire.Document

/-- Whether numbers in a row come before others, lexicographically. -/
def bytesLess : List UInt8 → List UInt8 → Bool
  | _, [] => false
  | [], _ :: _ => true
  | a :: as, b :: bs => a < b || (a == b && bytesLess as bs)

mutual

/-- Whether a document comes before another one. -/
def less : Document → Document → Except Fault Bool
  | str a, str b => .ok (decide (a < b))
  | bytes a, bytes b => .ok (bytesLess a b)
  | day a, day b => .ok (decide (a.number < b.number))
  | moment a, moment b =>
    match a.less? b with
    | some before => .ok before
    | none => .error .illTyped
  | list xs, list ys => lessItems xs ys
  | pair a b, pair a' b' =>
    if a == a' then (if b == b' then .ok false else b.less b') else a.less a'
  | set xs, set ys => .ok (xs.length < ys.length && sameMembers xs ys)
  | a, b =>
    match a.number?, b.number? with
    | some m, some n => .ok (m.blt n)
    | _, _ => .error .illTyped

/-- Whether a list comes before another one: the first items that differ decide. -/
def lessItems : List Document → List Document → Except Fault Bool
  | _, [] => .ok false
  | [], _ :: _ => .ok true
  | x :: xs, y :: ys => if x == y then lessItems xs ys else x.less y

end

/-- Documents in rising order; those that are equal keep their order. -/
def sorted (ds : List Document) : Except Fault (List Document) := sortedBy less ds

end Questionnaire.Document
