/-
# Documents

A document is what a JSON or YAML text holds: nothing, a truth value, a number,
a text, a list, or a mapping whose entries keep their order. A YAML text may
also hold bytes, days, moments, sets and pairs, and a list or mapping that leads
back to itself. Surveys, responses and configurations are read from documents
and written to them.

A list or mapping that leads back to itself is a knot: one of several nodes in
which links stand for the nodes. It is opened one node at a time, and then its
parts are knots again.

Two documents are the same if they have the same value: `true`, `1` and `1.0`
are the same, and mappings are compared without regard to order. A float that is
no number is the same as itself only.

Key definitions: `Document.same`, `Document.opened`, `Document.equals`,
`Document.field?`, `Document.put`.
-/
import Questionnaire.Calendar
import Questionnaire.Number

namespace Questionnaire

/-- A value of a text format. Besides the usual float that is no number, which `float` holds,
there may be others, known by their marks. A `knot` is the node at a place. Inside its nodes a
`link` stands for the node at a place, which is a mapping if that is set and else a list. -/
inductive Document where
  | null
  | bool (b : Bool)
  | int (n : Int)
  | float (x : Float)
  | nan (mark : Nat)
  | str (s : String)
  | bytes (bs : List UInt8)
  | day (d : Day)
  | moment (m : Moment)
  | list (items : List Document)
  | pair (first second : Document)
  | set (items : List Document)
  | map (entries : List (Document × Document))
  | knot (nodes : List Document) (place : Nat)
  | link (place : Nat) (toMap : Bool)
  deriving Repr, Inhabited

namespace Document

/-- The number a document stands for; truth values count as one and zero. -/
def number? : Document → Option Number
  | bool b => some (.int (if b then 1 else 0))
  | int n => some (.int n)
  | float x => some (.float x)
  | nan _ => some (.float (0.0 / 0.0))
  | _ => none

/-- Whether a document is a float that is no number. -/
def isNaN : Document → Bool
  | float x => x.isNaN
  | nan _ => true
  | _ => false

/-- Whether two documents are the same number, or both the usual float that is no number. -/
def sameNumber (a b : Document) : Bool :=
  match a, b with
  | float x, float y => x == y || (x.isNaN && y.isNaN)
  | a, b =>
    match a.number?, b.number? with
    | some m, some n => m == n
    | _, _ => false

mutual

/-- Whether two documents have the same value. Of two knots only the places are compared. -/
def same : Document → Document → Bool
  | null, null => true
  | nan m, nan n => m == n
  | knot _ i, knot _ j | link i _, link j _ => i == j
  | str a, str b => a == b
  | bytes a, bytes b => a == b
  | day a, day b => a == b
  | moment a, moment b => a.same b
  | list xs, list ys => sameItems xs ys
  | pair x y, pair x' y' => x.same x' && y.same y'
  | set xs, set ys => xs.length == ys.length && sameMembers xs ys
  | map xs, map ys => xs.length == ys.length && sameEntries xs ys
  | bool a, b => sameNumber (bool a) b
  | int a, b => sameNumber (int a) b
  | float a, b => sameNumber (float a) b
  | _, _ => false

/-- Whether two lists have the same values in the same order. -/
def sameItems : List Document → List Document → Bool
  | [], [] => true
  | x :: xs, y :: ys => x.same y && sameItems xs ys
  | _, _ => false

/-- Whether every member of the first set is one of the second too. -/
def sameMembers : List Document → List Document → Bool
  | [], _ => true
  | x :: xs, ys => ys.any (x.same ·) && sameMembers xs ys

/-- Whether every entry of the first mapping stands in the second one too. -/
def sameEntries : List (Document × Document) → List (Document × Document) → Bool
  | [], _ => true
  | (k, v) :: rest, other =>
    other.any (fun (k', v') => k.same k' && v.same v') && sameEntries rest other

end

/-! ### Knots -/

/-- A part of a node with something in the place of links. -/
def follow (tie : Nat → Bool → Document) : Document → Document
  | link place toMap => tie place toMap
  | pair a b => pair (a.follow tie) (b.follow tie)
  | d => d

/-- A node with something in the place of the links that are its parts. -/
def followParts (tie : Nat → Bool → Document) : Document → Document
  | list items => list (items.map (follow tie))
  | map entries => map (entries.map fun (k, v) => (k, v.follow tie))
  | d => d

/-- The node at a place of a knot. -/
def nodeAt (nodes : List Document) (place : Nat) : Document := nodes.getD place null

/-- A knot as a list or mapping whose parts may be knots; any other document as it is. -/
def opened : Document → Document
  | knot nodes place => (nodeAt nodes place).followParts fun next _ => knot nodes next
  | d => d

/-- How many lists and mappings of a document are nodes of a knot. -/
def nodeCount : Document → Nat
  | knot nodes _ => nodes.length
  | _ => 0

/-- Whether two parts of nodes have the same value, if links are compared as given. -/
def sameParts (sameLinks : Nat → Nat → Bool) : Document → Document → Bool
  | link i _, link j _ => sameLinks i j
  | pair a b, pair a' b' => sameParts sameLinks a a' && sameParts sameLinks b b'
  | a, b => a.same b

/-- Whether two nodes of a knot have the same value: they are at one place, or their parts have
the same value; `fuel` bounds the steps along links. -/
def sameNodes (nodes : List Document) : Nat → Nat → Nat → Bool
  | 0, i, j => i == j
  | fuel + 1, i, j => i == j ||
    match nodeAt nodes i, nodeAt nodes j with
    | list xs, list ys => xs.length == ys.length &&
      (xs.zip ys).all fun (x, y) => sameParts (sameNodes nodes fuel) x y
    | map xs, map ys => xs.length == ys.length && xs.all fun (k, v) =>
      ys.any fun (k', v') => k.same k' && sameParts (sameNodes nodes fuel) v v'
    | _, _ => false

/-- Documents are compared by their values. -/
instance : BEq Document where
  beq
    | knot nodes i, knot _ j => sameNodes nodes (nodes.length * nodes.length) i j
    | a, b => a.same b

/-- Whether two documents compare as equal. They do if they are the same, except that a float
that is no number does not equal itself. -/
def equals (a b : Document) : Bool := !a.isNaN && a == b

/-! ### Mappings -/

/-- The value of the first entry with the key. -/
def lookup (key : Document) : List (Document × Document) → Option Document
  | [] => none
  | (k, v) :: rest => if k == key then some v else lookup key rest

/-- The value under a named key of a mapping; none for any other document. -/
def field? (name : String) (d : Document) : Option Document :=
  match d.opened with
  | map entries => lookup (str name) entries
  | _ => none

/-- The mapping with a value under a key: an entry that has the key keeps its
place and its key, a new one goes to the end. -/
def put {α : Type} (key : Document) (value : α) : List (Document × α) → List (Document × α)
  | [] => [(key, value)]
  | (k, v) :: rest => if k == key then (k, value) :: rest else (k, v) :: put key value rest

/-- The mapping with the entries put one after another. -/
def ofEntries {α : Type} (entries : List (Document × α)) : List (Document × α) :=
  entries.foldl (fun acc (k, v) => put k v acc) []

/-- A mapping with named keys. -/
def record (fields : List (String × Document)) : Document :=
  map (fields.map fun (name, value) => (str name, value))

/-- Whether a document may be a key: lists, sets and mappings may not. -/
def isKey : Document → Bool
  | list _ | set _ | map _ | knot .. | link .. => false
  | pair a b => a.isKey && b.isKey
  | _ => true

/-- Whether a document counts as given: nothing, zero and the empty ones do not. -/
def isGiven : Document → Bool
  | null => false
  | bool b => b
  | int n => n != 0
  | float x => !(x == 0.0)
  | str s => !s.isEmpty
  | bytes bs => !bs.isEmpty
  | list items | set items => !items.isEmpty
  | map entries => !entries.isEmpty
  | nan _ | day _ | moment _ | pair .. | knot .. | link .. => true

end Document

end Questionnaire
