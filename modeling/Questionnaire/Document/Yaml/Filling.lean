/-
# What the nodes of a YAML text hold

A node becomes a document of its kind. A text does so at once; a list or mapping
is first only noted and is filled later, in the order in which they were noted,
so the fault that is nearest to the top is the one reported. Before a mapping is
filled, the entries of the mappings under its keys `<<` are put before its own.
Where a text is called for, a mapping stands for the value under its key `=`.

Once all is filled, a node that does not lead back to itself is a document of its
own, and the others are the nodes of a knot.

Key definitions: `Part`, `Filled`, `Filling.partOf`, `Filling.flatten`,
`Filling.fill`, `Filling.explore`.
-/
import Questionnaire.Document.Slots
import Questionnaire.Document.Yaml.Graph

namespace Questionnaire.Yaml

/-- A document, or the place of a node that is filled on its own. -/
inductive Part where
  | done (d : Document)
  | later (place : Nat)
  deriving Repr, Inhabited

/-- What a list or mapping was filled with. -/
inductive Filled where
  | list (items : List Part)
  | pairs (items : List (Part × Part))
  | set (items : List Document)
  | map (entries : List (Document × Part))
  deriving Repr, Inhabited

/-- A filling with its parts replaced by documents. -/
def Filled.document (partDocument : Part → Document) : Filled → Document
  | .list items => .list (items.map partDocument)
  | .pairs items => .list (items.map fun (a, b) => .pair (partDocument a) (partDocument b))
  | .set items => .ofMembers items
  | .map entries => .map (entries.map fun (k, v) => (k, partDocument v))

/-- The parts of a filling that are documents or places. -/
def Filled.parts : Filled → List Part
  | .list items => items
  | .pairs items => items.flatMap fun (a, b) => [a, b]
  | .set _ => []
  | .map entries => entries.map (·.2)

/-- The nodes, by their places whether they were noted and what they were filled with, and those
that were noted since the last round of filling, the last one first. -/
structure Filling where
  nodes : Graph
  noted : Array Bool
  filled : Array (Option Filled)
  waiting : List Nat := []
  deriving Repr

/-- A computation on the nodes. -/
abbrev Fills (α : Type) := StateT Filling (Except Fault) α

namespace Filling

/-- Nothing is noted yet. -/
def ofGraph (nodes : Graph) : Filling :=
  { nodes, noted := Array.replicate nodes.size false, filled := Array.replicate nodes.size none }

/-- Fails because a node does not fit its kind. -/
def unfit {α : Type} : Fills α := throw .malformedYaml

/-- The node at a place. -/
def nodeAt (place : Nat) : Fills Node := return ((← get).nodes[place]?).getD default

/-- Puts a node in a place. -/
def putNode (place : Nat) (n : Node) : Fills Unit :=
  modify fun f => { f with nodes := f.nodes.setIfInBounds place n }

/-! ### Texts -/

/-- The text of a node: its own, or that of the value under the first key `=`. -/
def textAt : Nat → Nat → Fills String
  | 0, _ => throw .endless
  | fuel + 1, place => do
    match (← nodeAt place).content with
    | .text s => return s
    | .items _ => unfit
    | .entries entries =>
      for (k, v) in entries do
        if (← nodeAt k).kind == .equals then return ← textAt fuel v
      unfit

/-- The document of a node whose kind is written as a text. A day is written as nothing else. -/
def scalarAt (place : Nat) : Fills Document := do
  let n ← nodeAt place
  if !n.kind.isScalar then unfit
  let s ← textAt ((← get).nodes.size + 1) place
  match n.kind, n.content with
  | .timestamp, .entries _ => throw .illTyped
  | kind, _ => kind.read place s

/-- What becomes of a node. -/
def partOf (place : Nat) : Fills Part := do
  match (← nodeAt place).kind with
  | .list | .map | .set | .pairs =>
    if (← get).noted[place]? != some true then
      modify fun f => { f with
        noted := f.noted.setIfInBounds place true, waiting := place :: f.waiting }
    return .later place
  | _ => return .done (← scalarAt place)

/-! ### Mappings -/

/-- The value under the first key `<<` of entries, and the entries without it. -/
def splitMerge : List (Nat × Nat) → Fills (Option (Nat × List (Nat × Nat)))
  | [] => return none
  | (k, v) :: rest => do
    if (← nodeAt k).kind == .merge then return some (v, rest)
    return (← splitMerge rest).map fun (merge, others) => (merge, (k, v) :: others)

/-- The places of the entries of a mapping. -/
def entriesAt (place : Nat) : Fills (List (Nat × Nat)) := do
  match (← nodeAt place).content with
  | .entries entries => return entries
  | _ => unfit

/-- Puts entries into a mapping. -/
def putEntries (place : Nat) (entries : List (Nat × Nat)) : Fills Unit := do
  putNode place { ← nodeAt place with content := .entries entries }

/-- The entries of a mapping after those that its keys `<<` bring, which follow `merged`. Of a
list of mappings the first counts most. A key `=` is a text from then on. Every step takes away
a key `<<`, so `fuel` is more than their number. -/
def flatten : Nat → List (Nat × Nat) → Nat → Fills (List (Nat × Nat))
  | 0, _, _ => throw .endless
  | fuel + 1, merged, place => do
    let entries ← entriesAt place
    match ← splitMerge entries with
    | none =>
      for (k, _) in entries do
        let key ← nodeAt k
        if key.kind == .equals then putNode k { key with kind := .text }
      putEntries place (merged ++ entries)
      return merged ++ entries
    | some (value, rest) =>
      putEntries place rest
      let more ←
        match (← nodeAt value).content with
        | .entries _ => flatten fuel [] value
        | .items places => do
          let each ← places.mapM (flatten fuel [])
          pure each.reverse.flatten
        | .text _ => unfit
      flatten fuel (merged ++ more) place

/-- How many entries the mappings have. -/
def countEntries (nodes : Graph) : Nat :=
  nodes.foldl (fun n node => match node.content with
    | .entries entries => n + entries.length
    | _ => n) 0

/-- The entries of a mapping, whose keys are fit for keys, each key once. -/
def mappingAt (place : Nat) : Fills (List (Document × Part)) := do
  let _ ← entriesAt place
  let entries ← flatten (countEntries (← get).nodes + 1) [] place
  let parts ← entries.mapM fun (k, v) => do
    match ← partOf k with
    | .later _ => unfit
    | .done key => return (key, ← partOf v)
  return Document.ofEntries parts

/-! ### Filling -/

/-- What a list or mapping is filled with. -/
def fillingOf (place : Nat) : Fills Filled := do
  let n ← nodeAt place
  match n.kind, n.content with
  | .list, .items places => return .list (← places.mapM partOf)
  | .pairs, .items places =>
    return .pairs (← places.mapM fun place => do
      match ← entriesAt place with
      | [(k, v)] => return (← partOf k, ← partOf v)
      | _ => unfit)
  | .map, _ => return .map (← mappingAt place)
  | .set, _ => return .set ((← mappingAt place).map (·.1))
  | _, _ => unfit

/-- Fills the list or mapping at a place. -/
def fillAt (place : Nat) : Fills Unit := do
  let content ← fillingOf place
  modify fun f => { f with filled := f.filled.setIfInBounds place (some content) }

/-- Fills what was noted, in rounds: what is noted in one of them is filled in the next one. No
node is noted twice, so `fuel` is their number. -/
def fill : Nat → Fills Unit
  | 0 => return
  | fuel + 1 => do
    let places := (← get).waiting.reverse
    if places.isEmpty then return
    modify fun f => { f with waiting := [] }
    places.forM fillAt
    fill fuel

/-! ### The document -/

/-- What is known of a node: nothing, its document, or that it leads back to itself or to a node
that does. -/
inductive Known where
  | nothing
  | document (d : Document)
  | tied
  deriving Repr, Inhabited

/-- What is known of the nodes by their places. -/
abbrev Knowledge := Array Known

/-- The document of a part, if it is known. -/
def knownDocument? (known : Knowledge) : Part → Option Document
  | .done d => some d
  | .later place =>
    match known[place]? with
    | some (.document d) => some d
    | _ => none

/-- The document of a part, which stands inside a knot. -/
def partOrLink (filled : Array (Option Filled)) (known : Knowledge) (part : Part) : Document :=
  match knownDocument? known part, part with
  | some d, _ => d
  | none, .done d => d
  | none, .later place => .link place (filled[place]?.join matches some (.map _))

/-- Gets to know the node at a place that is inside the nodes at some places, after its parts.
Whether it has a document of its own is the answer. -/
def explore (filled : Array (Option Filled)) : Nat → List Nat → Nat → StateM Knowledge Bool
  | 0, _, _ => return false
  | fuel + 1, around, place => do
    match (← get)[place]?.getD .nothing, filled[place]?.join with
    | .document _, _ => return true
    | .tied, _ | _, none => return false
    | .nothing, some content =>
      if around.contains place then return false
      let single ← content.parts.mapM fun
        | .done _ => pure true
        | .later next => explore filled fuel (place :: around) next
      let known ← get
      let isSingle := single.all id
      set (known.setIfInBounds place
        (if isSingle then .document (content.document (partOrLink filled known)) else .tied))
      return isSingle

/-- The nodes of a knot by their places. -/
def knotNodes (filled : Array (Option Filled)) (known : Knowledge) : List Document :=
  filled.toList.map fun content => (content.map (·.document (partOrLink filled known))).getD .null

/-- The document of the node at a place. -/
def document (place : Nat) : Fills Document := do
  match ← partOf place with
  | .done d => return d
  | .later place =>
    let size := (← get).nodes.size
    fill size
    let filled := (← get).filled
    let (_, known) := (explore filled (size + 1) [] place).run (Array.replicate size .nothing)
    match knownDocument? known (.later place) with
    | some d => return d
    | none => return .knot (knotNodes filled known) place

end Filling

end Questionnaire.Yaml
