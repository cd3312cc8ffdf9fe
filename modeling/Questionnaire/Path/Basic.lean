/-
# Paths

A path is the set of blocks at the top level that one respondent can see: those
of a chain of fixed blocks, and all that may move. A response belongs to the
path that it traversed, or to the only path that holds all it traversed.

Key definitions: `Survey.paths`, `Survey.pathOf`, `matchPath`, `groupByPath`.
-/
import Questionnaire.Document.Order
import Questionnaire.Path.Chain
import Questionnaire.Response.Basic
import Questionnaire.Text.Quoted
import Questionnaire.Note

namespace Questionnaire

/-- A set of blocks. Order and repetitions do not matter. -/
abbrev Path := List Block

namespace Path

/-- Whether the path has the block. -/
def has (p : Path) (b : Block) : Bool := p.any (·.key == b.key)

/-- Whether all blocks of one path are in another. -/
def within (p q : Path) : Bool := p.all q.has

/-- Whether two paths have the same blocks. -/
def equal (p q : Path) : Bool := p.within q && q.within p

/-- The path without repetitions. -/
def distinct : Path → Path
  | [] => []
  | b :: bs => if Path.has bs b then distinct bs else b :: distinct bs

/-- The ids of the blocks, sorted. -/
def ids (p : Path) : Except Fault (List Document) := Document.sorted (p.distinct.map (·.id))

end Path

namespace Survey

/-- The blocks of the survey that a chain and the blocks that may move make up. -/
def pathAlong (s : Survey) (chain : List Block) : Path :=
  s.blocks.filter fun b => b.isRandomizable || Path.has chain b

/-- The chains through the fixed blocks. -/
def fixedChains (s : Survey) : Except Fault (List (List Block)) := orderedChains s.fixedBlocks

/-- Whether there is but one chain and it is empty. -/
def hasOnlyEmptyChain (chains : List (List Block)) : Bool :=
  match chains with
  | [[]] => true
  | _ => false

/-- The paths in a list, each once. -/
def distinctPaths (paths : List Path) : List Path :=
  paths.foldl (fun acc p => if acc.any p.equal then acc else acc ++ [p]) []

/-- The paths that chains through the fixed blocks make up. -/
def pathsAlong (s : Survey) (chains : List (List Block)) : List Path :=
  if hasOnlyEmptyChain chains then [s.shuffledBlocks]
  else distinctPaths ((chains.filter (!·.isEmpty)).map s.pathAlong)

/-- The paths through a survey, in the order of the chains. -/
def paths (s : Survey) : Except Fault (List Path) := s.fixedChains.map s.pathsAlong

/-- What finding the paths along chains has to say. -/
def chainNotes (s : Survey) (chains : List (List Block)) : List Note :=
  let first : Note := ⟨.info, "Computing paths for survey having DAG with " ++
    s!"{chains.length} paths through fixed blocks."⟩
  let count := (s.pathsAlong chains).length
  if !hasOnlyEmptyChain chains && 1 < count then
    [first, ⟨.info, s!"Computed {count} paths through the survey."⟩]
  else [first]

/-- What finding the paths has to say. -/
def pathNotes (s : Survey) : List Note := (s.fixedChains.toOption.map s.chainNotes).getD []

/-- The blocks at the top level that a response has counted answers in. -/
def pathOf (s : Survey) (r : Response) : Except Fault Path := do
  let blocks ← r.counted.mapM fun a => s.farthest a.question
  return Path.distinct blocks

end Survey

/-- The path that a set of traversed blocks belongs to: an equal one, or else
the only one that holds them. -/
def matchPath (paths : List Path) (traversed : Path) : Except Fault Path :=
  match paths.find? (·.equal traversed) with
  | some p => .ok p
  | none =>
    match paths.filter traversed.within with
    | [] => do
      let ids ← (← traversed.ids).mapM (·.text)
      .error (.noPathHolds (", ".intercalate ids))
    | [p] => .ok p
    | ps => do
      let ids ← traversed.ids
      let shown := (Document.list (ids.map (·.unrolled))).shown
      .error (.citing ids (.severalPathsHold shown ps.length))

/-- Puts a response into the groups of the path it belongs to. -/
def addToGroup (p : Path) (r : Response) (groups : List (Path × List Response)) :
    List (Path × List Response) :=
  groups.map fun (q, rs) => if q.equal p then (q, rs ++ [r]) else (q, rs)

/-- The responses of each path, in their order. A response without counted
answers belongs to none. -/
def groupByPath (s : Survey) (paths : List Path) (responses : List Response) :
    Except Fault (List (Path × List Response)) :=
  responses.foldlM (fun groups r => do
    let traversed ← s.pathOf r
    if traversed.isEmpty then return groups
    else return addToGroup (← matchPath paths traversed) r groups) (paths.map (·, []))

/-- What grouping has to say, up to the response that fails. -/
def groupNotes (s : Survey) (paths : List Path) : List Response → List Note
  | [] => []
  | r :: rs =>
    match s.pathOf r with
    | .error _ => []
    | .ok [] => ⟨.warning, s!"Response {r.id.display} has no answers; not assigned to a path."⟩ ::
        groupNotes s paths rs
    | .ok traversed =>
      match matchPath paths traversed with
      | .error _ => []
      | .ok _ => groupNotes s paths rs

end Questionnaire
