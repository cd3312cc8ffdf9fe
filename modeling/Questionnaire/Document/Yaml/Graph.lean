/-
# The nodes of a YAML text

A node is a text, a list or a mapping, each of some kind. The nodes of a text
form a graph and are known by their places in it: an alias leads to the node
that was named, even to one that it is in. The text holds one document. Where
the tokens call for a node and there is none, it is empty.

Key definitions: `Node`, `Graph`, `Graph.ofTokens`.
-/
import Questionnaire.Document.Yaml.Layout
import Questionnaire.Document.Yaml.Kind

namespace Questionnaire.Yaml

/-- What a node holds. Parts of a list or mapping are given by their places. -/
inductive Content where
  | text (s : String)
  | items (places : List Nat)
  | entries (places : List (Nat × Nat))
  deriving Repr, Inhabited

/-- A value as it was written. -/
structure Node where
  kind : Kind
  content : Content
  deriving Repr, Inhabited

/-- The nodes of a text by their places. -/
abbrev Graph := Array Node

namespace Graph

/-- What remains to be read and what was said so far. -/
structure Source where
  tokens : List Token
  /-- What is wrong with the text after the tokens. -/
  fault : Option Fault
  /-- The places of the nodes that were named. -/
  anchors : List (String × Nat) := []
  /-- What the handles of tags stand for. -/
  handles : List (String × String) := []
  /-- The nodes begun so far. -/
  nodes : Graph := #[]
  deriving Repr

/-- A reader of nodes. -/
abbrev Reader := StateT Source (Except Fault)

/-- Fails because the tokens do not fit. -/
def unfit {α : Type} : Reader α := throw .malformedYaml

/-- The next token, if there is one. -/
def peek : Reader (Option Token) := do
  let s ← get
  match s.tokens, s.fault with
  | t :: _, _ => return some t
  | [], some fault => throw fault
  | [], none => return none

/-- Whether the next token is one of some. -/
def sees (ts : List Token) : Reader Bool := return (← peek).any ts.contains

/-- Goes past the next token. -/
def skip : Reader Unit := modify fun s => { s with tokens := s.tokens.tail }

/-- Goes past the next token if it is the given one. -/
def accept (t : Token) : Reader Bool := do
  if ← sees [t] then
    skip
    return true
  return false

/-- Goes past the next token, which must be the given one. -/
def expect (t : Token) : Reader Unit := do
  if !(← accept t) then unfit

/-! ### What stands before a value -/

/-- The anchor here, if there is one. -/
def anchor? : Reader (Option String) := do
  match ← peek with
  | some (.anchor name) =>
    skip
    return some name
  | _ => return none

/-- The tag here, if there is one. -/
def tag? : Reader (Option (Option String × String)) := do
  match ← peek with
  | some (.tag handle suffix) =>
    skip
    return some (handle, suffix)
  | _ => return none

/-- The anchor and the tag before a value, in any order. -/
def properties : Reader (Option String × Option (Option String × String)) := do
  match ← anchor? with
  | some name => return (some name, ← tag?)
  | none =>
    let tag ← tag?
    return (← anchor?, tag)

/-- The whole of a tag. -/
def wholeTag : Option (Option String × String) → Reader (Option String)
  | none => return none
  | some (none, suffix) => return some suffix
  | some (some handle, suffix) => do
    match (← get).handles.lookup handle with
    | some stem => return some (stem ++ suffix)
    | none => unfit

/-- The kind that a tag names, or the one that shows without a tag. -/
def kindOf (tag : Option String) (shown : Kind) : Kind :=
  match tag with
  | none | some "!" => shown
  | some tag => .ofTag tag

/-- The kind that a text shows. A text in quotes is a text, unless its tag is `!`. -/
def shownKind (tag : Option String) (plain : Bool) (s : String) : Kind :=
  if plain || tag == some "!" then .ofPlain s else .text

/-- The place of a node that begins here, under a name if it has one. A name is given once. -/
def begin (name : Option String) (kind : Kind) (content : Content) : Reader Nat := do
  if let some name := name then
    if ((← get).anchors.lookup name).isSome then unfit
    modify fun s => { s with anchors := (name, s.nodes.size) :: s.anchors }
  modifyGet fun s => (s.nodes.size, { s with nodes := s.nodes.push ⟨kind, content⟩ })

/-- The place of a node that has no parts. -/
def leaf (name : Option String) (kind : Kind) (s : String) : Reader Nat :=
  begin name kind (.text s)

/-- The place of a node that was left out. -/
def empty : Reader Nat := leaf none .null ""

/-- The place of a list or mapping whose parts are read after it has begun. -/
def branch (name : Option String) (kind : Kind) (readParts : Reader Content) : Reader Nat := do
  let place ← begin name kind (.items [])
  let content ← readParts
  modify fun s => { s with nodes := s.nodes.setIfInBounds place ⟨kind, content⟩ }
  return place

/-- The place of the node that was named. -/
def named (name : String) : Reader Nat := do
  match (← get).anchors.lookup name with
  | some place => return place
  | none => unfit

/-! ### Nodes -/

/-- The tokens that come after an entry of a mapping without brackets. -/
def afterBlockValue : List Token := [.key, .value, .blockEnd]

mutual

/-- A node. Without brackets it may be a list or mapping only if `block` is set, and a list
that is not indented only if `flush` is. -/
def read (block flush : Bool) : Nat → Reader Nat
  | 0 => unfit
  | fuel + 1 => do
    match ← peek with
    | some (.alias name) =>
      skip
      named name
    | _ =>
      let (name, tag) ← properties
      let tag ← wholeTag tag
      readContent block flush name tag fuel

/-- A node after its anchor and tag. It may be empty if it has one of them. -/
def readContent (block flush : Bool) (name tag : Option String) : Nat → Reader Nat
  | 0 => unfit
  | fuel + 1 => do
    let next ← peek
    let orEmpty : Reader Nat :=
      if name.isSome || tag.isSome then leaf name (kindOf tag .null) "" else unfit
    match next with
    | some (.text s plain) =>
      skip
      leaf name (kindOf tag (shownKind tag plain s)) s
    | some .openList =>
      skip
      branch name (kindOf tag .list) (return .items (← readFlowItems true fuel))
    | some .openMap =>
      skip
      branch name (kindOf tag .map) (return .entries (← readFlowEntries true fuel))
    | some .entry =>
      if flush then branch name (kindOf tag .list) (return .items (← readFlushItems fuel))
      else orEmpty
    | some .listStart =>
      if block then
        skip
        branch name (kindOf tag .list) (return .items (← readItems fuel))
      else orEmpty
    | some .mapStart =>
      if block then
        skip
        branch name (kindOf tag .map) (return .entries (← readEntries fuel))
      else orEmpty
    | _ => orEmpty

/-- A node, or an empty one if one of the tokens comes next. -/
def readUnless (ends : List Token) (block flush : Bool) : Nat → Reader Nat
  | 0 => unfit
  | fuel + 1 => do
    if ← sees ends then empty else read block flush fuel

/-- A node after its sign, or an empty one if the sign is not there. -/
def readAfterSign (ends : List Token) (block : Bool) : Nat → Reader Nat
  | 0 => unfit
  | fuel + 1 => do
    if ← accept .value then readUnless ends block block fuel else empty

/-- The items of a list that is indented. -/
def readItems : Nat → Reader (List Nat)
  | 0 => unfit
  | fuel + 1 => do
    if ← accept .entry then
      let n ← readUnless [.entry, .blockEnd] true false fuel
      return n :: (← readItems fuel)
    expect .blockEnd
    return []

/-- The items of a list that is not indented. -/
def readFlushItems : Nat → Reader (List Nat)
  | 0 => unfit
  | fuel + 1 => do
    if ← accept .entry then
      let n ← readUnless [.entry, .key, .value, .blockEnd] true false fuel
      return n :: (← readFlushItems fuel)
    return []

/-- The entries of a mapping without brackets. -/
def readEntries : Nat → Reader (List (Nat × Nat))
  | 0 => unfit
  | fuel + 1 => do
    if ← accept .key then
      let k ← readUnless afterBlockValue true true fuel
      let v ← readAfterSign afterBlockValue true fuel
      return (k, v) :: (← readEntries fuel)
    expect .blockEnd
    return []

/-- The items of a list in brackets. A key among them begins a mapping with one entry. -/
def readFlowItems (first : Bool) : Nat → Reader (List Nat)
  | 0 => unfit
  | fuel + 1 => do
    if ← accept .closeList then return []
    if !first then expect .comma
    if ← accept .key then
      let entry := do
        let k ← readUnless [.value, .comma, .closeList] false false fuel
        return .entries [(k, ← readAfterSign [.comma, .closeList] false fuel)]
      let n ← branch none .map entry
      return n :: (← readFlowItems false fuel)
    if ← accept .closeList then return []
    let n ← read false false fuel
    return n :: (← readFlowItems false fuel)

/-- The entries of a mapping in brackets. A node that is no key has an empty value. -/
def readFlowEntries (first : Bool) : Nat → Reader (List (Nat × Nat))
  | 0 => unfit
  | fuel + 1 => do
    if ← accept .closeMap then return []
    if !first then expect .comma
    if ← accept .key then
      let k ← readUnless [.value, .comma, .closeMap] false false fuel
      let v ← readAfterSign [.comma, .closeMap] false fuel
      return (k, v) :: (← readFlowEntries false fuel)
    if ← accept .closeMap then return []
    let k ← read false false fuel
    return (k, ← empty) :: (← readFlowEntries false fuel)

end

/-! ### The document -/

/-- The directives before a document: at most one version, which begins with one, and each
handle once. -/
def readDirectives (versioned : Bool) : Nat → Reader Unit
  | 0 => unfit
  | fuel + 1 => do
    match ← peek with
    | some .directive =>
      skip
      readDirectives versioned fuel
    | some (.version major) =>
      if versioned || major != 1 then unfit
      skip
      readDirectives true fuel
    | some (.handle name stem) =>
      if ((← get).handles.lookup name).isSome then unfit
      skip
      modify fun s => { s with handles := s.handles ++ [(name, stem)] }
      readDirectives versioned fuel
    | _ => return

/-- The handles that need no directive. -/
def usualHandles : List (String × String) := [("!", "!"), ("!!", Kind.standard)]

/-- Whether a directive comes next. -/
def seesDirective : Reader Bool := do
  match ← peek with
  | some .directive | some (.version _) | some (.handle ..) => return true
  | _ => return false

/-- The place of the node of a document. -/
def readDocument (fuel : Nat) : Reader Nat := do
  if (← seesDirective) || (← sees [.documentStart]) then
    readDirectives false fuel
    expect .documentStart
    modify fun s => { s with handles := s.handles ++ usualHandles }
    let atEnd := (← peek).isNone
    if atEnd || (← seesDirective) || (← sees [.documentStart, .documentEnd]) then empty
    else read true false fuel
  else
    modify fun s => { s with handles := usualHandles }
    read true false fuel

/-- Goes past the marks after a document. -/
def skipEnds : Nat → Reader Unit
  | 0 => unfit
  | fuel + 1 => do if ← accept .documentEnd then skipEnds fuel

/-- The place of the only document of a text, if it has one. -/
def readOnly (fuel : Nat) : Reader (Option Nat) := do
  if (← peek).isNone then return none
  let n ← readDocument fuel
  skipEnds fuel
  if (← peek).isSome then unfit
  return some n

/-- The nodes that tokens write and the place of the one at the top, if there is one. After the
tokens the text may be at fault. No node is deeper in the readers than four times the number of
tokens. -/
def ofTokens (ts : List Token) (fault : Option Fault) : Except Fault (Graph × Option Nat) := do
  let (top, s) ← (readOnly (4 * ts.length + 4)).run { tokens := ts, fault }
  return (s.nodes, top)

end Graph

end Questionnaire.Yaml
