/-
# What can go wrong

A function that may fail returns a `Fault`: the cause, with the names that its
message needs. `Fault.kind` groups the causes that a caller tells apart and
`Fault.message` words them. A cause without a message is one that the form of
the input alone explains (a missing field, an index past the end).
-/

namespace Questionnaire

/-- The groups of causes that a caller tells apart. -/
inductive FaultKind where
  | malformedSurvey
  | pathMismatch
  | wrongAccessor
  | duplicateAnswer
  | outOfTurn
  | badValue
  | missingField
  | illTyped
  | notAMapping
  | outOfRange
  | divisionByZero
  | tooLarge
  | endless
  | malformedJson
  | malformedYaml
  deriving DecidableEq, Repr

/-- The causes of failure. Names of questions, options and blocks are their ids. -/
inductive Fault where
  -- the structure of a survey
  | noTopLevelBlocks (survey : String)
  | emptyBlock (block survey : String)
  | variantsWithoutQuestions (block : String)
  | freetextWithOptions (question : String)
  | branchBelowTop (question target : String)
  | branchToShuffled (question target : String)
  | branchFromShuffled (question origin : String)
  | branchBackwards (question origin target : String)
  | strangerQuestion (question survey : String)
  -- walking through a survey
  | emptyContents (block : String)
  | nothingToArrange
  | noQuestionsIn (block survey : String)
  | finished
  | nothingReachable (pending : Option String)
  | neverPresented (question : String)
  | answeredTwice (question : String)
  | foreignOption (option question : String)
  -- survey and response documents
  | unknownBranchQuestion (block question : String)
  | unknownBranchOption (question option : String)
  | unknownBranchBlock (question block : String)
  | unknownQuestion (response question : String)
  | unknownOption (question option : String)
  | unknownParadigm
  | unknownValidity
  -- paths
  | noPathHolds (blocks : String)
  | severalPathsHold (blocks : String) (paths : Nat)
  -- reading an answer
  | singleFromMany
  | nothingSelected (question : String)
  | manyFromSingle
  -- configuration
  | unknownSettings (names : String)
  | noIterations
  | alphaOutside (alpha : String)
  | deltaOutside (delta : String)
  | noClusters
  -- clustering and statistics
  | clusterCountNotPositive
  | shapesDiffer (left right : String)
  | pairedSizesDiffer (left right : Nat)
  | answerCountsDiffer (left : Nat) (question : String) (right : Nat) (other : String)
  -- the form of the input
  | numberTooLong
  | unsuitable
  | missingField
  | illTyped
  | notAMapping
  | outOfRange
  | divisionByZero
  | tooLarge
  | endless
  | malformedJson
  | malformedYaml
  deriving DecidableEq, Repr

namespace Fault

/-- The group a cause belongs to. -/
def kind : Fault → FaultKind
  | noTopLevelBlocks _ | emptyBlock .. | variantsWithoutQuestions _ | freetextWithOptions _
  | branchBelowTop .. | branchToShuffled .. | branchFromShuffled .. | branchBackwards ..
  | strangerQuestion .. | emptyContents _ | nothingToArrange | noQuestionsIn ..
  | unknownBranchQuestion .. | unknownBranchOption .. | unknownBranchBlock ..
  | unknownQuestion .. | unknownOption .. => .malformedSurvey
  | noPathHolds _ | severalPathsHold .. => .pathMismatch
  | singleFromMany | nothingSelected _ | manyFromSingle => .wrongAccessor
  | answeredTwice _ => .duplicateAnswer
  | finished | nothingReachable _ | neverPresented _ => .outOfTurn
  | foreignOption .. | unknownParadigm | unknownValidity | unknownSettings _ | noIterations
  | alphaOutside _ | deltaOutside _ | noClusters | clusterCountNotPositive | shapesDiffer ..
  | pairedSizesDiffer .. | answerCountsDiffer .. | numberTooLong | unsuitable => .badValue
  | missingField => .missingField
  | illTyped => .illTyped
  | notAMapping => .notAMapping
  | outOfRange => .outOfRange
  | divisionByZero => .divisionByZero
  | tooLarge => .tooLarge
  | endless => .endless
  | malformedJson => .malformedJson
  | malformedYaml => .malformedYaml

/-- The wording of a cause, if it has one. -/
def message : Fault → Option String
  | noTopLevelBlocks s => some s!"Survey {s} has no top-level blocks"
  | emptyBlock b s => some s!"Block {b} in survey {s} has no contents"
  | variantsWithoutQuestions b => some s!"Variant block {b} has no questions"
  | freetextWithOptions q => some s!"Freetext question {q} carries options"
  | branchBelowTop q b =>
    some s!"Question {q} branches to block {b}, which is not a top-level block"
  | branchToShuffled q b => some s!"Question {q} branches to randomizable block {b}"
  | branchFromShuffled q b => some s!"Question {q} branches from randomizable block {b}"
  | branchBackwards q o b => some s!"Question {q} in block {o} branches backwards to block {b}"
  | strangerQuestion q s => some s!"Question {q} does not belong to survey {s}"
  | emptyContents b => some s!"Block {b} has no contents"
  | nothingToArrange => some "Cannot interleave an empty block"
  | noQuestionsIn b s => some s!"Survey {s} in error: block {b} has no questions"
  | finished => some "Interpreter has terminated"
  | nothingReachable p =>
    some ("No reachable questions remain (pending branch to " ++ p.getD "None" ++ ")")
  | neverPresented q => some s!"Question {q} was never presented"
  | answeredTwice q => some s!"Question {q} has already been answered"
  | foreignOption o q => some s!"Option {o} is not an option of question {q}"
  | unknownBranchQuestion b q =>
    some s!"Block {b} names branch question {q}, which it does not hold"
  | unknownBranchOption q o => some s!"Question {q} branches on unknown option {o}"
  | unknownBranchBlock q b => some s!"Question {q} branches to unknown block {b}"
  | unknownQuestion r q => some s!"Response {r} answers unknown question {q}"
  | unknownOption q o => some s!"Question {q} has no option {o}"
  | unknownParadigm | unknownValidity => none
  | noPathHolds bs => some ("Path survey respondent took does not match any known paths " ++
      "through the survey: " ++ bs)
  | severalPathsHold bs n =>
    some s!"Traversed blocks {bs} are contained in {n} paths through the survey"
  | singleFromMany =>
    some "Cannot call answer() on non-exclusive questions. Try answers() instead."
  | nothingSelected q => some s!"Question {q} has no selected option"
  | manyFromSingle =>
    some "Cannot call answers() on exclusive questions. Try answer() instead."
  | unknownSettings names => some s!"Unknown QC configuration keys: {names}"
  | noIterations => some "bootstrap_iterations must be positive"
  | alphaOutside a => some s!"alpha must lie in [0, 1], got {a}"
  | deltaOutside d => some s!"delta must lie in [0, 1], got {d}"
  | noClusters => some "cluster_k must be positive"
  | clusterCountNotPositive => some "k must be positive"
  | shapesDiffer a b => some s!"Cannot compare vectors of shapes {a} and {b}"
  | pairedSizesDiffer m n => some s!"Paired samples differ in size: {m} and {n}"
  | answerCountsDiffer m q n r =>
    some s!"Question responses have different sizes: {m} for question {q}, {n} for question {r}"
  | numberTooLong => some ("Exceeds the limit (4300 digits) for integer string conversion; " ++
      "use sys.set_int_max_str_digits() to increase the limit")
  | unsuitable | missingField | illTyped | notAMapping | outOfRange | divisionByZero
  | tooLarge | endless | malformedJson | malformedYaml => none

end Fault

end Questionnaire
