/-
# Sessions of resampling

A session resamples a pool of responses and remembers what it drew: responses
to the same questions share one sample, and for one kind of score they share
the sorted means of the sample's rows. What is remembered stays until the
session is reset, also if the next pool is a smaller one, which lacks places
that were drawn. A session also keeps its notes of a level or above and its
generator, and a computation that fails keeps what it did to the session before.

Key definitions: `Session`, `InSession`, `Session.sampleFor`, `Session.meansFor`,
`Session.within`.
-/
import Questionnaire.Config.Basic
import Questionnaire.Document.Access
import Questionnaire.Note
import Questionnaire.Random
import Questionnaire.Response.Basic
import Questionnaire.Stats.Rising
import Questionnaire.Stats.Sum
import Questionnaire.Decimal.Style

namespace Questionnaire

/-- Rows of drawn places in a pool. -/
abbrev Sample := List (List Nat)

/-- A set of questions, as a list of keys in order. -/
abbrev QuestionSet := List Key

/-- The order of keys. -/
def Key.le (a b : Key) : Bool := a.origin < b.origin || (a.origin == b.origin && a.index ≤ b.index)

/-- The questions that a response answers. -/
def Response.questionKeys (r : Response) : QuestionSet :=
  (r.questionSet.map (·.key)).mergeSort Key.le

/-- What sorted means are remembered under. -/
structure MeansKey where
  label : String
  questions : QuestionSet
  smoothing : Bool
  deriving DecidableEq, Repr

/-- A session. -/
structure Session where
  config : Config
  gen : Gen
  samples : List (QuestionSet × Sample) := []
  means : List (MeansKey × List Float) := []
  notes : List Note := []
  /-- The least level of a note that is kept. -/
  noteLevel : Level := .debug
  deriving Repr, Inhabited

/-- A computation in a session, which may fail. -/
abbrev InSession (α : Type) := ExceptT Fault (StateM Session) α

namespace Session

/-- Runs a computation in a session. -/
def run {α : Type} (s : Session) (c : InSession α) : Except Fault α × Session :=
  StateT.run (ExceptT.run c) s

/-- A result as a computation. -/
def lift {α : Type} (r : Except Fault α) : InSession α := ExceptT.mk (return r)

/-- Whether notes of a level are kept. -/
def keeps (s : Session) (level : Level) : Bool := s.noteLevel.rank ≤ level.rank

/-- Makes a note. -/
def note (level : Level) (text : String) : InSession Unit :=
  modify fun s => if s.keeps level then { s with notes := s.notes ++ [⟨level, text⟩] } else s

/-- Makes a note whose wording may fail, which matters only if the note is kept. -/
def noteWorded (level : Level) (text : Except Fault String) : InSession Unit := do
  if (← get).keeps level then note level (← lift text)

/-- The session without samples and means. -/
def forgetful (s : Session) : Session := { s with samples := [], means := [] }

/-- Forgets all samples and means. -/
def reset : InSession Unit := modify forgetful

/-- Draws with the session's generator. -/
def draw {α : Type} (d : Draw α) : InSession α :=
  modifyGet fun s => ((d s.gen).1, { s with gen := (d s.gen).2 })

/-- Draws with the session's generator. What was drawn before a failure stays drawn. -/
def tryDraw {α : Type} (d : Draw (Except Fault α)) : InSession α := do
  match ← draw d with
  | .error fault => throw fault
  | .ok x => return x

/-- Draws rows of `n` places in a pool of `n`. -/
def resample (n rows : Nat) : Draw Sample := Gen.times (Gen.times (Gen.below n) n) rows

/-- Resamples a pool of `n`, as often as configured if nothing is given as number of rows. What a
number of rows means is up to the generator that is injected: it gives no rows for a negative one,
and refuses a truth value after it has drawn, unless there is nothing to draw. -/
def bootstrap (n : Nat) (rows : Document) : InSession Sample := do
  let configured := (← get).config.iterations
  let rows := match rows with
    | .null => configured
    | rows => rows
  let sample ← draw (resample n (← lift rows.whole).toNat)
  match rows with
  | .bool _ => if n = 0 then return sample else throw .illTyped
  | _ => return sample

/-- The sample shared by all responses that answer the questions, from a pool of `n`. -/
def sampleFor (questions : QuestionSet) (n : Nat) : InSession Sample := do
  match (← get).samples.lookup questions with
  | some sample =>
    note .debug s!"Bootstrap cache hit for {questions.length} questions"
    return sample
  | none =>
    note .debug s!"Bootstrap cache miss for {questions.length} questions"
    let sample ← bootstrap n .null
    modify fun s => { s with samples := (questions, sample) :: s.samples }
    return sample

/-- The mean of the scores in a row, over those that have one; zero if none has. -/
def rowMean (scores : Array (Option Float)) (row : List Nat) : Float :=
  let drawn := row.map fun i => (scores[i]?).join
  let count := drawn.countP (·.isSome)
  if count = 0 then 0.0
  else pairwiseSum (drawn.map (·.getD 0.0)) / Float.ofNat count

/-- The sorted means of a sample's rows. -/
def sortedMeans (scores : List (Option Float)) (sample : Sample) : List Float :=
  rising (sample.map (rowMean scores.toArray))

/-- Whether sorted means are all the same although there are several. -/
def isDegenerate (means : List Float) : Bool :=
  match means with
  | first :: _ :: _ => !decide (first < means.getLastD first)
  | _ => false

/-- Remembers means. -/
def remember (key : MeansKey) (means : List Float) : InSession Unit :=
  modify fun s => { s with means := (key, means) :: s.means }

/-- The sorted means of a pool's scores, resampled for the questions of the key.
Not every member of the pool needs to have a score. -/
def meansFor {α : Type} (key : MeansKey) (pool : List α)
    (score : α → Except Fault (Option Float)) : InSession (List Float) := do
  match (← get).means.lookup key with
  | some means =>
    note .debug s!"Means cache hit for {key.label}"
    return means
  | none =>
    if pool.isEmpty then
      remember key []
      return []
    let sample ← sampleFor key.questions pool.length
    let scores ← lift (pool.mapM score)
    if sample.any (·.any (pool.length ≤ ·)) then throw .outOfRange
    let means := sortedMeans scores sample
    if isDegenerate means then
      let mean := writeSixPlaces (means.headD 0.0)
      note .debug s!"Degenerate bootstrap distribution for {key.label} (all means {mean})"
    remember key means
    return means

/-- Runs a computation and then forgets all samples and means, also if it failed. -/
def within {α : Type} (c : InSession α) : InSession α := ExceptT.mk do
  let result ← c.run
  modify forgetful
  return result

end Session

end Questionnaire
