/-
# Sample surveys

`Survey.transport` has one of every structural feature: a branch question, a
block at a random place, a block of wording variants, ordered and unordered
scales, a question with several answers and one for a text. `Survey.flat` is a
single block of plain questions.
-/
import Questionnaire.Survey.Basic

namespace Questionnaire

/-- The node of the samples with the given number. -/
def sampleKey (index : Nat) : Key := ⟨0, index⟩

/-- The choices of a sample question: they stand on the rows below it. -/
def sampleChoices (id : String) (row : Int) (texts : List String) : List Choice :=
  texts.zipIdx.map fun (text, i) => ⟨.str s!"{id}_o{i + 1}", .str text, .int (row + i + 1)⟩

/-- A sample question. -/
def sampleQuestion (index : Nat) (id text : String) (row : Int) (texts : List String) : Question :=
  { key := sampleKey index, id := .str id, text := .str text, row := .int row
    choices := sampleChoices id row texts }

/-- Five degrees of agreement. -/
def agreement : List String :=
  ["Strongly disagree", "Disagree", "Neutral", "Agree", "Strongly agree"]

/-- Three degrees of agreement. -/
def shortAgreement : List String := ["Disagree", "Neutral", "Agree"]

namespace Survey

/-- The question that sends car owners to the second block and others to the third. -/
def ownsCar : Question :=
  let choices := sampleChoices "q1" 1 ["Yes", "No"]
  { sampleQuestion 0 "q1" "Do you own a car?" 1 ["Yes", "No"] with
    randomize := .bool false
    branches := choices.zip [sampleKey 1, sampleKey 3] }

/-- A survey about transport. -/
def transport : Survey where
  name := .str "Example Transport Survey"
  metadata := .record [("source", .str "examples.py")]
  blocks := [
    { key := sampleKey 0, id := .str "1", questions := [ownsCar], paradigm := .one,
      branchIndex := some 0 },
    { key := sampleKey 1, id := .str "2"
      questions := [{ sampleQuestion 1 "q2" "I am satisfied with my car." 4 agreement with
        ordered := .bool true }]
      subBlocks := [{
        key := sampleKey 2, id := .str "2.1", paradigm := .all
        questions := [
          { sampleQuestion 2 "q3a" "Fuel prices are too high." 10 shortAgreement with
            ordered := .bool true },
          { sampleQuestion 3 "q3b" "Fuel is overpriced." 14 shortAgreement with
            ordered := .bool true }] }] },
    { key := sampleKey 3, id := .str "3"
      questions := [
        sampleQuestion 4 "q4" "How do you usually commute?" 18 ["Walk", "Cycle", "Bus", "Train"],
        { sampleQuestion 5 "q5" "Which of these have you used this month?" 23
            ["Taxi", "Ferry", "Tram", "Scooter"] with exclusive := .bool false }] },
    { key := sampleKey 4, id := .str "4", randomizable := .bool true
      questions := [
        { sampleQuestion 6 "q6" "Traffic in my town is manageable." 28 agreement with
          ordered := .bool true },
        { sampleQuestion 7 "q7" "Any other comments?" 34 [] with freetext := .bool true }] }]

/-- One fixed block of questions that all offer the same number of choices. -/
def flat (questions choices : Int) : Survey where
  name := .str "Flat Survey"
  blocks := [{
    key := sampleKey 0, id := .str "1"
    questions := (List.range questions.toNat).map fun i =>
      sampleQuestion i s!"q_1_{i + 1}" s!"Question {i + 1}" (1 + i * (choices + 1))
        ((List.range choices.toNat).map fun j => s!"Option {j + 1}") }]

end Survey

end Questionnaire
