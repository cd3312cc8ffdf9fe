/-
# Reading a response back

A response is written with the ids of its questions and of the selected choices,
and each id is read as the first question of the survey, or the first choice of
the question, that has it. So a response is read back as it was if each of its
questions and choices is the first one with its id. That is so if no id comes
twice, and for a response that was read against the survey before, as it holds
first ones only.

Ids are compared by their values, and a number may equal one of another kind.
What is needed of the comparison is said of the ids at hand: `TellApart` that no
two of them are equal, `Compare` that equal values compare alike. Texts do.

Key definitions: `Survey.TellsApart`, `Survey.Compares`, `Answer.FirstNamed`,
`Response.BelongsTo`, `Traversal.Step.IsOwn`.
Key theorems: `Response.ofDocument_toDocument`, `Traversal.belongsTo_run`,
`Response.rereads`.
-/
import Questionnaire.Proofs.Survey.Rereading
import Questionnaire.Proofs.Traversal.Late
import Questionnaire.Proofs.Traversal.Routing
import Questionnaire.Response.Record

namespace Questionnaire

/-! ### Ids that are looked up -/

namespace Document

/-- Each of the ids equals itself and none of the others. -/
structure TellApart (ids : List Document) : Prop where
  apart : ids.Pairwise fun a b => a.equals b = false
  self : ∀ a ∈ ids, a.equals a = true

/-- What equals one of the ids compares with all of them as that one does. -/
def Compare (ids : List Document) : Prop :=
  ∀ a ∈ ids, ∀ d, a.equals d = true → ∀ b ∈ ids, b.equals a = b.equals d

theorem equals_text_self {a : Document} (h : a.isText = true) : a.equals a = true := by
  cases a <;> simp only [isText, Bool.false_eq_true] at h
  simp [equals, isNaN, str_beq_iff]

/-- Texts are told apart if none of them comes twice. -/
theorem tellApart_of_texts {ids : List Document} (htexts : ∀ a ∈ ids, a.isText = true)
    (hnodup : ids.Nodup) : TellApart ids where
  apart := by
    refine hnodup.imp_of_mem fun {a b} ha _ hne => ?_
    by_contra hequal
    apply hne
    exact (eq_of_equals (htexts a ha) (by simpa using hequal)).symm
  self := fun a ha => equals_text_self (htexts a ha)

/-- Only a text equals a text, so texts compare as they should. -/
theorem compare_of_texts {ids : List Document} (htexts : ∀ a ∈ ids, a.isText = true) :
    Compare ids := by
  intro a ha d hequal b _
  rw [eq_of_equals (htexts a ha) hequal]

section

variable {α : Type} {id : α → Document} {xs : List α} {x : α}

/-- Of things whose ids are told apart, each is the first with its id. -/
theorem TellApart.find? (h : TellApart (xs.map id)) (hx : x ∈ xs) :
    xs.find? (fun y => (id y).equals (id x)) = some x := by
  obtain ⟨before, after, rfl⟩ := List.append_of_mem hx
  have hself : (id x).equals (id x) = true := h.self _ (List.mem_map_of_mem hx)
  have hearlier : ∀ y ∈ before, (id y).equals (id x) = false := by
    intro y hy
    have hapart := h.apart
    rw [List.map_append, List.pairwise_append] at hapart
    exact hapart.2.2 _ (List.mem_map_of_mem hy) _ (List.mem_map_of_mem List.mem_cons_self)
  rw [List.find?_append, List.find?_eq_none.mpr (by simpa using hearlier), Option.none_or,
    List.find?_cons_of_pos (by exact hself)]

/-- What was found by a value is found by its own id. -/
theorem Compare.find? (h : Compare (xs.map id)) {d : Document}
    (hx : xs.find? (fun y => (id y).equals d) = some x) :
    xs.find? (fun y => (id y).equals (id x)) = some x := by
  have hmem : id x ∈ xs.map id := List.mem_map_of_mem (List.mem_of_find?_eq_some hx)
  have hequal : (id x).equals d = true := by simpa using List.find?_some hx
  rw [← hx]
  refine List.find?_congr fun y hy => ?_
  exact h _ hmem d hequal _ (List.mem_map_of_mem hy)

end

end Document

/-- No two questions have one id, nor have two choices of a question. -/
structure Survey.TellsApart (s : Survey) : Prop where
  questions : Document.TellApart (s.questions.map (·.id))
  choices : ∀ q ∈ s.questions, Document.TellApart (q.choices.map (·.id))

/-- The ids of the questions compare, and those of the choices of each question do. -/
structure Survey.Compares (s : Survey) : Prop where
  questions : Document.Compare (s.questions.map (·.id))
  choices : ∀ q ∈ s.questions, Document.Compare (q.choices.map (·.id))

/-- The ids of the questions and choices are texts. -/
structure Survey.HasTextIds (s : Survey) : Prop where
  questions : ∀ q ∈ s.questions, q.id.isText = true
  choices : ∀ q ∈ s.questions, ∀ c ∈ q.choices, c.id.isText = true

/-- Texts are told apart if no question of the survey and no choice of a question repeats one. -/
theorem Survey.HasTextIds.tellsApart {s : Survey} (h : s.HasTextIds)
    (hquestions : (s.questions.map (·.id)).Nodup)
    (hchoices : ∀ q ∈ s.questions, (q.choices.map (·.id)).Nodup) : s.TellsApart where
  questions := Document.tellApart_of_texts (by simpa using h.questions) hquestions
  choices := fun q hq => Document.tellApart_of_texts (by simpa using h.choices q hq) (hchoices q hq)

theorem Survey.HasTextIds.compares {s : Survey} (h : s.HasTextIds) : s.Compares where
  questions := Document.compare_of_texts (by simpa using h.questions)
  choices := fun q hq => Document.compare_of_texts (by simpa using h.choices q hq)

/-! ### Answers to the first of their kind -/

/-- The question of the answer is the first of the survey with its id, and each selected choice is
the first of the question. -/
structure Answer.FirstNamed (s : Survey) (a : Answer) : Prop where
  question : s.question? a.question.id = some a.question
  choices : ∀ c ∈ a.choices, a.question.choice? c.id = some c

/-- The response answers questions of the survey with choices of theirs. -/
def Response.BelongsTo (r : Response) (s : Survey) : Prop :=
  ∀ a ∈ r.answers, a.question ∈ s.questions ∧ ∀ c ∈ a.choices, c ∈ a.question.choices

variable {s : Survey}

theorem Response.BelongsTo.firstNamed {r : Response} (h : r.BelongsTo s) (hs : s.TellsApart) :
    ∀ a ∈ r.answers, a.FirstNamed s := by
  intro a ha
  obtain ⟨hquestion, hchoices⟩ := h a ha
  exact ⟨hs.questions.find? hquestion,
    fun c hc => (hs.choices a.question hquestion).find? (hchoices c hc)⟩

/-! ### Writing and reading -/

theorem Selection.ofDocument_toDocument {q : Question} {sel : Selection}
    (h : q.choice? sel.choice.id = some sel.choice) :
    Selection.ofDocument q sel.toDocument = .ok sel := by
  have hid : sel.toDocument.required "id" = .ok sel.choice.id :=
    Document.required_map Document.lookup_str_cons
  have hindex : sel.toDocument.fieldD "index" (.int 0) = sel.index := by
    simp [toDocument, Document.record, Document.fieldD_map, Document.lookup_str_cons]
  unfold Selection.ofDocument
  refine bind_eq_ok.mpr ⟨_, hid, ?_⟩
  rw [h]
  simp only [hindex]
  rfl

theorem Answer.ofDocument_toDocument {a : Answer} (h : a.FirstNamed s) (response : Document) :
    Answer.ofDocument s response a.toDocument = .ok a := by
  have hid : a.toDocument.required "question" = .ok a.question.id :=
    Document.required_map Document.lookup_str_cons
  have hthings : (a.toDocument.fieldD "options" (.list [])).elements =
      .ok (a.selections.map (·.toDocument)) := by
    simp [toDocument, Document.record, Document.fieldD_map, Document.lookup_str_cons,
      Document.elements, Document.opened]
  have hseen : a.toDocument.fieldD "index_seen" (.int 0) = a.seen := by
    simp [toDocument, Document.record, Document.fieldD_map, Document.lookup_str_cons]
  have hselections : (a.selections.map (·.toDocument)).mapM (Selection.ofDocument a.question) =
      .ok (a.selections.map id) :=
    mapM_map_eq_ok fun sel hsel =>
      Selection.ofDocument_toDocument (h.choices _ (List.mem_map_of_mem hsel))
  rw [List.map_id] at hselections
  unfold Answer.ofDocument
  refine bind_eq_ok.mpr ⟨_, hid, ?_⟩
  rw [h.question]
  refine bind_eq_ok.mpr ⟨_, hthings, bind_eq_ok.mpr ⟨_, hselections, ?_⟩⟩
  rw [hseen]
  rfl

theorem Validity.ofDocument_name (v : Validity) : Validity.ofDocument (.str v.name) = .ok v := by
  unfold Validity.ofDocument
  simp

/-- **A response whose questions and choices are the first with their ids is read back** from what
is written of it. -/
theorem Response.ofDocument_toDocument {r : Response} (h : ∀ a ∈ r.answers, a.FirstNamed s) :
    Response.ofDocument s r.toDocument = .ok r := by
  have hlisted : (r.toDocument.fieldD "responses" (.list [])).elements =
      .ok (r.answers.map (·.toDocument)) := by
    simp [toDocument, Document.record, Document.fieldD_map, Document.lookup_str_cons,
      Document.elements, Document.opened]
  have hanswers : (r.answers.map (·.toDocument)).mapM
      (Answer.ofDocument s (r.toDocument.fieldD "id" .null)) = .ok (r.answers.map fun a => a) :=
    mapM_map_eq_ok fun a ha => Answer.ofDocument_toDocument (h a ha) _
  rw [List.map_id'] at hanswers
  have hid : r.toDocument.required "id" = .ok r.id :=
    Document.required_map Document.lookup_str_cons
  have hknown : Validity.ofDocument
      (r.toDocument.fieldD "known_validity_status" (.str "maybe")) = .ok r.known := by
    simp [toDocument, Document.record, Document.fieldD_map, Document.lookup_str_cons,
      Validity.ofDocument_name]
  have hcomputed : Validity.ofDocument
      (r.toDocument.fieldD "computed_validity_status" (.str "maybe")) = .ok r.computed := by
    simp [toDocument, Document.record, Document.fieldD_map, Document.lookup_str_cons,
      Validity.ofDocument_name]
  unfold Response.ofDocument
  refine bind_eq_ok.mpr ⟨_, rfl, bind_eq_ok.mpr ⟨_, hlisted, bind_eq_ok.mpr ⟨_, hanswers, ?_⟩⟩⟩
  refine bind_eq_ok.mpr ⟨_, hid, bind_eq_ok.mpr ⟨_, hknown, bind_eq_ok.mpr ⟨_, hcomputed, ?_⟩⟩⟩
  simp [toDocument, Document.record, Document.fieldD_map, Document.lookup_str_cons, pure,
    Except.pure]

/-! ### What was read holds first ones -/

theorem Selection.choice_of_ofDocument {q : Question} {d : Document} {sel : Selection}
    (hq : Document.Compare (q.choices.map (·.id))) (h : Selection.ofDocument q d = .ok sel) :
    q.choice? sel.choice.id = some sel.choice := by
  unfold Selection.ofDocument at h
  obtain ⟨id, -, h₁⟩ := bind_eq_ok.mp h
  split at h₁
  · cases h₁
  · rename_i choice hchoice
    cases h₁
    exact hq.find? hchoice

theorem Answer.firstNamed_of_ofDocument {response d : Document} {a : Answer} (hs : s.Compares)
    (h : Answer.ofDocument s response d = .ok a) : a.FirstNamed s := by
  unfold Answer.ofDocument at h
  obtain ⟨id, -, h₁⟩ := bind_eq_ok.mp h
  split at h₁
  · cases h₁
  · rename_i question hquestion
    obtain ⟨options, -, h₂⟩ := bind_eq_ok.mp h₁
    obtain ⟨selections, hselections, h₃⟩ := bind_eq_ok.mp h₂
    cases h₃
    have hmem : question ∈ s.questions := List.mem_of_find?_eq_some hquestion
    refine ⟨hs.questions.find? hquestion, fun c hc => ?_⟩
    obtain ⟨sel, hsel, rfl⟩ := List.mem_map.mp hc
    obtain ⟨option, -, hread⟩ := exists_of_mem_right (forall₂_of_mapM hselections) hsel
    exact Selection.choice_of_ofDocument (hs.choices question hmem) hread

theorem Response.firstNamed_of_ofDocument {d : Document} {r : Response} (hs : s.Compares)
    (h : Response.ofDocument s d = .ok r) : ∀ a ∈ r.answers, a.FirstNamed s := by
  unfold Response.ofDocument at h
  obtain ⟨_, -, h₁⟩ := bind_eq_ok.mp h
  obtain ⟨things, -, h₂⟩ := bind_eq_ok.mp h₁
  obtain ⟨answers, hanswers, h₃⟩ := bind_eq_ok.mp h₂
  obtain ⟨_, -, h₄⟩ := bind_eq_ok.mp h₃
  obtain ⟨_, -, h₅⟩ := bind_eq_ok.mp h₄
  obtain ⟨_, -, h₆⟩ := bind_eq_ok.mp h₅
  cases h₆
  intro a ha
  obtain ⟨thing, -, hread⟩ := exists_of_mem_right (forall₂_of_mapM hanswers) ha
  exact Answer.firstNamed_of_ofDocument hs hread

/-! ### Runs -/

namespace Traversal

/-- Whether the step answers, if it does, a question of the survey with choices of the question. -/
def Step.IsOwn (s : Survey) : Step → Prop
  | .answer q choices => q ∈ s.questions ∧ choices ⊆ q.choices
  | _ => True

theorem take_answers (t : Traversal) : t.take.2.answers = t.answers := by
  unfold take
  split <;> rfl

theorem refill_answers (t : Traversal) (bs : List Block) :
    (t.refill bs).2.answers = t.answers := by
  induction bs with
  | nil => rfl
  | cons b bs ih =>
    unfold refill
    split
    · split <;> rfl
    · exact ih

/-- Asking for the next question answers none, also if it fails. -/
theorem next_answers (t : Traversal) : t.next.2.answers = t.answers := by
  have hrefill := t.refill_answers t.blocks
  unfold next
  split
  · rfl
  · split
    · split
      · rename_i hfault
        rwa [hfault] at hrefill
      · rename_i hopen
        rw [hopen] at hrefill
        rw [take_answers, hrefill]
    · exact t.take_answers

theorem belongsTo_after {t : Traversal} {step : Step} (hstep : step.IsOwn s) {id : Document}
    (h : (t.response id).BelongsTo s) : ((t.after step).response id).BelongsTo s := by
  cases step with
  | draw gen => exact h
  | next =>
    intro a ha
    have hold : a ∈ t.answers := by
      rw [← t.next_answers]
      exact ha
    exact h a hold
  | answer q choices =>
    simp only [after]
    split
    · rename_i u hanswer
      obtain ⟨_, selections, -, -, hselect, rfl⟩ := answer_eq_ok hanswer
      have hchosen : selections.map (·.choice) = choices := choices_of_select hselect
      intro a ha
      rcases List.mem_append.mp ha with hold | hnew
      · exact h a hold
      · obtain rfl := List.mem_singleton.mp hnew
        refine ⟨hstep.1, fun c hc => hstep.2 ?_⟩
        rw [← hchosen]
        exact hc
    · exact h

theorem belongsTo_run {t : Traversal} {id : Document} (h : (t.response id).BelongsTo s) :
    ∀ {steps : List Step}, (∀ step ∈ steps, step.IsOwn s) →
      ((t.run steps).response id).BelongsTo s := by
  intro steps
  induction steps generalizing t with
  | nil =>
    intro _
    exact h
  | cons step steps ih =>
    intro hsteps
    have hafter := belongsTo_after (hsteps step List.mem_cons_self) h
    exact ih hafter fun later hlater => hsteps later (List.mem_cons_of_mem step hlater)

/-- What a run records belongs to the survey. -/
theorem belongsTo_of_start {g g' : Gen} {first : Traversal}
    (hstart : start s g = .ok (first, g')) (id : Document) {steps : List Step}
    (hsteps : ∀ step ∈ steps, step.IsOwn s) : ((first.run steps).response id).BelongsTo s := by
  refine belongsTo_run ?_ hsteps
  obtain ⟨_, _, _, _, -, -, -, rfl⟩ := start_eq_ok hstart
  intro a ha
  simp [response] at ha

end Traversal

/-! ### Responses are read back -/

/-- **A response is read back from what is written of it**, with all its answers and marks. If the
ids of the survey are told apart, that is so for each response to the survey, and for what any run
records, finished or not; for a response that was read against the survey it is so in any case. Ids
that are texts always compare, and they are told apart if none of them comes twice. -/
theorem Response.rereads (s : Survey) :
    (s.TellsApart →
      (∀ r : Response, r.BelongsTo s → Response.ofDocument s r.toDocument = .ok r) ∧
      ∀ g first g', Traversal.start s g = .ok (first, g') →
        ∀ steps : List Traversal.Step, (∀ step ∈ steps, step.IsOwn s) →
          ∀ id, Response.ofDocument s ((first.run steps).response id).toDocument =
            .ok ((first.run steps).response id)) ∧
    (s.Compares → ∀ d r, Response.ofDocument s d = .ok r →
      Response.ofDocument s r.toDocument = .ok r) ∧
    (s.HasTextIds → s.Compares ∧ ((s.questions.map (·.id)).Nodup →
      (∀ q ∈ s.questions, (q.choices.map (·.id)).Nodup) → s.TellsApart)) := by
  refine ⟨?_, ?_, fun htexts => ⟨htexts.compares, htexts.tellsApart⟩⟩
  · intro hs
    have hown : ∀ r : Response, r.BelongsTo s → Response.ofDocument s r.toDocument = .ok r :=
      fun r hr => ofDocument_toDocument (hr.firstNamed hs)
    refine ⟨hown, fun g first g' hstart steps hsteps id => ?_⟩
    exact hown _ (Traversal.belongsTo_of_start hstart id hsteps)
  · intro hs d r hread
    exact ofDocument_toDocument (firstNamed_of_ofDocument hs hread)

/-- Both questions of a fork are asked for and the first one is answered. -/
def forkHalfway : List Traversal.Step :=
  [.next, .answer Survey.forkFirst [plainChoice "short"], .next]

/-- A response to one of two questions with the same id, by one of two choices with the same id. -/
def twinsAnswered : Document := .record [
  ("id", .str "r"),
  ("responses", .list [.record [("question", .str "q1"),
    ("options", .list [.record [("id", .str "a"), ("index", .int 1)]])]]),
  ("known_validity_status", .str "no")]

/-- The answer that is read: the first of both choices to the first of both questions. -/
def twinsAnswer : Answer where
  question := plainQuestion 0 "1" [plainChoice "a", { id := .str "a", text := .str "b" }]
    [(plainChoice "a", ⟨0, 1⟩)]
  selections := [⟨plainChoice "a", .int 1⟩]

/-- The response that is read. -/
def twinsResponse : Response := { id := .str "r", answers := [twinsAnswer], known := .no }

theorem ofDocument_twinsAnswered : Response.ofDocument twins twinsAnswered = .ok twinsResponse := by
  unfold Response.ofDocument
  refine bind_eq_ok.mpr ⟨_, rfl, bind_eq_ok.mpr ⟨_, by cbv, bind_eq_ok.mpr ⟨[twinsAnswer], by cbv,
    bind_eq_ok.mpr ⟨.str "r", by cbv, bind_eq_ok.mpr ⟨.no, by cbv,
      bind_eq_ok.mpr ⟨.maybe, by cbv, ?_⟩⟩⟩⟩⟩⟩
  simp [twinsAnswered, twinsResponse, Document.record, Document.fieldD_map,
    Document.lookup, Document.str_beq_iff, pure, Except.pure]

theorem Survey.tellsApart_fork : (Survey.fork Survey.more).TellsApart := by
  have htexts : (Survey.fork Survey.more).HasTextIds := ⟨by decide, by decide⟩
  refine htexts.tellsApart ?_ ?_
  · simp [Survey.questions_fork, Survey.forkFirst, Survey.more, Survey.forkLast, plainQuestion]
  · rw [Survey.questions_fork]
    intro q hq
    fin_cases hq <;>
      simp [Survey.forkFirst, Survey.more, Survey.forkLast, plainQuestion, plainChoice]

theorem rereads_fork_twins :
    (Survey.fork Survey.more).TellsApart ∧
    Traversal.start (Survey.fork Survey.more) ⟨0⟩ =
      .ok (Traversal.forkOpen Survey.more, ⟨4354685564936845354⟩) ∧
    (∀ step ∈ forkHalfway, step.IsOwn (Survey.fork Survey.more)) ∧
    ((Traversal.forkOpen Survey.more).run forkHalfway).answers =
      [⟨Survey.forkFirst, [⟨plainChoice "short", .int 1⟩], .int 0⟩] ∧
    Response.ofDocument (Survey.fork Survey.more)
      (((Traversal.forkOpen Survey.more).run forkHalfway).response (.str "r")).toDocument =
        .ok (((Traversal.forkOpen Survey.more).run forkHalfway).response (.str "r")) ∧
    twins.Compares ∧ Response.ofDocument twins twinsAnswered = .ok twinsResponse ∧
    Response.ofDocument twins twinsResponse.toDocument = .ok twinsResponse := by
  have hstart := Traversal.start_fork Survey.fork_valid
  have hown : ∀ step ∈ forkHalfway, step.IsOwn (Survey.fork Survey.more) := by
    simp [forkHalfway, Traversal.Step.IsOwn, Survey.questions_fork, Survey.forkFirst, plainQuestion]
  have htwins : twins.Compares := Survey.HasTextIds.compares ⟨by decide, by decide⟩
  exact ⟨Survey.tellsApart_fork, hstart, hown, by cbv,
    ((Response.rereads _).1 Survey.tellsApart_fork).2 _ _ _ hstart _ hown _, htwins, ofDocument_twinsAnswered,
    (Response.rereads twins).2.1 htwins _ _ ofDocument_twinsAnswered⟩

end Questionnaire
