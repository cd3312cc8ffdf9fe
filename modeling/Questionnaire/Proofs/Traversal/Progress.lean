/-
# A traversal goes on to its end

A traversal of a valid survey starts if the ids of the blocks have an order. As
long as it is not finished there is a next question: a pending destination is
still to come, and every block has something to show. No question is shown
twice, so it is finished when as many questions were shown as the survey has.

An answer with what was shown is recorded. The one obstacle is a choice of the
question that cannot be looked up: then no answer to it is.

Key theorems: `Traversal.start_succeeds_iff`, `Traversal.keeps_going`.
-/
import Questionnaire.Proofs.Survey.Leaves
import Questionnaire.Proofs.Traversal.Routing

namespace Questionnaire

/-- A block with contents has a question somewhere. -/
theorem Block.Filled.allQuestions_ne_nil {b : Block} (h : b.Filled) : b.allQuestions ≠ [] := by
  obtain ⟨⟨qs, g⟩, hexpand⟩ := b.expand_succeeds h default
  have hshows := b.shows_of_expand hexpand
  intro hnil
  exact hshows.ne_nil h (List.subperm_nil.mp (hnil ▸ hshows.subperm))

namespace Traversal

variable {s : Survey} {t : Traversal} {order : List Block} {c : Course}

/-- A traversal of a valid survey starts exactly if its blocks can be put in order. -/
theorem start_succeeds_iff (hv : s.Valid) (g : Gen) :
    (∃ result, start s g = .ok result) ↔ ∃ sorted, sortBlocks s.blocks = .ok sorted := by
  constructor
  · rintro ⟨⟨t, g'⟩, h⟩
    obtain ⟨first, rest, g₁, questions, -, harrange, -, -⟩ := start_eq_ok h
    obtain ⟨sorted, hsorted, -, -⟩ := Survey.arrangeBlocks_eq_ok harrange
    exact ⟨sorted, hsorted⟩
  · rintro ⟨sorted, hsorted⟩
    obtain ⟨⟨blocks, g₁⟩, harrange⟩ := Survey.arrangeBlocks_succeeds hv.blocks_ne_nil hsorted g
    have hperm := (Survey.arranged_of_arrangeBlocks harrange).perm
    cases blocks with
    | nil => exact absurd hperm.symm.eq_nil hv.blocks_ne_nil
    | cons first rest =>
      have hfilled := hv.filled (hperm.mem_iff.mp List.mem_cons_self)
      obtain ⟨⟨questions, g₂⟩, hexpand⟩ := first.expand_succeeds hfilled g₁
      unfold start
      rw [s.check_eq_ok_iff.mpr hv]
      simp only [bind, Except.bind, harrange, hexpand]
      exact ⟨_, rfl⟩

/-- There is a next question as long as something is left. -/
theorem Sound.next_succeeds (h : t.Sound s order c) (hv : s.Valid) (hnot : t.finished = false) :
    ∃ shown t', t.next = (.ok shown, t') := by
  apply Traversal.next_succeeds
  by_cases hq : t.questions = []
  · right
    have hblocks : t.blocks ≠ [] := by
      intro hnil
      simp [finished, hq, hnil] at hnot
    have hfilled : ∀ b ∈ t.blocks, b.Filled := fun b hb => hv.filled (h.mem_of_blocks hb)
    have hstop : ∃ b ∈ t.blocks, t.stopsAt b = true := by
      cases hpending : t.pending with
      | none =>
        obtain ⟨b, hb⟩ := List.exists_mem_of_ne_nil _ hblocks
        exact ⟨b, hb, by simp [stopsAt, hpending]⟩
      | some key =>
        obtain ⟨b, hb, rfl, -⟩ := h.ahead key hpending
        exact ⟨b, hb, by simp [stopsAt, hpending]⟩
    obtain ⟨u, hrefill⟩ := refill_succeeds t hfilled hstop
    refine ⟨hblocks, u, hrefill, ?_⟩
    obtain ⟨passed, b, rest, questions, gen, hsplit, -, -, hexpand, rfl⟩ := refill_eq_ok hrefill
    exact (b.shows_of_expand hexpand).ne_nil (hfilled b (hsplit ▸ by simp))
  · exact .inl hq

/-- A question that was shown can be answered once, provided its choices can be looked up. -/
theorem Sound.answer_succeeds_iff (h : t.Sound s order c) (hs : s.Coherent) {shown : Shown}
    (hshown : shown ∈ t.shown) (hnew : ∀ a ∈ t.answers, a.question.key ≠ shown.question.key)
    {choices : List Choice}
    (hown : ∀ c ∈ choices, ∃ o ∈ shown.question.choices, (o == c) = true) :
    (∃ t', t.answer shown.question choices = .ok t') ↔
      ∀ o ∈ shown.question.choices, o.isKey = true := by
  have hsome : (t.shown.find? (·.question.key == shown.question.key)).isSome = true :=
    List.find?_isSome.mpr ⟨shown, hshown, beq_self_eq_true _⟩
  obtain ⟨first, hfirst⟩ := Option.isSome_iff_exists.mp hsome
  have hmem := List.mem_of_find?_eq_some hfirst
  have hkey : first.question.key = shown.question.key := by simpa using List.find?_some hfirst
  have hquestion : first.question = shown.question :=
    h.question_unique hs hmem (h.mem_of_shown hshown) hkey
  have hperm := h.own first hmem
  rw [hquestion] at hperm
  rw [Traversal.answer_succeeds_iff hfirst hnew]
  · constructor
    · intro hall o ho
      obtain ⟨selection, hselection, rfl⟩ := List.mem_map.mp (hperm.mem_iff.mpr ho)
      exact hall selection hselection
    · intro hall selection hselection
      exact hall _ (hperm.mem_iff.mp (List.mem_map_of_mem hselection))
  · intro choice hchoice
    obtain ⟨o, ho, hsame⟩ := hown choice hchoice
    obtain ⟨selection, hselection, rfl⟩ := List.mem_map.mp (hperm.mem_iff.mpr ho)
    exact ⟨selection, hselection, hsame⟩

/-- No more questions are shown than the survey has; then nothing is left. -/
theorem Sound.shown_length_le (h : t.Sound s order c) (hv : s.Valid) :
    t.shown.length ≤ s.questions.length ∧
      (t.shown.length = s.questions.length → t.finished = true) := by
  have htotal : s.questions.length = (questionsUnder order).length := by
    rw [Survey.questions_eq, questionsUnder_eq_flatMap, questionsUnder_eq_flatMap]
    exact (h.arranged.perm.flatMap_right _).length_eq.symm
  have hlength := h.subperm.length_le
  simp only [List.length_append, List.length_map] at hlength
  refine ⟨by omega, fun hall => ?_⟩
  have hq : t.questions = [] := List.eq_nil_of_length_eq_zero (by omega)
  have hunder : questionsUnder t.blocks = [] := List.eq_nil_of_length_eq_zero (by omega)
  have hblocks : t.blocks = [] := by
    refine List.eq_nil_iff_forall_not_mem.mpr fun b hb => ?_
    rw [questionsUnder_eq_flatMap, List.flatMap_eq_nil_iff] at hunder
    exact (hv.filled (h.mem_of_blocks hb)).allQuestions_ne_nil (hunder b hb)
  simp [finished, hq, hblocks]

/-- **A traversal of a valid survey never gets stuck.** Until it is finished there is a next
question, and it is shown; a question that was shown can be answered once with its own choices,
unless one of them cannot be looked up; a pending destination is still to come; and no more
questions are shown than the survey has. -/
theorem keeps_going {origin : Nat} {d : Document} (hread : Survey.ofDocument origin d = .ok s)
    (hv : s.Valid) (h : Prompt s t) :
    (t.finished = false →
      ∃ shown t', t.next = (.ok shown, t') ∧ t'.shown = t.shown ++ [shown]) ∧
    (∀ shown ∈ t.shown, (∀ a ∈ t.answers, a.question.key ≠ shown.question.key) →
      ∀ choices : List Choice, (∀ c ∈ choices, ∃ o ∈ shown.question.choices, (o == c) = true) →
        ((∃ t', t.answer shown.question choices = .ok t') ↔
          ∀ o ∈ shown.question.choices, o.isKey = true)) ∧
    (∀ key, t.pending = some key → ∃ b ∈ t.blocks, b.key = key) ∧
    t.shown.length ≤ s.questions.length ∧
    (t.shown.length = s.questions.length → t.finished = true) := by
  have hs := Survey.coherent_of_ofDocument hread
  obtain ⟨order, c, -, hsound, -⟩ := h.invariant hs hv
  refine ⟨fun hnot => ?_, ?_, ?_, hsound.shown_length_le hv⟩
  · obtain ⟨shown, t', hnext⟩ := hsound.next_succeeds hv hnot
    exact ⟨shown, t', hnext, shown_of_next hnext⟩
  · intro shown hshown hnew choices hown
    exact hsound.answer_succeeds_iff hs hshown hnew hown
  · intro key hkey
    obtain ⟨b, hb, hdest, -⟩ := hsound.ahead key hkey
    exact ⟨b, hb, hdest⟩

theorem keeps_going_fork : Survey.ofDocument 0 (forkDocument Survey.moreFields) =
      .ok (Survey.fork Survey.more) ∧ (Survey.fork Survey.more).Valid ∧
    Prompt (Survey.fork Survey.more) (forkOpen Survey.more) ∧
    (forkOpen Survey.more).finished = false ∧
    ∃ shown t', (forkOpen Survey.more).next = (.ok shown, t') ∧ t'.shown = [shown] := by
  have hprompt := prompt_forkOpen Survey.fork_valid
  have hgoing := keeps_going Survey.ofDocument_fork Survey.fork_valid hprompt
  exact ⟨Survey.ofDocument_fork, Survey.fork_valid, hprompt, by cbv, hgoing.1 (by cbv)⟩

/-! ### A choice that cannot be looked up -/

/-- A document with a choice whose text is a list. -/
def listTextDocument : Document := .record [
  ("name", .str "list"),
  ("blocks", .list [blockEntry "1" [("options", .list [
    .record [("id", .str "a"), ("text", .list [.str "yes"])]])]])]

/-- The choice whose text is a list. -/
def listTextChoice : Choice := { id := .str "a", text := .list [.str "yes"] }

/-- The question with this choice alone. -/
def listTextQuestion : Question := plainQuestion 0 "1" [listTextChoice] []

/-- The survey of that document. -/
def listTextSurvey : Survey where
  name := .str "list"
  blocks := [plainBlock 0 "1" listTextQuestion]

/-- The traversal of the survey with its question open. -/
def listTextOpen : Traversal where
  survey := listTextSurvey
  gen := ⟨0⟩
  blocks := []
  questions := [listTextQuestion]
  pending := none
  shown := []
  answers := []
  visited := [plainBlock 0 "1" listTextQuestion]

/-- The question as it is shown. -/
def listTextShown : Shown := ⟨listTextQuestion, [⟨listTextChoice, .int 0⟩], 0⟩

/-- The only choice of the only question of a valid survey is refused as an answer. -/
theorem listText_refused : Survey.ofDocument 0 listTextDocument = .ok listTextSurvey ∧
    listTextSurvey.Valid ∧ ∃ t shown, Prompt listTextSurvey t ∧ shown ∈ t.shown ∧ t.answers = [] ∧
      listTextChoice ∈ shown.question.choices ∧ (listTextChoice == listTextChoice) = true ∧
        t.answer shown.question [listTextChoice] = .error .illTyped := by
  have hread : Survey.ofDocument 0 listTextDocument = .ok listTextSurvey := by
    unfold Survey.ofDocument
    rw [@readBlocks_leaves 0 listTextDocument [_] (by cbv) (by cbv)]
    cbv
  have hstart : start listTextSurvey ⟨0⟩ = .ok (listTextOpen, ⟨0⟩) := by cbv
  have hnext : listTextOpen.next =
      (.ok listTextShown, { listTextOpen with questions := [], shown := [listTextShown] }) := by cbv
  refine ⟨hread, by decide, _, listTextShown, .next (.start hstart) hnext, ?_, rfl, ?_, by cbv, by cbv⟩
  · exact List.mem_singleton_self _
  · exact List.mem_singleton_self _

end Traversal

end Questionnaire
