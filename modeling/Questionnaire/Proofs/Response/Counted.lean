/-
# Answers that do not count

Without the answers to questions that do not count, responses have the same
frequencies, rare answers, points and paths, stop at the same places, and show
the same biases. Some of these read the answers that count, and some look for the
answers to questions of the survey that count: such an answer counts if it was
given to that very question.

Key definitions: `Response.countedOnly`, `Response.Matches`.
Key theorems: `Response.answerTo?_countedOnly`,
`runFrom_classifyRareAnswers_countedOnly`, `statistics_countedOnly`.
-/
import Questionnaire.Bias.Breakoff
import Questionnaire.Bias.Order
import Questionnaire.Bias.Wording
import Questionnaire.Proofs.Classify.Unmarked
import Questionnaire.Proofs.Path.Filing
import Questionnaire.Proofs.Response.Rereading

namespace Questionnaire

/-! ### Responses without what does not count -/

/-- The response without its answers that do not count. -/
def Response.countedOnly (r : Response) : Response := { r with answers := r.counted }

/-- The batch without answers that do not count. -/
def Batch.countedOnly (b : Batch) : Batch := { b with responses := b.responses.map (·.countedOnly) }

/-- An answer that has the key of a question of the survey counts if that question does, as an
answer to this very question has to. -/
def Response.Matches (r : Response) (s : Survey) : Prop :=
  ∀ a ∈ r.answers, ∀ q ∈ s.questions, a.question.key = q.key → a.question.isCustom = q.isCustom

namespace Response

variable {s : Survey} {r : Response} {q : Question}

/-- No two questions of a coherent survey share a key, so a response to them matches it. -/
theorem BelongsTo.matches (h : r.BelongsTo s) (hs : s.Coherent) : r.Matches s := by
  intro a ha q hq hkey
  rw [List.inj_on_of_nodup_map hs.questions (h a ha).1 hq hkey]

@[simp] theorem counted_countedOnly (r : Response) : r.countedOnly.counted = r.counted :=
  List.filter_filter.trans (by simp [counted])

theorem answerTo?_countedOnly (h : r.Matches s) (hq : q ∈ s.questions) (hcustom : q.isCustom = false) :
    r.countedOnly.answerTo? q = r.answerTo? q := by
  unfold answerTo? countedOnly counted
  rw [List.find?_filter]
  refine List.find?_congr fun a ha => ?_
  cases hkey : a.question.key == q.key with
  | false => simp
  | true => simp [h a ha q hq (eq_of_beq hkey), hcustom]

theorem firstChoice?_countedOnly (h : r.Matches s) (hq : q ∈ s.questions)
    (hcustom : q.isCustom = false) : r.countedOnly.firstChoice? q = r.firstChoice? q := by
  unfold firstChoice?
  rw [answerTo?_countedOnly h hq hcustom]

theorem coordinate_countedOnly (h : r.Matches s) (hq : q ∈ s.questions)
    (hcustom : q.isCustom = false) : r.countedOnly.coordinate q = r.coordinate q := by
  unfold coordinate
  rw [firstChoice?_countedOnly h hq hcustom]

theorem point_countedOnly (h : r.Matches s) : r.countedOnly.point s = r.point s := by
  refine mapM_congr fun q hq => ?_
  obtain ⟨hmem, hcounts⟩ := List.mem_filter.mp hq
  exact coordinate_countedOnly h hmem (by simpa using hcounts)

end Response

/-! ### Frequencies and rare answers -/

section Rare

variable (s : Survey) (smoothing : Bool)

theorem Frequencies.gather_countedOnly (responses : List Response) :
    gather s smoothing (responses.map (·.countedOnly)) = gather s smoothing responses := by
  unfold gather ofResponses
  rw [countedAnswers_map Response.counted_countedOnly]

theorem Session.gathered_countedOnly (responses : List Response) :
    gathered s smoothing (responses.map (·.countedOnly)) = gathered s smoothing responses :=
  gathered_map Response.counted_countedOnly s smoothing responses

variable (epsilon delta : Document)

theorem RareChoices.mark_countedOnly (rare : RareChoices) (threshold : Number) (r : Response) :
    rare.mark threshold r.countedOnly = (rare.mark threshold r).countedOnly := by
  have hcount : rare.rareAnswers r.countedOnly = rare.rareAnswers r :=
    congrArg (List.countP rare.isRare) r.counted_countedOnly
  unfold mark
  rw [hcount]
  rfl

theorem markRareAnswers_countedOnly (fs : Frequencies) (responses : List Response) :
    markRareAnswers s fs epsilon delta (responses.map (·.countedOnly)) =
      (markRareAnswers s fs epsilon delta responses).map (·.map (·.countedOnly)) := by
  unfold markRareAnswers
  cases rareChoices s fs epsilon with
  | error fault => rfl
  | ok rare =>
    cases delta.number with
    | error fault => rfl
    | ok delta =>
      change (rare.threshold delta >>= fun threshold => .ok _) =
        (rare.threshold delta >>= fun threshold => .ok _).map _
      cases rare.threshold delta with
      | error fault => rfl
      | ok threshold =>
        refine congrArg Except.ok ?_
        simp only [List.map_map, Function.comp_def, RareChoices.mark_countedOnly]

theorem runFrom_gatherNoted (b : Batch) (pool : List Response) :
    runFrom b (gatherNoted s smoothing pool) =
      runFrom b (Batch.inSession (Session.gathered s smoothing pool)) := by
  unfold gatherNoted Session.gathered
  cases Frequencies.gather s smoothing pool with
  | error fault => rfl
  | ok fs =>
    rw [runFrom_inSession]
    simp only [runFrom_bind, runFrom_batchLift, runFrom_sessionLift, runFrom_inSession]
    rcases runFrom b.session ((Frequencies.gatherNotes pool fs).forM fun n =>
      Session.note n.level n.text) with ⟨_ | _, _⟩ <;> rfl

/-- Rare answers are marked the same, fault or not, if those that do not count are left out. -/
theorem runFrom_classifyRareAnswers_countedOnly (b : Batch) :
    runFrom b.countedOnly (classifyRareAnswers s smoothing epsilon delta) =
      ((runFrom b (classifyRareAnswers s smoothing epsilon delta)).1,
        (runFrom b (classifyRareAnswers s smoothing epsilon delta)).2.countedOnly) := by
  have hsession : b.countedOnly.session = b.session := rfl
  have hresponses : b.countedOnly.responses = b.responses.map (·.countedOnly) := rfl
  unfold classifyRareAnswers
  simp only [runFrom_bind, runFrom_get, runFrom_gatherNoted, runFrom_inSession, hsession,
    hresponses, Session.gathered_countedOnly]
  rcases runFrom b.session (Session.gathered s smoothing b.responses) with ⟨fault | fs, t⟩
  · rfl
  · simp only [runFrom_batchLift, markRareAnswers_countedOnly]
    cases markRareAnswers s fs epsilon delta b.responses <;> rfl

end Rare

/-! ### Paths -/

section Paths

variable (s : Survey)

theorem pathOf_countedOnly (r : Response) : s.pathOf r.countedOnly = s.pathOf r := by
  unfold Survey.pathOf
  rw [r.counted_countedOnly]

/-- Groups without answers that do not count. -/
def groupsCounted (groups : List (Path × List Response)) : List (Path × List Response) :=
  groups.map fun (p, rs) => (p, rs.map (·.countedOnly))

theorem addToGroup_countedOnly (p : Path) (r : Response) (groups : List (Path × List Response)) :
    addToGroup p r.countedOnly (groupsCounted groups) = groupsCounted (addToGroup p r groups) := by
  unfold addToGroup groupsCounted
  rw [List.map_map, List.map_map]
  refine List.map_congr_left fun group _ => ?_
  simp only [Function.comp_apply]
  split
  · simp
  · rfl

theorem groupByPath_countedOnly (paths : List Path) (responses : List Response) :
    groupByPath s paths (responses.map (·.countedOnly)) =
      (groupByPath s paths responses).map groupsCounted := by
  have hempty : groupsCounted (paths.map (·, [])) = paths.map (·, []) := by
    unfold groupsCounted
    rw [List.map_map]
    rfl
  unfold groupByPath
  nth_rewrite 1 [← hempty]
  refine foldlM_map_of_step _ fun groups r _ => ?_
  rw [pathOf_countedOnly]
  cases s.pathOf r with
  | error fault => rfl
  | ok traversed =>
    simp only [bind, Except.bind]
    split
    · rfl
    · cases matchPath paths traversed with
      | error fault => rfl
      | ok p => exact congrArg Except.ok (addToGroup_countedOnly p r groups)

theorem groupNotes_countedOnly (paths : List Path) : ∀ responses : List Response,
    groupNotes s paths (responses.map (·.countedOnly)) = groupNotes s paths responses
  | [] => rfl
  | r :: rs => by
    rw [List.map_cons, groupNotes, groupNotes, groupNotes_countedOnly paths rs,
      pathOf_countedOnly]
    rfl

end Paths

/-! ### Breakoff -/

theorem breakoffByPosition_countedOnly (responses : List Response) :
    breakoffByPosition (responses.map (·.countedOnly)) = breakoffByPosition responses := by
  unfold breakoffByPosition
  simp only [List.map_map, Function.comp_def, Response.counted_countedOnly]

theorem lastQuestion?_countedOnly (r : Response) : lastQuestion? r.countedOnly = lastQuestion? r := by
  unfold lastQuestion?
  rw [r.counted_countedOnly]
  rfl

theorem breakoffByQuestion_countedOnly (responses : List Response) :
    breakoffByQuestion (responses.map (·.countedOnly)) = breakoffByQuestion responses := by
  unfold breakoffByQuestion
  rw [List.mapM_map]
  simp only [Function.comp_def, lastQuestion?_countedOnly]

theorem breakoffNotes_countedOnly (responses : List Response) :
    breakoffNotes (responses.map (·.countedOnly)) = breakoffNotes responses := by
  unfold breakoffNotes
  rw [List.filter_map, List.map_map]
  simp only [Function.comp_def, Response.counted_countedOnly]
  rfl

/-! ### Biases -/

section Biases

variable {s : Survey} {q r : Question} {responses : List Response}

theorem Question.isCustom_of_isComparable (h : q.isComparable = true) : q.isCustom = false := by
  simp only [isComparable, Bool.and_eq_true, Bool.not_eq_true'] at h
  exact h.1.2

theorem mem_of_mem_laterPairs {α : Type} {x y : α} : ∀ {xs : List α}, (x, y) ∈ laterPairs xs →
    x ∈ xs ∧ y ∈ xs
  | z :: xs, h => by
    rcases List.mem_append.mp h with hfirst | hlater
    · obtain ⟨y', hy, heq⟩ := List.mem_map.mp hfirst
      cases heq
      exact ⟨List.mem_cons_self, List.mem_cons_of_mem _ hy⟩
    · obtain ⟨hx, hy⟩ := mem_of_mem_laterPairs hlater
      exact ⟨List.mem_cons_of_mem _ hx, List.mem_cons_of_mem _ hy⟩

/-- Wordings that are compared are questions of the survey that count. -/
theorem Survey.comparable_of_wordingPairs {b : Block} (h : (b, q, r) ∈ s.wordingPairs) :
    (q ∈ s.questions ∧ q.isCustom = false) ∧ (r ∈ s.questions ∧ r.isCustom = false) := by
  obtain ⟨b', hb, hpair⟩ := List.mem_flatMap.mp h
  obtain ⟨pair, hpair, heq⟩ := List.mem_map.mp hpair
  cases heq
  have hquestion : ∀ q ∈ b.questions.filter (·.isComparable),
      q ∈ s.questions ∧ q.isCustom = false := by
    intro q hq
    obtain ⟨hmem, hcomparable⟩ := List.mem_filter.mp hq
    exact ⟨List.mem_flatMap.mpr ⟨b, (List.mem_filter.mp hb).1, hmem⟩,
      Question.isCustom_of_isComparable hcomparable⟩
  obtain ⟨hq, hr⟩ := mem_of_mem_laterPairs hpair
  exact ⟨hquestion q hq, hquestion r hr⟩

theorem Survey.comparable_of_orderPairs (h : (q, r) ∈ s.orderPairs) :
    (q ∈ s.questions ∧ q.isCustom = false) ∧ (r ∈ s.questions ∧ r.isCustom = false) := by
  have hquestion : ∀ q ∈ s.comparableQuestions, q ∈ s.questions ∧ q.isCustom = false := by
    intro q hq
    obtain ⟨hmem, hcomparable⟩ := List.mem_filter.mp hq
    exact ⟨hmem, Question.isCustom_of_isComparable hcomparable⟩
  obtain ⟨q', hq, hpair⟩ := List.mem_flatMap.mp h
  obtain ⟨r', hr, heq⟩ := List.mem_map.mp hpair
  cases heq
  exact ⟨hquestion q hq, hquestion r (List.mem_filter.mp hr).1⟩

theorem answersTo_countedOnly (h : ∀ r ∈ responses, r.Matches s)
    (hq : q ∈ s.questions ∧ q.isCustom = false) :
    answersTo q (responses.map (·.countedOnly)) = answersTo q responses := by
  unfold answersTo
  rw [List.filterMap_map]
  exact List.filterMap_congr fun r hr => Response.firstChoice?_countedOnly (h r hr) hq.1 hq.2

theorem wordingBiases_countedOnly (h : ∀ r ∈ responses, r.Matches s) :
    wordingBiases s (responses.map (·.countedOnly)) = wordingBiases s responses := by
  refine mapM_congr fun ⟨b, q, r⟩ hpair => ?_
  obtain ⟨hq, hr⟩ := Survey.comparable_of_wordingPairs hpair
  dsimp only
  unfold compareWordings
  rw [answersTo_countedOnly h hq, answersTo_countedOnly h hr]

theorem orderSamples_countedOnly (h : ∀ r ∈ responses, r.Matches s)
    (hq : q ∈ s.questions ∧ q.isCustom = false) (hr : r ∈ s.questions ∧ r.isCustom = false) :
    orderSamples q r (responses.map (·.countedOnly)) = orderSamples q r responses := by
  unfold orderSamples
  rw [List.foldlM_map]
  refine foldlM_congr _ fun samples response hresponse => ?_
  unfold OrderSamples.addAnswer
  rw [Response.answerTo?_countedOnly (h response hresponse) hq.1 hq.2,
    Response.answerTo?_countedOnly (h response hresponse) hr.1 hr.2]

theorem orderBiases_countedOnly (h : ∀ r ∈ responses, r.Matches s) (c : Config) :
    orderBiases s c (responses.map (·.countedOnly)) = orderBiases s c responses := by
  unfold orderBiases
  refine congrArg (· >>= _) (mapM_congr fun pair hpair => ?_)
  obtain ⟨hq, hr⟩ := Survey.comparable_of_orderPairs hpair
  dsimp only
  unfold compareOrders
  rw [orderSamples_countedOnly h hq hr]

end Biases

/-! ### All statistics -/

/-- **Answers that do not count leave all statistics as they are.** Rare answers are marked alike,
whatever the session, and responses are put into the same groups. -/
theorem statistics_countedOnly {s : Survey} {responses : List Response}
    (h : ∀ r ∈ responses, r.Matches s) :
    (∀ smoothing, Frequencies.gather s smoothing (responses.map (·.countedOnly)) =
      Frequencies.gather s smoothing responses) ∧
    (∀ session smoothing epsilon delta,
      runFrom (Batch.countedOnly ⟨session, responses⟩)
          (classifyRareAnswers s smoothing epsilon delta) =
        ((runFrom ⟨session, responses⟩ (classifyRareAnswers s smoothing epsilon delta)).1,
          (runFrom ⟨session, responses⟩
            (classifyRareAnswers s smoothing epsilon delta)).2.countedOnly)) ∧
    (∀ r ∈ responses, r.countedOnly.point s = r.point s ∧ s.pathOf r.countedOnly = s.pathOf r) ∧
    (∀ paths, groupByPath s paths (responses.map (·.countedOnly)) =
        (groupByPath s paths responses).map groupsCounted ∧
      groupNotes s paths (responses.map (·.countedOnly)) = groupNotes s paths responses) ∧
    breakoffByPosition (responses.map (·.countedOnly)) = breakoffByPosition responses ∧
    breakoffNotes (responses.map (·.countedOnly)) = breakoffNotes responses ∧
    breakoffByQuestion (responses.map (·.countedOnly)) = breakoffByQuestion responses ∧
    wordingBiases s (responses.map (·.countedOnly)) = wordingBiases s responses ∧
    ∀ c, orderBiases s c (responses.map (·.countedOnly)) = orderBiases s c responses := by
  refine ⟨?frequencies, ?rare, ?each, ?groups, breakoffByPosition_countedOnly responses,
    breakoffNotes_countedOnly responses, breakoffByQuestion_countedOnly responses,
    wordingBiases_countedOnly h, orderBiases_countedOnly h⟩
  case frequencies =>
    intro smoothing
    exact Frequencies.gather_countedOnly s smoothing responses
  case rare =>
    intro session smoothing epsilon delta
    exact runFrom_classifyRareAnswers_countedOnly s smoothing epsilon delta ⟨session, responses⟩
  case each =>
    intro r hr
    exact ⟨Response.point_countedOnly (h r hr), pathOf_countedOnly s r⟩
  case groups =>
    intro paths
    exact ⟨groupByPath_countedOnly s paths responses, groupNotes_countedOnly s paths responses⟩

/-- The response of someone who went through the fork with a question that does not count. -/
def customAnswered : Response := (Traversal.forkLong true).response (.str "sr0")

theorem statistics_countedOnly_fork :
    (∀ r ∈ [customAnswered], r.Matches (Survey.fork (Traversal.forkMiddle true))) ∧
    customAnswered.answers.length = 3 ∧ customAnswered.countedOnly.answers.length = 2 ∧
    customAnswered.countedOnly.point (Survey.fork (Traversal.forkMiddle true)) =
      customAnswered.point (Survey.fork (Traversal.forkMiddle true)) ∧
    orderBiases (Survey.fork (Traversal.forkMiddle true)) {} [customAnswered.countedOnly] =
      orderBiases (Survey.fork (Traversal.forkMiddle true)) {} [customAnswered] := by
  have hmatches : ∀ r ∈ [customAnswered],
      r.Matches (Survey.fork (Traversal.forkMiddle true)) := by
    unfold Response.Matches
    decide
  obtain ⟨-, -, heach, -, -, -, -, -, horders⟩ := statistics_countedOnly hmatches
  exact ⟨hmatches, rfl, rfl, (heach customAnswered (List.mem_singleton_self _)).1, horders {}⟩

end Questionnaire
