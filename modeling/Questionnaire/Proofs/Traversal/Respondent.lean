/-
# Respondents with a habit

A respondent with a habit selects some of the choices that are shown, if there
are any: a valid survey offers no choices with a question for a text. So such a
respondent answers every question when it is shown, and goes on to the end
unless a choice cannot be looked up.

Key definition: `Traversal.Complete`.
Key theorems: `Habit.choose_subset`, `Habit.choose_ne_nil`,
`Traversal.Complete.finish`, `Habit.run_of_respond`, `Habit.run_succeeds`.
-/
import Questionnaire.Proofs.Drawing
import Questionnaire.Proofs.Path.Visited
import Questionnaire.Proofs.Traversal.Progress
import Questionnaire.Respondent

namespace Questionnaire

/-! ### What a habit selects -/

namespace Habit

variable {habit : Habit} {choices : List Choice} {shown : Shown}

/-- Either draw gives one of the places, and one that is not at an end if that is the habit and
there are such places. -/
theorem exists_pickOne (habit : Habit) (choices : List Choice) (g : Gen) :
    ∃ i : Nat, (habit.pickOne choices g).1 = (choices[i]?).toList ∧
      (choices ≠ [] → i < choices.length) ∧
      (habit = inner → 2 < choices.length → 0 < i ∧ i + 1 < choices.length) := by
  unfold pickOne
  by_cases hinner : habit = inner ∧ 2 < choices.length
  · rw [if_pos hinner]
    have hlt : g.word.1.toNat % (choices.length - 1 - 1) < choices.length - 1 - 1 :=
      Nat.mod_lt _ (by omega)
    refine ⟨_, rfl, fun _ => ?_, fun _ _ => ?_⟩
    all_goals
      simp only [Gen.between, Gen.below]
      omega
  · rw [if_neg hinner]
    exact ⟨_, rfl, fun hne => Nat.mod_lt _ (List.length_pos_iff.mpr hne),
      fun hhabit hlong => absurd ⟨hhabit, hlong⟩ hinner⟩

theorem pickSome_subset (g : Gen) : (pickSome choices g).1 ⊆ choices := by
  intro c hc
  unfold pickSome at hc
  dsimp only at hc
  split at hc
  · obtain ⟨⟨c', heads⟩, hpair, rfl⟩ := List.mem_map.mp hc
    exact (List.of_mem_zip (List.mem_filter.mp hpair).1).1
  · exact List.mem_of_getElem? (Option.mem_toList.mp hc)

theorem pickSome_ne_nil (h : choices ≠ []) (g : Gen) : (pickSome choices g).1 ≠ [] := by
  have hlength := Gen.length_times Gen.coin choices.length g
  unfold pickSome
  dsimp only
  split
  · -- some coin shows heads, and there is a choice at its place
    rename_i hheads
    obtain ⟨heads, hmem, rfl⟩ := List.any_eq_true.mp hheads
    obtain ⟨i, hi, hcoin⟩ := List.getElem_of_mem hmem
    have hplace : i < choices.length := by omega
    have hpair : (choices[i], true) ∈ choices.zip (Gen.times Gen.coin choices.length g).1 := by
      refine List.mem_iff_getElem.mpr ⟨i, by simp; omega, ?_⟩
      rw [List.getElem_zip, hcoin]
    exact List.ne_nil_of_mem (List.mem_map_of_mem (List.mem_filter.mpr ⟨hpair, rfl⟩))
  · have hlt : (Gen.below choices.length (Gen.times Gen.coin choices.length g).2).1 <
        choices.length := Nat.mod_lt _ (List.length_pos_iff.mpr h)
    simp [hlt]

/-- A habit selects of what is shown. -/
theorem choose_subset (habit : Habit) (shown : Shown) (g : Gen) :
    (habit.choose shown g).1 ⊆ shown.options.map (·.choice) := by
  unfold choose
  dsimp only
  split
  · exact List.nil_subset _
  · split
    · exact fun c hc => List.mem_of_head? (Option.mem_toList.mp hc)
    · exact fun c hc => List.mem_of_getLast? (Option.mem_toList.mp hc)
    · split
      · obtain ⟨i, hi, -, -⟩ := habit.exists_pickOne (shown.options.map (·.choice)) g
        rw [hi]
        exact fun c hc => List.mem_of_getElem? (Option.mem_toList.mp hc)
      · exact pickSome_subset g

/-- A habit selects something, unless nothing is shown or the answer is a text. -/
theorem choose_ne_nil (habit : Habit) (htext : shown.question.isFreetext = false)
    (hoptions : shown.options ≠ []) (g : Gen) : (habit.choose shown g).1 ≠ [] := by
  have hchoices : shown.options.map (·.choice) ≠ [] := by simpa using hoptions
  unfold choose
  dsimp only
  rw [if_neg (by simp [htext, hoptions])]
  split
  · simp [hoptions]
  · simp [hoptions]
  · split
    · obtain ⟨i, hi, hlt, -⟩ := habit.exists_pickOne (shown.options.map (·.choice)) g
      rw [hi, List.getElem?_eq_getElem (hlt hchoices)]
      exact List.cons_ne_nil _ _
    · exact pickSome_ne_nil hchoices g

end Habit

/-! ### Runs in which all is answered -/

/-- A question for a text has no choices. -/
theorem Survey.Valid.choices_of_freetext {s : Survey} (hv : s.Valid) {q : Question}
    (hq : q ∈ s.questions) (htext : q.isFreetext = true) : q.choices = [] := by
  obtain ⟨b, hb, hmem⟩ := List.mem_flatMap.mp hq
  have hfaults := hv.blockFaults_eq_nil hb
  simp only [blockFaults, List.append_eq_nil_iff] at hfaults
  have hquestion := List.flatMap_eq_nil_iff.mp hfaults.2 q hmem
  simp only [questionFaults, List.append_eq_nil_iff] at hquestion
  by_contra hne
  simp [htext, hne] at hquestion

/-- Every question that was shown was answered, with some of its choices if it has any. -/
structure Traversal.Complete (t : Traversal) : Prop where
  answered : ∀ shown ∈ t.shown, ∃ a ∈ t.answers, a.question = shown.question ∧
    (shown.question.choices ≠ [] → a.selections ≠ [])
  own : ∀ a ∈ t.answers, ∀ choice ∈ a.choices, choice ∈ a.question.choices

namespace Traversal

variable {s : Survey} {t t' u : Traversal} {habit : Habit}

theorem Complete.toAnswered (h : t.Complete) : t.Answered where
  selected := by
    intro shown hshown hchoices
    obtain ⟨a, ha, heq, hselected⟩ := h.answered shown hshown
    exact ⟨a, ha, heq, hselected hchoices⟩
  own := h.own

/-- The next question and the answer that a habit gives to it. -/
theorem Complete.step (h : t.Complete) (hv : s.Valid) {shown : Shown} {gen : Gen}
    (hnext : t.next = (.ok shown, u)) (hmem : shown.question ∈ s.questions)
    (hown : (shown.options.map (·.choice)).Perm shown.question.choices)
    (hanswer : ({ u with gen } : Traversal).answer shown.question
      (habit.choose shown u.gen).1 = .ok t') : t'.Complete := by
  have hshown := shown_of_next hnext
  have hanswers := answers_of_next hnext
  obtain ⟨_, selections, -, -, hselect, rfl⟩ := answer_eq_ok hanswer
  have hchosen := choices_of_select hselect
  constructor
  · intro shown' hshown'
    change shown' ∈ u.shown at hshown'
    rw [hshown, List.mem_append, List.mem_singleton] at hshown'
    rcases hshown' with hold | rfl
    · obtain ⟨a, ha, heq⟩ := h.answered shown' hold
      exact ⟨a, List.mem_append_left _ (hanswers ▸ ha), heq⟩
    · refine ⟨_, List.mem_append_right _ (List.mem_singleton_self _), rfl, fun hchoices hnil => ?_⟩
      have htext : shown'.question.isFreetext = false := by
        by_contra htext
        exact hchoices (hv.choices_of_freetext hmem (by simpa using htext))
      have hoptions : shown'.options ≠ [] := by
        intro hoptions
        rw [hoptions] at hown
        exact hchoices hown.nil_eq.symm
      refine habit.choose_ne_nil htext hoptions u.gen ?_
      rw [← hchosen]
      exact congrArg _ hnil
  · intro a ha choice hchoice
    rcases List.mem_append.mp ha with hold | hnew
    · exact h.own a (hanswers ▸ hold) choice hchoice
    · obtain rfl := List.mem_singleton.mp hnew
      have hsubset := habit.choose_subset shown u.gen
      rw [← hchosen] at hsubset
      exact hown.mem_iff.mp (hsubset hchoice)

/-- The answers of a habit, one question after another, leave none out. -/
theorem Complete.finish {t : Traversal} (h : t.Complete) (hs : s.Coherent) (hv : s.Valid)
    (hprompt : Prompt s t)
    (hfinish : t.finish (fun shown g => .ok (habit.choose shown g)) = (.ok (), t')) :
    t'.Complete := by
  rcases finish_eq_ok hfinish with ⟨-, rfl⟩ | ⟨shown, u, choices, gen, w, hnext, hchoose, hanswer,
    hrest⟩
  · exact h
  · obtain ⟨rfl, rfl⟩ := Prod.mk.inj (Except.ok.inj hchoose)
    have hu := hprompt.next hnext
    have hlast : u.shown.getLast? = some shown := by simp [shown_of_next hnext]
    obtain ⟨order, c, -, hsound, -⟩ := hu.invariant hs hv
    have hshown := List.mem_of_getLast? hlast
    have hmem := hsound.mem_of_shown hshown
    have hw := (hu.draw (habit.choose shown u.gen).2).answer hmem (fun _ => ⟨shown, hlast, rfl⟩)
      hanswer
    exact (h.step hv hnext hmem (hsound.own shown hshown) hanswer).finish hs hv hw hrest
termination_by t.left
decreasing_by exact step_left hnext hanswer

end Traversal

/-! ### Respondents get to the end -/

namespace Traversal

variable {s : Survey} {order : List Block} {c : Course} {habit : Habit}

/-- No question is shown twice. -/
theorem Sound.nodup_shown {t : Traversal} (h : t.Sound s order c) (hs : s.Coherent) :
    (t.shown.map (·.question.key)).Nodup := by
  have hquestions : ((questionsUnder order).map (·.key)).Nodup := by
    rw [questionsUnder_eq_flatMap]
    refine ((h.arranged.perm.flatMap_right _).map _).nodup_iff.mpr ?_
    rw [← questionsUnder_eq_flatMap]
    exact hs.questions
  obtain ⟨qs, hperm, hsublist⟩ := h.subperm
  have hall := (hperm.map (·.key)).nodup_iff.mp ((hsublist.map _).nodup hquestions)
  rw [List.append_assoc, List.map_append, List.map_map] at hall
  exact (List.nodup_append.mp hall).1

/-- A question that was just shown can be answered with what was shown, if its choices can be
looked up. -/
theorem Sound.answer_latest {t : Traversal} (h : t.Sound s order c) (hs : s.Coherent)
    {earlier : List Shown} {shown : Shown} (hshown : t.shown = earlier ++ [shown])
    (hanswers : ∀ a ∈ t.answers, ∃ shown' ∈ earlier, shown'.question = a.question)
    (hkeys : ∀ choice ∈ shown.question.choices, choice.isKey = true) {choices : List Choice}
    (hchoices : choices ⊆ shown.options.map (·.choice)) :
    ∃ t', t.answer shown.question choices = .ok t' := by
  have hmem : shown ∈ t.shown := hshown ▸ List.mem_append_right _ (List.mem_singleton_self _)
  have hnew : ∀ a ∈ t.answers, a.question.key ≠ shown.question.key := by
    intro a ha hkey
    obtain ⟨shown', hshown', heq⟩ := hanswers a ha
    have hnodup := h.nodup_shown hs
    rw [hshown, List.map_append, List.nodup_append] at hnodup
    refine hnodup.2.2 _ (List.mem_map_of_mem hshown') _ (List.mem_singleton_self _) ?_
    rw [heq]
    exact hkey
  refine (h.answer_succeeds_iff hs hmem hnew fun choice hchoice => ?_).mpr hkeys
  have hoffered := (h.own shown hmem).mem_iff.mp (hchoices hchoice)
  exact ⟨choice, hoffered, Choice.beq_self_of_isKey (hkeys choice hoffered)⟩

/-- A respondent with a habit goes on as long as the run is not finished; an answer is refused only
if there is a choice that cannot be looked up. -/
theorem step_or_refused {t : Traversal} (h : Prompt s t) (hs : s.Coherent) (hv : s.Valid)
    (habit : Habit) (hnot : t.finished = false) :
    ∃ shown u, t.next = (.ok shown, u) ∧ shown ∈ u.shown ∧ shown.question ∈ s.questions ∧
      (∀ w, ({ u with gen := (habit.choose shown u.gen).2 } : Traversal).answer shown.question
        (habit.choose shown u.gen).1 = .ok w → Prompt s w) ∧
      ∀ fault, ({ u with gen := (habit.choose shown u.gen).2 } : Traversal).answer shown.question
        (habit.choose shown u.gen).1 = .error fault →
          ∃ choice ∈ shown.question.choices, choice.isKey = false := by
  obtain ⟨order, c, -, hsound, -⟩ := h.invariant hs hv
  obtain ⟨shown, u, hnext⟩ := hsound.next_succeeds hv hnot
  have hu := (h.next hnext).draw (habit.choose shown u.gen).2
  obtain ⟨order', c', -, hsound', -⟩ := hu.invariant hs hv
  have hshown : u.shown = t.shown ++ [shown] := shown_of_next hnext
  have hlast : u.shown.getLast? = some shown := by rw [hshown, List.getLast?_concat]
  have hmem := hsound'.mem_of_shown (List.mem_of_getLast? hlast)
  refine ⟨shown, u, hnext, List.mem_of_getLast? hlast, hmem,
    fun w hw => hu.answer hmem (fun _ => ⟨shown, hlast, rfl⟩) hw, fun fault hfault => ?_⟩
  by_contra hnone
  have hkeys : ∀ choice ∈ shown.question.choices, choice.isKey = true := by simpa using hnone
  obtain ⟨w, hw⟩ := hsound'.answer_latest hs hshown
    (fun a ha => hsound.answered a (answers_of_next hnext ▸ ha)) hkeys
    (habit.choose_subset shown u.gen)
  cases hw.symm.trans hfault

/-- So with a habit a run gets to the end, or to a choice that cannot be looked up. -/
theorem finish_or_refused {t : Traversal} (h : Prompt s t) (hs : s.Coherent) (hv : s.Valid)
    (habit : Habit) :
    (∃ t', t.finish (fun shown g => .ok (habit.choose shown g)) = (.ok (), t')) ∨
      ∃ fault t', t.finish (fun shown g => .ok (habit.choose shown g)) = (.error fault, t') ∧
        ∃ shown ∈ t'.shown, shown.question ∈ s.questions ∧
          ∃ choice ∈ shown.question.choices, choice.isKey = false := by
  cases hdone : t.finished with
  | true =>
    rw [finish, if_pos hdone]
    exact .inl ⟨t, rfl⟩
  | false =>
    obtain ⟨shown, u, hnext, hshown, hmem, hok, hrefused⟩ := step_or_refused h hs hv habit hdone
    cases hanswer : ({ u with gen := (habit.choose shown u.gen).2 } : Traversal).answer
      shown.question (habit.choose shown u.gen).1 with
    | error fault =>
      exact .inr ⟨fault, _, finish_of_fault hdone hnext rfl hanswer, shown, hshown, hmem,
        hrefused fault hanswer⟩
    | ok w =>
      rw [finish_of_step hdone hnext rfl hanswer]
      exact finish_or_refused (hok w hanswer) hs hv habit
termination_by t.left
decreasing_by exact step_left hnext hanswer

theorem finish_succeeds {t : Traversal} (h : Prompt s t) (hs : s.Coherent) (hv : s.Valid)
    (hkeys : ∀ q ∈ s.questions, ∀ choice ∈ q.choices, choice.isKey = true) (habit : Habit) :
    ∃ t', t.finish (fun shown g => .ok (habit.choose shown g)) = (.ok (), t') := by
  rcases finish_or_refused h hs hv habit with hfinish | ⟨_, _, -, shown, -, hmem, choice, hchoice,
    hkey⟩
  · exact hfinish
  · cases (hkeys _ hmem choice hchoice).symm.trans hkey

end Traversal

/-- **What a respondent with a habit does**: the run goes to the end, and all that was shown was
answered. -/
theorem Habit.run_of_respond {s : Survey} {t : Traversal} {habit : Habit} {g g' : Gen}
    (hs : s.Coherent) (hv : s.Valid)
    (h : Questionnaire.respond s (fun shown g => .ok (habit.choose shown g)) g = .ok (t, g')) :
    Prompt s t ∧ t.finished = true ∧ t.Complete := by
  unfold Questionnaire.respond at h
  obtain ⟨⟨first, g₁⟩, hstart, h₁⟩ := bind_eq_ok.mp h
  have hprompt : Prompt s first := .start hstart
  have hnothing : first.Complete := by
    obtain ⟨_, _, _, _, -, -, -, rfl⟩ := Traversal.start_eq_ok hstart
    constructor <;> simp
  dsimp only at h₁
  split at h₁
  · cases h₁
  · rename_i hfinish
    cases h₁
    exact ⟨(hprompt.finish hs hv hfinish).1, (hprompt.finish hs hv hfinish).2,
      hnothing.finish hs hv hprompt hfinish⟩

/-- **A respondent with a habit gets to the end** of a valid survey, if the blocks can be put in
order and all choices can be looked up. -/
theorem Habit.run_succeeds {s : Survey} (hs : s.Coherent) (hv : s.Valid)
    (hsorted : ∃ sorted, sortBlocks s.blocks = .ok sorted)
    (hkeys : ∀ q ∈ s.questions, ∀ choice ∈ q.choices, choice.isKey = true) (habit : Habit)
    (g : Gen) :
    ∃ t g', Questionnaire.respond s (fun shown g => .ok (habit.choose shown g)) g = .ok (t, g') := by
  obtain ⟨⟨first, g₁⟩, hstart⟩ := (Traversal.start_succeeds_iff hv g).mpr hsorted
  obtain ⟨t, hfinish⟩ := Traversal.finish_succeeds (.start hstart) hs hv hkeys habit
  refine ⟨t, t.gen, bind_eq_ok.mpr ⟨(first, g₁), hstart, ?_⟩⟩
  dsimp only
  rw [hfinish]
  rfl

end Questionnaire
