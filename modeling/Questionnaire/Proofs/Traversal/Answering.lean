/-
# What respondents with a habit answer

A question is shown with its choices at the places from zero on. A habit picks
some of what is shown, in the order of display: one if only one may be selected,
the first or the last one if that is the habit, and none only if there is nothing
to pick. If no two choices are the same, the places that are recorded are those of
what was picked, so each answer of a run is what the habit picks of what was shown.

Key definitions: `Shown.Displayed`, `Habit.Picks`, `Traversal.Follows`.
Key theorems: `Habit.picks_choose`, `Shown.select_picked`, `Traversal.Follows.finish`,
`Habit.answers_all`.
-/
import Questionnaire.Proofs.Path.Filing

namespace Questionnaire

/-! ### What is shown -/

/-- The choices of the question are shown in some order, each at its place. -/
def Shown.Displayed (shown : Shown) : Prop :=
  ∃ choices : List Choice, choices.Perm shown.question.choices ∧
    shown.options = choices.zipIdx.map fun (c, i) => ⟨c, .int i⟩

/-- No two choices of the question are the same, whichever is compared with the other. -/
def Question.DistinctChoices (q : Question) : Prop :=
  q.choices.Pairwise fun c d => (c == d) = false ∧ (d == c) = false

namespace Shown.Displayed

variable {shown : Shown}

theorem length_options (h : shown.Displayed) :
    shown.options.length = shown.question.choices.length := by
  obtain ⟨choices, hperm, heq⟩ := h
  rw [heq, List.length_map, List.length_zipIdx, hperm.length_eq]

theorem options_eq_nil_iff (h : shown.Displayed) :
    shown.options = [] ↔ shown.question.choices = [] := by
  rw [← List.length_eq_zero_iff, h.length_options, List.length_eq_zero_iff]

theorem index_options (h : shown.Displayed) :
    shown.options.map (·.index) = (List.range shown.options.length).map fun i => .int i := by
  obtain ⟨choices, -, heq⟩ := h
  rw [heq, List.map_map, List.length_map, List.length_zipIdx, List.range_eq_range',
    ← List.zipIdx_map_snd 0 choices, List.map_map]
  rfl

/-- What is at a place is recorded with it. -/
theorem index_at (h : shown.Displayed) {i : Nat} (hi : i < shown.options.length) :
    (shown.options[i]?.toList).map (·.index) = [.int i] := by
  have hindex := congrArg (·[i]?) h.index_options
  simp only [List.getElem?_map, List.getElem?_range hi, Option.map_some] at hindex
  rw [List.getElem?_eq_getElem hi] at hindex ⊢
  exact congrArg (fun index => [index]) (Option.some.inj hindex)

/-- The places of what is picked in the order of display rise. -/
theorem rising (h : shown.Displayed) {picked : List Selection}
    (hpicked : picked.Sublist shown.options) :
    ∃ places : List Nat, places.Pairwise (· < ·) ∧
      picked.map (·.index) = places.map fun i => .int i := by
  have hsublist := hpicked.map (·.index)
  rw [h.index_options] at hsublist
  obtain ⟨places, hplaces, heq⟩ := List.sublist_map_iff.mp hsublist
  exact ⟨places, List.pairwise_lt_range.sublist hplaces, heq⟩

/-- What is shown of a question without equal choices are different things. -/
theorem pairwise_options (h : shown.Displayed) (hdistinct : shown.question.DistinctChoices) :
    shown.options.Pairwise fun a b => (a.choice == b.choice) = false ∧
      (b.choice == a.choice) = false := by
  obtain ⟨choices, hperm, heq⟩ := h
  have hchoices : shown.options.map (·.choice) = choices := by
    rw [heq, List.map_map]
    exact List.zipIdx_map_fst 0 choices
  have hpairwise := (hperm.pairwise_iff fun hcd => ⟨hcd.2, hcd.1⟩).mpr hdistinct
  rw [← hchoices, List.pairwise_map] at hpairwise
  exact hpairwise

end Shown.Displayed

/-- The selections that are recorded for some of what was shown are these. -/
theorem Shown.select_picked {shown : Shown} (h : shown.Displayed)
    (hdistinct : shown.question.DistinctChoices) {picked selections : List Selection}
    (hpicked : picked.Sublist shown.options)
    (hselect : shown.select (picked.map (·.choice)) = .ok selections) : selections = picked := by
  have hone : ∀ selection ∈ shown.options, selection.choice.isKey = true →
      shown.selectOne selection.choice = .ok selection := by
    intro selection hmem hkey
    have hself := Choice.beq_self_of_isKey hkey
    have hsome : (shown.options.reverse.find? (·.choice == selection.choice)).isSome = true :=
      List.find?_isSome.mpr ⟨selection, List.mem_reverse.mpr hmem, hself⟩
    obtain ⟨found, hfound⟩ := Option.isSome_iff_exists.mp hsome
    have hsame : found = selection := by
      have hmem' := List.mem_reverse.mp (List.mem_of_find?_eq_some hfound)
      have hsymm : Std.Symm fun a b : Selection => (a.choice == b.choice) = false ∧
        (b.choice == a.choice) = false := ⟨fun _ _ hab => ⟨hab.2, hab.1⟩⟩
      by_contra hne
      have hapart := (h.pairwise_options hdistinct).forall hmem' hmem hne
      have hequal : (found.choice == selection.choice) = true := by
        simpa using List.find?_some hfound
      rw [hequal] at hapart
      cases hapart.1
    unfold selectOne place?
    rw [if_neg (by simp [hkey]), hfound, hsame]
    rfl
  unfold select at hselect
  split at hselect
  · rename_i hkeys
    rw [mapM_map_eq_ok (h := id)] at hselect
    · rw [← Except.ok.inj hselect, List.map_id]
    · intro selection hmem
      have hshown := hpicked.subset hmem
      exact hone selection hshown (List.all_eq_true.mp hkeys selection hshown)
  · cases hselect

/-! ### What a habit picks -/

/-- What a habit picks of the choices that are shown: some of them in the order of display, at least
one unless there are none, and one alone, at such a place, where the question or the habit wants
that. -/
structure Habit.Picks (habit : Habit) (shown : Shown) (picked : List Selection) : Prop where
  sublist : picked.Sublist shown.options
  rising : ∃ places : List Nat, places.Pairwise (· < ·) ∧
    picked.map (·.index) = places.map fun i => .int i
  nothing : picked = [] ↔ shown.question.choices = []
  one : shown.question.isExclusive = true ∨ habit = .first ∨ habit = .last →
    shown.question.choices ≠ [] → picked.length = 1
  first : habit = .first → shown.question.choices ≠ [] → picked.map (·.index) = [.int 0]
  last : habit = .last → shown.question.choices ≠ [] →
    picked.map (·.index) = [.int (shown.question.choices.length - 1 : Nat)]
  inner : habit = .inner → shown.question.isExclusive = true →
    2 < shown.question.choices.length → ∃ i : Nat, 0 < i ∧
      i + 1 < shown.question.choices.length ∧ picked.map (·.index) = [.int i]

namespace Habit

variable {habit : Habit} {shown : Shown}

theorem Picks.of_empty (h : shown.Displayed) (hnone : shown.question.choices = []) :
    habit.Picks shown [] where
  sublist := List.nil_sublist _
  rising := h.rising (List.nil_sublist _)
  nothing := by simp [hnone]
  one _ hne := absurd hnone hne
  first _ hne := absurd hnone hne
  last _ hne := absurd hnone hne
  inner _ _ hlong := by simp [hnone] at hlong

/-- One choice alone is picked at its place. -/
theorem Picks.of_place (h : shown.Displayed) {i : Nat} (hi : i < shown.options.length)
    (hfirst : habit = .first → i = 0) (hlast : habit = .last → i + 1 = shown.options.length)
    (hinner : habit = .inner → 2 < shown.options.length → 0 < i ∧ i + 1 < shown.options.length) :
    habit.Picks shown shown.options[i]?.toList := by
  have hlength := h.length_options
  have hindex := h.index_at hi
  have hsublist : shown.options[i]?.toList.Sublist shown.options := by
    rw [List.getElem?_eq_getElem hi]
    exact List.singleton_sublist.mpr (List.getElem_mem hi)
  have hchoices : shown.question.choices ≠ [] := by
    rw [← List.length_pos_iff, ← hlength]
    omega
  refine ⟨hsublist, h.rising hsublist, ?_, fun _ _ => ?_, fun hhabit _ => ?_, fun hhabit _ => ?_,
    fun hhabit _ hlong => ?_⟩
  · simp [hchoices, hi]
  · simp [hi]
  · rw [hindex, hfirst hhabit]
    rfl
  · rw [hindex, ← hlength, ← hlast hhabit]
    rfl
  · rw [← hlength] at hlong ⊢
    exact ⟨i, (hinner hhabit hlong).1, (hinner hhabit hlong).2, hindex⟩

/-- Several choices may be picked where neither the question nor the habit wants one. -/
theorem Picks.of_some (h : shown.Displayed) {picked : List Selection}
    (hpicked : picked.Sublist shown.options) (hne : picked ≠ [])
    (hmany : shown.question.isExclusive = false) (hfirst : habit ≠ .first)
    (hlast : habit ≠ .last) : habit.Picks shown picked where
  sublist := hpicked
  rising := h.rising hpicked
  nothing := by
    refine ⟨fun hnil => absurd hnil hne, fun hnone => ?_⟩
    rw [h.options_eq_nil_iff.mpr hnone] at hpicked
    exact List.sublist_nil.mp hpicked
  one := by simp [hmany, hfirst, hlast]
  first hhabit := absurd hhabit hfirst
  last hhabit := absurd hhabit hlast
  inner _ hexclusive := by simp [hmany] at hexclusive

/-- Coins pick in the order of display. -/
theorem exists_pickSome (options : List Selection) (hne : options ≠ []) (g : Gen) :
    ∃ picked : List Selection, picked.Sublist options ∧ picked ≠ [] ∧
      (pickSome (options.map (·.choice)) g).1 = picked.map (·.choice) := by
  have hchoices : options.map (·.choice) ≠ [] := by simpa using hne
  have hresult := pickSome_ne_nil hchoices g
  suffices hpicked : ∃ picked : List Selection, picked.Sublist options ∧
      (pickSome (options.map (·.choice)) g).1 = picked.map (·.choice) by
    obtain ⟨picked, hsublist, heq⟩ := hpicked
    refine ⟨picked, hsublist, fun hnil => hresult ?_, heq⟩
    rw [heq, hnil]
    rfl
  unfold pickSome
  have hcoins := Gen.length_times Gen.coin options.length g
  dsimp only
  rw [List.length_map]
  split
  · refine ⟨((options.zip (Gen.times Gen.coin options.length g).1).filter (·.2)).map (·.1),
      ?_, ?_⟩
    · have hsublist := (List.filter_sublist (p := (·.2))
        (l := options.zip (Gen.times Gen.coin options.length g).1)).map Prod.fst
      rwa [List.map_fst_zip (by omega)] at hsublist
    · rw [List.zip_map_left, List.filter_map, List.map_map, List.map_map]
      rfl
  · refine ⟨(options[(Gen.below options.length
      (Gen.times Gen.coin options.length g).2).1]?).toList, ?_, ?_⟩
    · cases hplace : options[(Gen.below options.length
        (Gen.times Gen.coin options.length g).2).1]? with
      | none => exact List.nil_sublist _
      | some option => exact List.singleton_sublist.mpr (List.mem_of_getElem? hplace)
    · rw [List.getElem?_map, Option.toList_map]

/-- One at a drawn place is picked, or several by coins. -/
theorem picks_drawn (habit : Habit) (h : shown.Displayed) (hoptions : shown.options ≠ [])
    (hfirst : habit ≠ .first) (hlast : habit ≠ .last) (g : Gen) :
    ∃ picked, habit.Picks shown picked ∧ (if shown.question.isExclusive then
      habit.pickOne (shown.options.map (·.choice)) g
      else pickSome (shown.options.map (·.choice)) g).1 = picked.map (·.choice) := by
  cases hexclusive : shown.question.isExclusive with
  | true =>
    obtain ⟨i, hi, hlt, hends⟩ := habit.exists_pickOne (shown.options.map (·.choice)) g
    rw [List.length_map] at hlt hends
    refine ⟨_, .of_place h (hlt (by simpa using hoptions)) (absurd · hfirst) (absurd · hlast) hends,
      ?_⟩
    rw [if_pos rfl, hi, List.getElem?_map, Option.toList_map]
  | false =>
    obtain ⟨picked, hsublist, hne, hpicked⟩ := exists_pickSome shown.options hoptions g
    exact ⟨picked, .of_some h hsublist hne hexclusive hfirst hlast, hpicked⟩

/-- What a habit selects are the choices of what it picks. -/
theorem picks_choose (habit : Habit) (h : shown.Displayed)
    (htext : shown.question.isFreetext = true → shown.question.choices = []) (g : Gen) :
    ∃ picked, habit.Picks shown picked ∧ (habit.choose shown g).1 = picked.map (·.choice) := by
  unfold choose
  dsimp only
  by_cases hnone : shown.question.choices = []
  · rw [if_pos (by simp [h.options_eq_nil_iff.mpr hnone])]
    exact ⟨[], .of_empty h hnone, rfl⟩
  have hoptions : shown.options ≠ [] := fun hnil => hnone (h.options_eq_nil_iff.mp hnil)
  have hpos : 0 < shown.options.length := List.length_pos_iff.mpr hoptions
  have hfree : shown.question.isFreetext = false := by
    by_contra hfree
    exact hnone (htext (by simpa using hfree))
  rw [if_neg (by simp [hfree, hoptions])]
  cases habit with
  | first =>
    refine ⟨_, .of_place h hpos (fun _ => rfl) nofun nofun, ?_⟩
    rw [List.head?_eq_getElem?, List.getElem?_map, Option.toList_map]
  | last =>
    refine ⟨_, .of_place h (i := shown.options.length - 1) (by omega) nofun (fun _ => by omega)
      nofun, ?_⟩
    rw [List.getLast?_eq_getElem?, List.length_map, List.getElem?_map, Option.toList_map]
  | uniform => exact picks_drawn .uniform h hoptions nofun nofun g
  | inner => exact picks_drawn .inner h hoptions nofun nofun g

end Habit

/-! ### All answers of a run -/

namespace Traversal

variable {s : Survey} {t t' u : Traversal} {habit : Habit}

theorem displayed_of_take {shown : Shown} (h : t.take = (.ok shown, u)) : shown.Displayed := by
  unfold take at h
  split at h
  · cases h
  · rename_i q _ _
    cases h
    exact ⟨_, q.displayOrder_perm t.gen, rfl⟩

theorem displayed_of_next {shown : Shown} (h : t.next = (.ok shown, u)) : shown.Displayed := by
  unfold next at h
  split at h
  · cases h
  · split at h
    · split at h
      · cases h
      · exact displayed_of_take h
    · exact displayed_of_take h

/-- All that was shown was answered in turn, with what the habit picks. -/
structure Follows (habit : Habit) (t : Traversal) : Prop where
  picked : List.Forall₂ (fun shown a => a.question = shown.question ∧
    habit.Picks shown a.selections) t.shown t.answers
  seen : t.answers.map (·.seen) = (List.range t.answers.length).map fun i => .int i

/-- The question that was shown last is found under its key. -/
theorem find?_latest {earlier : List Shown} {shown : Shown}
    (hnodup : ((earlier ++ [shown]).map (·.question.key)).Nodup) :
    (earlier ++ [shown]).find? (·.question.key == shown.question.key) = some shown := by
  rw [List.map_append, List.nodup_append] at hnodup
  have hnone : earlier.find? (·.question.key == shown.question.key) = none := by
    refine List.find?_eq_none.mpr fun other hother hkey => ?_
    exact hnodup.2.2 _ (List.mem_map_of_mem hother) _ (List.mem_singleton_self _)
      (eq_of_beq hkey)
  rw [List.find?_append, hnone]
  simp

/-- The next question and the answer that the habit gives to it. -/
theorem Follows.step (h : t.Follows habit) (hs : s.Coherent) (hv : s.Valid)
    (hdistinct : ∀ q ∈ s.questions, q.DistinctChoices) (hprompt : Prompt s t) {shown : Shown}
    (hnext : t.next = (.ok shown, u))
    (hanswer : ({ u with gen := (habit.choose shown u.gen).2 } : Traversal).answer shown.question
      (habit.choose shown u.gen).1 = .ok t') : t'.Follows habit := by
  have hshown := shown_of_next hnext
  have hanswers := answers_of_next hnext
  have hdisplayed := displayed_of_next hnext
  obtain ⟨order, c, -, hsound, -⟩ := (hprompt.next hnext).invariant hs hv
  have hmem : shown.question ∈ s.questions :=
    hsound.mem_of_shown (hshown ▸ List.mem_append_right _ (List.mem_singleton_self _))
  obtain ⟨picked, hpicks, hchoose⟩ := habit.picks_choose hdisplayed
    (hv.choices_of_freetext hmem) u.gen
  obtain ⟨found, selections, hfound, -, hselect, rfl⟩ := answer_eq_ok hanswer
  have hlatest : found = shown := by
    have hnodup := hsound.nodup_shown hs
    rw [hshown] at hnodup hfound
    exact Option.some.inj (hfound.symm.trans (find?_latest hnodup))
  rw [hlatest, hchoose] at hselect
  obtain rfl := Shown.select_picked hdisplayed (hdistinct _ hmem) hpicks.sublist hselect
  constructor
  · change List.Forall₂ _ u.shown (u.answers ++ [_])
    rw [hshown, hanswers]
    exact List.rel_append h.picked (.cons ⟨rfl, hpicks⟩ .nil)
  · change (u.answers ++ [_]).map _ = (List.range (u.answers ++ [_]).length).map _
    rw [hanswers, List.length_append, List.length_singleton, List.range_succ, List.map_append,
      List.map_append, h.seen]
    rfl

/-- So a run that gets to the end follows the habit. -/
theorem Follows.finish {t : Traversal} (h : t.Follows habit) (hs : s.Coherent) (hv : s.Valid)
    (hdistinct : ∀ q ∈ s.questions, q.DistinctChoices) (hprompt : Prompt s t)
    (hfinish : t.finish (fun shown g => .ok (habit.choose shown g)) = (.ok (), t')) :
    t'.Follows habit := by
  rcases finish_eq_ok hfinish with ⟨-, rfl⟩ | ⟨shown, u, choices, gen, w, hnext, hchoose, hanswer,
    hrest⟩
  · exact h
  · obtain ⟨rfl, rfl⟩ := Prod.mk.inj (Except.ok.inj hchoose)
    obtain ⟨order, c, -, hsound, -⟩ := (hprompt.next hnext).invariant hs hv
    have hlast : u.shown.getLast? = some shown := by simp [shown_of_next hnext]
    have hmem := hsound.mem_of_shown (List.mem_of_getLast? hlast)
    have hw := ((hprompt.next hnext).draw (habit.choose shown u.gen).2).answer hmem
      (fun _ => ⟨shown, hlast, rfl⟩) hanswer
    exact (h.step hs hv hdistinct hprompt hnext hanswer).finish hs hv hdistinct hw hrest
termination_by t.left
decreasing_by exact step_left hnext hanswer

end Traversal

/-- **A respondent with a habit answers all that is shown.** In a valid survey without equal choices
the run gets to the end, and the response holds an answer to each question that was shown, in turn,
with what the habit picks. The run fails only if the blocks cannot be put in order, or at a question
with a choice that cannot be looked up. -/
theorem Habit.answers_all {origin : Nat} {d : Document} {s : Survey}
    (hread : Survey.ofDocument origin d = .ok s) (hv : s.Valid)
    (hdistinct : ∀ q ∈ s.questions, q.DistinctChoices) (habit : Habit) (id : Document) (g : Gen) :
    (∃ t g', Questionnaire.respond s (fun shown g => .ok (habit.choose shown g)) g = .ok (t, g') ∧
      habit.respond s id g = .ok ({ t.response id with known := .no }, g') ∧
      t.finished = true ∧ (t.shown.map (·.question.key)).Nodup ∧
      List.Forall₂ (fun shown a => a.question = shown.question ∧ habit.Picks shown a.selections)
        t.shown t.answers ∧
      t.answers.map (·.seen) = (List.range t.shown.length).map fun i => .int i) ∨
    (∀ sorted, sortBlocks s.blocks ≠ .ok sorted) ∨
    ∃ first g₁ fault t, Traversal.start s g = .ok (first, g₁) ∧
      first.finish (fun shown g => .ok (habit.choose shown g)) = (.error fault, t) ∧
      ∃ shown ∈ t.shown, shown.question ∈ s.questions ∧
        ∃ choice ∈ shown.question.choices, choice.isKey = false := by
  have hs := Survey.coherent_of_ofDocument hread
  by_cases hsorted : ∃ sorted, sortBlocks s.blocks = .ok sorted
  · obtain ⟨⟨first, g₁⟩, hstart⟩ := (Traversal.start_succeeds_iff hv g).mpr hsorted
    rcases Traversal.finish_or_refused (.start hstart) hs hv habit with ⟨t, hfinish⟩ |
      ⟨fault, t, hfinish, hrefused⟩
    · left
      have hrun : Questionnaire.respond s (fun shown g => .ok (habit.choose shown g)) g =
          .ok (t, t.gen) := by
        refine bind_eq_ok.mpr ⟨(first, g₁), hstart, ?_⟩
        dsimp only
        rw [hfinish]
        rfl
      obtain ⟨hprompt, hfinished, -⟩ := Habit.run_of_respond hs hv hrun
      obtain ⟨order, c, -, hsound, -⟩ := hprompt.invariant hs hv
      have hnothing : first.Follows habit := by
        obtain ⟨_, _, _, _, -, -, -, rfl⟩ := Traversal.start_eq_ok hstart
        exact ⟨.nil, rfl⟩
      have hfollows := hnothing.finish hs hv hdistinct (.start hstart) hfinish
      refine ⟨t, t.gen, hrun, ?_, hfinished, hsound.nodup_shown hs, hfollows.picked, ?_⟩
      · unfold Habit.respond
        rw [hrun]
        rfl
      · rw [hfollows.seen, hfollows.picked.length_eq]
    · exact .inr (.inr ⟨first, g₁, fault, t, hstart, hfinish, hrefused⟩)
  · exact .inr (.inl fun sorted h => hsorted ⟨sorted, h⟩)

theorem answers_all_fork : Survey.ofDocument 0 (forkDocument Survey.moreFields) =
      .ok (Survey.fork Survey.more) ∧ (Survey.fork Survey.more).Valid ∧
    (∀ q ∈ (Survey.fork Survey.more).questions, q.DistinctChoices) ∧
    ∃ t g', respond (Survey.fork Survey.more) (fun shown g => .ok (Habit.inner.choose shown g)) ⟨0⟩ =
        .ok (t, g') ∧ t.finished = true ∧
      List.Forall₂ (fun shown a => a.question = shown.question ∧
        Habit.inner.Picks shown a.selections) t.shown t.answers := by
  have hdistinct : ∀ q ∈ (Survey.fork Survey.more).questions, q.DistinctChoices := by
    unfold Question.DistinctChoices
    decide +kernel
  refine ⟨Survey.ofDocument_fork, Survey.fork_valid, hdistinct, ?_⟩
  rcases Habit.answers_all Survey.ofDocument_fork Survey.fork_valid hdistinct .inner (.str "sr0") ⟨0⟩
    with ⟨t, g', hrun, -, hfinished, -, hpicked, -⟩ | hunsorted | hrefused
  · exact ⟨t, g', hrun, hfinished, hpicked⟩
  · exact absurd (by cbv) (hunsorted (Survey.fork Survey.more).blocks)
  · obtain ⟨_, _, _, _, -, -, shown, -, hmem, choice, hchoice, hkey⟩ := hrefused
    have hkeys : ∀ q ∈ (Survey.fork Survey.more).questions, ∀ choice ∈ q.choices,
        choice.isKey = true := by decide
    cases (hkeys _ hmem choice hchoice).symm.trans hkey

/-! ### Surveys that are not got through -/

/-- A document whose only block has a number as its id. -/
def numberedDocument : Document := .record [
  ("name", .str "numbered"),
  ("blocks", .list [.record [("id", .int 1), ("questions", .list [
    .record [("id", .str "q1"), ("options", .list [choiceEntry "a"])]])]])]

/-- The survey of that document. -/
def numberedSurvey : Survey where
  name := .str "numbered"
  blocks := [{ key := ⟨0, 0⟩, id := .int 1
               questions := [plainQuestion 0 "1" [plainChoice "a"] []] }]

/-- A respondent gets through neither a valid survey whose only question offers a choice that cannot
be looked up, nor one whose only block has a number as its id. -/
theorem first_not_through :
    (Survey.ofDocument 0 Traversal.listTextDocument = .ok Traversal.listTextSurvey ∧
      Traversal.listTextSurvey.Valid ∧
      (∀ q ∈ Traversal.listTextSurvey.questions, q.DistinctChoices) ∧
      Habit.first.respond Traversal.listTextSurvey (.str "sr0") ⟨0⟩ = .error .illTyped) ∧
    Survey.ofDocument 0 numberedDocument = .ok numberedSurvey ∧ numberedSurvey.Valid ∧
      (∀ q ∈ numberedSurvey.questions, q.DistinctChoices) ∧
      Habit.first.respond numberedSurvey (.str "sr0") ⟨0⟩ = .error .illTyped := by
  refine ⟨⟨?_, by decide, ?_, ?_⟩, ?_, by decide, ?_, by cbv⟩
  · unfold Survey.ofDocument
    rw [@readBlocks_leaves 0 Traversal.listTextDocument [_] (by cbv) (by cbv)]
    cbv
  · unfold Question.DistinctChoices
    decide
  · cbv
  · unfold Survey.ofDocument
    rw [@readBlocks_leaves 0 numberedDocument [_] (by cbv) (by cbv)]
    cbv
  · unfold Question.DistinctChoices
    decide

end Questionnaire
