/-
# Frequencies count selections

Answers to one question add to one tally, and questions whose ids have the same
value share it. So what is found for a question is the tally of all choices that
were selected for it, whichever way the answers came. Smoothing goes through the
questions of a survey in the same way and leaves alone what no question offers.

Key definitions: `Frequencies.selectedFor`, `Frequencies.CountsSelections`,
`Frequencies.Smooths`.
Key theorems: `Frequencies.counts?_countAll`, `Frequencies.counts?_smoothed`,
`Frequencies.counts_every_selection`.
-/
import Questionnaire.Frequency
import Questionnaire.Proofs.Classify.Gaps
import Questionnaire.Proofs.Document.Key

namespace Questionnaire

theorem Document.comparedBy_keyValue {d : Document} (h : d.isKey = true) :
    ComparedBy Document.keyValue d :=
  fun _ => Document.beq_iff_keyValue h

namespace Frequencies

variable {fs : Frequencies} {t : Tally Document} {question choice : Document}
  {answers : List Answer} {qs : List Question} {choices : List Choice}

/-! ### Changing counts -/

section Update

variable (change : Tally Document → Tally Document)

/-- Changing the counts of a question adds an entry at the end if there is none for it. -/
theorem keys_update (question : Document) : ∀ fs : Frequencies,
    (fs.update question change).map (·.1) =
      if fs.any (·.1 == question) then fs.map (·.1) else fs.map (·.1) ++ [question]
  | [] => rfl
  | (id, t) :: fs => by
    rw [update, List.any_cons]
    by_cases hsame : (id == question) = true
    · simp [hsame]
    · rw [if_neg hsame, List.map_cons, keys_update question fs]
      by_cases hknown : fs.any (·.1 == question) = true <;> simp [hsame, hknown]

theorem keyed_update (hkey : question.isKey = true) (h : Keyed Document.keyValue fs) :
    Keyed Document.keyValue (fs.update question change) := by
  have hquestion := Document.comparedBy_keyValue hkey
  by_cases hknown : fs.any (·.1 == question) = true
  · exact h.of_keys (by rw [keys_update, if_pos hknown])
  · have hnew : ∀ entry ∈ fs, entry.1.keyValue ≠ question.keyValue := by
      intro entry hentry hsame
      exact hknown (List.any_eq_true.mpr ⟨entry, hentry, (hquestion entry.1).mpr hsame⟩)
    exact (h.concat hquestion hnew (change [])).of_keys
      (by rw [keys_update, if_neg hknown, List.map_append]; rfl)

theorem counts?_update (hkey : question.isKey = true) (z : Document) : ∀ {fs : Frequencies},
    Keyed Document.keyValue fs → (fs.update question change).counts? z =
      if z == question then some (change ((fs.counts? question).getD [])) else fs.counts? z
  | [], _ => by
    unfold counts? update
    rw [List.lookup_cons]
    cases z == question <;> rfl
  | (id, t) :: fs, h => by
    have hquestion := Document.comparedBy_keyValue hkey
    obtain ⟨hid, hrest⟩ := List.forall_mem_cons.mp h.compared
    have hrest : Keyed Document.keyValue fs := ⟨hrest, h.nodup.of_cons⟩
    have ih : (update question change fs).counts? z = _ :=
      counts?_update hkey z hrest
    unfold counts? at ih ⊢
    unfold update
    by_cases hsame : (id == question) = true
    · have hvalue := (hquestion id).mp hsame
      have hfound : (question == id) = true := (hid question).mpr hvalue.symm
      have hzz : (z == id) = (z == question) := by
        rw [Bool.eq_iff_iff, hid z, hquestion z, hvalue]
      rw [if_pos hsame, List.lookup_cons, List.lookup_cons, List.lookup_cons, hfound, hzz]
      cases z == question <;> rfl
    · have hmissed : (question == id) = false := by
        refine Bool.eq_false_iff.mpr fun hfound => hsame ?_
        exact (hquestion id).mpr ((hid question).mp hfound).symm
      rw [if_neg hsame, List.lookup_cons, List.lookup_cons, List.lookup_cons, hmissed, ih]
      by_cases hzid : (z == id) = true
      · have hzq : ¬(z == question) = true := fun hzq =>
          hsame ((hquestion id).mpr (((hid z).mp hzid).symm.trans ((hquestion z).mp hzq)))
        simp [hzid, hzq]
      · simp [hzid]

variable {γ : Type} {key : γ → Document}

theorem keyed_foldl_update (change : γ → Tally Document → Tally Document) {xs : List γ}
    (hkeys : ∀ x ∈ xs, (key x).isKey = true) (h : Keyed Document.keyValue fs) :
    Keyed Document.keyValue (xs.foldl (fun fs x => update (key x) (change x) fs) fs) :=
  List.foldlRecOn xs _ h fun _ hfs x hx => keyed_update (change x) (hkeys x hx) hfs

/-- Changes for several things are made one after another to the counts that they share. -/
theorem counts?_foldl_update (change : γ → Tally Document → Tally Document) (z : Document) :
    ∀ {xs : List γ} {fs : Frequencies}, (∀ x ∈ xs, (key x).isKey = true) →
      Keyed Document.keyValue fs →
      counts? (xs.foldl (fun fs x => update (key x) (change x) fs) fs) z =
        if xs.any (z == key ·) then
          some ((xs.filter (z == key ·)).foldl (fun t x => change x t) ((fs.counts? z).getD []))
        else fs.counts? z
  | [], _, _, _ => rfl
  | x :: xs, fs, hkeys, h => by
    obtain ⟨hkey, hkeys⟩ := List.forall_mem_cons.mp hkeys
    have hupdate : (update (key x) (change x) fs).counts? z = _ :=
      counts?_update (change x) hkey z h
    have ih := counts?_foldl_update change z hkeys (keyed_update (change x) hkey h)
    refine ih.trans ?_
    rw [hupdate, List.any_cons, List.filter_cons]
    by_cases hzx : (z == key x) = true
    · have hsame : fs.counts? (key x) = fs.counts? z :=
        h.lookup_congr ((Document.comparedBy_keyValue hkey z).mp hzx).symm
      rw [if_pos hzx, if_pos hzx, hsame, hzx]
      -- without later changes for `z`, its counts are those that were changed for `x`
      by_cases hlater : xs.any (z == key ·) = true
      · rw [if_pos hlater]
        rfl
      · have hnone : xs.filter (z == key ·) = [] := by simpa using hlater
        rw [if_neg hlater, hnone]
        rfl
    · rw [if_neg hzx, if_neg hzx]
      simp [hzx]

end Update

/-! ### Counting answers -/

/-- The choices that were selected in the answers to a question. -/
def selectedFor (answers : List Answer) (question : Document) : List Document :=
  (answers.filter (question == ·.question.id)).flatMap (·.choiceIds)

theorem hasKeys_iff {a : Answer} :
    hasKeys a = true ↔ a.question.id.isKey = true ∧ ∀ id ∈ a.choiceIds, id.isKey = true := by
  rw [hasKeys, Bool.and_eq_true, List.all_eq_true]

theorem isKey_selectedFor (h : ∀ a ∈ answers, hasKeys a = true) :
    ∀ id ∈ selectedFor answers question, id.isKey = true := by
  intro id hid
  obtain ⟨a, ha, hid⟩ := List.mem_flatMap.mp hid
  exact (hasKeys_iff.mp (h a (List.mem_of_mem_filter ha))).2 id hid

theorem comparedBy_selectedFor (h : ∀ a ∈ answers, hasKeys a = true) :
    ∀ id ∈ selectedFor answers question, ComparedBy Document.keyValue id :=
  fun id hid => Document.comparedBy_keyValue (isKey_selectedFor h id hid)

theorem selectedFor_eq_nil (h : ¬answers.any (question == ·.question.id) = true) :
    selectedFor answers question = [] := by
  have hnone : answers.filter (question == ·.question.id) = [] := by simpa using h
  rw [selectedFor, hnone]
  rfl

theorem keyed_countAll (h : ∀ a ∈ answers, hasKeys a = true) :
    Keyed Document.keyValue (countAll answers) :=
  keyed_foldl_update (fun a : Answer => Tally.addAll a.choiceIds)
    (fun a ha => (hasKeys_iff.mp (h a ha)).1) .nil

/-- **What is found for a question is the tally of the choices selected for it.** -/
theorem counts?_countAll (h : ∀ a ∈ answers, hasKeys a = true) (question : Document) :
    (countAll answers).counts? question =
      if answers.any (question == ·.question.id) then
        some (Tally.ofList (selectedFor answers question)) else none := by
  have hfold := counts?_foldl_update (fun a : Answer => Tally.addAll a.choiceIds) question
    (fun a ha => (hasKeys_iff.mp (h a ha)).1) .nil
  have hflat : (answers.filter (question == ·.question.id)).foldl
      (fun t a => Tally.addAll a.choiceIds t) [] = Tally.ofList (selectedFor answers question) := by
    unfold Tally.ofList Tally.addAll selectedFor
    rw [List.foldl_flatMap]
  rw [← hflat]
  exact hfold

/-! ### Smoothing -/

/-- The choices that the questions offer as choices of a question. -/
def offeredFor (qs : List Question) (question : Document) : List Choice :=
  (qs.filter (question == ·.id)).flatMap (·.choices)

theorem offersKeys_iff {q : Question} :
    offersKeys q = true ↔ q.id.isKey = true ∧ ∀ c ∈ q.choices, c.id.isKey = true := by
  rw [offersKeys, Bool.and_eq_true, List.all_eq_true]

theorem isKey_offeredFor (h : ∀ q ∈ qs, offersKeys q = true) (question : Document) :
    ∀ c ∈ offeredFor qs question, c.id.isKey = true := by
  intro c hc
  obtain ⟨q, hq, hc⟩ := List.mem_flatMap.mp hc
  exact (offersKeys_iff.mp (h q (List.mem_of_mem_filter hq))).2 c hc

theorem offeredFor_eq_nil (h : ¬qs.any (question == ·.id) = true) : offeredFor qs question = [] := by
  have hnone : qs.filter (question == ·.id) = [] := by simpa using h
  rw [offeredFor, hnone]
  rfl

theorem any_offeredFor : (offeredFor qs question).any (choice == ·.id) = true ↔
    ∃ q ∈ qs, (question == q.id) = true ∧ ∃ c ∈ q.choices, (choice == c.id) = true := by
  simp only [offeredFor, List.any_eq_true, List.mem_flatMap, List.mem_filter]
  constructor
  · rintro ⟨c, ⟨q, ⟨hq, hquestion⟩, hc⟩, hchoice⟩
    exact ⟨q, hq, hquestion, c, hc, hchoice⟩
  · rintro ⟨q, hq, hquestion, c, hc, hchoice⟩
    exact ⟨c, ⟨q, ⟨hq, hquestion⟩, hc⟩, hchoice⟩

/-- Each of the choices has a count that is not zero, and no other count is changed. -/
theorem lookup_countUnselected (z : Document) : ∀ {choices : List Choice} {t : Tally Document},
    (∀ c ∈ choices, c.id.isKey = true) → Keyed Document.keyValue t →
      Keyed Document.keyValue (countUnselected choices t) ∧
      (countUnselected choices t).lookup z =
        if choices.any (z == ·.id) then some (max 1 (t.count z)) else t.lookup z
  | [], _, _, h => ⟨h, rfl⟩
  | c :: choices, t, hkeys, h => by
    obtain ⟨hkey, hkeys⟩ := List.forall_mem_cons.mp hkeys
    have hc := Document.comparedBy_keyValue hkey
    have hstep : Keyed Document.keyValue (if t.count c.id = 0 then t.add c.id else t) ∧
        (if t.count c.id = 0 then t.add c.id else t).lookup z =
          if z == c.id then some (max 1 (t.count z)) else t.lookup z := by
      by_cases hcount : t.count c.id = 0
      · rw [if_pos hcount, Tally.lookup_add hc z h.compared]
        refine ⟨Tally.keyed_add hc h, ?_⟩
        by_cases hzc : (z == c.id) = true
        · have hsame : t.count z = 0 := by
            rw [← hcount, Tally.count, h.lookup_congr ((hc z).mp hzc), Tally.count]
          rw [if_pos hzc, if_pos hzc, hsame]
          rfl
        · rw [if_neg hzc, if_neg hzc]
      · rw [if_neg hcount]
        refine ⟨h, ?_⟩
        by_cases hzc : (z == c.id) = true
        · have hsame := h.lookup_congr ((hc z).mp hzc)
          rw [if_pos hzc, Tally.count, hsame]
          cases hfound : t.lookup c.id with
          | none => exact absurd (congrArg (·.getD 0) hfound) hcount
          | some n =>
            have hn := Tally.count_eq_of_lookup hfound
            have hpos : 1 ≤ n := by omega
            simp [Nat.max_eq_right hpos]
        · rw [if_neg hzc]
    obtain ⟨hkeyed, hlookup⟩ := hstep
    obtain ⟨hrest, ih⟩ := lookup_countUnselected z hkeys hkeyed
    refine ⟨hrest, ih.trans ?_⟩
    rw [List.any_cons, Tally.count, hlookup]
    by_cases hzc : (z == c.id) = true
    · simp [hzc]
    · simp [hzc, Tally.count]

theorem keyed_smoothed (h : ∀ q ∈ qs, offersKeys q = true) (hfs : Keyed Document.keyValue fs) :
    Keyed Document.keyValue (fs.smoothed qs) :=
  keyed_foldl_update (fun q : Question => countUnselected q.choices)
    (fun q hq => (offersKeys_iff.mp (h q hq)).1) hfs

/-- What is found for a question after smoothing: the tally before with the choices that were not
selected, if the survey has the question. -/
theorem counts?_smoothed (h : ∀ q ∈ qs, offersKeys q = true) (hfs : Keyed Document.keyValue fs)
    (question : Document) : (fs.smoothed qs).counts? question =
      if qs.any (question == ·.id) then
        some (countUnselected (offeredFor qs question) ((fs.counts? question).getD []))
      else fs.counts? question := by
  have hfold := counts?_foldl_update (fun q : Question => countUnselected q.choices) question
    (fun q hq => (offersKeys_iff.mp (h q hq)).1) hfs
  have hflat (t : Tally Document) : (qs.filter (question == ·.id)).foldl
      (fun t q => countUnselected q.choices t) t = countUnselected (offeredFor qs question) t := by
    unfold countUnselected offeredFor
    rw [List.foldl_flatMap]
  rw [← hflat]
  exact hfold

/-! ### What frequencies hold -/

/-- The count of a choice of a question, if it has an entry. -/
def choiceCount? (fs : Frequencies) (question choice : Document) : Option Nat :=
  (fs.counts? question).bind (·.lookup choice)

theorem count_eq_getD (fs : Frequencies) (question choice : Document) :
    fs.count question choice = (fs.choiceCount? question choice).getD 0 := by
  unfold count choiceCount?
  cases fs.counts? question <;> rfl

/-- How often a choice was selected in the answers to a question. -/
def selections (answers : List Answer) (question choice : Document) : Nat :=
  (selectedFor answers question).countP (choice == ·)

/-- There is one entry for each question, and in it one for each choice, by the values of their
ids. No count is zero. -/
structure IsTable (fs : Frequencies) : Prop where
  questions : Keyed Document.keyValue fs
  choices : ∀ entry ∈ fs, Keyed Document.keyValue entry.2
  positive : ∀ entry ∈ fs, ∀ counted ∈ entry.2, 0 < counted.2

theorem IsTable.of_found (h : Keyed Document.keyValue fs)
    (hfound : ∀ question t, fs.counts? question = some t → Keyed Document.keyValue t ∧
      ∀ choice n, t.lookup choice = some n → 0 < n) : fs.IsTable := by
  have hentry : ∀ entry ∈ fs, Keyed Document.keyValue entry.2 ∧
      ∀ choice n, entry.2.lookup choice = some n → 0 < n :=
    fun entry hentry => hfound entry.1 entry.2 (h.lookup_eq_some_iff.mpr ⟨_, hentry, rfl⟩)
  refine ⟨h, fun entry hmem => (hentry entry hmem).1, fun entry hmem counted hcounted => ?_⟩
  obtain ⟨hkeyed, hpositive⟩ := hentry entry hmem
  exact hpositive counted.1 counted.2 (hkeyed.lookup_eq_some_iff.mpr ⟨_, hcounted, rfl⟩)

/-- What is found for a question is such a tally. -/
theorem IsTable.found (h : fs.IsTable) (question : Document) :
    Keyed Document.keyValue ((fs.counts? question).getD []) ∧
      ∀ choice n, ((fs.counts? question).getD []).lookup choice = some n → 0 < n := by
  cases hfound : fs.counts? question with
  | none => exact ⟨.nil, nofun⟩
  | some t =>
    obtain ⟨id, hentry, -⟩ := h.questions.lookup_eq_some_iff.mp hfound
    refine ⟨h.choices _ hentry, fun choice n hn => ?_⟩
    obtain ⟨c, hcounted, -⟩ := (h.choices _ hentry).lookup_eq_some_iff.mp hn
    exact h.positive _ hentry _ hcounted

/-- There is an entry for each question that was answered, and in it one for each choice that was
selected, with the number of its selections. -/
structure CountsSelections (answers : List Answer) (fs : Frequencies) : Prop where
  table : fs.IsTable
  questions : ∀ question, (fs.counts? question).isSome = answers.any (question == ·.question.id)
  choices : ∀ question choice, fs.choiceCount? question choice =
    if selections answers question choice = 0 then none
    else some (selections answers question choice)

/-- Compared with what was counted before, there are entries for the questions, too. Each choice
that they offer counts at least once, and nothing else has changed. -/
structure Smooths (qs : List Question) (fs smooth : Frequencies) : Prop where
  table : smooth.IsTable
  questions : ∀ question, (smooth.counts? question).isSome =
    ((fs.counts? question).isSome || qs.any (question == ·.id))
  offered : ∀ question choice, (∃ q ∈ qs, (question == q.id) = true ∧
    ∃ c ∈ q.choices, (choice == c.id) = true) →
      smooth.choiceCount? question choice = some (max 1 (fs.count question choice))
  others : ∀ question choice, (¬∃ q ∈ qs, (question == q.id) = true ∧
    ∃ c ∈ q.choices, (choice == c.id) = true) →
      smooth.choiceCount? question choice = fs.choiceCount? question choice

theorem isTable_countAll (h : ∀ a ∈ answers, hasKeys a = true) : (countAll answers).IsTable := by
  refine .of_found (keyed_countAll h) fun question t hfound => ?_
  rw [counts?_countAll h] at hfound
  obtain ⟨-, hfound⟩ := Option.ite_none_right_eq_some.mp hfound
  obtain rfl := Option.some.inj hfound
  refine ⟨Tally.keyed_ofList (comparedBy_selectedFor h), fun choice n hn => ?_⟩
  rw [Tally.lookup_ofList (comparedBy_selectedFor h), Option.ite_none_left_eq_some] at hn
  obtain ⟨hsome, hn⟩ := hn
  have := Option.some.inj hn
  omega

theorem choiceCount?_countAll (h : ∀ a ∈ answers, hasKeys a = true) (question choice : Document) :
    (countAll answers).choiceCount? question choice =
      if selections answers question choice = 0 then none
      else some (selections answers question choice) := by
  unfold choiceCount? selections
  rw [counts?_countAll h]
  by_cases hanswered : answers.any (question == ·.question.id) = true
  · rw [if_pos hanswered]
    exact Tally.lookup_ofList (comparedBy_selectedFor h) choice
  · rw [if_neg hanswered, selectedFor_eq_nil hanswered]
    rfl

theorem countsSelections_countAll (h : ∀ a ∈ answers, hasKeys a = true) :
    (countAll answers).CountsSelections answers := by
  refine ⟨isTable_countAll h, fun question => ?_, choiceCount?_countAll h⟩
  rw [counts?_countAll h]
  cases answers.any (question == ·.question.id) <;> rfl

/-- Choices that are offered for a question have a count after smoothing. -/
theorem choiceCount?_smoothed (h : ∀ q ∈ qs, offersKeys q = true) (hfs : fs.IsTable)
    (question choice : Document) : (fs.smoothed qs).choiceCount? question choice =
      if (offeredFor qs question).any (choice == ·.id) then
        some (max 1 (fs.count question choice))
      else fs.choiceCount? question choice := by
  unfold choiceCount?
  rw [counts?_smoothed h hfs.questions]
  by_cases hknown : qs.any (question == ·.id) = true
  · have hunselected :=
      lookup_countUnselected choice (isKey_offeredFor h question) (hfs.found question).1
    rw [if_pos hknown, Option.bind_some, hunselected.2]
    unfold count
    cases fs.counts? question <;> rfl
  · rw [if_neg hknown, offeredFor_eq_nil hknown]
    rfl

theorem isTable_smoothed (h : ∀ q ∈ qs, offersKeys q = true) (hfs : fs.IsTable) :
    (fs.smoothed qs).IsTable := by
  refine .of_found (keyed_smoothed h hfs.questions) fun question t ht => ?_
  obtain ⟨hkeyed, hpositive⟩ := hfs.found question
  have hunselected (choice : Document) :=
    lookup_countUnselected choice (isKey_offeredFor h question) hkeyed
  rw [counts?_smoothed h hfs.questions] at ht
  by_cases hknown : qs.any (question == ·.id) = true
  · rw [if_pos hknown] at ht
    obtain rfl := Option.some.inj ht
    refine ⟨(hunselected .null).1, fun choice n hn => ?_⟩
    rw [(hunselected choice).2] at hn
    split at hn
    · have := Option.some.inj hn
      omega
    · exact hpositive choice n hn
  · rw [if_neg hknown] at ht
    simpa [ht] using hfs.found question

theorem smooths_smoothed (h : ∀ q ∈ qs, offersKeys q = true) (hfs : fs.IsTable) :
    Smooths qs fs (fs.smoothed qs) := by
  refine ⟨isTable_smoothed h hfs, fun question => ?_, fun question choice hoffered => ?_,
    fun question choice hother => ?_⟩
  · rw [counts?_smoothed h hfs.questions]
    by_cases hknown : qs.any (question == ·.id) = true
    · rw [if_pos hknown, hknown, Bool.or_true]
      rfl
    · simp [hknown]
  · rw [choiceCount?_smoothed h hfs, if_pos (any_offeredFor.mpr hoffered)]
  · rw [choiceCount?_smoothed h hfs, if_neg (hother <| any_offeredFor.mp ·)]

/-! ### Gathering -/

section Gather

variable {responses more : List Response}

theorem ofResponses_eq_ok : ofResponses responses = .ok fs ↔
    (∀ a ∈ countedAnswers responses, hasKeys a = true) ∧
      countAll (countedAnswers responses) = fs := by
  unfold ofResponses
  rw [← List.all_eq_true]
  by_cases hkeys : (countedAnswers responses).all hasKeys = true <;> simp [hkeys]

theorem ofResponses_eq_error {fault : Fault} (h : ofResponses responses = .error fault) :
    fault = .illTyped := by
  unfold ofResponses at h
  dsimp only at h
  split at h <;> cases h
  rfl

theorem gather_smoothing_eq_ok {s : Survey} {smooth : Frequencies} :
    gather s true responses = .ok smooth ↔ ∃ fs, ofResponses responses = .ok fs ∧
      (∀ q ∈ countedQuestions s, offersKeys q = true) ∧
        fs.smoothed (countedQuestions s) = smooth := by
  unfold gather
  rw [bind_eq_ok, ← List.all_eq_true]
  refine exists_congr fun fs => and_congr_right fun _ => ?_
  by_cases hkeys : (countedQuestions s).all offersKeys = true
  · simp [hkeys, pure, Except.pure]
  · simp [hkeys, throw, throwThe, MonadExceptOf.throw]

theorem selections_append (as bs : List Answer) (question choice : Document) :
    selections (as ++ bs) question choice =
      selections as question choice + selections bs question choice := by
  unfold selections selectedFor
  rw [List.filter_append, List.flatMap_append, List.countP_append]

theorem CountsSelections.count_eq (h : fs.CountsSelections answers) (question choice : Document) :
    fs.count question choice = selections answers question choice := by
  rw [count_eq_getD, h.choices]
  split
  · rename_i hnone
    exact hnone.symm
  · rfl

/-- **Frequencies count every selection.** The frequencies of responses exist exactly if the ids in
the answers that count are fit for keys; else they are of the wrong types. They have an entry for
each question that was answered and in it one for each choice that was selected, with the number of
its selections, and those of two lists of responses add up. There are smoothed ones exactly if there
are those and the ids of the survey's questions that count and of their choices are fit for keys, too;
smoothing adds these questions and choices, raises counts of zero to one and changes nothing else. -/
theorem counts_every_selection (responses : List Response) :
    ((∃ fs, ofResponses responses = .ok fs) ↔
      ∀ a ∈ countedAnswers responses, hasKeys a = true) ∧
    (∀ fault, ofResponses responses = .error fault → fault = .illTyped) ∧
    (∀ fs, ofResponses responses = .ok fs → fs.CountsSelections (countedAnswers responses)) ∧
    (∀ more fs gs, ofResponses responses = .ok fs → ofResponses more = .ok gs →
      ∃ hs, ofResponses (responses ++ more) = .ok hs ∧ ∀ question,
        (hs.counts? question).isSome =
          ((fs.counts? question).isSome || (gs.counts? question).isSome) ∧
        ∀ choice, hs.count question choice = fs.count question choice + gs.count question choice) ∧
    ∀ s, ((∃ smooth, gather s true responses = .ok smooth) ↔
        (∃ fs, ofResponses responses = .ok fs) ∧ ∀ q ∈ countedQuestions s, offersKeys q = true) ∧
      ∀ fs smooth, ofResponses responses = .ok fs → gather s true responses = .ok smooth →
        Smooths (countedQuestions s) fs smooth := by
  have hcounts : ∀ {rs : List Response} {fs : Frequencies}, ofResponses rs = .ok fs →
      fs.CountsSelections (countedAnswers rs) := by
    intro rs fs hfs
    obtain ⟨hkeys, rfl⟩ := ofResponses_eq_ok.mp hfs
    exact countsSelections_countAll hkeys
  refine ⟨?returns, fun fault => ofResponses_eq_error, fun fs => hcounts, ?adds, ?smooths⟩
  case returns =>
    simp only [ofResponses_eq_ok, exists_and_left, exists_eq', and_true]
  case adds =>
    intro more fs gs hfs hgs
    have happend : countedAnswers (responses ++ more) =
        countedAnswers responses ++ countedAnswers more := List.flatMap_append
    have hkeys : ∀ a ∈ countedAnswers (responses ++ more), hasKeys a = true := by
      rw [happend, List.forall_mem_append]
      exact ⟨(ofResponses_eq_ok.mp hfs).1, (ofResponses_eq_ok.mp hgs).1⟩
    have hhs := ofResponses_eq_ok.mpr ⟨hkeys, rfl⟩
    refine ⟨_, hhs, fun question => ⟨?_, fun choice => ?_⟩⟩
    · rw [(hcounts hhs).questions, (hcounts hfs).questions, (hcounts hgs).questions, happend,
        List.any_append]
    · rw [(hcounts hhs).count_eq, (hcounts hfs).count_eq, (hcounts hgs).count_eq, happend,
        selections_append]
  case smooths =>
    refine fun s => ⟨?_, fun fs smooth hfs hsmooth => ?_⟩
    · simp only [gather_smoothing_eq_ok]
      constructor
      · rintro ⟨_, fs, hfs, hkeys, -⟩
        exact ⟨⟨fs, hfs⟩, hkeys⟩
      · rintro ⟨⟨fs, hfs⟩, hkeys⟩
        exact ⟨_, fs, hfs, hkeys, rfl⟩
    · obtain ⟨fs', hfs', hkeys, rfl⟩ := gather_smoothing_eq_ok.mp hsmooth
      obtain rfl := Except.ok.inj (hfs.symm.trans hfs')
      exact smooths_smoothed hkeys (hcounts hfs).table

/-- The frequencies of the responses after smoothing. -/
def forkSmoothed : Frequencies :=
  forkCounts ++ [(.str "q2", [(.str "more", 1)]), (.str "q3", [(.str "last", 1)])]

theorem counts_every_selection_fork :
    Survey.ofDocument 0 (forkDocument Survey.moreFields) = .ok (Survey.fork Survey.more) ∧
    ofResponses forkUneven = .ok forkCounts ∧
    gather (Survey.fork Survey.more) true forkUneven = .ok forkSmoothed ∧
    (∃ fs, ofResponses (forkUneven ++ forkUneven) = .ok fs ∧
      fs.count (.str "q1") (.str "long") = 4) ∧
    Smooths (countedQuestions (Survey.fork Survey.more)) forkCounts forkSmoothed := by
  have hanswers : countedAnswers forkUneven = ["long", "short", "long"].map fun choice =>
      ⟨Survey.forkFirst, [⟨plainChoice choice, .int 0⟩], .int 0⟩ := rfl
  have hcounts : ofResponses forkUneven = .ok forkCounts := by
    unfold ofResponses
    rw [hanswers]
    cbv
  have hsmoothed : gather (Survey.fork Survey.more) true forkUneven = .ok forkSmoothed := by
    unfold gather
    rw [hcounts]
    cbv
  obtain ⟨-, -, -, hadds, hsmooths⟩ := counts_every_selection forkUneven
  obtain ⟨fs, hfs, hsum⟩ := hadds forkUneven forkCounts forkCounts hcounts hcounts
  refine ⟨Survey.ofDocument_fork, hcounts, hsmoothed, ⟨fs, hfs, ?_⟩, ?_⟩
  · exact ((hsum (.str "q1")).2 (.str "long")).trans (by cbv)
  · exact (hsmooths _).2 _ _ hcounts hsmoothed

/-- The response that selects nothing for a question whose id is a list. -/
def oddAnswered : Response where
  id := .str "sr0"
  answers := [⟨{ key := ⟨0, 0⟩, id := .list [] }, [], .int 0⟩]

/-- Nothing is counted for a question whose id cannot be a key. -/
theorem odd_not_counted :
    Survey.ofDocument 0 oddDocument = .ok oddSurvey ∧ oddAnswered.BelongsTo oddSurvey ∧
    countedAnswers [oddAnswered] = oddAnswered.answers ∧
    ofResponses [oddAnswered] = .error .illTyped := by
  refine ⟨?_, ?_, rfl, rfl⟩
  · unfold Survey.ofDocument
    rw [@readBlocks_leaves 0 oddDocument [_] (by cbv) (by cbv)]
    cbv
  · have hquestions : oddSurvey.questions = [{ key := ⟨0, 0⟩, id := .list [] }] := rfl
    simp [Response.BelongsTo, oddAnswered, hquestions, Answer.choices]

end Gather

end Frequencies

end Questionnaire
