/-
# The log of a traversal

Questions may be asked for and answered in any order, and some of these steps
fail: a question is asked for in vain, or an answer is given to a question that
was not shown, or was answered before, or with choices of another question. What
was shown and what was answered stay a log all the same: no question comes twice
in either, both count from zero on, and each answer selects what was shown at
the places that it records.

An answer is recorded by several writes. A fault between them would leave some
of them behind, but all that may fail comes before the first write, except that
the choice that the branch is looked up by must be fit for that, and it was looked
up before.

Key definitions: `Question.Orders`, `Shown.Records`, `Traversal.record`,
`Traversal.Logged`.
Key theorems: `Traversal.runFrom_record`, `Traversal.Logged.after`,
`Traversal.keeps_log`.
-/
import Questionnaire.Proofs.Running
import Questionnaire.Proofs.Traversal.Answering
import Questionnaire.Proofs.Traversal.Late

namespace Questionnaire

/-! ### What is shown of a question -/

/-- An order in which the choices of the question may be shown: the source order if it is not
random, and that order or its reverse if the order has a meaning. -/
structure Question.Orders (q : Question) (choices : List Choice) : Prop where
  perm : choices.Perm q.choices
  fixed : q.isRandomized = false → choices = q.choices
  scale : q.isOrdered = true → choices = q.choices ∨ choices = q.choices.reverse

theorem Question.orders_displayOrder (q : Question) (g : Gen) : q.Orders (q.displayOrder g).1 where
  perm := q.displayOrder_perm g
  fixed hfixed := by
    unfold displayOrder
    rw [if_pos (by simp [hfixed])]
  scale hscale := by
    unfold displayOrder
    by_cases hrandom : q.isRandomized = true
    · rw [if_neg (by simp [hrandom]), if_pos hscale]
      dsimp only
      by_cases hheads : g.coin.1 = true
      · rw [if_pos hheads]
        exact .inr rfl
      · rw [if_neg hheads]
        exact .inl rfl
    · rw [if_pos (by simpa using hrandom)]
      exact .inl rfl

namespace Shown

/-- The choices of the question are shown in an order that it allows, at the places from zero on. -/
def Offers (shown : Shown) : Prop :=
  ∃ choices : List Choice, shown.question.Orders choices ∧
    shown.options = choices.zipIdx.map fun (c, i) => ⟨c, .int i⟩

/-- The selection is of the choice that was shown at its place. -/
def Records (shown : Shown) (selection : Selection) : Prop :=
  ∃ (i : Nat) (option : Selection), shown.options[i]? = some option ∧
    selection.index = .int i ∧ (option.choice == selection.choice) = true

variable {shown : Shown}

/-- What is shown is shown at its place. -/
theorem Offers.place (h : shown.Offers) {option : Selection} (hmem : option ∈ shown.options) :
    ∃ i : Nat, shown.options[i]? = some option ∧ option.index = .int i := by
  obtain ⟨choices, -, heq⟩ := h
  obtain ⟨i, hi⟩ := List.mem_iff_getElem?.mp hmem
  refine ⟨i, hi, ?_⟩
  rw [heq, List.getElem?_map, List.getElem?_zipIdx, Option.map_map] at hi
  obtain ⟨c, -, rfl⟩ := Option.map_eq_some_iff.mp hi
  simp

theorem Offers.records_selectOne (h : shown.Offers) {c : Choice} {selection : Selection}
    (hselect : shown.selectOne c = .ok selection) : shown.Records selection := by
  unfold selectOne place? at hselect
  split at hselect
  · cases hselect
  · cases hfind : shown.options.reverse.find? (·.choice == c) with
    | none =>
      rw [hfind] at hselect
      cases hselect
    | some option =>
      rw [hfind] at hselect
      cases hselect
      have hmem : option ∈ shown.options :=
        List.mem_reverse.mp (List.mem_of_find?_eq_some hfind)
      have hsame : (option.choice == c) = true := by simpa using List.find?_some hfind
      obtain ⟨i, hi, hindex⟩ := h.place hmem
      exact ⟨i, option, hi, hindex, hsame⟩

/-- What is selected is recorded with the place where it was shown. -/
theorem Offers.records_select (h : shown.Offers) {choices : List Choice}
    {selections : List Selection} (hselect : shown.select choices = .ok selections) :
    ∀ selection ∈ selections, shown.Records selection := by
  unfold select at hselect
  split at hselect
  · intro selection hmem
    obtain ⟨c, -, hone⟩ := exists_of_mem_right (forall₂_of_mapM hselect) hmem
    exact h.records_selectOne hone
  · cases hselect

/-- All choices that were selected can be looked up. -/
theorem isKey_of_select {choices : List Choice} {selections : List Selection}
    (hselect : shown.select choices = .ok selections) : ∀ c ∈ choices, c.isKey = true := by
  unfold select at hselect
  split at hselect
  · intro c hc
    obtain ⟨selection, hone⟩ := exists_of_mapM hselect hc
    unfold selectOne at hone
    by_contra hkey
    rw [if_pos (by simpa using hkey)] at hone
    cases hone
  · cases hselect

end Shown

namespace Traversal

variable {s : Survey} {t u : Traversal}

/-! ### Recording an answer, write by write -/

/-- Records an answer and then says where to go on. The choice that the branch is looked up by has
to be fit for a look-up. What was written before a fault stays written. -/
def record (q : Question) (choices : List Choice) : ExceptT Fault (StateM Traversal) Unit := do
  match (← get).shown.find? (·.question.key == q.key) with
  | none => throw (.about [q.id] (.neverPresented q.id.display))
  | some shown =>
    if (← get).answers.any (·.question.key == q.key) then
      throw (.about [q.id] (.answeredTwice q.id.display))
    let selections ← liftM (shown.select choices)
    modify fun t => { t with answers := t.answers ++ [⟨q, selections, .int t.answers.length⟩] }
    match choices with
    | [] => return
    | c :: _ =>
      if q.isBranch then
        if !c.isKey then throw .illTyped
        modify fun t => { t with pending := q.destination? c }

/-- **An answer is recorded as a whole or not at all.** -/
theorem runFrom_record (t : Traversal) (q : Question) (choices : List Choice) :
    runFrom t (record q choices) =
      match t.answer q choices with
      | .ok u => (.ok (), u)
      | .error fault => (.error fault, t) := by
  unfold record answer
  rw [runFrom_bind, runFrom_get]
  dsimp only
  cases t.shown.find? (·.question.key == q.key) with
  | none => rfl
  | some shown =>
    dsimp only
    rw [runFrom_bind, runFrom_get]
    dsimp only
    cases t.answers.any (·.question.key == q.key) with
    | true => rfl
    | false =>
      simp only [Bool.false_eq_true, if_false]
      rw [runFrom_bind, runFrom_liftM]
      cases hselect : shown.select choices with
      | error fault => rfl
      | ok selections =>
        dsimp only
        rw [runFrom_bind, runFrom_modify]
        cases choices with
        | nil => rfl
        | cons c choices =>
          -- the only fault after a write would be here, but the choice was looked up before
          have hkey : c.isKey = true := Shown.isKey_of_select hselect c List.mem_cons_self
          cases hbranch : q.isBranch with
          | false => rfl
          | true =>
            simp only [hkey]
            rfl

/-! ### What every step keeps -/

/-- What was shown, is open or may still be opened are questions of the survey, each at most once.
What was shown counts from zero on, and so do the answers, of which each selects what was shown of
its question at the places that it records. -/
structure Logged (s : Survey) (t : Traversal) : Prop where
  stock : (t.shown.map (·.question) ++ (t.questions ++ questionsUnder t.blocks)).Subperm s.questions
  offered : ∀ shown ∈ t.shown, shown.Offers
  numbered : t.shown.map (·.seen) = List.range t.shown.length
  answered : ∀ a ∈ t.answers, ∃ shown ∈ t.shown, shown.question = a.question ∧
    ∀ selection ∈ a.selections, shown.Records selection
  distinct : (t.answers.map (·.question.key)).Nodup
  counted : t.answers.map (·.seen) = (List.range t.answers.length).map fun i => .int i

/-- An answer is to the very question of the survey that has its key, if there is one. -/
def Step.Genuine (s : Survey) : Step → Prop
  | .answer q _ => ∀ r ∈ s.questions, r.key = q.key → r = q
  | _ => True

/-- Opening a block changes neither what was shown nor the answers, and what is open then comes
from the blocks, also if it fails. -/
theorem refill_changes (t : Traversal) (bs : List Block) :
    ∃ blocks questions gen visited pending,
      (t.refill bs).2 = { t with blocks, questions, gen, visited, pending } ∧
      (questions ++ questionsUnder blocks).Subperm (t.questions ++ questionsUnder bs) := by
  induction bs with
  | nil => exact ⟨[], t.questions, t.gen, t.visited, t.pending, rfl, List.Subperm.refl _⟩
  | cons b bs ih =>
    have hrest : (t.questions ++ questionsUnder bs).Subperm
        (t.questions ++ questionsUnder (b :: bs)) := by
      have hsublist := questionsUnder_sublist (List.sublist_cons_self b bs)
      exact (hsublist.append_left t.questions).subperm
    rw [refill]
    split
    · split
      · exact ⟨bs, t.questions, t.gen, t.visited, t.pending, rfl, hrest⟩
      · rename_i gen _
        exact ⟨bs, t.questions, gen, t.visited, t.pending, rfl, hrest⟩
      · rename_i questions gen _ hexpand
        refine ⟨bs, questions, gen, _, _, rfl, ?_⟩
        have hopened : questions.Subperm b.allQuestions := (b.shows_of_expand hexpand).subperm
        rw [questionsUnder_cons]
        refine (hopened.append (List.Subperm.refl (questionsUnder bs))).trans ?_
        exact (List.sublist_append_right _ _).subperm
    · obtain ⟨blocks, questions, gen, visited, pending, heq, hstock⟩ := ih
      exact ⟨blocks, questions, gen, visited, pending, heq, hstock.trans hrest⟩

namespace Logged

theorem start {g g' : Gen} (h : Traversal.start s g = .ok (t, g')) : t.Logged s := by
  obtain ⟨first, rest, g₁, questions, -, harrange, hexpand, rfl⟩ := start_eq_ok h
  have hperm := (Survey.arranged_of_arrangeBlocks harrange).perm
  have hopened : questions.Subperm first.allQuestions := (first.shows_of_expand hexpand).subperm
  have hblocks : (questionsUnder (first :: rest)).Perm s.questions := by
    rw [s.questions_eq, questionsUnder_eq_flatMap, questionsUnder_eq_flatMap]
    exact hperm.flatMap_right _
  rw [questionsUnder_cons] at hblocks
  exact {
    stock := (hopened.append (List.Subperm.refl _)).trans hblocks.subperm
    offered := by simp
    numbered := rfl
    answered := by simp
    distinct := List.nodup_nil
    counted := rfl }

/-- Opening a block. -/
theorem refill (h : t.Logged s) : (t.refill t.blocks).2.Logged s := by
  obtain ⟨blocks, questions, gen, visited, pending, heq, hstock⟩ := t.refill_changes t.blocks
  have hall := (List.Subperm.refl (t.shown.map (·.question))).append hstock
  rw [heq]
  exact { h with stock := hall.trans h.stock }

/-- Showing the next of the open questions. -/
theorem take (h : t.Logged s) : t.take.2.Logged s := by
  cases hq : t.questions with
  | nil =>
    unfold Traversal.take
    rw [hq]
    exact h
  | cons q rest =>
    rw [take_of_cons hq]
    refine ⟨?stock, ?offered, ?numbered, ?answered, h.distinct, h.counted⟩
    case stock =>
      have hstock := h.stock
      rw [hq] at hstock
      simpa using hstock
    case offered =>
      intro shown hshown
      rcases List.mem_append.mp hshown with hold | hnew
      · exact h.offered shown hold
      · rw [List.mem_singleton.mp hnew]
        exact ⟨_, q.orders_displayOrder t.gen, rfl⟩
    case numbered =>
      rw [List.map_append, List.length_append, List.length_singleton, List.range_succ, h.numbered]
      rfl
    case answered =>
      intro a ha
      obtain ⟨shown, hshown, hrest⟩ := h.answered a ha
      exact ⟨shown, List.mem_append_left _ hshown, hrest⟩

/-- Asking for the next question, also if none is shown. -/
theorem next (h : t.Logged s) : t.next.2.Logged s := by
  have hrefill := h.refill
  unfold Traversal.next
  split
  · exact h
  · split
    · split
      · rename_i u hfault
        rwa [hfault] at hrefill
      · rename_i u hopened
        rw [hopened] at hrefill
        exact hrefill.take
    · exact h.take

/-- The shown questions are told apart by their keys. -/
theorem nodup_shown (h : t.Logged s) (hs : s.Coherent) :
    (t.shown.map (·.question.key)).Nodup := by
  obtain ⟨qs, hperm, hsublist⟩ := h.stock
  have hkeys : (qs.map (·.key)).Nodup := (hsublist.map _).nodup hs.questions
  have hall := (hperm.map (·.key)).nodup_iff.mp hkeys
  rw [List.map_append, List.map_map] at hall
  exact (List.nodup_append.mp hall).1

theorem mem_of_shown (h : t.Logged s) {shown : Shown} (hshown : shown ∈ t.shown) :
    shown.question ∈ s.questions :=
  h.stock.subset (List.mem_append_left _ (List.mem_map_of_mem hshown))

/-- Recording an answer. -/
theorem answer (h : t.Logged s) {q : Question} {choices : List Choice}
    (hgenuine : (Step.answer q choices).Genuine s) (hanswer : t.answer q choices = .ok u) :
    u.Logged s := by
  obtain ⟨shown, selections, hfind, hnew, hselect, rfl⟩ := answer_eq_ok hanswer
  have hshown : shown ∈ t.shown := List.mem_of_find?_eq_some hfind
  have hkey : shown.question.key = q.key := by simpa using List.find?_some hfind
  have hquestion : shown.question = q := hgenuine _ (h.mem_of_shown hshown) hkey
  refine ⟨h.stock, h.offered, h.numbered, ?answered, ?distinct, ?counted⟩
  case answered =>
    intro a ha
    rcases List.mem_append.mp ha with hold | hlast
    · exact h.answered a hold
    · rw [List.mem_singleton.mp hlast]
      exact ⟨shown, hshown, hquestion, (h.offered shown hshown).records_select hselect⟩
  case distinct =>
    rw [List.map_append, List.nodup_append]
    refine ⟨h.distinct, List.nodup_singleton _, fun key hmem key' hmem' => ?_⟩
    obtain ⟨a, ha, rfl⟩ := List.mem_map.mp hmem
    rw [List.mem_singleton.mp hmem']
    exact hnew a ha
  case counted =>
    rw [List.map_append, List.length_append, List.length_singleton, List.range_succ,
      List.map_append, h.counted]
    rfl

/-- **Every step keeps the log**, also if it fails. -/
theorem after (h : t.Logged s) {step : Step} (hstep : step.Genuine s) :
    (t.after step).Logged s := by
  cases step with
  | next => exact h.next
  | answer q choices =>
    unfold Traversal.after
    dsimp only
    split
    · rename_i hanswer
      exact h.answer hstep hanswer
    · exact h
  | draw gen => exact { h with }

theorem run (h : t.Logged s) {steps : List Step} (hsteps : ∀ step ∈ steps, step.Genuine s) :
    (t.run steps).Logged s := by
  induction steps generalizing t with
  | nil => exact h
  | cons step steps ih =>
    rw [List.forall_mem_cons] at hsteps
    exact ih (h.after hsteps.1) hsteps.2

end Logged

/-- **The log of a traversal is sound, whatever is asked and answered in whatever order.** An answer
that is refused changes nothing, though it is recorded by several writes. No question is shown
twice, and what was shown counts from zero on, each question with all its choices at the places from
zero on, in an order that it allows. No question is answered twice, and the answers count from zero
on, each with selections of what was shown of its question at the places that they record. -/
theorem keeps_log {origin : Nat} {d : Document} (hread : Survey.ofDocument origin d = .ok s)
    {g g' : Gen} {first : Traversal} (hstart : start s g = .ok (first, g')) {steps : List Step}
    (hsteps : ∀ step ∈ steps, step.Genuine s) (ht : first.run steps = t) :
    (∀ q choices fault u, runFrom t (record q choices) = (.error fault, u) → u = t) ∧
    (∀ q choices u, runFrom t (record q choices) = (.ok (), u) ↔ t.answer q choices = .ok u) ∧
    (t.shown.map (·.question.key)).Nodup ∧ t.shown.map (·.seen) = List.range t.shown.length ∧
    (∀ shown ∈ t.shown, shown.question ∈ s.questions ∧ shown.Offers) ∧
    (t.answers.map (·.question.key)).Nodup ∧
    t.answers.map (·.seen) = (List.range t.answers.length).map (fun i => .int i) ∧
    ∀ a ∈ t.answers, ∃ shown ∈ t.shown, shown.question = a.question ∧
      ∀ selection ∈ a.selections, shown.Records selection := by
  have hs := Survey.coherent_of_ofDocument hread
  have hlog : t.Logged s := ht ▸ (Logged.start hstart).run hsteps
  refine ⟨?refused, ?recorded, hlog.nodup_shown hs, hlog.numbered,
    fun shown hshown => ⟨hlog.mem_of_shown hshown, hlog.offered shown hshown⟩, hlog.distinct,
    hlog.counted, hlog.answered⟩
  case refused =>
    intro q choices fault u hrecord
    rw [runFrom_record] at hrecord
    cases hanswer : t.answer q choices with
    | ok v =>
      rw [hanswer] at hrecord
      cases hrecord
    | error fault' =>
      rw [hanswer] at hrecord
      cases hrecord
      rfl
  case recorded =>
    intro q choices u
    rw [runFrom_record]
    cases t.answer q choices with
    | ok v => simp
    | error fault => simp

/-! ### A run with steps that fail -/

/-- The first question of a fork is answered before it is shown, with a choice of another question,
at last with one of its own, and then once more. -/
def forkMuddled : List Step :=
  [.answer Survey.forkFirst [plainChoice "short"], .next,
    .answer Survey.forkFirst [plainChoice "short", plainChoice "last"],
    .answer Survey.forkFirst [plainChoice "short"], .answer Survey.forkFirst [], .next, .next]

theorem keeps_log_fork : Survey.ofDocument 0 (forkDocument Survey.moreFields) =
      .ok (Survey.fork Survey.more) ∧
    start (Survey.fork Survey.more) ⟨0⟩ = .ok (forkOpen Survey.more, ⟨4354685564936845354⟩) ∧
    (∀ step ∈ forkMuddled, step.Genuine (Survey.fork Survey.more)) ∧
    (forkOpen Survey.more).run forkMuddled = forkArrived Survey.more ∧
    runFrom (forkArrived Survey.more) (record Survey.forkLast [plainChoice "short"]) =
      (.error (.foreignOption "short" "q3"), forkArrived Survey.more) ∧
    (forkArrived Survey.more).shown.map (·.seen) = [0, 1] ∧
    ∀ a ∈ (forkArrived Survey.more).answers, ∃ shown ∈ (forkArrived Survey.more).shown,
      shown.question = a.question ∧ ∀ selection ∈ a.selections, shown.Records selection := by
  have hstart := start_fork Survey.fork_valid
  have hgenuine : ∀ step ∈ forkMuddled, step.Genuine (Survey.fork Survey.more) := by
    simp [forkMuddled, Step.Genuine, Survey.questions_fork, Survey.forkFirst, Survey.more,
      Survey.forkLast, plainQuestion]
  have hrun : (forkOpen Survey.more).run forkMuddled = forkArrived Survey.more := by cbv
  have hrefused : (forkArrived Survey.more).answer Survey.forkLast [plainChoice "short"] =
      .error (.foreignOption "short" "q3") := by cbv
  obtain ⟨-, -, -, hnumbered, -, -, -, hanswered⟩ :=
    keeps_log Survey.ofDocument_fork hstart hgenuine hrun
  refine ⟨Survey.ofDocument_fork, hstart, hgenuine, hrun, ?_, hnumbered, hanswered⟩
  rw [runFrom_record, hrefused]

end Traversal

end Questionnaire
