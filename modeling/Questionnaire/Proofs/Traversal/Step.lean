/-
# What one step of a traversal does

A traversal starts with the first of the arranged blocks open. The next
question is the first of the open ones; when there are none, blocks are passed
over up to one that is opened. An answer is recorded for a question that was
shown and not answered yet, and says where to go on if the question branches.

Each of the lemmas `start_eq_ok`, `refill_eq_ok`, `next_eq_ok` and `answer_eq_ok`
says all that its step does when it succeeds.

Key definitions: `Traversal.stopsAt`, `Traversal.pendingAfter`,
`Traversal.finishWithin`.
Key theorems: `Traversal.next_eq_ok`, `Traversal.answer_eq_ok`,
`Traversal.refill_succeeds`, `Traversal.answer_succeeds_iff`,
`Traversal.finish_of_step`.
-/
import Questionnaire.Proofs.Survey.Choice
import Questionnaire.Proofs.Traversal.Expansion
import Questionnaire.Traversal.Basic

namespace Questionnaire

/-! ### Showing a question -/

theorem filterMap_getElem?_range {α : Type} : ∀ xs : List α,
    (List.range xs.length).filterMap (xs[·]?) = xs
  | [] => rfl
  | x :: xs => by
    have ih := filterMap_getElem?_range xs
    rw [List.length_cons, List.range_succ_eq_map, List.filterMap_cons, List.filterMap_map]
    simpa [Function.comp_def] using ih

theorem Question.displayOrder_perm (q : Question) (g : Gen) : (q.displayOrder g).1.Perm q.choices := by
  unfold displayOrder
  split
  · exact .refl _
  · split
    · dsimp only
      split
      · exact q.choices.reverse_perm
      · exact .refl _
    · have hperm := (Gen.permutation_perm q.choices.length g).filterMap (q.choices[·]?)
      exact hperm.trans (.of_eq (filterMap_getElem?_range q.choices))

/-- A question is shown with its own choices, each once. -/
theorem Question.present_perm (q : Question) (g : Gen) :
    ((q.present g).1.map (·.choice)).Perm q.choices := by
  have hchoices : (q.present g).1.map (·.choice) = (q.displayOrder g).1 := by
    simp only [present, List.map_map, Function.comp_def]
    exact List.zipIdx_map_fst 0 _
  rw [hchoices]
  exact q.displayOrder_perm g

namespace Traversal

variable {t t' u : Traversal}

/-! ### Starting -/

theorem start_eq_ok {s : Survey} {g g' : Gen} (h : start s g = .ok (t, g')) :
    ∃ first rest g₁ questions, s.Valid ∧ s.arrangeBlocks g = .ok (first :: rest, g₁) ∧
      first.expand g₁ = .ok (questions, g') ∧
      t = { survey := s, gen := g', blocks := rest, questions, pending := none, shown := []
            answers := [], visited := [first] } := by
  unfold start at h
  obtain ⟨_, hcheck, h₁⟩ := bind_eq_ok.mp h
  obtain ⟨⟨blocks, g₁⟩, hblocks, h₂⟩ := bind_eq_ok.mp h₁
  cases blocks with
  | nil => cases h₂
  | cons first rest =>
    obtain ⟨⟨questions, g₂⟩, hexpand, h₃⟩ := bind_eq_ok.mp h₂
    cases h₃
    exact ⟨first, rest, g₁, questions, s.check_eq_ok_iff.mp hcheck, hblocks, hexpand, rfl⟩

theorem finished_iff : t.finished = true ↔ t.questions = [] ∧ t.blocks = [] := by
  simp [finished]

/-! ### Opening the next block -/

/-- Whether the traversal opens the block when it comes to it, rather than passing it over. -/
def stopsAt (t : Traversal) (b : Block) : Bool := b.isRandomizable || t.pending.all (· == b.key)

theorem refill_eq_ok : ∀ {bs : List Block}, t.refill bs = (.ok (), u) →
    ∃ passed b rest questions gen, bs = passed ++ b :: rest ∧
      (∀ c ∈ passed, t.stopsAt c = false) ∧ t.stopsAt b = true ∧
      b.expand t.gen = .ok (questions, gen) ∧
      u = { t with
        blocks := rest, questions, gen, visited := t.visited ++ [b]
        pending := if b.isRandomizable then t.pending else none }
  | [], h => by cases h
  | b :: bs, h => by
    rw [refill] at h
    split at h
    · rename_i hstop
      split at h
      · cases h
      · cases h
      · rename_i questions gen _ hexpand
        cases h
        exact ⟨[], b, bs, questions, gen, rfl, by simp, hstop, hexpand, rfl⟩
    · rename_i hpass
      obtain ⟨passed, c, rest, questions, gen, rfl, hpassed, hrest⟩ := refill_eq_ok h
      refine ⟨b :: passed, c, rest, questions, gen, rfl, ?_, hrest⟩
      intro d hd
      rcases List.mem_cons.mp hd with rfl | hd
      · simpa [stopsAt] using hpass
      · exact hpassed d hd

/-- A block that has something to show and is not passed over is opened. -/
theorem refill_of_stop {b : Block} (hfilled : b.Filled) (hstop : t.stopsAt b = true)
    (bs : List Block) : ∃ questions gen, b.expand t.gen = .ok (questions, gen) ∧ questions ≠ [] ∧
      t.refill (b :: bs) = (.ok (), { t with
        blocks := bs, questions, gen, visited := t.visited ++ [b]
        pending := if b.isRandomizable then t.pending else none }) := by
  obtain ⟨⟨questions, gen⟩, hexpand⟩ := b.expand_succeeds hfilled t.gen
  have hne := (b.shows_of_expand hexpand).ne_nil hfilled
  refine ⟨questions, gen, hexpand, hne, ?_⟩
  rw [refill, if_pos (by exact hstop), hexpand]
  cases questions with
  | nil => exact absurd rfl hne
  | cons q questions => rfl

/-- A block is opened if one of those to come is not passed over. -/
theorem refill_succeeds (t : Traversal) : ∀ {bs : List Block}, (∀ b ∈ bs, b.Filled) →
    (∃ b ∈ bs, t.stopsAt b = true) → ∃ u, t.refill bs = (.ok (), u)
  | [], _, h => by simp at h
  | b :: bs, hfilled, ⟨c, hc, hstop⟩ => by
    by_cases hb : t.stopsAt b = true
    · obtain ⟨_, _, -, -, hrefill⟩ := refill_of_stop (hfilled b List.mem_cons_self) hb bs
      exact ⟨_, hrefill⟩
    · rw [refill, if_neg (by exact hb)]
      rcases List.mem_cons.mp hc with rfl | hc
      · exact absurd hstop hb
      · exact refill_succeeds t (fun d hd => hfilled d (List.mem_cons_of_mem b hd)) ⟨c, hc, hstop⟩

/-! ### The next question -/

theorem take_eq_ok {shown : Shown} (h : t.take = (.ok shown, t')) : ∃ q rest gen,
    t.questions = q :: rest ∧ shown.question = q ∧
      (shown.options.map (·.choice)).Perm q.choices ∧
      t' = { t with questions := rest, gen, shown := t.shown ++ [shown] } := by
  unfold take at h
  split at h
  · cases h
  · rename_i q rest hq
    cases h
    exact ⟨q, rest, (q.present t.gen).2, hq, rfl, q.present_perm t.gen, rfl⟩

theorem take_succeeds (h : t.questions ≠ []) : ∃ shown t', t.take = (.ok shown, t') := by
  unfold take
  cases hq : t.questions with
  | nil => exact absurd hq h
  | cons q rest => exact ⟨_, _, rfl⟩

/-- The next question is the first one that is open, or of the next block if none is open. -/
theorem next_eq_ok {shown : Shown} (h : t.next = (.ok shown, t')) :
    ∃ u q rest gen, (u = t ∨ t.questions = [] ∧ t.refill t.blocks = (.ok (), u)) ∧
      u.questions = q :: rest ∧ shown.question = q ∧
      (shown.options.map (·.choice)).Perm q.choices ∧
      t' = { u with questions := rest, gen, shown := u.shown ++ [shown] } := by
  unfold next at h
  split at h
  · cases h
  · split at h
    · rename_i hempty
      split at h
      · cases h
      · rename_i u hrefill
        obtain ⟨q, rest, gen, hu⟩ := take_eq_ok h
        exact ⟨u, q, rest, gen, .inr ⟨by simpa using hempty, hrefill⟩, hu⟩
    · obtain ⟨q, rest, gen, hu⟩ := take_eq_ok h
      exact ⟨t, q, rest, gen, .inl rfl, hu⟩

/-- Asking for the next question shows one more. -/
theorem shown_of_next {shown : Shown} (h : t.next = (.ok shown, t')) :
    t'.shown = t.shown ++ [shown] := by
  obtain ⟨u, q, rest, gen, hu, -, -, -, rfl⟩ := next_eq_ok h
  rcases hu with rfl | ⟨-, hrefill⟩
  · rfl
  · obtain ⟨_, _, _, _, _, -, -, -, -, rfl⟩ := refill_eq_ok hrefill
    rfl

/-- Asking for the next question answers none. -/
theorem answers_of_next {shown : Shown} (h : t.next = (.ok shown, t')) : t'.answers = t.answers := by
  obtain ⟨u, q, rest, gen, hu, -, -, -, rfl⟩ := next_eq_ok h
  rcases hu with rfl | ⟨-, hrefill⟩
  · rfl
  · obtain ⟨_, _, _, _, _, -, -, -, -, rfl⟩ := refill_eq_ok hrefill
    rfl

/-- There is a next question if one is open or a block can be opened. -/
theorem next_succeeds (h : t.questions ≠ [] ∨ t.blocks ≠ [] ∧
    ∃ u, t.refill t.blocks = (.ok (), u) ∧ u.questions ≠ []) :
    ∃ shown t', t.next = (.ok shown, t') := by
  unfold next
  rw [if_neg (by
    simp only [finished, Bool.and_eq_true, List.isEmpty_iff]
    exact fun hnone => h.elim (· hnone.1) fun hopen => hopen.1 hnone.2)]
  by_cases hq : t.questions = []
  · obtain ⟨-, u, hrefill, hu⟩ := h.resolve_left (· hq)
    rw [if_pos (by simp [hq]), hrefill]
    exact take_succeeds hu
  · rw [if_neg (by simpa using hq)]
    exact take_succeeds hq

/-! ### An answer -/

/-- Where the traversal goes on after the choices were selected for a question. -/
def pendingAfter (t : Traversal) (q : Question) : List Choice → Option Key
  | [] => t.pending
  | c :: _ => if q.isBranch then q.destination? c else t.pending

theorem choices_of_select {shown : Shown} {choices : List Choice} {selections : List Selection}
    (h : shown.select choices = .ok selections) : selections.map (·.choice) = choices := by
  unfold Shown.select at h
  split at h
  · have hall := forall₂_of_mapM h
    clear h
    induction hall with
    | nil => rfl
    | @cons c selection choices selections hc _ ih =>
      have hchoice : selection.choice = c := by
        unfold Shown.selectOne at hc
        split at hc
        · cases hc
        · split at hc <;> cases hc
          rfl
      rw [List.map_cons, hchoice, ih]
  · cases h

theorem answer_eq_ok {q : Question} {choices : List Choice} (h : t.answer q choices = .ok t') :
    ∃ shown selections, t.shown.find? (·.question.key == q.key) = some shown ∧
      (∀ a ∈ t.answers, a.question.key ≠ q.key) ∧ shown.select choices = .ok selections ∧
      t' = { t with
        answers := t.answers ++ [⟨q, selections, .int t.answers.length⟩]
        pending := t.pendingAfter q choices } := by
  unfold answer at h
  split at h
  · cases h
  · rename_i shown hshown
    split at h
    · cases h
    · rename_i hnew
      obtain ⟨selections, hselect, h₁⟩ := bind_eq_ok.mp h
      cases h₁
      refine ⟨shown, selections, hshown, by simpa using hnew, hselect, ?_⟩
      cases choices <;> rfl

theorem selectOne_succeeds {shown : Shown} {c : Choice}
    (hkeys : ∀ selection ∈ shown.options, selection.choice.isKey = true)
    (hc : ∃ selection ∈ shown.options, (selection.choice == c) = true) :
    ∃ selection, shown.selectOne c = .ok selection := by
  obtain ⟨selection, hmem, heq⟩ := hc
  have hkey : c.isKey = true := Choice.isKey_of_beq heq (hkeys selection hmem)
  have hplace : (shown.place? c).isSome = true := by
    simp only [Shown.place?, Option.isSome_map, List.find?_isSome]
    exact ⟨selection, List.mem_reverse.mpr hmem, heq⟩
  obtain ⟨index, hindex⟩ := Option.isSome_iff_exists.mp hplace
  unfold Shown.selectOne
  rw [if_neg (by simp [hkey]), hindex]
  exact ⟨_, rfl⟩

/-- A question that was shown and not answered yet can be answered with what was shown, provided
that all that was shown can be looked up. -/
theorem answer_succeeds_iff {q : Question} {choices : List Choice} {shown : Shown}
    (hshown : t.shown.find? (·.question.key == q.key) = some shown)
    (hnew : ∀ a ∈ t.answers, a.question.key ≠ q.key)
    (hoffered : ∀ c ∈ choices, ∃ selection ∈ shown.options, (selection.choice == c) = true) :
    (∃ t', t.answer q choices = .ok t') ↔
      ∀ selection ∈ shown.options, selection.choice.isKey = true := by
  have hselect : (∃ selections, shown.select choices = .ok selections) ↔
      ∀ selection ∈ shown.options, selection.choice.isKey = true := by
    unfold Shown.select
    by_cases hkeys : ∀ selection ∈ shown.options, selection.choice.isKey = true
    · rw [if_pos (by simpa using hkeys)]
      exact ⟨fun _ => hkeys, fun _ => mapM_succeeds fun c hc =>
        selectOne_succeeds hkeys (hoffered c hc)⟩
    · rw [if_neg (by simpa using hkeys)]
      refine ⟨?_, fun h => absurd h hkeys⟩
      rintro ⟨_, h⟩
      cases h
  rw [← hselect]
  constructor
  · rintro ⟨t', h⟩
    obtain ⟨shown', selections, hshown', -, hselections, -⟩ := answer_eq_ok h
    obtain rfl : shown = shown' := Option.some.inj (hshown.symm.trans hshown')
    exact ⟨selections, hselections⟩
  · rintro ⟨selections, hselections⟩
    unfold answer
    rw [hshown]
    simp only
    rw [if_neg (by simpa using hnew), hselections]
    exact ⟨_, rfl⟩

/-! ### Going on to the end -/

theorem finish_eq_ok {choose : Shown → Trial (List Choice)} (h : t.finish choose = (.ok (), t')) :
    t.finished = true ∧ t' = t ∨ ∃ shown u choices gen w, t.next = (.ok shown, u) ∧
      choose shown u.gen = .ok (choices, gen) ∧
      ({ u with gen } : Traversal).answer shown.question choices = .ok w ∧
      w.finish choose = (.ok (), t') := by
  rw [finish] at h
  split at h
  · rename_i hdone
    cases h
    exact .inl ⟨hdone, rfl⟩
  · split at h
    · cases h
    · rename_i hnext
      split at h
      · cases h
      · rename_i hchoose
        split at h
        · cases h
        · rename_i hanswer
          exact .inr ⟨_, _, _, _, _, hnext, hchoose, hanswer, h⟩

/-- After a question was shown and answered, less is left. -/
theorem step_left {shown : Shown} {choices : List Choice} {gen : Gen} {w : Traversal}
    (hnext : t.next = (.ok shown, u))
    (hanswer : ({ u with gen } : Traversal).answer shown.question choices = .ok w) :
    Prod.Lex (· < ·) (· < ·) w.left t.left := by
  have hleft := answer_left hanswer
  simp only [left] at hleft ⊢
  rw [hleft]
  exact next_left hnext

/-- A question that is shown and answered, and then on to the end. -/
theorem finish_of_step {choose : Shown → Trial (List Choice)} {shown : Shown}
    {choices : List Choice} {gen : Gen} {w : Traversal} (hnot : t.finished = false)
    (hnext : t.next = (.ok shown, u)) (hchoose : choose shown u.gen = .ok (choices, gen))
    (hanswer : ({ u with gen } : Traversal).answer shown.question choices = .ok w) :
    t.finish choose = w.finish choose := by
  rw [finish, if_neg (by simp [hnot])]
  split
  · rename_i hfault
    cases hnext.symm.trans hfault
  · rename_i hnext'
    cases hnext.symm.trans hnext'
    rw [hchoose]
    dsimp only
    split
    · rename_i hfault
      cases hanswer.symm.trans hfault
    · rename_i hanswer'
      cases hanswer.symm.trans hanswer'
      rfl

/-- An answer that is refused ends the run. -/
theorem finish_of_fault {choose : Shown → Trial (List Choice)} {shown : Shown}
    {choices : List Choice} {gen : Gen} {fault : Fault} (hnot : t.finished = false)
    (hnext : t.next = (.ok shown, u)) (hchoose : choose shown u.gen = .ok (choices, gen))
    (hanswer : ({ u with gen } : Traversal).answer shown.question choices = .error fault) :
    t.finish choose = (.error fault, { u with gen }) := by
  rw [finish, if_neg (by simp [hnot])]
  split
  · rename_i hfault
    cases hnext.symm.trans hfault
  · rename_i hnext'
    cases hnext.symm.trans hnext'
    rw [hchoose]
    dsimp only
    split
    · rename_i hfault
      cases hanswer.symm.trans hfault
      rfl
    · rename_i hanswer'
      cases hanswer.symm.trans hanswer'

/-- The end of a run in which no more than so many questions are asked. -/
def finishWithin (choose : Shown → Trial (List Choice)) : Nat → Traversal → Option Traversal
  | 0, t => if t.finished then some t else none
  | n + 1, t =>
    if t.finished then some t
    else match t.next with
      | (.error _, _) => none
      | (.ok shown, u) =>
        match choose shown u.gen with
        | .error _ => none
        | .ok (choices, gen) =>
          match ({ u with gen } : Traversal).answer shown.question choices with
          | .error _ => none
          | .ok w => finishWithin choose n w

theorem finish_of_finishWithin {choose : Shown → Trial (List Choice)} :
    ∀ {n : Nat} {t : Traversal}, finishWithin choose n t = some t' →
      t.finish choose = (.ok (), t')
  | n, t, h => by
    cases hdone : t.finished with
    | true =>
      have hsame : t = t' := by cases n <;> simpa [finishWithin, hdone] using h
      rw [finish, if_pos hdone, hsame]
    | false =>
      cases n with
      | zero => simp [finishWithin, hdone] at h
      | succ n =>
        rw [finishWithin, if_neg (by simp [hdone])] at h
        split at h
        · cases h
        · rename_i hnext
          split at h
          · cases h
          · rename_i hchoose
            split at h
            · cases h
            · rename_i hanswer
              rw [finish_of_step hdone hnext hchoose hanswer]
              exact finish_of_finishWithin h

end Traversal

end Questionnaire
