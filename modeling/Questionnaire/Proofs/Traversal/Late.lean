/-
# Answers that come late

Questions may be asked for and answered in any order. An answer to a branching
question names the block to go on with whenever it comes, also when the next
question was shown meanwhile: the block may lie behind by then, or another one
may be pending.

What matters of the pending block is the route, the fixed blocks that are opened
if no other answer branches. Two traversals that differ in the answer only and
have the same route go on alike; with another route other blocks are opened. A
traversal whose route is empty asks in vain, unless a block that may move comes
last.

Key definitions: `Traversal.run`, `Traversal.route`, `Traversal.Alike`,
`Traversal.raises`.
Key theorems: `Traversal.next_route`, `Traversal.Alike.after`,
`Traversal.raises_iff_stranded`, `Traversal.late_answer`.
-/
import Questionnaire.Proofs.Survey.Leaves
import Questionnaire.Proofs.Traversal.Run

namespace Questionnaire.Traversal

/-! ### Any order of questions and answers -/

/-- What may be done with a traversal: the next question is asked for, an answer is given, or
others draw from its generator. -/
inductive Step where
  | next
  | answer (q : Question) (choices : List Choice)
  | draw (gen : Gen)

/-- The traversal after a step. An answer at fault changes nothing. -/
def after (t : Traversal) : Step → Traversal
  | .next => t.next.2
  | .answer q choices =>
    match t.answer q choices with
    | .ok u => u
    | .error _ => t
  | .draw gen => { t with gen }

/-- The traversal after the steps, failed ones included. -/
def run (t : Traversal) (steps : List Step) : Traversal := steps.foldl after t

/-- The traversals that are reached from a start in any order of steps. -/
def Reached (s : Survey) (t : Traversal) : Prop :=
  ∃ g first g' steps, start s g = .ok (first, g') ∧ t = first.run steps

/-- Whether the step answers the question with the key. -/
def Step.answers (key : Key) : Step → Bool
  | .answer q _ => q.key == key
  | _ => false

variable {s : Survey} {t t' u u' : Traversal} {key : Key}

theorem run_append (t : Traversal) (steps more : List Step) :
    t.run (steps ++ more) = (t.run steps).run more := List.foldl_append

/-! ### The blocks to come -/

theorem refill_suffix (t : Traversal) (bs : List Block) : (t.refill bs).2.blocks <:+ bs := by
  induction bs with
  | nil => simp [refill]
  | cons b bs ih =>
    unfold refill
    split
    · split <;> exact List.suffix_cons b bs
    · exact ih.trans (List.suffix_cons b bs)

theorem next_suffix (t : Traversal) : t.next.2.blocks <:+ t.blocks := by
  unfold next
  split
  · exact List.suffix_refl _
  · split
    · have hsuffix := t.refill_suffix t.blocks
      split
      · rename_i u hu
        rwa [hu] at hsuffix
      · rename_i u hu
        rw [hu] at hsuffix
        rwa [take_blocks]
    · rw [take_blocks]

/-- No step brings blocks back. -/
theorem after_suffix (t : Traversal) (step : Step) : (t.after step).blocks <:+ t.blocks := by
  cases step with
  | next => exact t.next_suffix
  | answer q choices =>
    simp only [after]
    split
    · rename_i hanswer
      obtain ⟨_, _, -, -, -, rfl⟩ := answer_eq_ok hanswer
      exact List.suffix_refl _
    · exact List.suffix_refl _
  | draw gen => exact List.suffix_refl _

/-- All blocks to come have something to show. -/
def Ready (t : Traversal) : Prop := ∀ b ∈ t.blocks, b.Filled

theorem Ready.after (h : t.Ready) (step : Step) : (t.after step).Ready :=
  fun b hb => h b ((t.after_suffix step).subset hb)

theorem Ready.run (h : t.Ready) : ∀ steps : List Step, (t.run steps).Ready := by
  intro steps
  induction steps generalizing t with
  | nil => exact h
  | cons step steps ih => exact ih (h.after step)

theorem Reached.ready (h : Reached s t) (hv : s.Valid) : t.Ready := by
  obtain ⟨g, first, g', steps, hstart, rfl⟩ := h
  refine Ready.run (fun b hb => ?_) steps
  obtain ⟨opened, rest, g₁, questions, -, harrange, -, rfl⟩ := start_eq_ok hstart
  have harranged := Survey.arranged_of_arrangeBlocks harrange
  exact hv.filled (harranged.mem (List.mem_cons_of_mem opened hb))

/-! ### The next question, if all blocks have something to show -/

/-- If all blocks are passed over, none is left. -/
theorem refill_of_passed (t : Traversal) : ∀ {bs : List Block},
    (∀ b ∈ bs, t.stopsAt b = false) → t.refill bs = (.error t.stuck, { t with blocks := [] })
  | [], _ => rfl
  | b :: bs, h => by
    have hb : ¬t.stopsAt b = true := by simp [h b List.mem_cons_self]
    rw [refill, if_neg (by exact hb),
      refill_of_passed t fun d hd => h d (List.mem_cons_of_mem b hd)]

/-- The three ways to go on from a traversal that is not finished: the next of the open questions
is shown, a block is opened and its first question is shown, or all blocks are passed over. -/
theorem Ready.next_cases (h : t.Ready) (hnot : t.finished = false) :
    (∃ q rest, t.questions = q :: rest ∧ t.next = t.take) ∨
    (t.questions = [] ∧ ∃ u, t.refill t.blocks = (.ok (), u) ∧ u.questions ≠ [] ∧
      t.next = u.take) ∨
    (t.questions = [] ∧ t.blocks ≠ [] ∧ (∀ b ∈ t.blocks, t.stopsAt b = false) ∧
      t.next = (.error t.stuck, { t with blocks := [] })) := by
  have hnext : ¬t.finished = true := by simp [hnot]
  by_cases hq : t.questions = []
  · by_cases hstop : ∃ b ∈ t.blocks, t.stopsAt b = true
    · obtain ⟨u, hrefill⟩ := refill_succeeds t h hstop
      refine .inr (.inl ⟨hq, u, hrefill, ?_, ?_⟩)
      · obtain ⟨passed, b, rest, questions, gen, hblocks, -, -, hexpand, rfl⟩ :=
          refill_eq_ok hrefill
        exact (b.shows_of_expand hexpand).ne_nil (h b (hblocks ▸ by simp))
      · rw [next, if_neg hnext, if_pos (by simp [hq]), hrefill]
    · have hpassed : ∀ b ∈ t.blocks, t.stopsAt b = false := by simpa using hstop
      have hblocks : t.blocks ≠ [] := by
        intro hnil
        simp [finished, hq, hnil] at hnot
      refine .inr (.inr ⟨hq, hblocks, hpassed, ?_⟩)
      rw [next, if_neg hnext, if_pos (by simp [hq]), refill_of_passed t hpassed]
  · obtain ⟨q, rest, hcons⟩ := List.exists_cons_of_ne_nil hq
    refine .inl ⟨q, rest, hcons, ?_⟩
    rw [next, if_neg hnext, if_neg (by simp [hq])]

theorem next_of_finished (h : t.finished = true) : t.next = (.error .finished, t) := by
  rw [next, if_pos h]

theorem take_of_cons {q : Question} {rest : List Question} (h : t.questions = q :: rest) :
    t.take = (.ok ⟨q, (q.present t.gen).1, t.shown.length⟩, { t with
      questions := rest, gen := (q.present t.gen).2
      shown := t.shown ++ [⟨q, (q.present t.gen).1, t.shown.length⟩] }) := by
  unfold take
  rw [h]
  rfl

/-! ### The route -/

/-- Which of the blocks are fixed and opened, if no other answer branches. -/
def routeFrom (t : Traversal) (bs : List Block) : List Block :=
  (fixedOf bs).dropWhile fun b => !t.stopsAt b

/-- The fixed blocks that are opened, if no other answer branches. -/
def route (t : Traversal) : List Block := t.routeFrom t.blocks

theorem routeFrom_moving {b : Block} (hb : b.isRandomizable = true) (bs : List Block) :
    t.routeFrom (b :: bs) = t.routeFrom bs := by
  simp [routeFrom, hb]

theorem routeFrom_passed {b : Block} (hstop : t.stopsAt b = false) (bs : List Block) :
    t.routeFrom (b :: bs) = t.routeFrom bs := by
  have hb : b.isRandomizable = false := by
    simp only [stopsAt, Bool.or_eq_false_iff] at hstop
    exact hstop.1
  simp [routeFrom, hb, hstop]

theorem routeFrom_stop {b : Block} (hb : b.isRandomizable = false) (hstop : t.stopsAt b = true)
    (bs : List Block) : t.routeFrom (b :: bs) = b :: fixedOf bs := by
  simp [routeFrom, hb, hstop]

theorem routeFrom_length_le (t : Traversal) (bs : List Block) :
    (t.routeFrom bs).length ≤ (fixedOf bs).length :=
  (List.dropWhile_suffix _).length_le

/-- The blocks that are passed over are not on the route. -/
theorem routeFrom_append {passed : List Block} (hpassed : ∀ b ∈ passed, t.stopsAt b = false)
    (bs : List Block) : t.routeFrom (passed ++ bs) = t.routeFrom bs := by
  induction passed with
  | nil => rfl
  | cons b passed ih =>
    rw [List.cons_append, routeFrom_passed (hpassed b List.mem_cons_self),
      ih fun d hd => hpassed d (List.mem_cons_of_mem b hd)]

theorem routeFrom_of_pending_eq_none (h : t.pending = none) (bs : List Block) :
    t.routeFrom bs = fixedOf bs := by
  have hstop : ∀ b, t.stopsAt b = true := fun b => by simp [stopsAt, h]
  unfold routeFrom
  cases fixedOf bs with
  | nil => rfl
  | cons b rest => simp [hstop]

theorem route_congr (hblocks : u.blocks = t.blocks) (hpending : u.pending = t.pending) :
    u.route = t.route := by
  have hstop : u.stopsAt = t.stopsAt := by
    funext b
    rw [stopsAt, stopsAt, hpending]
  rw [route, route, routeFrom, routeFrom, hblocks, hstop]

/-- A block that is opened leaves the route, and no other one does. -/
theorem refill_route (hrefill : t.refill t.blocks = (.ok (), u)) :
    fixedOf u.visited ++ u.route = fixedOf t.visited ++ t.route := by
  obtain ⟨passed, b, rest, questions, gen, hblocks, hpassed, hstop, -, rfl⟩ :=
    refill_eq_ok hrefill
  have hroute : t.route = t.routeFrom (b :: rest) := by
    rw [route, hblocks, routeFrom_append hpassed]
  rw [hroute]
  cases hb : b.isRandomizable with
  | true =>
    rw [routeFrom_moving hb]
    simp [fixedOf, hb, route, routeFrom, stopsAt]
  | false =>
    rw [routeFrom_stop hb hstop, route, routeFrom_of_pending_eq_none (by simp)]
    simp [fixedOf, hb]

/-- **Asking for questions opens the fixed blocks of the route, one after another.** -/
theorem Ready.next_route (h : t.Ready) :
    fixedOf t.next.2.visited ++ t.next.2.route = fixedOf t.visited ++ t.route := by
  cases hdone : t.finished with
  | true => rw [next_of_finished hdone]
  | false =>
    rcases h.next_cases hdone with ⟨q, rest, hq, hnext⟩ | ⟨-, u, hrefill, hq, hnext⟩ |
      ⟨-, -, hpassed, hnext⟩
    · rw [hnext, take_of_cons hq]
      rfl
    · obtain ⟨q, rest, hq⟩ := List.exists_cons_of_ne_nil hq
      rw [hnext, take_of_cons hq]
      exact (refill_route hrefill : fixedOf u.visited ++ u.route = _)
    · have hroute : t.route = [] := by
        have := routeFrom_append hpassed []
        rwa [List.append_nil] at this
      rw [hnext, hroute]
      rfl

/-! ### Asking in vain -/

/-- A question is asked for, though something is left to ask, and none is shown. -/
def raises (t : Traversal) : Prop := t.finished = false ∧ ∃ fault v, t.next = (.error fault, v)

theorem forall_stopsAt_iff {bs : List Block} : (∀ b ∈ bs, t.stopsAt b = false) ↔
    (∀ b ∈ bs, b.isRandomizable = false) ∧ t.routeFrom bs = [] := by
  rw [routeFrom, List.dropWhile_eq_nil_iff]
  constructor
  · intro h
    refine ⟨fun b hb => ?_, fun b hb => ?_⟩
    · have hb := h b hb
      simp only [stopsAt, Bool.or_eq_false_iff] at hb
      exact hb.1
    · simp [h b (List.mem_filter.mp hb).1]
  · rintro ⟨hfixed, hpassed⟩ b hb
    have hmem : b ∈ fixedOf bs := List.mem_filter.mpr ⟨hb, by simp [hfixed b hb]⟩
    simpa using hpassed b hmem

/-- That happens exactly if only fixed blocks are left and the route is empty. -/
theorem Ready.raises_iff (h : t.Ready) : t.raises ↔ t.questions = [] ∧ t.blocks ≠ [] ∧
    (∀ b ∈ t.blocks, b.isRandomizable = false) ∧ t.route = [] := by
  rw [route, ← forall_stopsAt_iff]
  constructor
  · rintro ⟨hnot, fault, v, hnext⟩
    rcases h.next_cases hnot with ⟨q, rest, hq, htake⟩ | ⟨-, u, -, hq, htake⟩ | ⟨hq, hblocks, hpassed, -⟩
    · rw [htake, take_of_cons hq] at hnext
      cases hnext
    · obtain ⟨q, rest, hq⟩ := List.exists_cons_of_ne_nil hq
      rw [htake, take_of_cons hq] at hnext
      cases hnext
    · exact ⟨hq, hblocks, hpassed⟩
  · rintro ⟨hq, hblocks, hpassed⟩
    refine ⟨by simp [finished, hblocks], t.stuck, { t with blocks := [] }, ?_⟩
    rw [next, if_neg (by simp [finished, hblocks]), if_pos (by simp [hq]),
      refill_of_passed t hpassed]

/-! ### Traversals that go on alike -/

/-- The traversals differ in what is pending and in answers to the question with the key only, and
have the same route. -/
structure Alike (key : Key) (t u : Traversal) : Prop where
  survey : u.survey = t.survey
  gen : u.gen = t.gen
  blocks : u.blocks = t.blocks
  questions : u.questions = t.questions
  shown : u.shown = t.shown
  visited : u.visited = t.visited
  answers : ∀ k ≠ key, u.answers.any (·.question.key == k) = t.answers.any (·.question.key == k)
  route : u.route = t.route

/-- If both stop at a block, both open it. -/
theorem Alike.refill_of_stop (h : Alike key t u) {b : Block} (hb : b.Filled) {bs : List Block}
    (ht : t.stopsAt b = true) (hu : u.stopsAt b = true)
    (hrest : b.isRandomizable = true → u.routeFrom bs = t.routeFrom bs) :
    ∃ t' u', t.refill (b :: bs) = (.ok (), t') ∧ u.refill (b :: bs) = (.ok (), u') ∧
      t'.questions ≠ [] ∧ Alike key t' u' := by
  obtain ⟨questions, gen, hexpand, hne, hrefill⟩ := Traversal.refill_of_stop hb ht bs
  obtain ⟨questions', gen', hexpand', -, hrefill'⟩ := Traversal.refill_of_stop hb hu bs
  rw [h.gen, hexpand] at hexpand'
  cases hexpand'
  refine ⟨_, _, hrefill, hrefill', hne, h.survey, rfl, rfl, rfl, h.shown, ?_, h.answers, ?_⟩
  · simp only [h.visited]
  · cases hmoves : b.isRandomizable with
    | true =>
      simp only [if_true]
      exact hrest hmoves
    | false =>
      simp only [Bool.false_eq_true, if_false]
      exact (routeFrom_of_pending_eq_none rfl bs).trans (routeFrom_of_pending_eq_none rfl bs).symm

/-- Of blocks on the same route the same one is opened, or all are passed over. -/
theorem Alike.refill (h : Alike key t u) : ∀ {bs : List Block}, (∀ b ∈ bs, b.Filled) →
    u.routeFrom bs = t.routeFrom bs →
      (∃ t' u', t.refill bs = (.ok (), t') ∧ u.refill bs = (.ok (), u') ∧ t'.questions ≠ [] ∧
        Alike key t' u') ∨
      ((∀ b ∈ bs, t.stopsAt b = false) ∧ ∀ b ∈ bs, u.stopsAt b = false)
  | [], _, _ => .inr ⟨by simp, by simp⟩
  | b :: bs, hfilled, hroute => by
    have hb := hfilled b List.mem_cons_self
    cases hmoves : b.isRandomizable with
    | true =>
      rw [routeFrom_moving hmoves, routeFrom_moving hmoves] at hroute
      exact .inl (h.refill_of_stop hb (by simp [stopsAt, hmoves]) (by simp [stopsAt, hmoves])
        fun _ => hroute)
    | false =>
      cases ht : t.stopsAt b <;> cases hu : u.stopsAt b
      · rw [routeFrom_passed ht, routeFrom_passed hu] at hroute
        rcases Alike.refill h (fun d hd => hfilled d (List.mem_cons_of_mem b hd)) hroute with
          ⟨t', u', hrefill, hrefill', hrest⟩ | ⟨hpassed, hpassed'⟩
        · refine .inl ⟨t', u', ?_, ?_, hrest⟩
          · rw [Traversal.refill, if_neg (by exact ne_true_of_eq_false ht), hrefill]
          · rw [Traversal.refill, if_neg (by exact ne_true_of_eq_false hu), hrefill']
        · exact .inr ⟨List.forall_mem_cons.mpr ⟨ht, hpassed⟩, List.forall_mem_cons.mpr ⟨hu, hpassed'⟩⟩
      · have hshort := t.routeFrom_length_le bs
        rw [routeFrom_passed ht, routeFrom_stop hmoves hu] at hroute
        rw [← hroute, List.length_cons] at hshort
        omega
      · have hshort := u.routeFrom_length_le bs
        rw [routeFrom_passed hu, routeFrom_stop hmoves ht] at hroute
        rw [hroute, List.length_cons] at hshort
        omega
      · exact .inl (h.refill_of_stop hb ht hu fun hmove => absurd hmove (by simp [hmoves]))

theorem Alike.finished (h : Alike key t u) : u.finished = t.finished := by
  rw [Traversal.finished, Traversal.finished, h.questions, h.blocks]

theorem Alike.ready (h : Alike key t u) (ht : t.Ready) : u.Ready := by
  rw [Ready, h.blocks]
  exact ht

theorem Alike.take (h : Alike key t u) : Alike key t.take.2 u.take.2 := by
  cases hq : t.questions with
  | nil =>
    have hq' := h.questions.trans hq
    rw [Traversal.take, hq, Traversal.take, hq']
    exact h
  | cons q rest =>
    rw [take_of_cons hq, take_of_cons (h.questions.trans hq)]
    refine ⟨h.survey, ?_, h.blocks, rfl, ?_, h.visited, h.answers, h.route⟩
    · simp only [h.gen]
    · simp only [h.gen, h.shown]

/-- Asking both for the next question keeps them alike. -/
theorem Alike.next (h : Alike key t u) (ht : t.Ready) : Alike key t.next.2 u.next.2 := by
  cases hdone : t.finished with
  | true =>
    rw [next_of_finished hdone, next_of_finished (h.finished.trans hdone)]
    exact h
  | false =>
    have hnot : ¬t.finished = true := by simp [hdone]
    have hnot' : ¬u.finished = true := by simp [h.finished, hdone]
    rw [Traversal.next, if_neg hnot, Traversal.next, if_neg hnot', h.questions, h.blocks]
    cases hq : t.questions.isEmpty with
    | false => exact h.take
    | true =>
      have hroute : u.routeFrom t.blocks = t.routeFrom t.blocks := by
        have hroute := h.route
        rwa [Traversal.route, Traversal.route, h.blocks] at hroute
      rcases h.refill ht hroute with ⟨t', u', hrefill, hrefill', -, halike⟩ | ⟨hpassed, hpassed'⟩
      · rw [hrefill, hrefill']
        exact halike.take
      · rw [refill_of_passed t hpassed, refill_of_passed u hpassed']
        exact ⟨h.survey, h.gen, rfl, h.questions, h.shown, h.visited, h.answers, rfl⟩

/-- An answer to another question keeps them alike. -/
theorem Alike.answer (h : Alike key t u) {q : Question} (hq : q.key ≠ key)
    (choices : List Choice) : Alike key (t.after (.answer q choices)) (u.after (.answer q choices)) := by
  dsimp only [Traversal.after, Traversal.answer]
  rw [h.shown, h.answers q.key hq]
  cases t.shown.find? (·.question.key == q.key) with
  | none => exact h
  | some shown =>
    cases t.answers.any (·.question.key == q.key) with
    | true => exact h
    | false =>
      simp only [Bool.false_eq_true, if_false]
      cases shown.select choices with
      | error fault => exact h
      | ok selections =>
        have hanswers : ∀ k ≠ key, ∀ m n : Document,
            (u.answers ++ [Answer.mk q selections m]).any (·.question.key == k) =
              (t.answers ++ [Answer.mk q selections n]).any (·.question.key == k) := by
          intro k hk m n
          rw [List.any_append, List.any_append, h.answers k hk]
          rfl
        refine ⟨h.survey, h.gen, h.blocks, h.questions, rfl, h.visited,
          fun k hk => hanswers k hk _ _, ?_⟩
        cases choices with
        | nil => exact h.route
        | cons c choices =>
          cases hbranch : q.isBranch with
          | false => exact h.route
          | true => exact route_congr h.blocks rfl

/-- **Two traversals that are alike stay alike**, as long as the question is not answered. -/
theorem Alike.after (h : Alike key t u) (ht : t.Ready) {step : Step}
    (hstep : step.answers key = false) : Alike key (t.after step) (u.after step) := by
  cases step with
  | next => exact h.next ht
  | answer q choices => exact h.answer (by simpa [Step.answers] using hstep) choices
  | draw gen =>
    exact ⟨h.survey, rfl, h.blocks, h.questions, h.shown, h.visited, h.answers, h.route⟩

theorem Alike.run (h : Alike key t u) (ht : t.Ready) : ∀ {steps : List Step},
    (∀ step ∈ steps, step.answers key = false) → Alike key (t.run steps) (u.run steps) := by
  intro steps hsteps
  induction steps generalizing t u with
  | nil => exact h
  | cons step steps ih =>
    rw [List.forall_mem_cons] at hsteps
    exact ih (h.after ht hsteps.1) (ht.after step) hsteps.2

theorem Alike.raises_iff (h : Alike key t u) (ht : t.Ready) : u.raises ↔ t.raises := by
  rw [(h.ready ht).raises_iff, ht.raises_iff, h.questions, h.blocks, h.route]

/-! ### Asking to the end -/

/-- The traversal after asking for as many questions, without an answer. -/
def asked (t : Traversal) (n : Nat) : Traversal := t.run (List.replicate n .next)

theorem asked_zero (t : Traversal) : t.asked 0 = t := rfl

theorem asked_succ (t : Traversal) (n : Nat) : t.asked (n + 1) = t.next.2.asked n := rfl

theorem asked_add (t : Traversal) (m n : Nat) : t.asked (m + n) = (t.asked m).asked n := by
  rw [asked, List.replicate_add, run_append]
  rfl

theorem asked_of_finished (h : t.finished = true) : ∀ n, t.asked n = t
  | 0 => rfl
  | n + 1 => by
    rw [asked_succ, next_of_finished h]
    exact asked_of_finished h n

/-- Asking for questions comes to an end. -/
theorem Ready.exists_finished {t : Traversal} (h : t.Ready) :
    ∃ n, (t.asked n).finished = true := by
  cases hdone : t.finished with
  | true => exact ⟨0, hdone⟩
  | false =>
    cases hnext : t.next with
    | mk result u =>
      cases result with
      | ok shown =>
        have hready : u.Ready := by
          have := h.after .next
          rwa [Traversal.after, hnext] at this
        obtain ⟨n, hn⟩ := hready.exists_finished
        exact ⟨n + 1, by rw [asked_succ, hnext]; exact hn⟩
      | error fault =>
        -- then all that was left was passed over
        rcases h.next_cases hdone with ⟨q, rest, hq, htake⟩ | ⟨-, v, -, hq, htake⟩ |
          ⟨hq, -, -, hpassed⟩
        · rw [htake, take_of_cons hq] at hnext
          cases hnext
        · obtain ⟨q, rest, hq⟩ := List.exists_cons_of_ne_nil hq
          rw [htake, take_of_cons hq] at hnext
          cases hnext
        · refine ⟨1, ?_⟩
          rw [asked_succ, asked_zero, hpassed]
          exact finished_iff.mpr ⟨hq, rfl⟩
termination_by t.left
decreasing_by exact next_left hnext

/-- **Asked to its end, a traversal opens the route.** -/
theorem Ready.asked_route (h : t.Ready) : ∀ n,
    fixedOf (t.asked n).visited ++ (t.asked n).route = fixedOf t.visited ++ t.route := by
  intro n
  induction n generalizing t with
  | zero => rfl
  | succ n ih =>
    have hready : t.next.2.Ready := h.after .next
    rw [asked_succ, ih hready, h.next_route]

/-- The route is empty, and the last of the blocks to come is a fixed one. -/
def Stranded (t : Traversal) : Prop :=
  t.route = [] ∧ ∃ b, t.blocks.getLast? = some b ∧ b.isRandomizable = false

theorem not_stranded_of_none (hpending : t.pending = none) : ¬t.Stranded := by
  rintro ⟨hroute, b, hlast, hfixed⟩
  rw [route, routeFrom_of_pending_eq_none hpending] at hroute
  have hmem : b ∈ fixedOf t.blocks :=
    List.mem_filter.mpr ⟨List.mem_of_getLast? hlast, by simp [hfixed]⟩
  rw [hroute] at hmem
  cases hmem

/-- Opening a block neither strands a traversal nor saves it. -/
theorem refill_stranded (hrefill : t.refill t.blocks = (.ok (), u)) : u.Stranded ↔ t.Stranded := by
  obtain ⟨passed, b, rest, questions, gen, hblocks, hpassed, hstop, -, rfl⟩ :=
    refill_eq_ok hrefill
  have hroute : t.route = t.routeFrom (b :: rest) := by
    rw [route, hblocks, routeFrom_append hpassed]
  cases hmoves : b.isRandomizable with
  | false =>
    refine ⟨fun h => absurd h (not_stranded_of_none (by simp)), ?_⟩
    rintro ⟨hnil, -⟩
    rw [hroute, routeFrom_stop hmoves hstop] at hnil
    cases hnil
  | true =>
    rw [routeFrom_moving hmoves] at hroute
    have hlast : t.blocks.getLast? = (b :: rest).getLast? := by
      rw [hblocks, List.getLast?_append_of_ne_nil _ (List.cons_ne_nil b rest)]
    rw [Stranded, Stranded, hroute, hlast]
    cases rest with
    | nil => simp [hmoves]
    | cons c rest => rfl

theorem Ready.stranded_of_raises (h : t.Ready) (hraises : t.raises) : t.Stranded := by
  obtain ⟨-, hblocks, hfixed, hroute⟩ := h.raises_iff.mp hraises
  obtain ⟨b, hb⟩ := Option.isSome_iff_exists.mp (List.getLast?_isSome.mpr hblocks)
  exact ⟨hroute, b, hb, hfixed b (List.mem_of_getLast? hb)⟩

/-- A question that is shown neither strands a traversal nor saves it. -/
theorem next_stranded {shown : Shown} (hnext : t.next = (.ok shown, u)) :
    u.Stranded ↔ t.Stranded := by
  obtain ⟨v, q, rest, gen, hv, -, -, -, rfl⟩ := next_eq_ok hnext
  rcases hv with rfl | ⟨-, hrefill⟩
  · rfl
  · exact (refill_stranded hrefill : v.Stranded ↔ _)

/-- **A question is asked for in vain before the end exactly if the traversal is stranded.** -/
theorem Ready.raises_iff_stranded {t : Traversal} (h : t.Ready) :
    (∃ n, (t.asked n).raises) ↔ t.Stranded := by
  by_cases hraises : t.raises
  · exact ⟨fun _ => h.stranded_of_raises hraises, fun _ => ⟨0, hraises⟩⟩
  cases hdone : t.finished with
  | true =>
    constructor
    · rintro ⟨n, hn⟩
      rw [asked_of_finished hdone] at hn
      exact absurd hn hraises
    · rintro ⟨-, b, hb, -⟩
      rw [(finished_iff.mp hdone).2] at hb
      cases hb
  | false =>
    cases hnext : t.next with
    | mk result u =>
      cases result with
      | error fault => exact absurd ⟨hdone, fault, u, hnext⟩ hraises
      | ok shown =>
        have hready : u.Ready := by
          have hafter := h.after .next
          rwa [Traversal.after, hnext] at hafter
        rw [← next_stranded hnext, ← hready.raises_iff_stranded]
        constructor
        · rintro ⟨n, hn⟩
          cases n with
          | zero => exact absurd hn hraises
          | succ n =>
            rw [asked_succ, hnext] at hn
            exact ⟨n, hn⟩
        · rintro ⟨n, hn⟩
          exact ⟨n + 1, by rw [asked_succ, hnext]; exact hn⟩
termination_by t.left
decreasing_by exact next_left hnext

/-! ### The answer -/

/-- Traversals that open the same blocks whatever is asked have the same route. -/
theorem route_eq_of_visited (ht : t.Ready) (hu : u.Ready)
    (h : ∀ n, (u.asked n).visited = (t.asked n).visited) : u.route = t.route := by
  obtain ⟨m, hm⟩ := ht.exists_finished
  obtain ⟨n, hn⟩ := hu.exists_finished
  have ended : ∀ {v : Traversal}, v.finished = true → v.route = [] := by
    intro v hv
    rw [route, (finished_iff.mp hv).2]
    rfl
  have hleft : (t.asked (m + n)).route = [] := by
    rw [asked_add, asked_of_finished hm]
    exact ended hm
  have hright : (u.asked (m + n)).route = [] := by
    rw [Nat.add_comm, asked_add, asked_of_finished hn]
    exact ended hn
  have htotal : fixedOf u.visited ++ u.route = fixedOf t.visited ++ t.route := by
    rw [← hu.asked_route (m + n), ← ht.asked_route (m + n), hleft, hright, h]
  have hvisited : u.visited = t.visited := h 0
  rw [hvisited] at htotal
  exact List.append_cancel_left htotal

/-- An answer that keeps the route makes no difference to other steps. -/
theorem alike_of_answer {q : Question} {choices : List Choice}
    (hanswer : t.answer q choices = .ok u) (hroute : u.route = t.route) : Alike q.key t u := by
  obtain ⟨shown, selections, -, -, -, rfl⟩ := answer_eq_ok hanswer
  refine ⟨rfl, rfl, rfl, rfl, rfl, rfl, fun k hk => ?_, hroute⟩
  rw [List.any_append]
  simp [hk.symm]

/-- **What an answer to a branching question does, whenever it comes.** It leaves the pending block
as it was exactly if it selects nothing or its first choice leads there. The blocks that are opened
later are those that are opened without the answer exactly if the route is the same, and then a
question is asked for in vain exactly if it is without the answer; this happens in the end exactly
to the traversals that are stranded. -/
theorem late_answer (hv : s.Valid) (h : Reached s t) {q : Question} {choices : List Choice}
    (hbranch : q.isBranch = true) (hanswer : t.answer q choices = .ok u) :
    (u.pending = t.pending ↔ ∀ c ∈ choices.head?, q.destination? c = t.pending) ∧
    (u.pending = t.pending → u.route = t.route) ∧
    ((∀ steps, (∀ step ∈ steps, Step.answers q.key step = false) →
      (u.run steps).visited = (t.run steps).visited) ↔ u.route = t.route) ∧
    (u.route = t.route → ∀ steps, (∀ step ∈ steps, Step.answers q.key step = false) →
      ((u.run steps).raises ↔ (t.run steps).raises)) ∧
    ((∃ n, (t.asked n).raises) ↔ t.Stranded) ∧ ((∃ n, (u.asked n).raises) ↔ u.Stranded) := by
  have ht := h.ready hv
  have hu : u.Ready := by
    obtain ⟨_, _, -, -, -, rfl⟩ := answer_eq_ok hanswer
    exact ht
  refine ⟨?_, ?_, ?_, ?_, ht.raises_iff_stranded, hu.raises_iff_stranded⟩
  · obtain ⟨_, _, -, -, -, rfl⟩ := answer_eq_ok hanswer
    cases choices <;> simp [pendingAfter, hbranch]
  · obtain ⟨_, _, -, -, -, rfl⟩ := answer_eq_ok hanswer
    exact fun hpending => route_congr rfl hpending
  · constructor
    · intro hvisited
      refine route_eq_of_visited ht hu fun n => hvisited _ fun step hstep => ?_
      rw [List.eq_of_mem_replicate hstep]
      rfl
    · exact fun hroute steps hsteps => ((alike_of_answer hanswer hroute).run ht hsteps).visited
  · intro hroute steps hsteps
    exact ((alike_of_answer hanswer hroute).run ht hsteps).raises_iff (ht.run steps)

/-! ### An answer after its branch was passed -/

/-- A document whose first question leads to the second of its three blocks. -/
def lateDocument : Document := .record [
  ("name", .str "late"),
  ("blocks", .list [
    blockEntry "1" [("options", .list [choiceEntry "a"]), ("branch_map", .record [("a", .str "2")])],
    blockEntry "2" [], blockEntry "3" []])]

/-- The question that branches. -/
def lateFirst : Question := plainQuestion 0 "1" [plainChoice "a"] [(plainChoice "a", ⟨0, 1⟩)]

/-- The question that it leads to. -/
def lateSecond : Question := plainQuestion 1 "2" [] []

/-- The survey of the document. -/
def lateSurvey : Survey where
  name := .str "late"
  blocks := [plainBlock 0 "1" lateFirst, plainBlock 1 "2" lateSecond,
    plainBlock 2 "3" (plainQuestion 2 "3" [] [])]

/-- The traversal of the survey with two questions shown and none answered. -/
def lateShown : Traversal where
  survey := lateSurvey
  gen := ⟨4354685564936845354⟩
  blocks := [plainBlock 2 "3" (plainQuestion 2 "3" [] [])]
  questions := []
  pending := none
  shown := [⟨lateFirst, [⟨plainChoice "a", .int 0⟩], 0⟩, ⟨lateSecond, [], 1⟩]
  answers := []
  visited := [plainBlock 0 "1" lateFirst, plainBlock 1 "2" lateSecond]

/-- The traversal after the first of them is answered. -/
def lateAnswered : Traversal :=
  { lateShown with
    pending := some ⟨0, 1⟩
    answers := [⟨lateFirst, [⟨plainChoice "a", .int 0⟩], .int 0⟩] }

theorem reached_lateShown : Reached lateSurvey lateShown := by
  refine ⟨⟨0⟩, { lateShown with
    blocks := [plainBlock 1 "2" lateSecond, plainBlock 2 "3" (plainQuestion 2 "3" [] [])]
    questions := [lateFirst], shown := [], visited := [plainBlock 0 "1" lateFirst] },
    ⟨4354685564936845354⟩, [.next, .next], ?_, ?_⟩
  · cbv
  · cbv

theorem answer_lateShown : lateShown.answer lateFirst [plainChoice "a"] = .ok lateAnswered := by cbv

theorem late_answer_passed : lateSurvey.Valid ∧ Reached lateSurvey lateShown ∧
    lateFirst.isBranch = true ∧
    lateShown.answer lateFirst [plainChoice "a"] = .ok lateAnswered ∧
    ((∃ n, (lateShown.asked n).raises) ↔ lateShown.Stranded) ∧
    ((∃ n, (lateAnswered.asked n).raises) ↔ lateAnswered.Stranded) := by
  have hvalid : lateSurvey.Valid := by decide
  obtain ⟨-, -, -, -, hshown, hanswered⟩ :=
    late_answer hvalid reached_lateShown rfl answer_lateShown
  exact ⟨hvalid, reached_lateShown, rfl, answer_lateShown, hshown, hanswered⟩

/-- A late answer makes the block that was passed pending. The last block is not opened then, as it
is without the answer, and the next question is asked for in vain. -/
theorem late_branches : Survey.ofDocument 0 lateDocument = .ok lateSurvey ∧ lateSurvey.Valid ∧
    Reached lateSurvey lateShown ∧ lateFirst.isBranch = true ∧
    lateShown.shown.map (·.question.key) = [lateFirst.key, lateSecond.key] ∧
    lateShown.answer lateFirst [plainChoice "a"] = .ok lateAnswered ∧
    lateShown.pending = none ∧ lateAnswered.pending = some ⟨0, 1⟩ ∧
    (lateShown.run [.next]).visited.length = 3 ∧ (lateAnswered.run [.next]).visited.length = 2 ∧
    lateAnswered.raises := by
  have hread : Survey.ofDocument 0 lateDocument = .ok lateSurvey := by
    unfold Survey.ofDocument
    rw [@readBlocks_leaves 0 lateDocument [_, _, _] (by cbv) (by cbv)]
    cbv
  refine ⟨hread, by decide, reached_lateShown, rfl, rfl, answer_lateShown, rfl, rfl, by cbv, by cbv,
    by cbv, lateAnswered.stuck, { lateAnswered with blocks := [] }, by cbv⟩

end Questionnaire.Traversal
