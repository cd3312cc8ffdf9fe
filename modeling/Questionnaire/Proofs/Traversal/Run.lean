/-
# Runs of a traversal

A respondent may leave questions unanswered and may answer those that do not
branch at any time, but a branching question is answered, if at all, before the
next question is asked for. The traversals that such respondents reach are
`Prompt`; others may draw from the same generator in between.

The blocks of a traversal come in one order, `Survey.Arranged`. The ghost state
`Course` says what of it lies behind and what was shown of it, and `OnCourse` is
the invariant: the blocks to come are the rest of the order, all blocks behind
that may move were opened, and what was shown are the questions that the opened
blocks show. A pending destination is one of the blocks to come.

Key definitions: `Prompt`, `Survey.Arranged`, `Course`, `Traversal.OnCourse`,
`Traversal.Sound`.
Key theorems: `Survey.Arranged.ahead`, `Traversal.Sound.next`,
`Traversal.Sound.answer`.
-/
import Questionnaire.Proofs.Traversal.Step

namespace Questionnaire

/-- The blocks that keep their place. -/
abbrev fixedOf (bs : List Block) : List Block := bs.filter (!·.isRandomizable)

/-- The traversals of respondents who answer a branching question, if at all, while it is the one
that was shown last. -/
inductive Prompt (s : Survey) : Traversal → Prop
  | start {g g' : Gen} {t : Traversal} : Traversal.start s g = .ok (t, g') → Prompt s t
  | next {t t' : Traversal} {shown : Shown} : Prompt s t → t.next = (.ok shown, t') → Prompt s t'
  | answer {t t' : Traversal} {q : Question} {choices : List Choice} : Prompt s t →
    q ∈ s.questions →
    (q.isBranch = true → ∃ shown, t.shown.getLast? = some shown ∧ shown.question = q) →
    t.answer q choices = .ok t' → Prompt s t'
  | draw {t : Traversal} (gen : Gen) : Prompt s t → Prompt s { t with gen }

/-! ### The order of the blocks -/

/-- An order in which one respondent may meet the blocks at the top level. -/
structure Survey.Arranged (s : Survey) (order : List Block) : Prop where
  perm : order.Perm s.blocks
  fixed : sortBlocks s.fixedBlocks = .ok (fixedOf order)

namespace Survey

variable {s : Survey} {order : List Block}

theorem arranged_of_arrangeBlocks {g g' : Gen} (h : s.arrangeBlocks g = .ok (order, g')) :
    s.Arranged order := by
  obtain ⟨sorted, hsorted, hperm, hfixed⟩ := arrangeBlocks_eq_ok h
  refine ⟨hperm.trans (inNaturalOrder_perm hsorted), ?_⟩
  rw [fixedOf, hfixed]
  exact inNaturalOrder_filter _ hsorted

theorem Arranged.mem (h : s.Arranged order) {b : Block} (hb : b ∈ order) : b ∈ s.blocks :=
  h.perm.mem_iff.mp hb

theorem Arranged.nodup (h : s.Arranged order) (hs : s.Coherent) : (order.map (·.key)).Nodup := by
  refine (h.perm.map _).nodup_iff.mpr ?_
  exact ((Block.sublist_preorders s.blocks).map _).nodup hs.blocks

/-- **What a branch leads to is still to come.** -/
theorem Arranged.ahead (h : s.Arranged order) {behind rest : List Block} {b : Block}
    (horder : order = behind ++ b :: rest) {target : Key} (hahead : s.LeadsAhead b target) :
    ∃ dest ∈ rest, dest.key = target ∧ dest.isRandomizable = false := by
  have hsplit : fixedOf order = fixedOf behind ++ b :: fixedOf rest := by
    rw [horder, fixedOf, List.filter_append, List.filter_cons_of_pos (by simp [hahead.fixed])]
  obtain ⟨dest, hdest, hkey⟩ := hahead.after h.fixed hsplit
  obtain ⟨hmem, hfixed⟩ := List.mem_filter.mp hdest
  exact ⟨dest, hmem, hkey, by simpa using hfixed⟩

end Survey

/-! ### Where a traversal stands -/

/-- What lies behind a traversal: the blocks before the one that is open, which of them were
opened, and what was shown of those and of the open one. -/
structure Course where
  behind : List Block
  earlier : List Block
  current : Block
  past : List (List Question)
  done : List Question

/-- The traversal has come this far in the order of the blocks. -/
structure Traversal.OnCourse (t : Traversal) (order : List Block) (c : Course) : Prop where
  splits : order = c.behind ++ c.current :: t.blocks
  visited : t.visited = c.earlier ++ [c.current]
  opened : c.earlier.Sublist c.behind
  moving : c.earlier.filter (·.isRandomizable) = c.behind.filter (·.isRandomizable)
  past : List.Forall₂ Block.Shows c.earlier c.past
  present : c.current.Shows (c.done ++ t.questions)
  shown : t.shown.map (·.question) = c.past.flatten ++ c.done

namespace Traversal.OnCourse

variable {s : Survey} {t t' u : Traversal} {order : List Block} {c : Course}

/-- Opening the next block. -/
theorem refill (h : t.OnCourse order c) (hq : t.questions = [])
    (hrefill : t.refill t.blocks = (.ok (), u)) :
    ∃ passed b, t.blocks = passed ++ b :: u.blocks ∧ (∀ d ∈ passed, t.stopsAt d = false) ∧
      t.stopsAt b = true ∧ u.pending = (if b.isRandomizable then t.pending else none) ∧
      u.shown = t.shown ∧ u.answers = t.answers ∧
      u.OnCourse order ⟨c.behind ++ c.current :: passed, c.earlier ++ [c.current], b,
        c.past ++ [c.done], []⟩ := by
  obtain ⟨passed, b, rest, questions, gen, hblocks, hpassed, hstop, hexpand, rfl⟩ :=
    refill_eq_ok hrefill
  refine ⟨passed, b, hblocks, hpassed, hstop, rfl, rfl, rfl, ?_⟩
  have hmoving : passed.filter (·.isRandomizable) = [] := by
    refine List.filter_eq_nil_iff.mpr fun d hd => ?_
    have := hpassed d hd
    simp only [stopsAt, Bool.or_eq_false_iff] at this
    simp [this.1]
  constructor
  · rw [h.splits, hblocks]
    simp
  · simp only [h.visited]
  · exact h.opened.append ((List.nil_sublist passed).cons_cons _)
  · have hsplit : c.behind ++ c.current :: passed = (c.behind ++ [c.current]) ++ passed := by simp
    rw [hsplit, List.filter_append, List.filter_append, List.filter_append, hmoving, h.moving,
      List.append_nil]
  · have hdone : c.current.Shows c.done := by simpa [hq] using h.present
    exact List.rel_append h.past (.cons hdone .nil)
  · simpa using b.shows_of_expand hexpand
  · simpa using h.shown

/-- Taking the next of the open questions. -/
theorem take (h : t.OnCourse order c) {q : Question} {rest : List Question} {gen : Gen}
    {shown : Shown} (hq : t.questions = q :: rest) (hshown : shown.question = q) :
    ({ t with questions := rest, gen, shown := t.shown ++ [shown] } : Traversal).OnCourse order
      { c with done := c.done ++ [q] } := by
  refine ⟨h.splits, h.visited, h.opened, h.moving, h.past, ?_, ?_⟩
  · simpa [hq] using h.present
  · simp [h.shown, hshown]

/-- A question that was shown is in or under a block that was opened. -/
theorem owner (h : t.OnCourse order c) {shown : Shown} (hshown : shown ∈ t.shown) :
    ∃ b ∈ t.visited, shown.question ∈ b.allQuestions := by
  have hmem : shown.question ∈ c.past.flatten ++ c.done :=
    h.shown ▸ List.mem_map_of_mem hshown
  rcases List.mem_append.mp hmem with hpast | hdone
  · obtain ⟨qs, hqs, hq⟩ := List.mem_flatten.mp hpast
    obtain ⟨b, hb, hshows⟩ := exists_of_mem_right h.past hqs
    exact ⟨b, h.visited ▸ List.mem_append_left _ hb, hshows.subperm.subset hq⟩
  · refine ⟨c.current, by simp [h.visited], h.present.subperm.subset ?_⟩
    exact List.mem_append_left _ hdone

/-- When no question is open, all that the opened blocks show was shown. -/
theorem shows_of_visited (h : t.OnCourse order c) (hq : t.questions = []) {b : Block}
    (hb : b ∈ t.visited) :
    ∃ qs, b.Shows qs ∧ ∀ q ∈ qs, ∃ shown ∈ t.shown, shown.question = q := by
  have hmem : ∀ q ∈ c.past.flatten ++ c.done, ∃ shown ∈ t.shown, shown.question = q :=
    fun q hq => List.mem_map.mp (h.shown ▸ hq)
  rw [h.visited] at hb
  rcases List.mem_append.mp hb with hb | hb
  · obtain ⟨qs, hqs, hshows⟩ := exists_of_mem_right h.past.flip hb
    exact ⟨qs, hshows, fun q hq =>
      hmem q (List.mem_append_left _ (List.mem_flatten.mpr ⟨qs, hqs, hq⟩))⟩
  · obtain rfl := List.mem_singleton.mp hb
    have hpresent := h.present
    rw [hq, List.append_nil] at hpresent
    exact ⟨c.done, hpresent, fun q hq => hmem q (List.mem_append_right _ hq)⟩

/-- The question that was shown last belongs to the open block. -/
theorem latest (h : t.OnCourse order c) (hfresh : c.done = [] → t.shown = []) {shown : Shown}
    (hlast : t.shown.getLast? = some shown) : shown.question ∈ c.current.allQuestions := by
  have hne : c.done ≠ [] := fun hdone => by simp [hfresh hdone] at hlast
  have hquestion : c.done.getLast? = some shown.question := by
    have hmap : (t.shown.map (·.question)).getLast? = some shown.question := by
      rw [List.getLast?_map, hlast]
      rfl
    rwa [h.shown, List.getLast?_append_of_ne_nil _ hne] at hmap
  exact h.present.subperm.subset (List.mem_append_left _ (List.mem_of_getLast? hquestion))

/-- All that was and can be shown are questions of the blocks, each at most once. -/
theorem subperm (h : t.OnCourse order c) :
    (t.shown.map (·.question) ++ t.questions ++ questionsUnder t.blocks).Subperm
      (questionsUnder order) := by
  have hpast : c.past.flatten.Subperm (questionsUnder c.behind) :=
    (Block.Shows.subperm_flatten h.past).trans (questionsUnder_sublist h.opened).subperm
  rw [h.splits, questionsUnder_append, questionsUnder_cons, h.shown]
  simpa using hpast.append (h.present.subperm.append (List.Subperm.refl (questionsUnder t.blocks)))

end Traversal.OnCourse

/-! ### What all runs keep -/

/-- The traversal is on course in an order of the survey. Questions were shown with their own
choices, what was answered was shown, and a pending destination is still to come. -/
structure Traversal.Sound (s : Survey) (t : Traversal) (order : List Block) (c : Course) : Prop
    extends t.OnCourse order c where
  arranged : s.Arranged order
  own : ∀ shown ∈ t.shown, (shown.options.map (·.choice)).Perm shown.question.choices
  answered : ∀ a ∈ t.answers, ∃ shown ∈ t.shown, shown.question = a.question
  ahead : ∀ key, t.pending = some key → ∃ b ∈ t.blocks, b.key = key ∧ b.isRandomizable = false

namespace Traversal.Sound

variable {s : Survey} {t t' u : Traversal} {order : List Block} {c : Course}

theorem mem_of_blocks (h : t.Sound s order c) {b : Block} (hb : b ∈ t.blocks) : b ∈ s.blocks :=
  h.arranged.mem (h.splits ▸ by simp [hb])

theorem mem_of_visited (h : t.Sound s order c) {b : Block} (hb : b ∈ t.visited) : b ∈ s.blocks := by
  refine h.arranged.mem ?_
  rw [h.visited] at hb
  rw [h.splits]
  rcases List.mem_append.mp hb with hb | hb
  · exact List.mem_append_left _ (h.opened.subset hb)
  · exact List.mem_append_right _ (List.mem_singleton.mp hb ▸ List.mem_cons_self)

theorem mem_of_shown (h : t.Sound s order c) {shown : Shown} (hshown : shown ∈ t.shown) :
    shown.question ∈ s.questions := by
  obtain ⟨b, hb, hq⟩ := h.owner hshown
  exact mem_questionsUnder.mpr ⟨b, h.mem_of_visited hb, hq⟩

/-- Questions that were shown are told apart by their keys. -/
theorem question_unique (h : t.Sound s order c) (hs : s.Coherent) {shown : Shown}
    (hshown : shown ∈ t.shown) {q : Question} (hq : q ∈ s.questions)
    (hkey : shown.question.key = q.key) : shown.question = q :=
  List.inj_on_of_nodup_map hs.questions (h.mem_of_shown hshown) hq hkey

/-- No block comes twice. -/
theorem nodup (h : t.Sound s order c) (hs : s.Coherent) :
    (c.behind ++ c.current :: t.blocks).Nodup :=
  h.splits ▸ (h.arranged.nodup hs).of_map

/-- What was opened is not to come. -/
theorem notMem_blocks (h : t.Sound s order c) (hs : s.Coherent) {b : Block} (hb : b ∈ t.visited) :
    b ∉ t.blocks := by
  obtain ⟨-, hpresent, hapart⟩ := List.nodup_append.mp (h.nodup hs)
  intro hahead
  rw [h.visited] at hb
  rcases List.mem_append.mp hb with hb | hb
  · exact hapart b (h.opened.subset hb) b (List.mem_cons_of_mem _ hahead) rfl
  · exact (List.nodup_cons.mp hpresent).1 (List.mem_singleton.mp hb ▸ hahead)

/-- What was opened before is not open. -/
theorem ne_current (h : t.Sound s order c) (hs : s.Coherent) {b : Block} (hb : b ∈ c.earlier) :
    b ≠ c.current :=
  (List.nodup_append.mp (h.nodup hs)).2.2 b (h.opened.subset hb) c.current List.mem_cons_self

theorem start {g g' : Gen} (h : Traversal.start s g = .ok (t, g')) :
    ∃ c, t.Sound s (t.visited ++ t.blocks) c := by
  obtain ⟨first, rest, g₁, questions, -, harrange, hexpand, rfl⟩ := start_eq_ok h
  exact ⟨⟨[], [], first, [], []⟩,
    { splits := rfl
      visited := rfl
      opened := .slnil
      moving := rfl
      past := .nil
      present := first.shows_of_expand hexpand
      shown := rfl
      arranged := Survey.arranged_of_arrangeBlocks harrange
      own := by simp
      answered := by simp
      ahead := by simp }⟩

/-- Opening the next block. A pending destination that was not reached is not passed over. -/
theorem refill (h : t.Sound s order c) (hq : t.questions = [])
    (hrefill : t.refill t.blocks = (.ok (), u)) : ∃ c', u.Sound s order c' := by
  obtain ⟨passed, b, hblocks, hpassed, -, hpending, hshown, hanswers, hcourse⟩ :=
    h.toOnCourse.refill hq hrefill
  refine ⟨_, { hcourse with
    arranged := h.arranged
    own := hshown ▸ h.own
    answered := by rw [hshown, hanswers]; exact h.answered
    ahead := ?_ }⟩
  intro key hkey
  cases hmoves : b.isRandomizable with
  | false => simp [hpending, hmoves] at hkey
  | true =>
    simp only [hpending, hmoves, if_true] at hkey
    obtain ⟨dest, hdest, rfl, hfixed⟩ := h.ahead key hkey
    rw [hblocks] at hdest
    rcases List.mem_append.mp hdest with hdest | hdest
    · have hstop := hpassed dest hdest
      simp [stopsAt, hkey] at hstop
    · rcases List.mem_cons.mp hdest with rfl | hdest
      · rw [hfixed] at hmoves
        cases hmoves
      · exact ⟨dest, hdest, rfl, hfixed⟩

/-- Taking the next of the open questions. -/
theorem take (h : t.Sound s order c) {q : Question} {rest : List Question} {gen : Gen}
    {shown : Shown} (hq : t.questions = q :: rest) (hquestion : shown.question = q)
    (hown : (shown.options.map (·.choice)).Perm q.choices) :
    ({ t with questions := rest, gen, shown := t.shown ++ [shown] } : Traversal).Sound s order
      { c with done := c.done ++ [q] } := by
  refine { h.toOnCourse.take hq hquestion with
    arranged := h.arranged, own := ?_, answered := ?_, ahead := h.ahead }
  · intro shown' hshown'
    rcases List.mem_append.mp hshown' with hold | hnew
    · exact h.own shown' hold
    · rw [List.mem_singleton.mp hnew, hquestion]
      exact hown
  · intro a ha
    obtain ⟨shown', hshown', heq⟩ := h.answered a ha
    exact ⟨shown', List.mem_append_left _ hshown', heq⟩

theorem next (h : t.Sound s order c) {shown : Shown} (hnext : t.next = (.ok shown, t')) :
    ∃ c', t'.Sound s order c' ∧ c'.done ≠ [] := by
  obtain ⟨u, q, rest, gen, hu, hq, hquestion, hown, rfl⟩ := next_eq_ok hnext
  obtain ⟨c', hsound⟩ : ∃ c', u.Sound s order c' := by
    rcases hu with rfl | ⟨hempty, hrefill⟩
    · exact ⟨c, h⟩
    · exact h.refill hempty hrefill
  exact ⟨_, hsound.take hq hquestion hown, by simp⟩

/-- The generator may be drawn from in between. -/
theorem draw (h : t.Sound s order c) (gen : Gen) : ({ t with gen } : Traversal).Sound s order c :=
  { splits := h.splits, visited := h.visited, opened := h.opened, moving := h.moving
    past := h.past, present := h.present, shown := h.shown
    arranged := h.arranged, own := h.own, answered := h.answered, ahead := h.ahead }

/-- An answer keeps the course. What it makes pending comes after the open block. -/
theorem answer (h : t.Sound s order c) (hs : s.Coherent) (hv : s.Valid) {q : Question}
    {choices : List Choice} (hmem : q ∈ s.questions)
    (hopen : q.isBranch = true → q ∈ c.current.allQuestions)
    (hanswer : t.answer q choices = .ok t') : t'.Sound s order c := by
  obtain ⟨shown, selections, hshown, -, -, rfl⟩ := answer_eq_ok hanswer
  refine
    { splits := h.splits, visited := h.visited, opened := h.opened, moving := h.moving
      past := h.past, present := h.present, shown := h.shown
      arranged := h.arranged, own := h.own, answered := ?_, ahead := ?_ }
  · intro a ha
    rcases List.mem_append.mp ha with hold | hnew
    · exact h.answered a hold
    · have hkey : shown.question.key = q.key := by simpa using List.find?_some hshown
      have hunique := h.question_unique hs (List.mem_of_find?_eq_some hshown) hmem hkey
      rw [List.mem_singleton.mp hnew]
      exact ⟨shown, List.mem_of_find?_eq_some hshown, hunique⟩
  · intro key hkey
    cases choices with
    | nil => exact h.ahead key hkey
    | cons choice choices =>
      cases hbranch : q.isBranch with
      | false =>
        simp only [pendingAfter, hbranch, Bool.false_eq_true, if_false] at hkey
        exact h.ahead key hkey
      | true =>
        simp only [pendingAfter, hbranch, if_true] at hkey
        obtain ⟨branch, hmem, -, rfl⟩ := Question.branch_of_destination hkey
        have hcurrent : c.current ∈ s.blocks := h.mem_of_visited (by simp [h.visited])
        have hahead := Survey.leadsAhead_of_valid hs hv hcurrent (hopen hbranch) hmem
        exact h.arranged.ahead h.splits hahead

end Traversal.Sound

end Questionnaire
