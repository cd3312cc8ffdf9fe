/-
# Where the answers lead

The fixed blocks are opened in their natural order, some of them left out. Of
the branching questions in and under a block the one that was answered last
names the exit: the next fixed block that is opened is the one it leads to. A
block without such an answer is followed by the next block in natural order.
The blocks that may move come in between and change nothing.

Key definitions: `Traversal.exit`, `Block.GoesTo`, `Traversal.Routed`.
Key theorems: `Traversal.Routed.refill`, `Traversal.Routed.answer`,
`Prompt.invariant`, `Prompt.finish`, `Traversal.follows_answers`.
-/
import Mathlib.Data.List.Chain
import Questionnaire.Proofs.Survey.Leaves
import Questionnaire.Proofs.Traversal.Run

namespace Questionnaire

/-- The answers with a selection that were given to branching questions in or under the block. -/
def Traversal.branchAnswers (t : Traversal) (b : Block) : List Answer :=
  t.answers.filter fun a =>
    a.question.isBranch && !a.selections.isEmpty && b.allQuestions.any (·.key == a.question.key)

/-- Where the last of these answers leads, if it leads anywhere. -/
def Traversal.exit (t : Traversal) (b : Block) : Option Key :=
  (t.branchAnswers b).getLast?.bind fun a => a.first?.bind a.question.destination?

/-- Among the fixed blocks, `c` is the one that the exit of `b` leads to; without an exit it is the
one right after `b`. -/
def Block.GoesTo (fixed : List Block) (b c : Block) (exit : Option Key) : Prop :=
  ∃ before mid after, fixed = before ++ b :: (mid ++ c :: after) ∧ (exit = none → mid = []) ∧
    ∀ key, exit = some key → c.key = key

/-- The fixed blocks that were opened follow the exits. The exit of the last of them is pending,
and none that is still to come was passed over without one. -/
structure Traversal.Routed (t : Traversal) (fixed : List Block) : Prop where
  unopened : fixedOf t.visited = [] → t.pending = none ∧ fixedOf t.blocks = fixed
  head : fixedOf t.visited ≠ [] → (fixedOf t.visited).head? = fixed.head?
  chain : (fixedOf t.visited).IsChain fun b c => b.GoesTo fixed c (t.exit b)
  last : ∀ b, (fixedOf t.visited).getLast? = some b → t.pending = t.exit b ∧
    ∃ before mid, fixed = before ++ b :: (mid ++ fixedOf t.blocks) ∧ (t.pending = none → mid = [])

namespace Traversal

variable {s : Survey} {t t' u : Traversal} {order fixed : List Block} {c : Course}

/-! ### Exits -/

theorem exit_congr (h : u.answers = t.answers) (b : Block) : u.exit b = t.exit b := by
  simp only [exit, branchAnswers, h]

/-- An answer that is not to a branching question of the block, or selects nothing, leaves the
exit as it was. -/
theorem exit_append {a : Answer} (h : u.answers = t.answers ++ [a]) {b : Block}
    (ha : a.question.isBranch = true → a.selections ≠ [] →
      ∀ q ∈ b.allQuestions, q.key ≠ a.question.key) : u.exit b = t.exit b := by
  have hnone : (a.question.isBranch && !a.selections.isEmpty &&
      b.allQuestions.any (·.key == a.question.key)) = false := by
    by_contra hsome
    simp only [Bool.not_eq_false, Bool.and_eq_true, Bool.not_eq_true', List.isEmpty_eq_false_iff,
      List.any_eq_true, beq_iff_eq] at hsome
    obtain ⟨⟨hbranch, hselected⟩, q, hq, hkey⟩ := hsome
    exact ha hbranch hselected q hq hkey
  simp only [exit, branchAnswers, h, List.filter_append, List.filter_cons, hnone, List.filter_nil,
    Bool.false_eq_true, if_false, List.append_nil]

/-- An answer to a branching question of the block makes the exit. -/
theorem exit_append_branch {a : Answer} (h : u.answers = t.answers ++ [a]) {b : Block}
    (hbranch : a.question.isBranch = true) (hselected : a.selections ≠ [])
    (hq : a.question ∈ b.allQuestions) :
    u.exit b = a.first?.bind a.question.destination? := by
  have hany : b.allQuestions.any (·.key == a.question.key) = true :=
    List.any_eq_true.mpr ⟨a.question, hq, beq_self_eq_true _⟩
  simp [exit, branchAnswers, h, List.filter_append, hbranch, hselected, hany]

/-- A block that was not opened yet has no exit. -/
theorem Sound.exit_eq_none (h : t.Sound s order c) (hs : s.Coherent) {b : Block}
    (hb : b ∈ t.blocks) : t.exit b = none := by
  suffices hnil : t.branchAnswers b = [] by simp [exit, hnil]
  refine List.filter_eq_nil_iff.mpr fun a ha hown => ?_
  simp only [Bool.and_eq_true, List.any_eq_true, beq_iff_eq] at hown
  obtain ⟨-, q, hq, hkey⟩ := hown
  obtain ⟨shown, hshown, heq⟩ := h.answered a ha
  obtain ⟨d, hd, hdown⟩ := h.owner hshown
  have hsame : b = d :=
    hs.owner_unique (h.mem_of_blocks hb) (h.mem_of_visited hd) hq hdown (heq ▸ hkey)
  exact h.notMem_blocks hs hd (hsame ▸ hb)

/-! ### Steps -/

namespace Routed

theorem congr (h : t.Routed fixed) (hvisited : u.visited = t.visited) (hblocks : u.blocks = t.blocks)
    (hpending : u.pending = t.pending) (hexit : ∀ b, u.exit b = t.exit b) : u.Routed fixed := by
  constructor
  · rw [hvisited, hblocks, hpending]
    exact h.unopened
  · rw [hvisited]
    exact h.head
  · simp only [hvisited, hexit]
    exact h.chain
  · rw [hvisited, hblocks, hpending]
    simp only [hexit]
    exact h.last

theorem start {g g' : Gen} (h : Traversal.start s g = .ok (t, g')) :
    t.Routed (fixedOf (t.visited ++ t.blocks)) := by
  obtain ⟨first, rest, g₁, questions, -, -, -, rfl⟩ := start_eq_ok h
  cases hmoves : first.isRandomizable with
  | true =>
    have hnone : fixedOf [first] = [] := by simp [hmoves]
    constructor
    · exact fun _ => ⟨rfl, by simp [hmoves]⟩
    · exact fun hne => absurd hnone hne
    · simp only [hnone]
      exact .nil
    · simp [hmoves]
  | false =>
    have hone : fixedOf [first] = [first] := by simp [hmoves]
    constructor
    · simp [hmoves]
    · simp [hmoves]
    · simp only [hone]
      exact .singleton first
    · simp only [hone, List.getLast?_singleton, Option.some.injEq]
      rintro b rfl
      exact ⟨rfl, [], [], by simp [hmoves], fun _ => rfl⟩

section Opening

variable {passed : List Block} {b : Block} (h : t.Routed (fixedOf order))
  (hblocks : t.blocks = passed ++ b :: u.blocks) (hpassed : ∀ d ∈ passed, t.stopsAt d = false)
  (hvisited : u.visited = t.visited ++ [b]) (hanswers : u.answers = t.answers)

/-- Without a pending destination no block is passed over. -/
theorem passed_eq_nil {passed : List Block} (hpassed : ∀ d ∈ passed, t.stopsAt d = false)
    (hpending : t.pending = none) : passed = [] := by
  refine List.eq_nil_iff_forall_not_mem.mpr fun d hd => ?_
  have hpass := hpassed d hd
  simp [stopsAt, hpending] at hpass

include h hblocks hpassed hvisited hanswers

/-- A block that may move changes nothing. -/
theorem open_moving (hmoves : b.isRandomizable = true) (hpending : u.pending = t.pending) :
    u.Routed (fixedOf order) := by
  have hopened : fixedOf u.visited = fixedOf t.visited := by simp [hvisited, hmoves]
  have hfixed : fixedOf t.blocks = fixedOf passed ++ fixedOf u.blocks := by
    simp [hblocks, hmoves]
  constructor
  · rw [hopened, hpending]
    intro hnil
    obtain ⟨hnone, hall⟩ := h.unopened hnil
    rw [hfixed, passed_eq_nil hpassed hnone] at hall
    exact ⟨hnone, hall⟩
  · rw [hopened]
    exact h.head
  · simp only [hopened, exit_congr hanswers]
    exact h.chain
  · simp only [hopened, hpending, exit_congr hanswers]
    intro d hd
    obtain ⟨hexit, before, mid, hsplit, hmid⟩ := h.last d hd
    refine ⟨hexit, before, mid ++ fixedOf passed, ?_, fun hnone => ?_⟩
    · rw [hsplit, hfixed, List.append_assoc]
    · rw [hmid hnone, passed_eq_nil hpassed hnone]
      rfl

/-- A fixed block that is opened is where the exit of the last one leads. -/
theorem open_fixed (hs : s.Coherent) (hsound : t.Sound s order c) (hstop : t.stopsAt b = true)
    (hmoves : b.isRandomizable = false) (hpending : u.pending = none) :
    u.Routed (fixedOf order) := by
  have hopened : fixedOf u.visited = fixedOf t.visited ++ [b] := by simp [hvisited, hmoves]
  have hfixed : fixedOf t.blocks = fixedOf passed ++ b :: fixedOf u.blocks := by
    simp [hblocks, hmoves]
  have hkey : ∀ key, t.pending = some key → b.key = key := by
    intro key hsome
    simp only [stopsAt, hmoves, hsome, Bool.false_or, Option.all_some, beq_iff_eq] at hstop
    exact hstop.symm
  constructor
  · rw [hopened]
    simp
  · rw [hopened]
    intro _
    by_cases hnil : fixedOf t.visited = []
    · obtain ⟨hnone, hall⟩ := h.unopened hnil
      rw [hnil, ← hall, hfixed, passed_eq_nil hpassed hnone]
      rfl
    · rw [List.head?_append_of_ne_nil _ hnil]
      exact h.head hnil
  · simp only [hopened, exit_congr hanswers]
    refine h.chain.append (.singleton b) fun d hd b' hb' => ?_
    obtain rfl : b = b' := by simpa using hb'
    obtain ⟨hexit, before, mid, hsplit, hmid⟩ := h.last d hd
    refine ⟨before, mid ++ fixedOf passed, fixedOf u.blocks, ?_, ?_, ?_⟩
    · rw [hsplit, hfixed, List.append_assoc]
    · intro hnone
      rw [← hexit] at hnone
      rw [hmid hnone, passed_eq_nil hpassed hnone]
      rfl
    · rw [← hexit]
      exact hkey
  · simp only [hopened, List.getLast?_concat, Option.some.injEq, exit_congr hanswers]
    rintro d rfl
    have hexit : t.exit b = none := hsound.exit_eq_none hs (hblocks ▸ by simp)
    have hparts : order = (c.behind ++ c.current :: passed) ++ b :: u.blocks := by
      rw [hsound.splits, hblocks]
      simp
    refine ⟨hpending.trans hexit.symm, fixedOf (c.behind ++ c.current :: passed), [], ?_, fun _ => rfl⟩
    rw [hparts, fixedOf, List.filter_append, List.filter_cons_of_pos (by simp [hmoves])]
    rfl

end Opening

theorem refill (h : t.Routed (fixedOf order)) (hs : s.Coherent) (hsound : t.Sound s order c)
    (hrefill : t.refill t.blocks = (.ok (), u)) : u.Routed (fixedOf order) := by
  obtain ⟨passed, b, rest, questions, gen, hblocks, hpassed, hstop, -, rfl⟩ := refill_eq_ok hrefill
  cases hmoves : b.isRandomizable with
  | true => exact h.open_moving hblocks hpassed rfl rfl hmoves (by simp)
  | false => exact h.open_fixed hblocks hpassed rfl rfl hs hsound hstop hmoves (by simp)

theorem next (h : t.Routed (fixedOf order)) (hs : s.Coherent) (hsound : t.Sound s order c)
    {shown : Shown} (hnext : t.next = (.ok shown, t')) : t'.Routed (fixedOf order) := by
  obtain ⟨u, q, rest, gen, hu, -, -, -, rfl⟩ := next_eq_ok hnext
  have hrouted : u.Routed (fixedOf order) := by
    rcases hu with rfl | ⟨-, hrefill⟩
    · exact h
    · exact h.refill hs hsound hrefill
  exact hrouted.congr rfl rfl rfl fun b => exit_congr rfl b

/-- A branching answer sets the exit of the open block, which is a fixed one, and that of no other
block. -/
theorem answer_branch (h : t.Routed (fixedOf order)) (hs : s.Coherent) (hv : s.Valid)
    (hsound : t.Sound s order c) {a : Answer} (hbranch : a.question.isBranch = true)
    (hselected : a.selections ≠ []) (hopen : a.question ∈ c.current.allQuestions)
    (hvisited : u.visited = t.visited) (hblocks : u.blocks = t.blocks)
    (hanswers : u.answers = t.answers ++ [a])
    (hpending : u.pending = a.first?.bind a.question.destination?) : u.Routed (fixedOf order) := by
  have hcurrent : c.current ∈ s.blocks := hsound.mem_of_visited (by simp [hsound.visited])
  have hfixed : c.current.isRandomizable = false := by
    obtain ⟨branch, hmem⟩ := List.exists_mem_of_ne_nil a.question.branches
      (by simpa [Question.isBranch] using hbranch)
    exact (Survey.leadsAhead_of_valid hs hv hcurrent hopen hmem).fixed
  have hopened : fixedOf t.visited = fixedOf c.earlier ++ [c.current] := by
    simp [hsound.visited, hfixed]
  have hexit : u.pending = u.exit c.current := by
    rw [hpending, exit_append_branch hanswers hbranch hselected hopen]
  have hothers : ∀ b ∈ fixedOf c.earlier, u.exit b = t.exit b := by
    intro b hb
    have hearlier : b ∈ c.earlier := (List.mem_filter.mp hb).1
    refine exit_append hanswers fun _ _ q hq hkey => ?_
    have hmem : b ∈ s.blocks := hsound.mem_of_visited (by simp [hsound.visited, hearlier])
    exact hsound.ne_current hs hearlier (hs.owner_unique hmem hcurrent hq hopen hkey)
  have hchain := h.chain
  rw [hopened, List.isChain_append] at hchain
  obtain ⟨hpast, -, hlast⟩ := hchain
  constructor
  · rw [hvisited, hopened]
    simp
  · rw [hvisited]
    exact h.head
  · rw [hvisited, hopened]
    refine List.IsChain.append ?_ (.singleton _) fun b hb b' hb' => ?_
    · refine hpast.imp_of_mem_imp fun b b' hb _ hgoes => ?_
      rwa [hothers b hb]
    · rw [hothers b (List.mem_of_getLast? hb)]
      exact hlast b hb b' hb'
  · rw [hvisited, hopened, hblocks]
    simp only [List.getLast?_concat, Option.some.injEq]
    rintro b rfl
    refine ⟨hexit, fixedOf c.behind, [], ?_, fun _ => rfl⟩
    rw [hsound.splits, fixedOf, List.filter_append, List.filter_cons_of_pos (by simp [hfixed])]
    rfl

/-- An answer with a selection to a branching question sets the exit; any other changes nothing. -/
theorem answer (h : t.Routed (fixedOf order)) (hs : s.Coherent) (hv : s.Valid)
    (hsound : t.Sound s order c) {q : Question} {choices : List Choice}
    (hopen : q.isBranch = true → q ∈ c.current.allQuestions)
    (hanswer : t.answer q choices = .ok t') : t'.Routed (fixedOf order) := by
  obtain ⟨shown, selections, -, -, hselect, rfl⟩ := answer_eq_ok hanswer
  obtain rfl := choices_of_select hselect
  cases hbranch : q.isBranch with
  | false =>
    refine h.congr rfl rfl ?_ fun b => exit_append rfl fun hq => ?_
    · cases selections <;> simp [pendingAfter, hbranch]
    · rw [hbranch] at hq
      cases hq
  | true =>
    cases selections with
    | nil => exact h.congr rfl rfl rfl fun b => exit_append rfl fun _ hne => absurd rfl hne
    | cons selection selections =>
      refine h.answer_branch hs hv hsound hbranch (List.cons_ne_nil selection selections)
        (hopen hbranch) rfl rfl rfl ?_
      simp [pendingAfter, hbranch, Answer.first?]

end Routed

end Traversal

/-! ### Runs -/

/-- **What all runs keep.** A run stays on course in one order of the blocks, and goes where the
answers lead. -/
theorem Prompt.invariant {s : Survey} {t : Traversal} (h : Prompt s t) (hs : s.Coherent)
    (hv : s.Valid) :
    ∃ order c, (c.done = [] → t.shown = []) ∧ t.Sound s order c ∧ t.Routed (fixedOf order) := by
  induction h with
  | @start g g' t hstart =>
    obtain ⟨c, hsound⟩ := Traversal.Sound.start hstart
    refine ⟨_, c, fun _ => ?_, hsound, Traversal.Routed.start hstart⟩
    obtain ⟨_, _, _, _, -, -, -, rfl⟩ := Traversal.start_eq_ok hstart
    rfl
  | next _ hnext ih =>
    obtain ⟨order, c, -, hsound, hrouted⟩ := ih
    obtain ⟨c', hsound', hdone⟩ := hsound.next hnext
    exact ⟨order, c', fun hnil => absurd hnil hdone, hsound', hrouted.next hs hsound hnext⟩
  | @answer t t' q choices _ hmem hlast hanswer ih =>
    obtain ⟨order, c, hfresh, hsound, hrouted⟩ := ih
    have hopen : q.isBranch = true → q ∈ c.current.allQuestions := by
      intro hbranch
      obtain ⟨shown, hshown, rfl⟩ := hlast hbranch
      exact hsound.latest hfresh hshown
    refine ⟨order, c, ?_, hsound.answer hs hv hmem hopen hanswer,
      hrouted.answer hs hv hsound hopen hanswer⟩
    obtain ⟨_, _, -, -, -, rfl⟩ := Traversal.answer_eq_ok hanswer
    exact hfresh
  | draw gen _ ih =>
    obtain ⟨order, c, hfresh, hsound, hrouted⟩ := ih
    exact ⟨order, c, hfresh, hsound.draw gen,
      hrouted.congr rfl rfl rfl fun b => Traversal.exit_congr rfl b⟩

/-- Going on to the end, with each question answered when it was shown, is a run. -/
theorem Prompt.finish {s : Survey} {t t' : Traversal} (hs : s.Coherent) (hv : s.Valid)
    {choose : Shown → Trial (List Choice)} (h : Prompt s t)
    (hfinish : t.finish choose = (.ok (), t')) : Prompt s t' ∧ t'.finished = true := by
  rcases Traversal.finish_eq_ok hfinish with ⟨hdone, rfl⟩ | ⟨shown, u, choices, gen, w, hnext, -,
    hanswer, hrest⟩
  · exact ⟨h, hdone⟩
  · have hu := h.next hnext
    have hlast : u.shown.getLast? = some shown := by simp [Traversal.shown_of_next hnext]
    obtain ⟨order, c, -, hsound, -⟩ := hu.invariant hs hv
    have hmem := hsound.mem_of_shown (List.mem_of_getLast? hlast)
    have hw := (hu.draw gen).answer hmem (fun _ => ⟨shown, hlast, rfl⟩) hanswer
    exact Prompt.finish hs hv hw hrest
termination_by t.left
decreasing_by exact Traversal.step_left hnext hanswer

/-! ### At the end -/

namespace Traversal

variable {s : Survey} {t : Traversal} {order fixed : List Block} {c : Course}

/-- All blocks that may move were opened once. -/
theorem Sound.moving_perm (h : t.Sound s order c) (hdone : t.finished = true) :
    (t.visited.filter (·.isRandomizable)).Perm s.shuffledBlocks := by
  have hall : t.visited.filter (·.isRandomizable) = order.filter (·.isRandomizable) := by
    rw [h.visited, h.splits, (finished_iff.mp hdone).2, List.filter_append, List.filter_append,
      h.moving]
  rw [hall]
  exact h.arranged.perm.filter _

/-- Nothing is pending at the end. -/
theorem Sound.pending_eq_none (h : t.Sound s order c) (hdone : t.finished = true) :
    t.pending = none := by
  refine Option.eq_none_iff_forall_ne_some.mpr fun key hkey => ?_
  obtain ⟨b, hb, -, -⟩ := h.ahead key hkey
  simp [(finished_iff.mp hdone).2] at hb

/-- A run that opens no fixed block has none to open. -/
theorem Routed.eq_nil_of_finished (h : t.Routed fixed) (hdone : t.finished = true)
    (hnil : fixedOf t.visited = []) : fixed = [] := by
  have hfixed := (h.unopened hnil).2
  rw [(finished_iff.mp hdone).2] at hfixed
  exact hfixed.symm

/-- Where the last of the fixed blocks stands at the end: it has no exit and no block comes after
it. -/
theorem Routed.last_of_finished (h : t.Routed (fixedOf order)) (hsound : t.Sound s order c)
    (hdone : t.finished = true) {b : Block} (hb : (fixedOf t.visited).getLast? = some b) :
    t.exit b = none ∧ ∃ before, fixedOf order = before ++ [b] := by
  obtain ⟨hexit, before, mid, hfixed, hmid⟩ := h.last b hb
  have hnone := hsound.pending_eq_none hdone
  rw [hmid hnone, (finished_iff.mp hdone).2] at hfixed
  exact ⟨hexit.symm.trans hnone, before, hfixed⟩

/-- **Answers route.** A run to the end opens each block that may move once. Its fixed blocks start
with the first in natural order; after each comes the block that the last branching answer under it
leads to, or else the next one in natural order, if there is one. -/
theorem follows_answers {origin : Nat} {d : Document} (hread : Survey.ofDocument origin d = .ok s)
    (hv : s.Valid) (h : Prompt s t) (hdone : t.finished = true) :
    (t.visited.filter (·.isRandomizable)).Perm s.shuffledBlocks ∧
    ∃ fixed, sortBlocks s.fixedBlocks = .ok fixed ∧ (fixedOf t.visited).head? = fixed.head? ∧
      ∀ pre b post, fixedOf t.visited = pre ++ b :: post →
        (∀ key, t.exit b = some key → ∃ next, post.head? = some next ∧ next.key = key) ∧
        (t.exit b = none →
          ∃ before after, fixed = before ++ b :: after ∧ post.head? = after.head?) := by
  have hs := Survey.coherent_of_ofDocument hread
  obtain ⟨order, c, -, hsound, hrouted⟩ := h.invariant hs hv
  refine ⟨hsound.moving_perm hdone, fixedOf order, hsound.arranged.fixed, ?_, ?_⟩
  · by_cases hnil : fixedOf t.visited = []
    · rw [hnil, hrouted.eq_nil_of_finished hdone hnil]
    · exact hrouted.head hnil
  · intro pre b post hsplit
    cases post with
    | nil =>
      have hlast : (fixedOf t.visited).getLast? = some b := by simp [hsplit]
      obtain ⟨hnone, before, hfixed⟩ := hrouted.last_of_finished hsound hdone hlast
      constructor
      · intro key hkey
        rw [hnone] at hkey
        cases hkey
      · exact fun _ => ⟨before, [], hfixed, rfl⟩
    | cons next post =>
      have hchain := hrouted.chain
      rw [hsplit, List.isChain_append_cons_cons] at hchain
      obtain ⟨before, mid, after, hfixed, hmid, hkey⟩ := hchain.2.1
      constructor
      · exact fun key hexit => ⟨next, rfl, hkey key hexit⟩
      · intro hnone
        rw [hmid hnone] at hfixed
        exact ⟨before, next :: after, hfixed, rfl⟩

end Traversal

/-! ### The short way through a fork -/

namespace Traversal

variable (more : Question)

/-- The fork is open. -/
def forkOpen : Traversal where
  survey := Survey.fork more
  gen := ⟨4354685564936845354⟩
  blocks := [plainBlock 1 "2" more, plainBlock 2 "3" Survey.forkLast]
  questions := [Survey.forkFirst]
  pending := none
  shown := []
  answers := []
  visited := [plainBlock 0 "1" Survey.forkFirst]

/-- The question at the fork as it is shown. -/
def forkShown : Shown :=
  ⟨Survey.forkFirst, [⟨plainChoice "long", .int 0⟩, ⟨plainChoice "short", .int 1⟩], 0⟩

/-- The last question as it is shown. -/
def forkLastShown : Shown := ⟨Survey.forkLast, [⟨plainChoice "last", .int 0⟩], 1⟩

/-- The question at the fork was asked. -/
def forkAsked : Traversal :=
  { forkOpen more with gen := ⟨15755400384260043839⟩, questions := [], shown := [forkShown] }

/-- It was answered. -/
def forkSent : Traversal :=
  { forkAsked more with
    pending := some ⟨0, 2⟩
    answers := [⟨Survey.forkFirst, [⟨plainChoice "short", .int 1⟩], .int 0⟩] }

/-- The last question was asked. -/
def forkArrived : Traversal :=
  { forkSent more with
    blocks := [], pending := none, shown := [forkShown, forkLastShown]
    visited := [plainBlock 0 "1" Survey.forkFirst, plainBlock 2 "3" Survey.forkLast] }

/-- It was answered too. -/
def forkShort : Traversal :=
  { forkArrived more with
    answers := [⟨Survey.forkFirst, [⟨plainChoice "short", .int 1⟩], .int 0⟩,
      ⟨Survey.forkLast, [⟨plainChoice "last", .int 0⟩], .int 1⟩] }

variable {more} (hv : (Survey.fork more).Valid)

include hv

theorem start_fork :
    start (Survey.fork more) ⟨0⟩ = .ok (forkOpen more, ⟨4354685564936845354⟩) := by
  unfold start
  rw [(Survey.fork more).check_eq_ok_iff.mpr hv]
  cbv

theorem prompt_forkOpen : Prompt (Survey.fork more) (forkOpen more) := .start (start_fork hv)

/-- Whoever chooses `short` is sent to the last block, whatever the other question is. -/
theorem prompt_forkSent : Prompt (Survey.fork more) (forkSent more) := by
  have hfirst : (forkOpen more).next = (.ok forkShown, forkAsked more) := by cbv
  have hanswer : (forkAsked more).answer Survey.forkFirst [plainChoice "short"] =
      .ok (forkSent more) := by cbv
  have hfirstMem : Survey.forkFirst ∈ (Survey.fork more).questions := by
    simp [Survey.questions_fork]
  exact ((prompt_forkOpen hv).next hfirst).answer hfirstMem (fun _ => ⟨_, rfl, rfl⟩) hanswer

/-- There the last question is answered. -/
theorem prompt_forkShort : Prompt (Survey.fork more) (forkShort more) := by
  have hlast : (forkSent more).next = (.ok forkLastShown, forkArrived more) := by cbv
  have hlastAnswer : (forkArrived more).answer Survey.forkLast [plainChoice "last"] =
      .ok (forkShort more) := by cbv
  have hlastMem : Survey.forkLast ∈ (Survey.fork more).questions := by
    simp [Survey.questions_fork]
  exact ((prompt_forkSent hv).next hlast).answer hlastMem (fun _ => ⟨_, rfl, rfl⟩) hlastAnswer

omit hv

theorem follows_answers_fork : Survey.ofDocument 0 (forkDocument Survey.moreFields) =
      .ok (Survey.fork Survey.more) ∧ (Survey.fork Survey.more).Valid ∧
    Prompt (Survey.fork Survey.more) (forkShort Survey.more) ∧
    (forkShort Survey.more).finished = true ∧
    (forkShort Survey.more).exit (plainBlock 0 "1" Survey.forkFirst) = some ⟨0, 2⟩ ∧
    ∃ next, (forkShort Survey.more).visited[1]? = some next ∧ next.key = ⟨0, 2⟩ := by
  have hprompt := prompt_forkShort Survey.fork_valid
  have hexit : (forkShort Survey.more).exit (plainBlock 0 "1" Survey.forkFirst) = some ⟨0, 2⟩ := by
    cbv
  obtain ⟨-, fixed, -, -, hroute⟩ :=
    follows_answers Survey.ofDocument_fork Survey.fork_valid hprompt (by cbv)
  obtain ⟨next, hnext, hkey⟩ := (hroute [] _ [plainBlock 2 "3" Survey.forkLast] (by cbv)).1 _ hexit
  exact ⟨Survey.ofDocument_fork, Survey.fork_valid, hprompt, by cbv, hexit, next, hnext, hkey⟩

end Traversal

end Questionnaire
