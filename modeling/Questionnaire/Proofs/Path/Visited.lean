/-
# The path that a traversal takes

A respondent who answers every question with choices takes one of the paths
through the survey, provided no branching question is in or under a block of
variants: the fixed blocks of the run are one of the chains, and all its blocks
together one of the paths.

Key definition: `Traversal.Answered`.
Key theorems: `Traversal.Sound.leavesBy_exit`, `Traversal.takes_path`.
-/
import Questionnaire.Path.Basic
import Questionnaire.Proofs.Path.Chain

namespace Questionnaire

/-! ### Sets of blocks -/

namespace Path

theorem within_iff {p q : Path} : p.within q = true ↔ ∀ b ∈ p, ∃ c ∈ q, c.key = b.key := by
  simp [within, has]

theorem equal_iff {p q : Path} : p.equal q = true ↔ p.within q = true ∧ q.within p = true := by
  simp [equal]

theorem within_of_subset {p q : Path} (h : p ⊆ q) : p.within q = true :=
  within_iff.mpr fun b hb => ⟨b, h hb, rfl⟩

theorem within_trans {p q r : Path} (hpq : p.within q = true) (hqr : q.within r = true) :
    p.within r = true := by
  rw [within_iff] at *
  intro b hb
  obtain ⟨c, hc, hkey⟩ := hpq b hb
  obtain ⟨d, hd, hkey'⟩ := hqr c hc
  exact ⟨d, hd, hkey'.trans hkey⟩

theorem equal_symm {p q : Path} (h : p.equal q = true) : q.equal p = true :=
  equal_iff.mpr (equal_iff.mp h).symm

theorem equal_trans {p q r : Path} (hpq : p.equal q = true) (hqr : q.equal r = true) :
    p.equal r = true := by
  rw [equal_iff] at *
  exact ⟨within_trans hpq.1 hqr.1, within_trans hqr.2 hpq.2⟩

theorem equal_of_subset {p q : Path} (hpq : p ⊆ q) (hqp : q ⊆ p) : p.equal q = true :=
  equal_iff.mpr ⟨within_of_subset hpq, within_of_subset hqp⟩

end Path

namespace Survey

/-- A path that is in the list, or is known already, is known in the end. -/
theorem exists_of_foldl_distinct {p : Path} : ∀ (paths acc : List Path),
    (p ∈ paths ∨ ∃ found ∈ acc, found.equal p = true) →
      ∃ found ∈ paths.foldl (fun acc p => if acc.any p.equal then acc else acc ++ [p]) acc,
        found.equal p = true
  | [], _, h => h.resolve_left List.not_mem_nil
  | q :: paths, acc, h => by
    rw [List.foldl_cons]
    refine exists_of_foldl_distinct paths _ ?_
    by_cases hq : acc.any q.equal = true
    · rw [if_pos hq]
      rcases h with h | h
      · rcases List.mem_cons.mp h with rfl | h
        · obtain ⟨found, hfound, heq⟩ := List.any_eq_true.mp hq
          exact .inr ⟨found, hfound, Path.equal_symm heq⟩
        · exact .inl h
      · exact .inr h
    · rw [if_neg hq]
      rcases h with h | ⟨found, hfound, heq⟩
      · rcases List.mem_cons.mp h with rfl | h
        · exact .inr ⟨p, by simp, Path.equal_of_subset (fun _ hb => hb) (fun _ hb => hb)⟩
        · exact .inl h
      · exact .inr ⟨found, List.mem_append_left _ hfound, heq⟩

/-- Every path in a list is among the distinct ones. -/
theorem exists_distinctPaths {paths : List Path} {p : Path} (h : p ∈ paths) :
    ∃ found ∈ distinctPaths paths, found.equal p = true :=
  exists_of_foldl_distinct paths [] (.inl h)

/-- The path along a chain is among those that the chains make up, if the chain is empty only when
it is the only one. -/
theorem exists_pathsAlong {s : Survey} {chains : List (List Block)} {chain : List Block}
    (h : chain ∈ chains) (hempty : chain = [] → chains = [[]]) :
    ∃ p ∈ s.pathsAlong chains, p.equal (s.pathAlong chain) = true := by
  unfold pathsAlong
  by_cases honly : hasOnlyEmptyChain chains = true
  · rw [if_pos honly]
    have hchains : chains = [[]] := by
      unfold hasOnlyEmptyChain at honly
      split at honly
      · rfl
      · cases honly
    have hchain : chain = [] := by simpa [hchains] using h
    refine ⟨s.shuffledBlocks, List.mem_singleton_self _, ?_⟩
    have hsame : s.pathAlong chain = s.shuffledBlocks := by
      simp [pathAlong, shuffledBlocks, hchain, Path.has]
    rw [hsame]
    exact Path.equal_of_subset (fun _ hb => hb) (fun _ hb => hb)
  · rw [if_neg honly]
    refine exists_distinctPaths (List.mem_map_of_mem (List.mem_filter.mpr ⟨h, ?_⟩))
    have hne : chain ≠ [] := fun hnil => honly (by rw [hempty hnil]; rfl)
    simpa using hne

end Survey

/-! ### Exits of the blocks of a run -/

/-- Every question with choices that was shown was answered with some of its choices. -/
structure Traversal.Answered (t : Traversal) : Prop where
  selected : ∀ shown ∈ t.shown, shown.question.choices ≠ [] →
    ∃ a ∈ t.answers, a.question = shown.question ∧ a.selections ≠ []
  own : ∀ a ∈ t.answers, ∀ choice ∈ a.choices, choice ∈ a.question.choices

namespace Traversal

variable {s : Survey} {t : Traversal} {order : List Block} {c : Course}

theorem Sound.answered_mem (h : t.Sound s order c) {a : Answer} (ha : a ∈ t.answers) :
    a.question ∈ s.questions := by
  obtain ⟨shown, hshown, heq⟩ := h.answered a ha
  exact heq ▸ h.mem_of_shown hshown

/-- The branching answers of a block are to branching questions of it. -/
theorem Sound.branchQuestion_of_mem (h : t.Sound s order c) (hs : s.Coherent) {b : Block}
    (hb : b ∈ s.blocks) {a : Answer} (ha : a ∈ t.branchAnswers b) :
    a ∈ t.answers ∧ a.selections ≠ [] ∧ a.question ∈ b.branchQuestions := by
  obtain ⟨hmem, hown⟩ := List.mem_filter.mp ha
  simp only [Bool.and_eq_true, Bool.not_eq_true', List.isEmpty_eq_false_iff, List.any_eq_true,
    beq_iff_eq] at hown
  obtain ⟨⟨hbranch, hselected⟩, q, hq, hkey⟩ := hown
  have hquestion : q ∈ s.questions := mem_questionsUnder.mpr ⟨b, hb, hq⟩
  have hsame : q = a.question :=
    List.inj_on_of_nodup_map hs.questions hquestion (h.answered_mem hmem) hkey
  subst hsame
  refine ⟨hmem, hselected, (hs.mem_branchQuestions ?_).mpr ⟨hq, hbranch⟩⟩
  exact Block.mem_preorders_of_mem hb

/-- A branching question that was shown has a branching answer. -/
theorem Sound.branchAnswers_of_shown (h : t.Sound s order c) (hs : s.Coherent)
    (hanswered : t.Answered) {b : Block} (hb : b ∈ s.blocks) {shown : Shown}
    (hshown : shown ∈ t.shown) (hq : shown.question ∈ b.branchQuestions) :
    t.branchAnswers b ≠ [] := by
  obtain ⟨hunder, hbranch⟩ := (hs.mem_branchQuestions (Block.mem_preorders_of_mem hb)).mp hq
  -- it has choices, so it was answered
  obtain ⟨branch, hentry⟩ := List.exists_mem_of_ne_nil shown.question.branches (by
    simpa [Question.isBranch] using hbranch)
  obtain ⟨a, ha, heq, hselected⟩ := hanswered.selected shown hshown
    (List.ne_nil_of_mem (hs.offered _ (h.mem_of_shown hshown) branch hentry))
  refine List.ne_nil_of_mem (List.mem_filter.mpr ⟨ha, ?_⟩)
  simp only [heq, hbranch, hselected, Bool.and_eq_true, Bool.not_eq_true', List.any_eq_true,
    List.isEmpty_eq_false_iff, beq_iff_eq, true_and, ne_eq, not_false_eq_true]
  exact ⟨shown.question, hunder, rfl⟩

/-- In the end every opened block with a branching question has a branching answer. -/
theorem Sound.branchAnswers_ne_nil (h : t.Sound s order c) (hs : s.Coherent)
    (hplain : ∀ b ∈ s.allBlocks, b.paradigm = .all → b.branchQuestions = [])
    (hdone : t.finished = true) (hanswered : t.Answered) {b : Block} (hb : b ∈ t.visited)
    (hbranching : b.isBranching = true) : t.branchAnswers b ≠ [] := by
  have hmem : b ∈ s.blocks := h.mem_of_visited hb
  obtain ⟨q, hq⟩ := List.exists_mem_of_ne_nil b.branchQuestions (by
    simpa [Block.isBranching] using hbranching)
  obtain ⟨hunder, hbranch⟩ := (hs.mem_branchQuestions (Block.mem_preorders_of_mem hmem)).mp hq
  -- the question was shown
  obtain ⟨qs, hshows, hshown⟩ := h.shows_of_visited (finished_iff.mp hdone).1 hb
  have hvariants : ∀ d ∈ b.preorder, d.paradigm = .all →
      ∀ r ∈ d.allQuestions, r.isBranch = false := by
    intro d hd hparadigm r hr
    have hd' : d ∈ s.allBlocks := Block.mem_preorders.mpr ⟨b, hmem, hd⟩
    have hnone := hplain d hd' hparadigm
    by_contra hr'
    have hr'' := (hs.mem_branchQuestions hd').mpr ⟨hr, by simpa using hr'⟩
    rw [hnone] at hr''
    exact List.not_mem_nil hr''
  obtain ⟨shown, hmemShown, rfl⟩ := hshown q (hshows.mem_of_isBranch hvariants hunder hbranch)
  exact h.branchAnswers_of_shown hs hanswered hmem hmemShown hq

/-- A block is left by one of its exits, if one of its branching questions was answered. -/
theorem Sound.leavesBy_of_branchAnswers (h : t.Sound s order c) (hs : s.Coherent)
    (hanswered : t.Answered) {b : Block} (hb : b ∈ s.blocks)
    (hbranchAnswers : b.isBranching = true → t.branchAnswers b ≠ []) :
    b.LeavesBy (t.exit b) := by
  cases hexit : t.exit b with
  | some key =>
    obtain ⟨a, ha, hdest⟩ := Option.bind_eq_some_iff.mp hexit
    obtain ⟨choice, -, hkey⟩ := Option.bind_eq_some_iff.mp hdest
    obtain ⟨-, -, hq⟩ := h.branchQuestion_of_mem hs hb (List.mem_of_getLast? ha)
    exact Block.mem_destinations hq hkey
  | none =>
    intro hbranching hfalls
    have hne := hbranchAnswers hbranching
    obtain ⟨a, ha⟩ := Option.isSome_iff_exists.mp (List.getLast?_isSome.mpr hne)
    obtain ⟨hanswer, hselected, hq⟩ := h.branchQuestion_of_mem hs hb (List.mem_of_getLast? ha)
    cases hselections : a.selections with
    | nil => exact hselected hselections
    | cons selection selections =>
      have hfirst : a.first? = some selection.choice := by simp [Answer.first?, hselections]
      have hchoice : selection.choice ∈ a.question.choices :=
        hanswered.own a hanswer _ (by simp [Answer.choices, hselections])
      have hnone : a.question.destination? selection.choice = none := by
        simpa [exit, ha, hfirst] using hexit
      cases Block.fallsThrough_of_unmapped hfalls hq hchoice hnone

/-- **Every opened block is left by one of its exits.** -/
theorem Sound.leavesBy_exit (h : t.Sound s order c) (hs : s.Coherent)
    (hplain : ∀ b ∈ s.allBlocks, b.paradigm = .all → b.branchQuestions = [])
    (hdone : t.finished = true) (hanswered : t.Answered) {b : Block} (hb : b ∈ t.visited) :
    b.LeavesBy (t.exit b) :=
  h.leavesBy_of_branchAnswers hs hanswered (h.mem_of_visited hb) fun hbranching =>
    h.branchAnswers_ne_nil hs hplain hdone hanswered hb hbranching

/-! ### The path -/

/-- The fixed blocks of a run are one of the chains through them. -/
theorem Sound.mem_chains (h : t.Sound s order c) (hrouted : t.Routed (fixedOf order))
    (hs : s.Coherent) (hplain : ∀ b ∈ s.allBlocks, b.paradigm = .all → b.branchQuestions = [])
    (hdone : t.finished = true) (hanswered : t.Answered) {found : List (List Block)}
    (hfound : chains (fixedOf order) = .ok found) : fixedOf t.visited ∈ found := by
  have hkeys : ((fixedOf order).map (·.key)).Nodup :=
    (List.filter_sublist.map _).nodup (h.arranged.nodup hs)
  cases hvisited : fixedOf t.visited with
  | nil =>
    rw [hrouted.eq_nil_of_finished hdone hvisited, chains] at hfound
    cases hfound
    exact List.mem_singleton_self []
  | cons b post =>
    have hhead := hrouted.head (by simp [hvisited])
    rw [hvisited, List.head?_cons] at hhead
    obtain ⟨rest, hrest⟩ := List.head?_eq_some_iff.mp hhead.symm
    rw [hrest] at hfound
    have hchain := hrouted.chain
    rw [hvisited] at hchain
    have hsplit : fixedOf order = [] ++ b :: rest := hrest
    refine mem_of_chains hkeys hsplit hchain ?_ ?_ hfound
    · intro x hx
      rw [← hvisited] at hx
      exact h.leavesBy_exit hs hplain hdone hanswered (List.mem_filter.mp hx).1
    · intro x hx
      rw [← hvisited] at hx
      exact hrouted.last_of_finished h hdone hx

/-- The path along the fixed blocks of a run has the blocks of the run. -/
theorem Sound.equal_pathAlong (h : t.Sound s order c) (hs : s.Coherent) (hdone : t.finished = true) :
    Path.equal (s.pathAlong (fixedOf t.visited)) t.visited = true := by
  have hperm := h.moving_perm hdone
  refine Path.equal_of_subset (fun b hb => ?_) (fun b hb => ?_)
  · obtain ⟨hmem, hkept⟩ := List.mem_filter.mp hb
    rcases Bool.or_eq_true_iff.mp hkept with hmoves | hhas
    · exact (List.mem_filter.mp (hperm.mem_iff.mpr (List.mem_filter.mpr ⟨hmem, hmoves⟩))).1
    · obtain ⟨d, hd, hkey⟩ := List.any_eq_true.mp hhas
      have hvisited := (List.mem_filter.mp hd).1
      have hsame : d = b := hs.block_unique (h.mem_of_visited hvisited) hmem (by simpa using hkey)
      exact hsame ▸ hvisited
  · refine List.mem_filter.mpr ⟨h.mem_of_visited hb, ?_⟩
    cases hmoves : b.isRandomizable with
    | true => rfl
    | false =>
      have hfixed : b ∈ fixedOf t.visited := List.mem_filter.mpr ⟨hb, by simp [hmoves]⟩
      exact List.any_eq_true.mpr ⟨b, hfixed, beq_self_eq_true _⟩

theorem Sound.fixedChains_eq (h : t.Sound s order c) : s.fixedChains = chains (fixedOf order) := by
  unfold Survey.fixedChains orderedChains
  rw [h.arranged.fixed]
  rfl

/-- The blocks of a run are one of the paths. -/
theorem Sound.mem_paths (h : t.Sound s order c) (hrouted : t.Routed (fixedOf order))
    (hs : s.Coherent) (hdone : t.finished = true)
    (hmem : ∀ found, s.fixedChains = .ok found → fixedOf t.visited ∈ found) {paths : List Path}
    (hpaths : s.paths = .ok paths) : ∃ p ∈ paths, p.equal t.visited = true := by
  unfold Survey.paths at hpaths
  cases hfound : s.fixedChains with
  | error fault => simp [hfound, Except.map] at hpaths
  | ok found =>
    simp only [hfound, Except.map, Except.ok.injEq] at hpaths
    subst hpaths
    have hempty : fixedOf t.visited = [] → found = [[]] := by
      intro hnil
      rw [h.fixedChains_eq, hrouted.eq_nil_of_finished hdone hnil, chains] at hfound
      exact (Except.ok.inj hfound).symm
    obtain ⟨p, hp, heq⟩ := Survey.exists_pathsAlong (hmem found hfound) hempty
    exact ⟨p, hp, Path.equal_trans heq (h.equal_pathAlong hs hdone)⟩

/-- Chains and paths are found if the choices of the branching questions can be looked up. -/
theorem Sound.paths_succeeds (h : t.Sound s order c) (hs : s.Coherent)
    (hkeys : ∀ q ∈ s.questions, q.isBranch = true → ∀ choice ∈ q.choices, choice.isKey = true) :
    ∃ found paths, s.fixedChains = .ok found ∧ s.paths = .ok paths := by
  have hfalls : ∀ b ∈ fixedOf order, b.isBranching = true → ∃ v, b.fallsThrough = .ok v := by
    intro b hb _
    have hblock : b ∈ s.blocks := h.arranged.mem (List.mem_filter.mp hb).1
    refine Block.fallsThrough_succeeds fun q hq => ?_
    obtain ⟨hunder, hbranch⟩ := (hs.mem_branchQuestions (Block.mem_preorders_of_mem hblock)).mp hq
    exact hkeys q (mem_questionsUnder.mpr ⟨b, hblock, hunder⟩) hbranch
  obtain ⟨found, hfound⟩ := chains_succeeds _ hfalls
  exact ⟨found, _, h.fixedChains_eq.trans hfound, by rw [Survey.paths, h.fixedChains_eq, hfound]; rfl⟩

/-- **A run takes one of the paths.** If no branching question is in or under a block of variants and
every question with choices is answered, then the fixed blocks of a run to the end are one of the
chains, and all its blocks one of the paths. Chains and paths are found if the choices of the
branching questions can be looked up. -/
theorem takes_path {origin : Nat} {d : Document} (hread : Survey.ofDocument origin d = .ok s)
    (hv : s.Valid) (hplain : ∀ b ∈ s.allBlocks, b.paradigm = .all → b.branchQuestions = [])
    (h : Prompt s t) (hdone : t.finished = true) (hanswered : t.Answered) :
    (∀ found, s.fixedChains = .ok found → fixedOf t.visited ∈ found) ∧
    (∀ paths, s.paths = .ok paths → ∃ p ∈ paths, p.equal t.visited = true) ∧
    ((∀ q ∈ s.questions, q.isBranch = true → ∀ choice ∈ q.choices, choice.isKey = true) →
      ∃ found paths, s.fixedChains = .ok found ∧ s.paths = .ok paths) := by
  have hs := Survey.coherent_of_ofDocument hread
  obtain ⟨order, c, -, hsound, hrouted⟩ := h.invariant hs hv
  have hmem : ∀ found, s.fixedChains = .ok found → fixedOf t.visited ∈ found := by
    intro found hfound
    exact hsound.mem_chains hrouted hs hplain hdone hanswered (hsound.fixedChains_eq ▸ hfound)
  exact ⟨hmem, fun paths hpaths => hsound.mem_paths hrouted hs hdone hmem hpaths,
    hsound.paths_succeeds hs⟩

theorem answered_forkShort (more : Question) : (forkShort more).Answered where
  selected := by
    intro shown hshown _
    rcases List.mem_cons.mp hshown with rfl | hshown
    · exact ⟨_, List.mem_cons_self, rfl, by simp⟩
    · obtain rfl := List.mem_singleton.mp hshown
      exact ⟨_, List.mem_cons_of_mem _ List.mem_cons_self, rfl, by simp⟩
  own := by
    intro a ha choice hchoice
    rcases List.mem_cons.mp ha with rfl | ha
    · obtain rfl := List.mem_singleton.mp hchoice
      exact List.mem_cons_of_mem _ List.mem_cons_self
    · obtain rfl := List.mem_singleton.mp ha
      obtain rfl := List.mem_singleton.mp hchoice
      exact List.mem_cons_self

theorem takes_path_fork : Survey.ofDocument 0 (forkDocument Survey.moreFields) =
      .ok (Survey.fork Survey.more) ∧ (Survey.fork Survey.more).Valid ∧
    Prompt (Survey.fork Survey.more) (forkShort Survey.more) ∧
    (forkShort Survey.more).finished = true ∧ (forkShort Survey.more).Answered ∧
    ∃ paths, (Survey.fork Survey.more).paths = .ok paths ∧
      ∃ p ∈ paths, p.equal (forkShort Survey.more).visited = true := by
  have hprompt := prompt_forkShort Survey.fork_valid
  have hanswered := answered_forkShort Survey.more
  have hplain : ∀ b ∈ (Survey.fork Survey.more).allBlocks, b.paradigm = .all →
      b.branchQuestions = [] := by decide
  obtain ⟨-, hpath, hfound⟩ := takes_path Survey.ofDocument_fork Survey.fork_valid hplain hprompt
    (by cbv) hanswered
  obtain ⟨-, paths, -, hpaths⟩ := hfound (by decide)
  exact ⟨Survey.ofDocument_fork, Survey.fork_valid, hprompt, by cbv, hanswered, paths, hpaths,
    hpath paths hpaths⟩

/-! ### A branching question that not all choices of can be looked up -/

/-- The fields of a question with a branch on its first choice and a list for the text of its
second. -/
def trapFields : List (String × Document) := [
  ("options", .list [choiceEntry "plain", .record [("id", .str "odd"), ("text", .list [])]]),
  ("branch_map", .record [("plain", .str "3")])]

/-- The question with these fields. -/
def trap : Question :=
  plainQuestion 1 "2" [plainChoice "plain", { id := .str "odd", text := .list [] }]
    [(plainChoice "plain", ⟨0, 2⟩)]

theorem ofDocument_trap :
    Survey.ofDocument 0 (forkDocument trapFields) = .ok (Survey.fork trap) := by
  unfold Survey.ofDocument
  rw [@readBlocks_leaves 0 (forkDocument trapFields) [_, _, _] (by cbv) (by cbv)]
  cbv

/-- A run passes the question by, but no paths are found because of it. -/
theorem trap_no_paths : Survey.ofDocument 0 (forkDocument trapFields) = .ok (Survey.fork trap) ∧
    (Survey.fork trap).Valid ∧
    (∀ b ∈ (Survey.fork trap).allBlocks, b.paradigm = .all → b.branchQuestions = []) ∧
    Prompt (Survey.fork trap) (forkShort trap) ∧ (forkShort trap).finished = true ∧
    (forkShort trap).Answered ∧ (Survey.fork trap).paths = .error .illTyped ∧
    (Survey.fork trap).fixedChains = .error .illTyped := by
  have hvalid : (Survey.fork trap).Valid := by decide
  refine ⟨ofDocument_trap, hvalid, by decide, prompt_forkShort hvalid, by cbv, answered_forkShort trap, ?_, ?_⟩
  · cbv
  · cbv

end Traversal

end Questionnaire
