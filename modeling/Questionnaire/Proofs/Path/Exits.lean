/-
# The exits that a block has and those that are taken

When the last question of a fixed block was answered, what is pending should be
one of the exits that the block has as it stands: a destination of one of its
branching questions, or none if it has no such question or a choice of one of
them leads on to the next block.

A destination that is pending always is. But the questions of a block of
variants count for the exits although only one of them is shown: a respondent
who sees none of the branching questions goes on to the next block, also if the
block has no such exit. So all is well exactly if the block may be left for the
next one, or one of its branching questions was shown.

Key definitions: `Block.HasExit`, `Block.alwaysBranches`.
Key theorems: `Block.alwaysBranches_iff`, `Block.mem_starts_iff`,
`Traversal.leaves_by_exit_iff`.
-/
import Questionnaire.Proofs.Path.Visited
import Questionnaire.Proofs.Survey.References

namespace Questionnaire

/-! ### Exits -/

/-- The exit is one of those that the block has as it stands. -/
def Block.HasExit (b : Block) : Option Key → Prop
  | some key => key ∈ b.destinations
  | none => b.isBranching = false ∨ b.fallsThrough = .ok true

theorem Block.LeavesBy.hasExit {b : Block} {exit : Option Key} {falls : Bool}
    (hfalls : b.fallsThrough = .ok falls) (h : b.LeavesBy exit) : b.HasExit exit := by
  cases exit with
  | some key => exact h
  | none =>
    cases hbranching : b.isBranching with
    | false => exact .inl hbranching
    | true =>
      have hnot := h hbranching
      rw [hfalls] at hnot
      cases falls with
      | true => exact .inr hfalls
      | false => exact absurd rfl hnot

/-- **A block may be followed by the block right after it, or by a destination that comes later,
exactly if it has that exit.** -/
theorem Block.mem_starts_iff {b : Block} {rest : List Block} {starts : List Nat}
    (h : b.starts rest = .ok starts) {i : Nat} : i ∈ starts ↔ i = 0 ∧ b.HasExit none ∨
      ∃ key, b.HasExit (some key) ∧ rest.findIdx? (·.key == key) = some i := by
  unfold Block.starts at h
  split at h
  · rename_i hbranching
    obtain ⟨leadsOn, hfalls, h₁⟩ := bind_eq_ok.mp h
    cases h₁
    have hnone : b.HasExit none ↔ leadsOn = true := by
      simp [HasExit, hbranching, hfalls]
    have hlt : ∀ key, rest.findIdx? (·.key == key) = some i → i < rest.length + 1 := by
      intro key hi
      obtain ⟨hlt, -⟩ := List.findIdx?_eq_some_iff_getElem.mp hi
      omega
    rw [hnone, List.mem_filter, List.mem_range]
    simp only [Bool.or_eq_true, Bool.and_eq_true, beq_iff_eq, List.any_eq_true]
    constructor
    · rintro ⟨-, hzero | hdest⟩
      · exact .inl hzero
      · exact .inr hdest
    · rintro (⟨rfl, hon⟩ | ⟨key, hkey, hi⟩)
      · exact ⟨Nat.succ_pos _, .inl ⟨rfl, hon⟩⟩
      · exact ⟨hlt key hi, .inr ⟨key, hkey, hi⟩⟩
  · rename_i hbranching
    cases h
    have hdestinations : b.destinations = [] := by
      have hnil : b.branchQuestions = [] := by simpa [isBranching] using hbranching
      simp [destinations, hnil]
    simp [HasExit, hdestinations, hbranching]

/-- A destination of a block of a valid survey comes later. -/
theorem Survey.leadsAhead_of_destination {s : Survey} (hs : s.Coherent) (hv : s.Valid) {b : Block}
    (hb : b ∈ s.blocks) {key : Key} (hkey : key ∈ b.destinations) : s.LeadsAhead b key := by
  obtain ⟨q, hq, hmem⟩ := List.mem_flatMap.mp hkey
  obtain ⟨branch, hbranch, rfl⟩ := List.mem_map.mp hmem
  have hunder := ((hs.mem_branchQuestions (Block.mem_preorders_of_mem hb)).mp hq).1
  exact s.leadsAhead_of_valid hs hv hb hunder hbranch

/-! ### Blocks that always show a branching question -/

mutual

/-- Whether a branching question of the block is shown whatever is drawn: an own one or one of
those blocks under it, of which a block of variants must have no other questions. -/
def Block.alwaysBranches : Block → Bool
  | ⟨_, _, questions, subBlocks, _, _, _⟩ =>
    questions.any (·.isBranch) || anyAlwaysBranches subBlocks

/-- Whether a branching question is shown of one of the blocks inside another. -/
def anyAlwaysBranches : List Block → Bool
  | [] => false
  | c :: cs =>
    (if c.paradigm = .all then c.questions.all (·.isBranch) else c.alwaysBranches) ||
      anyAlwaysBranches cs

end

theorem Block.alwaysBranches_eq (b : Block) :
    b.alwaysBranches = (b.questions.any (·.isBranch) || anyAlwaysBranches b.subBlocks) := by
  cases b; rw [alwaysBranches]

theorem Seen.any_isBranch {bs : List Block} {qs : List Question} (h : Seen bs qs)
    (hbs : anyAlwaysBranches bs = true) : qs.any (·.isBranch) = true := by
  induction h with
  | nil => rw [anyAlwaysBranches] at hbs; cases hbs
  | @variant c cs q rest hall hq _ ih =>
    rw [anyAlwaysBranches, if_pos hall, Bool.or_eq_true] at hbs
    rw [List.any_cons, Bool.or_eq_true]
    exact hbs.imp (fun hc => List.all_eq_true.mp hc q hq) ih
  | @whole c cs inner qs rest hnot _ hperm _ ihinner ihrest =>
    rw [anyAlwaysBranches, if_neg hnot, Bool.or_eq_true, Block.alwaysBranches_eq,
      Bool.or_eq_true] at hbs
    rw [List.any_append, Bool.or_eq_true, hperm.any_eq, List.any_append, Bool.or_eq_true]
    exact hbs.imp (fun hc => hc.imp_right ihinner) ihrest

/-- Otherwise some respondents see no branching question. -/
theorem exists_seen_plain : ∀ bs : List Block, anyAlwaysBranches bs = false →
    ∃ qs, Seen bs qs ∧ qs.any (·.isBranch) = false
  | [], _ => ⟨[], .nil, rfl⟩
  | c :: cs, h => by
    rw [anyAlwaysBranches, Bool.or_eq_false_iff] at h
    obtain ⟨rest, hrest, hplain⟩ := exists_seen_plain cs h.2
    by_cases hall : c.paradigm = .all
    · rw [if_pos hall] at h
      obtain ⟨q, hq, hbranch⟩ := List.all_eq_false.mp h.1
      exact ⟨q :: rest, .variant hall hq hrest, by simp [hplain, hbranch]⟩
    · rw [if_neg hall, Block.alwaysBranches_eq, Bool.or_eq_false_iff] at h
      obtain ⟨inner, hinner, hplain'⟩ := exists_seen_plain c.subBlocks h.1.2
      refine ⟨_, .whole hall hinner (.refl _) hrest, ?_⟩
      rw [List.any_append, List.any_append, h.1.1, hplain', hplain]
      rfl
termination_by bs => sizeOf bs
decreasing_by
  · simp only [List.cons.sizeOf_spec]
    omega
  · cases c
    simp only [List.cons.sizeOf_spec, Block.mk.sizeOf_spec]
    omega

/-- **All respondents see a branching question of the block exactly if it always branches.** -/
theorem Block.alwaysBranches_iff {b : Block} : b.alwaysBranches = true ↔
    ∀ qs, b.Shows qs → qs.any (·.isBranch) = true := by
  constructor
  · rintro h qs ⟨inner, hinner, hperm⟩
    rw [alwaysBranches_eq, Bool.or_eq_true] at h
    rw [hperm.any_eq, List.any_append, Bool.or_eq_true]
    exact h.imp_right hinner.any_isBranch
  · intro h
    by_contra hnot
    rw [alwaysBranches_eq, Bool.not_eq_true, Bool.or_eq_false_iff] at hnot
    obtain ⟨inner, hinner, hplain⟩ := exists_seen_plain b.subBlocks hnot.2
    have hany := h _ ⟨inner, hinner, .refl _⟩
    rw [List.any_append, hnot.1, hplain] at hany
    cases hany

/-! ### The exit that is taken -/

namespace Traversal

variable {s : Survey} {t : Traversal} {order : List Block} {c : Course} {b : Block}

/-- What is pending when a fixed block is open is the exit of that block. -/
theorem Sound.pending_eq_exit (h : t.Sound s order c) (hrouted : t.Routed (fixedOf order))
    (hb : t.visited.getLast? = some b) (hfixed : b.isRandomizable = false) :
    b = c.current ∧ t.pending = t.exit b := by
  rw [h.visited, List.getLast?_concat, Option.some.injEq] at hb
  subst hb
  have hlast : (fixedOf t.visited).getLast? = some c.current := by
    simp [h.visited, fixedOf, List.filter_append, hfixed]
  exact ⟨rfl, (hrouted.last _ hlast).1⟩

/-- It is one of the exits that the block has exactly if the next block is one of them, or a
branching question of the block was shown. -/
theorem Sound.hasExit_iff (h : t.Sound s order c) (hs : s.Coherent) (hanswered : t.Answered)
    (hb : b ∈ s.blocks) (hpending : t.pending = t.exit b) {falls : Bool}
    (hfalls : b.fallsThrough = .ok falls) : b.HasExit t.pending ↔ b.isBranching = false ∨
      falls = true ∨ ∃ shown ∈ t.shown, shown.question ∈ b.branchQuestions := by
  have hnext : b.HasExit none ↔ b.isBranching = false ∨ falls = true := by
    simp [Block.HasExit, hfalls]
  rw [hpending]
  by_cases hnil : t.branchAnswers b = []
  · -- no branching question of the block was answered, so none was shown
    have hnone : t.exit b = none := by simp [exit, hnil]
    rw [hnone, hnext]
    refine ⟨fun hexit => hexit.imp_right .inl, fun hexit => ?_⟩
    rcases hexit with hexit | hexit | ⟨shown, hshown, hq⟩
    · exact .inl hexit
    · exact .inr hexit
    · exact absurd hnil (h.branchAnswers_of_shown hs hanswered hb hshown hq)
  · have hexit : b.HasExit (t.exit b) :=
      (h.leavesBy_of_branchAnswers hs hanswered hb fun _ => hnil).hasExit hfalls
    obtain ⟨a, ha⟩ := List.exists_mem_of_ne_nil _ hnil
    obtain ⟨hanswer, -, hq⟩ := h.branchQuestion_of_mem hs hb ha
    obtain ⟨shown, hshown, heq⟩ := h.answered a hanswer
    exact ⟨fun _ => .inr (.inr ⟨shown, hshown, heq ▸ hq⟩), fun _ => hexit⟩

/-- Of a block that always branches a branching question was shown when no question is open. -/
theorem Sound.shown_of_alwaysBranches (h : t.Sound s order c) (hs : s.Coherent)
    (hq : t.questions = []) (hb : b ∈ t.visited) (halways : b.alwaysBranches = true) :
    ∃ shown ∈ t.shown, shown.question ∈ b.branchQuestions := by
  obtain ⟨qs, hshows, hshown⟩ := h.shows_of_visited hq hb
  obtain ⟨q, hmem, hbranch⟩ := List.any_eq_true.mp (Block.alwaysBranches_iff.mp halways qs hshows)
  obtain ⟨shown, hmemShown, rfl⟩ := hshown q hmem
  refine ⟨shown, hmemShown, (hs.mem_branchQuestions ?_).mpr ⟨hshows.subperm.subset hmem, hbranch⟩⟩
  exact Block.mem_preorders_of_mem (h.mem_of_visited hb)

/-- Every destination of the open block is one of the fixed blocks to come. -/
theorem Sound.destination_ahead (h : t.Sound s order c) (hs : s.Coherent) (hv : s.Valid)
    {key : Key} (hkey : key ∈ c.current.destinations) :
    ∃ i, (fixedOf t.blocks).findIdx? (·.key == key) = some i := by
  have hb : c.current ∈ s.blocks := h.mem_of_visited (by simp [h.visited])
  have hahead := Survey.leadsAhead_of_destination hs hv hb hkey
  obtain ⟨dest, hdest, hkey, hfixed⟩ := h.arranged.ahead h.splits hahead
  refine Option.isSome_iff_exists.mp (List.findIdx?_isSome.trans ?_)
  exact List.any_eq_true.mpr ⟨dest, List.mem_filter.mpr ⟨hdest, by simp [hfixed]⟩, by simp [hkey]⟩

/-- **When the last question of a fixed block was answered, what is pending is one of the exits of
the block** exactly if the block has no branching question, a choice of one of them leads on to the
next block, or one of them was shown; a block that always branches is among these. The exits are
where chains go on after the block, and every destination comes later. -/
theorem leaves_by_exit_iff {origin : Nat} {d : Document}
    (hread : Survey.ofDocument origin d = .ok s) (hv : s.Valid) (h : Prompt s t)
    (hanswered : t.Answered) (hq : t.questions = []) (hb : t.visited.getLast? = some b)
    (hfixed : b.isRandomizable = false) {falls : Bool} (hfalls : b.fallsThrough = .ok falls) :
    (b.HasExit t.pending ↔ b.isBranching = false ∨ falls = true ∨
      ∃ shown ∈ t.shown, shown.question ∈ b.branchQuestions) ∧
    (b.alwaysBranches = true → b.HasExit t.pending) ∧
    ∃ before rest starts, sortBlocks s.fixedBlocks = .ok (before ++ b :: rest) ∧
      b.starts rest = .ok starts ∧
      (∀ i, i ∈ starts ↔ i = 0 ∧ b.HasExit none ∨
        ∃ key, b.HasExit (some key) ∧ rest.findIdx? (·.key == key) = some i) ∧
      ∀ key ∈ b.destinations, ∃ i, rest.findIdx? (·.key == key) = some i := by
  have hs := Survey.coherent_of_ofDocument hread
  obtain ⟨order, c, -, hsound, hrouted⟩ := h.invariant hs hv
  obtain ⟨rfl, hpending⟩ := hsound.pending_eq_exit hrouted hb hfixed
  have hvisited : c.current ∈ t.visited := List.mem_of_getLast? hb
  have hiff := hsound.hasExit_iff hs hanswered (hsound.mem_of_visited hvisited) hpending hfalls
  have hsome : ∃ starts, c.current.starts (fixedOf t.blocks) = .ok starts :=
    Block.starts_succeeds fun _ => ⟨falls, hfalls⟩
  obtain ⟨starts, hstarts⟩ := hsome
  refine ⟨hiff, fun halways => ?_, fixedOf c.behind, fixedOf t.blocks, starts, ?_, hstarts,
    fun i => Block.mem_starts_iff hstarts, fun key hkey => hsound.destination_ahead hs hv hkey⟩
  · exact hiff.mpr (.inr (.inr (hsound.shown_of_alwaysBranches hs hq hvisited halways)))
  · rw [hsound.arranged.fixed, hsound.splits]
    simp [fixedOf, hfixed]

theorem answered_forkSent (more : Question) : (forkSent more).Answered where
  selected := by
    intro shown hshown _
    obtain rfl := List.mem_singleton.mp hshown
    exact ⟨_, List.mem_singleton_self _, rfl, by simp⟩
  own := by
    intro a ha choice hchoice
    obtain rfl := List.mem_singleton.mp ha
    obtain rfl := List.mem_singleton.mp hchoice
    exact List.mem_cons_of_mem _ List.mem_cons_self

theorem leaves_by_exit_fork : Survey.ofDocument 0 (forkDocument Survey.moreFields) =
      .ok (Survey.fork Survey.more) ∧ (Survey.fork Survey.more).Valid ∧
    Prompt (Survey.fork Survey.more) (forkSent Survey.more) ∧ (forkSent Survey.more).Answered ∧
    (forkSent Survey.more).questions = [] ∧
    (forkSent Survey.more).visited.getLast? = some (plainBlock 0 "1" Survey.forkFirst) ∧
    (plainBlock 0 "1" Survey.forkFirst).isRandomizable = false ∧
    (plainBlock 0 "1" Survey.forkFirst).fallsThrough = .ok true ∧
    (plainBlock 0 "1" Survey.forkFirst).HasExit (forkSent Survey.more).pending := by
  have hprompt := prompt_forkSent Survey.fork_valid
  have hanswered := answered_forkSent Survey.more
  have hfalls : (plainBlock 0 "1" Survey.forkFirst).fallsThrough = .ok true := by cbv
  obtain ⟨hiff, -, -⟩ := leaves_by_exit_iff Survey.ofDocument_fork Survey.fork_valid hprompt
    hanswered rfl rfl rfl hfalls
  exact ⟨Survey.ofDocument_fork, Survey.fork_valid, hprompt, hanswered, rfl, rfl, rfl, hfalls,
    hiff.mpr (.inr (.inl rfl))⟩

/-! ### Variants of which one branches -/

/-- The entries of a block of variants. Whoever sees the first of them is sent to the last block. -/
def variantEntries : List (Document × Document) := [
  (.str "id", .str "1.1"), (.str "branch_paradigm", .str "all"),
  (.str "questions", .list [
    .record [("id", .str "qa"), ("options", .list [choiceEntry "a"]),
      ("branch_map", .record [("a", .str "3")])],
    .record [("id", .str "qb"), ("options", .list [choiceEntry "b"])]])]

/-- The entries of the block around them. -/
def aroundEntries : List (Document × Document) :=
  [(.str "id", .str "1"), (.str "sub_blocks", .list [.map variantEntries])]

/-- A document with that block and two others. -/
def detourDocument : Document := .record [
  ("name", .str "detour"),
  ("blocks", .list [.map aroundEntries, blockEntry "2" [], blockEntry "3" []])]

/-- The variant that does not branch. -/
def plainVariant : Question := plainQuestion 1 "b" [plainChoice "b"] []

/-- The block with the variants in a block under it. -/
def aroundBlock : Block where
  key := ⟨0, 0⟩
  id := .str "1"
  subBlocks := [{
    key := ⟨0, 1⟩, id := .str "1.1", paradigm := .all
    questions := [plainQuestion 0 "a" [plainChoice "a"] [(plainChoice "a", ⟨0, 3⟩)], plainVariant] }]

/-- The survey of the document. -/
def detour : Survey where
  name := .str "detour"
  blocks := [aroundBlock, plainBlock 2 "2" (plainQuestion 2 "2" [] []),
    plainBlock 3 "3" (plainQuestion 3 "3" [] [])]

/-- The traversal of the survey with the variant that does not branch open. -/
def detourOpen : Traversal where
  survey := detour
  gen := ⟨15755400384260043839⟩
  blocks := [plainBlock 2 "2" (plainQuestion 2 "2" [] []), plainBlock 3 "3" (plainQuestion 3 "3" [] [])]
  questions := [plainVariant]
  pending := none
  shown := []
  answers := []
  visited := [aroundBlock]

/-- The variant as it is shown. -/
def plainVariantShown : Shown := ⟨plainVariant, [⟨plainChoice "b", .int 0⟩], 0⟩

/-- The traversal after the variant was answered. -/
def detourAnswered : Traversal :=
  { detourOpen with
    questions := [], shown := [plainVariantShown]
    answers := [⟨plainVariant, [⟨plainChoice "b", .int 0⟩], .int 0⟩] }

theorem ofDocument_detour : Survey.ofDocument 0 detourDocument = .ok detour := by
  have haround : Block.readIn 0 0 (.map aroundEntries) = Block.readListed 0 0 aroundEntries
      [.map variantEntries] := Block.readIn_listed (by cbv)
  have hvariants : Block.readIn 0 0 (.map variantEntries) = Block.readLeaf 0 variantEntries :=
    Block.readIn_leaf (by cbv)
  have hplain : ∀ id, Block.readIn 0 0 (blockEntry id []) = Block.readLeaf 0
      [(.str "id", .str id), (.str "questions", .list [.record [("id", .str ("q" ++ id))]])] :=
    fun id => Block.readIn_leaf (by cbv)
  have hblocks : readBlocks 0 detourDocument = do
      let around ← Block.readIn 0 0 (.map aroundEntries)
      let second ← Block.readIn 0 0 (blockEntry "2" [])
      let third ← Block.readIn 0 0 (blockEntry "3" [])
      return [around, second, third] := by
    have hlisted : (detourDocument.fieldD "blocks" (.list [])).opened =
        .list [.map aroundEntries, blockEntry "2" [], blockEntry "3" []] := by cbv
    rw [readBlocks, hlisted]
    simp only [List.mapM_cons, List.mapM_nil, bind_assoc, pure_bind]
    rfl
  unfold Survey.ofDocument
  rw [hblocks, haround, Block.readListed, List.mapM_cons, List.mapM_nil, hvariants, hplain, hplain]
  cbv

theorem prompt_detourAnswered : Prompt detour detourAnswered := by
  have hstart : start detour ⟨0⟩ = .ok (detourOpen, ⟨15755400384260043839⟩) := by
    unfold start
    rw [detour.check_eq_ok_iff.mpr (by decide)]
    cbv
  have hnext : detourOpen.next = (.ok plainVariantShown,
    { detourOpen with questions := [], shown := [plainVariantShown] }) := by cbv
  have hanswer : ({ detourOpen with questions := [], shown := [plainVariantShown] } :
      Traversal).answer plainVariant [plainChoice "b"] = .ok detourAnswered := by cbv
  have hmem : plainVariant ∈ detour.questions :=
    List.mem_cons_of_mem _ List.mem_cons_self
  exact ((Prompt.start hstart).next hnext).answer hmem (fun _ => ⟨_, rfl, rfl⟩) hanswer

/-- Who sees the variant that does not branch goes on to the next block, which is no exit. -/
theorem detour_no_exit : Survey.ofDocument 0 detourDocument = .ok detour ∧ detour.Valid ∧
    Prompt detour detourAnswered ∧ detourAnswered.Answered ∧ detourAnswered.questions = [] ∧
    detourAnswered.visited.getLast? = some aroundBlock ∧ aroundBlock.isRandomizable = false ∧
    aroundBlock.fallsThrough = .ok false ∧ detourAnswered.pending = none ∧
    ¬aroundBlock.HasExit detourAnswered.pending := by
  have hanswered : detourAnswered.Answered := by
    constructor
    · intro shown hshown _
      obtain rfl := List.mem_singleton.mp hshown
      exact ⟨_, List.mem_singleton_self _, rfl, by simp⟩
    · intro a ha choice hchoice
      obtain rfl := List.mem_singleton.mp ha
      obtain rfl := List.mem_singleton.mp hchoice
      exact List.mem_singleton_self _
  have hfalls : aroundBlock.fallsThrough = .ok false := by cbv
  have hbranching : aroundBlock.isBranching = true := by cbv
  refine ⟨ofDocument_detour, by decide, prompt_detourAnswered, hanswered, rfl, rfl, rfl, hfalls, rfl, ?_⟩
  rintro (hnot | hthrough)
  · rw [hbranching] at hnot
    cases hnot
  · rw [hfalls] at hthrough
    cases hthrough

end Traversal

end Questionnaire
