/-
# Blocks that branch

In a survey that was read the branching questions of a block are all questions
in and under it with branches. A block falls through if one of their choices has
no branch; this can be told if all choices can be looked up.

Key theorems: `Survey.Coherent.mem_branchQuestions`,
`Block.fallsThrough_of_unmapped`, `Block.fallsThrough_succeeds`.
-/
import Questionnaire.Proofs.Survey.Choice
import Questionnaire.Proofs.Survey.Numbering
import Questionnaire.Survey.Branching

namespace Questionnaire

/-! ### Branching questions -/

theorem Block.mem_ownBranchQuestions {b : Block} (hkeys : (b.questions.map (·.key)).Nodup)
    {q : Question} : q ∈ b.ownBranchQuestions ↔ q ∈ b.questions ∧ q.isBranch = true := by
  have hown : ∀ r, b.branchQuestion? = some r → r ∈ b.questions := by
    intro r hr
    obtain ⟨i, -, hi⟩ := Option.bind_eq_some_iff.mp hr
    exact List.mem_of_getElem? hi
  simp only [ownBranchQuestions, List.mem_append, List.mem_filter, Option.mem_toList,
    Bool.and_eq_true, Bool.not_eq_true']
  constructor
  · rintro (⟨hfirst, hbranch⟩ | ⟨hmem, hbranch, -⟩)
    · exact ⟨hown q hfirst, hbranch⟩
    · exact ⟨hmem, hbranch⟩
  · rintro ⟨hmem, hbranch⟩
    cases hfirst : b.branchQuestion? with
    | none => exact .inr ⟨hmem, hbranch, rfl⟩
    | some r =>
      by_cases hkey : r.key = q.key
      · have hsame : r = q := List.inj_on_of_nodup_map hkeys (hown r hfirst) hmem hkey
        exact .inl ⟨by simp [hsame], hbranch⟩
      · exact .inr ⟨hmem, hbranch, by simpa using hkey⟩

namespace Survey

variable {s : Survey}

/-- The branching questions of a block are the questions in and under it that branch. -/
theorem Coherent.mem_branchQuestions (hs : s.Coherent) {b : Block} (hb : b ∈ s.allBlocks)
    {q : Question} : q ∈ b.branchQuestions ↔ q ∈ b.allQuestions ∧ q.isBranch = true := by
  have hkeys : ∀ c ∈ b.preorder, (c.questions.map (·.key)).Nodup := by
    intro c hc
    obtain ⟨top, htop, hb⟩ := Block.mem_preorders.mp hb
    have hmem : c ∈ s.allBlocks :=
      Block.mem_preorders.mpr ⟨top, htop, top.preorder_subset_of_mem_preorder hb hc⟩
    have hsub : c.questions.Sublist s.questions :=
      List.sublist_flatten_of_mem (List.mem_map_of_mem hmem)
    exact (hsub.map _).nodup hs.questions
  simp only [Block.branchQuestions, Block.allQuestions, List.mem_flatMap]
  constructor
  · rintro ⟨c, hc, hq⟩
    obtain ⟨hmem, hbranch⟩ := (Block.mem_ownBranchQuestions (hkeys c hc)).mp hq
    exact ⟨⟨c, hc, hmem⟩, hbranch⟩
  · rintro ⟨⟨c, hc, hmem⟩, hbranch⟩
    exact ⟨c, hc, (Block.mem_ownBranchQuestions (hkeys c hc)).mpr ⟨hmem, hbranch⟩⟩

end Survey

/-! ### Falling through -/

namespace Block

theorem leadsOn_of_unmapped : ∀ {pairs : List (Question × Choice)} {v : Bool} {q : Question}
    {c : Choice}, leadsOn pairs = .ok v → (q, c) ∈ pairs → q.destination? c = none → v = true
  | [], _, _, _, _, hmem, _ => by simp at hmem
  | (q', c') :: pairs, v, q, c, h, hmem, hnone => by
    rw [leadsOn] at h
    obtain ⟨dest, hdest, hrest⟩ := bind_eq_ok.mp h
    by_cases hopen : dest.isNone = true
    · rw [if_pos hopen] at hrest
      exact (Except.ok.inj hrest).symm
    · rw [if_neg hopen] at hrest
      rcases List.mem_cons.mp hmem with heq | hmem
      · cases heq
        unfold Question.destination at hdest
        split at hdest
        · cases hdest
          simp [hnone] at hopen
        · cases hdest
      · exact leadsOn_of_unmapped hrest hmem hnone

theorem leadsOn_succeeds : ∀ {pairs : List (Question × Choice)},
    (∀ pair ∈ pairs, pair.2.isKey = true) → ∃ v, leadsOn pairs = .ok v
  | [], _ => ⟨false, rfl⟩
  | (q, c) :: pairs, h => by
    obtain ⟨v, hv⟩ := leadsOn_succeeds fun pair hpair => h pair (List.mem_cons_of_mem _ hpair)
    rw [leadsOn, Question.destination, if_pos (h (q, c) List.mem_cons_self)]
    simp only [bind, Except.bind]
    split
    · exact ⟨true, rfl⟩
    · exact ⟨v, hv⟩

/-- A block with a branching question falls through if a choice of it has no branch. -/
theorem fallsThrough_of_unmapped {b : Block} {v : Bool} (h : b.fallsThrough = .ok v) {q : Question}
    {c : Choice} (hq : q ∈ b.branchQuestions) (hc : c ∈ q.choices)
    (hnone : q.destination? c = none) : v = true :=
  leadsOn_of_unmapped h (List.mem_flatMap.mpr ⟨q, hq, List.mem_map_of_mem hc⟩) hnone

/-- Whether a block falls through can be told if the choices of its branching questions can be
looked up. -/
theorem fallsThrough_succeeds {b : Block}
    (h : ∀ q ∈ b.branchQuestions, ∀ c ∈ q.choices, c.isKey = true) :
    ∃ v, b.fallsThrough = .ok v := by
  refine leadsOn_succeeds fun pair hpair => ?_
  obtain ⟨q, hq, hmem⟩ := List.mem_flatMap.mp hpair
  obtain ⟨c, hc, rfl⟩ := List.mem_map.mp hmem
  exact h q hq c hc

/-- Where a choice of a branching question leads is one of the destinations of the block. -/
theorem mem_destinations {b : Block} {q : Question} {c : Choice} {key : Key}
    (hq : q ∈ b.branchQuestions) (h : q.destination? c = some key) : key ∈ b.destinations := by
  obtain ⟨branch, hbranch, -, rfl⟩ := Question.branch_of_destination h
  exact List.mem_flatMap.mpr ⟨q, hq, List.mem_map_of_mem hbranch⟩

end Block

end Questionnaire
