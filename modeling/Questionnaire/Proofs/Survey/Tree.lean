/-
# The questions of a tree of blocks

Depth first, a block comes before the blocks under it, and its own questions
before theirs.

Key definitions: `questionsUnder`, `Block.allQuestions`.
-/
import Mathlib.Data.List.Flatten
import Questionnaire.Survey.Basic

namespace Questionnaire

namespace Block

theorem preorders_append (as bs : List Block) :
    preorders (as ++ bs) = preorders as ++ preorders bs := by
  simp only [preorders_eq_flatMap, List.flatMap_append]

theorem preorders_cons (b : Block) (bs : List Block) :
    preorders (b :: bs) = b :: (preorders b.subBlocks ++ preorders bs) := by
  rw [preorders, preorder_eq, List.cons_append]

theorem mem_preorder_self (b : Block) : b ∈ b.preorder := by
  rw [preorder_eq]
  exact List.mem_cons_self

theorem mem_preorders {bs : List Block} {c : Block} :
    c ∈ preorders bs ↔ ∃ b ∈ bs, c ∈ b.preorder := by
  rw [preorders_eq_flatMap, List.mem_flatMap]

theorem mem_preorders_of_mem {bs : List Block} {b : Block} (h : b ∈ bs) : b ∈ preorders bs :=
  mem_preorders.mpr ⟨b, h, b.mem_preorder_self⟩

theorem mem_preorders_iff_under {bs : List Block} {c : Block} :
    c ∈ preorders bs ↔ c ∈ bs ∨ ∃ b ∈ bs, c ∈ preorders b.subBlocks := by
  simp only [@mem_preorders bs, preorder_eq, List.mem_cons]
  constructor
  · rintro ⟨b, hb, rfl | hunder⟩
    · exact .inl hb
    · exact .inr ⟨b, hb, hunder⟩
  · rintro (hc | ⟨b, hb, hunder⟩)
    · exact ⟨c, hc, .inl rfl⟩
    · exact ⟨b, hb, .inr hunder⟩

theorem preorder_subset_of_mem {b c : Block} (h : c ∈ b.subBlocks) : c.preorder ⊆ b.preorder := by
  rw [preorder_eq b]
  exact fun x hx => List.mem_cons_of_mem b (mem_preorders.mpr ⟨c, h, hx⟩)

theorem preorder_subset_of_mem_preorder (b : Block) {c : Block} (h : c ∈ b.preorder) :
    c.preorder ⊆ b.preorder := by
  rw [preorder_eq, List.mem_cons, mem_preorders] at h
  rcases h with rfl | ⟨d, hd, hc⟩
  · exact fun _ hx => hx
  · exact fun _ hx => preorder_subset_of_mem hd (preorder_subset_of_mem_preorder d hc hx)
termination_by sizeOf b
decreasing_by exact sizeOf_subBlock hd

theorem sublist_preorders : ∀ bs : List Block, bs.Sublist (preorders bs)
  | [] => .slnil
  | b :: bs => by
    rw [preorders_cons]
    exact ((sublist_preorders bs).trans (List.sublist_append_right _ _)).cons_cons b

/-- The questions in and under the block, depth first. -/
def allQuestions (b : Block) : List Question := b.preorder.flatMap (·.questions)

end Block

/-- The questions in and under the blocks of a list, depth first. -/
def questionsUnder (bs : List Block) : List Question := (Block.preorders bs).flatMap (·.questions)

theorem Block.allQuestions_eq (b : Block) :
    b.allQuestions = b.questions ++ questionsUnder b.subBlocks := by
  rw [allQuestions, preorder_eq, List.flatMap_cons, questionsUnder]

theorem questionsUnder_eq_flatMap (bs : List Block) :
    questionsUnder bs = bs.flatMap (·.allQuestions) := by
  simp only [questionsUnder, Block.preorders_eq_flatMap, List.flatMap_assoc, Block.allQuestions]

theorem questionsUnder_append (as bs : List Block) :
    questionsUnder (as ++ bs) = questionsUnder as ++ questionsUnder bs := by
  simp only [questionsUnder_eq_flatMap, List.flatMap_append]

theorem questionsUnder_cons (b : Block) (bs : List Block) :
    questionsUnder (b :: bs) = b.allQuestions ++ questionsUnder bs := by
  simp only [questionsUnder_eq_flatMap, List.flatMap_cons]

theorem questionsUnder_sublist {as bs : List Block} (h : as.Sublist bs) :
    (questionsUnder as).Sublist (questionsUnder bs) := by
  simp only [questionsUnder_eq_flatMap, List.flatMap]
  exact (h.map _).flatten

theorem mem_questionsUnder {bs : List Block} {q : Question} :
    q ∈ questionsUnder bs ↔ ∃ b ∈ bs, q ∈ b.allQuestions := by
  rw [questionsUnder_eq_flatMap, List.mem_flatMap]

theorem Survey.questions_eq (s : Survey) : s.questions = questionsUnder s.blocks := rfl

end Questionnaire
