/-
# What is opened with a block

With a block the blocks under it are opened, down to blocks of variants: of
those one question is drawn, and what is under them is not seen. So what is
drawn for a block comes from the blocks opened with it and from the variants
that these hold.

Key definitions: `Block.Opens`, `Block.opened`, `Block.variants`, `Block.Hollow`.
Key theorem: `Block.mem_opened_iff`.
-/
import Mathlib.Logic.Relation
import Questionnaire.Proofs.Survey.Tree

namespace Questionnaire

open Relation

namespace Block

/-- The other block is opened as part of the block. -/
def Opens (b c : Block) : Prop := c ∈ b.subBlocks ∧ c.paradigm ≠ .all

mutual

/-- The block and all blocks that are opened with it, depth first. -/
def opened : Block → List Block
  | ⟨key, id, questions, subBlocks, randomizable, paradigm, branchIndex⟩ =>
    ⟨key, id, questions, subBlocks, randomizable, paradigm, branchIndex⟩ :: openedUnder subBlocks

/-- The blocks that are opened of those inside a block. -/
def openedUnder : List Block → List Block
  | [] => []
  | c :: cs => if c.paradigm = .all then openedUnder cs else c.opened ++ openedUnder cs

end

/-- The blocks of variants among those that the block holds. -/
def ownVariants (b : Block) : List Block := b.subBlocks.filter fun c => decide (c.paradigm = .all)

/-- The blocks of variants that the opened blocks hold. -/
def variants (b : Block) : List Block := b.opened.flatMap ownVariants

/-- The blocks of variants among those inside a block and those that the opened ones of them hold. -/
def variantsUnder (bs : List Block) : List Block :=
  (bs.filter fun c => decide (c.paradigm = .all)) ++ (openedUnder bs).flatMap ownVariants

/-- Nothing can be drawn for the block: it has no contents, or holds variants without questions. -/
def Hollow (b : Block) : Prop := b.contentsSize = 0 ∨ ∃ c ∈ b.ownVariants, c.questions = []

theorem opened_eq (b : Block) : b.opened = b :: openedUnder b.subBlocks := by
  cases b; rw [opened]

theorem variants_eq (b : Block) : b.variants = variantsUnder b.subBlocks := by
  rw [variants, opened_eq, List.flatMap_cons]
  rfl

theorem mem_openedUnder {bs : List Block} {c : Block} :
    c ∈ openedUnder bs ↔ ∃ d ∈ bs, d.paradigm ≠ .all ∧ c ∈ d.opened := by
  induction bs with
  | nil => simp [openedUnder]
  | cons d ds ih =>
    rw [openedUnder]
    by_cases hall : d.paradigm = .all
    · rw [if_pos hall, ih]
      simp [hall]
    · rw [if_neg hall, List.mem_append, ih]
      simp [hall]

theorem mem_opened {b c : Block} : c ∈ b.opened ↔ c = b ∨ ∃ d, b.Opens d ∧ c ∈ d.opened := by
  rw [opened_eq, List.mem_cons, mem_openedUnder]
  simp only [Opens, and_assoc]

theorem mem_opened_self (b : Block) : b ∈ b.opened := mem_opened.mpr (.inl rfl)

/-- **The blocks that are opened are those that one gets to through blocks that are no variants.** -/
theorem mem_opened_iff {b c : Block} : c ∈ b.opened ↔ ReflTransGen Opens b c := by
  constructor
  · intro h
    rcases mem_opened.mp h with rfl | ⟨d, hd, hc⟩
    · exact .refl
    · have hsmaller := sizeOf_subBlock hd.1
      exact .head hd (mem_opened_iff.mp hc)
  · intro h
    induction h using ReflTransGen.head_induction_on with
    | refl => exact c.mem_opened_self
    | head hd _ ih => exact mem_opened.mpr (.inr ⟨_, hd, ih⟩)
termination_by sizeOf b

theorem mem_ownVariants {b c : Block} : c ∈ b.ownVariants ↔ c ∈ b.subBlocks ∧ c.paradigm = .all := by
  simp [ownVariants]

theorem mem_preorder_of_opened {b c : Block} (h : c ∈ b.opened) : c ∈ b.preorder := by
  have hreach := mem_opened_iff.mp h
  clear h
  induction hreach with
  | refl => exact b.mem_preorder_self
  | @tail d c _ hopens ih =>
    exact b.preorder_subset_of_mem_preorder ih (preorder_subset_of_mem hopens.1 c.mem_preorder_self)

end Block

end Questionnaire
