/-
# How many questions

How many questions a block shows when it is opened, and how many a tour takes of
it, depends on the block alone. The two numbers differ in how they count blocks
of variants: a block shows all its own questions when it is opened, also if they
are variants, and nothing of what is under a block of variants; a tour takes one
variant of every block, and goes on to the blocks under it.

Key definitions: `Block.shownCount`, `Block.tourCount`, `Block.surplus`,
`Block.hidden`.
Key theorems: `Block.Shows.length_eq`, `Block.tour_eq`, `length_of_tour`,
`tour_succeeds_iff`, `Block.shownCount_add_hidden`.
-/
import Mathlib
import Questionnaire.Path.Tour
import Questionnaire.Proofs.Traversal.Expansion

namespace Questionnaire

/-! ### What is counted -/

mutual

/-- How many questions the block shows when it is opened. -/
def Block.shownCount : Block → Nat
  | ⟨_, _, questions, subBlocks, _, _, _⟩ => questions.length + shownUnder subBlocks

/-- How many questions are shown of blocks inside another block. -/
def shownUnder : List Block → Nat
  | [] => 0
  | b :: bs => (if b.paradigm = .all then 1 else b.shownCount) + shownUnder bs

end

/-- How many of its own questions a block adds to a tour. -/
def Block.ownTourCount (b : Block) : Nat :=
  if b.paradigm = .all ∧ b.questions ≠ [] then 1 else b.questions.length

mutual

/-- How many questions a tour takes in and under the block. -/
def Block.tourCount : Block → Nat
  | ⟨key, id, questions, subBlocks, randomizable, paradigm, branchIndex⟩ =>
    Block.ownTourCount ⟨key, id, questions, subBlocks, randomizable, paradigm, branchIndex⟩ +
      tourUnder subBlocks

/-- How many questions a tour takes in and under the blocks of a list. -/
def tourUnder : List Block → Nat
  | [] => 0
  | b :: bs => b.tourCount + tourUnder bs

end

mutual

/-- How many questions a tour takes under blocks of variants inside the block. -/
def Block.hidden : Block → Nat
  | ⟨_, _, _, subBlocks, _, _, _⟩ => hiddenUnder subBlocks

/-- How many questions a tour takes under blocks of variants among the blocks and inside them. -/
def hiddenUnder : List Block → Nat
  | [] => 0
  | b :: bs => (if b.paradigm = .all then tourUnder b.subBlocks else b.hidden) + hiddenUnder bs

end

/-- How many variants beyond the first the block shows when it is opened. -/
def Block.surplus (b : Block) : Nat := b.questions.length - b.ownTourCount

theorem Block.shownCount_eq (b : Block) :
    b.shownCount = b.questions.length + shownUnder b.subBlocks := by
  cases b
  rw [shownCount]

theorem Block.tourCount_eq (b : Block) : b.tourCount = b.ownTourCount + tourUnder b.subBlocks := by
  cases b
  rw [tourCount]

theorem Block.hidden_eq (b : Block) : b.hidden = hiddenUnder b.subBlocks := by
  cases b
  rw [hidden]

theorem tourUnder_eq_sum (bs : List Block) : tourUnder bs = (bs.map (·.tourCount)).sum := by
  induction bs with
  | nil => rfl
  | cons b bs ih => rw [tourUnder, ih, List.map_cons, List.sum_cons]

/-! ### What is shown -/

theorem Seen.length_eq {bs : List Block} {qs : List Question} (h : Seen bs qs) :
    qs.length = shownUnder bs := by
  induction h with
  | nil => rfl
  | @variant c cs q rest hall _ _ ih =>
    rw [shownUnder, if_pos hall, List.length_cons, ih]
    omega
  | @whole c cs inner qs rest hall _ hperm _ ihinner ihrest =>
    have hqs := hperm.length_eq
    rw [shownUnder, if_neg hall, c.shownCount_eq]
    rw [List.length_append] at hqs ⊢
    omega

/-- A block shows as many questions as counted. -/
theorem Block.Shows.length_eq {b : Block} {qs : List Question} (h : b.Shows qs) :
    qs.length = b.shownCount := by
  obtain ⟨inner, hinner, hperm⟩ := h
  have hqs := hperm.length_eq
  rw [List.length_append, hinner.length_eq] at hqs
  rw [hqs, b.shownCount_eq]

/-! ### What a tour takes -/

theorem Block.length_ownTour (b : Block) (g : Gen) : (b.ownTour g).1.length = b.ownTourCount := by
  unfold ownTour ownTourCount
  by_cases hone : b.paradigm = .all ∧ b.questions ≠ []
  · have hlt : (g.below b.questions.length).1 < b.questions.length :=
      Nat.mod_lt _ (List.length_pos_iff.mpr hone.2)
    rw [if_pos hone, if_pos hone]
    simp [List.getElem?_eq_getElem hlt]
  · rw [if_neg hone, if_neg hone]

theorem length_flatten_of_forall₂ {α : Type} {R : α → List Question → Prop} {count : α → Nat} :
    ∀ {xs : List α} {parts : List (List Question)}, (∀ x ∈ xs, ∀ qs, R x qs → qs.length = count x) →
      List.Forall₂ R xs parts → parts.flatten.length = (xs.map count).sum
  | _, _, _, .nil => rfl
  | x :: xs, _, hcount, .cons hx hrest => by
    have ih := length_flatten_of_forall₂ (fun y hy => hcount y (List.mem_cons_of_mem x hy)) hrest
    rw [List.flatten_cons, List.length_append, hcount x List.mem_cons_self _ hx, ih, List.map_cons,
      List.sum_cons]

theorem tour_eq_ok {bs : List Block} {g g' : Gen} {qs : List Question}
    (h : tour bs g = .ok (qs, g')) : ∃ sorted parts, sortBlocks bs = .ok sorted ∧
      List.Forall₂ (fun b part => ∃ g g', b.tour g = .ok (part, g')) sorted parts ∧
      qs = parts.flatten := by
  unfold tour at h
  obtain ⟨sorted, hsorted, h₁⟩ := bind_eq_ok.mp h
  obtain ⟨⟨parts, g₂⟩, hparts, h₂⟩ := bind_eq_ok.mp h₁
  cases h₂
  exact ⟨sorted, parts, hsorted, Gen.forall₂_of_tryEach hparts, rfl⟩

/-- A tour of a block takes its own questions and goes on as a tour of the blocks under it. -/
theorem Block.tour_eq (b : Block) (g : Gen) : b.tour g =
    (Questionnaire.tour b.subBlocks (b.ownTour g).2).map fun result =>
      ((b.ownTour g).1 ++ result.1, result.2) := by
  have horder : sortBlocks b.subBlocks =
      (inNaturalOrder (·.val) b.subBlocks.attach).map (·.map (·.val)) := by
    have hmap := @inNaturalOrder_map _ (fun c => c) _ Subtype.val b.subBlocks.attach
    rw [List.attach_map_subtype_val] at hmap
    exact hmap
  rw [Block.tour, Questionnaire.tour, horder]
  generalize b.ownTour g = drawn
  obtain ⟨own, g₁⟩ := drawn
  cases inNaturalOrder (·.val) b.subBlocks.attach with
  | error => rfl
  | ok inner =>
    simp only [bind, Except.bind, Except.map, Gen.tryEach_map]
    cases Gen.tryEach (fun c g => c.val.tour g) inner g₁ <;> rfl

theorem Block.tour_eq_ok {b : Block} {g g' : Gen} {qs : List Question} :
    b.tour g = .ok (qs, g') ↔ ∃ rest, Questionnaire.tour b.subBlocks (b.ownTour g).2 = .ok (rest, g') ∧
      qs = (b.ownTour g).1 ++ rest := by
  rw [b.tour_eq]
  cases Questionnaire.tour b.subBlocks (b.ownTour g).2 with
  | error => simp [Except.map]
  | ok result =>
    obtain ⟨rest, g₁⟩ := result
    simp [Except.map, eq_comm, and_comm]

/-! ### How many questions a tour takes -/

theorem length_of_tours {bs : List Block} {g g' : Gen} {qs : List Question}
    (hcount : ∀ b ∈ bs, ∀ {g g' : Gen} {qs : List Question}, b.tour g = .ok (qs, g') →
      qs.length = b.tourCount)
    (h : tour bs g = .ok (qs, g')) : qs.length = tourUnder bs := by
  obtain ⟨sorted, parts, hsorted, hparts, rfl⟩ := tour_eq_ok h
  have hperm := inNaturalOrder_perm hsorted
  rw [length_flatten_of_forall₂ ?_ hparts, (hperm.map (·.tourCount)).sum_nat, tourUnder_eq_sum]
  rintro b hb part ⟨g, g', htour⟩
  exact hcount b (hperm.mem_iff.mp hb) htour

/-- A tour takes as many questions of a block as counted. -/
theorem Block.length_of_tour (b : Block) {g g' : Gen} {qs : List Question}
    (h : b.tour g = .ok (qs, g')) : qs.length = b.tourCount := by
  obtain ⟨rest, hrest, rfl⟩ := tour_eq_ok.mp h
  have hunder : rest.length = tourUnder b.subBlocks :=
    length_of_tours (fun c hc _ _ _ htour => length_of_tour c htour) hrest
  rw [List.length_append, b.length_ownTour, hunder, b.tourCount_eq]
termination_by sizeOf b
decreasing_by exact Block.sizeOf_subBlock hc

/-- A tour of blocks takes as many questions as counted. -/
theorem length_of_tour {bs : List Block} {g g' : Gen} {qs : List Question}
    (h : tour bs g = .ok (qs, g')) : qs.length = tourUnder bs :=
  length_of_tours (fun b _ _ _ _ htour => b.length_of_tour htour) h

/-! ### When there is a tour -/

theorem tours_succeed_iff {bs : List Block}
    (hblocks : ∀ b ∈ bs, ∀ g, (∃ result, b.tour g = .ok result) ↔
      ∀ c ∈ Block.preorders b.subBlocks, ∃ key, c.sortKey = .ok key) (g : Gen) :
    (∃ result, tour bs g = .ok result) ↔
      ∀ c ∈ Block.preorders bs, ∃ key, c.sortKey = .ok key := by
  constructor
  · rintro ⟨⟨qs, g'⟩, h⟩ c hc
    obtain ⟨sorted, parts, hsorted, hparts, -⟩ := tour_eq_ok h
    rcases Block.mem_preorders_iff_under.mp hc with hc | ⟨b, hb, hunder⟩
    · exact inNaturalOrder_succeeds_iff.mp ⟨_, hsorted⟩ c hc
    · have hmem : b ∈ sorted := (inNaturalOrder_perm hsorted).mem_iff.mpr hb
      obtain ⟨part, -, g₁, g₂, hpart⟩ := exists_of_mem_right hparts.flip hmem
      exact (hblocks b hb g₁).mp ⟨_, hpart⟩ c hunder
  · intro h
    obtain ⟨sorted, hsorted⟩ : ∃ sorted, sortBlocks bs = .ok sorted :=
      inNaturalOrder_succeeds_iff.mpr fun c hc => h c (Block.mem_preorders_iff_under.mpr (.inl hc))
    have htours : ∀ b ∈ sorted, ∀ g, ∃ result, b.tour g = .ok result := by
      intro b hb g
      have hmem : b ∈ bs := (inNaturalOrder_perm hsorted).mem_iff.mp hb
      exact (hblocks b hmem g).mpr fun c hc =>
        h c (Block.mem_preorders_iff_under.mpr (.inr ⟨b, hmem, hc⟩))
    obtain ⟨⟨parts, g₂⟩, hparts⟩ := Gen.tryEach_succeeds g htours
    unfold tour
    rw [hsorted]
    simp only [bind, Except.bind, hparts]
    exact ⟨_, rfl⟩

/-- There is a tour of a block exactly if the blocks under it can be put in order. -/
theorem Block.tour_succeeds_iff (b : Block) (g : Gen) : (∃ result, b.tour g = .ok result) ↔
    ∀ c ∈ preorders b.subBlocks, ∃ key, c.sortKey = .ok key := by
  rw [← tours_succeed_iff (fun c hc g => tour_succeeds_iff c g) (b.ownTour g).2]
  constructor
  · rintro ⟨⟨qs, g'⟩, h⟩
    obtain ⟨rest, hrest, -⟩ := tour_eq_ok.mp h
    exact ⟨_, hrest⟩
  · rintro ⟨⟨rest, g'⟩, h⟩
    exact ⟨_, tour_eq_ok.mpr ⟨rest, h, rfl⟩⟩
termination_by sizeOf b
decreasing_by exact Block.sizeOf_subBlock hc

/-- There is a tour of blocks exactly if they and the blocks under them can be put in order. -/
theorem tour_succeeds_iff (bs : List Block) (g : Gen) : (∃ result, tour bs g = .ok result) ↔
    ∀ c ∈ Block.preorders bs, ∃ key, c.sortKey = .ok key :=
  tours_succeed_iff (fun b _ g => b.tour_succeeds_iff g) g

/-! ### What is shown and what a tour takes -/

theorem Block.Filled.ownTourCount_eq {b : Block} (h : b.Filled) :
    b.ownTourCount = if b.paradigm = .all then 1 else b.questions.length := by
  unfold ownTourCount
  by_cases hall : b.paradigm = .all
  · rw [if_pos ⟨hall, (h b b.mem_preorder_self).2 hall⟩, if_pos hall]
  · rw [if_neg fun hboth => hall hboth.1, if_neg hall]

/-- Under a block a tour takes what is shown and what is hidden under blocks of variants. -/
theorem tourUnder_eq : ∀ bs : List Block, (∀ b ∈ bs, b.Filled) →
    tourUnder bs = shownUnder bs + hiddenUnder bs
  | [], _ => rfl
  | b :: bs, h => by
    have hb := h b List.mem_cons_self
    have ihinner := tourUnder_eq b.subBlocks fun c hc => hb.subBlock hc
    have ihrest := tourUnder_eq bs fun c hc => h c (List.mem_cons_of_mem b hc)
    rw [tourUnder, shownUnder, hiddenUnder, b.tourCount_eq, hb.ownTourCount_eq, ihrest]
    by_cases hall : b.paradigm = .all
    · simp only [if_pos hall]
      omega
    · simp only [if_neg hall]
      rw [ihinner, b.shownCount_eq, b.hidden_eq]
      omega
termination_by bs => sizeOf bs
decreasing_by
  · cases b
    simp only [List.cons.sizeOf_spec, Block.mk.sizeOf_spec]
    omega
  · simp only [List.cons.sizeOf_spec]
    omega

theorem Block.Filled.tourCount_eq {b : Block} (h : b.Filled) :
    b.tourCount = b.ownTourCount + (shownUnder b.subBlocks + b.hidden) := by
  rw [b.tourCount_eq, tourUnder_eq _ fun c hc => h.subBlock hc, b.hidden_eq]

/-- **What a block shows and what it hides are together what a tour takes of it and its surplus.** -/
theorem Block.shownCount_add_hidden {b : Block} (h : b.Filled) :
    b.shownCount + b.hidden = b.tourCount + b.surplus := by
  have hown : b.ownTourCount ≤ b.questions.length := by
    rw [h.ownTourCount_eq]
    split
    · rename_i hall
      exact List.length_pos_iff.mpr ((h b b.mem_preorder_self).2 hall)
    · exact Nat.le_refl _
  rw [h.tourCount_eq, b.shownCount_eq, surplus]
  omega

/-- A tour takes some question of every block. -/
theorem Block.Filled.tourCount_pos (b : Block) (h : b.Filled) : 0 < b.tourCount := by
  rw [b.tourCount_eq, h.ownTourCount_eq]
  cases hsub : b.subBlocks with
  | nil =>
    have hcontents := (h b b.mem_preorder_self).1
    rw [contentsSize, hsub, List.length_nil] at hcontents
    split <;> omega
  | cons c cs =>
    have hc : c ∈ b.subBlocks := hsub ▸ List.mem_cons_self
    have hpos := tourCount_pos c (h.subBlock hc)
    rw [tourUnder]
    omega
termination_by sizeOf b
decreasing_by exact Block.sizeOf_subBlock hc

theorem tourUnder_eq_zero_iff {bs : List Block} (h : ∀ b ∈ bs, b.Filled) :
    tourUnder bs = 0 ↔ bs = [] := by
  cases bs with
  | nil => simp [tourUnder]
  | cons b bs =>
    have hpos := Block.Filled.tourCount_pos b (h b List.mem_cons_self)
    simp only [tourUnder, reduceCtorEq, iff_false]
    omega

end Questionnaire
