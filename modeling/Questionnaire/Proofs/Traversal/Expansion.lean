/-
# What a block shows

Whatever is drawn, a block that is opened shows its own questions and those of
the blocks under it, but of a block of variants under it one question and
nothing of what is under that. A block of a valid survey can always be opened.

Key definitions: `Seen`, `Block.Shows`, `Drawn`.
Key theorems: `Block.parts_of_expand`, `Block.shows_of_expand`,
`Block.expand_succeeds_iff`, `Block.fault_of_expand`, `Block.Shows.subperm`,
`Block.Shows.ne_nil`.
-/
import Mathlib.Data.List.Perm.Subperm
import Questionnaire.Proofs.Survey.Opened
import Questionnaire.Proofs.Survey.Validity
import Questionnaire.Proofs.Traversal.Arrangement

namespace Questionnaire

/-- What a respondent may see of blocks inside another block: one question of a block of variants,
and of any other block its questions with what may be seen of the blocks under it. -/
inductive Seen : List Block → List Question → Prop
  | nil : Seen [] []
  | variant {c : Block} {cs : List Block} {q : Question} {rest : List Question} :
    c.paradigm = .all → q ∈ c.questions → Seen cs rest → Seen (c :: cs) (q :: rest)
  | whole {c : Block} {cs : List Block} {inner qs rest : List Question} :
    c.paradigm ≠ .all → Seen c.subBlocks inner → qs.Perm (c.questions ++ inner) →
      Seen cs rest → Seen (c :: cs) (qs ++ rest)

/-- What a respondent may see of a block that is opened, in some order. -/
def Block.Shows (b : Block) (qs : List Question) : Prop :=
  ∃ inner, Seen b.subBlocks inner ∧ qs.Perm (b.questions ++ inner)

/-! ### Opening a block -/

/-- What is drawn for a question or block that was put in its place. -/
def Block.showNode {b : Block} : Question ⊕ { c // c ∈ b.subBlocks } → Trial (List Question)
  | .inl q, g => .ok ([q], g)
  | .inr ⟨c, _⟩, g =>
    if c.paradigm = .all then do
      let (q, g) ← c.pickVariant g
      return ([q], g)
    else c.expand g

/-- The contents of a block are arranged, if it has any, and drawn for in turn. -/
theorem Block.expand_eq (b : Block) (g : Gen) (h : b.contentsSize ≠ 0) : ∃ nodes g',
    arrange b.questions b.subBlocks.attach (·.val.isRandomizable) g = .ok (nodes, g') ∧
      b.expand g = do
        let (parts, g) ← Gen.tryEach b.showNode nodes g'
        return (parts.flatten, g) := by
  have hsize : b.questions.length + b.subBlocks.attach.length ≠ 0 := by
    rwa [List.length_attach]
  obtain ⟨⟨nodes, g'⟩, hnodes⟩ := arrange_succeeds (·.val.isRandomizable) hsize g
  refine ⟨nodes, g', hnodes, ?_⟩
  rw [expand, if_neg h, hnodes]
  rfl

theorem Block.mem_of_pickVariant {b : Block} {g g' : Gen} {q : Question}
    (h : b.pickVariant g = .ok (q, g')) : q ∈ b.questions := by
  unfold pickVariant at h
  split at h
  · rename_i i g₁ hdraw
    split at h
    · rename_i q' hq
      cases h
      exact List.mem_of_getElem? hq
    · cases h

/-- What may be drawn for a question or block in another block: the question, one question of a
block of variants, and of any other block what is drawn when it is opened. -/
inductive Drawn : Question ⊕ Block → List Question → Prop
  | question (q : Question) : Drawn (.inl q) [q]
  | variant {c : Block} {q : Question} : c.paradigm = .all → q ∈ c.questions → Drawn (.inr c) [q]
  | whole {c : Block} {g g' : Gen} {part : List Question} :
    c.paradigm ≠ .all → c.expand g = .ok (part, g') → Drawn (.inr c) part

/-- A question or block without where it was found. -/
def Block.node {b : Block} : Question ⊕ { c // c ∈ b.subBlocks } → Question ⊕ Block :=
  Sum.map (fun q => q) (·.val)

theorem drawn_of_showNode {b : Block} {x : Question ⊕ { c // c ∈ b.subBlocks }}
    {part : List Question} {g g' : Gen} (h : b.showNode x g = .ok (part, g')) :
    Drawn (b.node x) part := by
  rcases x with q | ⟨c, hc⟩
  · cases h
    exact .question q
  · by_cases hall : c.paradigm = .all
    · simp only [Block.showNode, if_pos hall] at h
      obtain ⟨⟨q, g₁⟩, hq, h⟩ := bind_eq_ok.mp h
      cases h
      exact .variant hall (Block.mem_of_pickVariant hq)
    · simp only [Block.showNode, if_neg hall] at h
      exact .whole hall h

/-- **What is drawn for a block is drawn part by part** for its questions and the blocks in it, in an
order in which those that may not move keep theirs. -/
theorem Block.parts_of_expand {b : Block} {g g' : Gen} {qs : List Question}
    (h : b.expand g = .ok (qs, g')) : ∃ nodes parts,
      nodes.Perm (b.questions.map .inl ++ b.subBlocks.map .inr) ∧
      (nodes.filterMap (·.getRight?)).filter (!·.isRandomizable) =
        b.subBlocks.filter (!·.isRandomizable) ∧
      List.Forall₂ Drawn nodes parts ∧ qs = parts.flatten := by
  have h0 : b.contentsSize ≠ 0 := by
    intro h0
    rw [expand, if_pos h0] at h
    cases h
  obtain ⟨nodes, g₁, hnodes, hexpand⟩ := b.expand_eq g h0
  rw [hexpand] at h
  obtain ⟨⟨parts, g₂⟩, hparts, h₁⟩ := bind_eq_ok.mp h
  cases h₁
  refine ⟨nodes.map b.node, parts, ?_, ?_, ?_, rfl⟩
  · simpa [node, Function.comp_def] using (arrange_perm hnodes).map b.node
  · have hright : (nodes.map b.node).filterMap (·.getRight?) =
        (nodes.filterMap (·.getRight?)).map (·.val) := by
      rw [List.filterMap_map, List.map_filterMap]
      exact List.filterMap_congr fun x _ => by cases x <;> rfl
    have hattach : b.subBlocks = b.subBlocks.attach.map (·.val) :=
      (List.attach_map_subtype_val _).symm
    rw [hright, List.filter_map]
    conv_rhs => rw [hattach, List.filter_map]
    exact congrArg _ (arrange_keeps_order hnodes)
  · rw [List.forall₂_map_left_iff]
    exact (Gen.forall₂_of_tryEach hparts).imp fun _ _ ⟨_, _, hnode⟩ => drawn_of_showNode hnode

theorem flatten_of_drawn_questions : ∀ {qs : List Question} {parts : List (List Question)},
    List.Forall₂ Drawn (qs.map .inl) parts → parts.flatten = qs
  | [], _, h => by
    cases h
    rfl
  | q :: qs, _, h => by
    cases h with
    | cons hq hrest =>
      cases hq
      rw [List.flatten_cons, flatten_of_drawn_questions hrest]
      rfl

theorem seen_of_drawn_blocks : ∀ {cs : List Block} {parts : List (List Question)},
    (∀ c ∈ cs, ∀ {g g' : Gen} {qs : List Question}, c.expand g = .ok (qs, g') → c.Shows qs) →
      List.Forall₂ Drawn (cs.map .inr) parts → Seen cs parts.flatten
  | [], _, _, h => by
    cases h
    exact .nil
  | c :: cs, _, hshows, h => by
    cases h with
    | cons hc hrest =>
      have ih := seen_of_drawn_blocks (fun d hd => hshows d (List.mem_cons_of_mem c hd)) hrest
      cases hc with
      | variant hall hq => exact .variant hall hq ih
      | whole hall hpart =>
        obtain ⟨inner, hinner, hperm⟩ := hshows c List.mem_cons_self hpart
        exact .whole hall hinner hperm ih

/-- **What is drawn for a block is what a respondent may see of it.** -/
theorem Block.shows_of_expand (b : Block) {g g' : Gen} {qs : List Question}
    (h : b.expand g = .ok (qs, g')) : b.Shows qs := by
  obtain ⟨nodes, parts, hnodes, -, hparts, rfl⟩ := parts_of_expand h
  -- the parts in the order of the questions and blocks, not in the order of the draws
  obtain ⟨sorted, hsorted, hperm⟩ := List.perm_comp_forall₂ hnodes.symm hparts
  obtain ⟨own, under, rfl, hown, hunder⟩ := forall₂_append_left hsorted
  have hseen := seen_of_drawn_blocks (fun c hc _ _ _ hc' => shows_of_expand c hc') hunder
  refine ⟨under.flatten, hseen, ?_⟩
  rw [← flatten_of_drawn_questions hown, ← List.flatten_append]
  exact hperm.flatten.symm
termination_by sizeOf b
decreasing_by exact Block.sizeOf_subBlock hc

/-! ### When a block can be opened -/

/-- A question can be drawn of a block of variants if there is one. -/
theorem Block.pickVariant_succeeds_iff (b : Block) (g : Gen) :
    (∃ result, b.pickVariant g = .ok result) ↔ b.questions ≠ [] := by
  unfold pickVariant
  constructor
  · rintro ⟨result, h⟩ hnil
    simp [hnil] at h
  · intro hne
    have hlt : (g.below b.questions.length).1 < b.questions.length :=
      Nat.mod_lt _ (List.length_pos_iff.mpr hne)
    simp only [List.getElem?_eq_getElem hlt]
    exact ⟨_, rfl⟩

/-- Something can be drawn for the question or block inside another block. -/
def Block.Drawable : Question ⊕ Block → Prop
  | .inl _ => True
  | .inr c => if c.paradigm = .all then c.questions ≠ [] else ∀ d ∈ c.opened, ¬d.Hollow

/-- No hollow block is opened with one that has contents if something can be drawn for each block in
it. -/
theorem Block.forall_opened_iff {b : Block} (h0 : b.contentsSize ≠ 0) :
    (∀ c ∈ b.opened, ¬c.Hollow) ↔ ∀ c ∈ b.subBlocks, Drawable (.inr c) := by
  constructor
  · intro h c hc
    by_cases hall : c.paradigm = .all
    · rw [Drawable, if_pos hall]
      exact fun hnone => h b b.mem_opened_self (.inr ⟨c, mem_ownVariants.mpr ⟨hc, hall⟩, hnone⟩)
    · rw [Drawable, if_neg hall]
      exact fun d hd => h d (mem_opened.mpr (.inr ⟨c, ⟨hc, hall⟩, hd⟩))
  · intro h c hc
    rcases mem_opened.mp hc with rfl | ⟨d, ⟨hd, hall⟩, hc⟩
    · rintro (hsize | ⟨d, hd, hnone⟩)
      · exact h0 hsize
      · obtain ⟨hmem, hall⟩ := mem_ownVariants.mp hd
        have hdrawable := h d hmem
        rw [Drawable, if_pos hall] at hdrawable
        exact hdrawable hnone
    · have hdrawable := h d hd
      rw [Drawable, if_neg hall] at hdrawable
      exact hdrawable c hc

/-- **A block can be opened exactly if no hollow block is opened with it**, whatever is drawn. -/
theorem Block.expand_succeeds_iff (b : Block) (g : Gen) :
    (∃ result, b.expand g = .ok result) ↔ ∀ c ∈ b.opened, ¬c.Hollow := by
  by_cases h0 : b.contentsSize = 0
  · refine iff_of_false ?_ fun h => h b b.mem_opened_self (.inl h0)
    rintro ⟨result, h⟩
    rw [expand, if_pos h0] at h
    cases h
  obtain ⟨nodes, g₁, hnodes, hexpand⟩ := b.expand_eq g h0
  -- no draw decides whether something can be drawn, so neither does the order of the nodes
  have hnode : ∀ x ∈ nodes, ∀ h, (∃ part, b.showNode x h = .ok part) ↔ Drawable (b.node x) := by
    rintro (q | ⟨c, hc⟩) - h
    · exact ⟨fun _ => trivial, fun _ => ⟨_, rfl⟩⟩
    · change (∃ part, b.showNode (.inr ⟨c, hc⟩) h = .ok part) ↔ Drawable (.inr c)
      by_cases hall : c.paradigm = .all
      · rw [Drawable, if_pos hall, ← pickVariant_succeeds_iff c h]
        simp only [showNode, if_pos hall]
        exact bind_succeeds_iff fun _ => ⟨_, rfl⟩
      · rw [Drawable, if_neg hall, showNode, if_neg hall]
        exact expand_succeeds_iff c h
  have hparts : (∃ result, b.expand g = .ok result) ↔
      ∃ parts, Gen.tryEach b.showNode nodes g₁ = .ok parts := by
    rw [hexpand]
    exact bind_succeeds_iff fun _ => ⟨_, rfl⟩
  rw [hparts, Gen.tryEach_succeeds_iff hnode, forall_opened_iff h0]
  have hmem := fun x => (arrange_perm hnodes).mem_iff (a := x)
  constructor
  · exact fun h c hc => h (.inr ⟨c, hc⟩) ((hmem _).mpr (by simp))
  · rintro h (q | ⟨c, hc⟩) -
    · trivial
    · exact h c hc
termination_by sizeOf b
decreasing_by exact Block.sizeOf_subBlock hc

/-- If a block cannot be opened, the survey is malformed; the fault names a block. -/
theorem Block.fault_of_expand (b : Block) {g : Gen} {fault : Fault}
    (h : b.expand g = .error fault) : ∃ c ∈ b.preorder, ∃ cause : Fault,
      cause.kind = .malformedSurvey ∧ fault = .about [c.id] cause := by
  by_cases h0 : b.contentsSize = 0
  · rw [expand, if_pos h0] at h
    cases h
    exact ⟨b, b.mem_preorder_self, _, rfl, rfl⟩
  obtain ⟨nodes, g₁, -, hexpand⟩ := b.expand_eq g h0
  rw [hexpand] at h
  rcases bind_eq_error.mp h with h | ⟨_, -, h⟩
  · obtain ⟨x, -, g₂, hx⟩ := Gen.tryEach_eq_error h
    rcases x with q | ⟨c, hc⟩
    · cases hx
    · have hsub := preorder_subset_of_mem hc
      by_cases hall : c.paradigm = .all
      · simp only [showNode, if_pos hall] at hx
        rcases bind_eq_error.mp hx with hx | ⟨_, -, hx⟩
        · unfold pickVariant at hx
          split at hx
          split at hx
          · cases hx
          · cases hx
            exact ⟨c, hsub c.mem_preorder_self, _, rfl, rfl⟩
        · cases hx
      · simp only [showNode, if_neg hall] at hx
        obtain ⟨d, hd, hcause⟩ := fault_of_expand c hx
        exact ⟨d, hsub hd, hcause⟩
  · cases h
termination_by sizeOf b
decreasing_by exact Block.sizeOf_subBlock hc

/-- **A block with contents can be opened**, whatever is drawn. -/
theorem Block.expand_succeeds (b : Block) (hb : b.Filled) (g : Gen) :
    ∃ result, b.expand g = .ok result := by
  refine (b.expand_succeeds_iff g).mpr fun c hc => ?_
  have hfilled := fun d hd => hb d (b.preorder_subset_of_mem_preorder (mem_preorder_of_opened hc) hd)
  rintro (h0 | ⟨d, hd, hnone⟩)
  · exact (hfilled c c.mem_preorder_self).1 h0
  · obtain ⟨hmem, hall⟩ := mem_ownVariants.mp hd
    exact (hfilled d (preorder_subset_of_mem hmem d.mem_preorder_self)).2 hall hnone

/-! ### What is seen -/

/-- No question is seen twice, and none that is not there. -/
theorem Seen.subperm {bs : List Block} {qs : List Question} (h : Seen bs qs) :
    qs.Subperm (questionsUnder bs) := by
  induction h with
  | nil => exact List.nil_subperm
  | @variant c cs q rest _ hq _ ih =>
    rw [questionsUnder_cons]
    have hmem : q ∈ c.allQuestions := by
      rw [Block.allQuestions_eq]
      exact List.mem_append_left _ hq
    exact (List.singleton_subperm_iff.mpr hmem).append ih
  | @whole c cs inner qs rest _ _ hperm _ ihinner ihrest =>
    rw [questionsUnder_cons, Block.allQuestions_eq]
    exact (hperm.subperm.trans ((List.subperm_append_left _).mpr ihinner)).append ihrest

theorem Block.Shows.subperm {b : Block} {qs : List Question} (h : b.Shows qs) :
    qs.Subperm b.allQuestions := by
  obtain ⟨inner, hinner, hperm⟩ := h
  rw [allQuestions_eq]
  exact hperm.subperm.trans ((List.subperm_append_left _).mpr hinner.subperm)

theorem Block.Shows.subperm_flatten {bs : List Block} {parts : List (List Question)}
    (h : List.Forall₂ Block.Shows bs parts) : parts.flatten.Subperm (questionsUnder bs) := by
  induction h with
  | nil => exact List.nil_subperm
  | cons hshows _ ih =>
    rw [List.flatten_cons, questionsUnder_cons]
    exact hshows.subperm.append ih

theorem Seen.ne_nil {bs : List Block} {qs : List Question} (h : Seen bs qs)
    (hbs : ∀ b ∈ bs, b.Filled) (hne : bs ≠ []) : qs ≠ [] := by
  induction h with
  | nil => exact absurd rfl hne
  | variant => exact List.cons_ne_nil _ _
  | @whole c cs inner qs rest _ _ hperm _ ihinner _ =>
    have hc := hbs c List.mem_cons_self
    have h0 := (hc c c.mem_preorder_self).1
    intro hnil
    obtain ⟨rfl, -⟩ := List.append_eq_nil_iff.mp hnil
    obtain ⟨hquestions, rfl⟩ := List.append_eq_nil_iff.mp hperm.nil_eq.symm
    refine ihinner (fun d hd => hc.subBlock hd) (fun hsub => h0 ?_) rfl
    simp [Block.contentsSize, hquestions, hsub]

/-- A block with contents shows something. -/
theorem Block.Shows.ne_nil {b : Block} {qs : List Question} (h : b.Shows qs) (hb : b.Filled) :
    qs ≠ [] := by
  obtain ⟨inner, hinner, hperm⟩ := h
  rintro rfl
  obtain ⟨hquestions, rfl⟩ := List.append_eq_nil_iff.mp hperm.nil_eq.symm
  refine hinner.ne_nil (fun c hc => hb.subBlock hc) (fun hsub => ?_) rfl
  exact (hb b b.mem_preorder_self).1 (by simp [contentsSize, hquestions, hsub])

/-- A branching question is seen, unless it is in or under a block of variants. -/
theorem Seen.mem_of_isBranch {bs : List Block} {qs : List Question} (h : Seen bs qs)
    (hplain : ∀ c ∈ Block.preorders bs, c.paradigm = .all →
      ∀ q ∈ c.allQuestions, q.isBranch = false) {q : Question} (hq : q ∈ questionsUnder bs)
    (hbranch : q.isBranch = true) : q ∈ qs := by
  induction h with
  | nil => exact hq
  | @variant c cs r rest hall _ _ ih =>
    rw [questionsUnder_cons] at hq
    rw [Block.preorders_cons] at hplain
    rcases List.mem_append.mp hq with hq | hq
    · rw [hplain c List.mem_cons_self hall q hq] at hbranch
      cases hbranch
    · exact List.mem_cons_of_mem r (ih (fun d hd => hplain d (by simp [hd])) hq)
  | @whole c cs inner qs rest _ _ hperm _ ihinner ihrest =>
    rw [questionsUnder_cons, Block.allQuestions_eq] at hq
    rw [Block.preorders_cons] at hplain
    rcases List.mem_append.mp hq with hq | hq
    · refine List.mem_append_left _ (hperm.mem_iff.mpr ?_)
      rcases List.mem_append.mp hq with hq | hq
      · exact List.mem_append_left _ hq
      · exact List.mem_append_right _ (ihinner (fun d hd => hplain d (by simp [hd])) hq)
    · exact List.mem_append_right _ (ihrest (fun d hd => hplain d (by simp [hd])) hq)

/-- A block shows its branching questions, unless they are in or under a block of variants. -/
theorem Block.Shows.mem_of_isBranch {b : Block} {qs : List Question} (h : b.Shows qs)
    (hplain : ∀ c ∈ b.preorder, c.paradigm = .all → ∀ q ∈ c.allQuestions, q.isBranch = false)
    {q : Question} (hq : q ∈ b.allQuestions) (hbranch : q.isBranch = true) : q ∈ qs := by
  obtain ⟨inner, hinner, hperm⟩ := h
  rw [preorder_eq] at hplain
  rw [allQuestions_eq] at hq
  refine hperm.mem_iff.mpr ?_
  rcases List.mem_append.mp hq with hq | hq
  · exact List.mem_append_left _ hq
  · exact List.mem_append_right _
      (hinner.mem_of_isBranch (fun c hc => hplain c (List.mem_cons_of_mem b hc)) hq hbranch)

end Questionnaire
