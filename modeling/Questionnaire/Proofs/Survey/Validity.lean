/-
# What a valid survey promises

Every block of a valid survey has contents, and a branch leads from a fixed
block at the top level to a fixed block at the top level that comes later.

Key definitions: `Block.Filled`, `Survey.LeadsAhead`.
Key theorems: `Survey.Coherent.owner_unique`, `Survey.Valid.filled`,
`Survey.leadsAhead_of_valid`, `Survey.LeadsAhead.after`.
-/
import Mathlib.Data.List.Nodup
import Mathlib.Data.List.Pairwise
import Questionnaire.Proofs.Survey.NaturalOrder
import Questionnaire.Proofs.Survey.Numbering
import Questionnaire.Survey.Validity

namespace Questionnaire

/-- The block and all blocks under it have contents, and the blocks of variants among them have
questions. -/
def Block.Filled (b : Block) : Prop :=
  ∀ c ∈ b.preorder, c.contentsSize ≠ 0 ∧ (c.paradigm = .all → c.questions ≠ [])

theorem Block.Filled.subBlock {b c : Block} (h : b.Filled) (hc : c ∈ b.subBlocks) : c.Filled :=
  fun _ hx => h _ (preorder_subset_of_mem hc hx)

namespace Survey

variable {s : Survey}

/-! ### The block a question is in -/

theorem Coherent.block_unique (hs : s.Coherent) {b c : Block} (hb : b ∈ s.blocks)
    (hc : c ∈ s.blocks) (h : b.key = c.key) : b = c :=
  List.inj_on_of_nodup_map hs.blocks (Block.mem_preorders_of_mem hb) (Block.mem_preorders_of_mem hc) h

/-- The blocks at the top level share no question. -/
theorem Coherent.owner_unique (hs : s.Coherent) {b c : Block} (hb : b ∈ s.blocks)
    (hc : c ∈ s.blocks) {q r : Question} (hq : q ∈ b.allQuestions) (hr : r ∈ c.allQuestions)
    (h : q.key = r.key) : b = c := by
  have hnodup := hs.questions
  rw [questions_eq, questionsUnder_eq_flatMap, List.map_flatMap, List.nodup_flatMap] at hnodup
  by_contra hne
  have hsymm : Std.Symm (Function.onFun List.Disjoint fun b : Block => b.allQuestions.map (·.key)) :=
    ⟨fun _ _ hdisjoint => List.disjoint_symm hdisjoint⟩
  exact hnodup.2.forall hb hc hne (List.mem_map.mpr ⟨q, hq, rfl⟩)
    (List.mem_map.mpr ⟨r, hr, h.symm⟩)

theorem Coherent.farthest_eq (hs : s.Coherent) {b : Block} (hb : b ∈ s.blocks) {q : Question}
    (hq : q ∈ b.allQuestions) : s.farthest q = .ok b := by
  have holds_iff : ∀ c : Block, (c.preorder.any (·.holds q)) = true ↔
      ∃ r ∈ c.allQuestions, r.key = q.key := fun c => by
    simp only [List.any_eq_true, Block.holds, Block.allQuestions, List.mem_flatMap, beq_iff_eq]
    constructor
    · rintro ⟨d, hd, r, hr, h⟩
      exact ⟨r, ⟨d, hd, hr⟩, h⟩
    · rintro ⟨r, ⟨d, hd, hr⟩, h⟩
      exact ⟨d, hd, r, hr, h⟩
  unfold farthest
  cases hfind : s.blocks.find? (fun b => b.preorder.any (·.holds q)) with
  | none => exact absurd ((holds_iff b).mpr ⟨q, hq, rfl⟩) (List.find?_eq_none.mp hfind b hb)
  | some c =>
    obtain ⟨r, hr, hkey⟩ := (holds_iff c).mp (by simpa using List.find?_some hfind)
    rw [hs.owner_unique (List.mem_of_find?_eq_some hfind) hb hr hq hkey]

/-! ### What the checks say -/

theorem Valid.blocks_ne_nil (hv : s.Valid) : s.blocks ≠ [] := by
  unfold Valid faults at hv
  intro h
  simp [h] at hv

theorem Valid.blockFaults_eq_nil (hv : s.Valid) {b : Block} (hb : b ∈ s.allBlocks) :
    s.blockFaults b = [] :=
  List.flatMap_eq_nil_iff.mp (List.append_eq_nil_iff.mp hv).2 b hb

theorem Valid.filled (hv : s.Valid) {b : Block} (hb : b ∈ s.blocks) : b.Filled := by
  intro c hc
  have h := hv.blockFaults_eq_nil (Block.mem_preorders.mpr ⟨b, hb, hc⟩)
  simp only [blockFaults, List.append_eq_nil_iff] at h
  refine ⟨fun h0 => by simp [h0] at h, fun hall hnil => by simp [hall, hnil] at h⟩

/-- A branch of a question of `origin` leads from a fixed block to one that comes later. -/
structure LeadsAhead (s : Survey) (origin : Block) (target : Key) : Prop where
  fixed : origin.isRandomizable = false
  ahead : ∃ dest ∈ s.blocks, dest.key = target ∧ dest.isRandomizable = false ∧
    ¬ dest.upTo origin

theorem leadsAhead_of_branchFaults {q : Question} {origin : Block} {target : Key}
    (hq : s.farthest q = .ok origin) (h : s.branchFaults q target = []) :
    s.LeadsAhead origin target := by
  unfold branchFaults at h
  cases hfind : s.blocks.find? (·.key == target) with
  | none => simp [hfind] at h
  | some dest =>
    simp only [hfind, hq] at h
    split at h
    · cases h
    · rename_i hdest
      split at h
      · cases h
      · rename_i horigin
        refine ⟨by simpa using horigin, dest, List.mem_of_find?_eq_some hfind,
          by simpa using List.find?_some hfind, by simpa using hdest, ?_⟩
        rintro ⟨j, k, hj, hk, hle⟩
        rw [hj, hk] at h
        simp [hle] at h

/-- **Branches of a valid survey lead ahead.** -/
theorem leadsAhead_of_valid (hs : s.Coherent) (hv : s.Valid) {b : Block} (hb : b ∈ s.blocks)
    {q : Question} (hq : q ∈ b.allQuestions) {branch : Choice × Key} (h : branch ∈ q.branches) :
    s.LeadsAhead b branch.2 := by
  refine leadsAhead_of_branchFaults (hs.farthest_eq hb hq) ?_
  obtain ⟨c, hc, hqc⟩ := List.mem_flatMap.mp hq
  have hfaults := hv.blockFaults_eq_nil (Block.mem_preorders.mpr ⟨b, hb, hc⟩)
  simp only [blockFaults, List.append_eq_nil_iff] at hfaults
  have hquestion := List.flatMap_eq_nil_iff.mp hfaults.2 q hqc
  simp only [questionFaults, List.append_eq_nil_iff] at hquestion
  exact List.flatMap_eq_nil_iff.mp hquestion.2 branch h

/-- Of the fixed blocks in natural order, the one that a branch leads to comes after its origin. -/
theorem LeadsAhead.after {sorted before rest : List Block} {b : Block} {target : Key}
    (hahead : s.LeadsAhead b target) (hsorted : sortBlocks s.fixedBlocks = .ok sorted)
    (hsplit : sorted = before ++ b :: rest) : ∃ dest ∈ rest, dest.key = target := by
  obtain ⟨dest, hdest, hkey, hfixed, hlater⟩ := hahead.ahead
  have hperm := inNaturalOrder_perm hsorted
  have hself : b.upTo b := by
    have hb : b ∈ sorted := hsplit ▸ List.mem_append_right _ List.mem_cons_self
    obtain ⟨k, hk⟩ := inNaturalOrder_succeeds_iff.mp ⟨_, hsorted⟩ b (hperm.mem_iff.mp hb)
    exact ⟨k, k, hk, hk, by simpa using SortKey.le_total k k⟩
  have hcross := inNaturalOrder_pairwise hsorted
  rw [hsplit] at hcross
  have hmem : dest ∈ before ++ b :: rest :=
    hsplit ▸ hperm.mem_iff.mpr (List.mem_filter.mpr ⟨hdest, by simp [hfixed]⟩)
  rcases List.mem_append.mp hmem with hbefore | hrest
  · exact absurd ((List.pairwise_append.mp hcross).2.2 dest hbefore b List.mem_cons_self) hlater
  · rcases List.mem_cons.mp hrest with rfl | hrest
    · exact absurd hself hlater
    · exact ⟨dest, hrest, hkey⟩

end Survey

end Questionnaire
