/-
# What is drawn for a block

Whatever is drawn, the questions of the blocks that are opened with a block are
all there, and one of each block of variants that they hold. What is drawn for a
block inside stays together, and of two blocks that may not move what is drawn
for the earlier one comes first.

Key definitions: `Block.ShowsInside`, `Block.Expansion`.
Key theorems: `Seen.contents`, `Block.part_of_expand`, `Block.kept_of_expand`,
`Block.expands`.
-/
import Mathlib.Algebra.Order.Group.Multiset
import Mathlib.Tactic.Abel
import Questionnaire.Proofs.Traversal.Expansion

namespace Questionnaire

open Relation

/-! ### Contents -/

/-- What is seen of blocks inside another are the questions of those that are opened, and one of
each block of variants. -/
theorem Seen.contents {bs : List Block} {qs : List Question} (h : Seen bs qs) : ∃ drawn,
    List.Forall₂ (fun c q => q ∈ c.questions) (Block.variantsUnder bs) drawn ∧
      qs.Perm ((Block.openedUnder bs).flatMap (·.questions) ++ drawn) := by
  induction h with
  | nil => exact ⟨[], .nil, .refl _⟩
  | @variant c cs q rest hall hq _ ih =>
    obtain ⟨drawn, hdrawn, hperm⟩ := ih
    refine ⟨q :: drawn, ?_, ?_⟩
    · rw [Block.variantsUnder, List.filter_cons_of_pos (by simpa using hall), Block.openedUnder,
        if_pos hall]
      exact .cons hq hdrawn
    · rw [Block.openedUnder, if_pos hall]
      exact (hperm.cons q).trans List.perm_middle.symm
  | @whole c cs inner qs rest hall _ hperm _ ihinner ihrest =>
    obtain ⟨under, hunder, hinner⟩ := ihinner
    obtain ⟨drawn, hdrawn, hrest⟩ := ihrest
    obtain ⟨own, deep, rfl, hown, hdeep⟩ := forall₂_append_left hdrawn
    have hopened : Block.openedUnder (c :: cs) = c.opened ++ Block.openedUnder cs := by
      rw [Block.openedUnder, if_neg hall]
    -- the variants under `c` go between those that stand beside it and those further down
    refine ⟨own ++ (under ++ deep), ?_, ?_⟩
    · rw [Block.variantsUnder, List.filter_cons_of_neg (by simpa using hall), hopened,
        List.flatMap_append, ← Block.variants, Block.variants_eq]
      exact List.rel_append hown (List.rel_append hunder hdeep)
    · rw [hopened, Block.opened_eq, List.cons_append, List.flatMap_cons, List.flatMap_append]
      rw [← Multiset.coe_eq_coe] at hperm hinner hrest ⊢
      simp only [← Multiset.coe_add] at hperm hinner hrest ⊢
      rw [hperm, hinner, hrest]
      abel

theorem Block.Shows.contents {b : Block} {qs : List Question} (h : b.Shows qs) : ∃ drawn,
    List.Forall₂ (fun c q => q ∈ c.questions) b.variants drawn ∧
      qs.Perm (b.opened.flatMap (·.questions) ++ drawn) := by
  obtain ⟨inner, hinner, hperm⟩ := h
  obtain ⟨drawn, hdrawn, hseen⟩ := hinner.contents
  refine ⟨drawn, b.variants_eq ▸ hdrawn, ?_⟩
  rw [opened_eq, List.flatMap_cons, List.append_assoc]
  exact hperm.trans (hseen.append_left _)

/-! ### Parts -/

/-- The questions in and under a question or block. -/
def nodeQuestions : Question ⊕ Block → List Question
  | .inl q => [q]
  | .inr c => c.allQuestions

theorem Drawn.subperm {node : Question ⊕ Block} {part : List Question} (h : Drawn node part) :
    part.Subperm (nodeQuestions node) := by
  cases h with
  | question q => exact .refl _
  | @variant c q _ hq =>
    refine List.singleton_subperm_iff.mpr ?_
    rw [nodeQuestions, Block.allQuestions_eq]
    exact List.mem_append_left _ hq
  | whole _ hpart => exact (Block.shows_of_expand _ hpart).subperm

theorem subperm_of_drawn {nodes : List (Question ⊕ Block)} {parts : List (List Question)}
    (h : List.Forall₂ Drawn nodes parts) : parts.flatten.Subperm (nodes.flatMap nodeQuestions) := by
  induction h with
  | nil => exact .refl _
  | cons hnode _ ih =>
    rw [List.flatten_cons, List.flatMap_cons]
    exact hnode.subperm.append ih

/-- The contents of a block have its questions and those under it. -/
theorem perm_allQuestions {b : Block} {nodes : List (Question ⊕ Block)}
    (h : nodes.Perm (b.questions.map .inl ++ b.subBlocks.map .inr)) :
    (nodes.flatMap nodeQuestions).Perm b.allQuestions := by
  refine (h.flatMap_right _).trans (.of_eq ?_)
  rw [List.flatMap_append, List.flatMap_map, List.flatMap_map, Block.allQuestions_eq,
    questionsUnder_eq_flatMap]
  simp [nodeQuestions]

theorem drawn_split {before after : List (Question ⊕ Block)} {node : Question ⊕ Block}
    {parts : List (List Question)} (h : List.Forall₂ Drawn (before ++ node :: after) parts) :
    ∃ early part late, parts = early ++ part :: late ∧ List.Forall₂ Drawn before early ∧
      Drawn node part ∧ List.Forall₂ Drawn after late := by
  obtain ⟨early, _, rfl, hearly, hrest⟩ := forall₂_append_left h
  cases hrest with
  | cons hnode hlate => exact ⟨early, _, _, rfl, hearly, hnode, hlate⟩

/-- **What is drawn for a block that is opened with another stays together**, and what is drawn
before and after it comes from elsewhere. -/
theorem Block.part_of_expand (b : Block) {c : Block} {g g' : Gen} {qs : List Question}
    (h : b.expand g = .ok (qs, g')) (hc : c ∈ b.opened) : ∃ before part after g₁ g₂,
      qs = before ++ part ++ after ∧ c.expand g₁ = .ok (part, g₂) ∧
      (before ++ c.allQuestions ++ after).Subperm b.allQuestions := by
  rcases mem_opened.mp hc with rfl | ⟨d, ⟨hd, hall⟩, hc⟩
  · exact ⟨[], qs, [], g, g', by simp, h, by simpa using List.Subperm.refl _⟩
  obtain ⟨nodes, parts, hnodes, -, hparts, rfl⟩ := parts_of_expand h
  have hmem : Sum.inr d ∈ nodes :=
    hnodes.mem_iff.mpr (List.mem_append_right _ (List.mem_map_of_mem hd))
  obtain ⟨before, after, rfl⟩ := List.append_of_mem hmem
  obtain ⟨early, part, late, rfl, hearly, hpart, hlate⟩ := drawn_split hparts
  cases hpart with
  | variant hvariants => exact absurd hvariants hall
  | whole _ hpart =>
    -- the part lies in what is drawn for `d`, and all of that lies between the other nodes
    obtain ⟨before', inner, after', g₁, g₂, rfl, hinner, hsub⟩ := part_of_expand d hpart hc
    refine ⟨early.flatten ++ before', inner, after' ++ late.flatten, g₁, g₂, by simp, hinner, ?_⟩
    have hparts := ((subperm_of_drawn hearly).append hsub).append (subperm_of_drawn hlate)
    have hperm := perm_allQuestions hnodes
    rw [List.flatMap_append, List.flatMap_cons, ← List.append_assoc] at hperm
    simpa using hparts.trans hperm.subperm
termination_by sizeOf b
decreasing_by exact sizeOf_subBlock hd

theorem split_of_getRight? : ∀ {nodes : List (Question ⊕ Block)} {d : Block} {ds : List Block},
    (d :: ds).Sublist (nodes.filterMap (·.getRight?)) →
      ∃ before after, nodes = before ++ .inr d :: after ∧ ds.Sublist (after.filterMap (·.getRight?))
  | [], _, _, h => nomatch h
  | .inl q :: nodes, d, ds, h => by
    have h : (d :: ds).Sublist (nodes.filterMap (·.getRight?)) := h
    obtain ⟨before, after, rfl, hrest⟩ := split_of_getRight? h
    exact ⟨.inl q :: before, after, rfl, hrest⟩
  | .inr c :: nodes, d, ds, h => by
    change (d :: ds).Sublist (c :: nodes.filterMap (·.getRight?)) at h
    rcases List.sublist_cons_iff.mp h with h | ⟨_, heq, hrest⟩
    · obtain ⟨before, after, rfl, hrest⟩ := split_of_getRight? h
      exact ⟨.inr c :: before, after, rfl, hrest⟩
    · obtain ⟨rfl, rfl⟩ := List.cons.inj heq
      exact ⟨[], nodes, rfl, hrest⟩

/-- **Of two blocks that may not move what is drawn for the earlier one comes first**, and the rest
comes from elsewhere. -/
theorem Block.kept_of_expand {b d e : Block} {g g' : Gen} {qs : List Question}
    (h : b.expand g = .ok (qs, g'))
    (hde : [d, e].Sublist (b.subBlocks.filter (!·.isRandomizable))) :
    ∃ before part mid part' after, qs = before ++ part ++ mid ++ part' ++ after ∧
      Drawn (.inr d) part ∧ Drawn (.inr e) part' ∧
      (before ++ d.allQuestions ++ mid ++ e.allQuestions ++ after).Subperm b.allQuestions := by
  obtain ⟨nodes, parts, hnodes, hkept, hparts, rfl⟩ := parts_of_expand h
  rw [← hkept] at hde
  obtain ⟨before, rest, rfl, hrest⟩ := split_of_getRight? (hde.trans List.filter_sublist)
  obtain ⟨mid, after, rfl, -⟩ := split_of_getRight? hrest
  obtain ⟨early, part, _, rfl, hearly, hpart, hrest⟩ := drawn_split hparts
  obtain ⟨between, part', late, rfl, hbetween, hpart', hlate⟩ := drawn_split hrest
  refine ⟨early.flatten, part, between.flatten, part', late.flatten, by simp, hpart, hpart', ?_⟩
  have hperm := perm_allQuestions hnodes
  simp only [List.flatMap_append, List.flatMap_cons, nodeQuestions] at hperm
  have hothers := ((subperm_of_drawn hbetween).append
    ((List.Subperm.refl e.allQuestions).append (subperm_of_drawn hlate)))
  have hall := (subperm_of_drawn hearly).append ((List.Subperm.refl d.allQuestions).append hothers)
  simpa using hall.trans hperm.subperm

/-! ### The expansion of a block -/

/-- What a respondent may see of a block inside another. -/
def Block.ShowsInside (c : Block) (qs : List Question) : Prop :=
  if c.paradigm = .all then ∃ q ∈ c.questions, qs = [q] else c.Shows qs

theorem Drawn.showsInside {c : Block} {part : List Question} (h : Drawn (.inr c) part) :
    c.ShowsInside part := by
  unfold Block.ShowsInside
  cases h with
  | @variant _ q hall hq =>
    rw [if_pos hall]
    exact ⟨q, hq, rfl⟩
  | whole hall hpart =>
    rw [if_neg hall]
    exact c.shows_of_expand hpart

/-- What is drawn for a block when it is opened. The questions of the opened blocks are there and one
of each block of variants. What is shown of an opened block stays together, and what is shown of
blocks that may not move comes in their order; if no question is in the block twice, then all that
is seen of their questions is. -/
structure Block.Expansion (b : Block) (qs : List Question) : Prop where
  contents : ∃ drawn, List.Forall₂ (fun c q => q ∈ c.questions) b.variants drawn ∧
    qs.Perm (b.opened.flatMap (·.questions) ++ drawn)
  together : ∀ c ∈ b.opened, ∃ before part after, qs = before ++ part ++ after ∧ c.Shows part ∧
    (b.allQuestions.Nodup → ∀ q ∈ c.allQuestions, q ∉ before ∧ q ∉ after)
  kept : ∀ c ∈ b.opened, ∀ d e, [d, e].Sublist (c.subBlocks.filter (!·.isRandomizable)) →
    (∃ before part mid part' after, qs = before ++ part ++ mid ++ part' ++ after ∧
      d.ShowsInside part ∧ e.ShowsInside part') ∧
    (b.allQuestions.Nodup → qs.Pairwise fun x y => ¬(x ∈ e.allQuestions ∧ y ∈ d.allQuestions))

theorem nodup_of_subperm {α : Type} {xs ys : List α} (h : xs.Subperm ys) (hnodup : ys.Nodup) :
    xs.Nodup := by
  obtain ⟨zs, hperm, hsublist⟩ := h
  exact hperm.nodup_iff.mp (hsublist.nodup hnodup)

/-- If what comes from two sources is told apart, and all from the first is in an earlier part than
all from the second, then nothing from the second comes before something from the first. -/
theorem pairwise_of_parts {α : Type} {before part mid part' after ds es : List α} (hpart : part ⊆ ds)
    (hpart' : part' ⊆ es) (hnodup : (before ++ ds ++ mid ++ es ++ after).Nodup) :
    (before ++ part ++ mid ++ part' ++ after).Pairwise fun x y => ¬(x ∈ es ∧ y ∈ ds) := by
  obtain ⟨hfirst, -, hafter⟩ := List.nodup_append.mp hnodup
  obtain ⟨hfirst, -, hes⟩ := List.nodup_append.mp hfirst
  obtain ⟨hfirst, -, hmid⟩ := List.nodup_append.mp hfirst
  have hearly : ∀ x ∈ before ++ part ++ mid, x ∉ es := by
    intro x hx hmem
    refine hes x ?_ x hmem rfl
    simp only [List.mem_append] at hx ⊢
    exact hx.imp_left fun hx => hx.imp_right (hpart ·)
  have hlate : ∀ y ∈ part' ++ after, y ∉ ds := by
    intro y hy hmem
    have hmem : y ∈ before ++ ds ++ mid := by simp [hmem]
    rcases List.mem_append.mp hy with hy | hy
    · exact hes y hmem y (hpart' hy) rfl
    · exact hafter y (List.mem_append_left _ hmem) y hy rfl
  rw [List.append_assoc _ part']
  refine List.pairwise_append.mpr ⟨?_, ?_, ?_⟩
  · exact List.pairwise_of_forall_mem_list fun x hx _ _ hboth => hearly x hx hboth.1
  · exact List.pairwise_of_forall_mem_list fun _ _ y hy hboth => hlate y hy hboth.2
  · exact fun x hx _ _ hboth => hearly x hx hboth.1

theorem Block.expansion_of_expand {b : Block} {g g' : Gen} {qs : List Question}
    (h : b.expand g = .ok (qs, g')) : b.Expansion qs where
  contents := (b.shows_of_expand h).contents
  together := by
    intro c hc
    obtain ⟨before, part, after, g₁, g₂, rfl, hpart, hsub⟩ := b.part_of_expand h hc
    refine ⟨before, part, after, rfl, c.shows_of_expand hpart, fun hnodup q hq => ?_⟩
    obtain ⟨hfirst, -, hafter⟩ := List.nodup_append.mp (nodup_of_subperm hsub hnodup)
    exact ⟨fun hmem => (List.nodup_append.mp hfirst).2.2 q hmem q hq rfl,
      fun hmem => hafter q (List.mem_append_right _ hq) q hmem rfl⟩
  kept := by
    intro c hc d e hde
    obtain ⟨before, inner, after, g₁, g₂, rfl, hinner, hsub⟩ := b.part_of_expand h hc
    obtain ⟨before', part, mid, part', after', rfl, hpart, hpart', hsub'⟩ := kept_of_expand hinner hde
    constructor
    · exact ⟨before ++ before', part, mid, part', after' ++ after, by simp, hpart.showsInside,
        hpart'.showsInside⟩
    · intro hnodup
      have hparts := (((List.Subperm.refl before).append hsub').append (.refl after)).trans hsub
      have hnodup : ((before ++ before') ++ d.allQuestions ++ mid ++ e.allQuestions ++
          (after' ++ after)).Nodup := by
        simpa using nodup_of_subperm hparts hnodup
      have hd : part ⊆ d.allQuestions := hpart.subperm.subset
      have he : part' ⊆ e.allQuestions := hpart'.subperm.subset
      simpa using pairwise_of_parts hd he hnodup

theorem Block.Expansion.length_eq {b : Block} {qs : List Question} (h : b.Expansion qs) :
    qs.length = (b.opened.map (·.questions.length)).sum + b.variants.length := by
  obtain ⟨drawn, hdrawn, hperm⟩ := h.contents
  rw [hperm.length_eq, List.length_append, List.length_flatMap, hdrawn.length_eq]

/-- **What opening a block comes to, whatever is drawn.** If a block that is opened with it has no
contents or holds variants without questions, the survey is malformed, as a fault that names a block
says. Otherwise the questions of the opened blocks are shown and one of each block of variants that
they hold; what is shown of a block stays together, and blocks that may not move keep their order.
So how many questions are shown does not depend on what is drawn. -/
theorem Block.expands (b : Block) (g : Gen) :
    ((∃ c, ReflTransGen Opens b c ∧ c.Hollow) ∧
      ∃ c ∈ b.preorder, ∃ cause : Fault, cause.kind = .malformedSurvey ∧
        b.expand g = .error (.about [c.id] cause)) ∨
    ((¬∃ c, ReflTransGen Opens b c ∧ c.Hollow) ∧
      ∃ qs g', b.expand g = .ok (qs, g') ∧ b.Expansion qs ∧
        qs.length = (b.opened.map (·.questions.length)).sum + b.variants.length) := by
  have hopened : (¬∃ c, ReflTransGen Opens b c ∧ c.Hollow) ↔ ∀ c ∈ b.opened, ¬c.Hollow := by
    simp only [mem_opened_iff, not_exists, not_and]
  have hsucceeds := hopened.trans (b.expand_succeeds_iff g).symm
  cases hexpand : b.expand g with
  | error fault =>
    left
    obtain ⟨c, hc, cause, hkind, rfl⟩ := b.fault_of_expand hexpand
    refine ⟨?_, c, hc, cause, hkind, rfl⟩
    by_contra hnone
    obtain ⟨result, hresult⟩ := hsucceeds.mp hnone
    cases hexpand.symm.trans hresult
  | ok result =>
    obtain ⟨qs, g'⟩ := result
    right
    have hexpansion := expansion_of_expand hexpand
    exact ⟨hsucceeds.mpr ⟨_, hexpand⟩, qs, g', rfl, hexpansion, hexpansion.length_eq⟩

end Questionnaire
