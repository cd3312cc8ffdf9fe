/-
# Questions shown and questions counted

A run to the end shows the questions that its blocks show when they are opened,
so how many it shows depends on its blocks alone. A tour of the same blocks
takes as many exactly if the blocks of variants at the top level show no more
than the tour hides of what is under blocks of variants.

Key theorems: `tour_matches_iff`, `one_of_each_iff`,
`Traversal.Sound.shown_length_eq`, `Traversal.shown_eq_tour_iff`.
-/
import Questionnaire.Proofs.Path.Exits
import Questionnaire.Proofs.Path.Tour
import Questionnaire.Proofs.Traversal.Routing

namespace Questionnaire

theorem Block.Filled.of_mem_preorder {b c : Block} (h : b.Filled) (hc : c ∈ b.preorder) :
    c.Filled :=
  fun d hd => h d (b.preorder_subset_of_mem_preorder hc hd)

/-- What is shown and what is hidden of blocks are what a tour takes of them and their surplus. -/
theorem sum_shownCount_add_hidden : ∀ bs : List Block, (∀ b ∈ bs, b.Filled) →
    (bs.map (·.shownCount)).sum + (bs.map (·.hidden)).sum = tourUnder bs + (bs.map (·.surplus)).sum
  | [], _ => rfl
  | b :: bs, h => by
    have hb := Block.shownCount_add_hidden (h b List.mem_cons_self)
    have ih := sum_shownCount_add_hidden bs fun c hc => h c (List.mem_cons_of_mem b hc)
    simp only [List.map_cons, List.sum_cons, tourUnder]
    omega

/-! ### One question of each block of variants -/

/-- A block of variants shows one question when it is opened, and nothing more, exactly if it has
one and no blocks under it. -/
theorem Block.expand_one_iff {b : Block} (h : b.Filled) (hall : b.paradigm = .all) :
    (∀ g, ∃ qs g', b.expand g = .ok (qs, g') ∧ qs.length = 1) ↔
      b.questions.length = 1 ∧ b.subBlocks = [] := by
  have hquestions : 0 < b.questions.length :=
    List.length_pos_iff.mpr ((h b b.mem_preorder_self).2 hall)
  constructor
  · intro hone
    obtain ⟨qs, g', hexpand, hlength⟩ := hone default
    obtain ⟨inner, hinner, hperm⟩ := b.shows_of_expand hexpand
    have hqs := hperm.length_eq
    rw [List.length_append] at hqs
    refine ⟨by omega, ?_⟩
    by_contra hsub
    have hpos := List.length_pos_iff.mpr (hinner.ne_nil (fun c hc => h.subBlock hc) hsub)
    omega
  · rintro ⟨hlength, hsub⟩ g
    obtain ⟨⟨qs, g'⟩, hexpand⟩ := b.expand_succeeds h g
    refine ⟨qs, g', hexpand, ?_⟩
    rw [(b.shows_of_expand hexpand).length_eq, b.shownCount_eq, hlength, hsub]
    rfl

/-- A tour takes one question of a block of variants exactly if no blocks are under it. -/
theorem Block.tour_one_iff {b : Block} (h : b.Filled) (hall : b.paradigm = .all) :
    (∀ g, ∃ qs g', b.tour g = .ok (qs, g') ∧ qs.length = 1) ↔ b.subBlocks = [] := by
  have hcount : b.tourCount = 1 + tourUnder b.subBlocks := by
    rw [b.tourCount_eq, h.ownTourCount_eq, if_pos hall]
  have hzero := tourUnder_eq_zero_iff fun c (hc : c ∈ b.subBlocks) => h.subBlock hc
  constructor
  · intro hone
    obtain ⟨qs, g', htour, hlength⟩ := hone default
    rw [b.length_of_tour htour, hcount] at hlength
    exact hzero.mp (by omega)
  · intro hsub g
    obtain ⟨⟨qs, g'⟩, htour⟩ := (b.tour_succeeds_iff g).mpr (by simp [hsub, preorders])
    refine ⟨qs, g', htour, ?_⟩
    rw [b.length_of_tour htour, hcount, hzero.mpr hsub]

/-- Each block of variants adds one question to what is shown and to a tour exactly if those at the
top level have one, and none has blocks under it. -/
theorem one_of_each_iff {bs : List Block} (h : ∀ b ∈ bs, b.Filled) :
    ((∀ b ∈ bs, b.paradigm = .all → ∀ g, ∃ qs g', b.expand g = .ok (qs, g') ∧ qs.length = 1) ∧
        ∀ b ∈ Block.preorders bs, b.paradigm = .all →
          ∀ g, ∃ qs g', b.tour g = .ok (qs, g') ∧ qs.length = 1) ↔
      (∀ b ∈ bs, b.paradigm = .all → b.questions.length = 1) ∧
        ∀ b ∈ Block.preorders bs, b.paradigm = .all → b.subBlocks = [] := by
  have hunder : ∀ b ∈ Block.preorders bs, b.Filled := by
    intro b hb
    obtain ⟨top, hmem, hpre⟩ := Block.mem_preorders.mp hb
    exact (h top hmem).of_mem_preorder hpre
  constructor
  · rintro ⟨hexpand, htour⟩
    constructor
    · exact fun b hb hall => ((b.expand_one_iff (h b hb) hall).mp (hexpand b hb hall)).1
    · exact fun b hb hall => (b.tour_one_iff (hunder b hb) hall).mp (htour b hb hall)
  · rintro ⟨hone, hsub⟩
    constructor
    · intro b hb hall
      have hnone := hsub b (Block.mem_preorders_of_mem hb) hall
      exact (b.expand_one_iff (h b hb) hall).mpr ⟨hone b hb hall, hnone⟩
    · exact fun b hb hall => (b.tour_one_iff (hunder b hb) hall).mpr (hsub b hb hall)

/-- Every tour takes as many questions as the blocks show exactly if the blocks can be put in order
and their surplus is what the tour hides. -/
theorem tour_matches_iff {bs : List Block} (h : ∀ b ∈ bs, b.Filled) :
    (∀ g, ∃ qs g', tour bs g = .ok (qs, g') ∧ qs.length = (bs.map (·.shownCount)).sum) ↔
      (∀ b ∈ Block.preorders bs, ∃ key, b.sortKey = .ok key) ∧
        (bs.map (·.surplus)).sum = (bs.map (·.hidden)).sum := by
  have hcount := sum_shownCount_add_hidden bs h
  constructor
  · intro hall
    obtain ⟨qs, g', htour, hlength⟩ := hall default
    rw [length_of_tour htour] at hlength
    exact ⟨(tour_succeeds_iff bs default).mp ⟨_, htour⟩, by omega⟩
  · rintro ⟨hkeys, hsum⟩ g
    obtain ⟨⟨qs, g'⟩, htour⟩ := (tour_succeeds_iff bs g).mpr hkeys
    refine ⟨qs, g', htour, ?_⟩
    rw [length_of_tour htour]
    omega

namespace Traversal

variable {s : Survey} {t : Traversal} {order : List Block} {c : Course}

/-- A run to the end has shown what its blocks show. -/
theorem Sound.shown_length_eq (h : t.Sound s order c) (hdone : t.finished = true) :
    t.shown.length = (t.visited.map (·.shownCount)).sum := by
  have hpresent := h.present
  rw [(finished_iff.mp hdone).1, List.append_nil] at hpresent
  have hpast := length_flatten_of_forall₂ (fun _ _ _ hb => hb.length_eq) h.past
  calc t.shown.length = (t.shown.map (·.question)).length := (List.length_map _).symm
    _ = c.past.flatten.length + c.done.length := by rw [h.shown, List.length_append]
    _ = (t.visited.map (·.shownCount)).sum := by
      rw [hpast, hpresent.length_eq, h.visited]
      simp

/-- **When a tour takes as many questions as were shown.** A run to the end shows as many questions
as every tour of its blocks takes exactly if all blocks in and under them can be put in order, and
the blocks at the top level show as many variants beyond the first as the tour takes questions under
blocks of variants. Each block of variants adds one question to either exactly if those at the top
level have one, and none has blocks under it. -/
theorem shown_eq_tour_iff {origin : Nat} {d : Document} (hread : Survey.ofDocument origin d = .ok s)
    (hv : s.Valid) (h : Prompt s t) (hdone : t.finished = true) {bs : List Block}
    (hbs : bs.Perm t.visited) :
    ((∀ g, ∃ qs g', tour bs g = .ok (qs, g') ∧ qs.length = t.shown.length) ↔
      (∀ b ∈ Block.preorders bs, ∃ key, b.sortKey = .ok key) ∧
        (bs.map (·.surplus)).sum = (bs.map (·.hidden)).sum) ∧
    (((∀ b ∈ bs, b.paradigm = .all → ∀ g, ∃ qs g', b.expand g = .ok (qs, g') ∧ qs.length = 1) ∧
        ∀ b ∈ Block.preorders bs, b.paradigm = .all →
          ∀ g, ∃ qs g', b.tour g = .ok (qs, g') ∧ qs.length = 1) ↔
      (∀ b ∈ bs, b.paradigm = .all → b.questions.length = 1) ∧
        ∀ b ∈ Block.preorders bs, b.paradigm = .all → b.subBlocks = []) := by
  have hs := Survey.coherent_of_ofDocument hread
  obtain ⟨order, c, -, hsound, -⟩ := h.invariant hs hv
  have hfilled : ∀ b ∈ bs, b.Filled := fun b hb =>
    hv.filled (hsound.mem_of_visited (hbs.mem_iff.mp hb))
  have hshown : t.shown.length = (bs.map (·.shownCount)).sum := by
    rw [hsound.shown_length_eq hdone, (hbs.map (·.shownCount)).sum_nat]
  rw [hshown]
  exact ⟨tour_matches_iff hfilled, one_of_each_iff hfilled⟩

/-- The traversal past a block of variants, of which one was shown, to the end. -/
def detourDone : Traversal := detourAnswered.next.2.next.2

theorem shown_eq_tour_detour : Survey.ofDocument 0 detourDocument = .ok detour ∧ detour.Valid ∧
    Prompt detour detourDone ∧ detourDone.finished = true ∧ detour.blocks.Perm detourDone.visited ∧
    (∀ g, ∃ qs g', tour detour.blocks g = .ok (qs, g') ∧ qs.length = detourDone.shown.length) ∧
    ∀ b ∈ Block.preorders detour.blocks, b.paradigm = .all →
      ∀ g, ∃ qs g', b.tour g = .ok (qs, g') ∧ qs.length = 1 := by
  have hsecond : detourAnswered.next.1 = .ok ⟨plainQuestion 2 "2" [] [], [], 1⟩ := by cbv
  have hthird : detourAnswered.next.2.next.1 = .ok ⟨plainQuestion 3 "3" [] [], [], 2⟩ := by cbv
  have hprompt : Prompt detour detourDone :=
    (prompt_detourAnswered.next (Prod.ext hsecond rfl)).next (Prod.ext hthird rfl)
  have hvisited : detour.blocks.Perm detourDone.visited := by
    rw [show detourDone.visited = detour.blocks by cbv]
  have hfinished : detourDone.finished = true := by cbv
  have hblocks : Block.preorders detour.blocks = aroundBlock :: (aroundBlock.subBlocks ++
      [plainBlock 2 "2" (plainQuestion 2 "2" [] []), plainBlock 3 "3" (plainQuestion 3 "3" [] [])]) :=
    rfl
  obtain ⟨hcount, hone⟩ :=
    shown_eq_tour_iff ofDocument_detour (by decide) hprompt hfinished hvisited
  refine ⟨ofDocument_detour, by decide, hprompt, hfinished, hvisited, hcount.mpr ⟨?_, rfl⟩,
    (hone.mpr ⟨?_, ?_⟩).2⟩
  · rw [hblocks]
    intro b hb
    fin_cases hb
    · exact ⟨.numbered [1], by cbv⟩
    · exact ⟨.numbered [1, 1], by cbv⟩
    · exact ⟨.numbered [2], by cbv⟩
    · exact ⟨.numbered [3], by cbv⟩
  · intro b hb hall
    fin_cases hb <;> cases hall
  · rw [hblocks]
    intro b hb hall
    fin_cases hb <;> first | rfl | cases hall

/-! ### Variants at the top level -/

/-- A document whose only block has two variants of a question. -/
def variantsDocument : Document := .record [
  ("name", .str "variants"),
  ("blocks", .list [.record [("id", .str "1"), ("branch_paradigm", .str "all"),
    ("questions", .list [.record [("id", .str "a")], .record [("id", .str "b")]])]])]

/-- One of the variants. -/
def variant (index : Nat) (id : String) : Question := { key := ⟨0, index⟩, id := .str id }

/-- The block of the two variants. -/
def variantsBlock : Block :=
  { key := ⟨0, 0⟩, id := .str "1", questions := [variant 0 "a", variant 1 "b"], paradigm := .all }

/-- The survey of that document. -/
def variants : Survey where
  name := .str "variants"
  blocks := [variantsBlock]

/-- The traversal of the survey with its block open. -/
def variantsOpen : Traversal where
  survey := variants
  gen := ⟨11400714819323198485⟩
  blocks := []
  questions := [variant 0 "a", variant 1 "b"]
  pending := none
  shown := []
  answers := []
  visited := [variantsBlock]

/-- The traversal at its end: both variants were shown. -/
def variantsDone : Traversal :=
  { variantsOpen with questions := [], shown := [⟨variant 0 "a", [], 0⟩, ⟨variant 1 "b", [], 1⟩] }

/-- Of two variants at the top level both are shown, but a tour takes one. -/
theorem variants_shown_twice : Survey.ofDocument 0 variantsDocument = .ok variants ∧ variants.Valid ∧
    Prompt variants variantsDone ∧ variantsDone.finished = true ∧ variantsDone.shown.length = 2 ∧
    ∀ g, ∃ qs g', tour variantsDone.visited g = .ok (qs, g') ∧ qs.length = 1 := by
  have hread : Survey.ofDocument 0 variantsDocument = .ok variants := by
    unfold Survey.ofDocument
    rw [@readBlocks_leaves 0 variantsDocument [_] (by cbv) (by cbv)]
    cbv
  have hstart : start variants ⟨0⟩ = .ok (variantsOpen, ⟨11400714819323198485⟩) := by cbv
  have hfirst : variantsOpen.next = (.ok ⟨variant 0 "a", [], 0⟩,
      { variantsOpen with questions := [variant 1 "b"], shown := [⟨variant 0 "a", [], 0⟩] }) := by cbv
  have hsecond : ({ variantsOpen with
      questions := [variant 1 "b"], shown := [⟨variant 0 "a", [], 0⟩] } : Traversal).next =
        (.ok ⟨variant 1 "b", [], 1⟩, variantsDone) := by cbv
  refine ⟨hread, by decide, ((Prompt.start hstart).next hfirst).next hsecond, by cbv, rfl, ?_⟩
  intro g
  have hkeys : ∀ b ∈ Block.preorders variantsDone.visited, ∃ key, b.sortKey = .ok key := by
    intro b hb
    obtain rfl := List.mem_singleton.mp hb
    exact ⟨.numbered [1], by cbv⟩
  obtain ⟨⟨qs, g'⟩, htour⟩ := (tour_succeeds_iff _ g).mpr hkeys
  exact ⟨qs, g', htour, length_of_tour htour⟩

end Traversal

end Questionnaire
