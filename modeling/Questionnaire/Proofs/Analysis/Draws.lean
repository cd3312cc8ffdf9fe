/-
# Draws and the bits along a path

A tour draws one question of each block of variants, so what it takes depends on
the generator, and so may the bits that free choices along a path carry. They
are summed over the numbers of choices. These are the same whatever is drawn if
the variants of each block offer equally many choices, and only then: otherwise
two draws that differ in one variant differ in one number.

Key definitions: `choiceCounts`, `EvenlyWorded`, `Block.MayTake`,
`Survey.maxEntropyFrom`.
Key theorems: `Block.mayTake_iff`, `DrawsAlike.of_evenlyWorded`, `parts_of_tour`,
`evenlyWorded_iff`, `draws_alike_iff`.
-/
import Questionnaire.Analysis.Entropy
import Questionnaire.Proofs.Analysis.Entropy
import Questionnaire.Proofs.Drawing
import Questionnaire.Proofs.Path.Tour

namespace Questionnaire

/-- How many choices each of some questions offers. -/
def choiceCounts (qs : List Question) : List Nat := qs.map (·.choices.length)

theorem choiceCounts_append (qs rs : List Question) :
    choiceCounts (qs ++ rs) = choiceCounts qs ++ choiceCounts rs := List.map_append

theorem choiceCounts_flatten (parts : List (List Question)) :
    choiceCounts parts.flatten = (parts.map choiceCounts).flatten := List.map_flatten

/-- The bits of free choices among so many. -/
def countBits (ns : List Nat) : Float :=
  plainSum ((ns.filter (· ≠ 0)).map fun n => logTwo (Float.ofNat n))

/-- The bits of free choices are summed over how many choices there are. -/
theorem choiceBits_eq (qs : List Question) : choiceBits qs = countBits (choiceCounts qs) := by
  have hfilter : ∀ q : Question, (!q.choices.isEmpty) = decide (q.choices.length ≠ 0) := fun q => by
    cases q.choices <;> rfl
  unfold choiceBits countBits choiceCounts
  rw [List.filter_map, List.map_map]
  simp only [hfilter]
  rfl

/-- The questions of each block of variants among the blocks and under them offer equally many
choices. -/
def EvenlyWorded (bs : List Block) : Prop :=
  ∀ b ∈ Block.preorders bs, b.paradigm = .all →
    ∀ q ∈ b.questions, ∀ r ∈ b.questions, q.choices.length = r.choices.length

theorem EvenlyWorded.of_mem {bs : List Block} (h : EvenlyWorded bs) {b : Block} (hb : b ∈ bs) :
    EvenlyWorded [b] := fun c hc => h c <| by
  obtain ⟨d, hd, hc⟩ := Block.mem_preorders.mp hc
  rw [List.mem_singleton.mp hd] at hc
  exact Block.mem_preorders.mpr ⟨b, hb, hc⟩

theorem EvenlyWorded.perm {bs cs : List Block} (h : EvenlyWorded bs) (hperm : cs.Perm bs) :
    EvenlyWorded cs := fun c hc => h c <| by
  obtain ⟨b, hb, hc⟩ := Block.mem_preorders.mp hc
  exact Block.mem_preorders.mpr ⟨b, hperm.mem_iff.mp hb, hc⟩

theorem EvenlyWorded.subBlocks {b : Block} (h : EvenlyWorded [b]) : EvenlyWorded b.subBlocks :=
  fun c hc => h c (Block.mem_preorders_iff_under.mpr (.inr ⟨b, List.mem_singleton_self b, hc⟩))

/-! ### What may be taken of a block -/

/-- What a tour may take of a block's own questions. -/
def Block.MayTake (b : Block) (part : List Question) : Prop :=
  if b.paradigm = .all ∧ b.questions ≠ [] then ∃ q ∈ b.questions, part = [q] else part = b.questions

theorem Block.ownTour_variant {b : Block} (h : b.paradigm = .all ∧ b.questions ≠ []) (g : Gen) :
    (b.ownTour g).1 = (b.questions[(g.below b.questions.length).1]?).toList := by
  rw [ownTour, if_pos h]

theorem Block.ownTour_whole {b : Block} (h : ¬(b.paradigm = .all ∧ b.questions ≠ [])) (g : Gen) :
    (b.ownTour g).1 = b.questions := by
  rw [ownTour, if_neg h]

theorem Block.mayTake_ownTour (b : Block) (g : Gen) : b.MayTake (b.ownTour g).1 := by
  unfold MayTake
  by_cases hone : b.paradigm = .all ∧ b.questions ≠ []
  · have hlt := Gen.below_lt (List.length_pos_iff.mpr hone.2) g
    rw [if_pos hone, ownTour_variant hone, List.getElem?_eq_getElem hlt]
    exact ⟨_, List.getElem_mem hlt, rfl⟩
  · rw [if_neg hone, ownTour_whole hone]

/-- **What a tour may take is what some generator makes it take.** -/
theorem Block.mayTake_iff {b : Block} (h : b.questions.length ≤ 2 ^ 64) {part : List Question} :
    b.MayTake part ↔ ∃ g, (b.ownTour g).1 = part := by
  constructor
  · unfold MayTake
    by_cases hone : b.paradigm = .all ∧ b.questions ≠ []
    · rw [if_pos hone]
      rintro ⟨q, hq, rfl⟩
      obtain ⟨i, hi, rfl⟩ := List.getElem_of_mem hq
      obtain ⟨g, hg⟩ := Gen.exists_below h hi
      exact ⟨g, by rw [ownTour_variant hone, hg, List.getElem?_eq_getElem hi]; rfl⟩
    · rw [if_neg hone]
      rintro rfl
      exact ⟨⟨0⟩, ownTour_whole hone _⟩
  · rintro ⟨g, rfl⟩
    exact b.mayTake_ownTour g

theorem Block.exists_mayTake (b : Block) : ∃ part, b.MayTake part := ⟨_, b.mayTake_ownTour ⟨0⟩⟩

/-- Evenly worded, a block adds the same numbers whatever is taken of it. -/
theorem Block.MayTake.choiceCounts_eq {b : Block} (heven : b.paradigm = .all →
      ∀ q ∈ b.questions, ∀ r ∈ b.questions, q.choices.length = r.choices.length)
    {part part' : List Question} (h : b.MayTake part) (h' : b.MayTake part') :
    choiceCounts part = choiceCounts part' := by
  unfold MayTake at h h'
  by_cases hone : b.paradigm = .all ∧ b.questions ≠ []
  · rw [if_pos hone] at h h'
    obtain ⟨q, hq, rfl⟩ := h
    obtain ⟨r, hr, rfl⟩ := h'
    exact congrArg ([·]) (heven hone.1 q hq r hr)
  · rw [if_neg hone] at h h'
    rw [h, h']

/-! ### Two generators -/

/-- The numbers of choices are the same whatever is drawn, and so is the fault. -/
def DrawsAlike (draw : Trial (List Question)) : Prop :=
  ∀ g h, (draw g).map (fun r => choiceCounts r.1) = (draw h).map (fun r => choiceCounts r.1)

theorem Gen.tryEach_cons_map (draw : Block → Trial (List Question)) (b : Block) (bs : List Block)
    (g : Gen) : (tryEach draw (b :: bs) g).map (fun r => r.1.map choiceCounts) =
      (draw b g).bind fun r => ((tryEach draw bs r.2).map fun rs => rs.1.map choiceCounts).map
        (choiceCounts r.1 :: ·) := by
  rw [tryEach]
  cases draw b g with
  | error fault => rfl
  | ok r =>
    simp only [bind, Except.bind]
    cases tryEach draw bs r.2 <;> rfl

theorem DrawsAlike.tryEach {draw : Block → Trial (List Question)} : ∀ {bs : List Block},
    (∀ b ∈ bs, DrawsAlike (draw b)) → ∀ g h,
      (Gen.tryEach draw bs g).map (fun r => r.1.map choiceCounts) =
        (Gen.tryEach draw bs h).map fun r => r.1.map choiceCounts
  | [], _, _, _ => rfl
  | b :: bs, hbs, g, h => by
    have hrest := @DrawsAlike.tryEach draw bs fun c hc => hbs c (List.mem_cons_of_mem b hc)
    have hfirst := hbs b List.mem_cons_self g h
    rw [Gen.tryEach_cons_map, Gen.tryEach_cons_map]
    cases hg : draw b g <;> cases hh : draw b h <;> rw [hg, hh] at hfirst
    · cases hfirst
      rfl
    · cases hfirst
    · cases hfirst
    · rename_i r r'
      have hcounts : choiceCounts r.1 = choiceCounts r'.1 := Except.ok.inj hfirst
      simp only [Except.bind, hcounts, hrest r.2 r'.2]

theorem tour_map (bs : List Block) (g : Gen) : (tour bs g).map (fun r => choiceCounts r.1) =
    (sortBlocks bs).bind fun sorted =>
      ((Gen.tryEach Block.tour sorted g).map fun r => r.1.map choiceCounts).map List.flatten := by
  unfold tour
  cases sortBlocks bs with
  | error fault => rfl
  | ok sorted =>
    simp only [bind, Except.bind]
    cases Gen.tryEach Block.tour sorted g with
    | error fault => rfl
    | ok r => exact congrArg Except.ok (choiceCounts_flatten r.1)

theorem Block.tour_map (b : Block) (g : Gen) : (b.tour g).map (fun r => choiceCounts r.1) =
    ((Questionnaire.tour b.subBlocks (b.ownTour g).2).map fun r => choiceCounts r.1).map
      (choiceCounts (b.ownTour g).1 ++ ·) := by
  rw [b.tour_eq]
  cases Questionnaire.tour b.subBlocks (b.ownTour g).2 with
  | error fault => rfl
  | ok r => exact congrArg Except.ok (choiceCounts_append _ r.1)

theorem DrawsAlike.tours {bs : List Block} (hbs : ∀ b ∈ bs, DrawsAlike b.tour) :
    DrawsAlike (tour bs) := fun g h => by
  rw [tour_map, tour_map]
  cases hsorted : sortBlocks bs with
  | error fault => rfl
  | ok sorted =>
    have hperm := inNaturalOrder_perm hsorted
    simp only [Except.bind, DrawsAlike.tryEach (fun b hb => hbs b (hperm.mem_iff.mp hb)) g h]

/-- Evenly worded, a block has the same numbers on every tour. -/
theorem DrawsAlike.of_block (b : Block) (heven : EvenlyWorded [b]) : DrawsAlike b.tour := fun g h => by
  have hown := (b.mayTake_ownTour g).choiceCounts_eq
    (heven b (Block.mem_preorders_of_mem (List.mem_singleton_self b))) (b.mayTake_ownTour h)
  have hunder : DrawsAlike (tour b.subBlocks) :=
    DrawsAlike.tours fun c hc => DrawsAlike.of_block c (heven.subBlocks.of_mem hc)
  rw [b.tour_map, b.tour_map, hown, hunder (b.ownTour g).2 (b.ownTour h).2]
termination_by sizeOf b
decreasing_by exact Block.sizeOf_subBlock hc

/-- **Evenly worded blocks have the same numbers on every tour**, in the same order. -/
theorem DrawsAlike.of_evenlyWorded {bs : List Block} (h : EvenlyWorded bs) : DrawsAlike (tour bs) :=
  DrawsAlike.tours fun b hb => DrawsAlike.of_block b (h.of_mem hb)

/-! ### All that may be drawn -/

/-- What a tour of blocks may take of each of them and of those under them. -/
abbrev TakeParts (bs : List Block) (parts : List (List Question)) : Prop :=
  List.Forall₂ Block.MayTake (Block.preorders bs) parts

/-- In whatever order the blocks stand, the same questions may be taken of them. -/
theorem TakeParts.perm {bs cs : List Block} {parts : List (List Question)} {qs : List Question}
    (h : TakeParts bs parts) (hqs : qs.Perm parts.flatten) (hperm : bs.Perm cs) :
    ∃ parts', TakeParts cs parts' ∧ qs.Perm parts'.flatten := by
  have hunder : (Block.preorders cs).Perm (Block.preorders bs) := by
    rw [Block.preorders_eq_flatMap, Block.preorders_eq_flatMap]
    exact hperm.symm.flatMap_right _
  obtain ⟨parts', htake, hparts⟩ := List.perm_comp_forall₂ hunder h
  exact ⟨parts', htake, hqs.trans hparts.symm.flatten⟩

/-- What is taken of blocks one after another is taken of them and of those under them. -/
theorem parts_of_forall₂ {R : Block → List Question → Prop} :
    ∀ {bs : List Block} {tours : List (List Question)},
      (∀ b ∈ bs, ∀ qs, R b qs → ∃ parts, TakeParts [b] parts ∧ qs.Perm parts.flatten) →
      List.Forall₂ R bs tours → ∃ parts, TakeParts bs parts ∧ tours.flatten.Perm parts.flatten
  | _, _, _, .nil => ⟨[], .nil, .nil⟩
  | b :: bs, qs :: tours, hone, .cons hqs hrest => by
    obtain ⟨first, hfirst, hperm⟩ := hone b List.mem_cons_self qs hqs
    obtain ⟨rest, htake, hperm'⟩ :=
      parts_of_forall₂ (fun c hc => hone c (List.mem_cons_of_mem b hc)) hrest
    refine ⟨first ++ rest, ?_, ?_⟩
    · rw [TakeParts, ← List.singleton_append, Block.preorders_append]
      exact List.rel_append hfirst htake
    · rw [List.flatten_cons, List.flatten_append]
      exact hperm.append hperm'

theorem parts_of_tour_of {bs : List Block} {g g' : Gen} {qs : List Question}
    (hblocks : ∀ b ∈ bs, ∀ {g g' : Gen} {qs : List Question}, b.tour g = .ok (qs, g') →
      ∃ parts, TakeParts [b] parts ∧ qs.Perm parts.flatten)
    (h : tour bs g = .ok (qs, g')) : ∃ parts, TakeParts bs parts ∧ qs.Perm parts.flatten := by
  obtain ⟨sorted, tours, hsorted, htours, rfl⟩ := tour_eq_ok h
  have hperm := inNaturalOrder_perm hsorted
  obtain ⟨parts, htake, hparts⟩ := parts_of_forall₂
    (fun b hb part ⟨_, _, hpart⟩ => hblocks b (hperm.mem_iff.mp hb) hpart) htours
  exact htake.perm hparts hperm

/-- A tour takes of each block what may be taken of it. -/
theorem Block.parts_of_tour (b : Block) {g g' : Gen} {qs : List Question}
    (h : b.tour g = .ok (qs, g')) : ∃ parts, TakeParts [b] parts ∧ qs.Perm parts.flatten := by
  obtain ⟨rest, hrest, rfl⟩ := tour_eq_ok.mp h
  obtain ⟨parts, htake, hperm⟩ :=
    parts_of_tour_of (fun c hc _ _ _ htour => parts_of_tour c htour) hrest
  refine ⟨(b.ownTour g).1 :: parts, ?_, ?_⟩
  · rw [TakeParts, preorders_cons, preorders, List.append_nil]
    exact .cons (b.mayTake_ownTour g) htake
  · rw [List.flatten_cons]
    exact hperm.append_left _
termination_by sizeOf b
decreasing_by exact Block.sizeOf_subBlock hc

/-- **A tour takes of each block, and of each under it, what may be taken of it.** -/
theorem parts_of_tour {bs : List Block} {g g' : Gen} {qs : List Question}
    (h : tour bs g = .ok (qs, g')) : ∃ parts, TakeParts bs parts ∧ qs.Perm parts.flatten :=
  parts_of_tour_of (fun b _ _ _ _ htour => b.parts_of_tour htour) h

theorem choiceCounts_eq_of_takeParts : ∀ {bs : List Block} {parts parts' : List (List Question)},
    (∀ b ∈ bs, b.paradigm = .all →
      ∀ q ∈ b.questions, ∀ r ∈ b.questions, q.choices.length = r.choices.length) →
    List.Forall₂ Block.MayTake bs parts → List.Forall₂ Block.MayTake bs parts' →
    choiceCounts parts.flatten = choiceCounts parts'.flatten
  | _, _, _, _, .nil, .nil => rfl
  | b :: bs, _, _, heven, .cons hpart hparts, .cons hpart' hparts' => by
    have hrest := choiceCounts_eq_of_takeParts (fun c hc => heven c (List.mem_cons_of_mem b hc))
      hparts hparts'
    rw [List.flatten_cons, List.flatten_cons, choiceCounts_append, choiceCounts_append, hrest,
      hpart.choiceCounts_eq (heven b List.mem_cons_self) hpart']

theorem exists_takeParts (bs : List Block) : ∃ parts, List.Forall₂ Block.MayTake bs parts := by
  induction bs with
  | nil => exact ⟨[], .nil⟩
  | cons b bs ih =>
    obtain ⟨part, hpart⟩ := b.exists_mayTake
    obtain ⟨parts, hparts⟩ := ih
    exact ⟨part :: parts, .cons hpart hparts⟩

/-- **All that may be drawn has the same numbers exactly if the blocks are evenly worded.** -/
theorem evenlyWorded_iff {bs : List Block} : EvenlyWorded bs ↔
    ∀ parts parts', TakeParts bs parts → TakeParts bs parts' →
      (choiceCounts parts.flatten).Perm (choiceCounts parts'.flatten) := by
  constructor
  · exact fun h parts parts' htake htake' => .of_eq (choiceCounts_eq_of_takeParts h htake htake')
  · intro h b hb hall q hq r hr
    have hmay : ∀ v ∈ b.questions, b.MayTake [v] := fun v hv => by
      rw [Block.MayTake, if_pos ⟨hall, List.ne_nil_of_mem hv⟩]
      exact ⟨v, hv, rfl⟩
    -- the two draws differ in the one variant alone
    obtain ⟨before, after, hsplit⟩ := List.append_of_mem hb
    obtain ⟨first, hfirst⟩ := exists_takeParts before
    obtain ⟨rest, hrest⟩ := exists_takeParts after
    have hdraw : ∀ v ∈ b.questions, TakeParts bs (first ++ [v] :: rest) := fun v hv => by
      rw [TakeParts, hsplit]
      exact List.rel_append hfirst (.cons (hmay v hv) hrest)
    have hperm := h _ _ (hdraw q hq) (hdraw r hr)
    simp only [List.flatten_append, List.flatten_cons, choiceCounts_append] at hperm
    have hone := (List.perm_append_right_iff _).mp ((List.perm_append_left_iff _).mp hperm)
    simpa [choiceCounts] using hone

/-! ### The bits of the path with the most -/

namespace Survey

variable {s : Survey} {paths : List Path}

/-- The bits of the path with the most, with a generator for each path. -/
def maxEntropyFrom (s : Survey) (draws : Path → Gen) : Except Fault Float := do
  let bits ← (← s.paths).mapM fun p => do return choiceBits (← tour p (draws p)).1
  return bits.foldl greater 0.0

theorem maxEntropyFrom_ofSeed (s : Survey) : s.maxEntropyFrom (fun _ => .ofSeed 0) = s.maxEntropy :=
  rfl

theorem maxEntropyFrom_eq (hpaths : s.paths = .ok paths) (heven : ∀ p ∈ paths, EvenlyWorded p)
    (draws : Path → Gen) : s.maxEntropyFrom draws = s.maxEntropy := by
  have hbits : ∀ (p : Path) (g : Gen), (do return choiceBits (← tour p g).1) =
      ((tour p g).map fun r => choiceCounts r.1).map countBits := fun p g => by
    cases tour p g with
    | error fault => rfl
    | ok r => exact congrArg Except.ok (choiceBits_eq r.1)
  have hsame : paths.mapM (fun p => do return choiceBits (← tour p (draws p)).1) =
      paths.mapM fun p => do return choiceBits (← tour p (.ofSeed 0)).1 :=
    mapM_congr fun p hp => by
      rw [hbits, hbits, DrawsAlike.of_evenlyWorded (heven p hp) (draws p) (.ofSeed 0)]
  rw [← maxEntropyFrom_ofSeed, maxEntropyFrom, maxEntropyFrom, hpaths]
  simp only [bind, Except.bind] at hsame ⊢
  rw [hsame]

end Survey

/-- **The numbers of choices along a path do not depend on the draws exactly if its blocks are evenly
worded.** A tour takes of the blocks of the path, and of those under them, what may be taken of them,
and any two ways to do so have the same numbers exactly if the blocks are evenly worded. Then two
generators have the same numbers in the same order, and in some order also for two arrangements of
the blocks. If all paths are evenly worded, the bits of the path with the most are those of the
survey, whatever is drawn. -/
theorem draws_alike_iff {s : Survey} {paths : List Path} (hpaths : s.paths = .ok paths) :
    (∀ p ∈ paths, (EvenlyWorded p ↔ ∀ parts parts', TakeParts p parts → TakeParts p parts' →
        (choiceCounts parts.flatten).Perm (choiceCounts parts'.flatten)) ∧
      ∀ bs : List Block, bs.Perm p →
        (∀ g qs g', tour bs g = .ok (qs, g') →
          ∃ parts, TakeParts p parts ∧ qs.Perm parts.flatten) ∧
        (EvenlyWorded p → DrawsAlike (tour bs) ∧ ∀ g h qs rs g' h', tour p g = .ok (qs, g') →
          tour bs h = .ok (rs, h') → (choiceCounts qs).Perm (choiceCounts rs))) ∧
    (∀ b : Block, b.questions.length ≤ 2 ^ 64 → ∀ part, b.MayTake part ↔
      ∃ g, (b.ownTour g).1 = part) ∧
    ((∀ p ∈ paths, EvenlyWorded p) → ∀ draws, s.maxEntropyFrom draws = s.maxEntropy) := by
  have htaken : ∀ {p bs : List Block}, bs.Perm p → ∀ {g qs g'}, tour bs g = .ok (qs, g') →
      ∃ parts, TakeParts p parts ∧ qs.Perm parts.flatten := by
    intro p bs hperm g qs g' htour
    obtain ⟨parts, htake, hparts⟩ := parts_of_tour htour
    exact htake.perm hparts hperm
  refine ⟨fun p _ => ⟨evenlyWorded_iff, fun bs hperm => ⟨fun g qs g' => htaken hperm, fun heven =>
    ⟨.of_evenlyWorded (heven.perm hperm), fun g h qs rs g' h' hqs hrs => ?_⟩⟩⟩,
    fun b hb part => Block.mayTake_iff hb, fun heven => Survey.maxEntropyFrom_eq hpaths heven⟩
  obtain ⟨parts, htake, hparts⟩ := htaken (.refl p) hqs
  obtain ⟨parts', htake', hparts'⟩ := htaken hperm hrs
  exact ((hparts.map _).trans (evenlyWorded_iff.mp heven parts parts' htake htake')).trans
    (hparts'.map _).symm

/-! ### Wordings with as many choices, and with fewer -/

namespace Draws

/-- Two wordings with two choices each. -/
theorem draws_alike_worded : (Measured.worded .all).paths = .ok [(Measured.worded .all).blocks] ∧
    EvenlyWorded (Measured.worded .all).blocks ∧ DrawsAlike (tour (Measured.worded .all).blocks) ∧
    ∀ draws, (Measured.worded .all).maxEntropyFrom draws = (Measured.worded .all).maxEntropy := by
  have hpaths : (Measured.worded .all).paths = .ok [(Measured.worded .all).blocks] := by cbv
  have heven : EvenlyWorded (Measured.worded .all).blocks := by
    unfold EvenlyWorded
    decide
  obtain ⟨hpath, -, hmax⟩ := draws_alike_iff hpaths
  obtain ⟨-, hperm⟩ := hpath _ (List.mem_singleton_self _)
  exact ⟨hpaths, heven, ((hperm _ (.refl _)).2 heven).1,
    hmax fun p hp => List.mem_singleton.mp hp ▸ heven⟩

/-- A document with a block of two wordings, of which the second one has a choice less. -/
def unevenDocument : Document := .record [
  ("name", .str "uneven"),
  ("blocks", .list [.record [("id", .str "1"), ("branch_paradigm", .str "all"),
    ("questions", .list [
      .record [("id", .str "q1"), ("options", .list [choiceEntry "a", choiceEntry "b"])],
      .record [("id", .str "q2"), ("options", .list [choiceEntry "c"])]])]])]

/-- The survey of the document. -/
def uneven : Survey where
  name := .str "uneven"
  blocks := [{
    key := ⟨0, 0⟩, id := .str "1", paradigm := .all
    questions := [
      { key := ⟨0, 0⟩, id := .str "q1", choices := [plainChoice "a", plainChoice "b"] },
      { key := ⟨0, 1⟩, id := .str "q2", choices := [plainChoice "c"] }] }]

/-- One generator draws the wording with one choice, and after it the other one, with two. -/
theorem uneven_draws_differ : Survey.ofDocument 0 unevenDocument = .ok uneven ∧ uneven.Valid ∧
    uneven.paths = .ok [uneven.blocks] ∧
    (tour uneven.blocks ⟨0⟩).map (fun r => choiceCounts r.1) = .ok [1] ∧
    (tour uneven.blocks (Gen.next ⟨0⟩)).map (fun r => choiceCounts r.1) = .ok [2] := by
  refine ⟨?_, by decide, by cbv, by cbv, by cbv⟩
  unfold Survey.ofDocument
  rw [@readBlocks_leaves 0 unevenDocument [_] (by cbv) (by cbv)]
  cbv

end Draws

end Questionnaire
