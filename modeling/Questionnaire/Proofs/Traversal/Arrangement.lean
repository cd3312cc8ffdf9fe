/-
# An arrangement moves only what may move

The places of an arrangement are all taken: as many of them are left empty as
there are blocks that keep their order. So an arrangement has the questions and
blocks it was made of, each once, and the blocks that may not move are in their
order.

Key definitions: `gaps`, `slots`.
Key theorems: `fillGaps_perm`, `fillGaps_filter`, `gaps_slots`, `arrange_perm`,
`arrange_keeps_order`, `Survey.arrangeBlocks_eq_ok`, `arranged_in_places`.
-/
import Mathlib.Data.List.Perm.Basic
import Mathlib.Data.List.ReduceOption
import Questionnaire.Proofs.Success
import Questionnaire.Proofs.Survey.NaturalOrder
import Questionnaire.Traversal.Expansion

namespace Questionnaire

/-! ### Filling the gaps -/

section Gaps

variable {γ : Type}

/-- The number of empty places. -/
def gaps (ps : List (Option γ)) : ℕ := (ps.filter Option.isNone).length

@[simp] theorem gaps_nil : gaps ([] : List (Option γ)) = 0 := rfl

@[simp] theorem gaps_some (x : γ) (ps : List (Option γ)) : gaps (some x :: ps) = gaps ps := by
  simp [gaps]

@[simp] theorem gaps_none (ps : List (Option γ)) : gaps (none :: ps) = gaps ps + 1 := by
  simp [gaps]

/-- Filling loses nothing if there are as many gaps as there are things to fill them. -/
theorem fillGaps_perm : ∀ (ps : List (Option γ)) (fill : List γ), gaps ps = fill.length →
    (fillGaps ps fill).Perm (ps.reduceOption ++ fill)
  | [], fill, h => by
    rw [List.eq_nil_of_length_eq_zero h.symm]
    exact .refl _
  | some x :: ps, fill, h => (fillGaps_perm ps fill (by simpa using h)).cons x
  | none :: ps, [], h => by simp at h
  | none :: ps, x :: fill, h =>
    ((fillGaps_perm ps fill (by simpa using h)).cons x).trans List.perm_middle.symm

/-- What fills the gaps keeps its order. -/
theorem fillGaps_filter {q : γ → Bool} : ∀ (ps : List (Option γ)) (fill : List γ),
    gaps ps = fill.length → (∀ x, some x ∈ ps → q x = false) → (∀ x ∈ fill, q x = true) →
    (fillGaps ps fill).filter q = fill
  | [], fill, h, _, _ => by
    rw [List.eq_nil_of_length_eq_zero h.symm]
    rfl
  | some x :: ps, fill, h, hps, hfill => by
    rw [fillGaps, List.filter_cons_of_neg (by simp [hps x List.mem_cons_self])]
    exact fillGaps_filter ps fill (by simpa using h)
      (fun y hy => hps y (List.mem_cons_of_mem _ hy)) hfill
  | none :: ps, [], h, _, _ => by simp at h
  | none :: ps, x :: fill, h, hps, hfill => by
    rw [fillGaps, List.filter_cons_of_pos (hfill x List.mem_cons_self),
      fillGaps_filter ps fill (by simpa using h) (fun y hy => hps y (List.mem_cons_of_mem _ hy))
        fun y hy => hfill y (List.mem_cons_of_mem x hy)]

/-- Looking the places up one after another gives back what was put there. -/
theorem filterMap_lookup_zip : ∀ (order : List ℕ) (placed : List γ), order.Nodup →
    placed.length ≤ order.length →
    (order.filterMap fun i => (order.zip placed).lookup i) = placed
  | [], placed, _, h => by
    rw [List.eq_nil_of_length_eq_zero (Nat.le_zero.mp h)]
    rfl
  | i :: order, [], _, _ => by simp
  | i :: order, x :: placed, hnodup, h => by
    obtain ⟨hi, hnodup⟩ := List.nodup_cons.mp hnodup
    have hlater : ∀ j ∈ order, ((i, x) :: order.zip placed).lookup j = (order.zip placed).lookup j := by
      intro j hj
      have hne : (j == i) = false := by simpa using fun heq : j = i => hi (heq ▸ hj)
      rw [List.lookup_cons, hne]
    have ih := filterMap_lookup_zip order placed hnodup (by simpa using h)
    rw [List.zip_cons_cons, List.filterMap_cons, List.lookup_cons_self,
      List.filterMap_congr hlater, ih]

/-- Things put into places of a permutation are found there. -/
theorem reduceOption_places {n : ℕ} {order : List ℕ} (hperm : order.Perm (List.range n))
    (placed : List γ) (h : placed.length ≤ n) :
    (places n (order.zip placed)).reduceOption.Perm placed := by
  have hnodup : order.Nodup := hperm.nodup_iff.mpr List.nodup_range
  have hlength : placed.length ≤ order.length := by rw [hperm.length_eq, List.length_range]; exact h
  unfold places List.reduceOption
  rw [List.filterMap_map, Function.id_comp]
  exact (hperm.symm.filterMap _).trans (.of_eq (filterMap_lookup_zip order placed hnodup hlength))

theorem gaps_places {n : ℕ} {order : List ℕ} (hperm : order.Perm (List.range n))
    (placed : List γ) (h : placed.length ≤ n) :
    gaps (places n (order.zip placed)) + placed.length = n := by
  have hcount := List.length_eq_reduceOption_length_add_filter_none (l := places n (order.zip placed))
  have hlength : (places n (order.zip placed)).length = n := by simp [places]
  rw [(reduceOption_places hperm placed h).length_eq, hlength] at hcount
  unfold gaps
  omega

end Gaps

/-! ### Arranging questions and blocks -/

section Arranging

variable {α β : Type} {mayMove : β → Bool}

/-- Whether something arranged is a block that keeps its order. -/
def keepsOrder (mayMove : β → Bool) : α ⊕ β → Bool
  | .inl _ => false
  | .inr b => !mayMove b

/-- The places of an order after the questions and the blocks that may move were put there. -/
def slots (order : List ℕ) (questions : List α) (blocks : List β) (mayMove : β → Bool) :
    List (Option (α ⊕ β)) :=
  places order.length (order.zip (questions.map .inl ++ (blocks.filter mayMove).map .inr))

theorem arrangeBy_eq_fillGaps (order : List ℕ) (questions : List α) (blocks : List β) :
    arrangeBy order questions blocks mayMove = fillGaps (slots order questions blocks mayMove)
      ((blocks.filter fun b => !mayMove b).map .inr) := rfl

section Slots

variable {questions : List α} {blocks : List β} {order : List ℕ}

variable (questions blocks mayMove) in
/-- There are places enough for all that is put there. -/
theorem length_moving_le : (questions.map Sum.inl ++ (blocks.filter mayMove).map Sum.inr).length ≤
    questions.length + blocks.length := by
  have := List.length_filter_le mayMove blocks
  simp only [List.length_append, List.length_map]
  omega

/-- **As many places are left as there are blocks that may not move.** -/
theorem gaps_slots (hperm : order.Perm (List.range (questions.length + blocks.length))) :
    gaps (slots order questions blocks mayMove) = (blocks.filter fun b => !mayMove b).length := by
  have hsplit := (List.filter_append_perm mayMove blocks).length_eq
  have hgaps := gaps_places hperm _ (length_moving_le mayMove questions blocks)
  rw [slots, hperm.length_eq, List.length_range]
  simp only [List.length_append, List.length_map] at hsplit hgaps
  omega

end Slots

variable (mayMove) in
theorem arrangeBy_spec {questions : List α} {blocks : List β} {order : List ℕ}
    (hperm : order.Perm (List.range (questions.length + blocks.length))) :
    (arrangeBy order questions blocks mayMove).Perm (questions.map .inl ++ blocks.map .inr) ∧
      (arrangeBy order questions blocks mayMove).filter (keepsOrder mayMove) =
        (blocks.filter fun b => !mayMove b).map .inr := by
  rw [arrangeBy_eq_fillGaps]
  set fixed : List (α ⊕ β) := (blocks.filter fun b => !mayMove b).map .inr with hfixed
  have hgaps : gaps (slots order questions blocks mayMove) = fixed.length := by
    rw [gaps_slots hperm, hfixed, List.length_map]
  have hplaced := reduceOption_places hperm _ (length_moving_le mayMove questions blocks)
  rw [← List.length_range (n := questions.length + blocks.length), ← hperm.length_eq, ← slots]
    at hplaced
  refine ⟨?_, ?_⟩
  · refine (fillGaps_perm _ _ hgaps).trans ((hplaced.append_right fixed).trans ?_)
    rw [hfixed, List.append_assoc, ← List.map_append]
    exact ((List.filter_append_perm mayMove blocks).map _).append_left _
  · refine fillGaps_filter _ _ hgaps (fun x hx => ?_) (fun x hx => ?_)
    · have hx' := hplaced.mem_iff.mp (List.reduceOption_mem_iff.mpr hx)
      rcases List.mem_append.mp hx' with hq | hb
      · obtain ⟨q, -, rfl⟩ := List.mem_map.mp hq
        rfl
      · obtain ⟨b, hmoves, rfl⟩ := List.mem_map.mp hb
        simp [keepsOrder, (List.mem_filter.mp hmoves).2]
    · obtain ⟨b, hb, rfl⟩ := List.mem_map.mp hx
      simpa [keepsOrder] using (List.mem_filter.mp hb).2

variable {questions : List α} {blocks : List β} {nodes : List (α ⊕ β)} {g g' : Gen}

variable (mayMove) in
/-- What is drawn is an order of all places. -/
theorem arrange_eq (h : questions.length + blocks.length ≠ 0) (g : Gen) :
    arrange questions blocks mayMove g =
      .ok (arrangeBy (Gen.permutation (questions.length + blocks.length) g).1 questions blocks mayMove,
        (Gen.permutation (questions.length + blocks.length) g).2) := by
  unfold arrange
  rw [if_neg h]

variable (mayMove) in
theorem arrange_succeeds (h : questions.length + blocks.length ≠ 0) (g : Gen) :
    ∃ result, arrange questions blocks mayMove g = .ok result :=
  ⟨_, arrange_eq mayMove h g⟩

theorem arrange_eq_arrangeBy (h : arrange questions blocks mayMove g = .ok (nodes, g')) :
    ∃ order, order.Perm (List.range (questions.length + blocks.length)) ∧
      nodes = arrangeBy order questions blocks mayMove := by
  by_cases h0 : questions.length + blocks.length = 0
  · rw [arrange, if_pos h0] at h
    cases h
  · rw [arrange_eq mayMove h0 g] at h
    cases h
    exact ⟨_, Gen.permutation_perm _ g, rfl⟩

/-- **Arranging loses nothing and adds nothing.** -/
theorem arrange_perm (h : arrange questions blocks mayMove g = .ok (nodes, g')) :
    nodes.Perm (questions.map .inl ++ blocks.map .inr) := by
  obtain ⟨order, hperm, rfl⟩ := arrange_eq_arrangeBy h
  exact (arrangeBy_spec mayMove hperm).1

/-- **Blocks that may not move keep their order.** -/
theorem arrange_keeps_order (h : arrange questions blocks mayMove g = .ok (nodes, g')) :
    (nodes.filterMap (·.getRight?)).filter (fun b => !mayMove b) =
      blocks.filter fun b => !mayMove b := by
  obtain ⟨order, hperm, rfl⟩ := arrange_eq_arrangeBy h
  have hkept := congrArg (List.filterMap (·.getRight?)) (arrangeBy_spec mayMove hperm).2
  rw [List.filterMap_map] at hkept
  simp only [Function.comp_def, Sum.getRight?_inr, List.filterMap_some] at hkept
  rw [← hkept]
  generalize arrangeBy order questions blocks mayMove = nodes
  induction nodes with
  | nil => rfl
  | cons node nodes ih =>
    cases node with
    | inl q => exact ih
    | inr b => cases hb : mayMove b <;> simp [keepsOrder, hb, ih]

end Arranging

/-! ### The blocks at the top level -/

/-- The blocks at the top level are arranged from their natural order: all of them are there, and
those that may not move are in that order. -/
theorem Survey.arrangeBlocks_eq_ok {s : Survey} {g g' : Gen} {blocks : List Block}
    (h : s.arrangeBlocks g = .ok (blocks, g')) :
    ∃ sorted, sortBlocks s.blocks = .ok sorted ∧ blocks.Perm sorted ∧
      blocks.filter (!·.isRandomizable) = sorted.filter (!·.isRandomizable) := by
  unfold arrangeBlocks at h
  split at h
  · cases h
  · obtain ⟨sorted, hsorted, h₁⟩ := bind_eq_ok.mp h
    obtain ⟨⟨nodes, g₁⟩, hnodes, h₂⟩ := bind_eq_ok.mp h₁
    cases h₂
    refine ⟨sorted, hsorted, ?_, arrange_keeps_order hnodes⟩
    have hperm := (arrange_perm hnodes).filterMap (·.getRight?)
    simpa [List.filterMap_map, Function.comp_def] using hperm

theorem Survey.arrangeBlocks_succeeds {s : Survey} {sorted : List Block} (hne : s.blocks ≠ [])
    (h : sortBlocks s.blocks = .ok sorted) (g : Gen) : ∃ result, s.arrangeBlocks g = .ok result := by
  have hlength : ([] : List Empty).length + sorted.length ≠ 0 := by
    rw [(inNaturalOrder_perm h).length_eq]
    simpa using hne
  obtain ⟨result, hresult⟩ := arrange_succeeds Block.isRandomizable hlength g
  unfold arrangeBlocks
  rw [if_neg (by simpa using hne), h]
  simp only [bind, Except.bind, hresult]
  exact ⟨_, rfl⟩

theorem Survey.arrangeBlocks_succeeds_iff {s : Survey} {g : Gen} :
    (∃ result, s.arrangeBlocks g = .ok result) ↔
      s.blocks ≠ [] ∧ ∀ b ∈ s.blocks, ∃ key, b.sortKey = .ok key := by
  constructor
  · rintro ⟨⟨blocks, g'⟩, h⟩
    obtain ⟨sorted, hsorted, -⟩ := arrangeBlocks_eq_ok h
    refine ⟨fun hnil => ?_, inNaturalOrder_succeeds_iff.mp ⟨sorted, hsorted⟩⟩
    rw [arrangeBlocks, if_pos (by simpa using hnil)] at h
    cases h
  · rintro ⟨hne, hkeys⟩
    obtain ⟨sorted, hsorted⟩ := inNaturalOrder_succeeds_iff.mpr hkeys
    exact arrangeBlocks_succeeds hne hsorted g

/-- **Whatever order of the places is drawn, an arrangement fills them all.** Each place comes once
in the order; as many are left for the blocks that may not move as there are of these, so none is
missing and no place stays empty. The arrangement has the questions and the blocks, each once, and
those that may not move in their order. So the blocks at the top level, if there are any and all of
them have sort keys, are arranged with each of them once and the fixed ones in natural order. -/
theorem arranged_in_places :
    (∀ {α β : Type} (questions : List α) (blocks : List β) (mayMove : β → Bool) (g : Gen),
      questions.length + blocks.length ≠ 0 → ∃ order nodes,
        order = (Gen.permutation (questions.length + blocks.length) g).1 ∧
        order.Perm (List.range (questions.length + blocks.length)) ∧
        arrange questions blocks mayMove g =
          .ok (nodes, (Gen.permutation (questions.length + blocks.length) g).2) ∧
        nodes = fillGaps (slots order questions blocks mayMove)
          ((blocks.filter fun b => !mayMove b).map .inr) ∧
        gaps (slots order questions blocks mayMove) = (blocks.filter fun b => !mayMove b).length ∧
        nodes.length = questions.length + blocks.length ∧
        nodes.Perm (questions.map .inl ++ blocks.map .inr) ∧
        (nodes.filterMap (·.getRight?)).filter (fun b => !mayMove b) =
          blocks.filter fun b => !mayMove b) ∧
    ∀ (s : Survey) (g : Gen),
      ((∃ result, s.arrangeBlocks g = .ok result) ↔
        s.blocks ≠ [] ∧ ∀ b ∈ s.blocks, ∃ key, b.sortKey = .ok key) ∧
      ∀ blocks g', s.arrangeBlocks g = .ok (blocks, g') → blocks.Perm s.blocks ∧
        sortBlocks s.fixedBlocks = .ok (blocks.filter (!·.isRandomizable)) := by
  refine ⟨fun questions blocks mayMove g hsize => ?_, fun s g => ⟨?_, fun blocks g' h => ?_⟩⟩
  · have harrange := arrange_eq mayMove hsize g
    have horder := Gen.permutation_perm (questions.length + blocks.length) g
    have hperm := arrange_perm harrange
    refine ⟨_, _, rfl, horder, harrange, rfl, gaps_slots horder, ?_, hperm,
      arrange_keeps_order harrange⟩
    rw [hperm.length_eq, List.length_append, List.length_map, List.length_map]
  · exact s.arrangeBlocks_succeeds_iff
  · obtain ⟨sorted, hsorted, hperm, hfixed⟩ := Survey.arrangeBlocks_eq_ok h
    refine ⟨hperm.trans (inNaturalOrder_perm hsorted), ?_⟩
    rw [hfixed]
    exact inNaturalOrder_filter _ hsorted

/-- A survey of blocks with the ids, none of which may move. -/
def Survey.ofIds (ids : List Document) : Survey where
  name := .str "ids"
  blocks := ids.zipIdx.map fun (id, i) => { key := ⟨0, i⟩, id := id }

theorem arranged_in_places_ids : ["a"].length + [true, false].length ≠ 0 ∧
    (∃ nodes g', arrange ["a"] [true, false] id ⟨0⟩ = .ok (nodes, g') ∧ nodes.length = 3) ∧
    ∃ blocks g', (Survey.ofIds [.str "10", .str "2"]).arrangeBlocks ⟨0⟩ = .ok (blocks, g') ∧
      blocks.Perm (Survey.ofIds [.str "10", .str "2"]).blocks ∧
      sortBlocks (Survey.ofIds [.str "10", .str "2"]).fixedBlocks =
        .ok (blocks.filter (!·.isRandomizable)) := by
  obtain ⟨harrange, hblocks⟩ := arranged_in_places
  obtain ⟨-, nodes, -, -, hnodes, -, -, hlength, -⟩ := harrange ["a"] [true, false] id ⟨0⟩ (by decide)
  obtain ⟨hsucceeds, hresult⟩ := hblocks (Survey.ofIds [.str "10", .str "2"]) ⟨0⟩
  have hkeys : (Survey.ofIds [.str "10", .str "2"]).blocks.mapM (·.sortKey) =
      .ok [.numbered [10], .numbered [2]] := by cbv
  obtain ⟨⟨blocks, g'⟩, h⟩ :=
    hsucceeds.mpr ⟨List.cons_ne_nil _ _, fun b hb => exists_of_mapM hkeys hb⟩
  obtain ⟨hperm, hsorted⟩ := hresult blocks g' h
  exact ⟨by decide, ⟨nodes, _, hnodes, hlength⟩, blocks, g', h, hperm, hsorted⟩

/-- A block whose id has no sort key is not arranged. -/
theorem long_not_arranged : (Survey.ofIds [SortKey.longId]).blocks ≠ [] ∧
    ∀ g result, (Survey.ofIds [SortKey.longId]).arrangeBlocks g ≠ .ok result := by
  refine ⟨List.cons_ne_nil _ _, fun g result h => ?_⟩
  obtain ⟨-, hkeys⟩ := Survey.arrangeBlocks_succeeds_iff.mp ⟨result, h⟩
  obtain ⟨key, hkey⟩ := hkeys _ List.mem_cons_self
  cases SortKey.ofId_longId.symm.trans hkey

end Questionnaire
