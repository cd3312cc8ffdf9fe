/-
# What the directory of a survey says

The stack goes through the tree depth first: when it is empty, the blocks on it
and all blocks under them have been entered in preorder. In a survey that was
read no two nodes share a key, so an entry is found under the key of each
question and of each block that is not at the top level, and there is no other.
The way up from a block follows the tree, which is why it ends, at the top level.

Key definitions: `Directory.held`, `Directory.links`, `Directory.Matches`.
Key theorems: `Directory.fill_eq`, `Survey.Coherent.parent?_eq`,
`Survey.Coherent.climb_eq`, `directory_matches`.
-/
import Questionnaire.Proofs.Path.Exits
import Questionnaire.Proofs.Survey.Validity
import Questionnaire.Survey.Directory

namespace Questionnaire

namespace Directory

/-- The questions that the block holds, by their keys. -/
def held (b : Block) : List (Key × Block) := b.questions.map fun q => (q.key, b)

/-- The blocks that are directly under the block, by their keys. -/
def links (b : Block) : List (Key × Block) := b.subBlocks.map fun c => (c.key, b)

/-- **The stack enters the blocks in preorder**, each with its questions and what is under it. -/
theorem fill_eq (stack : List Block) (dir : Directory) : fill stack dir = {
    blocks := dir.blocks ++ Block.preorders stack
    questions := dir.questions ++ questionsUnder stack
    holders := (Block.preorders stack).reverse.flatMap (fun b => (held b).reverse) ++ dir.holders
    parents := (Block.preorders stack).reverse.flatMap links ++ dir.parents } := by
  fun_induction fill stack dir with
  | case1 dir => simp [Block.preorders, questionsUnder]
  | case2 dir b stack ih =>
    rw [ih, turn_eq]
    simp [Block.preorders_cons, Block.preorders_append, questionsUnder, held, links]

end Directory

/-! ### Entries under keys -/

theorem lookup_eq_some_iff_mem {κ β : Type} [BEq κ] [LawfulBEq κ] {entries : List (κ × β)}
    (h : (entries.map (·.1)).Nodup) {k : κ} {x : β} :
    entries.lookup k = some x ↔ (k, x) ∈ entries := by
  rw [List.lookup_eq_some_iff]
  constructor
  · rintro ⟨before, later, rfl, -⟩
    exact List.mem_append_right before List.mem_cons_self
  · intro hmem
    obtain ⟨before, later, rfl⟩ := List.append_of_mem hmem
    refine ⟨before, later, rfl, fun entry hentry => ?_⟩
    rw [List.map_append, List.map_cons] at h
    have hapart := (List.nodup_append.mp h).2.2 entry.1 (List.mem_map_of_mem hentry) k
      List.mem_cons_self
    simpa using hapart.symm

namespace Survey

variable {s : Survey}

theorem directory_eq (s : Survey) : s.directory = {
    blocks := s.allBlocks
    questions := s.questions
    holders := s.allBlocks.reverse.flatMap fun b => (Directory.held b).reverse
    parents := s.allBlocks.reverse.flatMap Directory.links } := by
  rw [directory, Directory.fill_eq]
  simp [allBlocks, questions, questionsUnder]

theorem Coherent.nodup_holders (hs : s.Coherent) : (s.directory.holders.map (·.1)).Nodup := by
  have hkeys : s.directory.holders.map (·.1) = (s.questions.map (·.key)).reverse := by
    rw [questions_eq, questionsUnder, List.map_flatMap]
    simp [directory_eq, Directory.held, List.map_flatMap, List.flatMap_reverse, allBlocks,
      Function.comp_def]
  rw [hkeys, List.nodup_reverse]
  exact hs.questions

theorem Coherent.holder_eq_some_iff (hs : s.Coherent) {q : Question} {b : Block} :
    s.directory.holders.lookup q.key = some b ↔ b ∈ s.allBlocks ∧ b.holds q = true := by
  rw [lookup_eq_some_iff_mem hs.nodup_holders, directory_eq]
  simp only [List.mem_flatMap, List.mem_reverse, Directory.held, List.mem_map, Prod.mk.injEq,
    Block.holds, List.any_eq_true, beq_iff_eq]
  constructor
  · rintro ⟨c, hc, r, hr, hkey, rfl⟩
    exact ⟨hc, r, hr, hkey⟩
  · rintro ⟨hb, r, hr, hkey⟩
    exact ⟨b, hb, r, hr, hkey, rfl⟩

/-! ### The way up -/

/-- What comes after a block in preorder is what the stack has left after its turn. -/
theorem preorders_eq_stack (b : Block) (bs : List Block) :
    Block.preorders (b :: bs) = b :: Block.preorders (b.subBlocks ++ bs) := by
  rw [Block.preorders_cons, Block.preorders_append]

/-- A block is at the top level or directly under another one. -/
theorem perm_preorders (bs : List Block) :
    (Block.preorders bs).Perm (bs ++ (Block.preorders bs).flatMap (·.subBlocks)) := by
  cases bs with
  | nil => exact .nil
  | cons b bs =>
    have hleft := perm_preorders (b.subBlocks ++ bs)
    have hswap := List.perm_append_comm_assoc b.subBlocks bs
      ((Block.preorders (b.subBlocks ++ bs)).flatMap (·.subBlocks))
    rw [List.append_assoc] at hleft
    rw [preorders_eq_stack, List.flatMap_cons, List.cons_append]
    exact (hleft.trans hswap).cons b
termination_by (Block.preorders bs).length
decreasing_by
  rw [preorders_eq_stack]
  exact Nat.lt_succ_self _

theorem Coherent.nodup_keys (hs : s.Coherent) :
    (s.blocks.map (·.key) ++ s.directory.parents.map (·.1)).Nodup := by
  have hperm : (s.allBlocks.map (·.key)).Perm
      (s.blocks.map (·.key) ++ s.directory.parents.map (·.1)) := by
    refine ((perm_preorders s.blocks).map _).trans ?_
    rw [List.map_append]
    refine .append_left _ ?_
    simp only [directory_eq, List.map_flatMap, Directory.links, List.map_map, Function.comp_def]
    exact (List.reverse_perm s.allBlocks).symm.flatMap_right _
  exact hperm.nodup_iff.mp hs.blocks

theorem Coherent.parent?_eq (hs : s.Coherent) {b c : Block} (hb : b ∈ s.allBlocks)
    (hc : c ∈ b.subBlocks) : s.directory.parent? c = some b := by
  refine (lookup_eq_some_iff_mem (List.nodup_append.mp hs.nodup_keys).2.1).mpr ?_
  rw [directory_eq]
  exact List.mem_flatMap.mpr ⟨b, List.mem_reverse.mpr hb, List.mem_map_of_mem hc⟩

theorem Coherent.parent?_top (hs : s.Coherent) {b : Block} (hb : b ∈ s.blocks) :
    s.directory.parent? b = none := by
  refine List.lookup_eq_none_iff.mpr fun entry hentry => ?_
  have hapart := (List.nodup_append.mp hs.nodup_keys).2.2 b.key (List.mem_map_of_mem hb) entry.1
    (List.mem_map_of_mem hentry)
  simpa using hapart

theorem subBlock_mem {b c : Block} (hb : b ∈ s.allBlocks) (hc : c ∈ b.subBlocks) :
    c ∈ s.allBlocks := by
  obtain ⟨top, htop, hunder⟩ := Block.mem_preorders.mp hb
  have hsub := top.preorder_subset_of_mem_preorder hunder
  exact Block.mem_preorders.mpr ⟨top, htop,
    hsub (Block.preorder_subset_of_mem hc c.mem_preorder_self)⟩

theorem isInfix_preorders {bs : List Block} {b : Block} (h : b ∈ bs) :
    b.preorder <:+: Block.preorders bs := by
  rw [Block.preorders_eq_flatMap]
  exact List.infix_flatMap_of_mem h _

/-- The blocks in and under a block stand together. -/
theorem isInfix_preorder (top : Block) {b : Block} (h : b ∈ top.preorder) :
    b.preorder <:+: top.preorder := by
  rw [Block.preorder_eq, List.mem_cons, Block.mem_preorders] at h
  rcases h with rfl | ⟨c, hc, hb⟩
  · exact List.infix_rfl
  · refine ((isInfix_preorder c hb).trans (isInfix_preorders hc)).trans ?_
    rw [Block.preorder_eq top]
    exact (List.suffix_cons _ _).isInfix
termination_by sizeOf top
decreasing_by exact Block.sizeOf_subBlock hc

/-- One climbs from a block to each that it is in or under. -/
theorem Coherent.climb_above (hs : s.Coherent) (top : Block) (htop : top ∈ s.allBlocks) {b : Block}
    (hb : b ∈ top.preorder) : ∃ k < top.preorder.length,
      ∀ n, s.directory.climb (k + n) b = s.directory.climb n top := by
  rw [Block.preorder_eq, List.mem_cons, Block.mem_preorders] at hb
  rcases hb with rfl | ⟨c, hc, hb⟩
  · exact ⟨0, by simp [Block.preorder_eq], fun n => by rw [Nat.zero_add]⟩
  · have hsize : c.preorder.length < top.preorder.length := by
      rw [Block.preorder_eq top, List.length_cons]
      exact Nat.lt_succ_of_le (isInfix_preorders hc).length_le
    obtain ⟨k, hk, hclimb⟩ := hs.climb_above c (subBlock_mem htop hc) hb
    refine ⟨k + 1, by omega, fun n => ?_⟩
    rw [Nat.add_assoc, hclimb, Nat.add_comm 1, Directory.climb, hs.parent?_eq htop hc]
termination_by sizeOf top
decreasing_by exact Block.sizeOf_subBlock hc

theorem Coherent.climb_top (hs : s.Coherent) {top : Block} (htop : top ∈ s.blocks) (n : Nat) :
    s.directory.climb n top = top := by
  cases n with
  | zero => rfl
  | succ n => rw [Directory.climb, hs.parent?_top htop]

/-- The way up from a block ends at the block at the top level that it is in or under. -/
theorem Coherent.climb_eq (hs : s.Coherent) {top b : Block} (htop : top ∈ s.blocks)
    (hb : b ∈ top.preorder) : s.directory.climb s.directory.blocks.length b = top := by
  obtain ⟨k, hk, hclimb⟩ := hs.climb_above top (Block.mem_preorders_of_mem htop) hb
  have hlength : top.preorder.length ≤ s.directory.blocks.length := by
    rw [directory_eq]
    exact (isInfix_preorders htop).length_le
  obtain ⟨n, hn⟩ := Nat.exists_eq_add_of_le (Nat.le_trans hk.le hlength)
  rw [hn, hclimb, hs.climb_top htop]

/-! ### Looking up -/

theorem find?_eq_some_of_unique {α : Type} {p : α → Bool} {xs : List α} {x : α} (hx : x ∈ xs)
    (hp : p x = true) (honly : ∀ y ∈ xs, p y = true → y = x) : xs.find? p = some x := by
  cases h : xs.find? p with
  | none => exact absurd hp (List.find?_eq_none.mp h x hx)
  | some y => rw [honly y (List.mem_of_find?_eq_some h) (List.find?_some h)]

theorem Coherent.holder_unique (hs : s.Coherent) {b c : Block} {q : Question}
    (hb : b ∈ s.allBlocks) (hc : c ∈ s.allBlocks) (hbq : b.holds q = true)
    (hcq : c.holds q = true) : b = c := by
  have hfound := hs.holder_eq_some_iff.mpr ⟨hb, hbq⟩
  rw [hs.holder_eq_some_iff.mpr ⟨hc, hcq⟩] at hfound
  exact (Option.some.inj hfound).symm

theorem Coherent.find?_holds (hs : s.Coherent) (q : Question) :
    s.allBlocks.find? (·.holds q) = s.directory.holders.lookup q.key := by
  refine Option.ext fun b => ?_
  rw [hs.holder_eq_some_iff]
  constructor
  · exact fun h => ⟨List.mem_of_find?_eq_some h, by simpa using List.find?_some h⟩
  · rintro ⟨hb, hholds⟩
    exact find?_eq_some_of_unique hb hholds fun c hc hcq => hs.holder_unique hc hb hcq hholds

/-- The block at the top level that holds a question somewhere is where the way up ends. -/
theorem Coherent.find?_under (hs : s.Coherent) (q : Question) :
    s.blocks.find? (fun b => b.preorder.any (·.holds q)) =
      (s.directory.holders.lookup q.key).map (s.directory.climb s.directory.blocks.length) := by
  cases hholder : s.directory.holders.lookup q.key with
  | none =>
    have hnone := hs.find?_holds q
    rw [hholder, List.find?_eq_none] at hnone
    refine List.find?_eq_none.mpr fun top htop => ?_
    simpa using fun b hb => hnone b (Block.mem_preorders.mpr ⟨top, htop, hb⟩)
  | some b =>
    obtain ⟨hb, hholds⟩ := hs.holder_eq_some_iff.mp hholder
    obtain ⟨top, htop, hunder⟩ := Block.mem_preorders.mp hb
    rw [Option.map_some, hs.climb_eq htop hunder]
    refine find?_eq_some_of_unique htop (List.any_eq_true.mpr ⟨b, hunder, hholds⟩) ?_
    intro other hother hany
    obtain ⟨c, hc, hcq⟩ := List.any_eq_true.mp hany
    have hmem : c ∈ s.allBlocks := Block.mem_preorders.mpr ⟨other, hother, hc⟩
    obtain rfl := hs.holder_unique hmem hb hcq hholds
    rw [← hs.climb_eq htop hunder, hs.climb_eq hother hc]

theorem Coherent.containing_eq (hs : s.Coherent) (q : Question) :
    s.containing q = s.directory.containing s.name q := by
  have hfound := hs.find?_holds q
  unfold containing Directory.containing
  cases hholder : s.directory.holders.lookup q.key <;> simp only [hfound, hholder]

theorem Coherent.farthest_eq_climb (hs : s.Coherent) (q : Question) :
    s.farthest q = s.directory.farthest s.name q := by
  unfold farthest Directory.farthest Directory.containing
  rw [hs.find?_under q]
  cases s.directory.holders.lookup q.key <;> rfl

/-! ### What the look-ups give -/

theorem Coherent.containing_eq_ok_iff (hs : s.Coherent) {q : Question} {b : Block} :
    s.containing q = .ok b ↔ b ∈ s.allBlocks ∧ b.holds q = true := by
  rw [← hs.holder_eq_some_iff, hs.containing_eq, Directory.containing]
  cases s.directory.holders.lookup q.key <;> simp

theorem Coherent.farthest_eq_ok_iff (hs : s.Coherent) {q : Question} {top : Block} :
    s.farthest q = .ok top ↔ top ∈ s.blocks ∧ ∃ b ∈ top.preorder, b.holds q = true := by
  rw [hs.farthest_eq_climb, Directory.farthest, ← hs.containing_eq]
  constructor
  · intro h
    cases hfound : s.containing q with
    | error fault => simp [hfound, Except.map] at h
    | ok b =>
      obtain ⟨hb, hholds⟩ := hs.containing_eq_ok_iff.mp hfound
      obtain ⟨above, habove, hunder⟩ := Block.mem_preorders.mp hb
      rw [hfound, Except.map, hs.climb_eq habove hunder] at h
      cases h
      exact ⟨habove, b, hunder, hholds⟩
  · rintro ⟨htop, b, hunder, hholds⟩
    have hb : b ∈ s.allBlocks := Block.mem_preorders.mpr ⟨top, htop, hunder⟩
    rw [hs.containing_eq_ok_iff.mpr ⟨hb, hholds⟩, Except.map, hs.climb_eq htop hunder]

/-- The one fault that looking up a question ends in. -/
theorem containing_eq_error_iff {q : Question} {fault : Fault} :
    s.containing q = .error fault ↔ fault = q.strangerTo s.name ∧
      ∀ b ∈ s.allBlocks, b.holds q = false := by
  unfold containing
  cases h : s.allBlocks.find? (·.holds q) with
  | none =>
    have hnone : ∀ b ∈ s.allBlocks, b.holds q = false := by simpa using h
    simp only [Except.error.injEq, eq_comm (b := fault), and_iff_left hnone]
  | some b =>
    have hholds : b.holds q = true := by simpa using List.find?_some h
    have hb := List.mem_of_find?_eq_some h
    simp only [reduceCtorEq, false_iff, not_and]
    exact fun _ hnone => Bool.false_ne_true ((hnone b hb).symm.trans hholds)

theorem Coherent.farthest_eq_error_iff (hs : s.Coherent) {q : Question} {fault : Fault} :
    s.farthest q = .error fault ↔ s.containing q = .error fault := by
  rw [hs.farthest_eq_climb, Directory.farthest, ← hs.containing_eq]
  cases s.containing q <;> simp [Except.map]

/-- The questions in and under a block stand together, its own first. -/
theorem isInfix_questions {b : Block} (h : b ∈ s.allBlocks) :
    b.questions ++ questionsUnder b.subBlocks <:+: s.questions := by
  obtain ⟨top, htop, hunder⟩ := Block.mem_preorders.mp h
  have hstands := (isInfix_preorder top hunder).trans (isInfix_preorders htop)
  rw [← Block.allQuestions_eq]
  exact hstands.flatMap _

end Survey

/-- What the directory of a survey says, told by the tree. That a question has one holder at most,
and is in or under one block at the top level at most, is part of the look-ups. -/
structure Directory.Matches (dir : Directory) (s : Survey) : Prop where
  /-- The blocks are entered depth first, each before those under it. -/
  blocks : dir.blocks = s.blocks.flatMap Block.preorder
  questions : dir.questions = dir.blocks.flatMap (·.questions)
  /-- No question is entered twice. -/
  once : (dir.questions.map (·.key)).Nodup
  /-- The questions in and under a block stand together, its own first. -/
  own_first : ∀ b ∈ dir.blocks, b.questions ++ questionsUnder b.subBlocks <:+: dir.questions
  /-- The way up ends. -/
  ends : ∀ b ∈ dir.blocks, dir.parent? (dir.climb dir.blocks.length b) = none
  containing : ∀ q b, dir.containing s.name q = .ok b ↔ b ∈ dir.blocks ∧ b.holds q = true
  farthest : ∀ q top, dir.farthest s.name q = .ok top ↔
    top ∈ s.blocks ∧ ∃ b ∈ top.preorder, b.holds q = true
  /-- Nothing goes wrong but that no block of the tree holds the question. -/
  stranger : ∀ q fault, dir.containing s.name q = .error fault ↔
    fault = .about [q.id, s.name] (.strangerQuestion q.id.display s.name.display) ∧
      ∀ b ∈ dir.blocks, b.holds q = false
  stranger_farthest : ∀ q fault, dir.farthest s.name q = .error fault ↔
    dir.containing s.name q = .error fault

/-- **The directory is that of the tree**, and it is what the blocks and the questions of a survey
and the look-ups of a question are read from. A question that no block holds is a fault of the
survey. -/
theorem directory_matches {origin : Nat} {d : Document} {s : Survey}
    (hread : Survey.ofDocument origin d = .ok s) :
    s.directory.Matches s ∧ s.allBlocks = s.directory.blocks ∧
      s.questions = s.directory.questions ∧
      (∀ q, s.containing q = s.directory.containing s.name q ∧
        s.farthest q = s.directory.farthest s.name q) ∧
      ∀ question survey, (Fault.strangerQuestion question survey).kind = .malformedSurvey := by
  have hs := Survey.coherent_of_ofDocument hread
  have hblocks : s.directory.blocks = s.allBlocks := by rw [s.directory_eq]
  have hquestions : s.directory.questions = s.questions := by rw [s.directory_eq]
  refine ⟨{
    blocks := by rw [hblocks, Survey.allBlocks, Block.preorders_eq_flatMap]
    questions := by rw [hquestions, hblocks, Survey.questions]
    once := by rw [hquestions]; exact hs.questions
    own_first := fun b hb => ?_
    ends := fun b hb => ?_
    containing := fun q b => by rw [hblocks, ← hs.containing_eq, hs.containing_eq_ok_iff]
    farthest := fun q top => by rw [← hs.farthest_eq_climb, hs.farthest_eq_ok_iff]
    stranger := fun q fault => by
      rw [hblocks, ← hs.containing_eq, Survey.containing_eq_error_iff, Question.strangerTo]
    stranger_farthest := fun q fault => by
      rw [← hs.containing_eq, ← hs.farthest_eq_climb, hs.farthest_eq_error_iff] },
    hblocks.symm, hquestions.symm, fun q => ⟨hs.containing_eq q, hs.farthest_eq_climb q⟩,
    fun question survey => rfl⟩
  · rw [hblocks] at hb
    rw [hquestions]
    exact Survey.isInfix_questions hb
  · rw [hblocks] at hb
    obtain ⟨top, htop, hunder⟩ := Block.mem_preorders.mp hb
    rw [hs.climb_eq htop hunder, hs.parent?_top htop]

/-- A variant in a block under the first one, and the same question in another survey. -/
theorem directory_detour :
    Survey.ofDocument 0 Traversal.detourDocument = .ok Traversal.detour ∧
      Traversal.detour.directory.Matches Traversal.detour ∧
      Traversal.detour.farthest Traversal.plainVariant = .ok Traversal.aroundBlock ∧
      Traversal.detour.containing { Traversal.plainVariant with key := ⟨1, 1⟩ } =
        .error (.strangerQuestion "qb" "detour") := by
  obtain ⟨hmatches, hblocks, -, hlookups, -⟩ := directory_matches Traversal.ofDocument_detour
  refine ⟨Traversal.ofDocument_detour, hmatches, ?_, ?_⟩
  · rw [(hlookups _).2, hmatches.farthest]
    exact ⟨List.mem_cons_self, _, List.mem_cons_of_mem _ List.mem_cons_self, by decide⟩
  · rw [(hlookups _).1, hmatches.stranger, ← hblocks]
    exact ⟨by cbv, by decide⟩

end Questionnaire
