/-
# Copies of a survey

A copy has the nodes of the survey at the same places, but of its own: they have
another origin. As documents name nodes by their ids, a survey and its copies
are written alike.

Key definitions: `Block.renewed`, `Survey.copied`.
Key theorem: `Survey.toDocument_copied`.
-/
import Questionnaire.Proofs.Survey.References
import Questionnaire.Survey.Writing

namespace Questionnaire

/-- The key of the node at the same place in a survey of another origin. -/
def Key.movedTo (origin : Nat) (k : Key) : Key := ⟨origin, k.index⟩

/-- Keys of one origin are told apart by their places. -/
theorem Key.eq_of_movedTo {origin : Nat} {k l : Key} (horigin : k.origin = l.origin)
    (h : k.movedTo origin = l.movedTo origin) : k = l := by
  have hplace : k.index = l.index := (Key.mk.inj h).2
  calc k = ⟨k.origin, k.index⟩ := rfl
    _ = l := by rw [horigin, hplace]

section Renewed

variable (key : Key → Key) (branches : Question → List (Choice × Key))

/-- The question with another key and other branches. -/
def Question.renewed (q : Question) : Question := { q with key := key q.key, branches := branches q }

mutual

/-- The block with other keys, and other branches of the questions in and under it. -/
def Block.renewed : Block → Block
  | ⟨k, id, questions, subBlocks, randomizable, paradigm, branchIndex⟩ =>
    ⟨key k, id, questions.map (·.renewed key branches), blocksRenewed subBlocks, randomizable,
      paradigm, branchIndex⟩

/-- The blocks of a list with other keys and branches. -/
def blocksRenewed : List Block → List Block
  | [] => []
  | b :: bs => b.renewed :: blocksRenewed bs

end

@[simp] theorem Block.key_renewed (b : Block) : (b.renewed key branches).key = key b.key := by
  cases b; rw [renewed]

@[simp] theorem Block.id_renewed (b : Block) : (b.renewed key branches).id = b.id := by
  cases b; rw [renewed]

mutual

theorem preorder_renewed : ∀ b : Block,
    (b.renewed key branches).preorder = b.preorder.map (·.renewed key branches)
  | ⟨k, id, questions, subBlocks, randomizable, paradigm, branchIndex⟩ => by
    rw [Block.renewed, Block.preorder, Block.preorder, preorders_blocksRenewed subBlocks,
      List.map_cons, Block.renewed]

theorem preorders_blocksRenewed : ∀ bs : List Block,
    Block.preorders (blocksRenewed key branches bs) =
      (Block.preorders bs).map (·.renewed key branches)
  | [] => rfl
  | b :: bs => by
    rw [blocksRenewed, Block.preorders, Block.preorders, preorder_renewed b,
      preorders_blocksRenewed bs, List.map_append]

end

/-- A renewed question gets the branches that were found for its new key. -/
theorem Question.withBranches_renewed (found : List (Key × List (Choice × Key))) (q : Question) :
    (q.renewed key branches).withBranches found =
      q.renewed key fun q => (found.lookup (key q.key)).getD [] := rfl

mutual

theorem Block.withBranches_renewed (found : List (Key × List (Choice × Key))) : ∀ b : Block,
    (b.renewed key branches).withBranches found =
      b.renewed key fun q => (found.lookup (key q.key)).getD []
  | ⟨k, id, questions, subBlocks, randomizable, paradigm, branchIndex⟩ => by
    rw [Block.renewed, Block.withBranches, Block.renewed, blocksWithBranches_renewed found subBlocks, List.map_map]
    rfl

theorem blocksWithBranches_renewed (found : List (Key × List (Choice × Key))) :
    ∀ bs : List Block, blocksWithBranches found (blocksRenewed key branches bs) =
      blocksRenewed key (fun q => (found.lookup (key q.key)).getD []) bs
  | [] => by rw [blocksRenewed, blocksWithBranches, blocksRenewed]
  | b :: bs => by
    rw [blocksRenewed, blocksWithBranches, blocksRenewed, Block.withBranches_renewed found b,
      blocksWithBranches_renewed found bs]

end

variable {key branches}

mutual

/-- Blocks are renewed alike if their questions are. -/
theorem Block.renewed_congr {key' : Key → Key} {branches' : Question → List (Choice × Key)} :
    ∀ b : Block, (∀ c ∈ b.preorder, key c.key = key' c.key) →
      (∀ q ∈ b.allQuestions, q.renewed key branches = q.renewed key' branches') →
        b.renewed key branches = b.renewed key' branches'
  | ⟨k, id, questions, subBlocks, randomizable, paradigm, branchIndex⟩, hkeys, hquestions => by
    rw [Block.renewed, Block.renewed]
    rw [Block.preorder, List.forall_mem_cons] at hkeys
    rw [Block.allQuestions_eq, List.forall_mem_append] at hquestions
    rw [blocksRenewed_congr subBlocks hkeys.2 hquestions.2, List.map_congr_left hquestions.1,
      hkeys.1]

theorem blocksRenewed_congr {key' : Key → Key} {branches' : Question → List (Choice × Key)} :
    ∀ bs : List Block, (∀ c ∈ Block.preorders bs, key c.key = key' c.key) →
      (∀ q ∈ questionsUnder bs, q.renewed key branches = q.renewed key' branches') →
        blocksRenewed key branches bs = blocksRenewed key' branches' bs
  | [], _, _ => by rw [blocksRenewed, blocksRenewed]
  | b :: bs, hkeys, hquestions => by
    rw [Block.preorders, List.forall_mem_append] at hkeys
    rw [questionsUnder_cons, List.forall_mem_append] at hquestions
    rw [blocksRenewed, blocksRenewed, Block.renewed_congr b hkeys.1 hquestions.1,
      blocksRenewed_congr bs hkeys.2 hquestions.2]

end

mutual

theorem Block.renewed_self : ∀ b : Block, b.renewed id (·.branches) = b
  | ⟨k, i, questions, subBlocks, randomizable, paradigm, branchIndex⟩ => by
    rw [Block.renewed, blocksRenewed_self subBlocks]
    simp [Question.renewed]

theorem blocksRenewed_self : ∀ bs : List Block, blocksRenewed id (·.branches) bs = bs
  | [] => by rw [blocksRenewed]
  | b :: bs => by rw [blocksRenewed, Block.renewed_self b, blocksRenewed_self bs]

end

/-! ### Documents -/

/-- The branch question has the same id, whatever its key and branches. -/
theorem branchQuestionId_renewed (questions : List Question) (branchIndex : Option Nat) :
    branchQuestionId (questions.map (·.renewed key branches)) branchIndex =
      branchQuestionId questions branchIndex := by
  unfold branchQuestionId
  cases branchIndex with
  | none => rfl
  | some i =>
    simp only [Option.bind_some, List.getElem?_map]
    cases questions[i]? <;> rfl

theorem Question.toDocument_renewed {blockId blockId' : Key → Document} {q : Question}
    (h : (branches q).map (fun (c, target) => (c.id, blockId' target)) =
      q.branches.map fun (c, target) => (c.id, blockId target)) :
    (q.renewed key branches).toDocument blockId' = q.toDocument blockId := by
  unfold toDocument renewed
  rw [h]

section

variable {blockId blockId' : Key → Document}

mutual

theorem Block.toDocument_renewed : ∀ b : Block,
    (∀ q ∈ b.allQuestions, (q.renewed key branches).toDocument blockId' = q.toDocument blockId) →
      (b.renewed key branches).toDocument blockId' = b.toDocument blockId
  | ⟨k, id, questions, subBlocks, randomizable, paradigm, branchIndex⟩, h => by
    rw [Block.allQuestions_eq, List.forall_mem_append] at h
    rw [Block.renewed, Block.toDocument, Block.toDocument, blockDocuments_renewed subBlocks h.2,
      branchQuestionId_renewed, List.map_map]
    rw [show questions.map ((·.toDocument blockId') ∘ (·.renewed key branches)) =
      questions.map (·.toDocument blockId) from List.map_congr_left h.1]

theorem blockDocuments_renewed : ∀ bs : List Block,
    (∀ q ∈ questionsUnder bs, (q.renewed key branches).toDocument blockId' =
      q.toDocument blockId) →
        blockDocuments blockId' (blocksRenewed key branches bs) = blockDocuments blockId bs
  | [], _ => by rw [blocksRenewed, blockDocuments, blockDocuments]
  | b :: bs, h => by
    rw [questionsUnder_cons, List.forall_mem_append] at h
    rw [blocksRenewed, blockDocuments, blockDocuments, Block.toDocument_renewed b h.1,
      blockDocuments_renewed bs h.2]

end

end

end Renewed

/-! ### Copies -/

/-- The branches of a question to the same places in a survey of another origin. -/
def Question.movedBranches (origin : Nat) (q : Question) : List (Choice × Key) :=
  q.branches.map fun (c, target) => (c, target.movedTo origin)

namespace Survey

/-- The survey with nodes of another origin at the same places. -/
def copied (origin : Nat) (s : Survey) : Survey :=
  { s with blocks := blocksRenewed (·.movedTo origin) (·.movedBranches origin) s.blocks }

variable {origin : Nat} {s : Survey}

/-- All keys of nodes of a settled survey have its origin. -/
theorem Settled.origin_of_mem (h : s.Settled origin) {b : Block} (hb : b ∈ s.allBlocks) :
    b.key.origin = origin := by
  have hkey : b.key ∈ s.allBlocks.map (·.key) := List.mem_map_of_mem hb
  rw [h.blocks, keysBetween] at hkey
  obtain ⟨i, -, hi⟩ := List.mem_map.mp hkey
  rw [← hi]

theorem Settled.origin_of_mem_questions (h : s.Settled origin) {q : Question}
    (hq : q ∈ s.questions) : q.key.origin = origin := by
  have hkey : q.key ∈ s.questions.map (·.key) := List.mem_map_of_mem hq
  rw [h.questions, keysBetween] at hkey
  obtain ⟨i, -, hi⟩ := List.mem_map.mp hkey
  rw [← hi]

/-- Each branch leads to a block of the survey. -/
theorem Settled.exists_of_branch (h : s.Settled origin) {q : Question} (hq : q ∈ s.questions)
    {branch : Choice × Key} (hbranch : branch ∈ q.branches) :
    ∃ b ∈ s.allBlocks, b.key = branch.2 ∧ s.allBlocks.find? (·.id.equals b.id) = some b := by
  obtain ⟨b, hkey, hb⟩ := (h.branches q hq).target branch hbranch
  exact ⟨b, List.mem_of_find?_eq_some hb, hkey, hb⟩

/-- A survey is a copy of itself. -/
theorem Settled.copied_self (h : s.Settled origin) : s.copied origin = s := by
  have hmoved : ∀ k : Key, k.origin = origin → k.movedTo origin = k := by
    rintro k rfl
    rfl
  have hquestion : ∀ q ∈ s.questions, q.renewed (·.movedTo origin) (·.movedBranches origin) =
      q.renewed id (·.branches) := by
    intro q hq
    have hbranches : q.branches.map (fun (c, target) => (c, target.movedTo origin)) =
        q.branches := by
      refine (List.map_congr_left fun branch hbranch => ?_).trans (List.map_id _)
      obtain ⟨b, hb, hkey, -⟩ := h.exists_of_branch hq hbranch
      have htarget : branch.2.origin = origin := hkey ▸ h.origin_of_mem hb
      exact congrArg (branch.1, ·) (hmoved _ htarget)
    simp only [Question.renewed, Question.movedBranches, hbranches, id,
      hmoved _ (h.origin_of_mem_questions hq)]
  have hblocks : blocksRenewed (·.movedTo origin) (·.movedBranches origin) s.blocks =
      blocksRenewed id (·.branches) s.blocks :=
    blocksRenewed_congr s.blocks (fun b hb => hmoved _ (h.origin_of_mem hb)) hquestion
  rw [copied, hblocks, blocksRenewed_self]

theorem Settled.find?_key (h : s.Settled origin) {p : Block → Bool} {b : Block}
    (hb : b ∈ s.allBlocks) (hp : p b = true) (hkey : ∀ c ∈ s.allBlocks, p c = true → c.key = b.key) :
    s.allBlocks.find? p = some b := by
  have hnodup : (s.allBlocks.map (·.key)).Nodup := by
    rw [h.blocks]
    exact keysBetween_nodup _ _ _
  cases hfind : s.allBlocks.find? p with
  | none => exact absurd hp (List.find?_eq_none.mp hfind b hb)
  | some c =>
    have hc := List.mem_of_find?_eq_some hfind
    rw [List.inj_on_of_nodup_map hnodup hc hb (hkey c hc (List.find?_some hfind))]

theorem Settled.blockId_eq (h : s.Settled origin) {b : Block} (hb : b ∈ s.allBlocks) :
    s.blockId b.key = b.id := by
  have hfound : s.blockAt? b.key = some b := h.find?_key hb (by simp) (by simp)
  rw [blockId, hfound]
  rfl

/-- A block of the survey has its id in the copy too. -/
theorem Settled.blockId_copied (h : s.Settled origin) (copy : Nat) {b : Block}
    (hb : b ∈ s.allBlocks) : (s.copied copy).blockId (b.key.movedTo copy) = b.id := by
  have hfound : s.allBlocks.find? (fun c => c.key.movedTo copy == b.key.movedTo copy) = some b := by
    refine h.find?_key hb (by simp) fun c hc hkey => ?_
    have horigin := (h.origin_of_mem hc).trans (h.origin_of_mem hb).symm
    exact Key.eq_of_movedTo horigin (by simpa using hkey)
  have hall : (s.copied copy).allBlocks =
      s.allBlocks.map (·.renewed (·.movedTo copy) (·.movedBranches copy)) :=
    preorders_blocksRenewed _ _ s.blocks
  rw [blockId, blockAt?, hall, List.find?_map, Function.comp_def]
  simp only [Block.key_renewed, hfound, Option.map_some, Block.id_renewed, Option.getD_some]

/-- **A survey and its copies are written alike.** -/
theorem Settled.toDocument_copied (h : s.Settled origin) (copy : Nat) :
    (s.copied copy).toDocument = s.toDocument := by
  have hquestion : ∀ q ∈ questionsUnder s.blocks,
      (q.renewed (·.movedTo copy) (·.movedBranches copy)).toDocument (s.copied copy).blockId =
        q.toDocument s.blockId := by
    intro q hq
    apply Question.toDocument_renewed
    rw [Question.movedBranches, List.map_map]
    refine List.map_congr_left fun branch hbranch => ?_
    obtain ⟨b, hb, hkey, -⟩ := h.exists_of_branch hq hbranch
    change (branch.1.id, (s.copied copy).blockId (branch.2.movedTo copy)) =
      (branch.1.id, s.blockId branch.2)
    rw [← hkey, h.blockId_copied copy hb, h.blockId_eq hb]
  have hblocks : blockDocuments (s.copied copy).blockId (s.copied copy).blocks =
      blockDocuments s.blockId s.blocks := blockDocuments_renewed s.blocks hquestion
  rw [toDocument, hblocks]
  rfl

end Survey

end Questionnaire
