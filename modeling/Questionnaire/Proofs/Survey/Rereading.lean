/-
# Reading a survey back

A survey is written with ids in the places of its nodes and read back by the
first thing with the id. In a survey that was read from a document of the usual
form every reference was resolved to the first thing with the id, so it is
resolved to that thing again, whatever ids repeat.

Key definitions: `ReadSoFar.past`, `Rereadable`.
Key theorems: `mapM_readIn_toDocument`, `Survey.Settled.resolve_written`,
`Survey.reads_back`.
-/
import Questionnaire.Proofs.Survey.Copy
import Questionnaire.Proofs.Survey.Leaves

namespace Questionnaire

/-! ### Fields as written -/

namespace Document

theorem lookup_str_cons {name r : String} {v : Document} {rest : List (Document × Document)} :
    lookup (str name) ((str r, v) :: rest) = if r = name then some v else lookup (str name) rest := by
  rw [lookup]
  simp only [beq_str_iff, str.injEq]

theorem fieldD_map {name : String} {entries : List (Document × Document)} {default : Document} :
    (map entries).fieldD name default = (lookup (str name) entries).getD default := rfl

theorem required_map {name : String} {entries : List (Document × Document)} {v : Document}
    (h : lookup (str name) entries = some v) : (map entries).required name = .ok v := by
  simp only [required, opened, h]

theorem put_of_new {α : Type} {key : Document} {value : α} : ∀ {entries : List (Document × α)},
    (∀ e ∈ entries, (e.1 == key) = false) → put key value entries = entries ++ [(key, value)]
  | [], _ => rfl
  | (k, v) :: rest, h => by
    have hk : (k == key) = false := h (k, v) List.mem_cons_self
    rw [put, hk, put_of_new fun e he => h e (List.mem_cons_of_mem _ he)]
    rfl

/-- Entries in which each key stands once are put as they are. -/
theorem ofEntries_of_once {α : Type} {entries : List (Document × α)}
    (h : entries.Pairwise fun e f => (e.1 == f.1) = false) : ofEntries entries = entries := by
  have grow : ∀ (before after : List (Document × α)),
      (before ++ after).Pairwise (fun e f => (e.1 == f.1) = false) →
        after.foldl (fun acc e => put e.1 e.2 acc) before = before ++ after := by
    intro before after
    induction after generalizing before with
    | nil => simp
    | cons e after ih =>
      intro hpair
      have hnew : ∀ f ∈ before, (f.1 == e.1) = false := fun f hf =>
        (List.pairwise_append.mp hpair).2.2 f hf e List.mem_cons_self
      rw [List.foldl_cons, put_of_new hnew]
      simpa using ih (before ++ [e]) (by simpa using hpair)
  exact grow [] entries h

end Document

/-! ### Choices and questions -/

theorem Choice.ofDocument_toDocument (c : Choice) : Choice.ofDocument c.toDocument = .ok c := by
  have hid : c.toDocument.required "id" = .ok c.id :=
    Document.required_map Document.lookup_str_cons
  rw [ofDocument, hid]
  simp [toDocument, Document.record, Document.fieldD_map, Document.lookup_str_cons, bind,
    Except.bind, pure, Except.pure]

/-- The question as it is read: without branches, and with the key that it gets. -/
def Question.reread (origin : Nat) (q : Question) : Question :=
  q.renewed (·.movedTo origin) fun _ => []

/-- The branch map of the question as it is written. -/
def Question.writtenEntries (blockId : Key → Document) (q : Question) :
    List (Document × Document) :=
  q.branches.map fun (c, target) => (c.id, blockId target)

/-- What is put aside when the questions are read back. -/
def writtenMaps (origin : Nat) (blockId : Key → Document) (questions : List Question) :
    List BranchMap :=
  (questions.filter (·.isBranch)).map fun q =>
    ⟨q.reread origin, .map (q.writtenEntries blockId)⟩

theorem writtenMaps_append {origin : Nat} {blockId : Key → Document} (as bs : List Question) :
    writtenMaps origin blockId (as ++ bs) =
      writtenMaps origin blockId as ++ writtenMaps origin blockId bs := by
  rw [writtenMaps, List.filter_append, List.map_append]
  rfl

variable {origin : Nat} {blockId : Key → Document}

theorem Question.fieldD_branchMap {q : Question}
    (hq : q.branches.Pairwise fun x y => (x.1.id == y.1.id) = false) :
    (q.toDocument blockId).fieldD "branch_map" .null = .map (q.writtenEntries blockId) := by
  have honce : (q.writtenEntries blockId).Pairwise fun e f => (e.1 == f.1) = false :=
    List.pairwise_map.mpr hq
  rw [toDocument, Document.record, Document.fieldD_map]
  simp only [List.map_cons, List.map_nil, Document.lookup_str_cons, String.reduceEq, ↓reduceIte,
    Option.getD_some]
  exact congrArg _ (Document.ofEntries_of_once honce)

theorem Question.ofDocument_toDocument (key : Key) (q : Question) :
    Question.ofDocument key (q.toDocument blockId) = .ok { q with key := key, branches := [] } := by
  have hid : (q.toDocument blockId).required "id" = .ok q.id :=
    Document.required_map Document.lookup_str_cons
  have hchoices : (q.choices.map (·.toDocument)).mapM Choice.ofDocument = .ok q.choices := by
    rw [mapM_map_eq_ok fun c _ => Choice.ofDocument_toDocument c, List.map_id']
  have hoptions : ((q.toDocument blockId).fieldD "options" (.list [])).elements =
      .ok (q.choices.map (·.toDocument)) := by
    simp [toDocument, Document.record, Document.fieldD_map, Document.lookup_str_cons,
      Document.elements, Document.opened]
  simp only [ofDocument, hid, hoptions, hchoices, bind, Except.bind, pure, Except.pure]
  simp [toDocument, Document.record, Document.fieldD_map, Document.lookup_str_cons]

/-! ### What is read of a tree -/

/-- The count and the maps that were put aside, after a part of a survey was read back. -/
def ReadSoFar.past (origin : Nat) (blockId : Key → Document) (r : ReadSoFar) (blocks : Nat)
    (questions : List Question) : ReadSoFar where
  blocks := r.blocks + blocks
  questions := r.questions + questions.length
  maps := r.maps ++ writtenMaps origin blockId questions

theorem ReadSoFar.past_nil (r : ReadSoFar) : r.past origin blockId 0 [] = r := by
  simp [past, writtenMaps]

theorem ReadSoFar.past_past (r : ReadSoFar) (m n : Nat) (as bs : List Question) :
    (r.past origin blockId m as).past origin blockId n bs =
      r.past origin blockId (m + n) (as ++ bs) := by
  simp only [past, List.length_append, writtenMaps_append, List.append_assoc, Nat.add_assoc]

/-- Reading an own question back gives it the number that it had. -/
theorem Question.readIn_toDocument {r : ReadSoFar} {q : Question}
    (honce : q.branches.Pairwise fun x y => (x.1.id == y.1.id) = false)
    (hkey : q.key.index = r.questions) :
    (Question.readIn origin (q.toDocument blockId)).run r =
      .ok (q.reread origin, r.past origin blockId 0 [q]) := by
  have hread : Question.ofDocument ⟨origin, r.questions⟩ (q.toDocument blockId) =
      .ok (q.reread origin) := by
    rw [ofDocument_toDocument, ← hkey]
    rfl
  have hgiven : (Document.map (q.writtenEntries blockId)).isGiven = q.isBranch := by
    simp [Document.isGiven, writtenEntries, isBranch]
  unfold Question.readIn
  refine Reads.run_bind_eq_ok.mpr ⟨r, r, rfl, ?_⟩
  refine Reads.run_bind_eq_ok.mpr ⟨_, r, Reads.run_lift_eq_ok.mpr ⟨hread, rfl⟩, ?_⟩
  rw [fieldD_branchMap honce]
  simp only [hgiven, ReadSoFar.past, writtenMaps]
  cases hbranch : q.isBranch <;> simp only [List.filter_cons, hbranch] <;> rfl

/-- The keys count the nodes from a number on. -/
def countsFrom (first : Nat) (keys : List Key) : Prop :=
  keys.map (·.index) = List.range' first keys.length

theorem countsFrom_cons {first : Nat} {k : Key} {keys : List Key} :
    countsFrom first (k :: keys) ↔ k.index = first ∧ countsFrom (first + 1) keys := by
  simp [countsFrom, List.range'_succ]

theorem countsFrom_append {first : Nat} {ks ls : List Key} :
    countsFrom first (ks ++ ls) ↔ countsFrom first ks ∧ countsFrom (first + ks.length) ls := by
  induction ks generalizing first with
  | nil => simp [countsFrom]
  | cons k ks ih =>
    rw [List.cons_append, countsFrom_cons, countsFrom_cons, ih, List.length_cons, and_assoc,
      show first + 1 + ks.length = first + (ks.length + 1) by omega]

theorem Question.mapM_readIn_toDocument : ∀ {qs : List Question} {r : ReadSoFar},
    (∀ q ∈ qs, q.branches.Pairwise fun x y => (x.1.id == y.1.id) = false) →
      countsFrom r.questions (qs.map (·.key)) →
        ((qs.map (·.toDocument blockId)).mapM (Question.readIn origin)).run r =
          .ok (qs.map (·.reread origin), r.past origin blockId 0 qs)
  | [], r, _, _ => by
    rw [ReadSoFar.past_nil]
    rfl
  | q :: qs, r, honce, hkeys => by
    obtain ⟨hkey, hkeys⟩ := countsFrom_cons.mp hkeys
    have hqs : ((qs.map (·.toDocument blockId)).mapM (Question.readIn origin)).run
        (r.past origin blockId 0 [q]) = .ok (qs.map (·.reread origin), r.past origin blockId 0
          (q :: qs)) := by
      rw [mapM_readIn_toDocument (fun q' hq' => honce q' (List.mem_cons_of_mem q hq')) hkeys,
        ReadSoFar.past_past, List.singleton_append]
    rw [List.map_cons, List.mapM_cons]
    refine Reads.run_bind_eq_ok.mpr
      ⟨_, _, readIn_toDocument (honce q List.mem_cons_self) hkey, ?_⟩
    exact Reads.run_bind_eq_ok.mpr ⟨_, _, hqs, rfl⟩

/-! ### Blocks -/

/-- What a reader finds in the fields of a block that was written. -/
theorem Block.fields_toDocument (b : Block) : ∃ entries, b.toDocument blockId = .map entries ∧
    Document.required "id" (.map entries) = .ok b.id ∧
    (Document.fieldD "questions" (.map entries) (.list [])).elements =
      .ok (b.questions.map (·.toDocument blockId)) ∧
    Document.fieldD "branch_question" (.map entries) .null =
      branchQuestionId b.questions b.branchIndex ∧
    Document.fieldD "sub_blocks" (.map entries) (.list []) =
      .list (blockDocuments blockId b.subBlocks) ∧
    readParadigm (Document.fieldD "branch_paradigm" (.map entries) (.str "none")) =
      .ok b.paradigm ∧
    Document.fieldD "randomizable" (.map entries) (.bool false) = b.randomizable := by
  have hfields : b.toDocument blockId = .record [
      ("id", b.id), ("randomizable", b.randomizable), ("branch_paradigm", .str b.paradigm.name),
      ("branch_question", branchQuestionId b.questions b.branchIndex),
      ("questions", .list (b.questions.map (·.toDocument blockId))),
      ("sub_blocks", .list (blockDocuments blockId b.subBlocks))] := by
    cases b; rw [toDocument]
  rw [Document.record] at hfields
  simp only [List.map_cons, List.map_nil] at hfields
  refine ⟨_, hfields, Document.required_map Document.lookup_str_cons, ?_, ?_, ?_, ?_, ?_⟩
  all_goals simp [Document.fieldD_map, Document.lookup_str_cons, Document.elements,
    Document.opened, readParadigm]

/-- The blocks as they are read: without branches, and with the keys that they get. -/
def blocksReread (origin : Nat) (bs : List Block) : List Block :=
  blocksRenewed (·.movedTo origin) (fun _ => []) bs

theorem Block.readBranchIndex_written {b : Block} (h : b.FirstNamed) {d : Document}
    (hd : d.fieldD "branch_question" .null = branchQuestionId b.questions b.branchIndex) :
    readBranchIndex d (b.questions.map (·.reread origin)) = .ok b.branchIndex := by
  unfold readBranchIndex
  rw [hd]
  cases hindex : b.branchIndex with
  | none => rfl
  | some i =>
    obtain ⟨q, hq, hid, hfirst⟩ := h i hindex
    have hwritten : branchQuestionId b.questions (some i) = q.id := by
      simp [branchQuestionId, hq]
    have hfound : (b.questions.map (·.reread origin)).findIdx? (·.id.equals q.id) = some i := by
      rw [List.findIdx?_map]
      exact hfirst
    rw [hwritten]
    split
    · rename_i hnull
      exact absurd hnull hid
    · rw [hfound]

/-- **A block that is written is read back at its place**, if the blocks under it are. -/
theorem Block.readIn_toDocument {fuel : Nat} {r : ReadSoFar} {b : Block} (hindex : b.FirstNamed)
    (honce : ∀ q ∈ b.questions, q.branches.Pairwise fun x y => (x.1.id == y.1.id) = false)
    (hkey : b.key.index = r.blocks) (hkeys : countsFrom r.questions (b.questions.map (·.key)))
    {r' : ReadSoFar}
    (hunder : ((blockDocuments blockId b.subBlocks).mapM (readIn origin fuel)).run
      (r.past origin blockId 1 b.questions) = .ok (blocksReread origin b.subBlocks, r')) :
    (readIn origin fuel (b.toDocument blockId)).run r =
      .ok (b.renewed (·.movedTo origin) (fun _ => []), r') := by
  obtain ⟨entries, hfields, hid, hthings, hnamed, hlisted, hparadigm, hrandomizable⟩ :=
    b.fields_toDocument
  have hown : ((b.questions.map (·.toDocument blockId)).mapM (Question.readIn origin)).run
      (r.past origin blockId 1 []) = .ok (b.questions.map (·.reread origin),
        r.past origin blockId 1 b.questions) := by
    rw [Question.mapM_readIn_toDocument (r := r.past origin blockId 1 []) honce hkeys,
      ReadSoFar.past_past]
    rfl
  rw [hfields, readIn_listed hlisted, readListed]
  refine Reads.run_bind_eq_ok.mpr ⟨r, r, rfl, ?_⟩
  refine Reads.run_bind_eq_ok.mpr ⟨⟨⟩, r.past origin blockId 1 [], ?_, ?_⟩
  · simp only [ReadSoFar.past, writtenMaps, List.filter_nil, List.map_nil, List.append_nil,
      List.length_nil, Nat.add_zero]
    rfl
  refine Reads.run_bind_eq_ok.mpr ⟨_, _, Reads.run_lift_eq_ok.mpr ⟨hthings, rfl⟩, ?_⟩
  refine Reads.run_bind_eq_ok.mpr ⟨_, _, hown, ?_⟩
  refine Reads.run_bind_eq_ok.mpr
    ⟨_, _, Reads.run_lift_eq_ok.mpr ⟨readBranchIndex_written hindex hnamed, rfl⟩, ?_⟩
  refine Reads.run_bind_eq_ok.mpr ⟨_, _, Reads.run_lift_eq_ok.mpr ⟨hid, rfl⟩, ?_⟩
  refine Reads.run_bind_eq_ok.mpr ⟨_, _, hunder, ?_⟩
  refine Reads.run_bind_eq_ok.mpr ⟨_, _, Reads.run_lift_eq_ok.mpr ⟨hparadigm, rfl⟩, ?_⟩
  rw [hrandomizable, ← hkey]
  cases b
  rw [renewed]
  rfl

/-- Blocks whose nodes count on from a number, and whose references name the first of their kind. -/
structure Rereadable (r : ReadSoFar) (bs : List Block) : Prop where
  named : ∀ b ∈ Block.preorders bs, b.FirstNamed
  once : ∀ q ∈ questionsUnder bs, q.branches.Pairwise fun x y => (x.1.id == y.1.id) = false
  blocks : countsFrom r.blocks ((Block.preorders bs).map (·.key))
  questions : countsFrom r.questions ((questionsUnder bs).map (·.key))

/-- The parts of a list of blocks follow one another. -/
theorem Rereadable.parts {r : ReadSoFar} {b : Block} {bs : List Block}
    (h : Rereadable r (b :: bs)) :
    (b.FirstNamed ∧ (∀ q ∈ b.questions, q.branches.Pairwise fun x y => (x.1.id == y.1.id) = false) ∧
      b.key.index = r.blocks ∧ countsFrom r.questions (b.questions.map (·.key))) ∧
    Rereadable (r.past origin blockId 1 b.questions) b.subBlocks ∧
    Rereadable (r.past origin blockId b.preorder.length b.allQuestions) bs := by
  obtain ⟨named, once, blocks, questions⟩ := h
  rw [Block.preorders_cons, List.forall_mem_cons, List.forall_mem_append] at named
  rw [questionsUnder_cons, Block.allQuestions_eq] at once questions
  rw [List.forall_mem_append, List.forall_mem_append] at once
  rw [Block.preorders_cons, List.map_cons, List.map_append, countsFrom_cons,
    countsFrom_append] at blocks
  rw [List.map_append, List.map_append, countsFrom_append, countsFrom_append] at questions
  refine ⟨⟨named.1, once.1.1, blocks.1, questions.1.1⟩,
    ⟨named.2.1, once.1.2, blocks.2.1, ?_⟩, ⟨named.2.2, once.2, ?_, ?_⟩⟩
  · simpa [ReadSoFar.past] using questions.1.2
  · simpa [ReadSoFar.past, Block.preorder_eq, Nat.add_assoc, Nat.add_comm 1] using blocks.2.2
  · simpa [ReadSoFar.past, Block.allQuestions_eq] using questions.2

theorem Block.sizeOf_subBlocks (b : Block) : sizeOf b.subBlocks < sizeOf b := by
  cases b
  simp only [Block.mk.sizeOf_spec]
  omega

/-- **Blocks that are written are read back at their places.** -/
theorem mapM_readIn_toDocument (fuel : Document → Nat) (bs : List Block) (r : ReadSoFar)
    (h : Rereadable r bs) :
    ((blockDocuments blockId bs).mapM fun d => Block.readIn origin (fuel d) d).run r =
      .ok (blocksReread origin bs,
        r.past origin blockId (Block.preorders bs).length (questionsUnder bs)) := by
  match bs with
  | [] =>
    rw [blockDocuments, blocksReread, blocksRenewed, Block.preorders, questionsUnder,
      Block.preorders, List.flatMap_nil, List.length_nil, ReadSoFar.past_nil]
    rfl
  | b :: bs =>
    obtain ⟨⟨hnamed, honce, hkey, hkeys⟩, under, rest⟩ :=
      @Rereadable.parts origin blockId r b bs h
    have hunder := mapM_readIn_toDocument (fun _ => fuel (b.toDocument blockId)) b.subBlocks _ under
    have hrest := mapM_readIn_toDocument fuel bs _ rest
    have hhead := Block.readIn_toDocument hnamed honce hkey hkeys hunder
    have hcount : 1 + (Block.preorders b.subBlocks).length = b.preorder.length := by
      rw [Block.preorder_eq, List.length_cons, Nat.add_comm]
    rw [ReadSoFar.past_past, ← Block.allQuestions_eq, hcount] at hhead
    rw [ReadSoFar.past_past, ← questionsUnder_cons, ← List.length_append,
      ← Block.preorders] at hrest
    rw [blockDocuments, List.mapM_cons]
    refine Reads.run_bind_eq_ok.mpr ⟨_, _, hhead, ?_⟩
    refine Reads.run_bind_eq_ok.mpr ⟨_, _, hrest, ?_⟩
    rw [blocksReread, blocksReread, blocksRenewed]
    rfl
termination_by sizeOf bs
decreasing_by
  · have := b.sizeOf_subBlocks
    simp only [List.cons.sizeOf_spec]
    omega
  · simp only [List.cons.sizeOf_spec]
    omega

/-! ### Branches and the survey -/

namespace Survey

variable {s : Survey}

/-- **A branch that is written is resolved to its choice and to the block at its place.** -/
theorem Settled.resolve_written (h : s.Settled origin) (copy : Nat) {q : Question}
    (hq : q ∈ s.questions) :
    BranchMap.resolve (Block.preorders (blocksReread copy s.blocks))
      ⟨q.reread copy, .map (q.writtenEntries s.blockId)⟩ = .ok (q.movedBranches copy) := by
  have hentry : ∀ branch ∈ q.branches,
      BranchMap.resolveEntry (Block.preorders (blocksReread copy s.blocks)) (q.reread copy)
        branch.1.id (s.blockId branch.2) = .ok (branch.1, branch.2.movedTo copy) := by
    intro branch hbranch
    obtain ⟨b, hb, hkey, hfirst⟩ := h.exists_of_branch hq hbranch
    have hchoice : (q.reread copy).choice? branch.1.id = some branch.1 :=
      (h.branches q hq).choice branch hbranch
    have hblock : (Block.preorders (blocksReread copy s.blocks)).find? (·.id.equals b.id) =
        some (b.renewed (·.movedTo copy) fun _ => []) := by
      rw [blocksReread, preorders_blocksRenewed, List.find?_map, Function.comp_def]
      simp only [Block.id_renewed]
      exact congrArg (Option.map _) hfirst
    rw [← hkey, h.blockId_eq hb, BranchMap.resolveEntry, hchoice]
    simp only [hblock, (h.branches q hq).isKey branch hbranch, ↓reduceIte, Block.key_renewed]
  exact mapM_map_eq_ok hentry

/-- What is found for the branch maps that were written. -/
def foundAgain (copy : Nat) (s : Survey) : List (Key × List (Choice × Key)) :=
  (s.questions.filter (·.isBranch)).map fun q => (q.key.movedTo copy, q.movedBranches copy)

/-- A question finds its own branches again. -/
theorem Settled.lookup_foundAgain (h : s.Settled origin) (copy : Nat) {q : Question}
    (hq : q ∈ s.questions) :
    ((s.foundAgain copy).lookup (q.key.movedTo copy)).getD [] = q.movedBranches copy := by
  have hnodup : (s.questions.map (·.key)).Nodup := by
    rw [h.questions]
    exact keysBetween_nodup _ _ _
  cases hlookup : (s.foundAgain copy).lookup (q.key.movedTo copy) with
  | none =>
    -- then the question does not branch
    have hnone := List.lookup_eq_none_iff.mp hlookup
    have hbranch : q.isBranch = false := by
      by_contra htrue
      have hmem : (q.key.movedTo copy, q.movedBranches copy) ∈ s.foundAgain copy :=
        List.mem_map.mpr ⟨q, List.mem_filter.mpr ⟨hq, by simpa using htrue⟩, rfl⟩
      simpa using hnone _ hmem
    have hempty : q.branches = [] := by simpa [Question.isBranch] using hbranch
    simp [Question.movedBranches, hempty]
  | some branches =>
    obtain ⟨before, after, hsplit, -⟩ := List.lookup_eq_some_iff.mp hlookup
    have hmem : (q.key.movedTo copy, branches) ∈ s.foundAgain copy :=
      hsplit ▸ List.mem_append_right _ List.mem_cons_self
    obtain ⟨q', hq', heq⟩ := List.mem_map.mp hmem
    obtain ⟨hkey, rfl⟩ := Prod.mk.inj heq
    have hquestion := (List.mem_filter.mp hq').1
    have horigin := (h.origin_of_mem_questions hquestion).trans (h.origin_of_mem_questions hq).symm
    rw [List.inj_on_of_nodup_map hnodup hquestion hq (Key.eq_of_movedTo horigin hkey)]
    rfl

theorem countsFrom_keysBetween (origin n : Nat) : countsFrom 0 (keysBetween origin 0 n) := by
  simp [countsFrom, keysBetween, Function.comp_def]

theorem Settled.rereadable (h : s.Settled origin) : Rereadable {} s.blocks where
  named := h.branchQuestion
  once := fun q hq => (h.branches q hq).once
  blocks := by
    rw [← allBlocks, h.blocks]
    exact countsFrom_keysBetween origin _
  questions := by
    rw [← questions_eq, h.questions]
    exact countsFrom_keysBetween origin _

/-- What is written of a settled survey is read as a copy of it. -/
theorem Settled.reread (h : s.Settled origin) (copy : Nat) :
    ofDocument copy s.toDocument = .ok (s.copied copy) := by
  have hblocks : (readBlocks copy s.toDocument).run {} = .ok (blocksReread copy s.blocks,
      ReadSoFar.past copy s.blockId {} s.allBlocks.length s.questions) := by
    have hlisted : s.toDocument.fieldD "blocks" (.list []) =
        .list (blockDocuments s.blockId s.blocks) := by
      simp [toDocument, Document.record, Document.fieldD_map, Document.lookup_str_cons]
    rw [readBlocks, hlisted]
    exact mapM_readIn_toDocument Document.nodeCount s.blocks {} h.rereadable
  have hfound : (writtenMaps copy s.blockId s.questions).mapM (fun m => do
      return (m.question.key, ← m.resolve (Block.preorders (blocksReread copy s.blocks)))) =
        .ok (s.foundAgain copy) := by
    refine mapM_map_eq_ok fun q hq => ?_
    rw [h.resolve_written copy (List.mem_filter.mp hq).1]
    rfl
  have hbranches : blocksWithBranches (s.foundAgain copy) (blocksReread copy s.blocks) =
      (s.copied copy).blocks := by
    rw [blocksReread, blocksWithBranches_renewed]
    refine blocksRenewed_congr s.blocks (fun _ _ => rfl) fun q hq => ?_
    simp only [Question.renewed, h.lookup_foundAgain copy hq]
  unfold ofDocument
  refine bind_eq_ok.mpr ⟨_, rfl, bind_eq_ok.mpr ⟨_, hblocks, bind_eq_ok.mpr ⟨_, hfound, ?_⟩⟩⟩
  rw [hbranches]
  simp [toDocument, Document.record, Document.fieldD_map, Document.lookup_str_cons, pure,
    Except.pure, copied]

/-- **A survey that was read from a document in the form of a survey is read back from what is
written of it**: all its nodes are at their places, and every branch question, every choice that
branches and every block that it leads to is the one at the same place. -/
theorem reads_back {d : Document} (hd : d.isSurveyForm = true)
    (h : ofDocument origin d = .ok s) :
    ofDocument origin s.toDocument = .ok s ∧
      ∀ copy, ofDocument copy s.toDocument = .ok (s.copied copy) ∧
        (s.copied copy).toDocument = s.toDocument := by
  have settled := settled_of_ofDocument hd h
  refine ⟨?_, fun copy => ⟨settled.reread copy, settled.toDocument_copied copy⟩⟩
  rw [settled.reread origin, settled.copied_self]

end Survey

/-! ### Twins -/

/-- A document in which two choices, two questions and two blocks share their ids. -/
def twinsDocument : Document := .record [
  ("blocks", .list [
    .record [("id", .str "1"), ("branch_question", .str "q1"), ("questions", .list [
      .record [("id", .str "q1"),
        ("options", .list [choiceEntry "a", .record [("id", .str "a"), ("text", .str "b")]]),
        ("branch_map", .record [("a", .str "2")])],
      .record [("id", .str "q1"), ("text", .str "again")]])],
    blockEntry "2" [], blockEntry "2" []])]

/-- The survey of the document. -/
def twins : Survey where
  name := .str ""
  blocks := [
    { key := ⟨0, 0⟩, id := .str "1", branchIndex := some 0, questions := [
      plainQuestion 0 "1" [plainChoice "a", { id := .str "a", text := .str "b" }]
        [(plainChoice "a", ⟨0, 1⟩)],
      { key := ⟨0, 1⟩, id := .str "q1", text := .str "again" }] },
    plainBlock 1 "2" (plainQuestion 2 "2" [] []), plainBlock 2 "2" (plainQuestion 3 "2" [] [])]

theorem reads_back_twins : twinsDocument.isSurveyForm = true ∧
    Survey.ofDocument 0 twinsDocument = .ok twins ∧ Survey.ofDocument 0 twins.toDocument = .ok twins ∧
    ∀ copy, Survey.ofDocument copy twins.toDocument = .ok (twins.copied copy) ∧
      (twins.copied copy).toDocument = twins.toDocument := by
  have hform : twinsDocument.isSurveyForm = true := by cbv
  have hread : Survey.ofDocument 0 twinsDocument = .ok twins := by
    unfold Survey.ofDocument
    rw [@readBlocks_leaves 0 twinsDocument [_, _, _] (by cbv) (by cbv)]
    cbv
  exact ⟨hform, hread, Survey.reads_back hform hread⟩

end Questionnaire
