/-
# What the ids of a survey refer to

A survey that was read numbers its nodes depth first, so the key of a node is
its place in the tree. A branch question, a choice that branches and the block
that it leads to were each named by an id, and each is the first thing that has
its id. That holds for any ids that are texts, also if they repeat.

Key definitions: `Block.FirstNamed`, `Question.FirstNamed`, `Survey.Settled`.
Key theorem: `Survey.settled_of_ofDocument`.
-/
import Questionnaire.Proofs.Survey.Forms
import Questionnaire.Proofs.Survey.Numbering

namespace Questionnaire

/-! ### References -/

/-- The branch question of the block, if there is one, is the first of its questions with the id. -/
def Block.FirstNamed (b : Block) : Prop :=
  ∀ i, b.branchIndex = some i → ∃ q, b.questions[i]? = some q ∧ q.id ≠ .null ∧
    b.questions.findIdx? (·.id.equals q.id) = some i

/-- The question branches on each choice once, and on the first of its choices with the id; each
branch leads to the first of the blocks with its id. -/
structure Question.FirstNamed (blocks : List Block) (q : Question) : Prop where
  once : q.branches.Pairwise fun x y => (x.1.id == y.1.id) = false
  choice : ∀ branch ∈ q.branches, q.choice? branch.1.id = some branch.1
  isKey : ∀ branch ∈ q.branches, branch.1.isKey = true
  target : ∀ branch ∈ q.branches, ∃ b, b.key = branch.2 ∧
    blocks.find? (·.id.equals b.id) = some b

/-- Keys tell the places of the nodes, and all that is named by an id is the first thing that has
it. -/
structure Survey.Settled (origin : Nat) (s : Survey) : Prop where
  blocks : s.allBlocks.map (·.key) = keysBetween origin 0 s.allBlocks.length
  questions : s.questions.map (·.key) = keysBetween origin 0 s.questions.length
  branchQuestion : ∀ b ∈ s.allBlocks, b.FirstNamed
  branches : ∀ q ∈ s.questions, q.FirstNamed s.allBlocks

/-! ### Reading choices and questions -/

theorem Choice.id_of_ofDocument {d : Document} {c : Choice} (h : Choice.ofDocument d = .ok c) :
    d.required "id" = .ok c.id := by
  unfold Choice.ofDocument at h
  obtain ⟨id, hid, h⟩ := bind_eq_ok.mp h
  cases h
  exact hid

theorem Question.ofDocument_eq_ok {key : Key} {d : Document} {q : Question}
    (h : Question.ofDocument key d = .ok q) : d.required "id" = .ok q.id ∧
      (∃ things, (d.fieldD "options" (.list [])).elements = .ok things ∧
        things.mapM Choice.ofDocument = .ok q.choices) ∧ q.key = key ∧ q.branches = [] := by
  unfold Question.ofDocument at h
  obtain ⟨id, hid, h⟩ := bind_eq_ok.mp h
  obtain ⟨things, hthings, h⟩ := bind_eq_ok.mp h
  obtain ⟨choices, hchoices, h⟩ := bind_eq_ok.mp h
  cases h
  exact ⟨hid, ⟨things, hthings, hchoices⟩, rfl, rfl⟩

/-- The question as it is read: its id and those of its choices are texts, and it has no branches
yet. -/
structure Question.Fresh (q : Question) : Prop where
  id : q.id.isText = true
  choices : ∀ c ∈ q.choices, c.id.isText = true
  branches : q.branches = []

theorem Question.fresh_of_ofDocument {key : Key} {d : Document} {q : Question}
    (hd : d.isQuestionForm = true) (h : Question.ofDocument key d = .ok q) : q.Fresh := by
  obtain ⟨hid, ⟨things, hthings, hchoices⟩, -, hbranches⟩ := Question.ofDocument_eq_ok h
  have hlist : (d.fieldD "options" (.list [])).isListOf Document.isChoiceForm = true :=
    Document.check_fieldD "options" _ hd rfl
  have hforms := Document.check_of_elements hlist hthings
  refine ⟨Document.check_of_required "id" hd hid, fun c hc => ?_, hbranches⟩
  obtain ⟨thing, hthing, hc⟩ := exists_of_mem_right (forall₂_of_mapM hchoices) hc
  exact Document.check_of_required "id" (hforms thing hthing) (Choice.id_of_ofDocument hc)

/-- The branch map is a mapping that has each key once. -/
def BranchMap.IsTable (m : BranchMap) : Prop :=
  ∃ entries, m.entries = .map entries ∧ entries.Pairwise fun e f => (e.1 == f.1) = false

/-- Reading a question puts a branch map aside that has each key once. -/
theorem Question.readIn_form {origin : Nat} {d : Document} {r r' : ReadSoFar} {q : Question}
    (hd : d.isQuestionForm = true) (h : (Question.readIn origin d).run r = .ok (q, r')) :
    q.Fresh ∧ ∀ m ∈ r'.maps, m ∈ r.maps ∨ m.IsTable := by
  unfold Question.readIn at h
  obtain ⟨r₀, r₁, hget, h₁⟩ := Reads.run_bind_eq_ok.mp h
  cases hget
  obtain ⟨q', r₂, hlift, h₂⟩ := Reads.run_bind_eq_ok.mp h₁
  obtain ⟨hq, hr⟩ := Reads.run_lift_eq_ok.mp hlift
  subst hr
  cases h₂
  refine ⟨Question.fresh_of_ofDocument hd hq, fun m hm => ?_⟩
  have htable : (d.fieldD "branch_map" .null).isTable = true :=
    Document.check_fieldD "branch_map" _ hd rfl
  rcases List.mem_append.mp hm with hold | hnew
  · exact .inl hold
  · split at hnew
    · rename_i hgiven
      obtain rfl := List.mem_singleton.mp hnew
      exact .inr (Document.exists_entries_of_isTable htable hgiven)
    · simp at hnew

theorem Question.mapM_readIn_form {origin : Nat} : ∀ {ds : List Document} {r r' : ReadSoFar}
    {qs : List Question}, (∀ d ∈ ds, d.isQuestionForm = true) →
      (ds.mapM (Question.readIn origin)).run r = .ok (qs, r') →
        (∀ q ∈ qs, q.Fresh) ∧ ∀ m ∈ r'.maps, m ∈ r.maps ∨ m.IsTable
  | [], r, _, _, _, h => by
    cases h
    exact ⟨by simp, fun m hm => .inl hm⟩
  | d :: ds, r, _, _, hd, h => by
    rw [List.mapM_cons] at h
    obtain ⟨q, r₁, hq, h⟩ := Reads.run_bind_eq_ok.mp h
    obtain ⟨qs, r₂, hqs, h⟩ := Reads.run_bind_eq_ok.mp h
    cases h
    obtain ⟨hfresh, hmaps⟩ := Question.readIn_form (hd d List.mem_cons_self) hq
    obtain ⟨hfreshes, hmaps'⟩ :=
      Question.mapM_readIn_form (fun d' hd' => hd d' (List.mem_cons_of_mem d hd')) hqs
    refine ⟨List.forall_mem_cons.mpr ⟨hfresh, hfreshes⟩, fun m hm => ?_⟩
    exact (hmaps' m hm).elim (hmaps m) .inr

/-! ### Reading blocks -/

/-- Reads the next block, if the blocks under it stand in a list. -/
def Block.readListed (origin fuel : Nat) (entries : List (Document × Document))
    (items : List Document) : Reads Block := do
  let d := Document.map entries
  let key : Key := ⟨origin, (← get).blocks⟩
  modify fun r => { r with blocks := r.blocks + 1 }
  let questions ← (← (d.fieldD "questions" (.list [])).elements).mapM (Question.readIn origin)
  let branchIndex ← readBranchIndex d questions
  let id ← d.required "id"
  let subBlocks ← items.mapM (readIn origin fuel)
  let paradigm ← readParadigm (d.fieldD "branch_paradigm" (.str "none"))
  return {
    key, id, questions, subBlocks, paradigm, branchIndex
    randomizable := d.fieldD "randomizable" (.bool false) }

theorem Block.readIn_listed {origin fuel : Nat} {entries : List (Document × Document)}
    {items : List Document}
    (h : Document.fieldD "sub_blocks" (.map entries) (.list []) = .list items) :
    readIn origin fuel (.map entries) = readListed origin fuel entries items := by
  simp only [Document.fieldD, Document.field?, Document.opened] at h
  rw [readIn, readListed]
  iterate 6 refine bind_congr fun _ => ?_
  split
  · rename_i hnone
    rw [hnone] at h
    cases h
    rfl
  · rename_i listed hlisted
    rw [hlisted] at h
    cases h
    rw [List.mapM_subtype fun _ _ => rfl, List.unattach_attach]
  · rename_i hknot
    rw [hknot] at h
    cases h
  · rename_i other hnone hlist hknot hother
    rw [hother] at h
    exact absurd h (hlist items)

/-- What is read of a block with the blocks under it in a list. -/
theorem Block.readListed_eq_ok {origin fuel : Nat} {entries : List (Document × Document)}
    {items : List Document} {r r' : ReadSoFar} {b : Block}
    (h : (readListed origin fuel entries items).run r = .ok (b, r')) :
    ∃ (things : List Document) (r₁ : ReadSoFar),
      ((Document.map entries).fieldD "questions" (.list [])).elements = .ok things ∧
      (things.mapM (Question.readIn origin)).run { r with blocks := r.blocks + 1 } =
        .ok (b.questions, r₁) ∧
      readBranchIndex (.map entries) b.questions = .ok b.branchIndex ∧
      (Document.map entries).required "id" = .ok b.id ∧
      (items.mapM (readIn origin fuel)).run r₁ = .ok (b.subBlocks, r') := by
  unfold readListed at h
  obtain ⟨r₀, r₁, hget, h₁⟩ := Reads.run_bind_eq_ok.mp h
  cases hget
  obtain ⟨_, r₂, hcount, h₂⟩ := Reads.run_bind_eq_ok.mp h₁
  cases hcount
  obtain ⟨things, r₃, hthings, h₃⟩ := Reads.run_bind_eq_ok.mp h₂
  obtain ⟨helements, rfl⟩ := Reads.run_lift_eq_ok.mp hthings
  obtain ⟨questions, r₄, hquestions, h₄⟩ := Reads.run_bind_eq_ok.mp h₃
  obtain ⟨index, r₅, hindex, h₅⟩ := Reads.run_bind_eq_ok.mp h₄
  obtain ⟨hread, rfl⟩ := Reads.run_lift_eq_ok.mp hindex
  obtain ⟨id, r₆, hid, h₆⟩ := Reads.run_bind_eq_ok.mp h₅
  obtain ⟨hrequired, rfl⟩ := Reads.run_lift_eq_ok.mp hid
  obtain ⟨subBlocks, r₇, hsub, h₇⟩ := Reads.run_bind_eq_ok.mp h₆
  obtain ⟨paradigm, r₈, hparadigm, h₈⟩ := Reads.run_bind_eq_ok.mp h₇
  obtain ⟨-, rfl⟩ := Reads.run_lift_eq_ok.mp hparadigm
  cases h₈
  exact ⟨things, _, helements, hquestions, hread, hrequired, hsub⟩

theorem Block.firstNamed_of_readBranchIndex {d : Document} {b : Block}
    (hfresh : ∀ q ∈ b.questions, q.Fresh)
    (h : readBranchIndex d b.questions = .ok b.branchIndex) : b.FirstNamed := by
  intro i hi
  rw [hi] at h
  unfold readBranchIndex at h
  split at h
  · cases h
  · rename_i named _
    split at h
    · rename_i j hj
      obtain rfl : j = i := by simpa using h
      obtain ⟨hlt, hfound, -⟩ := List.findIdx?_eq_some_iff_getElem.mp hj
      have htext := (hfresh _ (List.getElem_mem hlt)).id
      rw [Document.eq_of_equals htext hfound] at hj
      refine ⟨b.questions[j], List.getElem?_eq_getElem hlt, fun hnull => ?_, hj⟩
      rw [hnull] at htext
      cases htext
    · obtain ⟨_, -, hfail⟩ := bind_eq_ok.mp h
      cases hfail

theorem Document.sizeOf_listed {name : String} {entries : List (Document × Document)}
    {items : List Document} {item : Document}
    (h : (Document.map entries).fieldD name (.list []) = .list items) (hitem : item ∈ items) :
    sizeOf item < sizeOf (Document.map entries) := by
  simp only [fieldD, field?, opened] at h
  cases hlookup : lookup (.str name) entries with
  | none =>
    rw [hlookup, Option.getD_none, Document.list.injEq] at h
    simp [← h] at hitem
  | some v =>
    rw [hlookup, Option.getD_some] at h
    exact sizeOf_item (h ▸ hlookup) hitem

/-- What reading blocks from documents in the form of blocks gives. -/
structure ReadInForm (r r' : ReadSoFar) (bs : List Block) : Prop where
  ids : ∀ b ∈ Block.preorders bs, b.id.isText = true
  branchQuestion : ∀ b ∈ Block.preorders bs, b.FirstNamed
  questions : ∀ q ∈ questionsUnder bs, q.Fresh
  maps : ∀ m ∈ r'.maps, m ∈ r.maps ∨ m.IsTable

theorem ReadInForm.nil (r : ReadSoFar) : ReadInForm r r [] where
  ids := by simp [Block.preorders]
  branchQuestion := by simp [Block.preorders]
  questions := by simp [questionsUnder, Block.preorders]
  maps := fun _ hm => .inl hm

theorem ReadInForm.append {r₁ r₂ r₃ : ReadSoFar} {as bs : List Block} (ha : ReadInForm r₁ r₂ as)
    (hb : ReadInForm r₂ r₃ bs) : ReadInForm r₁ r₃ (as ++ bs) where
  ids := by
    rw [Block.preorders_append]
    exact List.forall_mem_append.mpr ⟨ha.ids, hb.ids⟩
  branchQuestion := by
    rw [Block.preorders_append]
    exact List.forall_mem_append.mpr ⟨ha.branchQuestion, hb.branchQuestion⟩
  questions := by
    rw [questionsUnder_append]
    exact List.forall_mem_append.mpr ⟨ha.questions, hb.questions⟩
  maps := fun m hm => (hb.maps m hm).elim (ha.maps m) .inr

theorem ReadInForm.of_mapM {read : Document → Reads Block} : ∀ {items : List Document},
    (∀ item ∈ items, ∀ r b r', (read item).run r = .ok (b, r') → ReadInForm r r' [b]) →
      ∀ {r bs r'}, (items.mapM read).run r = .ok (bs, r') → ReadInForm r r' bs
  | [], _, r, bs, r', h => by
    cases h
    exact .nil r
  | item :: items, hread, r, bs, r', h => by
    rw [List.mapM_cons] at h
    obtain ⟨b, r₁, hb, h⟩ := Reads.run_bind_eq_ok.mp h
    obtain ⟨rest, r₂, hrest, h⟩ := Reads.run_bind_eq_ok.mp h
    cases h
    exact (hread item List.mem_cons_self _ _ _ hb).append
      (of_mapM (fun d hd => hread d (List.mem_cons_of_mem item hd)) hrest)

/-- **A block read from a document in the form of a block names its references first.** -/
theorem Block.readIn_form (origin fuel : Nat) (d : Document) (hd : d.isBlockForm = true)
    {r r' : ReadSoFar} {b : Block} (h : (readIn origin fuel d).run r = .ok (b, r')) :
    ReadInForm r r' [b] := by
  match d with
  | .map entries =>
    rw [Document.isBlockForm_eq] at hd
    -- the questions and the blocks under the block have their forms
    have hquestions := Document.check_fieldD "questions" (.list []) hd rfl
    rw [Document.isBlockField_questions] at hquestions
    have hlisted := Document.check_fieldD "sub_blocks" (.list []) hd rfl
    obtain ⟨items, hitems, hforms⟩ := Document.isBlockField_subBlocks hlisted
    rw [readIn_listed hitems] at h
    obtain ⟨things, r₁, hthings, hown, hindex, hid, hunder⟩ := readListed_eq_ok h
    obtain ⟨hfresh, hmaps⟩ :=
      Question.mapM_readIn_form (Document.check_of_elements hquestions hthings) hown
    have inner : ReadInForm r₁ r' b.subBlocks := by
      refine .of_mapM (fun item hitem _ _ _ hread => ?_) hunder
      exact readIn_form origin fuel item (hforms item hitem) hread
    have htext := Document.check_of_required "id" hd hid
    rw [Document.isBlockField_id] at htext
    have hnodes : preorders [b] = b :: preorders b.subBlocks := by simp [preorders, preorder_eq]
    have hbelow : questionsUnder [b] = b.questions ++ questionsUnder b.subBlocks := by
      simp [questionsUnder, hnodes]
    constructor
    · rw [hnodes]
      exact List.forall_mem_cons.mpr ⟨htext, inner.ids⟩
    · rw [hnodes]
      exact List.forall_mem_cons.mpr
        ⟨firstNamed_of_readBranchIndex hfresh hindex, inner.branchQuestion⟩
    · rw [hbelow]
      exact List.forall_mem_append.mpr ⟨hfresh, inner.questions⟩
    · exact fun m hm => (inner.maps m hm).elim (hmaps m) .inr
termination_by sizeOf d
decreasing_by exact Document.sizeOf_listed hitems hitem

theorem readBlocks_form {origin : Nat} {d : Document} (hd : d.isSurveyForm = true)
    {r r' : ReadSoFar} {bs : List Block} (h : (readBlocks origin d).run r = .ok (bs, r')) :
    ReadInForm r r' bs := by
  have hlist : (d.fieldD "blocks" (.list [])).isListOf Document.isBlockForm = true :=
    Document.check_fieldD "blocks" _ hd rfl
  unfold readBlocks at h
  cases hblocks : d.fieldD "blocks" (.list []) with
  | list items =>
    rw [hblocks] at h hlist
    have hforms := List.all_eq_true.mp hlist
    exact .of_mapM (fun item hitem _ _ _ hread =>
      Block.readIn_form origin _ item (hforms item hitem) hread) h
  | _ =>
    rw [hblocks] at hlist
    cases hlist

/-! ### Resolving the branches -/

namespace BranchMap

theorem resolveEntry_eq_ok {blocks : List Block} {q : Question} {choiceId blockId : Document}
    {branch : Choice × Key} (h : resolveEntry blocks q choiceId blockId = .ok branch) :
    q.choice? choiceId = some branch.1 ∧ branch.1.isKey = true ∧
      ∃ b, blocks.find? (·.id.equals blockId) = some b ∧ b.key = branch.2 := by
  unfold resolveEntry at h
  split at h
  · cases h
  · rename_i c hc
    split at h
    · cases h
    · rename_i b hb
      split at h
      · rename_i hkey
        cases h
        exact ⟨hc, hkey, b, hb, rfl⟩
      · cases h

/-- The choice of a branch has the id that the map names. -/
theorem id_of_resolveEntry {blocks : List Block} {q : Question} {choiceId blockId : Document}
    {branch : Choice × Key} (hq : q.Fresh)
    (h : resolveEntry blocks q choiceId blockId = .ok branch) : branch.1.id = choiceId := by
  have hc := (resolveEntry_eq_ok h).1
  have htext := hq.choices _ (List.mem_of_find?_eq_some hc)
  exact (Document.eq_of_equals htext (by simpa using List.find?_some hc)).symm

theorem ids_of_resolve {blocks : List Block} {q : Question} (hq : q.Fresh) :
    ∀ {entries : List (Document × Document)} {branches : List (Choice × Key)},
      List.Forall₂ (fun e branch => resolveEntry blocks q e.1 e.2 = .ok branch) entries branches →
        branches.map (·.1.id) = entries.map (·.1)
  | _, _, .nil => rfl
  | _, _, .cons h rest => by
    rw [List.map_cons, List.map_cons, id_of_resolveEntry hq h, ids_of_resolve hq rest]

/-- **Each branch of a map in which every key stands once is named by the first ids.** -/
theorem firstNamed_of_resolve {blocks : List Block} {m : BranchMap} {q : Question}
    (htable : m.IsTable) (hfresh : m.question.Fresh) (hids : ∀ b ∈ blocks, b.id.isText = true)
    (hchoices : q.choices = m.question.choices) (h : m.resolve blocks = .ok q.branches) :
    q.FirstNamed blocks := by
  obtain ⟨entries, hentries, honce⟩ := htable
  rw [resolve, hentries] at h
  have hresolved : List.Forall₂ (fun e branch => resolveEntry blocks m.question e.1 e.2 =
    .ok branch) entries q.branches := forall₂_of_mapM h
  have of_branch : ∀ branch ∈ q.branches, ∃ blockId,
      resolveEntry blocks m.question branch.1.id blockId = .ok branch := by
    intro branch hbranch
    obtain ⟨e, -, he⟩ := exists_of_mem_right hresolved hbranch
    exact ⟨e.2, by rw [id_of_resolveEntry hfresh he]; exact he⟩
  constructor
  · have hkeys : (entries.map (·.1)).Pairwise fun k l => (k == l) = false :=
      List.pairwise_map.mpr honce
    rw [← ids_of_resolve hfresh hresolved] at hkeys
    exact List.pairwise_map.mp hkeys
  · intro branch hbranch
    obtain ⟨blockId, hentry⟩ := of_branch branch hbranch
    rw [Question.choice?, hchoices]
    exact (resolveEntry_eq_ok hentry).1
  · intro branch hbranch
    obtain ⟨blockId, hentry⟩ := of_branch branch hbranch
    exact (resolveEntry_eq_ok hentry).2.1
  · intro branch hbranch
    obtain ⟨blockId, hentry⟩ := of_branch branch hbranch
    obtain ⟨-, -, b, hb, hkey⟩ := resolveEntry_eq_ok hentry
    have htext := hids b (List.mem_of_find?_eq_some hb)
    have hid : blockId = b.id := Document.eq_of_equals htext (by simpa using List.find?_some hb)
    exact ⟨b, hkey, hid ▸ hb⟩

end BranchMap

section Branches

variable (found : List (Key × List (Choice × Key)))

@[simp] theorem Block.id_withBranches (b : Block) : (b.withBranches found).id = b.id := by
  cases b; rw [withBranches]

@[simp] theorem Block.branchIndex_withBranches (b : Block) :
    (b.withBranches found).branchIndex = b.branchIndex := by
  cases b; rw [withBranches]

variable {found}

theorem Block.FirstNamed.withBranches {b : Block} (h : b.FirstNamed) :
    (b.withBranches found).FirstNamed := by
  intro i hi
  rw [branchIndex_withBranches] at hi
  obtain ⟨q, hq, hid, hfirst⟩ := h i hi
  refine ⟨q.withBranches found, ?_, hid, ?_⟩
  · rw [questions_withBranches, List.getElem?_map, hq, Option.map_some]
  · rw [questions_withBranches, List.findIdx?_map]
    exact hfirst

/-- The branches lead to blocks as they are before any of them has its branches. -/
theorem Question.FirstNamed.map_withBranches {q : Question} {blocks : List Block}
    (h : q.FirstNamed blocks) : q.FirstNamed (blocks.map (·.withBranches found)) where
  once := h.once
  choice := h.choice
  isKey := h.isKey
  target := by
    intro branch hbranch
    obtain ⟨b, hkey, hb⟩ := h.target branch hbranch
    refine ⟨b.withBranches found, by rw [Block.key_withBranches, hkey], ?_⟩
    rw [List.find?_map, Function.comp_def, Block.id_withBranches]
    simp only [Block.id_withBranches, hb, Option.map_some]

end Branches

namespace Survey

/-- **A survey that was read from a document in the form of a survey is settled.** -/
theorem settled_of_ofDocument {origin : Nat} {d : Document} {s : Survey}
    (hd : d.isSurveyForm = true) (h : ofDocument origin d = .ok s) : s.Settled origin := by
  unfold ofDocument at h
  obtain ⟨_, -, h₁⟩ := bind_eq_ok.mp h
  obtain ⟨⟨blocks, read⟩, hread, h₂⟩ := bind_eq_ok.mp h₁
  obtain ⟨found, hfound, h₃⟩ := bind_eq_ok.mp h₂
  cases h₃
  have numbered := readBlocks_numbered hread
  have form := readBlocks_form hd hread
  obtain ⟨maps, (hmaps : read.maps = maps), held⟩ := numbered.maps
  have hquestions : ((questionsUnder blocks).map (·.key)).Nodup := by
    rw [numbered.questions]
    exact keysBetween_nodup _ _ _
  have hblocks : Block.preorders (blocksWithBranches found blocks) =
      (Block.preorders blocks).map (·.withBranches found) := preorders_blocksWithBranches found blocks
  have hunder : questionsUnder (blocksWithBranches found blocks) =
      (questionsUnder blocks).map (·.withBranches found) :=
    questionsUnder_blocksWithBranches found blocks
  constructor
  · have hkeys : (Block.preorders (blocksWithBranches found blocks)).map (·.key) =
        keysBetween origin 0 read.blocks := by
      rw [hblocks, List.map_map, ← numbered.blocks]
      exact List.map_congr_left fun b _ => b.key_withBranches found
    exact keysBetween_length hkeys
  · have hkeys : (questionsUnder (blocksWithBranches found blocks)).map (·.key) =
        keysBetween origin 0 read.questions := by
      rw [hunder, List.map_map, ← numbered.questions]
      rfl
    exact keysBetween_length hkeys
  · intro b hb
    rw [allBlocks, hblocks] at hb
    obtain ⟨b₀, hb₀, rfl⟩ := List.mem_map.mp hb
    exact (form.branchQuestion b₀ hb₀).withBranches
  · intro q hq
    rw [questions_eq, hunder] at hq
    obtain ⟨q₀, hq₀, rfl⟩ := List.mem_map.mp hq
    rw [allBlocks, hblocks]
    rcases branches_of_found hquestions (hmaps ▸ held) hfound hq₀ with
      hnone | ⟨m, hm, rfl, hresolve⟩
    · constructor <;> simp [hnone]
    · have htable : m.IsTable := (form.maps m hm).resolve_left (by simp)
      have named : (m.question.withBranches found).FirstNamed (Block.preorders blocks) :=
        m.firstNamed_of_resolve htable (form.questions _ hq₀) form.ids rfl hresolve
      exact named.map_withBranches

end Survey

end Questionnaire
