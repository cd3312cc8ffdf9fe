/-
# The nodes of a survey that was read

Reading numbers blocks and questions in depth-first order, so no two blocks and
no two questions of a survey share a key. Resolving the branches keeps the
nodes as they are and lets a question branch on its own choices only.

Key definitions: `Numbered`, `Survey.Coherent`.
Key theorems: `Block.readIn_numbered`, `Survey.coherent_of_ofDocument`.
-/
import Mathlib.Data.List.Nodup
import Questionnaire.Proofs.Success
import Questionnaire.Proofs.Survey.Tree
import Questionnaire.Survey.Reading

namespace Questionnaire

/-! ### Reading with a count -/

namespace Reads

variable {α β : Type}

theorem run_bind_eq_ok {x : Reads α} {f : α → Reads β} {r : ReadSoFar} {p : β × ReadSoFar} :
    (x >>= f).run r = .ok p ↔ ∃ y r₁, x.run r = .ok (y, r₁) ∧ (f y).run r₁ = .ok p := by
  rw [StateT.run_bind, bind_eq_ok]
  simp only [Prod.exists]

theorem run_lift_eq_ok {x : Except Fault α} {r r' : ReadSoFar} {y : α} :
    (liftM x : Reads α).run r = .ok (y, r') ↔ x = .ok y ∧ r' = r := by
  cases x <;> simp [bind, Except.bind, pure, Except.pure, eq_comm]

end Reads

/-- The keys that are given to nodes from one count up to another. -/
def keysBetween (origin first last : Nat) : List Key :=
  (List.range' first (last - first)).map (Key.mk origin)

theorem keysBetween_self (origin n : Nat) : keysBetween origin n n = [] := by
  simp [keysBetween]

theorem keysBetween_succ (origin n : Nat) : keysBetween origin n (n + 1) = [⟨origin, n⟩] := by
  simp [keysBetween]

theorem keysBetween_length {α : Type} {origin n : Nat} {key : α → Key} {xs : List α}
    (h : xs.map key = keysBetween origin 0 n) : xs.map key = keysBetween origin 0 xs.length := by
  have hlength : xs.length = n := by simpa [keysBetween] using congrArg List.length h
  rw [h, hlength]

theorem keysBetween_append (origin : Nat) {a b c : Nat} (hab : a ≤ b) (hbc : b ≤ c) :
    keysBetween origin a b ++ keysBetween origin b c = keysBetween origin a c := by
  unfold keysBetween
  rw [← List.map_append]
  have h := @List.range'_append a (b - a) (c - b) 1
  rw [show a + 1 * (b - a) = b by omega, show b - a + (c - b) = c - a by omega] at h
  rw [h]

theorem keysBetween_nodup (origin a b : Nat) : (keysBetween origin a b).Nodup :=
  List.Nodup.map (fun _ _ h => congrArg Key.index h) (List.nodup_range' 1)

/-- Blocks whose nodes took the keys from one count up to another, in order, with the branch
maps that were put aside meanwhile. -/
structure Numbered (origin : Nat) (r r' : ReadSoFar) (bs : List Block) : Prop where
  blocks_le : r.blocks ≤ r'.blocks
  questions_le : r.questions ≤ r'.questions
  blocks : (Block.preorders bs).map (·.key) = keysBetween origin r.blocks r'.blocks
  questions : (questionsUnder bs).map (·.key) = keysBetween origin r.questions r'.questions
  maps : ∃ new, r'.maps = r.maps ++ new ∧ ∀ m ∈ new, m.question ∈ questionsUnder bs

theorem Numbered.nil (origin : Nat) (r : ReadSoFar) : Numbered origin r r [] where
  blocks_le := Nat.le_refl _
  questions_le := Nat.le_refl _
  blocks := by rw [keysBetween_self]; rfl
  questions := by rw [keysBetween_self]; rfl
  maps := ⟨[], by simp⟩

theorem Numbered.append {origin : Nat} {r₁ r₂ r₃ : ReadSoFar} {as bs : List Block}
    (ha : Numbered origin r₁ r₂ as) (hb : Numbered origin r₂ r₃ bs) :
    Numbered origin r₁ r₃ (as ++ bs) where
  blocks_le := Nat.le_trans ha.blocks_le hb.blocks_le
  questions_le := Nat.le_trans ha.questions_le hb.questions_le
  blocks := by
    rw [Block.preorders_append, List.map_append, ha.blocks, hb.blocks,
      keysBetween_append _ ha.blocks_le hb.blocks_le]
  questions := by
    rw [questionsUnder_append, List.map_append, ha.questions, hb.questions,
      keysBetween_append _ ha.questions_le hb.questions_le]
  maps := by
    obtain ⟨m₁, h₁, hm₁⟩ := ha.maps
    obtain ⟨m₂, h₂, hm₂⟩ := hb.maps
    refine ⟨m₁ ++ m₂, by rw [h₂, h₁, List.append_assoc], fun m hm => ?_⟩
    rw [questionsUnder_append, List.mem_append]
    exact (List.mem_append.mp hm).imp (hm₁ m) (hm₂ m)

/-- Blocks read one after another are numbered one after another. -/
theorem Numbered.of_mapM {α : Type} {origin : Nat} {read : α → Reads Block} :
    ∀ {xs : List α}, (∀ x ∈ xs, ∀ r b r', (read x).run r = .ok (b, r') → Numbered origin r r' [b]) →
      ∀ {r bs r'}, (xs.mapM read).run r = .ok (bs, r') → Numbered origin r r' bs
  | [], _, r, bs, r', h => by
    cases h
    exact .nil origin r
  | x :: xs, hread, r, bs, r', h => by
    rw [List.mapM_cons] at h
    obtain ⟨b, r₁, hb, h⟩ := Reads.run_bind_eq_ok.mp h
    obtain ⟨rest, r₂, hrest, h⟩ := Reads.run_bind_eq_ok.mp h
    cases h
    exact (hread x List.mem_cons_self _ _ _ hb).append
      (of_mapM (fun y hy => hread y (List.mem_cons_of_mem x hy)) hrest)

/-! ### Reading questions -/

/-- What reading a block's own questions does to the count. -/
structure OwnNumbered (origin : Nat) (r r' : ReadSoFar) (qs : List Question) : Prop where
  blocks : r'.blocks = r.blocks
  questions_le : r.questions ≤ r'.questions
  questions : qs.map (·.key) = keysBetween origin r.questions r'.questions
  maps : ∃ new, r'.maps = r.maps ++ new ∧ ∀ m ∈ new, m.question ∈ qs

theorem Question.key_of_ofDocument {key : Key} {d : Document} {q : Question}
    (h : Question.ofDocument key d = .ok q) : q.key = key := by
  unfold Question.ofDocument at h
  obtain ⟨id, -, h⟩ := bind_eq_ok.mp h
  obtain ⟨things, -, h⟩ := bind_eq_ok.mp h
  obtain ⟨choices, -, h⟩ := bind_eq_ok.mp h
  cases h
  rfl

theorem Question.readIn_eq_ok {origin : Nat} {d : Document} {r r' : ReadSoFar} {q : Question}
    (h : (Question.readIn origin d).run r = .ok (q, r')) : OwnNumbered origin r r' [q] := by
  unfold Question.readIn at h
  obtain ⟨r₀, r₁, hget, h₁⟩ := Reads.run_bind_eq_ok.mp h
  cases hget
  obtain ⟨q', r₂, hlift, h₂⟩ := Reads.run_bind_eq_ok.mp h₁
  obtain ⟨hq, hr⟩ := Reads.run_lift_eq_ok.mp hlift
  subst hr
  cases h₂
  refine ⟨rfl, Nat.le_succ _, ?_, _, rfl, fun m hm => ?_⟩
  · rw [keysBetween_succ, List.map_singleton, Question.key_of_ofDocument hq]
  · split at hm <;> simp_all

theorem OwnNumbered.of_mapM {origin : Nat} : ∀ {ds : List Document} {r r' : ReadSoFar}
    {qs : List Question}, (ds.mapM (Question.readIn origin)).run r = .ok (qs, r') →
      OwnNumbered origin r r' qs
  | [], r, _, _, h => by
    cases h
    exact ⟨rfl, Nat.le_refl _, (keysBetween_self _ _).symm, [], by simp⟩
  | d :: ds, r, _, _, h => by
    rw [List.mapM_cons] at h
    obtain ⟨q, r₁, hq, h⟩ := Reads.run_bind_eq_ok.mp h
    obtain ⟨qs, r₂, hqs, h⟩ := Reads.run_bind_eq_ok.mp h
    cases h
    have head := Question.readIn_eq_ok hq
    have tail := of_mapM hqs
    obtain ⟨m₁, h₁, hm₁⟩ := head.maps
    obtain ⟨m₂, h₂, hm₂⟩ := tail.maps
    refine ⟨tail.blocks.trans head.blocks, Nat.le_trans head.questions_le tail.questions_le, ?_,
      m₁ ++ m₂, by rw [h₂, h₁, List.append_assoc], fun m hm => ?_⟩
    · rw [← keysBetween_append _ head.questions_le tail.questions_le, ← head.questions,
        ← tail.questions]
      rfl
    · rcases List.mem_append.mp hm with hm | hm
      · exact List.mem_cons.mpr (.inl (List.mem_singleton.mp (hm₁ m hm)))
      · exact List.mem_cons_of_mem q (hm₂ m hm)

/-! ### Reading blocks -/

/-- A block is numbered before its questions, and these before the blocks under it. -/
theorem Numbered.of_parts {origin : Nat} {r r₁ r₂ : ReadSoFar} {b : Block}
    (hkey : b.key = ⟨origin, r.blocks⟩)
    (own : OwnNumbered origin { r with blocks := r.blocks + 1 } r₁ b.questions)
    (inner : Numbered origin r₁ r₂ b.subBlocks) : Numbered origin r r₂ [b] := by
  have hblocks : r₁.blocks = r.blocks + 1 := own.blocks
  have hle := inner.blocks_le
  refine ⟨by omega, Nat.le_trans own.questions_le inner.questions_le, ?_, ?_, ?_⟩
  · rw [Block.preorders_cons, List.map_cons, List.map_append, inner.blocks, hblocks, hkey,
      ← keysBetween_append origin (Nat.le_succ r.blocks) (by omega), keysBetween_succ]
    simp [Block.preorders]
  · rw [questionsUnder_cons, Block.allQuestions_eq, List.map_append, List.map_append,
      own.questions, inner.questions,
      ← keysBetween_append origin own.questions_le inner.questions_le]
    simp [questionsUnder, Block.preorders]
  · obtain ⟨m₁, h₁, hm₁⟩ := own.maps
    obtain ⟨m₂, h₂, hm₂⟩ := inner.maps
    refine ⟨m₁ ++ m₂, by rw [h₂, h₁, List.append_assoc], fun m hm => ?_⟩
    rw [questionsUnder_cons, List.mem_append, Block.allQuestions_eq, List.mem_append]
    exact .inl ((List.mem_append.mp hm).imp (hm₁ m) (hm₂ m))

theorem Block.numbered_of_readNoBlocks {origin : Nat} {d : Document} {r r' : ReadSoFar}
    {bs : List Block} (h : (liftM (readNoBlocks d) : Reads (List Block)).run r = .ok (bs, r')) :
    Numbered origin r r' bs := by
  obtain ⟨hread, rfl⟩ := Reads.run_lift_eq_ok.mp h
  unfold readNoBlocks at hread
  obtain ⟨things, -, hthings⟩ := bind_eq_ok.mp hread
  split at hthings <;> cases hthings
  exact .nil origin _

/-- However the blocks under a block are read, the block is numbered with them. -/
theorem Block.numbered_of_read {origin : Nat} {r r₁ r' : ReadSoFar} {b : Block} {id : Document}
    {questions : List Question} {randomizable : Document} {index : Option Nat}
    {readSubBlocks : Reads (List Block)} {paradigm : Except Fault Paradigm}
    (own : OwnNumbered origin { r with blocks := r.blocks + 1 } r₁ questions)
    (inner : ∀ {subBlocks r₂}, readSubBlocks.run r₁ = .ok (subBlocks, r₂) →
      Numbered origin r₁ r₂ subBlocks)
    (h : (readSubBlocks >>= fun subBlocks => liftM paradigm >>= fun paradigm =>
      pure (Block.mk ⟨origin, r.blocks⟩ id questions subBlocks randomizable paradigm index)).run r₁
        = .ok (b, r')) : Numbered origin r r' [b] := by
  obtain ⟨subBlocks, r₂, hsub, h₁⟩ := Reads.run_bind_eq_ok.mp h
  obtain ⟨_, r₃, hparadigm, h₂⟩ := Reads.run_bind_eq_ok.mp h₁
  obtain ⟨-, hr⟩ := Reads.run_lift_eq_ok.mp hparadigm
  subst hr
  cases h₂
  exact .of_parts rfl own (inner hsub)

/-- **Blocks are numbered depth first.** -/
theorem Block.readIn_numbered (origin fuel : Nat) (d : Document) {r r' : ReadSoFar} {b : Block}
    (h : (readIn origin fuel d).run r = .ok (b, r')) : Numbered origin r r' [b] := by
  match d, fuel with
  | .knot nodes place, 0 =>
    rw [readIn] at h
    cases h
  | .knot nodes place, fuel + 1 =>
    rw [readIn] at h
    exact readIn_numbered origin fuel _ h
  | .map entries, fuel =>
    rw [readIn] at h
    obtain ⟨r₀, r₁, hget, h₁⟩ := Reads.run_bind_eq_ok.mp h
    cases hget
    obtain ⟨_, r₂, hcount, h₂⟩ := Reads.run_bind_eq_ok.mp h₁
    cases hcount
    obtain ⟨things, r₃, hthings, h₃⟩ := Reads.run_bind_eq_ok.mp h₂
    obtain ⟨-, rfl⟩ := Reads.run_lift_eq_ok.mp hthings
    obtain ⟨questions, r₄, hquestions, h₄⟩ := Reads.run_bind_eq_ok.mp h₃
    have own := OwnNumbered.of_mapM hquestions
    obtain ⟨index, r₅, hindex, h₅⟩ := Reads.run_bind_eq_ok.mp h₄
    obtain ⟨-, rfl⟩ := Reads.run_lift_eq_ok.mp hindex
    obtain ⟨id, r₆, hid, h₆⟩ := Reads.run_bind_eq_ok.mp h₅
    obtain ⟨-, rfl⟩ := Reads.run_lift_eq_ok.mp hid
    -- the ways in which the field may list blocks
    split at h₆
    · refine numbered_of_read own (fun hsub => ?_) h₆
      cases hsub
      exact .nil origin _
    · rename_i items hlookup
      refine numbered_of_read own (fun hsub => ?_) h₆
      exact .of_mapM (fun item _ _ _ _ hitem => readIn_numbered origin fuel item.val hitem) hsub
    · split at h₆
      · refine numbered_of_read own (fun hsub => ?_) h₆
        cases hsub
      · exact numbered_of_read own
          (.of_mapM fun item _ _ _ _ hitem => readIn_numbered origin _ item hitem) h₆
      · exact numbered_of_read own numbered_of_readNoBlocks h₆
    · exact numbered_of_read own numbered_of_readNoBlocks h₆
  | .null, _ | .bool _, _ | .int _, _ | .float _, _ | .nan _, _ | .str _, _ | .bytes _, _
  | .day _, _ | .moment _, _ | .list _, _ | .pair _ _, _ | .set _, _ | .link _ _, _ =>
    rw [readIn] at h
    · cases h
    · simp
    · simp
termination_by (fuel, sizeOf d)
decreasing_by
  · exact Prod.Lex.left _ _ (Nat.lt_succ_self _)
  · exact Prod.Lex.right _ (Document.sizeOf_item ‹_› item.property)
  · exact Prod.Lex.left _ _ (by omega)

theorem readBlocks_numbered {origin : Nat} {d : Document} {r r' : ReadSoFar} {bs : List Block}
    (h : (readBlocks origin d).run r = .ok (bs, r')) : Numbered origin r r' bs := by
  unfold readBlocks at h
  split at h
  · exact .of_mapM (fun item _ _ _ _ hitem => Block.readIn_numbered origin _ item hitem) h
  · exact Block.numbered_of_readNoBlocks h

/-! ### Branches -/

section Branches

variable (found : List (Key × List (Choice × Key)))

@[simp] theorem Block.key_withBranches (b : Block) : (b.withBranches found).key = b.key := by
  cases b; rw [withBranches]

@[simp] theorem Block.questions_withBranches (b : Block) :
    (b.withBranches found).questions = b.questions.map (·.withBranches found) := by
  cases b; rw [withBranches]

mutual

theorem preorder_withBranches : ∀ b : Block,
    (b.withBranches found).preorder = b.preorder.map (·.withBranches found)
  | ⟨key, id, questions, subBlocks, randomizable, paradigm, branchIndex⟩ => by
    rw [Block.withBranches, Block.preorder, Block.preorder, preorders_blocksWithBranches subBlocks,
      List.map_cons, Block.withBranches]

theorem preorders_blocksWithBranches : ∀ bs : List Block,
    Block.preorders (blocksWithBranches found bs) = (Block.preorders bs).map (·.withBranches found)
  | [] => rfl
  | b :: bs => by
    rw [blocksWithBranches, Block.preorders, Block.preorders, preorder_withBranches b,
      preorders_blocksWithBranches bs, List.map_append]

end

theorem questionsUnder_blocksWithBranches (bs : List Block) :
    questionsUnder (blocksWithBranches found bs) =
      (questionsUnder bs).map (·.withBranches found) := by
  simp only [questionsUnder, preorders_blocksWithBranches, List.flatMap_map, List.map_flatMap,
    Block.questions_withBranches]

end Branches

/-- What a branch map gives are branches on the question's own choices. -/
theorem BranchMap.offered_of_resolve {blocks : List Block} {m : BranchMap}
    {branches : List (Choice × Key)} (h : m.resolve blocks = .ok branches) :
    ∀ branch ∈ branches, branch.1 ∈ m.question.choices := by
  unfold BranchMap.resolve at h
  obtain ⟨entries, -, hentries⟩ := bind_eq_ok.mp h
  intro branch hbranch
  obtain ⟨⟨choiceId, blockId⟩, -, hentry⟩ :=
    exists_of_mem_right (forall₂_of_mapM hentries) hbranch
  simp only [resolveEntry] at hentry
  split at hentry
  · cases hentry
  · rename_i c hc
    split at hentry
    · cases hentry
    · split at hentry <;> cases hentry
      exact List.mem_of_find?_eq_some hc

/-- A question has the branches that its own branch map gives. -/
theorem branches_of_found {blocks allBlocks : List Block} {maps : List BranchMap}
    {found : List (Key × List (Choice × Key))}
    (hnodup : ((questionsUnder blocks).map (·.key)).Nodup)
    (held : ∀ m ∈ maps, m.question ∈ questionsUnder blocks)
    (hfound : maps.mapM (fun m => do return (m.question.key, ← m.resolve allBlocks)) = .ok found)
    {q : Question} (hq : q ∈ questionsUnder blocks) :
    (q.withBranches found).branches = [] ∨ ∃ m ∈ maps, m.question = q ∧
      m.resolve allBlocks = .ok (q.withBranches found).branches := by
  unfold Question.withBranches
  cases hlookup : found.lookup q.key with
  | none => exact .inl rfl
  | some branches =>
    refine .inr ?_
    rw [Option.getD_some]
    obtain ⟨before, after, hsplit, -⟩ := List.lookup_eq_some_iff.mp hlookup
    have hmem : (q.key, branches) ∈ found := hsplit ▸ List.mem_append_right _ List.mem_cons_self
    obtain ⟨m, hm, hresolve⟩ := exists_of_mem_right (forall₂_of_mapM hfound) hmem
    obtain ⟨branches', hresolved, heq⟩ := bind_eq_ok.mp hresolve
    obtain ⟨hkey, rfl⟩ := Prod.mk.inj (Except.ok.inj heq)
    exact ⟨m, hm, List.inj_on_of_nodup_map hnodup (held m hm) hq hkey, hresolved⟩

namespace Survey

/-- No two nodes of the survey share a key, and its questions branch on their own choices only. -/
structure Coherent (s : Survey) : Prop where
  blocks : (s.allBlocks.map (·.key)).Nodup
  questions : (s.questions.map (·.key)).Nodup
  offered : ∀ q ∈ s.questions, ∀ branch ∈ q.branches, branch.1 ∈ q.choices

/-- **A survey that was read is coherent.** -/
theorem coherent_of_ofDocument {origin : Nat} {d : Document} {s : Survey}
    (h : ofDocument origin d = .ok s) : s.Coherent := by
  unfold ofDocument at h
  obtain ⟨_, -, h₁⟩ := bind_eq_ok.mp h
  obtain ⟨⟨blocks, read⟩, hread, h₂⟩ := bind_eq_ok.mp h₁
  obtain ⟨found, hfound, h₃⟩ := bind_eq_ok.mp h₂
  cases h₃
  have numbered := readBlocks_numbered hread
  obtain ⟨maps, (hmaps : read.maps = maps), held⟩ := numbered.maps
  have hquestions : ((questionsUnder blocks).map (·.key)).Nodup := by
    rw [numbered.questions]
    exact keysBetween_nodup _ _ _
  refine ⟨?_, ?_, ?_⟩
  · have hkeys : (Block.preorders blocks).map (fun b => (b.withBranches found).key) =
        (Block.preorders blocks).map (·.key) :=
      List.map_congr_left fun b _ => b.key_withBranches found
    rw [allBlocks, preorders_blocksWithBranches, List.map_map, Function.comp_def, hkeys,
      numbered.blocks]
    exact keysBetween_nodup _ _ _
  · change ((questionsUnder (blocksWithBranches found blocks)).map (·.key)).Nodup
    rw [questionsUnder_blocksWithBranches, List.map_map]
    exact hquestions
  · intro q hq branch hbranch
    change q ∈ questionsUnder (blocksWithBranches found blocks) at hq
    rw [questionsUnder_blocksWithBranches] at hq
    obtain ⟨q₀, hq₀, rfl⟩ := List.mem_map.mp hq
    rcases branches_of_found hquestions (hmaps ▸ held) hfound hq₀ with
      hnone | ⟨m, -, rfl, hresolve⟩
    · simp [hnone] at hbranch
    · exact m.offered_of_resolve hresolve branch hbranch

end Survey

end Questionnaire
