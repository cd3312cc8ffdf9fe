/-
# Ways through blocks in order

From a block one may go on to those of its destinations that come later, and to
the next block if it has no branching question or falls through. A way begins
with the first block, takes such steps and ends with the last block, which must
be one that could be left for a next one. Chains are found by cutting the list
at each place where one may go on, and they are the ways: no destination is
followed back, and a branching block from which nothing comes later ends none.

Key definitions: `Block.MayGoTo`, `IsWay`.
Key theorems: `mayGoTo_iff_start`, `exists_way_through`, `mem_chains_iff`,
`chains_succeed_iff`, `lists_ways`.
-/
import Mathlib.Logic.Relation
import Questionnaire.Proofs.Path.WellFormed

namespace Questionnaire

open Relation

/-- One may go on from the block to the other, which comes later: as to one of its destinations, or
as to the next block if it has that exit. -/
def Block.MayGoTo (bs : List Block) (b c : Block) : Prop :=
  ∃ mid after, b :: (mid ++ c :: after) <:+ bs ∧
    (mid = [] ∧ b.HasExit none ∨ b.HasExit (some c.key))

/-- A way through the blocks from one of them to the last. -/
structure IsWay (bs : List Block) (b : Block) (way : List Block) : Prop where
  first : way.head? = some b
  steps : way.IsChain (Block.MayGoTo bs)
  last : ∃ c, way.getLast? = some c ∧ bs.getLast? = some c ∧ c.HasExit none

variable {bs rest : List Block} {b c : Block} {starts : List Nat} {found : List (List Block)}

/-! ### One step -/

/-- In blocks without repetitions only one list of blocks follows a block. -/
theorem suffix_unique (hkeys : (bs.map (·.key)).Nodup) {after : List Block} (h : b :: rest <:+ bs)
    (h' : b :: after <:+ bs) : rest = after := by
  obtain ⟨before, hsplit⟩ := h
  obtain ⟨before', hsplit'⟩ := h'
  exact after_eq_of_nodup hkeys hsplit.symm hsplit'.symm

theorem suffix_of_drop {i : Nat} {after : List Block} (hsuffix : b :: rest <:+ bs)
    (hdrop : rest.drop i = c :: after) : c :: after <:+ bs :=
  hdrop ▸ (List.drop_suffix i rest).trans ((List.suffix_cons b rest).trans hsuffix)

theorem length_lt_of_drop {i : Nat} {after : List Block} (hdrop : rest.drop i = c :: after) :
    after.length < rest.length := by
  have hlength := congrArg List.length hdrop
  simp only [List.length_drop, List.length_cons] at hlength
  omega

/-- One may go on to the blocks with which the lists begin that are left at the starts. -/
theorem mayGoTo_iff_start (hkeys : (bs.map (·.key)).Nodup) (hsuffix : b :: rest <:+ bs)
    (hstarts : b.starts rest = .ok starts) :
    b.MayGoTo bs c ↔ ∃ i ∈ starts, ∃ after, rest.drop i = c :: after := by
  constructor
  · rintro ⟨mid, after, hparts, hexit⟩
    obtain rfl := suffix_unique hkeys hsuffix hparts
    refine ⟨mid.length, (Block.mem_starts_iff hstarts).mpr ?_, after, List.drop_left⟩
    refine hexit.imp (fun ⟨hnil, hnext⟩ => ⟨by simp [hnil], hnext⟩) fun hdest => ⟨c.key, hdest, ?_⟩
    have hrest := (List.suffix_cons b (mid ++ c :: after)).trans hsuffix
    exact Block.findIdx?_key ((hrest.sublist.map _).nodup hkeys)
  · rintro ⟨i, hi, after, hdrop⟩
    have hparts : rest = rest.take i ++ c :: after := by rw [← hdrop, List.take_append_drop]
    refine ⟨rest.take i, after, hparts ▸ hsuffix, ?_⟩
    refine ((Block.mem_starts_iff hstarts).mp hi).imp ?_ ?_
    · rintro ⟨rfl, hnext⟩
      exact ⟨List.take_zero, hnext⟩
    · rintro ⟨key, hkey, hfind⟩
      obtain ⟨hlt, hsame, -⟩ := List.findIdx?_eq_some_iff_getElem.mp hfind
      rw [List.drop_eq_getElem_cons hlt] at hdrop
      obtain ⟨rfl, -⟩ := List.cons.inj hdrop
      exact (beq_iff_eq.mp hsame) ▸ hkey

/-- Nothing is left at a start only after the last block, if it could be left for a next one. -/
theorem ends_iff_start (hstarts : b.starts rest = .ok starts) :
    (∃ i ∈ starts, rest.drop i = []) ↔ rest = [] ∧ b.HasExit none := by
  constructor
  · rintro ⟨i, hi, hdrop⟩
    rcases (Block.mem_starts_iff hstarts).mp hi with ⟨rfl, hnext⟩ | ⟨key, -, hfind⟩
    · exact ⟨hdrop, hnext⟩
    · obtain ⟨hlt, -⟩ := List.findIdx?_eq_some_iff_getElem.mp hfind
      exact absurd (List.drop_eq_nil_iff.mp hdrop) (Nat.not_le.mpr hlt)
  · rintro ⟨rfl, hnext⟩
    exact ⟨0, (Block.mem_starts_iff hstarts).mpr (.inl ⟨rfl, hnext⟩), rfl⟩

/-- A block is the last one if none follows. -/
theorem getLast?_eq_iff_of_suffix (hkeys : (bs.map (·.key)).Nodup) (hsuffix : b :: rest <:+ bs) :
    bs.getLast? = some b ↔ rest = [] := by
  constructor
  · intro hlast
    obtain ⟨before, hsplit⟩ := List.getLast?_eq_some_iff.mp hlast
    exact suffix_unique hkeys hsuffix ⟨before, hsplit.symm⟩
  · rintro rfl
    obtain ⟨before, rfl⟩ := hsuffix
    exact List.getLast?_concat

/-! ### Ways -/

/-- A way ends where it is, or it goes on to another block and is a way from there. -/
theorem isWay_iff {way : List Block} : IsWay bs b way ↔
    way = [b] ∧ bs.getLast? = some b ∧ b.HasExit none ∨
      ∃ c tail, way = b :: tail ∧ b.MayGoTo bs c ∧ IsWay bs c tail := by
  constructor
  · rintro ⟨hfirst, hsteps, hlast⟩
    match way, hfirst with
    | [_], rfl =>
      obtain ⟨c, hc, hend, hexit⟩ := hlast
      obtain rfl := Option.some.inj hc
      exact .inl ⟨rfl, hend, hexit⟩
    | _ :: c :: tail, rfl =>
      rw [List.isChain_cons_cons] at hsteps
      rw [List.getLast?_cons_cons] at hlast
      exact .inr ⟨c, c :: tail, rfl, hsteps.1, rfl, hsteps.2, hlast⟩
  · rintro (⟨rfl, hend, hexit⟩ | ⟨c, tail, rfl, hstep, hfirst, hsteps, hlast⟩)
    · exact ⟨rfl, .singleton b, b, rfl, hend, hexit⟩
    · obtain ⟨tail, rfl⟩ := List.head?_eq_some_iff.mp hfirst
      refine ⟨rfl, List.isChain_cons_cons.mpr ⟨hstep, hsteps⟩, ?_⟩
      rw [List.getLast?_cons_cons]
      exact hlast

/-- One can get to all that a way leads through. -/
theorem IsWay.reaches : ∀ {way : List Block} {b : Block}, IsWay bs b way → c ∈ way →
    ReflTransGen (Block.MayGoTo bs) b c
  | [], _, _, hc => nomatch hc
  | x :: xs, b, h, hc => by
    rcases isWay_iff.mp h with ⟨heq, -⟩ | ⟨d, tail, heq, hstep, htail⟩
    · obtain rfl := List.mem_singleton.mp (heq ▸ hc)
      exact .refl
    · obtain ⟨rfl, rfl⟩ := List.cons.inj heq
      rcases List.mem_cons.mp hc with rfl | hc
      · exact .refl
      · exact .head hstep (htail.reaches hc)

/-- A way leads through a block that one can get to and that has a way to the end itself. -/
theorem exists_way_through (h : ReflTransGen (Block.MayGoTo bs) b c)
    (hway : ∃ way, IsWay bs c way) : ∃ way, IsWay bs b way ∧ c ∈ way := by
  induction h using ReflTransGen.head_induction_on with
  | refl =>
    obtain ⟨way, hway⟩ := hway
    exact ⟨way, hway, List.mem_of_mem_head? hway.first⟩
  | head hstep _ ih =>
    obtain ⟨tail, htail, hc⟩ := ih
    exact ⟨_, isWay_iff.mpr (.inr ⟨_, tail, rfl, hstep, htail⟩), List.mem_cons_of_mem _ hc⟩

theorem mem_chains_cons_iff (hstarts : b.starts rest = .ok starts)
    (h : chains (b :: rest) = .ok found) {way : List Block} : way ∈ found ↔
      ∃ i ∈ starts, ∃ family tail, chains (rest.drop i) = .ok family ∧ tail ∈ family ∧
        way = b :: tail := by
  obtain ⟨starts', families, hstarts', hfamilies, rfl⟩ := chains_cons_eq_ok h
  obtain rfl := Except.ok.inj (hstarts'.symm.trans hstarts)
  simp only [List.mem_map, List.mem_flatten]
  constructor
  · rintro ⟨tail, ⟨family, hfamily, htail⟩, rfl⟩
    obtain ⟨i, hi, hdrop⟩ := exists_of_mem_right hfamilies hfamily
    exact ⟨i, hi, family, tail, hdrop, htail, rfl⟩
  · rintro ⟨i, hi, family, tail, hdrop, htail, rfl⟩
    obtain ⟨family', hfamily, hdrop'⟩ := exists_of_mem_right hfamilies.flip hi
    obtain rfl := Except.ok.inj (hdrop'.symm.trans hdrop)
    exact ⟨tail, ⟨family', hfamily, htail⟩, rfl⟩

/-- **The chains that are found are the ways.** Where the list is cut at a start, either nothing is
left and the way has come to its end, or it goes on from the block with which the rest begins. -/
theorem mem_chains_iff {b : Block} {rest : List Block} {found : List (List Block)}
    (hkeys : (bs.map (·.key)).Nodup) (hsuffix : b :: rest <:+ bs)
    (h : chains (b :: rest) = .ok found) {way : List Block} : way ∈ found ↔ IsWay bs b way := by
  obtain ⟨starts, families, hstarts, hfamilies, -⟩ := chains_cons_eq_ok h
  have hfamily : ∀ {i}, i ∈ starts → ∃ family, chains (rest.drop i) = .ok family := fun hi =>
    (exists_of_mem_right hfamilies.flip hi).imp fun _ hdrop => hdrop.2
  rw [mem_chains_cons_iff hstarts h, isWay_iff]
  constructor
  · rintro ⟨i, hi, family, tail, hdrop, htail, rfl⟩
    cases hrest : rest.drop i with
    | nil =>
      obtain ⟨hnil, hexit⟩ := (ends_iff_start hstarts).mp ⟨i, hi, hrest⟩
      rw [hrest, chains] at hdrop
      obtain rfl := Except.ok.inj hdrop
      obtain rfl := List.mem_singleton.mp htail
      exact .inl ⟨rfl, (getLast?_eq_iff_of_suffix hkeys hsuffix).mpr hnil, hexit⟩
    | cons c after =>
      have hstep := (mayGoTo_iff_start hkeys hsuffix hstarts).mpr ⟨i, hi, after, hrest⟩
      have hunder := suffix_of_drop hsuffix hrest
      rw [hrest] at hdrop
      exact .inr ⟨c, tail, rfl, hstep, (mem_chains_iff hkeys hunder hdrop).mp htail⟩
  · rintro (⟨rfl, hend, hexit⟩ | ⟨c, tail, rfl, hstep, hway⟩)
    · -- after the last block nothing is left, and nothing has one chain, the empty one
      have hnil := (getLast?_eq_iff_of_suffix hkeys hsuffix).mp hend
      obtain ⟨i, hi, hrest⟩ := (ends_iff_start hstarts).mpr ⟨hnil, hexit⟩
      refine ⟨i, hi, [[]], [], ?_, List.mem_singleton_self [], rfl⟩
      rw [hrest, chains]
    · obtain ⟨i, hi, after, hrest⟩ := (mayGoTo_iff_start hkeys hsuffix hstarts).mp hstep
      obtain ⟨family, hdrop⟩ := hfamily hi
      have hunder := suffix_of_drop hsuffix hrest
      refine ⟨i, hi, family, tail, hdrop, ?_, rfl⟩
      rw [hrest] at hdrop
      exact (mem_chains_iff hkeys hunder hdrop).mpr hway
termination_by rest.length
decreasing_by
  all_goals exact length_lt_of_drop hrest

/-- **Chains are found exactly if it can be told of each branching block one can get to whether it
falls through.** -/
theorem chains_succeed_iff {b : Block} {rest : List Block} (hkeys : (bs.map (·.key)).Nodup)
    (hsuffix : b :: rest <:+ bs) : (∃ found, chains (b :: rest) = .ok found) ↔
      ∀ c, ReflTransGen (Block.MayGoTo bs) b c → c.isBranching = true →
        ∃ v, c.fallsThrough = .ok v := by
  constructor
  · rintro ⟨found, hfound⟩ c hreach hbranching
    obtain ⟨starts, families, hstarts, hfamilies, -⟩ := chains_cons_eq_ok hfound
    rcases hreach.cases_head with rfl | ⟨d, hstep, hreach⟩
    · rw [Block.starts, if_pos hbranching] at hstarts
      obtain ⟨v, hv, -⟩ := bind_eq_ok.mp hstarts
      exact ⟨v, hv⟩
    · obtain ⟨i, hi, after, hrest⟩ := (mayGoTo_iff_start hkeys hsuffix hstarts).mp hstep
      obtain ⟨family, -, hdrop⟩ := exists_of_mem_right hfamilies.flip hi
      have hunder := suffix_of_drop hsuffix hrest
      rw [hrest] at hdrop
      exact (chains_succeed_iff hkeys hunder).mp ⟨family, hdrop⟩ c hreach hbranching
  · intro h
    obtain ⟨starts, hstarts⟩ : ∃ starts, b.starts rest = .ok starts :=
      b.starts_succeeds (h b .refl)
    have hfamilies : ∀ i ∈ starts, ∃ family, chains (rest.drop i) = .ok family := by
      intro i hi
      cases hrest : rest.drop i with
      | nil =>
        rw [chains]
        exact ⟨_, rfl⟩
      | cons c after =>
        have hstep := (mayGoTo_iff_start hkeys hsuffix hstarts).mpr ⟨i, hi, after, hrest⟩
        exact (chains_succeed_iff hkeys (suffix_of_drop hsuffix hrest)).mpr
          fun d hreach => h d (.head hstep hreach)
    obtain ⟨families, hfamilies⟩ := mapM_succeeds hfamilies
    refine ⟨families.flatten.map (b :: ·), ?_⟩
    rw [chains, hstarts]
    simp only [bind, Except.bind, hfamilies]
    rfl
termination_by rest.length
decreasing_by
  all_goals exact length_lt_of_drop hrest

/-! ### All ways -/

/-- **The chains through blocks without repetitions are the ways through them in order**, each found
once; of two that part, the one that goes on to the earlier block is found first. They are found
exactly if it can be told of each branching block one can get to whether it falls through, as it can
if the choices of branching questions can be looked up. -/
theorem lists_ways {blocks : List Block} {b : Block} {rest : List Block}
    (hkeys : (blocks.map (·.key)).Nodup) (hsorted : sortBlocks blocks = .ok (b :: rest)) :
    ((∃ found, orderedChains blocks = .ok found) ↔
      ∀ c, ReflTransGen (Block.MayGoTo (b :: rest)) b c → c.isBranching = true →
        ∃ v, c.fallsThrough = .ok v) ∧
    ((∀ c ∈ blocks, ∀ q ∈ c.branchQuestions, ∀ choice ∈ q.choices, choice.isKey = true) →
      ∃ found, orderedChains blocks = .ok found) ∧
    ∀ found, orderedChains blocks = .ok found →
      (∀ way, way ∈ found ↔ IsWay (b :: rest) b way) ∧ found.Nodup ∧
      (∀ way ∈ found, way.Sublist (b :: rest)) ∧ found.Pairwise (PartsEarlier (b :: rest)) := by
  have hperm := inNaturalOrder_perm hsorted
  have hordered : orderedChains blocks = chains (b :: rest) := by
    rw [orderedChains, hsorted]
    rfl
  have hkeys : ((b :: rest).map (·.key)).Nodup := (hperm.map _).nodup_iff.mpr hkeys
  rw [hordered]
  refine ⟨chains_succeed_iff hkeys (List.suffix_refl _), fun hlooked => ?_, fun found hfound => ?_⟩
  · exact chains_succeeds (b :: rest) fun c hc _ =>
      c.fallsThrough_succeeds (hlooked c (hperm.mem_iff.mp hc))
  · have hparts := pairwise_partsEarlier (b :: rest) hfound
    have hunder : ∀ way ∈ found, way.Sublist (b :: rest) := fun way hway =>
      sublist_of_mem_chains (b :: rest) hfound hway
    refine ⟨fun way => mem_chains_iff hkeys (List.suffix_refl _) hfound, ?_, hunder, hparts⟩
    refine hparts.imp_of_mem fun {way way'} hway hway' h heq => ?_
    obtain ⟨c, hc, hnot⟩ := h.exists_notMem hkeys.of_map (hunder way hway) (hunder way' hway')
    exact hnot (heq ▸ hc)

section Fork

open Survey

/-- The question in the middle of the fork can be passed by. -/
theorem isWay_fork (q : Question) : IsWay (fork q).blocks (plainBlock 0 "1" forkFirst)
    [plainBlock 0 "1" forkFirst, plainBlock 2 "3" forkLast] := by
  have hstep : (plainBlock 0 "1" forkFirst).MayGoTo (fork q).blocks (plainBlock 2 "3" forkLast) :=
    ⟨[plainBlock 1 "2" q], [], List.suffix_refl _, .inr (List.mem_singleton_self _)⟩
  exact ⟨rfl, List.isChain_pair.mpr hstep, _, rfl, rfl, .inl rfl⟩

theorem lists_ways_fork : ((fork more).blocks.map (·.key)).Nodup ∧
    sortBlocks (fork more).blocks = .ok (fork more).blocks ∧
    ∃ found, orderedChains (fork more).blocks = .ok found ∧ found.Nodup ∧
      [plainBlock 0 "1" forkFirst, plainBlock 2 "3" forkLast] ∈ found := by
  have hkeys : ((fork more).blocks.map (·.key)).Nodup := by decide
  have hsorted : sortBlocks (fork more).blocks = .ok (fork more).blocks := by cbv
  obtain ⟨-, hfinds, hways⟩ := lists_ways hkeys hsorted
  obtain ⟨found, hfound⟩ := hfinds (by decide)
  obtain ⟨hmem, hnodup, -⟩ := hways found hfound
  exact ⟨hkeys, hsorted, found, hfound, hnodup, (hmem _).mpr (isWay_fork more)⟩

/-- With a choice that cannot be looked up there is a way past the question, but none is found. -/
theorem trap_not_listed : ((fork Traversal.trap).blocks.map (·.key)).Nodup ∧
    sortBlocks (fork Traversal.trap).blocks = .ok (fork Traversal.trap).blocks ∧
    IsWay (fork Traversal.trap).blocks (plainBlock 0 "1" forkFirst)
      [plainBlock 0 "1" forkFirst, plainBlock 2 "3" forkLast] ∧
    orderedChains (fork Traversal.trap).blocks = .error .illTyped :=
  ⟨by decide, by cbv, isWay_fork Traversal.trap, by cbv⟩

end Fork

end Questionnaire
