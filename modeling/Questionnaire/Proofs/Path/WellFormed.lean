/-
# Well-formed paths

A branch of a valid survey leads to a fixed block that comes later, so no chain
through the fixed blocks breaks off. Every chain begins with the first of them
and keeps their order. Two chains part where they go on from a block to
different ones, and the earlier one of these is not met again; so they differ as
sets, and each makes up a path of its own.

Key definitions: `PartsEarlier`, `Survey.DistinctSortKeys`,
`Survey.WellFormedPaths`.
Key theorems: `chains_ne_nil`, `pairwise_partsEarlier`, `pairwise_chains`,
`Survey.pathsAlong_eq`, `Survey.wellFormed_paths`.
-/
import Questionnaire.Proofs.Path.Exits
import Questionnaire.Proofs.Path.Filing

namespace Questionnaire

/-! ### Starts -/

namespace Block

variable {b : Block} {rest : List Block} {starts : List Nat}

/-- The starts rise, and all but the first are places of blocks that follow. -/
theorem rising_starts (h : b.starts rest = .ok starts) :
    starts.Pairwise fun i j => i < j ∧ j < rest.length := by
  have hrising : starts.Pairwise (· < ·) := by
    unfold Block.starts at h
    split at h
    · obtain ⟨leadsOn, -, h₁⟩ := bind_eq_ok.mp h
      cases h₁
      exact List.pairwise_lt_range.filter _
    · cases h
      exact List.pairwise_singleton _ _
  refine hrising.imp_of_mem fun {i j} _ hj hlt => ⟨hlt, ?_⟩
  rcases (mem_starts_iff h).mp hj with ⟨rfl, -⟩ | ⟨key, -, hfind⟩
  · exact absurd hlt (Nat.not_lt_zero i)
  · exact (List.findIdx?_eq_some_iff_getElem.mp hfind).1

/-- Some block may follow if a branching block has a destination among those that come later. -/
theorem starts_ne_nil (h : b.starts rest = .ok starts)
    (hahead : b.isBranching = true → ∃ c ∈ rest, c.key ∈ b.destinations) : starts ≠ [] := by
  cases hbranching : b.isBranching with
  | false => exact List.ne_nil_of_mem ((mem_starts_iff h).mpr (.inl ⟨rfl, .inl hbranching⟩))
  | true =>
    obtain ⟨c, hc, hkey⟩ := hahead hbranching
    obtain ⟨i, hi⟩ : ∃ i, rest.findIdx? (·.key == c.key) = some i := by
      rw [← Option.isSome_iff_exists, List.findIdx?_isSome, List.any_eq_true]
      exact ⟨c, hc, beq_self_eq_true _⟩
    exact List.ne_nil_of_mem ((mem_starts_iff h).mpr (.inr ⟨c.key, hkey, hi⟩))

end Block

/-! ### Chains -/

/-- A chain begins with the first block. -/
theorem cons_of_mem_chains {b : Block} {rest chain : List Block} {found : List (List Block)}
    (h : chains (b :: rest) = .ok found) (hchain : chain ∈ found) : ∃ tail, chain = b :: tail := by
  obtain ⟨_, families, -, -, rfl⟩ := chains_cons_eq_ok h
  obtain ⟨tail, -, rfl⟩ := List.mem_map.mp hchain
  exact ⟨tail, rfl⟩

/-- A chain leaves out some of the blocks and keeps the order of the others. -/
theorem sublist_of_mem_chains (bs : List Block) {chain : List Block} {found : List (List Block)}
    (h : chains bs = .ok found) (hchain : chain ∈ found) : chain.Sublist bs := by
  match bs with
  | [] =>
    rw [chains] at h
    cases h
    obtain rfl := List.mem_singleton.mp hchain
    exact .refl []
  | b :: rest =>
    obtain ⟨starts, families, -, hfamilies, rfl⟩ := chains_cons_eq_ok h
    obtain ⟨tail, htail, rfl⟩ := List.mem_map.mp hchain
    obtain ⟨family, hfamily, hmem⟩ := List.mem_flatten.mp htail
    obtain ⟨i, -, hdrop⟩ := exists_of_mem_right hfamilies hfamily
    exact ((sublist_of_mem_chains (rest.drop i) hdrop hmem).trans (List.drop_sublist i rest)).cons_cons b
termination_by bs.length
decreasing_by simp only [List.length_drop, List.length_cons]; omega

/-- There is a chain if every branching block has a destination among those that come later. -/
theorem chains_ne_nil (bs : List Block) {found : List (List Block)} (h : chains bs = .ok found)
    (hahead : ∀ before b rest, bs = before ++ b :: rest → b.isBranching = true →
      ∃ c ∈ rest, c.key ∈ b.destinations) : found ≠ [] := by
  match bs with
  | [] =>
    rw [chains] at h
    cases h
    exact List.cons_ne_nil _ _
  | b :: rest =>
    obtain ⟨starts, families, hstarts, hfamilies, rfl⟩ := chains_cons_eq_ok h
    obtain ⟨i, hi⟩ := List.exists_mem_of_ne_nil starts
      (b.starts_ne_nil hstarts (hahead [] b rest rfl))
    obtain ⟨family, hfamily, hdrop⟩ := exists_of_mem_right hfamilies.flip hi
    have hfound : family ≠ [] := by
      refine chains_ne_nil (rest.drop i) hdrop fun before c after hsplit => ?_
      refine hahead (b :: (rest.take i ++ before)) c after ?_
      rw [List.cons_append, List.append_assoc, ← hsplit, List.take_append_drop]
    obtain ⟨chain, hchain⟩ := List.exists_mem_of_ne_nil family hfound
    exact List.ne_nil_of_mem (List.mem_map_of_mem (List.mem_flatten.mpr ⟨family, hfamily, hchain⟩))
termination_by bs.length
decreasing_by simp only [List.length_drop, List.length_cons]; omega

/-- Two chains part where they go on to different blocks, the first of them to the earlier one. -/
def PartsEarlier (bs chain chain' : List Block) : Prop :=
  ∃ common x y tail tail', chain = common ++ x :: tail ∧ chain' = common ++ y :: tail' ∧
    [x, y].Sublist bs

theorem PartsEarlier.cons {bs bs' chain chain' : List Block} (h : PartsEarlier bs chain chain')
    (hbs : bs.Sublist bs') (b : Block) : PartsEarlier (b :: bs') (b :: chain) (b :: chain') := by
  obtain ⟨common, x, y, tail, tail', rfl, rfl, hxy⟩ := h
  exact ⟨b :: common, x, y, tail, tail', rfl, rfl, (hxy.trans hbs).cons b⟩

/-- In a list without repetitions no two members are before each other. -/
theorem not_sublist_swap {x y : Block} : ∀ {bs : List Block}, bs.Nodup → [x, y].Sublist bs →
    ¬[y, x].Sublist bs
  | [], _, hxy => fun _ => nomatch hxy
  | b :: bs, hnodup, hxy => by
    obtain ⟨hnew, hnodup⟩ := List.nodup_cons.mp hnodup
    have hmem : ∀ {v w : Block}, [v, w].Sublist bs → w ∈ bs := fun h => h.subset (by simp)
    intro hyx
    rcases List.sublist_cons_iff.mp hxy with hxy' | ⟨_, heq, hy⟩
    · rcases List.sublist_cons_iff.mp hyx with hyx' | ⟨_, heq, -⟩
      · exact not_sublist_swap hnodup hxy' hyx'
      · obtain ⟨rfl, -⟩ := List.cons.inj heq
        exact hnew (hmem hxy')
    · obtain ⟨rfl, rfl⟩ := List.cons.inj heq
      rcases List.sublist_cons_iff.mp hyx with hyx' | ⟨_, heq, -⟩
      · exact hnew (hmem hyx')
      · obtain ⟨rfl, -⟩ := List.cons.inj heq
        exact hnew (List.singleton_sublist.mp hy)

/-- The block that the first of two such chains goes on to is not on the other. -/
theorem PartsEarlier.exists_notMem {bs chain chain' : List Block} (h : PartsEarlier bs chain chain')
    (hnodup : bs.Nodup) (hchain : chain.Sublist bs) (hchain' : chain'.Sublist bs) :
    ∃ b ∈ chain, b ∉ chain' := by
  obtain ⟨common, x, y, tail, tail', rfl, rfl, hxy⟩ := h
  refine ⟨x, List.mem_append_right _ List.mem_cons_self, fun hx => ?_⟩
  rcases List.mem_append.mp hx with hx | hx
  · exact (List.nodup_append.mp (hchain.nodup hnodup)).2.2 x hx x List.mem_cons_self rfl
  rcases List.mem_cons.mp hx with rfl | hx
  · exact (List.nodup_cons.mp (hxy.nodup hnodup)).1 (List.mem_singleton_self x)
  · have hyx : [y, x].Sublist bs :=
      ((List.singleton_sublist.mpr hx).cons_cons y).trans
        ((List.sublist_append_right common _).trans hchain')
    exact not_sublist_swap hnodup hxy hyx

/-- **The chains are found in the order of where they go on.** -/
theorem pairwise_partsEarlier (bs : List Block) {found : List (List Block)}
    (h : chains bs = .ok found) : found.Pairwise (PartsEarlier bs) := by
  match bs with
  | [] =>
    rw [chains] at h
    cases h
    exact List.pairwise_singleton _ _
  | b :: rest =>
    obtain ⟨starts, families, hstarts, hfamilies, rfl⟩ := chains_cons_eq_ok h
    rw [List.pairwise_map, List.pairwise_flatten]
    constructor
    · intro family hfamily
      obtain ⟨i, -, hdrop⟩ := exists_of_mem_right hfamilies hfamily
      exact (pairwise_partsEarlier (rest.drop i) hdrop).imp fun hparts =>
        hparts.cons (List.drop_sublist i rest) b
    · refine pairwise_of_forall₂ hfamilies (b.rising_starts hstarts)
        fun i j family family' hrise hdrop hdrop' chain hchain chain' hchain' => ?_
      obtain ⟨hij, hj⟩ := hrise
      have hi : i < rest.length := hij.trans hj
      rw [List.drop_eq_getElem_cons hi] at hdrop
      rw [List.drop_eq_getElem_cons hj] at hdrop'
      obtain ⟨tail, rfl⟩ := cons_of_mem_chains hdrop hchain
      obtain ⟨tail', rfl⟩ := cons_of_mem_chains hdrop' hchain'
      refine ⟨[b], rest[i], rest[j], tail, tail', rfl, rfl, List.Sublist.cons b ?_⟩
      have hlater : rest[j] ∈ rest.drop (i + 1) :=
        List.mem_drop_iff_getElem.mpr ⟨j - (i + 1), by omega, by congr 1; omega⟩
      refine ((List.singleton_sublist.mpr hlater).cons_cons rest[i]).trans ?_
      rw [← List.drop_eq_getElem_cons hi]
      exact List.drop_sublist i rest
termination_by bs.length
decreasing_by simp only [List.length_drop, List.length_cons]; omega

/-- **Each chain has a block that none of the later chains has.** The block that one goes on to is
not among those that come later. -/
theorem pairwise_chains (bs : List Block) (hnodup : bs.Nodup) {found : List (List Block)}
    (h : chains bs = .ok found) : found.Pairwise fun c d => ∃ b ∈ c, b ∉ d :=
  (pairwise_partsEarlier bs h).imp_of_mem fun hc hd hparts =>
    hparts.exists_notMem hnodup (sublist_of_mem_chains bs h hc) (sublist_of_mem_chains bs h hd)

/-! ### Paths -/

namespace Survey

variable {s : Survey} {paths : List Path} {found : List (List Block)}

/-- The path along a chain has the blocks of the chain and all that may move. -/
theorem mem_pathAlong (hs : s.Coherent) {chain : List Block} (hchain : chain ⊆ s.fixedBlocks)
    {b : Block} : b ∈ s.pathAlong chain ↔ b ∈ s.shuffledBlocks ∨ b ∈ chain := by
  have hblocks : ∀ c ∈ chain, c ∈ s.blocks := fun c hc => List.mem_of_mem_filter (hchain hc)
  simp only [pathAlong, shuffledBlocks, List.mem_filter, Bool.or_eq_true, Path.has, List.any_eq_true,
    beq_iff_eq]
  constructor
  · rintro ⟨hb, hmoves | ⟨c, hc, hkey⟩⟩
    · exact .inl ⟨hb, hmoves⟩
    · exact .inr (hs.block_unique (hblocks c hc) hb hkey ▸ hc)
  · rintro (⟨hb, hmoves⟩ | hb)
    · exact ⟨hb, .inl hmoves⟩
    · exact ⟨hblocks b hb, .inr ⟨b, hb, rfl⟩⟩

theorem foldl_distinct_of_pairwise : ∀ paths acc : List Path,
    (acc ++ paths).Pairwise (fun p q => p.equal q = false) →
      paths.foldl (fun acc p => if acc.any p.equal then acc else acc ++ [p]) acc = acc ++ paths
  | [], acc, _ => (List.append_nil acc).symm
  | p :: paths, acc, h => by
    have hnew : acc.any p.equal = false := by
      rw [List.any_eq_false]
      intro q hq hequal
      have hfalse := (List.pairwise_append.mp h).2.2 q hq p List.mem_cons_self
      rw [Path.equal_symm hequal] at hfalse
      cases hfalse
    rw [List.foldl_cons, hnew, if_neg Bool.false_ne_true,
      foldl_distinct_of_pairwise paths (acc ++ [p]) (by simpa using h), List.append_assoc]
    rfl

/-- Paths that are told apart are all kept. -/
theorem distinctPaths_eq_self (h : paths.Pairwise fun p q => p.equal q = false) :
    distinctPaths paths = paths :=
  foldl_distinct_of_pairwise paths [] h

/-- The paths along chains are told apart if each chain has a block that none of the later ones
has. -/
theorem pairwise_pathAlong (hs : s.Coherent) (hunder : ∀ chain ∈ found, chain ⊆ s.fixedBlocks)
    (h : found.Pairwise fun c d => ∃ b ∈ c, b ∉ d) :
    (found.map s.pathAlong).Pairwise fun p q => p.equal q = false := by
  rw [List.pairwise_map]
  refine h.imp_of_mem fun {c d} hc hd hdiffer => Bool.eq_false_iff.mpr fun hequal => ?_
  obtain ⟨b, hb, hnot⟩ := hdiffer
  obtain ⟨b', hb', hkey⟩ := Path.within_iff.mp (Path.equal_iff.mp hequal).1 b
    ((mem_pathAlong hs (hunder c hc)).mpr (.inr hb))
  have hfixed := List.mem_filter.mp (hunder c hc hb)
  obtain rfl := hs.block_unique (List.mem_of_mem_filter hb') hfixed.1 hkey
  rcases (mem_pathAlong hs (hunder d hd)).mp hb' with hmoves | hmem
  · simp [(List.mem_filter.mp hmoves).2] at hfixed
  · exact hnot hmem

/-- Chains that differ as sets make up a path each, if only one of them may be empty. -/
theorem pathsAlong_eq (hs : s.Coherent) (hunder : ∀ chain ∈ found, chain ⊆ s.fixedBlocks)
    (h : found.Pairwise fun c d => ∃ b ∈ c, b ∉ d) (hempty : [] ∈ found → found = [[]]) :
    s.pathsAlong found = found.map s.pathAlong := by
  unfold pathsAlong
  by_cases hnil : [] ∈ found
  · obtain rfl := hempty hnil
    simp [hasOnlyEmptyChain, pathAlong, shuffledBlocks, Path.has]
  · have honly : hasOnlyEmptyChain found = false := by
      unfold hasOnlyEmptyChain
      split
      · exact absurd List.mem_cons_self hnil
      · rfl
    have hfull : found.filter (!·.isEmpty) = found := by
      refine List.filter_eq_self.mpr fun chain hchain => ?_
      cases chain with
      | nil => exact absurd hchain hnil
      | cons => rfl
    rw [honly, if_neg Bool.false_ne_true, hfull]
    exact distinctPaths_eq_self (pairwise_pathAlong hs hunder h)

/-! ### The paths of a valid survey -/

/-- The blocks at the top level have sort keys, and no two the same one. -/
def DistinctSortKeys (s : Survey) : Prop :=
  ∃ keys : List SortKey, s.blocks.mapM (·.sortKey) = .ok keys ∧ keys.Nodup

/-- There is a path for each chain, which has the blocks of the chain and all that may move. No two
have the same blocks, and each has the first of the fixed blocks. -/
structure WellFormedPaths (s : Survey) (chains : List (List Block)) (paths : List Path) : Prop where
  nonempty : paths ≠ []
  apart : paths.Pairwise fun p q => p.equal q = false
  along : List.Forall₂ (fun chain p => ∀ b, b ∈ p ↔ b ∈ s.shuffledBlocks ∨ b ∈ chain) chains paths
  first : ∀ p ∈ paths, s.fixedBlocks ≠ [] →
    ∃ b ∈ p, b ∈ s.fixedBlocks ∧ ∀ c ∈ s.fixedBlocks, c ≠ b → b.upTo c ∧ ¬c.upTo b

theorem DistinctSortKeys.exists_key (h : s.DistinctSortKeys) {b : Block} (hb : b ∈ s.blocks) :
    ∃ key, b.sortKey = .ok key := by
  obtain ⟨keys, hkeys, -⟩ := h
  exact exists_of_mapM hkeys hb

/-- Blocks at the top level with one sort key are the same. -/
theorem DistinctSortKeys.block_unique (h : s.DistinctSortKeys) {b c : Block} {key : SortKey}
    (hb : b ∈ s.blocks) (hc : c ∈ s.blocks) (hkey : b.sortKey = .ok key)
    (hkey' : c.sortKey = .ok key) : b = c := by
  obtain ⟨keys, hkeys, hnodup⟩ := h
  have hmap : s.blocks.map (·.sortKey) = keys.map Except.ok :=
    List.forall₂_eq_eq_eq ▸ List.forall₂_map_left_iff.mpr
      (List.forall₂_map_right_iff.mpr (forall₂_of_mapM hkeys))
  have hdistinct : (s.blocks.map (·.sortKey)).Nodup :=
    hmap ▸ hnodup.map fun _ _ heq => Except.ok.inj heq
  exact List.inj_on_of_nodup_map hdistinct hb hc (hkey.trans hkey'.symm)

/-- The fixed blocks can be put in order. -/
theorem DistinctSortKeys.sorted_fixed (h : s.DistinctSortKeys) :
    ∃ sorted, sortBlocks s.fixedBlocks = .ok sorted :=
  inNaturalOrder_succeeds_iff.mpr fun _ hb => h.exists_key (List.mem_of_mem_filter hb)

/-- The first of the fixed blocks in order is strictly before all others. -/
theorem DistinctSortKeys.strictly_first (h : s.DistinctSortKeys) {b c : Block} {rest : List Block}
    (hsorted : sortBlocks s.fixedBlocks = .ok (b :: rest)) (hc : c ∈ s.fixedBlocks) (hne : c ≠ b) :
    b.upTo c ∧ ¬c.upTo b := by
  have hperm := inNaturalOrder_perm hsorted
  have hrest : c ∈ rest := (List.mem_cons.mp (hperm.mem_iff.mpr hc)).resolve_left hne
  obtain ⟨j, k, hj, hk, hle⟩ := (List.pairwise_cons.mp (inNaturalOrder_pairwise hsorted)).1 c hrest
  refine ⟨⟨j, k, hj, hk, hle⟩, ?_⟩
  rintro ⟨k', j', hk', hj', hle'⟩
  cases hk.symm.trans hk'
  cases hj.symm.trans hj'
  obtain rfl := SortKey.le_antisymm j k hle hle'
  have hb : b ∈ s.fixedBlocks := hperm.mem_iff.mp List.mem_cons_self
  exact hne (h.block_unique (List.mem_of_mem_filter hc) (List.mem_of_mem_filter hb) hk hj)

/-- A branching block of a valid survey has a destination among those that come later. -/
theorem exists_destination_after (hs : s.Coherent) (hv : s.Valid) {sorted before rest : List Block}
    {b : Block} (hsorted : sortBlocks s.fixedBlocks = .ok sorted)
    (hsplit : sorted = before ++ b :: rest) (hbranching : b.isBranching = true) :
    ∃ c ∈ rest, c.key ∈ b.destinations := by
  have hb : b ∈ s.blocks := by
    have hmem : b ∈ sorted := hsplit ▸ List.mem_append_right _ List.mem_cons_self
    exact List.mem_of_mem_filter ((inNaturalOrder_perm hsorted).mem_iff.mp hmem)
  obtain ⟨q, hq⟩ := List.exists_mem_of_ne_nil b.branchQuestions (by
    simpa [Block.isBranching] using hbranching)
  obtain ⟨-, hbranch⟩ := (hs.mem_branchQuestions (Block.mem_preorders_of_mem hb)).mp hq
  obtain ⟨branch, hentry⟩ := List.exists_mem_of_ne_nil q.branches (by
    simpa [Question.isBranch] using hbranch)
  have hdest : branch.2 ∈ b.destinations :=
    List.mem_flatMap.mpr ⟨q, hq, List.mem_map_of_mem hentry⟩
  obtain ⟨c, hc, hkey⟩ := (leadsAhead_of_destination hs hv hb hdest).after hsorted hsplit
  exact ⟨c, hc, hkey ▸ hdest⟩

/-- The paths that are found are those along the chains through the fixed blocks in order. -/
theorem chains_of_paths (hpaths : s.paths = .ok paths) :
    ∃ sorted found, sortBlocks s.fixedBlocks = .ok sorted ∧ chains sorted = .ok found ∧
      s.fixedChains = .ok found ∧ s.pathsAlong found = paths := by
  unfold Survey.paths at hpaths
  cases hfixed : s.fixedChains with
  | error fault =>
    rw [hfixed] at hpaths
    cases hpaths
  | ok found =>
    rw [hfixed] at hpaths
    obtain ⟨sorted, hsorted, hfound⟩ := bind_eq_ok.mp hfixed
    exact ⟨sorted, found, hsorted, hfound, rfl, Except.ok.inj hpaths⟩

/-- There is a path for each chain. -/
theorem paths_eq_map (hs : s.Coherent) (hpaths : s.paths = .ok paths) :
    ∃ sorted found, sortBlocks s.fixedBlocks = .ok sorted ∧ chains sorted = .ok found ∧
      s.fixedChains = .ok found ∧ (∀ chain ∈ found, chain ⊆ s.fixedBlocks) ∧
      paths = found.map s.pathAlong := by
  obtain ⟨sorted, found, hsorted, hfound, hfixed, rfl⟩ := chains_of_paths hpaths
  have hperm := inNaturalOrder_perm hsorted
  have hunder : ∀ chain ∈ found, chain ⊆ s.fixedBlocks := fun chain hchain b hb =>
    hperm.mem_iff.mp ((sublist_of_mem_chains sorted hfound hchain).subset hb)
  have hnodup : sorted.Nodup := by
    refine hperm.nodup_iff.mpr ?_
    have hsublist : s.fixedBlocks.Sublist s.allBlocks :=
      List.filter_sublist.trans (Block.sublist_preorders s.blocks)
    exact ((hsublist.map (·.key)).nodup hs.blocks).of_map
  have hempty : [] ∈ found → found = [[]] := by
    intro hnil
    cases sorted with
    | nil =>
      rw [chains] at hfound
      exact (Except.ok.inj hfound).symm
    | cons b rest =>
      obtain ⟨tail, htail⟩ := cons_of_mem_chains hfound hnil
      cases htail
  exact ⟨sorted, found, hsorted, hfound, hfixed, hunder,
    pathsAlong_eq hs hunder (pairwise_chains sorted hnodup hfound) hempty⟩

/-- **Paths that are found are well-formed.** -/
theorem wellFormed_paths (hs : s.Coherent) (hv : s.Valid) (hkeys : s.DistinctSortKeys)
    (hpaths : s.paths = .ok paths) :
    ∃ found, s.fixedChains = .ok found ∧ s.WellFormedPaths found paths := by
  obtain ⟨sorted, found, hsorted, hfound, hfixed, hunder, rfl⟩ := paths_eq_map hs hpaths
  have hperm := inNaturalOrder_perm hsorted
  refine ⟨found, hfixed, ?_, pairwise_paths hpaths, ?_, ?_⟩
  · have hne := chains_ne_nil sorted hfound fun before b rest hsplit =>
      exists_destination_after hs hv hsorted hsplit
    simpa using hne
  · rw [List.forall₂_map_right_iff, List.forall₂_same]
    exact fun chain hchain b => mem_pathAlong hs (hunder chain hchain)
  · intro p hp hne
    obtain ⟨chain, hchain, rfl⟩ := List.mem_map.mp hp
    cases sorted with
    | nil => exact absurd hperm.nil_eq.symm hne
    | cons b rest =>
      have hb : b ∈ s.fixedBlocks := hperm.mem_iff.mp List.mem_cons_self
      obtain ⟨tail, rfl⟩ := cons_of_mem_chains hfound hchain
      refine ⟨b, ?_, hb, fun c hc hother => hkeys.strictly_first hsorted hc hother⟩
      exact (mem_pathAlong hs (hunder _ hchain)).mpr (.inr List.mem_cons_self)

/-- Paths are found, or it cannot be told of a fixed block whether it falls through, as a choice of
one of its branching questions cannot be looked up. -/
theorem paths_or_refused (hkeys : s.DistinctSortKeys) : (∃ paths, s.paths = .ok paths) ∨
    ∃ b ∈ s.fixedBlocks, (∃ fault, b.fallsThrough = .error fault) ∧
      ∃ q ∈ b.branchQuestions, ∃ c ∈ q.choices, c.isKey = false := by
  obtain ⟨sorted, hsorted⟩ := hkeys.sorted_fixed
  by_cases hfalls : ∀ b ∈ sorted, b.isBranching = true → ∃ v, b.fallsThrough = .ok v
  · left
    obtain ⟨found, hfound⟩ := chains_succeeds sorted hfalls
    refine ⟨s.pathsAlong found, ?_⟩
    rw [Survey.paths, fixedChains, orderedChains, hsorted]
    simp only [bind, Except.bind, hfound]
    rfl
  · right
    push Not at hfalls
    obtain ⟨b, hb, -, hnot⟩ := hfalls
    refine ⟨b, (inNaturalOrder_perm hsorted).mem_iff.mp hb, ?_, ?_⟩
    · cases hthrough : b.fallsThrough with
      | error fault => exact ⟨fault, rfl⟩
      | ok v => exact absurd hthrough (hnot v)
    · by_contra hnone
      push Not at hnone
      obtain ⟨v, hv⟩ := b.fallsThrough_succeeds fun q hq c hc => by simpa using hnone q hq c hc
      exact hnot v hv

end Survey

end Questionnaire
