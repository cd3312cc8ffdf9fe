/-
# Chains and exits

The chains through the fixed blocks are found if it can be told of each block
whether it falls through. A way through the blocks is one of them if each block
on it is left by one of its exits: to a destination, or to the next block when
it has no branching question or falls through.

Key definition: `Block.LeavesBy`.
Key theorems: `mem_of_chains`, `chains_succeeds`.
-/
import Questionnaire.Path.Chain
import Questionnaire.Proofs.Survey.Branching
import Questionnaire.Proofs.Traversal.Routing

namespace Questionnaire

/-- The exit is one of those that the block has. -/
def Block.LeavesBy (b : Block) : Option Key → Prop
  | some key => key ∈ b.destinations
  | none => b.isBranching = true → b.fallsThrough ≠ .ok false

/-! ### Starts -/

namespace Block

variable {b : Block} {rest : List Block} {starts : List Nat}

theorem starts_succeeds (h : b.isBranching = true → ∃ v, b.fallsThrough = .ok v) :
    ∃ starts, b.starts rest = .ok starts := by
  unfold starts
  by_cases hbranching : b.isBranching = true
  · obtain ⟨v, hv⟩ := h hbranching
    rw [if_pos hbranching, hv]
    exact ⟨_, rfl⟩
  · rw [if_neg hbranching]
    exact ⟨_, rfl⟩

/-- Without an exit the next block may follow. -/
theorem zero_mem_starts (h : b.starts rest = .ok starts) (hleaves : b.LeavesBy none) :
    0 ∈ starts := by
  unfold Block.starts at h
  split at h
  · rename_i hbranching
    obtain ⟨v, hv, h₁⟩ := bind_eq_ok.mp h
    cases h₁
    have hopen : v = true := by
      have hnot := hleaves hbranching
      rw [hv] at hnot
      cases v
      · exact absurd rfl hnot
      · rfl
    exact List.mem_filter.mpr ⟨List.mem_range.mpr (Nat.succ_pos _), by simp [hopen]⟩
  · cases h
    exact List.mem_singleton_self 0

/-- In a list without repetitions a block is found at its place. -/
theorem findIdx?_key {mid after : List Block} {c : Block}
    (hkeys : ((mid ++ c :: after).map (·.key)).Nodup) :
    (mid ++ c :: after).findIdx? (·.key == c.key) = some mid.length := by
  rw [List.map_append, List.map_cons] at hkeys
  have hnew : ∀ d ∈ mid, d.key ≠ c.key := fun d hd =>
    (List.nodup_append.mp hkeys).2.2 d.key (List.mem_map_of_mem hd) c.key List.mem_cons_self
  rw [List.findIdx?_append, List.findIdx?_eq_none_iff.mpr (by simpa using hnew),
    List.findIdx?_cons]
  simp

/-- A destination may follow. -/
theorem length_mem_starts {mid after : List Block} {c : Block}
    (h : b.starts (mid ++ c :: after) = .ok starts) (hleaves : b.LeavesBy (some c.key))
    (hkeys : ((mid ++ c :: after).map (·.key)).Nodup) : mid.length ∈ starts := by
  have hbranching : b.isBranching = true := by
    obtain ⟨q, hq, -⟩ := List.mem_flatMap.mp hleaves
    simp [isBranching, List.ne_nil_of_mem hq]
  unfold Block.starts at h
  rw [if_pos hbranching] at h
  obtain ⟨v, -, h₁⟩ := bind_eq_ok.mp h
  cases h₁
  refine List.mem_filter.mpr ⟨List.mem_range.mpr ?_, ?_⟩
  · simp only [List.length_append, List.length_cons]
    omega
  · simp only [Bool.or_eq_true, List.any_eq_true, beq_iff_eq]
    exact .inr ⟨c.key, hleaves, findIdx?_key hkeys⟩

end Block

/-! ### Chains -/

theorem chains_cons_eq_ok {b : Block} {rest : List Block} {found : List (List Block)}
    (h : chains (b :: rest) = .ok found) : ∃ starts families, b.starts rest = .ok starts ∧
      List.Forall₂ (fun i family => chains (rest.drop i) = .ok family) starts families ∧
      found = families.flatten.map (b :: ·) := by
  rw [chains] at h
  obtain ⟨starts, hstarts, h₁⟩ := bind_eq_ok.mp h
  obtain ⟨families, hfamilies, h₂⟩ := bind_eq_ok.mp h₁
  cases h₂
  exact ⟨starts, families, hstarts, forall₂_of_mapM hfamilies, rfl⟩

/-- Chains are found if it can be told of each branching block whether it falls through. -/
theorem chains_succeeds (bs : List Block)
    (h : ∀ b ∈ bs, b.isBranching = true → ∃ v, b.fallsThrough = .ok v) :
    ∃ found, chains bs = .ok found := by
  match bs with
  | [] =>
    rw [chains]
    exact ⟨_, rfl⟩
  | b :: rest =>
    rw [chains]
    obtain ⟨starts, hstarts⟩ := b.starts_succeeds (h b List.mem_cons_self)
    obtain ⟨families, hfamilies⟩ := @mapM_succeeds _ _ (fun i => chains (rest.drop i)) starts
      fun i _ => chains_succeeds (rest.drop i) fun c hc =>
        h c (List.mem_cons_of_mem b (List.mem_of_mem_drop hc))
    rw [hstarts]
    simp only [bind, Except.bind, hfamilies]
    exact ⟨_, rfl⟩
termination_by bs.length
decreasing_by simp only [List.length_drop, List.length_cons]; omega

theorem mem_chains_cons {b : Block} {rest : List Block} {found : List (List Block)}
    (h : chains (b :: rest) = .ok found) {i : Nat} {chain : List Block}
    (hi : ∀ starts, b.starts rest = .ok starts → i ∈ starts)
    (hchain : ∀ family, chains (rest.drop i) = .ok family → chain ∈ family) :
    b :: chain ∈ found := by
  obtain ⟨starts, families, hstarts, hfamilies, rfl⟩ := chains_cons_eq_ok h
  obtain ⟨family, hfamily, hdrop⟩ := exists_of_mem_right hfamilies.flip (hi starts hstarts)
  exact List.mem_map_of_mem (List.mem_flatten.mpr ⟨family, hfamily, hchain family hdrop⟩)

/-- Of two blocks with one key in a list without repetitions both are at the same place. -/
theorem after_eq_of_nodup {fixed before before' after after' : List Block} {b : Block}
    (hkeys : (fixed.map (·.key)).Nodup) (h : fixed = before ++ b :: after)
    (h' : fixed = before' ++ b :: after') : after = after' := by
  have hnodup : (before' ++ b :: after').Nodup := h' ▸ hkeys.of_map
  obtain ⟨-, hafter, hbefore⟩ := List.nodup_append.mp hnodup
  have hsplit := h.symm.trans h'
  refine ((List.append_cons_inj_of_notMem ?_ ?_).mp hsplit.symm).2.2.symm
  · exact fun hb => hbefore b hb b List.mem_cons_self rfl
  · exact (List.nodup_cons.mp hafter).1

/-- **A way that follows the exits is a chain.** The induction is on what comes after the block the
way has got to; that block splits the fixed blocks into those before it and the rest. -/
theorem mem_of_chains {fixed : List Block} (hkeys : (fixed.map (·.key)).Nodup)
    {exit : Block → Option Key} :
    ∀ {post before rest : List Block} {b : Block} {found : List (List Block)},
      fixed = before ++ b :: rest →
      (b :: post).IsChain (fun x y => x.GoesTo fixed y (exit x)) →
      (∀ x ∈ b :: post, x.LeavesBy (exit x)) →
      (∀ x, (b :: post).getLast? = some x → exit x = none ∧ ∃ before', fixed = before' ++ [x]) →
      chains (b :: rest) = .ok found → b :: post ∈ found
  | [], before, rest, b, found, hsplit, _, hleaves, hlast, hfound => by
    obtain ⟨hnone, before', hend⟩ := hlast b rfl
    obtain rfl : rest = [] := after_eq_of_nodup hkeys hsplit hend
    have hexit := hleaves b List.mem_cons_self
    rw [hnone] at hexit
    refine mem_chains_cons hfound (fun starts hstarts => b.zero_mem_starts hstarts hexit) ?_
    intro family hfamily
    rw [List.drop_nil, chains] at hfamily
    cases hfamily
    exact List.mem_singleton_self []
  | c :: post, before, rest, b, found, hsplit, hchain, hleaves, hlast, hfound => by
    rw [List.isChain_cons_cons] at hchain
    obtain ⟨⟨before', mid, after, hparts, hmid, hkey⟩, hchain⟩ := hchain
    obtain rfl : rest = mid ++ c :: after := after_eq_of_nodup hkeys hsplit hparts
    have hexit := hleaves b List.mem_cons_self
    have hstart : ∀ starts, b.starts (mid ++ c :: after) = .ok starts → mid.length ∈ starts := by
      intro starts hstarts
      cases hdest : exit b with
      | none =>
        rw [hdest] at hexit
        rw [hmid hdest] at hstarts ⊢
        exact b.zero_mem_starts hstarts hexit
      | some key =>
        obtain rfl := hkey key hdest
        rw [hdest] at hexit
        refine b.length_mem_starts hstarts hexit ?_
        rw [hparts, List.map_append, List.map_cons] at hkeys
        exact (List.nodup_cons.mp (List.nodup_append.mp hkeys).2.1).2
    refine mem_chains_cons hfound hstart ?_
    intro family hfamily
    rw [List.drop_left] at hfamily
    have hsplit' : fixed = (before ++ b :: mid) ++ c :: after := by simp [hsplit]
    refine mem_of_chains hkeys hsplit' hchain (fun x hx => hleaves x (List.mem_cons_of_mem b hx))
      (fun x hx => hlast x ?_) hfamily
    rw [List.getLast?_cons_cons]
    exact hx

end Questionnaire
