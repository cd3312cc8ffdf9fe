/-
# The validity that prevails

A tally has its entries in the order of first counts, and sorting by counts is
stable. So its commonest entry is for what occurs most often in the list that
was counted and, of several things that do, for the one that is met first.
Under supervision all responses of a cluster take the validity that prevails in
this sense among those known of them.

Key definitions: `Prevails`, `Named`.
Key theorems: `Tally.head?_mostCommon`, `Prevails.unique`, `prevails_prevailing`,
`prevails_of_mem_supervise`.
-/
import Mathlib.Data.List.Induction
import Questionnaire.Proofs.Classify.Unmarked
import Questionnaire.Proofs.Survey.Forms
import Questionnaire.Proofs.Survey.NaturalOrder
import Questionnaire.Proofs.Tally

namespace Questionnaire

variable {α : Type} [BEq α]

/-! ### The commonest entry -/

/-- Nothing is in the list more often, and nothing that is as often is met earlier. -/
structure Prevails (xs : List α) (x : α) : Prop where
  member : x ∈ xs
  most : ∀ y, xs.count y ≤ xs.count x
  first : ∀ y, xs.count y = xs.count x → xs.idxOf x ≤ xs.idxOf y

theorem Prevails.unique [LawfulBEq α] {xs : List α} {x y : α} (hx : Prevails xs x)
    (hy : Prevails xs y) : x = y := by
  have hcount : xs.count x = xs.count y := Nat.le_antisymm (hy.most x) (hx.most y)
  have hplace := Nat.le_antisymm (hx.first y hcount.symm) (hy.first x hcount)
  exact (List.idxOf_inj hx.member).mp hplace

namespace Tally

/-- No entry of the tally has a greater count. -/
def isCommonest {α : Type} (t : Tally α) (entry : α × Nat) : Bool := t.all (·.2 ≤ entry.2)

/-- The commonest entry comes first, and of several the one that was there first. -/
theorem head?_mostCommon {α : Type} (t : Tally α) :
    t.mostCommon.head? = t.find? t.isCommonest := by
  have htrans : ∀ a b c : α × Nat, decide (b.2 ≤ a.2) = true → decide (c.2 ≤ b.2) = true →
      decide (c.2 ≤ a.2) = true := by
    simp only [decide_eq_true_eq]
    omega
  have htotal : ∀ a b : α × Nat, (decide (b.2 ≤ a.2) || decide (a.2 ≤ b.2)) = true := by
    simp only [Bool.or_eq_true, decide_eq_true_eq]
    omega
  have hsorted := List.pairwise_mergeSort htrans htotal t
  have hfilter := mergeSort_filter htrans htotal t.isCommonest t
  -- the commonest entries have equal counts and stay in their order
  have hsame : (t.filter t.isCommonest).mergeSort (fun a b => b.2 ≤ a.2) =
      t.filter t.isCommonest := by
    refine List.mergeSort_of_pairwise (List.pairwise_iff_forall_sublist.mpr fun {a b} hab => ?_)
    have ha := (List.mem_filter.mp (hab.subset List.mem_cons_self)).2
    have hb := List.mem_of_mem_filter (hab.subset (List.mem_cons_of_mem a List.mem_cons_self))
    exact List.all_eq_true.mp ha b hb
  rw [← List.head?_filter, ← hsame, hfilter]
  unfold mostCommon
  cases hlist : t.mergeSort fun a b => decide (b.2 ≤ a.2) with
  | nil => rfl
  | cons entry rest =>
    rw [hlist] at hsorted
    have hcommonest : t.isCommonest entry = true := by
      refine List.all_eq_true.mpr fun other hother => ?_
      rw [← List.mem_mergeSort, hlist, List.mem_cons] at hother
      rcases hother with rfl | hother
      · exact decide_eq_true (Nat.le_refl _)
      · exact List.rel_of_pairwise_cons hsorted hother
    rw [List.filter_cons_of_pos hcommonest]
    rfl

variable [LawfulBEq α] {x : α} {xs : List α}

/-- The entry of a thing that was counted says how often it was. -/
theorem mem_ofList {n : Nat} : (x, n) ∈ ofList xs ↔ x ∈ xs ∧ n = xs.count x := by
  have hcompared : ∀ x ∈ xs, ComparedBy id x := fun x _ y => beq_iff_eq
  have hlookup := (keyed_ofList hcompared).lookup_eq_some_iff (x := x) (c := n)
  have hcount : xs.countP (x == ·) = xs.count x := List.countP_congr fun y _ => by rw [BEq.comm]
  rw [lookup_ofList hcompared, hcount] at hlookup
  simp only [id_eq, exists_eq_right'] at hlookup
  rw [← hlookup]
  by_cases hx : xs.count x = 0
  · rw [if_pos hx]
    simp [List.count_eq_zero.mp hx]
  · rw [if_neg hx, Option.some_inj, eq_comm]
    have hmem : x ∈ xs := List.count_pos_iff.mp (Nat.pos_of_ne_zero hx)
    simp [hmem]

/-- The entries are in the order in which the things were counted first. -/
theorem pairwise_ofList (xs : List α) :
    ((ofList xs).map (·.1)).Pairwise fun x y => xs.idxOf x < xs.idxOf y := by
  induction xs using List.reverseRecOn with
  | nil => exact .nil
  | append_singleton xs x ih =>
    have hconcat : ofList (xs ++ [x]) = (ofList xs).add x := by
      unfold ofList addAll
      rw [List.foldl_append]
      rfl
    have hmem : ∀ y ∈ (ofList xs).map (·.1), y ∈ xs := by
      intro y hy
      obtain ⟨⟨_, n⟩, hentry, rfl⟩ := List.mem_map.mp hy
      exact (mem_ofList.mp hentry).1
    have hbefore : ((ofList xs).map (·.1)).Pairwise
        fun y z => (xs ++ [x]).idxOf y < (xs ++ [x]).idxOf z := by
      refine ih.imp_of_mem fun hy hz hlt => ?_
      rwa [List.idxOf_append_of_mem (hmem _ hy), List.idxOf_append_of_mem (hmem _ hz)]
    rw [hconcat, keys_add]
    split
    case isTrue => exact hbefore
    case isFalse hnew =>
      have hx : x ∉ xs := by
        intro hx
        refine hnew (List.any_eq_true.mpr ⟨(x, xs.count x), mem_ofList.mpr ⟨hx, rfl⟩, ?_⟩)
        exact beq_self_eq_true x
      refine List.pairwise_append.mpr ⟨hbefore, List.pairwise_singleton _ _, fun y hy z hz => ?_⟩
      cases List.mem_singleton.mp hz
      rw [List.idxOf_append_of_mem (hmem y hy), List.idxOf_append_of_notMem hx]
      have hlt := List.idxOf_lt_length_iff.mpr (hmem y hy)
      omega

/-- **The commonest entry is for what prevails in the list that was counted.** -/
theorem prevails_of_head {n : Nat} (h : (ofList xs).mostCommon.head? = some (x, n)) :
    Prevails xs x := by
  rw [head?_mostCommon, List.find?_eq_some_iff_append] at h
  obtain ⟨hcommonest, before, after, hentries, hbefore⟩ := h
  obtain ⟨hx, rfl⟩ := mem_ofList.mp (hentries ▸ List.mem_append_right before List.mem_cons_self)
  have hmost : ∀ y, xs.count y ≤ xs.count x := by
    intro y
    by_cases hy : y ∈ xs
    · exact of_decide_eq_true (List.all_eq_true.mp hcommonest _ (mem_ofList.mpr ⟨hy, rfl⟩))
    · rw [List.count_eq_zero.mpr hy]
      exact Nat.zero_le _
  refine ⟨hx, hmost, fun y hcount => ?_⟩
  have hy : y ∈ xs := List.count_pos_iff.mp (hcount ▸ List.count_pos_iff.mpr hx)
  have hentry : (y, xs.count y) ∈ ofList xs := mem_ofList.mpr ⟨hy, rfl⟩
  rw [hentries, List.mem_append, List.mem_cons] at hentry
  rcases hentry with hentry | heq | hentry
  · -- an entry with the greatest count would have been found earlier
    have hnot := hbefore _ hentry
    have hmore : (ofList xs).isCommonest (y, xs.count y) = true := hcount ▸ hcommonest
    rw [hmore] at hnot
    contradiction
  · cases heq
    exact Nat.le_refl _
  · have horder := pairwise_ofList xs
    rw [hentries, List.map_append, List.map_cons] at horder
    have hafter := (List.pairwise_cons.mp (List.pairwise_append.mp horder).2.1).1
    exact Nat.le_of_lt (hafter y (List.mem_map_of_mem (f := Prod.fst) hentry))

end Tally

/-! ### Supervision -/

/-- The validity that a cluster takes is the one that prevails among those known. -/
theorem prevails_prevailing {members : List Response} (hne : members ≠ []) :
    Prevails (members.map (·.known)) (prevailing members) := by
  unfold prevailing
  cases hhead : (Tally.ofList (members.map (·.known))).mostCommon.head? with
  | some entry => exact Tally.prevails_of_head hhead
  | none =>
    have hnone := (Tally.mostCommon_perm (Tally.ofList (members.map (·.known)))).length_eq
    rw [List.head?_eq_none_iff.mp hhead] at hnone
    have htotal := Tally.total_ofList (members.map (·.known))
    rw [List.length_eq_zero_iff.mp hnone.symm, List.length_map] at htotal
    exact absurd (List.length_eq_zero_iff.mp htotal.symm) hne

/-- The names of clusters tell their labels. -/
theorem clusterName_injective : Function.Injective clusterName := by
  have hname (n : Nat) :
      (clusterName (some n)).toList = "cluster_".toList ++ Nat.toDigits 10 n := by
    change ("cluster_" ++ n.repr).toList = _
    rw [String.toList_append, Nat.repr_eq_ofList_toDigits]
    exact congrArg _ String.toList_ofList
  have hnone : (clusterName none).toList = "cluster_".toList ++ ['-', '1'] := rfl
  have hdigit (n : Nat) : '-' ∉ Nat.toDigits 10 n := fun hmem =>
    absurd (Nat.isDigit_of_mem_toDigits (by decide) (Nat.le_refl _) hmem) (by decide)
  intro label label' h
  have hlist := congrArg String.toList h
  match label, label' with
  | none, none => rfl
  | none, some n =>
    rw [hnone, hname, List.append_cancel_left_eq] at hlist
    exact absurd (hlist ▸ List.mem_cons_self) (hdigit n)
  | some n, none =>
    rw [hnone, hname, List.append_cancel_left_eq] at hlist
    exact absurd (hlist ▸ List.mem_cons_self) (hdigit n)
  | some m, some n =>
    rw [hname, hname, List.append_cancel_left_eq] at hlist
    rw [← @Nat.ofDigitChars_ten_toDigits m, hlist, Nat.ofDigitChars_ten_toDigits]

/-- The responses are marked with the names of their labels. -/
def Named (entries : List (Option Nat × Response)) : Prop :=
  ∀ entry ∈ entries, entry.2.cluster = .str (clusterName entry.1)

theorem named_labelled (c : Cluster.Clustering) (points : List Cluster.Point)
    (responses : List Response) : Named (labelled c points responses) := by
  intro entry hentry
  obtain ⟨_, -, rfl⟩ := List.mem_map.mp hentry
  rfl

variable {entries : List (Option Nat × Response)}

/-- The members of a cluster are those with its name, also after they were supervised. -/
theorem known_of_supervise (h : Named entries) (label : Option Nat) :
    ((supervise entries).filter (·.cluster == .str (clusterName label))).map (·.known) =
      ((entries.filter (·.1 == label)).map (·.2)).map (·.known) := by
  unfold supervise
  rw [List.filter_map, List.map_map, List.map_map]
  have hlabel : ∀ entry ∈ entries, (entry.2.cluster == .str (clusterName label)) =
      (entry.1 == label) := by
    intro entry hentry
    rw [h entry hentry, Bool.eq_iff_iff, Document.beq_str_iff, beq_iff_eq, Document.str.injEq,
      clusterName_injective.eq_iff]
  refine (congrArg (List.map _) (List.filter_congr hlabel)).trans ?_
  rfl

/-- **Every response has the validity that prevails among those known of its cluster.** -/
theorem prevails_of_mem_supervise (h : Named entries) {r : Response} (hr : r ∈ supervise entries) :
    Prevails (((supervise entries).filter (·.cluster == r.cluster)).map (·.known)) r.computed := by
  obtain ⟨⟨label, r₀⟩, hentry, rfl⟩ := List.mem_map.mp hr
  dsimp only
  rw [h _ hentry, known_of_supervise h]
  refine prevails_prevailing (List.ne_nil_of_mem (List.mem_map_of_mem (a := (label, r₀)) ?_))
  exact List.mem_filter.mpr ⟨hentry, beq_self_eq_true label⟩

/-- Only one validity prevails in a cluster. -/
theorem computed_of_mem_supervise (h : Named entries) {r r' : Response}
    (hr : r ∈ supervise entries) (hr' : r' ∈ supervise entries)
    (hcluster : r.cluster = r'.cluster) : r.computed = r'.computed := by
  have hprevails := prevails_of_mem_supervise h hr
  rw [hcluster] at hprevails
  exact hprevails.unique (prevails_of_mem_supervise h hr')

end Questionnaire
