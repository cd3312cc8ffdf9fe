/-
# What is sorted, and why sorting fails

Putting things in order loses none and repeats none. It fails only because two
of them cannot be compared, so it succeeds where all of them can. Where it is
keys that are compared, the things come in the order of their keys.

Key definitions: `Clash`, `ComparesBy`, `OrderedBy`.

Key theorems: `sortedBy_perm`, `clash_of_sortedBy`, `sortedBy_ordered`.
-/
import Mathlib.Data.List.Chain
import Mathlib.Data.List.GetD
import Mathlib.Order.Lattice
import Questionnaire.Proofs.Success
import Questionnaire.Sorting
import Questionnaire.Stats.Rising

namespace Questionnaire

variable {α ε : Type} {before : α → α → Except ε Bool} {xs ys run rest : List α}

namespace Sorting

/-! ### Nothing is lost -/

theorem append_of_runOn {falling : Bool} : ∀ {xs run : List α} {last : α},
    runOn before falling last xs = .ok (run, rest) → run ++ rest = xs
  | [], _, _, h => by
    cases h
    rfl
  | x :: xs, run, last, h => by
    rw [runOn] at h
    obtain ⟨falls, -, h⟩ := bind_eq_ok.mp h
    split at h
    · obtain ⟨⟨run', rest'⟩, hrun, h⟩ := bind_eq_ok.mp h
      cases h
      rw [List.cons_append, append_of_runOn hrun]
    · cases h
      rfl

theorem firstRun_perm (h : firstRun before xs = .ok (run, rest)) : (run ++ rest).Perm xs := by
  unfold firstRun at h
  split at h
  · obtain ⟨falling, -, h⟩ := bind_eq_ok.mp h
    obtain ⟨⟨run', rest'⟩, hrun, h⟩ := bind_eq_ok.mp h
    cases h
    rw [← append_of_runOn hrun]
    split
    · exact (List.reverse_perm _).append_right _
    · exact .refl _
  · cases h
    rw [List.append_nil]

theorem insertInOrder_perm {x : α} (h : insertInOrder before xs x = .ok ys) :
    ys.Perm (x :: xs) := by
  obtain ⟨place, -, h⟩ := bind_eq_ok.mp h
  cases h
  refine List.perm_middle.trans ?_
  rw [List.take_append_drop]

theorem cons_subset_append_cons {x : α} (xs : List α) : x :: run ⊆ run ++ x :: xs := by
  intro y hy
  rw [List.perm_middle.mem_iff]
  exact List.mem_append_left xs hy

/-- Once a thing is put in its place, nothing is there but what was. -/
theorem subset_of_insertInOrder {x : α} {more : List α} (xs : List α)
    (h : insertInOrder before run x = .ok more) : more ++ xs ⊆ run ++ x :: xs :=
  (((insertInOrder_perm h).append_right xs).trans List.perm_middle.symm).subset

theorem foldlM_insertInOrder_perm : ∀ {xs run ys : List α},
    xs.foldlM (insertInOrder before) run = .ok ys → ys.Perm (run ++ xs)
  | [], run, ys, h => by
    cases h
    rw [List.append_nil]
  | x :: xs, run, ys, h => by
    rw [List.foldlM_cons] at h
    obtain ⟨more, hmore, h⟩ := bind_eq_ok.mp h
    refine (foldlM_insertInOrder_perm h).trans ?_
    exact ((insertInOrder_perm hmore).append_right xs).trans List.perm_middle.symm

end Sorting

open Sorting

theorem sortedBy_perm (h : sortedBy before xs = .ok ys) : ys.Perm xs := by
  obtain ⟨⟨run, rest⟩, hrun, h⟩ := bind_eq_ok.mp h
  exact (foldlM_insertInOrder_perm h).trans (firstRun_perm hrun)

/-! ### Why it fails -/

/-- Two of the things cannot be compared. -/
def Clash (before : α → α → Except ε Bool) (xs : List α) (fault : ε) : Prop :=
  ∃ a ∈ xs, ∃ b ∈ xs, before a b = .error fault

variable {fault : ε}

theorem Clash.mono (h : Clash before xs fault) (hsub : xs ⊆ ys) : Clash before ys fault := by
  obtain ⟨a, ha, b, hb, hclash⟩ := h
  exact ⟨a, hsub ha, b, hsub hb, hclash⟩

namespace Sorting

theorem clash_of_runOn {falling : Bool} : ∀ {xs : List α} {last : α},
    runOn before falling last xs = .error fault → Clash before (last :: xs) fault
  | x :: xs, last, h => by
    rw [runOn] at h
    rcases bind_eq_error.mp h with hclash | ⟨falls, -, h⟩
    · exact ⟨x, List.mem_cons_of_mem _ List.mem_cons_self, last, List.mem_cons_self, hclash⟩
    split at h
    · rcases bind_eq_error.mp h with hrun | ⟨_, -, h⟩
      · exact (clash_of_runOn hrun).mono (List.subset_cons_self last _)
      · cases h
    · cases h

theorem clash_of_firstRun (h : firstRun before xs = .error fault) : Clash before xs fault := by
  unfold firstRun at h
  split at h
  · next x y rest =>
    rcases bind_eq_error.mp h with hclash | ⟨falling, -, h⟩
    · exact ⟨y, List.mem_cons_of_mem _ List.mem_cons_self, x, List.mem_cons_self, hclash⟩
    rcases bind_eq_error.mp h with hrun | ⟨_, -, h⟩
    · exact (clash_of_runOn hrun).mono (List.subset_cons_self x _)
    · cases h
  · cases h

/-- The thing is compared with things of the list only. -/
theorem clash_of_placeBetween {x : α} {low high : Nat}
    (h : placeBetween before xs x low high = .error fault) : Clash before (x :: xs) fault := by
  induction low, high using placeBetween.induct with
  | case1 low high hlt middle ihlow ihhigh =>
    rw [placeBetween, if_pos hlt] at h
    rcases bind_eq_error.mp h with hclash | ⟨first, -, h⟩
    · refine ⟨x, List.mem_cons_self, xs.getD middle x, ?_, hclash⟩
      rw [List.getD_eq_getElem?_getD]
      cases hget : xs[middle]? with
      | none => exact List.mem_cons_self
      | some y => exact List.mem_cons_of_mem x (List.mem_of_getElem? hget)
    · cases first with
      | true => exact ihlow h
      | false => exact ihhigh h
  | case2 low high hlt =>
    rw [placeBetween, if_neg hlt] at h
    cases h

theorem clash_of_insertInOrder {x : α} (h : insertInOrder before xs x = .error fault) :
    Clash before (x :: xs) fault := by
  rcases bind_eq_error.mp h with hplace | ⟨_, -, h⟩
  · exact clash_of_placeBetween hplace
  · cases h

theorem clash_of_foldlM : ∀ {xs run : List α},
    xs.foldlM (insertInOrder before) run = .error fault → Clash before (run ++ xs) fault
  | x :: xs, run, h => by
    rw [List.foldlM_cons] at h
    rcases bind_eq_error.mp h with hclash | ⟨more, hmore, h⟩
    · exact (clash_of_insertInOrder hclash).mono (cons_subset_append_cons xs)
    · exact (clash_of_foldlM h).mono (subset_of_insertInOrder xs hmore)

end Sorting

/-- **Sorting fails only because two of the things cannot be compared.** -/
theorem clash_of_sortedBy (h : sortedBy before xs = .error fault) :
    Clash before xs fault := by
  rcases bind_eq_error.mp h with hrun | ⟨⟨run, rest⟩, hrun, h⟩
  · exact clash_of_firstRun hrun
  · exact (clash_of_foldlM h).mono (firstRun_perm hrun).subset

/-- Things that can all be compared are put in order. -/
theorem sortedBy_succeeds (h : ∀ a ∈ xs, ∀ b ∈ xs, ∃ first, before a b = .ok first) :
    ∃ ys, sortedBy before xs = .ok ys := by
  cases hsorted : sortedBy before xs with
  | ok ys => exact ⟨ys, rfl⟩
  | error fault =>
    obtain ⟨a, ha, b, hb, hclash⟩ := clash_of_sortedBy hsorted
    obtain ⟨first, hfirst⟩ := h a ha b hb
    cases hfirst.symm.trans hclash

/-! ### What is in order -/

section Keys

variable {β : Type} {key : α → β}

theorem pairwise_of_chain {r : β → β → Prop} [IsTrans β r]
    (h : xs.IsChain fun a b => r (key a) (key b)) : xs.Pairwise fun a b => r (key a) (key b) :=
  List.pairwise_map.mp ((List.isChain_map key).mpr h).pairwise

variable [LinearOrder β]

/-- Of any two of the things it can be said which is before the other, and their keys say it. -/
def ComparesBy (before : α → α → Except ε Bool) (key : α → β) (xs : List α) : Prop :=
  ∀ a ∈ xs, ∀ b ∈ xs, before a b = .ok (decide (key a < key b))

theorem ComparesBy.mono (h : ComparesBy before key ys) (hsub : xs ⊆ ys) :
    ComparesBy before key xs :=
  fun a ha b hb => h a (hsub ha) b (hsub hb)

/-- The things of a list in rising order, those with one key as the list has them. -/
structure OrderedBy (key : α → β) (xs ys : List α) : Prop where
  perm : ys.Perm xs
  rising : ys.Pairwise fun a b => key a ≤ key b
  stable : ∀ k, ys.filter (key · = k) = xs.filter (key · = k)

namespace Sorting

theorem chain_of_runOn {falling : Bool} {last : α} (hkeys : ComparesBy before key (last :: xs))
    (h : runOn before falling last xs = .ok (run, rest)) :
    (last :: run).IsChain fun a b => decide (key b < key a) = falling := by
  induction xs generalizing run last with
  | nil =>
    cases h
    exact .singleton last
  | cons x xs ih =>
    rw [runOn] at h
    obtain ⟨falls, hfalls, h⟩ := bind_eq_ok.mp h
    cases (hkeys x (by simp) last (by simp)).symm.trans hfalls
    split at h
    · next hsame =>
      obtain ⟨⟨run', rest'⟩, hrun, h⟩ := bind_eq_ok.mp h
      cases h
      exact .cons_cons (beq_iff_eq.mp hsame) (ih (hkeys.mono (List.subset_cons_self last _)) hrun)
    · cases h
      exact .singleton last

/-- Things that fall have different keys, so that turning them round leaves those of one key as
they are. -/
theorem filter_reverse_of_falling (h : xs.Pairwise fun a b => key b < key a) (k : β) :
    xs.reverse.filter (key · = k) = xs.filter (key · = k) := by
  rw [List.filter_reverse]
  have hone : (xs.filter (key · = k)).Pairwise fun a b => key b < key a := h.filter _
  cases hkept : xs.filter (key · = k) with
  | nil => rfl
  | cons a kept =>
    cases kept with
    | nil => rfl
    | cons b kept =>
      rw [hkept] at hone
      have hkey : ∀ c ∈ xs.filter (key · = k), key c = k := fun c hc =>
        of_decide_eq_true (List.mem_filter.mp hc).2
      have ha : key a = k := hkey a (by simp [hkept])
      have hb : key b = k := hkey b (by simp [hkept])
      exact absurd (List.rel_of_pairwise_cons hone List.mem_cons_self) (hb.trans ha.symm).not_lt

theorem orderedBy_of_firstRun (hkeys : ComparesBy before key xs)
    (h : firstRun before xs = .ok (run, rest)) :
    ∃ front, xs = front ++ rest ∧ OrderedBy key front run := by
  unfold firstRun at h
  split at h
  · next x y xs =>
    obtain ⟨falling, hfalling, h⟩ := bind_eq_ok.mp h
    obtain ⟨⟨run', rest'⟩, hrun, h⟩ := bind_eq_ok.mp h
    cases h
    cases (hkeys y (by simp) x (by simp)).symm.trans hfalling
    have hchain : (x :: y :: run').IsChain fun a b =>
        decide (key b < key a) = decide (key y < key x) :=
      .cons_cons rfl (chain_of_runOn (hkeys.mono (List.subset_cons_self x _)) hrun)
    refine ⟨x :: y :: run', by rw [← append_of_runOn hrun]; rfl, ?_⟩
    split
    · next hfalls =>
      simp only [hfalls, decide_eq_true_eq] at hchain
      have hpairs : (x :: y :: run').Pairwise fun a b => key b < key a :=
        pairwise_of_chain (r := (· > ·)) hchain
      exact ⟨List.reverse_perm _, List.pairwise_reverse.mpr (hpairs.imp le_of_lt),
        filter_reverse_of_falling hpairs⟩
    · next hrises =>
      simp only [hrises, decide_eq_false_iff_not, not_lt] at hchain
      exact ⟨.refl _, pairwise_of_chain (r := (· ≤ ·)) hchain, fun _ => rfl⟩
  · next hshort =>
    cases h
    refine ⟨xs, (List.append_nil xs).symm, .refl _, ?_, fun _ => rfl⟩
    cases xs with
    | nil => exact .nil
    | cons x xs =>
      cases xs with
      | nil => exact List.pairwise_singleton _ x
      | cons y xs => exact absurd rfl (hshort x y xs)

/-- In rising order a thing has none above it in front of it, and none below it behind. -/
theorem rising_around (hrising : xs.Pairwise fun a b => key a ≤ key b) {i : Nat}
    (hi : i < xs.length) :
    (∀ y ∈ xs.take (i + 1), key y ≤ key xs[i]) ∧ ∀ y ∈ xs.drop i, key xs[i] ≤ key y := by
  have hfront := hrising.take (i := i + 1)
  have hback := hrising.drop (i := i)
  rw [← List.take_append_getElem hi] at hfront ⊢
  rw [List.drop_eq_getElem_cons hi] at hback ⊢
  constructor
  · intro y hy
    rcases List.mem_append.mp hy with hy | hy
    · exact (List.pairwise_append.mp hfront).2.2 y hy _ List.mem_cons_self
    · rw [List.mem_singleton.mp hy]
  · intro y hy
    rcases List.mem_cons.mp hy with rfl | hy
    · exact le_rfl
    · exact List.rel_of_pairwise_cons hback hy

/-- The place found parts the things that come no later from those that come later. -/
theorem parts_of_placeBetween {x : α} {low high place : Nat}
    (hkeys : ComparesBy before key (x :: xs)) (hrising : xs.Pairwise fun a b => key a ≤ key b)
    (hhigh : high ≤ xs.length) (hbelow : ∀ y ∈ xs.take low, key y ≤ key x)
    (habove : ∀ y ∈ xs.drop high, key x < key y)
    (h : placeBetween before xs x low high = .ok place) :
    (∀ y ∈ xs.take place, key y ≤ key x) ∧ ∀ y ∈ xs.drop place, key x < key y := by
  induction low, high using placeBetween.induct with
  | case1 low high hlt middle ihlow ihhigh =>
    rw [placeBetween, if_pos hlt] at h
    have hmiddle : middle < xs.length := by omega
    obtain ⟨hfront, hback⟩ := rising_around hrising hmiddle
    obtain ⟨first, hfirst, h⟩ := bind_eq_ok.mp h
    rw [List.getD_eq_getElem _ _ hmiddle] at hfirst
    cases (hkeys x (by simp) _ (List.mem_cons_of_mem x (List.getElem_mem hmiddle))).symm.trans
      hfirst
    by_cases hbefore : key x < key xs[middle]
    · rw [decide_eq_true hbefore] at h
      exact ihlow hmiddle.le hbelow (fun y hy => hbefore.trans_le (hback y hy)) h
    · rw [decide_eq_false hbefore] at h
      exact ihhigh hhigh (fun y hy => (hfront y hy).trans (not_lt.mp hbefore)) habove h
  | case2 low high hlt =>
    rw [placeBetween, if_neg hlt] at h
    cases h
    exact ⟨hbelow, fun y hy => habove y (List.drop_subset_drop_left xs (not_lt.mp hlt) hy)⟩

/-- Putting a thing in its place keeps what is in order in order, the thing last of those that have
its key. -/
theorem orderedBy_insertInOrder {x : α} {done ys more : List α}
    (hkeys : ComparesBy before key (x :: ys)) (horder : OrderedBy key done ys)
    (h : insertInOrder before ys x = .ok more) :
    OrderedBy key (done ++ [x]) more := by
  have hperm := insertInOrder_perm h
  obtain ⟨place, hplace, h⟩ := bind_eq_ok.mp h
  cases h
  obtain ⟨hbelow, habove⟩ := parts_of_placeBetween hkeys horder.rising le_rfl (by simp) (by simp)
    hplace
  refine ⟨?_, ?_, fun k => ?_⟩
  · exact hperm.trans ((horder.perm.cons x).trans (List.perm_append_singleton x done).symm)
  · refine List.pairwise_append.mpr ⟨horder.rising.take, ?_, ?_⟩
    · exact List.pairwise_cons.mpr ⟨fun y hy => (habove y hy).le, horder.rising.drop⟩
    · intro a ha b hb
      rcases List.mem_cons.mp hb with rfl | hb
      · exact hbelow a ha
      · exact (hbelow a ha).trans (habove b hb).le
  · have hparts : ys.filter (key · = k) =
        (ys.take place).filter (key · = k) ++ (ys.drop place).filter (key · = k) := by
      rw [← List.filter_append, List.take_append_drop]
    rw [List.filter_append, List.filter_append, ← horder.stable k, hparts]
    by_cases hx : key x = k
    · have hnone : (ys.drop place).filter (key · = k) = [] := by
        rw [List.filter_eq_nil_iff]
        intro y hy
        simpa [← hx] using (habove y hy).ne'
      simp [hx, hnone]
    · simp [hx]

theorem orderedBy_foldlM {done run : List α} (hkeys : ComparesBy before key (run ++ xs))
    (horder : OrderedBy key done run) (h : xs.foldlM (insertInOrder before) run = .ok ys) :
    OrderedBy key (done ++ xs) ys := by
  induction xs generalizing done run with
  | nil =>
    cases h
    rwa [List.append_nil]
  | cons x xs ih =>
    rw [List.foldlM_cons] at h
    obtain ⟨more, hmore, h⟩ := bind_eq_ok.mp h
    have hinsert : ComparesBy before key (x :: run) := hkeys.mono (cons_subset_append_cons xs)
    have hrest : ComparesBy before key (more ++ xs) := hkeys.mono (subset_of_insertInOrder xs hmore)
    rw [List.append_cons]
    exact ih hrest (orderedBy_insertInOrder hinsert horder hmore) h

end Sorting

/-- **Where keys say which of two things is before the other, sorting puts the things in the order
of their keys, and those with one key stay as they were.** -/
theorem sortedBy_ordered (h : ComparesBy before key xs) :
    ∃ ys, sortedBy before xs = .ok ys ∧ OrderedBy key xs ys := by
  obtain ⟨ys, hys⟩ := sortedBy_succeeds fun a ha b hb => ⟨_, h a ha b hb⟩
  obtain ⟨⟨run, rest⟩, hrun, hfold⟩ := bind_eq_ok.mp hys
  obtain ⟨front, rfl, horder⟩ := orderedBy_of_firstRun h hrun
  have hkeys : ComparesBy before key (run ++ rest) := h.mono (firstRun_perm hrun).subset
  exact ⟨ys, hys, orderedBy_foldlM hkeys horder hfold⟩

end Keys

/-! ### Floats -/

theorem rising_perm (xs : List Float) : (rising xs).Perm xs := by
  simp only [rising]
  split
  · cases h : sortedBy isBelow xs with
    | ok ys => exact sortedBy_perm h
    | error impossible => nomatch impossible
  · exact List.mergeSort_perm xs _

@[simp] theorem length_rising (xs : List Float) : (rising xs).length = xs.length :=
  (rising_perm xs).length_eq

end Questionnaire
