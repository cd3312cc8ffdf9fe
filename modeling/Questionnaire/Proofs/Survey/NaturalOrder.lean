/-
# Sorting in natural order

The natural order of ids is total and transitive, so blocks in natural order are
sorted, and as sorting keeps the order of blocks with equal ids it does not
matter whether some of the blocks are left out before or after it.

Key definitions: `Block.upTo`, `SortKey.longId`.
Key theorems: `SortKey.le_total`, `SortKey.le_trans`, `SortKey.le_antisymm`,
`inNaturalOrder_pairwise`, `inNaturalOrder_filter`, `inNaturalOrder_map`,
`inNaturalOrder_succeeds_iff`.
-/
import Questionnaire.Proofs.Success
import Questionnaire.Survey.Order

namespace Questionnaire

/-! ### The order of the ids -/

namespace SortKey

theorem numbersLe_total : ∀ a b : List Nat, (numbersLe a b || numbersLe b a) = true
  | [], _ => by simp [numbersLe]
  | _ :: _, [] => by simp [numbersLe]
  | m :: ms, n :: ns => by
    have ih := numbersLe_total ms ns
    rcases Nat.lt_trichotomy m n with h | rfl | h
    · simp [numbersLe, h]
    · simpa [numbersLe] using ih
    · simp [numbersLe, h]

theorem numbersLe_trans : ∀ a b c : List Nat, numbersLe a b = true → numbersLe b c = true →
    numbersLe a c = true
  | [], _, _, _, _ => by simp [numbersLe]
  | _ :: _, [], _, hab, _ => by simp [numbersLe] at hab
  | _ :: _, _ :: _, [], _, hbc => by simp [numbersLe] at hbc
  | l :: ls, m :: ms, n :: ns, hab, hbc => by
    simp only [numbersLe, Bool.or_eq_true, Bool.and_eq_true, decide_eq_true_eq, beq_iff_eq]
      at hab hbc ⊢
    rcases hab with hlm | ⟨rfl, hls⟩
    · rcases hbc with hmn | ⟨rfl, -⟩
      · exact .inl (Nat.lt_trans hlm hmn)
      · exact .inl hlm
    · exact hbc.imp_right fun hm => ⟨hm.1, numbersLe_trans ls ms ns hls hm.2⟩

theorem numbersLe_antisymm : ∀ a b : List Nat, numbersLe a b = true → numbersLe b a = true → a = b
  | [], [], _, _ => rfl
  | [], _ :: _, _, hba => by simp [numbersLe] at hba
  | _ :: _, [], hab, _ => by simp [numbersLe] at hab
  | m :: ms, n :: ns, hab, hba => by
    simp only [numbersLe, Bool.or_eq_true, Bool.and_eq_true, decide_eq_true_eq, beq_iff_eq]
      at hab hba
    rcases hab with hmn | ⟨rfl, hms⟩
    · omega
    · have hns := (hba.resolve_left (Nat.lt_irrefl m)).2
      rw [numbersLe_antisymm ms ns hms hns]

theorem le_total : ∀ a b : SortKey, (a.le b || b.le a) = true
  | numbered a, numbered b => numbersLe_total a b
  | numbered _, named _ => rfl
  | named _, numbered _ => rfl
  | named a, named b => by
    simp only [le, Bool.or_eq_true, decide_eq_true_eq]
    exact String.le_total a b

theorem le_trans : ∀ a b c : SortKey, a.le b = true → b.le c = true → a.le c = true
  | numbered a, numbered b, numbered c, hab, hbc => numbersLe_trans a b c hab hbc
  | numbered _, _, named _, _, _ => rfl
  | named _, numbered _, _, hab, _ => by simp [le] at hab
  | _, named _, numbered _, _, hbc => by simp [le] at hbc
  | named a, named b, named c, hab, hbc => by
    simp only [le, decide_eq_true_eq] at *
    exact String.le_trans hab hbc

theorem le_antisymm : ∀ a b : SortKey, a.le b = true → b.le a = true → a = b
  | numbered a, numbered b, hab, hba => congrArg numbered (numbersLe_antisymm a b hab hba)
  | numbered _, named _, _, hba => by simp [le] at hba
  | named _, numbered _, hab, _ => by simp [le] at hab
  | named a, named b, hab, hba => by
    simp only [le, decide_eq_true_eq] at hab hba
    exact congrArg named (String.le_antisymm hab hba)

/-! ### Ids without an order -/

theorem runs_of_notMem : ∀ {cs : List Char}, '.' ∉ cs → runs cs = [cs]
  | [], _ => rfl
  | c :: cs, h => by
    obtain ⟨hc, hrest⟩ := List.ne_and_not_mem_of_not_mem_cons h
    rw [runs, if_neg hc.symm, runs_of_notMem hrest]

/-- An id made of too many digits has no order. -/
theorem ofId_tooLong {digits : List Char} (hdigits : isNumber digits = true)
    (hlong : digitLimit < digits.length) :
    ofId (.str (String.ofList digits)) = .error .unsuitable := by
  have hdigit : ∀ c ∈ digits, isDecimalDigit c = true :=
    List.all_eq_true.mp (Bool.and_eq_true_iff.mp hdigits).2
  have hchomp : chomp digits = digits := by
    refine if_neg fun hlast => ?_
    have hend := hdigit _ (List.mem_of_getLast? hlast)
    revert hend
    decide
  have hruns : runs digits = [digits] := by
    refine runs_of_notMem fun hdot => ?_
    have hpoint := hdigit _ hdot
    revert hpoint
    decide
  have hnot : isReadable (String.ofList digits) = false := by
    simp [isReadable, String.toList_ofList, hchomp, hruns, hdigits, hlong]
  rw [ofId, hnot]
  rfl

/-- An id with one digit more than can be read. -/
def longId : Document := .str (String.ofList (List.replicate (digitLimit + 1) '1'))

theorem ofId_longId : ofId longId = .error .unsuitable := by
  refine ofId_tooLong ?_ (by rw [List.length_replicate]; exact Nat.lt_succ_self _)
  have hone : isDecimalDigit '1' = true := by decide
  simp [isNumber, hone]

end SortKey

/-! ### Stable sorting -/

section Stable

variable {α : Type} {le : α → α → Bool}

/-- A list is cut in one way only into a part without and a part with a property. -/
theorem append_inj_of_split {q : α → Bool} {m₁ m₂ n₁ n₂ : List α} (h : m₁ ++ m₂ = n₁ ++ n₂)
    (hm₁ : ∀ x ∈ m₁, q x = false) (hm₂ : ∀ x ∈ m₂, q x = true)
    (hn₁ : ∀ x ∈ n₁, q x = false) (hn₂ : ∀ x ∈ n₂, q x = true) : m₁ = n₁ ∧ m₂ = n₂ := by
  have hwith : ∀ {l₁ l₂ : List α}, (∀ x ∈ l₁, q x = false) → (∀ x ∈ l₂, q x = true) →
      (l₁ ++ l₂).filter q = l₂ := fun h₁ h₂ => by
    rw [List.filter_append, List.filter_eq_self.mpr h₂, List.filter_eq_nil_iff.mpr, List.nil_append]
    intro x hx
    simp [h₁ x hx]
  have htail : m₂ = n₂ := by rw [← hwith hm₁ hm₂, h, hwith hn₁ hn₂]
  subst htail
  exact ⟨List.append_cancel_right h, rfl⟩

/-- Sorting is stable, so items may be left out before or after it. -/
theorem mergeSort_filter (trans : ∀ a b c, le a b = true → le b c = true → le a c = true)
    (total : ∀ a b, (le a b || le b a) = true) (p : α → Bool) : ∀ xs : List α,
    (xs.filter p).mergeSort le = (xs.mergeSort le).filter p
  | [] => by simp
  | x :: xs => by
    obtain ⟨l₁, l₂, hcons, htail, hbefore⟩ := List.mergeSort_cons trans total x xs
    have hafter : ∀ y ∈ l₂, le x y = true := by
      have hsorted := List.pairwise_mergeSort trans total (x :: xs)
      rw [hcons] at hsorted
      exact fun y hy => List.rel_of_pairwise_cons (List.pairwise_append.mp hsorted).2.1 hy
    have hrest := mergeSort_filter trans total p xs
    rw [htail, List.filter_append] at hrest
    rw [hcons, List.filter_append]
    by_cases hp : p x = true
    · rw [List.filter_cons_of_pos hp, List.filter_cons_of_pos hp]
      obtain ⟨m₁, m₂, hcons', htail', hbefore'⟩ := List.mergeSort_cons trans total x (xs.filter p)
      have hafter' : ∀ y ∈ m₂, le x y = true := by
        have hsorted := List.pairwise_mergeSort trans total (x :: xs.filter p)
        rw [hcons'] at hsorted
        exact fun y hy => List.rel_of_pairwise_cons (List.pairwise_append.mp hsorted).2.1 hy
      obtain ⟨h₁, h₂⟩ := append_inj_of_split (htail'.symm.trans hrest)
        (fun y hy => by simpa using hbefore' y hy) hafter'
        (fun y hy => by simpa using hbefore y (List.mem_of_mem_filter hy))
        (fun y hy => hafter y (List.mem_of_mem_filter hy))
      rw [hcons', h₁, h₂]
    · rw [List.filter_cons_of_neg hp, List.filter_cons_of_neg hp, hrest]

end Stable

/-! ### Items and the keys of their blocks -/

/-- The ids of both blocks have an order, and the first one's is not the later. -/
def Block.upTo (b c : Block) : Prop :=
  ∃ j k, b.sortKey = .ok j ∧ c.sortKey = .ok k ∧ j.le k = true

section Keyed

variable {α : Type} {block : α → Block}

theorem withSortKeys_cons {x : α} {xs : List α} {keyed : List (SortKey × α)} :
    withSortKeys block (x :: xs) = .ok keyed ↔ ∃ key more,
      (block x).sortKey = .ok key ∧ withSortKeys block xs = .ok more ∧ keyed = (key, x) :: more := by
  rw [withSortKeys]
  simp only [bind_eq_ok, pure, Except.pure, Except.ok.injEq]
  constructor
  · rintro ⟨key, hkey, more, hmore, rfl⟩
    exact ⟨key, more, hkey, hmore, rfl⟩
  · rintro ⟨key, more, hkey, hmore, rfl⟩
    exact ⟨key, hkey, more, hmore, rfl⟩

/-- Items keep the sort keys of their blocks. -/
theorem sortKey_of_withSortKeys : ∀ {items : List α} {keyed : List (SortKey × α)},
    withSortKeys block items = .ok keyed → ∀ pair ∈ keyed, (block pair.2).sortKey = .ok pair.1
  | [], _, h => by cases h; simp
  | x :: xs, _, h => by
    obtain ⟨key, more, hkey, hmore, rfl⟩ := withSortKeys_cons.mp h
    intro pair hpair
    rcases List.mem_cons.mp hpair with rfl | hpair
    · exact hkey
    · exact sortKey_of_withSortKeys hmore pair hpair

theorem withSortKeys_filter (p : α → Bool) : ∀ {items : List α} {keyed : List (SortKey × α)},
    withSortKeys block items = .ok keyed →
      withSortKeys block (items.filter p) = .ok (keyed.filter fun pair => p pair.2)
  | [], _, h => by cases h; rfl
  | x :: xs, _, h => by
    obtain ⟨key, more, hkey, hmore, rfl⟩ := withSortKeys_cons.mp h
    have hrest := withSortKeys_filter p hmore
    by_cases hp : p x = true
    · rw [List.filter_cons_of_pos hp, List.filter_cons_of_pos (by exact hp)]
      exact withSortKeys_cons.mpr ⟨key, _, hkey, hrest, rfl⟩
    · rw [List.filter_cons_of_neg hp, List.filter_cons_of_neg (by exact hp)]
      exact hrest

theorem withSortKeys_succeeds_iff : ∀ {items : List α},
    (∃ keyed, withSortKeys block items = .ok keyed) ↔
      ∀ x ∈ items, ∃ key, (block x).sortKey = .ok key
  | [] => by simp [withSortKeys]
  | x :: xs => by
    have ih := @withSortKeys_succeeds_iff xs
    simp only [withSortKeys_cons, List.forall_mem_cons, ← ih]
    constructor
    · rintro ⟨_, key, more, hkey, hmore, -⟩
      exact ⟨⟨key, hkey⟩, more, hmore⟩
    · rintro ⟨⟨key, hkey⟩, more, hmore⟩
      exact ⟨_, key, more, hkey, hmore, rfl⟩

theorem inNaturalOrder_eq_ok {items sorted : List α} :
    inNaturalOrder block items = .ok sorted ↔ ∃ keyed, withSortKeys block items = .ok keyed ∧
      sorted = (keyed.mergeSort fun x y => x.1.le y.1).map (·.2) := by
  unfold inNaturalOrder
  cases withSortKeys block items <;> simp [Except.map, eq_comm]

/-- Items can be put in order exactly if the ids of their blocks have one. -/
theorem inNaturalOrder_succeeds_iff {items : List α} :
    (∃ sorted, inNaturalOrder block items = .ok sorted) ↔
      ∀ x ∈ items, ∃ key, (block x).sortKey = .ok key := by
  rw [← withSortKeys_succeeds_iff]
  simp only [inNaturalOrder_eq_ok]
  constructor
  · rintro ⟨_, keyed, h, -⟩
    exact ⟨keyed, h⟩
  · rintro ⟨keyed, h⟩
    exact ⟨_, keyed, h, rfl⟩

/-- **In natural order no block comes before one of an earlier id.** -/
theorem inNaturalOrder_pairwise {items sorted : List α}
    (h : inNaturalOrder block items = .ok sorted) :
    sorted.Pairwise fun x y => (block x).upTo (block y) := by
  obtain ⟨keyed, hkeyed, rfl⟩ := inNaturalOrder_eq_ok.mp h
  have hsorted := @List.pairwise_mergeSort _ (fun x y : SortKey × α => x.1.le y.1)
    (fun _ _ _ => SortKey.le_trans _ _ _) (fun _ _ => SortKey.le_total _ _) keyed
  rw [List.pairwise_map]
  refine hsorted.imp_of_mem fun {x y} hx hy hle => ?_
  have key := sortKey_of_withSortKeys hkeyed
  exact ⟨x.1, y.1, key x (List.mem_mergeSort.mp hx), key y (List.mem_mergeSort.mp hy), hle⟩

/-- Items that are left out before sorting may as well be left out after it. -/
theorem inNaturalOrder_filter (p : α → Bool) {items sorted : List α}
    (h : inNaturalOrder block items = .ok sorted) :
    inNaturalOrder block (items.filter p) = .ok (sorted.filter p) := by
  obtain ⟨keyed, hkeyed, rfl⟩ := inNaturalOrder_eq_ok.mp h
  refine inNaturalOrder_eq_ok.mpr ⟨_, withSortKeys_filter p hkeyed, ?_⟩
  rw [@mergeSort_filter _ (fun x y : SortKey × α => x.1.le y.1)
    (fun _ _ _ => SortKey.le_trans _ _ _) (fun _ _ => SortKey.le_total _ _), List.filter_map]
  rfl

theorem withSortKeys_map {β : Type} (f : β → α) : ∀ items : List β,
    withSortKeys block (items.map f) =
      (withSortKeys (fun x => block (f x)) items).map (·.map (Prod.map id f))
  | [] => rfl
  | x :: xs => by
    rw [List.map_cons, withSortKeys, withSortKeys, withSortKeys_map f xs]
    cases (block (f x)).sortKey with
    | error => rfl
    | ok key => cases withSortKeys (fun x => block (f x)) xs <;> rfl

/-- Items that stand for others are put in the same order as those. -/
theorem inNaturalOrder_map {β : Type} (f : β → α) (items : List β) :
    inNaturalOrder block (items.map f) =
      (inNaturalOrder (fun x => block (f x)) items).map (·.map f) := by
  unfold inNaturalOrder
  rw [withSortKeys_map]
  cases withSortKeys (fun x => block (f x)) items with
  | error => rfl
  | ok keyed =>
    simp only [Except.map]
    rw [← @List.map_mergeSort _ _ (fun x y : SortKey × β => x.1.le y.1)
      (fun x y : SortKey × α => x.1.le y.1) (Prod.map id f) keyed (fun _ _ _ _ => rfl)]
    simp only [List.map_map]
    rfl

end Keyed

end Questionnaire
