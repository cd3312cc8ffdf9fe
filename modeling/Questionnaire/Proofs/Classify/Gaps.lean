/-
# Rare choices are those below the first gap

The counts of a question's choices are climbed from the lowest to the first that
is much greater than the one before. The choices below it are rare. If there is
no such gap, none of them is: all that were counted would be.

Key definitions: `NextCount`, `FirstGap`, `upTo`.
Key theorems: `lowTiers_cases`, `rareChoicesOf_cases`, `rareChoices_below_gap`.
-/
import Questionnaire.Classify.RareChoices
import Questionnaire.Proofs.Classify.Counts
import Questionnaire.Proofs.Survey.Leaves

namespace Questionnaire

variable {epsilon : Number} {counts : List Nat} {m n : Nat}

/-! ### Neighbours among counts -/

/-- Of some counts, `n` is the next greater one after `m`. -/
structure NextCount (counts : List Nat) (m n : Nat) : Prop where
  low : m ∈ counts
  high : n ∈ counts
  lt : m < n
  between : ∀ k ∈ counts, k ≤ m ∨ n ≤ k

/-- The first gap among some counts is the one between `m` and `n`. -/
structure FirstGap (epsilon : Number) (counts : List Nat) (m n : Nat) : Prop where
  next : NextCount counts m n
  gap : isGap epsilon m n = true
  first : ∀ m' n', NextCount counts m' n' → isGap epsilon m' n' = true → m ≤ m'

theorem NextCount.congr {counts' : List Nat} (hsame : ∀ k, k ∈ counts ↔ k ∈ counts') :
    NextCount counts m n ↔ NextCount counts' m n := by
  constructor
  · exact fun h => ⟨(hsame m).mp h.low, (hsame n).mp h.high, h.lt,
      fun k hk => h.between k ((hsame k).mpr hk)⟩
  · exact fun h => ⟨(hsame m).mpr h.low, (hsame n).mpr h.high, h.lt,
      fun k hk => h.between k ((hsame k).mp hk)⟩

theorem FirstGap.congr {counts' : List Nat} (hsame : ∀ k, k ∈ counts ↔ k ∈ counts') :
    FirstGap epsilon counts m n ↔ FirstGap epsilon counts' m n := by
  constructor
  · exact fun h => ⟨(NextCount.congr hsame).mp h.next, h.gap,
      fun m' n' hnext => h.first m' n' ((NextCount.congr hsame).mpr hnext)⟩
  · exact fun h => ⟨(NextCount.congr hsame).mpr h.next, h.gap,
      fun m' n' hnext => h.first m' n' ((NextCount.congr hsame).mp hnext)⟩

theorem NextCount.several (h : NextCount counts m n) : 1 < counts.length := by
  match counts, h with
  | [], h => exact nomatch h.low
  | [k], h =>
    have hm := List.mem_singleton.mp h.low
    have hn := List.mem_singleton.mp h.high
    have hlt := h.lt
    omega
  | _ :: _ :: _, _ => simp

/-- In a rising list, the neighbours are the first two, and those of the rest. -/
theorem nextCount_cons_cons {a b : Nat} {rest : List Nat} (h : (a :: b :: rest).Pairwise (· < ·)) :
    NextCount (a :: b :: rest) m n ↔ m = a ∧ n = b ∨ NextCount (b :: rest) m n := by
  obtain ⟨ha, hrest⟩ := List.pairwise_cons.mp h
  have hb : ∀ k ∈ b :: rest, b ≤ k := by
    intro k hk
    rcases List.mem_cons.mp hk with rfl | hk
    · exact Nat.le_refl k
    · exact Nat.le_of_lt ((List.pairwise_cons.mp hrest).1 k hk)
  have hab : a < b := ha b List.mem_cons_self
  constructor
  · intro hnext
    have hlt := hnext.lt
    have hhigh : n ∈ b :: rest := by
      refine (List.mem_cons.mp hnext.high).resolve_left fun hn => ?_
      rcases List.mem_cons.mp hnext.low with hm | hm
      · omega
      · have := ha m hm
        omega
    rcases List.mem_cons.mp hnext.low with rfl | hlow
    · have := hb n hhigh
      rcases hnext.between b (List.mem_cons_of_mem _ List.mem_cons_self) with hle | hle
      · omega
      · exact .inl ⟨rfl, by omega⟩
    · exact .inr ⟨hlow, hhigh, hlt, fun k hk => hnext.between k (List.mem_cons_of_mem a hk)⟩
  · rintro (⟨rfl, rfl⟩ | hnext)
    · refine ⟨List.mem_cons_self, List.mem_cons_of_mem _ List.mem_cons_self, hab, fun k hk => ?_⟩
      rcases List.mem_cons.mp hk with rfl | hk
      · exact .inl (Nat.le_refl k)
      · exact .inr (hb k hk)
    · refine ⟨List.mem_cons_of_mem a hnext.low, List.mem_cons_of_mem a hnext.high, hnext.lt,
        fun k hk => ?_⟩
      rcases List.mem_cons.mp hk with rfl | hk
      · exact .inl (Nat.le_of_lt (ha m hnext.low))
      · exact hnext.between k hk

/-! ### Climbing the counts -/

/-- The counts that are climbed are those up to the first gap, or all if there is none. -/
theorem upToGap_cases : ∀ {ns : List Nat} {before : Nat}, (before :: ns).Pairwise (· < ·) →
    (∃ m n, FirstGap epsilon (before :: ns) m n ∧
      ∀ k, k ∈ before :: upToGap epsilon before ns ↔ k ∈ before :: ns ∧ k ≤ m) ∨
    (∀ m n, NextCount (before :: ns) m n → isGap epsilon m n = false) ∧
      upToGap epsilon before ns = ns
  | [], before, _ => by
    exact .inr ⟨fun m n hnext => absurd hnext.several (Nat.lt_irrefl 1), rfl⟩
  | n :: ns, before, h => by
    obtain ⟨hbefore, hrest⟩ := List.pairwise_cons.mp h
    have hlt : before < n := hbefore n List.mem_cons_self
    rw [upToGap]
    by_cases hgap : isGap epsilon before n = true
    · rw [if_pos hgap]
      have hnext := (nextCount_cons_cons h).mpr (.inl ⟨rfl, rfl⟩)
      refine .inl ⟨before, n, ⟨hnext, hgap, ?_⟩, fun k => ?_⟩
      · intro m' n' hnext _
        rcases List.mem_cons.mp hnext.low with rfl | hm
        · exact Nat.le_refl m'
        · exact Nat.le_of_lt (hbefore m' hm)
      · rw [List.mem_singleton]
        refine ⟨fun hk => ⟨hk ▸ List.mem_cons_self, Nat.le_of_eq hk⟩, fun ⟨hk, hle⟩ => ?_⟩
        rcases List.mem_cons.mp hk with hk | hk
        · exact hk
        · have := hbefore k hk
          omega
    · rw [if_neg hgap]
      -- no gap before `n`, so the first one is that of the counts from `n` on
      rcases upToGap_cases hrest with ⟨m, n', hfirst, hlow⟩ | ⟨hnone, hall⟩
      · have hm : before < m := hbefore m hfirst.next.low
        have hnext := (nextCount_cons_cons h).mpr (.inr hfirst.next)
        refine .inl ⟨m, n', ⟨hnext, hfirst.gap, ?_⟩, fun k => ?_⟩
        · intro m' n'' hnext hgap'
          rcases (nextCount_cons_cons h).mp hnext with ⟨rfl, rfl⟩ | hnext
          · exact absurd hgap' hgap
          · exact hfirst.first m' n'' hnext hgap'
        · have hmem : k ∈ before :: n :: ns ↔ k = before ∨ k ∈ n :: ns := List.mem_cons
          rw [List.mem_cons, hlow, hmem]
          constructor
          · rintro (rfl | ⟨hk, hle⟩)
            · exact ⟨.inl rfl, Nat.le_of_lt hm⟩
            · exact ⟨.inr hk, hle⟩
          · rintro ⟨rfl | hk, hle⟩
            · exact .inl rfl
            · exact .inr ⟨hk, hle⟩
      · refine .inr ⟨fun m' n' hnext => ?_, by rw [hall]⟩
        rcases (nextCount_cons_cons h).mp hnext with ⟨rfl, rfl⟩ | hnext
        · simpa using hgap
        · exact hnone m' n' hnext

/-- **The counts below the first gap** are those up to it, or all if there is none. -/
theorem lowTiers_cases (h : counts.Pairwise (· < ·)) :
    (∃ m n, FirstGap epsilon counts m n ∧
      ∀ k, k ∈ lowTiers epsilon counts ↔ k ∈ counts ∧ k ≤ m) ∨
    (∀ m n, NextCount counts m n → isGap epsilon m n = false) ∧
      lowTiers epsilon counts = counts := by
  match counts with
  | [] => exact .inr ⟨fun m n hnext => (nomatch hnext.low), rfl⟩
  | before :: ns =>
    rcases upToGap_cases h with hgap | ⟨hnone, hall⟩
    · exact .inl hgap
    · exact .inr ⟨hnone, congrArg (before :: ·) hall⟩

theorem nodup_eraseDups (ns : List Nat) : ns.eraseDups.Nodup := by
  match ns with
  | [] => exact .nil
  | n :: ns =>
    rw [List.eraseDups_cons]
    refine List.nodup_cons.mpr ⟨fun hmem => ?_, nodup_eraseDups _⟩
    have hkept := (List.mem_filter.mp (List.mem_eraseDups.mp hmem)).2
    simp at hkept
termination_by ns.length
decreasing_by
  have := List.length_filter_le (fun k => !k == n) ns
  simp only [List.length_cons]
  omega

section Tiers

variable {t : Tally Document}

theorem mem_tiers {k : Nat} : k ∈ tiers t ↔ k ∈ t.map (·.2) := by
  rw [tiers, List.mem_mergeSort, List.mem_eraseDups]

theorem pairwise_tiers : (tiers t).Pairwise (· < ·) := by
  have hsorted : (tiers t).Pairwise fun m n => decide (m ≤ n) = true :=
    List.pairwise_mergeSort (by simp; omega) (by simp; omega) _
  have hnodup : (tiers t).Nodup := (List.mergeSort_perm _ _).nodup_iff.mpr (nodup_eraseDups _)
  refine (hsorted.and hnodup).imp fun {m n} ⟨hle, hne⟩ => ?_
  have := of_decide_eq_true hle
  omega

end Tiers

/-! ### Rare choices -/

section Rare

variable {t : Tally Document} {q : Question} {p : Nat → Bool} {c : Choice}

/-- The choices of a question whose counts are as said. -/
def countedAs (t : Tally Document) (q : Question) (p : Nat → Bool) : List Choice :=
  q.choices.filter fun c => (t.lookup c.id).any p

/-- The choices of a question with a count that is at most `m`. -/
def upTo (t : Tally Document) (q : Question) (m : Nat) : List Choice :=
  countedAs t q fun k => decide (k ≤ m)

theorem mem_upTo : c ∈ upTo t q m ↔ c ∈ q.choices ∧ ∃ k, t.lookup c.id = some k ∧ k ≤ m := by
  unfold upTo countedAs
  simp only [List.mem_filter, Option.any_eq_true, decide_eq_true_eq]

/-- With a choice, all those that were counted less often are among them. -/
theorem mem_upTo_of_le {d : Choice} {k l : Nat} (hc : c ∈ upTo t q m) (hd : d ∈ q.choices)
    (hk : t.lookup c.id = some k) (hl : t.lookup d.id = some l) (hle : l ≤ k) :
    d ∈ upTo t q m := by
  obtain ⟨-, k', hk', hlow⟩ := mem_upTo.mp hc
  cases hk.symm.trans hk'
  exact mem_upTo.mpr ⟨hd, l, hl, Nat.le_trans hle hlow⟩

variable (h : q.Owns t) (hapart : Document.Apart (q.choices.map (·.id)))
include h hapart

theorem mem_countedAs :
    c ∈ countedAs t q p ↔ c ∈ q.choices ∧ ∃ k, (c.id, k) ∈ t ∧ p k = true := by
  unfold countedAs
  rw [List.mem_filter, Option.any_eq_true]
  refine and_congr_right fun hc => exists_congr fun k => and_congr_left fun _ => ?_
  exact h.lookup_eq_some_iff hapart hc

/-- Each entry is that of one choice. -/
theorem length_countedAs (hkeys : ∀ c ∈ q.choices, c.id.isKey = true) :
    (countedAs t q p).length = (t.filter fun entry => p entry.2).length := by
  have hids : (q.choices.map (·.id)).Nodup := hapart.nodup (by simpa using hkeys)
  have hperm : ((countedAs t q p).map (·.id)).Perm
      ((t.filter fun entry => p entry.2).map (·.1)) := by
    refine (List.perm_ext_iff_of_nodup (hids.sublist (List.filter_sublist.map _))
      (h.nodup.sublist (List.filter_sublist.map _))).mpr fun id => ?_
    constructor
    · intro hid
      obtain ⟨c, hc, rfl⟩ := List.mem_map.mp hid
      obtain ⟨-, k, hk, hp⟩ := (mem_countedAs h hapart).mp hc
      exact List.mem_map.mpr ⟨(c.id, k), List.mem_filter.mpr ⟨hk, hp⟩, rfl⟩
    · intro hid
      obtain ⟨⟨_, k⟩, hentry, rfl⟩ := List.mem_map.mp hid
      obtain ⟨hmem, hp⟩ := List.mem_filter.mp hentry
      obtain ⟨-, c, hc, rfl⟩ := h.own _ (List.mem_map_of_mem hmem)
      exact List.mem_map_of_mem ((mem_countedAs h hapart).mpr ⟨hc, k, hmem, hp⟩)
  simpa using hperm.length_eq

/-- Each count is that of a choice. -/
theorem exists_choice {k : Nat} (hk : k ∈ t.map (·.2)) :
    ∃ c ∈ q.choices, t.lookup c.id = some k := by
  obtain ⟨entry, hentry, rfl⟩ := List.mem_map.mp hk
  obtain ⟨-, c, hc, hid⟩ := h.own _ (List.mem_map_of_mem hentry)
  exact ⟨c, hc, (h.lookup_eq_some_iff hapart hc).mpr (hid ▸ hentry)⟩

theorem upTo_ne_nil (hm : m ∈ t.map (·.2)) : upTo t q m ≠ [] := by
  obtain ⟨c, hc, hcount⟩ := exists_choice h hapart hm
  exact List.ne_nil_of_mem (mem_upTo.mpr ⟨hc, m, hcount, Nat.le_refl m⟩)

/-- A choice with a greater count is left out. -/
theorem exists_notMem_upTo (hn : n ∈ t.map (·.2)) (hlt : m < n) :
    ∃ c ∈ q.choices, (t.lookup c.id).isSome = true ∧ c ∉ upTo t q m := by
  obtain ⟨c, hc, hcount⟩ := exists_choice h hapart hn
  refine ⟨c, hc, by rw [hcount]; rfl, fun hmem => ?_⟩
  obtain ⟨-, k, hk, hlow⟩ := mem_upTo.mp hmem
  cases hcount.symm.trans hk
  omega

theorem length_upTo_lt (hkeys : ∀ c ∈ q.choices, c.id.isKey = true) (hn : n ∈ t.map (·.2))
    (hlt : m < n) : (upTo t q m).length < t.length := by
  obtain ⟨entry, hentry, rfl⟩ := List.mem_map.mp hn
  rw [upTo, length_countedAs h hapart hkeys]
  exact List.length_filter_lt_length_iff_exists.mpr ⟨entry, hentry, by simpa using hlt⟩

/-- The choices with counts that are climbed, if these are the counts up to `m`. -/
theorem countedAs_lowTiers
    (hlow : ∀ k, k ∈ lowTiers epsilon (tiers t) ↔ k ∈ tiers t ∧ k ≤ m) :
    countedAs t q (lowTiers epsilon (tiers t)).contains = upTo t q m := by
  refine List.filter_congr fun c hc => ?_
  cases hfound : t.lookup c.id with
  | none => rfl
  | some k =>
    have hmem : k ∈ tiers t :=
      mem_tiers.mpr (List.mem_map.mpr ⟨_, (h.lookup_eq_some_iff hapart hc).mp hfound, rfl⟩)
    rw [Option.any_some, Option.any_some, List.contains_eq_mem, decide_eq_decide, hlow]
    exact and_iff_right hmem

/-- There is a choice for each entry with a count that is climbed, if these are all counts. -/
theorem length_countedAs_tiers (hkeys : ∀ c ∈ q.choices, c.id.isKey = true) :
    (countedAs t q (tiers t).contains).length = t.length := by
  rw [length_countedAs h hapart hkeys]
  refine congrArg List.length (List.filter_eq_self.mpr fun entry hentry => ?_)
  simpa [mem_tiers] using ⟨_, hentry⟩

/-- **The rare choices of a question** are those with counts up to the first gap, and there are
some; without a gap there are none. -/
theorem rareChoicesOf_cases (hkeys : 1 < t.length → ∀ c ∈ q.choices, c.id.isKey = true) :
    (∃ m n, FirstGap epsilon (t.map (·.2)) m n ∧ rareChoicesOf epsilon t q = upTo t q m ∧
      upTo t q m ≠ []) ∨
    (∀ m n, NextCount (t.map (·.2)) m n → isGap epsilon m n = false) ∧
      rareChoicesOf epsilon t q = [] := by
  have hdef : rareChoicesOf epsilon t q =
      if t.length ≤ 1 || (countedAs t q (lowTiers epsilon (tiers t)).contains).length == t.length
      then [] else countedAs t q (lowTiers epsilon (tiers t)).contains := rfl
  rcases @lowTiers_cases epsilon (tiers t) pairwise_tiers with
    ⟨m, n, hfirst, hlow⟩ | ⟨hnone, hall⟩
  case inl =>
    have hgap : FirstGap epsilon (t.map (·.2)) m n := (FirstGap.congr fun k => mem_tiers).mp hfirst
    have hseveral : 1 < t.length := by simpa using hgap.next.several
    have hrare := countedAs_lowTiers h hapart hlow
    -- the choice with the count above the gap is missing, so they are not taken for all
    have hfewer := length_upTo_lt h hapart (hkeys hseveral) hgap.next.high hgap.next.lt
    refine .inl ⟨m, n, hgap, ?_, upTo_ne_nil h hapart hgap.next.low⟩
    rw [hdef, hrare, if_neg (by simp; omega)]
  case inr =>
    refine .inr ⟨fun m n hnext => hnone m n ((NextCount.congr fun k => mem_tiers).mpr hnext), ?_⟩
    rw [hdef, hall]
    by_cases hseveral : 1 < t.length
    · simp [length_countedAs_tiers h hapart (hkeys hseveral)]
    · simp [Nat.le_of_not_lt hseveral]

end Rare

/-! ### The questions of a survey -/

section Survey

variable {s : Survey} {fs : Frequencies} {epsilon : Document} {e : Number} {rare : RareChoices}
  {q : Question} {these : List Choice}

theorem isContested_iff : isContested fs q = true ↔ 1 < (fs.countsOf q).length := by
  unfold isContested Frequencies.countsOf
  cases (fs.counts? q.id).getD [] with
  | nil => simp
  | cons entry rest => cases rest <;> simp

theorem mem_rareChoicesWithin : (q, these) ∈ rareChoicesWithin s fs e ↔
    q ∈ s.questions ∧ rareChoicesOf e (fs.countsOf q) q = these ∧ these ≠ [] := by
  rw [rareChoicesWithin, List.mem_filterMap]
  constructor
  · rintro ⟨r, hr, h⟩
    split at h
    · cases h
    · rename_i hne
      cases h
      exact ⟨hr, rfl, hne⟩
  · rintro ⟨hq, rfl, hne⟩
    refine ⟨q, hq, ?_⟩
    split
    · rename_i hnil
      exact absurd hnil hne
    · rfl

/-- Without a gap to look for, the tolerance does not matter. -/
theorem rareChoicesOf_of_not_hasTiers (h : hasTiers fs q = false) (e e' : Number) :
    rareChoicesOf e (fs.countsOf q) q = rareChoicesOf e' (fs.countsOf q) q := by
  have hlow : lowTiers e (tiers (fs.countsOf q)) = lowTiers e' (tiers (fs.countsOf q)) := by
    unfold hasTiers at h
    unfold Frequencies.countsOf
    rcases htiers : tiers ((fs.counts? q.id).getD []) with _ | ⟨n, _ | ⟨m, ns⟩⟩
    · rfl
    · rfl
    · simp [htiers] at h
  unfold rareChoicesOf
  rw [hlow]

theorem rareChoices_eq (he : epsilon.number = .ok e) : rareChoices s fs epsilon =
    if areLookedUp s fs then .ok (rareChoicesWithin s fs e) else .error .illTyped := by
  unfold rareChoices
  by_cases hkeys : areLookedUp s fs = true
  · rw [if_pos hkeys]
    by_cases htiers : s.questions.any (hasTiers fs) = true
    · have htolerance : toleranceFor s fs epsilon = .ok e := by rw [toleranceFor, if_pos htiers, he]
      simp [hkeys, htolerance, bind, Except.bind, pure, Except.pure]
    · have htolerance : toleranceFor s fs epsilon = .ok 0 := by rw [toleranceFor, if_neg htiers]
      have hsame : rareChoicesWithin s fs 0 = rareChoicesWithin s fs e := by
        refine List.filterMap_congr fun q hq => ?_
        have hnone : hasTiers fs q = false := by
          by_contra hsome
          exact htiers (List.any_eq_true.mpr ⟨q, hq, by simpa using hsome⟩)
        have hrare := rareChoicesOf_of_not_hasTiers hnone 0 e
        unfold Frequencies.countsOf at hrare
        simp only [hrare]
      simp [hkeys, htolerance, hsame, bind, Except.bind, pure, Except.pure]
  · simp [hkeys, bind, Except.bind, throw, throwThe, MonadExceptOf.throw]

theorem rareChoices_eq_ok (he : epsilon.number = .ok e) : rareChoices s fs epsilon = .ok rare ↔
    areLookedUp s fs = true ∧ rareChoicesWithin s fs e = rare := by
  rw [rareChoices_eq he]
  by_cases hkeys : areLookedUp s fs = true <;> simp [hkeys]

theorem areLookedUp_iff : areLookedUp s fs = true ↔ ∀ q ∈ s.questions, q.id.isKey = true ∧
    (1 < (fs.countsOf q).length → ∀ c ∈ q.choices, c.id.isKey = true) := by
  unfold areLookedUp
  rw [List.all_eq_true]
  refine forall₂_congr fun q _ => ?_
  rw [Bool.and_eq_true, Bool.or_eq_true, List.all_eq_true, ← isContested_iff]
  refine and_congr_right fun _ => ?_
  cases isContested fs q <;> simp

/-- **The rare choices are those below the first gap.** Let no two questions of the survey have ids
of the same value, nor two choices of a question, and let the responses select choices of the
survey's own. Rare choices are found if all ids are fit for keys. If they are found, a question has
some exactly if its counts have a gap, and then they are, in source order, its choices with counts
up to the first gap. There is at least one, with it all those with lower counts, and some choice
that was counted is not rare. -/
theorem rareChoices_below_gap (hs : s.HasDistinctIds) {responses : List Response}
    (hown : ∀ r ∈ responses, r.BelongsTo s) (smoothing : Bool) (he : epsilon.number = .ok e) :
    ((∀ q ∈ s.questions, q.id.isKey = true ∧ ∀ c ∈ q.choices, c.id.isKey = true) →
      ∃ fs rare, Frequencies.gather s smoothing responses = .ok fs ∧
        rareChoices s fs epsilon = .ok rare) ∧
    ∀ fs rare, Frequencies.gather s smoothing responses = .ok fs →
      rareChoices s fs epsilon = .ok rare →
      (∀ q, (∃ these, (q, these) ∈ rare) ↔ q ∈ s.questions ∧
        ∃ m n, NextCount ((fs.countsOf q).map (·.2)) m n ∧ isGap e m n = true) ∧
      ∀ q these, (q, these) ∈ rare →
        (∃ m n, FirstGap e ((fs.countsOf q).map (·.2)) m n ∧ these = upTo (fs.countsOf q) q m) ∧
        these ≠ [] ∧
        (∀ c ∈ these, ∀ d ∈ q.choices, ∀ k l, (fs.countsOf q).lookup c.id = some k →
          (fs.countsOf q).lookup d.id = some l → l ≤ k → d ∈ these) ∧
        ∃ c ∈ q.choices, ((fs.countsOf q).lookup c.id).isSome = true ∧ c ∉ these := by
  refine ⟨fun hkeys => ?_, fun fs rare hfs hrare => ?_⟩
  · obtain ⟨fs, hfs⟩ := Frequencies.gather_succeeds hown hkeys smoothing
    have hlookedUp : areLookedUp s fs = true :=
      areLookedUp_iff.mpr fun q hq => ⟨(hkeys q hq).1, fun _ => (hkeys q hq).2⟩
    exact ⟨fs, _, hfs, (rareChoices_eq_ok he).mpr ⟨hlookedUp, rfl⟩⟩
  obtain ⟨hkeys, rfl⟩ := (rareChoices_eq_ok he).mp hrare
  have howns : ∀ q ∈ s.questions, q.Owns (fs.countsOf q) :=
    fun q hq => (Frequencies.areOwn_gather hs hown hfs).countsOf hs hq
  have hcases := fun q hq => @rareChoicesOf_cases e _ q (howns q hq) (hs.choices q hq)
    ((areLookedUp_iff.mp hkeys q hq).2)
  refine ⟨fun q => ⟨?_, ?_⟩, ?_⟩
  · rintro ⟨these, hmem⟩
    obtain ⟨hq, hthese, hne⟩ := mem_rareChoicesWithin.mp hmem
    refine ⟨hq, ?_⟩
    rcases hcases q hq with ⟨m, n, hfirst, -, -⟩ | ⟨-, hnil⟩
    · exact ⟨m, n, hfirst.next, hfirst.gap⟩
    · exact absurd (hthese.symm.trans hnil) hne
  · rintro ⟨hq, m, n, hnext, hgap⟩
    rcases hcases q hq with ⟨m', n', -, hthese, hne⟩ | ⟨hnone, -⟩
    · exact ⟨_, mem_rareChoicesWithin.mpr ⟨hq, hthese, hne⟩⟩
    · rw [hnone m n hnext] at hgap
      cases hgap
  · intro q these hmem
    obtain ⟨hq, hthese, hne⟩ := mem_rareChoicesWithin.mp hmem
    rcases hcases q hq with ⟨m, n, hfirst, hupTo, -⟩ | ⟨-, hnil⟩
    case inr => exact absurd (hthese.symm.trans hnil) hne
    obtain rfl := hthese.symm.trans hupTo
    exact ⟨⟨m, n, hfirst, rfl⟩, hne,
      fun c hc d hd k l hk hl hle => mem_upTo_of_le hc hd hk hl hle,
      exists_notMem_upTo (howns q hq) (hs.choices q hq) hfirst.next.high hfirst.next.lt⟩

end Survey

/-! ### A choice that is rare -/

/-- Two responses that select one choice at the fork, and one that selects the other. -/
def forkUneven : List Response :=
  [plainResponse "sr0" [(Survey.forkFirst, ["long"])],
    plainResponse "sr1" [(Survey.forkFirst, ["short"])],
    plainResponse "sr2" [(Survey.forkFirst, ["long"])]]

theorem hasDistinctIds_fork : (Survey.fork Survey.more).HasDistinctIds := by
  constructor
  · decide +kernel
  · decide +kernel

/-- The counts of the responses. -/
def forkCounts : Frequencies := [(.str "q1", [(.str "long", 2), (.str "short", 1)])]

theorem rareChoices_below_gap_fork :
    Survey.ofDocument 0 (forkDocument Survey.moreFields) = .ok (Survey.fork Survey.more) ∧
    (Survey.fork Survey.more).HasDistinctIds ∧
    (∀ r ∈ forkUneven, r.BelongsTo (Survey.fork Survey.more)) ∧
    Frequencies.gather (Survey.fork Survey.more) false forkUneven = .ok forkCounts ∧
    (Document.int 0).number = .ok (.int 0) ∧
    ∃ rare, rareChoices (Survey.fork Survey.more) forkCounts (.int 0) = .ok rare ∧
      rare = [(Survey.forkFirst, [plainChoice "short"])] ∧
      ∃ c ∈ Survey.forkFirst.choices, c ∉ [plainChoice "short"] := by
  have hown : ∀ r ∈ forkUneven, r.BelongsTo (Survey.fork Survey.more) := by
    simp [forkUneven, plainResponse, Response.BelongsTo, Survey.questions_fork, Answer.choices,
      Survey.forkFirst, plainQuestion]
  have hnumber : (Document.int 0).number = .ok (.int 0) := rfl
  have hanswers : Frequencies.countedAnswers forkUneven =
      ["long", "short", "long"].map fun choice =>
        ⟨Survey.forkFirst, [⟨plainChoice choice, .int 0⟩], .int 0⟩ := rfl
  have hcounts : Frequencies.gather (Survey.fork Survey.more) false forkUneven =
      .ok forkCounts := by
    unfold Frequencies.gather Frequencies.ofResponses
    rw [hanswers]
    cbv
  have hrare : rareChoices (Survey.fork Survey.more) forkCounts (.int 0) =
      .ok [(Survey.forkFirst, [plainChoice "short"])] := by
    rw [rareChoices_eq hnumber, if_pos (by cbv)]
    cbv
  obtain ⟨-, hfound⟩ := rareChoices_below_gap hasDistinctIds_fork hown false hnumber
  obtain ⟨-, hthese⟩ := hfound _ _ hcounts hrare
  obtain ⟨-, -, -, c, hc, -, hnot⟩ := hthese _ _ List.mem_cons_self
  exact ⟨Survey.ofDocument_fork, hasDistinctIds_fork, hown, hcounts, hnumber, _, hrare, rfl, c,
    hc, hnot⟩

/-- The document of a survey with a question whose id is a list. -/
def oddDocument : Document := .record [("name", .str "oddSurvey"), ("blocks", .list [
  .record [("id", .str "1"), ("questions", .list [.record [("id", .list [])]])]])]

/-- The survey with the question. -/
def oddSurvey : Survey where
  name := .str "oddSurvey"
  blocks := [{ key := ⟨0, 0⟩, id := .str "1", questions := [{ key := ⟨0, 0⟩, id := .list [] }] }]

/-- Nothing is found if the counts of a question cannot be looked up, although it has no gap. -/
theorem rareChoices_odd :
    Survey.ofDocument 0 oddDocument = .ok oddSurvey ∧ oddSurvey.HasDistinctIds ∧
    Frequencies.gather oddSurvey false [] = .ok [] ∧
    (Document.float 0.5).number = .ok (.float 0.5) ∧
    rareChoices oddSurvey [] (.float 0.5) = .error .illTyped := by
  refine ⟨?_, ⟨by decide, by decide⟩, rfl, rfl, rfl⟩
  unfold Survey.ofDocument
  rw [@readBlocks_leaves 0 oddDocument [_] (by cbv) (by cbv)]
  cbv

end Questionnaire
