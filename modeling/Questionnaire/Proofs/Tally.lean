/-
# Entries are looked up by value

What is counted may have the same value as something else, and is then counted
under the same entry. So a tally is a table with one entry for each value, and
the entry says how many of the things that were counted have it. In which order
they were counted does not matter.

Key definitions: `ComparedBy`, `Keyed`, `Tally.Agrees`.
Key theorems: `Keyed.perm_of_lookup`, `Tally.lookup_addAll`, `Tally.lookup_ofList`,
`Tally.agrees_ofList`.
-/
import Mathlib.Data.List.Nodup
import Mathlib.Data.List.Perm.Basic
import Questionnaire.Tally

namespace Questionnaire

/-- Something is the same as `y` exactly if it has the value of `y`. -/
def ComparedBy {α β : Type} [BEq α] (value : α → β) (y : α) : Prop :=
  ∀ x, (x == y) = true ↔ value x = value y

/-- The entries are under things that are compared by value, and there is one for each value. -/
structure Keyed {α β γ : Type} [BEq α] (value : α → β) (entries : List (α × γ)) : Prop where
  compared : ∀ entry ∈ entries, ComparedBy value entry.1
  nodup : (entries.map fun entry => value entry.1).Nodup

variable {α β γ δ : Type} [BEq α] {value : α → β}

namespace Keyed

variable {entries entries' : List (α × γ)}

theorem nil : Keyed value ([] : List (α × γ)) := ⟨nofun, .nil⟩

/-- What is under the things does not matter. -/
theorem of_keys {entries' : List (α × δ)} (h : Keyed value entries)
    (hkeys : entries'.map (·.1) = entries.map (·.1)) : Keyed value entries' := by
  constructor
  · have hcompared := List.forall_mem_map.mpr h.compared
    rw [← hkeys] at hcompared
    exact List.forall_mem_map.mp hcompared
  · have hvalues := congrArg (List.map value) hkeys
    rw [List.map_map, List.map_map] at hvalues
    exact hvalues ▸ h.nodup

/-- An entry may be added if there is none for its value. -/
theorem concat {x : α} (h : Keyed value entries) (hx : ComparedBy value x)
    (hnew : ∀ entry ∈ entries, value entry.1 ≠ value x) (c : γ) :
    Keyed value (entries ++ [(x, c)]) := by
  constructor
  · intro entry hentry
    rcases List.mem_append.mp hentry with hentry | hentry
    · exact h.compared entry hentry
    · exact List.mem_singleton.mp hentry ▸ hx
  · rw [List.map_append]
    refine h.nodup.append (List.nodup_singleton _) ?_
    simpa using hnew

theorem lookup_eq_some_iff {x : α} {c : γ} : ∀ {entries : List (α × γ)}, Keyed value entries →
    (entries.lookup x = some c ↔ ∃ y, (y, c) ∈ entries ∧ value x = value y)
  | [], _ => by simp
  | (z, d) :: rest, h => by
    obtain ⟨hz, hrest⟩ := List.forall_mem_cons.mp h.compared
    obtain ⟨hnew, hnodup⟩ := List.nodup_cons.mp h.nodup
    have hrest : Keyed value rest := ⟨hrest, hnodup⟩
    have ih := @lookup_eq_some_iff x c rest hrest
    rw [List.lookup_cons]
    by_cases hxz : (x == z) = true
    · have hvalue := (hz x).mp hxz
      simp only [hxz, Option.some_inj]
      refine ⟨fun hdc => ⟨z, hdc ▸ List.mem_cons_self, hvalue⟩, ?_⟩
      rintro ⟨y, hy, hxy⟩
      rcases List.mem_cons.mp hy with heq | hy
      · cases heq
        rfl
      · refine absurd (List.mem_map.mpr ⟨(y, c), hy, ?_⟩) hnew
        exact hxy.symm.trans hvalue
    · have hvalue : value x ≠ value z := fun hvalue => hxz ((hz x).mpr hvalue)
      simp only [hxz, ih]
      refine exists_congr fun y => and_congr_left fun hxy => ?_
      rw [List.mem_cons, or_iff_right]
      rintro heq
      cases heq
      exact hvalue hxy

/-- Things of the same value have the same entry. -/
theorem lookup_congr (h : Keyed value entries) {x y : α} (hxy : value x = value y) :
    entries.lookup x = entries.lookup y := by
  refine Option.ext fun c => ?_
  rw [h.lookup_eq_some_iff, h.lookup_eq_some_iff, hxy]

/-- Tables in which the same is found hold the same, in another order. -/
theorem perm_of_lookup (h : Keyed value entries) (h' : Keyed value entries') {f : γ → δ}
    (hsame : ∀ x, (entries.lookup x).map f = (entries'.lookup x).map f) :
    (entries.map fun entry => (value entry.1, f entry.2)).Perm
      (entries'.map fun entry => (value entry.1, f entry.2)) := by
  have hmem {es : List (α × γ)} (hes : Keyed value es) (v : β) (d : δ) :
      (v, d) ∈ es.map (fun entry => (value entry.1, f entry.2)) ↔
        ∃ x, value x = v ∧ (es.lookup x).map f = some d := by
    simp only [List.mem_map, Option.map_eq_some_iff, hes.lookup_eq_some_iff, Prod.mk.injEq]
    constructor
    · rintro ⟨⟨x, c⟩, hentry, rfl, rfl⟩
      exact ⟨x, rfl, c, ⟨x, hentry, rfl⟩, rfl⟩
    · rintro ⟨x, rfl, c, ⟨y, hentry, hxy⟩, rfl⟩
      exact ⟨(y, c), hentry, hxy.symm, rfl⟩
  have hnodup {es : List (α × γ)} (hes : Keyed value es) :
      (es.map fun entry => (value entry.1, f entry.2)).Nodup := by
    refine .of_map Prod.fst ?_
    rw [List.map_map]
    exact hes.nodup
  refine (List.perm_ext_iff_of_nodup (hnodup h) (hnodup h')).mpr fun ⟨v, d⟩ => ?_
  rw [hmem h, hmem h']
  simp only [hsame]

end Keyed

namespace Tally

/-! ### What was counted -/

variable {t t' : Tally α} {x z : α} {xs ys : List α}

theorem count_eq_of_lookup {n : Nat} (h : t.lookup z = some n) : t.count z = n := by
  unfold count
  rw [h]
  rfl

/-- Counting a thing once more changes the count of those with its value. -/
theorem lookup_add (hx : ComparedBy value x) (z : α) : ∀ {t : Tally α},
    (∀ entry ∈ t, ComparedBy value entry.1) →
      (t.add x).lookup z = if z == x then some (t.count z + 1) else t.lookup z
  | [], _ => by
    rw [add, List.lookup_cons]
    cases z == x <;> rfl
  | (y, n) :: rest, h => by
    obtain ⟨hy, hrest⟩ := List.forall_mem_cons.mp h
    unfold add
    by_cases hxy : (x == y) = true
    · have hsame : (z == x) = (z == y) := by
        rw [Bool.eq_iff_iff, hx z, hy z, (hy x).mp hxy]
      rw [if_pos hxy, List.lookup_cons, List.lookup_cons, count_cons, hsame]
      cases z == y <;> rfl
    · rw [if_neg hxy, List.lookup_cons, List.lookup_cons, count_cons, lookup_add hx z hrest]
      by_cases hzy : (z == y) = true
      · have hzx : ¬(z == x) = true := fun hzx =>
          hxy ((hy x).mpr (((hx z).mp hzx).symm.trans ((hy z).mp hzy)))
        simp [hzy, hzx]
      · simp [hzy]

/-- Counting a thing adds an entry at the end if there is none for it. -/
theorem keys_add (x : α) : ∀ t : Tally α, (t.add x).map (·.1) =
    if t.any (x == ·.1) then t.map (·.1) else t.map (·.1) ++ [x]
  | [] => rfl
  | (y, n) :: t => by
    rw [add, List.any_cons]
    by_cases hxy : (x == y) = true
    · simp [hxy]
    · rw [if_neg hxy, List.map_cons, keys_add x t]
      by_cases hknown : t.any (x == ·.1) = true <;> simp [hxy, hknown]

theorem keyed_add (hx : ComparedBy value x) (h : Keyed value t) : Keyed value (t.add x) := by
  by_cases hknown : t.any (x == ·.1) = true
  · exact h.of_keys (by rw [keys_add, if_pos hknown])
  · have hnew : ∀ entry ∈ t, value entry.1 ≠ value x := by
      intro entry hentry hsame
      have hknown' := (h.compared entry hentry x).mpr hsame.symm
      exact hknown (List.any_eq_true.mpr ⟨entry, hentry, hknown'⟩)
    exact (h.concat hx hnew 1).of_keys (by rw [keys_add, if_neg hknown, List.map_append]; rfl)

theorem keyed_addAll (h : Keyed value t) (hxs : ∀ x ∈ xs, ComparedBy value x) :
    Keyed value (addAll xs t) :=
  List.foldlRecOn xs _ h fun _ ht x hx => keyed_add (hxs x hx) ht

theorem keyed_ofList (hxs : ∀ x ∈ xs, ComparedBy value x) : Keyed value (ofList xs) :=
  keyed_addAll .nil hxs

/-- **The entry of a value says how often it was counted**, in addition to what was there before. -/
theorem lookup_addAll (z : α) : ∀ {xs : List α} {t : Tally α}, Keyed value t →
    (∀ x ∈ xs, ComparedBy value x) → (addAll xs t).lookup z =
      if xs.countP (z == ·) = 0 then t.lookup z else some (t.count z + xs.countP (z == ·))
  | [], t, _, _ => rfl
  | x :: xs, t, h, hxs => by
    obtain ⟨hx, hxs⟩ := List.forall_mem_cons.mp hxs
    have hadd := lookup_add hx z h.compared
    have ih := lookup_addAll z (keyed_add hx h) hxs
    change (addAll xs (t.add x)).lookup z = _
    rw [ih, List.countP_cons]
    by_cases hzx : (z == x) = true
    · rw [if_pos hzx] at hadd
      have hsome : ¬xs.countP (z == ·) + 1 = 0 := Nat.succ_ne_zero _
      rw [count_eq_of_lookup hadd, hadd, if_pos hzx, if_neg hsome]
      by_cases hnone : xs.countP (z == ·) = 0
      · rw [if_pos hnone, hnone]
      · rw [if_neg hnone, Nat.add_assoc, Nat.add_comm 1]
    · rw [if_neg hzx] at hadd
      simp only [count, hadd, hzx, Nat.add_zero, Bool.false_eq_true, if_false]

theorem lookup_ofList (hxs : ∀ x ∈ xs, ComparedBy value x) (z : α) : (ofList xs).lookup z =
    if xs.countP (z == ·) = 0 then none else some (xs.countP (z == ·)) := by
  unfold ofList
  rw [lookup_addAll z .nil hxs, count_nil, Nat.zero_add]
  rfl

theorem total_addAll (xs : List α) : ∀ t : Tally α, (addAll xs t).total = t.total + xs.length := by
  induction xs with
  | nil => exact fun _ => rfl
  | cons x xs ih =>
    intro t
    have hadd := total_add x t
    have hrest := ih (t.add x)
    rw [List.length_cons]
    change (addAll xs (t.add x)).total = _
    omega

theorem total_ofList (xs : List α) : (ofList xs).total = xs.length :=
  (total_addAll xs []).trans (Nat.zero_add _)

/-! ### Tallies that agree -/

/-- The tallies have the same counts, and the same one for each thing. -/
structure Agrees (t t' : Tally α) : Prop where
  counts : (t.map (·.2)).Perm (t'.map (·.2))
  lookup : ∀ x, t.lookup x = t'.lookup x

namespace Agrees

theorem refl (t : Tally α) : t.Agrees t := ⟨.refl _, fun _ => rfl⟩

theorem length (h : t.Agrees t') : t.length = t'.length := by simpa using h.counts.length_eq

theorem count (h : t.Agrees t') (x : α) : t.count x = t'.count x :=
  congrArg (·.getD 0) (h.lookup x)

theorem total (h : t.Agrees t') : t.total = t'.total := h.counts.foldr_eq _

end Agrees

theorem agrees_of_lookup (h : Keyed value t) (h' : Keyed value t')
    (hsame : ∀ x, t.lookup x = t'.lookup x) : t.Agrees t' := by
  have hperm := h.perm_of_lookup h' (f := id) fun x => congrArg (Option.map id) (hsame x)
  exact ⟨by simpa [Function.comp_def] using hperm.map Prod.snd, hsame⟩

/-- **The order of counting does not matter.** -/
theorem agrees_ofList (hxs : ∀ x ∈ xs, ComparedBy value x) (hperm : xs.Perm ys) :
    (ofList xs).Agrees (ofList ys) := by
  have hys : ∀ y ∈ ys, ComparedBy value y := fun y hy => hxs y (hperm.mem_iff.mpr hy)
  refine agrees_of_lookup (keyed_ofList hxs) (keyed_ofList hys) fun z => ?_
  rw [lookup_ofList hxs, lookup_ofList hys, hperm.countP_eq]

end Tally

end Questionnaire
