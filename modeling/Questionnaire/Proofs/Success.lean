/-
# When computations that may fail succeed

Steps that are taken one after another succeed if each of them does, and a list
of items is read, or drawn for, if each of its items is.

Key theorems: `bind_eq_ok`, `forall₂_of_mapM`, `foldlM_preserves`, `foldlM_gathers`,
`Gen.forall₂_of_tryEach`, `Gen.tryEach_succeeds`, `Gen.tryEach_eq_error`.
-/
import Mathlib.Data.List.Forall2
import Questionnaire.Random

namespace Questionnaire

variable {α β ε : Type}

theorem bind_eq_ok {x : Except ε α} {f : α → Except ε β} {b : β} :
    (x >>= f) = .ok b ↔ ∃ a, x = .ok a ∧ f a = .ok b := by
  cases x <;> simp [bind, Except.bind]

theorem bind_eq_error {x : Except ε α} {f : α → Except ε β} {fault : ε} :
    (x >>= f) = .error fault ↔ x = .error fault ∨ ∃ a, x = .ok a ∧ f a = .error fault := by
  cases x <;> simp [bind, Except.bind]

/-- If the last part cannot fail, the whole succeeds exactly if the first part does. -/
theorem bind_succeeds_iff {x : Except Fault α} {f : α → Except Fault β}
    (h : ∀ a, ∃ b, f a = .ok b) : (∃ b, (x >>= f) = .ok b) ↔ ∃ a, x = .ok a := by
  cases x with
  | error fault => simp [bind, Except.bind]
  | ok a => simpa [bind, Except.bind] using h a

theorem forall₂_of_mapM {f : α → Except Fault β} : ∀ {xs : List α} {ys : List β},
    xs.mapM f = .ok ys → List.Forall₂ (fun x y => f x = .ok y) xs ys
  | [], ys, h => by
    cases h
    exact .nil
  | x :: xs, ys, h => by
    rw [List.mapM_cons, bind_eq_ok] at h
    obtain ⟨y, hy, h⟩ := h
    obtain ⟨rest, hrest, h⟩ := bind_eq_ok.mp h
    cases h
    exact .cons hy (forall₂_of_mapM hrest)

/-- What was made of the items was made of one of them. -/
theorem exists_of_mem_right {R : α → β → Prop} {xs : List α} {ys : List β}
    (h : List.Forall₂ R xs ys) {y : β} (hy : y ∈ ys) : ∃ x ∈ xs, R x y := by
  induction h with
  | nil => simp at hy
  | @cons x y' xs ys hxy _ ih =>
    rcases List.mem_cons.mp hy with rfl | hy
    · exact ⟨x, List.mem_cons_self, hxy⟩
    · obtain ⟨x', hx', hR⟩ := ih hy
      exact ⟨x', List.mem_cons_of_mem x hx', hR⟩

/-- If something is made of each item, then also of this one. -/
theorem exists_of_mapM {f : α → Except Fault β} {xs : List α} {ys : List β}
    (h : xs.mapM f = .ok ys) {x : α} (hx : x ∈ xs) : ∃ y, f x = .ok y := by
  obtain ⟨y, -, hy⟩ := exists_of_mem_right (forall₂_of_mapM h).flip hx
  exact ⟨y, hy⟩

/-- Of items in a row that are related in one way, what is made of them is related in another. -/
theorem pairwise_of_forall₂ {R : α → β → Prop} {S : α → α → Prop} {T : β → β → Prop} {xs : List α}
    {ys : List β} (h : List.Forall₂ R xs ys) (hxs : xs.Pairwise S)
    (hstep : ∀ x x' y y', S x x' → R x y → R x' y' → T y y') : ys.Pairwise T := by
  induction h with
  | nil => exact .nil
  | @cons x y xs ys hxy hrest ih =>
    obtain ⟨hx, hxs⟩ := List.pairwise_cons.mp hxs
    refine List.pairwise_cons.mpr ⟨fun y' hy' => ?_, ih hxs⟩
    obtain ⟨x', hx', hxy'⟩ := exists_of_mem_right hrest hy'
    exact hstep x x' y y' (hx x' hx') hxy hxy'

theorem forall₂_append_left {R : α → β → Prop} {xs xs' : List α} {ys : List β}
    (h : List.Forall₂ R (xs ++ xs') ys) :
    ∃ zs zs', ys = zs ++ zs' ∧ List.Forall₂ R xs zs ∧ List.Forall₂ R xs' zs' := by
  refine ⟨_, _, (List.take_append_drop xs.length ys).symm, ?_, ?_⟩
  · simpa using List.forall₂_take xs.length h
  · simpa using List.forall₂_drop xs.length h

theorem mapM_succeeds {f : α → Except Fault β} : ∀ {xs : List α},
    (∀ x ∈ xs, ∃ y, f x = .ok y) → ∃ ys, xs.mapM f = .ok ys
  | [], _ => ⟨[], rfl⟩
  | x :: xs, h => by
    obtain ⟨y, hy⟩ := h x List.mem_cons_self
    obtain ⟨ys, hys⟩ := mapM_succeeds fun x' hx' => h x' (List.mem_cons_of_mem x hx')
    exact ⟨y :: ys, by rw [List.mapM_cons, hy, hys]; rfl⟩

/-- What each step keeps holds after all steps. -/
theorem foldlM_preserves {P : β → Prop} {f : β → α → Except ε β} :
    ∀ {xs : List α} {y y' : β}, (∀ y, ∀ x ∈ xs, ∀ y', P y → f y x = .ok y' → P y') → P y →
      xs.foldlM f y = .ok y' → P y'
  | [], y, y', _, hy, h => by
    cases h
    exact hy
  | x :: xs, y, y', hstep, hy, h => by
    rw [List.foldlM_cons] at h
    obtain ⟨z, hz, hrest⟩ := bind_eq_ok.mp h
    have hz := hstep y x List.mem_cons_self z hy hz
    exact foldlM_preserves (fun y x hx => hstep y x (List.mem_cons_of_mem _ hx)) hz hrest

/-- If each step adds its item to those that were gathered before, or fails as reading the item
does, all items are gathered in the end. -/
theorem foldlM_gathers {γ : Type} {f : β → α → Except Fault β} {read : α → Except Fault γ}
    {gathered : List α → β} : ∀ {xs : List α} (done : List α),
      (∀ done, ∀ x ∈ xs, f (gathered done) x = (read x).map fun _ => gathered (done ++ [x])) →
        xs.foldlM f (gathered done) = (xs.mapM read).map fun _ => gathered (done ++ xs)
  | [], done, _ => by
    rw [List.append_nil]
    rfl
  | x :: xs, done, hstep => by
    have ih := foldlM_gathers (done ++ [x]) fun done y hy =>
      hstep done y (List.mem_cons_of_mem x hy)
    rw [List.foldlM_cons, List.mapM_cons, hstep done x List.mem_cons_self]
    cases read x with
    | error fault => rfl
    | ok z =>
      change xs.foldlM f (gathered (done ++ [x])) = _
      rw [ih, List.append_assoc]
      cases hrest : xs.mapM read with
      | error fault => simp [bind, Except.bind, Except.map]
      | ok zs => simp [bind, Except.bind, Except.map, pure, Except.pure]

/-- If it depends on the item alone whether a step succeeds, it has to for each. -/
theorem foldlM_succeeds_iff {P : α → Prop} {f : β → α → Except Fault β} : ∀ {xs : List α} (y : β),
    (∀ x ∈ xs, ∀ y, (∃ y', f y x = .ok y') ↔ P x) →
      ((∃ y', xs.foldlM f y = .ok y') ↔ ∀ x ∈ xs, P x)
  | [], y, _ => ⟨fun _ => List.forall_mem_nil P, fun _ => ⟨y, rfl⟩⟩
  | x :: xs, y, h => by
    rw [List.foldlM_cons, List.forall_mem_cons, ← h x List.mem_cons_self y]
    cases f y x with
    | error fault => simp [bind, Except.bind]
    | ok z =>
      have ih := foldlM_succeeds_iff z fun x' hx' => h x' (List.mem_cons_of_mem x hx')
      simpa [bind, Except.bind] using ih

/-- A fold over changed items from a changed start ends in the changed result, if each step does. -/
theorem foldlM_map_of_step {γ δ : Type} {k : α → γ} {g : β → δ} {f : β → α → Except Fault β}
    {f' : δ → γ → Except Fault δ} : ∀ {xs : List α} (y : β),
      (∀ y, ∀ x ∈ xs, f' (g y) (k x) = (f y x).map g) →
        (xs.map k).foldlM f' (g y) = (xs.foldlM f y).map g
  | [], _, _ => rfl
  | x :: xs, y, hstep => by
    rw [List.map_cons, List.foldlM_cons, List.foldlM_cons, hstep y x List.mem_cons_self]
    cases f y x with
    | error fault => rfl
    | ok z => exact foldlM_map_of_step z fun y x hx => hstep y x (List.mem_cons_of_mem _ hx)

theorem foldlM_congr {f g : β → α → Except Fault β} : ∀ {xs : List α} (y : β),
    (∀ y, ∀ x ∈ xs, f y x = g y x) → xs.foldlM f y = xs.foldlM g y
  | [], _, _ => rfl
  | x :: xs, y, h => by
    rw [List.foldlM_cons, List.foldlM_cons, h y x List.mem_cons_self]
    exact bind_congr fun z => foldlM_congr z fun y x hx => h y x (List.mem_cons_of_mem _ hx)

theorem mapM_congr {f g : α → Except Fault β} : ∀ {xs : List α}, (∀ x ∈ xs, f x = g x) →
    xs.mapM f = xs.mapM g
  | [], _ => rfl
  | x :: xs, h => by
    rw [List.mapM_cons, List.mapM_cons, h x List.mem_cons_self,
      mapM_congr fun y hy => h y (List.mem_cons_of_mem x hy)]

theorem mapM_eq_ok {f : α → Except Fault β} {h : α → β} : ∀ {xs : List α},
    (∀ x ∈ xs, f x = .ok (h x)) → xs.mapM f = .ok (xs.map h)
  | [], _ => rfl
  | x :: xs, hx => by
    rw [List.mapM_cons, hx x List.mem_cons_self,
      mapM_eq_ok fun y hy => hx y (List.mem_cons_of_mem x hy)]
    rfl

/-- What each item is made of is made of all of them. -/
theorem mapM_map_eq_ok {γ : Type} {f : α → Except Fault β} {g : γ → α} {h : γ → β} {xs : List γ}
    (hx : ∀ x ∈ xs, f (g x) = .ok (h x)) : (xs.map g).mapM f = .ok (xs.map h) := by
  rw [List.mapM_map]
  exact mapM_eq_ok hx

namespace Gen

/-- The results of drawing for each item are results of drawing for that item. -/
theorem forall₂_of_tryEach {draw : α → Trial β} : ∀ {xs : List α} {g g' : Gen} {ys : List β},
    tryEach draw xs g = .ok (ys, g') →
      List.Forall₂ (fun x y => ∃ h h', draw x h = .ok (y, h')) xs ys
  | [], _, _, _, h => by
    cases h
    exact .nil
  | x :: xs, g, _, _, h => by
    rw [tryEach, bind_eq_ok] at h
    obtain ⟨⟨y, g₁⟩, hy, h⟩ := h
    obtain ⟨⟨rest, g₂⟩, hrest, h⟩ := bind_eq_ok.mp h
    cases h
    exact .cons ⟨g, g₁, hy⟩ (forall₂_of_tryEach hrest)

theorem tryEach_succeeds {draw : α → Trial β} : ∀ {xs : List α} (g : Gen),
    (∀ x ∈ xs, ∀ h, ∃ y, draw x h = .ok y) → ∃ ys, tryEach draw xs g = .ok ys
  | [], g, _ => ⟨([], g), rfl⟩
  | x :: xs, g, h => by
    obtain ⟨⟨y, g₁⟩, hy⟩ := h x List.mem_cons_self g
    obtain ⟨⟨ys, g₂⟩, hys⟩ :=
      tryEach_succeeds g₁ fun x' hx' => h x' (List.mem_cons_of_mem x hx')
    exact ⟨(y :: ys, g₂), by rw [tryEach, hy]; simp only [bind, Except.bind, hys]; rfl⟩

/-- If it depends on the item alone whether drawing for it succeeds, it has to for each. -/
theorem tryEach_succeeds_iff {draw : α → Trial β} {P : α → Prop} {xs : List α}
    (h : ∀ x ∈ xs, ∀ g, (∃ y, draw x g = .ok y) ↔ P x) (g : Gen) :
    (∃ ys, tryEach draw xs g = .ok ys) ↔ ∀ x ∈ xs, P x := by
  constructor
  · rintro ⟨⟨ys, g'⟩, hys⟩ x hx
    obtain ⟨y, -, g₁, g₂, hy⟩ := exists_of_mem_right (forall₂_of_tryEach hys).flip hx
    exact (h x hx g₁).mp ⟨_, hy⟩
  · exact fun hall => tryEach_succeeds g fun x hx g => (h x hx g).mpr (hall x hx)

theorem tryEach_eq_error {draw : α → Trial β} : ∀ {xs : List α} {g : Gen} {fault : Fault},
    tryEach draw xs g = .error fault → ∃ x ∈ xs, ∃ h, draw x h = .error fault
  | [], _, _, h => nomatch h
  | x :: xs, g, fault, h => by
    rw [tryEach] at h
    rcases bind_eq_error.mp h with hx | ⟨⟨y, g₁⟩, -, h⟩
    · exact ⟨x, List.mem_cons_self, g, hx⟩
    rcases bind_eq_error.mp h with hrest | ⟨_, -, h⟩
    · obtain ⟨x', hx', hfault⟩ := tryEach_eq_error hrest
      exact ⟨x', List.mem_cons_of_mem x hx', hfault⟩
    · cases h

theorem tryEach_map {γ : Type} (draw : α → Trial β) (f : γ → α) : ∀ (xs : List γ) (g : Gen),
    tryEach draw (xs.map f) g = tryEach (fun x => draw (f x)) xs g
  | [], _ => rfl
  | x :: xs, g => by
    rw [List.map_cons, tryEach, tryEach]
    simp only [tryEach_map draw f xs]

end Gen

end Questionnaire
