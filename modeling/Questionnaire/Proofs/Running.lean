/-
# Running computations

A computation in a session or on a batch has a result and leaves a state behind,
also if it fails. What holds of the state before and the one after each part
holds of the whole, if it is reflexive and transitive.

Key definitions: `runFrom`, `Keeps`.
Key theorems: `runFrom_bind`, `Keeps.bind`, `Keeps.foldlM`.
-/
import Mathlib.Order.Defs.Unbundled
import Questionnaire.Classify.Basic

namespace Questionnaire

variable {σ α β : Type}

/-- The result of a computation that starts in a state, and the state that it ends in. -/
def runFrom (s : σ) (c : ExceptT Fault (StateM σ) α) : Except Fault α × σ :=
  StateT.run (ExceptT.run c) s

/-! ### The parts of a computation -/

section Parts

variable {s t : σ} {c : ExceptT Fault (StateM σ) α} {f : α → ExceptT Fault (StateM σ) β}
  {x : α} {fault : Fault}

@[simp] theorem runFrom_pure (s : σ) (x : α) :
    runFrom s (pure x : ExceptT Fault (StateM σ) α) = (.ok x, s) := rfl

@[simp] theorem runFrom_get (s : σ) :
    runFrom s (get : ExceptT Fault (StateM σ) σ) = (.ok s, s) := rfl

@[simp] theorem runFrom_modify (s : σ) (change : σ → σ) :
    runFrom s (modify change : ExceptT Fault (StateM σ) PUnit) = (.ok ⟨⟩, change s) := rfl

@[simp] theorem runFrom_liftM (s : σ) (r : Except Fault α) :
    runFrom s (liftM r : ExceptT Fault (StateM σ) α) = (r, s) := rfl

@[simp] theorem runFrom_makeNotes (notes more : List Note) :
    runFrom notes (makeNotes more) = (.ok (), notes ++ more) := rfl

@[simp] theorem runFrom_sessionLift (s : Session) (r : Except Fault α) :
    runFrom s (Session.lift r) = (r, s) := rfl

@[simp] theorem runFrom_batchLift (b : Batch) (r : Except Fault α) :
    runFrom b (Batch.lift r) = (r, b) := rfl

@[simp] theorem runFrom_inSession (b : Batch) (c : InSession α) :
    runFrom b (Batch.inSession c) =
      ((runFrom b.session c).1, { b with session := (runFrom b.session c).2 }) := rfl

/-- If the first part fails, so does the whole; else the other part follows. -/
theorem runFrom_bind (s : σ) (c : ExceptT Fault (StateM σ) α)
    (f : α → ExceptT Fault (StateM σ) β) : runFrom s (c >>= f) =
      match runFrom s c with
      | (.ok x, t) => runFrom t (f x)
      | (.error fault, t) => (.error fault, t) := by
  have hrun : runFrom s (c >>= f) = StateT.run (ExceptT.run c >>= ExceptT.bindCont f) s := rfl
  rw [hrun, StateT.run_bind]
  unfold runFrom
  rcases StateT.run (ExceptT.run c) s with ⟨_ | _, _⟩ <;> rfl

/-- A fault that is caught leaves the state behind. -/
theorem runFrom_tryCatch (s : σ) (c : ExceptT Fault (StateM σ) α)
    (f : Fault → ExceptT Fault (StateM σ) α) : runFrom s (tryCatch c f) =
      match runFrom s c with
      | (.ok x, t) => (.ok x, t)
      | (.error fault, t) => runFrom t (f fault) := by
  have hrun : runFrom s (tryCatch c f) = StateT.run (ExceptT.run (ExceptT.tryCatch c f)) s := rfl
  rw [hrun]
  unfold ExceptT.tryCatch ExceptT.run ExceptT.mk
  rw [StateT.run_bind]
  unfold runFrom ExceptT.run
  rcases StateT.run c s with ⟨_ | _, _⟩ <;> rfl

theorem runFrom_bind_ok (h : runFrom s c = (.ok x, t)) :
    runFrom s (c >>= f) = runFrom t (f x) := by
  rw [runFrom_bind, h]

theorem runFrom_bind_error (h : runFrom s c = (.error fault, t)) :
    runFrom s (c >>= f) = (.error fault, t) := by
  rw [runFrom_bind, h]

/-- What the whole results in comes from results of both parts. -/
theorem runFrom_bind_eq_ok {y : β} {u : σ} (h : runFrom s (c >>= f) = (.ok y, u)) :
    ∃ x t, runFrom s c = (.ok x, t) ∧ runFrom t (f x) = (.ok y, u) := by
  rw [runFrom_bind] at h
  split at h
  · rename_i x t hc
    exact ⟨x, t, hc, h⟩
  · cases h

/-- The results for some items, if that for each does not depend on the state. -/
theorem runFrom_mapM {g : α → ExceptT Fault (StateM σ) β} {result : α → Except Fault β}
    (h : ∀ s x, (runFrom s (g x)).1 = result x) : ∀ (xs : List α) (s : σ),
      (runFrom s (xs.mapM g)).1 = xs.mapM result
  | [], _ => rfl
  | x :: xs, s => by
    have hx := h s x
    rw [List.mapM_cons, List.mapM_cons, runFrom_bind, ← hx]
    rcases runFrom s (g x) with ⟨fault | y, t⟩
    · rfl
    · have ih := runFrom_mapM h xs t
      dsimp only
      rw [runFrom_bind, ← ih]
      rcases runFrom t (xs.mapM g) with ⟨fault | ys, u⟩ <;> rfl

end Parts

/-! ### What a computation keeps -/

/-- The states before and after the computation are related, also if it fails. -/
def Keeps (R : σ → σ → Prop) (c : ExceptT Fault (StateM σ) α) : Prop :=
  ∀ s, R s (runFrom s c).2

section Keeps

/-- What holds of the states around the first part, and around the whole if the first part succeeds,
holds around the whole. -/
theorem runFrom_bind_induct {R : σ → σ → Prop} {s : σ} {c : ExceptT Fault (StateM σ) α}
    {f : α → ExceptT Fault (StateM σ) β} (hc : R s (runFrom s c).2)
    (hf : ∀ x t, runFrom s c = (.ok x, t) → R s (runFrom t (f x)).2) :
    R s (runFrom s (c >>= f)).2 := by
  rw [runFrom_bind]
  split
  · rename_i x t hrun
    exact hf x t hrun
  · rename_i hrun
    rwa [hrun] at hc

variable {R : σ → σ → Prop} [IsPreorder σ R]

theorem Keeps.of_same {c : ExceptT Fault (StateM σ) α} (h : ∀ s, (runFrom s c).2 = s) :
    Keeps R c := by
  intro s
  rw [h s]
  exact refl_of R s

theorem Keeps.pure (x : α) : Keeps R (pure x : ExceptT Fault (StateM σ) α) :=
  .of_same fun _ => rfl

theorem Keeps.bind {c : ExceptT Fault (StateM σ) α} {f : α → ExceptT Fault (StateM σ) β}
    (hc : Keeps R c) (hf : ∀ x, Keeps R (f x)) : Keeps R (c >>= f) := by
  intro s
  refine runFrom_bind_induct (hc s) fun x t hrun => ?_
  have hfirst := hc s
  rw [hrun] at hfirst
  exact trans_of R hfirst (hf x t)

theorem Keeps.foldlM {f : β → α → ExceptT Fault (StateM σ) β} (hf : ∀ y x, Keeps R (f y x)) :
    ∀ (xs : List α) (y : β), Keeps R (xs.foldlM f y)
  | [], y => .pure y
  | x :: xs, y => by
    rw [List.foldlM_cons]
    exact (hf y x).bind fun y' => Keeps.foldlM hf xs y'

theorem Keeps.forM {f : α → ExceptT Fault (StateM σ) PUnit} (hf : ∀ x, Keeps R (f x)) :
    ∀ xs : List α, Keeps R (xs.forM f)
  | [] => .pure _
  | x :: xs => (hf x).bind fun _ => Keeps.forM hf xs

theorem Keeps.tryCatch {c : ExceptT Fault (StateM σ) α} {f : Fault → ExceptT Fault (StateM σ) α}
    (hc : Keeps R c) (hf : ∀ fault, Keeps R (f fault)) : Keeps R (tryCatch c f) := by
  intro s
  have hfirst := hc s
  rw [runFrom_tryCatch]
  split
  · rename_i hrun
    rwa [hrun] at hfirst
  · rename_i fault t hrun
    rw [hrun] at hfirst
    exact trans_of R hfirst (hf fault t)

/-- What holds of the state before holds of the one after. -/
def Preserving (P : σ → Prop) (s t : σ) : Prop := P s → P t

instance (P : σ → Prop) : IsPreorder σ (Preserving P) where
  refl _ h := h
  trans _ _ _ hst htu h := htu (hst h)

end Keeps

end Questionnaire
