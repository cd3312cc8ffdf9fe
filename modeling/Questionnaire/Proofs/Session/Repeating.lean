/-
# What comes out again

A computation repeats itself if it gives the same result again in any session
that remembers all that it left behind, and then makes notes at most: nothing
is drawn, and nothing new is remembered. Asking for means is such a computation,
as they are remembered under a key that does not depend on the session; and
parts that repeat themselves make up a whole that does.

Key definitions: `Session.configured`, `Session.Repeats`.
Key theorems: `Session.Repeats.bind`, `Session.repeats_noteWorded`,
`Session.repeats_meansFor`.
-/
import Questionnaire.Proofs.Session.Memory

namespace Questionnaire.Session

variable {α β : Type}

/-- The configuration of the session. -/
def configured : InSession Config := do
  return (← get).config

@[simp] theorem runFrom_configured (s : Session) : runFrom s configured = (.ok s.config, s) := rfl

/-- A result of the computation is its result again in each session that remembers as much as the
one that it left, and then nothing but notes is new. -/
structure Repeats (c : InSession α) : Prop where
  onward : Keeps Onward c
  again : ∀ {s x t}, runFrom s c = (.ok x, t) → ∀ {u}, Onward t u →
    ∃ notes, runFrom u c = (.ok x, { u with notes })

namespace Repeats

theorem pure (x : α) : Repeats (pure x : InSession α) where
  onward := .pure x
  again := by
    intro s y t hrun u _
    cases hrun
    exact ⟨u.notes, rfl⟩

theorem bind {c : InSession α} {f : α → InSession β} (hc : Repeats c) (hf : ∀ x, Repeats (f x)) :
    Repeats (c >>= f) where
  onward := hc.onward.bind fun x => (hf x).onward
  again := by
    intro s y t hrun u hstays
    obtain ⟨x, m, hfirst, hthen⟩ := runFrom_bind_eq_ok hrun
    -- what the first part left is still remembered after the second one
    have hlater : Onward m t := by
      have hkept := (hf x).onward m
      rwa [hthen] at hkept
    obtain ⟨notes, hagain⟩ := hc.again hfirst (trans_of Onward hlater hstays)
    have hnoted : Onward t { u with notes } := trans_of Onward hstays (u.onward_of_notes notes)
    obtain ⟨notes', hthen'⟩ := (hf x).again hthen hnoted
    refine ⟨notes', ?_⟩
    rw [runFrom_bind_ok hagain, hthen']

theorem foldlM {f : β → α → InSession β} (hf : ∀ y x, Repeats (f y x)) :
    ∀ (xs : List α) (y : β), Repeats (xs.foldlM f y)
  | [], y => .pure y
  | x :: xs, y => by
    rw [List.foldlM_cons]
    exact (hf y x).bind fun y' => foldlM hf xs y'

theorem forM {f : α → InSession PUnit} (hf : ∀ x, Repeats (f x)) :
    ∀ xs : List α, Repeats (xs.forM f)
  | [] => .pure _
  | x :: xs => (hf x).bind fun _ => forM hf xs

end Repeats

theorem repeats_lift (r : Except Fault α) : Repeats (lift r) where
  onward := .of_same fun _ => rfl
  again := by
    intro s x t hrun u _
    rw [runFrom_sessionLift] at hrun
    cases hrun
    exact ⟨u.notes, rfl⟩

theorem repeats_configured : Repeats configured where
  onward := .of_same fun _ => rfl
  again := by
    intro s x t hrun u hstays
    cases hrun
    refine ⟨u.notes, ?_⟩
    rw [← hstays.config]
    rfl

theorem repeats_note (level : Level) (text : String) : Repeats (note level text) where
  onward := by
    intro s
    obtain ⟨notes, hnote⟩ := s.runFrom_note level text
    rw [hnote]
    exact s.onward_of_notes notes
  again := by
    intro s x t _ u _
    exact u.runFrom_note level text

theorem runFrom_noteWorded (s : Session) (level : Level) (text : Except Fault String) :
    runFrom s (noteWorded level text) =
      if s.keeps level then runFrom s (lift text >>= note level) else (.ok (), s) := by
  unfold noteWorded
  rw [runFrom_bind, runFrom_get]
  dsimp only
  split <;> rfl

theorem repeats_noteWorded (level : Level) (text : Except Fault String) :
    Repeats (noteWorded level text) := by
  have hmade : Repeats (lift text >>= note level) :=
    (repeats_lift text).bind fun words => repeats_note level words
  refine ⟨fun s => ?_, ?_⟩
  · rw [runFrom_noteWorded]
    split
    · exact hmade.onward s
    · exact refl_of Onward s
  · intro s x t hrun u hstays
    have hkept : Onward s t := by
      have hkept := hmade.onward s
      rw [runFrom_noteWorded] at hrun
      split at hrun
      · rwa [hrun] at hkept
      · cases hrun
        exact refl_of Onward _
    -- whether the note is kept does not change
    have hkeeps : u.keeps level = s.keeps level := by
      unfold keeps
      rw [hstays.noteLevel, hkept.noteLevel]
    rw [runFrom_noteWorded] at hrun ⊢
    rw [hkeeps]
    split
    · rename_i hnoted
      rw [if_pos hnoted] at hrun
      exact hmade.again hrun hstays
    · exact ⟨u.notes, rfl⟩

/-- Means that were given once are remembered. -/
theorem repeats_meansFor (key : MeansKey) (pool : List α)
    (score : α → Except Fault (Option Float)) : Repeats (meansFor key pool score) where
  onward := onward_meansFor key pool score
  again := by
    intro s means t hrun u hstays
    have hknown := hstays.means key means (meansOutcome_of hrun).known
    exact meansFor_known hknown pool score

end Questionnaire.Session
