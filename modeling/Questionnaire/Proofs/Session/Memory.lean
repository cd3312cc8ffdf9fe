/-
# What a session remembers

A sample that is asked for is remembered, drawn, or fails to be drawn; and means
are remembered, or rest on a sample and on scores that may fail. Each of these
ways changes the session in its own manner: what is remembered stays as it is,
new samples and means are added under keys that had none, and the generator goes
on only when a sample is drawn.

Key definitions: `Session.resampled`, `Session.SampleOutcome`,
`Session.MeansOutcome`, `Session.Onward`.
Key theorems: `Session.sampleOutcome`, `Session.meansOutcome`,
`Session.onward_sampleFor`, `Session.onward_meansFor`.
-/
import Questionnaire.Proofs.Drawing
import Questionnaire.Proofs.Running

namespace Questionnaire

variable {α : Type}

/-- The sample has so many rows, each as long as the pool, of places in the pool. -/
structure Sample.Fits (sample : Sample) (rows size : Nat) : Prop where
  length : sample.length = rows
  row_length : ∀ row ∈ sample, row.length = size
  place_lt : ∀ row ∈ sample, ∀ i ∈ row, i < size

namespace Session

variable {s t : Session} {qs : QuestionSet} {key : MeansKey} {pool : List α}
  {score : α → Except Fault (Option Float)} {n rows : Nat}

/-! ### Resampling -/

theorem fits_resample (hn : 0 < n) (rows : Nat) (g : Gen) :
    Sample.Fits (resample n rows g).1 rows n where
  length := Gen.length_times _ rows g
  row_length := Gen.forall_mem_times (fun g => Gen.length_times _ n g) rows g
  place_lt := by
    have hplace : ∀ g, (Gen.below n g).1 < n := fun g => Nat.mod_lt _ hn
    exact Gen.forall_mem_times (fun g => Gen.forall_mem_times hplace n g) rows g

/-- Every place of every row takes one number. -/
theorem resample_after (n rows : Nat) (g : Gen) : (resample n rows g).2 = g.after (rows * n) := by
  refine Gen.times_after (fun g => ?_) rows g
  have hplace : ∀ g, (Gen.below n g).2 = g.after 1 := fun _ => rfl
  have hrow := Gen.times_after hplace n g
  rwa [Nat.mul_one] at hrow

/-- What resampling a pool of `n` results in, and the generator afterwards. -/
def resampled (n : Nat) (rows : Document) (g : Gen) : Except Fault Sample × Gen :=
  match rows.whole with
  | .error fault => (.error fault, g)
  | .ok k =>
    match rows with
    | .bool _ => (if n = 0 then .ok (resample n k.toNat g).1 else .error .illTyped,
        (resample n k.toNat g).2)
    | _ => (.ok (resample n k.toNat g).1, (resample n k.toNat g).2)

theorem resampled_int (n : Nat) (k : Int) (g : Gen) :
    resampled n (.int k) g = (.ok (resample n k.toNat g).1, (resample n k.toNat g).2) := rfl

/-- Only a whole number of rows is drawn from a pool that is not empty. -/
theorem resampled_of_not_int {d : Document} (hd : ∀ k, d ≠ .int k) (hn : 0 < n) (g : Gen) :
    (resampled n d g).1 = .error .illTyped := by
  unfold resampled
  cases d with
  | int k => exact absurd rfl (hd k)
  | bool b =>
    simp only [Document.whole]
    rw [if_neg (by omega)]
  | _ => rfl

/-- The number of rows to draw: the configured one if nothing is given. -/
def rowsOr (s : Session) : Document → Document
  | .null => s.config.iterations
  | rows => rows

@[simp] theorem runFrom_draw {α : Type} (s : Session) (d : Draw α) :
    runFrom s (draw d) = (.ok (d s.gen).1, { s with gen := (d s.gen).2 }) := rfl

theorem runFrom_bootstrap (s : Session) (n : Nat) (rows : Document) :
    runFrom s (bootstrap n rows) = ((resampled n (s.rowsOr rows) s.gen).1,
      { s with gen := (resampled n (s.rowsOr rows) s.gen).2 }) := by
  have hrows : runFrom s (bootstrap n rows) = runFrom s (do
      let sample ← draw (resample n (← lift (s.rowsOr rows).whole).toNat)
      match s.rowsOr rows with
      | .bool _ => if n = 0 then return sample else throw .illTyped
      | _ => return sample) := by
    cases rows <;> rfl
  rw [hrows, runFrom_bind, runFrom_sessionLift]
  unfold resampled
  cases hwhole : (s.rowsOr rows).whole with
  | error fault => rfl
  | ok k =>
    simp only [runFrom_bind, runFrom_draw]
    split
    · split <;> rfl
    · rfl

/-! ### Asking for a sample or for means -/

/-- A note changes the notes only. -/
theorem runFrom_note (s : Session) (level : Level) (text : String) :
    ∃ notes, runFrom s (note level text) = (.ok (), { s with notes }) := by
  unfold note
  rw [runFrom_modify]
  split
  · exact ⟨_, rfl⟩
  · exact ⟨s.notes, rfl⟩

/-- The ways in which asking for a sample ends. -/
inductive SampleOutcome (s : Session) (qs : QuestionSet) (n : Nat) :
    Except Fault Sample → Session → Prop where
  /-- The sample is remembered. -/
  | hit {sample : Sample} {notes : List Note} (hknown : s.samples.lookup qs = some sample) :
    SampleOutcome s qs n (.ok sample) { s with notes }
  /-- A sample is drawn, and remembered. -/
  | miss {sample : Sample} {notes : List Note} {gen : Gen} (hnew : s.samples.lookup qs = none)
      (hdrawn : resampled n s.config.iterations s.gen = (.ok sample, gen)) :
    SampleOutcome s qs n (.ok sample)
      { s with notes, gen, samples := (qs, sample) :: s.samples }
  /-- The number of rows does not suit. -/
  | fault {fault : Fault} {notes : List Note} {gen : Gen} (hnew : s.samples.lookup qs = none)
      (hdrawn : resampled n s.config.iterations s.gen = (.error fault, gen)) :
    SampleOutcome s qs n (.error fault) { s with notes, gen }

theorem sampleOutcome (s : Session) (qs : QuestionSet) (n : Nat) :
    SampleOutcome s qs n (runFrom s (sampleFor qs n)).1 (runFrom s (sampleFor qs n)).2 := by
  unfold sampleFor
  rw [runFrom_bind, runFrom_get]
  dsimp only
  split
  · rename_i sample hknown
    obtain ⟨notes, hnote⟩ := s.runFrom_note .debug
      s!"Bootstrap cache hit for {qs.length} questions"
    rw [runFrom_bind_ok hnote, runFrom_pure]
    exact .hit hknown
  · rename_i hnew
    obtain ⟨notes, hnote⟩ := s.runFrom_note .debug
      s!"Bootstrap cache miss for {qs.length} questions"
    rw [runFrom_bind_ok hnote]
    have hboot := runFrom_bootstrap { s with notes } n .null
    dsimp only [rowsOr] at hboot
    rcases hdrawn : resampled n s.config.iterations s.gen with ⟨fault | sample, gen⟩
    · rw [hdrawn] at hboot
      rw [runFrom_bind_error hboot]
      exact .fault hnew hdrawn
    · rw [hdrawn] at hboot
      rw [runFrom_bind_ok hboot, runFrom_bind, runFrom_modify]
      exact .miss hnew hdrawn

theorem sampleOutcome_of {r : Except Fault Sample} (h : runFrom s (sampleFor qs n) = (r, t)) :
    SampleOutcome s qs n r t := by
  have houtcome := s.sampleOutcome qs n
  rwa [h] at houtcome

/-- The ways in which asking for means ends. -/
inductive MeansOutcome (s : Session) (key : MeansKey) (pool : List α)
    (score : α → Except Fault (Option Float)) : Except Fault (List Float) → Session → Prop where
  /-- The means are remembered. -/
  | hit {means : List Float} {notes : List Note} (hknown : s.means.lookup key = some means) :
    MeansOutcome s key pool score (.ok means) { s with notes }
  /-- There is nothing to take means of, which is remembered. -/
  | empty (hnew : s.means.lookup key = none) (hpool : pool = []) :
    MeansOutcome s key pool score (.ok []) { s with means := (key, []) :: s.means }
  /-- There is no sample. -/
  | unsampled {fault : Fault} {t : Session} (hnew : s.means.lookup key = none) (hpool : pool ≠ [])
      (hsample : runFrom s (sampleFor key.questions pool.length) = (.error fault, t)) :
    MeansOutcome s key pool score (.error fault) t
  /-- Scoring fails; the sample is remembered. -/
  | unscored {sample : Sample} {fault : Fault} {t : Session} (hnew : s.means.lookup key = none)
      (hpool : pool ≠ [])
      (hsample : runFrom s (sampleFor key.questions pool.length) = (.ok sample, t))
      (hscores : pool.mapM score = .error fault) :
    MeansOutcome s key pool score (.error fault) t
  /-- The sample has places that the pool lacks. -/
  | beyond {sample : Sample} {t : Session} (hnew : s.means.lookup key = none) (hpool : pool ≠ [])
      (hsample : runFrom s (sampleFor key.questions pool.length) = (.ok sample, t))
      (hplace : ∃ row ∈ sample, ∃ i ∈ row, pool.length ≤ i) :
    MeansOutcome s key pool score (.error .outOfRange) t
  /-- The means are computed, and remembered. -/
  | computed {sample : Sample} {scores : List (Option Float)} {t : Session} {notes : List Note}
      (hnew : s.means.lookup key = none) (hpool : pool ≠ [])
      (hsample : runFrom s (sampleFor key.questions pool.length) = (.ok sample, t))
      (hscores : pool.mapM score = .ok scores) :
    MeansOutcome s key pool score (.ok (sortedMeans scores sample))
      { t with notes, means := (key, sortedMeans scores sample) :: t.means }

theorem meansOutcome (s : Session) (key : MeansKey) (pool : List α)
    (score : α → Except Fault (Option Float)) :
    MeansOutcome s key pool score (runFrom s (meansFor key pool score)).1
      (runFrom s (meansFor key pool score)).2 := by
  unfold meansFor
  rw [runFrom_bind, runFrom_get]
  dsimp only
  split
  · rename_i means hknown
    obtain ⟨notes, hnote⟩ := s.runFrom_note .debug s!"Means cache hit for {key.label}"
    rw [runFrom_bind_ok hnote, runFrom_pure]
    exact .hit hknown
  · rename_i hnew
    by_cases hpool : pool = []
    · rw [if_pos (by simp [hpool])]
      exact .empty hnew hpool
    · rw [if_neg (by simp [hpool])]
      rcases hsample : runFrom s (sampleFor key.questions pool.length) with ⟨fault | sample, t⟩
      · rw [runFrom_bind_error hsample]
        exact .unsampled hnew hpool hsample
      · rw [runFrom_bind_ok hsample, runFrom_bind, runFrom_sessionLift]
        cases hscores : pool.mapM score with
        | error fault => exact .unscored hnew hpool hsample hscores
        | ok scores =>
          dsimp only
          split
          · rename_i hplace
            exact .beyond hnew hpool hsample (by simpa using hplace)
          · split
            · obtain ⟨notes, hnote⟩ := t.runFrom_note .debug
                s!"Degenerate bootstrap distribution for {key.label} (all means {writeSixPlaces
                  ((sortedMeans scores sample).headD 0.0)})"
              rw [runFrom_bind_ok hnote]
              exact .computed (t := t) hnew hpool hsample hscores
            · exact .computed (t := t) hnew hpool hsample hscores

theorem meansOutcome_of {r : Except Fault (List Float)}
    (h : runFrom s (meansFor key pool score) = (r, t)) : MeansOutcome s key pool score r t := by
  have houtcome := s.meansOutcome key pool score
  rwa [h] at houtcome

/-! ### What stays -/

/-- The settings are the same, and what the first session remembers the second one does too. -/
structure Onward (s t : Session) : Prop where
  config : t.config = s.config
  noteLevel : t.noteLevel = s.noteLevel
  samples : ∀ qs sample, s.samples.lookup qs = some sample → t.samples.lookup qs = some sample
  means : ∀ key means, s.means.lookup key = some means → t.means.lookup key = some means

instance : IsPreorder Session Onward where
  refl _ := ⟨rfl, rfl, fun _ _ h => h, fun _ _ h => h⟩
  trans _ _ _ h h' := {
    config := h'.config.trans h.config
    noteLevel := h'.noteLevel.trans h.noteLevel
    samples := fun qs sample hknown => h'.samples qs sample (h.samples qs sample hknown)
    means := fun key means hknown => h'.means key means (h.means key means hknown) }

/-- A key that had no entry may get one. -/
theorem lookup_cons_of_new {κ β : Type} [BEq κ] [LawfulBEq κ] {k k' : κ} {x y : β}
    {entries : List (κ × β)} (hnew : entries.lookup k = none) (h : entries.lookup k' = some x) :
    ((k, y) :: entries).lookup k' = some x := by
  have hne : (k' == k) = false := by
    rw [beq_eq_false_iff_ne]
    rintro rfl
    rw [hnew] at h
    cases h
  rw [List.lookup_cons, hne]
  exact h

theorem onward_of_notes (s : Session) (notes : List Note) : Onward s { s with notes } :=
  ⟨rfl, rfl, fun _ _ h => h, fun _ _ h => h⟩

theorem SampleOutcome.onward {r : Except Fault Sample} (h : SampleOutcome s qs n r t) :
    Onward s t ∧ t.means = s.means := by
  cases h with
  | hit => exact ⟨s.onward_of_notes _, rfl⟩
  | miss hnew => exact ⟨⟨rfl, rfl, fun _ _ => lookup_cons_of_new hnew, fun _ _ h => h⟩, rfl⟩
  | fault => exact ⟨⟨rfl, rfl, fun _ _ h => h, fun _ _ h => h⟩, rfl⟩

theorem onward_sampleFor (qs : QuestionSet) (n : Nat) : Keeps Onward (sampleFor qs n) :=
  fun s => (s.sampleOutcome qs n).onward.1

theorem MeansOutcome.onward {r : Except Fault (List Float)}
    (h : MeansOutcome s key pool score r t) : Onward s t := by
  cases h with
  | hit => exact s.onward_of_notes _
  | empty hnew => exact ⟨rfl, rfl, fun _ _ h => h, fun _ _ => lookup_cons_of_new hnew⟩
  | unsampled _ _ hsample => exact (sampleOutcome_of hsample).onward.1
  | unscored _ _ hsample => exact (sampleOutcome_of hsample).onward.1
  | beyond _ _ hsample => exact (sampleOutcome_of hsample).onward.1
  | computed hnew _ hsample =>
    obtain ⟨honward, hmeans⟩ := (sampleOutcome_of hsample).onward
    refine ⟨honward.config, honward.noteLevel, honward.samples, fun key' means hknown => ?_⟩
    exact lookup_cons_of_new (hmeans ▸ hnew) (honward.means key' means hknown)

theorem onward_meansFor (key : MeansKey) (pool : List α)
    (score : α → Except Fault (Option Float)) : Keeps Onward (meansFor key pool score) :=
  fun s => (s.meansOutcome key pool score).onward

/-! ### What is asked for again -/

theorem SampleOutcome.known {sample : Sample} (h : SampleOutcome s qs n (.ok sample) t) :
    t.samples.lookup qs = some sample := by
  cases h with
  | hit hknown => exact hknown
  | miss => exact List.lookup_cons_self

/-- What is remembered is neither drawn nor remembered again. -/
theorem sampleFor_known {sample : Sample} (h : s.samples.lookup qs = some sample) (n : Nat) :
    ∃ notes, runFrom s (sampleFor qs n) = (.ok sample, { s with notes }) := by
  rcases hrun : runFrom s (sampleFor qs n) with ⟨r, t⟩
  cases sampleOutcome_of hrun with
  | hit hknown =>
    rw [h] at hknown
    cases hknown
    exact ⟨_, rfl⟩
  | miss hnew =>
    rw [h] at hnew
    cases hnew
  | fault hnew =>
    rw [h] at hnew
    cases hnew

theorem MeansOutcome.known {means : List Float}
    (h : MeansOutcome s key pool score (.ok means) t) : t.means.lookup key = some means := by
  cases h with
  | hit hknown => exact hknown
  | empty => exact List.lookup_cons_self
  | computed => exact List.lookup_cons_self

/-- Means that are remembered do not depend on the pool or the scores any more. -/
theorem meansFor_known {means : List Float} (h : s.means.lookup key = some means) (pool : List α)
    (score : α → Except Fault (Option Float)) :
    ∃ notes, runFrom s (meansFor key pool score) = (.ok means, { s with notes }) := by
  unfold meansFor
  rw [runFrom_bind, runFrom_get]
  dsimp only
  rw [h]
  obtain ⟨notes, hnote⟩ := s.runFrom_note .debug s!"Means cache hit for {key.label}"
  refine ⟨notes, ?_⟩
  rw [runFrom_bind_ok hnote, runFrom_pure]

end Session

end Questionnaire
