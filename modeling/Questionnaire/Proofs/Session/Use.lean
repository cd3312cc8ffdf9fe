/-
# Sessions in use

A session is asked for samples and means of one pool in any order, reset, or
used within a block that ends with a reset; steps may fail, and the faults may
be caught or end the block. If a whole number of rows is configured, all samples
that are remembered have as many rows, of places in the pool, and all means are
as many. Settings that pass their check may also give a float or a truth value
for the number of rows, and then no sample is ever drawn.

Key definitions: `Session.Step`, `Session.used`, `Session.Shaped`,
`Session.Serves`.
Key theorems: `Session.Step.keeps_act`, `Session.Shaped.serves`,
`Session.serves_in_use`.
-/
import Questionnaire.Classify.Threshold
import Questionnaire.Proofs.Session.Memory
import Questionnaire.Proofs.Sorting

namespace Questionnaire.Session

variable {α : Type}

/-! ### Steps -/

/-- What may be done with a session and a pool. A block ends at the first fault and forgets all;
a fault that is caught ends nothing. -/
inductive Step (α : Type) where
  | bootstrap (rows : Document)
  | sample (questions : QuestionSet)
  | means (key : MeansKey) (score : α → Except Fault (Option Float))
  | reset
  | block (steps : List (Step α))
  | caught (step : Step α)

mutual

/-- A step with a pool. -/
def Step.act (pool : List α) : Step α → InSession Unit
  | .bootstrap rows => do
    let _ ← Session.bootstrap pool.length rows
  | .sample questions => do
    let _ ← sampleFor questions pool.length
  | .means key score => do
    let _ ← meansFor key pool score
  | .reset => Session.reset
  | .block steps => within (actEach pool steps)
  | .caught step => tryCatch (step.act pool) fun _ => pure ()

/-- Steps one after another, up to the first fault. -/
def actEach (pool : List α) : List (Step α) → InSession Unit
  | [] => pure ()
  | step :: steps => do
    step.act pool
    actEach pool steps

end

/-- Whether a step forgets what the session remembers. -/
def Step.forgets : Step α → Bool
  | .reset | .block _ => true
  | .caught step => step.forgets
  | _ => false

/-- The session after a step, also if it fails. -/
def after (pool : List α) (s : Session) (step : Step α) : Session := (s.run (step.act pool)).2

/-- The session after the steps, those that fail included. -/
def used (pool : List α) (s : Session) (steps : List (Step α)) : Session :=
  steps.foldl (after pool) s

variable {pool : List α} {s t : Session} {rows : Nat}

section

variable {R : Session → Session → Prop} [IsPreorder Session R]

mutual

/-- What resampling, samples and means keep is kept by all steps, except that a step that forgets
has to keep it too. -/
theorem Step.keeps_act (hboot : ∀ rows, Keeps R (Session.bootstrap pool.length rows))
    (hsample : ∀ qs, Keeps R (sampleFor qs pool.length))
    (hmeans : ∀ key score, Keeps R (meansFor key pool score)) :
    ∀ step : Step α, (step.forgets = true → ∀ s, R s s.forgetful) → Keeps R (step.act pool)
  | .bootstrap rows, _ => (hboot rows).bind fun _ => .pure ()
  | .sample qs, _ => (hsample qs).bind fun _ => .pure ()
  | .means key score, _ => (hmeans key score).bind fun _ => .pure ()
  | .reset, hforget => hforget rfl
  | .block steps, hforget => fun s => by
    have hsteps := keeps_actEach hboot hsample hmeans (hforget rfl) steps s
    exact trans_of R hsteps (hforget rfl _)
  | .caught step, hforget =>
    (step.keeps_act hboot hsample hmeans hforget).tryCatch fun _ => .pure ()

theorem keeps_actEach (hboot : ∀ rows, Keeps R (Session.bootstrap pool.length rows))
    (hsample : ∀ qs, Keeps R (sampleFor qs pool.length))
    (hmeans : ∀ key score, Keeps R (meansFor key pool score))
    (hforget : ∀ s : Session, R s s.forgetful) :
    ∀ steps : List (Step α), Keeps R (actEach pool steps)
  | [] => .pure ()
  | step :: steps =>
    (step.keeps_act hboot hsample hmeans fun _ => hforget).bind fun _ =>
      keeps_actEach hboot hsample hmeans hforget steps

end

/-- What each step keeps a run keeps. -/
theorem used_related {steps : List (Step α)} (h : ∀ step ∈ steps, Keeps R (step.act pool)) :
    ∀ s : Session, R s (s.used pool steps) := by
  induction steps with
  | nil => exact fun s => refl_of R s
  | cons step steps ih =>
    intro s
    have hfirst : R s (s.after pool step) := h step List.mem_cons_self s
    exact trans_of R hfirst (ih (fun later hlater => h later (List.mem_cons_of_mem step hlater)) _)

end

/-! ### Samples and means in shape -/

/-- As many rows are configured, and all that is remembered has as many: the samples rows of places
in the pool, and the means are as many. -/
structure Shaped (rows size : Nat) (s : Session) : Prop where
  iterations : s.config.iterations = .int rows
  samples : ∀ entry ∈ s.samples, Sample.Fits entry.2 rows size
  means : ∀ entry ∈ s.means, entry.2.length = rows

theorem mem_of_lookup {κ β : Type} [BEq κ] [LawfulBEq κ] {k : κ} {x : β} {entries : List (κ × β)}
    (h : entries.lookup k = some x) : (k, x) ∈ entries := by
  obtain ⟨before, later, rfl, -⟩ := List.lookup_eq_some_iff.mp h
  exact List.mem_append_right before List.mem_cons_self

theorem SampleOutcome.shaped {qs : QuestionSet} {size : Nat} {r : Except Fault Sample}
    (h : SampleOutcome s qs size r t) (hsize : 0 < size) (hs : s.Shaped rows size) :
    t.Shaped rows size ∧ ∃ sample, r = .ok sample ∧ sample.Fits rows size ∧
      t.gen = if s.samples.lookup qs = none then s.gen.after (rows * size) else s.gen := by
  have hrows : resampled size s.config.iterations s.gen =
      (.ok (resample size rows s.gen).1, (resample size rows s.gen).2) := by
    rw [hs.iterations, resampled_int, Int.toNat_natCast]
  cases h with
  | hit hknown =>
    refine ⟨⟨hs.iterations, hs.samples, hs.means⟩, _, rfl, hs.samples _ (mem_of_lookup hknown), ?_⟩
    rw [if_neg (by simp [hknown])]
  | miss hnew hdrawn =>
    rw [hrows] at hdrawn
    cases hdrawn
    have hfits : Sample.Fits (resample size rows s.gen).1 rows size := fits_resample hsize rows s.gen
    refine ⟨⟨hs.iterations, ?_, hs.means⟩, _, rfl, hfits, ?_⟩
    · intro entry hentry
      rcases List.mem_cons.mp hentry with rfl | hold
      · exact hfits
      · exact hs.samples entry hold
    · rw [if_pos hnew]
      exact resample_after size rows s.gen
  | fault _ hdrawn =>
    rw [hrows] at hdrawn
    cases hdrawn

theorem MeansOutcome.shaped {key : MeansKey} {score : α → Except Fault (Option Float)}
    {r : Except Fault (List Float)} (h : MeansOutcome s key pool score r t) (hpool : pool ≠ [])
    (hs : s.Shaped rows pool.length) : t.Shaped rows pool.length ∧
      (t.gen = if s.means.lookup key = none ∧ s.samples.lookup key.questions = none then
        s.gen.after (rows * pool.length) else s.gen) ∧
      (∀ fault, r = .error fault → pool.mapM score = .error fault) ∧
      ∀ means, r = .ok means → means.length = rows := by
  have hsize : 0 < pool.length := List.length_pos_iff.mpr hpool
  cases h with
  | hit hknown =>
    refine ⟨⟨hs.iterations, hs.samples, hs.means⟩, ?_, by simp, ?_⟩
    · rw [if_neg (by simp [hknown])]
    · rintro _ ⟨⟩
      exact hs.means _ (mem_of_lookup hknown)
  | empty _ hnil => exact absurd hnil hpool
  | unsampled _ _ hsample =>
    obtain ⟨-, _, hok, -⟩ := (sampleOutcome_of hsample).shaped hsize hs
    cases hok
  | unscored hnew _ hsample hscores =>
    obtain ⟨hshaped, _, -, -, hgen⟩ := (sampleOutcome_of hsample).shaped hsize hs
    refine ⟨hshaped, ?_, ?_, by simp⟩
    · simpa only [hnew, true_and] using hgen
    · rintro _ ⟨⟩
      exact hscores
  | beyond _ _ hsample hplace =>
    obtain ⟨-, _, hok, hfits, -⟩ := (sampleOutcome_of hsample).shaped hsize hs
    cases hok
    obtain ⟨row, hrow, i, hi, hle⟩ := hplace
    have hlt := hfits.place_lt row hrow i hi
    omega
  | computed hnew _ hsample _ =>
    obtain ⟨hshaped, _, hok, hfits, hgen⟩ := (sampleOutcome_of hsample).shaped hsize hs
    cases hok
    have hlength : ∀ scores, (sortedMeans scores _).length = rows := fun scores => by
      rw [sortedMeans, length_rising, List.length_map, hfits.length]
    refine ⟨⟨hshaped.iterations, hshaped.samples, ?_⟩, ?_, by simp, ?_⟩
    · intro entry hentry
      rcases List.mem_cons.mp hentry with rfl | hold
      · exact hlength _
      · exact hshaped.means entry hold
    · simpa only [hnew, true_and] using hgen
    · rintro _ ⟨⟩
      exact hlength _

/-- No whole number of rows is configured, and nothing is remembered. -/
structure Barren (s : Session) : Prop where
  iterations : ∀ k, s.config.iterations ≠ .int k
  samples : s.samples = []
  means : s.means = []

theorem SampleOutcome.barren {qs : QuestionSet} {size : Nat} {r : Except Fault Sample}
    (h : SampleOutcome s qs size r t) (hsize : 0 < size) (hs : s.Barren) :
    t.Barren ∧ r = .error .illTyped := by
  have hfault := resampled_of_not_int hs.iterations hsize s.gen
  cases h with
  | hit hknown => simp [hs.samples] at hknown
  | miss _ hdrawn =>
    rw [hdrawn] at hfault
    cases hfault
  | fault _ hdrawn =>
    rw [hdrawn] at hfault
    exact ⟨⟨hs.iterations, hs.samples, hs.means⟩, hfault⟩

theorem MeansOutcome.barren {key : MeansKey} {score : α → Except Fault (Option Float)}
    {r : Except Fault (List Float)} (h : MeansOutcome s key pool score r t) (hpool : pool ≠ [])
    (hs : s.Barren) : t.Barren ∧ r = .error .illTyped := by
  have hsize : 0 < pool.length := List.length_pos_iff.mpr hpool
  -- every way to new means begins with a sample
  have hnone : ∀ {sample u}, runFrom s (sampleFor key.questions pool.length) ≠ (.ok sample, u) := by
    intro sample u hsample
    obtain ⟨-, hfault⟩ := (sampleOutcome_of hsample).barren hsize hs
    cases hfault
  cases h with
  | hit hknown => simp [hs.means] at hknown
  | empty _ hnil => exact absurd hnil hpool
  | unsampled _ _ hsample =>
    obtain ⟨hbarren, hfault⟩ := (sampleOutcome_of hsample).barren hsize hs
    cases hfault
    exact ⟨hbarren, rfl⟩
  | unscored _ _ hsample => exact absurd hsample hnone
  | beyond _ _ hsample => exact absurd hsample hnone
  | computed _ _ hsample => exact absurd hsample hnone

/-! ### Runs -/

/-- Resampling changes the generator only. -/
theorem keeps_bootstrap {R : Session → Session → Prop} (h : ∀ (s : Session) gen, R s { s with gen })
    (n : Nat) (rows : Document) : Keeps R (Session.bootstrap n rows) := by
  intro s
  rw [runFrom_bootstrap]
  exact h s _

theorem Shaped.used (hs : s.Shaped rows pool.length) (hpool : pool ≠ [])
    (steps : List (Step α)) : (s.used pool steps).Shaped rows pool.length := by
  have hsize : 0 < pool.length := List.length_pos_iff.mpr hpool
  refine used_related (R := Preserving (Shaped rows pool.length)) (fun step _ => ?_) s hs
  refine step.keeps_act ?_ ?_ ?_ ?_
  · exact keeps_bootstrap (fun _ _ h => ⟨h.iterations, h.samples, h.means⟩) _
  · intro qs s h
    exact ((s.sampleOutcome qs pool.length).shaped hsize h).1
  · intro key score s h
    exact ((s.meansOutcome key pool score).shaped hpool h).1
  · exact fun _ _ h => ⟨h.iterations, by simp [forgetful], by simp [forgetful]⟩

theorem Barren.used (hs : s.Barren) (hpool : pool ≠ []) (steps : List (Step α)) :
    (s.used pool steps).Barren := by
  have hsize : 0 < pool.length := List.length_pos_iff.mpr hpool
  refine used_related (R := Preserving Barren) (fun step _ => ?_) s hs
  refine step.keeps_act ?_ ?_ ?_ ?_
  · exact keeps_bootstrap (fun _ _ h => ⟨h.iterations, h.samples, h.means⟩) _
  · intro qs s h
    exact ((s.sampleOutcome qs pool.length).barren hsize h).1
  · intro key score s h
    exact ((s.meansOutcome key pool score).barren hpool h).1
  · exact fun _ _ h => ⟨h.iterations, rfl, rfl⟩

/-- Without a step that forgets, all stays remembered. -/
theorem onward_used {steps : List (Step α)} (h : ∀ step ∈ steps, step.forgets = false)
    (s : Session) : Onward s (s.used pool steps) := by
  refine used_related (fun step hstep => step.keeps_act ?_ ?_ ?_ ?_) s
  · exact keeps_bootstrap (fun _ _ => ⟨rfl, rfl, fun _ _ h => h, fun _ _ h => h⟩) _
  · exact fun qs => onward_sampleFor qs pool.length
  · exact fun key score => onward_meansFor key pool score
  · intro hforgets
    rw [h step hstep] at hforgets
    cases hforgets

/-! ### What a session gives -/

/-- A whole number of rows that passes its check is positive. -/
theorem rows_of_accepted {settings : Settings} (h : settings.check = .ok settings) {k : Int}
    (hk : (Config.ofSettings settings).iterations = .int k) : ∃ rows : Nat, 1 ≤ rows ∧ k = rows := by
  have hvalue : settings.value "bootstrap_iterations" = .int k := hk
  have hleast : Settings.atLeastOne .noIterations (.int k) = .ok () := by
    unfold Settings.check at h
    obtain ⟨⟨⟩, hleast, -⟩ := bind_eq_ok.mp h
    rwa [hvalue] at hleast
  have hpositive : 1 ≤ k := by
    by_contra hsmall
    have hlt : (Number.int k).blt 1 = true := by
      have hcompare : compare k 1 = .lt := Int.compare_eq_lt.mpr (by omega)
      simpa [Number.blt, Number.compare?] using hcompare
    simp [Settings.atLeastOne, Document.number, Document.number?, hlt, bind, Except.bind] at hleast
  exact ⟨k.toNat, by omega, by omega⟩

/-- All samples fit and are drawn at most once; all means are as many as the rows, so a quantile of
them exists, and fail only if scoring does. -/
structure Serves (rows : Nat) (pool : List α) (s : Session) : Prop where
  sample : ∀ qs, ∃ sample t, s.run (sampleFor qs pool.length) = (.ok sample, t) ∧
    sample.Fits rows pool.length ∧
    t.gen = if s.samples.lookup qs = none then s.gen.after (rows * pool.length) else s.gen
  means : ∀ key score r t, s.run (meansFor key pool score) = (r, t) →
    (t.gen = if s.means.lookup key = none ∧ s.samples.lookup key.questions = none then
      s.gen.after (rows * pool.length) else s.gen) ∧
    (∀ fault, r = .error fault → pool.mapM score = .error fault) ∧
    ∀ means, r = .ok means → means.length = rows ∧
      ∀ place : Int, ScoreKind.clampPlace place means.length < means.length

theorem Shaped.serves (hs : s.Shaped rows pool.length) (hrows : 1 ≤ rows) (hpool : pool ≠ []) :
    s.Serves rows pool where
  sample := by
    intro qs
    have hsize : 0 < pool.length := List.length_pos_iff.mpr hpool
    rcases hrun : runFrom s (sampleFor qs pool.length) with ⟨r, t⟩
    obtain ⟨-, sample, rfl, hfits, hgen⟩ := (sampleOutcome_of hrun).shaped hsize hs
    exact ⟨sample, t, hrun, hfits, hgen⟩
  means := by
    intro key score r t hrun
    obtain ⟨-, hgen, hfault, hlength⟩ := (meansOutcome_of hrun).shaped hpool hs
    refine ⟨hgen, hfault, fun means hmeans => ?_⟩
    have hmany : means.length = rows := hlength means hmeans
    refine ⟨hmany, fun place => ?_⟩
    unfold ScoreKind.clampPlace
    omega

/-- **What a session gives of a pool stays in shape and stays the same, however it is used**, as
long as nothing is forgotten. Settings that pass their check give a positive number of rows, and
then samples and means have as many; or they give no whole number, and then there are no samples
and no means at all. A block ends with nothing remembered, whether a step of it failed or not. -/
theorem serves_in_use {settings : Settings} (haccepted : settings.check = .ok settings)
    (hpool : pool ≠ []) (gen : Gen) (noteLevel : Level) (steps : List (Step α)) :
    let first : Session := { config := Config.ofSettings settings, gen, noteLevel }
    let s := first.used pool steps
    ((∃ rows : Nat, 1 ≤ rows ∧ first.config.iterations = .int rows ∧
        s.Shaped rows pool.length ∧ s.Serves rows pool) ∨
      (∀ k, first.config.iterations ≠ .int k) ∧ s.samples = [] ∧ s.means = [] ∧
        (∀ qs, (s.run (sampleFor qs pool.length)).1 = .error .illTyped) ∧
        ∀ key score, (s.run (meansFor key pool score)).1 = .error .illTyped) ∧
    (∀ more : List (Step α), (∀ step ∈ more, step.forgets = false) →
      (∀ qs sample t, s.run (sampleFor qs pool.length) = (.ok sample, t) →
        ∃ notes, (t.used pool more).run (sampleFor qs pool.length) =
          (.ok sample, { t.used pool more with notes })) ∧
      ∀ key score means t, s.run (meansFor key pool score) = (.ok means, t) →
        ∀ again, ∃ notes, (t.used pool more).run (meansFor key pool again) =
          (.ok means, { t.used pool more with notes })) ∧
    ∀ body, (s.run (Step.act pool (.block body))).1 = (s.run (actEach pool body)).1 ∧
      (s.run (Step.act pool (.block body))).2.samples = [] ∧
      (s.run (Step.act pool (.block body))).2.means = [] := by
  intro first s
  refine ⟨?_, fun more hmore => ⟨?_, ?_⟩, fun body => ⟨rfl, rfl, rfl⟩⟩
  · by_cases hwhole : ∃ k, first.config.iterations = .int k
    · obtain ⟨k, hk⟩ := hwhole
      obtain ⟨rows, hrows, rfl⟩ := rows_of_accepted haccepted hk
      have hfresh : first.Shaped rows pool.length := ⟨hk, by simp [first], by simp [first]⟩
      have hshaped : s.Shaped rows pool.length := hfresh.used hpool steps
      exact .inl ⟨rows, hrows, hk, hshaped, hshaped.serves hrows hpool⟩
    · have hfresh : first.Barren := ⟨fun k hk => hwhole ⟨k, hk⟩, rfl, rfl⟩
      have hbarren : s.Barren := hfresh.used hpool steps
      refine .inr ⟨hfresh.iterations, hbarren.samples, hbarren.means, fun qs => ?_,
        fun key score => ?_⟩
      · have hsize : 0 < pool.length := List.length_pos_iff.mpr hpool
        exact ((s.sampleOutcome qs pool.length).barren hsize hbarren).2
      · exact ((s.meansOutcome key pool score).barren hpool hbarren).2
  · intro qs sample t hrun
    have hstays : Onward t (t.used pool more) := onward_used hmore t
    exact sampleFor_known (hstays.samples qs sample (sampleOutcome_of hrun).known) pool.length
  · intro key score means t hrun again
    have hstays : Onward t (t.used pool more) := onward_used hmore t
    exact meansFor_known (hstays.means key means (meansOutcome_of hrun).known) pool again

/-! ### Two rows -/

/-- Settings with a number of rows. -/
def settingsWith (rows : Document) : Settings := [
  ("bootstrap_iterations", rows), ("alpha", .int 0), ("epsilon", .int 1), ("delta", .int 0),
  ("min_distinct_scores", .int 6), ("cluster_k", .int 2), ("cluster_max_iterations", .int 50),
  ("path_length_samples", .int 5000), ("order_bias_min_samples", .int 5),
  ("order_bias_balance", .int 0), ("log_every", .int 25), ("seed", .null)]

/-- What has a score. -/
def scoreOf (scored : Bool) : Except Fault (Option Float) :=
  if scored then .ok none else .error .illTyped

/-- A sample is drawn and forgotten, though a score fails in the block; then means fail after
their sample was drawn, and another sample is drawn. -/
def twoRowsSteps : List (Step Bool) :=
  [.block [.sample [], .means ⟨"", [⟨0, 0⟩], false⟩ scoreOf, .sample [⟨0, 1⟩]],
    .means ⟨"", [], false⟩ scoreOf, .sample [⟨0, 0⟩]]

/-- The session with two rows after these steps. -/
def twoRowsUsed : Session :=
  ({ config := Config.ofSettings (settingsWith (.int 2)), gen := ⟨0⟩ } : Session).used
    [true, false] twoRowsSteps

theorem serves_in_use_twoRows :
    (settingsWith (.int 2)).check = .ok (settingsWith (.int 2)) ∧ [true, false] ≠ [] ∧
    twoRowsUsed.samples = [([⟨0, 0⟩], [[1, 1], [1, 1]]), ([], [[1, 0], [1, 0]])] ∧
    twoRowsUsed.Shaped 2 2 ∧ twoRowsUsed.Serves 2 [true, false] := by
  have haccepted : (settingsWith (.int 2)).check = .ok (settingsWith (.int 2)) := rfl
  have hpool : [true, false] ≠ [] := by decide
  refine ⟨haccepted, hpool, by decide +kernel, ?_⟩
  rcases (serves_in_use haccepted hpool ⟨0⟩ .debug twoRowsSteps).1 with
    ⟨rows, -, hrows, hshaped, hserves⟩ | ⟨hnone, -⟩
  · obtain rfl : rows = 2 := by
      have hsame : Document.int 2 = .int rows := hrows
      simp only [Document.int.injEq] at hsame
      omega
    exact ⟨hshaped, hserves⟩
  · exact absurd rfl (hnone 2)

/-- **The number of rows may be a float, and then asking for a sample fails and draws nothing.** -/
theorem floatRows_fail :
    (settingsWith (.float 2.0)).check = .ok (settingsWith (.float 2.0)) ∧
    (Config.ofSettings (settingsWith (.float 2.0))).iterations = .float 2.0 ∧
    let first : Session := { config := Config.ofSettings (settingsWith (.float 2.0)), gen := ⟨0⟩ }
    (first.run (sampleFor [] 1)).1 = .error .illTyped ∧
    (first.run (sampleFor [] 1)).2.samples = [] ∧ (first.run (sampleFor [] 1)).2.gen = ⟨0⟩ ∧
    first.gen.after (2 * 1) ≠ ⟨0⟩ := by
  refine ⟨rfl, rfl, rfl, rfl, rfl, by decide⟩

end Questionnaire.Session
