/-
# Whether earlier marks matter

Two batches with the same session, whose responses differ in their marks only,
are classified alike by each policy that marks scores and thresholds of its own.
The policy that takes all responses marks none: it passes on the scores and
thresholds that it finds, so its verdicts are the same if and only if those are.

Key definition: `Response.held`.
Key theorems: `Batch.verdicts_of_all`, `Batch.classify_independent`.
-/
import Questionnaire.Proofs.Classify.Unmarked
import Questionnaire.Proofs.Survey.Leaves

namespace Questionnaire

/-- The score and the threshold that a response holds. -/
def Response.held (r : Response) : Document × Document := (r.score, r.threshold)

/-- The response with no marks but these. -/
def Response.bare (r : Response) : Response :=
  { r.unmarked with score := r.score, threshold := r.threshold }

/-- The score and the threshold of a verdict. -/
def Verdict.held (v : Verdict) : Document × Document := (v.score, v.threshold)

/-- A verdict without its score and threshold. -/
def Verdict.unheld (v : Verdict) : Document × Nat × Bool := (v.responseId, v.answered, v.valid)

namespace Batch

variable {s : Survey} {policy : Policy} {smoothing : Bool} {alpha : Document} {b b' : Batch}
  {vs vs' : List Verdict}

/-! ### Taking all responses -/

/-- The verdicts that all responses are taken show the scores and thresholds held before. -/
theorem verdicts_of_all (h : (b.run (classify s .all smoothing alpha)).1 = .ok vs) :
    vs = b.responses.map (·.verdict .all true) := by
  have hdecided : runFrom b.session (Session.decisions s .all smoothing alpha b.responses) =
      (.ok vs, (b.run (classify s .all smoothing alpha)).2.session) := by
    rw [runFrom_classify, ← h]
    rfl
  obtain ⟨config, t₁, _, hdecided⟩ := runFrom_bind_eq_ok hdecided
  obtain ⟨fs, t₂, _, hdecided⟩ := runFrom_bind_eq_ok hdecided
  have hall := Session.decided_of_decideEach hdecided
  have hheld : List.Forall₂ (· = ·) (b.responses.map (·.verdict .all true)) vs := by
    refine List.forall₂_map_left_iff.mpr (hall.imp ?_)
    rintro r v ⟨s', t', hdecide⟩
    exact Except.ok.inj (Prod.mk.inj hdecide).1
  rw [List.forall₂_eq_eq_eq] at hheld
  exact hheld.symm

theorem decisions_bare (s : Survey) (smoothing : Bool) (alpha : Document)
    (responses : List Response) :
    Session.decisions s .all smoothing alpha (responses.map (·.bare)) =
      Session.decisions s .all smoothing alpha responses := by
  have hgathered : Session.gathered s smoothing (responses.map (·.bare)) =
      Session.gathered s smoothing responses := by
    rw [← Session.gathered_unmarked, ← Session.gathered_unmarked s smoothing responses,
      List.map_map]
    rfl
  unfold Session.decisions
  refine congrArg _ (funext fun config => ?_)
  dsimp only
  rw [hgathered, Session.decideEach_map]
  rfl

/-! ### All policies -/

theorem map_bare_eq (hanswers : b'.responses.map (·.unmarked) = b.responses.map (·.unmarked))
    (hheld : b'.responses.map (·.held) = b.responses.map (·.held)) :
    b'.responses.map (·.bare) = b.responses.map (·.bare) := by
  have hpair : ∀ responses : List Response, responses.map (·.bare) =
      ((responses.map (·.unmarked)).zip (responses.map (·.held))).map
        fun (r, score, threshold) => { r with score, threshold } := by
    intro responses
    rw [List.zip_map', List.map_map]
    rfl
  rw [hpair, hpair, hanswers, hheld]

/-- The same decisions are the same result, and leave the same session. -/
theorem classify_same (hsession : b'.session = b.session)
    (hdecided : Session.decisions s policy smoothing alpha b'.responses =
      Session.decisions s policy smoothing alpha b.responses) :
    (b'.run (classify s policy smoothing alpha)).1 =
        (b.run (classify s policy smoothing alpha)).1 ∧
      (b'.run (classify s policy smoothing alpha)).2.session =
        (b.run (classify s policy smoothing alpha)).2.session := by
  have hruns := runFrom_classify b' s policy smoothing alpha
  rw [hdecided, hsession, runFrom_classify] at hruns
  exact ⟨(Prod.mk.inj hruns).1.symm, (Prod.mk.inj hruns).2.symm⟩

/-- **Earlier marks matter only if all responses are taken, and then only scores and thresholds.**
If they do not differ in what matters, two batches are classified alike, also if this fails; and
if both have verdicts, these differ in no more than scores and thresholds, and only if the policy
takes all responses and finds different ones. -/
theorem classify_independent (s : Survey) (policy : Policy) (smoothing : Bool) (alpha : Document)
    {b b' : Batch} (hsession : b'.session = b.session)
    (hanswers : b'.responses.map (·.unmarked) = b.responses.map (·.unmarked)) :
    ((policy = .all → b'.responses.map (·.held) = b.responses.map (·.held)) →
      (b'.run (classify s policy smoothing alpha)).1 =
          (b.run (classify s policy smoothing alpha)).1 ∧
        (b'.run (classify s policy smoothing alpha)).2.session =
          (b.run (classify s policy smoothing alpha)).2.session) ∧
    ∀ vs vs', (b.run (classify s policy smoothing alpha)).1 = .ok vs →
      (b'.run (classify s policy smoothing alpha)).1 = .ok vs' →
      vs'.map (·.unheld) = vs.map (·.unheld) ∧
        (vs'.map (·.held) = vs.map (·.held) ↔
          (policy = .all → b'.responses.map (·.held) = b.responses.map (·.held))) := by
  have hsame : (policy = .all → b'.responses.map (·.held) = b.responses.map (·.held)) →
      Session.decisions s policy smoothing alpha b'.responses =
        Session.decisions s policy smoothing alpha b.responses := by
    intro hmatters
    by_cases hall : policy = .all
    · subst hall
      rw [← decisions_bare, map_bare_eq hanswers (hmatters rfl), decisions_bare]
    · rw [← Session.decisions_unmarked hall, hanswers, Session.decisions_unmarked hall]
  refine ⟨fun hmatters => classify_same hsession (hsame hmatters), ?_⟩
  intro vs vs' hvs hvs'
  by_cases hall : policy = .all
  · subst hall
    rw [verdicts_of_all hvs, verdicts_of_all hvs', List.map_map, List.map_map, List.map_map,
      List.map_map]
    refine ⟨?_, fun hheld _ => hheld, fun hmatters => hmatters rfl⟩
    have hunheld : ∀ responses : List Response,
        responses.map (Verdict.unheld ∘ Response.verdict .all true) =
          (responses.map (·.unmarked)).map (Verdict.unheld ∘ Response.verdict .all true) := by
      intro responses
      rw [List.map_map]
      rfl
    exact (hunheld _).trans (hanswers ▸ (hunheld _).symm)
  · have hruns := (classify_same hsession (hsame fun h => absurd h hall)).1
    rw [hvs, hvs'] at hruns
    obtain rfl := Except.ok.inj hruns
    exact ⟨rfl, fun _ h => absurd h hall, fun _ => rfl⟩

/-- Two responses that select nothing and hold a score and a threshold. -/
def holding (score threshold : Document) : Batch where
  session := { config := {}, gen := ⟨0⟩ }
  responses := ["a", "b"].map fun id =>
    { id := .str id, answers := [⟨Survey.forkFirst, [], .int 0⟩], score, threshold }

/-- The verdicts that both are taken. -/
def bothTaken (score threshold : Document) : List Verdict :=
  ["a", "b"].map fun id => ⟨.str id, .all, 1, score, threshold, true⟩

theorem run_all_holding {score threshold : Document}
    (hreturns : ((holding score threshold).run (classify (Survey.fork Survey.more) .all false
      .null)).1.map (·.length) = .ok 2) :
    ((holding score threshold).run (classify (Survey.fork Survey.more) .all false .null)).1 =
      .ok (bothTaken score threshold) := by
  rcases hrun : ((holding score threshold).run
    (classify (Survey.fork Survey.more) .all false .null)).1 with _ | vs
  · rw [hrun] at hreturns
    cases hreturns
  · rw [verdicts_of_all hrun]
    rfl

theorem classify_independent_holding :
    let fresh := holding (.float 0.0) .null
    let marked := holding (.float 1.0) (.float 0.25)
    marked.session = fresh.session ∧
    marked.responses.map (·.unmarked) = fresh.responses.map (·.unmarked) ∧
    (marked.run (classify (Survey.fork Survey.more) .rareChoices false .null)).1 =
      (fresh.run (classify (Survey.fork Survey.more) .rareChoices false .null)).1 ∧
    (fresh.run (classify (Survey.fork Survey.more) .all false .null)).1 =
      .ok (bothTaken (.float 0.0) .null) ∧
    (marked.run (classify (Survey.fork Survey.more) .all false .null)).1 =
      .ok (bothTaken (.float 1.0) (.float 0.25)) ∧
    marked.responses.map (·.held) ≠ fresh.responses.map (·.held) := by
  have hsession : (holding (.float 1.0) (.float 0.25)).session =
      (holding (.float 0.0) .null).session := rfl
  have hanswers : (holding (.float 1.0) (.float 0.25)).responses.map (·.unmarked) =
      (holding (.float 0.0) .null).responses.map (·.unmarked) := rfl
  have hfresh := @run_all_holding (.float 0.0) .null (by decide +kernel)
  have hmarked := @run_all_holding (.float 1.0) (.float 0.25) (by decide +kernel)
  refine ⟨hsession, hanswers, ?_, hfresh, hmarked, ?_⟩
  · exact ((classify_independent _ .rareChoices _ _ hsession hanswers).1 nofun).1
  · intro hheld
    have hboth := (classify_independent _ .all _ _ hsession hanswers).2 _ _ hfresh hmarked
    exact absurd (hboth.2.mpr fun _ => hheld) (by simp [bothTaken, Verdict.held])

/-- **Taking all responses shows the thresholds that they held before.** -/
theorem all_shows_held :
    let fresh := holding (.float 0.0) .null
    let marked := holding (.float 1.0) (.float 0.25)
    marked.session = fresh.session ∧
    marked.responses.map (·.unmarked) = fresh.responses.map (·.unmarked) ∧
    (fresh.run (classify (Survey.fork Survey.more) .all false .null)).1 =
      .ok (bothTaken (.float 0.0) .null) ∧
    (marked.run (classify (Survey.fork Survey.more) .all false .null)).1 =
      .ok (bothTaken (.float 1.0) (.float 0.25)) ∧
    (bothTaken (.float 1.0) (.float 0.25)).map (·.threshold) ≠
      (bothTaken (.float 0.0) .null).map (·.threshold) :=
  ⟨rfl, rfl, run_all_holding (by decide +kernel), run_all_holding (by decide +kernel),
    by simp [bothTaken]⟩

end Batch

end Questionnaire
