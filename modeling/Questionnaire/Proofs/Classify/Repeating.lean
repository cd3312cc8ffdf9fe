/-
# Classifying by scores again

The decisions by scores rest on means that the session remembers, and neither
the marks of the responses nor what else the session remembers matter to them.
Classifying in between changes marks only and forgets nothing. So a batch that
was classified by its scores is classified alike later, and then nothing is
drawn and nothing new remembered.

Key definitions: `Batch.Later`, `Classification`, `Batch.classified`.
Key theorems: `Session.repeats_decisions`, `Session.onward_decisions`,
`Batch.later_classify`, `Batch.classify_again`.
-/
import Questionnaire.Proofs.Classify.Marking
import Questionnaire.Proofs.Survey.Leaves

namespace Questionnaire

namespace Session

/-! ### Decisions that come out again -/

theorem repeats_notes (notes : List Note) :
    Repeats (notes.forM fun n => note n.level n.text) :=
  .forM (fun n => repeats_note n.level n.text) notes

theorem repeats_gathered (s : Survey) (smoothing : Bool) (pool : List Response) :
    Repeats (gathered s smoothing pool) := by
  unfold gathered
  refine (repeats_lift _).bind fun fs => ?_
  exact (repeats_notes (Frequencies.gatherNotes pool fs)).bind fun _ => .pure fs

theorem repeats_quantile (alpha : Document) : Repeats (quantile alpha) := by
  unfold quantile
  split
  · exact repeats_configured.bind fun config => .pure config.alpha
  · exact .pure _

theorem repeats_decision (k : ScoreKind) (s : Survey) (ps : Probabilities) (pool : List Response)
    (smoothing : Bool) (alpha : Document) (r : Response) :
    Repeats (k.decision s ps pool smoothing alpha r) := by
  unfold ScoreKind.decision
  refine (repeats_lift _).bind fun score => (repeats_lift _).bind fun others => ?_
  refine repeats_configured.bind fun config => (repeats_lift _).bind fun needed => ?_
  split
  · exact .pure _
  · refine (repeats_meansFor _ pool _).bind fun means => ?_
    exact (repeats_lift _).bind fun threshold => .pure _

section

variable {decide : Response → InSession Verdict} (hdecide : ∀ r, Repeats (decide r))
include hdecide

theorem repeats_decideOne (policy : Policy) (p : Progress) (place : Response × Nat) :
    Repeats (decideOne policy decide p place) := by
  have hadd : Repeats (decide place.1 >>= fun v => lift (p.add v)) :=
    (hdecide place.1).bind fun v => repeats_lift _
  unfold decideOne
  refine repeats_configured.bind fun config => (repeats_lift _).bind fun noted => ?_
  split
  · exact (repeats_noteWorded .info _).bind fun _ => hadd
  · exact hadd

theorem repeats_decideEach (policy : Policy) (responses : List Response) :
    Repeats (decideEach policy decide responses) := by
  unfold decideEach
  exact (Repeats.foldlM (repeats_decideOne hdecide policy) _ _).bind fun p => .pure p.verdicts

end

theorem repeats_decisionsByScore (k : ScoreKind) (s : Survey) (smoothing : Bool)
    (alpha : Document) (pool : List Response) :
    Repeats (decisionsByScore k s smoothing alpha pool) := by
  unfold decisionsByScore
  refine (repeats_gathered s smoothing pool).bind fun fs => ?_
  refine (repeats_quantile alpha).bind fun alpha => ?_
  exact repeats_decideEach (repeats_decision k s _ pool smoothing alpha) _ pool

theorem repeats_decisions (k : ScoreKind) (s : Survey) (smoothing : Bool) (alpha : Document)
    (responses : List Response) : Repeats (decisions s k.policy smoothing alpha responses) := by
  refine repeats_configured.bind fun config => ?_
  cases k <;> exact repeats_decisionsByScore _ s smoothing alpha responses

/-! ### Decisions of all policies -/

theorem onward_tryDraw {α : Type} (d : Draw (Except Fault α)) : Keeps Onward (tryDraw d) := by
  intro s
  rw [runFrom_tryDraw]
  exact ⟨rfl, rfl, fun _ _ h => h, fun _ _ h => h⟩

theorem onward_rareMarked (s : Survey) (smoothing : Bool) (epsilon delta : Document)
    (responses : List Response) : Keeps Onward (rareMarked s smoothing epsilon delta responses) := by
  unfold rareMarked
  exact (repeats_gathered s smoothing responses).onward.bind fun fs => (repeats_lift _).onward

theorem onward_clusterMarked (s : Survey) (k rounds : Document) (supervised : Bool)
    (responses : List Response) : Keeps Onward (clusterMarked s k rounds supervised responses) := by
  unfold clusterMarked
  split
  · exact .pure _
  · refine (repeats_lift _).onward.bind fun ranks => (onward_tryDraw _).bind fun c => ?_
    exact (repeats_notes (clusterNotes c)).onward.bind fun _ => .pure _

/-- Deciding forgets nothing, also if it fails. -/
theorem onward_decisions (s : Survey) (policy : Policy) (smoothing : Bool) (alpha : Document)
    (responses : List Response) : Keeps Onward (decisions s policy smoothing alpha responses) := by
  refine repeats_configured.onward.bind fun config => ?_
  cases policy with
  | clusters => exact (onward_clusterMarked s _ _ true responses).bind fun marked => .pure _
  | rareChoices =>
    exact (onward_rareMarked s smoothing _ _ responses).bind fun marked => .pure _
  | stacked =>
    refine (onward_rareMarked s smoothing _ _ responses).bind fun marked => ?_
    exact (onward_clusterMarked s _ _ false marked).bind fun marked => .pure _
  | entropy => exact (repeats_decisionsByScore .entropy s smoothing alpha responses).onward
  | likelihood => exact (repeats_decisionsByScore .likelihood s smoothing alpha responses).onward
  | all =>
    refine (repeats_gathered s smoothing responses).onward.bind fun fs => ?_
    exact (repeats_decideEach (fun r => .pure _) .all responses).onward

end Session

/-! ### Batches that were classified -/

/-- How a batch is to be classified. -/
structure Classification where
  policy : Policy
  smoothing : Bool := false
  alpha : Document := .null

namespace Batch

/-- The same batch later on: only marks differ, and the session remembers what it did. -/
structure Later (b b' : Batch) : Prop where
  remarked : Remarked b b'
  onward : Session.Onward b.session b'.session

instance : IsPreorder Batch Later where
  refl b := ⟨refl_of Remarked b, refl_of Session.Onward b.session⟩
  trans _ _ _ h h' :=
    ⟨trans_of Remarked h.remarked h'.remarked, trans_of Session.Onward h.onward h'.onward⟩

theorem later_classify (s : Survey) (policy : Policy) (smoothing : Bool) (alpha : Document) :
    Keeps Later (classify s policy smoothing alpha) := by
  intro b
  refine ⟨remarked_classify s policy smoothing alpha b, ?_⟩
  have honward := Session.onward_decisions s policy smoothing alpha b.responses b.session
  rwa [runFrom_classify] at honward

/-- The batch after it was classified in some ways, one after another, also if some of them fail. -/
def classified (s : Survey) (b : Batch) (ways : List Classification) : Batch :=
  ways.foldl (fun b way => (b.run (classify s way.policy way.smoothing way.alpha)).2) b

theorem later_classified (s : Survey) : ∀ (ways : List Classification) (b : Batch),
    Later b (b.classified s ways)
  | [], b => refl_of Later b
  | way :: ways, b => by
    have hfirst := later_classify s way.policy way.smoothing way.alpha b
    exact trans_of Later hfirst (later_classified s ways _)

variable {s : Survey} {k : ScoreKind} {smoothing : Bool} {alpha : Document} {b b₁ b₂ : Batch}
  {vs : List Verdict}

/-- The verdicts come out again on each batch that is the same one later on. -/
theorem classify_later (hrun : b.run (classify s k.policy smoothing alpha) = (.ok vs, b₁))
    (hlater : Later b₁ b₂) :
    ∃ notes responses, b₂.run (classify s k.policy smoothing alpha) =
      (.ok vs, { session := { b₂.session with notes }, responses }) := by
  have hpolicy : k.policy ≠ .all := by cases k <;> decide
  have hmarks : Remarked b b₂ := by
    have hfirst : Remarked b (b.run (classify s k.policy smoothing alpha)).2 :=
      remarked_classify s k.policy smoothing alpha b
    rw [hrun] at hfirst
    exact trans_of Remarked hfirst hlater.remarked
  have hdecided : Session.decisions s k.policy smoothing alpha b₂.responses =
      Session.decisions s k.policy smoothing alpha b.responses := by
    rw [← Session.decisions_unmarked hpolicy, hmarks, Session.decisions_unmarked hpolicy]
  have hfirst : runFrom b.session (Session.decisions s k.policy smoothing alpha b.responses) =
      (.ok vs, b₁.session) := by
    rw [runFrom_classify]
    exact congrArg (fun r => (r.1, r.2.session)) hrun
  obtain ⟨notes, hagain⟩ :=
    (Session.repeats_decisions k s smoothing alpha b.responses).again hfirst hlater.onward
  rw [← hdecided, runFrom_classify] at hagain
  obtain ⟨hsame, hsession⟩ := Prod.mk.inj hagain
  refine ⟨notes, (b₂.run (classify s k.policy smoothing alpha)).2.responses, ?_⟩
  rw [← hsession, ← hsame]
  rfl

/-- **A batch that was classified by its scores gets the same verdicts again**, however it is
classified in between; then nothing is drawn, and the session remembers the same. -/
theorem classify_again (hrun : b.run (classify s k.policy smoothing alpha) = (.ok vs, b₁))
    (ways : List Classification) :
    ∃ notes responses, (b₁.classified s ways).run (classify s k.policy smoothing alpha) =
      (.ok vs, { session := { (b₁.classified s ways).session with notes }, responses }) :=
  classify_later hrun (later_classified s ways b₁)

/-- Two responses that select nothing, to be resampled once. -/
def blanks : Batch where
  session := { config := { iterations := .int 1, minDistinctScores := .int 1 }, gen := ⟨0⟩ }
  responses := ["a", "b"].map fun id => { id := .str id, answers := [⟨Survey.forkFirst, [], .int 0⟩] }

/-- Classifying these by their entropies. -/
def blanksRun : Except Fault (List Verdict) × Batch :=
  blanks.run (classify (Survey.fork Survey.more) .entropy false .null)

/-- Ways to classify, one of which draws and another one of which fails. -/
def otherWays : List Classification :=
  [{ policy := .clusters }, { policy := .likelihood, alpha := .str "low" }, { policy := .all }]

theorem classify_again_blanks :
    ∃ vs b₁, blanks.run (classify (Survey.fork Survey.more) .entropy false .null) = (.ok vs, b₁) ∧
      vs.map (·.valid) = [false, false] ∧ b₁.session.samples = [([⟨0, 0⟩], [[1, 0]])] ∧
      let b₂ := b₁.classified (Survey.fork Survey.more) otherWays
      b₂.session.gen ≠ b₁.session.gen ∧
      ∃ notes responses, b₂.run (classify (Survey.fork Survey.more) .entropy false .null) =
        (.ok vs, { session := { b₂.session with notes }, responses }) := by
  have hvalid : blanksRun.1.map (·.map (·.valid)) = .ok [false, false] := by decide +kernel
  have hsamples : blanksRun.2.session.samples = [([⟨0, 0⟩], [[1, 0]])] := by decide +kernel
  have hdrawn : (blanksRun.2.classified (Survey.fork Survey.more) otherWays).session.gen ≠
      blanksRun.2.session.gen := by decide +kernel
  rcases hrun : blanksRun with ⟨_ | vs, b₁⟩
  · rw [hrun] at hvalid
    cases hvalid
  · rw [hrun] at hvalid hsamples hdrawn
    exact ⟨vs, b₁, hrun, Except.ok.inj hvalid, hsamples, hdrawn,
      classify_again (k := .entropy) hrun otherWays⟩

end Batch

end Questionnaire
