/-
# Decisions apart from marks

Classifying a batch leaves marks on its responses and gives a verdict on each.
The verdicts can be had without the marks: a computation in the session alone
decides about a list of responses, and classifying a batch with these responses
fails when it does, gives the same verdicts and leaves the same session. So what
is known of computations in a session holds of classifying a batch.

Key definitions: `ScoreKind.decision`, `Session.decisions`, `Follows`.
Key theorems: `Session.decided_of_decideEach`, `Follows.bind`,
`follows_classifyEach`, `runFrom_classify`.
-/
import Questionnaire.Classify.Batch
import Questionnaire.Proofs.Session.Repeating
import Questionnaire.Proofs.Success

namespace Questionnaire

/-! ### Decisions in a session -/

/-- The decision about a response by its score. -/
def ScoreKind.decision (k : ScoreKind) (s : Survey) (ps : Probabilities) (pool : List Response)
    (smoothing : Bool) (alpha : Document) (r : Response) : InSession Verdict := do
  let score ← Session.lift (k.score ps r)
  let others ← Session.lift (likelihoods s ps.odds r pool)
  let needed ← Session.lift (← Session.configured).minDistinctScores.number
  if (Number.int (distinctScores others).length).blt needed then
    return ⟨r.id, k.policy, r.counted.length, .float score, .null, true⟩
  else
    let key : MeansKey := ⟨k.policy.label, r.questionKeys, smoothing⟩
    let means ← Session.meansFor key pool fun t => k.compared s ps r t
    let threshold ← Session.lift (k.threshold alpha means)
    return ⟨r.id, k.policy, r.counted.length, .float score, .float threshold,
      k.accepts score threshold⟩

namespace Session

/-- The decision about the response at a place, after progress was noted. -/
def decideOne (policy : Policy) (decide : Response → InSession Verdict) (p : Progress)
    (place : Response × Nat) : InSession Progress := do
  if ← lift (isNoted (← configured).noteEvery place.2) then
    noteWorded .info (p.note policy place.2)
  lift (p.add (← decide place.1))

/-- The decisions about all responses, one after another. -/
def decideEach (policy : Policy) (decide : Response → InSession Verdict)
    (responses : List Response) : InSession (List Verdict) := do
  return (← responses.zipIdx.foldlM (decideOne policy decide) {}).verdicts

/-- Gathers frequencies and notes what there is to say about it. -/
def gathered (s : Survey) (smoothing : Bool) (pool : List Response) : InSession Frequencies := do
  let fs ← lift (Frequencies.gather s smoothing pool)
  (Frequencies.gatherNotes pool fs).forM fun n => note n.level n.text
  return fs

/-- The responses with the marks of their rare answers. -/
def rareMarked (s : Survey) (smoothing : Bool) (epsilon delta : Document)
    (responses : List Response) : InSession (List Response) := do
  let fs ← gathered s smoothing responses
  lift (markRareAnswers s fs epsilon delta responses)

/-- The responses with the marks of their clusters. -/
def clusterMarked (s : Survey) (k rounds : Document) (supervised : Bool)
    (responses : List Response) : InSession (List Response) := do
  if responses.isEmpty then return responses
  let ranks ← lift (responses.mapM (·.point s))
  let points : List Cluster.Point := ranks.map (·.map Int.ofNat)
  let c ← tryDraw (Cluster.kmodes points k rounds)
  (clusterNotes c).forM fun n => note n.level n.text
  return markClusters c points supervised responses

/-- The quantile to use: the configured one if nothing is given. -/
def quantile (alpha : Document) : InSession Document := do
  match alpha with
  | .null => return (← configured).alpha
  | alpha => return alpha

/-- The decisions about responses by their scores of a kind. -/
def decisionsByScore (k : ScoreKind) (s : Survey) (smoothing : Bool) (alpha : Document)
    (pool : List Response) : InSession (List Verdict) := do
  let ps := probabilities (← gathered s smoothing pool)
  let alpha ← quantile alpha
  decideEach k.policy (k.decision s ps pool smoothing alpha) pool

/-- The decisions of a policy about responses. -/
def decisions (s : Survey) (policy : Policy) (smoothing : Bool) (alpha : Document)
    (responses : List Response) : InSession (List Verdict) := do
  let config ← configured
  match policy with
  | .clusters =>
    let marked ← clusterMarked s config.clusters config.clusterRounds true responses
    return marked.map fun r => r.verdict .clusters r.taken
  | .rareChoices =>
    let marked ← rareMarked s smoothing config.epsilon config.delta responses
    return marked.map fun r => r.verdict .rareChoices r.taken
  | .stacked =>
    let marked ← rareMarked s smoothing config.epsilon config.delta responses
    let marked ← clusterMarked s config.clusters config.clusterRounds false marked
    return marked.map fun r => r.verdict .rareChoices r.taken
  | .entropy => decisionsByScore .entropy s smoothing alpha responses
  | .likelihood => decisionsByScore .likelihood s smoothing alpha responses
  | .all =>
    let _ ← gathered s smoothing responses
    decideEach .all (fun r => return r.verdict .all true) responses

/-! ### One decision for each response -/

theorem verdicts_of_add {p q : Progress} {v : Verdict} (h : p.add v = .ok q) :
    q.verdicts = p.verdicts ++ [v] := by
  obtain ⟨score, _, h⟩ := bind_eq_ok.mp h
  dsimp only at h
  split at h <;> cases h <;> rfl

variable {policy : Policy} {decide : Response → InSession Verdict} {s t : Session}

theorem verdicts_of_decideOne {p q : Progress} {place : Response × Nat}
    (h : runFrom s (decideOne policy decide p place) = (.ok q, t)) :
    ∃ v s' t', runFrom s' (decide place.1) = (.ok v, t') ∧ q.verdicts = p.verdicts ++ [v] := by
  have hadd : ∀ {s'}, runFrom s' (decide place.1 >>= fun v => lift (p.add v)) = (.ok q, t) →
      ∃ v s' t', runFrom s' (decide place.1) = (.ok v, t') ∧ q.verdicts = p.verdicts ++ [v] := by
    intro s' h
    obtain ⟨v, t', hdecide, h⟩ := runFrom_bind_eq_ok h
    rw [runFrom_sessionLift] at h
    exact ⟨v, s', t', hdecide, verdicts_of_add (Prod.mk.inj h).1⟩
  unfold decideOne at h
  obtain ⟨config, s₁, _, h⟩ := runFrom_bind_eq_ok h
  obtain ⟨noted, s₂, _, h⟩ := runFrom_bind_eq_ok h
  split at h
  · obtain ⟨_, s₃, _, h⟩ := runFrom_bind_eq_ok h
    exact hadd h
  · exact hadd h

/-- The verdicts of a loop are those before and one for each response, in order. -/
theorem verdicts_of_loop : ∀ {places : List (Response × Nat)} {p q : Progress} {s : Session},
    runFrom s (places.foldlM (decideOne policy decide) p) = (.ok q, t) →
      ∃ vs, q.verdicts = p.verdicts ++ vs ∧
        List.Forall₂ (fun place v => ∃ s' t', runFrom s' (decide place.1) = (.ok v, t')) places vs
  | [], p, q, s, h => by
    cases h
    exact ⟨[], (List.append_nil _).symm, .nil⟩
  | place :: places, p, q, s, h => by
    rw [List.foldlM_cons] at h
    obtain ⟨p', s₁, hone, hrest⟩ := runFrom_bind_eq_ok h
    obtain ⟨v, s', t', hdecide, hfirst⟩ := verdicts_of_decideOne hone
    obtain ⟨vs, hlater, hall⟩ := verdicts_of_loop hrest
    refine ⟨v :: vs, ?_, .cons ⟨s', t', hdecide⟩ hall⟩
    rw [hlater, hfirst, List.append_assoc]
    rfl

/-- Each verdict is a decision about its response. -/
theorem decided_of_decideEach {responses : List Response} {vs : List Verdict}
    (h : runFrom s (decideEach policy decide responses) = (.ok vs, t)) :
    List.Forall₂ (fun r v => ∃ s' t', runFrom s' (decide r) = (.ok v, t')) responses vs := by
  unfold decideEach at h
  obtain ⟨p, s₁, hloop, h⟩ := runFrom_bind_eq_ok h
  obtain ⟨vs', hverdicts, hall⟩ := verdicts_of_loop hloop
  have hsame : vs' = vs := hverdicts.symm.trans (Except.ok.inj (Prod.mk.inj h).1)
  have hplaces := List.forall₂_map_left_iff (f := Prod.fst)
    (R := fun r v => ∃ s' t', runFrom s' (decide r) = (.ok v, t')).mpr hall
  rw [List.zipIdx_map_fst] at hplaces
  rwa [← hsame]

end Session

/-! ### Following a computation in the session -/

section

variable {α β γ δ : Type} {Q : α → β → Batch → Prop} {Q' : γ → δ → Batch → Prop}

/-- A run on a batch ends as one in the session does: in the same fault or in a related result,
and with the same session. -/
inductive Follows (Q : α → β → Batch → Prop) :
    Except Fault α × Batch → Except Fault β × Session → Prop where
  | ok {x : α} {y : β} {b : Batch} (h : Q x y b) : Follows Q (.ok x, b) (.ok y, b.session)
  | fault {fault : Fault} {b : Batch} : Follows Q (.error fault, b) (.error fault, b.session)

/-- Parts that follow one another make up wholes that do. -/
theorem Follows.bind {b : Batch} {t : Session} {c : InBatch α} {d : InSession β}
    {f : α → InBatch γ} {g : β → InSession δ} (h : Follows Q (runFrom b c) (runFrom t d))
    (hthen : ∀ x y b', Q x y b' → Follows Q' (runFrom b' (f x)) (runFrom b'.session (g y))) :
    Follows Q' (runFrom b (c >>= f)) (runFrom t (d >>= g)) := by
  rw [runFrom_bind, runFrom_bind]
  generalize runFrom b c = r at h
  generalize runFrom t d = r' at h
  cases h with
  | ok h => exact hthen _ _ _ h
  | fault => exact .fault

theorem Follows.mono {Q' : α → β → Batch → Prop} {r : Except Fault α × Batch}
    {r' : Except Fault β × Session} (h : Follows Q r r') (himp : ∀ x y b, Q x y b → Q' x y b) :
    Follows Q' r r' := by
  cases h with
  | ok h => exact .ok (himp _ _ _ h)
  | fault => exact .fault

theorem Follows.eq {r : Except Fault α × Batch} {r' : Except Fault α × Session}
    (h : Follows (fun x y _ => x = y) r r') : r' = (r.1, r.2.session) := by
  cases h with
  | ok h => rw [h]
  | fault => rfl

theorem follows_lift (b : Batch) (r : Except Fault α) :
    Follows (fun x y b' => x = y ∧ b = b') (runFrom b (Batch.lift r))
      (runFrom b.session (Session.lift r)) := by
  cases r with
  | ok x => exact .ok ⟨rfl, rfl⟩
  | error fault => exact .fault

theorem follows_inSession (b : Batch) (c : InSession α) :
    Follows (fun x y b' => x = y ∧ b'.responses = b.responses) (runFrom b (Batch.inSession c))
      (runFrom b.session c) := by
  rw [runFrom_inSession]
  rcases runFrom b.session c with ⟨fault | x, t⟩
  · exact .fault (b := { b with session := t })
  · exact .ok (b := { b with session := t }) ⟨rfl, rfl⟩

end

/-! ### Judging and classifying one after another -/

/-- A judgement of the response at a place shows in its marks, and later responses are as before. -/
def Judged (policy : Policy) (i : Nat) (b : Batch) (valid : Bool) (v : Verdict) (b' : Batch) : Prop :=
  (∃ r, b'.responses[i]? = some r ∧ r.verdict policy valid = v) ∧
    b'.responses.drop (i + 1) = b.responses.drop (i + 1)

theorem runFrom_mark_bind {α : Type} (b : Batch) (i : Nat) (change : Response → Response)
    (f : PUnit → InBatch α) : runFrom b (Batch.mark i change >>= f) =
      runFrom { b with responses := b.responses.modify i change } (f ⟨⟩) := rfl

section

variable {b : Batch} {i : Nat} {r : Response}

theorem follows_judge (hr : b.responses[i]? = some r) (k : ScoreKind) (s : Survey)
    (ps : Probabilities) (pool : List Response) (smoothing : Bool) (alpha : Document) :
    Follows (Judged k.policy i b) (runFrom b (k.judge s ps pool smoothing alpha i r))
      (runFrom b.session (k.decision s ps pool smoothing alpha r)) := by
  unfold ScoreKind.judge ScoreKind.decision
  refine (follows_lift b _).bind ?_
  rintro score _ _ ⟨rfl, rfl⟩
  rw [runFrom_mark_bind]
  refine (follows_lift _ _).bind ?_
  rintro others _ _ ⟨rfl, rfl⟩
  rw [runFrom_bind, runFrom_get, runFrom_bind, Session.runFrom_configured]
  dsimp only
  refine (follows_lift _ _).bind ?_
  rintro needed _ _ ⟨rfl, rfl⟩
  split
  · rw [runFrom_mark_bind, runFrom_pure, runFrom_pure]
    refine .ok ⟨⟨{ r with score := .float score, threshold := .null }, ?_, rfl⟩, ?_⟩
    · simp [hr]
    · simp [List.drop_modify_of_lt]
  · refine (follows_inSession _ _).bind ?_
    rintro means _ b' ⟨rfl, hsame⟩
    refine (follows_lift _ _).bind ?_
    rintro threshold _ _ ⟨rfl, rfl⟩
    rw [runFrom_mark_bind, runFrom_pure, runFrom_pure]
    refine .ok ⟨⟨{ r with score := .float score, threshold := .float threshold }, ?_, rfl⟩, ?_⟩
    · simp [hsame, hr]
    · simp [hsame, List.drop_modify_of_lt]

variable {policy : Policy} {judge : Nat → Response → InBatch Bool}
  {decide : Response → InSession Verdict}

/-- A part that is left out now and then, before the same rest. -/
theorem runFrom_ite_bind {σ α : Type} (s : σ) (c : Prop) [Decidable c]
    (x : ExceptT Fault (StateM σ) PUnit) (f : PUnit → ExceptT Fault (StateM σ) α) :
    runFrom s (if c then x >>= f else f ⟨⟩) =
      runFrom s ((if c then x else pure ⟨⟩) >>= f) := by
  split
  · rfl
  · rw [pure_bind]

theorem follows_classifyOne
    (hjudge : ∀ b : Batch, b.responses[i]? = some r →
      Follows (Judged policy i b) (runFrom b (judge i r)) (runFrom b.session (decide r)))
    (hr : b.responses[i]? = some r) (p : Progress) :
    Follows (fun p q b' => p = q ∧ b'.responses.drop (i + 1) = b.responses.drop (i + 1))
      (runFrom b (classifyOne policy judge p i))
      (runFrom b.session (Session.decideOne policy decide p (r, i))) := by
  unfold classifyOne Session.decideOne
  rw [runFrom_bind, runFrom_get, runFrom_bind, Session.runFrom_configured]
  dsimp only
  refine (follows_lift _ _).bind ?_
  rintro noted _ _ ⟨rfl, rfl⟩
  rw [runFrom_ite_bind, runFrom_ite_bind]
  have hnote : Follows (fun _ _ b' => b'.responses = b.responses)
      (runFrom b (if noted = true then
        Batch.inSession (Session.noteWorded .info (p.note policy i)) else pure ⟨⟩))
      (runFrom b.session (if noted = true then
        Session.noteWorded .info (p.note policy i) else pure ⟨⟩)) := by
    split
    · exact (follows_inSession b _).mono fun _ _ _ h => h.2
    · exact .ok rfl
  refine hnote.bind ?_
  rintro _ _ b₁ hsame
  rw [runFrom_bind, runFrom_get]
  dsimp only
  rw [hsame, hr]
  refine (hjudge b₁ (hsame ▸ hr)).bind ?_
  rintro valid v b₂ ⟨⟨r', hr', rfl⟩, hlater⟩
  rw [runFrom_mark_bind, runFrom_bind, runFrom_get]
  dsimp only
  -- the mark of the validity does not show in the verdict
  have hread : ((b₂.responses.modify i fun r =>
      { r with computed := if valid = true then .yes else .no }).getD i r).verdict policy valid =
        r'.verdict policy valid := by
    simp [hr', Response.verdict, Response.counted]
  rw [hread]
  refine (follows_lift _ _).mono ?_
  rintro p' _ _ ⟨rfl, rfl⟩
  refine ⟨rfl, ?_⟩
  rw [← hsame, ← hlater]
  simp [List.drop_modify_of_lt]

/-- The loop over the places of a batch follows the one over the responses: those to come are as
they were at the beginning. -/
theorem follows_loop
    (hjudge : ∀ (b : Batch) i r, b.responses[i]? = some r →
      Follows (Judged policy i b) (runFrom b (judge i r)) (runFrom b.session (decide r))) :
    ∀ (rs : List Response) (i : Nat) (b : Batch) (p : Progress), b.responses.drop i = rs →
      Follows (fun p q _ => p = q)
        (runFrom b ((List.range' i rs.length).foldlM (classifyOne policy judge) p))
        (runFrom b.session ((rs.zipIdx i).foldlM (Session.decideOne policy decide) p))
  | [], _, _, _, _ => .ok rfl
  | r :: rs, i, b, p, hrest => by
    have hr : b.responses[i]? = some r := by
      rw [← List.head?_drop, hrest]
      rfl
    have hlater : b.responses.drop (i + 1) = rs := by
      rw [← List.tail_drop, hrest]
      rfl
    rw [List.length_cons, List.range'_succ, List.foldlM_cons, List.zipIdx_cons, List.foldlM_cons]
    refine (follows_classifyOne (fun b => hjudge b i r) hr p).bind ?_
    rintro q _ b' ⟨rfl, hsame⟩
    exact follows_loop hjudge rs (i + 1) b' q (hsame.trans hlater)

theorem follows_classifyEach
    (hjudge : ∀ (b : Batch) i r, b.responses[i]? = some r →
      Follows (Judged policy i b) (runFrom b (judge i r)) (runFrom b.session (decide r)))
    (b : Batch) :
    Follows (fun vs ws _ => vs = ws) (runFrom b (classifyEach policy judge))
      (runFrom b.session (Session.decideEach policy decide b.responses)) := by
  unfold classifyEach Session.decideEach
  rw [runFrom_bind, runFrom_get]
  dsimp only
  rw [List.range_eq_range']
  refine (follows_loop hjudge b.responses 0 b {} List.drop_zero).bind ?_
  rintro p _ b' rfl
  exact .ok rfl

end

/-! ### Classifying a batch -/

theorem follows_gatherNoted (b : Batch) (s : Survey) (smoothing : Bool) (pool : List Response) :
    Follows (fun fs gs b' => fs = gs ∧ b'.responses = b.responses)
      (runFrom b (gatherNoted s smoothing pool))
      (runFrom b.session (Session.gathered s smoothing pool)) := by
  unfold gatherNoted Session.gathered
  refine (follows_lift b _).bind ?_
  rintro fs _ _ ⟨rfl, rfl⟩
  refine (follows_inSession b _).bind ?_
  rintro _ _ b' ⟨-, hsame⟩
  exact .ok ⟨rfl, hsame⟩

theorem follows_classifyRareAnswers (b : Batch) (s : Survey) (smoothing : Bool)
    (epsilon delta : Document) :
    Follows (fun _ marked b' => b'.responses = marked)
      (runFrom b (classifyRareAnswers s smoothing epsilon delta))
      (runFrom b.session (Session.rareMarked s smoothing epsilon delta b.responses)) := by
  unfold classifyRareAnswers Session.rareMarked
  rw [runFrom_bind, runFrom_get]
  dsimp only
  refine (follows_gatherNoted b s smoothing b.responses).bind ?_
  rintro fs _ b₁ ⟨rfl, hsame⟩
  rw [runFrom_bind, runFrom_get]
  dsimp only
  rw [hsame]
  cases markRareAnswers s fs epsilon delta b.responses with
  | error fault => exact .fault
  | ok marked => exact .ok (b := { b₁ with responses := marked }) rfl

theorem follows_clusterResponses (b : Batch) (s : Survey) (k rounds : Document)
    (supervised : Bool) :
    Follows (fun _ marked b' => b'.responses = marked)
      (runFrom b (clusterResponses s k rounds supervised))
      (runFrom b.session (Session.clusterMarked s k rounds supervised b.responses)) := by
  unfold clusterResponses Session.clusterMarked
  rw [runFrom_bind, runFrom_get]
  dsimp only
  split
  · exact .ok rfl
  · refine (follows_lift b _).bind ?_
    rintro ranks _ _ ⟨rfl, rfl⟩
    refine (follows_inSession b _).bind ?_
    rintro c _ b₁ ⟨rfl, -⟩
    refine (follows_inSession b₁ _).bind ?_
    rintro _ _ b₂ -
    exact .ok (b := { b₂ with responses := _ }) rfl

theorem follows_quantileOr (b : Batch) (alpha : Document) :
    Follows (fun x y b' => x = y ∧ b = b') (runFrom b (quantileOr alpha))
      (runFrom b.session (Session.quantile alpha)) := by
  cases alpha <;> exact .ok ⟨rfl, rfl⟩

theorem follows_classifyByScore (b : Batch) (k : ScoreKind) (s : Survey) (smoothing : Bool)
    (alpha : Document) :
    Follows (fun vs ws _ => vs = ws) (runFrom b (classifyByScore k s smoothing alpha))
      (runFrom b.session (Session.decisionsByScore k s smoothing alpha b.responses)) := by
  unfold classifyByScore Session.decisionsByScore
  rw [runFrom_bind, runFrom_get]
  dsimp only
  refine (follows_gatherNoted b s smoothing b.responses).bind ?_
  rintro fs _ b₁ ⟨rfl, hsame⟩
  refine (follows_quantileOr b₁ alpha).bind ?_
  rintro alpha' _ _ ⟨rfl, rfl⟩
  have heach := follows_classifyEach (fun b i r hr =>
    follows_judge hr k s (probabilities fs) b₁.responses smoothing alpha') b₁
  rwa [hsame] at heach

theorem follows_classify (b : Batch) (s : Survey) (policy : Policy) (smoothing : Bool)
    (alpha : Document) :
    Follows (fun vs ws _ => vs = ws) (runFrom b (classify s policy smoothing alpha))
      (runFrom b.session (Session.decisions s policy smoothing alpha b.responses)) := by
  unfold classify Session.decisions
  rw [runFrom_bind, runFrom_get, runFrom_bind, Session.runFrom_configured]
  dsimp only
  cases policy with
  | clusters =>
    refine (follows_clusterResponses b s _ _ true).bind ?_
    rintro _ _ b₁ rfl
    exact .ok rfl
  | rareChoices =>
    refine (follows_classifyRareAnswers b s smoothing _ _).bind ?_
    rintro _ _ b₁ rfl
    exact .ok rfl
  | stacked =>
    refine (follows_classifyRareAnswers b s smoothing _ _).bind ?_
    rintro _ _ b₁ rfl
    refine (follows_clusterResponses b₁ s _ _ false).bind ?_
    rintro _ _ b₂ rfl
    exact .ok rfl
  | entropy => exact follows_classifyByScore b .entropy s smoothing alpha
  | likelihood => exact follows_classifyByScore b .likelihood s smoothing alpha
  | all =>
    rw [runFrom_bind, runFrom_get]
    dsimp only
    refine (follows_gatherNoted b s smoothing b.responses).bind ?_
    rintro fs _ b₁ ⟨rfl, hsame⟩
    have hone : ∀ (b : Batch) (i : Nat) (r : Response), b.responses[i]? = some r →
        Follows (Judged .all i b) (runFrom b (return true : InBatch Bool))
          (runFrom b.session (return r.verdict .all true)) :=
      fun b i r hr => .ok ⟨⟨r, hr, rfl⟩, rfl⟩
    have heach := follows_classifyEach hone b₁
    rwa [hsame] at heach

/-- **Classifying a batch is deciding about its responses in its session**, besides the marks. -/
theorem runFrom_classify (b : Batch) (s : Survey) (policy : Policy) (smoothing : Bool)
    (alpha : Document) :
    runFrom b.session (Session.decisions s policy smoothing alpha b.responses) =
      ((runFrom b (classify s policy smoothing alpha)).1,
        (runFrom b (classify s policy smoothing alpha)).2.session) :=
  (follows_classify b s policy smoothing alpha).eq

end Questionnaire
