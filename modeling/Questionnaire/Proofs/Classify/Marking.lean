/-
# What classifying leaves as it was

Whatever the policy is and also if it fails, classifying a batch changes the
marks of its responses only: their ids, answers and known validities stay, and
none of them is lost or moved. Clustering marks the responses by their labels,
of which there is one for each.

Key definitions: `Batch.Remarked`, `Batch.Same`.
Key theorems: `map_markClusters`, `Batch.remarked_classifyEach`,
`Batch.remarked_classify`.
-/
import Questionnaire.Proofs.Classify.Unmarked
import Questionnaire.Proofs.Cluster.Labels

namespace Questionnaire

/-! ### The responses -/

/-- The responses are the same apart from their marks. -/
def Batch.Remarked (b b' : Batch) : Prop :=
  b'.responses.map (·.unmarked) = b.responses.map (·.unmarked)

/-- What is read off the responses one by one is the same. -/
def Batch.Same {α : Type} (f : Response → α) (b b' : Batch) : Prop :=
  b'.responses.map f = b.responses.map f

instance : IsPreorder Batch Batch.Remarked where
  refl _ := rfl
  trans _ _ _ h h' := h'.trans h

theorem map_modify {α β : Type} {g : α → β} {change : α → α} (h : ∀ x, g (change x) = g x)
    (xs : List α) (i : Nat) : (xs.modify i change).map g = xs.map g := by
  refine List.ext_getElem? fun j => ?_
  rw [List.getElem?_map, List.getElem?_map, List.getElem?_modify]
  cases xs[j]? with
  | none => rfl
  | some x =>
    by_cases hplace : i = j
    · simp [hplace, h]
    · simp [hplace]

theorem markRareAnswers_eq_ok {s : Survey} {fs : Frequencies} {epsilon delta : Document}
    {responses marked : List Response}
    (h : markRareAnswers s fs epsilon delta responses = .ok marked) :
    ∃ (rare : RareChoices) (threshold : Number), marked = responses.map (rare.mark threshold) := by
  obtain ⟨rare, _, h⟩ := bind_eq_ok.mp h
  obtain ⟨delta', _, h⟩ := bind_eq_ok.mp h
  obtain ⟨threshold, _, h⟩ := bind_eq_ok.mp h
  cases h
  exact ⟨rare, threshold, rfl⟩

theorem unmarked_markRareAnswers {s : Survey} {fs : Frequencies} {epsilon delta : Document}
    {responses marked : List Response}
    (h : markRareAnswers s fs epsilon delta responses = .ok marked) :
    marked.map (·.unmarked) = responses.map (·.unmarked) := by
  obtain ⟨rare, threshold, rfl⟩ := markRareAnswers_eq_ok h
  rw [List.map_map]
  rfl

/-- All responses are labelled, as each of their points has a label. -/
theorem responses_of_zip {c : Cluster.Clustering} {points : List Cluster.Point}
    {responses : List Response} (hlabels : c.labels.length = points.length)
    (hpoints : points.length = responses.length) :
    (c.labels.zip (points.zip responses)).map (fun entry => entry.2.2) = responses :=
  calc (c.labels.zip (points.zip responses)).map (fun entry => entry.2.2)
      = ((c.labels.zip (points.zip responses)).map Prod.snd).map Prod.snd := by
        rw [List.map_map]
        rfl
    _ = (points.zip responses).map Prod.snd := by
        rw [List.map_snd_zip]
        rw [List.length_zip, hlabels]
        exact Nat.min_le_left _ _
    _ = responses := List.map_snd_zip (by omega)

/-- Clustering leaves what does not show the marks as it was. -/
theorem map_markClusters {α : Type} {f : Response → α} {supervised : Bool}
    (hmark : ∀ c label p r, f (clusterMarks c label p r) = f r)
    (hsupervise : supervised = true → ∀ r computed, f { r with computed } = f r)
    {c : Cluster.Clustering} {points : List Cluster.Point} {responses : List Response}
    (hlabels : c.labels.length = points.length) (hpoints : points.length = responses.length) :
    (markClusters c points supervised responses).map f = responses.map f := by
  have hmarks : (markClusters c points supervised responses).map f =
      ((c.labels.zip (points.zip responses)).map (fun entry => entry.2.2)).map f := by
    unfold markClusters
    cases supervised with
    | false =>
      rw [if_neg Bool.false_ne_true, List.map_map, List.map_map, List.map_map]
      exact List.map_congr_left fun entry _ => hmark ..
    | true =>
      rw [if_pos rfl]
      unfold supervise
      rw [List.map_map, List.map_map, List.map_map]
      exact List.map_congr_left fun entry _ => (hsupervise rfl ..).trans (hmark ..)
  rw [hmarks, responses_of_zip hlabels hpoints]

theorem Session.runFrom_tryDraw {α : Type} (s : Session) (d : Draw (Except Fault α)) :
    runFrom s (tryDraw d) = ((d s.gen).1, { s with gen := (d s.gen).2 }) := by
  unfold tryDraw
  rw [runFrom_bind, runFrom_draw]
  dsimp only
  cases (d s.gen).1 <;> rfl

namespace Batch

theorem remarked_lift {α : Type} (r : Except Fault α) : Keeps Remarked (lift r) :=
  .of_same fun _ => rfl

theorem remarked_get : Keeps Remarked (get : InBatch Batch) :=
  .of_same fun _ => rfl

theorem remarked_inSession {α : Type} (c : InSession α) : Keeps Remarked (inSession c) :=
  fun _ => rfl

theorem remarked_mark (i : Nat) {change : Response → Response}
    (h : ∀ r, (change r).unmarked = r.unmarked := by intro r; rfl) :
    Keeps Remarked (mark i change) :=
  fun b => map_modify h b.responses i

/-- Judging a response is noting, drawing and marking it. -/
theorem keeps_judge {R : Batch → Batch → Prop} [IsPreorder Batch R] {i : Nat}
    (hsession : ∀ b session, R b { b with session })
    (hscore : ∀ score, Keeps R (mark i fun r => { r with score }))
    (hthreshold : ∀ threshold, Keeps R (mark i fun r => { r with threshold }))
    (k : ScoreKind) (s : Survey) (ps : Probabilities) (pool : List Response) (smoothing : Bool)
    (alpha : Document) (r : Response) : Keeps R (k.judge s ps pool smoothing alpha i r) := by
  have hlift : ∀ {α : Type} (x : Except Fault α), Keeps R (lift x) := fun _ => .of_same fun _ => rfl
  unfold ScoreKind.judge
  refine (hlift _).bind fun score => (hscore _).bind fun _ => (hlift _).bind fun others => ?_
  refine (Keeps.of_same fun _ => rfl).bind fun b => (hlift _).bind fun needed => ?_
  split
  · exact (hthreshold _).bind fun _ => .pure _
  · refine Keeps.bind (fun b => hsession b _) fun means => (hlift _).bind fun threshold => ?_
    exact (hthreshold _).bind fun _ => .pure _

theorem remarked_judge (k : ScoreKind) (s : Survey) (ps : Probabilities) (pool : List Response)
    (smoothing : Bool) (alpha : Document) (i : Nat) (r : Response) :
    Keeps Remarked (k.judge s ps pool smoothing alpha i r) :=
  keeps_judge (fun _ _ => rfl) (fun _ => remarked_mark i) (fun _ => remarked_mark i) k s ps pool
    smoothing alpha r

section

variable {policy : Policy} {judge : Nat → Response → InBatch Bool}

theorem remarked_classifyOne (hjudge : ∀ i r, Keeps Remarked (judge i r)) (p : Progress) (i : Nat) :
    Keeps Remarked (classifyOne policy judge p i) := by
  unfold classifyOne
  refine remarked_get.bind fun b => (remarked_lift _).bind fun noted => ?_
  have hdecide : ∀ r, Keeps Remarked (do
      let valid ← judge i r
      mark i fun r => { r with computed := if valid then .yes else .no }
      lift (p.add (((← get).responses.getD i r).verdict policy valid))) := fun r =>
    (hjudge i r).bind fun valid => (remarked_mark i).bind fun _ =>
      remarked_get.bind fun b => remarked_lift _
  split
  case isTrue =>
    refine (remarked_inSession _).bind fun _ => remarked_get.bind fun b => ?_
    split
    · exact .pure p
    · exact hdecide _
  case isFalse =>
    refine remarked_get.bind fun b => ?_
    split
    · exact .pure p
    · exact hdecide _

theorem remarked_classifyEach (hjudge : ∀ i r, Keeps Remarked (judge i r)) :
    Keeps Remarked (classifyEach policy judge) := by
  unfold classifyEach
  refine remarked_get.bind fun b => ?_
  refine (Keeps.foldlM (fun p i => remarked_classifyOne hjudge p i) _ _).bind fun p => ?_
  exact .pure p.verdicts

end

theorem remarked_gatherNoted (s : Survey) (smoothing : Bool) (pool : List Response) :
    Keeps Remarked (gatherNoted s smoothing pool) := by
  unfold gatherNoted
  exact (remarked_lift _).bind fun fs => (remarked_inSession _).bind fun _ => .pure fs

theorem remarked_classifyRareAnswers (s : Survey) (smoothing : Bool) (epsilon delta : Document) :
    Keeps Remarked (classifyRareAnswers s smoothing epsilon delta) := by
  unfold classifyRareAnswers
  refine remarked_get.bind fun b => (remarked_gatherNoted s smoothing _).bind fun fs => ?_
  -- the responses that are marked are those of the batch at this point
  intro b₁
  rw [runFrom_bind, runFrom_get]
  refine runFrom_bind_induct (R := Remarked) rfl fun marked b₂ hrun => ?_
  rw [runFrom_batchLift] at hrun
  obtain ⟨hmarked, rfl⟩ := Prod.mk.inj hrun
  exact unmarked_markRareAnswers hmarked

theorem same_clusterResponses {α : Type} {f : Response → α} {supervised : Bool}
    (hmark : ∀ c label p r, f (clusterMarks c label p r) = f r)
    (hsupervise : supervised = true → ∀ r computed, f { r with computed } = f r)
    (s : Survey) (k rounds : Document) :
    Keeps (Same f) (clusterResponses s k rounds supervised) := by
  intro b
  unfold clusterResponses
  rw [runFrom_bind, runFrom_get]
  dsimp only
  split
  · rfl
  · refine runFrom_bind_induct (R := Same f) rfl fun ranks b₁ hrun => ?_
    rw [runFrom_batchLift] at hrun
    obtain ⟨hranks, rfl⟩ := Prod.mk.inj hrun
    refine runFrom_bind_induct (R := Same f) rfl fun c b₁ hdrawn => ?_
    rw [runFrom_inSession, Session.runFrom_tryDraw] at hdrawn
    obtain ⟨hclusters, rfl⟩ := Prod.mk.inj hdrawn
    refine runFrom_bind_induct (R := Same f) rfl fun _ b₂ _ => ?_
    have hpoints : (ranks.map (·.map Int.ofNat)).length = b.responses.length := by
      rw [List.length_map]
      exact (forall₂_of_mapM hranks).length_eq.symm
    exact map_markClusters hmark hsupervise (Cluster.length_labels_kmodes hclusters) hpoints

theorem remarked_clusterResponses (s : Survey) (k rounds : Document) (supervised : Bool) :
    Keeps Remarked (clusterResponses s k rounds supervised) :=
  same_clusterResponses (f := Response.unmarked) (fun _ _ _ _ => rfl) (fun _ _ _ => rfl) s k rounds

theorem remarked_classifyByScore (k : ScoreKind) (s : Survey) (smoothing : Bool)
    (alpha : Document) : Keeps Remarked (classifyByScore k s smoothing alpha) := by
  have hquantile : ∀ alpha, Keeps Remarked (quantileOr alpha) := by
    intro alpha
    cases alpha <;> exact .of_same fun _ => rfl
  unfold classifyByScore
  refine remarked_get.bind fun b => (remarked_gatherNoted s smoothing _).bind fun fs => ?_
  refine (hquantile alpha).bind fun alpha => ?_
  exact remarked_classifyEach fun i r => remarked_judge k s _ _ smoothing alpha i r

theorem remarked_verdictsOfMarks (policy : Policy) : Keeps Remarked (verdictsOfMarks policy) :=
  .of_same fun _ => rfl

/-- Classifying changes marks only. -/
theorem remarked_classify (s : Survey) (policy : Policy) (smoothing : Bool) (alpha : Document) :
    Keeps Remarked (classify s policy smoothing alpha) := by
  unfold classify
  refine remarked_get.bind fun b => ?_
  cases policy with
  | clusters =>
    exact (remarked_clusterResponses s _ _ _).bind fun _ => remarked_verdictsOfMarks _
  | rareChoices =>
    exact (remarked_classifyRareAnswers s smoothing _ _).bind fun _ => remarked_verdictsOfMarks _
  | stacked =>
    refine (remarked_classifyRareAnswers s smoothing _ _).bind fun _ => ?_
    exact (remarked_clusterResponses s _ _ _).bind fun _ => remarked_verdictsOfMarks _
  | entropy => exact remarked_classifyByScore .entropy s smoothing alpha
  | likelihood => exact remarked_classifyByScore .likelihood s smoothing alpha
  | all =>
    refine remarked_get.bind fun b => (remarked_gatherNoted s smoothing _).bind fun fs => ?_
    exact remarked_classifyEach fun _ _ => .pure true

end Batch

end Questionnaire
