/-
# Verdicts and marks agree

A policy either decides response by response, marking each, or marks the whole
batch and reads the verdicts off. In both ways the verdicts are what the marks of
the batch show in the end: judging a response leaves those before it alone, so the
marks that its verdict shows are still there when the batch is done.

Key definitions: `Batch.SameBefore`, `Policy.stated`.
Key theorems: `Batch.verdict_of_classifyOne`, `Batch.shows_marks`,
`Batch.coherent_classify`.
-/
import Questionnaire.Proofs.Classify.Marking
import Questionnaire.Proofs.Classify.Repeating
import Questionnaire.Proofs.Decimal.Counts

namespace Questionnaire

/-- The policy that verdicts name: of stacked policies, the one that decides. -/
def Policy.stated : Policy → Policy
  | .stacked => .rareChoices
  | p => p

/-- The verdicts that the marks of the responses show. -/
def Batch.shown (policy : Policy) (b : Batch) : List Verdict :=
  b.responses.map fun r => r.verdict policy r.taken

namespace Batch

/-! ### Response by response -/

/-- The responses before a place are the same. -/
def SameBefore (i : Nat) (b b' : Batch) : Prop := b'.responses.take i = b.responses.take i

instance (i : Nat) : IsPreorder Batch (SameBefore i) where
  refl _ := rfl
  trans _ _ _ h h' := h'.trans h

theorem sameBefore_mark (i : Nat) (change : Response → Response) :
    Keeps (SameBefore i) (mark i change) := by
  intro b
  change (b.responses.modify i change).take i = b.responses.take i
  refine List.ext_getElem? fun j => ?_
  rw [List.getElem?_take, List.getElem?_take]
  split
  · rename_i hlt
    have hplace : i ≠ j := by omega
    simp [hplace]
  · rfl

theorem sameBefore_judge (k : ScoreKind) (s : Survey) (ps : Probabilities) (pool : List Response)
    (smoothing : Bool) (alpha : Document) (i : Nat) (r : Response) :
    Keeps (SameBefore i) (k.judge s ps pool smoothing alpha i r) :=
  keeps_judge (fun _ _ => rfl) (fun _ => sameBefore_mark i _) (fun _ => sameBefore_mark i _)
    k s ps pool smoothing alpha r

theorem Remarked.length_eq {b b' : Batch} (h : b.Remarked b') :
    b'.responses.length = b.responses.length := by
  simpa using congrArg List.length h

section Loop

variable {policy : Policy} {judge : Nat → Response → InBatch Bool} {b b' : Batch}

/-- The verdict on the response at a place is what its marks show, and the responses before it stay
as they were. -/
theorem verdict_of_classifyOne (hbefore : ∀ i r, Keeps (SameBefore i) (judge i r))
    (hmarks : ∀ i r, Keeps Remarked (judge i r)) {p q : Progress} {i : Nat}
    (hi : i < b.responses.length)
    (h : runFrom b (classifyOne policy judge p i) = (.ok q, b')) :
    b.SameBefore i b' ∧ ∃ r, b'.responses[i]? = some r ∧
      q.verdicts = p.verdicts ++ [r.verdict policy r.taken] := by
  have hdecide : ∀ b₁ : Batch, b₁.responses = b.responses → runFrom b₁ (do
      let valid ← judge i b.responses[i]
      mark i fun r => { r with computed := if valid then .yes else .no }
      lift (p.add (((← get).responses.getD i b.responses[i]).verdict policy valid))) =
        (.ok q, b') →
      b.SameBefore i b' ∧ ∃ r, b'.responses[i]? = some r ∧
        q.verdicts = p.verdicts ++ [r.verdict policy r.taken] := by
    intro b₁ hsame h
    obtain ⟨valid, b₂, hvalid, h⟩ := runFrom_bind_eq_ok h
    rw [runFrom_mark_bind, runFrom_bind, runFrom_get] at h
    dsimp only at h
    rw [runFrom_batchLift] at h
    obtain ⟨hadd, rfl⟩ := Prod.mk.inj h
    have hbefore₂ : b₁.SameBefore i b₂ := by
      simpa only [hvalid] using hbefore i b.responses[i] b₁
    have hmarks₂ : b₁.Remarked b₂ := by
      simpa only [hvalid] using hmarks i b.responses[i] b₁
    have hi₂ : i < b₂.responses.length := by
      rw [hmarks₂.length_eq, hsame]
      exact hi
    refine ⟨?_, { b₂.responses[i] with computed := if valid then .yes else .no }, ?_, ?_⟩
    · have hstep := trans_of (SameBefore i) hbefore₂ (sameBefore_mark i
        (fun r => { r with computed := if valid then .yes else .no }) b₂)
      unfold SameBefore at hstep ⊢
      rwa [hsame] at hstep
    · simp [hi₂]
    · rw [Session.verdicts_of_add hadd]
      cases valid <;> simp [hi₂, Response.verdict, Response.taken]
  unfold classifyOne at h
  obtain ⟨_, b₁, hget, h⟩ := runFrom_bind_eq_ok h
  rw [runFrom_get] at hget
  cases hget
  obtain ⟨noted, b₂, hnoted, h⟩ := runFrom_bind_eq_ok h
  rw [runFrom_batchLift] at hnoted
  obtain ⟨-, rfl⟩ := Prod.mk.inj hnoted
  have hplace : b.responses[i]? = some b.responses[i] := List.getElem?_eq_getElem hi
  split at h
  · obtain ⟨_, b₃, hnote, h⟩ := runFrom_bind_eq_ok h
    rw [runFrom_inSession] at hnote
    obtain ⟨-, rfl⟩ := Prod.mk.inj hnote
    rw [runFrom_bind, runFrom_get] at h
    dsimp only at h
    rw [hplace] at h
    exact hdecide _ (by rfl) h
  · rw [runFrom_bind, runFrom_get] at h
    dsimp only at h
    rw [hplace] at h
    exact hdecide _ rfl h

/-- After the responses up to a place were judged, the verdicts are what their marks show. -/
theorem shown_of_loop (hbefore : ∀ i r, Keeps (SameBefore i) (judge i r))
    (hmarks : ∀ i r, Keeps Remarked (judge i r)) : ∀ {n : Nat} {q : Progress} {b' : Batch},
      n ≤ b.responses.length →
      runFrom b ((List.range n).foldlM (classifyOne policy judge) {}) = (.ok q, b') →
        q.verdicts = (b'.responses.take n).map fun r => r.verdict policy r.taken
  | 0, q, b', _, h => by
    cases h
    rfl
  | n + 1, q, b', hn, h => by
    rw [List.range_succ, List.foldlM_append] at h
    obtain ⟨p, b₁, hfirst, h⟩ := runFrom_bind_eq_ok h
    rw [List.foldlM_cons] at h
    obtain ⟨q', b₂, hlast, h⟩ := runFrom_bind_eq_ok h
    cases h
    have hmarks₁ : b.Remarked b₁ := by
      have hloop : Keeps Remarked ((List.range n).foldlM (classifyOne policy judge) {}) :=
        Keeps.foldlM (remarked_classifyOne hmarks) _ _
      simpa only [hfirst] using hloop b
    have hlast := verdict_of_classifyOne hbefore hmarks (by rw [hmarks₁.length_eq]; omega) hlast
    obtain ⟨hsame, r, hr, hverdicts⟩ := hlast
    rw [hverdicts, shown_of_loop hbefore hmarks (by omega) hfirst, ← hsame, List.take_add_one, hr]
    simp

theorem shown_of_classifyEach {vs : List Verdict}
    (hbefore : ∀ i r, Keeps (SameBefore i) (judge i r))
    (hmarks : ∀ i r, Keeps Remarked (judge i r))
    (h : runFrom b (classifyEach policy judge) = (.ok vs, b')) : vs = b'.shown policy := by
  have hlength : b.Remarked b' := by
    have hloop : Keeps Remarked (classifyEach policy judge) := remarked_classifyEach hmarks
    simpa only [h] using hloop b
  unfold classifyEach at h
  obtain ⟨_, _, hget, h⟩ := runFrom_bind_eq_ok h
  rw [runFrom_get] at hget
  cases hget
  obtain ⟨q, b₁, hloop, h⟩ := runFrom_bind_eq_ok h
  cases h
  rw [shown_of_loop hbefore hmarks (Nat.le_refl _) hloop, List.take_of_length_le]
  · rfl
  · exact Nat.le_of_eq hlength.length_eq

end Loop

/-! ### All policies -/

section

variable {s : Survey} {smoothing : Bool} {alpha : Document} {b b' : Batch} {vs : List Verdict}

/-- The verdicts that are read off in the end are what the marks show. -/
theorem shown_of_verdictsOfMarks {policy : Policy} {c : InBatch Unit}
    (h : runFrom b (c >>= fun _ => verdictsOfMarks policy) = (.ok vs, b')) :
    ∃ u, runFrom b c = (.ok u, b') ∧ vs = b'.shown policy := by
  obtain ⟨u, b₁, hfirst, h⟩ := runFrom_bind_eq_ok h
  cases h
  exact ⟨u, hfirst, rfl⟩

theorem shown_of_classifyByScore {k : ScoreKind}
    (h : runFrom b (classifyByScore k s smoothing alpha) = (.ok vs, b')) :
    vs = b'.shown k.policy := by
  unfold classifyByScore at h
  obtain ⟨_, _, -, h⟩ := runFrom_bind_eq_ok h
  obtain ⟨_, _, -, h⟩ := runFrom_bind_eq_ok h
  obtain ⟨_, _, -, h⟩ := runFrom_bind_eq_ok h
  exact shown_of_classifyEach (fun i r => sameBefore_judge k s _ _ smoothing _ i r)
    (fun i r => remarked_judge k s _ _ smoothing _ i r) h

/-- The verdicts are what the marks show in the end. -/
theorem shows_marks {policy : Policy}
    (h : runFrom b (classify s policy smoothing alpha) = (.ok vs, b')) :
    vs = b'.shown policy.stated := by
  unfold classify at h
  obtain ⟨config, b₁, -, h⟩ := runFrom_bind_eq_ok h
  cases policy with
  | clusters => exact (shown_of_verdictsOfMarks h).choose_spec.2
  | rareChoices => exact (shown_of_verdictsOfMarks h).choose_spec.2
  | stacked =>
    obtain ⟨_, _, -, h⟩ := runFrom_bind_eq_ok h
    exact (shown_of_verdictsOfMarks h).choose_spec.2
  | entropy => exact shown_of_classifyByScore h
  | likelihood => exact shown_of_classifyByScore h
  | all =>
    obtain ⟨_, _, -, h⟩ := runFrom_bind_eq_ok h
    obtain ⟨_, _, -, h⟩ := runFrom_bind_eq_ok h
    exact shown_of_classifyEach (fun _ _ => .pure true) (fun _ _ => .pure true) h

/-! ### Thresholds -/

/-- A response is taken without a threshold, or if its score is on the good side of one. -/
theorem threshold_of_decision {k : ScoreKind} {ps : Probabilities} {pool : List Response}
    {r : Response} {v : Verdict} {t t' : Session}
    (h : runFrom t (k.decision s ps pool smoothing alpha r) = (.ok v, t')) :
    v.threshold = .null ∧ v.valid = true ∨
      ∃ x y, v.score = .float x ∧ v.threshold = .float y ∧ v.valid = k.accepts x y := by
  unfold ScoreKind.decision at h
  obtain ⟨score, _, -, h⟩ := runFrom_bind_eq_ok h
  obtain ⟨others, _, -, h⟩ := runFrom_bind_eq_ok h
  obtain ⟨config, _, -, h⟩ := runFrom_bind_eq_ok h
  obtain ⟨needed, _, -, h⟩ := runFrom_bind_eq_ok h
  split at h
  · cases h
    exact .inl ⟨rfl, rfl⟩
  · obtain ⟨means, _, -, h⟩ := runFrom_bind_eq_ok h
    obtain ⟨threshold, _, -, h⟩ := runFrom_bind_eq_ok h
    cases h
    exact .inr ⟨score, threshold, rfl, rfl, rfl⟩

theorem threshold_of_classify {k : ScoreKind}
    (h : runFrom b (classify s k.policy smoothing alpha) = (.ok vs, b')) : ∀ v ∈ vs,
      v.threshold = .null ∧ v.valid = true ∨
        ∃ x y, v.score = .float x ∧ v.threshold = .float y ∧ v.valid = k.accepts x y := by
  have hdecided : ∀ {t}, runFrom t (Session.decisionsByScore k s smoothing alpha b.responses) =
      (.ok vs, b'.session) → ∀ v ∈ vs, v.threshold = .null ∧ v.valid = true ∨
        ∃ x y, v.score = .float x ∧ v.threshold = .float y ∧ v.valid = k.accepts x y := by
    intro t hruns v hv
    obtain ⟨_, _, -, hruns⟩ := runFrom_bind_eq_ok hruns
    obtain ⟨_, _, -, hruns⟩ := runFrom_bind_eq_ok hruns
    obtain ⟨r, -, t', t'', hdecide⟩ :=
      exists_of_mem_right (Session.decided_of_decideEach hruns) hv
    exact threshold_of_decision hdecide
  have hruns := runFrom_classify b s k.policy smoothing alpha
  rw [h] at hruns
  obtain ⟨config, t, -, hruns⟩ := runFrom_bind_eq_ok hruns
  cases k with
  | entropy => exact hdecided hruns
  | likelihood => exact hdecided hruns

/-- Marking rare answers marks each response by the same threshold. -/
theorem marked_of_classifyRareAnswers {epsilon delta : Document} {u : Unit}
    (h : runFrom b (classifyRareAnswers s smoothing epsilon delta) = (.ok u, b')) :
    ∃ (rare : RareChoices) (threshold : Number),
      b'.responses = b.responses.map (rare.mark threshold) := by
  have hfollows := follows_classifyRareAnswers b s smoothing epsilon delta
  rw [h] at hfollows
  generalize hruns : runFrom b.session
    (Session.rareMarked s smoothing epsilon delta b.responses) = r at hfollows
  cases hfollows with
  | ok hmarked =>
    obtain ⟨fs, t, -, hruns⟩ := runFrom_bind_eq_ok hruns
    rw [runFrom_sessionLift] at hruns
    rw [hmarked]
    exact markRareAnswers_eq_ok (Prod.mk.inj hruns).1

/-- A response is taken if its rare answers are no more than the threshold; their count is its
score. Only a count of `2 ^ 53` or more is not the float that it is stored as. -/
theorem threshold_of_rareChoices
    (h : runFrom b (classify s .rareChoices smoothing alpha) = (.ok vs, b')) : ∀ v ∈ vs,
      ∃ (count : Nat) (score : Float) (threshold : Number), count ≤ v.answered ∧
        v.score = .float score ∧ score = .ofNat count ∧ v.threshold = .ofNumber threshold ∧
        v.valid = !threshold.blt (.int count) ∧
        (count < 2 ^ 53 → v.valid = !threshold.blt (.float score)) := by
  intro v hv
  obtain ⟨config, _, -, hruns⟩ := runFrom_bind_eq_ok h
  obtain ⟨_, hmarked, rfl⟩ := shown_of_verdictsOfMarks hruns
  obtain ⟨rare, threshold, hresponses⟩ := marked_of_classifyRareAnswers hmarked
  unfold shown at hv
  rw [hresponses, List.map_map] at hv
  obtain ⟨r, -, rfl⟩ := List.mem_map.mp hv
  have hvalid : ((rare.mark threshold r).verdict .rareChoices (rare.mark threshold r).taken).valid =
      !threshold.blt (.int (rare.rareAnswers r)) := by
    simp only [Response.verdict, Response.taken, RareChoices.mark]
    cases threshold.blt (.int (rare.rareAnswers r)) <;> rfl
  refine ⟨rare.rareAnswers r, _, threshold, List.countP_le_length, rfl, rfl, rfl, hvalid, ?_⟩
  intro hcount
  rw [Number.blt_ofNat hcount]
  exact hvalid

/-- Stacked policies decide as the one for rare answers does: the clusters come after that and leave
what the responses were found to be. -/
theorem rareChoices_of_stacked
    (h : runFrom b (classify s .stacked smoothing alpha) = (.ok vs, b')) :
    ∃ ws c, runFrom b (classify s .rareChoices smoothing alpha) = (.ok ws, c) ∧
      vs.map (·.valid) = ws.map (·.valid) ∧
      b'.responses.map (·.computed) = c.responses.map (·.computed) := by
  obtain ⟨config, b₀, hconfig, hruns⟩ := runFrom_bind_eq_ok h
  obtain ⟨_, c, hmarked, hruns⟩ := runFrom_bind_eq_ok hruns
  obtain ⟨_, hclustered, rfl⟩ := shown_of_verdictsOfMarks hruns
  have hcomputed : b'.responses.map (·.computed) = c.responses.map (·.computed) := by
    have hsame := @same_clusterResponses _ Response.computed false (fun _ _ _ _ => rfl) nofun s
      config.session.config.clusters config.session.config.clusterRounds c
    rwa [hclustered] at hsame
  refine ⟨c.shown .rareChoices, c, ?_, ?_, hcomputed⟩
  · unfold classify
    rw [runFrom_bind_ok hconfig]
    dsimp only
    rw [runFrom_bind_ok hmarked]
    rfl
  · have htaken : ∀ b : Batch, (b.shown .rareChoices).map (·.valid) =
        (b.responses.map (·.computed)).map (· != .no) := by
      intro b
      unfold shown
      rw [List.map_map, List.map_map]
      rfl
    change (b'.shown .rareChoices).map (·.valid) = _
    rw [htaken, htaken, hcomputed]

/-- **Verdicts, thresholds and marks agree for each policy.** If a batch is classified, there is one
verdict on each response in order, as the marks show; the counts add up; a score is valid if it lies
on the good side of its threshold; and stacked policies decide as the one for rare answers does. -/
theorem coherent_classify (s : Survey) (policy : Policy) (smoothing : Bool) (alpha : Document)
    {b b' : Batch} {vs : List Verdict}
    (h : runFrom b (classify s policy smoothing alpha) = (.ok vs, b')) :
    b'.responses.map (·.unmarked) = b.responses.map (·.unmarked) ∧
    vs = (b'.responses.map fun r => r.verdict policy.stated r.taken) ∧
    countValid vs + vs.countP (!·.valid) = b.responses.length ∧
    (policy = .entropy → ∀ v ∈ vs, v.threshold = .null ∧ v.valid = true ∨
      ∃ x y : Float, v.score = .float x ∧ v.threshold = .float y ∧ v.valid = decide (x < y)) ∧
    (policy = .likelihood → ∀ v ∈ vs, v.threshold = .null ∧ v.valid = true ∨
      ∃ x y : Float, v.score = .float x ∧ v.threshold = .float y ∧ v.valid = decide (y < x)) ∧
    (policy = .rareChoices → ∀ v ∈ vs, ∃ (count : Nat) (score : Float) (threshold : Number),
      count ≤ v.answered ∧ v.score = .float score ∧ score = .ofNat count ∧
        v.threshold = .ofNumber threshold ∧ v.valid = !threshold.blt (.int count) ∧
        (count < 2 ^ 53 → v.valid = !threshold.blt (.float score))) ∧
    (policy = .stacked → ∃ ws c,
      runFrom b (classify s .rareChoices smoothing alpha) = (.ok ws, c) ∧
        vs.map (·.valid) = ws.map (·.valid) ∧
        b'.responses.map (·.computed) = c.responses.map (·.computed)) := by
  have hmarks : b.Remarked b' := by
    have hclassify := remarked_classify s policy smoothing alpha b
    rwa [h] at hclassify
  have hshown := shows_marks h
  refine ⟨hmarks, hshown, ?counts, ?entropy, ?likelihood, ?rareChoices, ?stacked⟩
  case counts =>
    have hlength : vs.length = b'.responses.length := by rw [hshown]; exact List.length_map _
    rw [← hmarks.length_eq, ← hlength]
    simpa [countValid] using (List.length_eq_countP_add_countP Verdict.valid).symm
  case entropy =>
    rintro rfl
    exact threshold_of_classify (k := .entropy) h
  case likelihood =>
    rintro rfl
    exact threshold_of_classify (k := .likelihood) h
  case rareChoices =>
    rintro rfl
    exact threshold_of_rareChoices h
  case stacked =>
    rintro rfl
    exact rareChoices_of_stacked h

end

/-- The result of classifying the two responses that select nothing. -/
def blanksClassified (policy : Policy) : Except Fault (List Verdict) × Batch :=
  runFrom blanks (classify (Survey.fork Survey.more) policy false .null)

theorem coherent_classify_blanks :
    (∃ vs b', blanksClassified .entropy = (.ok vs, b') ∧ countValid vs = 0 ∧
      vs = (b'.responses.map fun r => r.verdict .entropy r.taken)) ∧
    ∃ vs b', blanksClassified .stacked = (.ok vs, b') ∧ countValid vs = 2 ∧
      ∃ ws c, blanksClassified .rareChoices = (.ok ws, c) ∧ vs.map (·.valid) = ws.map (·.valid) := by
  have hentropy : (blanksClassified .entropy).1.map countValid = .ok 0 := by decide +kernel
  have hstacked : (blanksClassified .stacked).1.map countValid = .ok 2 := by decide +kernel
  constructor
  · rcases hrun : blanksClassified .entropy with ⟨_ | vs, b'⟩
    · rw [hrun] at hentropy
      cases hentropy
    · rw [hrun] at hentropy
      obtain ⟨-, hshown, -⟩ := coherent_classify _ _ _ _ hrun
      exact ⟨vs, b', rfl, Except.ok.inj hentropy, hshown⟩
  · rcases hrun : blanksClassified .stacked with ⟨_ | vs, b'⟩
    · rw [hrun] at hstacked
      cases hstacked
    · rw [hrun] at hstacked
      obtain ⟨-, -, -, -, -, -, hrare⟩ := coherent_classify _ _ _ _ hrun
      obtain ⟨ws, c, hrare, hvalid, -⟩ := hrare rfl
      exact ⟨vs, b', rfl, Except.ok.inj hstacked, ws, c, hrare, hvalid⟩

end Batch

end Questionnaire
