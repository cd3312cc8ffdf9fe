/-
# Responses that share means

Means are remembered under the questions that a response answers, though they
are computed from what it answered, in its order. Of two responses to the same
questions either may have been the first: the answers of a third one that
compare with theirs are the same, in another order, so the same responses of a
pool are scored.

Key definitions: `Survey.wordings`, `Survey.counterpart?`.
Key theorems: `Response.questionKeys_eq_iff`, `counterparts_eq`, `comparable_perm`,
`shares_means`.
-/
import Questionnaire.Classify.Threshold
import Questionnaire.Proofs.Running
import Questionnaire.Proofs.Success
import Questionnaire.Proofs.Survey.Leaves
import Questionnaire.Proofs.Survey.Validity

namespace Questionnaire

/-! ### Permuted items -/

/-- If something is made of each of some items, the same is made of each in another order, in that
order. -/
theorem perm_of_mapM {α β : Type} {f : α → Option β} {xs ys : List α} (h : xs.Perm ys) :
    (xs.mapM f = none ∧ ys.mapM f = none) ∨
      ∃ zs ws, xs.mapM f = some zs ∧ ys.mapM f = some ws ∧ zs.Perm ws := by
  induction h with
  | nil => exact .inr ⟨[], [], rfl, rfl, .nil⟩
  | @cons x xs ys h ih =>
    simp only [List.mapM_cons]
    cases hx : f x with
    | none => exact .inl ⟨rfl, rfl⟩
    | some z =>
      rcases ih with ⟨hxs, hys⟩ | ⟨zs, ws, hxs, hys, hperm⟩
      · exact .inl ⟨by rw [hxs]; rfl, by rw [hys]; rfl⟩
      · exact .inr ⟨z :: zs, z :: ws, by rw [hxs]; rfl, by rw [hys]; rfl, hperm.cons z⟩
  | swap x y xs =>
    simp only [List.mapM_cons]
    cases hx : f x <;> cases hy : f y <;> cases hxs : xs.mapM f
    all_goals first
      | exact .inl ⟨rfl, rfl⟩
      | exact .inr ⟨_, _, rfl, rfl, .swap _ _ _⟩
  | trans _ _ ih₁ ih₂ =>
    rcases ih₁ with ⟨hxs, hys⟩ | ⟨zs, ws, hxs, hys, hperm⟩
    · rcases ih₂ with ⟨-, hzs⟩ | ⟨_, _, hys', -, -⟩
      · exact .inl ⟨hxs, hzs⟩
      · cases hys.symm.trans hys'
    · rcases ih₂ with ⟨hys', -⟩ | ⟨_, vs, hys', hvs, hperm'⟩
      · cases hys.symm.trans hys'
      · cases hys.symm.trans hys'
        exact .inr ⟨zs, vs, hxs, hvs, hperm.trans hperm'⟩

/-! ### The questions of a response -/

namespace Key

theorem le_trans (a b c : Key) (hab : a.le b = true) (hbc : b.le c = true) : a.le c = true := by
  simp only [le, Bool.or_eq_true, decide_eq_true_eq, Bool.and_eq_true, beq_iff_eq] at *
  omega

theorem le_total (a b : Key) : (a.le b || b.le a) = true := by
  simp only [le, Bool.or_eq_true, decide_eq_true_eq, Bool.and_eq_true, beq_iff_eq]
  omega

theorem le_antisymm (a b : Key) (hab : a.le b = true) (hba : b.le a = true) : a = b := by
  obtain ⟨origin, index⟩ := a
  obtain ⟨origin', index'⟩ := b
  simp only [le, Bool.or_eq_true, decide_eq_true_eq, Bool.and_eq_true, beq_iff_eq] at *
  have horigin : origin = origin' := by omega
  have hindex : index = index' := by omega
  rw [horigin, hindex]

end Key

namespace Response

variable {r b₁ b₂ : Response}

/-- The questions with the one of an answer, unless it is among them. -/
def addQuestion (qs : List Question) (a : Answer) : List Question :=
  if qs.any (·.key == a.question.key) then qs else qs ++ [a.question]

theorem questionSet_eq (r : Response) : r.questionSet = r.answers.foldl addQuestion [] := rfl

theorem mem_addQuestion {qs : List Question} {a : Answer} {key : Key} :
    key ∈ (addQuestion qs a).map (·.key) ↔ key ∈ qs.map (·.key) ∨ key = a.question.key := by
  unfold addQuestion
  by_cases hknown : qs.any (·.key == a.question.key) = true
  · rw [if_pos hknown]
    obtain ⟨q, hq, hkey⟩ := List.any_eq_true.mp hknown
    have hmem : a.question.key ∈ qs.map (·.key) := List.mem_map.mpr ⟨q, hq, by simpa using hkey⟩
    exact ⟨.inl, fun h => h.elim (fun hmem' => hmem') fun heq => heq ▸ hmem⟩
  · rw [if_neg hknown]
    simp

theorem nodup_addQuestion {qs : List Question} (a : Answer) (h : (qs.map (·.key)).Nodup) :
    ((addQuestion qs a).map (·.key)).Nodup := by
  unfold addQuestion
  by_cases hknown : qs.any (·.key == a.question.key) = true
  · rwa [if_pos hknown]
  · rw [if_neg hknown, List.map_append]
    refine h.append (List.nodup_singleton _) fun key hkey hnew => hknown ?_
    obtain rfl := List.mem_singleton.mp hnew
    obtain ⟨q, hq, heq⟩ := List.mem_map.mp hkey
    exact List.any_eq_true.mpr ⟨q, hq, by simpa using heq⟩

/-- Each question that was answered is kept, and once only. -/
theorem questionSet_of_foldl : ∀ (answers : List Answer) (qs : List Question),
    (qs.map (·.key)).Nodup → ((answers.foldl addQuestion qs).map (·.key)).Nodup ∧
      ∀ key, key ∈ (answers.foldl addQuestion qs).map (·.key) ↔
        key ∈ qs.map (·.key) ∨ key ∈ answers.map (·.question.key)
  | [], qs, h => ⟨h, by simp⟩
  | a :: answers, qs, h => by
    obtain ⟨hnodup, hmem⟩ := questionSet_of_foldl answers _ (nodup_addQuestion a h)
    refine ⟨hnodup, fun key => (hmem key).trans ?_⟩
    rw [mem_addQuestion, List.map_cons, List.mem_cons, or_assoc]

theorem mem_questionKeys {key : Key} :
    key ∈ r.questionKeys ↔ key ∈ r.answers.map (·.question.key) := by
  unfold questionKeys
  rw [List.mem_mergeSort, questionSet_eq, (questionSet_of_foldl r.answers [] List.nodup_nil).2]
  simp

/-- **Responses share samples and means** exactly if they answer the same questions. -/
theorem questionKeys_eq_iff : b₁.questionKeys = b₂.questionKeys ↔
    ∀ key, key ∈ b₁.answers.map (·.question.key) ↔ key ∈ b₂.answers.map (·.question.key) := by
  constructor
  · intro h key
    rw [← mem_questionKeys, h, mem_questionKeys]
  · intro h
    have hnodup : ∀ r : Response, r.questionKeys.Nodup := fun r =>
      (List.mergeSort_perm _ _).nodup_iff.mpr (questionSet_of_foldl r.answers [] List.nodup_nil).1
    have hsorted : ∀ r : Response, r.questionKeys.Pairwise (Key.le · ·) := fun r =>
      List.pairwise_mergeSort Key.le_trans Key.le_total _
    have hperm : b₁.questionKeys.Perm b₂.questionKeys := by
      rw [List.perm_ext_iff_of_nodup (hnodup b₁) (hnodup b₂)]
      intro key
      rw [mem_questionKeys, mem_questionKeys, h]
    exact hperm.eq_of_pairwise (fun a b _ _ => Key.le_antisymm a b) (hsorted b₁) (hsorted b₂)

end Response

/-- Two responses answer the same questions of the survey, and each of them once. -/
structure AnswerAlike (s : Survey) (b₁ b₂ : Response) : Prop where
  own₁ : ∀ a ∈ b₁.answers, a.question ∈ s.questions
  own₂ : ∀ a ∈ b₂.answers, a.question ∈ s.questions
  once₁ : (b₁.answers.map (·.question.key)).Nodup
  once₂ : (b₂.answers.map (·.question.key)).Nodup
  same : b₁.questionKeys = b₂.questionKeys

namespace AnswerAlike

variable {s : Survey} {b₁ b₂ : Response}

theorem symm (h : AnswerAlike s b₁ b₂) : AnswerAlike s b₂ b₁ :=
  ⟨h.own₂, h.own₁, h.once₂, h.once₁, h.same.symm⟩

theorem mem_questions (h : AnswerAlike s b₁ b₂) (hs : s.Coherent) {q : Question}
    (hq : q ∈ b₁.answers.map (·.question)) : q ∈ b₂.answers.map (·.question) := by
  obtain ⟨a, ha, rfl⟩ := List.mem_map.mp hq
  have hkey := (Response.questionKeys_eq_iff.mp h.same _).mp (List.mem_map_of_mem ha)
  obtain ⟨a', ha', hkey⟩ := List.mem_map.mp hkey
  rw [← List.inj_on_of_nodup_map hs.questions (h.own₂ a' ha') (h.own₁ a ha) hkey]
  exact List.mem_map_of_mem ha'

/-- The questions that they have counted answers to are the same. -/
theorem perm_counted (h : AnswerAlike s b₁ b₂) (hs : s.Coherent) :
    (b₁.counted.map (·.question)).Perm (b₂.counted.map (·.question)) := by
  have hnodup : ∀ {b : Response}, (b.answers.map (·.question.key)).Nodup →
      (b.answers.map (·.question)).Nodup := fun honce =>
    List.Nodup.of_map (·.key) (by rwa [List.map_map])
  have hall : (b₁.answers.map (·.question)).Perm (b₂.answers.map (·.question)) :=
    (List.perm_ext_iff_of_nodup (hnodup h.once₁) (hnodup h.once₂)).mpr fun _ =>
      ⟨h.mem_questions hs, h.symm.mem_questions hs⟩
  have hcounted : ∀ b : Response, b.counted.map (·.question) =
      (b.answers.map (·.question)).filter (!·.isCustom) := fun b => by
    rw [List.filter_map]
    rfl
  rw [hcounted, hcounted]
  exact hall.filter _

end AnswerAlike

/-! ### Counterparts -/

namespace Survey

variable {s : Survey}

/-- The wordings of a question; none if it belongs to another survey. -/
def wordings (s : Survey) (q : Question) : List Question := (s.variants q).toOption.getD []

theorem variants_own {q : Question} (h : q ∈ s.questions) : s.variants q = .ok (s.wordings q) := by
  obtain ⟨b, hb, hq⟩ := mem_questionsUnder.mp h
  obtain ⟨c, hc, hqc⟩ := List.mem_flatMap.mp hq
  have hholds : c.holds q = true := List.any_eq_true.mpr ⟨q, hqc, beq_self_eq_true _⟩
  have hfound : ∃ vs, s.variants q = .ok vs := by
    have hsome : (s.allBlocks.find? (·.holds q)).isSome = true :=
      List.find?_isSome.mpr ⟨c, Block.mem_preorders.mpr ⟨b, hb, hc⟩, hholds⟩
    obtain ⟨d, hd⟩ := Option.isSome_iff_exists.mp hsome
    exact ⟨_, by rw [variants, containing, hd]; rfl⟩
  obtain ⟨vs, hvs⟩ := hfound
  rw [wordings, hvs]
  rfl

/-- The wordings of a question of the survey are questions of the survey, it among them. -/
theorem Coherent.mem_wordings (hs : s.Coherent) {q : Question} (hq : q ∈ s.questions) :
    q ∈ s.wordings q ∧ ∀ v ∈ s.wordings q, v ∈ s.questions := by
  have hfound := variants_own hq
  unfold variants containing at hfound
  cases hb : s.allBlocks.find? (·.holds q) with
  | none => simp [hb, bind, Except.bind] at hfound
  | some b =>
    have hholds : b.holds q = true := by simpa using List.find?_some hb
    rw [hb] at hfound
    rw [← Except.ok.inj hfound]
    by_cases hall : b.paradigm = .all
    · have hown : ∀ v ∈ b.questions, v ∈ s.questions := fun v hv =>
        List.mem_flatMap.mpr ⟨b, List.mem_of_find?_eq_some hb, hv⟩
      obtain ⟨v, hv, hkey⟩ := List.any_eq_true.mp hholds
      obtain rfl := List.inj_on_of_nodup_map hs.questions (hown v hv) hq (by simpa using hkey)
      rw [if_pos hall]
      exact ⟨hv, hown⟩
    · rw [if_neg hall]
      exact ⟨List.mem_singleton_self q, fun v hv => List.mem_singleton.mp hv ▸ hq⟩

/-- What a response answers to a question, in the first wording that it answers. -/
def counterpart? (s : Survey) (target : Response) (q : Question) : Option Answer :=
  (s.wordings q).findSome? target.answerTo?

end Survey

/-- Answers to questions of the survey have counterparts if each of them has one. -/
theorem counterparts_eq {s : Survey} (target : Response) : ∀ {answers : List Answer},
    (∀ a ∈ answers, a.question ∈ s.questions) → counterparts s target answers =
      .ok ((answers.map (·.question)).mapM (s.counterpart? target))
  | [], _ => rfl
  | a :: rest, hown => by
    have ih := counterparts_eq target fun b hb => hown b (List.mem_cons_of_mem a hb)
    rw [counterparts, Survey.variants_own (hown a List.mem_cons_self), ih, List.map_cons,
      List.mapM_cons]
    cases hfound : s.counterpart? target a.question with
    | none =>
      unfold Survey.counterpart? at hfound
      simp [hfound, bind, Except.bind, pure, Except.pure]
    | some found =>
      unfold Survey.counterpart? at hfound
      cases (rest.map (·.question)).mapM (s.counterpart? target) <;>
        simp [hfound, bind, Except.bind, pure, Except.pure]

theorem comparable_own {s : Survey} {base : Response} (target : Response)
    (hown : ∀ a ∈ base.answers, a.question ∈ s.questions) : comparable s base target =
      .ok (((base.counted.map (·.question)).mapM (s.counterpart? target)).getD []) := by
  have hcounted : ∀ a ∈ base.counted, a.question ∈ s.questions :=
    fun a ha => hown a (List.mem_of_mem_filter ha)
  rw [comparable, counterparts_eq target hcounted]
  rfl

/-! ### Scores -/

/-- What is selected in an answer can be weighed. -/
def Answer.Weighable (odds : Odds) (term : Number → Except Fault Float) (a : Answer) : Prop :=
  ∃ oddsOf, odds a.question.id = .ok oddsOf ∧
    ∀ id ∈ a.choiceIds, ∃ x, (oddsOf id >>= term) = .ok x

/-- A sum is found if each answer can be weighed, whatever their order. -/
theorem sumOverSelections_succeeds_iff {odds : Odds} {term : Number → Except Fault Float}
    {answers : List Answer} : (∃ x, sumOverSelections odds term answers = .ok x) ↔
      ∀ a ∈ answers, a.Weighable odds term := by
  refine foldlM_succeeds_iff _ fun a _ sum => ?_
  have hids : ∀ (oddsOf : Document → Except Fault Number) (sum : Float),
      (∃ x, a.choiceIds.foldlM (fun sum id => do return sum + (← term (← oddsOf id))) sum = .ok x) ↔
        ∀ id ∈ a.choiceIds, ∃ x, (oddsOf id >>= term) = .ok x := fun oddsOf sum =>
    foldlM_succeeds_iff sum fun id _ sum => by
      cases hodds : oddsOf id with
      | error fault => simp [bind, Except.bind]
      | ok p => cases hterm : term p <;> simp [hterm, bind, Except.bind, pure, Except.pure]
  unfold Answer.Weighable
  cases odds a.question.id with
  | error fault => simp [bind, Except.bind]
  | ok oddsOf =>
    refine ⟨fun hx => ⟨oddsOf, rfl, (hids oddsOf sum).mp hx⟩, fun ⟨_, hodds, hall⟩ => ?_⟩
    cases hodds
    exact (hids oddsOf sum).mpr hall

namespace AnswerAlike

variable {s : Survey} {b₁ b₂ : Response}

/-- The answers that compare with theirs are the same, in another order. -/
theorem comparable_perm (h : AnswerAlike s b₁ b₂) (hs : s.Coherent) (r : Response) :
    ∃ as bs, comparable s b₁ r = .ok as ∧ comparable s b₂ r = .ok bs ∧ as.Perm bs := by
  rw [comparable_own r h.own₁, comparable_own r h.own₂]
  rcases @perm_of_mapM _ _ (s.counterpart? r) _ _ (h.perm_counted hs) with
    ⟨has, hbs⟩ | ⟨as, bs, has, hbs, hperm⟩
  · exact ⟨[], [], by rw [has]; rfl, by rw [hbs]; rfl, .nil⟩
  · exact ⟨as, bs, by rw [has]; rfl, by rw [hbs]; rfl, hperm⟩

/-- The entropy of a response depends on nothing but whether it compares with them. -/
theorem comparedEntropy_eq (h : AnswerAlike s b₁ b₂) (hs : s.Coherent) (odds : Odds) :
    comparedEntropy s odds b₁ = comparedEntropy s odds b₂ := by
  funext r
  obtain ⟨as, bs, has, hbs, hperm⟩ := h.comparable_perm hs r
  unfold comparedEntropy
  rw [has, hbs]
  -- the answers are only asked whether there are any
  cases as with
  | nil => rw [hperm.nil_eq]
  | cons a as =>
    cases bs with
    | nil => cases hperm.symm.nil_eq
    | cons b bs => rfl

/-- A response has a likelihood over the questions of both or of neither. -/
theorem comparedLikelihood_alike (h : AnswerAlike s b₁ b₂) (hs : s.Coherent) {odds : Odds}
    {r : Response} {score : Option Float} (hscore : comparedLikelihood s odds b₁ r = .ok score) :
    ∃ score', comparedLikelihood s odds b₂ r = .ok score' ∧ score'.isSome = score.isSome := by
  obtain ⟨as, bs, has, hbs, hperm⟩ := h.comparable_perm hs r
  unfold comparedLikelihood at hscore ⊢
  rw [has] at hscore
  rw [hbs]
  obtain ⟨_, ⟨⟩, hscore⟩ := bind_eq_ok.mp hscore
  cases as with
  | nil =>
    cases hscore
    rw [← hperm.nil_eq]
    exact ⟨none, rfl, rfl⟩
  | cons a as =>
    obtain ⟨x, hx, hscore⟩ := bind_eq_ok.mp hscore
    cases hscore
    have hall := sumOverSelections_succeeds_iff.mp ⟨x, hx⟩
    obtain ⟨y, hy⟩ := sumOverSelections_succeeds_iff.mpr fun c hc => hall c (hperm.mem_iff.mpr hc)
    cases bs with
    | nil => cases hperm.symm.nil_eq
    | cons b bs => exact ⟨some y, bind_eq_ok.mpr ⟨_, rfl, bind_eq_ok.mpr ⟨y, hy, rfl⟩⟩, rfl⟩

/-- The same responses of a pool are scored. -/
theorem mapM_compared (h : AnswerAlike s b₁ b₂) (hs : s.Coherent) (k : ScoreKind)
    {ps : Probabilities} : ∀ {pool : List Response} {scores : List (Option Float)},
      pool.mapM (fun r => k.compared s ps b₁ r) = .ok scores →
        ∃ scores', pool.mapM (fun r => k.compared s ps b₂ r) = .ok scores' ∧
          scores'.map (·.isSome) = scores.map (·.isSome)
  | [], _, hscores => by
    cases hscores
    exact ⟨[], rfl, rfl⟩
  | r :: pool, _, hscores => by
    rw [List.mapM_cons] at hscores
    obtain ⟨score, hscore, hscores⟩ := bind_eq_ok.mp hscores
    obtain ⟨rest, hrest, hscores⟩ := bind_eq_ok.mp hscores
    cases hscores
    obtain ⟨rest', hrest', hsame'⟩ := h.mapM_compared hs k hrest
    have hhead : ∃ score', k.compared s ps b₂ r = .ok score' ∧ score'.isSome = score.isSome := by
      cases k with
      | entropy =>
        refine ⟨score, ?_, rfl⟩
        rw [← hscore]
        exact congrFun (h.comparedEntropy_eq hs ps.odds).symm r
      | likelihood => exact h.comparedLikelihood_alike hs hscore
    obtain ⟨score', hscore', hsame⟩ := hhead
    refine ⟨score' :: rest', ?_, by rw [List.map_cons, List.map_cons, hsame, hsame']⟩
    rw [List.mapM_cons, hscore', hrest']
    rfl

end AnswerAlike

/-- **Responses to the same questions may share means.** What a response answers to the questions
of one of them is what it answers to those of the other, in another order, so it compares with both
or with neither. The same responses of a pool are scored, whichever of the two asks for the means,
and the entropies, so also the means of entropies and all that is remembered, are the same. -/
theorem shares_means {s : Survey} {b₁ b₂ : Response} (hs : s.Coherent)
    (h : AnswerAlike s b₁ b₂) :
    (∀ r, ∃ as bs, comparable s b₁ r = .ok as ∧ comparable s b₂ r = .ok bs ∧ as.Perm bs ∧
      (as = [] ↔ bs = [])) ∧
    (∀ (k : ScoreKind) (ps : Probabilities) (pool : List Response) (scores : List (Option Float)),
      pool.mapM (fun r => k.compared s ps b₁ r) = .ok scores →
        ∃ scores', pool.mapM (fun r => k.compared s ps b₂ r) = .ok scores' ∧
          scores'.map (·.isSome) = scores.map (·.isSome)) ∧
    ∀ (ps : Probabilities) (pool : List Response) (smoothing : Bool) (session : Session),
      runFrom session (Session.meansFor ⟨Policy.entropy.label, b₁.questionKeys, smoothing⟩ pool
          fun r => ScoreKind.entropy.compared s ps b₁ r) =
        runFrom session (Session.meansFor ⟨Policy.entropy.label, b₂.questionKeys, smoothing⟩ pool
          fun r => ScoreKind.entropy.compared s ps b₂ r) := by
  refine ⟨fun r => ?_, fun k ps pool scores hscores => h.mapM_compared hs k hscores,
    fun ps pool smoothing session => ?_⟩
  · obtain ⟨as, bs, has, hbs, hperm⟩ := h.comparable_perm hs r
    refine ⟨as, bs, has, hbs, hperm, fun hnil => ?_, fun hnil => ?_⟩
    · rw [hnil] at hperm
      exact hperm.nil_eq.symm
    · rw [hnil] at hperm
      exact hperm.symm.nil_eq.symm
  · have hscore : (fun r => ScoreKind.entropy.compared s ps b₁ r) =
        fun r => ScoreKind.entropy.compared s ps b₂ r := h.comparedEntropy_eq hs ps.odds
    rw [h.same, hscore]

/-! ### Answers in another order -/

/-- The response that answers the questions from the first to the last. -/
def forkForth : Response :=
  plainResponse "sr0" [(Survey.forkFirst, ["short"]), (Survey.forkLast, ["last"])]

/-- The response that answers the same questions from the last to the first. -/
def forkBack : Response :=
  plainResponse "sr1" [(Survey.forkLast, ["last"]), (Survey.forkFirst, ["long"])]

/-- The response that answers all questions. -/
def forkFull : Response := plainResponse "sr2"
  [(Survey.forkFirst, ["long"]), (Survey.more, ["more"]), (Survey.forkLast, ["last"])]

theorem shares_means_fork : Survey.ofDocument 0 (forkDocument Survey.moreFields) =
      .ok (Survey.fork Survey.more) ∧
    AnswerAlike (Survey.fork Survey.more) forkForth forkBack ∧
    ∃ as bs, comparable (Survey.fork Survey.more) forkForth forkFull = .ok as ∧
      comparable (Survey.fork Survey.more) forkBack forkFull = .ok bs ∧ as.Perm bs ∧
      as.map (·.question.id) = [.str "q1", .str "q3"] ∧
      bs.map (·.question.id) = [.str "q3", .str "q1"] := by
  have hsame : forkForth.questionKeys = forkBack.questionKeys :=
    Response.questionKeys_eq_iff.mpr fun key => by
      simp [forkForth, forkBack, plainResponse, or_comm]
  have halike : AnswerAlike (Survey.fork Survey.more) forkForth forkBack :=
    ⟨by simp [forkForth, plainResponse, Survey.questions_fork],
      by simp [forkBack, plainResponse, Survey.questions_fork], by decide, by decide, hsame⟩
  obtain ⟨hcomparable, -, -⟩ :=
    shares_means (Survey.coherent_of_ofDocument Survey.ofDocument_fork) halike
  obtain ⟨as, bs, has, hbs, hperm, -⟩ := hcomparable forkFull
  refine ⟨Survey.ofDocument_fork, halike, as, bs, has, hbs, hperm, ?_, ?_⟩
  · cases has
    rfl
  · cases hbs
    rfl

end Questionnaire
