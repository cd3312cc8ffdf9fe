/-
# Wordings of one question

Which wordings a question has is asked of one question, and which choices say
the same of one choice, but neither depends on which of them is asked: all
questions of a block of variants have the questions of this block for wordings,
and equal distances are equal to the same distances. So what compares is passed
on from one response to the next, unless a question that does not count stands
between them.

Key definitions: `Survey.Unmixed`, `Compares`.
Key theorems: `Survey.Coherent.wordings_eq`, `Survey.Coherent.equivalentChoices_eq`,
`counterparts_eq_some_iff`, `Compares.trans`, `wordings_say_the_same`.
-/
import Questionnaire.Proofs.Analysis.Entropy
import Questionnaire.Proofs.Classify.Sharing
import Questionnaire.Proofs.Document.Difference
import Questionnaire.Proofs.Response.Counted
import Questionnaire.Proofs.Survey.Directory

namespace Questionnaire

namespace Survey

variable {s : Survey} {q v : Question} {c d : Choice}

/-! ### Equal distances -/

theorem choicesAt_congr {m n : Document.Difference} (h : (m == n) = true) (v : Question) :
    ∀ cs : List Choice, choicesAt m v cs = choicesAt n v cs
  | [] => rfl
  | c :: cs => by
    rw [choicesAt, choicesAt, choicesAt_congr h v cs]
    simp only [BEq.congr_right h]

theorem choicesAt_succeeds_iff {n : Document.Difference} : ∀ {cs : List Choice},
    (∃ found, choicesAt n q cs = .ok found) ↔ ∀ c ∈ cs, ∃ m, rowOffset q c = .ok m
  | [] => by simp [choicesAt]
  | c :: cs => by
    rw [List.forall_mem_cons, ← @choicesAt_succeeds_iff n cs, choicesAt]
    cases hc : rowOffset q c with
    | error fault => simp [bind, Except.bind]
    | ok m => cases hcs : choicesAt n q cs <;> simp [bind, Except.bind, pure, Except.pure]

/-! ### The wordings of a wording -/

theorem Coherent.variants_eq (hs : s.Coherent) {b : Block} (hb : b ∈ s.allBlocks)
    (hq : b.holds q = true) :
    s.variants q = .ok (if b.paradigm = .all then b.questions else [q]) := by
  rw [variants, hs.containing_eq_ok_iff.mpr ⟨hb, hq⟩]
  rfl

theorem holds_own {b : Block} (hq : q ∈ b.questions) : b.holds q = true :=
  List.any_eq_true.mpr ⟨q, hq, beq_self_eq_true _⟩

/-- **All wordings of a question have the same wordings.** -/
theorem Coherent.wordings_eq (hs : s.Coherent) (hq : q ∈ s.questions) (hv : v ∈ s.wordings q) :
    s.wordings v = s.wordings q := by
  obtain ⟨b, hb, hqb⟩ := List.mem_flatMap.mp hq
  have hwordings : ∀ {r : Question}, r ∈ b.questions →
      s.wordings r = if b.paradigm = .all then b.questions else [r] := fun hr => by
    rw [wordings, hs.variants_eq hb (holds_own hr)]
    rfl
  rw [hwordings hqb] at hv ⊢
  by_cases hall : b.paradigm = .all
  · rw [if_pos hall] at hv ⊢
    rw [hwordings hv, if_pos hall]
  · rw [if_neg hall, List.mem_singleton] at hv
    rw [hv, hwordings hqb]

/-! ### The choices that say the same -/

theorem equivalentChoices_eq_mapM (hq : q ∈ s.questions) {n : Document.Difference}
    (hn : rowOffset q c = .ok n) : s.equivalentChoices q c =
      ((s.wordings q).mapM fun v => choicesAt n v v.choices).map List.flatten := by
  rw [equivalentChoices, hn, variants_own hq]
  rfl

/-- **Which choices say the same does not depend on which of them is asked.** -/
theorem Coherent.equivalentChoices_eq (hs : s.Coherent) (hq : q ∈ s.questions)
    (h : s.CountedIn (v, d) (q, c)) : s.equivalentChoices q c = s.equivalentChoices v d := by
  obtain ⟨hv, m, n, hm, hn, heq⟩ := h
  have hown := (hs.mem_wordings hq).2 v hv
  rw [equivalentChoices_eq_mapM hq hn, equivalentChoices_eq_mapM hown hm, hs.wordings_eq hq hv]
  simp only [choicesAt_congr heq]

/-- They are found exactly if all choices of the wordings are at a distance. -/
theorem Coherent.equivalentChoices_succeeds_iff (hs : s.Coherent) (hq : q ∈ s.questions)
    (hc : c ∈ q.choices) : (∃ same, s.equivalentChoices q c = .ok same) ↔
      ∀ v ∈ s.wordings q, ∀ d ∈ v.choices, ∃ m, rowOffset v d = .ok m := by
  constructor
  · rintro ⟨same, hsame⟩ v hv
    obtain ⟨n, hn, -⟩ := bind_eq_ok.mp hsame
    rw [equivalentChoices_eq_mapM hq hn] at hsame
    cases hfound : (s.wordings q).mapM fun v => choicesAt n v v.choices with
    | error fault => simp [hfound, Except.map] at hsame
    | ok found => exact choicesAt_succeeds_iff.mp (exists_of_mapM hfound hv)
  · intro h
    obtain ⟨n, hn⟩ := h q (hs.mem_wordings hq).1 c hc
    obtain ⟨found, hfound⟩ := mapM_succeeds fun v hv => choicesAt_succeeds_iff.mpr (h v hv)
    exact ⟨found.flatten, by rw [equivalentChoices_eq_mapM hq hn, hfound]; rfl⟩

theorem Coherent.mem_equivalentChoices (hs : s.Coherent) (hq : q ∈ s.questions) (hc : c ∈ q.choices)
    {same : List Choice} (hsame : s.equivalentChoices q c = .ok same) :
    d ∈ same ↔ ∃ v, d ∈ v.choices ∧ s.CountedIn (v, d) (q, c) := by
  have hdistances := (hs.equivalentChoices_succeeds_iff hq hc).mp ⟨same, hsame⟩
  obtain ⟨n, hn⟩ := hdistances q (hs.mem_wordings hq).1 c hc
  rw [equivalentChoices_eq_mapM hq hn,
    mapM_eq_ok fun v hv => choicesAt_eq n (hdistances v hv)] at hsame
  cases hsame
  simp only [List.mem_flatten, List.mem_map, exists_exists_and_eq_and, List.mem_filter, isAt_iff]
  constructor
  · rintro ⟨v, hv, hd, m, hm, heq⟩
    exact ⟨v, hd, hv, m, n, hm, hn, heq⟩
  · rintro ⟨v, hd, hv, m, n', hm, hn', heq⟩
    cases hn.symm.trans hn'
    exact ⟨v, hv, hd, m, hm, heq⟩

/-- No block of variants has both questions that count and questions that do not. -/
def Unmixed (s : Survey) : Prop :=
  ∀ b ∈ s.allBlocks, b.paradigm = .all →
    ∀ q ∈ b.questions, ∀ r ∈ b.questions, q.isCustom = r.isCustom

end Survey

/-! ### What compares -/

/-- The target answers a question in some wording. -/
def Survey.AnsweredBy (s : Survey) (target : Response) (q : Question) (found : Answer) : Prop :=
  ∃ vs, s.variants q = .ok vs ∧ vs.findSome? target.answerTo? = some found

/-- Counterparts are found exactly if the target answers all of the questions. -/
theorem counterparts_eq_some_iff {s : Survey} {target : Response} : ∀ {answers found : List Answer},
    counterparts s target answers = .ok (some found) ↔
      List.Forall₂ (fun a b => s.AnsweredBy target a.question b) answers found
  | [], found => by simp [counterparts, eq_comm]
  | a :: rest, found => by
    have ih := @counterparts_eq_some_iff s target rest
    rw [counterparts, List.forall₂_cons_left_iff]
    constructor
    · intro h
      obtain ⟨vs, hvs, h⟩ := bind_eq_ok.mp h
      cases hfound : vs.findSome? target.answerTo? with
      | none => simp [hfound, pure, Except.pure] at h
      | some b =>
        rw [hfound] at h
        obtain ⟨others, hothers, h⟩ := bind_eq_ok.mp h
        cases others with
        | none => simp [pure, Except.pure] at h
        | some bs =>
          cases h
          exact ⟨b, bs, ⟨vs, hvs, hfound⟩, ih.mp hothers, rfl⟩
    · rintro ⟨b, bs, ⟨vs, hvs, hfound⟩, hothers, rfl⟩
      refine bind_eq_ok.mpr ⟨vs, hvs, ?_⟩
      rw [hfound]
      exact bind_eq_ok.mpr ⟨some bs, ih.mpr hothers, rfl⟩

/-- The target answers all questions that the base has counted answers to, and there are some. -/
structure Compares (s : Survey) (base target : Response) : Prop where
  some : base.counted ≠ []
  all : ∀ a ∈ base.counted, ∃ found, s.AnsweredBy target a.question found

theorem compares_iff {s : Survey} {base target : Response} : Compares s base target ↔
    ∃ found, comparable s base target = .ok found ∧ found ≠ [] := by
  constructor
  · rintro ⟨hsome, hall⟩
    choose! f hf using hall
    have hfound := counterparts_eq_some_iff.mpr
      (List.forall₂_map_right_iff.mpr (List.forall₂_same.mpr hf))
    exact ⟨_, bind_eq_ok.mpr ⟨_, hfound, rfl⟩, by simpa using hsome⟩
  · rintro ⟨found, hfound, hne⟩
    obtain ⟨found?, hcounterparts, h⟩ := bind_eq_ok.mp hfound
    cases found? with
    | none =>
      cases h
      exact absurd rfl hne
    | some bs =>
      cases h
      have hall := counterparts_eq_some_iff.mp hcounterparts
      refine ⟨fun hnil => hne ?_, fun a ha => ?_⟩
      · rw [hnil] at hall
        cases hall
        rfl
      · obtain ⟨b, -, hb⟩ := exists_of_mem_right hall.flip ha
        exact ⟨b, hb⟩

namespace Survey.AnsweredBy

variable {s : Survey} {b c : Response} {q : Question} {found : Answer}

theorem exists_block (hs : s.Coherent) (h : s.AnsweredBy b q found) :
    ∃ block ∈ s.allBlocks, block.holds q = true := by
  obtain ⟨vs, hvs, -⟩ := h
  obtain ⟨block, hblock, -⟩ := bind_eq_ok.mp hvs
  exact ⟨block, hs.containing_eq_ok_iff.mp hblock⟩

theorem answerTo?_congr {q r : Question} (h : q.key = r.key) : c.answerTo? q = c.answerTo? r := by
  unfold Response.answerTo?
  rw [h]

/-- An answer to a wording of a question that counts does count, and who answers that wording
answers the question. -/
theorem passed_on (hs : s.Coherent) (hmixed : s.Unmixed) (hb : b.Matches s)
    (hq : ∀ r ∈ s.questions, q.key = r.key → q.isCustom = r.isCustom) (hcounts : q.isCustom = false)
    (h : s.AnsweredBy b q found) : found ∈ b.counted ∧
      ∀ {z}, s.AnsweredBy c found.question z → s.AnsweredBy c q z := by
  obtain ⟨block, hblock, hholds⟩ := h.exists_block hs
  have hown : ∀ r ∈ block.questions, r ∈ s.questions := fun r hr =>
    List.mem_flatMap.mpr ⟨block, hblock, hr⟩
  obtain ⟨w, hw, hkey⟩ := List.any_eq_true.mp hholds
  have hwcounts : w.isCustom = false := by
    rw [← hq w (hown w hw) (by simpa using (eq_of_beq hkey).symm), hcounts]
  obtain ⟨vs, hvs, hfirst⟩ := h
  cases (hs.variants_eq hblock hholds).symm.trans hvs
  obtain ⟨v, hv, hanswer⟩ := List.exists_of_findSome?_eq_some hfirst
  have hmem := List.mem_of_find?_eq_some hanswer
  have hfoundkey : found.question.key = v.key := by simpa using List.find?_some hanswer
  -- the answered wording is one of the block's own questions
  obtain ⟨u, hu, hukey, hucounts⟩ : ∃ u ∈ block.questions, u.key = v.key ∧ u.isCustom = false := by
    by_cases hall : block.paradigm = .all
    · rw [if_pos hall] at hv
      exact ⟨v, hv, rfl, (hmixed block hblock hall v hv w hw).trans hwcounts⟩
    · rw [if_neg hall, List.mem_singleton] at hv
      exact ⟨w, hw, by rw [hv]; exact eq_of_beq hkey, hwcounts⟩
  have hfoundcounts : found.question.isCustom = false := by
    rw [hb found hmem u (hown u hu) (hfoundkey.trans hukey.symm), hucounts]
  have hfoundholds : block.holds found.question = true :=
    List.any_eq_true.mpr ⟨u, hu, by rw [hukey, hfoundkey]; exact beq_self_eq_true _⟩
  refine ⟨List.mem_filter.mpr ⟨hmem, by simpa using hfoundcounts⟩, ?_⟩
  rintro z ⟨vs', hvs', hz⟩
  refine ⟨_, hs.variants_eq hblock hholds, ?_⟩
  cases (hs.variants_eq hblock hfoundholds).symm.trans hvs'
  by_cases hall : block.paradigm = .all
  · rw [if_pos hall] at hz ⊢
    exact hz
  · rw [if_neg hall, List.mem_singleton] at hv
    rw [if_neg hall] at hz ⊢
    rw [hv] at hfoundkey
    simpa [answerTo?_congr hfoundkey] using hz

end Survey.AnsweredBy

/-- **What compares is passed on** from one response to the next. -/
theorem Compares.trans {s : Survey} {a b c : Response} (hs : s.Coherent) (hmixed : s.Unmixed)
    (ha : a.Matches s) (hb : b.Matches s) (hab : Compares s a b) (hbc : Compares s b c) :
    Compares s a c where
  some := hab.some
  all := fun x hx => by
    obtain ⟨hxmem, hxcounts⟩ := List.mem_filter.mp hx
    obtain ⟨y, hy⟩ := hab.all x hx
    obtain ⟨hycounted, hnext⟩ := hy.passed_on hs hmixed hb (ha x hxmem) (by simpa using hxcounts)
    obtain ⟨z, hz⟩ := hbc.all y hycounted
    exact ⟨z, hnext hz⟩

/-- **Wordings say the same whichever of them is asked.** If a choice of a wording is at the distance
of a choice of the question, the two are asked with one result. It is a list if all choices of the
wordings are at a distance, as they are if their rows are whole numbers, and otherwise a fault. The
list has both choices, and all of its choices are at that distance from a wording. Responses compare
with those that a response which compares with them compares with, if no block of variants has
questions that count beside others that do not. -/
theorem wordings_say_the_same {origin : Nat} {d : Document} {s : Survey}
    (hread : Survey.ofDocument origin d = .ok s) :
    (∀ q ∈ s.questions, s.variants q = .ok (s.wordings q)) ∧
    (∀ q ∈ s.questions, ∀ q' ∈ s.questions, ∀ c ∈ q.choices, ∀ c' ∈ q'.choices,
      s.CountedIn (q', c') (q, c) → s.equivalentChoices q c = s.equivalentChoices q' c' ∧
        ((∃ same, s.equivalentChoices q c = .ok same) ↔
          ∀ v ∈ s.wordings q, ∀ d ∈ v.choices, ∃ m, Survey.rowOffset v d = .ok m) ∧
        ∀ same, s.equivalentChoices q c = .ok same → c ∈ same ∧ c' ∈ same ∧
          ∀ d, d ∈ same ↔ ∃ v, d ∈ v.choices ∧ s.CountedIn (v, d) (q, c)) ∧
    (∀ (q : Question) (c : Choice) (m n : Int), q.row = .int m → c.row = .int n →
      Survey.rowOffset q c = .ok (.number (.int (m - n)))) ∧
    ∀ a b c : Response, a.Matches s → b.Matches s → s.Unmixed →
      (∃ found, comparable s a b = .ok found ∧ found ≠ []) →
      (∃ found, comparable s b c = .ok found ∧ found ≠ []) →
      ∃ found, comparable s a c = .ok found ∧ found ≠ [] := by
  have hs := Survey.coherent_of_ofDocument hread
  refine ⟨fun q hq => Survey.variants_own hq, fun q hq q' hq' c hc c' hc' hcounted => ?_,
    fun q c m n hm hn => ?_, fun a b c ha hb hmixed hab hbc => ?_⟩
  · refine ⟨hs.equivalentChoices_eq hq hcounted, hs.equivalentChoices_succeeds_iff hq hc,
      fun same hsame => ?_⟩
    have hmem := fun d => @Survey.Coherent.mem_equivalentChoices s q c d hs hq hc same hsame
    obtain ⟨hwording, m, n, hm, hn, heq⟩ := hcounted
    refine ⟨(hmem c).mpr ⟨q, hc, (hs.mem_wordings hq).1, n, n, hn, hn, ?_⟩,
      (hmem c').mpr ⟨q', hc', hwording, m, n, hm, hn, heq⟩, hmem⟩
    exact BEq.trans (BEq.symm heq) heq
  · rw [Survey.rowOffset, hm, hn, Document.minus_whole]
  · rw [← compares_iff] at hab hbc ⊢
    exact hab.trans hs hmixed ha hb hbc

/-! ### Rows that line up, and a row that is no number -/

namespace Wordings

/-- The second wording of the question, with its choices in rows that line up. -/
def worded₂ : Question := Measured.wording 1 "q2" 11 "c" "d"

/-- A response to one question. -/
def answering (q : Question) : Response :=
  { id := .str "r", answers := [{ question := q, selections := [] }] }

theorem matches_answering {q : Question} (hq : q ∈ (Measured.worded .all).questions) :
    (answering q).Matches (Measured.worded .all) := by
  have hs := Survey.coherent_of_ofDocument (Measured.ofDocument_worded .all)
  refine Response.BelongsTo.matches (fun a ha => ?_) hs
  obtain rfl := List.mem_singleton.mp ha
  exact ⟨hq, fun c hc => absurd hc List.not_mem_nil⟩

/-- The first choices of two wordings, which say the same; and who answers the first wording compares
with who answers the second, and this one with who answers the first. -/
theorem wordings_say_the_same_worded :
    Survey.ofDocument 0 (Measured.wordedDocument .all) = .ok (Measured.worded .all) ∧
      (∃ same, (Measured.worded .all).equivalentChoices Measured.worded₁
          { id := .str "a", row := .int 2 } = .ok same ∧
        (Measured.worded .all).equivalentChoices worded₂ { id := .str "c", row := .int 12 } = .ok same ∧
        { id := .str "a", row := .int 2 } ∈ same ∧ { id := .str "c", row := .int 12 } ∈ same) ∧
      ∃ found, comparable (Measured.worded .all) (answering Measured.worded₁)
        (answering Measured.worded₁) = .ok found ∧ found ≠ [] := by
  have hfirst : Measured.worded₁ ∈ (Measured.worded .all).questions := List.mem_cons_self
  have hsecond : worded₂ ∈ (Measured.worded .all).questions :=
    List.mem_cons_of_mem _ List.mem_cons_self
  obtain ⟨-, hsame, hoffset, hcompares⟩ :=
    wordings_say_the_same (Measured.ofDocument_worded .all)
  obtain ⟨heq, hfound, hmem⟩ := hsame _ hfirst _ hsecond _ List.mem_cons_self _ List.mem_cons_self
    ⟨List.mem_cons_of_mem _ List.mem_cons_self, _, _, rfl, rfl, rfl⟩
  have hrows : ∀ v ∈ (Measured.worded .all).wordings Measured.worded₁, ∀ d ∈ v.choices,
      ∃ m, Survey.rowOffset v d = .ok m := by
    intro v hv d hd
    fin_cases hv <;> fin_cases hd <;> exact ⟨_, hoffset _ _ _ _ rfl rfl⟩
  obtain ⟨same, hlist⟩ := hfound.mpr hrows
  obtain ⟨ha, hc, -⟩ := hmem same hlist
  refine ⟨Measured.ofDocument_worded .all, ⟨same, hlist, heq ▸ hlist, ha, hc⟩, ?_⟩
  exact hcompares _ (answering worded₂) _ (matches_answering hfirst) (matches_answering hsecond)
    (by unfold Survey.Unmixed; decide) ⟨_, rfl, List.cons_ne_nil _ _⟩ ⟨_, rfl, List.cons_ne_nil _ _⟩

/-- A block of two wordings. The choice of the second one has a text for its row. -/
def oddDocument : Document := .record [
  ("name", .str "odd"),
  ("blocks", .list [.record [("id", .str "1"), ("branch_paradigm", .str "all"),
    ("questions", .list [
      .record [("id", .str "q1"), ("source_row", .int 1),
        ("options", .list [.record [("id", .str "a"), ("source_row", .int 2)]])],
      .record [("id", .str "q2"), ("source_row", .int 11),
        ("options", .list [.record [("id", .str "b"), ("source_row", .str "x")]])]])]])]

/-- The first wording. -/
def odd₁ : Question where
  key := ⟨0, 0⟩
  id := .str "q1"
  choices := [{ id := .str "a", row := .int 2 }]
  row := .int 1

/-- The survey of the document. -/
def odd : Survey where
  name := .str "odd"
  blocks := [{
    key := ⟨0, 0⟩, id := .str "1", paradigm := .all
    questions := [odd₁, {
      key := ⟨0, 1⟩, id := .str "q2", row := .int 11
      choices := [{ id := .str "b", row := .str "x" }] }] }]

/-- A choice is at a distance from its question, but it cannot be told what says the same. -/
theorem odd_row_compared : Survey.ofDocument 0 oddDocument = .ok odd ∧ odd₁ ∈ odd.questions ∧
    { id := .str "a", row := .int 2 } ∈ odd₁.choices ∧
    odd.CountedIn (odd₁, { id := .str "a", row := .int 2 })
      (odd₁, { id := .str "a", row := .int 2 }) ∧
    odd.equivalentChoices odd₁ { id := .str "a", row := .int 2 } = .error .illTyped := by
  refine ⟨?_, List.mem_cons_self, List.mem_cons_self,
    ⟨List.mem_cons_self, .number (.int (-1)), .number (.int (-1)), rfl, rfl, rfl⟩, by cbv⟩
  unfold Survey.ofDocument
  rw [@readBlocks_leaves 0 oddDocument [_] (by cbv) (by cbv)]
  cbv

end Wordings

end Questionnaire
