/-
# Which answers the entropy counts, and where

The entropy counts, for each choice of each measured question, the responses
that select a choice which says the same: one at the same distance from its
question, in a wording of the question. So a response is counted for each of its
answers, and again for every other choice that says the same as one of them.
Choices in one row all say the same, and so do choices that line up in the
wordings of a question, each of which is measured.

Key definitions: `Survey.cells`, `Survey.CountedIn`, `Survey.ChoicesApart`.
Key theorems: `Survey.ChoicesApart.countsFor_iff`, `Survey.ChoicesApart.answered_le`,
`counts_once_iff`.
-/
import Questionnaire.Analysis.Entropy
import Questionnaire.Proofs.Document.Difference
import Questionnaire.Proofs.Classify.Sharing
import Questionnaire.Proofs.Path.Grouping
import Questionnaire.Proofs.Sums
import Questionnaire.Proofs.Survey.Choice

namespace Questionnaire

/-- The choices of some questions, each with its question. -/
def offers (qs : List Question) : List (Question × Choice) :=
  qs.flatMap fun q => q.choices.map (q, ·)

theorem mem_offers {qs : List Question} {x : Question × Choice} :
    x ∈ offers qs ↔ x.1 ∈ qs ∧ x.2 ∈ x.1.choices := by
  obtain ⟨q, c⟩ := x
  simp only [offers, List.mem_flatMap, List.mem_map, Prod.mk.injEq]
  constructor
  · rintro ⟨q, hq, c, hc, rfl, rfl⟩
    exact ⟨hq, hc⟩
  · rintro ⟨hq, hc⟩
    exact ⟨q, hq, c, hc, rfl, rfl⟩

namespace Response

/-- The answers to questions for choices that select something and count. -/
def answered (r : Response) : List Answer :=
  r.counted.filter fun a => !a.question.isFreetext && !a.selections.isEmpty

/-- What these answers select. -/
def given (r : Response) : List (Question × Choice) :=
  r.answered.flatMap fun a => a.choices.map (a.question, ·)

/-- The response selects at most one choice for a question. -/
structure SelectsOnce (r : Response) : Prop where
  one : ∀ a ∈ r.answers, a.selections.length ≤ 1
  apart : ((r.answers.filter (!·.selections.isEmpty)).map (·.question.key)).Nodup

end Response

namespace Survey

variable {s : Survey} {r : Response} {x cell : Question × Choice}

/-- The choices that the entropy counts along each path. -/
def cells (s : Survey) : List (Question × Choice) := offers s.measured

/-- A choice counts as another one: its question is a wording of the other's, and the choices are
at the same distance from their questions. -/
structure CountedIn (s : Survey) (x cell : Question × Choice) : Prop where
  wording : x.1 ∈ s.wordings cell.1
  distance : ∃ m n, rowOffset x.1 x.2 = .ok m ∧ rowOffset cell.1 cell.2 = .ok n ∧ (m == n) = true

/-- The choices of the survey can be looked up, they are at a distance from their questions, and no
two have the same value. -/
structure ChoicesApart (s : Survey) : Prop where
  keys : ∀ x ∈ offers s.questions, x.2.isKey = true
  distances : ∀ x ∈ offers s.questions, ∃ n, rowOffset x.1 x.2 = .ok n ∧ (n == n) = true
  apart : (offers s.questions).Pairwise fun x y => (x.2 == y.2) = false ∧ (y.2 == x.2) = false

/-! ### Choices by value -/

/-- Choices with whole numbers for rows are at a distance. -/
theorem exists_distance {q : Question} {c : Choice} {m n : Int} (hq : q.row = .int m)
    (hc : c.row = .int n) : ∃ k, rowOffset q c = .ok k ∧ (k == k) = true := by
  refine ⟨.number (.int (m - n)), ?_, Document.number_beq_self _⟩
  rw [rowOffset, hq, hc, Document.minus_whole]

/-- Each choice is counted in a cell of its own. -/
theorem ChoicesApart.nodup_cells (h : s.ChoicesApart) : s.cells.Nodup := by
  have hnodup : (offers s.questions).Nodup :=
    nodup_of_apart (f := Prod.snd) h.apart fun x hx => Choice.beq_self_of_isKey (h.keys x hx)
  exact hnodup.sublist (List.filter_sublist.flatMap _)

theorem mem_cells : x ∈ s.cells ↔
    x ∈ offers s.questions ∧ x.1.isFreetext = false ∧ x.1.isCustom = false := by
  simp only [cells, mem_offers, measured, List.mem_filter, Bool.and_eq_true, Bool.not_eq_true']
  tauto

/-! ### The choices that say the same -/

/-- Whether a choice of a question is at the distance from it. -/
def isAt (n : Document.Difference) (q : Question) (c : Choice) : Bool :=
  (rowOffset q c).toOption.any (· == n)

theorem isAt_iff {n : Document.Difference} {q : Question} {c : Choice} :
    isAt n q c = true ↔ ∃ m, rowOffset q c = .ok m ∧ (m == n) = true := by
  unfold isAt
  cases rowOffset q c <;> simp [Except.toOption]

theorem choicesAt_eq (n : Document.Difference) {q : Question} : ∀ {cs : List Choice},
    (∀ c ∈ cs, ∃ m, rowOffset q c = .ok m) → choicesAt n q cs = .ok (cs.filter (isAt n q))
  | [], _ => rfl
  | c :: cs, h => by
    obtain ⟨m, hm⟩ := h c List.mem_cons_self
    have hhead : isAt n q c = (m == n) := by simp [isAt, hm, Except.toOption]
    rw [choicesAt, hm, choicesAt_eq n fun d hd => h d (List.mem_cons_of_mem c hd),
      List.filter_cons, hhead]
    rfl

/-- The choices that say the same are those that count as the choice. -/
theorem ChoicesApart.equivalentChoices_eq_ok (h : s.ChoicesApart) (hs : s.Coherent)
    (hcell : cell ∈ offers s.questions) : ∃ same, s.equivalentChoices cell.1 cell.2 = .ok same ∧
      ∀ d, d ∈ same ↔ ∃ v, d ∈ v.choices ∧ s.CountedIn (v, d) cell := by
  obtain ⟨n, hn, -⟩ := h.distances cell hcell
  have hq := (mem_offers.mp hcell).1
  have hown := (hs.mem_wordings hq).2
  have hat : ∀ v ∈ s.wordings cell.1,
      choicesAt n v v.choices = .ok (v.choices.filter (isAt n v)) := by
    refine fun v hv => choicesAt_eq n fun c hc => ?_
    obtain ⟨m, hm, -⟩ := h.distances (v, c) (mem_offers.mpr ⟨hown v hv, hc⟩)
    exact ⟨m, hm⟩
  refine ⟨(s.wordings cell.1).flatMap fun v => v.choices.filter (isAt n v), ?_, fun d => ?_⟩
  · rw [equivalentChoices, hn, variants_own hq]
    simp only [bind, Except.bind, mapM_eq_ok hat]
    rfl
  · simp only [List.mem_flatMap, List.mem_filter, isAt_iff]
    constructor
    · rintro ⟨v, hv, hd, m, hm, heq⟩
      exact ⟨v, hd, hv, m, n, hm, hn, heq⟩
    · rintro ⟨v, hd, hv, m, n', hm, hn', heq⟩
      cases hn.symm.trans hn'
      exact ⟨v, hv, hd, m, hm, heq⟩

end Survey

/-! ### What a response gives -/

namespace Response

variable {s : Survey} {r : Response} {x : Question × Choice}

theorem mem_given : x ∈ r.given ↔ ∃ a ∈ r.counted, a.question.isFreetext = false ∧
    a.question = x.1 ∧ x.2 ∈ a.choices := by
  obtain ⟨q, c⟩ := x
  simp only [given, answered, List.mem_flatMap, List.mem_filter, List.mem_map, Prod.mk.injEq,
    Bool.and_eq_true, Bool.not_eq_true']
  constructor
  · rintro ⟨a, ⟨ha, hfree, -⟩, c, hc, rfl, rfl⟩
    exact ⟨a, ha, hfree, rfl, hc⟩
  · rintro ⟨a, ha, hfree, rfl, hc⟩
    refine ⟨a, ⟨ha, hfree, ?_⟩, c, hc, rfl, rfl⟩
    obtain ⟨sel, hsel, -⟩ := List.mem_map.mp hc
    simpa using List.ne_nil_of_mem hsel

/-- What counted answers select is given, in a valid survey. -/
theorem BelongsTo.mem_given_of_counted (h : r.BelongsTo s) (hv : s.Valid) {a : Answer}
    (ha : a ∈ r.counted) {c : Choice} (hc : c ∈ a.choices) : (a.question, c) ∈ r.given := by
  obtain ⟨hq, hchoices⟩ := h a (List.mem_of_mem_filter ha)
  refine mem_given.mpr ⟨a, ha, ?_, rfl, hc⟩
  by_contra hfree
  have hmem := hchoices c hc
  rw [hv.choices_of_freetext hq (by simpa using hfree)] at hmem
  cases hmem

/-- What a response gives is among the cells. -/
theorem BelongsTo.given_subset (h : r.BelongsTo s) : r.given ⊆ s.cells := by
  rintro ⟨q, c⟩ hx
  obtain ⟨a, ha, hfree, rfl, hc⟩ := mem_given.mp hx
  obtain ⟨hmem, hcounted⟩ := List.mem_filter.mp ha
  obtain ⟨hq, hchoices⟩ := h a hmem
  exact Survey.mem_cells.mpr ⟨mem_offers.mpr ⟨hq, hchoices c hc⟩, hfree, by simpa using hcounted⟩

/-- A response that selects one choice for a question gives as much as it answers. -/
theorem SelectsOnce.keys_given (h : r.SelectsOnce) :
    r.given.map (·.1.key) = r.answered.map (·.question.key) := by
  rw [given, List.map_flatMap, List.map_eq_flatMap]
  refine List.flatMap_congr fun a ha => ?_
  obtain ⟨hcounted, hsome⟩ := List.mem_filter.mp ha
  have hone := h.one a (List.mem_of_mem_filter hcounted)
  obtain ⟨sel, hsel⟩ : ∃ sel, a.selections = [sel] := by
    cases hsel : a.selections with
    | nil => simp [hsel] at hsome
    | cons sel rest =>
      rw [hsel, List.length_cons] at hone
      exact ⟨sel, by rw [List.length_eq_zero_iff.mp (by omega : rest.length = 0)]⟩
  rw [Answer.choices, hsel]
  rfl

theorem SelectsOnce.nodup_given (h : r.SelectsOnce) : r.given.Nodup := by
  refine List.Nodup.of_map (·.1.key) ?_
  rw [h.keys_given]
  refine h.apart.sublist (List.Sublist.map _ ?_)
  have hsplit : r.answered = ((r.answers.filter (!·.selections.isEmpty)).filter
      (!·.question.isCustom)).filter (!·.question.isFreetext) := by
    rw [answered, counted]
    simp only [List.filter_filter]
    exact List.filter_congr fun a _ => by ac_rfl
  rw [hsplit]
  exact List.filter_sublist.trans List.filter_sublist

theorem SelectsOnce.length_given (h : r.SelectsOnce) : r.given.length = r.answered.length := by
  simpa using congrArg List.length h.keys_given

theorem findsAny_eq {choices : List Choice} : ∀ {selected : List Choice},
    (∀ c ∈ selected, c.isKey = true) →
      findsAny choices selected = .ok (selected.any choices.contains)
  | [], _ => rfl
  | c :: selected, h => by
    rw [findsAny, List.any_cons, if_neg (by simp [h c List.mem_cons_self]),
      findsAny_eq fun d hd => h d (List.mem_cons_of_mem c hd)]
    cases choices.contains c <;> rfl

end Response

/-! ### The cells that a response counts in -/

namespace Survey

variable {s : Survey} {r : Response} {cell : Question × Choice}

/-- Whether a response is counted for a choice. -/
def countsFor (s : Survey) (cell : Question × Choice) (r : Response) : Bool :=
  (s.equivalentChoices cell.1 cell.2 >>= r.selectsAny).toOption.getD false

/-- A response is counted for a choice if it gives one that counts as the choice. -/
theorem ChoicesApart.countsFor_iff (h : s.ChoicesApart) (hs : s.Coherent) (hv : s.Valid)
    (hcell : cell ∈ offers s.questions) : ∃ same, s.equivalentChoices cell.1 cell.2 = .ok same ∧
      ∀ r : Response, r.BelongsTo s → r.selectsAny same = .ok (s.countsFor cell r) ∧
        (s.countsFor cell r = true ↔ ∃ x ∈ r.given, s.CountedIn x cell) := by
  obtain ⟨same, hsame, hmem⟩ := h.equivalentChoices_eq_ok hs hcell
  have hwordings := (hs.mem_wordings (mem_offers.mp hcell).1).2
  have hoffered : ∀ v d, d ∈ v.choices → s.CountedIn (v, d) cell → (v, d) ∈ offers s.questions :=
    fun v d hd hcounted => mem_offers.mpr ⟨hwordings v hcounted.wording, hd⟩
  refine ⟨same, hsame, fun r hown => ?_⟩
  have hselected : ∀ a ∈ r.counted, ∀ c ∈ a.choices, (a.question, c) ∈ offers s.questions := by
    intro a ha c hc
    obtain ⟨hq, hchoices⟩ := hown a (List.mem_of_mem_filter ha)
    exact mem_offers.mpr ⟨hq, hchoices c hc⟩
  have hselects : r.selectsAny same = .ok ((r.counted.flatMap (·.choices)).any same.contains) := by
    rw [Response.selectsAny, if_pos, Response.findsAny_eq]
    · intro c hc
      obtain ⟨a, ha, hc⟩ := List.mem_flatMap.mp hc
      exact h.keys _ (hselected a ha c hc)
    · refine List.all_eq_true.mpr fun d hd => ?_
      obtain ⟨v, hv, hcounted⟩ := (hmem d).mp hd
      exact h.keys _ (hoffered v d hv hcounted)
  have heq : s.countsFor cell r = (r.counted.flatMap (·.choices)).any same.contains := by
    rw [countsFor, hsame]
    simp [bind, Except.bind, hselects, Except.toOption]
  refine ⟨heq ▸ hselects, ?_⟩
  simp only [heq, List.any_eq_true, List.mem_flatMap, List.contains_iff_exists_mem_beq, hmem]
  constructor
  · rintro ⟨c, ⟨a, ha, hc⟩, d, ⟨v, hd, hcounted⟩, hbeq⟩
    have hone := eq_of_beq_of_apart h.apart (hselected a ha c hc) (hoffered v d hd hcounted) hbeq
    exact ⟨(a.question, c), hown.mem_given_of_counted hv ha hc, hone ▸ hcounted⟩
  · rintro ⟨⟨q, c⟩, hx, hcounted⟩
    obtain ⟨a, ha, -, rfl, hc⟩ := Response.mem_given.mp hx
    have hmem := hselected a ha c hc
    exact ⟨c, ⟨a, ha, hc⟩, c, ⟨a.question, (mem_offers.mp hmem).2, hcounted⟩,
      Choice.beq_self_of_isKey (h.keys _ hmem)⟩

/-- What a response gives counts as itself. -/
theorem ChoicesApart.countedIn_self (h : s.ChoicesApart) (hs : s.Coherent)
    (hcell : cell ∈ offers s.questions) : s.CountedIn cell cell := by
  obtain ⟨n, hn, hself⟩ := h.distances cell hcell
  exact ⟨(hs.mem_wordings (mem_offers.mp hcell).1).1, n, n, hn, hn, hself⟩

/-- **How often a response is counted**: at least once for each answer, and as often as it answers
exactly if nothing that it gives counts as a choice which it does not give. -/
theorem ChoicesApart.answered_le (h : s.ChoicesApart) (hs : s.Coherent) (hv : s.Valid)
    (hown : r.BelongsTo s) (honce : r.SelectsOnce) :
    r.answered.length ≤ s.cells.countP (s.countsFor · r) ∧
      (r.answered.length = s.cells.countP (s.countsFor · r) ↔
        ∀ x ∈ r.given, ∀ cell ∈ s.cells, s.CountedIn x cell → cell ∈ r.given) := by
  have hiff : ∀ cell ∈ s.cells, s.countsFor cell r = true ↔ ∃ x ∈ r.given, s.CountedIn x cell := by
    intro cell hcell
    obtain ⟨_, -, hcounts⟩ := h.countsFor_iff hs hv (mem_cells.mp hcell).1
    exact (hcounts r hown).2
  have hsub : r.given ⊆ s.cells.filter (s.countsFor · r) := by
    intro x hx
    have hcell := hown.given_subset hx
    have hself := h.countedIn_self hs (mem_cells.mp hcell).1
    exact List.mem_filter.mpr ⟨hcell, (hiff x hcell).mpr ⟨x, hx, hself⟩⟩
  have hsubperm := List.subperm_of_subset honce.nodup_given hsub
  rw [List.countP_eq_length_filter, ← honce.length_given]
  refine ⟨hsubperm.length_le, fun heq x hx cell hcell hcounted => ?_, fun hgiven => ?_⟩
  · rw [(hsubperm.perm_of_length_le heq.ge).mem_iff]
    exact List.mem_filter.mpr ⟨hcell, (hiff cell hcell).mpr ⟨x, hx, hcounted⟩⟩
  · refine Nat.le_antisymm hsubperm.length_le
      (List.subperm_of_subset (h.nodup_cells.filter _) fun cell hcell => ?_).length_le
    obtain ⟨hcell, hfound⟩ := List.mem_filter.mp hcell
    obtain ⟨x, hx, hcounted⟩ := (hiff cell hcell).mp hfound
    exact hgiven x hx cell hcell hcounted

/-! ### The counts -/

/-- The counts of the cells, along one path after another. -/
def countsOf (s : Survey) (groups : List (List Response)) : List Nat :=
  s.cells.flatMap fun cell => groups.map (·.countP (s.countsFor cell))

/-- Counting responses to questions of the survey succeeds. -/
theorem ChoicesApart.cellCounts_eq (h : s.ChoicesApart) (hs : s.Coherent) (hv : s.Valid)
    {groups : List (List Response)} (hown : ∀ rs ∈ groups, ∀ r ∈ rs, r.BelongsTo s) :
    s.cellCounts groups = .ok (s.countsOf groups) := by
  have hcell : ∀ q ∈ s.measured, ∀ c ∈ q.choices,
      (s.equivalentChoices q c >>= fun same => groups.mapM (countSelecting same)) =
        .ok (groups.map (·.countP (s.countsFor (q, c)))) := by
    intro q hq c hc
    have hcell : (q, c) ∈ s.cells := mem_offers.mpr ⟨hq, hc⟩
    obtain ⟨same, hsame, hcounts⟩ := h.countsFor_iff hs hv (mem_cells.mp hcell).1
    rw [hsame]
    refine mapM_eq_ok fun rs hrs => ?_
    rw [countSelecting, mapM_eq_ok fun r hr => (hcounts r (hown rs hrs r hr)).1]
    simp [bind, Except.bind, pure, Except.pure, List.countP_map, Function.comp_def]
  rw [cellCounts, mapM_eq_ok fun q hq => mapM_eq_ok (hcell q hq)]
  simp [bind, Except.bind, pure, Except.pure, countsOf, cells, offers, List.flatMap,
    List.map_flatten, List.flatten_flatten, Function.comp_def]

/-- The counts of the cells add up to those of the responses. -/
theorem sumOf_countsOf (groups : List (List Response)) : sumOf (s.countsOf groups) =
    sumOf (groups.flatten.map fun r => s.cells.countP (s.countsFor · r)) := by
  have hcell (cell : Question × Choice) : (groups.map (·.countP (s.countsFor cell))).sum =
      groups.flatten.countP (s.countsFor cell) := List.countP_flatten.symm
  calc sumOf (s.countsOf groups)
      = sumOf (s.cells.map fun cell => groups.flatten.countP (s.countsFor cell)) := by
        simp only [countsOf, sumOf_eq_sum, List.flatMap, List.sum_flatten, List.map_map,
          Function.comp_def, hcell]
    _ = sumOf (groups.flatten.map fun r => s.cells.countP (s.countsFor · r)) :=
        sumOf_countP_comm s.countsFor s.cells groups.flatten

end Survey

/-- Responses to a valid survey have been put into groups. They select at most one choice for a
question, and the choices of the survey are told apart. -/
structure Measured (origin : Nat) (d : Document) (s : Survey) (responses : List Response)
    (groups : List (Path × List Response)) : Prop where
  read : Survey.ofDocument origin d = .ok s
  valid : s.Valid
  apart : s.ChoicesApart
  own : ∀ r ∈ responses, r.BelongsTo s
  once : ∀ r ∈ responses, r.SelectsOnce
  two : 2 ≤ responses.length
  grouped : ∃ paths, s.paths = .ok paths ∧ groupByPath s paths responses = .ok groups

/-- **Answers are counted once exactly if nothing else says the same.** The entropy is that of the
counts of all cells. These add up to how many cells each response in the groups counts in, which are
those that something it gives counts as. That is not fewer than the answers that these responses
give, and as many exactly if no response gives anything that counts as a choice which it does not
give itself. -/
theorem counts_once_iff {origin : Nat} {d : Document} {s : Survey} {responses : List Response}
    {groups : List (Path × List Response)} (h : Measured origin d s responses groups) :
    ∃ counts, s.cellCounts (groups.map (·.2)) = .ok counts ∧
      s.entropy responses = .ok (Survey.entropyOf responses.length counts) ∧
      (groups.map (·.2)).flatten.Perm (responses.filter (!·.counted.isEmpty)) ∧
      sumOf counts =
        sumOf ((groups.map (·.2)).flatten.map fun r => s.cells.countP (s.countsFor · r)) ∧
      (∀ r ∈ responses, ∀ cell ∈ s.cells,
        s.countsFor cell r = true ↔ ∃ x ∈ r.given, s.CountedIn x cell) ∧
      sumOf ((groups.map (·.2)).flatten.map (·.answered.length)) ≤ sumOf counts ∧
      (sumOf counts = sumOf ((groups.map (·.2)).flatten.map (·.answered.length)) ↔
        ∀ r ∈ responses, ∀ x ∈ r.given, ∀ cell ∈ s.cells,
          s.CountedIn x cell → cell ∈ r.given) := by
  obtain ⟨paths, hpaths, hgroups⟩ := h.grouped
  have hs := Survey.coherent_of_ofDocument h.read
  have hperm := Survey.perm_groups hpaths h.own hgroups
  have hfrom : ∀ r ∈ (groups.map (·.2)).flatten, r ∈ responses := fun r hr =>
    List.mem_of_mem_filter (hperm.mem_iff.mp hr)
  have hcounts : s.cellCounts (groups.map (·.2)) = .ok (s.countsOf (groups.map (·.2))) :=
    h.apart.cellCounts_eq hs h.valid fun rs hrs r hr =>
      h.own r (hfrom r (List.mem_flatten.mpr ⟨rs, hrs, hr⟩))
  have heach : ∀ r ∈ (groups.map (·.2)).flatten, _ := fun r hr =>
    h.apart.answered_le hs h.valid (h.own r (hfrom r hr)) (h.once r (hfrom r hr))
  refine ⟨_, hcounts, ?_, hperm, Survey.sumOf_countsOf _, fun r hr cell hcell => ?_, ?_, ?_⟩
  · rw [Survey.entropy, if_neg (by have := h.two; omega), hpaths]
    simp only [bind, Except.bind, hgroups, hcounts]
    rfl
  · obtain ⟨_, -, hcounted⟩ := h.apart.countsFor_iff hs h.valid (Survey.mem_cells.mp hcell).1
    exact (hcounted r (h.own r hr)).2
  · calc sumOf ((groups.map (·.2)).flatten.map (·.answered.length))
        ≤ sumOf ((groups.map (·.2)).flatten.map fun r => s.cells.countP (s.countsFor · r)) :=
          sumOf_map_le fun r hr => (heach r hr).1
      _ = sumOf (s.countsOf (groups.map (·.2))) := (Survey.sumOf_countsOf _).symm
  · rw [Survey.sumOf_countsOf, eq_comm, sumOf_map_eq_iff fun r hr => (heach r hr).1]
    refine ⟨fun heq r hr x hx => ?_, fun hgiven r hr => (heach r hr).2.mpr (hgiven r (hfrom r hr))⟩
    -- a response that gives something is in a group
    have hgrouped : r ∈ (groups.map (·.2)).flatten := by
      obtain ⟨a, ha, -⟩ := Response.mem_given.mp hx
      refine hperm.mem_iff.mpr (List.mem_filter.mpr ⟨hr, ?_⟩)
      simpa using List.ne_nil_of_mem ha
    exact (heach r hgrouped).2.mp (heq r hgrouped) x hx

/-! ### Choices in one row, and wordings that line up -/

namespace Measured

/-- For each choice of a question, a response that selects it. -/
def oneEach (q : Question) : List Response :=
  q.choices.map fun c => { id := c.id, answers := [{ question := q, selections := [⟨c, .int 0⟩] }] }

theorem own_oneEach {s : Survey} {q : Question} (hq : q ∈ s.questions) :
    ∀ r ∈ oneEach q, r.BelongsTo s := by
  intro r hr a ha
  obtain ⟨c, hc, rfl⟩ := List.mem_map.mp hr
  obtain rfl := List.mem_singleton.mp ha
  exact ⟨hq, fun d hd => List.mem_singleton.mp hd ▸ hc⟩

theorem once_oneEach (q : Question) : ∀ r ∈ oneEach q, r.SelectsOnce := by
  intro r hr
  obtain ⟨c, hc, rfl⟩ := List.mem_map.mp hr
  exact ⟨by simp, by simp⟩

/-- A question with its choices in one row. -/
def flatDocument : Document := .record [
  ("name", .str "flat"),
  ("blocks", .list [blockEntry "1" [("options", .list [choiceEntry "a", choiceEntry "b"])]])]

/-- The question. -/
def flatQuestion : Question := plainQuestion 0 "1" [plainChoice "a", plainChoice "b"] []

/-- The survey of the question. -/
def flat : Survey := { name := .str "flat", blocks := [plainBlock 0 "1" flatQuestion] }

/-- A question in a row and its choices in the next two. -/
def wordingEntry (id : String) (row : Int) (first second : String) : Document := .record [
  ("id", .str id), ("source_row", .int row),
  ("options", .list [
    .record [("id", .str first), ("source_row", .int (row + 1))],
    .record [("id", .str second), ("source_row", .int (row + 2))]])]

/-- Two such questions in one block. -/
def wordedDocument (paradigm : Paradigm) : Document := .record [
  ("name", .str "worded"),
  ("blocks", .list [.record [("id", .str "1"), ("branch_paradigm", .str paradigm.name),
    ("questions", .list [wordingEntry "q1" 1 "a" "b", wordingEntry "q2" 11 "c" "d"])]])]

/-- The question with the number, its row and choices. -/
def wording (index : Nat) (id : String) (row : Int) (first second : String) : Question where
  key := ⟨0, index⟩
  id := .str id
  choices := [
    { id := .str first, row := .int (row + 1) }, { id := .str second, row := .int (row + 2) }]
  row := .int row

/-- The survey of these questions. -/
def worded (paradigm : Paradigm) : Survey where
  name := .str "worded"
  blocks := [{
    key := ⟨0, 0⟩, id := .str "1", paradigm
    questions := [wording 0 "q1" 1 "a" "b", wording 1 "q2" 11 "c" "d"] }]

theorem ofDocument_flat : Survey.ofDocument 0 flatDocument = .ok flat := by
  unfold Survey.ofDocument
  rw [@readBlocks_leaves 0 flatDocument [_] (by cbv) (by cbv)]
  cbv

theorem ofDocument_worded (paradigm : Paradigm) :
    Survey.ofDocument 0 (wordedDocument paradigm) = .ok (worded paradigm) := by
  unfold Survey.ofDocument
  cases paradigm
  all_goals
    rw [@readBlocks_leaves 0 (wordedDocument _) [_] (by cbv) (by cbv)]
    cbv

theorem apart_flat : flat.ChoicesApart where
  keys := by decide
  distances := by
    intro x hx
    fin_cases hx <;> exact Survey.exists_distance rfl rfl
  apart := by decide +kernel

theorem apart_worded (paradigm : Paradigm) : (worded paradigm).ChoicesApart where
  keys := by cases paradigm <;> decide
  distances := by
    intro x hx
    fin_cases hx <;> exact Survey.exists_distance rfl rfl
  apart := by cases paradigm <;> decide +kernel

/-- The responses along the one path. -/
theorem measured_flat : Measured 0 flatDocument flat (oneEach flatQuestion)
    [(flat.blocks, oneEach flatQuestion)] where
  read := ofDocument_flat
  valid := by decide
  apart := apart_flat
  own := own_oneEach (List.mem_singleton_self _)
  once := once_oneEach _
  two := by decide
  grouped := ⟨[flat.blocks], by cbv, rfl⟩

/-- The first question. -/
def worded₁ : Question := wording 0 "q1" 1 "a" "b"

theorem measured_worded (paradigm : Paradigm) :
    Measured 0 (wordedDocument paradigm) (worded paradigm) (oneEach worded₁)
      [((worded paradigm).blocks, oneEach worded₁)] where
  read := ofDocument_worded paradigm
  valid := by cases paradigm <;> decide
  apart := apart_worded paradigm
  own := own_oneEach List.mem_cons_self
  once := once_oneEach _
  two := by decide
  grouped := ⟨[(worded paradigm).blocks], by cbv, rfl⟩

/-- Without variants, choices in rows of their own are counted once. -/
theorem counts_once_iff_worded :
    Measured 0 (wordedDocument .none) (worded .none) (oneEach worded₁)
      [((worded .none).blocks, oneEach worded₁)] ∧
    ∃ counts, (worded .none).cellCounts [oneEach worded₁] = .ok counts ∧ sumOf counts = 2 := by
  obtain ⟨counts, hcounts, -, -, -, -, -, hiff⟩ := counts_once_iff (measured_worded .none)
  refine ⟨measured_worded .none, counts, hcounts, hiff.mpr ?_⟩
  intro r hr x hx cell hcell ⟨hwording, m, n, hm, hn, heq⟩
  fin_cases hr <;> fin_cases hx <;> fin_cases hcell
  -- the choice itself, one of the other question, or the one in the other row
  all_goals first
    | exact List.mem_singleton_self _
    | exact absurd (congrArg (·.key) (List.mem_singleton.mp hwording)) (by decide)
    | cases hm
      cases hn
      exact absurd heq (by decide)

/-- Each answer is counted twice: choices in one row say the same, and so do choices that line up in
the wordings of a block. -/
theorem answers_counted_twice :
    (Measured 0 flatDocument flat (oneEach flatQuestion) [(flat.blocks, oneEach flatQuestion)] ∧
      flat.cellCounts [oneEach flatQuestion] = .ok [2, 2] ∧
      sumOf ((oneEach flatQuestion).map (·.answered.length)) = 2) ∧
    Measured 0 (wordedDocument .all) (worded .all) (oneEach worded₁)
        [((worded .all).blocks, oneEach worded₁)] ∧
      (worded .all).cellCounts [oneEach worded₁] = .ok [1, 1, 1, 1] ∧
      sumOf ((oneEach worded₁).map (·.answered.length)) = 2 :=
  ⟨⟨measured_flat, by decide +kernel, rfl⟩, measured_worded .all, by decide +kernel, rfl⟩

end Measured

end Questionnaire
