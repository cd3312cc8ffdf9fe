/-
# Counts of a survey's own choices

Responses that select choices of the survey's own are counted under the ids of
its questions and of their choices. If no two ids have the same value, the counts
of a question are those of its choices, one entry for each that was counted.

Key definitions: `Document.Apart`, `Survey.HasDistinctIds`, `Question.Owns`,
`Frequencies.AreOwn`.
Key theorems: `Question.Owns.lookup_eq_some_iff`, `Frequencies.areOwn_gather`,
`Frequencies.AreOwn.countsOf`.
-/
import Mathlib.Data.List.Nodup
import Mathlib.Data.List.Pairwise
import Questionnaire.Frequency
import Questionnaire.Proofs.Response.Rereading
import Questionnaire.Proofs.Survey.Choice
import Questionnaire.Proofs.Tally

namespace Questionnaire

/-! ### Ids of different values -/

namespace Document

/-- No two of the ids have the same value, whichever is compared with the other. -/
def Apart (ids : List Document) : Prop :=
  ids.Pairwise fun a b => (a == b) = false ∧ (b == a) = false

instance (ids : List Document) : Decidable (Apart ids) :=
  inferInstanceAs (Decidable (ids.Pairwise _))

variable {α : Type} {id : α → Document} {xs : List α} {x y : α}

theorem Apart.eq_of_beq (h : Apart (xs.map id)) (hx : x ∈ xs) (hy : y ∈ xs)
    (hsame : (id x == id y) = true) : x = y :=
  eq_of_beq_of_apart (f := id) (List.pairwise_map.mp h) hx hy hsame

/-- Ids of different values that are fit for keys do not repeat. -/
theorem Apart.nodup {ids : List Document} (h : Apart ids) (hkeys : ∀ id ∈ ids, id.isKey = true) :
    ids.Nodup :=
  nodup_of_apart (f := fun id => id) h fun id hid => beq_self_of_isKey (hkeys id hid)

end Document

/-- No two questions of the survey have ids of the same value, nor have two choices of one of
them. -/
structure Survey.HasDistinctIds (s : Survey) : Prop where
  questions : Document.Apart (s.questions.map (·.id))
  choices : ∀ q ∈ s.questions, Document.Apart (q.choices.map (·.id))

/-! ### Tallies -/

/-- What is looked up is in an entry of the same value. -/
theorem exists_of_lookup {α β : Type} [BEq α] {x : α} {n : β} : ∀ {t : List (α × β)},
    t.lookup x = some n → ∃ y, (y, n) ∈ t ∧ (x == y) = true
  | (y, m) :: t, h => by
    rw [List.lookup_cons] at h
    by_cases hxy : (x == y) = true
    · rw [hxy] at h
      cases h
      exact ⟨y, List.mem_cons_self, hxy⟩
    · rw [Bool.eq_false_iff.mpr hxy] at h
      obtain ⟨z, hz, hxz⟩ := exists_of_lookup h
      exact ⟨z, List.mem_cons_of_mem _ hz, hxz⟩

theorem lookup_isSome_of_mem {α β : Type} [BEq α] {x y : α} {n : β} : ∀ {t : List (α × β)},
    (y, n) ∈ t → (x == y) = true → ∃ m, t.lookup x = some m
  | (z, m) :: t, hmem, hxy => by
    rw [List.lookup_cons]
    by_cases hxz : (x == z) = true
    · exact ⟨m, by rw [hxz]⟩
    · rw [Bool.eq_false_iff.mpr hxz]
      rcases List.mem_cons.mp hmem with heq | hmem
      · cases heq
        exact absurd hxy hxz
      · exact lookup_isSome_of_mem hmem hxy

/-- A tally of choices of the question: each entry is under the id of a choice, which is fit for a
key, and no two are under the same. -/
structure Question.Owns (q : Question) (t : Tally Document) : Prop where
  own : ∀ id ∈ t.map (·.1), id.isKey = true ∧ ∃ c ∈ q.choices, c.id = id
  nodup : (t.map (·.1)).Nodup

namespace Question.Owns

variable {q : Question} {t : Tally Document} {c : Choice} {n : Nat}

theorem nil : q.Owns [] := ⟨nofun, .nil⟩

theorem add (h : q.Owns t) (hc : c ∈ q.choices) (hkey : c.id.isKey = true) :
    q.Owns (t.add c.id) := by
  by_cases hknown : t.any (c.id == ·.1) = true
  · have hkeys : (t.add c.id).map (·.1) = t.map (·.1) := by rw [Tally.keys_add, if_pos hknown]
    exact ⟨hkeys ▸ h.own, hkeys ▸ h.nodup⟩
  · have hkeys : (t.add c.id).map (·.1) = t.map (·.1) ++ [c.id] := by
      rw [Tally.keys_add, if_neg hknown]
    have hnew : c.id ∉ t.map (·.1) := by
      intro hmem
      obtain ⟨entry, hentry, heq⟩ := List.mem_map.mp hmem
      refine hknown (List.any_eq_true.mpr ⟨entry, hentry, ?_⟩)
      rw [heq]
      exact Document.beq_self_of_isKey hkey
    refine ⟨fun id hid => ?_, ?_⟩
    · rw [hkeys, List.mem_append, List.mem_singleton] at hid
      rcases hid with hid | rfl
      · exact h.own id hid
      · exact ⟨hkey, c, hc, rfl⟩
    · rw [hkeys]
      exact h.nodup.append (List.nodup_singleton _) (by simpa using hnew)

theorem addAll (h : q.Owns t) {ids : List Document}
    (hids : ∀ id ∈ ids, id.isKey = true ∧ ∃ c ∈ q.choices, c.id = id) :
    q.Owns (Tally.addAll ids t) := by
  refine List.foldlRecOn ids _ h fun t ht id hid => ?_
  obtain ⟨hkey, c, hc, rfl⟩ := hids id hid
  exact ht.add hc hkey

theorem countUnselected (h : q.Owns t) {choices : List Choice}
    (hchoices : ∀ c ∈ choices, c ∈ q.choices ∧ c.id.isKey = true) :
    q.Owns (Frequencies.countUnselected choices t) := by
  refine List.foldlRecOn choices _ h fun t ht c hc => ?_
  obtain ⟨hown, hkey⟩ := hchoices c hc
  by_cases hcount : t.count c.id = 0
  · rw [if_pos hcount]
    exact ht.add hown hkey
  · rw [if_neg hcount]
    exact ht

/-- What is looked up for a choice is its entry. -/
theorem lookup_eq_some_iff (h : q.Owns t) (hapart : Document.Apart (q.choices.map (·.id)))
    (hc : c ∈ q.choices) : t.lookup c.id = some n ↔ (c.id, n) ∈ t := by
  have hentry : ∀ {m}, t.lookup c.id = some m → (c.id, m) ∈ t := by
    intro m hm
    obtain ⟨id, hmem, hsame⟩ := exists_of_lookup hm
    obtain ⟨-, d, hd, rfl⟩ := h.own id (List.mem_map_of_mem hmem)
    rwa [hapart.eq_of_beq hc hd hsame]
  refine ⟨hentry, fun hmem => ?_⟩
  have hkey := (h.own c.id (List.mem_map.mpr ⟨_, hmem, rfl⟩)).1
  obtain ⟨m, hm⟩ := lookup_isSome_of_mem hmem (Document.beq_self_of_isKey hkey)
  have hsame : (c.id, m) = (c.id, n) :=
    List.inj_on_of_nodup_map h.nodup (hentry hm) hmem rfl
  rw [hm, (Prod.mk.inj hsame).2]

end Question.Owns

namespace Frequencies

variable {s : Survey} {fs : Frequencies} {q : Question} {responses : List Response}

/-- The counts of a question; none if it has no entry. -/
def countsOf (fs : Frequencies) (q : Question) : Tally Document := (fs.counts? q.id).getD []

/-- The counts are kept under ids of questions of the survey, which are fit for keys, and are those
of their choices. -/
def AreOwn (s : Survey) (fs : Frequencies) : Prop :=
  ∀ entry ∈ fs, entry.1.isKey = true ∧ ∃ q ∈ s.questions, q.id = entry.1 ∧ q.Owns entry.2

theorem areOwn_nil : AreOwn s [] := nofun

/-- Changing the counts of a question keeps those of the others. -/
theorem AreOwn.update (hs : s.HasDistinctIds) (hq : q ∈ s.questions) (hkey : q.id.isKey = true)
    {change : Tally Document → Tally Document} (hchange : ∀ t, q.Owns t → q.Owns (change t)) :
    ∀ {fs : Frequencies}, AreOwn s fs → AreOwn s (fs.update q.id change)
  | [], _ => by
    rintro entry hentry
    obtain rfl := List.mem_singleton.mp hentry
    exact ⟨hkey, q, hq, rfl, hchange [] .nil⟩
  | (id, t) :: fs, h => by
    obtain ⟨⟨hid, r, hr, rfl, howns⟩, hrest⟩ := List.forall_mem_cons.mp h
    rw [Frequencies.update]
    by_cases hsame : (r.id == q.id) = true
    · rw [if_pos hsame]
      obtain rfl := hs.questions.eq_of_beq hr hq hsame
      exact List.forall_mem_cons.mpr ⟨⟨hid, r, hr, rfl, hchange t howns⟩, hrest⟩
    · rw [if_neg hsame]
      exact List.forall_mem_cons.mpr
        ⟨⟨hid, r, hr, rfl, howns⟩, AreOwn.update hs hq hkey hchange hrest⟩

theorem AreOwn.addAnswer (hs : s.HasDistinctIds) (h : AreOwn s fs) {a : Answer}
    (hown : a.question ∈ s.questions ∧ ∀ c ∈ a.choices, c ∈ a.question.choices)
    (hkeys : hasKeys a = true) : AreOwn s (fs.addAnswer a) := by
  obtain ⟨hquestion, hchoices⟩ := hown
  obtain ⟨hkey, hids⟩ := Bool.and_eq_true_iff.mp hkeys
  refine AreOwn.update hs hquestion hkey (fun t howns => howns.addAll fun id hid => ?_) h
  refine ⟨List.all_eq_true.mp hids id hid, ?_⟩
  obtain ⟨selection, hselection, rfl⟩ := List.mem_map.mp hid
  exact ⟨selection.choice, hchoices _ (List.mem_map_of_mem hselection), rfl⟩

theorem areOwn_countAll (hs : s.HasDistinctIds) {answers : List Answer}
    (hown : ∀ a ∈ answers, a.question ∈ s.questions ∧ ∀ c ∈ a.choices, c ∈ a.question.choices)
    (hkeys : answers.all hasKeys = true) : AreOwn s (countAll answers) :=
  List.foldlRecOn answers _ areOwn_nil fun _ h a ha =>
    AreOwn.addAnswer hs h (hown a ha) (List.all_eq_true.mp hkeys a ha)

theorem AreOwn.smoothed (hs : s.HasDistinctIds) (h : AreOwn s fs) {qs : List Question}
    (hown : ∀ q ∈ qs, q ∈ s.questions) (hkeys : qs.all offersKeys = true) :
    AreOwn s (fs.smoothed qs) := by
  refine List.foldlRecOn qs _ h fun fs hfs q hq => ?_
  obtain ⟨hkey, hids⟩ := Bool.and_eq_true_iff.mp (List.all_eq_true.mp hkeys q hq)
  refine AreOwn.update hs (hown q hq) hkey (fun t howns => ?_) hfs
  exact howns.countUnselected fun c hc => ⟨hc, List.all_eq_true.mp hids c hc⟩

theorem mem_countedAnswers (hown : ∀ r ∈ responses, r.BelongsTo s) {a : Answer}
    (ha : a ∈ countedAnswers responses) :
    a.question ∈ s.questions ∧ ∀ c ∈ a.choices, c ∈ a.question.choices := by
  obtain ⟨r, hr, ha⟩ := List.mem_flatMap.mp ha
  exact hown r hr a (List.mem_of_mem_filter ha)

/-- **Responses to the survey give counts of its own choices.** -/
theorem areOwn_gather (hs : s.HasDistinctIds) (hown : ∀ r ∈ responses, r.BelongsTo s)
    {smoothing : Bool} (h : gather s smoothing responses = .ok fs) : AreOwn s fs := by
  obtain ⟨counted, hcounted, h⟩ := bind_eq_ok.mp h
  have hplain : AreOwn s counted := by
    unfold ofResponses at hcounted
    by_cases hkeys : (countedAnswers responses).all hasKeys = true
    · rw [if_pos hkeys] at hcounted
      cases hcounted
      exact areOwn_countAll hs (fun a ha => mem_countedAnswers hown ha) hkeys
    · rw [if_neg hkeys] at hcounted
      cases hcounted
  cases smoothing with
  | false =>
    cases h
    exact hplain
  | true =>
    change (if (countedQuestions s).all offersKeys then _ else _) = _ at h
    by_cases hkeys : (countedQuestions s).all offersKeys = true
    · rw [if_pos hkeys] at h
      cases h
      exact hplain.smoothed hs (fun q hq => List.mem_of_mem_filter hq) hkeys
    · rw [if_neg hkeys] at h
      cases h

/-- Counts are gathered if all ids are fit for keys. -/
theorem gather_succeeds (hown : ∀ r ∈ responses, r.BelongsTo s)
    (hkeys : ∀ q ∈ s.questions, q.id.isKey = true ∧ ∀ c ∈ q.choices, c.id.isKey = true)
    (smoothing : Bool) : ∃ fs, gather s smoothing responses = .ok fs := by
  have hanswers : (countedAnswers responses).all hasKeys = true := by
    refine List.all_eq_true.mpr fun a ha => ?_
    obtain ⟨hquestion, hchoices⟩ := mem_countedAnswers hown ha
    obtain ⟨hkey, hids⟩ := hkeys a.question hquestion
    refine Bool.and_eq_true_iff.mpr ⟨hkey, List.all_eq_true.mpr fun id hid => ?_⟩
    obtain ⟨selection, hselection, rfl⟩ := List.mem_map.mp hid
    exact hids _ (hchoices _ (List.mem_map_of_mem hselection))
  have hoffers : (countedQuestions s).all offersKeys = true := by
    refine List.all_eq_true.mpr fun q hq => ?_
    obtain ⟨hkey, hids⟩ := hkeys q (List.mem_of_mem_filter hq)
    exact Bool.and_eq_true_iff.mpr ⟨hkey, List.all_eq_true.mpr hids⟩
  unfold gather ofResponses
  rw [if_pos hanswers]
  cases smoothing with
  | false => exact ⟨_, rfl⟩
  | true => exact ⟨_, if_pos hoffers⟩

/-- The counts of a question are those of its choices. -/
theorem AreOwn.countsOf (hs : s.HasDistinctIds) (h : AreOwn s fs) (hq : q ∈ s.questions) :
    q.Owns (fs.countsOf q) := by
  unfold Frequencies.countsOf
  cases hfound : fs.counts? q.id with
  | none => exact .nil
  | some t =>
    obtain ⟨id, hmem, hsame⟩ := exists_of_lookup hfound
    obtain ⟨-, r, hr, rfl, howns⟩ := h _ hmem
    rwa [hs.questions.eq_of_beq hq hr hsame]

end Frequencies

end Questionnaire
