/-
# When a survey can be reported on

A valid survey has paths, so there is a shortest and a longest one; how long a
path is takes a tour of its blocks, which have to be put in order. A report also
simulates respondents, who look up choices, and lists ids, which have to be
texts.

Key definitions: `Path.InOrder`, `Survey.Reportable`.
Key theorems: `Survey.lengths_succeed_iff`, `Survey.averageLength_succeeds_iff`,
`Report.withWarnings_succeeds_iff`, `Survey.examine_succeeds_iff`, `Survey.reports`.
-/
import Questionnaire.Analysis.Report
import Questionnaire.Proofs.Document.Order
import Questionnaire.Proofs.Path.Tour
import Questionnaire.Proofs.Path.WellFormed
import Questionnaire.Proofs.Running

namespace Questionnaire

/-! ### Texts -/

theorem mem_of_mem_eraseDups {α : Type} [BEq α] (xs : List α) {x : α} (h : x ∈ xs.eraseDups) :
    x ∈ xs := by
  match xs with
  | [] => exact h
  | y :: ys =>
    rw [List.eraseDups_cons] at h
    rcases List.mem_cons.mp h with rfl | h
    · exact List.mem_cons_self
    · have hrest := mem_of_mem_eraseDups (ys.filter fun z => !z == y) h
      exact List.mem_cons_of_mem y (List.mem_of_mem_filter hrest)
termination_by xs.length
decreasing_by
  have := List.length_filter_le (fun z => !z == y) ys
  simp only [List.length_cons]
  omega

theorem Document.mem_eraseDups_texts {ds : List Document} (h : ∀ d ∈ ds, ∃ t, d = .str t)
    {d : Document} : d ∈ ds.eraseDups ↔ d ∈ ds := by
  refine ⟨mem_of_mem_eraseDups ds, fun hd => ?_⟩
  match ds with
  | [] => exact hd
  | e :: es =>
    rw [List.eraseDups_cons]
    by_cases heq : d = e
    · exact heq ▸ List.mem_cons_self
    · refine List.mem_cons_of_mem e ?_
      have hrest : d ∈ es := (List.mem_cons.mp hd).resolve_left heq
      obtain ⟨t, rfl⟩ := h e List.mem_cons_self
      have hother : (d == str t) = false := Bool.eq_false_iff.mpr (mt beq_str_iff.mp heq)
      have hkept : d ∈ es.filter fun z => !z == str t :=
        List.mem_filter.mpr ⟨hrest, by simp [hother]⟩
      exact (mem_eraseDups_texts fun z hz =>
        h z (List.mem_cons_of_mem _ (List.mem_of_mem_filter hz))).mpr hkept
termination_by ds.length
decreasing_by
  have := List.length_filter_le (fun z => !z == str t) es
  simp only [List.length_cons]
  omega

theorem Block.id_of_sortKey {b : Block} {key : SortKey} (h : b.sortKey = .ok key) :
    ∃ t, b.id = .str t := by
  unfold sortKey SortKey.ofId at h
  split at h
  · exact ⟨_, ‹_›⟩
  · cases h

/-! ### Lengths -/

/-- The blocks of the path and those under them have an order. -/
def Path.InOrder (p : Path) : Prop := ∀ b ∈ Block.preorders p, ∃ key, b.sortKey = .ok key

namespace Survey

variable {s : Survey} {paths : List Path}

/-- What is found of each path on a tour is found if the blocks can be put in order. -/
theorem mapM_tour_succeeds_iff {α : Type} (f : List Question → α) :
    (∃ found, paths.mapM (fun p => do return f (← tour p (.ofSeed 0)).1) = .ok found) ↔
      ∀ p ∈ paths, Path.InOrder p := by
  have hone : ∀ p : Path, (∃ x, (do return f (← tour p (.ofSeed 0)).1) = Except.ok x) ↔
      Path.InOrder p := by
    intro p
    rw [Path.InOrder, ← tour_succeeds_iff p (.ofSeed 0)]
    cases tour p (.ofSeed 0) with
    | error fault => simp [bind, Except.bind]
    | ok result => exact ⟨fun _ => ⟨result, rfl⟩, fun _ => ⟨_, rfl⟩⟩
  constructor
  · rintro ⟨found, hfound⟩ p hp
    exact (hone p).mp (exists_of_mapM hfound hp)
  · exact fun hall => mapM_succeeds fun p hp => (hone p).mpr (hall p hp)

theorem pathLengths_eq (hpaths : s.paths = .ok paths) : s.pathLengths =
    paths.mapM fun p => do return (← tour p (.ofSeed 0)).1.length := by
  rw [pathLengths, hpaths]
  rfl

theorem maxEntropy_succeeds (hpaths : s.paths = .ok paths) (hordered : ∀ p ∈ paths, Path.InOrder p) :
    ∃ bits, s.maxEntropy = .ok bits := by
  obtain ⟨found, hfound⟩ := (mapM_tour_succeeds_iff choiceBits).mpr hordered
  exact ⟨_, bind_eq_ok.mpr ⟨paths, hpaths, bind_eq_ok.mpr ⟨found, hfound, rfl⟩⟩⟩

/-- Picking one of some lengths succeeds if there are lengths to pick from. -/
theorem pick_succeeds_iff {lengths : Except Fault (List Nat)} {pick : List Nat → Option Nat}
    (hpick : ∀ ns, pick ns = none → ns = []) (hfull : ∀ ns, lengths = .ok ns → ns ≠ []) :
    (∃ n, (do match pick (← lengths) with
      | some n => return n
      | none => throw .unsuitable) = Except.ok n) ↔ ∃ ns, lengths = .ok ns := by
  constructor
  · rintro ⟨n, hn⟩
    obtain ⟨ns, hns, -⟩ := bind_eq_ok.mp hn
    exact ⟨ns, hns⟩
  · rintro ⟨ns, hns⟩
    obtain ⟨n, hn⟩ := Option.ne_none_iff_exists'.mp fun hnone => hfull ns hns (hpick ns hnone)
    exact ⟨n, bind_eq_ok.mpr ⟨ns, hns, by rw [hn]; rfl⟩⟩

/-- There is a shortest and a longest path exactly if the blocks on the paths, of which there are
some, and those under them can be put in order. -/
theorem lengths_succeed_iff (hpaths : s.paths = .ok paths) (hne : paths ≠ []) :
    ((∃ n, s.shortestLength = .ok n) ↔ ∀ p ∈ paths, Path.InOrder p) ∧
      ((∃ n, s.longestLength = .ok n) ↔ ∀ p ∈ paths, Path.InOrder p) := by
  rw [← mapM_tour_succeeds_iff List.length, ← pathLengths_eq hpaths]
  have hfull : ∀ ns, s.pathLengths = .ok ns → ns ≠ [] := by
    intro ns hns hnil
    rw [pathLengths_eq hpaths, hnil] at hns
    exact hne (List.forall₂_nil_right_iff.mp (forall₂_of_mapM hns))
  exact ⟨pick_succeeds_iff (fun _ => List.min?_eq_none_iff.mp) hfull,
    pick_succeeds_iff (fun _ => List.max?_eq_none_iff.mp) hfull⟩

theorem average_succeeds_iff (total : Nat) (n : Int) : (∃ x, average total n = .ok x) ↔
    (n ≠ 0 → ∃ x, Document.floatOf (.int n) = .ok x) := by
  unfold average
  by_cases hzero : n = 0
  · rw [if_pos hzero]
    exact ⟨fun _ hnot => absurd hzero hnot, fun _ => ⟨_, rfl⟩⟩
  · rw [if_neg hzero]
    constructor
    · rintro ⟨x, hx⟩ -
      obtain ⟨y, hy, -⟩ := bind_eq_ok.mp hx
      exact ⟨y, hy⟩
    · intro hfloat
      obtain ⟨y, hy⟩ := hfloat hzero
      exact ⟨_, bind_eq_ok.mpr ⟨y, hy, rfl⟩⟩

/-- As all respondents get to the end, the average length is found if their number can be divided
by. -/
theorem averageLength_succeeds_iff (hs : s.Coherent) (hv : s.Valid)
    (hsorted : ∃ sorted, sortBlocks s.blocks = .ok sorted)
    (hlookup : ∀ q ∈ s.questions, ∀ c ∈ q.choices, c.isKey = true) {samples : Document} {n : Int}
    (hn : samples.whole = .ok n) (g : Gen) : (∃ result, s.averageLength samples g = .ok result) ↔
      (n ≠ 0 → ∃ x, Document.floatOf (.int n) = .ok x) := by
  have hone : ∀ g, ∃ result, s.countedByChance g = .ok result := by
    intro g
    obtain ⟨t, g', hrun⟩ := Habit.run_succeeds hs hv hsorted hlookup .uniform g
    unfold countedByChance Habit.respond
    rw [hrun]
    exact ⟨_, rfl⟩
  obtain ⟨⟨counts, g'⟩, hcounts⟩ := @Gen.tryEach_succeeds _ _ (fun _ g => s.countedByChance g)
    (List.range n.toNat) g fun _ _ => hone
  have hrest : s.averageLength samples g = (average (sumOf counts) n).map fun x => (x, g') := by
    unfold averageLength
    rw [hn]
    simp only [bind, Except.bind, hcounts]
    cases average (sumOf counts) n <;> rfl
  rw [← average_succeeds_iff (sumOf counts) n, hrest]
  cases average (sumOf counts) n with
  | error fault => simp [Except.map]
  | ok x => exact ⟨fun _ => ⟨x, rfl⟩, fun _ => ⟨_, rfl⟩⟩

end Survey

/-! ### Warnings -/

namespace Report

variable {r : Report}

/-- A warning about ids is given if they are texts, and nothing else changes. -/
theorem warnAbout_succeeds (r : Report) (text : String) {ids : List Document}
    (h : ∀ id ∈ ids, ∃ t, id.text = .ok t) :
    ∃ warnings, r.warnAbout text ids = .ok { r with warnings } := by
  obtain ⟨texts, htexts⟩ := mapM_succeeds h
  unfold warnAbout
  split
  · exact ⟨r.warnings, rfl⟩
  · rw [htexts]
    simp only [bind, Except.bind, pure, Except.pure, warn]
    split
    · exact ⟨r.warnings, rfl⟩
    · exact ⟨_, rfl⟩

theorem texts_of_warnAbout {r' : Report} {text : String} {ids : List Document}
    (h : r.warnAbout text ids = .ok r') : ∀ id ∈ ids, ∃ t, id.text = .ok t := by
  unfold warnAbout at h
  split at h
  · rename_i hnone
    simp [List.isEmpty_iff.mp hnone]
  · obtain ⟨texts, htexts, -⟩ := bind_eq_ok.mp h
    exact fun id hid => exists_of_mapM htexts hid

/-- All warnings are given if the ids that they list are texts. -/
theorem withWarnings_succeeds_iff : (∃ r', r.withWarnings = .ok r') ↔
    (∀ id ∈ r.unreachable, ∃ t, id.text = .ok t) ∧
      (∀ id ∈ r.singleChoice, ∃ t, id.text = .ok t) ∧ ∀ id ∈ r.noChoice, ∃ t, id.text = .ok t := by
  unfold withWarnings
  constructor
  · rintro ⟨r', h⟩
    obtain ⟨r₁, hfirst, h₁⟩ := bind_eq_ok.mp h
    obtain ⟨r₂, hsecond, h₂⟩ := bind_eq_ok.mp h₁
    obtain ⟨r₃, hthird, -⟩ := bind_eq_ok.mp h₂
    have hunreachable := texts_of_warnAbout hfirst
    obtain ⟨first, heq⟩ := r.warnAbout_succeeds "Unreachable blocks: " hunreachable
    obtain rfl := Except.ok.inj (hfirst.symm.trans heq)
    have hsingle := texts_of_warnAbout hsecond
    obtain ⟨second, heq⟩ := { r with warnings := first }.warnAbout_succeeds
      "Questions with a single option: " hsingle
    obtain rfl := Except.ok.inj (hsecond.symm.trans heq)
    exact ⟨hunreachable, hsingle, texts_of_warnAbout hthird⟩
  · rintro ⟨hunreachable, hsingle, hnone⟩
    obtain ⟨first, hfirst⟩ := r.warnAbout_succeeds "Unreachable blocks: " hunreachable
    obtain ⟨second, hsecond⟩ := { r with warnings := first }.warnAbout_succeeds
      "Questions with a single option: " hsingle
    obtain ⟨third, hthird⟩ := { r with warnings := second }.warnAbout_succeeds
      "Questions without options: " hnone
    exact ⟨_, bind_eq_ok.mpr ⟨_, hfirst, bind_eq_ok.mpr ⟨_, hsecond,
      bind_eq_ok.mpr ⟨_, hthird, rfl⟩⟩⟩⟩

end Report

/-! ### Reports -/

namespace Survey

variable {s : Survey} {paths : List Path}

/-- What a report needs of a survey with these paths: their blocks have an order, and the questions
that there are warnings about have texts as their ids. -/
structure Reportable (s : Survey) (paths : List Path) : Prop where
  ordered : ∀ p ∈ paths, Path.InOrder p
  named : ∀ q ∈ s.measured, q.choices.length ≤ 1 → ∃ t, q.id.text = .ok t

/-- The questions that there are warnings about are those with one choice or none. -/
theorem named_iff : (∀ q ∈ s.measured, q.choices.length ≤ 1 → ∃ t, q.id.text = .ok t) ↔
    (∀ id ∈ s.idsWithChoices 1, ∃ t, id.text = .ok t) ∧
      ∀ id ∈ s.idsWithChoices 0, ∃ t, id.text = .ok t := by
  simp only [idsWithChoices, List.forall_mem_map, List.mem_filter, beq_iff_eq, and_imp]
  constructor
  · intro h
    exact ⟨fun q hq hone => h q hq hone.le, fun q hq hnone => h q hq (by omega)⟩
  · rintro ⟨hone, hnone⟩ q hq hle
    rcases Nat.le_one_iff_eq_zero_or_eq_one.mp hle with hzero | hsingle
    · exact hnone q hq hzero
    · exact hone q hq hsingle

/-- The ids of the fixed blocks that are on no path are listed. They are texts, as the blocks have an
order. -/
theorem unreachableIds_succeeds (hordered : ∀ b ∈ s.fixedBlocks, ∃ key, b.sortKey = .ok key)
    (paths : List Path) : ∃ ids, s.unreachableIds paths = .ok ids ∧
      (∀ id ∈ ids, ∃ t, id.text = .ok t) ∧
      ∀ id, id ∈ ids ↔ ∃ b ∈ s.fixedBlocks, b.id = id ∧ ¬paths.any (Path.has · b) = true := by
  have htexts : ∀ id ∈ (s.fixedBlocks.filter fun b => !paths.any (Path.has · b)).map (·.id),
      ∃ t, id = .str t := by
    intro id hid
    obtain ⟨b, hb, rfl⟩ := List.mem_map.mp hid
    obtain ⟨key, hkey⟩ := hordered b (List.mem_of_mem_filter hb)
    exact b.id_of_sortKey hkey
  have hsame := fun id => Document.mem_eraseDups_texts htexts (d := id)
  obtain ⟨ids, hids, horder⟩ := Document.sorted_texts fun id hid => htexts id ((hsame id).mp hid)
  refine ⟨ids, hids, fun id hid => ?_, fun id => ?_⟩
  · obtain ⟨t, rfl⟩ := htexts id ((hsame id).mp (horder.perm.mem_iff.mp hid))
    exact ⟨t, rfl⟩
  · rw [horder.perm.mem_iff, hsame]
    simp only [List.mem_map, List.mem_filter, Bool.not_eq_true', Bool.not_eq_true]
    exact ⟨fun ⟨b, ⟨hb, hnone⟩, hid⟩ => ⟨b, hb, hid, hnone⟩,
      fun ⟨b, hb, hid, hnone⟩ => ⟨b, ⟨hb, hnone⟩, hid⟩⟩

/-- **When a report is made**: if the blocks on the paths can be put in order, the ids that it lists
are texts, and the number of respondents it simulates is not too large for a float. -/
theorem examine_succeeds_iff (hs : s.Coherent) (hv : s.Valid) (hkeys : s.DistinctSortKeys)
    (hlookup : ∀ q ∈ s.questions, ∀ c ∈ q.choices, c.isKey = true) (hpaths : s.paths = .ok paths)
    (hne : paths ≠ []) {samples : Document} {n : Int} (hn : samples.whole = .ok n) (g : Gen) :
    (∃ report notes, (s.examine samples g).run = (.ok report, notes)) ↔
      s.Reportable paths ∧ (n ≠ 0 → ∃ x, Document.floatOf (.int n) = .ok x) := by
  change (∃ report notes, runFrom [] (s.examine samples g) = (.ok report, notes)) ↔ _
  unfold examine
  simp only [runFrom_bind, runFrom_liftM, runFrom_makeNotes, hpaths]
  by_cases hordered : ∀ p ∈ paths, Path.InOrder p
  · obtain ⟨⟨tours, g₁⟩, htours⟩ := @Gen.tryEach_succeeds _ _ tour paths g fun p hp g =>
      (tour_succeeds_iff p g).mpr (hordered p hp)
    have hfull : tours.map (·.length) ≠ [] := by
      intro hnil
      rw [List.map_eq_nil_iff.mp hnil] at htours
      exact hne (List.forall₂_nil_right_iff.mp (Gen.forall₂_of_tryEach htours))
    obtain ⟨shortest, hmin⟩ := Option.ne_none_iff_exists'.mp (mt List.min?_eq_none_iff.mp hfull)
    obtain ⟨longest, hmax⟩ := Option.ne_none_iff_exists'.mp (mt List.max?_eq_none_iff.mp hfull)
    obtain ⟨bits, hbits⟩ := maxEntropy_succeeds hpaths hordered
    obtain ⟨ids, hids, htexts, -⟩ := unreachableIds_succeeds
      (fun b hb => hkeys.exists_key (List.mem_of_mem_filter hb)) paths
    have hsorted : ∃ sorted, sortBlocks s.blocks = .ok sorted :=
      inNaturalOrder_succeeds_iff.mpr fun _ hb => hkeys.exists_key hb
    rw [← averageLength_succeeds_iff hs hv hsorted hlookup hn g₁]
    cases haverage : s.averageLength samples g₁ with
    | error fault => simp [htours, hmin, hmax, haverage, runFrom_bind]
    | ok result =>
      simp only [runFrom_bind, runFrom_liftM, runFrom_makeNotes, htours, hmin, hmax, haverage, hids,
        hbits]
      constructor
      · rintro ⟨report, notes, h⟩
        have hwarned := Report.withWarnings_succeeds_iff.mp ⟨report, congrArg Prod.fst h⟩
        exact ⟨⟨hordered, named_iff.mpr hwarned.2⟩, result, rfl⟩
      · rintro ⟨h, -⟩
        exact (Report.withWarnings_succeeds_iff.mpr ⟨htexts, named_iff.mp h.named⟩).imp
          fun report hreport => ⟨_, Prod.ext hreport rfl⟩
  · refine iff_of_false ?_ fun h => hordered h.1.ordered
    rintro ⟨report, notes, h⟩
    cases htours : Gen.tryEach tour paths g with
    | error fault => simp [htours] at h
    | ok result =>
      refine hordered fun p hp => ?_
      obtain ⟨qs, -, g₁, g₂, htour⟩ :=
        exists_of_mem_right (Gen.forall₂_of_tryEach htours).flip hp
      exact (tour_succeeds_iff p g₁).mp ⟨_, htour⟩

/-- **A valid survey whose blocks at the top level have distinct sort keys has well-formed paths, and
can be reported on.** Paths are found unless it cannot be told of a fixed block whether it falls
through. There is a shortest and a longest one exactly if the blocks on them and those under these
can be put in order. If all choices can be looked up, a report is made exactly if in addition the
ids it lists are texts, and the number of respondents it simulates is not too large for a float. -/
theorem reports {origin : Nat} {d : Document} (hread : Survey.ofDocument origin d = .ok s)
    (hv : s.Valid) (hkeys : s.DistinctSortKeys) :
    ((∃ paths, s.paths = .ok paths) ∨
      ∃ b ∈ s.fixedBlocks, (∃ fault, b.fallsThrough = .error fault) ∧
        ∃ q ∈ b.branchQuestions, ∃ c ∈ q.choices, c.isKey = false) ∧
    ∀ paths, s.paths = .ok paths →
      (∃ found, s.fixedChains = .ok found ∧ s.WellFormedPaths found paths) ∧
      ((∃ n, s.shortestLength = .ok n) ↔ ∀ p ∈ paths, Path.InOrder p) ∧
      ((∃ n, s.longestLength = .ok n) ↔ ∀ p ∈ paths, Path.InOrder p) ∧
      ((∀ q ∈ s.questions, ∀ c ∈ q.choices, c.isKey = true) →
        ∀ samples n, samples.whole = .ok n → ∀ g,
          (∃ report notes, (s.examine samples g).run = (.ok report, notes)) ↔
            s.Reportable paths ∧ (n ≠ 0 → ∃ x, Document.floatOf (.int n) = .ok x)) := by
  have hs := Survey.coherent_of_ofDocument hread
  refine ⟨paths_or_refused hkeys, fun paths hpaths => ?_⟩
  obtain ⟨found, hfound, hformed⟩ := wellFormed_paths hs hv hkeys hpaths
  obtain ⟨hshortest, hlongest⟩ := lengths_succeed_iff hpaths hformed.nonempty
  exact ⟨⟨found, hfound, hformed⟩, hshortest, hlongest, fun hlookup samples n hn g =>
    examine_succeeds_iff hs hv hkeys hlookup hpaths hformed.nonempty hn g⟩

theorem reports_fork : Survey.ofDocument 0 (forkDocument moreFields) = .ok (fork more) ∧
    (fork more).Valid ∧ (fork more).DistinctSortKeys ∧
    ∃ paths found, (fork more).paths = .ok paths ∧ (fork more).fixedChains = .ok found ∧
      (fork more).WellFormedPaths found paths ∧ (fork more).Reportable paths ∧
      (∃ n, (fork more).shortestLength = .ok n) ∧
      ∃ report notes, ((fork more).examine (.int 2) ⟨0⟩).run = (.ok report, notes) := by
  have hkeys : (fork more).DistinctSortKeys :=
    ⟨[.numbered [1], .numbered [2], .numbered [3]], by cbv, by decide⟩
  have hpaths : (fork more).paths = .ok [(fork more).blocks, Traversal.forkAround] := by cbv
  obtain ⟨⟨found, hchains, hformed⟩, hshortest, -, hreport⟩ :=
    (reports ofDocument_fork fork_valid hkeys).2 _ hpaths
  have hready : (fork more).Reportable [(fork more).blocks, Traversal.forkAround] := by
    refine ⟨fun p hp b hb => ?_, fun q hq _ => ?_⟩
    · -- there are no blocks under those on the paths
      have hmem : b ∈ (fork more).blocks := by
        simp only [List.mem_cons, List.not_mem_nil, or_false] at hp
        rcases hp with rfl | rfl
        · exact hb
        · exact (List.Sublist.cons_cons _ (.cons _ (.refl _))).subset hb
      exact hkeys.exists_key hmem
    · have hmem : q ∈ [forkFirst, more, forkLast] := List.mem_of_mem_filter hq
      simp only [List.mem_cons, List.not_mem_nil, or_false] at hmem
      rcases hmem with rfl | rfl | rfl <;> exact ⟨_, rfl⟩
  exact ⟨ofDocument_fork, fork_valid, hkeys, _, found, hpaths, hchains, hformed, hready,
    hshortest.mpr hready.ordered,
    (hreport (by decide) (.int 2) 2 rfl ⟨0⟩).mpr ⟨hready, fun _ => ⟨_, rfl⟩⟩⟩

end Survey

/-! ### Surveys that cannot be reported on -/

/-- The entries of a block with a question. -/
def innerEntries (inner question : Document) : List (Document × Document) :=
  [(.str "id", inner), (.str "questions", .list [.record [("id", question)]])]

/-- The entries of a block around that block. -/
def outerEntries (inner question : Document) : List (Document × Document) :=
  [(.str "id", .str "1"), (.str "sub_blocks", .list [.map (innerEntries inner question)])]

/-- A document with a question in a block under another one. -/
def nestedDocument (inner question : Document) : Document := .record [
  ("name", .str "nested"), ("blocks", .list [.map (outerEntries inner question)])]

/-- The survey of that document. -/
def nestedSurvey (inner question : Document) : Survey where
  name := .str "nested"
  blocks := [{
    key := ⟨0, 0⟩, id := .str "1"
    subBlocks := [{ key := ⟨0, 1⟩, id := inner, questions := [{ key := ⟨0, 0⟩, id := question }] }] }]

theorem ofDocument_nested (inner question : Document) :
    Survey.ofDocument 0 (nestedDocument inner question) = .ok (nestedSurvey inner question) := by
  have houter : Block.readIn 0 0 (.map (outerEntries inner question)) =
      Block.readListed 0 0 (outerEntries inner question) [.map (innerEntries inner question)] :=
    Block.readIn_listed (by cbv)
  have hinner : Block.readIn 0 0 (.map (innerEntries inner question)) =
      Block.readLeaf 0 (innerEntries inner question) := Block.readIn_leaf (by cbv)
  have hblocks : readBlocks 0 (nestedDocument inner question) = do
      let outer ← Block.readIn 0 0 (.map (outerEntries inner question))
      return [outer] := by
    have hlisted : ((nestedDocument inner question).fieldD "blocks" (.list [])).opened =
        .list [.map (outerEntries inner question)] := by cbv
    rw [readBlocks, hlisted]
    simp only [List.mapM_cons, List.mapM_nil, pure_bind]
    rfl
  unfold Survey.ofDocument
  rw [hblocks, houter, Block.readListed, List.mapM_cons, List.mapM_nil, hinner]
  cbv

theorem distinct_nested (inner question : Document) :
    (nestedSurvey inner question).DistinctSortKeys := ⟨[.numbered [1]], by cbv, by decide⟩

theorem paths_nested (inner question : Document) :
    (nestedSurvey inner question).paths = .ok [(nestedSurvey inner question).blocks] := by cbv

/-- What a report on the survey needs. -/
theorem examine_nested_iff {inner question : Document}
    (hvalid : (nestedSurvey inner question).Valid) (n : Int) (g : Gen) :
    (∃ report notes, ((nestedSurvey inner question).examine (.int n) g).run = (.ok report, notes)) ↔
      (nestedSurvey inner question).Reportable [(nestedSurvey inner question).blocks] ∧
        (n ≠ 0 → ∃ x, Document.floatOf (.int n) = .ok x) := by
  refine Survey.examine_succeeds_iff
    (Survey.coherent_of_ofDocument (ofDocument_nested inner question)) hvalid
    (distinct_nested inner question) (fun q hq c hc => ?_) (paths_nested inner question)
    (List.cons_ne_nil _ _) rfl g
  obtain rfl := List.mem_singleton.mp hq
  cases hc

theorem Document.floatOf_tooLarge {n : Int} (h : (Float.ofInt n).isInf = true) :
    floatOf (.int n) = .error .tooLarge := by
  have hnone : (Number.int n).toFloat? = none := if_pos h
  rw [floatOf, hnone]
  rfl

/-- There are no paths if it cannot be told whether a block falls through, no lengths if a block
under another has a number as its id, and no report if the id of a question with nothing to choose
is a number or if the number of samples is too large for a float. -/
theorem not_reported :
    (Survey.ofDocument 0 (forkDocument Traversal.trapFields) = .ok (Survey.fork Traversal.trap) ∧
      (Survey.fork Traversal.trap).Valid ∧ (Survey.fork Traversal.trap).DistinctSortKeys ∧
      ∀ paths, (Survey.fork Traversal.trap).paths ≠ .ok paths) ∧
    (Survey.ofDocument 0 (nestedDocument (.int 1) (.str "q1")) =
        .ok (nestedSurvey (.int 1) (.str "q1")) ∧
      (nestedSurvey (.int 1) (.str "q1")).Valid ∧
      (nestedSurvey (.int 1) (.str "q1")).DistinctSortKeys ∧
      (∀ n, (nestedSurvey (.int 1) (.str "q1")).shortestLength ≠ .ok n) ∧
      ∀ n, (nestedSurvey (.int 1) (.str "q1")).longestLength ≠ .ok n) ∧
    (Survey.ofDocument 0 (nestedDocument (.str "1.1") (.int 1)) =
        .ok (nestedSurvey (.str "1.1") (.int 1)) ∧
      (nestedSurvey (.str "1.1") (.int 1)).Valid ∧
      (nestedSurvey (.str "1.1") (.int 1)).DistinctSortKeys ∧
      ∀ report notes, ((nestedSurvey (.str "1.1") (.int 1)).examine (.int 0) ⟨0⟩).run ≠
        (.ok report, notes)) ∧
    Survey.ofDocument 0 (nestedDocument (.str "1.1") (.str "q1")) =
        .ok (nestedSurvey (.str "1.1") (.str "q1")) ∧
      (nestedSurvey (.str "1.1") (.str "q1")).Valid ∧
      (nestedSurvey (.str "1.1") (.str "q1")).DistinctSortKeys ∧
      ∀ report notes, ((nestedSurvey (.str "1.1") (.str "q1")).examine (.int (-10 ^ 400)) ⟨0⟩).run ≠
        (.ok report, notes) := by
  refine ⟨⟨Traversal.ofDocument_trap, by decide,
    ⟨[.numbered [1], .numbered [2], .numbered [3]], by cbv, by decide⟩, ?_⟩,
    ⟨ofDocument_nested _ _, by decide, distinct_nested _ _, ?_⟩,
    ⟨ofDocument_nested _ _, by decide, distinct_nested _ _, fun report notes h => ?_⟩,
    ofDocument_nested _ _, by decide, distinct_nested _ _, fun report notes h => ?_⟩
  · have hpaths : (Survey.fork Traversal.trap).paths = .error .illTyped := by cbv
    intro paths h
    cases hpaths.symm.trans h
  · have hnot : ¬∀ p ∈ [(nestedSurvey (.int 1) (.str "q1")).blocks], Path.InOrder p := by
      intro hall
      obtain ⟨key, hkey⟩ := hall _ List.mem_cons_self _ (List.mem_cons_of_mem _ List.mem_cons_self)
      cases hkey
    obtain ⟨hshortest, hlongest⟩ := Survey.lengths_succeed_iff
      (paths_nested (.int 1) (.str "q1")) (List.cons_ne_nil _ _)
    exact ⟨fun n hn => hnot (hshortest.mp ⟨n, hn⟩), fun n hn => hnot (hlongest.mp ⟨n, hn⟩)⟩
  · obtain ⟨hready, -⟩ := (examine_nested_iff (by decide) _ _).mp ⟨report, notes, h⟩
    obtain ⟨t, ht⟩ := hready.named _ List.mem_cons_self (Nat.zero_le 1)
    cases ht
  · obtain ⟨-, hfloat⟩ := (examine_nested_iff (by decide) _ _).mp ⟨report, notes, h⟩
    obtain ⟨x, hx⟩ := hfloat (neg_ne_zero.mpr (pow_ne_zero 400 (by decide)))
    cases (Document.floatOf_tooLarge (by decide +kernel)).symm.trans hx

end Questionnaire
