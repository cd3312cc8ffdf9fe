/-
# Unreachable blocks

A report lists the fixed blocks that are on no path, and a path runs to the end.
In a valid survey a block that branches has a destination that comes later, so
from each of the fixed blocks there is a way to the end, and those on no path
are those that one cannot get to from the first.

Key definitions: `Block.LeadsTo`, `Block.Reached`.
Key theorems: `Survey.exists_way`, `Survey.has_path_iff_reached`,
`Survey.examine_unreachable`, `Survey.unreachable_iff_not_reached`.
-/
import Questionnaire.Proofs.Analysis.Report
import Questionnaire.Proofs.Path.Ways

namespace Questionnaire

open Relation

/-- Among the blocks one leads to the other: to a destination, or to the next block if it has that
exit. -/
def Block.LeadsTo (fixed : List Block) (b c : Block) : Prop :=
  b ∈ fixed ∧ c ∈ fixed ∧ b.HasExit (some c.key) ∨ [b, c] <:+: fixed ∧ b.HasExit none

/-- One can get to the block from the first of the blocks. -/
def Block.Reached (fixed : List Block) (b : Block) : Prop :=
  ∃ first, fixed.head? = some first ∧ ReflTransGen (Block.LeadsTo fixed) first b

/-! ### Ways to the end -/

namespace Survey

variable {s : Survey} {sorted rest : List Block} {b c : Block} {paths : List Path}

/-- Of a valid survey destinations come later, so the blocks lead to where one may go on from
them. -/
theorem leadsTo_iff_mayGoTo (hs : s.Coherent) (hv : s.Valid)
    (hsorted : sortBlocks s.fixedBlocks = .ok sorted) :
    b.LeadsTo sorted c ↔ b.MayGoTo sorted c := by
  have hperm := inNaturalOrder_perm hsorted
  have hblock : ∀ {d}, d ∈ sorted → d ∈ s.blocks := fun hd =>
    List.mem_of_mem_filter (hperm.mem_iff.mp hd)
  constructor
  · rintro (⟨hb, hc, hdest⟩ | ⟨⟨before, after, hsplit⟩, hnext⟩)
    · obtain ⟨before, rest, rfl⟩ := List.append_of_mem hb
      obtain ⟨d, hd, hsame⟩ :=
        (leadsAhead_of_destination hs hv (hblock hb) hdest).after hsorted rfl
      obtain rfl : d = c := hs.block_unique
        (hblock (List.mem_append_right _ (List.mem_cons_of_mem _ hd))) (hblock hc) hsame
      obtain ⟨mid, after, rfl⟩ := List.append_of_mem hd
      exact ⟨mid, after, ⟨before, rfl⟩, .inr hdest⟩
    · exact ⟨[], after, ⟨before, by simpa using hsplit⟩, .inl ⟨rfl, hnext⟩⟩
  · rintro ⟨mid, after, ⟨before, rfl⟩, ⟨rfl, hnext⟩ | hdest⟩
    · exact .inr ⟨⟨before, after, by simp⟩, hnext⟩
    · exact .inl ⟨by simp, by simp, hdest⟩

/-- **From each of the fixed blocks of a valid survey there is a way to the end.** A block that
branches is left to a destination that comes later, and one that does not to the next block. -/
theorem exists_way (hs : s.Coherent) (hv : s.Valid)
    (hsorted : sortBlocks s.fixedBlocks = .ok sorted) {b : Block} {rest : List Block}
    (hsuffix : b :: rest <:+ sorted) : ∃ way, IsWay sorted b way := by
  obtain ⟨before, hsplit⟩ := hsuffix
  have hstep : ∀ mid c after, rest = mid ++ c :: after →
      (mid = [] ∧ b.HasExit none ∨ b.HasExit (some c.key)) → ∃ way, IsWay sorted b way := by
    intro mid c after hrest hexit
    have hafter : c :: after <:+ sorted := ⟨before ++ b :: mid, by simp [← hsplit, hrest]⟩
    obtain ⟨tail, htail⟩ := exists_way hs hv hsorted hafter
    have hgoes : b.MayGoTo sorted c := ⟨mid, after, ⟨before, hrest ▸ hsplit⟩, hexit⟩
    exact ⟨b :: tail, isWay_iff.mpr (.inr ⟨c, tail, rfl, hgoes, htail⟩)⟩
  cases hbranching : b.isBranching with
  | true =>
    obtain ⟨c, hc, hkey⟩ := exists_destination_after hs hv hsorted hsplit.symm hbranching
    obtain ⟨mid, after, hrest⟩ := List.append_of_mem hc
    exact hstep mid c after hrest (.inr hkey)
  | false =>
    cases rest with
    | nil =>
      refine ⟨[b], isWay_iff.mpr (.inl ⟨rfl, ?_, .inl hbranching⟩)⟩
      rw [← hsplit, List.getLast?_concat]
    | cons c after => exact hstep [] c after rfl (.inl ⟨rfl, .inl hbranching⟩)
termination_by rest.length
decreasing_by
  rw [hrest, List.length_append, List.length_cons]
  omega

/-- A fixed block is on a path if it is on a chain. -/
theorem has_pathAlong_iff (hs : s.Coherent) {chain : List Block} (hchain : chain ⊆ s.fixedBlocks)
    (hb : b ∈ s.fixedBlocks) : Path.has (s.pathAlong chain) b = true ↔ b ∈ chain := by
  obtain ⟨hblock, hfixed⟩ := List.mem_filter.mp hb
  rw [Path.has, List.any_eq_true]
  constructor
  · rintro ⟨c, hc, hkey⟩
    obtain rfl := hs.block_unique (List.mem_of_mem_filter hc) hblock (beq_iff_eq.mp hkey)
    refine ((mem_pathAlong hs hchain).mp hc).resolve_left fun hmoves => ?_
    simp [(List.mem_filter.mp hmoves).2] at hfixed
  · exact fun hmem => ⟨b, (mem_pathAlong hs hchain).mpr (.inr hmem), beq_self_eq_true _⟩

/-- **A fixed block is on a path exactly if one can get to it from the first.** -/
theorem has_path_iff_reached (hs : s.Coherent) (hv : s.Valid) (hpaths : s.paths = .ok paths)
    (hsorted : sortBlocks s.fixedBlocks = .ok sorted) (hb : b ∈ s.fixedBlocks) :
    paths.any (Path.has · b) = true ↔ b.Reached sorted := by
  obtain ⟨sorted', found, hsorted', hfound, -, hunder, rfl⟩ := paths_eq_map hs hpaths
  obtain rfl := Except.ok.inj (hsorted'.symm.trans hsorted)
  have hperm := inNaturalOrder_perm hsorted
  have hkeys : (sorted'.map (·.key)).Nodup := by
    refine (hperm.map _).nodup_iff.mpr (hs.blocks.sublist (List.Sublist.map _ ?_))
    exact List.filter_sublist.trans (Block.sublist_preorders s.blocks)
  have hchain : (found.map s.pathAlong).any (Path.has · b) = true ↔
      ∃ chain ∈ found, b ∈ chain := by
    rw [List.any_map, List.any_eq_true]
    exact exists_congr fun chain =>
      and_congr_right fun hchain => has_pathAlong_iff hs (hunder chain hchain) hb
  have hleads : Block.LeadsTo sorted' = Block.MayGoTo sorted' :=
    funext₂ fun _ _ => propext (leadsTo_iff_mayGoTo hs hv hsorted)
  rw [hchain, Block.Reached, hleads]
  cases sorted' with
  | nil => cases hperm.mem_iff.mpr hb
  | cons first rest =>
    have hways : ∀ way, way ∈ found ↔ IsWay (first :: rest) first way := fun _ =>
      mem_chains_iff hkeys (List.suffix_refl _) hfound
    constructor
    · rintro ⟨chain, hchain, hmem⟩
      exact ⟨first, rfl, ((hways chain).mp hchain).reaches hmem⟩
    · rintro ⟨_, hfirst, hreach⟩
      obtain rfl := Option.some.inj hfirst
      obtain ⟨before, after, hsplit⟩ := List.append_of_mem (hperm.mem_iff.mpr hb)
      obtain ⟨way, hway, hmem⟩ := exists_way_through hreach
        (exists_way hs hv hsorted ⟨before, hsplit.symm⟩)
      exact ⟨way, (hways way).mpr hway, hmem⟩

end Survey

/-! ### What is reported -/

/-- Warnings are all that is added to a report. -/
theorem Report.eq_of_withWarnings {r r' : Report} (h : r.withWarnings = .ok r') :
    ∃ warnings, r' = { r with warnings } := by
  have hone : ∀ {r r' : Report} {text ids}, r.warnAbout text ids = .ok r' →
      ∃ warnings, r' = { r with warnings } := by
    intro r r' text ids h
    obtain ⟨warnings, heq⟩ := r.warnAbout_succeeds text (texts_of_warnAbout h)
    exact ⟨warnings, Except.ok.inj (h.symm.trans heq)⟩
  unfold withWarnings at h
  obtain ⟨_, hfirst, h⟩ := bind_eq_ok.mp h
  obtain ⟨_, hsecond, h⟩ := bind_eq_ok.mp h
  obtain ⟨_, hthird, h⟩ := bind_eq_ok.mp h
  obtain ⟨_, rfl⟩ := hone hfirst
  obtain ⟨_, rfl⟩ := hone hsecond
  obtain ⟨_, rfl⟩ := hone hthird
  obtain rfl := Except.ok.inj h
  unfold warn
  split
  · split
    · exact ⟨_, rfl⟩
    · exact ⟨_, rfl⟩
  · exact ⟨_, rfl⟩

namespace Survey

variable {s : Survey}

/-- A report lists the ids of the blocks that are on no path. -/
theorem examine_unreachable {samples : Document} {g : Gen} {report : Report} {notes : List Note}
    (h : (s.examine samples g).run = (.ok report, notes)) :
    ∃ paths, s.paths = .ok paths ∧ s.unreachableIds paths = .ok report.unreachable := by
  change runFrom [] (s.examine samples g) = _ at h
  unfold examine at h
  obtain ⟨paths, _, hpaths, h⟩ := runFrom_bind_eq_ok h
  obtain ⟨_, _, -, h⟩ := runFrom_bind_eq_ok h
  obtain ⟨⟨tours, g₁⟩, _, -, h⟩ := runFrom_bind_eq_ok h
  dsimp only at h
  split at h
  · obtain ⟨⟨average, _⟩, _, -, h⟩ := runFrom_bind_eq_ok h
    obtain ⟨_, _, -, h⟩ := runFrom_bind_eq_ok h
    obtain ⟨ids, _, hids, h⟩ := runFrom_bind_eq_ok h
    obtain ⟨_, _, -, h⟩ := runFrom_bind_eq_ok h
    obtain ⟨warnings, rfl⟩ := Report.eq_of_withWarnings (congrArg Prod.fst h)
    exact ⟨paths, congrArg Prod.fst hpaths, congrArg Prod.fst hids⟩
  · cases h

/-- Paths are found if all choices can be looked up. -/
theorem paths_succeed (hs : s.Coherent) (hkeys : s.DistinctSortKeys)
    (hlookup : ∀ q ∈ s.questions, ∀ c ∈ q.choices, c.isKey = true) :
    ∃ paths, s.paths = .ok paths := by
  rcases paths_or_refused hkeys with hpaths | ⟨b, hb, -, q, hq, c, hc, hnot⟩
  · exact hpaths
  · have hblock : b ∈ s.blocks := List.mem_of_mem_filter hb
    have hunder := ((hs.mem_branchQuestions (Block.mem_preorders_of_mem hblock)).mp hq).1
    cases hnot.symm.trans (hlookup q (mem_questionsUnder.mpr ⟨b, hblock, hunder⟩) c hc)

/-- A report is made if all choices can be looked up, all blocks can be put in order, the ids it
lists are texts, and the number of respondents it simulates is not too large for a float. -/
theorem examine_succeeds (hs : s.Coherent) (hv : s.Valid) (hkeys : s.DistinctSortKeys)
    (hlookup : ∀ q ∈ s.questions, ∀ c ∈ q.choices, c.isKey = true)
    (hordered : ∀ b ∈ s.allBlocks, ∃ key, b.sortKey = .ok key)
    (hnamed : ∀ q ∈ s.measured, q.choices.length ≤ 1 → ∃ t, q.id.text = .ok t)
    {samples : Document} {n : Int} (hn : samples.whole = .ok n)
    (hfloat : n ≠ 0 → ∃ x, Document.floatOf (.int n) = .ok x) (g : Gen) :
    ∃ report notes, (s.examine samples g).run = (.ok report, notes) := by
  obtain ⟨paths, hpaths⟩ := paths_succeed hs hkeys hlookup
  obtain ⟨_, -, hformed⟩ := wellFormed_paths hs hv hkeys hpaths
  refine (examine_succeeds_iff hs hv hkeys hlookup hpaths hformed.nonempty hn g).mpr
    ⟨⟨fun p hp b hb => ?_, hnamed⟩, hfloat⟩
  obtain ⟨_, found, -, -, -, -, rfl⟩ := paths_eq_map hs hpaths
  obtain ⟨chain, -, rfl⟩ := List.mem_map.mp hp
  obtain ⟨top, htop, hunder⟩ := Block.mem_preorders.mp hb
  exact hordered b (Block.mem_preorders.mpr ⟨top, List.mem_of_mem_filter htop, hunder⟩)

/-- **A report on a valid survey lists the ids of the fixed blocks that one cannot get to from the
first**, by steps to destinations and from blocks that have that exit to the next one. It is made if
all choices can be looked up, all blocks can be put in order, the ids it lists are texts, and the
number of respondents it simulates is not too large for a float. -/
theorem unreachable_iff_not_reached {origin : Nat} {d : Document}
    (hread : Survey.ofDocument origin d = .ok s) (hv : s.Valid) (hkeys : s.DistinctSortKeys) :
    ∃ sorted, sortBlocks s.fixedBlocks = .ok sorted ∧
      (∀ samples g report notes, (s.examine samples g).run = (.ok report, notes) →
        ∀ id, id ∈ report.unreachable ↔
          ∃ b ∈ s.fixedBlocks, b.id = id ∧ ¬b.Reached sorted) ∧
      ((∀ q ∈ s.questions, ∀ c ∈ q.choices, c.isKey = true) →
        (∀ b ∈ s.allBlocks, ∃ key, b.sortKey = .ok key) →
        (∀ q ∈ s.measured, q.choices.length ≤ 1 → ∃ t, q.id.text = .ok t) →
        ∀ samples n, samples.whole = .ok n →
          (n ≠ 0 → ∃ x, Document.floatOf (.int n) = .ok x) →
          ∀ g, ∃ report notes, (s.examine samples g).run = (.ok report, notes)) := by
  have hs := Survey.coherent_of_ofDocument hread
  obtain ⟨sorted, hsorted⟩ := hkeys.sorted_fixed
  refine ⟨sorted, hsorted, fun samples g report notes hreport id => ?_,
    fun hlookup hordered hnamed samples n hn hfloat g =>
      examine_succeeds hs hv hkeys hlookup hordered hnamed hn hfloat g⟩
  obtain ⟨paths, hpaths, hids⟩ := examine_unreachable hreport
  obtain ⟨ids, hids', -, hmem⟩ := unreachableIds_succeeds
    (fun b hb => hkeys.exists_key (List.mem_of_mem_filter hb)) paths
  obtain rfl := Except.ok.inj (hids'.symm.trans hids)
  rw [hmem id]
  refine exists_congr fun b => and_congr_right fun hb => and_congr_right fun _ => not_congr ?_
  exact has_path_iff_reached hs hv hpaths hsorted hb

end Survey

section Detour

open Traversal

/-- The block after the variants of the detour, which are no exit to it, is listed. -/
theorem unreachable_detour : Survey.ofDocument 0 detourDocument = .ok detour ∧ detour.Valid ∧
    detour.DistinctSortKeys ∧
    ∃ report notes, (detour.examine (.int 0) ⟨0⟩).run = (.ok report, notes) ∧
      ∀ id, id ∈ report.unreachable ↔ id = .str "2" := by
  have hv : detour.Valid := by decide
  have hkeys : detour.DistinctSortKeys :=
    ⟨[.numbered [1], .numbered [2], .numbered [3]], by cbv, by decide⟩
  obtain ⟨sorted, hsorted, hlists, hmade⟩ :=
    Survey.unreachable_iff_not_reached ofDocument_detour hv hkeys
  have hordered : ∀ b ∈ detour.allBlocks, ∃ key, b.sortKey = .ok key := by
    have hall : detour.allBlocks.mapM (·.sortKey) =
        .ok [.numbered [1], .numbered [1, 1], .numbered [2], .numbered [3]] := by cbv
    exact fun b hb => exists_of_mapM hall hb
  have hnamed : ∀ q ∈ detour.measured, q.choices.length ≤ 1 → ∃ t, q.id.text = .ok t := by
    have hall : detour.measured.mapM (·.id.text) = .ok ["qa", "qb", "q2", "q3"] := by cbv
    exact fun q hq _ => exists_of_mapM hall hq
  obtain ⟨report, notes, hreport⟩ := hmade (by decide) hordered hnamed (.int 0) 0 rfl
    (fun hzero => absurd rfl hzero) ⟨0⟩
  have hpaths : detour.paths =
      .ok [[aroundBlock, plainBlock 3 "3" (plainQuestion 3 "3" [] [])]] := by cbv
  have hreached := fun b hb => Survey.has_path_iff_reached (b := b)
    (Survey.coherent_of_ofDocument ofDocument_detour) hv hpaths hsorted hb
  refine ⟨ofDocument_detour, hv, hkeys, report, notes, hreport, fun id => ?_⟩
  rw [hlists _ _ _ _ hreport]
  constructor
  · rintro ⟨b, hb, rfl, hnot⟩
    rw [← hreached b hb] at hnot
    have hmem : b ∈ detour.blocks := hb
    simp only [detour, List.mem_cons, List.not_mem_nil, or_false] at hmem
    rcases hmem with rfl | rfl | rfl
    · exact absurd (by decide) hnot
    · rfl
    · exact absurd (by decide) hnot
  · rintro rfl
    have hmem : plainBlock 2 "2" (plainQuestion 2 "2" [] []) ∈ detour.fixedBlocks :=
      List.mem_cons_of_mem _ List.mem_cons_self
    exact ⟨_, hmem, rfl, mt (hreached _ hmem).mpr (by decide)⟩

end Detour

theorem nested_valid (inner question : Document) : (nestedSurvey inner question).Valid := rfl

/-- There is no report to list the blocks if it cannot be told whether one that one gets to falls
through, or if a block under another has a number as its id that is too long. -/
theorem unreachable_not_reported :
    (Survey.ofDocument 0 (forkDocument Traversal.trapFields) = .ok (Survey.fork Traversal.trap) ∧
      (Survey.fork Traversal.trap).Valid ∧ (Survey.fork Traversal.trap).DistinctSortKeys ∧
      ((Survey.fork Traversal.trap).allBlocks.map (·.id)).Nodup ∧
      ∀ samples g report notes,
        ((Survey.fork Traversal.trap).examine samples g).run ≠ (.ok report, notes)) ∧
    Survey.ofDocument 0 (nestedDocument SortKey.longId (.str "q1")) =
        .ok (nestedSurvey SortKey.longId (.str "q1")) ∧
      (nestedSurvey SortKey.longId (.str "q1")).Valid ∧
      (nestedSurvey SortKey.longId (.str "q1")).DistinctSortKeys ∧
      ((nestedSurvey SortKey.longId (.str "q1")).allBlocks.map (·.id)).Nodup ∧
      ∀ n g report notes, ((nestedSurvey SortKey.longId (.str "q1")).examine (.int n) g).run ≠
        (.ok report, notes) := by
  refine ⟨⟨Traversal.ofDocument_trap, by decide,
    ⟨[.numbered [1], .numbered [2], .numbered [3]], by cbv, by decide⟩, ?_, ?_⟩,
    ofDocument_nested _ _, nested_valid _ _, distinct_nested _ _, ?_, ?_⟩
  · have hids : (Survey.fork Traversal.trap).allBlocks.map (·.id) = [.str "1", .str "2", .str "3"] :=
      rfl
    simp [hids]
  · intro samples g report notes h
    obtain ⟨paths, hpaths, -⟩ := Survey.examine_unreachable h
    have hnone : (Survey.fork Traversal.trap).paths = .error .illTyped := by cbv
    cases hnone.symm.trans hpaths
  · have hids : (nestedSurvey SortKey.longId (.str "q1")).allBlocks.map (·.id) =
        [.str "1", SortKey.longId] := rfl
    -- one of them has an order and the other has none
    have hne : Document.str "1" ≠ SortKey.longId := fun heq => by
      cases SortKey.ofId_longId.symm.trans (congrArg SortKey.ofId heq.symm)
    simp [hids, hne]
  · intro n g report notes h
    obtain ⟨hready, -⟩ := (examine_nested_iff (nested_valid _ _) _ _).mp ⟨report, notes, h⟩
    obtain ⟨key, hkey⟩ := hready.ordered _ List.mem_cons_self _
      (List.mem_cons_of_mem _ List.mem_cons_self)
    cases SortKey.ofId_longId.symm.trans hkey

end Questionnaire
