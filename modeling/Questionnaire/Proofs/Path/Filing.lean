/-
# The path that a response is filed under

A response is filed under the path that equals its trace, which are the opened
blocks that a question which counts was shown of, or else under the only path
that holds the trace. The respondent took one of the paths, and it holds the
trace, so filing can only go wrong when an opened block has left no trace: then
another path may equal the trace, or hold it as well.

Key definition: `Traversal.LeavesTrace`.
Key theorems: `Survey.pairwise_paths`, `Traversal.Sound.pathOf_eq_ok`,
`Traversal.files_response`.
-/
import Questionnaire.Proofs.Traversal.Respondent

namespace Questionnaire

/-! ### Paths that are told apart -/

namespace Path

theorem mem_of_distinct {b : Block} : ∀ {p : Path}, b ∈ p.distinct → b ∈ p
  | [], h => h
  | c :: p, h => by
    rw [distinct] at h
    split at h
    · exact List.mem_cons_of_mem c (mem_of_distinct h)
    · rcases List.mem_cons.mp h with rfl | h
      · exact List.mem_cons_self
      · exact List.mem_cons_of_mem c (mem_of_distinct h)

theorem exists_distinct {b : Block} : ∀ {p : Path}, b ∈ p → ∃ c ∈ p.distinct, c.key = b.key
  | c :: p, h => by
    rw [distinct]
    split
    · rename_i hhas
      rcases List.mem_cons.mp h with rfl | h
      · obtain ⟨d, hd, hkey⟩ := List.any_eq_true.mp hhas
        obtain ⟨e, he, hsame⟩ := exists_distinct hd
        exact ⟨e, he, hsame.trans (by simpa using hkey)⟩
      · exact exists_distinct h
    · rcases List.mem_cons.mp h with rfl | h
      · exact ⟨b, List.mem_cons_self, rfl⟩
      · obtain ⟨d, hd, hkey⟩ := exists_distinct h
        exact ⟨d, List.mem_cons_of_mem c hd, hkey⟩

/-- Paths that are told apart do not all equal the same one, unless there is but one of them. -/
theorem eq_singleton {paths : List Path} {p : Path} (h : paths.Pairwise fun p q => p.equal q = false)
    (hne : paths ≠ []) (hall : ∀ q ∈ paths, q.equal p = true) : ∃ q, paths = [q] := by
  match paths with
  | [] => exact absurd rfl hne
  | [q] => exact ⟨q, rfl⟩
  | q :: r :: rest =>
    have hdiffer := (List.pairwise_cons.mp h).1 r List.mem_cons_self
    have hr := hall r (List.mem_cons_of_mem q List.mem_cons_self)
    rw [equal_trans (hall q List.mem_cons_self) (equal_symm hr)] at hdiffer
    cases hdiffer

end Path

namespace Survey

/-- Paths that are told apart stay so when those of a list are added unless they are known. -/
theorem pairwise_of_foldl_distinct : ∀ (paths acc : List Path),
    acc.Pairwise (fun p q => p.equal q = false) →
      (paths.foldl (fun acc p => if acc.any p.equal then acc else acc ++ [p]) acc).Pairwise
        fun p q => p.equal q = false
  | [], _, h => h
  | q :: paths, acc, h => by
    rw [List.foldl_cons]
    refine pairwise_of_foldl_distinct paths _ ?_
    by_cases hq : acc.any q.equal = true
    · rwa [if_pos hq]
    · rw [if_neg hq]
      refine List.pairwise_append.mpr ⟨h, List.pairwise_singleton _ _, fun p hp q' hq' => ?_⟩
      obtain rfl := List.mem_singleton.mp hq'
      have hnot : ¬q'.equal p = true := fun heq => hq (List.any_eq_true.mpr ⟨p, hp, heq⟩)
      exact Bool.eq_false_iff.mpr fun heq => hnot (Path.equal_symm heq)

/-- No two of the paths have the same blocks. -/
theorem pairwise_paths {s : Survey} {paths : List Path} (h : s.paths = .ok paths) :
    paths.Pairwise fun p q => p.equal q = false := by
  unfold Survey.paths at h
  cases hfound : s.fixedChains with
  | error fault => simp [hfound, Except.map] at h
  | ok found =>
    simp only [hfound, Except.map, Except.ok.injEq] at h
    subst h
    unfold pathsAlong
    split
    · exact List.pairwise_singleton _ _
    · exact pairwise_of_foldl_distinct _ [] .nil

end Survey

/-! ### Matching -/

/-- A set of blocks is matched with a path that equals it or, if there is none, with the only path
that holds it. -/
theorem matchPath_cases (paths : List Path) (traversed : Path) :
    (∃ p ∈ paths, p.equal traversed = true ∧ matchPath paths traversed = .ok p) ∨
    (∀ p ∈ paths, p.equal traversed = false) ∧
      ((∃ p, paths.filter traversed.within = [p] ∧ matchPath paths traversed = .ok p) ∨
        (∀ p, paths.filter traversed.within ≠ [p]) ∧
          ∃ fault, matchPath paths traversed = .error fault) := by
  unfold matchPath
  cases hfind : paths.find? (·.equal traversed) with
  | some p => exact .inl ⟨p, List.mem_of_find?_eq_some hfind, by simpa using List.find?_some hfind, rfl⟩
  | none =>
    refine .inr ⟨fun p hp => by simpa using List.find?_eq_none.mp hfind p hp, ?_⟩
    match paths.filter traversed.within with
    | [] =>
      refine .inr ⟨by simp, ?_⟩
      dsimp only
      cases traversed.ids with
      | error fault => exact ⟨fault, rfl⟩
      | ok ids =>
        cases htexts : ids.mapM (·.text) with
        | error fault => exact ⟨fault, by simp [htexts, bind, Except.bind]⟩
        | ok texts =>
          exact ⟨.noPathHolds (", ".intercalate texts), by simp [htexts, bind, Except.bind]⟩
    | [p] => exact .inl ⟨p, rfl, rfl⟩
    | p :: q :: rest =>
      refine .inr ⟨by simp, ?_⟩
      dsimp only
      cases traversed.ids with
      | error fault => exact ⟨fault, rfl⟩
      | ok ids => exact ⟨_, rfl⟩

section Taken

variable {paths : List Path} {traversed taken : Path}
  (htaken : ∃ p ∈ paths, p.equal taken = true) (hwithin : traversed.within taken = true)

include htaken hwithin

/-- The path that was taken is one of those that hold what was traversed. -/
theorem exists_filter_within : ∃ p ∈ paths.filter traversed.within, p.equal taken = true := by
  obtain ⟨p, hp, hequal⟩ := htaken
  have hholds := Path.within_trans hwithin (Path.equal_iff.mp hequal).2
  exact ⟨p, List.mem_filter.mpr ⟨hp, hholds⟩, hequal⟩

/-- What was traversed is matched with a path that equals it or with the one that was taken. -/
theorem equal_of_matchPath {p : Path} (h : matchPath paths traversed = .ok p) :
    p ∈ paths ∧ (p.equal taken = true ∨ p.equal traversed = true) := by
  rcases matchPath_cases paths traversed with ⟨q, hq, hexact, hmatch⟩ |
    ⟨-, ⟨q, hfilter, hmatch⟩ | ⟨-, fault, hmatch⟩⟩
  all_goals cases h.symm.trans hmatch
  · exact ⟨hq, .inr hexact⟩
  · obtain ⟨known, hknown, hequal⟩ := exists_filter_within htaken hwithin
    have hmem := (List.mem_filter.mp hknown).1
    rw [hfilter] at hknown
    obtain rfl := List.mem_singleton.mp hknown
    exact ⟨hmem, .inl hequal⟩

/-- What was traversed is not matched only if no path equals it and one that was not taken holds
it. -/
theorem exists_of_matchPath_error {fault : Fault} (h : matchPath paths traversed = .error fault)
    (hpaths : paths.Pairwise fun p q => p.equal q = false) :
    (∀ p ∈ paths, p.equal traversed = false) ∧
      ∃ p ∈ paths, traversed.within p = true ∧ p.equal taken = false := by
  rcases matchPath_cases paths traversed with ⟨q, -, -, hmatch⟩ |
    ⟨hnone, ⟨q, -, hmatch⟩ | ⟨hmany, -⟩⟩
  · cases h.symm.trans hmatch
  · cases h.symm.trans hmatch
  · refine ⟨hnone, ?_⟩
    by_contra hall
    obtain ⟨known, hknown, -⟩ := exists_filter_within htaken hwithin
    obtain ⟨p, hp⟩ := Path.eq_singleton (hpaths.filter traversed.within)
      (List.ne_nil_of_mem hknown) fun p hp => by
        obtain ⟨hmem, hholds⟩ := List.mem_filter.mp hp
        by_contra hother
        exact hall ⟨p, hmem, hholds, by simpa using hother⟩
    exact hmany p hp

/-- **What was traversed is matched with the path that was taken** exactly if they are equal, or if
no path equals what was traversed and none but the one that was taken holds it. -/
theorem matchPath_eq_iff (hpaths : paths.Pairwise fun p q => p.equal q = false) :
    (∃ p, matchPath paths traversed = .ok p ∧ p.equal taken = true) ↔
      taken.within traversed = true ∨ (∀ p ∈ paths, p.equal traversed = false) ∧
        ∀ p ∈ paths, traversed.within p = true → p.equal taken = true := by
  constructor
  · rintro ⟨p, hmatch, hequal⟩
    rcases matchPath_cases paths traversed with ⟨q, -, hexact, hmatch'⟩ |
      ⟨hnone, ⟨q, hfilter, hmatch'⟩ | ⟨-, fault, hmatch'⟩⟩
    all_goals cases hmatch.symm.trans hmatch'
    · exact .inl (Path.equal_iff.mp (Path.equal_trans (Path.equal_symm hequal) hexact)).1
    · refine .inr ⟨hnone, fun q hq hholds => ?_⟩
      have hother : q ∈ paths.filter traversed.within := List.mem_filter.mpr ⟨hq, hholds⟩
      rw [hfilter] at hother
      exact List.mem_singleton.mp hother ▸ hequal
  · intro h
    cases hmatch : matchPath paths traversed with
    | ok p =>
      refine ⟨p, rfl, ?_⟩
      obtain ⟨hp, hequal | hexact⟩ := equal_of_matchPath htaken hwithin hmatch
      · exact hequal
      · rcases h with hback | ⟨hnone, -⟩
        · exact Path.equal_trans hexact (Path.equal_iff.mpr ⟨hwithin, hback⟩)
        · rw [hnone p hp] at hexact
          cases hexact
    | error fault =>
      obtain ⟨hnone, p, hp, hholds, hother⟩ :=
        exists_of_matchPath_error htaken hwithin hmatch hpaths
      exfalso
      rcases h with hback | ⟨-, honly⟩
      · obtain ⟨known, hknown, hequal⟩ := htaken
        have hexact := Path.equal_trans hequal (Path.equal_iff.mpr ⟨hback, hwithin⟩)
        rw [hnone known hknown] at hexact
        cases hexact
      · rw [honly p hp hholds] at hother
        cases hother

end Taken

/-! ### The trace of a run -/

namespace Traversal

variable {s : Survey} {t : Traversal} {order : List Block} {c : Course}

/-- A question in or under the block that counts was shown. -/
def LeavesTrace (t : Traversal) (b : Block) : Prop :=
  ∃ shown ∈ t.shown, shown.question ∈ b.allQuestions ∧ shown.question.isCustom = false

/-- The path of a response has the opened blocks that left a trace. -/
theorem Sound.pathOf_eq_ok (h : t.Sound s order c) (hs : s.Coherent) (hcomplete : t.Complete)
    {r : Response} (hr : r.answers = t.answers) :
    ∃ trace, s.pathOf r = .ok trace ∧ ∀ b, b ∈ trace ↔ b ∈ t.visited ∧ t.LeavesTrace b := by
  have howner : ∀ a ∈ r.counted, ∃ b, s.farthest a.question = .ok b ∧ b ∈ t.visited ∧
      t.LeavesTrace b := by
    intro a ha
    obtain ⟨hanswer, hcounts⟩ := List.mem_filter.mp ha
    obtain ⟨shown, hshown, heq⟩ := h.answered a (hr ▸ hanswer)
    obtain ⟨b, hb, hq⟩ := h.owner hshown
    refine ⟨b, hs.farthest_eq (h.mem_of_visited hb) (heq ▸ hq), hb, shown, hshown, hq, ?_⟩
    simpa [heq] using hcounts
  obtain ⟨blocks, hblocks⟩ := @mapM_succeeds _ _ (fun a : Answer => s.farthest a.question) _
    fun a ha => let ⟨b, hb, _⟩ := howner a ha; ⟨b, hb⟩
  have hall := forall₂_of_mapM hblocks
  have hmem : ∀ b ∈ blocks, b ∈ t.visited ∧ t.LeavesTrace b := by
    intro b hb
    obtain ⟨a, ha, hfarthest⟩ := exists_of_mem_right hall hb
    obtain ⟨b', hb', hvisited⟩ := howner a ha
    cases hfarthest.symm.trans hb'
    exact hvisited
  refine ⟨Path.distinct blocks, bind_eq_ok.mpr ⟨blocks, hblocks, rfl⟩, fun b => ?_⟩
  constructor
  · exact fun hb => hmem b (Path.mem_of_distinct hb)
  · rintro ⟨hb, shown, hshown, hq, hcounts⟩
    obtain ⟨a, ha, heq, -⟩ := hcomplete.answered shown hshown
    have hcounted : a ∈ r.counted := List.mem_filter.mpr ⟨hr ▸ ha, by simp [heq, hcounts]⟩
    obtain ⟨b', hb', hfarthest⟩ := exists_of_mem_right hall.flip hcounted
    rw [heq, hs.farthest_eq (h.mem_of_visited hb) hq] at hfarthest
    cases hfarthest
    obtain ⟨d, hd, hkey⟩ := Path.exists_distinct hb'
    have hdmem := h.mem_of_visited (hmem d (Path.mem_of_distinct hd)).1
    exact hs.block_unique hdmem (h.mem_of_visited hb) hkey ▸ hd

/-- The trace holds all opened blocks exactly if each of them has left one. -/
theorem Sound.visited_within_iff (h : t.Sound s order c) (hs : s.Coherent) {trace : Path}
    (htrace : ∀ b, b ∈ trace ↔ b ∈ t.visited ∧ t.LeavesTrace b) :
    Path.within t.visited trace = true ↔ ∀ b ∈ t.visited, t.LeavesTrace b := by
  rw [Path.within_iff]
  constructor
  · intro hall b hb
    obtain ⟨d, hd, hkey⟩ := hall b hb
    obtain ⟨hvisited, hleaves⟩ := (htrace d).mp hd
    have hsame := hs.block_unique (h.mem_of_visited hvisited) (h.mem_of_visited hb) hkey
    exact hsame ▸ hleaves
  · exact fun hall b hb => ⟨b, (htrace b).mpr ⟨hb, hall b hb⟩, rfl⟩

/-! ### Filing -/

/-- **Which path the response of a respondent with a habit is filed under.** If no branching
question is in or under a block of variants, the respondent gets to the end whenever the blocks can
be put in order and all choices be looked up, and paths are found if the choices of the branching
questions can be looked up. The response is filed under the path that was taken exactly if every
opened block left a trace in it, or if no path equals the trace and the one that was taken is the
only one that holds it. Otherwise it is filed under a path that equals the trace, or refused
because another path holds the trace too. -/
theorem files_response {origin : Nat} {d : Document} (hread : Survey.ofDocument origin d = .ok s)
    (hv : s.Valid) (hplain : ∀ b ∈ s.allBlocks, b.paradigm = .all → b.branchQuestions = [])
    (habit : Habit) (id : Document) (g : Gen) :
    ((∃ sorted, sortBlocks s.blocks = .ok sorted) →
      (∀ q ∈ s.questions, ∀ choice ∈ q.choices, choice.isKey = true) →
      ∃ t g', respond s (fun shown g => .ok (habit.choose shown g)) g = .ok (t, g')) ∧
    ∀ t g', respond s (fun shown g => .ok (habit.choose shown g)) g = .ok (t, g') →
      habit.respond s id g = .ok ({ t.response id with known := .no }, g') ∧
      ((∀ q ∈ s.questions, q.isBranch = true → ∀ choice ∈ q.choices, choice.isKey = true) →
        ∃ paths, s.paths = .ok paths) ∧
      ∃ trace, s.pathOf { t.response id with known := .no } = .ok trace ∧
        (∀ b, b ∈ trace ↔ b ∈ t.visited ∧ t.LeavesTrace b) ∧
        ∀ paths, s.paths = .ok paths →
          ((∃ p, matchPath paths trace = .ok p ∧ p.equal t.visited = true) ↔
            (∀ b ∈ t.visited, t.LeavesTrace b) ∨ (∀ p ∈ paths, p.equal trace = false) ∧
              ∀ p ∈ paths, trace.within p = true → p.equal t.visited = true) ∧
          (∀ p, matchPath paths trace = .ok p → p.equal t.visited = true ∨ p.equal trace = true) ∧
          (∀ fault, matchPath paths trace = .error fault →
            (∀ p ∈ paths, p.equal trace = false) ∧
              ∃ p ∈ paths, trace.within p = true ∧ p.equal t.visited = false) := by
  have hs := Survey.coherent_of_ofDocument hread
  refine ⟨fun hsorted hkeys => habit.run_succeeds hs hv hsorted hkeys g, fun t g' hrun => ?_⟩
  obtain ⟨hprompt, hdone, hcomplete⟩ := Habit.run_of_respond hs hv hrun
  obtain ⟨order, c, -, hsound, -⟩ := hprompt.invariant hs hv
  obtain ⟨-, hpath, hfound⟩ := takes_path hread hv hplain hprompt hdone hcomplete.toAnswered
  obtain ⟨trace, hpathOf, htrace⟩ :=
    hsound.pathOf_eq_ok hs hcomplete (show ({ t.response id with known := .no } : Response).answers =
      t.answers from rfl)
  refine ⟨?_, ?_, trace, hpathOf, htrace, fun paths hpaths => ?_⟩
  · unfold Habit.respond
    rw [hrun]
    rfl
  · intro hkeys
    obtain ⟨-, paths, -, hpaths⟩ := hfound hkeys
    exact ⟨paths, hpaths⟩
  · have htaken := hpath paths hpaths
    have hwithin := Path.within_of_subset fun b hb => ((htrace b).mp hb).1
    have hapart := Survey.pairwise_paths hpaths
    refine ⟨?_, fun p hp => (equal_of_matchPath htaken hwithin hp).2,
      fun fault hfault => exists_of_matchPath_error htaken hwithin hfault hapart⟩
    rw [matchPath_eq_iff htaken hwithin hapart, hsound.visited_within_iff hs htrace]

/-! ### A fork around a question that may not count -/

/-- The question with one choice; it counts or does not. -/
def forkMiddle (custom : Bool) : Question :=
  { plainQuestion 1 "2" [plainChoice "more"] [] with custom := .bool custom }

/-- The traversal of a respondent who always takes the first choice. -/
def forkLong (custom : Bool) : Traversal where
  survey := Survey.fork (forkMiddle custom)
  gen := ⟨15755400384260043839⟩
  blocks := []
  questions := []
  pending := none
  shown := [forkShown, ⟨forkMiddle custom, [⟨plainChoice "more", .int 0⟩], 1⟩,
    ⟨Survey.forkLast, [⟨plainChoice "last", .int 0⟩], 2⟩]
  answers := [⟨Survey.forkFirst, [⟨plainChoice "long", .int 0⟩], .int 0⟩,
    ⟨forkMiddle custom, [⟨plainChoice "more", .int 0⟩], .int 1⟩,
    ⟨Survey.forkLast, [⟨plainChoice "last", .int 0⟩], .int 2⟩]
  visited := (Survey.fork (forkMiddle custom)).blocks

theorem respond_fork (custom : Bool) :
    respond (Survey.fork (forkMiddle custom)) (fun shown g => .ok (Habit.first.choose shown g)) ⟨0⟩ =
      .ok (forkLong custom, ⟨15755400384260043839⟩) := by
  have hvalid : (Survey.fork (forkMiddle custom)).Valid := by
    cases custom <;> decide
  have hfinish : finishWithin (fun shown g => .ok (Habit.first.choose shown g)) 3
      (forkOpen (forkMiddle custom)) = some (forkLong custom) := by
    cases custom <;> cbv
  refine bind_eq_ok.mpr ⟨_, start_fork hvalid, ?_⟩
  dsimp only
  rw [finish_of_finishWithin hfinish]
  rfl

theorem files_response_fork : Survey.ofDocument 0 (forkDocument Survey.moreFields) =
      .ok (Survey.fork Survey.more) ∧ (Survey.fork Survey.more).Valid ∧
    (∀ b ∈ (Survey.fork Survey.more).allBlocks, b.paradigm = .all → b.branchQuestions = []) ∧
    Habit.first.respond (Survey.fork Survey.more) (.str "sr0") ⟨0⟩ =
      .ok ({ (forkLong false).response (.str "sr0") with known := .no }, ⟨15755400384260043839⟩) ∧
    ∃ trace paths p, (Survey.fork Survey.more).paths = .ok paths ∧
      (Survey.fork Survey.more).pathOf
        { (forkLong false).response (.str "sr0") with known := .no } = .ok trace ∧
      matchPath paths trace = .ok p ∧ p.equal (forkLong false).visited = true := by
  have hplain : ∀ b ∈ (Survey.fork Survey.more).allBlocks, b.paradigm = .all →
      b.branchQuestions = [] := by decide
  obtain ⟨-, hfiled⟩ := files_response Survey.ofDocument_fork Survey.fork_valid hplain .first
    (.str "sr0") ⟨0⟩
  obtain ⟨hresponse, hfound, trace, hpathOf, -, hmatch⟩ := hfiled _ _ (respond_fork false)
  obtain ⟨paths, hpaths⟩ := hfound (by decide)
  -- each of the three blocks has shown its question
  have hown : ∀ index id q, q ∈ (plainBlock index id q).allQuestions := by
    intro index id q
    rw [Block.allQuestions_eq]
    exact List.mem_append_left _ (List.mem_singleton_self q)
  have hleaves : ∀ b ∈ (forkLong false).visited, (forkLong false).LeavesTrace b := by
    intro b hb
    simp only [forkLong, Survey.fork, List.mem_cons, List.not_mem_nil, or_false] at hb
    rcases hb with rfl | rfl | rfl
    · exact ⟨forkShown, List.mem_cons_self, hown _ _ _, rfl⟩
    · exact ⟨_, List.mem_cons_of_mem _ List.mem_cons_self, hown _ _ _, rfl⟩
    · exact ⟨_, List.mem_cons_of_mem _ (List.mem_cons_of_mem _ List.mem_cons_self), hown _ _ _, rfl⟩
  obtain ⟨p, hp, hequal⟩ := (hmatch paths hpaths).1.mpr (.inl hleaves)
  exact ⟨Survey.ofDocument_fork, Survey.fork_valid, hplain, hresponse, trace, paths, p, hpaths,
    hpathOf, hp, hequal⟩

/-- The fields of a question that does not count. -/
def customFields : List (String × Document) :=
  [("custom", .bool true), ("options", .list [choiceEntry "more"])]

/-- The path around the question. -/
def forkAround : Path := [plainBlock 0 "1" Survey.forkFirst, plainBlock 2 "3" Survey.forkLast]

/-- A response that went through all blocks is filed under the path around the question that does
not count. -/
theorem custom_misfiled : Survey.ofDocument 0 (forkDocument customFields) =
      .ok (Survey.fork (forkMiddle true)) ∧ (Survey.fork (forkMiddle true)).Valid ∧
    (∀ b ∈ (Survey.fork (forkMiddle true)).allBlocks, b.paradigm = .all → b.branchQuestions = []) ∧
    respond (Survey.fork (forkMiddle true)) (fun shown g => .ok (Habit.first.choose shown g)) ⟨0⟩ =
      .ok (forkLong true, ⟨15755400384260043839⟩) ∧
    ∃ r trace paths p, Habit.first.respond (Survey.fork (forkMiddle true)) (.str "sr0") ⟨0⟩ =
        .ok (r, ⟨15755400384260043839⟩) ∧ r.counted ≠ [] ∧
      (Survey.fork (forkMiddle true)).paths = .ok paths ∧
      (Survey.fork (forkMiddle true)).pathOf r = .ok trace ∧
      matchPath paths trace = .ok p ∧ p.equal (forkLong true).visited = false := by
  have hread : Survey.ofDocument 0 (forkDocument customFields) =
      .ok (Survey.fork (forkMiddle true)) := by
    unfold Survey.ofDocument
    rw [@readBlocks_leaves 0 (forkDocument customFields) [_, _, _] (by cbv) (by cbv)]
    cbv
  have hresponse : Habit.first.respond (Survey.fork (forkMiddle true)) (.str "sr0") ⟨0⟩ =
      .ok ({ (forkLong true).response (.str "sr0") with known := .no }, ⟨15755400384260043839⟩) := by
    unfold Habit.respond
    rw [respond_fork true]
    rfl
  refine ⟨hread, by decide, by decide, respond_fork true, _, forkAround,
    [(Survey.fork (forkMiddle true)).blocks, forkAround], forkAround, hresponse, ?_, ?_, ?_, ?_, ?_⟩
  · exact List.cons_ne_nil _ _
  · cbv
  · rfl
  · cbv
  · cbv

end Traversal

end Questionnaire
