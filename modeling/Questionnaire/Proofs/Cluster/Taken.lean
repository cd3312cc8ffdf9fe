/-
# Points that an empty cluster takes

In a round each label has its turn, and a cluster that is then without points
takes the point that is farthest from its own centre. No other point has the
label at this time, and none gets it later: the point stays alone unless it is
taken again. So a round parts equal points exactly if one of them is taken in
it. Clustering starts every round with labels that are alike for equal points,
and hence only its last round can part them, if the labels did not settle.

Key definitions: `Cluster.IsTaken`, `Cluster.AfterTurns`, `Cluster.TakenLast`.
Key theorems: `Cluster.AfterTurns.turn`, `Cluster.round_parts_iff`,
`Cluster.kmodes_parts_iff`, `Cluster.alone_of_takenLast`.
-/
import Questionnaire.Proofs.Cluster.WellFormed

namespace Questionnaire.Cluster

variable {points before : List Point} {labels : List Nat} {i j : Nat}

/-! ### Turns -/

/-- A round in which only the first labels had their turns. -/
def turns (points before : List Point) (labels : List Nat) (count : Nat) : Except Fault State :=
  (List.range count).foldlM (recentre before points) ⟨labels, before⟩

/-- The place of the point that is farthest from its own centre. -/
def farthest (points before : List Point) (s : State) : Nat :=
  greatestPlace (ownDistances before points s.labels)

/-- In the turn of a label its cluster is without points and takes the one at a place. -/
def Takes (points before : List Point) (labels : List Nat) (label place : Nat) : Prop :=
  ∃ s, turns points before labels label = .ok s ∧ s.members points label = [] ∧
    place = farthest points before s

/-- The point at a place was taken in one of the first turns. -/
def TakenWithin (points before : List Point) (labels : List Nat) (count place : Nat) : Prop :=
  ∃ label < count, Takes points before labels label place

/-- The point at a place is taken in the round. -/
def IsTaken (points before : List Point) (labels : List Nat) (place : Nat) : Prop :=
  TakenWithin points before labels before.length place

theorem turns_succ (points before : List Point) (labels : List Nat) (count : Nat) :
    turns points before labels (count + 1) =
      turns points before labels count >>= fun s => recentre before points s count := by
  unfold turns
  rw [List.range_succ, List.foldlM_append]
  refine bind_congr fun s => ?_
  rw [List.foldlM_cons]
  exact bind_pure _

theorem takenWithin_succ {count : Nat} {s : State}
    (hturns : turns points before labels count = .ok s) (place : Nat) :
    TakenWithin points before labels (count + 1) place ↔
      TakenWithin points before labels count place ∨
        (s.members points count = [] ∧ place = farthest points before s) := by
  unfold TakenWithin
  constructor
  · rintro ⟨label, hlabel, htakes⟩
    rcases Nat.lt_succ_iff_lt_or_eq.mp hlabel with hlt | rfl
    · exact .inl ⟨label, hlt, htakes⟩
    · obtain ⟨s', hs', hnone, hplace⟩ := htakes
      cases hturns.symm.trans hs'
      exact .inr ⟨hnone, hplace⟩
  · rintro (⟨label, hlt, htakes⟩ | ⟨hnone, hplace⟩)
    · exact ⟨label, Nat.lt_succ_of_lt hlt, htakes⟩
    · exact ⟨count, Nat.lt_succ_self count, s, hturns, hnone, hplace⟩

/-! ### What turns keep -/

/-- After the first turns a point that was not taken has its label as before, and one that was
taken is alone with a label that had its turn. -/
structure AfterTurns (points before : List Point) (labels : List Nat) (count : Nat) (s : State) :
    Prop where
  labelled : s.labels.length = points.length
  kept : ∀ i, ¬TakenWithin points before labels count i → s.labels[i]? = labels[i]?
  alone : ∀ i, TakenWithin points before labels count i →
    ∃ label < count, s.labels[i]? = some label ∧ ∀ j, s.labels[j]? = some label → j = i

/-- In the turn of a label that has points nothing changes but its centre. -/
theorem labels_of_members {s s' : State} {label : Nat} (hsome : s.members points label ≠ [])
    (h : recentre before points s label = .ok s') : s'.labels = s.labels := by
  unfold recentre at h
  split at h
  · contradiction
  · split at h <;> cases h
    rfl

theorem recentre_of_none {s : State} {label : Nat} (hnone : s.members points label = []) :
    recentre before points s label = .ok ⟨s.labels.set (farthest points before s) label,
      s.centres.set label (points.getD (farthest points before s) [])⟩ := by
  unfold recentre
  rw [hnone]
  rfl

theorem farthest_lt (hne : points ≠ []) {s : State} (h : s.labels.length = points.length) :
    farthest points before s < points.length := by
  have hlength : (ownDistances before points s.labels).length = points.length := by
    simp [ownDistances, h]
  have hsome : ownDistances before points s.labels ≠ [] := by
    rw [← List.length_pos_iff, hlength]
    exact List.length_pos_iff.mpr hne
  exact hlength ▸ greatestPlace_lt hsome

/-- No point has a label without members. -/
theorem ne_of_members_eq_nil {s : State} {label : Nat} (h : s.labels.length = points.length)
    (hnone : s.members points label = []) (j : Nat) : s.labels[j]? ≠ some label := by
  intro hj
  have hlt : j < points.length := h ▸ (List.getElem?_eq_some_iff.mp hj).1
  have hmem := mem_members_of_getElem hlt hj
  rw [hnone] at hmem
  exact List.not_mem_nil hmem

theorem AfterTurns.turn (hne : points ≠ []) {count : Nat} {s s' : State}
    (h : AfterTurns points before labels count s)
    (hturns : turns points before labels count = .ok s)
    (hstep : recentre before points s count = .ok s') :
    AfterTurns points before labels (count + 1) s' := by
  by_cases hnone : s.members points count = []
  case neg =>
    have hsame := labels_of_members hnone hstep
    have htaken (i : Nat) : TakenWithin points before labels (count + 1) i ↔
        TakenWithin points before labels count i := by
      rw [takenWithin_succ hturns, or_iff_left fun h => hnone h.1]
    refine ⟨hsame ▸ h.labelled, fun i hi => ?_, fun i hi => ?_⟩
    · rw [hsame, h.kept i (mt (htaken i).mpr hi)]
    · obtain ⟨label, hlt, hlabel, halone⟩ := h.alone i ((htaken i).mp hi)
      exact ⟨label, Nat.lt_succ_of_lt hlt, hsame ▸ hlabel, hsame ▸ halone⟩
  case pos =>
    have hfar : farthest points before s < points.length := farthest_lt hne h.labelled
    have hnew := ne_of_members_eq_nil h.labelled hnone
    cases hstep.symm.trans (recentre_of_none hnone)
    have hset (j : Nat) : (s.labels.set (farthest points before s) count)[j]? =
        if farthest points before s = j then some count else s.labels[j]? := by
      rw [List.getElem?_set, if_pos (h.labelled.symm ▸ hfar : _ < s.labels.length)]
    refine ⟨by rw [List.length_set, h.labelled], fun i hi => ?_, fun i hi => ?_⟩
    · rw [takenWithin_succ hturns, not_or] at hi
      rw [hset, if_neg fun heq => hi.2 ⟨hnone, heq.symm⟩, h.kept i hi.1]
    · by_cases heq : farthest points before s = i
      · -- the point that is taken has the label that no other point has
        refine ⟨count, Nat.lt_succ_self count, by rw [hset, if_pos heq], fun j hj => ?_⟩
        by_contra hji
        rw [hset, if_neg fun heq' => hji (heq'.symm.trans heq)] at hj
        exact hnew j hj
      · have hearlier : TakenWithin points before labels count i := by
          rcases (takenWithin_succ hturns i).mp hi with hearlier | ⟨-, hplace⟩
          · exact hearlier
          · exact absurd hplace.symm heq
        obtain ⟨label, hlt, hlabel, halone⟩ := h.alone i hearlier
        refine ⟨label, Nat.lt_succ_of_lt hlt, by rw [hset, if_neg heq, hlabel], fun j hj => ?_⟩
        rw [hset] at hj
        by_cases hplace : farthest points before s = j
        · rw [if_pos hplace, Option.some_inj] at hj
          omega
        · rw [if_neg hplace] at hj
          exact halone j hj

theorem afterTurns (hne : points ≠ []) (hlabels : labels.length = points.length) :
    ∀ (count : Nat) {s : State}, turns points before labels count = .ok s →
      AfterTurns points before labels count s
  | 0, s, h => by
    cases h
    exact ⟨hlabels, fun _ _ => rfl, fun i ⟨_, hlt, _⟩ => absurd hlt (Nat.not_lt_zero _)⟩
  | count + 1, s, h => by
    rw [turns_succ] at h
    obtain ⟨s₀, hturns, hstep⟩ := bind_eq_ok.mp h
    exact (afterTurns hne hlabels count hturns).turn hne hturns hstep

/-- **A round parts points with equal labels exactly if one of them is taken.** -/
theorem round_parts_iff (hne : points ≠ []) (hlabels : labels.length = points.length) {s : State}
    (h : round points before labels = .ok s) (hij : i ≠ j) (hsame : labels[i]? = labels[j]?) :
    s.labels[i]? ≠ s.labels[j]? ↔
      IsTaken points before labels i ∨ IsTaken points before labels j := by
  have hafter : AfterTurns points before labels before.length s := afterTurns hne hlabels _ h
  constructor
  · intro hparted
    by_contra hnone
    rw [not_or] at hnone
    exact hparted (by rw [hafter.kept i hnone.1, hafter.kept j hnone.2, hsame])
  · rintro (htaken | htaken) heq
    · obtain ⟨label, -, hlabel, halone⟩ := hafter.alone _ htaken
      exact hij (halone j (heq ▸ hlabel)).symm
    · obtain ⟨label, -, hlabel, halone⟩ := hafter.alone _ htaken
      exact hij (halone i (heq ▸ hlabel))

/-! ### The last round -/

/-- The centres after so many rounds, of which the first one starts from the given centres. -/
def centresAfter (points start : List Point) : Nat → Except Fault (List Point)
  | 0 => .ok start
  | count + 1 => do
    let before ← centresAfter points start count
    return (← round points before (labelsFor before points)).centres

/-- The last of the rounds that are allowed for starts from the centres, if clustering starts from
the centres that it draws. -/
def LastStarts (points : List Point) (k rounds : Document) (g : Gen) (before : List Point) : Prop :=
  ∃ count start g' limit, clusterCount k points.length = .ok count ∧
    seedCentres points count g = .ok (start, g') ∧ rounds.whole = .ok limit ∧
    centresAfter points start (limit.toNat - 1) = .ok before

/-- Clustering ended with the last round that was allowed for, without the labels having settled,
and the point at a place was taken in this round. -/
def TakenLast (points : List Point) (k rounds : Document) (g : Gen) (place : Nat) : Prop :=
  ∃ c before, (kmodes points k rounds g).1 = .ok c ∧ c.settledAfter = none ∧
    LastStarts points k rounds g before ∧ IsTaken points before (labelsFor before points) place

theorem LastStarts.unique {k rounds : Document} {g : Gen} {after : List Point}
    (h : LastStarts points k rounds g before) (h' : LastStarts points k rounds g after) :
    before = after := by
  obtain ⟨count, start, _, limit, hcount, hstart, hlimit, hbefore⟩ := h
  obtain ⟨count', start', _, limit', hcount', hstart', hlimit', hafter⟩ := h'
  cases hcount.symm.trans hcount'
  cases hstart.symm.trans hstart'
  cases hlimit.symm.trans hlimit'
  exact Except.ok.inj (hbefore.symm.trans hafter)

/-- After a round clustering goes on until the labels settle, or ends with the last round. -/
theorem settled_or_last {start : List Point} {fuel done : Nat} {before : List Point} {s : State}
    {c : Clustering} (hbefore : centresAfter points start done = .ok before)
    (hround : round points before (labelsFor before points) = .ok s)
    (h : settle points fuel (done + 1) (some s.labels) s.centres = .ok c) :
    (c.settledAfter ≠ none ∧ c.labels = (labelsFor c.centres points).map some) ∨
      c.settledAfter = none ∧ ∃ before s, centresAfter points start (done + fuel) = .ok before ∧
        round points before (labelsFor before points) = .ok s ∧ c.labels = s.labels.map some := by
  induction fuel generalizing done before s with
  | zero =>
    cases h
    exact .inr ⟨rfl, before, s, hbefore, hround, rfl⟩
  | succ fuel ih =>
    unfold settle at h
    dsimp only at h
    split at h
    · cases h
      exact .inl ⟨Option.some_ne_none _, rfl⟩
    · obtain ⟨s', hround', hrest⟩ := bind_eq_ok.mp h
      have hnext : centresAfter points start (done + 1) = .ok s.centres := by
        rw [centresAfter, hbefore]
        simp only [bind, Except.bind, hround]
        rfl
      rw [Nat.add_comm fuel 1, ← Nat.add_assoc]
      exact ih hnext hround' hrest

theorem getElem?_labelsFor (hsame : points[i]? = points[j]?) (centres : List Point) :
    (labelsFor centres points)[i]? = (labelsFor centres points)[j]? := by
  unfold labelsFor
  rw [List.getElem?_map, List.getElem?_map, hsame]

theorem map_some_inj {xs : List Nat} :
    (xs.map some)[i]? = (xs.map some)[j]? ↔ xs[i]? = xs[j]? := by
  rw [List.getElem?_map, List.getElem?_map]
  exact (Option.map_injective fun _ _ => Option.some.inj).eq_iff

section Kmodes

variable {k rounds : Document} {limit : Int} {g : Gen} {c : Clustering}

/-- Clustering ends when the labels settle, and then no point is taken last, or with the last round,
and then its labels are those of this round. -/
theorem kmodes_ends (hne : points ≠ []) (hrounds : rounds.whole = .ok limit) (hlimit : 1 ≤ limit)
    (h : (kmodes points k rounds g).1 = .ok c) :
    (c.labels = (labelsFor c.centres points).map some ∧ ∀ i, ¬TakenLast points k rounds g i) ∨
      ∃ before s, round points before (labelsFor before points) = .ok s ∧
        c.labels = s.labels.map some ∧
        ∀ i, TakenLast points k rounds g i ↔ IsTaken points before (labelsFor before points) i := by
  obtain ⟨_, count, start, g', _, -, -, hcount, hstart, hlimit', hsettle⟩ := kmodes_eq_ok hne h
  cases hrounds.symm.trans hlimit'
  obtain ⟨fuel, hfuel⟩ : ∃ fuel, limit.toNat = fuel + 1 := ⟨limit.toNat - 1, by omega⟩
  rw [hfuel] at hsettle
  obtain ⟨s, hround, hrest⟩ := bind_eq_ok.mp hsettle
  have hfirst : centresAfter points start 0 = .ok start := rfl
  rcases settled_or_last hfirst hround hrest with
    ⟨hsettled, hlabels⟩ | ⟨hnone, before, s, hbefore, hround, hlabels⟩
  · refine .inl ⟨hlabels, ?_⟩
    rintro i ⟨c', _, hc', hnone, -⟩
    cases h.symm.trans hc'
    exact hsettled hnone
  · have hlast : LastStarts points k rounds g before := by
      refine ⟨count, start, g', limit, hcount, hstart, hrounds, ?_⟩
      rw [hfuel, Nat.add_sub_cancel, ← Nat.zero_add fuel]
      exact hbefore
    refine .inr ⟨before, s, hround, hlabels, fun i => ⟨?_, fun htaken =>
      ⟨c, before, h, hnone, hlast, htaken⟩⟩⟩
    rintro ⟨_, before', -, -, hlast', htaken⟩
    rwa [hlast.unique hlast']

/-- **Clustering parts equal points exactly if its last round takes one of them.** -/
theorem kmodes_parts_iff (hne : points ≠ []) (hrounds : rounds.whole = .ok limit)
    (hlimit : 1 ≤ limit) (h : (kmodes points k rounds g).1 = .ok c) (hij : i ≠ j)
    (hsame : points[i]? = points[j]?) : c.labels[i]? ≠ c.labels[j]? ↔
      TakenLast points k rounds g i ∨ TakenLast points k rounds g j := by
  rcases kmodes_ends hne hrounds hlimit h with
    ⟨hlabels, hnone⟩ | ⟨before, s, hround, hlabels, htaken⟩
  · rw [hlabels, Ne, map_some_inj]
    have hboth : ¬(TakenLast points k rounds g i ∨ TakenLast points k rounds g j) :=
      not_or.mpr ⟨hnone i, hnone j⟩
    exact iff_of_false (not_not_intro (getElem?_labelsFor hsame c.centres)) hboth
  · rw [hlabels, Ne, map_some_inj, htaken, htaken]
    exact round_parts_iff hne (length_labelsFor before points) hround hij
      (getElem?_labelsFor hsame before)

/-- A point that the last round took is alone with its label. -/
theorem alone_of_takenLast (hne : points ≠ []) (hrounds : rounds.whole = .ok limit)
    (hlimit : 1 ≤ limit) (h : (kmodes points k rounds g).1 = .ok c)
    (hlast : TakenLast points k rounds g i) (hij : i ≠ j) : c.labels[i]? ≠ c.labels[j]? := by
  rcases kmodes_ends hne hrounds hlimit h with
    ⟨-, hnone⟩ | ⟨before, s, hround, hlabels, htaken⟩
  · exact absurd hlast (hnone i)
  · have hafter : AfterTurns points before (labelsFor before points) before.length s :=
      afterTurns hne (length_labelsFor before points) _ hround
    obtain ⟨label, -, hlabel, halone⟩ := hafter.alone i ((htaken i).mp hlast)
    rw [hlabels, Ne, map_some_inj]
    exact fun heq => hij (halone j (heq ▸ hlabel)).symm

end Kmodes

end Questionnaire.Cluster
