/-
# A round does not lead away from the points

The cost of labels and centres is the total distance of the points from the
centres of their labels. Giving each point the label of its nearest centre does
not raise it. Nor does replacing a centre: in each place, the commonest value
differs from as few of the others as any value, and a cluster without points
takes one at no distance.

Key definition: `Cluster.cost`.
Key theorems: `Cluster.modes_minimal`, `Cluster.cost_recentre_le`,
`Cluster.round_descends`.
-/
import Questionnaire.Proofs.Cluster.WellFormed
import Questionnaire.Proofs.Sums

namespace Questionnaire.Cluster

variable {points : List Point} {size count : Nat}

/-! ### The commonest values -/

theorem distance_self (p : Point) : distance p p = 0 := by
  induction p with
  | nil => rfl
  | cons x p ih => simpa [distance] using ih

/-- The distance place by place. -/
theorem distance_eq {p q : Point} (hp : p.length = size) (hq : q.length = size) :
    distance p q = (List.range size).countP fun j => p.getD j 0 != q.getD j 0 := by
  have hzip : p.zip q = (List.range size).map fun j => (p.getD j 0, q.getD j 0) := by
    refine List.ext_getElem (by simp [hp, hq]) fun j hj _ => ?_
    have hjp : j < p.length := by simp at hj; omega
    have hjq : j < q.length := by simp at hj; omega
    simp [hjp, hjq]
  rw [distance, hzip, List.countP_map]
  rfl

/-- Not more values differ from the mode than from any other value. -/
theorem countP_mode_le {values : List Int} (h : values ≠ []) (x : Int) :
    values.countP (· != mode values) ≤ values.countP (· != x) := by
  have hsplit (y : Int) : values.length = values.count y + values.countP (· != y) := by
    rw [List.length_eq_countP_add_countP (· == y), List.count]
    exact congrArg _ (List.countP_congr fun x _ => by simp)
  have hmode := (mode_spec h).2 x
  have hx := hsplit x
  have hmost := hsplit (mode values)
  omega

/-- **No vector is nearer to the points of a cluster than the commonest values.** -/
theorem modes_minimal {members : List Point} (hne : members ≠ [])
    (hsize : ∀ p ∈ members, p.length = size) {q : Point} (hq : q.length = size) :
    sumOf (members.map (distance · (modes size members))) ≤
      sumOf (members.map (distance · q)) := by
  have hplaces {c : Point} (hc : c.length = size) : sumOf (members.map (distance · c)) =
      sumOf ((List.range size).map fun j => members.countP fun p => p.getD j 0 != c.getD j 0) := by
    rw [← sumOf_countP_comm]
    refine congrArg sumOf (List.map_congr_left fun p hp => ?_)
    exact distance_eq (hsize p hp) hc
  -- the places can be chosen one by one, as each point counts in each place for itself
  rw [hplaces hq, hplaces (length_modes size members)]
  refine sumOf_map_le fun j hj => ?_
  have hmode : (modes size members).getD j 0 = mode (members.map (·.getD j 0)) := by
    rw [List.getD_eq_getElem?_getD, getElem?_modes (List.mem_range.mp hj)]
    rfl
  have hvalues : members.map (·.getD j 0) ≠ [] := by simpa using hne
  have hle := countP_mode_le hvalues (q.getD j 0)
  rw [List.countP_map, List.countP_map] at hle
  rw [hmode]
  exact hle

/-! ### Labels and centres -/

/-- The total distance of the points from the centres of their labels. -/
def cost (points : List Point) (s : State) : Nat := sumOf (ownDistances s.centres points s.labels)

theorem cost_eq (points : List Point) (s : State) : cost points s =
    sumOf ((points.zip s.labels).map fun (p, label) => distance p (s.centres.getD label [])) := rfl

/-- Each point is at most as far from the nearest centre as from that of any label. -/
theorem ownDistances_labelsFor_le {centres : List Point} : ∀ {points : List Point}
    {labels : List Nat}, labels.length = points.length → (∀ l ∈ labels, l < centres.length) →
      List.Forall₂ (· ≤ ·) (ownDistances centres points (labelsFor centres points))
        (ownDistances centres points labels)
  | [], [], _, _ => .nil
  | p :: points, l :: labels, hlength, hlabels => by
    obtain ⟨hl, hlabels⟩ := List.forall_mem_cons.mp hlabels
    have hne : centres ≠ [] := List.length_pos_iff.mp (Nat.zero_lt_of_lt hl)
    obtain ⟨hlt, hleast⟩ := nearest_spec hne p
    have hnearest : centres.getD (nearest centres p) [] = centres[nearest centres p] := by
      simp [hlt]
    refine .cons ?_ (ownDistances_labelsFor_le (by simpa using hlength) hlabels)
    change distance p (centres.getD (nearest centres p) []) ≤ distance p (centres.getD l [])
    rw [hnearest]
    exact hleast _ (getD_mem hl [])

theorem cost_labelsFor_le {centres : List Point} {labels : List Nat}
    (hlength : labels.length = points.length) (hlabels : ∀ l ∈ labels, l < centres.length) :
    cost points ⟨labelsFor centres points, centres⟩ ≤ cost points ⟨labels, centres⟩ :=
  sumOf_le (ownDistances_labelsFor_le hlength hlabels)

theorem getD_set {α : Type} {xs : List α} {i : Nat} (h : i < xs.length) (x d : α) (j : Nat) :
    (xs.set i x).getD j d = if i = j then x else xs.getD j d := by
  rw [List.getD_eq_getElem?_getD, List.getD_eq_getElem?_getD, List.getElem?_set]
  by_cases hij : i = j
  · rw [if_pos hij, if_pos hij, if_pos h]
    rfl
  · rw [if_neg hij, if_neg hij]

/-- The cost is that of a label's points and that of the others. -/
theorem cost_split (points : List Point) (s : State) (centres : List Point) (label : Nat) :
    cost points ⟨s.labels, centres⟩ =
      sumOf ((s.members points label).map (distance · (centres.getD label []))) +
        sumOf (((points.zip s.labels).filter fun pair => !pair.2 == label).map fun (p, l) =>
          distance p (centres.getD l [])) := by
  have hown : (s.members points label).map (distance · (centres.getD label [])) =
      ((points.zip s.labels).filter (·.2 == label)).map fun (p, l) =>
        distance p (centres.getD l []) := by
    rw [State.members, List.map_map]
    refine List.map_congr_left fun pair hpair => ?_
    have hl : pair.2 = label := by simpa using (List.mem_filter.mp hpair).2
    simp [hl]
  rw [hown, cost_eq, sumOf_filter_add]

/-- The cost of a label's points does not rise if its centre becomes their commonest values, and
that of the others stays as it is. -/
theorem cost_modes_le {s : State} {label : Nat} (h : Fits points size count s)
    (hsize : ∀ p ∈ points, p.length = size) (hlabel : label < count)
    (hsome : s.members points label ≠ []) :
    cost points ⟨s.labels, s.centres.set label (modes size (s.members points label))⟩ ≤
      cost points s := by
  have hlt : label < s.centres.length := h.count ▸ hlabel
  have hmembers : ∀ p ∈ s.members points label, p.length = size :=
    fun p hp => hsize p (mem_members hp)
  have hown := modes_minimal hsome hmembers (h.sizes _ (getD_mem hlt []))
  have hothers : ((points.zip s.labels).filter fun pair => !pair.2 == label).map (fun (p, l) =>
        distance p ((s.centres.set label (modes size (s.members points label))).getD l [])) =
      ((points.zip s.labels).filter fun pair => !pair.2 == label).map fun (p, l) =>
        distance p (s.centres.getD l []) := by
    refine List.map_congr_left fun pair hpair => ?_
    have hl : pair.2 ≠ label := by simpa using (List.mem_filter.mp hpair).2
    dsimp only
    rw [getD_set hlt, if_neg hl.symm]
  calc cost points ⟨s.labels, s.centres.set label (modes size (s.members points label))⟩
      = sumOf ((s.members points label).map (distance · (modes size (s.members points label)))) +
          sumOf (((points.zip s.labels).filter fun pair => !pair.2 == label).map fun (p, l) =>
            distance p (s.centres.getD l [])) := by
        rw [cost_split, hothers, getD_set hlt, if_pos rfl]
    _ ≤ sumOf ((s.members points label).map (distance · (s.centres.getD label []))) + _ :=
        Nat.add_le_add_right hown _
    _ = cost points s := (cost_split points s s.centres label).symm

/-- A cluster without points takes a point at no distance, and the others stay where they are. -/
theorem cost_taken_le {s : State} {label far : Nat} (h : Fits points size count s)
    (hlabel : label < count) (hnone : s.members points label = []) :
    cost points ⟨s.labels.set far label, s.centres.set label (points.getD far [])⟩ ≤
      cost points s := by
  have hlt : label < s.centres.length := h.count ▸ hlabel
  refine sumOf_le (List.forall₂_iff_get.mpr ⟨by simp [ownDistances], fun i hi hi' => ?_⟩)
  have hip : i < points.length := by simp [ownDistances] at hi; omega
  have hil : i < s.labels.length := h.labelled ▸ hip
  simp only [ownDistances, List.get_eq_getElem, List.getElem_map, List.getElem_zip,
    List.getElem_set]
  by_cases htaken : far = i
  · subst htaken
    have hzero : distance points[far] (points.getD far []) = 0 := by
      have hpoint : points.getD far [] = points[far] := by simp [hip]
      rw [hpoint, distance_self]
    rw [if_pos rfl, getD_set hlt, if_pos rfl]
    exact Nat.le_trans (Nat.le_of_eq hzero) (Nat.zero_le _)
  · -- no point has the label whose centre is replaced
    have hother : s.labels[i] ≠ label := by
      intro heq
      have hmem := mem_members_of_getElem hip (heq ▸ List.getElem?_eq_getElem hil)
      rw [hnone] at hmem
      exact absurd hmem List.not_mem_nil
    exact Nat.le_of_eq (by rw [if_neg htaken, getD_set hlt, if_neg hother.symm])

theorem cost_recentre_le (hne : points ≠ []) (hsize : ∀ p ∈ points, p.length = size)
    {before : List Point} {s s' : State} {label : Nat} (h : Fits points size count s)
    (hlabel : label < count) (hstep : recentre before points s label = .ok s') :
    cost points s' ≤ cost points s := by
  rcases recentre_cases hne hsize h.labelled hstep with ⟨hnone, far, -, rfl⟩ | ⟨hsome, rfl⟩
  · exact cost_taken_le h hlabel hnone
  · exact cost_modes_le h hsize hlabel hsome

/-! ### Rounds -/

theorem areCountable_members {s : State} {label : Nat} (h : areCountable points = true) :
    areCountable (s.members points label) = true := by
  unfold areCountable at h ⊢
  rw [List.all_eq_true] at h ⊢
  exact fun p hp => h p (mem_members hp)

theorem recentre_succeeds (h : areCountable points = true) (before : List Point) (s : State)
    (label : Nat) : ∃ s', recentre before points s label = .ok s' := by
  have hcountable : areCountable (s.members points label) = true := areCountable_members h
  unfold recentre
  split
  · exact ⟨_, rfl⟩
  · rename_i hmembers
    rw [hmembers] at hcountable
    exact ⟨_, if_pos hcountable⟩

theorem round_succeeds (h : areCountable points = true) (centres : List Point)
    (labels : List Nat) : ∃ s, round points centres labels = .ok s := by
  refine (foldlM_succeeds_iff (P := fun _ => True) _ fun label _ s => ?_).mpr fun _ _ => trivial
  exact iff_true_intro (recentre_succeeds h centres s label)

section Round

variable (hne : points ≠ []) (hsize : ∀ p ∈ points, p.length = size)
include hne hsize

/-- Replacing the centres one after another does not raise the cost. -/
theorem cost_round_le {centres : List Point} {labels : List Nat} {s : State}
    (h : Fits points size centres.length ⟨labels, centres⟩)
    (hround : round points centres labels = .ok s) :
    cost points s ≤ cost points ⟨labels, centres⟩ := by
  have hkept : Fits points size centres.length s ∧
      cost points s ≤ cost points ⟨labels, centres⟩ := by
    refine foldlM_preserves (P := fun s => Fits points size centres.length s ∧
      cost points s ≤ cost points ⟨labels, centres⟩) (fun s label hlabel s' hs hstep => ?_)
      ⟨h, Nat.le_refl _⟩ hround
    have hlt := List.mem_range.mp hlabel
    exact ⟨hs.1.recentre hne hsize hlt hstep,
      Nat.le_trans (cost_recentre_le hne hsize hs.1 hlt hstep) hs.2⟩
  exact hkept.2

/-- However many rounds there are, the cost does not rise. -/
theorem AfterRounds.cost_le {centres : List Point} {s : State} (hcentres : centres ≠ [])
    (hpoints : ∀ c ∈ centres, c ∈ points) (h : AfterRounds points centres s) :
    cost points s ≤ cost points ⟨labelsFor centres points, centres⟩ := by
  induction h with
  | first hround =>
    have hsizes : ∀ c ∈ centres, c.length = size := fun c hc => hsize c (hpoints c hc)
    exact cost_round_le hne hsize (fits_labelsFor hcentres hsizes) hround
  | @next s s' hbefore hround ih =>
    have hformed := hbefore.wellFormed hne hsize hcentres hpoints
    have hsome : s.centres ≠ [] := by
      rw [← List.length_pos_iff, hformed.count]
      exact List.length_pos_iff.mpr hcentres
    have hlabels : ∀ l ∈ s.labels, l < s.centres.length := hformed.count.symm ▸ hformed.labels
    calc cost points s'
        ≤ cost points ⟨labelsFor s.centres points, s.centres⟩ :=
          cost_round_le hne hsize (fits_labelsFor hsome hformed.sizes) hround
      _ ≤ cost points s := cost_labelsFor_le hformed.labelled hlabels
      _ ≤ cost points ⟨labelsFor centres points, centres⟩ := ih

/-- Centres of clusters with points become the commonest values, one after another. -/
theorem foldlM_recentre (hcountable : areCountable points = true) {before : List Point}
    {labels : List Nat} (hlabelled : labels.length = points.length) : ∀ {ls : List Nat}
      (centres : List Point), (∀ l ∈ ls, State.members ⟨labels, []⟩ points l ≠ []) →
        ls.foldlM (recentre before points) ⟨labels, centres⟩ =
          .ok ⟨labels, ls.foldl (fun cs l =>
            cs.set l (modes size (State.members ⟨labels, []⟩ points l))) centres⟩
  | [], _, _ => rfl
  | l :: ls, centres, hsome => by
    obtain ⟨hl, hsome⟩ := List.forall_mem_cons.mp hsome
    obtain ⟨s', hs'⟩ := recentre_succeeds hcountable before ⟨labels, centres⟩ l
    rw [List.foldlM_cons, hs']
    rcases recentre_cases hne hsize hlabelled hs' with ⟨hnone, -⟩ | ⟨-, rfl⟩
    · exact absurd hnone hl
    · exact foldlM_recentre hcountable hlabelled _ hsome

end Round

theorem getElem?_foldl_set {α : Type} (f : Nat → α) (i : Nat) : ∀ (ls : List Nat) {xs : List α},
    i < xs.length → (ls.foldl (fun xs l => xs.set l (f l)) xs)[i]? =
      if i ∈ ls then some (f i) else xs[i]?
  | [], _, _ => rfl
  | l :: ls, xs, h => by
    rw [List.foldl_cons, getElem?_foldl_set f i ls (by simpa using h), List.getElem?_set]
    by_cases hmem : i ∈ ls
    · simp [hmem]
    · by_cases hl : l = i
      · simp [hl, h]
      · simp [hmem, hl, Ne.symm hl]

theorem length_foldl_set {α : Type} (f : Nat → α) (ls : List Nat) (xs : List α) :
    (ls.foldl (fun xs l => xs.set l (f l)) xs).length = xs.length := by
  induction ls generalizing xs with
  | nil => rfl
  | cons l ls ih => rw [List.foldl_cons, ih, List.length_set]

theorem foldl_set_range {α : Type} (f : Nat → α) (xs : List α) :
    (List.range xs.length).foldl (fun xs l => xs.set l (f l)) xs =
      (List.range xs.length).map f := by
  refine List.ext_getElem? fun i => ?_
  by_cases hi : i < xs.length
  · rw [getElem?_foldl_set f i _ hi, if_pos (List.mem_range.mpr hi), List.getElem?_map,
      List.getElem?_range hi]
    rfl
  · rw [List.getElem?_eq_none (by rw [length_foldl_set]; omega),
      List.getElem?_eq_none (by simpa using hi)]

/-- **A round does not lead away from the points**, whatever labels they had before. It goes well if
the coordinates can be counted. If no cluster is empty, it gives each point the label of its nearest
centre and makes the commonest values of its points each label's centre, which are as near to them
as any vector. -/
theorem round_descends (hne : points ≠ []) (hsize : ∀ p ∈ points, p.length = size)
    {centres : List Point} (hsizes : ∀ c ∈ centres, c.length = size) {labels : List Nat}
    (hlabelled : labels.length = points.length) (hlabels : ∀ l ∈ labels, l < centres.length) :
    (areCountable points = true →
      ∃ s, round points centres (labelsFor centres points) = .ok s ∧
        ((∀ l < centres.length, State.members ⟨labelsFor centres points, []⟩ points l ≠ []) →
          s = ⟨labelsFor centres points, (List.range centres.length).map fun l =>
            modes size (State.members ⟨labelsFor centres points, []⟩ points l)⟩)) ∧
    (∀ s, round points centres (labelsFor centres points) = .ok s →
      cost points s ≤ cost points ⟨labels, centres⟩) ∧
    ∀ members : List Point, members ≠ [] → (∀ p ∈ members, p.length = size) →
      ∀ q : Point, q.length = size →
        sumOf (members.map (distance · (modes size members))) ≤
          sumOf (members.map (distance · q)) := by
  have hcentres : centres ≠ [] := by
    have hfirst := List.length_pos_iff.mpr hne
    rw [← hlabelled] at hfirst
    exact List.length_pos_iff.mp (Nat.zero_lt_of_lt (hlabels _ (List.getElem_mem hfirst)))
  refine ⟨fun hcountable => ?_, fun s hround => ?_, fun members hsome hmembers q hq =>
    modes_minimal hsome hmembers hq⟩
  · obtain ⟨s, hround⟩ := round_succeeds hcountable centres (labelsFor centres points)
    refine ⟨s, hround, fun hfull => ?_⟩
    have heq : round points centres (labelsFor centres points) = _ :=
      foldlM_recentre hne hsize hcountable (length_labelsFor centres points) centres
        fun l hl => hfull l (List.mem_range.mp hl)
    rw [foldl_set_range] at heq
    exact Except.ok.inj (hround.symm.trans heq)
  · exact Nat.le_trans (cost_round_le hne hsize (fits_labelsFor hcentres hsizes) hround)
      (cost_labelsFor_le hlabelled hlabels)

/-- Points on a plane. -/
def planePoints : List Point := [[1, 0], [1, 2], [3, 2], [1, 2]]

/-- A round brings the cost from six down to one. -/
theorem round_descends_plane :
    planePoints ≠ [] ∧ (∀ p ∈ planePoints, p.length = 2) ∧ areCountable planePoints = true ∧
    (∀ c ∈ ([[1, 0], [3, 2]] : List Point), c.length = 2) ∧
    cost planePoints ⟨[1, 1, 0, 0], [[1, 0], [3, 2]]⟩ = 6 ∧
    round planePoints [[1, 0], [3, 2]] (labelsFor [[1, 0], [3, 2]] planePoints) =
      .ok ⟨[0, 0, 1, 0], [[1, 2], [3, 2]]⟩ ∧
    cost planePoints ⟨[0, 0, 1, 0], [[1, 2], [3, 2]]⟩ = 1 ∧
    cost planePoints ⟨[0, 0, 1, 0], [[1, 2], [3, 2]]⟩ ≤
      cost planePoints ⟨[1, 1, 0, 0], [[1, 0], [3, 2]]⟩ ∧
    sumOf (planePoints.map (distance · (modes 2 planePoints))) ≤
      sumOf (planePoints.map (distance · [7, -2])) := by
  have hne : planePoints ≠ [] := List.cons_ne_nil _ _
  have hsize : ∀ p ∈ planePoints, p.length = 2 := by decide
  have hsizes : ∀ c ∈ ([[1, 0], [3, 2]] : List Point), c.length = 2 := by decide
  have hround : round planePoints [[1, 0], [3, 2]] (labelsFor [[1, 0], [3, 2]] planePoints) =
      .ok ⟨[0, 0, 1, 0], [[1, 2], [3, 2]]⟩ := rfl
  obtain ⟨-, hdescends, hminimal⟩ :=
    round_descends hne hsize hsizes (rfl : [1, 1, 0, 0].length = 4) (by decide)
  exact ⟨hne, hsize, by decide, hsizes, rfl, hround, rfl, hdescends _ hround,
    hminimal _ hne hsize [7, -2] rfl⟩

end Questionnaire.Cluster
