/-
# Clusters are well formed

Centres come from points: the first ones are points, a cluster without points
takes one, and the commonest values at each place are values of points. So after
every round there is a label for each point and a centre for each label, and in
no place does a centre have a value that no point has there.

Key definitions: `Cluster.Fits`, `Cluster.WellFormed`, `Cluster.AfterRounds`.
Key theorems: `Cluster.wellFormed_round`, `Cluster.wellFormed_kmodes`.
-/
import Questionnaire.Proofs.Cluster.Labels
import Questionnaire.Proofs.Drawing

namespace Questionnaire.Cluster

variable {points : List Point} {size count : Nat}

/-! ### Places -/

/-- Of some numbers, one comes before or with all of them. -/
theorem exists_first {R : Nat → Nat → Bool} (htotal : ∀ m n, R m n = true ∨ R n m = true)
    (htrans : ∀ l m n, R l m = true → R m n = true → R l n = true) :
    ∀ {ns : List Nat}, ns ≠ [] → ∃ n ∈ ns, ns.all (R n) = true
  | [n], _ => ⟨n, List.mem_cons_self, by simpa using htotal n n⟩
  | n :: m :: ns, _ => by
    obtain ⟨k, hk, hall⟩ := exists_first htotal htrans (List.cons_ne_nil m ns)
    rcases htotal n k with hnk | hkn
    · refine ⟨n, List.mem_cons_self, ?_⟩
      rw [List.all_cons, Bool.and_eq_true, List.all_eq_true]
      have hall := List.all_eq_true.mp hall
      exact ⟨by simpa using htotal n n, fun l hl => htrans n k l hnk (hall l hl)⟩
    · exact ⟨k, List.mem_cons_of_mem n hk, by rw [List.all_cons, hkn, hall]; rfl⟩

theorem leastPlace_spec {ns : List Nat} (h : ns ≠ []) :
    ∃ hlt : leastPlace ns < ns.length, ∀ n ∈ ns, ns[leastPlace ns] ≤ n := by
  obtain ⟨n, hn, hall⟩ := exists_first (R := fun m n => decide (m ≤ n)) (by simp; omega)
    (by simp; omega) h
  have hlt : leastPlace ns < ns.length := List.findIdx_lt_length_of_exists ⟨n, hn, hall⟩
  have hleast : ns.all (ns[leastPlace ns] ≤ ·) = true := List.findIdx_getElem (w := hlt)
  exact ⟨hlt, fun n hn => of_decide_eq_true (List.all_eq_true.mp hleast n hn)⟩

theorem greatestPlace_lt {ns : List Nat} (h : ns ≠ []) : greatestPlace ns < ns.length := by
  obtain ⟨n, hn, hall⟩ := exists_first (R := fun m n => decide (n ≤ m)) (by simp; omega)
    (by simp; omega) h
  exact List.findIdx_lt_length_of_exists ⟨n, hn, hall⟩

/-- The nearest centre is one of the centres, and no other is nearer. -/
theorem nearest_spec {centres : List Point} (h : centres ≠ []) (p : Point) :
    ∃ hlt : nearest centres p < centres.length,
      ∀ c ∈ centres, distance p centres[nearest centres p] ≤ distance p c := by
  have hne : centres.map (distance p) ≠ [] := by simpa using h
  obtain ⟨hlt, hleast⟩ := leastPlace_spec hne
  have hplace : nearest centres p < centres.length := by simpa [nearest] using hlt
  refine ⟨hplace, fun c hc => ?_⟩
  have hc := hleast (distance p c) (List.mem_map_of_mem hc)
  rwa [List.getElem_map] at hc

theorem isCommoner_of_lt {values : List Int} {x y : Int} (h : values.count y < values.count x) :
    isCommoner values x y = true := by
  simp [isCommoner, h]

theorem count_le_of_isCommoner {values : List Int} {x y : Int} (h : isCommoner values x y = true) :
    values.count y ≤ values.count x := by
  simp only [isCommoner, Bool.or_eq_true, decide_eq_true_eq, Bool.and_eq_true, beq_iff_eq] at h
  omega

/-- Going through some values, one as common as any of them is kept. -/
theorem commonest_spec (values : List Int) : ∀ (xs : List Int) (best : Int),
    xs.foldl (fun best x => if isCommoner values x best then x else best) best ∈ best :: xs ∧
    ∀ x ∈ best :: xs, values.count x ≤ values.count
      (xs.foldl (fun best x => if isCommoner values x best then x else best) best)
  | [], best => by simp
  | x :: xs, best => by
    rw [List.foldl_cons]
    by_cases hcommoner : isCommoner values x best = true
    · rw [if_pos hcommoner]
      obtain ⟨hmem, hmost⟩ := commonest_spec values xs x
      refine ⟨List.mem_cons_of_mem best hmem, List.forall_mem_cons.mpr ⟨?_, hmost⟩⟩
      exact Nat.le_trans (count_le_of_isCommoner hcommoner) (hmost x List.mem_cons_self)
    · rw [if_neg hcommoner]
      obtain ⟨hmem, hmost⟩ := commonest_spec values xs best
      obtain ⟨hbest, hrest⟩ := List.forall_mem_cons.mp hmost
      have hle : values.count x ≤ values.count best := by
        by_contra hlt
        exact hcommoner (isCommoner_of_lt (Nat.lt_of_not_le hlt))
      refine ⟨?_, List.forall_mem_cons.mpr ⟨hbest, List.forall_mem_cons.mpr ⟨?_, hrest⟩⟩⟩
      · rcases List.mem_cons.mp hmem with heq | hmem
        · exact List.mem_cons.mpr (.inl heq)
        · exact List.mem_cons_of_mem best (List.mem_cons_of_mem x hmem)
      · exact Nat.le_trans hle hbest

/-- The mode is one of the values, and none is commoner. -/
theorem mode_spec : ∀ {values : List Int}, values ≠ [] →
    mode values ∈ values ∧ ∀ x, values.count x ≤ values.count (mode values)
  | first :: rest, _ => by
    obtain ⟨hmem, hmost⟩ := commonest_spec (first :: rest) rest first
    refine ⟨hmem, fun x => ?_⟩
    by_cases hx : x ∈ first :: rest
    · exact hmost x hx
    · rw [List.count_eq_zero.mpr hx]
      exact Nat.zero_le _

/-! ### What rounds keep -/

/-- Each coordinate is one that some point has in this place. -/
def IsMixture (points : List Point) (centre : Point) : Prop :=
  ∀ j < centre.length, ∃ p ∈ points, p[j]? = centre[j]?

theorem isMixture_of_mem {p : Point} (h : p ∈ points) : IsMixture points p :=
  fun _ _ => ⟨p, h, rfl⟩

/-- There is a label for each point and a centre for each label, which has as many coordinates as
points have. -/
structure Fits (points : List Point) (size count : Nat) (s : State) : Prop where
  labelled : s.labels.length = points.length
  labels : ∀ label ∈ s.labels, label < count
  count : s.centres.length = count
  sizes : ∀ c ∈ s.centres, c.length = size

/-- Labels and centres fit the points, and the centres are mixtures of points. -/
structure WellFormed (points : List Point) (size count : Nat) (s : State) : Prop
    extends Fits points size count s where
  mixtures : ∀ c ∈ s.centres, IsMixture points c

theorem mem_members {s : State} {label : Nat} {p : Point} (h : p ∈ s.members points label) :
    p ∈ points := by
  obtain ⟨⟨p, l⟩, hpair, rfl⟩ := List.mem_map.mp h
  exact (List.of_mem_zip (List.mem_filter.mp hpair).1).1

theorem mem_members_of_getElem {s : State} {label i : Nat} (hi : i < points.length)
    (hlabel : s.labels[i]? = some label) : points[i] ∈ s.members points label := by
  obtain ⟨hil, hlabel⟩ := List.getElem?_eq_some_iff.mp hlabel
  have hzip : i < (points.zip s.labels).length := by simp; omega
  have hmem : (points.zip s.labels)[i] ∈ (points.zip s.labels).filter (·.2 == label) :=
    List.mem_filter.mpr ⟨List.getElem_mem hzip, by simpa using hlabel⟩
  exact List.mem_map.mpr ⟨_, hmem, by simp⟩

theorem getD_mem {α : Type} {xs : List α} {i : Nat} (h : i < xs.length) (d : α) :
    xs.getD i d ∈ xs := by
  rw [List.getD_eq_getElem?_getD, List.getElem?_eq_getElem h]
  exact List.getElem_mem h

theorem length_modes (size : Nat) (members : List Point) : (modes size members).length = size := by
  simp [modes]

theorem getElem?_modes {members : List Point} {j : Nat} (hj : j < size) :
    (modes size members)[j]? = some (mode (members.map (·.getD j 0))) := by
  unfold modes
  rw [List.getElem?_map, List.getElem?_range hj]
  rfl

/-- The commonest values of points at each place are a mixture of them. -/
theorem isMixture_modes {members : List Point} (hne : members ≠ [])
    (hmembers : ∀ p ∈ members, p ∈ points ∧ p.length = size) :
    IsMixture points (modes size members) := by
  intro j hj
  rw [length_modes] at hj
  have hvalues : members.map (·.getD j 0) ≠ [] := by simpa using hne
  obtain ⟨p, hp, hvalue⟩ := List.mem_map.mp (mode_spec hvalues).1
  obtain ⟨hpoint, hsize⟩ := hmembers p hp
  have hjp : j < p.length := hsize ▸ hj
  have hp : p[j]? = some (p.getD j 0) := by
    rw [List.getD_eq_getElem?_getD, List.getElem?_eq_getElem hjp]
    rfl
  exact ⟨p, hpoint, by rw [getElem?_modes hj, hp, hvalue]⟩

section Rounds

variable (hne : points ≠ []) (hsize : ∀ p ∈ points, p.length = size)
include hne hsize

/-- Replacing a centre makes the commonest values of its points the centre or, if it has none, one
of the points, which gets its label. -/
theorem recentre_cases {before : List Point} {s s' : State} {label : Nat}
    (hlabelled : s.labels.length = points.length)
    (h : recentre before points s label = .ok s') :
    (s.members points label = [] ∧ ∃ far < points.length,
      s' = ⟨s.labels.set far label, s.centres.set label (points.getD far [])⟩) ∨
    (s.members points label ≠ [] ∧
      s' = ⟨s.labels, s.centres.set label (modes size (s.members points label))⟩) := by
  unfold recentre at h
  split at h
  case h_1 hnone =>
    cases h
    have hlength : (ownDistances before points s.labels).length = points.length := by
      simp [ownDistances, hlabelled]
    have hdistances : ownDistances before points s.labels ≠ [] := by
      rw [← List.length_pos_iff, hlength]
      exact List.length_pos_iff.mpr hne
    exact .inl ⟨hnone, _, hlength ▸ greatestPlace_lt hdistances, rfl⟩
  case h_2 p ps hmembers =>
    split at h <;> cases h
    have hp : p ∈ s.members points label := hmembers ▸ List.mem_cons_self
    -- the first point says how many coordinates there are
    rw [hmembers, hsize p (mem_members hp)]
    exact .inr ⟨List.cons_ne_nil p ps, rfl⟩

theorem Fits.recentre {before : List Point} {s s' : State} {label : Nat}
    (h : Fits points size count s) (hlabel : label < count)
    (hstep : recentre before points s label = .ok s') : Fits points size count s' := by
  have hsizes : ∀ c : Point, c.length = size → ∀ c' ∈ s.centres.set label c, c'.length = size := by
    intro c hc c' hmem
    rcases List.mem_or_eq_of_mem_set hmem with hmem | rfl
    · exact h.sizes c' hmem
    · exact hc
  rcases recentre_cases hne hsize h.labelled hstep with ⟨-, far, hfar, rfl⟩ | ⟨-, rfl⟩
  · refine ⟨by simpa using h.labelled, fun l hl => ?_, by simpa using h.count,
      hsizes _ (hsize _ (getD_mem hfar []))⟩
    rcases List.mem_or_eq_of_mem_set hl with hl | rfl
    · exact h.labels l hl
    · exact hlabel
  · exact ⟨h.labelled, h.labels, by simpa using h.count, hsizes _ (length_modes _ _)⟩

theorem WellFormed.recentre {before : List Point} {s s' : State} {label : Nat}
    (h : WellFormed points size count s) (hlabel : label < count)
    (hstep : recentre before points s label = .ok s') : WellFormed points size count s' := by
  refine ⟨h.toFits.recentre hne hsize hlabel hstep, fun c' hmem => ?_⟩
  rcases recentre_cases hne hsize h.labelled hstep with ⟨-, far, hfar, rfl⟩ | ⟨hsome, rfl⟩
  · rcases List.mem_or_eq_of_mem_set hmem with hmem | rfl
    · exact h.mixtures c' hmem
    · exact isMixture_of_mem (getD_mem hfar [])
  · rcases List.mem_or_eq_of_mem_set hmem with hmem | rfl
    · exact h.mixtures c' hmem
    · exact isMixture_modes hsome fun p hp => ⟨mem_members hp, hsize p (mem_members hp)⟩

end Rounds

theorem fits_labelsFor {centres : List Point} (hne : centres ≠ [])
    (hsizes : ∀ c ∈ centres, c.length = size) :
    Fits points size centres.length ⟨labelsFor centres points, centres⟩ := by
  refine ⟨length_labelsFor centres points, fun l hl => ?_, rfl, hsizes⟩
  obtain ⟨p, -, rfl⟩ := List.mem_map.mp hl
  exact (nearest_spec hne p).1

/-- A round that starts from mixtures of points leaves labels and centres well formed. -/
theorem wellFormed_round (hne : points ≠ []) (hsize : ∀ p ∈ points, p.length = size)
    {centres : List Point} {s : State} (hcentres : centres ≠ [])
    (hsizes : ∀ c ∈ centres, c.length = size) (hmixtures : ∀ c ∈ centres, IsMixture points c)
    (h : round points centres (labelsFor centres points) = .ok s) :
    WellFormed points size centres.length s := by
  have hstart : WellFormed points size centres.length ⟨labelsFor centres points, centres⟩ :=
    ⟨fits_labelsFor hcentres hsizes, hmixtures⟩
  refine foldlM_preserves (fun s label hlabel s' hs hstep => ?_) hstart h
  exact hs.recentre hne hsize (List.mem_range.mp hlabel) hstep

/-! ### The first centres -/

theorem chooseCentre_mem (hne : points ≠ []) {chosen : List Point} {p : Point} {g g' : Gen}
    (h : chooseCentre points chosen g = .ok (p, g')) : p ∈ points := by
  have hpos : 0 < points.length := List.length_pos_iff.mpr hne
  unfold chooseCentre at h
  dsimp only at h
  split at h
  · cases h
    exact getD_mem (Gen.below_lt hpos g) []
  · obtain ⟨⟨i, g₁⟩, hplace, hp⟩ := bind_eq_ok.mp h
    cases hp
    exact getD_mem (Gen.weighted_lt hpos hplace) []

theorem chooseCentres_spec (hne : points ≠ []) : ∀ {count : Nat} {chosen centres : List Point}
    {g g' : Gen}, (∀ c ∈ chosen, c ∈ points) →
      chooseCentres points count chosen g = .ok (centres, g') →
      centres.length = chosen.length + count ∧ ∀ c ∈ centres, c ∈ points
  | 0, _, _, _, _, hchosen, h => by
    cases h
    exact ⟨rfl, hchosen⟩
  | count + 1, chosen, centres, g, g', hchosen, h => by
    obtain ⟨⟨p, g₁⟩, hp, hrest⟩ := bind_eq_ok.mp h
    have hmore : ∀ c ∈ chosen ++ [p], c ∈ points := by
      rw [List.forall_mem_append]
      exact ⟨hchosen, List.forall_mem_singleton.mpr (chooseCentre_mem hne hp)⟩
    obtain ⟨hlength, hmem⟩ := chooseCentres_spec hne hmore hrest
    rw [List.length_append, List.length_singleton] at hlength
    exact ⟨by omega, hmem⟩

/-- There are as many first centres as asked for, and all are points. -/
theorem seedCentres_spec (hne : points ≠ []) (hcount : 1 ≤ count) {centres : List Point}
    {g g' : Gen} (h : seedCentres points count g = .ok (centres, g')) :
    centres.length = count ∧ ∀ c ∈ centres, c ∈ points := by
  have hfirst := getD_mem (Gen.below_lt (List.length_pos_iff.mpr hne) g) []
  obtain ⟨hlength, hmem⟩ := chooseCentres_spec hne (List.forall_mem_singleton.mpr hfirst) h
  rw [List.length_singleton] at hlength
  exact ⟨by omega, hmem⟩

/-- How many clusters there are: as many as asked for, but not more than there are points. -/
theorem clusterCount_spec {k : Document} {number : Number} {n : Nat} (hn : 0 < n)
    (hnumber : k.number = .ok number) (hpositive : number.blt 1 = false)
    (h : clusterCount k n = .ok count) :
    1 ≤ count ∧ count ≤ n ∧ ∀ m : Int, k = .int m → (count : Int) = min m n := by
  have hblt (l m : Int) : (Number.int l).blt (.int m) = decide (l < m) := by
    rw [Bool.eq_iff_iff, decide_eq_true_eq, Number.blt, Number.compare?, beq_iff_eq,
      Option.some_inj, Int.compare_eq_lt]
  unfold clusterCount at h
  rw [hnumber] at h
  change (if (Number.int n).blt number then Except.ok n else _) = _ at h
  by_cases hmore : (Number.int n).blt number = true
  · rw [if_pos hmore] at h
    cases h
    refine ⟨hn, Nat.le_refl _, ?_⟩
    rintro m rfl
    cases hnumber
    rw [hblt, decide_eq_true_eq] at hmore
    omega
  · rw [if_neg hmore] at h
    obtain ⟨m, hm, hcount⟩ := bind_eq_ok.mp h
    cases hcount
    have hwhole : number = .int m := by
      cases k <;> cases hm <;> cases hnumber <;> rfl
    subst hwhole
    have hone : ¬m < 1 := by simpa [hblt] using (hblt m 1).symm.trans hpositive
    rw [hblt, decide_eq_true_eq] at hmore
    refine ⟨by omega, by omega, ?_⟩
    rintro _ rfl
    cases hm
    omega

/-! ### All rounds -/

/-- The labels and centres after some rounds that start from the centres, at least one. -/
inductive AfterRounds (points centres : List Point) : State → Prop
  | first {s : State} : round points centres (labelsFor centres points) = .ok s →
      AfterRounds points centres s
  | next {s s' : State} : AfterRounds points centres s →
      round points s.centres (labelsFor s.centres points) = .ok s' → AfterRounds points centres s'

theorem AfterRounds.wellFormed {centres : List Point} {s : State} (hne : points ≠ [])
    (hsize : ∀ p ∈ points, p.length = size) (hcentres : centres ≠ [])
    (hpoints : ∀ c ∈ centres, c ∈ points) (h : AfterRounds points centres s) :
    WellFormed points size centres.length s := by
  induction h with
  | first hround =>
    exact wellFormed_round hne hsize hcentres (fun c hc => hsize c (hpoints c hc))
      (fun c hc => isMixture_of_mem (hpoints c hc)) hround
  | @next s s' _ hround ih =>
    have hsome : s.centres ≠ [] := by
      rw [← List.length_pos_iff, ih.count]
      exact List.length_pos_iff.mpr hcentres
    have hnext := wellFormed_round hne hsize hsome ih.sizes ih.mixtures hround
    rwa [ih.count] at hnext

/-- What rounds result in was there after one of them. -/
theorem afterRounds_of_settle {centres : List Point} : ∀ (fuel done : Nat) {s : State}
    {c : Clustering}, AfterRounds points centres s →
      settle points fuel done (some s.labels) s.centres = .ok c →
      ∃ s', AfterRounds points centres s' ∧ c.labels = s'.labels.map some ∧
        c.centres = s'.centres
  | 0, _, s, _, hs, h => by
    cases h
    exact ⟨s, hs, rfl, rfl⟩
  | fuel + 1, done, s, _, hs, h => by
    unfold settle at h
    dsimp only at h
    split at h
    · rename_i hsame
      cases h
      -- the labels that end the rounds are those of the last round
      have hlabels : s.labels = labelsFor s.centres points := by simpa using hsame
      exact ⟨s, hs, by rw [hlabels], rfl⟩
    · obtain ⟨s', hround, hrest⟩ := bind_eq_ok.mp h
      exact afterRounds_of_settle fuel (done + 1) (hs.next hround) hrest

/-- With a round allowed for, every point has a label, and the label has a centre. -/
theorem exists_label_of_kmodes (hne : points ≠ []) (hsize : ∀ p ∈ points, p.length = size)
    {k rounds : Document} {limit : Int} (hrounds : rounds.whole = .ok limit) (hlimit : 1 ≤ limit)
    {g : Gen} {c : Clustering} (h : (kmodes points k rounds g).1 = .ok c) {i : Nat}
    (hi : i < points.length) : ∃ label < c.centres.length, c.labels[i]? = some (some label) := by
  obtain ⟨number, count, centres, g', limit', hnumber, hpositive, hcount, hseed, hlimit',
    hsettle⟩ := kmodes_eq_ok hne h
  cases hrounds.symm.trans hlimit'
  obtain ⟨hpos, -, -⟩ := clusterCount_spec (List.length_pos_iff.mpr hne) hnumber hpositive hcount
  obtain ⟨hlength, hpoints⟩ := seedCentres_spec hne hpos hseed
  obtain ⟨fuel, hfuel⟩ : ∃ fuel, limit.toNat = fuel + 1 := ⟨limit.toNat - 1, by omega⟩
  rw [hfuel] at hsettle
  obtain ⟨_, hround, hrest⟩ := bind_eq_ok.mp hsettle
  obtain ⟨s, hs, hlabels, hcentres⟩ := afterRounds_of_settle fuel 1 (.first hround) hrest
  have hformed := hs.wellFormed hne hsize (List.length_pos_iff.mp (hlength ▸ hpos)) hpoints
  have hil : i < s.labels.length := hformed.labelled.symm ▸ hi
  refine ⟨s.labels[i], ?_, by rw [hlabels, List.getElem?_map, List.getElem?_eq_getElem hil]; rfl⟩
  rw [hcentres, hformed.count]
  exact hformed.labels _ (List.getElem_mem hil)

/-- **Clusters are well formed.** Clustering that allows for a round gives as many clusters as asked
for, but not more than there are points. Each point has a label, each label a centre of the size of
points, and each coordinate of a centre is one that some point has in this place. This holds after
every round. -/
theorem wellFormed_kmodes (hne : points ≠ []) (hsize : ∀ p ∈ points, p.length = size)
    {k rounds : Document} {limit : Int} (hrounds : rounds.whole = .ok limit) (hlimit : 1 ≤ limit)
    {g : Gen} {c : Clustering} (h : (kmodes points k rounds g).1 = .ok c) :
    ∃ count, clusterCount k points.length = .ok count ∧ 1 ≤ count ∧ count ≤ points.length ∧
      (∀ m : Int, k = .int m → (count : Int) = min m points.length) ∧
      ∃ centres g', seedCentres points count g = .ok (centres, g') ∧
        (∀ s, AfterRounds points centres s → WellFormed points size count s) ∧
        ∃ s, AfterRounds points centres s ∧ c.labels = s.labels.map some ∧
          c.centres = s.centres := by
  obtain ⟨number, count, centres, g', limit', hnumber, hpositive, hcount, hseed, hlimit',
    hsettle⟩ := kmodes_eq_ok hne h
  cases hrounds.symm.trans hlimit'
  obtain ⟨hpos, hle, hint⟩ :=
    clusterCount_spec (List.length_pos_iff.mpr hne) hnumber hpositive hcount
  obtain ⟨hlength, hpoints⟩ := seedCentres_spec hne hpos hseed
  have hsome : centres ≠ [] := List.length_pos_iff.mp (hlength ▸ hpos)
  refine ⟨count, hcount, hpos, hle, hint, centres, g', hseed, fun s hs => ?_, ?_⟩
  · exact hlength ▸ hs.wellFormed hne hsize hsome hpoints
  · obtain ⟨fuel, hfuel⟩ : ∃ fuel, limit.toNat = fuel + 1 := ⟨limit.toNat - 1, by omega⟩
    rw [hfuel] at hsettle
    obtain ⟨s, hround, hrest⟩ := bind_eq_ok.mp hsettle
    exact afterRounds_of_settle fuel 1 (.first hround) hrest

/-- Points of which two are the same. -/
def twinPoints : List Point := [[1, 0], [1, 0], [3, 2]]

/-- Four clusters of three points. One loses its point, as it has the same centre as another, and
takes it again in every round. -/
theorem wellFormed_kmodes_twins :
    twinPoints ≠ [] ∧ (∀ p ∈ twinPoints, p.length = 2) ∧ (Document.int 3).whole = .ok 3 ∧
    (kmodes twinPoints (.int 4) (.int 3) ⟨0⟩).1 =
      .ok ⟨[some 2, some 0, some 1], [[1, 0], [3, 2], [1, 0]], none⟩ ∧
    labelsFor [[1, 0], [3, 2], [1, 0]] twinPoints = [0, 0, 1] ∧
    ∃ s, WellFormed twinPoints 2 3 s ∧ s.labels.map some = [some 2, some 0, some 1] ∧
      s.centres = [[1, 0], [3, 2], [1, 0]] := by
  have hne : twinPoints ≠ [] := List.cons_ne_nil _ _
  have hsize : ∀ p ∈ twinPoints, p.length = 2 := by decide
  have hrun : (kmodes twinPoints (.int 4) (.int 3) ⟨0⟩).1 =
      .ok ⟨[some 2, some 0, some 1], [[1, 0], [3, 2], [1, 0]], none⟩ := rfl
  obtain ⟨count, -, -, -, hcount, centres, _, -, hformed, s, hs, hlabels, hcentres⟩ :=
    wellFormed_kmodes hne hsize rfl (by decide : (1 : Int) ≤ 3) hrun
  obtain rfl : count = 3 := Int.ofNat.inj (hcount 4 rfl)
  exact ⟨hne, hsize, rfl, hrun, rfl, s, hformed s hs, hlabels.symm, hcentres.symm⟩

end Questionnaire.Cluster
