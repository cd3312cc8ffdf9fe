/-
# Responses in clusters

Clustering a batch that has responses clusters their points, one for each, and
marks each response by the label and the point at its place. So what is known
of labels holds of responses: those of one cluster take the same validity, and
responses with the same point are in one cluster unless the last round of
clustering took the point of one of them.

Key definition: `Batch.HasPoints`.
Key theorems: `Batch.clusterResponses_eq_ok`, `getElem?_markClusters`,
`Batch.take_what_prevails`, `Batch.share_cluster_iff`.
-/
import Questionnaire.Proofs.Classify.Marking
import Questionnaire.Proofs.Classify.Prevailing
import Questionnaire.Proofs.Cluster.Taken
import Questionnaire.Survey.Samples

namespace Questionnaire

open Cluster (Point Clustering distance kmodes TakenLast)

/-! ### The points of a batch -/

/-- The points are those of the responses of the batch, in order. -/
def Batch.HasPoints (b : Batch) (s : Survey) (points : List Point) : Prop :=
  ∃ ranks, b.responses.mapM (·.point s) = .ok ranks ∧ points = ranks.map (·.map Int.ofNat)

namespace Batch.HasPoints

variable {b : Batch} {s : Survey} {points : List Point}

theorem length_eq (h : b.HasPoints s points) : points.length = b.responses.length := by
  obtain ⟨ranks, hranks, rfl⟩ := h
  rw [List.length_map]
  exact (forall₂_of_mapM hranks).length_eq.symm

theorem getElem? (h : b.HasPoints s points) {i : Nat} {r : Response}
    (hr : b.responses[i]? = some r) :
    ∃ rank, r.point s = .ok rank ∧ points[i]? = some (rank.map Int.ofNat) := by
  obtain ⟨ranks, hranks, rfl⟩ := h
  have hall := forall₂_of_mapM hranks
  obtain ⟨hi, rfl⟩ := List.getElem?_eq_some_iff.mp hr
  have hi' : i < ranks.length := hall.length_eq ▸ hi
  refine ⟨ranks[i], hall.get hi hi', ?_⟩
  rw [List.getElem?_map, List.getElem?_eq_getElem hi']
  rfl

/-- All points have a coordinate for each question that counts. -/
theorem sizes (h : b.HasPoints s points) :
    ∀ p ∈ points, p.length = (s.questions.filter (!·.isCustom)).length := by
  obtain ⟨ranks, hranks, rfl⟩ := h
  intro p hp
  obtain ⟨rank, hrank, rfl⟩ := List.mem_map.mp hp
  obtain ⟨r, -, hpoint⟩ := exists_of_mem_right (forall₂_of_mapM hranks) hrank
  rw [List.length_map]
  exact (forall₂_of_mapM hpoint).length_eq.symm

/-- Responses with the same point are at places with the same point. -/
theorem congr (h : b.HasPoints s points) {i j : Nat} {r r' : Response}
    (hr : b.responses[i]? = some r) (hr' : b.responses[j]? = some r')
    (hsame : r.point s = r'.point s) : points[i]? = points[j]? := by
  obtain ⟨rank, hrank, hp⟩ := h.getElem? hr
  obtain ⟨rank', hrank', hp'⟩ := h.getElem? hr'
  rw [hrank, hrank'] at hsame
  rw [hp, hp', Except.ok.inj hsame]

end Batch.HasPoints

/-! ### Marks -/

section Marks

variable {c : Clustering} {points : List Point} {responses : List Response} {i : Nat}
  {label : Option Nat} {p : Point} {r : Response}

theorem getElem?_labelled (hlabel : c.labels[i]? = some label) (hp : points[i]? = some p)
    (hr : responses[i]? = some r) :
    (labelled c points responses)[i]? = some (label, clusterMarks c label p r) := by
  have hpoint : (points.zip responses)[i]? = some (p, r) :=
    List.getElem?_zip_eq_some.mpr ⟨hp, hr⟩
  have hentry : (c.labels.zip (points.zip responses))[i]? = some (label, p, r) :=
    List.getElem?_zip_eq_some.mpr ⟨hlabel, hpoint⟩
  unfold labelled
  rw [List.getElem?_map, hentry]
  rfl

/-- A response is marked by the label and the point at its place; only its validity depends on
others. -/
theorem getElem?_markClusters (hlabel : c.labels[i]? = some label) (hp : points[i]? = some p)
    (hr : responses[i]? = some r) (supervised : Bool) :
    ∃ computed, (markClusters c points supervised responses)[i]? =
      some { clusterMarks c label p r with computed } := by
  have hentry := getElem?_labelled hlabel hp hr
  cases supervised with
  | false =>
    refine ⟨r.computed, ?_⟩
    change ((labelled c points responses).map (·.2))[i]? = _
    rw [List.getElem?_map, hentry]
    rfl
  | true =>
    refine ⟨prevailing (((labelled c points responses).filter (·.1 == label)).map (·.2)), ?_⟩
    change (supervise (labelled c points responses))[i]? = _
    unfold supervise
    rw [List.getElem?_map, hentry]
    rfl

end Marks

namespace Batch

variable {b b' : Batch} {s : Survey} {k rounds : Document} {supervised : Bool}

/-- Clustering a batch that succeeds marks its responses by a clustering of their points. -/
theorem clusterResponses_eq_ok (hne : b.responses ≠ [])
    (h : runFrom b (clusterResponses s k rounds supervised) = (.ok (), b')) :
    ∃ points c, b.HasPoints s points ∧ (kmodes points k rounds b.session.gen).1 = .ok c ∧
      b'.responses = markClusters c points supervised b.responses := by
  unfold clusterResponses at h
  obtain ⟨_, _, hget, h⟩ := runFrom_bind_eq_ok h
  cases hget
  rw [if_neg (by simpa using hne)] at h
  obtain ⟨ranks, _, hread, h⟩ := runFrom_bind_eq_ok h
  rw [runFrom_batchLift] at hread
  obtain ⟨hranks, rfl⟩ := Prod.mk.inj hread
  obtain ⟨c, b₁, hdrawn, h⟩ := runFrom_bind_eq_ok h
  rw [runFrom_inSession, Session.runFrom_tryDraw] at hdrawn
  obtain ⟨hclusters, rfl⟩ := Prod.mk.inj hdrawn
  obtain ⟨_, b₂, _, h⟩ := runFrom_bind_eq_ok h
  cases h
  exact ⟨_, c, ⟨ranks, hranks, rfl⟩, hclusters, rfl⟩

/-- With a round allowed for, every response gets the name of a label, and its score is the distance
of its point from the centre of this label. -/
theorem marks_of_clusterResponses (supervised : Bool) {limit : Int}
    (hrounds : rounds.whole = .ok limit) (hlimit : 1 ≤ limit) {points : List Point}
    {c : Clustering} (hpoints : b.HasPoints s points)
    (hclusters : (kmodes points k rounds b.session.gen).1 = .ok c) {i : Nat} {r : Response}
    (hr : b.responses[i]? = some r) :
    ∃ p label centre computed, points[i]? = some p ∧ c.labels[i]? = some (some label) ∧
      c.centres[label]? = some centre ∧
      (markClusters c points supervised b.responses)[i]? = some { r with
        cluster := .str (clusterName (some label)), score := .float (.ofNat (distance p centre)),
        threshold := .null, computed } := by
  obtain ⟨rank, -, hp⟩ := hpoints.getElem? hr
  have hne : points ≠ [] := by
    rintro rfl
    cases hp
  have hi : i < points.length := (List.getElem?_eq_some_iff.mp hp).1
  obtain ⟨label, hlt, hlabel⟩ :=
    Cluster.exists_label_of_kmodes hne hpoints.sizes hrounds hlimit hclusters hi
  have hcentre : c.centre (some label) = c.centres[label] :=
    (List.getD_eq_getElem?_getD ..).trans (by rw [List.getElem?_eq_getElem hlt]; rfl)
  obtain ⟨computed, hmarked⟩ := getElem?_markClusters hlabel hp hr supervised
  refine ⟨_, label, c.centres[label], computed, hp, hlabel, List.getElem?_eq_getElem hlt, ?_⟩
  rw [hmarked, clusterMarks, hcentre]

/-- **Supervised clusters take the validity that prevails in them.** Responses of one cluster are
found to be the same, namely what is known of most of them; of several validities the one that is
met first decides. A score is the number of coordinates in which the point of the response differs
from the centre of its label. -/
theorem take_what_prevails (s : Survey) (k : Document) {rounds : Document} {limit : Int}
    (hrounds : rounds.whole = .ok limit) (hlimit : 1 ≤ limit) {b b' : Batch}
    (hne : b.responses ≠ []) (h : runFrom b (clusterResponses s k rounds true) = (.ok (), b')) :
    b.Remarked b' ∧
    (∀ r ∈ b'.responses, ∀ r' ∈ b'.responses, r.cluster = r'.cluster →
      r.computed = r'.computed) ∧
    (∀ r ∈ b'.responses,
      Prevails ((b'.responses.filter (·.cluster == r.cluster)).map (·.known)) r.computed) ∧
    ∃ points c, b.HasPoints s points ∧ (kmodes points k rounds b.session.gen).1 = .ok c ∧
      ∀ (i : Nat) (r : Response), b.responses[i]? = some r →
        ∃ p label centre computed, points[i]? = some p ∧ c.labels[i]? = some (some label) ∧
          c.centres[label]? = some centre ∧ b'.responses[i]? = some { r with
            cluster := .str (clusterName (some label))
            score := .float (.ofNat (distance p centre))
            threshold := .null
            computed } := by
  have hmarks : b.Remarked b' := by
    have hclustered := remarked_clusterResponses s k rounds true b
    rwa [h] at hclustered
  obtain ⟨points, c, hpoints, hclusters, hresponses⟩ := clusterResponses_eq_ok hne h
  have hnamed := named_labelled c points b.responses
  have hsupervised : b'.responses = supervise (labelled c points b.responses) := hresponses
  refine ⟨hmarks, ?same, ?prevails, points, c, hpoints, hclusters, ?marks⟩
  case same =>
    rw [hsupervised]
    exact fun r hr r' hr' hcluster => computed_of_mem_supervise hnamed hr hr' hcluster
  case prevails =>
    rw [hsupervised]
    exact fun r hr => prevails_of_mem_supervise hnamed hr
  case marks =>
    rw [hresponses]
    exact fun i r hr => marks_of_clusterResponses true hrounds hlimit hpoints hclusters hr

/-- A response that selects the choice of a rank for the only question. -/
def pick (id : String) (rank : Nat) (known : Validity) : Response where
  id := .str id
  known := known
  answers := (Survey.flat 1 2).questions.map fun q =>
    { question := q, selections := (q.choices[rank]?).toList.map (⟨·, .int rank⟩) }

/-- Two responses that are alike but known to be different, and another one. -/
def trio : Batch where
  session := { config := {}, gen := ⟨0⟩ }
  responses := [pick "a" 0 .no, pick "b" 0 .yes, pick "c" 1 .yes]

/-- What clustering them into two clusters under supervision leaves. -/
def trioClustered : Except Fault Unit × Batch :=
  runFrom trio (clusterResponses (Survey.flat 1 2) (.int 2) (.int 50) true)

/-- Two validities are known once each in the first cluster; the one that is met first prevails. -/
theorem take_what_prevails_trio :
    (Document.int 50).whole = .ok 50 ∧ trio.responses ≠ [] ∧
    ∃ b', trioClustered = (.ok (), b') ∧
      (b'.responses.filter (·.cluster == .str "cluster_0")).map (·.known) = [.no, .yes] ∧
      ∀ r ∈ b'.responses, r.cluster = .str "cluster_0" → r.computed = .no := by
  have hne : trio.responses ≠ [] := List.cons_ne_nil _ _
  have hrun : trioClustered.1 = .ok () := by decide +kernel
  have hknown : (trioClustered.2.responses.filter (·.cluster == .str "cluster_0")).map (·.known) =
      [.no, .yes] := by decide +kernel
  have h : trioClustered = (.ok (), trioClustered.2) := Prod.ext hrun rfl
  obtain ⟨-, -, hprevails, -⟩ := take_what_prevails _ _ rfl (by decide : (1 : Int) ≤ 50) hne h
  refine ⟨rfl, hne, trioClustered.2, h, hknown, fun r hr hcluster => ?_⟩
  have hfirst : Prevails [Validity.no, .yes] .no := by
    refine ⟨by decide, fun v => ?_, fun v _ => ?_⟩ <;> cases v <;> decide
  have hr := hprevails r hr
  rw [hcluster, hknown] at hr
  exact hr.unique hfirst

/-- **Equal points share a label unless the last round took one of them**, which then has a label
that no other point has. So responses with the same point are in one cluster exactly if neither was
taken by the last round, and then take the same validity under supervision. Clustering that settled
has not taken any of them. -/
theorem share_cluster_iff (k : Document) {rounds : Document} {limit : Int}
    (hrounds : rounds.whole = .ok limit) (hlimit : 1 ≤ limit) :
    (∀ (points : List Point) (g : Gen) (c : Clustering), (kmodes points k rounds g).1 = .ok c →
      (∀ i < points.length, ∀ j < points.length, i ≠ j →
        (points[i]? = points[j]? → (c.labels[i]? = c.labels[j]? ↔
          ¬TakenLast points k rounds g i ∧ ¬TakenLast points k rounds g j)) ∧
        (TakenLast points k rounds g i → c.labels[i]? ≠ c.labels[j]?)) ∧
      (c.settledAfter ≠ none → ∀ i, ¬TakenLast points k rounds g i)) ∧
    ∀ (s : Survey) (supervised : Bool) (b b' : Batch), b.responses ≠ [] →
      runFrom b (clusterResponses s k rounds supervised) = (.ok (), b') →
      ∃ points c, b.HasPoints s points ∧ (kmodes points k rounds b.session.gen).1 = .ok c ∧
        ∀ (i j : Nat) (r₁ r₂ : Response), i ≠ j → b.responses[i]? = some r₁ →
          b.responses[j]? = some r₂ → r₁.point s = r₂.point s →
          ∃ r₁' r₂', b'.responses[i]? = some r₁' ∧ b'.responses[j]? = some r₂' ∧
            (r₁'.cluster = r₂'.cluster ↔ ¬TakenLast points k rounds b.session.gen i ∧
              ¬TakenLast points k rounds b.session.gen j) ∧
            (supervised = true → r₁'.cluster = r₂'.cluster → r₁'.computed = r₂'.computed) := by
  have hshare {points : List Point} {g : Gen} {c : Clustering} {i j : Nat}
      (hne : points ≠ []) (hc : (kmodes points k rounds g).1 = .ok c) (hij : i ≠ j)
      (hsame : points[i]? = points[j]?) : c.labels[i]? = c.labels[j]? ↔
        ¬TakenLast points k rounds g i ∧ ¬TakenLast points k rounds g j := by
    rw [← not_or, ← Cluster.kmodes_parts_iff hne hrounds hlimit hc hij hsame, not_not]
  constructor
  · refine fun points g c hc => ⟨fun i hi j _ hij => ?_, ?_⟩
    · have hne : points ≠ [] := List.ne_nil_of_length_pos (Nat.zero_lt_of_lt hi)
      exact ⟨hshare hne hc hij,
        fun htaken => Cluster.alone_of_takenLast hne hrounds hlimit hc htaken hij⟩
    · rintro hsettled i ⟨c', _, hc', hnone, -⟩
      cases hc.symm.trans hc'
      exact hsettled hnone
  · intro s supervised b b' hne h
    obtain ⟨points, c, hpoints, hc, hresponses⟩ := clusterResponses_eq_ok hne h
    refine ⟨points, c, hpoints, hc, fun i j r₁ r₂ hij hr₁ hr₂ hpoint => ?_⟩
    obtain ⟨_, l₁, _, _, hp₁, hl₁, -, hr₁'⟩ :=
      marks_of_clusterResponses supervised hrounds hlimit hpoints hc hr₁
    obtain ⟨_, l₂, _, _, -, hl₂, -, hr₂'⟩ :=
      marks_of_clusterResponses supervised hrounds hlimit hpoints hc hr₂
    rw [← hresponses] at hr₁' hr₂'
    refine ⟨_, _, hr₁', hr₂', ?cluster, ?computed⟩
    case cluster =>
      have hsome : points ≠ [] := by
        rintro rfl
        cases hp₁
      have hshared := hshare hsome hc hij (hpoints.congr hr₁ hr₂ hpoint)
      rw [hl₁, hl₂, Option.some_inj] at hshared
      dsimp only
      rw [Document.str.injEq, clusterName_injective.eq_iff, hshared]
    case computed =>
      rintro rfl hcluster
      have hsupervised : b'.responses = supervise (labelled c points b.responses) := hresponses
      have hmem₁ := List.mem_of_getElem? hr₁'
      have hmem₂ := List.mem_of_getElem? hr₂'
      rw [hsupervised] at hmem₁ hmem₂
      exact computed_of_mem_supervise (named_labelled c points b.responses) hmem₁ hmem₂ hcluster

/-- Two responses that are alike, to be clustered in one round only, which takes the first one. -/
def pair : Batch where
  session := { config := {}, gen := ⟨0⟩ }
  responses := [pick "a" 0 .no, pick "b" 0 .yes]

theorem share_cluster_iff_pair :
    (Document.int 1).whole = .ok 1 ∧
    (∃ c : Clustering, (kmodes [[0], [0]] (.int 2) (.int 1) ⟨0⟩).1 = .ok c ∧
      c.labels = [some 1, some 0] ∧ (TakenLast [[0], [0]] (.int 2) (.int 1) ⟨0⟩ 0 ∨
        TakenLast [[0], [0]] (.int 2) (.int 1) ⟨0⟩ 1)) ∧
    pair.responses ≠ [] ∧
    ∃ b' points r₁' r₂',
      runFrom pair (clusterResponses (Survey.flat 1 2) (.int 2) (.int 1) true) = (.ok (), b') ∧
      pair.HasPoints (Survey.flat 1 2) points ∧
      b'.responses[0]? = some r₁' ∧ b'.responses[1]? = some r₂' ∧
      (r₁'.cluster = r₂'.cluster ↔ ¬TakenLast points (.int 2) (.int 1) pair.session.gen 0 ∧
        ¬TakenLast points (.int 2) (.int 1) pair.session.gen 1) := by
  have hne : pair.responses ≠ [] := List.cons_ne_nil _ _
  have hkmodes : (kmodes [[0], [0]] (.int 2) (.int 1) ⟨0⟩).1 =
      .ok ⟨[some 1, some 0], [[0], [0]], none⟩ := rfl
  have hrun : (runFrom pair (clusterResponses (Survey.flat 1 2) (.int 2) (.int 1) true)).1 =
      .ok () := by decide +kernel
  have hpoint : (pick "a" 0 .no).point (Survey.flat 1 2) =
      (pick "b" 0 .yes).point (Survey.flat 1 2) := by decide +kernel
  have hrounds : (Document.int 1).whole = .ok 1 := rfl
  obtain ⟨hpoints, hresponses⟩ := share_cluster_iff (.int 2) hrounds (by decide : (1 : Int) ≤ 1)
  obtain ⟨hshare, -⟩ := (hpoints _ _ _ hkmodes).1 0 (by decide) 1 (by decide) (by decide)
  have htaken := mt (hshare rfl).mpr (by decide)
  obtain ⟨points, c, hhas, -, hshares⟩ :=
    hresponses (Survey.flat 1 2) true pair _ hne (Prod.ext hrun rfl)
  obtain ⟨r₁', r₂', hr₁', hr₂', hcluster, -⟩ := hshares 0 1 _ _ (by decide) rfl rfl hpoint
  refine ⟨rfl, ⟨_, hkmodes, rfl, ?_⟩, hne, _, points, r₁', r₂', Prod.ext hrun rfl, hhas, hr₁',
    hr₂', hcluster⟩
  rwa [not_and_or, not_not, not_not] at htaken

/-- Equal points may have different labels. -/
theorem equal_points_apart : ¬∀ (points : List Point) (size k limit : Nat) (g : Gen)
    (c : Clustering), (∀ p ∈ points, p.length = size ∧ ∀ x ∈ p, 0 ≤ x) → 1 ≤ k → 1 ≤ limit →
      (kmodes points (.int k) (.int limit) g).1 = .ok c →
      ∀ i < points.length, ∀ j < points.length, points[i]? = points[j]? →
        c.labels[i]? = c.labels[j]? := by
  intro hshare
  have hrun : (kmodes [[0], [0]] (.int 2) (.int 1) ⟨0⟩).1 =
      .ok ⟨[some 1, some 0], [[0], [0]], none⟩ := rfl
  have hsame := hshare [[0], [0]] 1 2 1 ⟨0⟩ _ (by decide) (by decide) (by decide) hrun
    0 (by decide) 1 (by decide) rfl
  exact absurd hsame (by decide)

end Batch

end Questionnaire
