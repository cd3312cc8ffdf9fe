/-
# Every point has a label

A round labels each point anew, and replacing the centres after that may give a
point to another cluster but loses none. So clustering that succeeds has as many
labels as there are points, however many rounds it takes.

Key theorems: `Cluster.kmodes_eq_ok`, `Cluster.length_labels_kmodes`.
-/
import Questionnaire.Cluster.Basic
import Questionnaire.Proofs.Success

namespace Questionnaire.Cluster

variable {points centres : List Point}

theorem length_labels_recentre {s s' : State} {label : Nat}
    (h : recentre centres points s label = .ok s') : s'.labels.length = s.labels.length := by
  unfold recentre at h
  split at h
  · cases h
    exact List.length_set
  · split at h <;> cases h
    rfl

theorem length_labels_round {labels : List Nat} {s : State}
    (h : round points centres labels = .ok s) : s.labels.length = labels.length :=
  foldlM_preserves (P := fun s => s.labels.length = labels.length)
    (fun _ _ _ _ hsame hstep => (length_labels_recentre hstep).trans hsame) rfl h

theorem length_labelsFor (centres points : List Point) :
    (labelsFor centres points).length = points.length :=
  List.length_map _

theorem length_labels_settle : ∀ (fuel done : Nat) (labels : Option (List Nat))
    (centres : List Point) {c : Clustering}, (∀ ls ∈ labels, ls.length = points.length) →
      settle points fuel done labels centres = .ok c → c.labels.length = points.length
  | 0, _, none, _, _, _, h => by
    cases h
    exact List.length_map _
  | 0, _, some labels, _, _, hlabels, h => by
    cases h
    exact (List.length_map _).trans (hlabels labels rfl)
  | fuel + 1, done, labels, centres, _, _, h => by
    have hnext := length_labelsFor centres points
    unfold settle at h
    dsimp only at h
    split at h
    · cases h
      exact (List.length_map _).trans hnext
    · obtain ⟨s, hround, hrest⟩ := bind_eq_ok.mp h
      have hround := (length_labels_round hround).trans hnext
      refine length_labels_settle fuel (done + 1) (some s.labels) s.centres ?_ hrest
      rintro _ ⟨⟩
      exact hround

/-- Clustering points that are not none succeeds if there are clusters to make, the first centres
can be chosen and the rounds go well. -/
theorem kmodes_eq_ok (hne : points ≠ []) {k rounds : Document} {g : Gen} {c : Clustering}
    (h : (kmodes points k rounds g).1 = .ok c) :
    ∃ number count first g' limit, k.number = .ok number ∧ number.blt 1 = false ∧
      clusterCount k points.length = .ok count ∧ seedCentres points count g = .ok (first, g') ∧
      rounds.whole = .ok limit ∧ settle points limit.toNat 0 none first = .ok c := by
  unfold kmodes at h
  rw [if_neg (by simpa using hne)] at h
  split at h
  case h_1 => cases h
  case h_2 number hnumber =>
    by_cases hpositive : number.blt 1 = true
    · rw [if_pos hpositive] at h
      cases h
    rw [if_neg hpositive] at h
    split at h
    case h_1 => cases h
    case h_2 count hcount =>
      split at h
      case h_1 => cases h
      case h_2 first g' hseed =>
        obtain ⟨limit, hlimit, hsettle⟩ := bind_eq_ok.mp h
        exact ⟨number, count, first, g', limit, hnumber, by simpa using hpositive, hcount, hseed,
          hlimit, hsettle⟩

/-- **Clustering that succeeds labels each point.** -/
theorem length_labels_kmodes {k rounds : Document} {g : Gen} {c : Clustering}
    (h : (kmodes points k rounds g).1 = .ok c) : c.labels.length = points.length := by
  by_cases hne : points = []
  · subst hne
    cases h
    rfl
  · obtain ⟨_, _, first, _, limit, -, -, -, -, -, hsettle⟩ := kmodes_eq_ok hne h
    exact length_labels_settle limit.toNat 0 none first (by simp) hsettle

end Questionnaire.Cluster
