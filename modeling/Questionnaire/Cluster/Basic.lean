/-
# Clusters of points

Points are lists of whole numbers of one length, and their distance is the
number of places in which they differ. Clustering alternates between giving
every point the label of its nearest centre and replacing every centre by the
commonest values of its points, until the labels stay as they are. A cluster
that has lost all points takes the one that is farthest from its own centre.

Key definitions: `distance`, `nearest`, `modes`, `seedCentres`, `round`, `kmodes`.
-/
import Questionnaire.Document.Access
import Questionnaire.Whole
import Questionnaire.Random

namespace Questionnaire.Cluster

/-- A point. -/
abbrev Point := List Int

/-- In how many places two points differ. -/
def distance (p q : Point) : Nat := (p.zip q).countP fun (x, y) => x != y

/-- The place of the first smallest number of a list; zero if the list is empty. -/
def leastPlace (ns : List Nat) : Nat := ns.findIdx fun n => ns.all (n ≤ ·)

/-- The place of the first greatest number of a list; zero if the list is empty. -/
def greatestPlace (ns : List Nat) : Nat := ns.findIdx fun n => ns.all (· ≤ n)

/-- The label of a point: the place of the nearest centre, the first one of several. -/
def nearest (centres : List Point) (p : Point) : Nat := leastPlace (centres.map (distance p))

/-- The label of each point. -/
def labelsFor (centres points : List Point) : List Nat := points.map (nearest centres)

/-- Whether a value is commoner than another, or as common and smaller. -/
def isCommoner (values : List Int) (x y : Int) : Bool :=
  values.count y < values.count x || (values.count x == values.count y && x < y)

/-- The commonest value of a list; the smallest one of several. -/
def mode : List Int → Int
  | [] => 0
  | first :: rest =>
    rest.foldl (fun best x => if isCommoner (first :: rest) x best then x else best) first

/-- The commonest value at each of the first `size` places of some points. -/
def modes (size : Nat) (members : List Point) : Point :=
  (List.range size).map fun j => mode (members.map (·.getD j 0))

/-! ### The first centres -/

/-- The distance of a point from the nearest of some points. -/
def distanceFrom (chosen : List Point) (p : Point) : Nat := ((chosen.map (distance p)).min?).getD 0

/-- How much each point is preferred as the next centre: by the square of its
distance from the centres chosen before. -/
def preferences (chosen points : List Point) : List Nat :=
  points.map fun p => distanceFrom chosen p * distanceFrom chosen p

/-- Chooses one more centre, by preference if any point is preferred. -/
def chooseCentre (points chosen : List Point) : Trial Point := fun g => do
  let ws := preferences chosen points
  let (i, g) ←
    if sumOf ws = 0 then .ok (g.below points.length)
    else Gen.weighted points.length (ws.map fun w => Float.ofNat w / Float.ofNat (sumOf ws)) g
  return (points.getD i [], g)

/-- Chooses `count` centres in addition to those chosen before. -/
def chooseCentres (points : List Point) : Nat → List Point → Trial (List Point)
  | 0, chosen, g => .ok (chosen, g)
  | count + 1, chosen, g => do
    let (p, g) ← chooseCentre points chosen g
    chooseCentres points count (chosen ++ [p]) g

/-- The first centres: any point, and then points away from those chosen before. -/
def seedCentres (points : List Point) (count : Nat) : Trial (List Point) := fun g =>
  let (i, g) := g.below points.length
  chooseCentres points (count - 1) [points.getD i []] g

/-! ### Rounds -/

/-- Labels and centres. -/
structure State where
  labels : List Nat
  centres : List Point
  deriving DecidableEq, Repr, Inhabited

/-- The points with a label. -/
def State.members (s : State) (points : List Point) (label : Nat) : List Point :=
  ((points.zip s.labels).filter (·.2 == label)).map (·.1)

/-- The distance of each point from the centre of its label, by the centres of the round's
beginning. -/
def ownDistances (centres points : List Point) (labels : List Nat) : List Nat :=
  (points.zip labels).map fun (p, label) => distance p (centres.getD label [])

/-- The least coordinate that is too large for a table of counts: the bytes of a table with a word
of eight bytes for every number up to it cannot themselves be numbered by a word. -/
def countLimit : Int := twoTo 60 - 1

/-- Whether the values of points can be counted. -/
def areCountable (members : List Point) : Bool :=
  members.all (·.all fun x => 0 ≤ x && x < countLimit)

/-- Replaces the centre of a label by the commonest values of its points, or,
if it has none, by the point that is farthest from its own centre. -/
def recentre (before points : List Point) (s : State) (label : Nat) : Except Fault State :=
  match s.members points label with
  | [] =>
    let far := greatestPlace (ownDistances before points s.labels)
    .ok ⟨s.labels.set far label, s.centres.set label (points.getD far [])⟩
  | p :: ps =>
    if areCountable (p :: ps) then
      .ok { s with centres := s.centres.set label (modes p.length (p :: ps)) }
    else .error .unsuitable

/-- A round after the labels were given: every centre is replaced. -/
def round (points centres : List Point) (labels : List Nat) : Except Fault State :=
  (List.range centres.length).foldlM (recentre centres points) ⟨labels, centres⟩

/-! ### Clustering -/

/-- What clustering results in. Before the first round points have no label. -/
structure Clustering where
  labels : List (Option Nat)
  centres : List Point
  /-- The number of rounds after which the labels stayed as they were. -/
  settledAfter : Option Nat := none
  deriving DecidableEq, Repr, Inhabited

/-- Rounds until the labels stay as they are, at most `fuel`; `done` were before. -/
def settle (points : List Point) : (fuel done : Nat) → (labels : Option (List Nat)) →
    (centres : List Point) → Except Fault Clustering
  | 0, _, labels, centres =>
    .ok ⟨match labels with
      | some ls => ls.map some
      | none => points.map fun _ => none, centres, none⟩
  | fuel + 1, done, labels, centres =>
    let next := labelsFor centres points
    if labels == some next then .ok ⟨next.map some, centres, some done⟩
    else do
      let s ← round points centres next
      settle points fuel (done + 1) (some s.labels) s.centres

/-- How many clusters there are to be of some points, when `k` are asked for: not more than
there are points. -/
def clusterCount (k : Document) (size : Nat) : Except Fault Nat := do
  if (Number.int size).blt (← k.number) then return size else return (← k.whole).toNat

/-- Clusters of some points: `k` of them, but not more than there are points. If `k` is no whole
number this is noticed only after the first centre was drawn. -/
def kmodes (points : List Point) (k rounds : Document) : Draw (Except Fault Clustering) := fun g =>
  if points.isEmpty then (.ok ⟨[], [], none⟩, g)
  else match k.number with
    | .error fault => (.error fault, g)
    | .ok number =>
      if number.blt 1 then (.error .clusterCountNotPositive, g)
      else match clusterCount k points.length with
        | .error fault => (.error fault, (g.below points.length).2)
        | .ok count =>
          match seedCentres points count g with
          | .error fault => (.error fault, g)
          | .ok (centres, g) =>
            (do settle points (← rounds.whole).toNat 0 none centres, g)

end Questionnaire.Cluster
