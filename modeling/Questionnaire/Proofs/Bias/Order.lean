/-
# Order biases in both directions

What one direction counts as seen before, the other one counts as seen after.
So if all who answer a question select something, the two samples of one
direction are as large as those of the other, with their parts changed. Samples
that are too small are passed over in both directions, but the ratio of the
sizes is taken one way only, and may be near to one while its inverse is not.

Key definitions: `OrderSamples.Mirrors`, `Reports`.
Key theorems: `Number.blt_asymm`, `OrderSamples.mirrors_orderSamples`,
`reports_both_ways_iff`.
-/
import Questionnaire.Bias.Order
import Questionnaire.Proofs.Document.Key
import Questionnaire.Proofs.Document.Order
import Questionnaire.Survey.Samples

namespace Questionnaire

/-! ### The order of numbers -/

theorem Unpacked.compare_swap (a b : Float.Model.UnpackedFloat) :
    (a.compare b).map Ordering.swap = b.compare a := by
  have hfinite (e e' : Int) (m m' : Nat) : ((compare e e').then (compare m m')).swap =
      (compare e' e).then (compare m' m) := by
    rw [Ordering.swap_then, ← Std.OrientedOrd.eq_swap, ← Std.OrientedOrd.eq_swap]
  rcases a with s | _ | s | ⟨s, m, e, _⟩ <;> rcases b with s' | _ | s' | ⟨s', m', e', _⟩
  case finite.finite =>
    cases s <;> cases s'
    case positive.positive => exact congrArg some (hfinite e e' m m')
    case negative.negative => exact congrArg (some ·.swap) (hfinite e e' m m')
    all_goals rfl
  all_goals first | rfl | (cases s <;> cases s' <;> rfl)

/-- Of two numbers at most one comes before the other. -/
theorem Number.blt_asymm {a b : Number} (h : a.blt b = true) : b.blt a = false := by
  have hswap {o o' : Option Ordering} (hoo' : o.map Ordering.swap = o')
      (ho : (o == some .lt) = true) : (o' == some .lt) = false := by
    obtain rfl := beq_iff_eq.mp ho
    subst hoo'
    rfl
  match a, b with
  | .int m, .int n =>
    refine hswap (o := some (compare m n)) ?_ h
    rw [Option.map_some, ← Std.OrientedOrd.eq_swap]
    rfl
  | .float x, .int n => exact hswap (compare?_swap x n).symm h
  | .int m, .float y =>
    refine hswap (o := compare? (.int m) (.float y)) ?_ h
    have htwice : Ordering.swap ∘ Ordering.swap = id := funext fun _ => Ordering.swap_swap
    rw [compare?_swap, Option.map_map]
    exact (congrArg (Option.map · _) htwice).trans Option.map_id_apply
  | .float x, .float y =>
    rw [blt_float] at h ⊢
    exact hswap (Unpacked.compare_swap _ _) h

/-- Of two documents that are numbers at most one comes before the other. -/
theorem Document.less_asymm {a b : Document} (ha : a.number?.isSome = true)
    (hb : b.number?.isSome = true) (h : a.less b = .ok true) : b.less a = .ok false := by
  have hkind {d : Document} (hd : d.number?.isSome = true) :
      (∃ b, d = bool b) ∨ (∃ n, d = int n) ∨ (∃ x, d = float x) ∨ ∃ mark, d = nan mark := by
    cases d with
    | bool b => exact .inl ⟨b, rfl⟩
    | int n => exact .inr (.inl ⟨n, rfl⟩)
    | float x => exact .inr (.inr (.inl ⟨x, rfl⟩))
    | nan mark => exact .inr (.inr (.inr ⟨mark, rfl⟩))
    | _ => cases hd
  have hless {d e : Document} (hd : d.number?.isSome = true) (he : e.number?.isSome = true) :
      ∃ m n, d.number? = some m ∧ e.number? = some n ∧ d.less e = .ok (m.blt n) := by
    rcases hkind hd with ⟨_, rfl⟩ | ⟨_, rfl⟩ | ⟨_, rfl⟩ | ⟨_, rfl⟩ <;>
      rcases hkind he with ⟨_, rfl⟩ | ⟨_, rfl⟩ | ⟨_, rfl⟩ | ⟨_, rfl⟩ <;> simp [number?, less]
  obtain ⟨m, n, hm, hn, hab⟩ := hless ha hb
  obtain ⟨n', m', hn', hm', hba⟩ := hless hb ha
  cases hn.symm.trans hn'
  cases hm.symm.trans hm'
  rw [hba, Number.blt_asymm (Except.ok.inj (hab.symm.trans h))]

/-! ### Samples -/

/-- If the response answers the question, it selects something for it. -/
def Response.Selects (response : Response) (q : Question) : Prop :=
  ∀ a, response.answerTo? q = some a → a.selections ≠ []

/-- The places at which questions were seen are numbers. -/
def Response.Placed (response : Response) : Prop :=
  ∀ a ∈ response.answers, a.seen.number?.isSome = true

namespace OrderSamples

/-- How many answers are before and after. -/
def sizes (s : OrderSamples) : Nat × Nat := (s.before.length, s.after.length)

/-- What is before in one pair of samples is after in the other, as far as their sizes say. -/
structure Mirrors (s t : OrderSamples) : Prop where
  before : t.before.length = s.after.length
  after : t.after.length = s.before.length

variable {q r : Question} {s s' t t' : OrderSamples}

/-- A response adds to opposite samples in the two directions. -/
theorem Mirrors.addAnswer {response : Response} (h : s.Mirrors t) (hq : response.Selects q)
    (hr : response.Selects r) (hplaced : response.Placed)
    (hs : addAnswer q r s response = .ok s') (ht : addAnswer r q t response = .ok t') :
    s'.Mirrors t' := by
  have hfirst {x : Question} (hx : response.Selects x) {a : Answer}
      (ha : response.answerTo? x = some a) : ∃ c, a.first? = some c := by
    obtain ⟨selection, rest, hselections⟩ := List.exists_cons_of_ne_nil (hx a ha)
    exact ⟨selection.choice, by rw [Answer.first?, hselections]; rfl⟩
  unfold OrderSamples.addAnswer at hs ht
  cases ha : response.answerTo? q with
  | none =>
    cases hb : response.answerTo? r <;> rw [ha, hb] at hs ht <;> cases hs <;> cases ht <;> exact h
  | some a =>
    cases hb : response.answerTo? r with
    | none =>
      rw [ha, hb] at hs ht
      cases hs
      cases ht
      exact h
    | some b =>
      obtain ⟨c, hc⟩ := hfirst hq ha
      obtain ⟨d, hd⟩ := hfirst hr hb
      have hasymm := Document.less_asymm (hplaced a (List.mem_of_find?_eq_some ha))
        (hplaced b (List.mem_of_find?_eq_some hb))
      simp only [ha, hb, hc, hd] at hs ht
      obtain ⟨first, hab, hs⟩ := bind_eq_ok.mp hs
      obtain ⟨later, hba, ht⟩ := bind_eq_ok.mp ht
      cases first with
      | true =>
        -- the other direction asks first whether `r` came before `q`, which it did not
        obtain rfl : later = false := by simpa [hasymm hab] using hba.symm
        cases hs
        obtain ⟨_, hab', ht⟩ := bind_eq_ok.mp ht
        cases hab.symm.trans hab'
        cases ht
        exact ⟨by simp [h.before], by simp [h.after]⟩
      | false =>
        obtain ⟨_, hba', hs⟩ := bind_eq_ok.mp hs
        cases hba.symm.trans hba'
        cases later with
        | true =>
          cases hs
          cases ht
          exact ⟨by simp [h.before], by simp [h.after]⟩
        | false =>
          obtain ⟨_, hab', ht⟩ := bind_eq_ok.mp ht
          cases hab.symm.trans hab'
          cases hs
          cases ht
          exact h

theorem Mirrors.foldlM : ∀ {responses : List Response} {s t : OrderSamples}, s.Mirrors t →
    (∀ response ∈ responses, response.Selects q ∧ response.Selects r ∧ response.Placed) →
      responses.foldlM (OrderSamples.addAnswer q r) s = .ok s' →
      responses.foldlM (OrderSamples.addAnswer r q) t = .ok t' → s'.Mirrors t'
  | [], _, _, h, _, hs, ht => by
    cases hs
    cases ht
    exact h
  | response :: responses, s, t, h, hall, hs, ht => by
    obtain ⟨⟨hq, hr, hplaced⟩, hrest⟩ := List.forall_mem_cons.mp hall
    rw [List.foldlM_cons] at hs ht
    obtain ⟨s₁, hs₁, hs⟩ := bind_eq_ok.mp hs
    obtain ⟨t₁, ht₁, ht⟩ := bind_eq_ok.mp ht
    exact Mirrors.foldlM (h.addAnswer hq hr hplaced hs₁ ht₁) hrest hs ht

/-- **The samples of the two directions mirror each other.** -/
theorem mirrors_orderSamples {responses : List Response}
    (hall : ∀ response ∈ responses, response.Selects q ∧ response.Selects r ∧ response.Placed)
    (hs : orderSamples q r responses = .ok s) (ht : orderSamples r q responses = .ok t) :
    s.Mirrors t :=
  Mirrors.foldlM ⟨rfl, rfl⟩ hall hs ht

end OrderSamples

/-! ### Comparisons -/

/-- One of the sizes is less than is asked for. -/
def IsSmall (least : Number) (before after : Nat) : Prop :=
  (Number.int before).blt least = true ∨ (Number.int after).blt least = true

theorem isPassedOver_eq_ok {c : Config} {s : OrderSamples} {passed : Bool}
    (h : isPassedOver c s = .ok passed) :
    ∃ least, c.orderMinSamples.number = .ok least ∧
      ((IsSmall least s.before.length s.after.length ∧ passed = true) ∨
        (¬IsSmall least s.before.length s.after.length ∧ ∃ balance,
          c.orderBalance.number = .ok balance ∧
          passed = isBalanced balance s.before.length s.after.length)) := by
  obtain ⟨least, hleast, h⟩ := bind_eq_ok.mp h
  refine ⟨least, hleast, ?_⟩
  split at h
  case isTrue hsmall =>
    cases h
    exact .inl ⟨Bool.or_eq_true_iff.mp hsmall, rfl⟩
  case isFalse hlarge =>
    split at h
    · cases h
    · obtain ⟨balance, hbalance, h⟩ := bind_eq_ok.mp h
      cases h
      exact .inr ⟨fun hsmall => hlarge (Bool.or_eq_true_iff.mpr hsmall), balance, hbalance, rfl⟩

/-- The comparison is of the answers to `q` before and after `r`, and says how many they are. -/
structure Comparison.Shows (x : Comparison) (q r : Question) (s : OrderSamples) : Prop where
  first : x.first = q
  second : x.second = r
  firstSize : x.firstSize = s.before.length
  secondSize : x.secondSize = s.after.length

theorem compareOrders_eq_ok {c : Config} {responses : List Response} {q r : Question}
    {result : Option Comparison} (h : compareOrders c responses q r = .ok result) :
    ∃ s passed, orderSamples q r responses = .ok s ∧ isPassedOver c s = .ok passed ∧
      if passed then result = none else ∃ x, result = some x ∧ x.Shows q r s := by
  obtain ⟨s, hs, h⟩ := bind_eq_ok.mp h
  obtain ⟨passed, hpassed, h⟩ := bind_eq_ok.mp h
  refine ⟨s, passed, hs, hpassed, ?_⟩
  cases passed with
  | true =>
    cases h
    rfl
  | false =>
    obtain ⟨⟨coefficient, outcome⟩, -, h⟩ := bind_eq_ok.mp h
    cases h
    exact ⟨_, rfl, rfl, rfl, rfl, rfl⟩

/-- The ordered pair is reported. -/
def Reports (found : List Comparison) (q r : Question) : Prop :=
  ∃ x ∈ found, x.first = q ∧ x.second = r

variable {s : Survey} {c : Config} {responses : List Response} {found : List Comparison}
  {q r : Question}

/-- What is found for an ordered pair is the result of comparing its samples. -/
theorem compareOrders_of_mem (h : orderBiases s c responses = .ok found) {x : Comparison}
    (hx : x ∈ found) (hq : x.first = q) (hr : x.second = r) :
    compareOrders c responses q r = .ok (some x) := by
  obtain ⟨results, hresults, hfound⟩ := bind_eq_ok.mp h
  cases hfound
  obtain ⟨_, hmem, rfl⟩ := List.mem_filterMap.mp hx
  obtain ⟨⟨q', r'⟩, -, hcompared⟩ := exists_of_mem_right (forall₂_of_mapM hresults) hmem
  obtain ⟨_, passed, -, -, hshows⟩ := compareOrders_eq_ok hcompared
  cases passed with
  | true => cases hshows
  | false =>
    obtain ⟨_, heq, hshows⟩ := hshows
    cases heq
    cases hshows.first.symm.trans hq
    cases hshows.second.symm.trans hr
    exact hcompared

/-- An ordered pair is reported if its samples are not small and not about equally large. -/
theorem reports_iff (h : orderBiases s c responses = .ok found) (hpair : (q, r) ∈ s.orderPairs) :
    ∃ samples least, orderSamples q r responses = .ok samples ∧
      c.orderMinSamples.number = .ok least ∧
      (∀ x ∈ found, x.first = q → x.second = r → x.Shows q r samples) ∧
      ((IsSmall least samples.before.length samples.after.length ∧ ¬Reports found q r) ∨
        (¬IsSmall least samples.before.length samples.after.length ∧ ∃ balance,
          c.orderBalance.number = .ok balance ∧ (Reports found q r ↔
            isBalanced balance samples.before.length samples.after.length = false))) := by
  obtain ⟨results, hresults, hfound⟩ := bind_eq_ok.mp h
  cases hfound
  obtain ⟨result, hmem, hcompared⟩ := exists_of_mem_right (forall₂_of_mapM hresults).flip hpair
  obtain ⟨samples, passed, hsamples, hpassed, hresult⟩ := compareOrders_eq_ok hcompared
  obtain ⟨least, hleast, hcases⟩ := isPassedOver_eq_ok hpassed
  have hshows : ∀ x ∈ results.filterMap id, x.first = q → x.second = r →
      passed = false ∧ x.Shows q r samples := by
    intro x hx hq hr
    cases hcompared.symm.trans (compareOrders_of_mem h hx hq hr)
    cases passed with
    | true => cases hresult
    | false =>
      obtain ⟨_, heq, hshows⟩ := hresult
      cases heq
      exact ⟨rfl, hshows⟩
  have hreports : Reports (results.filterMap id) q r ↔ passed = false := by
    constructor
    · rintro ⟨x, hx, hq, hr⟩
      exact (hshows x hx hq hr).1
    · rintro rfl
      obtain ⟨x, rfl, hx⟩ := hresult
      exact ⟨x, List.mem_filterMap.mpr ⟨some x, hmem, rfl⟩, hx.first, hx.second⟩
  refine ⟨samples, least, hsamples, hleast, fun x hx hq hr => (hshows x hx hq hr).2, ?_⟩
  rcases hcases with ⟨hsmall, rfl⟩ | ⟨hlarge, balance, hbalance, rfl⟩
  · exact .inl ⟨hsmall, fun hreported => Bool.noConfusion (hreports.mp hreported)⟩
  · exact .inr ⟨hlarge, balance, hbalance, hreports⟩

theorem mem_orderPairs : (q, r) ∈ s.orderPairs ↔
    q ∈ s.comparableQuestions ∧ r ∈ s.comparableQuestions ∧ r.key ≠ q.key := by
  unfold Survey.orderPairs
  simp [List.mem_flatMap, and_assoc]

/-- **Both directions of a pair are reported or none is, unless the check for equal sizes depends on
the direction.** The sizes of one direction are those of the other, the other way round. A pair is
reported if no size is less than asked for and the ratio of the sizes is not near to one; so
reporting depends on the direction exactly for sizes of which one ratio is near to one and the
other is not. -/
theorem reports_both_ways_iff
    (hselects : ∀ response ∈ responses, ∀ q ∈ s.comparableQuestions, response.Selects q)
    (hplaced : ∀ response ∈ responses, response.Placed)
    (h : orderBiases s c responses = .ok found) (hpair : (q, r) ∈ s.orderPairs) :
    ∃ m n least, (orderSamples q r responses).map (·.sizes) = .ok (m, n) ∧
      (orderSamples r q responses).map (·.sizes) = .ok (n, m) ∧
      (∀ x ∈ found, x.first = q → x.second = r → x.firstSize = m ∧ x.secondSize = n) ∧
      (∀ x ∈ found, x.first = r → x.second = q → x.firstSize = n ∧ x.secondSize = m) ∧
      c.orderMinSamples.number = .ok least ∧
      ((IsSmall least m n ∧ ¬Reports found q r ∧ ¬Reports found r q) ∨
        (¬IsSmall least m n ∧ ∃ balance, c.orderBalance.number = .ok balance ∧
          (Reports found q r ↔ isBalanced balance m n = false) ∧
          (Reports found r q ↔ isBalanced balance n m = false) ∧
          ((Reports found q r ↔ Reports found r q) ↔
            isBalanced balance m n = isBalanced balance n m))) := by
  obtain ⟨hq, hr, hkeys⟩ := mem_orderPairs.mp hpair
  obtain ⟨there, least, hthere, hleast, hshows, hcases⟩ := reports_iff h hpair
  obtain ⟨back, least', hback, hleast', hshows', hcases'⟩ :=
    reports_iff h (mem_orderPairs.mpr ⟨hr, hq, hkeys.symm⟩)
  cases hleast.symm.trans hleast'
  have hmirrors : there.Mirrors back :=
    OrderSamples.mirrors_orderSamples (fun response hresponse =>
      ⟨hselects response hresponse q hq, hselects response hresponse r hr,
        hplaced response hresponse⟩) hthere hback
  rw [hmirrors.before, hmirrors.after] at hcases'
  have hsmall : IsSmall least there.after.length there.before.length ↔
      IsSmall least there.before.length there.after.length := or_comm
  refine ⟨there.before.length, there.after.length, least, by rw [hthere]; rfl, ?_,
    fun x hx hxq hxr => ?_, fun x hx hxr hxq => ?_, hleast, ?_⟩
  · rw [hback, ← hmirrors.before, ← hmirrors.after]
    rfl
  · have hx := hshows x hx hxq hxr
    exact ⟨hx.firstSize, hx.secondSize⟩
  · have hx := hshows' x hx hxr hxq
    exact ⟨hx.firstSize.trans hmirrors.before, hx.secondSize.trans hmirrors.after⟩
  · rcases hcases with ⟨hs, hnone⟩ | ⟨hlarge, balance, hbalance, hreports⟩
    · rcases hcases' with ⟨-, hnone'⟩ | ⟨hlarge', -⟩
      · exact .inl ⟨hs, hnone, hnone'⟩
      · exact absurd (hsmall.mpr hs) hlarge'
    · rcases hcases' with ⟨hs', -⟩ | ⟨-, balance', hbalance', hreports'⟩
      · exact absurd (hsmall.mp hs') hlarge
      · cases hbalance.symm.trans hbalance'
        refine .inr ⟨hlarge, balance, hbalance, hreports, hreports', ?_⟩
        rw [hreports, hreports']
        cases isBalanced balance there.before.length there.after.length <;>
          cases isBalanced balance there.after.length there.before.length <;> simp

/-- The question at a place of a survey with two questions. -/
def ofTwo (place : Nat) : Question :=
  sampleQuestion place s!"q_1_{place + 1}" s!"Question {place + 1}" (1 + place * 3)
    ["Option 1", "Option 2"]

/-- A response that gives the first choice to each of the questions, in this order. -/
def answersInTurn (qs : List Question) : Response where
  id := .null
  answers := qs.zipIdx.map fun (q, place) =>
    { question := q, selections := q.choices.head?.toList.map (⟨·, .int 0⟩), seen := .int place }

/-- Two responses that saw one question first, and one that saw the other one first. -/
def lopsided : List Response :=
  [answersInTurn [ofTwo 0, ofTwo 1], answersInTurn [ofTwo 0, ofTwo 1],
    answersInTurn [ofTwo 1, ofTwo 0]]

/-- No sample is too small, and the ratio of two sizes may differ from one by three quarters. -/
def lenient : Config := { orderMinSamples := .int 1, orderBalance := .float 0.75 }

theorem lopsided_found : ∃ found, orderBiases (Survey.flat 2 2) lenient lopsided = .ok found ∧
    found.map (fun x => (x.first.key.index, x.second.key.index)) = [(0, 1)] := by
  have hpairs : (orderBiases (Survey.flat 2 2) lenient lopsided).map (fun found => found.map
      fun x => (x.first.key.index, x.second.key.index)) = .ok [(0, 1)] := by decide +kernel
  cases hfound : orderBiases (Survey.flat 2 2) lenient lopsided with
  | error fault =>
    rw [hfound] at hpairs
    cases hpairs
  | ok found =>
    rw [hfound] at hpairs
    exact ⟨found, rfl, Except.ok.inj hpairs⟩

theorem lopsided_selects : ∀ response ∈ lopsided, ∀ a ∈ response.answers, a.selections ≠ [] := by
  decide +kernel

/-- The ratio of the sizes is near to one in one direction only. -/
theorem reports_both_ways_iff_lopsided :
    (∀ response ∈ lopsided, ∀ q ∈ (Survey.flat 2 2).comparableQuestions, response.Selects q) ∧
    (∀ response ∈ lopsided, response.Placed) ∧
    (ofTwo 0, ofTwo 1) ∈ (Survey.flat 2 2).orderPairs ∧
    isBalanced (.float 0.75) 2 1 = false ∧ isBalanced (.float 0.75) 1 2 = true ∧
    ∃ found, orderBiases (Survey.flat 2 2) lenient lopsided = .ok found ∧
      Reports found (ofTwo 0) (ofTwo 1) ∧ ¬Reports found (ofTwo 1) (ofTwo 0) := by
  have hselects : ∀ response ∈ lopsided, ∀ q ∈ (Survey.flat 2 2).comparableQuestions,
      response.Selects q := fun response hresponse q _ a ha =>
    lopsided_selects response hresponse a (List.mem_of_find?_eq_some ha)
  have hplaced : ∀ response ∈ lopsided, response.Placed := by
    have hall : ∀ response ∈ lopsided, ∀ a ∈ response.answers, a.seen.number?.isSome = true := by
      decide +kernel
    exact hall
  have hpair : (ofTwo 0, ofTwo 1) ∈ (Survey.flat 2 2).orderPairs := List.mem_cons_self
  have hsizes : (orderSamples (ofTwo 0) (ofTwo 1) lopsided).map (·.sizes) = .ok (2, 1) := by
    decide +kernel
  have hratio : isBalanced (.float 0.75) 2 1 = false := by decide +kernel
  have hinverse : isBalanced (.float 0.75) 1 2 = true := by decide +kernel
  obtain ⟨found, hfound, -⟩ := lopsided_found
  obtain ⟨m, n, least, hmn, -, -, -, hleast, hcases⟩ :=
    reports_both_ways_iff hselects hplaced hfound hpair
  cases hsizes.symm.trans hmn
  cases hleast
  refine ⟨hselects, hplaced, hpair, hratio, hinverse, found, hfound, ?_⟩
  rcases hcases with ⟨hsmall, -⟩ | ⟨-, balance, hbalance, hthere, hback, -⟩
  · exact absurd hsmall (by unfold IsSmall; decide)
  · cases hbalance
    rw [hthere, hback, hinverse]
    exact ⟨hratio, Bool.noConfusion⟩

/-- One direction of a pair may be reported without the other one. -/
theorem reported_one_way : ¬∀ (s : Survey) (c : Config) (least : Number)
    (responses : List Response) (found : List Comparison),
      c.orderMinSamples.number = .ok least → Number.ble 1 least = true →
      (∀ response ∈ responses, ∀ a ∈ response.answers, a.selections ≠ []) →
      orderBiases s c responses = .ok found →
      ∀ q r, Reports found q r → Reports found r q := by
  intro hboth
  obtain ⟨found, hfound, hpairs⟩ := lopsided_found
  obtain ⟨x, rfl, hx⟩ := List.map_eq_singleton_iff.mp hpairs
  obtain ⟨y, hy, hfirst, -⟩ := hboth _ _ 1 _ _ rfl rfl lopsided_selects hfound x.first x.second
    ⟨x, List.mem_singleton_self x, rfl, rfl⟩
  cases List.mem_singleton.mp hy
  rw [← hfirst] at hx
  cases (Prod.mk.inj hx).1.symm.trans (Prod.mk.inj hx).2

end Questionnaire
