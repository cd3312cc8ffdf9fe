/-
# The order of responses does not matter

What is counted over all responses is the same in whichever order they come: the
tables may list their entries in another order, but the same is found in them.
So the same choices are rare, and each response is marked by them in the same
way. Where responses stop is counted alike, too. If counting fails it does so in
every order, and with the same fault.

Key definitions: `SameOutcome`, `Frequencies.Agrees`, `stopOf`.
Key theorems: `Frequencies.gather_perm`, `rareChoices_congr`,
`breakoffByQuestion_perm`, `statistics_perm`.
-/
import Questionnaire.Bias.Breakoff
import Questionnaire.Proofs.Document.Order
import Questionnaire.Proofs.Frequency.Selections
import Questionnaire.Proofs.Response.Counted

namespace Questionnaire

/-! ### Outcomes -/

/-- Both fail, with the same fault, or both give results, which are related. -/
inductive SameOutcome {α β : Type} (R : α → β → Prop) : Except Fault α → Except Fault β → Prop
  | returns {x y} : R x y → SameOutcome R (.ok x) (.ok y)
  | fails (fault) : SameOutcome R (.error fault) (.error fault)

section Outcomes

variable {α β : Type}

theorem SameOutcome.bind {γ δ : Type} {R : α → β → Prop} {S : γ → δ → Prop} {x : Except Fault α}
    {y : Except Fault β} {f : α → Except Fault γ} {g : β → Except Fault δ} (h : SameOutcome R x y)
    (hbind : ∀ a b, R a b → SameOutcome S (f a) (g b)) : SameOutcome S (x >>= f) (y >>= g) := by
  cases h with
  | returns hxy => exact hbind _ _ hxy
  | fails fault => exact .fails fault

theorem SameOutcome.mono {R S : α → β → Prop} (hmono : ∀ a b, R a b → S a b) :
    ∀ {x : Except Fault α} {y : Except Fault β}, SameOutcome R x y → SameOutcome S x y
  | _, _, .returns h => .returns (hmono _ _ h)
  | _, _, .fails fault => .fails fault

theorem SameOutcome.or {R : α → β → Prop} {x : Except Fault α} {y : Except Fault β} :
    SameOutcome R x y → (∃ a b, x = .ok a ∧ y = .ok b ∧ R a b) ∨
      ∃ fault, x = .error fault ∧ y = .error fault
  | .returns h => .inl ⟨_, _, rfl, rfl, h⟩
  | .fails fault => .inr ⟨fault, rfl, rfl⟩

/-- If all items fail with the same fault, that of a list does not depend on the first to fail. -/
theorem mapM_eq_of_fault {f : α → Except Fault β} {fault : Fault} : ∀ {xs : List α},
    (∀ x ∈ xs, ∀ e, f x = .error e → e = fault) → xs.mapM f =
      if xs.all (f · |>.isOk) then .ok (xs.filterMap (f · |>.toOption)) else .error fault
  | [], _ => rfl
  | x :: xs, hfault => by
    obtain ⟨hx, hxs⟩ := List.forall_mem_cons.mp hfault
    rw [List.mapM_cons, mapM_eq_of_fault hxs, List.all_cons, List.filterMap_cons]
    cases hfx : f x with
    | error e =>
      rw [hx e hfx]
      rfl
    | ok y => cases xs.all (f · |>.isOk) <;> rfl

/-- Then the same is made of the items in another order, in that order. -/
theorem mapM_perm {f : α → Except Fault β} {xs ys : List α} {fault : Fault} (hperm : xs.Perm ys)
    (hfault : ∀ x, ∀ e, f x = .error e → e = fault) :
    SameOutcome List.Perm (xs.mapM f) (ys.mapM f) := by
  rw [mapM_eq_of_fault fun x _ => hfault x, mapM_eq_of_fault fun x _ => hfault x, hperm.all_eq]
  split
  · exact .returns (hperm.filterMap _)
  · exact .fails fault

end Outcomes

/-! ### Frequencies -/

namespace Frequencies

variable {fs fs' : Frequencies} {answers answers' : List Answer} {qs : List Question}

/-- The tables have as many entries, and for each question tallies that agree. -/
structure Agrees (fs fs' : Frequencies) : Prop where
  length : fs.length = fs'.length
  counts : ∀ question, Option.Rel Tally.Agrees (fs.counts? question) (fs'.counts? question)

theorem getD_of_rel : ∀ {t? t?' : Option (Tally Document)}, Option.Rel Tally.Agrees t? t?' →
    (t?.getD []).Agrees (t?'.getD [])
  | _, _, .some hsame => hsame
  | _, _, .none => .refl []

theorem map_of_rel {β : Type} {f : Tally Document → β}
    (hf : ∀ t t', Tally.Agrees t t' → f t = f t') : ∀ {t? t?' : Option (Tally Document)},
      Option.Rel Tally.Agrees t? t?' → t?.map f = t?'.map f
  | _, _, .some hsame => congrArg some (hf _ _ hsame)
  | _, _, .none => rfl

/-- The tallies of a question of the survey agree. -/
theorem Agrees.countsOf (h : fs.Agrees fs') (q : Question) :
    (fs.countsOf q).Agrees (fs'.countsOf q) :=
  getD_of_rel (h.counts q.id)

theorem agrees_of_counts (h : Keyed Document.keyValue fs) (h' : Keyed Document.keyValue fs')
    (hcounts : ∀ question, Option.Rel Tally.Agrees (fs.counts? question)
      (fs'.counts? question)) : fs.Agrees fs' := by
  have hperm := h.perm_of_lookup h' (f := List.length)
    fun question => map_of_rel (fun _ _ => (·.length)) (hcounts question)
  exact ⟨by simpa using hperm.length_eq, hcounts⟩

/-- Tables that agree count equally much. -/
theorem Agrees.total (hsame : fs.Agrees fs') (h : Keyed Document.keyValue fs)
    (h' : Keyed Document.keyValue fs') : fs.total = fs'.total := by
  -- the tallies themselves may differ in their order, so they are compared by their totals
  have hperm := h.perm_of_lookup h' (f := Tally.total)
    fun question => map_of_rel (fun _ _ => (·.total)) (hsame.counts question)
  have htotals : (fs.map fun entry => entry.2.total).Perm (fs'.map fun entry => entry.2.total) := by
    simpa [Function.comp_def] using hperm.map Prod.snd
  exact htotals.foldr_eq 0

theorem agrees_countAll (hkeys : ∀ a ∈ answers, hasKeys a = true)
    (hperm : answers.Perm answers') : (countAll answers).Agrees (countAll answers') := by
  have hkeys' : ∀ a ∈ answers', hasKeys a = true := fun a ha => hkeys a (hperm.mem_iff.mpr ha)
  refine agrees_of_counts (keyed_countAll hkeys) (keyed_countAll hkeys') fun question => ?_
  rw [counts?_countAll hkeys, counts?_countAll hkeys', hperm.any_eq]
  split
  · have hselected := (hperm.filter (question == ·.question.id)).flatMap_right (·.choiceIds)
    exact .some (Tally.agrees_ofList (comparedBy_selectedFor hkeys) hselected)
  · exact .none

theorem agrees_smoothed (hkeys : ∀ q ∈ qs, offersKeys q = true) (h : fs.IsTable)
    (h' : fs'.IsTable) (hsame : fs.Agrees fs') : (fs.smoothed qs).Agrees (fs'.smoothed qs) := by
  refine agrees_of_counts (keyed_smoothed hkeys h.questions) (keyed_smoothed hkeys h'.questions)
    fun question => ?_
  rw [counts?_smoothed hkeys h.questions, counts?_smoothed hkeys h'.questions]
  split
  · have hsame := getD_of_rel (hsame.counts question)
    have hoffered := isKey_offeredFor hkeys question
    have hfound := fun choice => lookup_countUnselected choice hoffered (h.found question).1
    have hfound' := fun choice => lookup_countUnselected choice hoffered (h'.found question).1
    refine .some (Tally.agrees_of_lookup (hfound .null).1 (hfound' .null).1 fun choice => ?_)
    rw [(hfound choice).2, (hfound' choice).2, hsame.count, hsame.lookup]
  · exact hsame.counts question

variable {responses responses' : List Response}

theorem ofResponses_perm (hperm : responses.Perm responses') :
    SameOutcome (fun fs fs' => fs.Agrees fs' ∧ fs.IsTable ∧ fs'.IsTable)
      (ofResponses responses) (ofResponses responses') := by
  have hanswers : (countedAnswers responses).Perm (countedAnswers responses') :=
    hperm.flatMap_right _
  unfold ofResponses
  dsimp only
  rw [hanswers.all_eq]
  split
  · rename_i hkeys'
    have hkeys' := List.all_eq_true.mp hkeys'
    have hkeys : ∀ a ∈ countedAnswers responses, hasKeys a = true :=
      fun a ha => hkeys' a (hanswers.mem_iff.mp ha)
    exact .returns ⟨agrees_countAll hkeys hanswers, isTable_countAll hkeys, isTable_countAll hkeys'⟩
  · exact .fails _

theorem gather_perm (s : Survey) (smoothing : Bool) (hperm : responses.Perm responses') :
    SameOutcome (fun fs fs' => fs.Agrees fs' ∧ fs.IsTable ∧ fs'.IsTable)
      (gather s smoothing responses) (gather s smoothing responses') := by
  refine (ofResponses_perm hperm).bind fun fs fs' htables => ?_
  cases smoothing with
  | false => exact .returns htables
  | true =>
    change SameOutcome _ (if (countedQuestions s).all offersKeys then _ else _)
      (if (countedQuestions s).all offersKeys then _ else _)
    split
    · rename_i hkeys
      have hkeys := List.all_eq_true.mp hkeys
      obtain ⟨hsame, h, h'⟩ := htables
      exact .returns ⟨agrees_smoothed hkeys h h' hsame, isTable_smoothed hkeys h,
        isTable_smoothed hkeys h'⟩
    · exact .fails _

/-- Gathering has the same to say. -/
theorem gatherNotes_perm {s : Survey} {smoothing : Bool} (hperm : responses.Perm responses')
    (h : gather s smoothing responses = .ok fs) (h' : gather s smoothing responses' = .ok fs') :
    gatherNotes responses fs = gatherNotes responses' fs' := by
  have htotal : fs.total = fs'.total := by
    rcases (gather_perm s smoothing hperm).or with ⟨_, _, hfs, hfs', hsame, hkeyed, hkeyed'⟩ |
      ⟨_, hfault, -⟩
    · cases h.symm.trans hfs
      cases h'.symm.trans hfs'
      exact hsame.total hkeyed.questions hkeyed'.questions
    · cases h.symm.trans hfault
  have hcounted : (countAll (countedAnswers responses)).total =
      (countAll (countedAnswers responses')).total := by
    obtain ⟨_, hplain, -⟩ := bind_eq_ok.mp h
    obtain ⟨_, hplain', -⟩ := bind_eq_ok.mp h'
    obtain ⟨hkeys, -⟩ := ofResponses_eq_ok.mp hplain
    obtain ⟨hkeys', -⟩ := ofResponses_eq_ok.mp hplain'
    exact (agrees_countAll hkeys (hperm.flatMap_right _)).total (keyed_countAll hkeys)
      (keyed_countAll hkeys')
  unfold gatherNotes
  rw [hcounted, htotal]

end Frequencies

/-! ### Rare choices -/

section Rare

variable {t t' : Tally Document} {fs fs' : Frequencies} {s : Survey}

theorem tiers_congr (h : t.Agrees t') : tiers t = tiers t' := by
  have hmem (k : Nat) : k ∈ tiers t ↔ k ∈ tiers t' := by
    rw [mem_tiers, mem_tiers, h.counts.mem_iff]
  have hperm : (tiers t).Perm (tiers t') :=
    (List.perm_ext_iff_of_nodup (pairwise_tiers.imp Nat.ne_of_lt)
      (pairwise_tiers.imp Nat.ne_of_lt)).mpr hmem
  exact hperm.eq_of_pairwise (fun m n _ _ hmn hnm => absurd hmn (Nat.lt_asymm hnm))
    pairwise_tiers pairwise_tiers

theorem rareChoicesOf_congr (h : t.Agrees t') (epsilon : Number) (q : Question) :
    rareChoicesOf epsilon t q = rareChoicesOf epsilon t' q := by
  unfold rareChoicesOf
  simp only [tiers_congr h, h.length, h.lookup]

/-- **The same choices are rare** by tables that agree. -/
theorem rareChoices_congr (h : fs.Agrees fs') (s : Survey) (epsilon : Document) :
    rareChoices s fs epsilon = rareChoices s fs' epsilon := by
  have hcontested : isContested fs = isContested fs' := by
    funext q
    rw [Bool.eq_iff_iff, isContested_iff, isContested_iff, (h.countsOf q).length]
  have htiers : hasTiers fs = hasTiers fs' := by
    funext q
    have hsame := tiers_congr (h.countsOf q)
    unfold Frequencies.countsOf at hsame
    unfold hasTiers
    rw [hsame]
  have hrare (e : Number) : rareChoicesWithin s fs e = rareChoicesWithin s fs' e := by
    refine List.filterMap_congr fun q _ => ?_
    have hsame := rareChoicesOf_congr (h.countsOf q) e q
    unfold Frequencies.countsOf at hsame
    rw [hsame]
  unfold rareChoices areLookedUp toleranceFor
  simp only [hcontested, htiers, hrare]

/-- How rare answers are marked by a table of counts. -/
def rareMarking (s : Survey) (fs : Frequencies) (epsilon delta : Document) :
    Except Fault (Response → Response) := do
  let rare ← rareChoices s fs epsilon
  let threshold ← rare.threshold (← delta.number)
  return rare.mark threshold

theorem markRareAnswers_eq (s : Survey) (fs : Frequencies) (epsilon delta : Document)
    (responses : List Response) : markRareAnswers s fs epsilon delta responses =
      (rareMarking s fs epsilon delta).map responses.map := by
  unfold markRareAnswers rareMarking
  cases rareChoices s fs epsilon with
  | error fault => rfl
  | ok rare =>
    cases delta.number with
    | error fault => rfl
    | ok delta =>
      change (rare.threshold delta >>= fun threshold => .ok _) =
        (rare.threshold delta >>= fun threshold => .ok _).map _
      cases rare.threshold delta <;> rfl

variable {responses responses' : List Response}

/-- Gathering in a session has the same outcome and makes the same notes. -/
theorem runFrom_gathered_perm (session : Session) (smoothing : Bool)
    (hperm : responses.Perm responses') :
    SameOutcome Frequencies.Agrees (runFrom session (Session.gathered s smoothing responses)).1
      (runFrom session (Session.gathered s smoothing responses')).1 ∧
    (runFrom session (Session.gathered s smoothing responses)).2 =
      (runFrom session (Session.gathered s smoothing responses')).2 := by
  unfold Session.gathered
  simp only [runFrom_bind, runFrom_sessionLift]
  rcases (Frequencies.gather_perm s smoothing hperm).or with ⟨fs, fs', hfs, hfs', hsame, -, -⟩ |
    ⟨fault, hfault, hfault'⟩
  · rw [hfs, hfs']
    dsimp only
    rw [Frequencies.gatherNotes_perm hperm hfs hfs']
    rcases runFrom session ((Frequencies.gatherNotes responses' fs').forM fun n =>
      Session.note n.level n.text) with ⟨fault | _, after⟩
    · exact ⟨.fails fault, rfl⟩
    · exact ⟨.returns hsame, rfl⟩
  · rw [hfault, hfault']
    exact ⟨.fails fault, rfl⟩

/-- **Each response is marked by its rare answers in the same way**, and the session is left in the
same state. -/
theorem classifyRareAnswers_perm (session : Session) (smoothing : Bool) (epsilon delta : Document)
    (hperm : responses.Perm responses') : ∃ result after, ∃ mark : Response → Response,
      runFrom ⟨session, responses⟩ (classifyRareAnswers s smoothing epsilon delta) =
        (result, ⟨after, responses.map mark⟩) ∧
      runFrom ⟨session, responses'⟩ (classifyRareAnswers s smoothing epsilon delta) =
        (result, ⟨after, responses'.map mark⟩) := by
  obtain ⟨hout, hafter⟩ := @runFrom_gathered_perm s responses responses' session smoothing hperm
  unfold classifyRareAnswers
  simp only [runFrom_bind, runFrom_get, runFrom_gatherNoted, runFrom_inSession, runFrom_batchLift,
    markRareAnswers_eq]
  rcases hrun : runFrom session (Session.gathered s smoothing responses) with ⟨result, after⟩
  rcases hrun' : runFrom session (Session.gathered s smoothing responses') with ⟨result', after'⟩
  rw [hrun, hrun'] at hout hafter
  obtain rfl : after = after' := hafter
  rcases hout.or with ⟨fs, fs', rfl, rfl, hsame⟩ | ⟨fault, rfl, rfl⟩
  · have hmarking : rareMarking s fs epsilon delta = rareMarking s fs' epsilon delta := by
      unfold rareMarking
      rw [rareChoices_congr hsame]
    dsimp only
    rw [hmarking]
    cases rareMarking s fs' epsilon delta with
    | error fault => exact ⟨.error fault, after, id, by simp [Except.map], by simp [Except.map]⟩
    | ok mark => exact ⟨.ok (), after, mark, rfl, rfl⟩
  · exact ⟨.error fault, after, id, by simp, by simp⟩

end Rare

/-! ### Where responses stop -/

section Breakoff

variable {responses responses' : List Response} {r : Response}

/-- The question after which a response stops, if it has answers that count. -/
def stopOf (r : Response) : Except Fault (Option Question) :=
  match r.counted with
  | [] => .ok none
  | a :: rest => (latest a rest).map fun last => some last.question

/-- How many responses have answers that count. -/
def countAnswered (responses : List Response) : Nat := responses.countP (!·.counted.isEmpty)

theorem runFrom_lastQuestion? (notes : List Note) (r : Response) :
    (runFrom notes (lastQuestion? r)).1 = stopOf r := by
  unfold lastQuestion? stopOf
  cases r.counted with
  | nil => rfl
  | cons a rest =>
    change (runFrom notes (liftM (latest a rest) >>= fun last => pure (some last.question))).1 =
      (latest a rest).map fun last => some last.question
    rw [runFrom_bind, runFrom_liftM]
    cases latest a rest <;> rfl

theorem breakoffByQuestion_eq (responses : List Response) :
    (breakoffByQuestion responses).run.1 = responses.mapM stopOf >>= fun stops =>
      .ok (Tally.ofList (stops.filterMap id)) := by
  have hstops := runFrom_mapM runFrom_lastQuestion? responses []
  change (runFrom [] (breakoffByQuestion responses)).1 = _
  unfold breakoffByQuestion
  rw [runFrom_bind, ← hstops]
  rcases runFrom [] (responses.mapM lastQuestion?) with ⟨fault | stops, notes⟩ <;> rfl

theorem latest_cons (first a : Answer) (rest : List Answer) : latest first (a :: rest) =
    first.seen.less a.seen >>= fun later => latest (if later then a else first) rest := by
  unfold latest
  rw [List.foldlM_cons, bind_assoc]
  rfl

theorem latest_eq_error {fault : Fault} : ∀ {rest : List Answer} {first : Answer},
    latest first rest = .error fault → fault = .illTyped
  | a :: rest, first, h => by
    rw [latest_cons] at h
    rcases bind_eq_error.mp h with hless | ⟨later, -, hrest⟩
    · exact Document.less_eq_error _ _ hless
    · exact latest_eq_error hrest

/-- Answers can be told apart by their places if these are numbers. -/
theorem latest_succeeds : ∀ {rest : List Answer} {first : Answer},
    (∀ a ∈ first :: rest, a.seen.number?.isSome = true) → ∃ last, latest first rest = .ok last
  | [], first, _ => ⟨first, rfl⟩
  | a :: rest, first, h => by
    obtain ⟨hfirst, ha, hrest⟩ := by simpa only [List.forall_mem_cons] using h
    obtain ⟨later, hlater⟩ := Document.less_of_numbers hfirst ha
    rw [latest_cons, hlater]
    refine latest_succeeds (List.forall_mem_cons.mpr ⟨?_, hrest⟩)
    cases later with
    | true => exact ha
    | false => exact hfirst

theorem stopOf_eq_error {fault : Fault} (h : stopOf r = .error fault) : fault = .illTyped := by
  unfold stopOf at h
  split at h
  · cases h
  · rename_i a rest hcounted
    cases hlatest : latest a rest with
    | ok last => rw [hlatest] at h; cases h
    | error e =>
      rw [hlatest] at h
      cases h
      exact latest_eq_error hlatest

theorem stopOf_succeeds (h : ∀ a ∈ r.counted, a.seen.number?.isSome = true) :
    ∃ stop, stopOf r = .ok stop := by
  unfold stopOf
  split
  · exact ⟨none, rfl⟩
  · rename_i a rest hcounted
    rw [hcounted] at h
    obtain ⟨last, hlast⟩ := latest_succeeds h
    exact ⟨some last.question, by rw [hlast]; rfl⟩

theorem isSome_of_stopOf {stop : Option Question} (h : stopOf r = .ok stop) :
    stop.isSome = !r.counted.isEmpty := by
  unfold stopOf at h
  cases hcounted : r.counted with
  | nil =>
    rw [hcounted] at h
    cases h
    rfl
  | cons a rest =>
    rw [hcounted] at h
    dsimp only at h
    cases hlatest : latest a rest with
    | error fault => rw [hlatest] at h; cases h
    | ok last =>
      rw [hlatest] at h
      cases h
      rfl

theorem length_stops {stops : List (Option Question)}
    (h : List.Forall₂ (fun r stop => stopOf r = .ok stop) responses stops) :
    (stops.filterMap id).length = countAnswered responses := by
  induction h with
  | nil => rfl
  | @cons r stop responses stops hstop _ ih =>
    unfold countAnswered at ih ⊢
    rw [List.countP_cons, ← isSome_of_stopOf hstop, ← ih]
    cases stop <;> rfl

theorem total_breakoffByQuestion {t : Tally Question}
    (h : (breakoffByQuestion responses).run.1 = .ok t) : t.total = countAnswered responses := by
  rw [breakoffByQuestion_eq] at h
  obtain ⟨stops, hstops, h⟩ := bind_eq_ok.mp h
  cases h
  rw [Tally.total_ofList, length_stops (forall₂_of_mapM hstops)]

theorem breakoffByQuestion_succeeds
    (h : ∀ r ∈ responses, ∀ a ∈ r.counted, a.seen.number?.isSome = true) :
    ∃ t, (breakoffByQuestion responses).run.1 = .ok t := by
  obtain ⟨stops, hstops⟩ := mapM_succeeds fun r hr => stopOf_succeeds (h r hr)
  exact ⟨_, by rw [breakoffByQuestion_eq, hstops]; rfl⟩

theorem Question.comparedBy_key (q : Question) : ComparedBy Question.key q :=
  fun r => beq_iff_eq (a := r.key)

theorem breakoffByQuestion_perm (hperm : responses.Perm responses') :
    SameOutcome Tally.Agrees (breakoffByQuestion responses).run.1
      (breakoffByQuestion responses').run.1 := by
  rw [breakoffByQuestion_eq, breakoffByQuestion_eq]
  refine (mapM_perm hperm fun _ _ => stopOf_eq_error).bind fun stops stops' hstops => ?_
  exact .returns (Tally.agrees_ofList (fun q _ => q.comparedBy_key) (hstops.filterMap id))

theorem breakoffByPosition_perm (hperm : responses.Perm responses') :
    (breakoffByPosition responses).Agrees (breakoffByPosition responses') := by
  have hcompared (n : Nat) : ComparedBy (fun m : Nat => m) n := fun _ => beq_iff_eq
  exact Tally.agrees_ofList (fun n _ => hcompared n) ((hperm.map _).filter _)

theorem total_breakoffByPosition (responses : List Response) :
    (breakoffByPosition responses).total = countAnswered responses := by
  rw [breakoffByPosition, Tally.total_ofList, ← List.countP_eq_length_filter, List.countP_map]
  refine List.countP_congr fun r _ => ?_
  simp [List.length_pos_iff]

end Breakoff

/-- **Statistics do not depend on the order of the responses.** Frequencies are the same, and so are
the rare choices. A session marks each response by them in the same way, and has the same to say.
Respondents are counted alike by how many answers they give and by where they stop; each one that
gives answers that count is counted once. Counting where they stop goes well if the places at
which they saw the questions are numbers. -/
theorem statistics_perm {responses responses' : List Response}
    (hperm : responses.Perm responses') (s : Survey) (smoothing : Bool)
    (epsilon delta : Document) :
    SameOutcome Frequencies.Agrees (Frequencies.gather s smoothing responses)
      (Frequencies.gather s smoothing responses') ∧
    (Frequencies.gather s smoothing responses >>= fun fs => rareChoices s fs epsilon) =
      (Frequencies.gather s smoothing responses' >>= fun fs => rareChoices s fs epsilon) ∧
    (∀ session, ∃ result after, ∃ mark : Response → Response,
      runFrom ⟨session, responses⟩ (classifyRareAnswers s smoothing epsilon delta) =
        (result, ⟨after, responses.map mark⟩) ∧
      runFrom ⟨session, responses'⟩ (classifyRareAnswers s smoothing epsilon delta) =
        (result, ⟨after, responses'.map mark⟩)) ∧
    ((breakoffByPosition responses).Agrees (breakoffByPosition responses') ∧
      (breakoffByPosition responses).total = countAnswered responses) ∧
    SameOutcome Tally.Agrees (breakoffByQuestion responses).run.1
      (breakoffByQuestion responses').run.1 ∧
    (∀ t, (breakoffByQuestion responses).run.1 = .ok t → t.total = countAnswered responses) ∧
    ((∀ r ∈ responses, ∀ a ∈ r.counted, a.seen.number?.isSome = true) →
      ∃ t, (breakoffByQuestion responses).run.1 = .ok t) := by
  have hgather := Frequencies.gather_perm s smoothing hperm
  refine ⟨?frequencies, ?rare, fun session => classifyRareAnswers_perm session smoothing epsilon
    delta hperm, ⟨breakoffByPosition_perm hperm, total_breakoffByPosition responses⟩,
    breakoffByQuestion_perm hperm, fun t => total_breakoffByQuestion, breakoffByQuestion_succeeds⟩
  case frequencies => exact hgather.mono fun _ _ htables => htables.1
  case rare =>
    rcases hgather.or with ⟨fs, fs', hfs, hfs', hsame, -⟩ | ⟨fault, hfault, hfault'⟩
    · rw [hfs, hfs']
      exact rareChoices_congr hsame s epsilon
    · rw [hfault, hfault']

/-- The responses at the fork in another order. -/
def forkReordered : List Response :=
  [plainResponse "sr1" [(Survey.forkFirst, ["short"])],
    plainResponse "sr0" [(Survey.forkFirst, ["long"])],
    plainResponse "sr2" [(Survey.forkFirst, ["long"])]]

/-- The counts come in another order, too, but the same choice is rare. -/
theorem statistics_perm_fork :
    Survey.ofDocument 0 (forkDocument Survey.moreFields) = .ok (Survey.fork Survey.more) ∧
    forkUneven.Perm forkReordered ∧
    Frequencies.gather (Survey.fork Survey.more) false forkUneven =
      .ok [(.str "q1", [(.str "long", 2), (.str "short", 1)])] ∧
    Frequencies.gather (Survey.fork Survey.more) false forkReordered =
      .ok [(.str "q1", [(.str "short", 1), (.str "long", 2)])] ∧
    (Frequencies.gather (Survey.fork Survey.more) false forkReordered >>= fun fs =>
      rareChoices (Survey.fork Survey.more) fs (.int 0)) =
        .ok [(Survey.forkFirst, [plainChoice "short"])] ∧
    (breakoffByPosition forkUneven).total = 3 ∧
    ∃ t, (breakoffByQuestion forkUneven).run.1 = .ok t ∧ t.total = 3 := by
  have hperm : forkUneven.Perm forkReordered := .swap _ _ _
  have hcounts : Frequencies.gather (Survey.fork Survey.more) false forkUneven =
      .ok forkCounts := by
    have hanswers : Frequencies.countedAnswers forkUneven =
        ["long", "short", "long"].map fun choice =>
          ⟨Survey.forkFirst, [⟨plainChoice choice, .int 0⟩], .int 0⟩ := rfl
    unfold Frequencies.gather Frequencies.ofResponses
    rw [hanswers]
    cbv
  have hcounts' : Frequencies.gather (Survey.fork Survey.more) false forkReordered =
      .ok [(.str "q1", [(.str "short", 1), (.str "long", 2)])] := by
    have hanswers : Frequencies.countedAnswers forkReordered =
        ["short", "long", "long"].map fun choice =>
          ⟨Survey.forkFirst, [⟨plainChoice choice, .int 0⟩], .int 0⟩ := rfl
    unfold Frequencies.gather Frequencies.ofResponses
    rw [hanswers]
    cbv
  obtain ⟨-, hrare, -, ⟨-, hposition⟩, -, hquestion, hsucceeds⟩ :=
    statistics_perm hperm (Survey.fork Survey.more) false (.int 0) (.int 0)
  obtain ⟨t, ht⟩ := hsucceeds (by
    simp [forkUneven, plainResponse, Response.counted, Document.number?])
  refine ⟨Survey.ofDocument_fork, hperm, hcounts, hcounts', ?_, hposition, t, ht, hquestion t ht⟩
  rw [← hrare, hcounts]
  have hnumber : (Document.int 0).number = .ok (.int 0) := rfl
  change rareChoices _ _ _ = _
  rw [rareChoices_eq hnumber, if_pos (by cbv)]
  cbv

/-- A response whose first answer has no number as its place. -/
def unplaced : Response where
  id := .str "sr0"
  answers := [⟨Survey.forkFirst, [⟨plainChoice "short", .int 0⟩], .str "first"⟩,
    ⟨Survey.forkLast, [⟨plainChoice "last", .int 0⟩], .int 0⟩]

/-- Where the response stops is not counted, although it has answers that count. -/
theorem unplaced_not_counted :
    unplaced.BelongsTo (Survey.fork Survey.more) ∧ countAnswered [unplaced] = 1 ∧
    (breakoffByQuestion [unplaced]).run.1 = .error .illTyped := by
  refine ⟨?_, rfl, ?_⟩
  · simp [Response.BelongsTo, unplaced, Survey.questions_fork, Answer.choices, Survey.forkFirst,
      Survey.forkLast, plainQuestion]
  · rw [breakoffByQuestion_eq]
    rfl

end Questionnaire
