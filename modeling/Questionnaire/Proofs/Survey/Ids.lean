/-
# Ids made of numbers

Three notions of a number meet in an id: the digits that make it a number, the
dots at which it is cut, and the reading of what lies between them, which also
skips blanks. They agree on every text. What is ordered by numbers is runs of
digits of any script with single dots between them and perhaps one line end
behind, and each of its pieces, the last one with the line end, is read as the
run in it.

Blocks in natural order are told by three properties, so the order of the blocks
is the same wherever some of them are put in order.

Key definitions: `Dotted`, `wholeWritten?`, `SortKey.Before`, `InOrder`.
Key theorems: `SortKey.ofText_eq_numbered_iff`, `SortKey.wholes_of_numbered`,
`SortKey.before_append`, `sortBlocks_eq_ok_iff`, `sortBlocks_filter_of_ties`,
`ids_in_natural_order`.
-/
import Questionnaire.Proofs.Path.Tour
import Questionnaire.Proofs.Path.WellFormed

namespace Questionnaire

/-! ### What is ordered by numbers -/

/-- Runs of digits with dots between them, and perhaps one line end behind. -/
structure Dotted (parts : List (List Char)) (id : List Char) : Prop where
  nonempty : parts ≠ []
  digits : ∀ run ∈ parts, run ≠ [] ∧ ∀ c ∈ run, isDecimalDigit c = true
  written : id = ['.'].intercalate parts ∨ id = ['.'].intercalate parts ++ ['\n']

/-- The code points of the characters that are skipped around a number. -/
def marginCodes : List Nat := [9, 10, 11, 12, 13, 32, 133, 160, 5760, 8192, 8193, 8194, 8195, 8196,
  8197, 8198, 8199, 8200, 8201, 8202, 8232, 8233, 8239, 8287, 12288]

theorem mem_marginCodes {c : Char} (h : isMargin c = true) : c.toNat ∈ marginCodes := by
  simp only [isMargin, isBlank, Bool.and_eq_true, Bool.or_eq_true, decide_eq_true_eq, beq_iff_eq,
    Bool.not_eq_true', Bool.and_eq_false_imp, decide_eq_false_iff_not] at h
  simp only [marginCodes, List.mem_cons, List.not_mem_nil, or_false]
  omega

theorem not_digit_of_margin {c : Char} (h : isMargin c = true) : isDecimalDigit c = false := by
  have hnone : ∀ n ∈ marginCodes, digitZeros.find? (fun z => z ≤ n && n < z + 10) = none := by decide
  rw [isDecimalDigit, digitValue?, hnone _ (mem_marginCodes h)]
  rfl

theorem not_margin_of_digit {c : Char} (h : isDecimalDigit c = true) : isMargin c = false := by
  cases hmargin : isMargin c with
  | false => rfl
  | true => exact absurd (not_digit_of_margin hmargin) (by simp [h])

theorem dropWhile_digits {run : List Char} (h : ∀ c ∈ run, isDecimalDigit c = true) :
    run.dropWhile isMargin = run := by
  cases run with
  | nil => rfl
  | cons c cs => rw [List.dropWhile_cons, not_margin_of_digit (h c List.mem_cons_self)]; rfl

/-- Of digits and margins behind them the digits are left. -/
theorem trimMargins_digits {run tail : List Char} (hrun : ∀ c ∈ run, isDecimalDigit c = true)
    (htail : ∀ c ∈ tail, isMargin c = true) : trimMargins (run ++ tail) = run := by
  have hfront : (run ++ tail).dropWhile isMargin = run ++ tail ∨ run = [] := by
    cases run with
    | nil => exact .inr rfl
    | cons c cs =>
      rw [List.cons_append, List.dropWhile_cons, not_margin_of_digit (hrun c List.mem_cons_self)]
      exact .inl rfl
  have hback : ∀ c ∈ tail.reverse, isMargin c = true := fun c hc => htail c (List.mem_reverse.mp hc)
  unfold trimMargins
  rcases hfront with hfront | rfl
  · rw [hfront, List.reverse_append, List.dropWhile_append_of_pos hback,
      dropWhile_digits fun c hc => hrun c (List.mem_reverse.mp hc), List.reverse_reverse]
  · rw [List.nil_append, List.dropWhile_eq_nil_iff.mpr htail]
    rfl

theorem plainDigits?_digits : ∀ {run : List Char}, run ≠ [] →
    (∀ c ∈ run, isDecimalDigit c = true) → plainDigits? run = some run
  | [], h, _ => absurd rfl h
  | [c], _, h => by rw [plainDigits?, if_pos (h c List.mem_cons_self)]
  | c :: d :: rest, _, h => by
    have hrest : ∀ x ∈ d :: rest, isDecimalDigit x = true := fun x hx =>
      h x (List.mem_cons_of_mem c hx)
    have hline : ∀ after, d :: rest = '_' :: after → False := by
      rintro after heq
      cases heq
      exact absurd (hrest '_' List.mem_cons_self) (by decide)
    rw [plainDigits?.eq_4 c _ (List.cons_ne_nil d rest) hline, if_pos (h c List.mem_cons_self),
      plainDigits?_digits (List.cons_ne_nil d rest) hrest, Option.map_some]

/-- The whole number with its sign and margins around it, with as many digits as there are. -/
def wholeWritten? (cs : List Char) : Option Int :=
  (signedDigits? (trimMargins cs)).map fun (negative, ds) => signedValue negative ds

theorem signedDigits?_digits {run : List Char} (hne : run ≠ [])
    (h : ∀ c ∈ run, isDecimalDigit c = true) : signedDigits? run = some (false, run) := by
  have hsign : splitSign run = (false, run) := by
    cases run with
    | nil => rfl
    | cons c cs =>
      have hc := h c List.mem_cons_self
      unfold splitSign
      split
      · rename_i heq
        cases heq
        exact absurd hc (by decide)
      · rename_i heq
        cases heq
        exact absurd hc (by decide)
      · rfl
  rw [signedDigits?, hsign]
  simp [plainDigits?_digits hne h]

namespace SortKey

theorem runs_eq_splitOn : ∀ cs : List Char, runs cs = cs.splitOn '.'
  | [] => rfl
  | c :: cs => by
    have hne := List.splitOn_ne_nil '.' cs
    rw [runs, runs_eq_splitOn cs]
    simp only [List.splitOn, List.splitOnP_cons_eq_if_modifyHead, beq_iff_eq] at hne ⊢
    split
    · rfl
    · cases h : List.splitOnP (fun x => x == '.') cs with
      | nil => exact absurd h hne
      | cons r rs => rfl

theorem isNumber_iff {run : List Char} :
    isNumber run = true ↔ run ≠ [] ∧ ∀ c ∈ run, isDecimalDigit c = true := by
  simp [isNumber, List.all_eq_true]

theorem mem_intercalate {c : Char} : ∀ {parts : List (List Char)},
    c ∈ ['.'].intercalate parts → c = '.' ∨ ∃ run ∈ parts, c ∈ run
  | [], h => by simp at h
  | [run], h => by
    rw [List.intercalate_singleton] at h
    exact .inr ⟨run, List.mem_cons_self, h⟩
  | run :: next :: rest, h => by
    rw [List.intercalate_cons_cons, List.append_assoc, List.mem_append, List.mem_append] at h
    rcases h with hrun | hdot | hrest
    · exact .inr ⟨run, List.mem_cons_self, hrun⟩
    · exact .inl (List.mem_singleton.mp hdot)
    · exact (mem_intercalate hrest).imp_right fun ⟨r, hr, hc⟩ => ⟨r, List.mem_cons_of_mem _ hr, hc⟩

theorem runs_intercalate {parts : List (List Char)} (hne : parts ≠ [])
    (h : ∀ run ∈ parts, '.' ∉ run) : runs (['.'].intercalate parts) = parts := by
  rw [runs_eq_splitOn, List.splitOn_intercalate '.' h hne]

/-- What stands behind the last run is behind all of them. -/
theorem intercalate_concat (run tail : List Char) : ∀ init : List (List Char),
    ['.'].intercalate (init ++ [run ++ tail]) = ['.'].intercalate (init ++ [run]) ++ tail
  | [] => by simp [List.intercalate_singleton]
  | first :: init => by
    rw [List.cons_append, List.intercalate_cons_of_ne_nil (by simp), intercalate_concat run tail init,
      List.cons_append, List.intercalate_cons_of_ne_nil (by simp), List.append_assoc _ _ tail]

end SortKey

namespace Dotted

open SortKey

variable {parts : List (List Char)} {id : List Char}

theorem dot_notMem (h : Dotted parts id) {run : List Char} (hrun : run ∈ parts) : '.' ∉ run :=
  fun hdot => absurd ((h.digits run hrun).2 '.' hdot) (by decide)

theorem newline_notMem (h : Dotted parts id) : '\n' ∉ ['.'].intercalate parts := fun hmem => by
  rcases mem_intercalate hmem with heq | ⟨run, hrun, hend⟩
  · exact absurd heq (by decide)
  · exact absurd ((h.digits run hrun).2 _ hend) (by decide)

theorem chomp_eq (h : Dotted parts id) : chomp id = ['.'].intercalate parts := by
  unfold chomp
  rcases h.written with rfl | rfl
  · exact if_neg fun hlast => h.newline_notMem (List.mem_of_getLast? hlast)
  · rw [if_pos List.getLast?_concat, List.dropLast_concat]

theorem runs_chomp (h : Dotted parts id) : runs (chomp id) = parts := by
  rw [h.chomp_eq, runs_intercalate h.nonempty fun _ => h.dot_notMem]

theorem isNumber (h : Dotted parts id) : parts.all SortKey.isNumber = true :=
  List.all_eq_true.mpr fun run hrun => isNumber_iff.mpr (h.digits run hrun)

/-- The pieces between the dots are the runs, the last one perhaps with the line end. -/
theorem runs_eq (h : Dotted parts id) : ∃ init run tail, parts = init ++ [run] ∧
    runs id = init ++ [run ++ tail] ∧ (tail = [] ∨ tail = ['\n']) := by
  obtain ⟨init, run, rfl⟩ : ∃ init run, parts = init ++ [run] :=
    ⟨_, _, (List.dropLast_append_getLast h.nonempty).symm⟩
  have hdot : ∀ tail, '.' ∉ tail → ∀ piece ∈ init ++ [run ++ tail], '.' ∉ piece := by
    intro tail htail piece hpiece
    rcases List.mem_append.mp hpiece with hinit | hlast
    · exact h.dot_notMem (List.mem_append_left _ hinit)
    · rw [List.mem_singleton.mp hlast, List.mem_append, not_or]
      exact ⟨h.dot_notMem List.mem_concat_self, htail⟩
  have hpieces : ∀ tail, '.' ∉ tail →
      runs (['.'].intercalate (init ++ [run]) ++ tail) = init ++ [run ++ tail] := by
    intro tail htail
    rw [← intercalate_concat, runs_intercalate (by simp) (hdot tail htail)]
  rcases h.written with rfl | rfl
  · refine ⟨init, run, [], rfl, ?_, .inl rfl⟩
    simpa using hpieces [] (by simp)
  · exact ⟨init, run, ['\n'], rfl, hpieces _ (by decide), .inr rfl⟩

end Dotted

namespace SortKey

theorem dotted_runs {id : List Char} (h : (runs (chomp id)).all isNumber = true) :
    Dotted (runs (chomp id)) id where
  nonempty := by
    rw [runs_eq_splitOn]
    exact List.splitOn_ne_nil '.' _
  digits := fun run hrun => isNumber_iff.mp (List.all_eq_true.mp h run hrun)
  written := by
    rw [runs_eq_splitOn, List.intercalate_splitOn, chomp]
    split
    · rename_i hlast
      exact .inr (List.dropLast_append_getLast? _ hlast).symm
    · exact .inl rfl

theorem ofText_eq (id : String) : ofText id = if (runs (chomp id.toList)).all isNumber = true
    then numbered ((runs (chomp id.toList)).map digitsValue) else named id := rfl

theorem ofText_dotted {id : String} {parts : List (List Char)} (h : Dotted parts id.toList) :
    ofText id = numbered (parts.map digitsValue) := by
  rw [ofText_eq, h.runs_chomp, if_pos h.isNumber]

theorem ofText_not_dotted {id : String} (h : ¬∃ parts, Dotted parts id.toList) :
    ofText id = named id := by
  rw [ofText_eq, if_neg fun hall => h ⟨_, dotted_runs hall⟩]

/-- **Ordered by numbers is what is made of runs of digits**, by the values of the runs. -/
theorem ofText_eq_numbered_iff {id : String} {ns : List Nat} :
    ofText id = numbered ns ↔ ∃ parts, Dotted parts id.toList ∧ ns = parts.map digitsValue := by
  constructor
  · intro h
    by_cases hdotted : ∃ parts, Dotted parts id.toList
    · obtain ⟨parts, hparts⟩ := hdotted
      rw [ofText_dotted hparts, numbered.injEq] at h
      exact ⟨parts, hparts, h.symm⟩
    · cases (ofText_not_dotted hdotted).symm.trans h
  · rintro ⟨parts, hparts, rfl⟩
    exact ofText_dotted hparts

/-! ### The numbers are read -/

/-- A piece of an id is read as the run in it. -/
theorem signedDigits?_piece {run tail : List Char} (hne : run ≠ [])
    (hrun : ∀ c ∈ run, isDecimalDigit c = true) (htail : tail = [] ∨ tail = ['\n']) :
    signedDigits? (trimMargins (run ++ tail)) = some (false, run) := by
  have hmargin : ∀ c ∈ tail, isMargin c = true := by
    rcases htail with rfl | rfl
    · simp
    · exact fun c hc => by rw [List.mem_singleton.mp hc]; rfl
  rw [trimMargins_digits hrun hmargin, signedDigits?_digits hne hrun]

theorem map_pieces {β : Type} (read : Option (Bool × List Char) → β) {id : List Char}
    {parts : List (List Char)} (h : Dotted parts id) :
    (runs id).map (fun piece => read (signedDigits? (trimMargins piece))) =
      parts.map fun run => read (some (false, run)) := by
  obtain ⟨init, run, tail, rfl, hruns, htail⟩ := h.runs_eq
  have hrun := h.digits run List.mem_concat_self
  rw [hruns, List.map_append, List.map_append, List.map_singleton, List.map_singleton,
    signedDigits?_piece hrun.1 hrun.2 htail]
  refine congrArg (· ++ _) (List.map_congr_left fun r hr => ?_)
  have hdigits := h.digits r (List.mem_append_left _ hr)
  have hread := signedDigits?_piece hdigits.1 hdigits.2 (.inl rfl)
  rw [List.append_nil] at hread
  rw [hread]

/-- **What is cut at the dots is read without an error**, as the numbers that the id is ordered
by. -/
theorem wholes_of_numbered {id : String} {ns : List Nat} (h : ofText id = numbered ns) :
    (runs id.toList).map wholeWritten? = ns.map fun n : Nat => some (n : Int) := by
  obtain ⟨parts, hparts, rfl⟩ := ofText_eq_numbered_iff.mp h
  rw [List.map_map]
  exact map_pieces (Option.map fun p => signedValue p.1 p.2) hparts

/-- With the limit on how many digits are read only a run that is too long is no number. -/
theorem wholeOfChars?_pieces {id : List Char} {parts : List (List Char)} (h : Dotted parts id) :
    (runs id).map wholeOfChars? = parts.map fun run =>
      if digitLimit < run.length then none else some (digitsValue run : Int) :=
  map_pieces (Option.bind · fun p =>
    if digitLimit < p.2.length then none else some (signedValue p.1 p.2)) h

theorem isReadable_eq_false_iff {id : String} : isReadable id = false ↔
    (∃ ns, ofText id = numbered ns) ∧ none ∈ (runs id.toList).map wholeOfChars? := by
  by_cases hdotted : ∃ parts, Dotted parts id.toList
  · obtain ⟨parts, hparts⟩ := hdotted
    have hnumbered : ∃ ns, ofText id = numbered ns := ⟨_, ofText_dotted hparts⟩
    rw [and_iff_right hnumbered, wholeOfChars?_pieces hparts]
    simp [isReadable, hparts.runs_chomp, hparts.isNumber]
  · have hnamed : ¬∃ ns, ofText id = numbered ns := by
      rintro ⟨ns, hns⟩
      cases (ofText_not_dotted hdotted).symm.trans hns
    have hall : (runs (chomp id.toList)).all isNumber = false := by
      by_contra hall
      exact hdotted ⟨_, dotted_runs (by simpa using hall)⟩
    simp [isReadable, hall, hnamed]

/-- A text has no sort key exactly if a number in it is too long to be read. -/
theorem ofId_text_eq_ok_iff {id : String} {key : SortKey} : ofId (.str id) = .ok key ↔
    key = ofText id ∧
      ¬((∃ ns, ofText id = numbered ns) ∧ none ∈ (runs id.toList).map wholeOfChars?) := by
  rw [← isReadable_eq_false_iff, ofId]
  cases isReadable id <;> simp [eq_comm]

/-! ### Before and after -/

/-- What has the sort key `p` comes before what has `q`. -/
def Before (p q : SortKey) : Prop := p.le q = true ∧ q.le p = false

theorem numbersLe_iff_not_lt : ∀ {ms ns : List Nat}, numbersLe ms ns = true ↔ ¬ns < ms
  | [], ns => by simp [numbersLe]
  | m :: ms, [] => by simp [numbersLe]
  | m :: ms, n :: ns => by
    have ih := @numbersLe_iff_not_lt ms ns
    simp only [numbersLe, Bool.or_eq_true, decide_eq_true_eq, Bool.and_eq_true, beq_iff_eq, ih,
      List.cons_lt_cons_iff, not_or, not_and]
    constructor
    · rintro (hlt | ⟨rfl, hns⟩)
      · exact ⟨by omega, by omega⟩
      · exact ⟨Nat.lt_irrefl m, fun _ => hns⟩
    · rintro ⟨hle, hns⟩
      rcases Nat.lt_or_eq_of_le (Nat.not_lt.mp hle) with hlt | rfl
      · exact .inl hlt
      · exact .inr ⟨rfl, hns rfl⟩

theorem before_iff_not_le {p q : SortKey} : p.Before q ↔ q.le p = false := by
  refine ⟨And.right, fun h => ⟨?_, h⟩⟩
  have htotal := le_total p q
  rwa [h, Bool.or_false] at htotal

theorem numbered_before_numbered {ms ns : List Nat} :
    (numbered ms).Before (numbered ns) ↔ ms < ns := by
  rw [before_iff_not_le, le, ← Bool.not_eq_true, numbersLe_iff_not_lt, not_not]

theorem numbered_before_named (ns : List Nat) (id : String) : (numbered ns).Before (named id) :=
  ⟨rfl, rfl⟩

theorem named_before_named {a b : String} : (named a).Before (named b) ↔ a < b := by
  rw [before_iff_not_le, le, decide_eq_false_iff_not, String.not_le]

theorem append_lt_of_lt : ∀ {ms ns : List Nat} (more : List Nat), ms < ns → ¬ms <+: ns →
    ms ++ more < ns
  | [], ns, _, _, hunder => absurd ⟨ns, rfl⟩ hunder
  | m :: ms, [], _, hlt, _ => absurd hlt (List.not_lt_nil _)
  | m :: ms, n :: ns, more, hlt, hunder => by
    rw [List.cons_append, List.cons_lt_cons_iff]
    rcases List.cons_lt_cons_iff.mp hlt with hfirst | ⟨rfl, hrest⟩
    · exact .inl hfirst
    · refine .inr ⟨rfl, append_lt_of_lt more hrest fun hms => hunder ?_⟩
      exact (List.prefix_cons_inj m).mpr hms

/-- **What is under an id comes before all that the id comes before**, unless that is under it
too. -/
theorem before_append {ms : List Nat} {q : SortKey} (h : (numbered ms).Before q)
    (hapart : ∀ ns, q = numbered ns → ¬ms <+: ns) (more : List Nat) :
    (numbered (ms ++ more)).Before q := by
  cases q with
  | numbered ns =>
    rw [numbered_before_numbered] at h ⊢
    exact append_lt_of_lt more h (hapart ns rfl)
  | named id => exact numbered_before_named _ id

end SortKey

/-! ### Sorted blocks -/

/-- Whether the id of the block has the sort key. -/
def Block.hasSortKey (key : SortKey) (b : Block) : Bool := b.sortKey.toOption = some key

/-- The blocks in natural order: all of them, none after one of a later id, and those of one sort
key in the order they had. -/
structure InOrder (blocks sorted : List Block) : Prop where
  perm : sorted.Perm blocks
  rising : sorted.Pairwise Block.upTo
  stable : ∀ key, sorted.filter (·.hasSortKey key) = blocks.filter (·.hasSortKey key)

theorem Block.hasSortKey_iff {b : Block} {key : SortKey} :
    b.hasSortKey key = true ↔ b.sortKey = .ok key := by
  rw [hasSortKey, decide_eq_true_eq]
  cases b.sortKey <;> simp [Except.toOption]

theorem Block.upTo_antisymm {b c : Block} (hbc : b.upTo c) (hcb : c.upTo b) :
    b.sortKey = c.sortKey := by
  obtain ⟨j, k, hj, hk, hle⟩ := hbc
  obtain ⟨k', j', hk', hj', hle'⟩ := hcb
  cases hk.symm.trans hk'
  cases hj.symm.trans hj'
  rw [hj, hk, SortKey.le_antisymm j k hle hle']

theorem withSortKeys_pairwise {blocks : List Block} {keyed : List (SortKey × Block)}
    (h : withSortKeys id blocks = .ok keyed) (hrising : blocks.Pairwise Block.upTo) :
    keyed.Pairwise fun x y => x.1.le y.1 = true := by
  have hkeys := sortKey_of_withSortKeys h
  rw [← map_snd_of_withSortKeys h, List.pairwise_map] at hrising
  refine hrising.imp_of_mem fun {x y} hx hy hle => ?_
  obtain ⟨j, k, hj, hk, hle⟩ := hle
  cases (hkeys x hx).symm.trans hj
  cases (hkeys y hy).symm.trans hk
  exact hle

/-- Blocks that are in order already stay as they are. -/
theorem sortBlocks_of_rising {blocks : List Block} (hkeys : ∀ b ∈ blocks, ∃ key, b.sortKey = .ok key)
    (hrising : blocks.Pairwise Block.upTo) : sortBlocks blocks = .ok blocks := by
  obtain ⟨keyed, hkeyed⟩ := withSortKeys_succeeds_iff.mpr hkeys
  refine inNaturalOrder_eq_ok.mpr ⟨keyed, hkeyed, ?_⟩
  rw [List.mergeSort_of_pairwise (withSortKeys_pairwise hkeyed hrising)]
  exact (map_snd_of_withSortKeys hkeyed).symm

theorem inOrder_of_sortBlocks {blocks sorted : List Block} (h : sortBlocks blocks = .ok sorted) :
    InOrder blocks sorted where
  perm := inNaturalOrder_perm h
  rising := inNaturalOrder_pairwise h
  stable := fun key => by
    have hone : ∀ b ∈ blocks.filter (·.hasSortKey key), b.sortKey = .ok key := fun b hb =>
      Block.hasSortKey_iff.mp (List.mem_filter.mp hb).2
    have hrising : (blocks.filter (·.hasSortKey key)).Pairwise Block.upTo :=
      List.pairwise_of_forall_mem_list fun b hb c hc =>
        ⟨key, key, hone b hb, hone c hc, (Bool.or_self _).symm.trans (SortKey.le_total key key)⟩
    have hsame := sortBlocks_of_rising (fun b hb => ⟨key, hone b hb⟩) hrising
    exact Except.ok.inj ((inNaturalOrder_filter _ h).symm.trans hsame)

/-- Lists in order with the same blocks of each sort key begin with the same block: each of the first
blocks is in the other list, so neither is after the other. -/
theorem head_eq_of_rising {x y : Block} {xs ys : List Block} (hx : ∃ key, x.sortKey = .ok key)
    (hy : ∃ key, y.sortKey = .ok key) (hxrising : (x :: xs).Pairwise Block.upTo)
    (hyrising : (y :: ys).Pairwise Block.upTo)
    (hsame : ∀ key, (x :: xs).filter (·.hasSortKey key) = (y :: ys).filter (·.hasSortKey key)) :
    x = y := by
  obtain ⟨j, hj⟩ := hx
  obtain ⟨k, hk⟩ := hy
  have hmem : ∀ b key, b.sortKey = .ok key → (b ∈ x :: xs ↔ b ∈ y :: ys) := fun b key hkey => by
    have hboth := congrArg (b ∈ ·) (hsame key)
    simpa [List.mem_filter, Block.hasSortKey_iff.mpr hkey] using hboth
  rcases List.mem_cons.mp ((hmem x j hj).mp List.mem_cons_self) with heq | hx
  · exact heq
  rcases List.mem_cons.mp ((hmem y k hk).mpr List.mem_cons_self) with heq | hy
  · exact heq.symm
  have hkeys := Block.upTo_antisymm (List.rel_of_pairwise_cons hxrising hy)
    (List.rel_of_pairwise_cons hyrising hx)
  have hfirst := hsame j
  rw [List.filter_cons_of_pos (Block.hasSortKey_iff.mpr hj),
    List.filter_cons_of_pos (Block.hasSortKey_iff.mpr (hkeys ▸ hj))] at hfirst
  exact (List.cons.inj hfirst).1

/-- Lists in order with the same blocks of each sort key are the same. -/
theorem eq_of_rising : ∀ {xs ys : List Block}, xs.Pairwise Block.upTo → ys.Pairwise Block.upTo →
    (∀ b ∈ xs, ∃ key, b.sortKey = .ok key) → (∀ b ∈ ys, ∃ key, b.sortKey = .ok key) →
    (∀ key, xs.filter (·.hasSortKey key) = ys.filter (·.hasSortKey key)) → xs = ys
  | [], [], _, _, _, _, _ => rfl
  | [], y :: ys, _, _, _, hys, hsame => by
    obtain ⟨key, hkey⟩ := hys y List.mem_cons_self
    have hy := hsame key
    rw [List.filter_cons_of_pos (Block.hasSortKey_iff.mpr hkey)] at hy
    cases hy
  | x :: xs, [], _, _, hxs, _, hsame => by
    obtain ⟨key, hkey⟩ := hxs x List.mem_cons_self
    have hx := hsame key
    rw [List.filter_cons_of_pos (Block.hasSortKey_iff.mpr hkey)] at hx
    cases hx
  | x :: xs, y :: ys, hxrising, hyrising, hxs, hys, hsame => by
    obtain rfl := head_eq_of_rising (hxs x List.mem_cons_self) (hys y List.mem_cons_self) hxrising
      hyrising hsame
    rw [eq_of_rising hxrising.of_cons hyrising.of_cons (fun b hb => hxs b (List.mem_cons_of_mem x hb))
      (fun b hb => hys b (List.mem_cons_of_mem x hb)) fun key => ?_]
    have hrest := hsame key
    by_cases hkey : x.hasSortKey key = true
    · rw [List.filter_cons_of_pos hkey, List.filter_cons_of_pos hkey] at hrest
      exact (List.cons.inj hrest).2
    · rwa [List.filter_cons_of_neg hkey, List.filter_cons_of_neg hkey] at hrest

/-- **Blocks are put in order exactly if their ids have one**, and there is no other order. -/
theorem sortBlocks_eq_ok_iff {blocks sorted : List Block} : sortBlocks blocks = .ok sorted ↔
    (∀ b ∈ blocks, ∃ key, b.sortKey = .ok key) ∧ InOrder blocks sorted := by
  constructor
  · exact fun h => ⟨inNaturalOrder_succeeds_iff.mp ⟨sorted, h⟩, inOrder_of_sortBlocks h⟩
  · rintro ⟨hkeys, horder⟩
    obtain ⟨found, hfound⟩ := inNaturalOrder_succeeds_iff.mpr hkeys
    have hother := inOrder_of_sortBlocks hfound
    have hin : ∀ {bs : List Block}, bs.Perm blocks → ∀ b ∈ bs, ∃ key, b.sortKey = .ok key :=
      fun hperm b hb => hkeys b (hperm.mem_iff.mp hb)
    rw [eq_of_rising horder.rising hother.rising (hin horder.perm) (hin hother.perm) fun key =>
      (horder.stable key).trans (hother.stable key).symm]
    exact hfound

/-- Some of the blocks are put in the order that they have among all, however they were arranged
before, if those of one sort key were left in their order. -/
theorem sortBlocks_filter_of_ties {blocks sorted bs : List Block} {p : Block → Bool}
    (h : sortBlocks blocks = .ok sorted) (hperm : bs.Perm (blocks.filter p))
    (hties : ∀ key, bs.filter (·.hasSortKey key) = (blocks.filter p).filter (·.hasSortKey key)) :
    sortBlocks bs = .ok (sorted.filter p) := by
  obtain ⟨hkeys, horder⟩ := sortBlocks_eq_ok_iff.mp h
  refine sortBlocks_eq_ok_iff.mpr ⟨fun b hb => ?_, ?_, ?_, fun key => ?_⟩
  · exact hkeys b (List.mem_of_mem_filter (hperm.mem_iff.mp hb))
  · exact (horder.perm.filter p).trans hperm.symm
  · exact horder.rising.filter p
  · rw [hties, List.filter_comm, horder.stable, List.filter_comm]

/-- However the blocks were arranged before, they are put in order by the same sort keys. -/
theorem map_sortKey_of_perm {bs cs ordered sorted : List Block} (hperm : bs.Perm cs)
    (hbs : sortBlocks bs = .ok ordered) (hcs : sortBlocks cs = .ok sorted) :
    ordered.map (·.sortKey) = sorted.map (·.sortKey) := by
  have hleft := inOrder_of_sortBlocks hbs
  have hright := inOrder_of_sortBlocks hcs
  have hrising : ∀ {xs : List Block}, xs.Pairwise Block.upTo → (xs.map (·.sortKey)).Pairwise
      fun j k => ∃ b c : Block, b.sortKey = j ∧ c.sortKey = k ∧ b.upTo c := fun h =>
    List.pairwise_map.mpr (h.imp fun {b c} hle => ⟨b, c, rfl, rfl, hle⟩)
  refine List.Perm.eq_of_pairwise ?_ (hrising hleft.rising) (hrising hright.rising)
    (((hleft.perm.trans hperm).trans hright.perm.symm).map _)
  rintro j k - - ⟨b, c, rfl, rfl, hle⟩ ⟨c', b', hc, hb, j', k', hj, hk, hle'⟩
  exact Block.upTo_antisymm hle ⟨j', k', hc ▸ hj, hb ▸ hk, hle'⟩

/-- The natural order of the blocks at the top level is that of the fixed blocks of an arrangement and
of the blocks of a chain, and by sort keys that of the blocks that a tour goes through. -/
structure Survey.OneOrder (s : Survey) (sorted : List Block) : Prop where
  arrangement : ∀ g order g', s.arrangeBlocks g = .ok (order, g') →
    order.filter (!·.isRandomizable) = sorted.filter (!·.isRandomizable)
  chain : ∀ found chain, s.fixedChains = .ok found → chain ∈ found →
    chain.Sublist (sorted.filter (!·.isRandomizable))
  /-- A tour of some of the blocks, however they were arranged. Blocks of one sort key come as they
  were arranged, and are all that the order may differ in. -/
  tour : ∀ p bs, bs.Perm (s.blocks.filter p) → ∀ g qs g', tour bs g = .ok (qs, g') →
    ∃ ordered parts, qs = parts.flatten ∧
      List.Forall₂ (fun b part => ∃ g g', b.tour g = .ok (part, g')) ordered parts ∧
      InOrder bs ordered ∧ ordered.map (·.sortKey) = (sorted.filter p).map (·.sortKey) ∧
      ((∀ key, bs.filter (·.hasSortKey key) = (s.blocks.filter p).filter (·.hasSortKey key)) →
        ordered = sorted.filter p)

theorem Survey.oneOrder {s : Survey} {sorted : List Block} (h : sortBlocks s.blocks = .ok sorted) :
    s.OneOrder sorted where
  arrangement := fun g order g' hg => by
    obtain ⟨found, hfound, -, hfixed⟩ := arrangeBlocks_eq_ok hg
    cases h.symm.trans hfound
    exact hfixed
  chain := fun found chain hfound hchain => by
    unfold fixedChains orderedChains at hfound
    obtain ⟨fixed, hfixed, hchains⟩ := bind_eq_ok.mp hfound
    cases (inNaturalOrder_filter _ h).symm.trans hfixed
    exact sublist_of_mem_chains _ hchains hchain
  tour := fun p bs hperm g qs g' htour => by
    obtain ⟨ordered, parts, hordered, hparts, hqs⟩ := tour_eq_ok htour
    refine ⟨ordered, parts, hqs, hparts, inOrder_of_sortBlocks hordered,
      map_sortKey_of_perm hperm hordered (inNaturalOrder_filter p h), fun hties => ?_⟩
    cases (sortBlocks_filter_of_ties h hperm hties).symm.trans hordered
    rfl

namespace SortKey

/-- **The natural order of ids.** Numbers order what is made of runs of digits, and what is cut at
the dots is read as these numbers; only a run that is too long for reading leaves an id without a
sort key. Of two ids with numbers the lexicographic order decides, and all other ids come later, by
their characters, so what is under an id comes where the id does. Putting blocks in order gives the
one rising list of them that leaves blocks of one sort key in their order. The order of the blocks at
the top level is the same in arrangements and chains; on a tour it is by the same sort keys. -/
theorem ids_in_natural_order :
    ((∀ id ns, ofText id = numbered ns ↔
        ∃ parts, Dotted parts id.toList ∧ ns = parts.map digitsValue) ∧
      (∀ id, (¬∃ parts, Dotted parts id.toList) → ofText id = named id) ∧
      (∀ id ns, ofText id = numbered ns →
        (runs id.toList).map wholeWritten? = ns.map fun n : Nat => some (n : Int)) ∧
      ∀ (b : Block) id, b.id = .str id → ∀ key, b.sortKey = .ok key ↔ key = ofText id ∧
        ¬((∃ ns, ofText id = numbered ns) ∧ none ∈ (runs id.toList).map wholeOfChars?)) ∧
    ((∀ ms ns, (numbered ms).Before (numbered ns) ↔ ms < ns) ∧
      (∀ ns id, (numbered ns).Before (named id)) ∧
      (∀ a b, (named a).Before (named b) ↔ a < b) ∧
      ∀ p q under ms more, ofText p = numbered ms → ofText under = numbered (ms ++ more) →
        (ofText p).Before (ofText q) → (∀ ns, ofText q = numbered ns → ¬ms <+: ns) →
        (ofText under).Before (ofText q)) ∧
    (∀ blocks sorted, sortBlocks blocks = .ok sorted ↔
      (∀ b ∈ blocks, ∃ key, b.sortKey = .ok key) ∧ InOrder blocks sorted) ∧
    ∀ (s : Survey) sorted, sortBlocks s.blocks = .ok sorted → s.OneOrder sorted := by
  refine ⟨⟨fun id ns => ofText_eq_numbered_iff, fun id => ofText_not_dotted,
    fun id ns => wholes_of_numbered, fun b id hid key => ?_⟩, ⟨fun ms ns => numbered_before_numbered,
    numbered_before_named, fun a b => named_before_named,
    fun p q under ms more hp hunder hbefore hapart => ?_⟩, fun blocks sorted => sortBlocks_eq_ok_iff,
    fun s sorted => Survey.oneOrder⟩
  · rw [Block.sortKey, hid]
    exact ofId_text_eq_ok_iff
  · rw [hunder]
    exact before_append (hp ▸ hbefore) hapart more

/-! ### Two ids with one number -/

/-- A survey of which two blocks have the same sort key. -/
def tiedDocument : Document := .record [
  ("name", .str "tied"),
  ("blocks", .list [blockEntry "10" [], blockEntry "1" [], blockEntry "01" []])]

/-- The block with the id and its question. -/
def tiedBlock (index : Nat) (id : String) : Block :=
  plainBlock index id (plainQuestion index id [] [])

/-- The survey of the document. -/
def tied : Survey where
  name := .str "tied"
  blocks := [tiedBlock 0 "10", tiedBlock 1 "1", tiedBlock 2 "01"]

theorem ofDocument_tied : Survey.ofDocument 0 tiedDocument = .ok tied := by
  unfold Survey.ofDocument
  rw [@readBlocks_leaves 0 tiedDocument [_, _, _] (by cbv) (by cbv)]
  cbv

/-- The blocks in natural order. -/
def tiedOrder : List Block := [tiedBlock 1 "1", tiedBlock 2 "01", tiedBlock 0 "10"]

theorem sortBlocks_tied : sortBlocks tied.blocks = .ok tiedOrder := by cbv

theorem exists_arrangement_tied (g : Gen) : ∃ order g', tied.arrangeBlocks g = .ok (order, g') := by
  obtain ⟨⟨order, g'⟩, h⟩ := Survey.arrangeBlocks_succeeds (List.cons_ne_nil _ _) sortBlocks_tied g
  exact ⟨order, g', h⟩

theorem fixedChains_tied : tied.fixedChains = .ok [tiedOrder] := by cbv

theorem tour_tiedBlock (index : Nat) (id : String) (g : Gen) :
    (tiedBlock index id).tour g = .ok ([plainQuestion index id [] []], g) := by
  have hown : (tiedBlock index id).ownTour g = ([plainQuestion index id [] []], g) :=
    if_neg (by simp [tiedBlock, plainBlock])
  have hnone : tour [] g = .ok ([], g) := by cbv
  refine Block.tour_eq_ok.mpr ⟨[], ?_, ?_⟩ <;> rw [hown]
  · exact hnone
  · rfl

/-- A tour of the blocks, of which those of one sort key were turned round. -/
theorem tour_tied (g : Gen) : tour [tiedBlock 2 "01", tiedBlock 1 "1", tiedBlock 0 "10"] g =
    .ok ([plainQuestion 2 "01" [] [], plainQuestion 1 "1" [] [], plainQuestion 0 "10" [] []], g) := by
  have hsorted : sortBlocks [tiedBlock 2 "01", tiedBlock 1 "1", tiedBlock 0 "10"] =
      .ok [tiedBlock 2 "01", tiedBlock 1 "1", tiedBlock 0 "10"] := by cbv
  simp [tour, hsorted, Gen.tryEach, tour_tiedBlock, bind, Except.bind, pure, Except.pure]

/-- Digits of two scripts, a leading zero and a line end; and blocks of which two have the same sort
key, with a chain of them, an arrangement and a tour. -/
theorem natural_order_of_texts :
    ofText "2.٠7\n" = numbered [2, 7] ∧
      (runs "2.٠7\n".toList).map wholeWritten? = [some 2, some 7] ∧
      (ofText "2.7.1").Before (ofText "2.10") ∧
      sortBlocks tied.blocks = .ok tiedOrder ∧
      (∃ order g', tied.arrangeBlocks (.ofSeed 0) = .ok (order, g') ∧
        order.filter (!·.isRandomizable) = tiedOrder) ∧
      (∃ found chain, tied.fixedChains = .ok found ∧ chain ∈ found ∧ chain.Sublist tiedOrder) ∧
      ∃ qs g', tour [tiedBlock 2 "01", tiedBlock 1 "1", tiedBlock 0 "10"] (.ofSeed 0) = .ok (qs, g') ∧
        ∃ (ordered : List Block) (parts : List (List Question)), qs = parts.flatten ∧
          List.Forall₂ (fun b part => ∃ g g', b.tour g = .ok (part, g')) ordered parts ∧
          ordered.map (·.sortKey) = tiedOrder.map (·.sortKey) := by
  obtain ⟨⟨-, -, hread, -⟩, ⟨-, -, -, hunder⟩, -, horders⟩ := ids_in_natural_order
  have hnumbers : ofText "2.٠7\n" = numbered [2, 7] := by decide
  have horder := horders tied tiedOrder sortBlocks_tied
  obtain ⟨order, g', harranged⟩ := exists_arrangement_tied (.ofSeed 0)
  have hperm : [tiedBlock 2 "01", tiedBlock 1 "1", tiedBlock 0 "10"].Perm
      (tied.blocks.filter fun _ => true) := List.reverse_perm tied.blocks
  obtain ⟨ordered, parts, hqs, hparts, -, hkeys, -⟩ :=
    horder.tour (fun _ => true) _ hperm _ _ _ (tour_tied (.ofSeed 0))
  refine ⟨hnumbers, hread _ _ hnumbers, ?_, sortBlocks_tied,
    ⟨order, g', harranged, horder.arrangement _ _ _ harranged⟩,
    ⟨_, _, fixedChains_tied, List.mem_singleton_self _,
      horder.chain _ _ fixedChains_tied (List.mem_singleton_self _)⟩,
    _, _, tour_tied _, ordered, parts, hqs, hparts, hkeys⟩
  refine hunder "2.7" "2.10" "2.7.1" [2, 7] [1] (by decide) (by decide) ⟨by decide, by decide⟩ ?_
  intro ns hns
  cases (show ofText "2.10" = numbered [2, 10] by decide).symm.trans hns
  decide

/-- Arrangements and chains keep blocks of one sort key in the order of the survey, and a tour may
take them in another one, as a path does not keep an order. -/
theorem ties_toured_otherwise :
    Survey.ofDocument 0 tiedDocument = .ok tied ∧ tied.Valid ∧
      (∀ g, ∃ order g', tied.arrangeBlocks g = .ok (order, g') ∧
        order.filter (!·.isRandomizable) = tiedOrder) ∧
      tied.fixedChains = .ok [tiedOrder] ∧ tied.paths = .ok [tied.blocks] ∧
      [tiedBlock 2 "01", tiedBlock 1 "1", tiedBlock 0 "10"].Perm tied.blocks ∧
      ∀ g, tour [tiedBlock 2 "01", tiedBlock 1 "1", tiedBlock 0 "10"] g =
        .ok ([plainQuestion 2 "01" [] [], plainQuestion 1 "1" [] [], plainQuestion 0 "10" [] []], g) := by
  refine ⟨ofDocument_tied, by decide, fun g => ?_, fixedChains_tied, by cbv,
    List.reverse_perm tied.blocks, tour_tied⟩
  obtain ⟨order, g', harranged⟩ := exists_arrangement_tied g
  exact ⟨order, g', harranged, (Survey.oneOrder sortBlocks_tied).arrangement _ _ _ harranged⟩

end SortKey

end Questionnaire
