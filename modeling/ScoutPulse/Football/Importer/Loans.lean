import ScoutPulse.Lib.Pairs
import ScoutPulse.Football.Importer.Classify

/-!
# Loans and their returns

Classifying the moves of a player pairs each loan with the move that ends it. One move may
end two loans: a free move that is repeated before it is reversed. The loans and the
returns match one to one exactly when, of two moves that look for the same reversal, the
earlier one is a return itself.
-/

namespace ScoutPulse.Importer

open Strings

/-! ## The search for a return -/

section Search

variable [Unicode] {sorted : List RawTransfer} {i j : ℕ}

/-- The place of the move that reverses the move at a place, if that may be a loan. -/
def reversal (sorted : List RawTransfer) (i : ℕ) : Option ℕ :=
  (sorted[i]?).bind fun t =>
    if mayBeLoan t then returnFrom t (i + 1) (sorted.drop (i + 1)) else none

/-- `back` reverses `t`, for no fee. -/
def GoesBack (t back : RawTransfer) : Prop :=
  back.fromID = t.toID ∧ back.toID = t.fromID ∧ back.fee.all (· = 0) = true

/-- The first move from the club a free move went to goes back where it came from, for no
fee and within the window, and no move up to it is past the window. -/
structure Reverses (sorted : List RawTransfer) (i j : ℕ) (t back : RawTransfer) : Prop where
  loan : sorted[i]? = some t
  stands : sorted[j]? = some back
  before : i < j
  mayBeLoan : mayBeLoan t = true
  goesBack : GoesBack t back
  within : ∀ k b, i < k → k ≤ j → sorted[k]? = some b → b.day - t.day ≤ loanWindow
  first : ∀ k b, i < k → k < j → sorted[k]? = some b → b.fromID ≠ t.toID

omit [Unicode] in
/-- The search ends at a reversal with nothing before it that would have ended it. -/
theorem returnFrom_eq_some {t : RawTransfer} {rest : List RawTransfer} :
    returnFrom t j rest = some i ↔
      ∃ n back, i = j + n ∧ rest[n]? = some back ∧ GoesBack t back ∧
        (∀ k b, k ≤ n → rest[k]? = some b → b.day - t.day ≤ loanWindow) ∧
        ∀ k b, k < n → rest[k]? = some b → b.fromID ≠ t.toID := by
  induction rest generalizing j with
  | nil => simp [returnFrom]
  | cons head rest ih =>
      rw [returnFrom]
      split_ifs with late goesBack away
      · refine iff_of_false (by simp) ?_
        rintro ⟨n, back, -, -, -, within, -⟩
        exact absurd (within 0 head (Nat.zero_le n) rfl) (not_le.mpr late)
      · constructor
        · rintro ⟨⟩
          refine ⟨0, head, rfl, rfl, goesBack, fun k b le found => ?_, fun k b less => ?_⟩
          · obtain rfl := Nat.le_zero.mp le
            cases found
            exact not_lt.mp late
          · exact absurd less (Nat.not_lt_zero k)
        · rintro ⟨n, back, rfl, found, -, -, first⟩
          cases n with
          | zero => rfl
          | succ n => exact absurd goesBack.1 (first 0 head (Nat.succ_pos n) rfl)
      · refine iff_of_false (by simp) ?_
        rintro ⟨n, back, -, found, back_, -, first⟩
        cases n with
        | zero =>
            cases found
            exact goesBack back_
        | succ n => exact first 0 head (Nat.succ_pos n) rfl away
      · rw [ih]
        constructor
        · rintro ⟨n, back, rfl, found, back_, within, first⟩
          refine ⟨n + 1, back, by omega, found, back_, fun k b le there => ?_,
            fun k b less there => ?_⟩
          · cases k with
            | zero =>
                cases there
                exact not_lt.mp late
            | succ k => exact within k b (Nat.le_of_succ_le_succ le) there
          · cases k with
            | zero =>
                cases there
                exact away
            | succ k => exact first k b (Nat.lt_of_succ_lt_succ less) there
        · rintro ⟨n, back, rfl, found, back_, within, first⟩
          cases n with
          | zero =>
              cases found
              exact absurd back_ goesBack
          | succ n =>
              exact ⟨n, back, by omega, found, back_,
                fun k b le there => within (k + 1) b (Nat.succ_le_succ le) there,
                fun k b less there => first (k + 1) b (Nat.succ_lt_succ less) there⟩

/-- A reversal is the first later move that goes back. -/
theorem reversal_eq_some :
    reversal sorted i = some j ↔ ∃ t back, Reverses sorted i j t back := by
  unfold reversal
  rw [Option.bind_eq_some_iff]
  refine exists_congr fun t => ?_
  by_cases loan : mayBeLoan t = true
  · rw [if_pos loan, returnFrom_eq_some]
    simp only [List.getElem?_drop]
    constructor
    · rintro ⟨stands, n, back, rfl, found, goesBack, within, first⟩
      refine ⟨back, stands, found, by omega, loan, goesBack, fun k b after le there => ?_,
        fun k b after less there => ?_⟩
      · refine within (k - (i + 1)) b (by omega) ?_
        rwa [Nat.add_sub_cancel' after]
      · refine first (k - (i + 1)) b (by omega) ?_
        rwa [Nat.add_sub_cancel' after]
    · rintro ⟨back, reverses⟩
      have before := reverses.before
      refine ⟨reverses.loan, j - (i + 1), back, by omega, ?_, reverses.goesBack,
        fun k b le there => reverses.within _ b (by omega) (by omega) there,
        fun k b less there => reverses.first _ b (by omega) (by omega) there⟩
      rw [Nat.add_sub_cancel' before]
      exact reverses.stands
  · rw [if_neg loan]
    exact iff_of_false (by simp) fun ⟨back, reverses⟩ => loan reverses.mayBeLoan

theorem reversal_forward (i j : ℕ) (found : reversal sorted i = some j) : i < j := by
  obtain ⟨t, back, reverses⟩ := reversal_eq_some.mp found
  exact reverses.before

/-- The first loop is the pass that pairs each move with its reversal. -/
theorem pairing_eq :
    (pairing sorted).loans = (Pairs.run (reversal sorted) sorted.length).starts ∧
      (pairing sorted).returnOf = (Pairs.run (reversal sorted) sorted.length).ends := by
  have same : ∀ (places : List ℕ) (s : Pairing) (s' : Pairs.State),
      s.loans = s'.starts → s.returnOf = s'.ends →
      (places.foldl (pairStep sorted) s).loans =
          (places.foldl (Pairs.step (reversal sorted)) s').starts ∧
        (places.foldl (pairStep sorted) s).returnOf =
          (places.foldl (Pairs.step (reversal sorted)) s').ends := by
    intro places
    induction places with
    | nil => exact fun s s' starts ends => ⟨starts, ends⟩
    | cons i places ih =>
        intro s s' starts ends
        refine ih _ _ ?_ ?_ <;>
        · unfold pairStep Pairs.step reversal
          rw [ends]
          split_ifs
          · assumption
          · cases sorted[i]? with
            | none => simpa
            | some t =>
                simp only [Option.bind_some]
                split_ifs
                · cases returnFrom t (i + 1) (sorted.drop (i + 1)) <;> simp [starts, ends]
                · simpa
  exact same _ ⟨[], []⟩ ⟨[], []⟩ rfl rfl

theorem mem_loans : i ∈ (pairing sorted).loans ↔ Pairs.Starts (reversal sorted) i := by
  rw [pairing_eq.1, (Pairs.run_spec reversal_forward _).1]
  refine and_iff_right_of_imp fun start => ?_
  obtain ⟨t, back, reverses⟩ := reversal_eq_some.mp start.reach_eq
  exact (List.getElem?_eq_some_iff.mp reverses.loan).1

theorem mem_returnOf : j ∈ (pairing sorted).returnOf ↔ Pairs.Ends (reversal sorted) j := by
  rw [pairing_eq.2, (Pairs.run_spec reversal_forward _).2]
  refine exists_congr fun i => and_iff_right_of_imp fun ⟨start, _⟩ => ?_
  obtain ⟨t, back, reverses⟩ := reversal_eq_some.mp start.reach_eq
  exact (List.getElem?_eq_some_iff.mp reverses.loan).1

/-- Of two moves with one reversal, the later one is no return. -/
theorem not_ends_of_reversal {i' : ℕ} (before : i < i') (found : reversal sorted i = some j)
    (found' : reversal sorted i' = some j) : ¬ Pairs.Ends (reversal sorted) i' := by
  rintro ⟨h, -, ended⟩
  obtain ⟨t, back, reverses⟩ := reversal_eq_some.mp found
  obtain ⟨t', back', reverses'⟩ := reversal_eq_some.mp found'
  obtain ⟨u, u', ends⟩ := reversal_eq_some.mp ended
  obtain rfl := Option.some.inj (reverses.stands.symm.trans reverses'.stands)
  obtain rfl := Option.some.inj (ends.stands.symm.trans reverses'.loan)
  obtain ⟨from_, to_, -⟩ := reverses.goesBack
  obtain ⟨from', to', -⟩ := reverses'.goesBack
  obtain ⟨fromEnd, toEnd, -⟩ := ends.goesBack
  rcases lt_trichotomy h i with earlier | rfl | later
  · -- The search from the club left first would have met the earlier of the two.
    refine ends.first i t earlier before reverses.loan ?_
    rw [← fromEnd, ← to_, to']
  · rw [found] at ended
    exact absurd (Option.some.inj ended) reverses'.before.ne'
  · refine reverses.first h u later (ends.before.trans reverses'.before) ends.loan ?_
    rw [← toEnd, ← from', from_]

/-- No two loans share a return exactly when, of two moves with one reversal, the earlier
one is a return. -/
theorem apart_iff : Pairs.Apart (reversal sorted) ↔
    ∀ i i' j, i < i' → reversal sorted i = some j → reversal sorted i' = some j →
      Pairs.Ends (reversal sorted) i := by
  constructor
  · intro apart i i' j before found found'
    by_contra notEnd
    refine before.ne (apart i i' j ?_ ?_ found found')
    · exact (Pairs.starts_iff reversal_forward).mpr ⟨Option.isSome_of_mem found, notEnd⟩
    · exact (Pairs.starts_iff reversal_forward).mpr
        ⟨Option.isSome_of_mem found', not_ends_of_reversal before found found'⟩
  · intro returned i i' j start start' found found'
    rcases lt_trichotomy i i' with before | same | after
    · exact absurd (returned i i' j before found found')
        ((Pairs.starts_iff reversal_forward).mp start).2
    · exact same
    · exact absurd (returned i' i j after found' found)
        ((Pairs.starts_iff reversal_forward).mp start').2

end Search

/-! ## The order of the moves -/

section Order

variable {moves : List RawTransfer}

instance : Std.Total fun t u : RawTransfer => t.date ≤ u.date :=
  ⟨fun t u => le_total t.date u.date⟩

instance : IsTrans RawTransfer fun t u => t.date ≤ u.date :=
  ⟨fun _ _ _ => le_trans⟩

/-- Moves of one date stay in the order they came in. -/
theorem filter_insertionSort (date : String) :
    (moves.insertionSort (·.date ≤ ·.date)).filter (·.date = date) =
      moves.filter (·.date = date) := by
  symm
  have sorted : (moves.filter (·.date = date)).Pairwise (·.date ≤ ·.date) := by
    refine List.pairwise_of_forall_mem_list fun t member u member' => ?_
    have same := of_decide_eq_true (List.mem_filter.mp member).2
    have same' := of_decide_eq_true (List.mem_filter.mp member').2
    exact (same.trans same'.symm).le
  have sub : (moves.filter (·.date = date)).Sublist (moves.insertionSort (·.date ≤ ·.date)) :=
    List.sublist_insertionSort sorted List.filter_sublist
  have kept := sub.filter (·.date = date)
  rw [List.filter_filter] at kept
  simp only [Bool.and_self] at kept
  refine kept.eq_of_length ?_
  exact ((List.perm_insertionSort (·.date ≤ ·.date) moves).filter _).length_eq.symm

theorem ordered_insertionSort :
    (moves.insertionSort (·.date ≤ ·.date)).Pairwise (·.date ≤ ·.date) :=
  List.pairwise_insertionSort _ moves

/-- Moves whose dates are dates are in the order of their days. -/
theorem day_le (dated : ∀ t ∈ moves, (Dates.parse t.date).isSome) {i j : ℕ} {t u : RawTransfer}
    (found : (moves.insertionSort (·.date ≤ ·.date))[i]? = some t)
    (found' : (moves.insertionSort (·.date ≤ ·.date))[j]? = some u) (le : i ≤ j) :
    t.day ≤ u.day := by
  have ordered : t.date ≤ u.date := by
    rcases le.eq_or_lt with rfl | before
    · rw [found] at found'
      cases found'
      exact le_rfl
    · obtain ⟨_, rfl⟩ := List.getElem?_eq_some_iff.mp found
      obtain ⟨_, rfl⟩ := List.getElem?_eq_some_iff.mp found'
      exact List.pairwise_iff_getElem.mp ordered_insertionSort i j _ _ before
  have members := List.perm_insertionSort (·.date ≤ ·.date) moves
  obtain ⟨n, day⟩ := Option.isSome_iff_exists.mp
    (dated t (members.mem_iff.mp (List.mem_of_getElem? found)))
  obtain ⟨n', day'⟩ := Option.isSome_iff_exists.mp
    (dated u (members.mem_iff.mp (List.mem_of_getElem? found')))
  rw [RawTransfer.day, RawTransfer.day, day, day']
  exact (Dates.parse_le_iff day day').mp ordered

end Order

/-! ## What is classified -/

section Classified

variable [Unicode] [CaseFolding] {moves : List RawTransfer} {i : ℕ} {m : Move}

theorem typeOf_ne (t : RawTransfer) : typeOf t ≠ transferLoan ∧ typeOf t ≠ transferLoanReturn := by
  unfold typeOf
  split_ifs <;> decide

/-- A move is classified a return when it ends a pair, and a loan when it starts one and ends
none. -/
theorem type_classified (s : Pairing) (t : RawTransfer) (i : ℕ) :
    ((classified s t i).type = transferLoanReturn ↔ i ∈ s.returnOf) ∧
      ((classified s t i).type = transferLoan ↔ i ∉ s.returnOf ∧ i ∈ s.loans) := by
  have apart : transferLoan ≠ transferLoanReturn := by decide
  obtain ⟨notLoan, notReturn⟩ := typeOf_ne t
  by_cases isReturn : i ∈ s.returnOf
  · have type : (classified s t i).type = transferLoanReturn := by rw [classified, if_pos isReturn]
    rw [type]
    exact ⟨iff_of_true rfl isReturn, iff_of_false apart.symm fun found => found.1 isReturn⟩
  · by_cases isLoan : i ∈ s.loans
    · have type : (classified s t i).type = transferLoan := by
        rw [classified, if_neg isReturn, if_pos isLoan]
      rw [type]
      exact ⟨iff_of_false apart isReturn, iff_of_true rfl ⟨isReturn, isLoan⟩⟩
    · have type : (classified s t i).type = typeOf t := by
        rw [classified, if_neg isReturn, if_neg isLoan]
      rw [type]
      exact ⟨iff_of_false notReturn isReturn, iff_of_false notLoan fun found => isLoan found.2⟩

/-- Each move is classified at its place. -/
theorem getElem?_classify (i : ℕ) :
    (classify moves)[i]? = ((moves.insertionSort (·.date ≤ ·.date))[i]?).map fun t =>
      classified (pairing (moves.insertionSort (·.date ≤ ·.date))) t i := by
  unfold classify
  dsimp only
  rw [List.getElem?_map, List.getElem?_zipIdx, Option.map_map]
  simp only [zero_add]
  rfl

/-- The places of the moves of one type. -/
def places (out : List Move) (type : String) : Set ℕ := {i | ∃ m, out[i]? = some m ∧ m.type = type}

theorem mem_places {type : String} : i ∈ places (classify moves) type ↔
    ∃ t, (moves.insertionSort (·.date ≤ ·.date))[i]? = some t ∧
      (classified (pairing (moves.insertionSort (·.date ≤ ·.date))) t i).type = type := by
  unfold places
  rw [Set.mem_ofPred_eq, getElem?_classify]
  simp only [Option.map_eq_some_iff, exists_exists_and_eq_and]

/-- The returns are the moves that end a pair. -/
theorem places_loanReturn : places (classify moves) transferLoanReturn =
    {j | Pairs.Ends (reversal (moves.insertionSort (·.date ≤ ·.date))) j} := by
  ext j
  rw [mem_places, Set.mem_ofPred_eq, ← mem_returnOf]
  constructor
  · rintro ⟨t, -, isReturn⟩
    exact (type_classified _ t j).1.mp isReturn
  · intro isReturn
    obtain ⟨i, -, found⟩ := mem_returnOf.mp isReturn
    obtain ⟨t, back, reverses⟩ := reversal_eq_some.mp found
    exact ⟨back, reverses.stands, (type_classified _ back j).1.mpr isReturn⟩

/-- The loans are the moves that start one. -/
theorem places_loan : places (classify moves) transferLoan =
    {i | Pairs.Starts (reversal (moves.insertionSort (·.date ≤ ·.date))) i} := by
  ext i
  rw [mem_places, Set.mem_ofPred_eq, ← mem_loans]
  constructor
  · rintro ⟨t, -, isLoan⟩
    exact ((type_classified _ t i).2.mp isLoan).2
  · intro isLoan
    have start := mem_loans.mp isLoan
    obtain ⟨t, back, reverses⟩ := reversal_eq_some.mp start.reach_eq
    refine ⟨t, reverses.loan, (type_classified _ t i).2.mpr ⟨fun isReturn => ?_, isLoan⟩⟩
    exact ((Pairs.starts_iff reversal_forward).mp start).2 (mem_returnOf.mp isReturn)

/-- Both ends of a loan are free. -/
theorem fee_of_loan (member : m ∈ classify moves)
    (onLoan : m.type = transferLoan ∨ m.type = transferLoanReturn) : m.feeMinor = some 0 := by
  obtain ⟨i, found⟩ := List.getElem?_of_mem member
  rw [getElem?_classify] at found
  obtain ⟨t, there, rfl⟩ := Option.map_eq_some_iff.mp found
  obtain ⟨typeReturn, typeLoan⟩ :=
    type_classified (pairing (moves.insertionSort (·.date ≤ ·.date))) t i
  rw [typeReturn, typeLoan] at onLoan
  rcases onLoan with ⟨notReturn, isLoan⟩ | isReturn
  · obtain ⟨t', back, reverses⟩ := reversal_eq_some.mp (mem_loans.mp isLoan).reach_eq
    obtain rfl := Option.some.inj (there.symm.trans reverses.loan)
    have free := reverses.mayBeLoan
    unfold mayBeLoan at free
    simp only [Bool.and_eq_true, decide_eq_true_eq] at free
    rw [classified, if_neg notReturn]
    dsimp only
    rw [free.1.1.1.1]
    rfl
  · rw [classified, if_pos isReturn]

/-- A move that ends a loan: a later one, within the window, back between the same clubs. -/
structure EndsLoan (t u : Move) : Prop where
  after : t.raw.day ≤ u.raw.day
  within : u.raw.day - t.raw.day ≤ loanWindow
  fromClub : u.raw.fromID = t.raw.toID
  toClub : u.raw.toID = t.raw.fromID

/-- The moves classified are those given, in the stable order of their dates; the loans and
the returns among them match one to one, each loan with a later move that ends it; and both
ends are free. -/
structure LoansPaired (moves : List RawTransfer) (out : List Move) : Prop where
  perm : (out.map (·.raw)).Perm moves
  ordered : (out.map (·.raw)).Pairwise (·.date ≤ ·.date)
  stable : ∀ date, (out.map (·.raw)).filter (·.date = date) = moves.filter (·.date = date)
  paired : ∃ back : ℕ → ℕ,
    Set.BijOn back (places out transferLoan) (places out transferLoanReturn) ∧
      ∀ i t u, out[i]? = some t → t.type = transferLoan → out[back i]? = some u →
        i < back i ∧ EndsLoan t u
  free : ∀ m ∈ out, m.type = transferLoan ∨ m.type = transferLoanReturn → m.feeMinor = some 0

/-- **Loans and their returns.** The moves classified as loans and as returns match one to one
exactly when, of two moves that one move reverses, the earlier is the return of a loan. -/
theorem classify_paired_iff (dated : ∀ t ∈ moves, (Dates.parse t.date).isSome) :
    LoansPaired moves (classify moves) ↔
      ∀ i i' j, i < i' → reversal (moves.insertionSort (·.date ≤ ·.date)) i = some j →
        reversal (moves.insertionSort (·.date ≤ ·.date)) i' = some j →
        Pairs.Ends (reversal (moves.insertionSort (·.date ≤ ·.date))) i := by
  rw [← apart_iff]
  constructor
  · rintro ⟨-, -, -, ⟨back, bijOn, -⟩, -⟩
    rw [places_loan, places_loanReturn] at bijOn
    refine Pairs.apart_of_bijOn ((Set.finite_lt_nat moves.length).subset fun i start => ?_) bijOn
    obtain ⟨t, u, reverses⟩ := reversal_eq_some.mp (Pairs.Starts.reach_eq start)
    rw [← List.length_insertionSort (·.date ≤ ·.date) moves]
    exact (List.getElem?_eq_some_iff.mp reverses.loan).1
  · intro apart
    refine ⟨?_, ?_, fun date => ?_, ?_, fun m => fee_of_loan⟩
    · rw [map_raw_classify]
      exact List.perm_insertionSort _ moves
    · rw [map_raw_classify]
      exact ordered_insertionSort
    · rw [map_raw_classify]
      exact filter_insertionSort date
    · refine ⟨Pairs.reached (reversal (moves.insertionSort (·.date ≤ ·.date))), ?_, ?_⟩
      · rw [places_loan, places_loanReturn]
        exact Pairs.bijOn_reached apart
      · intro i t u found isLoan found'
        have start : i ∈ places (classify moves) transferLoan := ⟨t, found, isLoan⟩
        rw [places_loan, Set.mem_ofPred_eq] at start
        obtain ⟨loan, back, reverses⟩ := reversal_eq_some.mp start.reach_eq
        have raw := congrArg (Option.map (·.raw)) found
        have raw' := congrArg (Option.map (·.raw)) found'
        rw [← List.getElem?_map, map_raw_classify, Option.map_some] at raw raw'
        obtain rfl := Option.some.inj (raw.symm.trans reverses.loan)
        obtain rfl := Option.some.inj (raw'.symm.trans reverses.stands)
        obtain ⟨fromClub, toClub, -⟩ := reverses.goesBack
        refine ⟨reverses.before, day_le dated raw raw' reverses.before.le, ?_, fromClub, toClub⟩
        exact reverses.within _ _ reverses.before le_rfl reverses.stands

end Classified

section Felix

/-- A player's moves as the source records them. -/
def felix : List RawTransfer :=
  [⟨"2024-08-21", "13", "631", "", "", some 52000000⟩, ⟨"2023-01-11", "13", "631", "", "", some 0⟩,
    ⟨"2023-06-30", "631", "13", "", "", some 0⟩, ⟨"2023-09-01", "13", "131", "", "", some 0⟩,
    ⟨"2024-06-30", "131", "13", "", "", some 0⟩, ⟨"2025-02-03", "631", "5", "", "", some 0⟩,
    ⟨"2025-06-30", "5", "631", "", "", some 0⟩]

/-- The three loans among them are paired with their returns. -/
theorem classify_paired_iff_felix :
    let _ := Unicode.ascii
    let _ := CaseFolding.ascii
    LoansPaired felix (classify felix) := by
  intro _ _
  have few : ∀ i ∈ List.range 7, ∀ i' ∈ List.range 7, i < i' →
      reversal (felix.insertionSort (·.date ≤ ·.date)) i ≠ none →
        reversal (felix.insertionSort (·.date ≤ ·.date)) i ≠
          reversal (felix.insertionSort (·.date ≤ ·.date)) i' := by decide +kernel
  refine (classify_paired_iff (by decide +kernel)).mpr fun i i' j before found found' => ?_
  obtain ⟨t, back, reverses⟩ := reversal_eq_some.mp found'
  have last : j < 7 := (List.getElem?_eq_some_iff.mp reverses.stands).1
  have later := reverses.before
  refine absurd (found.trans found'.symm) (few i (List.mem_range.mpr (by omega)) i'
    (List.mem_range.mpr (by omega)) before ?_)
  rw [found]
  exact Option.some_ne_none j

/-- A free move recorded on two days, and the move back. -/
def recordedTwice : List RawTransfer :=
  [⟨"2023-01-11", "13", "631", "", "", some 0⟩, ⟨"2023-01-12", "13", "631", "", "", some 0⟩,
    ⟨"2023-06-30", "631", "13", "", "", some 0⟩]

/-- Both records are taken for loans, and one return ends both. -/
theorem loan_without_return :
    let _ := Unicode.ascii
    let _ := CaseFolding.ascii
    (∀ t ∈ recordedTwice, (Dates.parse t.date).isSome) ∧
      ¬ LoansPaired recordedTwice (classify recordedTwice) := by
  intro _ _
  have types : (classify recordedTwice).map (·.type) = ["loan", "loan", "loan_return"] := by
    decide +kernel
  have typeAt : ∀ i type, i ∈ places (classify recordedTwice) type ↔
      (["loan", "loan", "loan_return"])[i]? = some type := fun i type => by
    rw [← types, List.getElem?_map, Option.map_eq_some_iff]
    rfl
  refine ⟨by decide +kernel, fun paired => ?_⟩
  obtain ⟨back, bijOn, -⟩ := paired.paired
  have last : ∀ i, i ∈ places (classify recordedTwice) transferLoan → back i = 2 := by
    intro i isLoan
    have isReturn := (typeAt _ _).mp (bijOn.mapsTo isLoan)
    match back i, isReturn with
    | 2, _ => rfl
  have first := (typeAt 0 transferLoan).mpr rfl
  have second := (typeAt 1 transferLoan).mpr rfl
  have same := bijOn.injOn first second ((last 0 first).trans (last 1 second).symm)
  cases same

end Felix

end ScoutPulse.Importer
