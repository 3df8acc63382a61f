import ScoutPulse.Lib.FloatText
import ScoutPulse.Football.Importer.Loans
import ScoutPulse.Football.Importer.Players
import ScoutPulse.Football.Importer.Valuations

/-!
# Money

Fees and values are read as doubles, rounded to an `int64` and stored in cents. The reader
refuses what is negative or no number; an amount keeps its value in cents only below
92233720368547758.5.
-/

namespace ScoutPulse.Importer

open Strings Strconv

/-! ## Reading -/

/-- `row`: a line of a file, and the places of its columns. -/
structure Row where
  cols : GoMap ℕ
  values : List String

/-- `row.str`. -/
def Row.str (r : Row) (name : String) : String :=
  match r.cols.lookup name with
  | some i => ((r.values[i]?).map trimSpace).getD ""
  | none => ""

/-- What a conversion to `int64` makes of a number outside it, which the language leaves to
the machine. -/
class Conversion where
  outside : Double → Int64

/-- The integers an `int64` holds. -/
def InInt64 (n : ℤ) : Prop := -2 ^ 63 ≤ n ∧ n < 2 ^ 63

instance (n : ℤ) : Decidable (InInt64 n) := inferInstanceAs (Decidable (_ ∧ _))

/-- A double converted to `int64`, which drops its fraction. -/
def toInt64 [Conversion] : Double → Int64
  | .finite q =>
      if InInt64 (q.num.tdiv q.den) then Int64.ofInt (q.num.tdiv q.den)
      else Conversion.outside (.finite q)
  | f => Conversion.outside f

/-- The number of a column that `optInt64` lets through. -/
def Row.number (r : Row) (name : String) : Option Double :=
  if r.str name = "" then none
  else (parseFloat (r.str name)).filter fun f => !(f.isNaN || f.isNegative)

section Amounts

variable [Conversion] {r : Row} {name : String} {f : Double} {n : ℤ}

/-- `row.optInt64`. -/
def Row.optInt64 (r : Row) (name : String) : Option Int64 :=
  (r.number name).map fun f => toInt64 f.round

/-- `row.int64`. -/
def Row.int64 (r : Row) (name : String) : Int64 := (r.optInt64 name).getD 0

/-- A number is an amount of `n` units: rounded, converted and in cents it is within
`int64`, and not negative. -/
structure Amount (f : Double) (n : ℤ) : Prop where
  rounds : f.round = .finite n
  converts : InInt64 n
  value : (toInt64 f.round).toInt = n
  cents : InInt64 (n * 100)
  nonneg : 0 ≤ n

omit [Conversion] in
theorem number_eq_some (found : r.number name = some f) :
    f.isNaN = false ∧ f.isNegative = false := by
  unfold Row.number at found
  split_ifs at found
  have admitted := (Option.filter_eq_some_iff.mp found).2
  simpa only [Bool.not_or, Bool.and_eq_true, Bool.not_eq_true'] using admitted

theorem toInt64_intCast (fits : InInt64 n) : (toInt64 (.finite n)).toInt = n := by
  rw [toInt64, Rat.num_intCast, Rat.den_intCast, Nat.cast_one, Int.tdiv_one, if_pos fits]
  exact Int64.toInt_ofInt_of_le fits.1 fits.2

/-- Which numbers are amounts. -/
theorem amount_iff (notNaN : f.isNaN = false) (notNegative : f.isNegative = false) :
    (∃ n, Amount f n) ↔ ∃ q : ℚ, f = .finite q ∧ q < 92233720368547758 + 1 / 2 := by
  cases f with
  | nan => simp [Double.isNaN] at notNaN
  | infinite negative =>
      refine iff_of_false (fun ⟨n, amount⟩ => ?_) (fun ⟨q, same, _⟩ => ?_)
      · exact Double.noConfusion amount.rounds
      · exact Double.noConfusion same
  | finite q =>
      have nonneg : 0 ≤ q := not_lt.mp (of_decide_eq_false notNegative)
      have rounded : Double.roundHalfAway q = ⌊q + 1 / 2⌋ := if_neg (not_lt.mpr nonneg)
      have small : q < 92233720368547758 + 1 / 2 ↔ ⌊q + 1 / 2⌋ < 92233720368547759 := by
        rw [Int.floor_lt]
        constructor <;> intro less <;> push_cast at * <;> linarith
      simp only [Double.finite.injEq, exists_eq_left', small]
      constructor
      · rintro ⟨n, amount⟩
        have same : Double.roundHalfAway q = n := by
          have rounds := amount.rounds
          rw [Double.round, Double.finite.injEq] at rounds
          exact_mod_cast rounds
        rw [rounded] at same
        have cents := amount.cents.2
        omega
      · intro less
        have above : 0 ≤ ⌊q + 1 / 2⌋ := Int.floor_nonneg.mpr (by linarith)
        have rounds : Double.round (.finite q) = .finite (⌊q + 1 / 2⌋ : ℤ) := by
          rw [Double.round, rounded]
        have converts : InInt64 ⌊q + 1 / 2⌋ := ⟨by omega, by omega⟩
        refine ⟨⌊q + 1 / 2⌋, rounds, converts, ?_, ⟨by omega, by omega⟩, above⟩
        rw [rounds]
        exact toInt64_intCast converts

/-- An amount in cents. -/
theorem Amount.mul_hundred (amount : Amount f n) : (toInt64 f.round * 100).toInt = 100 * n := by
  rw [Int64.toInt_mul, amount.value, show (100 : Int64).toInt = 100 from rfl, Int.mul_comm]
  have cents := amount.cents
  exact Int.bmod_eq_of_le (by unfold InInt64 at cents; omega) (by unfold InInt64 at cents; omega)

end Amounts

/-! ## Storing -/

section Fees

variable [Unicode] [CaseFolding] {moves : List RawTransfer} {m : Move} {v : Int64}

/-- A fee is stored in cents, of a loan's return as of every other move. -/
theorem feeMinor_classify (member : m ∈ classify moves) (given : m.raw.fee = some v) :
    m.feeMinor = some (v * 100) := by
  obtain ⟨i, found⟩ := List.getElem?_of_mem member
  rw [getElem?_classify] at found
  obtain ⟨t, there, rfl⟩ := Option.map_eq_some_iff.mp found
  by_cases isReturn : i ∈ (pairing (moves.insertionSort (·.date ≤ ·.date))).returnOf
  · -- A return has no fee or none to pay.
    obtain ⟨j, -, reached⟩ := mem_returnOf.mp isReturn
    obtain ⟨loan, back, reverses⟩ := reversal_eq_some.mp reached
    obtain rfl := Option.some.inj (there.symm.trans reverses.stands)
    have free := reverses.goesBack.2.2
    rw [classified, if_pos isReturn] at given ⊢
    rw [show t.fee = some v from given, Option.all_some, decide_eq_true_eq] at free
    rw [free]
    rfl
  · rw [classified, if_neg isReturn] at given ⊢
    dsimp only at given ⊢
    rw [given, Option.map_some]

end Fees

/-- A valuation of an imported player is stored in cents. -/
theorem mem_valueRows {m : Merge} {v : Valuation} {id : String} (member : v ∈ m.d.valuations)
    (imported : m.players.lookup v.playerID = some id) (dated : v.date ≠ "") :
    ⟨id, v.date, v.eur * 100⟩ ∈ valueRows m := by
  refine List.mem_filterMap.mpr ⟨v, member, ?_⟩
  rw [imported]
  exact if_neg dated

section Stored

variable [Unicode] [CaseFolding] [Conversion]

/-- Every fee that is admitted is an amount, and what a classified move stores of it. -/
def FeeKept (r : Row) : Prop :=
  ∀ f, r.number "transfer_fee" = some f → ∃ n, Amount f n ∧
    ∀ (moves : List RawTransfer) (m : Move), m ∈ classify moves →
      m.raw.fee = r.optInt64 "transfer_fee" →
      ∃ minor, m.feeMinor = some minor ∧ minor.toInt = 100 * n

omit [Unicode] [CaseFolding] in
/-- Every market value that is admitted is an amount, and what its player is stored with;
the latest valuation stands in for a value of zero. -/
def MarketValueKept (r : Row) : Prop :=
  ∀ f, r.number "market_value_in_eur" = some f → ∃ n, Amount f n ∧
    ∀ (valuations : List Valuation) (p : Player),
      p.marketValueEUR = r.int64 "market_value_in_eur" → n ≠ 0 →
      (valueMinorOf valuations p).toInt = 100 * n

omit [Unicode] [CaseFolding] in
/-- Every valuation that is admitted is an amount, and what is stored of it, also where it
stands in for a market value. -/
def ValuationKept (r : Row) : Prop :=
  ∀ f, r.number "market_value_in_eur" = some f → ∃ n, Amount f n ∧
    (∀ (m : Merge) (v : Valuation) (id : String), v ∈ m.d.valuations →
      m.players.lookup v.playerID = some id → v.date ≠ "" →
      v.eur = r.int64 "market_value_in_eur" →
      ∃ row ∈ valueRows m, row.player = id ∧ row.date = v.date ∧ row.value.toInt = 100 * n) ∧
    ∀ (valuations : List Valuation) (p : Player), p.marketValueEUR = 0 →
      latestValue valuations p.id = r.int64 "market_value_in_eur" →
      (valueMinorOf valuations p).toInt = 100 * n

/-- Every number of a column is below the largest amount. -/
def Small (r : Row) (name : String) : Prop :=
  ∀ f, r.number name = some f → ∃ q : ℚ, f = .finite q ∧ q < 92233720368547758 + 1 / 2

variable {r : Row} {name : String} {f : Double}

omit [Unicode] [CaseFolding] in
theorem int64_eq (found : r.number name = some f) : r.int64 name = toInt64 f.round := by
  rw [Row.int64, Row.optInt64, found, Option.map_some, Option.getD_some]

omit [Unicode] [CaseFolding] in
/-- Whatever is stored of an amount, a column holds amounts only if its numbers are small. -/
theorem kept_iff_small {Stores : ℤ → Prop}
    (stores : ∀ f n, r.number name = some f → Amount f n → Stores n) :
    (∀ f, r.number name = some f → ∃ n, Amount f n ∧ Stores n) ↔ Small r name := by
  refine forall_congr' fun f => forall_congr' fun found => ?_
  rw [← amount_iff (number_eq_some found).1 (number_eq_some found).2]
  exact exists_congr fun n => and_iff_left_of_imp (stores f n found)

/-- **Money.** What is stored is the rounded amount in cents exactly for the numbers below
the largest amount. -/
theorem money_kept_iff (r : Row) :
    (FeeKept r ↔ Small r "transfer_fee") ∧
      (MarketValueKept r ↔ Small r "market_value_in_eur") ∧
      (ValuationKept r ↔ Small r "market_value_in_eur") := by
  refine ⟨kept_iff_small ?_, kept_iff_small ?_, kept_iff_small ?_⟩
  · intro f n found amount moves m member given
    refine ⟨_, feeMinor_classify member ?_, amount.mul_hundred⟩
    rw [given, Row.optInt64, found, Option.map_some]
  · intro f n found amount valuations p given some
    rw [int64_eq found] at given
    have nonzero : p.marketValueEUR ≠ 0 := by
      intro zero
      have value := amount.value
      rw [← given, zero] at value
      exact some value.symm
    rw [valueMinorOf, if_neg nonzero, given]
    exact amount.mul_hundred
  · intro f n found amount
    constructor
    · intro m v id member imported dated given
      refine ⟨_, mem_valueRows member imported dated, rfl, rfl, ?_⟩
      rw [given, int64_eq found]
      exact amount.mul_hundred
    · intro valuations p zero latest
      rw [valueMinorOf, if_pos zero, latest, int64_eq found]
      exact amount.mul_hundred

end Stored

/-- A row with the same number in both columns. -/
def moneyRow (s : String) : Row where
  cols := [⟨"transfer_fee", 0⟩, ⟨"market_value_in_eur", 0⟩].toAList
  values := [s]

/-- A number far above the largest amount, stored as another, negative one. -/
theorem money_overflows :
    let _ := Unicode.ascii
    let _ := CaseFolding.ascii
    let _ : Conversion := ⟨fun _ => Int64.minValue⟩
    (¬ ∀ r : Row, FeeKept r ∧ MarketValueKept r ∧ ValuationKept r) ∧
      (moneyRow "1e17").number "transfer_fee" = some (.finite (10 ^ 17)) ∧
      ((moneyRow "1e17").int64 "market_value_in_eur" * 100).toInt = -8446744073709551616 := by
  have found : (moneyRow "1e17").number "transfer_fee" = some (.finite (10 ^ 17)) := by
    decide +kernel
  intro _ _ _
  refine ⟨fun kept => ?_, found, by decide +kernel⟩
  obtain ⟨n, amount, -⟩ := (kept (moneyRow "1e17")).1 _ found
  have cents := amount.cents
  have rounds := amount.rounds
  rw [show Double.round (.finite (10 ^ 17)) = .finite (10 ^ 17) by decide +kernel,
    Double.finite.injEq] at rounds
  have same : n = 10 ^ 17 := by exact_mod_cast rounds.symm
  subst same
  exact absurd cents (by decide)

end ScoutPulse.Importer
