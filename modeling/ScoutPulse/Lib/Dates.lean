import Mathlib.Data.Int.Notation
import Mathlib.Data.Nat.Notation
import Mathlib.Data.String.Basic
import Mathlib.Tactic.IntervalCases

/-!
# Dates

The layout `2006-01-02` of the package `time`: a year of four digits, a month and a day of
two, in the Gregorian calendar. A point in time that is kept as a date is kept as the day it
is in its own zone, and comes back as the midnight of that day in UTC.
-/

namespace Dates

/-- The value of a digit. -/
def digit (c : Char) : Option ℕ := if c.isDigit then some (c.toNat - 48) else none

/-- The number that some digits write. -/
def number (cs : List Char) : Option ℕ :=
  cs.foldlM (fun n c => (digit c).map (10 * n + ·)) 0

def isLeap (year : ℕ) : Bool := year % 4 = 0 && (year % 100 ≠ 0 || year % 400 = 0)

/-- `daysIn`. -/
def daysIn (month year : ℕ) : ℕ :=
  if month = 2 then if isLeap year then 29 else 28
  else if month ∈ [4, 6, 9, 11] then 30 else 31

/-- The days from the first of January of the year 1 to that of a year. -/
def daysBeforeYear (year : ℕ) : ℤ :=
  let y : ℤ := year - 1
  365 * y + y / 4 - y / 100 + y / 400

/-- The days of a year before a month of it. -/
def daysBeforeMonth (month year : ℕ) : ℕ :=
  ((List.range (month - 1)).map fun m => daysIn (m + 1) year).sum

/-- The day a year, a month and a day of it make, in days since the zero time. -/
def civil (year month day : ℕ) : Option ℤ :=
  if 1 ≤ month ∧ month ≤ 12 ∧ 1 ≤ day ∧ day ≤ daysIn month year then
    some (daysBeforeYear year + daysBeforeMonth month year + (day - 1))
  else none

/-- `time.Parse("2006-01-02", text)`. -/
def parse (text : String) : Option ℤ :=
  match text.toList with
  | [y₁, y₂, y₃, y₄, '-', m₁, m₂, '-', d₁, d₂] => do
      civil (← number [y₁, y₂, y₃, y₄]) (← number [m₁, m₂]) (← number [d₁, d₂])
  | _ => none

example : parse "2024-02-29" = some 738944 ∧ parse "2023-02-29" = none := by decide

/-! ## Points in time and days -/

/-- How long a day is, in nanoseconds. -/
def dayLength : ℤ := 86400000000000

/-- A `time.Time`: a point in time, in nanoseconds since the zero time, and how far ahead of
UTC its zone is. -/
structure Moment where
  instant : ℤ
  ahead : ℤ
  deriving DecidableEq

/-- The day a moment is in its zone, in days since the zero time: what a `DATE` column keeps
of it. -/
def Moment.day (m : Moment) : ℤ := (m.instant + m.ahead) / dayLength

/-- The midnight a day starts with. -/
def midnight (day : ℤ) : ℤ := day * dayLength

/-- The moment a day of a `DATE` column is read back as. -/
def ofDay (day : ℤ) : Moment := ⟨midnight day, 0⟩

theorem midnight_div (day : ℤ) : midnight day / dayLength = day :=
  Int.mul_ediv_cancel _ (by decide)

/-- A day that is read and written again is the same. -/
@[simp]
theorem day_ofDay (day : ℤ) : (ofDay day).day = day := by
  rw [ofDay, Moment.day, add_zero, midnight_div]

theorem midnight_le_iff {day instant : ℤ} : midnight day ≤ instant ↔ day ≤ instant / dayLength :=
  (Int.le_ediv_iff_mul_le (by decide)).symm

theorem midnight_eq_zero_iff {day : ℤ} : midnight day = 0 ↔ day = 0 := by
  rw [midnight, mul_eq_zero, or_iff_left (by decide)]

/-- Five in the morning of the first day, which is the evening before it further west. -/
example : (Moment.mk 18000000000000 0).day = 0 ∧
    (Moment.mk 18000000000000 (-21600000000000)).day = -1 := by decide

/-! ## Dates in order -/

theorem isLeap_iff {year : ℕ} :
    isLeap year = true ↔ year % 4 = 0 ∧ (year % 100 ≠ 0 ∨ year % 400 = 0) := by
  unfold isLeap
  rw [Bool.and_eq_true, Bool.or_eq_true, decide_eq_true_iff, decide_eq_true_iff,
    decide_eq_true_iff]

theorem daysBeforeMonth_succ {month : ℕ} (year : ℕ) (some_ : 1 ≤ month) :
    daysBeforeMonth (month + 1) year = daysBeforeMonth month year + daysIn month year := by
  obtain ⟨m, rfl⟩ := Nat.exists_eq_add_of_le' some_
  simp [daysBeforeMonth, List.range_succ]

theorem daysBeforeMonth_mono (year : ℕ) {month month' : ℕ} (some_ : 1 ≤ month)
    (le : month ≤ month') : daysBeforeMonth month year ≤ daysBeforeMonth month' year := by
  induction month', le using Nat.le_induction with
  | base => exact Nat.le_refl _
  | succ month' le ih =>
      rw [daysBeforeMonth_succ year (Nat.le_trans some_ le)]
      exact Nat.le_add_right_of_le ih

/-- A year is as long as its months together. -/
theorem daysBeforeYear_succ (year : ℕ) :
    daysBeforeYear (year + 1) = daysBeforeYear year + daysBeforeMonth 13 year := by
  have months : daysBeforeMonth 13 year = 337 + daysIn 2 year := by
    simp [daysBeforeMonth, List.range_succ, daysIn]
    omega
  rw [months, daysIn, if_pos rfl]
  unfold daysBeforeYear
  dsimp only
  by_cases leap : isLeap year = true
  · rw [if_pos leap]
    rw [isLeap_iff] at leap
    omega
  · rw [if_neg leap]
    rw [isLeap_iff] at leap
    omega

/-- A later year begins later. -/
theorem daysBeforeYear_mono {year year' : ℕ} (le : year ≤ year') :
    daysBeforeYear year ≤ daysBeforeYear year' := by
  induction year', le using Nat.le_induction with
  | base => exact Int.le_refl _
  | succ year' _ ih =>
      rw [daysBeforeYear_succ]
      omega

/-- What is left of a month is before the next one. -/
theorem civil_spec {year month day : ℕ} {n : ℤ} (made : civil year month day = some n) :
    (1 ≤ month ∧ month ≤ 12 ∧ 1 ≤ day ∧ day ≤ daysIn month year) ∧
      n = daysBeforeYear year + daysBeforeMonth month year + (day - 1) := by
  unfold civil at made
  split at made
  next valid => exact ⟨valid, (Option.some.inj made).symm⟩
  next => cases made

/-- Dates are in the order of their years, months and days. -/
theorem civil_lt {year month day year' month' day' : ℕ} {n n' : ℤ}
    (made : civil year month day = some n) (made' : civil year' month' day' = some n')
    (before : year < year' ∨ year = year' ∧ (month < month' ∨ month = month' ∧ day < day')) :
    n < n' := by
  obtain ⟨⟨some_, last, day_, within⟩, rfl⟩ := civil_spec made
  obtain ⟨⟨some', last', day'_, within'⟩, rfl⟩ := civil_spec made'
  have next := daysBeforeMonth_succ year some_
  rcases before with earlier | ⟨rfl, earlier | ⟨rfl, earlier⟩⟩
  · have years := daysBeforeYear_mono (Nat.succ_le_of_lt earlier)
    rw [Nat.succ_eq_add_one, daysBeforeYear_succ] at years
    have months : daysBeforeMonth (month + 1) year ≤ daysBeforeMonth 13 year :=
      daysBeforeMonth_mono year (by omega) (by omega)
    omega
  · have months := daysBeforeMonth_mono year (by omega) (Nat.succ_le_of_lt earlier)
    rw [Nat.succ_eq_add_one] at months
    omega
  · omega

theorem digit_eq_some {c : Char} {n : ℕ} (read : digit c = some n) :
    c.toNat = 48 + n ∧ n ≤ 9 := by
  unfold digit at read
  split at read
  next isDigit =>
    cases read
    simp only [Char.isDigit, Bool.and_eq_true, decide_eq_true_eq, ge_iff_le,
      UInt32.le_iff_toNat_le] at isDigit
    simp only [Char.toNat]
    have low : '0'.val.toNat = 48 := rfl
    have high : '9'.val.toNat = 57 := rfl
    omega
  next => cases read

/-- Digits are ordered as their characters are. -/
theorem digit_lt {c c' : Char} {n n' : ℕ} (read : digit c = some n) (read' : digit c' = some n') :
    c < c' ↔ n < n' := by
  have first := (digit_eq_some read).1
  have second := (digit_eq_some read').1
  rw [Char.lt_def, UInt32.lt_iff_toNat_lt]
  simp only [Char.toNat] at first second
  omega

theorem digit_inj {c c' : Char} {n : ℕ} (read : digit c = some n) (read' : digit c' = some n) :
    c = c' := by
  rw [← Char.toNat_inj, (digit_eq_some read).1, (digit_eq_some read').1]

/-- A number that starts with more stays greater. -/
theorem number_lt_of_start {cs cs' : List Char} (long : cs.length = cs'.length) {k k' n n' : ℕ}
    (read : cs.foldlM (fun n c => (digit c).map (10 * n + ·)) k = some n)
    (read' : cs'.foldlM (fun n c => (digit c).map (10 * n + ·)) k' = some n') (less : k < k') :
    n < n' := by
  induction cs generalizing cs' k k' with
  | nil =>
      obtain rfl := List.eq_nil_of_length_eq_zero long.symm
      cases read
      cases read'
      exact less
  | cons c cs ih =>
      cases cs' with
      | nil => cases long
      | cons c' cs' =>
          rw [List.foldlM_cons, Option.bind_eq_bind, Option.bind_eq_some_iff] at read read'
          obtain ⟨_, made, rest⟩ := read
          obtain ⟨_, made', rest'⟩ := read'
          obtain ⟨d, isDigit, rfl⟩ := Option.map_eq_some_iff.mp made
          obtain ⟨d', isDigit', rfl⟩ := Option.map_eq_some_iff.mp made'
          have small := (digit_eq_some isDigit).2
          exact ih (Nat.succ.inj long) rest rest' (by omega)

/-- Numbers of as many digits are in the order of their digits. -/
theorem number_lt {cs cs' : List Char} (long : cs.length = cs'.length) {n n' : ℕ}
    (read : number cs = some n) (read' : number cs' = some n') (tail tail' : List Char) :
    cs ++ tail < cs' ++ tail' ↔ n < n' ∨ n = n' ∧ tail < tail' := by
  unfold number at read read'
  generalize 0 = k at read read'
  induction cs generalizing cs' k with
  | nil =>
      obtain rfl := List.eq_nil_of_length_eq_zero long.symm
      cases read
      cases read'
      simp
  | cons c cs ih =>
      cases cs' with
      | nil => cases long
      | cons c' cs' =>
          rw [List.foldlM_cons, Option.bind_eq_bind, Option.bind_eq_some_iff] at read read'
          obtain ⟨_, made, rest⟩ := read
          obtain ⟨_, made', rest'⟩ := read'
          obtain ⟨d, isDigit, rfl⟩ := Option.map_eq_some_iff.mp made
          obtain ⟨d', isDigit', rfl⟩ := Option.map_eq_some_iff.mp made'
          have long := Nat.succ.inj long
          rw [List.cons_append, List.cons_append, List.cons_lt_cons_iff,
            digit_lt isDigit isDigit']
          rcases lt_trichotomy d d' with first | rfl | later
          · have before : n < n' := number_lt_of_start long rest rest' (by omega)
            simp only [first, before, true_or]
          · simp only [lt_irrefl, digit_inj isDigit isDigit', true_and, false_or]
            exact ih long _ rest rest'
          · have after : n' < n := number_lt_of_start long.symm rest' rest (by omega)
            have other : c ≠ c' := by
              rintro rfl
              rw [isDigit] at isDigit'
              cases isDigit'
              exact lt_irrefl _ later
            simp only [Nat.not_lt.mpr later.le, other, false_and, or_self, false_iff, not_or,
              not_and]
            exact ⟨Nat.not_lt.mpr after.le, fun same => absurd same after.ne'⟩

/-- The year, the month and the day of a date in text. -/
def readDate (text : String) : Option (ℕ × ℕ × ℕ) :=
  match text.toList with
  | [y₁, y₂, y₃, y₄, '-', m₁, m₂, '-', d₁, d₂] => do
      return (← number [y₁, y₂, y₃, y₄], ← number [m₁, m₂], ← number [d₁, d₂])
  | _ => none

/-- A date is read by its parts. -/
theorem parse_eq (text : String) :
    parse text = (readDate text).bind fun (y, m, d) => civil y m d := by
  unfold parse readDate
  split
  next =>
    cases number _ with
    | none => rfl
    | some y =>
        cases number _ with
        | none => rfl
        | some m => cases number _ <;> rfl
  next => rfl

/-- A date that can be read is four digits, two and two, with dashes between. -/
theorem readDate_eq_some {text : String} {y m d : ℕ} (read : readDate text = some (y, m, d)) :
    ∃ ys ms ds : List Char, text.toList = ys ++ '-' :: (ms ++ '-' :: (ds ++ [])) ∧
      (ys.length = 4 ∧ ms.length = 2 ∧ ds.length = 2) ∧
      number ys = some y ∧ number ms = some m ∧ number ds = some d := by
  unfold readDate at read
  split at read
  next y₁ y₂ y₃ y₄ m₁ m₂ d₁ d₂ shape =>
    obtain ⟨y, year, read⟩ := Option.bind_eq_some_iff.mp read
    obtain ⟨m, month, read⟩ := Option.bind_eq_some_iff.mp read
    obtain ⟨d, day, read⟩ := Option.bind_eq_some_iff.mp read
    cases read
    exact ⟨[y₁, y₂, y₃, y₄], [m₁, m₂], [d₁, d₂], shape, ⟨rfl, rfl, rfl⟩, year, month, day⟩
  next => cases read

/-- Dates in text are in the order of their years, months and days. -/
theorem readDate_lt {a b : String} {y m d y' m' d' : ℕ} (read : readDate a = some (y, m, d))
    (read' : readDate b = some (y', m', d')) :
    a < b ↔ y < y' ∨ y = y' ∧ (m < m' ∨ m = m' ∧ d < d') := by
  obtain ⟨ys, ms, ds, shape, ⟨ly, lm, ld⟩, year, month, day⟩ := readDate_eq_some read
  obtain ⟨ys', ms', ds', shape', ⟨ly', lm', ld'⟩, year', month', day'⟩ := readDate_eq_some read'
  rw [String.lt_iff_toList_lt, shape, shape', number_lt (ly.trans ly'.symm) year year',
    List.cons_lt_cons_iff, number_lt (lm.trans lm'.symm) month month',
    List.cons_lt_cons_iff, number_lt (ld.trans ld'.symm) day day']
  simp

/-- Days are in the order of their texts. -/
theorem lt_of_parse {a b : String} {n n' : ℤ} (read : parse a = some n)
    (read' : parse b = some n') (before : a < b) : n < n' := by
  rw [parse_eq] at read read'
  obtain ⟨⟨y, m, d⟩, fields, made⟩ := Option.bind_eq_some_iff.mp read
  obtain ⟨⟨y', m', d'⟩, fields', made'⟩ := Option.bind_eq_some_iff.mp read'
  exact civil_lt made made' ((readDate_lt fields fields').mp before)

/-- Dates are ordered as their texts are. -/
theorem parse_le_iff {a b : String} {n n' : ℤ} (read : parse a = some n)
    (read' : parse b = some n') : a ≤ b ↔ n ≤ n' := by
  constructor
  · intro le
    rcases le.lt_or_eq with before | rfl
    · exact (lt_of_parse read read' before).le
    · rw [read] at read'
      exact (Option.some.inj read').le
  · intro le
    by_contra after
    exact (lt_of_parse read' read (not_le.mp after)).not_ge le

theorem parse_lt_iff {a b : String} {n n' : ℤ} (read : parse a = some n)
    (read' : parse b = some n') : a < b ↔ n < n' := by
  rw [← not_le, parse_le_iff read' read, not_le]

/-! ## Dates written as text -/

/-- A number in decimal, with zeros before it to a width. -/
def decimal : ℕ → ℕ → List Char
  | 0, n => if n = 0 then [] else Nat.toDigits 10 n
  | width + 1, n => decimal width (n / 10) ++ [Nat.digitChar (n % 10)]

example : decimal 4 33 = "0033".toList ∧ decimal 2 2024 = "2024".toList := by decide

/-- `Format("2006-01-02")`, of years that are not negative. -/
def iso (year month day : ℕ) : String :=
  String.ofList (decimal 4 year ++ '-' :: (decimal 2 month ++ '-' :: decimal 2 day))

/-- The day after one, by year, month and day. -/
def next : ℕ × ℕ × ℕ → ℕ × ℕ × ℕ
  | (y, m, d) =>
      if d < daysIn m y then (y, m, d + 1)
      else if m < 12 then (y, m + 1, 1)
      else (y + 1, 1, 1)

/-- The day before one; there is none before the first of the year zero. -/
def prev : ℕ × ℕ × ℕ → Option (ℕ × ℕ × ℕ)
  | (y, m, d) =>
      if 1 < d then some (y, m, d - 1)
      else if 1 < m then some (y, m - 1, daysIn (m - 1) y)
      else if 1 ≤ y then some (y - 1, 12, 31)
      else none

/-- `t.AddDate(0, 0, 1).Format("2006-01-02")`, of the date a text is; the zero time when it is
none. -/
def dayAfter (text : String) : String :=
  match (readDate text).filter fun (y, m, d) => (civil y m d).isSome with
  | some date =>
      let (y, m, d) := next date
      iso y m d
  | none => "0001-01-02"

/-- `t.AddDate(0, 0, -1).Format("2006-01-02")`. -/
def dayBefore (text : String) : String :=
  match (readDate text).filter fun (y, m, d) => (civil y m d).isSome with
  | some date =>
      match prev date with
      | some (y, m, d) => iso y m d
      | none => "-0001-12-31"
  | none => "0000-12-31"

example : dayAfter "2023-12-31" = "2024-01-01" ∧ dayBefore "2024-03-01" = "2024-02-29" := by
  decide +kernel

theorem digit_digitChar {n : ℕ} (small : n < 10) : digit (Nat.digitChar n) = some n := by
  interval_cases n <;> rfl

theorem number_append {cs : List Char} {n : ℕ} (read : number cs = some n) {k : ℕ}
    (small : k < 10) : number (cs ++ [Nat.digitChar k]) = some (10 * n + k) := by
  rw [number, List.foldlM_append]
  rw [number] at read
  rw [read, Option.bind_eq_bind, Option.bind_some, List.foldlM_cons, digit_digitChar small]
  rfl

/-- A number that fits its width is written in as many digits. -/
theorem decimal_spec (width : ℕ) {n : ℕ} (fits : n < 10 ^ width) :
    (decimal width n).length = width ∧ number (decimal width n) = some n := by
  induction width generalizing n with
  | zero =>
      obtain rfl : n = 0 := by omega
      exact ⟨rfl, rfl⟩
  | succ width ih =>
      have tens : n / 10 < 10 ^ width := by
        rw [Nat.pow_succ] at fits
        omega
      obtain ⟨long, read⟩ := ih tens
      refine ⟨by rw [decimal, List.length_append, long]; rfl, ?_⟩
      rw [decimal, number_append read (Nat.mod_lt n (by decide)), Nat.div_add_mod]

/-- A width the number fills adds no zeros. -/
theorem decimal_eq_toDigits (width : ℕ) {n : ℕ} (fills : 10 ^ width ≤ n) :
    decimal (width + 1) n = Nat.toDigits 10 n := by
  induction width generalizing n with
  | zero =>
      rw [decimal, decimal]
      by_cases small : n < 10
      · rw [Nat.div_eq_of_lt small, if_pos rfl, Nat.mod_eq_of_lt small,
          Nat.toDigits_of_lt_base small]
        rfl
      · rw [if_neg (by omega), Nat.toDigits_of_base_le (by decide) (Nat.not_lt.mp small)]
  | succ width ih =>
      rw [Nat.pow_succ] at fills
      have some_ : 1 ≤ 10 ^ width := Nat.one_le_pow _ _ (by decide)
      have split : Nat.toDigits 10 n = Nat.toDigits 10 (n / 10) ++ [Nat.digitChar (n % 10)] :=
        Nat.toDigits_of_base_le (by decide) (by omega)
      rw [decimal, ih (by omega), split]

/-- Four digits, two and two are read. -/
theorem readDate_of_toList {text : String} {ys ms ds : List Char} {y m d : ℕ}
    (shape : text.toList = ys ++ '-' :: (ms ++ '-' :: ds))
    (long : ys.length = 4 ∧ ms.length = 2 ∧ ds.length = 2) (year : number ys = some y)
    (month : number ms = some m) (day : number ds = some d) : readDate text = some (y, m, d) := by
  match ys, ms, ds, long with
  | [y₁, y₂, y₃, y₄], [m₁, m₂], [d₁, d₂], _ =>
      unfold readDate
      simp only [shape, List.cons_append, List.nil_append, year, month, day]
      rfl

/-- The text of a year, a month and a day is read back. -/
theorem readDate_iso {y m d : ℕ} (year : y < 10000) (month : m < 100) (day : d < 100) :
    readDate (iso y m d) = some (y, m, d) := by
  obtain ⟨longYear, readYear⟩ := decimal_spec 4 (n := y) year
  obtain ⟨longMonth, readMonth⟩ := decimal_spec 2 (n := m) month
  obtain ⟨longDay, readDay⟩ := decimal_spec 2 (n := d) day
  exact readDate_of_toList String.toList_ofList ⟨longYear, longMonth, longDay⟩ readYear readMonth
    readDay

theorem daysIn_le (month year : ℕ) : daysIn month year ≤ 31 := by
  unfold daysIn
  split_ifs <;> decide

theorem one_le_daysIn (month year : ℕ) : 28 ≤ daysIn month year := by
  unfold daysIn
  split_ifs <;> decide

/-- The next day comes next. -/
theorem civil_next {y m d : ℕ} {n : ℤ} (made : civil y m d = some n) :
    civil (next (y, m, d)).1 (next (y, m, d)).2.1 (next (y, m, d)).2.2 = some (n + 1) := by
  obtain ⟨⟨some_, last, day, within⟩, rfl⟩ := civil_spec made
  have months := daysBeforeMonth_succ y some_
  unfold next
  dsimp only
  split_ifs with inMonth inYear
  · dsimp only
    rw [civil, if_pos ⟨some_, last, by omega, by omega⟩]
    congr 1
    omega
  · dsimp only
    have long := one_le_daysIn (m + 1) y
    rw [civil, if_pos ⟨by omega, by omega, by omega, by omega⟩]
    congr 1
    omega
  · dsimp only
    obtain rfl : m = 12 := by omega
    change daysBeforeMonth 13 y = _ at months
    have long := one_le_daysIn 1 (y + 1)
    have first : daysBeforeMonth 1 (y + 1) = 0 := rfl
    have years := daysBeforeYear_succ y
    rw [civil, if_pos ⟨by omega, by omega, by omega, by omega⟩]
    congr 1
    omega

/-- The day before comes before. -/
theorem civil_prev {y m d : ℕ} {n : ℤ} (made : civil y m d = some n) {date : ℕ × ℕ × ℕ}
    (before : prev (y, m, d) = some date) : civil date.1 date.2.1 date.2.2 = some (n - 1) := by
  obtain ⟨⟨some_, last, day, within⟩, rfl⟩ := civil_spec made
  unfold prev at before
  dsimp only at before
  split_ifs at before with inMonth inYear later
  · cases before
    dsimp only
    rw [civil, if_pos ⟨some_, last, by omega, by omega⟩]
    congr 1
    omega
  · cases before
    dsimp only
    obtain ⟨k, rfl⟩ := Nat.exists_eq_add_of_le' some_
    rw [Nat.add_sub_cancel]
    have months : daysBeforeMonth (k + 1) y = daysBeforeMonth k y + daysIn k y :=
      daysBeforeMonth_succ y (by omega)
    have long := one_le_daysIn k y
    rw [civil, if_pos ⟨by omega, by omega, by omega, by omega⟩]
    congr 1
    omega
  · cases before
    dsimp only
    obtain rfl : m = 1 := by omega
    obtain ⟨x, rfl⟩ := Nat.exists_eq_add_of_le' later
    have first : daysBeforeMonth 1 (x + 1) = 0 := rfl
    have years := daysBeforeYear_succ x
    have december : daysBeforeMonth 13 x = daysBeforeMonth 12 x + 31 :=
      daysBeforeMonth_succ x (by decide)
    rw [Nat.add_sub_cancel, civil, if_pos ⟨by omega, by omega, by omega, le_of_eq rfl⟩]
    congr 1
    omega

/-- The last day with a year of four digits. -/
def lastDay : ℤ := 3652058

/-- A day up to the last one is of a year with four digits. -/
theorem year_lt_of_civil {y m d : ℕ} {n : ℤ} (made : civil y m d = some n) (le : n ≤ lastDay) :
    y < 10000 := by
  by_contra late
  have years := daysBeforeYear_mono (Nat.not_lt.mp late)
  have first : daysBeforeYear 10000 = 3652059 := rfl
  obtain ⟨⟨-, -, day, -⟩, rfl⟩ := civil_spec made
  rw [lastDay] at le
  omega

/-- The text of a day of the calendar is read back as that day. -/
theorem parse_iso {y m d : ℕ} {n : ℤ} (made : civil y m d = some n) (le : n ≤ lastDay) :
    parse (iso y m d) = some n := by
  have year := year_lt_of_civil made le
  have long := daysIn_le m y
  obtain ⟨⟨-, last, -, within⟩, -⟩ := civil_spec made
  rw [parse_eq, readDate_iso year (by omega) (by omega)]
  exact made

/-- A text that is read as a day gives the year, month and day of the calendar. -/
theorem parse_eq_some {text : String} {n : ℤ} (read : parse text = some n) :
    ∃ y m d, ((readDate text).filter fun (y, m, d) => (civil y m d).isSome) = some (y, m, d) ∧
      civil y m d = some n := by
  rw [parse_eq] at read
  obtain ⟨⟨y, m, d⟩, fields, made⟩ := Option.bind_eq_some_iff.mp read
  exact ⟨y, m, d, Option.filter_eq_some_iff.mpr ⟨fields, by simp only [made, Option.isSome_some]⟩,
    made⟩

/-- The text of the day after a day. -/
theorem parse_dayAfter {text : String} {n : ℤ} (read : parse text = some n) (more : n < lastDay) :
    parse (dayAfter text) = some (n + 1) := by
  obtain ⟨y, m, d, fields, made⟩ := parse_eq_some read
  rw [dayAfter, fields]
  exact parse_iso (civil_next made) more

/-- The text of the day before a day. -/
theorem parse_dayBefore {text : String} {n : ℤ} (read : parse text = some n) (more : 0 < n)
    (le : n ≤ lastDay) : parse (dayBefore text) = some (n - 1) := by
  obtain ⟨y, m, d, fields, made⟩ := parse_eq_some read
  rw [dayBefore, fields]
  dsimp only
  cases before : prev (y, m, d) with
  | some date => exact parse_iso (civil_prev made before) (by omega)
  | none =>
      -- Only the first day of the year zero has none before it.
      unfold prev at before
      dsimp only at before
      split_ifs at before with inMonth inYear later
      obtain rfl : y = 0 := by omega
      obtain ⟨⟨some_, -, day, -⟩, rfl⟩ := civil_spec made
      obtain rfl : m = 1 := by omega
      have first : daysBeforeYear 0 = -366 := rfl
      have month : daysBeforeMonth 1 0 = 0 := rfl
      omega

/-! ## The text of a day -/

/-- The date some days after the first of January of the year 1. -/
def dateAt : ℕ → ℕ × ℕ × ℕ
  | 0 => (1, 1, 1)
  | n + 1 => next (dateAt n)

theorem civil_dateAt (n : ℕ) : civil (dateAt n).1 (dateAt n).2.1 (dateAt n).2.2 = some (n : ℤ) := by
  induction n with
  | zero => rfl
  | succ n ih => exact civil_next ih

/-- A day that is not before the year 1 as text. -/
def written (day : ℤ) : String :=
  iso (dateAt day.toNat).1 (dateAt day.toNat).2.1 (dateAt day.toNat).2.2

theorem parse_written {day : ℤ} (some_ : 0 ≤ day) (le : day ≤ lastDay) :
    parse (written day) = some day := by
  have made := civil_dateAt day.toNat
  rw [Int.toNat_of_nonneg some_] at made
  exact parse_iso made le

end Dates
