import ScoutPulse.Lib.Ranges
import ScoutPulse.Football.Importer.Transfers

/-!
# The seasons of an import

A season is made for each year of the range that has none on 15 August, from 1 July to
30 June, drawn in where its neighbours reach into that. The table takes no two seasons that
overlap and none that does not end after it starts.
-/

namespace ScoutPulse.Importer

open Ranges

/-- A row of `seasons`, its dates in days since the zero time. -/
structure SeasonRow where
  id : String
  label : String
  startDate : ℤ
  endDate : ℤ
  deriving DecidableEq

/-- What keeps a season from being inserted. -/
inductive Refusal
  /-- A value that its column cannot hold. -/
  | value
  /-- `seasons_dates_ordered`. -/
  | ordered
  /-- `seasons_no_overlap`. -/
  | overlap
  deriving DecidableEq

/-- The days of a season. -/
def SeasonRow.range (r : SeasonRow) : Range := ⟨r.startDate, r.endDate⟩

/-- `%d`, of a year. -/
def yearText (year : ℤ) : List Char :=
  if year < 0 then '-' :: Dates.decimal 1 year.natAbs else Dates.decimal 1 year.natAbs

/-- A day of a year, as `fmt.Sprintf` writes it. -/
def dayOf (year : ℤ) (monthAndDay : String) : String :=
  String.ofList (yearText year ++ '-' :: monthAndDay.toList)

/-- The middle of August, inside every season however its edges are drawn. -/
def august (year : ℤ) : String := dayOf year "08-15"

/-- `seasonLabel`. -/
def seasonLabel (start : ℤ) : String :=
  let next := (start + 1).tmod 100
  String.ofList (yearText start ++ '/' ::
    if next < 0 then '-' :: Dates.decimal 1 next.natAbs else Dates.decimal 2 next.natAbs)

section Seasons

variable [Postgres]

/-- `loadSeasons`. -/
def loadSeasons (rows : List SeasonRow) : List Season :=
  (rows.insertionSort (·.startDate ≤ ·.startDate)).map fun r =>
    ⟨r.id, Postgres.dayText r.startDate, Postgres.dayText r.endDate⟩

/-- Draw the edges of a year's season in by one that does not contain its August. -/
def shrink (year : ℤ) (edges : String × String) (s : Season) : String × String :=
  (if edges.1 ≤ s.endDate ∧ s.endDate < august year then Dates.dayAfter s.endDate else edges.1,
    if s.startDate ≤ edges.2 ∧ august year < s.startDate then Dates.dayBefore s.startDate
    else edges.2)

/-- `INSERT INTO seasons … ON CONFLICT (label) DO NOTHING`. -/
def insertSeason (id : String) (rows : List SeasonRow) (label start finish : String) :
    Except Refusal (List SeasonRow) :=
  match Postgres.toDay start, Postgres.toDay finish with
  | some first, some last =>
      let new : SeasonRow := ⟨id, label, first, last⟩
      if 20 < label.length then .error .value
      else if new.endDate ≤ new.startDate then .error .ordered
      else if rows.any (·.label = label) then .ok rows
      else if rows.any fun r => new.startDate ≤ r.endDate && r.startDate ≤ new.endDate then
        .error .overlap
      else .ok (rows ++ [new])
  | _, _ => .error .value

/-- The loop's body. -/
def seasonStep (newString : ℕ → String) (s : Merge × List SeasonRow) (year : ℤ) :
    Except Refusal (Merge × List SeasonRow) :=
  let (m, rows) := s
  if (m.seasonOn (august year)).isSome then .ok s
  else
    let (start, finish) :=
      m.seasons.foldl (shrink year) (dayOf year "07-01", dayOf (year + 1) "06-30")
    (insertSeason (newString rows.length) rows (seasonLabel year) start finish).map fun rows =>
      ({ m with
          report := { m.report with seasonsCreated := m.report.seasonsCreated + 1 }
          seasons := loadSeasons rows }, rows)

/-- `year := m.scope.FirstSeason; year <= m.d.LatestSeason; year++`. -/
def yearsOf (m : Merge) : List ℤ :=
  (List.range (m.d.latestSeason + 1 - m.scope.firstSeason).toNat).map fun k : ℕ =>
    m.scope.firstSeason + k

/-- `importSeasons`. -/
def importSeasons (newString : ℕ → String) (m : Merge) (rows : List SeasonRow) :
    Except Refusal (Merge × List SeasonRow) :=
  (yearsOf m).foldlM (seasonStep newString) ({ m with seasons := loadSeasons rows }, rows)

end Seasons

/-! ## The days of a year -/

section Days

variable {year : ℤ}

/-- The first day of a season and the last are days of the calendar. -/
theorem parse_dayOf (some_ : 1000 ≤ year) (four : year ≤ 9999) {monthAndDay : String}
    (ms ds : List Char) {m d : ℕ} (shape : monthAndDay.toList = ms ++ '-' :: ds)
    (long : ms.length = 2 ∧ ds.length = 2) (month : Dates.number ms = some m)
    (day : Dates.number ds = some d) :
    Dates.parse (dayOf year monthAndDay) = Dates.civil year.natAbs m d := by
  have digits : yearText year = Dates.decimal 4 year.natAbs := by
    rw [yearText, if_neg (by omega), Dates.decimal_eq_toDigits 0 (by omega),
      Dates.decimal_eq_toDigits 3 (by omega)]
  obtain ⟨longYear, readYear⟩ := Dates.decimal_spec 4 (n := year.natAbs) (by omega)
  have text : (dayOf year monthAndDay).toList =
      Dates.decimal 4 year.natAbs ++ '-' :: (ms ++ '-' :: ds) := by
    rw [dayOf, String.toList_ofList, digits, shape]
  rw [Dates.parse_eq, Dates.readDate_of_toList text ⟨longYear, long⟩ readYear month day]
  rfl

/-- The first day of a year's season, the middle of its August, and its last day. -/
structure SeasonDays (year first middle last : ℤ) : Prop where
  starts : Dates.parse (dayOf year "07-01") = some first
  august : Dates.parse (august year) = some middle
  ends : Dates.parse (dayOf (year + 1) "06-30") = some last
  ordered : first < middle ∧ middle < last
  bounds : 0 ≤ first ∧ last ≤ Dates.lastDay

theorem exists_civil (y : ℕ) {m d : ℕ} (month : 1 ≤ m ∧ m ≤ 12) (day : 1 ≤ d ∧ d ≤ 28) :
    ∃ n, Dates.civil y m d = some n := by
  have long := Dates.one_le_daysIn m y
  exact ⟨_, if_pos ⟨month.1, month.2, day.1, by omega⟩⟩

theorem exists_june (y : ℕ) : ∃ n, Dates.civil y 6 30 = some n :=
  ⟨_, if_pos ⟨by decide, by decide, by decide, le_of_eq rfl⟩⟩

/-- Every year has its days of a season. -/
theorem exists_seasonDays (some_ : 1000 ≤ year) (four : year ≤ 9998) :
    ∃ first middle last, SeasonDays year first middle last := by
  obtain ⟨first, july⟩ := exists_civil year.natAbs (m := 7) (d := 1) (by decide) (by decide)
  obtain ⟨middle, august_⟩ := exists_civil year.natAbs (m := 8) (d := 15) (by decide) (by decide)
  obtain ⟨last, june⟩ := exists_june (year + 1).natAbs
  refine ⟨first, middle, last, ?_, ?_, ?_, ⟨?_, ?_⟩, ?_, ?_⟩
  · rw [parse_dayOf some_ (by omega) ['0', '7'] ['0', '1'] rfl ⟨rfl, rfl⟩ rfl rfl]
    exact july
  · rw [august, parse_dayOf some_ (by omega) ['0', '8'] ['1', '5'] rfl ⟨rfl, rfl⟩ rfl rfl]
    exact august_
  · rw [parse_dayOf (by omega) (by omega) ['0', '6'] ['3', '0'] rfl ⟨rfl, rfl⟩ rfl rfl]
    exact june
  · exact Dates.civil_lt july august_ (.inr ⟨rfl, .inl (by decide)⟩)
  · exact Dates.civil_lt august_ june (.inl (by omega))
  · have years : Dates.daysBeforeYear 1 ≤ Dates.daysBeforeYear year.natAbs :=
      Dates.daysBeforeYear_mono (by omega)
    have zero : Dates.daysBeforeYear 1 = 0 := rfl
    obtain ⟨-, rfl⟩ := Dates.civil_spec july
    omega
  · have final : Dates.civil 9999 12 31 = some Dates.lastDay := by decide
    refine (Dates.civil_lt june final ?_).le
    rcases (show (year + 1).natAbs ≤ 9999 by omega).lt_or_eq with before | same
    · exact .inl before
    · exact .inr ⟨same, .inl (by decide)⟩

end Days
/-! ## What one year does -/

/-- How Postgres casts dates of four-digit years. -/
structure IsoDates [Postgres] : Prop where
  toText : ∀ n, 0 ≤ n → n ≤ Dates.lastDay → Dates.parse (Postgres.dayText n) = some n
  toDay : ∀ text n, Dates.parse text = some n → 0 ≤ n → Postgres.toDay text = some n

/-- Seasons as the constraints of the table have them: each ends after it starts, and no two
share a day. -/
structure Calendar (rows : List SeasonRow) : Prop where
  ordered : ∀ r ∈ rows, r.startDate < r.endDate
  disjoint : rows.Pairwise fun r s => r.range.Apart s.range

/-- Seasons in years of four digits. -/
def Dated (rows : List SeasonRow) : Prop :=
  ∀ r ∈ rows, 0 ≤ r.startDate ∧ r.endDate ≤ Dates.lastDay

instance (rows : List SeasonRow) : Decidable (Dated rows) :=
  inferInstanceAs (Decidable (∀ r ∈ rows, 0 ≤ r.startDate ∧ r.endDate ≤ Dates.lastDay))

instance : Std.Symm fun r s : SeasonRow => r.range.Apart s.range := ⟨fun _ _ => Or.symm⟩

/-- Two seasons leave one day alone between them. -/
def Gap (rows : List SeasonRow) (day : ℤ) : Prop :=
  (∃ r ∈ rows, r.endDate = day - 1) ∧ ∃ r ∈ rows, r.startDate = day + 1

section Step

variable [Postgres] {m : Merge} {rows : List SeasonRow} {year first middle last : ℤ}

/-- A season as text, and its days. -/
structure Reads (s : Season) (r : Range) : Prop where
  startDate : Dates.parse s.startDate = some r.first
  endDate : Dates.parse s.endDate = some r.last
  bounds : 0 ≤ r.first ∧ r.first ≤ r.last ∧ r.last ≤ Dates.lastDay

omit [Postgres] in
/-- Drawing edges in as text draws in the days. -/
theorem parse_shrink (days : SeasonDays year first middle last) {edges : String × String}
    {r : Range} (start : Dates.parse edges.1 = some r.first)
    (finish : Dates.parse edges.2 = some r.last) {s : Season} {t : Range} (reads : Reads s t) :
    Dates.parse (shrink year edges s).1 = some (r.drawIn middle t).first ∧
      Dates.parse (shrink year edges s).2 = some (r.drawIn middle t).last := by
  obtain ⟨startDate, endDate, low, wide, high⟩ := reads
  have bounds := days.bounds
  have ordered := days.ordered
  constructor
  · unfold shrink Range.drawIn
    simp only [Dates.parse_le_iff start endDate, Dates.parse_lt_iff endDate days.august]
    split_ifs with early
    · exact Dates.parse_dayAfter endDate (by omega)
    · exact start
  · unfold shrink Range.drawIn
    simp only [Dates.parse_le_iff startDate finish, Dates.parse_lt_iff days.august startDate]
    split_ifs with late
    · exact Dates.parse_dayBefore startDate (by omega) (by omega)
    · exact finish

omit [Postgres] in
/-- Shrinking the days of a season shrinks its range. -/
theorem parse_shrink_foldl (days : SeasonDays year first middle last) {seasons : List Season}
    {ranges : List Range} (reads : List.Forall₂ Reads seasons ranges) (edges : String × String)
    {r : Range} (start : Dates.parse edges.1 = some r.first)
    (finish : Dates.parse edges.2 = some r.last) :
    Dates.parse (seasons.foldl (shrink year) edges).1 = some (Range.fit middle r ranges).first ∧
      Dates.parse (seasons.foldl (shrink year) edges).2 =
        some (Range.fit middle r ranges).last := by
  induction reads generalizing edges r with
  | nil => exact ⟨start, finish⟩
  | cons read reads ih =>
      obtain ⟨start', finish'⟩ := parse_shrink days start finish read
      exact ih _ start' finish'

/-- The seasons as they are loaded, and their days. -/
theorem reads_loadSeasons (iso : IsoDates) (calendar : Calendar rows) (dated : Dated rows) :
    ∃ ranges, List.Forall₂ Reads (loadSeasons rows) ranges ∧
      ∀ range, range ∈ ranges ↔ ∃ r ∈ rows, r.range = range := by
  refine ⟨(rows.insertionSort (·.startDate ≤ ·.startDate)).map (·.range), ?_, fun range => ?_⟩
  · unfold loadSeasons
    rw [List.forall₂_map_left_iff, List.forall₂_map_right_iff, List.forall₂_same]
    intro r sorted
    have member := (List.perm_insertionSort _ rows).mem_iff.mp sorted
    obtain ⟨low, high⟩ := dated r member
    have wide := calendar.ordered r member
    exact ⟨iso.toText _ low (by omega), iso.toText _ (by omega) high, low, wide.le, high⟩
  · rw [List.mem_map]
    exact exists_congr fun r => and_congr_left' (List.perm_insertionSort _ rows).mem_iff

/-- A season contains the middle of August exactly when one is found for it. -/
theorem seasonOn_isSome_iff (iso : IsoDates) (calendar : Calendar rows) (dated : Dated rows)
    (loaded : m.seasons = loadSeasons rows) (days : SeasonDays year first middle last) :
    (m.seasonOn (august year)).isSome = true ↔ ∃ r ∈ rows, r.range.Contains middle := by
  unfold Merge.seasonOn
  rw [Option.isSome_map, List.find?_isSome, loaded]
  unfold loadSeasons
  constructor
  · rintro ⟨s, listed, around⟩
    obtain ⟨r, sorted, rfl⟩ := List.mem_map.mp listed
    have member := (List.perm_insertionSort _ rows).mem_iff.mp sorted
    obtain ⟨low, high⟩ := dated r member
    have wide := calendar.ordered r member
    rw [Bool.and_eq_true, decide_eq_true_iff, decide_eq_true_iff,
      Dates.parse_le_iff (iso.toText _ low (by omega)) days.august,
      Dates.parse_le_iff days.august (iso.toText _ (by omega) high)] at around
    exact ⟨r, member, around⟩
  · rintro ⟨r, member, around⟩
    obtain ⟨low, high⟩ := dated r member
    have wide := calendar.ordered r member
    refine ⟨_, List.mem_map.mpr ⟨r, (List.perm_insertionSort _ rows).mem_iff.mpr member, rfl⟩, ?_⟩
    rw [Bool.and_eq_true, decide_eq_true_iff, decide_eq_true_iff,
      Dates.parse_le_iff (iso.toText _ low (by omega)) days.august,
      Dates.parse_le_iff days.august (iso.toText _ (by omega) high)]
    exact around

omit [Postgres] in
/-- A season around a day leaves no room for a gap there. -/
theorem not_gap_of_contains (calendar : Calendar rows) {t : SeasonRow} (member : t ∈ rows)
    (contains : t.range.Contains middle) : ¬ Gap rows middle := by
  rintro ⟨⟨r, before, ends⟩, s, after, starts⟩
  have wide := calendar.ordered t member
  have wide' := calendar.ordered r before
  have wide'' := calendar.ordered s after
  obtain ⟨low, high⟩ := contains
  simp only [SeasonRow.range] at low high
  have apart : t.range.Apart r.range := by
    refine calendar.disjoint.forall member before ?_
    rintro rfl
    omega
  have apart' : t.range.Apart s.range := by
    refine calendar.disjoint.forall member after ?_
    rintro rfl
    omega
  simp only [Range.Apart, SeasonRow.range] at apart apart'
  omega

omit [Postgres] in
/-- The label of a year of four digits fits its column. -/
theorem length_seasonLabel (some_ : 1000 ≤ year) (four : year ≤ 9998) :
    (seasonLabel year).length = 7 := by
  have long : (yearText year).length = 4 := by
    rw [yearText, if_neg (by omega), Dates.decimal_eq_toDigits 0 (by omega),
      ← Dates.decimal_eq_toDigits 3 (by omega)]
    exact (Dates.decimal_spec 4 (by omega)).1
  have mod : (year + 1).tmod 100 = (year + 1) % 100 := Int.tmod_eq_emod_of_nonneg (by omega)
  have short : (Dates.decimal 2 ((year + 1) % 100).natAbs).length = 2 :=
    (Dates.decimal_spec 2 (by omega)).1
  unfold seasonLabel
  dsimp only
  rw [mod, if_neg (by omega), String.length_ofList, List.length_append, List.length_cons, long,
    short]

/-- What the season of a year becomes: fitted between its neighbours. -/
structure NewSeason (rows : List SeasonRow) (year first middle last : ℤ) (r : SeasonRow) :
    Prop where
  label : r.label = seasonLabel year
  contains : r.range.Contains middle
  within : first ≤ r.startDate ∧ r.endDate ≤ last
  ordered : r.startDate < r.endDate
  apart : ∀ s ∈ rows, s.range.Apart r.range

/-- What one year does: nothing, where a season contains its August; where two seasons leave
only the fifteenth between them it fails; and otherwise there is a season for it, unless one
has its label. -/
inductive YearOutcome (m : Merge) (rows : List SeasonRow) (year first middle last : ℤ) :
    Except Refusal (Merge × List SeasonRow) → Prop
  | found {r : SeasonRow} (member : r ∈ rows) (contains : r.range.Contains middle) :
      YearOutcome m rows year first middle last (.ok (m, rows))
  | refused (gap : Gap rows middle) : YearOutcome m rows year first middle last (.error .ordered)
  | labelled {m' : Merge} (noGap : ¬ Gap rows middle) (loaded : m'.seasons = loadSeasons rows) :
      YearOutcome m rows year first middle last (.ok (m', rows))
  | created {m' : Merge} {r : SeasonRow} (noGap : ¬ Gap rows middle)
      (new : NewSeason rows year first middle last r)
      (loaded : m'.seasons = loadSeasons (rows ++ [r])) :
      YearOutcome m rows year first middle last (.ok (m', rows ++ [r]))

/-- A year finds its season in the calendar, or makes one that fits in. -/
theorem yearOutcome (iso : IsoDates) (calendar : Calendar rows) (dated : Dated rows)
    (loaded : m.seasons = loadSeasons rows) (days : SeasonDays year first middle last)
    (some_ : 1000 ≤ year) (four : year ≤ 9998) (newString : ℕ → String) :
    YearOutcome m rows year first middle last (seasonStep newString (m, rows) year) := by
  unfold seasonStep
  dsimp only
  split_ifs with found
  · obtain ⟨r, member, contains⟩ :=
      (seasonOn_isSome_iff iso calendar dated loaded days).mp found
    exact .found member contains
  · rw [seasonOn_isSome_iff iso calendar dated loaded days] at found
    obtain ⟨ranges, reads, listed⟩ := reads_loadSeasons iso calendar dated
    have fits := Range.fits_fit (r := ⟨first, last⟩) ⟨days.ordered.1.le, days.ordered.2.le⟩ ranges
    obtain ⟨start, finish⟩ := parse_shrink_foldl days reads
      (dayOf year "07-01", dayOf (year + 1) "06-30") (r := ⟨first, last⟩) days.starts days.ends
    rw [loaded]
    generalize (loadSeasons rows).foldl (shrink year) _ = edges at start finish ⊢
    generalize Range.fit middle ⟨first, last⟩ ranges = fitted at start finish fits
    obtain ⟨low, high⟩ := edges
    have gap : fitted.first < fitted.last ↔ ¬ Gap rows middle := by
      rw [fits.first_lt_last_iff days.ordered]
      simp only [Gap, listed, exists_exists_and_eq_and, SeasonRow.range]
    have free : ∀ s ∈ ranges, s.last < middle ∨ middle < s.first := by
      intro s member
      obtain ⟨r, row, rfl⟩ := (listed s).mp member
      by_contra around
      rw [not_or, not_lt, not_lt] at around
      exact found ⟨r, row, around.2, around.1⟩
    have apart := fits.apart free
    obtain ⟨contains, within, -, -, -, -⟩ := fits
    obtain ⟨before, after⟩ := contains
    have bounds := days.bounds
    have ordered := days.ordered
    dsimp only at within ⊢
    unfold insertSeason
    rw [iso.toDay _ _ start (by omega), iso.toDay _ _ finish (by omega)]
    dsimp only
    rw [length_seasonLabel some_ four, if_neg (by decide)]
    by_cases wide : fitted.first < fitted.last
    · rw [if_neg (not_le.mpr wide)]
      split_ifs with labelled overlaps
      · exact .labelled (gap.mp wide) rfl
      · obtain ⟨r, member, meets⟩ := List.any_eq_true.mp overlaps
        rw [Bool.and_eq_true, decide_eq_true_iff, decide_eq_true_iff] at meets
        have away := apart r.range ((listed _).mpr ⟨r, member, rfl⟩)
        simp only [Range.Apart, SeasonRow.range] at away
        omega
      · refine .created (gap.mp wide) ⟨rfl, ⟨before, after⟩, within, wide, fun s member => ?_⟩ rfl
        exact (apart s.range ((listed _).mpr ⟨s, member, rfl⟩)).symm
    · rw [if_pos (not_lt.mp wide)]
      exact .refused (not_not.mp (mt gap.mpr wide))

end Step

/-! ## What the range of years does -/

section Run

variable {m : Merge} {rows rows' : List SeasonRow} {year first middle last : ℤ}

/-- A year's season is over before the next year's begins. -/
theorem SeasonDays.last_lt {year' first' middle' last' : ℤ}
    (days : SeasonDays year first middle last) (days' : SeasonDays year' first' middle' last')
    (some_ : 1000 ≤ year) (four : year' ≤ 9998) (later : year < year') : last < first' := by
  have june := days.ends
  have july := days'.starts
  rw [parse_dayOf (by omega) (by omega) ['0', '6'] ['3', '0'] rfl ⟨rfl, rfl⟩ rfl rfl] at june
  rw [parse_dayOf (by omega) (by omega) ['0', '7'] ['0', '1'] rfl ⟨rfl, rfl⟩ rfl rfl] at july
  refine Dates.civil_lt june july ?_
  rcases (show (year + 1).natAbs ≤ year'.natAbs by omega).lt_or_eq with before | same
  · exact .inl before
  · exact .inr ⟨same, .inl (by decide)⟩

/-- A new season leaves the calendar in order. -/
theorem Calendar.create (calendar : Calendar rows) {r : SeasonRow}
    (new : NewSeason rows year first middle last r) : Calendar (rows ++ [r]) where
  ordered := by
    intro s member
    rcases List.mem_append.mp member with before | last
    · exact calendar.ordered s before
    · rw [List.mem_singleton.mp last]
      exact new.ordered
  disjoint := by
    refine List.pairwise_append.mpr ⟨calendar.disjoint, List.pairwise_singleton _ _, ?_⟩
    intro s member u last
    rw [List.mem_singleton.mp last]
    exact new.apart s member

/-- A new season is dated. -/
theorem Dated.create (dated : Dated rows) {r : SeasonRow}
    (days : SeasonDays year first middle last) (new : NewSeason rows year first middle last r) :
    Dated (rows ++ [r]) := by
  intro s member
  rcases List.mem_append.mp member with before | last
  · exact dated s before
  · rw [List.mem_singleton.mp last]
    have bounds := days.bounds
    have within := new.within
    omega

/-- A new season leaves the gaps of later years as they were. -/
theorem gap_create_iff {year' first' middle' last' : ℤ} {r : SeasonRow}
    (days : SeasonDays year first middle last) (days' : SeasonDays year' first' middle' last')
    (some_ : 1000 ≤ year) (four : year' ≤ 9998) (later : year < year')
    (new : NewSeason rows year first middle last r) :
    Gap (rows ++ [r]) middle' ↔ Gap rows middle' := by
  have before := days.last_lt days' some_ four later
  have ordered := days'.ordered
  have within := new.within
  have wide := new.ordered
  unfold Gap
  simp only [List.mem_append, List.mem_singleton, or_and_right, exists_or, exists_eq_left]
  constructor
  · rintro (⟨ends, starts | starts⟩ | ⟨ends, -⟩)
    · exact ⟨ends, starts⟩
    · omega
    · omega
  · rintro ⟨ends, starts⟩
    exact .inl ⟨ends, .inl starts⟩

/-- What an import makes of the seasons: those that were there stay, each new one contains the
15 August of its year, and the constraints of the table hold. -/
structure SeasonsMade (years : List ℤ) (rows rows' : List SeasonRow) : Prop where
  calendar : Calendar rows'
  kept : ∀ r ∈ rows, r ∈ rows'
  made : ∀ r ∈ rows', r ∈ rows ∨ ∃ year ∈ years, ∃ day, r.label = seasonLabel year ∧
    Dates.parse (august year) = some day ∧ r.range.Contains day

theorem SeasonsMade.cons {years : List ℤ} (made : SeasonsMade years rows rows') (year : ℤ) :
    SeasonsMade (year :: years) rows rows' where
  calendar := made.calendar
  kept := made.kept
  made := fun r member => (made.made r member).imp_right fun ⟨year', later, day, new⟩ =>
    ⟨year', List.mem_cons_of_mem year later, day, new⟩

variable [Postgres]

/-- The range of years goes through exactly when no year of it meets a gap, and then the
seasons are as they should be. -/
theorem foldlM_seasonStep (iso : IsoDates) (newString : ℕ → String) {years : List ℤ}
    (increasing : years.Pairwise (· < ·)) (four : ∀ year ∈ years, 1000 ≤ year ∧ year ≤ 9998)
    (loaded : m.seasons = loadSeasons rows) (calendar : Calendar rows) (dated : Dated rows) :
    (∀ s, years.foldlM (seasonStep newString) (m, rows) = .ok s → SeasonsMade years rows s.2) ∧
      ((∃ s, years.foldlM (seasonStep newString) (m, rows) = .ok s) ↔
        ∀ year ∈ years, ∀ day, Dates.parse (august year) = some day → ¬ Gap rows day) := by
  induction years generalizing m rows with
  | nil =>
      refine ⟨fun s done => ?_, iff_of_true ⟨(m, rows), rfl⟩ ?_⟩
      · cases done
        exact ⟨calendar, fun r => id, fun r => .inl⟩
      · exact fun year member => (List.not_mem_nil member).elim
  | cons year years ih =>
      obtain ⟨later, increasing⟩ := List.pairwise_cons.mp increasing
      obtain ⟨some_, four_⟩ := four year List.mem_cons_self
      obtain ⟨first, middle, last, days⟩ := exists_seasonDays some_ four_
      have outcome := yearOutcome iso calendar dated loaded days some_ four_ newString
      have rest := fun year' member => four year' (List.mem_cons_of_mem year member)
      have here : (∀ day, Dates.parse (august year) = some day → ¬ Gap rows day) ↔
          ¬ Gap rows middle := by
        rw [days.august]
        simp only [Option.some.injEq, forall_eq']
      rw [List.forall_mem_cons, here, List.foldlM_cons]
      generalize seasonStep newString (m, rows) year = result at outcome ⊢
      cases outcome with
      | found member contains =>
          obtain ⟨made, done⟩ := ih increasing rest loaded calendar dated
          refine ⟨fun s run => (made s run).cons year, done.trans ?_⟩
          exact (and_iff_right (not_gap_of_contains calendar member contains)).symm
      | refused gap =>
          refine ⟨fun s failed => ?_, iff_of_false ?_ fun none_ => none_.1 gap⟩
          · cases failed
          · rintro ⟨s, failed⟩
            cases failed
      | labelled noGap loaded' =>
          obtain ⟨made, done⟩ := ih increasing rest loaded' calendar dated
          exact ⟨fun s run => (made s run).cons year, done.trans (and_iff_right noGap).symm⟩
      | created noGap new loaded' =>
          obtain ⟨made, done⟩ :=
            ih increasing rest loaded' (calendar.create new) (dated.create days new)
          refine ⟨fun s run => ?_, done.trans ?_⟩
          · obtain ⟨calendar', kept, all⟩ := made s run
            refine ⟨calendar', fun r member => kept r (List.mem_append_left _ member), ?_⟩
            intro r member
            rcases all r member with before | ⟨year', later', day, isNew⟩
            · rcases List.mem_append.mp before with old | created
              · exact .inl old
              · obtain rfl := List.mem_singleton.mp created
                exact .inr ⟨year, List.mem_cons_self, middle, new.label, days.august, new.contains⟩
            · exact .inr ⟨year', List.mem_cons_of_mem year later', day, isNew⟩
          · rw [and_iff_right noGap]
            refine forall₂_congr fun year' member => ?_
            obtain ⟨_, middle', _, days'⟩ := exists_seasonDays (rest year' member).1
              (rest year' member).2
            rw [days'.august]
            simp only [Option.some.injEq, forall_eq']
            exact not_congr (gap_create_iff days days' some_ (rest year' member).2
              (later year' member) new)

/-- **The calendar.** For years of four digits the import of the seasons goes through, and
leaves the calendar in order, exactly when no two seasons that were there leave the 15 August
of a year of the range alone between them. -/
theorem importSeasons_iff (iso : IsoDates) (newString : ℕ → String)
    (calendar : Calendar rows) (dated : Dated rows)
    (four : 1000 ≤ m.scope.firstSeason ∧ m.d.latestSeason ≤ 9998) :
    (∃ s, importSeasons newString m rows = .ok s ∧ SeasonsMade (yearsOf m) rows s.2) ↔
      ∀ year, m.scope.firstSeason ≤ year → year ≤ m.d.latestSeason →
        ∀ day, Dates.parse (august year) = some day → ¬ Gap rows day := by
  have members : ∀ year, year ∈ yearsOf m ↔
      m.scope.firstSeason ≤ year ∧ year ≤ m.d.latestSeason := by
    intro year
    unfold yearsOf
    rw [List.mem_map]
    constructor
    · rintro ⟨k, member, rfl⟩
      have within := List.mem_range.mp member
      omega
    · rintro ⟨low, high⟩
      exact ⟨(year - m.scope.firstSeason).toNat, List.mem_range.mpr (by omega), by omega⟩
  have increasing : (yearsOf m).Pairwise (· < ·) := by
    unfold yearsOf
    rw [List.pairwise_map]
    exact List.pairwise_lt_range.imp fun before => by omega
  have within : ∀ year ∈ yearsOf m, 1000 ≤ year ∧ year ≤ 9998 := by
    intro year member
    obtain ⟨low, high⟩ := (members year).mp member
    omega
  obtain ⟨made, done⟩ := foldlM_seasonStep (m := { m with seasons := loadSeasons rows }) iso
    newString increasing within rfl calendar dated
  constructor
  · rintro ⟨s, run, -⟩ year low high
    exact done.mp ⟨s, run⟩ year ((members year).mpr ⟨low, high⟩)
  · intro noGap
    obtain ⟨s, run⟩ := done.mpr fun year member =>
      noGap year ((members year).mp member).1 ((members year).mp member).2
    exact ⟨s, run, made s run⟩

end Run

section Odd

/-- Dates as Postgres writes and reads them. -/
@[reducible]
def isoCasts : Postgres where
  toDay := Dates.parse
  dayText := Dates.written

theorem isoDates_isoCasts : @IsoDates isoCasts :=
  @IsoDates.mk isoCasts (fun _ => Dates.parse_written) (fun _ _ read _ => read)

/-- An import of the season of 2020. -/
def season2020 : Merge where
  d :=
    { clubs := ∅
      players := []
      transfers := ∅
      valuations := []
      latestSeason := 2020 }
  scope := ⟨["ES1"], 2020⟩
  report := {}
  refs := ∅
  newRefs := []
  comps := ∅
  seasons := []
  clubs := ∅
  players := ∅
  matched := []
  drawn := 0

def seasonID (n : ℕ) : String := String.ofList ("season-".toList ++ Dates.decimal 1 n)

/-- A season up to 14 August 2020. -/
def longSeason : SeasonRow := ⟨"season-a", "2019/20", 737271, 737650⟩

/-- A season from 16 August 2020. -/
def lateSeason : SeasonRow := ⟨"season-b", "2020/21 A", 737652, 737940⟩

/-- Beside the long season alone a season is made. -/
theorem importSeasons_iff_longSeason :
    let _ := isoCasts
    ∃ s, importSeasons seasonID season2020 [longSeason] = .ok s ∧
      SeasonsMade (yearsOf season2020) [longSeason] s.2 := by
  intro _
  refine (importSeasons_iff isoDates_isoCasts seasonID ⟨by decide, by simp⟩ (by decide)
    (by decide)).mpr fun year low high day read => ?_
  rintro ⟨-, r, member, starts⟩
  obtain rfl : year = 2020 := le_antisymm high low
  have august_ : Dates.parse (august 2020) = some 737651 := by decide +kernel
  rw [august_] at read
  cases read
  rw [List.mem_singleton.mp member] at starts
  exact absurd starts (by decide)

/-- Between both seasons only 15 August is left, a season of one day, which the table refuses;
the import fails. -/
theorem importSeasons_refused :
    let _ := isoCasts
    Calendar [longSeason, lateSeason] ∧
      importSeasons seasonID season2020 [longSeason, lateSeason] = .error .ordered := by
  intro _
  have calendar : Calendar [longSeason, lateSeason] :=
    ⟨by decide, by simp [Range.Apart, SeasonRow.range, longSeason, lateSeason]⟩
  refine ⟨calendar, ?_⟩
  have gap : Gap [longSeason, lateSeason] 737651 :=
    ⟨⟨longSeason, by decide, rfl⟩, lateSeason, by decide, rfl⟩
  have august_ : Dates.parse (august 2020) = some 737651 := by decide +kernel
  obtain ⟨first, middle, last, days⟩ :=
    exists_seasonDays (show (1000 : ℤ) ≤ 2020 by decide) (by decide)
  obtain rfl : middle = 737651 := Option.some.inj (days.august.symm.trans august_)
  have outcome := yearOutcome (m := { season2020 with
    seasons := loadSeasons [longSeason, lateSeason] }) isoDates_isoCasts calendar (by decide) rfl
    days (by decide) (by decide) seasonID
  have years : yearsOf season2020 = [2020] := by decide
  rw [importSeasons, years, List.foldlM_cons]
  generalize seasonStep seasonID _ 2020 = result at outcome ⊢
  cases outcome with
  | found member contains => exact absurd gap (not_gap_of_contains calendar member contains)
  | refused => rfl
  | labelled noGap => exact absurd gap noGap
  | created noGap => exact absurd gap noGap

end Odd

end ScoutPulse.Importer
