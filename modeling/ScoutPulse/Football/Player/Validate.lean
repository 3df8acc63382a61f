import Mathlib.Algebra.Order.Ring.Rat
import ScoutPulse.Lib.Outcome
import ScoutPulse.Lib.Strings
import ScoutPulse.Platform.AppErr

/-!
# The fields of a player

What a request that stores a player has to say about them: the rules of `validatePlayer`,
one by one, and together.
-/

namespace ScoutPulse.Players

open Outcome Strings

/-- A point in time, in nanoseconds since the zero time. A date is the midnight it starts
with, in UTC. -/
abbrev Instant := ℤ

/-- `domain.Player`, without the id: a row of `players`. -/
structure Player where
  teamID : Option String
  name : String
  firstName : Option String
  lastName : Option String
  dateOfBirth : Option Instant
  nationalities : List String
  heightCM : Option ℤ
  preferredFoot : Option String
  agent : Option String
  squadNumber : Option ℤ
  position : String
  secondaryPositions : List String
  contractStart : Option Instant
  contractUntil : Option Instant
  marketValue : ℤ
  currency : String
  duelsWonPct : Option ℚ
  passCompletionPct : Option ℚ
  shotsOnTargetPct : Option ℚ
  aerialDuelsWonPct : Option ℚ
  internationalCaps : Option ℤ
  internationalGoals : Option ℤ
  strengths : List String
  weaknesses : List String
  createdAt : Instant
  deriving DecidableEq

def defaultCurrency : String := "EUR"

/-- `ValidFoot`. -/
def validFoot (foot : String) : Bool := foot ∈ ["", "left", "right", "both"]

def maxNationalities : ℕ := 3
def maxSecondaryPositions : ℕ := 6
def maxAssessmentItems : ℕ := 12
def maxAssessmentItemLength : ℕ := 200

/-- `tidyList`. -/
def tidyList (items : List String) : List String := (items.map trimSpace).filter (· ≠ "")

/-- `checkAssessment`. -/
def checkAssessment (field : String) (items : List String) : Except AppErr Unit := do
  if maxAssessmentItems < items.length then
    throw (.invalid s!"at most {maxAssessmentItems} {field}")
  if items.any (maxAssessmentItemLength < runeCount ·) = true then
    throw (.invalid s!"each entry in {field} can be at most {maxAssessmentItemLength} characters")

/-- The loop over the percentages. -/
def checkPcts : List (String × Option ℚ) → Except AppErr Unit
  | [] => return ()
  | (name, value) :: rest => do
      if value.any (fun v => v < 0 ∨ 100 < v) = true then
        throw (.invalid (name ++ " must be between 0 and 100"))
      checkPcts rest

/-- The percentages of a player, under their names. -/
def Player.pcts (p : Player) : List (String × Option ℚ) :=
  [("duels_won_pct", p.duelsWonPct), ("pass_completion_pct", p.passCompletionPct),
    ("shots_on_target_pct", p.shotsOnTargetPct), ("aerial_duels_won_pct", p.aerialDuelsWonPct)]

/-- What `validatePlayer` fills in and cleans up. -/
def Player.tidy (p : Player) : Player :=
  { p with
    currency := if p.currency = "" then defaultCurrency else p.currency
    nationalities := tidyList p.nationalities
    secondaryPositions := tidyList p.secondaryPositions
    strengths := tidyList p.strengths
    weaknesses := tidyList p.weaknesses }

/-- `validatePlayer`: the player as it is stored. -/
def validatePlayer [CaseFolding] (now : Instant) (p : Player) : Except AppErr Player := do
  if p.name = "" then throw (.invalid "name is required")
  if p.position = "" then throw (.invalid "position is required")
  if p.preferredFoot.any (!validFoot ·) = true then
    throw (.invalid "preferred_foot must be one of: left, right, both")
  if p.heightCM.any (fun h => h < 100 ∨ 250 < h) = true then
    throw (.invalid "height_cm must be between 100 and 250")
  if p.squadNumber.any (fun n => n < 1 ∨ 99 < n) = true then
    throw (.invalid "squad_number must be between 1 and 99")
  if p.dateOfBirth.any (now < ·) = true then
    throw (.invalid "date_of_birth cannot be in the future")
  if (p.contractStart.any fun start => p.contractUntil.any (· < start)) = true then
    throw (.invalid "contract_until must be on or after contract_start")
  if p.marketValue < 0 then throw (.invalid "market_value_minor cannot be negative")
  let p := p.tidy
  if maxNationalities < p.nationalities.length then throw (.invalid "at most 3 nationalities")
  if maxSecondaryPositions < p.secondaryPositions.length then
    throw (.invalid "at most 6 secondary positions")
  if p.secondaryPositions.any (equalFold · p.position) = true then
    throw (.invalid "a secondary position cannot repeat the main position")
  checkAssessment "strengths" p.strengths
  checkAssessment "weaknesses" p.weaknesses
  checkPcts p.pcts
  return p

/-! ## The rules -/

/-- `height_cm`. -/
def HeightFits (height : Option ℤ) : Prop := ∀ h ∈ height, 100 ≤ h ∧ h ≤ 250

/-- `date_of_birth`. -/
def BornBefore (now : Instant) (birth : Option Instant) : Prop := ∀ d ∈ birth, d ≤ now

/-- `contract_until`, beside `contract_start`. -/
def EndsAfter (start until_ : Option Instant) : Prop :=
  ∀ s ∈ start, ∀ u ∈ until_, s ≤ u

/-- `secondary_positions`, beside `position`. -/
def Apart [CaseFolding] (position : String) (secondary : List String) : Prop :=
  ∀ s ∈ tidyList secondary, equalFold s position = false

/-- One of the two lists of the assessment. -/
structure Assessed (items : List String) : Prop where
  few : items.length ≤ maxAssessmentItems
  short : ∀ item ∈ items, runeCount item ≤ maxAssessmentItemLength

/-- The rules about the columns that no other column of the player can break. -/
structure Plain (p : Player) : Prop where
  name : p.name ≠ ""
  position : p.position ≠ ""
  foot : ∀ foot ∈ p.preferredFoot, validFoot foot = true
  squad : ∀ n ∈ p.squadNumber, 1 ≤ n ∧ n ≤ 99
  value : 0 ≤ p.marketValue
  nationalities : (tidyList p.nationalities).length ≤ maxNationalities
  secondary : (tidyList p.secondaryPositions).length ≤ maxSecondaryPositions
  strengths : Assessed (tidyList p.strengths)
  weaknesses : Assessed (tidyList p.weaknesses)
  pcts : ∀ pct ∈ p.pcts, ∀ v ∈ pct.2, 0 ≤ v ∧ v ≤ 100

/-- A player `validatePlayer` accepts. -/
structure Valid [CaseFolding] (now : Instant) (p : Player) : Prop where
  plain : Plain p
  height : HeightFits p.heightCM
  birth : BornBefore now p.dateOfBirth
  contract : EndsAfter p.contractStart p.contractUntil
  apart : Apart p.position p.secondaryPositions

/-- Fewer entries leave fewer tidy ones. -/
theorem length_tidyList_le {kept items : List String} (sublist : kept.Sublist items) :
    (tidyList kept).length ≤ (tidyList items).length :=
  ((sublist.map _).filter _).length_le

theorem assessed_nil : Assessed (tidyList []) := ⟨by decide, fun _ member => by cases member⟩

section Spec

theorem not_any_iff {α : Type} {o : Option α} {bad : α → Bool} :
    ¬ o.any bad = true ↔ ∀ a ∈ o, bad a = false := by
  cases o <;> simp

theorem throw_ok_iff {P : Prop} [Decidable P] {e : AppErr} :
    (if P then throw e else pure () : Except AppErr Unit) = .ok () ↔ ¬ P := by
  by_cases met : P
  · simp [met, throw, throwThe, MonadExceptOf.throw]
  · simp [met, pure, Except.pure]

/-- An assessment passes exactly when it is assessed. -/
theorem checkAssessment_ok_iff {field : String} {items : List String} :
    checkAssessment field items = .ok () ↔ Assessed items := by
  rw [checkAssessment, guard_ok_iff, throw_ok_iff]
  constructor
  · rintro ⟨few, short⟩
    refine ⟨Nat.not_lt.mp few, fun item member => ?_⟩
    by_contra long
    refine short (List.any_eq_true.mpr ⟨item, member, ?_⟩)
    simpa using long
  · rintro ⟨few, short⟩
    refine ⟨Nat.not_lt.mpr few, fun long => ?_⟩
    obtain ⟨item, member, long⟩ := List.any_eq_true.mp long
    exact absurd (short item member) (by simpa using long)

/-- Percentages pass exactly when they lie between nought and a hundred. -/
theorem checkPcts_ok_iff {pcts : List (String × Option ℚ)} :
    checkPcts pcts = .ok () ↔ ∀ pct ∈ pcts, ∀ v ∈ pct.2, 0 ≤ v ∧ v ≤ 100 := by
  induction pcts with
  | nil => simp [checkPcts, pure, Except.pure]
  | cons pct rest ih =>
      obtain ⟨name, value⟩ := pct
      rw [checkPcts, guard_ok_iff, not_any_iff, ih, List.forall_mem_cons]
      refine and_congr_left' (forall₂_congr fun v _ => ?_)
      simp

variable [CaseFolding] {now : Instant} {p stored : Player}

/-- A player passes exactly when valid, and is stored tidied: check by check. -/
theorem validatePlayer_ok_iff :
    validatePlayer now p = .ok stored ↔ Valid now p ∧ p.tidy = stored := by
  simp only [validatePlayer, guard_ok_iff, not_any_iff, bind_ok_iff, pure_ok_iff]
  constructor
  · rintro ⟨name, position, foot, height, squad, birth, contract, value, nationalities, secondary,
      apart, _, strengths, _, weaknesses, _, pcts, rfl⟩
    refine ⟨⟨⟨name, position, ?_, ?_, not_lt.mp value, not_lt.mp nationalities,
      not_lt.mp secondary, checkAssessment_ok_iff.mp strengths,
      checkAssessment_ok_iff.mp weaknesses, checkPcts_ok_iff.mp pcts⟩, ?_, ?_, ?_, ?_⟩, rfl⟩
    · intro f member
      simpa using foot f member
    · intro n member
      simpa using squad n member
    · intro h member
      simpa using height h member
    · intro d member
      simpa using birth d member
    · intro start member until_ end_
      have fits := contract start member
      rw [Option.mem_def.mp end_] at fits
      simpa using fits
    · intro s member
      rw [List.any_eq_true] at apart
      rw [← Bool.not_eq_true]
      intro same
      exact apart ⟨s, member, same⟩
  · rintro ⟨⟨⟨name, position, foot, squad, value, nationalities, secondary, strengths, weaknesses,
      pcts⟩, height, birth, contract, apart⟩, rfl⟩
    refine ⟨name, position, ?_, ?_, ?_, ?_, ?_, not_lt.mpr value, not_lt.mpr nationalities,
      not_lt.mpr secondary, ?_, (), checkAssessment_ok_iff.mpr strengths, (),
      checkAssessment_ok_iff.mpr weaknesses, (), checkPcts_ok_iff.mpr pcts, rfl⟩
    · intro f member
      simpa using foot f member
    · intro h member
      simpa using height h member
    · intro n member
      simpa using squad n member
    · intro d member
      simpa using birth d member
    · intro start member
      cases ends : p.contractUntil with
      | none => rfl
      | some until_ => simpa using contract start member until_ ends
    · intro repeats
      obtain ⟨s, member, same⟩ := List.any_eq_true.mp repeats
      exact Bool.false_ne_true ((apart s member).symm.trans same)

end Spec

end ScoutPulse.Players
