import Mathlib.Data.List.AList
import Mathlib.Data.List.Sort
import Mathlib.Logic.Function.Basic

/-!
# The dataset

What an import reads of its source. A Go map is an association list without repeated
keys; the order of its entries carries no meaning.
-/

namespace ScoutPulse.Importer

/-- A Go map from strings. -/
abbrev GoMap (α : Type) := AList fun _ : String => α

/-- `Club`, by its id. -/
structure Club where
  name : String
  /-- The id of the domestic competition. -/
  league : String
  stadium : String
  lastSeason : ℤ
  deriving DecidableEq

/-- `Player`: a player as the source has it. -/
structure Player where
  id : String
  name : String
  firstName : String
  lastName : String
  citizenship : String
  /-- `YYYY-MM-DD` or empty. -/
  dateOfBirth : String
  position : String
  subPosition : String
  foot : String
  heightCM : Int64
  /-- `YYYY-MM-DD` or empty. -/
  contractUntil : String
  agent : String
  clubID : String
  marketValueEUR : Int64
  internationalCaps : Option Int64
  internationalGoals : Option Int64
  deriving DecidableEq

/-- `Valuation`: one market value point. -/
structure Valuation where
  playerID : String
  date : String
  eur : Int64
  deriving DecidableEq

/-- `RawTransfer`: one row of the source's transfer history. -/
structure RawTransfer where
  date : String
  fromID : String
  toID : String
  fromName : String
  toName : String
  /-- In euros, absent when the source has none. -/
  fee : Option Int64
  deriving DecidableEq

/-- `Dataset`: the slice of the source an import needs. Its statistics and its entries of clubs
in competitions are left out, which only the tables of appearances are made from. -/
structure Dataset where
  clubs : GoMap Club
  players : List Player
  /-- By player. -/
  transfers : GoMap (List RawTransfer)
  valuations : List Valuation
  /-- The most recent season the source covers, as the year it starts in. -/
  latestSeason : ℤ

/-- `Scope`: what to load. -/
structure Scope where
  leagues : List String
  firstSeason : ℤ

/-- Storing in a map changes it at one key. -/
theorem lookup_insert_eq {α : Type} (m : GoMap α) (key : String) (value : α) :
    (fun k => (m.insert key value).lookup k) =
      Function.update (fun k => m.lookup k) key (some value) := by
  funext k
  by_cases same : k = key
  · subst same
    rw [AList.lookup_insert, Function.update_self]
  · rw [AList.lookup_insert_ne same, Function.update_of_ne same]

/-- The keys of a map in the order of `sort.Strings`. -/
def sortedKeys {α : Type} (m : GoMap α) : List String := m.keys.insertionSort (· ≤ ·)

theorem mem_sortedKeys {α : Type} {m : GoMap α} {key : String} :
    key ∈ sortedKeys m ↔ key ∈ m := by
  unfold sortedKeys
  rw [List.mem_insertionSort, AList.mem_keys]

end ScoutPulse.Importer
