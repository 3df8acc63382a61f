import ScoutPulse.Lib.Outcome
import ScoutPulse.Lib.Upsert
import ScoutPulse.Football.Importer.Players
import ScoutPulse.Football.Importer.Postgres

/-!
# The valuations of an import

Every valuation of the source is stored at its player and day, over the one that is there.
-/

namespace ScoutPulse.Importer

open Squad (Date)
open Outcome Upsert

/-- A row of `player_market_values`, without its own id. -/
structure StoredValue where
  valueMinor : ℤ
  currency : String
  deriving DecidableEq

/-- The table `player_market_values`, by player and day. -/
abbrev ValueTable := AList fun _ : String × Date => StoredValue

/-- What `importValuations` sends of one valuation. -/
structure ValueRow where
  player : String
  date : String
  value : Int64
  deriving DecidableEq

/-- The loop of `importValuations`. -/
def valueRows (m : Merge) : List ValueRow :=
  m.d.valuations.filterMap fun v =>
    match m.players.lookup v.playerID with
    | some id => if v.date = "" then none else some ⟨id, v.date, v.eur * 100⟩
    | none => none

/-- A valuation whose date has been cast. -/
structure DatedValue where
  key : String × Date
  value : ℤ

section Statement

variable [Postgres] [Takes ValueRow]

/-- The row `INSERT` proposes, if the casts and the columns let it. -/
def dated (r : ValueRow) : Option DatedValue :=
  if Takes.takes r then
    (Postgres.toDay r.date).map fun day => ⟨(r.player, day), r.value.toInt⟩
  else none

/-- `ON CONFLICT (player_id, valued_on) DO UPDATE`, and the check of the table. -/
def storeValue (found : Option StoredValue) (r : DatedValue) : Option StoredValue :=
  if 0 ≤ r.value then some ⟨r.value, found.elim "EUR" (·.currency)⟩ else none

/-- The statement of `importValuations`, which stores no row twice. -/
def upsertValues (values : ValueTable) (rows : List ValueRow) : Option ValueTable := do
  let proposed ← rows.mapM dated
  if (proposed.map (·.key)).Nodup then proposed.foldlM (put (·.key) storeValue) values
  else none

/-- `importValuations`: what it makes of the table. -/
def importValuations (values : ValueTable) (m : Merge) : Option ValueTable :=
  inChunks upsertValues values (valueRows m)

end Statement

/-! ## What is stored at the end -/

section Stored

variable [Postgres] [Takes ValueRow] {values after : ValueTable} {m : Merge}

/-- What a row says of a player and a day, in cents. -/
def worthOn (id : String) (day : Date) (r : ValueRow) : Option ℤ :=
  if r.player = id ∧ Postgres.toDay r.date = some day then some r.value.toInt else none

/-- What the source says a player of the import was worth on a day, in cents. -/
def sourceWorth (m : Merge) (id : String) (day : Date) : Option ℤ :=
  lastGiven (worthOn id day) (valueRows m)

/-- What is recorded of a player's worth, by day. -/
def worthOf (values : ValueTable) (id : String) (day : Date) : Option ℤ :=
  (values.lookup (id, day)).map (·.valueMinor)

/-- A row that is dated is worth its value on its day. -/
theorem worthOn_of_dated {r : ValueRow} {d : DatedValue} {id : String} {day : Date}
    (made : dated r = some d) :
    (if d.key = (id, day) then some d.value else none) = worthOn id day r := by
  unfold dated at made
  split at made
  · obtain ⟨day', named, rfl⟩ := Option.map_eq_some_iff.mp made
    simp only [worthOn, named, Prod.mk.injEq, Option.some.injEq]
  · cases made

/-- A day's worth is the source's, and where the source has none what it was. -/
theorem worthOf_importValuations (done : importValuations values m = some after)
    (id : String) (day : Date) :
    worthOf after id day = (sourceWorth m id day).or (worthOf values id day) := by
  have run : (valueRows m).foldlM (fun values r => (dated r).bind (put (·.key) storeValue values))
      values = some after := by
    refine foldlM_of_inChunks (fun stored => ?_) done
    obtain ⟨proposed, all, stored⟩ := Option.bind_eq_some_iff.mp stored
    split at stored
    · rw [foldlM_of_mapM all]
      exact stored
    · cases stored
  obtain ⟨proposed, all, run⟩ := exists_mapM_of_foldlM run
  have here := lookup_foldlM (fun d : DatedValue => d.key) (id, day) run
  have last : (after.lookup (id, day)).bind (fun v => some v.valueMinor) =
      (lastGiven (fun d : DatedValue => some d.value)
        (proposed.filter fun d => d.key = (id, day))).or
        ((values.lookup (id, day)).bind fun v => some v.valueMinor) := by
    refine bind_eq_or (fun found d v stored => ?_) here
    unfold storeValue at stored
    split at stored
    · cases stored
      rfl
    · cases stored
  have given : lastGiven (fun d : DatedValue => some d.value)
      (proposed.filter fun d => d.key = (id, day)) = sourceWorth m id day := by
    rw [lastGiven, List.filterMap_filter]
    simp only [decide_eq_true_eq]
    rw [filterMap_of_mapM all worthOn_of_dated]
    rfl
  rw [given] at last
  rw [worthOf, worthOf, Option.map_eq_bind, Option.map_eq_bind]
  exact last

end Stored

end ScoutPulse.Importer
