import ScoutPulse.Football.Authorizer
import ScoutPulse.Lib.Dates
import ScoutPulse.Lib.Machine
import ScoutPulse.Lib.Outcome
import ScoutPulse.Lib.ReadCommitted
import Mathlib.Algebra.Order.Ring.Int

/-!
# Market values

The valuations of one player and the two columns of the player that follow from the
latest of them, with any number of `RecordValue` and `DeleteValue` requests at once,
statement by statement, under READ COMMITTED.
-/

namespace ScoutPulse.MarketValues

open Dates (Moment dayLength ofDay)
open ReadCommitted

/-- A `DATE`, in days since the zero time. -/
abbrev Date := ℤ

/-- A row of `player_market_values`. No player has two for one day, which is its key. -/
structure Value where
  id : String
  valueMinor : ℤ
  currency : String
  deriving DecidableEq

/-- The columns of `players` that are derived from the valuations. -/
structure Player where
  marketValueMinor : ℤ
  currency : String
  deriving DecidableEq

/-- `domain.MarketValue`, with a date of some kind. -/
structure MarketValueOf (δ : Type) where
  valuedOn : δ
  value : ℤ
  currency : String
  deriving DecidableEq

/-- A valuation as its columns keep it. -/
abbrev MarketValue := MarketValueOf Date

/-- A valuation as a request sends it. -/
abbrev SentValue := MarketValueOf Moment

def defaultCurrency : String := "EUR"

/-- What a request was sent for. -/
inductive Kind
  | recordValue (caller : Caller) (value : SentValue)
  | deleteValue (caller : Caller) (id : String)

/-! ## The statements on the player -/

section Player

variable (view : Date → Option Value) (dates : List Date)

/-- `EXISTS (SELECT 1 FROM player_market_values … valued_on > $4)`. -/
def laterExists (valuedOn : Date) : Bool :=
  dates.any fun d => valuedOn < d && (view d).isSome

/-- `ORDER BY valued_on DESC LIMIT 1`. -/
def latest : Option Value := ((dates.filter fun d => (view d).isSome).max?).bind view

/-- The two statements that write `players`: `Record`'s and `Delete`'s. -/
inductive Update
  | current (value : MarketValue)
  | reset
  deriving DecidableEq

/-- What becomes of the player's row. -/
inductive Change
  | set (value : ℤ) (currency : String)
  | reset (latest : Option Value)
  deriving DecidableEq

/-- What a statement does to the player's row if it sees these valuations; `none` when it
does not pick the row. -/
def Update.decides : Update → Option Change
  | .current value =>
      if laterExists view dates value.valuedOn then none
      else some (.set value.value value.currency)
  | .reset => some (.reset (latest view dates))

def Change.apply : Change → Player → Player
  | .set value currency, _ => ⟨value, currency⟩
  | .reset none, p => ⟨0, p.currency⟩
  | .reset (some value), _ => ⟨value.valueMinor, value.currency⟩

/-- The statement once it has read the valuations: it waits for the player's row and reads
only that one again. -/
def Change.statement (change : Change) : Statement Unit Player where
  picks _ _ := true
  change p := some (change.apply p)

end Player

/-! ## The requests -/

/-- How far a request has come. -/
inductive Stage
  | begun
  /-- `RecordValue` has checked the valuation and its caller. -/
  | admitted (value : MarketValue)
  /-- `DELETE` has yet to come to `targets`. -/
  | deleting (id : String) (targets : List Date) (hit : Bool)
  /-- The valuations are written, and the player is next. -/
  | changed (update : Update)
  /-- The statement has read the valuations and comes to the player. -/
  | updating (update : Update) (change : Change)
  /-- The player is written, or the statement did not pick it. -/
  | updated (update : Update) (change : Option Change)
  | ended (reason : Option AppErr)
  deriving DecidableEq

structure Request where
  kind : Kind
  stage : Stage

/-- The player, the valuations with every day and every key ever used, and the requests
in order of arrival. -/
structure State where
  player : Table Unit Player ℕ
  values : Table Date Value ℕ
  dates : List Date
  valueIDs : List String
  requests : List Request

/-- What a step draws: the time, the day of the row a statement comes to, and the key of a
new row. -/
structure Draw where
  now : ℤ
  date : Date
  id : String

inductive Label
  | arrive (kind : Kind)
  | advance (i : ℕ) (draw : Draw)
  | abort (i : ℕ)

/-- The checks of `RecordValue`, and what its columns will keep. -/
def admitValue (caller : Caller) (value : SentValue) (now : ℤ) : Except AppErr MarketValue := do
  caller.requireAdmin
  if value.value < 0 then throw (.invalid "value_minor cannot be negative")
  let valuedOn := if value.valuedOn.instant = 0 then ofDay (now / dayLength) else value.valuedOn
  if now < valuedOn.instant then throw (.invalid "valued_on cannot be in the future")
  let currency := if value.currency = "" then defaultCurrency else value.currency
  return ⟨valuedOn.day, value.value, currency⟩

/-- The checks of `DeleteValue`. -/
def admitDelete (caller : Caller) (id : String) : Except AppErr Unit := do
  caller.requireAdmin
  if id = "" then throw (.invalid "player id and value id are required")

/-- `DELETE FROM player_market_values`. -/
def deleteRow (id : String) : Statement Date Value where
  picks _ row := row.id = id
  change _ := none

namespace State

/-- A request comes to another stage. -/
def move (s : State) (i : ℕ) (r : Request) (stage : Stage) : State :=
  { s with requests := s.requests.set i { r with stage := stage } }

/-- A request commits. -/
def finish (s : State) (i : ℕ) (r : Request) : State :=
  { s with player := s.player.commit i, values := s.values.commit i }.move i r (.ended none)

/-- A request fails, and all it has done is taken back. -/
def fail (s : State) (i : ℕ) (r : Request) (reason : AppErr) : State :=
  { s with player := s.player.rollback i, values := s.values.rollback i }.move i r
    (.ended (some reason))

end State

/-- The first step of a request. -/
def beginRequest (s : State) (i : ℕ) (r : Request) (d : Draw) : Kind → State
  | .recordValue caller value =>
      match admitValue caller value d.now with
      | .error reason => s.fail i r reason
      | .ok value => s.move i r (.admitted value)
  | .deleteValue caller id =>
      match admitDelete caller id with
      | .error reason => s.fail i r reason
      | .ok _ => s.move i r (.deleting id ((deleteRow id).targets s.values i s.dates) false)

/-- A row of the valuations is written for a day. -/
def writeValue (s : State) (i : ℕ) (id : String) (value : MarketValue) : State :=
  { s with
    values := s.values.write i value.valuedOn (some ⟨id, value.value, value.currency⟩)
    dates := value.valuedOn :: s.dates
    valueIDs := id :: s.valueIDs }

/-- `INSERT … ON CONFLICT (player_id, valued_on) DO UPDATE`: it waits for whoever has the
day's row, and corrects the row if there is one. A currency has three characters. -/
def insertValue (s : State) (i : ℕ) (r : Request) (d : Draw) (value : MarketValue) :
    Option State :=
  if s.values.blocked i value.valuedOn then none
  else if 3 < value.currency.length then some (s.fail i r .internal)
  else match s.values.visible i value.valuedOn with
    | some row => some ((writeValue s i row.id value).move i r (.changed (.current value)))
    | none =>
        if d.id ∈ s.valueIDs then none
        else some ((writeValue s i d.id value).move i r (.changed (.current value)))

/-- One step of a request. -/
def advanceRequest (s : State) (i : ℕ) (r : Request) (d : Draw) : Option State :=
  match r.stage with
  | .begun => some (beginRequest s i r d r.kind)
  | .admitted value => insertValue s i r d value
  | .deleting id targets hit =>
      if targets = [] then
        if hit then some (s.move i r (.changed .reset))
        else some (s.fail i r (.notFound "market value not found"))
      else if d.date ∈ targets then
        ((deleteRow id).visit s.values i d.date).map fun visited =>
          { s with values := visited.1 }.move i r (.deleting id (targets.erase d.date)
            (visited.2 || hit))
      else none
  | .changed update =>
      match update.decides (s.values.visible i) s.dates with
      | none => some (s.move i r (.updated update none))
      | some change => some (s.move i r (.updating update change))
  | .updating update change =>
      (change.statement.visit s.player i ()).map fun visited =>
        { s with player := visited.1 }.move i r (.updated update (some change))
  | .updated _ _ => some (s.finish i r)
  | .ended _ => none

/-- `CreatePlayer`, as far as the player's worth goes: the columns, and the opening
valuation on the day of its creation. -/
def createPlayer (id : String) (createdAt : Date) (value : ℤ) (currency : String) :
    Except AppErr State := do
  if value < 0 then throw (.invalid "market_value_minor cannot be negative")
  let currency := if currency = "" then defaultCurrency else currency
  let opening := if 0 < value then [createdAt] else []
  return {
    player := ⟨fun _ => some ⟨value, currency⟩, fun _ => none⟩
    values := ⟨fun d => if d ∈ opening then some ⟨id, value, currency⟩ else none, fun _ => none⟩
    dates := opening
    valueIDs := [id]
    requests := [] }

/-- The requests on a player that has just been created. -/
def valuing : Machine State Label where
  start s := ∃ id createdAt value currency, createPlayer id createdAt value currency = .ok s
  next s
    | .arrive kind => some { s with requests := s.requests ++ [⟨kind, .begun⟩] }
    | .advance i d => (s.requests[i]?).bind fun r => advanceRequest s i r d
    | .abort i => (s.requests[i]?).bind fun r =>
        match r.stage with
        | .ended _ => none
        | _ => some (s.fail i r .internal)

/-! ## What the columns should be -/

/-- A player's worth is the latest of its valuations, and nothing without one. -/
def Current (p : Player) (view : Date → Option Value) : Prop :=
  (∀ d row, view d = some row → (∀ d' row', view d' = some row' → d' ≤ d) →
    p = ⟨row.valueMinor, row.currency⟩) ∧
  ((∀ d, view d = none) → p.marketValueMinor = 0)

/-- The player is there, and its worth is current. -/
def UpToDate (player : Table Unit Player ℕ) (values : Table Date Value ℕ) : Prop :=
  ∃ p, player.committed () = some p ∧ Current p values.committed

/-- What a statement decided about the player, once it has. -/
def Stage.decision : Stage → Option (Update × Option Change)
  | .updated update change => some (update, change)
  | _ => none

/-- The condition on a step: a request commits only while the valuations it sees still
have it decide what it has decided about the player. -/
def Fresh (s : State) : Label → Prop
  | .advance i _ => ∀ r ∈ s.requests[i]?, ∀ made ∈ r.stage.decision,
      made.1.decides (s.values.visible i) s.dates = made.2
  | _ => True

instance (s : State) (label : Label) : Decidable (Fresh s label) :=
  match label with
  | .advance i _ => inferInstanceAs (Decidable (∀ r ∈ s.requests[i]?,
      ∀ made ∈ r.stage.decision, made.1.decides (s.values.visible i) s.dates = made.2))
  | .arrive _ => .isTrue trivial
  | .abort _ => .isTrue trivial

end ScoutPulse.MarketValues
