import ScoutPulse.Games.Draw
import ScoutPulse.Lib.Machine
import ScoutPulse.Lib.Strings

/-!
# A game of who played for both

The dataset as the service checks it before it serves it, and the store of one visit to the
game: its settings, its rounds and its timer, with every event the page sends it.
-/

namespace ScoutPulse.PlayedForBoth

open Draws

/-! ## The file that is served -/

/-- `Dataset`, its numbers as they are decoded. -/
structure Dataset where
  leagues : List (String × String × String)
  /-- Id, name, two colours and the place of the league. -/
  clubs : List (String × String × String × String × ℤ)
  nations : List (String × String × String × String)
  /-- Name, place of the nation or -1, places of the clubs, and 0 or 1. -/
  players : List (String × ℤ × List ℤ × ℤ)

section Load

variable [Unicode]

/-- The check of `UnmarshalJSON` on a player. -/
def checkFamous (p : String × ℤ × List ℤ × ℤ) : Except String Unit :=
  if p.2.2.2 ≠ 0 ∧ p.2.2.2 ≠ 1 then
    throw s!"player {Strings.quote p.1}: famous must be 0 or 1, got {p.2.2.2}"
  else pure ()

def checkClub (d : Dataset) (c : String × String × String × String × ℤ) : Except String Unit :=
  if c.2.2.2.2 < 0 ∨ (d.leagues.length : ℤ) ≤ c.2.2.2.2 then
    throw s!"played-for-both dataset: club {Strings.quote c.1} has league {c.2.2.2.2}"
  else pure ()

def checkPlayer (d : Dataset) (p : String × ℤ × List ℤ × ℤ) : Except String Unit := do
  if p.2.1 < -1 ∨ (d.nations.length : ℤ) ≤ p.2.1 then
    throw s!"played-for-both dataset: player {Strings.quote p.1} has nation {p.2.1}"
  p.2.2.1.forM fun c =>
    if c < 0 ∨ (d.clubs.length : ℤ) ≤ c then
      throw s!"played-for-both dataset: player {Strings.quote p.1} has club {c}"
    else pure ()

/-- `Load`, of a file that has the shape of a dataset. -/
def load (d : Dataset) : Except String Unit := do
  d.players.forM checkFamous
  if d.leagues.length = 0 ∨ d.clubs.length = 0 ∨ d.nations.length = 0 ∨ d.players.length = 0 then
    throw "played-for-both dataset: a section is empty"
  d.clubs.forM (checkClub d)
  d.players.forM (checkPlayer d)

/-- The file a service that has started serves. -/
structure Served where
  dataset : Dataset
  loads : load dataset = .ok ()
  /-- Pairs of its entities are exact numbers, which the service does not check. -/
  small : dataset.clubs.length + dataset.nations.length < pairBase

end Load

/-- The same file as the browser reads it. -/
def Dataset.wire (d : Dataset) : Wire where
  leagues := d.leagues
  clubs := d.clubs.map fun (id, name, colour1, colour2, league) =>
    (id, name, colour1, colour2, league.toNat)
  nations := d.nations
  players := d.players.map fun (name, nation, clubs, famous) =>
    (name, nation, clubs.map Int.toNat, famous.toNat)

/-! ## The store -/

/-- `RECENT_WINDOW`. -/
def recentWindow : ℕ := 60

/-- `pushRecent`. -/
def pushRecent (recent : List ℕ) (key : ℕ) : List ℕ :=
  let next := recent ++ [key]
  if recentWindow < next.length then next.drop (next.length - recentWindow) else next

/-- `TOP5`. -/
def top5 : List String := ["eng", "esp", "ita", "ger", "fra"]

/-- `SHOWN_ANSWERS`. -/
def shownAnswers : ℕ := 40

inductive LoadState
  | loading
  | ready
  | error
  deriving DecidableEq

/-- `PlayedForBothStore`, without the names. What computed signals hold is a function of the
rest. -/
structure Store where
  loadState : LoadState
  index : Option GameIndex
  leagues : List String
  knownOnly : Bool
  famousOnly : Bool
  allowNations : Bool
  timerSeconds : ℕ
  score : ℕ × ℕ
  round : ℕ
  pair : Option Draw
  drawId : ℕ
  revealed : Bool
  needLeague : Bool
  recent : List ℕ
  timeLeft : ℚ
  /-- The interval that runs, and the milliseconds its callback divides by. -/
  timer : Option ℕ
  endsAt : ℤ

namespace Store

variable (s : Store)

def started : Bool := s.pair.isSome

/-- The options of the pool. -/
def poolOptions : PoolOptions := ⟨s.leagues, s.famousOnly, s.allowNations⟩

/-- What `next` passes to `drawPair`. -/
def options (ix : GameIndex) : DrawOptions where
  clubs := enabledClubs ix s.leagues
  pool := if s.knownOnly then buildPairPool ix s.poolOptions else []
  knownOnly := s.knownOnly
  allowNations := s.allowNations
  recent := s.recent

def stopTimer : Store := { s with timer := none }

def startTimer (now : ℤ) : Store :=
  let total := s.timerSeconds * 1000
  if s.timerSeconds = 0 then { s.stopTimer with timeLeft := 1 }
  else { s with timeLeft := 1, endsAt := now + total, timer := some total }

def reveal : Store := if s.pair.isNone then s else { s with revealed := true }.stopTimer

/-- What `next` does with a pair. -/
def show_ (draw : Draw) (now : ℤ) : Store :=
  { s with
    recent := pushRecent s.recent draw.key, needLeague := false, revealed := false
    pair := some draw, drawId := s.drawId + 1 }.startTimer now

/-- `next`, on the numbers that come. -/
def next (rng : List ℚ) (now : ℤ) : Option Store :=
  match s.index with
  | none => some s
  | some ix => (drawPair ix (s.options ix) rng).map fun (drawn, _) =>
      match drawn with
      | none => { s with needLeague := true }
      | some draw => s.show_ draw now

/-- `primary`: start, or the next pair without a point. -/
def primary (rng : List ℚ) (now : ℤ) : Option Store :=
  (if s.started then { s with round := s.round + 1 } else s).next rng now

/-- `point`, of the first player or the second. -/
def point (first : Bool) (rng : List ℚ) (now : ℤ) : Option Store :=
  if s.pair.isNone then some s
  else
    { s with
      score := if first then (s.score.1 + 1, s.score.2) else (s.score.1, s.score.2 + 1)
      round := s.round + 1 }.next rng now

def reset : Store :=
  { s.stopTimer with
    score := (0, 0), round := 1, pair := none, recent := [], revealed := false
    needLeague := false, timeLeft := 1 }

def toggleLeague (code : String) (on : Bool) : Store :=
  { s with
    leagues := if on then OrderedSet.add s.leagues code else s.leagues.filter (· ≠ code) }

def allLeagues : Store :=
  { s with
    leagues := OrderedSet.ofList ((s.index.map fun ix => ix.leagues.map League.code).getD []) }

def setTimer (seconds : ℕ) (now : ℤ) : Store :=
  let set := { s with timerSeconds := seconds }
  if s.pair.isSome && !s.revealed then set.startTimer now else set.stopTimer

/-- The callback of the interval. -/
def tick (total : ℕ) (now : ℤ) : Store :=
  let left := max 0 (s.endsAt - now)
  let shown := { s with timeLeft := (left : ℚ) / total }
  if left = 0 then shown.reveal else shown

/-- `storedLeagues`, of the strings of an array in storage. -/
def storedLeagues (ix : GameIndex) (stored : Option (List String)) : List String :=
  let all := ix.leagues.map League.code
  let valid := (stored.getD []).filter (· ∈ all)
  OrderedSet.ofList (if valid ≠ [] then valid else all)

/-- `load`, when the dataset comes. -/
def loaded (wire : Wire) (stored : Option (List String)) : Store :=
  let ix := buildIndex wire
  { s with leagues := storedLeagues ix stored, index := some ix, loadState := .ready }

end Store

/-- `AnswerView`, without its message. -/
structure AnswerView where
  shown : List Player
  more : ℕ

/-- `answer`. -/
def Store.answer [Collation] (s : Store) : Option AnswerView := do
  let ix ← s.index
  let p ← s.pair
  if s.revealed then
    let list := matchesOf ix p.left p.right
    some ⟨list.take shownAnswers, list.length - shownAnswers⟩
  else none

inductive Label [Unicode]
  /-- The dataset comes, or does not. -/
  | loaded (answer : Option Served) (stored : Option (List String))
  | retry
  | primary (rng : List ℚ) (now : ℤ)
  | reveal
  | point (first : Bool) (rng : List ℚ) (now : ℤ)
  | reset
  | toggleLeague (code : String) (on : Bool)
  | allLeagues
  | top5
  | clearLeagues
  | setKnownOnly (on : Bool)
  | setFamousOnly (on : Bool)
  | setAllowNations (on : Bool)
  | setTimer (seconds : ℕ) (now : ℤ)
  | tick (now : ℤ)

def fresh : Store :=
  ⟨.loading, none, [], true, true, true, 30, (0, 0), 1, none, 0, false, false, [], 1, none, 0⟩

/-- One visit: the store and the events that reach it. -/
def visit [Unicode] : Machine Store Label where
  start s := s = fresh
  next s
    | .loaded answer stored =>
        if s.loadState = .loading then
          match answer with
          | some served => some (s.loaded served.dataset.wire stored)
          | none => some { s with loadState := .error }
        else none
    | .retry => if s.loadState = .error then some { s with loadState := .loading } else none
    | .primary rng now => s.primary rng now
    | .reveal => some s.reveal
    | .point first rng now => s.point first rng now
    | .reset => some s.reset
    | .toggleLeague code on => some (s.toggleLeague code on)
    | .allLeagues => some s.allLeagues
    | .top5 => some { s with leagues := top5 }
    | .clearLeagues => some { s with leagues := [] }
    | .setKnownOnly on => some { s with knownOnly := on }
    | .setFamousOnly on => some { s with famousOnly := on }
    | .setAllowNations on => some { s with allowNations := on }
    | .setTimer seconds now => some (s.setTimer seconds now)
    | .tick now => s.timer.map fun total => s.tick total now

end ScoutPulse.PlayedForBoth
