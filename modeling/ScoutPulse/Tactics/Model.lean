import ScoutPulse.Lib.JavaScript
import ScoutPulse.Lib.Records
import Mathlib.Algebra.Order.Floor.Ring
import Mathlib.Data.Rat.Floor

/-!
# The tactics board document

A board is stored as data: which players, cones and goals exist, where each one stands at
every step, and what is drawn on the grass. A step stores only what moved in it, and an
object missing from a step stands where it stood in the previous one. Coordinates are
metres, kept as exact numbers. The positions of a step are a plain object of the language:
under some names it has members that no step put there.
-/

namespace ScoutPulse.Tactics

/-- `Vec2`. -/
structure Vec2 where
  x : ℚ
  y : ℚ
  deriving DecidableEq, Repr

/-- `HALF_LENGTH`. -/
def halfLength : ℚ := 105 / 2

/-- `PITCH_WIDTH`. -/
def pitchWidth : ℚ := 68

/-- `HALF_WIDTH`. -/
def halfWidth : ℚ := pitchWidth / 2

/-- `RUNOFF`: how far past the touchlines something may be placed. -/
def runoff : ℚ := 6

/-- `DEFAULT_STROKE`. -/
def defaultStroke : ℚ := 32 / 100

/-- `TeamId`. -/
inductive TeamId
  | home
  | away
  | third
  deriving DecidableEq, Repr

/-- `KitPattern`. -/
inductive KitPattern
  | solid
  | stripes
  | hoops
  | halves
  | sash
  deriving DecidableEq, Repr

/-- `Kit`. -/
structure Kit where
  name : String
  primary : String
  secondary : String
  pattern : KitPattern
  numbers : String
  keeper : String
  deriving DecidableEq, Repr

/-- `EquipmentKind`. -/
inductive EquipmentKind
  | ball
  | cone
  | disc
  | pole
  | mannequin
  | hurdle
  | ladder
  | ring
  | minigoal
  | goal
  | popup
  | flag
  deriving DecidableEq, Repr

/-- `ObjectKind`. -/
inductive ObjectKind
  | player
  | equipment (kind : EquipmentKind)
  deriving DecidableEq, Repr

/-- `BoardObject`. An object whose id was cleared away has none. -/
structure BoardObject where
  id : Option String
  kind : ObjectKind
  team : Option TeamId := none
  keeper : Option Bool := none
  number : Option String := none
  name : Option String := none
  bib : Option String := none
  color : Option String := none
  color2 : Option String := none
  pattern : Option KitPattern := none
  size : Option ℚ := none
  rotation : Option ℚ := none
  deriving DecidableEq, Repr

/-- `DrawingKind`. -/
inductive DrawingKind
  | arrow
  | line
  | pen
  | rect
  | ellipse
  | polygon
  | text
  deriving DecidableEq, Repr

/-- `StrokeStyle`. -/
inductive StrokeStyle
  | solid
  | dashed
  | wavy
  deriving DecidableEq, Repr

/-- `Tool`: which tool the pointer is acting as. -/
inductive Tool
  | select
  | place
  | draw (kind : DrawingKind)
  deriving DecidableEq, Repr

/-- `Drawing`. Its kind is the tool that was picked when it was drawn. An id or a colour that
was cleared away is not there. -/
structure Drawing where
  id : Option String
  kind : Tool
  points : List Vec2
  control : Option Vec2 := none
  style : Option StrokeStyle := none
  color : Option String
  width : Option ℚ := none
  text : Option String := none
  fill : Option ℚ := none
  deriving DecidableEq, Repr

/-- Two coordinates, none when neither came out as a number. -/
abbrev Coords := Option Vec2

/-- What is found under the id of an object: the coordinates that were put there, or what
every object of the language inherits under that name. -/
inductive Place
  | own (at_ : Coords)
  | inherited
  deriving DecidableEq, Repr

/-- The coordinates of a place: what is inherited has none. -/
def Place.coords : Place → Coords
  | .own at_ => at_
  | .inherited => none

/-- `Step`. -/
structure Step where
  id : String
  duration : ℚ
  hold : ℚ
  note : String
  pos : Record Place
  bend : Option (Record Coords) := none
  air : Option (List String) := none
  highlight : Option (List String) := none
  drawings : List Drawing
  deriving DecidableEq

/-- `PitchLayout`. -/
inductive PitchLayout
  | full
  | half
  | third
  | box
  | drill
  deriving DecidableEq, Repr

/-- `PitchMarkings`. -/
inductive PitchMarkings
  | standard
  | none
  | grid
  deriving DecidableEq, Repr

/-- `PitchStyle`. -/
inductive PitchStyle
  | day
  | night
  | board
  deriving DecidableEq, Repr

/-- `PitchSettings`. -/
structure PitchSettings where
  layout : PitchLayout
  markings : PitchMarkings
  style : PitchStyle
  stadium : Bool
  deriving DecidableEq, Repr

/-- `Record<TeamId, Kit>`. -/
structure Kits where
  home : Kit
  away : Kit
  third : Kit
  deriving DecidableEq, Repr

/-- `TacticDoc`. A document the editor can use has a step. -/
structure TacticDoc where
  pitch : PitchSettings
  teams : Kits
  objects : List BoardObject
  steps : List Step
  steps_ne : steps ≠ []
  deriving DecidableEq

/-! ### Defaults -/

/-- `DEFAULT_KITS`. -/
def defaultKits : Kits where
  home := ⟨"Home", "#c8102e", "#ffffff", .solid, "#ffffff", "#1f9d55"⟩
  away := ⟨"Away", "#1d4ed8", "#0b1f4d", .solid, "#ffffff", "#f59e0b"⟩
  third := ⟨"Neutral", "#facc15", "#111827", .solid, "#111827", "#a855f7"⟩

/-- `EQUIPMENT_COLORS`. -/
def equipmentColors : EquipmentKind → String
  | .ball => "#ffffff"
  | .cone => "#ff7a1a"
  | .disc => "#facc15"
  | .pole => "#f43f5e"
  | .mannequin => "#2563eb"
  | .hurdle => "#f97316"
  | .ladder => "#fde047"
  | .ring => "#22d3ee"
  | .minigoal => "#f8fafc"
  | .goal => "#f8fafc"
  | .popup => "#f97316"
  | .flag => "#facc15"

/-- `newStep`, with the id drawn for it. -/
def newStep (drawn : String) : Step :=
  { id := drawn, duration := 16 / 10, hold := 6 / 10, note := "", pos := ∅, drawings := [] }

theorem newSteps_ne (drawn : String) : [newStep drawn] ≠ [] := List.cons_ne_nil _ _

/-- `emptyDoc`, with the id drawn for its step. -/
def emptyDoc (drawn : String) : TacticDoc where
  pitch := ⟨.full, .standard, .day, true⟩
  teams := defaultKits
  objects := []
  steps := [newStep drawn]
  steps_ne := newSteps_ne drawn

/-- The step with an index, else the first one. -/
def TacticDoc.stepAt (doc : TacticDoc) (i : ℕ) : Step :=
  (doc.steps[i]?).getD (doc.steps.head doc.steps_ne)

/-! ### Reading positions -/

/-- `pos[id]`, of a step: what it places there, or else what is inherited. -/
def Step.stands (step : Step) (id : String) : Option Place :=
  (step.pos.lookup id).or (if id ∈ Js.objectPrototype then some .inherited else none)

/-- The loop of `positionAt`, down from the last of some number of steps. -/
def latest (steps : List Step) (id : String) : ℕ → Option Place
  | 0 => none
  | i + 1 =>
      match steps[i]?.bind (·.stands id) with
      | some p => some p
      | none => latest steps id i

/-- `positionAt`: where an object stands at a step. -/
def positionAt (doc : TacticDoc) (stepIndex : ℤ) (id : String) : Option Place :=
  latest doc.steps id (min stepIndex (doc.steps.length - 1) + 1).toNat

/-- The key an id makes: one that is not there is the text `undefined`. -/
def idKey (id : Option String) : String := id.getD "undefined"

/-- Places by the ids of objects, a `Map`. -/
abbrev Places := AList fun _ : Option String => Place

instance : DecidableEq Places := fun r s =>
  decidable_of_iff (r.entries = s.entries) AList.ext_iff.symm

/-- A place set for an object that has one. -/
def setPresent (out : Places) (id : Option String) : Option Place → Places
  | some p => out.insert id p
  | none => out

/-- `positionsAt`: every object present at a step, with where it stands. -/
def positionsAt (doc : TacticDoc) (stepIndex : ℤ) : Places :=
  doc.objects.foldl
    (fun out obj => setPresent out obj.id (positionAt doc stepIndex (idKey obj.id))) ∅

/-- `nextNumber`: the next free shirt number in a team. -/
def nextNumber (doc : TacticDoc) (team : TeamId) : String :=
  let used := (doc.objects.filter fun o => o.kind = .player ∧ o.team = some team).map (·.number)
  match (List.range' 1 99).find? fun n => some (toString n) ∉ used with
  | some n => toString n
  | none => ""

/-- `clampToArea`. -/
def clampToArea (at_ : Vec2) : Vec2 :=
  let maxX := halfLength + runoff
  let maxY := halfWidth + runoff
  ⟨max (-maxX) (min maxX at_.x), max (-maxY) (min maxY at_.y)⟩

/-- `Math.round`. -/
def mathRound (n : ℚ) : ℤ := ⌊n + 1 / 2⌋

/-! ### Formations -/

/-- A spot of a formation: a shirt number, and how deep and how wide it is. -/
structure Spot where
  n : String
  at_ : Vec2
  deriving DecidableEq, Repr

/-- `shape`: rows of spots, defence first, and the shirt numbers in the same order. -/
def shape (rows : List (List Vec2)) (numbers : List String) : List Spot :=
  List.zipWith (fun n at_ => ⟨n, at_⟩) numbers rows.flatten

/-- A spot written in hundredths. -/
def hundredths (depth width : ℕ) : Vec2 := ⟨depth / 100, width / 100⟩

/-- `FORMATIONS`. -/
def formations : List (String × List Spot) :=
  [("4-4-2", shape
      [[hundredths 82 12, hundredths 80 37, hundredths 80 63, hundredths 82 88],
        [hundredths 45 12, hundredths 42 38, hundredths 42 62, hundredths 45 88],
        [hundredths 12 38, hundredths 12 62]]
      ["2", "5", "6", "3", "7", "4", "8", "11", "9", "10"]),
    ("4-3-3", shape
      [[hundredths 82 12, hundredths 80 37, hundredths 80 63, hundredths 82 88],
        [hundredths 55 50, hundredths 40 30, hundredths 40 70],
        [hundredths 14 15, hundredths 8 50, hundredths 14 85]]
      ["2", "5", "4", "3", "6", "8", "10", "7", "9", "11"]),
    ("4-2-3-1", shape
      [[hundredths 82 12, hundredths 80 37, hundredths 80 63, hundredths 82 88],
        [hundredths 58 38, hundredths 58 62],
        [hundredths 32 15, hundredths 30 50, hundredths 32 85],
        [hundredths 8 50]]
      ["2", "5", "4", "3", "6", "8", "7", "10", "11", "9"]),
    ("3-5-2", shape
      [[hundredths 80 25, hundredths 82 50, hundredths 80 75],
        [hundredths 45 8, hundredths 52 35, hundredths 58 50, hundredths 52 65,
          hundredths 45 92],
        [hundredths 12 38, hundredths 12 62]]
      ["4", "5", "6", "2", "8", "10", "7", "3", "9", "11"]),
    ("3-4-3", shape
      [[hundredths 80 25, hundredths 82 50, hundredths 80 75],
        [hundredths 48 10, hundredths 52 38, hundredths 52 62, hundredths 48 90],
        [hundredths 15 18, hundredths 8 50, hundredths 15 82]]
      ["4", "5", "6", "2", "8", "10", "3", "7", "9", "11"]),
    ("5-3-2", shape
      [[hundredths 72 8, hundredths 82 30, hundredths 84 50, hundredths 82 70,
          hundredths 72 92],
        [hundredths 50 30, hundredths 55 50, hundredths 50 70],
        [hundredths 14 38, hundredths 14 62]]
      ["2", "4", "5", "6", "3", "8", "10", "7", "9", "11"])]

/-- The half a team plays in. -/
inductive Side
  | left
  | right
  deriving DecidableEq, Repr

/-- Rounding to tenths, the model's `round`. -/
def round (n : ℚ) : ℚ := mathRound (n * 10) / 10

/-- Where a spot of a formation is on the pitch. -/
def Spot.place (spot : Spot) (dir : ℚ) : Vec2 :=
  let depth := 1 - spot.at_.x
  let across := spot.at_.y
  let x := -dir * (halfLength - 10 - depth * (halfLength - 14))
  let y := (across - 1 / 2) * (pitchWidth - 10)
  ⟨round x, round y⟩

/-- `formation`: a goalkeeper and ten outfield players, with the ids drawn for them. -/
def formation (name : String) (team : TeamId) (side : Side) (drawn : ℕ → String) :
    List BoardObject × Record Place :=
  let spots := ((formations.lookup name).orElse fun _ => formations.lookup "4-4-2").getD []
  let dir : ℚ := if side = .left then 1 else -1
  let keeper : BoardObject :=
    { id := some (drawn 0), kind := .player, team := some team, keeper := some true,
      number := some "1" }
  let pos : Record Place :=
    AList.insert (drawn 0) (.own (some ⟨-dir * (halfLength - 4), 0⟩)) ∅
  spots.zipIdx.foldl (fun (objects, pos) (spot, k) =>
    let obj : BoardObject :=
      { id := some (drawn (k + 1)), kind := .player, team := some team, number := some spot.n }
    (objects ++ [obj], pos.insert (drawn (k + 1)) (.own (some (spot.place dir))))) ([keeper], pos)

end ScoutPulse.Tactics
