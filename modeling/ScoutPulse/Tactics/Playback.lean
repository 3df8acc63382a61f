import ScoutPulse.Lib.JavaScript
import ScoutPulse.Lib.Records
import ScoutPulse.Tactics.Model

/-!
# Opening a stored board and playing it

A board is somebody else's JSON by the time it is opened. `normalizeDoc` keeps the objects
and the steps that look like ones and sees to it that a step's positions are an object and
its drawings a list; the other members of a step are taken over as they are, whatever they
hold. Playing the document reads them, so every function here works on values of which
nothing is known: an operator coerces them, and may throw.
-/

namespace ScoutPulse.Tactics.Opened

open Js Js.Number

/-! ## The document -/

/-- `BoardObject`, of which its id and its kind are known. -/
structure BoardObject where
  id : String
  kind : String
  members : Members

/-- `Step`, with the members that were taken over. -/
structure Step where
  id : String
  pos : Members
  drawings : List Json
  members : Members

namespace Step

def duration (s : Step) : Option Json := member s.members "duration"

def hold (s : Step) : Option Json := member s.members "hold"

def note (s : Step) : Option Json := member s.members "note"

def bend (s : Step) : Option Json := member s.members "bend"

def air (s : Step) : Option Json := member s.members "air"

def highlight (s : Step) : Option Json := member s.members "highlight"

end Step

/-- `TacticDoc`. -/
structure TacticDoc where
  pitch : Members
  teams : TeamId → Members
  objects : List BoardObject
  steps : List Step

/-! ## Reading a document that is not trusted -/

/-- A kit as it is written to JSON. -/
def kitMembers (kit : Kit) : Members :=
  [("name", .str kit.name), ("primary", .str kit.primary), ("secondary", .str kit.secondary),
    ("pattern", .str (match kit.pattern with
      | .solid => "solid"
      | .stripes => "stripes"
      | .hoops => "hoops"
      | .halves => "halves"
      | .sash => "sash")),
    ("numbers", .str kit.numbers), ("keeper", .str kit.keeper)]

def teamName : TeamId → String
  | .home => "home"
  | .away => "away"
  | .third => "third"

/-- The teams of `emptyDoc`. -/
def baseTeam (id : TeamId) : Members :=
  kitMembers (match id with
    | .home => defaultKits.home
    | .away => defaultKits.away
    | .third => defaultKits.third)

/-- The pitch of `emptyDoc`. -/
def basePitch : Members :=
  [("layout", .str "full"), ("markings", .str "standard"), ("style", .str "day"),
    ("stadium", .bool true)]

/-- What a step has from `newStep` when it says nothing itself. -/
def newStepMembers : Members :=
  [("duration", .num ⟨false, 16, -1⟩), ("hold", .num ⟨false, 6, -1⟩), ("note", .str "")]

/-- `newStep`, with the id drawn for it. -/
def newStep (drawn : String) : Step := ⟨drawn, [], [], newStepMembers⟩

/-- `isObject`, with the members it then has. -/
def asObject : Json → Option Members
  | .obj members => some members
  | _ => none

/-- The members of a value that is an object, and none of one that is not. -/
def membersOf (v : Option Json) : Members := (v.bind asObject).getD []

/-- The entries of a value that is an array. -/
def entriesOf : Option Json → List Json
  | some (.arr items) => items
  | _ => []

/-- An object whose id and kind are texts. -/
def readObject (v : Json) : Option BoardObject :=
  match asObject v with
  | none => none
  | some members =>
      match member members "id", member members "kind" with
      | some (.str id), some (.str kind) => some ⟨id, kind, members⟩
      | _, _ => none

/-- A step, with the id drawn in case it has none. -/
def readStep (drawn : String) (s : Members) : Step where
  id := match member s "id" with
    | some (.str id) => id
    | _ => drawn
  pos := membersOf (member s "pos")
  drawings := entriesOf (member s "drawings")
  members := spread newStepMembers s

/-- The objects of a document, in order. -/
def readObjects (src : Members) : List BoardObject :=
  (entriesOf (member src "objects")).filterMap readObject

/-- The entries of a document that are taken for steps. -/
def keptSteps (src : Members) : List Members :=
  (entriesOf (member src "steps")).filterMap asObject

/-- `emptyDoc`, with the id drawn for its step. -/
def emptyDoc (drawn : String) : TacticDoc :=
  ⟨basePitch, baseTeam, [], [newStep drawn]⟩

/-- The members `normalizeDoc` reads: an array has none of them. -/
def sourceOf : Json → Option Members
  | .obj members => some members
  | .arr _ => some []
  | _ => none

/-- `normalizeDoc`, with the ids that are drawn. -/
def normalizeDoc (newId : ℕ → String) (raw : Json) : TacticDoc :=
  let base := emptyDoc (newId 0)
  match sourceOf raw with
  | none => base
  | some src =>
      let teams := membersOf (member src "teams")
      let steps := (keptSteps src).mapIdx fun i s => readStep (newId (i + 1)) s
      { pitch := spread base.pitch (membersOf (member src "pitch"))
        teams := fun id => spread (base.teams id) (membersOf (member teams (teamName id)))
        objects := readObjects src
        steps := if steps = [] then base.steps else steps }

/-! ## Reading positions -/

/-- `pos[id]`, of the positions of a step, when it is truthy. -/
def standing (pos : Members) (id : String) : Option Held :=
  (get (.obj pos) id).filter Held.truthy

/-- The loop of `positionAt`, down from the last of some number of steps. -/
def latest (steps : List Step) (id : String) : ℕ → Option Held
  | 0 => none
  | i + 1 =>
      match steps[i]?.bind fun s => standing s.pos id with
      | some p => some p
      | none => latest steps id i

/-- `positionAt`: where an object stands at a step. -/
def positionAt (doc : TacticDoc) (stepIndex : ℤ) (id : String) : Option Held :=
  latest doc.steps id (Min.min stepIndex (doc.steps.length - 1) + 1).toNat

/-! ## The timeline -/

inductive SegmentKind
  | hold
  | move
  deriving DecidableEq, Repr

/-- `Segment`. -/
structure Segment where
  kind : SegmentKind
  /-- The step being held, or moved into. -/
  step : ℕ
  start : Number
  stop : Number
  deriving DecidableEq, Repr

/-- `Timeline`. -/
structure Timeline where
  segments : List Segment
  total : Number
  /-- When each step is reached. -/
  stepStarts : List Number
  deriving DecidableEq, Repr

section Running

variable [Implementation]

/-- The move into a step, from where the timeline ends. -/
def layMove (line : Timeline) (i : ℕ) (step : Step) : Except Thrown Timeline := do
  let duration ← toNumber step.duration
  let d := (finite (1 / 10)).max duration
  .ok { line with
    segments := line.segments ++ [⟨.move, i, line.total, line.total + d⟩]
    total := line.total + d }

/-- The pause on a step. -/
def layHold (line : Timeline) (i : ℕ) (step : Step) : Except Thrown Timeline := do
  let hold ← toNumber step.hold
  let h := (finite 0).max hold
  .ok { segments := line.segments ++ [⟨.hold, i, line.total, line.total + h⟩]
        total := line.total + h
        stepStarts := line.stepStarts ++ [line.total] }

/-- The steps from a number on: nothing moves into the first. -/
def lay (line : Timeline) : ℕ → List Step → Except Thrown Timeline
  | _, [] => .ok line
  | i, step :: steps => do
      let reached ← if 0 < i then layMove line i step else .ok line
      let held ← layHold reached i step
      lay held (i + 1) steps

/-- `timeline`. -/
def timeline (doc : TacticDoc) : Except Thrown Timeline := lay ⟨[], finite 0, []⟩ 0 doc.steps

/-! ## Geometry -/

/-- What a coordinate may hold: a number, a text that `+` made, or anything else that the
document has in its place. -/
inductive Coord
  | number (n : Number)
  | text (s : String)
  | held (v : Option Json)

namespace Coord

/-- A coordinate as the document has it. -/
def of : Option Json → Coord
  | some (.num n) => number (finite n.value)
  | v => held v

def toNumber : Coord → Except Thrown Number
  | held v => Js.toNumber v
  | number n => .ok n
  | text s => .ok (stringToNumber s)

/-- `a + n`: a number is appended to a text, and to an array or an object, which turn
into one. -/
def plus (a : Coord) (n : Number) : Except Thrown Coord :=
  match a with
  | held (some (.str s)) => .ok (text (s ++ numberText n))
  | held (some (.arr items)) => do
      let s ← toText (.arr items)
      .ok (text (s ++ numberText n))
  | held (some (.obj members)) => do
      let s ← toText (.obj members)
      .ok (text (s ++ numberText n))
  | text s => .ok (text (s ++ numberText n))
  | a => do
      let m ← a.toNumber
      .ok (number (m + n))

end Coord

/-- `Vec2`, as far as anything is known of it. -/
structure Vec2 where
  x : Coord
  y : Coord

/-- The coordinates of what was found for a position. -/
def vec (p : Held) : Vec2 := ⟨.of (p.index 0), .of (p.index 1)⟩

/-- `lerp`. -/
def lerp (a b : Coord) (t : Number) : Except Thrown Coord := do
  let m ← b.toNumber
  let n ← a.toNumber
  a.plus ((m - n) * t)

/-- `lerp2`. -/
def lerp2 (a b : Vec2) (t : Number) : Except Thrown Vec2 := do
  let x ← lerp a.x b.x t
  let y ← lerp a.y b.y t
  .ok ⟨x, y⟩

/-- `dist`. -/
def dist (a b : Vec2) : Except Thrown Number := do
  let xb ← b.x.toNumber
  let xa ← a.x.toNumber
  let yb ← b.y.toNumber
  let ya ← a.y.toNumber
  .ok (hypot (xb - xa) (yb - ya))

/-- One coordinate of `quad`. -/
def quadAxis (a c b : Coord) (t : Number) : Except Thrown Coord := do
  let u := finite 1 - t
  let an ← a.toNumber
  let cn ← c.toNumber
  let bn ← b.toNumber
  .ok (.number (u * u * an + finite 2 * u * t * cn + t * t * bn))

/-- `quad`: a point on the quadratic curve a → b bent towards c. -/
def quad (a c b : Vec2) (t : Number) : Except Thrown Vec2 := do
  let x ← quadAxis a.x c.x b.x t
  let y ← quadAxis a.y c.y b.y t
  .ok ⟨x, y⟩

/-- `easeInOut`. -/
def easeInOut (t : Number) : Number := -(cos (pi * t) - finite 1) / finite 2

/-- `easeOut`. -/
def easeOut (t : Number) : Number := finite 1 - (finite 1 - t) * (finite 1 - t)

/-! ## Frames -/

/-- `Placement`: where one object is in a frame. -/
structure Placement where
  x : Coord
  y : Coord
  h : Number
  appear : Number
  heading : Option Number

/-- `Frame`. -/
structure Frame where
  step : ℕ
  placements : Record Placement
  drawings : List Json
  drawingOpacity : Number
  highlights : Json
  note : Json

/-- `v ?? fallback`. -/
def nullish (v : Option Json) (fallback : Json) : Json :=
  match v with
  | none => fallback
  | some .null => fallback
  | some v => v

/-- An object that stands still at a position. -/
def Placement.still (p : Held) : Placement := ⟨(vec p).x, (vec p).y, finite 0, finite 1, none⟩

/-- `still`: every object standing still at a step. -/
def still (doc : TacticDoc) (step : ℤ) : Record Placement :=
  doc.objects.foldl
    (fun out obj => Record.assign out obj.id ((positionAt doc step obj.id).map .still)) ∅

/-- `bend?.[id]`, when it is truthy. -/
def bendOf (bend : Option Json) (id : String) : Option Held :=
  (bend.bind fun v => get v id).filter Held.truthy

/-- How high an object is on its way: a parabola whose peak scales with distance. -/
def height (air : Option Json) (id : String) (origin goal : Vec2) (p : Number) :
    Except Thrown Number := do
  let lofted ← includes air id
  if lofted then do
    let length ← dist origin goal
    let peak := (finite 14).min (length * finite (22 / 100))
    .ok (finite 4 * peak * p * (finite 1 - p))
  else .ok (finite 0)

/-- The direction from one point to another, when they are apart. -/
def headingTo (here ahead : Vec2) : Except Thrown (Option Number) := do
  let length ← dist here ahead
  if (finite (1 / 10000)).lt length then do
    let ay ← ahead.y.toNumber
    let hy ← here.y.toNumber
    let ax ← ahead.x.toNumber
    let hx ← here.x.toNumber
    .ok (some (Implementation.atan2 (ay - hy) (ax - hx)))
  else .ok none

/-- A point of the way between two positions. -/
def wayPoint (bend : Option Held) (origin goal : Vec2) (e : Number) : Except Thrown Vec2 :=
  match bend with
  | some c => quad origin (vec c) goal e
  | none => lerp2 origin goal e

/-- Where the way leads from a point of it. -/
def wayAhead (bend : Option Held) (origin goal : Vec2) (e : Number) : Except Thrown Vec2 :=
  match bend with
  | some c => quad origin (vec c) goal ((finite 1).min (e + finite (2 / 100)))
  | none => .ok goal

/-- How far an object has come on its way: the ball slows down, players start slowly too. -/
def eased (obj : BoardObject) (p : Number) : Number :=
  if obj.kind = "ball" then easeOut p else easeInOut p

/-- An object on its way between two positions. -/
def travel (target : Step) (obj : BoardObject) (origin goal : Vec2) (p : Number) :
    Except Thrown Placement := do
  let bend := bendOf target.bend obj.id
  let here ← wayPoint bend origin goal (eased obj p)
  let h ← height target.air obj.id origin goal p
  let ahead ← wayAhead bend origin goal (eased obj p)
  let heading ← headingTo here ahead
  .ok ⟨here.x, here.y, h, finite 1, heading⟩

/-- An object during the move into a step. -/
def moving (doc : TacticDoc) (into : ℕ) (target : Step) (p : Number) (obj : BoardObject) :
    Except Thrown (Option Placement) :=
  match positionAt doc into obj.id with
  | none => .ok none
  | some goal =>
      match positionAt doc (into - 1) obj.id with
      | none => .ok (some ⟨(vec goal).x, (vec goal).y, finite 0, easeOut p, none⟩)
      | some origin => some <$> travel target obj (vec origin) (vec goal) p

/-- The objects of a frame within a move. -/
def placeMoving (doc : TacticDoc) (into : ℕ) (target : Step) (p : Number) :
    Except Thrown (Record Placement) :=
  doc.objects.foldlM (fun out obj => do
    let placed ← moving doc into target p obj
    .ok (Record.assign out obj.id placed)) ∅

/-- The last segment that has started. -/
def started (line : Timeline) (t : Number) : Option Segment :=
  line.segments.foldl (fun seg s => if s.start.le (t + finite (1 / 10 ^ 9)) then some s else seg)
    none

/-- A frame of a pause. -/
def heldFrame (doc : TacticDoc) (step : ℕ) (elapsed : Number) : Frame where
  step := step
  placements := still doc step
  drawings := (doc.steps[step]?.map (·.drawings)).getD []
  drawingOpacity :=
    if step = 0 then finite 1 else (finite 1).min (elapsed / finite (3 / 10))
  highlights := nullish (doc.steps[step]?.bind (·.highlight)) (.arr [])
  note := nullish (doc.steps[step]?.bind (·.note)) (.str "")

/-- A frame of a move. -/
def movingFrame (doc : TacticDoc) (into : ℕ) (p : Number) : Except Thrown Frame :=
  match doc.steps[into]? with
  | none => .error .typeError
  | some target => do
      let placements ← placeMoving doc into target p
      .ok { step := into - 1
            placements
            drawings := (doc.steps[into - 1]?.map (·.drawings)).getD []
            drawingOpacity := finite 1 - easeInOut p
            highlights := nullish target.highlight (.arr [])
            note := target.note.getD .null }

/-- The loop of `stepAtTime`, over the steps from a number on. -/
def stepFrom (time : Number) : ℕ → ℕ → List Number → ℕ
  | current, _, [] => current
  | current, i, start :: starts =>
      stepFrom time (if (start - finite (1 / 10 ^ 6)).le time then i else current) (i + 1) starts

/-- `stepAtTime`: the step being held or moved into. -/
def stepAtTime (line : Timeline) (time : Number) : ℕ := stepFrom time 0 0 line.stepStarts

/-- The time a frame is drawn at: within the timeline. -/
def clampTime (line : Timeline) (time : Number) : Number :=
  (finite 0).max (line.total.min time)

/-- `frameAt`. -/
def frameAt (doc : TacticDoc) (line : Timeline) (time : Number) : Except Thrown Frame :=
  let t := clampTime line time
  match started line t with
  | none => .ok (heldFrame doc 0 (finite 0))
  | some seg =>
      match seg.kind with
      | .hold => .ok (heldFrame doc seg.step (t - seg.start))
      | .move => movingFrame doc seg.step ((t - seg.start) / (seg.stop - seg.start))

end Running

end ScoutPulse.Tactics.Opened
