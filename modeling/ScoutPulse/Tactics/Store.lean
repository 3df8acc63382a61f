import ScoutPulse.Lib.Layers
import ScoutPulse.Tactics.Model

/-!
# The editor's store

The document being edited, the step and the selection it is edited through, and the
documents that undo and redo go back to. Every change builds a new document. The ids an
operation draws are given to it.
-/

namespace ScoutPulse.Tactics

/-- `Target`: what a click landed on. -/
inductive Target
  | object (id : String)
  | drawing (id : String)
  deriving DecidableEq, Repr

/-- `DrawingChange`. -/
inductive DrawingChange
  | point (index : ℕ) (at_ : Vec2)
  | control (control : Vec2)
  | offset (offset : Vec2)
  deriving DecidableEq, Repr

/-- `Placeable`: what the place tool puts down. -/
inductive Placeable
  | player (team : TeamId) (keeper : Bool)
  | equipment (kind : EquipmentKind)
  deriving DecidableEq, Repr

/-- `Pen`: what a new drawing looks like. -/
structure Pen where
  color : String
  style : StrokeStyle
  width : ℚ
  deriving DecidableEq, Repr

/-- `HISTORY_LIMIT`. -/
def historyLimit : ℕ := 100

/-- `EditorStore`. -/
structure EditorStore where
  doc : TacticDoc
  stepIndex : ℕ := 0
  selection : Option Target := none
  tool : Tool := .select
  placing : Placeable := .player .home false
  pen : Pen := ⟨"#ffffff", .solid, defaultStroke⟩
  preview : Option Drawing := none
  dirty : Bool := false
  undoStack : List TacticDoc := []
  redoStack : List TacticDoc := []
  gestureOpen : Bool := false
  focusText : Option String := none
  deriving DecidableEq

/-- How a change ends: on its own, inside a drag, or as the last of one. -/
inductive Phase
  | once
  | move
  | finish
  deriving DecidableEq, Repr

/-- The phase of a change that may be the last of a drag. -/
def Phase.of (done : Bool) : Phase := if done then .finish else .move

namespace EditorStore

variable (s : EditorStore)

/-- `step`: the current step, else the first one. -/
def step : Step := s.doc.stepAt s.stepIndex

/-- `selectedObject`. -/
def selectedObject : Option BoardObject :=
  match s.selection with
  | some (.object id) => s.doc.objects.find? fun o => o.id = some id
  | _ => none

/-- `load`. The flag of an open gesture is left as it is. -/
def load (doc : TacticDoc) : EditorStore :=
  { s with
    doc := doc
    stepIndex := 0
    selection := none
    undoStack := []
    redoStack := []
    dirty := false }

/-- `markSaved`. -/
def markSaved : EditorStore := { s with dirty := false }

/-! ### History -/

/-- `apply`. -/
def apply (next : TacticDoc) (phase : Phase) : EditorStore :=
  { s with
    undoStack :=
      if s.gestureOpen then s.undoStack
      else s.undoStack.drop (s.undoStack.length - (historyLimit - 1)) ++ [s.doc]
    redoStack := if s.gestureOpen then s.redoStack else []
    gestureOpen := phase = .move
    doc := next
    dirty := true }

/-- Whether the selection names something that is there. -/
def selectionStands : Bool :=
  match s.selection with
  | none => true
  | some (.object id) => s.doc.objects.any fun o => o.id = some id
  | some (.drawing id) => s.step.drawings.any fun d => d.id = some id

/-- `afterHistory`. -/
def afterHistory : EditorStore :=
  let s := { s with
    gestureOpen := false
    dirty := true
    stepIndex := min s.stepIndex (s.doc.steps.length - 1) }
  { s with selection := if s.selectionStands then s.selection else none }

/-- `undo`. -/
def undo : EditorStore :=
  match s.undoStack.getLast? with
  | none => s
  | some doc =>
      afterHistory { s with
        redoStack := s.redoStack ++ [s.doc]
        doc := doc
        undoStack := s.undoStack.dropLast }

/-- `redo`. -/
def redo : EditorStore :=
  match s.redoStack.getLast? with
  | none => s
  | some doc =>
      afterHistory { s with
        undoStack := s.undoStack ++ [s.doc]
        doc := doc
        redoStack := s.redoStack.dropLast }

end EditorStore

/-! ### Small immutable helpers -/

/-- `withStep`. -/
def TacticDoc.withStep (doc : TacticDoc) (index : ℕ) (fn : Step → Step) : TacticDoc :=
  { doc with
    steps := doc.steps.mapIdx fun i s => if i = index then fn s else s
    steps_ne := by simpa using doc.steps_ne }

/-- The document with more objects at its end. -/
def TacticDoc.withObjects (doc : TacticDoc) (objects : List BoardObject) : TacticDoc :=
  { doc with objects := doc.objects ++ objects }

/-- `clean` on a text: an empty one is dropped. -/
def clean : Option String → Option String
  | some "" => none
  | text => text

/-- The value a patch leaves in a field. -/
def patched {α : Type} (old : α) (patch : Option α) : α := patch.getD old

/-- `Partial<BoardObject>`: a field that is patched may be patched to nothing. -/
structure ObjectPatch where
  id : Option (Option String) := none
  kind : Option ObjectKind := none
  team : Option (Option TeamId) := none
  keeper : Option (Option Bool) := none
  number : Option (Option String) := none
  name : Option (Option String) := none
  bib : Option (Option String) := none
  color : Option (Option String) := none
  color2 : Option (Option String) := none
  pattern : Option (Option KitPattern) := none
  size : Option (Option ℚ) := none
  rotation : Option (Option ℚ) := none
  deriving DecidableEq, Repr

/-- `clean({ ...o, ...patch })` on an object. No kind is the empty text. -/
def BoardObject.patch (o : BoardObject) (p : ObjectPatch) : BoardObject where
  id := clean (patched o.id p.id)
  kind := patched o.kind p.kind
  team := patched o.team p.team
  keeper := patched o.keeper p.keeper
  number := clean (patched o.number p.number)
  name := clean (patched o.name p.name)
  bib := clean (patched o.bib p.bib)
  color := clean (patched o.color p.color)
  color2 := clean (patched o.color2 p.color2)
  pattern := patched o.pattern p.pattern
  size := patched o.size p.size
  rotation := patched o.rotation p.rotation

/-- `Partial<Drawing>`. -/
structure DrawingPatch where
  id : Option (Option String) := none
  kind : Option Tool := none
  points : Option (List Vec2) := none
  control : Option (Option Vec2) := none
  style : Option (Option StrokeStyle) := none
  color : Option (Option String) := none
  width : Option (Option ℚ) := none
  text : Option (Option String) := none
  fill : Option (Option ℚ) := none
  deriving DecidableEq, Repr

/-- `clean({ ...d, ...patch })` on a drawing. No kind is the empty text. -/
def Drawing.patch (d : Drawing) (p : DrawingPatch) : Drawing where
  id := clean (patched d.id p.id)
  kind := patched d.kind p.kind
  points := patched d.points p.points
  control := patched d.control p.control
  style := patched d.style p.style
  color := clean (patched d.color p.color)
  width := patched d.width p.width
  text := clean (patched d.text p.text)
  fill := patched d.fill p.fill

/-- `Partial<Step>`. -/
structure StepPatch where
  id : Option String := none
  duration : Option ℚ := none
  hold : Option ℚ := none
  note : Option String := none
  pos : Option (Record Place) := none
  bend : Option (Option (Record Coords)) := none
  air : Option (Option (List String)) := none
  highlight : Option (Option (List String)) := none
  drawings : Option (List Drawing) := none
  deriving DecidableEq

/-- `{ ...s, ...patch }` on a step. -/
def Step.patch (s : Step) (p : StepPatch) : Step where
  id := patched s.id p.id
  duration := patched s.duration p.duration
  hold := patched s.hold p.hold
  note := patched s.note p.note
  pos := patched s.pos p.pos
  bend := patched s.bend p.bend
  air := patched s.air p.air
  highlight := patched s.highlight p.highlight
  drawings := patched s.drawings p.drawings

/-- `Partial<PitchSettings>`. -/
structure PitchPatch where
  layout : Option PitchLayout := none
  markings : Option PitchMarkings := none
  style : Option PitchStyle := none
  stadium : Option Bool := none
  deriving DecidableEq, Repr

/-- `{ ...pitch, ...patch }`. -/
def PitchSettings.patch (pitch : PitchSettings) (p : PitchPatch) : PitchSettings :=
  ⟨patched pitch.layout p.layout, patched pitch.markings p.markings,
    patched pitch.style p.style, patched pitch.stadium p.stadium⟩

/-- `Partial<Kit>`. -/
structure KitPatch where
  name : Option String := none
  primary : Option String := none
  secondary : Option String := none
  pattern : Option KitPattern := none
  numbers : Option String := none
  keeper : Option String := none
  deriving DecidableEq, Repr

/-- `{ ...kit, ...patch }`. -/
def Kit.patch (kit : Kit) (p : KitPatch) : Kit :=
  ⟨patched kit.name p.name, patched kit.primary p.primary, patched kit.secondary p.secondary,
    patched kit.pattern p.pattern, patched kit.numbers p.numbers, patched kit.keeper p.keeper⟩

/-- `{ ...teams, [team]: { ...teams[team], ...patch } }`. -/
def Kits.patch (teams : Kits) (team : TeamId) (p : KitPatch) : Kits :=
  match team with
  | .home => { teams with home := teams.home.patch p }
  | .away => { teams with away := teams.away.patch p }
  | .third => { teams with third := teams.third.patch p }

/-- `controlThrough`: the control point of a curve through `m` at its middle. -/
def controlThrough (a m b : Vec2) : Vec2 :=
  ⟨2 * m.x - (a.x + b.x) / 2, 2 * m.y - (a.y + b.y) / 2⟩

/-- The square of the distance between two points. -/
def distSquared (a b : Vec2) : ℚ := (b.x - a.x) ^ 2 + (b.y - a.y) ^ 2

/-- `thin`: drops samples closer than some distance to the last kept one. -/
def thin (points : List Vec2) (least : ℚ) : List Vec2 :=
  match points with
  | [] => []
  | first :: _ =>
      points.foldl (fun out p =>
        if least ^ 2 ≤ distSquared (out.getLast?.getD first) p then out ++ [p] else out) [first]

/-! ### What each operation makes of a step -/

/-- `air` or `highlight`. -/
inductive Listing
  | air
  | highlight
  deriving DecidableEq, Repr

namespace Step

variable (s : Step)

/-- The step with an object placed in it. -/
def put (id : String) (at_ : Coords) : Step := { s with pos := s.pos.insert id (.own at_) }

/-- The step with the path of an object bent. -/
def bent (id : String) (control : Coords) : Step :=
  { s with bend := some ((s.bend.getD ∅).insert id control) }

/-- The step with the path of an object straight. -/
def straight (id : String) : Step := { s with bend := some ((s.bend.getD ∅).erase id) }

/-- A list with an id in or out. -/
def toggled (current : List String) (id : String) : List String :=
  if id ∈ current then current.filter (· ≠ id) else current ++ [id]

/-- The step with an id toggled in one of its lists. -/
def toggle (listing : Listing) (id : String) : Step :=
  match listing with
  | .air => { s with air := some (toggled (s.air.getD []) id) }
  | .highlight => { s with highlight := some (toggled (s.highlight.getD []) id) }

/-- The step without an object. -/
def strip (id : String) : Step :=
  { s with
    pos := s.pos.erase id
    bend := s.bend.map (·.erase id)
    air := s.air.map (·.filter (· ≠ id))
    highlight := s.highlight.map (·.filter (· ≠ id)) }

/-- `duplicateStep` on the step it copies: nothing moves into the copy. -/
def copy (drawn : ℕ → String) : Step :=
  { s with
    id := drawn 0
    pos := ∅
    bend := none
    air := none
    drawings := s.drawings.mapIdx fun k d => { d with id := some (drawn (k + 1)) } }

/-- The step with other drawings. -/
def draw (fn : List Drawing → List Drawing) : Step := { s with drawings := fn s.drawings }

end Step

/-- `editDrawing` on the drawing it is for. A curve of no points cannot be bent. -/
def Drawing.change (d : Drawing) : DrawingChange → Option Drawing
  | .offset ⟨dx, dy⟩ => some { d with
      points := d.points.map fun p => ⟨p.x + dx, p.y + dy⟩
      control := d.control.map fun p => ⟨p.x + dx, p.y + dy⟩ }
  | .control mid =>
      match d.points.head?, d.points.getLast? with
      | some a, some b => some { d with control := some (controlThrough a mid b) }
      | _, _ => none
  | .point index at_ => some { d with
      points := d.points.mapIdx fun i p => if i = index then at_ else p }

/-- `!q || q[0] !== p[0] || q[1] !== p[1]`: what is no number differs from itself, and two
values that have no coordinates do not. -/
def differs : Option Place → Place → Bool
  | some (.own (some a)), .own (some b) => a.x ≠ b.x || a.y ≠ b.y
  | some .inherited, .inherited => false
  | _, _ => true

/-- `pos[id] = p`. Under the name `__proto__` nothing is stored: the assignment makes a
position the prototype of `pos`, which is not followed here. -/
def setPosition (pos : Record Place) (id : String) (p : Place) : Record Place :=
  if id = "__proto__" then pos else pos.insert id p

/-! ### What each operation makes of a document -/

namespace TacticDoc

variable (doc : TacticDoc)

/-- The ids of the players of a team. -/
def players (team : TeamId) : List (Option String) :=
  (doc.objects.filter fun o => o.kind = .player ∧ o.team = some team).map (·.id)

/-- The document without an object. -/
def withoutObject (id : String) : TacticDoc :=
  { doc with
    objects := doc.objects.filter fun o => o.id ≠ some id
    steps := doc.steps.map (·.strip id)
    steps_ne := by simpa using doc.steps_ne }

/-- The document without some objects and their positions. -/
def withoutObjects (gone : List (Option String)) : TacticDoc :=
  { doc with
    objects := doc.objects.filter fun o => !gone.contains o.id
    steps := doc.steps.map fun s =>
      { s with pos := s.pos.select fun id _ => !gone.contains (some id) }
    steps_ne := by simpa using doc.steps_ne }

theorem insertIdx_steps_ne (at_ : ℕ) (step : Step) : doc.steps.insertIdx at_ step ≠ [] := by
  have least := List.length_le_length_insertIdx (l := doc.steps) (i := at_) (x := step)
  have some_ := List.length_pos_iff.mpr doc.steps_ne
  apply List.ne_nil_of_length_pos
  omega

/-- The document with another step put in. -/
def insertStep (at_ : ℕ) (step : Step) : TacticDoc :=
  { doc with
    steps := doc.steps.insertIdx at_ step
    steps_ne := doc.insertIdx_steps_ne at_ step }

/-- The places of the steps with one of them moved. -/
def order (from_ to_ : ℕ) : List ℕ := Layers.moved (List.range doc.steps.length) from_ to_

/-- Where everything stands before a place of an order. -/
def before (order : List ℕ) (k : ℕ) : Places :=
  if 0 < k then
    match order[k - 1]? with
    | some at_ => positionsAt doc at_
    | none => ∅
  else ∅

/-- The step moved to a place of an order: what differs from the step now before it. -/
def resettled (order : List ℕ) (k at_ : ℕ) : Step :=
  let before := doc.before order k
  { doc.stepAt at_ with
    pos := (positionsAt doc at_).entries.foldl (fun pos e =>
      if differs (before.lookup e.1) e.2 then setPosition pos (idKey e.1) e.2 else pos) ∅ }

theorem order_length {from_ to_ : ℕ} (inside : to_ < doc.steps.length) :
    (doc.order from_ to_).length = doc.steps.length := by
  rw [order, Layers.length_moved (by simpa using inside), List.length_range]

/-- The document with the steps in another order. -/
def reorder (from_ to_ : ℕ) (inside : to_ < doc.steps.length) : TacticDoc :=
  let order := doc.order from_ to_
  { doc with
    steps := order.mapIdx (doc.resettled order)
    steps_ne := by
      apply List.ne_nil_of_length_pos
      rw [List.length_mapIdx, doc.order_length inside]
      omega }

/-- The document without a step, which is merged under the next one. -/
def removeStep (i : ℕ) (more : 1 < doc.steps.length) : TacticDoc :=
  let removed := doc.stepAt i
  { doc with
    steps := (doc.steps.eraseIdx i).modify i fun next =>
      { next with pos := next.pos ∪ removed.pos }
    steps_ne := by
      apply List.ne_nil_of_length_pos
      rw [List.length_modify, List.length_eraseIdx]
      split <;> omega }

end TacticDoc

namespace EditorStore

variable (s : EditorStore)

/-- `withCurrentStep`. -/
def withCurrentStep (fn : Step → Step) : TacticDoc := s.doc.withStep s.stepIndex fn

/-- The selection when it is not a drawing. -/
def withoutDrawing : Option Target :=
  match s.selection with
  | some (.drawing _) => none
  | selection => selection

/-! ### Objects -/

/-- The object `place` puts down. -/
def placed (at_ : Vec2) (drawn : String) : BoardObject :=
  match s.placing with
  | .player team keeper =>
      { id := some drawn
        kind := .player
        team := some team
        keeper := if keeper then some true else none
        number := some (if keeper then "1" else nextNumber s.doc team) }
  | .equipment kind =>
      { id := some drawn
        kind := .equipment kind
        color := if kind = .ball then none else some (equipmentColors kind)
        rotation :=
          if kind = .goal ∨ kind = .minigoal ∨ kind = .popup then
            some (if 0 < at_.x then 0 else 180)
          else none }

/-- `place`. -/
def place (at_ : Vec2) (drawn : String) : EditorStore :=
  let doc := (s.doc.withObjects [s.placed at_ drawn]).withStep s.stepIndex
    (·.put drawn (some at_))
  { s.apply doc .once with selection := some (.object drawn) }

/-- `moveObject`. -/
def moveObject (id : String) (at_ : Coords) (done : Bool) : EditorStore :=
  let rounded : Coords :=
    at_.map fun p => ⟨mathRound (p.x * 100) / 100, mathRound (p.y * 100) / 100⟩
  s.apply (s.withCurrentStep (·.put id rounded)) (.of done)

/-- `controlThrough` between two places: without coordinates its own are no numbers. -/
def controlBetween (from_ : Place) (mid : Vec2) (to_ : Place) : Coords :=
  from_.coords.bind fun a => to_.coords.map fun b => controlThrough a mid b

/-- `bend`: nothing happens where the object does not move into the step. -/
def bend (id : String) (mid : Vec2) (done : Bool) : EditorStore :=
  match positionAt s.doc (s.stepIndex - 1) id,
    s.doc.steps[s.stepIndex]?.bind (·.stands id) with
  | some from_, some to_ =>
      s.apply (s.withCurrentStep (·.bent id (controlBetween from_ mid to_))) (.of done)
  | _, _ => s

/-- `straighten`. -/
def straighten (id : String) : EditorStore := s.apply (s.withCurrentStep (·.straight id)) .once

/-- `updateObject`. -/
def updateObject (id : String) (patch : ObjectPatch) : EditorStore :=
  s.apply { s.doc with
    objects := s.doc.objects.map fun o => if o.id = some id then o.patch patch else o } .once

/-- `toggleIn`. -/
def toggleIn (listing : Listing) (id : String) : EditorStore :=
  s.apply (s.withCurrentStep (·.toggle listing id)) .once

/-- The copy `duplicateSelection` makes of an object. -/
def copied (obj : BoardObject) (drawn : String) : BoardObject :=
  match obj.kind, obj.team with
  | .player, some team =>
      { obj with
        id := some drawn
        number := some (nextNumber s.doc team) }
  | _, _ => { obj with id := some drawn }

/-- `duplicateSelection`. -/
def duplicateSelection (drawn : String) : EditorStore :=
  match s.selectedObject with
  | none => s
  | some obj =>
      match positionAt s.doc s.stepIndex (idKey obj.id) with
      | none => s
      | some at_ =>
          let doc := (s.doc.withObjects [s.copied obj drawn]).withStep s.stepIndex
            (·.put drawn (at_.coords.map fun p => ⟨p.x + 3, p.y + 2⟩))
          { s.apply doc .once with selection := some (.object drawn) }

/-- `deleteSelection`. -/
def deleteSelection : EditorStore :=
  match s.selection with
  | none => s
  | some (.object id) =>
      { s.apply (s.doc.withoutObject id) .once with selection := none }
  | some (.drawing id) =>
      let doc := s.withCurrentStep (·.draw fun drawings => drawings.filter fun d => d.id ≠ some id)
      { s.apply doc .once with selection := none }

/-- `addFormation`. -/
def addFormation (name : String) (team : TeamId) (side : Side) (drawn : ℕ → String) :
    EditorStore :=
  let added := formation name team side drawn
  s.apply ((s.doc.withObjects added.1).withStep s.stepIndex fun step =>
    { step with pos := added.2 ∪ step.pos }) .once

/-- `removeTeam`. -/
def removeTeam (team : TeamId) : EditorStore :=
  let gone := s.doc.players team
  if gone = [] then s
  else { s.apply (s.doc.withoutObjects gone) .once with selection := none }

/-! ### Drawings -/

/-- What `stroke` draws so far. -/
def draft (points : List Vec2) : Drawing where
  id := some "preview"
  kind := s.tool
  points := points
  color := some s.pen.color
  width := some s.pen.width
  style := some (if s.tool = .draw .arrow ∨ s.tool = .draw .line ∨ s.tool = .draw .pen
    then s.pen.style else .solid)

/-- Whether a finished stroke is a drawing and not a click. -/
def drawnEnough (points : List Vec2) : Bool :=
  match points.head?, points.getLast? with
  | some a, some b =>
      if s.tool = .draw .polygon then 3 ≤ points.length else (8 / 10) ^ 2 ≤ distSquared a b
  | _, _ => false

/-- `stroke`: a stroke from a drawing tool, shown while drawing and kept on release. -/
def stroke (points : List Vec2) (done : Bool) (drawn : String) : EditorStore :=
  if done then
    let s := { s with preview := none }
    if s.drawnEnough points then
      let committed := { s.draft points with
        id := some drawn
        points := if s.tool = .draw .pen then thin points (1 / 4) else points
        fill := if s.tool = .draw .rect ∨ s.tool = .draw .ellipse ∨ s.tool = .draw .polygon
          then some (22 / 100) else none }
      { s.apply (s.withCurrentStep (·.draw (· ++ [committed]))) .once with
        selection := some (.drawing drawn) }
    else s
  else
    { s with
      preview := if 1 < points.length ∨ s.tool = .draw .polygon then some (s.draft points)
        else none }

/-- `placeText`. -/
def placeText (at_ : Vec2) (drawn : String) : EditorStore :=
  let d : Drawing :=
    { id := some drawn
      kind := .draw .text
      points := [at_]
      color := some s.pen.color
      width := some defaultStroke
      text := some "Text" }
  { s.apply (s.withCurrentStep (·.draw (· ++ [d]))) .once with
    selection := some (.drawing drawn)
    tool := .select
    focusText := some drawn }

/-- `editDrawing`. -/
def editDrawing (id : String) (change : DrawingChange) (done : Bool) : EditorStore :=
  match s.step.drawings.mapM fun d => if d.id = some id then d.change change else some d with
  | none => s
  | some drawings => s.apply (s.withCurrentStep (·.draw fun _ => drawings)) (.of done)

/-- `updateDrawing`. -/
def updateDrawing (id : String) (patch : DrawingPatch) : EditorStore :=
  s.apply (s.withCurrentStep (·.draw fun drawings =>
    drawings.map fun d => if d.id = some id then d.patch patch else d)) .once

/-! ### Steps -/

/-- The index of a step that is nearest to another. -/
def nearest (i : ℤ) : ℤ := max 0 (min (s.doc.steps.length - 1) i)

theorem nearest_lt (i : ℤ) : (s.nearest i).toNat < s.doc.steps.length := by
  have some_ := List.length_pos_iff.mpr s.doc.steps_ne
  rw [nearest]
  omega

/-- `goToStep`. -/
def goToStep (i : ℤ) : EditorStore :=
  { s with
    stepIndex := (s.nearest i).toNat
    selection := s.withoutDrawing }

/-- `addStep`: a step after the current one, where everything stands as it did. -/
def addStep (drawn : String) : EditorStore :=
  let at_ := s.stepIndex + 1
  { s.apply (s.doc.insertStep at_ (newStep drawn)) .once with
    stepIndex := at_
    selection := s.withoutDrawing }

/-- `duplicateStep`: a copy of the current step right after it. -/
def duplicateStep (drawn : ℕ → String) : EditorStore :=
  let i := s.stepIndex
  { s.apply (s.doc.insertStep (i + 1) ((s.doc.stepAt i).copy drawn)) .once with
    stepIndex := i + 1
    selection := s.withoutDrawing }

/-- `moveStep`: moves a step to another place in the order and follows it there. -/
def moveStep (from_ to_ : ℤ) : EditorStore :=
  if from_ = s.nearest to_ ∨ from_ < 0 ∨ s.doc.steps.length ≤ from_ then s
  else
    let doc := s.doc.reorder from_.toNat (s.nearest to_).toNat (s.nearest_lt to_)
    { s.apply doc .once with
      stepIndex := (s.nearest to_).toNat
      selection := s.withoutDrawing }

/-- `deleteStep`: what the current step set is carried into the next one. -/
def deleteStep : EditorStore :=
  if more : s.doc.steps.length ≤ 1 then s
  else
    let i := s.stepIndex
    let doc := s.doc.removeStep i (by omega)
    { s.apply doc .once with
      stepIndex := min i (doc.steps.length - 1)
      selection := none }

/-- `updateStep`. -/
def updateStep (patch : StepPatch) : EditorStore :=
  s.apply (s.withCurrentStep (·.patch patch)) .once

/-! ### Board settings -/

/-- `setPitch`. -/
def setPitch (patch : PitchPatch) : EditorStore :=
  s.apply { s.doc with pitch := s.doc.pitch.patch patch } .once

/-- `setKit`. -/
def setKit (team : TeamId) (patch : KitPatch) : EditorStore :=
  s.apply { s.doc with teams := s.doc.teams.patch team patch } .once

/-- `clearBoard`. -/
def clearBoard (drawn : String) : EditorStore :=
  let doc : TacticDoc := { s.doc with
    objects := []
    steps := [newStep drawn]
    steps_ne := newSteps_ne drawn }
  { s.apply doc .once with
    stepIndex := 0
    selection := none }

end EditorStore

/-! ### Operations -/

/-- The calls on the store that are not part of a drag. -/
inductive Op
  | markSaved
  | undo
  | redo
  | select (target : Option Target)
  | pick (tool : Tool)
  | choose (placing : Placeable)
  | ink (pen : Pen)
  | clearPreview
  | focused
  | place (at_ : Vec2) (drawn : String)
  | moveObject (id : String) (at_ : Vec2)
  | bend (id : String) (mid : Vec2)
  | straighten (id : String)
  | updateObject (id : String) (patch : ObjectPatch)
  | toggleIn (listing : Listing) (id : String)
  | duplicateSelection (drawn : String)
  | deleteSelection
  | addFormation (name : String) (team : TeamId) (side : Side) (drawn : ℕ → String)
  | removeTeam (team : TeamId)
  | stroke (points : List Vec2) (done : Bool) (drawn : String)
  | placeText (at_ : Vec2) (drawn : String)
  | editDrawing (id : String) (change : DrawingChange)
  | updateDrawing (id : String) (patch : DrawingPatch)
  | goToStep (i : ℤ)
  | addStep (drawn : String)
  | duplicateStep (drawn : ℕ → String)
  | moveStep (from_ to_ : ℤ)
  | deleteStep
  | updateStep (patch : StepPatch)
  | setPitch (patch : PitchPatch)
  | setKit (team : TeamId) (patch : KitPatch)
  | clearBoard (drawn : String)

/-- What a call makes of the store. -/
def EditorStore.perform (s : EditorStore) : Op → EditorStore
  | .markSaved => s.markSaved
  | .undo => s.undo
  | .redo => s.redo
  | .select target => { s with selection := target }
  | .pick tool => { s with tool := tool }
  | .choose placing => { s with placing := placing }
  | .ink pen => { s with pen := pen }
  | .clearPreview => { s with preview := none }
  | .focused => { s with focusText := none }
  | .place at_ drawn => s.place at_ drawn
  | .moveObject id at_ => s.moveObject id (some at_) true
  | .bend id mid => s.bend id mid true
  | .straighten id => s.straighten id
  | .updateObject id patch => s.updateObject id patch
  | .toggleIn listing id => s.toggleIn listing id
  | .duplicateSelection drawn => s.duplicateSelection drawn
  | .deleteSelection => s.deleteSelection
  | .addFormation name team side drawn => s.addFormation name team side drawn
  | .removeTeam team => s.removeTeam team
  | .stroke points done drawn => s.stroke points done drawn
  | .placeText at_ drawn => s.placeText at_ drawn
  | .editDrawing id change => s.editDrawing id change true
  | .updateDrawing id patch => s.updateDrawing id patch
  | .goToStep i => s.goToStep i
  | .addStep drawn => s.addStep drawn
  | .duplicateStep drawn => s.duplicateStep drawn
  | .moveStep from_ to_ => s.moveStep from_ to_
  | .deleteStep => s.deleteStep
  | .updateStep patch => s.updateStep patch
  | .setPitch patch => s.setPitch patch
  | .setKit team patch => s.setKit team patch
  | .clearBoard drawn => s.clearBoard drawn

end ScoutPulse.Tactics
