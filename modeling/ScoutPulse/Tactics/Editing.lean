import ScoutPulse.Tactics.Edited

/-!
# The store of the editor on a loaded board

The state of the store and every call on it, as one machine. A run may load any JSON value,
any number of times; a call that throws is no step.
-/

namespace ScoutPulse.Tactics.Loaded

open Js Js.Number Opened

section Store

variable [Implementation] [Literals]

/-! ## The store -/

/-- `EditorStore`: its document, its history, and what an operation on the document reads. -/
structure Editor where
  doc : Doc
  stepIndex : ℕ := 0
  selection : Option Target := none
  tool : Tool := .select
  placing : Placeable := .player .home false
  pen : Pen := ⟨"#ffffff", .solid, defaultStroke⟩
  undoStack : List Doc := []
  redoStack : List Doc := []
  gestureOpen : Bool := false

namespace Editor

variable (s : Editor)

/-- `load`. -/
def load (doc : Doc) : Editor :=
  { s with
    doc := doc
    stepIndex := 0
    selection := none
    undoStack := []
    redoStack := [] }

/-- `apply`. -/
def apply (next : Doc) (phase : Phase) : Editor :=
  { s with
    undoStack :=
      if s.gestureOpen then s.undoStack
      else s.undoStack.drop (s.undoStack.length - (historyLimit - 1)) ++ [s.doc]
    redoStack := if s.gestureOpen then s.redoStack else []
    gestureOpen := phase = .move
    doc := next }

/-- `apply`, when the document could be made. -/
def applied (next : Except Thrown Doc) (phase : Phase) : Except Thrown Editor := do
  let doc ← next
  .ok (s.apply doc phase)

/-- Whether the selection names something that is there. -/
def selectionStands : Except Thrown Bool :=
  match s.selection with
  | none => .ok true
  | some (.object id) => .ok (s.doc.objects.any fun o => idOf o = some id)
  | some (.drawing id) =>
      match s.doc.steps[s.stepIndex]?.or s.doc.steps.head? with
      | none => .error .typeError
      | some step => (entriesOf (step.field "drawings")).anyM (isDrawing id)

/-- `afterHistory`. If the look at the drawings throws, the selection is left. -/
def afterHistory : Editor :=
  let s := { s with
    gestureOpen := false
    stepIndex := Min.min s.stepIndex (s.doc.steps.length - 1) }
  match s.selectionStands with
  | .ok false => { s with selection := none }
  | _ => s

/-- `undo`. -/
def undo : Editor :=
  match s.undoStack.getLast? with
  | none => s
  | some doc =>
      afterHistory { s with
        redoStack := s.redoStack ++ [s.doc]
        doc := doc
        undoStack := s.undoStack.dropLast }

/-- `redo`. -/
def redo : Editor :=
  match s.redoStack.getLast? with
  | none => s
  | some doc =>
      afterHistory { s with
        undoStack := s.undoStack ++ [s.doc]
        doc := doc
        redoStack := s.redoStack.dropLast }

/-- `withCurrentStep`. -/
def withCurrentStep (fn : Fields → Except Thrown Fields) : Except Thrown Doc :=
  s.doc.withStep s.stepIndex fn

/-- The selection when it is not a drawing. -/
def keptSelection : Option Target :=
  match s.selection with
  | some (.drawing _) => none
  | selection => selection

/-- The object `place` puts down. -/
def placed (at_ : Vec2) (drawn : String) : Object :=
  match s.placing with
  | .player team keeper =>
      Properties.ofList ([("id", .str drawn), ("kind", .str "player"),
        ("team", .str (teamName team))] ++
        (if keeper then [("keeper", .bool true)] else []) ++
        [("number", .str (if keeper then "1"
          else nextNumber s.doc (some (.str (teamName team))) fun _ => false))])
  | .equipment kind =>
      Properties.ofList ([("id", .str drawn), ("kind", .str (equipmentText kind))] ++
        (if kind = .ball then [] else [("color", .str (equipmentColors kind))]) ++
        (if kind = .goal ∨ kind = .minigoal ∨ kind = .popup then
          [("rotation", numberJson (finite (if 0 < at_.x then 0 else 180)))]
        else []))

/-- `place`. -/
def place (at_ : Vec2) (drawn : String) : Except Thrown Editor := do
  let doc ← (s.doc.withObjects [s.placed at_ drawn]).withStep s.stepIndex fun step =>
    .ok (putPosition step drawn (pointJson at_))
  .ok { s.apply doc .once with selection := some (.object drawn) }

/-- `moveObject`. -/
def moveObject (id : String) (at_ : Vec2) (done : Bool) : Except Thrown Editor :=
  let rounded : Vec2 := ⟨mathRound (at_.x * 100) / 100, mathRound (at_.y * 100) / 100⟩
  s.applied (s.withCurrentStep fun step => .ok (putPosition step id (pointJson rounded)))
    (.of done)

/-- `bend`: nothing happens where the object does not move into the step. -/
def bend (id : String) (mid : Vec2) (done : Bool) : Except Thrown Editor :=
  match positionAt s.doc (s.stepIndex - 1) id,
    s.doc.steps[s.stepIndex]?.bind fun step => standing (viewStep step).pos id with
  | some from_, some to_ => do
      let control ← controlThrough from_ mid to_
      s.applied (s.withCurrentStep fun step => .ok (bendPath step id control)) (.of done)
  | _, _ => .ok s

/-- `straighten`. -/
def straighten (id : String) : Except Thrown Editor :=
  s.applied (s.withCurrentStep fun step => .ok (straightenPath step id)) .once

/-- `updateObject`. -/
def updateObject (id : String) (patch : ObjectPatch) : Editor :=
  s.apply (s.doc.updateObject id patch.members) .once

/-- `toggleIn`. -/
def toggleIn (listing : Listing) (id : String) : Except Thrown Editor :=
  s.applied (s.withCurrentStep fun step => do
    let items ← toggled (step.field (listingText listing)) id
    .ok (step.put (listingText listing) (some (.arr items)))) .once

/-- The copy `duplicateSelection` makes of an object. -/
def copied (o : Object) (drawn : String) (one : ℕ → Bool) : Object :=
  let copy := o.put "id" (.str drawn)
  if isText (o.get? "kind") "player" then
    match (o.get? "team").filter truthy with
    | some team => copy.put "number" (.str (nextNumber s.doc (some team) one))
    | none => copy
  else copy

/-- `duplicateSelection`. -/
def duplicateSelection (drawn : String) (one : ℕ → Bool) : Except Thrown Editor :=
  match s.selection with
  | some (.object id) =>
      match s.doc.objects.find? fun o => idOf o = some id with
      | none => .ok s
      | some o =>
          match positionAt s.doc s.stepIndex id with
          | none => .ok s
          | some at_ => do
              let x ← (Coord.of (at_.index 0)).plus (finite 3)
              let y ← (Coord.of (at_.index 1)).plus (finite 2)
              let doc ← (s.doc.withObjects [s.copied o drawn one]).withStep s.stepIndex fun step =>
                .ok (putPosition step drawn (.arr [coordJson x, coordJson y]))
              .ok { s.apply doc .once with selection := some (.object drawn) }
  | _ => .ok s

/-- `deleteSelection`. -/
def deleteSelection : Except Thrown Editor :=
  match s.selection with
  | none => .ok s
  | some (.object id) => do
      let doc ← s.doc.withoutObject id
      .ok { s.apply doc .once with selection := none }
  | some (.drawing id) => do
      let doc ← s.withCurrentStep (Loaded.withoutDrawing id)
      .ok { s.apply doc .once with selection := none }

/-- `addFormation`. -/
def addFormation (name : String) (team : TeamId) (side : Side) (drawn : ℕ → String) :
    Except Thrown Editor :=
  let added := formation name team side drawn
  s.applied ((s.doc.withObjects added.1).withStep s.stepIndex fun step =>
    let pos := (Properties.ofList (spreadOf (step.field "pos"))).assign added.2.entries
    .ok (step.put "pos" (some (Object.json pos)))) .once

/-- `removeTeam`. -/
def removeTeam (team : TeamId) : Editor :=
  let gone := s.doc.players team
  if gone = [] then s
  else { s.apply (s.doc.withoutObjects gone) .once with selection := none }

/-- Whether a stroke from one point to another is a click without a drag. -/
def isClick (points : List Vec2) (a b : Vec2) : Bool :=
  if s.tool = .draw .polygon then points.length < 3 else distSquared a b < (8 / 10) ^ 2

/-- The drawing a stroke leaves. -/
def committed (points : List Vec2) (drawn : String) : Json :=
  let kept := if s.tool = .draw .pen then thin points (1 / 4) else points
  let style := if s.tool = .draw .arrow ∨ s.tool = .draw .line ∨ s.tool = .draw .pen
    then s.pen.style else .solid
  .obj ([("id", .str drawn), ("kind", .str (toolText s.tool)),
    ("points", .arr (kept.map pointJson)), ("color", .str s.pen.color),
    ("width", numberJson (finite s.pen.width)), ("style", .str (styleText style))] ++
    if s.tool = .draw .rect ∨ s.tool = .draw .ellipse ∨ s.tool = .draw .polygon
      then [("fill", numberJson (finite (22 / 100)))] else [])

/-- `stroke`: a stroke from a drawing tool, kept on release. -/
def stroke (points : List Vec2) (done : Bool) (drawn : String) : Except Thrown Editor :=
  if done then
    match points.head?, points.getLast? with
    | some a, some b =>
        if s.isClick points a b then .ok s
        else do
          let doc ← s.withCurrentStep fun step =>
            .ok (draw step (entriesOf (step.field "drawings") ++ [s.committed points drawn]))
          .ok { s.apply doc .once with selection := some (.drawing drawn) }
    | _, _ => .error .typeError
  else .ok s

/-- `placeText`. -/
def placeText (at_ : Vec2) (drawn : String) : Except Thrown Editor := do
  let d : Json := .obj [("id", .str drawn), ("kind", .str "text"),
    ("points", .arr [pointJson at_]), ("color", .str s.pen.color),
    ("width", numberJson (finite defaultStroke)), ("text", .str "Text")]
  let doc ← s.withCurrentStep fun step =>
    .ok (draw step (entriesOf (step.field "drawings") ++ [d]))
  .ok { s.apply doc .once with
    selection := some (.drawing drawn)
    tool := .select }

/-- `editDrawing`. -/
def editDrawing (id : String) (change : DrawingChange) (done : Bool) : Except Thrown Editor :=
  s.applied (s.withCurrentStep (onDrawings id fun d => changeDrawing d change)) (.of done)

/-- `updateDrawing`. -/
def updateDrawing (id : String) (patch : List (String × Option Json)) : Except Thrown Editor :=
  s.applied (s.withCurrentStep (onDrawings id fun d => .ok (clean (d.present.assign patch)))) .once

/-- The index of a step that is nearest to another. -/
def nearest (i : ℤ) : ℤ := Max.max 0 (Min.min ((s.doc.steps.length : ℤ) - 1) i)

/-- `goToStep`. -/
def goToStep (i : ℤ) : Editor :=
  { s with
    stepIndex := (s.nearest i).toNat
    selection := s.keptSelection }

/-- `addStep`. -/
def addStep (drawn : String) : Editor :=
  let at_ := s.stepIndex + 1
  { s.apply (s.doc.insertStep at_ (newStep drawn)) .once with
    stepIndex := at_
    selection := s.keptSelection }

/-- `duplicateStep`: a copy of the current step right after it. -/
def duplicateStep (drawn : ℕ → String) : Except Thrown Editor :=
  match s.doc.steps[s.stepIndex]? with
  | none => .error .typeError
  | some step =>
      .ok { s.apply (s.doc.insertStep (s.stepIndex + 1) (copyStep drawn step)) .once with
        stepIndex := s.stepIndex + 1
        selection := s.keptSelection }

/-- `moveStep`. -/
def moveStep (from_ to_ : ℤ) (one : ℕ → ℕ → Bool) : Editor :=
  if from_ = s.nearest to_ ∨ from_ < 0 ∨ s.doc.steps.length ≤ from_ then s
  else
    { s.apply (s.doc.reorder from_.toNat (s.nearest to_).toNat one) .once with
      stepIndex := (s.nearest to_).toNat
      selection := s.keptSelection }

/-- `deleteStep`. -/
def deleteStep : Editor :=
  if s.doc.steps.length ≤ 1 then s
  else
    let doc := s.doc.removeStep s.stepIndex
    { s.apply doc .once with
      stepIndex := Min.min s.stepIndex (doc.steps.length - 1)
      selection := none }

/-- `updateStep`. -/
def updateStep (patch : StepPatch) : Except Thrown Editor :=
  s.applied (s.withCurrentStep fun step => .ok (step.assign patch.members)) .once

/-- `setPitch`. -/
def setPitch (patch : List (String × Json)) : Editor :=
  s.apply { s.doc with pitch := s.doc.pitch.assign patch } .once

/-- `setKit`. -/
def setKit (team : TeamId) (patch : List (String × Json)) : Editor :=
  s.apply (s.doc.patchKit team patch) .once

/-- `clearBoard`. -/
def clearBoard (drawn : String) : Editor :=
  { s.apply { s.doc with objects := [], steps := [newStep drawn] } .once with
    stepIndex := 0
    selection := none }

end Editor

/-! ## Runs of the editor -/

/-- What happens to the store. -/
inductive Event
  | load (newId : ℕ → String) (raw : Json)
  | undo
  | redo
  | select (target : Option Target)
  | pick (tool : Tool)
  | choose (placing : Placeable)
  | ink (pen : Pen)
  | place (at_ : Vec2) (drawn : String)
  | moveObject (id : String) (at_ : Vec2) (done : Bool)
  | bend (id : String) (mid : Vec2) (done : Bool)
  | straighten (id : String)
  | updateObject (id : String) (patch : ObjectPatch)
  | toggleIn (listing : Listing) (id : String)
  | duplicateSelection (drawn : String) (one : ℕ → Bool)
  | deleteSelection
  | addFormation (name : String) (team : TeamId) (side : Side) (drawn : ℕ → String)
  | removeTeam (team : TeamId)
  | stroke (points : List Vec2) (done : Bool) (drawn : String)
  | placeText (at_ : Vec2) (drawn : String)
  | editDrawing (id : String) (change : DrawingChange) (done : Bool)
  | updateDrawing (id : String) (patch : List (String × Option Json))
  | goToStep (i : ℤ)
  | addStep (drawn : String)
  | duplicateStep (drawn : ℕ → String)
  | moveStep (from_ to_ : ℤ) (one : ℕ → ℕ → Bool)
  | deleteStep
  | updateStep (patch : StepPatch)
  | setPitch (patch : List (String × Json))
  | setKit (team : TeamId) (patch : List (String × Json))
  | clearBoard (drawn : String)

/-- What a call makes of the store. -/
def Editor.perform (s : Editor) : Event → Except Thrown Editor
  | .load newId raw => .ok (s.load (normalizeDoc newId raw))
  | .undo => .ok s.undo
  | .redo => .ok s.redo
  | .select target => .ok { s with selection := target }
  | .pick tool => .ok { s with tool := tool }
  | .choose placing => .ok { s with placing := placing }
  | .ink pen => .ok { s with pen := pen }
  | .place at_ drawn => s.place at_ drawn
  | .moveObject id at_ done => s.moveObject id at_ done
  | .bend id mid done => s.bend id mid done
  | .straighten id => s.straighten id
  | .updateObject id patch => .ok (s.updateObject id patch)
  | .toggleIn listing id => s.toggleIn listing id
  | .duplicateSelection drawn one => s.duplicateSelection drawn one
  | .deleteSelection => s.deleteSelection
  | .addFormation name team side drawn => s.addFormation name team side drawn
  | .removeTeam team => .ok (s.removeTeam team)
  | .stroke points done drawn => s.stroke points done drawn
  | .placeText at_ drawn => s.placeText at_ drawn
  | .editDrawing id change done => s.editDrawing id change done
  | .updateDrawing id patch => s.updateDrawing id patch
  | .goToStep i => .ok (s.goToStep i)
  | .addStep drawn => .ok (s.addStep drawn)
  | .duplicateStep drawn => s.duplicateStep drawn
  | .moveStep from_ to_ one => .ok (s.moveStep from_ to_ one)
  | .deleteStep => .ok s.deleteStep
  | .updateStep patch => s.updateStep patch
  | .setPitch patch => .ok (s.setPitch patch)
  | .setKit team patch => .ok (s.setKit team patch)
  | .clearBoard drawn => .ok (s.clearBoard drawn)

/-- An editor that has just been opened. -/
def Editor.fresh (drawn : String) : Editor := { doc := emptyDoc drawn }

/-- The editor, one call at a time. -/
def editing : Machine Editor Event where
  start s := ∃ drawn, s = .fresh drawn
  next s event := (s.perform event).toOption

end Store

end ScoutPulse.Tactics.Loaded
