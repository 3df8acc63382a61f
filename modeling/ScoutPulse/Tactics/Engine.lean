import ScoutPulse.Lib.Machine
import ScoutPulse.Tactics.Store

/-!
# Gestures on the board

The board reports what the pointer did in pitch coordinates and the store turns it into
changes of the document. A gesture is a press, some moves and an end: the pointer is
released, the gesture is cancelled with Escape, or something comes between.
-/

namespace ScoutPulse.Tactics

/-- `Handle`. -/
inductive Handle
  | bend (id : String)
  | point (id : String) (index : ℕ)
  | control (id : String)
  deriving DecidableEq, Repr

/-- `Gesture`. -/
inductive Gesture
  | object (id : String) (offset : Coords) (moved : Bool)
  | handle (handle : Handle)
  | drawing (id : String) (last : Vec2) (moved : Bool)
  | stroke (points : List Vec2)
  deriving DecidableEq, Repr

/-- What `hitHandle`, `hitObject` and `hitDrawing` find under the pointer. -/
inductive Hit
  | handle (handle : Handle)
  | object (id : String)
  | drawing (id : String)
  | nothing
  deriving DecidableEq, Repr

/-- The editor: its store, and the gesture and the polygon the board's engine has begun. -/
structure Board where
  store : EditorStore
  gesture : Option Gesture := none
  polygon : List Vec2 := []

/-- A board opened on a document. -/
def Board.opened (doc : TacticDoc) : Board := { store := { doc := doc } }

namespace Board

variable (b : Board)

/-- `dragHandle`, as the store handles it. -/
def dragHandle (h : Handle) (at_ : Vec2) (done : Bool) : EditorStore :=
  match h with
  | .bend id => b.store.bend id at_ done
  | .point id index => b.store.editDrawing id (.point index at_) done
  | .control id => b.store.editDrawing id (.control at_) done

/-- `finishPolygon`. -/
def finishPolygon (drawn : String) : Board :=
  { b with
    store := b.store.stroke b.polygon true drawn
    polygon := [] }

/-- A press with the select tool. -/
def grab (at_ : Vec2) : Hit → Board
  | .handle handle => { b with gesture := some (.handle handle) }
  | .object id =>
      let p := ((positionAt b.store.doc b.store.stepIndex id).getD (.own (some at_))).coords
      { b with
        gesture := some (.object id (p.map fun p => ⟨p.x - at_.x, p.y - at_.y⟩) false)
        store := { b.store with selection := some (.object id) } }
  | .drawing id =>
      { b with
        gesture := some (.drawing id at_ false)
        store := { b.store with selection := some (.drawing id) } }
  | .nothing => { b with store := { b.store with selection := none } }

/-- Whether a press closes the polygon that has been begun. -/
def closesPolygon (at_ : Vec2) : Bool :=
  match b.polygon.head? with
  | some first => 3 ≤ b.polygon.length ∧ distSquared first at_ < (3 / 2) ^ 2
  | none => false

/-- `onPointerDown`, with what is under the pointer and the id a new drawing or object is
given. -/
def onPointerDown (at_ : Vec2) (hit : Hit) (drawn : String) : Board :=
  match b.store.tool with
  | .place => { b with store := b.store.place (clampToArea at_) drawn }
  | .draw .text => { b with store := b.store.placeText (clampToArea at_) drawn }
  | .draw .polygon =>
      if b.closesPolygon at_ then b.finishPolygon drawn
      else
        let polygon := b.polygon ++ [clampToArea at_]
        { b with
          polygon := polygon
          store := b.store.stroke polygon false drawn }
  | .select => b.grab at_ hit
  | .draw _ =>
      { b with
        gesture := some (.stroke [clampToArea at_])
        store := b.store.stroke [clampToArea at_] false drawn }

/-- The points of a stroke after another sample. -/
def sampled (points : List Vec2) (p : Vec2) : List Vec2 :=
  if b.store.tool = .draw .pen then
    match points.getLast? with
    | some last => if (1 / 4) ^ 2 < distSquared last p then points ++ [p] else points
    | none => points ++ [p]
  else points.take 1 ++ [p]

/-- Where the pointer holds an object, kept to the area of the board. -/
def heldAt (offset : Coords) (at_ : Vec2) : Coords :=
  offset.map fun offset => clampToArea ⟨at_.x + offset.x, at_.y + offset.y⟩

/-- `onPointerMove`. Off the ground nothing happens. -/
def onPointerMove (at_ : Option Vec2) : Board :=
  match at_, b.gesture with
  | none, _ => b
  | some at_, none =>
      if b.store.tool = .draw .polygon ∧ b.polygon ≠ [] then
        { b with store := b.store.stroke (b.polygon ++ [clampToArea at_]) false "" }
      else b
  | some at_, some (.object id offset _) =>
      { b with
        gesture := some (.object id offset true)
        store := b.store.moveObject id (heldAt offset at_) false }
  | some at_, some (.handle handle) =>
      { b with store := b.dragHandle handle (clampToArea at_) false }
  | some at_, some (.drawing id last _) =>
      { b with
        gesture := some (.drawing id at_ true)
        store := b.store.editDrawing id (.offset ⟨at_.x - last.x, at_.y - last.y⟩) false }
  | some at_, some (.stroke points) =>
      let points := b.sampled points (clampToArea at_)
      { b with
        gesture := some (.stroke points)
        store := b.store.stroke points false "" }

/-- What the store makes of a release. -/
def released (at_ : Option Vec2) (drawn : String) : EditorStore :=
  match b.gesture, at_ with
  | some (.object id offset true), some at_ =>
      b.store.moveObject id (heldAt offset at_) true
  | some (.handle handle), some at_ => b.dragHandle handle (clampToArea at_) true
  | some (.drawing id _ true), _ => b.store.editDrawing id (.offset ⟨0, 0⟩) true
  | some (.stroke points), _ => b.store.stroke points true drawn
  | _, _ => b.store

/-- `onPointerUp`. Off the ground an object or a handle is dropped where it last was. -/
def onPointerUp (at_ : Option Vec2) (drawn : String) : Board :=
  { b with
    gesture := none
    store := b.released at_ drawn }

/-- `onDoubleClick`. -/
def onDoubleClick (drawn : String) : Board :=
  if b.store.tool = .draw .polygon ∧ 3 ≤ b.polygon.length then b.finishPolygon drawn else b

/-- `onKey` on Escape, which cancels a gesture. -/
def onEscape : Board where
  gesture := none
  polygon := []
  store :=
    let store := { b.store with preview := none }
    if store.tool ≠ .select then { store with tool := .select }
    else { store with selection := none }

end Board

/-- How a gesture ends. -/
inductive Ending
  | released (at_ : Option Vec2) (drawn : String)
  | escaped
  | interrupted

/-- A press of the pointer. -/
structure Press where
  at_ : Vec2
  hit : Hit
  drawn : String

/-- What is done at the board, one thing after the other. A gesture that is interrupted,
by a document that is loaded for one, may go on without another press. -/
inductive Act
  | op (op : Op)
  | load (doc : TacticDoc)
  | drag (press : Option Press) (moves : List (Option Vec2)) (ending : Ending)
  | doubleClick (drawn : String)
  | escape

namespace Board

variable (b : Board)

/-- The effect of `BoardView` on the tool: the engine gives up its gesture when another one
is picked. -/
def followTool (before : Tool) : Board :=
  if b.store.tool = before then b
  else { b with
    gesture := none
    polygon := [] }

/-- The beginning of a gesture. -/
def pressed : Option Press → Board
  | some press => (b.onPointerDown press.at_ press.hit press.drawn).followTool b.store.tool
  | none => b

/-- The moves of a gesture. -/
def dragged (moves : List (Option Vec2)) : Board := moves.foldl onPointerMove b

/-- The end of a gesture. -/
def ended : Ending → Board
  | .released at_ drawn => b.onPointerUp at_ drawn
  | .escaped => b.onEscape
  | .interrupted => b

/-- What an act makes of the board. -/
def act : Act → Board
  | .op op => { b with store := b.store.perform op }.followTool b.store.tool
  | .load doc => { b with store := b.store.load doc }
  | .drag press moves ending => ((b.pressed press).dragged moves).ended ending
  | .doubleClick drawn => b.onDoubleClick drawn
  | .escape => b.onEscape

end Board

/-- Whether an act is an edit or a gesture. Moving in the history, loading, and the calls
that leave the document alone are not. -/
def Act.edits : Act → Bool
  | .op .undo | .op .redo | .op .markSaved | .op (.select _) | .op (.pick _)
  | .op (.choose _) | .op (.ink _) | .op .clearPreview | .op .focused | .op (.goToStep _) => false
  | .op _ => true
  | .drag _ _ _ => true
  | .doubleClick _ => true
  | .load _ => false
  | .escape => false

/-- Whether an act begins with a press. -/
def Act.presses : Act → Bool
  | .drag (some _) _ _ => true
  | _ => false

/-- The editor as a machine that starts on any document. The pointer is pressed again only
once it was released. -/
def editor : Machine Board Act where
  start b := ∃ doc, b = .opened doc
  next b act := if act.presses ∧ b.gesture ≠ none then none else some (b.act act)

/-- An event is taken as the board acts on it; a press comes when nothing is held. -/
theorem editor_next {b b' : Board} {act : Act} (next : editor.next b act = some b') :
    (act.presses = true → b.gesture = none) ∧ b' = b.act act := by
  change (if act.presses ∧ b.gesture ≠ none then none else some (b.act act)) = some b' at next
  split_ifs at next with held
  cases next
  refine ⟨?_, rfl⟩
  intro presses
  by_contra some_
  exact held ⟨presses, some_⟩

/-! ### The current step -/

namespace EditorStore

variable {s t : EditorStore} {fn : Step → Step}

/-- The current step is a step of the document. -/
def OnStep (s : EditorStore) : Prop := s.stepIndex < s.doc.steps.length

theorem onStep_of_length (on : s.OnStep) (index : t.stepIndex = s.stepIndex)
    (length : t.doc.steps.length = s.doc.steps.length) : t.OnStep := by
  unfold OnStep
  rw [index, length]
  exact on

/-- A change of the current step stays on it. -/
theorem onStep_withCurrentStep (on : s.OnStep) (index : t.stepIndex = s.stepIndex)
    (doc : t.doc = s.withCurrentStep fn) : t.OnStep := by
  apply onStep_of_length on index
  rw [doc]
  exact List.length_mapIdx

theorem onStep_afterHistory : s.afterHistory.OnStep := by
  have some_ := List.length_pos_iff.mpr s.doc.steps_ne
  change min s.stepIndex (s.doc.steps.length - 1) < s.doc.steps.length
  omega

/-- A step that is put in after the present one is there. -/
theorem onStep_insertStep {step : Step} (on : s.OnStep) :
    s.stepIndex + 1 < (s.doc.insertStep (s.stepIndex + 1) step).steps.length := by
  have longer := List.length_insertIdx_of_le_length (Nat.succ_le_of_lt on) step
  unfold OnStep at on
  rw [TacticDoc.insertStep, longer]
  omega

theorem onStep_moveObject {id : String} {at_ : Coords} {done : Bool} (on : s.OnStep) :
    (s.moveObject id at_ done).OnStep := onStep_withCurrentStep on rfl rfl

/-- The editor stays on its step when a way is bent. -/
theorem onStep_bend {id : String} {mid : Vec2} {done : Bool} (on : s.OnStep) :
    (s.bend id mid done).OnStep := by
  unfold bend
  split
  · exact onStep_withCurrentStep on rfl rfl
  · exact on

/-- The editor stays on its step when a drawing is edited. -/
theorem onStep_editDrawing {id : String} {change : DrawingChange} {done : Bool} (on : s.OnStep) :
    (s.editDrawing id change done).OnStep := by
  unfold editDrawing
  split
  · exact on
  · exact onStep_withCurrentStep on rfl rfl

/-- The editor stays on its step when a stroke is drawn. -/
theorem onStep_stroke {points : List Vec2} {done : Bool} {drawn : String} (on : s.OnStep) :
    (s.stroke points done drawn).OnStep := by
  unfold stroke
  split
  · dsimp only
    split
    · exact onStep_withCurrentStep on rfl rfl
    · exact on
  · exact on

theorem onStep_place {at_ : Vec2} {drawn : String} (on : s.OnStep) :
    (s.place at_ drawn).OnStep := onStep_of_length on rfl List.length_mapIdx

theorem onStep_placeText {at_ : Vec2} {drawn : String} (on : s.OnStep) :
    (s.placeText at_ drawn).OnStep := onStep_withCurrentStep on rfl rfl

/-- Every call leaves the editor on a step. -/
theorem perform_onStep {op : Op} (on : s.OnStep) : (s.perform op).OnStep := by
  cases op with
  | markSaved => exact on
  | select target => exact on
  | pick tool => exact on
  | choose placing => exact on
  | ink pen => exact on
  | clearPreview => exact on
  | focused => exact on
  | undo =>
      change s.undo.OnStep
      unfold undo
      split
      · exact on
      · exact onStep_afterHistory
  | redo =>
      change s.redo.OnStep
      unfold redo
      split
      · exact on
      · exact onStep_afterHistory
  | place at_ drawn => exact onStep_place on
  | moveObject id at_ => exact onStep_moveObject on
  | bend id mid => exact onStep_bend on
  | straighten id => exact onStep_withCurrentStep on rfl rfl
  | updateObject id patch => exact onStep_of_length on rfl rfl
  | toggleIn listing id => exact onStep_withCurrentStep on rfl rfl
  | duplicateSelection drawn =>
      change (s.duplicateSelection drawn).OnStep
      unfold duplicateSelection
      split
      · exact on
      · split
        · exact on
        · exact onStep_of_length on rfl List.length_mapIdx
  | deleteSelection =>
      change s.deleteSelection.OnStep
      unfold deleteSelection
      split
      · exact on
      · exact onStep_of_length on rfl (List.length_map _)
      · exact onStep_withCurrentStep on rfl rfl
  | addFormation name team side drawn => exact onStep_of_length on rfl List.length_mapIdx
  | removeTeam team =>
      change (s.removeTeam team).OnStep
      unfold removeTeam
      dsimp only
      split
      · exact on
      · exact onStep_of_length on rfl (List.length_map _)
  | stroke points done drawn => exact onStep_stroke on
  | placeText at_ drawn => exact onStep_placeText on
  | editDrawing id change => exact onStep_editDrawing on
  | updateDrawing id patch => exact onStep_withCurrentStep on rfl rfl
  | goToStep i => exact s.nearest_lt i
  | addStep drawn => exact onStep_insertStep on
  | duplicateStep drawn => exact onStep_insertStep on
  | moveStep from_ to_ =>
      change (s.moveStep from_ to_).OnStep
      unfold moveStep
      split
      · exact on
      · change (s.nearest to_).toNat < (List.mapIdx _ _).length
        rw [List.length_mapIdx, s.doc.order_length (s.nearest_lt to_)]
        exact s.nearest_lt to_
  | deleteStep =>
      change s.deleteStep.OnStep
      unfold deleteStep
      split
      · exact on
      case isFalse more =>
        have some_ := List.length_pos_iff.mpr (s.doc.removeStep s.stepIndex (by omega)).steps_ne
        exact Nat.lt_of_le_of_lt (Nat.min_le_right _ _) (Nat.sub_one_lt_of_lt some_)
  | updateStep patch => exact onStep_withCurrentStep on rfl rfl
  | setPitch patch => exact onStep_of_length on rfl rfl
  | setKit team patch => exact onStep_of_length on rfl rfl
  | clearBoard drawn => exact Nat.zero_lt_one

end EditorStore

namespace Board

open EditorStore

variable {b : Board}

@[simp] theorem followTool_store {before : Tool} : (b.followTool before).store = b.store := by
  unfold followTool
  split <;> rfl

/-- A gesture that is still there after another tool was picked is the one that was there. -/
theorem followTool_gesture {before : Tool} :
    (b.followTool before).gesture = b.gesture ∨ (b.followTool before).gesture = none := by
  unfold followTool
  split
  · exact .inl rfl
  · exact .inr rfl

/-- A press is what `onPointerDown` makes of the store. -/
@[simp] theorem pressed_store {press : Press} :
    (b.pressed (some press)).store = (b.onPointerDown press.at_ press.hit press.drawn).store :=
  followTool_store

/-- A call is what it makes of the store. -/
@[simp] theorem act_op_store {op : Op} : (b.act (.op op)).store = b.store.perform op :=
  followTool_store

/-- The editor stays on its step when a handle is dragged. -/
theorem onStep_dragHandle {h : Handle} {at_ : Vec2} {done : Bool} (on : b.store.OnStep) :
    (b.dragHandle h at_ done).OnStep := by
  cases h with
  | bend id => exact onStep_bend on
  | point id index => exact onStep_editDrawing on
  | control id => exact onStep_editDrawing on

/-- The editor stays on its step when the board is pressed. -/
theorem onPointerDown_onStep {at_ : Vec2} {hit : Hit} {drawn : String} (on : b.store.OnStep) :
    (b.onPointerDown at_ hit drawn).store.OnStep := by
  unfold onPointerDown
  split
  · exact onStep_place on
  · exact onStep_placeText on
  · split
    · exact onStep_stroke on
    · exact onStep_stroke on
  · cases hit <;> exact on
  · exact onStep_stroke on

/-- The editor stays on its step when the pointer moves. -/
theorem onPointerMove_onStep {at_ : Option Vec2} (on : b.store.OnStep) :
    (b.onPointerMove at_).store.OnStep := by
  unfold onPointerMove
  split
  · exact on
  · split
    · exact onStep_stroke on
    · exact on
  · exact onStep_moveObject on
  · exact onStep_dragHandle on
  · exact onStep_editDrawing on
  · exact onStep_stroke on

theorem onEscape_onStep (on : b.store.OnStep) : b.onEscape.store.OnStep := by
  unfold onEscape
  dsimp only
  split <;> exact on

/-- The editor stays on its step when a gesture ends. -/
theorem ended_onStep {ending : Ending} (on : b.store.OnStep) :
    (b.ended ending).store.OnStep := by
  cases ending with
  | released at_ drawn =>
      change (b.released at_ drawn).OnStep
      unfold released
      split
      · exact onStep_moveObject on
      · exact onStep_dragHandle on
      · exact onStep_editDrawing on
      · exact onStep_stroke on
      · exact on
  | escaped => exact onEscape_onStep on
  | interrupted => exact on

theorem dragged_onStep {moves : List (Option Vec2)} (on : b.store.OnStep) :
    (b.dragged moves).store.OnStep := by
  induction moves generalizing b with
  | nil => exact on
  | cons at_ moves ih => exact ih (onPointerMove_onStep on)

/-- The editor stays on a step whatever the board does. -/
theorem act_onStep {act : Act} (on : b.store.OnStep) : (b.act act).store.OnStep := by
  cases act with
  | op op =>
      rw [act_op_store]
      exact perform_onStep on
  | load doc => exact List.length_pos_iff.mpr doc.steps_ne
  | drag press moves ending =>
      apply ended_onStep
      apply dragged_onStep
      cases press with
      | none => exact on
      | some press =>
          rw [pressed_store]
          exact onPointerDown_onStep on
  | doubleClick drawn =>
      change (b.onDoubleClick drawn).store.OnStep
      unfold onDoubleClick
      split
      · exact onStep_stroke on
      · exact on
  | escape => exact onEscape_onStep on

end Board

/-- In every run the current step is a step of the document. -/
theorem onStep_of_reach {ok : Board → Act → Prop} {b : Board} (reach : editor.Reach ok b) :
    b.store.OnStep := by
  apply reach.invariant
  · intro b start
    obtain ⟨doc, rfl⟩ := start
    exact List.length_pos_iff.mpr doc.steps_ne
  · intro b b' act on _ next
    obtain ⟨-, rfl⟩ := editor_next next
    exact Board.act_onStep on

end ScoutPulse.Tactics
