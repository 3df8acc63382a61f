import ScoutPulse.Tactics.Steps
import ScoutPulse.Tactics.UndoRedo

/-!
# Gestures that are released

A gesture that is released on the ground closes what it opened: an object that was moved is
put down, a drawing that was moved stays, and a handle answers the release exactly when it
answered the moves. So in a run whose gestures are all released there, undo and redo are
exact.
-/

namespace ScoutPulse.Tactics

namespace EditorStore

variable {s : EditorStore}

/-- Whether a drag of a handle changes the document: a path bends only for an object that
moves into the step, and a curve only between two ends. -/
def Responds (s : EditorStore) : Handle → Prop
  | .bend id => (positionAt s.doc (s.stepIndex - 1) id).isSome = true ∧
      (s.doc.steps[s.stepIndex]?.bind (·.stands id)).isSome = true
  | .point _ _ => True
  | .control id => ∀ d ∈ s.step.drawings, d.id = some id → d.points ≠ []

/-- Changes of a step that leave its positions leave where everything stands. -/
theorem layer_withCurrentStep {fn : Step → Step} {j : ℕ} {id : String}
    (keeps : ∀ step, (fn step).pos = step.pos) :
    Layers.layer Step.stands (s.withCurrentStep fn).steps j id =
      Layers.layer Step.stands s.doc.steps j id := by
  rw [Layers.layer, Layers.layer, withCurrentStep, TacticDoc.withStep, List.getElem?_mapIdx]
  cases s.doc.steps[j]? with
  | none => rfl
  | some step =>
      rw [Option.map_some, Option.bind_some, Option.bind_some]
      split
      · rw [Step.stands, Step.stands, keeps]
      · rfl

/-- A change that leaves the positions of a step leaves every position. -/
theorem positionAt_withCurrentStep {fn : Step → Step} {i : ℤ} {id : String}
    (keeps : ∀ step, (fn step).pos = step.pos) :
    positionAt (s.withCurrentStep fn) i id = positionAt s.doc i id := by
  have length : (s.withCurrentStep fn).steps.length = s.doc.steps.length := List.length_mapIdx
  unfold positionAt
  rw [length, latest_eq_shown, latest_eq_shown]
  exact Layers.shown_congr fun j _ => layer_withCurrentStep keeps

theorem step_withCurrentStep {fn : Step → Step} {phase : Phase} (on : s.OnStep) :
    (s.apply (s.withCurrentStep fn) phase).step = fn s.step := by
  change (s.doc.withStep s.stepIndex fn).stepAt s.stepIndex = fn s.step
  exact stepAt_withStep on

/-- A list of changes that each can be made can be made. -/
theorem isSome_mapM {α β : Type} {f : α → Option β} {xs : List α} :
    (xs.mapM f).isSome = true ↔ ∀ x ∈ xs, (f x).isSome = true := by
  induction xs with
  | nil => simp
  | cons x xs ih =>
      rw [List.mapM_cons, List.forall_mem_cons, ← ih]
      cases f x with
      | none => simp
      | some y => cases xs.mapM f <;> simp

/-- An object that responds has its way bent. -/
theorem bend_of_responds {id : String} (mid : Vec2) (done : Bool)
    (responds : s.Responds (.bend id)) :
    ∃ control, s.bend id mid done =
      s.apply (s.withCurrentStep (·.bent id control)) (.of done) := by
  obtain ⟨first, last⟩ := responds
  obtain ⟨from_, earlier⟩ := Option.isSome_iff_exists.mp first
  obtain ⟨to_, here⟩ := Option.isSome_iff_exists.mp last
  refine ⟨controlBetween from_ mid to_, ?_⟩
  rw [bend, earlier, here]

/-- A drawing that can be changed is changed, and the others stay. -/
theorem editDrawing_of_isSome {id : String} {change : DrawingChange} (done : Bool)
    (able : ∀ d ∈ s.step.drawings, d.id = some id → (d.change change).isSome = true) :
    ∃ drawings, s.step.drawings.mapM (fun d => if d.id = some id then d.change change else some d) =
        some drawings ∧
      s.editDrawing id change done =
        s.apply (s.withCurrentStep (·.draw fun _ => drawings)) (.of done) := by
  have all : ∀ d ∈ s.step.drawings,
      (if d.id = some id then d.change change else some d).isSome = true := by
    intro d member
    split
    · exact able d member ‹_›
    · rfl
  obtain ⟨drawings, made⟩ := Option.isSome_iff_exists.mp (isSome_mapM.mpr all)
  refine ⟨drawings, made, ?_⟩
  rw [editDrawing, made]

/-- Every result of a list of changes is that of one of them. -/
theorem exists_of_mem_mapM {α β : Type} {f : α → Option β} {xs : List α} {ys : List β} {y : β}
    (made : xs.mapM f = some ys) (member : y ∈ ys) : ∃ x ∈ xs, f x = some y := by
  induction xs generalizing ys with
  | nil =>
      cases made
      cases member
  | cons x xs ih =>
      rw [List.mapM_cons] at made
      obtain ⟨first, here, made⟩ := Option.bind_eq_some_iff.mp made
      obtain ⟨rest, there, made⟩ := Option.bind_eq_some_iff.mp made
      cases made
      rcases List.mem_cons.mp member with rfl | later
      · exact ⟨x, List.mem_cons_self, here⟩
      · obtain ⟨z, inside, changed⟩ := ih there later
        exact ⟨z, List.mem_cons_of_mem x inside, changed⟩

/-- A drawing whose curve is bent keeps its id and its ends. -/
theorem change_control {d d' : Drawing} {mid : Vec2}
    (changed : d.change (.control mid) = some d') : d'.id = d.id ∧ d'.points = d.points := by
  simp only [Drawing.change] at changed
  split at changed
  · cases changed
    exact ⟨rfl, rfl⟩
  · cases changed

theorem isSome_change_control {d : Drawing} {mid : Vec2} (ends : d.points ≠ []) :
    (d.change (.control mid)).isSome = true := by
  simp only [Drawing.change]
  rw [List.head?_eq_some_head ends, List.getLast?_eq_some_getLast ends]
  rfl

end EditorStore

namespace Board

open EditorStore

variable {b : Board}

/-- A handle that answers a drag applies it, and answers the next one. -/
theorem dragHandle_of_responds {h : Handle} (at_ : Vec2) (done : Bool) (on : b.store.OnStep)
    (responds : b.store.Responds h) :
    (b.dragHandle h at_ done).gestureOpen = (Phase.of done = .move : Bool) ∧
      (b.dragHandle h at_ done).Responds h := by
  cases h with
  | bend id =>
      obtain ⟨control, made⟩ := bend_of_responds at_ done responds
      have keeps : ∀ step : Step, (step.bent id control).pos = step.pos := fun _ => rfl
      change (b.store.bend id at_ done).gestureOpen = _ ∧ (b.store.bend id at_ done).Responds _
      rw [made]
      refine ⟨rfl, ?_, ?_⟩
      · rw [apply_doc, positionAt_withCurrentStep keeps]
        exact responds.1
      · have same : Layers.layer Step.stands (b.store.withCurrentStep (·.bent id control)).steps
              b.store.stepIndex id =
            Layers.layer Step.stands b.store.doc.steps b.store.stepIndex id :=
          layer_withCurrentStep keeps
        exact (congrArg Option.isSome same).trans responds.2
  | point id index =>
      have able : ∀ d ∈ b.store.step.drawings, d.id = some id →
          (d.change (.point index at_)).isSome = true := fun _ _ _ => rfl
      obtain ⟨drawings, -, made⟩ := editDrawing_of_isSome done able
      change (b.store.editDrawing id _ done).gestureOpen = _ ∧ _
      rw [made]
      exact ⟨rfl, trivial⟩
  | control id =>
      have able : ∀ d ∈ b.store.step.drawings, d.id = some id →
          (d.change (.control at_)).isSome = true := fun d member same =>
        isSome_change_control (responds d member same)
      obtain ⟨drawings, mapped, made⟩ := editDrawing_of_isSome done able
      change (b.store.editDrawing id _ done).gestureOpen = _ ∧
        (b.store.editDrawing id _ done).Responds _
      rw [made]
      refine ⟨rfl, ?_⟩
      intro d member named
      rw [step_withCurrentStep on] at member
      obtain ⟨old, there, changed⟩ := exists_of_mem_mapM mapped member
      split at changed
      · obtain ⟨id_, points⟩ := change_control changed
        rw [points]
        exact responds old there (id_.symm.trans named)
      · cases changed
        exact responds d there named

/-- A handle that does not answer changes nothing. -/
theorem dragHandle_of_not_responds {h : Handle} {at_ : Vec2} {done : Bool}
    (silent : ¬ b.store.Responds h) : b.dragHandle h at_ done = b.store := by
  cases h with
  | bend id =>
      change b.store.bend id at_ done = b.store
      unfold bend
      split
      case h_1 earlier here =>
        refine absurd ⟨?_, ?_⟩ silent
        · rw [earlier]
          rfl
        · rw [here]
          rfl
      case h_2 => rfl
  | point id index => exact absurd trivial silent
  | control id =>
      change b.store.editDrawing id _ done = b.store
      unfold editDrawing
      split
      case h_1 => rfl
      case h_2 drawings made =>
        refine absurd ?_ silent
        intro d member named ends
        have all := isSome_mapM.mp (Option.isSome_iff_exists.mpr ⟨drawings, made⟩) d member
        rw [if_pos named, Drawing.change, ends] at all
        cases all

/-- A drawing that is moved can be. -/
theorem editDrawing_offset_gestureOpen {id : String} {offset : Vec2} (done : Bool) :
    (b.store.editDrawing id (.offset offset) done).gestureOpen =
      (Phase.of done = .move : Bool) := by
  have able : ∀ d ∈ b.store.step.drawings, d.id = some id →
      (d.change (.offset offset)).isSome = true := fun _ _ _ => rfl
  obtain ⟨drawings, -, made⟩ := editDrawing_of_isSome done able
  rw [made]
  rfl

/-- Whether the gesture has something that is open and will answer a release on the
ground. -/
def Answers (b : Board) : Prop :=
  match b.gesture with
  | some (.object _ _ moved) => moved = true
  | some (.drawing _ _ moved) => moved = true
  | some (.handle h) => b.store.Responds h
  | _ => False

/-- Nothing is open, or what is open will answer a release on the ground. -/
def Closing (b : Board) : Prop := b.store.gestureOpen = false ∨ b.Answers

/-- A move of the pointer leaves the gesture one that its release closes. -/
theorem onPointerMove_closing {at_ : Option Vec2} (on : b.store.OnStep) (closing : b.Closing) :
    (b.onPointerMove at_).Closing := by
  unfold onPointerMove
  split
  · exact closing
  case h_2 idle =>
    split
    · rcases closing with closed | answers
      · exact .inl closed
      · rw [Answers, idle] at answers
        cases answers
    · exact closing
  case h_3 => exact .inr rfl
  case h_4 at_ handle held =>
    by_cases responds : b.store.Responds handle
    · have after := (dragHandle_of_responds (clampToArea at_) false on responds).2
      refine .inr ?_
      rw [Answers, held]
      exact after
    · rw [dragHandle_of_not_responds responds]
      exact closing
  case h_5 => exact .inr rfl
  case h_6 points held =>
    rcases closing with closed | answers
    · exact .inl closed
    · rw [Answers, held] at answers
      cases answers

theorem dragged_closing {moves : List (Option Vec2)} (on : b.store.OnStep)
    (closing : b.Closing) : (b.dragged moves).Closing := by
  induction moves generalizing b with
  | nil => exact closing
  | cons at_ moves ih => exact ih (onPointerMove_onStep on) (onPointerMove_closing on closing)

/-- Undoing leaves a gesture closed. -/
theorem undo_closed (closed : b.store.gestureOpen = false) :
    b.store.undo.gestureOpen = false := by
  unfold undo
  split
  · exact closed
  · rfl

/-- Redoing leaves a gesture closed. -/
theorem redo_closed (closed : b.store.gestureOpen = false) :
    b.store.redo.gestureOpen = false := by
  unfold redo
  split
  · exact closed
  · rfl

/-- A change that is the last of a gesture closes it. -/
theorem gestureOpen_of_edited {s t : EditorStore} {phase : Phase} (last : phase ≠ .move)
    (edited : Edited phase s t) (closed : s.gestureOpen = false) : t.gestureOpen = false := by
  rcases edited with same | ⟨next, -, flag⟩
  · exact same.2.trans closed
  · rw [flag]
    exact decide_eq_false last

/-- A release on the ground closes the gesture. -/
theorem released_closes {at_ : Vec2} {drawn : String} (on : b.store.OnStep)
    (closing : b.Closing) : (b.released (some at_) drawn).gestureOpen = false := by
  have finish : ∀ {t}, Edited (.of true) b.store t → b.store.gestureOpen = false →
      t.gestureOpen = false := fun edited closed => gestureOpen_of_edited (by decide) edited closed
  -- A gesture with nothing to answer for was never open.
  have shut : ¬ b.Answers → b.store.gestureOpen = false := closing.resolve_right
  unfold Answers at shut
  unfold released
  cases held : b.gesture with
  | none =>
      rw [held] at shut
      exact shut id
  | some gesture =>
      rw [held] at shut
      cases gesture with
      | object id offset moved =>
          cases moved with
          | false => exact shut Bool.false_ne_true
          | true => rfl
      | handle handle =>
          by_cases responds : b.store.Responds handle
          · exact (dragHandle_of_responds (clampToArea at_) true on responds).1
          · exact finish (dragHandle_edited true) (shut responds)
      | drawing id last moved =>
          cases moved with
          | false => exact shut Bool.false_ne_true
          | true => exact editDrawing_offset_gestureOpen true
      | stroke points => exact gestureOpen_of_edited (by decide) stroke_edited (shut id)

end Board

/-- Every gesture of an act is released on the ground. -/
def Act.released : Act → Prop
  | .drag _ _ (.released at_ _) => at_.isSome = true
  | .drag _ _ _ => False
  | _ => True

namespace Board

open EditorStore

variable {b : Board}

/-- A press leaves a gesture closed. -/
theorem onPointerDown_closed {at_ : Vec2} {hit : Hit} {drawn : String} (idle : b.gesture = none)
    (closed : b.store.gestureOpen = false) :
    (b.onPointerDown at_ hit drawn).store.gestureOpen = false := by
  have down : Unchanged b.store (b.onPointerDown at_ hit drawn).store ∨ _ :=
    onPointerDown_edited idle
  rcases down with same | ⟨change, -⟩
  · exact same.2.trans closed
  · exact gestureOpen_of_edited (by decide) (.inr change) closed

/-- An act whose gesture is released on the ground leaves none open. -/
theorem act_closed {act : Act} (released : act.released) (on : b.store.OnStep)
    (closed : b.store.gestureOpen = false) (ready : act.presses = true → b.gesture = none) :
    (b.act act).store.gestureOpen = false := by
  cases act with
  | op op =>
      rw [act_op_store]
      by_cases back : op = .undo
      · subst back
        exact undo_closed closed
      · by_cases forth : op = .redo
        · subst forth
          exact redo_closed closed
        · exact gestureOpen_of_edited (by decide) (perform_edited ⟨back, forth⟩) closed
  | load doc => exact closed
  | drag press moves ending =>
      have begun : (b.pressed press).store.OnStep ∧ (b.pressed press).Closing := by
        cases press with
        | none => exact ⟨on, .inl closed⟩
        | some press =>
            refine ⟨?_, .inl ?_⟩
            · rw [pressed_store]
              exact onPointerDown_onStep on
            · rw [pressed_store]
              exact onPointerDown_closed (ready rfl) closed
      have moved : ((b.pressed press).dragged moves).Closing := dragged_closing begun.1 begun.2
      cases ending with
      | released at_ drawn =>
          cases at_ with
          | none => cases released
          | some at_ => exact released_closes (dragged_onStep begun.1) moved
      | escaped => cases released
      | interrupted => cases released
  | doubleClick drawn => exact gestureOpen_of_edited (by decide) onDoubleClick_edited closed
  | escape => exact onEscape_unchanged.2.trans closed

end Board

/-- Undo and redo are exact in every run whose gestures are all released on the ground. -/
theorem undo_exact_of_released : UndoExact fun _ act => act.released := by
  intro b reach
  have closed : b.store.OnStep ∧ b.store.gestureOpen = false := by
    apply reach.invariant
    · intro b start
      obtain ⟨doc, rfl⟩ := start
      exact ⟨List.length_pos_iff.mpr doc.steps_ne, rfl⟩
    · intro b b' act before released next
      obtain ⟨ready, rfl⟩ := editor_next next
      exact ⟨Board.act_onStep before.1, Board.act_closed released before.1 before.2 ready⟩
  refine ⟨?_, fun n enough => EditorStore.redo_undo_doc enough⟩
  intro act b' _ next edits
  obtain ⟨ready, rfl⟩ := editor_next next
  exact (Board.act_recorded edits closed.2 ready).ownEntry

end ScoutPulse.Tactics
