import ScoutPulse.Tactics.References

/-!
# What is selected

The current step and the selection are no part of the history: undo and redo change the
document under them. Every call leaves the editor on a step of its document and with
nothing selected that is not there, except a patch after which the selected object or drawing
no longer has its id, or the selected drawing is no longer in its step.
-/

namespace ScoutPulse.Tactics

namespace EditorStore

variable {s t : EditorStore}

/-- What can be selected: the objects of the document and the drawings of the current step. -/
def Offers (s : EditorStore) : Target → Prop
  | .object id => some id ∈ s.doc.ids
  | .drawing id => some id ∈ s.step.drawings.map (·.id)

instance (target : Target) : Decidable (s.Offers target) :=
  match target with
  | .object id => inferInstanceAs (Decidable (some id ∈ s.doc.ids))
  | .drawing id => inferInstanceAs (Decidable (some id ∈ s.step.drawings.map (·.id)))

/-- What is selected can be. -/
def Selects (s : EditorStore) : Prop := ∀ target ∈ s.selection, s.Offers target

/-- The editor is on a step of its document, what is selected is there, and no more than a
hundred documents can be gone back to or forward to. -/
structure Valid (s : EditorStore) : Prop where
  steps : 0 < s.doc.steps.length
  index : s.stepIndex < s.doc.steps.length
  object : ∀ id, s.selection = some (.object id) → ∃ o ∈ s.doc.objects, o.id = some id
  drawing : ∀ id, s.selection = some (.drawing id) → ∃ d ∈ s.step.drawings, d.id = some id
  entries : s.undoStack.length + s.redoStack.length ≤ 100

theorem selectionStands_iff : s.selectionStands = true ↔ s.Selects := by
  unfold selectionStands Selects
  cases s.selection with
  | none => simp
  | some target => cases target <;> simp [Offers, TacticDoc.ids]

/-- What was selected is kept, or nothing is. -/
theorem Selects.kept (selects : s.Selects) (same : ∀ target ∈ t.selection, target ∈ s.selection)
    (kept : ∀ target ∈ t.selection, s.Offers target → t.Offers target) : t.Selects :=
  fun target member => kept target member (selects target (same target member))

theorem selects_of_none (none_ : t.selection = none) : t.Selects := by
  intro target member
  rw [none_] at member
  cases member

/-- What is offered may be selected. -/
theorem selects_of_some {target : Target} (some_ : t.selection = some target)
    (offers : t.Offers target) : t.Selects := by
  intro other member
  rw [some_] at member
  cases member
  exact offers

/-- After the history has moved, what is selected is there. -/
theorem selects_afterHistory : s.afterHistory.Selects := by
  unfold afterHistory
  dsimp only
  split
  next stands => exact selectionStands_iff.mp stands
  next => exact selects_of_none rfl

/-- A change of the current step keeps the selection when it keeps a selected drawing. -/
theorem selects_withCurrentStep {fn : Step → Step} {phase : Phase} (on : s.OnStep)
    (selects : s.Selects) (kept : ∀ id, s.selection = some (.drawing id) →
      some id ∈ s.step.drawings.map (·.id) → some id ∈ (fn s.step).drawings.map (·.id)) :
    (s.apply (s.withCurrentStep fn) phase).Selects := by
  refine selects.kept (fun _ member => member) fun target selected offers => ?_
  cases target with
  | object id => exact offers
  | drawing id =>
      change some id ∈ ((s.withCurrentStep fn).stepAt s.stepIndex).drawings.map (·.id)
      rw [withCurrentStep, stepAt_withStep on]
      exact kept id selected offers

/-- A selected object stays when the document keeps its objects, and a drawing is let go. -/
theorem selects_withoutDrawing (selects : s.Selects) (selection : t.selection = s.withoutDrawing)
    (objects : t.doc.objects = s.doc.objects) : t.Selects := by
  intro target member
  rw [selection, withoutDrawing] at member
  split at member
  · cases member
  next other =>
    have offers := selects target member
    cases target with
    | object id =>
        change some id ∈ t.doc.objects.map (·.id)
        rw [objects]
        exact offers
    | drawing id => exact absurd member (other id)

end EditorStore

/-! ### What the calls do to the selection -/

/-- What a call selects, if it is told what, can be. -/
def Op.offered (s : EditorStore) : Op → Prop
  | .select selected => ∀ target ∈ selected, s.Offers target
  | _ => True

/-- A patch leaves a drawing its id: it gives it no other, and there is one that is not
cleared away as an empty text. -/
def DrawingPatch.KeepsId (patch : DrawingPatch) (id : String) : Prop :=
  clean (patched (some id) patch.id) = some id

/-- A patch leaves the selected object or drawing its id, and the selected drawing in its
step. -/
def Op.sparesSelection (s : EditorStore) : Op → Prop
  | .updateObject id patch => s.selection = some (.object id) → patch.KeepsId id
  | .updateDrawing id patch => s.selection = some (.drawing id) → patch.KeepsId id
  | .updateStep patch => ∀ drawings ∈ patch.drawings, ∀ id, s.selection = some (.drawing id) →
      some id ∈ drawings.map (·.id)
  | _ => True

namespace EditorStore

variable {s t : EditorStore}

theorem selects_moveObject {id : String} {at_ : Coords} {done : Bool} (on : s.OnStep)
    (selects : s.Selects) : (s.moveObject id at_ done).Selects :=
  selects_withCurrentStep on selects fun _ _ there => there

/-- The selection stands when a way is bent. -/
theorem selects_bend {id : String} {mid : Vec2} {done : Bool} (on : s.OnStep)
    (selects : s.Selects) : (s.bend id mid done).Selects := by
  unfold bend
  split
  · exact selects_withCurrentStep on selects fun _ _ there => there
  · exact selects

/-- A drawing that is changed keeps its id. -/
theorem change_id {d d' : Drawing} {change : DrawingChange} (changed : d.change change = some d') :
    d'.id = d.id := by
  cases change with
  | point index at_ =>
      cases changed
      rfl
  | offset offset =>
      cases changed
      rfl
  | control mid =>
      simp only [Drawing.change] at changed
      split at changed
      · cases changed
        rfl
      · cases changed

/-- Drawings that are changed keep their ids. -/
theorem map_id_of_mapM {ds ds' : List Drawing} {f : Drawing → Option Drawing}
    (keeps : ∀ d d', f d = some d' → d'.id = d.id) (made : ds.mapM f = some ds') :
    ds'.map (·.id) = ds.map (·.id) := by
  induction ds generalizing ds' with
  | nil =>
      cases made
      rfl
  | cons d ds ih =>
      rw [List.mapM_cons] at made
      obtain ⟨first, here, made⟩ := Option.bind_eq_some_iff.mp made
      obtain ⟨rest, there, made⟩ := Option.bind_eq_some_iff.mp made
      cases made
      rw [List.map_cons, List.map_cons, keeps d first here, ih there]

/-- The selection stands when a drawing is edited. -/
theorem selects_editDrawing {id : String} {change : DrawingChange} {done : Bool} (on : s.OnStep)
    (selects : s.Selects) : (s.editDrawing id change done).Selects := by
  unfold editDrawing
  split
  · exact selects
  next drawings made =>
    refine selects_withCurrentStep on selects fun other _ there => ?_
    change some other ∈ drawings.map (·.id)
    rw [map_id_of_mapM ?_ made]
    · exact there
    · intro d d' changed
      split at changed
      · exact change_id changed
      · cases changed
        rfl

/-- A stroke that is kept is selected. -/
theorem selects_stroke {points : List Vec2} {done : Bool} {drawn : String} (on : s.OnStep)
    (selects : s.Selects) : (s.stroke points done drawn).Selects := by
  unfold stroke
  split
  · dsimp only
    split
    · refine selects_of_some rfl ?_
      change some drawn ∈ (TacticDoc.stepAt (s.doc.withStep s.stepIndex _) s.stepIndex).drawings.map
        (·.id)
      rw [stepAt_withStep on, Step.draw, List.map_append]
      exact List.mem_append_right _ (List.mem_singleton_self _)
    · exact selects
  · exact selects

/-- A text that is placed is selected, and is there. -/
theorem selects_placeText {at_ : Vec2} {drawn : String} (on : s.OnStep) :
    (s.placeText at_ drawn).Selects := by
  refine selects_of_some rfl ?_
  change some drawn ∈
    (TacticDoc.stepAt (s.doc.withStep s.stepIndex _) s.stepIndex).drawings.map (·.id)
  rw [stepAt_withStep on, Step.draw, List.map_append]
  exact List.mem_append_right _ (List.mem_singleton_self _)

theorem selects_place {at_ : Vec2} {drawn : String} : (s.place at_ drawn).Selects := by
  refine selects_of_some rfl ?_
  change some drawn ∈ (s.doc.objects ++ [s.placed at_ drawn]).map (·.id)
  rw [List.map_append, List.map_singleton, placed_id]
  exact List.mem_append_right _ (List.mem_singleton_self _)

/-- What is duplicated is selected, and is there. -/
theorem selects_duplicateSelection {drawn : String} (selects : s.Selects) :
    (s.duplicateSelection drawn).Selects := by
  unfold duplicateSelection
  split
  · exact selects
  next obj _ =>
    split
    · exact selects
    · refine selects_of_some rfl ?_
      change some drawn ∈ (s.doc.objects ++ [s.copied obj drawn]).map (·.id)
      rw [List.map_append, List.map_singleton, copied_id]
      exact List.mem_append_right _ (List.mem_singleton_self _)

/-- What is deleted is not selected. -/
theorem selects_deleteSelection (selects : s.Selects) : s.deleteSelection.Selects := by
  unfold deleteSelection
  split
  · exact selects
  · exact selects_of_none rfl
  · exact selects_of_none rfl

/-- The selection stands when a formation is added. -/
theorem selects_addFormation {name : String} {team : TeamId} {side : Side} {drawn : ℕ → String}
    (on : s.OnStep) (selects : s.Selects) : (s.addFormation name team side drawn).Selects := by
  refine selects.kept (fun _ member => member) fun target _ offers => ?_
  cases target with
  | object id =>
      change some id ∈ (s.doc.objects ++ (formation name team side drawn).1).map (·.id)
      rw [List.map_append]
      exact List.mem_append_left _ offers
  | drawing id =>
      change some id ∈ (TacticDoc.stepAt ((s.doc.withObjects _).withStep s.stepIndex _)
        s.stepIndex).drawings.map (·.id)
      have inside : s.stepIndex <
          (s.doc.withObjects (formation name team side drawn).1).steps.length := on
      rw [stepAt_withStep inside]
      exact offers

/-- The selection stands when an object is updated that is not selected, or keeps its id. -/
theorem selects_updateObject {id : String} {patch : ObjectPatch} (selects : s.Selects)
    (spares : Op.sparesSelection s (.updateObject id patch)) :
    (s.updateObject id patch).Selects := by
  refine selects.kept (fun _ member => member) fun target selected offers => ?_
  cases target with
  | object other =>
      obtain ⟨o, member, named⟩ := List.mem_map.mp offers
      refine List.mem_map.mpr ⟨_, List.mem_map_of_mem member, ?_⟩
      split
      next same =>
        obtain rfl : other = id := Option.some.inj (named.symm.trans same)
        rw [BoardObject.patch, same]
        exact spares selected
      next => exact named
  | drawing other => exact offers

/-- The selection stands when a drawing is updated that is not selected, or keeps its id. -/
theorem selects_updateDrawing {id : String} {patch : DrawingPatch} (on : s.OnStep)
    (selects : s.Selects) (spares : Op.sparesSelection s (.updateDrawing id patch)) :
    (s.updateDrawing id patch).Selects := by
  refine selects_withCurrentStep on selects fun other selected there => ?_
  obtain ⟨d, member, named⟩ := List.mem_map.mp there
  refine List.mem_map.mpr ⟨_, List.mem_map_of_mem member, ?_⟩
  split
  next same =>
    obtain rfl : other = id := Option.some.inj (named.symm.trans same)
    rw [Drawing.patch, same]
    exact spares selected
  next => exact named

/-- The selection stands when a step is updated that keeps the drawing selected. -/
theorem selects_updateStep {patch : StepPatch} (on : s.OnStep) (selects : s.Selects)
    (spares : Op.sparesSelection s (.updateStep patch)) : (s.updateStep patch).Selects := by
  refine selects_withCurrentStep on selects fun id selected there => ?_
  change some id ∈ (patched s.step.drawings patch.drawings).map (·.id)
  cases given : patch.drawings with
  | none => exact there
  | some drawings => exact spares drawings given id selected

/-- Every call keeps what is selected, or selects what is there, unless it is a patch that
takes the selected object or drawing away. -/
theorem perform_selects {op : Op} (on : s.OnStep) (selects : s.Selects) (offered : op.offered s)
    (spares : op.sparesSelection s) : (s.perform op).Selects := by
  cases op with
  | markSaved => exact selects
  | select target => exact offered
  | pick tool => exact selects
  | choose placing => exact selects
  | ink pen => exact selects
  | clearPreview => exact selects
  | focused => exact selects
  | undo =>
      change s.undo.Selects
      unfold undo
      split
      · exact selects
      · exact selects_afterHistory
  | redo =>
      change s.redo.Selects
      unfold redo
      split
      · exact selects
      · exact selects_afterHistory
  | place at_ drawn => exact selects_place
  | moveObject id at_ => exact selects_moveObject on selects
  | bend id mid => exact selects_bend on selects
  | straighten id => exact selects_withCurrentStep on selects fun _ _ there => there
  | updateObject id patch => exact selects_updateObject selects spares
  | toggleIn listing id =>
      refine selects_withCurrentStep on selects fun _ _ there => ?_
      cases listing <;> exact there
  | duplicateSelection drawn => exact selects_duplicateSelection selects
  | deleteSelection => exact selects_deleteSelection selects
  | addFormation name team side drawn => exact selects_addFormation on selects
  | removeTeam team =>
      change (s.removeTeam team).Selects
      unfold removeTeam
      dsimp only
      split
      · exact selects
      · exact selects_of_none rfl
  | stroke points done drawn => exact selects_stroke on selects
  | placeText at_ drawn => exact selects_placeText on
  | editDrawing id change => exact selects_editDrawing on selects
  | updateDrawing id patch => exact selects_updateDrawing on selects spares
  | goToStep i => exact selects_withoutDrawing selects rfl rfl
  | addStep drawn => exact selects_withoutDrawing selects rfl rfl
  | duplicateStep drawn => exact selects_withoutDrawing selects rfl rfl
  | moveStep from_ to_ =>
      change (s.moveStep from_ to_).Selects
      unfold moveStep
      split
      · exact selects
      · exact selects_withoutDrawing selects rfl rfl
  | deleteStep =>
      change s.deleteStep.Selects
      unfold deleteStep
      split
      · exact selects
      · exact selects_of_none rfl
  | updateStep patch => exact selects_updateStep on selects spares
  | setPitch patch => exact selects
  | setKit team patch => exact selects
  | clearBoard drawn => exact selects_of_none rfl

end EditorStore

/-! ### What the acts do to the selection -/

/-- What is selected is told of what is there: the objects of the document and the drawings
of the current step, whether a call or a press selects them. -/
def Offered (b : Board) : Act → Prop
  | .op op => op.offered b.store
  | .drag press _ _ => ∀ p ∈ press, b.store.tool = .select →
      (∀ id, p.hit = .object id → b.store.Offers (.object id)) ∧
        ∀ id, p.hit = .drawing id → b.store.Offers (.drawing id)
  | _ => True

/-- No patch takes the selected object or drawing away. -/
def Spared (b : Board) (act : Act) : Prop :=
  Offered b act ∧ ∀ op, act = .op op → op.sparesSelection b.store

namespace Board

open EditorStore

variable {b : Board}

/-- The selection stands when a handle is dragged. -/
theorem selects_dragHandle {h : Handle} {at_ : Vec2} {done : Bool} (on : b.store.OnStep)
    (selects : b.store.Selects) : (b.dragHandle h at_ done).Selects := by
  cases h with
  | bend id => exact selects_bend on selects
  | point id index => exact selects_editDrawing on selects
  | control id => exact selects_editDrawing on selects

/-- The selection stands when the board is pressed, if what is hit is offered. -/
theorem onPointerDown_selects {at_ : Vec2} {hit : Hit} {drawn : String} (on : b.store.OnStep)
    (selects : b.store.Selects) (offered : b.store.tool = .select →
      (∀ id, hit = .object id → b.store.Offers (.object id)) ∧
        ∀ id, hit = .drawing id → b.store.Offers (.drawing id)) :
    (b.onPointerDown at_ hit drawn).store.Selects := by
  unfold onPointerDown
  split
  · exact selects_place
  · exact selects_placeText on
  · split
    · exact selects_stroke on selects
    · exact selects_stroke on selects
  next tool =>
    obtain ⟨object, drawing⟩ := offered tool
    cases hit with
    | handle handle => exact selects
    | object id => exact selects_of_some rfl (object id rfl)
    | drawing id => exact selects_of_some rfl (drawing id rfl)
    | nothing => exact selects_of_none rfl
  · exact selects_stroke on selects

/-- The selection stands when the pointer moves. -/
theorem onPointerMove_selects {at_ : Option Vec2} (on : b.store.OnStep)
    (selects : b.store.Selects) : (b.onPointerMove at_).store.Selects := by
  unfold onPointerMove
  split
  · exact selects
  · split
    · exact selects_stroke on selects
    · exact selects
  · exact selects_moveObject on selects
  · exact selects_dragHandle on selects
  · exact selects_editDrawing on selects
  · exact selects_stroke on selects

/-- The selection stands when a gesture is given up. -/
theorem onEscape_selects (selects : b.store.Selects) : b.onEscape.store.Selects := by
  unfold onEscape
  dsimp only
  split
  · exact selects
  · exact selects_of_none rfl

/-- The selection stands when a gesture ends. -/
theorem ended_selects {ending : Ending} (on : b.store.OnStep) (selects : b.store.Selects) :
    (b.ended ending).store.Selects := by
  cases ending with
  | released at_ drawn =>
      change (b.released at_ drawn).Selects
      unfold released
      split
      · exact selects_moveObject on selects
      · exact selects_dragHandle on selects
      · exact selects_editDrawing on selects
      · exact selects_stroke on selects
      · exact selects
  | escaped => exact onEscape_selects selects
  | interrupted => exact selects

theorem dragged_selects {moves : List (Option Vec2)} (on : b.store.OnStep)
    (selects : b.store.Selects) : (b.dragged moves).store.Selects := by
  induction moves generalizing b with
  | nil => exact selects
  | cons at_ moves ih => exact ih (onPointerMove_onStep on) (onPointerMove_selects on selects)

/-- The selection stands whatever the board does, if it is spared. -/
theorem act_selects {act : Act} (on : b.store.OnStep) (selects : b.store.Selects)
    (spared : Spared b act) : (b.act act).store.Selects := by
  cases act with
  | op op =>
      rw [act_op_store]
      exact perform_selects on selects spared.1 (spared.2 op rfl)
  | load doc => exact selects_of_none rfl
  | drag press moves ending =>
      have begun : (b.pressed press).store.OnStep ∧ (b.pressed press).store.Selects := by
        cases press with
        | none => exact ⟨on, selects⟩
        | some press =>
            rw [pressed_store]
            exact ⟨onPointerDown_onStep on, onPointerDown_selects on selects (spared.1 press rfl)⟩
      exact ended_selects (dragged_onStep begun.1) (dragged_selects begun.1 begun.2)
  | doubleClick drawn =>
      change (b.onDoubleClick drawn).store.Selects
      unfold onDoubleClick
      split
      · exact selects_stroke on selects
      · exact selects
  | escape => exact onEscape_selects selects

end Board

/-! ### Whole runs -/

/-- In every run whose acts meet a condition the editor stays on a step of its document, and
nothing is selected that is not there. -/
def StaysValid (ok : Board → Act → Prop) : Prop :=
  ∀ b, editor.Reach ok b → b.store.Valid

/-- The editor stays valid in every run in which no patch takes the selected object or drawing
away. -/
theorem valid_of_spared {b : Board} (reach : editor.Reach Spared b) : b.store.Valid := by
  have on := onStep_of_reach reach
  have few := few_of_reach reach
  have selects : b.store.OnStep ∧ b.store.Selects := by
    apply reach.invariant
    · rintro _ ⟨doc, rfl⟩
      exact ⟨List.length_pos_iff.mpr doc.steps_ne, EditorStore.selects_of_none rfl⟩
    · intro b b' act before spared next
      obtain ⟨-, rfl⟩ := editor_next next
      exact ⟨Board.act_onStep before.1, Board.act_selects before.1 before.2 spared⟩
  refine ⟨List.length_pos_iff.mpr b.store.doc.steps_ne, on, fun id selected => ?_,
    fun id selected => ?_, ?_⟩
  · exact List.mem_map.mp (selects.2 _ selected)
  · exact List.mem_map.mp (selects.2 _ selected)
  · have entries : b.store.undoStack.reverse.length + b.store.redoStack.reverse.length ≤ 100 := few
    simpa using entries

/-- The selection on a board with a player placed stands. -/
theorem valid_of_spared_placed : withPlayer.store.Valid := by
  have spared : Spared (.opened (emptyDoc "first")) (.op (.place ⟨0, 0⟩ "player")) := by
    refine ⟨trivial, ?_⟩
    rintro _ ⟨⟩
    trivial
  exact valid_of_spared ⟨.opened (emptyDoc "first"), ⟨_, rfl⟩,
    .head ⟨.op (.place ⟨0, 0⟩ "player"), spared, rfl⟩ (.refl _)⟩

/-- The player of a board, selected, is given another id. -/
def renamed : Board :=
  withPlayer.act (.op (.updateObject "player" { id := some (some "captain") }))

/-- A patch that renames the selected player leaves a selection that names no object. -/
theorem updateObject_leaves_selection : ¬ StaysValid Offered := by
  intro stays
  have reached : editor.Reach Offered renamed :=
    ⟨.opened (emptyDoc "first"), ⟨_, rfl⟩,
      .head ⟨.op (.place ⟨0, 0⟩ "player"), trivial, rfl⟩
        (.head ⟨.op (.updateObject "player" { id := some (some "captain") }), trivial, rfl⟩
          (.refl _))⟩
  obtain ⟨o, member, named⟩ := (stays renamed reached).object "player" (by decide +kernel)
  have none_ : ∀ o ∈ renamed.store.doc.objects, o.id ≠ some "player" := by decide +kernel
  exact none_ o member named

end ScoutPulse.Tactics
