import ScoutPulse.Lib.History
import ScoutPulse.Tactics.Engine

/-!
# Undo and redo

The stacks of the store are a history of its document. Every edit is an entry of its own,
and so is every gesture, as long as it begins while no earlier one is open. A gesture that
is cancelled, interrupted or dropped off the ground after it has moved something stays
open, and what comes next is recorded with it.
-/

namespace ScoutPulse.Tactics

namespace EditorStore

variable {s t : EditorStore} {next : TacticDoc} {phase : Phase}

/-- The stacks and the document, as a history. -/
def history (s : EditorStore) : History TacticDoc :=
  ⟨s.undoStack.reverse, s.doc, s.redoStack.reverse⟩

theorem history_past_length : s.history.past.length = s.undoStack.length :=
  List.length_reverse

@[simp] theorem apply_gestureOpen : (s.apply next phase).gestureOpen = (phase = .move : Bool) :=
  rfl

/-- A change outside a gesture is recorded. -/
theorem history_apply_closed (closed : s.gestureOpen = false) :
    (s.apply next phase).history = s.history.record historyLimit next := by
  have kept : (s.undoStack.drop (s.undoStack.length - (historyLimit - 1)) ++ [s.doc]).reverse =
      (s.doc :: s.undoStack.reverse).take historyLimit := by
    rw [List.reverse_append, List.reverse_drop]
    have least : s.undoStack.length - (s.undoStack.length - (historyLimit - 1)) =
        min (historyLimit - 1) s.undoStack.length := by omega
    rw [least, historyLimit, List.take_succ_cons, ← List.take_take, List.reverse_singleton,
      List.singleton_append]
    congr 2
    rw [← List.length_reverse, List.take_length]
  simp only [history, apply, closed, Bool.false_eq_true, if_false, kept, List.reverse_nil,
    History.record]

/-- A change inside a gesture amends its entry. -/
theorem history_apply_open (open_ : s.gestureOpen = true) :
    (s.apply next phase).history = s.history.amend next := by
  simp only [history, apply, open_, if_true, History.amend]

@[simp] theorem afterHistory_history : s.afterHistory.history = s.history := rfl

/-- `undo` undoes. -/
theorem history_undo : s.undo.history = s.history.undo := by
  unfold undo history
  rcases s.undoStack.eq_nil_or_concat' with none | ⟨past, value, some_⟩
  · rw [none]
    simp [none, History.undo]
  · rw [some_, List.getLast?_concat]
    simp [afterHistory, History.undo]

/-- `redo` redoes. -/
theorem history_redo : s.redo.history = s.history.redo := by
  unfold redo history
  rcases s.redoStack.eq_nil_or_concat' with none | ⟨future, value, some_⟩
  · rw [none]
    simp [none, History.redo]
  · rw [some_, List.getLast?_concat]
    simp [afterHistory, History.redo]

theorem history_undo_iterate (n : ℕ) : (undo^[n] s).history = History.undo^[n] s.history :=
  (Function.Semiconj.iterate_right (fun _ => history_undo) n) s

theorem history_redo_iterate (n : ℕ) : (redo^[n] s).history = History.redo^[n] s.history :=
  (Function.Semiconj.iterate_right (fun _ => history_redo) n) s

/-- As many redos as undos give back the document. -/
theorem redo_undo_doc {n : ℕ} (enough : n ≤ s.undoStack.length) :
    (redo^[n] (undo^[n] s)).doc = s.doc := by
  have back : (redo^[n] (undo^[n] s)).history = s.history := by
    rw [history_redo_iterate, history_undo_iterate]
    apply History.redo_undo_iterate
    rw [history_past_length]
    exact enough
  exact congrArg History.present back

/-! ### What the calls do to the history -/

/-- Nothing was changed. -/
def Unchanged (s t : EditorStore) : Prop :=
  t.history = s.history ∧ t.gestureOpen = s.gestureOpen

/-- One change was applied. -/
def Applied (phase : Phase) (s t : EditorStore) : Prop :=
  ∃ next, t.history = (s.apply next phase).history ∧ t.gestureOpen = (phase = .move : Bool)

/-- Nothing was changed, or one change was applied. -/
def Edited (phase : Phase) (s t : EditorStore) : Prop := Unchanged s t ∨ Applied phase s t

theorem Unchanged.refl : Unchanged s s := ⟨rfl, rfl⟩

theorem Unchanged.trans {u : EditorStore} (first : Unchanged s t) (then_ : Unchanged t u) :
    Unchanged s u := ⟨then_.1.trans first.1, then_.2.trans first.2⟩

theorem Edited.refl : Edited phase s s := .inl .refl

theorem Applied.apply : Applied phase s (s.apply next phase) := ⟨next, rfl, rfl⟩

theorem moveObject_edited {id : String} {at_ : Coords} (done : Bool) :
    Edited (.of done) s (s.moveObject id at_ done) := .inr .apply

/-- Bending a way is an edit. -/
theorem bend_edited {id : String} {mid : Vec2} (done : Bool) :
    Edited (.of done) s (s.bend id mid done) := by
  unfold bend
  split
  · exact .inr .apply
  · exact .refl

/-- Editing a drawing is an edit. -/
theorem editDrawing_edited {id : String} {change : DrawingChange} (done : Bool) :
    Edited (.of done) s (s.editDrawing id change done) := by
  unfold editDrawing
  split
  · exact .refl
  · exact .inr .apply

theorem place_edited (at_ : Vec2) (drawn : String) : Edited .once s (s.place at_ drawn) :=
  .inr ⟨_, rfl, rfl⟩

theorem placeText_edited (at_ : Vec2) (drawn : String) :
    Edited .once s (s.placeText at_ drawn) := .inr ⟨_, rfl, rfl⟩

/-- Drawing a stroke is an edit. -/
theorem stroke_edited {points : List Vec2} {done : Bool} {drawn : String} :
    Edited .once s (s.stroke points done drawn) := by
  unfold stroke
  split
  · dsimp only
    split
    · exact .inr ⟨_, rfl, rfl⟩
    · exact .inl ⟨rfl, rfl⟩
  · exact .inl ⟨rfl, rfl⟩

/-- Every call but undo and redo changes nothing or applies one change that ends there. -/
theorem perform_edited {op : Op} (forward : op ≠ .undo ∧ op ≠ .redo) :
    Edited .once s (s.perform op) := by
  have closing : ∀ {t}, Edited (.of true) s t → Edited .once s t := by
    intro t edited
    exact edited
  cases op with
  | undo => exact absurd rfl forward.1
  | redo => exact absurd rfl forward.2
  | markSaved => exact .inl ⟨rfl, rfl⟩
  | select target => exact .inl ⟨rfl, rfl⟩
  | pick tool => exact .inl ⟨rfl, rfl⟩
  | choose placing => exact .inl ⟨rfl, rfl⟩
  | ink pen => exact .inl ⟨rfl, rfl⟩
  | clearPreview => exact .inl ⟨rfl, rfl⟩
  | focused => exact .inl ⟨rfl, rfl⟩
  | goToStep i => exact .inl ⟨rfl, rfl⟩
  | moveObject id at_ => exact closing (moveObject_edited true)
  | bend id mid => exact closing (bend_edited true)
  | editDrawing id change => exact closing (editDrawing_edited true)
  | stroke points done drawn => exact stroke_edited
  | duplicateSelection drawn =>
      change Edited .once s (s.duplicateSelection drawn)
      unfold duplicateSelection
      split
      · exact .refl
      · split
        · exact .refl
        · exact .inr ⟨_, rfl, rfl⟩
  | deleteSelection =>
      change Edited .once s s.deleteSelection
      unfold deleteSelection
      split
      · exact .refl
      · exact .inr ⟨_, rfl, rfl⟩
      · exact .inr ⟨_, rfl, rfl⟩
  | removeTeam team =>
      change Edited .once s (s.removeTeam team)
      unfold removeTeam
      dsimp only
      split
      · exact .refl
      · exact .inr ⟨_, rfl, rfl⟩
  | moveStep from_ to_ =>
      change Edited .once s (s.moveStep from_ to_)
      unfold moveStep
      split
      · exact .refl
      · exact .inr ⟨_, rfl, rfl⟩
  | deleteStep =>
      change Edited .once s s.deleteStep
      unfold deleteStep
      split
      · exact .refl
      · exact .inr ⟨_, rfl, rfl⟩
  | place at_ drawn => exact place_edited at_ drawn
  | straighten id => exact .inr .apply
  | updateObject id patch => exact .inr .apply
  | toggleIn listing id => exact .inr .apply
  | addFormation name team side drawn => exact .inr .apply
  | placeText at_ drawn => exact placeText_edited at_ drawn
  | updateDrawing id patch => exact .inr .apply
  | addStep drawn => exact .inr ⟨_, rfl, rfl⟩
  | duplicateStep drawn => exact .inr ⟨_, rfl, rfl⟩
  | updateStep patch => exact .inr .apply
  | setPitch patch => exact .inr .apply
  | setKit team patch => exact .inr .apply
  | clearBoard drawn => exact .inr ⟨_, rfl, rfl⟩

/-- The history is as it was, or has one more entry. -/
def Recorded (s t : EditorStore) : Prop :=
  t.history = s.history ∨ ∃ next, t.history = s.history.record historyLimit next

/-- A gesture that began closed has changed nothing, or has an entry of its own and is
open. -/
def InGesture (s t : EditorStore) : Prop :=
  t.history = s.history ∧ t.gestureOpen = false ∨
    ∃ next, t.history = s.history.record historyLimit next ∧ t.gestureOpen = true

theorem InGesture.recorded (during : InGesture s t) : Recorded s t := by
  rcases during with ⟨same, -⟩ | ⟨next, entry, -⟩
  · exact .inl same
  · exact .inr ⟨next, entry⟩

theorem InGesture.start (closed : s.gestureOpen = false) (same : Unchanged s t) :
    InGesture s t := .inl ⟨same.1, same.2.trans closed⟩

/-- A change within a gesture is recorded once. -/
theorem InGesture.applied {u : EditorStore} (during : InGesture s t) (change : Applied phase t u) :
    ∃ next, u.history = s.history.record historyLimit next := by
  obtain ⟨next, history, -⟩ := change
  refine ⟨next, ?_⟩
  rcases during with ⟨same, closed⟩ | ⟨first, entry, open_⟩
  · rw [history, history_apply_closed closed, same]
  · rw [history, history_apply_open open_, entry, History.amend_record]

/-- A gesture goes on with one entry. -/
theorem InGesture.move {u : EditorStore} (during : InGesture s t) (change : Edited .move t u) :
    InGesture s u := by
  rcases change with same | change
  · rw [InGesture, same.1, same.2]
    exact during
  · obtain ⟨next, entry⟩ := during.applied change
    exact .inr ⟨next, entry, change.choose_spec.2⟩

/-- A gesture ends with one entry. -/
theorem InGesture.finish {u : EditorStore} (during : InGesture s t) (change : Edited phase t u) :
    Recorded s u := by
  rcases change with same | change
  · rw [Recorded, same.1]
    exact during.recorded
  · exact .inr (during.applied change)

/-- The second state has one entry more than the first when its document is another, one
undo from it goes back to the first document, and one redo from there to the second. -/
def OwnEntry (s t : EditorStore) : Prop :=
  t.doc ≠ s.doc → s.undoStack.length < historyLimit →
    t.undoStack = s.undoStack ++ [s.doc] ∧ t.undo.doc = s.doc ∧ t.undo.redo.doc = t.doc

/-- What is recorded once has an entry of its own. -/
theorem Recorded.ownEntry (recorded : Recorded s t) : OwnEntry s t := by
  intro changed room
  rw [← history_past_length] at room
  rcases recorded with same | ⟨next, entry⟩
  · exact absurd (congrArg History.present same) changed
  · have doc : t.doc = next := congrArg History.present entry
    have past : t.history.past = s.doc :: s.undoStack.reverse := by
      rw [entry, History.record_past room]
      rfl
    have back : t.undo.history = ⟨s.history.past, s.doc, [next]⟩ := by
      rw [history_undo, entry, History.undo_record room]
      rfl
    have forth : t.undo.redo.history = t.history := by
      rw [history_redo, history_undo]
      apply History.redo_undo
      rw [past]
      exact Nat.succ_pos _
    refine ⟨?_, congrArg History.present back, congrArg History.present forth⟩
    have stack := congrArg List.reverse past
    rw [history, List.reverse_reverse, List.reverse_cons, List.reverse_reverse] at stack
    exact stack

end EditorStore

/-! ### What the acts do to the history -/

namespace Board

open EditorStore

variable {b : Board} {s : EditorStore}

/-- Dragging a handle is an edit. -/
theorem dragHandle_edited {h : Handle} {at_ : Vec2} (done : Bool) :
    Edited (.of done) b.store (b.dragHandle h at_ done) := by
  cases h with
  | bend id => exact bend_edited done
  | point id index => exact editDrawing_edited done
  | control id => exact editDrawing_edited done

/-- A move changes nothing or applies a change that leaves the gesture open. -/
theorem onPointerMove_edited {at_ : Option Vec2} :
    Edited .move b.store (b.onPointerMove at_).store := by
  unfold onPointerMove
  split
  · exact .refl
  · split
    · exact .inl ⟨rfl, rfl⟩
    · exact .refl
  · exact moveObject_edited false
  · exact dragHandle_edited false
  · exact editDrawing_edited false
  · exact .inl ⟨rfl, rfl⟩

/-- Without a gesture a move changes nothing. -/
theorem onPointerMove_idle {at_ : Option Vec2} (idle : b.gesture = none) :
    Unchanged b.store (b.onPointerMove at_).store ∧ (b.onPointerMove at_).gesture = none := by
  unfold onPointerMove
  rw [idle]
  split
  · exact ⟨.refl, idle⟩
  · split
    · exact ⟨⟨rfl, rfl⟩, rfl⟩
    · exact ⟨.refl, idle⟩
  all_goals cases ‹none = some _›

/-- A press leaves the history alone, or edits the document and begins no gesture. -/
theorem onPointerDown_edited {at_ : Vec2} {hit : Hit} {drawn : String} (idle : b.gesture = none) :
    Unchanged b.store (b.onPointerDown at_ hit drawn).store ∨
      Applied .once b.store (b.onPointerDown at_ hit drawn).store ∧
        (b.onPointerDown at_ hit drawn).gesture = none := by
  unfold onPointerDown
  split
  · exact .inr ⟨⟨_, rfl, rfl⟩, idle⟩
  · exact .inr ⟨⟨_, rfl, rfl⟩, idle⟩
  · split
    · have closing : Edited .once b.store (b.finishPolygon drawn).store := stroke_edited
      rcases closing with same | change
      · exact .inl same
      · exact .inr ⟨change, idle⟩
    · exact .inl ⟨rfl, rfl⟩
  · cases hit <;> exact .inl ⟨rfl, rfl⟩
  · exact .inl ⟨rfl, rfl⟩

/-- A release changes nothing or applies one change. -/
theorem released_edited {at_ : Option Vec2} {drawn : String} :
    ∃ phase, Edited phase b.store (b.released at_ drawn) := by
  unfold released
  split
  · exact ⟨_, moveObject_edited true⟩
  · exact ⟨_, dragHandle_edited true⟩
  · exact ⟨_, editDrawing_edited true⟩
  · exact ⟨_, stroke_edited⟩
  · exact ⟨.once, .refl⟩

theorem onEscape_unchanged : Unchanged b.store b.onEscape.store := by
  unfold onEscape
  dsimp only
  split <;> exact ⟨rfl, rfl⟩

/-- A double click is an edit. -/
theorem onDoubleClick_edited {drawn : String} :
    Edited .once b.store (b.onDoubleClick drawn).store := by
  unfold onDoubleClick
  split
  · exact stroke_edited
  · exact .refl

/-- The moves of a gesture share its entry. -/
theorem dragged_inGesture {moves : List (Option Vec2)} (during : InGesture s b.store) :
    InGesture s (b.dragged moves).store := by
  induction moves generalizing b with
  | nil => exact during
  | cons at_ moves ih => exact ih (during.move onPointerMove_edited)

/-- A drag with nothing held changes nothing. -/
theorem dragged_idle {moves : List (Option Vec2)} (idle : b.gesture = none) :
    Unchanged b.store (b.dragged moves).store ∧ (b.dragged moves).gesture = none := by
  induction moves generalizing b with
  | nil => exact ⟨.refl, idle⟩
  | cons at_ moves ih =>
      obtain ⟨first, still⟩ : Unchanged b.store (b.onPointerMove at_).store ∧
          (b.onPointerMove at_).gesture = none := onPointerMove_idle idle
      obtain ⟨rest, end_⟩ := ih still
      exact ⟨first.trans rest, end_⟩

/-- A gesture that ends is recorded once. -/
theorem ended_recorded {ending : Ending} (during : InGesture s b.store) :
    Recorded s (b.ended ending).store := by
  cases ending with
  | released at_ drawn =>
      obtain ⟨phase, edited⟩ : ∃ phase, Edited phase b.store (b.released at_ drawn) :=
        released_edited
      exact during.finish edited
  | escaped =>
      have edited : Edited .once b.store b.onEscape.store := .inl onEscape_unchanged
      exact during.finish edited
  | interrupted => exact during.recorded

/-- The end of a gesture with nothing held changes nothing. -/
theorem ended_idle {ending : Ending} (idle : b.gesture = none) :
    Unchanged b.store (b.ended ending).store := by
  cases ending with
  | released at_ drawn =>
      change Unchanged b.store (b.released at_ drawn)
      unfold released
      rw [idle]
      exact .refl
  | escaped => exact onEscape_unchanged
  | interrupted => exact .refl

/-- Without a gesture neither the moves nor the end change anything. -/
theorem rest_idle {moves : List (Option Vec2)} {ending : Ending} (idle : b.gesture = none) :
    Unchanged b.store ((b.dragged moves).ended ending).store :=
  (dragged_idle idle).1.trans (ended_idle (dragged_idle idle).2)

/-- A gesture that begins closed has at most one entry, which is its own. -/
theorem drag_recorded {press : Option Press} {moves : List (Option Vec2)} {ending : Ending}
    (closed : b.store.gestureOpen = false) (ready : press.isSome = true → b.gesture = none) :
    Recorded b.store (b.act (.drag press moves ending)).store := by
  have whole : ∀ {start : Board}, Unchanged b.store start.store →
      Recorded b.store ((start.dragged moves).ended ending).store := by
    intro start same
    exact ended_recorded (dragged_inGesture (.start closed same))
  cases press with
  | none => exact whole .refl
  | some press =>
      have start : InGesture b.store b.store := .start closed .refl
      have down : Unchanged b.store (b.pressed (some press)).store ∨
          Applied .once b.store (b.pressed (some press)).store ∧
            (b.pressed (some press)).gesture = none := by
        rw [pressed_store]
        refine (onPointerDown_edited (ready rfl)).imp_right fun ⟨change, idle⟩ => ⟨change, ?_⟩
        exact followTool_gesture.elim (fun same => same.trans idle) id
      rcases down with same | ⟨change, idle⟩
      · exact whole same
      · -- The press was the edit; nothing follows it.
        obtain ⟨next, entry⟩ := start.applied change
        exact .inr ⟨next, (rest_idle idle).1.trans entry⟩

/-- Every edit and every gesture that begins closed has at most one entry, which is its
own. -/
theorem act_recorded {act : Act} (edits : act.edits = true)
    (closed : b.store.gestureOpen = false) (ready : act.presses = true → b.gesture = none) :
    Recorded b.store (b.act act).store := by
  have start : InGesture b.store b.store := .start closed .refl
  cases act with
  | op op =>
      rw [act_op_store]
      apply start.finish
      apply perform_edited
      constructor <;> rintro rfl <;> cases edits
  | load doc => cases edits
  | drag press moves ending =>
      apply drag_recorded closed
      cases press with
      | none => intro some_; cases some_
      | some press => exact ready
  | doubleClick drawn => exact start.finish onDoubleClick_edited
  | escape => cases edits

end Board

/-! ### Whole runs -/

/-- No edit and no gesture begins while an earlier gesture is open. -/
def Settled (b : Board) (act : Act) : Prop :=
  act.edits = true → b.store.gestureOpen = false

/-- In every run whose acts meet a condition, each edit and each gesture is one entry of its
own, and as many redos as undos give back the document. -/
def UndoExact (ok : Board → Act → Prop) : Prop :=
  ∀ b, editor.Reach ok b →
    (∀ act b', ok b act → editor.next b act = some b' → act.edits = true →
      b.store.OwnEntry b'.store) ∧
    ∀ n ≤ b.store.undoStack.length,
      (EditorStore.redo^[n] (EditorStore.undo^[n] b.store)).doc = b.store.doc

/-- Undo and redo are exact in every run in which no edit and no gesture begins while an
earlier gesture is open. -/
theorem undo_exact (b : Board) : editor.Reach Settled b →
    (∀ act b', Settled b act → editor.next b act = some b' → act.edits = true →
      b.store.OwnEntry b'.store) ∧
    ∀ n ≤ b.store.undoStack.length,
      (EditorStore.redo^[n] (EditorStore.undo^[n] b.store)).doc = b.store.doc := by
  intro _
  refine ⟨?_, fun n enough => EditorStore.redo_undo_doc enough⟩
  intro act b' settled next edits
  obtain ⟨ready, rfl⟩ := editor_next next
  exact (Board.act_recorded edits (settled edits) ready).ownEntry

/-- A player placed and taken back leaves the board as it was. -/
theorem undo_exact_placed :
    let b := (Board.opened (emptyDoc "first")).act (.op (.place ⟨0, 0⟩ "player"))
    b.store.OwnEntry (b.act (.op (.addStep "second"))).store ∧
      b.store.undo.redo.doc = b.store.doc := by
  intro b
  have reach : editor.Reach Settled b :=
    ⟨.opened (emptyDoc "first"), ⟨_, rfl⟩,
      .head ⟨.op (.place ⟨0, 0⟩ "player"), fun _ => rfl, rfl⟩ (.refl _)⟩
  have both := undo_exact b reach
  exact ⟨both.1 (.op (.addStep "second")) _ (fun _ => rfl) rfl rfl,
    both.2 1 (by decide +kernel)⟩

/-- A ball that is placed and dragged until Escape is pressed. -/
def escapedDrag : List Act :=
  [.op (.choose (.equipment .ball)), .op (.pick .place),
    .drag (some ⟨⟨0, 0⟩, .nothing, "ball"⟩) [] (.released (some ⟨0, 0⟩) ""),
    .op (.pick .select),
    .drag (some ⟨⟨0, 0⟩, .object "ball", ""⟩) [some ⟨5, 0⟩] .escaped]

/-- Where the escaped drag leaves the editor. -/
def afterEscape : Board := editor.after Machine.always (.opened (emptyDoc "first")) escapedDrag

/-- A step added after an escaped drag is no entry of its own. -/
theorem undo_not_exact : ¬ UndoExact Machine.always := by
  intro exact_
  have reached : editor.Reach Machine.always afterEscape :=
    Machine.reach_after ⟨emptyDoc "first", rfl⟩ (by decide +kernel)
  have own := (exact_ afterEscape reached).1 (.op (.addStep "second")) _ trivial rfl rfl
  have changed : (afterEscape.act (.op (.addStep "second"))).store.doc ≠ afterEscape.store.doc := by
    decide +kernel
  obtain ⟨entry, -⟩ := own changed (by decide +kernel)
  have longer := congrArg List.length entry
  revert longer
  decide +kernel

/-! ### The entries in play -/

namespace EditorStore

variable {s t : EditorStore} {phase : Phase}

/-- No more entries are in play than the limit. -/
def Few (s : EditorStore) : Prop := s.history.entries ≤ historyLimit

/-- An edit leaves few enough entries. -/
theorem Edited.few (edited : Edited phase s t) (few : s.Few) : t.Few := by
  unfold Few at few ⊢
  rcases edited with same | ⟨next, entry, -⟩
  · rw [same.1]
    exact few
  · rw [entry]
    cases open_ : s.gestureOpen with
    | false =>
        rw [history_apply_closed open_]
        exact History.entries_record
    | true =>
        rw [history_apply_open open_]
        exact few

end EditorStore

namespace Board

open EditorStore

variable {b : Board}

/-- A press leaves few enough entries. -/
theorem onPointerDown_few {at_ : Vec2} {hit : Hit} {drawn : String} (few : b.store.Few) :
    (b.onPointerDown at_ hit drawn).store.Few := by
  unfold onPointerDown
  split
  · exact (place_edited (clampToArea at_) drawn).few few
  · exact (placeText_edited (clampToArea at_) drawn).few few
  · split
    · exact stroke_edited.few few
    · exact stroke_edited.few few
  · cases hit <;> exact few
  · exact stroke_edited.few few

theorem dragged_few {moves : List (Option Vec2)} (few : b.store.Few) :
    (b.dragged moves).store.Few := by
  induction moves generalizing b with
  | nil => exact few
  | cons at_ moves ih => exact ih (onPointerMove_edited.few few)

/-- The end of a gesture leaves few enough entries. -/
theorem ended_few {ending : Ending} (few : b.store.Few) : (b.ended ending).store.Few := by
  cases ending with
  | released at_ drawn =>
      obtain ⟨phase, edited⟩ : ∃ phase, Edited phase b.store (b.released at_ drawn) :=
        released_edited
      exact edited.few few
  | escaped =>
      have edited : Edited .once b.store b.onEscape.store := .inl onEscape_unchanged
      exact edited.few few
  | interrupted => exact few

/-- Whatever the board does leaves few enough entries. -/
theorem act_few {act : Act} (few : b.store.Few) : (b.act act).store.Few := by
  cases act with
  | op op =>
      rw [act_op_store]
      by_cases back : op = .undo
      · subst back
        change b.store.undo.history.entries ≤ historyLimit
        rw [history_undo, History.entries_undo]
        exact few
      · by_cases forth : op = .redo
        · subst forth
          change b.store.redo.history.entries ≤ historyLimit
          rw [history_redo, History.entries_redo]
          exact few
        · exact (perform_edited ⟨back, forth⟩).few few
  | load doc => exact Nat.zero_le _
  | drag press moves ending =>
      apply ended_few
      apply dragged_few
      cases press with
      | none => exact few
      | some press =>
          rw [pressed_store]
          exact onPointerDown_few few
  | doubleClick drawn => exact onDoubleClick_edited.few few
  | escape =>
      have edited : Edited .once b.store b.onEscape.store := .inl onEscape_unchanged
      exact edited.few few

end Board

/-- In every run at most a hundred entries are in play. -/
theorem few_of_reach {ok : Board → Act → Prop} {b : Board} (reach : editor.Reach ok b) :
    b.store.Few := by
  apply reach.invariant
  · rintro _ ⟨doc, rfl⟩
    exact Nat.zero_le _
  · intro b b' act few _ next
    obtain ⟨-, rfl⟩ := editor_next next
    exact Board.act_few few

end ScoutPulse.Tactics
