import ScoutPulse.Tactics.Editing
import ScoutPulse.Tactics.Meeting
import ScoutPulse.Tactics.SoundEdits

/-!
# A board is stored as it was edited

Every call on the store keeps its documents sound, the ones in its history too, so that what
is saved is read as it was written. The one call that may not is `updateObject`, of an object
whose id or kind is the empty text.
-/

namespace ScoutPulse.Tactics.Loaded

open Js Opened

/-! ## Every run keeps the documents sound -/

section Runs

/-- Every document of the store is sound, the ones in its history too. -/
structure Editor.Kept (s : Editor) : Prop where
  doc : s.doc.Sound
  undone : ∀ d ∈ s.undoStack, d.Sound
  redone : ∀ d ∈ s.redoStack, d.Sound

namespace Editor

variable {s s' : Editor} {doc : Doc} {next : Except Thrown Doc} {phase : Phase}
  {fn : Fields → Except Thrown Fields}

theorem Kept.look (kept : s.Kept) {stepIndex : ℕ} {selection : Option Target} {tool : Tool} :
    ({ s with stepIndex := stepIndex, selection := selection, tool := tool } : Editor).Kept :=
  ⟨kept.doc, kept.undone, kept.redone⟩

/-- The documents stay sound when a sound one is applied. -/
theorem Kept.apply (kept : s.Kept) (sound : doc.Sound) : (s.apply doc phase).Kept where
  doc := sound
  undone := by
    rw [Editor.apply]
    split_ifs
    · exact kept.undone
    · intro d member
      rcases List.mem_append.mp member with old | new
      · exact kept.undone d (List.mem_of_mem_drop old)
      · exact List.mem_singleton.mp new ▸ kept.doc
  redone := by
    rw [Editor.apply]
    split_ifs
    · exact kept.redone
    · intro d member
      cases member

theorem Kept.applied (kept : s.Kept) (sound : ∀ doc, next = .ok doc → doc.Sound)
    (done : s.applied next phase = .ok s') : s'.Kept := by
  obtain ⟨doc, made, same⟩ := Outcome.bind_ok_iff.mp done
  cases same
  exact kept.apply (sound doc made)

/-- A change of the current step. -/
theorem Kept.current (kept : s.Kept)
    (keeps : ∀ t t', StepSound t → fn t = .ok t' → StepSound t')
    (done : s.applied (s.withCurrentStep fn) phase = .ok s') : s'.Kept :=
  kept.applied (fun _ made => kept.doc.withStep keeps made) done

theorem Kept.afterHistory (kept : s.Kept) : s.afterHistory.Kept := by
  unfold Editor.afterHistory
  simp only
  split <;> exact ⟨kept.doc, kept.undone, kept.redone⟩

/-- The documents stay sound when an edit is undone. -/
theorem Kept.undo (kept : s.Kept) : s.undo.Kept := by
  unfold Editor.undo
  split
  · exact kept
  · rename_i doc last
    apply Kept.afterHistory
    constructor
    · exact kept.undone doc (List.mem_of_getLast? last)
    · exact fun d member => kept.undone d ((List.dropLast_sublist _).subset member)
    · exact List.forall_mem_append.mpr ⟨kept.redone, by simpa using kept.doc⟩

/-- The documents stay sound when an edit is redone. -/
theorem Kept.redo (kept : s.Kept) : s.redo.Kept := by
  unfold Editor.redo
  split
  · exact kept
  · rename_i doc last
    apply Kept.afterHistory
    constructor
    · exact kept.redone doc (List.mem_of_getLast? last)
    · exact List.forall_mem_append.mpr ⟨kept.undone, by simpa using kept.doc⟩
    · exact fun d member => kept.redone d ((List.dropLast_sublist _).subset member)

/-! ### Objects -/

/-- A copy of a sound object is sound. -/
theorem copied_sound (s : Editor) {o : Object} (sound : ObjectSound o) (drawn : String)
    (one : ℕ → Bool) : ObjectSound (s.copied o drawn one) := by
  have copy : ObjectSound (o.put "id" (.str drawn)) := by
    obtain ⟨kind, found⟩ := sound.kind
    exact ⟨⟨drawn, by simp⟩, ⟨kind, by simpa using found⟩⟩
  unfold Editor.copied
  simp only
  split_ifs
  · split
    · exact copy.put (by decide)
    · exact copy
  · exact copy

/-- An object that is placed is sound. -/
theorem placed_sound [Literals] (s : Editor) (at_ : Vec2) (drawn : String) :
    ObjectSound (s.placed at_ drawn) := by
  unfold Editor.placed
  split
  · rename_i team keeper _
    cases keeper
    · exact .of (by simp)
    · exact .of (by simp)
  · simp only [List.cons_append, List.nil_append]
    apply ObjectSound.of
    split_ifs <;> simp

/-- The documents stay sound when an object is placed. -/
theorem Kept.place [Literals] (kept : s.Kept) {at_ : Vec2} {drawn : String}
    (done : s.place at_ drawn = .ok s') : s'.Kept := by
  obtain ⟨doc, made, same⟩ := Outcome.bind_ok_iff.mp done
  cases same
  have added := kept.doc.withObjects
    (List.forall_mem_singleton.mpr (placed_sound s at_ drawn))
  apply Kept.look
  apply kept.apply
  apply added.withStep _ made
  intro t t' sound same
  cases same
  exact sound.putPosition

/-- The documents stay sound when a way is bent. -/
theorem Kept.bend [Implementation] [Literals] (kept : s.Kept) {id : String} {mid : Vec2}
    {finished : Bool}
    (done : s.bend id mid finished = .ok s') : s'.Kept := by
  unfold Editor.bend at done
  split at done
  · obtain ⟨control, _, applied⟩ := Outcome.bind_ok_iff.mp done
    apply kept.current _ applied
    intro t t' sound same
    cases same
    exact sound.putOther (by decide)
  · cases done
    exact kept

/-- The documents stay sound when an object is marked in a step. -/
theorem Kept.toggleIn (kept : s.Kept) {listing : Listing} {id : String}
    (done : s.toggleIn listing id = .ok s') : s'.Kept := by
  apply kept.current _ done
  intro t t' sound made
  obtain ⟨items, _, same⟩ := Outcome.bind_ok_iff.mp made
  cases same
  exact sound.putOther listingText_notMem

/-- The documents stay sound when what is selected is duplicated. -/
theorem Kept.duplicateSelection [Implementation] [Literals] (kept : s.Kept) {drawn : String}
    {one : ℕ → Bool}
    (done : s.duplicateSelection drawn one = .ok s') : s'.Kept := by
  unfold Editor.duplicateSelection at done
  split at done
  · split at done
    · cases done
      exact kept
    · rename_i o found
      split at done
      · cases done
        exact kept
      · obtain ⟨x, _, rest⟩ := Outcome.bind_ok_iff.mp done
        obtain ⟨y, _, rest⟩ := Outcome.bind_ok_iff.mp rest
        obtain ⟨doc, made, same⟩ := Outcome.bind_ok_iff.mp rest
        cases same
        have source := kept.doc.objects o (List.mem_of_find?_eq_some found)
        have added := kept.doc.withObjects
          (List.forall_mem_singleton.mpr (copied_sound s source drawn one))
        apply Kept.look
        apply kept.apply
        apply added.withStep _ made
        intro t t' sound same
        cases same
        exact sound.putPosition
  · cases done
    exact kept

/-- The documents stay sound when what is selected is deleted. -/
theorem Kept.deleteSelection (kept : s.Kept) (done : s.deleteSelection = .ok s') : s'.Kept := by
  unfold Editor.deleteSelection at done
  split at done
  · cases done
    exact kept
  · obtain ⟨doc, made, same⟩ := Outcome.bind_ok_iff.mp done
    cases same
    exact (kept.apply (kept.doc.withoutObject made)).look
  · obtain ⟨doc, made, same⟩ := Outcome.bind_ok_iff.mp done
    cases same
    apply Kept.look
    apply kept.apply
    apply kept.doc.withStep _ made
    intro t t' sound marked
    obtain ⟨drawings, _, same⟩ := Outcome.bind_ok_iff.mp marked
    cases same
    exact sound.draw

/-- The objects of a formation are sound. -/
theorem formation_sound [Literals] {name : String} {team : TeamId} {side : Side}
    {drawn : ℕ → String} :
    ∀ o ∈ (formation name team side drawn).1, ObjectSound o := by
  rw [formation, List.forall_mem_cons]
  constructor
  · exact .of (by simp)
  · intro o member
    obtain ⟨k, _, rfl⟩ := List.mem_mapIdx.mp member
    exact .of (by simp)

/-- The documents stay sound when a formation is added. -/
theorem Kept.addFormation [Literals] (kept : s.Kept) {name : String} {team : TeamId} {side : Side}
    {drawn : ℕ → String} (done : s.addFormation name team side drawn = .ok s') : s'.Kept := by
  apply kept.applied _ done
  intro doc made
  apply (kept.doc.withObjects formation_sound).withStep _ made
  intro t t' sound same
  cases same
  exact sound.put .ofPlaces

/-- The documents stay sound when a team is removed. -/
theorem Kept.removeTeam (kept : s.Kept) {team : TeamId} : (s.removeTeam team).Kept := by
  unfold Editor.removeTeam
  simp only
  split_ifs
  · exact kept
  · exact (kept.apply kept.doc.withoutObjects).look

/-! ### Drawings -/

/-- The documents stay sound when a stroke is drawn. -/
theorem Kept.stroke [Literals] (kept : s.Kept) {points : List Vec2} {finished : Bool}
    {drawn : String}
    (done : s.stroke points finished drawn = .ok s') : s'.Kept := by
  unfold Editor.stroke at done
  split at done
  · split at done
    · split at done
      · cases done
        exact kept
      · obtain ⟨doc, made, same⟩ := Outcome.bind_ok_iff.mp done
        cases same
        apply Kept.look
        apply kept.apply
        apply kept.doc.withStep _ made
        intro t t' sound same
        cases same
        exact sound.draw
    · cases done
  · cases done
    exact kept

/-- The documents stay sound when a text is placed. -/
theorem Kept.placeText [Literals] (kept : s.Kept) {at_ : Vec2} {drawn : String}
    (done : s.placeText at_ drawn = .ok s') : s'.Kept := by
  obtain ⟨doc, made, same⟩ := Outcome.bind_ok_iff.mp done
  cases same
  apply Kept.look
  apply kept.apply
  apply kept.doc.withStep _ made
  intro t t' sound same
  cases same
  exact sound.draw

/-- A change of one of the drawings of the current step. -/
theorem Kept.onDrawings (kept : s.Kept) {id : String} {change : Object → Except Thrown Object}
    (done : s.applied (s.withCurrentStep (onDrawings id change)) phase = .ok s') : s'.Kept := by
  apply kept.current _ done
  intro t t' sound made
  obtain ⟨drawings, _, same⟩ := Outcome.bind_ok_iff.mp made
  cases same
  exact sound.draw

/-! ### Steps -/

theorem Kept.addStep (kept : s.Kept) {drawn : String} : (s.addStep drawn).Kept :=
  (kept.apply (kept.doc.insertStep newStep_sound)).look

/-- The documents stay sound when a step is duplicated. -/
theorem Kept.duplicateStep (kept : s.Kept) {drawn : ℕ → String}
    (done : s.duplicateStep drawn = .ok s') : s'.Kept := by
  unfold Editor.duplicateStep at done
  split at done
  · cases done
  · rename_i t found
    cases done
    have copy : StepSound (copyStep drawn t) :=
      (kept.doc.steps t (List.mem_of_getElem? found)).copy
    exact (kept.apply (kept.doc.insertStep copy)).look

theorem nearest_lt (kept : s.Kept) {i : ℤ} : (s.nearest i).toNat < s.doc.steps.length := by
  have some_ := List.length_pos_iff.mpr kept.doc.some_
  rw [Editor.nearest]
  omega

/-- The documents stay sound when a step is moved. -/
theorem Kept.moveStep (kept : s.Kept) {from_ to_ : ℤ} {one : ℕ → ℕ → Bool} :
    (s.moveStep from_ to_ one).Kept := by
  unfold Editor.moveStep
  split_ifs
  · exact kept
  · exact (kept.apply (kept.doc.reorder (nearest_lt kept))).look

theorem Kept.deleteStep (kept : s.Kept) : s.deleteStep.Kept := by
  unfold Editor.deleteStep
  split_ifs with few
  · exact kept
  · exact (kept.apply (kept.doc.removeStep (by omega))).look

/-! ### Board settings -/

theorem Kept.setPitch (kept : s.Kept) {patch : List (String × Json)} : (s.setPitch patch).Kept := by
  apply kept.apply
  exact ⟨Properties.prefix_assign kept.doc.pitch, kept.doc.teams, kept.doc.objects,
    kept.doc.some_, kept.doc.steps⟩

/-- The documents stay sound when a kit is set. -/
theorem Kept.setKit (kept : s.Kept) {team : TeamId} {patch : List (String × Json)} :
    (s.setKit team patch).Kept := by
  apply kept.apply
  refine ⟨kept.doc.pitch, ?_, kept.doc.objects, kept.doc.some_, kept.doc.steps⟩
  intro id
  rw [Doc.patchKit]
  simp only
  split_ifs
  · exact Properties.prefix_assign (kept.doc.teams id)
  · exact kept.doc.teams id

theorem Kept.clearBoard (kept : s.Kept) {drawn : String} : (s.clearBoard drawn).Kept := by
  apply Kept.look
  apply kept.apply
  apply kept.doc.subset (List.nil_subset _) (List.cons_ne_nil _ _)
  exact List.forall_mem_singleton.mpr newStep_sound

end Editor

/-- A call of `updateObject` leaves every object it is for an id and a kind that are not
empty. -/
def Careful (s : Editor) : Event → Prop
  | .updateObject id patch =>
      ∀ o ∈ s.doc.objects, idOf o = some id → Named (o.present.assign patch.members)
  | _ => True

variable [Implementation] [Literals]

open Editor in
/-- What one call does to the documents of the store. -/
theorem Editor.Kept.perform {s s' : Editor} {event : Event} (kept : s.Kept)
    (careful : Careful s event) (done : s.perform event = .ok s') : s'.Kept := by
  cases event with
  | load newId raw =>
      cases done
      exact ⟨normalizeDoc_sound newId raw, by simp [Editor.load], by simp [Editor.load]⟩
  | undo =>
      cases done
      exact kept.undo
  | redo =>
      cases done
      exact kept.redo
  | select target =>
      cases done
      exact kept.look
  | pick tool =>
      cases done
      exact kept.look
  | choose placing =>
      cases done
      exact ⟨kept.doc, kept.undone, kept.redone⟩
  | ink pen =>
      cases done
      exact ⟨kept.doc, kept.undone, kept.redone⟩
  | place at_ drawn => exact kept.place done
  | moveObject id at_ finished =>
      apply kept.current _ done
      intro t t' sound same
      cases same
      exact sound.putPosition
  | bend id mid finished => exact kept.bend done
  | straighten id =>
      apply kept.current _ done
      intro t t' sound same
      cases same
      exact sound.putOther (by decide)
  | updateObject id patch =>
      cases done
      exact kept.apply (kept.doc.updateObject careful)
  | toggleIn listing id => exact kept.toggleIn done
  | duplicateSelection drawn one => exact kept.duplicateSelection done
  | deleteSelection => exact kept.deleteSelection done
  | addFormation name team side drawn => exact kept.addFormation done
  | removeTeam team =>
      cases done
      exact kept.removeTeam
  | stroke points finished drawn => exact kept.stroke done
  | placeText at_ drawn => exact kept.placeText done
  | editDrawing id change finished => exact kept.onDrawings done
  | updateDrawing id patch => exact kept.onDrawings done
  | goToStep i =>
      cases done
      exact kept.look
  | addStep drawn =>
      cases done
      exact kept.addStep
  | duplicateStep drawn => exact kept.duplicateStep done
  | moveStep from_ to_ one =>
      cases done
      exact kept.moveStep
  | deleteStep =>
      cases done
      exact kept.deleteStep
  | updateStep patch =>
      apply kept.current _ done
      intro t t' sound same
      cases same
      exact sound.patch patch
  | setPitch patch =>
      cases done
      exact kept.setPitch
  | setKit team patch =>
      cases done
      exact kept.setKit
  | clearBoard drawn =>
      cases done
      exact kept.clearBoard

/-- The documents are sound in every state that careful edits reach. -/
theorem kept_of_reach {s : Editor} (reach : editing.Reach Careful s) : s.Kept := by
  apply reach.invariant
  · rintro t ⟨drawn, rfl⟩
    exact ⟨emptyDoc_sound, by simp [Editor.fresh], by simp [Editor.fresh]⟩
  · intro t t' event kept careful taken
    exact kept.perform careful (Outcome.toOption_eq_some_iff.mp taken)

/-- After a call, the document is read as it was written if the call was careful, and else
it is not. -/
theorem Editor.Kept.keeps_iff {s s' : Editor} {event : Event} (kept : s.Kept)
    (done : s.perform event = .ok s') {newId : ℕ → String} :
    (normalizeDoc newId s'.doc.json).json = s'.doc.json ↔ Careful s event := by
  constructor
  · intro same
    have sound := objects_sound same
    cases event with
    | updateObject id patch =>
        cases done
        intro o member its
        apply clean_sound_iff.mp
        apply sound
        apply List.mem_map.mpr
        exact ⟨o, member, if_pos its⟩
    | _ => trivial
  · intro careful
    rw [normalizeDoc_json (kept.perform careful done).doc, json_settled]

/-- A document is read from JSON as it was written, whatever the editor did to it, and the
next call leaves it so exactly when it is careful; and what is loaded is not changed by
loading it again. -/
theorem normalizeDoc_keeps :
    (∀ s newId, editing.Reach Careful s →
      (normalizeDoc newId s.doc.json).json = s.doc.json ∧
        ∀ event s', s.perform event = .ok s' →
          ((normalizeDoc newId s'.doc.json).json = s'.doc.json ↔ Careful s event)) ∧
      ∀ newId newId' raw,
        normalizeDoc newId' (normalizeDoc newId raw).json = normalizeDoc newId raw := by
  constructor
  · intro s newId reach
    have kept := kept_of_reach reach
    constructor
    · rw [normalizeDoc_json kept.doc, json_settled]
    · exact fun event s' done => kept.keeps_iff done
  · intro newId newId' raw
    rw [normalizeDoc_json (normalizeDoc_sound newId raw), settled_normalizeDoc]

end Runs

/-! ## An object that is lost -/

/-- Numbers as they are written where none is. -/
@[reducible] def noLiterals : Literals := ⟨fun _ => ⟨false, 0, 0⟩⟩

/-- A stored board with one player. -/
def playerBoard (id : String) : Json :=
  .obj [("objects", .arr [.obj [("id", .str id), ("kind", .str "player")]])]

/-- A name for an object. -/
def naming (name : String) : ObjectPatch where
  members := [("name", some (.str name))]
  texts := by
    intro key v member kinds
    cases List.mem_singleton.mp member
    simp at kinds

/-- A stored board whose only step places an object with an empty kind. -/
def unnamedKind : Json :=
  .obj [("objects", .arr [.obj [("id", .str "p"), ("kind", .str "")]]),
    ("steps", .arr [.obj [("id", .str "s"),
      ("pos", .obj [("p", .arr [.num ⟨false, 10, 0⟩, .num ⟨false, 0, 0⟩])])]])]

/-- What the size slider sends. -/
def sizing (percent : ℕ) : ObjectPatch where
  members := [("size", some (.num ⟨false, percent, -2⟩))]
  texts := by
    intro key v member kinds
    cases List.mem_singleton.mp member
    simp at kinds

/-- The kind of an object is lost with its empty text when its size is changed, and the object
with it. -/
theorem normalizeDoc_loses :
    let _ := plainMath
    let _ := noLiterals
    ∃ s newId, editing.Reach Machine.always s ∧
      (normalizeDoc newId s.doc.json).json ≠ s.doc.json := by
  intro _ _
  refine ⟨editing.after Machine.always (.fresh "s")
    [.load (fun _ => "s") unnamedKind, .updateObject "p" (sizing 150)], fun _ => "s",
    Machine.reach_after ⟨"s", rfl⟩ rfl, ?_⟩
  intro same
  have counted := congrArg (fun doc => (objectsOf doc).length) same
  revert counted
  decide +kernel

/-- A board whose player is given a name is read as it was written. -/
theorem normalizeDoc_keeps_named :
    let _ := plainMath
    let _ := noLiterals
    ∃ s, editing.Reach Careful s ∧ (objectsOf s.doc.json).length = 1 ∧
      (normalizeDoc (fun _ => "s") s.doc.json).json = s.doc.json := by
  intro _ _
  let loaded := (Editor.fresh "s").load (normalizeDoc (fun _ => "s") (playerBoard "p"))
  have careful : Careful loaded (.updateObject "p" (naming "A")) := by
    intro o member _ key listed
    cases List.mem_singleton.mp member
    simp only [List.mem_cons, List.not_mem_nil, or_false] at listed
    rcases listed with rfl | rfl
    · exact ⟨"p", by decide, rfl⟩
    · exact ⟨"player", by decide, rfl⟩
  have reach : editing.Reach Careful (loaded.updateObject "p" (naming "A")) :=
    ⟨.fresh "s", ⟨"s", rfl⟩, .head ⟨.load (fun _ => "s") (playerBoard "p"), trivial, rfl⟩
      (.head ⟨.updateObject "p" (naming "A"), careful, rfl⟩ (.refl _))⟩
  exact ⟨_, reach, rfl, (normalizeDoc_keeps.1 _ (fun _ => "s") reach).1⟩

end ScoutPulse.Tactics.Loaded
