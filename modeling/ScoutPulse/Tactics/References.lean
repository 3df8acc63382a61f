import ScoutPulse.Tactics.Steps
import ScoutPulse.Tactics.UndoRedo

/-!
# References to objects

The steps of a document name its objects in four places: where they stand, how their paths
bend, which of them are in the air and which are picked out. Every operation of the store
keeps every such name that of an object, except that removing a team leaves its players'
names wherever they do not stand.
-/

namespace ScoutPulse.Tactics

/-- The ids of the objects. -/
def TacticDoc.ids (doc : TacticDoc) : List (Option String) := doc.objects.map (·.id)

/-- The ids that occur in a step beside its positions. -/
def Step.marked (s : Step) : List String :=
  (s.bend.getD ∅).keys ++ (s.air.getD [] ++ s.highlight.getD [])

/-- The ids that occur in a step. -/
def Step.mentioned (s : Step) : List String := s.pos.keys ++ s.marked

/-- Every id that occurs in a step is that of an object. -/
def Intact (doc : TacticDoc) : Prop :=
  ∀ step ∈ doc.steps, ∀ id ∈ step.mentioned, some id ∈ doc.ids

instance (doc : TacticDoc) : Decidable (Intact doc) :=
  inferInstanceAs (Decidable (∀ step ∈ doc.steps, ∀ id ∈ step.mentioned, some id ∈ doc.ids))

/-! ### What a step mentions after a change -/

namespace Step

variable {s : Step} {id other : String}

theorem mem_mentioned : other ∈ s.mentioned ↔ other ∈ s.pos ∨ other ∈ s.bend.getD ∅ ∨
    other ∈ s.air.getD [] ∨ other ∈ s.highlight.getD [] := by
  simp only [mentioned, marked, List.mem_append, AList.mem_keys]

theorem mem_put {at_ : Coords} (member : other ∈ (s.put id at_).mentioned) :
    other = id ∨ other ∈ s.mentioned := by
  simp only [mem_mentioned, put, AList.mem_insert] at member ⊢
  tauto

theorem mem_bent {control : Coords} (member : other ∈ (s.bent id control).mentioned) :
    other = id ∨ other ∈ s.mentioned := by
  simp only [mem_mentioned, bent, Option.getD_some, AList.mem_insert] at member ⊢
  tauto

theorem mem_straight (member : other ∈ (s.straight id).mentioned) : other ∈ s.mentioned := by
  simp only [mem_mentioned, straight, Option.getD_some, AList.mem_erase] at member ⊢
  tauto

/-- Marking an object in a list mentions it. -/
theorem mem_toggled {current : List String} (member : other ∈ toggled current id) :
    other = id ∨ other ∈ current := by
  unfold toggled at member
  split at member
  · exact .inr (List.mem_of_mem_filter member)
  · rcases List.mem_append.mp member with there | new
    · exact .inr there
    · exact .inl (List.mem_singleton.mp new)

/-- Marking an object mentions it. -/
theorem mem_toggle {listing : Listing} (member : other ∈ (s.toggle listing id).mentioned) :
    other = id ∨ other ∈ s.mentioned := by
  cases listing with
  | air =>
      simp only [mem_mentioned, toggle, Option.getD_some] at member ⊢
      have listed : other ∈ toggled (s.air.getD []) id → other = id ∨ other ∈ s.air.getD [] :=
        mem_toggled
      tauto
  | highlight =>
      simp only [mem_mentioned, toggle, Option.getD_some] at member ⊢
      have listed : other ∈ toggled (s.highlight.getD []) id →
          other = id ∨ other ∈ s.highlight.getD [] := mem_toggled
      tauto

/-- A stripped step no longer mentions the object, in any of the four places. -/
theorem mem_strip (member : other ∈ (s.strip id).mentioned) :
    other ≠ id ∧ other ∈ s.mentioned := by
  have bend : other ∈ (s.bend.map (·.erase id)).getD ∅ → other ≠ id ∧ other ∈ s.bend.getD ∅ := by
    cases s.bend with
    | none => simp
    | some r => simp [AList.mem_erase]
  have listed : ∀ list : Option (List String), other ∈ (list.map (·.filter (· ≠ id))).getD [] →
      other ≠ id ∧ other ∈ list.getD [] := by
    intro list
    cases list with
    | none => simp
    | some names => simp [and_comm]
  have air := listed s.air
  have highlight := listed s.highlight
  simp only [mem_mentioned, strip, AList.mem_erase] at member ⊢
  tauto

theorem mem_copy {drawn : ℕ → String} (member : other ∈ (s.copy drawn).mentioned) :
    other ∈ s.mentioned := by
  simp only [mem_mentioned, copy, Option.getD_none, List.not_mem_nil, AList.notMem_empty,
    false_or] at member ⊢
  tauto


end Step

/-- The ids a patch brings into a step. -/
def StepPatch.mentioned (p : StepPatch) : List String :=
  (p.pos.getD ∅).keys ++ (((p.bend.getD none).getD ∅).keys ++
    ((p.air.getD none).getD [] ++ (p.highlight.getD none).getD []))

/-- What holds of a patched field holds of the patch or of the old field. -/
theorem patched_elim {α : Type} {old none_ : α} {patch : Option α} {P : α → Prop}
    (holds : P (patched old patch)) : P (patch.getD none_) ∨ P old := by
  cases patch with
  | none => exact .inr holds
  | some new => exact .inl holds

/-- A step that is patched mentions what the patch does. -/
theorem Step.mem_patch {s : Step} {p : StepPatch} {id : String}
    (member : id ∈ (s.patch p).mentioned) : id ∈ p.mentioned ∨ id ∈ s.mentioned := by
  simp only [StepPatch.mentioned, List.mem_append]
  rcases mem_mentioned.mp member with pos | bend | air | highlight
  · have there : id ∈ p.pos.getD ∅ ∨ id ∈ s.pos := patched_elim (P := (id ∈ ·)) pos
    rw [mem_mentioned]
    tauto
  · have there : id ∈ (p.bend.getD none).getD ∅ ∨ id ∈ s.bend.getD ∅ :=
      patched_elim (P := (id ∈ Option.getD · ∅)) bend
    rw [mem_mentioned]
    tauto
  · have there : id ∈ (p.air.getD none).getD [] ∨ id ∈ s.air.getD [] :=
      patched_elim (P := (id ∈ Option.getD · [])) air
    rw [mem_mentioned]
    tauto
  · have there : id ∈ (p.highlight.getD none).getD [] ∨ id ∈ s.highlight.getD [] :=
      patched_elim (P := (id ∈ Option.getD · [])) highlight
    rw [mem_mentioned]
    tauto

/-! ### What a document mentions after a change -/

namespace TacticDoc

variable {doc next : TacticDoc} {step : Step} {id : String} {k : ℕ} {fn : Step → Step}

/-- A step of a document with one changed is an old one, or is the one changed. -/
theorem mem_withStep (member : step ∈ (doc.withStep k fn).steps) :
    step ∈ doc.steps ∨ ∃ old ∈ doc.steps, step = fn old := by
  obtain ⟨i, inside, rfl⟩ := List.mem_mapIdx.mp member
  split
  · exact .inr ⟨_, List.getElem_mem inside, rfl⟩
  · exact .inl (List.getElem_mem inside)

theorem stepAt_mem : doc.stepAt k ∈ doc.steps := by
  unfold stepAt
  cases found : doc.steps[k]? with
  | none => exact List.head_mem doc.steps_ne
  | some step => exact List.mem_of_getElem? found

/-- A change that keeps the objects there are and mentions no others. -/
theorem intact_of_kept (intact : Intact doc) (kept : ∀ id, some id ∈ doc.ids → some id ∈ next.ids)
    (steps : ∀ step ∈ next.steps, ∀ id ∈ step.mentioned,
      some id ∈ next.ids ∨ ∃ old ∈ doc.steps, id ∈ old.mentioned) : Intact next := by
  intro step member id mentions
  rcases steps step member id mentions with there | ⟨old, earlier, mentions⟩
  · exact there
  · exact kept id (intact old earlier id mentions)

/-- A change of one step of a document with more objects. -/
theorem intact_withStep {objects : List BoardObject} (intact : Intact doc)
    (change : ∀ old ∈ doc.steps, ∀ id ∈ (fn old).mentioned,
      some id ∈ (doc.withObjects objects).ids ∨ id ∈ old.mentioned) :
    Intact ((doc.withObjects objects).withStep k fn) := by
  apply intact_of_kept intact
  · intro id member
    obtain ⟨obj, there, named⟩ := List.mem_map.mp member
    exact List.mem_map.mpr ⟨obj, List.mem_append_left _ there, named⟩
  · intro step member id mentions
    rcases mem_withStep member with same | ⟨old, there, rfl⟩
    · exact .inr ⟨step, same, mentions⟩
    · rcases change old there id mentions with new | before
      · exact .inl new
      · exact .inr ⟨old, there, before⟩

/-- A change of one step. -/
theorem intact_withStep_same (intact : Intact doc)
    (change : ∀ old ∈ doc.steps, ∀ id ∈ (fn old).mentioned,
      some id ∈ doc.ids ∨ id ∈ old.mentioned) : Intact (doc.withStep k fn) := by
  apply intact_of_kept intact
  · intro id member
    exact member
  · intro step member id mentions
    rcases mem_withStep member with same | ⟨old, there, rfl⟩
    · exact .inr ⟨step, same, mentions⟩
    · rcases change old there id mentions with new | before
      · exact .inl new
      · exact .inr ⟨old, there, before⟩

/-- References stay intact when a step comes in that mentions what others do. -/
theorem intact_insertStep {new : Step} (intact : Intact doc)
    (copies : ∀ id ∈ new.mentioned, ∃ old ∈ doc.steps, id ∈ old.mentioned) :
    Intact (doc.insertStep k new) := by
  apply intact_of_kept intact
  · intro id member
    exact member
  · intro step member id mentions
    rcases List.eq_or_mem_of_mem_insertIdx member with rfl | same
    · exact .inr (copies id mentions)
    · exact .inr ⟨step, same, mentions⟩

/-- References stay intact without an object, which no step mentions then. -/
theorem intact_withoutObject (intact : Intact doc) : Intact (doc.withoutObject id) := by
  intro step member other mentions
  obtain ⟨old, there, rfl⟩ := List.mem_map.mp member
  obtain ⟨different, before⟩ := Step.mem_strip mentions
  obtain ⟨obj, known, named⟩ := List.mem_map.mp (intact old there other before)
  refine List.mem_map.mpr ⟨obj, List.mem_filter.mpr ⟨known, ?_⟩, named⟩
  simpa [named] using different

/-- None of some objects is marked in a step beside where it stands. -/
def Unmarked (doc : TacticDoc) (gone : List (Option String)) : Prop :=
  ∀ step ∈ doc.steps, ∀ id ∈ step.marked, some id ∉ gone

/-- References stay intact without several objects that no step mentions. -/
theorem intact_withoutObjects {gone : List (Option String)} (intact : Intact doc)
    (unmarked : doc.Unmarked gone) : Intact (doc.withoutObjects gone) := by
  intro step member id mentions
  obtain ⟨old, there, rfl⟩ := List.mem_map.mp member
  have kept : some id ∉ gone ∧ id ∈ old.mentioned := by
    rcases List.mem_append.mp mentions with stands | marks
    · have stood := Record.mem_of_mem_select (AList.mem_keys.mpr stands)
      obtain ⟨_, stays⟩ := Record.exists_keep_of_mem_select (AList.mem_keys.mpr stands)
      exact ⟨by simpa using stays, List.mem_append_left _ stood⟩
    · exact ⟨unmarked old there id marks, List.mem_append_right _ marks⟩
  obtain ⟨obj, known, named⟩ := List.mem_map.mp (intact old there id kept.2)
  refine List.mem_map.mpr ⟨obj, List.mem_filter.mpr ⟨known, ?_⟩, named⟩
  simpa [named] using kept.1

/-- An object that stands at a step has an id of its own, or a key that some step puts
somewhere. -/
theorem known_of_positionsAt {i : ℤ} {e : Sigma fun _ : Option String => Place}
    (entry : e ∈ (positionsAt doc i).entries) :
    some (idKey e.1) ∈ doc.ids ∨ ∃ old ∈ doc.steps, idKey e.1 ∈ old.mentioned := by
  have found : (positionsAt doc i).lookup e.1 = some e.2 := AList.mem_lookup_iff.mpr entry
  rw [lookup_positionsAt] at found
  split at found
  next known =>
    cases named : e.1 with
    | some id =>
        rw [named] at known
        exact .inl known
    | none =>
        -- The key of an object without an id is no name that every object has.
        rw [named, positionAt, latest_eq_shown] at found
        obtain ⟨j, -, layer⟩ := Layers.exists_of_shown found
        obtain ⟨step, there, stands⟩ := Option.bind_eq_some_iff.mp layer
        rw [Step.stands_of_plain (by decide)] at stands
        refine .inr ⟨step, List.mem_of_getElem? there, Step.mem_mentioned.mpr (.inl ?_)⟩
        rw [← AList.lookup_isSome, stands]
        rfl
  next => cases found

/-- The keys of the positions a step of a new order stores are those of objects that stand at
it. -/
theorem mem_foldl_setPosition {entries : List (Sigma fun _ : Option String => Place)}
    (keep : Option String → Place → Bool) {out : Record Place}
    (member : id ∈ entries.foldl
      (fun pos e => if keep e.1 e.2 then setPosition pos (idKey e.1) e.2 else pos) out) :
    id ∈ out ∨ ∃ e ∈ entries, idKey e.1 = id := by
  induction entries generalizing out with
  | nil => exact .inl member
  | cons e entries ih =>
      rw [List.foldl_cons] at member
      rcases ih member with before | ⟨other, there, same⟩
      · split at before
        · rw [setPosition] at before
          split at before
          · exact .inl before
          · rcases (AList.mem_insert _).mp before with rfl | before
            · exact .inr ⟨e, List.mem_cons_self, rfl⟩
            · exact .inl before
        · exact .inl before
      · exact .inr ⟨other, List.mem_cons_of_mem _ there, same⟩

/-- References stay intact when steps change their order. -/
theorem intact_reorder {origin target : ℕ} (inside : target < doc.steps.length)
    (intact : Intact doc) : Intact (doc.reorder origin target inside) := by
  apply intact_of_kept intact
  · intro id member
    exact member
  · intro step member id mentions
    obtain ⟨i, _, rfl⟩ := List.mem_mapIdx.mp member
    rcases List.mem_append.mp mentions with stands | marks
    · rcases mem_foldl_setPosition
        (fun id p => differs ((doc.before (doc.order origin target) i).lookup id) p)
        (AList.mem_keys.mpr stands) with nothing | ⟨e, entry, rfl⟩
      · exact absurd nothing (AList.notMem_empty _)
      · exact known_of_positionsAt entry
    · exact .inr ⟨_, stepAt_mem, List.mem_append_right _ marks⟩

/-- References stay intact without a step. -/
theorem intact_removeStep (more : 1 < doc.steps.length) (intact : Intact doc) :
    Intact (doc.removeStep k more) := by
  apply intact_of_kept intact
  · intro id member
    exact member
  · intro step member id mentions
    obtain ⟨i, found⟩ := List.mem_iff_getElem?.mp member
    rw [getElem?_removeStep] at found
    split_ifs at found
    · exact .inr ⟨step, List.mem_of_getElem? found, mentions⟩
    · obtain ⟨old, there, rfl⟩ := Option.map_eq_some_iff.mp found
      rw [Step.mem_mentioned, AList.mem_union] at mentions
      by_cases removed : id ∈ (doc.stepAt k).pos
      · exact .inr ⟨_, stepAt_mem, Step.mem_mentioned.mpr (.inl removed)⟩
      · refine .inr ⟨old, List.mem_of_getElem? there, Step.mem_mentioned.mpr ?_⟩
        tauto
    · exact .inr ⟨step, List.mem_of_getElem? found, mentions⟩

end TacticDoc

/-- Every position of a formation is that of one of its players. -/
theorem formation_named {name : String} {team : TeamId} {side : Side} {drawn : ℕ → String} :
    ∀ id ∈ (formation name team side drawn).2,
      some id ∈ (formation name team side drawn).1.map (·.id) := by
  unfold formation
  apply List.foldlRecOn (motive := fun laid : List BoardObject × Record Place =>
    ∀ id ∈ laid.2, some id ∈ laid.1.map (·.id))
  · intro id member
    rcases (AList.mem_insert _).mp member with rfl | nothing
    · exact List.mem_singleton_self _
    · exact absurd nothing (AList.notMem_empty _)
  · intro laid named spot _ id member
    rw [AList.mem_insert] at member
    rw [List.map_append, List.mem_append]
    rcases member with rfl | earlier
    · exact .inr (List.mem_singleton_self _)
    · exact .inl (named id earlier)

/-! ### What the calls do to the references -/

/-- A patch leaves an object its id: it gives it no other, and there is one that is not cleared
away as an empty text. -/
def ObjectPatch.KeepsId (patch : ObjectPatch) (id : String) : Prop :=
  clean (patched (some id) patch.id) = some id

instance (patch : ObjectPatch) (id : String) : Decidable (patch.KeepsId id) :=
  inferInstanceAs (Decidable (_ = _))

/-- The objects a call names are there, and keep their ids. -/
def Op.named (doc : TacticDoc) : Op → Prop
  | .moveObject id _ => some id ∈ doc.ids
  | .bend id _ => some id ∈ doc.ids
  | .toggleIn _ id => some id ∈ doc.ids
  | .updateObject id patch => patch.KeepsId id
  | .updateStep patch => ∀ id ∈ patch.mentioned, some id ∈ doc.ids
  | _ => True

/-- A call that removes a team removes players that are not marked in any step beside where
they stand. -/
def Op.removesUnmarked (doc : TacticDoc) : Op → Prop
  | .removeTeam team => doc.Unmarked (doc.players team)
  | _ => True

namespace EditorStore

open TacticDoc

variable {s : EditorStore}

/-- References stay intact when an object that is there is moved. -/
theorem intact_moveObject {id : String} {at_ : Coords} {done : Bool} (intact : Intact s.doc)
    (known : some id ∈ s.doc.ids) : Intact (s.moveObject id at_ done).doc := by
  apply intact_withStep_same intact
  intro old _ other mentions
  rcases Step.mem_put mentions with rfl | before
  · exact .inl known
  · exact .inr before

/-- References stay intact when the way of an object that is there is bent. -/
theorem intact_bend {id : String} {mid : Vec2} {done : Bool} (intact : Intact s.doc)
    (known : some id ∈ s.doc.ids) : Intact (s.bend id mid done).doc := by
  unfold bend
  split
  · apply intact_withStep_same intact
    intro old _ other mentions
    rcases Step.mem_bent mentions with rfl | before
    · exact .inl known
    · exact .inr before
  · exact intact

/-- Drawings name no objects. -/
theorem intact_draw {fn : List Drawing → List Drawing} (intact : Intact s.doc) :
    Intact (s.withCurrentStep (·.draw fn)) :=
  intact_withStep_same intact fun _ _ _ mentions => .inr mentions

/-- References stay intact when a drawing is edited. -/
theorem intact_editDrawing {id : String} {change : DrawingChange} {done : Bool}
    (intact : Intact s.doc) : Intact (s.editDrawing id change done).doc := by
  unfold editDrawing
  split
  · exact intact
  · exact intact_draw intact

/-- References stay intact when a stroke is drawn. -/
theorem intact_stroke {points : List Vec2} {done : Bool} {drawn : String}
    (intact : Intact s.doc) : Intact (s.stroke points done drawn).doc := by
  unfold stroke
  split
  · dsimp only
    split
    · exact intact_draw intact
    · exact intact
  · exact intact

/-- An object put in with its position. -/
theorem intact_put {obj : BoardObject} {drawn : String} (named : obj.id = some drawn)
    (at_ : Coords) (intact : Intact s.doc) :
    Intact ((s.doc.withObjects [obj]).withStep s.stepIndex (·.put drawn at_)) := by
  apply intact_withStep intact
  intro old _ id mentions
  rcases Step.mem_put mentions with rfl | before
  · refine .inl (List.mem_map.mpr ⟨obj, ?_, named⟩)
    exact List.mem_append_right _ (List.mem_singleton_self obj)
  · exact .inr before

theorem placed_id {at_ : Vec2} {drawn : String} : (s.placed at_ drawn).id = some drawn := by
  unfold placed
  split <;> rfl

theorem copied_id {obj : BoardObject} {drawn : String} :
    (s.copied obj drawn).id = some drawn := by
  unfold copied
  split <;> rfl

theorem intact_place {at_ : Vec2} {drawn : String} (intact : Intact s.doc) :
    Intact (s.place at_ drawn).doc := intact_put placed_id (some at_) intact

/-- References stay intact when what is selected is duplicated. -/
theorem intact_duplicateSelection {drawn : String} (intact : Intact s.doc) :
    Intact (s.duplicateSelection drawn).doc := by
  unfold duplicateSelection
  split
  · exact intact
  · split
    · exact intact
    · exact intact_put copied_id _ intact

/-- References stay intact when what is selected is deleted. -/
theorem intact_deleteSelection (intact : Intact s.doc) : Intact s.deleteSelection.doc := by
  unfold deleteSelection
  split
  · exact intact
  · exact intact_withoutObject intact
  · exact intact_draw intact

/-- References stay intact when a formation is added. -/
theorem intact_addFormation {name : String} {team : TeamId} {side : Side} {drawn : ℕ → String}
    (intact : Intact s.doc) : Intact (s.addFormation name team side drawn).doc := by
  apply intact_withStep intact
  intro old _ id mentions
  rw [Step.mem_mentioned, AList.mem_union] at mentions
  by_cases new : id ∈ (formation name team side drawn).2
  · obtain ⟨obj, there, named⟩ := List.mem_map.mp (formation_named id new)
    exact .inl (List.mem_map.mpr ⟨obj, List.mem_append_right _ there, named⟩)
  · refine .inr (Step.mem_mentioned.mpr ?_)
    tauto

/-- References stay intact when an object is updated that keeps its id. -/
theorem intact_updateObject {id : String} {patch : ObjectPatch} (intact : Intact s.doc)
    (keeps : patch.KeepsId id) : Intact (s.updateObject id patch).doc := by
  apply intact_of_kept intact
  · intro other member
    obtain ⟨obj, there, named⟩ := List.mem_map.mp member
    refine List.mem_map.mpr ⟨_, List.mem_map_of_mem there, ?_⟩
    split
    next same =>
      obtain rfl : other = id := Option.some.inj (named.symm.trans same)
      rw [BoardObject.patch, same]
      exact keeps
    next => exact named
  · intro step member other mentions
    exact .inr ⟨step, member, mentions⟩

/-- Every call but undo and redo keeps every reference that of an object. -/
theorem perform_intact {op : Op} (intact : Intact s.doc) (forward : op ≠ .undo ∧ op ≠ .redo)
    (named : op.named s.doc) (unmarked : op.removesUnmarked s.doc) :
    Intact (s.perform op).doc := by
  cases op with
  | undo => exact absurd rfl forward.1
  | redo => exact absurd rfl forward.2
  | markSaved => exact intact
  | select target => exact intact
  | pick tool => exact intact
  | choose placing => exact intact
  | ink pen => exact intact
  | clearPreview => exact intact
  | focused => exact intact
  | goToStep i => exact intact
  | place at_ drawn => exact intact_place intact
  | moveObject id at_ => exact intact_moveObject intact named
  | bend id mid => exact intact_bend intact named
  | straighten id =>
      apply intact_withStep_same intact
      intro old _ other mentions
      exact .inr (Step.mem_straight mentions)
  | updateObject id patch => exact intact_updateObject intact named
  | toggleIn listing id =>
      apply intact_withStep_same intact
      intro old _ other mentions
      rcases Step.mem_toggle mentions with rfl | before
      · exact .inl named
      · exact .inr before
  | duplicateSelection drawn => exact intact_duplicateSelection intact
  | deleteSelection => exact intact_deleteSelection intact
  | addFormation name team side drawn => exact intact_addFormation intact
  | removeTeam team =>
      change Intact (s.removeTeam team).doc
      unfold removeTeam
      dsimp only
      split
      · exact intact
      · exact intact_withoutObjects intact unmarked
  | stroke points done drawn => exact intact_stroke intact
  | placeText at_ drawn => exact intact_draw intact
  | editDrawing id change => exact intact_editDrawing intact
  | updateDrawing id patch => exact intact_draw intact
  | addStep drawn =>
      apply intact_insertStep intact
      intro id mentions
      cases mentions
  | duplicateStep drawn =>
      apply intact_insertStep intact
      intro id mentions
      exact ⟨_, stepAt_mem, Step.mem_copy mentions⟩
  | moveStep from_ to_ =>
      change Intact (s.moveStep from_ to_).doc
      unfold moveStep
      split
      · exact intact
      · exact intact_reorder (s.nearest_lt to_) intact
  | deleteStep =>
      change Intact s.deleteStep.doc
      unfold deleteStep
      split
      · exact intact
      · exact intact_removeStep (by omega) intact
  | updateStep patch =>
      apply intact_withStep_same intact
      intro old _ id mentions
      rcases Step.mem_patch mentions with new | before
      · exact .inl (named id new)
      · exact .inr before
  | setPitch patch => exact intact
  | setKit team patch => exact intact
  | clearBoard drawn =>
      intro step member id mentions
      rw [List.mem_singleton.mp member] at mentions
      cases mentions

end EditorStore

/-! ### Whole runs -/

/-- The object a gesture drags or bends the path of. -/
def Gesture.names : Gesture → Option String
  | .object id _ _ => some id
  | .handle (.bend id) => some id
  | _ => none

/-- The object that is hit, or whose path the handle that is hit bends. -/
def Hit.names : Hit → Option String
  | .object id => some id
  | .handle (.bend id) => some id
  | _ => none

/-- The objects an act names are there: those a call is for, the one a gesture drags or bends
the path of, and those of a document that is loaded. -/
def Named (b : Board) : Act → Prop
  | .op op => op.named b.store.doc
  | .load doc => Intact doc
  | .drag press _ _ =>
      (∀ p ∈ press, ∀ id ∈ p.hit.names, some id ∈ b.store.doc.ids) ∧
        ∀ g ∈ b.gesture, ∀ id ∈ g.names, some id ∈ b.store.doc.ids
  | _ => True

/-- The objects an act names are there, and a team is removed only while none of its players
is marked in a step beside where it stands. -/
def NamedUnmarked (b : Board) (act : Act) : Prop :=
  Named b act ∧ ∀ op, act = .op op → op.removesUnmarked b.store.doc

namespace Board

open EditorStore

variable {b : Board}

/-- The object a gesture drags, or bends the path of, is there. -/
def Holds (b : Board) : Prop := ∀ g ∈ b.gesture, ∀ id ∈ g.names, some id ∈ b.store.doc.ids

/-- The document keeps its references, and the object of the gesture is there. -/
def Sound (b : Board) : Prop := Intact b.store.doc ∧ b.Holds

/-- References stay intact when a handle of an object that is there is dragged. -/
theorem intact_dragHandle {h : Handle} {at_ : Vec2} {done : Bool} (intact : Intact b.store.doc)
    (known : ∀ id ∈ (Gesture.handle h).names, some id ∈ b.store.doc.ids) :
    Intact (b.dragHandle h at_ done).doc := by
  cases h with
  | bend id => exact intact_bend intact (known id rfl)
  | point id index => exact intact_editDrawing intact
  | control id => exact intact_editDrawing intact

/-- A drag of a handle keeps the objects. -/
theorem dragHandle_ids {h : Handle} {at_ : Vec2} {done : Bool} :
    (b.dragHandle h at_ done).doc.ids = b.store.doc.ids := by
  have bends : ∀ {s : EditorStore} {id}, (s.bend id at_ done).doc.ids = s.doc.ids := by
    intro s id
    unfold bend
    split <;> rfl
  have edits : ∀ {s : EditorStore} {id change}, (s.editDrawing id change done).doc.ids =
      s.doc.ids := by
    intro s id change
    unfold editDrawing
    split <;> rfl
  cases h with
  | bend id => exact bends
  | point id index => exact edits
  | control id => exact edits

/-- A gesture that names no object holds none. -/
theorem holds_of_none (silent : ∀ g ∈ b.gesture, g.names = none) : b.Holds := by
  intro g held id named
  rw [silent g held] at named
  cases named

/-- A press leaves the board sound: a handle it takes hold of is of an object that is there. -/
theorem onPointerDown_sound {at_ : Vec2} {hit : Hit} {drawn : String} (idle : b.gesture = none)
    (intact : Intact b.store.doc) (known : ∀ id ∈ hit.names, some id ∈ b.store.doc.ids) :
    (b.onPointerDown at_ hit drawn).Sound := by
  have none_ : ∀ {store : EditorStore} {polygon : List Vec2}, Intact store.doc →
      Sound ⟨store, none, polygon⟩ := by
    intro store polygon intact
    refine ⟨intact, holds_of_none ?_⟩
    intro g held
    cases held
  unfold onPointerDown
  rw [idle]
  split
  · exact none_ (intact_place intact)
  · exact none_ (intact_draw intact)
  · split
    · unfold finishPolygon
      rw [idle]
      exact none_ (intact_stroke intact)
    · exact none_ (intact_stroke intact)
  · refine ⟨by cases hit <;> exact intact, ?_⟩
    intro g held id named
    cases hit with
    | handle handle =>
        cases held
        refine known id ?_
        cases handle <;> exact named
    | object other =>
        cases held
        exact known id named
    | drawing other =>
        cases held
        cases named
    | nothing =>
        rw [grab, idle] at held
        cases held
  · refine ⟨intact_stroke intact, holds_of_none ?_⟩
    intro g held
    cases held
    rfl

/-- A press that picks another tool holds nothing. -/
theorem pressed_sound {press : Press} (idle : b.gesture = none) (intact : Intact b.store.doc)
    (known : ∀ id ∈ press.hit.names, some id ∈ b.store.doc.ids) :
    (b.pressed (some press)).Sound := by
  have down : (b.onPointerDown press.at_ press.hit press.drawn).Sound :=
    onPointerDown_sound idle intact known
  obtain ⟨kept, holds⟩ := down
  refine ⟨by rwa [pressed_store], fun g held id named => ?_⟩
  rw [pressed_store]
  rcases @followTool_gesture (b.onPointerDown press.at_ press.hit press.drawn) b.store.tool with
    same | gone
  · exact holds g (same ▸ held) id named
  · rw [pressed, gone] at held
    cases held

/-- A move of the pointer leaves the board sound. -/
theorem onPointerMove_sound {at_ : Option Vec2} (sound : b.Sound) :
    (b.onPointerMove at_).Sound := by
  obtain ⟨intact, holds⟩ := sound
  unfold onPointerMove
  split
  · exact ⟨intact, holds⟩
  case h_2 idle =>
    split
    · refine ⟨intact_stroke intact, ?_⟩
      intro g held
      exact holds g held
    · exact ⟨intact, holds⟩
  case h_3 id offset _ held =>
    have known : some id ∈ b.store.doc.ids := holds _ held id rfl
    refine ⟨intact_moveObject intact known, ?_⟩
    intro g held other named
    cases held
    cases named
    exact known
  case h_4 handle held =>
    refine ⟨intact_dragHandle intact (holds _ held), ?_⟩
    intro g held' id named
    change some id ∈ (b.dragHandle _ _ _).doc.ids
    rw [dragHandle_ids]
    exact holds g held' id named
  case h_5 =>
    refine ⟨intact_editDrawing intact, holds_of_none ?_⟩
    intro g held
    cases held
    rfl
  case h_6 =>
    refine ⟨intact_stroke intact, holds_of_none ?_⟩
    intro g held
    cases held
    rfl

theorem dragged_sound {moves : List (Option Vec2)} (sound : b.Sound) :
    (b.dragged moves).Sound := by
  induction moves generalizing b with
  | nil => exact sound
  | cons at_ moves ih => exact ih (onPointerMove_sound sound)

/-- References stay intact when the pointer is released. -/
theorem intact_released {at_ : Option Vec2} {drawn : String} (sound : b.Sound) :
    Intact (b.released at_ drawn).doc := by
  obtain ⟨intact, holds⟩ := sound
  unfold released
  split
  case h_1 id offset _ held => exact intact_moveObject intact (holds _ held id rfl)
  case h_2 held => exact intact_dragHandle intact (holds _ held)
  · exact intact_editDrawing intact
  · exact intact_stroke intact
  · exact intact

theorem onEscape_doc : b.onEscape.store.doc = b.store.doc :=
  congrArg History.present onEscape_unchanged.1

/-- References stay intact when a gesture ends. -/
theorem intact_ended {ending : Ending} (sound : b.Sound) :
    Intact (b.ended ending).store.doc := by
  cases ending with
  | released at_ drawn => exact intact_released sound
  | escaped =>
      change Intact b.onEscape.store.doc
      rw [onEscape_doc]
      exact sound.1
  | interrupted => exact sound.1

end Board

/-- Starting from any document that keeps its references, every run whose acts meet a
condition arrives at one that does. -/
def KeepsReferences (ok : Board → Act → Prop) : Prop :=
  ∀ doc b, Intact doc → editor.Leads ok (.opened doc) b → Intact b.store.doc

namespace EditorStore

variable {s t : EditorStore} {phase : Phase}

/-- Every document of a changed history is one of the history before or the new one. -/
theorem Edited.all (edited : Edited phase s t) (all : s.history.All Intact)
    (intact : Intact t.doc) : t.history.All Intact := by
  rcases edited with same | ⟨next, entry, -⟩
  · rw [same.1]
    exact all
  · have doc : t.doc = next := congrArg History.present entry
    rw [doc] at intact
    rw [entry]
    cases open_ : s.gestureOpen with
    | false =>
        rw [history_apply_closed open_]
        exact all.record intact
    | true =>
        rw [history_apply_open open_]
        exact all.amend intact

end EditorStore

namespace Board

open EditorStore

variable {b : Board}

/-- Every document of the history keeps its references. -/
def Whole (b : Board) : Prop := b.store.history.All Intact

theorem Whole.intact (whole : b.Whole) : Intact b.store.doc := whole.1

/-- A press leaves the board whole. -/
theorem pressed_whole {press : Press} (idle : b.gesture = none) (whole : b.Whole)
    (known : ∀ id ∈ press.hit.names, some id ∈ b.store.doc.ids) :
    (b.pressed (some press)).Whole := by
  have sound : (b.pressed (some press)).Sound := pressed_sound idle whole.intact known
  have edited : Edited .once b.store (b.pressed (some press)).store := by
    rw [pressed_store]
    exact (onPointerDown_edited idle).imp_right fun change => change.1
  exact edited.all whole sound.1

/-- A drag leaves the board whole. -/
theorem dragged_whole {moves : List (Option Vec2)} (sound : b.Sound) (whole : b.Whole) :
    (b.dragged moves).Whole := by
  induction moves generalizing b with
  | nil => exact whole
  | cons at_ moves ih =>
      have next : (b.onPointerMove at_).Sound := onPointerMove_sound sound
      exact ih next (onPointerMove_edited.all whole next.1)

/-- The end of a gesture leaves the board whole. -/
theorem ended_whole {ending : Ending} (sound : b.Sound) (whole : b.Whole) :
    (b.ended ending).Whole := by
  have intact : Intact (b.ended ending).store.doc := intact_ended sound
  cases ending with
  | released at_ drawn =>
      obtain ⟨phase, edited⟩ : ∃ phase, Edited phase b.store (b.released at_ drawn) :=
        released_edited
      exact edited.all whole intact
  | escaped =>
      have edited : Edited .once b.store b.onEscape.store := .inl onEscape_unchanged
      exact edited.all whole intact
  | interrupted => exact whole

/-- Every act keeps every reference, in the document and in all of its history. -/
theorem act_whole {act : Act} (whole : b.Whole) (named : NamedUnmarked b act)
    (ready : act.presses = true → b.gesture = none) : (b.act act).Whole := by
  cases act with
  | op op =>
      rw [Whole, act_op_store]
      by_cases back : op = .undo
      · subst back
        change b.store.undo.history.All Intact
        rw [history_undo]
        exact whole.undo
      · by_cases forth : op = .redo
        · subst forth
          change b.store.redo.history.All Intact
          rw [history_redo]
          exact whole.redo
        · have forward : op ≠ .undo ∧ op ≠ .redo := ⟨back, forth⟩
          apply (perform_edited forward).all whole
          exact perform_intact whole.intact forward named.1 (named.2 op rfl)
  | load doc =>
      refine ⟨named.1, ?_, ?_⟩
      · intro x member
        cases member
      · intro x member
        cases member
  | drag press moves ending =>
      obtain ⟨hit, held⟩ := named.1
      have begun : (b.pressed press).Sound ∧ (b.pressed press).Whole := by
        cases press with
        | none => exact ⟨⟨whole.intact, held⟩, whole⟩
        | some press =>
            have known : ∀ id ∈ press.hit.names, some id ∈ b.store.doc.ids := hit press rfl
            exact ⟨pressed_sound (ready rfl) whole.intact known,
              pressed_whole (ready rfl) whole known⟩
      exact ended_whole (dragged_sound begun.1) (dragged_whole begun.1 begun.2)
  | doubleClick drawn =>
      apply onDoubleClick_edited.all whole
      unfold onDoubleClick
      split
      · exact intact_stroke whole.intact
      · exact whole.intact
  | escape =>
      have edited : Edited .once b.store b.onEscape.store := .inl onEscape_unchanged
      apply edited.all whole
      rw [onEscape_doc]
      exact whole.intact

end Board

/-- References are kept in every run that names objects that are there and removes no team
while one of its players is marked in a step beside where it stands. -/
theorem references_kept {doc : TacticDoc} {b : Board} (intact : Intact doc)
    (leads : editor.Leads NamedUnmarked (.opened doc) b) : Intact b.store.doc := by
  have whole : b.Whole := by
    apply leads.invariant
    · refine ⟨intact, ?_, ?_⟩
      · intro x member
        cases member
      · intro x member
        cases member
    · intro b b' act whole named next
      obtain ⟨ready, rfl⟩ := editor_next next
      exact Board.act_whole whole named ready
  exact whole.intact

/-- A board with a player on it. -/
def withPlayer : Board := (Board.opened (emptyDoc "first")).act (.op (.place ⟨0, 0⟩ "player"))

/-- The references of a board with a player placed are intact. -/
theorem references_kept_placed : Intact withPlayer.store.doc := by
  have named : NamedUnmarked (.opened (emptyDoc "first")) (.op (.place ⟨0, 0⟩ "player")) := by
    refine ⟨trivial, ?_⟩
    rintro _ ⟨⟩
    trivial
  exact references_kept (by decide +kernel : Intact (emptyDoc "first"))
    (.head ⟨.op (.place ⟨0, 0⟩ "player"), named, rfl⟩ (.refl _))

/-- The player picked out. -/
def withSpotlight : Board := withPlayer.act (.op (.toggleIn .highlight "player"))

/-- A removed team leaves the id of a player that was picked out. -/
theorem removeTeam_leaves_highlight : ¬ KeepsReferences Named := by
  intro keeps
  have known : some "player" ∈ withPlayer.store.doc.ids := by decide +kernel
  have leads : editor.Leads Named (.opened (emptyDoc "first"))
      (withSpotlight.act (.op (.removeTeam .home))) :=
    .head ⟨.op (.place ⟨0, 0⟩ "player"), trivial, rfl⟩
      (.head ⟨.op (.toggleIn .highlight "player"), known, rfl⟩
        (.head ⟨.op (.removeTeam .home), trivial, rfl⟩ (.refl _)))
  have left := keeps (emptyDoc "first") _ (by decide +kernel) leads
  revert left
  decide +kernel

end ScoutPulse.Tactics
