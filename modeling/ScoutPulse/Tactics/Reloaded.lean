import ScoutPulse.Tactics.Edited

/-!
# Reading a board as it was written

What `normalizeDoc` sees to, and that a document of which it holds comes back from JSON as it
was written. What is loaded is such a document.
-/

namespace ScoutPulse.Tactics.Loaded

open Js Opened

/-! ## What the loader sees to -/

/-- The properties `newStep` has. -/
def stepKeys : List String := ["id", "duration", "hold", "note", "pos", "drawings"]

/-- What a property of a step holds. -/
structure Required (key : String) (v : Option Json) : Prop where
  defined : key ∈ stepKeys → v.isSome
  id : key = "id" → ∃ text, v = some (.str text)
  pos : key = "pos" → ∃ places, v = some (.obj places)
  drawings : key = "drawings" → ∃ items, v = some (.arr items)

/-- A step as the loader makes them. -/
structure StepSound (s : Fields) : Prop where
  first : stepKeys <+: s.keys
  holds : s.All Required

/-- An object as the loader lets it through. -/
structure ObjectSound (o : Object) : Prop where
  id : ∃ text, o.get? "id" = some (.str text)
  kind : ∃ text, o.get? "kind" = some (.str text)

/-- A document as the loader makes them. -/
structure Doc.Sound (doc : Doc) : Prop where
  pitch : basePitch.keys <+: doc.pitch.keys
  teams : ∀ id, (baseTeam id).keys <+: (doc.teams id).keys
  objects : ∀ o ∈ doc.objects, ObjectSound o
  some_ : doc.steps ≠ []
  steps : ∀ s ∈ doc.steps, StepSound s

variable {key : String} {v : Option Json} {s : Fields} {o : Object} {text drawn : String}

theorem Required.other (absent : key ∉ stepKeys) : Required key v where
  defined member := absurd member absent
  id same := absurd (same ▸ by decide) absent
  pos same := absurd (same ▸ by decide) absent
  drawings same := absurd (same ▸ by decide) absent

theorem Required.ofText : Required "id" (some (.str text)) :=
  ⟨fun _ => rfl, fun _ => ⟨text, rfl⟩, fun other => by simp at other, fun other => by simp at other⟩

theorem Required.ofPlaces {places : Members} : Required "pos" (some (.obj places)) :=
  ⟨fun _ => rfl, fun other => by simp at other, fun _ => ⟨places, rfl⟩,
    fun other => by simp at other⟩

theorem Required.ofDrawings {items : List Json} : Required "drawings" (some (.arr items)) :=
  ⟨fun _ => rfl, fun other => by simp at other, fun other => by simp at other,
    fun _ => ⟨items, rfl⟩⟩

theorem StepSound.put (sound : StepSound s) (new : Required key v) : StepSound (s.put key v) :=
  ⟨Properties.prefix_put sound.first, sound.holds.put new⟩

theorem StepSound.assign (sound : StepSound s) {top : List (String × Option Json)}
    (new : ∀ entry ∈ top, Required entry.1 entry.2) : StepSound (s.assign top) :=
  ⟨Properties.prefix_assign sound.first, sound.holds.assign new⟩

/-- A step stays sound without a key it does not need. -/
theorem StepSound.erase (sound : StepSound s) (absent : key ∉ stepKeys) :
    StepSound (s.erase key) where
  first := by
    apply Properties.prefix_choose sound.first
    intro entry _ inside
    have other : entry.1 ≠ key := fun same => absent (same ▸ inside)
    rw [if_neg other]
    rfl
  holds := sound.holds.choose fun holds picked => by
    split_ifs at picked
    cases picked
    exact holds

/-- A new step is sound. -/
theorem newStep_sound : StepSound (newStep drawn) where
  first := List.prefix_refl _
  holds := by
    intro entry member
    simp only [newStep, List.mem_cons, List.not_mem_nil, or_false] at member
    rcases member with rfl | rfl | rfl | rfl | rfl | rfl
    · exact .ofText
    · constructor <;> simp
    · constructor <;> simp
    · constructor <;> simp
    · exact .ofPlaces
    · exact .ofDrawings

/-- A sound step has what it needs. -/
theorem StepSound.exists_field (sound : StepSound s) (inside : key ∈ stepKeys) :
    ∃ v, s.get? key = some (some v) ∧ s.field key = some v := by
  obtain ⟨v, found⟩ := Properties.exists_get? (sound.first.subset inside)
  obtain ⟨w, rfl⟩ := Option.isSome_iff_exists.mp ((sound.holds.get? found).defined inside)
  refine ⟨w, found, ?_⟩
  rw [Fields.field, found]
  rfl

/-! ## A sound document is read as it is written -/

/-- A document none of whose properties is undefined. -/
def Doc.settled (doc : Doc) : Doc := { doc with steps := doc.steps.map fun s => s.written.present }

theorem json_settled {doc : Doc} : doc.settled.json = doc.json := by
  have steps : doc.settled.steps.map Fields.json = doc.steps.map Fields.json := by
    rw [Doc.settled, List.map_map]
    apply List.map_congr_left
    intro s _
    rw [Function.comp_apply, Fields.json, Properties.written_present, Fields.json]
  rw [Doc.json, steps]
  rfl

theorem member_written : member s.written.entries key = s.field key :=
  Properties.lookup_reverse.trans Properties.get?_written

/-- A sound step that is written is read as it was. -/
theorem readStep_written (sound : StepSound s) :
    readStep drawn s.written.entries = s.written.present := by
  have whole : stepKeys <+: s.written.keys := by
    apply Properties.prefix_choose sound.first
    intro entry member inside
    exact (sound.holds entry member).defined inside
  have taken : (newStep drawn).assign
      (s.written.entries.map fun entry => (entry.1, some entry.2)) = s.written.present := by
    rw [← Properties.entries_present]
    apply Properties.assign_of_prefix
    rw [Properties.keys_present]
    exact whole
  have there : ∀ {key v}, s.field key = some v → s.written.present.get? key = some (some v) := by
    intro key v found
    rw [Properties.get?_present, Properties.get?_written]
    exact congrArg (Option.map some) found
  obtain ⟨id, heldId, fieldId⟩ := sound.exists_field (by decide : "id" ∈ stepKeys)
  obtain ⟨pos, heldPos, fieldPos⟩ := sound.exists_field (by decide : "pos" ∈ stepKeys)
  obtain ⟨drawings, heldDrawings, fieldDrawings⟩ :=
    sound.exists_field (by decide : "drawings" ∈ stepKeys)
  obtain ⟨text, isText⟩ := (sound.holds.get? heldId).id rfl
  obtain ⟨places, isPlaces⟩ := (sound.holds.get? heldPos).pos rfl
  obtain ⟨items, isItems⟩ := (sound.holds.get? heldDrawings).drawings rfl
  cases isText
  cases isPlaces
  cases isItems
  rw [readStep, taken, member_written, member_written, member_written, fieldId, fieldPos,
    fieldDrawings]
  change ((s.written.present.put "id" (some (.str text))).put "pos" (some (.obj places))).put
    "drawings" (some (.arr items)) = s.written.present
  rw [Properties.put_of_get? (there fieldId), Properties.put_of_get? (there fieldPos),
    Properties.put_of_get? (there fieldDrawings)]

theorem readObject_json (sound : ObjectSound o) : readObject o.json = some o := by
  obtain ⟨id, foundId⟩ := sound.id
  obtain ⟨kind, foundKind⟩ := sound.kind
  rw [readObject]
  simp only [Object.json, asObject, Properties.ofList_entries, foundId, foundKind]

/-- The loader makes of a sound document what it is in JSON. -/
theorem normalizeDoc_json {doc : Doc} (sound : doc.Sound) (newId : ℕ → String) :
    normalizeDoc newId doc.json = doc.settled := by
  have pitch : basePitch.assign doc.pitch.entries = doc.pitch :=
    Properties.assign_of_prefix sound.pitch
  have teams : (fun id => (baseTeam id).assign (doc.teams id).entries) = doc.teams :=
    funext fun id => Properties.assign_of_prefix (sound.teams id)
  have objects : (doc.objects.map Object.json).filterMap readObject = doc.objects := by
    rw [List.filterMap_map]
    have all : ∀ o ∈ doc.objects, (readObject ∘ Object.json) o = some o := fun o member =>
      readObject_json (sound.objects o member)
    rw [List.filterMap_congr all, List.filterMap_some]
  have kept : (doc.steps.map Fields.json).filterMap asObject =
      doc.steps.map fun s => s.written.entries := by
    rw [List.filterMap_map, ← List.filterMap_eq_map]
    rfl
  have steps : ((doc.steps.map Fields.json).filterMap asObject).mapIdx
      (fun i s => readStep (newId (i + 1)) s) = doc.settled.steps := by
    rw [kept]
    apply List.ext_getElem?
    intro i
    rw [List.getElem?_mapIdx, List.getElem?_map, Doc.settled, List.getElem?_map]
    cases found : doc.steps[i]? with
    | none => rfl
    | some s =>
        exact congrArg some (readStep_written (sound.steps s (List.mem_of_getElem? found)))
  have some_ : doc.settled.steps ≠ [] := fun none => sound.some_ (List.map_eq_nil_iff.mp none)
  have read : normalizeDoc newId doc.json =
      { pitch := basePitch.assign doc.pitch.entries
        teams := fun id => (baseTeam id).assign (doc.teams id).entries
        objects := (doc.objects.map Object.json).filterMap readObject
        steps :=
          let steps := ((doc.steps.map Fields.json).filterMap asObject).mapIdx fun i s =>
            readStep (newId (i + 1)) s
          if steps = [] then [newStep (newId 0)] else steps } := by
    have byTeam : (fun id : TeamId => (baseTeam id).assign (membersOf (member (membersOf (some
        (.obj [("home", (doc.teams .home).json), ("away", (doc.teams .away).json),
          ("third", (doc.teams .third).json)]))) (teamName id)))) =
        fun id => (baseTeam id).assign (doc.teams id).entries := by
      funext id
      cases id <;> rfl
    rw [← byTeam]
    rfl
  rw [read, pitch, teams, objects, steps, if_neg some_]
  rfl

/-! ## What is loaded is sound -/

theorem newStep_defined : (newStep drawn).All fun _ v => v.isSome := by
  intro entry member
  simp only [newStep, List.mem_cons, List.not_mem_nil, or_false] at member
  rcases member with rfl | rfl | rfl | rfl | rfl | rfl <;> rfl

/-- A step that is taken over has a value for every property. -/
theorem taken_defined {members : Members} : ((newStep drawn).assign
    (members.map fun entry => (entry.1, some entry.2))).All fun _ v => v.isSome := by
  apply newStep_defined.assign
  intro entry member
  obtain ⟨source, _, rfl⟩ := List.mem_map.mp member
  rfl

theorem readStep_defined {members : Members} :
    (readStep drawn members).All fun _ v => v.isSome :=
  ((taken_defined.put rfl).put rfl).put rfl

/-- A step that is read is sound. -/
theorem readStep_sound {members : Members} : StepSound (readStep drawn members) where
  first := Properties.prefix_put <| Properties.prefix_put <| Properties.prefix_put <|
    Properties.prefix_assign (List.prefix_refl _)
  holds := by
    intro entry member
    have defined := readStep_defined entry member
    have found := Properties.get?_eq_some_iff.mpr member
    obtain ⟨key, v⟩ := entry
    rw [readStep, Properties.get?_put, Properties.get?_put, Properties.get?_put] at found
    split_ifs at found with drawings pos id
    · cases drawings
      cases found
      exact .ofDrawings
    · cases pos
      cases found
      exact .ofPlaces
    · cases id
      cases found
      exact .ofText
    · exact ⟨fun _ => defined, fun same => absurd same id, fun same => absurd same pos,
        fun same => absurd same drawings⟩

/-- An object that is read is sound. -/
theorem readObject_sound {v : Json} (read : readObject v = some o) : ObjectSound o := by
  unfold readObject at read
  split at read
  · cases read
  · simp only at read
    split at read
    · rename_i id kind
      cases read
      exact ⟨⟨_, id⟩, ⟨_, kind⟩⟩
    · cases read

/-- The empty document is sound. -/
theorem emptyDoc_sound : (emptyDoc drawn).Sound where
  pitch := List.prefix_refl _
  teams _ := List.prefix_refl _
  objects := by simp [emptyDoc]
  some_ := by simp [emptyDoc]
  steps := by
    intro s member
    cases List.mem_singleton.mp member
    exact newStep_sound

/-- A step of what is loaded is a new one, or one that was read. -/
theorem mem_steps_normalizeDoc {newId : ℕ → String} {raw : Json}
    (member : s ∈ (normalizeDoc newId raw).steps) :
    (∃ drawn, s = newStep drawn) ∨ ∃ drawn members, s = readStep drawn members := by
  rw [normalizeDoc] at member
  generalize sourceOf raw = source at member
  cases source with
  | none => exact .inl ⟨_, List.mem_singleton.mp member⟩
  | some src =>
      simp only at member
      split_ifs at member
      · exact .inl ⟨_, List.mem_singleton.mp member⟩
      · obtain ⟨i, _, rfl⟩ := List.mem_mapIdx.mp member
        exact .inr ⟨_, _, rfl⟩

/-- Every document that is read is sound. -/
theorem normalizeDoc_sound (newId : ℕ → String) (raw : Json) :
    (normalizeDoc newId raw).Sound where
  pitch := by
    rw [normalizeDoc]
    cases sourceOf raw with
    | none => exact List.prefix_refl _
    | some src => exact Properties.prefix_assign (List.prefix_refl _)
  teams := by
    intro id
    rw [normalizeDoc]
    cases sourceOf raw with
    | none => exact List.prefix_refl _
    | some src => exact Properties.prefix_assign (List.prefix_refl _)
  objects := by
    intro o member
    rw [normalizeDoc] at member
    generalize sourceOf raw = source at member
    cases source with
    | none => cases member
    | some src =>
        obtain ⟨v, _, read⟩ := List.mem_filterMap.mp member
        exact readObject_sound read
  some_ := by
    rw [normalizeDoc]
    cases sourceOf raw with
    | none => exact List.cons_ne_nil _ _
    | some src =>
        simp only
        split_ifs with none
        · exact List.cons_ne_nil _ _
        · exact none
  steps := by
    intro s member
    rcases mem_steps_normalizeDoc member with ⟨drawn, rfl⟩ | ⟨drawn, members, rfl⟩
    · exact newStep_sound
    · exact readStep_sound

/-- What is loaded has nothing that is undefined. -/
theorem settled_normalizeDoc (newId : ℕ → String) (raw : Json) :
    (normalizeDoc newId raw).settled = normalizeDoc newId raw := by
  have all : ∀ s ∈ (normalizeDoc newId raw).steps, s.written.present = s := by
    intro s member
    apply Properties.present_written
    rcases mem_steps_normalizeDoc member with ⟨drawn, rfl⟩ | ⟨drawn, members, rfl⟩
    · exact newStep_defined
    · exact readStep_defined
  rw [Doc.settled, List.map_congr_left all, List.map_id']

/-! ## Objects that are not lost -/

/-- The objects of a document in JSON. -/
def objectsOf (doc : Json) : List Json := entriesOf (member (membersOf (some doc)) "objects")

/-- A document that is read as it was written has lost no object. -/
theorem objects_sound {doc : Doc} {newId : ℕ → String}
    (same : (normalizeDoc newId doc.json).json = doc.json) :
    ∀ o ∈ doc.objects, ObjectSound o := by
  have counted : (((doc.objects.map Object.json).filterMap readObject).map Object.json).length =
      (doc.objects.map Object.json).length := congrArg (fun doc => (objectsOf doc).length) same
  rw [List.length_map, List.filterMap_length_eq_length] at counted
  intro o member
  obtain ⟨o', read⟩ := Option.isSome_iff_exists.mp (counted o.json (List.mem_map_of_mem member))
  have its : o' = o := by
    unfold readObject at read
    simp only [Object.json, asObject, Properties.ofList_entries] at read
    split at read
    · exact (Option.some.inj read).symm
    · cases read
  exact its ▸ readObject_sound read

end ScoutPulse.Tactics.Loaded
