import ScoutPulse.Lib.Outcome
import ScoutPulse.Tactics.Reloaded

/-!
# The operations on a sound document

Every operation of the store leaves a document sound, by what it does to the objects and to
the steps. Only `clean` may drop the id or the kind of an object, where one of them is the
empty text.
-/

namespace ScoutPulse.Tactics.Loaded

open Js Opened

variable {key : String} {v : Option Json} {s : Fields} {o : Object} {text : String}

/-! ## Every operation keeps a sound document sound -/

section Operations

variable {doc doc' : Doc} {fn : Fields → Except Thrown Fields} {i : ℕ} {objects : List Object}

theorem Doc.Sound.withSteps (sound : doc.Sound) {steps : List Fields} (some_ : steps ≠ [])
    (each : ∀ s ∈ steps, StepSound s) : ({ doc with steps := steps } : Doc).Sound :=
  ⟨sound.pitch, sound.teams, sound.objects, some_, each⟩

/-- A document stays sound when a step is changed to a sound one. -/
theorem Doc.Sound.withStep (sound : doc.Sound)
    (keeps : ∀ s s', StepSound s → fn s = .ok s' → StepSound s')
    (done : doc.withStep i fn = .ok doc') : doc'.Sound := by
  unfold Doc.withStep at done
  split at done
  · cases done
    exact sound
  · rename_i s found
    obtain ⟨s', made, same⟩ := Outcome.bind_ok_iff.mp done
    cases same
    apply sound.withSteps
    · rw [Ne, List.set_eq_nil_iff]
      exact sound.some_
    · intro t member
      rcases List.mem_or_eq_of_mem_set member with old | rfl
      · exact sound.steps t old
      · exact keeps s _ (sound.steps s (List.mem_of_getElem? found)) made

/-- Setting a property that is not one of those every step has. -/
theorem StepSound.putOther (sound : StepSound s) (absent : key ∉ stepKeys) :
    StepSound (s.put key v) := sound.put (.other absent)

theorem StepSound.draw (sound : StepSound s) {drawings : List Json} :
    StepSound (draw s drawings) := sound.put .ofDrawings

theorem StepSound.putPosition (sound : StepSound s) {id : String} {at_ : Json} :
    StepSound (putPosition s id at_) := sound.put .ofPlaces

theorem listingText_notMem {listing : Listing} : listingText listing ∉ stepKeys := by
  cases listing <;> decide

/-- A step stays sound without an object. -/
theorem StepSound.strip (sound : StepSound s) {s' : Fields} {id : String}
    (done : stripStep id s = .ok s') : StepSound s' := by
  obtain ⟨air, _, rest⟩ := Outcome.bind_ok_iff.mp done
  obtain ⟨highlight, _, same⟩ := Outcome.bind_ok_iff.mp rest
  cases same
  have pos : Required "pos" (Loaded.strip (s.field "pos") id) := by
    obtain ⟨v, found, fieldPos⟩ := sound.exists_field (by decide : "pos" ∈ stepKeys)
    obtain ⟨places, isPlaces⟩ := (sound.holds.get? found).pos rfl
    cases isPlaces
    rw [fieldPos]
    exact .ofPlaces
  exact (((sound.put pos).putOther (by decide)).putOther (by decide)).putOther (by decide)

theorem StepSound.copy (sound : StepSound s) {drawn : ℕ → String} :
    StepSound (copyStep drawn s) :=
  ((((sound.erase (by decide)).erase (by decide)).put .ofText).put .ofPlaces).draw

/-- A step stays sound under any patch. -/
theorem StepSound.patch (sound : StepSound s) (patch : StepPatch) :
    StepSound (s.assign patch.members) := by
  apply sound.assign
  intro entry member
  obtain ⟨key, v⟩ := entry
  constructor
  · intro inside
    have defined : key ∈ ["duration", "hold", "note"] → v.isSome := fun listed =>
      Option.isSome_iff_ne_none.mpr fun none => patch.defined key listed (none ▸ member)
    simp only [stepKeys, List.mem_cons, List.not_mem_nil, or_false] at inside
    rcases inside with rfl | rfl | rfl | rfl | rfl | rfl
    · obtain ⟨text, rfl⟩ := patch.id v member
      rfl
    · exact defined (by decide)
    · exact defined (by decide)
    · exact defined (by decide)
    · obtain ⟨places, rfl⟩ := patch.pos v member
      rfl
    · obtain ⟨items, rfl⟩ := patch.drawings v member
      rfl
  · rintro rfl
    exact patch.id v member
  · rintro rfl
    exact patch.pos v member
  · rintro rfl
    exact patch.drawings v member

/-! ### Objects -/

/-- An object stays sound when a key is put other than its id and kind. -/
theorem ObjectSound.put (sound : ObjectSound o) {value : Json} (plain : key ≠ "id" ∧ key ≠ "kind") :
    ObjectSound (o.put key value) where
  id := by
    rw [Properties.get?_put, if_neg (Ne.symm plain.1)]
    exact sound.id
  kind := by
    rw [Properties.get?_put, if_neg (Ne.symm plain.2)]
    exact sound.kind

/-- An object stays sound when keys are put other than its id and kind. -/
theorem ObjectSound.assign (sound : ObjectSound o) {top : List (String × Json)}
    (plain : "id" ∉ top.map Prod.fst ∧ "kind" ∉ top.map Prod.fst) :
    ObjectSound (o.assign top) where
  id := by
    rw [Properties.get?_assign_of_notMem plain.1]
    exact sound.id
  kind := by
    rw [Properties.get?_assign_of_notMem plain.2]
    exact sound.kind

/-- An object that is made of an id, a kind and other properties. -/
theorem ObjectSound.of {id kind : String} {rest : List (String × Json)}
    (plain : "id" ∉ rest.map Prod.fst ∧ "kind" ∉ rest.map Prod.fst) :
    ObjectSound (Properties.ofList (("id", .str id) :: ("kind", .str kind) :: rest)) :=
  ObjectSound.assign (o := Properties.ofList [("id", .str id), ("kind", .str kind)])
    ⟨⟨id, rfl⟩, ⟨kind, rfl⟩⟩ plain

/-- An id and a kind that are texts, and not empty. -/
def Named (o : Fields) : Prop :=
  ∀ key ∈ ["id", "kind"], ∃ text, text ≠ "" ∧ o.field key = some (.str text)

/-- Of the texts, only the empty one is not left by `clean`. -/
theorem get?_clean {o : Fields} : (clean o).get? key = some (.str text) ↔
    text ≠ "" ∧ o.field key = some (.str text) := by
  rw [clean, Properties.get?_choose, Fields.field, Option.bind_eq_some_iff,
    Option.join_eq_some_iff]
  constructor
  · rintro ⟨v, held, left⟩
    split at left
    · cases left
    · rename_i filled
      cases left
      exact ⟨fun empty => filled (empty ▸ rfl), held⟩
  · rintro ⟨filled, held⟩
    refine ⟨_, held, ?_⟩
    split
    · rename_i empty
      cases empty
      exact absurd rfl filled
    · rfl

/-- An object that is cleaned is sound exactly when it is named. -/
theorem clean_sound_iff {o : Fields} : ObjectSound (clean o) ↔ Named o := by
  constructor
  · intro sound key listed
    simp only [List.mem_cons, List.not_mem_nil, or_false] at listed
    rcases listed with rfl | rfl
    · obtain ⟨id, found⟩ := sound.id
      exact ⟨id, get?_clean.mp found⟩
    · obtain ⟨kind, found⟩ := sound.kind
      exact ⟨kind, get?_clean.mp found⟩
  · intro named
    obtain ⟨id, foundId⟩ := named "id" (by decide)
    obtain ⟨kind, foundKind⟩ := named "kind" (by decide)
    exact ⟨⟨id, get?_clean.mpr foundId⟩, ⟨kind, get?_clean.mpr foundKind⟩⟩

/-- A document is sound with other objects, if each is sound. -/
theorem Doc.Sound.withObjects (sound : doc.Sound) (each : ∀ o ∈ objects, ObjectSound o) :
    (doc.withObjects objects).Sound where
  pitch := sound.pitch
  teams := sound.teams
  objects := by
    intro o member
    rcases List.mem_append.mp member with old | new
    · exact sound.objects o old
    · exact each o new
  some_ := sound.some_
  steps := sound.steps

/-- Objects that are left, and steps in the place of the ones there were. -/
theorem Doc.Sound.subset (sound : doc.Sound) (left : objects ⊆ doc.objects)
    {steps : List Fields} (some_ : steps ≠ []) (each : ∀ s ∈ steps, StepSound s) :
    ({ doc with objects := objects, steps := steps } : Doc).Sound :=
  ⟨sound.pitch, sound.teams, fun o member => sound.objects o (left member), some_, each⟩

/-- A document stays sound when an object is updated to a named one. -/
theorem Doc.Sound.updateObject (sound : doc.Sound) {id : String}
    {patch : List (String × Option Json)}
    (careful : ∀ o ∈ doc.objects, idOf o = some id → Named (o.present.assign patch)) :
    (doc.updateObject id patch).Sound where
  pitch := sound.pitch
  teams := sound.teams
  objects := by
    intro o member
    obtain ⟨old, inside, rfl⟩ := List.mem_map.mp member
    split_ifs with its
    · exact clean_sound_iff.mpr (careful old inside its)
    · exact sound.objects old inside
  some_ := sound.some_
  steps := sound.steps

/-- A document stays sound without an object. -/
theorem Doc.Sound.withoutObject (sound : doc.Sound) {id : String}
    (done : doc.withoutObject id = .ok doc') : doc'.Sound := by
  obtain ⟨steps, made, same⟩ := Outcome.bind_ok_iff.mp done
  cases same
  apply sound.subset (List.filter_subset_self _)
  · intro none
    have length := Outcome.length_of_mapM made
    rw [none] at length
    exact sound.some_ (List.length_eq_zero_iff.mp length.symm)
  · intro s member
    obtain ⟨old, inside, stripped⟩ := Outcome.exists_of_mem_mapM made member
    exact (sound.steps old inside).strip stripped

/-- A document stays sound without several objects. -/
theorem Doc.Sound.withoutObjects (sound : doc.Sound) {gone : List (Option String)} :
    (doc.withoutObjects gone).Sound := by
  apply sound.subset (List.filter_subset_self _)
  · exact fun none => sound.some_ (List.map_eq_nil_iff.mp none)
  · intro s member
    obtain ⟨old, inside, rfl⟩ := List.mem_map.mp member
    exact (sound.steps old inside).put .ofPlaces

/-! ### Steps -/

/-- A document stays sound when a sound step comes in. -/
theorem Doc.Sound.insertStep (sound : doc.Sound) (new : StepSound s) :
    (doc.insertStep i s).Sound := by
  apply sound.withSteps
  · simp
  · intro t member
    rcases List.mem_append.mp member with before | after
    · exact sound.steps t (List.mem_of_mem_take before)
    · rcases List.mem_cons.mp after with rfl | later
      · exact new
      · exact sound.steps t (List.mem_of_mem_drop later)

/-- A document stays sound when steps change their order. -/
theorem Doc.Sound.reorder (sound : doc.Sound) {from_ to_ : ℕ} {one : ℕ → ℕ → Bool}
    (inside : to_ < doc.steps.length) : (doc.reorder from_ to_ one).Sound := by
  apply sound.withSteps
  · apply List.ne_nil_of_length_pos
    rw [List.length_mapIdx, Layers.length_moved (by rwa [List.length_zipIdx]),
      List.length_zipIdx]
    exact List.length_pos_iff.mpr sound.some_
  · intro t member
    obtain ⟨k, within, rfl⟩ := List.mem_mapIdx.mp member
    have old := Layers.mem_of_mem_moved (List.getElem_mem within)
    exact (sound.steps _ (List.fst_mem_of_mem_zipIdx old)).put .ofPlaces

/-- A document stays sound without a step, if there is another. -/
theorem Doc.Sound.removeStep (sound : doc.Sound) (more : 1 < doc.steps.length) :
    (doc.removeStep i).Sound := by
  have each : ∀ s ∈ doc.steps.eraseIdx i, StepSound s := fun s member =>
    sound.steps s (List.mem_of_mem_eraseIdx member)
  have left : doc.steps.eraseIdx i ≠ [] := by
    apply List.ne_nil_of_length_pos
    rw [List.length_eraseIdx]
    split <;> omega
  unfold Doc.removeStep
  apply sound.withSteps
  · split
    · rw [Ne, List.set_eq_nil_iff]
      exact left
    · exact left
  · split
    · rename_i removed next _ found
      intro t member
      rcases List.mem_or_eq_of_mem_set member with old | rfl
      · exact each t old
      · exact (each next (List.mem_of_getElem? found)).put .ofPlaces
    · exact each

end Operations

end ScoutPulse.Tactics.Loaded
