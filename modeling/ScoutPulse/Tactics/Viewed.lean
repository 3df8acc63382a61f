import ScoutPulse.Tactics.Reloaded

/-!
# What the player reads of a loaded board

The player's model of a document and the editor's are two readings of one loader. They agree
on every member that is read.
-/

namespace ScoutPulse.Tactics.Loaded

open Js Opened

variable {key drawn : String} {o : Object}

/-- Steps of which the player reads the same. -/
structure SameStep (a b : Opened.Step) : Prop where
  id : a.id = b.id
  pos : a.pos = b.pos
  drawings : a.drawings = b.drawings
  members : ∀ key ∉ ["id", "pos", "drawings"], member a.members key = member b.members key

/-- Objects of which it reads the same. -/
structure SameObject (a b : Opened.BoardObject) : Prop where
  id : a.id = b.id
  kind : a.kind = b.kind
  members : ∀ key, member a.members key = member b.members key

/-- Documents of which it reads the same. -/
structure SameDoc (a b : Opened.TacticDoc) : Prop where
  pitch : ∀ key, member a.pitch key = member b.pitch key
  teams : ∀ id key, member (a.teams id) key = member (b.teams id) key
  objects : List.Forall₂ SameObject a.objects b.objects
  steps : List.Forall₂ SameStep a.steps b.steps

theorem member_entries : member o.entries key = o.get? key := Properties.lookup_reverse

theorem member_assign {top : Members} :
    member (o.assign top).entries key = member (spread o.entries top) key := by
  rw [member_entries, Properties.get?_assign, member_spread, member_entries]
  rfl

theorem member_ofList {members : Members} :
    member (Properties.ofList members).entries key = member members key := by
  rw [member_entries, Properties.ofList, Properties.get?_assign]
  exact Option.or_none

/-- What a step has from `newStep` when it says nothing itself. -/
theorem newStep_get? (free : key ∉ ["id", "pos", "drawings"]) :
    ((newStep drawn).get? key).join = member newStepMembers key := by
  have base : member newStepMembers key = newStepMembers.lookup key :=
    member_entries (o := ⟨newStepMembers, by decide⟩)
  simp only [List.mem_cons, List.not_mem_nil, or_false, not_or] at free
  rw [base]
  simp only [Properties.get?, newStep, newStepMembers, Properties.lookup_cons, free.1, free.2.1,
    free.2.2, if_false, List.lookup_nil]
  split_ifs <;> rfl

theorem lookup_map_some {entries : Members} :
    (entries.map fun entry => (entry.1, some entry.2)).lookup key =
      (entries.lookup key).map some := by
  induction entries with
  | nil => rfl
  | cons entry rest ih =>
      obtain ⟨first, v⟩ := entry
      rw [List.map_cons, Properties.lookup_cons, Properties.lookup_cons, ih]
      split_ifs <;> rfl

/-- A step that is read here is the step the player reads. -/
theorem sameStep_readStep {members : Members} :
    SameStep (viewStep (readStep drawn members)) (Opened.readStep drawn members) where
  id := by
    have its : (readStep drawn members).field "id" =
        some (.str (Opened.readStep drawn members).id) := by
      simp only [Fields.field, readStep, Properties.get?_put]
      rfl
    rw [viewStep, its]
  pos := by
    have its : (readStep drawn members).field "pos" =
        some (.obj (Opened.readStep drawn members).pos) := by
      simp only [Fields.field, readStep, Properties.get?_put]
      rfl
    rw [viewStep, its]
    rfl
  drawings := by
    have its : (readStep drawn members).field "drawings" =
        some (.arr (Opened.readStep drawn members).drawings) := by
      simp only [Fields.field, readStep, Properties.get?_put]
      rfl
    rw [viewStep, its]
    rfl
  members := by
    intro key free
    have other := free
    simp only [List.mem_cons, List.not_mem_nil, or_false, not_or] at other
    have taken : (readStep drawn members).get? key =
        ((member members key).map some).or ((newStep drawn).get? key) := by
      rw [readStep, Properties.get?_put, if_neg other.2.2, Properties.get?_put, if_neg other.2.1,
        Properties.get?_put, if_neg other.1, Properties.get?_assign]
      rw [← List.map_reverse, lookup_map_some]
      rfl
    rw [viewStep, member_written, Fields.field, taken, Opened.readStep, member_spread,
      ← newStep_get? free]
    cases member members key with
    | none => rfl
    | some v => rfl

theorem get?_ofList {members : Members} :
    (Properties.ofList members : Object).get? key = member members key :=
  member_entries.symm.trans member_ofList

/-- Both readers leave out what has no text for an id or a kind. -/
theorem readObject_eq_none {members : Members}
    (other : ∀ id kind, member members "id" = some (.str id) →
      member members "kind" ≠ some (.str kind)) :
    readObject (.obj members) = none ∧ Opened.readObject (.obj members) = none := by
  constructor
  · simp only [readObject, asObject, get?_ofList]
  · simp only [Opened.readObject, asObject]

/-- An object that is read here is the object the player reads. -/
theorem sameObject (v : Json) :
    Option.Rel SameObject ((readObject v).bind viewObject) (Opened.readObject v) := by
  cases v with
  | obj members =>
      by_cases texts : ∃ id kind, member members "id" = some (.str id) ∧
          member members "kind" = some (.str kind)
      · obtain ⟨id, kind, foundId, foundKind⟩ := texts
        simp only [readObject, Opened.readObject, viewObject, asObject, Object.json, get?_ofList,
          member_ofList, foundId, foundKind, Option.bind_some]
        exact .some ⟨rfl, rfl, fun key => member_ofList⟩
      · have none_ := readObject_eq_none fun id kind foundId foundKind =>
          texts ⟨id, kind, foundId, foundKind⟩
        rw [none_.1, none_.2]
        exact .none
  | _ => exact .none

/-- A new step here is the new step of the player. -/
theorem sameStep_newStep : SameStep (viewStep (newStep drawn)) (Opened.newStep drawn) where
  id := rfl
  pos := rfl
  drawings := rfl
  members := by
    intro key free
    exact member_written.trans (newStep_get? free)

/-- The steps that are read here are those the player reads. -/
theorem sameSteps {kept : List Members} {newId : ℕ → String} :
    let steps := kept.mapIdx fun i s => readStep (newId (i + 1)) s
    let steps' := kept.mapIdx fun i s => Opened.readStep (newId (i + 1)) s
    List.Forall₂ SameStep ((if steps = [] then [newStep (newId 0)] else steps).map viewStep)
      (if steps' = [] then [Opened.newStep (newId 0)] else steps') := by
  intro steps steps'
  have all : List.Forall₂ SameStep (steps.map viewStep) steps' := by
    rw [List.forall₂_iff_get]
    constructor
    · simp [steps, steps']
    · intro i _ _
      simp only [List.get_eq_getElem, List.getElem_map, List.getElem_mapIdx, steps, steps']
      exact sameStep_readStep
  cases kept with
  | nil => exact .cons sameStep_newStep .nil
  | cons first rest =>
      rw [if_neg (by simp [steps]), if_neg (by simp [steps'])]
      exact all

/-- The loader makes of a stored board what the player reads. -/
theorem view_normalizeDoc (newId : ℕ → String) (raw : Json) :
    SameDoc (normalizeDoc newId raw).view (Opened.normalizeDoc newId raw) := by
  unfold normalizeDoc Opened.normalizeDoc
  cases sourceOf raw with
  | none => exact ⟨fun _ => rfl, fun _ _ => rfl, .nil, .cons sameStep_newStep .nil⟩
  | some src =>
      constructor
      · exact fun key => member_assign
      · exact fun id key => member_assign
      · change List.Forall₂ SameObject (List.filterMap viewObject (List.filterMap readObject _)) _
        rw [List.filterMap_filterMap]
        apply List.rel_filterMap (R := Eq)
        · rintro v _ rfl
          exact sameObject v
        · exact List.forall₂_same.mpr fun _ _ => rfl
      · exact sameSteps

end ScoutPulse.Tactics.Loaded
