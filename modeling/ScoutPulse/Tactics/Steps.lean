import ScoutPulse.Tactics.Store

/-!
# What each step shows

The steps of a document are layers: an object stands where the latest step that placed it
put it. Adding, copying and deleting a step leaves what the other steps show. Moving one
does exactly when everything that stands at the later of the two places already stands at
the earlier one.
-/

namespace ScoutPulse.Tactics

/-! ### Positions as layers -/

/-- An object whose id is no name that every object of the language has stands in a step
only where the step puts it. -/
theorem Step.stands_of_plain {step : Step} {id : String} (plain : id ∉ Js.objectPrototype) :
    step.stands id = step.pos.lookup id := by
  rw [Step.stands, if_neg plain, Option.or_none]

/-- An object whose id is such a name stands in every step. -/
theorem Step.stands_of_inherited {step : Step} {id : String}
    (inherits : id ∈ Js.objectPrototype) :
    step.stands id = some ((step.pos.lookup id).getD .inherited) := by
  rw [Step.stands, if_pos inherits]
  cases step.pos.lookup id <;> rfl

/-- The loop of `positionAt` reads the steps as layers. -/
theorem latest_eq_shown (steps : List Step) (id : String) (k : ℕ) :
    latest steps id k = Layers.shown Step.stands steps k id := by
  induction k with
  | zero => rfl
  | succ k ih =>
      rw [latest, Layers.shown_succ, ih]
      change _ = ((steps[k]?.bind (·.stands id)).or _)
      cases steps[k]?.bind (·.stands id) <;> rfl

variable {doc next : TacticDoc} {i j k : ℕ} {id : String}

theorem getElem?_stepAt (inside : k < doc.steps.length) :
    doc.steps[k]? = some (doc.stepAt k) := by
  rw [TacticDoc.stepAt, List.getElem?_eq_getElem inside]
  rfl

theorem stepAt_of_getElem? {step : Step} (found : doc.steps[k]? = some step) :
    doc.stepAt k = step := by
  rw [TacticDoc.stepAt, found, Option.getD_some]

theorem stepAt_withStep {fn : Step → Step} (inside : k < doc.steps.length) :
    (doc.withStep k fn).stepAt k = fn (doc.stepAt k) := by
  apply stepAt_of_getElem?
  rw [TacticDoc.withStep, List.getElem?_mapIdx, getElem?_stepAt inside, Option.map_some,
    if_pos rfl]

theorem positionAt_eq_shown (inside : k < doc.steps.length) :
    positionAt doc k id = Layers.shown Step.stands doc.steps (k + 1) id := by
  rw [positionAt, latest_eq_shown]
  congr 1
  omega

/-- Where an object stands whose id is a name that every object of the language has: no
earlier step is asked. -/
theorem positionAt_of_inherited (inherits : id ∈ Js.objectPrototype)
    (inside : k < doc.steps.length) :
    positionAt doc k id = some (((doc.stepAt k).pos.lookup id).getD .inherited) := by
  rw [positionAt_eq_shown inside, Layers.shown_succ,
    Layers.layer_of_getElem? (getElem?_stepAt inside), Step.stands_of_inherited inherits]
  rfl

/-- What stands at a step keeps standing. -/
theorem positionAt_eq_none_of_le (inside : k < doc.steps.length) (before : j ≤ k)
    (absent : positionAt doc k id = none) : positionAt doc j id = none := by
  rw [positionAt_eq_shown inside] at absent
  rw [positionAt_eq_shown (by omega)]
  exact Layers.shown_eq_none_of_le (by omega) absent

/-- `positionsAt` over some of the objects. -/
theorem lookup_positionsAt_loop (stands : String → Option Place) (objects : List BoardObject)
    (out : Places) (id : Option String) :
    (objects.foldl (fun out obj => setPresent out obj.id (stands (idKey obj.id))) out).lookup id =
      if id ∈ objects.map (·.id) then (stands (idKey id)).or (out.lookup id)
      else out.lookup id := by
  induction objects generalizing out with
  | nil => simp
  | cons obj objects ih =>
      rw [List.foldl_cons, ih, List.map_cons]
      by_cases this : id = obj.id
      · subst this
        cases found : stands (idKey obj.id) <;> simp [setPresent]
      · cases stands (idKey obj.id) <;> simp [setPresent, this]

/-- Every object present at a step is shown where it stands. -/
theorem lookup_positionsAt (i : ℤ) {id : Option String} : (positionsAt doc i).lookup id =
    if id ∈ doc.objects.map (·.id) then positionAt doc i (idKey id) else none := by
  rw [positionsAt, lookup_positionsAt_loop (positionAt doc i)]
  simp

/-- Steps that place every object alike show the same. -/
theorem positionsAt_eq_iff {i j : ℤ} (objects : next.objects = doc.objects) :
    positionsAt next i = positionsAt doc j ↔ ∀ obj ∈ doc.objects,
      positionAt next i (idKey obj.id) = positionAt doc j (idKey obj.id) := by
  constructor
  · intro same obj member
    have looked := congrArg (·.lookup obj.id) same
    have named : obj.id ∈ doc.objects.map (·.id) := List.mem_map_of_mem member
    simpa [lookup_positionsAt, objects, named] using looked
  · intro alike
    rw [positionsAt, positionsAt, objects]
    apply List.foldl_ext
    intro out obj member
    rw [alike obj member]

/-! ### Adding, copying and deleting a step -/

/-- The second document is the first with a step put in after another, which shows what
that one shows, and the other steps show what they did. -/
structure InsertsAfter (doc : TacticDoc) (i : ℕ) (next : TacticDoc) : Prop where
  length : next.steps.length = doc.steps.length + 1
  inserted : positionsAt next (i + 1 : ℕ) = positionsAt doc i
  before : ∀ k, k ≤ i → positionsAt next k = positionsAt doc k ∧
    next.steps[k]? = doc.steps[k]?
  after : ∀ k, i < k → k < doc.steps.length →
    positionsAt next (k + 1 : ℕ) = positionsAt doc k ∧ next.steps[k + 1]? = doc.steps[k]?

/-- The second document is the first without a step, and the other steps show what they
did. -/
structure Deletes (doc : TacticDoc) (i : ℕ) (next : TacticDoc) : Prop where
  length : next.steps.length + 1 = doc.steps.length
  before : ∀ k, k < i → positionsAt next k = positionsAt doc k ∧
    next.steps[k]? = doc.steps[k]?
  after : ∀ k, i < k → k < doc.steps.length →
    positionsAt next (k - 1 : ℕ) = positionsAt doc k ∧
    (next.steps[k - 1]?).map (·.id) = (doc.steps[k]?).map (·.id)

/-- A step puts no object anywhere whose id is a name that every object of the language
has. -/
def PlacesPlain (doc : TacticDoc) (i : ℕ) : Prop :=
  ∀ obj ∈ doc.objects, idKey obj.id ∈ Js.objectPrototype →
    ∀ at_, (doc.stepAt i).pos.lookup (idKey obj.id) ≠ some (.own at_)

section Insert

variable {step : Step} (inside : i < doc.steps.length) (empty : step.pos = ∅)

include inside

theorem length_insertStep :
    (doc.insertStep (i + 1) step).steps.length = doc.steps.length + 1 :=
  List.length_insertIdx_of_le_length (Nat.succ_le_of_lt inside) step

/-- A step that comes in leaves the positions before it. -/
theorem positionAt_insertStep_of_le (before : k ≤ i) :
    positionAt (doc.insertStep (i + 1) step) k id = positionAt doc k id := by
  have length : (doc.insertStep (i + 1) step).steps.length = doc.steps.length + 1 :=
    length_insertStep inside
  rw [positionAt_eq_shown (by omega), positionAt_eq_shown (by omega)]
  exact Layers.shown_insertIdx_of_le (by omega)

include empty

/-- At the new step an object stands where it does at the one before, and so at every step
after; where its id is a name that every object has, only at those after. -/
theorem positionAt_insertStep_of_ge (after : i ≤ k) (within : k < doc.steps.length)
    (later : id ∈ Js.objectPrototype → i < k) :
    positionAt (doc.insertStep (i + 1) step) (k + 1 : ℕ) id = positionAt doc k id := by
  have length : (doc.insertStep (i + 1) step).steps.length = doc.steps.length + 1 :=
    length_insertStep inside
  by_cases inherits : id ∈ Js.objectPrototype
  · have same : (doc.insertStep (i + 1) step).stepAt (k + 1) = doc.stepAt k := by
      apply stepAt_of_getElem?
      rw [TacticDoc.insertStep,
        List.getElem?_insertIdx_of_gt (by have := later inherits; omega), Nat.add_sub_cancel]
      exact getElem?_stepAt within
    rw [positionAt_of_inherited inherits (by omega), positionAt_of_inherited inherits within, same]
  · have nothing : step.stands id = none := by
      rw [Step.stands_of_plain inherits, empty, AList.lookup_empty]
    rw [positionAt_eq_shown (by omega), positionAt_eq_shown within]
    exact Layers.shown_insertIdx_succ (by omega) nothing (by omega)

/-- At the new step such an object is what is inherited. -/
theorem positionAt_insertStep_self (inherits : id ∈ Js.objectPrototype) :
    positionAt (doc.insertStep (i + 1) step) (i + 1 : ℕ) id = some .inherited := by
  have length : (doc.insertStep (i + 1) step).steps.length = doc.steps.length + 1 :=
    length_insertStep inside
  have new : (doc.insertStep (i + 1) step).stepAt (i + 1) = step := by
    apply stepAt_of_getElem?
    rw [TacticDoc.insertStep, List.getElem?_insertIdx_self, if_pos (by omega)]
  rw [positionAt_of_inherited inherits (by omega), new, empty, AList.lookup_empty,
    Option.getD_none]

/-- A step that places nothing shows what the one before it does exactly when that one puts
no object anywhere whose id is a name that every object has. -/
theorem insertsAfter_insertStep_iff :
    InsertsAfter doc i (doc.insertStep (i + 1) step) ↔ PlacesPlain doc i := by
  have objects : (doc.insertStep (i + 1) step).objects = doc.objects := rfl
  constructor
  · intro inserts obj member inherits at_ placed
    have shown := (positionsAt_eq_iff objects).mp inserts.inserted obj member
    rw [positionAt_insertStep_self inside empty inherits, positionAt_of_inherited inherits inside,
      placed] at shown
    cases shown
  · intro plain
    refine ⟨length_insertStep inside, ?_, ?_, ?_⟩
    · rw [positionsAt_eq_iff objects]
      intro obj member
      by_cases inherits : idKey obj.id ∈ Js.objectPrototype
      · rw [positionAt_insertStep_self inside empty inherits,
          positionAt_of_inherited inherits inside]
        cases found : (doc.stepAt i).pos.lookup (idKey obj.id) with
        | none => rfl
        | some place =>
            cases place with
            | own at_ => exact absurd found (plain obj member inherits at_)
            | inherited => rfl
      · exact positionAt_insertStep_of_ge inside empty (Nat.le_refl i) inside
          fun inherits' => absurd inherits' inherits
    · intro k before
      refine ⟨?_, List.getElem?_insertIdx_of_lt (by omega)⟩
      rw [positionsAt_eq_iff objects]
      exact fun obj _ => positionAt_insertStep_of_le inside before
    · intro k after within
      refine ⟨?_, ?_⟩
      · rw [positionsAt_eq_iff objects]
        exact fun obj _ =>
          positionAt_insertStep_of_ge inside empty (Nat.le_of_lt after) within fun _ => after
      · rw [TacticDoc.insertStep, List.getElem?_insertIdx_of_gt (by omega)]
        rfl

end Insert

/-- An object whose id is a name that every object has, and that a step puts somewhere, is in
the next step too, if there is one. -/
def Carried (doc : TacticDoc) (i : ℕ) : Prop :=
  ∀ obj ∈ doc.objects, idKey obj.id ∈ Js.objectPrototype → i + 1 < doc.steps.length →
    ∀ at_, (doc.stepAt i).pos.lookup (idKey obj.id) = some (.own at_) →
      (doc.stepAt (i + 1)).pos.lookup (idKey obj.id) ≠ none

section Delete

variable (more : 1 < doc.steps.length)

/-- Without a step, those before it stay, the next one takes on its positions, and those after
move up. -/
theorem getElem?_removeStep : (doc.removeStep i more).steps[k]? =
    if k < i then doc.steps[k]?
    else if k = i then (doc.steps[k + 1]?).map fun next =>
      { next with pos := next.pos ∪ (doc.stepAt i).pos }
    else doc.steps[k + 1]? := by
  rw [TacticDoc.removeStep, List.getElem?_modify, List.getElem?_eraseIdx]
  rcases Nat.lt_trichotomy k i with sooner | rfl | later
  · simp [sooner, Nat.ne_of_gt sooner]
  · simp
  · simp [Nat.lt_asymm later, Nat.ne_of_lt later, Nat.ne_of_gt later]

theorem length_removeStep (inside : i < doc.steps.length) :
    (doc.removeStep i more).steps.length + 1 = doc.steps.length := by
  rw [TacticDoc.removeStep, List.length_modify, List.length_eraseIdx_of_lt inside]
  omega

/-- The step after one that is removed stands on the positions of both. -/
theorem stepAt_removeStep_self (further : i + 1 < doc.steps.length) :
    (doc.removeStep i more).stepAt i =
      { doc.stepAt (i + 1) with pos := (doc.stepAt (i + 1)).pos ∪ (doc.stepAt i).pos } := by
  apply stepAt_of_getElem?
  rw [getElem?_removeStep more, if_neg (Nat.lt_irrefl i), if_pos rfl, getElem?_stepAt further]
  rfl

theorem stepAt_removeStep_of_gt (after : i < k) (further : k + 1 < doc.steps.length) :
    (doc.removeStep i more).stepAt k = doc.stepAt (k + 1) := by
  apply stepAt_of_getElem?
  rw [getElem?_removeStep more, if_neg (by omega), if_neg (by omega)]
  exact getElem?_stepAt further

/-- A removed step is merged under the one after it. -/
theorem layer_removeStep_self (plain : id ∉ Js.objectPrototype)
    (further : i + 1 < doc.steps.length) :
    Layers.layer Step.stands (doc.removeStep i more).steps i id =
      (Layers.layer Step.stands doc.steps (i + 1) id).or
        (Layers.layer Step.stands doc.steps i id) := by
  have new : (doc.removeStep i more).steps[i]? = some ((doc.removeStep i more).stepAt i) := by
    have length := length_removeStep more (show i < doc.steps.length by omega)
    exact getElem?_stepAt (by omega)
  rw [Layers.layer_of_getElem? new, Layers.layer_of_getElem? (getElem?_stepAt further),
    Layers.layer_of_getElem? (getElem?_stepAt (show i < doc.steps.length by omega)),
    stepAt_removeStep_self more further, Step.stands_of_plain plain, Step.stands_of_plain plain,
    Step.stands_of_plain plain, Record.lookup_union]

variable (inside : i < doc.steps.length)

include inside

omit inside in
theorem layer_removeStep_of_lt (before : k < i) :
    Layers.layer Step.stands (doc.removeStep i more).steps k id =
      Layers.layer Step.stands doc.steps k id := by
  rw [Layers.layer, Layers.layer, getElem?_removeStep more, if_pos before]

/-- A step that is removed leaves the positions before it. -/
theorem positionAt_removeStep_of_lt (before : k < i) :
    positionAt (doc.removeStep i more) k id = positionAt doc k id := by
  have length := length_removeStep more inside
  rw [positionAt_eq_shown (by omega), positionAt_eq_shown (by omega)]
  exact Layers.shown_merge_of_le (fun j below => layer_removeStep_of_lt more below)
    (by omega)

/-- After the removed step an object stands where it did; where its id is a name that every
object has, the step that was next is asked alone. -/
theorem positionAt_removeStep_of_ge (after : i ≤ k) (within : k + 1 < doc.steps.length)
    (carried : id ∈ Js.objectPrototype → k = i →
      (((doc.stepAt (i + 1)).pos.lookup id).or ((doc.stepAt i).pos.lookup id)).getD .inherited =
        ((doc.stepAt (i + 1)).pos.lookup id).getD .inherited) :
    positionAt (doc.removeStep i more) k id = positionAt doc (k + 1 : ℕ) id := by
  have length := length_removeStep more inside
  by_cases inherits : id ∈ Js.objectPrototype
  · rw [positionAt_of_inherited inherits (by omega), positionAt_of_inherited inherits within]
    rcases Nat.eq_or_lt_of_le after with rfl | later
    · rw [stepAt_removeStep_self more within, Record.lookup_union]
      exact congrArg some (carried inherits rfl)
    · rw [stepAt_removeStep_of_gt more later within]
  · rw [positionAt_eq_shown (by omega), positionAt_eq_shown within]
    apply Layers.shown_merge_of_gt (fun j below => layer_removeStep_of_lt more below) _ _
      (by omega)
    · exact layer_removeStep_self more inherits (by omega)
    · intro j later
      rw [Layers.layer, Layers.layer, getElem?_removeStep more, if_neg (by omega),
        if_neg (by omega)]

/-- A step that is removed leaves what the others show exactly when each object whose id is a
name that every object has, and that the step puts somewhere, is in the next step too. -/
theorem deletes_removeStep_iff : Deletes doc i (doc.removeStep i more) ↔ Carried doc i := by
  have objects : (doc.removeStep i more).objects = doc.objects := rfl
  have length : (doc.removeStep i more).steps.length + 1 = doc.steps.length :=
    length_removeStep more inside
  constructor
  · intro deletes obj member inherits further at_ placed absent
    have shown := (deletes.after (i + 1) (Nat.lt_succ_self i) further).1
    rw [Nat.add_sub_cancel, positionsAt_eq_iff objects] at shown
    have same := shown obj member
    rw [positionAt_of_inherited inherits (by omega), positionAt_of_inherited inherits further,
      stepAt_removeStep_self more further, Record.lookup_union, absent, placed] at same
    cases same
  · intro carried
    refine ⟨length, ?_, ?_⟩
    · intro k before
      refine ⟨?_, by rw [getElem?_removeStep more, if_pos before]⟩
      rw [positionsAt_eq_iff objects]
      exact fun obj _ => positionAt_removeStep_of_lt more inside before
    · intro k after within
      obtain ⟨k, rfl⟩ : ∃ m, k = m + 1 := ⟨k - 1, by omega⟩
      rw [Nat.add_sub_cancel]
      constructor
      · rw [positionsAt_eq_iff objects]
        intro obj member
        refine positionAt_removeStep_of_ge more inside (by omega) within fun inherits here => ?_
        have kept := carried obj member inherits (by omega)
        cases next : (doc.stepAt (i + 1)).pos.lookup (idKey obj.id) with
        | some place => rfl
        | none =>
            cases removed : (doc.stepAt i).pos.lookup (idKey obj.id) with
            | none => rfl
            | some place =>
                cases place with
                | own at_ => exact absurd next (kept at_ removed)
                | inherited => rfl
      · rw [getElem?_removeStep more, if_neg (by omega)]
        split_ifs
        · rw [Option.map_map]
          rfl
        · rfl

end Delete

/-! ### Moving a step -/

/-- A place that does not differ from another is the same. -/
theorem eq_of_not_differs {q : Option Place} {p : Place} (same : differs q p = false) :
    q = some p := by
  unfold differs at same
  split at same
  · simp only [Bool.or_eq_false_iff, decide_eq_false_iff_not, not_not] at same
    rename_i a b
    cases a
    cases b
    obtain ⟨rfl, rfl⟩ := same
    rfl
  · rfl
  · cases same

/-- Coordinates that are numbers do not differ from themselves. -/
theorem differs_own {q : Option Place} {at_ : Vec2} :
    differs q (.own (some at_)) = false ↔ q = some (.own (some at_)) := by
  constructor
  · exact eq_of_not_differs
  · rintro rfl
    simp [differs]

/-- What differs is stored under the keys of a list of places: of those with one key, all or
none. -/
theorem lookup_foldl_setPosition {entries : List (Sigma fun _ : Option String => Place)}
    {given : Option Place} (keep : Option String → Place → Bool) (out : Record Place)
    (named : id ≠ "__proto__") (alike : ∀ e ∈ entries, idKey e.1 = id →
      (if keep e.1 e.2 then some e.2 else none) = given) :
    (entries.foldl (fun pos e => if keep e.1 e.2 then setPosition pos (idKey e.1) e.2 else pos)
      out).lookup id = if id ∈ entries.map (idKey ·.1) then given.or (out.lookup id)
        else out.lookup id := by
  induction entries generalizing out with
  | nil => simp
  | cons e entries ih =>
      rw [List.forall_mem_cons] at alike
      have listed : id ∈ (e :: entries).map (idKey ·.1) ↔
          id = idKey e.1 ∨ id ∈ entries.map (idKey ·.1) := by
        rw [List.map_cons, List.mem_cons]
      have first : (if keep e.1 e.2 then setPosition out (idKey e.1) e.2 else out).lookup id =
          if id = idKey e.1 then given.or (out.lookup id) else out.lookup id := by
        by_cases this : id = idKey e.1
        · rw [if_pos this, ← alike.1 this.symm]
          split
          · rw [setPosition, if_neg (by rwa [← this]), ← this, AList.lookup_insert]
            rfl
          · rfl
        · rw [if_neg this]
          split
          · rw [setPosition]
            split
            · rfl
            · exact AList.lookup_insert_ne this
          · rfl
      rw [List.foldl_cons, ih _ alike.2, first]
      by_cases this : id = idKey e.1
      · rw [if_pos this, if_pos (listed.mpr (.inl this))]
        split
        · rw [← Option.or_assoc, Option.or_self]
        · rfl
      · rw [if_neg this]
        by_cases later : id ∈ entries.map (idKey ·.1)
        · rw [if_pos later, if_pos (listed.mpr (.inr later))]
        · rw [if_neg later, if_neg (mt listed.mp (not_or.mpr ⟨this, later⟩))]

section Reorder

variable {origin target : ℕ} (within : origin < doc.steps.length)
  (inside : target < doc.steps.length)

include within inside

theorem getElem?_order (below : k < doc.steps.length) :
    (doc.order origin target)[k]? = some (Layers.landing target origin k) := by
  have lands := Layers.landing_lt inside within below
  rw [TacticDoc.order, Layers.getElem?_moved (by simpa using within) (by simpa using inside),
    List.getElem?_range lands]

theorem getElem?_reorder (below : k < doc.steps.length) :
    (doc.reorder origin target inside).steps[k]? =
      some (doc.resettled (doc.order origin target) k (Layers.landing target origin k)) := by
  rw [TacticDoc.reorder, List.getElem?_mapIdx, getElem?_order within inside below]
  rfl

omit within inside in
/-- Where an object stands at the steps, in a new order. -/
def TacticDoc.reordered (doc : TacticDoc) (origin target k : ℕ) (id : String) : Option Place :=
  positionAt doc (Layers.landing target origin k : ℕ) id

/-- What was settled before a step is how an object stood at the one before it. -/
theorem lookup_before {id : Option String} (member : id ∈ doc.objects.map (·.id))
    (below : k < doc.steps.length) :
    (doc.before (doc.order origin target) k).lookup id =
      Layers.earlier (doc.reordered origin target) k (idKey id) := by
  cases k with
  | zero => rfl
  | succ k =>
      rw [TacticDoc.before, if_pos (Nat.succ_pos k), Nat.add_sub_cancel,
        getElem?_order within inside (by omega)]
      change (positionsAt doc _).lookup id = _
      rw [lookup_positionsAt, if_pos member]
      rfl

/-- The steps of a new order store what differs from the step now before them. -/
theorem lookup_resettled (member : id ∈ doc.objects.map (idKey ·.id)) (named : id ≠ "__proto__")
    (below : k < doc.steps.length) :
    (doc.resettled (doc.order origin target) k (Layers.landing target origin k)).pos.lookup id =
      (doc.reordered origin target k id).filter
        (differs (Layers.earlier (doc.reordered origin target) k id)) := by
  have stands : ∀ e ∈ (positionsAt doc (Layers.landing target origin k : ℕ)).entries,
      e.1 ∈ doc.objects.map (·.id) ∧ doc.reordered origin target k (idKey e.1) = some e.2 := by
    intro e entry
    have found : (positionsAt doc _).lookup e.1 = some e.2 := AList.mem_lookup_iff.mpr entry
    rw [lookup_positionsAt] at found
    split at found
    · exact ⟨‹_›, found⟩
    · cases found
  have alike : ∀ e ∈ (positionsAt doc (Layers.landing target origin k : ℕ)).entries,
      idKey e.1 = id → (if differs ((doc.before (doc.order origin target) k).lookup e.1) e.2
        then some e.2 else none) = (doc.reordered origin target k id).filter
          (differs (Layers.earlier (doc.reordered origin target) k id)) := by
    intro e entry same
    obtain ⟨known, here⟩ := stands e entry
    rw [lookup_before within inside known below, ← same, here, Option.filter_some]
  rw [TacticDoc.resettled]
  dsimp only
  rw [lookup_foldl_setPosition
    (fun id p => differs ((doc.before (doc.order origin target) k).lookup id) p) ∅ named alike,
    AList.lookup_empty, Option.or_none]
  split
  · rfl
  next absent =>
    -- What stands at the step is among the places that are gone through.
    cases here : doc.reordered origin target k id with
    | none => rfl
    | some p =>
        obtain ⟨obj, known, rfl⟩ := List.mem_map.mp member
        have entry : (⟨obj.id, p⟩ : Sigma fun _ : Option String => Place) ∈
            (positionsAt doc (Layers.landing target origin k : ℕ)).entries := by
          rw [← AList.mem_lookup_iff, Option.mem_def, lookup_positionsAt,
            if_pos (List.mem_map_of_mem known)]
          exact here
        exact absurd (List.mem_map.mpr ⟨_, entry, rfl⟩) absent

omit within inside in
/-- A step in a new order and the one now before it do not have an object at one point. -/
def TacticDoc.Unechoed (doc : TacticDoc) (origin target k : ℕ) (id : String) : Prop :=
  ∀ at_, Layers.earlier (doc.reordered origin target) k id = some (.own (some at_)) →
    doc.reordered origin target k id ≠ some (.own (some at_))

/-- An object whose id is a name that every object has stands at a step of a new order where
it stood exactly when the step now before it does not have it at the same point: then nothing
is stored, and what is inherited is found. -/
theorem positionAt_reorder_of_inherited (member : id ∈ doc.objects.map (idKey ·.id))
    (named : id ≠ "__proto__") (inherits : id ∈ Js.objectPrototype)
    (below : k < doc.steps.length) :
    positionAt (doc.reorder origin target inside) k id = doc.reordered origin target k id ↔
      doc.Unechoed origin target k id := by
  have length : (doc.reorder origin target inside).steps.length = doc.steps.length := by
    rw [TacticDoc.reorder, List.length_mapIdx, doc.order_length inside]
  have lands := Layers.landing_lt inside within below
  rw [positionAt_of_inherited inherits (by omega),
    stepAt_of_getElem? (getElem?_reorder within inside below),
    lookup_resettled within inside member named below, TacticDoc.Unechoed]
  rw [show doc.reordered origin target k id = _ from positionAt_of_inherited inherits lands]
  cases ((doc.stepAt (Layers.landing target origin k)).pos.lookup id).getD .inherited with
  | inherited =>
      rw [Option.filter_some]
      split <;> simp
  | own at_ =>
      rw [Option.filter_some]
      cases at_ with
      | none => simp [differs]
      | some at_ =>
          by_cases echo : Layers.earlier (doc.reordered origin target) k id =
              some (.own (some at_))
          · simp [echo, differs]
          · have stored : differs (Layers.earlier (doc.reordered origin target) k id)
                (.own (some at_)) = true :=
              Bool.eq_true_of_not_eq_false (mt differs_own.mp echo)
            rw [if_pos stored]
            simp only [Option.getD_some, true_iff]
            rintro other earlier same
            rw [Option.some.injEq, Place.own.injEq, Option.some.injEq] at same
            rw [same] at echo
            exact echo earlier

/-- Another object stands there exactly when, where it did not stand at the step, it stands at
no step now before it. -/
theorem positionAt_reorder_of_plain (member : id ∈ doc.objects.map (idKey ·.id))
    (plain : id ∉ Js.objectPrototype) (below : k < doc.steps.length) :
    positionAt (doc.reorder origin target inside) k id = doc.reordered origin target k id ↔
      (doc.reordered origin target k id = none →
        ∀ j < k, doc.reordered origin target j id = none) := by
  have length : (doc.reorder origin target inside).steps.length = doc.steps.length := by
    rw [TacticDoc.reorder, List.length_mapIdx, doc.order_length inside]
  have named : id ≠ "__proto__" := by
    rintro rfl
    exact plain (by decide)
  rw [positionAt_eq_shown (by omega)]
  apply Layers.shown_difference_eq_iff
  intro j before
  rw [Layers.layer_of_getElem? (getElem?_reorder within inside (by omega)),
    Step.stands_of_plain plain, lookup_resettled within inside member named (by omega)]
  cases doc.reordered origin target j id with
  | none => exact .inl rfl
  | some p =>
      rw [Option.filter_some]
      split
      · exact .inl rfl
      next same => exact .inr ⟨rfl, eq_of_not_differs (by simpa using same)⟩

/-- A step in a new order shows what it showed exactly when each object that does not stand at
it stands at no step now before it, and none whose id is a name that every object has is at
one point at it and at the step now before it. -/
theorem positionsAt_reorder_iff (named : ∀ obj ∈ doc.objects, idKey obj.id ≠ "__proto__")
    (below : k < doc.steps.length) :
    positionsAt (doc.reorder origin target inside) k =
        positionsAt doc (Layers.landing target origin k : ℕ) ↔
      ∀ obj ∈ doc.objects,
        (doc.reordered origin target k (idKey obj.id) = none →
          ∀ j < k, doc.reordered origin target j (idKey obj.id) = none) ∧
        (idKey obj.id ∈ Js.objectPrototype →
          doc.Unechoed origin target k (idKey obj.id)) := by
  have objects : (doc.reorder origin target inside).objects = doc.objects := rfl
  rw [positionsAt_eq_iff objects]
  refine forall₂_congr fun obj known => ?_
  have member : idKey obj.id ∈ doc.objects.map (idKey ·.id) := List.mem_map_of_mem known
  by_cases inherits : idKey obj.id ∈ Js.objectPrototype
  · have lands := Layers.landing_lt inside within below
    have stands : doc.reordered origin target k (idKey obj.id) ≠ none := by
      rw [TacticDoc.reordered, positionAt_of_inherited inherits lands]
      exact Option.some_ne_none _
    refine (positionAt_reorder_of_inherited within inside member (named obj known) inherits
      below).trans ?_
    exact ⟨fun apart => ⟨fun absent => absurd absent stands, fun _ => apart⟩,
      fun both => both.2 inherits⟩
  · refine (positionAt_reorder_of_plain within inside member inherits below).trans ?_
    exact ⟨fun stays => ⟨stays, fun inherits' => absurd inherits' inherits⟩, And.left⟩

end Reorder

/-- A later step that comes before an earlier one lies, like it, between the two places. -/
theorem between_of_landing {origin target : ℕ} (before : j < k)
    (turned : Layers.landing target origin k < Layers.landing target origin j) :
    min origin target ≤ Layers.landing target origin k ∧
      Layers.landing target origin j ≤ max origin target := by
  revert turned
  unfold Layers.landing
  split_ifs <;> omega

/-- Some step passes the whole way between the two places. -/
theorem exists_turned {origin target : ℕ} (moves : origin ≠ target) :
    ∃ j k, j < k ∧ k ≤ max origin target ∧
      Layers.landing target origin k = min origin target ∧
      Layers.landing target origin j = max origin target := by
  unfold Layers.landing
  rcases Nat.lt_or_gt_of_ne moves with forward | backward
  · refine ⟨target - 1, target, by omega, by omega, ?_, ?_⟩
    · rw [if_pos rfl]
      omega
    · rw [if_neg (by omega), if_neg (by omega), if_pos (by omega)]
      omega
  · refine ⟨target, target + 1, by omega, by omega, ?_, ?_⟩
    · rw [if_neg (by omega), if_pos (by omega)]
      omega
    · rw [if_pos rfl]
      omega

/-- Everything that stands at one step already stands at another. -/
def AllStand (doc : TacticDoc) (late early : ℕ) : Prop :=
  ∀ obj ∈ doc.objects, positionAt doc late (idKey obj.id) ≠ none →
    positionAt doc early (idKey obj.id) ≠ none

/-- No two steps that a new order makes neighbours put an object at one point whose id is a
name that every object has. -/
def EchoFree (doc : TacticDoc) (origin target : ℕ) : Prop :=
  ∀ obj ∈ doc.objects, idKey obj.id ∈ Js.objectPrototype → ∀ k, k + 1 < doc.steps.length →
    ∀ at_, (doc.stepAt (Layers.landing target origin k)).pos.lookup (idKey obj.id) =
        some (.own (some at_)) →
      (doc.stepAt (Layers.landing target origin (k + 1))).pos.lookup (idKey obj.id) ≠
        some (.own (some at_))

/-- An object whose id is such a name stands where a step puts it, if it stands at a point. -/
theorem positionAt_eq_own_iff {at_ : Coords} (inherits : id ∈ Js.objectPrototype)
    (inside : k < doc.steps.length) : positionAt doc k id = some (.own at_) ↔
      (doc.stepAt k).pos.lookup id = some (.own at_) := by
  rw [positionAt_of_inherited inherits inside]
  cases (doc.stepAt k).pos.lookup id <;> simp

/-- No such object is at one point at two steps that are now neighbours. -/
theorem unechoed_iff {origin target : ℕ} (within : origin < doc.steps.length)
    (inside : target < doc.steps.length) :
    (∀ k < doc.steps.length, ∀ obj ∈ doc.objects, idKey obj.id ∈ Js.objectPrototype →
        doc.Unechoed origin target k (idKey obj.id)) ↔ EchoFree doc origin target := by
  have lands : ∀ {k}, k < doc.steps.length → Layers.landing target origin k < doc.steps.length :=
    fun below => Layers.landing_lt inside within below
  constructor
  · intro apart obj known inherits k further at_ first second
    refine apart (k + 1) further obj known inherits at_ ?_ ?_
    · exact (positionAt_eq_own_iff inherits (lands (by omega))).mpr first
    · exact (positionAt_eq_own_iff inherits (lands further)).mpr second
  · intro free k below obj known inherits at_ earlier here
    cases k with
    | zero => cases earlier
    | succ k =>
        refine free obj known inherits k below at_ ?_ ?_
        · exact (positionAt_eq_own_iff inherits (lands (by omega))).mp earlier
        · exact (positionAt_eq_own_iff inherits (lands below)).mp here

/-- Every step of a new order shows what it showed exactly when everything that stands at
the later of the two places already stands at the earlier one, and no two steps that are now
neighbours put an object at one point whose id is a name that every object has. -/
theorem reorder_keeps_iff {origin target : ℕ}
    (named : ∀ obj ∈ doc.objects, idKey obj.id ≠ "__proto__") (within : origin < doc.steps.length)
    (inside : target < doc.steps.length) (moves : origin ≠ target) :
    (∀ k < doc.steps.length, positionsAt (doc.reorder origin target inside)
        (Layers.landing origin target k : ℕ) = positionsAt doc k) ↔
      AllStand doc (max origin target) (min origin target) ∧ EchoFree doc origin target := by
  have shows : ∀ {k}, k < doc.steps.length → (positionsAt (doc.reorder origin target inside)
      (Layers.landing origin target k : ℕ) = positionsAt doc k ↔ ∀ obj ∈ doc.objects,
        (positionAt doc k (idKey obj.id) = none → ∀ j < Layers.landing origin target k,
          positionAt doc (Layers.landing target origin j : ℕ) (idKey obj.id) = none) ∧
        (idKey obj.id ∈ Js.objectPrototype →
          doc.Unechoed origin target (Layers.landing origin target k) (idKey obj.id))) := by
    intro k below
    have shown := positionsAt_reorder_iff (k := Layers.landing origin target k) within inside
      named (Layers.landing_lt within inside below)
    simpa only [TacticDoc.reordered, Layers.landing_landing] using shown
  rw [← unechoed_iff within inside]
  constructor
  · intro keeps
    have each := fun k below => (shows (k := k) below).mp (keeps k below)
    refine ⟨?_, ?_⟩
    · intro obj member stands
      obtain ⟨j, k, before, most, here, there⟩ := exists_turned moves
      have last := (each (Layers.landing target origin k)
        (Layers.landing_lt inside within (by omega)) obj member).1
      rw [Layers.landing_landing] at last
      intro absent
      rw [← here] at absent
      apply stands
      rw [← there]
      exact last absent j before
    · intro k below obj member
      have one := (each (Layers.landing target origin k)
        (Layers.landing_lt inside within below) obj member).2
      rwa [Layers.landing_landing] at one
  · rintro ⟨stand, apart⟩ k below
    rw [shows below]
    refine fun obj member => ⟨fun absent j before => ?_, ?_⟩
    · have lands := Layers.landing_lt within inside below
      rcases Nat.lt_or_ge k (Layers.landing target origin j) with turned | kept
      · have back : Layers.landing target origin (Layers.landing origin target k) = k :=
          Layers.landing_landing
        have ends := between_of_landing before (by rw [back]; exact turned)
        rw [back] at ends
        have early := positionAt_eq_none_of_le below ends.1 absent
        exact positionAt_eq_none_of_le (by omega) ends.2 (not_imp_not.mp (stand obj member) early)
      · exact positionAt_eq_none_of_le below kept absent
    · exact apart _ (Layers.landing_lt within inside below) obj member

namespace EditorStore

variable {s : EditorStore}

@[simp] theorem apply_doc {next : TacticDoc} {phase : Phase} : (s.apply next phase).doc = next :=
  rfl

/-- Adding and copying the current step keep what every step shows, and what it shows itself is
shown by the new one; deleting it keeps what the others show. -/
structure StepEditsKeep (s : EditorStore) : Prop where
  adds : ∀ drawn, InsertsAfter s.doc s.stepIndex (s.addStep drawn).doc
  copies : ∀ drawn, InsertsAfter s.doc s.stepIndex (s.duplicateStep drawn).doc
  deletes : if s.doc.steps.length ≤ 1 then s.deleteStep = s
    else Deletes s.doc s.stepIndex s.deleteStep.doc

/-- Adding and copying the current step keep what the steps show exactly when it puts no object
anywhere whose id is a name that every object of the language has; deleting it does exactly
when what it puts there is put somewhere by the next step. All three do exactly when the first
condition holds. -/
theorem step_edits_keep_iff (inside : s.stepIndex < s.doc.steps.length) :
    (∀ drawn, InsertsAfter s.doc s.stepIndex (s.addStep drawn).doc ↔
        PlacesPlain s.doc s.stepIndex) ∧
      (∀ drawn, InsertsAfter s.doc s.stepIndex (s.duplicateStep drawn).doc ↔
        PlacesPlain s.doc s.stepIndex) ∧
      (if s.doc.steps.length ≤ 1 then s.deleteStep = s
        else (Deletes s.doc s.stepIndex s.deleteStep.doc ↔ Carried s.doc s.stepIndex)) ∧
      (s.StepEditsKeep ↔ PlacesPlain s.doc s.stepIndex) := by
  have adds : ∀ drawn, InsertsAfter s.doc s.stepIndex (s.addStep drawn).doc ↔
      PlacesPlain s.doc s.stepIndex := fun drawn => insertsAfter_insertStep_iff inside rfl
  have copies : ∀ drawn, InsertsAfter s.doc s.stepIndex (s.duplicateStep drawn).doc ↔
      PlacesPlain s.doc s.stepIndex := fun drawn => insertsAfter_insertStep_iff inside rfl
  have deletes : if s.doc.steps.length ≤ 1 then s.deleteStep = s
      else (Deletes s.doc s.stepIndex s.deleteStep.doc ↔ Carried s.doc s.stepIndex) := by
    unfold deleteStep
    split_ifs with single
    · rfl
    · exact deletes_removeStep_iff (by omega) inside
  refine ⟨adds, copies, deletes, fun keeps => (adds "").mp (keeps.adds ""), fun plain => ?_⟩
  refine ⟨fun drawn => (adds drawn).mpr plain, fun drawn => (copies drawn).mpr plain, ?_⟩
  split_ifs at deletes ⊢ with single
  · exact deletes
  · exact deletes.mpr fun obj known inherits _ at_ placed =>
      absurd placed (plain obj known inherits at_)

/-- A board whose second step brings on a player. -/
def lateEntry : EditorStore where
  doc :=
    { emptyDoc "first" with
      objects := [{ id := some "a", kind := .player, team := some .home, number := some "1" }]
      steps := [newStep "first", (newStep "second").put "a" (some ⟨10, 0⟩)]
      steps_ne := List.cons_ne_nil _ _ }

/-- No id of its objects is a name that every object has. -/
theorem lateEntry_plain :
    ∀ obj ∈ lateEntry.doc.objects, idKey obj.id ∉ Js.objectPrototype := by decide

/-- Where a player enters late, the edits of steps keep every position. -/
theorem step_edits_keep_iff_lateEntry : lateEntry.StepEditsKeep :=
  (step_edits_keep_iff (s := lateEntry) (by decide)).2.2.2.mpr fun obj known inherits =>
    absurd inherits (lateEntry_plain obj known)

/-- Every position that is stored is a pair of numbers. -/
def Pairs (doc : TacticDoc) : Prop :=
  ∀ step ∈ doc.steps, ∀ e ∈ step.pos.entries, e.2.coords.isSome = true

instance (doc : TacticDoc) : Decidable (Pairs doc) :=
  inferInstanceAs (Decidable (∀ step ∈ doc.steps, ∀ e ∈ step.pos.entries,
    e.2.coords.isSome = true))

/-- A board with an object whose id is the name of a member that every object has. -/
def builder : EditorStore where
  doc :=
    { emptyDoc "first" with
      objects := [{ id := some "constructor", kind := .player }]
      steps := [(newStep "first").put "constructor" (some ⟨10, 0⟩)]
      steps_ne := List.cons_ne_nil _ _ }

/-- The step added after the one that puts it on the pitch shows an inherited member in its
place. -/
theorem addStep_shows_inherited : ¬ ∀ s : EditorStore, Pairs s.doc →
    s.stepIndex < s.doc.steps.length → s.StepEditsKeep := by
  intro keeps
  have inserted := ((keeps builder (by decide) (by decide)).adds "second").inserted
  revert inserted
  decide +kernel

/-- Where `moveStep` takes a step: its second argument is clamped, and a call with a first
argument that is no step moves nothing. -/
def movedTo (s : EditorStore) (from_ to_ : ℤ) (k : ℕ) : ℕ :=
  if 0 ≤ from_ ∧ from_ < s.doc.steps.length then
    Layers.landing from_.toNat (s.nearest to_).toNat k
  else k

/-- After `moveStep` every step, at its new index, shows what it showed before. -/
def MoveKeeps (s : EditorStore) (from_ to_ : ℤ) : Prop :=
  ∀ k < s.doc.steps.length,
    positionsAt (s.moveStep from_ to_).doc (s.movedTo from_ to_ k) = positionsAt s.doc k

/-- Everything that stands at the later of the two places of a move already stands at the
earlier one, and no two steps that become neighbours put an object at one point whose id is a
name that every object of the language has. -/
def MoveSettled (s : EditorStore) (from_ to_ : ℤ) : Prop :=
  0 ≤ from_ → from_ < s.doc.steps.length → from_ ≠ s.nearest to_ →
    AllStand s.doc (max from_.toNat (s.nearest to_).toNat)
        (min from_.toNat (s.nearest to_).toNat) ∧
      EchoFree s.doc from_.toNat (s.nearest to_).toNat

instance (s : EditorStore) (from_ to_ : ℤ) : Decidable (s.MoveKeeps from_ to_) :=
  inferInstanceAs (Decidable (∀ k < s.doc.steps.length,
    positionsAt (s.moveStep from_ to_).doc (s.movedTo from_ to_ k) = positionsAt s.doc k))

/-- A board with the player in both steps. -/
def bothEntries : EditorStore where
  doc :=
    { lateEntry.doc with
      steps := [(newStep "first").put "a" (some ⟨0, 0⟩),
        (newStep "second").put "a" (some ⟨10, 0⟩)]
      steps_ne := List.cons_ne_nil _ _ }

end EditorStore

end ScoutPulse.Tactics
