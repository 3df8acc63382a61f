import ScoutPulse.Tactics.Motion

/-!
# Which stored boards can be played

A document can be played when the timeline, every frame and every still of it are computed
without an exception and hold finite numbers only. `normalizeDoc` does not make every board
one that can: it looks at none of the members that tell times, curves and flights, nor at
the positions themselves. What it would have to ask of them is worked out here.
-/

namespace ScoutPulse.Tactics.Opened

open Js Js.Number

/-! ## Playing a document -/

/-- Every placement is finite. -/
def AllFinite (placements : Record Placement) : Prop :=
  ∀ id placed, placements.lookup id = some placed → placed.Finite

/-- `Timeline` without anything but numbers. -/
structure Timeline.Finite (line : Timeline) : Prop where
  starts : ∀ seg ∈ line.segments, seg.start.isFinite = true
  stops : ∀ seg ∈ line.segments, seg.stop.isFinite = true
  stepStarts : ∀ t ∈ line.stepStarts, t.isFinite = true

section Documents

variable [Implementation]

/-- Everything playback computes of a document is there, and is a finite number. -/
def Plays (doc : TacticDoc) : Prop :=
  ∃ line, timeline doc = .ok line ∧ line.Finite ∧
    (∀ t, ∃ frame, frameAt doc line t = .ok frame ∧ AllFinite frame.placements) ∧
    ∀ i : ℤ, AllFinite (still doc i)

/-- What playing a document asks of it. -/
structure Steady (doc : TacticDoc) : Prop where
  rests : ∀ s ∈ doc.steps, Lasts s.hold
  travels : ∀ k s, doc.steps[k]? = some s → 0 < k → Lasts s.duration
  stands : ∀ o ∈ doc.objects, ∀ s ∈ doc.steps, ∀ p, standing s.pos o.id = some p → IsPoint p
  moves : ∀ (k : ℕ) (s : Step), doc.steps[k]? = some s → ∀ o ∈ doc.objects,
    (∃ (j : ℕ) (r : Step), j < k ∧ doc.steps[j]? = some r ∧ standing r.pos o.id ≠ none) →
      Searchable s.air ∧ ∀ b, bendOf s.bend o.id = some b → Bends b

variable {doc : TacticDoc} {o : BoardObject} {k : ℕ} {t : Number}

/-! ## Stills -/

omit [Implementation] in
/-- What stands still is finite. -/
theorem still_finite (i : ℤ)
    (stands : ∀ o ∈ doc.objects, ∀ s ∈ doc.steps, ∀ p, standing s.pos o.id = some p → IsPoint p) :
    AllFinite (still doc i) := by
  intro id placed found
  obtain ⟨o, member, -, made⟩ := Record.exists_of_lookup_foldl_assign found
  obtain ⟨p, at_, rfl⟩ := Option.map_eq_some_iff.mp made
  obtain ⟨s, step, here⟩ := exists_of_positionAt at_
  have point := stands o member s step p here
  exact ⟨Coord.isFinite_of.mpr point.x, Coord.isFinite_of.mpr point.y, rfl⟩

omit [Implementation] in
/-- A position shows in the still of its step. -/
theorem isPoint_of_still (all : ∀ i : ℤ, AllFinite (still doc i)) (member : o ∈ doc.objects)
    {s : Step} (step : doc.steps[k]? = some s) {p : Held} (here : standing s.pos o.id = some p) :
    IsPoint p := by
  have within : k < doc.steps.length := (List.getElem?_eq_some_iff.mp step).1
  have found : positionAt doc k o.id = some p :=
    (positionAt_natCast within).trans (latest_succ step here)
  obtain ⟨last, -, same, placed, made, shown⟩ := Record.exists_lookup_foldl_assign
    BoardObject.id (fun obj => (positionAt doc k obj.id).map Placement.still) member
    (by simp [found])
  rw [same, found, Option.map_some, Option.some.injEq] at made
  cases made
  have finite := all k o.id _ shown
  exact ⟨Coord.isFinite_of.mp finite.x, Coord.isFinite_of.mp finite.y⟩

/-! ## Frames -/

/-- The objects of a move, when each of them can be placed. -/
theorem placeMoving_finite {target : Step}
    (each : ∀ o ∈ doc.objects, ∃ placed, moving doc k target t o = .ok placed ∧
      ∀ placement, placed = some placement → placement.Finite) :
    ∃ placements, placeMoving doc k target t = .ok placements ∧ AllFinite placements := by
  let placedOf (o : BoardObject) : Option Placement := (moving doc k target t o).toOption.join
  have all : ∀ o ∈ doc.objects, moving doc k target t o = .ok (placedOf o) := by
    intro o member
    obtain ⟨placed, made, -⟩ := each o member
    simp [placedOf, made, Except.toOption]
  refine ⟨_, Outcome.foldlM_of_ok (g := placedOf) all, ?_⟩
  intro id placed found
  obtain ⟨o, member, -, made⟩ := Record.exists_of_lookup_foldl_assign found
  obtain ⟨other, moved, finite⟩ := each o member
  have same : other = placedOf o := Except.ok.inj (moved.symm.trans (all o member))
  exact finite placed (same.trans made)

/-- An object that stood somewhere before travels to where it stands then. -/
theorem moving_travels {target : Step} {p : ℚ} (steady : Steady doc)
    (step : doc.steps[k]? = some target) (member : o ∈ doc.objects) {origin : Held}
    (leaves : latest doc.steps o.id k = some origin) :
    ∃ goal a b lofted handle heading, positionAt doc k o.id = some goal ∧
      vec origin = exact a ∧ vec goal = exact b ∧
      moving doc k target (finite p) o = .ok (some
        ⟨(exact (wayAt handle a b (easedAt o p))).x, (exact (wayAt handle a b (easedAt o p))).y,
          finite (heightAt lofted a b p), finite 1, heading⟩) := by
  have within : k < doc.steps.length := (List.getElem?_eq_some_iff.mp step).1
  obtain ⟨j, r, before, rested, there⟩ := exists_of_latest leaves
  have stays : latest doc.steps o.id (k + 1) ≠ none :=
    latest_ne_none (Nat.lt_succ_of_lt before) rested (by simp [there])
  obtain ⟨goal, arrives⟩ := Option.ne_none_iff_exists'.mp stays
  rw [← positionAt_natCast within] at arrives
  obtain ⟨s, stepped, here⟩ := exists_of_positionAt arrives
  obtain ⟨b, exactly⟩ := exists_exact (steady.stands o member s stepped goal here)
  obtain ⟨a, started⟩ := exists_exact
    (steady.stands o member r (List.mem_of_getElem? rested) origin there)
  obtain ⟨searchable, bends⟩ := steady.moves k target step o member
    ⟨j, r, before, rested, by simp [there]⟩
  obtain ⟨lofted, found⟩ := (searchable_iff o.id).mp searchable
  obtain ⟨handle, reads⟩ := exists_handle bends
  obtain ⟨heading, made⟩ := travel_exact (a := a) (b := b) (p := p) reads found
  refine ⟨goal, a, b, lofted, handle, heading, arrives, started, exactly, ?_⟩
  rw [moving, arrives, positionAt_pred within (Nat.zero_lt_of_lt before), leaves]
  change some <$> travel target o (vec origin) (vec goal) (finite p) = _
  rw [started, exactly, made]
  rfl

/-- One that stood nowhere appears where it stands then. -/
theorem moving_appears {target : Step} (step : doc.steps[k]? = some target) (later : 0 < k)
    (absent : latest doc.steps o.id k = none) :
    moving doc k target t o = .ok ((positionAt doc k o.id).map fun goal =>
      ⟨(vec goal).x, (vec goal).y, finite 0, easeOut t, none⟩) := by
  have within : k < doc.steps.length := (List.getElem?_eq_some_iff.mp step).1
  rw [moving, positionAt_pred within later, absent]
  cases positionAt doc k o.id with
  | none => rfl
  | some goal => rfl

/-- What moves is finite. -/
theorem moving_finite {target : Step} {p : ℚ} (steady : Steady doc)
    (step : doc.steps[k]? = some target) (later : 0 < k) (member : o ∈ doc.objects) :
    ∃ placed, moving doc k target (finite p) o = .ok placed ∧
      ∀ placement, placed = some placement → placement.Finite := by
  cases leaves : latest doc.steps o.id k with
  | none =>
      refine ⟨_, moving_appears step later leaves, fun placement made => ?_⟩
      obtain ⟨goal, arrives, rfl⟩ := Option.map_eq_some_iff.mp made
      obtain ⟨s, stepped, here⟩ := exists_of_positionAt arrives
      have point := steady.stands o member s stepped goal here
      exact ⟨Coord.isFinite_of.mpr point.x, Coord.isFinite_of.mpr point.y, rfl⟩
  | some origin =>
      obtain ⟨goal, a, b, lofted, handle, heading, -, -, -, made⟩ :=
        moving_travels (p := p) steady step member leaves
      refine ⟨_, made, fun placement same => ?_⟩
      cases same
      exact ⟨rfl, rfl, rfl⟩

theorem heldFrame_finite {step : ℕ} {elapsed : Number} (steady : Steady doc) :
    AllFinite (heldFrame doc step elapsed).placements :=
  still_finite step steady.stands

omit [Implementation] in
/-- The time of a frame is a number between the ends of the timeline, or no number. -/
theorem clampTime_ofStops (stops : List Stop) (time : Number) :
    clampTime (ofStops stops) time = nan ∨ ∃ x, clampTime (ofStops stops) time = finite x := by
  cases time with
  | nan => exact .inl rfl
  | infinite negative =>
      cases negative with
      | false => exact .inr ⟨_, finite_max⟩
      | true => exact .inr ⟨0, rfl⟩
  | finite x =>
      refine .inr ⟨Max.max 0 (Min.min (Itinerary.finish 0 0 stops) x), ?_⟩
      rw [clampTime, ofStops, finite_min, finite_max]

omit [Implementation] in
/-- No segment has started at no time. -/
theorem started_nan {line : Timeline} : started line nan = none := by
  have pass : ∀ segments : List Segment, segments.foldl
      (fun seg s => if s.start.le (nan + finite nearSegment) then some s else seg) none = none := by
    intro segments
    induction segments with
    | nil => rfl
    | cons s segments ih =>
        rw [List.foldl_cons]
        cases s.start <;> exact ih
  exact pass line.segments

/-- The share of a travel that has passed. -/
theorem frameAt_travels {stops : List Stop} {leg : Leg} {x : ℚ} {time : Number}
    (clamped : clampTime (ofStops stops) time = finite x)
    (found : Itinerary.lastStarted (x + nearSegment) (Itinerary.legs 0 0 stops) = some leg)
    (travels : leg.travels = true) :
    frameAt doc (ofStops stops) time = movingFrame doc leg.stop
      (finite ((x - leg.start) / (leg.finish - leg.start))) := by
  have inside := Itinerary.within_of_mem (by norm_num) (Itinerary.mem_of_lastStarted found)
  have positive : (0 : ℚ) < leastTravel := by norm_num
  have divisor : leg.finish - leg.start ≠ 0 :=
    (sub_pos.mpr ((lt_add_of_pos_right _ positive).trans_le (inside.travels travels).2)).ne'
  rw [frameAt, clamped, started_ofStops, found, Option.map_some, ofLeg, travels]
  change movingFrame doc leg.stop _ = _
  rw [finite_sub, finite_sub, finite_div divisor]

/-- A frame drawn within a rest is the one held there. -/
theorem frameAt_rests {stops : List Stop} {leg : Leg} {x : ℚ} {time : Number}
    (clamped : clampTime (ofStops stops) time = finite x)
    (found : Itinerary.lastStarted (x + nearSegment) (Itinerary.legs 0 0 stops) = some leg)
    (rests : leg.travels = false) :
    frameAt doc (ofStops stops) time = .ok (heldFrame doc leg.stop (finite (x - leg.start))) := by
  rw [frameAt, clamped, started_ofStops, found, Option.map_some, ofLeg, rests]
  change Except.ok (heldFrame doc leg.stop _) = _
  rw [finite_sub]

/-- A travel leads to a later step of the document. -/
theorem exists_step_of_travels {stops : List Stop} {leg : Leg} (timed : Timed 0 doc.steps stops)
    (member : leg ∈ Itinerary.legs 0 0 stops) (travels : leg.travels = true) :
    0 < leg.stop ∧ ∃ target, doc.steps[leg.stop]? = some target := by
  have inside := Itinerary.within_of_mem (by norm_num) member
  have bound := inside.stop_lt
  rw [Nat.zero_add, length_of_timed timed] at bound
  exact ⟨(inside.travels travels).1, _, List.getElem?_eq_getElem bound⟩

/-- Every frame of a steady document is drawn, and is finite. -/
theorem frameAt_finite {stops : List Stop} (steady : Steady doc)
    (timed : Timed 0 doc.steps stops) (time : Number) :
    ∃ frame, frameAt doc (ofStops stops) time = .ok frame ∧ AllFinite frame.placements := by
  rcases clampTime_ofStops stops time with lost | ⟨x, clamped⟩
  · rw [frameAt, lost, started_nan]
    exact ⟨_, rfl, heldFrame_finite steady⟩
  · cases found : Itinerary.lastStarted (x + nearSegment) (Itinerary.legs 0 0 stops) with
    | none =>
        rw [frameAt, clamped, started_ofStops, found]
        exact ⟨_, rfl, heldFrame_finite steady⟩
    | some leg =>
        cases kind : leg.travels with
        | false =>
            rw [frameAt_rests clamped found kind]
            exact ⟨_, rfl, heldFrame_finite steady⟩
        | true =>
            obtain ⟨later, target, step⟩ := exists_step_of_travels timed
              (Itinerary.mem_of_lastStarted found) kind
            obtain ⟨placements, placed, whole⟩ := placeMoving_finite
              (fun o member => moving_finite steady step later member)
            rw [frameAt_travels clamped found kind, movingFrame, step]
            change ∃ frame, (placeMoving _ _ _ _ >>= _) = .ok frame ∧ _
            rw [placed]
            exact ⟨_, rfl, whole⟩

/-! ## What a document that can be played has -/

/-- What a frame of a move tells of an object that stood somewhere before. -/
theorem of_placeMoving {target : Step} {placements : Record Placement}
    (step : doc.steps[k]? = some target) (run : placeMoving doc k target t = .ok placements)
    (whole : AllFinite placements) (member : o ∈ doc.objects)
    (stood : latest doc.steps o.id k ≠ none) :
    Searchable target.air ∧ ∀ b, bendOf target.bend o.id = some b → Bends b := by
  have within : k < doc.steps.length := (List.getElem?_eq_some_iff.mp step).1
  have later : 0 < k := Nat.pos_of_ne_zero fun zero => stood (by rw [zero]; rfl)
  let placedOf (o : BoardObject) : Option Placement := (moving doc k target t o).toOption.join
  have all : ∀ o ∈ doc.objects, moving doc k target t o = .ok (placedOf o) := by
    intro o member
    obtain ⟨placed, made⟩ := Outcome.ok_of_foldlM run o member
    simp [placedOf, made, Except.toOption]
  -- an object with the id of this one travels the same way
  have travels : ∀ other ∈ doc.objects, other.id = o.id → ∃ origin goal placed,
      travel target other origin goal t = .ok placed ∧ placedOf other = some placed := by
    intro other here same
    obtain ⟨origin, leaves⟩ := Option.ne_none_iff_exists'.mp stood
    obtain ⟨j, r, before, rested, there⟩ := exists_of_latest leaves
    have stays : latest doc.steps o.id (k + 1) ≠ none :=
      latest_ne_none (Nat.lt_succ_of_lt before) rested (by simp [there])
    obtain ⟨goal, arrives⟩ := Option.ne_none_iff_exists'.mp stays
    have moved := all other here
    rw [moving, same, positionAt_natCast within, arrives, positionAt_pred within later,
      leaves] at moved
    change some <$> travel target other (vec origin) (vec goal) t = _ at moved
    cases run : travel target other (vec origin) (vec goal) t with
    | error e => rw [run] at moved; cases moved
    | ok placed =>
        rw [run] at moved
        exact ⟨vec origin, vec goal, placed, run, (Except.ok.inj moved).symm⟩
  have result : placements = doc.objects.foldl
      (fun out o => Record.assign out o.id (placedOf o)) ∅ :=
    Except.ok.inj (run.symm.trans (Outcome.foldlM_of_ok all))
  obtain ⟨_, _, placed, made, given⟩ := travels o member rfl
  obtain ⟨last, listed, same, shown, valued, found⟩ := Record.exists_lookup_foldl_assign
    BoardObject.id placedOf member (by simp [given])
  obtain ⟨_, _, other, moved, equal⟩ := travels last listed same
  cases valued.symm.trans equal
  refine ⟨(of_travel made).1, ?_⟩
  rw [← same]
  exact (of_travel moved).2 (whole o.id shown (result ▸ found))

/-- A document plays exactly when it is steady: an object that is not drawn finite shows which
part is not. -/
theorem plays_iff_steady : Plays doc ↔ Steady doc := by
  constructor
  · rintro ⟨line, laid, whole, frames, stills⟩
    obtain ⟨rests, travels, -⟩ := lasts_of_lay laid whole.stops
    have long : ∀ k s, doc.steps[k]? = some s → 0 < k → Lasts s.duration :=
      fun k s step later => travels k s step (by omega)
    refine ⟨rests, long, fun o member s step p here => ?_, ?_⟩
    · obtain ⟨k, step⟩ := List.mem_iff_getElem?.mp step
      exact isPoint_of_still stills member step here
    · rintro k s step o member ⟨j, r, before, rested, stood⟩
      obtain ⟨stops, timed⟩ := exists_timed (i := 0) rests travels
      cases laid.symm.trans (timeline_of_timed timed)
      have bound : k < stops.length := by
        rw [length_of_timed timed]
        exact (List.getElem?_eq_some_iff.mp step).1
      obtain ⟨leg, listed, kind, same⟩ := Itinerary.exists_travel (t := (0 : ℚ)) (i := 0)
        (by omega) bound
      rw [Nat.zero_add] at same
      have inside := Itinerary.within_of_mem (by norm_num) listed
      have clamped : clampTime (ofStops stops) (finite leg.start) = finite leg.start := by
        rw [clampTime, ofStops, finite_min, finite_max,
          min_eq_right (inside.forward.trans inside.ends), max_eq_right inside.begins]
      obtain ⟨frame, drawn, finite⟩ := frames (finite leg.start)
      rw [frameAt_travels clamped
        (Itinerary.lastStarted_of_travels (by norm_num) (by norm_num) listed kind) kind, same,
        movingFrame, step] at drawn
      obtain ⟨placements, placed, made⟩ := Outcome.bind_ok_iff.mp drawn
      cases made
      exact of_placeMoving step placed finite member (latest_ne_none before rested stood)
  · intro steady
    obtain ⟨stops, timed⟩ := exists_timed (i := 0) steady.rests
      (fun k s step later => steady.travels k s step (by omega))
    refine ⟨_, timeline_of_timed timed, ⟨?_, ?_, ?_⟩, frameAt_finite steady timed,
      fun i => still_finite i steady.stands⟩
    · intro seg member
      obtain ⟨leg, -, rfl⟩ := List.mem_map.mp member
      rfl
    · intro seg member
      obtain ⟨leg, -, rfl⟩ := List.mem_map.mp member
      rfl
    · intro start member
      obtain ⟨a, -, rfl⟩ := List.mem_map.mp member
      rfl

/-! ## What `normalizeDoc` would have to ask -/

/-- The steps a stored board is played from: those that are kept, else one that says
nothing. -/
def storedSteps (raw : Json) : List Members :=
  let kept := keptSteps ((sourceOf raw).getD [])
  if kept = [] then [[]] else kept

/-- The objects of a stored board. -/
def storedObjects (raw : Json) : List BoardObject := readObjects ((sourceOf raw).getD [])

/-- The positions a stored step tells. -/
def storedPos (s : Members) : Members := membersOf (member s "pos")

/-- What playing asks of a stored board. A step's times, if it has any, are waited for; its
positions of the objects are points; and where it moves an object that stood somewhere
before, `includes` can be asked of its `air` and the handle of its bend is made of numbers. -/
structure Sound (raw : Json) : Prop where
  rests : ∀ s ∈ storedSteps raw, ∀ v, member s "hold" = some v → Lasts (some v)
  travels : ∀ k s, (storedSteps raw)[k]? = some s → 0 < k →
    ∀ v, member s "duration" = some v → Lasts (some v)
  stands : ∀ o ∈ storedObjects raw, ∀ s ∈ storedSteps raw, ∀ p,
    standing (storedPos s) o.id = some p → IsPoint p
  moves : ∀ (k : ℕ) (s : Members), (storedSteps raw)[k]? = some s → ∀ o ∈ storedObjects raw,
    (∃ (j : ℕ) (r : Members), j < k ∧ (storedSteps raw)[j]? = some r ∧
      standing (storedPos r) o.id ≠ none) →
    Searchable (member s "air") ∧ ∀ b, bendOf (member s "bend") o.id = some b → Bends b

section Stored

omit [Implementation]

/-- The objects that are read are those stored. -/
theorem objects_normalizeDoc (newId : ℕ → String) (raw : Json) :
    (normalizeDoc newId raw).objects = storedObjects raw := by
  rw [normalizeDoc, storedObjects]
  cases sourceOf raw with
  | none => rfl
  | some src => rfl

/-- The steps that are read are those stored, each read by itself. -/
theorem steps_normalizeDoc (newId : ℕ → String) (raw : Json) : ∃ drawn : ℕ → String,
    (normalizeDoc newId raw).steps =
      (storedSteps raw).mapIdx fun i s => readStep (drawn i) s := by
  rw [normalizeDoc, storedSteps]
  cases sourceOf raw with
  | none => exact ⟨newId, rfl⟩
  | some src =>
      by_cases none : keptSteps src = []
      · refine ⟨newId, ?_⟩
        simp only [Option.getD_some, none, List.mapIdx_nil, if_true]
        rfl
      · refine ⟨fun i => newId (i + 1), ?_⟩
        simp only [Option.getD_some, none, List.mapIdx_eq_nil_iff, if_false]

variable {drawn : String} {s : Members}

theorem hold_readStep : (readStep drawn s).hold =
    (member s "hold").or (some (.num ⟨false, 6, -1⟩)) := member_spread

theorem duration_readStep : (readStep drawn s).duration =
    (member s "duration").or (some (.num ⟨false, 16, -1⟩)) := member_spread

theorem air_readStep : (readStep drawn s).air = member s "air" :=
  member_spread.trans Option.or_none

theorem bend_readStep : (readStep drawn s).bend = member s "bend" :=
  member_spread.trans Option.or_none

end Stored

/-- A default can be waited for, so only what is said counts. -/
theorem lasts_or {v : Option Json} {n : JsonNumber} :
    Lasts (v.or (some (.num n))) ↔ ∀ w, v = some w → Lasts (some w) := by
  cases v with
  | none =>
      constructor
      · intro _ w said
        cases said
      · exact fun _ => ⟨finite n.value, rfl, by simp, by simp⟩
  | some w => simp

/-- What is read is steady exactly when what is stored is sound. -/
theorem steady_iff_sound (newId : ℕ → String) (raw : Json) :
    Steady (normalizeDoc newId raw) ↔ Sound raw := by
  obtain ⟨drawn, steps⟩ := steps_normalizeDoc newId raw
  have objects := objects_normalizeDoc newId raw
  have step_iff : ∀ k s, (normalizeDoc newId raw).steps[k]? = some s ↔
      ∃ m, (storedSteps raw)[k]? = some m ∧ readStep (drawn k) m = s := by
    intro k s
    rw [steps, List.getElem?_mapIdx, Option.map_eq_some_iff]
  constructor
  · intro steady
    have opened : ∀ {k m}, (storedSteps raw)[k]? = some m →
        (normalizeDoc newId raw).steps[k]? = some (readStep (drawn k) m) :=
      fun found => (step_iff _ _).mpr ⟨_, found, rfl⟩
    refine ⟨fun m member => ?_, fun k m found later => ?_, fun o listed m member => ?_,
      fun k m found o listed => ?_⟩
    · obtain ⟨k, found⟩ := List.mem_iff_getElem?.mp member
      rw [← lasts_or, ← hold_readStep]
      exact steady.rests _ (List.mem_of_getElem? (opened found))
    · rw [← lasts_or, ← duration_readStep]
      exact steady.travels k _ (opened found) later
    · obtain ⟨k, found⟩ := List.mem_iff_getElem?.mp member
      exact steady.stands o (objects ▸ listed) _ (List.mem_of_getElem? (opened found))
    · rintro ⟨j, r, before, rested, stood⟩
      have moved := steady.moves k _ (opened found) o (objects ▸ listed)
        ⟨j, _, before, opened rested, stood⟩
      rwa [air_readStep, bend_readStep] at moved
  · intro sound
    refine ⟨fun s member => ?_, fun k s found later => ?_, fun o listed s member => ?_,
      fun k s found o listed => ?_⟩
    · obtain ⟨k, found⟩ := List.mem_iff_getElem?.mp member
      obtain ⟨m, kept, rfl⟩ := (step_iff k s).mp found
      rw [hold_readStep, lasts_or]
      exact sound.rests m (List.mem_of_getElem? kept)
    · obtain ⟨m, kept, rfl⟩ := (step_iff k s).mp found
      rw [duration_readStep, lasts_or]
      exact sound.travels k m kept later
    · obtain ⟨k, found⟩ := List.mem_iff_getElem?.mp member
      obtain ⟨m, kept, rfl⟩ := (step_iff k s).mp found
      exact sound.stands o (objects ▸ listed) m (List.mem_of_getElem? kept)
    · obtain ⟨m, kept, rfl⟩ := (step_iff k s).mp found
      rintro ⟨j, r, before, rested, stood⟩
      obtain ⟨r, earlier, rfl⟩ := (step_iff j r).mp rested
      rw [air_readStep, bend_readStep]
      exact sound.moves k m kept o (objects ▸ listed) ⟨j, r, before, earlier, stood⟩

/-- A stored board can be played exactly when every part that playback reads is sound. -/
theorem plays_iff_sound (newId : ℕ → String) (raw : Json) :
    Plays (normalizeDoc newId raw) ↔ Sound raw :=
  plays_iff_steady.trans (steady_iff_sound newId raw)

end Documents

/-- A board with a step whose hold was written as a text with its unit. -/
def unitBoard : Json :=
  .obj [("steps", .arr [.obj [("id", .str "s0"), ("hold", .str "2s")]])]

/-- Its timeline ends at no number. -/
theorem unitBoard_not_plays : ∃ raw, ∀ (_ : Implementation) (newId : ℕ → String),
    ¬ Plays (normalizeDoc newId raw) := by
  refine ⟨unitBoard, fun _ newId => ?_⟩
  rintro ⟨line, laid, whole, -, -⟩
  have hold : stringToNumber "2s" = nan := by decide
  have reads : timeline (normalizeDoc newId unitBoard) =
      .ok ⟨[⟨.hold, 0, finite 0, finite 0 + (finite 0).max (stringToNumber "2s")⟩],
        finite 0 + (finite 0).max (stringToNumber "2s"), [finite 0]⟩ := rfl
  rw [hold] at reads
  cases reads.symm.trans laid
  exact Bool.noConfusion (whole.stops _ (List.mem_singleton_self _))

end ScoutPulse.Tactics.Opened
