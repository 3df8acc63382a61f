import ScoutPulse.Tactics.Playable

/-!
# Playback meets the steps

On a document whose times are numbers the timeline is a tour through the steps. The step
that `stepAtTime` reports is then the one whose frame is drawn, and on a document whose
positions are numbers too, every move leads from the still of one step to the still of the
next.
-/

namespace ScoutPulse.Tactics.Opened

open Js Js.Number

/-- Every duration and every hold is a number. -/
def NumericTimes (doc : TacticDoc) : Prop :=
  ∀ s ∈ doc.steps, (∃ d, s.duration = some (.num d)) ∧ ∃ h, s.hold = some (.num h)

/-- A document as its types say. -/
structure WellFormed (doc : TacticDoc) : Prop where
  times : NumericTimes doc
  positions : ∀ o ∈ doc.objects, ∀ s ∈ doc.steps, ∀ p,
    standing s.pos o.id = some p → IsPoint p
  bends : ∀ o ∈ doc.objects, ∀ s ∈ doc.steps, ∀ b, bendOf s.bend o.id = some b → IsPoint b
  air : ∀ s ∈ doc.steps, Searchable s.air

section Times

variable [Implementation] {doc : TacticDoc} {stops : List Stop}

theorem lasts_num (n : JsonNumber) : Lasts (some (.num n)) :=
  ⟨finite n.value, rfl, by simp, by simp⟩

/-- Where all times are numbers, there are stops for them. -/
theorem NumericTimes.exists_timed (numeric : NumericTimes doc) :
    ∃ stops, Timed 0 doc.steps stops := by
  refine Opened.exists_timed (fun s member => ?_) (fun k s found _ => ?_)
  · obtain ⟨-, h, said⟩ := numeric s member
    exact said ▸ lasts_num h
  · obtain ⟨⟨d, said⟩, -⟩ := numeric s (List.mem_of_getElem? found)
    exact said ▸ lasts_num d

/-- A point is a handle as well. -/
theorem IsPoint.bends {p : Held} (point : IsPoint p) : Bends p := by
  obtain ⟨⟨x, left⟩, ⟨y, right⟩⟩ := point
  exact ⟨⟨x.value, left ▸ rfl⟩, ⟨y.value, right ▸ rfl⟩⟩

/-- A well-formed document is steady. -/
theorem WellFormed.steady (well : WellFormed doc) : Steady doc where
  rests s member := by
    obtain ⟨-, h, said⟩ := well.times s member
    exact said ▸ lasts_num h
  travels k s found _ := by
    obtain ⟨⟨d, said⟩, -⟩ := well.times s (List.mem_of_getElem? found)
    exact said ▸ lasts_num d
  stands := well.positions
  moves k s found o member _ :=
    ⟨well.air s (List.mem_of_getElem? found), fun b bent =>
      (well.bends o member s (List.mem_of_getElem? found) b bent).bends⟩

/-! ## The step that is reported -/

/-- The time a frame is drawn at. -/
def clampAt (stops : List Stop) (t : ℚ) : ℚ :=
  Max.max 0 (Min.min (Itinerary.finish 0 0 stops) t)

omit [Implementation] in
theorem clampTime_finite (stops : List Stop) (t : ℚ) :
    clampTime (ofStops stops) (finite t) = finite (clampAt stops t) := by
  rw [clampTime, ofStops, finite_min, finite_max, clampAt]

/-- A frame drawn within a leg is of the step the leg comes from. -/
theorem step_of_frameAt {t : ℚ} {leg : Leg} {frame : Frame}
    (found : Itinerary.lastStarted (clampAt stops t + nearSegment) (Itinerary.legs 0 0 stops) =
      some leg)
    (drawn : frameAt doc (ofStops stops) (finite t) = .ok frame) : frame.step = leg.from := by
  cases kind : leg.travels with
  | false =>
      rw [frameAt_rests (clampTime_finite stops t) found kind] at drawn
      cases drawn
      rw [Itinerary.Leg.from, kind]
      rfl
  | true =>
      rw [frameAt_travels (clampTime_finite stops t) found kind, movingFrame] at drawn
      cases step : doc.steps[leg.stop]? with
      | none => rw [step] at drawn; cases drawn
      | some target =>
          rw [step] at drawn
          obtain ⟨placements, -, made⟩ := Outcome.bind_ok_iff.mp drawn
          cases made
          rw [Itinerary.Leg.from, kind]
          rfl

omit [Implementation] in
/-- The first stop is reached at the start, and each other one later. -/
theorem arrivals_split {p : Stop} {a : ℚ}
    (member : a ∈ Itinerary.arrivals 0 0 (p :: stops)) :
    a = 0 ∨ leastTravel ≤ a ∧ a ∈ Itinerary.arrivals (Itinerary.departure 0 0 p) 1 stops := by
  rcases List.mem_cons.mp member with first | later
  · exact .inl first
  · refine .inr ⟨?_, later⟩
    have free : (0 : ℚ) ≤ Itinerary.departure 0 0 p := Itinerary.le_departure (by norm_num)
    have reached := Itinerary.add_least_le_of_mem_arrivals (by norm_num) Nat.one_pos later
    linarith

omit [Implementation] in
/-- Outside the timeline the step reported is the one at its nearer end. -/
theorem lastReached_clampAt (t : ℚ) :
    Itinerary.lastReached (clampAt stops t + nearStep) 0 0 (Itinerary.arrivals 0 0 stops) =
      Itinerary.lastReached (t + nearStep) 0 0 (Itinerary.arrivals 0 0 stops) := by
  cases stops with
  | nil => rfl
  | cons p stops =>
      have total : 0 ≤ Itinerary.finish 0 0 (p :: stops) := Itinerary.le_finish (by norm_num)
      rcases lt_or_ge t 0 with early | begun
      · -- before the start only the first stop can count
        have start : clampAt (p :: stops) t = 0 := by
          rw [clampAt, min_eq_right (early.le.trans total), max_eq_left early.le]
        have first : ∀ y ≤ nearStep, Itinerary.lastReached y 0 0
            (Itinerary.arrivals 0 0 (p :: stops)) = 0 := by
          intro y low
          rw [Itinerary.arrivals, Itinerary.lastReached, ite_self]
          refine Itinerary.lastReached_of_lt fun a member => ?_
          have reached := Itinerary.add_least_le_of_mem_arrivals (by norm_num) Nat.one_pos member
          have free : (0 : ℚ) ≤ Itinerary.departure 0 0 p := Itinerary.le_departure (by norm_num)
          have apart : nearStep < leastTravel := by norm_num
          linarith
        rw [first _ (by rw [start, zero_add]), first _ (by linarith)]
      · rcases le_or_gt t (Itinerary.finish 0 0 (p :: stops)) with inside | late
        · rw [clampAt, min_eq_right inside, max_eq_right begun]
        · rw [clampAt, min_eq_left late.le, max_eq_right total]
          refine Itinerary.lastReached_congr fun a member => ?_
          have ended := Itinerary.le_finish_of_mem_arrivals (by norm_num) member
          have near : (0 : ℚ) ≤ nearStep := by norm_num
          exact ⟨fun _ => by linarith, fun _ => by linarith⟩

omit [Implementation] in
/-- Nor does clamping bring a time just short of an arrival. -/
theorem clear_clampAt {t : ℚ}
    (clear : ∀ a ∈ Itinerary.arrivals 0 0 stops, ¬ Itinerary.ShortOf nearStep t a) :
    ∀ a ∈ Itinerary.arrivals 0 0 stops,
      ¬ Itinerary.ShortOf nearStep (clampAt stops t) a := by
  rintro a member ⟨close, before⟩
  have ended := Itinerary.le_finish_of_mem_arrivals (by norm_num) member
  rcases lt_or_ge t 0 with early | begun
  · have total : (0 : ℚ) ≤ Itinerary.finish 0 0 stops := Itinerary.le_finish (by norm_num)
    rw [clampAt, min_eq_right (early.le.trans total), max_eq_left early.le] at close before
    cases stops with
    | nil => cases member
    | cons p stops =>
        rcases arrivals_split member with rfl | ⟨late, -⟩
        · exact lt_irrefl _ before
        · have apart : nearStep < leastTravel := by norm_num
          linarith
  · rcases le_or_gt t (Itinerary.finish 0 0 stops) with inside | late
    · rw [clampAt, min_eq_right inside, max_eq_right begun] at close before
      exact clear a member ⟨close, before⟩
    · have total : (0 : ℚ) ≤ Itinerary.finish 0 0 stops := Itinerary.le_finish (by norm_num)
      rw [clampAt, min_eq_left late.le, max_eq_right total] at before
      exact absurd ended (not_le.mpr before)

/-- The step whose frame is drawn is the step reported. -/
theorem step_eq_stepAtTime (timed : Timed 0 doc.steps stops) {t : ℚ}
    (clear : ∀ a ∈ Itinerary.arrivals 0 0 stops, ¬ Itinerary.ShortOf nearStep t a)
    {frame : Frame} (drawn : frameAt doc (ofStops stops) (finite t) = .ok frame) :
    frame.step = stepAtTime (ofStops stops) (finite t) := by
  rw [stepAtTime_ofStops, ← lastReached_clampAt]
  cases stops with
  | nil =>
      rw [frameAt, clampTime_finite, started_ofStops] at drawn
      cases drawn
      rfl
  | cons p stops =>
      have agree : (Itinerary.lastStarted (clampAt (p :: stops) t + nearSegment)
          (Itinerary.legs 0 0 (p :: stops))).map Itinerary.Leg.from =
          some (Itinerary.lastReached (clampAt (p :: stops) t + nearStep) 0 0
            (Itinerary.arrivals 0 0 (p :: stops))) :=
        Itinerary.lastStarted_from_eq (by norm_num) (by norm_num) (by norm_num)
          (List.cons_ne_nil p stops) (le_max_left 0 _) (clear_clampAt clear)
      obtain ⟨leg, found, same⟩ := Option.map_eq_some_iff.mp agree
      exact (step_of_frameAt found drawn).trans same

/-- The step reported agrees with the frame drawn, at every time that is not within the
tolerance of `stepAtTime` below the start of a step. -/
theorem frameAt_step_eq_stepAtTime (numeric : NumericTimes doc) :
    ∃ line, timeline doc = .ok line ∧ ∀ t : ℚ,
      (∀ a, finite a ∈ line.stepStarts → ¬ Itinerary.ShortOf nearStep t a) →
      (∀ frame, frameAt doc line (finite t) = .ok frame →
        frame.step = stepAtTime line (finite t)) ∧
      (WellFormed doc → ∃ frame, frameAt doc line (finite t) = .ok frame) := by
  obtain ⟨stops, timed⟩ := numeric.exists_timed
  refine ⟨_, timeline_of_timed timed, fun t clear => ⟨fun frame => ?_, fun well => ?_⟩⟩
  · exact step_eq_stepAtTime timed fun a member => clear a (List.mem_map_of_mem member)
  · obtain ⟨frame, drawn, -⟩ := frameAt_finite well.steady timed (finite t)
    exact ⟨frame, drawn⟩

end Times

/-! ## What a move shows at its ends -/

section Moves

variable [Implementation] {doc : TacticDoc} {stops : List Stop} {o : BoardObject} {k : ℕ}
  {target : Step}

/-- Every object of a still is placed where the still has it. -/
def Shows (placements stillness : Record Placement) : Prop :=
  ∀ id placed, stillness.lookup id = some placed → ∃ drawn, placements.lookup id = some drawn ∧
    drawn.x = placed.x ∧ drawn.y = placed.y ∧ drawn.h = placed.h

omit [Implementation] in
theorem shows_rfl (placements : Record Placement) : Shows placements placements :=
  fun _ placed found => ⟨placed, found, rfl, rfl, rfl⟩

/-- `Math.hypot` is a length. -/
def LengthsNonneg : Prop := ∀ x y, 0 ≤ Implementation.hypot x y

/-- What the objects of a move come to, one by one. -/
theorem exists_placeMoving (steady : Steady doc) (step : doc.steps[k]? = some target)
    (later : 0 < k) (p : ℚ) : ∃ placedOf : BoardObject → Option Placement,
      (∀ o ∈ doc.objects, moving doc k target (finite p) o = .ok (placedOf o)) ∧
      placeMoving doc k target (finite p) = .ok (doc.objects.foldl
        (fun out o => Record.assign out o.id (placedOf o)) ∅) := by
  refine ⟨fun o => (moving doc k target (finite p) o).toOption.join, ?_, ?_⟩
  · intro o member
    obtain ⟨placed, made, -⟩ := moving_finite (p := p) steady step later member
    simp [made, Except.toOption]
  · refine Outcome.foldlM_of_ok fun o member => ?_
    obtain ⟨placed, made, -⟩ := moving_finite (p := p) steady step later member
    simp [made, Except.toOption]

omit [Implementation] in
/-- If every object of a still is placed as in it, the placements show the still. -/
theorem shows_still {i : ℤ} {placedOf : BoardObject → Option Placement}
    (each : ∀ o ∈ doc.objects, ∀ p, positionAt doc i o.id = some p → ∃ drawn,
      placedOf o = some drawn ∧ drawn.x = (vec p).x ∧ drawn.y = (vec p).y ∧
        drawn.h = finite 0) :
    Shows (doc.objects.foldl (fun out o => Record.assign out o.id (placedOf o)) ∅)
      (still doc i) := by
  intro id placed found
  obtain ⟨o, member, rfl, made⟩ := Record.exists_of_lookup_foldl_assign found
  obtain ⟨p, here, rfl⟩ := Option.map_eq_some_iff.mp made
  obtain ⟨first, shown, -⟩ := each o member p here
  obtain ⟨last, listed, same, value, given, drawn⟩ := Record.exists_lookup_foldl_assign
    BoardObject.id placedOf member (by simp [shown])
  obtain ⟨other, shown', x, y, h⟩ := each last listed p (same ▸ here)
  cases given.symm.trans shown'
  exact ⟨value, drawn, x, y, h⟩

theorem easedAt_zero (begins : easeAt 0 = 0) : easedAt o 0 = 0 := by
  unfold easedAt
  split
  · norm_num
  · exact begins

theorem easedAt_one (ends : easeAt 1 = 1) : easedAt o 1 = 1 := by
  unfold easedAt
  split
  · norm_num
  · exact ends

/-- A move begins at the still of the step it leaves. -/
theorem placeMoving_zero (steady : Steady doc) (begins : easeAt 0 = 0)
    (step : doc.steps[k + 1]? = some target) :
    ∃ placements, placeMoving doc (k + 1) target (finite 0) = .ok placements ∧
      Shows placements (still doc k) := by
  obtain ⟨placedOf, all, made⟩ := exists_placeMoving steady step (Nat.succ_pos k) 0
  refine ⟨_, made, shows_still fun o member p here => ?_⟩
  have within : k + 1 < doc.steps.length := (List.getElem?_eq_some_iff.mp step).1
  rw [positionAt_natCast (Nat.lt_of_succ_lt within)] at here
  obtain ⟨goal, a, b, lofted, handle, heading, -, exactly, -, moved⟩ :=
    moving_travels (p := 0) steady step member here
  refine ⟨_, Except.ok.inj ((all o member).symm.trans moved), ?_, ?_, ?_⟩
  · rw [easedAt_zero begins, wayAt_zero, exactly]
  · rw [easedAt_zero begins, wayAt_zero, exactly]
  · simp [heightAt]

/-- And ends at the still of the step it enters. -/
theorem placeMoving_one (steady : Steady doc) (ends : easeAt 1 = 1)
    (step : doc.steps[k + 1]? = some target) :
    ∃ placements, placeMoving doc (k + 1) target (finite 1) = .ok placements ∧
      Shows placements (still doc (k + 1)) := by
  obtain ⟨placedOf, all, made⟩ := exists_placeMoving steady step (Nat.succ_pos k) 1
  refine ⟨_, made, shows_still fun o member p here => ?_⟩
  cases leaves : latest doc.steps o.id (k + 1) with
  | none =>
      have moved := moving_appears (t := finite 1) step (Nat.succ_pos k) leaves
      rw [show positionAt doc (k + 1 : ℕ) o.id = some p from here] at moved
      exact ⟨_, Except.ok.inj ((all o member).symm.trans moved), rfl, rfl, rfl⟩
  | some origin =>
      obtain ⟨goal, a, b, lofted, handle, heading, arrives, -, exactly, moved⟩ :=
        moving_travels (p := 1) steady step member leaves
      cases arrives.symm.trans here
      refine ⟨_, Except.ok.inj ((all o member).symm.trans moved), ?_, ?_, ?_⟩
      · rw [easedAt_one ends, wayAt_one, exactly]
      · rw [easedAt_one ends, wayAt_one, exactly]
      · simp [heightAt]

/-- Within a move an object in the air is at most fourteen metres high. -/
theorem heightAt_bounds (lengths : LengthsNonneg) {lofted : Bool} {a b : ℚ × ℚ} {p : ℚ}
    (begun : 0 ≤ p) (ended : p ≤ 1) :
    0 ≤ heightAt lofted a b p ∧ heightAt lofted a b p ≤ 14 := by
  unfold heightAt
  split
  · have low : 0 ≤ Min.min 14 (distAt a b * (22 / 100)) :=
      le_min (by norm_num) (mul_nonneg (lengths _ _) (by norm_num))
    have high : Min.min 14 (distAt a b * (22 / 100)) ≤ 14 := min_le_left _ _
    have share : 0 ≤ p * (1 - p) := mul_nonneg begun (sub_nonneg.mpr ended)
    have quarter : 4 * (p * (1 - p)) ≤ 1 := by nlinarith [sq_nonneg (2 * p - 1)]
    constructor
    · nlinarith
    · nlinarith
  · norm_num

/-- `Placement` with a height that a ball can have. -/
def LowEnough (placed : Placement) : Prop := ∃ h, placed.h = finite h ∧ 0 ≤ h ∧ h ≤ 14

omit [Implementation] in
theorem still_lowEnough (i : ℤ) {id : String} {placed : Placement}
    (found : (still doc i).lookup id = some placed) : LowEnough placed := by
  obtain ⟨o, -, -, made⟩ := Record.exists_of_lookup_foldl_assign found
  obtain ⟨p, -, rfl⟩ := Option.map_eq_some_iff.mp made
  exact ⟨0, rfl, le_rfl, by norm_num⟩

/-- What moves is low enough, from one end of its way to the other. -/
theorem placeMoving_lowEnough (steady : Steady doc) (lengths : LengthsNonneg)
    (step : doc.steps[k]? = some target) (later : 0 < k) {p : ℚ} (begun : 0 ≤ p)
    (ended : p ≤ 1) : ∃ placements, placeMoving doc k target (finite p) = .ok placements ∧
      ∀ id placed, placements.lookup id = some placed → LowEnough placed := by
  obtain ⟨placedOf, all, made⟩ := exists_placeMoving steady step later p
  refine ⟨_, made, fun id placed found => ?_⟩
  obtain ⟨o, member, -, given⟩ := Record.exists_of_lookup_foldl_assign found
  have moved := (all o member).trans (congrArg Except.ok given)
  cases leaves : latest doc.steps o.id k with
  | none =>
      rw [moving_appears step later leaves, Except.ok.injEq] at moved
      obtain ⟨goal, -, rfl⟩ := Option.map_eq_some_iff.mp moved
      exact ⟨0, rfl, le_rfl, by norm_num⟩
  | some origin =>
      obtain ⟨goal, a, b, lofted, handle, heading, -, -, -, travels⟩ :=
        moving_travels (p := p) steady step member leaves
      cases travels.symm.trans moved
      exact ⟨_, rfl, heightAt_bounds lengths begun ended⟩

end Moves

/-! ## Playing from step to step -/

section Playing

variable [Implementation] {doc : TacticDoc} {stops : List Stop}

/-- A time that is not within the tolerance of `frameAt` below the start of a segment. -/
def Clear (line : Timeline) (x : ℚ) : Prop :=
  ∀ seg ∈ line.segments, ∀ a, seg.start = finite a → ¬ Itinerary.ShortOf nearSegment x a

/-- What playing a timeline comes to. -/
structure Meets (doc : TacticDoc) (line : Timeline) : Prop where
  /-- The segments are contiguous. -/
  chain : line.segments.IsChain fun a b => a.stop = b.start
  begins : ∀ seg, line.segments.head? = some seg → seg.start = finite 0
  ends : ∀ seg, line.segments.getLast? = some seg → seg.stop = line.total
  /-- And cover the timeline. -/
  covers : doc.steps ≠ [] → ∀ x : ℚ, 0 ≤ x → (finite x).le line.total = true →
    ∃ seg ∈ line.segments, seg.start.le (finite x) = true ∧ (finite x).le seg.stop = true
  increasing : line.stepStarts.Pairwise fun a b => a.lt b = true
  divisor : ∀ seg ∈ line.segments, seg.kind = .move → seg.stop - seg.start ≠ finite 0
  /-- At the start of a step its still is shown. -/
  stills : ∀ (k : ℕ) (a : ℚ), line.stepStarts[k]? = some (finite a) → Clear line a →
    ∃ frame, frameAt doc line (finite a) = .ok frame ∧ Shows frame.placements (still doc k)
  /-- A move leads from the still of one step. -/
  leaves : ∀ (k : ℕ) (target : Step), doc.steps[k + 1]? = some target →
    ∃ placements, placeMoving doc (k + 1) target (finite 0) = .ok placements ∧
      Shows placements (still doc k)
  /-- To the still of the next. -/
  enters : ∀ (k : ℕ) (target : Step), doc.steps[k + 1]? = some target →
    ∃ placements, placeMoving doc (k + 1) target (finite 1) = .ok placements ∧
      Shows placements (still doc (k + 1))
  /-- What is in the air stays low enough, as long as the time drawn is clear. -/
  heights : ∀ time x, clampTime line time = finite x → Clear line x →
    ∃ frame, frameAt doc line time = .ok frame ∧
      ∀ id placed, frame.placements.lookup id = some placed → LowEnough placed

omit [Implementation] in
/-- A leg that has started clearly has started. -/
theorem le_of_clear {x : ℚ} {leg : Leg} (clear : Clear (ofStops stops) x)
    (found : Itinerary.lastStarted (x + nearSegment) (Itinerary.legs 0 0 stops) = some leg) :
    leg.start ≤ x := by
  obtain ⟨before, after, split, started, -⟩ := Itinerary.exists_split_of_lastStarted found
  have listed : ofLeg leg ∈ (ofStops stops).segments :=
    List.mem_map_of_mem (Itinerary.mem_of_lastStarted found)
  by_contra late
  exact clear _ listed leg.start rfl ⟨by linarith, not_le.mp late⟩

/-- The frame at the start of a step shows its still: it is held, or a move that leaves it
begins. -/
theorem frameAt_shows (steady : Steady doc) (timed : Timed 0 doc.steps stops)
    (begins : easeAt 0 = 0) {k : ℕ} {a : ℚ}
    (reached : (Itinerary.arrivals 0 0 stops)[k]? = some a) (clear : Clear (ofStops stops) a) :
    ∃ frame, frameAt doc (ofStops stops) (finite a) = .ok frame ∧
      Shows frame.placements (still doc k) := by
  have positive : (0 : ℚ) < leastTravel := by norm_num
  obtain ⟨rest, listed, rests, at_, start⟩ := Itinerary.exists_rest reached
  rw [Nat.zero_add] at at_
  have inside := Itinerary.within_of_mem positive.le listed
  have clamped : clampAt stops a = a := by
    rw [clampAt, min_eq_right (start ▸ inside.forward.trans inside.ends),
      max_eq_right (start ▸ inside.begins)]
  have nonempty : stops ≠ [] := by
    rintro rfl
    cases listed
  have apart : (Itinerary.arrivals 0 0 stops).Pairwise fun a b => a + leastTravel ≤ b :=
    Itinerary.pairwise_arrivals positive.le
  have steps : (Itinerary.lastStarted (a + nearSegment) (Itinerary.legs 0 0 stops)).map
      Itinerary.Leg.from = some k := by
    rw [Itinerary.lastStarted_from_eq (by norm_num) (show nearSegment ≤ nearStep by norm_num)
        (by norm_num) nonempty (start ▸ inside.begins),
      Itinerary.lastReached_of_getElem? apart (by norm_num) (by norm_num) reached, Nat.zero_add]
    -- arrivals are further apart than the tolerance
    rintro b member ⟨close, before⟩
    obtain ⟨j, found⟩ := List.mem_iff_getElem?.mp member
    rcases Nat.lt_or_ge k j with later | earlier
    · have far := Itinerary.arrivals_apart positive.le later reached found
      have narrow : nearStep < leastTravel := by norm_num
      linarith
    · rcases Nat.eq_or_lt_of_le earlier with rfl | earlier
      · cases reached.symm.trans found
        exact lt_irrefl _ before
      · have far := Itinerary.arrivals_apart positive.le earlier found reached
        linarith
  obtain ⟨leg, found, same⟩ := Option.map_eq_some_iff.mp steps
  have clamped' := clampTime_finite stops a
  rw [clamped] at clamped'
  cases kind : leg.travels with
  | false =>
      rw [Itinerary.Leg.from, kind] at same
      refine ⟨_, frameAt_rests clamped' found kind, ?_⟩
      rw [show leg.stop = k from same]
      exact shows_rfl _
  | true =>
      obtain ⟨later, target, step⟩ :=
        exists_step_of_travels timed (Itinerary.mem_of_lastStarted found) kind
      rw [Itinerary.Leg.from, kind] at same
      have next : leg.stop = k + 1 := by
        have : leg.stop - 1 = k := same
        omega
      have begun : leg.start = a := by
        refine le_antisymm (le_of_clear clear found) ?_
        rcases Itinerary.finish_le_of_lastStarted positive.le found listed
          (start ▸ le_add_of_nonneg_right (by norm_num)) with rfl | before
        · rw [kind] at rests
          cases rests
        · exact start ▸ inside.forward.trans before
      rw [next] at step
      obtain ⟨placements, placed, shown⟩ := placeMoving_zero steady begins step
      rw [frameAt_travels clamped' found kind, begun, sub_self, zero_div, next, movingFrame, step]
      change ∃ frame, (placeMoving _ _ _ _ >>= _) = .ok frame ∧ _
      rw [placed]
      exact ⟨_, rfl, shown⟩

/-- Every frame at a clear time has all objects low enough. -/
theorem frameAt_lowEnough (steady : Steady doc) (timed : Timed 0 doc.steps stops)
    (lengths : LengthsNonneg) {time : Number} {x : ℚ}
    (clamped : clampTime (ofStops stops) time = finite x) (clear : Clear (ofStops stops) x) :
    ∃ frame, frameAt doc (ofStops stops) time = .ok frame ∧
      ∀ id placed, frame.placements.lookup id = some placed → LowEnough placed := by
  cases found : Itinerary.lastStarted (x + nearSegment) (Itinerary.legs 0 0 stops) with
  | none =>
      rw [frameAt, clamped, started_ofStops, found]
      exact ⟨_, rfl, fun id placed here => still_lowEnough _ here⟩
  | some leg =>
      cases kind : leg.travels with
      | false =>
          rw [frameAt_rests clamped found kind]
          exact ⟨_, rfl, fun id placed here => still_lowEnough _ here⟩
      | true =>
          have member := Itinerary.mem_of_lastStarted found
          obtain ⟨later, target, step⟩ := exists_step_of_travels timed member kind
          have started := le_of_clear clear found
          have running : x + nearSegment < leg.finish :=
            Itinerary.lt_finish_of_travels (by norm_num) found kind
          have near : (0 : ℚ) < nearSegment := by norm_num
          have long : 0 < leg.finish - leg.start := by linarith
          obtain ⟨placements, placed, low⟩ := placeMoving_lowEnough steady lengths step later
            (p := (x - leg.start) / (leg.finish - leg.start))
            (div_nonneg (sub_nonneg.mpr started) long.le)
            ((div_le_one long).mpr (by linarith))
          rw [frameAt_travels clamped found kind, movingFrame, step]
          change ∃ frame, (placeMoving _ _ _ _ >>= _) = .ok frame ∧ _
          rw [placed]
          exact ⟨_, rfl, low⟩

/-- Playback meets the drawn steps. -/
theorem meets_of_wellFormed (well : WellFormed doc) (begins : easeAt 0 = 0) (ends : easeAt 1 = 1)
    (lengths : LengthsNonneg) : ∃ line, timeline doc = .ok line ∧ Meets doc line := by
  have positive : (0 : ℚ) < leastTravel := by norm_num
  have steady := well.steady
  obtain ⟨stops, timed⟩ := well.times.exists_timed
  refine ⟨_, timeline_of_timed timed, ?_⟩
  exact {
    chain := by
      refine List.isChain_map_of_isChain ofLeg (fun a b same => ?_) Itinerary.isChain_legs
      exact congrArg finite same
    begins := by
      intro seg first
      rw [ofStops, List.head?_map] at first
      obtain ⟨leg, head, rfl⟩ := Option.map_eq_some_iff.mp first
      exact congrArg finite (Itinerary.start_of_head? head)
    ends := by
      intro seg last
      rw [ofStops, List.getLast?_map] at last
      obtain ⟨leg, final, rfl⟩ := Option.map_eq_some_iff.mp last
      exact congrArg finite (Itinerary.finish_of_getLast? final)
    covers := by
      intro nonempty x after before
      have some : stops ≠ [] := by
        rintro rfl
        exact nonempty (List.length_eq_zero_iff.mp (length_of_timed timed).symm)
      rw [ofStops, finite_le, decide_eq_true_eq] at before
      obtain ⟨leg, member, started, open_⟩ := Itinerary.exists_leg some after before
      refine ⟨ofLeg leg, List.mem_map_of_mem member, ?_, ?_⟩
      · exact finite_le.trans (decide_eq_true started)
      · exact finite_le.trans (decide_eq_true open_)
    increasing := by
      refine List.pairwise_map.mpr (List.Pairwise.imp (fun {a b} far => ?_)
        (Itinerary.pairwise_arrivals positive.le))
      exact finite_lt.trans (decide_eq_true (by linarith))
    divisor := by
      intro seg member moves
      obtain ⟨leg, listed, rfl⟩ := List.mem_map.mp member
      have travels : leg.travels = true := by
        by_contra rests
        simp [ofLeg, rests] at moves
      have long := ((Itinerary.within_of_mem positive.le listed).travels travels).2
      change finite leg.finish - finite leg.start ≠ finite 0
      rw [finite_sub, ne_eq, finite.injEq]
      linarith
    stills := by
      intro k a reached clear
      rw [ofStops, List.getElem?_map] at reached
      obtain ⟨b, arrived, same⟩ := Option.map_eq_some_iff.mp reached
      cases same
      exact frameAt_shows steady timed begins arrived clear
    leaves := fun k target step => placeMoving_zero steady begins step
    enters := fun k target step => placeMoving_one steady ends step
    heights := fun time x clamped clear => frameAt_lowEnough steady timed lengths clamped clear }

end Playing

/-! ## A pass in the air -/

/-- A ball that travels ten metres through the air into the second step; the first step is
held for some decimal of a second. -/
def loftedPass (hold : JsonNumber) : TacticDoc where
  pitch := basePitch
  teams := baseTeam
  objects := [⟨"b", "ball", []⟩]
  steps :=
    [⟨"s0", [("b", .arr [.num ⟨false, 0, 0⟩, .num ⟨false, 0, 0⟩])], [],
      [("duration", .num ⟨false, 1, 0⟩), ("hold", .num hold)]⟩,
    ⟨"s1", [("b", .arr [.num ⟨false, 10, 0⟩, .num ⟨false, 0, 0⟩])], [],
      [("duration", .num ⟨false, 1, 0⟩), ("hold", .num ⟨false, 0, 0⟩),
        ("air", .arr [.str "b"])]⟩]

/-- The functions of the language as they are at the arguments of this board. -/
@[reducible] def plainMath : Implementation where
  cos x := if x = 0 then 1 else -1
  hypot x y := |x| + |y|
  atan2 _ _ := finite 0
  numberText _ := "0"

/-- The lofted pass is well formed, for any hold. -/
theorem loftedPass_wellFormed (hold : JsonNumber) : WellFormed (loftedPass hold) where
  times := by
    intro s member
    simp only [loftedPass, List.mem_cons, List.not_mem_nil, or_false] at member
    rcases member with rfl | rfl
    · exact ⟨⟨_, rfl⟩, _, rfl⟩
    · exact ⟨⟨_, rfl⟩, _, rfl⟩
  positions := by
    intro o listed s member p here
    simp only [loftedPass, List.mem_cons, List.not_mem_nil, or_false] at listed member
    subst listed
    rcases member with rfl | rfl
    · cases here
      exact ⟨⟨_, rfl⟩, _, rfl⟩
    · cases here
      exact ⟨⟨_, rfl⟩, _, rfl⟩
  bends := by
    intro o listed s member b bent
    simp only [loftedPass, List.mem_cons, List.not_mem_nil, or_false] at member
    rcases member with rfl | rfl
    · cases bent
    · cases bent
  air := by
    intro s member
    simp only [loftedPass, List.mem_cons, List.not_mem_nil, or_false] at member
    rcases member with rfl | rfl
    · exact trivial
    · exact trivial

theorem easeAt_plainMath : @easeAt plainMath 0 = 0 ∧ @easeAt plainMath 1 = 1 := by
  constructor
  · norm_num [easeAt, Implementation.cos]
  · norm_num [easeAt, Implementation.cos]

theorem lengths_plainMath : @LengthsNonneg plainMath :=
  fun x y => add_nonneg (abs_nonneg x) (abs_nonneg y)

/-- The lofted pass is drawn of the step its leg comes from. -/
theorem frameAt_step_loftedPass :
    let _ := plainMath
    ∃ line, timeline (loftedPass ⟨false, 5, -1⟩) = .ok line ∧ ∀ t : ℚ,
      (∀ a, finite a ∈ line.stepStarts → ¬ Itinerary.ShortOf nearStep t a) →
      (∀ frame, frameAt (loftedPass ⟨false, 5, -1⟩) line (finite t) = .ok frame →
        frame.step = stepAtTime line (finite t)) ∧
      (WellFormed (loftedPass ⟨false, 5, -1⟩) →
        ∃ frame, frameAt (loftedPass ⟨false, 5, -1⟩) line (finite t) = .ok frame) :=
  @frameAt_step_eq_stepAtTime plainMath _ (loftedPass_wellFormed _).times

/-- The lofted pass meets where the two steps do. -/
theorem meets_loftedPass :
    let _ := plainMath
    ∃ line, timeline (loftedPass ⟨false, 5, -1⟩) = .ok line ∧
      Meets (loftedPass ⟨false, 5, -1⟩) line :=
  @meets_of_wellFormed plainMath _ (loftedPass_wellFormed _) easeAt_plainMath.1
    easeAt_plainMath.2 lengths_plainMath

/-- The timeline of the pass after a hold of half a nanosecond. -/
def shortHold : Timeline :=
  ⟨[⟨.hold, 0, finite 0, finite (1 / 2000000000)⟩,
      ⟨.move, 1, finite (1 / 2000000000), finite (2000000001 / 2000000000)⟩,
      ⟨.hold, 1, finite (2000000001 / 2000000000), finite (2000000001 / 2000000000)⟩],
    finite (2000000001 / 2000000000), [finite 0, finite (2000000001 / 2000000000)]⟩

/-- Before the start, a time that is clear itself is drawn at zero, which need not be: the
move is taken for begun, and its ball is below the grass. -/
theorem frameAt_below_grass :
    let _ := plainMath
    ¬ ∀ doc, WellFormed doc → easeAt 0 = 0 → easeAt 1 = 1 → LengthsNonneg →
      ∀ line, timeline doc = .ok line → ∀ t : ℚ, Clear line t →
      ∀ frame, frameAt doc line (finite t) = .ok frame →
      ∀ id placed, frame.placements.lookup id = some placed → LowEnough placed := by
  intro _ claimed
  have laid : (@timeline plainMath (loftedPass ⟨false, 5, -10⟩)).toOption = some shortHold := by
    decide +kernel
  have low : ((@frameAt plainMath (loftedPass ⟨false, 5, -10⟩) shortHold
      (finite (-1))).toOption.bind fun frame => (frame.placements.lookup "b").map (·.h)) =
        some (finite (4 * (11 / 5) * (-1 / 2000000000) * (1 + 1 / 2000000000))) := by
    decide +kernel
  obtain ⟨frame, drawn, found⟩ := Option.bind_eq_some_iff.mp low
  obtain ⟨placed, here, height⟩ := Option.map_eq_some_iff.mp found
  have clear : Clear shortHold (-1) := by
    intro seg member a start
    rintro ⟨close, -⟩
    have late : 0 ≤ a := by
      simp only [shortHold, List.mem_cons, List.not_mem_nil, or_false] at member
      rcases member with rfl | rfl | rfl <;> cases start <;> norm_num
    have narrow : nearSegment < 1 := by norm_num
    linarith
  obtain ⟨h, same, nonneg, -⟩ := claimed _ (loftedPass_wellFormed _) easeAt_plainMath.1
    easeAt_plainMath.2 lengths_plainMath _ (Outcome.toOption_eq_some_iff.mp laid) (-1) clear frame
    (Outcome.toOption_eq_some_iff.mp drawn) "b" placed here
  rw [height, finite.injEq] at same
  rw [← same] at nonneg
  norm_num at nonneg

end ScoutPulse.Tactics.Opened
