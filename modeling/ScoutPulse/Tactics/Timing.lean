import ScoutPulse.Lib.Itinerary
import ScoutPulse.Lib.Outcome
import ScoutPulse.Tactics.Playback

/-!
# When things happen on a board

`Math.max` bounds what the steps of a document say of their times. Where its results are
finite the timeline is the itinerary of a tour through the steps, and the two searches in
it, for the segment that started last and for the step that was reached last, are the
searches in the itinerary.
-/

namespace ScoutPulse.Tactics.Opened

open Js Js.Number

/-- No travel is shorter: the first argument of `Math.max(0.1, step.duration)`. -/
abbrev leastTravel : ℚ := 1 / 10

/-- A stop of the tour. -/
abbrev Stop := Itinerary.Stop leastTravel

abbrev Leg := Itinerary.Leg ℚ

/-- The segment of a leg. -/
def ofLeg (leg : Leg) : Segment :=
  ⟨if leg.travels then .move else .hold, leg.stop, finite leg.start, finite leg.finish⟩

/-- The timeline of a tour. -/
def ofStops (stops : List Stop) : Timeline :=
  ⟨(Itinerary.legs 0 0 stops).map ofLeg, finite (Itinerary.finish 0 0 stops),
    (Itinerary.arrivals 0 0 stops).map finite⟩

section Steps

variable [Implementation]

/-- What a step says of its times comes to a stop. Nobody reads how long it takes to get to
the first. -/
structure Times (i : ℕ) (s : Step) (p : Stop) : Prop where
  travel : 0 < i → ∃ n, toNumber s.duration = .ok n ∧
    (finite leastTravel).max n = finite p.travel
  rest : ∃ n, toNumber s.hold = .ok n ∧ (finite 0).max n = finite p.rest

/-- The steps from a number on come to stops. -/
def Timed : ℕ → List Step → List Stop → Prop
  | _, [], [] => True
  | i, s :: steps, p :: stops => Times i s p ∧ Timed (i + 1) steps stops
  | _, _, _ => False

/-- A value `Math.max` makes a finite time of: a negative infinity is one. -/
def Lasts (v : Option Json) : Prop :=
  ∃ n, toNumber v = .ok n ∧ n ≠ nan ∧ n ≠ infinite false

variable {i : ℕ} {s : Step} {p : Stop} {steps : List Step} {stops : List Stop}
  {line line' : Timeline} {t : ℚ} {doc : TacticDoc}

/-- A way is laid from the end of the line for as long as it takes. -/
theorem layMove_of_times (later : 0 < i) (times : Times i s p) (total : line.total = finite t) :
    layMove line i s = .ok { line with
      segments := line.segments ++ [ofLeg ⟨true, i, t, t + p.travel⟩]
      total := finite (t + p.travel) } := by
  obtain ⟨n, read, bounded⟩ := times.travel later
  rw [layMove, read]
  change Except.ok _ = _
  rw [total, bounded]
  rfl

/-- A hold is laid from the end of the line for as long as it lasts. -/
theorem layHold_of_times (times : Times i s p) (total : line.total = finite t) :
    layHold line i s = .ok ⟨line.segments ++ [ofLeg ⟨false, i, t, t + p.rest⟩],
      finite (t + p.rest), line.stepStarts ++ [finite t]⟩ := by
  obtain ⟨n, read, bounded⟩ := times.rest
  rw [layHold, read]
  change Except.ok _ = _
  rw [total, bounded]
  rfl

theorem lay_cons : lay line i (s :: steps) =
    (if 0 < i then layMove line i s else .ok line) >>= fun reached =>
      layHold reached i s >>= fun held => lay held (i + 1) steps := by
  rw [lay]
  split_ifs <;> rfl

/-- Steps that come to stops are laid out as their itinerary. -/
theorem lay_of_timed (timed : Timed i steps stops) (total : line.total = finite t) :
    lay line i steps = .ok ⟨line.segments ++ (Itinerary.legs t i stops).map ofLeg,
      finite (Itinerary.finish t i stops),
      line.stepStarts ++ (Itinerary.arrivals t i stops).map finite⟩ := by
  induction steps generalizing i stops line t with
  | nil =>
      cases stops with
      | cons p stops => exact timed.elim
      | nil =>
          change Except.ok line = _
          rw [Itinerary.legs, Itinerary.arrivals, Itinerary.finish, ← total]
          simp
  | cons s steps ih =>
      cases stops with
      | nil => exact timed.elim
      | cons p stops =>
          obtain ⟨times, timed⟩ := timed
          rw [lay_cons, Itinerary.legs, Itinerary.arrivals, Itinerary.finish, Itinerary.travelTo]
          by_cases later : 0 < i
          · have reached : Itinerary.arrival t i p = t + p.travel := if_pos later
            rw [if_pos later, layMove_of_times later times total]
            change (layHold _ i s >>= _) = _
            rw [layHold_of_times times rfl]
            change lay _ (i + 1) steps = _
            rw [ih (t := Itinerary.departure t i p) timed
              (by rw [Itinerary.departure, reached]), if_pos later]
            simp [Itinerary.restAt, Itinerary.departure, reached]
          · have reached : Itinerary.arrival t i p = t := if_neg later
            rw [if_neg later]
            change (layHold line i s >>= _) = _
            rw [layHold_of_times times total]
            change lay _ (i + 1) steps = _
            rw [ih (t := Itinerary.departure t i p) timed
              (by rw [Itinerary.departure, reached]), if_neg later]
            simp [Itinerary.restAt, Itinerary.departure, reached]

theorem timeline_of_timed (timed : Timed 0 doc.steps stops) :
    timeline doc = .ok (ofStops stops) := by
  rw [timeline, lay_of_timed timed rfl]
  rfl

theorem length_of_timed (timed : Timed i steps stops) : stops.length = steps.length := by
  induction steps generalizing i stops with
  | nil =>
      cases stops with
      | nil => rfl
      | cons p stops => exact timed.elim
  | cons s steps ih =>
      cases stops with
      | nil => exact timed.elim
      | cons p stops => exact congrArg Nat.succ (ih timed.2)

/-- A step whose times last has a stop. -/
theorem exists_times (travels : 0 < i → Lasts s.duration) (rests : Lasts s.hold) :
    ∃ p, Times i s p := by
  obtain ⟨n, read, keeps⟩ := rests
  obtain ⟨rest, bounded, nonneg⟩ := max_eq_finite (x := 0) keeps
  by_cases later : 0 < i
  · obtain ⟨m, said, survives⟩ := travels later
    obtain ⟨travel, enough, least⟩ := max_eq_finite (x := leastTravel) survives
    exact ⟨⟨travel, rest, least, nonneg⟩, fun _ => ⟨m, said, enough⟩, n, read, bounded⟩
  · exact ⟨⟨leastTravel, rest, le_rfl, nonneg⟩, fun later' => absurd later' later,
      n, read, bounded⟩

/-- Steps whose times last have stops, one for each. -/
theorem exists_timed (rests : ∀ s ∈ steps, Lasts s.hold)
    (travels : ∀ k s, steps[k]? = some s → 0 < i + k → Lasts s.duration) :
    ∃ stops, Timed i steps stops := by
  induction steps generalizing i with
  | nil => exact ⟨[], trivial⟩
  | cons s steps ih =>
      obtain ⟨p, times⟩ := exists_times (fun later => travels 0 s rfl later)
        (rests s List.mem_cons_self)
      obtain ⟨stops, timed⟩ := ih (i := i + 1)
        (fun s member => rests s (List.mem_cons_of_mem _ member))
        (fun k s found _ => travels (k + 1) s found (by omega))
      exact ⟨p :: stops, times, timed⟩

/-! ## What a finite timeline says of the steps -/

/-- A way that is laid with finite ends lasts. -/
theorem lasts_of_layMove (run : layMove line i s = .ok line')
    (bounds : ∀ seg ∈ line'.segments, seg.stop.isFinite = true) :
    Lasts s.duration ∧ line.segments <+: line'.segments := by
  obtain ⟨n, read, laid⟩ := Outcome.bind_ok_iff.mp run
  cases laid
  have last := bounds _ (List.mem_append_right _ (List.mem_singleton_self _))
  rw [isFinite_add, Bool.and_eq_true] at last
  exact ⟨⟨n, read, isFinite_max.mp last.2⟩, List.prefix_append _ _⟩

/-- A hold that is laid with finite ends lasts. -/
theorem lasts_of_layHold (run : layHold line i s = .ok line')
    (bounds : ∀ seg ∈ line'.segments, seg.stop.isFinite = true) :
    Lasts s.hold ∧ line.segments <+: line'.segments := by
  obtain ⟨n, read, laid⟩ := Outcome.bind_ok_iff.mp run
  cases laid
  have last := bounds _ (List.mem_append_right _ (List.mem_singleton_self _))
  rw [isFinite_add, Bool.and_eq_true] at last
  exact ⟨⟨n, read, isFinite_max.mp last.2⟩, List.prefix_append _ _⟩

/-- Segments are only ever added. -/
theorem lasts_of_lay (run : lay line i steps = .ok line')
    (bounds : ∀ seg ∈ line'.segments, seg.stop.isFinite = true) :
    (∀ s ∈ steps, Lasts s.hold) ∧
      (∀ k s, steps[k]? = some s → 0 < i + k → Lasts s.duration) ∧
      line.segments <+: line'.segments := by
  induction steps generalizing i line with
  | nil =>
      cases run
      exact ⟨by simp, by simp, List.prefix_rfl⟩
  | cons s steps ih =>
      rw [lay_cons] at run
      obtain ⟨reached, moved, run⟩ := Outcome.bind_ok_iff.mp run
      obtain ⟨held, paused, run⟩ := Outcome.bind_ok_iff.mp run
      obtain ⟨rests, travels, grown⟩ := ih run
      have within : ∀ seg ∈ held.segments, seg.stop.isFinite = true :=
        fun seg member => bounds seg (grown.subset member)
      obtain ⟨rest, growing⟩ := lasts_of_layHold paused within
      have earlier : ∀ seg ∈ reached.segments, seg.stop.isFinite = true :=
        fun seg member => within seg (growing.subset member)
      have first : (0 < i → Lasts s.duration) ∧ line.segments <+: reached.segments := by
        by_cases later : 0 < i
        · rw [if_pos later] at moved
          obtain ⟨travel, start⟩ := lasts_of_layMove moved earlier
          exact ⟨fun _ => travel, start⟩
        · rw [if_neg later] at moved
          cases moved
          exact ⟨fun later' => absurd later' later, List.prefix_rfl⟩
      refine ⟨?_, ?_, first.2.trans (growing.trans grown)⟩
      · exact List.forall_mem_cons.mpr ⟨rest, rests⟩
      · intro k s' found later
        cases k with
        | zero =>
            cases found
            exact first.1 later
        | succ k => exact travels k s' found (by omega)

end Steps

/-! ## The two searches -/

section Searches

variable {stops : List Stop} {x : ℚ}

/-- The tolerance of `frameAt`. -/
abbrev nearSegment : ℚ := 1 / 10 ^ 9

/-- The tolerance of `stepAtTime`. -/
abbrev nearStep : ℚ := 1 / 10 ^ 6

/-- What has started on the line is the leg that has started last. -/
theorem started_ofStops : started (ofStops stops) (finite x) =
    (Itinerary.lastStarted (x + nearSegment) (Itinerary.legs 0 0 stops)).map ofLeg := by
  have pass : ∀ (all : List Leg) (seg : Option Leg),
      (all.map ofLeg).foldl (fun seg s =>
        if s.start.le (finite x + finite nearSegment) then some s else seg) (seg.map ofLeg) =
      (all.foldl (fun seg leg =>
        if leg.start ≤ x + nearSegment then some leg else seg) seg).map ofLeg := by
    intro all
    induction all with
    | nil => exact fun _ => rfl
    | cons leg all ih =>
        intro seg
        rw [List.map_cons, List.foldl_cons, List.foldl_cons, ← ih]
        congr 1
        by_cases begun : leg.start ≤ x + nearSegment
        · simp only [ofLeg, finite_add, finite_le, begun, decide_true, if_true, Option.map_some]
        · simp only [ofLeg, finite_add, finite_le, begun, decide_false, if_false,
            Bool.false_eq_true]
  exact pass _ none

/-- The step at a time is the last one that has been reached. -/
theorem stepAtTime_ofStops : stepAtTime (ofStops stops) (finite x) =
    Itinerary.lastReached (x + nearStep) 0 0 (Itinerary.arrivals 0 0 stops) := by
  have pass : ∀ (all : List ℚ) (current i : ℕ),
      stepFrom (finite x) current i (all.map finite) =
        Itinerary.lastReached (x + nearStep) current i all := by
    intro all
    induction all with
    | nil => exact fun _ _ => rfl
    | cons a all ih =>
        intro current i
        rw [List.map_cons, stepFrom, Itinerary.lastReached, ih]
        simp only [finite_sub, finite_le, decide_eq_true_eq, sub_le_iff_le_add]
  exact pass _ 0 0

end Searches

end ScoutPulse.Tactics.Opened
