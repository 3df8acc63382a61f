import ScoutPulse.Tactics.Timing

/-!
# Where an object is on its way

Between two positions that are numbers an object moves along a line, or along a curve if
the handle of its bend can be read as numbers. Then every number of its placement is
finite, and the placement is the one of exact arithmetic. Conversely, a placement that is
finite tells what the document holds.
-/

namespace ScoutPulse.Tactics.Opened

open Js Js.Number

section Values

variable [Implementation]

/-- A finite number, once it is coerced. -/
def Counts (v : Option Json) : Prop := ∃ x, toNumber v = .ok (finite x)

/-- A position of two numbers. -/
structure IsPoint (p : Held) : Prop where
  x : ∃ n, p.index 0 = some (.num n)
  y : ∃ n, p.index 1 = some (.num n)

/-- A handle of a curve: its coordinates are multiplied, which coerces them. -/
structure Bends (b : Held) : Prop where
  x : Counts (b.index 0)
  y : Counts (b.index 1)

/-- A value with a method `includes`, or none to ask for it. -/
def Searchable : Option Json → Prop
  | none => True
  | some .null => True
  | some (.str _) => True
  | some (.arr _) => True
  | _ => False

omit [Implementation] in
/-- A list that can be searched is one. -/
theorem searchable_iff {v : Option Json} (id : String) :
    Searchable v ↔ ∃ found, includes v id = .ok found := by
  cases v with
  | none => exact ⟨fun _ => ⟨false, rfl⟩, fun _ => trivial⟩
  | some v =>
      cases v with
      | null => exact ⟨fun _ => ⟨false, rfl⟩, fun _ => trivial⟩
      | str s => exact ⟨fun _ => ⟨_, rfl⟩, fun _ => trivial⟩
      | arr items => exact ⟨fun _ => ⟨_, rfl⟩, fun _ => trivial⟩
      | bool b => exact ⟨False.elim, fun ⟨_, found⟩ => by cases found⟩
      | num n => exact ⟨False.elim, fun ⟨_, found⟩ => by cases found⟩
      | obj members => exact ⟨False.elim, fun ⟨_, found⟩ => by cases found⟩

namespace Coord

def isFinite : Coord → Bool
  | number n => n.isFinite
  | _ => false

omit [Implementation] in
theorem isFinite_iff {c : Coord} : c.isFinite = true ↔ ∃ x, c = number (finite x) := by
  cases c with
  | number n => simp [isFinite, Number.isFinite_iff]
  | text s => simp [isFinite]
  | held v => simp [isFinite]

omit [Implementation] in
theorem isFinite_of {v : Option Json} : (of v).isFinite = true ↔ ∃ n, v = some (.num n) := by
  cases v with
  | none => simp [of, isFinite]
  | some v => cases v <;> simp [of, isFinite]

/-- A coordinate of the document is coerced as the document's value. -/
theorem toNumber_of {v : Option Json} : (of v).toNumber = Js.toNumber v := by
  cases v with
  | none => rfl
  | some v => cases v <;> rfl

end Coord

/-! ## Exact points -/

/-- A point of two numbers. -/
def exact (a : ℚ × ℚ) : Vec2 := ⟨.number (finite a.1), .number (finite a.2)⟩

omit [Implementation] in
theorem exists_exact {p : Held} (point : IsPoint p) : ∃ a, vec p = exact a := by
  obtain ⟨x, left⟩ := Coord.isFinite_iff.mp (Coord.isFinite_of.mpr point.x)
  obtain ⟨y, right⟩ := Coord.isFinite_iff.mp (Coord.isFinite_of.mpr point.y)
  exact ⟨(x, y), by rw [vec, left, right]; rfl⟩

/-- `lerp` of exact numbers. -/
def lerpAt (a b t : ℚ) : ℚ := a + (b - a) * t

/-- `quad` of exact numbers. -/
def quadAt (a c b t : ℚ) : ℚ := (1 - t) * (1 - t) * a + 2 * (1 - t) * t * c + t * t * b

/-- `easeInOut` of an exact number. -/
def easeAt (t : ℚ) : ℚ :=
  -(Implementation.cos (884279719003555 / 281474976710656 * t) - 1) / 2

theorem easeInOut_finite {t : ℚ} : easeInOut (finite t) = finite (easeAt t) := by
  rw [easeInOut, pi, finite_mul]
  change -(finite _ - finite 1) / finite 2 = _
  rw [finite_sub, neg_finite, finite_div two_ne_zero]
  rfl

omit [Implementation] in
theorem easeOut_finite {t : ℚ} : easeOut (finite t) = finite (1 - (1 - t) * (1 - t)) := by
  rw [easeOut, finite_sub, finite_mul, finite_sub]

/-- How far an object has come, exactly. -/
def easedAt (obj : BoardObject) (t : ℚ) : ℚ :=
  if obj.kind = "ball" then 1 - (1 - t) * (1 - t) else easeAt t

/-- Whatever an object's easing, it gives a finite number. -/
theorem eased_finite {obj : BoardObject} {t : ℚ} :
    eased obj (finite t) = finite (easedAt obj t) := by
  unfold eased easedAt
  split
  · exact easeOut_finite
  · exact easeInOut_finite

/-- A handle whose coordinates are coerced to numbers. -/
def ReadsAs (b : Held) (c : ℚ × ℚ) : Prop :=
  (vec b).x.toNumber = .ok (finite c.1) ∧ (vec b).y.toNumber = .ok (finite c.2)

theorem exists_readsAs {b : Held} (bends : Bends b) : ∃ c, ReadsAs b c := by
  obtain ⟨⟨x, left⟩, ⟨y, right⟩⟩ := bends
  exact ⟨(x, y), Coord.toNumber_of.trans left, Coord.toNumber_of.trans right⟩

/-- The handle of a bend, if there is one. -/
inductive Handle : Option Held → Option (ℚ × ℚ) → Prop
  | straight : Handle none none
  | bent {b : Held} {c : ℚ × ℚ} (reads : ReadsAs b c) : Handle (some b) (some c)

/-- A way whose bends count has a handle, or goes straight. -/
theorem exists_handle {bend : Option Held} (bends : ∀ b, bend = some b → Bends b) :
    ∃ c, Handle bend c := by
  cases bend with
  | none => exact ⟨none, .straight⟩
  | some b =>
      obtain ⟨c, reads⟩ := exists_readsAs (bends b rfl)
      exact ⟨some c, .bent reads⟩

/-- The way of exact points. -/
def wayAt (handle : Option (ℚ × ℚ)) (a b : ℚ × ℚ) (t : ℚ) : ℚ × ℚ :=
  match handle with
  | some c => (quadAt a.1 c.1 b.1 t, quadAt a.2 c.2 b.2 t)
  | none => (lerpAt a.1 b.1 t, lerpAt a.2 b.2 t)

omit [Implementation] in
/-- A way begins where it leaves from. -/
theorem wayAt_zero {handle : Option (ℚ × ℚ)} {a b : ℚ × ℚ} : wayAt handle a b 0 = a := by
  cases handle with
  | none => simp [wayAt, lerpAt]
  | some c => simp [wayAt, quadAt]

omit [Implementation] in
/-- And ends where it leads to. -/
theorem wayAt_one {handle : Option (ℚ × ℚ)} {a b : ℚ × ℚ} : wayAt handle a b 1 = b := by
  cases handle with
  | none => simp [wayAt, lerpAt]
  | some c => simp [wayAt, quadAt]

variable {bend : Option Held} {handle : Option (ℚ × ℚ)} {a b : ℚ × ℚ} {t p : ℚ}

/-- A curve through finite points is finite. -/
theorem quad_exact {held : Held} {c : ℚ × ℚ} (reads : ReadsAs held c) :
    quad (exact a) (vec held) (exact b) (finite t) =
      .ok (exact (quadAt a.1 c.1 b.1 t, quadAt a.2 c.2 b.2 t)) := by
  rw [quad, quadAxis, quadAxis, reads.1, reads.2]
  change Except.ok (Vec2.mk (.number _) (.number _)) = _
  simp only [finite_sub, finite_mul, finite_add]
  rfl

/-- A way between finite points is finite. -/
theorem wayPoint_exact (reads : Handle bend handle) :
    wayPoint bend (exact a) (exact b) (finite t) = .ok (exact (wayAt handle a b t)) := by
  cases reads with
  | bent reads => exact quad_exact reads
  | straight =>
      change Except.ok (Vec2.mk (.number _) (.number _)) = _
      simp only [finite_sub, finite_mul, finite_add]
      rfl

/-- What lies ahead on such a way is finite. -/
theorem exists_wayAhead (reads : Handle bend handle) :
    ∃ c, wayAhead bend (exact a) (exact b) (finite t) = .ok (exact c) := by
  cases reads with
  | straight => exact ⟨b, rfl⟩
  | bent reads =>
      rw [wayAhead, finite_add, finite_min]
      exact ⟨_, quad_exact reads⟩

/-- The distance of exact points. -/
def distAt (a b : ℚ × ℚ) : ℚ := Implementation.hypot (b.1 - a.1) (b.2 - a.2)

theorem dist_exact : dist (exact a) (exact b) = .ok (finite (distAt a b)) := by
  change Except.ok (hypot (finite b.1 - finite a.1) (finite b.2 - finite a.2)) = _
  rw [finite_sub, finite_sub]
  rfl

/-- The height of an object in the air, exactly. -/
def heightAt (lofted : Bool) (a b : ℚ × ℚ) (p : ℚ) : ℚ :=
  if lofted then 4 * Min.min 14 (distAt a b * (22 / 100)) * p * (1 - p) else 0

/-- The height above such a way is finite. -/
theorem height_exact {air : Option Json} {id : String} {lofted : Bool}
    (found : includes air id = .ok lofted) :
    height air id (exact a) (exact b) (finite p) = .ok (finite (heightAt lofted a b p)) := by
  rw [height, found, Outcome.ok_bind]
  cases lofted with
  | false => rfl
  | true =>
      rw [if_pos rfl, dist_exact, Outcome.ok_bind]
      simp only [finite_sub, finite_mul, finite_min]
      rfl

theorem exists_headingTo : ∃ heading, headingTo (exact a) (exact b) = .ok heading := by
  rw [headingTo, dist_exact, Outcome.ok_bind]
  split
  · exact ⟨_, rfl⟩
  · exact ⟨_, rfl⟩

/-- The placement of an object on its way. -/
theorem travel_exact {target : Step} {obj : BoardObject} {lofted : Bool}
    (reads : Handle (bendOf target.bend obj.id) handle)
    (found : includes target.air obj.id = .ok lofted) :
    ∃ heading, travel target obj (exact a) (exact b) (finite p) =
      .ok ⟨(exact (wayAt handle a b (easedAt obj p))).x,
        (exact (wayAt handle a b (easedAt obj p))).y, finite (heightAt lofted a b p),
        finite 1, heading⟩ := by
  obtain ⟨ahead, leads⟩ := exists_wayAhead (a := a) (b := b) (t := easedAt obj p) reads
  obtain ⟨heading, faces⟩ := exists_headingTo (a := wayAt handle a b (easedAt obj p)) (b := ahead)
  refine ⟨heading, ?_⟩
  rw [travel, eased_finite, wayPoint_exact reads, Outcome.ok_bind, height_exact found,
    Outcome.ok_bind, leads, Outcome.ok_bind, faces, Outcome.ok_bind]

/-! ## What a finite placement tells -/

/-- A curve that comes out finite has a control that counts. -/
theorem counts_of_quadAxis {a b c made : Coord} {t : Number}
    (run : quadAxis a c b t = .ok made) (whole : made.isFinite = true) :
    ∃ x, c.toNumber = .ok (finite x) := by
  obtain ⟨an, -, run⟩ := Outcome.bind_ok_iff.mp run
  obtain ⟨cn, read, run⟩ := Outcome.bind_ok_iff.mp run
  obtain ⟨bn, -, run⟩ := Outcome.bind_ok_iff.mp run
  cases run
  simp only [Coord.isFinite, isFinite_add, isFinite_mul, Bool.and_eq_true] at whole
  obtain ⟨x, rfl⟩ := isFinite_iff.mp whole.1.2.2
  exact ⟨x, read⟩

/-- A way that comes out finite has a bend that counts. -/
theorem bends_of_wayPoint {held : Held} {origin goal here : Vec2} {t : Number}
    (run : wayPoint (some held) origin goal t = .ok here)
    (x : here.x.isFinite = true) (y : here.y.isFinite = true) : Bends held := by
  obtain ⟨mx, left, run⟩ := Outcome.bind_ok_iff.mp run
  obtain ⟨my, right, run⟩ := Outcome.bind_ok_iff.mp run
  cases run
  obtain ⟨cx, readx⟩ := counts_of_quadAxis left x
  obtain ⟨cy, ready⟩ := counts_of_quadAxis right y
  exact ⟨⟨cx, Coord.toNumber_of.symm.trans readx⟩, ⟨cy, Coord.toNumber_of.symm.trans ready⟩⟩

theorem searchable_of_height {air : Option Json} {id : String} {origin goal : Vec2}
    {t h : Number} (run : height air id origin goal t = .ok h) : Searchable air := by
  obtain ⟨lofted, found, -⟩ := Outcome.bind_ok_iff.mp run
  exact (searchable_iff id).mpr ⟨lofted, found⟩

/-- `Placement` with coordinates and a height that are finite. -/
structure Placement.Finite (placed : Placement) : Prop where
  x : placed.x.isFinite = true
  y : placed.y.isFinite = true
  h : placed.h.isFinite = true

/-- An object that travels has such a list, and one that is drawn finite has bends that count.
-/
theorem of_travel {target : Step} {obj : BoardObject} {origin goal : Vec2} {t : Number}
    {placed : Placement} (run : travel target obj origin goal t = .ok placed) :
    Searchable target.air ∧
      (placed.Finite → ∀ b, bendOf target.bend obj.id = some b → Bends b) := by
  obtain ⟨here, moved, run⟩ := Outcome.bind_ok_iff.mp run
  obtain ⟨h, raised, run⟩ := Outcome.bind_ok_iff.mp run
  obtain ⟨ahead, -, run⟩ := Outcome.bind_ok_iff.mp run
  obtain ⟨heading, -, run⟩ := Outcome.bind_ok_iff.mp run
  cases run
  refine ⟨searchable_of_height raised, fun finite b bent => ?_⟩
  rw [bent] at moved
  exact bends_of_wayPoint moved finite.x finite.y

end Values

/-! ## Positions -/

section Positions

variable {doc : TacticDoc} {steps : List Step} {id : String} {p : Held} {n i : ℕ}

/-- What is found stands at one of the steps. -/
theorem exists_of_latest (found : latest steps id n = some p) :
    ∃ i s, i < n ∧ steps[i]? = some s ∧ standing s.pos id = some p := by
  induction n with
  | zero => cases found
  | succ n ih =>
      rw [latest] at found
      split at found
      case h_1 q here =>
        cases found
        obtain ⟨s, step, stands⟩ := Option.bind_eq_some_iff.mp here
        exact ⟨n, s, Nat.lt_succ_self n, step, stands⟩
      case h_2 =>
        obtain ⟨i, s, before, step, stands⟩ := ih found
        exact ⟨i, s, Nat.lt_succ_of_lt before, step, stands⟩

theorem latest_succ {s : Step} (step : steps[n]? = some s) (stands : standing s.pos id = some p) :
    latest steps id (n + 1) = some p := by
  rw [latest, step, Option.bind_some, stands]

/-- An object that stood at some step is still there. -/
theorem latest_ne_none {s : Step} (before : i < n) (step : steps[i]? = some s)
    (stands : standing s.pos id ≠ none) : latest steps id n ≠ none := by
  induction n with
  | zero => exact absurd before (Nat.not_lt_zero i)
  | succ n ih =>
      rw [latest]
      split
      case h_1 => simp
      case h_2 absent =>
        rcases Nat.lt_succ_iff_lt_or_eq.mp before with before | rfl
        · exact ih before
        · rw [step, Option.bind_some] at absent
          exact absurd absent stands

theorem positionAt_natCast (within : i < doc.steps.length) :
    positionAt doc i id = latest doc.steps id (i + 1) := by
  have low : (Min.min (i : ℤ) (doc.steps.length - 1) + 1).toNat = i + 1 := by omega
  rw [positionAt, low]

theorem positionAt_pred (within : i < doc.steps.length) (later : 0 < i) :
    positionAt doc (i - 1) id = latest doc.steps id i := by
  have low : (Min.min ((i : ℤ) - 1) (doc.steps.length - 1) + 1).toNat = i := by omega
  rw [positionAt, low]

/-- Every position is one of some step. -/
theorem exists_of_positionAt {j : ℤ} (found : positionAt doc j id = some p) :
    ∃ s ∈ doc.steps, standing s.pos id = some p := by
  obtain ⟨i, s, -, step, stands⟩ := exists_of_latest found
  exact ⟨s, List.mem_of_getElem? step, stands⟩

end Positions

end ScoutPulse.Tactics.Opened
