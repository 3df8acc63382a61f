import Mathlib.Algebra.Order.Floor.Semiring
import Mathlib.Analysis.Real.Sqrt
import Mathlib.Tactic.FieldSimp
import Mathlib.Tactic.Linarith
import ScoutPulse.Lib.Loop

/-!
# Even spacing along a path

Wavy and dashed strokes are drawn through points that are evenly spaced along a path.
`resample` walks from one mark to the next and carries what is left of a segment over to the
one after it. Numbers are exact, and a quotient by zero is none.
-/

namespace ScoutPulse.Tactics.Geometry

open Loops

/-! ## Points and paths -/

/-- `Vec2`, over any exact numbers. -/
@[ext]
structure Vec2 (K : Type) where
  x : K
  y : K

/-- `Math.hypot`. -/
class Hypot (K : Type) where
  hypot : K → K → K

noncomputable instance : Hypot ℝ := ⟨fun x y => √(x ^ 2 + y ^ 2)⟩

section Source

variable {K : Type} [Field K] [LinearOrder K] [Hypot K]

def lerp (a b t : K) : K := a + (b - a) * t

def lerp2 (a b : Vec2 K) (t : K) : Vec2 K := ⟨lerp a.x b.x t, lerp a.y b.y t⟩

def dist (a b : Vec2 K) : K := Hypot.hypot (b.x - a.x) (b.y - a.y)

/-- `length`: of a polyline. -/
def length : List (Vec2 K) → K
  | a :: b :: rest => dist a b + length (b :: rest)
  | _ => 0

/-! ## `resample` -/

/-- What has no value in exact arithmetic. -/
inductive Undefined
  | quotientByZero

def quotient (t d : K) : Except Undefined K := if d = 0 then .error .quotientByZero else .ok (t / d)

/-- The walk along one segment: the points so far, and how far along the segment the next mark
is. -/
structure Stride (K : Type) where
  out : List (Vec2 K)
  t : K

/-- One round of the inner loop. -/
def stride (spacing : K) (a b : Vec2 K) (s : Stride K) :
    Except Undefined (Round (Stride K) (Stride K)) := do
  let d := dist a b
  if s.t ≤ d then
    let part ← quotient s.t d
    return .again ⟨s.out ++ [lerp2 a b part], s.t + spacing⟩
  return .done s

/-- One segment: the points and `carry` after it. -/
def segment (spacing : K) (out : List (Vec2 K)) (carry : K) (a b : Vec2 K) :
    Rounds Undefined (List (Vec2 K) × K) := fun n => do
  let s ← loop (stride spacing a b) ⟨out, spacing - carry⟩ n
  return (s.out, dist a b - (s.t - spacing))

/-- The segments from a point on. -/
def segments (spacing : K) : List (Vec2 K) → K → Vec2 K → List (Vec2 K) →
    Rounds Undefined (List (Vec2 K) × K)
  | out, carry, _, [], _ => .ok (out, carry)
  | out, carry, a, b :: rest, n => do
      let (out, carry) ← segment spacing out carry a b n
      segments spacing out carry b rest n

/-- `resample`. -/
def resample (points : List (Vec2 K)) (spacing : K) : Rounds Undefined (List (Vec2 K)) := fun n =>
  match points with
  | first :: second :: rest => do
      let (out, _) ← segments spacing [first] 0 first (second :: rest) n
      let last := (second :: rest).getLast (List.cons_ne_nil _ _)
      -- `out` holds the first point at least.
      return if 1 / 10 ^ 6 < dist (out.getLastD first) last then out ++ [last] else out
  | points => .ok points

end Source

/-! ## What even spacing is -/

/-- A point of a path, and how far along the path it is. -/
inductive Along : List (Vec2 ℝ) → ℝ → Vec2 ℝ → Prop
  | here {a b : Vec2 ℝ} {rest : List (Vec2 ℝ)} {u : ℝ} (nonneg : 0 ≤ u) (le_one : u ≤ 1) :
      Along (a :: b :: rest) (dist a (lerp2 a b u)) (lerp2 a b u)
  | later {a b : Vec2 ℝ} {rest : List (Vec2 ℝ)} {s : ℝ} {p : Vec2 ℝ}
      (along : Along (b :: rest) s p) : Along (a :: b :: rest) (dist a b + s) p

/-- Points at every multiple of a spacing along a path, from its beginning to where no other
fits on it. -/
structure Even (points : List (Vec2 ℝ)) (spacing : ℝ) (out : List (Vec2 ℝ)) : Prop where
  first : out.head? = points.head?
  spaced : ∀ (k : ℕ) (p : Vec2 ℝ), out[k]? = some p → Along points (k * spacing) p
  full : length points < out.length * spacing

/-- The points of an even path, closed by the last point unless they reach it. -/
structure Resampled (points : List (Vec2 ℝ)) (spacing : ℝ) (out : List (Vec2 ℝ)) : Prop where
  first : out.head? = points.head?
  last : ∃ p ∈ out.getLast?, ∃ q ∈ points.getLast?, dist p q ≤ 1 / 10 ^ 6
  even : ∃ even, Even points spacing even ∧ (out = even ∨ ∃ q ∈ points.getLast?, out = even ++ [q])

variable {a b : Vec2 ℝ} {u : ℝ}

theorem dist_nonneg (a b : Vec2 ℝ) : 0 ≤ dist a b := Real.sqrt_nonneg _

theorem dist_self (a : Vec2 ℝ) : dist a a = 0 := by
  change √((a.x - a.x) ^ 2 + (a.y - a.y) ^ 2) = 0
  simp

/-- A part of the way is that part of the distance. -/
theorem dist_lerp2 (nonneg : 0 ≤ u) : dist a (lerp2 a b u) = u * dist a b := by
  change √((a.x + (b.x - a.x) * u - a.x) ^ 2 + (a.y + (b.y - a.y) * u - a.y) ^ 2) =
    u * √((b.x - a.x) ^ 2 + (b.y - a.y) ^ 2)
  have square : (a.x + (b.x - a.x) * u - a.x) ^ 2 + (a.y + (b.y - a.y) * u - a.y) ^ 2 =
      u ^ 2 * ((b.x - a.x) ^ 2 + (b.y - a.y) ^ 2) := by ring
  rw [square, Real.sqrt_mul (sq_nonneg u), Real.sqrt_sq nonneg]

theorem length_nonneg : ∀ points : List (Vec2 ℝ), 0 ≤ length points
  | [] => le_rfl
  | [_] => le_rfl
  | a :: b :: rest => add_nonneg (dist_nonneg a b) (length_nonneg (b :: rest))

/-! ## One segment -/

/-- The marks on a segment, from the first one on. -/
noncomputable def marks (spacing : ℝ) (a b : Vec2 ℝ) (t : ℝ) (m : ℕ) : List (Vec2 ℝ) :=
  (List.range m).map fun k : ℕ => lerp2 a b ((t + k * spacing) / dist a b)

variable {spacing t carry : ℝ} {out : List (Vec2 ℝ)}

theorem marks_succ (m : ℕ) : marks spacing a b t (m + 1) =
    marks spacing a b t m ++ [lerp2 a b ((t + m * spacing) / dist a b)] := by
  rw [marks, List.range_succ, List.map_append]
  rfl

/-- After some rounds: the marks so far, each of them on the segment. -/
structure Stride.Sound (spacing : ℝ) (a b : Vec2 ℝ) (t : ℝ) (out : List (Vec2 ℝ)) (m : ℕ)
    (s : Stride ℝ) : Prop where
  points : s.out = out ++ marks spacing a b t m
  next : s.t = t + m * spacing
  within : ∀ k : ℕ, k < m → t + k * spacing ≤ dist a b

/-- How many marks a segment has room for from here on. -/
noncomputable def Stride.room (spacing : ℝ) (a b : Vec2 ℝ) (s : Stride ℝ) : ℕ :=
  ⌊(dist a b - s.t) / spacing + 1⌋₊

/-- A round of the stride puts a mark and goes on, or is past the end of its line. -/
theorem stride_meets {m : ℕ} {s : Stride ℝ} (positive : 0 < spacing) (ahead : 0 < t)
    (sound : s.Sound spacing a b t out m) :
    Round.Meets (fun s' => s'.Sound spacing a b t out (m + 1) ∧
        s'.room spacing a b < s.room spacing a b)
      (fun s' => s' = s ∧ dist a b < s.t) (stride spacing a b s) := by
  have reached : 0 < s.t := by
    rw [sound.next]
    positivity
  simp only [stride]
  split_ifs with fits
  · have nonzero : dist a b ≠ 0 := (reached.trans_le fits).ne'
    simp only [quotient, if_neg nonzero, Outcome.ok_bind]
    refine .again ⟨⟨?_, ?_, ?_⟩, ?_⟩
    · change s.out ++ [lerp2 a b (s.t / dist a b)] = _
      rw [sound.points, sound.next, marks_succ, List.append_assoc]
    · change s.t + spacing = _
      rw [sound.next]
      push_cast
      ring
    · intro k before
      rcases Nat.lt_succ_iff_lt_or_eq.mp before with earlier | rfl
      · exact sound.within k earlier
      · rw [← sound.next]
        exact fits
    · have rest : 0 ≤ (dist a b - s.t) / spacing :=
        div_nonneg (sub_nonneg.mpr fits) positive.le
      have next : (dist a b - (s.t + spacing)) / spacing + 1 = (dist a b - s.t) / spacing := by
        field_simp
        ring
      simp only [Stride.room]
      rw [next, Nat.floor_add_one rest]
      exact Nat.lt_succ_self _
  · exact .done ⟨rfl, not_le.mp fits⟩

/-- What a segment adds: a mark at every spacing that it has room for. -/
theorem exists_segment (positive : 0 < spacing) (out : List (Vec2 ℝ)) (a b : Vec2 ℝ)
    (ahead : carry < spacing) :
    ∃ (m : ℕ) (carry' : ℝ),
      Ends (segment spacing out carry a b) (out ++ marks spacing a b (spacing - carry) m, carry') ∧
        (∀ k : ℕ, k < m → spacing - carry + k * spacing ≤ dist a b) ∧ carry' < spacing ∧
        spacing - carry' = spacing - carry + m * spacing - dist a b := by
  have start : 0 < spacing - carry := sub_pos.mpr ahead
  have round : ∀ s : Stride ℝ, (∃ m, s.Sound spacing a b (spacing - carry) out m) →
      Round.Meets (fun s' => (∃ m, s'.Sound spacing a b (spacing - carry) out m) ∧
          s'.room spacing a b < s.room spacing a b)
        (fun s' => (∃ m, s'.Sound spacing a b (spacing - carry) out m) ∧ dist a b < s'.t)
        (stride spacing a b s) := by
    rintro s ⟨m, sound⟩
    refine (stride_meets positive start sound).mono
      (fun s' next => ⟨⟨m + 1, next.1⟩, next.2⟩) ?_
    rintro s' ⟨rfl, past⟩
    exact ⟨⟨m, sound⟩, past⟩
  obtain ⟨s, ends, ⟨m, sound⟩, past⟩ := exists_ends _ round
    (⟨0, ⟨(List.append_nil out).symm, by simp, by simp⟩⟩ :
      ∃ m, Stride.Sound spacing a b (spacing - carry) out m ⟨out, spacing - carry⟩)
  refine ⟨m, dist a b - (s.t - spacing), ?_, sound.within, by linarith, ?_⟩
  · rw [← sound.points]
    exact ends.bind (ends_ok (s.out, dist a b - (s.t - spacing)))
  · rw [sound.next]
    ring

/-- A mark lies on its segment, as far along it as it was put. -/
theorem along_mark {rest : List (Vec2 ℝ)} (ahead : 0 < t) (within : t ≤ dist a b) :
    Along (a :: b :: rest) t (lerp2 a b (t / dist a b)) := by
  have apart : 0 < dist a b := ahead.trans_le within
  have part : 0 ≤ t / dist a b := div_nonneg ahead.le apart.le
  have there : dist a (lerp2 a b (t / dist a b)) = t := by
    rw [dist_lerp2 part, div_mul_cancel₀ t apart.ne']
  have on : Along (a :: b :: rest) (dist a (lerp2 a b (t / dist a b)))
      (lerp2 a b (t / dist a b)) := .here part ((div_le_one apart).mpr within)
  rwa [there] at on

/-- Marks at every spacing along a path, the first as far along it as the carry leaves, and
what is carried on from its end. -/
structure Marked (spacing carry : ℝ) (path new : List (Vec2 ℝ)) (carry' : ℝ) : Prop where
  along : ∀ (k : ℕ) (p : Vec2 ℝ), new[k]? = some p →
    Along path (spacing - carry + k * spacing) p
  ahead : carry' < spacing
  left : spacing - carry' = spacing - carry + new.length * spacing - length path

theorem length_marks (m : ℕ) : (marks spacing a b t m).length = m := by
  rw [marks, List.length_map, List.length_range]

/-- The marks of a segment, and those of what follows it. -/
theorem Marked.cons {m : ℕ} {middle carry' : ℝ} {rest new : List (Vec2 ℝ)}
    (positive : 0 < spacing) (ahead : carry < spacing)
    (within : ∀ k : ℕ, k < m → spacing - carry + k * spacing ≤ dist a b)
    (left : spacing - middle = spacing - carry + m * spacing - dist a b)
    (later : Marked spacing middle (b :: rest) new carry') :
    Marked spacing carry (a :: b :: rest) (marks spacing a b (spacing - carry) m ++ new)
      carry' := by
  refine ⟨fun k p there => ?_, later.ahead, ?_⟩
  · by_cases here : k < m
    · rw [List.getElem?_append_left (by rwa [length_marks]), marks, List.getElem?_map,
        List.getElem?_range here, Option.map_some, Option.some.injEq] at there
      rw [← there]
      have start : 0 < spacing - carry := sub_pos.mpr ahead
      exact along_mark (by positivity) (within k here)
    · rw [not_lt] at here
      rw [List.getElem?_append_right (by rwa [length_marks]), length_marks] at there
      have place := Along.later (a := a) (later.along _ p there)
      have same : dist a b + (spacing - middle + (k - m : ℕ) * spacing) =
          spacing - carry + k * spacing := by
        rw [left, Nat.cast_sub here]
        ring
      rwa [same] at place
  · rw [later.left, left, List.length_append, length_marks, length]
    push_cast
    ring

/-- What the segments from a point on add. -/
theorem exists_segments (positive : 0 < spacing) : ∀ (rest : List (Vec2 ℝ)) (a : Vec2 ℝ)
    (out : List (Vec2 ℝ)) (carry : ℝ), carry < spacing → ∃ (new : List (Vec2 ℝ)) (carry' : ℝ),
      Ends (segments spacing out carry a rest) (out ++ new, carry') ∧
        Marked spacing carry (a :: rest) new carry'
  | [], a, out, carry, ahead => by
      refine ⟨[], carry, ?_, ⟨by simp, ahead, by simp [length]⟩⟩
      rw [List.append_nil]
      exact ends_ok _
  | b :: rest, a, out, carry, ahead => by
      obtain ⟨m, middle, here, within, ahead', left⟩ :=
        exists_segment positive out a b ahead
      obtain ⟨new, carry', later, marked⟩ :=
        exists_segments positive rest b (out ++ marks spacing a b (spacing - carry) m) middle ahead'
      refine ⟨marks spacing a b (spacing - carry) m ++ new, carry', ?_,
        marked.cons positive ahead within left⟩
      rw [← List.append_assoc]
      exact here.bind later

/-! ## The whole path -/

theorem lerp2_zero (a b : Vec2 ℝ) : lerp2 a b 0 = a := by
  simp [lerp2, lerp]

theorem along_start (a b : Vec2 ℝ) (rest : List (Vec2 ℝ)) : Along (a :: b :: rest) 0 a := by
  have start : Along (a :: b :: rest) (dist a (lerp2 a b 0)) (lerp2 a b 0) :=
    .here le_rfl zero_le_one
  rwa [lerp2_zero, dist_self] at start

/-- The first point and the marks after it. -/
theorem Marked.even {rest new : List (Vec2 ℝ)} {carry' : ℝ}
    (marked : Marked spacing 0 (a :: b :: rest) new carry') :
    Even (a :: b :: rest) spacing (a :: new) := by
  refine ⟨rfl, fun k p there => ?_, ?_⟩
  · cases k with
    | zero =>
        rw [List.getElem?_cons_zero, Option.some.injEq] at there
        rw [← there, Nat.cast_zero, zero_mul]
        exact along_start a b rest
    | succ k =>
        have place := marked.along k p there
        have same : spacing - 0 + k * spacing = ((k + 1 : ℕ) : ℝ) * spacing := by
          push_cast
          ring
        rwa [same] at place
  · have left := marked.left
    have ahead := marked.ahead
    rw [List.length_cons]
    push_cast
    linarith

/-- `resample` ends and divides by no zero, and its points are evenly spaced along the path
from the first one to the last. -/
theorem resample_even {points : List (Vec2 ℝ)} {spacing : ℝ} (two : 2 ≤ points.length)
    (positive : 0 < spacing) : ∃ out, Ends (resample points spacing) out ∧
      (∀ n, resample points spacing n ≠ .error (.thrown .quotientByZero)) ∧
      Resampled points spacing out := by
  obtain ⟨first, second, rest, rfl⟩ : ∃ first second rest, points = first :: second :: rest := by
    match points, two with
    | first :: second :: rest, _ => exact ⟨first, second, rest, rfl⟩
  obtain ⟨new, carry, walked, marked⟩ :=
    exists_segments positive (second :: rest) first [first] 0 positive
  let q := (second :: rest).getLast (List.cons_ne_nil _ _)
  have last : (first :: second :: rest).getLast? = some q := by
    rw [List.getLast?_cons_cons, List.getLast?_eq_some_getLast]
  have ends : Ends (resample (first :: second :: rest) spacing)
      (if 1 / 10 ^ 6 < dist ((first :: new).getLastD first) q then first :: new ++ [q]
        else first :: new) := walked.bind (ends_ok _)
  refine ⟨_, ends, fun n => ends.ne_thrown n _, ?_⟩
  have end_ : (first :: new).getLast? = some ((first :: new).getLastD first) := by
    rw [List.getLastD_eq_getLast?, List.getLast?_eq_some_getLast (List.cons_ne_nil _ _)]
    rfl
  split_ifs with far
  · refine ⟨rfl, ⟨q, List.getLast?_concat, q, last, ?_⟩, first :: new, marked.even,
      .inr ⟨q, last, rfl⟩⟩
    rw [dist_self]
    positivity
  · exact ⟨rfl, ⟨_, end_, q, last, not_lt.mp far⟩, first :: new, marked.even, .inl rfl⟩

/-- A path that turns back on itself. -/
theorem resample_even_corner : ∃ out,
    Ends (resample [⟨0, 0⟩, ⟨3, 4⟩, ⟨3, 4⟩, ⟨0, 0⟩] (2 : ℝ)) out ∧
      (∀ n, resample [⟨0, 0⟩, ⟨3, 4⟩, ⟨3, 4⟩, ⟨0, 0⟩] (2 : ℝ) n ≠
        .error (.thrown .quotientByZero)) ∧
      Resampled [⟨0, 0⟩, ⟨3, 4⟩, ⟨3, 4⟩, ⟨0, 0⟩] 2 out :=
  resample_even (by simp) (by norm_num)

end ScoutPulse.Tactics.Geometry
