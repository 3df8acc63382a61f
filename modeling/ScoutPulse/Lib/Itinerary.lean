import Mathlib.Algebra.Order.Group.Defs
import Mathlib.Algebra.Order.Monoid.Unbundled.Basic
import Mathlib.Data.List.Chain
import Mathlib.Data.List.Induction
import Mathlib.Tactic.Abel
import Mathlib.Tactic.TypeStar

/-!
# Stops in a row

An itinerary rests at each of its stops and travels to each but the first. Its legs, rests
and travels in order, follow one another without a gap. Two questions about a time have
close answers: which leg started last, and which stop was reached last. They agree when
the time is not just short of an arrival, as long as no travel is shorter than what counts
as just short.
-/

namespace Itinerary

variable {τ : Type*} [AddCommGroup τ] [LinearOrder τ]

/-- A stop: how long the travel to it takes, never less than `least`, and the rest there. -/
structure Stop (least : τ) where
  travel : τ
  rest : τ
  least_le : least ≤ travel
  rest_nonneg : 0 ≤ rest

/-- The travel to a stop, or the rest at it. -/
structure Leg (τ : Type*) where
  travels : Bool
  stop : ℕ
  start : τ
  finish : τ

variable {least : τ}

/-- When a stop is reached by who is free at a time: nothing leads to the first. -/
def arrival (t : τ) (i : ℕ) (s : Stop least) : τ := if 0 < i then t + s.travel else t

/-- When a stop is left. -/
def departure (t : τ) (i : ℕ) (s : Stop least) : τ := arrival t i s + s.rest

def travelTo (t : τ) (i : ℕ) (s : Stop least) : List (Leg τ) :=
  if 0 < i then [⟨true, i, t, t + s.travel⟩] else []

def restAt (t : τ) (i : ℕ) (s : Stop least) : Leg τ :=
  ⟨false, i, arrival t i s, departure t i s⟩

/-- The legs of the stops from a number on. -/
def legs (t : τ) : ℕ → List (Stop least) → List (Leg τ)
  | _, [] => []
  | i, s :: stops => travelTo t i s ++ restAt t i s :: legs (departure t i s) (i + 1) stops

/-- When each stop is reached. -/
def arrivals (t : τ) : ℕ → List (Stop least) → List τ
  | _, [] => []
  | i, s :: stops => arrival t i s :: arrivals (departure t i s) (i + 1) stops

/-- When the last stop is left. -/
def finish (t : τ) : ℕ → List (Stop least) → τ
  | _, [] => t
  | i, s :: stops => finish (departure t i s) (i + 1) stops

/-- The last leg that has started by a time. -/
def lastStarted (x : τ) (legs : List (Leg τ)) : Option (Leg τ) :=
  legs.foldl (fun seg leg => if leg.start ≤ x then some leg else seg) none

/-- The last stop that was reached by a time, where some stop was current before. -/
def lastReached (x : τ) : ℕ → ℕ → List τ → ℕ
  | current, _, [] => current
  | current, i, a :: later => lastReached x (if a ≤ x then i else current) (i + 1) later

/-- The stop whose rest a leg is, or from which it leads away. -/
def Leg.from (leg : Leg τ) : ℕ := if leg.travels then leg.stop - 1 else leg.stop

section Order

variable [IsOrderedAddMonoid τ] {t x y : τ} {i k : ℕ} {s : Stop least} {stops : List (Stop least)}
  {leg : Leg τ}

theorem le_arrival (positive : 0 ≤ least) : t ≤ arrival t i s := by
  unfold arrival
  split
  · exact le_add_of_nonneg_right (positive.trans s.least_le)
  · exact le_rfl

theorem arrival_le_departure : arrival t i s ≤ departure t i s :=
  le_add_of_nonneg_right s.rest_nonneg

theorem le_departure (positive : 0 ≤ least) : t ≤ departure t i s :=
  (le_arrival positive).trans arrival_le_departure

theorem add_least_le_arrival (later : 0 < i) : t + least ≤ arrival t i s := by
  rw [arrival, if_pos later]
  exact add_le_add_right s.least_le t

theorem le_finish (positive : 0 ≤ least) : t ≤ finish t i stops := by
  induction stops generalizing t i with
  | nil => exact le_rfl
  | cons s stops ih => exact (le_departure positive).trans ih

omit [IsOrderedAddMonoid τ] in
/-- The legs of one stop and those after it. -/
theorem mem_legs_cons : leg ∈ legs t i (s :: stops) ↔
    (0 < i ∧ leg = ⟨true, i, t, t + s.travel⟩) ∨ leg = restAt t i s ∨
      leg ∈ legs (departure t i s) (i + 1) stops := by
  rw [legs, List.mem_append, List.mem_cons, travelTo]
  by_cases later : 0 < i
  · rw [if_pos later, List.mem_singleton]
    simp only [later, true_and]
  · rw [if_neg later]
    simp only [List.not_mem_nil, later, false_and]

/-- A leg lies within the itinerary, and a travel leads to a later stop than the first. -/
structure Leg.Within (leg : Leg τ) (least t last : τ) (i n : ℕ) : Prop where
  begins : t ≤ leg.start
  forward : leg.start ≤ leg.finish
  ends : leg.finish ≤ last
  stop_ge : i ≤ leg.stop
  stop_lt : leg.stop < n
  travels : leg.travels = true → 0 < leg.stop ∧ leg.start + least ≤ leg.finish

/-- Each leg lies within the whole journey, at one of its stops. -/
theorem within_of_mem (positive : 0 ≤ least) (member : leg ∈ legs t i stops) :
    leg.Within least t (finish t i stops) i (i + stops.length) := by
  induction stops generalizing t i with
  | nil => cases member
  | cons s stops ih =>
      rw [List.length_cons]
      rcases mem_legs_cons.mp member with ⟨later, rfl⟩ | rfl | rest
      · have reached : arrival t i s = t + s.travel := if_pos later
        exact {
          begins := le_rfl
          forward := le_add_of_nonneg_right (positive.trans s.least_le)
          ends := reached ▸ arrival_le_departure.trans (le_finish positive)
          stop_ge := le_rfl
          stop_lt := by change i < _; omega
          travels := fun _ => ⟨later, add_le_add_right s.least_le t⟩ }
      · exact {
          begins := le_arrival positive
          forward := arrival_le_departure
          ends := le_finish positive
          stop_ge := le_rfl
          stop_lt := by change i < _; omega
          travels := fun travels => Bool.noConfusion travels }
      · have inside := ih rest
        have low := inside.stop_ge
        have high := inside.stop_lt
        exact { inside with
          begins := (le_departure positive).trans inside.begins
          stop_ge := by omega
          stop_lt := by omega }

/-- One leg ends before another starts. -/
theorem pairwise_legs (positive : 0 ≤ least) :
    (legs t i stops).Pairwise fun a b => a.finish ≤ b.start := by
  induction stops generalizing t i with
  | nil => exact List.Pairwise.nil
  | cons s stops ih =>
      have tail : (restAt t i s :: legs (departure t i s) (i + 1) stops).Pairwise
          fun a b => a.finish ≤ b.start :=
        List.pairwise_cons.mpr ⟨fun b member => (within_of_mem positive member).begins, ih⟩
      rw [legs, travelTo]
      by_cases later : 0 < i
      · rw [if_pos later]
        refine List.pairwise_cons.mpr ⟨?_, tail⟩
        intro b member
        have reached : arrival t i s = t + s.travel := if_pos later
        rcases List.mem_cons.mp member with rfl | member
        · exact reached.ge
        · exact reached ▸ arrival_le_departure.trans (within_of_mem positive member).begins
      · rw [if_neg later]
        exact tail

omit [IsOrderedAddMonoid τ] in
/-- One leg ends when the next starts. -/
theorem isChain_legs : (legs t i stops).IsChain fun a b => a.finish = b.start := by
  have from_start : ∀ first : Leg τ, first.finish = t →
      (first :: legs t i stops).IsChain fun a b => a.finish = b.start := by
    induction stops generalizing t i with
    | nil => exact fun first _ => List.IsChain.singleton first
    | cons s stops ih =>
        intro first same
        have tail := ih (i := i + 1) (restAt t i s) rfl
        rw [legs, travelTo]
        by_cases later : 0 < i
        · have reached : arrival t i s = t + s.travel := if_pos later
          rw [if_pos later]
          exact List.IsChain.cons_cons same (List.IsChain.cons_cons reached.symm tail)
        · have reached : arrival t i s = t := if_neg later
          rw [if_neg later]
          exact List.IsChain.cons_cons (same.trans reached.symm) tail
  exact (from_start ⟨false, 0, t, t⟩ rfl).tail

omit [IsOrderedAddMonoid τ] in
/-- The first leg starts the itinerary. -/
theorem start_of_head? (first : (legs t 0 stops).head? = some leg) : leg.start = t := by
  cases stops with
  | nil => cases first
  | cons s stops =>
      cases first
      rfl

omit [IsOrderedAddMonoid τ] in
/-- And the last ends it. -/
theorem finish_of_getLast? (last : (legs t i stops).getLast? = some leg) :
    leg.finish = finish t i stops := by
  induction stops generalizing t i with
  | nil => cases last
  | cons s stops ih =>
      rw [legs, List.getLast?_append_of_ne_nil _ (List.cons_ne_nil _ _)] at last
      cases stops with
      | nil =>
          cases last
          rfl
      | cons s' stops =>
          rw [List.getLast?_cons_of_ne_nil (by simp [legs])] at last
          exact ih last

/-- Every time of the itinerary is within a leg. -/
theorem exists_leg (nonempty : stops ≠ []) (after : t ≤ x) (before : x ≤ finish t i stops) :
    ∃ leg ∈ legs t i stops, leg.start ≤ x ∧ x ≤ leg.finish := by
  induction stops generalizing t i with
  | nil => exact absurd rfl nonempty
  | cons s stops ih =>
      rcases le_total x (departure t i s) with here | beyond
      · rcases le_total (arrival t i s) x with reached | travelling
        · exact ⟨restAt t i s, mem_legs_cons.mpr (.inr (.inl rfl)), reached, here⟩
        · by_cases later : 0 < i
          · rw [arrival, if_pos later] at travelling
            exact ⟨_, mem_legs_cons.mpr (.inl ⟨later, rfl⟩), after, travelling⟩
          · rw [arrival, if_neg later] at travelling
            refine ⟨restAt t i s, mem_legs_cons.mpr (.inr (.inl rfl)), ?_, here⟩
            exact (if_neg later : arrival t i s = t).trans_le after
      · cases stops with
        | nil =>
            have same : x = departure t i s := le_antisymm before beyond
            refine ⟨restAt t i s, mem_legs_cons.mpr (.inr (.inl rfl)), ?_, same.le⟩
            exact same ▸ arrival_le_departure
        | cons s' stops =>
            obtain ⟨leg, member, started, open_⟩ := ih (List.cons_ne_nil _ _) beyond before
            exact ⟨leg, mem_legs_cons.mpr (.inr (.inr member)), started, open_⟩

/-- After some stop, another is reached no earlier than the least travel allows. -/
theorem add_least_le_of_mem_arrivals (positive : 0 ≤ least) (later : 0 < i) {a : τ}
    (member : a ∈ arrivals t i stops) : t + least ≤ a := by
  induction stops generalizing t i with
  | nil => cases member
  | cons s stops ih =>
      rcases List.mem_cons.mp member with rfl | member
      · exact add_least_le_arrival later
      · exact (add_le_add_left (le_departure positive) least).trans
          (ih (Nat.succ_pos i) member)

/-- No arrival is after the finish. -/
theorem le_finish_of_mem_arrivals (positive : 0 ≤ least) {a : τ}
    (member : a ∈ arrivals t i stops) : a ≤ finish t i stops := by
  induction stops generalizing t i with
  | nil => cases member
  | cons s stops ih =>
      rcases List.mem_cons.mp member with rfl | member
      · exact arrival_le_departure.trans (le_finish positive)
      · exact ih member

/-- The stops are reached one after the other. -/
theorem pairwise_arrivals (positive : 0 ≤ least) :
    (arrivals t i stops).Pairwise fun a b => a + least ≤ b := by
  induction stops generalizing t i with
  | nil => exact List.Pairwise.nil
  | cons s stops ih =>
      refine List.pairwise_cons.mpr ⟨fun b member => ?_, ih⟩
      exact (add_le_add_left arrival_le_departure least).trans
        (add_least_le_of_mem_arrivals positive (Nat.succ_pos i) member)

/-- Two arrivals are apart by the least time a leg takes. -/
theorem arrivals_apart {j : ℕ} {a b : τ} (positive : 0 ≤ least) (before : j < k)
    (first : (arrivals t i stops)[j]? = some a) (second : (arrivals t i stops)[k]? = some b) :
    a + least ≤ b := by
  obtain ⟨within, rfl⟩ := List.getElem?_eq_some_iff.mp first
  obtain ⟨within', rfl⟩ := List.getElem?_eq_some_iff.mp second
  exact List.pairwise_iff_getElem.mp (pairwise_arrivals positive) j k within within' before

omit [IsOrderedAddMonoid τ] in
/-- The rest at a stop starts when the stop is reached. -/
theorem exists_rest {a : τ} (reached : (arrivals t i stops)[k]? = some a) :
    ∃ leg ∈ legs t i stops, leg.travels = false ∧ leg.stop = i + k ∧ leg.start = a := by
  induction stops generalizing t i k with
  | nil => simp [arrivals] at reached
  | cons s stops ih =>
      cases k with
      | zero =>
          refine ⟨restAt t i s, mem_legs_cons.mpr (.inr (.inl rfl)), rfl, rfl, ?_⟩
          exact Option.some.inj reached
      | succ k =>
          obtain ⟨leg, member, rests, same, start⟩ := ih reached
          exact ⟨leg, mem_legs_cons.mpr (.inr (.inr member)), rests, by omega, start⟩

omit [IsOrderedAddMonoid τ] in
/-- Something leads to each stop but the first. -/
theorem exists_travel (later : 0 < i + k) (stop : k < stops.length) :
    ∃ leg ∈ legs t i stops, leg.travels = true ∧ leg.stop = i + k := by
  induction stops generalizing t i k with
  | nil => exact absurd stop (Nat.not_lt_zero k)
  | cons s stops ih =>
      cases k with
      | zero => exact ⟨_, mem_legs_cons.mpr (.inl ⟨later, rfl⟩), rfl, rfl⟩
      | succ k =>
          obtain ⟨leg, member, travels, same⟩ := ih (t := departure t i s) (i := i + 1)
            (by omega) (Nat.lt_of_succ_lt_succ stop)
          exact ⟨leg, mem_legs_cons.mpr (.inr (.inr member)), travels, by omega⟩

end Order

/-! ## Which leg started last -/

section Started

variable {x : τ} {all before after : List (Leg τ)} {leg : Leg τ} {seg : Option (Leg τ)}

omit [AddCommGroup τ] in
/-- Legs that have not started yet are passed over. -/
theorem foldl_of_not_started (later : ∀ leg ∈ all, x < leg.start) :
    all.foldl (fun seg leg => if leg.start ≤ x then some leg else seg) seg = seg := by
  induction all with
  | nil => rfl
  | cons leg all ih =>
      rw [List.foldl_cons, if_neg (not_le.mpr (later leg List.mem_cons_self))]
      exact ih fun other member => later other (List.mem_cons_of_mem leg member)

omit [AddCommGroup τ] in
theorem lastStarted_eq_of_split (started : leg.start ≤ x) (later : ∀ leg ∈ after, x < leg.start) :
    lastStarted x (before ++ leg :: after) = some leg := by
  rw [lastStarted, List.foldl_append, List.foldl_cons, if_pos started]
  exact foldl_of_not_started later

omit [AddCommGroup τ] in
/-- The last leg that has started is followed by legs that have not. -/
theorem exists_split_of_lastStarted (found : lastStarted x all = some leg) :
    ∃ before after, all = before ++ leg :: after ∧ leg.start ≤ x ∧
      ∀ leg ∈ after, x < leg.start := by
  induction all using List.reverseRecOn with
  | nil => cases found
  | append_singleton all last ih =>
      rw [lastStarted, List.foldl_concat] at found
      by_cases started : last.start ≤ x
      · rw [if_pos started, Option.some.injEq] at found
        cases found
        exact ⟨all, [], rfl, started, by simp⟩
      · rw [if_neg started] at found
        obtain ⟨before, after, rfl, begun, later⟩ := ih found
        refine ⟨before, after ++ [last], by simp, begun, ?_⟩
        rw [List.forall_mem_append]
        exact ⟨later, by simpa using started⟩

omit [AddCommGroup τ] in
theorem mem_of_lastStarted (found : lastStarted x all = some leg) : leg ∈ all := by
  obtain ⟨before, after, rfl, -, -⟩ := exists_split_of_lastStarted found
  exact List.mem_append_right _ List.mem_cons_self

end Started

section Beginning

variable [IsOrderedAddMonoid τ] {t near : τ} {i : ℕ} {stops : List (Stop least)} {leg : Leg τ}

omit [IsOrderedAddMonoid τ] in
/-- A travel is followed by a rest. -/
theorem exists_rest_of_travels (member : leg ∈ legs t i stops) (travels : leg.travels = true) :
    ∃ rest ∈ legs t i stops, rest.travels = false ∧ rest.start = leg.finish := by
  induction stops generalizing t i with
  | nil => cases member
  | cons s stops ih =>
      rcases mem_legs_cons.mp member with ⟨later, rfl⟩ | rfl | member
      · exact ⟨restAt t i s, mem_legs_cons.mpr (.inr (.inl rfl)), rfl, if_pos later⟩
      · cases travels
      · obtain ⟨rest, listed, rests, same⟩ := ih member
        exact ⟨rest, mem_legs_cons.mpr (.inr (.inr listed)), rests, same⟩

/-- Of two legs the one that started last does not lie before the other, if both have. -/
theorem finish_le_of_lastStarted {x : τ} {other : Leg τ} (positive : 0 ≤ least)
    (found : lastStarted x (legs t i stops) = some leg) (member : other ∈ legs t i stops)
    (started : other.start ≤ x) : other = leg ∨ other.finish ≤ leg.start := by
  obtain ⟨before, after, split, -, later⟩ := exists_split_of_lastStarted found
  have apart : (legs t i stops).Pairwise fun a b => a.finish ≤ b.start := pairwise_legs positive
  rw [split] at apart member
  rcases List.mem_append.mp member with earlier | rest
  · exact .inr ((List.pairwise_append.mp apart).2.2 other earlier leg List.mem_cons_self)
  · rcases List.mem_cons.mp rest with same | behind
    · exact .inl same
    · exact absurd started (not_le.mpr (later other behind))

/-- A travel that started last has not ended. -/
theorem lt_finish_of_travels {x : τ} (positive : 0 < least)
    (found : lastStarted x (legs t i stops) = some leg) (travels : leg.travels = true) :
    x < leg.finish := by
  have member := mem_of_lastStarted found
  have long := ((within_of_mem positive.le member).travels travels).2
  obtain ⟨rest, listed, rests, same⟩ := exists_rest_of_travels member travels
  by_contra past
  have started : rest.start ≤ x := same.trans_le (not_lt.mp past)
  rcases finish_le_of_lastStarted positive.le found listed started with rfl | before
  · rw [travels] at rests
    cases rests
  · have forward := (within_of_mem positive.le listed).forward
    have short : leg.finish ≤ leg.start := same.symm.le.trans (forward.trans before)
    exact absurd (long.trans short) (not_le.mpr (lt_add_of_pos_right _ positive))

/-- While a travel begins, nothing after it has. -/
theorem lastStarted_of_travels (nonneg : 0 ≤ near) (narrow : near < least)
    (member : leg ∈ legs t i stops) (travels : leg.travels = true) :
    lastStarted (leg.start + near) (legs t i stops) = some leg := by
  have positive : 0 ≤ least := nonneg.trans narrow.le
  have long := ((within_of_mem positive member).travels travels).2
  have apart : (legs t i stops).Pairwise fun a b => a.finish ≤ b.start := pairwise_legs positive
  obtain ⟨before, after, split⟩ := List.append_of_mem member
  rw [split] at apart ⊢
  refine lastStarted_eq_of_split (le_add_of_nonneg_right nonneg) fun later behind => ?_
  calc leg.start + near < leg.start + least := add_lt_add_right narrow leg.start
    _ ≤ leg.finish := long
    _ ≤ later.start := (List.pairwise_cons.mp (List.pairwise_append.mp apart).2.1).1 later behind

end Beginning

/-! ## The two questions agree -/

section Agreement

variable [IsOrderedAddMonoid τ] {t x near short : τ} {i current : ℕ} {stops : List (Stop least)}
  {seg : Option (Leg τ)}

omit [AddCommGroup τ] [IsOrderedAddMonoid τ] in
/-- Stops that are ahead have not been reached. -/
theorem lastReached_of_lt {later : List τ} (ahead : ∀ a ∈ later, x < a) :
    lastReached x current i later = current := by
  induction later generalizing i with
  | nil => rfl
  | cons a later ih =>
      rw [lastReached, if_neg (not_le.mpr (ahead a List.mem_cons_self))]
      exact ih fun b member => ahead b (List.mem_cons_of_mem a member)

omit [AddCommGroup τ] [IsOrderedAddMonoid τ] in
/-- Nothing changes about the last stop as long as no arrival lies between two times. -/
theorem lastReached_congr {y : τ} {all : List τ} (same : ∀ a ∈ all, a ≤ x ↔ a ≤ y) :
    lastReached x current i all = lastReached y current i all := by
  induction all generalizing current i with
  | nil => rfl
  | cons a all ih =>
      rw [lastReached, lastReached, ih fun b member => same b (List.mem_cons_of_mem a member)]
      simp only [same a List.mem_cons_self]

/-- When a stop is reached it is the last one. -/
theorem lastReached_of_getElem? {all : List τ} {k : ℕ} {a : τ}
    (apart : all.Pairwise fun a b => a + least ≤ b) (narrow : short < least) (nonneg : 0 ≤ short)
    (reached : all[k]? = some a) : lastReached (a + short) current i all = i + k := by
  induction all generalizing current i k with
  | nil => simp at reached
  | cons b all ih =>
      obtain ⟨ahead, apart⟩ := List.pairwise_cons.mp apart
      cases k with
      | zero =>
          cases reached
          rw [lastReached, if_pos (le_add_of_nonneg_right nonneg)]
          exact lastReached_of_lt fun c member =>
            (add_lt_add_right narrow _).trans_le (ahead c member)
      | succ k =>
          rw [lastReached, ih apart reached]
          omega

/-- A time is just short of another one. -/
def ShortOf (short x a : τ) : Prop := a - short ≤ x ∧ x < a

/-- Once a stop was left, the last leg that started and the last stop that was reached name
the same stop. -/
theorem from_eq_lastReached (nonneg : 0 ≤ near) (narrow : near ≤ short) (wide : short ≤ least)
    (later : 0 < i) (left : t ≤ x + near) (same : seg.map Leg.from = some current)
    (before : current = i - 1)
    (clear : ∀ a ∈ arrivals t i stops, ¬ ShortOf short x a) :
    ((legs t i stops).foldl (fun seg leg => if leg.start ≤ x + near then some leg else seg)
      seg).map Leg.from = some (lastReached (x + short) current i (arrivals t i stops)) := by
  have positive : 0 ≤ least := nonneg.trans (narrow.trans wide)
  induction stops generalizing t i seg current with
  | nil => exact same
  | cons s stops ih =>
      have reached : arrival t i s = t + s.travel := if_pos later
      have clear' : ¬ ShortOf short x (arrival t i s) := clear _ List.mem_cons_self
      rw [legs, travelTo, if_pos later, arrivals, lastReached, List.singleton_append,
        List.foldl_cons, if_pos left, List.foldl_cons]
      change Option.map Leg.from (List.foldl _
        (if arrival t i s ≤ x + near then _ else _) _) = _
      rcases le_or_gt (arrival t i s) x with here | ahead
      · rw [if_pos (here.trans (le_add_of_nonneg_right nonneg)),
          if_pos (here.trans (le_add_of_nonneg_right (nonneg.trans narrow)))]
        rcases le_or_gt (departure t i s) (x + near) with gone | waiting
        · exact ih (Nat.succ_pos i) gone rfl rfl
            fun a member => clear a (List.mem_cons_of_mem _ member)
        · -- still at the stop: no later leg has started and no later stop is near
          rw [foldl_of_not_started, lastReached_of_lt]
          · rfl
          · intro a member
            calc x + short ≤ x + least := add_le_add_right wide x
              _ ≤ x + near + least := add_le_add_left (le_add_of_nonneg_right nonneg) least
              _ < departure t i s + least := add_lt_add_left waiting least
              _ ≤ a := add_least_le_of_mem_arrivals positive (Nat.succ_pos i) member
          · intro leg member
            exact waiting.trans_le (within_of_mem positive member).begins
      · have far : x + short < arrival t i s :=
          lt_sub_iff_add_lt.mp (not_le.mp fun close => clear' ⟨close, ahead⟩)
        have further : x + near < arrival t i s := (add_le_add_right narrow x).trans_lt far
        rw [if_neg (not_le.mpr further), if_neg (not_le.mpr far), foldl_of_not_started,
          lastReached_of_lt]
        · exact congrArg some before.symm
        · intro a member
          exact (far.trans_le (arrival_le_departure.trans
            ((le_add_of_nonneg_right positive).trans
              (add_least_le_of_mem_arrivals positive (Nat.succ_pos i) member))))
        · intro leg member
          exact further.trans_le
            (arrival_le_departure.trans (within_of_mem positive member).begins)

/-- From the first stop on, at a time of the itinerary. -/
theorem lastStarted_from_eq (nonneg : 0 ≤ near) (narrow : near ≤ short) (wide : short ≤ least)
    (nonempty : stops ≠ []) (begun : t ≤ x)
    (clear : ∀ a ∈ arrivals t 0 stops, ¬ ShortOf short x a) :
    (lastStarted (x + near) (legs t 0 stops)).map Leg.from =
      some (lastReached (x + short) 0 0 (arrivals t 0 stops)) := by
  have positive : 0 ≤ least := nonneg.trans (narrow.trans wide)
  cases stops with
  | nil => exact absurd rfl nonempty
  | cons s stops =>
      have reached : arrival t 0 s = t := rfl
      rw [lastStarted, legs, travelTo, if_neg (lt_irrefl 0), List.nil_append, List.foldl_cons,
        arrivals, lastReached]
      change Option.map Leg.from (List.foldl _
        (if arrival t 0 s ≤ x + near then _ else _) _) = _
      rw [reached, if_pos (begun.trans (le_add_of_nonneg_right nonneg)), ite_self]
      rcases le_or_gt (departure t 0 s) (x + near) with gone | waiting
      · exact from_eq_lastReached nonneg narrow wide Nat.one_pos gone rfl rfl
          fun a member => clear a (List.mem_cons_of_mem _ member)
      · rw [foldl_of_not_started, lastReached_of_lt]
        · rfl
        · intro a member
          calc x + short ≤ x + least := add_le_add_right wide x
            _ ≤ x + near + least := add_le_add_left (le_add_of_nonneg_right nonneg) least
            _ < departure t 0 s + least := add_lt_add_left waiting least
            _ ≤ a := add_least_le_of_mem_arrivals positive Nat.one_pos member
        · intro leg member
          exact waiting.trans_le (within_of_mem positive member).begins

end Agreement

end Itinerary
