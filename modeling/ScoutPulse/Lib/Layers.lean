import Mathlib.Data.List.Basic
import Mathlib.Data.List.InsertIdx
import Mathlib.Data.Nat.Notation
import Mathlib.Tactic.SplitIfs
import Mathlib.Tactic.TypeStar

/-!
# Layered maps

A list of layers, each of which gives some keys a value. What is shown after some number
of them is, at each key, the value of the latest of those layers that has one. An empty
layer may be put in anywhere, a layer may be merged into the next one, and a sequence of
maps may be stored as layers that hold only what differs from the map before.
-/

namespace Layers

variable {β γ ι α : Type*} (read : β → ι → Option α) (readOther : γ → ι → Option α)

/-- What one of the layers holds at a key. -/
def layer (layers : List β) (k : ℕ) (i : ι) : Option α := layers[k]?.bind (read · i)

/-- What is shown at a key after some number of the layers. -/
def shown (layers : List β) : ℕ → ι → Option α
  | 0, _ => none
  | k + 1, i => (layer read layers k i).or (shown layers k i)

variable {read readOther} {layers xs : List β} {ys : List γ} {k m a b : ℕ} {i : ι}

@[simp] theorem shown_zero : shown read layers 0 i = none := rfl

theorem shown_succ : shown read layers (k + 1) i =
    (layer read layers k i).or (shown read layers k i) := rfl

theorem layer_of_getElem? {value : β} (found : layers[k]? = some value) :
    layer read layers k i = read value i := by
  rw [layer, found, Option.bind_some]

/-- Layers that agree from some place on show the same from there on, when they show the
same there. -/
theorem shown_add (start : shown read xs a i = shown readOther ys b i)
    (same : ∀ j < m, layer read xs (a + j) i = layer readOther ys (b + j) i) :
    shown read xs (a + m) i = shown readOther ys (b + m) i := by
  induction m with
  | zero => exact start
  | succ m ih =>
      have before := ih fun j below => same j (Nat.lt_succ_of_lt below)
      rw [← Nat.add_assoc, ← Nat.add_assoc, shown_succ, shown_succ, before,
        same m (Nat.lt_succ_self m)]

/-- What is shown depends on the layers before it only. -/
theorem shown_congr (same : ∀ j < k, layer read xs j i = layer readOther ys j i) :
    shown read xs k i = shown readOther ys k i := by
  have whole : shown read xs (0 + k) i = shown readOther ys (0 + k) i :=
    shown_add rfl (by simpa using same)
  simpa using whole

/-- Nothing is shown at a key no layer so far has a value for. -/
theorem shown_eq_none_iff : shown read layers k i = none ↔
    ∀ j < k, layer read layers j i = none := by
  induction k with
  | zero => simp
  | succ k ih =>
      rw [shown_succ, Option.or_eq_none_iff, ih]
      constructor
      · intro both j below
        rcases Nat.lt_succ_iff_lt_or_eq.mp below with earlier | rfl
        · exact both.2 j earlier
        · exact both.1
      · intro all
        exact ⟨all k (Nat.lt_succ_self k), fun j below => all j (Nat.lt_succ_of_lt below)⟩

/-- What is shown is what one of the layers has. -/
theorem exists_of_shown {v : α} (found : shown read layers k i = some v) :
    ∃ j < k, layer read layers j i = some v := by
  induction k with
  | zero => cases found
  | succ k ih =>
      rw [shown_succ, Option.or_eq_some_iff] at found
      rcases found with here | ⟨-, before⟩
      · exact ⟨k, Nat.lt_succ_self k, here⟩
      · obtain ⟨j, below, there⟩ := ih before
        exact ⟨j, Nat.lt_succ_of_lt below, there⟩

/-- A key that shows nothing after some layers showed nothing before. -/
theorem shown_eq_none_of_le (before : k ≤ m) (absent : shown read layers m i = none) :
    shown read layers k i = none := by
  rw [shown_eq_none_iff] at absent ⊢
  intro j below
  exact absent j (Nat.lt_of_lt_of_le below before)

section Insert

variable {extra : β}

theorem layer_insertIdx_of_lt (before : k < a) :
    layer read (layers.insertIdx a extra) k i = layer read layers k i := by
  rw [layer, layer, List.getElem?_insertIdx_of_lt before]

theorem layer_insertIdx_self (within : a ≤ layers.length) :
    layer read (layers.insertIdx a extra) a i = read extra i := by
  apply layer_of_getElem?
  rw [List.getElem?_insertIdx_self, if_pos within]

theorem layer_insertIdx_of_gt (after : a < k) :
    layer read (layers.insertIdx a extra) k i = layer read layers (k - 1) i := by
  rw [layer, layer, List.getElem?_insertIdx_of_gt after]

/-- A new layer changes nothing before it. -/
theorem shown_insertIdx_of_le (before : k ≤ a) :
    shown read (layers.insertIdx a extra) k i = shown read layers k i :=
  shown_congr fun _ below => layer_insertIdx_of_lt (Nat.lt_of_lt_of_le below before)

/-- A new empty layer shows what the layers before it show, and changes nothing after it
but the count. -/
theorem shown_insertIdx_succ (within : a ≤ layers.length) (empty : read extra i = none)
    (after : a ≤ k) :
    shown read (layers.insertIdx a extra) (k + 1) i = shown read layers k i := by
  obtain ⟨m, rfl⟩ := Nat.exists_eq_add_of_le after
  have there : shown read (layers.insertIdx a extra) (a + 1) i = shown read layers a i := by
    rw [shown_succ, layer_insertIdx_self within, empty, Option.none_or,
      shown_insertIdx_of_le (Nat.le_refl a)]
  rw [Nat.add_right_comm]
  apply shown_add there
  intro j _
  rw [layer_insertIdx_of_gt (by omega)]
  congr 1
  omega

end Insert

section Merge

variable (before : ∀ j < a, layer readOther ys j i = layer read xs j i)

include before

/-- Taking a layer out changes nothing before it. -/
theorem shown_merge_of_le (early : k ≤ a) : shown readOther ys k i = shown read xs k i :=
  shown_congr fun j below => before j (Nat.lt_of_lt_of_le below early)

/-- A layer merged under the next one is no longer counted, and nothing after it changes. -/
theorem shown_merge_of_gt
    (merged : layer readOther ys a i = (layer read xs (a + 1) i).or (layer read xs a i))
    (after : ∀ j, a < j → layer readOther ys j i = layer read xs (j + 1) i) (late : a < k) :
    shown readOther ys k i = shown read xs (k + 1) i := by
  obtain ⟨m, rfl⟩ := Nat.exists_eq_add_of_le (Nat.succ_le_of_lt late)
  have there : shown readOther ys (a + 1) i = shown read xs (a + 1 + 1) i := by
    rw [shown_succ, shown_succ, shown_succ, merged, shown_merge_of_le before (Nat.le_refl a),
      Option.or_assoc]
  have rest := shown_add (m := m) there fun j _ => by
    rw [after (a + 1 + j) (by omega)]
    congr 1
    omega
  rw [rest]
  congr 1
  omega

end Merge

section Differences

/-- A layer that stores a map beside the one before it: it holds the map's own value at a key,
or nothing where the map before has the same. -/
def Stores (earlier here layer : Option α) : Prop :=
  layer = here ∨ layer = none ∧ earlier = here

/-- The map before the one with some index. -/
def earlier (maps : ℕ → ι → Option α) : ℕ → ι → Option α
  | 0, _ => none
  | k + 1, i => maps k i

variable {maps : ℕ → ι → Option α}

/-- Maps stored as differences show, at each of them, its own value and where it has none
what the ones before it show. -/
theorem shown_difference
    (stored : ∀ j < k + 1, Stores (earlier maps j i) (maps j i) (layer read xs j i)) :
    shown read xs (k + 1) i = (maps k i).or (shown read xs k i) := by
  induction k with
  | zero =>
      rcases stored 0 (Nat.lt_succ_self 0) with own | ⟨nothing, absent⟩
      · rw [shown_succ, own]
      · rw [shown_succ, nothing, ← absent]
        rfl
  | succ k ih =>
      have before := ih fun j below => stored j (Nat.lt_succ_of_lt below)
      rcases stored (k + 1) (Nat.lt_succ_self _) with own | ⟨nothing, same⟩
      · rw [shown_succ, own]
      · rw [earlier] at same
        rw [shown_succ, nothing, Option.none_or, before, same, ← Option.or_assoc, Option.or_self]

/-- A map stored as differences shows nothing exactly where none of the maps so far has a
value. -/
theorem shown_difference_eq_none
    (stored : ∀ j < k, Stores (earlier maps j i) (maps j i) (layer read xs j i)) :
    shown read xs k i = none ↔ ∀ j < k, maps j i = none := by
  induction k with
  | zero => simp
  | succ k ih =>
      rw [shown_difference stored, Option.or_eq_none_iff,
        ih fun j below => stored j (Nat.lt_succ_of_lt below)]
      constructor
      · intro both j below
        rcases Nat.lt_succ_iff_lt_or_eq.mp below with sooner | rfl
        · exact both.2 j sooner
        · exact both.1
      · intro all
        exact ⟨all k (Nat.lt_succ_self k), fun j below => all j (Nat.lt_succ_of_lt below)⟩

/-- Maps stored as differences are shown as they were exactly where a value, once there,
stays. -/
theorem shown_difference_eq_iff
    (stored : ∀ j < k + 1, Stores (earlier maps j i) (maps j i) (layer read xs j i)) :
    shown read xs (k + 1) i = maps k i ↔ (maps k i = none → ∀ j < k, maps j i = none) := by
  rw [shown_difference stored]
  have before := shown_difference_eq_none fun j below => stored j (Nat.lt_succ_of_lt below)
  cases value : maps k i with
  | none => rw [Option.none_or, before]; simp
  | some v => simp

end Differences

section Move

/-- Where an element lands when one of them is moved to another place. -/
def landing (origin target k : ℕ) : ℕ :=
  if k = origin then target
  else if origin < k ∧ k ≤ target then k - 1
  else if target ≤ k ∧ k < origin then k + 1
  else k

/-- The elements with one of them moved to another place. -/
def moved (xs : List β) (origin target : ℕ) : List β :=
  match xs[origin]? with
  | none => xs
  | some x => (xs.eraseIdx origin).insertIdx target x

theorem length_moved (inside : target < xs.length) {origin : ℕ} :
    (moved xs origin target).length = xs.length := by
  unfold moved
  cases found : xs[origin]? with
  | none => rfl
  | some x =>
      obtain ⟨within, -⟩ := List.getElem?_eq_some_iff.mp found
      have shorter := List.length_eraseIdx_of_lt within
      rw [List.length_insertIdx_of_le_length (by omega)]
      omega

variable {origin target : ℕ}

theorem mem_of_mem_moved {x : β} (member : x ∈ moved xs origin target) : x ∈ xs := by
  unfold moved at member
  split at member
  · exact member
  · rename_i y found
    rcases List.mem_cons.mp (List.insertIdx_subset_cons target y _ member) with rfl | old
    · exact List.mem_of_getElem? found
    · exact List.mem_of_mem_eraseIdx old

/-- The reverse move lands every element where it was. -/
@[simp] theorem landing_landing : landing target origin (landing origin target k) = k := by
  unfold landing
  split_ifs <;> omega

@[simp] theorem landing_self : landing origin origin k = k := by
  unfold landing
  split_ifs <;> omega

theorem landing_lt {n : ℕ} (from_ : origin < n) (to_ : target < n) (inside : k < n) :
    landing origin target k < n := by
  unfold landing
  split_ifs <;> omega

/-- Each place holds the element the reverse move would take from there. -/
theorem getElem?_moved (from_ : origin < xs.length) (to_ : target < xs.length) :
    (moved xs origin target)[k]? = xs[landing target origin k]? := by
  have shorter := List.length_eraseIdx_of_lt from_
  rw [moved, List.getElem?_eq_getElem from_]
  unfold landing
  rcases Nat.lt_trichotomy k target with sooner | rfl | later
  · rw [List.getElem?_insertIdx_of_lt sooner]
    by_cases kept : k < origin
    · rw [List.getElem?_eraseIdx_of_lt kept, if_neg (by omega), if_neg (by omega),
        if_neg (by omega)]
    · rw [List.getElem?_eraseIdx_of_ge (by omega), if_neg (by omega), if_neg (by omega),
        if_pos (by omega)]
  · rw [List.getElem?_insertIdx_self, if_pos (by omega), if_pos rfl,
      List.getElem?_eq_getElem from_]
  · rw [List.getElem?_insertIdx_of_gt later]
    by_cases kept : origin < k
    · rw [List.getElem?_eraseIdx_of_ge (by omega), if_neg (by omega), if_neg (by omega),
        if_neg (by omega)]
      congr 1
      omega
    · rw [List.getElem?_eraseIdx_of_lt (by omega), if_neg (by omega), if_pos (by omega)]

end Move

end Layers
