import Mathlib.Data.List.AList
import Mathlib.Data.List.Induction
import Mathlib.Data.Nat.Notation
import Mathlib.Tactic.TypeStar

/-!
# Records keyed by strings

A record gives some strings a value. Beside what association lists bring, a record may be
cut down to the members that pass a test, and filled from a list of items some of which
have a value: of the items with one key, the last that has a value counts.
-/

/-- Values by string. -/
abbrev Record (α : Type*) := AList fun _ : String => α

namespace Record

variable {α : Type*}

/-- Equality of records by their members, which evaluates. -/
instance [DecidableEq α] : DecidableEq (Record α) := fun r s =>
  decidable_of_iff (r.entries = s.entries) AList.ext_iff.symm

/-- The members that pass a test. -/
def select (keep : String → α → Bool) (r : Record α) : Record α where
  entries := r.entries.filter fun e => keep e.1 e.2
  nodupKeys := r.nodupKeys.sublist List.filter_sublist

variable {keep : String → α → Bool} {r s : Record α} {key : String} {value : α}

theorem lookup_select_eq_some : (r.select keep).lookup key = some value ↔
    r.lookup key = some value ∧ keep key value = true := by
  rw [← Option.mem_def, ← Option.mem_def, AList.mem_lookup_iff, AList.mem_lookup_iff, select,
    List.mem_filter]

theorem mem_of_mem_select (member : key ∈ r.select keep) : key ∈ r := by
  obtain ⟨value, found⟩ := Option.isSome_iff_exists.mp (AList.lookup_isSome.mpr member)
  rw [← AList.lookup_isSome, (lookup_select_eq_some.mp found).1]
  rfl

/-- Every member that is left passed the test. -/
theorem exists_keep_of_mem_select (member : key ∈ r.select keep) :
    ∃ value, keep key value = true := by
  obtain ⟨value, found⟩ := Option.isSome_iff_exists.mp (AList.lookup_isSome.mpr member)
  exact ⟨value, (lookup_select_eq_some.mp found).2⟩

/-- The members of the first record hide those of the second. -/
theorem lookup_union : (r ∪ s).lookup key = (r.lookup key).or (s.lookup key) := by
  by_cases member : key ∈ r
  · obtain ⟨value, found⟩ := Option.isSome_iff_exists.mp (AList.lookup_isSome.mpr member)
    rw [AList.lookup_union_left member, found, Option.some_or]
  · rw [AList.lookup_union_right member, AList.lookup_eq_none.mpr member, Option.none_or]

/-! ## Filling a record -/

/-- Sets a key to a value, if there is one. -/
def assign (r : Record α) (key : String) : Option α → Record α
  | some value => r.insert key value
  | none => r

theorem lookup_assign_self {found : Option α} :
    (r.assign key found).lookup key = found.or (r.lookup key) := by
  cases found with
  | none => rfl
  | some value => exact AList.lookup_insert r

theorem lookup_assign_of_ne {found : Option α} {other : String} (differ : other ≠ key) :
    (r.assign key found).lookup other = r.lookup other := by
  cases found with
  | none => rfl
  | some value => exact AList.lookup_insert_ne differ

section Filling

variable {β : Type*} {items : List β}

/-- A value of the filled record is the value of an item. -/
theorem exists_of_lookup_foldl_assign {keyOf : β → String} {valueOf : β → Option α}
    (found : (items.foldl (fun out item => assign out (keyOf item) (valueOf item)) ∅).lookup key =
      some value) :
    ∃ item ∈ items, keyOf item = key ∧ valueOf item = some value := by
  induction items using List.reverseRecOn with
  | nil => simp at found
  | append_singleton items last ih =>
      rw [List.foldl_concat] at found
      have earlier : (items.foldl
          (fun out item => assign out (keyOf item) (valueOf item)) ∅).lookup key = some value →
          ∃ item ∈ items ++ [last], keyOf item = key ∧ valueOf item = some value := fun before =>
        let ⟨item, member, made⟩ := ih before
        ⟨item, List.mem_append_left _ member, made⟩
      by_cases same : keyOf last = key
      · rw [same, lookup_assign_self, Option.or_eq_some_iff] at found
        rcases found with given | ⟨-, before⟩
        · exact ⟨last, List.mem_append_right _ (List.mem_singleton_self _), same, given⟩
        · exact earlier before
      · rw [lookup_assign_of_ne (Ne.symm same)] at found
        exact earlier found

/-- An item that has a value leaves one under its key, of the last item that is like it. -/
theorem exists_lookup_foldl_assign (keyOf : β → String) (valueOf : β → Option α) {item : β}
    (member : item ∈ items)
    (given : valueOf item ≠ none) : ∃ last ∈ items, keyOf last = keyOf item ∧
      ∃ value, valueOf last = some value ∧
        (items.foldl (fun out item => assign out (keyOf item) (valueOf item)) ∅).lookup
          (keyOf item) = some value := by
  induction items using List.reverseRecOn with
  | nil => cases member
  | append_singleton items last ih =>
      rw [List.foldl_concat]
      by_cases own : keyOf last = keyOf item ∧ valueOf last ≠ none
      · obtain ⟨value, found⟩ := Option.ne_none_iff_exists'.mp own.2
        refine ⟨last, List.mem_append_right _ (List.mem_singleton_self _), own.1, value, found, ?_⟩
        rw [← own.1, lookup_assign_self, found, Option.some_or]
      · have before : item ∈ items := by
          rcases List.mem_append.mp member with before | here
          · exact before
          · cases List.mem_singleton.mp here
            exact absurd ⟨rfl, given⟩ own
        obtain ⟨other, placed, same, value, found, kept⟩ := ih before
        refine ⟨other, List.mem_append_left _ placed, same, value, found, ?_⟩
        by_cases key : keyOf last = keyOf item
        · have none : valueOf last = none := not_not.mp fun some => own ⟨key, some⟩
          rw [none]
          exact kept
        · rw [lookup_assign_of_ne (Ne.symm key)]
          exact kept

end Filling

end Record
