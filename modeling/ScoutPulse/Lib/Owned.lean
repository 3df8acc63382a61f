import Mathlib.Data.List.Count
import Mathlib.Data.List.Nodup
import Mathlib.Data.Nat.Notation
import Mathlib.Tactic.TypeStar

/-!
# Tables of owned rows

The rows of a table in order of insertion, each with a key no other row has and an owner. A
request reads a row, is checked against its owner, and sends its statement later. What was
checked still holds then as long as no row with another owner has come in under the key, and
the rows of an owner no statement was checked for stay as they are.
-/

namespace Owned

variable {ρ κ υ : Type*} [DecidableEq κ] (key : ρ → κ) (owner : ρ → υ)

/-- The row at a key. -/
def find (k : κ) (rows : List ρ) : Option ρ := rows.find? fun r => key r = k

/-- `UPDATE` of the row at a key. -/
def modify (k : κ) (f : ρ → ρ) (rows : List ρ) : List ρ :=
  rows.map fun r => if key r = k then f r else r

/-- `DELETE` of the row at a key. -/
def remove (k : κ) (rows : List ρ) : List ρ := rows.filter fun r => key r ≠ k

/-- A caller who passed a check against the row at a key would pass it now. -/
def Checked (may : υ → Prop) (k : κ) (rows : List ρ) : Prop :=
  ∀ r ∈ rows, key r = k → may (owner r)

variable {key owner} {rows : List ρ} {k : κ} {f : ρ → ρ} {r : ρ} {may : υ → Prop}

/-- A row of the key is changed, and the others are there as they were. -/
theorem mem_modify {x : ρ} : x ∈ modify key k f rows ↔
    (∃ r ∈ rows, key r = k ∧ f r = x) ∨ (x ∈ rows ∧ key x ≠ k) := by
  rw [modify, List.mem_map]
  constructor
  · rintro ⟨r, member, rfl⟩
    by_cases same : key r = k
    · rw [if_pos same]
      exact .inl ⟨r, member, same, rfl⟩
    · rw [if_neg same]
      exact .inr ⟨member, same⟩
  · rintro (⟨r, member, same, rfl⟩ | ⟨member, other⟩)
    · exact ⟨r, member, if_pos same⟩
    · exact ⟨x, member, if_neg other⟩

/-- What depends on nothing a statement writes is the same for every row. -/
theorem map_modify {β : Type*} {p : ρ → β} (keeps : ∀ r, p (f r) = p r) :
    (modify key k f rows).map p = rows.map p := by
  rw [modify, List.map_map]
  refine List.map_congr_left fun r _ => ?_
  rw [Function.comp_apply]
  split
  · exact keeps r
  · rfl

theorem countP_modify {p : ρ → Bool} (keeps : ∀ r, p (f r) = p r) :
    (modify key k f rows).countP p = rows.countP p := by
  have same : ((modify key k f rows).map p).countP id = (rows.map p).countP id :=
    congrArg (List.countP id) (map_modify keeps)
  simpa [List.countP_map] using same

theorem countP_remove_le {p : ρ → Bool} : (remove key k rows).countP p ≤ rows.countP p :=
  List.filter_sublist.countP_le

theorem nodup_remove (nodup : (rows.map key).Nodup) : ((remove key k rows).map key).Nodup :=
  nodup.sublist (List.filter_sublist.map key)

omit [DecidableEq κ] in
/-- Keys stay different when a row with a free key comes in. -/
theorem nodup_insert (nodup : (rows.map key).Nodup) (free : ∀ x ∈ rows, key x ≠ key r) :
    ((rows ++ [r]).map key).Nodup := by
  rw [List.map_append, List.map_singleton, List.nodup_append]
  refine ⟨nodup, List.nodup_singleton _, fun a old b new => ?_⟩
  obtain ⟨x, member, rfl⟩ := List.mem_map.mp old
  obtain rfl := List.mem_singleton.mp new
  exact free x member

/-- Where keys are unique, what is found is what there is. -/
theorem eq_of_find (nodup : (rows.map key).Nodup) (found : find key k rows = some r) {x : ρ}
    (member : x ∈ rows) (at_ : key x = k) : x = r := by
  have there : key r = k := by simpa using List.find?_some found
  exact List.inj_on_of_nodup_map nodup member (List.mem_of_find?_eq_some found)
    (at_.trans there.symm)

theorem find_eq_none (absent : find key k rows = none) (member : r ∈ rows) : key r ≠ k := by
  simpa using List.find?_eq_none.mp absent r member

namespace Checked

theorem of_find (nodup : (rows.map key).Nodup) (found : find key k rows = some r)
    (passed : may (owner r)) : Checked key owner may k rows := by
  intro x member at_
  rw [eq_of_find nodup found member at_]
  exact passed

omit [DecidableEq κ] in
theorem sublist {rows' : List ρ} (checked : Checked key owner may k rows)
    (sub : rows'.Sublist rows) : Checked key owner may k rows' :=
  fun r member => checked r (sub.subset member)

/-- What has been checked is so when another row is changed. -/
theorem modify {k' : κ} (checked : Checked key owner may k rows) (same : ∀ r, key (f r) = key r)
    (kept : ∀ r, owner (f r) = owner r) : Checked key owner may k (modify key k' f rows) := by
  intro x member at_
  rcases mem_modify.mp member with ⟨r, old, -, rfl⟩ | ⟨old, -⟩
  · rw [kept]
    exact checked r old ((same r).symm.trans at_)
  · exact checked x old at_

omit [DecidableEq κ] in
/-- What has been checked is so when a row with another key comes in. -/
theorem insert (checked : Checked key owner may k rows) (elsewhere : key r ≠ k) :
    Checked key owner may k (rows ++ [r]) := by
  intro x member at_
  rcases List.mem_append.mp member with old | new
  · exact checked x old at_
  · obtain rfl := List.mem_singleton.mp new
    exact absurd at_ elsewhere

end Checked

section Frame

variable [DecidableEq υ] {u : υ}

/-- The rows of one owner. -/
def of (owner : ρ → υ) (u : υ) (rows : List ρ) : List ρ := rows.filter fun r => owner r = u

/-- A statement that was not checked for an owner leaves the owner's rows alone. -/
theorem of_modify (checked : Checked key owner (· ≠ u) k rows)
    (kept : ∀ r, owner (f r) = owner r) : of owner u (modify key k f rows) = of owner u rows := by
  rw [of, modify, List.filter_map]
  have same :
      rows.filter ((fun r => decide (owner r = u)) ∘ fun r => if key r = k then f r else r) =
        rows.filter fun r => owner r = u := by
    refine List.filter_congr fun r _ => ?_
    rw [Function.comp_apply]
    split
    · rw [kept]
    · rfl
  rw [same, of]
  refine (List.map_congr_left fun r member => ?_).trans (List.map_id _)
  obtain ⟨old, is⟩ := List.mem_filter.mp member
  rw [if_neg fun at_ => checked r old at_ (of_decide_eq_true is)]
  rfl

/-- A filter that keeps somebody's rows leaves them all. -/
theorem of_filter {p : ρ → Bool} (kept : ∀ r ∈ rows, owner r = u → p r = true) :
    of owner u (rows.filter p) = of owner u rows := by
  rw [of, of, List.filter_filter]
  refine List.filter_congr fun r member => ?_
  by_cases is : owner r = u
  · simp [is, kept r member is]
  · simp [is]

theorem of_remove (checked : Checked key owner (· ≠ u) k rows) :
    of owner u (remove key k rows) = of owner u rows :=
  of_filter fun r member is => decide_eq_true fun at_ => checked r member at_ is

theorem of_insert (other : owner r ≠ u) : of owner u (rows ++ [r]) = of owner u rows := by
  simp [of, List.filter_append, other]

end Frame

end Owned
