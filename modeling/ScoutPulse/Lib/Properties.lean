import Mathlib.Data.List.Nodup
import Mathlib.Tactic.SplitIfs
import Mathlib.Tactic.TypeStar

/-!
# Objects whose properties are ordered

An object has each of its properties once and remembers the order in which they were
created. Setting a property that is there leaves it in its place, and a new one comes last;
an object spread over another one sets its properties in turn.
-/

/-- The properties of an object, in the order they were created. -/
@[ext]
structure Properties (κ α : Type*) where
  entries : List (κ × α)
  nodup : (entries.map Prod.fst).Nodup

namespace Properties

section Entries

variable {κ α : Type*} [DecidableEq κ]

/-- Properties with one of them set. -/
def setEntry (key : κ) (value : α) : List (κ × α) → List (κ × α)
  | [] => [(key, value)]
  | entry :: rest =>
      if entry.1 = key then (key, value) :: rest else entry :: setEntry key value rest

variable {key k : κ} {value v : α} {entries front : List (κ × α)}

/-- Setting a key puts it last where it is new. -/
theorem map_fst_setEntry : (setEntry key value entries).map Prod.fst =
    if key ∈ entries.map Prod.fst then entries.map Prod.fst
    else entries.map Prod.fst ++ [key] := by
  induction entries with
  | nil => rfl
  | cons entry rest ih =>
      rw [setEntry]
      split_ifs with here inside inside
      · rw [List.map_cons, List.map_cons, here]
      · exact absurd (here ▸ List.mem_cons_self) inside
      · rw [List.map_cons, ih, if_pos ((List.mem_cons.mp inside).resolve_left (Ne.symm here)),
          List.map_cons]
      · rw [List.map_cons, ih, if_neg (List.not_mem_of_not_mem_cons inside), List.map_cons,
          List.cons_append]

/-- What does not have the property keeps its place in front of it. -/
theorem setEntry_append (absent : key ∉ front.map Prod.fst) :
    setEntry key value (front ++ entries) = front ++ setEntry key value entries := by
  induction front with
  | nil => rfl
  | cons entry front ih =>
      rw [List.map_cons, List.mem_cons, not_or] at absent
      rw [List.cons_append, setEntry, if_neg (Ne.symm absent.1), ih absent.2, List.cons_append]

/-- A key is looked up in the first entry before the rest. -/
theorem lookup_cons : ((k, v) :: entries).lookup key =
    if key = k then some v else entries.lookup key := by
  rw [List.lookup_cons]
  split_ifs with same
  · rw [beq_iff_eq.mpr same]
  · rw [beq_eq_false_iff_ne.mpr same]

/-- Setting a key to what it has changes nothing. -/
theorem setEntry_of_lookup (found : entries.lookup key = some value) :
    setEntry key value entries = entries := by
  induction entries with
  | nil => cases found
  | cons entry rest ih =>
      obtain ⟨k, v⟩ := entry
      rw [lookup_cons] at found
      rw [setEntry]
      split_ifs with here
      · rw [if_pos here.symm] at found
        cases here
        cases found
        rfl
      · rw [if_neg (Ne.symm here)] at found
        rw [ih found]

/-- A key that is set is looked up as set, and the others as before. -/
theorem lookup_setEntry :
    (setEntry key value entries).lookup k = if k = key then some value else entries.lookup k := by
  induction entries with
  | nil => exact lookup_cons
  | cons entry rest ih =>
      obtain ⟨first, v⟩ := entry
      rw [setEntry]
      split_ifs with here same same
      · rw [lookup_cons, if_pos same]
      · cases here
        rw [lookup_cons, if_neg same, lookup_cons, if_neg same]
      · rw [lookup_cons, if_neg (same ▸ Ne.symm here), ih, if_pos same]
      · rw [lookup_cons, lookup_cons, ih, if_neg same]

/-- An entry after a key is set is that one, or was there. -/
theorem mem_setEntry {entry : κ × α} (member : entry ∈ setEntry key value entries) :
    entry = (key, value) ∨ entry ∈ entries := by
  induction entries with
  | nil => exact .inl (List.mem_singleton.mp member)
  | cons first rest ih =>
      rw [setEntry] at member
      split_ifs at member with here
      · rcases List.mem_cons.mp member with new | old
        · exact .inl new
        · exact .inr (List.mem_cons_of_mem _ old)
      · rcases List.mem_cons.mp member with old | later
        · exact .inr (old ▸ List.mem_cons_self)
        · exact (ih later).imp_right (List.mem_cons_of_mem _)

/-- With each key once, a lookup finds the entries there are. -/
theorem lookup_eq_some_iff_mem (nodup : (entries.map Prod.fst).Nodup) :
    entries.lookup key = some value ↔ (key, value) ∈ entries := by
  induction entries with
  | nil => simp
  | cons entry rest ih =>
      obtain ⟨first, v⟩ := entry
      rw [List.map_cons, List.nodup_cons] at nodup
      rw [lookup_cons, List.mem_cons, Prod.mk.injEq]
      split_ifs with same
      · have later : (key, value) ∉ rest := fun member =>
          nodup.1 (List.mem_map.mpr ⟨(key, value), member, same⟩)
        rw [Option.some.injEq, or_iff_left later, and_iff_right same, eq_comm]
      · rw [ih nodup.2, or_iff_right fun here => same here.1]

/-- Entries set in turn over ones whose keys they begin with: what has been set is in its
place, and what is left of the old ones comes after it. -/
theorem foldl_setEntry_of_prefix {top old done : List (κ × α)}
    (first : old.map Prod.fst <+: top.map Prod.fst)
    (nodup : (done.map Prod.fst ++ top.map Prod.fst).Nodup) :
    top.foldl (fun entries entry => setEntry entry.1 entry.2 entries) (done ++ old) =
      done ++ top := by
  induction top generalizing old done with
  | nil =>
      rw [List.map_nil, List.prefix_nil, List.map_eq_nil_iff] at first
      rw [first, List.foldl_nil]
  | cons entry top ih =>
      obtain ⟨key, value⟩ := entry
      have absent : key ∉ done.map Prod.fst := fun member =>
        List.disjoint_of_nodup_append nodup member List.mem_cons_self
      have next : ((done ++ [(key, value)]).map Prod.fst ++ top.map Prod.fst).Nodup := by
        rw [List.map_append, List.append_assoc]
        exact nodup
      rw [List.foldl_cons, setEntry_append absent]
      cases old with
      | nil =>
          have none_ : ([] : List (κ × α)).map Prod.fst <+: top.map Prod.fst := List.nil_prefix
          have rest := ih none_ next
          rw [List.append_nil] at rest
          rw [setEntry, rest, List.append_assoc, List.singleton_append]
      | cons before old =>
          rw [List.map_cons, List.map_cons, List.cons_prefix_cons] at first
          have rest := ih first.2 next
          rw [List.append_assoc, List.append_assoc, List.singleton_append,
            List.singleton_append] at rest
          rw [setEntry, if_pos first.1, rest]

omit [DecidableEq κ] in
/-- Entries that are picked keep their keys in order. -/
theorem map_fst_filterMap {β : Type*} {pick : κ → α → Option β}
    (picked : ∀ entry ∈ entries, (pick entry.1 entry.2).isSome) :
    (entries.filterMap fun entry => (pick entry.1 entry.2).map (entry.1, ·)).map Prod.fst =
      entries.map Prod.fst := by
  induction entries with
  | nil => rfl
  | cons entry rest ih =>
      rw [List.forall_mem_cons] at picked
      obtain ⟨b, made⟩ := Option.isSome_iff_exists.mp picked.1
      rw [List.filterMap_cons, made, Option.map_some, List.map_cons, List.map_cons, ih picked.2]

end Entries

variable {κ : Type*} [DecidableEq κ] {α β : Type*}

/-- The names of the properties, in order. -/
def keys (o : Properties κ α) : List κ := o.entries.map Prod.fst

def get? (o : Properties κ α) (key : κ) : Option α := o.entries.lookup key

instance : EmptyCollection (Properties κ α) := ⟨⟨[], List.nodup_nil⟩⟩

/-- `o[key] = value`, and `{...o, [key]: value}`. -/
def put (o : Properties κ α) (key : κ) (value : α) : Properties κ α where
  entries := setEntry key value o.entries
  nodup := by
    rw [map_fst_setEntry]
    split_ifs with old
    · exact o.nodup
    · rw [← List.concat_eq_append]
      exact o.nodup.concat old

/-- `{...o, ...over}`. -/
def assign (o : Properties κ α) (top : List (κ × α)) : Properties κ α :=
  top.foldl (fun o entry => o.put entry.1 entry.2) o

/-- The object some properties make, set in turn. -/
def ofList (entries : List (κ × α)) : Properties κ α := assign ∅ entries

/-- The properties that are given a value, in the order they were in. -/
def choose (pick : κ → α → Option β) (o : Properties κ α) : Properties κ β where
  entries := o.entries.filterMap fun entry => (pick entry.1 entry.2).map (entry.1, ·)
  nodup := by
    have inside : ((o.entries.filterMap fun entry => (pick entry.1 entry.2).map
        (entry.1, ·)).map Prod.fst).Sublist (o.entries.map Prod.fst) := by
      generalize o.entries = entries
      induction entries with
      | nil => exact .slnil
      | cons entry rest ih =>
          rw [List.filterMap_cons]
          cases picked : pick entry.1 entry.2 with
          | none => exact ih.cons _
          | some value => exact ih.cons_cons _
    exact o.nodup.sublist inside

/-- `delete o[key]`. -/
def erase (o : Properties κ α) (key : κ) : Properties κ α :=
  o.choose fun k v => if k = key then none else some v

/-- An object all of whose properties have a value. -/
def present (o : Properties κ α) : Properties κ (Option α) := o.choose fun _ v => some (some v)

/-- The properties that have a value. -/
def written (o : Properties κ (Option α)) : Properties κ α := o.choose fun _ v => v

variable {o p : Properties κ α} {key k : κ} {value v : α} {base : List κ}
  {top : List (κ × α)}

theorem get?_eq_some_iff : o.get? key = some value ↔ (key, value) ∈ o.entries :=
  lookup_eq_some_iff_mem o.nodup

/-- The order of the entries of an object does not matter to a lookup. -/
theorem lookup_reverse : o.entries.reverse.lookup key = o.get? key := by
  have nodup : (o.entries.reverse.map Prod.fst).Nodup := by
    rw [List.map_reverse, List.nodup_reverse]
    exact o.nodup
  apply Option.ext
  intro value
  rw [lookup_eq_some_iff_mem nodup, List.mem_reverse, get?_eq_some_iff]

@[simp] theorem get?_put : (o.put key value).get? k = if k = key then some value else o.get? k :=
  lookup_setEntry

/-- A new property comes last. -/
theorem entries_put (absent : key ∉ o.keys) :
    (o.put key value).entries = o.entries ++ [(key, value)] := by
  have appended : setEntry key value (o.entries ++ []) = o.entries ++ setEntry key value [] :=
    setEntry_append absent
  rw [List.append_nil] at appended
  exact appended

theorem put_of_get? (found : o.get? key = some value) : o.put key value = o :=
  Properties.ext (setEntry_of_lookup found)

/-- A property that is chosen is what is picked of it. -/
theorem get?_choose {pick : κ → α → Option β} :
    (o.choose pick).get? key = (o.get? key).bind (pick key) := by
  apply Option.ext
  intro b
  rw [get?_eq_some_iff, Option.bind_eq_some_iff]
  simp only [choose, List.mem_filterMap, Option.map_eq_some_iff, Prod.mk.injEq]
  constructor
  · rintro ⟨⟨first, v⟩, member, b', picked, rfl, rfl⟩
    exact ⟨v, get?_eq_some_iff.mpr member, picked⟩
  · rintro ⟨v, found, picked⟩
    exact ⟨(key, v), get?_eq_some_iff.mp found, b, picked, rfl, rfl⟩

theorem exists_get? (member : key ∈ o.keys) : ∃ value, o.get? key = some value := by
  obtain ⟨⟨first, value⟩, entry, rfl⟩ := List.mem_map.mp member
  exact ⟨value, get?_eq_some_iff.mpr entry⟩

/-- What was set last counts. -/
theorem get?_assign :
    (o.assign top).get? key = (top.reverse.lookup key).or (o.get? key) := by
  induction top generalizing o with
  | nil => rfl
  | cons entry top ih =>
      have rest := ih (o := o.put entry.1 entry.2)
      rw [List.reverse_cons, List.lookup_append, Option.or_assoc, lookup_cons]
      rw [get?_put] at rest
      refine rest.trans ?_
      split_ifs <;> rfl

/-- A property that nothing is laid over is as before. -/
theorem get?_assign_of_notMem (absent : key ∉ top.map Prod.fst) :
    (o.assign top).get? key = o.get? key := by
  have none_ : top.reverse.lookup key = none := by
    rw [List.lookup_eq_none_iff]
    intro entry member
    rw [bne_iff_ne]
    exact fun same => absent (same ▸ List.mem_map_of_mem (List.mem_reverse.mp member))
  rw [get?_assign, none_, Option.none_or]

/-! ## The properties an object begins with -/

theorem prefix_put (first : base <+: o.keys) : base <+: (o.put key value).keys := by
  rw [keys, put, map_fst_setEntry]
  split_ifs
  · exact first
  · exact first.trans (List.prefix_append _ _)

theorem prefix_assign (first : base <+: o.keys) : base <+: (o.assign top).keys := by
  induction top generalizing o with
  | nil => exact first
  | cons entry top ih => exact ih (prefix_put first)

omit [DecidableEq κ] in
/-- Properties that are picked keep their place. -/
theorem prefix_choose {pick : κ → α → Option β} (first : base <+: o.keys)
    (picked : ∀ entry ∈ o.entries, entry.1 ∈ base → (pick entry.1 entry.2).isSome) :
    base <+: (o.choose pick).keys := by
  obtain ⟨rest, split⟩ := first
  obtain ⟨front, back, cut, here, -⟩ := List.map_eq_append_iff.mp split.symm
  have all : ∀ entry ∈ front, (pick entry.1 entry.2).isSome := fun entry member =>
    picked entry (cut ▸ List.mem_append_left back member)
      (here ▸ List.mem_map_of_mem member)
  simp only [keys, choose, cut, List.filterMap_append, List.map_append, map_fst_filterMap all, here]
  exact List.prefix_append _ _

theorem entries_assign : (o.assign top).entries =
    top.foldl (fun entries entry => setEntry entry.1 entry.2 entries) o.entries := by
  induction top generalizing o with
  | nil => rfl
  | cons entry top ih => exact ih

/-- An object spread over one whose properties it begins with. -/
theorem assign_of_prefix (first : o.keys <+: p.keys) : o.assign p.entries = p := by
  apply Properties.ext
  rw [entries_assign]
  have nothing : (([] : List (κ × α)).map Prod.fst ++ p.keys).Nodup := p.nodup
  exact foldl_setEntry_of_prefix first nothing

@[simp] theorem ofList_entries : ofList o.entries = o :=
  assign_of_prefix List.nil_prefix

/-! ## What holds of every property -/

/-- Every property and its value are related. -/
def All (R : κ → α → Prop) (o : Properties κ α) : Prop := ∀ entry ∈ o.entries, R entry.1 entry.2

variable {R : κ → α → Prop}

theorem All.get? (all : o.All R) (found : o.get? key = some value) : R key value :=
  all (key, value) (get?_eq_some_iff.mp found)

theorem All.put (all : o.All R) (new : R key value) : (o.put key value).All R := by
  intro entry member
  rcases mem_setEntry member with rfl | old
  · exact new
  · exact all entry old

/-- What holds of all properties holds when others are laid over of which it holds. -/
theorem All.assign (all : o.All R) (new : ∀ entry ∈ top, R entry.1 entry.2) :
    (o.assign top).All R := by
  induction top generalizing o with
  | nil => exact all
  | cons entry top ih =>
      rw [List.forall_mem_cons] at new
      exact ih (all.put new.1) new.2

omit [DecidableEq κ] in
/-- What holds of all properties is carried along by choosing. -/
theorem All.choose {pick : κ → α → Option β} {S : κ → β → Prop} (all : o.All R)
    (keeps : ∀ {key value b}, R key value → pick key value = some b → S key b) :
    (o.choose pick).All S := by
  intro entry member
  obtain ⟨source, old, made⟩ := List.mem_filterMap.mp member
  obtain ⟨b, picked, rfl⟩ := Option.map_eq_some_iff.mp made
  exact keeps (all source old) picked

/-! ## Properties without a value -/

omit [DecidableEq κ] in
theorem entries_present :
    o.present.entries = o.entries.map fun entry => (entry.1, some entry.2) := by
  simp [present, choose]

omit [DecidableEq κ] in
@[simp] theorem keys_present : o.present.keys = o.keys := by
  rw [keys, entries_present, List.map_map]
  rfl

theorem get?_present : o.present.get? key = (o.get? key).map some := by
  rw [present, get?_choose]
  cases o.get? key <;> rfl

theorem get?_written {o : Properties κ (Option α)} : o.written.get? key = (o.get? key).join := by
  rw [written, get?_choose]
  cases o.get? key <;> rfl

omit [DecidableEq κ] in
@[simp] theorem written_present : o.present.written = o := by
  apply Properties.ext
  simp [written, present, choose]

omit [DecidableEq κ] in
/-- An object of which nothing is undefined. -/
theorem present_written {o : Properties κ (Option α)} (all : o.All fun _ v => v.isSome) :
    o.written.present = o := by
  apply Properties.ext
  rw [entries_present, written, choose, List.map_filterMap]
  have whole : ∀ entry ∈ o.entries, (Option.map (fun e : κ × α => (e.1, some e.2))
      (entry.2.map (entry.1, ·))) = some entry := by
    intro entry member
    obtain ⟨value, found⟩ := Option.isSome_iff_exists.mp (all entry member)
    rw [found, Option.map_some, Option.map_some, ← found]
  rw [List.filterMap_congr whole, List.filterMap_some]

end Properties
