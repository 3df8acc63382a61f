import Mathlib.Algebra.GroupWithZero.Nat
import Mathlib.Data.List.Dedup
import ScoutPulse.Football.Importer.Clubs

/-!
# Which club a name picks

A source club is the one free club of its own key, or else the one free club of its country
whose name starts with the other's. The index is a map, read in any order. A club is found
under each of its keys: one that two of them find counts twice, and is not picked.
-/

namespace ScoutPulse.Importer

open Strings

section Match

variable [Unicode]

/-- The hits under one key of the index. -/
def hitsUnder (existing : List LocalTeam) (taken : List String) (key country k : String) :
    List String :=
  if k = "" ∨ !startsWithWord key k then []
  else (free taken (teamsByKey existing k)).filter fun id =>
    match (teamByID existing id).bind (·.country) with
    | none => true
    | some c => fold c = fold country

/-- `prefixHits`, where the index is read in some order. -/
def prefixHitsIn (order : List String) (existing : List LocalTeam) (taken : List String)
    (key country : String) : List String :=
  order.flatMap (hitsUnder existing taken key country)

/-- `matchClub`, where the index is read in some order. -/
def matchClubIn (order : List String) (c : Club) (country : String) (existing : List LocalTeam)
    (taken : List String) : Option String :=
  let key := clubKey c.name
  (unique (free taken (teamsByKey existing key))).or
    (unique (prefixHitsIn order existing taken key country))

theorem matchClubIn_teamKeys (c : Club) (country : String) (existing : List LocalTeam)
    (taken : List String) :
    matchClubIn (teamKeys existing) c country existing taken =
      matchClub c country existing taken := rfl

/-- Whether a club may be in a country: it is, or no country is known of it. -/
def LocalTeam.mayBeIn (t : LocalTeam) (country : String) : Bool :=
  match t.country with
  | none => true
  | some c => fold c = fold country

/-- A key one of which is a word-prefix of the other. -/
def related (key k : String) : Bool := k ≠ "" && startsWithWord key k

/-- The free clubs of a key. -/
def sameKey (existing : List LocalTeam) (taken : List String) (c : Club) : Set String :=
  {id | ∃ t ∈ existing, t.id = id ∧ id ∉ taken ∧ clubKey c.name ∈ t.keys}

/-- The free clubs of a country, or of none, with a key that starts with the source club's or
that it starts with. -/
def sameStart (existing : List LocalTeam) (taken : List String) (c : Club) (country : String) :
    Set String :=
  {id | ∃ t ∈ existing, t.id = id ∧ id ∉ taken ∧ t.mayBeIn country = true ∧
    ∃ k ∈ t.keys, related (clubKey c.name) k = true}

/-- What is picked is the one club of the key, or else the one of the same start, or none. -/
def Unambiguous (exact_ start : Set String) (picked : Option String) : Prop :=
  ∀ id, picked = some id ↔ exact_ = {id} ∨ (∀ e, exact_ ≠ {e}) ∧ start = {id}

/-! ## What is found -/

variable {existing : List LocalTeam} {taken : List String} {id key country : String}
  {t : LocalTeam} {c : Club}

omit [Unicode] in
/-- An id is unique when all are that one and it is listed once. -/
theorem unique_eq_some_iff {ids : List String} :
    unique ids = some id ↔ (∀ x ∈ ids, x = id) ∧ ids.count id = 1 := by
  rw [unique_eq_some]
  constructor
  · rintro rfl
    simp
  · rintro ⟨same, once⟩
    rw [List.eq_replicate_of_mem same, List.count_replicate_self] at once
    rw [List.eq_replicate_of_mem same, once, List.replicate_one]

theorem keys_nodup (t : LocalTeam) : t.keys.Nodup := by
  unfold LocalTeam.keys
  dsimp only
  split
  · exact List.nodup_singleton _
  · split_ifs with same
    · exact List.nodup_singleton _
    · rw [not_or] at same
      simp [Ne.symm same.2]

omit [Unicode] in
/-- Where ids are distinct, an id finds its own row. -/
theorem teamByID_of_mem (distinct : (existing.map (·.id)).Nodup) (member : t ∈ existing) :
    teamByID existing t.id = some t := by
  obtain ⟨u, found⟩ := Option.isSome_iff_exists.mp (teamByID_isSome.mpr ⟨t, member, rfl⟩)
  have there := List.mem_reverse.mp (List.mem_of_find?_eq_some found)
  have same : u.id = t.id := by
    unfold teamByID at found
    have named := List.find?_some found
    exact of_decide_eq_true named
  rw [found, List.inj_on_of_nodup_map distinct there member same]

/-- A club is under a key when it has the key. -/
theorem mem_teamsByKey (distinct : (existing.map (·.id)).Nodup) (member : t ∈ existing) :
    t.id ∈ teamsByKey existing key ↔ key ∈ t.keys := by
  unfold teamsByKey
  constructor
  · intro indexed
    obtain ⟨u, kept, same⟩ := List.mem_map.mp indexed
    obtain ⟨there, has⟩ := List.mem_filter.mp kept
    rw [← List.inj_on_of_nodup_map distinct there member same]
    exact of_decide_eq_true has
  · intro has
    exact List.mem_map.mpr ⟨t, List.mem_filter.mpr ⟨member, decide_eq_true has⟩, rfl⟩

/-- A club is indexed once under each key. -/
theorem count_teamsByKey (distinct : (existing.map (·.id)).Nodup) (member : t ∈ existing) :
    (teamsByKey existing key).count t.id = if key ∈ t.keys then 1 else 0 := by
  have once : (teamsByKey existing key).Nodup :=
    distinct.sublist (List.filter_sublist.map _)
  split_ifs with has
  · exact List.count_eq_one_of_mem once ((mem_teamsByKey distinct member).mpr has)
  · exact List.count_eq_zero_of_not_mem fun indexed =>
      has ((mem_teamsByKey distinct member).mp indexed)

/-- A club is hit under a key when it is free, may be in the country and has the related key.
-/
theorem mem_hitsUnder (distinct : (existing.map (·.id)).Nodup) (member : t ∈ existing)
    {k : String} : t.id ∈ hitsUnder existing taken key country k ↔
      (t.id ∉ taken ∧ t.mayBeIn country = true) ∧ related key k = true ∧ k ∈ t.keys := by
  unfold hitsUnder
  by_cases found : k = "" ∨ (!startsWithWord key k) = true
  · rw [if_pos found]
    refine iff_of_false List.not_mem_nil fun ⟨_, rel, _⟩ => ?_
    rw [related, Bool.and_eq_true, decide_eq_true_iff] at rel
    rcases found with empty | apart
    · exact rel.1 empty
    · rw [rel.2] at apart
      cases apart
  · have rel : related key k = true := by simpa [related] using found
    rw [if_neg found, List.mem_filter, mem_free, mem_teamsByKey distinct member,
      teamByID_of_mem distinct member]
    exact ⟨fun ⟨⟨has, untaken⟩, here⟩ => ⟨⟨untaken, here⟩, rel, has⟩,
      fun ⟨⟨untaken, here⟩, _, has⟩ => ⟨⟨has, untaken⟩, here⟩⟩

/-- A club is found once under a key. -/
theorem count_hitsUnder (distinct : (existing.map (·.id)).Nodup) (member : t ∈ existing)
    (k : String) : (hitsUnder existing taken key country k).count t.id =
      if (t.id ∉ taken ∧ t.mayBeIn country = true) ∧ related key k = true ∧ k ∈ t.keys then 1
      else 0 := by
  have once : (hitsUnder existing taken key country k).Nodup := by
    unfold hitsUnder
    split_ifs
    · exact List.nodup_nil
    · exact ((distinct.sublist (List.filter_sublist.map _)).filter _).filter _
  split_ifs with hit
  · exact List.count_eq_one_of_mem once ((mem_hitsUnder distinct member).mpr hit)
  · exact List.count_eq_zero_of_not_mem fun there => hit ((mem_hitsUnder distinct member).mp there)

omit [Unicode] in
theorem sum_indicator {p : String → Prop} [DecidablePred p] (ks : List String) :
    (ks.map fun k => if p k then 1 else 0).sum = (ks.filter p).length := by
  induction ks with
  | nil => rfl
  | cons k ks ih =>
      rw [List.map_cons, List.sum_cons, ih, List.filter_cons]
      by_cases holds : p k
      · simp [holds, Nat.add_comm]
      · simp [holds]

/-- A club is found once for each of its keys that is related to the source club's. -/
theorem count_prefixHitsIn {order : List String} (distinct : (existing.map (·.id)).Nodup)
    (ordered : order.Perm (teamKeys existing)) (member : t ∈ existing) :
    (prefixHitsIn order existing taken key country).count t.id =
      if t.id ∉ taken ∧ t.mayBeIn country = true then
        (t.keys.filter (related key)).length else 0 := by
  have found : List.count t.id ∘ hitsUnder existing taken key country = fun k =>
      if (t.id ∉ taken ∧ t.mayBeIn country = true) ∧ related key k = true ∧ k ∈ t.keys then 1
      else 0 := funext fun k => count_hitsUnder distinct member k
  rw [prefixHitsIn, List.count_flatMap]
  rw [found, sum_indicator]
  by_cases free_ : t.id ∉ taken ∧ t.mayBeIn country = true
  · rw [if_pos free_]
    refine List.Perm.length_eq ((List.perm_ext_iff_of_nodup ?_ ?_).mpr fun k => ?_)
    · exact (ordered.nodup_iff.mpr (List.nodup_dedup _)).filter _
    · exact (keys_nodup t).filter _
    · have listed : k ∈ t.keys → k ∈ order := fun has =>
        ordered.mem_iff.mpr (List.mem_dedup.mpr (List.mem_flatMap.mpr ⟨t, member, has⟩))
      simp only [List.mem_filter, decide_eq_true_eq, free_, not_false_eq_true, and_self, true_and]
      exact ⟨fun ⟨_, rel, has⟩ => ⟨has, rel⟩, fun ⟨has, rel⟩ => ⟨listed has, rel, has⟩⟩
  · rw [if_neg free_, List.length_eq_zero_iff, List.filter_eq_nil_iff]
    exact fun k _ all => free_ (of_decide_eq_true all).1

/-- The clubs under one key are the free ones of that key. -/
theorem mem_sameKey : id ∈ sameKey existing taken c ↔
    id ∈ free taken (teamsByKey existing (clubKey c.name)) := by
  rw [mem_free, teamsByKey, List.mem_map]
  constructor
  · rintro ⟨t, member, rfl, untaken, has⟩
    exact ⟨⟨t, List.mem_filter.mpr ⟨member, decide_eq_true has⟩, rfl⟩, untaken⟩
  · rintro ⟨⟨t, kept, rfl⟩, untaken⟩
    obtain ⟨member, has⟩ := List.mem_filter.mp kept
    exact ⟨t, member, rfl, untaken, of_decide_eq_true has⟩

/-- The clubs under one start are those hit by the prefix, in whatever order the keys are. -/
theorem mem_sameStart {order : List String} (distinct : (existing.map (·.id)).Nodup)
    (ordered : order.Perm (teamKeys existing)) : id ∈ sameStart existing taken c country ↔
      id ∈ prefixHitsIn order existing taken (clubKey c.name) country := by
  rw [prefixHitsIn, List.mem_flatMap]
  constructor
  · rintro ⟨t, member, rfl, untaken, here, k, has, rel⟩
    refine ⟨k, ordered.mem_iff.mpr (List.mem_dedup.mpr (List.mem_flatMap.mpr ⟨t, member, has⟩)), ?_⟩
    exact (mem_hitsUnder distinct member).mpr ⟨⟨untaken, here⟩, rel, has⟩
  · rintro ⟨k, -, hit⟩
    obtain ⟨t, member, rfl⟩ : ∃ t ∈ existing, t.id = id := by
      have indexed := hit
      unfold hitsUnder at indexed
      split_ifs at indexed
      · exact absurd indexed List.not_mem_nil
      · obtain ⟨t, kept, same⟩ := List.mem_map.mp (mem_free.mp (List.mem_of_mem_filter indexed)).1
        exact ⟨t, List.mem_of_mem_filter kept, same⟩
    obtain ⟨⟨untaken, here⟩, rel, has⟩ := (mem_hitsUnder distinct member).mp hit
    exact ⟨t, member, rfl, untaken, here, k, has, rel⟩

/-- The one club of a key is found whatever the order. -/
theorem unique_sameKey (distinct : (existing.map (·.id)).Nodup) :
    unique (free taken (teamsByKey existing (clubKey c.name))) = some id ↔
      sameKey existing taken c = {id} := by
  have once : (free taken (teamsByKey existing (clubKey c.name))).Nodup :=
    (distinct.sublist (List.filter_sublist.map _)).filter _
  rw [unique_eq_some_iff, Set.eq_singleton_iff_unique_mem]
  simp only [mem_sameKey]
  constructor
  · rintro ⟨same, one⟩
    exact ⟨List.one_le_count_iff.mp one.ge, same⟩
  · rintro ⟨member, same⟩
    exact ⟨same, List.count_eq_one_of_mem once member⟩

/-- Whether at most one key of a club is related to the source club's. -/
def OneRelated (key : String) (t : LocalTeam) : Prop :=
  ∀ k ∈ t.keys, ∀ k' ∈ t.keys, related key k = true → related key k' = true → k = k'

/-- At most one key of a club is related when any two that are related are one. -/
theorem length_related_le_one : (t.keys.filter (related key)).length ≤ 1 ↔ OneRelated key t := by
  have once := (keys_nodup t).filter (related key)
  unfold OneRelated
  constructor
  · intro few k has k' has' rel rel'
    have member := List.mem_filter.mpr ⟨has, rel⟩
    have member' := List.mem_filter.mpr ⟨has', rel'⟩
    cases shape : t.keys.filter (related key) with
    | nil =>
        rw [shape] at member
        cases member
    | cons first rest =>
        rw [shape, List.length_cons] at few
        have last : rest = [] := List.eq_nil_of_length_eq_zero (by omega)
        rw [shape, last] at member member'
        rw [List.mem_singleton.mp member, List.mem_singleton.mp member']
  · intro same
    cases shape : t.keys.filter (related key) with
    | nil => exact Nat.zero_le 1
    | cons first rest =>
        cases rest with
        | nil => exact Nat.le_refl 1
        | cons second rest =>
            rw [shape] at once
            obtain ⟨has, rel⟩ := List.mem_filter.mp (shape ▸ List.mem_cons_self)
            obtain ⟨has', rel'⟩ : second ∈ t.keys ∧ related key second = true :=
              List.mem_filter.mp (shape ▸ List.mem_cons_of_mem _ List.mem_cons_self)
            refine absurd (same first has second has' rel rel') ?_
            exact List.ne_of_not_mem_cons (List.nodup_cons.mp once).1

/-- The one club of the same start is found when only one of its keys finds it. -/
theorem unique_sameStart {order : List String} (distinct : (existing.map (·.id)).Nodup)
    (ordered : order.Perm (teamKeys existing)) (member : t ∈ existing) :
    unique (prefixHitsIn order existing taken (clubKey c.name) country) = some t.id ↔
      sameStart existing taken c country = {t.id} ∧ OneRelated (clubKey c.name) t := by
  have count : (prefixHitsIn order existing taken (clubKey c.name) country).count t.id = _ :=
    count_prefixHitsIn distinct ordered member
  rw [unique_eq_some_iff, Set.eq_singleton_iff_unique_mem, ← length_related_le_one]
  simp only [mem_sameStart distinct ordered, ← List.one_le_count_iff, count]
  constructor
  · rintro ⟨same, one⟩
    refine ⟨⟨one.ge, fun x many => same x many⟩, ?_⟩
    split_ifs at one
    exact one.le
  · rintro ⟨⟨some_, same⟩, few⟩
    refine ⟨fun x there => same x there, ?_⟩
    split_ifs at some_ ⊢
    · exact Nat.le_antisymm few some_
    · omega

/-- **The club a name picks.** Whatever the order of the index, what is picked is the one free
club of the key or else the one club of the same start, exactly when a club that is alone in
having the same start has it by one of its keys only. -/
theorem matchClub_unambiguous_iff (distinct : (existing.map (·.id)).Nodup) :
    (∀ order, order.Perm (teamKeys existing) →
      Unambiguous (sameKey existing taken c) (sameStart existing taken c country)
        (matchClubIn order c country existing taken)) ↔
      ((∀ e, sameKey existing taken c ≠ {e}) → ∀ t ∈ existing,
        sameStart existing taken c country = {t.id} → OneRelated (clubKey c.name) t) := by
  have picked : ∀ order, order.Perm (teamKeys existing) → ∀ t ∈ existing,
      (matchClubIn order c country existing taken = some t.id ↔
        sameKey existing taken c = {t.id} ∨ (∀ e, sameKey existing taken c ≠ {e}) ∧
          sameStart existing taken c country = {t.id} ∧ OneRelated (clubKey c.name) t) := by
    intro order ordered t member
    have none_ : unique (free taken (teamsByKey existing (clubKey c.name))) = none ↔
        ∀ e, sameKey existing taken c ≠ {e} := by
      rw [Option.eq_none_iff_forall_ne_some]
      exact forall_congr' fun e => not_congr (unique_sameKey distinct)
    unfold matchClubIn
    rw [Option.or_eq_some_iff, unique_sameKey distinct, none_,
      unique_sameStart distinct ordered member]
  constructor
  · intro unambiguous noExact t member alone
    have chosen := (unambiguous _ (List.Perm.refl _) t.id).mpr (.inr ⟨noExact, alone⟩)
    rcases (picked _ (List.Perm.refl _) t member).mp chosen with exact_ | ⟨-, -, one⟩
    · exact absurd exact_ (noExact t.id)
    · exact one
  · intro few order ordered id
    have known : ∀ id, id ∈ sameKey existing taken c ∨ id ∈ sameStart existing taken c country →
        ∃ t ∈ existing, t.id = id := by
      rintro id (⟨t, member, same, -⟩ | ⟨t, member, same, -⟩) <;> exact ⟨t, member, same⟩
    constructor
    · intro chosen
      obtain ⟨t, member, rfl⟩ : ∃ t ∈ existing, t.id = id := by
        unfold matchClubIn at chosen
        obtain exact_ | ⟨-, start⟩ := Option.or_eq_some_iff.mp chosen
        · exact known id (.inl (mem_sameKey.mpr (mem_of_unique exact_)))
        · exact known id (.inr ((mem_sameStart distinct ordered).mpr (mem_of_unique start)))
      rcases (picked order ordered t member).mp chosen with exact_ | ⟨noExact, alone, -⟩
      · exact .inl exact_
      · exact .inr ⟨noExact, alone⟩
    · intro spec
      obtain ⟨t, member, rfl⟩ : ∃ t ∈ existing, t.id = id := by
        rcases spec with exact_ | ⟨-, alone⟩
        · exact known id (.inl (exact_ ▸ Set.mem_singleton id))
        · exact known id (.inr (alone ▸ Set.mem_singleton id))
      refine (picked order ordered t member).mpr ?_
      rcases spec with exact_ | ⟨noExact, alone⟩
      · exact .inl exact_
      · exact .inr ⟨noExact, alone, few noExact t member alone⟩

end Match

section Brighton

def albion (shortName : String) : LocalTeam :=
  ⟨"4c0f2a6b-93d1-4e58-b7a2-0d6e1f8c5b34", "Brighton & Hove Albion", some shortName, none,
    some "England"⟩

def brighton : Club := ⟨"Brighton", "GB1", "", 2025⟩

/-- With a short name of other words the club is picked. -/
theorem matchClub_unambiguous_iff_albion :
    let _ := Unicode.ascii
    Unambiguous (sameKey [albion "BHA"] [] brighton)
        (sameStart [albion "BHA"] [] brighton "England")
        (matchClub brighton "England" [albion "BHA"] []) ∧
      matchClub brighton "England" [albion "BHA"] [] =
        some "4c0f2a6b-93d1-4e58-b7a2-0d6e1f8c5b34" := by
  intro _
  have facts : (∀ k ∈ (albion "BHA").keys, ∀ k' ∈ (albion "BHA").keys,
      related (clubKey "Brighton") k = true → related (clubKey "Brighton") k' = true → k = k') ∧
      matchClub brighton "England" [albion "BHA"] [] =
        some "4c0f2a6b-93d1-4e58-b7a2-0d6e1f8c5b34" := by decide +kernel
  have distinct : ([albion "BHA"].map (·.id)).Nodup := List.nodup_singleton _
  refine ⟨(matchClub_unambiguous_iff distinct).mpr ?_ _ (List.Perm.refl _), facts.2⟩
  intro _ t member _
  rw [List.mem_singleton.mp member]
  exact facts.1

/-- A club whose name and short name both start with the source club's is found twice, and
not picked. -/
theorem matchClub_found_twice :
    let _ := Unicode.ascii
    ¬ Unambiguous (sameKey [albion "Brighton & Hove"] [] brighton)
      (sameStart [albion "Brighton & Hove"] [] brighton "England")
      (matchClub brighton "England" [albion "Brighton & Hove"] []) := by
  intro _ unambiguous
  have facts : clubKey "Brighton" ∉ (albion "Brighton & Hove").keys ∧
      (albion "Brighton & Hove").mayBeIn "England" = true ∧
      (∃ k ∈ (albion "Brighton & Hove").keys, related (clubKey "Brighton") k = true) ∧
      matchClub brighton "England" [albion "Brighton & Hove"] [] = none := by decide +kernel
  obtain ⟨other, here, start, unpicked⟩ := facts
  have picked := (unambiguous (albion "Brighton & Hove").id).mpr (.inr ⟨fun e exact_ => ?_, ?_⟩)
  · rw [unpicked] at picked
    cases picked
  · obtain ⟨t, member, -, -, has⟩ := exact_.ge (Set.mem_singleton e)
    rw [List.mem_singleton.mp member] at has
    exact other has
  · refine Set.eq_singleton_iff_unique_mem.mpr ⟨?_, ?_⟩
    · exact ⟨_, List.mem_singleton_self _, rfl, List.not_mem_nil, here, start⟩
    · rintro id ⟨t, member, rfl, -⟩
      rw [List.mem_singleton.mp member]

end Brighton

end ScoutPulse.Importer
