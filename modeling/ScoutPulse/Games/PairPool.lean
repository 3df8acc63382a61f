import ScoutPulse.Lib.OrderedSet
import Mathlib.Data.List.Basic
import Mathlib.Data.Nat.Basic
import Mathlib.Order.Basic

/-!
# Who played for both

Clubs and nations are one sequence of entities: the clubs in the order of the dataset, then
the nations. A pair of entities is one number. The pool of pairs with a known answer is
built from the players, and agrees with the index from entities to players.
-/

namespace ScoutPulse.PlayedForBoth

/-! ## The dataset -/

/-- `PlayedForBothWire`. -/
structure Wire where
  /-- Code, country and name. -/
  leagues : List (String × String × String)
  /-- Id, name, two colours and the place of the league. -/
  clubs : List (String × String × String × String × ℕ)
  /-- FIFA code, name in English and in Turkish, flag. -/
  nations : List (String × String × String × String)
  /-- Name, place of the nation or -1, places of the clubs, 1 for a famous player. -/
  players : List (String × ℤ × List ℕ × ℕ)

structure League where
  code : String
  country : String
  name : String

structure Club where
  id : String
  name : String
  colour1 : String
  colour2 : String
  league : ℕ

structure Nation where
  fifa : String
  nameEN : String
  nameTR : String
  flag : String

structure Player where
  name : String
  /-- Club entities, then the nation entity when there is one. -/
  entities : List ℕ
  famous : Bool

/-- `GameIndex`. -/
structure GameIndex where
  leagues : List League
  clubs : List Club
  nations : List Nation
  players : List Player
  /-- The number of clubs; the first nation's entity. -/
  clubCount : ℕ
  /-- The places of an entity's players. -/
  byEntity : List (List ℕ)
  /-- How many clubs a league has. -/
  clubsPerLeague : List ℕ

/-- `PAIR_BASE`. -/
def pairBase : ℕ := 100000

/-- One place pushed into the lists of some entities. -/
def pushAll (byEntity : List (List ℕ)) (entities : List ℕ) (i : ℕ) : List (List ℕ) :=
  entities.foldl (fun byEntity e => byEntity.modify e (· ++ [i])) byEntity

/-- The loop that fills `byEntity`. -/
def indexPlayers (byEntity : List (List ℕ)) (players : List Player) : List (List ℕ) :=
  players.zipIdx.foldl (fun byEntity (p, i) => pushAll byEntity p.entities i) byEntity

/-- `buildIndex`. -/
def buildIndex (wire : Wire) : GameIndex :=
  let leagues := wire.leagues.map fun (code, country, name) => ⟨code, country, name⟩
  let clubs := wire.clubs.map fun (id, name, colour1, colour2, league) =>
    ⟨id, name, colour1, colour2, league⟩
  let nations := wire.nations.map fun (fifa, nameEN, nameTR, flag) => ⟨fifa, nameEN, nameTR, flag⟩
  let clubCount := clubs.length
  let players := wire.players.map fun (name, nation, clubIdx, famous) =>
    { name := name
      entities := if 0 ≤ nation then clubIdx ++ [clubCount + nation.toNat] else clubIdx
      famous := famous = 1 : Player }
  { leagues := leagues
    clubs := clubs
    nations := nations
    players := players
    clubCount := clubCount
    byEntity := indexPlayers (List.replicate (clubCount + nations.length) []) players
    clubsPerLeague := clubs.foldl (fun counts c => counts.modify c.league (· + 1))
      (leagues.map fun _ => 0) }

/-- All places a dataset names exist, and its entities are fewer than the base of pairs. -/
structure Wire.Valid (wire : Wire) : Prop where
  league : ∀ c ∈ wire.clubs, c.2.2.2.2 < wire.leagues.length
  nation : ∀ p ∈ wire.players, p.2.1 < wire.nations.length
  club : ∀ p ∈ wire.players, ∀ c ∈ p.2.2.1, c < wire.clubs.length
  small : wire.clubs.length + wire.nations.length < pairBase

/-! ## Entities and pairs -/

/-- `isClub`. -/
def isClub (ix : GameIndex) (e : ℕ) : Bool := e < ix.clubCount

/-- `nationEntity`. -/
def nationEntity (ix : GameIndex) (nationIndex : ℕ) : ℕ := ix.clubCount + nationIndex

/-- The entities. -/
def GameIndex.entityCount (ix : GameIndex) : ℕ := ix.clubCount + ix.nations.length

/-- Whether an entity is a nation. -/
def IsNation (ix : GameIndex) (e : ℕ) : Prop := ix.clubCount ≤ e ∧ e < ix.entityCount

/-- `pairKey`. -/
def pairKey (a b : ℕ) : ℕ := min a b * pairBase + max a b

/-- `splitKey`. -/
def splitKey (key : ℕ) : ℕ × ℕ := (key / pairBase, key % pairBase)

/-- `localeCompare`: below, at or above zero. -/
class Collation where
  localeCompare : String → String → ℤ

section Matches

variable [Collation]

/-- The order of the answers: famous first, then by name. -/
def compareAnswers (x y : Player) : ℤ :=
  let fame := (y.famous.toNat : ℤ) - x.famous.toNat
  if fame ≠ 0 then fame else Collation.localeCompare x.name y.name

/-- `matches`. -/
def matchesOf (ix : GameIndex) (a b : ℕ) : List Player :=
  (((ix.byEntity.getD a []).filter
    (· ∈ ix.byEntity.getD b [])).filterMap (ix.players[·]?)).mergeSort
    fun x y => compareAnswers x y ≤ 0

end Matches

/-- `enabledClubs`. -/
def enabledClubs (ix : GameIndex) (leagues : List String) : List ℕ :=
  (ix.clubs.zipIdx.filter fun (c, _) =>
    ((ix.leagues[c.league]?).any fun l => l.code ∈ leagues)).map (·.2)

/-- `PoolOptions`. -/
structure PoolOptions where
  leagues : List String
  famousOnly : Bool
  allowNations : Bool

/-- The two inner loops of `buildPairPool`: the pairs of a player's enabled clubs, and of
each of them with the nation. -/
def clubPairs (opts : PoolOptions) (nation : Option ℕ) : List ℕ → List ℕ
  | [] => []
  | a :: rest =>
      (rest.filter (a ≠ ·)).map (pairKey a) ++
        (if opts.allowNations then (nation.map (pairKey a)).toList else []) ++
        clubPairs opts nation rest

/-- The pairs of one player. -/
def playerPairs (ix : GameIndex) (opts : PoolOptions) (p : Player) : List ℕ :=
  if opts.famousOnly && !p.famous then []
  else
    let on := enabledClubs ix opts.leagues
    clubPairs opts (p.entities.find? (!isClub ix ·)) (p.entities.filter (· ∈ on))

/-- `buildPairPool`. -/
def buildPairPool (ix : GameIndex) (opts : PoolOptions) : List ℕ :=
  OrderedSet.ofList (ix.players.flatMap (playerPairs ix opts))

/-! ## Pairs as numbers -/

section Keys

variable {a b : ℕ}

theorem pairKey_comm (a b : ℕ) : pairKey a b = pairKey b a := by
  rw [pairKey, pairKey, Nat.min_comm, Nat.max_comm]

theorem splitKey_pairKey (ordered : a ≤ b) (small : b < pairBase) :
    splitKey (pairKey a b) = (a, b) := by
  have base : 0 < pairBase := by decide
  rw [splitKey, pairKey, Nat.min_eq_left ordered, Nat.max_eq_right ordered, Nat.mul_comm,
    Nat.mul_add_div base, Nat.div_eq_of_lt small, Nat.add_zero, Nat.mul_add_mod,
    Nat.mod_eq_of_lt small]

/-- A pair's number gives back its two entities, in order. -/
theorem splitKey_pairKey_eq_or (smallA : a < pairBase) (smallB : b < pairBase) :
    splitKey (pairKey a b) = (a, b) ∨ splitKey (pairKey a b) = (b, a) := by
  rcases Nat.le_total a b with ordered | ordered
  · exact .inl (splitKey_pairKey ordered smallB)
  · rw [pairKey_comm]
    exact .inr (splitKey_pairKey ordered smallA)

end Keys

/-! ## The index -/

section Index

variable {table : List (List ℕ)} {entities : List ℕ} {e i j : ℕ}

theorem length_pushAll : (pushAll table entities i).length = table.length := by
  induction entities generalizing table with
  | nil => rfl
  | cons d entities ih => exact ih.trans (List.length_modify _ _ _)

/-- One more player is added to the list of one entity and no other. -/
theorem mem_getD_modify {d : ℕ} : j ∈ (table.modify d (· ++ [i])).getD e [] ↔
    j ∈ table.getD e [] ∨ j = i ∧ e = d ∧ e < table.length := by
  rw [List.getD_eq_getElem?_getD, List.getElem?_modify, List.getD_eq_getElem?_getD]
  by_cases inside : e < table.length
  · rw [List.getElem?_eq_getElem inside]
    by_cases same : d = e
    · simp [same, inside]
    · simp [same, Ne.symm same, eq_comm]
  · rw [List.getElem?_eq_none (not_lt.mp inside)]
    simp [inside]

/-- A player is added to the lists of their entities and no others. -/
theorem mem_pushAll : j ∈ (pushAll table entities i).getD e [] ↔
    j ∈ table.getD e [] ∨ j = i ∧ e ∈ entities ∧ e < table.length := by
  induction entities generalizing table with
  | nil => simp [pushAll]
  | cons d entities ih =>
      have step : pushAll table (d :: entities) i =
          pushAll (table.modify d (· ++ [i])) entities i := rfl
      rw [step, ih, mem_getD_modify, List.length_modify, List.mem_cons]
      tauto

/-- The places pushed for an entity are those of the players who have it. -/
theorem mem_indexPlayers {players : List Player} :
    j ∈ (indexPlayers table players).getD e [] ↔ j ∈ table.getD e [] ∨
      ∃ p, players[j]? = some p ∧ e ∈ p.entities ∧ e < table.length := by
  have general (entries : List (Player × ℕ)) (table : List (List ℕ)) :
      j ∈ (entries.foldl (fun table (p, i) => pushAll table p.entities i) table).getD e [] ↔
        j ∈ table.getD e [] ∨ ∃ p, (p, j) ∈ entries ∧ e ∈ p.entities ∧ e < table.length := by
    induction entries generalizing table with
    | nil => simp
    | cons entry entries ih =>
        rw [List.foldl_cons, ih, mem_pushAll, length_pushAll, or_assoc]
        refine or_congr_right ?_
        simp only [List.mem_cons, Prod.ext_iff, or_and_right, exists_or]
        refine or_congr ?_ Iff.rfl
        constructor
        · rintro ⟨rfl, has, inside⟩
          exact ⟨entry.1, ⟨rfl, rfl⟩, has, inside⟩
        · rintro ⟨p, ⟨rfl, rfl⟩, has, inside⟩
          exact ⟨rfl, has, inside⟩
  refine (general players.zipIdx table).trans (or_congr_right (exists_congr fun p => ?_))
  rw [List.mem_zipIdx_iff_getElem?]

end Index

/-- What holds of an index built from a valid dataset. -/
structure GameIndex.Valid (ix : GameIndex) : Prop where
  count : ix.clubCount = ix.clubs.length
  small : ix.entityCount < pairBase
  entities : ∀ p ∈ ix.players, ∀ e ∈ p.entities, e < ix.entityCount
  /-- A player has one nation at most. -/
  nation : ∀ p ∈ ix.players, ∀ e ∈ p.entities, ∀ e' ∈ p.entities,
    ix.clubCount ≤ e → ix.clubCount ≤ e' → e = e'
  /-- The entities' view of the players is the players' own. -/
  byEntity : ∀ e j, j ∈ ix.byEntity.getD e [] ↔
    ∃ p, ix.players[j]? = some p ∧ e ∈ p.entities

/-- The index built of a valid dataset is valid: it is built player by player. -/
theorem buildIndex_valid {wire : Wire} (valid : wire.Valid) : (buildIndex wire).Valid := by
  have nations : (buildIndex wire).nations.length = wire.nations.length := List.length_map _
  have count : (buildIndex wire).clubCount = wire.clubs.length := List.length_map _
  have clubs : (buildIndex wire).clubs.length = wire.clubs.length := List.length_map _
  have players (p : Player) (member : p ∈ (buildIndex wire).players) :
      ∃ row ∈ wire.players, p.entities = if 0 ≤ row.2.1 then
        row.2.2.1 ++ [wire.clubs.length + row.2.1.toNat] else row.2.2.1 := by
    obtain ⟨row, listed, rfl⟩ := List.mem_map.mp member
    exact ⟨row, listed, by rw [← count]; rfl⟩
  have range (p : Player) (member : p ∈ (buildIndex wire).players) (e : ℕ)
      (has : e ∈ p.entities) : e < (buildIndex wire).entityCount := by
    obtain ⟨row, listed, same⟩ := players p member
    have inClubs := valid.club row listed
    have inNations := valid.nation row listed
    rw [GameIndex.entityCount, count, nations]
    rw [same] at has
    split_ifs at has with some_
    · obtain club | nation := List.mem_append.mp has
      · exact (inClubs e club).trans_le (Nat.le_add_right _ _)
      · rw [List.mem_singleton] at nation
        omega
    · exact (inClubs e has).trans_le (Nat.le_add_right _ _)
  refine ⟨count.trans clubs.symm, ?_, range, ?_, fun e j => ?_⟩
  · rw [GameIndex.entityCount, count, nations]
    exact valid.small
  · intro p member e has e' has' notClub notClub'
    obtain ⟨row, listed, same⟩ := players p member
    have inClubs := valid.club row listed
    have only (e : ℕ) (has : e ∈ p.entities) (notClub : (buildIndex wire).clubCount ≤ e) :
        e = wire.clubs.length + row.2.1.toNat := by
      rw [count] at notClub
      rw [same] at has
      split_ifs at has
      · obtain club | nation := List.mem_append.mp has
        · exact absurd (inClubs e club) (not_lt.mpr notClub)
        · exact List.mem_singleton.mp nation
      · exact absurd (inClubs e has) (not_lt.mpr notClub)
    rw [only e has notClub, only e' has' notClub']
  · have built : (buildIndex wire).byEntity =
        indexPlayers (List.replicate (buildIndex wire).entityCount []) (buildIndex wire).players :=
      rfl
    rw [built, mem_indexPlayers, List.length_replicate]
    constructor
    · rintro (empty | ⟨p, there, has, -⟩)
      · have row : (List.replicate (buildIndex wire).entityCount ([] : List ℕ)).getD e [] = [] := by
          rw [List.getD_eq_getElem?_getD, List.getElem?_replicate]
          split_ifs <;> rfl
        rw [row] at empty
        cases empty
      · exact ⟨p, there, has⟩
    · rintro ⟨p, there, has⟩
      exact .inr ⟨p, there, has, range p (List.mem_of_getElem? there) e has⟩

/-! ## The pool -/

section Pool

variable {ix : GameIndex} {opts : PoolOptions} {a b key : ℕ}

theorem enabledClub_lt (valid : ix.Valid) {leagues : List String}
    (enabled : a ∈ enabledClubs ix leagues) : a < ix.clubCount := by
  obtain ⟨⟨c, i⟩, member, rfl⟩ := List.mem_map.mp enabled
  have there := List.mem_zipIdx_iff_getElem?.mp (List.mem_of_mem_filter member)
  rw [valid.count]
  exact (List.getElem?_eq_some_iff.mp there).1

/-- The answers for two entities are the players who have both. -/
theorem mem_matchesOf [Collation] (valid : ix.Valid) {p : Player} :
    p ∈ matchesOf ix a b ↔ p ∈ ix.players ∧ a ∈ p.entities ∧ b ∈ p.entities := by
  rw [matchesOf, List.mem_mergeSort, List.mem_filterMap]
  simp only [List.mem_filter, decide_eq_true_eq, valid.byEntity]
  constructor
  · rintro ⟨j, ⟨⟨p₁, first, hasA⟩, p₂, second, hasB⟩, third⟩
    obtain rfl := Option.some.inj (first.symm.trans third)
    obtain rfl := Option.some.inj (second.symm.trans third)
    exact ⟨List.mem_of_getElem? third, hasA, hasB⟩
  · rintro ⟨member, hasA, hasB⟩
    obtain ⟨j, there⟩ := List.getElem?_of_mem member
    exact ⟨j, ⟨⟨p, there, hasA⟩, p, there, hasB⟩, there⟩

/-- The keys of the clubs of a player are those of each two of them, and of each with the
nation where nations are allowed. -/
theorem mem_clubPairs {nation : Option ℕ} {clubs : List ℕ} :
    key ∈ clubPairs opts nation clubs ↔
      (∃ a ∈ clubs, ∃ b ∈ clubs, a ≠ b ∧ key = pairKey a b) ∨
        opts.allowNations = true ∧ ∃ n, nation = some n ∧ ∃ a ∈ clubs, key = pairKey a n := by
  induction clubs with
  | nil => simp [clubPairs]
  | cons c rest ih =>
      rw [clubPairs, List.mem_append, List.mem_append, ih]
      constructor
      · rintro ((pair | withNation) | (⟨a, memberA, b, memberB, differ, rfl⟩ |
          ⟨allowed, n, found, a, member, rfl⟩))
        · obtain ⟨b, member, rfl⟩ := List.mem_map.mp pair
          obtain ⟨member, differ⟩ := List.mem_filter.mp member
          exact .inl ⟨c, List.mem_cons_self, b, List.mem_cons_of_mem _ member,
            of_decide_eq_true differ, rfl⟩
        · split_ifs at withNation with allowed
          · obtain ⟨n, found, rfl⟩ := Option.map_eq_some_iff.mp (Option.mem_toList.mp withNation)
            exact .inr ⟨allowed, n, found, c, List.mem_cons_self, rfl⟩
          · cases withNation
        · exact .inl ⟨a, List.mem_cons_of_mem _ memberA, b, List.mem_cons_of_mem _ memberB,
            differ, rfl⟩
        · exact .inr ⟨allowed, n, found, a, List.mem_cons_of_mem _ member, rfl⟩
      · rintro (⟨a, memberA, b, memberB, differ, rfl⟩ | ⟨allowed, n, rfl, a, member, rfl⟩)
        · obtain rfl | restA := List.mem_cons.mp memberA
          · obtain rfl | restB := List.mem_cons.mp memberB
            · exact absurd rfl differ
            · exact .inl (.inl (List.mem_map.mpr
                ⟨b, List.mem_filter.mpr ⟨restB, decide_eq_true differ⟩, rfl⟩))
          · obtain rfl | restB := List.mem_cons.mp memberB
            · refine .inl (.inl (List.mem_map.mpr ⟨a, List.mem_filter.mpr
                ⟨restA, decide_eq_true differ.symm⟩, pairKey_comm _ _⟩))
            · exact .inr (.inl ⟨a, restA, b, restB, differ, rfl⟩)
        · obtain rfl | later := List.mem_cons.mp member
          · refine .inl (.inr ?_)
            rw [if_pos allowed]
            exact List.mem_singleton_self _
          · exact .inr (.inr ⟨allowed, n, rfl, a, later, rfl⟩)

/-- The nation the loop finds for a player is the one among the player's entities. -/
theorem find_nation (valid : ix.Valid) {p : Player} (member : p ∈ ix.players) {n : ℕ} :
    p.entities.find? (!isClub ix ·) = some n ↔ n ∈ p.entities ∧ IsNation ix n := by
  have notClub (e : ℕ) : (!isClub ix e) = true ↔ ix.clubCount ≤ e := by
    rw [isClub, Bool.not_eq_true', decide_eq_false_iff_not, not_lt]
  constructor
  · intro found
    have has := List.mem_of_find?_eq_some found
    have nation : (!isClub ix n) = true := by simpa using List.find?_some found
    exact ⟨has, (notClub n).mp nation, valid.entities p member n has⟩
  · rintro ⟨has, nation, -⟩
    cases found : p.entities.find? (!isClub ix ·) with
    | none =>
        exact absurd ((notClub n).mpr nation) (by simpa using List.find?_eq_none.mp found n has)
    | some e =>
        have first : (!isClub ix e) = true := by simpa using List.find?_some found
        have first := (notClub e).mp first
        rw [valid.nation p member e (List.mem_of_find?_eq_some found) n has first nation]

/-- Whether a player counts who has both entities. -/
def Share (ix : GameIndex) (opts : PoolOptions) (a b : ℕ) : Prop :=
  ∃ p ∈ ix.players, a ∈ p.entities ∧ b ∈ p.entities ∧ (opts.famousOnly = true → p.famous = true)

/-- A pair the options admit: an enabled club, and another one or a nation. -/
structure Playable (ix : GameIndex) (opts : PoolOptions) (a b : ℕ) : Prop where
  differ : a ≠ b
  club : a ∈ enabledClubs ix opts.leagues
  other : b ∈ enabledClubs ix opts.leagues ∨ opts.allowNations = true ∧ IsNation ix b

/-- A key is in the pool when it is that of an admitted pair with an answer. -/
theorem mem_buildPairPool (valid : ix.Valid) : key ∈ buildPairPool ix opts ↔
    ∃ a b, Playable ix opts a b ∧ Share ix opts a b ∧ key = pairKey a b := by
  rw [buildPairPool, OrderedSet.mem_ofList, List.mem_flatMap]
  have counted (p : Player) : key ∈ playerPairs ix opts p ↔
      (opts.famousOnly = true → p.famous = true) ∧
        key ∈ clubPairs opts (p.entities.find? (!isClub ix ·))
          (p.entities.filter (· ∈ enabledClubs ix opts.leagues)) := by
    rw [playerPairs]
    by_cases skipped : (opts.famousOnly && !p.famous) = true
    · rw [if_pos skipped]
      obtain ⟨famousOnly, other⟩ := Bool.and_eq_true_iff.mp skipped
      rw [Bool.not_eq_true'] at other
      simp [famousOnly, other]
    · rw [if_neg skipped]
      refine (and_iff_right fun famousOnly => ?_).symm
      simpa [famousOnly] using skipped
  constructor
  · rintro ⟨p, member, paired⟩
    obtain ⟨famous, paired⟩ := (counted p).mp paired
    obtain ⟨a, inA, b, inB, differ, rfl⟩ | ⟨allowed, n, found, a, inA, rfl⟩ :=
      mem_clubPairs.mp paired
    · obtain ⟨hasA, onA⟩ := List.mem_filter.mp inA
      obtain ⟨hasB, onB⟩ := List.mem_filter.mp inB
      exact ⟨a, b, ⟨differ, of_decide_eq_true onA, .inl (of_decide_eq_true onB)⟩,
        ⟨p, member, hasA, hasB, famous⟩, rfl⟩
    · obtain ⟨hasA, onA⟩ := List.mem_filter.mp inA
      obtain ⟨hasN, nation⟩ := (find_nation valid member).mp found
      have below := enabledClub_lt valid (of_decide_eq_true onA)
      exact ⟨a, n, ⟨(below.trans_le nation.1).ne, of_decide_eq_true onA, .inr ⟨allowed, nation⟩⟩,
        ⟨p, member, hasA, hasN, famous⟩, rfl⟩
  · rintro ⟨a, b, ⟨differ, onA, other⟩, ⟨p, member, hasA, hasB, famous⟩, rfl⟩
    refine ⟨p, member, (counted p).mpr ⟨famous, mem_clubPairs.mpr ?_⟩⟩
    have inA : a ∈ p.entities.filter (· ∈ enabledClubs ix opts.leagues) :=
      List.mem_filter.mpr ⟨hasA, decide_eq_true onA⟩
    obtain onB | ⟨allowed, nation⟩ := other
    · exact .inl ⟨a, inA, b, List.mem_filter.mpr ⟨hasB, decide_eq_true onB⟩, differ, rfl⟩
    · exact .inr ⟨allowed, b, (find_nation valid member).mpr ⟨hasB, nation⟩, a, inA, rfl⟩

/-- A pair that can be played is within the index. -/
theorem Playable.lt (valid : ix.Valid) (playable : Playable ix opts a b) :
    a < ix.entityCount ∧ b < ix.entityCount := by
  have clubs {c : ℕ} (enabled : c ∈ enabledClubs ix opts.leagues) : c < ix.entityCount :=
    (enabledClub_lt valid enabled).trans_le (Nat.le_add_right _ _)
  refine ⟨clubs playable.club, ?_⟩
  obtain enabled | ⟨-, nation⟩ := playable.other
  · exact clubs enabled
  · exact nation.2

/-- A key of the pool has an answer. -/
theorem matchesOf_ne_nil [Collation] (valid : ix.Valid) (member : key ∈ buildPairPool ix opts) :
    matchesOf ix (splitKey key).1 (splitKey key).2 ≠ [] := by
  obtain ⟨a, b, playable, ⟨p, known, hasA, hasB, -⟩, rfl⟩ := (mem_buildPairPool valid).mp member
  obtain ⟨ltA, ltB⟩ := playable.lt valid
  refine List.ne_nil_of_mem (a := p) ((mem_matchesOf valid).mpr ⟨known, ?_⟩)
  obtain same | same := splitKey_pairKey_eq_or (ltA.trans valid.small) (ltB.trans valid.small)
  · rw [same]
    exact ⟨hasA, hasB⟩
  · rw [same]
    exact ⟨hasB, hasA⟩

end Pool

/-- **The pair pool is exact.** -/
theorem buildPairPool_exact [Collation] {wire : Wire} (valid : wire.Valid) (opts : PoolOptions) :
    let ix := buildIndex wire
    (∀ key, key ∈ buildPairPool ix opts ↔
      ∃ a b, Playable ix opts a b ∧ Share ix opts a b ∧ key = pairKey a b) ∧
    (buildPairPool ix opts).Nodup ∧
    (∀ a b, a ≤ b → b < ix.entityCount → splitKey (pairKey a b) = (a, b)) ∧
    ∀ key ∈ buildPairPool ix opts, matchesOf ix (splitKey key).1 (splitKey key).2 ≠ [] := by
  have indexed := buildIndex_valid valid
  refine ⟨fun key => mem_buildPairPool indexed, OrderedSet.nodup_ofList _, fun a b ordered lt => ?_,
    fun key member => matchesOf_ne_nil indexed member⟩
  exact splitKey_pairKey ordered (lt.trans indexed.small)

/-- Two clubs, a nation, and a player who went back to his first club. -/
def smallWire : Wire where
  leagues := [("eng", "England", "Premier League")]
  clubs := [("1", "Arsenal", "red", "white", 0), ("2", "Leeds", "white", "blue", 0)]
  nations := [("TOG", "Togo", "Togo", "tg")]
  players := [("A", 0, [0, 1, 0], 1), ("B", -1, [1], 0)]

theorem smallWire_valid : smallWire.Valid :=
  ⟨by decide, by decide, by decide, by decide⟩

/-- The pool of the small dataset holds the one pair that has a player. -/
theorem buildPairPool_exact_smallWire :
    let _ : Collation := ⟨fun x y => if x < y then -1 else if x = y then 0 else 1⟩
    1 ∈ buildPairPool (buildIndex smallWire) ⟨["eng"], true, true⟩ ∧
      matchesOf (buildIndex smallWire) (splitKey 1).1 (splitKey 1).2 ≠ [] := by
  intro _
  have exact_ := buildPairPool_exact smallWire_valid ⟨["eng"], true, true⟩
  have member : 1 ∈ buildPairPool (buildIndex smallWire) ⟨["eng"], true, true⟩ := by
    decide +kernel
  exact ⟨member, exact_.2.2.2 1 member⟩

end ScoutPulse.PlayedForBoth
