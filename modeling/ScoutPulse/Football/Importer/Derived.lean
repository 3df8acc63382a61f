import ScoutPulse.Football.Importer.Accepted
import ScoutPulse.Football.Importer.History
import ScoutPulse.Football.Importer.Valuations

/-!
# What an import leaves of the derived columns

A player's club is where their latest transfer went, and their market value is the latest
valuation. An import writes both columns from the source, beside a history that may hold
later entries made by hand. After it the columns follow from the history of a player
exactly when, with the source laid over what was stored, the latest transfer leads to the
source's club and the latest valuation is the value the source gives.
-/

namespace ScoutPulse.Importer

open Matching
open Players (Instant)
open Squad (Date)
open Strings Upsert

/-- The tables an import reads and writes, and how many transfers have been recorded. -/
structure Tables where
  players : PlayerTable
  values : ValueTable
  transfers : TransferTable
  recorded : ℕ

/-- The steps of an import that write players, market values and transfers. -/
def importCareers [Unicode] [CaseFolding] [Postgres] [Joins] [Takes PlayerRow] [Takes ValueRow]
    [Takes MoveRow] (started : Instant) (newString : ℕ → String) (s : Tables) (m : Merge) :
    Option Tables := do
  let players ← importPlayers started newString s.players m
  let m := (playerLoop newString (selectPlayers s.players) m).merge
  let values ← importValuations s.values m
  let plan := transferPlan newString s.transfers (selectPlayers players) m
  let transfers ← plan.run s.transfers s.recorded
  return ⟨players, values, transfers, s.recorded + plan.inserts.length⟩

/-! ## The derived columns -/

/-- A transfer no other of the player is later than, by date or, on one date, by when it was
recorded. -/
structure LatestMove (transfers : TransferTable) (id k : String) (t : Squad.Move) : Prop where
  stored : transfers.lookup k = some t
  player : t.transfer.playerID = id
  last : ∀ k' t', transfers.lookup k' = some t' → t'.transfer.playerID = id → t'.rank ≤ t.rank

/-- A player's club is the destination of their latest transfer. -/
structure ClubFollows (club : Option String) (transfers : TransferTable) (id : String) :
    Prop where
  latest : ∀ k t, LatestMove transfers id k t → club = t.transfer.toTeam
  unmoved : (∀ k t, transfers.lookup k = some t → t.transfer.playerID ≠ id) → club = none

/-- A player's market value is the latest valuation. -/
structure ValueFollows (value : ℤ) (worth : Date → Option ℤ) : Prop where
  latest : ∀ day v, worth day = some v → (∀ d, (worth d).isSome → d ≤ day) → value = v
  unvalued : (∀ day, worth day = none) → value = 0

/-- Both columns of a player follow from the history. -/
def Derived (s : Tables) (id : String) : Prop :=
  ∀ p, s.players.lookup id = some p →
    ClubFollows p.teamID s.transfers id ∧ ValueFollows p.marketValue (worthOf s.values id)

/-- The foreign key of `player_market_values`. -/
def Owned (s : Tables) : Prop :=
  ∀ id day, (worthOf s.values id day).isSome → (s.players.lookup id).isSome

/-! ### Deciding them from the rows -/

section Decide

variable {transfers : TransferTable} {values : ValueTable} {s : Tables}
  {club : Option String} {value : ℤ} {id k : String} {t : Squad.Move}

instance : Decidable (LatestMove transfers id k t) :=
  decidable_of_iff ((⟨k, t⟩ : Sigma _) ∈ transfers.entries ∧ t.transfer.playerID = id ∧
      ∀ e ∈ transfers.entries, e.2.transfer.playerID = id → e.2.rank ≤ t.rank)
    ⟨fun ⟨stored, player, last⟩ => ⟨AList.mem_lookup_iff.mpr stored, player,
        fun k' t' there => last ⟨k', t'⟩ (AList.mem_lookup_iff.mp there)⟩,
      fun ⟨stored, player, last⟩ => ⟨AList.mem_lookup_iff.mp stored, player,
        fun e there => last e.1 e.2 (AList.mem_lookup_iff.mpr there)⟩⟩

instance : Decidable (ClubFollows club transfers id) :=
  decidable_of_iff
    ((∀ e ∈ transfers.entries, LatestMove transfers id e.1 e.2 → club = e.2.transfer.toTeam) ∧
      ((∀ e ∈ transfers.entries, e.2.transfer.playerID ≠ id) → club = none))
    ⟨fun ⟨latest, unmoved⟩ =>
        ⟨fun k t isLatest => latest ⟨k, t⟩ (AList.mem_lookup_iff.mp isLatest.stored) isLatest,
          fun none_ => unmoved fun e there => none_ e.1 e.2 (AList.mem_lookup_iff.mpr there)⟩,
      fun ⟨latest, unmoved⟩ =>
        ⟨fun e _ isLatest => latest e.1 e.2 isLatest,
          fun none_ => unmoved fun k t there =>
            none_ ⟨k, t⟩ (AList.mem_lookup_iff.mp there)⟩⟩

/-- The value on a day is that of the row of the day. -/
theorem worthOf_eq_some {day : Date} {v : ℤ} :
    worthOf values id day = some v ↔
      ∃ e ∈ values.entries, e.1 = (id, day) ∧ e.2.valueMinor = v := by
  unfold worthOf
  rw [Option.map_eq_some_iff]
  constructor
  · rintro ⟨stored, found, same⟩
    exact ⟨⟨(id, day), stored⟩, AList.mem_lookup_iff.mp found, rfl, same⟩
  · rintro ⟨⟨key, stored⟩, entry, rfl, same⟩
    exact ⟨stored, AList.mem_lookup_iff.mpr entry, same⟩

theorem worthOf_isSome {day : Date} :
    (worthOf values id day).isSome ↔ ∃ e ∈ values.entries, e.1 = (id, day) := by
  rw [Option.isSome_iff_exists]
  simp only [worthOf_eq_some]
  exact ⟨fun ⟨_, e, entry, same, _⟩ => ⟨e, entry, same⟩,
    fun ⟨e, entry, same⟩ => ⟨_, e, entry, same, rfl⟩⟩

instance : Decidable (ValueFollows value (worthOf values id)) :=
  decidable_of_iff
    ((∀ e ∈ values.entries, e.1.1 = id →
        (∀ e' ∈ values.entries, e'.1.1 = id → e'.1.2 ≤ e.1.2) → value = e.2.valueMinor) ∧
      ((∀ e ∈ values.entries, e.1.1 ≠ id) → value = 0)) (by
    constructor
    · rintro ⟨latest, unvalued⟩
      refine ⟨fun day v found last => ?_, fun none_ => unvalued fun e entry same => ?_⟩
      · obtain ⟨e, entry, key, rfl⟩ := worthOf_eq_some.mp found
        refine latest e entry (congrArg Prod.fst key) fun e' entry' player => ?_
        rw [show e.1.2 = day from congrArg Prod.snd key]
        exact last e'.1.2 (worthOf_isSome.mpr ⟨e', entry', Prod.ext player rfl⟩)
      · have some_ : (worthOf values id e.1.2).isSome :=
          worthOf_isSome.mpr ⟨e, entry, Prod.ext same rfl⟩
        rw [none_] at some_
        cases some_
    · rintro ⟨latest, unvalued⟩
      refine ⟨fun e entry player last => ?_, fun none_ => unvalued fun day => ?_⟩
      · refine latest e.1.2 _ (worthOf_eq_some.mpr ⟨e, entry, Prod.ext player rfl, rfl⟩)
          fun day there => ?_
        obtain ⟨e', entry', key⟩ := worthOf_isSome.mp there
        rw [← show e'.1.2 = day from congrArg Prod.snd key]
        exact last e' entry' (congrArg Prod.fst key)
      · rw [← Option.not_isSome_iff_eq_none, worthOf_isSome]
        rintro ⟨e, entry, key⟩
        exact none_ e entry (congrArg Prod.fst key))

instance : Decidable (Derived s id) :=
  decidable_of_iff ((s.players.lookup id).all fun p =>
      ClubFollows p.teamID s.transfers id ∧
        ValueFollows p.marketValue (worthOf s.values id)) (by
    rw [Option.all_eq_true]
    exact forall₂_congr fun p _ => decide_eq_true_iff)

/-- The columns of every player follow when those of every row do. -/
theorem derived_of_entries (all : ∀ e ∈ s.players.entries, Derived s e.1) (id : String) :
    Derived s id := by
  intro p found
  exact all ⟨id, p⟩ (AList.mem_lookup_iff.mp found) p found

theorem owned_of_entries (all : ∀ e ∈ s.values.entries, (s.players.lookup e.1.1).isSome) :
    Owned s := by
  intro id day valued
  obtain ⟨e, entry, key⟩ := worthOf_isSome.mp valued
  rw [← show e.1.1 = id from congrArg Prod.fst key]
  exact all e entry

end Decide

/-! ## When they do after an import -/

/-- The latest of a player's transfers leads to a club; of several that are equally late, each
does. -/
structure LeadsTo (history : List Arrival) (club : Option String) : Prop where
  moved : history ≠ []
  latest : ∀ a ∈ history, (∀ b ∈ history, b.rank ≤ a.rank) → a.club = club

/-- The valuations of a player, before an import and in the source, agree with the value it
gives: where a stored one is later than all of the source's, the source gives the same value
or none, and where none is, the source's last one is the value given, or the value stored
when none is given. A player without any is given none. -/
structure ValueFits (stored : ℤ) (given : Option ℤ) (source old : Date → Option ℤ) : Prop where
  hand : ∀ day v, old day = some v → (∀ d, (old d).isSome → d ≤ day) →
    (∀ d, (source d).isSome → d < day) → given.getD v = v
  sourced : ∀ day v, source day = some v → (∀ d, (source d).isSome → d ≤ day) →
    (∀ d, (old d).isSome → d ≤ day) → given.getD stored = v
  unvalued : (∀ d, source d = none) → (∀ d, old d = none) → given.getD 0 = 0

section Fits

/-- A club follows from the rows of a player when it follows from their history. -/
theorem clubFollows_iff {club : Option String} {history : List Arrival} {after : TransferTable}
    {id : String} (placed : club ≠ none)
    (stands : ∀ a, a ∈ history ↔
      ∃ k t, after.lookup k = some t ∧ t.transfer.playerID = id ∧ Arrival.of t = a) :
    ClubFollows club after id ↔ LeadsTo history club := by
  constructor
  · rintro ⟨latest, unmoved⟩
    constructor
    · rintro none_
      refine placed (unmoved fun k t stored player => ?_)
      have member := (stands (Arrival.of t)).mpr ⟨k, t, stored, player, rfl⟩
      rw [none_] at member
      cases member
    · intro a member last
      obtain ⟨k, t, stored, player, rfl⟩ := (stands a).mp member
      refine (latest k t ⟨stored, player, fun k' t' stored' player' => ?_⟩).symm
      exact last (Arrival.of t') ((stands _).mpr ⟨k', t', stored', player', rfl⟩)
  · rintro ⟨moved, leads⟩
    constructor
    · rintro k t ⟨stored, player, last⟩
      refine (leads (Arrival.of t) ((stands _).mpr ⟨k, t, stored, player, rfl⟩) ?_).symm
      intro b member
      obtain ⟨k', t', stored', player', rfl⟩ := (stands b).mp member
      exact last k' t' stored' player'
    · intro none_
      obtain ⟨a, member⟩ := List.exists_mem_of_ne_nil _ moved
      obtain ⟨k, t, stored, player, -⟩ := (stands a).mp member
      exact absurd player (none_ k t stored)

variable {stored : ℤ} {given : Option ℤ} {source old worth : Date → Option ℤ}

/-- A value follows from what is laid over the stored valuations exactly when the source and
what is stored fit. -/
theorem valueFollows_iff (before : ValueFollows stored old)
    (overlaid : ∀ day, worth day = (source day).or (old day)) :
    ValueFollows (given.getD stored) worth ↔ ValueFits stored given source old := by
  have present : ∀ d, (worth d).isSome ↔ (source d).isSome ∨ (old d).isSome := fun d => by
    rw [overlaid, Option.isSome_or, Bool.or_eq_true]
  constructor
  · rintro ⟨latest, unvalued⟩
    refine ⟨fun day v found oldLast sourceBefore => ?_, fun day v found sourceLast oldLast => ?_,
      fun noSource noOld => ?_⟩
    · have none_ : source day = none := by
        by_contra some_
        exact lt_irrefl day (sourceBefore day (Option.isSome_iff_ne_none.mpr some_))
      have value := latest day v (by rw [overlaid, none_, Option.none_or, found]) fun d there =>
        ((present d).mp there).elim (fun h => (sourceBefore d h).le) (oldLast d)
      rwa [before.latest day v found oldLast] at value
    · refine latest day v (by rw [overlaid, found, Option.some_or]) fun d there => ?_
      exact ((present d).mp there).elim (sourceLast d) (oldLast d)
    · have value := unvalued fun day => by rw [overlaid, noSource, noOld, Option.none_or]
      rwa [before.unvalued noOld] at value
  · rintro ⟨hand, fromSource, unvalued⟩
    constructor
    · intro day v found last
      have sourceLast : ∀ d, (source d).isSome → d ≤ day := fun d there =>
        last d ((present d).mpr (.inl there))
      have oldLast : ∀ d, (old d).isSome → d ≤ day := fun d there =>
        last d ((present d).mpr (.inr there))
      rw [overlaid] at found
      cases here : source day with
      | some u =>
          rw [here, Option.some_or] at found
          exact fromSource day v (here.trans found) sourceLast oldLast
      | none =>
          rw [here, Option.none_or] at found
          rw [before.latest day v found oldLast]
          refine hand day v found oldLast fun d there => lt_of_le_of_ne (sourceLast d there) ?_
          rintro rfl
          rw [here] at there
          cases there
    · intro none_
      have noSource : ∀ d, source d = none := fun d => by
        have nothing := none_ d
        rw [overlaid, Option.or_eq_none_iff] at nothing
        exact nothing.1
      have noOld : ∀ d, old d = none := fun d => by
        have nothing := none_ d
        rw [overlaid, Option.or_eq_none_iff] at nothing
        exact nothing.2
      rw [before.unvalued noOld]
      exact unvalued noSource noOld

end Fits

/-! ## The columns an import writes -/

section Columns

variable [Unicode] [Postgres] [Takes PlayerRow] {m : Merge} {started : Instant}
  {found : Option Players.Player} {r : PlayerRow} {rows : List PlayerRow} {sources : List Player}
  {p : Players.Player}

/-- The club of a player's row is that of the last source player, and it is one. -/
theorem teamID_run (run : rows.foldlM (storeOver (upsertRow started)) found = some (some p))
    (some_ : rows ≠ []) (carries : List.Forall₂ (Carries m) rows sources) :
    p.teamID = (sources.map fun q => clubOf m.clubs q.clubID).getLast? ∧ p.teamID ≠ none := by
  have teams : rows.map (·.team) = sources.map fun q => clubOf m.clubs q.clubID :=
    map_of_carries (fun carries => by rw [carries]; rfl) carries
  have last := (writesAll_run run).team
  have split : rows.map (fun r => some r.team) = (rows.map (·.team)).map some := by
    rw [List.map_map]
    rfl
  rw [split, List.getLast?_map, teams] at last
  cases club : (sources.map fun q => clubOf m.clubs q.clubID).getLast? with
  | none =>
      rw [← teams, List.getLast?_eq_none_iff, List.map_eq_nil_iff] at club
      exact absurd club some_
  | some club' =>
      rw [club, Option.map_some, Option.some_or, Option.some.injEq] at last
      exact ⟨last, by rw [last]; exact Option.some_ne_none _⟩

/-- The value of a player's row is the last one given. -/
theorem marketValue_run (run : rows.foldlM (storeOver (upsertRow started)) found = some (some p))
    (carries : List.Forall₂ (Carries m) rows sources) :
    p.marketValue =
      (lastGiven (fun q => valueGiven (valueMinorOf m.d.valuations q)) sources).getD
        (found.elim 0 (·.marketValue)) := by
  have given : lastGiven (fun r : PlayerRow => valueGiven r.value) rows =
      lastGiven (fun q => valueGiven (valueMinorOf m.d.valuations q)) sources :=
    lastGiven_of_carries (fun carries => by rw [carries]; rfl) carries
  rw [← given]
  exact (writesAll_run run).value

end Columns

/-! ## What is decided about transfers -/

section Decided

variable [Postgres] {players after : PlayerTable} {id : String}

/-- Of the rows selected, those of some players, an id finds its own. -/
theorem playerByID_selected {ids : List String} (listed : id ∈ ids) :
    playerByID ((selectPlayers players).filter (·.id ∈ ids)) id =
      (players.lookup id).map (localPlayer id) := by
  have rows : ∀ q, q ∈ (selectPlayers players).filter (·.id ∈ ids) → q.id = id →
      ∃ p, players.lookup id = some p ∧ q = localPlayer id p := by
    intro q member same
    obtain ⟨⟨k, p⟩, entry, rfl⟩ := List.mem_map.mp (List.mem_of_mem_filter member)
    obtain rfl : k = id := same
    exact ⟨p, AList.mem_lookup_iff.mpr entry, rfl⟩
  unfold playerByID
  cases found : players.lookup id with
  | none =>
      rw [List.find?_eq_none.mpr, Option.map_none]
      intro q member same
      obtain ⟨p, there, -⟩ := rows q (List.mem_reverse.mp member) (of_decide_eq_true same)
      rw [found] at there
      cases there
  | some p =>
      have member : localPlayer id p ∈ ((selectPlayers players).filter (·.id ∈ ids)).reverse := by
        rw [List.mem_reverse, List.mem_filter]
        exact ⟨List.mem_map.mpr ⟨⟨id, p⟩, AList.mem_lookup_iff.mp found, rfl⟩,
          decide_eq_true listed⟩
      cases picked : (((selectPlayers players).filter (·.id ∈ ids)).reverse).find? (·.id = id) with
      | none =>
          have absent := List.find?_eq_none.mp picked _ member
          exact absurd (decide_eq_true rfl) absent
      | some q =>
          have named := List.find?_some picked
          obtain ⟨p', there, same⟩ := rows q
            (List.mem_reverse.mp (List.mem_of_find?_eq_some picked)) (of_decide_eq_true named)
          rw [found] at there
          cases there
          rw [same, Option.map_some]

variable [Unicode] [CaseFolding] {newString : ℕ → String} {transfers : TransferTable} {m : Merge}

/-- What is decided about transfers depends on when the players that were there before were
created and their contracts began. -/
theorem transferPlan_congr
    (kept : ∀ id ∈ m.matched, ∃ p q, players.lookup id = some p ∧ after.lookup id = some q ∧
      q.createdAt = p.createdAt ∧ q.contractStart = p.contractStart) :
    transferPlan newString transfers (selectPlayers after) m =
      transferPlan newString transfers (selectPlayers players) m := by
  unfold transferPlan
  dsimp only
  congr 1
  unfold openings
  congr 1
  refine List.filter_congr fun t selected => ?_
  by_cases matched : t.playerID ∈ m.matched
  · obtain ⟨p, q, before, now, created, start⟩ := kept t.playerID matched
    have listed : t.playerID ∈ m.locals := by
      obtain ⟨e, member, rfl⟩ := List.mem_map.mp selected
      exact of_decide_eq_true (List.mem_filter.mp member).2
    have same : placeholder t (localPlayer t.playerID q) =
        placeholder t (localPlayer t.playerID p) := by
      have columns : localPlayer t.playerID q =
          { localPlayer t.playerID q with
            created := (localPlayer t.playerID p).created
            contractStart := (localPlayer t.playerID p).contractStart } := by
        simp only [localPlayer, created, start]
      rw [columns]
      rfl
    rw [createdOf, createdOf, playerByID_selected listed, playerByID_selected listed, before, now,
      Option.map_some, Option.map_some, Option.getD_some, Option.getD_some, same]
  · simp only [matched, decide_false, Bool.false_and]

end Decided

/-! ## A whole import -/

section Matched

variable [Unicode] {newString : ℕ → String} {existing : List LocalPlayer} {id : String}

/-- A player that was matched was there before, and is written. -/
theorem matched_playerStep {s : PlayerLoop}
    (all : ∀ id ∈ s.merge.matched, (playerByID existing id).isSome ∧ id ∈ s.touched)
    (p : Player) : ∀ id ∈ (playerStep newString existing s p).merge.matched,
      (playerByID existing id).isSome ∧ id ∈ (playerStep newString existing s p).touched := by
  intro id member
  unfold playerStep at member ⊢
  dsimp only at member ⊢
  split at member
  next chosen found =>
    rw [Merge.matched_remember] at member
    simp only [PlayerLoop.touched, List.map_append, List.mem_append]
    rcases List.mem_cons.mp member with rfl | before
    · refine ⟨?_, .inr (List.mem_singleton_self _)⟩
      rcases Option.or_eq_some_iff.mp found with referenced | ⟨-, picked⟩
      · exact (Option.filter_eq_some_iff.mp referenced).2
      · exact (matchPlayer_spec picked).2
    · exact ⟨(all id before).1, .inl (all id before).2⟩
  next =>
    rw [Merge.matched_remember] at member
    simp only [PlayerLoop.touched, List.map_append, List.mem_append]
    exact ⟨(all id member).1, .inl (all id member).2⟩

/-- A player who is matched was there and is touched. -/
theorem matched_playerLoop (m : Merge)
    (matched : id ∈ (playerLoop newString existing m).merge.matched) :
    (playerByID existing id).isSome ∧ id ∈ (playerLoop newString existing m).touched := by
  have run : ∀ (players : List Player) (s : PlayerLoop),
      (∀ id ∈ s.merge.matched, (playerByID existing id).isSome ∧ id ∈ s.touched) →
      ∀ id ∈ (players.foldl (playerStep newString existing) s).merge.matched,
        (playerByID existing id).isSome ∧
          id ∈ (players.foldl (playerStep newString existing) s).touched := by
    intro players
    induction players with
    | nil => exact fun s all => all
    | cons p players ih => exact fun s all => ih _ (matched_playerStep all p)
  exact run _ _ (fun id member => (List.not_mem_nil member).elim) id matched

end Matched

section Fits

variable [Unicode] [CaseFolding] [Postgres] [Joins]

/-- What an import finds of the players' transfers, once it knows who the source's players
are. -/
def career (newString : ℕ → String) (s : Tables) (m : Merge) : Career where
  transfers := s.transfers
  recorded := s.recorded
  players := selectPlayers s.players
  source := (playerLoop newString (selectPlayers s.players) m).merge

/-- What an import finds and what the source says of one player fit: with the source's moves
laid over the transfers stored, the latest leads to the club of the source, and the value the
source gives is the latest of the valuations, stored and of the source. -/
structure CareerFits (newString : ℕ → String) (s : Tables) (m : Merge) (id : String) : Prop where
  club : LeadsTo ((career newString s m).history id)
    ((((playerLoop newString (selectPlayers s.players) m).sourcesOf m.d.players id).map
      fun p => clubOf m.clubs p.clubID).getLast?)
  value : ValueFits ((s.players.lookup id).elim 0 (·.marketValue))
    (lastGiven (fun p => valueGiven (valueMinorOf m.d.valuations p))
      ((playerLoop newString (selectPlayers s.players) m).sourcesOf m.d.players id))
    (sourceWorth (playerLoop newString (selectPlayers s.players) m).merge id)
    (worthOf s.values id)

end Fits

section Import

variable [Unicode] [CaseFolding] [Postgres] [Joins] [Takes PlayerRow] [Takes ValueRow]
  [Takes MoveRow] {started : Instant} {newString : ℕ → String} {s after : Tables} {m : Merge}

/-- What each step of a committed import has made of its table. -/
theorem careers_spec (committed : importCareers started newString s m = some after) :
    importPlayers started newString s.players m = some after.players ∧
      importValuations s.values (playerLoop newString (selectPlayers s.players) m).merge =
        some after.values ∧
      (transferPlan newString s.transfers (selectPlayers s.players)
        (playerLoop newString (selectPlayers s.players) m).merge).run s.transfers s.recorded =
          some after.transfers := by
  obtain ⟨players, first, committed⟩ := Option.bind_eq_some_iff.mp committed
  obtain ⟨values, second, committed⟩ := Option.bind_eq_some_iff.mp committed
  obtain ⟨transfers, third, same⟩ := Option.bind_eq_some_iff.mp committed
  cases same
  refine ⟨first, second, ?_⟩
  rw [← transferPlan_congr]
  · exact third
  intro id matched
  obtain ⟨there, touched⟩ := matched_playerLoop m matched
  obtain ⟨q, member, rfl⟩ := playerByID_isSome.mp there
  obtain ⟨⟨k, p⟩, entry, rfl⟩ := List.mem_map.mp member
  have found : s.players.lookup k = some p := AList.mem_lookup_iff.mpr entry
  obtain ⟨rows, stored, now, -, run, -⟩ := run_of_touched first touched
  have writes := writesAll_run run
  refine ⟨p, stored, found, now, ?_, ?_⟩
  · rw [writes.created]
    exact congrArg (Option.elim · started (·.createdAt)) found
  · rw [writes.start]
    exact congrArg (Option.bind · (·.contractStart)) found

/-- **The derived columns after an import.** When each player's club and market value
followed from the history before it, those of every player an import has touched do after
it exactly when, for each of them, what was there and what the source says fit. The ids drawn
are to be new. -/
theorem derived_iff (committed : importCareers started newString s m = some after)
    (owned : Owned s) (before : ∀ id, Derived s id)
    (distinct : Function.Injective newString)
    (newRows : ∀ n, s.transfers.lookup (newString n) = none) :
    (∀ id ∈ (playerLoop newString (selectPlayers s.players) m).touched, Derived after id) ↔
      ∀ id ∈ (playerLoop newString (selectPlayers s.players) m).touched,
        CareerFits newString s m id := by
  obtain ⟨players, values, transfers⟩ := careers_spec committed
  refine forall₂_congr fun id touched => ?_
  obtain ⟨rows, p, stored, some_, run, carries⟩ := run_of_touched players touched
  obtain ⟨club, placed⟩ := teamID_run run some_ carries
  have value := marketValue_run run carries
  have start : ValueFollows ((s.players.lookup id).elim 0 (·.marketValue))
      (worthOf s.values id) := by
    cases found : s.players.lookup id with
    | some row => exact (before id row found).2
    | none =>
        have unvalued : ∀ day, worthOf s.values id day = none := fun day => by
          by_contra some_
          have known := owned id day (Option.isSome_iff_ne_none.mpr some_)
          rw [found] at known
          cases known
        refine ⟨fun day v given => ?_, fun _ => rfl⟩
        rw [unvalued day] at given
        cases given
  have stands : ∀ a, a ∈ (career newString s m).history id ↔ ∃ k t,
      after.transfers.lookup k = some t ∧ t.transfer.playerID = id ∧ Arrival.of t = a := fun a =>
    Career.mem_history_iff (c := career newString s m) distinct newRows transfers
  have clubs := clubFollows_iff placed stands
  have valuations : ValueFollows
      ((lastGiven (fun q => valueGiven (valueMinorOf m.d.valuations q))
        ((playerLoop newString (selectPlayers s.players) m).sourcesOf m.d.players id)).getD _) _ ↔
      _ := valueFollows_iff start (worthOf_importValuations values id)
  rw [club] at clubs
  rw [← value] at valuations
  unfold Derived
  rw [stored]
  simp only [Option.some.injEq, forall_eq']
  constructor
  · rintro ⟨clubFollows, valueFollows⟩
    rw [club] at clubFollows
    exact ⟨clubs.mp clubFollows, valuations.mp valueFollows⟩
  · rintro ⟨clubFits, valueFits⟩
    rw [club]
    exact ⟨clubs.mpr clubFits, valuations.mpr valueFits⟩

end Import

section Perez

/-- Days as Postgres reads and writes them. -/
@[reducible]
def isoDates : Postgres where
  toDay := Dates.parse
  dayText day :=
    if day = 739067 then "2024-07-01" else if day = 739625 then "2026-01-10" else "1999-01-01"

@[reducible]
def takesPerez : Takes PlayerRow where
  takes r := r.id = "1f0b6c3e-5a27-4d8e-b1f9-3c6e8a2d7b40" &&
    r.team = "7d4a1e92-08c5-4f6b-9e13-2b5d0c7a6f18"

@[reducible]
def takesWorth : Takes ValueRow where
  takes r := r.player = "1f0b6c3e-5a27-4d8e-b1f9-3c6e8a2d7b40"

@[reducible]
def takesCareer : Takes MoveRow where
  takes r := r.player = "1f0b6c3e-5a27-4d8e-b1f9-3c6e8a2d7b40" && r.season = none

@[reducible]
def firstJoined : Joins where
  choose _ := 0

/-- The move an earlier import has recorded. -/
def arrival : Squad.Move :=
  ⟨⟨"1f0b6c3e-5a27-4d8e-b1f9-3c6e8a2d7b40", none, some "7d4a1e92-08c5-4f6b-9e13-2b5d0c7a6f18",
    none, 739067, "permanent", none, "EUR"⟩, 0⟩

/-- A move entered by hand since. -/
def departure : Squad.Move :=
  ⟨⟨"1f0b6c3e-5a27-4d8e-b1f9-3c6e8a2d7b40", some "7d4a1e92-08c5-4f6b-9e13-2b5d0c7a6f18",
    some "e6a0d9b4-71f3-4c25-8d08-95b4c2e1f763", none, 739625, "permanent", none, "EUR"⟩, 1⟩

/-- Perez at the club the source knows. -/
def imported : Tables where
  players := (∅ : PlayerTable).insert "1f0b6c3e-5a27-4d8e-b1f9-3c6e8a2d7b40"
    { perezRow [] with marketValue := 100000000 }
  values := (∅ : ValueTable).insert ("1f0b6c3e-5a27-4d8e-b1f9-3c6e8a2d7b40", 739585)
    ⟨100000000, "EUR"⟩
  transfers := (∅ : TransferTable).insert "90b3f6d1-2c48-4e7a-a5d0-7f1e6c3b8d29" arrival
  recorded := 1

/-- Perez after a move and a valuation that were entered by hand. -/
def entered : Tables where
  players := (∅ : PlayerTable).insert "1f0b6c3e-5a27-4d8e-b1f9-3c6e8a2d7b40"
    { perezRow [] with
      teamID := some "e6a0d9b4-71f3-4c25-8d08-95b4c2e1f763"
      marketValue := 500000000 }
  values := imported.values.insert ("1f0b6c3e-5a27-4d8e-b1f9-3c6e8a2d7b40", 739625)
    ⟨500000000, "EUR"⟩
  transfers := imported.transfers.insert "b7c41d08-e65f-4392-9a1b-08d3f5a7c6e2" departure
  recorded := 2

/-- The source's Perez, whose last move and valuation are older. -/
def perezCareer : Merge where
  d :=
    { clubs := ∅
      players :=
        [⟨"800", "Juan Perez", "Juan", "Perez", "Spain", "1999-01-01", "Defender", "Centre-Back",
            "right", 188, "2027-06-30", "", "2448", 1000000, none, none⟩]
      transfers := (∅ : GoMap (List RawTransfer)).insert "800"
        [⟨"2024-07-01", "3302", "2448", "UD Almería", "Sevilla FC", none⟩]
      valuations := [⟨"800", "2025-12-01", 1000000⟩]
      latestSeason := 2025 }
  scope := ⟨["ES1"], 2020⟩
  report := {}
  refs := ((∅ : AList fun _ : String × String => String).insert
    ("player", "800") "1f0b6c3e-5a27-4d8e-b1f9-3c6e8a2d7b40").insert
    ("transfer", "800|2024-07-01|3302|2448") "90b3f6d1-2c48-4e7a-a5d0-7f1e6c3b8d29"
  newRefs := []
  comps := ∅
  seasons := []
  clubs := (∅ : GoMap String).insert "2448" "7d4a1e92-08c5-4f6b-9e13-2b5d0c7a6f18"
  players := ∅
  matched := []
  drawn := 0

/-- Each player of a source is at the club their last move went to, and is worth what their
last valuation says. -/
def Consistent [Unicode] [CaseFolding] (d : Dataset) : Prop :=
  ∀ p ∈ d.players,
    (classify ((d.transfers.lookup p.id).getD [])).getLast?.map (·.raw.toID) = some p.clubID ∧
      p.marketValueEUR = latestValue d.valuations p.id

/-- Whether an import touches Perez and leaves the columns following from the history. -/
def leaves (after : Tables) (touched : List String) (follows : Bool) : Bool :=
  touched = ["1f0b6c3e-5a27-4d8e-b1f9-3c6e8a2d7b40"] &&
    decide (Derived after "1f0b6c3e-5a27-4d8e-b1f9-3c6e8a2d7b40") = follows

/-- Where nothing has been entered by hand since, what is there and the source fit. -/
theorem derived_iff_imported :
    let _ := Unicode.ascii
    let _ := CaseFolding.ascii
    let _ := isoDates
    let _ := firstJoined
    let _ := takesPerez
    let _ := takesWorth
    let _ := takesCareer
    CareerFits zeros imported perezCareer "1f0b6c3e-5a27-4d8e-b1f9-3c6e8a2d7b40" := by
  intro _ _ _ _ _ _ _
  have runs : (importCareers february zeros imported perezCareer).any (fun after =>
      leaves after (playerLoop zeros (selectPlayers imported.players) perezCareer).touched
        true) = true := by decide +kernel
  obtain ⟨after, committed, good⟩ := (Option.any_eq_true _ _).mp runs
  simp only [leaves, Bool.and_eq_true, decide_eq_true_iff] at good
  obtain ⟨touched, follows⟩ := good
  have before : (∀ e ∈ imported.players.entries, Derived imported e.1) ∧
      ∀ e ∈ imported.values.entries, (imported.players.lookup e.1.1).isSome := by decide +kernel
  have newRows : ∀ n, imported.transfers.lookup (zeros n) = none := by
    intro n
    change ((∅ : TransferTable).insert _ arrival).lookup (zeros n) = none
    rw [AList.lookup_insert_ne (zeros_ne (by decide) n).symm]
    exact AList.lookup_empty _
  refine (derived_iff committed (owned_of_entries before.2) (derived_of_entries before.1)
    zeros_injective newRows).mp ?_ _ ?_
  · intro id member
    rw [touched, List.mem_singleton] at member
    rw [member]
    exact follows
  · rw [touched]
    exact List.mem_singleton_self _

/-- After a move and a valuation entered by hand, an import puts the club and the value of
the source back, and the later history stays. -/
theorem derived_overwritten :
    let _ := Unicode.ascii
    let _ := CaseFolding.ascii
    let _ := isoDates
    let _ := firstJoined
    let _ := takesPerez
    let _ := takesWorth
    let _ := takesCareer
    Owned entered ∧ (∀ id, Derived entered id) ∧ Consistent perezCareer.d ∧
      ∃ after, importCareers february drawnID entered perezCareer = some after ∧
        "1f0b6c3e-5a27-4d8e-b1f9-3c6e8a2d7b40" ∈
          (playerLoop drawnID (selectPlayers entered.players) perezCareer).touched ∧
        ¬ Derived after "1f0b6c3e-5a27-4d8e-b1f9-3c6e8a2d7b40" := by
  intro _ _ _ _ _ _ _
  have runs : (importCareers february drawnID entered perezCareer).any (fun after =>
      leaves after (playerLoop drawnID (selectPlayers entered.players) perezCareer).touched
        false) = true := by decide +kernel
  obtain ⟨after, committed, good⟩ := (Option.any_eq_true _ _).mp runs
  simp only [leaves, Bool.and_eq_true, decide_eq_true_iff, decide_eq_false_iff_not] at good
  obtain ⟨touched, behind⟩ := good
  have before : (∀ e ∈ entered.players.entries, Derived entered e.1) ∧
      (∀ e ∈ entered.values.entries, (entered.players.lookup e.1.1).isSome) := by decide +kernel
  have consistent : ∀ p ∈ perezCareer.d.players,
      (classify ((perezCareer.d.transfers.lookup p.id).getD [])).getLast?.map (·.raw.toID) =
          some p.clubID ∧
        p.marketValueEUR = latestValue perezCareer.d.valuations p.id := by decide +kernel
  refine ⟨owned_of_entries before.2, derived_of_entries before.1, consistent, after, committed,
    ?_, behind⟩
  rw [touched]
  exact List.mem_singleton_self _

end Perez

end ScoutPulse.Importer
