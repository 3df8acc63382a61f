import ScoutPulse.Football.Importer.Assigned

/-!
# The history an import leaves

What a player's transfers are after an import can be read off what was stored and what the
source says, without running it: each of the source's moves is laid over the row its reference
names, or over the first row entered by hand that suits it and is still free, or stands beside
them as a new entry; of the rows no move is laid over, an opening is dropped and the others
stay. The statements leave just that.
-/

namespace ScoutPulse.Importer

open Matching
open Squad (Date)
open Strings

/-! ## The moves a row is wanted for -/

/-- A move of the source's, of a player in the import. -/
structure Request where
  sourcePlayer : String
  player : String
  move : Move

/-- What the move is remembered under. -/
def Request.key (q : Request) : String := moveKey q.sourcePlayer q.move.raw

/-- The moves of one player that join a club of the import. One that is listed again is passed
over. -/
def Merge.wanted (m : Merge) (sourcePlayer player : String) (seen : List String) :
    List Move → List Request
  | [] => []
  | mv :: moves =>
      if m.Joins mv.raw ∧ moveKey sourcePlayer mv.raw ∉ seen then
        ⟨sourcePlayer, player, mv⟩ ::
          m.wanted sourcePlayer player (moveKey sourcePlayer mv.raw :: seen) moves
      else m.wanted sourcePlayer player seen moves

/-- The moves of all players, by player and by date. -/
def Merge.requests [Unicode] [CaseFolding] (m : Merge) : List Request :=
  (sortedKeys m.d.transfers).flatMap fun sourcePlayer =>
    (m.players.lookup sourcePlayer).elim [] fun player =>
      m.wanted sourcePlayer player [] (m.moves sourcePlayer)

/-! ## The rows they are laid over -/

/-- A row entered by hand that a move may be laid over: one of its player's, between its clubs
and within a week of its date, as the days are counted. -/
def Request.suits (q : Request) (m : Merge) (t : LocalTransfer) : Bool :=
  !m.refByLocal t.id && t.playerID = q.player && t.fromTeam = m.teamFor q.move.raw.fromID &&
    t.toTeam = m.teamFor q.move.raw.toID && daysApart t.date q.move.raw.date ≤ 7

/-- The moves so far, each with the row it is laid over. -/
abbrev Placing := List (Request × Option String)

namespace Placing

/-- The rows that are taken. -/
def taken (placed : Placing) : List String := placed.filterMap (·.2)

/-- The row a key refers to: the one its last move is laid over, and before there is one the
row its reference names. -/
def refers (existing : List LocalTransfer) (m : Merge) (placed : Placing) (key : String) :
    Option String :=
  placed.foldl (fun named p => if p.1.key = key then p.2 else named)
    ((m.ref "transfer" key).filter fun id => id ∈ existing.map (·.id))

/-- The row a move is laid over when some have been laid. -/
def place (existing : List LocalTransfer) (m : Merge) (placed : Placing) (q : Request) :
    Option String :=
  (placed.refers existing m q.key).or
    ((existing.find? fun t => t.id ∉ placed.taken ∧ q.suits m t = true).map (·.id))

def add (existing : List LocalTransfer) (m : Merge) (placed : Placing) (q : Request) :
    Placing :=
  placed ++ [(q, placed.place existing m q)]

/-- The rows to be rewritten. -/
def updates (placed : Placing) (m : Merge) : List MoveRow :=
  placed.filterMap fun p => p.2.map fun id => m.rowOf p.1.player id p.1.move

/-- The moves that become new rows. -/
def fresh (placed : Placing) : List Request :=
  placed.filterMap fun p => if p.2 = none then some p.1 else none

/-- The rows to be inserted, under ids drawn one after the other. -/
def inserts (placed : Placing) (m : Merge) (newString : ℕ → String) : List MoveRow :=
  (placed.fresh.zipIdx m.drawn).map fun p => m.rowOf p.1.player (newString p.2) p.1.move

end Placing

/-- The source's moves, laid over the rows that were there one after the other. -/
def Merge.placing [Unicode] [CaseFolding] (m : Merge) (existing : List LocalTransfer) :
    Placing :=
  m.requests.foldl (Placing.add existing m) []

/-! ## The loop lays the moves in the same way -/

/-- Where the loop stands when some moves have been laid. -/
structure Follows (newString : ℕ → String) (existing : List LocalTransfer) (m : Merge)
    (placed : Placing) (s : TransferLoop) : Prop where
  frame : Frame m s
  refs : ∀ key, (s.merge.ref "transfer" key).filter (fun id => id ∈ existing.map (·.id)) =
    placed.refers existing m key
  claimed : ∀ id, id ∈ s.claimed ↔ id ∈ placed.taken
  drawn : s.merge.drawn = m.drawn + placed.fresh.length
  updates : s.updates = placed.updates m
  inserts : s.inserts = placed.inserts m newString

section Steps

variable {newString : ℕ → String} {existing : List LocalTransfer} {m : Merge}
  {placed : Placing} {s : TransferLoop} {sourcePlayer player : String} {mv : Move} {q : Request}
  {id key : String}

theorem refers_append (row : Option String) :
    Placing.refers existing m (placed ++ [(q, row)]) key =
      if q.key = key then row else placed.refers existing m key := by
  rw [Placing.refers, List.foldl_append]
  rfl

theorem taken_append (row : Option String) :
    Placing.taken (placed ++ [(q, row)]) = placed.taken ++ row.toList := by
  rw [Placing.taken, List.filterMap_append]
  cases row <;> rfl

theorem fresh_append (row : Option String) :
    Placing.fresh (placed ++ [(q, row)]) =
      placed.fresh ++ if row = none then [q] else [] := by
  rw [Placing.fresh, List.filterMap_append]
  cases row <;> rfl

/-- The rows to be rewritten are those that are taken. -/
theorem ids_updates (placed : Placing) (m : Merge) :
    (placed.updates m).map (·.id) = placed.taken := by
  rw [Placing.updates, List.map_filterMap, Placing.taken]
  congr 1
  funext p
  cases p.2 <;> rfl

/-- The rows to be inserted have ids drawn one after the other. -/
theorem getElem?_inserts (placed : Placing) (m : Merge) (newString : ℕ → String) (i : ℕ) :
    (placed.inserts m newString)[i]? = placed.fresh[i]?.map fun q =>
      m.rowOf q.player (newString (m.drawn + i)) q.move := by
  rw [Placing.inserts, List.getElem?_map, List.getElem?_zipIdx, Option.map_map]
  rfl

/-- What is dropped depends on which rows are taken. -/
theorem openings_congr {existing : List LocalTransfer} {players : List LocalPlayer} {m : Merge}
    {claimed taken : List String} (same : ∀ id, id ∈ claimed ↔ id ∈ taken) :
    openings existing players m claimed = openings existing players m taken := by
  simp only [openings, same]

/-- The loop chooses the row the move is laid over. -/
theorem Follows.chosen_eq (follows : Follows newString existing m placed s) :
    s.chosen existing m.refByLocal q.player q.sourcePlayer q.move =
      placed.place existing m q := by
  have referenced : s.referenced existing q.key = placed.refers existing m q.key := by
    rw [TransferLoop.referenced, ← follows.refs]
    congr 1
    funext id
    rw [Bool.eq_iff_iff]
    simp
  have adopted : s.adopted existing m.refByLocal q.player (s.merge.teamFor q.move.raw.fromID)
      (s.merge.teamFor q.move.raw.toID) q.move.raw.date =
      (existing.find? fun t => t.id ∉ placed.taken ∧ q.suits m t = true).map (·.id) := by
    rw [TransferLoop.adopted]
    congr 2
    funext t
    rw [Bool.eq_iff_iff]
    simp only [Request.suits, follows.frame.teamFor, ← follows.claimed, Bool.and_eq_true,
      decide_eq_true_eq]
    tauto
  rw [TransferLoop.chosen, ← Request.key, referenced, adopted, Placing.place]

/-- A row that is chosen is one of those selected. -/
theorem mem_of_chosen {refByLocal : String → Bool}
    (chosen : s.chosen existing refByLocal player sourcePlayer mv = some id) :
    id ∈ existing.map (·.id) := by
  rw [TransferLoop.chosen, Option.or_eq_some_iff] at chosen
  rcases chosen with referenced | ⟨-, adopted⟩
  · exact mem_of_referenced referenced
  · exact mem_of_adopted adopted

/-- What a key refers to after one more is remembered. -/
theorem Follows.refs_remember (follows : Follows newString existing m placed s) {m' : Merge}
    (remembered : m'.ref "transfer" = Function.update (s.merge.ref "transfer") q.key (some id))
    {row : Option String}
    (names : (some id).filter (fun id => id ∈ existing.map (·.id)) = row) (key : String) :
    (m'.ref "transfer" key).filter (fun id => id ∈ existing.map (·.id)) =
      Placing.refers existing m (placed ++ [(q, row)]) key := by
  rw [refers_append, remembered]
  split_ifs with same
  · rw [← same, Function.update_self]
    exact names
  · rw [Function.update_of_ne (Ne.symm same)]
    exact follows.refs key

/-- A move that takes a row that is there. -/
theorem Follows.claim (follows : Follows newString existing m placed s)
    (chosen : placed.place existing m q = some id) (there : id ∈ existing.map (·.id))
    (report : Report) (frame : Frame m (s.claim q.player id q.key q.move report)) :
    Follows newString existing m (placed.add existing m q)
      (s.claim q.player id q.key q.move report) := by
  have fresh : Placing.fresh (placed ++ [(q, some id)]) = placed.fresh := by
    rw [fresh_append]
    exact List.append_nil _
  have remembered : (s.claim q.player id q.key q.move report).merge.ref "transfer" =
      Function.update (s.merge.ref "transfer") q.key (some id) := Merge.ref_remember_eq ..
  have names : (some id).filter (fun id => id ∈ existing.map (·.id)) = some id := by
    rw [Option.filter_some, if_pos (decide_eq_true there)]
  rw [Placing.add, chosen]
  refine ⟨frame, follows.refs_remember remembered names, ?_, ?_, ?_, ?_⟩
  · intro other
    rw [taken_append, TransferLoop.claim, List.mem_cons, follows.claimed, List.mem_append,
      Option.toList_some, List.mem_singleton, or_comm]
  · rw [fresh, TransferLoop.claim, Merge.drawn_remember]
    exact follows.drawn
  · rw [Placing.updates, List.filterMap_append, TransferLoop.claim, follows.updates,
      follows.frame.row]
    rfl
  · rw [Placing.inserts, fresh]
    exact follows.inserts

/-- A move that becomes a new row. -/
theorem Follows.create (follows : Follows newString existing m placed s)
    (new : ∀ n, newString n ∉ existing.map (·.id)) (chosen : placed.place existing m q = none)
    (frame : Frame m (s.create q.player newString q.key q.move)) :
    Follows newString existing m (placed.add existing m q)
      (s.create q.player newString q.key q.move) := by
  have fresh : Placing.fresh (placed ++ [(q, none)]) = placed.fresh ++ [q] := fresh_append none
  have remembered : (s.create q.player newString q.key q.move).merge.ref "transfer" =
      Function.update (s.merge.ref "transfer") q.key (some (newString s.merge.drawn)) :=
    Merge.ref_remember_eq ..
  have names : (some (newString s.merge.drawn)).filter
      (fun id => id ∈ existing.map (·.id)) = none := by
    rw [Option.filter_some, if_neg fun listed => new _ (of_decide_eq_true listed)]
  rw [Placing.add, chosen]
  refine ⟨frame, follows.refs_remember remembered names, ?_, ?_, ?_, ?_⟩
  · intro other
    rw [taken_append, Option.toList_none, List.append_nil]
    exact follows.claimed other
  · rw [fresh, TransferLoop.create, Merge.drawn_remember, List.length_append]
    change s.merge.drawn + 1 = _
    rw [follows.drawn, List.length_singleton, Nat.add_assoc]
  · rw [Placing.updates, List.filterMap_append, TransferLoop.create, follows.updates]
    exact (List.append_nil _).symm
  · rw [Placing.inserts, fresh, List.zipIdx_append, List.map_append, TransferLoop.create,
      follows.inserts, follows.frame.row, follows.drawn]
    rfl

/-- The moves of one player are laid as the loop takes them. -/
theorem Follows.moves (follows : Follows newString existing m placed s)
    (new : ∀ n, newString n ∉ existing.map (·.id)) (moves : List Move) :
    Follows newString existing m
      ((m.wanted sourcePlayer player s.seen moves).foldl (Placing.add existing m) placed)
      (moves.foldl (TransferLoop.step existing m.refByLocal player newString sourcePlayer) s) := by
  induction moves generalizing placed s with
  | nil => exact follows
  | cons mv moves ih =>
      rw [List.foldl_cons, Merge.wanted]
      have took := took_step existing m.refByLocal player newString sourcePlayer s mv
      have frame := follows.frame.step took
      generalize s.step existing m.refByLocal player newString sourcePlayer mv = s'
        at took frame ⊢
      have laid := follows.chosen_eq (q := ⟨sourcePlayer, player, mv⟩)
      cases took with
      | outside outside =>
          rw [follows.frame.joins] at outside
          rw [if_neg fun both => outside both.1]
          exact ih follows
      | repeated again =>
          rw [if_neg fun both => both.2 again]
          exact ih follows
      | claimed report joins unseen chosen =>
          rw [follows.frame.joins] at joins
          rw [if_pos ⟨joins, unseen⟩, List.foldl_cons]
          exact ih (follows.claim (laid.symm.trans chosen) (mem_of_chosen chosen) report frame)
      | created joins unseen chosen =>
          rw [follows.frame.joins] at joins
          rw [if_pos ⟨joins, unseen⟩, List.foldl_cons]
          exact ih (follows.create new (laid.symm.trans chosen) frame)

variable [Unicode] [CaseFolding]

/-- So are those of some players. -/
theorem Follows.players (follows : Follows newString existing m placed s)
    (new : ∀ n, newString n ∉ existing.map (·.id)) (players : List String) :
    Follows newString existing m
      ((players.flatMap fun sourcePlayer => (m.players.lookup sourcePlayer).elim []
        fun player => m.wanted sourcePlayer player [] (m.moves sourcePlayer)).foldl
          (Placing.add existing m) placed)
      (players.foldl (TransferLoop.ofPlayer existing m.refByLocal newString) s) := by
  induction players generalizing placed s with
  | nil => exact follows
  | cons sourcePlayer players ih =>
      rw [List.flatMap_cons, List.foldl_append, List.foldl_cons, TransferLoop.ofPlayer,
        follows.frame.players, follows.frame.d]
      cases imported : m.players.lookup sourcePlayer with
      | none => exact ih follows
      | some player =>
          have begins : Follows newString existing m placed { s with seen := [] } :=
            { follows with frame := follows.frame.reset }
          exact ih (begins.moves new _)

/-- **The loop over the source's moves** lays them over the rows that were there as they are
laid without it. -/
theorem follows_transferLoop (existing : List LocalTransfer) (m : Merge)
    (new : ∀ n, newString n ∉ existing.map (·.id)) :
    Follows newString existing m (m.placing existing) (transferLoop newString existing m) := by
  have start : Follows newString existing m [] (loopStart m) :=
    ⟨⟨rfl, rfl, rfl, rfl⟩, fun _ => rfl, by simp [loopStart, Placing.taken], rfl, rfl, rfl⟩
  exact start.players new _

end Steps

/-! ## Several moves over one row -/

section Joined

variable [Joins] {k : String} {rows : List MoveRow}

/-- The row a statement uses for the row of one id, when it sends some; the one used before
when it sends none. -/
def joined (k : String) (used : Option MoveRow) (rows : List MoveRow) : Option MoveRow :=
  match rows.filter (·.id = k) with
  | [] => used
  | first :: others =>
      some ((first :: others).getD (Joins.choose (first :: others)) first)

/-- The row the statements leave in the columns of the row of one id. -/
def written (k : String) (rows : List MoveRow) : Option MoveRow :=
  (inChunks (fun used chunk => some (joined k used chunk)) none rows).getD none

/-- A statement uses a row when it sends one, or when one was used before. -/
theorem isSome_joined {used : Option MoveRow} :
    (joined k used rows).isSome ↔ used.isSome ∨ k ∈ rows.map (·.id) := by
  have named : k ∈ rows.map (·.id) ↔ rows.filter (·.id = k) ≠ [] := by
    rw [Ne, List.filter_eq_nil_iff, List.mem_map]
    simp
  rw [named, joined]
  cases rows.filter (·.id = k) <;> simp

/-- A row is left in the columns when one is sent. -/
theorem isSome_written : (written k rows).isSome ↔ k ∈ rows.map (·.id) := by
  obtain ⟨used, run⟩ := inChunks_total (joined k) none rows
  rw [written, run, Option.getD_some]
  refine inChunks_invariant (P := fun used done => used.isSome ↔ k ∈ done.map (·.id)) run
    (by simp) ?_
  intro before after done chunk all _ sent
  obtain rfl := Option.some.inj sent
  rw [isSome_joined, all, List.map_append, List.mem_append]

variable [Postgres] [Takes MoveRow] {old t : Squad.Move}

/-- A statement rewrites a row that is there with the row it uses. -/
theorem rewriteAt_joined (k : String) (t : Squad.Move) (used : Option MoveRow)
    (rows : List MoveRow) :
    rewriteAt k (some t) rows = some (some t) ∧ joined k used rows = used ∨
      ∃ r, joined k used rows = some r ∧
        rewriteAt k (some t) rows = (rewriteMove t r).map some := by
  unfold rewriteAt joined
  cases rows.filter (·.id = k) with
  | nil => exact .inl ⟨rfl, rfl⟩
  | cons first others => exact .inr ⟨_, rfl, rfl⟩

/-- A row that is rewritten keeps its player and its place among those recorded, and has the
columns of the row the statements leave in it. -/
theorem columns_written
    (run : inChunks (rewriteAt k) (some old) rows = some (some t)) {r : MoveRow}
    (used : written k rows = some r) :
    (t.transfer.playerID = old.transfer.playerID ∧ t.recorded = old.recorded) ∧
      t.transfer.toTeam = r.toTeam ∧ Postgres.toDay r.date = some t.transfer.transferDate := by
  obtain ⟨last, both, notes⟩ := inChunks_pair (joined k) none run
  rw [written, notes, Option.getD_some] at used
  subst used
  have columns := inChunks_invariant (P := fun (p : Option Squad.Move × Option MoveRow) _ =>
      ∀ t, p.1 = some t →
        (t.transfer.playerID = old.transfer.playerID ∧ t.recorded = old.recorded) ∧
        ∀ r, p.2 = some r → t.transfer.toTeam = r.toTeam ∧
          Postgres.toDay r.date = some t.transfer.transferDate) both ?_ ?_ t rfl
  · exact ⟨columns.1, columns.2 r rfl⟩
  · rintro t ⟨⟩
    exact ⟨⟨rfl, rfl⟩, fun _ none_ => by cases none_⟩
  · rintro ⟨found, used⟩ after _ chunk before - sent
    obtain ⟨found', rewritten, rfl⟩ := Option.map_eq_some_iff.mp sent
    intro t' here
    dsimp only at here
    subst here
    cases found with
    | none => simp [rewriteAt] at rewritten
    | some t =>
        have kept := before t rfl
        rcases rewriteAt_joined k t used chunk with ⟨idle, same⟩ | ⟨r, uses, made⟩
        · obtain rfl := Option.some.inj (Option.some.inj (idle.symm.trans rewritten))
          dsimp only
          rw [same]
          exact kept
        · obtain ⟨t'', made, same⟩ := Option.map_eq_some_iff.mp (made.symm.trans rewritten)
          cases same
          obtain ⟨⟨owner, place⟩, -, club, cast⟩ := rewriteMove_columns made
          refine ⟨⟨owner.trans kept.1.1, place.trans kept.1.2⟩, fun r' is => ?_⟩
          obtain rfl := Option.some.inj (uses.symm.trans is)
          exact ⟨club, cast⟩

end Joined

/-! ## The history -/

/-- A transfer of a player's as it counts for their club. -/
structure Arrival where
  day : Date
  /-- How many transfers had been recorded before it. -/
  recorded : ℕ
  club : Option String
  deriving DecidableEq

/-- How late an arrival is: by its day, and by when it was recorded on one day. -/
def Arrival.rank (a : Arrival) : ℤ ×ₗ ℕ := toLex (a.day, a.recorded)

def Arrival.of (t : Squad.Move) : Arrival :=
  ⟨t.transfer.transferDate, t.recorded, t.transfer.toTeam⟩

/-- What one can see of a player's career before an import: the transfers that are stored, how
many were ever recorded, the players' rows, and the source. -/
structure Career where
  transfers : TransferTable
  recorded : ℕ
  players : List LocalPlayer
  source : Merge

namespace Career

variable [Unicode] [CaseFolding] [Postgres] [Joins] (c : Career)

/-- The rows the source's moves may be laid over. -/
def existing : List LocalTransfer := selectTransfers c.transfers c.source.locals

/-- The moves, laid over those rows. -/
def placing : Placing := c.source.placing c.existing

/-- What was entered with a player and is dropped. -/
def dropped : List String :=
  openings c.existing (c.players.filter (·.id ∈ c.source.locals)) c.source c.placing.taken

/-- The transfers of a player that stay as they were. -/
def left (id : String) : List Arrival :=
  (c.transfers.entries.filter fun e => e.2.transfer.playerID = id ∧ e.1 ∉ c.placing.taken ∧
    e.1 ∉ c.dropped).map (Arrival.of ·.2)

/-- Those a move of the source is laid over. -/
def overlaid (id : String) : List Arrival :=
  c.transfers.entries.filterMap fun e => do
    let r ← written e.1 (c.placing.updates c.source)
    let day ← Postgres.toDay r.date
    if e.2.transfer.playerID = id then some ⟨day, e.2.recorded, r.toTeam⟩ else none

/-- Those that are new. -/
def added (id : String) : List Arrival :=
  (c.placing.fresh.zipIdx c.recorded).filterMap fun p => do
    let day ← Postgres.toDay p.1.move.raw.date
    if p.1.player = id then some ⟨day, p.2, c.source.teamFor p.1.move.raw.toID⟩ else none

/-- The history of a player when the source has been laid over what was stored. -/
def history (id : String) : List Arrival := c.left id ++ c.overlaid id ++ c.added id

variable {c}

omit [Joins] in
/-- What stays is stored, is not taken and is not dropped. -/
theorem mem_left {id : String} {a : Arrival} : a ∈ c.left id ↔
    ∃ k t, c.transfers.lookup k = some t ∧ t.transfer.playerID = id ∧ k ∉ c.placing.taken ∧
      k ∉ c.dropped ∧ Arrival.of t = a := by
  rw [left, List.mem_map]
  constructor
  · rintro ⟨⟨k, t⟩, listed, rfl⟩
    obtain ⟨entry, stays⟩ := List.mem_filter.mp listed
    obtain ⟨own, free, stands⟩ := of_decide_eq_true stays
    exact ⟨k, t, AList.mem_lookup_iff.mpr entry, own, free, stands, rfl⟩
  · rintro ⟨k, t, stored, own, free, stands, rfl⟩
    exact ⟨⟨k, t⟩, List.mem_filter.mpr ⟨AList.mem_lookup_iff.mp stored,
      decide_eq_true ⟨own, free, stands⟩⟩, rfl⟩

/-- What a move is laid over is stored, and has the columns of the row written. -/
theorem mem_overlaid {id : String} {a : Arrival} : a ∈ c.overlaid id ↔
    ∃ k old r day, c.transfers.lookup k = some old ∧
      written k (c.placing.updates c.source) = some r ∧ Postgres.toDay r.date = some day ∧
      old.transfer.playerID = id ∧ ⟨day, old.recorded, r.toTeam⟩ = a := by
  rw [overlaid, List.mem_filterMap]
  simp only [Option.bind_eq_bind, Option.bind_eq_some_iff, Option.ite_none_right_eq_some,
    Option.some.injEq]
  constructor
  · rintro ⟨⟨k, old⟩, entry, r, used, day, cast, own, same⟩
    exact ⟨k, old, r, day, AList.mem_lookup_iff.mpr entry, used, cast, own, same⟩
  · rintro ⟨k, old, r, day, stored, used, cast, own, same⟩
    exact ⟨⟨k, old⟩, AList.mem_lookup_iff.mp stored, r, used, day, cast, own, same⟩

omit [Joins] in
/-- What is new is one of the moves without a row, in its turn. -/
theorem mem_added {id : String} {a : Arrival} : a ∈ c.added id ↔
    ∃ q i day, c.placing.fresh[i]? = some q ∧ Postgres.toDay q.move.raw.date = some day ∧
      q.player = id ∧ ⟨day, c.recorded + i, c.source.teamFor q.move.raw.toID⟩ = a := by
  rw [added, List.mem_filterMap]
  simp only [Option.bind_eq_bind, Option.bind_eq_some_iff, Option.ite_none_right_eq_some,
    Option.some.injEq]
  constructor
  · rintro ⟨⟨q, n⟩, listed, day, cast, own, same⟩
    obtain ⟨above, there⟩ := List.mem_zipIdx_iff_le_and_getElem?_sub.mp listed
    refine ⟨q, n - c.recorded, day, there, cast, own, ?_⟩
    rw [Nat.add_sub_cancel' above]
    exact same
  · rintro ⟨q, i, day, there, cast, own, same⟩
    refine ⟨(q, c.recorded + i), ?_, day, cast, own, same⟩
    exact List.mem_zipIdx_iff_le_and_getElem?_sub.mpr ⟨Nat.le_add_right _ _, by simpa using there⟩

/-! ### The statements leave it -/

omit [Unicode] [CaseFolding] [Joins] in
/-- An id that is new is not among the rows selected. -/
theorem not_selected {newString : ℕ → String}
    (newRows : ∀ n, c.transfers.lookup (newString n) = none) (n : ℕ) :
    newString n ∉ c.existing.map (·.id) := by
  intro listed
  have there := isSome_of_selected listed
  rw [newRows n] at there
  cases there

omit [Joins] in
/-- What an import decides about transfers is what laying its moves comes to. -/
theorem plan_eq {newString : ℕ → String}
    (newRows : ∀ n, c.transfers.lookup (newString n) = none) :
    transferPlan newString c.transfers c.players c.source =
      ⟨c.placing.inserts c.source newString, c.placing.updates c.source, c.dropped⟩ := by
  have follows := follows_transferLoop c.existing c.source (not_selected newRows)
  change Plan.mk (transferLoop newString c.existing c.source).inserts
    (transferLoop newString c.existing c.source).updates (openings c.existing _ c.source
      (transferLoop newString c.existing c.source).claimed) = _
  rw [follows.inserts, follows.updates, openings_congr follows.claimed]
  rfl

variable [Takes MoveRow] {newString : ℕ → String} {after : TransferTable}

/-- **What an import leaves is what can be read off before it.** The transfers a player has
after a committed import, as they count for the club, are the player's history. -/
theorem mem_history_iff (distinct : Function.Injective newString)
    (newRows : ∀ n, c.transfers.lookup (newString n) = none)
    (run : (transferPlan newString c.transfers c.players c.source).run c.transfers c.recorded =
      some after) {id : String} {a : Arrival} :
    a ∈ c.history id ↔
      ∃ k t, after.lookup k = some t ∧ t.transfer.playerID = id ∧ Arrival.of t = a := by
  have sound : (transferPlan newString c.transfers c.players c.source).Sound c.transfers :=
    sound_transferPlan ..
  rw [plan_eq newRows] at run sound
  have inserted : ∀ {i q}, c.placing.fresh[i]? = some q →
      (c.placing.inserts c.source newString)[i]? =
        some (c.source.rowOf q.player (newString (c.source.drawn + i)) q.move) := by
    intro i q there
    rw [getElem?_inserts, there]
    rfl
  rw [history, List.mem_append, List.mem_append, mem_left, mem_overlaid, mem_added]
  constructor
  · rintro ((⟨k, t, found, own, free, stands, rfl⟩ | ⟨k, old, r, day, found, used, cast, own,
      rfl⟩) | ⟨q, i, day, there, cast, own, rfl⟩)
    · refine ⟨k, t, (lookup_run sound run).mpr (.inl ⟨found, ?_, stands⟩), own, rfl⟩
      rw [ids_updates]
      exact free
    · have sent : k ∈ (c.placing.updates c.source).map (·.id) :=
        isSome_written.mp (Option.isSome_of_eq_some used)
      obtain ⟨r', update, rfl⟩ := List.mem_map.mp sent
      obtain ⟨t, stands, -, rewritten⟩ := exists_rewritten sound run update
      rw [found] at rewritten
      obtain ⟨⟨owner, place⟩, club, cast'⟩ := columns_written rewritten used
      obtain rfl := Option.some.inj (cast.symm.trans cast')
      exact ⟨_, t, stands, owner.trans own, by rw [Arrival.of, place, club]⟩
    · have listed := inserted there
      obtain ⟨t, stands, ⟨r, n⟩, other, same, made⟩ :=
        exists_inserted sound run (List.mem_of_getElem? listed) (newRows _)
      obtain ⟨above, there'⟩ := List.mem_zipIdx_iff_le_and_getElem?_sub.mp other
      dsimp only at above there' same
      rw [getElem?_inserts] at there'
      obtain ⟨q', here, rfl⟩ := Option.map_eq_some_iff.mp there'
      -- Ids that are drawn at two times are two.
      have one : n - c.recorded = i := Nat.add_left_cancel (distinct same)
      rw [one] at here made
      obtain rfl : q' = q := Option.some.inj (here.symm.trans there)
      obtain ⟨⟨owner, place⟩, -, club, cast'⟩ := insertMove_columns made
      obtain rfl := Option.some.inj (cast.symm.trans cast')
      refine ⟨_, t, stands, owner.trans own, ?_⟩
      rw [Arrival.of, place, club, ← one, Nat.add_sub_cancel' above]
      rfl
  · rintro ⟨k, t, stands, own, rfl⟩
    rcases (lookup_run sound run).mp stands with ⟨found, free, stays⟩ | rewritten | ⟨-, new⟩
    · rw [ids_updates] at free
      exact .inl (.inl ⟨k, t, found, own, free, stays, rfl⟩)
    · obtain ⟨sent, rewritten⟩ := rewritten
      obtain ⟨r, used⟩ := Option.isSome_iff_exists.mp (isSome_written.mpr sent)
      obtain ⟨r', update, rfl⟩ := List.mem_map.mp sent
      obtain ⟨old, found⟩ := Option.isSome_iff_exists.mp (sound.updates r' update)
      rw [found] at rewritten
      obtain ⟨⟨owner, place⟩, club, cast⟩ := columns_written rewritten used
      refine .inl (.inr ⟨_, old, r, _, found, used, cast, owner.symm.trans own, ?_⟩)
      rw [Arrival.of, place, club]
    · obtain ⟨⟨r, n⟩, other, rfl, made⟩ := new
      obtain ⟨above, there⟩ := List.mem_zipIdx_iff_le_and_getElem?_sub.mp other
      dsimp only at above there
      rw [getElem?_inserts] at there
      obtain ⟨q, here, rfl⟩ := Option.map_eq_some_iff.mp there
      obtain ⟨⟨owner, place⟩, -, club, cast⟩ := insertMove_columns made
      refine .inr ⟨q, n - c.recorded, _, here, cast, owner.symm.trans own, ?_⟩
      rw [Arrival.of, place, club, Nat.add_sub_cancel' above]
      rfl

end Career

end ScoutPulse.Importer
