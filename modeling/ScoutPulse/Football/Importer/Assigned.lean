import ScoutPulse.Football.Importer.Injective
import ScoutPulse.Football.Importer.Moves

/-!
# One row for one move

A move is remembered under a key of its player, its date and its clubs. Where no two moves
have one key, each of them gets a row of its own, and keeps it; where no row entered by hand
is dated so long before a move that the difference of the dates turns around, a row is only
adopted for a move within a week of it; and where no reference of a move names a row of
another player, the row of a move is its player's.
-/

namespace ScoutPulse.Importer

open Matching
open Squad (Date)
open Strings

/-- One move, listed once or more often. -/
def SameMove (sourcePlayer : String) (t : RawTransfer) (sourcePlayer' : String)
    (t' : RawTransfer) : Prop :=
  sourcePlayer = sourcePlayer' ∧ t.date = t'.date ∧ t.fromID = t'.fromID ∧ t.toID = t'.toID

section Conditions

variable [Unicode] [CaseFolding] (newString : ℕ → String) (existing : List LocalTransfer)
  (m : Merge)

/-- A move with a club of the import. -/
structure Merge.Counts (sourcePlayer player : String) (mv : Move) : Prop where
  has : m.Has sourcePlayer player mv
  joins : m.Joins mv.raw

/-- No two moves are remembered under one key. -/
def KeysApart : Prop :=
  ∀ sourcePlayer player mv sourcePlayer' player' mv', m.Counts sourcePlayer player mv →
    m.Counts sourcePlayer' player' mv' →
    moveKey sourcePlayer mv.raw = moveKey sourcePlayer' mv'.raw →
      SameMove sourcePlayer mv.raw sourcePlayer' mv'.raw

/-- The row a move adopts, if it adopts one, is not dated far before it. -/
def NearStep (player sourcePlayer : String) (s : TransferLoop) (mv : Move) : Prop :=
  ∀ id, s.merge.Joins mv.raw → moveKey sourcePlayer mv.raw ∉ s.seen →
    s.referenced existing (moveKey sourcePlayer mv.raw) = none →
    s.adopted existing m.refByLocal player (s.merge.teamFor mv.raw.fromID)
      (s.merge.teamFor mv.raw.toID) mv.raw.date = some id →
    ∀ t ∈ existing, t.id = id → ¬ FarBefore t.date mv.raw.date

/-- So it is for each of some moves, where the ones before it have left the loop. -/
def NearMoves (player sourcePlayer : String) : TransferLoop → List Move → Prop
  | _, [] => True
  | s, mv :: moves =>
      NearStep existing m player sourcePlayer s mv ∧
        NearMoves player sourcePlayer
          (s.step existing m.refByLocal player newString sourcePlayer mv) moves

/-- So it is for the moves of each of some players. -/
def NearPlayers : TransferLoop → List String → Prop
  | _, [] => True
  | s, sourcePlayer :: players =>
      (∀ player, m.players.lookup sourcePlayer = some player →
        NearMoves newString existing m player sourcePlayer { s with seen := [] }
          (m.moves sourcePlayer)) ∧
        NearPlayers (s.ofPlayer existing m.refByLocal newString sourcePlayer) players

/-- No step of the loop adopts a row that is dated far before its move. -/
def AdoptsNear : Prop :=
  NearPlayers newString existing m (loopStart m) (sortedKeys m.d.transfers)

/-- The row that the reference of a move names, if it is there, is its player's. -/
def RefsOwn : Prop :=
  ∀ sourcePlayer player mv, m.Counts sourcePlayer player mv → ∀ t ∈ existing,
    m.ref "transfer" (moveKey sourcePlayer mv.raw) = some t.id → t.playerID = player

end Conditions

/-- A row entered by hand is adopted for a move of its player, between its clubs and within
a week of its date. -/
def AdoptedFor (existing : List LocalTransfer) (r : MoveRow) : Prop :=
  ∃ t ∈ existing, t.id = r.id ∧ t.playerID = r.player ∧ t.fromTeam = r.fromTeam ∧
    t.toTeam = r.toTeam ∧ WithinWeek t.date r.date

/-! ## What the loop keeps -/

/-- Where the loop stands when the moves in `done`, by their players and their keys, have been
given rows. -/
structure Stands [Unicode] [CaseFolding] (newString : ℕ → String)
    (existing : List LocalTransfer) (m : Merge) (done : List (String × String))
    (s : TransferLoop) : Prop where
  frame : Frame m s
  /-- The references of the other moves are as they were. -/
  untouched : ∀ key, key ∉ done.map Prod.snd → s.merge.ref "transfer" key = m.ref "transfer" key
  /-- Those moves are moves of the source, and their references name their rows. -/
  named : ∀ p ∈ done, ∃ player mv, m.Counts p.1 player mv ∧ p.2 = moveKey p.1 mv.raw ∧
    ∃ r ∈ s.inserts ++ s.updates, s.merge.ref "transfer" p.2 = some r.id ∧
      r = m.rowOf player r.id mv
  injective : InjectiveOn (s.merge.ref "transfer")
  /-- Every row that is written is named by one of them. -/
  written : ∀ r ∈ s.inserts ++ s.updates, ∃ p ∈ done, s.merge.ref "transfer" p.2 = some r.id
  nodup : ((s.inserts ++ s.updates).map (·.id)).Nodup
  claimed : ∀ id, id ∈ s.claimed ↔ id ∈ s.updates.map (·.id)
  claimed_nodup : s.claimed.Nodup
  drawn : ∀ r ∈ s.inserts, ∃ n < s.merge.drawn, r.id = newString n
  there : ∀ r ∈ s.updates, r.id ∈ existing.map (·.id)
  adopted : ∀ r ∈ s.updates, m.refByLocal r.id = false → AdoptedFor existing r

section Steps

variable [Unicode] [CaseFolding] {newString : ℕ → String} {existing : List LocalTransfer}
  {m : Merge} {done : List (String × String)} {s s' : TransferLoop}
  {sourcePlayer player key id : String} {mv : Move}

omit [Unicode] [CaseFolding] in
/-- A row is referred to when a reference names it. -/
theorem refByLocal_eq_true_iff :
    m.refByLocal id = true ↔ ∃ key, m.ref "transfer" key = some id := by
  rw [Merge.refByLocal, List.any_eq_true]
  constructor
  · rintro ⟨⟨⟨kind, key⟩, local_⟩, entry, same⟩
    simp only [Bool.and_eq_true, decide_eq_true_eq] at same
    obtain ⟨rfl, rfl⟩ := same
    exact ⟨key, AList.mem_lookup_iff.mpr entry⟩
  · rintro ⟨key, found⟩
    exact ⟨⟨("transfer", key), id⟩, AList.mem_lookup_iff.mp found, by simp⟩

/-- A row that nothing written so far is, and that no other reference names, is a row for a
move that has none. -/
theorem Stands.add (stands : Stands newString existing m done s)
    (counts : m.Counts sourcePlayer player mv)
    (new : moveKey sourcePlayer mv.raw ∉ done.map Prod.snd)
    (free : id ∉ (s.inserts ++ s.updates).map (·.id))
    (unnamed : ∀ key, key ≠ moveKey sourcePlayer mv.raw → s.merge.ref "transfer" key ≠ some id)
    (frame : Frame m s')
    (refs : s'.merge.ref "transfer" =
      Function.update (s.merge.ref "transfer") (moveKey sourcePlayer mv.raw) (some id))
    (rows : (s'.inserts ++ s'.updates).Perm
      (m.rowOf player id mv :: (s.inserts ++ s.updates)))
    (claimed : ∀ id, id ∈ s'.claimed ↔ id ∈ s'.updates.map (·.id))
    (claimed_nodup : s'.claimed.Nodup)
    (drawn : ∀ r ∈ s'.inserts, ∃ n < s'.merge.drawn, r.id = newString n)
    (there : ∀ r ∈ s'.updates, r.id ∈ existing.map (·.id))
    (adopted : ∀ r ∈ s'.updates, m.refByLocal r.id = false → AdoptedFor existing r) :
    Stands newString existing m ((sourcePlayer, moveKey sourcePlayer mv.raw) :: done) s' := by
  refine ⟨frame, ?_, ?_, ?_, ?_, ?_, claimed, claimed_nodup, drawn, there, adopted⟩
  · intro key others
    rw [List.map_cons, List.mem_cons, not_or] at others
    rw [refs, Function.update_of_ne others.1]
    exact stands.untouched key others.2
  · rw [List.forall_mem_cons]
    constructor
    · refine ⟨player, mv, counts, rfl, m.rowOf player id mv,
        rows.mem_iff.mpr List.mem_cons_self, ?_, rfl⟩
      rw [refs, Function.update_self]
      rfl
    · intro p before
      obtain ⟨player', mv', counts', is_key, r, member, names, columns⟩ := stands.named p before
      have other : p.2 ≠ moveKey sourcePlayer mv.raw := by
        rintro same
        exact new (List.mem_map.mpr ⟨p, before, same⟩)
      refine ⟨player', mv', counts', is_key, r, rows.mem_iff.mpr (List.mem_cons_of_mem _ member),
        ?_, columns⟩
      rw [refs, Function.update_of_ne other]
      exact names
  · intro key₁ key₂ t first second
    rw [refs] at first second
    by_cases is₁ : key₁ = moveKey sourcePlayer mv.raw
    · by_cases is₂ : key₂ = moveKey sourcePlayer mv.raw
      · rw [is₁, is₂]
      · rw [is₁, Function.update_self] at first
        rw [Function.update_of_ne is₂, ← first] at second
        exact absurd second (unnamed key₂ is₂)
    · by_cases is₂ : key₂ = moveKey sourcePlayer mv.raw
      · rw [is₂, Function.update_self] at second
        rw [Function.update_of_ne is₁, ← second] at first
        exact absurd first (unnamed key₁ is₁)
      · rw [Function.update_of_ne is₁] at first
        rw [Function.update_of_ne is₂] at second
        exact stands.injective _ _ _ first second
  · intro r member
    rcases List.mem_cons.mp (rows.mem_iff.mp member) with rfl | before
    · refine ⟨_, List.mem_cons_self, ?_⟩
      rw [refs, Function.update_self]
      rfl
    · obtain ⟨p, listed, names⟩ := stands.written r before
      have other : p.2 ≠ moveKey sourcePlayer mv.raw := by
        rintro same
        exact new (List.mem_map.mpr ⟨p, listed, same⟩)
      refine ⟨p, List.mem_cons_of_mem _ listed, ?_⟩
      rw [refs, Function.update_of_ne other]
      exact names
  · have ids := rows.map (·.id)
    rw [ids.nodup_iff, List.map_cons, List.nodup_cons]
    exact ⟨free, stands.nodup⟩

/-- A row nothing written so far is, and no reference named before, has no reference. -/
theorem Stands.unnamed (stands : Stands newString existing m done s)
    (free : id ∉ (s.inserts ++ s.updates).map (·.id))
    (before : ∀ key, m.ref "transfer" key ≠ some id) (key : String) :
    s.merge.ref "transfer" key ≠ some id := by
  intro names
  by_cases given : key ∈ done.map Prod.snd
  · obtain ⟨p, listed, rfl⟩ := List.mem_map.mp given
    obtain ⟨-, -, -, -, r, member, here, -⟩ := stands.named p listed
    rw [here] at names
    exact free (List.mem_map.mpr ⟨r, member, Option.some.inj names⟩)
  · rw [stands.untouched key given] at names
    exact before key names

/-- A row that the reference of a move without a row names is not written yet. -/
theorem Stands.free_of_referenced (stands : Stands newString existing m done s)
    (new : key ∉ done.map Prod.snd) (names : s.merge.ref "transfer" key = some id) :
    id ∉ (s.inserts ++ s.updates).map (·.id) := by
  intro listed
  obtain ⟨r, member, rfl⟩ := List.mem_map.mp listed
  obtain ⟨p, given, here⟩ := stands.written r member
  have same : p.2 = key := stands.injective _ _ _ here names
  exact new (List.mem_map.mpr ⟨p, given, same⟩)

/-- The ids an import makes are its own. -/
structure Fresh (newString : ℕ → String) (existing : List LocalTransfer) (m : Merge) : Prop where
  distinct : Function.Injective newString
  rows : ∀ n, newString n ∉ existing.map (·.id)
  refs : ∀ n key, m.ref "transfer" key ≠ some (newString n)

/-- A row entered by hand that is adopted is not written yet. -/
theorem Stands.free_of_adopted (stands : Stands newString existing m done s)
    (fresh : Fresh newString existing m) {fromTeam toTeam : Option String} {date : String}
    (adopted : s.adopted existing m.refByLocal player fromTeam toTeam date = some id) :
    id ∉ (s.inserts ++ s.updates).map (·.id) ∧ ∀ key, m.ref "transfer" key ≠ some id := by
  have selected := mem_of_adopted adopted
  obtain ⟨t, picked, rfl⟩ := Option.map_eq_some_iff.mp adopted
  have suits := List.find?_some picked
  simp only [Bool.and_eq_true, decide_eq_true_eq, Bool.not_eq_true'] at suits
  obtain ⟨⟨⟨⟨⟨-, unclaimed⟩, unnamed⟩, -⟩, -⟩, -⟩ := suits
  constructor
  · rw [List.map_append, List.mem_append, not_or]
    constructor
    · intro listed
      obtain ⟨r, member, same⟩ := List.mem_map.mp listed
      obtain ⟨n, -, drawn⟩ := stands.drawn r member
      rw [← same, drawn] at selected
      exact fresh.rows n selected
    · rwa [← stands.claimed]
  · intro key names
    rw [refByLocal_eq_true_iff.mpr ⟨key, names⟩] at unnamed
    cases unnamed

/-- The loop stands as well when a move takes a row that is there: the row was free, and the
reference of the move names it from now on. -/
theorem Stands.claim (stands : Stands newString existing m done s)
    (fresh : Fresh newString existing m) (counts : m.Counts sourcePlayer player mv)
    (new : moveKey sourcePlayer mv.raw ∉ done.map Prod.snd) (report : Report)
    (chosen : s.chosen existing m.refByLocal player sourcePlayer mv = some id)
    (near : ∀ t ∈ existing, s.referenced existing (moveKey sourcePlayer mv.raw) = none →
      t.id = id → ¬ FarBefore t.date mv.raw.date)
    (frame : Frame m (s.claim player id (moveKey sourcePlayer mv.raw) mv report)) :
    Stands newString existing m ((sourcePlayer, moveKey sourcePlayer mv.raw) :: done)
      (s.claim player id (moveKey sourcePlayer mv.raw) mv report) := by
  have row := stands.frame.row player id mv
  have free : id ∉ (s.inserts ++ s.updates).map (·.id) ∧
      (∀ key, key ≠ moveKey sourcePlayer mv.raw → s.merge.ref "transfer" key ≠ some id) ∧
      id ∈ existing.map (·.id) ∧
      (m.refByLocal id = false → AdoptedFor existing (m.rowOf player id mv)) := by
    rw [TransferLoop.chosen, Option.or_eq_some_iff] at chosen
    rcases chosen with named | ⟨unreferenced, adopted⟩
    · have names := (Option.filter_eq_some_iff.mp named).1
      have before : m.refByLocal id = true :=
        refByLocal_eq_true_iff.mpr ⟨_, (stands.untouched _ new).symm.trans names⟩
      refine ⟨stands.free_of_referenced new names,
        fun key other here => other (stands.injective _ _ _ here names),
        mem_of_referenced named, fun unnamed => ?_⟩
      rw [before] at unnamed
      cases unnamed
    · obtain ⟨free, unnamed⟩ := stands.free_of_adopted fresh adopted
      refine ⟨free, fun key _ => stands.unnamed free unnamed key, mem_of_adopted adopted,
        fun _ => ?_⟩
      obtain ⟨t, picked, rfl⟩ := Option.map_eq_some_iff.mp adopted
      have member := List.mem_of_find?_eq_some picked
      have suits := List.find?_some picked
      simp only [Bool.and_eq_true, decide_eq_true_eq, stands.frame.teamFor] at suits
      obtain ⟨⟨⟨⟨⟨owner, -⟩, -⟩, origin⟩, destination⟩, week⟩ := suits
      exact ⟨t, member, rfl, owner, origin, destination,
        (daysApart_le_iff.mp week).resolve_right (near t member unreferenced rfl)⟩
  obtain ⟨free, unnamed, selected, adopted⟩ := free
  have drawn : (s.claim player id (moveKey sourcePlayer mv.raw) mv report).merge.drawn =
      s.merge.drawn := Merge.drawn_remember ..
  refine stands.add counts new free unnamed frame (Merge.ref_remember_eq ..) ?_ ?_ ?_ ?_ ?_ ?_
  · rw [TransferLoop.claim, row, ← List.append_assoc]
    exact List.perm_append_singleton _ _
  · intro other
    rw [TransferLoop.claim, List.mem_cons, List.map_append, List.mem_append, stands.claimed,
      or_comm]
    simp [TransferLoop.row]
  · refine List.nodup_cons.mpr ⟨fun claimed => ?_, stands.claimed_nodup⟩
    rw [stands.claimed] at claimed
    exact free (by rw [List.map_append]; exact List.mem_append_right _ claimed)
  · rw [drawn]
    exact stands.drawn
  · rw [TransferLoop.claim, List.forall_mem_append, List.forall_mem_singleton]
    exact ⟨stands.there, selected⟩
  · rw [TransferLoop.claim, row, List.forall_mem_append, List.forall_mem_singleton]
    exact ⟨stands.adopted, adopted⟩

/-- The loop stands as well when a move becomes a new row: the id drawn is new. -/
theorem Stands.create (stands : Stands newString existing m done s)
    (fresh : Fresh newString existing m) (counts : m.Counts sourcePlayer player mv)
    (new : moveKey sourcePlayer mv.raw ∉ done.map Prod.snd)
    (frame : Frame m (s.create player newString (moveKey sourcePlayer mv.raw) mv)) :
    Stands newString existing m ((sourcePlayer, moveKey sourcePlayer mv.raw) :: done)
      (s.create player newString (moveKey sourcePlayer mv.raw) mv) := by
  have row := stands.frame.row player (newString s.merge.drawn) mv
  have free : newString s.merge.drawn ∉ (s.inserts ++ s.updates).map (·.id) := by
    rw [List.map_append, List.mem_append, not_or]
    constructor
    · intro listed
      obtain ⟨r, member, same⟩ := List.mem_map.mp listed
      obtain ⟨n, below, drawn⟩ := stands.drawn r member
      rw [drawn] at same
      exact absurd (fresh.distinct same) (Nat.ne_of_lt below)
    · intro listed
      obtain ⟨r, member, same⟩ := List.mem_map.mp listed
      have there := stands.there r member
      rw [same] at there
      exact fresh.rows _ there
  refine stands.add counts new free
    (fun key _ => stands.unnamed free (fresh.refs s.merge.drawn) key) frame
    (Merge.ref_remember_eq ..) ?_ stands.claimed stands.claimed_nodup ?_
    stands.there stands.adopted
  · rw [TransferLoop.create, row, List.append_assoc]
    exact List.perm_middle
  · have more : (s.create player newString (moveKey sourcePlayer mv.raw) mv).merge.drawn =
        s.merge.drawn + 1 := Merge.drawn_remember ..
    rw [TransferLoop.create, List.forall_mem_append, List.forall_mem_singleton]
    refine ⟨fun r member => ?_, s.merge.drawn, by rw [← TransferLoop.create, more]; omega, rfl⟩
    obtain ⟨n, below, drawn⟩ := stands.drawn r member
    exact ⟨n, by rw [← TransferLoop.create, more]; omega, drawn⟩

/-! ## References that stay -/

/-- A reference that names a row that is there still names it. -/
def RefsStay (existing : List LocalTransfer) (m : Merge) (s : TransferLoop) : Prop :=
  ∀ key id, m.ref "transfer" key = some id → id ∈ existing.map (·.id) →
    s.merge.ref "transfer" key = some id

omit [Unicode] [CaseFolding] in
/-- What is there for a move is the row its reference names, where that one is there. -/
theorem chosen_of_ref (names : s.merge.ref "transfer" (moveKey sourcePlayer mv.raw) = some id)
    (selected : id ∈ existing.map (·.id)) :
    s.chosen existing m.refByLocal player sourcePlayer mv = some id := by
  obtain ⟨t, member, rfl⟩ := List.mem_map.mp selected
  have referenced : s.referenced existing (moveKey sourcePlayer mv.raw) = some t.id := by
    rw [TransferLoop.referenced, names, Option.filter_some, if_pos]
    exact List.any_eq_true.mpr ⟨t, member, by simp⟩
  rw [TransferLoop.chosen, referenced, Option.some_or]

omit [Unicode] [CaseFolding] in
/-- A move is remembered under the id of the row its reference named, if that row is there. -/
theorem RefsStay.took (stay : RefsStay existing m s)
    (took : Took existing m.refByLocal player newString sourcePlayer s mv s') :
    RefsStay existing m s' := by
  intro key id names selected
  have before := stay key id names selected
  cases took with
  | outside => exact before
  | repeated => exact before
  | claimed report joins unseen chosen =>
      rw [TransferLoop.claim, Merge.ref_remember_eq]
      by_cases same : key = moveKey sourcePlayer mv.raw
      · subst same
        rw [Function.update_self]
        exact chosen.symm.trans (chosen_of_ref before selected)
      · rw [Function.update_of_ne same]
        exact before
  | created joins unseen chosen =>
      rw [TransferLoop.create, Merge.ref_remember_eq]
      by_cases same : key = moveKey sourcePlayer mv.raw
      · subst same
        have taken : (none : Option String) = some id :=
          chosen.symm.trans (chosen_of_ref before selected)
        cases taken
      · rw [Function.update_of_ne same]
        exact before

theorem refsStay_transferLoop (newString : ℕ → String) (existing : List LocalTransfer)
    (m : Merge) : RefsStay existing m (transferLoop newString existing m) :=
  transferLoop_invariant (P := RefsStay existing m) (fun _ _ names _ => names)
    (fun stay => stay) (fun _ _ stay took => stay.took took)

/-- Where references name rows of their players only, a row is rewritten for a move of its
player: it was adopted for one, or the reference it is claimed by is the one that named it. -/
theorem Stands.owned (stands : Stands newString existing m done s) (stay : RefsStay existing m s)
    (own : RefsOwn existing m) (nodup : (existing.map (·.id)).Nodup) :
    ∀ r ∈ s.updates, ∀ t ∈ existing, t.id = r.id → t.playerID = r.player := by
  intro r member t listed same
  cases before : m.refByLocal r.id with
  | false =>
      obtain ⟨t', listed', same', owner, -⟩ := stands.adopted r member before
      rw [List.inj_on_of_nodup_map nodup listed listed' (same.trans same'.symm)]
      exact owner
  | true =>
      obtain ⟨key, names⟩ := refByLocal_eq_true_iff.mp before
      have written := List.mem_append_right s.inserts member
      obtain ⟨p, given, here⟩ := stands.written r written
      obtain ⟨player, mv, counts, is_key, r', listed', here', columns⟩ := stands.named p given
      have one : r' = r :=
        List.inj_on_of_nodup_map stands.nodup listed' written
          (Option.some.inj (here'.symm.trans here))
      subst one
      obtain rfl : key = p.2 :=
        stands.injective _ _ _ (stay key r'.id names (stands.there r' member)) here
      have player_eq : r'.player = player := by
        rw [columns]
        rfl
      rw [player_eq]
      refine own p.1 player mv counts t listed ?_
      rw [← is_key, names, same]

/-! ## A whole loop -/

/-- The moves of one player that have been given rows are those seen, and those of another
are left as they were. -/
structure Grows (done done' : List (String × String)) (sourcePlayer : String)
    (s : TransferLoop) : Prop where
  seen : ∀ key, (sourcePlayer, key) ∈ done' ↔ key ∈ s.seen
  subset : done ⊆ done'
  others : ∀ p ∈ done', p ∈ done ∨ p.1 = sourcePlayer

/-- A move of a player whose earlier moves are those seen gets its row. -/
theorem Stands.took (stands : Stands newString existing m done s)
    (fresh : Fresh newString existing m) (apart : KeysApart m)
    (has : m.Has sourcePlayer player mv)
    (seen : ∀ key, (sourcePlayer, key) ∈ done ↔ key ∈ s.seen)
    (near : NearStep existing m player sourcePlayer s mv)
    (took : Took existing m.refByLocal player newString sourcePlayer s mv s') :
    ∃ done', Stands newString existing m done' s' ∧ Grows done done' sourcePlayer s' ∧
      (m.Joins mv.raw → (sourcePlayer, moveKey sourcePlayer mv.raw) ∈ done') := by
  have frame := stands.frame.step took
  -- A key of another player or of an earlier move of this one would be the key of this move.
  have new_of_unseen : m.Joins mv.raw → moveKey sourcePlayer mv.raw ∉ s.seen →
      moveKey sourcePlayer mv.raw ∉ done.map Prod.snd := by
    intro joins unseen listed
    obtain ⟨p, given, same⟩ := List.mem_map.mp listed
    obtain ⟨player', mv', counts', is_key, -⟩ := stands.named p given
    have player_eq := (apart _ _ _ _ _ _ ⟨has, joins⟩ counts' (same.symm.trans is_key)).1
    have here : p = (sourcePlayer, moveKey sourcePlayer mv.raw) := Prod.ext player_eq.symm same
    rw [here] at given
    exact unseen ((seen _).mp given)
  have grows : ∀ {s' : TransferLoop}, s'.seen = moveKey sourcePlayer mv.raw :: s.seen →
      Grows done ((sourcePlayer, moveKey sourcePlayer mv.raw) :: done) sourcePlayer s' := by
    intro s' seen_eq
    refine ⟨fun key => ?_, List.subset_cons_self _ _, ?_⟩
    · rw [seen_eq, List.mem_cons, List.mem_cons, seen, Prod.mk.injEq]
      simp
    · rw [List.forall_mem_cons]
      exact ⟨.inr rfl, fun p member => .inl member⟩
  have still : Grows done done sourcePlayer s :=
    ⟨seen, List.Subset.refl _, fun p member => .inl member⟩
  cases took with
  | outside outside =>
      exact ⟨done, stands, still,
        fun joins => absurd ((stands.frame.joins _).mpr joins) outside⟩
  | repeated again => exact ⟨done, stands, still, fun _ => (seen _).mpr again⟩
  | @claimed id report joins unseen chosen =>
      have here := (stands.frame.joins _).mp joins
      have near : ∀ t ∈ existing, s.referenced existing (moveKey sourcePlayer mv.raw) = none →
          t.id = id → ¬ FarBefore t.date mv.raw.date := by
        intro t member unreferenced same
        rw [TransferLoop.chosen, unreferenced, Option.none_or] at chosen
        exact near id joins unseen unreferenced chosen t member same
      exact ⟨_, stands.claim fresh ⟨has, here⟩ (new_of_unseen here unseen) report chosen near frame,
        grows rfl, fun _ => List.mem_cons_self⟩
  | created joins unseen =>
      have joins := (stands.frame.joins _).mp joins
      exact ⟨_, stands.create fresh ⟨has, joins⟩ (new_of_unseen joins unseen) frame, grows rfl,
        fun _ => List.mem_cons_self⟩

/-- The moves of a player get their rows. -/
theorem Stands.moves (stands : Stands newString existing m done s)
    (fresh : Fresh newString existing m) (apart : KeysApart m) {moves : List Move}
    (has : ∀ mv ∈ moves, m.Has sourcePlayer player mv)
    (seen : ∀ key, (sourcePlayer, key) ∈ done ↔ key ∈ s.seen)
    (near : NearMoves newString existing m player sourcePlayer s moves) :
    ∃ done', Stands newString existing m done' (moves.foldl
        (TransferLoop.step existing m.refByLocal player newString sourcePlayer) s) ∧
      done ⊆ done' ∧ (∀ p ∈ done', p ∈ done ∨ p.1 = sourcePlayer) ∧
      ∀ mv ∈ moves, m.Joins mv.raw → (sourcePlayer, moveKey sourcePlayer mv.raw) ∈ done' := by
  induction moves generalizing done s with
  | nil => exact ⟨done, stands, List.Subset.refl _, fun p member => .inl member, by simp⟩
  | cons mv moves ih =>
      rw [List.forall_mem_cons] at has
      obtain ⟨middle, stands, grows, given⟩ := stands.took fresh apart has.1 seen near.1
        (took_step existing m.refByLocal player newString sourcePlayer s mv)
      obtain ⟨done', stands, subset, others, all⟩ := ih stands has.2 grows.seen near.2
      refine ⟨done', stands, List.Subset.trans grows.subset subset, ?_, ?_⟩
      · intro p member
        rcases others p member with before | here
        · exact grows.others p before
        · exact .inr here
      · rw [List.forall_mem_cons]
        exact ⟨fun joins => subset (given joins), all⟩

/-- The moves of some players none of which has had a turn get their rows. -/
theorem Stands.players (stands : Stands newString existing m done s)
    (fresh : Fresh newString existing m) (apart : KeysApart m) {players : List String}
    (nodup : players.Nodup) (turn : ∀ p ∈ done, p.1 ∉ players)
    (near : NearPlayers newString existing m s players) :
    ∃ done', Stands newString existing m done'
        (players.foldl (TransferLoop.ofPlayer existing m.refByLocal newString) s) ∧
      done ⊆ done' ∧ ∀ sourcePlayer ∈ players, ∀ player mv, m.Counts sourcePlayer player mv →
        (sourcePlayer, moveKey sourcePlayer mv.raw) ∈ done' := by
  induction players generalizing done s with
  | nil => exact ⟨done, stands, List.Subset.refl _, by simp⟩
  | cons sourcePlayer players ih =>
      rw [List.nodup_cons] at nodup
      have one : ∃ done', Stands newString existing m done'
          (s.ofPlayer existing m.refByLocal newString sourcePlayer) ∧ done ⊆ done' ∧
          (∀ p ∈ done', p ∈ done ∨ p.1 = sourcePlayer) ∧
          ∀ player mv, m.Counts sourcePlayer player mv →
            (sourcePlayer, moveKey sourcePlayer mv.raw) ∈ done' := by
        rw [TransferLoop.ofPlayer, stands.frame.players, stands.frame.d]
        cases imported : m.players.lookup sourcePlayer with
        | none =>
            refine ⟨done, stands, List.Subset.refl _, fun p member => .inl member, ?_⟩
            intro player mv counts
            have none_some := imported.symm.trans counts.has.imported
            cases none_some
        | some player =>
            have unseen : ∀ key, (sourcePlayer, key) ∈ done ↔ key ∈ ([] : List String) := by
              intro key
              refine ⟨fun given => ?_, by simp⟩
              exact absurd List.mem_cons_self (turn _ given)
            have stands : Stands newString existing m done { s with seen := [] } :=
              { stands with frame := stands.frame.reset }
            obtain ⟨done', stands, subset, others, all⟩ := stands.moves fresh apart
              (fun mv listed => ⟨imported, listed⟩) unseen (near.1 player imported)
            refine ⟨done', stands, subset, others, fun player' mv counts => ?_⟩
            exact all mv counts.has.listed counts.joins
      obtain ⟨middle, stands, subset, others, given⟩ := one
      obtain ⟨done', stands, subset', all⟩ := ih stands nodup.2 (by
        intro p member
        rcases others p member with before | here
        · exact fun listed => turn p before (List.mem_cons_of_mem _ listed)
        · rw [here]
          exact nodup.1) near.2
      refine ⟨done', stands, List.Subset.trans subset subset', ?_⟩
      rw [List.forall_mem_cons]
      exact ⟨fun player mv counts => subset' (given player mv counts), all⟩

/-! ## What the rows of a run show -/

omit [Unicode] [CaseFolding] in
/-- What is within a week is not far before. -/
theorem not_farBefore_of_withinWeek {a b : String} (week : WithinWeek a b) : ¬ FarBefore a b := by
  rintro ⟨x, y, first, second, far⟩
  obtain ⟨x', y', first', second', near⟩ := week
  rw [first] at first'
  rw [second] at second'
  obtain rfl := Option.some.inj first'
  obtain rfl := Option.some.inj second'
  have := (abs_le.mp near).1
  omega

omit [Unicode] [CaseFolding] in
/-- A step keeps the rows that are to be rewritten. -/
theorem updates_subset_step (s : TransferLoop) (mv : Move) :
    s.updates ⊆ (s.step existing m.refByLocal player newString sourcePlayer mv).updates := by
  have took := took_step existing m.refByLocal player newString sourcePlayer s mv
  generalize s.step existing m.refByLocal player newString sourcePlayer mv = s' at took ⊢
  cases took with
  | outside => exact List.Subset.refl _
  | repeated => exact List.Subset.refl _
  | claimed => exact List.subset_append_left _ _
  | created => exact List.Subset.refl _

omit [Unicode] [CaseFolding] in
/-- The moves of a player take back no update. -/
theorem updates_subset_moves (moves : List Move) (s : TransferLoop) :
    s.updates ⊆ (moves.foldl
      (TransferLoop.step existing m.refByLocal player newString sourcePlayer) s).updates := by
  induction moves generalizing s with
  | nil => exact List.Subset.refl _
  | cons mv moves ih => exact List.Subset.trans (updates_subset_step s mv) (ih _)

/-- Neither does a player. -/
theorem updates_subset_ofPlayer (s : TransferLoop) (sourcePlayer : String) :
    s.updates ⊆ (s.ofPlayer existing m.refByLocal newString sourcePlayer).updates := by
  rw [TransferLoop.ofPlayer]
  split
  · exact List.Subset.refl _
  · exact updates_subset_moves _ { s with seen := [] }

/-- Neither do several players. -/
theorem updates_subset_players (players : List String) (s : TransferLoop) :
    s.updates ⊆ (players.foldl
      (TransferLoop.ofPlayer existing m.refByLocal newString) s).updates := by
  induction players generalizing s with
  | nil => exact List.Subset.refl _
  | cons sourcePlayer players ih =>
      exact List.Subset.trans (updates_subset_ofPlayer s sourcePlayer) (ih _)

variable (existing m) in
/-- Of the rows written, those no reference named before were adopted for moves like them. -/
def AdoptedWell (s : TransferLoop) : Prop :=
  ∀ r ∈ s.updates, m.refByLocal r.id = false → AdoptedFor existing r

omit [Unicode] [CaseFolding] in
theorem AdoptedWell.of_subset {s s' : TransferLoop} (well : AdoptedWell existing m s')
    (subset : s.updates ⊆ s'.updates) : AdoptedWell existing m s :=
  fun r member => well r (subset member)

omit [Unicode] [CaseFolding] in
/-- A step that adopts a row writes it down, so the row shows that it was near. -/
theorem nearStep_of_adopted (nodup : (existing.map (·.id)).Nodup)
    (well : AdoptedWell existing m
      (s.step existing m.refByLocal player newString sourcePlayer mv)) :
    NearStep existing m player sourcePlayer s mv := by
  intro id joins unseen unreferenced adopted t member same
  have outside : ¬ (s.merge.teamFor mv.raw.fromID = none ∧
      s.merge.teamFor mv.raw.toID = none) := by
    rw [Merge.Joins] at joins
    tauto
  have step : s.row player id mv ∈
      (s.step existing m.refByLocal player newString sourcePlayer mv).updates := by
    rw [TransferLoop.step, if_neg outside, if_neg unseen, unreferenced, adopted]
    exact List.mem_append_right _ (List.mem_singleton_self _)
  have unnamed : m.refByLocal id = false := by
    obtain ⟨t, picked, rfl⟩ := Option.map_eq_some_iff.mp adopted
    have suits := List.find?_some picked
    simp only [Bool.and_eq_true, Bool.not_eq_true'] at suits
    exact suits.1.1.1.2
  obtain ⟨t', member', same', -, -, -, week⟩ := well _ step unnamed
  obtain rfl : t = t' := List.inj_on_of_nodup_map nodup member member' (same.trans same'.symm)
  exact not_farBefore_of_withinWeek week

omit [Unicode] [CaseFolding] in
/-- Moves whose rows are adopted well are near them. -/
theorem nearMoves_of_adopted (nodup : (existing.map (·.id)).Nodup) (moves : List Move)
    (s : TransferLoop) (well : AdoptedWell existing m (moves.foldl
      (TransferLoop.step existing m.refByLocal player newString sourcePlayer) s)) :
    NearMoves newString existing m player sourcePlayer s moves := by
  induction moves generalizing s with
  | nil => trivial
  | cons mv moves ih =>
      have first := well.of_subset (updates_subset_moves moves _)
      exact ⟨nearStep_of_adopted nodup first, ih _ well⟩

/-- So are the moves of several players. -/
theorem nearPlayers_of_adopted (nodup : (existing.map (·.id)).Nodup) (players : List String)
    (s : TransferLoop) (frame : Frame m s) (well : AdoptedWell existing m
      (players.foldl (TransferLoop.ofPlayer existing m.refByLocal newString) s)) :
    NearPlayers newString existing m s players := by
  induction players generalizing s with
  | nil => trivial
  | cons sourcePlayer players ih =>
      have first := well.of_subset (updates_subset_players players _)
      refine ⟨fun player imported => ?_, ih _ (frame.ofPlayer sourcePlayer) well⟩
      rw [TransferLoop.ofPlayer, frame.players, imported, frame.d] at first
      exact nearMoves_of_adopted nodup _ _ first

end Steps

/-! ## After an import -/

/-- The columns of a row are those of a move. -/
structure RowFor (m : Merge) (player : String) (t : RawTransfer) (r : MoveRow) : Prop where
  player : r.player = player
  fromTeam : r.fromTeam = m.teamFor t.fromID
  toTeam : r.toTeam = m.teamFor t.toID
  date : r.date = t.date

/-- The row that stands in the table has the player, the clubs and the date. -/
def StandsFor [Postgres] (after : TransferTable) (r : MoveRow) : Prop :=
  ∃ t, after.lookup r.id = some t ∧ t.transfer.playerID = r.player ∧
    t.transfer.fromTeam = r.fromTeam ∧ t.transfer.toTeam = r.toTeam ∧
    Postgres.toDay r.date = some t.transfer.transferDate

/-- Every move with a club in the import has one row of its own. -/
structure Matched [Unicode] [CaseFolding] [Postgres] (existing : List LocalTransfer) (m : Merge)
    (s : TransferLoop) (after : TransferTable) : Prop where
  refs : InjectiveOn (s.merge.ref "transfer")
  /-- No row that was there is claimed twice. -/
  claimed : s.claimed.Nodup
  /-- The reference of a move names the one row written for it. -/
  row : ∀ sourcePlayer player mv, m.Counts sourcePlayer player mv →
    ∃ r, s.merge.ref "transfer" (moveKey sourcePlayer mv.raw) = some r.id ∧
      (s.inserts ++ s.updates).filter (·.id = r.id) = [r] ∧ RowFor m player mv.raw r ∧
      StandsFor after r
  /-- Two moves with one row are one move. -/
  apart : ∀ sourcePlayer player mv sourcePlayer' player' mv', m.Counts sourcePlayer player mv →
    m.Counts sourcePlayer' player' mv' →
    s.merge.ref "transfer" (moveKey sourcePlayer mv.raw) =
      s.merge.ref "transfer" (moveKey sourcePlayer' mv'.raw) →
    SameMove sourcePlayer mv.raw sourcePlayer' mv'.raw
  adopted : AdoptedWell existing m s

section After

variable [Unicode] [CaseFolding] [Postgres] [Takes MoveRow] [Joins] {newString : ℕ → String}
  {transfers after : TransferTable} {players : List LocalPlayer} {m : Merge} {recorded : ℕ}

omit [Unicode] [CaseFolding] [Takes MoveRow] [Joins] in
theorem nodup_selectTransfers (ids : List String) :
    ((selectTransfers transfers ids).map (·.id)).Nodup := by
  have keys : ((transfers.entries.filter fun e => e.2.transfer.playerID ∈ ids).map
      Sigma.fst).Nodup := transfers.nodupKeys.sublist List.filter_sublist
  rw [selectTransfers, List.map_map]
  exact keys

omit [Unicode] [CaseFolding] [Postgres] [Takes MoveRow] [Joins] in
/-- Of rows with distinct ids, one has the id of each. -/
theorem filter_id_eq {rows : List MoveRow} (nodup : (rows.map (·.id)).Nodup) {r : MoveRow}
    (member : r ∈ rows) : rows.filter (·.id = r.id) = [r] := by
  induction rows with
  | nil => cases member
  | cons first rows ih =>
      rw [List.map_cons, List.nodup_cons] at nodup
      rcases List.mem_cons.mp member with rfl | later
      · rw [List.filter_cons_of_pos (by simp), List.filter_eq_nil_iff.mpr]
        intro other listed same
        rw [decide_eq_true_eq] at same
        exact nodup.1 (List.mem_map.mpr ⟨other, listed, same⟩)
      · have other : first.id ≠ r.id := by
          intro same
          exact nodup.1 (List.mem_map.mpr ⟨r, later, same.symm⟩)
        rw [List.filter_cons_of_neg (by simpa using other)]
        exact ih nodup.2 later

omit [Unicode] [CaseFolding] [Takes MoveRow] [Joins] in
/-- What is selected is there, and a row that is there for one of the players is selected. -/
theorem mem_selectTransfers {ids : List String} {id player : String} :
    (∃ t ∈ selectTransfers transfers ids, t.id = id ∧ t.playerID = player) ↔
      ∃ old, transfers.lookup id = some old ∧ old.transfer.playerID = player ∧ player ∈ ids := by
  constructor
  · rintro ⟨t, listed, rfl, rfl⟩
    obtain ⟨⟨id, old⟩, kept, rfl⟩ := List.mem_map.mp listed
    obtain ⟨entry, local_⟩ := List.mem_filter.mp kept
    exact ⟨old, AList.mem_lookup_iff.mpr entry, rfl, of_decide_eq_true local_⟩
  · rintro ⟨old, found, rfl, local_⟩
    exact ⟨_, List.mem_map.mpr ⟨⟨id, old⟩, List.mem_filter.mpr
      ⟨AList.mem_lookup_iff.mp found, decide_eq_true local_⟩, rfl⟩, rfl, rfl⟩

omit [Unicode] [CaseFolding] in
/-- A row that is rewritten has the columns of what rewrote it. -/
theorem rewritten_columns {plan : Plan} (nodup : (plan.updates.map (·.id)).Nodup)
    {r : MoveRow} (update : r ∈ plan.updates) {old t : Squad.Move}
    (found : transfers.lookup r.id = some old) (rewritten : plan.Rewritten transfers r.id t) :
    t.transfer.fromTeam = r.fromTeam ∧ t.transfer.toTeam = r.toTeam ∧
      Postgres.toDay r.date = some t.transfer.transferDate := by
  obtain ⟨listed, sent⟩ := rewritten
  rw [found] at sent
  refine (rewritten_spec (P := fun _ => True)
    (Q := fun t => t.transfer.fromTeam = r.fromTeam ∧ t.transfer.toTeam = r.toTeam ∧
      Postgres.toDay r.date = some t.transfer.transferDate) sent trivial ?_).2 listed
  intro r' member same t t' _ made
  have one : r' = r := List.inj_on_of_nodup_map nodup member update same
  rw [← one]
  exact ⟨trivial, (rewriteMove_columns made).2⟩

omit [Unicode] [CaseFolding] in
/-- A row that was there keeps its player. -/
theorem playerID_of_there {plan : Plan} (sound : plan.Sound transfers)
    (run : plan.run transfers recorded = some after) {id : String} {old t : Squad.Move}
    (found : transfers.lookup id = some old) (stored : after.lookup id = some t) :
    t.transfer.playerID = old.transfer.playerID := by
  rcases (lookup_run sound run).mp stored with ⟨kept, -⟩ | ⟨-, sent⟩ | ⟨absent, -⟩
  · rw [found] at kept
    rw [Option.some.inj kept]
  · rw [found] at sent
    refine (rewritten_spec (P := fun t => t.transfer.playerID = old.transfer.playerID)
      (Q := fun _ => True) sent rfl ?_).1
    intro r _ _ t t' owner made
    exact ⟨(rewriteMove_columns made).1.1.trans owner, trivial⟩
  · rw [found] at absent
    cases absent

omit [Unicode] [CaseFolding] in
/-- Rows of distinct ids that are decided on stand in the table after the import. -/
theorem standsFor_of_mem {plan : Plan} (sound : plan.Sound transfers)
    (run : plan.run transfers recorded = some after)
    (nodup : ((plan.inserts ++ plan.updates).map (·.id)).Nodup)
    (new : ∀ r ∈ plan.inserts, transfers.lookup r.id = none)
    (owned : ∀ r ∈ plan.updates, ∀ old, transfers.lookup r.id = some old →
      old.transfer.playerID = r.player) :
    ∀ r ∈ plan.inserts ++ plan.updates, StandsFor after r := by
  intro r member
  rcases List.mem_append.mp member with insert_ | update
  · obtain ⟨t, stored, ⟨r', listed, same, made⟩⟩ :=
      exists_inserted sound run insert_ (new r insert_)
    have inserted : r'.1 ∈ plan.inserts := by
      rw [← List.zipIdx_map_fst recorded plan.inserts]
      exact List.mem_map_of_mem listed
    have one : r'.1 = r :=
      List.inj_on_of_nodup_map nodup (List.mem_append_left _ inserted) member same
    obtain ⟨⟨owner, -⟩, columns⟩ := insertMove_columns made
    rw [one] at owner columns
    exact ⟨t, stored, owner, columns⟩
  · obtain ⟨t, stored, -, rewritten⟩ := exists_rewritten sound run update
    obtain ⟨old, found⟩ := Option.isSome_iff_exists.mp (sound.updates r update)
    have updates : (plan.updates.map (·.id)).Nodup := by
      rw [List.map_append] at nodup
      exact nodup.of_append_right
    have owner : t.transfer.playerID = r.player :=
      (playerID_of_there sound run found stored).trans (owned r update old found)
    exact ⟨t, stored, owner, rewritten_columns updates update found
      ⟨List.mem_map.mpr ⟨r, update, rfl⟩, rewritten⟩⟩

omit [Postgres] [Takes MoveRow] [Joins] in
/-- Before the first move the loop stands at its start. -/
theorem stands_loopStart (stored : InjectiveOn (m.ref "transfer"))
    {existing : List LocalTransfer} : Stands newString existing m [] (loopStart m) where
  frame := ⟨rfl, rfl, rfl, rfl⟩
  untouched _ _ := rfl
  named := by simp
  injective := stored
  written := by simp [loopStart]
  nodup := List.nodup_nil
  claimed := by simp [loopStart]
  claimed_nodup := List.nodup_nil
  drawn := by simp [loopStart]
  there := by simp [loopStart]
  adopted := by simp [loopStart]

/-- The row of a move is its player's, so a reference that named a row of another player is
not the reference of a move that has one. -/
theorem refsOwn_of_matched (newString : ℕ → String)
    (committed : (transferPlan newString transfers players m).run transfers recorded =
      some after)
    (matched : Matched (selectTransfers transfers m.locals) m
      (transferLoop newString (selectTransfers transfers m.locals) m) after) :
    RefsOwn (selectTransfers transfers m.locals) m := by
  intro sourcePlayer player mv counts t listed names
  obtain ⟨r, named, -, columns, t', stored, owner, -⟩ := matched.row _ _ _ counts
  have stays := refsStay_transferLoop newString (selectTransfers transfers m.locals) m _ _ names
    (List.mem_map.mpr ⟨t, listed, rfl⟩)
  have same : t.id = r.id := Option.some.inj (stays.symm.trans named)
  obtain ⟨old, found, owned, -⟩ := mem_selectTransfers.mp ⟨t, listed, same, rfl⟩
  have kept := playerID_of_there (sound_transferPlan newString players m) committed found stored
  rw [← owned, ← kept, owner, columns.player]

/-- **One row for one move.** Where the references name distinct rows and the ids drawn are
new, an import matches moves and rows one to one exactly when no two moves are remembered
under one key, no row is adopted that is dated far before its move, and no reference of a
move names a row of another player. -/
theorem matched_iff (stored : InjectiveOn (m.ref "transfer"))
    (distinct : Function.Injective newString)
    (newRows : ∀ n, transfers.lookup (newString n) = none)
    (newRefs : ∀ n key, m.ref "transfer" key ≠ some (newString n))
    (committed : (transferPlan newString transfers players m).run transfers recorded =
      some after) :
    Matched (selectTransfers transfers m.locals) m
        (transferLoop newString (selectTransfers transfers m.locals) m) after ↔
      KeysApart m ∧ AdoptsNear newString (selectTransfers transfers m.locals) m ∧
        RefsOwn (selectTransfers transfers m.locals) m := by
  have selected : ∀ n, newString n ∉ (selectTransfers transfers m.locals).map (·.id) := by
    intro n listed
    have there := isSome_of_selected listed
    rw [newRows n] at there
    cases there
  constructor
  · intro matched
    refine ⟨?_, ?_, refsOwn_of_matched newString committed matched⟩
    · intro sourcePlayer player mv sourcePlayer' player' mv' counts counts' same
      refine matched.apart _ _ _ _ _ _ counts counts' ?_
      rw [same]
    · exact nearPlayers_of_adopted (nodup_selectTransfers m.locals) _ _ ⟨rfl, rfl, rfl, rfl⟩
        matched.adopted
  · rintro ⟨apart, near, own⟩
    have nodup : (sortedKeys m.d.transfers).Nodup :=
      (List.perm_insertionSort _ _).nodup_iff.mpr m.d.transfers.nodupKeys
    obtain ⟨done, stands, -, all⟩ := (stands_loopStart stored).players
      ⟨distinct, selected, newRefs⟩ apart nodup (by simp) near
    have written := standsFor_of_mem (sound_transferPlan newString players m) committed
      stands.nodup (by
        intro r member
        obtain ⟨n, -, drawn⟩ := stands.drawn r member
        rw [drawn]
        exact newRows n) (by
        intro r member old found
        obtain ⟨t, listed, same⟩ := List.mem_map.mp (stands.there r member)
        obtain ⟨old', found', owned, -⟩ := mem_selectTransfers.mp ⟨t, listed, same, rfl⟩
        obtain rfl : old = old' := Option.some.inj (found.symm.trans found')
        rw [owned]
        have stay := refsStay_transferLoop newString (selectTransfers transfers m.locals) m
        exact stands.owned stay own (nodup_selectTransfers m.locals) r member t listed same)
    have given : ∀ {sourcePlayer player mv}, m.Counts sourcePlayer player mv →
        (sourcePlayer, moveKey sourcePlayer mv.raw) ∈ done := by
      intro sourcePlayer player mv counts
      have listed : sourcePlayer ∈ m.d.transfers := by
        by_contra absent
        have moves := counts.has.listed
        rw [Merge.moves, AList.lookup_eq_none.mpr absent] at moves
        cases moves
      exact all _ (mem_sortedKeys.mpr listed) player mv counts
    refine ⟨stands.injective, stands.claimed_nodup, ?_, ?_, stands.adopted⟩
    · intro sourcePlayer player mv counts
      obtain ⟨player', mv', counts', is_key, r, member, names, columns⟩ :=
        stands.named _ (given counts)
      obtain ⟨-, date, origin, destination⟩ := apart _ _ _ _ _ _ counts counts' is_key
      have one : player' = player :=
        Option.some.inj (counts'.has.imported.symm.trans counts.has.imported)
      refine ⟨r, names, ?_, ?_, written r member⟩
      · exact filter_id_eq stands.nodup member
      · rw [columns, one]
        exact ⟨rfl, by rw [origin]; rfl, by rw [destination]; rfl, date.symm⟩
    · intro sourcePlayer player mv sourcePlayer' player' mv' counts counts' same
      obtain ⟨-, -, -, -, r, -, names, -⟩ := stands.named _ (given counts)
      have names' := same.symm.trans names
      exact apart _ _ _ _ _ _ counts counts' (stands.injective _ _ _ names names')

end After

/-! ### A row that is older than any duration -/

section Albion

/-- Days as Postgres reads and writes them. -/
@[reducible]
def oldDates : Postgres where
  toDay := Dates.parse
  dayText day := if day = 620912 then "1701-01-01" else "2024-07-01"

@[reducible]
def takesAll : Takes MoveRow where
  takes _ := true

@[reducible]
def joinsFirst : Joins where
  choose _ := 0

/-- A player with moves to or from one club of the import. -/
def arrivalOf (transfers : GoMap (List RawTransfer)) : Merge where
  d :=
    { clubs := ∅, players := [], transfers := transfers, valuations := []
      latestSeason := 2025 }
  scope := ⟨["GB1"], 2020⟩
  report := {}
  refs := ∅
  newRefs := []
  comps := ∅
  seasons := []
  clubs := (∅ : GoMap String).insert "1237" "t-albion"
  players := (∅ : GoMap String).insert "800" "t-baleba"
  matched := []
  drawn := 0

/-- A row entered by hand, for a day. -/
def enteredFor (day : Date) : TransferTable :=
  (∅ : TransferTable).insert "t-entered"
    ⟨⟨"t-baleba", none, some "t-albion", none, day, "permanent", none, "EUR"⟩, 0⟩

def toAlbion : GoMap (List RawTransfer) :=
  (∅ : GoMap (List RawTransfer)).insert "800"
    [⟨"2024-07-01", "3302", "1237", "UD Almería", "Brighton & Hove Albion", none⟩]

theorem arrivalOf_ref {transfers : GoMap (List RawTransfer)} (key : String) :
    (arrivalOf transfers).ref "transfer" key = none :=
  AList.lookup_empty _

theorem zeros_enteredFor (n : ℕ) (day : Date) : (enteredFor day).lookup (zeros n) = none := by
  rw [enteredFor, AList.lookup_insert_ne (zeros_ne (by decide) n).symm]
  exact AList.lookup_empty _

/-- Baleba's arrival is the only move. -/
theorem counts_albion {sourcePlayer player : String} {mv : Move} :
    let _ := Unicode.ascii
    let _ := CaseFolding.ascii
    (arrivalOf toAlbion).Counts sourcePlayer player mv → sourcePlayer = "800" ∧
      mv.raw = ⟨"2024-07-01", "3302", "1237", "UD Almería", "Brighton & Hove Albion", none⟩ := by
  intro _ _ counts
  have listed := counts.has.listed
  by_cases same : sourcePlayer = "800"
  · subst same
    have all : ∀ mv ∈ (arrivalOf toAlbion).moves "800", mv.raw =
        ⟨"2024-07-01", "3302", "1237", "UD Almería", "Brighton & Hove Albion", none⟩ := by
      decide +kernel
    exact ⟨rfl, all mv listed⟩
  · have none_ : (arrivalOf toAlbion).d.transfers.lookup sourcePlayer = none := by
      change ((∅ : GoMap (List RawTransfer)).insert "800" _).lookup sourcePlayer = none
      rw [AList.lookup_insert_ne same]
      exact AList.lookup_empty _
    rw [Merge.moves, none_] at listed
    cases listed

/-- A row entered for a day of the source's week is adopted, and the move and the row are one
to one. -/
theorem matched_iff_albion :
    let _ := Unicode.ascii
    let _ := CaseFolding.ascii
    let _ := oldDates
    let _ := takesAll
    let _ := joinsFirst
    let m := arrivalOf toAlbion
    let existing := selectTransfers (enteredFor 739064) m.locals
    ∃ after, (transferPlan zeros (enteredFor 739064) [] m).run (enteredFor 739064) 1 =
        some after ∧ Matched existing m (transferLoop zeros existing m) after := by
  intro _ _ _ _ _ m existing
  have runs : ((transferPlan zeros (enteredFor 739064) [] m).run (enteredFor 739064) 1).isSome :=
    by decide +kernel
  obtain ⟨after, committed⟩ := Option.isSome_iff_exists.mp runs
  have entered : ∀ t ∈ existing, t.date = "2024-07-01" := by decide +kernel
  have keys : sortedKeys m.d.transfers = ["800"] := by decide +kernel
  have moves : (m.moves "800").map (·.raw.date) = ["2024-07-01"] := by decide +kernel
  refine ⟨after, committed, (matched_iff ?_ zeros_injective (fun n => zeros_enteredFor n _) ?_
    committed).mpr ⟨?_, ?_, ?_⟩⟩
  · intro key _ _ names
    rw [arrivalOf_ref] at names
    cases names
  · intro n key names
    rw [arrivalOf_ref] at names
    cases names
  · intro _ _ _ _ _ _ counts counts' _
    obtain ⟨rfl, first⟩ := counts_albion counts
    obtain ⟨rfl, second⟩ := counts_albion counts'
    rw [SameMove, first, second]
    exact ⟨rfl, rfl, rfl, rfl⟩
  · rw [AdoptsNear, keys]
    refine ⟨fun player _ => ?_, trivial⟩
    obtain ⟨mv, only, date⟩ := List.map_eq_singleton_iff.mp moves
    rw [only]
    refine ⟨fun id _ _ _ _ t listed _ => ?_, trivial⟩
    rw [entered t listed, date]
    exact not_farBefore_of_withinWeek ⟨739067, 739067, by decide +kernel⟩
  · intro _ _ _ _ t _ names
    rw [arrivalOf_ref] at names
    cases names

/-- A row entered by hand for the year 1701 is adopted for a move of 2024. -/
theorem matched_misdated :
    let _ := Unicode.ascii
    let _ := CaseFolding.ascii
    let _ := oldDates
    let _ := takesAll
    let _ := joinsFirst
    let m := arrivalOf toAlbion
    let existing := selectTransfers (enteredFor 620912) m.locals
    InjectiveOn (m.ref "transfer") ∧
      ∃ after, (transferPlan zeros (enteredFor 620912) [] m).run (enteredFor 620912) 1 =
          some after ∧
        ¬ Matched existing m (transferLoop zeros existing m) after := by
  intro _ _ _ _ _ m existing
  have runs : ((transferPlan zeros (enteredFor 620912) [] m).run (enteredFor 620912) 1).isSome :=
    by decide +kernel
  obtain ⟨after, committed⟩ := Option.isSome_iff_exists.mp runs
  refine ⟨fun key _ _ names => ?_, after, committed, fun matched => ?_⟩
  · rw [arrivalOf_ref] at names
    cases names
  · have written : (transferLoop zeros existing m).updates.map (fun r => (r.id, r.date)) =
        [("t-entered", "2024-07-01")] := by decide +kernel
    have entered : ∀ t ∈ existing, t.date = "1701-01-01" := by decide +kernel
    obtain ⟨r, member, columns⟩ : ∃ r ∈ (transferLoop zeros existing m).updates,
        (r.id, r.date) = ("t-entered", "2024-07-01") := by
      rw [← List.mem_map, written]
      exact List.mem_singleton_self _
    obtain ⟨-, date⟩ := Prod.mk.inj columns
    obtain ⟨t, listed, -, -, -, -, x, y, first, second, near⟩ := matched.adopted r member rfl
    rw [entered t listed, show Dates.parse "1701-01-01" = some 620912 by decide +kernel] at first
    rw [date, show Dates.parse "2024-07-01" = some 739067 by decide +kernel] at second
    obtain rfl := Option.some.inj first
    obtain rfl := Option.some.inj second
    exact absurd near (by decide)

end Albion

end ScoutPulse.Importer
