import ScoutPulse.Football.Importer.Standing

/-!
# What the loop over the source's moves does

Each move is passed over, or takes a row that is there, or becomes a new row; whatever it
does leaves alone what the earlier steps of the import found. So every row that is decided
on has the columns of one of the source's moves.
-/

namespace ScoutPulse.Importer

open Dates (dayLength)
open Squad (Date)
open Strings

/-- A move that joins a club of the import. -/
def Merge.Joins (m : Merge) (t : RawTransfer) : Prop :=
  m.teamFor t.fromID ≠ none ∨ m.teamFor t.toID ≠ none

instance (m : Merge) (t : RawTransfer) : Decidable (m.Joins t) :=
  inferInstanceAs (Decidable (_ ∨ _))

/-- The columns of a move, as an import reads its clubs and seasons. -/
def Merge.rowOf (m : Merge) (player id : String) (mv : Move) : MoveRow where
  id := id
  player := player
  fromTeam := m.teamFor mv.raw.fromID
  toTeam := m.teamFor mv.raw.toID
  season := m.seasonOn mv.raw.date
  date := mv.raw.date
  type := mv.type
  fee := mv.feeMinor

section Step

variable (existing : List LocalTransfer) (refByLocal : String → Bool) (player : String)
  (newString : ℕ → String) (sourcePlayer : String) (s : TransferLoop) (mv : Move)

/-- The row that is there for a move, by its reference or entered by hand. -/
def TransferLoop.chosen : Option String :=
  (s.referenced existing (moveKey sourcePlayer mv.raw)).or
    (s.adopted existing refByLocal player (s.merge.teamFor mv.raw.fromID)
      (s.merge.teamFor mv.raw.toID) mv.raw.date)

/-- What one move does. -/
inductive Took : TransferLoop → Prop
  | outside : ¬ s.merge.Joins mv.raw → Took s
  | repeated : moveKey sourcePlayer mv.raw ∈ s.seen → Took s
  | claimed {id : String} (report : Report) : s.merge.Joins mv.raw →
      moveKey sourcePlayer mv.raw ∉ s.seen →
      s.chosen existing refByLocal player sourcePlayer mv = some id →
      Took (s.claim player id (moveKey sourcePlayer mv.raw) mv report)
  | created : s.merge.Joins mv.raw → moveKey sourcePlayer mv.raw ∉ s.seen →
      s.chosen existing refByLocal player sourcePlayer mv = none →
      Took (s.create player newString (moveKey sourcePlayer mv.raw) mv)

/-- What a move does is one of the ways the loop goes on. -/
theorem took_step :
    Took existing refByLocal player newString sourcePlayer s mv
      (s.step existing refByLocal player newString sourcePlayer mv) := by
  rw [TransferLoop.step]
  split_ifs with outside again
  · exact .outside fun joins => joins.elim (fun origin => origin outside.1)
      fun destination => destination outside.2
  · exact .repeated again
  · have joins : s.merge.Joins mv.raw := by
      rw [Merge.Joins]
      tauto
    split
    case h_1 _ _ id named =>
      refine .claimed _ joins again ?_
      rw [TransferLoop.chosen, named, Option.some_or]
    case h_2 id unnamed entered =>
      refine .claimed _ joins again ?_
      rw [TransferLoop.chosen, unnamed, Option.none_or, entered]
    case h_3 unnamed unentered =>
      refine .created joins again ?_
      rw [TransferLoop.chosen, unnamed, Option.none_or, unentered]

end Step

/-! ## What is left alone -/

/-- What the loop reads of the earlier steps is as they left it. -/
structure Frame (m : Merge) (s : TransferLoop) : Prop where
  d : s.merge.d = m.d
  clubs : s.merge.clubs = m.clubs
  seasons : s.merge.seasons = m.seasons
  players : s.merge.players = m.players

namespace Frame

variable {m : Merge} {s : TransferLoop}

theorem joins (frame : Frame m s) (t : RawTransfer) : s.merge.Joins t ↔ m.Joins t := by
  rw [Merge.Joins, Merge.Joins, Merge.teamFor, Merge.teamFor, Merge.teamFor, Merge.teamFor,
    frame.clubs]

theorem teamFor (frame : Frame m s) (clubID : String) :
    s.merge.teamFor clubID = m.teamFor clubID := by
  rw [Merge.teamFor, Merge.teamFor, frame.clubs]

theorem reset (frame : Frame m s) : Frame m { s with seen := [] } :=
  ⟨frame.d, frame.clubs, frame.seasons, frame.players⟩

theorem row (frame : Frame m s) (player id : String) (mv : Move) :
    s.row player id mv = m.rowOf player id mv := by
  simp only [TransferLoop.row, Merge.rowOf, Merge.seasonOn, frame.teamFor, frame.seasons]

variable {existing : List LocalTransfer} {refByLocal : String → Bool} {player : String}
  {newString : ℕ → String} {sourcePlayer : String} {mv : Move} {s' : TransferLoop}

/-- Whatever a move does, the loop reads the earlier steps as they were. -/
theorem step (frame : Frame m s)
    (took : Took existing refByLocal player newString sourcePlayer s mv s') : Frame m s' := by
  cases took with
  | outside => exact frame
  | repeated => exact frame
  | claimed report =>
      exact ⟨(Merge.d_remember ..).trans frame.d, (Merge.clubs_remember ..).trans frame.clubs,
        (Merge.seasons_remember ..).trans frame.seasons,
        (Merge.players_remember ..).trans frame.players⟩
  | created =>
      exact ⟨(Merge.d_remember ..).trans frame.d, (Merge.clubs_remember ..).trans frame.clubs,
        (Merge.seasons_remember ..).trans frame.seasons,
        (Merge.players_remember ..).trans frame.players⟩

end Frame

/-! ## What holds at the end of the loop -/

section Loop

variable [Unicode] [CaseFolding] {newString : ℕ → String} {existing : List LocalTransfer}
  {m : Merge} {player sourcePlayer : String} {s : TransferLoop}

/-- The moves of a source player, classified, in the order of their dates. -/
def Merge.moves (m : Merge) (sourcePlayer : String) : List Move :=
  classify ((m.d.transfers.lookup sourcePlayer).getD [])

/-- A move of a player in the import. -/
structure Merge.Has (m : Merge) (sourcePlayer player : String) (mv : Move) : Prop where
  imported : m.players.lookup sourcePlayer = some player
  listed : mv ∈ m.moves sourcePlayer

/-- Where the loop begins. -/
def loopStart (m : Merge) : TransferLoop :=
  { merge := m, claimed := [], inserts := [], updates := [], seen := [] }

theorem Frame.ofPlayer (frame : Frame m s) (sourcePlayer : String) :
    Frame m (s.ofPlayer existing m.refByLocal newString sourcePlayer) := by
  have moves : ∀ {player : String} (moves : List Move) (s : TransferLoop), Frame m s →
      Frame m (moves.foldl
        (TransferLoop.step existing m.refByLocal player newString sourcePlayer) s) := by
    intro player moves
    induction moves with
    | nil => exact fun s frame => frame
    | cons mv moves ih =>
        exact fun s frame => ih _
          (frame.step (took_step existing m.refByLocal player newString sourcePlayer s mv))
  rw [TransferLoop.ofPlayer]
  split
  · exact frame
  · exact moves _ _ frame.reset

/-- What the loop begins with and every step keeps holds at its end. -/
theorem transferLoop_invariant {P : TransferLoop → Prop} (start : P (loopStart m))
    (reset : ∀ {s}, P s → P { s with seen := [] })
    (step : ∀ {s s' sourcePlayer player mv}, Frame m s → m.Has sourcePlayer player mv → P s →
      Took existing m.refByLocal player newString sourcePlayer s mv s' → P s') :
    P (transferLoop newString existing m) := by
  have moves : ∀ {player sourcePlayer : String} (moves : List Move) (s : TransferLoop),
      (∀ mv ∈ moves, m.Has sourcePlayer player mv) → Frame m s ∧ P s →
        Frame m (moves.foldl
            (TransferLoop.step existing m.refByLocal player newString sourcePlayer) s) ∧
          P (moves.foldl
            (TransferLoop.step existing m.refByLocal player newString sourcePlayer) s) := by
    intro player sourcePlayer moves
    induction moves with
    | nil => exact fun s _ both => both
    | cons mv moves ih =>
        intro s has both
        rw [List.forall_mem_cons] at has
        have took := took_step existing m.refByLocal player newString sourcePlayer s mv
        exact ih _ has.2 ⟨both.1.step took, step both.1 has.1 both.2 took⟩
  have players : ∀ (players : List String) (s : TransferLoop), Frame m s ∧ P s →
      Frame m (players.foldl (TransferLoop.ofPlayer existing m.refByLocal newString) s) ∧
        P (players.foldl (TransferLoop.ofPlayer existing m.refByLocal newString) s) := by
    intro players
    induction players with
    | nil => exact fun s both => both
    | cons sourcePlayer players ih =>
        intro s both
        apply ih
        rw [TransferLoop.ofPlayer, both.1.players, both.1.d]
        cases imported : m.players.lookup sourcePlayer with
        | none => exact both
        | some player =>
            exact moves _ _ (fun mv listed => ⟨imported, listed⟩)
              ⟨both.1.reset, reset both.2⟩
  exact (players (sortedKeys m.d.transfers) (loopStart m) ⟨⟨rfl, rfl, rfl, rfl⟩, start⟩).2

/-- A row with the columns of a move of the source. -/
def Merge.Plans (m : Merge) (r : MoveRow) : Prop :=
  ∃ sourcePlayer player mv, m.Has sourcePlayer player mv ∧ m.Joins mv.raw ∧
    r = m.rowOf player r.id mv

/-- Every row that is decided on has the columns of a move. -/
theorem plans_transferLoop (newString : ℕ → String) (existing : List LocalTransfer) (m : Merge) :
    ∀ r ∈ (transferLoop newString existing m).inserts ++
      (transferLoop newString existing m).updates, m.Plans r := by
  refine transferLoop_invariant
    (P := fun s => ∀ r ∈ s.inserts ++ s.updates, m.Plans r) (by simp [loopStart])
    (fun before => before) ?_
  intro s s' sourcePlayer player mv frame has before took
  cases took with
  | outside => exact before
  | repeated => exact before
  | @claimed id report joins =>
      have new : m.Plans (s.row player id mv) :=
        ⟨sourcePlayer, player, mv, has, (frame.joins _).mp joins, frame.row player id mv⟩
      rw [TransferLoop.claim, ← List.append_assoc, List.forall_mem_append,
        List.forall_mem_singleton]
      exact ⟨before, new⟩
  | created joins _ _ =>
      have new : m.Plans (s.row player (newString s.merge.drawn) mv) :=
        ⟨sourcePlayer, player, mv, has, (frame.joins _).mp joins, frame.row player _ mv⟩
      rw [List.forall_mem_append] at before
      rw [TransferLoop.create, List.append_assoc, List.forall_mem_append,
        List.forall_mem_append, List.forall_mem_singleton]
      exact ⟨before.1, new, before.2⟩

end Loop

/-! ## How far dates are apart -/

/-- Two dates at most a week from each other. -/
def WithinWeek (a b : String) : Prop :=
  ∃ x y, Dates.parse a = some x ∧ Dates.parse b = some y ∧ |x - y| ≤ 7

/-- A date so long before another that no duration is long enough for the difference. -/
def FarBefore (a b : String) : Prop :=
  ∃ x y, Dates.parse a = some x ∧ Dates.parse b = some y ∧ x - y ≤ -106752

/-- The days between two dates as they are counted: those the nearest duration has. -/
theorem daysApart_of_parse {a b : String} {x y : ℤ} (first : Dates.parse a = some x)
    (second : Dates.parse b = some y) :
    daysApart a b =
      if x - y ≤ -106752 then -106751 else if 106752 ≤ x - y then 106751 else |x - y| := by
  have least : Int64.minValue.toInt = -2 ^ 63 := rfl
  have most : Int64.maxValue.toInt = 2 ^ 63 - 1 := rfl
  rw [daysApart, first, second]
  dsimp only
  by_cases long : x - y ≤ -106752
  · have below : ¬ Int64.minValue.toInt ≤ (x - y) * dayLength := by
      rw [least, dayLength]
      omega
    rw [if_pos long, Int64.ofIntClamp, dif_neg below]
    rfl
  · rw [if_neg long]
    have above : Int64.minValue.toInt ≤ (x - y) * dayLength := by
      rw [least, dayLength]
      omega
    by_cases longer : 106752 ≤ x - y
    · have beyond : ¬ (x - y) * dayLength ≤ Int64.maxValue.toInt := by
        rw [most, dayLength]
        omega
      rw [if_pos longer, Int64.ofIntClamp, dif_pos above, dif_neg beyond]
      rfl
    · have within : (x - y) * dayLength ≤ Int64.maxValue.toInt := by
        rw [most, dayLength]
        omega
      have whole := Int64.toInt_ofIntClamp above within
      have sign : Int64.ofIntClamp ((x - y) * dayLength) < 0 ↔ x - y < 0 := by
        rw [Int64.lt_iff_toInt_lt, whole, dayLength]
        exact ⟨fun negative => by change _ < (0 : ℤ) at negative; omega,
          fun negative => by change _ < (0 : ℤ); omega⟩
      rw [if_neg longer]
      by_cases negative : x - y < 0
      · have turned : (-Int64.ofIntClamp ((x - y) * dayLength)).toInt =
            -(x - y) * dayLength := by
          rw [Int64.toInt_neg, whole, Int.bmod_eq_of_le]
          · rw [neg_mul]
          · rw [dayLength]
            omega
          · rw [dayLength]
            omega
        rw [if_pos (sign.mpr negative), turned, abs_of_neg negative]
        exact Int.mul_tdiv_cancel _ (by decide)
      · rw [if_neg (mt sign.mp negative), whole, abs_of_nonneg (Int.not_lt.mp negative)]
        exact Int.mul_tdiv_cancel _ (by decide)

/-- Dates count as a week apart when they are, or when the first is so long before the
other that the difference turns around. -/
theorem daysApart_le_iff {a b : String} :
    daysApart a b ≤ 7 ↔ WithinWeek a b ∨ FarBefore a b := by
  cases first : Dates.parse a with
  | none =>
      have apart : daysApart a b = 2 ^ 30 := by rw [daysApart, first]
      simp [apart, WithinWeek, FarBefore, first]
  | some x =>
      cases second : Dates.parse b with
      | none =>
          have apart : daysApart a b = 2 ^ 30 := by rw [daysApart, first, second]
          simp [apart, WithinWeek, FarBefore, second]
      | some y =>
          have week : WithinWeek a b ↔ |x - y| ≤ 7 := by
            simp [WithinWeek, first, second]
          have far : FarBefore a b ↔ x - y ≤ -106752 := by
            simp [FarBefore, first, second]
          rw [daysApart_of_parse first second, week, far, abs_le]
          split_ifs with long longer
          · omega
          · omega
          · rw [abs_le]
            omega

end ScoutPulse.Importer
