import ScoutPulse.Football.Register.Model
import ScoutPulse.Football.Importer.Moves

/-!
# Saving back what was read

An administrator who reads a transfer and sends back what was read changes nothing, as long
as the row is one that `validateTransfer` would let through. Each request that writes a row
lets it be such a row, apart from a few that write or leave one it would refuse.
-/

namespace ScoutPulse.Register

open Dates (Moment dayLength midnight ofDay)
open Outcome Strings
open Players (Instant Player validatePlayer)
open Squad (Date SentTransfer Transfer TransferOf)

/-! ## Rows that can be saved back -/

/-- The parts of a transfer that a correction may change are as they should be. -/
structure Carries {δ : Type} (t : TransferOf δ) : Prop where
  player : t.playerID ≠ ""
  type : ¬ Squad.validTransferType t.transferType = false
  fee : ¬ t.fee.any (· < 0) = true
  free : ¬ (t.transferType = Squad.transferFree ∧ t.fee.any (· ≠ 0) = true)

/-- A move is from one place to another. -/
structure Apart {δ : Type} (t : TransferOf δ) : Prop where
  some_ : ¬ (t.fromTeam = none ∧ t.toTeam = none)
  apart : ¬ (t.fromTeam ≠ none ∧ t.fromTeam = t.toTeam)

/-- An instant that a move may be dated. -/
def Dated (horizon at_ : Instant) : Prop := at_ ≠ 0 ∧ ¬ horizon < at_

instance (horizon at_ : Instant) : Decidable (Dated horizon at_) :=
  inferInstanceAs (Decidable (_ ∧ _))

/-- The clubs of a stored transfer are those of a move, and so is its date as it is read. -/
structure Proper (horizon : Instant) (t : Transfer) : Prop where
  clubs : Apart t
  dated : Dated horizon (midnight t.transferDate)

/-- A day that may be dated may be dated as long as the days go on. -/
theorem Dated.later {horizon horizon' : Instant} {day : Date}
    (dated : Dated horizon (midnight day)) (later : horizon / dayLength ≤ horizon' / dayLength) :
    Dated horizon' (midnight day) := by
  refine ⟨dated.1, ?_⟩
  rw [not_lt, Dates.midnight_le_iff]
  exact (Dates.midnight_le_iff.mp (not_lt.mp dated.2)).trans later

/-- Today may be dated. -/
theorem Reading.today {clock horizon : Instant} (reading : Reading clock horizon) :
    Dated horizon (midnight (clock / dayLength)) := by
  refine ⟨fun first => reading.1.ne' (Dates.midnight_eq_zero_iff.mp first), ?_⟩
  rw [not_lt]
  exact (Dates.midnight_le_iff.mpr le_rfl).trans reading.2

/-- A transfer passes exactly when it carries what it needs, leads from one club to another and
is dated in time. -/
theorem validateTransfer_ok_iff {t t' : SentTransfer} {horizon : Instant} :
    Squad.validateTransfer t horizon = .ok t' ↔
      (Carries t ∧ Apart t ∧ Dated horizon t.transferDate.instant) ∧
      { t with currency := if t.currency = "" then Squad.defaultCurrency else t.currency } =
        t' := by
  simp only [Squad.validateTransfer, guard_ok_iff, pure_ok_iff]
  constructor
  · rintro ⟨player, day, within, type, some_, apart, fee, free, rfl⟩
    exact ⟨⟨⟨player, type, fee, free⟩, ⟨some_, apart⟩, day, within⟩, rfl⟩
  · rintro ⟨⟨⟨player, type, fee, free⟩, ⟨some_, apart⟩, day, within⟩, rfl⟩
    exact ⟨player, day, within, type, some_, apart, fee, free, rfl⟩

section Columns

theorem length_of_char3 {text code : String} (kept : char3 text = some code) :
    code.toList.length = 3 := by
  rw [char3] at kept
  split_ifs at kept
  rw [← Option.some.inj kept, String.toList_ofList, List.length_take, List.length_append]
  simp

/-- What the column keeps is kept as it is. -/
theorem char3_char3 {text code : String} (kept : char3 text = some code) :
    char3 code = some code := by
  have long := length_of_char3 kept
  rw [char3, List.drop_eq_nil_of_le long.le, List.all_nil, if_pos rfl,
    List.take_append_of_le_length long.ge,
    List.take_of_length_le long.le, String.ofList_toList]

theorem ne_empty_of_char3 {text code : String} (kept : char3 text = some code) : code ≠ "" := by
  rintro rfl
  cases length_of_char3 kept

theorem currency_ok_iff {text code : String} :
    currency text = .ok code ↔ char3 text = some code := by
  rw [currency]
  cases char3 text <;> simp [throw, throwThe, MonadExceptOf.throw, pure, Except.pure]

variable [Uuids]

theorem uuid_ok_iff {text id : String} : uuid text = .ok id ↔ Uuids.read text = some id := by
  rw [uuid]
  cases Uuids.read text <;> simp [throw, throwThe, MonadExceptOf.throw, pure, Except.pure]

/-- A reference is taken as its column keeps it. -/
theorem reference_ok_iff {text id : Option String} :
    reference text = .ok id ↔ text.map Uuids.read = id.map some := by
  cases text with
  | none => cases id <;> simp [reference, pure, Except.pure]
  | some text =>
      rw [reference, bind_ok_iff]
      simp only [uuid_ok_iff, pure_ok_iff]
      cases id with
      | none => simp
      | some id => simp

end Columns

section Rows

variable [Uuids] {s s' : State} {id : String} {row : Squad.Move} {t : SentTransfer} {t' : Transfer}

/-- A row whose columns have been stored, and that a correction may be made of. -/
structure Sound (id : String) (t : Transfer) : Prop where
  id : Uuids.read id = some id
  carries : Carries t
  currency : char3 t.currency = some t.currency
  season : ∀ season ∈ t.seasonID, Uuids.read season = some season

/-- An administrator who sends back what is read of a transfer is accepted, and no column
of a transfer or of a player changes. -/
def SavedBack (s : State) (id : String) : Prop :=
  ∀ c : Caller, c.IsAdmin → ∀ row, s.tables.transfers.lookup id = some row →
    ∃ s', updateTransfer c s id row.transfer.read = .ok s' ∧
      s'.tables.players = s.tables.players ∧
      ∀ k, s'.tables.transfers.lookup k = s.tables.transfers.lookup k

/-- A row is found under an id that can be read. -/
theorem getByID_ok_iff {α : Type} {table : AList fun _ : String => α} {entity key : String}
    {row : α} : getByID table entity id = .ok (key, row) ↔
      Uuids.read id = some key ∧ table.lookup key = some row := by
  rw [getByID, bind_ok_iff]
  simp only [uuid_ok_iff]
  constructor
  · rintro ⟨stored, read, found⟩
    cases here : table.lookup stored with
    | none =>
        rw [here] at found
        cases found
    | some r =>
        rw [here] at found
        cases found
        exact ⟨read, here⟩
  · rintro ⟨read, found⟩
    refine ⟨key, read, ?_⟩
    rw [found]
    rfl

/-- How a correction goes through. -/
theorem updateTransfer_ok_iff {c : Caller} : updateTransfer c s id t = .ok s' ↔
    id ≠ "" ∧ ∃ key row, (Uuids.read id = some key ∧ s.tables.transfers.lookup key = some row) ∧
      c.requireEitherTeam row.transfer.fromTeam row.transfer.toTeam = .ok () ∧
      ∃ t', Squad.correctTransfer id (some row.transfer) t s.horizon = .ok t' ∧
        ∃ code, char3 t'.currency = some code ∧
          ∃ season, t'.seasonID.map Uuids.read = season.map some ∧
            { s with tables := { s.tables with
              transfers := s.tables.transfers.insert key
                (row.correct { t' with currency := code, seasonID := season }) } } = s' := by
  simp only [updateTransfer, guard_ok_iff, bind_ok_iff, pure_ok_iff, Prod.exists,
    getByID_ok_iff, reference_ok_iff, currency_ok_iff]
  refine and_congr_right fun _ => exists₂_congr fun key row => and_congr_right fun _ => ?_
  exact ⟨fun checked => checked.elim fun _ rest => rest, fun rest => ⟨(), rest⟩⟩

omit [Uuids] in
/-- A correction passes exactly when what it becomes does. -/
theorem correctTransfer_ok_iff {horizon : Instant} {existing : Transfer} (some_ : id ≠ "") :
    Squad.correctTransfer id (some existing) t horizon = .ok t' ↔
      (Carries { t with playerID := existing.playerID } ∧ Proper horizon existing) ∧
        { t.kept with
          playerID := existing.playerID
          fromTeam := existing.fromTeam
          toTeam := existing.toTeam
          transferDate := existing.transferDate
          currency := if t.currency = "" then Squad.defaultCurrency else t.currency
          seasonID := if t.seasonID = none then existing.seasonID else t.seasonID } = t' := by
  simp only [Squad.correctTransfer, guard_ok_iff, bind_ok_iff, pure_ok_iff,
    validateTransfer_ok_iff]
  constructor
  · rintro ⟨-, _, ⟨⟨carries, clubs, dated⟩, rfl⟩, rfl⟩
    refine ⟨⟨⟨carries.player, carries.type, carries.fee, carries.free⟩,
      ⟨clubs.some_, clubs.apart⟩, dated⟩, ?_⟩
    rw [TransferOf.kept, TransferOf.kept, Dates.day_ofDay]
  · rintro ⟨⟨carries, proper⟩, rfl⟩
    refine ⟨some_, _, ⟨⟨⟨carries.player, carries.type, carries.fee, carries.free⟩,
      ⟨proper.clubs.some_, proper.clubs.apart⟩, proper.dated⟩, rfl⟩, ?_⟩
    rw [TransferOf.kept, TransferOf.kept, Dates.day_ofDay]

theorem Sound.season_map (sound : Sound id t') :
    t'.seasonID.map Uuids.read = t'.seasonID.map some := by
  cases season : t'.seasonID with
  | none => rfl
  | some season_ => simp [sound.season season_ season]

/-- A row can be saved back exactly when its clubs and its date are those of a move. -/
theorem savedBack_iff (found : s.tables.transfers.lookup id = some row)
    (sound : Sound id row.transfer) : SavedBack s id ↔ Proper s.horizon row.transfer := by
  have some_ : id ≠ "" := Uuids.some_ sound.id
  constructor
  · intro saved
    obtain ⟨s', accepted, -⟩ :=
      saved ⟨some ⟨"", .admin, ""⟩, fun _ _ => .ok false⟩ ⟨_, rfl, rfl⟩ row found
    obtain ⟨-, key, stored, ⟨read, there⟩, -, t', corrected, -⟩ := updateTransfer_ok_iff.mp accepted
    obtain rfl : key = id := Option.some.inj (read.symm.trans sound.id)
    obtain rfl : stored = row := Option.some.inj (there.symm.trans found)
    exact ((correctTransfer_ok_iff some_).mp corrected).1.2
  · intro proper c admin stored there
    obtain rfl : stored = row := Option.some.inj (there.symm.trans found)
    refine ⟨_, updateTransfer_ok_iff.mpr ⟨some_, id, stored, ⟨sound.id, found⟩,
      Caller.requireEitherTeam_of_isAdmin admin _ _, stored.transfer,
      (correctTransfer_ok_iff some_).mpr
        ⟨⟨⟨sound.carries.player, sound.carries.type, sound.carries.fee, sound.carries.free⟩,
          proper⟩, ?_⟩, _, sound.currency, _, sound.season_map, rfl⟩, rfl, ?_⟩
    · have kept := ne_empty_of_char3 sound.currency
      exact TransferOf.ext rfl rfl rfl (ite_self _) rfl rfl rfl (if_neg kept)
    · intro k
      by_cases same : k = id
      · subst same
        rw [found]
        exact AList.lookup_insert _
      · exact AList.lookup_insert_ne same

/-! ## What each request leaves -/

/-- Every transfer that is stored can be saved back, now and later. -/
structure Saves (s : State) : Prop where
  reading : Reading s.clock s.horizon
  rows : ∀ id row, s.tables.transfers.lookup id = some row →
    Sound id row.transfer ∧ Proper s.horizon row.transfer

/-- One row more, or another in its place. -/
theorem Saves.insert (saves : Saves s) {tables : Importer.Tables} {teams : List String}
    (rows : tables.transfers = s.tables.transfers.insert id row)
    (sound : Sound id row.transfer) (proper : Proper s.horizon row.transfer) :
    Saves { s with teams := teams, tables := tables } where
  reading := saves.reading
  rows := by
    intro k other found
    change tables.transfers.lookup k = some other at found
    rw [rows] at found
    by_cases same : k = id
    · subst same
      rw [AList.lookup_insert] at found
      obtain rfl := Option.some.inj found
      exact ⟨sound, proper⟩
    · rw [AList.lookup_insert_ne same] at found
      exact saves.rows k other found

/-- A correction leaves a row whose clubs and date are as they were. -/
theorem Saves.updateTransfer (saves : Saves s) {c : Caller}
    (done : updateTransfer c s id t = .ok s') : Saves s' := by
  obtain ⟨some_, key, row, ⟨read, found⟩, -, t', corrected, code, kept, season, seasons, rfl⟩ :=
    updateTransfer_ok_iff.mp done
  obtain ⟨⟨carries, proper⟩, rfl⟩ := (correctTransfer_ok_iff some_).mp corrected
  refine saves.insert rfl ⟨Uuids.read_read read, ?_, char3_char3 kept, ?_⟩ ?_
  · exact ⟨carries.player, carries.type, carries.fee, carries.free⟩
  · intro season_ member
    change season = some season_ at member
    subst member
    obtain ⟨text, -, read_⟩ := Option.map_eq_some_iff.mp seasons
    exact Uuids.read_read read_
  · exact ⟨⟨proper.clubs.some_, proper.clubs.apart⟩, proper.dated⟩

omit [Uuids] in
theorem clearClub_transfer {teamID : String} : (clearClub teamID row).transfer =
    { row.transfer with
      fromTeam := if row.transfer.fromTeam = some teamID then none else row.transfer.fromTeam
      toTeam := if row.transfer.toTeam = some teamID then none else row.transfer.toTeam } := by
  unfold clearClub
  dsimp only
  split_ifs with origin destination destination <;>
    simp_all [Squad.Move.dropOrigin, Squad.Move.dropDestination]

omit [Uuids] in
/-- A move keeps a club when one of its clubs is deleted, unless it has no other. -/
theorem Proper.clearClub {horizon : Instant} {teamID : String}
    (proper : Proper horizon row.transfer)
    (other : row.transfer.clubs ≠ [teamID]) :
    Proper horizon (clearClub teamID row).transfer := by
  rw [clearClub_transfer]
  refine ⟨⟨?_, ?_⟩, proper.dated⟩
  · dsimp only
    intro cleared
    have some_ := proper.clubs.some_
    have apart := proper.clubs.apart
    rw [TransferOf.clubs] at other
    cases origin : row.transfer.fromTeam <;> cases destination : row.transfer.toTeam <;>
      simp_all
  · dsimp only
    rintro ⟨some_, same⟩
    split_ifs at some_ same with origin destination
    · exact some_ rfl
    · exact some_ rfl
    · exact some_ same
    · exact proper.clubs.apart ⟨some_, same⟩

/-- A club is deleted that no move has as its only one. -/
theorem Saves.deleteTeam (saves : Saves s) {c : Caller} (done : deleteTeam c s id = .ok s')
    (spared : ∀ key, Uuids.read id = some key → ∀ k row,
      s.tables.transfers.lookup k = some row → row.transfer.clubs ≠ [key]) : Saves s' := by
  simp only [Register.deleteTeam, bind_ok_iff, guard_ok_iff, uuid_ok_iff, pure_ok_iff] at done
  obtain ⟨-, -, key, read, -, rfl⟩ := done
  refine ⟨saves.reading, fun k row found => ?_⟩
  dsimp only at found ⊢
  rw [Upsert.lookup_changeAll] at found
  obtain ⟨old, stored, rfl⟩ := Option.map_eq_some_iff.mp found
  obtain ⟨sound, proper⟩ := saves.rows k old stored
  refine ⟨?_, proper.clearClub (spared key read k old stored)⟩
  rw [clearClub_transfer]
  exact ⟨sound.id, ⟨sound.carries.player, sound.carries.type, sound.carries.fee,
    sound.carries.free⟩, sound.currency, sound.season⟩

/-- What the columns keep of a transfer. -/
theorem columns_ok_iff : columns t = .ok t' ↔
    ∃ fromTeam toTeam seasonID code, t.fromTeam.map Uuids.read = fromTeam.map some ∧
      t.toTeam.map Uuids.read = toTeam.map some ∧ t.seasonID.map Uuids.read = seasonID.map some ∧
      char3 t.currency = some code ∧
      { t.kept with
        fromTeam := fromTeam, toTeam := toTeam, seasonID := seasonID, currency := code } = t' := by
  simp only [columns, bind_ok_iff, reference_ok_iff, currency_ok_iff, pure_ok_iff]
  simp only [exists_and_left]

/-- What the column of a reference keeps is kept as it is. -/
theorem read_of_map {text kept : Option String} (stored : text.map Uuids.read = kept.map some) :
    ∀ id ∈ kept, Uuids.read id = some id := by
  rintro id ⟨⟩
  obtain ⟨_, -, read⟩ := Option.map_eq_some_iff.mp stored
  exact Uuids.read_read read

theorem bind_eq_of_map {text kept : Option String} (stored : text.map Uuids.read = kept.map some) :
    text.bind Uuids.read = kept := by
  cases text <;> cases kept <;> simp_all

/-- A move is recorded between clubs that are not one in two spellings, on a day that may
be sent as well. -/
theorem Saves.recordTransfer (saves : Saves s) {c : Caller} {drawn : Drawn}
    (new : drawn.New s) (done : recordTransfer c s drawn t = .ok s')
    (dated : Dated s.horizon (midnight t.transferDate.day))
    (apart : ∀ key, t.fromTeam.bind Uuids.read = some key →
      t.toTeam.bind Uuids.read ≠ some key) : Saves s' := by
  simp only [Register.recordTransfer, bind_ok_iff, guard_ok_iff, validateTransfer_ok_iff,
    Prod.exists, getByID_ok_iff, columns_ok_iff] at done
  obtain ⟨_, ⟨⟨carries, clubs, -⟩, rfl⟩, playerID, player, ⟨read, -⟩, -, -, -, -, -, stored,
    ⟨origin, destination, season, code, from_, to_, seasons, kept, same⟩, -, -, -, -, ended⟩ :=
    done
  dsimp only at from_ to_ seasons
  have placed : ∃ tables, tables.transfers = s.tables.transfers.insert drawn.transfer
      ⟨stored, s.tables.recorded⟩ ∧ { s with tables := tables } = s' := by
    split at ended
    · exact ⟨_, rfl, pure_ok_iff.mp ended⟩
    · exact ⟨_, rfl, pure_ok_iff.mp ended⟩
  obtain ⟨tables, rows, rfl⟩ := placed
  subst same
  refine saves.insert rows ⟨new.2.1, ?_, char3_char3 kept, read_of_map seasons⟩ ?_
  · exact ⟨Uuids.some_ read, carries.type, carries.fee, carries.free⟩
  · refine ⟨⟨?_, ?_⟩, dated⟩
    · rintro ⟨rfl, rfl⟩
      exact clubs.some_ ⟨Option.map_eq_none_iff.mp from_, Option.map_eq_none_iff.mp to_⟩
    · rintro ⟨some_, same⟩
      obtain ⟨key, rfl⟩ := Option.ne_none_iff_exists'.mp some_
      exact apart key (bind_eq_of_map from_) ((bind_eq_of_map to_).trans same.symm)

/-- A player is created whose contract begins on some day, and within a year. -/
theorem Saves.createPlayer [CaseFolding] (saves : Saves s) {c : Caller} {drawn : Drawn}
    {zones : Zones} {p : Player} (new : drawn.New s)
    (done : createPlayer c s drawn zones p = .ok s')
    (begins : p.teamID ≠ none → ∀ start ∈ p.contractStart,
      Dated s.horizon (midnight (Moment.mk start zones.contractStart).day)) : Saves s' := by
  simp only [Register.createPlayer, bind_ok_iff, Players.validatePlayer_ok_iff,
    reference_ok_iff, currency_ok_iff, pure_ok_iff] at done
  obtain ⟨-, -, _, ⟨-, rfl⟩, teamID, team, -, -, code, kept, rfl⟩ := done
  cases teamID with
  | none => exact ⟨saves.reading, saves.rows⟩
  | some teamID =>
      have joined : p.teamID ≠ none := by
        intro free
        change p.teamID.map _ = _ at team
        rw [free] at team
        cases team
      have opens : Dated s.horizon (midnight (((zones.kept p).contractStart.map
          (· / dayLength)).getD (s.clock / dayLength))) := by
        rw [Zones.kept]
        cases given : p.contractStart with
        | none => exact saves.reading.today
        | some start =>
            rw [Option.map_some, Option.map_some, Option.getD_some, Dates.midnight_div]
            exact begins joined start given
      refine saves.insert rfl ⟨new.2.1, ⟨Uuids.some_ new.1, ?_, ?_, ?_⟩, ?_, ?_⟩ ?_
      · exact (by decide : ¬ Squad.validTransferType "permanent" = false)
      · exact (by decide : ¬ (none : Option ℤ).any (· < 0) = true)
      · exact fun both => absurd both.1 (by decide : ¬ "permanent" = "free")
      · exact (by decide : char3 "EUR" = some "EUR")
      · exact fun _ none_ => by cases none_
      · exact ⟨⟨fun both => Option.some_ne_none _ both.2, fun both => both.1 rfl⟩, opens⟩

end Rows

/-! ## What an import leaves -/

section Import

open Importer (Merge MoveRow Plan Postgres Takes)

variable [Unicode] [CaseFolding]

/-- A free move of the source is one for nothing. -/
theorem fee_of_free {moves : List Importer.RawTransfer} {mv : Importer.Move}
    (member : mv ∈ Importer.classify moves) (free : mv.type = Squad.transferFree) :
    mv.feeMinor = some 0 := by
  obtain ⟨⟨t, i⟩, -, rfl⟩ := List.mem_map.mp member
  dsimp only [Importer.classified] at free ⊢
  split_ifs at free ⊢ with back loan
  · rfl
  · exact absurd free (by decide : ¬ Importer.transferLoan = Squad.transferFree)
  · rw [Importer.typeOf] at free
    split_ifs at free with _ _ _ nothing
    · exact absurd free (by decide : ¬ Importer.transferRetired = Squad.transferFree)
    · exact absurd free (by decide : ¬ Importer.transferReleased = Squad.transferFree)
    · exact absurd free (by decide : ¬ Importer.transferYouthPromotion = Squad.transferFree)
    · rw [nothing]
      rfl
    · exact absurd free (by decide : ¬ Squad.transferPermanent = Squad.transferFree)

/-- The moves of an import are between two clubs or one, on some day within a year. -/
def Timely [Postgres] (m : Merge) (horizon : Instant) : Prop :=
  ∀ r, m.Plans r → r.fromTeam ≠ r.toTeam ∧
    ∀ day, Postgres.toDay r.date = some day → Dated horizon (midnight day)

variable [Postgres] [Takes MoveRow]

/-- A row with the columns of a move of the source's can be saved back. -/
theorem carries_proper_of_plans {m : Merge} {horizon : Instant} {day : Date} {r : MoveRow}
    {t : Transfer}
    (timely : Timely m horizon) (plans : m.Plans r) (checks : Importer.moveChecks r = true)
    (cast : Postgres.toDay r.date = some day) (player : t.playerID ≠ "")
    (origin : t.fromTeam = r.fromTeam) (destination : t.toTeam = r.toTeam)
    (date : t.transferDate = day) (type : t.transferType = r.type)
    (fee : t.fee = r.fee.map Int64.toInt) : Carries t ∧ Proper horizon t := by
  obtain ⟨apart, day_⟩ := timely r plans
  obtain ⟨sourcePlayer, player', mv, has, joins, columns⟩ := plans
  simp only [Importer.moveChecks, Bool.and_eq_true] at checks
  obtain ⟨⟨valid, positive⟩, -⟩ := checks
  constructor
  · refine ⟨player, by rw [type, valid]; decide, ?_, ?_⟩
    · rw [fee]
      cases minor : r.fee with
      | none => simp
      | some x =>
          rw [minor] at positive
          simpa using positive
    · rintro ⟨free, some_⟩
      rw [type, columns] at free
      have zero : r.fee = some 0 := by
        rw [columns]
        exact fee_of_free has.listed free
      rw [fee, zero] at some_
      exact absurd some_ (by decide)
  · refine ⟨⟨?_, ?_⟩, date ▸ day_ day cast⟩
    · rintro ⟨noOrigin, noDestination⟩
      rw [origin, columns] at noOrigin
      rw [destination, columns] at noDestination
      exact joins.elim (fun some_ => some_ noOrigin) fun some_ => some_ noDestination
    · rintro ⟨-, same⟩
      rw [origin, destination] at same
      exact apart same

omit [Unicode] [CaseFolding] [Postgres] in
theorem takes_of_moveChecks {r : MoveRow} (checks : Importer.moveChecks r = true) :
    Takes.takes r = true := by
  simp only [Importer.moveChecks, Bool.and_eq_true] at checks
  exact checks.2

/-- The columns of a new row are `UUID`s, as they are written when they are read back. -/
def StoresIDs [Uuids] : Prop :=
  ∀ r : MoveRow, Takes.takes r = true → Uuids.read r.id = some r.id ∧ r.player ≠ "" ∧
    ∀ season ∈ r.season, Uuids.read season = some season

variable [Uuids] [Importer.Joins] [Takes Importer.PlayerRow] [Takes Importer.ValueRow]

open Importer in
/-- An import writes moves that are timely. -/
theorem Saves.load {s : State} (saves : Saves s) (ids : StoresIDs) {newString : ℕ → String}
    {m : Merge} {tables : Importer.Tables}
    (done : importCareers s.clock newString s.tables m = some tables)
    (timely : Timely (playerLoop newString (selectPlayers s.tables.players) m).merge s.horizon) :
    Saves { s with teams := s.teams ++ m.clubs.entries.map (·.2), tables := tables } := by
  obtain ⟨players, -, done⟩ := Option.bind_eq_some_iff.mp done
  obtain ⟨values, -, done⟩ := Option.bind_eq_some_iff.mp done
  obtain ⟨transfers, run, same⟩ := Option.bind_eq_some_iff.mp done
  cases same
  generalize (playerLoop newString (selectPlayers s.tables.players) m).merge = m' at run timely
  have sound : (transferPlan newString s.tables.transfers (selectPlayers players) m').Sound
      s.tables.transfers := sound_transferPlan ..
  have planned := plans_transferLoop newString (selectTransfers s.tables.transfers m'.locals) m'
  refine ⟨saves.reading, fun k row found => ?_⟩
  rcases (lookup_run sound run).mp found with
    ⟨kept, -, -⟩ | ⟨listed, rewritten⟩ | ⟨-, r, member, rfl, made⟩
  · exact saves.rows k row kept
  · obtain ⟨r, member, rfl⟩ := List.mem_map.mp listed
    obtain ⟨old, stored⟩ := Option.isSome_iff_exists.mp (sound.updates r member)
    obtain ⟨before, -⟩ := saves.rows r.id old stored
    rw [stored] at rewritten
    have after := rewritten_spec (P := fun t => Sound r.id t.transfer)
      (Q := fun t => Proper s.horizon t.transfer) rewritten before (by
      intro r' listed' same t t' sound made
      rw [rewriteMove] at made
      split_ifs at made with refused
      rw [Bool.not_eq_false] at refused
      obtain ⟨day, cast, made⟩ := Option.map_eq_some_iff.mp made
      obtain ⟨carries, proper⟩ := carries_proper_of_plans (t := t'.transfer) timely
        (planned r' (List.mem_append_right _ listed')) refused cast
        (by rw [← made]; exact sound.carries.player) (by rw [← made]) (by rw [← made])
        (by rw [← made]) (by rw [← made]) (by rw [← made])
      subst made
      refine ⟨⟨sound.id, carries, sound.currency, ?_⟩, proper⟩
      intro season given
      rcases Option.or_eq_some_iff.mp given with new | ⟨-, old⟩
      · exact (ids r' (takes_of_moveChecks refused)).2.2 season new
      · exact sound.season season old)
    exact ⟨after.1, after.2 (List.mem_map.mpr ⟨r, member, rfl⟩)⟩
  · have inserted : r.1 ∈ (transferPlan newString s.tables.transfers (selectPlayers players)
        m').inserts := by
      rw [← List.zipIdx_map_fst s.tables.recorded (transferPlan ..).inserts]
      exact List.mem_map_of_mem member
    rw [insertMove] at made
    split_ifs at made with refused
    rw [not_or, Bool.not_eq_false] at refused
    obtain ⟨day, cast, made⟩ := Option.map_eq_some_iff.mp made
    obtain ⟨id, player, season⟩ := ids r.1 (takes_of_moveChecks refused.2)
    obtain ⟨carries, proper⟩ := carries_proper_of_plans (t := row.transfer) timely
      (planned r.1 (List.mem_append_left _ inserted)) refused.2 cast
      (by rw [← made]; exact player) (by rw [← made]) (by rw [← made]) (by rw [← made])
      (by rw [← made]) (by rw [← made])
    subst made
    exact ⟨⟨id, carries, (by decide : char3 "EUR" = some "EUR"), season⟩, proper⟩

/-! ## Every run -/

/-- What a request must not be for every transfer to stay one that can be saved back: a
player whose contract begins on no day or in more than a year, a move on such a day or
between two spellings of one club, the deletion of a club that is the only one of a move, and
an import with moves between clubs it takes for one, on no day or in more than a year. A day
is taken as the midnight it is read back as. -/
def Harmless (s : State) : Label → Prop
  | .createPlayer _ _ zones p => p.teamID ≠ none → ∀ start ∈ p.contractStart,
      Dated s.horizon (midnight (Moment.mk start zones.contractStart).day)
  | .recordTransfer _ _ t => Dated s.horizon (midnight t.transferDate.day) ∧
      ∀ key, t.fromTeam.bind Uuids.read = some key → t.toTeam.bind Uuids.read ≠ some key
  | .updateTransfer .. => True
  | .deleteTeam _ id => ∀ key, Uuids.read id = some key → ∀ k row,
      s.tables.transfers.lookup k = some row → row.transfer.clubs ≠ [key]
  | .load newString m =>
      Timely (Importer.playerLoop newString (Importer.selectPlayers s.tables.players) m).merge
        s.horizon
  | .pass .. => True

/-- Whatever happens next leaves every transfer one that may be saved back, if the step does no
harm. -/
theorem Saves.next (ids : StoresIDs) {s s' : State} {label : Label} (saves : Saves s)
    (harmless : Harmless s label) (step : requests.next s label = some s') : Saves s' := by
  cases label with
  | createPlayer c drawn zones p =>
      change (if drawn.New s then _ else none) = some s' at step
      split_ifs at step with new
      exact saves.createPlayer new (toOption_eq_some_iff.mp step) harmless
  | recordTransfer c drawn t =>
      change (if drawn.New s then _ else none) = some s' at step
      split_ifs at step with new
      exact saves.recordTransfer new (toOption_eq_some_iff.mp step) harmless.1 harmless.2
  | updateTransfer c id t => exact saves.updateTransfer (toOption_eq_some_iff.mp step)
  | deleteTeam c id => exact saves.deleteTeam (toOption_eq_some_iff.mp step) harmless
  | load newString m =>
      obtain ⟨tables, done, rfl⟩ := Option.map_eq_some_iff.mp step
      exact saves.load ids done harmless
  | pass clock horizon =>
      change (if _ then some _ else none) = some s' at step
      split_ifs at step with forward
      obtain rfl := Option.some.inj step
      refine ⟨forward.2.2, fun id row found => ?_⟩
      obtain ⟨sound, proper⟩ := saves.rows id row found
      exact ⟨sound, proper.clubs, proper.dated.later forward.2.1⟩

/-- **A transfer can be saved back.** In every run of harmless requests, an administrator who
sends back what is read of a stored transfer is accepted, and changes nothing. -/
theorem savedBack_of_reach (ids : StoresIDs) {s : State} (reach : requests.Reach Harmless s)
    (id : String) : SavedBack s id := by
  have saves : Saves s := by
    refine reach.invariant ?_ (fun saves harmless step => saves.next ids harmless step)
    rintro s ⟨empty, reading⟩
    refine ⟨reading, fun id row found => ?_⟩
    rw [empty] at found
    cases (AList.lookup_empty id).symm.trans found
  intro c admin row found
  obtain ⟨sound, proper⟩ := saves.rows id row found
  exact (savedBack_iff found sound).mpr proper c admin row found

end Import

/-! ### A club is deleted -/

section Perez

open Importer (MoveRow PlayerRow Postgres Takes ValueRow calendar february oneClub perezRow)

/-- Ids of the length of a `UUID`, in the form it is written in. -/
@[reducible]
def ofLength : Uuids where
  read text := if text.length = 36 then some text else none
  read_read := by
    intro text id read
    split_ifs at read with long
    obtain rfl := Option.some.inj read
    rw [if_pos long]
  some_ := by
    rintro text _ read rfl
    split_ifs at read with long
    rw [Option.some.inj read] at long
    cases long

@[reducible]
def withIDs : Takes MoveRow where
  takes r := r.id.length = 36 && r.player.length = 36 && r.season.all (·.length = 36)

@[reducible]
def valued : Takes ValueRow where
  takes r := r.player.length = 36

@[reducible]
def firstOf : Importer.Joins where
  choose _ := 0

def administrator : Caller where
  claims := some ⟨"5e2c9a10-7b4d-4f83-a6e1-0d9b3c8f7a25", .admin, "root"⟩
  managesTeam _ _ := .ok false

/-- One club, in February of 2026. -/
def oneTeam : State where
  teams := ["7d4a1e92-08c5-4f6b-9e13-2b5d0c7a6f18"]
  tables := ⟨∅, ∅, ∅, 0⟩
  clock := february
  horizon := 63937209600000000000

def signed : Label :=
  .createPlayer administrator
    ⟨"1f0b6c3e-5a27-4d8e-b1f9-3c6e8a2d7b40", "c28e5d71-9b34-4a06-8f52-6d1e7c0b9a35", none⟩
    ⟨0, 0⟩ (perezRow [])

/-- The transfer of a player who was signed may be saved back. -/
theorem savedBack_signed :
    let _ := Unicode.ascii
    let _ := CaseFolding.ascii
    let _ := calendar
    let _ := oneClub
    let _ := withIDs
    let _ := valued
    let _ := firstOf
    let _ := ofLength
    ∃ s, requests.next oneTeam signed = some s ∧
      (s.tables.transfers.lookup "c28e5d71-9b34-4a06-8f52-6d1e7c0b9a35").isSome ∧
      SavedBack s "c28e5d71-9b34-4a06-8f52-6d1e7c0b9a35" := by
  intro _ _ _ _ _ _ _ _
  have runs : (requests.next oneTeam signed).any (fun s =>
      (s.tables.transfers.lookup "c28e5d71-9b34-4a06-8f52-6d1e7c0b9a35").isSome) = true := by
    decide +kernel
  obtain ⟨s, step, stored⟩ := (Option.any_eq_true _ _).mp runs
  refine ⟨s, step, stored, savedBack_of_reach ?_ ⟨oneTeam, ⟨rfl, by decide +kernel⟩,
    .head ⟨signed, ?_, step⟩ (.refl s)⟩ _⟩
  · intro r takes
    change (r.id.length = 36 && r.player.length = 36 && r.season.all (·.length = 36)) = true
      at takes
    simp only [Bool.and_eq_true, decide_eq_true_eq] at takes
    obtain ⟨⟨id, player⟩, season⟩ := takes
    refine ⟨if_pos id, ?_, fun season_ given => if_pos ?_⟩
    · rintro none_
      rw [none_] at player
      cases player
    · rw [Option.mem_def.mp given] at season
      simpa using season
  · rintro - start ⟨⟩
    decide +kernel

/-- The arrival of a player at a club that is then deleted has no club left, and is refused. -/
theorem savedBack_deleted :
    let _ := Unicode.ascii
    let _ := CaseFolding.ascii
    let _ := calendar
    let _ := oneClub
    let _ := withIDs
    let _ := valued
    let _ := firstOf
    let _ := ofLength
    ∃ s row, requests.Reach Machine.always s ∧
      s.tables.transfers.lookup "c28e5d71-9b34-4a06-8f52-6d1e7c0b9a35" = some row ∧
      updateTransfer administrator s "c28e5d71-9b34-4a06-8f52-6d1e7c0b9a35" row.transfer.read =
        .error (.invalid "a transfer needs from_team_id, to_team_id, or both") ∧
      ¬ SavedBack s "c28e5d71-9b34-4a06-8f52-6d1e7c0b9a35" := by
  intro _ _ _ _ _ _ _ _
  have runs : (requests.run Machine.always oneTeam
      [signed, .deleteTeam administrator "7d4a1e92-08c5-4f6b-9e13-2b5d0c7a6f18"]).any (fun s =>
        (s.tables.transfers.lookup "c28e5d71-9b34-4a06-8f52-6d1e7c0b9a35").any fun row =>
          match updateTransfer administrator s "c28e5d71-9b34-4a06-8f52-6d1e7c0b9a35"
              row.transfer.read with
          | .error reason =>
              reason = .invalid "a transfer needs from_team_id, to_team_id, or both"
          | .ok _ => false) = true := by decide +kernel
  obtain ⟨s, ran, stored⟩ := (Option.any_eq_true _ _).mp runs
  obtain ⟨row, found, refused⟩ := (Option.any_eq_true _ _).mp stored
  have error : updateTransfer administrator s "c28e5d71-9b34-4a06-8f52-6d1e7c0b9a35"
      row.transfer.read =
        .error (.invalid "a transfer needs from_team_id, to_team_id, or both") := by
    split at refused
    next reason given =>
      rw [decide_eq_true_eq] at refused
      rw [given, refused]
    next => cases refused
  refine ⟨s, row, ⟨oneTeam, ⟨rfl, by decide +kernel⟩, Machine.leads_of_run ran⟩, found, error,
    fun saved => ?_⟩
  obtain ⟨s', accepted, -⟩ := saved administrator ⟨_, rfl, rfl⟩ row found
  rw [error] at accepted
  cases accepted

end Perez

end ScoutPulse.Register
