import Mathlib.Data.List.Dedup
import ScoutPulse.Football.Importer.Transfers

/-!
# The transfers an import leaves

Of the rows that were there, those no move has claimed stay as they were or are deleted,
and those a move has claimed are rewritten; the rest are new.
-/

namespace ScoutPulse.Importer

open Squad (Date)
open Strings Upsert

/-! ## What is decided -/

section Plan

variable {existing : List LocalTransfer} {refByLocal : String → Bool} {player : String}
  {newString : ℕ → String}

/-- The rows that are rewritten have been claimed, and only rows selected are. -/
structure Claims (existing : List LocalTransfer) (s : TransferLoop) : Prop where
  updates : ∀ r ∈ s.updates, r.id ∈ s.claimed
  selected : ∀ r ∈ s.updates, r.id ∈ existing.map (·.id)

/-- A row that is claimed is selected. -/
theorem Claims.claim {s : TransferLoop} (claims : Claims existing s) {id : String}
    (selected : id ∈ existing.map (·.id)) (key : String) (mv : Move) (report : Report) :
    Claims existing (s.claim player id key mv report) where
  updates := by
    intro r member
    rcases List.mem_append.mp member with before | new
    · exact List.mem_cons_of_mem _ (claims.updates r before)
    · rw [List.mem_singleton.mp new]
      exact List.mem_cons_self
  selected := by
    intro r member
    rcases List.mem_append.mp member with before | new
    · exact claims.selected r before
    · rw [List.mem_singleton.mp new]
      exact selected

theorem mem_of_referenced {s : TransferLoop} {key id : String}
    (found : s.referenced existing key = some id) : id ∈ existing.map (·.id) := by
  obtain ⟨-, there⟩ := Option.filter_eq_some_iff.mp found
  obtain ⟨t, member, same⟩ := List.any_eq_true.mp there
  exact List.mem_map.mpr ⟨t, member, by simpa using same⟩

theorem mem_of_adopted {s : TransferLoop} {fromTeam toTeam : Option String} {date id : String}
    (found : s.adopted existing refByLocal player fromTeam toTeam date = some id) :
    id ∈ existing.map (·.id) := by
  obtain ⟨t, picked, same⟩ := Option.map_eq_some_iff.mp found
  exact List.mem_map.mpr ⟨t, List.mem_of_find?_eq_some picked, same⟩

/-- A move claims only what is selected. -/
theorem Claims.step {s : TransferLoop} (claims : Claims existing s) (sourcePlayer : String)
    (mv : Move) :
    Claims existing (s.step existing refByLocal player newString sourcePlayer mv) := by
  unfold TransferLoop.step
  dsimp only
  split_ifs
  · exact claims
  · exact claims
  · split
    next id _ found => exact claims.claim (mem_of_referenced found) ..
    next id _ found => exact claims.claim (mem_of_adopted found) ..
    next => exact ⟨claims.updates, claims.selected⟩

theorem Claims.foldl {s : TransferLoop} (claims : Claims existing s) (sourcePlayer : String)
    (moves : List Move) :
    Claims existing
      (moves.foldl (TransferLoop.step existing refByLocal player newString sourcePlayer) s) := by
  induction moves generalizing s with
  | nil => exact claims
  | cons mv moves ih => exact ih (claims.step sourcePlayer mv)

variable [Unicode] [CaseFolding]

/-- So does a player. -/
theorem Claims.ofPlayer {s : TransferLoop} (claims : Claims existing s) (sourcePlayer : String) :
    Claims existing (s.ofPlayer existing refByLocal newString sourcePlayer) := by
  unfold TransferLoop.ofPlayer
  split
  · exact claims
  · exact Claims.foldl (s := { s with seen := [] }) ⟨claims.updates, claims.selected⟩ _ _

/-- So does the whole loop. -/
theorem claims_transferLoop (newString : ℕ → String) (existing : List LocalTransfer) (m : Merge) :
    Claims existing (transferLoop newString existing m) := by
  have all : ∀ (players : List String) (s : TransferLoop), Claims existing s →
      Claims existing
        (players.foldl (TransferLoop.ofPlayer existing m.refByLocal newString) s) := by
    intro players
    induction players with
    | nil => exact fun s claims => claims
    | cons sourcePlayer players ih => exact fun s claims => ih _ (claims.ofPlayer sourcePlayer)
  exact all _ _ ⟨fun r member => (List.not_mem_nil member).elim,
    fun r member => (List.not_mem_nil member).elim⟩

end Plan

/-- A plan rewrites and deletes rows that are there, and none of them twice over. -/
structure Plan.Sound (plan : Plan) (transfers : TransferTable) : Prop where
  updates : ∀ r ∈ plan.updates, (transfers.lookup r.id).isSome
  openings : ∀ id ∈ plan.openings, (transfers.lookup id).isSome
  apart : ∀ r ∈ plan.updates, r.id ∉ plan.openings

section Sound

variable [Unicode] [CaseFolding] [Postgres] {transfers : TransferTable}

omit [Unicode] [CaseFolding] in
/-- What is selected is there. -/
theorem isSome_of_selected {players : List String} {id : String}
    (selected : id ∈ (selectTransfers transfers players).map (·.id)) :
    (transfers.lookup id).isSome := by
  obtain ⟨t, member, rfl⟩ := List.mem_map.mp selected
  obtain ⟨⟨id, row⟩, kept, rfl⟩ := List.mem_map.mp member
  rw [AList.lookup_isSome, AList.mem_keys]
  exact List.mem_map.mpr ⟨⟨id, row⟩, List.mem_of_mem_filter kept, rfl⟩

/-- What is decided is sound: rows that are there are rewritten, and none of them is dropped.
-/
theorem sound_transferPlan (newString : ℕ → String) (players : List LocalPlayer) (m : Merge) :
    (transferPlan newString transfers players m).Sound transfers := by
  have claims := claims_transferLoop newString (selectTransfers transfers m.locals) m
  refine ⟨fun r member => isSome_of_selected (claims.selected r member), ?_, ?_⟩
  · intro id member
    obtain ⟨t, kept, rfl⟩ := List.mem_map.mp member
    exact isSome_of_selected (List.mem_map.mpr ⟨t, List.mem_of_mem_filter kept, rfl⟩)
  · intro r member opening
    obtain ⟨t, kept, same⟩ := List.mem_map.mp opening
    have unclaimed := (List.mem_filter.mp kept).2
    simp only [Bool.and_eq_true, decide_eq_true_eq] at unclaimed
    rw [same] at unclaimed
    exact unclaimed.1.1.2 (claims.updates r member)

end Sound

/-! ## What the statements leave -/

section Run

variable [Postgres] [Takes MoveRow] [Joins] {plan : Plan} {transfers after : TransferTable}
  {recorded : ℕ} {k : String} {t : Squad.Move}

/-- A row the import inserts. -/
def Plan.Inserted (plan : Plan) (recorded : ℕ) (k : String) (t : Squad.Move) : Prop :=
  ∃ r ∈ plan.inserts.zipIdx recorded, r.1.id = k ∧ insertMove none r = some t

/-- A row the import rewrites, as it leaves it. -/
def Plan.Rewritten (plan : Plan) (transfers : TransferTable) (k : String) (t : Squad.Move) :
    Prop :=
  k ∈ plan.updates.map (·.id) ∧
    inChunks (rewriteAt k) (transfers.lookup k) plan.updates = some (some t)

/-- A row the import leaves as it was. -/
def Plan.Kept (plan : Plan) (transfers : TransferTable) (k : String) (t : Squad.Move) : Prop :=
  transfers.lookup k = some t ∧ k ∉ plan.updates.map (·.id) ∧ k ∉ plan.openings

omit [Joins] in
/-- A new row has the columns of its move, and its place among those recorded. -/
theorem insertMove_columns {r : MoveRow × ℕ} (made : insertMove none r = some t) :
    (t.transfer.playerID = r.1.player ∧ t.recorded = r.2) ∧ t.transfer.fromTeam = r.1.fromTeam ∧
      t.transfer.toTeam = r.1.toTeam ∧
        Postgres.toDay r.1.date = some t.transfer.transferDate := by
  rw [insertMove] at made
  split_ifs at made
  obtain ⟨day, cast, rfl⟩ := Option.map_eq_some_iff.mp made
  exact ⟨⟨rfl, rfl⟩, rfl, rfl, cast⟩

omit [Joins] in
/-- A row that is rewritten keeps its player and its place, and takes the clubs and the day of
its move. -/
theorem rewriteMove_columns {old : Squad.Move} {r : MoveRow} (made : rewriteMove old r = some t) :
    (t.transfer.playerID = old.transfer.playerID ∧ t.recorded = old.recorded) ∧
      t.transfer.fromTeam = r.fromTeam ∧ t.transfer.toTeam = r.toTeam ∧
        Postgres.toDay r.date = some t.transfer.transferDate := by
  rw [rewriteMove] at made
  split_ifs at made
  obtain ⟨day, cast, rfl⟩ := Option.map_eq_some_iff.mp made
  exact ⟨⟨rfl, rfl⟩, rfl, rfl, cast⟩

omit [Joins] in
theorem insertMove_of_found {r : MoveRow × ℕ} : insertMove (some t) r = none := by
  rw [insertMove, if_pos (.inl rfl)]

omit [Joins] in
/-- Nothing is inserted where a row is. -/
theorem eq_nil_of_inserts {rows : List (MoveRow × ℕ)} {stored : Option Squad.Move}
    (run : rows.foldlM (storeOver insertMove) (some t) = some stored) :
    rows = [] ∧ stored = some t := by
  cases rows with
  | nil => exact ⟨rfl, (Option.some.inj run).symm⟩
  | cons r rows =>
      obtain ⟨x, made, -⟩ := foldlM_storeOver_cons.mp run
      rw [insertMove_of_found] at made
      cases made

omit [Joins] in
/-- The rows inserted are new, and the rows that were there are left alone. -/
theorem lookup_insertMoves
    (run : inChunks insertMoves transfers (plan.inserts.zipIdx recorded) = some after) :
    after.lookup k = some t ↔
      transfers.lookup k = some t ∨ transfers.lookup k = none ∧ plan.Inserted recorded k t := by
  have rows := lookup_foldlM (fun r : MoveRow × ℕ => r.1.id) k (foldlM_of_inChunks id run)
  have members : ∀ r, r ∈ (plan.inserts.zipIdx recorded).filter (·.1.id = k) ↔
      r ∈ plan.inserts.zipIdx recorded ∧ r.1.id = k := fun r => by
    rw [List.mem_filter, decide_eq_true_iff]
  cases found : transfers.lookup k with
  | some old =>
      rw [found] at rows
      obtain ⟨-, stored⟩ := eq_nil_of_inserts rows
      simp [stored]
  | none =>
      rw [found] at rows
      simp only [reduceCtorEq, false_or, true_and]
      cases listed : (plan.inserts.zipIdx recorded).filter (·.1.id = k) with
      | nil =>
          rw [listed] at rows members
          rw [← Option.some.inj rows]
          constructor
          · rintro ⟨⟩
          · rintro ⟨r, member, same, -⟩
            exact (List.not_mem_nil ((members r).mpr ⟨member, same⟩)).elim
      | cons r rest =>
          rw [listed] at rows members
          obtain ⟨x, made, later⟩ := foldlM_storeOver_cons.mp rows
          obtain ⟨rfl, stored⟩ := eq_nil_of_inserts later
          rw [stored, Option.some.injEq]
          constructor
          · rintro rfl
            obtain ⟨member, same⟩ := (members r).mp List.mem_cons_self
            exact ⟨r, member, same, made⟩
          · rintro ⟨r', member, same, made'⟩
            obtain rfl : r' = r :=
              List.mem_singleton.mp ((members r').mpr ⟨member, same⟩)
            exact Option.some.inj (made.symm.trans made')

/-- A statement that sends no row of an id leaves it alone. -/
theorem rewriteAt_of_not_mem {rows : List MoveRow} {found : Option Squad.Move}
    (absent : k ∉ rows.map (·.id)) : rewriteAt k found rows = some found := by
  have none_ : rows.filter (·.id = k) = [] := by
    rw [List.filter_eq_nil_iff]
    intro r member same
    exact absent (List.mem_map.mpr ⟨r, member, of_decide_eq_true same⟩)
  unfold rewriteAt
  rw [none_]
  cases found <;> rfl

/-- A statement that sends rows of an id rewrites it with one of them. -/
theorem exists_of_rewriteAt {rows : List MoveRow} {t' : Squad.Move}
    (named : k ∈ rows.map (·.id)) (sent : rewriteAt k (some t) rows = some (some t')) :
    ∃ r ∈ rows, r.id = k ∧ rewriteMove t r = some t' := by
  obtain ⟨r, member, same⟩ := List.mem_map.mp named
  have listed : r ∈ rows.filter (·.id = k) :=
    List.mem_filter.mpr ⟨member, decide_eq_true same⟩
  unfold rewriteAt at sent
  cases joined : rows.filter (·.id = k) with
  | nil =>
      rw [joined] at listed
      cases listed
  | cons head others =>
      rw [joined] at sent
      obtain ⟨_, rewritten, same⟩ := Option.map_eq_some_iff.mp sent
      cases same
      have picked : (head :: others).getD (Joins.choose (head :: others)) head ∈
          rows.filter (·.id = k) := by
        rw [joined, List.getD_eq_getElem?_getD]
        cases there : (head :: others)[Joins.choose (head :: others)]? with
        | none => exact List.mem_cons_self
        | some r => exact List.mem_of_getElem? there
      obtain ⟨inside, same⟩ := List.mem_filter.mp picked
      exact ⟨_, inside, of_decide_eq_true same, rewritten⟩

/-- The statement rewrites each id by itself. -/
theorem lookup_updateMoves (run : inChunks updateMoves transfers plan.updates = some after) :
    inChunks (rewriteAt k) (transfers.lookup k) plan.updates = some (after.lookup k) := by
  refine inChunks_view (fun transfers : TransferTable => transfers.lookup k) ?_ run
  intro before after rows run
  have here := lookup_foldlM_write id k run
  simp only [id_eq] at here
  rw [List.filter_eq] at here
  by_cases member : k ∈ rows.map (·.id)
  · rw [List.count_eq_one_of_mem (List.nodup_dedup _) (List.mem_dedup.mpr member)] at here
    rw [List.replicate_one, List.foldlM_cons, Option.bind_eq_bind,
      Option.bind_eq_some_iff] at here
    obtain ⟨stored, made, same⟩ := here
    cases same
    exact made
  · rw [List.count_eq_zero_of_not_mem fun listed => member (List.mem_dedup.mp listed)] at here
    rw [rewriteAt_of_not_mem member]
    exact here

/-- What is rewritten keeps what each rewriting keeps, and has what each one gives. -/
theorem rewritten_spec {rows : List MoveRow} {P Q : Squad.Move → Prop} {old : Squad.Move}
    (run : inChunks (rewriteAt k) (some old) rows = some (some t)) (first : P old)
    (each : ∀ r ∈ rows, r.id = k → ∀ {t t'}, P t → rewriteMove t r = some t' → P t' ∧ Q t') :
    P t ∧ (k ∈ rows.map (·.id) → Q t) := by
  refine inChunks_invariant (P := fun found done =>
    ∀ t, found = some t → P t ∧ (k ∈ done.map (·.id) → Q t)) run ?_ ?_ t rfl
  · rintro t ⟨⟩
    exact ⟨first, by simp⟩
  · intro found found' done chunk before subset sent t' here
    subst here
    cases found with
    | none => simp [rewriteAt] at sent
    | some t =>
        by_cases named : k ∈ chunk.map (·.id)
        · obtain ⟨r, inside, same, rewritten⟩ := exists_of_rewriteAt named sent
          obtain ⟨kept, given⟩ := each r (subset inside) same (before t rfl).1 rewritten
          exact ⟨kept, fun _ => given⟩
        · rw [rewriteAt_of_not_mem named] at sent
          obtain rfl := Option.some.inj (Option.some.inj sent)
          refine ⟨(before t rfl).1, fun listed => (before t rfl).2 ?_⟩
          rw [List.map_append, List.mem_append] at listed
          exact listed.resolve_right named

/-- A row stands after the import when it was kept, rewritten or inserted. -/
theorem lookup_run (sound : plan.Sound transfers)
    (run : plan.run transfers recorded = some after) :
    after.lookup k = some t ↔
      plan.Kept transfers k t ∨ plan.Rewritten transfers k t ∨
        transfers.lookup k = none ∧ plan.Inserted recorded k t := by
  obtain ⟨inserted, inserts, rest⟩ := Option.bind_eq_some_iff.mp run
  obtain ⟨updated, updates, rfl⟩ := Option.map_eq_some_iff.mp rest
  have rewrites := lookup_updateMoves (k := k) updates
  have stands : ∀ t, inserted.lookup k = some t ↔ transfers.lookup k = some t ∨
      transfers.lookup k = none ∧ plan.Inserted recorded k t := fun t =>
    lookup_insertMoves inserts
  rw [lookup_eraseAll]
  by_cases claimed : k ∈ plan.updates.map (·.id)
  · -- A row that is rewritten was there, and is no opening.
    obtain ⟨r, member, rfl⟩ := List.mem_map.mp claimed
    obtain ⟨old, found⟩ := Option.isSome_iff_exists.mp (sound.updates r member)
    have there : inserted.lookup r.id = some old := (stands old).mpr (.inl found)
    rw [there] at rewrites
    rw [if_neg (sound.apart r member)]
    constructor
    · intro left
      exact .inr (.inl ⟨claimed, by rw [found, rewrites, left]⟩)
    · rintro (⟨-, unclaimed, -⟩ | ⟨-, rewritten⟩ | ⟨absent, -⟩)
      · exact absurd claimed unclaimed
      · rw [found, rewrites] at rewritten
        exact Option.some.inj rewritten
      · rw [found] at absent
        cases absent
  · have same : updated.lookup k = inserted.lookup k := by
      have idle : inChunks (rewriteAt k) (inserted.lookup k) plan.updates =
          some (inserted.lookup k) :=
        inChunks_of_idle fun chunk subset => rewriteAt_of_not_mem fun listed =>
          claimed (List.map_subset _ subset listed)
      exact Option.some.inj (rewrites.symm.trans idle)
    rw [same]
    by_cases opening : k ∈ plan.openings
    · obtain ⟨old, found⟩ := Option.isSome_iff_exists.mp (sound.openings k opening)
      rw [if_pos opening]
      constructor
      · rintro ⟨⟩
      · rintro (⟨-, -, left⟩ | ⟨listed, -⟩ | ⟨absent, -⟩)
        · exact absurd opening left
        · exact absurd listed claimed
        · rw [found] at absent
          cases absent
    · rw [if_neg opening, stands]
      constructor
      · rintro (found | new)
        · exact .inl ⟨found, claimed, opening⟩
        · exact .inr (.inr new)
      · rintro (⟨found, -, -⟩ | ⟨listed, -⟩ | new)
        · exact .inl found
        · exact absurd listed claimed
        · exact .inr new

/-- Every row that is inserted stands after the import. -/
theorem exists_inserted (sound : plan.Sound transfers)
    (run : plan.run transfers recorded = some after) {r : MoveRow} (member : r ∈ plan.inserts)
    (new : transfers.lookup r.id = none) :
    ∃ t, after.lookup r.id = some t ∧ plan.Inserted recorded r.id t := by
  obtain ⟨inserted, inserts, -⟩ := Option.bind_eq_some_iff.mp run
  have rows := lookup_foldlM (fun r : MoveRow × ℕ => r.1.id) r.id (foldlM_of_inChunks id inserts)
  obtain ⟨n, listed⟩ : ∃ n, (r, n) ∈ plan.inserts.zipIdx recorded := by
    obtain ⟨i, inside, rfl⟩ := List.mem_iff_getElem.mp member
    exact ⟨recorded + i, List.mem_zipIdx_iff_le_and_getElem?_sub.mpr
      ⟨by omega, by simp [inside]⟩⟩
  have some_ : (plan.inserts.zipIdx recorded).filter (·.1.id = r.id) ≠ [] :=
    List.ne_nil_of_mem (List.mem_filter.mpr ⟨listed, by simp⟩)
  obtain ⟨t, stored⟩ := exists_stored rows some_
  have made : plan.Inserted recorded r.id t := by
    rcases (lookup_insertMoves inserts).mp stored with there | ⟨-, made⟩
    · rw [new] at there
      cases there
    · exact made
  exact ⟨t, (lookup_run sound run).mpr (.inr (.inr ⟨new, made⟩)), made⟩

/-- Every row that is rewritten stands after the import. -/
theorem exists_rewritten (sound : plan.Sound transfers)
    (run : plan.run transfers recorded = some after) {r : MoveRow}
    (member : r ∈ plan.updates) :
    ∃ t, after.lookup r.id = some t ∧ plan.Rewritten transfers r.id t := by
  obtain ⟨inserted, inserts, rest⟩ := Option.bind_eq_some_iff.mp run
  obtain ⟨updated, updates, rfl⟩ := Option.map_eq_some_iff.mp rest
  obtain ⟨old, found⟩ := Option.isSome_iff_exists.mp (sound.updates r member)
  have rewrites := lookup_updateMoves (k := r.id) updates
  rw [(lookup_insertMoves inserts).mpr (.inl found), ← found] at rewrites
  have stays : (updated.lookup r.id).isSome := by
    refine inChunks_invariant (P := fun found _ => found.isSome) rewrites
      (sound.updates r member) ?_
    intro before after done chunk there _ sent
    obtain ⟨t, rfl⟩ := Option.isSome_iff_exists.mp there
    unfold rewriteAt at sent
    split at sent
    · obtain ⟨t', -, rfl⟩ := Option.map_eq_some_iff.mp sent
      rfl
    · rw [← Option.some.inj sent]
      rfl
  obtain ⟨t, stored⟩ := Option.isSome_iff_exists.mp stays
  rw [stored] at rewrites
  have rewritten : plan.Rewritten transfers r.id t :=
    ⟨List.mem_map.mpr ⟨r, member, rfl⟩, rewrites⟩
  exact ⟨t, (lookup_run sound run).mpr (.inr (.inl rewritten)), rewritten⟩

end Run

end ScoutPulse.Importer
