import ScoutPulse.Football.Valuation.Values
import ScoutPulse.Lib.Parties

/-!
# The latest valuation

What a request that writes valuations has locked at each of its stages, what its last
statement made of the valuations it saw, and why the player's columns follow the latest
valuation as long as nothing a statement read has changed when its request commits.
-/

namespace ScoutPulse.MarketValues

open Outcome ReadCommitted

/-! ## What a statement reads -/

section Reading

variable {view : Date → Option Value} {dates : List Date} {p : Player}

theorem laterExists_iff {valuedOn : Date} :
    laterExists view dates valuedOn = true ↔
      ∃ d ∈ dates, valuedOn < d ∧ (view d).isSome = true := by
  simp [laterExists, List.any_eq_true]

theorem latest_eq_none (known : ∀ d, d ∉ dates → view d = none) (none_ : latest view dates = none)
    (d : Date) : view d = none := by
  by_contra present
  have there : (view d).isSome = true := Option.isSome_iff_ne_none.mpr present
  have member : d ∈ dates := by
    by_contra unknown
    exact present (known d unknown)
  have kept : d ∈ dates.filter fun d => (view d).isSome := List.mem_filter.mpr ⟨member, there⟩
  rw [latest] at none_
  cases greatest : (dates.filter fun d => (view d).isSome).max? with
  | none =>
      rw [List.max?_eq_none_iff] at greatest
      rw [greatest] at kept
      cases kept
  | some best =>
      obtain ⟨picked, -⟩ := List.max?_eq_some_iff.mp greatest
      have seen := (List.mem_filter.mp picked).2
      rw [greatest, Option.bind_some] at none_
      rw [none_] at seen
      cases seen

/-- The latest value is that of the last date that has one. -/
theorem latest_eq_some {row : Value} (known : ∀ d, d ∉ dates → view d = none)
    (found : latest view dates = some row) :
    ∃ d, view d = some row ∧ ∀ d' row', view d' = some row' → d' ≤ d := by
  obtain ⟨d, greatest, there⟩ := Option.bind_eq_some_iff.mp found
  obtain ⟨-, above⟩ := List.max?_eq_some_iff.mp greatest
  refine ⟨d, there, fun d' row' there' => above d' ?_⟩
  refine List.mem_filter.mpr ⟨?_, by rw [there']; rfl⟩
  by_contra unknown
  rw [known d' unknown] at there'
  cases there'

/-- A player whose worth is that of a day no later valuation follows is current. -/
theorem current_of_latest {d : Date} {row : Value} (there : view d = some row)
    (above : ∀ d' row', view d' = some row' → d' ≤ d) :
    Current ⟨row.valueMinor, row.currency⟩ view := by
  refine ⟨?_, ?_⟩
  · intro d' row' there' above'
    obtain rfl : d' = d := le_antisymm (above d' row' there') (above' d row there)
    rw [there, Option.some.injEq] at there'
    rw [there']
  · intro none_
    rw [none_ d] at there
    cases there

/-- `Delete`'s statement leaves the player current of what it saw. -/
theorem current_reset (known : ∀ d, d ∉ dates → view d = none) (p : Player) :
    Current ((Change.reset (latest view dates)).apply p) view := by
  cases found : latest view dates with
  | none =>
      have none_ := latest_eq_none known found
      refine ⟨?_, fun _ => rfl⟩
      intro d row there
      rw [none_ d] at there
      cases there
  | some row =>
      obtain ⟨d, there, above⟩ := latest_eq_some known found
      exact current_of_latest there above

/-- `Record`'s statement leaves the player current of what it saw when it picked the row:
the request's own valuation is there and none is later. -/
theorem current_set {value : MarketValue} {id : String} (known : ∀ d, d ∉ dates → view d = none)
    (own : view value.valuedOn = some ⟨id, value.value, value.currency⟩)
    (last : laterExists view dates value.valuedOn = false) :
    Current ⟨value.value, value.currency⟩ view := by
  refine current_of_latest own ?_
  intro d row there
  by_contra later
  have exists_ : laterExists view dates value.valuedOn = true := by
    refine laterExists_iff.mpr ⟨d, ?_, not_le.mp later, by rw [there]; rfl⟩
    by_contra unknown
    rw [known d unknown] at there
    cases there
  rw [last] at exists_
  cases exists_

/-- A valuation on a day that a later one follows changes nothing. -/
theorem Current.backdated {before : Date → Option Value} {valuedOn d : Date} {row : Value}
    (current : Current p before) (elsewhere : ∀ d', d' ≠ valuedOn → view d' = before d')
    (there : view d = some row) (later : valuedOn < d) : Current p view := by
  refine ⟨?_, ?_⟩
  · intro d' row' there' above
    have late : d ≤ d' := above d row there
    have other : d' ≠ valuedOn := by
      rintro rfl
      exact absurd later (not_lt.mpr late)
    rw [elsewhere d' other] at there'
    refine current.1 d' row' there' ?_
    intro e row'' found
    by_cases same : e = valuedOn
    · rw [same]
      exact (later.trans_le late).le
    · rw [← elsewhere e same] at found
      exact above e row'' found
  · intro none_
    rw [none_ d] at there
    cases there

end Reading

/-! ## What a step does -/

/-- One step of a request. -/
inductive Advance (s : State) (i : ℕ) (r : Request) : State → Prop
  | admits (value : MarketValue) (begun : r.stage = .begun) :
      Advance s i r (s.move i r (.admitted value))
  | files (value : MarketValue) (id : String) (admitted : r.stage = .admitted value)
      (free : ∀ owner v, s.values.held value.valuedOn = some (owner, v) → owner = i) :
      Advance s i r ((writeValue s i id value).move i r (.changed (.current value)))
  | seeks (id : String) (targets : List Date) (hit : Bool)
      (from_ : r.stage = .begun ∨ ∃ before, r.stage = .deleting id before hit) :
      Advance s i r (s.move i r (.deleting id targets hit))
  | deletes (id : String) (targets : List Date) (hit : Bool) (d : Date) (row : Value)
      (deleting : r.stage = .deleting id targets hit)
      (free : ∀ owner v, s.values.held d = some (owner, v) → owner = i)
      (sees : s.values.visible i d = some row) :
      Advance s i r ({ s with values := s.values.write i d none }.move i r
        (.deleting id (targets.erase d) true))
  | deleted (id : String) (deleting : r.stage = .deleting id [] true) :
      Advance s i r (s.move i r (.changed .reset))
  | passes (update : Update) (changed : r.stage = .changed update)
      (decides : update.decides (s.values.visible i) s.dates = none) :
      Advance s i r (s.move i r (.updated update none))
  | decides (update : Update) (change : Change) (changed : r.stage = .changed update)
      (decides : update.decides (s.values.visible i) s.dates = some change) :
      Advance s i r (s.move i r (.updating update change))
  | updates (update : Update) (change : Change) (p : Player)
      (updating : r.stage = .updating update change)
      (free : ∀ owner v, s.player.held () = some (owner, v) → owner = i)
      (sees : s.player.visible i () = some p) :
      Advance s i r ({ s with player := s.player.write i () (some (change.apply p)) }.move i r
        (.updated update (some change)))
  | misses (update : Update) (change : Change) (updating : r.stage = .updating update change)
      (absent : s.player.visible i () = none) :
      Advance s i r (s.move i r (.updated update (some change)))
  | commits (update : Update) (change : Option Change)
      (updated : r.stage = .updated update change) : Advance s i r (s.finish i r)
  | fails (reason : AppErr) : Advance s i r (s.fail i r reason)

section Inversion

variable {s s' : State} {i : ℕ} {r : Request} {d : Draw}

/-- What a request begins with is one of the steps. -/
theorem beginRequest_advance (begun : r.stage = .begun) :
    Advance s i r (beginRequest s i r d r.kind) := by
  cases r.kind with
  | recordValue caller value =>
      unfold beginRequest
      dsimp only
      cases admitValue caller value d.now with
      | error reason => exact .fails reason
      | ok value => exact .admits value begun
  | deleteValue caller id =>
      unfold beginRequest
      dsimp only
      cases admitDelete caller id with
      | error reason => exact .fails reason
      | ok u => exact .seeks id _ false (Or.inl begun)

/-- Inserting a value is a step. -/
theorem insertValue_advance {value : MarketValue} (admitted : r.stage = .admitted value)
    (inserted : insertValue s i r d value = some s') : Advance s i r s' := by
  rw [insertValue] at inserted
  by_cases blocked : s.values.blocked i value.valuedOn = true
  · rw [if_pos blocked] at inserted
    cases inserted
  · rw [if_neg blocked] at inserted
    have free : ∀ owner v, s.values.held value.valuedOn = some (owner, v) → owner = i :=
      fun owner v held => Table.free_of_not_blocked blocked held
    by_cases long : 3 < value.currency.length
    · rw [if_pos long, Option.some.injEq] at inserted
      subst inserted
      exact .fails .internal
    · rw [if_neg long] at inserted
      cases found : s.values.visible i value.valuedOn with
      | some row =>
          simp only [found, Option.some.injEq] at inserted
          subst inserted
          exact .files value row.id admitted free
      | none =>
          simp only [found] at inserted
          split_ifs at inserted with used
          obtain rfl := Option.some.inj inserted
          exact .files value d.id admitted free

/-- Whatever a request does next is one of the steps. -/
theorem advanceRequest_advance (advanced : advanceRequest s i r d = some s') :
    Advance s i r s' := by
  unfold advanceRequest at advanced
  cases at_ : r.stage with
  | begun =>
      simp only [at_, Option.some.injEq] at advanced
      subst advanced
      exact beginRequest_advance at_
  | admitted value =>
      simp only [at_] at advanced
      exact insertValue_advance at_ advanced
  | deleting id targets hit =>
      simp only [at_] at advanced
      split_ifs at advanced with finished found member
      · obtain rfl := Option.some.inj advanced
        refine .deleted id ?_
        rw [at_, finished, found]
      · obtain rfl := Option.some.inj advanced
        exact .fails _
      · obtain ⟨⟨table, missed⟩, visited, rfl⟩ := Option.map_eq_some_iff.mp advanced
        obtain ⟨free, ⟨row, sees, -, rfl, rfl⟩ | ⟨-, rfl, rfl⟩⟩ := Statement.visit_cases visited
        · exact .deletes id targets hit d.date row at_ free sees
        · exact .seeks id _ hit (Or.inr ⟨targets, at_⟩)
  | changed update =>
      simp only [at_] at advanced
      cases decided : update.decides (s.values.visible i) s.dates with
      | none =>
          simp only [decided, Option.some.injEq] at advanced
          subst advanced
          exact .passes update at_ decided
      | some change =>
          simp only [decided, Option.some.injEq] at advanced
          subst advanced
          exact .decides update change at_ decided
  | updating update change =>
      simp only [at_] at advanced
      obtain ⟨⟨table, hit⟩, visited, rfl⟩ := Option.map_eq_some_iff.mp advanced
      obtain ⟨free, ⟨p, sees, -, rfl, -⟩ | ⟨unpicked, rfl, -⟩⟩ := Statement.visit_cases visited
      · exact .updates update change p at_ free sees
      · refine .misses update change at_ ?_
        cases sees : s.player.visible i () with
        | none => rfl
        | some p => cases unpicked p sees
  | updated update change =>
      simp only [at_, Option.some.injEq] at advanced
      subst advanced
      exact .commits update change at_
  | ended reason => simp only [at_, reduceCtorEq] at advanced

/-- Everything a step of the machine can do. -/
theorem valuing_next {label : Label} (next : valuing.next s label = some s') :
    (∃ kind, label = .arrive kind ∧
      s' = { s with requests := s.requests ++ [⟨kind, .begun⟩] }) ∨
    (∃ i d r, label = .advance i d ∧ s.requests[i]? = some r ∧ Advance s i r s') ∨
    (∃ i r, s.requests[i]? = some r ∧ s' = s.fail i r .internal) := by
  cases label with
  | arrive kind => exact Or.inl ⟨kind, rfl, (Option.some.inj next).symm⟩
  | advance i d =>
      obtain ⟨r, present, advanced⟩ := Option.bind_eq_some_iff.mp next
      exact Or.inr (Or.inl ⟨i, d, r, rfl, present, advanceRequest_advance advanced⟩)
  | abort i =>
      obtain ⟨r, present, aborted⟩ := Option.bind_eq_some_iff.mp next
      refine Or.inr (Or.inr ⟨i, r, present, ?_⟩)
      cases at_ : r.stage <;> simp_all

end Inversion

/-! ## What holds at each stage -/

/-- The valuations a request has written when its statement on the player is next: those of
`Record` are one row, on its day. -/
def Filed (values : Table Date Value ℕ) (i : ℕ) : Update → Prop
  | .current value => (∃ id, values.held value.valuedOn =
      some (i, some ⟨id, value.value, value.currency⟩)) ∧
      values.LocksOnly i [value.valuedOn]
  | .reset => True

/-- What a request has locked at a stage. -/
def Ready (player : Table Unit Player ℕ) (values : Table Date Value ℕ) (i : ℕ) : Stage → Prop
  | .begun | .admitted _ => player.Idle i ∧ values.Idle i
  | .deleting _ _ _ => player.Idle i
  | .changed update | .updating update _ | .updated update none =>
      player.Idle i ∧ Filed values i update
  | .updated update (some change) =>
      (∃ p, player.held () = some (i, some (change.apply p))) ∧ Filed values i update
  | .ended _ => True

/-- What holds in every state, whatever the requests have missed. -/
structure Sound (s : State) : Prop where
  known : ∀ d, d ∉ s.dates → s.values.committed d = none ∧ s.values.held d = none
  there : ∃ p, s.player.committed () = some p
  playerOwner : ∀ k i v, s.player.held k = some (i, v) → i < s.requests.length
  valueOwner : ∀ d i v, s.values.held d = some (i, v) → i < s.requests.length
  ready : ∀ i r, s.requests[i]? = some r → Ready s.player s.values i r.stage

section Frame

variable {s : State} {player player' : Table Unit Player ℕ} {values values' : Table Date Value ℕ}
  {i j : ℕ} {r : Request} {stage : Stage} {dates : List Date} {ids : List String}

/-- A value that is filed stays so while others take their steps. -/
theorem Filed.spares {update : Update} (filed : Filed values j update)
    (spares : values.Spares values' j) : Filed values' j update := by
  cases update with
  | current value =>
      obtain ⟨⟨id, held⟩, locks⟩ := filed
      exact ⟨⟨id, spares.locks.mpr held⟩, locks.spares spares⟩
  | reset => trivial

/-- A step of another request leaves a request what it has locked. -/
theorem Ready.spares (ready : Ready player values j stage) (first : player.Spares player' j)
    (second : values.Spares values' j) : Ready player' values' j stage := by
  cases stage with
  | begun => exact ⟨ready.1.spares first, ready.2.spares second⟩
  | admitted value => exact ⟨ready.1.spares first, ready.2.spares second⟩
  | deleting id targets hit => exact Table.Idle.spares ready first
  | changed update => exact ⟨ready.1.spares first, ready.2.spares second⟩
  | updating update change => exact ⟨ready.1.spares first, ready.2.spares second⟩
  | updated update change =>
      cases change with
      | none => exact ⟨ready.1.spares first, ready.2.spares second⟩
      | some change =>
          obtain ⟨⟨p, held⟩, filed⟩ := ready
          exact ⟨⟨p, first.locks.mpr held⟩, filed.spares second⟩
  | ended reason => trivial

/-- Rows are held by requests that are there. -/
theorem owned_of_spares {κ ρ : Type} {t t' : Table κ ρ ℕ} {n : ℕ}
    (owned : ∀ k i v, t.held k = some (i, v) → i < n) (present : i < n)
    (spares : ∀ j, j ≠ i → t.Spares t' j) : ∀ k j v, t'.held k = some (j, v) → j < n := by
  intro k j v held
  by_cases mine : j = i
  · exact mine ▸ present
  · exact owned k j v ((spares j mine).locks.mp held)

/-- What has to be shown of a step of one request. -/
theorem Sound.step (sound : Sound s) (present : s.requests[i]? = some r)
    (known : ∀ d, d ∉ dates → values.committed d = none ∧ values.held d = none)
    (first : ∀ j, j ≠ i → s.player.Spares player j)
    (second : ∀ j, j ≠ i → s.values.Spares values j)
    (there : ∃ p, player.committed () = some p) (ready : Ready player values i stage) :
    Sound ({ s with player := player, values := values, dates := dates, valueIDs := ids }.move i r
      stage) := by
  obtain ⟨bound, -⟩ := List.getElem?_eq_some_iff.mp present
  refine ⟨known, there, ?_, ?_, ?_⟩
  · intro k j v held
    rw [State.move, List.length_set]
    exact owned_of_spares sound.playerOwner bound first k j v held
  · intro d j v held
    rw [State.move, List.length_set]
    exact owned_of_spares sound.valueOwner bound second d j v held
  · intro j q found
    obtain ⟨rfl, rfl⟩ | ⟨mine, before⟩ := (Parties.set_eq_some present).mp found
    · exact ready
    · exact (sound.ready j q before).spares (first j mine) (second j mine)

/-- A step that leaves the tables alone. -/
theorem Sound.quiet (sound : Sound s) (present : s.requests[i]? = some r)
    (ready : Ready s.player s.values i stage) : Sound (s.move i r stage) :=
  sound.step present sound.known (fun j _ => .refl _ j) (fun j _ => .refl _ j) sound.there ready

/-! ## One step -/

/-- `Record` writes the valuation. -/
theorem Sound.file (sound : Sound s) (present : s.requests[i]? = some r) {value : MarketValue}
    {id : String} (admitted : r.stage = .admitted value)
    (free : ∀ owner v, s.values.held value.valuedOn = some (owner, v) → owner = i) :
    Sound ((writeValue s i id value).move i r (.changed (.current value))) := by
  have ready := sound.ready i r present
  rw [admitted] at ready
  obtain ⟨idle, unheld⟩ := ready
  apply sound.step present ?_ (fun j _ => .refl _ j) (fun j other => .write free other) sound.there
  · refine ⟨idle, ⟨id, ?_⟩, ?_⟩
    · exact Table.write_held.mpr (Or.inl ⟨rfl, rfl, rfl⟩)
    · have none_ : s.values.LocksOnly i [] := fun k v held => absurd held (unheld k v)
      exact none_.write _ _
  · intro d unknown
    rw [List.mem_cons, not_or] at unknown
    obtain ⟨committed, held⟩ := sound.known d unknown.2
    exact ⟨committed, (Function.update_of_ne unknown.1 _ _).trans held⟩

/-- `Delete` deletes a valuation. -/
theorem Sound.delete (sound : Sound s) (present : s.requests[i]? = some r) {id : String}
    {targets : List Date} {hit : Bool} {d : Date} {row : Value}
    (deleting : r.stage = .deleting id targets hit)
    (free : ∀ owner v, s.values.held d = some (owner, v) → owner = i)
    (sees : s.values.visible i d = some row) :
    Sound ({ s with values := s.values.write i d none }.move i r
      (.deleting id (targets.erase d) true)) := by
  have ready := sound.ready i r present
  rw [deleting] at ready
  apply sound.step present ?_ (fun j _ => .refl _ j) (fun j other => .write free other) sound.there
  · exact ready
  · intro e unknown
    obtain ⟨committed, held⟩ := sound.known e unknown
    have other : e ≠ d := by
      rintro rfl
      rw [Table.visible, held, committed] at sees
      cases sees
    exact ⟨committed, (Function.update_of_ne other _ _).trans held⟩

/-- The player is written. -/
theorem Sound.update (sound : Sound s) (present : s.requests[i]? = some r) {update : Update}
    {change : Change} {p : Player} (updating : r.stage = .updating update change)
    (free : ∀ owner v, s.player.held () = some (owner, v) → owner = i) :
    Sound ({ s with player := s.player.write i () (some (change.apply p)) }.move i r
      (.updated update (some change))) := by
  have ready := sound.ready i r present
  rw [updating] at ready
  apply sound.step present sound.known (fun j other => .write free other) (fun j _ => .refl _ j)
    sound.there
  exact ⟨⟨p, Table.write_held.mpr (Or.inl ⟨rfl, rfl, rfl⟩)⟩, ready.2⟩

/-- A request fails. -/
theorem Sound.fail (sound : Sound s) (present : s.requests[i]? = some r) (reason : AppErr) :
    Sound (s.fail i r reason) := by
  apply sound.step present ?_ (fun j other => .rollback other) (fun j other => .rollback other)
    sound.there
  · trivial
  · intro d unknown
    obtain ⟨committed, held⟩ := sound.known d unknown
    refine ⟨committed, ?_⟩
    change s.values.others i d = none
    rw [Table.others, held]

/-- A day no row was ever written for has none that a request sees. -/
theorem Sound.unseen (sound : Sound s) (i : ℕ) (d : Date) (unknown : d ∉ s.dates) :
    s.values.visible i d = none := by
  obtain ⟨committed, held⟩ := sound.known d unknown
  rw [Table.visible, held]
  exact committed

/-- A request commits. -/
theorem Sound.finish (sound : Sound s) (present : s.requests[i]? = some r) {update : Update}
    {change : Option Change} (updated : r.stage = .updated update change) :
    Sound (s.finish i r) := by
  have ready := sound.ready i r present
  rw [updated] at ready
  apply sound.step present ?_ (fun j other => .commit other) (fun j other => .commit other) ?_
  · trivial
  · intro d unknown
    refine ⟨sound.unseen i d unknown, ?_⟩
    change s.values.others i d = none
    rw [Table.others, (sound.known d unknown).2]
  · cases change with
    | none =>
        obtain ⟨p, there⟩ := sound.there
        exact ⟨p, (Table.commit_of_not_held (ready.1 ())).trans there⟩
    | some change =>
        obtain ⟨⟨p, held⟩, -⟩ := ready
        exact ⟨_, Table.commit_of_held held⟩

/-- A request arrives. -/
theorem Sound.arrive (sound : Sound s) (kind : Kind) :
    Sound { s with requests := s.requests ++ [⟨kind, .begun⟩] } := by
  refine ⟨sound.known, sound.there, ?_, ?_, ?_⟩
  · intro k i v held
    have := sound.playerOwner k i v held
    simp
    omega
  · intro d i v held
    have := sound.valueOwner d i v held
    simp
    omega
  · intro i r found
    obtain before | ⟨rfl, rfl⟩ := Parties.append_eq_some.mp found
    · exact sound.ready i r before
    · exact ⟨fun k v held => absurd (sound.playerOwner k _ v held) (lt_irrefl _),
        fun d v held => absurd (sound.valueOwner d _ v held) (lt_irrefl _)⟩

end Frame

/-- One step keeps it all. -/
theorem Sound.next {s s' : State} {label : Label} (sound : Sound s)
    (next : valuing.next s label = some s') : Sound s' := by
  obtain ⟨kind, rfl, rfl⟩ | ⟨i, d, r, rfl, present, advance⟩ | ⟨i, r, present, rfl⟩ :=
    valuing_next next
  · exact sound.arrive kind
  · have ready := sound.ready i r present
    cases advance with
    | admits value begun =>
        rw [begun] at ready
        exact sound.quiet present ready
    | files value id admitted free => exact sound.file present admitted free
    | seeks id targets hit from_ =>
        apply sound.quiet present
        obtain begun | ⟨before, deleting⟩ := from_
        · rw [begun] at ready
          exact ready.1
        · rw [deleting] at ready
          exact ready
    | deletes id targets hit d row deleting free sees =>
        exact sound.delete present deleting free sees
    | deleted id deleting =>
        rw [deleting] at ready
        exact sound.quiet present ⟨ready, trivial⟩
    | passes update changed decides =>
        rw [changed] at ready
        exact sound.quiet present ready
    | decides update change changed decides =>
        rw [changed] at ready
        exact sound.quiet present ready
    | updates update change p updating free sees => exact sound.update present updating free
    | misses update change updating absent =>
        rw [updating] at ready
        obtain ⟨p, there⟩ := sound.there
        rw [Table.visible_of_not_held (ready.1 ()), there] at absent
        cases absent
    | commits update change updated => exact sound.finish present updated
    | fails reason => exact sound.fail present reason
  · exact sound.fail present .internal

/-! ## The latest valuation -/

section Latest

variable {s s' : State} {i : ℕ} {r : Request} {update : Update}

/-- The statement did not pick the player, as a later valuation is there. -/
theorem commit_passed (current : UpToDate s.player s.values) (idle : s.player.Idle i)
    (filed : Filed s.values i update)
    (fresh : update.decides (s.values.visible i) s.dates = none) :
    UpToDate (s.player.commit i) (s.values.commit i) := by
  obtain ⟨p, there, current⟩ := current
  refine ⟨p, (Table.commit_of_not_held (idle ())).trans there, ?_⟩
  cases update with
  | reset => cases fresh
  | current value =>
      rw [Update.decides] at fresh
      split_ifs at fresh with later
      obtain ⟨d, -, after, seen⟩ := laterExists_iff.mp later
      obtain ⟨row, sees⟩ := Option.isSome_iff_exists.mp seen
      refine current.backdated ?_ sees after
      intro d' other
      refine Table.commit_of_not_held fun v held => other ?_
      exact List.mem_singleton.mp (filed.2 d' v held)

/-- The statement has written the player. -/
theorem Sound.commit_updated (sound : Sound s) {change : Change} {p : Player}
    (held : s.player.held () = some (i, some (change.apply p))) (filed : Filed s.values i update)
    (fresh : update.decides (s.values.visible i) s.dates = some change) :
    UpToDate (s.player.commit i) (s.values.commit i) := by
  refine ⟨change.apply p, Table.commit_of_held held, ?_⟩
  cases update with
  | reset =>
      obtain rfl := Option.some.inj fresh
      exact current_reset (sound.unseen i) p
  | current value =>
      rw [Update.decides] at fresh
      split_ifs at fresh with later
      obtain rfl := Option.some.inj fresh
      obtain ⟨⟨id, own⟩, -⟩ := filed
      exact current_set (sound.unseen i) (Table.visible_of_held own) (Bool.eq_false_iff.mpr later)

/-- One step keeps the player up to date, provided a request that commits would still
decide the same. -/
theorem Sound.upToDate_next {label : Label} (sound : Sound s)
    (current : UpToDate s.player s.values) (fresh : Fresh s label)
    (next : valuing.next s label = some s') : UpToDate s'.player s'.values := by
  obtain ⟨kind, rfl, rfl⟩ | ⟨i, d, r, rfl, present, advance⟩ | ⟨i, r, present, rfl⟩ :=
    valuing_next next
  · exact current
  · cases advance with
    | commits update change updated =>
        have ready := sound.ready i r present
        rw [updated] at ready
        have decided : (update, change) ∈ r.stage.decision := by
          rw [updated]
          rfl
        have same := fresh r present _ decided
        cases change with
        | none => exact commit_passed current ready.1 ready.2 same
        | some change =>
            obtain ⟨⟨p, held⟩, filed⟩ := ready
            exact sound.commit_updated held filed same
    | _ => exact current
  · exact current

end Latest

/-- A player is created with its worth. -/
theorem created_upToDate {id : String} {createdAt : Date} {value : ℤ} {currency : String}
    {s : State} (created : createPlayer id createdAt value currency = .ok s) :
    Sound s ∧ UpToDate s.player s.values := by
  simp only [createPlayer, guard_ok_iff, pure_ok_iff] at created
  obtain ⟨nonneg, rfl⟩ := created
  refine ⟨⟨?_, ⟨_, rfl⟩, ?_, ?_, ?_⟩, ⟨_, rfl, ?_, ?_⟩⟩
  · intro d unknown
    exact ⟨if_neg unknown, rfl⟩
  · intro k i v held
    cases held
  · intro d i v held
    cases held
  · intro i r present
    cases present
  · intro d row there _
    obtain ⟨-, same⟩ := Option.ite_none_right_eq_some.mp there
    obtain rfl := Option.some.inj same
    rfl
  · intro none_
    by_contra nonzero
    have positive : 0 < value := lt_of_le_of_ne (not_lt.mp nonneg) (Ne.symm nonzero)
    simpa [positive] using none_ createdAt

/-- **A player's worth is that of the latest valuation**, in every state of every run in
which no request commits whose statement on the player would by now decide otherwise. -/
theorem upToDate {s : State} (reach : valuing.Reach Fresh s) : UpToDate s.player s.values := by
  have both : Sound s ∧ UpToDate s.player s.values := by
    apply reach.invariant
    · rintro t ⟨id, createdAt, value, currency, created⟩
      exact created_upToDate created
    · intro t t' label kept fresh next
      exact ⟨kept.1.next next, kept.1.upToDate_next kept.2 fresh next⟩
  exact both.2

/-- In every reachable state the latest valuation is found among the days ever used. -/
theorem UpToDate.latest {s : State} (reach : valuing.Reach Machine.always s)
    (current : UpToDate s.player s.values) {row : Value}
    (found : latest s.values.committed s.dates = some row) :
    s.player.committed () = some ⟨row.valueMinor, row.currency⟩ := by
  have sound : Sound s := by
    apply reach.invariant
    · rintro t ⟨id, createdAt, value, currency, created⟩
      exact (created_upToDate created).1
    · exact fun kept _ next => kept.next next
  obtain ⟨d, there, above⟩ := latest_eq_some (fun d unknown => (sound.known d unknown).1) found
  obtain ⟨p, present, current⟩ := current
  rw [present, current.1 d row there above]

section Runs

def byAdmin : Caller := ⟨some ⟨"root", .admin, "root"⟩, fun _ _ => .ok false⟩

/-- A player created on day 100 with a valuation. -/
def signed : State where
  player := ⟨fun _ => some ⟨500, "EUR"⟩, fun _ => none⟩
  values := ⟨fun d => if d ∈ [100] then some ⟨"opening", 500, "EUR"⟩ else none, fun _ => none⟩
  dates := [100]
  valueIDs := ["opening"]
  requests := []

theorem signed_start : valuing.start signed := ⟨"opening", 100, 500, "EUR", rfl⟩

/-- An administrator records a valuation. -/
def valued (valuedOn : Date) (value : ℤ) : Label :=
  .arrive (.recordValue byAdmin ⟨Dates.ofDay valuedOn, value, ""⟩)

/-- A request takes a number of steps, each with the same draw at hand. -/
def steps (i n : ℕ) (id : String) (date : Date) : List Label :=
  List.replicate n (.advance i ⟨Dates.midnight 1000, date, id⟩)

/-- Everyone has had an answer, and nothing went wrong. -/
def State.answered (s : State) : Bool := s.requests.all fun r => r.stage = .ended none

/-- A backdated valuation, a new one, and the deletion of the opening one while another is
recorded. -/
def season : List Label :=
  [valued 50 300] ++ steps 0 4 "first" 0 ++ [valued 200 700] ++ steps 1 5 "second" 0 ++
    [.arrive (.deleteValue byAdmin "second"), valued 150 600] ++ steps 2 3 "" 200 ++
    steps 3 2 "third" 0 ++ steps 2 3 "" 0 ++ steps 3 3 "" 0

/-- Values that are recorded one after the other leave the player up to date. -/
theorem upToDate_season :
    let s := valuing.after Fresh signed season
    UpToDate s.player s.values ∧ s.answered = true ∧
      s.player.committed () = some ⟨600, "EUR"⟩ :=
  ⟨upToDate (Machine.reach_after signed_start (by decide +kernel)), by decide +kernel⟩

/-- Two valuations at once. The statement of the older has read the valuations before the
newer is committed, and comes to the player after it. -/
def overtaken : List Label :=
  [valued 150 600, valued 200 700] ++ steps 0 3 "older" 0 ++ steps 1 5 "newer" 0 ++
    steps 0 2 "" 0

/-- A value that is recorded while a newer one is committed leaves the player behind. -/
theorem upToDate_overtaken :
    let s := valuing.after Machine.always signed overtaken
    valuing.Reach Machine.always s ∧ s.answered = true ∧ ¬ UpToDate s.player s.values := by
  have reach : valuing.Reach Machine.always (valuing.after Machine.always signed overtaken) :=
    Machine.reach_after signed_start (by decide +kernel)
  refine ⟨reach, by decide +kernel, fun current => ?_⟩
  have found : latest (valuing.after Machine.always signed overtaken).values.committed
      (valuing.after Machine.always signed overtaken).dates = some ⟨"newer", 700, "EUR"⟩ := by
    decide +kernel
  have worth : (valuing.after Machine.always signed overtaken).player.committed () =
      some ⟨600, "EUR"⟩ := by decide +kernel
  rw [current.latest reach found] at worth
  exact absurd worth (by decide)

end Runs

end ScoutPulse.MarketValues
