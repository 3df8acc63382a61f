import ScoutPulse.Football.Coaches.Recording

/-!
# One job at a time

What a request that records an open spell knows of the coach's open spells at each of its
stages, and why no coach holds two of them as long as no commit is missed.
-/

namespace ScoutPulse.Coaches.Recording

open ReadCommitted

/-! ## What a step does -/

/-- No other transaction has a spell's lock. -/
def Free (t : Table String CoachSpell ℕ) (i : ℕ) (k : String) : Prop :=
  ∀ owner v, t.held k = some (owner, v) → owner = i

/-- A step from one stage to another that leaves the spells alone. -/
inductive Passes (s : State) (i : ℕ) : Stage → Stage → Prop
  | admits (spell : CoachSpell) : Passes s i .begun (.admitted spell)
  | checks (spell : CoachSpell) (latest : s.laterExists i spell = false) :
      Passes s i (.admitted spell) (.checked spell)
  | skips (spell : CoachSpell) (ended : spell.endDate ≠ none) :
      Passes s i (.admitted spell) (.closed spell true)
  | starts (spell : CoachSpell) :
      Passes s i (.checked spell)
        (.closing spell ((closePrevious spell).targets s.spells i s.spellIDs))
  | leaves (spell : CoachSpell) (targets : List String) (k : String)
      (picked : ∀ row, s.spells.visible i k = some row →
        (closePrevious spell).picks k row = false) :
      Passes s i (.closing spell targets) (.closing spell (targets.erase k))
  | closes (spell : CoachSpell) : Passes s i (.closing spell []) (.closed spell false)
  | appoints (spell : CoachSpell) (later : Bool) (id : String) :
      Passes s i (.filed spell later id) (.appointed spell id)
  | deletes (stage : Stage) (id : String) (targets : List String) (hit : Bool)
      (from_ : stage = .begun ∨ ∃ before, stage = .deleting id before hit) :
      Passes s i stage (.deleting id targets hit)

/-- One step of a request, by what it does to the spells. -/
inductive Advance (s : State) (i : ℕ) (r : Request) : State → Prop
  | passes (stage : Stage) (coaches : Table String Coach ℕ) (passes : Passes s i r.stage stage) :
      Advance s i r ({ s with coaches := coaches }.move i r stage)
  | closes (spell : CoachSpell) (targets : List String) (k : String) (row : CoachSpell)
      (closing : r.stage = .closing spell targets) (free : Free s.spells i k)
      (sees : s.spells.visible i k = some row) :
      Advance s i r ({ s with
        spells := s.spells.write i k (some { row with endDate := some spell.startDate }) }.move i r
          (.closing spell (targets.erase k)))
  | files (spell : CoachSpell) (later : Bool) (id : String) (closed : r.stage = .closed spell later)
      (fresh : id ∉ s.spellIDs) :
      Advance s i r ((insertSpell s i id spell).move i r (.filed spell later id))
  | deletes (id : String) (targets : List String) (hit : Bool) (k : String) (row : CoachSpell)
      (deleting : r.stage = .deleting id targets hit) (free : Free s.spells i k)
      (sees : s.spells.visible i k = some row) :
      Advance s i r ({ s with spells := s.spells.write i k none }.move i r
        (.deleting id (targets.erase k) true))
  | commits (ready : (∃ spell id, r.stage = .appointed spell id) ∨
      ∃ id hit, r.stage = .deleting id [] hit) : Advance s i r (s.finish i r)
  | fails (reason : AppErr) : Advance s i r (s.fail i r reason)

section Inversion

variable {s s' : State} {i : ℕ} {r : Request} {d : Draw}

/-- What a request begins with is one of the steps. -/
theorem beginRequest_advance (begun : r.stage = .begun) :
    Advance s i r (beginRequest s i r d r.kind) := by
  cases r.kind with
  | recordSpell caller spell =>
      unfold beginRequest
      dsimp only
      cases admitSpell caller (s.coaches.committed spell.coachID) spell d.horizon with
      | error reason => exact .fails reason
      | ok spell =>
          apply Advance.passes _ s.coaches
          rw [begun]
          exact .admits spell
  | deleteSpell caller id =>
      unfold beginRequest
      dsimp only
      cases caller.requireAdmin with
      | error reason => exact .fails reason
      | ok u =>
          apply Advance.passes _ s.coaches
          exact .deletes _ id _ false (Or.inl begun)

/-- Whatever a request does next is one of the steps, stage by stage. -/
theorem advanceRequest_advance (advanced : advanceRequest s i r d = some s') :
    Advance s i r s' := by
  unfold advanceRequest at advanced
  cases at_ : r.stage with
  | begun =>
      simp only [at_, Option.some.injEq] at advanced
      subst advanced
      exact beginRequest_advance at_
  | admitted spell =>
      simp only [at_] at advanced
      split_ifs at advanced with later open_
      · obtain rfl := Option.some.inj advanced
        exact .fails _
      · obtain rfl := Option.some.inj advanced
        apply Advance.passes _ s.coaches
        rw [at_]
        exact .skips spell open_
      · obtain rfl := Option.some.inj advanced
        apply Advance.passes _ s.coaches
        rw [at_]
        exact .checks spell (Bool.eq_false_iff.mpr later)
  | checked spell =>
      simp only [at_, Option.some.injEq] at advanced
      subst advanced
      apply Advance.passes _ s.coaches
      rw [at_]
      exact .starts spell
  | closing spell targets =>
      simp only [at_] at advanced
      split_ifs at advanced with finished member
      · obtain rfl := Option.some.inj advanced
        apply Advance.passes _ s.coaches
        rw [at_, finished]
        exact .closes spell
      · obtain ⟨⟨table, hit⟩, visited, rfl⟩ := Option.map_eq_some_iff.mp advanced
        obtain ⟨free, ⟨row, sees, -, rfl, -⟩ | ⟨none_, rfl, -⟩⟩ := Statement.visit_cases visited
        · exact .closes spell targets d.id row at_ free sees
        · apply Advance.passes _ s.coaches
          rw [at_]
          exact .leaves spell targets d.id none_
  | closed spell later =>
      simp only [at_] at advanced
      split_ifs at advanced with used unordered unknown
      · obtain rfl := Option.some.inj advanced
        exact .fails _
      · obtain rfl := Option.some.inj advanced
        exact .fails _
      · obtain rfl := Option.some.inj advanced
        exact .files spell later d.id at_ used
  | filed spell later id =>
      simp only [at_] at advanced
      split_ifs at advanced with current
      · unfold appoint at advanced
        split_ifs at advanced with blocked
        cases found : s.coaches.visible i spell.coachID with
        | none =>
            simp only [found, Option.some.injEq] at advanced
            subst advanced
            exact .fails _
        | some coach =>
            simp only [found, Option.some.injEq] at advanced
            subst advanced
            apply Advance.passes
            rw [at_]
            exact .appoints spell later id
      · obtain rfl := Option.some.inj advanced
        apply Advance.passes _ s.coaches
        rw [at_]
        exact .appoints spell later id
  | appointed spell id =>
      simp only [at_, Option.some.injEq] at advanced
      subst advanced
      exact .commits (Or.inl ⟨spell, id, at_⟩)
  | deleting id targets hit =>
      simp only [at_] at advanced
      split_ifs at advanced with finished found member
      · obtain rfl := Option.some.inj advanced
        exact .commits (Or.inr ⟨id, hit, finished ▸ at_⟩)
      · obtain rfl := Option.some.inj advanced
        exact .fails _
      · obtain ⟨⟨table, missed⟩, visited, rfl⟩ := Option.map_eq_some_iff.mp advanced
        obtain ⟨free, ⟨row, sees, -, rfl, rfl⟩ | ⟨-, rfl, rfl⟩⟩ := Statement.visit_cases visited
        · exact .deletes id targets hit d.id row at_ free sees
        · apply Advance.passes _ s.coaches
          exact .deletes _ id _ hit (Or.inr ⟨targets, at_⟩)
  | ended reason => simp only [at_, reduceCtorEq] at advanced

/-- Everything a step of the machine can do. -/
theorem recording_next {label : Label} (next : recording.next s label = some s') :
    (∃ kind, label = .arrive kind ∧
      s' = { s with requests := s.requests ++ [⟨kind, .begun⟩] }) ∨
    (∃ i d r, label = .advance i d ∧ s.requests[i]? = some r ∧ Advance s i r s') ∨
    (∃ i r, s.requests[i]? = some r ∧ s' = s.fail i r .internal) := by
  cases label with
  | arrive kind => exact Or.inl ⟨kind, rfl, (Option.some.inj next).symm⟩
  | advance i d =>
      obtain ⟨r, present, advanced⟩ := Option.bind_eq_some_iff.mp next
      exact Or.inr (Or.inl ⟨i, d, r, rfl, present, advanceRequest_advance advanced⟩)
  | abort i =>
      obtain ⟨r, present, aborted⟩ := Option.bind_eq_some_iff.mp next
      refine Or.inr (Or.inr ⟨i, r, present, ?_⟩)
      cases at_ : r.stage <;> simp_all

end Inversion

/-! ## What holds at each stage -/

/-- The row a request has inserted. -/
def Stage.inserted : Stage → Option (String × CoachSpell)
  | .filed spell _ id | .appointed spell id => some (id, spell)
  | _ => none

def Stage.deletes : Stage → Bool
  | .deleting _ _ _ => true
  | _ => false

/-- The open spells of a spell's coach start no later, and each is among the rows a request
has yet to come to or has been ended by it. -/
def Covered (t : Table String CoachSpell ℕ) (i : ℕ) (spell : CoachSpell) (targets : List String) :
    Prop :=
  ∀ k row, t.committed k = some row → row.coachID = spell.coachID → row.endDate = none →
    row.startDate ≤ spell.startDate ∧
      (k ∈ targets ∨ ∃ v, t.held k = some (i, some v) ∧ v.endDate ≠ none)

/-- What a request knows at a stage. -/
def Ready (t : Table String CoachSpell ℕ) (i : ℕ) : Stage → Prop
  | .begun | .admitted _ => t.Idle i
  | .checked spell => t.Idle i ∧ (spell.endDate = none → ∀ k row, t.committed k = some row →
      row.coachID = spell.coachID → row.endDate = none → row.startDate ≤ spell.startDate)
  | .closing spell targets => spell.endDate = none → Covered t i spell targets
  | .closed spell _ | .filed spell _ _ | .appointed spell _ =>
      spell.endDate = none → Covered t i spell []
  | _ => True

/-- What a version of a row can be: ended, deleted, or inserted by the request that has
it. -/
def Written (t : Table String CoachSpell ℕ) (k : String) (v : Option CoachSpell) (stage : Stage) :
    Prop :=
  (∃ row, v = some row ∧ row.endDate ≠ none) ∨ (v = none ∧ stage.deletes = true) ∨
    (t.committed k = none ∧ ∃ spell, v = some { spell with id := k } ∧
      stage.inserted = some (k, spell))

structure Sound (s : State) : Prop where
  known : ∀ k, k ∉ s.spellIDs → s.spells.committed k = none ∧ s.spells.held k = none
  versions : ∀ k i v, s.spells.held k = some (i, v) →
    ∃ r, s.requests[i]? = some r ∧ Written s.spells k v r.stage
  one : OneJob s
  ready : ∀ i r, s.requests[i]? = some r → Ready s.spells i r.stage

section Frame

variable {s : State} {t t' : Table String CoachSpell ℕ} {i j : ℕ} {r : Request} {k : String}
  {v : Option CoachSpell} {spell : CoachSpell} {targets ids : List String} {stage stage' : Stage}
  {coaches : Table String Coach ℕ}

/-- What is covered stays so while the request keeps its rows. -/
theorem Covered.congr (covered : Covered t i spell targets)
    (committed : t'.committed = t.committed)
    (locks : ∀ k v, t.held k = some (i, v) → t'.held k = some (i, v)) :
    Covered t' i spell targets := by
  intro k row found own open_
  rw [committed] at found
  obtain ⟨early, rest⟩ := covered k row found own open_
  refine ⟨early, rest.imp_right ?_⟩
  rintro ⟨v, held, ended⟩
  exact ⟨v, locks k _ held, ended⟩

/-- A step of another request that commits nothing leaves a request what it knows. -/
theorem Ready.spares (ready : Ready t j stage) (committed : t'.committed = t.committed)
    (spares : t.Spares t' j) : Ready t' j stage := by
  have locks : ∀ k v, t.held k = some (j, v) → t'.held k = some (j, v) :=
    fun k v held => spares.locks.mpr held
  cases stage with
  | begun => exact Table.Idle.spares ready spares
  | admitted spell => exact Table.Idle.spares ready spares
  | checked spell =>
      refine ⟨ready.1.spares spares, ?_⟩
      rw [committed]
      exact ready.2
  | closing spell targets => exact fun open_ => (ready open_).congr committed locks
  | closed spell later => exact fun open_ => (ready open_).congr committed locks
  | filed spell later id => exact fun open_ => (ready open_).congr committed locks
  | appointed spell id => exact fun open_ => (ready open_).congr committed locks
  | deleting id targets hit => trivial
  | ended reason => trivial

/-- What is written goes on being so at a later stage. -/
theorem Written.moves (written : Written t k v stage)
    (inserted : ∀ x, stage.inserted = some x → stage'.inserted = some x)
    (deletes : stage.deletes = true → stage'.deletes = true) : Written t k v stage' := by
  obtain closed | ⟨none_, deleting⟩ | ⟨absent, spell, same, filed⟩ := written
  · exact Or.inl closed
  · exact Or.inr (Or.inl ⟨none_, deletes deleting⟩)
  · exact Or.inr (Or.inr ⟨absent, spell, same, inserted _ filed⟩)

/-- What has to be shown of a step of one request. -/
theorem Sound.step (sound : Sound s) (present : s.requests[i]? = some r)
    (known : ∀ k, k ∉ ids → t.committed k = none ∧ t.held k = none)
    (own : ∀ k v, t.held k = some (i, v) → Written t k v stage)
    (spares : ∀ j, j ≠ i → s.spells.Spares t j)
    (one : OneJob { s with spells := t })
    (ready : Ready t i stage)
    (others : ∀ j q, j ≠ i → s.requests[j]? = some q → Ready t j q.stage) :
    Sound ({ s with coaches := coaches, spells := t, spellIDs := ids }.move i r stage) := by
  refine ⟨known, ?_, one, ?_⟩
  · intro k j v held
    by_cases mine : j = i
    · subst mine
      exact ⟨_, (Parties.set_eq_some present).mpr (Or.inl ⟨rfl, rfl⟩), own k v held⟩
    · have before := (spares j mine).locks.mp held
      obtain ⟨q, found, written⟩ := sound.versions k j v before
      refine ⟨q, (Parties.set_eq_some present).mpr (Or.inr ⟨mine, found⟩), ?_⟩
      have same := (spares j mine).rows before
      obtain closed | deleted | ⟨absent, rest⟩ := written
      · exact Or.inl closed
      · exact Or.inr (Or.inl deleted)
      · exact Or.inr (Or.inr ⟨same.trans absent, rest⟩)
  · intro j q found
    obtain ⟨rfl, rfl⟩ | ⟨mine, before⟩ := (Parties.set_eq_some present).mp found
    · exact ready
    · exact others j q mine before

/-- A step that commits nothing. -/
theorem Sound.quiet (sound : Sound s) (present : s.requests[i]? = some r)
    (committed : t.committed = s.spells.committed)
    (known : ∀ k, k ∉ ids → t.committed k = none ∧ t.held k = none)
    (own : ∀ k v, t.held k = some (i, v) → Written t k v stage)
    (spares : ∀ j, j ≠ i → s.spells.Spares t j) (ready : Ready t i stage) :
    Sound ({ s with coaches := coaches, spells := t, spellIDs := ids }.move i r stage) := by
  apply sound.step present known own spares ?_ ready
  · intro j q mine found
    exact (sound.ready j q found).spares committed (spares j mine)
  · intro k k' row row' found found'
    rw [committed] at found found'
    exact sound.one k k' row row' found found'

/-- The versions a request has are its stage's. -/
theorem Sound.own (sound : Sound s) (present : s.requests[i]? = some r)
    (held : s.spells.held k = some (i, v)) : Written s.spells k v r.stage := by
  obtain ⟨q, found, written⟩ := sound.versions k i v held
  rw [present, Option.some.injEq] at found
  exact found ▸ written

/-! ## One step -/

/-- A spell that was inserted goes on being so at a later stage. -/
theorem Passes.inserted {before : Stage} {x : String × CoachSpell}
    (passes : Passes s i before stage) (filed : before.inserted = some x) :
    stage.inserted = some x := by
  cases passes with
  | appoints spell later id => exact filed
  | deletes stage id targets hit from_ =>
      obtain rfl | ⟨targets, rfl⟩ := from_
      · cases filed
      · cases filed
  | _ => cases filed

theorem Passes.deleting {before : Stage} (passes : Passes s i before stage)
    (deletes : before.deletes = true) : stage.deletes = true := by
  cases passes with
  | deletes stage id targets hit from_ => rfl
  | _ => cases deletes

/-- Every row of the spells is known by its key. -/
theorem Sound.mem_spellIDs (sound : Sound s) {row : CoachSpell}
    (found : s.spells.committed k = some row) : k ∈ s.spellIDs := by
  by_contra unknown
  rw [(sound.known k unknown).1] at found
  cases found

/-- The statement that ends the open spells comes to one it does not pick. -/
theorem Covered.leave (covered : Covered t i spell targets)
    (own : ∀ v, t.held k = some (i, v) →
      Written t k v (.closing spell targets))
    (unpicked : ∀ row, t.visible i k = some row → (closePrevious spell).picks k row = false) :
    Covered t i spell (targets.erase k) := by
  intro j row found mine open_
  obtain ⟨early, member | ended⟩ := covered j row found mine open_
  · by_cases same : j = k
    · subst same
      refine ⟨early, Or.inr ?_⟩
      by_cases locked : ∃ v, t.held j = some (i, v)
      · obtain ⟨v, held⟩ := locked
        obtain ⟨row', rfl, closed⟩ | ⟨-, deletes⟩ | ⟨absent, -⟩ := own v held
        · exact ⟨row', held, closed⟩
        · cases deletes
        · rw [absent] at found
          cases found
      · have sees : t.visible i j = some row :=
          (Table.visible_of_not_held fun v held => locked ⟨v, held⟩).trans found
        have picks := unpicked row sees
        simp [closePrevious, mine, open_, early] at picks
    · exact ⟨early, Or.inl ((List.mem_erase_of_ne same).mpr member)⟩
  · exact ⟨early, Or.inr ended⟩

/-- A stage that is passed to has what it needs. -/
theorem Passes.ready {before : Stage} (passes : Passes s i before stage) (sound : Sound s)
    (own : ∀ k v, s.spells.held k = some (i, v) → Written s.spells k v before)
    (ready : Ready s.spells i before) : Ready s.spells i stage := by
  cases passes with
  | admits spell => exact ready
  | checks spell latest =>
      refine ⟨ready, fun open_ k row found mine _ => ?_⟩
      have idle : s.spells.Idle i := ready
      simp only [State.laterExists, List.any_eq_false, idle.visible] at latest
      have none_ := latest k (sound.mem_spellIDs found)
      simpa [found, mine] using none_
  | skips spell ended => exact fun open_ => absurd open_ ended
  | starts spell =>
      intro open_ k row found mine unended
      have early := ready.2 open_ k row found mine unended
      refine ⟨early, Or.inl ?_⟩
      apply List.mem_filter.mpr
      refine ⟨sound.mem_spellIDs found, ?_⟩
      rw [ready.1.visible, found]
      simp [closePrevious, mine, unended, early]
  | leaves spell targets k unpicked =>
      exact fun open_ => (ready open_).leave (own k) unpicked
  | closes spell => exact ready
  | appoints spell later id => exact ready
  | deletes stage id targets hit from_ => trivial

/-- A step that leaves the spells alone. -/
theorem Sound.passes (sound : Sound s) (present : s.requests[i]? = some r)
    (passes : Passes s i r.stage stage) : Sound ({ s with coaches := coaches }.move i r stage) := by
  have own : ∀ k v, s.spells.held k = some (i, v) → Written s.spells k v r.stage :=
    fun k v held => sound.own present held
  apply sound.quiet present (by rfl) sound.known ?_ (fun j _ => .refl _ j) ?_
  · intro k v held
    exact (own k v held).moves (fun x => passes.inserted) passes.deleting
  · exact passes.ready sound own (sound.ready i r present)

/-- A row that is there is known, and stays so when it is written. -/
theorem Sound.known_write (sound : Sound s) {row : CoachSpell}
    (sees : s.spells.visible i k = some row) (version : Option CoachSpell) :
    ∀ j, j ∉ s.spellIDs → (s.spells.write i k version).committed j = none ∧
      (s.spells.write i k version).held j = none := by
  intro j unknown
  obtain ⟨committed, held⟩ := sound.known j unknown
  have other : j ≠ k := by
    rintro rfl
    rw [Table.visible, held, committed] at sees
    cases sees
  exact ⟨committed, (Function.update_of_ne other _ _).trans held⟩

theorem Free.spares (free : Free s.spells i k) (version : Option CoachSpell) :
    ∀ j, j ≠ i → s.spells.Spares (s.spells.write i k version) j :=
  fun _ other => .write free other

/-- The versions a request has after it has written one more row. -/
theorem Sound.own_write (sound : Sound s) (present : s.requests[i]? = some r)
    (inserted : ∀ x, r.stage.inserted = some x → stage.inserted = some x)
    (deletes : r.stage.deletes = true → stage.deletes = true) {version : Option CoachSpell}
    (written : Written s.spells k version stage) :
    ∀ j v, (s.spells.write i k version).held j = some (i, v) →
      Written (s.spells.write i k version) j v stage := by
  intro j v held
  obtain ⟨rfl, -, rfl⟩ | ⟨-, before⟩ := Table.write_held.mp held
  · exact written
  · exact (sound.own present before).moves inserted deletes

/-- An open spell is ended. -/
theorem Sound.close (sound : Sound s) (present : s.requests[i]? = some r)
    (closing : r.stage = .closing spell targets) (free : Free s.spells i k) {row : CoachSpell}
    (sees : s.spells.visible i k = some row) :
    Sound ({ s with
      spells := s.spells.write i k (some { row with endDate := some spell.startDate }) }.move i r
        (.closing spell (targets.erase k))) := by
  have ready := sound.ready i r present
  rw [closing] at ready
  apply sound.quiet present (by rfl) (sound.known_write sees _) ?_ (free.spares _) ?_
  · apply sound.own_write present
    · rw [closing]
      exact nofun
    · rw [closing]
      exact nofun
    · exact Or.inl ⟨_, rfl, by simp⟩
  · intro open_ j other found mine unended
    obtain ⟨early, rest⟩ := ready open_ j other found mine unended
    refine ⟨early, ?_⟩
    by_cases same : j = k
    · subst same
      exact Or.inr ⟨_, Table.write_held.mpr (Or.inl ⟨rfl, rfl, rfl⟩), by simp⟩
    · obtain member | ⟨v, held, ended⟩ := rest
      · exact Or.inl ((List.mem_erase_of_ne same).mpr member)
      · exact Or.inr ⟨v, Table.write_held.mpr (Or.inr ⟨same, held⟩), ended⟩

/-- The spell is inserted. -/
theorem Sound.file (sound : Sound s) (present : s.requests[i]? = some r) {later : Bool}
    (closed : r.stage = .closed spell later) (fresh : k ∉ s.spellIDs) :
    Sound ((insertSpell s i k spell).move i r (.filed spell later k)) := by
  have ready := sound.ready i r present
  rw [closed] at ready
  obtain ⟨absent, unheld⟩ := sound.known k fresh
  have free : Free s.spells i k := by
    intro owner v held
    rw [unheld] at held
    cases held
  apply sound.quiet present (by rfl) ?_ ?_ (free.spares _) ?_
  · intro j unknown
    rw [List.mem_cons, not_or] at unknown
    obtain ⟨committed, held⟩ := sound.known j unknown.2
    exact ⟨committed, (Function.update_of_ne unknown.1 _ _).trans held⟩
  · apply sound.own_write present
    · rw [closed]
      exact nofun
    · rw [closed]
      exact nofun
    · exact Or.inr (Or.inr ⟨absent, spell, rfl, rfl⟩)
  · intro open_
    refine (ready open_).congr (by rfl) ?_
    intro j v held
    refine Table.write_held.mpr (Or.inr ⟨?_, held⟩)
    rintro rfl
    rw [unheld] at held
    cases held

/-- A spell is deleted. -/
theorem Sound.delete (sound : Sound s) (present : s.requests[i]? = some r) {id : String}
    {hit : Bool} (deleting : r.stage = .deleting id targets hit) (free : Free s.spells i k)
    {row : CoachSpell}
    (sees : s.spells.visible i k = some row) :
    Sound ({ s with spells := s.spells.write i k none }.move i r
      (.deleting id (targets.erase k) true)) := by
  apply sound.quiet present (by rfl) (sound.known_write sees _) ?_ (free.spares _) ?_
  · apply sound.own_write present
    · rw [deleting]
      exact nofun
    · exact fun _ => rfl
    · exact Or.inr (Or.inl ⟨rfl, rfl⟩)
  · trivial

/-- A request fails. -/
theorem Sound.fail (sound : Sound s) (present : s.requests[i]? = some r) (reason : AppErr) :
    Sound (s.fail i r reason) := by
  apply sound.quiet present (by rfl) ?_ ?_ (fun j other => .rollback other) ?_
  · intro j unknown
    obtain ⟨committed, held⟩ := sound.known j unknown
    refine ⟨committed, ?_⟩
    change s.spells.others i j = none
    rw [Table.others, held]
  · intro j v held
    exact absurd rfl (Table.rollback_held.mp held).2
  · trivial

/-- An open row that is there after a commit was inserted by it or is untouched. -/
theorem Sound.commit_open (sound : Sound s) (present : s.requests[i]? = some r) {row : CoachSpell}
    (found : (s.spells.commit i).committed k = some row) (open_ : row.endDate = none) :
    (∃ spell, row = { spell with id := k } ∧ r.stage.inserted = some (k, spell)) ∨
      (s.spells.committed k = some row ∧ ∀ v, s.spells.held k ≠ some (i, v)) := by
  obtain held | untouched := Table.commit_eq_some found
  · obtain ⟨row', same, ended⟩ | ⟨absent, -⟩ | ⟨-, spell, same, inserted⟩ := sound.own present held
    · obtain rfl := Option.some.inj same
      exact absurd open_ ended
    · cases absent
    · exact Or.inl ⟨spell, Option.some.inj same, inserted⟩
  · exact Or.inr untouched

/-- A row that was there and is untouched is none that a request which has ended the open
spells of its coach would have left open. -/
theorem Covered.excludes (covered : Covered t i spell []) {row : CoachSpell}
    (found : t.committed k = some row) (unheld : ∀ v, t.held k ≠ some (i, v))
    (mine : row.coachID = spell.coachID) : row.endDate ≠ none := by
  intro open_
  obtain ⟨-, member | ⟨v, held, -⟩⟩ := covered k row found mine open_
  · cases member
  · exact unheld _ held

/-- What another request knows after a commit it does not miss. -/
theorem Ready.commit (sound : Sound s) (present : s.requests[i]? = some r) (other : j ≠ i)
    (ready : Ready s.spells j stage)
    (seen : ∀ k spell, r.stage.inserted = some (k, spell) → spell.endDate = none →
      stage.misses spell = false) : Ready (s.spells.commit i) j stage := by
  have spares : s.spells.Spares (s.spells.commit i) j := .commit other
  have covered : ∀ {spell targets}, Covered s.spells j spell targets →
      (∀ x, stage.misses x = false → x.coachID ≠ spell.coachID) →
      Covered (s.spells.commit i) j spell targets := by
    intro spell targets covered unmissed k row found mine open_
    obtain ⟨x, rfl, inserted⟩ | ⟨before, -⟩ := sound.commit_open present found open_
    · exact absurd mine (unmissed x (seen k x inserted open_))
    · obtain ⟨early, rest⟩ := covered k row before mine open_
      refine ⟨early, rest.imp_right ?_⟩
      rintro ⟨v, held, ended⟩
      exact ⟨v, spares.locks.mpr held, ended⟩
  cases stage with
  | begun => exact Table.Idle.spares ready spares
  | admitted spell => exact Table.Idle.spares ready spares
  | checked spell =>
      refine ⟨ready.1.spares spares, fun ending k row found mine open_ => ?_⟩
      obtain ⟨x, rfl, inserted⟩ | ⟨before, -⟩ := sound.commit_open present found open_
      · have same : spell.coachID = x.coachID := mine.symm
        simpa [Stage.misses, ending, same] using seen k x inserted open_
      · exact ready.2 ending k row before mine open_
  | closing spell _ | closed spell _ | filed spell _ _ | appointed spell _ =>
      intro ending
      apply covered (ready ending)
      intro x unmissed same
      simp [Stage.misses, ending, same] at unmissed
  | deleting id targets hit => trivial
  | ended reason => trivial

/-- A request commits. -/
theorem Sound.finish (sound : Sound s) (present : s.requests[i]? = some r)
    (ready : (∃ spell id, r.stage = .appointed spell id) ∨ ∃ id hit, r.stage = .deleting id [] hit)
    (seen : ∀ spell ∈ r.stage.appointment, spell.endDate = none →
      ∀ j < s.requests.length, j ≠ i → ∀ q ∈ s.requests[j]?, q.stage.misses spell = false) :
    Sound (s.finish i r) := by
  have inserted : ∀ {k spell}, r.stage.inserted = some (k, spell) →
      r.stage = .appointed spell k := by
    intro k spell inserted
    obtain ⟨spell', id, at_⟩ | ⟨id, hit, at_⟩ := ready
    · rw [at_] at inserted ⊢
      cases inserted
      rfl
    · rw [at_] at inserted
      cases inserted
  have excludes : ∀ {k x j row}, r.stage.inserted = some (k, x) → x.endDate = none →
      s.spells.committed j = some row → (∀ v, s.spells.held j ≠ some (i, v)) →
      row.coachID = x.coachID → row.endDate ≠ none := by
    intro k x j row filed ending found unheld mine
    have knows := sound.ready i r present
    rw [inserted filed] at knows
    exact (knows ending).excludes found unheld mine
  apply sound.step present ?_ ?_ (fun j other => .commit other) ?_ ?_ ?_
  · intro j unknown
    obtain ⟨committed, held⟩ := sound.known j unknown
    have unheld : ∀ v, s.spells.held j ≠ some (i, v) := by
      intro v own
      rw [held] at own
      cases own
    refine ⟨(Table.commit_of_not_held unheld).trans committed, ?_⟩
    change s.spells.others i j = none
    rw [Table.others, held]
  · intro j v held
    exact absurd rfl (Table.commit_held.mp held).2
  · intro k k' row row' found found' same open_ open'
    obtain ⟨x, rfl, filed⟩ | ⟨before, unheld⟩ := sound.commit_open present found open_
    · obtain ⟨x', rfl, filed'⟩ | ⟨before', unheld'⟩ := sound.commit_open present found' open'
      · rw [filed, Option.some.injEq, Prod.mk.injEq] at filed'
        exact filed'.1
      · exact absurd open' (excludes filed open_ before' unheld' same.symm)
    · obtain ⟨x', rfl, filed'⟩ | ⟨before', unheld'⟩ := sound.commit_open present found' open'
      · exact absurd open_ (excludes filed' open' before unheld same)
      · exact sound.one k k' row row' before before' same open_ open'
  · trivial
  · intro j q other found
    apply (sound.ready j q found).commit sound present other
    intro k x filed ending
    apply seen x ?_ ending j (List.getElem?_eq_some_iff.mp found).1 other q found
    rw [inserted filed]
    rfl

/-- A request arrives. -/
theorem Sound.arrive (sound : Sound s) (kind : Kind) :
    Sound { s with requests := s.requests ++ [⟨kind, .begun⟩] } := by
  refine ⟨sound.known, ?_, sound.one, ?_⟩
  · intro k i v held
    obtain ⟨r, found, written⟩ := sound.versions k i v held
    exact ⟨r, Parties.append_eq_some.mpr (Or.inl found), written⟩
  · intro i r found
    obtain before | ⟨rfl, rfl⟩ := Parties.append_eq_some.mp found
    · exact sound.ready i r before
    · intro k v held
      obtain ⟨r, found, -⟩ := sound.versions k _ v held
      simp at found

end Frame

/-- One step keeps it all, provided no commit is missed. -/
theorem Sound.next {s s' : State} {label : Label} (sound : Sound s) (seen : Seen s label)
    (next : recording.next s label = some s') : Sound s' := by
  obtain ⟨kind, rfl, rfl⟩ | ⟨i, d, r, rfl, present, advance⟩ | ⟨i, r, present, rfl⟩ :=
    recording_next next
  · exact sound.arrive kind
  · cases advance with
    | passes stage coaches passes => exact sound.passes present passes
    | closes spell targets k row closing free sees => exact sound.close present closing free sees
    | files spell later id closed fresh => exact sound.file present closed fresh
    | deletes id targets hit k row deleting free sees =>
        exact sound.delete present deleting free sees
    | commits ready => exact sound.finish present ready (seen r present)
    | fails reason => exact sound.fail present reason
  · exact sound.fail present .internal

/-- A service without spells is sound. -/
theorem sound_start {s : State} (start : recording.start s) : Sound s := by
  obtain ⟨-, spells, -, requests⟩ := start
  refine ⟨?_, ?_, ?_, ?_⟩
  · intro k unknown
    rw [spells]
    exact ⟨rfl, rfl⟩
  · intro k i v held
    rw [spells] at held
    cases held
  · intro k k' row row' found
    rw [spells] at found
    cases found
  · intro i r present
    rw [requests] at present
    cases present

/-- **No coach holds two jobs**, in every state of every run in which no commit of an open
spell is missed by a request that is recording another. -/
theorem one_job {s : State} (reach : recording.Reach Seen s) : OneJob s := by
  have sound : Sound s := reach.invariant sound_start Sound.next
  exact sound.one

section Runs

def kim : Coach := ⟨none, ⟨"Kim", none, none, none, none, none⟩⟩

/-- Two clubs and a coach without one. -/
def founded : State where
  teams team := team ∈ ["home", "away"]
  coaches := ⟨fun id => if id = "kim" then some kim else none, fun _ => none⟩
  spells := .empty
  spellIDs := []
  requests := []

/-- An administrator appoints the coach. -/
def appointing (teamID : String) (startDate : Date) : Label :=
  .arrive (.recordSpell ⟨some ⟨"root", .admin, "root"⟩, fun _ _ => .ok false⟩
    ⟨"", "kim", some teamID, "", Dates.ofDay startDate, none⟩)

/-- A request takes a number of steps, each with the same key at hand. -/
def steps (i n : ℕ) (id : String) : List Label :=
  List.replicate n (.advance i ⟨id, Dates.midnight 1000⟩)

/-- Everyone has had an answer, and nothing went wrong. -/
def State.answered (s : State) : Bool := s.requests.all fun r => r.stage = .ended none

/-- Two appointments, one after the other. -/
def inTurn : List Label :=
  [appointing "home" 100] ++ steps 0 7 "first" ++ [appointing "away" 200] ++
    steps 1 4 "first" ++ steps 1 4 "second"

/-- Two spells recorded in turn leave the coach with one job. -/
theorem one_job_in_turn :
    let s := recording.after Seen founded inTurn
    OneJob s ∧ s.answered = true ∧ (s.spells.committed "second").isSome = true :=
  ⟨one_job (Machine.reach_after ⟨rfl, rfl, rfl, rfl⟩ (by decide +kernel)), by decide +kernel⟩

/-- Two appointments, each of which has looked for open spells before the other's is
committed. -/
def atOnce : List Label :=
  [appointing "home" 100, appointing "away" 200] ++ steps 0 4 "first" ++ steps 1 4 "second" ++
    steps 0 3 "first" ++ steps 1 3 "second"

/-- A spell of a coach is open. -/
def State.employs (s : State) (coachID id : String) : Bool :=
  (s.spells.committed id).any fun row => row.coachID = coachID && row.endDate.isNone

/-- A coach with one job is employed once. -/
theorem OneJob.employs {s : State} {coachID id id' : String} (one : OneJob s)
    (first : s.employs coachID id = true) (second : s.employs coachID id' = true) : id = id' := by
  simp only [State.employs, Option.any_eq_true, Bool.and_eq_true, decide_eq_true_eq,
    Option.isNone_iff_eq_none] at first second
  obtain ⟨row, found, mine, open_⟩ := first
  obtain ⟨row', found', mine', open'⟩ := second
  exact one id id' row row' found found' (mine.trans mine'.symm) open_ open'

/-- Two spells recorded at once leave the coach with two jobs. -/
theorem two_jobs :
    let s := recording.after Machine.always founded atOnce
    recording.Reach Machine.always s ∧ s.answered = true ∧ ¬ OneJob s := by
  refine ⟨Machine.reach_after ⟨rfl, rfl, rfl, rfl⟩ (by decide +kernel), by decide +kernel, ?_⟩
  intro one
  have first : (recording.after Machine.always founded atOnce).employs "kim" "first" = true := by
    decide +kernel
  have second : (recording.after Machine.always founded atOnce).employs "kim" "second" = true := by
    decide +kernel
  exact absurd (one.employs first second) (by decide)

end Runs

end ScoutPulse.Coaches.Recording
