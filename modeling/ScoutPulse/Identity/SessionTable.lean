import ScoutPulse.Identity.SessionSteps

/-!
# What holds of the table

Whatever the requests are up to, a key is only ever one session's, a row only ever
changes into a later version of itself, and a row that is gone stays gone.
-/

namespace ScoutPulse.Identity

open ReadCommitted

/-- A row of the session that was inserted under its key. -/
def Minted (minted : List Mint) (k : String) (row : Session) : Prop :=
  ∃ m ∈ minted, m.id = k ∧ m.hash = row.token.tokenHash ∧ m.userID = row.token.userID ∧
    m.generation = row.generation

/-- The table's own invariant. -/
structure Versions (t : Table String Session ℕ) (minted : List Mint) : Prop where
  ids : (minted.map Mint.id).Nodup
  hashes : (minted.map Mint.hash).Nodup
  committed : ∀ k row, t.committed k = some row → Minted minted k row ∧ row.Marked
  held : ∀ k owner row, t.held k = some (owner, some row) → Minted minted k row ∧ row.Marked
  keys : ∀ k owner version, t.held k = some (owner, version) → k ∈ minted.map Mint.id
  later : ∀ k owner row row', t.committed k = some row →
    t.held k = some (owner, some row') → row.Later row'

/-- What one step does to the table. -/
inductive Effect (s : Sessions) (i : ℕ) : Table String Session ℕ → List Mint → Prop
  | same : Effect s i s.tokens s.minted
  | inserted (d : Draw) (userID : String) (generation : ℕ)
      (fresh : s.fresh d.id (HashToken d.token) = true) :
      Effect s i (insertRow s i d userID generation).tokens
        (insertRow s i d userID generation).minted
  | signedIn (d : Draw) (userID : String) (generation : ℕ)
      (fresh : s.fresh d.id (HashToken d.token) = true) :
      Effect s i ((insertRow s i d userID generation).tokens.commit i)
        (insertRow s i d userID generation).minted
  | changed (c : Command) (k : String) (row : Session)
      (free : ∀ owner v, s.tokens.held k = some (owner, v) → owner = i)
      (sees : s.tokens.visible i k = some row) (picked : c.picks k row = true) :
      Effect s i (s.tokens.write i k (c.change row)) s.minted
  | committed : Effect s i (s.tokens.commit i) s.minted
  | rolledBack : Effect s i (s.tokens.rollback i) s.minted

/-- What a step does to the tokens is one of the effects. -/
theorem Advance.effect {s s' : Sessions} {i : ℕ} {r : Request} (advance : Advance s i r s') :
    Effect s i s'.tokens s'.minted := by
  cases advance with
  | refuses => exact .same
  | loads => exact .same
  | permits => exact .same
  | signs => exact .same
  | checks => exact .same
  | changes => exact .same
  | starts => exact .same
  | exchanges => exact .same
  | unlinks => exact .same
  | inserts old stored d permitted fresh => exact .inserted d _ _ fresh
  | signsIn userID user d generation signing found fresh => exact .signedIn d _ _ fresh
  | visits c targets affected k row executing member free sees picked =>
      exact .changed c k row free sees picked
  | passes => exact .same
  | loses => exact .rolledBack
  | wins => exact .same
  | commits => exact .committed
  | completes => exact .committed

/-- An id and a hash that are new have not been minted. -/
theorem fresh_spec {s : Sessions} {id : String} {hash : TokenHash}
    (fresh : s.fresh id hash = true) :
    id ∉ s.minted.map Mint.id ∧ hash ∉ s.minted.map Mint.hash := by
  have both : ∀ m ∈ s.minted, m.id ≠ id ∧ m.hash ≠ hash := by
    intro m member
    simpa only [Bool.and_eq_true, decide_eq_true_eq] using List.all_eq_true.mp fresh m member
  constructor
  · intro used
    obtain ⟨m, member, same⟩ := List.mem_map.mp used
    exact (both m member).1 same
  · intro used
    obtain ⟨m, member, same⟩ := List.mem_map.mp used
    exact (both m member).2 same

/-- A row that was minted has its id among those minted. -/
theorem Minted.mem {minted : List Mint} {k : String} {row : Session}
    (isMinted : Minted minted k row) : k ∈ minted.map Mint.id := by
  obtain ⟨m, member, rfl, -⟩ := isMinted
  exact List.mem_map_of_mem member

theorem Minted.cons {minted : List Mint} {k : String} {row : Session}
    (isMinted : Minted minted k row) (mint : Mint) : Minted (mint :: minted) k row := by
  obtain ⟨m, member, same⟩ := isMinted
  exact ⟨m, List.mem_cons_of_mem _ member, same⟩

theorem Minted.later {minted : List Mint} {k : String} {row row' : Session}
    (isMinted : Minted minted k row) (later : row.Later row') : Minted minted k row' := by
  obtain ⟨m, member, id, hash, userID, generation⟩ := isMinted
  exact ⟨m, member, id, hash.trans later.tokenHash.symm, userID.trans later.userID.symm,
    generation.trans later.generation.symm⟩

namespace Versions

variable {t : Table String Session ℕ} {minted : List Mint} {i : ℕ} {k : String}
  {row row' : Session}

/-- A key that no row has been given has none, committed or not. -/
theorem absent (versions : Versions t minted) (unused : k ∉ minted.map Mint.id) :
    t.committed k = none ∧ t.held k = none := by
  constructor
  · by_contra found
    obtain ⟨row, found⟩ := Option.ne_none_iff_exists'.mp found
    exact unused (versions.committed k row found).1.mem
  · by_contra found
    obtain ⟨⟨owner, version⟩, found⟩ := Option.ne_none_iff_exists'.mp found
    exact unused (versions.keys k owner version found)

/-- Whatever a request sees is a row of its key's session. -/
theorem visible (versions : Versions t minted) (sees : t.visible i k = some row) :
    Minted minted k row ∧ row.Marked := by
  rcases Table.visible_eq_some sees with held | ⟨committed, -⟩
  · exact versions.held k i row held
  · exact versions.committed k row committed

/-- Whatever a request sees is a later version of what is committed. -/
theorem visible_later (versions : Versions t minted) (committed : t.committed k = some row)
    (sees : t.visible i k = some row') : row.Later row' := by
  rcases Table.visible_eq_some sees with held | ⟨same, -⟩
  · exact versions.later k i row row' committed held
  · rw [committed, Option.some.injEq] at same
    subst same
    exact .refl row

/-- A table without rows has good versions. -/
theorem empty : Versions .empty [] := by
  refine ⟨List.nodup_nil, List.nodup_nil, ?_, ?_, ?_, ?_⟩
  · intro k row found
    cases found
  · intro k owner row found
    cases found
  · intro k owner version found
    cases found
  · intro k owner row row' found
    cases found

/-- Giving back locks, and committing, keeps the invariant. -/
theorem rollback (versions : Versions t minted) (i : ℕ) : Versions (t.rollback i) minted := by
  refine ⟨versions.ids, versions.hashes, versions.committed, ?_, ?_, ?_⟩
  · intro k owner row held
    exact versions.held k owner row (Table.rollback_held.mp held).1
  · intro k owner version held
    exact versions.keys k owner version (Table.rollback_held.mp held).1
  · intro k owner row row' committed held
    exact versions.later k owner row row' committed (Table.rollback_held.mp held).1

/-- A commit leaves good versions. -/
theorem commit (versions : Versions t minted) (i : ℕ) : Versions (t.commit i) minted := by
  refine ⟨versions.ids, versions.hashes, fun k row found => versions.visible found, ?_, ?_, ?_⟩
  · intro k owner row held
    exact versions.held k owner row (Table.commit_held.mp held).1
  · intro k owner version held
    exact versions.keys k owner version (Table.commit_held.mp held).1
  · intro k owner row row' committed held
    obtain ⟨held, other⟩ := Table.commit_held.mp held
    -- The committer does not have this lock, so the row is as it was.
    have unheld : ∀ v, t.held k ≠ some (i, v) := by
      intro v own
      rw [held, Option.some.injEq, Prod.mk.injEq] at own
      exact other own.1
    rw [Table.commit_of_not_held unheld] at committed
    exact versions.later k owner row row' committed held

/-- A good version may be written where it is later than the one committed. -/
theorem write (versions : Versions t minted) {version : Option Session}
    (used : k ∈ minted.map Mint.id)
    (good : ∀ row', version = some row' → Minted minted k row' ∧ row'.Marked)
    (later : ∀ row row', t.committed k = some row → version = some row' → row.Later row') :
    Versions (t.write i k version) minted := by
  refine ⟨versions.ids, versions.hashes, versions.committed, ?_, ?_, ?_⟩
  · intro j owner row held
    obtain ⟨rfl, -, same⟩ | ⟨-, old⟩ := Table.write_held.mp held
    · exact good row same
    · exact versions.held j owner row old
  · intro j owner version' held
    obtain ⟨rfl, -, -⟩ | ⟨-, old⟩ := Table.write_held.mp held
    · exact used
    · exact versions.keys j owner version' old
  · intro j owner row row' committed held
    obtain ⟨rfl, -, same⟩ | ⟨-, old⟩ := Table.write_held.mp held
    · exact later row row' committed same
    · exact versions.later j owner row row' committed old

/-- One more id and hash leave the versions good, if both are new. -/
theorem cons (versions : Versions t minted) {mint : Mint} (id : mint.id ∉ minted.map Mint.id)
    (hash : mint.hash ∉ minted.map Mint.hash) : Versions t (mint :: minted) := by
  refine ⟨?_, ?_, ?_, ?_, ?_, versions.later⟩
  · rw [List.map_cons]
    exact versions.ids.cons id
  · rw [List.map_cons]
    exact versions.hashes.cons hash
  · intro k row found
    obtain ⟨isMinted, marked⟩ := versions.committed k row found
    exact ⟨isMinted.cons mint, marked⟩
  · intro k owner row found
    obtain ⟨isMinted, marked⟩ := versions.held k owner row found
    exact ⟨isMinted.cons mint, marked⟩
  · intro k owner version found
    exact List.mem_cons_of_mem _ (versions.keys k owner version found)

/-- Inserting a row leaves good versions. -/
theorem inserted {s : Sessions} (versions : Versions s.tokens s.minted) {d : Draw}
    (fresh : s.fresh d.id (HashToken d.token) = true) (userID : String) (generation : ℕ) :
    Versions (insertRow s i d userID generation).tokens
      (insertRow s i d userID generation).minted := by
  obtain ⟨id, hash⟩ := fresh_spec fresh
  have extended : Versions s.tokens (insertRow s i d userID generation).minted :=
    versions.cons id hash
  refine extended.write List.mem_cons_self ?_ ?_
  · rintro row' ⟨rfl⟩
    exact ⟨⟨_, List.mem_cons_self, rfl, rfl, rfl, rfl⟩, Session.new_marked _ _ _ _⟩
  · intro row row' committed
    rw [(versions.absent id).1] at committed
    cases committed

end Versions

/-- Every step keeps the table's invariant. -/
theorem Effect.versions {s : Sessions} {i : ℕ} {t : Table String Session ℕ} {minted : List Mint}
    (effect : Effect s i t minted) (versions : Versions s.tokens s.minted) : Versions t minted := by
  cases effect with
  | same => exact versions
  | inserted d userID generation fresh => exact versions.inserted fresh userID generation
  | signedIn d userID generation fresh => exact (versions.inserted fresh userID generation).commit i
  | changed c k row free sees picked =>
      obtain ⟨isMinted, marked⟩ := versions.visible sees
      refine versions.write isMinted.mem ?_ ?_
      · intro row' changed
        obtain ⟨later, marks⟩ := Command.change_later picked changed
        exact ⟨isMinted.later later, marks marked⟩
      · intro first row' committed changed
        exact (versions.visible_later committed sees).trans (Command.change_later picked changed).1
  | committed => exact versions.commit i
  | rolledBack => exact versions.rollback i

/-! ## Other requests -/

/-- A step leaves the locks of every other request as they are. -/
theorem Effect.locks {s : Sessions} {i j : ℕ} {t : Table String Session ℕ} {minted : List Mint}
    (effect : Effect s i t minted) (versions : Versions s.tokens s.minted) (other : j ≠ i)
    {k : String} {v : Option Session} : t.held k = some (j, v) ↔ s.tokens.held k = some (j, v) := by
  have insertion : ∀ {d : Draw} (userID : String) (generation : ℕ),
      s.fresh d.id (HashToken d.token) = true →
      ((insertRow s i d userID generation).tokens.held k = some (j, v) ↔
        s.tokens.held k = some (j, v)) := by
    intro d userID generation fresh
    obtain ⟨-, unlocked⟩ := versions.absent (fresh_spec fresh).1
    refine Table.write_held.trans ?_
    constructor
    · rintro (⟨-, same, -⟩ | ⟨-, old⟩)
      · exact absurd same.symm other
      · exact old
    · intro old
      refine Or.inr ⟨?_, old⟩
      rintro rfl
      rw [unlocked] at old
      cases old
  cases effect with
  | same => rfl
  | inserted d userID generation fresh => exact insertion userID generation fresh
  | signedIn d userID generation fresh =>
      rw [Table.commit_held, insertion userID generation fresh]
      exact ⟨fun both => both.1, fun held => ⟨held, other⟩⟩
  | changed c k' row free sees picked =>
      rw [Table.write_held]
      constructor
      · rintro (⟨-, same, -⟩ | ⟨-, old⟩)
        · exact absurd same.symm other
        · exact old
      · intro old
        refine Or.inr ⟨?_, old⟩
        rintro rfl
        exact other (free j v old)
  | committed =>
      rw [Table.commit_held]
      exact ⟨fun both => both.1, fun held => ⟨held, other⟩⟩
  | rolledBack =>
      rw [Table.rollback_held]
      exact ⟨fun both => both.1, fun held => ⟨held, other⟩⟩

/-- A step leaves the rows alone that another request has locked. -/
theorem Effect.locked_rows {s : Sessions} {i j : ℕ} {t : Table String Session ℕ}
    {minted : List Mint} (effect : Effect s i t minted) (versions : Versions s.tokens s.minted)
    (other : j ≠ i) {k : String} {v : Option Session} (held : s.tokens.held k = some (j, v)) :
    t.committed k = s.tokens.committed k := by
  have foreign : ∀ w, s.tokens.held k ≠ some (i, w) := by
    intro w own
    rw [held, Option.some.injEq, Prod.mk.injEq] at own
    exact other own.1
  cases effect with
  | same => rfl
  | inserted d userID generation fresh => rfl
  | signedIn d userID generation fresh =>
      refine Table.commit_of_not_held ?_
      intro w own
      obtain ⟨same, -, -⟩ | ⟨-, old⟩ := Table.write_held.mp own
      · rw [same, (versions.absent (fresh_spec fresh).1).2] at held
        cases held
      · exact foreign w old
  | changed c k' row free sees picked => rfl
  | committed => exact Table.commit_of_not_held foreign
  | rolledBack => rfl

/-! ## Over a run -/

/-- A key whose row was deleted, or never stored. -/
structure Gone (s : Sessions) (k : String) : Prop where
  used : k ∈ s.minted.map Mint.id
  row : s.tokens.committed k = none
  lock : s.tokens.held k = none

/-- How the table may differ from an earlier one: every row is a later version of
itself or gone, and what was gone still is. -/
structure Evolves (s s' : Sessions) : Prop where
  minted : ∀ m ∈ s.minted, m ∈ s'.minted
  row : ∀ k row, s.tokens.committed k = some row →
    (∃ row', s'.tokens.committed k = some row' ∧ row.Later row') ∨ Gone s' k
  gone : ∀ k, Gone s k → Gone s' k

theorem Evolves.refl (s : Sessions) : Evolves s s :=
  ⟨fun _ member => member, fun _ row found => Or.inl ⟨row, found, .refl row⟩, fun _ gone => gone⟩

/-- What evolves twice evolves. -/
theorem Evolves.trans {s s' s'' : Sessions} (first : Evolves s s') (second : Evolves s' s'') :
    Evolves s s'' := by
  refine ⟨fun m member => second.minted m (first.minted m member), ?_,
    fun k gone => second.gone k (first.gone k gone)⟩
  intro k row found
  rcases first.row k row found with ⟨row', found', later⟩ | gone
  · rcases second.row k row' found' with ⟨row'', found'', later'⟩ | gone
    · exact Or.inl ⟨row'', found'', later.trans later'⟩
    · exact Or.inr gone
  · exact Or.inr (second.gone k gone)

/-- A commit turns rows into later versions or takes them away. -/
theorem evolves_commit {s s' : Sessions} {i : ℕ} (versions : Versions s.tokens s.minted)
    (tokens : s'.tokens = s.tokens.commit i) (minted : s'.minted = s.minted) : Evolves s s' := by
  have unlocks : ∀ k, (∀ owner v, s.tokens.held k = some (owner, v) → owner = i) →
      s'.tokens.held k = none := by
    intro k own
    by_contra locked
    obtain ⟨⟨owner, v⟩, held⟩ := Option.ne_none_iff_exists'.mp locked
    rw [tokens, Table.commit_held] at held
    exact held.2 (own owner v held.1)
  refine ⟨fun m member => minted ▸ member, ?_, ?_⟩
  · intro k row found
    by_cases own : ∃ v, s.tokens.held k = some (i, v)
    · obtain ⟨v, held⟩ := own
      have now : s'.tokens.committed k = v := by
        rw [tokens]
        exact Table.commit_of_held held
      cases v with
      | none =>
          refine Or.inr ⟨minted ▸ versions.keys k i none held, now, unlocks k ?_⟩
          intro owner v other
          rw [held, Option.some.injEq, Prod.mk.injEq] at other
          exact other.1.symm
      | some row' => exact Or.inl ⟨row', now, versions.later k i row row' found held⟩
    · have now : s'.tokens.committed k = s.tokens.committed k := by
        rw [tokens]
        exact Table.commit_of_not_held fun v held => own ⟨v, held⟩
      exact Or.inl ⟨row, now.trans found, .refl row⟩
  · intro k gone
    refine ⟨minted ▸ gone.used, ?_, unlocks k ?_⟩
    · rw [tokens, Table.commit_of_not_held]
      · exact gone.row
      · intro v held
        rw [gone.lock] at held
        cases held
    · intro owner v held
      rw [gone.lock] at held
      cases held

/-- A step that commits nothing and unlocks or locks only rows that are there. -/
theorem evolves_of_committed {s s' : Sessions} (minted : ∀ m ∈ s.minted, m ∈ s'.minted)
    (rows : s'.tokens.committed = s.tokens.committed)
    (locks : ∀ k, Gone s k → s'.tokens.held k = none) : Evolves s s' := by
  refine ⟨minted, fun k row found => Or.inl ⟨row, rows ▸ found, .refl row⟩, ?_⟩
  intro k gone
  obtain ⟨m, member, same⟩ := List.mem_map.mp gone.used
  exact ⟨List.mem_map.mpr ⟨m, minted m member, same⟩, rows ▸ gone.row, locks k gone⟩

/-- A row that is inserted is one more. -/
theorem evolves_insert {s s' : Sessions} {i : ℕ} {d : Draw} {userID : String} {generation : ℕ}
    (fresh : s.fresh d.id (HashToken d.token) = true)
    (tokens : s'.tokens = (insertRow s i d userID generation).tokens)
    (minted : s'.minted = (insertRow s i d userID generation).minted) : Evolves s s' := by
  refine evolves_of_committed ?_ (by rw [tokens]; rfl) ?_
  · intro m member
    rw [minted]
    exact List.mem_cons_of_mem _ member
  · intro k gone
    have other : k ≠ d.id := fun same => (fresh_spec fresh).1 (same ▸ gone.used)
    rw [tokens]
    exact (Function.update_of_ne other _ _).trans gone.lock

/-- Each effect makes the sessions evolve. -/
theorem Effect.evolves {s s' : Sessions} {i : ℕ} (effect : Effect s i s'.tokens s'.minted)
    (versions : Versions s.tokens s.minted) : Evolves s s' := by
  generalize tokens : s'.tokens = t at effect
  generalize minted : s'.minted = ms at effect
  cases effect with
  | same =>
      refine evolves_of_committed (fun m member => minted ▸ member) (by rw [tokens]) ?_
      exact fun k gone => tokens ▸ gone.lock
  | inserted d userID generation fresh => exact evolves_insert fresh tokens minted
  | signedIn d userID generation fresh =>
      have inserts : Evolves s (insertRow s i d userID generation) :=
        evolves_insert fresh rfl rfl
      exact inserts.trans (evolves_commit (versions.inserted fresh userID generation) tokens minted)
  | changed c k row free sees picked =>
      refine evolves_of_committed (fun m member => minted ▸ member) (by rw [tokens]; rfl) ?_
      intro k' gone
      have other : k' ≠ k := by
        rintro rfl
        rcases Table.visible_eq_some sees with held | ⟨found, -⟩
        · rw [gone.lock] at held
          cases held
        · rw [gone.row] at found
          cases found
      rw [tokens]
      exact (Function.update_of_ne other _ _).trans gone.lock
  | committed => exact evolves_commit versions tokens minted
  | rolledBack =>
      refine evolves_of_committed (fun m member => minted ▸ member) (by rw [tokens]; rfl) ?_
      intro k gone
      by_contra locked
      obtain ⟨⟨owner, v⟩, held⟩ := Option.ne_none_iff_exists'.mp locked
      rw [tokens, Table.rollback_held, gone.lock] at held
      cases held.1

section Runs

variable {compare : String → String → Bool} {ok : Sessions → Label → Prop} {s s' : Sessions}

/-- Whatever the service does next is an effect of some request. -/
theorem sessions_effect {label : Label} (next : (sessions compare).next s label = some s') :
    ∃ i, Effect s i s'.tokens s'.minted := by
  obtain ⟨kind, -, rfl⟩ | ⟨i, d, r, -, -, advance⟩ | ⟨i, r, -, -, -, rfl⟩ := sessions_next next
  · exact ⟨0, .same⟩
  · exact ⟨i, advance.effect⟩
  · exact ⟨i, .rolledBack⟩

/-- So the versions stay good. -/
theorem versions_next {label : Label} (versions : Versions s.tokens s.minted)
    (next : (sessions compare).next s label = some s') : Versions s'.tokens s'.minted := by
  obtain ⟨i, effect⟩ := sessions_effect next
  exact effect.versions versions

/-- They are, in every state reached. -/
theorem versions_of_reach (reached : (sessions compare).Reach ok s) :
    Versions s.tokens s.minted := by
  refine reached.invariant (P := fun s => Versions s.tokens s.minted) ?_ ?_
  · rintro t ⟨tokens, minted, -⟩
    rw [tokens, minted]
    exact .empty
  · intro t t' label versions _ next
    exact versions_next versions next

/-- The sessions evolve along every run. -/
theorem evolves_of_leads (versions : Versions s.tokens s.minted)
    (leads : (sessions compare).Leads ok s s') : Evolves s s' := by
  refine leads.relation (P := fun s => Versions s.tokens s.minted) versions Evolves.refl
    Evolves.trans ?_ ?_
  · intro t t' label held _ next
    exact versions_next held next
  · intro t t' label held _ next
    obtain ⟨i, effect⟩ := sessions_effect next
    exact effect.evolves held

end Runs

end ScoutPulse.Identity
