import ScoutPulse.Football.Members.Boards
import ScoutPulse.Lib.Parties

/-!
# What holds of members' boards

Every board that is stored has an address of its own and passed the checks of its service. A
member's boards are touched by nobody else but an administrator who deletes one. What one
account can store is bounded, up to the requests of its own that run at the same time, and what
an account leaves that is deleted by its creates that come too late.
-/

namespace ScoutPulse.Boards

open Strings Outcome

/-! ## Spec lemmas -/

/-- What the service lets through. -/
structure Valid (board : TacticInput) : Prop where
  title_ne : board.title ≠ ""
  title_trimmed : trimSpace board.title = board.title
  title_short : runeCount board.title ≤ maxTacticTitleLength
  description_trimmed : trimSpace board.description = board.description
  description_short : runeCount board.description ≤ maxTacticDescriptionLength
  content_short : byteLen board.content ≤ maxTacticContentBytes

theorem validateTactic_ok {input board : TacticInput} (ok : validateTactic input = .ok board) :
    Valid board := by
  simp only [validateTactic, guard_ok_iff, pure_ok_iff] at ok
  obtain ⟨title_ne, title_short, description_short, -, content_short, -, rfl⟩ := ok
  exact ⟨title_ne, trimSpace_trimSpace _, Nat.le_of_not_lt title_short, trimSpace_trimSpace _,
    Nat.le_of_not_lt description_short, Nat.le_of_not_lt content_short⟩

/-- A document that is stored is an object. -/
theorem stored_eq_some {content : String} {document : Json}
    (kept : stored content = some document) :
    ∃ members, document = .obj members := by
  rw [stored] at kept
  split at kept
  next members _ => exact ⟨members, (Option.some.inj kept).symm⟩
  next => cases kept

/-- Every address that is drawn is one that is looked up. -/
theorem validSlug_randomSlug (draw : Draw) : validSlug (randomSlug draw) = true := by
  have ascii : slugAlphabet.all (·.utf8Size == 1) = true := by decide +kernel
  have drawn : ∀ c ∈ (randomSlug draw).toList, c ∈ slugAlphabet := by
    intro c member
    rw [randomSlug, String.toList_ofList, List.mem_ofFn] at member
    obtain ⟨i, rfl⟩ := member
    exact List.get_mem _ _
  rw [validSlug, Bool.and_eq_true, decide_eq_true_eq, List.all_eq_true]
  refine ⟨?_, fun c member => List.contains_iff_mem.mpr (drawn c member)⟩
  rw [byteLen_eq_length fun c member =>
      beq_iff_eq.mp (List.all_eq_true.mp ascii c (drawn c member)), randomSlug,
    String.toList_ofList, List.length_ofFn]

theorem signedIn_ok {caller : Option Claims} {claims : Claims} (ok : signedIn caller = .ok claims) :
    caller = some claims := by
  cases caller with
  | none => cases ok
  | some given => exact congrArg some (Except.ok.inj ok)

theorem get_ok {s : State} {slug : String} {board : TacticBoard} (ok : get s slug = .ok board) :
    Owned.find (·.slug) slug s.boards = some board := by
  rw [get] at ok
  split at ok
  · cases ok
  · split at ok
    next => cases ok
    next board' found => rw [found, Except.ok.inj ok]

/-- What a request that goes on to write has seen. -/
inductive Decided (s : State) (claims : Claims) : Operation → Write → Prop
  | insert {input board : TacticInput} (valid : Valid board)
      (room : countByOwner s claims.userID < maxTacticBoardsPerOwner) :
      Decided s claims (.create input) (.insert board 3)
  | store {slug : String} {input board : TacticInput} {existing : TacticBoard}
      (found : Owned.find (·.slug) slug s.boards = some existing)
      (own : existing.ownerID = claims.userID) (valid : Valid board) :
      Decided s claims (.update slug input) (.store slug board)
  | remove {slug : String} {existing : TacticBoard}
      (found : Owned.find (·.slug) slug s.boards = some existing)
      (may : existing.ownerID = claims.userID ∨ claims.role = .admin) :
      Decided s claims (.delete slug) (.remove slug)

/-- A write that is decided is the caller's, and one of the decisions. -/
theorem decideWrite_ok {s : State} {caller : Option Claims} {operation : Operation} {p : Pending}
    (ok : decideWrite s caller operation = .ok p) :
    caller = some p.claims ∧ Decided s p.claims operation p.write := by
  cases operation with
  | create input =>
      obtain ⟨claims, signed, ok⟩ := bind_ok_iff.mp ok
      obtain ⟨board, valid, ok⟩ := bind_ok_iff.mp ok
      obtain ⟨room, ok⟩ := guard_ok_iff.mp ok
      obtain rfl := pure_ok_iff.mp ok
      exact ⟨signedIn_ok signed, .insert (validateTactic_ok valid) (Nat.lt_of_not_le room)⟩
  | update slug input =>
      obtain ⟨claims, signed, ok⟩ := bind_ok_iff.mp ok
      obtain ⟨existing, found, ok⟩ := bind_ok_iff.mp ok
      obtain ⟨own, ok⟩ := guard_ok_iff.mp ok
      obtain ⟨board, valid, ok⟩ := bind_ok_iff.mp ok
      obtain rfl := pure_ok_iff.mp ok
      exact ⟨signedIn_ok signed, .store (get_ok found) (not_not.mp own) (validateTactic_ok valid)⟩
  | delete slug =>
      obtain ⟨claims, signed, ok⟩ := bind_ok_iff.mp ok
      obtain ⟨existing, found, ok⟩ := bind_ok_iff.mp ok
      obtain ⟨may, ok⟩ := guard_ok_iff.mp ok
      obtain rfl := pure_ok_iff.mp ok
      refine ⟨signedIn_ok signed, .remove (get_ok found) ?_⟩
      rcases not_and_or.mp may with own | admin
      · exact .inl (not_not.mp own)
      · exact .inr (not_not.mp admin)

/-- The ways a step changes the table and the pending requests. -/
inductive Step (s : State) : Label → State → Prop
  | arrive {caller : Option Claims} {operation : Operation} {p : Pending}
      (signed : caller = some p.claims) (decided : Decided s p.claims operation p.write) :
      Step s (.arrive caller operation) { s with pending := s.pending ++ [p] }
  | refuse {caller : Option Claims} {operation : Operation} : Step s (.arrive caller operation) s
  | insert {k : ℕ} {p : Pending} {draw : Draw} {now : Time} {board : TacticInput} {attempts : ℕ}
      {content : Json} (sender : s.pending[k]? = some p) (write : p.write = .insert board attempts)
      (kept : stored board.content = some content)
      (free : Owned.find (·.slug) (randomSlug draw) s.boards = none) :
      Step s (.send k draw now)
        { boards := s.boards ++ [⟨randomSlug draw, p.claims.userID, p.claims.username, board.title,
            board.description, content, now, now⟩]
          pending := s.pending.eraseIdx k }
  | retry {k : ℕ} {p : Pending} {draw : Draw} {now : Time} {board : TacticInput} {attempts : ℕ}
      (sender : s.pending[k]? = some p) (write : p.write = .insert board attempts) :
      Step s (.send k draw now)
        { s with pending := s.pending.set k { p with write := .insert board (attempts - 1) } }
  | store {k : ℕ} {p : Pending} {draw : Draw} {now : Time} {slug : String} {board : TacticInput}
      {content : Json} (sender : s.pending[k]? = some p) (write : p.write = .store slug board)
      (kept : stored board.content = some content) :
      Step s (.send k draw now)
        { boards := Owned.modify (·.slug) slug (overwrite board content now) s.boards
          pending := s.pending.eraseIdx k }
  | remove {k : ℕ} {p : Pending} {draw : Draw} {now : Time} {slug : String}
      (sender : s.pending[k]? = some p) (write : p.write = .remove slug) :
      Step s (.send k draw now)
        { boards := Owned.remove (·.slug) slug s.boards, pending := s.pending.eraseIdx k }
  /-- A request ends without a change. -/
  | done {k : ℕ} {label : Label} : Step s label { s with pending := s.pending.eraseIdx k }
  | userDeleted {userID : String} :
      Step s (.userDeleted userID)
        { s with boards := s.boards.filter fun b => b.ownerID ≠ userID }
  | nobody {userID : String} : Step s (.userDeleted userID) s

/-- What happens next is one of the steps, event by event. -/
theorem next_step {s s' : State} {label : Label} (next : machine.next s label = some s') :
    Step s label s' := by
  cases label with
  | arrive caller operation =>
      simp only [machine] at next
      split at next
      next p ok =>
        obtain rfl := Option.some.inj next
        obtain ⟨signed, decided⟩ := decideWrite_ok ok
        exact .arrive signed decided
      next =>
        obtain rfl := Option.some.inj next
        exact .refuse
  | send k draw now =>
      obtain ⟨p, sender, rfl⟩ := Option.map_eq_some_iff.mp next
      rw [sendWrite]
      split
      next board attempts write =>
        split
        next => exact .done
        next content kept =>
          by_cases taken : (Owned.find (·.slug) (randomSlug draw) s.boards).isSome = true
          · simp only [taken, if_true]
            split_ifs
            · exact .done
            · exact .retry sender write
          · simp only [taken]
            exact .insert sender write kept (by simpa using taken)
      next slug board write =>
        split
        next => exact .done
        next content kept => exact .store sender write kept
      next slug write => exact .remove sender write
  | drop k =>
      obtain rfl := Option.some.inj next
      exact .done
  | userDeleted userID =>
      simp only [machine] at next
      split_ifs at next
      · obtain rfl := Option.some.inj next
        exact .nobody
      · obtain rfl := Option.some.inj next
        exact .userDeleted

/-! ## What is stored -/

/-- A board as the table may hold it. -/
structure WellFormed (b : TacticBoard) : Prop where
  address : validSlug b.slug = true
  title_ne : b.title ≠ ""
  title_trimmed : trimSpace b.title = b.title
  title_short : runeCount b.title ≤ maxTacticTitleLength
  description_trimmed : trimSpace b.description = b.description
  description_short : runeCount b.description ≤ maxTacticDescriptionLength
  document : ∃ members, b.content = .obj members

/-- What a pending statement is about to store is valid. -/
def Write.Valid : Write → Prop
  | .insert board _ => Boards.Valid board
  | .store _ board => Boards.Valid board
  | .remove _ => True

/-- A valid board with a valid slug is well formed. -/
theorem wellFormed {board : TacticInput} {content : Json} (valid : Valid board)
    (kept : stored board.content = some content) {slug : String} (address : validSlug slug = true)
    (ownerID ownerName : String) (createdAt updatedAt : Time) :
    WellFormed ⟨slug, ownerID, ownerName, board.title, board.description, content, createdAt,
      updatedAt⟩ :=
  ⟨address, valid.title_ne, valid.title_trimmed, valid.title_short, valid.description_trimmed,
    valid.description_short, stored_eq_some kept⟩

structure Sound (s : State) : Prop where
  nodup : (s.boards.map (·.slug)).Nodup
  boards : ∀ b ∈ s.boards, WellFormed b
  pending : ∀ p ∈ s.pending, p.write.Valid

theorem Decided.valid {s : State} {claims : Claims} {operation : Operation} {write : Write}
    (decided : Decided s claims operation write) : write.Valid := by
  cases decided with
  | insert valid _ => exact valid
  | store _ _ valid => exact valid
  | remove _ _ => trivial

section Runs

variable {s s' : State} {label : Label} {u : String} {K : ℕ}

theorem Sound.fits (h : Sound s) {k : ℕ} {p : Pending} {write : Write}
    (sender : s.pending[k]? = some p) (is : p.write = write) : write.Valid :=
  is ▸ h.pending p (List.mem_of_getElem? sender)

/-- Each step leaves every board well formed, and no two under one slug. -/
theorem Sound.step (h : Sound s) (step : Step s label s') : Sound s' := by
  have erased : ∀ k, ∀ q ∈ s.pending.eraseIdx k, q.write.Valid :=
    fun k q member => h.pending q (List.mem_of_mem_eraseIdx member)
  cases step with
  | @arrive _ _ p signed decided =>
      refine ⟨h.nodup, h.boards, fun q member => ?_⟩
      rcases List.mem_append.mp member with old | new
      · exact h.pending q old
      · obtain rfl := List.mem_singleton.mp new
        exact decided.valid
  | refuse => exact h
  | @insert k p draw now board attempts content sender write kept free =>
      have valid : Valid board := h.fits sender write
      refine ⟨Owned.nodup_insert h.nodup fun b member => Owned.find_eq_none free member, ?_,
        erased k⟩
      intro b member
      rcases List.mem_append.mp member with old | new
      · exact h.boards b old
      · obtain rfl := List.mem_singleton.mp new
        exact wellFormed valid kept (validSlug_randomSlug draw) _ _ _ _
  | @retry k p draw now board attempts sender write =>
      refine ⟨h.nodup, h.boards, fun q member => ?_⟩
      rcases List.mem_or_eq_of_mem_set member with old | rfl
      · exact h.pending q old
      · have valid : Valid board := h.fits sender write
        exact valid
  | @store k p draw now slug board content sender write kept =>
      have valid : Valid board := h.fits sender write
      refine ⟨?_, ?_, erased k⟩
      · have same : (Owned.modify (·.slug) slug (overwrite board content now) s.boards).map
            (·.slug) = s.boards.map (·.slug) := Owned.map_modify fun _ => rfl
        exact same ▸ h.nodup
      · intro b member
        rcases Owned.mem_modify.mp member with ⟨row, old, -, rfl⟩ | ⟨old, -⟩
        · exact wellFormed valid kept (h.boards row old).address _ _ _ _
        · exact h.boards b old
  | @remove k p draw now slug sender write =>
      exact ⟨Owned.nodup_remove h.nodup, fun b member => h.boards b (List.mem_of_mem_filter member),
        erased k⟩
  | @done k _ => exact ⟨h.nodup, h.boards, erased k⟩
  | userDeleted =>
      exact ⟨h.nodup.sublist (List.filter_sublist.map _),
        fun b member => h.boards b (List.mem_of_mem_filter member), h.pending⟩
  | nobody => exact h

theorem Sound.of_reach {ok : State → Label → Prop} (reach : machine.Reach ok s) : Sound s := by
  refine reach.invariant ?_ fun h _ next => h.step (next_step next)
  rintro t rfl
  exact ⟨List.nodup_nil, by simp, by simp⟩

/-- Whatever requests run side by side, every board has an address of its own and passed the
checks. -/
theorem boards_wellFormed (reach : machine.Reach Machine.always s) :
    (s.boards.map (·.slug)).Nodup ∧ ∀ b ∈ s.boards, WellFormed b :=
  ⟨(Sound.of_reach reach).nodup, (Sound.of_reach reach).boards⟩

instance : NeZero slugAlphabet.length := ⟨by decide⟩

/-- A member who stores a board. -/
def member (userID : String) : Claims := ⟨userID, .member, userID⟩

def input : TacticInput := ⟨" Rondo ", "", "\x7b\"version\":1\x7d"⟩

def creating (userID : String) (i : Fin slugAlphabet.length) : List Label :=
  [.arrive (some (member userID)) (.create input), .send 0 (fun _ => i) 0]

/-- A board that is created is well formed. -/
theorem boards_wellFormed_creating :
    let s := machine.after Machine.always ⟨[], []⟩ (creating "a" 0 ++ creating "b" 1)
    (s.boards.map (·.slug)).Nodup ∧ ∀ b ∈ s.boards, WellFormed b :=
  boards_wellFormed (Machine.reach_after rfl (by decide +kernel))

/-! ## Whose boards are touched -/

/-- The address of the row a pending statement was decided on. -/
def Write.reads : Write → Option String
  | .insert _ _ => none
  | .store slug _ => some slug
  | .remove slug => some slug

/-- The address a pending statement clears. -/
def Write.removes : Write → Option String
  | .remove slug => some slug
  | _ => none

theorem Write.reads_of_removes {write : Write} {slug : String}
    (removes : write.removes = some slug) : write.reads = some slug := by
  cases write with
  | insert => cases removes
  | store => cases removes
  | remove => exact removes

/-- The condition on a step that no address is drawn which a pending request has read a row
under, so that was given out before. -/
def Fresh (s : State) : Label → Prop
  | .send _ draw _ => ∀ p ∈ s.pending, p.write.reads ≠ some (randomSlug draw)
  | _ => True

/-- The condition on a step that neither a member nor an administrator acts on the boards of
that member, and that the account stays. -/
def NotOn (u : String) (s : State) : Label → Prop
  | .send k _ _ => ∀ p ∈ s.pending[k]?, p.claims.userID ≠ u ∧
      (p.claims.role = .admin → ∀ slug ∈ p.write.removes,
        ∀ b ∈ s.boards, b.slug = slug → b.ownerID ≠ u)
  | .userDeleted userID => userID ≠ u
  | _ => True

/-- Who may change or delete the board at the address a request has read. -/
def Pending.May (p : Pending) (ownerID : String) : Prop :=
  ownerID = p.claims.userID ∨ (p.claims.role = .admin ∧ p.write.removes.isSome)

/-- Every pending request could still decide what it has decided. -/
def Permitted (s : State) : Prop :=
  ∀ p ∈ s.pending, ∀ slug, p.write.reads = some slug →
    Owned.Checked (·.slug) (·.ownerID) p.May slug s.boards

/-- What is decided on a board is permitted to the caller. -/
theorem Decided.permitted {p : Pending} {operation : Operation}
    (nodup : (s.boards.map (·.slug)).Nodup) (decided : Decided s p.claims operation p.write)
    {slug : String} (reads : p.write.reads = some slug) :
    Owned.Checked (·.slug) (·.ownerID) p.May slug s.boards := by
  obtain ⟨claims, write⟩ := p
  cases decided with
  | insert => cases reads
  | store found own _ =>
      obtain rfl := Option.some.inj reads
      exact .of_find nodup found (.inl own)
  | remove found may =>
      obtain rfl := Option.some.inj reads
      exact .of_find nodup found (may.imp id fun admin => ⟨admin, rfl⟩)

/-- Each step leaves every pending write permitted. -/
theorem Permitted.step (sound : Sound s) (h : Permitted s) (fresh : Fresh s label)
    (step : Step s label s') : Permitted s' := by
  cases step with
  | @arrive _ _ p signed decided =>
      intro q member slug reads
      rcases List.mem_append.mp member with old | new
      · exact h q old slug reads
      · obtain rfl := List.mem_singleton.mp new
        exact decided.permitted sound.nodup reads
  | refuse => exact h
  | @insert k p draw now board attempts content sender write kept free =>
      intro q member slug reads
      have old := List.mem_of_mem_eraseIdx member
      refine (h q old slug reads).insert fun same => fresh q old ?_
      rw [reads, ← same]
  | @retry k p draw now board attempts sender write =>
      intro q member slug reads
      rcases List.mem_or_eq_of_mem_set member with old | rfl
      · exact h q old slug reads
      · cases reads
  | store sender write kept =>
      exact fun q member slug reads =>
        (h q (List.mem_of_mem_eraseIdx member) slug reads).modify (fun _ => rfl) fun _ => rfl
  | remove sender write =>
      exact fun q member slug reads =>
        (h q (List.mem_of_mem_eraseIdx member) slug reads).sublist List.filter_sublist
  | done => exact fun q member => h q (List.mem_of_mem_eraseIdx member)
  | userDeleted =>
      exact fun q member slug reads => (h q member slug reads).sublist List.filter_sublist
  | nobody => exact h

/-- A request that is not on a member's boards was not checked against one of them. -/
theorem Permitted.spares (h : Permitted s) {k : ℕ} {draw : Draw} {now : Time}
    (notOn : NotOn u s (.send k draw now)) {p : Pending} {slug : String}
    (sender : s.pending[k]? = some p) (reads : p.write.reads = some slug) :
    Owned.Checked (·.slug) (·.ownerID) (· ≠ u) slug s.boards := by
  obtain ⟨other, spared⟩ := notOn p sender
  intro b member at_
  rcases h p (List.mem_of_getElem? sender) slug reads b member at_ with own | ⟨admin, removes⟩
  · exact fun is => other (own.symm.trans is)
  · obtain ⟨removed, gone⟩ := Option.isSome_iff_exists.mp removes
    obtain rfl : removed = slug :=
      Option.some.inj ((Write.reads_of_removes gone).symm.trans reads)
    exact spared admin removed gone b member at_

/-- A step that is not on a member's boards leaves them as they are. -/
theorem of_step (h : Permitted s) (notOn : NotOn u s label) (step : Step s label s') :
    Owned.of (·.ownerID) u s'.boards = Owned.of (·.ownerID) u s.boards := by
  cases step with
  | arrive signed decided => rfl
  | refuse => rfl
  | @insert k p draw now board attempts content sender write kept free =>
      exact Owned.of_insert (notOn p sender).1
  | retry sender write => rfl
  | @store k p draw now slug board content sender write kept =>
      have reads : p.write.reads = some slug := by rw [write]; rfl
      exact Owned.of_modify (h.spares notOn sender reads) fun _ => rfl
  | @remove k p draw now slug sender write =>
      have reads : p.write.reads = some slug := by rw [write]; rfl
      exact Owned.of_remove (h.spares notOn sender reads)
  | done => rfl
  | userDeleted =>
      exact Owned.of_filter fun b member is => decide_eq_true fun gone => notOn (gone.symm.trans is)
  | nobody => rfl

/-- Nobody but the member touches a member's boards, save an administrator who deletes one. -/
theorem boards_untouched (reach : machine.Reach Fresh s)
    (leads : machine.Leads (fun t l => Fresh t l ∧ NotOn u t l) s s') :
    Owned.of (·.ownerID) u s'.boards = Owned.of (·.ownerID) u s.boards := by
  refine reach.relation (P := fun t => Sound t ∧ Permitted t)
    (R := fun t t' => Owned.of (·.ownerID) u t'.boards = Owned.of (·.ownerID) u t.boards)
    leads ?_ (fun _ => rfl) (fun first second => second.trans first) ?_ ?_
  · rintro t rfl
    exact ⟨⟨List.nodup_nil, by simp, by simp⟩, by simp [Permitted]⟩
  · exact fun h fresh next => ⟨h.1.step (next_step next), h.2.step h.1 fresh (next_step next)⟩
  · exact fun h notOn next => of_step h.2 notOn (next_step next)

instance (t : State) (l : Label) : Decidable (Fresh t l) := by
  cases l <;> unfold Fresh <;> infer_instance

instance (t : State) (l : Label) : Decidable (NotOn u t l) := by
  cases l <;> unfold NotOn <;> infer_instance

/-- Another member tries to change the first member's board, and leaves. -/
def others : List Label :=
  creating "b" 1 ++
    [.arrive (some (member "b")) (.update "222222222222" input), .userDeleted "b"]

/-- The boards of another owner are left alone. -/
theorem boards_untouched_others :
    let s := machine.after Fresh ⟨[], []⟩ (creating "a" 0)
    Owned.of (·.ownerID) "a"
        (machine.after (fun t l => Fresh t l ∧ NotOn "a" t l) s others).boards =
      Owned.of (·.ownerID) "a" s.boards :=
  boards_untouched (Machine.reach_after rfl (by decide +kernel))
    (Machine.leads_after (by decide +kernel))

/-! ## How many boards one account can store -/

/-- A board of a member's that is about to be inserted. -/
def Pending.creates (u : String) (p : Pending) : Bool :=
  p.claims.userID = u && match p.write with
    | .insert _ _ => true
    | _ => false

/-- The member's boards that are about to be inserted. -/
def State.creating (u : String) (s : State) : ℕ := s.pending.countP (·.creates u)

/-- The condition on a step that no more than so many of a member's requests are between
their count and their insert after it. -/
def AtOnce (u : String) (K : ℕ) (s : State) (label : Label) : Prop :=
  ∀ s' ∈ machine.next s label, s'.creating u ≤ K

theorem creating_erase_le {k : ℕ} :
    ({ s with pending := s.pending.eraseIdx k } : State).creating u ≤ s.creating u :=
  (List.eraseIdx_sublist _ k).countP_le

/-- What a member has and is about to have grows only by a create that has passed its count. -/
theorem creates_or_le (step : Step s label s') :
    (∃ p operation, label = .arrive (some p.claims) operation ∧ p.creates u = true ∧
      Decided s p.claims operation p.write ∧ s' = { s with pending := s.pending ++ [p] }) ∨
    countByOwner s' u + s'.creating u ≤ countByOwner s u + s.creating u := by
  cases step with
  | @arrive _ operation p signed decided =>
      by_cases creates : p.creates u = true
      · exact .inl ⟨p, operation, by rw [signed], creates, decided, rfl⟩
      · have same : ({ s with pending := s.pending ++ [p] } : State).creating u = s.creating u := by
          simp [State.creating, List.countP_append, creates]
        exact .inr (Nat.le_of_eq (congrArg (countByOwner s u + ·) same))
  | refuse => exact .inr le_rfl
  | @insert k p draw now board attempts content sender write kept free =>
      have counted := Parties.countP_eraseIdx (p := fun q => q.creates u) sender
      have stored : countByOwner { s with boards := s.boards ++ [⟨randomSlug draw, p.claims.userID,
          p.claims.username, board.title, board.description, content, now, now⟩] } u =
            countByOwner s u + if p.creates u then 1 else 0 := by
        simp [countByOwner, List.countP_append, List.countP_singleton, Pending.creates, write]
      right
      simp only [countByOwner, State.creating] at stored counted ⊢
      omega
  | @retry k p draw now board attempts sender write =>
      have counted := Parties.countP_set
        (x := ({ p with write := .insert board (attempts - 1) } : Pending))
        (p := fun q => q.creates u) sender
      have same : ({ p with write := .insert board (attempts - 1) } : Pending).creates u =
          p.creates u := by simp [Pending.creates, write]
      rw [same] at counted
      right
      simp only [State.creating, countByOwner] at counted ⊢
      omega
  | @store k p draw now slug board content sender write kept =>
      have same : (Owned.modify (·.slug) slug (overwrite board content now) s.boards).countP
          (fun b => b.ownerID = u) = s.boards.countP fun b => b.ownerID = u :=
        Owned.countP_modify fun _ => rfl
      exact .inr (Nat.add_le_add (Nat.le_of_eq same) creating_erase_le)
  | @remove k p draw now slug sender write =>
      have less : (Owned.remove (·.slug) slug s.boards).countP (fun b => b.ownerID = u) ≤
          s.boards.countP fun b => b.ownerID = u := Owned.countP_remove_le
      exact .inr (Nat.add_le_add less creating_erase_le)
  | done => exact .inr (Nat.add_le_add_left creating_erase_le _)
  | @userDeleted userID =>
      have less : (s.boards.filter fun b => b.ownerID ≠ userID).countP (fun b => b.ownerID = u) ≤
          s.boards.countP fun b => b.ownerID = u := List.filter_sublist.countP_le
      exact .inr (Nat.add_le_add_right less _)
  | nobody => exact .inr le_rfl

/-- What is stored and what is about to be stays below the limit and the requests at once. -/
theorem countByOwner_step (h : countByOwner s u + s.creating u < maxTacticBoardsPerOwner + K)
    (step : Step s label s') (atOnce : s'.creating u ≤ K) :
    countByOwner s' u + s'.creating u < maxTacticBoardsPerOwner + K := by
  rcases creates_or_le (u := u) step with ⟨p, operation, -, creates, decided, rfl⟩ | le
  · have room : countByOwner s u < maxTacticBoardsPerOwner := by
      obtain ⟨claims, write⟩ := p
      rw [Pending.creates, Bool.and_eq_true, decide_eq_true_eq] at creates
      cases decided with
      | insert _ room => exact creates.1 ▸ room
      | store => exact absurd creates.2 Bool.false_ne_true
      | remove => exact absurd creates.2 Bool.false_ne_true
    exact Nat.add_lt_add_of_lt_of_le room atOnce
  · exact Nat.lt_of_le_of_lt le h

/-- A member's boards exceed the limit by at most the creates that run at once, less one. -/
theorem countByOwner_lt (reach : machine.Reach (AtOnce u K) s) :
    countByOwner s u < maxTacticBoardsPerOwner + K := by
  have kept : countByOwner s u + s.creating u < maxTacticBoardsPerOwner + K := by
    refine reach.invariant (P := fun t => countByOwner t u + t.creating u <
      maxTacticBoardsPerOwner + K) ?_ ?_
    · rintro t rfl
      simp [countByOwner, State.creating, maxTacticBoardsPerOwner]
    · exact fun h atOnce next => countByOwner_step h (next_step next) (atOnce _ next)
  exact Nat.lt_of_le_of_lt (Nat.le_add_right _ _) kept

instance (u : String) (K : ℕ) (t : State) (l : Label) : Decidable (AtOnce u K t l) :=
  inferInstanceAs (Decidable (∀ s' ∈ machine.next t l, s'.creating u ≤ K))

/-- With one request at a time an owner stays below the bound. -/
theorem countByOwner_lt_creating :
    countByOwner (machine.after (AtOnce "a" 1) ⟨[], []⟩ (creating "a" 0 ++ creating "a" 1)) "a" <
      maxTacticBoardsPerOwner + 1 :=
  countByOwner_lt (Machine.reach_after rfl (by decide +kernel))

/-! ## What an account that is deleted leaves -/

/-- A member's account asks for a new board. -/
def asks (u : String) : Label → Bool
  | .arrive (some claims) (.create _) => claims.userID = u
  | _ => false

/-- A step adds no more boards than it asks for. -/
theorem countByOwner_asks (next : machine.next s label = some s') :
    countByOwner s' u + s'.creating u ≤
      countByOwner s u + s.creating u + if asks u label then 1 else 0 := by
  rcases creates_or_le (u := u) (next_step next) with
    ⟨p, operation, rfl, creates, decided, rfl⟩ | le
  · obtain ⟨claims, write⟩ := p
    rw [Pending.creates, Bool.and_eq_true, decide_eq_true_eq] at creates
    have asked : asks u (.arrive (some claims) operation) = true := by
      cases decided with
      | insert => exact decide_eq_true creates.1
      | store => exact absurd creates.2 Bool.false_ne_true
      | remove => exact absurd creates.2 Bool.false_ne_true
    have one : State.creating u { s with pending := s.pending ++ [⟨claims, write⟩] } ≤
        s.creating u + 1 := by
      rw [State.creating, State.creating, List.countP_append]
      exact Nat.add_le_add_left List.countP_le_length _
    rw [if_pos asked]
    exact Nat.add_le_add_left one _
  · exact Nat.le_add_right_of_le le

/-- **What an account that is deleted leaves.** However its requests run beside the handler of
its deletion and whatever comes after it, the boards the account has then, and those it is
about to have, are at most the creates that were under way at the handler's statement and those
that were asked for since. -/
theorem countByOwner_departed (known : u ≠ "")
    (deleted : machine.next s (.userDeleted u) = some s') {labels : List Label} {s'' : State}
    (ran : machine.run Machine.always s' labels = some s'') :
    countByOwner s'' u + s''.creating u ≤ s.creating u + labels.countP (asks u) := by
  have gone : s' = { s with boards := s.boards.filter fun b => b.ownerID ≠ u } :=
    (Option.some.inj ((if_neg known).symm.trans deleted)).symm
  have none_ : countByOwner s' u = 0 := by
    rw [gone, countByOwner, List.countP_filter, List.countP_eq_zero]
    intro b _ both
    simp at both
  have same : s'.creating u = s.creating u := by rw [gone, State.creating, State.creating]
  have bound := Machine.le_of_run (μ := fun t => countByOwner t u + t.creating u)
    (fun next => countByOwner_asks next) ran
  rwa [none_, same, Nat.zero_add] at bound

/-- A member's account with a board and with another under way. -/
def departing : State := machine.after Machine.always ⟨[], []⟩
  (creating "a" 0 ++ [.arrive (some (member "a")) (.create input)])

/-- What is under way is stored once the account is gone, and another create comes. -/
def since : List Label :=
  [.send 0 (fun _ => 1) 0, .arrive (some (member "a")) (.create input), .send 0 (fun _ => 2) 0]

/-- What a member who has left still owns is what was being created and what was asked for
since. -/
theorem countByOwner_departed_since : ∃ s', machine.next departing (.userDeleted "a") = some s' ∧
    ∃ s'', machine.run Machine.always s' since = some s'' ∧
      countByOwner s'' "a" + s''.creating "a" ≤
        departing.creating "a" + since.countP (asks "a") := by
  have taken : ((machine.next departing (.userDeleted "a")).bind fun s' =>
      machine.run Machine.always s' since).isSome = true := by decide +kernel
  obtain ⟨s'', ran⟩ := Option.isSome_iff_exists.mp taken
  obtain ⟨s', deleted, ran⟩ := Option.bind_eq_some_iff.mp ran
  exact ⟨s', deleted, s'', ran, countByOwner_departed (by decide) deleted ran⟩

/-- The bound is met: both boards outlive the account. -/
example : countByOwner (machine.after Machine.always
    (machine.after Machine.always departing [.userDeleted "a"]) since) "a" = 2 := by
  decide +kernel

end Runs

end ScoutPulse.Boards
