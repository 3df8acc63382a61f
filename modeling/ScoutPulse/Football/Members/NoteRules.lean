import ScoutPulse.Football.Members.BoardRules
import ScoutPulse.Football.Members.Notes

/-!
# What holds of members' notes

However many requests run side by side, a member has one note on a player at most, and every
note passed the checks of its service and is on a player there is. A member's notes are touched
by nobody else but an administrator.
-/

namespace ScoutPulse.Notes

open Strings Outcome
open Boards (signedIn signedIn_ok)

/-! ## Spec lemmas -/

/-- What the service lets through. -/
structure Valid (body : String) : Prop where
  body_ne : body ≠ ""
  body_trimmed : trimSpace body = body
  body_short : runeCount body ≤ maxNoteLength

theorem validateNoteBody_ok {given body : String} (ok : validateNoteBody given = .ok body) :
    Valid body := by
  simp only [validateNoteBody, guard_ok_iff, pure_ok_iff] at ok
  obtain ⟨body_ne, body_short, rfl⟩ := ok
  exact ⟨body_ne, trimSpace_trimSpace _, Nat.le_of_not_lt body_short⟩

theorem getByID_ok {s : State} {noteID : String} {note : PlayerNote}
    (ok : getByID s noteID = .ok note) : Owned.find (·.id) noteID s.notes = some note := by
  rw [getByID] at ok
  split at ok
  next => cases ok
  next note' found => rw [found, Except.ok.inj ok]

theorem requireAuthorOrAdmin_ok {caller : Option Claims} {authorID : String} {claims : Claims}
    (ok : requireAuthorOrAdmin caller authorID = .ok claims) :
    caller = some claims ∧ (authorID = claims.userID ∨ claims.role = .admin) := by
  obtain ⟨given, signed, ok⟩ := bind_ok_iff.mp ok
  obtain ⟨may, ok⟩ := guard_ok_iff.mp ok
  obtain rfl := pure_ok_iff.mp ok
  refine ⟨signedIn_ok signed, ?_⟩
  rcases not_and_or.mp may with own | admin
  · exact .inl (not_not.mp own).symm
  · exact .inr (not_not.mp admin)

/-- The note a pending statement was decided on. -/
def Write.reads : Write → Option String
  | .insert _ _ => none
  | .update noteID _ => some noteID
  | .remove noteID => some noteID

/-- What a pending statement is about to store is valid. -/
def Write.Valid : Write → Prop
  | .insert _ body => Notes.Valid body
  | .update _ body => Notes.Valid body
  | .remove _ => True

/-- Whose note a caller may change or delete. -/
def May (claims : Claims) (authorID : String) : Prop :=
  authorID = claims.userID ∨ claims.role = .admin

/-- What a request that goes on to write has seen. -/
structure Decided (s : State) (p : Pending) : Prop where
  valid : p.write.Valid
  seen : ∀ noteID ∈ p.write.reads, ∃ existing,
    Owned.find (·.id) noteID s.notes = some existing ∧ May p.claims existing.authorID

/-- A write that is decided is one of the decisions. -/
theorem decideWrite_ok {s : State} {caller : Option Claims} {operation : Operation} {p : Pending}
    (ok : decideWrite s caller operation = .ok p) : Decided s p := by
  cases operation with
  | write playerID body =>
      obtain ⟨claims, -, ok⟩ := bind_ok_iff.mp ok
      obtain ⟨trimmed, valid, ok⟩ := bind_ok_iff.mp ok
      obtain ⟨-, ok⟩ := guard_ok_iff.mp ok
      obtain rfl := pure_ok_iff.mp ok
      exact ⟨validateNoteBody_ok valid, nofun⟩
  | edit noteID body =>
      obtain ⟨existing, found, ok⟩ := bind_ok_iff.mp ok
      obtain ⟨claims, allowed, ok⟩ := bind_ok_iff.mp ok
      obtain ⟨trimmed, valid, ok⟩ := bind_ok_iff.mp ok
      obtain rfl := pure_ok_iff.mp ok
      refine ⟨validateNoteBody_ok valid, fun read is => ⟨existing, ?_,
        (requireAuthorOrAdmin_ok allowed).2⟩⟩
      obtain rfl := Option.some.inj is
      exact getByID_ok found
  | delete noteID =>
      obtain ⟨existing, found, ok⟩ := bind_ok_iff.mp ok
      obtain ⟨claims, allowed, ok⟩ := bind_ok_iff.mp ok
      obtain rfl := pure_ok_iff.mp ok
      refine ⟨trivial, fun read is => ⟨existing, ?_, (requireAuthorOrAdmin_ok allowed).2⟩⟩
      obtain rfl := Option.some.inj is
      exact getByID_ok found

/-- The ways a step changes the tables and the pending requests. -/
inductive Step (s : State) : Label → State → Prop
  | arrive {caller : Option Claims} {operation : Operation} {p : Pending} (decided : Decided s p) :
      Step s (.arrive caller operation) { s with pending := s.pending ++ [p] }
  | refuse {caller : Option Claims} {operation : Operation} : Step s (.arrive caller operation) s
  | insert {k : ℕ} {p : Pending} {id : String} {now : Boards.Time} {playerID body : String}
      (sender : s.pending[k]? = some p) (write : p.write = .insert playerID body)
      (free : ∀ n ∈ s.notes, n.id ≠ id ∧ ¬(n.playerID = playerID ∧ n.authorID = p.claims.userID))
      (there : playerID ∈ s.players) :
      Step s (.send k id now)
        { s with
          notes := s.notes ++ [⟨id, playerID, p.claims.userID, p.claims.username, body, now, now⟩]
          pending := s.pending.eraseIdx k }
  | update {k : ℕ} {p : Pending} {id : String} {now : Boards.Time} {noteID body : String}
      (sender : s.pending[k]? = some p) (write : p.write = .update noteID body) :
      Step s (.send k id now)
        { s with
          notes := Owned.modify (·.id) noteID (rewrite_ body now) s.notes
          pending := s.pending.eraseIdx k }
  | remove {k : ℕ} {p : Pending} {id : String} {now : Boards.Time} {noteID : String}
      (sender : s.pending[k]? = some p) (write : p.write = .remove noteID) :
      Step s (.send k id now)
        { s with
          notes := Owned.remove (·.id) noteID s.notes
          pending := s.pending.eraseIdx k }
  /-- A request ends without a change. -/
  | done {k : ℕ} {label : Label} : Step s label { s with pending := s.pending.eraseIdx k }
  | createPlayer {playerID : String} :
      Step s (.createPlayer playerID) { s with players := s.players ++ [playerID] }
  | deletePlayer {playerID : String} :
      Step s (.deletePlayer playerID)
        { s with
          players := s.players.filter (· ≠ playerID)
          notes := s.notes.filter (·.playerID ≠ playerID) }

/-- What happens next is one of the steps, event by event. -/
theorem next_step {s s' : State} {label : Label} (next : machine.next s label = some s') :
    Step s label s' := by
  cases label with
  | arrive caller operation =>
      simp only [machine] at next
      split at next
      next p ok =>
        obtain rfl := Option.some.inj next
        exact .arrive (decideWrite_ok ok)
      next =>
        obtain rfl := Option.some.inj next
        exact .refuse
  | send k id now =>
      obtain ⟨p, sender, rfl⟩ := Option.map_eq_some_iff.mp next
      split
      next notes ran =>
        rw [execute] at ran
        split at ran
        next playerID body write =>
          obtain ⟨free, ran⟩ := guard_ok_iff.mp ran
          obtain ⟨there, ran⟩ := guard_ok_iff.mp ran
          obtain rfl := pure_ok_iff.mp ran
          refine .insert sender write (fun n member => ?_) (not_not.mp there)
          have other := List.any_eq_false.mp (Bool.eq_false_of_not_eq_true free) n member
          simpa using other
        next noteID body write =>
          obtain ⟨_, -, ran⟩ := bind_ok_iff.mp ran
          obtain rfl := pure_ok_iff.mp ran
          exact .update sender write
        next noteID write =>
          obtain ⟨_, -, ran⟩ := bind_ok_iff.mp ran
          obtain rfl := pure_ok_iff.mp ran
          exact .remove sender write
      next => exact .done
  | drop k =>
      obtain rfl := Option.some.inj next
      exact .done
  | createPlayer playerID =>
      obtain rfl := Option.some.inj next
      exact .createPlayer
  | deletePlayer playerID =>
      obtain rfl := Option.some.inj next
      exact .deletePlayer

/-! ## What is stored -/

/-- Of whom and by whom a note is. -/
def PlayerNote.pair (n : PlayerNote) : String × String := (n.playerID, n.authorID)

structure Sound (s : State) : Prop where
  ids : (s.notes.map (·.id)).Nodup
  pairs : (s.notes.map (·.pair)).Nodup
  notes : ∀ n ∈ s.notes, Valid n.body ∧ n.playerID ∈ s.players
  pending : ∀ p ∈ s.pending, p.write.Valid

section Runs

variable {s s' : State} {label : Label} {u : String}

theorem Sound.fits (h : Sound s) {k : ℕ} {p : Pending} {write : Write}
    (sender : s.pending[k]? = some p) (is : p.write = write) : write.Valid :=
  is ▸ h.pending p (List.mem_of_getElem? sender)

/-- Each step leaves every note valid, and one for each author of a player. -/
theorem Sound.step (h : Sound s) (step : Step s label s') : Sound s' := by
  have erased : ∀ k, ∀ q ∈ s.pending.eraseIdx k, q.write.Valid :=
    fun k q member => h.pending q (List.mem_of_mem_eraseIdx member)
  cases step with
  | @arrive _ _ p decided =>
      refine ⟨h.ids, h.pairs, h.notes, fun q member => ?_⟩
      rcases List.mem_append.mp member with old | new
      · exact h.pending q old
      · obtain rfl := List.mem_singleton.mp new
        exact decided.valid
  | refuse => exact h
  | @insert k p id now playerID body sender write free there =>
      have valid : Valid body := h.fits sender write
      refine ⟨Owned.nodup_insert h.ids fun n member => (free n member).1,
        Owned.nodup_insert h.pairs fun n member same => (free n member).2 ?_, ?_, erased k⟩
      · exact Prod.mk.inj same
      · intro n member
        rcases List.mem_append.mp member with old | new
        · exact h.notes n old
        · obtain rfl := List.mem_singleton.mp new
          exact ⟨valid, there⟩
  | @update k p id now noteID body sender write =>
      have valid : Valid body := h.fits sender write
      have ids : (Owned.modify (·.id) noteID (rewrite_ body now) s.notes).map (·.id) =
          s.notes.map (·.id) := Owned.map_modify fun _ => rfl
      have pairs : (Owned.modify (·.id) noteID (rewrite_ body now) s.notes).map (·.pair) =
          s.notes.map (·.pair) := Owned.map_modify fun _ => rfl
      refine ⟨ids ▸ h.ids, pairs ▸ h.pairs, fun n member => ?_, erased k⟩
      rcases Owned.mem_modify.mp member with ⟨row, old, -, rfl⟩ | ⟨old, -⟩
      · exact ⟨valid, (h.notes row old).2⟩
      · exact h.notes n old
  | @remove k p id now noteID sender write =>
      exact ⟨Owned.nodup_remove h.ids, h.pairs.sublist (List.filter_sublist.map _),
        fun n member => h.notes n (List.mem_of_mem_filter member), erased k⟩
  | @done k _ => exact ⟨h.ids, h.pairs, h.notes, erased k⟩
  | createPlayer =>
      refine ⟨h.ids, h.pairs, fun n member => ⟨(h.notes n member).1, ?_⟩, h.pending⟩
      exact List.mem_append_left _ (h.notes n member).2
  | @deletePlayer playerID =>
      refine ⟨h.ids.sublist (List.filter_sublist.map _),
        h.pairs.sublist (List.filter_sublist.map _), fun n member => ?_, h.pending⟩
      obtain ⟨old, other⟩ := List.mem_filter.mp member
      exact ⟨(h.notes n old).1, List.mem_filter.mpr ⟨(h.notes n old).2, other⟩⟩

/-- The notes are sound at first. -/
theorem Sound.of_start (start : machine.start s) : Sound s := by
  obtain ⟨notes, pending⟩ := start
  refine ⟨?_, ?_, ?_, ?_⟩
  · simp [notes]
  · simp [notes]
  · simp [notes]
  · simp [pending]

/-- **One note for each member and player.** Whatever requests run side by side and whatever
players come and go, no member has two notes on one player, and every note passed the checks
and is on a player there is. -/
theorem notes_onePerAuthor (reach : machine.Reach Machine.always s) :
    (s.notes.map fun n => (n.playerID, n.authorID)).Nodup ∧
      ∀ n ∈ s.notes, Valid n.body ∧ n.playerID ∈ s.players := by
  have sound : Sound s := reach.invariant Sound.of_start fun h _ next => h.step (next_step next)
  exact ⟨sound.pairs, sound.notes⟩

/-- A member posts two notes on a player side by side. -/
def posts : List Label :=
  [.createPlayer "p", .arrive (some (Boards.member "a")) (.write "p" " Quick. "),
    .arrive (some (Boards.member "a")) (.write "p" "Slow."), .send 0 "1" 0, .send 0 "2" 0]

/-- An author has one note of a player after several posts. -/
theorem notes_onePerAuthor_posts :
    let s := machine.after Machine.always ⟨[], [], []⟩ posts
    (s.notes.map fun n => (n.playerID, n.authorID)).Nodup ∧
      ∀ n ∈ s.notes, Valid n.body ∧ n.playerID ∈ s.players :=
  notes_onePerAuthor (Machine.reach_after ⟨rfl, rfl⟩ (by decide +kernel))

/-- The first of the two is kept. -/
example : (machine.after Machine.always ⟨[], [], []⟩ posts).notes.map (·.body) = ["Quick."] := by
  decide +kernel

/-! ## Whose notes are touched -/

/-- The condition on a step that no id is drawn which a pending request has read a note
under. -/
def Fresh (s : State) : Label → Prop
  | .send _ id _ => ∀ p ∈ s.pending, p.write.reads ≠ some id
  | _ => True

/-- The condition on a step that neither a member nor an administrator acts on the notes of
that member, and that the players they are on stay. -/
def NotOn (u : String) (s : State) : Label → Prop
  | .send k _ _ => ∀ p ∈ s.pending[k]?, p.claims.userID ≠ u ∧
      (p.claims.role = .admin → ∀ noteID ∈ p.write.reads,
        ∀ n ∈ s.notes, n.id = noteID → n.authorID ≠ u)
  | .deletePlayer playerID => ∀ n ∈ s.notes, n.authorID = u → n.playerID ≠ playerID
  | _ => True

instance (t : State) (l : Label) : Decidable (Fresh t l) := by
  cases l <;> unfold Fresh <;> infer_instance

instance (t : State) (l : Label) : Decidable (NotOn u t l) := by
  cases l <;> unfold NotOn <;> infer_instance

/-- Every pending request could still decide what it has decided. -/
def Permitted (s : State) : Prop :=
  ∀ p ∈ s.pending, ∀ noteID ∈ p.write.reads,
    Owned.Checked (·.id) (·.authorID) (May p.claims) noteID s.notes

/-- Each step leaves every pending write permitted. -/
theorem Permitted.step (sound : Sound s) (h : Permitted s) (fresh : Fresh s label)
    (step : Step s label s') : Permitted s' := by
  cases step with
  | @arrive _ _ p decided =>
      intro q member noteID reads
      rcases List.mem_append.mp member with old | new
      · exact h q old noteID reads
      · obtain rfl := List.mem_singleton.mp new
        obtain ⟨existing, found, may⟩ := decided.seen noteID reads
        exact .of_find sound.ids found may
  | refuse => exact h
  | @insert k p id now playerID body sender write free there =>
      intro q member noteID reads
      have old := List.mem_of_mem_eraseIdx member
      refine (h q old noteID reads).insert fun same => fresh q old ?_
      rw [Option.mem_def.mp reads, ← same]
  | update =>
      exact fun q member noteID reads =>
        (h q (List.mem_of_mem_eraseIdx member) noteID reads).modify (fun _ => rfl) fun _ => rfl
  | remove =>
      exact fun q member noteID reads =>
        (h q (List.mem_of_mem_eraseIdx member) noteID reads).sublist List.filter_sublist
  | done => exact fun q member => h q (List.mem_of_mem_eraseIdx member)
  | createPlayer => exact h
  | deletePlayer =>
      exact fun q member noteID reads => (h q member noteID reads).sublist List.filter_sublist

/-- A request that is not on a member's notes was not checked against one of them. -/
theorem Permitted.spares (h : Permitted s) {k : ℕ} {id : String} {now : Boards.Time}
    (notOn : NotOn u s (.send k id now)) {p : Pending} {noteID : String}
    (sender : s.pending[k]? = some p) (reads : p.write.reads = some noteID) :
    Owned.Checked (·.id) (·.authorID) (· ≠ u) noteID s.notes := by
  obtain ⟨other, spared⟩ := notOn p sender
  intro n member at_
  rcases h p (List.mem_of_getElem? sender) noteID reads n member at_ with own | admin
  · exact fun is => other (own.symm.trans is)
  · exact spared admin noteID reads n member at_

/-- A step that is not on an author's notes leaves them alone. -/
theorem of_step (h : Permitted s) (notOn : NotOn u s label) (step : Step s label s') :
    Owned.of (·.authorID) u s'.notes = Owned.of (·.authorID) u s.notes := by
  cases step with
  | arrive => rfl
  | refuse => rfl
  | @insert k p id now playerID body sender => exact Owned.of_insert (notOn p sender).1
  | @update k p id now noteID body sender write =>
      have reads : p.write.reads = some noteID := by rw [write]; rfl
      exact Owned.of_modify (h.spares notOn sender reads) fun _ => rfl
  | @remove k p id now noteID sender write =>
      have reads : p.write.reads = some noteID := by rw [write]; rfl
      exact Owned.of_remove (h.spares notOn sender reads)
  | done => rfl
  | createPlayer => rfl
  | deletePlayer =>
      exact Owned.of_filter fun n member is => decide_eq_true (notOn n member is)

/-- **Nobody writes under another member's name.** A member's notes stay exactly as they are
while neither the member nor an administrator acts on them and their players stay, whatever
the requests under way have read before. -/
theorem notes_untouched (reach : machine.Reach Fresh s)
    (leads : machine.Leads (fun t l => Fresh t l ∧ NotOn u t l) s s') :
    Owned.of (·.authorID) u s'.notes = Owned.of (·.authorID) u s.notes := by
  refine reach.relation (P := fun t => Sound t ∧ Permitted t)
    (R := fun t t' => Owned.of (·.authorID) u t'.notes = Owned.of (·.authorID) u t.notes)
    leads ?_ (fun _ => rfl) (fun first second => second.trans first) ?_ ?_
  · exact fun starts => ⟨.of_start starts, by simp [Permitted, starts.2]⟩
  · exact fun h fresh next => ⟨h.1.step (next_step next), h.2.step h.1 fresh (next_step next)⟩
  · exact fun h notOn next => of_step h.2 notOn (next_step next)

/-- Another member tries to edit the first one's note, and writes one. -/
def others : List Label :=
  [.arrive (some (Boards.member "b")) (.edit "1" "Slow."),
    .arrive (some (Boards.member "b")) (.write "p" "Slow."), .send 0 "2" 0]

/-- The notes of another author are left alone. -/
theorem notes_untouched_others :
    let s := machine.after Fresh ⟨[], [], []⟩ posts
    Owned.of (·.authorID) "a"
        (machine.after (fun t l => Fresh t l ∧ NotOn "a" t l) s others).notes =
      Owned.of (·.authorID) "a" s.notes :=
  notes_untouched (Machine.reach_after ⟨rfl, rfl⟩ (by decide +kernel))
    (Machine.leads_after (by decide +kernel))

end Runs

end ScoutPulse.Notes
