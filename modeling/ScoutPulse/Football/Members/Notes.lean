import ScoutPulse.Football.Members.Boards

/-!
# Members' notes on players

Any member may write one note on a player; a note is its author's or an administrator's to
edit and to delete. A request reads what it decides from, decides, and sends one statement
later, and that a member has one note on a player only is left to the table's constraint.
-/

namespace ScoutPulse.Notes

open Strings Outcome
open Boards (Time signedIn)

def maxNoteLength : ℕ := 4000

/-- `domain.PlayerNote`. -/
structure PlayerNote where
  id : String
  playerID : String
  authorID : String
  authorName : String
  body : String
  createdAt : Time
  updatedAt : Time

def validateNoteBody (body : String) : Except AppErr String := do
  let trimmed := trimSpace body
  if trimmed = "" then throw (.invalid "a note cannot be empty")
  if maxNoteLength < runeCount trimmed then
    throw (.invalid "a note can be at most 4000 characters")
  return trimmed

/-! ## Requests -/

inductive Operation
  | write (playerID body : String)
  | edit (noteID body : String)
  | delete (noteID : String)

/-- The statement a request has still to send. -/
inductive Write
  | insert (playerID body : String)
  | update (noteID body : String)
  | remove (noteID : String)

/-- A request that has decided and not yet written. -/
structure Pending where
  claims : Claims
  write : Write

/-- The ids of `players`, `player_notes`, and the requests under way. -/
structure State where
  players : List String
  notes : List PlayerNote
  pending : List Pending

def getByID (s : State) (noteID : String) : Except AppErr PlayerNote :=
  match Owned.find (·.id) noteID s.notes with
  | none => .error (.notFound "note not found")
  | some note => .ok note

def requireAuthorOrAdmin (caller : Option Claims) (authorID : String) :
    Except AppErr Claims := do
  let claims ← signedIn caller
  if claims.userID ≠ authorID ∧ claims.role ≠ .admin then throw errForbidden
  return claims

/-- The reads and the decision of a request. -/
def decideWrite (s : State) (caller : Option Claims) : Operation → Except AppErr Pending
  | .write playerID body => do
      let claims ← signedIn caller
      let trimmed ← validateNoteBody body
      if playerID ∉ s.players then throw (.notFound "player not found")
      return ⟨claims, .insert playerID trimmed⟩
  | .edit noteID body => do
      let existing ← getByID s noteID
      let claims ← requireAuthorOrAdmin caller existing.authorID
      let trimmed ← validateNoteBody body
      return ⟨claims, .update noteID trimmed⟩
  | .delete noteID => do
      let existing ← getByID s noteID
      let claims ← requireAuthorOrAdmin caller existing.authorID
      return ⟨claims, .remove noteID⟩

/-- What `UPDATE` leaves of a row. -/
def rewrite_ (body : String) (now : Time) (note : PlayerNote) : PlayerNote :=
  { note with body := body, updatedAt := now }

/-- What a statement leaves of the table. A new note gets the id the database draws. -/
def execute (s : State) (p : Pending) (id : String) (now : Time) :
    Except AppErr (List PlayerNote) :=
  match p.write with
  | .insert playerID body => do
      if s.notes.any fun n =>
          n.id = id || (n.playerID = playerID && n.authorID = p.claims.userID) then
        throw (.conflict "you have already written a note on this player; edit that one instead")
      if playerID ∉ s.players then throw (.invalid "referenced record does not exist")
      return s.notes ++ [⟨id, playerID, p.claims.userID, p.claims.username, body, now, now⟩]
  | .update noteID body => do
      let _ ← getByID s noteID
      return Owned.modify (·.id) noteID (rewrite_ body now) s.notes
  | .remove noteID => do
      let _ ← getByID s noteID
      return Owned.remove (·.id) noteID s.notes

inductive Label
  | arrive (caller : Option Claims) (operation : Operation)
  /-- A pending request sends its statement. -/
  | send (k : ℕ) (id : String) (now : Time)
  /-- A pending request ends without it: its connection is gone, or the database is. -/
  | drop (k : ℕ)
  | createPlayer (playerID : String)
  /-- `ON DELETE CASCADE`: a player goes with the notes on them. -/
  | deletePlayer (playerID : String)

/-- The service, from an empty table. -/
def machine : Machine State Label where
  start s := s.notes = [] ∧ s.pending = []
  next s
    | .arrive caller operation =>
        match decideWrite s caller operation with
        | .ok p => some { s with pending := s.pending ++ [p] }
        | .error _ => some s
    | .send k id now => (s.pending[k]?).map fun p =>
        { s with
          notes := match execute s p id now with
            | .ok notes => notes
            | .error _ => s.notes
          pending := s.pending.eraseIdx k }
    | .drop k => some { s with pending := s.pending.eraseIdx k }
    | .createPlayer playerID => some { s with players := s.players ++ [playerID] }
    | .deletePlayer playerID => some
        { s with
          players := s.players.filter (· ≠ playerID)
          notes := s.notes.filter (·.playerID ≠ playerID) }

end ScoutPulse.Notes
