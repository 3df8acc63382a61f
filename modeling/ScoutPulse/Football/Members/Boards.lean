import ScoutPulse.Football.Authorizer
import ScoutPulse.Lib.Json
import ScoutPulse.Lib.Machine
import ScoutPulse.Lib.Outcome
import ScoutPulse.Lib.Owned
import ScoutPulse.Lib.Strings
import Mathlib.Algebra.Order.Ring.Int

/-!
# Members' tactics boards

Any member may create boards; a board is its author's to change, and its author's or an
administrator's to delete. A request reads what it decides from, decides, and sends one
statement later; between the two any other request may run.
-/

namespace ScoutPulse.Boards

open Strings Outcome

/-- A point in time, in microseconds. -/
abbrev Time := ℤ

def maxTacticTitleLength : ℕ := 120
def maxTacticDescriptionLength : ℕ := 1000
def maxTacticContentBytes : ℕ := 512 * 1024
def maxTacticBoardsPerOwner : ℕ := 500

/-! ## Addresses -/

def slugAlphabet : List Char :=
  "23456789abcdefghijkmnpqrstuvwxyzABCDEFGHJKLMNPQRSTUVWXYZ".toList

def slugLength : ℕ := 12

/-- What `crypto/rand` draws for an address. -/
abbrev Draw := Fin slugLength → Fin slugAlphabet.length

def randomSlug (draw : Draw) : String :=
  String.ofList (List.ofFn fun i => slugAlphabet.get (draw i))

def validSlug (slug : String) : Bool :=
  byteLen slug = slugLength && slug.toList.all slugAlphabet.contains

/-! ## Boards -/

/-- `domain.TacticBoard`, without the id only the table knows. -/
structure TacticBoard where
  slug : String
  ownerID : String
  ownerName : String
  title : String
  description : String
  content : Json
  createdAt : Time
  updatedAt : Time

structure TacticInput where
  title : String
  description : String
  content : String

/-- `validateTactic`. What comes back carries the validated input. -/
def validateTactic (input : TacticInput) : Except AppErr TacticInput := do
  let title := trimSpace input.title
  if title = "" then throw (.invalid "a tactics board needs a title")
  if maxTacticTitleLength < runeCount title then
    throw (.invalid "a title can be at most 120 characters")
  let description := trimSpace input.description
  if maxTacticDescriptionLength < runeCount description then
    throw (.invalid "a description can be at most 1000 characters")
  let content := trimSpace input.content
  if content = "" then throw (.invalid "the board is empty")
  if maxTacticContentBytes < byteLen content then
    throw (.invalid "the board is too large to save; remove some steps or drawings")
  if content.toList.head? ≠ some '{' then throw (.invalid "the board must be a JSON object")
  return ⟨title, description, content⟩

/-- What the column keeps of a document, if its constraint lets it in. -/
def stored (content : String) : Option Json :=
  match (Json.parse content).map Json.jsonb with
  | some (.obj members) => some (.obj members)
  | _ => none

/-! ## Requests -/

inductive Operation
  | create (input : TacticInput)
  | update (slug : String) (input : TacticInput)
  | delete (slug : String)

/-- The statement a request has still to send. -/
inductive Write
  /-- `INSERT`, with the attempts that are left. -/
  | insert (board : TacticInput) (attempts : ℕ)
  | store (slug : String) (board : TacticInput)
  | remove (slug : String)

/-- A request that has decided and not yet written. -/
structure Pending where
  claims : Claims
  write : Write

/-- `tactic_boards` and the requests under way. -/
structure State where
  boards : List TacticBoard
  pending : List Pending

/-- `GetBySlug` behind `Get`: a slug that could not be one is not looked up. -/
def get (s : State) (slug : String) : Except AppErr TacticBoard :=
  if validSlug slug = false then .error (.notFound "tactics board not found")
  else match Owned.find (·.slug) slug s.boards with
    | none => .error (.notFound "tactics board not found")
    | some board => .ok board

/-- `CountByOwner`. -/
def countByOwner (s : State) (ownerID : String) : ℕ :=
  s.boards.countP fun b => b.ownerID = ownerID

/-- The caller of a request. -/
def signedIn : Option Claims → Except AppErr Claims
  | none => .error errUnauthorized
  | some claims => .ok claims

/-- The read and the decision of a request. -/
def decideWrite (s : State) (caller : Option Claims) : Operation → Except AppErr Pending
  | .create input => do
      let claims ← signedIn caller
      let board ← validateTactic input
      if maxTacticBoardsPerOwner ≤ countByOwner s claims.userID then
        throw (.invalid
          "you have reached the limit of 500 tactics boards; delete some to make room")
      return ⟨claims, .insert board 3⟩
  | .update slug input => do
      let claims ← signedIn caller
      let existing ← get s slug
      if existing.ownerID ≠ claims.userID then throw errForbidden
      let updated ← validateTactic input
      return ⟨claims, .store slug updated⟩
  | .delete slug => do
      let claims ← signedIn caller
      let existing ← get s slug
      if existing.ownerID ≠ claims.userID ∧ claims.role ≠ .admin then throw errForbidden
      return ⟨claims, .remove slug⟩

inductive Label
  | arrive (caller : Option Claims) (operation : Operation)
  /-- A pending request sends its statement, an insert under the address drawn for it. -/
  | send (k : ℕ) (draw : Draw) (now : Time)
  /-- A pending request ends without it: its connection is gone, or the database is. -/
  | drop (k : ℕ)
  /-- `DeleteByOwner`, for an account that is deleted. -/
  | userDeleted (userID : String)

/-- What `UPDATE` leaves of a row. -/
def overwrite (board : TacticInput) (content : Json) (now : Time) (row : TacticBoard) :
    TacticBoard :=
  { row with
    title := board.title, description := board.description, content := content, updatedAt := now }

/-- A pending request's statement. -/
def sendWrite (s : State) (k : ℕ) (p : Pending) (draw : Draw) (now : Time) : State :=
  let rest := s.pending.eraseIdx k
  match p.write with
  | .insert board attempts =>
      let slug := randomSlug draw
      match stored board.content with
      | none => { s with pending := rest }
      | some content =>
          if (Owned.find (·.slug) slug s.boards).isSome then
            -- A collision is answered by drawing again.
            { s with pending := if attempts ≤ 1 then rest
              else s.pending.set k { p with write := .insert board (attempts - 1) } }
          else
            { boards := s.boards ++ [⟨slug, p.claims.userID, p.claims.username, board.title,
                board.description, content, now, now⟩]
              pending := rest }
  | .store slug board =>
      match stored board.content with
      | none => { s with pending := rest }
      | some content =>
          { boards := Owned.modify (·.slug) slug (overwrite board content now) s.boards
            pending := rest }
  | .remove slug => { boards := Owned.remove (·.slug) slug s.boards, pending := rest }

/-- The service, from an empty table. -/
def machine : Machine State Label where
  start s := s = ⟨[], []⟩
  next s
    | .arrive caller operation =>
        match decideWrite s caller operation with
        | .ok p => some { s with pending := s.pending ++ [p] }
        | .error _ => some s
    | .send k draw now => (s.pending[k]?).map fun p => sendWrite s k p draw now
    | .drop k => some { s with pending := s.pending.eraseIdx k }
    | .userDeleted userID =>
        if userID = "" then some s
        else some { s with boards := s.boards.filter fun b => b.ownerID ≠ userID }

end ScoutPulse.Boards
