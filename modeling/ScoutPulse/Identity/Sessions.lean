import ScoutPulse.Identity.RefreshToken
import ScoutPulse.Lib.Machine
import ScoutPulse.Lib.Strings

/-!
# Sessions

The requests that touch `refresh_tokens`, statement by statement. A request is a
program counter; each of its steps is one statement, one row of a statement, or one
read with the decision made from it, and any other request may step in between. A
request may also break off at any point, which gives back what it has locked.
-/

namespace ScoutPulse.Identity

open ReadCommitted Strings

/-- `model.User`, and how often its password has been changed, which nothing reads. -/
structure User where
  username : String
  email : String
  passwordHash : String
  emailVerified : Bool
  generation : ℕ
  deriving DecidableEq, Repr

/-- Whether `GetByIdentifier` may find a user. -/
def User.named (user : User) (identifier : String) : Bool :=
  user.email = identifier || user.username = identifier

/-- What a request was sent for. -/
inductive Kind
  | refresh (presented : String)
  | login (identifier password : String)
  /-- A sign-in through a provider. -/
  | provider (userID : String)
  | logout (token : String)
  | changePassword (userID current new : String)
  | updateRole (userID : String)
  /-- The sweep of expired rows. -/
  | prune (before : Time)
  deriving DecidableEq, Repr

/-- How a request ended. -/
inductive Outcome
  | done
  | refused
  | exchanged (old next : String)
  deriving DecidableEq, Repr

/-- How far a request has come. -/
inductive Stage
  | begun
  /-- `Refresh` has read an active token. -/
  | loaded (old : String) (stored : Session)
  /-- `Refresh` has read the token's user. -/
  | permitted (old : String) (stored : Session)
  /-- `Rotate` has inserted the next token. -/
  | inserted (old next : String)
  /-- `Rotate` has revoked the old token and is about to commit. -/
  | exchanging (old next : String)
  /-- A sign-in has checked its credentials. -/
  | signingIn (userID : String)
  /-- `ChangePassword` has checked the current password. -/
  | checked (userID : String)
  /-- `ChangePassword` has stored the new one. -/
  | changed (userID : String)
  /-- A statement has yet to come to `targets` and has changed `affected`. -/
  | executing (command : Command) (targets affected : List String)
  | ended (outcome : Outcome)
  deriving DecidableEq, Repr

/-- A request, and the generation of the password it has checked or stored. -/
structure Request where
  kind : Kind
  stage : Stage
  generation : ℕ
  deriving DecidableEq, Repr

/-- What an inserted row was given, and the request that inserted it. -/
structure Mint where
  id : String
  hash : TokenHash
  userID : String
  generation : ℕ
  request : ℕ
  deriving DecidableEq, Repr

/-- The tables, every row ever inserted into `refresh_tokens`, newest first, and the
requests in order of arrival. -/
structure Sessions where
  users : String → Option User
  tokens : Table String Session ℕ
  minted : List Mint
  requests : List Request

/-- `rotationGrace`. -/
def rotationGrace : Time := 30 * 1000000

/-- `RefreshTokenTTL`. -/
def refreshTokenTTL : Time := 30 * 24 * 3600 * 1000000

def minPasswordLength : ℕ := 8

/-- What `Refresh` makes of the token it has read. -/
inductive Verdict
  | refuse
  | endAll (userID : String)
  | exchange (old : String) (stored : Session)

/-- The first half of `Refresh`. -/
def judge (found : Option (String × Session)) (now : Time) : Verdict :=
  match found with
  | none => .refuse
  | some (id, stored) =>
      if stored.token.active now then .exchange id stored
      -- A revoked token leaked after rotation, unless it was revoked a moment ago.
      else if stored.token.revokedAt.any (rotationGrace < now - ·) then
        .endAll stored.token.userID
      else .refuse

namespace Sessions

def ids (s : Sessions) : List String := s.minted.map Mint.id

/-- `GetByToken`. -/
def getByToken (s : Sessions) (token : String) : Option (String × Session) :=
  (s.ids.filterMap fun id => (s.tokens.committed id).map fun row => (id, row)).find?
    fun found => found.2.token.tokenHash = HashToken token

/-- A request comes to another stage. -/
def move (s : Sessions) (i : ℕ) (r : Request) (stage : Stage) : Sessions :=
  { s with requests := s.requests.set i { r with stage := stage } }

/-- A request starts a statement: it takes the keys of the rows the statement picks. -/
def execute (s : Sessions) (i : ℕ) (r : Request) (c : Command) : Sessions :=
  s.move i r (.executing c (c.statement.targets s.tokens i s.ids) [])

/-- An id and a hash no row has ever had. -/
def fresh (s : Sessions) (id : String) (hash : TokenHash) : Bool :=
  s.minted.all fun m => m.id ≠ id && m.hash ≠ hash

end Sessions

/-- What a step draws: the clock, the key of the row it comes to, a random token, the
hash of a new password. -/
structure Draw where
  now : Time
  id : String
  token : String
  hashed : String

inductive Label
  | arrive (kind : Kind)
  | advance (i : ℕ) (draw : Draw)
  | abort (i : ℕ)

section Step

-- Whether `bcrypt.CompareHashAndPassword` succeeds on a stored hash and a password.
variable (compare : String → String → Bool)

/-- The first step of a request. -/
def beginRequest (s : Sessions) (i : ℕ) (r : Request) (d : Draw) : Kind → Sessions
  | .refresh presented =>
      match judge (s.getByToken presented) d.now with
      | .refuse => s.move i r (.ended .refused)
      | .endAll userID => s.execute i r (.revokeAll userID d.now)
      | .exchange old stored => s.move i r (.loaded old stored)
  | .login identifier password =>
      match s.users d.id with
      | none => s.move i r (.ended .refused)
      | some user =>
          if (user.email = identifier ∨ user.username = identifier) ∧
              compare user.passwordHash password ∧
              (user.emailVerified ∨ user.passwordHash = "") then
            s.move i { r with generation := user.generation } (.signingIn d.id)
          else s.move i r (.ended .refused)
  | .provider userID =>
      match s.users userID with
      | none => s.move i r (.ended .refused)
      | some _ => s.move i r (.signingIn userID)
  | .logout token => s.execute i r (.revoke (HashToken token) d.now)
  | .changePassword userID current new =>
      match s.users userID with
      | none => s.move i r (.ended .refused)
      | some user =>
          if byteLen new < minPasswordLength ∨ new = current ∨ user.passwordHash = "" ∨
              compare user.passwordHash current = false then
            s.move i r (.ended .refused)
          else s.move i r (.checked userID)
  | .updateRole userID =>
      match s.users userID with
      | none => s.move i r (.ended .refused)
      | some _ => s.execute i r (.revokeAll userID d.now)
  | .prune before => s.execute i r (.deleteExpired before)

/-- `INSERT` of a session. -/
def insertRow (s : Sessions) (i : ℕ) (d : Draw) (userID : String) (generation : ℕ) : Sessions :=
  { s with
    tokens := s.tokens.write i d.id
      (some (.new userID (HashToken d.token) (d.now + refreshTokenTTL) generation))
    minted := ⟨d.id, HashToken d.token, userID, generation, i⟩ :: s.minted }

/-- The end of a statement that has come to all its rows. -/
def completeCommand (s : Sessions) (i : ℕ) (r : Request) (affected : List String) :
    Command → Sessions
  | .exchange old next _ =>
      if affected = [] then
        { s with tokens := s.tokens.rollback i }.move i r (.ended .refused)
      else s.move i r (.exchanging old next)
  | .deleteExpired _ => s.execute i r (.unlink affected)
  | _ =>
      { s with tokens := s.tokens.commit i }.move i r
        (.ended (match r.kind with
          | .refresh _ => .refused
          | _ => .done))

/-- One step of a request. -/
def advanceRequest (s : Sessions) (i : ℕ) (r : Request) (d : Draw) : Option Sessions :=
  match r.stage with
  | .begun => some (beginRequest compare s i r d r.kind)
  | .loaded old stored =>
      match s.users stored.token.userID with
      | none => some (s.move i r (.ended .refused))
      | some _ => some (s.move i r (.permitted old stored))
  | .permitted old stored =>
      if s.fresh d.id (HashToken d.token) then
        some ((insertRow s i d stored.token.userID stored.generation).move i r
          (.inserted old d.id))
      else none
  | .inserted old next => some (s.execute i r (.exchange old next d.now))
  | .exchanging old next =>
      some ({ s with tokens := s.tokens.commit i }.move i r (.ended (.exchanged old next)))
  | .signingIn userID =>
      match s.users userID with
      | none => some (s.move i r (.ended .refused))
      | some user =>
          if s.fresh d.id (HashToken d.token) then
            let generation := match r.kind with
              | .login _ _ => r.generation
              | _ => user.generation
            let inserted := insertRow s i d userID generation
            some ({ inserted with tokens := inserted.tokens.commit i }.move i r (.ended .done))
          else none
  | .checked userID =>
      match s.users userID with
      | none => some (s.move i r (.ended .refused))
      | some user =>
          some ({ s with
            users := Function.update s.users userID
              (some { user with passwordHash := d.hashed, generation := user.generation + 1 }) }
              |>.move i { r with generation := user.generation + 1 } (.changed userID))
  | .changed userID => some (s.execute i r (.revokeAll userID d.now))
  | .executing c targets affected =>
      if targets = [] then some (completeCommand s i r affected c)
      else if d.id ∈ targets then
        (c.statement.visit s.tokens i d.id).map fun visited =>
          { s with tokens := visited.1 }.move i r (.executing c (targets.erase d.id)
            (if visited.2 then d.id :: affected else affected))
      else none
  | .ended _ => none

/-- The sessions of a service that starts with its accounts and no session. -/
def sessions : Machine Sessions Label where
  start s := s.tokens = .empty ∧ s.minted = [] ∧ s.requests = []
  next s
    | .arrive kind => some { s with requests := s.requests ++ [⟨kind, .begun, 0⟩] }
    | .advance i d => (s.requests[i]?).bind fun r => advanceRequest compare s i r d
    | .abort i => (s.requests[i]?).bind fun r =>
        match r.stage with
        | .ended _ => none
        | _ => some ({ s with tokens := s.tokens.rollback i }.move i r (.ended .refused))

end Step

end ScoutPulse.Identity
