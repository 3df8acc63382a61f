import ScoutPulse.Identity.Sessions
import ScoutPulse.Identity.Validate
import ScoutPulse.Lib.Outcome
import ScoutPulse.Platform.Auth

/-!
# Accounts

The requests that write `users`, `user_identities` and `email_verification_tokens`, for
any number of them at once. Each of their statements is a transaction of its own, except
for the two of `Issue`; a step of a request is one statement with what is decided from
it, and any other request may step in between, or a statement may fail. The sessions the
requests open and end are not part of it.
-/

namespace ScoutPulse.Identity.Accounts

open Strings

/-- `oauth.Name`. -/
inductive Provider
  | google
  | facebook
  deriving DecidableEq, Repr

def Provider.name : Provider → String
  | .google => "google"
  | .facebook => "facebook"

/-- `ParseName`. -/
def Provider.parseName (s : String) : Option Provider :=
  if s = "google" then some .google else if s = "facebook" then some .facebook else none

/-- `oauth.Profile`. -/
structure Profile where
  providerUserID : String
  email : String
  emailVerified : Bool
  name : String
  deriving DecidableEq, Repr

/-- A sign-in through a provider, from the profile on. -/
structure SignIn where
  provider : Provider
  profile : Profile
  deriving DecidableEq, Repr

/-- A row of `user_identities`. -/
structure LinkedIdentity where
  userID : String
  provider : Provider
  providerUserID : String
  email : Option String
  deriving DecidableEq, Repr

/-- A row of `email_verification_tokens`. -/
structure VerificationToken where
  tokenHash : TokenHash
  userID : String
  expiresAt : Time
  consumedAt : Option Time
  deriving DecidableEq, Repr

/-- `HashVerificationToken`. -/
def HashVerificationToken (token : String) : TokenHash := ⟨token⟩

/-- `VerificationTTL`. -/
def verificationTTL : Time := 24 * 3600 * 1000000

/-- What a request was sent for. -/
inductive Kind
  | register (username email password : String)
  | login (identifier password : String)
  | provider (signIn : SignIn)
  | changePassword (claims : Option Claims) (current new : String)
  | unlinkIdentity (claims : Option Claims) (provider : String)
  | resendVerification (email : String)
  | verifyEmail (token : String)

/-- How a request was answered. -/
inductive Reply
  | refused (reason : AppErr)
  | done
  /-- Whoever sent the request is signed in to an account. -/
  | signedIn (userID : String)
  deriving DecidableEq, Repr

/-- How far a request has come. -/
inductive Stage
  | begun
  /-- A link is to be sent to the account's address. -/
  | confirming (userID : String)
  /-- `Issue` has seen the account's outstanding tokens. -/
  | issuing (userID : String) (outstanding : List TokenHash)
  /-- `Redeem` has consumed the token of a link. -/
  | redeemed (userID : String)
  /-- The provider's account is linked. -/
  | linked (userID : String)
  /-- The provider's account is not linked, and its address is looked up next. -/
  | seeking (signIn : SignIn)
  /-- `availableUsername` looks for a name nobody has. -/
  | naming (signIn : SignIn) (base candidate : String) (attempt : ℕ)
  /-- `createFromProvider` has a name for the account. -/
  | creating (signIn : SignIn) (username : String)
  /-- An identity is to be linked to an account, which may be `createFromProvider`'s. -/
  | linking (signIn : SignIn) (userID : String) (created : Bool)
  /-- `ChangePassword` has checked the current password. -/
  | checked (userID hash : String)
  /-- `UnlinkIdentity` has read the account. -/
  | counting (userID : String) (provider : Provider) (user : User)
  /-- `UnlinkIdentity` has counted the identities and is about to delete one. -/
  | unlinking (userID : String) (provider : Provider) (counted : List Provider)
  | ended (reply : Reply)
  deriving DecidableEq, Repr

structure Request where
  kind : Kind
  stage : Stage

/-- An identity that was attached to an account found by its address: whether the account
had a password then, and whether a link sent to its address had been redeemed. -/
structure Attachment where
  userID : String
  password : Bool
  proved : Bool
  deriving DecidableEq, Repr

/-- The tables with the keys of `users`, the requests in order of arrival, and what has
happened: the accounts whose links were redeemed, the identities attached by address, and
the accounts `createFromProvider` has inserted and not linked. -/
structure State where
  users : String → Option User
  userIDs : List String
  identities : List LinkedIdentity
  tokens : List VerificationToken
  requests : List Request
  redeemed : List String
  attached : List Attachment
  unlinked : List String

/-- What a step draws: the clock, the captcha's verdict and the limiter's, the row a
look-up finds, the key of a new row, random bytes for a token and for a salt. -/
structure Draw where
  now : Time
  captcha : Option AppErr
  limited : Bool
  found : Option String
  id : String
  token : String
  salt : String

inductive Label
  | arrive (kind : Kind)
  | advance (i : ℕ) (draw : Draw)
  /-- A statement fails, and the request with it. -/
  | fail (i : ℕ)

/-- How the service is set up, and what it is built on. -/
structure Service where
  /-- Registrations confirm their address. -/
  verification : Bool
  mailer : Bool
  mail : Validate.Mail
  /-- `bcrypt.GenerateFromPassword`, of a salt and a password. -/
  generate : String → String → String
  /-- Whether `bcrypt.CompareHashAndPassword` succeeds. -/
  compare : String → String → Bool
  generate_ne_empty : ∀ salt password, generate salt password ≠ ""

namespace State

variable (s : State)

/-- A request comes to another stage. -/
def move (i : ℕ) (r : Request) (stage : Stage) : State :=
  { s with requests := s.requests.set i { r with stage := stage } }

def refuse (i : ℕ) (r : Request) (reason : AppErr) : State := s.move i r (.ended (.refused reason))

/-- `GetByIdentifier` may answer with a row, or with none. -/
def finds (identifier : String) : Option String → Bool
  | some id => (s.users id).any (·.named identifier)
  | none => s.userIDs.all fun id => (s.users id).all fun user => !user.named identifier

/-- `ListForUser`, down to the providers. -/
def providersOf (userID : String) : List Provider :=
  (s.identities.filter (·.userID = userID)).map LinkedIdentity.provider

/-- `GetByProviderAccount`. -/
def identityOf (signIn : SignIn) : Option LinkedIdentity :=
  s.identities.find? fun x =>
    x.provider = signIn.provider ∧ x.providerUserID = signIn.profile.providerUserID

/-- An address or a user name is another account's. -/
def taken (user : User) : Bool :=
  s.userIDs.any fun id => (s.users id).any fun other =>
    other.email = user.email || other.username = user.username

/-- `INSERT INTO users`. -/
def insertUser (id : String) (user : User) : State :=
  { s with users := Function.update s.users id (some user), userIDs := id :: s.userIDs }

/-- `INSERT INTO user_identities`, to which either of two uniqueness constraints may
object. -/
def link (userID : String) (signIn : SignIn) : Option State :=
  if s.identities.any fun x => x.provider = signIn.provider &&
      (x.userID = userID || x.providerUserID = signIn.profile.providerUserID) then none
  else
    let email := if signIn.profile.email = "" then none else some signIn.profile.email
    some { s with
      identities := ⟨userID, signIn.provider, signIn.profile.providerUserID, email⟩ ::
        s.identities }

/-- `DELETE FROM user_identities`. -/
def unlink (userID : String) (provider : Provider) : State :=
  { s with
    identities := s.identities.filter fun x => ¬ (x.userID = userID ∧ x.provider = provider) }

/-- An `UPDATE` of one account. -/
def updateUser (userID : String) (change : User → User) : State :=
  { s with users := Function.update s.users userID ((s.users userID).map change) }

end State

section Names

variable [Unicode]

/-- What becomes of a letter in a user name. -/
def usernameRune (c : Char) : Option Char :=
  if ('a' ≤ c ∧ c ≤ 'z') ∨ ('0' ≤ c ∧ c ≤ '9') then some c
  else if c = ' ' ∨ c = '.' ∨ c = '_' ∨ c = '-' then some '-'
  else none

def sanitiseUsername (s : String) : String :=
  let runes := (toLower (trimSpace s)).toList.filterMap usernameRune
  let trimmed := trimRightFunc (· = '-') (runes.dropWhile (· = '-'))
  String.ofList (trimmed.take 32)

/-- Where `availableUsername` begins. -/
def baseUsername (profile : Profile) : String :=
  let base := sanitiseUsername profile.name
  let base := if base = "" ∧ profile.email ≠ "" then
      sanitiseUsername (String.ofList (cut '@' profile.email.toList).1)
    else base
  if base = "" then "user" else base

/-- The next name to try, with random letters at its end. -/
def suffixed (base token : String) : String :=
  base ++ "-" ++ toLower (String.ofList (token.toList.take 6))

/-- The address of an account created for a profile. -/
def providerEmail (signIn : SignIn) : String :=
  if signIn.profile.email = "" then
    signIn.provider.name ++ "-" ++ signIn.profile.providerUserID ++ "@users.noreply.scoutpulse"
  else signIn.profile.email

end Names

section Step

variable [Unicode] (svc : Service)

/-- The checks of `Register` on its fields. -/
def admitRegistration (username email password : String) : Except AppErr (String × String) := do
  let username ← Validate.username username
  let email ← Validate.email svc.mail email
  Validate.password password
  return (username, email)

/-- A link is sent, unless that is switched off; the request succeeds in either case. -/
def confirm (s : State) (i : ℕ) (r : Request) (userID : String) : State :=
  if svc.verification ∧ svc.mailer then s.move i r (.confirming userID)
  else s.move i r (.ended .done)

/-- `Register`, up to its `INSERT`. -/
def register (s : State) (i : ℕ) (r : Request) (d : Draw) (username email password : String) :
    Option State :=
  match admitRegistration svc username email password with
  | .error reason => some (s.refuse i r reason)
  | .ok (username, email) =>
      let user : User := ⟨username, email, svc.generate d.salt password, !svc.verification, 0⟩
      if d.id ∈ s.userIDs then none
      else if s.taken user then some (s.refuse i r (.conflict "username or email is already taken"))
      else some (confirm svc (s.insertUser d.id user) i r d.id)

/-- `Login`: the account a password opens. -/
def login (s : State) (i : ℕ) (r : Request) (d : Draw) (password : String) : State :=
  match d.found with
  | none => s.refuse i r (.unauthorized "invalid credentials")
  | some id =>
      match s.users id with
      | none => s.refuse i r (.unauthorized "invalid credentials")
      | some user =>
          if svc.compare user.passwordHash password = false then
            s.refuse i r (.unauthorized "invalid credentials")
          else if user.emailVerified = false ∧ user.passwordHash ≠ "" then
            s.refuse i r (.forbidden "confirm your email address before signing in. Check your inbox, or request a new link.")
          else s.move i r (.ended (.signedIn id))

/-- The checks of `ChangePassword`, on the account it has read. -/
def admitChange (found : Option User) (current new : String) : Except AppErr Unit := do
  if byteLen new < minPasswordLength then
    throw (.invalid "new_password must be at least 8 characters")
  if new = current then throw (.invalid "new_password must differ from the current one")
  match found with
  | none => throw (.notFound "user not found")
  | some user =>
      if user.passwordHash = "" then
        throw (.invalid "this account signs in with a linked provider and has no password to change")
      if svc.compare user.passwordHash current = false then
        throw (.unauthorized "current password is incorrect")
      if Validate.maxPasswordBytes < byteLen new then throw .internal

/-- The account a fresh link may be sent to. -/
def unproved (s : State) (found : Option String) : Option String :=
  found.filter fun id => (s.users id).any fun user => !user.emailVerified && user.passwordHash ≠ ""

/-- `Redeem`: the row an `UPDATE` consumes. -/
def redeemable (s : State) (token : String) (now : Time) : Option VerificationToken :=
  s.tokens.find? fun t =>
    t.tokenHash = HashVerificationToken token ∧ t.consumedAt = none ∧ now < t.expiresAt

/-- `SET consumed_at = NOW()`, on the rows of these tokens that are still outstanding. -/
def consume (tokens : List VerificationToken) (hashes : List TokenHash) (now : Time) :
    List VerificationToken :=
  tokens.map fun t =>
    if t.tokenHash ∈ hashes ∧ t.consumedAt = none then { t with consumedAt := some now } else t

/-- A captcha, where one is asked for, comes before the rest of a request. -/
def challenged (s : State) (i : ℕ) (r : Request) (d : Draw) (rest : Option State) : Option State :=
  match d.captcha with
  | some reason => some (s.refuse i r reason)
  | none => rest

/-- The first step of a request. -/
def beginRequest (s : State) (i : ℕ) (r : Request) (d : Draw) : Kind → Option State
  | .register username email password =>
      challenged s i r d (register svc s i r d username email password)
  | .login identifier password => challenged s i r d <|
      if d.limited then
        some (s.refuse i r ⟨.rateLimited, "too many failed sign-in attempts for this account, try again later"⟩)
      else if s.finds identifier d.found then some (login svc s i r d password)
      else none
  | .provider signIn =>
      match s.identityOf signIn with
      | some x => some (s.move i r (.linked x.userID))
      | none =>
          if signIn.profile.email = "" then
            let base := baseUsername signIn.profile
            some (s.move i r (.naming signIn base base 0))
          else some (s.move i r (.seeking signIn))
  | .changePassword none _ _ => some (s.refuse i r (.unauthorized "authentication required"))
  | .changePassword (some claims) current new =>
      match admitChange svc (s.users claims.userID) current new with
      | .error reason => some (s.refuse i r reason)
      | .ok _ => some (s.move i r (.checked claims.userID (svc.generate d.salt new)))
  | .unlinkIdentity none _ => some (s.refuse i r (.unauthorized "authentication required"))
  | .unlinkIdentity (some claims) name =>
      match Provider.parseName name with
      | none => some (s.refuse i r (.invalid "unknown provider"))
      | some provider =>
          match s.users claims.userID with
          | none => some (s.refuse i r (.notFound "user not found"))
          | some user => some (s.move i r (.counting claims.userID provider user))
  | .resendVerification email => challenged s i r d <|
      match Validate.email svc.mail email with
      | .error _ => some (s.move i r (.ended .done))
      | .ok address =>
          if s.finds address d.found then
            match unproved s d.found with
            | none => some (s.move i r (.ended .done))
            | some userID => some (confirm svc s i r userID)
          else none
  | .verifyEmail token =>
      if svc.verification = false then
        some (s.refuse i r (.invalid "email verification is not enabled"))
      else if trimSpace token = "" then some (s.refuse i r (.invalid "token is required"))
      else match redeemable s token d.now with
        | none => some (s.refuse i r
            (.invalid "this link is invalid or has expired. Request a new one."))
        | some t => some ({ s with
            tokens := consume s.tokens [t.tokenHash] d.now
            redeemed := t.userID :: s.redeemed }.move i r (.redeemed t.userID))

/-- `Issue`, when it commits: the tokens it has seen are consumed, and a new one is there. -/
def issue (s : State) (d : Draw) (userID : String) (outstanding : List TokenHash) : State :=
  { s with
    tokens := ⟨HashVerificationToken d.token, userID, d.now + verificationTTL, none⟩ ::
      consume s.tokens outstanding d.now }

/-- An account is found by a profile's address, or none is. -/
def attachTo (s : State) (i : ℕ) (r : Request) (signIn : SignIn) : Option String → State
  | none =>
      let base := baseUsername signIn.profile
      s.move i r (.naming signIn base base 0)
  | some id =>
      if signIn.profile.emailVerified = false then
        s.refuse i r (.conflict "an account already uses this email; sign in with your password and link the provider from settings")
      else s.move i r (.linking signIn id false)

/-- `createFromProvider`'s `INSERT`. -/
def createAccount (s : State) (i : ℕ) (r : Request) (d : Draw) (signIn : SignIn)
    (username : String) : Option State :=
  let user : User := ⟨username, providerEmail signIn, "", signIn.profile.emailVerified, 0⟩
  if d.id ∈ s.userIDs then none
  else if s.taken user then some (s.refuse i r (.conflict "username or email is already taken"))
  else some ({ s.insertUser d.id user with unlinked := d.id :: s.unlinked }.move i r
    (.linking signIn d.id true))

/-- `Link`, and what is remembered of it. -/
def linkIdentity (s : State) (i : ℕ) (r : Request) (signIn : SignIn) (userID : String)
    (created : Bool) : State :=
  match s.users userID with
  | none => s.refuse i r .internal
  | some user =>
      match s.link userID signIn with
      | none => s.refuse i r (.conflict "that provider account is already linked to an account")
      | some linked =>
          { linked with
            attached :=
              if created then s.attached
              else ⟨userID, user.passwordHash ≠ "", userID ∈ s.redeemed⟩ :: s.attached
            unlinked := s.unlinked.filter (· ≠ userID) }.move i r (.ended (.signedIn userID))

/-- One step of a request. -/
def advanceRequest (s : State) (i : ℕ) (r : Request) (d : Draw) : Option State :=
  match r.stage with
  | .begun => beginRequest svc s i r d r.kind
  | .confirming userID =>
      some (s.move i r (.issuing userID
        ((s.tokens.filter fun t => t.userID = userID ∧ t.consumedAt = none).map
          VerificationToken.tokenHash)))
  | .issuing userID outstanding =>
      if s.tokens.any (·.tokenHash = HashVerificationToken d.token) then none
      else some ((issue s d userID outstanding).move i r (.ended .done))
  | .redeemed userID =>
      some ((s.updateUser userID fun user => { user with emailVerified := true }).move i r
        (.ended .done))
  | .linked userID =>
      match s.users userID with
      | none => some (s.refuse i r (.notFound "user not found"))
      | some _ => some (s.move i r (.ended (.signedIn userID)))
  | .seeking signIn =>
      if s.finds signIn.profile.email d.found then some (attachTo s i r signIn d.found) else none
  | .naming signIn base candidate attempt =>
      if s.finds candidate d.found = false then none
      else if d.found = none then some (s.move i r (.creating signIn candidate))
      else if attempt + 1 < 5 then
        some (s.move i r (.naming signIn base (suffixed base d.token) (attempt + 1)))
      else some (s.refuse i r ⟨.internal, "could not allocate a username"⟩)
  | .creating signIn username => createAccount s i r d signIn username
  | .linking signIn userID created => some (linkIdentity s i r signIn userID created)
  | .checked userID hash =>
      match s.users userID with
      | none => some (s.refuse i r (.notFound "user not found"))
      | some _ => some ((s.updateUser userID fun user =>
          { user with passwordHash := hash, generation := user.generation + 1 }).move i r
            (.ended .done))
  | .counting userID provider user =>
      let counted := s.providersOf userID
      if user.passwordHash = "" ∧ counted.length ≤ 1 then
        some (s.refuse i r (.invalid "this is the only way to sign in to this account; set a password before unlinking it"))
      else some (s.move i r (.unlinking userID provider counted))
  | .unlinking userID provider _ =>
      if provider ∈ s.providersOf userID then
        some ((s.unlink userID provider).move i r (.ended .done))
      else some (s.refuse i r (.notFound "that provider is not linked to this account"))
  | .ended _ => none

/-- The requests of a service that starts without accounts. -/
def accounts : Machine State Label where
  start s := s = ⟨fun _ => none, [], [], [], [], [], [], []⟩
  next s
    | .arrive kind => some { s with requests := s.requests ++ [⟨kind, .begun⟩] }
    | .advance i d => (s.requests[i]?).bind fun r => advanceRequest svc s i r d
    | .fail i => (s.requests[i]?).bind fun r =>
        match r.stage with
        | .ended _ => none
        | _ => some (s.refuse i r .internal)

end Step

end ScoutPulse.Identity.Accounts
