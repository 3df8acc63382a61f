import ScoutPulse.Identity.Accounts
import ScoutPulse.Lib.Cookies
import ScoutPulse.Lib.OneTime

/-!
# Signing in through a provider

The round trip of a browser to a provider and back, and the code it ends with, which is
traded for a session. The parties are any number of browsers, the provider's users, and
the service, whose requests run side by side; any of them may break off. Whoever knows an
address may open it in any browser, and whoever knows a code may present it.
-/

namespace ScoutPulse.Identity.ProviderFlow

open Strings Accounts Cookies

def oauthFlowTTL : Time := 10 * 60 * 1000000
def loginCodeTTL : Time := 60 * 1000000
def stateCookie : String := "sp_oauth_state"
def verifierCooki : String := "sp_oauth_verifier"
def cookiePath : String := "/api/v1/auth"

/-! ## Where the cookies belong -/

/-- `strings.TrimRight` of slashes. -/
def trimSlashes (s : String) : String := String.ofList (trimRightFunc (· = '/') s.toList)

/-- From `X-Forwarded-Prefix`. -/
def cookiePathFor (forwarded : String) : String :=
  let path := trimSpace forwarded
  if path = "" then cookiePath
  -- A prefix carrying anything but a path is not one to build on.
  else if hasPrefix path "/" = false ∨ containsAny path "\r\n;," = true then cookiePath
  else trimSlashes path ++ cookiePath

/-- How the service is deployed. -/
structure Deployment where
  publicPathPrefix : String
  configured : Provider → Bool

variable (d : Deployment)

/-- `Handler.cookiePath`. -/
def Deployment.cookiePath (forwarded : String) : String :=
  let path := trimSlashes d.publicPathPrefix
  if path ≠ "" then path ++ ProviderFlow.cookiePath else cookiePathFor forwarded

/-- `sanitizeCookiePath` of `net/http`. -/
def sanitizeCookiePath (path : String) : String :=
  String.ofList <| path.toList.filter fun c => 0x20 ≤ c.toNat && c.toNat < 0x7F && c ≠ ';'

def Deployment.provider (name : String) : Except AppErr Provider :=
  match Provider.parseName name with
  | none => .error (.notFound "unknown provider")
  | some provider =>
      if d.configured provider then .ok provider
      else .error (.notFound "that provider is not enabled")

/-! ## What the parties hold -/

/-- `S256ChallengeOption`. -/
structure Challenge where
  verifier : String
  deriving DecidableEq

def S256ChallengeOption (verifier : String) : Challenge := ⟨verifier⟩

/-- `HashLoginCode`. -/
def HashLoginCode (code : String) : TokenHash := ⟨code⟩

/-- What a browser was given by `StartOAuth`. -/
structure Start where
  browser : ℕ
  provider : Provider
  state : String
  verifier : String
  at_ : Time
  deriving DecidableEq

/-- What a user has consented to at a provider, and the code for it. -/
structure Consent where
  signIn : SignIn
  challenge : Challenge
  code : String
  deriving DecidableEq

/-- The callback's address. -/
structure CallbackRequest where
  provider : String
  /-- The path the browser has opened. -/
  path : String
  forwarded : String
  error : String
  state : String
  code : String

/-- A callback that was let through. -/
structure Flow where
  browser : ℕ
  provider : Provider
  state : String
  verifier : String
  code : String
  at_ : Time
  deriving DecidableEq

/-- Where a callback sends the browser. -/
inductive Redirect
  | code (loginCode : String)
  | error (reason : String)
  deriving DecidableEq

/-- How far a callback has come. -/
inductive CallbackStage
  /-- `provider.Exchange` is under way. -/
  | exchanging (flow : Flow)
  /-- `resolveAccount` is under way. -/
  | resolving (flow : Flow) (profile : Profile)
  | issuing (flow : Flow) (profile : Profile) (userID : String)
  | answered (redirect : Redirect)
  deriving DecidableEq

structure Callback where
  browser : ℕ
  forwarded : String
  stage : CallbackStage
  deriving DecidableEq

/-- A login code that was issued. -/
structure Issued where
  code : String
  userID : String
  flow : Flow
  profile : Profile
  at_ : Time
  deriving DecidableEq

/-- How far a request to exchange a code has come. -/
inductive Exchange
  | begun (code : String)
  | redeemed (code : String) (userID : String) (at_ : Time)
  deriving DecidableEq

/-- A session that was opened for a code. -/
structure Opened where
  code : String
  userID : String
  at_ : Time
  deriving DecidableEq

/-- The browsers' jars, the provider's codes, `oauth_login_codes` and the requests under
way, and what has happened. -/
structure State where
  jars : ℕ → List (Cookie Time)
  starts : List Start
  grants : List (OneTime.Ticket String (SignIn × Challenge) Time)
  consents : List Consent
  callbacks : List Callback
  codes : List (OneTime.Ticket TokenHash String Time)
  issued : List Issued
  exchanges : List Exchange
  sessions : List Opened

inductive Label
  /-- `StartOAuth`, whose answer reaches the browser. -/
  | start (browser : ℕ) (provider forwarded state verifier : String) (now : Time)
  /-- A user of a provider's agrees to a request with a challenge. -/
  | consent (signIn : SignIn) (challenge : Challenge) (code : String) (expiresAt : Time)
  /-- A browser opens the callback's address. -/
  | callback (browser : ℕ) (r : CallbackRequest) (now : Time)
  /-- The provider answers with a profile, or not. -/
  | answer (k : ℕ) (profile : Option Profile) (now : Time)
  | resolve (k : ℕ) (result : Except AppErr String)
  /-- `Issue`, or its statement fails. -/
  | issue (k : ℕ) (code : Option String) (now : Time)
  /-- A callback's answer reaches the browser. -/
  | deliver (k : ℕ)
  | lose (k : ℕ)
  | exchange (code : String)
  | redeem (k : ℕ) (now : Time)
  /-- What follows `Redeem` opens a session, or fails. -/
  | finish (k : ℕ) (opens : Bool)
  | drop (k : ℕ)
  /-- `DeleteExpired`. -/
  | prune (before : Time)
  /-- The account's row is gone, and its codes with it. -/
  | userDeleted (userID : String)

/-! ## The service -/

/-- `setFlowCookie`, of both cookies. -/
def setFlowCookies (forwarded state verifier : String) (now : Time) (jar : List (Cookie Time)) :
    List (Cookie Time) :=
  let path := sanitizeCookiePath (d.cookiePath forwarded)
  set ⟨verifierCooki, verifier, path, now + oauthFlowTTL⟩
    (set ⟨stateCookie, state, path, now + oauthFlowTTL⟩ jar)

def clearFlowCookies (forwarded : String) (jar : List (Cookie Time)) : List (Cookie Time) :=
  let path := sanitizeCookiePath (d.cookiePath forwarded)
  clear verifierCooki path (clear stateCookie path jar)

/-- `readFlowCookies`, of what the browser sends along. -/
def readFlowCookies (r : CallbackRequest) (now : Time) (jar : List (Cookie Time)) :
    Option (String × String) := do
  let s ← sent stateCookie r.path now jar
  let v ← sent verifierCooki r.path now jar
  return (s.value, v.value)

/-- `CompleteOAuth`, up to the exchange with the provider. -/
def completeOAuth (browser : ℕ) (r : CallbackRequest) (now : Time) (jar : List (Cookie Time)) :
    Except String Flow :=
  match d.provider r.provider with
  | .error _ => .error "unknown_provider"
  | .ok provider =>
      if r.error ≠ "" then .error r.error
      else match readFlowCookies r now jar with
        | none => .error "expired"
        | some (state, verifier) =>
            if r.state ≠ state then .error "state_mismatch"
            else if r.code = "" then .error "no_code"
            else .ok ⟨browser, provider, state, verifier, r.code, now⟩

/-- The reason a callback gives for an account that could not be resolved. -/
def resolveFailure (e : AppErr) : String :=
  if e.kind = .conflict then "email_taken" else "sign_in_failed"

namespace State

variable (s : State)

def setCallback (k : ℕ) (c : Callback) (stage : CallbackStage) : State :=
  { s with callbacks := s.callbacks.set k { c with stage := stage } }

def fail (k : ℕ) (c : Callback) (reason : String) : State :=
  s.setCallback k c (.answered (.error reason))

end State

/-- The provider honours a code once, for the request it was given for. -/
def honours (s : State) (flow : Flow) (profile : Profile) (now : Time) :
    Option (List (OneTime.Ticket String (SignIn × Challenge) Time)) :=
  match OneTime.redeem flow.code now s.grants with
  | some (granted, grants) =>
      if granted = (⟨flow.provider, profile⟩, S256ChallengeOption flow.verifier) then some grants
      else none
  | none => none

/-- A callback hears from the provider. -/
def answer (s : State) (k : ℕ) (c : Callback) (now : Time) : Option Profile → Option State
  | none =>
      match c.stage with
      | .exchanging _ => some (s.fail k c "exchange_failed")
      | _ => none
  | some profile =>
      match c.stage with
      | .exchanging flow =>
          some { s.setCallback k c (.resolving flow profile) with
            grants := (honours s flow profile now).getD s.grants }
      | _ => none

def resolve (s : State) (k : ℕ) (c : Callback) (result : Except AppErr String) : Option State :=
  match c.stage with
  | .resolving flow profile =>
      match result with
      | .error e => some (s.fail k c (resolveFailure e))
      | .ok userID => some (s.setCallback k c (.issuing flow profile userID))
  | _ => none

/-- `Issue`. -/
def issue (s : State) (k : ℕ) (c : Callback) (code : Option String) (now : Time) : Option State :=
  match c.stage with
  | .issuing flow profile userID =>
      match code with
      | none => some (s.fail k c "sign_in_failed")
      | some code =>
          match OneTime.issue (HashLoginCode code) userID (now + loginCodeTTL) s.codes with
          | none => some (s.fail k c "sign_in_failed")
          | some codes => some
              { s.setCallback k c (.answered (.code code)) with
                codes := codes, issued := s.issued ++ [⟨code, userID, flow, profile, now⟩] }
  | _ => none

/-- A callback's answer reaches the browser. Every answer clears the flow's cookies:
`CompleteOAuth` does when it has read them, and `failFlow` does whatever the reason, also when
the provider is unknown or reports an error. -/
def deliver (s : State) (k : ℕ) (c : Callback) : Option State :=
  match c.stage with
  | .answered _ => some
      { s with
        jars := Function.update s.jars c.browser (clearFlowCookies d c.forwarded (s.jars c.browser))
        callbacks := s.callbacks.eraseIdx k }
  | _ => none

/-- `ExchangeCode`, up to `Redeem`. -/
def redeem (s : State) (k : ℕ) (e : Exchange) (now : Time) : Option State :=
  match e with
  | .begun code =>
      match OneTime.redeem (HashLoginCode code) now s.codes with
      | none => some { s with exchanges := s.exchanges.eraseIdx k }
      | some (userID, codes) => some
          { s with
            codes := codes, exchanges := s.exchanges.set k (.redeemed code userID now) }
  | .redeemed _ _ _ => none

/-- `ExchangeCode`, after it. -/
def finish (s : State) (k : ℕ) (e : Exchange) (opens : Bool) : Option State :=
  match e with
  | .begun _ => none
  | .redeemed code userID at_ => some
      { s with
        exchanges := s.exchanges.eraseIdx k
        sessions := if opens then s.sessions ++ [⟨code, userID, at_⟩] else s.sessions }

def empty : State := ⟨fun _ => [], [], [], [], [], [], [], [], []⟩

/-- The service with its browsers and providers, from nothing. -/
def machine : Machine State Label where
  start s := s = empty
  next s
    | .start browser name forwarded state verifier now =>
        match d.provider name with
        | .error _ => some s
        | .ok provider => some
            { s with
              jars := Function.update s.jars browser
                (setFlowCookies d forwarded state verifier now (s.jars browser))
              starts := s.starts ++ [⟨browser, provider, state, verifier, now⟩] }
    | .consent signIn challenge code expiresAt =>
        (OneTime.issue code (signIn, challenge) expiresAt s.grants).map fun grants =>
          { s with grants := grants, consents := s.consents ++ [⟨signIn, challenge, code⟩] }
    | .callback browser r now =>
        let stage := match completeOAuth d browser r now (s.jars browser) with
          | .error reason => .answered (.error reason)
          | .ok flow => .exchanging flow
        some { s with callbacks := s.callbacks ++ [⟨browser, r.forwarded, stage⟩] }
    | .answer k profile now => (s.callbacks[k]?).bind fun c => answer s k c now profile
    | .resolve k result => (s.callbacks[k]?).bind fun c => resolve s k c result
    | .issue k code now => (s.callbacks[k]?).bind fun c => issue s k c code now
    | .deliver k => (s.callbacks[k]?).bind fun c => deliver d s k c
    | .lose k => some { s with callbacks := s.callbacks.eraseIdx k }
    | .exchange code =>
        if code = "" then some s else some { s with exchanges := s.exchanges ++ [.begun code] }
    | .redeem k now => (s.exchanges[k]?).bind fun e => redeem s k e now
    | .finish k opens => (s.exchanges[k]?).bind fun e => finish s k e opens
    | .drop k => some { s with exchanges := s.exchanges.eraseIdx k }
    | .prune before => some { s with codes := s.codes.filter fun t => ¬ t.expiresAt < before }
    | .userDeleted userID => some { s with codes := s.codes.filter fun t => t.subject ≠ userID }

end ScoutPulse.Identity.ProviderFlow
