import ScoutPulse.Lib.Machine
import Mathlib.Data.Nat.Notation

/-!
# The session of a browser tab

A tab keeps the access token in memory and, in the browser's storage, a flag that a
session cookie may exist. Every call to the server passes the interceptor: calls of the
authentication flow go straight through; any other call that is answered 401 waits for a
refresh, which all of them share, and is sent once more. The page's start-up restores a
session the same way, on a refresh of its own, and the first page is drawn when it is over.

Each answer of the server, with everything that runs before the browser takes its next
turn, is one step. The browser's storage belongs to all its tabs, and another one may write the
flag too; what they do is left out, and the flag is the one this tab has left.
-/

namespace ScoutPulse.Tab

/-! ## The session store -/

structure TokenPair where
  accessToken : String
  deriving DecidableEq

structure User where
  username : String
  deriving DecidableEq

inductive SessionStatus
  | unknown
  | anonymous
  | authenticated
  deriving DecidableEq

/-- What the browser's storage holds: the flag, and a token left by an earlier version. -/
structure TokenStorage where
  signedIn : Bool
  legacyToken : Option String

def TokenStorage.hasSession (s : TokenStorage) : Bool := s.signedIn || s.legacyToken.isSome

/-- The cookie holds the session now; a legacy token is dropped. -/
def TokenStorage.markSignedIn (_ : TokenStorage) : TokenStorage := ⟨true, none⟩

def TokenStorage.clear (_ : TokenStorage) : TokenStorage := ⟨false, none⟩

structure SessionStore where
  accessToken : Option String
  user : Option User
  status : SessionStatus
  storage : TokenStorage

namespace SessionStore

def start (s : SessionStore) (tokens : TokenPair) (user : Option User) : SessionStore :=
  { accessToken := some tokens.accessToken
    user := user <|> s.user
    status := .authenticated
    storage := s.storage.markSignedIn }

/-- New tokens for the user that is there. -/
def renew (s : SessionStore) (tokens : TokenPair) : SessionStore :=
  { s with
    accessToken := some tokens.accessToken
    status := .authenticated
    storage := s.storage.markSignedIn }

def setUser (s : SessionStore) (user : User) : SessionStore := { s with user := some user }

def clear (s : SessionStore) : SessionStore :=
  { accessToken := none, user := none, status := .anonymous, storage := s.storage.clear }

def markAnonymous (s : SessionStore) : SessionStore := { s with status := .anonymous }

end SessionStore

/-! ## Calls and refreshes -/

/-- What a call is made for, which decides what its answer does. -/
inductive Purpose
  /-- Any other call, marked `SKIP_AUTH` or not. -/
  | page (marked : Bool)
  /-- `me`, for `loadProfile`, on start-up or after a sign-in. -/
  | profile (restoring : Bool)
  /-- A refresh call of a run of `refreshSession`. -/
  | refresh (run : ℕ) (legacyToken : Option String)
  /-- The password or the one-time code for tokens. -/
  | signIn
  | logout (legacyToken : Option String)
  deriving DecidableEq

/-- `SKIP_AUTH`. -/
def Purpose.skipAuth : Purpose → Bool
  | .page marked => marked
  | .profile _ => false
  | .refresh _ _ => true
  | .signIn => true
  | .logout _ => true

/-- Where a call is in the interceptor. -/
inductive Stage
  | sent
  /-- Answered 401, waiting for a run of `refreshSession`. -/
  | waiting (run : ℕ)
  | resent
  | over
  deriving DecidableEq

/-- A call, with the token it was given each time it was sent. -/
structure Call where
  purpose : Purpose
  sends : List (Option String)
  stage : Stage

/-- What began a run of `refreshSession`. -/
inductive Cause
  | restore
  /-- A call that was answered 401. -/
  | request (call : ℕ)
  deriving DecidableEq

/-- Where a run of `refreshSession` is: its first call, the pause after that one was
refused, its second call, or its end. -/
inductive Progress
  | asking (call : ℕ)
  | pausing
  | askingAgain (call : ℕ)
  | renewed (tokens : TokenPair)
  | refused
  deriving DecidableEq

structure Run where
  cause : Cause
  progress : Progress

/-- The application initializer, whose promise holds back the first component: not begun,
restoring, or over. -/
inductive Startup
  | loading
  | restoring
  | ready
  deriving DecidableEq

/-- The whole tab. Calls and runs are never removed, so that an index names one. -/
structure State where
  session : SessionStore
  calls : List Call
  runs : List Run
  /-- `inFlightRefresh`. -/
  inFlightRefresh : Option ℕ
  startup : Startup

/-- What the server, or the network, says to a call. -/
inductive Reply
  | done
  | user (user : User)
  | tokens (tokens : TokenPair)
  | unauthorized
  | failed
  deriving DecidableEq

/-- A call that succeeds is answered with what it asks for. -/
def Reply.fits : Reply → Purpose → Bool
  | .done, .page _ => true
  | .done, .logout _ => true
  | .user _, .profile _ => true
  | .tokens _, .refresh _ _ => true
  | .tokens _, .signIn => true
  | .unauthorized, _ => true
  | .failed, _ => true
  | _, _ => false

/-! ## The tab's own steps -/

namespace State

/-- A call goes out with the token that is there, or without one past the interceptor. -/
def send (t : State) (purpose : Purpose) : State :=
  { t with
    calls := t.calls ++
      [⟨purpose, [if purpose.skipAuth then none else t.session.accessToken], .sent⟩] }

def setStage (t : State) (i : ℕ) (stage : Stage) : State :=
  { t with calls := t.calls.modify i fun c => { c with stage := stage } }

def setProgress (t : State) (k : ℕ) (progress : Progress) : State :=
  { t with runs := t.runs.modify k fun r => { r with progress := progress } }

def clear (t : State) : State := { t with session := t.session.clear }

/-- `refreshSession`: a run begins with its first call. -/
def refreshSession (t : State) (cause : Cause) : State :=
  { t.send (.refresh t.runs.length t.session.storage.legacyToken) with
    runs := t.runs ++ [⟨cause, .asking t.calls.length⟩] }

/-- `refreshOnce`, for a call answered 401: the run it waits on, begun if none is in
flight. -/
def refreshOnce (t : State) (i : ℕ) : State × ℕ :=
  match t.inFlightRefresh with
  | some k => (t, k)
  | none =>
      ({ t.refreshSession (.request i) with inFlightRefresh := some t.runs.length },
        t.runs.length)

/-- The second call of a run, once the pause is over; it presents the cookie only. -/
def askAgain (t : State) (k : ℕ) : State :=
  (t.send (.refresh k none)).setProgress k (.askingAgain t.calls.length)

/-- What follows the answer of a call other than a refresh. -/
def settle (t : State) (purpose : Purpose) (reply : Reply) : State :=
  match purpose with
  | .page _ => t
  | .refresh _ _ => t
  | .profile restoring =>
      let session := match reply with
        | .user user => t.session.setUser user
        | .unauthorized => t.session.clear
        | _ => t.session
      { t with session := session, startup := if restoring then .ready else t.startup }
  | .signIn =>
      match reply with
      | .tokens tokens =>
          { t with session := t.session.start tokens none }.send (.profile false)
      | _ => t
  | .logout _ => t.clear

/-- A call is over and its caller goes on. -/
def finish (t : State) (i : ℕ) (purpose : Purpose) (reply : Reply) : State :=
  (t.setStage i .over).settle purpose reply

/-- The interceptor is done with a call: one refused for good ends the session first. -/
def conclude (t : State) (i : ℕ) (purpose : Purpose) (reply : Reply) : State :=
  (if reply = .unauthorized then t.clear else t).finish i purpose reply

/-- The calls that wait on a run, each with its purpose. -/
def waitingOn (t : State) (k : ℕ) : List (ℕ × Purpose) :=
  (List.range t.calls.length).filterMap fun i =>
    t.calls[i]?.bind fun c => if c.stage = .waiting k then some (i, c.purpose) else none

/-- Every call that waits on a run is sent once more. -/
def resend (t : State) (k : ℕ) (tokens : TokenPair) : State :=
  { t with
    calls := t.calls.map fun c =>
      if c.stage = .waiting k then
        { c with sends := c.sends ++ [some tokens.accessToken], stage := .resent }
      else c }

/-- A run of `refreshSession` ends with tokens. -/
def resolve (t : State) (k : ℕ) (cause : Cause) (tokens : TokenPair) : State :=
  let t := { t with session := t.session.renew tokens }.setProgress k (.renewed tokens)
  match cause with
  | .restore => t.send (.profile true)
  | .request _ => { t with inFlightRefresh := none }.resend k tokens

/-- A run of `refreshSession` ends with an error. -/
def reject (t : State) (k : ℕ) (cause : Cause) (reply : Reply) : State :=
  let t := t.setProgress k .refused
  match cause with
  | .restore =>
      { t with
        session := if reply = .unauthorized then t.session.clear else t.session.markAnonymous
        startup := .ready }
  | .request _ =>
      let t := { t with inFlightRefresh := none }
      (t.waitingOn k).foldl (fun t p => t.conclude p.1 p.2 reply) t

/-- A refresh call of a run is answered. A first refusal is taken for another tab's
doing. -/
def refreshAnswered (t : State) (k : ℕ) (r : Run) (reply : Reply) : Option State :=
  match r.progress with
  | .asking _ =>
      match reply with
      | .tokens tokens => some (t.resolve k r.cause tokens)
      | .unauthorized => some (t.setProgress k .pausing)
      | reply => some (t.reject k r.cause reply)
  | .askingAgain _ =>
      match reply with
      | .tokens tokens => some (t.resolve k r.cause tokens)
      | reply => some (t.reject k r.cause reply)
  | _ => none

/-- `authInterceptor`: a call is answered. -/
def answered (t : State) (i : ℕ) (c : Call) (reply : Reply) : Option State :=
  match c.stage with
  | .sent =>
      match c.purpose with
      | .refresh k _ =>
          t.runs[k]?.bind fun r => (t.setStage i .over).refreshAnswered k r reply
      | purpose =>
          if purpose.skipAuth ∨ reply ≠ .unauthorized then some (t.finish i purpose reply)
          else if t.session.storage.hasSession then
            let (t, k) := t.refreshOnce i
            some (t.setStage i (.waiting k))
          else some (t.conclude i purpose reply)
  | .resent => some (t.conclude i c.purpose reply)
  | _ => none

/-- `restore`, which the application initializer waits for. -/
def restore (t : State) : State :=
  if t.session.storage.hasSession then { t.refreshSession .restore with startup := .restoring }
  else { t with session := t.session.markAnonymous, startup := .ready }

/-- `logout`: a call, whatever its answer, and the session is cleared; without a session
there is no call. -/
def logout (t : State) : State :=
  if t.session.storage.hasSession ∨ t.session.status = .authenticated then
    t.send (.logout t.session.storage.legacyToken)
  else t.clear

end State

/-! ## The machine -/

inductive Label
  /-- The page loads. -/
  | restore
  /-- A page makes a call, marked or not. -/
  | request (marked : Bool)
  /-- The user signs in, by password or through a provider. -/
  | signIn
  | logout
  | answer (call : ℕ) (reply : Reply)
  /-- The pause of a refused refresh is over. -/
  | retry (run : ℕ)

/-- No component exists before the initializer is over: until then nothing calls but
`restore` itself, and the user has nothing to press. -/
def next (t : State) : Label → Option State
  | .restore => if t.startup = .loading then some t.restore else none
  | .request marked => if t.startup = .ready then some (t.send (.page marked)) else none
  | .signIn => if t.startup = .ready then some (t.send .signIn) else none
  | .logout => if t.startup = .ready then some t.logout else none
  | .answer i reply =>
      t.calls[i]?.bind fun c => if reply.fits c.purpose then t.answered i c reply else none
  | .retry k =>
      t.runs[k]?.bind fun r => if r.progress = .pausing then some (t.askAgain k) else none

/-- A tab that has just been opened, on whatever the storage holds. -/
def opened (storage : TokenStorage) : State where
  session := ⟨none, none, .unknown, storage⟩
  calls := []
  runs := []
  inFlightRefresh := none
  startup := .loading

/-- One page load of a tab, in every interleaving of calls, answers and the user. -/
def tab : Machine State Label where
  start t := ∃ storage, t = opened storage
  next := next

end ScoutPulse.Tab
