import ScoutPulse.Identity.Sessions
import ScoutPulse.Lib.Parties
import ScoutPulse.Platform.RateLimit

/-!
# Guessing an account's password

`Login`, step by step, for any number of requests at once: the account's budget is
checked before the password is compared and charged after the comparison has failed,
under a key made of what the caller typed. The accounting is exact: no sweep.
-/

namespace ScoutPulse.Identity

open Strings Server

/-- The key a sign-in is counted under. -/
def accountKey [Unicode] (identifier : String) : String := toLower (trimSpace identifier)

namespace Guessing

/-- How a sign-in was answered. -/
inductive Reply
  | captchaFailed
  | rateLimited
  | invalidCredentials
  | unverified
  | signedIn
  deriving DecidableEq, Repr

/-- How far a sign-in has come. -/
inductive Stage
  | begun
  /-- The account's budget has a token left. -/
  | admitted
  /-- `GetByIdentifier` has found a user. -/
  | found (id : String) (user : User)
  /-- A password has been compared in vain; the failure is still to be recorded. -/
  | failing
  | ended (reply : Reply)
  deriving DecidableEq, Repr

structure Request where
  identifier : String
  password : String
  stage : Stage
  deriving DecidableEq, Repr

/-- A comparison of an account's password with a wrong one. -/
structure Guess where
  account : String
  key : String
  time : Server.Time
  deriving DecidableEq

/-- The users, the limiter, the clock, the requests in order of arrival, and every wrong
comparison so far, the latest first. -/
structure State where
  users : String → Option User
  limit : RateLimit
  clock : Server.Time
  requests : List Request
  guesses : List Guess

/-- What a step draws: the captcha's verdict, and the row a look-up finds; none is found
as well when the look-up fails. -/
structure Draw where
  human : Bool
  id : Option String

inductive Label
  | arrive (identifier password : String)
  | advance (i : ℕ) (now : Server.Time) (draw : Draw)
  /-- A statement of another request on `users`. -/
  | store (id : String) (user : Option User)

/-- A request between its check and its charge. -/
def Stage.pending : Stage → Bool
  | .admitted | .found _ _ | .failing => true
  | _ => false

/-- A request that has yet to be charged. -/
def Stage.owing : Stage → Bool
  | .failing => true
  | _ => false

namespace State

/-- A request comes to another stage. -/
def move (s : State) (i : ℕ) (r : Request) (stage : Stage) : State :=
  { s with requests := s.requests.set i { r with stage := stage } }

/-- How many wrong comparisons with an account's password lie between two times. -/
def guessed (s : State) (account : String) (start finish : Server.Time) : ℕ :=
  timesWithin start finish ((s.guesses.filter (·.account = account)).map Guess.time)

end State

section Step

-- Whether `bcrypt.CompareHashAndPassword` succeeds on a stored hash and a password.
variable [Unicode] (compare : String → String → Bool)

/-- How many requests counted under a key are in stages of a kind. -/
def State.under (s : State) (key : String) (kind : Stage → Bool) : ℕ :=
  s.requests.countP fun r => accountKey r.identifier = key && kind r.stage

/-- The answer to somebody who knows the password. -/
def replyTo (user : User) : Reply :=
  if !user.emailVerified ∧ user.passwordHash ≠ "" then .unverified else .signedIn

/-- One step of a sign-in. -/
def advanceRequest (s : State) (i : ℕ) (r : Request) (d : Draw) : Option State :=
  match r.stage with
  | .begun =>
      if d.human = false then some (s.move i r (.ended .captchaFailed))
      else if (s.limit.blocked (accountKey r.identifier) s.clock).1 then
        some (s.move i r (.ended .rateLimited))
      else some (s.move i r .admitted)
  | .admitted =>
      match d.id with
      -- a dummy hash is compared in place of the user's
      | none => some (s.move i r .failing)
      | some id =>
          match s.users id with
          | none => none
          | some user =>
              if user.named r.identifier then some (s.move i r (.found id user)) else none
  | .found id user =>
      if compare user.passwordHash r.password then
        some (s.move i r (.ended (replyTo user)))
      else
        some ({ s with guesses := ⟨id, accountKey r.identifier, s.clock⟩ :: s.guesses }.move i r
          .failing)
  | .failing =>
      some ({ s with limit := s.limit.spend (accountKey r.identifier) s.clock }.move i r
        (.ended .invalidCredentials))
  | .ended _ => none

/-- The sign-ins of a service that starts with a fresh limiter. -/
def guessing : Machine State Label where
  start s := s.limit = newRateLimit accountFailureRatePerSecond accountFailureBurst s.clock ∧
    s.requests = [] ∧ s.guesses = []
  next s
    | .arrive identifier password =>
        some { s with requests := s.requests ++ [⟨identifier, password, .begun⟩] }
    | .advance i now d =>
        if s.clock ≤ now then
          (s.requests[i]?).bind fun r => advanceRequest compare { s with clock := now } i r d
        else none
    | .store id user => some { s with users := Function.update s.users id user }

/-- The condition on a step of one request. A sign-in the check lets through finds a token
for itself and one for each sign-in under its key that is not yet charged, and a wrong
password is compared with an account's under the key of the earlier ones. -/
def Careful (s : State) (now : Server.Time) (r : Request) : Prop :=
  match r.stage with
  | .begun =>
      (s.limit.blocked (accountKey r.identifier) now).1 = false →
        (s.under (accountKey r.identifier) Stage.pending : ℚ) + 1 ≤
          s.limit.level (accountKey r.identifier) now
  | .found id user =>
      compare user.passwordHash r.password = false →
        ∀ g ∈ s.guesses, g.account = id → g.key = accountKey r.identifier
  | _ => True

instance (s : State) (now : Server.Time) (r : Request) : Decidable (Careful compare s now r) :=
  match r with
  | ⟨identifier, _, .begun⟩ =>
      inferInstanceAs (Decidable ((s.limit.blocked (accountKey identifier) now).1 = false →
        (s.under (accountKey identifier) Stage.pending : ℚ) + 1 ≤
          s.limit.level (accountKey identifier) now))
  | ⟨identifier, password, .found id user⟩ =>
      inferInstanceAs (Decidable (compare user.passwordHash password = false →
        ∀ g ∈ s.guesses, g.account = id → g.key = accountKey identifier))
  | ⟨_, _, .admitted⟩ | ⟨_, _, .failing⟩ | ⟨_, _, .ended _⟩ => .isTrue trivial

/-- Every step of a sign-in meets the condition. -/
def careful (s : State) : Label → Prop
  | .advance i now _ => ∀ r ∈ s.requests[i]?, Careful compare s now r
  | _ => True

instance (s : State) (label : Label) : Decidable (careful compare s label) :=
  match label with
  | .advance i now _ => inferInstanceAs (Decidable (∀ r ∈ s.requests[i]?, Careful compare s now r))
  | .arrive _ _ => .isTrue trivial
  | .store _ _ => .isTrue trivial

end Step

/-! ## What a step does -/

/-- One step of a sign-in, by what it does. -/
inductive Advance [Unicode] (compare : String → String → Bool) (s : State) (i : ℕ)
    (r : Request) : State → Prop
  | refuses (reply : Reply) (begun : r.stage = .begun) :
      Advance compare s i r (s.move i r (.ended reply))
  | admits (begun : r.stage = .begun)
      (token : (s.limit.blocked (accountKey r.identifier) s.clock).1 = false) :
      Advance compare s i r (s.move i r .admitted)
  | misses (admitted : r.stage = .admitted) : Advance compare s i r (s.move i r .failing)
  | finds (id : String) (user : User) (admitted : r.stage = .admitted) :
      Advance compare s i r (s.move i r (.found id user))
  | passes (id : String) (user : User) (reply : Reply) (found : r.stage = .found id user) :
      Advance compare s i r (s.move i r (.ended reply))
  | fails (id : String) (user : User) (found : r.stage = .found id user)
      (wrong : compare user.passwordHash r.password = false) :
      Advance compare s i r
        ({ s with guesses := ⟨id, accountKey r.identifier, s.clock⟩ :: s.guesses }.move i r
          .failing)
  | charges (failing : r.stage = .failing) :
      Advance compare s i r
        ({ s with limit := s.limit.spend (accountKey r.identifier) s.clock }.move i r
          (.ended .invalidCredentials))

section Steps

variable [Unicode] {compare : String → String → Bool} {s s' : State} {i : ℕ} {r : Request}
  {d : Draw} {stage : Stage} {key account : String} {now : Server.Time}

/-- Whatever a request does next is one of the steps. -/
theorem advanceRequest_advance (advanced : advanceRequest compare s i r d = some s') :
    Advance compare s i r s' := by
  unfold advanceRequest at advanced
  cases at_ : r.stage with
  | begun =>
      simp only [at_] at advanced
      split_ifs at advanced with machine blocked
      · obtain rfl := Option.some.inj advanced
        exact .refuses _ at_
      · obtain rfl := Option.some.inj advanced
        exact .refuses _ at_
      · obtain rfl := Option.some.inj advanced
        exact .admits at_ (Bool.eq_false_iff.mpr blocked)
  | admitted =>
      simp only [at_] at advanced
      cases id : d.id with
      | none =>
          simp only [id, Option.some.injEq] at advanced
          subst advanced
          exact .misses at_
      | some id' =>
          simp only [id] at advanced
          cases row : s.users id' with
          | none => simp only [row, reduceCtorEq] at advanced
          | some user =>
              simp only [row] at advanced
              split_ifs at advanced
              obtain rfl := Option.some.inj advanced
              exact .finds id' user at_
  | found id user =>
      simp only [at_] at advanced
      split_ifs at advanced with same
      · obtain rfl := Option.some.inj advanced
        exact .passes id user _ at_
      · obtain rfl := Option.some.inj advanced
        have wrong : compare user.passwordHash r.password = false := Bool.eq_false_iff.mpr same
        exact .fails id user at_ wrong
  | failing =>
      simp only [at_, Option.some.injEq] at advanced
      subst advanced
      exact .charges at_
  | ended reply => simp only [at_, reduceCtorEq] at advanced

/-- A move changes the number of its own key's requests of a kind. -/
theorem State.under_move (present : s.requests[i]? = some r) (stage : Stage) (key : String)
    (kind : Stage → Bool) :
    (s.move i r stage).under key kind +
        (if accountKey r.identifier = key ∧ kind r.stage = true then 1 else 0) =
      s.under key kind + if accountKey r.identifier = key ∧ kind stage = true then 1 else 0 := by
  have counted : (s.requests.set i { r with stage := stage }).countP
        (fun q => accountKey q.identifier = key && kind q.stage) +
        (if (accountKey r.identifier = key && kind r.stage) = true then 1 else 0) =
      s.requests.countP (fun q => accountKey q.identifier = key && kind q.stage) +
        if (accountKey r.identifier = key && kind stage) = true then 1 else 0 :=
    Parties.countP_set present
  simp only [Bool.and_eq_true, decide_eq_true_eq] at counted
  exact counted

/-! ## The ledger of a key -/

/-- The wrong comparisons made under a key. -/
def State.times (s : State) (key : String) : List Server.Time :=
  (s.guesses.filter (·.key = key)).map Guess.time

/-- The budget of every key covers its pending sign-ins, and what is left of it when they
are charged pays for its wrong comparisons. -/
structure Paid (s : State) : Prop where
  kept : s.limit.Kept accountFailureRatePerSecond accountFailureBurst s.clock
  covered : ∀ key, (s.under key Stage.pending : ℚ) ≤ s.limit.level key s.clock
  ledger : ∀ key, Ledger accountFailureRatePerSecond (accountFailureBurst : ℚ) (s.times key)
    s.clock (s.limit.level key s.clock - s.under key Stage.owing)

omit [Unicode] in
theorem rate_nonneg : 0 ≤ accountFailureRatePerSecond := by
  norm_num [accountFailureRatePerSecond]

omit [Unicode] in
theorem Stage.pending_of_owing (owing : stage.owing = true) : stage.pending = true := by
  cases stage <;> first | rfl | cases owing

theorem State.owing_le_pending (s : State) (key : String) :
    s.under key Stage.owing ≤ s.under key Stage.pending := by
  apply List.countP_mono_left
  intro r _ counted
  rw [Bool.and_eq_true] at counted ⊢
  exact ⟨counted.1, Stage.pending_of_owing counted.2⟩

theorem State.left_nonneg (covered : (s.under key Stage.pending : ℚ) ≤ s.limit.level key now) :
    0 ≤ s.limit.level key now - s.under key Stage.owing := by
  have fewer : (s.under key Stage.owing : ℚ) ≤ s.under key Stage.pending :=
    Nat.cast_le.mpr (s.owing_le_pending key)
  linarith


/-- Time passes. -/
theorem Paid.wait (paid : Paid s) (after : s.clock ≤ now) : Paid { s with clock := now } := by
  have kept := paid.kept.mono after
  have grows : ∀ key, s.limit.level key s.clock ≤ s.limit.level key now := fun key =>
    paid.kept.level_mono key rate_nonneg after
  have covered : ∀ key, (s.under key Stage.pending : ℚ) ≤ s.limit.level key now :=
    fun key => (paid.covered key).trans (grows key)
  refine ⟨kept, covered, ?_⟩
  intro key
  have flow := paid.kept.level_grows key rate_nonneg after
  have most : s.limit.level key now ≤ accountFailureBurst := kept.level_le key
  have owing : (0 : ℚ) ≤ s.under key Stage.owing := Nat.cast_nonneg _
  apply (paid.ledger key).wait rate_nonneg after (State.left_nonneg (covered key))
  · change s.limit.level key now - s.under key Stage.owing ≤ _
    linarith
  · change s.limit.level key now - s.under key Stage.owing ≤ _
    linarith

theorem State.under_own (present : s.requests[i]? = some r) (stage : Stage)
    (kind : Stage → Bool) :
    (s.move i r stage).under (accountKey r.identifier) kind + (if kind r.stage then 1 else 0) =
      s.under (accountKey r.identifier) kind + if kind stage then 1 else 0 := by
  have counted := s.under_move present stage (accountKey r.identifier) kind
  simpa only [true_and] using counted

theorem State.under_other (present : s.requests[i]? = some r)
    (other : key ≠ accountKey r.identifier) (kind : Stage → Bool) :
    (s.move i r stage).under key kind = s.under key kind := by
  have counted := s.under_move present stage key kind
  simpa only [Ne.symm other, false_and, if_false, Nat.add_zero] using counted

/-- A step leaves the keys alone that are not its own. -/
theorem Paid.step {limit : RateLimit} {guesses : List Guess} (paid : Paid s)
    (present : s.requests[i]? = some r)
    (kept : limit.Kept accountFailureRatePerSecond accountFailureBurst s.clock)
    (levels : ∀ key, key ≠ accountKey r.identifier →
      limit.level key s.clock = s.limit.level key s.clock)
    (times : ∀ key, key ≠ accountKey r.identifier →
      (({ s with guesses := guesses } : State).times key) = s.times key)
    (covered : ((s.move i r stage).under (accountKey r.identifier) Stage.pending : ℚ) ≤
      limit.level (accountKey r.identifier) s.clock)
    (ledger : Ledger accountFailureRatePerSecond (accountFailureBurst : ℚ)
      (({ s with guesses := guesses } : State).times (accountKey r.identifier)) s.clock
      (limit.level (accountKey r.identifier) s.clock -
        (s.move i r stage).under (accountKey r.identifier) Stage.owing)) :
    Paid ({ s with limit := limit, guesses := guesses }.move i r stage) := by
  refine ⟨kept, ?_, ?_⟩
  · intro key
    by_cases own : key = accountKey r.identifier
    · subst own
      exact covered
    · change ((s.move i r stage).under key Stage.pending : ℚ) ≤ limit.level key s.clock
      rw [State.under_other present own, levels key own]
      exact paid.covered key
  · intro key
    by_cases own : key = accountKey r.identifier
    · subst own
      exact ledger
    · change Ledger _ _ (({ s with guesses := guesses } : State).times key) s.clock
        (limit.level key s.clock - (s.move i r stage).under key Stage.owing)
      rw [State.under_other present own, levels key own, times key own]
      exact paid.ledger key

omit [Unicode] in
theorem State.times_cons (g : Guess) (key : String) :
    ({ s with guesses := g :: s.guesses } : State).times key =
      if g.key = key then g.time :: s.times key else s.times key := by
  unfold State.times
  by_cases same : g.key = key <;> simp [same]

/-- A step that neither charges nor compares keeps the ledgers paid when its key's budget
covers the sign-ins that are pending after it. -/
theorem Paid.moves (paid : Paid s) (present : s.requests[i]? = some r)
    (owes : r.stage.owing = true → stage.owing = true)
    (covered : ((s.move i r stage).under (accountKey r.identifier) Stage.pending : ℚ) ≤
      s.limit.level (accountKey r.identifier) s.clock) : Paid (s.move i r stage) := by
  refine paid.step present paid.kept (fun _ _ => rfl) (fun _ _ => rfl) covered ?_
  have counted := State.under_own present stage Stage.owing
  have more : s.under (accountKey r.identifier) Stage.owing ≤
      (s.move i r stage).under (accountKey r.identifier) Stage.owing := by
    by_cases before : r.stage.owing = true
    · have after := owes before
      rw [if_pos before, if_pos after] at counted
      omega
    · rw [if_neg before] at counted
      omega
  have less : (s.under (accountKey r.identifier) Stage.owing : ℚ) ≤
      (s.move i r stage).under (accountKey r.identifier) Stage.owing := Nat.cast_le.mpr more
  apply (paid.ledger (accountKey r.identifier)).lower
  · exact (s.move i r stage).left_nonneg covered
  · linarith

/-- As long as a move makes nothing pending, what was covered stays covered. -/
theorem Paid.covered_move (paid : Paid s) (present : s.requests[i]? = some r) (stage : Stage)
    (pends : stage.pending = true → r.stage.pending = true) :
    ((s.move i r stage).under (accountKey r.identifier) Stage.pending : ℚ) ≤
      s.limit.level (accountKey r.identifier) s.clock := by
  have counted := State.under_own present stage Stage.pending
  have fewer : (s.move i r stage).under (accountKey r.identifier) Stage.pending ≤
      s.under (accountKey r.identifier) Stage.pending := by
    by_cases after : stage.pending = true
    · have before := pends after
      rw [if_pos before, if_pos after] at counted
      omega
    · rw [if_neg after] at counted
      omega
  exact le_trans (Nat.cast_le.mpr fewer) (paid.covered (accountKey r.identifier))

/-- A sign-in is let through the check. -/
theorem Paid.admit (paid : Paid s) (present : s.requests[i]? = some r)
    (begun : r.stage = .begun)
    (token : (s.under (accountKey r.identifier) Stage.pending : ℚ) + 1 ≤
      s.limit.level (accountKey r.identifier) s.clock) : Paid (s.move i r .admitted) := by
  apply paid.moves present
  · rw [begun]
    exact id
  · have counted := State.under_own present .admitted Stage.pending
    rw [begun] at counted
    simp only [Stage.pending, Bool.false_eq_true, if_false, if_true, Nat.add_zero] at counted
    rw [counted]
    push_cast
    exact token

/-- A wrong password is compared: the sign-in now owes what the ledger has noted. -/
theorem Paid.fail (paid : Paid s) (present : s.requests[i]? = some r) {id : String} {user : User}
    (found : r.stage = .found id user) :
    Paid ({ s with guesses := ⟨id, accountKey r.identifier, s.clock⟩ :: s.guesses }.move i r
      .failing) := by
  have covered := paid.covered_move present .failing fun _ => by rw [found]; rfl
  refine paid.step present paid.kept (fun _ _ => rfl) ?_ covered ?_
  · intro key other
    rw [State.times_cons, if_neg (Ne.symm other)]
  · rw [State.times_cons, if_pos rfl]
    have counted := State.under_own present .failing Stage.owing
    rw [found] at counted
    simp only [Stage.owing, Bool.false_eq_true, if_false, if_true, Nat.add_zero] at counted
    apply (paid.ledger (accountKey r.identifier)).spend rate_nonneg
    · exact (s.move i r .failing).left_nonneg covered
    · rw [counted]
      push_cast
      linarith

/-- A failure is recorded: the token it owed is spent. -/
theorem Paid.charge (paid : Paid s) (present : s.requests[i]? = some r)
    (failing : r.stage = .failing) :
    Paid ({ s with limit := s.limit.spend (accountKey r.identifier) s.clock }.move i r
      (.ended .invalidCredentials)) := by
  have pending := State.under_own present (.ended .invalidCredentials) Stage.pending
  have owing := State.under_own present (.ended .invalidCredentials) Stage.owing
  rw [failing] at pending owing
  simp only [Stage.pending, Stage.owing, Bool.false_eq_true, if_false, if_true, Nat.add_zero]
    at pending owing
  have covered := paid.covered (accountKey r.identifier)
  rw [← pending] at covered
  push_cast at covered
  have some_ : (0 : ℚ) ≤ (s.move i r (.ended .invalidCredentials)).under
      (accountKey r.identifier) Stage.pending := Nat.cast_nonneg _
  have token : 1 ≤ s.limit.level (accountKey r.identifier) s.clock := by linarith
  have spent := RateLimit.spend_level token
  refine paid.step present (paid.kept.spend _ rate_nonneg)
    (fun key other => RateLimit.spend_level_of_ne other) (fun _ _ => rfl) ?_ ?_
  · rw [spent]
    linarith
  · have ledger := paid.ledger (accountKey r.identifier)
    rw [← owing] at ledger
    rw [spent]
    have same : s.limit.level (accountKey r.identifier) s.clock - 1 -
          ((s.move i r (.ended .invalidCredentials)).under (accountKey r.identifier)
            Stage.owing : ℚ) =
        s.limit.level (accountKey r.identifier) s.clock -
          (((s.move i r (.ended .invalidCredentials)).under (accountKey r.identifier)
            Stage.owing + 1 : ℕ) : ℚ) := by
      push_cast
      ring
    rw [same]
    exact ledger

/-- Each step of a careful request keeps every failure paid for. -/
theorem Paid.advance (paid : Paid s) (present : s.requests[i]? = some r)
    (careful : Careful compare s s.clock r) (step : Advance compare s i r s') : Paid s' := by
  cases step with
  | refuses reply begun =>
      apply paid.moves present
      · rw [begun]
        exact nofun
      · exact paid.covered_move present _ nofun
  | admits begun token =>
      rw [Careful, begun] at careful
      exact paid.admit present begun (careful token)
  | misses admitted =>
      apply paid.moves present fun _ => rfl
      exact paid.covered_move present _ fun _ => by rw [admitted]; rfl
  | finds id user admitted =>
      apply paid.moves present
      · rw [admitted]
        exact nofun
      · exact paid.covered_move present _ fun _ => by rw [admitted]; rfl
  | passes id user reply found =>
      apply paid.moves present
      · rw [found]
        exact nofun
      · exact paid.covered_move present _ nofun
  | fails id user found wrong => exact paid.fail present found
  | charges failing => exact paid.charge present failing

/-- Everything a step of the machine can do. -/
theorem guessing_next {label : Label} (next : (guessing compare).next s label = some s') :
    (∃ identifier password, label = .arrive identifier password ∧
      s' = { s with requests := s.requests ++ [⟨identifier, password, .begun⟩] }) ∨
    (∃ i now d r, label = .advance i now d ∧ s.clock ≤ now ∧ s.requests[i]? = some r ∧
      Advance compare { s with clock := now } i r s') ∨
    (∃ id user, label = .store id user ∧
      s' = { s with users := Function.update s.users id user }) := by
  cases label with
  | arrive identifier password =>
      exact Or.inl ⟨identifier, password, rfl, (Option.some.inj next).symm⟩
  | advance i now d =>
      simp only [guessing] at next
      split_ifs at next with after
      obtain ⟨r, present, advanced⟩ := Option.bind_eq_some_iff.mp next
      exact Or.inr (Or.inl ⟨i, now, d, r, rfl, after, present, advanceRequest_advance advanced⟩)
  | store id user => exact Or.inr (Or.inr ⟨id, user, rfl, (Option.some.inj next).symm⟩)

/-- Whatever the service does next keeps every failure paid for. -/
theorem Paid.next {label : Label} (paid : Paid s) (met : careful compare s label)
    (next : (guessing compare).next s label = some s') : Paid s' := by
  obtain ⟨identifier, password, rfl, rfl⟩ | ⟨i, now, d, r, rfl, after, present, step⟩ |
    ⟨id, user, rfl, rfl⟩ := guessing_next next
  · have same : ∀ (key : String) (kind : Stage → Bool), kind .begun = false →
        ({ s with requests := s.requests ++ [⟨identifier, password, .begun⟩] } : State).under
          key kind = s.under key kind := by
      intro key kind idle
      simp [State.under, idle]
    refine ⟨paid.kept, fun key => ?_, fun key => ?_⟩
    · rw [same key _ rfl]
      exact paid.covered key
    · rw [same key _ rfl]
      exact paid.ledger key
  · exact (paid.wait after).advance present (met r present) step
  · exact ⟨paid.kept, paid.covered, paid.ledger⟩

/-- Nothing is owed at first. -/
theorem Paid.start (start : (guessing compare).start s) : Paid s := by
  obtain ⟨limit, requests, guesses⟩ := start
  have nobody : ∀ key kind, s.under key kind = 0 := by
    intro key kind
    simp [State.under, requests]
  have full : ∀ key, s.limit.level key s.clock = accountFailureBurst := by
    intro key
    rw [limit]
    exact RateLimit.level_of_absent rfl
  refine ⟨?_, ?_, ?_⟩
  · rw [limit]
    exact kept_newRateLimit _ _ _
  · intro key
    rw [nobody, full, Nat.cast_zero]
    exact Nat.cast_nonneg _
  · intro key
    have nothing : s.times key = [] := by simp [State.times, guesses]
    rw [nobody, full, nothing, Nat.cast_zero, sub_zero]
    exact .nil rate_nonneg (Nat.cast_nonneg _) (le_refl _)

/-! ## One key for each account -/

/-- All wrong comparisons with an account's password were made under one key. -/
def OneKey (guesses : List Guess) : Prop :=
  ∀ g ∈ guesses, ∀ g' ∈ guesses, g.account = g'.account → g.key = g'.key

omit [Unicode] in
/-- A guess under the key its account has had so far keeps every account under one key. -/
theorem OneKey.cons {g : Guess} {guesses : List Guess} (one : OneKey guesses)
    (same : ∀ g' ∈ guesses, g'.account = g.account → g'.key = g.key) :
    OneKey (g :: guesses) := by
  intro first member second member' account
  obtain rfl | old := List.mem_cons.mp member
  · obtain rfl | old' := List.mem_cons.mp member'
    · rfl
    · exact (same second old' account.symm).symm
  · obtain rfl | old' := List.mem_cons.mp member'
    · exact same first old account
    · exact one first old second old' account

/-- Whatever the service does next keeps every account under one key. -/
theorem OneKey.next {label : Label} (one : OneKey s.guesses) (met : careful compare s label)
    (next : (guessing compare).next s label = some s') : OneKey s'.guesses := by
  obtain ⟨identifier, password, rfl, rfl⟩ | ⟨i, now, d, r, rfl, after, present, step⟩ |
    ⟨id, user, rfl, rfl⟩ := guessing_next next
  · exact one
  · cases step with
    | fails id user found wrong =>
        have careful := met r present
        simp only [Careful, found] at careful
        exact one.cons (careful wrong)
    | _ =>
        dsimp only [State.move]
        exact one
  · exact one

omit [Unicode] in
/-- The wrong comparisons with an account's password are among those of its key. -/
theorem OneKey.guessed_le (one : OneKey s.guesses) (account : String) (start finish : Server.Time) :
    ∃ key, s.guessed account start finish ≤ timesWithin start finish (s.times key) := by
  by_cases tried : ∃ g ∈ s.guesses, g.account = account
  · obtain ⟨g, member, rfl⟩ := tried
    refine ⟨g.key, ?_⟩
    unfold State.guessed State.times timesWithin
    rw [List.countP_map, List.countP_map, List.countP_filter, List.countP_filter]
    apply List.countP_mono_left
    intro g' member' counted
    simp only [Bool.and_eq_true, decide_eq_true_eq] at counted ⊢
    exact ⟨counted.1, one g' member' g member counted.2⟩
  · refine ⟨"", ?_⟩
    have nothing : s.guesses.filter (·.account = account) = [] := by
      rw [List.filter_eq_nil_iff]
      intro g member named
      exact tried ⟨g, member, of_decide_eq_true named⟩
    simp [State.guessed, timesWithin, nothing]

/-- **The guess budget of an account**: ten wrong passwords, and one more every three
minutes, in every run whose sign-ins meet the condition. -/
theorem guesses_bounded (reach : (guessing compare).Reach (careful compare) s) (account : String)
    (start finish : Server.Time) (window : start ≤ finish) :
    (s.guessed account start finish : ℚ) ≤ 10 + (finish - start) / 180 := by
  have both : Paid s ∧ OneKey s.guesses := by
    apply reach.invariant
    · intro t starts
      refine ⟨Paid.start starts, ?_⟩
      intro g member
      rw [starts.2.2] at member
      cases member
    · intro t t' label kept met next
      exact ⟨kept.1.next met next, kept.2.next met next⟩
  obtain ⟨key, fewer⟩ := both.2.guessed_le account start finish
  calc (s.guessed account start finish : ℚ)
      ≤ timesWithin start finish (s.times key) := Nat.cast_le.mpr fewer
    _ ≤ accountFailureBurst + accountFailureRatePerSecond * (finish - start) :=
        (both.1.ledger key).closed start finish window
    _ = 10 + (finish - start) / 180 := by
        simp only [accountFailureBurst, accountFailureRatePerSecond]
        push_cast
        ring

end Steps

/-! ## Where the budget fails -/

section Failures

attribute [local instance] Unicode.ascii

/-- A password matches its own text as a hash. -/
def plain (hash password : String) : Bool := hash = password

/-- One user with a name and an address. -/
def sam : User := ⟨"sam", "sam@example.org", "right", true, 0⟩

/-- A service nobody has signed in to. -/
def opened : State where
  users id := if id = "u" then some sam else none
  limit := newRateLimit accountFailureRatePerSecond accountFailureBurst 0
  clock := 0
  requests := []
  guesses := []

/-- A sign-in taken some steps further, one after the other. -/
def steps (i n : ℕ) : List Label := List.replicate n (.advance i 0 ⟨true, some "u"⟩)

/-- Wrong passwords sent one after the other under each of some names. -/
def oneByOne (names : List String) : List Label :=
  names.zipIdx.flatMap fun name => .arrive name.1 "wrong" :: steps name.2 4

/-- Eleven wrong passwords at once, every one of them checked before any is charged. -/
def atOnce : List Label :=
  List.replicate 11 (.arrive "sam" "wrong") ++ (List.range 11).flatMap (steps · 1) ++
    (List.range 11).flatMap (steps · 2)

/-- Ten wrong passwords under one name and no race. -/
theorem guesses_bounded_sam :
    let s := (guessing plain).after (careful plain) opened
      (oneByOne (List.replicate 10 "sam"))
    s.guessed "u" 0 0 = 10 ∧ (s.guessed "u" 0 0 : ℚ) ≤ 10 + (0 - 0) / 180 :=
  ⟨by decide +kernel, guesses_bounded (Machine.reach_after ⟨rfl, rfl, rfl⟩ (by decide +kernel)) "u"
    0 0 (le_refl _)⟩

/-- Ten wrong passwords under the user's address, and one under the name. -/
def twoNames : List Label := oneByOne (List.replicate 10 "sam@example.org" ++ ["sam"])

/-- A run breaks the bound at the moment it starts. -/
def Exceeds (run : List Label) : Prop :=
  let s := (guessing plain).after Machine.always opened run
  (guessing plain).Reach Machine.always s ∧ ¬ (s.guessed "u" 0 0 : ℚ) ≤ 10 + (0 - 0) / 180

/-- Eleven guesses at one instant are more than the allowance. -/
theorem exceeds_of_eleven {run : List Label}
    (taken : ((guessing plain).run Machine.always opened run).isSome = true)
    (eleven : ((guessing plain).after Machine.always opened run).guessed "u" 0 0 = 11) :
    Exceeds run := by
  refine ⟨Machine.reach_after ⟨rfl, rfl, rfl⟩ taken, ?_⟩
  rw [eleven]
  norm_num

/-- Eleven comparisons at one moment: of sign-ins that were all checked before the first
was charged, and of sign-ins one after the other under two names. -/
theorem guesses_unbounded : Exceeds atOnce ∧ Exceeds twoNames := by
  refine ⟨exceeds_of_eleven ?_ ?_, exceeds_of_eleven ?_ ?_⟩ <;> decide +kernel

end Failures

end Guessing

end ScoutPulse.Identity
