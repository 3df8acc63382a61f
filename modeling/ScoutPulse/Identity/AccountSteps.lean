import ScoutPulse.Identity.Accounts
import ScoutPulse.Lib.Parties
import Mathlib.Data.List.Nodup

/-!
# What the requests on accounts do

Every step of the machine by what it does to the tables, and what each request may rely
on at its stage: nothing takes an account's password away, and no account has two
identities of one provider.
-/

open Outcome

namespace ScoutPulse.Identity.Accounts

/-! ## One step -/

/-- A stage at which a request knows nothing of an account. -/
def Stage.plain : Stage → Bool
  | .redeemed _ | .checked _ _ | .counting _ _ _ | .unlinking _ _ _ => false
  | _ => true

/-- A step from one stage to another that leaves the accounts and identities alone. -/
inductive Passes (s : State) : Stage → Stage → Prop
  | plain (before stage : Stage) (plain : stage.plain = true) : Passes s before stage
  | checks (userID hash : String) (user : User) (found : s.users userID = some user)
      (password : user.passwordHash ≠ "") (hashed : hash ≠ "") :
      Passes s .begun (.checked userID hash)
  | reads (userID : String) (provider : Provider) (user : User)
      (found : s.users userID = some user) : Passes s .begun (.counting userID provider user)
  | counts (userID : String) (provider : Provider) (user : User)
      (guarded : user.passwordHash = "" → 2 ≤ (s.providersOf userID).length) :
      Passes s (.counting userID provider user) (.unlinking userID provider (s.providersOf userID))

/-- One step of a request. -/
inductive Advance (svc : Service) (s : State) (i : ℕ) (r : Request) : State → Prop
  | passes (stage : Stage) (tokens : List VerificationToken) (passes : Passes s r.stage stage) :
      Advance svc s i r ({ s with tokens := tokens }.move i r stage)
  | registers (id : String) (user : User) (stage : Stage) (fresh : id ∉ s.userIDs)
      (password : user.passwordHash ≠ "") (flag : user.emailVerified = !svc.verification)
      (plain : stage.plain = true) : Advance svc s i r ((s.insertUser id user).move i r stage)
  | redeems (userID : String) (tokens : List VerificationToken) :
      Advance svc s i r ({ s with tokens := tokens, redeemed := userID :: s.redeemed }.move i r
        (.redeemed userID))
  | marks (userID : String) (redeemed : r.stage = .redeemed userID) :
      Advance svc s i r
        ((s.updateUser userID fun user => { user with emailVerified := true }).move i r
          (.ended .done))
  | creates (signIn : SignIn) (username id : String)
      (creating : r.stage = .creating signIn username) (fresh : id ∉ s.userIDs)
      (free : s.taken
        ⟨username, providerEmail signIn, "", signIn.profile.emailVerified, 0⟩ = false) :
      Advance svc s i r ({ s.insertUser id
          ⟨username, providerEmail signIn, "", signIn.profile.emailVerified, 0⟩ with
        unlinked := id :: s.unlinked }.move i r (.linking signIn id true))
  | links (signIn : SignIn) (userID : String) (created : Bool) (user : User)
      (linking : r.stage = .linking signIn userID created) (found : s.users userID = some user)
      (email : Option String)
      (alone : ∀ x ∈ s.identities, x.provider = signIn.provider → x.userID ≠ userID) :
      Advance svc s i r ({ s with
        identities :=
          ⟨userID, signIn.provider, signIn.profile.providerUserID, email⟩ :: s.identities
        attached := if created then s.attached
          else ⟨userID, user.passwordHash ≠ "", userID ∈ s.redeemed⟩ :: s.attached
        unlinked := s.unlinked.filter (· ≠ userID) }.move i r (.ended (.signedIn userID)))
  | changes (userID hash : String) (checked : r.stage = .checked userID hash) :
      Advance svc s i r
        ((s.updateUser userID fun user =>
          { user with passwordHash := hash, generation := user.generation + 1 }).move i r
            (.ended .done))
  | unlinks (userID : String) (provider : Provider) (counted : List Provider)
      (unlinking : r.stage = .unlinking userID provider counted) :
      Advance svc s i r ((s.unlink userID provider).move i r (.ended .done))

section Inversion

variable {svc : Service} {s s' : State} {i : ℕ} {r : Request} {d : Draw}

theorem advance_plain {stage : Stage} (plain : stage.plain = true) :
    Advance svc s i r (s.move i r stage) :=
  .passes stage s.tokens (.plain _ _ plain)

theorem advance_refuse (reason : AppErr) : Advance svc s i r (s.refuse i r reason) :=
  advance_plain rfl

/-- A sign-in with the answer to a challenge goes on as the rest does, or ends there. -/
theorem challenged_advance {rest : Option State} (stepped : challenged s i r d rest = some s')
    (advance : ∀ {t}, rest = some t → Advance svc s i r t) : Advance svc s i r s' := by
  unfold challenged at stepped
  cases failed : d.captcha with
  | some reason =>
      simp only [failed, Option.some.injEq] at stepped
      subst stepped
      exact advance_refuse reason
  | none =>
      simp only [failed] at stepped
      exact advance stepped

theorem confirm_advance (userID : String) : Advance svc s i r (confirm svc s i r userID) := by
  unfold confirm
  split_ifs with enabled
  · exact advance_plain rfl
  · exact advance_plain rfl

/-- What `Register` does is one of the steps. -/
theorem register_advance [Unicode] {username email password : String}
    (registered : register svc s i r d username email password = some s') :
    Advance svc s i r s' := by
  unfold register at registered
  cases admitted : admitRegistration svc username email password with
  | error reason =>
      simp only [admitted, Option.some.injEq] at registered
      subst registered
      exact advance_refuse reason
  | ok fields =>
      obtain ⟨username, email⟩ := fields
      simp only [admitted] at registered
      split_ifs at registered with used taken
      · obtain rfl := Option.some.inj registered
        exact advance_refuse _
      · obtain rfl := Option.some.inj registered
        unfold confirm
        split_ifs with enabled
        · exact .registers d.id _ _ used (svc.generate_ne_empty _ _) rfl rfl
        · exact .registers d.id _ _ used (svc.generate_ne_empty _ _) rfl rfl

/-- What `Login` does is one of the steps. -/
theorem login_advance {password : String} : Advance svc s i r (login svc s i r d password) := by
  unfold login
  cases d.found with
  | none => exact advance_refuse _
  | some id =>
      dsimp only
      cases s.users id with
      | none => exact advance_refuse _
      | some user =>
          dsimp only
          split_ifs with wrong unverified
          · exact advance_refuse _
          · exact advance_refuse _
          · exact advance_plain rfl

/-- A password may be changed that is there. -/
theorem admitChange_ok {found : Option User} {current new : String}
    (admitted : admitChange svc found current new = .ok ()) :
    ∃ user, found = some user ∧ user.passwordHash ≠ "" := by
  simp only [admitChange, guard_ok_iff] at admitted
  obtain ⟨-, -, rest⟩ := admitted
  cases found with
  | none => cases rest
  | some user =>
      simp only [guard_ok_iff] at rest
      exact ⟨user, rfl, rest.1⟩

/-- So is what a sign-in with a provider begins with. -/
theorem provider_advance [Unicode] {signIn : SignIn}
    (stepped : beginRequest svc s i r d (.provider signIn) = some s') : Advance svc s i r s' := by
  simp only [beginRequest] at stepped
  cases found : s.identityOf signIn with
  | some x =>
      simp only [found, Option.some.injEq] at stepped
      subst stepped
      exact advance_plain rfl
  | none =>
      simp only [found] at stepped
      split_ifs at stepped with address
      · obtain rfl := Option.some.inj stepped
        exact advance_plain rfl
      · obtain rfl := Option.some.inj stepped
        exact advance_plain rfl

/-- So is what `ChangePassword` begins with. -/
theorem changePassword_advance [Unicode] {claims : Claims} {current new : String}
    (begun : r.stage = .begun)
    (stepped : beginRequest svc s i r d (.changePassword (some claims) current new) = some s') :
    Advance svc s i r s' := by
  simp only [beginRequest] at stepped
  cases admitted : admitChange svc (s.users claims.userID) current new with
  | error reason =>
      simp only [admitted, Option.some.injEq] at stepped
      subst stepped
      exact advance_refuse _
  | ok u =>
      simp only [admitted, Option.some.injEq] at stepped
      subst stepped
      obtain ⟨user, found, password⟩ := admitChange_ok admitted
      refine .passes _ s.tokens ?_
      rw [begun]
      exact .checks _ _ user found password (svc.generate_ne_empty _ _)

/-- So is what `UnlinkIdentity` begins with. -/
theorem unlinkIdentity_advance [Unicode] {claims : Claims} {name : String}
    (begun : r.stage = .begun)
    (stepped : beginRequest svc s i r d (.unlinkIdentity (some claims) name) = some s') :
    Advance svc s i r s' := by
  simp only [beginRequest] at stepped
  cases parsed : Provider.parseName name with
  | none =>
      simp only [parsed, Option.some.injEq] at stepped
      subst stepped
      exact advance_refuse _
  | some provider =>
      simp only [parsed] at stepped
      cases found : s.users claims.userID with
      | none =>
          simp only [found, Option.some.injEq] at stepped
          subst stepped
          exact advance_refuse _
      | some user =>
          simp only [found, Option.some.injEq] at stepped
          subst stepped
          refine .passes _ s.tokens ?_
          rw [begun]
          exact .reads _ provider user found

/-- What `ResendVerification` does is one of the steps. -/
theorem resendVerification_advance [Unicode] {email : String}
    (stepped : beginRequest svc s i r d (.resendVerification email) = some s') :
    Advance svc s i r s' := by
  refine challenged_advance stepped fun answered => ?_
  cases valid : Validate.email svc.mail email with
  | error reason =>
      simp only [valid, Option.some.injEq] at answered
      subst answered
      exact advance_plain rfl
  | ok address =>
      simp only [valid] at answered
      split_ifs at answered with found
      cases sought : unproved s d.found with
      | none =>
          simp only [sought, Option.some.injEq] at answered
          subst answered
          exact advance_plain rfl
      | some userID =>
          simp only [sought, Option.some.injEq] at answered
          subst answered
          exact confirm_advance userID

/-- What `VerifyEmail` begins with is one of the steps. -/
theorem verifyEmail_advance [Unicode] {token : String}
    (stepped : beginRequest svc s i r d (.verifyEmail token) = some s') :
    Advance svc s i r s' := by
  simp only [beginRequest] at stepped
  split_ifs at stepped with off blank
  · obtain rfl := Option.some.inj stepped
    exact advance_refuse _
  · obtain rfl := Option.some.inj stepped
    exact advance_refuse _
  · cases found : redeemable s token d.now with
    | none =>
        simp only [found, Option.some.injEq] at stepped
        subst stepped
        exact advance_refuse _
    | some t =>
        simp only [found, Option.some.injEq] at stepped
        subst stepped
        exact .redeems t.userID _

/-- What a request begins with is one of the steps, whichever kind it is. -/
theorem beginRequest_advance [Unicode] (begun : r.stage = .begun)
    (stepped : beginRequest svc s i r d r.kind = some s') : Advance svc s i r s' := by
  cases kind : r.kind with
  | register username email password =>
      rw [kind] at stepped
      exact challenged_advance stepped register_advance
  | login identifier password =>
      rw [kind] at stepped
      refine challenged_advance stepped fun answered => ?_
      split_ifs at answered with limited found
      · obtain rfl := Option.some.inj answered
        exact advance_refuse _
      · obtain rfl := Option.some.inj answered
        exact login_advance
  | provider signIn =>
      rw [kind] at stepped
      exact provider_advance stepped
  | changePassword claims current new =>
      rw [kind] at stepped
      cases claims with
      | none =>
          obtain rfl := Option.some.inj stepped
          exact advance_refuse _
      | some claims => exact changePassword_advance begun stepped
  | unlinkIdentity claims name =>
      rw [kind] at stepped
      cases claims with
      | none =>
          obtain rfl := Option.some.inj stepped
          exact advance_refuse _
      | some claims => exact unlinkIdentity_advance begun stepped
  | resendVerification email =>
      rw [kind] at stepped
      exact resendVerification_advance stepped
  | verifyEmail token =>
      rw [kind] at stepped
      exact verifyEmail_advance stepped

/-- What `Link` needs and what it does. -/
theorem link_spec {userID : String} {signIn : SignIn} (linked : s.link userID signIn = some s') :
    (∀ x ∈ s.identities, x.provider = signIn.provider → x.userID ≠ userID) ∧
      ∃ email, s' = { s with
        identities := ⟨userID, signIn.provider, signIn.profile.providerUserID, email⟩ ::
          s.identities } := by
  obtain ⟨clash, linked⟩ := Option.ite_none_left_eq_some.mp linked
  refine ⟨?_, _, (Option.some.inj linked).symm⟩
  intro x member provider own
  apply clash
  refine List.any_eq_true.mpr ⟨x, member, ?_⟩
  simp [provider, own]

/-- Linking an identity is one of the steps, whether the account is new or was found. -/
theorem linkIdentity_advance {signIn : SignIn} {userID : String} {created : Bool}
    (linking : r.stage = .linking signIn userID created) :
    Advance svc s i r (linkIdentity s i r signIn userID created) := by
  unfold linkIdentity
  cases found : s.users userID with
  | none => exact advance_refuse _
  | some user =>
      dsimp only
      cases linked : s.link userID signIn with
      | none => exact advance_refuse _
      | some t =>
          obtain ⟨alone, email, rfl⟩ := link_spec linked
          exact .links signIn userID created user linking found email alone

/-- Making an account for a provider's profile is one of the steps. -/
theorem createAccount_advance {signIn : SignIn} {username : String}
    (creating : r.stage = .creating signIn username)
    (created : createAccount s i r d signIn username = some s') : Advance svc s i r s' := by
  unfold createAccount at created
  dsimp only at created
  split_ifs at created with used taken
  · obtain rfl := Option.some.inj created
    exact advance_refuse _
  · obtain rfl := Option.some.inj created
    exact .creates signIn username d.id creating used (Bool.eq_false_iff.mpr taken)

/-- Attaching an identity to an account that was found is one of the steps. -/
theorem attachTo_advance [Unicode] {signIn : SignIn} {found : Option String} :
    Advance svc s i r (attachTo s i r signIn found) := by
  unfold attachTo
  cases found with
  | none => exact advance_plain rfl
  | some id =>
      dsimp only
      split_ifs with unverified
      · exact advance_refuse _
      · exact advance_plain rfl

/-- Whatever a request does next is one of the steps. -/
theorem advanceRequest_advance [Unicode] (advanced : advanceRequest svc s i r d = some s') :
    Advance svc s i r s' := by
  unfold advanceRequest at advanced
  cases at_ : r.stage with
  | begun =>
      simp only [at_] at advanced
      exact beginRequest_advance at_ advanced
  | confirming userID =>
      simp only [at_, Option.some.injEq] at advanced
      subst advanced
      exact advance_plain rfl
  | issuing userID outstanding =>
      simp only [at_] at advanced
      split_ifs at advanced with used
      obtain rfl := Option.some.inj advanced
      exact .passes _ _ (.plain _ _ rfl)
  | redeemed userID =>
      simp only [at_, Option.some.injEq] at advanced
      subst advanced
      exact .marks userID at_
  | linked userID =>
      simp only [at_] at advanced
      cases found : s.users userID with
      | none =>
          simp only [found, Option.some.injEq] at advanced
          subst advanced
          exact advance_refuse _
      | some user =>
          simp only [found, Option.some.injEq] at advanced
          subst advanced
          exact advance_plain rfl
  | seeking signIn =>
      simp only [at_] at advanced
      split_ifs at advanced with found
      obtain rfl := Option.some.inj advanced
      exact attachTo_advance
  | naming signIn base candidate attempt =>
      simp only [at_] at advanced
      split_ifs at advanced with unlike free more
      · obtain rfl := Option.some.inj advanced
        exact advance_plain rfl
      · obtain rfl := Option.some.inj advanced
        exact advance_plain rfl
      · obtain rfl := Option.some.inj advanced
        exact advance_refuse _
  | creating signIn username =>
      simp only [at_] at advanced
      exact createAccount_advance at_ advanced
  | linking signIn userID created =>
      simp only [at_, Option.some.injEq] at advanced
      subst advanced
      exact linkIdentity_advance at_
  | checked userID hash =>
      simp only [at_] at advanced
      cases found : s.users userID with
      | none =>
          simp only [found, Option.some.injEq] at advanced
          subst advanced
          exact advance_refuse _
      | some user =>
          simp only [found, Option.some.injEq] at advanced
          subst advanced
          exact .changes userID hash at_
  | counting userID provider user =>
      simp only [at_] at advanced
      split_ifs at advanced with last
      · obtain rfl := Option.some.inj advanced
        exact advance_refuse _
      · obtain rfl := Option.some.inj advanced
        refine .passes _ s.tokens ?_
        rw [at_]
        refine .counts userID provider user fun none_ => ?_
        by_contra few
        exact last ⟨none_, by omega⟩
  | unlinking userID provider counted =>
      simp only [at_] at advanced
      split_ifs at advanced with there
      · obtain rfl := Option.some.inj advanced
        exact .unlinks userID provider counted at_
      · obtain rfl := Option.some.inj advanced
        exact advance_refuse _
  | ended reply => simp only [at_, reduceCtorEq] at advanced

/-- Everything a step of the machine can do. -/
theorem accounts_next [Unicode] {label : Label} (next : (accounts svc).next s label = some s') :
    (∃ kind, label = .arrive kind ∧
      s' = { s with requests := s.requests ++ [⟨kind, .begun⟩] }) ∨
    (∃ i d r, label = .advance i d ∧ s.requests[i]? = some r ∧ Advance svc s i r s') ∨
    (∃ i r, s.requests[i]? = some r ∧ s' = s.refuse i r .internal) := by
  cases label with
  | arrive kind => exact Or.inl ⟨kind, rfl, (Option.some.inj next).symm⟩
  | advance i d =>
      obtain ⟨r, present, advanced⟩ := Option.bind_eq_some_iff.mp next
      exact Or.inr (Or.inl ⟨i, d, r, rfl, present, advanceRequest_advance advanced⟩)
  | fail i =>
      obtain ⟨r, present, failed⟩ := Option.bind_eq_some_iff.mp next
      refine Or.inr (Or.inr ⟨i, r, present, ?_⟩)
      cases at_ : r.stage <;> simp_all

end Inversion

/-! ## What each stage relies on -/

/-- An account is there and has a password. -/
def HasPassword (users : String → Option User) (userID : String) : Prop :=
  ∃ user, users userID = some user ∧ user.passwordHash ≠ ""

/-- What a request knows at a stage. -/
def Ready (s : State) : Stage → Prop
  | .redeemed userID => userID ∈ s.redeemed
  | .checked userID hash => HasPassword s.users userID ∧ hash ≠ ""
  | .counting userID _ user => user.passwordHash ≠ "" → HasPassword s.users userID
  | .unlinking userID _ counted =>
      HasPassword s.users userID ∨ (counted.Nodup ∧ 2 ≤ counted.length)
  | _ => True

structure Sound (s : State) : Prop where
  known : ∀ id, id ∉ s.userIDs → s.users id = none
  distinct : (s.identities.map fun x => (x.userID, x.provider)).Nodup
  ready : ∀ (i : ℕ) (r : Request), s.requests[i]? = some r → Ready s r.stage

section Steps

variable {svc : Service} {s s' : State} {i : ℕ} {r : Request} {stage : Stage}

theorem ready_of_plain (plain : stage.plain = true) : Ready s stage := by
  cases stage with
  | redeemed | checked | counting | unlinking => cases plain
  | _ => trivial

/-- A new account leaves those that have a password with one. -/
theorem HasPassword.insert {users : String → Option User} {id userID : String} {user : User}
    (absent : users id = none) (has : HasPassword users userID) :
    HasPassword (Function.update users id (some user)) userID := by
  obtain ⟨found, present, password⟩ := has
  refine ⟨found, ?_, password⟩
  rw [Function.update_of_ne ?_]
  · exact present
  · rintro rfl
    rw [absent] at present
    cases present

/-- So does a change to an account that leaves a password where one is. -/
theorem HasPassword.update {users : String → Option User} {id userID : String}
    {change : User → User}
    (keeps : ∀ user, user.passwordHash ≠ "" → (change user).passwordHash ≠ "")
    (has : HasPassword users userID) :
    HasPassword (Function.update users id ((users id).map change)) userID := by
  obtain ⟨found, present, password⟩ := has
  by_cases same : userID = id
  · subst same
    refine ⟨change found, ?_, keeps found password⟩
    rw [Function.update_self, present, Option.map_some]
  · exact ⟨found, (Function.update_of_ne same _ _).trans present, password⟩

/-- A step leaves a request what it knows. -/
theorem Ready.mono (ready : Ready s stage)
    (has : ∀ userID, HasPassword s.users userID → HasPassword s'.users userID)
    (redeemed : ∀ userID ∈ s.redeemed, userID ∈ s'.redeemed) : Ready s' stage := by
  cases stage with
  | redeemed userID => exact redeemed userID ready
  | checked userID hash => exact ⟨has userID ready.1, ready.2⟩
  | counting userID provider user => exact fun password => has userID (ready password)
  | unlinking userID provider counted => exact ready.imp_left (has userID)
  | _ => trivial

/-- The providers of an account's identities are all different. -/
theorem Sound.providersOf (sound : Sound s) (userID : String) : (s.providersOf userID).Nodup := by
  refine List.Nodup.of_map (fun provider => (userID, provider)) ?_
  rw [State.providersOf, List.map_map]
  have same : (s.identities.filter (·.userID = userID)).map
        ((fun provider => (userID, provider)) ∘ LinkedIdentity.provider) =
      (s.identities.filter (·.userID = userID)).map fun x => (x.userID, x.provider) := by
    apply List.map_congr_left
    intro x member
    have own : x.userID = userID := of_decide_eq_true (List.mem_filter.mp member).2
    simp [own]
  rw [same]
  exact sound.distinct.sublist (List.filter_sublist.map _)

/-- What the new stage of a request rests on holds when it is reached. -/
theorem Passes.ready {before : Stage} (passes : Passes s before stage) (sound : Sound s)
    (ready : Ready s before) : Ready s stage := by
  cases passes with
  | plain before stage plain => exact ready_of_plain plain
  | checks userID hash user found password hashed => exact ⟨⟨user, found, password⟩, hashed⟩
  | reads userID provider user found => exact fun password => ⟨user, found, password⟩
  | counts userID provider user guarded =>
      by_cases none_ : user.passwordHash = ""
      · exact Or.inr ⟨sound.providersOf userID, guarded none_⟩
      · exact Or.inl (ready none_)

/-- What has to be shown of a step of one request: passwords and redeemed links stay, and
the request knows what its new stage says. -/
theorem Sound.step {t : State} (sound : Sound s) (present : s.requests[i]? = some r)
    (known : ∀ id, id ∉ t.userIDs → t.users id = none)
    (distinct : (t.identities.map fun x => (x.userID, x.provider)).Nodup)
    (has : ∀ userID, HasPassword s.users userID → HasPassword t.users userID)
    (redeemed : ∀ userID ∈ s.redeemed, userID ∈ t.redeemed) (ready : Ready t stage)
    (requests : t.requests = s.requests) : Sound (t.move i r stage) := by
  refine ⟨known, distinct, ?_⟩
  intro j q found
  have found' : (s.requests.set i { r with stage := stage })[j]? = some q := requests ▸ found
  obtain ⟨rfl, rfl⟩ | ⟨-, before⟩ := (Parties.set_eq_some present).mp found'
  · exact ready.mono (fun _ has => has) (fun _ member => member)
  · exact (sound.ready j q before).mono has redeemed

theorem Sound.insert (sound : Sound s) {id : String} {user : User} :
    ∀ id', id' ∉ (s.insertUser id user).userIDs → (s.insertUser id user).users id' = none := by
  intro id' unknown
  rw [State.insertUser, List.mem_cons, not_or] at unknown
  exact (Function.update_of_ne unknown.1 _ _).trans (sound.known id' unknown.2)

/-- An account that is not listed is not there, after a change to one. -/
theorem Sound.update (sound : Sound s) {userID : String} {change : User → User} :
    ∀ id, id ∉ s.userIDs → (s.updateUser userID change).users id = none := by
  intro id unknown
  have absent := sound.known id unknown
  by_cases same : id = userID
  · subst same
    change Function.update s.users id _ id = none
    rw [Function.update_self, absent, Option.map_none]
  · exact (Function.update_of_ne same _ _).trans absent

/-- A step of a request keeps the accounts sound: one case for each step. -/
theorem Sound.advance (sound : Sound s) (present : s.requests[i]? = some r)
    (advance : Advance svc s i r s') : Sound s' := by
  have ready := sound.ready i r present
  cases advance with
  | passes stage tokens passes =>
      refine sound.step present ?_ ?_ (fun _ => id) (fun _ => id) ?_ rfl
      · exact sound.known
      · exact sound.distinct
      · exact (passes.ready sound ready).mono (fun _ => id) (fun _ => id)
  | registers id user stage fresh password flag plain =>
      refine sound.step present sound.insert ?_ ?_ (fun _ member => member)
        (ready_of_plain plain) rfl
      · exact sound.distinct
      · exact fun _ => .insert (sound.known id fresh)
  | redeems userID tokens =>
      refine sound.step present ?_ ?_ (fun _ => id) ?_ ?_ rfl
      · exact sound.known
      · exact sound.distinct
      · exact fun _ => List.mem_cons_of_mem userID
      · exact List.mem_cons_self
  | marks userID redeemed =>
      refine sound.step present sound.update ?_ ?_ (fun _ => id) ?_ rfl
      · exact sound.distinct
      · exact fun _ => .update fun _ password => password
      · trivial
  | creates signIn username id creating fresh free =>
      refine sound.step present ?_ ?_ ?_ (fun _ member => member) ?_ rfl
      · exact sound.insert
      · exact sound.distinct
      · exact fun _ => .insert (sound.known id fresh)
      · trivial
  | links signIn userID created user linking found email alone =>
      refine sound.step present ?_ ?_ (fun _ => id) (fun _ => id) ?_ rfl
      · exact sound.known
      · rw [List.map_cons, List.nodup_cons]
        refine ⟨?_, sound.distinct⟩
        intro member
        obtain ⟨x, linked, same⟩ := List.mem_map.mp member
        rw [Prod.mk.injEq] at same
        exact alone x linked same.2 same.1
      · trivial
  | changes userID hash checked =>
      rw [checked] at ready
      refine sound.step present sound.update ?_ ?_ (fun _ => id) ?_ rfl
      · exact sound.distinct
      · exact fun _ => .update fun _ _ => ready.2
      · trivial
  | unlinks userID provider counted unlinking =>
      refine sound.step present ?_ ?_ (fun _ => id) (fun _ => id) ?_ rfl
      · exact sound.known
      · exact sound.distinct.sublist (List.filter_sublist.map _)
      · trivial

/-- So does whatever the service does next. -/
theorem Sound.next [Unicode] {label : Label} (sound : Sound s)
    (next : (accounts svc).next s label = some s') : Sound s' := by
  obtain ⟨kind, rfl, rfl⟩ | ⟨i, d, r, rfl, present, advance⟩ | ⟨i, r, present, rfl⟩ :=
    accounts_next next
  · refine ⟨sound.known, sound.distinct, ?_⟩
    intro j q found
    obtain before | ⟨-, rfl⟩ := Parties.append_eq_some.mp found
    · exact sound.ready j q before
    · trivial
  · exact sound.advance present advance
  · have refuses : Advance svc s i r (s.refuse i r .internal) := advance_refuse .internal
    exact sound.advance present refuses

theorem sound_start [Unicode] (start : (accounts svc).start s) : Sound s := by
  subst start
  refine ⟨fun _ _ => rfl, List.nodup_nil, ?_⟩
  intro i r present
  cases present

end Steps

end ScoutPulse.Identity.Accounts
