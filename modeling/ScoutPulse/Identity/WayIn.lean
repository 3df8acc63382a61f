import ScoutPulse.Identity.AccountSteps

/-!
# A way in

Which accounts have a password or an identity, and what takes the last way in from one:
an identity that is unlinked after the other one the guard has counted is gone, and an
account that `createFromProvider` has inserted and not linked yet.
-/

namespace ScoutPulse.Identity.Accounts

/-- Every account has a password or an identity. -/
def WayIn (s : State) : Prop :=
  ∀ userID user, s.users userID = some user →
    user.passwordHash ≠ "" ∨ ∃ x ∈ s.identities, x.userID = userID

/-- An account without a password from which an identity is about to be deleted, with the
providers that were counted beside it. -/
def Stage.removal : Stage → Option (String × Provider × List Provider)
  | .unlinking userID provider counted => some (userID, provider, counted)
  | _ => none

/-- The account `createFromProvider` is about to insert. -/
def Stage.newcomer : Stage → Option User
  | .creating signIn username =>
      some ⟨username, providerEmail signIn, "", signIn.profile.emailVerified, 0⟩
  | _ => none

/-- The condition on the deletion of an identity: when its account has no password, every
other provider that was counted is still linked. -/
def Guarded (s : State) : Label → Prop
  | .advance i _ => ∀ r ∈ s.requests[i]?, ∀ x ∈ r.stage.removal, ∀ user ∈ s.users x.1,
      user.passwordHash = "" → ∀ other ∈ x.2.2, other ≠ x.2.1 → other ∈ s.providersOf x.1
  | _ => True

/-- The condition on `createFromProvider`: its `INSERT` fails. -/
def Refused (s : State) : Label → Prop
  | .advance i _ => ∀ r ∈ s.requests[i]?, ∀ user ∈ r.stage.newcomer, s.taken user = true
  | _ => True

/-- The condition on a step. -/
def Lasting (s : State) (label : Label) : Prop := Guarded s label ∧ Refused s label

instance (s : State) (label : Label) : Decidable (Guarded s label) :=
  match label with
  | .advance i _ => inferInstanceAs (Decidable (∀ r ∈ s.requests[i]?, ∀ x ∈ r.stage.removal,
      ∀ user ∈ s.users x.1, user.passwordHash = "" → ∀ other ∈ x.2.2, other ≠ x.2.1 →
        other ∈ s.providersOf x.1))
  | .arrive _ => .isTrue trivial
  | .fail _ => .isTrue trivial

instance (s : State) (label : Label) : Decidable (Refused s label) :=
  match label with
  | .advance i _ => inferInstanceAs (Decidable (∀ r ∈ s.requests[i]?, ∀ user ∈ r.stage.newcomer,
      s.taken user = true))
  | .arrive _ => .isTrue trivial
  | .fail _ => .isTrue trivial

instance (s : State) (label : Label) : Decidable (Lasting s label) :=
  inferInstanceAs (Decidable (Guarded s label ∧ Refused s label))

section Steps

variable {svc : Service} {s s' : State} {i : ℕ} {r : Request}

/-- Every account has a way in, or is one `createFromProvider` has yet to link. -/
def WayInOrNew (s : State) : Prop :=
  ∀ userID user, s.users userID = some user →
    user.passwordHash ≠ "" ∨ (∃ x ∈ s.identities, x.userID = userID) ∨ userID ∈ s.unlinked

theorem mem_providersOf {userID : String} {provider : Provider} :
    provider ∈ s.providersOf userID ↔
      ∃ x ∈ s.identities, x.userID = userID ∧ x.provider = provider := by
  simp [State.providersOf, and_assoc]

/-- Of two providers or more, one is another one than the given. -/
theorem exists_other {counted : List Provider} (distinct : counted.Nodup)
    (several : 2 ≤ counted.length) (provider : Provider) : ∃ other ∈ counted, other ≠ provider := by
  match counted, several with
  | first :: second :: rest, _ =>
      by_cases same : first = provider
      · subst same
        rw [List.nodup_cons] at distinct
        refine ⟨second, by simp, ?_⟩
        rintro rfl
        exact distinct.1 List.mem_cons_self
      · exact ⟨first, by simp, same⟩

/-- An account that is new has a way in or is known to be new. -/
theorem WayInOrNew.insert {id : String} {user : User} {unlinked : List String}
    (wayIn : WayInOrNew s) (kept : ∀ userID ∈ s.unlinked, userID ∈ unlinked)
    (own : user.passwordHash ≠ "" ∨ id ∈ unlinked) :
    WayInOrNew { s.insertUser id user with unlinked := unlinked } := by
  intro userID found present
  obtain ⟨rfl, rfl⟩ | ⟨-, before⟩ := Rows.put_eq_some.mp present
  · exact own.imp_right Or.inr
  · obtain password | linked | new := wayIn userID found before
    · exact Or.inl password
    · exact Or.inr (Or.inl linked)
    · exact Or.inr (Or.inr (kept userID new))

/-- A change that leaves a password where one was leaves a way in. -/
theorem WayInOrNew.update {userID : String} {change : User → User} (wayIn : WayInOrNew s)
    (keeps : ∀ user, s.users userID = some user → user.passwordHash ≠ "" →
      (change user).passwordHash ≠ "") : WayInOrNew (s.updateUser userID change) := by
  intro id found present
  obtain ⟨rfl, changed⟩ | ⟨-, before⟩ := Rows.update_eq_some.mp present
  · obtain ⟨user, there, rfl⟩ := Option.map_eq_some_iff.mp changed
    exact (wayIn id user there).imp_left (keeps user there)
  · exact wayIn id found before

/-- Unlinking leaves a way in, when another identity that was counted is still there. -/
theorem WayInOrNew.unlink (sound : Sound s) (present : s.requests[i]? = some r)
    (wayIn : WayInOrNew s) {userID : String} {provider : Provider} {counted : List Provider}
    (unlinking : r.stage = .unlinking userID provider counted)
    (guarded : ∀ user ∈ s.users userID, user.passwordHash = "" →
      ∀ other ∈ counted, other ≠ provider → other ∈ s.providersOf userID) :
    WayInOrNew (s.unlink userID provider) := by
  have ready := sound.ready i r present
  rw [unlinking] at ready
  intro id user found
  by_cases own : id = userID
  · subst own
    by_cases password : user.passwordHash = ""
    · obtain ⟨user', found', has⟩ | ⟨distinct, several⟩ := ready
      · obtain rfl := Option.some.inj (found'.symm.trans found)
        exact absurd password has
      · obtain ⟨other, member, differs⟩ := exists_other distinct several provider
        obtain ⟨x, linked, mine, is_⟩ :=
          mem_providersOf.mp (guarded user found password other member differs)
        refine Or.inr (Or.inl ⟨x, ?_, mine⟩)
        refine List.mem_filter.mpr ⟨linked, decide_eq_true ?_⟩
        rintro ⟨-, same⟩
        exact differs (is_.symm.trans same)
    · exact Or.inl password
  · obtain password | ⟨x, linked, mine⟩ | new := wayIn id user found
    · exact Or.inl password
    · refine Or.inr (Or.inl ⟨x, ?_, mine⟩)
      refine List.mem_filter.mpr ⟨linked, decide_eq_true ?_⟩
      rintro ⟨same, -⟩
      exact own (mine.symm.trans same)
    · exact Or.inr (Or.inr new)

/-- A step keeps a way in for every account but those without a password just made. -/
theorem WayInOrNew.advance (sound : Sound s) (present : s.requests[i]? = some r)
    (wayIn : WayInOrNew s)
    (guarded : ∀ x ∈ r.stage.removal, ∀ user ∈ s.users x.1, user.passwordHash = "" →
      ∀ other ∈ x.2.2, other ≠ x.2.1 → other ∈ s.providersOf x.1)
    (advance : Advance svc s i r s') : WayInOrNew s' := by
  cases advance with
  | passes stage tokens passes => exact wayIn
  | registers id user stage fresh password flag plain =>
      exact wayIn.insert (fun _ new => new) (Or.inl password)
  | redeems userID tokens => exact wayIn
  | marks userID redeemed => exact wayIn.update fun _ _ password => password
  | creates signIn username id creating fresh free =>
      exact wayIn.insert (fun _ => List.mem_cons_of_mem id) (Or.inr List.mem_cons_self)
  | links signIn userID created user linking found email alone =>
      intro id other there
      by_cases own : id = userID
      · exact Or.inr (Or.inl ⟨_, List.mem_cons_self, own.symm⟩)
      · obtain password | ⟨x, linked, mine⟩ | new := wayIn id other there
        · exact Or.inl password
        · exact Or.inr (Or.inl ⟨x, List.mem_cons_of_mem _ linked, mine⟩)
        · exact Or.inr (Or.inr (List.mem_filter.mpr ⟨new, decide_eq_true own⟩))
  | changes userID hash checked =>
      have ready := sound.ready i r present
      rw [checked] at ready
      exact wayIn.update fun _ _ _ => ready.2
  | unlinks userID provider counted unlinking =>
      have removal : (userID, provider, counted) ∈ r.stage.removal := by
        rw [unlinking]
        rfl
      exact wayIn.unlink sound present unlinking (guarded _ removal)

/-- No account is left for `createFromProvider` to link when none of its `INSERT`s goes
through. -/
theorem unlinked_advance (none_ : s.unlinked = [])
    (refused : ∀ user ∈ r.stage.newcomer, s.taken user = true)
    (advance : Advance svc s i r s') : s'.unlinked = [] := by
  cases advance with
  | creates signIn username id creating fresh free =>
      have newcomer : ⟨username, providerEmail signIn, "", signIn.profile.emailVerified, 0⟩ ∈
          r.stage.newcomer := by
        rw [creating]
        rfl
      rw [refused _ newcomer] at free
      cases free
  | links signIn userID created user linking found email alone =>
      change s.unlinked.filter _ = []
      rw [none_, List.filter_nil]
  | _ => exact none_

end Steps

section Runs

variable [Unicode] {svc : Service}

/-- In every run in which the guard of `UnlinkIdentity` holds until the identity is deleted,
an account without a way in is one that `createFromProvider` has inserted and not linked. Only
that handler makes accounts without a password, so that this is the result about unlinking:
where it inserts nothing, as in `way_in`, the guard is met by every account. -/
theorem way_in_or_new {s : State} (reach : (accounts svc).Reach Guarded s) :
    Sound s ∧ WayInOrNew s := by
  apply reach.invariant
  · intro t start
    refine ⟨sound_start start, ?_⟩
    subst start
    intro userID user found
    cases found
  · intro t t' label kept guarded next
    refine ⟨kept.1.next next, ?_⟩
    obtain ⟨kind, rfl, rfl⟩ | ⟨i, d, r, rfl, present, advance⟩ | ⟨i, r, present, rfl⟩ :=
      accounts_next next
    · exact kept.2
    · exact kept.2.advance kept.1 present (guarded r present) advance
    · exact kept.2

/-- **Every account keeps a way in**, in every state of every run in which the guard of
`UnlinkIdentity` holds until the identity is deleted and no account is created for a
provider's. -/
theorem way_in {s : State} (reach : (accounts svc).Reach Lasting s) : WayIn s := by
  obtain ⟨-, wayIn⟩ := way_in_or_new (reach.mono And.left)
  have linked : s.unlinked = [] := by
    apply reach.invariant
    · rintro t rfl
      rfl
    · intro t t' label none_ lasting next
      obtain ⟨kind, rfl, rfl⟩ | ⟨i, d, r, rfl, present, advance⟩ | ⟨i, r, present, rfl⟩ :=
        accounts_next next
      · exact none_
      · exact unlinked_advance none_ (lasting.2 r present) advance
      · exact none_
  intro userID user found
  obtain password | identity | new := wayIn userID user found
  · exact Or.inl password
  · exact Or.inr identity
  · rw [linked] at new
    cases new

end Runs

section Examples

attribute [local instance] Unicode.ascii

/-- A service that confirms addresses, where every hash has the salt of its draw. -/
def confirming : Service where
  verification := true
  mailer := true
  mail := ⟨some, fun a b => a = b⟩
  generate salt password := "$" ++ salt ++ password
  compare hash password := hash = "$salt" ++ password
  generate_ne_empty salt password := by simp [String.append_assoc]

def noAccounts : State := ⟨fun _ => none, [], [], [], [], [], [], []⟩

/-- A step at which a look-up finds a row or none, and a new row has a key. -/
def step (i : ℕ) (found : Option String) (id : String) : Label :=
  .advance i ⟨0, none, false, found, id, id, "salt"⟩

def byGoogle : SignIn := ⟨.google, ⟨"g", "a@b.c", true, "Sam"⟩⟩

def byFacebook : SignIn := ⟨.facebook, ⟨"f", "a@b.c", false, "Sam"⟩⟩

/-- Somebody registers, signs in through a provider, changes the password and unlinks the
provider. -/
def member : List Label :=
  [.arrive (.register "sam" "a@b.c" "12345678"), step 0 none "u", step 0 none "", step 0 none "t",
    .arrive (.provider byGoogle), step 1 none "", step 1 (some "u") "", step 1 none "",
    .arrive (.changePassword (some ⟨"u", .member, "sam"⟩) "12345678" "87654321"),
    step 2 none "", step 2 none "",
    .arrive (.unlinkIdentity (some ⟨"u", .member, "sam"⟩) "google"),
    step 3 none "", step 3 none "", step 3 none ""]

/-- A member who unlinks one of two identities has a way in. -/
theorem way_in_member :
    let s := (accounts confirming).after Lasting noAccounts member
    WayIn s ∧ s.identities = [] ∧ (s.users "u").map User.passwordHash = some "$salt87654321" :=
  ⟨way_in (Machine.reach_after rfl (by decide +kernel)), by decide +kernel⟩

/-- An account without a password to which no identity is linked. -/
def State.lockedOut (s : State) (userID : String) : Bool :=
  (s.users userID).any (·.passwordHash = "") && s.identities.all (·.userID ≠ userID)

/-- Where somebody is locked out, not everybody has a way in. -/
theorem not_wayIn {s : State} {userID : String} (out : s.lockedOut userID = true) : ¬ WayIn s := by
  intro wayIn
  simp only [State.lockedOut, Bool.and_eq_true, Option.any_eq_true, decide_eq_true_eq,
    List.all_eq_true] at out
  obtain ⟨⟨user, found, empty⟩, none_⟩ := out
  obtain password | ⟨x, linked, own⟩ := wayIn userID user found
  · exact password empty
  · exact none_ x linked own

/-- A first sign-in through a provider, up to the account's `INSERT`. -/
def newcomer (signIn : SignIn) : List Label :=
  [.arrive (.provider signIn), step 0 none "", step 0 none "", step 0 none "", step 0 none "u"]

/-- The link of a new account fails. -/
def unfinished : List Label := newcomer byGoogle ++ [.fail 0]

/-- Both identities of an account are unlinked at once. -/
def bothUnlinked : List Label :=
  newcomer byFacebook ++ [step 0 none "", .arrive (.provider byGoogle), step 1 none "",
    step 1 (some "u") "", step 1 none "",
    .arrive (.unlinkIdentity (some ⟨"u", .member, "sam"⟩) "google"),
    .arrive (.unlinkIdentity (some ⟨"u", .member, "sam"⟩) "facebook"),
    step 2 none "", step 3 none "", step 2 none "", step 3 none "", step 2 none "", step 3 none ""]

/-- A run ends with an account that nobody can sign in to. -/
def LocksOut (run : List Label) : Prop :=
  let s := (accounts confirming).after Machine.always noAccounts run
  (accounts confirming).Reach Machine.always s ∧ ¬ WayIn s

/-- A run that ends with somebody locked out locks them out. -/
theorem locksOut_of_lockedOut {run : List Label}
    (taken : ((accounts confirming).run Machine.always noAccounts run).isSome = true)
    (out : ((accounts confirming).after Machine.always noAccounts run).lockedOut "u" = true) :
    LocksOut run :=
  ⟨Machine.reach_after rfl taken, not_wayIn out⟩

/-- Both runs lock somebody out. -/
theorem locked_out : LocksOut unfinished ∧ LocksOut bothUnlinked := by
  refine ⟨locksOut_of_lockedOut ?_ ?_, locksOut_of_lockedOut ?_ ?_⟩ <;> decide +kernel

end Examples

end ScoutPulse.Identity.Accounts
