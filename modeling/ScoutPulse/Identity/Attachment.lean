import ScoutPulse.Identity.WayIn

/-!
# Attaching an identity by its address

What the flag `email_verified` says of an account with a password, and what it takes that
a provider's identity is attached by its address to none but accounts whose own address
was proved.
-/

namespace ScoutPulse.Identity.Accounts

/-- Every account with a password that an identity was attached to by its address had been
proved by redeeming a link. -/
def Proved (s : State) : Prop := ∀ a ∈ s.attached, a.password = true → a.proved = true

/-- The account an identity is about to be attached to by its address. -/
def Stage.attaching : Stage → Option String
  | .linking _ userID false => some userID
  | _ => none

/-- The condition on a step: an identity is attached by its address only to an account
that is marked as verified or has no password. -/
def Verified (s : State) : Label → Prop
  | .advance i _ => ∀ r ∈ s.requests[i]?, ∀ userID ∈ r.stage.attaching, ∀ user ∈ s.users userID,
      user.emailVerified = true ∨ user.passwordHash = ""
  | _ => True

instance (s : State) (label : Label) : Decidable (Verified s label) :=
  match label with
  | .advance i _ => inferInstanceAs (Decidable (∀ r ∈ s.requests[i]?,
      ∀ userID ∈ r.stage.attaching, ∀ user ∈ s.users userID,
        user.emailVerified = true ∨ user.passwordHash = ""))
  | .arrive _ => .isTrue trivial
  | .fail _ => .isTrue trivial

/-- An account with a password is marked as verified only when a link was redeemed. -/
def Flagged (s : State) : Prop :=
  ∀ userID user, s.users userID = some user → user.passwordHash ≠ "" →
    user.emailVerified = true → userID ∈ s.redeemed

section Steps

variable {svc : Service} {s s' : State} {i : ℕ} {r : Request}

/-- A new account keeps it, if it has no password or is not marked as verified. -/
theorem Flagged.insert {id : String} {user : User} (flagged : Flagged s) (unlinked : List String)
    (own : user.passwordHash ≠ "" → user.emailVerified = false) :
    Flagged { s.insertUser id user with unlinked := unlinked } := by
  intro userID found present password verified
  obtain ⟨rfl, rfl⟩ | ⟨-, before⟩ := Rows.put_eq_some.mp present
  · rw [own password] at verified
    cases verified
  · exact flagged userID found before password verified

/-- A change keeps it, if it marks an account with a password only where a link was redeemed.
-/
theorem Flagged.update {userID : String} {change : User → User} (flagged : Flagged s)
    (own : ∀ user, s.users userID = some user → (change user).passwordHash ≠ "" →
      (change user).emailVerified = true → userID ∈ s.redeemed) :
    Flagged (s.updateUser userID change) := by
  intro id found present password verified
  obtain ⟨rfl, changed⟩ | ⟨-, before⟩ := Rows.update_eq_some.mp present
  · obtain ⟨user, there, rfl⟩ := Option.map_eq_some_iff.mp changed
    exact own user there password verified
  · exact flagged id found before password verified

/-- A step marks an account with a password only when a link was redeemed. -/
theorem Flagged.advance (enabled : svc.verification = true) (sound : Sound s)
    (present : s.requests[i]? = some r) (flagged : Flagged s) (advance : Advance svc s i r s') :
    Flagged s' := by
  have ready := sound.ready i r present
  cases advance with
  | passes stage tokens passes => exact flagged
  | registers id user stage fresh password flag plain =>
      refine flagged.insert s.unlinked fun _ => ?_
      rw [flag, enabled, Bool.not_true]
  | redeems userID tokens =>
      intro id user found password verified
      exact List.mem_cons_of_mem userID (flagged id user found password verified)
  | marks userID redeemed =>
      rw [redeemed] at ready
      exact flagged.update fun _ _ _ _ => ready
  | creates signIn username id creating fresh free =>
      exact flagged.insert (id :: s.unlinked) fun password => absurd rfl password
  | links signIn userID created user linking found email alone => exact flagged
  | changes userID hash checked =>
      rw [checked] at ready
      obtain ⟨⟨user, found, password⟩, -⟩ := ready
      refine flagged.update fun other there _ verified => ?_
      obtain rfl := Option.some.inj (there.symm.trans found)
      exact flagged userID other found password verified
  | unlinks userID provider counted unlinking => exact flagged

/-- A step keeps it, if each account it attaches an identity to is marked or has no password.
-/
theorem Proved.advance (flagged : Flagged s) (proved : Proved s)
    (verified : ∀ userID ∈ r.stage.attaching, ∀ user ∈ s.users userID,
      user.emailVerified = true ∨ user.passwordHash = "")
    (advance : Advance svc s i r s') : Proved s' := by
  cases advance with
  | links signIn userID created user linking found email alone =>
      cases created with
      | true => exact proved
      | false =>
          have attaching : userID ∈ r.stage.attaching := by
            rw [linking]
            rfl
          intro a member password
          obtain rfl | before := List.mem_cons.mp member
          · have has : user.passwordHash ≠ "" := of_decide_eq_true password
            obtain marked | none_ := verified userID attaching user found
            · exact decide_eq_true (flagged userID user found has marked)
            · exact absurd none_ has
          · exact proved a before password
  | _ => exact proved

end Steps

section Runs

variable [Unicode] {svc : Service}

/-- **No account is hijacked beforehand.** With verification on, in every state of every
run in which identities are attached by their address only to accounts that are marked as
verified or have no password, every account with a password that one was attached to had
been proved. -/
theorem attached_proved (enabled : svc.verification = true) {s : State}
    (reach : (accounts svc).Reach Verified s) : Proved s := by
  have all : Sound s ∧ Flagged s ∧ Proved s := by
    apply reach.invariant
    · intro t start
      refine ⟨sound_start start, ?_, ?_⟩
      · subst start
        intro userID user found
        cases found
      · subst start
        intro a member
        cases member
    · rintro t t' label ⟨sound, flagged, proved⟩ verified next
      refine ⟨sound.next next, ?_⟩
      obtain ⟨kind, rfl, rfl⟩ | ⟨i, d, r, rfl, present, advance⟩ | ⟨i, r, present, rfl⟩ :=
        accounts_next next
      · exact ⟨flagged, proved⟩
      · exact ⟨flagged.advance enabled sound present advance,
          proved.advance flagged (verified r present) advance⟩
      · exact ⟨flagged, proved⟩
  exact all.2.2

end Runs

section Examples

attribute [local instance] Unicode.ascii

/-- Somebody registers an address. -/
def registered : List Label :=
  [.arrive (.register "sam" "a@b.c" "12345678"), step 0 none "u", step 0 none "", step 0 none "t"]

/-- The address's owner signs in through a provider. -/
def signingIn (i : ℕ) : List Label :=
  [.arrive (.provider byGoogle), step i none "", step i (some "u") "", step i none ""]

/-- The link is followed before the sign-in through the provider. -/
def confirmed : List Label :=
  registered ++ [.arrive (.verifyEmail "t"), step 1 none "", step 1 none ""] ++ signingIn 2

/-- The account whose link was followed is the one the identity is attached to. -/
theorem attached_proved_confirmed :
    let s := (accounts confirming).after Verified noAccounts confirmed
    Proved s ∧ s.attached = [⟨"u", true, true⟩] :=
  ⟨attached_proved rfl (Machine.reach_after rfl (by decide +kernel)), by decide +kernel⟩

/-- The link is not followed before the sign-in through the provider, but later, and the
password given at registration opens the account. -/
def hijacked : List Label :=
  registered ++ signingIn 1 ++ [.arrive (.verifyEmail "t"), step 2 none "", step 2 none "",
    .arrive (.login "sam" "12345678"), step 3 (some "u") ""]

/-- An identity is attached to an account that nobody has proved, and its password opens it. -/
theorem attached_unproved :
    let s := (accounts confirming).after Machine.always noAccounts hijacked
    (accounts confirming).Reach Machine.always s ∧ ¬ Proved s ∧
      (s.requests.map Request.stage).getLast? = some (.ended (.signedIn "u")) := by
  refine ⟨Machine.reach_after rfl (by decide +kernel), ?_, by decide +kernel⟩
  intro proved
  have attached : ((accounts confirming).after Machine.always noAccounts hijacked).attached =
      [⟨"u", true, false⟩] := by decide +kernel
  have unproved := proved ⟨"u", true, false⟩ (by rw [attached]; exact List.mem_cons_self) rfl
  cases unproved

end Examples

end ScoutPulse.Identity.Accounts
