import ScoutPulse.Identity.ProviderFlow
import ScoutPulse.Lib.Owned
import ScoutPulse.Lib.Parties

/-!
# What a sign-in through a provider guarantees

A session that comes out of the round trip goes back to one consent, one browser and one
code: the code was issued within the minute before, to a callback of a browser that had
begun the flow itself within ten minutes, for a profile whose owner had consented to that
very request. No code opens two sessions, and no consent two.
-/

namespace ScoutPulse.Identity.ProviderFlow

open Strings Accounts Cookies

/-! ## Spec lemmas -/

variable {d : Deployment} {s s' : State} {label : Label}

/-- What decides whether a callback is let through, once its cookies are read. -/
theorem completeOAuth_ok_iff {browser : ℕ} {r : CallbackRequest} {now : Time}
    {jar : List (Cookie Time)} {flow : Flow} :
    completeOAuth d browser r now jar = .ok flow ↔
      ∃ provider state verifier, d.provider r.provider = .ok provider ∧ r.error = "" ∧
        readFlowCookies r now jar = some (state, verifier) ∧ r.state = state ∧ r.code ≠ "" ∧
        flow = ⟨browser, provider, state, verifier, r.code, now⟩ := by
  constructor
  · intro ok
    rw [completeOAuth] at ok
    split at ok
    · cases ok
    next provider found =>
      split at ok
      · cases ok
      next clean =>
        split at ok
        next => cases ok
        next state verifier read =>
          split_ifs at ok with mismatch empty
          exact ⟨provider, state, verifier, found, not_not.mp clean, read, not_not.mp mismatch,
            empty, (Except.ok.inj ok).symm⟩
  · rintro ⟨provider, state, verifier, found, clean, read, echo, some_, rfl⟩
    simp [completeOAuth, found, clean, read, echo, some_]

/-- A callback that is let through comes with both cookies. -/
theorem completeOAuth_ok {browser : ℕ} {r : CallbackRequest} {now : Time}
    {jar : List (Cookie Time)} {flow : Flow} (ok : completeOAuth d browser r now jar = .ok flow) :
    flow.browser = browser ∧ flow.at_ = now ∧ ∃ c v, sent stateCookie r.path now jar = some c ∧
      sent verifierCooki r.path now jar = some v ∧ c.value = flow.state ∧
      v.value = flow.verifier := by
  obtain ⟨provider, state, verifier, -, -, read, -, -, rfl⟩ := completeOAuth_ok_iff.mp ok
  obtain ⟨c, left, rest⟩ := Option.bind_eq_some_iff.mp read
  obtain ⟨v, right, pair⟩ := Option.bind_eq_some_iff.mp rest
  obtain ⟨rfl, rfl⟩ := Prod.mk.inj (Option.some.inj pair)
  exact ⟨rfl, rfl, c, v, left, right, rfl, rfl⟩

/-- The ways a step changes the tables and the requests under way. -/
inductive Step (d : Deployment) (s : State) : Label → State → Prop
  | same {label : Label} : Step d s label s
  | start {browser : ℕ} {provider : Provider} {name forwarded state verifier : String}
      {now : Time} :
      Step d s (.start browser name forwarded state verifier now)
        { s with
          jars := Function.update s.jars browser
            (setFlowCookies d forwarded state verifier now (s.jars browser))
          starts := s.starts ++ [⟨browser, provider, state, verifier, now⟩] }
  | consent {signIn : SignIn} {challenge : Challenge} {code : String} {expiresAt : Time} :
      Step d s (.consent signIn challenge code expiresAt)
        { s with
          grants := s.grants ++ [⟨code, (signIn, challenge), expiresAt, none⟩]
          consents := s.consents ++ [⟨signIn, challenge, code⟩] }
  | refuse {browser : ℕ} {r : CallbackRequest} {now : Time} {reason : String} :
      Step d s (.callback browser r now)
        { s with callbacks := s.callbacks ++ [⟨browser, r.forwarded, .answered (.error reason)⟩] }
  | enter {browser : ℕ} {r : CallbackRequest} {now : Time} {flow : Flow}
      (ok : completeOAuth d browser r now (s.jars browser) = .ok flow) :
      Step d s (.callback browser r now)
        { s with callbacks := s.callbacks ++ [⟨browser, r.forwarded, .exchanging flow⟩] }
  | fail {k : ℕ} {c : Callback} {reason : String} {label : Label}
      (sender : s.callbacks[k]? = some c) : Step d s label (s.fail k c reason)
  | hear {k : ℕ} {c : Callback} {flow : Flow} {profile : Profile} {now : Time}
      (sender : s.callbacks[k]? = some c) (stage : c.stage = .exchanging flow) :
      Step d s (.answer k (some profile) now)
        { s.setCallback k c (.resolving flow profile) with
          grants := (honours s flow profile now).getD s.grants }
  | resolve {k : ℕ} {c : Callback} {flow : Flow} {profile : Profile} {userID : String}
      (sender : s.callbacks[k]? = some c) (stage : c.stage = .resolving flow profile) :
      Step d s (.resolve k (.ok userID)) (s.setCallback k c (.issuing flow profile userID))
  | issue {k : ℕ} {c : Callback} {flow : Flow} {profile : Profile} {userID code : String}
      {now : Time} (sender : s.callbacks[k]? = some c)
      (stage : c.stage = .issuing flow profile userID) :
      Step d s (.issue k (some code) now)
        { s.setCallback k c (.answered (.code code)) with
          codes := s.codes ++ [⟨HashLoginCode code, userID, now + loginCodeTTL, none⟩]
          issued := s.issued ++ [⟨code, userID, flow, profile, now⟩] }
  | deliver {k : ℕ} {c : Callback} (sender : s.callbacks[k]? = some c) :
      Step d s (.deliver k)
        { s with
          jars := Function.update s.jars c.browser
            (clearFlowCookies d c.forwarded (s.jars c.browser))
          callbacks := s.callbacks.eraseIdx k }
  | lose {k : ℕ} : Step d s (.lose k) { s with callbacks := s.callbacks.eraseIdx k }
  | present {code : String} :
      Step d s (.exchange code) { s with exchanges := s.exchanges ++ [.begun code] }
  | redeem {k : ℕ} {code userID : String} {now : Time}
      {codes : List (OneTime.Ticket TokenHash String Time)}
      (sender : s.exchanges[k]? = some (.begun code))
      (found : OneTime.redeem (HashLoginCode code) now s.codes = some (userID, codes)) :
      Step d s (.redeem k now)
        { s with codes := codes, exchanges := s.exchanges.set k (.redeemed code userID now) }
  | open_ {k : ℕ} {code userID : String} {at_ : Time}
      (sender : s.exchanges[k]? = some (.redeemed code userID at_)) :
      Step d s (.finish k true)
        { s with
          exchanges := s.exchanges.eraseIdx k, sessions := s.sessions ++ [⟨code, userID, at_⟩] }
  /-- A request to exchange a code ends without a session. -/
  | end_ {k : ℕ} {label : Label} : Step d s label { s with exchanges := s.exchanges.eraseIdx k }
  | prune {codes : List (OneTime.Ticket TokenHash String Time)} {label : Label}
      (sub : codes.Sublist s.codes) : Step d s label { s with codes := codes }

/-- What the service does next is one of the steps, event by event. -/
theorem next_step (next : (machine d).next s label = some s') : Step d s label s' := by
  cases label with
  | start browser name forwarded state verifier now =>
      simp only [machine] at next
      split at next
      next =>
        obtain rfl := Option.some.inj next
        exact .same
      next provider _ =>
        obtain rfl := Option.some.inj next
        exact .start
  | consent signIn challenge code expiresAt =>
      obtain ⟨grants, issued, rfl⟩ := Option.map_eq_some_iff.mp next
      rw [OneTime.issue_eq_some issued]
      exact .consent
  | callback browser r now =>
      obtain rfl := Option.some.inj next
      cases result : completeOAuth d browser r now (s.jars browser) with
      | error reason => exact .refuse
      | ok flow => exact .enter result
  | answer k profile now =>
      obtain ⟨c, sender, next⟩ := Option.bind_eq_some_iff.mp next
      cases profile with
      | none =>
          rw [answer] at next
          split at next
          next =>
            obtain rfl := Option.some.inj next
            exact .fail sender
          next => cases next
      | some profile =>
          rw [answer] at next
          split at next
          next flow stage =>
            obtain rfl := Option.some.inj next
            exact .hear sender stage
          next => cases next
  | resolve k result =>
      obtain ⟨c, sender, next⟩ := Option.bind_eq_some_iff.mp next
      rw [resolve] at next
      split at next
      next flow profile stage =>
        split at next
        next =>
          obtain rfl := Option.some.inj next
          exact .fail sender
        next userID =>
          obtain rfl := Option.some.inj next
          exact .resolve sender stage
      next => cases next
  | issue k code now =>
      obtain ⟨c, sender, next⟩ := Option.bind_eq_some_iff.mp next
      rw [issue] at next
      split at next
      next flow profile userID stage =>
        split at next
        next =>
          obtain rfl := Option.some.inj next
          exact .fail sender
        next code =>
          split at next
          next =>
            obtain rfl := Option.some.inj next
            exact .fail sender
          next codes inserted =>
            obtain rfl := Option.some.inj next
            rw [OneTime.issue_eq_some inserted]
            exact .issue sender stage
      next => cases next
  | deliver k =>
      obtain ⟨c, sender, next⟩ := Option.bind_eq_some_iff.mp next
      rw [deliver] at next
      split at next
      next =>
        obtain rfl := Option.some.inj next
        exact .deliver sender
      next => cases next
  | lose k =>
      obtain rfl := Option.some.inj next
      exact .lose
  | exchange code =>
      simp only [machine] at next
      split_ifs at next
      · obtain rfl := Option.some.inj next
        exact .same
      · obtain rfl := Option.some.inj next
        exact .present
  | redeem k now =>
      obtain ⟨e, sender, next⟩ := Option.bind_eq_some_iff.mp next
      cases e with
      | begun code =>
          rw [redeem] at next
          split at next
          next =>
            obtain rfl := Option.some.inj next
            exact .end_
          next userID codes found =>
            obtain rfl := Option.some.inj next
            exact .redeem sender found
      | redeemed _ _ _ => cases next
  | finish k opens =>
      obtain ⟨e, sender, next⟩ := Option.bind_eq_some_iff.mp next
      cases e with
      | begun _ => cases next
      | redeemed code userID at_ =>
          obtain rfl := Option.some.inj next
          cases opens with
          | true => exact .open_ sender
          | false => exact .end_
  | drop k =>
      obtain rfl := Option.some.inj next
      exact .end_
  | prune before =>
      obtain rfl := Option.some.inj next
      exact .prune List.filter_sublist
  | userDeleted userID =>
      obtain rfl := Option.some.inj next
      exact .prune List.filter_sublist

/-! ## Where things come from -/

/-- The flow of a callback that was let through. -/
def CallbackStage.flow : CallbackStage → Option Flow
  | .exchanging flow => some flow
  | .resolving flow _ => some flow
  | .issuing flow _ _ => some flow
  | .answered _ => none

/-- The profile a callback has heard of. -/
def CallbackStage.heard : CallbackStage → Option (Flow × Profile)
  | .resolving flow profile => some (flow, profile)
  | .issuing flow profile _ => some (flow, profile)
  | _ => none

/-- The session a request is about to open. -/
def Exchange.opening : Exchange → Option Opened
  | .begun _ => none
  | .redeemed code userID at_ => some ⟨code, userID, at_⟩

/-- A browser was given a pair of cookies that expire then. -/
def Gave (starts : List Start) (browser : ℕ) (state verifier : String) (expiresAt : Time) : Prop :=
  ∃ st ∈ starts, st.browser = browser ∧ st.state = state ∧ st.verifier = verifier ∧
    expiresAt = st.at_ + oauthFlowTTL

/-- A callback goes back to a start in the same browser that was not long ago. -/
def Began (starts : List Start) (flow : Flow) : Prop :=
  ∃ st ∈ starts, st.browser = flow.browser ∧ st.state = flow.state ∧
    st.verifier = flow.verifier ∧ flow.at_ < st.at_ + oauthFlowTTL

/-- A session goes back to a code that was issued for its account not long ago. -/
def From (issued : List Issued) (o : Opened) : Prop :=
  ∃ i ∈ issued, i.code = o.code ∧ i.userID = o.userID ∧ o.at_ < i.at_ + loginCodeTTL

/-- A row goes back to a code that was issued. -/
def Backed (issued : List Issued) (t : OneTime.Ticket TokenHash String Time) : Prop :=
  ∃ i ∈ issued, HashLoginCode i.code = t.key ∧ i.userID = t.subject ∧
    t.expiresAt = i.at_ + loginCodeTTL

structure Traced (s : State) : Prop where
  jars : ∀ b, Together stateCookie verifierCooki (Gave s.starts b) (s.jars b)
  callbacks : ∀ c ∈ s.callbacks, ∀ flow ∈ c.stage.flow, Began s.starts flow
  codes : ∀ t ∈ s.codes, Backed s.issued t
  issued : ∀ i ∈ s.issued, Began s.starts i.flow
  exchanges : ∀ e ∈ s.exchanges, ∀ o ∈ e.opening, From s.issued o
  sessions : ∀ o ∈ s.sessions, From s.issued o

theorem Gave.mono {starts more : List Start} {b : ℕ} {v w : String} {e : Time}
    (gave : Gave starts b v w e) : Gave (starts ++ more) b v w e := by
  obtain ⟨st, member, rest⟩ := gave
  exact ⟨st, List.mem_append_left _ member, rest⟩

theorem Began.mono {starts more : List Start} {flow : Flow} (began : Began starts flow) :
    Began (starts ++ more) flow := by
  obtain ⟨st, member, rest⟩ := began
  exact ⟨st, List.mem_append_left _ member, rest⟩

theorem From.mono {issued more : List Issued} {o : Opened} (from_ : From issued o) :
    From (issued ++ more) o := by
  obtain ⟨i, member, rest⟩ := from_
  exact ⟨i, List.mem_append_left _ member, rest⟩

theorem Backed.mono {issued more : List Issued} {t : OneTime.Ticket TokenHash String Time}
    (backed : Backed issued t) : Backed (issued ++ more) t := by
  obtain ⟨i, member, rest⟩ := backed
  exact ⟨i, List.mem_append_left _ member, rest⟩

theorem stateCookie_ne : stateCookie ≠ verifierCooki := by decide

/-- The two cookies of one start are the ones a callback reads. -/
theorem began_of_completeOAuth {browser : ℕ} {r : CallbackRequest} {now : Time}
    {jar : List (Cookie Time)} {flow : Flow} {starts : List Start}
    (together : Together stateCookie verifierCooki (Gave starts browser) jar)
    (ok : completeOAuth d browser r now jar = .ok flow) : Began starts flow := by
  obtain ⟨rfl, rfl, c, v, left, right, state, verifier⟩ := completeOAuth_ok ok
  obtain ⟨⟨st, member, same, gaveState, gaveVerifier, fits⟩, fresh⟩ := together.sent left right
  exact ⟨st, member, same, gaveState.trans state, gaveVerifier.trans verifier, fits ▸ fresh⟩

/-- A start gives the browser cookies that are traced to it. -/
theorem Traced.start {browser : ℕ} {provider : Provider} {forwarded state verifier : String}
    {now : Time} (h : Traced s) :
    Traced
      { s with
        jars := Function.update s.jars browser
          (setFlowCookies d forwarded state verifier now (s.jars browser))
        starts := s.starts ++ [⟨browser, provider, state, verifier, now⟩] } := by
  refine ⟨fun b => ?_, fun c member flow has => (h.callbacks c member flow has).mono, h.codes,
    fun i member => (h.issued i member).mono, h.exchanges, h.sessions⟩
  have kept : Together stateCookie verifierCooki
      (Gave (s.starts ++ [⟨browser, provider, state, verifier, now⟩]) b) (s.jars b) :=
    (h.jars b).imp Gave.mono
  by_cases same : b = browser
  · subst same
    simp only [Function.update_self]
    exact kept.set stateCookie_ne
      ⟨_, List.mem_append_right _ List.mem_cons_self, rfl, rfl, rfl, rfl⟩
  · simp only [Function.update_of_ne same]
    exact kept

theorem Traced.setCallback {k : ℕ} {c : Callback} {stage : CallbackStage} (h : Traced s)
    (new : ∀ flow ∈ stage.flow, Began s.starts flow) : Traced (s.setCallback k c stage) :=
  ⟨h.jars, Parties.forall_set h.callbacks new, h.codes, h.issued, h.exchanges, h.sessions⟩

/-- Each step keeps every cookie and every flow traced to a start. -/
theorem Traced.step (h : Traced s) (step : Step d s label s') : Traced s' := by
  have following : ∀ {k : ℕ} {c : Callback} {flow : Flow}, s.callbacks[k]? = some c →
      c.stage.flow = some flow → Began s.starts flow :=
    fun sender has => h.callbacks _ (List.mem_of_getElem? sender) _ has
  cases step with
  | same => exact h
  | start => exact h.start
  | consent => exact ⟨h.jars, h.callbacks, h.codes, h.issued, h.exchanges, h.sessions⟩
  | refuse =>
      exact ⟨h.jars, Parties.forall_append h.callbacks (by simp [CallbackStage.flow]), h.codes,
        h.issued, h.exchanges, h.sessions⟩
  | @enter browser r now flow ok =>
      refine ⟨h.jars, Parties.forall_append h.callbacks ?_, h.codes, h.issued, h.exchanges,
        h.sessions⟩
      rintro flow' has
      obtain rfl := Option.some.inj has
      exact began_of_completeOAuth (h.jars browser) ok
  | fail sender => exact h.setCallback (by simp [CallbackStage.flow])
  | @hear k c flow profile now sender stage =>
      have moved : Traced (s.setCallback k c (.resolving flow profile)) := h.setCallback <| by
        rintro flow' has
        obtain rfl := Option.some.inj has
        exact following sender (by rw [stage]; rfl)
      exact ⟨moved.jars, moved.callbacks, moved.codes, moved.issued, moved.exchanges,
        moved.sessions⟩
  | resolve sender stage =>
      refine h.setCallback ?_
      rintro flow' has
      obtain rfl := Option.some.inj has
      exact following sender (by rw [stage]; rfl)
  | @issue k c flow profile userID code now sender stage =>
      refine ⟨h.jars, Parties.forall_set h.callbacks (by simp [CallbackStage.flow]),
        Parties.forall_append (fun t member => (h.codes t member).mono) ?_,
        Parties.forall_append h.issued (following sender (by rw [stage]; rfl)),
        fun e member o has => (h.exchanges e member o has).mono,
        fun o member => (h.sessions o member).mono⟩
      exact ⟨_, List.mem_append_right _ List.mem_cons_self, rfl, rfl, rfl⟩
  | @deliver k c sender =>
      refine ⟨fun b => ?_, Parties.forall_eraseIdx h.callbacks, h.codes, h.issued, h.exchanges,
        h.sessions⟩
      by_cases same : b = c.browser
      · subst same
        simp only [Function.update_self]
        exact (h.jars c.browser).clear _
      · simp only [Function.update_of_ne same]
        exact h.jars b
  | lose =>
      exact ⟨h.jars, Parties.forall_eraseIdx h.callbacks, h.codes, h.issued, h.exchanges,
        h.sessions⟩
  | present =>
      exact ⟨h.jars, h.callbacks, h.codes, h.issued,
        Parties.forall_append h.exchanges (by simp [Exchange.opening]), h.sessions⟩
  | @redeem k code userID now codes sender found =>
      obtain ⟨t, member, at_, subject, fits, -, rfl⟩ := OneTime.redeem_eq_some found
      refine ⟨h.jars, h.callbacks, fun t' member' => ?_, h.issued,
        Parties.forall_set h.exchanges ?_, h.sessions⟩
      · obtain ⟨old, there, sameKey, sameSubject, sameTime⟩ := OneTime.exists_of_mem_spend member'
        obtain ⟨i, issued, key, user, expires⟩ := h.codes old there
        exact ⟨i, issued, key.trans sameKey, user.trans sameSubject, sameTime ▸ expires⟩
      · rintro o has
        obtain rfl := Option.some.inj has
        obtain ⟨i, issued, key, user, expires⟩ := h.codes t member
        exact ⟨i, issued, TokenHash.mk.inj (key.trans at_), user.trans subject, expires ▸ fits⟩
  | @open_ k code userID at_ sender =>
      refine ⟨h.jars, h.callbacks, h.codes, h.issued, Parties.forall_eraseIdx h.exchanges,
        Parties.forall_append h.sessions ?_⟩
      exact h.exchanges _ (List.mem_of_getElem? sender) _ rfl
  | end_ =>
      exact ⟨h.jars, h.callbacks, h.codes, h.issued, Parties.forall_eraseIdx h.exchanges,
        h.sessions⟩
  | prune sub =>
      exact ⟨h.jars, h.callbacks, fun t member => h.codes t (sub.subset member), h.issued,
        h.exchanges, h.sessions⟩

theorem traced_empty : Traced empty :=
  ⟨fun _ => together_nil, by simp [empty], by simp [empty], by simp [empty], by simp [empty],
    by simp [empty]⟩

/-! ## What was consented to -/

/-- The flow a callback is asking the provider about. -/
def CallbackStage.asking : CallbackStage → Option Flow
  | .exchanging flow => some flow
  | _ => none

/-- The condition on a step that the provider answers with a profile only where it honours
the code. -/
def Honest (s : State) : Label → Prop
  | .answer k (some profile) now => ∀ c ∈ s.callbacks[k]?, ∀ flow ∈ c.stage.asking,
      (honours s flow profile now).isSome = true
  | _ => True

/-- The condition on a step that no verifier is drawn twice. -/
def Fresh (s : State) : Label → Prop
  | .start _ _ _ _ verifier _ => ∀ st ∈ s.starts, st.verifier ≠ verifier
  | _ => True

/-- The consent a flow and a profile go back to. -/
def consentFor (flow : Flow) (profile : Profile) : Consent :=
  ⟨⟨flow.provider, profile⟩, S256ChallengeOption flow.verifier, flow.code⟩

/-- The provider's owner of a profile has consented to the flows that heard of it. -/
structure Agreed (s : State) : Prop where
  grants : ∀ t ∈ s.grants, ⟨t.subject.1, t.subject.2, t.key⟩ ∈ s.consents
  callbacks : ∀ c ∈ s.callbacks, ∀ h ∈ c.stage.heard, consentFor h.1 h.2 ∈ s.consents
  issued : ∀ i ∈ s.issued, consentFor i.flow i.profile ∈ s.consents

/-- What is honoured is spent. -/
theorem honours_eq_some {flow : Flow} {profile : Profile} {now : Time}
    {grants : List (OneTime.Ticket String (SignIn × Challenge) Time)}
    (honoured : honours s flow profile now = some grants) :
    OneTime.redeem flow.code now s.grants =
      some ((⟨flow.provider, profile⟩, S256ChallengeOption flow.verifier), grants) := by
  rw [honours] at honoured
  split at honoured
  next granted rows found =>
    split_ifs at honoured with same
    obtain rfl := Option.some.inj honoured
    rw [found, same]
  next => cases honoured

theorem honours_of_honest {k : ℕ} {c : Callback} {flow : Flow} {profile : Profile} {now : Time}
    (honest : Honest s (.answer k (some profile) now)) (sender : s.callbacks[k]? = some c)
    (stage : c.stage = .exchanging flow) : ∃ grants, honours s flow profile now = some grants :=
  Option.isSome_iff_exists.mp (honest c sender flow (by rw [stage]; rfl))

theorem Agreed.setCallback {k : ℕ} {c : Callback} {stage : CallbackStage} (h : Agreed s)
    (new : ∀ h ∈ stage.heard, consentFor h.1 h.2 ∈ s.consents) :
    Agreed (s.setCallback k c stage) :=
  ⟨h.grants, Parties.forall_set h.callbacks new, h.issued⟩

/-- Each step keeps what was heard among what was agreed to, with an honest provider. -/
theorem Agreed.step (h : Agreed s) (honest : Honest s label) (step : Step d s label s') :
    Agreed s' := by
  have heard : ∀ {k : ℕ} {c : Callback} {flow : Flow} {profile : Profile},
      s.callbacks[k]? = some c → c.stage.heard = some (flow, profile) →
        consentFor flow profile ∈ s.consents :=
    fun sender has => h.callbacks _ (List.mem_of_getElem? sender) _ has
  cases step with
  | consent =>
      refine ⟨Parties.forall_append (fun t member => List.mem_append_left _ (h.grants t member)) ?_,
        fun c member x has => List.mem_append_left _ (h.callbacks c member x has),
        fun i member => List.mem_append_left _ (h.issued i member)⟩
      exact List.mem_append_right _ List.mem_cons_self
  | refuse =>
      exact ⟨h.grants, Parties.forall_append h.callbacks (by simp [CallbackStage.heard]), h.issued⟩
  | enter ok =>
      exact ⟨h.grants, Parties.forall_append h.callbacks (by simp [CallbackStage.heard]), h.issued⟩
  | fail sender => exact h.setCallback (by simp [CallbackStage.heard])
  | @hear k c flow profile now sender stage =>
      obtain ⟨grants, honoured⟩ := honours_of_honest honest sender stage
      obtain ⟨t, member, key, subject, -, -, rfl⟩ :=
        OneTime.redeem_eq_some (honours_eq_some honoured)
      have consented : consentFor flow profile ∈ s.consents := by
        have there := h.grants t member
        rwa [subject, key] at there
      refine ⟨fun t' member' => ?_, Parties.forall_set h.callbacks ?_, h.issued⟩
      · simp only [honoured, Option.getD_some] at member'
        obtain ⟨old, there, sameKey, sameSubject, -⟩ := OneTime.exists_of_mem_spend member'
        rw [← sameKey, ← sameSubject]
        exact h.grants old there
      · rintro x has
        obtain rfl := Option.some.inj has
        exact consented
  | @resolve k c flow profile userID sender stage =>
      refine h.setCallback ?_
      rintro x has
      obtain rfl := Option.some.inj has
      exact heard sender (by rw [stage]; rfl)
  | @issue k c flow profile userID code now sender stage =>
      exact ⟨h.grants, Parties.forall_set h.callbacks (by simp [CallbackStage.heard]),
        Parties.forall_append h.issued (heard sender (by rw [stage]; rfl))⟩
  | deliver sender => exact ⟨h.grants, Parties.forall_eraseIdx h.callbacks, h.issued⟩
  | lose => exact ⟨h.grants, Parties.forall_eraseIdx h.callbacks, h.issued⟩
  | _ => exact ⟨h.grants, h.callbacks, h.issued⟩

theorem nodup_step (h : (s.starts.map (·.verifier)).Nodup) (fresh : Fresh s label)
    (step : Step d s label s') : (s'.starts.map (·.verifier)).Nodup := by
  cases step with
  | @start browser provider name forwarded state verifier now =>
      exact Owned.nodup_insert h fresh
  | _ => exact h

/-- **A session goes back to one consent and one browser.** Whatever the parties do and
whatever is lost, a session comes from a code issued within the minute before for its account;
the callback it was issued to came, within ten minutes, from the browser that was given its
state and verifier, and from no other; and the profile's owner had consented to the request
made with that verifier. -/
theorem session_agreement (reach : (machine d).Reach (fun t l => Honest t l ∧ Fresh t l) s)
    {o : Opened} (member : o ∈ s.sessions) :
    ∃ i ∈ s.issued, i.code = o.code ∧ i.userID = o.userID ∧ o.at_ < i.at_ + loginCodeTTL ∧
      consentFor i.flow i.profile ∈ s.consents ∧
      ∃ st ∈ s.starts, st.browser = i.flow.browser ∧ st.state = i.flow.state ∧
        i.flow.at_ < st.at_ + oauthFlowTTL ∧
        ∀ other ∈ s.starts, other.verifier = i.flow.verifier ↔ other = st := by
  have all : Traced s ∧ Agreed s ∧ (s.starts.map (·.verifier)).Nodup := by
    refine reach.invariant
      (P := fun t => Traced t ∧ Agreed t ∧ (t.starts.map (·.verifier)).Nodup) ?_ ?_
    · rintro t rfl
      exact ⟨traced_empty, ⟨by simp [empty], by simp [empty], by simp [empty]⟩, List.nodup_nil⟩
    · exact fun h ok next => ⟨h.1.step (next_step next), h.2.1.step ok.1 (next_step next),
        nodup_step h.2.2 ok.2 (next_step next)⟩
  obtain ⟨traced, agreed, nodup⟩ := all
  obtain ⟨i, issued, code, user, fits⟩ := traced.sessions o member
  obtain ⟨st, began, browser, state, verifier, soon⟩ := traced.issued i issued
  refine ⟨i, issued, code, user, fits, agreed.issued i issued, st, began, browser, state, soon,
    fun other there => ⟨fun same => ?_, fun same => same ▸ verifier⟩⟩
  exact List.inj_on_of_nodup_map nodup there began (same.trans verifier.symm)

instance (s : State) (l : Label) : Decidable (Honest s l) := by
  unfold Honest
  split <;> infer_instance

instance (s : State) (l : Label) : Decidable (Fresh s l) := by
  unfold Fresh
  split <;> infer_instance

/-- Behind a proxy that mounts the service, with one provider. -/
def behindProxy : Deployment := ⟨"/api/identity", fun p => p = .google⟩

def sam : Profile := ⟨"4711", "sam@example.com", true, "Sam"⟩

/-- The callback's address, with a state and a code. -/
def back (state code : String) : CallbackRequest :=
  ⟨"google", "/api/identity/api/v1/auth/google/callback", "", "", state, code⟩

/-- One browser makes the round trip while another begins one. -/
def roundTrip : List Label :=
  [.start 0 "google" "" "state" "verifier" 0, .start 1 "google" "" "other" "another" 1,
    .consent ⟨.google, sam⟩ ⟨"verifier"⟩ "granted" 100, .callback 0 (back "state" "granted") 2,
    .answer 0 (some sam) 3, .resolve 0 (.ok "u"), .issue 0 (some "code") 4, .deliver 0,
    .exchange "code", .exchange "code", .redeem 0 5, .redeem 1 6, .finish 0 true]

/-- A round trip ends in a session of the person who agreed. -/
theorem session_agreement_roundTrip :
    let s := (machine behindProxy).after (fun t l => Honest t l ∧ Fresh t l) empty roundTrip
    ∃ i ∈ s.issued, i.code = "code" ∧ i.userID = "u" ∧ 5 < i.at_ + loginCodeTTL ∧
      consentFor i.flow i.profile ∈ s.consents ∧
      ∃ st ∈ s.starts, st.browser = i.flow.browser ∧ st.state = i.flow.state ∧
        i.flow.at_ < st.at_ + oauthFlowTTL ∧
        ∀ other ∈ s.starts, other.verifier = i.flow.verifier ↔ other = st :=
  session_agreement (o := ⟨"code", "u", 5⟩) (Machine.reach_after rfl (by decide +kernel))
    (by decide +kernel)

/-! ## Once only -/

/-- Whether a request is about to open a session for a code. -/
def Exchange.opens (code : String) : Exchange → Bool
  | .begun _ => false
  | .redeemed presented _ _ => presented = code

/-- Whether a callback has traded a provider's code for a profile. -/
def Callback.trades (code : String) (c : Callback) : Bool :=
  match c.stage with
  | .resolving flow _ => flow.code = code
  | .issuing flow _ _ => flow.code = code
  | _ => false

/-- The sessions that were opened for a code, or are about to be. -/
def State.spent (code : String) (s : State) : ℕ :=
  s.sessions.countP (·.code = code) + s.exchanges.countP (Exchange.opens code)

/-- The login codes that were issued for a provider's code, or may yet be. -/
def State.traded (code : String) (s : State) : ℕ :=
  s.issued.countP (·.flow.code = code) + s.callbacks.countP (Callback.trades code)

theorem hashLoginCode_inj {code code' : String} :
    HashLoginCode code = HashLoginCode code' ↔ code = code' := by
  rw [HashLoginCode, HashLoginCode, TokenHash.mk.injEq]

/-- Each step spends no more of a code than it was issued. -/
theorem spent_step {code : String}
    (h : s.spent code + OneTime.unused (HashLoginCode code) s.codes ≤
      s.issued.countP (·.code = code)) (step : Step d s label s') :
    s'.spent code + OneTime.unused (HashLoginCode code) s'.codes ≤
      s'.issued.countP (·.code = code) := by
  simp only [State.spent] at h ⊢
  cases step with
  | @issue k c flow profile userID code' now sender stage =>
      simp only [State.setCallback, List.countP_append, List.countP_singleton,
        OneTime.unused_append, hashLoginCode_inj, decide_eq_true_eq]
      omega
  | present =>
      simp only [List.countP_append, List.countP_singleton, Exchange.opens]
      exact h
  | @redeem k code' userID now codes sender found =>
      have counted := Parties.countP_set (x := Exchange.redeemed code' userID now)
        (p := Exchange.opens code) sender
      have less := OneTime.unused_redeem (HashLoginCode code) found
      simp only [hashLoginCode_inj] at less
      simp only [Exchange.opens, decide_eq_true_eq, Bool.false_eq_true, if_false] at counted
      simp only
      omega
  | @open_ k code' userID at_ sender =>
      have counted := Parties.countP_eraseIdx (p := Exchange.opens code) sender
      simp only [Exchange.opens, decide_eq_true_eq] at counted
      simp only [List.countP_append, List.countP_singleton, decide_eq_true_eq]
      omega
  | @end_ k _ =>
      have fewer := (List.eraseIdx_sublist s.exchanges k).countP_le (p := Exchange.opens code)
      simp only
      omega
  | prune sub =>
      have fewer := OneTime.unused_le (k := HashLoginCode code) sub
      simp only
      omega
  | _ => exact h

/-- Each step trades no more of a grant than was agreed to. -/
theorem traded_step {code : String}
    (h : s.traded code + OneTime.unused code s.grants ≤ s.consents.countP (·.code = code))
    (honest : Honest s label) (step : Step d s label s') :
    s'.traded code + OneTime.unused code s'.grants ≤ s'.consents.countP (·.code = code) := by
  have moved : ∀ {k : ℕ} {c : Callback} (stage : CallbackStage), s.callbacks[k]? = some c →
      (s.callbacks.set k { c with stage := stage }).countP (Callback.trades code) +
          (if c.trades code then 1 else 0) =
        s.callbacks.countP (Callback.trades code) +
          if Callback.trades code { c with stage := stage } then 1 else 0 :=
    fun _ sender => Parties.countP_set sender
  have erased : ∀ k, (s.callbacks.eraseIdx k).countP (Callback.trades code) ≤
      s.callbacks.countP (Callback.trades code) :=
    fun k => (List.eraseIdx_sublist _ k).countP_le
  simp only [State.traded] at h ⊢
  cases step with
  | consent =>
      simp only [OneTime.unused_append, List.countP_append, List.countP_singleton,
        decide_eq_true_eq]
      omega
  | refuse =>
      simp only [List.countP_append, List.countP_singleton, Callback.trades]
      exact h
  | enter ok =>
      simp only [List.countP_append, List.countP_singleton, Callback.trades]
      exact h
  | @fail k c reason _ sender =>
      have counted := moved (.answered (.error reason)) sender
      have none_ : Callback.trades code { c with stage := .answered (.error reason) } = false := rfl
      simp only [none_, Bool.false_eq_true, if_false] at counted
      simp only [State.fail, State.setCallback]
      omega
  | @hear k c flow profile now sender stage =>
      obtain ⟨grants, honoured⟩ := honours_of_honest honest sender stage
      have less := OneTime.unused_redeem code (honours_eq_some honoured)
      have counted := moved (.resolving flow profile) sender
      simp only [Callback.trades, stage, decide_eq_true_eq, Bool.false_eq_true, if_false] at counted
      simp only [State.setCallback, honoured, Option.getD_some]
      omega
  | @resolve k c flow profile userID sender stage =>
      have counted := moved (.issuing flow profile userID) sender
      simp only [Callback.trades, stage, decide_eq_true_eq] at counted
      simp only [State.setCallback]
      omega
  | @issue k c flow profile userID code' now sender stage =>
      have counted := moved (.answered (.code code')) sender
      simp only [Callback.trades, stage, decide_eq_true_eq, Bool.false_eq_true, if_false] at counted
      simp only [State.setCallback, List.countP_append, List.countP_singleton, decide_eq_true_eq]
      omega
  | @deliver k c sender =>
      have fewer := erased k
      simp only
      omega
  | @lose k =>
      have fewer := erased k
      simp only
      omega
  | _ => exact h

/-- **Nothing is traded twice.** Each session has a login code of its own that was issued, and
each login code that was issued a consent of its own. -/
theorem sessions_subperm (reach : (machine d).Reach Honest s) :
    (s.sessions.map (·.code)).Subperm (s.issued.map (·.code)) ∧
      (s.issued.map (·.flow.code)).Subperm (s.consents.map (·.code)) := by
  have kept : ∀ code, s.spent code + OneTime.unused (HashLoginCode code) s.codes ≤
      s.issued.countP (·.code = code) ∧
      s.traded code + OneTime.unused code s.grants ≤ s.consents.countP (·.code = code) := by
    intro code
    refine reach.invariant (P := fun t =>
      t.spent code + OneTime.unused (HashLoginCode code) t.codes ≤
        t.issued.countP (·.code = code) ∧
      t.traded code + OneTime.unused code t.grants ≤ t.consents.countP (·.code = code)) ?_ ?_
    · rintro t rfl
      simp [State.spent, State.traded, OneTime.unused, empty]
    · exact fun h honest next =>
        ⟨spent_step h.1 (next_step next), traded_step h.2 honest (next_step next)⟩
  constructor
  · refine List.subperm_ext_iff.mpr fun code _ => ?_
    have bound := (kept code).1
    rw [State.spent] at bound
    simp only [List.count, List.countP_map, Function.comp_def, beq_eq_decide]
    omega
  · refine List.subperm_ext_iff.mpr fun code _ => ?_
    have bound := (kept code).2
    rw [State.traded] at bound
    simp only [List.count, List.countP_map, Function.comp_def, beq_eq_decide]
    omega

/-- A round trip gives one session for one consent. -/
theorem sessions_subperm_roundTrip :
    let s := (machine behindProxy).after Honest empty roundTrip
    (s.sessions.map (·.code)).Subperm (s.issued.map (·.code)) ∧
      (s.issued.map (·.flow.code)).Subperm (s.consents.map (·.code)) :=
  sessions_subperm (Machine.reach_after rfl (by decide +kernel))

/-! ## What gets through -/

/-- The path a deployment publishes the flow under. -/
def Deployment.published (d : Deployment) : String :=
  trimSlashes d.publicPathPrefix ++ ProviderFlow.cookiePath

/-- A prefix that is configured decides where the cookies belong, whatever a request says. -/
theorem cookiePath_eq (configured : trimSlashes d.publicPathPrefix ≠ "") (forwarded : String) :
    d.cookiePath forwarded = d.published := by
  rw [Deployment.cookiePath]
  exact if_pos configured

/-- The condition on a step that a browser begins no flow and hears of none. -/
def Spared (browser : ℕ) (s : State) : Label → Prop
  | .start b _ _ _ _ _ => b ≠ browser
  | .deliver k => ∀ c ∈ s.callbacks[k]?, c.browser ≠ browser
  | _ => True

/-- All the cookies belong to one path. -/
theorem scoped_step (configured : trimSlashes d.publicPathPrefix ≠ "")
    (h : ∀ b, ∀ c ∈ s.jars b, c.path = sanitizeCookiePath d.published)
    (step : Step d s label s') : ∀ b, ∀ c ∈ s'.jars b, c.path = sanitizeCookiePath d.published := by
  cases step with
  | @start browser provider name forwarded state verifier now =>
      intro b c member
      by_cases same : b = browser
      · subst same
        simp only [Function.update_self, setFlowCookies, cookiePath_eq configured,
          mem_set] at member
        rcases member with rfl | ⟨rfl | ⟨old, -⟩, -⟩
        · rfl
        · rfl
        · exact h b c old
      · simp only [Function.update_of_ne same] at member
        exact h b c member
  | @deliver k c' sender =>
      intro b c member
      by_cases same : b = c'.browser
      · subst same
        simp only [Function.update_self, clearFlowCookies, mem_clear] at member
        exact h _ c member.1.1
      · simp only [Function.update_of_ne same] at member
        exact h b c member
  | _ => exact h

theorem jars_step {browser : ℕ} (spared : Spared browser s label) (step : Step d s label s') :
    s'.jars browser = s.jars browser := by
  cases step with
  | start => exact Function.update_of_ne (Ne.symm spared) _ _
  | deliver sender => exact Function.update_of_ne (Ne.symm (spared _ sender)) _ _
  | _ => rfl

/-- The cookies of a start are the only ones of their names. -/
theorem readFlowCookies_start {forwarded state verifier : String} {t now : Time}
    {jar : List (Cookie Time)} {r : CallbackRequest}
    (configured : trimSlashes d.publicPathPrefix ≠ "")
    (within : ∀ c ∈ jar, c.path = sanitizeCookiePath d.published)
    (fits : pathMatches (sanitizeCookiePath d.published) r.path = true) :
    readFlowCookies r now (setFlowCookies d forwarded state verifier t jar) =
      if now < t + oauthFlowTTL then some (state, verifier) else none := by
  have members : ∀ {c}, c ∈ setFlowCookies d forwarded state verifier t jar →
      c = ⟨verifierCooki, verifier, sanitizeCookiePath d.published, t + oauthFlowTTL⟩ ∨
      c = ⟨stateCookie, state, sanitizeCookiePath d.published, t + oauthFlowTTL⟩ ∨
      (c.name ≠ stateCookie ∧ c.name ≠ verifierCooki) := by
    intro c member
    simp only [setFlowCookies, cookiePath_eq configured, mem_set] at member
    rcases member with new | ⟨new | ⟨old, other⟩, other'⟩
    · exact .inl new
    · exact .inr (.inl new)
    · have at_ := within c old
      exact .inr (.inr ⟨fun named => other ⟨named, at_⟩, fun named => other' ⟨named, at_⟩⟩)
  have left : sent stateCookie r.path now (setFlowCookies d forwarded state verifier t jar) =
      if now < t + oauthFlowTTL then
        some ⟨stateCookie, state, sanitizeCookiePath d.published, t + oauthFlowTTL⟩ else none := by
    refine sent_eq_ite
      (c := ⟨stateCookie, state, sanitizeCookiePath d.published, t + oauthFlowTTL⟩) ?_ rfl fits ?_
    · simp [setFlowCookies, cookiePath_eq configured, mem_set, stateCookie_ne]
    · intro c member named
      rcases members member with rfl | rfl | ⟨other, -⟩
      · exact absurd named.symm stateCookie_ne
      · rfl
      · exact absurd named other
  have right : sent verifierCooki r.path now (setFlowCookies d forwarded state verifier t jar) =
      if now < t + oauthFlowTTL then
        some ⟨verifierCooki, verifier, sanitizeCookiePath d.published, t + oauthFlowTTL⟩
      else none := by
    refine sent_eq_ite
      (c := ⟨verifierCooki, verifier, sanitizeCookiePath d.published, t + oauthFlowTTL⟩) ?_ rfl fits
      ?_
    · simp [setFlowCookies, cookiePath_eq configured, mem_set]
    · intro c member named
      rcases members member with rfl | rfl | ⟨-, other⟩
      · rfl
      · exact absurd named stateCookie_ne
      · exact absurd named other
  rw [readFlowCookies, left, right]
  split_ifs
  · rfl
  · rfl

/-- **A flow that nothing interferes with gets through, and no other does.** Behind a prefix
that is configured, after a start in a browser and until the browser starts again or hears of
a callback, a callback in it is let through exactly when it reports no error, brings a code,
echoes that start's state and comes within ten minutes of it; and it then carries that start's
verifier. -/
theorem flow_admitted (configured : trimSlashes d.publicPathPrefix ≠ "")
    (plain : sanitizeCookiePath d.published = d.published)
    (reach : (machine d).Reach Machine.always s) {browser : ℕ} {p : Provider}
    {name forwarded state verifier : String} {t : Time} {s₁ : State}
    (begins : (machine d).next s (.start browser name forwarded state verifier t) = some s₁)
    (offered : d.provider name = .ok p)
    (leads : (machine d).Leads (Spared browser) s₁ s') {r : CallbackRequest} {rest : String}
    (below : r.path = d.published ++ "/" ++ rest) {now : Time} {flow : Flow} :
    completeOAuth d browser r now (s'.jars browser) = .ok flow ↔
      r.error = "" ∧ r.code ≠ "" ∧ r.state = state ∧ now < t + oauthFlowTTL ∧
        d.provider r.provider = .ok flow.provider ∧
        flow = ⟨browser, flow.provider, state, verifier, r.code, now⟩ := by
  have within : ∀ b, ∀ c ∈ s.jars b, c.path = sanitizeCookiePath d.published := by
    refine reach.invariant
      (P := fun t => ∀ b, ∀ c ∈ t.jars b, c.path = sanitizeCookiePath d.published) ?_ ?_
    · rintro t rfl
      simp [empty]
    · exact fun h _ next => scoped_step configured h (next_step next)
  have jar : s'.jars browser = setFlowCookies d forwarded state verifier t (s.jars browser) := by
    have kept : s'.jars browser = s₁.jars browser := by
      refine leads.invariant (P := fun t => t.jars browser = s₁.jars browser) rfl ?_
      exact fun h spared next => (jars_step spared (next_step next)).trans h
    rw [kept]
    simp only [machine, offered] at begins
    obtain rfl := Option.some.inj begins
    exact Function.update_self _ _ _
  have fits : pathMatches (sanitizeCookiePath d.published) r.path = true := by
    rw [plain, below]
    exact pathMatches_below
  rw [completeOAuth_ok_iff, jar, readFlowCookies_start configured (within browser) fits]
  constructor
  · rintro ⟨provider, state', verifier', found, clean, read, echo, some_, rfl⟩
    split_ifs at read with soon
    obtain ⟨rfl, rfl⟩ := Prod.mk.inj (Option.some.inj read)
    exact ⟨clean, some_, echo, soon, found, rfl⟩
  · rintro ⟨clean, some_, echo, soon, found, same⟩
    exact ⟨flow.provider, state, verifier, found, clean, if_pos soon, echo, some_, same⟩

instance (b : ℕ) (s : State) (l : Label) : Decidable (Spared b s l) := by
  unfold Spared
  split <;> infer_instance

/-- After a browser's start. -/
def started : State :=
  ((machine behindProxy).next empty (.start 0 "google" "" "state" "verifier" 0)).getD empty

/-- Behind a proxy that forwards the protocol the flow is admitted. -/
theorem flow_admitted_behindProxy :
    let s := (machine behindProxy).after (Spared 0) started
      [.start 1 "google" "" "other" "another" 1, .callback 1 (back "state" "granted") 1, .deliver 0]
    completeOAuth behindProxy 0 (back "state" "granted") 2 (s.jars 0) =
      .ok ⟨0, .google, "state", "verifier", "granted", 2⟩ :=
  have below :
      (back "state" "granted").path = behindProxy.published ++ "/" ++ "google/callback" := by
    decide +kernel
  have begins : (machine behindProxy).next empty
      (.start 0 "google" "" "state" "verifier" 0) = some started := rfl
  (flow_admitted (by decide +kernel) (by decide +kernel) ⟨empty, rfl, .refl empty⟩ begins rfl
    (Machine.leads_after (by decide +kernel)) below).mpr (by decide +kernel)

end ScoutPulse.Identity.ProviderFlow
