import ScoutPulse.Tab.Model

/-!
# What a logout leaves

Clearing the session takes away the flag without which no refresh begins, so the only
thing that can sign the tab in again, short of the user, is a refresh that had begun
before: its tokens are put into the store whenever they arrive.
-/

namespace ScoutPulse.Tab

/-- Nobody is signed in, and there is nothing to restore. -/
structure SessionStore.SignedOut (s : SessionStore) : Prop where
  token : s.accessToken = none
  status : s.status = .anonymous
  storage : s.storage.hasSession = false

def Purpose.isLogout : Purpose → Bool
  | .logout _ => true
  | _ => false

/-- A refresh call of one of the first `n` runs. -/
def Purpose.isEarlier (n : ℕ) : Purpose → Bool
  | .refresh k _ => k < n
  | _ => false

/-- Logout clears the session. -/
def logsOut (t : State) : Label → Bool
  | .logout => !(t.session.storage.hasSession || t.session.status = .authenticated)
  | .answer i _ => t.calls[i]?.any fun c => c.purpose.isLogout
  | _ => false

/-- The user's sign-in succeeds. -/
def signsIn (t : State) : Label → Bool
  | .answer i (.tokens _) => t.calls[i]?.any fun c => c.purpose = .signIn
  | _ => false

/-- One of the first `n` refreshes is answered with tokens. -/
def renews (n : ℕ) (t : State) : Label → Bool
  | .answer i (.tokens _) => t.calls[i]?.any fun c => c.stage = .sent && c.purpose.isEarlier n
  | _ => false

/-- Nobody signs in, and none of the first `n` refreshes is answered with tokens. -/
def Final (n : ℕ) (t : State) (label : Label) : Prop :=
  signsIn t label = false ∧ renews n t label = false

instance (n : ℕ) (t : State) (label : Label) : Decidable (Final n t label) :=
  inferInstanceAs (Decidable (_ ∧ _))

/-! ## The store -/

theorem SessionStore.signedOut_clear (s : SessionStore) : s.clear.SignedOut := ⟨rfl, rfl, rfl⟩

theorem SessionStore.SignedOut.setUser {s : SessionStore} (out : s.SignedOut) (user : User) :
    (s.setUser user).SignedOut := ⟨out.token, out.status, out.storage⟩

theorem SessionStore.SignedOut.markAnonymous {s : SessionStore} (out : s.SignedOut) :
    s.markAnonymous.SignedOut := ⟨out.token, rfl, out.storage⟩

/-! ## The tab -/

/-- Signed out, with `n` refreshes begun so far. -/
structure Out (n : ℕ) (t : State) : Prop where
  session : t.session.SignedOut
  begun : t.runs.length = n

namespace Out

variable {n : ℕ} {t : State}

theorem clear (out : Out n t) : Out n t.clear := ⟨t.session.signedOut_clear, out.begun⟩

theorem send (out : Out n t) (purpose : Purpose) : Out n (t.send purpose) :=
  ⟨out.session, out.begun⟩

theorem setStage (out : Out n t) (i : ℕ) (stage : Stage) : Out n (t.setStage i stage) :=
  ⟨out.session, out.begun⟩

theorem setProgress (out : Out n t) (k : ℕ) (progress : Progress) :
    Out n (t.setProgress k progress) :=
  ⟨out.session, by rw [State.setProgress, List.length_modify, out.begun]⟩

/-- Only a sign-in's tokens get past a call that is not a refresh. -/
theorem settle (out : Out n t) {purpose : Purpose} {reply : Reply}
    (notSignIn : purpose = .signIn → ∀ tokens, reply ≠ .tokens tokens) :
    Out n (t.settle purpose reply) := by
  cases purpose with
  | page _ => exact out
  | refresh _ _ => exact out
  | profile restoring =>
      refine ⟨?_, out.begun⟩
      cases reply with
      | user user => exact out.session.setUser user
      | unauthorized => exact t.session.signedOut_clear
      | done => exact out.session
      | tokens _ => exact out.session
      | failed => exact out.session
  | signIn =>
      cases reply with
      | tokens tokens => exact absurd rfl (notSignIn rfl tokens)
      | done => exact out
      | user _ => exact out
      | unauthorized => exact out
      | failed => exact out
  | logout _ => exact out.clear

/-- An answer leaves the tab signed out, if it is not that to a sign-in. -/
theorem finish (out : Out n t) (i : ℕ) {purpose : Purpose} {reply : Reply}
    (notSignIn : purpose = .signIn → ∀ tokens, reply ≠ .tokens tokens) :
    Out n (t.finish i purpose reply) :=
  (out.setStage i .over).settle notSignIn

/-- So does the end of a request. -/
theorem conclude (out : Out n t) (i : ℕ) {purpose : Purpose} {reply : Reply}
    (notSignIn : purpose = .signIn → ∀ tokens, reply ≠ .tokens tokens) :
    Out n (t.conclude i purpose reply) := by
  unfold State.conclude
  split_ifs
  · exact out.clear.finish i notSignIn
  · exact out.finish i notSignIn

/-- A refresh that ends with an error signs nobody in. -/
theorem reject (out : Out n t) (k : ℕ) (cause : Cause) {reply : Reply}
    (error : ∀ tokens, reply ≠ .tokens tokens) : Out n (t.reject k cause reply) := by
  have refused := out.setProgress k .refused
  cases cause with
  | restore =>
      refine ⟨?_, refused.begun⟩
      simp only [State.reject]
      split_ifs
      · exact SessionStore.signedOut_clear _
      · exact refused.session.markAnonymous
  | request i =>
      have fold : ∀ (waiting : List (ℕ × Purpose)) (u : State), Out n u →
          Out n (waiting.foldl (fun t p => t.conclude p.1 p.2 reply) u) := by
        intro waiting
        induction waiting with
        | nil =>
            intro u outU
            exact outU
        | cons p rest ih =>
            intro u outU
            exact ih _ (outU.conclude p.1 fun _ => error)
      exact fold _ _ ⟨refused.session, refused.begun⟩

/-- A refresh answered with an error leaves the tab signed out. -/
theorem refreshAnswered (out : Out n t) {t' : State} {k : ℕ} {r : Run} {reply : Reply}
    (error : ∀ tokens, reply ≠ .tokens tokens)
    (answered : t.refreshAnswered k r reply = some t') : Out n t' := by
  unfold State.refreshAnswered at answered
  split at answered
  · split at answered
    · exact absurd rfl (error _)
    · cases answered
      exact out.setProgress k .pausing
    · cases answered
      exact out.reject k r.cause error
  · split at answered
    · exact absurd rfl (error _)
    · cases answered
      exact out.reject k r.cause error
  · cases answered

/-- What an answer does, other than a sign-in's tokens and a refresh's. -/
theorem answered (out : Out n t) {t' : State} {i : ℕ} {c : Call} {reply : Reply}
    (notSignIn : c.purpose = .signIn → ∀ tokens, reply ≠ .tokens tokens)
    (notRefresh : c.stage = .sent → c.purpose.isEarlier n = true → ∀ tokens, reply ≠ .tokens tokens)
    (answered : t.answered i c reply = some t') : Out n t' := by
  unfold State.answered at answered
  split at answered
  case h_1 sent =>
    split at answered
    case h_1 k legacy purpose =>
      obtain ⟨r, run, answered⟩ := Option.bind_eq_some_iff.mp answered
      have early : k < n := by
        rw [← out.begun]
        exact (List.getElem?_eq_some_iff.mp run).1
      have error := notRefresh sent (by rw [purpose]; exact decide_eq_true early)
      exact (out.setStage i .over).refreshAnswered error answered
    case h_2 =>
      rw [out.session.storage] at answered
      split_ifs at answered with through absent
      · cases answered
        exact out.finish i notSignIn
      · cases absent
      · cases answered
        exact out.conclude i notSignIn
  case h_2 =>
    cases answered
    exact out.conclude i notSignIn
  case h_3 => cases answered

/-- Nothing that happens signs the tab in again. -/
theorem next (out : Out n t) {t' : State} {label : Label} (final : Final n t label)
    (next : tab.next t label = some t') : Out n t' := by
  simp only [tab] at next
  cases label with
  | restore =>
      simp only [Tab.next, State.restore] at next
      rw [out.session.storage] at next
      split_ifs at next with loading absent
      · cases absent
      · cases next
        exact ⟨out.session.markAnonymous, out.begun⟩
  | request marked =>
      simp only [Tab.next] at next
      split_ifs at next
      cases next
      exact out.send _
  | signIn =>
      simp only [Tab.next] at next
      split_ifs at next
      cases next
      exact out.send _
  | logout =>
      simp only [Tab.next, State.logout] at next
      split_ifs at next
      · cases next
        exact out.send _
      · cases next
        exact out.clear
  | answer i reply =>
      simp only [Tab.next] at next
      obtain ⟨c, found, next⟩ := Option.bind_eq_some_iff.mp next
      split_ifs at next
      apply out.answered _ _ next
      · rintro purpose tokens rfl
        have signs := final.1
        simp [signsIn, found, purpose] at signs
      · rintro sent earlier tokens rfl
        have renewed := final.2
        simp [renews, found, sent, earlier] at renewed
  | retry k =>
      simp only [Tab.next] at next
      obtain ⟨r, -, next⟩ := Option.bind_eq_some_iff.mp next
      split_ifs at next
      cases next
      exact (out.send _).setProgress k _

end Out

/-- A logout's call clears the session whatever the server says. -/
theorem answered_logout {t t' : State} {i : ℕ} {c : Call} {reply : Reply}
    {legacy : Option String} (purpose : c.purpose = .logout legacy)
    (answered : t.answered i c reply = some t') : t'.session.SignedOut := by
  have finished : ∀ u : State, (u.finish i (.logout legacy) reply).session.SignedOut :=
    fun u => u.session.signedOut_clear
  simp only [State.answered, purpose, Purpose.skipAuth, true_or, if_true] at answered
  split at answered
  · cases answered
    exact finished t
  · cases answered
    unfold State.conclude
    split_ifs
    · exact finished t.clear
    · exact finished t
  · cases answered

theorem exists_refresh_of_isEarlier {n : ℕ} {purpose : Purpose}
    (earlier : purpose.isEarlier n = true) : ∃ k legacy, purpose = .refresh k legacy := by
  cases purpose with
  | refresh k legacy => exact ⟨k, legacy, rfl⟩
  | _ => cases earlier

theorem resolve_authenticated (t : State) (k : ℕ) (cause : Cause) (tokens : TokenPair) :
    (t.resolve k cause tokens).session.status = .authenticated := by
  cases cause <;> rfl

/-- A refresh's tokens are stored whenever they arrive. -/
theorem renews_authenticated {n : ℕ} {t t' : State} {label : Label}
    (renewed : renews n t label = true) (next : tab.next t label = some t') :
    t'.session.status = .authenticated := by
  simp only [tab] at next
  cases label with
  | answer i reply =>
      cases reply with
      | tokens tokens =>
          simp only [Tab.next] at next
          obtain ⟨c, found, next⟩ := Option.bind_eq_some_iff.mp next
          simp only [renews, found, Option.any_some, Bool.and_eq_true,
            decide_eq_true_eq] at renewed
          split_ifs at next
          obtain ⟨sent, earlier⟩ := renewed
          obtain ⟨k, legacy, purpose⟩ := exists_refresh_of_isEarlier earlier
          simp only [State.answered, sent, purpose] at next
          obtain ⟨r, -, next⟩ := Option.bind_eq_some_iff.mp next
          simp only [State.refreshAnswered] at next
          split at next
          · cases next
            exact resolve_authenticated _ k r.cause tokens
          · cases next
            exact resolve_authenticated _ k r.cause tokens
          · cases next
      | _ => cases renewed
  | _ => cases renewed

/-- Clearing the session signs the tab out. -/
theorem logsOut_out {t t' : State} {label : Label} (cleared : logsOut t label = true)
    (next : tab.next t label = some t') : t'.session.SignedOut := by
  simp only [tab] at next
  cases label with
  | restore => cases cleared
  | request _ => cases cleared
  | signIn => cases cleared
  | retry _ => cases cleared
  | logout =>
      simp only [logsOut, Bool.not_eq_true', Bool.or_eq_false_iff, decide_eq_false_iff_not]
        at cleared
      simp only [Tab.next, State.logout] at next
      split_ifs at next with ready some_
      · exact absurd some_ (by simp [cleared])
      · cases next
        exact t.session.signedOut_clear
  | answer i reply =>
      simp only [Tab.next] at next
      obtain ⟨c, found, next⟩ := Option.bind_eq_some_iff.mp next
      simp only [logsOut, found, Option.any_some] at cleared
      split_ifs at next
      cases purpose : c.purpose with
      | logout legacy => exact answered_logout purpose next
      | page _ => simp [purpose, Purpose.isLogout] at cleared
      | profile _ => simp [purpose, Purpose.isLogout] at cleared
      | refresh _ _ => simp [purpose, Purpose.isLogout] at cleared
      | signIn => simp [purpose, Purpose.isLogout] at cleared

/-- Once logout has cleared the session, the tab stays signed out until the user signs in,
in every run in which no refresh begun before is answered with tokens. -/
theorem logout_final {s s' t : State} {label : Label} (cleared : logsOut s label = true)
    (next : tab.next s label = some s') (leads : tab.Leads (Final s'.runs.length) s' t) :
    t.session.SignedOut := by
  have out : Out s'.runs.length t := by
    apply leads.invariant ⟨logsOut_out cleared next, rfl⟩
    intro u u' label out final next
    exact out.next final next
  exact out.session

/-! ## Two logouts -/

/-- The user signs in and a page makes a call. -/
def visit : List Label :=
  [.restore, .signIn, .answer 0 (.tokens ⟨"a1"⟩), .answer 1 (.user ⟨"ana"⟩), .request false]

/-- The page's call is answered 401, so a refresh begins; the user signs out. -/
def leave : List Label := [.answer 2 .unauthorized, .logout]

def newTab : State := opened ⟨false, none⟩

def leaving : State := tab.after Machine.always newTab (visit ++ leave)

def loggedOut : State := tab.after Machine.always leaving [.answer 4 .done]

/-- The server refuses the refresh, twice: the logout came first. -/
theorem logout_final_refused :
    logsOut leaving (.answer 4 .done) = true ∧
      (tab.after (Final 1) loggedOut [.answer 3 .unauthorized, .retry 0,
        .answer 5 .unauthorized]).session.SignedOut := by
  have cleared : logsOut leaving (.answer 4 .done) = true := by decide
  have next : tab.next leaving (.answer 4 .done) = some loggedOut := rfl
  have leads : tab.Leads (Final loggedOut.runs.length) loggedOut
      (tab.after (Final 1) loggedOut [.answer 3 .unauthorized, .retry 0,
        .answer 5 .unauthorized]) :=
    Machine.leads_after (by decide)
  exact ⟨cleared, logout_final cleared next leads⟩

/-- The refresh is answered with tokens, before or after the server sees the logout, and
its answer is the last to arrive. -/
theorem logout_undone :
    ∃ s s' t label, tab.Reach Machine.always s ∧ logsOut s label = true ∧
      tab.next s label = some s' ∧ tab.Leads (fun u label => signsIn u label = false) s' t ∧
      t.session.status = .authenticated ∧ t.session.accessToken = some "a2" := by
  refine ⟨leaving, loggedOut,
    tab.after (fun u label => signsIn u label = false) loggedOut [.answer 3 (.tokens ⟨"a2"⟩)],
    .answer 4 .done, ?_, by decide, rfl, ?_, by decide, by decide⟩
  · exact Machine.reach_after ⟨_, rfl⟩ (by decide)
  · exact Machine.leads_after (by decide)

end ScoutPulse.Tab
