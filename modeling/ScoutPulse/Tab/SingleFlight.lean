import ScoutPulse.Tab.Model
import Mathlib.Data.List.Basic

/-!
# One refresh at a time

A call that is answered 401 finds the refresh in flight in the interceptor's slot and waits
for it. The refresh of the page's start-up is not in the slot; while it runs, its own call
is the only one there is.
-/

namespace ScoutPulse.Tab

/-- The run has not ended. -/
def Progress.active : Progress → Bool
  | .asking _ => true
  | .pausing => true
  | .askingAgain _ => true
  | .renewed _ => false
  | .refused => false

def Purpose.isRefresh : Purpose → Bool
  | .refresh _ _ => true
  | _ => false

/-- Call `i` is a refresh call that has not been answered. -/
def RefreshInFlight (t : State) (i : ℕ) : Prop :=
  ∃ c, t.calls[i]? = some c ∧ c.purpose.isRefresh = true ∧ c.stage = .sent

/-- A call was sent a second time, with the tokens of a refresh that has succeeded. -/
def SentAgain (t : State) (c : Call) : Prop :=
  ∃ first tokens, c.sends = [first, some tokens.accessToken] ∧
    ∃ r ∈ t.runs, r.progress = .renewed tokens

/-- At most one refresh call is in flight; each call was sent once, or once more after a
refresh succeeded; and what a refresh was begun for is a call the interceptor acts on. -/
structure SingleFlight (t : State) : Prop where
  one : ∀ i j, RefreshInFlight t i → RefreshInFlight t j → i = j
  again : ∀ c ∈ t.calls, c.sends.length = 1 ∨ SentAgain t c
  unmarked : ∀ r ∈ t.runs, ∀ i, r.cause = .request i →
    ∃ c, t.calls[i]? = some c ∧ c.purpose.skipAuth = false

/-! ## The invariant -/

/-- How the calls, the runs, the slot and the start-up hang together. -/
structure Wired (t : State) : Prop where
  call : ∀ (i : ℕ) (c : Call) (k : ℕ) (legacy : Option String), t.calls[i]? = some c →
    c.purpose = .refresh k legacy → c.stage = .sent → ∃ r, t.runs[k]? = some r ∧
      (r.progress = .asking i ∨ r.progress = .askingAgain i)
  slot : ∀ (k : ℕ) (r : Run) (i : ℕ), t.runs[k]? = some r → r.progress.active = true →
    r.cause = .request i → t.inFlightRefresh = some k
  restore : ∀ (k : ℕ) (r : Run), t.runs[k]? = some r → r.progress.active = true →
    r.cause = .restore → k = 0 ∧ t.inFlightRefresh = none ∧ t.startup = .restoring ∧
      ∀ c ∈ t.calls, c.purpose.isRefresh = true
  loading : t.startup = .loading → t.calls = [] ∧ t.runs = [] ∧ t.inFlightRefresh = none
  sends : ∀ c ∈ t.calls, c.sends.length = 1 ∨
    (c.stage = .resent ∨ c.stage = .over) ∧ SentAgain t c
  unmarked : ∀ r ∈ t.runs, ∀ i, r.cause = .request i →
    ∃ c, t.calls[i]? = some c ∧ c.purpose.skipAuth = false

/-- The restore's own refresh is not running. -/
def Restored (t : State) : Prop :=
  ∀ (k : ℕ) (r : Run), t.runs[k]? = some r → r.progress.active = true → r.cause ≠ .restore

/-- At most one refresh is under way. -/
theorem Wired.active_unique {t : State} (wired : Wired t) {k l : ℕ} {r r' : Run}
    (run : t.runs[k]? = some r) (run' : t.runs[l]? = some r') (active : r.progress.active = true)
    (active' : r'.progress.active = true) : k = l := by
  cases cause : r.cause with
  | restore =>
      obtain ⟨zero, empty, -, -⟩ := wired.restore k r run active cause
      cases cause' : r'.cause with
      | restore => rw [zero, (wired.restore l r' run' active' cause').1]
      | request j =>
          have taken := wired.slot l r' j run' active' cause'
          rw [empty] at taken
          cases taken
  | request i =>
      have taken := wired.slot k r i run active cause
      cases cause' : r'.cause with
      | restore =>
          rw [(wired.restore l r' run' active' cause').2.1] at taken
          cases taken
      | request j =>
          have taken' := wired.slot l r' j run' active' cause'
          rw [taken] at taken'
          exact Option.some.inj taken'

theorem exists_refresh {purpose : Purpose} (isRefresh : purpose.isRefresh = true) :
    ∃ k legacy, purpose = .refresh k legacy := by
  cases purpose with
  | refresh k legacy => exact ⟨k, legacy, rfl⟩
  | _ => cases isRefresh

theorem active_of_asking {p : Progress} {i : ℕ} (asks : p = .asking i ∨ p = .askingAgain i) :
    p.active = true := by
  rcases asks with rfl | rfl <;> rfl

/-- Where the parts hang together, there is one refresh at a time. -/
theorem Wired.singleFlight {t : State} (wired : Wired t) : SingleFlight t := by
  constructor
  case one =>
    rintro i j ⟨c, found, isRefresh, sent⟩ ⟨d, found', isRefresh', sent'⟩
    obtain ⟨k, legacy, purpose⟩ := exists_refresh isRefresh
    obtain ⟨l, legacy', purpose'⟩ := exists_refresh isRefresh'
    obtain ⟨r, run, asks⟩ := wired.call i c k legacy found purpose sent
    obtain ⟨r', run', asks'⟩ := wired.call j d l legacy' found' purpose' sent'
    have same := wired.active_unique run run' (active_of_asking asks) (active_of_asking asks')
    subst same
    obtain rfl : r = r' := Option.some.inj (run.symm.trans run')
    rcases asks with asks | asks <;> rcases asks' with asks' | asks' <;>
      rw [asks] at asks' <;> cases asks' <;> rfl
  case again =>
    intro c member
    rcases wired.sends c member with once | ⟨-, again⟩
    · exact .inl once
    · exact .inr again
  case unmarked => exact wired.unmarked

/-- A call that is not a refresh shows that the restore's own refresh is not running. -/
theorem Wired.restored {t : State} (wired : Wired t) {i : ℕ} {c : Call}
    (found : t.calls[i]? = some c) (other : c.purpose.isRefresh = false) : Restored t := by
  intro k r run active cause
  have all := (wired.restore k r run active cause).2.2.2
  rw [all c (List.mem_of_getElem? found)] at other
  cases other

/-! ## The tab's steps -/

/-- The session takes no part. -/
theorem Wired.congr {t t' : State} (wired : Wired t) (calls : t'.calls = t.calls)
    (runs : t'.runs = t.runs) (slot : t'.inFlightRefresh = t.inFlightRefresh)
    (startup : t'.startup = t.startup) : Wired t' := by
  obtain ⟨session, _, _, _, _⟩ := t'
  dsimp only at calls runs slot startup
  subst calls runs slot startup
  exact ⟨wired.call, wired.slot, wired.restore, wired.loading, wired.sends, wired.unmarked⟩

/-- They do after the session is cleared. -/
theorem Wired.clear {t : State} (wired : Wired t) : Wired t.clear := wired.congr rfl rfl rfl rfl

/-- They do when the start-up is over. -/
theorem Wired.ready {t : State} (wired : Wired t) (restored : Restored t) :
    Wired { t with startup := .ready } where
  call := wired.call
  slot := wired.slot
  restore k r run active cause := absurd cause (restored k r run active)
  loading none_ := by cases none_
  sends := wired.sends
  unmarked := wired.unmarked

/-- What is in a list with one more was in it, or is the last. -/
theorem getElem?_concat_eq_some {α : Type*} {l : List α} {a b : α} {i : ℕ}
    (found : (l ++ [a])[i]? = some b) : l[i]? = some b ∨ i = l.length ∧ b = a := by
  rw [List.getElem?_append] at found
  split_ifs at found with inside
  · exact .inl found
  · have last : i - l.length = 0 := by
      by_contra beyond
      rw [List.getElem?_eq_none (by rw [List.length_singleton]; omega)] at found
      cases found
    rw [last] at found
    exact .inr ⟨by omega, (Option.some.inj found).symm⟩

theorem getElem?_concat_of_some {α : Type*} {l : List α} {a b : α} {i : ℕ}
    (found : l[i]? = some a) : (l ++ [b])[i]? = some a := by
  rw [List.getElem?_append_left (List.getElem?_eq_some_iff.mp found).1]
  exact found

/-- A call other than a refresh. -/
theorem Wired.send {t : State} (wired : Wired t) {purpose : Purpose}
    (other : purpose.isRefresh = false) (restored : Restored t) (begun : t.startup ≠ .loading) :
    Wired (t.send purpose) where
  call i c k legacy found isRefresh sent := by
    rcases getElem?_concat_eq_some found with old | ⟨-, rfl⟩
    · exact wired.call i c k legacy old isRefresh sent
    · dsimp only at isRefresh
      rw [isRefresh] at other
      cases other
  slot := wired.slot
  restore k r run active cause := absurd cause (restored k r run active)
  loading none_ := absurd none_ begun
  sends c member := by
    rcases List.mem_append.mp member with old | new
    · exact wired.sends c old
    · rw [List.mem_singleton.mp new]
      exact .inl rfl
  unmarked r member i cause := by
    obtain ⟨c, found, unmarked⟩ := wired.unmarked r member i cause
    exact ⟨c, getElem?_concat_of_some found, unmarked⟩

/-- A call that goes on keeps its purpose and what it sent. -/
theorem getElem?_setStage {t : State} {i j : ℕ} {stage : Stage} {c : Call}
    (found : (t.setStage i stage).calls[j]? = some c) :
    ∃ d, t.calls[j]? = some d ∧ c.purpose = d.purpose ∧ c.sends = d.sends ∧
      (i = j ∧ c.stage = stage ∨ i ≠ j ∧ c.stage = d.stage) := by
  rw [State.setStage, List.getElem?_modify] at found
  obtain ⟨d, old, changed⟩ := Option.map_eq_some_iff.mp found
  refine ⟨d, old, ?_⟩
  split_ifs at changed with same
  · subst changed
    exact ⟨rfl, rfl, .inl ⟨same, rfl⟩⟩
  · subst changed
    exact ⟨rfl, rfl, .inr ⟨same, rfl⟩⟩

/-- Each call is there with its purpose when another goes on. -/
theorem getElem?_setStage_of_some {t : State} {i : ℕ} {c : Call} (found : t.calls[i]? = some c)
    (j : ℕ) (stage : Stage) :
    ∃ d, (t.setStage j stage).calls[i]? = some d ∧ d.purpose = c.purpose := by
  rw [State.setStage, List.getElem?_modify, found]
  split_ifs
  · exact ⟨_, rfl, rfl⟩
  · exact ⟨_, rfl, rfl⟩

/-- A call moves on in the interceptor. -/
theorem Wired.setStage {t : State} (wired : Wired t) {i : ℕ} {stage : Stage}
    (moved : stage ≠ .sent)
    (once : stage ≠ .over → ∀ c, t.calls[i]? = some c → c.sends.length = 1) :
    Wired (t.setStage i stage) where
  call j c k legacy found purpose sent := by
    obtain ⟨d, old, samePurpose, -, ⟨-, now⟩ | ⟨-, same⟩⟩ := getElem?_setStage found
    · exact absurd (now.symm.trans sent) moved
    · exact wired.call j d k legacy old (samePurpose ▸ purpose) (same ▸ sent)
  slot := wired.slot
  restore k r run active cause := by
    obtain ⟨zero, empty, restoring, all⟩ := wired.restore k r run active cause
    refine ⟨zero, empty, restoring, ?_⟩
    intro c member
    obtain ⟨j, found⟩ := List.mem_iff_getElem?.mp member
    obtain ⟨d, old, samePurpose, -⟩ := getElem?_setStage found
    rw [samePurpose]
    exact all d (List.mem_of_getElem? old)
  loading none_ := by
    obtain ⟨noCalls, rest⟩ := wired.loading none_
    exact ⟨by rw [State.setStage, noCalls, List.modify_nil], rest⟩
  sends c member := by
    obtain ⟨j, found⟩ := List.mem_iff_getElem?.mp member
    obtain ⟨d, old, -, sameSends, now⟩ := getElem?_setStage found
    rcases wired.sends d (List.mem_of_getElem? old) with single | ⟨stages, first, tokens, sends, r⟩
    · exact .inl (sameSends ▸ single)
    rcases now with ⟨rfl, now⟩ | ⟨-, same⟩
    · by_cases closed : stage = .over
      · exact .inr ⟨.inr (now.trans closed), first, tokens, sameSends ▸ sends, r⟩
      · exact .inl (sameSends ▸ once closed d old)
    · exact .inr ⟨same ▸ stages, first, tokens, sameSends ▸ sends, r⟩
  unmarked r member j cause := by
    obtain ⟨c, found, unmarked⟩ := wired.unmarked r member j cause
    obtain ⟨d, now, same⟩ := getElem?_setStage_of_some found i stage
    exact ⟨d, now, same ▸ unmarked⟩

theorem Wired.over {t : State} (wired : Wired t) (i : ℕ) : Wired (t.setStage i .over) :=
  wired.setStage nofun fun notOver => absurd rfl notOver

/-- A refresh that goes on keeps its cause. -/
theorem getElem?_setProgress {t : State} {k l : ℕ} {progress : Progress} {r : Run}
    (found : (t.setProgress k progress).runs[l]? = some r) :
    ∃ r', t.runs[l]? = some r' ∧ r.cause = r'.cause ∧
      (k = l ∧ r.progress = progress ∨ k ≠ l ∧ r.progress = r'.progress) := by
  rw [State.setProgress, List.getElem?_modify] at found
  obtain ⟨r', old, changed⟩ := Option.map_eq_some_iff.mp found
  refine ⟨r', old, ?_⟩
  split_ifs at changed with same
  · subst changed
    exact ⟨rfl, .inl ⟨same, rfl⟩⟩
  · subst changed
    exact ⟨rfl, .inr ⟨same, rfl⟩⟩

theorem getElem?_setProgress_self {t : State} {k : ℕ} {r : Run} (found : t.runs[k]? = some r)
    (progress : Progress) :
    (t.setProgress k progress).runs[k]? = some ⟨r.cause, progress⟩ := by
  rw [State.setProgress, List.getElem?_modify, found]
  simp

theorem getElem?_setProgress_of_ne {t : State} {k l : ℕ} (other : k ≠ l) (progress : Progress) :
    (t.setProgress k progress).runs[l]? = t.runs[l]? := by
  simp [State.setProgress, other]

/-- A run that has not ended has sent nothing again yet. -/
theorem SentAgain.setProgress {t : State} {c : Call} (again : SentAgain t c) {k : ℕ} {r : Run}
    {progress : Progress} (run : t.runs[k]? = some r) (active : r.progress.active = true) :
    SentAgain (t.setProgress k progress) c := by
  obtain ⟨first, tokens, sends, r', member, renewed⟩ := again
  obtain ⟨l, found⟩ := List.mem_iff_getElem?.mp member
  have other : k ≠ l := by
    rintro rfl
    rw [Option.some.inj (run.symm.trans found), renewed] at active
    cases active
  refine ⟨first, tokens, sends, r', ?_, renewed⟩
  exact List.mem_of_getElem? ((getElem?_setProgress_of_ne other progress).trans found)

/-- No refresh call of the run is in flight. -/
def Answered (t : State) (k : ℕ) : Prop :=
  ∀ (i : ℕ) (c : Call) (legacy : Option String), t.calls[i]? = some c →
    c.purpose = .refresh k legacy → c.stage ≠ .sent

/-- The only refresh call of a run in flight has been answered. -/
theorem Wired.answered {t : State} (wired : Wired t) {i k : ℕ} {r : Run}
    (run : t.runs[k]? = some r) (asks : r.progress = .asking i ∨ r.progress = .askingAgain i) :
    Answered (t.setStage i .over) k := by
  intro j c legacy found purpose sent
  obtain ⟨d, old, samePurpose, -, ⟨-, now⟩ | ⟨other, same⟩⟩ := getElem?_setStage found
  · rw [now] at sent
    cases sent
  · obtain ⟨r', run', asks'⟩ :=
      wired.call j d k legacy old (samePurpose ▸ purpose) (same ▸ sent)
    obtain rfl : r = r' := Option.some.inj (run.symm.trans run')
    apply other
    rcases asks with asks | asks <;> rcases asks' with asks' | asks' <;>
      rw [asks] at asks' <;> cases asks' <;> rfl

/-- A refused first call leaves its run in the pause. -/
theorem Wired.pause {t : State} (wired : Wired t) {k : ℕ} {r : Run}
    (run : t.runs[k]? = some r) (active : r.progress.active = true) (answered : Answered t k) :
    Wired (t.setProgress k .pausing) where
  call i c l legacy found purpose sent := by
    have other : k ≠ l := by
      rintro rfl
      exact answered i c legacy found purpose sent
    rw [getElem?_setProgress_of_ne other]
    exact wired.call i c l legacy found purpose sent
  slot l r' i found active' cause := by
    obtain ⟨old, before, sameCause, ⟨rfl, -⟩ | ⟨-, same⟩⟩ := getElem?_setProgress found
    · obtain rfl : r = old := Option.some.inj (run.symm.trans before)
      exact wired.slot k r i run active (sameCause ▸ cause)
    · exact wired.slot l old i before (same ▸ active') (sameCause ▸ cause)
  restore l r' found active' cause := by
    obtain ⟨old, before, sameCause, ⟨rfl, -⟩ | ⟨-, same⟩⟩ := getElem?_setProgress found
    · obtain rfl : r = old := Option.some.inj (run.symm.trans before)
      exact wired.restore k r run active (sameCause ▸ cause)
    · exact wired.restore l old before (same ▸ active') (sameCause ▸ cause)
  loading none_ := by
    have empty := (wired.loading none_).2.1
    rw [empty] at run
    cases run
  sends c member := by
    rcases wired.sends c member with once | ⟨stages, again⟩
    · exact .inl once
    · exact .inr ⟨stages, again.setProgress run active⟩
  unmarked r' member i cause := by
    obtain ⟨l, found⟩ := List.mem_iff_getElem?.mp member
    obtain ⟨old, before, sameCause, -⟩ := getElem?_setProgress found
    exact wired.unmarked old (List.mem_of_getElem? before) i (sameCause ▸ cause)

/-- No run of `refreshSession` is under way. -/
def Idle (t : State) : Prop := ∀ r ∈ t.runs, r.progress.active = false

theorem Idle.restored {t : State} (idle : Idle t) : Restored t := by
  intro k r run active
  rw [idle r (List.mem_of_getElem? run)] at active
  cases active

/-- A run ends and gives up the slot. -/
theorem Wired.ended {t : State} (wired : Wired t) {k : ℕ} {r : Run} (progress : Progress)
    (run : t.runs[k]? = some r) (active : r.progress.active = true) (answered : Answered t k)
    (ends : progress.active = false) :
    Wired { t.setProgress k progress with inFlightRefresh := none } ∧
      Idle { t.setProgress k progress with inFlightRefresh := none } := by
  have idle : Idle { t.setProgress k progress with inFlightRefresh := none } := by
    intro r' member
    obtain ⟨l, found⟩ := List.mem_iff_getElem?.mp member
    obtain ⟨old, before, -, ⟨-, now⟩ | ⟨other, same⟩⟩ := getElem?_setProgress found
    · rw [now, ends]
    · by_contra active'
      rw [Bool.not_eq_false, same] at active'
      exact other (wired.active_unique run before active active')
  refine ⟨⟨?_, ?_, ?_, ?_, ?_, ?_⟩, idle⟩
  case refine_1 =>
    intro i c l legacy found purpose sent
    have other : k ≠ l := by
      rintro rfl
      exact answered i c legacy found purpose sent
    have still := wired.call i c l legacy found purpose sent
    rwa [← getElem?_setProgress_of_ne other progress] at still
  case refine_2 =>
    intro l r' i found active'
    rw [idle r' (List.mem_of_getElem? found)] at active'
    cases active'
  case refine_3 =>
    intro l r' found active'
    rw [idle r' (List.mem_of_getElem? found)] at active'
    cases active'
  case refine_4 =>
    intro none_
    have empty := (wired.loading none_).2.1
    rw [empty] at run
    cases run
  case refine_5 =>
    intro c member
    rcases wired.sends c member with once | ⟨stages, again⟩
    · exact .inl once
    · exact .inr ⟨stages, again.setProgress run active⟩
  case refine_6 =>
    intro r' member i cause
    obtain ⟨l, found⟩ := List.mem_iff_getElem?.mp member
    obtain ⟨old, before, sameCause, -⟩ := getElem?_setProgress found
    exact wired.unmarked old (List.mem_of_getElem? before) i (sameCause ▸ cause)

/-- The pause is over. -/
theorem Wired.askAgain {t : State} (wired : Wired t) {k : ℕ} {r : Run}
    (run : t.runs[k]? = some r) (pausing : r.progress = .pausing) : Wired (t.askAgain k) := by
  have active : r.progress.active = true := by
    rw [pausing]
    rfl
  have answered : Answered t k := by
    intro i c legacy found purpose sent
    obtain ⟨r', run', asks⟩ := wired.call i c k legacy found purpose sent
    rw [← Option.some.inj (run.symm.trans run'), pausing] at asks
    rcases asks with asks | asks <;> cases asks
  constructor
  case call =>
    intro i c l legacy found purpose sent
    rcases getElem?_concat_eq_some found with old | ⟨rfl, rfl⟩
    · have other : k ≠ l := by
        rintro rfl
        exact answered i c legacy old purpose sent
      have still := wired.call i c l legacy old purpose sent
      exact (getElem?_setProgress_of_ne other _).symm ▸ still
    · cases purpose
      exact ⟨_, getElem?_setProgress_self run _, .inr rfl⟩
  case slot =>
    intro l r' i found active' cause
    obtain ⟨old, before, sameCause, ⟨rfl, -⟩ | ⟨-, same⟩⟩ := getElem?_setProgress found
    · obtain rfl : r = old := Option.some.inj (run.symm.trans before)
      exact wired.slot k r i run active (sameCause ▸ cause)
    · exact wired.slot l old i before (same ▸ active') (sameCause ▸ cause)
  case restore =>
    intro l r' found active' cause
    have first : l = 0 ∧ t.inFlightRefresh = none ∧ t.startup = .restoring ∧
        ∀ c ∈ t.calls, c.purpose.isRefresh = true := by
      obtain ⟨old, before, sameCause, ⟨rfl, -⟩ | ⟨-, same⟩⟩ := getElem?_setProgress found
      · obtain rfl : r = old := Option.some.inj (run.symm.trans before)
        exact wired.restore k r run active (sameCause ▸ cause)
      · exact wired.restore l old before (same ▸ active') (sameCause ▸ cause)
    obtain ⟨zero, empty, restoring, all⟩ := first
    refine ⟨zero, empty, restoring, ?_⟩
    intro c member
    rcases List.mem_append.mp member with old | new
    · exact all c old
    · rw [List.mem_singleton.mp new]
      rfl
  case loading =>
    intro none_
    rw [(wired.loading none_).2.1] at run
    cases run
  case sends =>
    intro c member
    rcases List.mem_append.mp member with old | new
    · rcases wired.sends c old with once | ⟨stages, again⟩
      · exact .inl once
      · exact .inr ⟨stages, again.setProgress run active⟩
    · rw [List.mem_singleton.mp new]
      exact .inl rfl
  case unmarked =>
    intro r' member i cause
    obtain ⟨l, found⟩ := List.mem_iff_getElem?.mp member
    obtain ⟨old, before, sameCause, -⟩ := getElem?_setProgress found
    obtain ⟨c, there, marks⟩ :=
      wired.unmarked old (List.mem_of_getElem? before) i (sameCause ▸ cause)
    exact ⟨c, getElem?_concat_of_some there, marks⟩

/-- A call answered 401 begins a refresh: nothing else is under way. -/
theorem Wired.begin {t : State} (wired : Wired t) {i : ℕ} {c : Call}
    (found : t.calls[i]? = some c) (unmarked : c.purpose.skipAuth = false)
    (restored : Restored t) (free : t.inFlightRefresh = none) :
    Wired { t.refreshSession (.request i) with inFlightRefresh := some t.runs.length } := by
  have none_ : ∀ (k : ℕ) (r : Run), t.runs[k]? = some r → r.progress.active = false := by
    intro k r run
    by_contra active
    rw [Bool.not_eq_false] at active
    cases cause : r.cause with
    | restore => exact restored k r run active cause
    | request j =>
        have taken := wired.slot k r j run active cause
        rw [free] at taken
        cases taken
  constructor
  case call =>
    intro j d k legacy inFlight purpose sent
    rcases getElem?_concat_eq_some inFlight with old | ⟨rfl, rfl⟩
    · obtain ⟨r, run, asks⟩ := wired.call j d k legacy old purpose sent
      exact ⟨r, getElem?_concat_of_some run, asks⟩
    · cases purpose
      exact ⟨_, List.getElem?_concat_length, .inl rfl⟩
  case slot =>
    intro k r j run active cause
    rcases getElem?_concat_eq_some run with old | ⟨rfl, rfl⟩
    · rw [none_ k r old] at active
      cases active
    · rfl
  case restore =>
    intro k r run active cause
    rcases getElem?_concat_eq_some run with old | ⟨rfl, rfl⟩
    · rw [none_ k r old] at active
      cases active
    · cases cause
  case loading =>
    intro loading
    rw [(wired.loading loading).1] at found
    cases found
  case sends =>
    intro d member
    rcases List.mem_append.mp member with old | new
    · rcases wired.sends d old with once | ⟨stages, first, tokens, sends, r, mem, renewed⟩
      · exact .inl once
      · exact .inr ⟨stages, first, tokens, sends, r, List.mem_append_left _ mem, renewed⟩
    · rw [List.mem_singleton.mp new]
      exact .inl rfl
  case unmarked =>
    intro r member j cause
    rcases List.mem_append.mp member with old | new
    · obtain ⟨d, there, marks⟩ := wired.unmarked r old j cause
      exact ⟨d, getElem?_concat_of_some there, marks⟩
    · rw [List.mem_singleton.mp new] at cause
      cases cause
      exact ⟨c, getElem?_concat_of_some found, unmarked⟩

/-- The parts hang together when a request is sent again with new tokens. -/
theorem Wired.resend {t : State} (wired : Wired t) (idle : Idle t) {k : ℕ} {r : Run}
    {tokens : TokenPair} (run : r ∈ t.runs) (renewed : r.progress = .renewed tokens) :
    Wired (t.resend k tokens) where
  call i c l legacy found purpose sent := by
    rw [State.resend, List.getElem?_map] at found
    obtain ⟨d, old, changed⟩ := Option.map_eq_some_iff.mp found
    split_ifs at changed with waits
    · subst changed
      cases sent
    · subst changed
      exact wired.call i d l legacy old purpose sent
  slot := wired.slot
  restore l r' found active cause := absurd cause (idle.restored l r' found active)
  loading none_ := by
    rw [(wired.loading none_).2.1] at run
    cases run
  sends c member := by
    obtain ⟨d, old, changed⟩ := List.mem_map.mp member
    rcases wired.sends d old with once | ⟨stages, again⟩
    · split_ifs at changed with waits
      · obtain ⟨first, single⟩ := List.length_eq_one_iff.mp once
        subst changed
        exact .inr ⟨.inl rfl, first, tokens, by rw [single]; rfl, r, run, renewed⟩
      · exact .inl (changed ▸ once)
    · split_ifs at changed with waits
      · rw [waits] at stages
        rcases stages with stage | stage <;> cases stage
      · exact .inr (changed ▸ ⟨stages, again⟩)
  unmarked r' member i cause := by
    obtain ⟨c, found, marks⟩ := wired.unmarked r' member i cause
    refine ⟨_, by rw [State.resend, List.getElem?_map, found]; rfl, ?_⟩
    dsimp only
    split_ifs
    · exact marks
    · exact marks

/-! ## What follows an answer -/

/-- They do when an answer is taken in. -/
theorem Wired.settle {t : State} (wired : Wired t) {purpose : Purpose} (reply : Reply)
    (restored : purpose.isRefresh = false → Restored t) (begun : t.startup ≠ .loading) :
    Wired (t.settle purpose reply) := by
  cases purpose with
  | page _ => exact wired
  | refresh _ _ => exact wired
  | profile restoring =>
      cases restoring with
      | false => exact wired.congr rfl rfl rfl rfl
      | true => exact (wired.ready (restored rfl)).congr rfl rfl rfl rfl
  | signIn =>
      cases reply with
      | tokens tokens =>
          have session : Wired { t with session := t.session.start tokens none } :=
            wired.congr rfl rfl rfl rfl
          exact session.send rfl (restored rfl) begun
      | done => exact wired
      | user _ => exact wired
      | unauthorized => exact wired
      | failed => exact wired
  | logout _ => exact wired.clear

/-- The tab has begun to load, and restore's refresh is not what is running if the call is
not a refresh. -/
theorem Wired.begun {t : State} (wired : Wired t) {i : ℕ} {c : Call}
    (found : t.calls[i]? = some c) : t.startup ≠ .loading := by
  intro loading
  rw [(wired.loading loading).1] at found
  cases found

/-- They do when a request ends. -/
theorem Wired.finish {t : State} (wired : Wired t) {i : ℕ} {c : Call}
    (found : t.calls[i]? = some c) (reply : Reply) : Wired (t.finish i c.purpose reply) := by
  apply (wired.over i).settle reply
  · intro other k r run active
    exact wired.restored found other k r run active
  · exact wired.begun found

/-- They do when a request is concluded. -/
theorem Wired.conclude {t : State} (wired : Wired t) {i : ℕ} {c : Call}
    (found : t.calls[i]? = some c) (reply : Reply) : Wired (t.conclude i c.purpose reply) := by
  unfold State.conclude
  split_ifs
  · exact wired.clear.finish found reply
  · exact wired.finish found reply

/-- A call keeps its index and its purpose. -/
theorem settle_keeps {t : State} {i : ℕ} {c : Call} (found : t.calls[i]? = some c)
    (purpose : Purpose) (reply : Reply) : (t.settle purpose reply).calls[i]? = some c := by
  cases purpose with
  | page _ => exact found
  | refresh _ _ => exact found
  | profile _ => exact found
  | signIn =>
      cases reply with
      | tokens tokens => exact getElem?_concat_of_some found
      | done => exact found
      | user _ => exact found
      | unauthorized => exact found
      | failed => exact found
  | logout _ => exact found

/-- A call keeps its purpose when another is concluded. -/
theorem conclude_keeps {t : State} {i : ℕ} {c : Call} (found : t.calls[i]? = some c) (j : ℕ)
    (purpose : Purpose) (reply : Reply) :
    ∃ d, (t.conclude j purpose reply).calls[i]? = some d ∧ d.purpose = c.purpose := by
  have both : ∀ u : State, u.calls = t.calls →
      ∃ d, (u.finish j purpose reply).calls[i]? = some d ∧ d.purpose = c.purpose := by
    intro u same
    obtain ⟨d, there, kept⟩ := getElem?_setStage_of_some (same ▸ found) j .over
    exact ⟨d, settle_keeps there purpose reply, kept⟩
  unfold State.conclude
  split_ifs
  · exact both t.clear rfl
  · exact both t rfl

/-- What waits for a refresh is a call with its purpose. -/
theorem mem_waitingOn {t : State} {k : ℕ} {p : ℕ × Purpose} (member : p ∈ t.waitingOn k) :
    ∃ c, t.calls[p.1]? = some c ∧ c.purpose = p.2 := by
  obtain ⟨i, -, chosen⟩ := List.mem_filterMap.mp member
  obtain ⟨c, found, chosen⟩ := Option.bind_eq_some_iff.mp chosen
  split_ifs at chosen
  cases chosen
  exact ⟨c, found, rfl⟩

/-- All the calls that wait on a run are given up, one after the other. -/
theorem Wired.concludeAll {reply : Reply} (waiting : List (ℕ × Purpose)) :
    ∀ {t : State}, Wired t → (∀ p ∈ waiting, ∃ c, t.calls[p.1]? = some c ∧ c.purpose = p.2) →
      Wired (waiting.foldl (fun t p => t.conclude p.1 p.2 reply) t) := by
  induction waiting with
  | nil =>
      intro t wired _
      exact wired
  | cons p rest ih =>
      intro t wired there
      rw [List.forall_mem_cons] at there
      obtain ⟨⟨c, found, purpose⟩, others⟩ := there
      have first : Wired (t.conclude p.1 p.2 reply) := purpose ▸ wired.conclude found reply
      apply ih first
      intro q member
      obtain ⟨d, before, same⟩ := others q member
      obtain ⟨d', now, kept⟩ := conclude_keeps before p.1 p.2 reply
      exact ⟨d', now, kept.trans same⟩

section Refresh

variable {t : State} {k : ℕ} {r : Run} (wired : Wired t) (run : t.runs[k]? = some r)
  (active : r.progress.active = true) (answered : Answered t k)

include wired run active answered

/-- A refresh succeeds. -/
theorem Wired.resolve (tokens : TokenPair) : Wired (t.resolve k r.cause tokens) := by
  have session : Wired { t with session := t.session.renew tokens } := wired.congr rfl rfl rfl rfl
  obtain ⟨ended, idle⟩ :=
    session.ended (.renewed tokens) run active answered rfl
  cases cause : r.cause with
  | restore =>
      obtain ⟨-, free, restoring, -⟩ := wired.restore k r run active cause
      have renewed : Wired
          ({ t with session := t.session.renew tokens }.setProgress k (.renewed tokens)) :=
        ended.congr rfl rfl free rfl
      have begun : t.startup ≠ .loading := by
        rw [restoring]
        nofun
      exact renewed.send rfl (Idle.restored idle) begun
  | request i =>
      have now := getElem?_setProgress_self run (.renewed tokens)
      exact ended.resend idle (List.mem_of_getElem? now) rfl

/-- A refresh fails. -/
theorem Wired.reject (reply : Reply) : Wired (t.reject k r.cause reply) := by
  obtain ⟨ended, idle⟩ := wired.ended .refused run active answered rfl
  cases cause : r.cause with
  | restore =>
      obtain ⟨-, free, -, -⟩ := wired.restore k r run active cause
      exact (ended.ready idle.restored).congr rfl rfl free rfl
  | request i => exact ended.concludeAll _ fun p => mem_waitingOn

/-- The parts hang together when a refresh is answered. -/
theorem Wired.refreshAnswered {t' : State} {reply : Reply}
    (next : t.refreshAnswered k r reply = some t') : Wired t' := by
  unfold State.refreshAnswered at next
  split at next
  · split at next
    · cases next
      exact wired.resolve run active answered _
    · cases next
      exact wired.pause run active answered
    · cases next
      exact wired.reject run active answered _
  · split at next
    · cases next
      exact wired.resolve run active answered _
    · cases next
      exact wired.reject run active answered _
  · cases next

end Refresh

/-- A call answered 401 waits on the refresh in flight, or on one it begins. -/
theorem Wired.wait {t : State} (wired : Wired t) {i : ℕ} {c : Call}
    (found : t.calls[i]? = some c) (sent : c.stage = .sent)
    (unmarked : c.purpose.skipAuth = false) (other : c.purpose.isRefresh = false) :
    Wired ((t.refreshOnce i).1.setStage i (.waiting (t.refreshOnce i).2)) := by
  have once : c.sends.length = 1 := by
    rcases wired.sends c (List.mem_of_getElem? found) with once | ⟨stages, -⟩
    · exact once
    · rw [sent] at stages
      rcases stages with stage | stage <;> cases stage
  have waits : ∀ k, Stage.waiting k ≠ .sent := nofun
  unfold State.refreshOnce
  cases slot : t.inFlightRefresh with
  | some k =>
      have joined : Wired (t.setStage i (.waiting k)) := by
        apply wired.setStage (waits k)
        intro _ d there
        rw [← Option.some.inj (found.symm.trans there)]
        exact once
      exact joined
  | none =>
      have begins := wired.begin found unmarked (wired.restored found other) slot
      apply begins.setStage (waits t.runs.length)
      intro _ d there
      obtain rfl : c = d := Option.some.inj ((getElem?_concat_of_some found).symm.trans there)
      exact once

/-- They do when any call is answered. -/
theorem Wired.answerCall {t t' : State} (wired : Wired t) {i : ℕ} {c : Call}
    (found : t.calls[i]? = some c) {reply : Reply} (next : t.answered i c reply = some t') :
    Wired t' := by
  unfold State.answered at next
  split at next
  case h_1 sent =>
    split at next
    case h_1 k legacy purpose =>
      obtain ⟨r, run, next⟩ := Option.bind_eq_some_iff.mp next
      obtain ⟨r', run', asks⟩ := wired.call i c k legacy found purpose sent
      obtain rfl : r = r' := Option.some.inj (run.symm.trans run')
      exact (wired.over i).refreshAnswered run (active_of_asking asks) (wired.answered run asks)
        next
    case h_2 other =>
      have notRefresh : c.purpose.isRefresh = false := by
        cases purpose : c.purpose with
        | refresh k legacy => exact absurd purpose (other k legacy)
        | _ => rfl
      split_ifs at next with through some_
      · cases next
        exact wired.finish found reply
      · cases next
        rw [not_or, Bool.not_eq_true] at through
        exact wired.wait found sent through.1 notRefresh
      · cases next
        exact wired.conclude found reply
  case h_2 =>
    cases next
    exact wired.conclude found reply
  case h_3 => cases next

/-- A tab that is ready has been restored. -/
theorem Wired.restored_of_ready {t : State} (wired : Wired t) (ready : t.startup = .ready) :
    Restored t := by
  intro k r run active cause
  have restoring := (wired.restore k r run active cause).2.2.1
  rw [ready] at restoring
  cases restoring

/-- The page loads: restore's refresh is the first thing to run. -/
theorem Wired.beginRestore {t : State} (wired : Wired t) (loading : t.startup = .loading) :
    Wired { t.refreshSession .restore with startup := .restoring } := by
  obtain ⟨noCalls, noRuns, free⟩ := wired.loading loading
  have onlyCall : ∀ (i : ℕ) (c : Call), (t.refreshSession .restore).calls[i]? = some c →
      i = 0 ∧ c = ⟨.refresh 0 t.session.storage.legacyToken, [none], .sent⟩ := by
    intro i c found
    rcases getElem?_concat_eq_some found with old | ⟨last, new⟩
    · rw [noCalls] at old
      cases old
    · rw [noRuns] at new
      rw [noCalls] at last
      exact ⟨last, new⟩
  have onlyRun : ∀ (k : ℕ) (r : Run), (t.refreshSession .restore).runs[k]? = some r →
      k = 0 ∧ r = ⟨.restore, .asking 0⟩ := by
    intro k r found
    rcases getElem?_concat_eq_some found with old | ⟨last, new⟩
    · rw [noRuns] at old
      cases old
    · rw [noCalls] at new
      rw [noRuns] at last
      exact ⟨last, new⟩
  constructor
  case call =>
    intro i c k legacy found purpose sent
    obtain ⟨rfl, rfl⟩ := onlyCall i c found
    cases purpose
    refine ⟨⟨.restore, .asking 0⟩, ?_, .inl rfl⟩
    simp only [State.refreshSession, noRuns, noCalls]
    rfl
  case slot =>
    intro k r i found active cause
    obtain ⟨rfl, rfl⟩ := onlyRun k r found
    cases cause
  case restore =>
    intro k r found active cause
    refine ⟨(onlyRun k r found).1, free, rfl, ?_⟩
    intro c member
    obtain ⟨i, there⟩ := List.mem_iff_getElem?.mp member
    rw [(onlyCall i c there).2]
    rfl
  case loading =>
    intro none_
    cases none_
  case sends =>
    intro c member
    obtain ⟨i, there⟩ := List.mem_iff_getElem?.mp member
    rw [(onlyCall i c there).2]
    exact .inl rfl
  case unmarked =>
    intro r member i cause
    obtain ⟨k, there⟩ := List.mem_iff_getElem?.mp member
    rw [(onlyRun k r there).2] at cause
    cases cause

/-- They do whatever the tab does next: one case for each event. -/
theorem Wired.next {t t' : State} {label : Label} (wired : Wired t)
    (next : tab.next t label = some t') : Wired t' := by
  simp only [tab] at next
  cases label with
  | restore =>
      simp only [Tab.next, State.restore] at next
      split_ifs at next with loading some_
      · cases next
        exact wired.beginRestore loading
      · cases next
        have noRuns := (wired.loading loading).2.1
        have restored : Restored t := by
          intro k r run
          rw [noRuns] at run
          cases run
        exact (wired.ready restored).congr rfl rfl rfl rfl
  | request marked =>
      simp only [Tab.next] at next
      split_ifs at next with ready
      cases next
      exact wired.send rfl (wired.restored_of_ready ready) (by rw [ready]; nofun)
  | signIn =>
      simp only [Tab.next] at next
      split_ifs at next with ready
      cases next
      exact wired.send rfl (wired.restored_of_ready ready) (by rw [ready]; nofun)
  | logout =>
      simp only [Tab.next, State.logout] at next
      split_ifs at next with ready some_
      · cases next
        exact wired.send rfl (wired.restored_of_ready ready) (by rw [ready]; nofun)
      · cases next
        exact wired.clear
  | answer i reply =>
      simp only [Tab.next] at next
      obtain ⟨c, found, next⟩ := Option.bind_eq_some_iff.mp next
      split_ifs at next
      exact wired.answerCall found next
  | retry k =>
      simp only [Tab.next] at next
      obtain ⟨r, run, next⟩ := Option.bind_eq_some_iff.mp next
      split_ifs at next with pausing
      cases next
      exact wired.askAgain run pausing

/-- They do when the tab is opened. -/
theorem wired_opened (storage : TokenStorage) : Wired (opened storage) where
  call _ _ _ _ found := by cases found
  slot _ _ _ run := by cases run
  restore _ _ run := by cases run
  loading _ := ⟨rfl, rfl, rfl⟩
  sends _ member := by cases member
  unmarked _ member := by cases member

/-- In every interleaving of calls answered 401, the start-up's restore and the refreshes'
answers, at most one refresh call is in flight, a call is sent again at most once and only
after a refresh succeeded, and no marked call begins a refresh. -/
theorem single_flight {t : State} (reached : tab.Reach Machine.always t) : SingleFlight t := by
  have wired : Wired t := by
    apply reached.invariant
    · rintro u ⟨storage, rfl⟩
      exact wired_opened storage
    · intro u u' label wired _ next
      exact wired.next next
  exact wired.singleFlight

/-- Two calls of a restored tab are answered 401. -/
def twoRefused : List Label :=
  [.restore, .answer 0 (.tokens ⟨"a1"⟩), .answer 1 (.user ⟨"ana"⟩), .request false,
    .request false, .answer 2 .unauthorized, .answer 3 .unauthorized]

/-- They share one refresh, and both are sent again when it succeeds. -/
def bothResent : State :=
  tab.after Machine.always (opened ⟨true, none⟩) (twoRefused ++ [.answer 4 (.tokens ⟨"a2"⟩)])

/-- Two requests answered with 401 share one refresh, and each is sent again once. -/
theorem single_flight_shared :
    bothResent.runs.length = 2 ∧
      (bothResent.calls.filter fun c => c.sends.length = 2).map Call.sends =
        [[some "a1", some "a2"], [some "a1", some "a2"]] ∧ SingleFlight bothResent := by
  have reached : tab.Reach Machine.always bothResent :=
    Machine.reach_after ⟨_, rfl⟩ (by decide)
  exact ⟨by decide, by decide, single_flight reached⟩

end ScoutPulse.Tab
