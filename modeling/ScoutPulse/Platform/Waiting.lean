import ScoutPulse.Platform.RateLimit
import Mathlib.Algebra.Order.Floor.Ring
import Mathlib.Data.Rat.Floor

/-!
# What a refusal promises

`Blocked` refuses a key exactly when `allow` would, without spending anything, and a
refused caller who waits the whole seconds of `Retry-After` is let in, whatever else is
asked of the limiter meanwhile.
-/

namespace ScoutPulse.Server

/-- What can be asked of a limiter. -/
inductive Ask
  | allow (key : String)
  | record (key : String)
  | blocked (key : String)
  deriving DecidableEq

/-- Something asked, and when. -/
structure Asked where
  ask : Ask
  now : Time
  deriving DecidableEq

/-- The key whose tokens are spent. -/
def Ask.spends : Ask → Option String
  | .allow key => some key
  | .record key => some key
  | .blocked _ => none

namespace RateLimit

/-- The limiter after something was asked of it. -/
def asked (rl : RateLimit) (a : Asked) : RateLimit :=
  match a.ask with
  | .allow key => (rl.allow key a.now).2
  | .record key => rl.record key a.now
  | .blocked _ => rl

/-- The limiter after a history. -/
def after (rl : RateLimit) : List Asked → RateLimit
  | [] => rl
  | a :: history => (rl.asked a).after history

end RateLimit

/-- Times that never go back, the first no earlier than `now` and none later than `last`. -/
def Between (now last : Time) : List Asked → Prop
  | [] => now ≤ last
  | a :: history => now ≤ a.now ∧ Between a.now last history

/-- `int(retryAfter.Seconds())`, of a wait truncated to nanoseconds. -/
def wholeSeconds (wait : ℚ) : ℤ := ⌊(⌊wait * 10 ^ 9⌋ : ℚ) / 10 ^ 9⌋

section Waits

variable {rl : RateLimit} {rate : ℚ} {burst : ℕ} {key k : String} {now later : Time}
  {history : List Asked}

/-- Truncation to nanoseconds leaves the whole seconds. -/
theorem wholeSeconds_eq (wait : ℚ) : wholeSeconds wait = ⌊wait⌋ := by
  have scale : (0 : ℚ) < 10 ^ 9 := by norm_num
  refine Int.floor_eq_iff.mpr ⟨?_, ?_⟩
  · rw [le_div_iff₀ scale]
    have whole : ((⌊wait⌋ * 10 ^ 9 : ℤ) : ℚ) ≤ wait * 10 ^ 9 := by
      push_cast
      exact mul_le_mul_of_nonneg_right (Int.floor_le wait) scale.le
    exact_mod_cast Int.le_floor.mpr whole
  · rw [div_lt_iff₀ scale]
    calc (⌊wait * 10 ^ 9⌋ : ℚ) ≤ wait * 10 ^ 9 := Int.floor_le _
      _ < (⌊wait⌋ + 1) * 10 ^ 9 := mul_lt_mul_of_pos_right (Int.lt_floor_add_one wait) scale

theorem Between.le (between : Between now later history) : now ≤ later := by
  induction history generalizing now with
  | nil => exact between
  | cons a history ih => exact between.1.trans (ih between.2)

/-- One more call leaves every bucket seen and without debt. -/
theorem RateLimit.Kept.asked (kept : rl.Kept rate burst now) (positive : 0 ≤ rate) (a : Asked)
    (after : now ≤ a.now) : (rl.asked a).Kept rate burst a.now := by
  unfold RateLimit.asked
  cases a.ask with
  | allow key => exact (kept.mono after).allow key positive
  | record key => exact (kept.mono after).allow key positive
  | blocked key => exact kept.mono after

theorem RateLimit.Kept.after (kept : rl.Kept rate burst now) (positive : 0 ≤ rate)
    (between : Between now later history) : (rl.after history).Kept rate burst later := by
  induction history generalizing rl now with
  | nil => exact kept.mono between
  | cons a history ih => exact ih (kept.asked positive a between.1) between.2

/-- Asking leaves the bucket of a key nothing is spent of, unless it drops it. -/
theorem RateLimit.asked_bucket (a : Asked) (other : a.ask.spends ≠ some key) :
    (rl.asked a).buckets key = rl.buckets key ∨ (rl.asked a).buckets key = none := by
  have kept : ∀ k, k ≠ key → (rl.allow k a.now).2.buckets key = rl.buckets key ∨
      (rl.allow k a.now).2.buckets key = none := by
    intro k differ
    rcases (rl.allow_spec k a.now).2.2.2 key (Ne.symm differ) with same | ⟨dropped, -⟩
    · exact .inl same
    · exact .inr dropped
  cases said : a.ask with
  | allow k =>
      rw [RateLimit.asked, said]
      exact kept k fun same => other (by rw [said, same]; rfl)
  | record k =>
      rw [RateLimit.asked, said]
      exact kept k fun same => other (by rw [said, same]; rfl)
  | blocked k =>
      rw [RateLimit.asked, said]
      exact .inl rfl

/-- A bucket nobody spends from is as it was, or has been swept. -/
theorem RateLimit.after_bucket (others : ∀ a ∈ history, a.ask.spends ≠ some key) :
    (rl.after history).buckets key = rl.buckets key ∨
      (rl.after history).buckets key = none := by
  induction history generalizing rl with
  | nil => exact .inl rfl
  | cons a history ih =>
      rw [List.forall_mem_cons] at others
      have later : ((rl.asked a).after history).buckets key = (rl.asked a).buckets key ∨
          ((rl.asked a).after history).buckets key = none := ih others.2
      rcases later with same | dropped
      · rw [RateLimit.after, same]
        exact RateLimit.asked_bucket a others.1
      · exact .inr dropped

/-- A bucket that fills up to a token by some time lets a call in from then on. -/
theorem RateLimit.admits_of_bucket (seen : Time) (tokens : ℚ) (kept : rl.Kept rate burst later)
    (some_ : 1 ≤ burst)
    (bucket : rl.buckets key = some ⟨tokens, some seen⟩ ∨ rl.buckets key = none)
    (enough : 1 ≤ tokens + (later - seen) * rate) : (rl.allow key later).1.1 = true := by
  have whole : (1 : ℚ) ≤ burst := by exact_mod_cast some_
  rw [RateLimit.allow_admits, RateLimit.level]
  rcases bucket with found | dropped
  · rw [found]
    change 1 ≤ Bucket.refill _ _ _ _
    rw [Bucket.refill_of_seen rfl, kept.rate, kept.burst]
    exact le_min whole enough
  · rw [dropped, kept.burst]
    exact whole

/-- After the whole seconds of a wait, what was missing has flowed in. -/
theorem enough_of_wholeSeconds {tokens : ℚ} (positive : 0 < rate)
    (waited : (wholeSeconds ((1 - tokens) / rate + 1) : ℚ) ≤ later - now) :
    1 ≤ tokens + (later - now) * rate := by
  rw [wholeSeconds_eq, Int.floor_add_one] at waited
  push_cast at waited
  have beyond : (1 - tokens) / rate < later - now :=
    (Int.lt_floor_add_one _).trans_le waited
  rw [div_lt_iff₀ positive] at beyond
  linarith

/-- A limiter that answers as its callers rely on. -/
structure RateLimit.Promises (rl : RateLimit) (now : Time) : Prop where
  /-- `Blocked` refuses when `allow` would. -/
  agrees : ∀ key, (rl.blocked key now).1 = true ↔ (rl.allow key now).1.1 = false
  /-- Asking `Blocked` changes nothing that is answered later. -/
  asks : ∀ key history, rl.after (⟨.blocked key, now⟩ :: history) = rl.after history
  /-- After a refusal by `allow`, the whole seconds of the wait are enough. -/
  waits : ∀ key, (rl.allow key now).1.1 = false → ∀ history later,
    Between now later history → (∀ a ∈ history, a.ask.spends ≠ some key) →
    (wholeSeconds (rl.allow key now).1.2 : ℚ) ≤ later - now →
    (((rl.allow key now).2.after history).allow key later).1.1 = true
  /-- And so they are after one by `Blocked`. -/
  blockedWaits : ∀ key, (rl.blocked key now).1 = true → ∀ history later,
    Between now later history → (∀ a ∈ history, a.ask.spends ≠ some key) →
    (wholeSeconds (rl.blocked key now).2 : ℚ) ≤ later - now →
    ((rl.after history).allow key later).1.1 = true

/-- A refusal says how long it takes until there is one token. -/
theorem RateLimit.allow_refused (refused : (rl.allow key now).1.1 = false) :
    (rl.allow key now).1.2 = (1 - rl.level key now) / rl.rate + 1 := by
  have short : rl.level key now < 1 := by
    rw [← not_le, ← RateLimit.allow_admits, refused]
    exact Bool.false_ne_true
  rw [RateLimit.level_eq] at short ⊢
  unfold RateLimit.allow
  dsimp only
  rw [if_pos short]
  simp [RateLimit.retryAfter, RateLimit.put]

/-- What a limiter promises it keeps: before the wait every attempt is refused, and after it
the first is admitted. -/
theorem RateLimit.Kept.promises (kept : rl.Kept rate burst now) (positive : 0 < rate)
    (some_ : 1 ≤ burst) : rl.Promises now where
  agrees key := by
    rw [RateLimit.blocked_iff kept some_, ← Bool.not_eq_true, RateLimit.allow_admits, not_le]
  asks key history := rfl
  waits := by
    intro key refused history later between others waited
    obtain ⟨-, -, own, -⟩ := rl.allow_spec key now
    rw [refused] at own
    have later_kept := (kept.allow key positive.le).after positive.le between
    refine RateLimit.admits_of_bucket now (rl.level key now) later_kept some_ ?_ ?_
    · rw [← show (rl.allow key now).2.buckets key = some ⟨rl.level key now, some now⟩ by
        simpa using own]
      exact RateLimit.after_bucket others
    · rw [RateLimit.allow_refused refused, kept.rate] at waited
      exact enough_of_wholeSeconds positive waited
  blockedWaits := by
    intro key refused history later between others waited
    have later_kept := kept.after positive.le between
    unfold RateLimit.blocked at refused waited
    cases found : rl.buckets key with
    | none =>
        rw [found] at refused
        cases refused
    | some b =>
        obtain ⟨-, seen, at_, before⟩ := kept.bucket key b found
        rw [found] at refused waited
        dsimp only at refused waited
        split_ifs at refused waited with full
        have same : b = ⟨b.tokens, some seen⟩ := by
          cases b
          cases at_
          rfl
        refine RateLimit.admits_of_bucket seen b.tokens later_kept some_
          (same ▸ found ▸ RateLimit.after_bucket others) ?_
        have flowed := enough_of_wholeSeconds positive
          (show _ ≤ _ by simpa only [RateLimit.retryAfter, kept.rate] using waited)
        simp only [Bucket.elapsed, at_] at flowed
        linarith

/-- At every time of every history, `Blocked` agrees with `allow` and the advertised wait
is enough. -/
theorem promises_of_history {made : Time} (positive : 0 < rate) (some_ : 1 ≤ burst)
    (between : Between made now history) :
    ((newRateLimit rate burst made).after history).Promises now :=
  ((kept_newRateLimit rate burst made).after positive.le between).promises positive some_

end Waits

/-- A caller who spent the login budget. -/
theorem promises_login : ((newRateLimit loginRatePerSecond loginBurst 0).after
    (List.replicate 6 ⟨.allow "a", 1⟩)).Promises 2 :=
  promises_of_history (by norm_num [loginRatePerSecond]) (by decide)
    (by norm_num [Between, List.replicate])

end ScoutPulse.Server
