import ScoutPulse.Lib.Ledger
import ScoutPulse.Lib.Rows
import Mathlib.Algebra.Order.Ring.Rat
import Mathlib.Tactic.NormNum

/-!
# The rate limiter

A token bucket for each key, in exact arithmetic: numbers of tokens and times are
rational, in seconds. A call of any key may sweep the buckets nobody has touched for a
while; a key whose bucket was swept starts again with a full one.
-/

namespace ScoutPulse.Server

/-- A point in time, in seconds. -/
abbrev Time := ℚ

/-- `bucket`. A bucket just made has the zero time, which is `none`. -/
structure Bucket where
  tokens : ℚ
  lastSeen : Option Time
  deriving DecidableEq

/-- `RateLimit`. -/
structure RateLimit where
  rate : ℚ
  burst : ℕ
  buckets : String → Option Bucket
  lastSwept : Time

/-- `NewRateLimit`. -/
def newRateLimit (rate : ℚ) (burst : ℕ) (now : Time) : RateLimit where
  rate := rate
  burst := burst
  buckets := fun _ => none
  lastSwept := now

/-- `idleBucketTTL`. -/
def idleBucketTTL : ℚ := 10 * 60

/-- `now.Sub(b.lastSeen)`; the distance from the zero time is the longest duration. -/
def Bucket.elapsed (b : Bucket) (now : Time) : ℚ :=
  match b.lastSeen with
  | none => 9223372036854775807 / 1000000000
  | some seen => now - seen

/-- The tokens a bucket is refilled to for the elapsed time, up to the burst. -/
def Bucket.refill (b : Bucket) (rate : ℚ) (burst : ℕ) (now : Time) : ℚ :=
  let tokens := if b.lastSeen = none then (burst : ℚ) else b.tokens + b.elapsed now * rate
  if burst < tokens then burst else tokens

/-- Whether nobody has touched a bucket for `idleBucketTTL`. -/
def Bucket.idle (b : Bucket) (now : Time) : Bool := idleBucketTTL < b.elapsed now

namespace RateLimit

/-- `sweepLocked`. -/
def sweepLocked (rl : RateLimit) (now : Time) : RateLimit :=
  if now - rl.lastSwept < 60 then rl
  else { rl with
    lastSwept := now
    buckets := fun k => (rl.buckets k).filter fun b => !b.idle now }

/-- The tokens a call of a key finds. -/
def level (rl : RateLimit) (key : String) (now : Time) : ℚ :=
  match rl.buckets key with
  | none => rl.burst
  | some b => b.refill rl.rate rl.burst now

/-- The wait until one whole token is there, and a second. -/
def retryAfter (rl : RateLimit) (tokens : ℚ) : ℚ := (1 - tokens) / rl.rate + 1

/-- A key's bucket, seen now, holds these tokens. -/
def put (rl : RateLimit) (key : String) (now : Time) (tokens : ℚ) : RateLimit :=
  { rl with buckets := Function.update rl.buckets key (some ⟨tokens, some now⟩) }

@[simp] theorem put_self (rl : RateLimit) (key : String) (now : Time) (tokens : ℚ) :
    (rl.put key now tokens).buckets key = some ⟨tokens, some now⟩ :=
  Function.update_self ..

@[simp] theorem put_of_ne (rl : RateLimit) {key k : String} (other : k ≠ key) (now : Time)
    (tokens : ℚ) : (rl.put key now tokens).buckets k = rl.buckets k :=
  Function.update_of_ne other ..

/-- `allow`: whether the call may proceed, how long to wait if not, and the limiter. -/
def allow (rl : RateLimit) (key : String) (now : Time) : (Bool × ℚ) × RateLimit :=
  let b := (rl.buckets key).getD ⟨rl.burst, none⟩
  let tokens := b.refill rl.rate rl.burst now
  let rl := (rl.put key now tokens).sweepLocked now
  if tokens < 1 then ((false, rl.retryAfter tokens), rl)
  else ((true, 0), rl.put key now (tokens - 1))

/-- `Blocked`: whether a key has no token left, without spending one. -/
def blocked (rl : RateLimit) (key : String) (now : Time) : Bool × ℚ :=
  match rl.buckets key with
  | none => (false, 0)
  | some b =>
      let tokens := b.tokens + b.elapsed now * rl.rate
      if 1 ≤ tokens then (false, 0) else (true, rl.retryAfter tokens)

/-- `Record`: spend one token of a key. -/
def record (rl : RateLimit) (key : String) (now : Time) : RateLimit := (rl.allow key now).2

/-- `Record` with exact accounting: it sweeps nothing. -/
def spend (rl : RateLimit) (key : String) (now : Time) : RateLimit :=
  rl.put key now (if rl.level key now < 1 then rl.level key now else rl.level key now - 1)

end RateLimit

/-- A call of `allow`. -/
structure Call where
  key : String
  now : Time
  deriving DecidableEq

/-- How many of the calls for a key are admitted between two times. -/
def admitted (rl : RateLimit) (key : String) (start finish : Time) : List Call → ℕ
  | [] => 0
  | c :: rest =>
      (if c.key = key ∧ (rl.allow c.key c.now).1.1 = true ∧ start ≤ c.now ∧ c.now ≤ finish
        then 1 else 0) + admitted (rl.allow c.key c.now).2 key start finish rest

/-- Calls at times that never go back, the first no earlier than `now`. -/
def Timely (now : Time) : List Call → Prop
  | [] => True
  | c :: rest => now ≤ c.now ∧ Timely c.now rest

/-! ## The level of a key -/

/-- Every bucket has been seen, at the latest by now, and holds no debt. -/
structure RateLimit.Kept (rl : RateLimit) (rate : ℚ) (burst : ℕ) (now : Time) : Prop where
  rate : rl.rate = rate
  burst : rl.burst = burst
  bucket : ∀ k b, rl.buckets k = some b →
    0 ≤ b.tokens ∧ ∃ seen, b.lastSeen = some seen ∧ seen ≤ now

section Level

variable {rl : RateLimit} {rate : ℚ} {burst : ℕ} {key k : String} {now later : Time}
  {b : Bucket}

/-- A bucket is never filled above its burst. -/
theorem Bucket.refill_le : b.refill rate burst now ≤ burst := by
  unfold Bucket.refill
  dsimp only
  generalize (if b.lastSeen = none then (burst : ℚ) else _) = tokens
  split
  · exact le_refl _
  · exact not_lt.mp ‹_›

/-- A bucket that was seen is filled by the time since. -/
theorem Bucket.refill_of_seen {seen : Time} (at_ : b.lastSeen = some seen) :
    b.refill rate burst now = min (burst : ℚ) (b.tokens + (now - seen) * rate) := by
  unfold Bucket.refill Bucket.elapsed
  rw [at_]
  simp only [reduceCtorEq, if_false]
  split
  · rw [min_eq_left]
    linarith
  · rw [min_eq_right]
    linarith

/-- A bucket seen now holds its tokens. -/
theorem Bucket.refill_now (at_ : b.lastSeen = some now) (most : b.tokens ≤ burst) :
    b.refill rate burst now = b.tokens := by
  rw [refill_of_seen at_, sub_self, zero_mul, add_zero]
  exact min_eq_right most

/-- A bucket is filled no faster than its rate. -/
theorem Bucket.refill_grows (positive : 0 ≤ rate) (after : now ≤ later) :
    b.refill rate burst later ≤ b.refill rate burst now + rate * (later - now) := by
  have flow : 0 ≤ rate * (later - now) := mul_nonneg positive (sub_nonneg.mpr after)
  cases at_ : b.lastSeen with
  | none =>
      have full : ∀ t, b.refill rate burst t = burst := fun t => by
        simp [Bucket.refill, at_]
      rw [full, full]
      linarith
  | some seen =>
      rw [refill_of_seen at_, refill_of_seen at_]
      rcases min_cases (burst : ℚ) (b.tokens + (now - seen) * rate) with ⟨same, -⟩ | ⟨same, -⟩
      · rw [same]
        exact (min_le_left _ _).trans (by linarith)
      · rw [same]
        refine (min_le_right _ _).trans (le_of_eq ?_)
        ring

/-- An idle bucket is full when the burst flows in within the time it takes to be idle. -/
theorem Bucket.refill_of_idle {seen : Time} (at_ : b.lastSeen = some seen)
    (tokens : 0 ≤ b.tokens) (positive : 0 < rate) (fills : burst ≤ rate * idleBucketTTL)
    (idle : b.idle now = true) : b.refill rate burst now = burst := by
  have long : idleBucketTTL < now - seen := by
    simpa [Bucket.idle, Bucket.elapsed, at_] using idle
  rw [refill_of_seen at_]
  apply min_eq_left
  have more : rate * idleBucketTTL ≤ rate * (now - seen) :=
    mul_le_mul_of_nonneg_left long.le positive.le
  linarith

/-! ## What a call does to the levels -/

/-- The limiter's level is that of the key's bucket, a full one when there is none. -/
theorem RateLimit.level_eq :
    rl.level key now =
      ((rl.buckets key).getD ⟨rl.burst, none⟩).refill rl.rate rl.burst now := by
  unfold RateLimit.level
  cases rl.buckets key with
  | none => simp [Bucket.refill]
  | some b => rfl

theorem RateLimit.level_le : rl.level key now ≤ rl.burst := by
  rw [level_eq]
  exact Bucket.refill_le

theorem RateLimit.level_of_absent (absent : rl.buckets key = none) :
    rl.level key now = rl.burst := by
  simp [RateLimit.level, absent]

/-- A sweep leaves a bucket or drops an idle one. -/
theorem RateLimit.sweepLocked_bucket (rl : RateLimit) (now : Time) (k : String) :
    (rl.sweepLocked now).buckets k = rl.buckets k ∨
      ((rl.sweepLocked now).buckets k = none ∧
        ∃ b, rl.buckets k = some b ∧ b.idle now = true) := by
  unfold RateLimit.sweepLocked
  split
  · exact .inl rfl
  · dsimp only
    cases found : rl.buckets k with
    | none => exact .inl rfl
    | some b =>
        cases idle : b.idle now with
        | false => exact .inl (by simp [idle])
        | true => exact .inr ⟨by simp [idle], b, rfl, idle⟩

@[simp] theorem RateLimit.sweepLocked_rate : (rl.sweepLocked now).rate = rl.rate := by
  unfold RateLimit.sweepLocked
  split <;> rfl

@[simp] theorem RateLimit.sweepLocked_burst : (rl.sweepLocked now).burst = rl.burst := by
  unfold RateLimit.sweepLocked
  split <;> rfl

/-- A call is admitted when it finds a token. -/
theorem RateLimit.allow_admits :
    (rl.allow key now).1.1 = true ↔ 1 ≤ rl.level key now := by
  rw [level_eq]
  unfold RateLimit.allow
  dsimp only
  split
  · simpa using ‹_›
  · simpa using not_lt.mp ‹_›

/-- The limiter after a call: the key's bucket has been seen now, with its level less the
token spent; every other bucket is as the sweep leaves it. -/
theorem RateLimit.allow_spec (rl : RateLimit) (key : String) (now : Time) :
    let after := (rl.allow key now).2
    let spent : ℚ := if (rl.allow key now).1.1 = true then 1 else 0
    after.rate = rl.rate ∧ after.burst = rl.burst ∧
      after.buckets key = some ⟨rl.level key now - spent, some now⟩ ∧
      ∀ k, k ≠ key → after.buckets k = rl.buckets k ∨
        (after.buckets k = none ∧ ∃ b, rl.buckets k = some b ∧ b.idle now = true) := by
  dsimp only
  have others : ∀ (tokens : ℚ) k, k ≠ key →
      ((rl.put key now tokens).sweepLocked now).buckets k = rl.buckets k ∨
      (((rl.put key now tokens).sweepLocked now).buckets k = none ∧
        ∃ b, rl.buckets k = some b ∧ b.idle now = true) := by
    intro tokens k other
    rw [← rl.put_of_ne other now tokens]
    exact sweepLocked_bucket (rl.put key now tokens) now k
  by_cases admits : 1 ≤ rl.level key now
  · have ok := allow_admits.mpr admits
    have enough : ¬ ((rl.buckets key).getD ⟨rl.burst, none⟩).refill rl.rate rl.burst now < 1 := by
      rw [← level_eq]
      exact not_lt.mpr admits
    rw [ok]
    simp only [if_true]
    unfold RateLimit.allow
    simp only [enough, if_false]
    refine ⟨sweepLocked_rate, sweepLocked_burst, ?_, ?_⟩
    · rw [put_self, ← level_eq]
    · intro k other
      rw [put_of_ne _ other]
      exact others _ k other
  · have refused : (rl.allow key now).1.1 = false := by
      rw [Bool.eq_false_iff]
      exact fun ok => admits (allow_admits.mp ok)
    have short : ((rl.buckets key).getD ⟨rl.burst, none⟩).refill rl.rate rl.burst now < 1 := by
      rw [← level_eq]
      exact not_le.mp admits
    rw [refused]
    simp only [Bool.false_eq_true, if_false, sub_zero]
    unfold RateLimit.allow
    simp only [short, if_true]
    refine ⟨sweepLocked_rate, sweepLocked_burst, ?_, others _⟩
    -- the key's own bucket has just been seen, so the sweep leaves it
    obtain same | ⟨-, b, found, idle⟩ := sweepLocked_bucket (rl.put key now
      (((rl.buckets key).getD ⟨rl.burst, none⟩).refill rl.rate rl.burst now)) now key
    · rw [same, put_self, ← level_eq]
    · rw [put_self, Option.some.injEq] at found
      subst found
      have long : idleBucketTTL < now - now := by
        simpa [Bucket.idle, Bucket.elapsed] using idle
      norm_num [idleBucketTTL] at long

/-- What holds of the buckets now holds later. -/
theorem RateLimit.Kept.mono (kept : rl.Kept rate burst now) (after : now ≤ later) :
    rl.Kept rate burst later := by
  refine ⟨kept.rate, kept.burst, ?_⟩
  intro k b found
  obtain ⟨tokens, seen, at_, before⟩ := kept.bucket k b found
  exact ⟨tokens, seen, at_, before.trans after⟩

/-- No level is negative. -/
theorem RateLimit.Kept.level_nonneg (kept : rl.Kept rate burst now) (key : String)
    (positive : 0 ≤ rate) :
    0 ≤ rl.level key now := by
  unfold RateLimit.level
  cases found : rl.buckets key with
  | none => exact Nat.cast_nonneg _
  | some b =>
      obtain ⟨tokens, seen, at_, before⟩ := kept.bucket key b found
      dsimp only
      rw [Bucket.refill_of_seen at_, kept.rate]
      have flow : 0 ≤ (now - seen) * rate := mul_nonneg (sub_nonneg.mpr before) positive
      exact le_min (Nat.cast_nonneg _) (by linarith)

/-- A call leaves every bucket seen and without debt. -/
theorem RateLimit.Kept.allow (kept : rl.Kept rate burst now) (key : String)
    (positive : 0 ≤ rate) :
    (rl.allow key now).2.Kept rate burst now := by
  obtain ⟨sameRate, sameBurst, own, others⟩ := rl.allow_spec key now
  refine ⟨sameRate.trans kept.rate, sameBurst.trans kept.burst, ?_⟩
  intro k b found
  by_cases same : k = key
  · subst same
    rw [own, Option.some.injEq] at found
    subst found
    refine ⟨?_, now, rfl, le_refl _⟩
    split
    · have enough := RateLimit.allow_admits.mp ‹_›
      dsimp only
      linarith
    · simpa using kept.level_nonneg _ positive
  · obtain unchanged | ⟨dropped, -⟩ := others k same
    · exact kept.bucket k b (unchanged ▸ found)
    · rw [dropped] at found
      cases found

theorem RateLimit.Kept.level_grows (kept : rl.Kept rate burst now) (key : String)
    (positive : 0 ≤ rate) (after : now ≤ later) :
    rl.level key later ≤ rl.level key now + rate * (later - now) := by
  rw [RateLimit.level_eq, RateLimit.level_eq, kept.rate, kept.burst]
  exact Bucket.refill_grows positive after

/-- A level does not fall by waiting. -/
theorem RateLimit.Kept.level_mono (kept : rl.Kept rate burst now) (key : String)
    (positive : 0 ≤ rate) (after : now ≤ later) : rl.level key now ≤ rl.level key later := by
  unfold RateLimit.level
  cases found : rl.buckets key with
  | none => exact le_refl _
  | some b =>
      obtain ⟨-, seen, at_, -⟩ := kept.bucket key b found
      dsimp only
      rw [Bucket.refill_of_seen at_, Bucket.refill_of_seen at_, kept.rate]
      apply min_le_min_left
      have more : (now - seen) * rate ≤ (later - seen) * rate :=
        mul_le_mul_of_nonneg_right (by linarith) positive
      linarith

theorem RateLimit.Kept.level_le (kept : rl.Kept rate burst now) (key : String) :
    rl.level key now ≤ burst := by
  rw [← kept.burst]
  exact rl.level_le

/-- A call spends a token of its own key. -/
theorem RateLimit.level_own (rl : RateLimit) (key : String) (now : Time) :
    (rl.allow key now).2.level key now =
      rl.level key now - if (rl.allow key now).1.1 = true then 1 else 0 := by
  obtain ⟨sameRate, sameBurst, own, -⟩ := rl.allow_spec key now
  have most : rl.level key now - (if (rl.allow key now).1.1 = true then (1 : ℚ) else 0) ≤
      (rl.allow key now).2.burst := by
    rw [sameBurst]
    have most : rl.level key now ≤ rl.burst := rl.level_le
    split <;> linarith
  rw [RateLimit.level, own]
  exact Bucket.refill_now rfl most

/-- A call leaves the level of every other key alone when a bucket is full before it is
dropped. -/
theorem RateLimit.level_other (positive : 0 < rate) (fills : burst ≤ rate * idleBucketTTL)
    (kept : rl.Kept rate burst now) (other : k ≠ key) :
    (rl.allow key now).2.level k now = rl.level k now := by
  obtain ⟨sameRate, sameBurst, -, others⟩ := rl.allow_spec key now
  obtain unchanged | ⟨dropped, b, found, idle⟩ := others k other
  · rw [RateLimit.level, RateLimit.level, unchanged, sameRate, sameBurst]
  · obtain ⟨tokens, seen, at_, -⟩ := kept.bucket k b found
    have full := Bucket.refill_of_idle at_ tokens positive fills idle
    rw [level_of_absent dropped, RateLimit.level, found, sameBurst, kept.rate, kept.burst]
    exact full.symm

end Level

/-! ## The bound -/

/-- A call of the limiter, seen from a key's ledger. -/
theorem RateLimit.ledger_allow {rl : RateLimit} {rate : ℚ} {burst : ℕ} {key : String}
    {c : Call} {log : List ℚ} (positive : 0 < rate) (fills : burst ≤ rate * idleBucketTTL)
    (kept : rl.Kept rate burst c.now)
    (ledger : Ledger rate burst log c.now (rl.level key c.now)) :
    Ledger rate burst
      (if c.key = key ∧ (rl.allow c.key c.now).1.1 = true then c.now :: log else log)
      c.now ((rl.allow c.key c.now).2.level key c.now) := by
  have nonneg := (kept.allow c.key positive.le).level_nonneg key positive.le
  by_cases own : c.key = key
  · subst own
    have left := rl.level_own c.key c.now
    by_cases admits : (rl.allow c.key c.now).1.1 = true
    · rw [if_pos admits] at left
      rw [if_pos ⟨rfl, admits⟩]
      exact ledger.spend positive.le nonneg (by linarith)
    · rw [if_neg admits] at left
      rw [if_neg fun both => admits both.2]
      exact ledger.lower nonneg (by linarith)
  · simp only [own, false_and, if_false]
    rw [RateLimit.level_other positive fills kept (Ne.symm own)]
    exact ledger

/-- What was admitted so far and what the calls to come add. -/
theorem admitted_le {rate : ℚ} {burst : ℕ} {key : String} {start finish now : Time}
    {calls : List Call} {rl : RateLimit} {log : List ℚ} (positive : 0 < rate)
    (fills : burst ≤ rate * idleBucketTTL) (window : start ≤ finish)
    (kept : rl.Kept rate burst now) (timely : Timely now calls)
    (ledger : Ledger rate burst log now (rl.level key now)) :
    ((timesWithin start finish log + admitted rl key start finish calls : ℕ) : ℚ) ≤
      burst + rate * (finish - start) := by
  induction calls generalizing rl log now with
  | nil => exact ledger.closed start finish window
  | cons c rest ih =>
      obtain ⟨after, timely⟩ := timely
      have here := kept.mono after
      have waited : Ledger rate burst log c.now (rl.level key c.now) := by
        apply ledger.wait positive.le after (here.level_nonneg key positive.le)
        · rw [← kept.burst]
          exact rl.level_le
        · exact kept.level_grows key positive.le after
      have bound := ih (here.allow c.key positive.le) timely
        (RateLimit.ledger_allow positive fills here waited)
      refine le_trans (le_of_eq (congrArg Nat.cast ?_)) bound
      rw [admitted, ← Nat.add_assoc]
      congr 1
      by_cases spends : c.key = key ∧ (rl.allow c.key c.now).1.1 = true
      · rw [if_pos spends, timesWithin_cons]
        obtain ⟨rfl, admits⟩ := spends
        simp only [admits, true_and]
      · have skipped : ¬ (c.key = key ∧ (rl.allow c.key c.now).1.1 = true ∧
            start ≤ c.now ∧ c.now ≤ finish) := fun all => spends ⟨all.1, all.2.1⟩
        rw [if_neg spends, if_neg skipped, Nat.add_zero]

theorem kept_newRateLimit (rate : ℚ) (burst : ℕ) (now : Time) :
    (newRateLimit rate burst now).Kept rate burst now :=
  ⟨rfl, rfl, fun _ _ found => nomatch found⟩

/-- No key is admitted more often in any stretch of time than its burst and what flowed
in, whatever calls are made from the limiter's start on. -/
def Bounded (rate : ℚ) (burst : ℕ) : Prop :=
  ∀ (made : Time) (calls : List Call), Timely made calls →
    ∀ (key : String) (start finish : Time), start ≤ finish →
      (admitted (newRateLimit rate burst made) key start finish calls : ℚ) ≤
        burst + rate * (finish - start)

/-- The bound holds where a bucket fills up in the time after which it is swept. -/
theorem bounded_of_fills {rate : ℚ} {burst : ℕ} (positive : 0 < rate)
    (fills : burst ≤ rate * idleBucketTTL) : Bounded rate burst := by
  intro made calls timely key start finish window
  have ledger : Ledger rate burst [] made ((newRateLimit rate burst made).level key made) :=
    .nil positive.le (Nat.cast_nonneg _) (le_refl _)
  have bound := admitted_le positive fills window (kept_newRateLimit rate burst made) timely ledger
  simpa [timesWithin] using bound

/-! ## What a sweep gives back -/

section Sweep

variable {rl : RateLimit} {key k : String} {now : Time} {b : Bucket}

/-- A call that sweeps drops the idle buckets of other keys. -/
theorem RateLimit.allow_drops (due : 60 ≤ now - rl.lastSwept) (other : k ≠ key)
    (found : rl.buckets k = some b) (idle : b.idle now = true) :
    (rl.allow key now).2.buckets k = none := by
  have sweeps : ¬ now - rl.lastSwept < 60 := not_lt.mpr due
  have dropped : ∀ tokens, ((rl.put key now tokens).sweepLocked now).buckets k = none := by
    intro tokens
    unfold RateLimit.sweepLocked
    simp only [RateLimit.put, sweeps, if_false, Function.update_of_ne other, found]
    simp [idle]
  unfold RateLimit.allow
  dsimp only
  split
  · exact dropped _
  · rw [RateLimit.put_of_ne _ other]
    exact dropped _

/-- A call soon after a sweep does not sweep. -/
theorem RateLimit.allow_lastSwept (rl : RateLimit) (key : String)
    (recent : now - rl.lastSwept < 60) :
    (rl.allow key now).2.lastSwept = rl.lastSwept := by
  unfold RateLimit.allow RateLimit.sweepLocked
  simp only [RateLimit.put, recent, if_true]
  split <;> rfl

/-- The limiter after a number of calls of a key at one time. -/
def RateLimit.afterCalls (rl : RateLimit) (key : String) (now : Time) : ℕ → RateLimit
  | 0 => rl
  | n + 1 => (rl.allow key now).2.afterCalls key now n

/-- As many calls at one time are admitted as there are tokens. -/
theorem admitted_burst {start finish : Time} (inside : start ≤ now ∧ now ≤ finish)
    (rest : List Call) (n : ℕ) (enough : (n : ℚ) ≤ rl.level key now) :
    admitted rl key start finish (List.replicate n ⟨key, now⟩ ++ rest) =
      n + admitted (rl.afterCalls key now n) key start finish rest := by
  induction n generalizing rl with
  | zero => simp [RateLimit.afterCalls]
  | succ n ih =>
      have one : 1 ≤ rl.level key now := by
        refine le_trans ?_ enough
        exact_mod_cast Nat.succ_le_succ (Nat.zero_le n)
      have ok := RateLimit.allow_admits.mpr one
      have left : (n : ℚ) ≤ (rl.allow key now).2.level key now := by
        rw [RateLimit.level_own, ok]
        push_cast at enough
        simp only [if_true]
        linarith
      rw [List.replicate_succ, List.cons_append, admitted]
      simp only [ok, inside.1, inside.2, and_self, if_true]
      rw [ih left, RateLimit.afterCalls]
      omega

/-- After some calls of a key its bucket has been seen, and no sweep has been made. -/
theorem RateLimit.afterCalls_spec (rl : RateLimit) (key : String)
    (recent : now - rl.lastSwept < 60) (n : ℕ) :
    (rl.afterCalls key now n).lastSwept = rl.lastSwept ∧
      (rl.afterCalls key now n).burst = rl.burst ∧
      (0 < n → ∃ tokens,
        (rl.afterCalls key now n).buckets key = some ⟨tokens, some now⟩) := by
  induction n generalizing rl with
  | zero => exact ⟨rfl, rfl, fun positive => absurd positive (Nat.lt_irrefl 0)⟩
  | succ n ih =>
      have same := rl.allow_lastSwept key recent
      obtain ⟨-, sameBurst, own, -⟩ := rl.allow_spec key now
      have again : now - (rl.allow key now).2.lastSwept < 60 := by rwa [same]
      obtain ⟨swept, burst, seen⟩ := ih (rl.allow key now).2 again
      refine ⟨swept.trans same, burst.trans sameBurst, fun _ => ?_⟩
      cases n with
      | zero => exact ⟨_, own⟩
      | succ n => exact seen (Nat.succ_pos n)

end Sweep

theorem timely_burst {key : String} {now : Time} {rest : List Call} (n : ℕ)
    (timely : Timely now rest) : Timely now (List.replicate n ⟨key, now⟩ ++ rest) := by
  induction n with
  | zero => exact timely
  | succ n ih => exact ⟨le_refl _, ih⟩

/-- A key that has spent its burst and is swept before it is full gets a second burst. -/
def secondBurst (burst : ℕ) (late : Time) : List Call :=
  List.replicate burst ⟨"a", 0⟩ ++ (⟨"b", late⟩ :: List.replicate burst ⟨"a", late⟩)

/-- A bucket that is swept before it is full gives its key a second burst. -/
theorem admitted_secondBurst {rate : ℚ} {burst : ℕ} (some_ : 1 ≤ burst) {late : Time}
    (idle : idleBucketTTL < late) :
    admitted (newRateLimit rate burst 0) "a" 0 late (secondBurst burst late) =
      burst + burst := by
  have after : (0 : ℚ) ≤ late := by
    norm_num [idleBucketTTL] at idle
    linarith
  have full : (burst : ℚ) ≤ (newRateLimit rate burst 0).level "a" 0 := le_refl _
  obtain ⟨swept, sameBurst, seen⟩ :=
    (newRateLimit rate burst 0).afterCalls_spec "a"
      (show (0 : Time) - (newRateLimit rate burst 0).lastSwept < 60 by
        norm_num [newRateLimit]) burst
  obtain ⟨tokens, found⟩ := seen some_
  rw [secondBurst, admitted_burst ⟨le_refl _, after⟩ _ burst full, admitted]
  set rl := (newRateLimit rate burst 0).afterCalls "a" 0 burst
  have dropped : (rl.allow "b" late).2.buckets "a" = none := by
    refine RateLimit.allow_drops ?_ (by decide) found ?_
    · rw [swept]
      norm_num [newRateLimit, idleBucketTTL] at idle ⊢
      linarith
    · simpa [Bucket.idle, Bucket.elapsed] using idle
  have again : (burst : ℚ) ≤ (rl.allow "b" late).2.level "a" late := by
    rw [RateLimit.level_of_absent dropped, (rl.allow_spec "b" late).2.1, sameBurst]
    exact le_refl _
  have second := admitted_burst ⟨after, le_refl late⟩ [] burst again
  rw [List.append_nil] at second
  rw [second]
  simp [admitted]

/-- **The token-bucket bound** holds of a limiter exactly when a whole burst flows in
within the time after which an idle bucket may be dropped. -/
theorem allow_bounded_iff (rate : ℚ) (burst : ℕ) (positive : 0 < rate) (some_ : 1 ≤ burst) :
    Bounded rate burst ↔ burst ≤ rate * idleBucketTTL := by
  constructor
  · intro bounded
    by_contra short
    rw [not_le] at short
    have room : idleBucketTTL < burst / rate := by
      rw [lt_div_iff₀ positive, mul_comm]
      exact short
    obtain ⟨late, idle, early⟩ := exists_between room
    have flow : rate * late < burst := by
      rw [lt_div_iff₀ positive, mul_comm] at early
      exact early
    have after : (0 : ℚ) ≤ late := by
      norm_num [idleBucketTTL] at idle
      linarith
    have timely : Timely 0 (secondBurst burst late) := by
      refine timely_burst burst ⟨after, ?_⟩
      rw [← List.append_nil (List.replicate _ _)]
      exact timely_burst burst trivial
    have most := bounded 0 (secondBurst burst late) timely "a" 0 late after
    rw [admitted_secondBurst some_ idle] at most
    push_cast at most
    linarith
  · exact bounded_of_fills positive

/-! ## Exact accounting -/

section Exact

variable {rl : RateLimit} {rate : ℚ} {burst : ℕ} {key k : String} {now : Time}

/-- A record in which no sweep falls is exact. -/
theorem RateLimit.record_eq_spend (recent : now - rl.lastSwept < 60) :
    rl.record key now = rl.spend key now := by
  unfold RateLimit.record RateLimit.allow RateLimit.spend RateLimit.sweepLocked
  rw [level_eq]
  dsimp only
  simp only [RateLimit.put, recent, if_true]
  split <;> simp

/-- A key is not blocked when a whole token is there. -/
theorem RateLimit.blocked_iff (kept : rl.Kept rate burst now) (some_ : 1 ≤ burst) :
    (rl.blocked key now).1 = true ↔ rl.level key now < 1 := by
  have whole : (1 : ℚ) ≤ burst := by exact_mod_cast some_
  unfold RateLimit.blocked RateLimit.level
  cases found : rl.buckets key with
  | none =>
      simp only [Bool.false_eq_true, false_iff, not_lt]
      rwa [kept.burst]
  | some b =>
      obtain ⟨-, seen, at_, -⟩ := kept.bucket key b found
      have waited : b.elapsed now = now - seen := by
        simp only [Bucket.elapsed, at_]
      dsimp only
      rw [waited, Bucket.refill_of_seen at_, kept.burst, min_lt_iff]
      by_cases enough : 1 ≤ b.tokens + (now - seen) * rl.rate
      · rw [if_pos enough]
        simp only [Bool.false_eq_true, false_iff, not_or, not_lt]
        exact ⟨whole, enough⟩
      · rw [if_neg enough]
        simp only [true_iff]
        exact Or.inr (not_le.mp enough)

theorem RateLimit.spend_level_of_ne (other : k ≠ key) :
    (rl.spend key now).level k now = rl.level k now := by
  unfold RateLimit.spend RateLimit.level
  rw [RateLimit.put_of_ne _ other]
  rfl

/-- Spending leaves every bucket seen and without debt. -/
theorem RateLimit.Kept.spend (kept : rl.Kept rate burst now) (key : String)
    (positive : 0 ≤ rate) : (rl.spend key now).Kept rate burst now := by
  refine ⟨kept.rate, kept.burst, ?_⟩
  intro k b found
  by_cases same : k = key
  · subst same
    rw [RateLimit.spend, RateLimit.put_self, Option.some.injEq] at found
    subst found
    refine ⟨?_, now, rfl, le_refl _⟩
    dsimp only
    split
    · exact kept.level_nonneg k positive
    · linarith
  · rw [RateLimit.spend, RateLimit.put_of_ne _ same] at found
    exact kept.bucket k b found

/-- A key with a token spends one. -/
theorem RateLimit.spend_level (enough : 1 ≤ rl.level key now) :
    (rl.spend key now).level key now = rl.level key now - 1 := by
  have most : rl.level key now ≤ rl.burst := rl.level_le
  have spends : ¬ rl.level key now < 1 := not_lt.mpr enough
  have found : (rl.spend key now).buckets key = some ⟨rl.level key now - 1, some now⟩ := by
    rw [RateLimit.spend, RateLimit.put_self, if_neg spends]
  rw [RateLimit.level, found]
  apply Bucket.refill_now rfl
  change rl.level key now - 1 ≤ (rl.burst : ℚ)
  linarith

end Exact

/-! ## The limiters of the identity service -/

def loginRatePerSecond : ℚ := 1 / 5
def loginBurst : ℕ := 5
def accountFailureRatePerSecond : ℚ := 1 / 180
def accountFailureBurst : ℕ := 10

/-- Ten minutes are more than the login limiter's burst needs. -/
theorem allow_bounded_iff_login : Bounded loginRatePerSecond loginBurst :=
  (allow_bounded_iff loginRatePerSecond loginBurst (by norm_num [loginRatePerSecond])
    (by norm_num [loginBurst])).mpr
    (by norm_num [loginRatePerSecond, loginBurst, idleBucketTTL])

/-- Ten calls, another key's call ten minutes and a second later, and ten more. -/
theorem allow_unbounded :
    Timely 0 (secondBurst accountFailureBurst 601) ∧
      admitted (newRateLimit accountFailureRatePerSecond accountFailureBurst 0) "a" 0 601
        (secondBurst accountFailureBurst 601) = 20 ∧
      (accountFailureBurst : ℚ) + accountFailureRatePerSecond * (601 - 0) < 20 := by
  refine ⟨?_, ?_, ?_⟩
  · exact timely_burst accountFailureBurst ⟨by norm_num, timely_burst accountFailureBurst trivial⟩
  · exact admitted_secondBurst (by decide) (by norm_num [idleBucketTTL])
  · norm_num [accountFailureBurst, accountFailureRatePerSecond]

end ScoutPulse.Server
