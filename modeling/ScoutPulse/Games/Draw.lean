import ScoutPulse.Lib.Draws
import ScoutPulse.Games.PairPool

/-!
# Drawing a pair

A pair is drawn from the pool of known answers, or at random: an enabled club against a
nation or another enabled club. A recent pair is drawn again, a bounded number of times.
-/

namespace ScoutPulse.PlayedForBoth

open Draws

/-- `MAX_TRIES`. -/
def maxTries : ℕ := 50

/-- `NATION_CHANCE`. -/
def nationChance : ℚ := 0.35

/-- `DrawOptions`. -/
structure DrawOptions where
  clubs : List ℕ
  pool : List ℕ
  knownOnly : Bool
  allowNations : Bool
  recent : List ℕ

structure Draw where
  key : ℕ
  left : ℕ
  right : ℕ
  deriving DecidableEq

/-- A club against a random nation. -/
def againstNation (ix : GameIndex) (a : ℕ) : Random ℕ := do
  let r ← next
  return pairKey a (nationEntity ix (place ix.nations.length r))

/-- A club against a different enabled club. -/
def againstClub (opts : DrawOptions) (a : ℕ) : Random ℕ := do
  let b ← firstOf (fun r => opts.clubs.getD (place opts.clubs.length r) default) (· ≠ a)
  return pairKey a b

/-- `randomKey` after the first club and the choice between a nation and another club. -/
def keyAgainst (ix : GameIndex) (opts : DrawOptions) (a : ℕ) (nation : Bool) : Random ℕ :=
  if nation then againstNation ix a
  -- A single enabled club cannot face another club.
  else if opts.clubs.length < 2 then againstNation ix a
  else againstClub opts a

/-- `randomKey`. -/
def randomKey (ix : GameIndex) (opts : DrawOptions) : Random ℕ := do
  let a ← pick opts.clubs
  -- The number is only drawn where a nation may come up.
  if opts.allowNations && ix.nations.length ≠ 0 then do
    let r ← next
    keyAgainst ix opts a (r < nationChance)
  else keyAgainst ix opts a false

/-- Whether pairs come from the pool. -/
def DrawOptions.fromPool (opts : DrawOptions) : Bool := opts.knownOnly && 0 < opts.pool.length

/-- One round of the loop in `drawPair`. -/
def drawKey (ix : GameIndex) (opts : DrawOptions) : Random ℕ :=
  if opts.fromPool then pick opts.pool else randomKey ix opts

/-- A pair as shown: which entity is on which side is a coin toss. -/
def shown (key : ℕ) (r : ℚ) : Draw :=
  if r < 0.5 then ⟨key, (splitKey key).2, (splitKey key).1⟩
  else ⟨key, (splitKey key).1, (splitKey key).2⟩

/-- The rest of `drawPair` when some club is enabled. -/
def drawSome (ix : GameIndex) (opts : DrawOptions) : Random Draw := do
  let key ← retry (drawKey ix opts) (· ∈ opts.recent) maxTries 0
  let r ← next
  return shown key r

/-- `drawPair`. -/
def drawPair (ix : GameIndex) (opts : DrawOptions) : Random (Option Draw) :=
  if opts.clubs.length = 0 then pure none
  else do
    let draw ← drawSome ix opts
    return some draw

/-! ## The pairs drawn -/

/-- The options of a draw whose clubs and pool were computed with the options of a pool. -/
def drawOptions (ix : GameIndex) (opts : PoolOptions) (knownOnly : Bool) (recent : List ℕ) :
    DrawOptions where
  clubs := enabledClubs ix opts.leagues
  pool := buildPairPool ix opts
  knownOnly := knownOnly
  allowNations := opts.allowNations
  recent := recent

/-- A pair that can be played: two entities, an enabled club among them and no disabled one,
and no nation where nations are off and there are clubs enough. -/
structure Fair (ix : GameIndex) (opts : PoolOptions) (a b : ℕ) : Prop where
  differ : a ≠ b
  exist : a < ix.entityCount ∧ b < ix.entityCount
  club : a ∈ enabledClubs ix opts.leagues ∨ b ∈ enabledClubs ix opts.leagues
  enabled : ∀ e, e = a ∨ e = b → isClub ix e = true → e ∈ enabledClubs ix opts.leagues
  noNation : opts.allowNations = false → 2 ≤ (enabledClubs ix opts.leagues).length →
    isClub ix a = true ∧ isClub ix b = true

section Fair

variable {ix : GameIndex} {opts : PoolOptions} {knownOnly : Bool} {recent : List ℕ} {a b : ℕ}

theorem Fair.symm (fair : Fair ix opts a b) : Fair ix opts b a where
  differ := fair.differ.symm
  exist := fair.exist.symm
  club := fair.club.symm
  enabled e either := fair.enabled e either.symm
  noNation off enough := (fair.noNation off enough).symm

theorem isClub_of_enabled (valid : ix.Valid) (enabled : a ∈ enabledClubs ix opts.leagues) :
    isClub ix a = true := decide_eq_true (enabledClub_lt valid enabled)

/-- Two different clubs that may be drawn are a fair pair. -/
theorem fair_of_clubs (valid : ix.Valid) (first : a ∈ enabledClubs ix opts.leagues)
    (second : b ∈ enabledClubs ix opts.leagues) (differ : a ≠ b) : Fair ix opts a b where
  differ := differ
  exist := ⟨(enabledClub_lt valid first).trans_le (Nat.le_add_right _ _),
    (enabledClub_lt valid second).trans_le (Nat.le_add_right _ _)⟩
  club := .inl first
  enabled e either _ := by
    obtain rfl | rfl := either
    · exact first
    · exact second
  noNation _ _ := ⟨isClub_of_enabled valid first, isClub_of_enabled valid second⟩

/-- A club and a nation are a fair pair, where nations are allowed or there is no other club.
-/
theorem fair_of_nation (valid : ix.Valid) (club : a ∈ enabledClubs ix opts.leagues)
    (nation : IsNation ix b)
    (allowed : opts.allowNations = true ∨ (enabledClubs ix opts.leagues).length < 2) :
    Fair ix opts a b where
  differ := ((enabledClub_lt valid club).trans_le nation.1).ne
  exist := ⟨(enabledClub_lt valid club).trans_le (Nat.le_add_right _ _), nation.2⟩
  club := .inl club
  enabled e either isClub_ := by
    obtain rfl | rfl := either
    · exact club
    · exact absurd nation.1 (not_le.mpr (of_decide_eq_true isClub_))
  noNation off enough := by
    obtain on | few := allowed
    · rw [off] at on
      cases on
    · omega

/-- The key of a fair pair. -/
def FairKey (ix : GameIndex) (opts : PoolOptions) (key : ℕ) : Prop :=
  ∃ a b, Fair ix opts a b ∧ key = pairKey a b

/-- The keys of the pool are those of fair pairs. -/
theorem fairKey_of_mem_pool (valid : ix.Valid) {key : ℕ} (member : key ∈ buildPairPool ix opts) :
    FairKey ix opts key := by
  obtain ⟨a, b, playable, -, rfl⟩ := (mem_buildPairPool valid).mp member
  refine ⟨a, b, ?_, rfl⟩
  obtain second | ⟨allowed, nation⟩ := playable.other
  · exact fair_of_clubs valid playable.club second playable.differ
  · exact fair_of_nation valid playable.club nation (.inl allowed)

/-- A club against a nation gives a fair key. -/
theorem ensures_againstNation (valid : ix.Valid) (nations : ix.nations ≠ [])
    (club : a ∈ enabledClubs ix opts.leagues)
    (allowed : opts.allowNations = true ∨ (enabledClubs ix opts.leagues).length < 2) :
    Ensures (againstNation ix a) (FairKey ix opts) := by
  refine ensures_next.bind fun r unit => ensures_pure ⟨a, _, ?_, rfl⟩
  have inside := place_lt (List.length_pos_of_ne_nil nations) unit
  refine fair_of_nation valid club ⟨Nat.le_add_right _ _, ?_⟩ allowed
  exact Nat.add_lt_add_left inside _

/-- A club against another gives a fair key, against a nation where there is no other. -/
theorem ensures_againstClub (valid : ix.Valid) (club : a ∈ enabledClubs ix opts.leagues) :
    Ensures (againstClub (drawOptions ix opts knownOnly recent) a) (FairKey ix opts) := by
  refine ensures_firstOf.bind fun b ⟨other, r, unit, drawn⟩ => ensures_pure ⟨a, b, ?_, rfl⟩
  have differ : b ≠ a := of_decide_eq_true other
  have inside := place_lt (List.length_pos_of_mem club) unit
  refine fair_of_clubs valid club ?_ differ.symm
  rw [← drawn, drawOptions, List.getD_eq_getElem _ _ inside]
  exact List.getElem_mem inside

/-- What a club is drawn against is fair, whichever way the coin falls. -/
theorem ensures_keyAgainst (valid : ix.Valid) (nations : ix.nations ≠ [])
    (club : a ∈ enabledClubs ix opts.leagues) {nation : Bool}
    (allowed : nation = true → opts.allowNations = true) :
    Ensures (keyAgainst ix (drawOptions ix opts knownOnly recent) a nation) (FairKey ix opts) := by
  unfold keyAgainst
  split_ifs with against single
  · exact ensures_againstNation valid nations club (.inl (allowed against))
  · exact ensures_againstNation valid nations club (.inr single)
  · exact ensures_againstClub valid club

/-- The key of a random draw is that of a fair pair, for every stream. -/
theorem ensures_randomKey (valid : ix.Valid) (nations : ix.nations ≠ [])
    (clubs : enabledClubs ix opts.leagues ≠ []) :
    Ensures (randomKey ix (drawOptions ix opts knownOnly recent)) (FairKey ix opts) := by
  refine (ensures_pick clubs).bind fun a club => ?_
  split_ifs with allowed
  · have on : opts.allowNations = true := (Bool.and_eq_true_iff.mp allowed).1
    exact ensures_next.bind fun r _ => ensures_keyAgainst valid nations club fun _ => on
  · exact ensures_keyAgainst valid nations club fun impossible => absurd impossible (by decide)

/-- Every round of the loop draws the key of a fair pair, from the pool where it is used. -/
theorem ensures_drawKey (valid : ix.Valid) (nations : ix.nations ≠ [])
    (clubs : enabledClubs ix opts.leagues ≠ []) :
    Ensures (drawKey ix (drawOptions ix opts knownOnly recent)) fun key => FairKey ix opts key ∧
      (knownOnly = true → buildPairPool ix opts ≠ [] → key ∈ buildPairPool ix opts) := by
  unfold drawKey
  split_ifs with fromPool
  · have nonempty : buildPairPool ix opts ≠ [] :=
      List.ne_nil_of_length_pos (of_decide_eq_true (Bool.and_eq_true_iff.mp fromPool).2)
    refine (ensures_pick nonempty).mono fun key member => ?_
    exact ⟨fairKey_of_mem_pool valid member, fun _ _ => member⟩
  · refine (ensures_randomKey valid nations clubs).mono fun key fair =>
      ⟨fair, fun known some_ => ?_⟩
    refine absurd (Bool.and_eq_true_iff.mpr ⟨known, ?_⟩) fromPool
    exact decide_eq_true (List.length_pos_of_ne_nil some_)

/-- A fair key is shown as its pair, on either side. -/
theorem fair_shown (valid : ix.Valid) {key : ℕ} (fair : FairKey ix opts key) (r : ℚ) :
    (shown key r).key = key ∧ Fair ix opts (shown key r).left (shown key r).right ∧
      key = pairKey (shown key r).left (shown key r).right := by
  obtain ⟨a, b, fair, rfl⟩ := fair
  have split : Fair ix opts (splitKey (pairKey a b)).1 (splitKey (pairKey a b)).2 ∧
      pairKey a b = pairKey (splitKey (pairKey a b)).1 (splitKey (pairKey a b)).2 := by
    obtain same | same := splitKey_pairKey_eq_or (fair.exist.1.trans valid.small)
      (fair.exist.2.trans valid.small)
    · rw [same]
      exact ⟨fair, rfl⟩
    · rw [same]
      exact ⟨fair.symm, pairKey_comm _ _⟩
  unfold shown
  split_ifs
  · exact ⟨rfl, split.1.symm, split.2.trans (pairKey_comm _ _)⟩
  · exact ⟨rfl, split⟩

end Fair

/-- **A drawn pair is playable.** -/
theorem drawPair_playable {ix : GameIndex} (valid : ix.Valid) (nations : ix.nations ≠ [])
    (opts : PoolOptions) (knownOnly : Bool) (recent : List ℕ) {rng rest : List ℚ}
    (unit : InUnit rng) {d : Draw}
    (drawn : drawPair ix (drawOptions ix opts knownOnly recent) rng = some (some d, rest)) :
    Fair ix opts d.left d.right ∧ d.key = pairKey d.left d.right ∧
      (knownOnly = true → buildPairPool ix opts ≠ [] → d.key ∈ buildPairPool ix opts) ∧
      (d.key ∈ recent → ∃ keys mid,
        draws (drawKey ix (drawOptions ix opts knownOnly recent)) maxTries rng = some (keys, mid) ∧
          keys.length = maxTries ∧ ∀ key ∈ keys, key ∈ recent) := by
  have tries : maxTries ≠ 0 := by decide
  unfold drawPair at drawn
  split_ifs at drawn with none_
  · cases drawn
  · have clubs : enabledClubs ix opts.leagues ≠ [] := fun empty =>
      none_ (List.length_eq_zero_iff.mpr empty)
    obtain ⟨d', _, run, returned⟩ := bind_eq_some.mp drawn
    cases returned
    obtain ⟨key, mid, loop, run⟩ := bind_eq_some.mp run
    obtain ⟨r, _, coin, returned⟩ := bind_eq_some.mp run
    cases returned
    obtain ⟨⟨fair, known⟩, -⟩ :=
      ensures_retry tries (ensures_drawKey valid nations clubs) rng key mid unit loop
    obtain ⟨sameKey, fair, sides⟩ := fair_shown valid fair r
    rw [sameKey]
    refine ⟨fair, sides, known, fun repeated => ?_⟩
    obtain ⟨keys, all, count, refused⟩ :=
      draws_of_retry tries loop (decide_eq_true repeated)
    exact ⟨keys, mid, all, count, fun key member => of_decide_eq_true (refused key member)⟩

/-- The first pair of a small pool is recent, and the next draw gives the second. -/
theorem drawPair_playable_smallWire :
    let ix := buildIndex smallWire
    let opts : PoolOptions := ⟨["eng"], true, true⟩
    drawPair ix (drawOptions ix opts true [1]) [0, 1 / 2, 1 / 4] = some (some ⟨2, 2, 0⟩, []) ∧
      Fair ix opts 2 0 ∧ 2 ∈ buildPairPool ix opts := by
  intro ix opts
  have drawn : drawPair ix (drawOptions ix opts true [1]) [0, 1 / 2, 1 / 4] =
      some (some ⟨2, 2, 0⟩, []) := by
    decide +kernel
  have playable := drawPair_playable (buildIndex_valid smallWire_valid) (by decide) opts true [1]
    (by unfold InUnit; decide +kernel) drawn
  exact ⟨drawn, playable.1, playable.2.2.1 rfl (by decide +kernel)⟩

end ScoutPulse.PlayedForBoth
