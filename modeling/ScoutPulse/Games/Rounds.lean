import ScoutPulse.Games.Store
import ScoutPulse.Lib.Outcome
import Mathlib.Data.List.DropRight

/-!
# What holds in every game

A visit with what has been played since the last reset beside it. The pair that is shown is
always one that could be drawn with the settings of its draw, the timer runs exactly while a
pair is shown and open, and a pair does not come back before sixty others have.
-/

namespace ScoutPulse.PlayedForBoth

open Draws Outcome

section Rules

variable [Unicode]

/-! ## The file -/

/-- A file the service starts with is one the browser can index. -/
theorem Served.valid (served : Served) :
    served.dataset.wire.Valid ∧ served.dataset.wire.nations ≠ [] := by
  obtain ⟨_, -, loads⟩ := bind_ok_iff.mp served.loads
  obtain ⟨sections, loads⟩ := guard_ok_iff.mp loads
  obtain ⟨_, clubs, players⟩ := bind_ok_iff.mp loads
  have clubs := forM_ok_iff.mp clubs
  have players := forM_ok_iff.mp players
  have player : ∀ p ∈ served.dataset.players, p.2.1 < served.dataset.nations.length ∧
      ∀ c ∈ p.2.2.1, 0 ≤ c ∧ c < served.dataset.clubs.length := by
    intro p member
    obtain ⟨inside, all⟩ := guard_ok_iff.mp (players p member)
    refine ⟨by omega, fun c has => ?_⟩
    have passed := forM_ok_iff.mp all c has
    split_ifs at passed with outside
    omega
  refine ⟨⟨?_, ?_, ?_, ?_⟩, fun none_ => sections (.inr (.inr (.inl ?_)))⟩
  · intro c member
    obtain ⟨raw, listed, rfl⟩ := List.mem_map.mp member
    have passed := clubs raw listed
    rw [checkClub] at passed
    split_ifs at passed with outside
    change raw.2.2.2.2.toNat < served.dataset.leagues.length
    omega
  · intro p member
    obtain ⟨raw, listed, rfl⟩ := List.mem_map.mp member
    exact (player raw listed).1
  · intro p member c has
    obtain ⟨raw, listed, rfl⟩ := List.mem_map.mp member
    obtain ⟨place, among, rfl⟩ := List.mem_map.mp has
    have inside := (player raw listed).2 place among
    change place.toNat < (served.dataset.clubs.map _).length
    rw [List.length_map]
    omega
  · change (served.dataset.clubs.map _).length + served.dataset.nations.length < pairBase
    rw [List.length_map]
    exact served.small
  · exact List.length_eq_zero_iff.mpr none_

/-! ## A game -/

/-- A store, and what has been played since the reset: the pairs drawn, the turns passed
without a point, and the settings of the last draw. -/
structure Game where
  store : Store
  drawn : List ℕ
  skips : ℕ
  asked : Option (PoolOptions × Bool)

/-- What an event makes of the record of a game. -/
def Game.follow (g : Game) (label : Label) (s : Store) : Game :=
  match label with
  | .reset => ⟨s, [], 0, none⟩
  | _ =>
      { store := s
        drawn := if s.drawId = g.store.drawId then g.drawn
          else g.drawn ++ (s.pair.map Draw.key).toList
        skips := match label with
          | .primary _ _ => if g.store.started then g.skips + 1 else g.skips
          | _ => g.skips
        asked := if s.drawId = g.store.drawId then g.asked
          else some (g.store.poolOptions, g.store.knownOnly) }

def game : Machine Game Label where
  start g := g = ⟨fresh, [], 0, none⟩
  next g label := (visit.next g.store label).map (g.follow label)

/-- The numbers an event may take. -/
def Label.numbers : Label → Option (List ℚ)
  | .primary rng _ => some rng
  | .point _ rng _ => some rng
  | _ => none

/-- The condition on an event that the numbers that come are random numbers. -/
def Numbers (_ : Game) (label : Label) : Prop := ∀ rng ∈ label.numbers, InUnit rng

/-- The timer that is due: while a pair is shown and its answer is not. -/
def Store.due (s : Store) : Option ℕ :=
  if s.pair.isSome && !s.revealed && s.timerSeconds ≠ 0 then some (s.timerSeconds * 1000) else none

/-- A pair that is shown could be drawn with the settings it was drawn with. -/
def Drawable (ix : GameIndex) (asked : PoolOptions × Bool) (d : Draw) : Prop :=
  Fair ix asked.1 d.left d.right ∧ d.key = pairKey d.left d.right ∧
    (asked.2 = true → buildPairPool ix asked.1 ≠ [] → d.key ∈ buildPairPool ix asked.1)

structure Sound (g : Game) : Prop where
  index : ∀ ix ∈ g.store.index, ix.Valid ∧ ix.nations ≠ []
  ready : g.store.index.isSome = true → g.store.loadState = .ready
  timer : g.store.timer = g.store.due
  recent : g.store.recent = g.drawn.rtake recentWindow
  last : g.store.pair.map Draw.key = g.drawn.getLast?
  fair : ∀ d ∈ g.store.pair, ∃ ix ∈ g.store.index, ∃ asked ∈ g.asked, Drawable ix asked d
  round : g.store.round = 1 + g.store.score.1 + g.store.score.2 + g.skips

/-! ## Draws -/

omit [Unicode] in
/-- The store draws as the engine does with all its options, whether or not it has computed
the pool. -/
theorem drawPair_options (s : Store) (ix : GameIndex) :
    drawPair ix (s.options ix) =
      drawPair ix (drawOptions ix s.poolOptions s.knownOnly s.recent) := by
  cases known : s.knownOnly with
  | true => rw [Store.options, known, drawOptions]; rfl
  | false =>
      have same : drawKey ix (s.options ix) =
          drawKey ix (drawOptions ix s.poolOptions s.knownOnly s.recent) := by
        simp only [drawKey, DrawOptions.fromPool, Store.options, drawOptions, known,
          Bool.false_and, Bool.false_eq_true, if_false]
        rfl
      rw [known] at same
      simp only [drawPair, drawSome, same]
      rfl

omit [Unicode] in
/-- The ways `next` goes. -/
theorem next_cases {s s' : Store} {rng : List ℚ} {now : ℤ} (ran : s.next rng now = some s') :
    s' = s ∨ s' = { s with needLeague := true } ∨
      ∃ ix d rest, s.index = some ix ∧ s' = s.show_ d now ∧
        drawPair ix (drawOptions ix s.poolOptions s.knownOnly s.recent) rng =
          some (some d, rest) := by
  rw [Store.next] at ran
  split at ran
  next => exact .inl (Option.some.inj ran).symm
  next ix there =>
    obtain ⟨⟨drawn, rest⟩, run, rfl⟩ := Option.map_eq_some_iff.mp ran
    rw [drawPair_options] at run
    cases drawn with
    | none => exact .inr (.inl rfl)
    | some d => exact .inr (.inr ⟨ix, d, rest, there, rfl, run⟩)

/-! ## The window -/

omit [Unicode] in
/-- The window after one more draw is the last of the draws with it. -/
theorem pushRecent_rtake (l : List ℕ) (key : ℕ) :
    pushRecent (l.rtake recentWindow) key = (l ++ [key]).rtake recentWindow := by
  have positive : 0 < recentWindow := by decide
  simp only [pushRecent, List.rtake, List.length_append, List.length_drop, List.length_singleton]
  by_cases full : recentWindow ≤ l.length
  · have long : recentWindow < l.length - (l.length - recentWindow) + 1 := by omega
    rw [if_pos long, List.drop_append_of_le_length (by simp only [List.length_drop]; omega),
      List.drop_append_of_le_length (by omega), List.drop_drop]
    congr 2
    omega
  · have short : ¬ recentWindow < l.length - (l.length - recentWindow) + 1 := by omega
    rw [if_neg short, Nat.sub_eq_zero_of_le (by omega), Nat.sub_eq_zero_of_le (by omega)]
    rfl

/-! ## Every event -/

section Events

variable {s s' : Store} {drawn : List ℕ} {skips : ℕ} {asked : Option (PoolOptions × Bool)}
  {g g' : Game} {label : Label}

/-- What an event leaves alone that neither draws nor counts. -/
structure Quiet (s s' : Store) : Prop where
  index : s'.index = s.index
  ready : s.loadState = .ready → s'.loadState = .ready
  timer : s'.timer = s'.due
  recent : s'.recent = s.recent
  pair : s'.pair = s.pair
  score : s'.score = s.score
  round : s'.round = s.round

omit [Unicode] in
/-- A round stays sound when nothing of it changes. -/
theorem Sound.quiet (h : Sound ⟨s, drawn, skips, asked⟩) (quiet : Quiet s s') :
    Sound ⟨s', drawn, skips, asked⟩ where
  index := by
    intro ix member
    rw [quiet.index] at member
    exact h.index ix member
  ready := by
    intro some_
    rw [quiet.index] at some_
    exact quiet.ready (h.ready some_)
  timer := quiet.timer
  recent := quiet.recent.trans h.recent
  last := by
    rw [quiet.pair]
    exact h.last
  fair := by
    intro d member
    rw [quiet.pair] at member
    rw [quiet.index]
    exact h.fair d member
  round := by
    rw [quiet.round, quiet.score]
    exact h.round

omit [Unicode] in
/-- A new pair starts its timer, if there is to be one. -/
theorem due_startTimer (now : ℤ) (shown : s.pair.isSome = true) (open_ : s.revealed = false) :
    (s.startTimer now).timer = (s.startTimer now).due := by
  by_cases off : s.timerSeconds = 0
  · simp [Store.startTimer, Store.stopTimer, Store.due, off]
  · simp [Store.startTimer, Store.due, off, shown, open_]

omit [Unicode] in
/-- Starting the timer changes nothing of the round while a pair is shown. -/
theorem startTimer_quiet (now : ℤ) (shown : s.pair.isSome = true) (open_ : s.revealed = false) :
    Quiet s (s.startTimer now) := by
  have due := due_startTimer now shown open_
  by_cases off : s.timerSeconds = 0
  · rw [Store.startTimer, if_pos off] at due ⊢
    exact ⟨rfl, id, due, rfl, rfl, rfl, rfl⟩
  · rw [Store.startTimer, if_neg off] at due ⊢
    exact ⟨rfl, id, due, rfl, rfl, rfl, rfl⟩

omit [Unicode] in
theorem reveal_quiet (timer : s.pair.isNone = true → s.timer = s.due) : Quiet s s.reveal := by
  rw [Store.reveal]
  split_ifs with none_
  · exact ⟨rfl, id, timer none_, rfl, rfl, rfl, rfl⟩
  · refine ⟨rfl, id, ?_, rfl, rfl, rfl, rfl⟩
    simp [Store.stopTimer, Store.due]

omit [Unicode] in
/-- `next` keeps what holds, with a draw put on record. -/
theorem Sound.next {rng : List ℚ} {now : ℤ} (h : Sound ⟨s, drawn, skips, asked⟩)
    (unit : InUnit rng) (ran : s.next rng now = some s') :
    Sound
      { store := s'
        drawn := if s'.drawId = s.drawId then drawn else drawn ++ (s'.pair.map Draw.key).toList
        skips := skips
        asked := if s'.drawId = s.drawId then asked else some (s.poolOptions, s.knownOnly) } := by
  obtain rfl | rfl | ⟨ix, d, rest, there, rfl, run⟩ := next_cases ran
  · simp only [if_true]
    exact h
  · simp only [if_true]
    exact h.quiet ⟨rfl, id, h.timer, rfl, rfl, rfl, rfl⟩
  · obtain ⟨valid, nations⟩ := h.index ix there
    obtain ⟨fair, key, known, -⟩ :=
      drawPair_playable valid nations s.poolOptions s.knownOnly s.recent unit run
    have before : Sound ⟨{ s with
        recent := pushRecent s.recent d.key, needLeague := false, revealed := false, pair := some d
        drawId := s.drawId + 1, timer := Store.due { s with pair := some d, revealed := false } },
        drawn ++ [d.key], skips, some (s.poolOptions, s.knownOnly)⟩ := by
      refine ⟨h.index, h.ready, rfl, ?_, ?_, ?_, h.round⟩
      · exact (congrArg (pushRecent · d.key) h.recent).trans (pushRecent_rtake drawn d.key)
      · simp
      · rintro d' shown
        obtain rfl := Option.some.inj shown
        exact ⟨ix, there, _, rfl, fair, key, known⟩
    have shows : Sound ⟨s.show_ d now, drawn ++ [d.key], skips,
        some (s.poolOptions, s.knownOnly)⟩ := before.quiet <| by
      have quiet := startTimer_quiet now (s := { s with
        recent := pushRecent s.recent d.key, needLeague := false, revealed := false, pair := some d
        drawId := s.drawId + 1 }) rfl rfl
      exact ⟨quiet.index, quiet.ready, quiet.timer, quiet.recent, quiet.pair, quiet.score,
        quiet.round⟩
    have pair : (s.show_ d now).pair = some d := by
      rw [Store.show_, Store.startTimer]
      split_ifs <;> rfl
    have count : (s.show_ d now).drawId ≠ s.drawId := by
      rw [Store.show_, Store.startTimer]
      split_ifs
      · exact Nat.succ_ne_self _
      · exact Nat.succ_ne_self _
    simp only [if_neg count, pair]
    exact shows

/-- An event that draws nothing and is no turn. -/
theorem follow_quiet {skips' : ℕ} (same : s'.drawId = g.store.drawId)
    (skipped : (g.follow label s').skips = skips') (plain : label ≠ .reset) :
    g.follow label s' = ⟨s', g.drawn, skips', g.asked⟩ := by
  subst skipped
  cases label <;> first | exact absurd rfl plain | simp [Game.follow, same]

/-- The round stays sound at each event: at a draw by what is drawn, at the others because they
change nothing. -/
theorem Sound.step (h : Sound g) (numbers : Numbers g label) (step : game.next g label = some g') :
    Sound g' := by
  obtain ⟨s', ran, rfl⟩ := Option.map_eq_some_iff.mp step
  have settled : ∀ {s'}, Quiet g.store s' → s'.drawId = g.store.drawId → label ≠ .reset →
      (g.follow label s').skips = g.skips → Sound (g.follow label s') := by
    intro s' quiet same plain skipped
    rw [follow_quiet same skipped plain]
    exact h.quiet quiet
  cases label with
  | loaded answer stored =>
      simp only [visit] at ran
      split_ifs at ran with loading
      cases answer with
      | none =>
          obtain rfl := Option.some.inj ran
          refine settled ⟨rfl, fun ready => ?_, h.timer, rfl, rfl, rfl, rfl⟩ rfl nofun rfl
          rw [loading] at ready
          cases ready
      | some served =>
          obtain rfl := Option.some.inj ran
          -- Nothing can be shown before the dataset has come.
          have nothing : g.store.pair = none := by
            cases shown : g.store.pair with
            | none => rfl
            | some d =>
                obtain ⟨ix, there, -⟩ := h.fair d shown
                have ready := h.ready (by rw [there]; rfl)
                rw [loading] at ready
                cases ready
          have record : g.follow (.loaded (some served) stored)
              (g.store.loaded served.dataset.wire stored) =
                ⟨g.store.loaded served.dataset.wire stored, g.drawn, g.skips, g.asked⟩ :=
            follow_quiet rfl rfl nofun
          rw [record]
          refine ⟨?_, fun _ => rfl, h.timer, h.recent, h.last, ?_, h.round⟩
          · rintro ix built
            obtain rfl := Option.some.inj built
            obtain ⟨valid, nations⟩ := served.valid
            exact ⟨buildIndex_valid valid, fun none_ => nations (List.map_eq_nil_iff.mp none_)⟩
          · intro d shown
            change g.store.pair = some d at shown
            rw [nothing] at shown
            cases shown
  | retry =>
      simp only [visit] at ran
      split_ifs at ran with failed
      obtain rfl := Option.some.inj ran
      refine settled ⟨rfl, fun ready => ?_, h.timer, rfl, rfl, rfl, rfl⟩ rfl nofun rfl
      rw [failed] at ready
      cases ready
  | primary rng now =>
      change g.store.primary rng now = some s' at ran
      rw [Store.primary] at ran
      by_cases started : g.store.started = true
      · rw [if_pos started] at ran
        have counted : Sound ⟨{ g.store with round := g.store.round + 1 }, g.drawn, g.skips + 1,
            g.asked⟩ :=
          ⟨h.index, h.ready, h.timer, h.recent, h.last, h.fair, by
            have round := h.round
            simp only
            omega⟩
        have went := counted.next (numbers rng rfl) ran
        simp only [Game.follow, if_pos started]
        exact went
      · rw [if_neg started] at ran
        have held : Sound ⟨g.store, g.drawn, g.skips, g.asked⟩ := h
        have went := held.next (numbers rng rfl) ran
        simp only [Game.follow, if_neg started]
        exact went
  | reveal =>
      obtain rfl := Option.some.inj ran
      refine settled (reveal_quiet fun _ => h.timer) ?_ nofun rfl
      rw [Store.reveal]
      split_ifs <;> rfl
  | point first rng now =>
      change g.store.point first rng now = some s' at ran
      rw [Store.point] at ran
      by_cases none_ : g.store.pair.isNone = true
      · rw [if_pos none_] at ran
        obtain rfl := Option.some.inj ran
        exact settled ⟨rfl, id, h.timer, rfl, rfl, rfl, rfl⟩ rfl nofun rfl
      · rw [if_neg none_] at ran
        have counted : Sound ⟨{ g.store with
            score := if first then (g.store.score.1 + 1, g.store.score.2)
              else (g.store.score.1, g.store.score.2 + 1)
            round := g.store.round + 1 }, g.drawn, g.skips, g.asked⟩ :=
          ⟨h.index, h.ready, h.timer, h.recent, h.last, h.fair, by
            have round := h.round
            cases first <;> simp only [Bool.false_eq_true, if_true, if_false] <;> omega⟩
        exact counted.next (numbers rng rfl) ran
  | reset =>
      obtain rfl := Option.some.inj ran
      exact ⟨h.index, h.ready, rfl, rfl, rfl, nofun, rfl⟩
  | setTimer seconds now =>
      obtain rfl := Option.some.inj ran
      rw [Store.setTimer]
      split_ifs with running
      · obtain ⟨shown, open_⟩ := Bool.and_eq_true_iff.mp running
        have quiet := startTimer_quiet now
          (s := { g.store with timerSeconds := seconds }) shown (by simpa using open_)
        refine settled ⟨quiet.index, quiet.ready, quiet.timer, quiet.recent, quiet.pair,
          quiet.score, quiet.round⟩ ?_ nofun rfl
        rw [Store.startTimer]
        split_ifs <;> rfl
      · refine settled ⟨rfl, id, ?_, rfl, rfl, rfl, rfl⟩ rfl nofun rfl
        exact (if_neg fun due => running (Bool.and_eq_true_iff.mp due).1).symm
  | tick now =>
      obtain ⟨total, running, rfl⟩ := Option.map_eq_some_iff.mp ran
      rw [Store.tick]
      split_ifs with over_
      · have quiet := reveal_quiet
          (s := { g.store with
            timeLeft := ((max 0 (g.store.endsAt - now) : ℤ) : ℚ) / total }) fun _ => h.timer
        refine settled ⟨quiet.index, quiet.ready, quiet.timer, quiet.recent, quiet.pair,
          quiet.score, quiet.round⟩ ?_ nofun rfl
        rw [Store.reveal]
        split_ifs <;> rfl
      · exact settled ⟨rfl, id, h.timer, rfl, rfl, rfl, rfl⟩ rfl nofun rfl
  | _ =>
      obtain rfl := Option.some.inj ran
      exact settled ⟨rfl, id, h.timer, rfl, rfl, rfl, rfl⟩ rfl nofun rfl

theorem sound_of_reach {ok : Game → Label → Prop} (only : ∀ {g label}, ok g label → Numbers g label)
    (reach : game.Reach ok g) : Sound g := by
  refine reach.invariant (P := Sound) ?_ fun h met next => h.step (only met) next
  rintro t rfl
  exact ⟨nofun, nofun, rfl, rfl, rfl, nofun, rfl⟩

/-! ## The answer -/

omit [Unicode] in
/-- The answer to a pair of the pool names somebody. -/
theorem matchesOf_ne_nil_of_key [Collation] {ix : GameIndex} (valid : ix.Valid)
    {opts : PoolOptions} {a b : ℕ} (fair : Fair ix opts a b)
    (known : pairKey a b ∈ buildPairPool ix opts) : matchesOf ix a b ≠ [] := by
  obtain ⟨c, e, playable, ⟨p, member, hasC, hasE, -⟩, same⟩ := (mem_buildPairPool valid).mp known
  obtain ⟨ltC, ltE⟩ := playable.lt valid
  have sides : (a = c ∧ b = e) ∨ (a = e ∧ b = c) := by
    have first := splitKey_pairKey_eq_or (fair.exist.1.trans valid.small)
      (fair.exist.2.trans valid.small)
    have second := splitKey_pairKey_eq_or (ltC.trans valid.small) (ltE.trans valid.small)
    rw [← same] at second
    rcases first with first | first <;> rcases second with second | second <;>
      rw [first, Prod.mk.injEq] at second
    · exact .inl second
    · exact .inr second
    · exact .inr second.symm
    · exact .inl second.symm
  refine List.ne_nil_of_mem (a := p) ((mem_matchesOf valid).mpr ⟨member, ?_⟩)
  rcases sides with ⟨rfl, rfl⟩ | ⟨rfl, rfl⟩
  · exact ⟨hasC, hasE⟩
  · exact ⟨hasE, hasC⟩

/-- **What is revealed is right.** Whatever has been played and whatever was set since, the
answer to the pair that is shown names at most forty players, each of whom has both sides, and
all who do when no more are announced; and a pair drawn with known answers only, where there
were any, has an answer. -/
theorem answer_known [Collation] (reach : game.Reach Numbers g) {d : Draw}
    (shown : g.store.pair = some d) (revealed : g.store.revealed = true) :
    ∃ ix ∈ g.store.index, ∃ asked ∈ g.asked, ∃ answer ∈ g.store.answer,
      Fair ix asked.1 d.left d.right ∧ answer.shown.length ≤ shownAnswers ∧
      (∀ p ∈ answer.shown, p ∈ ix.players ∧ d.left ∈ p.entities ∧ d.right ∈ p.entities) ∧
      (answer.more = 0 → ∀ p ∈ ix.players, d.left ∈ p.entities → d.right ∈ p.entities →
        p ∈ answer.shown) ∧
      (asked.2 = true → buildPairPool ix asked.1 ≠ [] → answer.shown ≠ []) := by
  have sound := sound_of_reach (fun met => met) reach
  obtain ⟨ix, there, asked, settings, fair, key, known⟩ := sound.fair d shown
  obtain ⟨valid, -⟩ := sound.index ix there
  refine ⟨ix, there, asked, settings, ⟨(matchesOf ix d.left d.right).take shownAnswers,
    (matchesOf ix d.left d.right).length - shownAnswers⟩, ?_, fair, List.length_take_le _ _, ?_,
    ?_, ?_⟩
  · rw [Option.mem_def] at there
    simp [Store.answer, there, shown, revealed]
  · intro p member
    exact (mem_matchesOf valid).mp (List.mem_of_mem_take member)
  · intro more p member left right
    rw [List.take_of_length_le (Nat.le_of_sub_eq_zero more)]
    exact (mem_matchesOf valid).mpr ⟨member, left, right⟩
  · intro knownOnly some_ none_
    have answers := matchesOf_ne_nil_of_key valid fair (key ▸ known knownOnly some_)
    rcases List.take_eq_nil_iff.mp none_ with zero | empty
    · cases zero
    · exact answers empty

/-! ## The timer -/

/-- **The timer runs exactly while there is something to guess.** It runs while a pair is
shown, its answer is not, and a time is set; a tick at its end reveals the answer and stops
it, and one before leaves the round as it is. -/
theorem timer_runs (reach : game.Reach Numbers g) :
    (g.store.timer.isSome = true ↔ g.store.pair.isSome = true ∧ g.store.revealed = false ∧
      g.store.timerSeconds ≠ 0) ∧
    (g.store.timer.isSome = true → ∀ now, ∃ s', visit.next g.store (.tick now) = some s' ∧
      s'.pair = g.store.pair ∧ s'.round = g.store.round ∧ s'.score = g.store.score ∧
      (g.store.endsAt ≤ now → s'.revealed = true ∧ s'.timer = none ∧ s'.timeLeft = 0) ∧
      (now < g.store.endsAt → s'.revealed = false ∧ s'.timer = g.store.timer ∧
        0 < s'.timeLeft)) := by
  have timer := (sound_of_reach (fun met => met) reach).timer
  have runs : g.store.timer.isSome = true ↔ g.store.pair.isSome = true ∧
      g.store.revealed = false ∧ g.store.timerSeconds ≠ 0 := by
    rw [timer, Store.due]
    split_ifs with due
    · simpa [and_assoc] using due
    · simpa [and_assoc] using due
  refine ⟨runs, fun running now => ?_⟩
  obtain ⟨shown, open_, seconds⟩ := runs.mp running
  have total : g.store.timer = some (g.store.timerSeconds * 1000) := by
    rw [timer, Store.due]
    exact if_pos (by simp [shown, open_, seconds])
  have pair : g.store.pair.isNone = false := by simpa [Option.isNone_eq_false_iff] using shown
  refine ⟨g.store.tick (g.store.timerSeconds * 1000) now, ?_, ?_⟩
  · exact congrArg (Option.map (g.store.tick · now)) total
  · by_cases ended : g.store.endsAt ≤ now
    · have none_ : max 0 (g.store.endsAt - now) = 0 := max_eq_left (by omega)
      simp only [Store.tick, none_, if_true, Store.reveal, pair, Bool.false_eq_true, if_false,
        Store.stopTimer]
      refine ⟨trivial, trivial, trivial, fun _ => ⟨trivial, trivial, by simp⟩, fun before => ?_⟩
      exact absurd ended (not_le.mpr before)
    · have left : max 0 (g.store.endsAt - now) = g.store.endsAt - now := max_eq_right (by omega)
      have some_ : g.store.endsAt - now ≠ 0 := by omega
      simp only [Store.tick, left, if_neg some_]
      refine ⟨trivial, trivial, trivial, fun after => absurd after ended,
        fun _ => ⟨open_, trivial, ?_⟩⟩
      have positive : (0 : ℚ) < ((g.store.endsAt - now : ℤ) : ℚ) := by
        exact_mod_cast (by omega : 0 < g.store.endsAt - now)
      have whole : (0 : ℚ) < ((g.store.timerSeconds * 1000 : ℕ) : ℚ) := by
        exact_mod_cast (by omega : 0 < g.store.timerSeconds * 1000)
      exact div_pos positive whole

/-! ## The record -/

/-- The condition on an event that not all the tries of its draw are recent pairs. -/
def Varied (g : Game) (label : Label) : Prop :=
  ∀ rng ∈ label.numbers, ∀ ix ∈ g.store.index,
    ∀ tries ∈ draws (drawKey ix (drawOptions ix g.store.poolOptions g.store.knownOnly
      g.store.recent)) maxTries rng, ∃ key ∈ tries.1, key ∉ g.store.recent

omit [Unicode] in
theorem show_drawId {d : Draw} {now : ℤ} :
    (s.show_ d now).drawId = s.drawId + 1 ∧ (s.show_ d now).pair = some d := by
  rw [Store.show_, Store.startTimer]
  split_ifs <;> exact ⟨rfl, rfl⟩

omit [Unicode] in
/-- A pair that `next` shows was drawn. -/
theorem drew_of_next {rng : List ℚ} {now : ℤ} (ran : s.next rng now = some s')
    (drew : s'.drawId ≠ s.drawId) : ∃ ix ∈ s.index, ∃ d rest, s'.pair = some d ∧
      drawPair ix (drawOptions ix s.poolOptions s.knownOnly s.recent) rng =
        some (some d, rest) := by
  obtain rfl | rfl | ⟨ix, d, rest, there, rfl, run⟩ := next_cases ran
  · exact absurd rfl drew
  · exact absurd rfl drew
  · exact ⟨ix, there, d, rest, show_drawId.2, run⟩

/-- Nothing else shows a new pair. -/
theorem drew_of_visit (ran : visit.next s label = some s') (drew : s'.drawId ≠ s.drawId) :
    ∃ rng ∈ label.numbers, ∃ ix ∈ s.index, ∃ d rest, s'.pair = some d ∧
      drawPair ix (drawOptions ix s.poolOptions s.knownOnly s.recent) rng =
        some (some d, rest) := by
  cases label with
  | primary rng now =>
      change s.primary rng now = some s' at ran
      rw [Store.primary] at ran
      refine ⟨rng, rfl, ?_⟩
      by_cases started : s.started = true
      · rw [if_pos started] at ran
        have drawn := drew_of_next ran drew
        exact drawn
      · rw [if_neg started] at ran
        exact drew_of_next ran drew
  | point first rng now =>
      change s.point first rng now = some s' at ran
      rw [Store.point] at ran
      refine ⟨rng, rfl, ?_⟩
      by_cases none_ : s.pair.isNone = true
      · rw [if_pos none_] at ran
        obtain rfl := Option.some.inj ran
        exact absurd rfl drew
      · rw [if_neg none_] at ran
        have drawn := drew_of_next ran drew
        exact drawn
  | loaded answer stored =>
      simp only [visit] at ran
      split_ifs at ran
      cases answer <;> obtain rfl := Option.some.inj ran <;> exact absurd rfl drew
  | retry =>
      simp only [visit] at ran
      split_ifs at ran
      obtain rfl := Option.some.inj ran
      exact absurd rfl drew
  | reveal =>
      obtain rfl := Option.some.inj ran
      refine absurd ?_ drew
      rw [Store.reveal]
      split_ifs <;> rfl
  | setTimer seconds now =>
      obtain rfl := Option.some.inj ran
      refine absurd ?_ drew
      rw [Store.setTimer, Store.startTimer]
      split_ifs <;> rfl
  | tick now =>
      obtain ⟨total, -, rfl⟩ := Option.map_eq_some_iff.mp ran
      refine absurd ?_ drew
      rw [Store.tick, Store.reveal]
      split_ifs <;> rfl
  | _ =>
      obtain rfl := Option.some.inj ran
      exact absurd rfl drew

/-- A new pair comes to the end of the record, and nothing else changes it but a reset. -/
theorem drawn_step (sound : Sound g) (numbers : Numbers g label) (varied : Varied g label)
    (step : game.next g label = some g') : g'.drawn = g.drawn ∨ g'.drawn = [] ∨
      ∃ key, key ∉ g.store.recent ∧ g'.drawn = g.drawn ++ [key] := by
  obtain ⟨s', ran, rfl⟩ := Option.map_eq_some_iff.mp step
  by_cases plain : label = .reset
  · subst plain
    exact .inr (.inl rfl)
  · have record : (g.follow label s').drawn = if s'.drawId = g.store.drawId then g.drawn
        else g.drawn ++ (s'.pair.map Draw.key).toList := by
      cases label <;> first | exact absurd rfl plain | rfl
    rw [record]
    by_cases same : s'.drawId = g.store.drawId
    · exact .inl (if_pos same)
    · obtain ⟨rng, taken, ix, there, d, rest, pair, run⟩ := drew_of_visit ran same
      obtain ⟨valid, nations⟩ := sound.index ix there
      obtain ⟨-, -, -, repeated⟩ := drawPair_playable valid nations g.store.poolOptions
        g.store.knownOnly g.store.recent (numbers rng taken) run
      refine .inr (.inr ⟨d.key, fun recent => ?_, by rw [if_neg same, pair]; rfl⟩)
      obtain ⟨keys, mid, all, -, only⟩ := repeated recent
      obtain ⟨key, among, other⟩ := varied rng taken ix there (keys, mid) all
      exact other (only key among)

/-- **No pair comes back before sixty others.** In every game in which no draw runs out of
tries, any pair drawn since the reset differs from the sixty before it; and the rounds are the
points and the turns passed without one. -/
theorem drawn_window (reach : game.Reach (fun g label => Numbers g label ∧ Varied g label) g) :
    (g.drawn.rtake (recentWindow + 1)).Nodup ∧
      g.store.round = 1 + g.store.score.1 + g.store.score.2 + g.skips := by
  have both : Sound g ∧ (g.drawn.rtake (recentWindow + 1)).Nodup := by
    refine reach.invariant
      (P := fun g => Sound g ∧ (g.drawn.rtake (recentWindow + 1)).Nodup) ?_ ?_
    · rintro t rfl
      exact ⟨⟨nofun, nofun, rfl, rfl, rfl, nofun, rfl⟩, List.nodup_nil⟩
    · rintro t t' label ⟨sound, nodup⟩ ⟨numbers, varied⟩ next
      refine ⟨sound.step numbers next, ?_⟩
      obtain same | empty | ⟨key, other, drawn⟩ := drawn_step sound numbers varied next
      · rw [same]
        exact nodup
      · rw [empty]
        exact List.nodup_nil
      · have window : (t.drawn.rtake recentWindow).Sublist (t.drawn.rtake (recentWindow + 1)) := by
          simp only [List.rtake]
          exact List.drop_sublist_drop_left t.drawn (by omega)
        rw [sound.recent] at other
        rw [drawn, List.rtake_concat_succ, ← List.concat_eq_append]
        exact (nodup.sublist window).concat other
  exact ⟨both.2, both.1.round⟩

end Events

end Rules

section Examples

attribute [local instance] Unicode.ascii

instance (rng : List ℚ) : Decidable (InUnit rng) :=
  inferInstanceAs (Decidable (∀ r ∈ rng, 0 ≤ r ∧ r < 1))

instance (g : Game) (label : Label) : Decidable (Numbers g label) :=
  inferInstanceAs (Decidable (∀ rng ∈ label.numbers, InUnit rng))

instance (g : Game) (label : Label) : Decidable (Varied g label) :=
  inferInstanceAs (Decidable (∀ rng ∈ label.numbers, ∀ ix ∈ g.store.index,
    ∀ tries ∈ draws (drawKey ix (drawOptions ix g.store.poolOptions g.store.knownOnly
      g.store.recent)) maxTries rng, ∃ key ∈ tries.1, key ∉ g.store.recent))

/-- The file `smallWire` is read from. -/
def smallFile : Served where
  dataset :=
    { leagues := [("eng", "England", "Premier League")]
      clubs := [("1", "Arsenal", "red", "white", 0), ("2", "Leeds", "white", "blue", 0)]
      nations := [("TOG", "Togo", "Togo", "tg")]
      players := [("A", 0, [0, 1, 0], 1), ("B", -1, [1], 0)] }
  loads := by decide +kernel
  small := by decide

/-- A game of one pair. -/
def onePair : List Label := [.loaded (some smallFile) none, .primary [0, 1 / 2] 1000]

def beginning : Game := ⟨fresh, [], 0, none⟩

/-- In a round with one pair, its player is known for both. -/
theorem answer_known_onePair :
    let _ : Collation := ⟨fun x y => if x < y then -1 else if x = y then 0 else 1⟩
    let g := game.after Numbers beginning (onePair ++ [.clearLeagues, .reveal])
    ∃ ix ∈ g.store.index, ∃ asked ∈ g.asked, ∃ answer ∈ g.store.answer,
      Fair ix asked.1 0 1 ∧ answer.shown.length ≤ shownAnswers ∧
      (∀ p ∈ answer.shown, p ∈ ix.players ∧ 0 ∈ p.entities ∧ 1 ∈ p.entities) ∧
      (answer.more = 0 → ∀ p ∈ ix.players, 0 ∈ p.entities → 1 ∈ p.entities → p ∈ answer.shown) ∧
      (asked.2 = true → buildPairPool ix asked.1 ≠ [] → answer.shown ≠ []) := by
  intro _ g
  have reach : game.Reach Numbers g := Machine.reach_after rfl (by decide +kernel)
  exact answer_known (d := ⟨1, 0, 1⟩) reach (by decide +kernel) (by decide +kernel)

/-- In that round the timer runs as it is due. -/
theorem timer_runs_onePair :
    let g := game.after Numbers beginning onePair
    g.store.timer.isSome = true ∧ ∃ s', visit.next g.store (.tick 31000) = some s' ∧
      s'.revealed = true := by
  intro g
  have runs := timer_runs (g := g) (Machine.reach_after rfl (by decide +kernel))
  have running : g.store.timer.isSome = true := runs.1.mpr (by decide +kernel)
  obtain ⟨s', ticked, -, -, -, ended, -⟩ := runs.2 running 31000
  exact ⟨running, s', ticked, (ended (by decide +kernel)).1⟩

/-- In that round the window holds the one draw. -/
theorem drawn_window_onePair :
    let g := game.after (fun g label => Numbers g label ∧ Varied g label) beginning
      (onePair ++ [.point true [0, 1 / 2, 0] 2000])
    (g.drawn.rtake (recentWindow + 1)).Nodup ∧
      g.store.round = 1 + g.store.score.1 + g.store.score.2 + g.skips :=
  drawn_window (Machine.reach_after rfl (by decide +kernel))

end Examples

end ScoutPulse.PlayedForBoth
