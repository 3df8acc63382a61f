import ScoutPulse.Tab.Draft
import ScoutPulse.Lib.Parties

/-!
# What is saved is what was written

As long as the saves are kept in order, one is in flight at a time, and what the desk has is
what it keeps of the working copy after some number of its edits, never a later one than the
editor's. So the desk has a text with no unsaved changes, in the form it keeps texts in, a
request of the workflow meets at least the edits it was asked for after, and every draft but
one is one whose answer was lost.
-/

namespace ScoutPulse.Drafting

open Articles

/-! ## What a save leaves alone -/

theorem State.begin_none_rows (s : State) : (s.begin_ none).rows = s.rows := by
  rw [State.begin_]
  split_ifs <;> rfl

theorem State.begin_none_row (s : State) : (s.begin_ none).row = s.row := by
  rw [State.begin_]
  split_ifs <;> rfl

/-! ## The invariant -/

section Invariant

variable [Unicode] [DocumentText]

/-- The desk has a working copy: its columns are what it keeps of the text, or what the text
was loaded from. -/
def Has (row : Columns) (text : WorkingCopy) : Prop :=
  storedAs text.input = .ok row ∨ text = .of row

/-- What is known of the save in flight, with the article's row, the working copy, the number
of its edits and the rows of the desk. -/
structure Flight (row : Option ℕ) (text : WorkingCopy) (edits : ℕ) (rows : List Row)
    (v : Save) : Prop where
  target : v.row = row
  seen : v.seen ≤ edits
  latest : v.seen = edits → v.text = text
  asked : ∀ a ∈ v.act, ∀ n ∈ a.asked, n ≤ v.seen
  stored : ∀ {r status}, v.handling = .stored r status →
    (∃ text, storedAs v.text.input = .ok text ∧ rows[r]? = some ⟨text, v.seen⟩) ∧
      (row = none ∨ row = some r)
  newer : ∀ {r kept}, row = some r → rows[r]? = some kept → kept.written ≤ v.seen

/-- What is known of the row of the article. -/
structure Kept (text : WorkingCopy) (edits : ℕ) (dirty : Bool) (row : Row) : Prop where
  written : row.written ≤ edits
  latest : row.written = edits → Has row.text text
  clean : dirty = false → row.written = edits

structure Sound (s : State) : Prop where
  ended : ∀ {i v}, s.saves[i]? = some v → (v.ending = none ↔ s.inFlight = some i)
  flying : ∀ {i}, s.inFlight = some i → s.dirty = true ∧
    ∃ v, s.saves[i]? = some v ∧ Flight s.row s.text s.edits s.rows v
  waits : ∀ w ∈ s.waiting, s.inFlight = some w.awaits ∧ w.act = none
  single : s.waiting.length ≤ 1
  kept : ∀ {r}, s.row = some r →
    ∃ kept, s.rows[r]? = some kept ∧ Kept s.text s.edits s.dirty kept
  sent : ∀ a ∈ s.sent, s.row = some a.row ∧
    ∀ n ∈ a.act.asked, ∃ kept, s.rows[a.row]? = some kept ∧ n ≤ kept.written
  blank : s.row = none → s.dirty = false → s.text.blank = true
  drafts : s.rows.length ≤ s.lost + 1
  unanswered : s.row = none →
    (∀ {i v}, s.inFlight = some i → s.saves[i]? = some v → v.isStored = false) →
    s.rows.length ≤ s.lost

namespace Sound

variable {s : State}

theorem no_waiting (h : Sound s) (idle : s.inFlight = none) : s.waiting = [] := by
  refine List.eq_nil_iff_forall_not_mem.mpr fun w found => ?_
  have awaits := (h.waits w found).1
  rw [idle] at awaits
  cases awaits

/-- The flags that are not mentioned may change. -/
theorem flags (h : Sound s) (timer saveError busy : Bool) :
    Sound { s with timer := timer, saveError := saveError, busy := busy } :=
  ⟨h.ended, h.flying, h.waits, h.single, h.kept, h.sent, h.blank, h.drafts, h.unanswered⟩

theorem timer (h : Sound s) (timer : Bool) : Sound { s with timer := timer } :=
  h.flags timer s.saveError s.busy

/-! ## The editor's steps -/

/-- The editor stays sound when the text is edited. -/
theorem edit (h : Sound s) (editable : s.canEdit = true) (text : WorkingCopy) :
    Sound { s with text := text }.edited := by
  have same : ({ s with text := text } : State).canEdit = true := editable
  rw [State.edited, if_pos same]
  refine ⟨h.ended, ?_, h.waits, h.single, ?_, h.sent, (by simp), h.drafts, h.unanswered⟩
  · intro i flying
    obtain ⟨-, v, found, flight⟩ := h.flying flying
    have seen := flight.seen
    exact ⟨rfl, v, found, flight.target, by simp only; omega,
      fun late => by simp only at late; omega, flight.asked, flight.stored, flight.newer⟩
  · intro r at_
    obtain ⟨kept, found, known⟩ := h.kept at_
    have written := known.written
    exact ⟨kept, found, by simp only; omega, fun late => by simp only at late; omega,
      fun clean => by cases clean⟩

/-- A request goes out when the row has every edit it was asked for after. -/
theorem proceed (h : Sound s) (a : Act)
    (timely : s.saveError = false → ∀ {r}, s.row = some r → ∀ n ∈ a.asked,
      ∃ kept, s.rows[r]? = some kept ∧ n ≤ kept.written) : Sound (s.proceed a) := by
  rw [State.proceed]
  cases at_ : s.row with
  | none => exact h
  | some row =>
      cases failed : s.saveError with
      | true => exact h
      | false =>
          refine ⟨h.ended, h.flying, h.waits, h.single, h.kept, ?_, h.blank, h.drafts,
            h.unanswered⟩
          intro sent found
          rcases List.mem_append.mp found with earlier | new
          · exact h.sent sent earlier
          · obtain rfl := List.mem_singleton.mp new
            exact ⟨at_, timely failed at_⟩

/-- It stays sound when it goes on with what the save was for. -/
theorem goOn (h : Sound s) (act : Option Act)
    (timely : ∀ a ∈ act, s.saveError = false → ∀ {r}, s.row = some r → ∀ n ∈ a.asked,
      ∃ kept, s.rows[r]? = some kept ∧ n ≤ kept.written) : Sound (s.goOn act) := by
  cases act with
  | none => exact h
  | some a => exact h.proceed a (timely a rfl)

/-- A save that is sent carries the text with every edit made so far. -/
theorem send (h : Sound s) (idle : s.inFlight = none) (dirty : s.dirty = true) (act : Option Act)
    (asked : ∀ a ∈ act, ∀ n ∈ a.asked, n ≤ s.edits) : Sound (s.send act) := by
  have new : ∀ {i v}, (s.send act).saves[i]? = some v ↔ s.saves[i]? = some v ∨
      (i = s.saves.length ∧ ⟨s.row, s.text, s.edits, act, .waiting, none⟩ = v) := by
    intro i v
    exact Parties.append_eq_some
  have lost : (s.send act).lost = s.lost := by
    simp [State.lost, State.send, List.countP_append, Save.isLost]
  refine ⟨?_, ?_, ?_, ?_, h.kept, h.sent, h.blank, ?_, ?_⟩
  · intro i v found
    rcases new.mp found with earlier | ⟨rfl, rfl⟩
    · have ended := (h.ended earlier).not.mpr (by simp [idle])
      obtain ⟨below, -⟩ := List.getElem?_eq_some_iff.mp earlier
      have other : s.saves.length ≠ i := by omega
      simp [State.send, ended, other]
    · simp [State.send]
  · intro i flying
    obtain rfl : s.saves.length = i := by simpa [State.send] using flying
    refine ⟨dirty, _, new.mpr (.inr ⟨rfl, rfl⟩), rfl, Nat.le_refl _, fun _ => rfl, asked,
      (by simp), ?_⟩
    intro r kept at_ found
    obtain ⟨kept', found', known⟩ := h.kept at_
    obtain rfl : kept' = kept := Option.some.inj (found'.symm.trans found)
    exact known.written
  · intro w found
    have none_ := h.no_waiting idle
    have impossible : w ∈ s.waiting := found
    rw [none_] at impossible
    cases impossible
  · exact h.single
  · rw [lost]
    exact h.drafts
  · intro unborn _
    rw [lost]
    exact h.unanswered unborn fun flying => by rw [idle] at flying; cases flying

/-- What a save does that does not have to wait. -/
theorem begin_ (h : Sound s) (idle : s.inFlight = none) (act : Option Act)
    (asked : ∀ a ∈ act, ∀ n ∈ a.asked, n ≤ s.edits ∧ s.canEdit = true) : Sound (s.begin_ act) := by
  rw [State.begin_]
  split_ifs with nothing unborn
  · refine h.goOn act fun a is _ r at_ n has => ?_
    obtain ⟨below, editable⟩ := asked a is n has
    have clean : s.dirty = false := nothing.resolve_right (by simp [editable])
    obtain ⟨kept, found, known⟩ := h.kept at_
    exact ⟨kept, found, by rw [known.clean clean]; exact below⟩
  · have none_ : s.row = none := by simp [State.row, unborn.1]
    have cleaned : Sound { s with dirty := false } := by
      refine ⟨h.ended, ?_, h.waits, h.single, ?_, h.sent, fun _ _ => unborn.2, h.drafts,
        h.unanswered⟩
      · intro i flying
        have impossible : s.inFlight = some i := flying
        rw [idle] at impossible
        cases impossible
      · intro r at_
        have impossible : s.row = some r := at_
        rw [none_] at impossible
        cases impossible
    refine cleaned.goOn act fun a is _ r at_ => ?_
    have impossible : s.row = some r := at_
    rw [none_] at impossible
    cases impossible
  · exact h.send idle (by simpa using fun clean => nothing (.inl clean)) act
      fun a is n has => (asked a is n has).1

/-- The editor stays sound when it saves, whether it sends, waits or has nothing to send. -/
theorem save (h : Sound s) (act : Option Act) (room : s.waiting = [])
    (alone : s.inFlight = none ∨ act = none)
    (asked : ∀ a ∈ act, ∀ n ∈ a.asked, n ≤ s.edits ∧ s.canEdit = true) : Sound (s.save act) := by
  rw [State.save]
  split
  next i flying =>
    have none_ : act = none := alone.resolve_left (by simp only at flying; simp [flying])
    refine ⟨h.ended, h.flying, ?_, ?_, h.kept, h.sent, h.blank, h.drafts, h.unanswered⟩
    · simp only [room, List.nil_append, List.mem_singleton, forall_eq]
      exact ⟨flying, none_⟩
    · simp [room]
  next idle => exact (h.timer false).begin_ idle act asked

/-! ## The end of a save -/

theorem rearm (h : Sound s) : Sound s.rearm := by
  rw [State.rearm]
  split_ifs
  · exact h.timer true
  · exact h

/-- The rest of a save, with what waited for it. -/
theorem settle (i : ℕ) (act : Option Act) (waits : ∀ w ∈ s.waiting, w.awaits = i ∧ w.act = none)
    (single : s.waiting.length ≤ 1) (h : Sound { s with waiting := [] })
    (idle : s.inFlight = none)
    (timely : s.saveError = false ∨ s.waiting ≠ [] → ∀ a ∈ act, ∀ {r}, s.row = some r →
      ∀ n ∈ a.asked, ∃ kept, s.rows[r]? = some kept ∧ n ≤ kept.written) :
    Sound (s.settle i act) := by
  have rearmed : Sound { s.rearm with waiting := [] } := by
    have same : ({ s.rearm with waiting := [] } : State) = { s with waiting := [] }.rearm := by
      rw [State.rearm, State.rearm]
      split_ifs <;> rfl
    rw [same]
    exact h.rearm
  have woken : s.rearm.waiting = s.waiting := by rw [State.rearm]; split_ifs <;> rfl
  have quiet : s.rearm.inFlight = none := by rw [State.rearm]; split_ifs <;> exact idle
  have error : s.rearm.saveError = s.saveError := by rw [State.rearm]; split_ifs <;> rfl
  have rows : s.rearm.rows = s.rows := by rw [State.rearm]; split_ifs <;> rfl
  have row : s.rearm.row = s.row := by rw [State.rearm]; split_ifs <;> rfl
  rw [State.settle]
  simp only [woken]
  rcases waiting : s.waiting with _ | ⟨w, others⟩
  · simp only [List.filter_nil, List.foldl_nil]
    refine rearmed.goOn act fun a is fine r at_ => ?_
    have at' : s.row = some r := row.symm.trans at_
    simpa [rows] using timely (.inl (error.symm.trans fine)) a is at'
  · obtain rfl : others = [] := by
      rw [waiting] at single
      exact List.eq_nil_of_length_eq_zero (by simpa using single)
    obtain ⟨awaits, none_⟩ := waits w (by simp [waiting])
    simp only [awaits, none_, List.filter_cons, decide_true, if_true, List.filter_nil, ne_eq,
      not_true_eq_false, decide_false, Bool.false_eq_true, if_false, List.foldl_cons,
      List.foldl_nil]
    have begun := rearmed.begin_ quiet none (by simp)
    refine begun.goOn act fun a is _ r at_ => ?_
    rw [State.begin_none_row] at at_
    have at' : s.row = some r := row.symm.trans at_
    simpa [State.begin_none_rows, rows] using timely (.inr (by simp [waiting])) a is at'

/-! ## The desk's steps -/

section Desk

variable {i : ℕ} {v : Save}

/-- A save that is open is the one under way, and it knows what it was sent with. -/
theorem flight (h : Sound s) (found : s.saves[i]? = some v) (open_ : v.ending = none) :
    s.inFlight = some i ∧ s.dirty = true ∧ Flight s.row s.text s.edits s.rows v := by
  have flying := (h.ended found).mp open_
  obtain ⟨dirty, v', found', flight⟩ := h.flying flying
  obtain rfl : v' = v := Option.some.inj (found'.symm.trans found)
  exact ⟨flying, dirty, flight⟩

omit [Unicode] [DocumentText] in
/-- Exchanging a save for one that counts as much leaves the lost drafts as many. -/
theorem lost_set (found : s.saves[i]? = some v) {v' : Save} {n : ℕ}
    (lost : (if v'.isLost then 1 else 0) = (if v.isLost then 1 else 0) + n) :
    ({ s with saves := s.saves.set i v' } : State).lost = s.lost + n := by
  have counted := Parties.countP_set (x := v') (p := Save.isLost) found
  simp only [State.lost]
  omega

omit [Unicode] [DocumentText] in
theorem not_lost_of_open (open_ : v.ending = none) : v.isLost = false := by
  simp [Save.isLost, open_]

/-- The desk has done something about the save in flight. -/
theorem handled (v' : Save) (h : Sound s) (found : s.saves[i]? = some v) (open_ : v.ending = none)
    (still : v'.ending = none) {rows : List Row}
    (flight : Flight s.row s.text s.edits rows v')
    (kept : ∀ {r kept}, s.row = some r → s.rows[r]? = some kept →
      ∃ kept', rows[r]? = some kept' ∧ Kept s.text s.edits s.dirty kept' ∧
        kept.written ≤ kept'.written)
    (drafts : rows.length ≤ s.lost + 1)
    (unanswered : s.row = none → v'.isStored = false → rows.length ≤ s.lost) :
    Sound { s with rows := rows, saves := s.saves.set i v' } := by
  obtain ⟨flying, dirty, -⟩ := h.flight found open_
  have lost : ({ s with rows := rows, saves := s.saves.set i v' } : State).lost = s.lost :=
    lost_set (n := 0) found (by simp [not_lost_of_open open_, not_lost_of_open still])
  have self : (s.saves.set i v')[i]? = some v' :=
    (Parties.set_eq_some found).mpr (.inl ⟨rfl, rfl⟩)
  refine ⟨?_, ?_, h.waits, h.single, ?_, ?_, h.blank, ?_, ?_⟩
  · intro j w at_
    rcases (Parties.set_eq_some found).mp at_ with ⟨rfl, rfl⟩ | ⟨_, at'⟩
    · simp [still, flying]
    · exact h.ended at'
  · intro j flying'
    obtain rfl : i = j := Option.some.inj (flying.symm.trans flying')
    exact ⟨dirty, v', self, flight⟩
  · intro r at_
    obtain ⟨row, found', -⟩ := h.kept at_
    obtain ⟨row', found'', known, -⟩ := kept at_ found'
    exact ⟨row', found'', known⟩
  · intro a sent
    obtain ⟨at_, asked⟩ := h.sent a sent
    refine ⟨at_, fun n has => ?_⟩
    obtain ⟨row, found', below⟩ := asked n has
    obtain ⟨row', found'', -, grown⟩ := kept at_ found'
    exact ⟨row', found'', Nat.le_trans below grown⟩
  · rw [lost]
    exact drafts
  · intro unborn unstored
    rw [lost]
    exact unanswered unborn (unstored flying self)

/-- Until the save in flight is stored there are no more drafts than were lost. -/
theorem unborn (h : Sound s) (found : s.saves[i]? = some v) (open_ : v.ending = none)
    (fresh : v.handling = .waiting) (none_ : s.row = none) : s.rows.length ≤ s.lost := by
  obtain ⟨flying, -, -⟩ := h.flight found open_
  refine h.unanswered none_ fun {j w} flying' at_ => ?_
  obtain rfl : i = j := Option.some.inj (flying.symm.trans flying')
  obtain rfl : v = w := Option.some.inj (found.symm.trans at_)
  simp [Save.isStored, fresh]

/-- The editor stays sound when the server refuses a save: no row is written. -/
theorem refuse (h : Sound s) (found : s.saves[i]? = some v) (open_ : v.ending = none)
    (fresh : v.handling = .waiting) :
    Sound { s with saves := s.saves.set i { v with handling := .refused } } := by
  obtain ⟨-, -, flight⟩ := h.flight found open_
  refine h.handled { v with handling := .refused } found open_ open_
    ⟨flight.target, flight.seen, flight.latest, flight.asked, by simp, flight.newer⟩
    ?_ h.drafts fun none_ _ => h.unborn found open_ fresh none_
  intro r row at_ found'
  obtain ⟨row', found'', known⟩ := h.kept at_
  obtain rfl : row' = row := Option.some.inj (found''.symm.trans found')
  exact ⟨row', found', known, Nat.le_refl _⟩

/-- It stays sound when the server stores a save, on a new row or on the one it was sent for.
-/
theorem store (h : Sound s) (found : s.saves[i]? = some v) (open_ : v.ending = none)
    (fresh : v.handling = .waiting) {text : Columns} (accepted : storedAs v.text.input = .ok text)
    (status : ArticleStatus) : Sound (s.store i v text status) := by
  obtain ⟨-, dirty, flight⟩ := h.flight found open_
  rw [State.store]
  cases target : v.row with
  | none =>
      have none_ : s.row = none := flight.target.symm.trans target
      have few := h.unborn found open_ fresh none_
      refine h.handled { v with row := none, handling := .stored s.rows.length status } found
        open_ open_
        ⟨none_.symm, flight.seen, flight.latest, flight.asked, ?_, ?_⟩ ?_ ?_ ?_
      · intro r status' stored
        obtain ⟨rfl, -⟩ : s.rows.length = r ∧ status = status' := by simpa using stored
        exact ⟨⟨text, accepted, by simp⟩, .inl none_⟩
      · intro r kept at_
        rw [none_] at at_
        cases at_
      · intro r row at_
        rw [none_] at at_
        cases at_
      · simp only [List.length_append, List.length_singleton]
        omega
      · intro _ unstored
        simp [Save.isStored] at unstored
  | some row =>
      have at_ : s.row = some row := flight.target.symm.trans target
      obtain ⟨kept, there, known⟩ := h.kept at_
      have put : (s.rows.set row ⟨text, v.seen⟩)[row]? = some ⟨text, v.seen⟩ :=
        (Parties.set_eq_some there).mpr (.inl ⟨rfl, rfl⟩)
      refine h.handled { v with row := some row, handling := .stored row status } found open_ open_
        ⟨at_.symm, flight.seen, flight.latest, flight.asked, ?_, ?_⟩ ?_ ?_ ?_
      · intro r status' stored
        obtain ⟨rfl, -⟩ : row = r ∧ status = status' := by simpa using stored
        exact ⟨⟨text, accepted, put⟩, .inr at_⟩
      · intro r kept' at' found'
        obtain rfl : row = r := Option.some.inj (at_.symm.trans at')
        obtain rfl := Option.some.inj (put.symm.trans found')
        exact Nat.le_refl _
      · intro r old at' found'
        obtain rfl : row = r := Option.some.inj (at_.symm.trans at')
        refine ⟨_, put, ⟨flight.seen, fun last => ?_, fun clean => by simp [dirty] at clean⟩,
          flight.newer at_ found'⟩
        rw [← flight.latest last]
        exact .inl accepted
      · simpa using h.drafts
      · intro none_
        rw [at_] at none_
        cases none_

/-! ## The ends of a save -/

/-- It stays sound when the answer to a stored save arrives. -/
theorem answered (h : Sound s) (found : s.saves[i]? = some v) (open_ : v.ending = none)
    {row : ℕ} {status : ArticleStatus} (stored : v.handling = .stored row status) :
    Sound { s with
      article := some (row, status)
      dirty := if s.edits = v.seen then false else s.dirty
      inFlight := none
      waiting := []
      saves := s.saves.set i { v with ending := some .answered } } := by
  obtain ⟨flying, dirty, flight⟩ := h.flight found open_
  obtain ⟨⟨text, accepted, there⟩, fits⟩ := flight.stored stored
  have lost : ({ s with saves := s.saves.set i { v with ending := some .answered } } : State).lost =
      s.lost := lost_set (n := 0) found (by simp [Save.isLost, open_])
  refine ⟨?_, (by simp), (by simp), (by simp), ?_, ?_, (by simp [State.row]), ?_, ?_⟩
  · intro j w at_
    rcases (Parties.set_eq_some found).mp at_ with ⟨-, rfl⟩ | ⟨other, at'⟩
    · simp
    · have ended := (h.ended at').not.mpr (by rw [flying]; simpa using Ne.symm other)
      simp [ended]
  · intro r at_
    obtain rfl : row = r := by simpa [State.row] using at_
    refine ⟨_, there, flight.seen, fun last => ?_, fun clean => ?_⟩
    · rw [← flight.latest last]
      exact .inl accepted
    · by_contra other
      rw [if_neg (fun same => other same.symm), dirty] at clean
      cases clean
  · intro a sent
    obtain ⟨at_, asked⟩ := h.sent a sent
    have same : row = a.row := by
      rcases fits with none_ | some_
      · rw [none_] at at_
        cases at_
      · exact Option.some.inj (some_.symm.trans at_)
    exact ⟨by simp [State.row, same], asked⟩
  · exact Nat.le_trans h.drafts (Nat.le_of_eq (by rw [← lost]; rfl))
  · intro none_
    simp [State.row] at none_

/-- It stays sound when a save fails, and the edits are still to be saved. -/
theorem failed (h : Sound s) (found : s.saves[i]? = some v) (open_ : v.ending = none) :
    Sound { s with
      saveError := true
      inFlight := none
      waiting := []
      saves := s.saves.set i { v with ending := some .failed } } := by
  obtain ⟨flying, dirty, flight⟩ := h.flight found open_
  have lost : ({ s with saves := s.saves.set i { v with ending := some .failed } } : State).lost =
      s.lost + if ({ v with ending := some Ending.failed } : Save).isLost then 1 else 0 :=
    lost_set found (by simp [not_lost_of_open open_])
  refine ⟨?_, (by simp), (by simp), (by simp), h.kept, h.sent, h.blank, ?_, ?_⟩
  · intro j w at_
    rcases (Parties.set_eq_some found).mp at_ with ⟨-, rfl⟩ | ⟨other, at'⟩
    · simp
    · have ended := (h.ended at').not.mpr (by rw [flying]; simpa using Ne.symm other)
      simp [ended]
  · have few := h.drafts
    refine Nat.le_trans few (Nat.add_le_add_right ?_ 1)
    exact Nat.le_trans (Nat.le_add_right _ _) (Nat.le_of_eq lost.symm)
  · intro none_ _
    have counted : s.rows.length ≤
        s.lost + if ({ v with ending := some Ending.failed } : Save).isLost then 1 else 0 := by
      cases stored : v.isStored with
      | true =>
          have gone : ({ v with ending := some Ending.failed } : Save).isLost = true := by
            have target : v.row = none := flight.target.trans none_
            rw [Save.isLost, Bool.and_eq_true, Bool.and_eq_true]
            exact ⟨⟨decide_eq_true target, stored⟩, rfl⟩
          rw [gone]
          exact h.drafts
      | false =>
          refine Nat.le_trans (h.unanswered none_ fun {j w} flying' at_ => ?_)
            (Nat.le_add_right _ _)
          obtain rfl : i = j := Option.some.inj (flying.symm.trans flying')
          obtain rfl : v = w := Option.some.inj (found.symm.trans at_)
          exact stored
    exact Nat.le_trans counted (Nat.le_of_eq lost.symm)

end Desk

/-! ## The answers of the workflow -/

/-- A request that is over, with the status it leaves the article in. -/
theorem acted (h : Sound s) {j : ℕ} {a : Sent} (found : s.sent[j]? = some a)
    (article : Option (ℕ × ArticleStatus)) (same : article.map (·.1) = s.row) :
    Sound { s with
      article := article
      busy := false
      sent := s.sent.set j { a with finished := true } } := by
  have row : ({ s with article := article } : State).row = s.row := same
  refine ⟨h.ended, ?_, h.waits, h.single, ?_, ?_, fun none_ => h.blank (row.symm.trans none_),
    h.drafts, ?_⟩
  · intro i flying
    obtain ⟨dirty, v, at_, flight⟩ := h.flying flying
    exact ⟨dirty, v, at_, by rw [← row] at flight; exact flight⟩
  · intro r at_
    exact h.kept (row.symm.trans at_)
  · intro b sent
    rcases List.mem_or_eq_of_mem_set sent with earlier | rfl
    · obtain ⟨at_, asked⟩ := h.sent b earlier
      exact ⟨row.trans at_, asked⟩
    · obtain ⟨at_, asked⟩ := h.sent a (List.mem_of_getElem? found)
      exact ⟨row.trans at_, asked⟩
  · intro none_
    exact h.unanswered (row.symm.trans none_)

/-! ## Every step -/

/-- It stays sound when a save is settled and those that waited for it go on. -/
theorem settled (h : Sound s) {i : ℕ} {v : Save} {t : State} (found : s.saves[i]? = some v)
    (open_ : v.ending = none) (waiting : t.waiting = s.waiting) (idle : t.inFlight = none)
    (sound : Sound { t with waiting := [] })
    (timely : t.saveError = false ∨ t.waiting ≠ [] → ∀ a ∈ v.act, ∀ {r}, t.row = some r →
      ∀ n ∈ a.asked, ∃ kept, t.rows[r]? = some kept ∧ n ≤ kept.written) :
    Sound (t.settle i v.act) := by
  obtain ⟨flying, -, -⟩ := h.flight found open_
  refine settle i v.act (fun w at_ => ?_) ?_ sound idle timely
  · rw [waiting] at at_
    obtain ⟨awaits, none_⟩ := h.waits w at_
    exact ⟨Option.some.inj (awaits.symm.trans flying), none_⟩
  · rw [waiting]
    exact h.single

/-- The editor stays sound at each event of an orderly run. -/
theorem next {s' : State} {e : Event} (h : Sound s) (orderly : Orderly s e)
    (step : s.next e = some s') : Sound s' := by
  cases e with
  | edit text =>
      obtain rfl := Option.some.inj step
      exact h.edit orderly text
  | fires =>
      simp only [State.next, Option.ite_none_right_eq_some, Option.some.injEq] at step
      obtain ⟨-, rfl⟩ := step
      exact h.save none orderly (.inr rfl) (by simp)
  | save =>
      obtain rfl := Option.some.inj step
      exact h.save none orderly (.inr rfl) (by simp)
  | act run =>
      simp only [State.next, Option.ite_none_right_eq_some, Option.some.injEq] at step
      obtain ⟨⟨-, idle⟩, rfl⟩ := step
      refine h.save _ (h.no_waiting idle) (.inl idle) ?_
      intro a is n asked
      obtain rfl := Option.some.inj is
      simp only [State.act] at asked
      split_ifs at asked with editable
      · obtain rfl := Option.some.inj asked
        exact ⟨Nat.le_refl _, editable⟩
      · cases asked
  | handle i status =>
      simp only [State.next] at step
      split at step
      next v found =>
        have open_ : v.ending = none := by simpa [Orderly, found] using orderly
        split_ifs at step with fresh
        cases status with
        | none =>
            obtain rfl := Option.some.inj step
            exact h.refuse found open_ fresh
        | some status =>
            simp only at step
            split at step
            next text accepted =>
              obtain rfl := Option.some.inj step
              exact h.store found open_ fresh accepted status
            next => cases step
      next => cases step
  | answer i =>
      simp only [State.next] at step
      split at step
      next v found =>
        split at step
        next row status stored open_ =>
          obtain rfl := Option.some.inj step
          obtain ⟨-, -, flight⟩ := h.flight found open_
          obtain ⟨⟨text, -, there⟩, -⟩ := flight.stored stored
          refine h.settled found open_ rfl rfl (h.answered found open_ stored) ?_
          intro _ a is r at_ n asked
          obtain rfl : row = r := by simpa [State.row] using at_
          exact ⟨_, there, flight.asked a is n asked⟩
        next => cases step
      next => cases step
  | fail i =>
      simp only [State.next] at step
      split at step
      next v found =>
        split_ifs at step with open_
        obtain rfl := Option.some.inj step
        refine h.settled found open_ rfl rfl (h.failed found open_) ?_
        intro waited a is
        have waits : s.waiting ≠ [] := waited.resolve_left (by simp)
        have none_ : v.act = none := by
          have alone := orderly.resolve_left waits
          simpa [found] using alone
        rw [none_] at is
        cases is
      next => cases step
  | acted j status =>
      simp only [State.next] at step
      split at step
      next a found =>
        split_ifs at step with open_
        obtain rfl := Option.some.inj step
        exact h.acted found (some (a.row, status)) (h.sent a (List.mem_of_getElem? found)).1.symm
      next => cases step
  | actFailed j =>
      simp only [State.next] at step
      split at step
      next a found =>
        split_ifs at step with open_
        obtain rfl := Option.some.inj step
        exact h.acted found s.article rfl
      next => cases step

omit [Unicode] [DocumentText] in
theorem fresh_blank : WorkingCopy.fresh.blank = true := by decide +kernel

/-- A new editor is sound. -/
theorem new (isAdmin : Bool) : Sound (.new isAdmin) := by
  refine ⟨?_, ?_, ?_, ?_, ?_, ?_, fun _ _ => fresh_blank, ?_, ?_⟩ <;>
    simp [State.new, State.row]

/-- So is an editor on an article. -/
theorem loaded (isAdmin : Bool) (text : Columns) (status : ArticleStatus) :
    Sound (.loaded isAdmin text status) := by
  refine ⟨?_, ?_, ?_, ?_, ?_, ?_, ?_, ?_, ?_⟩
  · simp [State.loaded]
  · simp [State.loaded]
  · simp [State.loaded]
  · simp [State.loaded]
  · intro r at_
    obtain rfl : 0 = r := by simpa [State.loaded, State.row] using at_
    exact ⟨⟨text, 0⟩, rfl, Nat.le_refl _, fun _ => .inr rfl, fun _ => rfl⟩
  · simp [State.loaded]
  · simp [State.loaded, State.row]
  · simp [State.loaded]
  · simp [State.loaded, State.row]

/-- Whatever orderly run leads to a state, it is sound. -/
theorem of_reach (reach : machine.Reach Orderly s) : Sound s := by
  refine reach.invariant ?_ fun h orderly step => h.next orderly step
  rintro t ⟨isAdmin, rfl | ⟨text, status, rfl⟩⟩
  · exact new isAdmin
  · exact loaded isAdmin text status

end Sound

end Invariant

/-! ## What orderly runs promise -/

section Runs

variable [Unicode] [DocumentText] {s : State}

/-- All drafts of an editor but one are drafts whose answers were lost. -/
theorem drafts_le (reach : machine.Reach Orderly s) : s.rows.length ≤ s.lost + 1 :=
  (Sound.of_reach reach).drafts

end Runs

/-! ## A save is coming -/

section Scheduled

variable {s : State}

/-- Changes that can be saved and are not saved yet: a save is coming, or one has failed. -/
def Scheduled (s : State) : Prop :=
  s.dirty = true → s.canEdit = true →
    s.timer = true ∨ s.inFlight.isSome = true ∨ s.saveError = true

namespace Scheduled

/-- Going on leaves a save coming. -/
theorem goOn (h : Scheduled s) (act : Option Act) : Scheduled (s.goOn act) := by
  cases act with
  | none => exact h
  | some a =>
      rw [State.goOn, State.proceed]
      split
      · exact h
      · split_ifs
        · exact h
        · exact h

/-- So does what begins when no save is under way. -/
theorem begin_ (s : State) (act : Option Act) : Scheduled (s.begin_ act) := by
  rw [State.begin_]
  split_ifs with nothing
  · refine goOn (fun dirty editable => ?_) act
    rcases nothing with clean | locked
    · simp [clean] at dirty
    · simp [locked] at editable
  · exact goOn (fun dirty => by cases dirty) act
  · exact fun _ _ => .inr (.inl rfl)

/-- So does a save. -/
theorem save (s : State) (act : Option Act) : Scheduled (s.save act) := by
  rw [State.save]
  split
  next flying => exact fun _ _ => .inr (.inl (by simp only at flying; simp [flying]))
  next => exact begin_ _ act

/-- So does settling one. -/
theorem settle (s : State) (i : ℕ) (act : Option Act) : Scheduled (s.settle i act) := by
  have rearmed : Scheduled s.rearm := by
    rw [State.rearm]
    split_ifs with left
    · exact fun _ _ => .inl rfl
    · intro dirty _
      have failed : s.saveError = true := by simpa [dirty] using left
      exact .inr (.inr failed)
  have woken : ∀ (waiters : List Waiter) {t : State}, Scheduled t →
      Scheduled (waiters.foldl (fun t w => t.begin_ w.act) t) := by
    intro waiters
    induction waiters with
    | nil => exact fun h => h
    | cons w waiters ih => exact fun _ => ih (begin_ _ w.act)
  exact (woken (t := { s.rearm with waiting := s.rearm.waiting.filter (·.awaits ≠ i) }) _
    rearmed).goOn act

/-- At each event of a steady run a save stays coming. -/
theorem next [Unicode] [DocumentText] {s' : State} {e : Event} (h : Scheduled s)
    (steady : Steady s e)
    (step : s.next e = some s') : Scheduled s' := by
  cases e with
  | edit text =>
      obtain rfl := Option.some.inj step
      rw [State.edited]
      split_ifs with editable
      · exact fun _ _ => .inl rfl
      · exact h
  | fires =>
      simp only [State.next, Option.ite_none_right_eq_some, Option.some.injEq] at step
      obtain ⟨-, rfl⟩ := step
      exact save s none
  | save =>
      obtain rfl := Option.some.inj step
      exact save s none
  | act run =>
      simp only [State.next, Option.ite_none_right_eq_some, Option.some.injEq] at step
      obtain ⟨-, rfl⟩ := step
      exact save s _
  | handle i status =>
      simp only [State.next] at step
      split at step
      next v _ =>
        split_ifs at step
        cases status with
        | none =>
            obtain rfl := Option.some.inj step
            exact h
        | some status =>
            simp only at step
            split at step
            next =>
              obtain rfl := Option.some.inj step
              rw [State.store]
              split
              · exact h
              · exact h
            next => cases step
      next => cases step
  | answer i =>
      simp only [State.next] at step
      split at step
      next =>
        split at step
        next =>
          obtain rfl := Option.some.inj step
          exact settle _ i _
        next => cases step
      next => cases step
  | fail i =>
      simp only [State.next] at step
      split at step
      next =>
        split_ifs at step
        obtain rfl := Option.some.inj step
        exact settle _ i _
      next => cases step
  | acted j status =>
      simp only [State.next] at step
      split at step
      next a _ =>
        split_ifs at step
        obtain rfl := Option.some.inj step
        intro dirty editable
        refine h dirty ?_
        by_contra locked
        have locked' : s.canEdit = false := by simpa using locked
        obtain ⟨draft, changes⟩ := steady dirty locked'
        have admin : s.isAdmin = false := by
          cases is : s.isAdmin with
          | false => rfl
          | true =>
              rw [State.canEdit] at locked'
              split at locked' <;> simp [is] at locked'
        simp [State.canEdit, admin, draft, changes] at editable
      next => cases step
  | actFailed j =>
      simp only [State.next] at step
      split at step
      next =>
        split_ifs at step
        obtain rfl := Option.some.inj step
        exact h
      next => cases step

end Scheduled

/-- Changes that can be saved are always about to be, unless a save has failed since. -/
theorem scheduled_of_reach [Unicode] [DocumentText] (reach : machine.Reach Steady s) :
    Scheduled s := by
  refine reach.invariant ?_ fun h steady step => h.next steady step
  rintro t ⟨isAdmin, rfl | ⟨text, status, rfl⟩⟩ <;> exact fun dirty => by cases dirty

end Scheduled

/-! ## A run -/

section Run

/-- The text of the document an editor starts from. -/
abbrev blankText : DocumentText where
  stringify _ := "\x7b\"type\":\"doc\",\"content\":[\x7b\"type\":\"paragraph\"\x7d]\x7d"

attribute [local instance] Unicode.ascii blankText

/-- A working copy with a title and nothing else. -/
def titled (title : String) : WorkingCopy := { WorkingCopy.fresh with title := title }

/-- A draft that is changed while it is created, and submitted with the change. -/
def writing : List Event :=
  [.edit (titled "A"), .fires, .edit (titled "B"), .handle 0 (some .draft), .answer 0,
    .act (.submit none), .handle 1 (some .draft), .answer 1]

/-- In that run, a save is coming. -/
theorem scheduled_of_reach_writing :
    Scheduled (machine.after Steady (.new false) writing) :=
  scheduled_of_reach (Machine.reach_after ⟨false, .inl rfl⟩ (by decide +kernel))

/-- In that run there is one draft. -/
theorem drafts_le_writing :
    (machine.after Orderly (.new false) writing).rows.length ≤
      (machine.after Orderly (.new false) writing).lost + 1 :=
  drafts_le (Machine.reach_after ⟨false, .inl rfl⟩ (by decide +kernel))

/-- Two saves that wait for a `create` that fails both create. -/
example :
    (machine.after Machine.always (.new false)
      [.edit (titled "A"), .fires, .save, .save, .handle 0 none, .fail 0,
        .handle 1 (some .draft), .handle 2 (some .draft)]).rows.length = 2 := by
  decide +kernel

/-- A save that fails while another one waits for it: what it was made for is sent all the
same, on a text without the edit. -/
example :
    let s := machine.after Machine.always (.loaded false ⟨"A", "", "", "", .null, "", 1, []⟩ .draft)
      [.edit (titled "B"), .act (.submit none), .save, .handle 0 none, .fail 0]
    s.sent.map (·.act.asked) = [some 1] ∧ s.rows.map (·.text.title) = ["A"] := by
  decide +kernel

end Run

end ScoutPulse.Drafting
