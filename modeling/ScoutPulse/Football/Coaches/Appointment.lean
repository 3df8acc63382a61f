import ScoutPulse.Football.Coaches.Spells

/-!
# A coach's club and open spell

The club stored with a coach is that of the coach's open spell as long as no coach is
created with a club, no closed spell ends an open one, and no open spell is deleted:
the three requests that touch one of the two places only.
-/

namespace ScoutPulse.Coaches

open Outcome

/-- The spells of a coach that have no end date. -/
def openSpells (spells : List CoachSpell) (coachID : String) : List CoachSpell :=
  spells.filter fun x => x.coachID = coachID && x.endDate.isNone

/-- The club of a coach's open spell. -/
def currentTeam (spells : List CoachSpell) (coachID : String) : Option String :=
  (openSpells spells coachID).head?.bind fun spell => spell.teamID

/-- A coach has one open spell at most, and is at its club; without one, at none. -/
def AgreesAt (coaches : String → Option Coach) (spells : List CoachSpell) (coachID : String) :
    Prop :=
  ∀ coach, coaches coachID = some coach →
    (openSpells spells coachID).length ≤ 1 ∧ coach.teamID = currentTeam spells coachID

/-- Every coach's club is that of the coach's open spell. -/
def Agrees (s : Store) : Prop := ∀ coachID, AgreesAt s.coaches s.spells coachID

/-- The coach of an id is at no club. -/
def Unattached (coaches : String → Option Coach) (coachID : String) : Prop :=
  ∀ coach, coaches coachID = some coach → coach.teamID = none

/-- The condition on a request. A coach is created without a club; a closed spell that is
the latest is recorded of a coach at no club; a spell that is deleted is closed or at no
club. -/
def Harmless (s : Store) (label : Label) : Prop :=
  match label.request with
  | .createCoach coach => coach.teamID = none
  | .recordSpell spell => spell.endDate ≠ none →
      s.laterExists spell.coachID spell.startDate.day = false →
        Unattached s.coaches spell.coachID
  | .deleteSpell id => ∀ x ∈ s.spells, x.id = id → x.endDate = none → x.teamID = none
  | _ => True

instance (coaches : String → Option Coach) (coachID : String) :
    Decidable (Unattached coaches coachID) :=
  inferInstanceAs (Decidable (∀ coach ∈ coaches coachID, coach.teamID = none))

instance (s : Store) (label : Label) : Decidable (Harmless s label) :=
  match label with
  | ⟨_, _, .createCoach coach⟩ => inferInstanceAs (Decidable (coach.teamID = none))
  | ⟨_, _, .recordSpell spell⟩ => inferInstanceAs (Decidable (spell.endDate ≠ none →
      s.laterExists spell.coachID spell.startDate.day = false →
        Unattached s.coaches spell.coachID))
  | ⟨_, _, .deleteSpell id⟩ => inferInstanceAs (Decidable (∀ x ∈ s.spells, x.id = id →
      x.endDate = none → x.teamID = none))
  | ⟨_, _, .updateCoach _ _⟩ => .isTrue trivial
  | ⟨_, _, .deleteTeam _⟩ => .isTrue trivial

section Lists

variable {spells : List CoachSpell} {coachID other : String} {spell x : CoachSpell}

/-- One more spell is one more that is open, when it is of the coach and has no end. -/
theorem openSpells_append :
    openSpells (spells ++ [spell]) coachID =
      openSpells spells coachID ++
        if spell.coachID = coachID ∧ spell.endDate = none then [spell] else [] := by
  unfold openSpells
  rw [List.filter_append]
  by_cases counted : spell.coachID = coachID ∧ spell.endDate = none
  · simp [counted]
  · rw [if_neg counted]
    congr 1
    apply List.filter_eq_nil_iff.mpr
    intro y member
    rw [List.mem_singleton] at member
    subst member
    simpa using counted

theorem mem_openSpells : x ∈ openSpells spells coachID ↔
    x ∈ spells ∧ x.coachID = coachID ∧ x.endDate = none := by
  simp [openSpells]

/-- With no later spell on record, closing the previous ones leaves none open. -/
theorem openSpells_close {s : Store}
    (latest : s.laterExists spell.coachID spell.startDate = false) :
    openSpells (s.spells.map (Store.closePrevious spell)) spell.coachID = [] := by
  apply List.filter_eq_nil_iff.mpr
  intro y member
  obtain ⟨x, present, rfl⟩ := List.mem_map.mp member
  have early : x.coachID = spell.coachID → x.startDate ≤ spell.startDate := by
    intro own
    simp only [Store.laterExists, List.any_eq_false, Bool.and_eq_true, decide_eq_true_eq,
      not_and, not_lt] at latest
    exact latest x present own
  unfold Store.closePrevious
  split_ifs with closes
  · simp
  · simp only [Bool.and_eq_true, decide_eq_true_eq, Option.isNone_iff_eq_none]
    intro both
    exact closes ⟨both.1, both.2, early both.1⟩

theorem closePrevious_coachID : (Store.closePrevious spell x).coachID = x.coachID := by
  unfold Store.closePrevious
  split_ifs <;> rfl

/-- A statement on one coach's spells leaves the other coaches' open ones. -/
theorem openSpells_close_other (ne : other ≠ spell.coachID) :
    openSpells (spells.map (Store.closePrevious spell)) other = openSpells spells other := by
  unfold openSpells
  induction spells with
  | nil => rfl
  | cons x rest ih =>
      have kept : x.coachID = other → Store.closePrevious spell x = x := by
        intro own
        unfold Store.closePrevious
        rw [if_neg fun closes => ne (own.symm.trans closes.1)]
      rw [List.map_cons, List.filter_cons, List.filter_cons, ih]
      by_cases own : x.coachID = other
      · rw [kept own]
      · simp [closePrevious_coachID, own]

theorem openSpells_drop (id : String) :
    openSpells (spells.map fun x => { x with teamID := Store.dropTeam id x.teamID }) coachID =
      (openSpells spells coachID).map fun x => { x with teamID := Store.dropTeam id x.teamID } := by
  unfold openSpells
  rw [List.filter_map]
  rfl

end Lists

section Steps

variable {s s' : Store} {spell : CoachSpell} {coachID id : String} {coach : Coach}

/-- Every spell is some coach's. -/
def Owned (s : Store) : Prop := ∀ x ∈ s.spells, ∃ coach, s.coaches x.coachID = some coach

/-- Agreement at a coach depends on the coach's row and open spells only. -/
theorem AgreesAt.congr {coaches coaches' : String → Option Coach} {spells spells' : List CoachSpell}
    (agrees : AgreesAt coaches spells coachID) (row : coaches' coachID = coaches coachID)
    (open_ : openSpells spells' coachID = openSpells spells coachID) :
    AgreesAt coaches' spells' coachID := by
  unfold AgreesAt currentTeam at agrees ⊢
  rwa [row, open_]

/-- A coach without open spells agrees at no club. -/
theorem agreesAt_of_none {coaches : String → Option Coach} {spells : List CoachSpell}
    (none_ : openSpells spells coachID = []) :
    AgreesAt coaches spells coachID ↔ Unattached coaches coachID := by
  unfold AgreesAt currentTeam Unattached
  rw [none_]
  simp

theorem agreesAt_put {coaches : String → Option Coach} {spells : List CoachSpell} :
    AgreesAt (Function.update coaches coachID (some coach)) spells coachID ↔
      (openSpells spells coachID).length ≤ 1 ∧ coach.teamID = currentTeam spells coachID := by
  unfold AgreesAt
  simp only [Function.update_self, Option.some.injEq, forall_eq']

/-- A step that changes what is stored of one coach keeps agreement where it keeps it
there. -/
theorem Agrees.at_one (agrees : Agrees s) {coaches : String → Option Coach}
    {spells : List CoachSpell}
    (others : ∀ other, other ≠ id → coaches other = s.coaches other ∧
      openSpells spells other = openSpells s.spells other) :
    (∀ coachID, AgreesAt coaches spells coachID) ↔ AgreesAt coaches spells id := by
  constructor
  · intro all
    exact all id
  · intro here other
    by_cases same : other = id
    · subst same
      exact here
    · exact (agrees other).congr (others other same).1 (others other same).2

/-- What `Record` can do: file a closed spell behind a later one, end the open spells with a
closed one, or with an open one that becomes the coach's appointment. -/
theorem record_spec (recorded : s.record spell = .ok s') :
    (s.laterExists spell.coachID spell.startDate = true ∧ spell.endDate ≠ none ∧
      s' = { s with spells := s.spells ++ [spell] }) ∨
    (s.laterExists spell.coachID spell.startDate = false ∧ spell.endDate ≠ none ∧
      s' = { s with spells := s.spells.map (Store.closePrevious spell) ++ [spell] }) ∨
    (s.laterExists spell.coachID spell.startDate = false ∧ spell.endDate = none ∧
      ∃ coach, s.coaches spell.coachID = some coach ∧
        s' = { s with
          spells := s.spells.map (Store.closePrevious spell) ++ [spell]
          coaches := Function.update s.coaches spell.coachID
            (some { coach with teamID := spell.teamID }) }) := by
  unfold Store.record at recorded
  rw [guard_ok_iff] at recorded
  obtain ⟨possible, recorded⟩ := recorded
  obtain ⟨-, -, recorded⟩ := bind_ok_iff.mp recorded
  obtain ⟨-, -, recorded⟩ := bind_ok_iff.mp recorded
  by_cases later : s.laterExists spell.coachID spell.startDate = true
  · have closed : spell.endDate ≠ none := fun ended => possible ⟨later, ended⟩
    simp only [later, closed, false_and, if_true, if_false, pure_ok_iff] at recorded
    exact Or.inl ⟨later, closed, recorded.symm⟩
  · have latest := Bool.eq_false_iff.mpr later
    by_cases closed : spell.endDate = none
    · simp only [latest, closed, and_self, if_true, Bool.false_eq_true, if_false] at recorded
      obtain ⟨coach, found, recorded⟩ := bind_ok_iff.mp recorded
      rw [pure_ok_iff] at recorded
      refine Or.inr (Or.inr ⟨latest, closed, coach, ?_, recorded.symm⟩)
      unfold Store.getByID at found
      dsimp only at found
      cases row : s.coaches spell.coachID with
      | none =>
          rw [row] at found
          cases found
      | some coach' =>
          rw [row, pure_ok_iff] at found
          rw [found]
    · simp only [latest, closed, false_and, Bool.false_eq_true, if_false, pure_ok_iff] at recorded
      exact Or.inr (Or.inl ⟨latest, closed, recorded.symm⟩)

/-- A spell that is recorded leaves the coaches agreeing exactly when, if it has ended and no
later one is there, its coach is without a club. -/
theorem record_agrees_iff (agrees : Agrees s) (recorded : s.record spell = .ok s') :
    Agrees s' ↔ (spell.endDate ≠ none → s.laterExists spell.coachID spell.startDate = false →
      Unattached s.coaches spell.coachID) := by
  have filed : ∀ spells coachID, spell.endDate ≠ none →
      openSpells (spells ++ [spell]) coachID = openSpells spells coachID := by
    intro spells coachID closed
    rw [openSpells_append, if_neg fun both => closed both.2, List.append_nil]
  obtain ⟨later, closed, rfl⟩ | ⟨latest, closed, rfl⟩ | ⟨latest, ended, coach, found, rfl⟩ :=
    record_spec recorded
  · constructor
    · intro _ _ latest
      rw [later] at latest
      cases latest
    · intro _ coachID
      exact (agrees coachID).congr rfl (filed _ coachID closed)
  · have none_ := (filed _ spell.coachID closed).trans (openSpells_close latest)
    refine (agrees.at_one fun other ne =>
      ⟨rfl, (filed _ other closed).trans (openSpells_close_other ne)⟩).trans ?_
    refine (agreesAt_of_none none_).trans ?_
    exact ⟨fun free _ _ => free, fun free => free closed latest⟩
  · constructor
    · intro _ closed
      exact absurd ended closed
    · intro _
      have one : openSpells (s.spells.map (Store.closePrevious spell) ++ [spell])
          spell.coachID = [spell] := by
        rw [openSpells_append, openSpells_close latest, if_pos ⟨rfl, ended⟩, List.nil_append]
      have others : ∀ other, other ≠ spell.coachID →
          openSpells (s.spells.map (Store.closePrevious spell) ++ [spell]) other =
            openSpells s.spells other := by
        intro other ne
        rw [openSpells_append, if_neg fun both => ne both.1.symm, List.append_nil,
          openSpells_close_other ne]
      refine (agrees.at_one fun other ne =>
        ⟨Function.update_of_ne ne _ _, others other ne⟩).mpr ?_
      apply agreesAt_put.mpr
      unfold currentTeam
      rw [one]
      exact ⟨le_refl 1, rfl⟩

/-- A new coach has no spell yet. -/
theorem create_agrees_iff (owned : Owned s) (agrees : Agrees s) (fresh : s.coaches id = none)
    (coach : Coach) :
    Agrees { s with coaches := Function.update s.coaches id (some coach) } ↔
      coach.teamID = none := by
  have nothing : openSpells s.spells id = [] := by
    apply List.filter_eq_nil_iff.mpr
    intro x member own
    simp only [Bool.and_eq_true, decide_eq_true_eq] at own
    obtain ⟨row, found⟩ := owned x member
    rw [own.1, fresh] at found
    cases found
  refine (agrees.at_one fun other ne => ⟨Function.update_of_ne ne _ _, rfl⟩).trans ?_
  rw [agreesAt_put, currentTeam, nothing]
  simp

theorem update_agrees (agrees : Agrees s) (found : s.coaches id = some coach)
    (details : CoachDetails) :
    Agrees { s with
      coaches := Function.update s.coaches id (some { coach with details := details }) } := by
  refine (agrees.at_one fun other ne => ⟨Function.update_of_ne ne _ _, rfl⟩).mpr ?_
  exact agreesAt_put.mpr (agrees id coach found)

/-- A spell that is deleted leaves the coaches agreeing exactly when it has ended or has no
club. -/
theorem delete_agrees_iff (owned : Owned s) (agrees : Agrees s) :
    Agrees { s with spells := s.spells.filter (·.id ≠ id) } ↔
      ∀ x ∈ s.spells, x.id = id → x.endDate = none → x.teamID = none := by
  have left : ∀ coachID, openSpells (s.spells.filter (·.id ≠ id)) coachID =
      (openSpells s.spells coachID).filter (·.id ≠ id) := by
    intro coachID
    unfold openSpells
    rw [List.filter_filter, List.filter_filter]
    congr 1
    funext x
    exact Bool.and_comm _ _
  -- a coach has one open spell at most, so the deletion leaves it or leaves none
  have one : ∀ x ∈ s.spells, x.endDate = none → ∀ coach, s.coaches x.coachID = some coach →
      openSpells s.spells x.coachID = [x] := by
    intro x member open_ coach found
    have few := (agrees x.coachID coach found).1
    have here : x ∈ openSpells s.spells x.coachID := mem_openSpells.mpr ⟨member, rfl, open_⟩
    cases spells : openSpells s.spells x.coachID with
    | nil =>
        rw [spells] at here
        cases here
    | cons y rest =>
        rw [spells, List.length_cons] at few
        have none_ : rest = [] := List.length_eq_zero_iff.mp (by omega)
        rw [spells, none_, List.mem_singleton] at here
        rw [none_, here]
  constructor
  · intro after x member named open_
    obtain ⟨coach, found⟩ := owned x member
    have only := one x member open_ coach found
    have before := (agrees x.coachID coach found).2
    have gone := (after x.coachID coach found).2
    unfold currentTeam at before gone
    rw [only] at before
    rw [left, only] at gone
    simp only [ne_eq, named, not_true_eq_false, decide_false, List.filter_cons_of_neg,
      List.filter_nil, List.head?_nil, Option.bind_none, Bool.false_eq_true,
      not_false_eq_true] at gone
    simpa [gone] using before.symm
  · intro free coachID coach found
    obtain ⟨few, before⟩ := agrees coachID coach found
    unfold currentTeam at before ⊢
    dsimp only
    rw [left]
    refine ⟨(List.length_filter_le _ _).trans few, ?_⟩
    cases spells : openSpells s.spells coachID with
    | nil =>
        rw [spells] at before
        exact before
    | cons x rest =>
        rw [spells] at before few
        have none_ : rest = [] := List.length_eq_zero_iff.mp (by
          rw [List.length_cons] at few
          omega)
        subst none_
        by_cases named : x.id = id
        · have present : x ∈ openSpells s.spells coachID := by
            rw [spells]
            exact List.mem_cons_self
          obtain ⟨member, -, open_⟩ := mem_openSpells.mp present
          have nowhere := free x member named open_
          simpa [named, nowhere] using before
        · simpa [named] using before

/-- A club that is deleted leaves the coaches agreeing: both lose it. -/
theorem deleteTeam_agrees (agrees : Agrees s) (id : String) (teams : String → Bool) :
    Agrees {
      teams := teams
      coaches := fun k => (s.coaches k).map fun c => { c with teamID := Store.dropTeam id c.teamID }
      spells := s.spells.map fun x => { x with teamID := Store.dropTeam id x.teamID } } := by
  intro coachID row stored
  obtain ⟨coach, found, rfl⟩ := Option.map_eq_some_iff.mp stored
  obtain ⟨few, before⟩ := agrees coachID coach found
  unfold currentTeam at before ⊢
  dsimp only
  rw [openSpells_drop, List.length_map]
  refine ⟨few, ?_⟩
  rw [before]
  cases openSpells s.spells coachID with
  | nil => rfl
  | cons x rest => rfl

theorem getByID_ok (found : s.getByID id = .ok coach) : s.coaches id = some coach := by
  unfold Store.getByID at found
  cases row : s.coaches id with
  | none =>
      rw [row] at found
      cases found
  | some other =>
      rw [row, pure_ok_iff] at found
      rw [found]

/-- The checks change nothing of a spell but its role. -/
theorem validateSpell_ok {spell spell' : SentSpell} {horizon : ℤ}
    (valid : validateSpell spell horizon = .ok spell') :
    spell' = { spell with role := spell'.role } := by
  simp only [validateSpell, guard_ok_iff] at valid
  obtain ⟨-, -, -, -, valid⟩ := valid
  split_ifs at valid <;>
    · simp only [pure_ok_iff] at valid
      rw [← valid.2]

/-- A request that goes through keeps every coach's club and open spell in agreement exactly
when it is harmless. -/
theorem serve_agrees_iff {caller : Caller} {d : Draw} {request : Request} (owned : Owned s)
    (agrees : Agrees s) (fresh : s.coaches d.id = none)
    (served : s.serve caller d request = .ok s') :
    Agrees s' ↔ Harmless s ⟨caller, d, request⟩ := by
  cases request with
  | createCoach coach =>
      simp only [Store.serve, bind_ok_iff, pure_ok_iff] at served
      obtain ⟨-, -, -, -, -, -, rfl⟩ := served
      exact create_agrees_iff owned agrees fresh coach
  | recordSpell spell =>
      simp only [Store.serve, bind_ok_iff] at served
      obtain ⟨checked, valid, coach, -, -, -, recorded⟩ := served
      have same := validateSpell_ok valid
      rw [record_agrees_iff agrees recorded, same]
      simp [CoachSpellOf.kept, Harmless]
  | updateCoach id details =>
      simp only [Store.serve, bind_ok_iff, pure_ok_iff] at served
      obtain ⟨coach, found, -, -, -, -, rfl⟩ := served
      exact iff_of_true (update_agrees agrees (getByID_ok found) details) trivial
  | deleteSpell id =>
      simp only [Store.serve, bind_ok_iff, guard_ok_iff, pure_ok_iff] at served
      obtain ⟨-, -, -, rfl⟩ := served
      exact delete_agrees_iff owned agrees
  | deleteTeam id =>
      simp only [Store.serve, bind_ok_iff, guard_ok_iff, pure_ok_iff] at served
      obtain ⟨-, -, -, rfl⟩ := served
      exact iff_of_true (deleteTeam_agrees agrees id _) trivial

/-- A request keeps every spell some coach's. -/
theorem serve_owned {caller : Caller} {d : Draw} {request : Request} (owned : Owned s)
    (served : s.serve caller d request = .ok s') : Owned s' := by
  have put : ∀ {coaches : String → Option Coach} (id : String) (row : Coach) (k : String),
      (∃ coach, coaches k = some coach) →
        ∃ coach, Function.update coaches id (some row) k = some coach := by
    intro coaches id row k present
    by_cases same : k = id
    · subst same
      exact ⟨row, Function.update_self ..⟩
    · rwa [Function.update_of_ne same]
  cases request with
  | createCoach coach =>
      simp only [Store.serve, bind_ok_iff, pure_ok_iff] at served
      obtain ⟨-, -, -, -, -, -, rfl⟩ := served
      exact fun x member => put d.id coach x.coachID (owned x member)
  | recordSpell spell =>
      simp only [Store.serve, bind_ok_iff] at served
      obtain ⟨checked, valid, coach, found, -, -, recorded⟩ := served
      have filed : ∀ x ∈ s.spells ++ [{ checked.kept with id := d.id }],
          ∃ coach, s.coaches x.coachID = some coach := by
        intro x member
        obtain old | new := List.mem_append.mp member
        · exact owned x old
        · rw [List.mem_singleton] at new
          exact ⟨coach, new ▸ getByID_ok found⟩
      have closed : ∀ x ∈ s.spells.map (Store.closePrevious { checked.kept with id := d.id }) ++
          [{ checked.kept with id := d.id }], ∃ coach, s.coaches x.coachID = some coach := by
        intro x member
        obtain old | new := List.mem_append.mp member
        · obtain ⟨y, present, rfl⟩ := List.mem_map.mp old
          rw [closePrevious_coachID]
          exact owned y present
        · exact filed x (List.mem_append_right _ new)
      obtain ⟨-, -, rfl⟩ | ⟨-, -, rfl⟩ | ⟨-, -, row, -, rfl⟩ := record_spec recorded
      · exact filed
      · exact closed
      · exact fun x member => put _ _ x.coachID (closed x member)
  | updateCoach id details =>
      simp only [Store.serve, bind_ok_iff, pure_ok_iff] at served
      obtain ⟨coach, found, -, -, -, -, rfl⟩ := served
      exact fun x member => put id _ x.coachID (owned x member)
  | deleteSpell id =>
      simp only [Store.serve, bind_ok_iff, guard_ok_iff, pure_ok_iff] at served
      obtain ⟨-, -, -, rfl⟩ := served
      exact fun x member => owned x (List.mem_filter.mp member).1
  | deleteTeam id =>
      simp only [Store.serve, bind_ok_iff, guard_ok_iff, pure_ok_iff] at served
      obtain ⟨-, -, -, rfl⟩ := served
      intro x member
      obtain ⟨y, present, rfl⟩ := List.mem_map.mp member
      obtain ⟨coach, found⟩ := owned y present
      exact ⟨_, Option.map_eq_some_iff.mpr ⟨coach, found, rfl⟩⟩

/-- **A coach's club is that of the coach's open spell**, in every state that harmless
requests lead to. -/
theorem coach_agrees (reach : appointments.Reach Harmless s) : Agrees s := by
  have both : Owned s ∧ Agrees s := by
    apply reach.invariant
    · intro t start
      obtain ⟨coaches, spells⟩ := start
      refine ⟨?_, ?_⟩
      · intro x member
        rw [spells] at member
        cases member
      · intro coachID coach found
        rw [coaches] at found
        cases found
    · intro t t' label kept harmless next
      simp only [appointments] at next
      split_ifs at next with fresh
      cases served : t.serve label.caller label.draw label.request with
      | error reason =>
          rw [served, Option.some.injEq] at next
          rwa [← next]
      | ok after =>
          rw [served, Option.some.injEq] at next
          subst next
          have unused : t.coaches label.draw.id = none := by
            rw [Store.fresh, Bool.and_eq_true] at fresh
            exact Option.isNone_iff_eq_none.mp fresh.1
          exact ⟨serve_owned kept.1 served,
            (serve_agrees_iff kept.1 kept.2 unused served).mpr harmless⟩
  exact both.2

end Steps

section Runs

/-- Two clubs and no coach. -/
def founded : Store where
  teams team := team ∈ ["home", "away"]
  coaches _ := none
  spells := []

/-- A request of an administrator. -/
def byAdmin (id : String) (request : Request) : Label :=
  ⟨⟨some ⟨"root", .admin, "root"⟩, fun _ _ => .ok false⟩, ⟨id, Dates.midnight 1000⟩, request⟩

def unnamed : CoachDetails := ⟨"Kim", none, none, none, none, none⟩

/-- Create a coach, at a club or at none. -/
def hire (teamID : Option String) : Label := byAdmin "kim" (.createCoach ⟨teamID, unnamed⟩)

/-- Record a spell of that coach. -/
def engage (id teamID : String) (startDate : Date) (endDate : Option Date) : Label :=
  byAdmin id (.recordSpell
    ⟨"", "kim", some teamID, "", Dates.ofDay startDate, endDate.map Dates.ofDay⟩)

/-- A coach moves from one club to another, and an old spell is filed. -/
def career : List Label :=
  [hire none, engage "first" "home" 100 none, engage "second" "away" 200 none,
    engage "third" "home" 50 (some 60)]

/-- In a career whose steps all meet the condition, the coach agrees. -/
theorem coach_agrees_career :
    let s := appointments.after Harmless founded career
    Agrees s ∧ (s.coaches "kim").bind Coach.teamID = some "away" :=
  ⟨coach_agrees (Machine.reach_after ⟨rfl, rfl⟩ (by decide +kernel)), by decide +kernel⟩

/-- Whether a coach's club is not that of the coach's open spell. -/
def Store.apart (s : Store) (coachID : String) : Bool :=
  (s.coaches coachID).any fun coach => coach.teamID ≠ currentTeam s.spells coachID

/-- Where a coach and their spells are apart, not all agree. -/
theorem not_agrees {s : Store} {coachID : String} (apart : s.apart coachID = true) :
    ¬ Agrees s := by
  intro agrees
  unfold Store.apart at apart
  cases found : s.coaches coachID with
  | none => simp [found] at apart
  | some coach =>
      rw [found] at apart
      exact of_decide_eq_true apart (agrees coachID coach found).2

/-- A coach is created at a club. -/
def createdAtClub : List Label := [hire (some "home")]

/-- An appointment is ended by a closed spell. -/
def endedByClosed : List Label :=
  [hire none, engage "first" "home" 100 none, engage "second" "away" 200 (some 300)]

/-- An appointment is deleted. -/
def deletedSpell : List Label :=
  [hire none, engage "first" "home" 100 none, byAdmin "unused" (.deleteSpell "first")]

/-- A run ends with a coach's club and spells apart. -/
def Parts (run : List Label) : Prop :=
  let s := appointments.after Machine.always founded run
  appointments.Reach Machine.always s ∧ ¬ Agrees s

theorem parts_of_apart {run : List Label}
    (taken : (appointments.run Machine.always founded run).isSome = true)
    (apart : (appointments.after Machine.always founded run).apart "kim" = true) : Parts run :=
  ⟨Machine.reach_after ⟨rfl, rfl⟩ taken, not_agrees apart⟩

/-- Three ways apart. -/
theorem coach_disagrees : Parts createdAtClub ∧ Parts endedByClosed ∧ Parts deletedSpell := by
  refine ⟨parts_of_apart ?_ ?_, parts_of_apart ?_ ?_, parts_of_apart ?_ ?_⟩ <;> decide +kernel

end Runs

end ScoutPulse.Coaches
