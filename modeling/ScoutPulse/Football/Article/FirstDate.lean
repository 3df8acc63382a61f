import ScoutPulse.Football.Article.Review
import ScoutPulse.Lib.Timeline
import Mathlib.Order.Bounds.Basic

/-!
# The first publication date

The desk in time: requests one after the other, each at a moment of its own, with every
state of the table between them, so that it can be said when readers saw an article.
-/

namespace ScoutPulse.Articles

open Strings Outcome

/-! ## The desk in time -/

/-- A request at a moment, with the suffix and the key drawn for a new row, or time that
passes. -/
inductive Moment
  | serve (caller : Option Claims) (operation : Operation) (now : Time) (suffix id : String)
  | wait (now : Time)

section Step

variable [Unicode]

/-- A request on its own, from its read to its statement. An insert is shown with the last
suffix it draws: the ones before change nothing. -/
def serve (d : Desk) (caller : Option Claims) (operation : Operation) (now : Time)
    (suffix id : String) : Option Desk :=
  match decideWrite d caller now operation with
  | .error _ => some d
  | .ok p =>
      (sendWrite { d with pending := [p] } 0 p suffix id).map fun d' => { d' with pending := [] }

/-- The desk from an empty table, with the clock. -/
def chronicle : Machine (Timeline Time Desk) Moment where
  start t := t.value = .empty ∧ t.past = []
  next t
    | .serve caller operation now suffix id =>
        if t.now ≤ now then (serve t.value caller operation now suffix id).map (t.become now ·)
        else none
    | .wait now => if t.now ≤ now then some (t.become now t.value) else none

/-- `Update` has the article's address follow its title. -/
def FollowsTitle (a : Article) : Prop :=
  ∀ claims input a', update claims a input = .ok a' →
    a'.slug = articleSlug a'.title (slugSuffix a.slug)

end Step

/-- Readers saw an article at a moment. -/
def LiveAt (t : Timeline Time Desk) (id : String) (m : Time) : Prop :=
  ∃ d, t.At m d ∧ ∃ a, d.rows id = some a ∧ a.live m = true

/-- An article is published for a time that is still ahead. -/
def Article.scheduled (a : Article) (now : Time) : Bool :=
  a.status = .published && a.publishAt.any (now < ·)

/-- The first publication date is when readers first saw an article, and there is none
before an article is scheduled or seen. -/
def FirstSeen [Unicode] (t : Timeline Time Desk) : Prop :=
  ∀ id a, t.value.rows id = some a →
    (a.live t.now = true → ∃ first, a.firstPublishedAt = some first ∧ first ≤ t.now ∧
      IsLeast {m | LiveAt t id m} first) ∧
    ((∀ m, ¬ LiveAt t id m) → a.scheduled t.now = false →
      a.firstPublishedAt = none ∧ FollowsTitle a)

/-- An article is published, and its first date is still ahead. -/
def Article.awaits (a : Article) (now : Time) : Bool :=
  a.status = .published && a.firstPublishedAt.any (now < ·)

/-- The article a caller's request reads. -/
def Desk.reads (d : Desk) (caller : Option Claims) (id : String) : Option (Claims × Article) :=
  match writer caller with
  | .error _ => none
  | .ok claims =>
      match reachable claims (d.rows id) with
      | .error _ => none
      | .ok a => some (claims, a)

section Condition

variable [Unicode]

/-- The condition on a step: an article whose first date is still ahead is neither withdrawn
nor published for another time. -/
def Awaited (t : Timeline Time Desk) : Moment → Prop
  | .serve caller (.withdraw id) now _ _ => ∀ x ∈ t.value.reads caller id, x.2.awaits now = false
  | .serve caller (.submit id publishAt) now _ _ => ∀ x ∈ t.value.reads caller id,
      x.1.role = .admin → (readyToSubmit x.2).isOk = true → x.2.awaits now = true →
        ∀ wanted ∈ (requestedTime publishAt now).toOption, wanted = x.2.firstPublishedAt
  | _ => True

instance (t : Timeline Time Desk) (label : Moment) : Decidable (Awaited t label) :=
  match label with
  | .serve caller (.withdraw id) now _ _ => inferInstanceAs (Decidable
      (∀ x ∈ t.value.reads caller id, x.2.awaits now = false))
  | .serve caller (.submit id publishAt) now _ _ => inferInstanceAs (Decidable
      (∀ x ∈ t.value.reads caller id,
        x.1.role = .admin → (readyToSubmit x.2).isOk = true → x.2.awaits now = true →
          ∀ wanted ∈ (requestedTime publishAt now).toOption, wanted = x.2.firstPublishedAt))
  | .serve _ (.create _) _ _ _ => .isTrue trivial
  | .serve _ (.update _ _) _ _ _ => .isTrue trivial
  | .serve _ (.requestChanges _ _) _ _ _ => .isTrue trivial
  | .serve _ (.delete _) _ _ _ => .isTrue trivial
  | .wait _ => .isTrue trivial

end Condition

/-! ## What a request does to the dates -/

/-- What becomes of the state and the dates of a row. -/
inductive Retimes (now : Time) (read a : Article) : Prop
  | kept (status : a.status = read.status) (publishAt : a.publishAt = read.publishAt)
      (first : a.firstPublishedAt = read.firstPublishedAt)
  | shelved (status : a.status ≠ .published) (first : a.firstPublishedAt = read.firstPublishedAt)
      (settled : read.awaits now = false)
  | published (time : Time) (status : a.status = .published) (publishAt : a.publishAt = some time)
      (first : a.firstPublishedAt = read.firstPublishedAt.or (some time)) (ahead : now ≤ time)
      (unseen : read.live now = false)
      (settled : read.awaits now = true → read.firstPublishedAt = some time)

section Operations

variable {claims : Claims} {read a : Article} {now : Time}

theorem awaits_of_unpublished (unpublished : read.status ≠ .published) :
    read.awaits now = false := by
  simp [Article.awaits, unpublished]

/-- A withdrawal retimes an article, when its first date is not ahead. -/
theorem withdraw_retimes (withdrawn : withdraw read = .ok a) (settled : read.awaits now = false) :
    Retimes now read a := by
  simp only [withdraw] at withdrawn
  split_ifs at withdrawn
  · cases withdrawn
    exact .shelved (by simp) rfl settled
  · cases withdrawn
    exact .shelved (by simp) rfl settled

/-- A request for changes retimes an article. -/
theorem requestChanges_retimes {note : String}
    (sent : requestChanges claims read note now = .ok a) : Retimes now read a := by
  simp only [requestChanges, guard_ok_iff, pure_ok_iff] at sent
  obtain ⟨inReview, -, -, rfl⟩ := sent
  refine .shelved (by simp) rfl (awaits_of_unpublished ?_)
  rw [not_not.mp inReview]
  exact nofun

/-- A time that is asked for lies ahead. -/
theorem requestedTime_ahead {publishAt : Option Time} {time : Time}
    (requested : requestedTime publishAt now = .ok (some time)) : now < time := by
  cases publishAt with
  | none => cases requested
  | some asked =>
      simp only [requestedTime] at requested
      split_ifs at requested with far past
      · cases requested
      · rw [Except.ok.injEq, Option.some.injEq] at requested
        rw [← requested]
        exact not_le.mp past

/-- A publication retimes an article, when its first date is not ahead or is the one asked for.
-/
theorem publish_retimes {publishAt : Option Time}
    (published : publish claims read publishAt now = .ok a)
    (ahead : ∀ time, publishAt = some time → now < time)
    (settled : read.awaits now = true → publishAt = read.firstPublishedAt) :
    Retimes now read a := by
  simp only [publish, guard_ok_iff, pure_ok_iff] at published
  obtain ⟨unseen, rfl⟩ := published
  refine .published _ rfl rfl rfl ?_ (Bool.eq_false_iff.mpr unseen) ?_
  · cases publishAt with
    | some time => exact (ahead time rfl).le
    | none =>
        rw [Option.none_or]
        cases wanted : read.publishAt.filter fun t => read.status = .inReview ∧ now < t with
        | none => exact le_rfl
        | some time =>
            have kept := (Option.filter_eq_some_iff.mp wanted).2
            rw [decide_eq_true_eq] at kept
            exact kept.2.le
  · intro awaits
    rw [settled awaits]
    have dated := awaits
    simp only [Article.awaits, Bool.and_eq_true, Option.any_eq_true] at dated
    obtain ⟨-, first, same, -⟩ := dated
    rw [same]
    rfl

variable [Unicode]

theorem applyArticleInput_publishAt {input : ArticleInput}
    (applied : applyArticleInput read input = .ok a) : a.publishAt = read.publishAt := by
  simp only [applyArticleInput, guard_ok_iff, bind_ok_iff, pure_ok_iff] at applied
  obtain ⟨-, -, -, -, -, facts, -, tags, -, rfl⟩ := applied
  rfl

/-- An update retimes an article. -/
theorem update_retimes {input : ArticleInput} (updated : update claims read input = .ok a) :
    Retimes now read a := by
  simp only [update, guard_ok_iff, bind_ok_iff, pure_ok_iff] at updated
  obtain ⟨-, -, applied, applies, rfl⟩ := updated
  obtain ⟨-, -, status, first⟩ := applyArticleInput_keeps applies
  have publishAt := applyArticleInput_publishAt applies
  split_ifs with unpublished
  · exact .kept status publishAt first
  · exact .kept status publishAt first

/-- A submission retimes an article, under the condition for a publication. -/
theorem submit_retimes {publishAt : Option Time}
    (submitted : submit claims read publishAt now = .ok a)
    (settled : claims.role = .admin → (readyToSubmit read).isOk = true →
      read.awaits now = true →
      ∀ wanted ∈ (requestedTime publishAt now).toOption, wanted = read.firstPublishedAt) :
    Retimes now read a := by
  simp only [submit, bind_ok_iff] at submitted
  obtain ⟨⟨⟩, ready, wanted, requested, submitted⟩ := submitted
  by_cases admin : claims.role = .admin
  · rw [if_pos admin] at submitted
    refine publish_retimes submitted ?_ ?_
    · rintro time rfl
      exact requestedTime_ahead requested
    · intro awaits
      exact settled admin (by rw [ready]; rfl) awaits wanted (by rw [requested]; rfl)
  · rw [if_neg admin] at submitted
    split_ifs at submitted with reviewed published
    obtain ⟨rfl⟩ := pure_ok_iff.mp submitted
    exact .shelved (by simp) rfl (awaits_of_unpublished published)

/-- While nothing has been published, an article's address follows its title. -/
theorem followsTitle (unpublished : a.firstPublishedAt = none) : FollowsTitle a := by
  intro claims input a' updated
  simp only [update, guard_ok_iff, bind_ok_iff, pure_ok_iff] at updated
  obtain ⟨-, -, applied, applies, rfl⟩ := updated
  obtain ⟨slug, -, -, first⟩ := applyArticleInput_keeps applies
  rw [if_pos (first.trans unpublished), slug]

end Operations

/-! ## What a request does to the table -/

section Requests

variable {t : Timeline Time Desk} {d d' : Desk} {caller : Option Claims}
  {operation : Operation} {now : Time} {suffix id : String} {p : Pending}

theorem reads_of_reachable {claims : Claims} {a : Article} (allowed : writer caller = .ok claims)
    (reached : reachable claims (d.rows id) = .ok a) : (claims, a) ∈ d.reads caller id := by
  rw [Desk.reads, allowed]
  simp only [reached]
  exact rfl

/-- Writing over an article retimes it as the decision does. -/
theorem Retimes.overwrite {read a : Article} (retimes : Retimes now read a) :
    Retimes now read (overwrite read a) := by
  cases retimes with
  | kept status publishAt first => exact .kept status publishAt first
  | shelved status first settled => exact .shelved status first settled
  | published time status publishAt first ahead unseen settled =>
      exact .published time status publishAt first ahead unseen settled

theorem Ordered.idle (ordered : Ordered d) : Ordered { d with pending := [] } :=
  ⟨ordered.keyed, List.forall_mem_nil _, List.forall_mem_nil _, List.forall_mem_nil _⟩

/-- What a statement does to the dates: a draft has none. -/
def Write.Dates (now : Time) : Write → Prop
  | .insert a _ => a.status = .draft ∧ a.firstPublishedAt = none
  | .store read a => Retimes now read a
  | .remove _ => True

variable [Unicode]

/-- What is decided has its dates in order. -/
theorem decideWrite_dates (decided : decideWrite t.value caller now operation = .ok p)
    (awaited : Awaited t (.serve caller operation now suffix id)) : p.write.Dates now := by
  rw [decideWrite, bind_ok_iff] at decided
  obtain ⟨claims, allowed, decided⟩ := decided
  cases operation with
  | create input =>
      simp only [guard_ok_iff, bind_ok_iff, pure_ok_iff] at decided
      obtain ⟨a, drafted, -, rfl⟩ := decided
      obtain ⟨-, -, status, first⟩ := applyArticleInput_keeps drafted
      exact ⟨status, first⟩
  | update id input =>
      simp only [bind_ok_iff, pure_ok_iff] at decided
      obtain ⟨read, -, a, updated, rfl⟩ := decided
      exact update_retimes updated
  | submit id publishAt =>
      simp only [bind_ok_iff, pure_ok_iff] at decided
      obtain ⟨read, reached, a, submitted, rfl⟩ := decided
      exact submit_retimes submitted (awaited _ (reads_of_reachable allowed reached))
  | requestChanges id note =>
      simp only [bind_ok_iff, pure_ok_iff] at decided
      obtain ⟨⟨⟩, -, read, -, a, sent, rfl⟩ := decided
      exact requestChanges_retimes sent
  | withdraw id =>
      simp only [bind_ok_iff, pure_ok_iff] at decided
      obtain ⟨read, reached, a, withdrawn, rfl⟩ := decided
      exact withdraw_retimes withdrawn (awaited _ (reads_of_reachable allowed reached))
  | delete id =>
      simp only [bind_ok_iff, pure_ok_iff] at decided
      obtain ⟨read, -, ⟨⟩, -, rfl⟩ := decided
      trivial

/-- A request is refused, or its statement is sent. -/
theorem serve_cases (served : serve d caller operation now suffix id = some d') :
    d' = d ∨ ∃ p d'', decideWrite d caller now operation = .ok p ∧
      Sent { d with pending := [p] } p d'' ∧ d' = { d'' with pending := [] } := by
  unfold serve at served
  split at served
  · exact Or.inl (Option.some.inj served).symm
  · rename_i p decided
    obtain ⟨d'', sent, rfl⟩ := Option.map_eq_some_iff.mp served
    exact Or.inr ⟨p, d'', decided, sendWrite_sent sent, rfl⟩

theorem ordered_decided (ordered : Ordered d)
    (decided : decideWrite d caller now operation = .ok p) :
    Ordered { d with pending := [p] } := by
  obtain ⟨-, warranted, read⟩ := decideWrite_ok decided
  exact ordered.idle.arrive warranted read

theorem serve_ordered (ordered : Ordered d)
    (served : serve d caller operation now suffix id = some d') : Ordered d' := by
  obtain rfl | ⟨p, d'', decided, sent, rfl⟩ := serve_cases served
  · exact ordered
  · exact ((ordered_decided ordered decided).sent List.mem_cons_self sent).idle

/-- An id that has been given out stays given out. -/
theorem serve_issued (served : serve d caller operation now suffix id = some d')
    {other : String} (issued : other ∈ d.issued) : other ∈ d'.issued := by
  obtain rfl | ⟨p, d'', decided, sent, rfl⟩ := serve_cases served
  · exact issued
  · cases sent with
    | nothing => exact issued
    | inserted => exact List.mem_cons_of_mem _ issued
    | stored => exact issued
    | removed => exact issued

/-- A row after a request is a draft under a new id, or was there before. -/
theorem serve_rows (ordered : Ordered t.value)
    (awaited : Awaited t (.serve caller operation now suffix id))
    (served : serve t.value caller operation now suffix id = some d') {id' : String} {a : Article}
    (found : d'.rows id' = some a) :
    (∃ read, t.value.rows id' = some read ∧ Retimes now read a) ∨
      (id' ∉ t.value.issued ∧ a.status ≠ .published ∧ a.firstPublishedAt = none) := by
  obtain rfl | ⟨p, d'', decided, sent, rfl⟩ := serve_cases served
  · exact Or.inl ⟨a, found, .kept rfl rfl rfl⟩
  · have dates := decideWrite_dates decided awaited
    cases sent with
    | nothing => exact Or.inl ⟨a, found, .kept rfl rfl rfl⟩
    | inserted a' n id'' suffix' pending write fresh =>
        obtain ⟨rfl, rfl⟩ | ⟨-, old⟩ := Rows.put_eq_some.mp found
        · rw [write] at dates
          obtain ⟨status, first⟩ := dates
          refine Or.inr ⟨fresh, ?_, first⟩
          rw [status]
          exact nofun
        · exact Or.inl ⟨a, old, .kept rfl rfl rfl⟩
    | stored read a' row pending write current =>
        obtain ⟨rfl, rfl⟩ | ⟨-, old⟩ := Rows.put_eq_some.mp found
        · obtain ⟨-, -, copies⟩ := decideWrite_ok decided
          obtain ⟨key, stored⟩ := copies read (by rw [write]; rfl)
          obtain ⟨rfl, -⟩ := ordered.keyed key read stored
          obtain rfl : row = read := Option.some.inj (current.symm.trans stored)
          rw [write] at dates
          exact Or.inl ⟨row, stored, Retimes.overwrite dates⟩
        · exact Or.inl ⟨a, old, .kept rfl rfl rfl⟩
    | removed read pending write =>
        exact Or.inl ⟨a, (Rows.delete_eq_some.mp found).2, .kept rfl rfl rfl⟩

end Requests

/-! ## The run -/

/-- What is known of a row's first date: nothing has been published, readers have seen the
article and the date says since when, or it is still ahead. -/
inductive Dated (t : Timeline Time Desk) (id : String) (a : Article) : Prop
  | unseen (status : a.status ≠ .published) (first : a.firstPublishedAt = none)
      (never : ∀ m, ¬ LiveAt t id m)
  | seen (first : Time) (dated : a.firstPublishedAt = some first)
      (least : IsLeast {m | LiveAt t id m} first)
  | ahead (first : Time) (dated : a.firstPublishedAt = some first) (status : a.status = .published)
      (publishAt : a.publishAt = some first) (future : t.now < first)
      (never : ∀ m, ¬ LiveAt t id m)

theorem live_iff {a : Article} {m : Time} :
    a.live m = true ↔ a.status = .published ∧ ∃ time, a.publishAt = some time ∧ time ≤ m := by
  cases publishAt : a.publishAt with
  | none => simp [Article.live, publishAt]
  | some time => simp [Article.live, publishAt]

/-- An article whose time lies ahead is not live. -/
theorem not_live_of_ahead {a : Article} {now time : Time} (publishAt : a.publishAt = some time)
    (ahead : now < time) : a.live now = false := by
  rw [Bool.eq_false_iff]
  intro live
  obtain ⟨-, time', at', passed⟩ := live_iff.mp live
  obtain rfl := Option.some.inj (publishAt.symm.trans at')
  exact absurd ahead (not_lt.mpr passed)

section Clock

variable {t : Timeline Time Desk} {d' : Desk} {id : String} {read a : Article} {later m : Time}

/-- While time passes an article is seen as its row says. -/
theorem liveAt_wait (forward : t.now ≤ later) :
    LiveAt (t.become later t.value) id m ↔ LiveAt t id m ∨
      (t.now ≤ m ∧ m ≤ later ∧ ∃ a, t.value.rows id = some a ∧ a.live m = true) := by
  constructor
  · rintro ⟨d, seen, live⟩
    obtain (before | ⟨since, till, rfl⟩) | ⟨rfl, rfl⟩ := (Timeline.at_become forward).mp seen
    · exact Or.inl ⟨d, before, live⟩
    · exact Or.inr ⟨since, till, live⟩
    · exact Or.inr ⟨forward, le_rfl, live⟩
  · rintro (⟨d, before, live⟩ | ⟨since, till, live⟩)
    · exact ⟨d, (Timeline.at_become forward).mpr (Or.inl (Or.inl before)), live⟩
    · exact ⟨_, (Timeline.at_become forward).mpr (Or.inl (Or.inr ⟨since, till, rfl⟩)), live⟩

/-- A change shows its new row at the moment it is made. -/
theorem liveAt_change (forward : t.now ≤ later) :
    LiveAt (t.become later d') id m ↔ LiveAt (t.become later t.value) id m ∨
      (m = later ∧ ∃ a, d'.rows id = some a ∧ a.live later = true) := by
  constructor
  · rintro ⟨d, seen, live⟩
    obtain before | ⟨rfl, rfl⟩ := (Timeline.at_become_iff_wait forward).mp seen
    · exact Or.inl ⟨d, before, live⟩
    · exact Or.inr ⟨rfl, live⟩
  · rintro (⟨d, before, live⟩ | ⟨rfl, live⟩)
    · exact ⟨d, (Timeline.at_become_iff_wait forward).mpr (Or.inl before), live⟩
    · exact ⟨d', (Timeline.at_become_iff_wait forward).mpr (Or.inr ⟨rfl, rfl⟩), live⟩

/-- Time that passes brings a date that was ahead. -/
theorem Dated.wait (dated : Dated t id a) (found : t.value.rows id = some a) (past : t.Past)
    (forward : t.now ≤ later) : Dated (t.become later t.value) id a := by
  cases dated with
  | unseen status first never =>
      refine .unseen status first ?_
      intro m seen
      obtain before | ⟨-, -, a', now, live⟩ := (liveAt_wait forward).mp seen
      · exact never m before
      · obtain rfl := Option.some.inj (found.symm.trans now)
        exact status (live_iff.mp live).1
  | seen first dated least =>
      obtain ⟨d, seen, live⟩ := least.1
      refine .seen first dated ⟨(liveAt_wait forward).mpr (Or.inl least.1), ?_⟩
      intro m seen'
      obtain before | ⟨since, -⟩ := (liveAt_wait forward).mp seen'
      · exact least.2 before
      · exact (past first d seen).trans since
  | ahead first dated status publishAt future never =>
      have during : ∀ m, LiveAt (t.become later t.value) id m ↔ first ≤ m ∧ m ≤ later := by
        intro m
        rw [liveAt_wait forward]
        constructor
        · rintro (before | ⟨-, till, a', now, live⟩)
          · exact absurd before (never m)
          · obtain rfl := Option.some.inj (found.symm.trans now)
            obtain ⟨-, time, at', passed⟩ := live_iff.mp live
            obtain rfl := Option.some.inj (publishAt.symm.trans at')
            exact ⟨passed, till⟩
        · rintro ⟨passed, till⟩
          exact Or.inr ⟨future.le.trans passed, till, a, found,
            live_iff.mpr ⟨status, first, publishAt, passed⟩⟩
      by_cases come : first ≤ later
      · exact .seen first dated ⟨(during first).mpr ⟨le_rfl, come⟩,
          fun m seen => ((during m).mp seen).1⟩
      · refine .ahead first dated status publishAt (not_le.mp come) ?_
        intro m seen
        obtain ⟨passed, till⟩ := (during m).mp seen
        exact come (passed.trans till)

/-- A request that keeps its hands off a date that is ahead keeps the dates right. -/
theorem Dated.change (dated : Dated (t.become later t.value) id read)
    (retimes : Retimes later read a) (past : t.Past) (forward : t.now ≤ later)
    (found : d'.rows id = some a) : Dated (t.become later d') id a := by
  have shown : ∀ m, LiveAt (t.become later d') id m ↔
      LiveAt (t.become later t.value) id m ∨ (m = later ∧ a.live later = true) := by
    intro m
    rw [liveAt_change forward]
    simp only [found, Option.some.injEq, exists_eq_left']
  have hidden : a.live later = false → (∀ m, ¬ LiveAt (t.become later t.value) id m) →
      ∀ m, ¬ LiveAt (t.become later d') id m := by
    intro dark never m seen
    obtain before | ⟨-, live⟩ := (shown m).mp seen
    · exact never m before
    · rw [dark] at live
      cases live
  cases dated with
  | seen first dated least =>
      have same : a.firstPublishedAt = some first := by
        cases retimes with
        | kept _ _ kept => exact kept.trans dated
        | shelved _ kept _ => exact kept.trans dated
        | published time _ _ kept _ _ _ => rw [kept, dated, Option.some_or]
      refine .seen first same ⟨(shown first).mpr (Or.inl least.1), ?_⟩
      intro m seen
      obtain before | ⟨rfl, -⟩ := (shown m).mp seen
      · exact least.2 before
      · obtain ⟨d, seen, -⟩ := least.1
        exact past.become forward first d seen
  | unseen status first never =>
      cases retimes with
      | kept same _ kept =>
          rw [← same] at status
          exact .unseen status (kept.trans first)
            (hidden (by simp [Article.live, status]) never)
      | shelved status kept _ =>
          exact .unseen status (kept.trans first)
            (hidden (by simp [Article.live, status]) never)
      | published time status publishAt kept ahead _ _ =>
          rw [first, Option.none_or] at kept
          obtain rfl | future := ahead.eq_or_lt
          · have live := live_iff.mpr ⟨status, later, publishAt, le_rfl⟩
            refine .seen later kept ⟨(shown later).mpr (Or.inr ⟨rfl, live⟩), ?_⟩
            intro m seen
            obtain before | ⟨rfl, -⟩ := (shown m).mp seen
            · exact absurd before (never m)
            · exact le_rfl
          · have dark := not_live_of_ahead publishAt future
            exact .ahead time kept status publishAt future (hidden dark never)
  | ahead first dated status publishAt future never =>
      have awaits : read.awaits later = true := by
        simp only [Article.awaits, status, dated, Option.any_some, decide_true, Bool.true_and,
          decide_eq_true_eq]
        exact future
      cases retimes with
      | kept keptStatus keptAt kept =>
          have same := keptAt.trans publishAt
          exact .ahead first (kept.trans dated) (keptStatus.trans status) same future
            (hidden (not_live_of_ahead same future) never)
      | shelved _ _ settled =>
          rw [settled] at awaits
          cases awaits
      | published time newStatus newAt kept _ _ settled =>
          rw [settled awaits, Option.some_or] at kept
          obtain rfl := Option.some.inj ((settled awaits).symm.trans dated)
          have dark := not_live_of_ahead newAt future
          exact .ahead time kept newStatus newAt future (hidden dark never)

end Clock

section Runs

variable {t t' : Timeline Time Desk}

/-- The rows' first dates are right, and only rows that were there have been seen. -/
structure Chronicled (t : Timeline Time Desk) : Prop where
  ordered : Ordered t.value
  past : t.Past
  issued : ∀ id m, LiveAt t id m → id ∈ t.value.issued
  dated : ∀ id a, t.value.rows id = some a → Dated t id a

/-- The chronicle goes on while nothing happens. -/
theorem Chronicled.wait {later : Time} (chronicled : Chronicled t) (forward : t.now ≤ later) :
    Chronicled (t.become later t.value) := by
  refine ⟨chronicled.ordered, chronicled.past.become forward, ?_, ?_⟩
  · intro id m seen
    obtain before | ⟨-, -, a, found, -⟩ := (liveAt_wait forward).mp seen
    · exact chronicled.issued id m before
    · exact (chronicled.ordered.keyed id a found).2
  · intro id a found
    exact (chronicled.dated id a found).wait found chronicled.past forward

variable [Unicode]

/-- The chronicle begins. -/
theorem Chronicled.start (start : chronicle.start t) : Chronicled t := by
  obtain ⟨empty, first⟩ := start
  refine ⟨?_, ?_, ?_, ?_⟩
  · rw [empty]
    exact .empty
  · rintro m x (⟨rfl, -⟩ | ⟨span, member, -⟩)
    · exact le_rfl
    · rw [first] at member
      cases member
  · rintro id m ⟨d, ⟨rfl, rfl⟩ | ⟨span, member, -⟩, a, found, -⟩
    · rw [empty] at found
      cases found
    · rw [first] at member
      cases member
  · intro id a found
    rw [empty] at found
    cases found

/-- The chronicle goes on when a request is served. -/
theorem Chronicled.serve {caller : Option Claims} {operation : Operation} {now : Time}
    {suffix id : String} {d' : Desk} (chronicled : Chronicled t) (forward : t.now ≤ now)
    (awaited : Awaited t (.serve caller operation now suffix id))
    (served : Articles.serve t.value caller operation now suffix id = some d') :
    Chronicled (t.become now d') := by
  have waited := chronicled.wait forward
  have ordered := serve_ordered chronicled.ordered served
  refine ⟨ordered, chronicled.past.become forward, ?_, ?_⟩
  · intro id' m seen
    obtain before | ⟨-, a, found, -⟩ := (liveAt_change forward).mp seen
    · exact serve_issued served (waited.issued id' m before)
    · exact (ordered.keyed id' a found).2
  · intro id' a found
    obtain ⟨read, was, retimes⟩ | ⟨fresh, status, first⟩ :=
      serve_rows chronicled.ordered awaited served found
    · exact (waited.dated id' read was).change retimes chronicled.past forward found
    · refine .unseen status first ?_
      intro m seen
      obtain before | ⟨-, a', now', live⟩ := (liveAt_change forward).mp seen
      · exact fresh (waited.issued id' m before)
      · obtain rfl := Option.some.inj (found.symm.trans now')
        exact status (live_iff.mp live).1

/-- The chronicle goes on whatever happens next. -/
theorem Chronicled.next {label : Moment} (chronicled : Chronicled t) (awaited : Awaited t label)
    (next : chronicle.next t label = some t') : Chronicled t' := by
  cases label with
  | serve caller operation now suffix id =>
      simp only [chronicle] at next
      split_ifs at next with forward
      obtain ⟨d', served, rfl⟩ := Option.map_eq_some_iff.mp next
      exact chronicled.serve forward awaited served
  | wait now =>
      simp only [chronicle] at next
      split_ifs at next with forward
      cases next
      exact chronicled.wait forward

/-- An article's first date is the time it was first seen live. -/
theorem Dated.firstSeen {id : String} {a : Article} (dated : Dated t id a) (past : t.Past)
    (found : t.value.rows id = some a) :
    (a.live t.now = true → ∃ first, a.firstPublishedAt = some first ∧ first ≤ t.now ∧
      IsLeast {m | LiveAt t id m} first) ∧
    ((∀ m, ¬ LiveAt t id m) → a.scheduled t.now = false →
      a.firstPublishedAt = none ∧ FollowsTitle a) := by
  cases dated with
  | unseen status first never =>
      refine ⟨?_, fun _ _ => ⟨first, followsTitle first⟩⟩
      intro live
      exact absurd (live_iff.mp live).1 status
  | seen first dated least =>
      obtain ⟨d, seen, live⟩ := least.1
      refine ⟨fun _ => ⟨first, dated, past first d seen, least⟩, ?_⟩
      intro never
      exact absurd least.1 (never first)
  | ahead first dated status publishAt future never =>
      constructor
      · intro live
        exact absurd ⟨t.value, Or.inl ⟨rfl, rfl⟩, a, found, live⟩ (never t.now)
      · intro _ unscheduled
        simp only [Article.scheduled, status, publishAt, Option.any_some, decide_true,
          Bool.true_and, decide_eq_false_iff_not] at unscheduled
        exact absurd future unscheduled

/-- In every run in which nobody withdraws or moves an article whose first publication date
is still ahead, the date is when readers first saw the article. -/
theorem first_seen (reached : chronicle.Reach Awaited t) : FirstSeen t := by
  have chronicled : Chronicled t := by
    refine reached.invariant ?_ ?_
    · intro t start
      exact .start start
    · intro t t' label chronicled awaited next
      exact chronicled.next awaited next
  intro id a found
  exact (chronicled.dated id a found).firstSeen chronicled.past found

end Runs

/-! ## An article that is scheduled -/

section Ascii

attribute [local instance] Unicode.ascii

def openingDesk : Timeline Time Desk := ⟨0, .empty, []⟩

/-- An administrator writes an article and schedules it for ten seconds past. -/
def scheduling : List Moment :=
  [.serve (some chief) (.create shortInput) 0 "2a2b2c" "a1",
    .serve (some chief) (.submit "a1" (some 10000000)) 1000000 "" ""]

/-- The desk after the article has been seen, withdrawn and published again. -/
def republishedDesk : Timeline Time Desk :=
  chronicle.after Awaited openingDesk <| scheduling ++
    [.wait 12000000, .serve (some chief) (.withdraw "a1") 15000000 "" "",
      .serve (some chief) (.submit "a1" none) 20000000 "" ""]

/-- An article that was republished keeps the date it was first seen. -/
theorem first_seen_republished :
    ((republishedDesk.value.rows "a1").map fun a =>
      (a.live republishedDesk.now, a.publishAt, a.firstPublishedAt)) =
        some (true, some 20000000, some 10000000) ∧
    FirstSeen republishedDesk :=
  ⟨by decide +kernel, first_seen (Machine.reach_after ⟨rfl, rfl⟩ (by decide +kernel))⟩

/-- The desk after the scheduled article has been published early. -/
def hurriedDesk : Timeline Time Desk :=
  chronicle.after Machine.always openingDesk <| scheduling ++
    [.serve (some chief) (.submit "a1" none) 2000000 "" ""]

/-- An article that is published before the time it was scheduled for is live before its
first publication date. -/
theorem first_seen_hurried :
    chronicle.Reach Machine.always hurriedDesk ∧
      ((hurriedDesk.value.rows "a1").map fun a =>
        (a.live hurriedDesk.now, a.publishAt, a.firstPublishedAt)) =
          some (true, some 2000000, some 10000000) ∧
      ¬ FirstSeen hurriedDesk := by
  have reached : chronicle.Reach Machine.always hurriedDesk :=
    Machine.reach_after ⟨rfl, rfl⟩ (by decide +kernel)
  have shown : ((hurriedDesk.value.rows "a1").map fun a =>
      (a.live hurriedDesk.now, a.publishAt, a.firstPublishedAt)) =
        some (true, some 2000000, some 10000000) := by decide +kernel
  have early : hurriedDesk.now < 10000000 := by decide +kernel
  refine ⟨reached, shown, ?_⟩
  intro seen
  obtain ⟨a, found, facts⟩ := Option.map_eq_some_iff.mp shown
  simp only [Prod.mk.injEq] at facts
  obtain ⟨live, -, dated⟩ := facts
  obtain ⟨first, same, past, -⟩ := (seen "a1" a found).1 live
  obtain rfl := Option.some.inj (dated.symm.trans same)
  exact absurd early (not_lt.mpr past)

end Ascii

end ScoutPulse.Articles
