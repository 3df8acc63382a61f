import ScoutPulse.Football.Article.Review

/-!
# What becomes of a publication

An article's address is meant to be permanent once it has been published, and a
publication to stand until it is withdrawn. A statement writes back the copy its
request has read, whatever has happened to the row since, so both hold exactly as
long as no statement is sent on a copy older than a publication.
-/

namespace ScoutPulse.Articles

open Strings

/-- The copy the statement was decided from has not missed the row's first publication,
nor, where an editor is not withdrawing it, its publication. -/
def Current (s : Desk) (label : Label) : Prop :=
  ∀ p ∈ s.sender label, ∀ read ∈ p.write.read, ∀ row ∈ s.rows read.id,
    (p.write.stores = true → row.firstPublishedAt.isSome = true →
      read.firstPublishedAt.isSome = true) ∧
    (p.edits = true → row.status = .published → read.status = .published)

instance (s : Desk) (label : Label) : Decidable (Current s label) :=
  inferInstanceAs (Decidable (∀ p ∈ s.sender label, ∀ read ∈ p.write.read,
    ∀ row ∈ s.rows read.id,
      (p.write.stores = true → row.firstPublishedAt.isSome = true →
        read.firstPublishedAt.isSome = true) ∧
      (p.edits = true → row.status = .published → read.status = .published)))

/-- What is first published at a time, and where. -/
def PublishedAt (a : Article) (t : Time) (slug : String) : Prop :=
  a.firstPublishedAt = some t ∧ a.slug = slug

/-- Where a copy that is about to be written back knows of a first publication, so
does the row, at the same time and address. -/
structure Faithful (s : Desk) : Prop where
  ordered : Ordered s
  known : ∀ p ∈ s.pending, ∀ read ∈ p.write.read, ∀ t, read.firstPublishedAt = some t →
    ∀ row, s.rows read.id = some row → PublishedAt row t read.slug

/-- A row of the later desk that the earlier one has given an id was there already, and
if it had been published it still is, at the same time and address. -/
structure Keeps (s s' : Desk) : Prop where
  issued : ∀ id ∈ s.issued, id ∈ s'.issued
  row : ∀ id ∈ s.issued, ∀ a', s'.rows id = some a' → ∃ a, s.rows id = some a ∧
    ∀ t, a.firstPublishedAt = some t → PublishedAt a' t a.slug

theorem Keeps.refl (s : Desk) : Keeps s s :=
  ⟨fun _ issued => issued, fun _ _ a found => ⟨a, found, fun _ first => ⟨first, rfl⟩⟩⟩

/-- What is kept twice is kept. -/
theorem Keeps.trans {s s' s'' : Desk} (first : Keeps s s') (second : Keeps s' s'') :
    Keeps s s'' := by
  refine ⟨fun id issued => second.issued id (first.issued id issued), ?_⟩
  intro id issued a'' found
  obtain ⟨a', was, later⟩ := second.row id (first.issued id issued) a'' found
  obtain ⟨a, before, earlier⟩ := first.row id issued a' was
  refine ⟨a, before, ?_⟩
  intro t published
  obtain ⟨time, slug⟩ := earlier t published
  rw [← slug]
  exact later t time

/-- A current statement leaves a published row's time and address alone. -/
theorem stored_keeps {s : Desk} {p : Pending} {read a row : Article} (faithful : Faithful s)
    (member : p ∈ s.pending) (write : p.write = .store read a)
    (found : s.rows read.id = some row)
    (current : row.firstPublishedAt.isSome = true → read.firstPublishedAt.isSome = true)
    {t : Time} (first : row.firstPublishedAt = some t) :
    PublishedAt (overwrite row a) t row.slug := by
  have isRead : read ∈ p.write.read := by rw [write]; rfl
  have set : row.firstPublishedAt.isSome = true := by rw [first]; rfl
  obtain ⟨t', known⟩ := Option.isSome_iff_exists.mp (current set)
  obtain ⟨time, slug⟩ := faithful.known p member read isRead t' known row found
  have same : t' = t := Option.some.inj (time.symm.trans first)
  subst same
  obtain ⟨stays, address⟩ :=
    ((faithful.ordered.warranted p member).stores read a write).permanent t' known
  exact ⟨stays, address.trans slug.symm⟩

/-- A faithful copy stays faithful as long as the row keeps what it says. -/
theorem Faithful.copy {s s' : Desk} {p : Pending} (faithful : Faithful s) (member : p ∈ s.pending)
    (keeps : Keeps s s') : ∀ read ∈ p.write.read, ∀ t, read.firstPublishedAt = some t →
      ∀ row, s'.rows read.id = some row → PublishedAt row t read.slug := by
  intro read isRead t known row' now
  have issued := faithful.ordered.issued p member read isRead
  obtain ⟨row, was, stays⟩ := keeps.row read.id issued row' now
  obtain ⟨time, slug⟩ := faithful.known p member read isRead t known row was
  rw [← slug]
  exact stays t time

section Runs

variable [Unicode]

/-- A write that is sent keeps what is published, when it was read as it stands. -/
theorem Sent.keeps {s s' : Desk} {p : Pending} (faithful : Faithful s) (member : p ∈ s.pending)
    (sent : Sent s p s') (current : ∀ read ∈ p.write.read, ∀ row ∈ s.rows read.id,
      p.write.stores = true → row.firstPublishedAt.isSome = true →
        read.firstPublishedAt.isSome = true) : Keeps s s' := by
  cases sent with
  | nothing pending kept => exact ⟨(Keeps.refl s).issued, (Keeps.refl s).row⟩
  | inserted a n id suffix pending write fresh kept =>
      refine ⟨fun _ issued => List.mem_cons_of_mem _ issued, ?_⟩
      intro id' issued a' found
      obtain ⟨rfl, -⟩ | ⟨-, old⟩ := Rows.put_eq_some.mp found
      · exact absurd issued fresh
      · exact (Keeps.refl s).row id' issued a' old
  | stored read a row pending write found kept =>
      refine ⟨fun _ issued => issued, ?_⟩
      intro id' issued a' now
      obtain ⟨rfl, rfl⟩ | ⟨-, old⟩ := Rows.put_eq_some.mp now
      · have isRead : read ∈ p.write.read := by rw [write]; rfl
        have stores : p.write.stores = true := by rw [write]; rfl
        exact ⟨row, found, fun t first => stored_keeps faithful member write found
          (current read isRead row found stores) first⟩
      · exact (Keeps.refl s).row id' issued a' old
  | removed read pending write kept =>
      refine ⟨fun _ issued => issued, ?_⟩
      intro id' issued a' now
      exact (Keeps.refl s).row id' issued a' (Rows.delete_eq_some.mp now).2

/-- A current step keeps what was published, and every copy of it. -/
theorem Faithful.next {s s' : Desk} {label : Label} (faithful : Faithful s)
    (current : Current s label) (next : desk.next s label = some s') :
    Keeps s s' ∧ Faithful s' := by
  have ordered := faithful.ordered.next next
  obtain rfl | ⟨p, rfl, -, read⟩ | ⟨p, sender, sent⟩ := desk_next next
  · exact ⟨Keeps.refl s', faithful⟩
  · have same : Keeps s { s with pending := s.pending ++ [p] } :=
      ⟨(Keeps.refl s).issued, (Keeps.refl s).row⟩
    refine ⟨same, ordered, ?_⟩
    rw [List.forall_mem_append, List.forall_mem_singleton]
    refine ⟨fun q member => faithful.copy member same, ?_⟩
    intro r isRead t known row found
    obtain ⟨id, was⟩ := read r isRead
    obtain ⟨keyed, -⟩ := faithful.ordered.keyed id r was
    subst keyed
    obtain rfl : r = row := Option.some.inj (was.symm.trans found)
    exact ⟨known, rfl⟩
  · have member := Desk.sender_mem sender
    have keeps : Keeps s s' := sent.keeps faithful member fun read isRead row found =>
      (current p sender read isRead row found).1
    refine ⟨keeps, ordered, ?_⟩
    intro q isPending
    rcases sent.pending q isPending with old | none_
    · exact faithful.copy old keeps
    · intro r isRead
      rw [none_] at isRead
      cases isRead

theorem faithful_of_reach {s : Desk} (reached : desk.Reach Current s) : Faithful s := by
  refine reached.invariant ?_ ?_
  · rintro t rfl
    exact ⟨.empty, List.forall_mem_nil _⟩
  · intro t t' label faithful current next
    exact (faithful.next current next).2

/-- An editor's statement other than a withdrawal that is sent on a current copy meets
no published row. -/
theorem Sent.spares {s s' : Desk} {p : Pending} (ordered : Ordered s) (member : p ∈ s.pending)
    (sent : Sent s p s') (edits : p.edits = true) (current : ∀ read ∈ p.write.read,
      ∀ row ∈ s.rows read.id, row.status = .published → read.status = .published)
    {id : String} {a : Article} (found : s.rows id = some a) (published : a.status = .published) :
    s'.rows id = some a := by
  have other : ∀ read ∈ p.write.read, id ≠ read.id := by
    rintro read isRead rfl
    exact (ordered.warranted p member).unpublished edits read isRead
      (current read isRead a found published)
  cases sent with
  | nothing pending kept => exact found
  | inserted a' n id' suffix pending write fresh kept =>
      have distinct : id ≠ id' := fun same => fresh (same ▸ (ordered.keyed id a found).2)
      exact (Function.update_of_ne distinct _ _).trans found
  | stored read a' row pending write was kept =>
      have isRead : read ∈ p.write.read := by rw [write]; rfl
      exact (Function.update_of_ne (other read isRead) _ _).trans found
  | removed read pending write kept =>
      have isRead : read ∈ p.write.read := by rw [write]; rfl
      exact (Function.update_of_ne (other read isRead) _ _).trans found

/-- In every run whose statements are all sent on current copies, an article once
published keeps the time and the address of its first publication, and no editor's
request but a withdrawal touches a published row. -/
theorem publication_permanent {s : Desk} (reached : desk.Reach Current s) :
    (∀ s', desk.Leads Current s s' → ∀ id a a' t, s.rows id = some a →
      a.firstPublishedAt = some t → s'.rows id = some a' →
        a'.firstPublishedAt = some t ∧ a'.slug = a.slug) ∧
    (∀ label s' p, Current s label → desk.next s label = some s' → s.sender label = some p →
      p.edits = true → ∀ id a, s.rows id = some a → a.status = .published →
        s'.rows id = some a) := by
  have faithful := faithful_of_reach reached
  constructor
  · intro s' leads id a a' t found first later
    have keeps : Keeps s s' := leads.relation faithful Keeps.refl Keeps.trans
      (fun held current next => (held.next current next).2)
      (fun held current next => (held.next current next).1)
    have issued : id ∈ s.issued := (faithful.ordered.keyed id a found).2
    obtain ⟨row, was, stays⟩ := keeps.row id issued a' later
    obtain rfl : a = row := Option.some.inj (found.symm.trans was)
    exact stays t first
  · intro label s' p current next sender edits id a found published
    obtain same | ⟨q, same, -, -⟩ | ⟨q, sender', sent⟩ := desk_next next
    · subst same
      exact found
    · subst same
      exact found
    · obtain rfl : p = q := Option.some.inj (sender.symm.trans sender')
      exact sent.spares faithful.ordered (Desk.sender_mem sender) edits
        (fun read isRead row was => (current p sender read isRead row was).2 edits) found published

end Runs

/-! ## An edit that comes late -/

/-- The article under another title. -/
def retitledInput : ArticleInput := { shortInput with title := "High press" }

/-- An editor's draft is published between the read and the statement of their edit. -/
def lateEdit : List Label :=
  [.arrive (some ana) (.create shortInput) 0, .send 0 "2a2b2c" "a1",
    .arrive (some ana) (.update "a1" retitledInput) 1,
    .arrive (some chief) (.submit "a1" none) 2, .send 1 "" ""]

/-- An administrator changes the published article. -/
def correction : List Label := [.arrive (some chief) (.update "a1" retitledInput) 3, .send 0 "" ""]

section Ascii

attribute [local instance] Unicode.ascii

def approvedDesk : Desk := desk.after Current .empty (submission ++ approval)

def correctedDesk : Desk := desk.after Current approvedDesk correction

/-- A correction of a published article keeps its first date and its slug. -/
theorem publication_permanent_correction :
    ∃ a a', approvedDesk.rows "a1" = some a ∧ correctedDesk.rows "a1" = some a' ∧
      a.title = "Low block" ∧ a'.title = "High press" ∧
      a'.firstPublishedAt = some 2 ∧ a'.slug = a.slug := by
  have reached : desk.Reach Current approvedDesk := Machine.reach_after rfl (by decide +kernel)
  have leads : desk.Leads Current approvedDesk correctedDesk :=
    Machine.leads_after (by decide +kernel)
  obtain ⟨before, later⟩ :
      ((approvedDesk.rows "a1").map fun a => (a.title, a.firstPublishedAt)) =
        some ("Low block", some 2) ∧
      ((correctedDesk.rows "a1").map Article.title) = some "High press" := by decide +kernel
  obtain ⟨a, found, shown⟩ := Option.map_eq_some_iff.mp before
  obtain ⟨a', found', title'⟩ := Option.map_eq_some_iff.mp later
  obtain ⟨title, first⟩ := Prod.mk.inj shown
  obtain ⟨first', slug⟩ :=
    (publication_permanent reached).1 correctedDesk leads "a1" a a' 2 found first found'
  exact ⟨a, a', found, found', title, title', first', slug⟩

def editedDesk : Desk := desk.after Machine.always .empty lateEdit

def lostDesk : Desk := desk.after Machine.always editedDesk [.send 0 "" ""]

/-- The edit clears the publication, moves the address and takes the article down. -/
theorem publication_lost :
    desk.Reach Machine.always editedDesk ∧ desk.Leads Machine.always editedDesk lostDesk ∧
      ((editedDesk.sender (.send 0 "" "")).map Pending.edits) = some true ∧
      ((editedDesk.rows "a1").map fun a => (a.slug, a.status, a.firstPublishedAt)) =
        some ("low-block-2a2b2c", .published, some 2) ∧
      ((lostDesk.rows "a1").map fun a => (a.slug, a.status, a.firstPublishedAt)) =
        some ("high-press-2a2b2c", .draft, none) :=
  ⟨Machine.reach_after rfl (by decide +kernel), Machine.leads_after (by decide +kernel),
    by decide +kernel⟩

end Ascii

end ScoutPulse.Articles
