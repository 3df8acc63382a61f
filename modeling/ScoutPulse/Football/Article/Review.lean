import ScoutPulse.Football.Article.Decisions

/-!
# No unreviewed content is live

Whatever the order of reads and statements, a published row was last written, all of
it, by an administrator's request. Every statement writes the whole row, so an
editor's late statement can take a publication down but never put one up.
-/

namespace ScoutPulse.Articles

open Strings

/-- What the requests under way and the table agree on. -/
structure Ordered (s : Desk) : Prop where
  keyed : ∀ id a, s.rows id = some a → a.id = id ∧ id ∈ s.issued
  warranted : ∀ p ∈ s.pending, Warranted p
  issued : ∀ p ∈ s.pending, ∀ read ∈ p.write.read, read.id ∈ s.issued
  /-- An article keeps its author under everyone's hands. -/
  author : ∀ p ∈ s.pending, ∀ read ∈ p.write.read, ∀ row, s.rows read.id = some row →
    row.authorID = read.authorID

theorem Ordered.empty : Ordered .empty :=
  ⟨fun _ _ found => (nomatch found), List.forall_mem_nil _, List.forall_mem_nil _,
    List.forall_mem_nil _⟩

/-- What is decided on a row that was read is in order. -/
theorem Ordered.arrive {s : Desk} {p : Pending} (ordered : Ordered s) (warranted : Warranted p)
    (read : ∀ read ∈ p.write.read, ∃ id, s.rows id = some read) :
    Ordered { s with pending := s.pending ++ [p] } := by
  have own : ∀ r ∈ p.write.read, s.rows r.id = some r ∧ r.id ∈ s.issued := by
    intro r isRead
    obtain ⟨id, found⟩ := read r isRead
    obtain ⟨same, issued⟩ := ordered.keyed id r found
    subst same
    exact ⟨found, issued⟩
  refine ⟨ordered.keyed, ?_, ?_, ?_⟩
  · rw [List.forall_mem_append, List.forall_mem_singleton]
    exact ⟨ordered.warranted, warranted⟩
  · rw [List.forall_mem_append, List.forall_mem_singleton]
    exact ⟨ordered.issued, fun r isRead => (own r isRead).2⟩
  · rw [List.forall_mem_append, List.forall_mem_singleton]
    refine ⟨ordered.author, ?_⟩
    intro r isRead row found
    rw [(own r isRead).1] at found
    cases found
    rfl

theorem lastWrite_cons (s : Desk) (e : Entry) (id : String) :
    (e :: s.log).find? (fun e => e.row.id = id) =
      if e.row.id = id then some e else s.lastWrite id := by
  rw [List.find?_cons]
  by_cases same : e.row.id = id
  · simp [same]
  · simp [same, Desk.lastWrite]

theorem getLive_published {s : Desk} {slug : String} {now : Time} {a : Article}
    (served : s.getLive slug now = some a) : ∃ id, s.rows id = some a ∧ a.status = .published := by
  have live := List.find?_some served
  obtain ⟨id, -, found⟩ := List.mem_filterMap.mp (List.mem_of_find?_eq_some served)
  simp only [Article.live, Bool.and_eq_true, decide_eq_true_eq] at live
  exact ⟨id, found, live.2.1⟩

theorem listLive_published {s : Desk} {tag : Option String} {now : Time} {a : Article}
    (served : a ∈ s.listLive tag now) : ∃ id, s.rows id = some a ∧ a.status = .published := by
  obtain ⟨member, live⟩ := List.mem_filter.mp served
  obtain ⟨id, -, found⟩ := List.mem_filterMap.mp member
  simp only [Article.live, Bool.and_eq_true, decide_eq_true_eq] at live
  exact ⟨id, found, live.1.1⟩

section Runs

variable [Unicode]

/-- A write that is sent keeps the desk in order. -/
theorem Ordered.sent {s s' : Desk} {p : Pending} (ordered : Ordered s) (member : p ∈ s.pending)
    (sent : Sent s p s') : Ordered s' := by
  cases sent with
  | nothing pending kept =>
      refine ⟨ordered.keyed, ?_, ?_, ?_⟩
      · intro q isPending
        rcases kept q isPending with old | ⟨a, n, m, write, rfl⟩
        · exact ordered.warranted q old
        · exact (ordered.warranted p member).retry write m
      · intro q isPending
        rcases kept q isPending with old | ⟨a, n, m, write, rfl⟩
        · exact ordered.issued q old
        · exact fun read isRead => by cases isRead
      · intro q isPending
        rcases kept q isPending with old | ⟨a, n, m, write, rfl⟩
        · exact ordered.author q old
        · exact fun read isRead => by cases isRead
  | inserted a n id suffix pending write fresh kept =>
      refine ⟨?_, fun q isPending => ordered.warranted q (kept q isPending), ?_, ?_⟩
      · intro id' a' found
        obtain ⟨rfl, rfl⟩ | ⟨-, old⟩ := Rows.put_eq_some.mp found
        · exact ⟨rfl, List.mem_cons_self⟩
        · obtain ⟨keyed, issued⟩ := ordered.keyed id' a' old
          exact ⟨keyed, List.mem_cons_of_mem _ issued⟩
      · intro q isPending read isRead
        exact List.mem_cons_of_mem _ (ordered.issued q (kept q isPending) read isRead)
      · intro q isPending read isRead row found
        have issued := ordered.issued q (kept q isPending) read isRead
        obtain ⟨rfl, -⟩ | ⟨-, old⟩ := Rows.put_eq_some.mp found
        · exact absurd issued fresh
        · exact ordered.author q (kept q isPending) read isRead row old
  | stored read a row pending write found kept =>
      have before : ∀ {id' row'}, Function.update s.rows read.id (some (overwrite row a)) id' =
          some row' → ∃ old, s.rows id' = some old ∧ row'.id = old.id ∧
            row'.authorID = old.authorID := by
        intro id' row' now
        obtain ⟨rfl, rfl⟩ | ⟨-, was⟩ := Rows.put_eq_some.mp now
        · exact ⟨row, found, rfl, rfl⟩
        · exact ⟨row', was, rfl, rfl⟩
      refine ⟨?_, fun q isPending => ordered.warranted q (kept q isPending),
        fun q isPending => ordered.issued q (kept q isPending), ?_⟩
      · intro id' row' now
        obtain ⟨old, was, id, -⟩ := before now
        obtain ⟨keyed, issued⟩ := ordered.keyed id' old was
        exact ⟨id.trans keyed, issued⟩
      · intro q isPending read' isRead row' now
        obtain ⟨old, was, -, author⟩ := before now
        exact author.trans (ordered.author q (kept q isPending) read' isRead old was)
  | removed read pending write kept =>
      have before : ∀ {id' row'}, Function.update s.rows read.id none id' = some row' →
          s.rows id' = some row' := fun now => (Rows.delete_eq_some.mp now).2
      exact ⟨fun id' row' now => ordered.keyed id' row' (before now),
        fun q isPending => ordered.warranted q (kept q isPending),
        fun q isPending => ordered.issued q (kept q isPending),
        fun q isPending read' isRead row' now =>
          ordered.author q (kept q isPending) read' isRead row' (before now)⟩

theorem Ordered.next {s s' : Desk} {label : Label} (ordered : Ordered s)
    (next : desk.next s label = some s') : Ordered s' := by
  obtain rfl | ⟨p, rfl, warranted, read⟩ | ⟨p, sender, sent⟩ := desk_next next
  · exact ordered
  · exact ordered.arrive warranted read
  · exact ordered.sent (Desk.sender_mem sender) sent

/-- The log knows of every row who last wrote it, and of no editor who published. -/
structure Reviewed (s : Desk) : Prop where
  ordered : Ordered s
  logged : ∀ id a, s.rows id = some a → ∃ e, s.lastWrite id = some e ∧ e.row = a
  approved : ∀ e ∈ s.log, e.row.status = .published → e.claims.role = .admin

/-- A write that is sent leaves what is published an administrator's last write, operation by
operation. -/
theorem Reviewed.sent {s s' : Desk} {p : Pending} (reviewed : Reviewed s)
    (member : p ∈ s.pending) (sent : Sent s p s') : Reviewed s' := by
  have warranted := reviewed.ordered.warranted p member
  have ordered := reviewed.ordered.sent member sent
  cases sent with
  | nothing pending kept => exact ⟨ordered, reviewed.logged, reviewed.approved⟩
  | inserted a n id suffix pending write fresh kept =>
      refine ⟨ordered, ?_, ?_⟩
      · intro id' a' found
        rw [Desk.lastWrite, lastWrite_cons]
        obtain ⟨rfl, rfl⟩ | ⟨other, old⟩ := Rows.put_eq_some.mp found
        · exact ⟨_, if_pos rfl, rfl⟩
        · rw [if_neg (Ne.symm other)]
          exact reviewed.logged id' a' old
      · rw [List.forall_mem_cons]
        refine ⟨?_, reviewed.approved⟩
        intro published
        obtain ⟨isDraft, -⟩ := warranted.inserts a n write
        exact absurd (isDraft.symm.trans published) (by decide)
  | stored read a row pending write found kept =>
      refine ⟨ordered, ?_, ?_⟩
      · intro id' a' now
        rw [Desk.lastWrite, lastWrite_cons]
        have keyed : row.id = read.id := (reviewed.ordered.keyed _ _ found).1
        obtain ⟨rfl, rfl⟩ | ⟨other, old⟩ := Rows.put_eq_some.mp now
        · exact ⟨_, if_pos keyed, rfl⟩
        · rw [if_neg fun same => other (same.symm.trans keyed)]
          exact reviewed.logged id' a' old
      · rw [List.forall_mem_cons]
        refine ⟨?_, reviewed.approved⟩
        exact (warranted.stores read a write).approved
  | removed read pending write kept =>
      refine ⟨ordered, ?_, reviewed.approved⟩
      intro id' a' now
      exact reviewed.logged id' a' (Rows.delete_eq_some.mp now).2

/-- Whatever the desk does next leaves it so. -/
theorem Reviewed.next {s s' : Desk} {label : Label} (reviewed : Reviewed s)
    (next : desk.next s label = some s') : Reviewed s' := by
  obtain rfl | ⟨p, rfl, warranted, read⟩ | ⟨p, sender, sent⟩ := desk_next next
  · exact reviewed
  · exact ⟨reviewed.ordered.arrive warranted read, reviewed.logged, reviewed.approved⟩
  · exact reviewed.sent (Desk.sender_mem sender) sent

/-- It is so in every state reached. -/
theorem reviewed_of_reach {s : Desk} {ok : Desk → Label → Prop} (reached : desk.Reach ok s) :
    Reviewed s := by
  refine reached.invariant ?_ ?_
  · rintro t rfl
    exact ⟨.empty, fun _ _ found => (nomatch found), List.forall_mem_nil _⟩
  · intro t t' label reviewed _ next
    exact reviewed.next next

/-- A statement changes only a row its sender may act on. -/
theorem Sent.own {s s' : Desk} {p : Pending} (ordered : Ordered s) (member : p ∈ s.pending)
    (sent : Sent s p s') {id : String} (changed : s'.rows id ≠ s.rows id) :
    ∀ a, s.rows id = some a ∨ s'.rows id = some a → Reaches p.claims a := by
  have warranted := ordered.warranted p member
  cases sent with
  | nothing pending kept => exact absurd rfl changed
  | inserted a n id' suffix pending write fresh kept =>
      obtain rfl := Rows.eq_of_update_ne changed
      rintro a' (was | now)
      · exact absurd (ordered.keyed id a' was).2 fresh
      · obtain ⟨-, rfl⟩ | ⟨other, -⟩ := Rows.put_eq_some.mp now
        · exact Or.inr (warranted.inserts a n write).2
        · exact absurd rfl other
  | stored read a row pending write found kept =>
      obtain rfl := Rows.eq_of_update_ne changed
      have isRead : read ∈ p.write.read := by rw [write]; rfl
      have own : Reaches p.claims row := by
        rw [Reaches, ordered.author p member read isRead row found]
        exact warranted.reaches read isRead
      rintro a' (was | now)
      · rw [found, Option.some.injEq] at was
        subst was
        exact own
      · obtain ⟨-, rfl⟩ | ⟨other, -⟩ := Rows.put_eq_some.mp now
        · exact own
        · exact absurd rfl other
  | removed read pending write kept =>
      obtain rfl := Rows.eq_of_update_ne changed
      have isRead : read ∈ p.write.read := by rw [write]; rfl
      rintro a' (was | now)
      · rw [Reaches, ordered.author p member read isRead a' was]
        exact warranted.reaches read isRead
      · exact absurd rfl (Rows.delete_eq_some.mp now).1

/-- In every state the desk can be in, a published row was last written by an
administrator's request, no other request ever wrote a published row, and a step that
changes a row is taken for an administrator or for the editor whose article it is. -/
theorem desk_reviewed {s : Desk} (reached : desk.Reach Machine.always s) :
    (∀ id a, s.rows id = some a → a.status = .published →
      ∃ e, s.lastWrite id = some e ∧ e.row = a ∧ e.claims.role = .admin) ∧
    (∀ e ∈ s.log, e.row.status = .published → e.claims.role = .admin) ∧
    (∀ label s' id, desk.next s label = some s' → s'.rows id ≠ s.rows id →
      ∃ claims, s.actor label = some claims ∧ claims.role ≠ .member ∧
        (claims.role = .editor →
          ∀ a, s.rows id = some a ∨ s'.rows id = some a → a.authorID = claims.userID)) := by
  have reviewed := reviewed_of_reach reached
  refine ⟨?_, reviewed.approved, ?_⟩
  · intro id a found published
    obtain ⟨e, last, rfl⟩ := reviewed.logged id a found
    exact ⟨e, last, rfl, reviewed.approved e (List.mem_of_find?_eq_some last) published⟩
  · intro label s' id next changed
    obtain rfl | ⟨p, rfl, -, -⟩ | ⟨p, sender, sent⟩ := desk_next next
    · exact absurd rfl changed
    · exact absurd rfl changed
    · have member := Desk.sender_mem sender
      refine ⟨p.claims, Desk.actor_of_sender sender, (reviewed.ordered.warranted p member).role, ?_⟩
      intro editor a either
      rcases sent.own reviewed.ordered member changed a either with admin | own
      · exact absurd (editor.symm.trans admin) (by decide)
      · exact own

end Runs

/-! ## A publication -/

def ana : Claims := ⟨"ana", .editor, "Ana"⟩

def chief : Claims := ⟨"chief", .admin, "Chief"⟩

/-- A titled article of one word. -/
def shortInput : ArticleInput :=
  { title := "Low block", subtitle := "", coverURL := "", coverCaption := ""
    body := "\x7b\"type\":\"doc\",\"content\":[\x7b\"type\":\"text\",\"text\":\"Goal\"\x7d]\x7d"
    tags := [] }

/-- An editor writes an article and submits it. -/
def submission : List Label :=
  [.arrive (some ana) (.create shortInput) 0, .send 0 "2a2b2c" "a1",
    .arrive (some ana) (.submit "a1" none) 1, .send 0 "" ""]

/-- An administrator publishes it. -/
def approval : List Label := [.arrive (some chief) (.submit "a1" none) 2, .send 0 "" ""]

section Ascii

attribute [local instance] Unicode.ascii

/-- The desk once the article is published. -/
def publishedDesk : Desk := desk.after Machine.always .empty (submission ++ approval)

/-- An article that was published was last written by an administrator. -/
theorem desk_reviewed_publication :
    ((publishedDesk.rows "a1").map fun a => (a.slug, a.status)) =
      some ("low-block-2a2b2c", .published) ∧
    ∀ a, publishedDesk.rows "a1" = some a → ∃ e, publishedDesk.lastWrite "a1" = some e ∧
      e.row = a ∧ e.claims.role = .admin := by
  have reached : desk.Reach Machine.always publishedDesk :=
    Machine.reach_after rfl (by decide +kernel)
  have shown : ((publishedDesk.rows "a1").map fun a => (a.slug, a.status)) =
      some ("low-block-2a2b2c", .published) := by decide +kernel
  refine ⟨shown, ?_⟩
  intro a found
  rw [found, Option.map_some, Option.some.injEq, Prod.mk.injEq] at shown
  exact (desk_reviewed reached).1 "a1" a found shown.2

end Ascii

end ScoutPulse.Articles
