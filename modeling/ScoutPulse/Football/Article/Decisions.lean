import ScoutPulse.Football.Article.Desk

/-!
# What the desk's requests decide

A request that decides to write has passed the checks of its operation. This file
says once what that means for the statement it goes on to send, whatever the
operation, and what each statement does to the table.
-/

namespace ScoutPulse.Articles

open Strings Outcome

/-- A caller may act on an article: an administrator on any, an editor on their own. -/
def Reaches (claims : Claims) (a : Article) : Prop :=
  claims.role = .admin ∨ a.authorID = claims.userID

/-- The row an operation wants stored in place of the copy it has read. -/
structure Revision (claims : Claims) (read a : Article) : Prop where
  /-- Only an administrator's row is published. -/
  approved : a.status = .published → claims.role = .admin
  /-- What was first published stays so, at the same address. -/
  permanent : ∀ t, read.firstPublishedAt = some t →
    a.firstPublishedAt = some t ∧ a.slug = read.slug

/-- An editor's request, other than one that withdraws. -/
def Pending.edits (p : Pending) : Bool :=
  p.claims.role ≠ .admin && match p.operation with
    | .withdraw _ => false
    | _ => true

/-- The copy of the row a statement was decided from. -/
def Write.read : Write → Option Article
  | .insert _ _ => none
  | .store read _ => some read
  | .remove read => some read

/-- The statement is an `UPDATE`. -/
def Write.stores : Write → Bool
  | .store _ _ => true
  | _ => false

theorem Pending.edits_iff (p : Pending) :
    p.edits = true ↔ p.claims.role ≠ .admin ∧ ∀ id, p.operation ≠ .withdraw id := by
  cases operation : p.operation <;> simp [Pending.edits, operation]

/-- What the checks of its operation establish about a pending request. -/
structure Warranted (p : Pending) : Prop where
  role : p.claims.role ≠ .member
  reaches : ∀ read ∈ p.write.read, Reaches p.claims read
  inserts : ∀ a n, p.write = .insert a n → a.status = .draft ∧ a.authorID = p.claims.userID
  stores : ∀ read a, p.write = .store read a → Revision p.claims read a
  /-- An editor acts on what is not published, except to withdraw it. -/
  unpublished : p.edits = true → ∀ read ∈ p.write.read, read.status ≠ .published

/-- An insert that is tried again is as warranted as it was. -/
theorem Warranted.retry {p : Pending} {a : Article} {n : ℕ} (warranted : Warranted p)
    (write : p.write = .insert a n) (m : ℕ) : Warranted { p with write := .insert a m } := by
  refine ⟨warranted.role, ?_, ?_, ?_, ?_⟩
  · intro read isRead
    cases isRead
  · rintro a' m' ⟨⟩
    exact warranted.inserts a n write
  · intro read a' stores
    cases stores
  · intro _ read isRead
    cases isRead

/-! ## The operations -/

section Operations

variable {claims : Claims} {read a : Article} {now : Time}

/-- An administrator's publication is a revision. -/
theorem publish_spec {publishAt : Option Time}
    (published : publish claims read publishAt now = .ok a) (admin : claims.role = .admin) :
    Revision claims read a := by
  simp only [publish, guard_ok_iff, pure_ok_iff] at published
  obtain ⟨-, rfl⟩ := published
  refine ⟨fun _ => admin, ?_⟩
  intro t was
  exact ⟨by rw [was]; rfl, rfl⟩

/-- A withdrawal is a revision. -/
theorem withdraw_spec (withdrawn : withdraw read = .ok a) : Revision claims read a := by
  simp only [withdraw] at withdrawn
  split_ifs at withdrawn
  · cases withdrawn
    exact ⟨fun isPublished => ArticleStatus.noConfusion isPublished, fun t was => ⟨was, rfl⟩⟩
  · cases withdrawn
    exact ⟨fun isPublished => ArticleStatus.noConfusion isPublished, fun t was => ⟨was, rfl⟩⟩

theorem mayDelete_spec (allowed : mayDelete claims read = .ok ()) :
    claims.role ≠ .admin → read.status ≠ .published := by
  simp only [mayDelete] at allowed
  split_ifs at allowed with forbidden
  exact fun editor published => forbidden ⟨editor, published⟩

theorem reviewer_spec (reviews : reviewer claims = .ok ()) : claims.role = .admin := by
  simp only [reviewer] at reviews
  split_ifs at reviews with editor
  exact not_not.mp editor

/-- Who writes is signed in, and more than a member. -/
theorem writer_spec {caller : Option Claims} (allowed : writer caller = .ok claims) :
    caller = some claims ∧ claims.role ≠ .member := by
  cases caller with
  | none => cases allowed
  | some claims' =>
      simp only [writer] at allowed
      split_ifs at allowed with plain
      cases allowed
      refine ⟨rfl, ?_⟩
      intro member
      exact plain (by simp [member])

/-- An article that is reachable is there and reached. -/
theorem reachable_spec {found : Option Article} (reached : reachable claims found = .ok read) :
    found = some read ∧ Reaches claims read := by
  cases found with
  | none => cases reached
  | some row =>
      simp only [reachable] at reached
      split_ifs at reached with hidden
      cases reached
      refine ⟨rfl, ?_⟩
      by_contra neither
      rw [Reaches, not_or] at neither
      exact hidden neither

theorem requestChanges_spec {note : String}
    (sent : requestChanges claims read note now = .ok a) : Revision claims read a := by
  simp only [requestChanges, guard_ok_iff, pure_ok_iff] at sent
  obtain ⟨-, -, -, rfl⟩ := sent
  exact ⟨fun isPublished => ArticleStatus.noConfusion isPublished, fun t was => ⟨was, rfl⟩⟩

/-- A revision that is stored is warranted. -/
theorem warranted_store {operation : Operation} (role : claims.role ≠ .member)
    (reaches : Reaches claims read) (revision : Revision claims read a)
    (unpublished : claims.role ≠ .admin → (∀ id, operation ≠ .withdraw id) →
      read.status ≠ .published) :
    Warranted ⟨claims, operation, .store read a⟩ := by
  refine ⟨role, ?_, ?_, ?_, ?_⟩
  · rintro read' ⟨rfl⟩
    exact reaches
  · intro a' n inserts
    cases inserts
  · rintro read' a' ⟨rfl, rfl⟩
    exact revision
  · rintro edits read' ⟨rfl⟩
    obtain ⟨editor, other⟩ := (Pending.edits_iff _).mp edits
    exact unpublished editor other

variable [Unicode]

/-- The input changes neither the state of an article nor whose it is. -/
theorem applyArticleInput_keeps {input : ArticleInput}
    (applied : applyArticleInput read input = .ok a) :
    a.slug = read.slug ∧ a.authorID = read.authorID ∧ a.status = read.status ∧
      a.firstPublishedAt = read.firstPublishedAt := by
  simp only [applyArticleInput, guard_ok_iff, bind_ok_iff, pure_ok_iff] at applied
  obtain ⟨-, -, -, -, -, facts, -, tags, -, rfl⟩ := applied
  exact ⟨rfl, rfl, rfl, rfl⟩

theorem draft_spec {input : ArticleInput} (drafted : draft claims input = .ok a) :
    a.status = .draft ∧ a.authorID = claims.userID := by
  obtain ⟨-, author, status, -⟩ := applyArticleInput_keeps drafted
  exact ⟨status, author⟩

/-- An update is a revision, and of somebody other than an administrator only of what is not
published. -/
theorem update_spec {input : ArticleInput} (updated : update claims read input = .ok a) :
    Revision claims read a ∧ (claims.role ≠ .admin → read.status ≠ .published) := by
  simp only [update, guard_ok_iff, bind_ok_iff, pure_ok_iff, not_and] at updated
  obtain ⟨-, published, applied, applies, rfl⟩ := updated
  obtain ⟨slug, -, status, first⟩ := applyArticleInput_keeps applies
  refine ⟨⟨?_, ?_⟩, published⟩
  · intro isPublished
    by_contra editor
    have same : read.status = .published := by
      rw [← status, ← isPublished]
      split_ifs <;> rfl
    exact published editor same
  · intro t was
    have set : applied.firstPublishedAt ≠ none := by
      rw [first, was]
      exact Option.some_ne_none t
    rw [if_neg set]
    exact ⟨first.trans was, slug⟩

/-- A submission is a revision, and of somebody other than an administrator only of what is not
published. -/
theorem submit_spec {publishAt : Option Time}
    (submitted : submit claims read publishAt now = .ok a) :
    Revision claims read a ∧ (claims.role ≠ .admin → read.status ≠ .published) := by
  simp only [submit, bind_ok_iff] at submitted
  obtain ⟨-, -, wanted, -, submitted⟩ := submitted
  by_cases admin : claims.role = .admin
  · rw [if_pos admin] at submitted
    exact ⟨publish_spec submitted admin, fun editor => absurd admin editor⟩
  rw [if_neg admin] at submitted
  split_ifs at submitted with reviewed published
  obtain ⟨rfl⟩ := pure_ok_iff.mp submitted
  exact ⟨⟨fun isPublished => ArticleStatus.noConfusion isPublished, fun t was => ⟨was, rfl⟩⟩,
    fun _ => published⟩

/-- What a request has established once it has decided to write. -/
theorem decideWrite_ok {s : Desk} {caller : Option Claims} {operation : Operation} {p : Pending}
    (decided : decideWrite s caller now operation = .ok p) :
    caller = some p.claims ∧ Warranted p ∧
      ∀ read ∈ p.write.read, ∃ id, s.rows id = some read := by
  rw [decideWrite, bind_ok_iff] at decided
  obtain ⟨claims, allowed, decided⟩ := decided
  obtain ⟨called, role⟩ := writer_spec allowed
  cases operation with
  | create input =>
      simp only [guard_ok_iff, bind_ok_iff, pure_ok_iff] at decided
      obtain ⟨a, drafted, -, rfl⟩ := decided
      refine ⟨called, ⟨role, ?_, ?_, ?_, ?_⟩, ?_⟩
      · intro read isRead
        cases isRead
      · rintro a' n ⟨⟩
        exact draft_spec drafted
      · intro read a' stores
        cases stores
      · intro _ read isRead
        cases isRead
      · intro read isRead
        cases isRead
  | update id input =>
      simp only [bind_ok_iff, pure_ok_iff] at decided
      obtain ⟨read, reached, a, updated, rfl⟩ := decided
      obtain ⟨found, reaches⟩ := reachable_spec reached
      obtain ⟨revision, unpublished⟩ := update_spec updated
      refine ⟨called, warranted_store role reaches revision fun editor _ => unpublished editor, ?_⟩
      rintro read' ⟨rfl⟩
      exact ⟨id, found⟩
  | submit id publishAt =>
      simp only [bind_ok_iff, pure_ok_iff] at decided
      obtain ⟨read, reached, a, submitted, rfl⟩ := decided
      obtain ⟨found, reaches⟩ := reachable_spec reached
      obtain ⟨revision, unpublished⟩ := submit_spec submitted
      refine ⟨called, warranted_store role reaches revision fun editor _ => unpublished editor, ?_⟩
      rintro read' ⟨rfl⟩
      exact ⟨id, found⟩
  | requestChanges id note =>
      simp only [bind_ok_iff, pure_ok_iff] at decided
      obtain ⟨⟨⟩, reviews, read, reached, a, sent, rfl⟩ := decided
      obtain ⟨found, reaches⟩ := reachable_spec reached
      have admin : claims.role = .admin := reviewer_spec reviews
      refine ⟨called, warranted_store role reaches (requestChanges_spec sent)
        fun editor _ => absurd admin editor, ?_⟩
      rintro read' ⟨rfl⟩
      exact ⟨id, found⟩
  | withdraw id =>
      simp only [bind_ok_iff, pure_ok_iff] at decided
      obtain ⟨read, reached, a, withdrawn, rfl⟩ := decided
      obtain ⟨found, reaches⟩ := reachable_spec reached
      refine ⟨called, warranted_store role reaches (withdraw_spec withdrawn)
        fun _ other => absurd rfl (other id), ?_⟩
      rintro read' ⟨rfl⟩
      exact ⟨id, found⟩
  | delete id =>
      simp only [bind_ok_iff, pure_ok_iff] at decided
      obtain ⟨read, reached, ⟨⟩, allows, rfl⟩ := decided
      obtain ⟨found, reaches⟩ := reachable_spec reached
      refine ⟨called, ⟨role, ?_, ?_, ?_, ?_⟩, ?_⟩
      · rintro read' ⟨rfl⟩
        exact reaches
      · intro a' n inserts
        cases inserts
      · intro read' a' stores
        cases stores
      · rintro edits read' ⟨rfl⟩
        exact mayDelete_spec allows ((Pending.edits_iff _).mp edits).1
      · rintro read' ⟨rfl⟩
        exact ⟨id, found⟩

end Operations

/-! ## The statements -/

/-- Everything a pending request's statement can do. -/
inductive Sent [Unicode] (s : Desk) (p : Pending) : Desk → Prop
  /-- It changes no row; an insert whose address was taken may be tried again. -/
  | nothing (pending : List Pending) (kept : ∀ q ∈ pending, q ∈ s.pending ∨
      ∃ a n m, p.write = .insert a n ∧ q = { p with write := .insert a m }) :
      Sent s p { s with pending := pending }
  | inserted (a : Article) (n : ℕ) (id suffix : String) (pending : List Pending)
      (write : p.write = .insert a n) (fresh : id ∉ s.issued)
      (kept : ∀ q ∈ pending, q ∈ s.pending) :
      Sent s p
        { rows := Function.update s.rows id
            (some { a with id := id, slug := articleSlug a.title suffix })
          issued := id :: s.issued, pending := pending
          log := ⟨p.claims, { a with id := id, slug := articleSlug a.title suffix }⟩ :: s.log }
  | stored (read a row : Article) (pending : List Pending) (write : p.write = .store read a)
      (found : s.rows read.id = some row) (kept : ∀ q ∈ pending, q ∈ s.pending) :
      Sent s p
        { s with
          rows := Function.update s.rows read.id (some (overwrite row a)), pending := pending
          log := ⟨p.claims, overwrite row a⟩ :: s.log }
  | removed (read : Article) (pending : List Pending) (write : p.write = .remove read)
      (kept : ∀ q ∈ pending, q ∈ s.pending) :
      Sent s p { s with rows := Function.update s.rows read.id none, pending := pending }

/-- A pending request after a statement was pending before, or has no copy. -/
theorem Sent.pending [Unicode] {s s' : Desk} {p : Pending} (sent : Sent s p s') :
    ∀ q ∈ s'.pending, q ∈ s.pending ∨ q.write.read = none := by
  cases sent with
  | nothing pending kept =>
      intro q isPending
      rcases kept q isPending with old | ⟨a, n, m, -, rfl⟩
      · exact Or.inl old
      · exact Or.inr rfl
  | inserted _ _ _ _ _ _ _ kept => exact fun q isPending => Or.inl (kept q isPending)
  | stored _ _ _ _ _ _ kept => exact fun q isPending => Or.inl (kept q isPending)
  | removed _ _ _ kept => exact fun q isPending => Or.inl (kept q isPending)

/-- What is sent is one of the writes, operation by operation. -/
theorem sendWrite_sent [Unicode] {s s' : Desk} {k : ℕ} {p : Pending} {suffix id : String}
    (sent : sendWrite s k p suffix id = some s') : Sent s p s' := by
  have others : ∀ q ∈ s.pending.eraseIdx k, q ∈ s.pending := fun q => List.mem_of_mem_eraseIdx
  rw [sendWrite] at sent
  cases write : p.write with
  | insert a n =>
      simp only [write] at sent
      split_ifs at sent with taken collision last
      · cases sent
        exact .nothing _ fun q kept => Or.inl (others q kept)
      · cases sent
        refine .nothing _ fun q kept => ?_
        rcases List.mem_or_eq_of_mem_set kept with old | new
        · exact Or.inl old
        · exact Or.inr ⟨a, n, n - 1, write, new⟩
      · cases sent
        exact .inserted a n id suffix _ write taken others
  | store read a =>
      simp only [write] at sent
      cases found : s.rows read.id with
      | none =>
          simp only [found, Option.some.injEq] at sent
          subst sent
          exact .nothing _ fun q kept => Or.inl (others q kept)
      | some row =>
          simp only [found] at sent
          split_ifs at sent with collision
          · cases sent
            exact .nothing _ fun q kept => Or.inl (others q kept)
          · cases sent
            exact .stored read a row _ write found others
  | remove read =>
      simp only [write, Option.some.injEq] at sent
      subst sent
      exact .removed read _ write others

/-- Everything a step of the desk can do. -/
theorem desk_next [Unicode] {s s' : Desk} {label : Label} (next : desk.next s label = some s') :
    s' = s ∨
      (∃ p, s' = { s with pending := s.pending ++ [p] } ∧ Warranted p ∧
        ∀ read ∈ p.write.read, ∃ id, s.rows id = some read) ∨
      ∃ p, s.sender label = some p ∧ Sent s p s' := by
  cases label with
  | arrive caller operation now =>
      simp only [desk] at next
      cases decided : decideWrite s caller now operation with
      | error e =>
          simp only [decided, Option.some.injEq] at next
          exact Or.inl next.symm
      | ok p =>
          simp only [decided, Option.some.injEq] at next
          obtain ⟨-, warranted, read⟩ := decideWrite_ok decided
          exact Or.inr (Or.inl ⟨p, next.symm, warranted, read⟩)
  | send k suffix id =>
      obtain ⟨p, pending, sent⟩ := Option.bind_eq_some_iff.mp next
      exact Or.inr (Or.inr ⟨p, pending, sendWrite_sent sent⟩)

end ScoutPulse.Articles
