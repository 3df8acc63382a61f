import ScoutPulse.Football.Article.Publication
import ScoutPulse.Football.Article.Soundness

/-!
# What is published is complete

Submitting an article needs a title and a word of text, and that is checked on the copy
whose publication is then written, content and all. The one way past the check is an
administrator's edit of an article that is published: it stores whatever it is given.
-/

namespace ScoutPulse.Articles

open Strings Outcome

/-! ## Words -/

/-- The words the visited nodes hold together. -/
def textWords (nodes : List (ArticleNode × ℕ)) : ℕ := (nodes.map fun p => ownWords p.1).sum

@[simp]
theorem textWords_cons (n : ArticleNode) (depth : ℕ) (nodes : List (ArticleNode × ℕ)) :
    textWords ((n, depth) :: nodes) = ownWords n + textWords nodes := by
  simp [textWords]

@[simp]
theorem textWords_append (first second : List (ArticleNode × ℕ)) :
    textWords (first ++ second) = textWords first + textWords second := by
  simp [textWords]

@[simp]
theorem leave_words (w : BodyWalker) (n : ArticleNode) : (w.leave n).words = w.words := by
  simp only [BodyWalker.leave]
  split_ifs <;> rfl

/-- The words of a stored body. -/
def wordsOf (body : Json) : ℕ :=
  match decodeNode body with
  | some doc => textWords (visited doc 0)
  | none => 0

/-- An article with a title that is not blank and a body of at least one word. -/
structure Complete (a : Article) : Prop where
  title : blank a.title = false
  body : 0 < wordsOf a.body

/-- The body a request's text is stored as. -/
def ArticleInput.stored (input : ArticleInput) : Json :=
  ((Json.parse (if trimSpace input.body = "" then emptyBody
    else trimSpace input.body)).getD .null).jsonb

/-- An input with a title that is not blank and a body of at least one word. -/
def ArticleInput.complete (input : ArticleInput) : Bool :=
  !blank input.title && 0 < wordsOf input.stored

/-- Every published article is complete. -/
def PublishedComplete (s : Desk) : Prop :=
  ∀ id a, s.rows id = some a → a.status = .published → Complete a

/-- An administrator who edits a published article gives it a complete content. -/
def KeptComplete (s : Desk) : Label → Prop
  | .arrive (some claims) (.update id input) _ =>
      claims.role = .admin → ((s.rows id).any fun a => a.status = .published) = true →
        input.complete = true
  | _ => True

instance (s : Desk) (label : Label) : Decidable (KeptComplete s label) := by
  unfold KeptComplete
  split <;> infer_instance

theorem not_published_of_requestChanges {claims : Claims} {read a : Article} {note : String}
    {now : Time} (sent : requestChanges claims read note now = .ok a) : a.status ≠ .published := by
  simp only [requestChanges, guard_ok_iff, pure_ok_iff] at sent
  obtain ⟨-, -, -, rfl⟩ := sent
  intro published
  cases published

/-- A withdrawal leaves nothing published. -/
theorem not_published_of_withdraw {read a : Article} (withdrawn : withdraw read = .ok a) :
    a.status ≠ .published := by
  intro published
  simp only [withdraw] at withdrawn
  split_ifs at withdrawn
  · cases withdrawn
    cases published
  · cases withdrawn
    cases published

section Walk

variable [Unicode]

theorem enter_words {w w' : BodyWalker} {n : ArticleNode} {depth : ℕ}
    (entered : w.enter n depth = .ok w') : w'.words = w.words + ownWords n := by
  rw [enter_eq entered]

mutual

/-- A walk counts the words of every node it visits. -/
theorem walk_words : ∀ (n : ArticleNode) {depth : ℕ} {w w' : BodyWalker},
    walk n depth w = .ok w' → w'.words = w.words + textWords (visited n depth)
  | ⟨type, attrs, content, marks, text⟩, depth, w, w', walked => by
      simp only [walk, bind_ok_iff, pure_ok_iff] at walked
      obtain ⟨entered, enters, inner, below, rfl⟩ := walked
      have own := enter_words enters
      have children := walkAll_words content below
      rw [leave_words, children, own, visited, textWords_cons, Nat.add_assoc]

/-- The walk counts the words of the nodes it visits, one after the other. -/
theorem walkAll_words : ∀ (ns : List ArticleNode) {depth : ℕ} {w w' : BodyWalker},
    walkAll ns depth w = .ok w' → w'.words = w.words + textWords (visitedAll ns depth)
  | [], depth, w, w', walked => by
      simp only [walkAll, pure_ok_iff] at walked
      rw [← walked, visitedAll]
      rfl
  | n :: ns, depth, w, w', walked => by
      simp only [walkAll, bind_ok_iff] at walked
      obtain ⟨middle, first, rest⟩ := walked
      have head := walk_words n first
      have tail := walkAll_words ns rest
      rw [tail, head, visitedAll, textWords_append, Nat.add_assoc]

end

/-- A document that is checked has the words of the nodes visited. -/
theorem checkDocument_words {doc : ArticleNode} {facts : ArticleBodyFacts}
    (checked : checkDocument doc = .ok facts) : facts.words = textWords (visited doc 0) := by
  simp only [checkDocument, guard_ok_iff, bind_ok_iff, pure_ok_iff] at checked
  obtain ⟨-, w, walked, rfl⟩ := checked
  have counted := walk_words doc walked
  rw [BodyWalker.start, Nat.zero_add] at counted
  exact counted

/-- What passes the submission's check is complete. -/
theorem complete_of_readyToSubmit {a : Article} (ready : readyToSubmit a = .ok ()) :
    Complete a := by
  simp only [readyToSubmit, guard_ok_iff, bind_ok_iff] at ready
  obtain ⟨titled, facts, checked, some_⟩ := ready
  constructor
  case title => rwa [trimSpace_eq_empty_iff, Bool.not_eq_true] at titled
  case body =>
    unfold checkStoredBody at checked
    unfold wordsOf
    cases decoded : decodeNode a.body with
    | none =>
        rw [decoded] at checked
        cases checked
    | some doc =>
        rw [decoded] at checked
        have words := checkDocument_words checked
        have positive : facts.words ≠ 0 := by
          intro none
          rw [if_pos none] at some_
          cases some_
        dsimp only
        omega

/-! ## The operations -/

section Operations

variable {claims : Claims} {read a : Article} {now : Time}

/-- What an input leaves of a title. -/
theorem applyArticleInput_title {input : ArticleInput}
    (applied : applyArticleInput read input = .ok a) :
    a.title = join (fields input.title) " " := by
  simp only [applyArticleInput, guard_ok_iff, bind_ok_iff, pure_ok_iff] at applied
  obtain ⟨-, -, -, -, -, facts, -, tags, -, result⟩ := applied
  rw [← result]

/-- What an input leaves of a body. -/
theorem applyArticleInput_body {input : ArticleInput}
    (applied : applyArticleInput read input = .ok a) : a.body = input.stored := by
  simp only [applyArticleInput, guard_ok_iff, bind_ok_iff, pure_ok_iff] at applied
  obtain ⟨-, -, -, -, -, facts, -, tags, -, result⟩ := applied
  rw [← result, ArticleInput.stored]

/-- Input with all that is needed leaves the article complete. -/
theorem complete_of_input {input : ArticleInput} (whole : input.complete = true)
    (applied : applyArticleInput read input = .ok a) : Complete a := by
  have title := applyArticleInput_title applied
  have body := applyArticleInput_body applied
  simp only [ArticleInput.complete, Bool.and_eq_true, Bool.not_eq_true',
    decide_eq_true_eq] at whole
  constructor
  case title =>
    rw [title]
    exact blank_join_fields whole.1
  case body =>
    rw [body]
    exact whole.2

/-- An update leaves a published article complete, when an administrator's input to one has all
that is needed. -/
theorem update_complete {input : ArticleInput} (updated : update claims read input = .ok a)
    (kept : claims.role = .admin → read.status = .published → input.complete = true)
    (published : a.status = .published) : Complete a := by
  simp only [update, guard_ok_iff, bind_ok_iff, pure_ok_iff, not_and] at updated
  obtain ⟨-, forbidden, applied, applies, rfl⟩ := updated
  obtain ⟨-, -, status, -⟩ := applyArticleInput_keeps applies
  have was : read.status = .published := by
    rw [← status, ← published]
    split_ifs <;> rfl
  have admin : claims.role = .admin := by
    by_contra editor
    exact forbidden editor was
  have whole : Complete applied := complete_of_input (kept admin was) applies
  split_ifs
  · exact ⟨whole.title, whole.body⟩
  · exact whole

/-- Publishing leaves the content that was checked. -/
theorem submit_complete {publishAt : Option Time}
    (submitted : submit claims read publishAt now = .ok a) (published : a.status = .published) :
    Complete a := by
  simp only [submit, bind_ok_iff] at submitted
  obtain ⟨⟨⟩, ready, wanted, -, submitted⟩ := submitted
  have whole := complete_of_readyToSubmit ready
  by_cases admin : claims.role = .admin
  · rw [if_pos admin] at submitted
    simp only [publish, guard_ok_iff, pure_ok_iff] at submitted
    obtain ⟨-, rfl⟩ := submitted
    exact ⟨whole.title, whole.body⟩
  · rw [if_neg admin] at submitted
    split_ifs at submitted
    obtain ⟨rfl⟩ := pure_ok_iff.mp submitted
    cases published

/-- A row that is to be stored as published is complete. -/
theorem decideWrite_complete {s : Desk} {caller : Option Claims} {operation : Operation}
    {p : Pending} (decided : decideWrite s caller now operation = .ok p)
    (kept : KeptComplete s (.arrive caller operation now)) (write : p.write = .store read a)
    (published : a.status = .published) : Complete a := by
  rw [decideWrite, bind_ok_iff] at decided
  obtain ⟨claims, allowed, decided⟩ := decided
  obtain ⟨rfl, -⟩ := writer_spec allowed
  cases operation with
  | create input =>
      simp only [guard_ok_iff, bind_ok_iff, pure_ok_iff] at decided
      obtain ⟨a', -, -, rfl⟩ := decided
      cases write
  | update id input =>
      simp only [bind_ok_iff, pure_ok_iff] at decided
      obtain ⟨read', reached, a', updated, rfl⟩ := decided
      cases write
      obtain ⟨found, -⟩ := reachable_spec reached
      apply update_complete updated _ published
      intro admin was
      exact kept admin (by rw [found, Option.any_some, was]; rfl)
  | submit id publishAt =>
      simp only [bind_ok_iff, pure_ok_iff] at decided
      obtain ⟨read', -, a', submitted, rfl⟩ := decided
      cases write
      exact submit_complete submitted published
  | requestChanges id note =>
      simp only [bind_ok_iff, pure_ok_iff] at decided
      obtain ⟨⟨⟩, -, read', -, a', sent, rfl⟩ := decided
      cases write
      exact absurd published (not_published_of_requestChanges sent)
  | withdraw id =>
      simp only [bind_ok_iff, pure_ok_iff] at decided
      obtain ⟨read', -, a', withdrawn, rfl⟩ := decided
      cases write
      exact absurd published (not_published_of_withdraw withdrawn)
  | delete id =>
      simp only [bind_ok_iff, pure_ok_iff] at decided
      obtain ⟨read', -, ⟨⟩, -, rfl⟩ := decided
      cases write

end Operations

/-! ## Whole runs -/

/-- What is published, and what is about to be, is complete. -/
structure Completed (s : Desk) : Prop where
  ordered : Ordered s
  rows : PublishedComplete s
  writes : ∀ p ∈ s.pending, ∀ read a, p.write = .store read a → a.status = .published →
    Complete a

/-- A write that is sent leaves the published articles complete. -/
theorem Completed.sent {s s' : Desk} {p : Pending} (completed : Completed s)
    (member : p ∈ s.pending) (sent : Sent s p s') : Completed s' := by
  have ordered := completed.ordered.sent member sent
  have pending : ∀ q ∈ s'.pending, ∀ read a, q.write = .store read a →
      a.status = .published → Complete a := by
    intro q isPending read a write published
    rcases sent.pending q isPending with old | none_
    · exact completed.writes q old read a write published
    · rw [write] at none_
      cases none_
  refine ⟨ordered, ?_, pending⟩
  intro id a found published
  cases sent with
  | nothing pending kept => exact completed.rows id a found published
  | inserted a' n id' suffix pending write fresh kept =>
      obtain ⟨rfl, rfl⟩ | ⟨-, old⟩ := Rows.put_eq_some.mp found
      · obtain ⟨isDraft, -⟩ := (completed.ordered.warranted p member).inserts a' n write
        exact absurd (isDraft.symm.trans published) (by decide)
      · exact completed.rows id a old published
  | stored read a' row pending write was kept =>
      obtain ⟨rfl, rfl⟩ | ⟨-, old⟩ := Rows.put_eq_some.mp found
      · have whole := completed.writes p member read a' write published
        exact ⟨whole.title, whole.body⟩
      · exact completed.rows id a old published
  | removed read pending write kept =>
      exact completed.rows id a (Rows.delete_eq_some.mp found).2 published

/-- Whatever the desk does next leaves them complete. -/
theorem Completed.next {s s' : Desk} {label : Label} (completed : Completed s)
    (kept : KeptComplete s label) (next : desk.next s label = some s') : Completed s' := by
  have ordered := completed.ordered.next next
  cases label with
  | arrive caller operation now =>
      simp only [desk] at next
      cases decided : decideWrite s caller now operation with
      | error e =>
          simp only [decided, Option.some.injEq] at next
          subst next
          exact completed
      | ok p =>
          simp only [decided, Option.some.injEq] at next
          subst next
          refine ⟨ordered, completed.rows, ?_⟩
          rw [List.forall_mem_append, List.forall_mem_singleton]
          exact ⟨completed.writes, fun read a => decideWrite_complete decided kept⟩
  | send k suffix id =>
      obtain ⟨p, pending, sent⟩ := Option.bind_eq_some_iff.mp next
      exact completed.sent (List.mem_of_getElem? pending) (sendWrite_sent sent)

/-- In every run in which administrators give the published articles they edit a complete
content, every published article is complete. -/
theorem published_complete {s : Desk} (reached : desk.Reach KeptComplete s) :
    PublishedComplete s := by
  have completed : Completed s := by
    apply reached.invariant
    · intro t start
      cases start
      exact ⟨.empty, fun _ _ found => (nomatch found), List.forall_mem_nil _⟩
    · intro t t' label completed kept next
      exact completed.next kept next
  exact completed.rows

end Walk

/-- An administrator clears the title of the published article. -/
def clearedTitle : List Label :=
  [.arrive (some chief) (.update "a1" { shortInput with title := " " }) 3, .send 0 "" ""]

section Ascii

attribute [local instance] Unicode.ascii

def keptDesk : Desk := desk.after KeptComplete .empty (submission ++ approval ++ correction)

/-- A correction that keeps all that is needed leaves its article complete. -/
theorem published_complete_correction :
    ((keptDesk.rows "a1").map fun a => (a.title, a.status)) = some ("High press", .published) ∧
      PublishedComplete keptDesk := by
  have reached : desk.Reach KeptComplete keptDesk := Machine.reach_after rfl (by decide +kernel)
  exact ⟨by decide +kernel, published_complete reached⟩

def clearedDesk : Desk :=
  desk.after Machine.always .empty (submission ++ approval ++ clearedTitle)

/-- The edit leaves a published article without a title. -/
theorem published_without_title :
    desk.Reach Machine.always clearedDesk ∧ ¬ PublishedComplete clearedDesk := by
  refine ⟨Machine.reach_after rfl (by decide +kernel), ?_⟩
  intro whole
  have shown : ((clearedDesk.rows "a1").map fun a => (a.status, blank a.title)) =
      some (.published, true) := by decide +kernel
  obtain ⟨a, found, parts⟩ := Option.map_eq_some_iff.mp shown
  obtain ⟨status, title⟩ := Prod.mk.inj parts
  have titled := (whole "a1" a found status).title
  rw [title] at titled
  cases titled

end Ascii

end ScoutPulse.Articles
