import ScoutPulse.Football.Article.Service
import ScoutPulse.Lib.Machine
import ScoutPulse.Lib.Outcome
import ScoutPulse.Lib.Rows

/-!
# The article desk

Requests run side by side. Each reads its row, decides, and later sends one statement
that inserts a draft, writes back every mutable column of the copy it read, or
deletes the row; between the read and the statement any other request may run.

The desk keeps a log of the rows its statements have left behind and of who sent
them. Nothing is decided from it: it is what the properties are stated about.
-/

namespace ScoutPulse.Articles

open Strings Outcome

/-- A request to the desk. -/
inductive Operation
  | create (input : ArticleInput)
  | update (id : String) (input : ArticleInput)
  | submit (id : String) (publishAt : Option Time)
  | requestChanges (id : String) (note : String)
  | withdraw (id : String)
  | delete (id : String)

/-- The statement a request has still to send. -/
inductive Write
  /-- `INSERT` of a draft, with the draws of a suffix that are left. -/
  | insert (a : Article) (attempts : ℕ)
  /-- `UPDATE` of every mutable column, decided from the copy `read`. -/
  | store (read a : Article)
  /-- `DELETE` of the row `read` was read from. -/
  | remove (read : Article)

/-- A request that has decided and not yet written. -/
structure Pending where
  claims : Claims
  operation : Operation
  write : Write

/-- A row as a statement left it, and the caller whose request sent it. -/
structure Entry where
  claims : Claims
  row : Article

/-- The `articles` table, the requests under way, and the log, newest first. -/
structure Desk where
  rows : String → Option Article
  /-- The ids given out so far; `gen_random_uuid()` gives none twice. -/
  issued : List String
  pending : List Pending
  log : List Entry

namespace Desk

def empty : Desk := ⟨fun _ => none, [], [], []⟩

/-- `CountByAuthor`. -/
def countByAuthor (s : Desk) (authorID : String) : ℕ :=
  (s.issued.filter fun id => (s.rows id).any fun a => a.authorID = authorID).length

/-- The unique constraint on `slug`, for a row about to be stored under `id`. -/
def slugTaken (s : Desk) (id slug : String) : Bool :=
  s.issued.any fun other => other ≠ id && (s.rows other).any fun a => a.slug = slug

/-- `GetLive`. -/
def getLive (s : Desk) (slug : String) (now : Time) : Option Article :=
  (s.issued.filterMap s.rows).find? fun a => a.slug = slug && a.live now

/-- `ListLive`, without its paging. -/
def listLive (s : Desk) (tag : Option String) (now : Time) : List Article :=
  (s.issued.filterMap s.rows).filter fun a => a.live now && tag.all a.tags.contains

/-- The newest entry about a row. -/
def lastWrite (s : Desk) (id : String) : Option Entry := s.log.find? fun e => e.row.id = id

end Desk

/-- What `UPDATE articles SET …` leaves of a row: the author and the id stay. -/
def overwrite (row a : Article) : Article :=
  { a with id := row.id, authorID := row.authorID, authorName := row.authorName }

section Step

variable [Unicode]

/-- The read and the decision of a request. -/
def decideWrite (s : Desk) (caller : Option Claims) (now : Time) (operation : Operation) :
    Except AppErr Pending := do
  let claims ← writer caller
  match operation with
  | .create input =>
      let a ← draft claims input
      if maxArticlesPerAuthor ≤ s.countByAuthor claims.userID then
        throw (.invalid
          "you have reached the limit of 1000 articles; delete some drafts to make room")
      return ⟨claims, .create input, .insert a 3⟩
  | .update id input =>
      let read ← reachable claims (s.rows id)
      let a ← update claims read input
      return ⟨claims, .update id input, .store read a⟩
  | .submit id publishAt =>
      let read ← reachable claims (s.rows id)
      let a ← submit claims read publishAt now
      return ⟨claims, .submit id publishAt, .store read a⟩
  | .requestChanges id note =>
      reviewer claims
      let read ← reachable claims (s.rows id)
      let a ← requestChanges claims read note now
      return ⟨claims, .requestChanges id note, .store read a⟩
  | .withdraw id =>
      let read ← reachable claims (s.rows id)
      let a ← withdraw read
      return ⟨claims, .withdraw id, .store read a⟩
  | .delete id =>
      let read ← reachable claims (s.rows id)
      mayDelete claims read
      return ⟨claims, .delete id, .remove read⟩

/-- One step of the desk: a request arrives and decides, or a pending request sends its
statement, an insert with the suffix and the id drawn for it. -/
inductive Label
  | arrive (caller : Option Claims) (operation : Operation) (now : Time)
  | send (k : ℕ) (suffix id : String)

/-- A pending request's statement. One that hits a constraint or finds no row leaves
the table as it was. -/
def sendWrite (s : Desk) (k : ℕ) (p : Pending) (suffix id : String) : Option Desk :=
  match p.write with
  | .insert a attempts =>
      let row := { a with id := id, slug := articleSlug a.title suffix }
      if id ∈ s.issued then none
      else if s.slugTaken id row.slug then
        -- A collision is answered by drawing again.
        some { s with pending := if attempts ≤ 1 then s.pending.eraseIdx k
          else s.pending.set k { p with write := .insert a (attempts - 1) } }
      else some
        { rows := Function.update s.rows id (some row), issued := id :: s.issued
          pending := s.pending.eraseIdx k, log := ⟨p.claims, row⟩ :: s.log }
  | .store read a =>
      match s.rows read.id with
      | none => some { s with pending := s.pending.eraseIdx k }
      | some row =>
          if s.slugTaken read.id a.slug then some { s with pending := s.pending.eraseIdx k }
          else some
            { s with
              rows := Function.update s.rows read.id (some (overwrite row a))
              pending := s.pending.eraseIdx k
              log := ⟨p.claims, overwrite row a⟩ :: s.log }
  | .remove read => some
      { s with
        rows := Function.update s.rows read.id none, pending := s.pending.eraseIdx k }

/-- The desk, from an empty table. -/
def desk : Machine Desk Label where
  start s := s = .empty
  next s
    | .arrive caller operation now =>
        match decideWrite s caller now operation with
        | .ok p => some { s with pending := s.pending ++ [p] }
        | .error _ => some s
    | .send k suffix id => (s.pending[k]?).bind fun p => sendWrite s k p suffix id

end Step

/-- The pending request whose statement a step sends. -/
def Desk.sender (s : Desk) : Label → Option Pending
  | .arrive _ _ _ => none
  | .send k _ _ => s.pending[k]?

/-- The caller on whose behalf a step is taken. -/
def Desk.actor (s : Desk) : Label → Option Claims
  | .arrive caller _ _ => caller
  | .send k _ _ => (s.pending[k]?).map Pending.claims

theorem Desk.sender_mem {s : Desk} {label : Label} {p : Pending}
    (sender : s.sender label = some p) : p ∈ s.pending := by
  cases label with
  | arrive caller operation now => cases sender
  | send k suffix id => exact List.mem_of_getElem? sender

/-- What is sent is sent for the caller it was decided for. -/
theorem Desk.actor_of_sender {s : Desk} {label : Label} {p : Pending}
    (sender : s.sender label = some p) : s.actor label = some p.claims := by
  cases label with
  | arrive caller operation now => cases sender
  | send k suffix id =>
      change s.pending[k]? = some p at sender
      rw [Desk.actor, sender, Option.map_some]

end ScoutPulse.Articles
