import ScoutPulse.Football.Article.Decisions
import ScoutPulse.Football.Article.Outline
import ScoutPulse.Football.Article.Reading
import ScoutPulse.Lib.Machine

/-!
# Writing an article

The editor saves its working copy a moment after the last edit, and before every request that
hands the article on. One save is in flight at a time, as the code has it: a save that is
asked for meanwhile waits for the one in flight, and then saves what has changed.

The desk and the wire are in the state too: a request is carried out or refused at some
moment after it has been sent, and answered or lost at some later one. Everything that runs
before the browser takes its next turn is one step.

The desk does not keep a text as it was sent: it trims it, joins the words of the title,
brings the tags into one form, and refuses what breaks a rule. The editor goes on showing
its own.
-/

namespace ScoutPulse.Drafting

open Articles Outcome

/-! ## The working copy -/

/-- `ArticleInput`, as `input` puts it together. -/
structure WorkingCopy where
  title : String
  subtitle : String
  coverUrl : String
  coverCaption : String
  body : ArticleNode
  tags : List String

/-- `isEmptyDoc`: the document has nothing a reader would see. -/
def isEmptyDoc (doc : ArticleNode) : Bool :=
  !doc.content.any fun n =>
    jsTrim (ArticleBody.plainText n) ≠ "" || n.type ∈ ["figure", "tacticBoard", "video"]

/-- Nothing worth creating a draft for yet. -/
def WorkingCopy.blank (c : WorkingCopy) : Bool :=
  jsTrim c.title = "" && jsTrim c.subtitle = "" && c.coverUrl = "" && isEmptyDoc c.body

/-- `emptyArticleDoc`. -/
def emptyArticleDoc : ArticleNode :=
  { type := "doc", attrs := [], marks := [], text := "",
    content := [{ type := "paragraph", attrs := [], content := [], marks := [], text := "" }] }

/-- What an editor opened on no article starts from. -/
def WorkingCopy.fresh : WorkingCopy := ⟨"", "", "", "", emptyArticleDoc, []⟩

/-- `JSON.stringify`, of documents. -/
class DocumentText where
  stringify : ArticleNode → String

/-- `input`, as it is sent. -/
def WorkingCopy.input [DocumentText] (c : WorkingCopy) : ArticleInput :=
  ⟨c.title, c.subtitle, c.coverUrl, c.coverCaption, DocumentText.stringify c.body, c.tags⟩

/-! ## What the desk keeps -/

/-- The columns of an article that are written from an input. -/
structure Columns where
  title : String
  subtitle : String
  coverURL : String
  coverCaption : String
  body : Json
  excerpt : String
  readingMinutes : ℕ
  tags : List String

def columns (a : Article) : Columns :=
  ⟨a.title, a.subtitle, a.coverURL, a.coverCaption, a.body, a.excerpt, a.readingMinutes, a.tags⟩

/-- The working copy of an article that has been loaded. -/
def WorkingCopy.of (a : Columns) : WorkingCopy where
  title := a.title
  subtitle := a.subtitle
  coverUrl := a.coverURL
  coverCaption := a.coverCaption
  body := ((readNode a.body).filter (·.type = "doc")).getD emptyArticleDoc
  tags := a.tags

section Kept

variable [Unicode]

/-- What the service writes of an input, or why it refuses it. -/
def storedAs (input : ArticleInput) : Except AppErr Columns :=
  (draft ⟨"", .editor, ""⟩ input).map columns

/-- An input that can be written over one row can be written over any, with the same columns. -/
theorem exists_applied {read a : Article} {input : ArticleInput}
    (applied : applyArticleInput read input = .ok a) (other : Article) :
    ∃ b, applyArticleInput other input = .ok b ∧ columns b = columns a := by
  refine ⟨{ other with
    title := a.title, subtitle := a.subtitle, coverURL := a.coverURL
    coverCaption := a.coverCaption, body := a.body, excerpt := a.excerpt
    readingMinutes := a.readingMinutes, tags := a.tags }, ?_, rfl⟩
  simp only [applyArticleInput, guard_ok_iff, bind_ok_iff, pure_ok_iff] at applied ⊢
  obtain ⟨title, subtitle, cover, caption, length, facts, checked, tags, normalised, rfl⟩ :=
    applied
  refine ⟨title, subtitle, cover, caption, length, facts, checked, tags, normalised, ?_⟩
  dsimp only

/-- What is kept does not depend on the row it is written to. -/
theorem storedAs_of_applied {read a : Article} {input : ArticleInput}
    (applied : applyArticleInput read input = .ok a) : storedAs input = .ok (columns a) := by
  obtain ⟨b, made, same⟩ := exists_applied applied _
  rw [storedAs, draft, made, ← same]
  rfl

/-- A new draft has the columns of its input. -/
theorem storedAs_of_draft {claims : Claims} {a : Article} {input : ArticleInput}
    (drafted : draft claims input = .ok a) : storedAs input = .ok (columns a) :=
  storedAs_of_applied drafted

/-- So has an article that is updated, whatever becomes of its address. -/
theorem storedAs_of_update {claims : Claims} {read a : Article} {input : ArticleInput}
    (updated : update claims read input = .ok a) : storedAs input = .ok (columns a) := by
  simp only [update, guard_ok_iff, bind_ok_iff, pure_ok_iff] at updated
  obtain ⟨-, -, written, applied, rfl⟩ := updated
  rw [storedAs_of_applied applied]
  split <;> rfl

end Kept

/-! ## Requests -/

/-- What `act` runs. -/
inductive Operation
  | submit (publishAt : Option Time)
  | requestChanges (note : String)
  | withdraw
  deriving DecidableEq

/-- A call of `act` that waits for its save. `asked` is the number of edits made when it was
asked for, if the text could be edited then; the code does not have it. -/
structure Act where
  run : Operation
  asked : Option ℕ
  deriving DecidableEq

/-- What has become of a save at the desk. -/
inductive Handling
  | waiting
  | stored (row : ℕ) (status : ArticleStatus)
  | refused
  deriving DecidableEq

/-- How a request has ended in the editor. -/
inductive Ending
  | answered
  | failed
  deriving DecidableEq

/-- A save that has been sent: `create` where there is no row yet, otherwise `update`. -/
structure Save where
  row : Option ℕ
  text : WorkingCopy
  seen : ℕ
  /-- The call of `act` the save was made for. -/
  act : Option Act
  handling : Handling
  ending : Option Ending

/-- The desk has stored what the save has sent. -/
def Save.isStored (v : Save) : Bool :=
  match v.handling with
  | .stored _ _ => true
  | _ => false

/-- A draft whose answer never came. -/
def Save.isLost (v : Save) : Bool := v.row = none && v.isStored && v.ending = some .failed

/-- A request of the workflow that has been sent. -/
structure Sent where
  row : ℕ
  act : Act
  finished : Bool
  deriving DecidableEq

/-- A row of the desk. `written` is the number of edits behind its text; the desk does not
have it. -/
structure Row where
  text : Columns
  written : ℕ

/-- A save that waits for the one in flight. -/
structure Waiter where
  awaits : ℕ
  act : Option Act

/-- The editor, its requests and the desk. What is only shown is left out: `savedAt`,
`notice`, `actionError`, and `saving`, which is set and cleared with `inFlight`. -/
structure State where
  isAdmin : Bool
  /-- The row of the article and its status, of the last answer. -/
  article : Option (ℕ × ArticleStatus)
  text : WorkingCopy
  edits : ℕ
  dirty : Bool
  timer : Bool
  inFlight : Option ℕ
  waiting : List Waiter
  saveError : Bool
  busy : Bool
  saves : List Save
  sent : List Sent
  rows : List Row

namespace State

/-! ## The editor -/

def canEdit (s : State) : Bool :=
  match s.article with
  | none => true
  | some (_, status) => s.isAdmin || status = .draft || status = .changesRequested

def edited (s : State) : State :=
  if s.canEdit then { s with edits := s.edits + 1, dirty := true, timer := true } else s

/-- The row the next save goes to. -/
def row (s : State) : Option ℕ := s.article.map (·.1)

/-- `act`, after its save. -/
def proceed (s : State) (act : Act) : State :=
  match s.row with
  | none => s
  | some row =>
      if s.saveError then s
      else { s with busy := true, sent := s.sent ++ [⟨row, act, false⟩] }

/-- What comes after a save: for one that was made for its own sake, nothing. -/
def goOn (s : State) : Option Act → State
  | none => s
  | some act => s.proceed act

/-- The request of a save. -/
def send (s : State) (act : Option Act) : State :=
  { s with
    saveError := false
    inFlight := some s.saves.length
    saves := s.saves ++ [⟨s.row, s.text, s.edits, act, .waiting, none⟩] }

/-- `save` once it does not have to wait. -/
def begin_ (s : State) (act : Option Act) : State :=
  if s.dirty = false ∨ s.canEdit = false then s.goOn act
  else if s.article = none ∧ s.text.blank then { s with dirty := false }.goOn act
  else s.send act

def save (s : State) (act : Option Act) : State :=
  let s := { s with timer := false }
  match s.inFlight with
  | some i => { s with waiting := s.waiting ++ [⟨i, act⟩] }
  | none => s.begin_ act

/-- A call of `act` with the edits made so far. -/
def act (s : State) (run : Operation) : Act := ⟨run, if s.canEdit then some s.edits else none⟩

/-- The end of the save that sent a request: edits made while it was on the wire. -/
def rearm (s : State) : State :=
  if s.dirty ∧ s.saveError = false then { s with timer := true } else s

/-- What runs when a request is over, in this order: the rest of the save that sent it, the
saves that waited for it, and the call of `act` it was made for. -/
def settle (s : State) (i : ℕ) (act : Option Act) : State :=
  let s := s.rearm
  let woken := s.waiting.filter (·.awaits = i)
  let s := { s with waiting := s.waiting.filter (·.awaits ≠ i) }
  (woken.foldl (fun s w => s.begin_ w.act) s).goOn act

/-! ## The desk -/

/-- The desk stores what it keeps of a text, as a new row or over an old one. -/
def store (s : State) (i : ℕ) (v : Save) (text : Columns) (status : ArticleStatus) : State :=
  match v.row with
  | none =>
      { s with
        rows := s.rows ++ [⟨text, v.seen⟩]
        saves := s.saves.set i { v with handling := .stored s.rows.length status } }
  | some row =>
      { s with
        rows := s.rows.set row ⟨text, v.seen⟩
        saves := s.saves.set i { v with handling := .stored row status } }

end State

inductive Event
  /-- Input of any kind: a keystroke, a tag, an answered dialog. -/
  | edit (text : WorkingCopy)
  /-- The timer fires. -/
  | fires
  /-- A save that is asked for, by its key or on leaving. -/
  | save
  /-- A button of the panel. They are off while a save or a request is in flight. -/
  | act (run : Operation)
  /-- The desk carries out a save and leaves the article in some status, or refuses it. It
  carries out none whose input breaks a rule. -/
  | handle (i : ℕ) (status : Option ArticleStatus)
  /-- The answer to a save that was carried out arrives. -/
  | answer (i : ℕ)
  /-- A save fails in the editor, whatever became of it at the desk. -/
  | fail (i : ℕ)
  /-- A request of the workflow is answered with the article's new status. -/
  | acted (j : ℕ) (status : ArticleStatus)
  | actFailed (j : ℕ)

namespace State

section Steps

variable [Unicode] [DocumentText]

def next (s : State) : Event → Option State
  | .edit text => some { s with text := text }.edited
  | .fires => if s.timer then some (s.save none) else none
  | .save => some (s.save none)
  | .act run =>
      if s.busy = false ∧ s.inFlight = none then some (s.save (some (s.act run))) else none
  | .handle i status =>
      match s.saves[i]? with
      | some v =>
          if v.handling = .waiting then
            match status with
            | some status =>
                match storedAs v.text.input with
                | .ok text => some (s.store i v text status)
                | .error _ => none
            | none => some { s with saves := s.saves.set i { v with handling := .refused } }
          else none
      | none => none
  | .answer i =>
      match s.saves[i]? with
      | some v =>
          match v.handling, v.ending with
          | .stored row status, none =>
              some ({ s with
                article := some (row, status)
                dirty := if s.edits = v.seen then false else s.dirty
                inFlight := none
                saves := s.saves.set i { v with ending := some .answered } }.settle i v.act)
          | _, _ => none
      | none => none
  | .fail i =>
      match s.saves[i]? with
      | some v =>
          if v.ending = none then
            some ({ s with
              saveError := true
              inFlight := none
              saves := s.saves.set i { v with ending := some .failed } }.settle i v.act)
          else none
      | none => none
  | .acted j status =>
      match s.sent[j]? with
      | some a =>
          if a.finished = false then
            some { s with
              article := some (a.row, status)
              busy := false
              sent := s.sent.set j { a with finished := true } }
          else none
      | none => none
  | .actFailed j =>
      match s.sent[j]? with
      | some a =>
          if a.finished = false then
            some { s with busy := false, sent := s.sent.set j { a with finished := true } }
          else none
      | none => none

end Steps

/-- An editor opened on no article. -/
def new (isAdmin : Bool) : State :=
  ⟨isAdmin, none, .fresh, 0, false, false, none, [], false, false, [], [], []⟩

/-- An editor that has loaded an article. -/
def loaded (isAdmin : Bool) (text : Columns) (status : ArticleStatus) : State :=
  ⟨isAdmin, some (0, status), .of text, 0, false, false, none, [], false, false, [], [],
    [⟨text, 0⟩]⟩

end State

/-- One editor from when it is opened. Nobody else writes the article. -/
def machine [Unicode] [DocumentText] : Machine State Event where
  start s := ∃ isAdmin, s = .new isAdmin ∨ ∃ text status, s = .loaded isAdmin text status
  next := State.next

/-! ## Runs in order -/

/-- A step that keeps the saves in order: text arrives only while it can be edited, at most
one save waits at a time, the desk does not carry out what the editor has given up, and the
save a button of the panel has made does not fail while another one waits for it. -/
def Orderly (s : State) : Event → Prop
  | .edit _ => s.canEdit = true
  | .fires => s.waiting = []
  | .save => s.waiting = []
  | .handle i _ => s.saves[i]?.all (·.ending = none) = true
  | .fail i => s.waiting = [] ∨ s.saves[i]?.all (·.act.isNone) = true
  | _ => True

instance (s : State) (e : Event) : Decidable (Orderly s e) := by
  cases e <;> unfold Orderly <;> infer_instance

/-- A step by which no answer of the workflow unlocks a text with unsaved changes. -/
def Steady (s : State) : Event → Prop
  | .acted _ status => s.dirty = true → s.canEdit = false →
      status ≠ .draft ∧ status ≠ .changesRequested
  | _ => True

instance (s : State) (e : Event) : Decidable (Steady s e) := by
  cases e <;> unfold Steady <;> infer_instance

/-- The drafts that were stored but whose answers never came. -/
def State.lost (s : State) : ℕ := s.saves.countP Save.isLost

end ScoutPulse.Drafting
