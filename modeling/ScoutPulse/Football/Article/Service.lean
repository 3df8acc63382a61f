import ScoutPulse.Football.Article.Body
import ScoutPulse.Platform.Auth

/-!
# The article service

What each desk operation decides from its caller, its input, the clock and the copy
of the row it has read. An operation that goes through hands back the row it wants
stored; storing it is a statement of its own, so a decision may be stale by then.
-/

namespace ScoutPulse.Articles

open Strings

/-- A point in time, in microseconds, the resolution of a `timestamptz` column. -/
abbrev Time := ℤ

/-- `domain.ArticleStatus`. -/
inductive ArticleStatus
  | draft
  | inReview
  | changesRequested
  | published
  deriving DecidableEq, Repr

/-- `domain.Article`, with the body as the tree its column stores. -/
structure Article where
  id : String
  slug : String
  authorID : String
  authorName : String
  title : String
  subtitle : String
  coverURL : String
  coverCaption : String
  body : Json
  excerpt : String
  readingMinutes : ℕ
  tags : List String
  status : ArticleStatus
  publishAt : Option Time
  firstPublishedAt : Option Time
  submittedAt : Option Time
  reviewerID : Option String
  reviewerName : String
  reviewedAt : Option Time
  reviewNote : String

/-- `Article.Live`. -/
def Article.live (a : Article) (now : Time) : Bool :=
  a.status = .published && a.publishAt.any (· ≤ now)

/-- `ArticleInput`: the writable surface of an article. -/
structure ArticleInput where
  title : String
  subtitle : String
  coverURL : String
  coverCaption : String
  body : String
  tags : List String

def maxArticleTitleLength : ℕ := 160
def maxArticleSubtitleLength : ℕ := 300
def maxArticleCaptionLength : ℕ := 300
def maxArticleBodyBytes : ℕ := 512 * 1024
def maxArticleTags : ℕ := 8
def maxArticleTagLength : ℕ := 32
def maxReviewNoteLength : ℕ := 2000
def maxArticlesPerAuthor : ℕ := 1000

def second : Time := 1000000

/-- `MaxScheduleAhead`. -/
def maxScheduleAhead : Time := 366 * 24 * 3600 * second

def suffixLength : ℕ := 6

section Rules

variable [Unicode]

/-! ## Addresses -/

/-- Words of an address read so far: the runes written, how many, and whether a
separator is due before the next one. -/
def slugWordsFrom (written : List Char) (n : ℕ) (dash : Bool) : List Char → List Char
  | [] => written
  | r :: rs =>
      if Unicode.isMn r then slugWordsFrom written n dash rs
      else if r = '\'' ∨ r = '’' then slugWordsFrom written n dash rs
      else if Unicode.isLetter r || Unicode.isDigit r then
        if 60 ≤ n then
          -- Out of room in the middle of a word: end on the last whole word.
          match splitLast '-' written with
          | some (words, _) =>
              if 20 < byteLen (String.ofList words) && !dash then words else written
          | none => written
        else if dash && written ≠ [] then slugWordsFrom (written ++ ['-', r]) (n + 2) false rs
        else slugWordsFrom (written ++ [r]) (n + 1) false rs
      else slugWordsFrom written n true rs

/-- `slugWords`. -/
def slugWords (title : String) : String :=
  String.ofList (slugWordsFrom [] 0 false (Unicode.nfkd (toLower title)).toList)

/-- `articleSlug`. -/
def articleSlug (title suffix : String) : String :=
  if slugWords title ≠ "" then slugWords title ++ "-" ++ suffix else "article-" ++ suffix

/-- `slugSuffix`: the random half of an address, or all of one that has none. -/
def slugSuffix (slug : String) : String :=
  match splitLast '-' slug.toList with
  | some (_, suffix) =>
      if byteLen (String.ofList suffix) = suffixLength then String.ofList suffix else slug
  | none => slug

/-! ## Input -/

def normaliseTag (raw : String) : String :=
  toLower (join (fields (trimPrefix (trimSpace raw) "#")) " ")

/-- The tags kept so far, then those of the rest of the list. -/
def normaliseTagsFrom (out : List String) : List String → Except AppErr (List String)
  | [] => .ok out
  | raw :: rest =>
      let t := normaliseTag raw
      if t = "" ∨ t ∈ out then normaliseTagsFrom out rest
      else if maxArticleTagLength < runeCount t then
        .error (.invalid "a tag can be at most 32 characters")
      else normaliseTagsFrom (out ++ [t]) rest

/-- `normaliseTags`. -/
def normaliseTags (input : List String) : Except AppErr (List String) := do
  let out ← normaliseTagsFrom [] input
  if maxArticleTags < out.length then
    throw (.invalid "an article can have at most 8 tags")
  return out

/-- The body of an article nothing was written for. -/
def emptyBody : String := "\x7b\"type\":\"doc\",\"content\":[]\x7d"

/-- `applyArticleInput`. -/
def applyArticleInput (a : Article) (input : ArticleInput) : Except AppErr Article := do
  let title := join (fields input.title) " "
  if maxArticleTitleLength < runeCount title then
    throw (.invalid "a title can be at most 160 characters")
  let subtitle := trimSpace input.subtitle
  if maxArticleSubtitleLength < runeCount subtitle then
    throw (.invalid "a subtitle can be at most 300 characters")
  let cover := trimSpace input.coverURL
  if cover ≠ "" ∧ SafeImageURL cover = false then
    throw (.invalid "the cover image must be an https:// address")
  let caption := trimSpace input.coverCaption
  if maxArticleCaptionLength < runeCount caption then
    throw (.invalid "a cover caption can be at most 300 characters")
  let trimmed := trimSpace input.body
  let body := if trimmed = "" then emptyBody else trimmed
  if maxArticleBodyBytes < byteLen body then
    throw (.invalid "the article is too long to save")
  let facts ← checkArticleBody body
  let tags ← normaliseTags input.tags
  return { a with
    title := title, subtitle := subtitle, coverURL := cover, coverCaption := caption,
    -- What the column keeps of the text.
    body := ((Json.parse body).getD .null).jsonb,
    excerpt := facts.excerpt, readingMinutes := facts.readingMinutes, tags := tags }

/-- `checkArticleBody` on a body read back from its column. -/
def checkStoredBody (body : Json) : Except AppErr ArticleBodyFacts :=
  match decodeNode body with
  | some doc => checkDocument doc
  | none => .error (.invalid "the article body is not a document")

/-- `readyToSubmit`. -/
def readyToSubmit (a : Article) : Except AppErr Unit := do
  if trimSpace a.title = "" then
    throw (.invalid "give the article a title before submitting it")
  let facts ← checkStoredBody a.body
  if facts.words = 0 then
    throw (.invalid "the article has no text yet")

/-! ## Callers -/

/-- `writer`: an editor or an administrator. -/
def writer : Option Claims → Except AppErr Claims
  | none => .error (.unauthorized "authentication required")
  | some claims =>
      if claims.role ≠ .admin ∧ claims.role ≠ .editor then
        .error (.forbidden "only editors and administrators write articles")
      else .ok claims

/-- `reachable`: one's own article, or any for an administrator. -/
def reachable (claims : Claims) (found : Option Article) : Except AppErr Article :=
  match found with
  | none => .error (.notFound "article not found")
  | some a =>
      if claims.role ≠ .admin ∧ a.authorID ≠ claims.userID then
        .error (.notFound "article not found")
      else .ok a

/-! ## Operations -/

/-- `Create`, up to the address: the draft of the input. -/
def draft (claims : Claims) (input : ArticleInput) : Except AppErr Article :=
  applyArticleInput
    { id := "", slug := "", authorID := claims.userID, authorName := claims.username
      title := "", subtitle := "", coverURL := "", coverCaption := "", body := .null
      excerpt := "", readingMinutes := 0, tags := [], status := .draft
      publishAt := none, firstPublishedAt := none, submittedAt := none
      reviewerID := none, reviewerName := "", reviewedAt := none, reviewNote := "" } input

/-- `Update`. -/
def update (claims : Claims) (a : Article) (input : ArticleInput) : Except AppErr Article := do
  if claims.role ≠ .admin ∧ a.status = .inReview then
    throw (.forbidden "this article is waiting for review; withdraw it to make changes")
  if claims.role ≠ .admin ∧ a.status = .published then
    throw (.forbidden
      "only an administrator can change a published article; withdraw it to edit it again")
  let a ← applyArticleInput a input
  -- The address follows the title until the article is first published.
  return if a.firstPublishedAt = none then
    { a with slug := articleSlug a.title (slugSuffix a.slug) } else a

/-- The publish time asked for, `none` when it is already past. -/
def requestedTime (publishAt : Option Time) (now : Time) : Except AppErr (Option Time) :=
  match publishAt with
  | none => .ok none
  | some asked =>
      let t := asked - asked % second
      if now + maxScheduleAhead < t then
        .error (.invalid "an article can be scheduled at most a year ahead")
      else if t ≤ now then .ok none
      else .ok (some t)

/-- `publish`: an administrator publishing, scheduling or rescheduling. -/
def publish (claims : Claims) (a : Article) (publishAt : Option Time) (now : Time) :
    Except AppErr Article := do
  if a.live now = true then
    throw (.conflict "this article is already live; withdraw it first to schedule it again")
  -- Approving without naming a time keeps the one the writer asked for, if it is ahead.
  let wanted := a.publishAt.filter fun t => a.status = .inReview ∧ now < t
  let time := (publishAt.or wanted).getD now
  return { a with
    status := .published, publishAt := some time,
    firstPublishedAt := a.firstPublishedAt.or (some time),
    reviewerID := some claims.userID, reviewerName := claims.username,
    reviewedAt := some now, reviewNote := "" }

/-- `Submit`. -/
def submit (claims : Claims) (a : Article) (publishAt : Option Time) (now : Time) :
    Except AppErr Article := do
  readyToSubmit a
  let publishAt ← requestedTime publishAt now
  if claims.role = .admin then
    publish claims a publishAt now
  else if a.status = .inReview then
    throw (.conflict "this article is already waiting for review")
  else if a.status = .published then
    throw (.conflict "this article is already published")
  else
    -- In review, the publish time is the writer's request.
    return { a with status := .inReview, submittedAt := some now, publishAt := publishAt }

/-- The caller's part of `RequestChanges`, before the row is read. -/
def reviewer (claims : Claims) : Except AppErr Unit :=
  if claims.role ≠ .admin then .error (.forbidden "only an administrator reviews articles")
  else .ok ()

/-- `RequestChanges`. -/
def requestChanges (claims : Claims) (a : Article) (note : String) (now : Time) :
    Except AppErr Article := do
  if a.status ≠ .inReview then
    throw (.conflict "only an article waiting for review can be sent back")
  let note := trimSpace note
  if note = "" then
    throw (.invalid "say what needs to change, so the writer knows what to do")
  if maxReviewNoteLength < runeCount note then
    throw (.invalid "a review note can be at most 2000 characters")
  return { a with
    status := .changesRequested, reviewerID := some claims.userID
    reviewerName := claims.username, reviewedAt := some now, reviewNote := note }

/-- `Withdraw`. -/
def withdraw (a : Article) : Except AppErr Article :=
  if a.status = .inReview then
    -- The writer's requested time goes with the request.
    .ok { a with publishAt := none, submittedAt := none, status := .draft }
  else if a.status = .published then .ok { a with publishAt := none, status := .draft }
  else .error (.conflict "this article is not in review or published")

/-- `Delete`, up to the statement. -/
def mayDelete (claims : Claims) (a : Article) : Except AppErr Unit :=
  if claims.role ≠ .admin ∧ a.status = .published then
    .error (.forbidden "withdraw a published article before deleting it")
  else .ok ()

end Rules

end ScoutPulse.Articles
