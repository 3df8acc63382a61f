import ScoutPulse.Lib.Json
import ScoutPulse.Lib.Url
import ScoutPulse.Platform.AppErr

/-!
# The article body

A body is the editor's document: a tree of nodes, each with a type, attributes and
marks, and either children or text. `checkArticleBody` decodes it the way
`encoding/json` decodes into the service's structs and walks the tree once, with
one set of counters, refusing every node, mark and address it does not allow.
-/

namespace ScoutPulse.Articles

open Strings

/-- A `map[string]any`, newest entry first. -/
abbrev Attrs := List (String × Json)

/-- `articleMark`. -/
structure ArticleMark where
  type : String
  attrs : Attrs

/-- `articleNode`. -/
structure ArticleNode where
  type : String
  attrs : Attrs
  content : List ArticleNode
  marks : List ArticleMark
  text : String

namespace ArticleMark

/-- The zero value of the struct. -/
def zero : ArticleMark := ⟨"", []⟩

end ArticleMark

namespace ArticleNode

/-- The zero value of the struct. -/
def zero : ArticleNode := ⟨"", [], [], [], ""⟩

end ArticleNode

/-! ## Bounds and allowed types -/

def articleBlockTypes : List String :=
  ["doc", "paragraph", "heading", "text", "hardBreak", "bulletList", "orderedList", "listItem",
    "blockquote", "horizontalRule", "figure", "tacticBoard", "video"]

def articleMarkTypes : List String := ["bold", "italic", "strike", "underline", "link"]

def maxArticleDepth : ℕ := 12
def maxArticleNodes : ℕ := 20000
def maxArticleText : ℕ := 200000
def maxURLLength : ℕ := 2048
def articleExcerptAt : ℕ := 280
def wordsPerMinute : ℕ := 230

/-! ## Addresses -/

/-- `SafeLinkURL`: a web address, an email address, or a path on this site. -/
def SafeLinkURL (raw : String) : Bool :=
  if raw = "" || maxURLLength < byteLen raw || containsAny raw " \t\r\n" then false
  else if hasPrefix raw "/" then !hasPrefix raw "//" && !hasPrefix raw "/\\"
  else match Url.parse raw with
    | none => false
    | some u =>
        if u.scheme = "http" ∨ u.scheme = "https" then u.host ≠ ""
        else if u.scheme = "mailto" then u.opaquePart ≠ ""
        else false

/-- `SafeImageURL`: https only. -/
def SafeImageURL (raw : String) : Bool :=
  if raw = "" || maxURLLength < byteLen raw || containsAny raw " \t\r\n" then false
  else match Url.parse raw with
    | none => false
    | some u => u.scheme = "https" ∧ u.host ≠ ""

/-- The alphabet of a tactics board's address. -/
def slugAlphabet : String := "23456789abcdefghijkmnpqrstuvwxyzABCDEFGHJKLMNPQRSTUVWXYZ"

def slugLength : ℕ := 12

/-- `validSlug`. -/
def validSlug (slug : String) : Bool :=
  byteLen slug = slugLength && slug.toList.all slugAlphabet.toList.contains

/-- The regular expression `^[A-Za-z0-9_-]{11}$`. -/
def youtubeID (id : String) : Bool :=
  id.toList.length = 11 &&
    id.toList.all fun c => Url.isAlpha c || c.isDigit || c = '_' || c = '-'

/-- The regular expression `^[0-9]{6,12}$`. -/
def vimeoID (id : String) : Bool :=
  6 ≤ id.toList.length && id.toList.length ≤ 12 && id.toList.all Char.isDigit

/-! ## Attribute values -/

/-- `n.Attrs[key]`, the zero value when the key is absent. -/
def attr (attrs : Attrs) (key : String) : Json := (attrs.lookup key).getD .null

/-- `str`: the value if it is a string, otherwise the empty one. -/
def str : Json → String
  | .str s => s
  | _ => ""

/-- `number`: the value if it is a number and a whole one, within an `int`. -/
def number : Json → Option ℤ
  | .num n =>
      match Binary64.ofRat n.value with
      | some f => if f.den = 1 ∧ -2 ^ 63 ≤ f.num ∧ f.num < 2 ^ 63 then some f.num else none
      | none => none
  | _ => none

/-! ## Decoding

`encoding/json` takes the members of an object in order of appearance, matches a
key to a struct field by name and otherwise case-insensitively, decodes a repeated
object into the map that is already there, resets a slice before it reads an array
into it, and leaves a string alone when the value is `null`. -/

/-- The fields of `articleNode`; those of `articleMark` are the first two. -/
inductive Field
  | type
  | attrs
  | content
  | marks
  | text
  deriving DecidableEq

def Field.name : Field → String
  | .type => "type"
  | .attrs => "attrs"
  | .content => "content"
  | .marks => "marks"
  | .text => "text"

/-- `foldRune`, as far as an ASCII field name can match: letters without their case,
and the two other runes of Unicode that fold to an ASCII letter. -/
def foldRune (c : Char) : Char :=
  if c = Char.ofNat 0x212A then 'k'
  else if c = Char.ofNat 0x17F then 's'
  else c.toLower

/-- `foldName`. -/
def foldName (key : String) : List Char := key.toList.map foldRune

/-- The field of the struct a key is decoded into. -/
def fieldOf (key : String) : Option Field :=
  [Field.type, .attrs, .content, .marks, .text].find? fun f => foldName key = f.name.toList

def decodeString : Json → String → Option String
  | .null, old => some old
  | .str s, _ => some s
  | _, _ => none

def decodeAttrs : Json → Attrs → Option Attrs
  | .null, _ => some []
  | .obj members, old => if Json.finiteMembers members then some (members.reverse ++ old) else none
  | _, _ => none

def decodeMarkFields : List (String × Json) → ArticleMark → Option ArticleMark
  | [], m => some m
  | (key, value) :: members, m =>
      (match fieldOf key with
        | some .type => (decodeString value m.type).map fun t => { m with type := t }
        | some .attrs => (decodeAttrs value m.attrs).map fun a => { m with attrs := a }
        | _ => some m).bind
      fun m => decodeMarkFields members m

def decodeMark : Json → Option ArticleMark
  | .null => some .zero
  | .obj members => decodeMarkFields members .zero
  | _ => none

def decodeMarks : Json → Option (List ArticleMark)
  | .null => some []
  | .arr items => items.mapM decodeMark
  | _ => none

mutual

def decodeNode : Json → Option ArticleNode
  | .null => some .zero
  | .obj members => decodeNodeFields members .zero
  | _ => none

def decodeNodeFields : List (String × Json) → ArticleNode → Option ArticleNode
  | [], n => some n
  | (key, value) :: members, n =>
      (match fieldOf key with
        | some .type => (decodeString value n.type).map fun t => { n with type := t }
        | some .attrs => (decodeAttrs value n.attrs).map fun a => { n with attrs := a }
        | some .content => (decodeContent value).map fun c => { n with content := c }
        | some .marks => (decodeMarks value).map fun m => { n with marks := m }
        | some .text => (decodeString value n.text).map fun t => { n with text := t }
        | none => some n).bind
      fun n => decodeNodeFields members n

def decodeContent : Json → Option (List ArticleNode)
  | .null => some []
  | .arr items => decodeNodes items
  | _ => none

def decodeNodes : List Json → Option (List ArticleNode)
  | [] => some []
  | item :: items => do
      let n ← decodeNode item
      let ns ← decodeNodes items
      some (n :: ns)

end

/-! ## The walk -/

mutual

/-- `plainText`. -/
def plainText : ArticleNode → String
  | ⟨type, _, content, _, text⟩ =>
      if type = "text" then text
      else if type = "hardBreak" then " "
      else plainTextAll content

def plainTextAll : List ArticleNode → String
  | [] => ""
  | n :: ns => plainText n ++ plainTextAll ns

end

/-- `bodyWalker`. -/
structure BodyWalker where
  nodes : ℕ
  runes : ℕ
  words : ℕ
  paragraphs : List String

def BodyWalker.start : BodyWalker := ⟨0, 0, 0, []⟩

section Walk

variable [Unicode]

/-- `checkMark`. -/
def checkMark (m : ArticleMark) : Except AppErr Unit :=
  if m.type ∉ articleMarkTypes then
    .error (.invalid s!"the article uses formatting this site cannot show ({quote m.type})")
  else if m.type = "link" ∧ SafeLinkURL (str (attr m.attrs "href")) = false then
    .error (.invalid "a link must be an http(s):// or mailto: address, or a page on this site")
  else .ok ()

def checkMarks : List ArticleMark → Except AppErr Unit
  | [] => .ok ()
  | m :: ms => do
      checkMark m
      checkMarks ms

/-- The attributes a node of each type must carry: the cases of the walk's switch
other than text. -/
def checkAttrs (type : String) (attrs : Attrs) : Except AppErr Unit :=
  if type = "heading" then
    match number (attr attrs "level") with
    | some level =>
        if level < 2 ∨ 4 < level then
          .error (.invalid "a heading must be level 2, 3 or 4; the title is level 1")
        else .ok ()
    | none => .error (.invalid "a heading must be level 2, 3 or 4; the title is level 1")
  else if type = "figure" then
    if SafeImageURL (str (attr attrs "src")) = false then
      .error (.invalid "an image must be an https:// address")
    else if str (attr attrs "href") ≠ "" ∧ SafeLinkURL (str (attr attrs "href")) = false then
      .error (.invalid "an image links to an address this site will not open")
    else .ok ()
  else if type = "tacticBoard" then
    if validSlug (str (attr attrs "slug")) then .ok ()
    else .error (.invalid "an embedded tactics board has no valid link")
  else if type = "video" then
    let id := str (attr attrs "id")
    if str (attr attrs "provider") = "youtube" then
      if youtubeID id then .ok ()
      else .error (.invalid "an embedded YouTube video has no valid id")
    else if str (attr attrs "provider") = "vimeo" then
      if vimeoID id then .ok ()
      else .error (.invalid "an embedded Vimeo video has no valid id")
    else .error (.invalid "videos can be embedded from YouTube or Vimeo")
  else .ok ()

/-- The walk's checks of one node, before its children. -/
def BodyWalker.enter (w : BodyWalker) (n : ArticleNode) (depth : ℕ) :
    Except AppErr BodyWalker := do
  let w := { w with nodes := w.nodes + 1 }
  if maxArticleNodes < w.nodes then
    throw (.invalid "the article is too long to save")
  if maxArticleDepth < depth then
    throw (.invalid "the article nests lists or quotes too deeply")
  if n.type ∉ articleBlockTypes then
    throw (.invalid s!"the article contains a block this site cannot show ({quote n.type})")
  if n.type = "text" then
    let w := { w with runes := w.runes + runeCount n.text }
    if maxArticleText < w.runes then
      throw (.invalid "the article is too long to save")
    let w := { w with words := w.words + (fields n.text).length }
    checkMarks n.marks
    return w
  else
    checkAttrs n.type n.attrs
    return w

/-- The walk's last act on a node: the opening paragraphs are kept for the excerpt. -/
def BodyWalker.leave (w : BodyWalker) (n : ArticleNode) : BodyWalker :=
  if n.type = "paragraph" ∧ w.paragraphs.length < 4 then
    let text := trimSpace (plainText n)
    if text ≠ "" then { w with paragraphs := w.paragraphs ++ [text] } else w
  else w

mutual

/-- `bodyWalker.walk`. -/
def walk : ArticleNode → ℕ → BodyWalker → Except AppErr BodyWalker
  | ⟨type, attrs, content, marks, text⟩, depth, w => do
      let w ← w.enter ⟨type, attrs, content, marks, text⟩ depth
      let w ← walkAll content (depth + 1) w
      return w.leave ⟨type, attrs, content, marks, text⟩

def walkAll : List ArticleNode → ℕ → BodyWalker → Except AppErr BodyWalker
  | [], _, w => return w
  | n :: ns, depth, w => do
      let w ← walk n depth w
      walkAll ns depth w

end

/-- `excerptOf`: the opening paragraphs, cut at a word. -/
def excerptOf (paragraphs : List String) : String :=
  let text := join (fields (join paragraphs " ")) " "
  if runeCount text ≤ articleExcerptAt then text
  else
    let runes := text.toList.take articleExcerptAt
    -- Where the last space stands; none, or one at the very start, cuts nothing.
    match runes.reverse.span (fun c => !Unicode.isSpace c) with
    | (_, _ :: before) =>
        if before = [] then String.ofList runes ++ "…"
        else
          String.ofList (trimRightFunc (fun c => Unicode.isSpace c || Unicode.isPunct c)
            before.reverse) ++ "…"
    | (_, []) => String.ofList runes ++ "…"

/-- `articleBodyFacts`. -/
structure ArticleBodyFacts where
  excerpt : String
  readingMinutes : ℕ
  words : ℕ
  deriving DecidableEq

/-- `checkArticleBody` on a document that has been decoded. -/
def checkDocument (doc : ArticleNode) : Except AppErr ArticleBodyFacts := do
  if doc.type ≠ "doc" then
    throw (.invalid "the article body is not a document")
  let w ← walk doc 0 .start
  let minutes := (w.words + wordsPerMinute - 1) / wordsPerMinute
  return ⟨excerptOf w.paragraphs, max minutes 1, w.words⟩

/-- `json.Unmarshal` into an `articleNode`. -/
def unmarshal (raw : String) : Option ArticleNode := Json.parse raw >>= decodeNode

/-- `checkArticleBody`. -/
def checkArticleBody (raw : String) : Except AppErr ArticleBodyFacts :=
  match unmarshal raw with
  | some doc => checkDocument doc
  | none => .error (.invalid "the article body is not a document")

end Walk

end ScoutPulse.Articles
