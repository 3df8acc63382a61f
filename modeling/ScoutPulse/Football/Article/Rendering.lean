import ScoutPulse.Football.Article.Reading
import ScoutPulse.Lib.JavaScript

/-!
# What the reader draws of a body

The reader walks a document in two templates. Blocks recurse through lists, list items
and quotes, and skip every other type; the inside of a paragraph or heading is drawn in
one line, of text and line breaks alone. The service's walk looks at the type of each
node and not at the node above it, so it accepts text and embeds in places neither
template visits; nor does it look at the first number of an ordered list, which the reader
may throw on. What is drawn is then exactly what stands in place before that.
-/

namespace ScoutPulse.Articles

open Strings

attribute [local instance] Strings.decidableMem

/-! ## Text and addresses in a browser -/

/-- White space to `trim` and to the `\s` of a regular expression. -/
def jsSpace (c : Char) : Bool :=
  let n := c.toNat
  (9 ≤ n && n ≤ 13) || n == 0x20 || n == 0xA0 || n == 0x1680 || (0x2000 ≤ n && n ≤ 0x200A) ||
    n == 0x2028 || n == 0x2029 || n == 0x202F || n == 0x205F || n == 0x3000 || n == 0xFEFF

/-- Nothing is left of `s.trim()`. -/
def jsBlank (s : String) : Bool := s.toList.all jsSpace

/-- `s.length`, in UTF-16 units. -/
def utf16Length (s : String) : ℕ :=
  (s.toList.map fun c => if c.toNat < 0x10000 then 1 else 2).sum

/-- The parts of a `URL` object the reader looks at. -/
structure WebUrl where
  protocol : String
  host : String
  pathname : String

/-- The browser the reader runs in. -/
class Browser where
  /-- `new URL(raw)`, `none` when it throws. -/
  url : String → Option WebUrl

/-- `MAX_URL`. -/
def maxUrl : ℕ := 2048

/-- An address that neither rule for links and images reads any further. -/
def unreadable (raw : String) : Bool :=
  raw = "" || maxUrl < utf16Length raw || raw.toList.any jsSpace

section Addresses

variable [Browser]

def safeLink : Json → Option String
  | .str raw =>
      if unreadable raw then none
      else if hasPrefix raw "/" then
        if hasPrefix raw "//" || hasPrefix raw "/\\" then none else some raw
      else match Browser.url raw with
        | none => none
        | some url =>
            if (url.protocol = "http:" ∨ url.protocol = "https:") ∧ url.host ≠ "" then some raw
            else if url.protocol = "mailto:" ∧ url.pathname ≠ "" then some raw
            else none
  | _ => none

def safeImage : Json → Option String
  | .str raw =>
      if unreadable raw then none
      else match Browser.url raw with
        | none => none
        | some url => if url.protocol = "https:" ∧ url.host ≠ "" then some raw else none
  | _ => none

end Addresses

/-- A character of `TACTIC_SLUG`. -/
def tacticSlugChar (c : Char) : Bool :=
  ('2' ≤ c && c ≤ '9') || ('a' ≤ c && c ≤ 'k') || c = 'm' || c = 'n' || ('p' ≤ c && c ≤ 'z') ||
    ('A' ≤ c && c ≤ 'H') || ('J' ≤ c && c ≤ 'N') || ('P' ≤ c && c ≤ 'Z')

/-- The regular expression `^[2-9a-kmnp-zA-HJ-NP-Z]{12}$`. -/
def tacticSlug (slug : String) : Bool :=
  slug.toList.length = 12 && slug.toList.all tacticSlugChar

/-! ## The page -/

inductive FigureSize
  | column
  | wide

structure FigureAttrs where
  src : String
  alt : String
  caption : String
  credit : String
  size : FigureSize

structure TacticAttrs where
  slug : String
  title : String
  caption : String

inductive VideoProvider
  | youtube
  | vimeo
  deriving DecidableEq

structure VideoAttrs where
  provider : VideoProvider
  id : String
  caption : String

/-- What the templates produce. An image the browser could not load is drawn as a
notice in the same figure. -/
inductive Html
  | element (tag : String) (children : List Html)
  | orderedList (start : Option ℤ) (children : List Html)
  | link (href : Option String) (newTab : Bool) (children : List Html)
  | text (s : String)
  | figure (attrs : FigureAttrs) (broken : Bool)
  | board (attrs : TacticAttrs)
  | video (attrs : VideoAttrs)

/-- A part of the page: what has been drawn of it, and whether something was thrown then. -/
structure Drawn where
  html : List Html
  threw : Bool

namespace Drawn

/-- A part that is drawn to its end. -/
def done (html : List Html) : Drawn := ⟨html, false⟩

/-- One part after another: nothing is drawn once something has been thrown. -/
def andThen (first second : Drawn) : Drawn :=
  if first.threw then first else ⟨first.html ++ second.html, second.threw⟩

/-- A part inside an element. -/
def within (d : Drawn) (element : List Html → Html) : Drawn := ⟨[element d.html], d.threw⟩

end Drawn

structure InlineMark where
  type : String
  href : Option String
  external : Bool

namespace ArticleBody

mutual

/-- `plainText` of the reader: pieces join as they are inside a line of text, and with
a break between blocks. -/
def plainText : ArticleNode → String
  | ⟨type, _, content, _, text⟩ =>
      if type = "text" then text
      else if type = "hardBreak" then " "
      else join (plainTexts content) (if type = "paragraph" ∨ type = "heading" then "" else " ")

def plainTexts : List ArticleNode → List String
  | [] => []
  | n :: ns => plainText n :: plainTexts ns

end

def hasText (n : ArticleNode) : Bool := !n.content.isEmpty && !jsBlank (plainText n)

/-- `text`: the value if it is a string, otherwise the empty one. -/
def text : Json → String
  | .str s => s
  | _ => ""

/-- The element of a heading of each level. -/
def headingTag (attrs : Attrs) : String :=
  if number (attr attrs "level") = some 3 then "h3"
  else if number (attr attrs "level") = some 4 then "h4"
  else "h2"

/-- The types whose content is drawn as blocks again, each with its element. -/
def containerTags : List (String × String) :=
  [("bulletList", "ul"), ("orderedList", "ol"), ("listItem", "li"), ("blockquote", "blockquote")]

/-- `startOf`: the first number of an ordered list, unless it is one. -/
def startOf [Js.Implementation] (n : ArticleNode) : Except Js.Thrown (Option ℤ) := do
  let start ← match attr n.attrs "start" with
    | .null => .ok (.finite 1)
    | value => Js.toNumber (some value)
  return match start with
    | .finite x => (Binary64.ofRat x).bind fun x => if x.den = 1 ∧ x ≠ 1 then some x.num else none
    | _ => none

def tactic (n : ArticleNode) : Option TacticAttrs :=
  let slug := text (attr n.attrs "slug")
  if tacticSlug slug then
    some ⟨slug, text (attr n.attrs "title"), text (attr n.attrs "caption")⟩
  else none

def videoProvider (provider : String) : Option VideoProvider :=
  if provider = "youtube" then some .youtube
  else if provider = "vimeo" then some .vimeo
  else none

def video (n : ArticleNode) : Option VideoAttrs :=
  (videoProvider (text (attr n.attrs "provider"))).map fun provider =>
    ⟨provider, text (attr n.attrs "id"), text (attr n.attrs "caption")⟩

/-- The `marked` template: one element for each mark, the text inside the last. -/
def marked (text : String) : List InlineMark → List Html
  | [] => [.text text]
  | m :: ms =>
      if m.type = "bold" then [.element "strong" (marked text ms)]
      else if m.type = "italic" then [.element "em" (marked text ms)]
      else if m.type = "strike" then [.element "s" (marked text ms)]
      else if m.type = "underline" then [.element "u" (marked text ms)]
      else if m.type = "link" then [.link m.href m.external (marked text ms)]
      else []

section Templates

variable [Browser]

/-- A mark as it is drawn; a link that fails the check is dropped, its text is not. -/
def inlineMark (m : ArticleMark) : Option InlineMark :=
  if m.type = "link" then
    (safeLink (attr m.attrs "href")).map fun href => ⟨"link", some href, !hasPrefix href "/"⟩
  else if m.type ∈ ["bold", "italic", "strike", "underline"] then some ⟨m.type, none, false⟩
  else none

/-- The marks on a text node, the link outermost. -/
def marksOf (n : ArticleNode) : List InlineMark :=
  let out := n.marks.filterMap inlineMark
  out.filter (fun m => m.type = "link") ++ out.filter fun m => m.type ≠ "link"

def figure (n : ArticleNode) : Option FigureAttrs :=
  (safeImage (attr n.attrs "src")).map fun src =>
    ⟨src, text (attr n.attrs "alt"), text (attr n.attrs "caption"), text (attr n.attrs "credit"),
      if text (attr n.attrs "size") = "wide" then .wide else .column⟩

/-- The `inline` template, for one node. -/
def inlineNode (n : ArticleNode) : List Html :=
  if n.type = "text" then marked n.text (marksOf n)
  else if n.type = "hardBreak" then [.element "br" []]
  else []

/-- The `inline` template. -/
def inline (nodes : List ArticleNode) : List Html := nodes.flatMap inlineNode

variable (failed : List String)

/-- The `blocks` template, for a node without blocks of its own. -/
def leaf (n : ArticleNode) : List Html :=
  if n.type = "paragraph" then
    if hasText n then [.element "p" (inline n.content)] else []
  else if n.type = "heading" then [.element (headingTag n.attrs) (inline n.content)]
  else if n.type = "horizontalRule" then [.element "hr" []]
  else if n.type = "figure" then
    (figure n).toList.map fun f => .figure f (failed.contains f.src)
  else if n.type = "tacticBoard" then (tactic n).toList.map .board
  else if n.type = "video" then (video n).toList.map .video
  else []

variable [Js.Implementation]

mutual

/-- The `blocks` template, for one node. -/
def block : ArticleNode → Drawn
  | ⟨type, attrs, content, marks, text⟩ =>
      match containerTags.lookup type with
      | some tag =>
          if type = "orderedList" then
            -- The element is there before its first number is asked for.
            match startOf ⟨type, attrs, content, marks, text⟩ with
            | .error _ => ⟨[.orderedList none []], true⟩
            | .ok start => (blocks content).within (.orderedList start)
          else (blocks content).within (.element tag)
      | none => .done (leaf failed ⟨type, attrs, content, marks, text⟩)

/-- The `blocks` template. -/
def blocks : List ArticleNode → Drawn
  | [] => .done []
  | n :: ns => (block n).andThen (blocks ns)

end

/-- The rendering of a document; `failed` are the images that could not be loaded. -/
def rendering (doc : ArticleNode) : Html := .element "div" (blocks failed doc.content).html

end Templates

end ArticleBody

/-! ## What a reader sees -/

/-- A thing a reader sees on the page. -/
inductive Piece
  | text (s : String)
  | figure (src : String)
  | board (slug : String)
  | video (provider id : String)
  deriving DecidableEq

def VideoProvider.name : VideoProvider → String
  | .youtube => "youtube"
  | .vimeo => "vimeo"

mutual

/-- The pieces on a page, from top to bottom. -/
def shown : Html → List Piece
  | .element _ children => shownAll children
  | .orderedList _ children => shownAll children
  | .link _ _ children => shownAll children
  | .text s => if jsBlank s then [] else [.text s]
  | .figure f _ => [.figure f.src]
  | .board t => [.board t.slug]
  | .video v => [.video v.provider.name v.id]

def shownAll : List Html → List Piece
  | [] => []
  | h :: hs => shown h ++ shownAll hs

end

/-- The piece a node holds itself. -/
def ownPieces (n : ArticleNode) : List Piece :=
  if n.type = "text" then if jsBlank n.text then [] else [.text n.text]
  else if n.type = "figure" then [.figure (str (attr n.attrs "src"))]
  else if n.type = "tacticBoard" then [.board (str (attr n.attrs "slug"))]
  else if n.type = "video" then
    [.video (str (attr n.attrs "provider")) (str (attr n.attrs "id"))]
  else []

/-- The pieces of a document, in the order of the walk. -/
def pieces (doc : ArticleNode) : List Piece := (visited doc 0).flatMap fun p => ownPieces p.1

mutual

/-- A node and every node below it, each with the types of the nodes above it, the
nearest first. -/
def placed : ArticleNode → List String → List (ArticleNode × List String)
  | ⟨type, attrs, content, marks, text⟩, above =>
      (⟨type, attrs, content, marks, text⟩, above) :: placedAll content (type :: above)

def placedAll : List ArticleNode → List String → List (ArticleNode × List String)
  | [], _ => []
  | n :: ns, above => placed n above ++ placedAll ns above

end

/-- Lists, list items and quotes all the way up. -/
def AmongBlocks (above : List String) : Prop :=
  ∀ type ∈ above, type ∈ ArticleBody.containerTags.map Prod.fst

/-- Directly in a paragraph or heading that stands among blocks. -/
def InLine (above : List String) : Prop :=
  ∃ line rest, above = line :: rest ∧ line ∈ ["paragraph", "heading"] ∧ AmongBlocks rest

def embeds : List String := ["figure", "tacticBoard", "video"]

/-- A text that is not blank stands directly in a line of text, an embed among blocks. -/
structure InPlace (n : ArticleNode) (above : List String) : Prop where
  text : n.type = "text" → jsBlank n.text = false → InLine above
  embed : n.type ∈ embeds → AmongBlocks above

/-- Every text that is not blank and every embed of a document stands in place. -/
def AllInPlace (doc : ArticleNode) : Prop :=
  ∀ p ∈ placedAll doc.content [], InPlace p.1 p.2

/-- The pieces of a list of placed nodes. -/
def piecesOf (nodes : List (ArticleNode × List String)) : List Piece :=
  nodes.flatMap fun p => ownPieces p.1

section Whole

variable [Browser] [Js.Implementation]

/-- The reader comes to an ordered list whose first number cannot be read. -/
def Stops (p : ArticleNode × List String) : Prop :=
  p.1.type = "orderedList" ∧ AmongBlocks p.2 ∧ (ArticleBody.startOf p.1).isOk = false

/-- Nothing to see stands in or after such a list. -/
def Unstopped : List (ArticleNode × List String) → Prop
  | [] => True
  | p :: rest => (Stops p → piecesOf rest = []) ∧ Unstopped rest

/-- The two sides agree on the images of a document. -/
def ImagesAgree (doc : ArticleNode) : Prop :=
  ∀ p ∈ visited doc 0, p.1.type = "figure" →
    ((safeImage (attr p.1.attrs "src")).isSome = true ↔
      SafeImageURL (str (attr p.1.attrs "src")) = true)

/-- Every piece of a document is drawn of the one it is served as, whichever images fail to
load. -/
def ShownWhole (raw : String) (doc : ArticleNode) : Prop :=
  ∃ served, servedDocument raw = some served ∧
    ∀ failed, (pieces doc).Sublist (shown (ArticleBody.rendering failed served))

end Whole

/-! ## Pieces -/

theorem shownAll_append (first second : List Html) :
    shownAll (first ++ second) = shownAll first ++ shownAll second := by
  induction first with
  | nil => rfl
  | cons h hs ih => rw [List.cons_append, shownAll, shownAll, ih, List.append_assoc]

theorem piecesOf_append (first second : List (ArticleNode × List String)) :
    piecesOf (first ++ second) = piecesOf first ++ piecesOf second := List.flatMap_append

theorem piecesOf_placed (n : ArticleNode) (above : List String) :
    piecesOf (placed n above) =
      ownPieces n ++ piecesOf (placedAll n.content (n.type :: above)) := by
  cases n
  rw [placed]
  exact List.flatMap_cons

mutual

/-- The walk and the placement go through the same nodes. -/
theorem placed_nodes : ∀ (n : ArticleNode) (depth : ℕ) (above : List String),
    (placed n above).map Prod.fst = (visited n depth).map Prod.fst
  | ⟨type, attrs, content, marks, text⟩, depth, above => by
      rw [placed, visited, List.map_cons, List.map_cons,
        placedAll_nodes content (depth + 1) (type :: above)]

theorem placedAll_nodes : ∀ (ns : List ArticleNode) (depth : ℕ) (above : List String),
    (placedAll ns above).map Prod.fst = (visitedAll ns depth).map Prod.fst
  | [], _, _ => rfl
  | n :: ns, depth, above => by
      rw [placedAll, visitedAll, List.map_append, List.map_append, placed_nodes n depth above,
        placedAll_nodes ns depth above]

end

theorem visited_eq (n : ArticleNode) (depth : ℕ) :
    visited n depth = (n, depth) :: visitedAll n.content (depth + 1) := by
  cases n
  rw [visited]

/-- The root of a document holds no piece itself. -/
theorem pieces_eq {doc : ArticleNode} (root : doc.type = "doc") :
    pieces doc = piecesOf (placedAll doc.content []) := by
  have own : ownPieces doc = [] := by
    simp [ownPieces, root]
  calc pieces doc
      = ((visitedAll doc.content 1).map Prod.fst).flatMap ownPieces := by
        rw [pieces, visited_eq, List.flatMap_cons, own, List.nil_append, List.flatMap_map]
    _ = ((placedAll doc.content []).map Prod.fst).flatMap ownPieces := by
        rw [placedAll_nodes doc.content 1 []]
    _ = piecesOf (placedAll doc.content []) := by
        rw [piecesOf, List.flatMap_map]

/-! ## Contexts -/

theorem amongBlocks_cons {type : String} {above : List String} :
    AmongBlocks (type :: above) ↔
      type ∈ ArticleBody.containerTags.map Prod.fst ∧ AmongBlocks above :=
  List.forall_mem_cons

theorem inLine_cons {type : String} {above : List String} :
    InLine (type :: above) ↔ type ∈ ["paragraph", "heading"] ∧ AmongBlocks above := by
  constructor
  · rintro ⟨line, rest, same, isLine, among⟩
    obtain ⟨rfl, rfl⟩ := List.cons.inj same
    exact ⟨isLine, among⟩
  · rintro ⟨isLine, among⟩
    exact ⟨type, above, rfl, isLine, among⟩

/-- Below nodes that no template visits. -/
structure Hidden (above : List String) : Prop where
  block : ¬ AmongBlocks above
  line : ¬ InLine above

/-- What is inside something hidden is hidden. -/
theorem Hidden.cons {above : List String} (hidden : Hidden above) (type : String) :
    Hidden (type :: above) := by
  constructor
  case block =>
    intro among
    exact hidden.block (amongBlocks_cons.mp among).2
  case line =>
    intro inLine
    exact hidden.block (inLine_cons.mp inLine).2

/-- Nothing below a line of text is visited but what stands directly in it. -/
theorem InLine.not_block {above : List String} (inLine : InLine above) : ¬ AmongBlocks above := by
  obtain ⟨line, rest, rfl, isLine, -⟩ := inLine
  intro among
  have container := (amongBlocks_cons.mp among).1
  simp only [List.mem_cons, List.not_mem_nil, or_false] at isLine
  rcases isLine with rfl | rfl
  · revert container
    decide
  · revert container
    decide

/-- What is inside a line is hidden from the blocks. -/
theorem InLine.hidden {above : List String} (inLine : InLine above) (type : String) :
    Hidden (type :: above) := by
  constructor
  case block =>
    intro among
    exact inLine.not_block (amongBlocks_cons.mp among).2
  case line =>
    intro deeper
    exact inLine.not_block (inLine_cons.mp deeper).2

/-- The types below which nothing is drawn. -/
theorem hidden_of_leaf {type : String} (above : List String)
    (container : type ∉ ArticleBody.containerTags.map Prod.fst)
    (line : type ∉ ["paragraph", "heading"]) : Hidden (type :: above) := by
  constructor
  case block =>
    intro among
    exact container (amongBlocks_cons.mp among).1
  case line =>
    intro inLine
    exact line (inLine_cons.mp inLine).1

instance (above : List String) : Decidable (AmongBlocks above) :=
  inferInstanceAs (Decidable (∀ type ∈ above, type ∈ ArticleBody.containerTags.map Prod.fst))

instance : (above : List String) → Decidable (InLine above)
  | [] => .isFalse nofun
  | _ :: _ => decidable_of_iff _ inLine_cons.symm

instance (n : ArticleNode) (above : List String) : Decidable (InPlace n above) :=
  decidable_of_iff ((n.type = "text" → jsBlank n.text = false → InLine above) ∧
      (n.type ∈ embeds → AmongBlocks above))
    ⟨fun h => ⟨h.1, h.2⟩, fun h => ⟨h.text, h.embed⟩⟩

instance (doc : ArticleNode) : Decidable (AllInPlace doc) :=
  inferInstanceAs (Decidable (∀ p ∈ placedAll doc.content [], InPlace p.1 p.2))

instance [Browser] (doc : ArticleNode) : Decidable (ImagesAgree doc) :=
  inferInstanceAs (Decidable (∀ p ∈ visited doc 0, p.1.type = "figure" →
    ((safeImage (attr p.1.attrs "src")).isSome = true ↔
      SafeImageURL (str (attr p.1.attrs "src")) = true)))

/-! ## What is below a hidden node -/

/-- A node that holds no piece stands in place anywhere. -/
theorem inPlace_of_own_eq_nil {n : ArticleNode} {above : List String}
    (none_ : ownPieces n = []) : InPlace n above := by
  constructor
  case text =>
    intro text visible
    simp [ownPieces, text, visible] at none_
  case embed =>
    intro embed
    simp only [embeds, List.mem_cons, List.not_mem_nil, or_false] at embed
    rcases embed with type | type | type <;> simp [ownPieces, type] at none_

/-- A hidden node in its place has no piece of its own. -/
theorem own_eq_nil_of_hidden {n : ArticleNode} {above : List String} (hidden : Hidden above)
    (inPlace : InPlace n above) : ownPieces n = [] := by
  unfold ownPieces
  split_ifs with text blank figure board video
  · rfl
  · exact absurd (inPlace.text text (Bool.not_eq_true _ ▸ blank)) hidden.line
  · exact absurd (inPlace.embed (by simp [embeds, figure])) hidden.block
  · exact absurd (inPlace.embed (by simp [embeds, board])) hidden.block
  · exact absurd (inPlace.embed (by simp [embeds, video])) hidden.block
  · rfl

/-- Where nothing is drawn, all stands in place exactly when there is nothing to draw. -/
theorem pieces_eq_nil_iff {nodes : List (ArticleNode × List String)}
    (hidden : ∀ p ∈ nodes, Hidden p.2) :
    piecesOf nodes = [] ↔ ∀ p ∈ nodes, InPlace p.1 p.2 := by
  rw [piecesOf, List.flatMap_eq_nil_iff]
  constructor
  · intro none_ p member
    exact inPlace_of_own_eq_nil (none_ p member)
  · intro inPlace p member
    exact own_eq_nil_of_hidden (hidden p member) (inPlace p member)

mutual

theorem placed_hidden : ∀ (n : ArticleNode) {above : List String}, Hidden above →
    ∀ p ∈ placed n above, Hidden p.2
  | ⟨type, attrs, content, marks, text⟩, above, hidden => by
      rw [placed, List.forall_mem_cons]
      exact ⟨hidden, placedAll_hidden content (hidden.cons type)⟩

theorem placedAll_hidden : ∀ (ns : List ArticleNode) {above : List String}, Hidden above →
    ∀ p ∈ placedAll ns above, Hidden p.2
  | [], _, _ => List.forall_mem_nil _
  | n :: ns, above, hidden => by
      rw [placedAll, List.forall_mem_append]
      exact ⟨placed_hidden n hidden, placedAll_hidden ns hidden⟩

end

/-! ## Drawing -/

/-- A part of the page against the part of the document it is drawn from: it shows
nothing else, and it shows everything exactly when everything stands in place. -/
structure Draws (html : List Html) (nodes : List (ArticleNode × List String)) : Prop where
  sublist : (shownAll html).Sublist (piecesOf nodes)
  whole : shownAll html = piecesOf nodes ↔ ∀ p ∈ nodes, InPlace p.1 p.2

/-- Two lists that fall short of two others one by one reach them together only one by
one. -/
theorem append_eq_append_iff_of_sublist {α : Type*} {s₁ s₂ w₁ w₂ : List α}
    (first : s₁.Sublist w₁) (second : s₂.Sublist w₂) :
    s₁ ++ s₂ = w₁ ++ w₂ ↔ s₁ = w₁ ∧ s₂ = w₂ := by
  constructor
  · intro same
    have total : s₁.length + s₂.length = w₁.length + w₂.length := by
      rw [← List.length_append, same, List.length_append]
    have short := first.length_le
    have rest := second.length_le
    exact List.append_inj same (by omega)
  · rintro ⟨rfl, rfl⟩
    rfl

/-- Two parts that are drawn are drawn together. -/
theorem Draws.append {h₁ h₂ : List Html} {n₁ n₂ : List (ArticleNode × List String)}
    (first : Draws h₁ n₁) (second : Draws h₂ n₂) : Draws (h₁ ++ h₂) (n₁ ++ n₂) := by
  have split : piecesOf (n₁ ++ n₂) = piecesOf n₁ ++ piecesOf n₂ := List.flatMap_append
  constructor
  case sublist =>
    rw [shownAll_append, split]
    exact first.sublist.append second.sublist
  case whole =>
    rw [shownAll_append, split, append_eq_append_iff_of_sublist first.sublist second.sublist,
      first.whole, second.whole, List.forall_mem_append]

theorem Draws.nil : Draws [] [] :=
  ⟨List.Sublist.refl _, iff_of_true rfl (List.forall_mem_nil _)⟩

theorem Draws.congr {h h' : List Html} {nodes : List (ArticleNode × List String)}
    (draws : Draws h nodes) (same : shownAll h' = shownAll h) : Draws h' nodes :=
  ⟨same ▸ draws.sublist, by rw [same, draws.whole]⟩

/-- A node drawn without what is below it. -/
theorem Draws.leaf {html : List Html} {n : ArticleNode} {above : List String}
    (hidden : Hidden (n.type :: above)) (sublist : (shownAll html).Sublist (ownPieces n))
    (whole : shownAll html = ownPieces n ↔ InPlace n above) : Draws html (placed n above) := by
  have below := placedAll_hidden n.content hidden
  have parts : placed n above = (n, above) :: placedAll n.content (n.type :: above) := by
    cases n
    rw [placed]
  constructor
  case sublist =>
    rw [piecesOf_placed]
    exact sublist.trans (List.sublist_append_left _ _)
  case whole =>
    rw [piecesOf_placed, parts, List.forall_mem_cons, ← pieces_eq_nil_iff below, ← whole]
    have joined := append_eq_append_iff_of_sublist sublist
      (List.nil_sublist (piecesOf (placedAll n.content (n.type :: above))))
    rw [List.append_nil] at joined
    rw [joined, eq_comm (a := [])]

/-- A node that holds no piece itself and draws what is below it. -/
theorem Draws.inner {html : List Html} {n : ArticleNode} {above : List String}
    (own : ownPieces n = []) (below : Draws html (placedAll n.content (n.type :: above))) :
    Draws html (placed n above) := by
  have parts : placed n above = (n, above) :: placedAll n.content (n.type :: above) := by
    cases n
    rw [placed]
  constructor
  case sublist =>
    rw [piecesOf_placed, own]
    exact below.sublist
  case whole =>
    rw [piecesOf_placed, own, List.nil_append, below.whole, parts, List.forall_mem_cons]
    exact (and_iff_right (inPlace_of_own_eq_nil own)).symm

/-- A node of which nothing is drawn. -/
theorem Draws.skipped {html : List Html} {n : ArticleNode} {above : List String}
    (hidden : Hidden (n.type :: above)) (none_ : shownAll html = [])
    (own : InPlace n above → ownPieces n = []) : Draws html (placed n above) := by
  apply Draws.leaf hidden
  · rw [none_]
    exact List.nil_sublist _
  · rw [none_]
    constructor
    · intro empty
      exact inPlace_of_own_eq_nil empty.symm
    · intro inPlace
      exact (own inPlace).symm

/-! ## Lines of text -/

/-- The marks a text can be drawn in. -/
def drawnMarks : List String := ["bold", "italic", "strike", "underline", "link"]

/-- A text with marks that are drawn is shown as the text. -/
theorem shownAll_marked (text : String) {marks : List InlineMark}
    (drawn : ∀ m ∈ marks, m.type ∈ drawnMarks) :
    shownAll (ArticleBody.marked text marks) = shown (.text text) := by
  induction marks with
  | nil => rw [ArticleBody.marked, shownAll, shownAll, List.append_nil]
  | cons m ms ih =>
      rw [List.forall_mem_cons] at drawn
      have inside := ih drawn.2
      have type := drawn.1
      simp only [drawnMarks, List.mem_cons, List.not_mem_nil, or_false] at type
      rcases type with type | type | type | type | type <;>
        simp [ArticleBody.marked, type, shownAll, shown, inside]

theorem mem_plainTexts {n : ArticleNode} {ns : List ArticleNode} (member : n ∈ ns) :
    ArticleBody.plainText n ∈ ArticleBody.plainTexts ns := by
  induction ns with
  | nil => cases member
  | cons first rest ih =>
      rw [ArticleBody.plainTexts]
      rcases List.mem_cons.mp member with rfl | later
      · exact List.mem_cons_self
      · exact List.mem_cons_of_mem _ (ih later)

/-- The text of a line is blank only if each text in it is. -/
theorem jsBlank_of_line {n child : ArticleNode} (line : n.type = "paragraph")
    (blank : jsBlank (ArticleBody.plainText n) = true) (member : child ∈ n.content)
    (text : child.type = "text") : jsBlank child.text = true := by
  have piece : ArticleBody.plainText child = child.text := by
    cases child
    rw [ArticleBody.plainText, if_pos text]
  have whole : ArticleBody.plainText n = join (ArticleBody.plainTexts n.content) "" := by
    cases n
    subst line
    simp [ArticleBody.plainText]
  rw [jsBlank, List.all_eq_true] at blank ⊢
  intro c inside
  apply blank c
  rw [whole]
  exact mem_join (mem_plainTexts member) (by rw [piece]; exact inside)

theorem shownAll_flatMap (f : ArticleNode → List Html) (ns : List ArticleNode) :
    shownAll (ns.flatMap f) = ns.flatMap fun n => shownAll (f n) := by
  induction ns with
  | nil => rfl
  | cons n ns ih => rw [List.flatMap_cons, shownAll_append, ih, List.flatMap_cons]

section Lines

variable [Browser]

/-- The marks a node is drawn with are drawn. -/
theorem marksOf_drawn (n : ArticleNode) : ∀ m ∈ ArticleBody.marksOf n, m.type ∈ drawnMarks := by
  intro m member
  have known : m ∈ n.marks.filterMap ArticleBody.inlineMark := by
    rcases List.mem_append.mp member with link | other
    · exact List.mem_of_mem_filter link
    · exact List.mem_of_mem_filter other
  obtain ⟨mark, -, drawn⟩ := List.mem_filterMap.mp known
  unfold ArticleBody.inlineMark at drawn
  split_ifs at drawn with link plain
  · obtain ⟨href, -, rfl⟩ := Option.map_eq_some_iff.mp drawn
    exact (by decide : "link" ∈ drawnMarks)
  · cases drawn
    exact List.mem_append_left ["link"] plain

/-- A text in a line is drawn, whatever its marks. -/
theorem shownAll_inlineNode_text {n : ArticleNode} (text : n.type = "text") :
    shownAll (ArticleBody.inlineNode n) = ownPieces n := by
  rw [ArticleBody.inlineNode, if_pos text, shownAll_marked _ (marksOf_drawn n), shown, ownPieces,
    if_pos text]

theorem shownAll_inlineNode_other {n : ArticleNode} (other : n.type ≠ "text") :
    shownAll (ArticleBody.inlineNode n) = [] := by
  rw [ArticleBody.inlineNode, if_neg other]
  split_ifs <;> rfl

/-- A node in a line is drawn as it stands. -/
theorem inlineNode_draws (n : ArticleNode) {above : List String} (inLine : InLine above) :
    Draws (ArticleBody.inlineNode n) (placed n above) := by
  by_cases text : n.type = "text"
  · have inPlace : InPlace n above := by
      refine ⟨fun _ _ => inLine, ?_⟩
      intro embed
      rw [text] at embed
      exact absurd embed (by decide)
    apply Draws.leaf (inLine.hidden n.type)
    · rw [shownAll_inlineNode_text text]
    · exact iff_of_true (shownAll_inlineNode_text text) inPlace
  · apply Draws.skipped (inLine.hidden n.type) (shownAll_inlineNode_other text)
    intro inPlace
    by_contra own
    have embed : n.type ∈ embeds := by
      by_contra other
      simp only [embeds, List.mem_cons, List.not_mem_nil, or_false, not_or] at other
      exact own (by simp [ownPieces, text, other])
    exact inLine.not_block (inPlace.embed embed)

/-- Nodes in a line are drawn as they stand. -/
theorem inline_draws (ns : List ArticleNode) {above : List String} (inLine : InLine above) :
    Draws (ArticleBody.inline ns) (placedAll ns above) := by
  induction ns with
  | nil => exact .nil
  | cons n ns ih =>
      rw [ArticleBody.inline, List.flatMap_cons, placedAll]
      exact (inlineNode_draws n inLine).append ih

/-- A paragraph without text shows nothing, so leaving it out loses nothing. -/
theorem shownAll_inline_of_blank {n : ArticleNode} (line : n.type = "paragraph")
    (blank : ArticleBody.hasText n = false) : shownAll (ArticleBody.inline n.content) = [] := by
  rw [ArticleBody.inline, shownAll_flatMap, List.flatMap_eq_nil_iff]
  intro child member
  by_cases text : child.type = "text"
  · have content : n.content.isEmpty = false :=
      List.isEmpty_eq_false_iff_exists_mem.mpr ⟨child, member⟩
    rw [ArticleBody.hasText, content, Bool.not_false, Bool.true_and, Bool.not_eq_false'] at blank
    rw [shownAll_inlineNode_text text, ownPieces, if_pos text,
      if_pos (jsBlank_of_line line blank member text)]
  · exact shownAll_inlineNode_other text

end Lines

/-! ## Embeds -/

/-- The reader's alphabet of a board's address is the service's. -/
theorem tacticSlugChar_of_mem {c : Char} (member : c ∈ slugAlphabet.toList) :
    tacticSlugChar c = true ∧ c.utf8Size = 1 := by
  have all : ∀ c ∈ slugAlphabet.toList, tacticSlugChar c = true ∧ c.utf8Size = 1 := by decide
  exact all c member

/-- A slug that is valid is one of a board. -/
theorem tacticSlug_of_validSlug {slug : String} (valid : validSlug slug = true) :
    tacticSlug slug = true := by
  rw [validSlug, Bool.and_eq_true, decide_eq_true_eq, List.all_eq_true] at valid
  obtain ⟨size, members⟩ := valid
  have known : ∀ c ∈ slug.toList, tacticSlugChar c = true ∧ c.utf8Size = 1 := by
    intro c inside
    exact tacticSlugChar_of_mem (List.contains_iff_mem.mp (members c inside))
  have length : slug.toList.length = 12 := by
    rw [← byteLen_eq_length fun c inside => (known c inside).2, size, slugLength]
  rw [tacticSlug, length, Bool.and_eq_true, List.all_eq_true]
  exact ⟨rfl, fun c inside => (known c inside).1⟩

@[simp]
theorem text_eq_str (v : Json) : ArticleBody.text v = str v := by
  cases v <;> rfl

/-- A board that passes the service's check is drawn. -/
theorem tactic_of_passes {n : ArticleNode} (board : n.type = "tacticBoard")
    (passes : NodePasses n) : ∃ t, ArticleBody.tactic n = some t ∧
      t.slug = str (attr n.attrs "slug") := by
  have slug := tacticSlug_of_validSlug (passes.attrs.board board)
  refine ⟨_, by rw [ArticleBody.tactic, text_eq_str, if_pos slug], ?_⟩
  rfl

/-- A video that passes the service's check is drawn. -/
theorem video_of_passes {n : ArticleNode} (isVideo : n.type = "video") (passes : NodePasses n) :
    ∃ v, ArticleBody.video n = some v ∧ v.provider.name = str (attr n.attrs "provider") ∧
      v.id = str (attr n.attrs "id") := by
  have known : ∃ provider : VideoProvider,
      ArticleBody.videoProvider (str (attr n.attrs "provider")) = some provider ∧
        provider.name = str (attr n.attrs "provider") := by
    rcases passes.attrs.video isVideo with ⟨youtube, -⟩ | ⟨vimeo, -⟩
    · exact ⟨.youtube, by rw [youtube]; rfl, by rw [youtube]; rfl⟩
    · exact ⟨.vimeo, by rw [vimeo]; rfl, by rw [vimeo]; rfl⟩
  obtain ⟨provider, parsed, name⟩ := known
  refine ⟨⟨provider, str (attr n.attrs "id"), str (attr n.attrs "caption")⟩, ?_, name, rfl⟩
  simp only [ArticleBody.video, text_eq_str, parsed, Option.map_some]

/-! ## Blocks -/

/-- An embed among blocks is drawn. -/
theorem embed_draws {html : List Html} {n : ArticleNode} {above : List String}
    (embed : n.type ∈ embeds) (among : AmongBlocks above)
    (drawn : shownAll html = ownPieces n) : Draws html (placed n above) := by
  have inPlace : InPlace n above := by
    refine ⟨?_, fun _ => among⟩
    intro text
    rw [text] at embed
    exact absurd embed (by decide)
  have leaf : Hidden (n.type :: above) := by
    simp only [embeds, List.mem_cons, List.not_mem_nil, or_false] at embed
    rcases embed with type | type | type <;>
      exact hidden_of_leaf above (by rw [type]; decide) (by rw [type]; decide)
  exact .leaf leaf (by rw [drawn]) (iff_of_true drawn inPlace)

/-- What is no container has no tag of one. -/
theorem lookup_container {type : String}
    (container : type ∉ ArticleBody.containerTags.map Prod.fst) :
    ArticleBody.containerTags.lookup type = none := by
  rw [List.lookup_eq_none_iff]
  intro p member
  rw [bne_iff_ne]
  rintro rfl
  exact container (List.mem_map_of_mem member)

section Blocks

variable [Browser]

/-- An image that is accepted is loaded from the address as it stands. -/
theorem safeImage_eq_some {v : Json} {src : String} (safe : safeImage v = some src) :
    src = str v := by
  cases v with
  | str raw =>
      simp only [safeImage] at safe
      split_ifs at safe
      split at safe
      · cases safe
      · split_ifs at safe
        exact (Option.some.inj safe).symm
  | _ => cases safe

/-- A figure whose image both sides accept is drawn. -/
theorem figure_of_passes {n : ArticleNode} (isFigure : n.type = "figure") (passes : NodePasses n)
    (agree : (safeImage (attr n.attrs "src")).isSome = true ↔
      SafeImageURL (str (attr n.attrs "src")) = true) :
    ∃ f, ArticleBody.figure n = some f ∧ f.src = str (attr n.attrs "src") := by
  have accepted := agree.mpr (passes.attrs.source isFigure)
  obtain ⟨src, safe⟩ := Option.isSome_iff_exists.mp accepted
  exact ⟨_, by rw [ArticleBody.figure, safe, Option.map_some], safeImage_eq_some safe⟩

/-- What the induction over a document carries for its nodes. -/
structure Drawable (n : ArticleNode) : Prop where
  passes : NodePasses n
  agree : n.type = "figure" → ((safeImage (attr n.attrs "src")).isSome = true ↔
    SafeImageURL (str (attr n.attrs "src")) = true)

variable (failed : List String)

/-- A line of text among blocks. -/
theorem line_draws {html : List Html} {n : ArticleNode} {above : List String}
    (line : n.type ∈ ["paragraph", "heading"]) (among : AmongBlocks above)
    (same : shownAll html = shownAll (ArticleBody.inline n.content)) :
    Draws html (placed n above) := by
  have own : ownPieces n = [] := by
    simp only [List.mem_cons, List.not_mem_nil, or_false] at line
    rcases line with type | type <;> simp [ownPieces, type]
  apply Draws.inner own
  exact (inline_draws n.content (inLine_cons.mpr ⟨line, among⟩)).congr same

/-- A node without blocks of its own, among blocks. -/
theorem leaf_draws {n : ArticleNode} {above : List String} (among : AmongBlocks above)
    (container : n.type ∉ ArticleBody.containerTags.map Prod.fst) (drawable : Drawable n) :
    Draws (ArticleBody.leaf failed n) (placed n above) := by
  obtain ⟨passes, agree⟩ := drawable
  by_cases paragraph : n.type = "paragraph"
  · apply line_draws (by simp [paragraph]) among
    rw [ArticleBody.leaf, if_pos paragraph]
    split_ifs with some_
    · simp [shownAll, shown]
    · exact (shownAll_inline_of_blank paragraph (Bool.not_eq_true _ ▸ some_)).symm
  by_cases heading : n.type = "heading"
  · apply line_draws (by simp [heading]) among
    simp [ArticleBody.leaf, heading, shownAll, shown]
  by_cases figure : n.type = "figure"
  · obtain ⟨f, drawn, src⟩ := figure_of_passes figure passes (agree figure)
    apply embed_draws (by simp [embeds, figure]) among
    simp [ArticleBody.leaf, figure, drawn, ownPieces, shownAll, shown, src]
  by_cases board : n.type = "tacticBoard"
  · obtain ⟨t, drawn, slug⟩ := tactic_of_passes board passes
    apply embed_draws (by simp [embeds, board]) among
    simp [ArticleBody.leaf, board, drawn, ownPieces, shownAll, shown, slug]
  by_cases video : n.type = "video"
  · obtain ⟨v, drawn, provider, id⟩ := video_of_passes video passes
    apply embed_draws (by simp [embeds, video]) among
    simp [ArticleBody.leaf, video, drawn, ownPieces, shownAll, shown, provider, id]
  apply Draws.skipped (hidden_of_leaf above container (by simp [paragraph, heading]))
  · rw [ArticleBody.leaf, if_neg paragraph, if_neg heading, if_neg figure, if_neg board,
      if_neg video]
    split_ifs <;> rfl
  · intro inPlace
    by_contra own
    have isText : n.type = "text" := by
      by_contra other
      exact own (by simp [ownPieces, other, figure, board, video])
    have visible : jsBlank n.text = false := by
      by_contra blank
      exact own (by simp [ownPieces, isText, Bool.not_eq_false _ ▸ blank])
    exact (inPlace.text isText visible).not_block among

end Blocks

/-! ## Up to what is thrown -/

mutual

/-- What stands below a node is below everything the node is below. -/
theorem placed_among : ∀ (n : ArticleNode) {above : List String},
    ∀ p ∈ placed n above, AmongBlocks p.2 → AmongBlocks above
  | ⟨type, attrs, content, marks, text⟩, above => by
      rw [placed, List.forall_mem_cons]
      refine ⟨id, fun p member among => ?_⟩
      exact (amongBlocks_cons.mp (placedAll_among content p member among)).2

theorem placedAll_among : ∀ (ns : List ArticleNode) {above : List String},
    ∀ p ∈ placedAll ns above, AmongBlocks p.2 → AmongBlocks above
  | [], _ => List.forall_mem_nil _
  | n :: ns, above => by
      rw [placedAll, List.forall_mem_append]
      exact ⟨placed_among n, placedAll_among ns⟩

end

theorem inPlace_of_nil {nodes : List (ArticleNode × List String)} (none_ : piecesOf nodes = []) :
    ∀ p ∈ nodes, InPlace p.1 p.2 :=
  fun p member => inPlace_of_own_eq_nil (List.flatMap_eq_nil_iff.mp none_ p member)

theorem placed_eq (n : ArticleNode) (above : List String) :
    placed n above = (n, above) :: placedAll n.content (n.type :: above) := by
  cases n
  rw [placed]

/-- A container holds no piece itself. -/
theorem own_of_container {n : ArticleNode}
    (container : n.type ∈ ArticleBody.containerTags.map Prod.fst) : ownPieces n = [] := by
  simp only [ArticleBody.containerTags, List.map_cons, List.map_nil, List.mem_cons,
    List.not_mem_nil, or_false] at container
  rcases container with type | type | type | type <;> simp [ownPieces, type]

section Stops

variable [Js.Implementation]

instance (p : ArticleNode × List String) : Decidable (Stops p) :=
  inferInstanceAs (Decidable (_ ∧ _ ∧ _))

instance decidableUnstopped : (nodes : List (ArticleNode × List String)) →
    Decidable (Unstopped nodes)
  | [] => .isTrue trivial
  | _ :: rest =>
      let _ := decidableUnstopped rest
      inferInstanceAs (Decidable (_ ∧ _))

/-- Nothing stops before the end of nodes that hold no piece. -/
theorem unstopped_of_nil {nodes : List (ArticleNode × List String)}
    (none_ : piecesOf nodes = []) : Unstopped nodes := by
  induction nodes with
  | nil => trivial
  | cons p rest ih =>
      rw [piecesOf, List.flatMap_cons, List.append_eq_nil_iff] at none_
      exact ⟨fun _ => none_.2, ih none_.2⟩

/-- Where nothing stops, all goes on. -/
theorem unstopped_of_running {nodes : List (ArticleNode × List String)}
    (running : ∀ p ∈ nodes, ¬ Stops p) : Unstopped nodes := by
  induction nodes with
  | nil => trivial
  | cons p rest ih =>
      rw [List.forall_mem_cons] at running
      exact ⟨fun stops => absurd stops running.1, ih running.2⟩

/-- Two parts go on together when each does and nothing is left after the first has stopped. -/
theorem unstopped_append {first second : List (ArticleNode × List String)} :
    Unstopped (first ++ second) ↔ Unstopped first ∧ Unstopped second ∧
      ((∃ p ∈ first, Stops p) → piecesOf second = []) := by
  induction first with
  | nil => simp [Unstopped]
  | cons p rest ih =>
      rw [List.cons_append, Unstopped, Unstopped, ih, piecesOf_append, List.append_eq_nil_iff]
      simp only [List.exists_mem_cons_iff]
      constructor
      · rintro ⟨here, before, after, none_⟩
        exact ⟨⟨fun stops => (here stops).1, before⟩, after,
          fun stopped => stopped.elim (fun stops => (here stops).2) none_⟩
      · rintro ⟨⟨here, before⟩, after, none_⟩
        exact ⟨fun stops => ⟨here stops, none_ (.inl stops)⟩, before, after,
          fun stopped => none_ (.inr stopped)⟩

/-- A part of the page against the part of the document it is drawn from, where something
may be thrown. -/
structure Renders (d : Drawn) (nodes : List (ArticleNode × List String)) : Prop where
  threw : d.threw = true ↔ ∃ p ∈ nodes, Stops p
  sublist : (shownAll d.html).Sublist (piecesOf nodes)
  whole : shownAll d.html = piecesOf nodes ↔
    (∀ p ∈ nodes, InPlace p.1 p.2) ∧ Unstopped nodes

theorem Renders.nil : Renders (.done []) [] :=
  ⟨by simp [Drawn.done], List.Sublist.refl _,
    iff_of_true rfl ⟨List.forall_mem_nil _, trivial⟩⟩

/-- Two parts are rendered one after the other, unless the first fails or stops. -/
theorem Renders.andThen {d e : Drawn} {n₁ n₂ : List (ArticleNode × List String)}
    (first : Renders d n₁) (second : Renders e n₂) : Renders (d.andThen e) (n₁ ++ n₂) := by
  unfold Drawn.andThen
  split_ifs with threw
  · -- Nothing of the second part is drawn, so it must have nothing to show.
    have stopped := first.threw.mp threw
    refine ⟨?_, ?_, ?_⟩
    · refine iff_of_true threw ?_
      obtain ⟨p, member, stops⟩ := stopped
      exact ⟨p, List.mem_append_left _ member, stops⟩
    · rw [piecesOf_append]
      exact first.sublist.trans (List.sublist_append_left _ _)
    · have joined := append_eq_append_iff_of_sublist first.sublist
        (List.nil_sublist (piecesOf n₂))
      rw [List.append_nil, first.whole] at joined
      rw [piecesOf_append, joined, List.forall_mem_append, unstopped_append]
      constructor
      · rintro ⟨⟨inPlace, unstopped⟩, none_⟩
        exact ⟨⟨inPlace, inPlace_of_nil none_.symm⟩, unstopped, unstopped_of_nil none_.symm,
          fun _ => none_.symm⟩
      · rintro ⟨⟨inPlace, -⟩, unstopped, -, none_⟩
        exact ⟨⟨inPlace, unstopped⟩, (none_ stopped).symm⟩
  · have running : ¬ ∃ p ∈ n₁, Stops p := fun stopped => threw (first.threw.mpr stopped)
    refine ⟨?_, ?_, ?_⟩
    · rw [second.threw]
      constructor
      · rintro ⟨p, member, stops⟩
        exact ⟨p, List.mem_append_right _ member, stops⟩
      · rintro ⟨p, member, stops⟩
        rcases List.mem_append.mp member with before | after
        · exact absurd ⟨p, before, stops⟩ running
        · exact ⟨p, after, stops⟩
    · rw [shownAll_append, piecesOf_append]
      exact first.sublist.append second.sublist
    · rw [shownAll_append, piecesOf_append,
        append_eq_append_iff_of_sublist first.sublist second.sublist, first.whole, second.whole,
        List.forall_mem_append, unstopped_append]
      constructor
      · rintro ⟨⟨inPlace, before⟩, inPlace', after⟩
        exact ⟨⟨inPlace, inPlace'⟩, before, after, fun stopped => absurd stopped running⟩
      · rintro ⟨⟨inPlace, inPlace'⟩, before, after, -⟩
        exact ⟨⟨inPlace, before⟩, inPlace', after⟩

/-- A part that is drawn to its end, of nodes at which nothing is thrown. -/
theorem Renders.done {html : List Html} {nodes : List (ArticleNode × List String)}
    (draws : Draws html nodes) (running : ∀ p ∈ nodes, ¬ Stops p) :
    Renders (.done html) nodes := by
  refine ⟨?_, draws.sublist, ?_⟩
  · refine iff_of_false nofun ?_
    rintro ⟨p, member, stops⟩
    exact running p member stops
  · rw [Drawn.done, draws.whole]
    exact (and_iff_left (unstopped_of_running running)).symm

/-- An element around the blocks of a list, an item or a quote. -/
theorem Renders.within {d : Drawn} {n : ArticleNode} {above : List String}
    {element : List Html → Html} (container : n.type ∈ ArticleBody.containerTags.map Prod.fst)
    (same : ∀ html, shown (element html) = shownAll html) (running : ¬ Stops (n, above))
    (below : Renders d (placedAll n.content (n.type :: above))) :
    Renders (d.within element) (placed n above) := by
  have own := own_of_container container
  have shows : shownAll (d.within element).html = shownAll d.html := by
    rw [Drawn.within, shownAll, shownAll, List.append_nil, same]
  have all : piecesOf (placed n above) = piecesOf (placedAll n.content (n.type :: above)) := by
    rw [piecesOf_placed, own, List.nil_append]
  refine ⟨?_, ?_, ?_⟩
  · rw [placed_eq, List.exists_mem_cons_iff]
    exact below.threw.trans (or_iff_right running).symm
  · rw [shows, all]
    exact below.sublist
  · rw [shows, all, below.whole, placed_eq, List.forall_mem_cons, Unstopped]
    have inPlace : InPlace n above := inPlace_of_own_eq_nil own
    tauto

/-- An ordered list whose first number cannot be read shows nothing. -/
theorem Renders.stopped {n : ArticleNode} {above : List String} (stops : Stops (n, above)) :
    Renders ⟨[.orderedList none []], true⟩ (placed n above) := by
  have own : ownPieces n = [] := by
    have type : n.type = "orderedList" := stops.1
    simp [ownPieces, type]
  have shows : shownAll [Html.orderedList none []] = [] := by
    simp [shownAll, shown]
  refine ⟨?_, ?_, ?_⟩
  · rw [placed_eq]
    exact iff_of_true rfl ⟨_, List.mem_cons_self, stops⟩
  · rw [shows]
    exact List.nil_sublist _
  · rw [shows, piecesOf_placed, own, List.nil_append, placed_eq, List.forall_mem_cons, Unstopped]
    constructor
    · intro none_
      exact ⟨⟨inPlace_of_own_eq_nil own, inPlace_of_nil none_.symm⟩, fun _ => none_.symm,
        unstopped_of_nil none_.symm⟩
    · rintro ⟨-, none_, -⟩
      exact (none_ stops).symm

/-- Nothing is thrown in or below a node without blocks of its own. -/
theorem running_of_leaf {n : ArticleNode} {above : List String}
    (container : n.type ∉ ArticleBody.containerTags.map Prod.fst) :
    ∀ p ∈ placed n above, ¬ Stops p := by
  rw [placed_eq, List.forall_mem_cons]
  constructor
  · rintro ⟨type, -⟩
    rw [type] at container
    exact container (by decide)
  · rintro p member ⟨-, among, -⟩
    exact container (amongBlocks_cons.mp (placedAll_among n.content p member among)).1

variable [Browser] (failed : List String)

/-- How each container draws its content. -/
theorem block_container {n : ArticleNode} {above : List String} (among : AmongBlocks above)
    (container : n.type ∈ ArticleBody.containerTags.map Prod.fst)
    (below : Renders (ArticleBody.blocks failed n.content)
      (placedAll n.content (n.type :: above))) :
    Renders (ArticleBody.block failed n) (placed n above) := by
  obtain ⟨tag, listed⟩ : ∃ tag, ArticleBody.containerTags.lookup n.type = some tag := by
    simp only [ArticleBody.containerTags, List.map_cons, List.map_nil, List.mem_cons,
      List.not_mem_nil, or_false] at container
    rcases container with type | type | type | type <;>
      simp [ArticleBody.containerTags, List.lookup_cons, type]
  cases n with
  | mk type attrs content marks text =>
      rw [ArticleBody.block, listed]
      dsimp only
      split_ifs with ordered
      · cases start : ArticleBody.startOf ⟨type, attrs, content, marks, text⟩ with
        | error thrown =>
            exact .stopped ⟨ordered, among, by rw [start]; rfl⟩
        | ok number =>
            refine .within container (fun html => by rw [shown]) ?_ below
            rintro ⟨-, -, thrown⟩
            rw [start] at thrown
            cases thrown
      · refine .within container (fun html => by rw [shown]) ?_ below
        rintro ⟨isOrdered, -⟩
        exact ordered isOrdered

mutual

/-- One node among blocks. -/
theorem block_renders : ∀ (n : ArticleNode) {above : List String}, AmongBlocks above →
    (∀ p ∈ placed n above, Drawable p.1) →
      Renders (ArticleBody.block failed n) (placed n above)
  | ⟨type, attrs, content, marks, text⟩, above, among, drawable => by
      by_cases container : type ∈ ArticleBody.containerTags.map Prod.fst
      · rw [placed, List.forall_mem_cons] at drawable
        exact block_container failed among container
          (blocks_renders content (amongBlocks_cons.mpr ⟨container, among⟩) drawable.2)
      · have draws := leaf_draws failed among container
          (drawable ⟨⟨type, attrs, content, marks, text⟩, above⟩
            (by rw [placed]; exact List.mem_cons_self))
        rw [ArticleBody.block, lookup_container container]
        exact .done draws (running_of_leaf container)

/-- Blocks are rendered one after the other. -/
theorem blocks_renders : ∀ (ns : List ArticleNode) {above : List String}, AmongBlocks above →
    (∀ p ∈ placedAll ns above, Drawable p.1) →
      Renders (ArticleBody.blocks failed ns) (placedAll ns above)
  | [], _, _, _ => .nil
  | n :: ns, above, among, drawable => by
      rw [placedAll, List.forall_mem_append] at drawable
      rw [ArticleBody.blocks, placedAll]
      exact (block_renders n among drawable.1).andThen (blocks_renders ns among drawable.2)

end

/-- A document that passes is shown whole exactly when every text that is not blank and every
embed in it stands in place, and none in or after an ordered list that stops the reader. -/
theorem shows_iff {doc : ArticleNode} (passes : Passes doc) (agree : ImagesAgree doc) :
    (∀ failed, (pieces doc).Sublist (shown (ArticleBody.rendering failed doc))) ↔
      AllInPlace doc ∧ Unstopped (placedAll doc.content []) := by
  have drawable : ∀ p ∈ placedAll doc.content [], Drawable p.1 := by
    intro p member
    have node : p.1 ∈ (visited doc 0).map Prod.fst := by
      rw [visited_eq, List.map_cons, ← placedAll_nodes doc.content 1 []]
      exact List.mem_cons_of_mem _ (List.mem_map_of_mem member)
    obtain ⟨q, reached, same⟩ := List.mem_map.mp node
    rw [← same]
    exact ⟨passes.node q reached, agree q reached⟩
  have renders := fun failed => blocks_renders failed doc.content (List.forall_mem_nil _) drawable
  have page : ∀ failed, shown (ArticleBody.rendering failed doc) =
      shownAll (ArticleBody.blocks failed doc.content).html := by
    intro failed
    rw [ArticleBody.rendering, shown]
  have all := pieces_eq passes.root
  constructor
  · intro whole
    have sublist := whole []
    rw [page, all] at sublist
    exact (renders []).whole.mp ((renders []).sublist.antisymm sublist)
  · intro inPlace failed
    rw [page, all, (renders failed).whole.mpr inPlace]

end Stops

/-! ## What a column keeps of what is drawn -/

theorem safeImage_jsonb [Browser] (v : Json) : safeImage v.jsonb = safeImage v := by
  cases v <;> rfl

@[simp]
theorem ownPieces_kept (n : ArticleNode) : ownPieces n.kept = ownPieces n := by
  simp [ownPieces]

mutual

theorem placed_kept : ∀ (n : ArticleNode) (above : List String),
    placed n.kept above = (placed n above).map fun p => (p.1.kept, p.2)
  | ⟨type, attrs, content, marks, text⟩, above => by
      rw [placed, ArticleNode.kept, placed, List.map_cons, placedAll_kept content (type :: above),
        ArticleNode.kept]

theorem placedAll_kept : ∀ (ns : List ArticleNode) (above : List String),
    placedAll (keptAll ns) above = (placedAll ns above).map fun p => (p.1.kept, p.2)
  | [], _ => rfl
  | n :: ns, above => by
      rw [keptAll, placedAll, placedAll, List.map_append, placed_kept n above,
        placedAll_kept ns above]

end

theorem pieces_kept (doc : ArticleNode) : pieces doc.kept = pieces doc := by
  rw [pieces, pieces, visited_kept, List.flatMap_map]
  simp only [ownPieces_kept]

/-- A node is in its place exactly when what is kept of it is. -/
theorem inPlace_kept {n : ArticleNode} {above : List String} :
    InPlace n.kept above ↔ InPlace n above := by
  constructor
  · rintro ⟨text, embed⟩
    rw [kept_type] at text embed
    rw [kept_text] at text
    exact ⟨text, embed⟩
  · rintro ⟨text, embed⟩
    refine ⟨?_, ?_⟩
    · rw [kept_type, kept_text]
      exact text
    · rw [kept_type]
      exact embed

section Kept

variable [Js.Implementation]

mutual

/-- A value is written as a text in the same way when it is served. -/
theorem toText_jsonb : ∀ v : Json, Js.toText v.jsonb = Js.toText v
  | .null => rfl
  | .bool _ => rfl
  | .num _ => rfl
  | .str _ => rfl
  | .arr items => by rw [Json.jsonb, Js.toText, Js.toText, toTexts_jsonb items]
  | .obj members => by
      rw [Json.jsonb, Js.toText, Js.toText, Js.member, lookup_jsonbMembers, Js.member]
      cases members.reverse.lookup "toString" <;> rfl

/-- So are several values. -/
theorem toTexts_jsonb : ∀ items : List Json,
    Js.toTexts (Json.jsonbAll items) = Js.toTexts items
  | [] => rfl
  | .null :: items => by
      rw [Json.jsonbAll, Json.jsonb, Js.toTexts, Js.toTexts, toTexts_jsonb items]
      all_goals nofun
  | .bool b :: items => by
      rw [Json.jsonbAll, Js.toTexts, Js.toTexts, toTexts_jsonb items]
      rfl
      all_goals nofun
  | .num n :: items => by
      rw [Json.jsonbAll, Js.toTexts, Js.toTexts, toTexts_jsonb items]
      rfl
      all_goals nofun
  | .str s :: items => by
      rw [Json.jsonbAll, Js.toTexts, Js.toTexts, toTexts_jsonb items]
      rfl
      all_goals nofun
  | .arr inner :: items => by
      rw [Json.jsonbAll, Js.toTexts, Js.toTexts, toText_jsonb (.arr inner), toTexts_jsonb items]
      all_goals nofun
  | .obj members :: items => by
      rw [Json.jsonbAll, Js.toTexts, Js.toTexts, toText_jsonb (.obj members),
        toTexts_jsonb items]
      all_goals nofun

end

/-- A value is read as a number in the same way when it is served. -/
theorem toNumber_jsonb (v : Json) : Js.toNumber (some v.jsonb) = Js.toNumber (some v) := by
  cases v with
  | arr items =>
      change (Js.toText (Json.arr items).jsonb >>= _) = _
      rw [toText_jsonb]
      rfl
  | obj members =>
      change (Js.toText (Json.obj members).jsonb >>= _) = _
      rw [toText_jsonb]
      rfl
  | _ => rfl

/-- A list begins with the same number when it is kept. -/
theorem startOf_kept (n : ArticleNode) :
    ArticleBody.startOf n.kept = ArticleBody.startOf n := by
  have same := toNumber_jsonb (attr n.attrs "start")
  rw [ArticleBody.startOf, ArticleBody.startOf, kept_attrs, attr_keptAttrs]
  cases start : attr n.attrs "start" with
  | arr items | obj members =>
      rw [start, Json.jsonb] at same
      dsimp only [Json.jsonb]
      rw [same]
  | _ => rfl

/-- What is kept goes on exactly as it did. -/
theorem unstopped_kept (nodes : List (ArticleNode × List String)) :
    Unstopped (nodes.map fun p => (p.1.kept, p.2)) ↔ Unstopped nodes := by
  induction nodes with
  | nil => rfl
  | cons p rest ih =>
      have stops : Stops (p.1.kept, p.2) ↔ Stops p := by
        rw [Stops, Stops, kept_type, startOf_kept]
      have none_ : piecesOf (rest.map fun p => (p.1.kept, p.2)) = piecesOf rest := by
        rw [piecesOf, piecesOf, List.flatMap_map]
        simp only [ownPieces_kept]
      rw [List.map_cons, Unstopped, Unstopped, ih, stops, none_]

end Kept

section Served

variable [Unicode] [Browser] [Js.Implementation]

end Served

/-- A picture above a list with one word in it. -/
def pictureBody : String :=
  "\x7b\"type\":\"doc\",\"content\":[" ++
    "\x7b\"type\":\"figure\",\"attrs\":\x7b\"src\":\"https://img.test/a.png\"\x7d\x7d," ++
    "\x7b\"type\":\"bulletList\",\"content\":[\x7b\"type\":\"listItem\",\"content\":[" ++
    "\x7b\"type\":\"paragraph\",\"content\":[" ++
    "\x7b\"type\":\"text\",\"text\":\"Goal\"\x7d]\x7d]\x7d]\x7d]\x7d"

/-- A list item that holds its text without a paragraph. -/
def bareItemBody : String :=
  "\x7b\"type\":\"doc\",\"content\":[\x7b\"type\":\"bulletList\",\"content\":[" ++
    "\x7b\"type\":\"listItem\",\"content\":[" ++
    "\x7b\"type\":\"text\",\"text\":\"Goal\"\x7d]\x7d]\x7d]\x7d"

/-- A browser that reads one address. -/
@[reducible]
def pictureBrowser : Browser where
  url raw :=
    if raw = "https://img.test/a.png" then some ⟨"https:", "img.test", "/a.png"⟩ else none

/-- Numbers that are not written. -/
@[reducible]
def silentMath : Js.Implementation where
  cos _ := 0
  hypot _ _ := 0
  atan2 _ _ := .finite 0
  numberText _ := ""

/-- A list whose first number is an object with a `toString` of its own. -/
def stoppingBody : String :=
  "\x7b\"type\":\"doc\",\"content\":[\x7b\"type\":\"orderedList\"," ++
    "\"attrs\":\x7b\"start\":\x7b\"toString\":1\x7d\x7d," ++
    "\"content\":[\x7b\"type\":\"listItem\",\"content\":[" ++
    "\x7b\"type\":\"paragraph\",\"content\":[" ++
    "\x7b\"type\":\"text\",\"text\":\"Goal\"\x7d]\x7d]\x7d]\x7d]\x7d"

section Ascii

attribute [local instance] Unicode.ascii pictureBrowser silentMath

/-- Every text stands in place, and the reader stops before the first. -/
example : checkArticleBody stoppingBody = .ok ⟨"Goal", 1, 1⟩ ∧ AllInPlace (bodyOf stoppingBody) ∧
    (servedDocument stoppingBody).map (fun served => shown (ArticleBody.rendering [] served)) =
      some [] := by
  decide +kernel

end Ascii

end ScoutPulse.Articles
