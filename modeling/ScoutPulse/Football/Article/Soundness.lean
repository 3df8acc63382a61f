import ScoutPulse.Football.Article.Body
import ScoutPulse.Lib.Outcome

/-!
# What the body check guarantees

The walk is one recursion over the tree with shared counters. This file states what
a document has to be, node by node and in total, and reduces the walk to it: a walk
succeeds exactly when every node it visits passes on its own and the totals stay
within their bounds.

The walk looks at the marks of text nodes only, so a document it accepts is sound
exactly when the marks on its other nodes happen to be sound as well.
-/

namespace ScoutPulse.Articles

open Strings Outcome

/-! ## The nodes of a document -/

mutual

/-- A node and every node below it, in the order of the walk, each with its depth. -/
def visited : ArticleNode → ℕ → List (ArticleNode × ℕ)
  | ⟨type, attrs, content, marks, text⟩, depth =>
      (⟨type, attrs, content, marks, text⟩, depth) :: visitedAll content (depth + 1)

def visitedAll : List ArticleNode → ℕ → List (ArticleNode × ℕ)
  | [], _ => []
  | n :: ns, depth => visited n depth ++ visitedAll ns depth

end

/-- The runes of text a node holds itself. -/
def ownRunes (n : ArticleNode) : ℕ := if n.type = "text" then runeCount n.text else 0

/-- The words a node holds itself. -/
def ownWords (n : ArticleNode) : ℕ := if n.type = "text" then (fields n.text).length else 0

/-- The runes of text the visited nodes hold together. -/
def textRunes (nodes : List (ArticleNode × ℕ)) : ℕ := (nodes.map fun p => ownRunes p.1).sum

@[simp]
theorem textRunes_nil : textRunes [] = 0 := rfl

@[simp]
theorem textRunes_cons (n : ArticleNode) (depth : ℕ) (nodes : List (ArticleNode × ℕ)) :
    textRunes ((n, depth) :: nodes) = ownRunes n + textRunes nodes := by
  simp [textRunes]

@[simp]
theorem textRunes_append (first second : List (ArticleNode × ℕ)) :
    textRunes (first ++ second) = textRunes first + textRunes second := by
  simp [textRunes]

/-! ## The rules -/

/-- A mark of an allowed type; a link goes somewhere a reader may be sent to. -/
structure SoundMark (m : ArticleMark) : Prop where
  allowed : m.type ∈ articleMarkTypes
  link : m.type = "link" → SafeLinkURL (str (attr m.attrs "href")) = true

/-- A video from one of the two providers, with an id of that provider's shape. -/
def SoundVideo (attrs : Attrs) : Prop :=
  (str (attr attrs "provider") = "youtube" ∧ youtubeID (str (attr attrs "id")) = true) ∨
    (str (attr attrs "provider") = "vimeo" ∧ vimeoID (str (attr attrs "id")) = true)

/-- What a node of each type has to carry in its attributes. -/
structure SoundAttrs (type : String) (attrs : Attrs) : Prop where
  heading : type = "heading" →
    ∃ level, number (attr attrs "level") = some level ∧ 2 ≤ level ∧ level ≤ 4
  source : type = "figure" → SafeImageURL (str (attr attrs "src")) = true
  figureLink : type = "figure" → str (attr attrs "href") ≠ "" →
    SafeLinkURL (str (attr attrs "href")) = true
  board : type = "tacticBoard" → validSlug (str (attr attrs "slug")) = true
  video : type = "video" → SoundVideo attrs

/-- A node the reader can draw: its type, its marks and its attributes. -/
structure SoundNode (n : ArticleNode) : Prop where
  allowed : n.type ∈ articleBlockTypes
  marks : ∀ m ∈ n.marks, SoundMark m
  attrs : SoundAttrs n.type n.attrs

/-- A document in which every node is sound and which stays within the bounds. -/
structure Sound (doc : ArticleNode) : Prop where
  node : ∀ p ∈ visited doc 0, SoundNode p.1
  depth : ∀ p ∈ visited doc 0, p.2 ≤ maxArticleDepth
  count : (visited doc 0).length ≤ maxArticleNodes
  runes : textRunes (visited doc 0) ≤ maxArticleText

instance (m : ArticleMark) : Decidable (SoundMark m) :=
  decidable_of_iff (m.type ∈ articleMarkTypes ∧
      (m.type = "link" → SafeLinkURL (str (attr m.attrs "href")) = true))
    ⟨fun h => ⟨h.1, h.2⟩, fun h => ⟨h.allowed, h.link⟩⟩

/-! ## One node -/

/-- A heading is sound when its level is between two and four. -/
theorem checkAttrs_heading (attrs : Attrs) :
    checkAttrs "heading" attrs = .ok () ↔
      ∃ level, number (attr attrs "level") = some level ∧ 2 ≤ level ∧ level ≤ 4 := by
  cases read : number (attr attrs "level") with
  | none => simp [checkAttrs, read]
  | some level =>
      simp only [checkAttrs, read, Option.some.injEq, exists_eq_left', if_true]
      split_ifs with outside
      · have notWithin : ¬ (2 ≤ level ∧ level ≤ 4) := by omega
        exact iff_of_false nofun notWithin
      · have within : 2 ≤ level ∧ level ≤ 4 := by omega
        exact iff_of_true rfl within

/-- A figure is sound when its image is, and its link where it has one. -/
theorem checkAttrs_figure (attrs : Attrs) :
    checkAttrs "figure" attrs = .ok () ↔
      SafeImageURL (str (attr attrs "src")) = true ∧
        (str (attr attrs "href") ≠ "" → SafeLinkURL (str (attr attrs "href")) = true) := by
  cases source : SafeImageURL (str (attr attrs "src")) with
  | false => simp [checkAttrs, source]
  | true =>
      by_cases linked : str (attr attrs "href") = ""
      · simp [checkAttrs, source, linked]
      · cases link : SafeLinkURL (str (attr attrs "href")) <;>
          simp [checkAttrs, source, linked, link]

theorem checkAttrs_board (attrs : Attrs) :
    checkAttrs "tacticBoard" attrs = .ok () ↔ validSlug (str (attr attrs "slug")) = true := by
  cases valid : validSlug (str (attr attrs "slug")) <;> simp [checkAttrs, valid]

/-- A video is sound when it is of a provider and has an id. -/
theorem checkAttrs_video (attrs : Attrs) :
    checkAttrs "video" attrs = .ok () ↔ SoundVideo attrs := by
  by_cases youtube : str (attr attrs "provider") = "youtube"
  · cases id : youtubeID (str (attr attrs "id")) <;>
      simp [checkAttrs, SoundVideo, youtube, id]
  · by_cases vimeo : str (attr attrs "provider") = "vimeo"
    · cases id : vimeoID (str (attr attrs "id")) <;>
        simp [checkAttrs, SoundVideo, vimeo, id]
    · simp [checkAttrs, SoundVideo, youtube, vimeo]

theorem checkAttrs_other (type : String) (attrs : Attrs) (heading : type ≠ "heading")
    (figure : type ≠ "figure") (board : type ≠ "tacticBoard") (video : type ≠ "video") :
    checkAttrs type attrs = .ok () := by
  simp [checkAttrs, heading, figure, board, video]

/-- The attributes pass exactly when they are sound. -/
theorem checkAttrs_ok_iff (type : String) (attrs : Attrs) :
    checkAttrs type attrs = .ok () ↔ SoundAttrs type attrs := by
  constructor
  · intro passed
    refine ⟨?_, ?_, ?_, ?_, ?_⟩
    · rintro rfl
      exact (checkAttrs_heading attrs).mp passed
    · rintro rfl
      exact ((checkAttrs_figure attrs).mp passed).1
    · rintro rfl
      exact ((checkAttrs_figure attrs).mp passed).2
    · rintro rfl
      exact (checkAttrs_board attrs).mp passed
    · rintro rfl
      exact (checkAttrs_video attrs).mp passed
  · intro sound
    by_cases heading : type = "heading"
    · subst heading
      exact (checkAttrs_heading attrs).mpr (sound.heading rfl)
    by_cases figure : type = "figure"
    · subst figure
      exact (checkAttrs_figure attrs).mpr ⟨sound.source rfl, sound.figureLink rfl⟩
    by_cases board : type = "tacticBoard"
    · subst board
      exact (checkAttrs_board attrs).mpr (sound.board rfl)
    by_cases video : type = "video"
    · subst video
      exact (checkAttrs_video attrs).mpr (sound.video rfl)
    exact checkAttrs_other type attrs heading figure board video

/-- What the walk checks of one node apart from the totals. -/
structure NodePasses (n : ArticleNode) : Prop where
  allowed : n.type ∈ articleBlockTypes
  marks : n.type = "text" → ∀ m ∈ n.marks, SoundMark m
  attrs : SoundAttrs n.type n.attrs

/-- The walk's own rule falls short of a sound node by the marks of every node that
is not text. -/
theorem soundNode_iff_passes (n : ArticleNode) :
    SoundNode n ↔ NodePasses n ∧ (n.type ≠ "text" → ∀ m ∈ n.marks, SoundMark m) := by
  constructor
  · rintro ⟨allowed, marks, attrs⟩
    exact ⟨⟨allowed, fun _ => marks, attrs⟩, fun _ => marks⟩
  · rintro ⟨⟨allowed, ofText, attrs⟩, ofOthers⟩
    refine ⟨allowed, ?_, attrs⟩
    by_cases text : n.type = "text"
    · exact ofText text
    · exact ofOthers text

@[simp]
theorem leave_nodes (w : BodyWalker) (n : ArticleNode) : (w.leave n).nodes = w.nodes := by
  simp only [BodyWalker.leave]
  split_ifs <;> rfl

@[simp]
theorem leave_runes (w : BodyWalker) (n : ArticleNode) : (w.leave n).runes = w.runes := by
  simp only [BodyWalker.leave]
  split_ifs <;> rfl

/-- The totals a walker carries are within their bounds. -/
structure BodyWalker.Within (w : BodyWalker) : Prop where
  count : w.nodes ≤ maxArticleNodes
  runes : w.runes ≤ maxArticleText

theorem start_within : BodyWalker.start.Within := ⟨Nat.zero_le _, Nat.zero_le _⟩

section Walk

variable [Unicode]

/-- A mark passes exactly when it is sound. -/
theorem checkMark_ok_iff (m : ArticleMark) : checkMark m = .ok () ↔ SoundMark m := by
  constructor
  · intro passed
    simp only [checkMark] at passed
    split_ifs at passed with unknown refused
    exact ⟨unknown, fun link => by
      cases safe : SafeLinkURL (str (attr m.attrs "href")) with
      | false => exact absurd ⟨link, safe⟩ refused
      | true => rfl⟩
  · rintro ⟨allowed, link⟩
    have safe : ¬ (m.type = "link" ∧ SafeLinkURL (str (attr m.attrs "href")) = false) := by
      rintro ⟨isLink, refused⟩
      rw [link isLink] at refused
      cases refused
    simp [checkMark, allowed, safe]

/-- Marks pass exactly when each is sound. -/
theorem checkMarks_ok_iff (marks : List ArticleMark) :
    checkMarks marks = .ok () ↔ ∀ m ∈ marks, SoundMark m := by
  induction marks with
  | nil => simp [checkMarks]
  | cons m ms ih =>
      rw [List.forall_mem_cons, ← ih, ← checkMark_ok_iff m]
      cases checked : checkMark m with
      | error e => simp [checkMarks, checked, bind, Except.bind]
      | ok _ => simp [checkMarks, checked, bind, Except.bind]

/-- What entering a node does to a walker: the node, its runes and its words are counted. -/
theorem enter_eq {w w' : BodyWalker} {n : ArticleNode} {depth : ℕ}
    (entered : w.enter n depth = .ok w') :
    w' = ⟨w.nodes + 1, w.runes + ownRunes n, w.words + ownWords n, w.paragraphs⟩ := by
  simp only [BodyWalker.enter, guard_ok_iff] at entered
  obtain ⟨-, -, -, entered⟩ := entered
  by_cases text : n.type = "text"
  · simp only [if_pos text, guard_ok_iff, bind_ok_iff, pure_ok_iff] at entered
    obtain ⟨-, -, -, rfl⟩ := entered
    rw [ownRunes, ownWords, if_pos text, if_pos text]
  · simp only [if_neg text, bind_ok_iff, pure_ok_iff] at entered
    obtain ⟨-, -, rfl⟩ := entered
    rw [ownRunes, ownWords, if_neg text, if_neg text]
    rfl

/-- A walker that enters a node has counted it, and the node passes. -/
theorem enter_ok {w w' : BodyWalker} {n : ArticleNode} {depth : ℕ} (within : w.Within)
    (entered : w.enter n depth = .ok w') :
    NodePasses n ∧ depth ≤ maxArticleDepth ∧ w'.Within ∧
      w'.nodes = w.nodes + 1 ∧ w'.runes = w.runes + ownRunes n := by
  simp only [BodyWalker.enter, guard_ok_iff, not_lt, not_not] at entered
  obtain ⟨counted, shallow, allowed, entered⟩ := entered
  by_cases text : n.type = "text"
  · simp only [if_pos text, guard_ok_iff, bind_ok_iff, pure_ok_iff, not_lt] at entered
    obtain ⟨fits, ⟨⟩, marks, rfl⟩ := entered
    have attrs : SoundAttrs n.type n.attrs :=
      (checkAttrs_ok_iff _ _).mp (checkAttrs_other _ _ (by simp [text]) (by simp [text])
        (by simp [text]) (by simp [text]))
    exact ⟨⟨allowed, fun _ => (checkMarks_ok_iff _).mp marks, attrs⟩, shallow,
      ⟨counted, fits⟩, rfl, by simp [ownRunes, text]⟩
  · simp only [if_neg text, bind_ok_iff, pure_ok_iff] at entered
    obtain ⟨⟨⟩, attrs, rfl⟩ := entered
    exact ⟨⟨allowed, fun isText => absurd isText text, (checkAttrs_ok_iff _ _).mp attrs⟩,
      shallow, ⟨counted, within.runes⟩, rfl, by simp [ownRunes, text]⟩

/-- A node that passes, at an allowed depth and within what is left of the totals,
is entered. -/
theorem enter_total (w : BodyWalker) {n : ArticleNode} {depth : ℕ} (passes : NodePasses n)
    (shallow : depth ≤ maxArticleDepth) (count : w.nodes + 1 ≤ maxArticleNodes)
    (runes : w.runes + ownRunes n ≤ maxArticleText) :
    ∃ w', w.enter n depth = .ok w' := by
  simp only [BodyWalker.enter, guard_ok_iff, not_lt, not_not]
  by_cases text : n.type = "text"
  · have fits : w.runes + runeCount n.text ≤ maxArticleText := by
      simpa [ownRunes, text] using runes
    simp only [if_pos text, guard_ok_iff, bind_ok_iff, pure_ok_iff, not_lt]
    exact ⟨_, count, shallow, passes.allowed, fits, (),
      (checkMarks_ok_iff n.marks).mpr (passes.marks text), rfl⟩
  · simp only [if_neg text, bind_ok_iff, pure_ok_iff]
    exact ⟨_, count, shallow, passes.allowed, (),
      (checkAttrs_ok_iff n.type n.attrs).mpr passes.attrs, rfl⟩

/-! ## The whole walk -/

/-- A walker finds nothing to refuse in a list of visited nodes. -/
structure BodyWalker.Admits (w : BodyWalker) (nodes : List (ArticleNode × ℕ)) : Prop where
  node : ∀ p ∈ nodes, NodePasses p.1 ∧ p.2 ≤ maxArticleDepth
  count : w.nodes + nodes.length ≤ maxArticleNodes
  runes : w.runes + textRunes nodes ≤ maxArticleText

mutual

/-- A walk that succeeds has visited and counted every node, and each passes. -/
theorem walk_ok : ∀ (n : ArticleNode) {depth : ℕ} {w w' : BodyWalker}, w.Within →
    walk n depth w = .ok w' →
    w.Admits (visited n depth) ∧ w'.nodes = w.nodes + (visited n depth).length ∧
      w'.runes = w.runes + textRunes (visited n depth)
  | ⟨type, attrs, content, marks, text⟩, depth, w, w', within, walked => by
      simp only [walk, bind_ok_iff, pure_ok_iff] at walked
      obtain ⟨entered, enters, inner, below, rfl⟩ := walked
      obtain ⟨passes, shallow, enteredWithin, nodes, runes⟩ := enter_ok within enters
      obtain ⟨children, innerNodes, innerRunes⟩ := walkAll_ok content enteredWithin below
      have total := children.count
      have totalRunes := children.runes
      simp only [visited, List.length_cons, textRunes_cons, leave_nodes, leave_runes]
      refine ⟨⟨?_, ?_, ?_⟩, by omega, by omega⟩
      · rw [List.forall_mem_cons]
        exact ⟨⟨passes, shallow⟩, children.node⟩
      · rw [List.length_cons]
        omega
      · rw [textRunes_cons]
        omega

/-- A walk that ends well has admitted every node, and has counted them and their runes. -/
theorem walkAll_ok : ∀ (ns : List ArticleNode) {depth : ℕ} {w w' : BodyWalker}, w.Within →
    walkAll ns depth w = .ok w' →
    w.Admits (visitedAll ns depth) ∧ w'.nodes = w.nodes + (visitedAll ns depth).length ∧
      w'.runes = w.runes + textRunes (visitedAll ns depth)
  | [], depth, w, w', within, walked => by
      simp only [walkAll, pure_ok_iff] at walked
      subst walked
      exact ⟨⟨by simp [visitedAll], within.count, within.runes⟩, rfl, rfl⟩
  | n :: ns, depth, w, w', within, walked => by
      simp only [walkAll, bind_ok_iff] at walked
      obtain ⟨middle, first, rest⟩ := walked
      obtain ⟨head, nodes, runes⟩ := walk_ok n within first
      have middleWithin : middle.Within :=
        ⟨by rw [nodes]; exact head.count, by rw [runes]; exact head.runes⟩
      obtain ⟨tail, restNodes, restRunes⟩ := walkAll_ok ns middleWithin rest
      have total := tail.count
      have totalRunes := tail.runes
      simp only [visitedAll, List.length_append, textRunes_append]
      refine ⟨⟨?_, ?_, ?_⟩, by omega, by omega⟩
      · rw [List.forall_mem_append]
        exact ⟨head.node, tail.node⟩
      · rw [List.length_append]
        omega
      · rw [textRunes_append]
        omega

end

mutual

/-- A walk that finds nothing to refuse succeeds. -/
theorem walk_total : ∀ (n : ArticleNode) {depth : ℕ} {w : BodyWalker}, w.Within →
    w.Admits (visited n depth) → ∃ w', walk n depth w = .ok w'
  | ⟨type, attrs, content, marks, text⟩, depth, w, within, admits => by
      obtain ⟨node, count, runes⟩ := admits
      simp only [visited, List.forall_mem_cons, List.length_cons, textRunes_cons]
        at node count runes
      obtain ⟨⟨passes, shallow⟩, children⟩ := node
      obtain ⟨entered, enters⟩ := enter_total w passes shallow (by omega) (by omega)
      obtain ⟨_, _, enteredWithin, nodes', runes'⟩ := enter_ok within enters
      have inside : entered.Admits (visitedAll content (depth + 1)) :=
        ⟨children, by omega, by omega⟩
      obtain ⟨inner, below⟩ := walkAll_total content enteredWithin inside
      exact ⟨_, by rw [walk, enters]; simp only [bind, Except.bind, below]; rfl⟩

/-- A walk that admits every node ends well. -/
theorem walkAll_total : ∀ (ns : List ArticleNode) {depth : ℕ} {w : BodyWalker}, w.Within →
    w.Admits (visitedAll ns depth) → ∃ w', walkAll ns depth w = .ok w'
  | [], depth, w, _, _ => ⟨w, rfl⟩
  | n :: ns, depth, w, within, admits => by
      obtain ⟨node, count, runes⟩ := admits
      simp only [visitedAll, List.forall_mem_append, List.length_append, textRunes_append]
        at node count runes
      have head : w.Admits (visited n depth) := ⟨node.1, by omega, by omega⟩
      obtain ⟨middle, first⟩ := walk_total n within head
      obtain ⟨_, nodes, runes'⟩ := walk_ok n within first
      have middleWithin : middle.Within := ⟨by omega, by omega⟩
      have tail : middle.Admits (visitedAll ns depth) := ⟨node.2, by omega, by omega⟩
      obtain ⟨last, rest⟩ := walkAll_total ns middleWithin tail
      exact ⟨last, by rw [walkAll, first]; exact rest⟩

end

/-- What the check accepts, in terms of the document alone. -/
structure Passes (doc : ArticleNode) : Prop where
  root : doc.type = "doc"
  node : ∀ p ∈ visited doc 0, NodePasses p.1
  depth : ∀ p ∈ visited doc 0, p.2 ≤ maxArticleDepth
  count : (visited doc 0).length ≤ maxArticleNodes
  runes : textRunes (visited doc 0) ≤ maxArticleText

/-- The check succeeds exactly on the documents that pass. -/
theorem checkDocument_ok_iff (doc : ArticleNode) :
    (∃ facts, checkDocument doc = .ok facts) ↔ Passes doc := by
  have split : ∀ facts, checkDocument doc = .ok facts ↔ doc.type = "doc" ∧
      ∃ w, walk doc 0 .start = .ok w ∧
        (⟨excerptOf w.paragraphs, max ((w.words + wordsPerMinute - 1) / wordsPerMinute) 1,
          w.words⟩ : ArticleBodyFacts) = facts := by
    intro facts
    simp only [checkDocument, ne_eq, guard_ok_iff, bind_ok_iff, pure_ok_iff, not_not]
  simp only [split]
  constructor
  · rintro ⟨facts, root, w, walked, -⟩
    obtain ⟨admits, -, -⟩ := walk_ok doc start_within walked
    exact ⟨root, fun p member => (admits.node p member).1, fun p member => (admits.node p member).2,
      by simpa [BodyWalker.start] using admits.count,
      by simpa [BodyWalker.start] using admits.runes⟩
  · rintro ⟨root, node, depth, count, runes⟩
    have admits : BodyWalker.start.Admits (visited doc 0) :=
      ⟨fun p member => ⟨node p member, depth p member⟩,
        by simpa [BodyWalker.start] using count, by simpa [BodyWalker.start] using runes⟩
    obtain ⟨w, walked⟩ := walk_total doc start_within admits
    exact ⟨_, root, w, walked, rfl⟩

theorem checkArticleBody_eq {raw : String} {doc : ArticleNode}
    (decoded : unmarshal raw = some doc) : checkArticleBody raw = checkDocument doc := by
  rw [checkArticleBody, decoded]

/-- An accepted body is sound exactly when the marks on the nodes that are not text,
which the walk does not look at, are sound too. -/
theorem checkArticleBody_sound_iff {raw : String} {doc : ArticleNode} {facts : ArticleBodyFacts}
    (decoded : unmarshal raw = some doc) (accepted : checkArticleBody raw = .ok facts) :
    Sound doc ↔ ∀ p ∈ visited doc 0, p.1.type ≠ "text" → ∀ m ∈ p.1.marks, SoundMark m := by
  rw [checkArticleBody_eq decoded] at accepted
  have passes : Passes doc := (checkDocument_ok_iff doc).mp ⟨facts, accepted⟩
  constructor
  · intro sound p member _
    exact (sound.node p member).marks
  · intro others
    refine ⟨fun p member => ?_, passes.depth, passes.count, passes.runes⟩
    exact (soundNode_iff_passes p.1).mpr ⟨passes.node p member, others p member⟩

end Walk

/-- A paragraph with a bold word in it. -/
def boldBody : String :=
  "\x7b\"type\":\"doc\",\"content\":[\x7b\"type\":\"paragraph\",\"content\":[" ++
    "\x7b\"type\":\"text\",\"text\":\"Goal\",\"marks\":[\x7b\"type\":\"bold\"\x7d]\x7d]\x7d]\x7d"

/-- A line break that is also a link to a script. -/
def linkedBreakBody : String :=
  "\x7b\"type\":\"doc\",\"content\":[\x7b\"type\":\"hardBreak\",\"marks\":[" ++
    "\x7b\"type\":\"link\",\"attrs\":\x7b\"href\":\"javascript:alert(1)\"\x7d\x7d]\x7d]\x7d"

/-- The body of a decoded text, the zero value where it does not decode. -/
def bodyOf (raw : String) : ArticleNode := (unmarshal raw).getD .zero

theorem unmarshal_bodyOf {raw : String} (decodes : (unmarshal raw).isSome = true) :
    unmarshal raw = some (bodyOf raw) := by
  obtain ⟨doc, decoded⟩ := Option.isSome_iff_exists.mp decodes
  rw [bodyOf, decoded, Option.getD_some]

section Ascii

attribute [local instance] Unicode.ascii

/-- A paragraph in bold is accepted and sound. -/
theorem checkArticleBody_sound_bold :
    checkArticleBody boldBody = .ok ⟨"Goal", 1, 1⟩ ∧ Sound (bodyOf boldBody) := by
  obtain ⟨decodes, accepted, plain⟩ : (unmarshal boldBody).isSome = true ∧
      checkArticleBody boldBody = .ok ⟨"Goal", 1, 1⟩ ∧
      ∀ p ∈ visited (bodyOf boldBody) 0, p.1.type ≠ "text" →
        ∀ m ∈ p.1.marks, SoundMark m := by decide +kernel
  exact ⟨accepted, (checkArticleBody_sound_iff (unmarshal_bodyOf decodes) accepted).mpr plain⟩

/-- The check lets a script's address through on a line break. -/
theorem checkArticleBody_unsound :
    ∃ raw doc facts, unmarshal raw = some doc ∧ checkArticleBody raw = .ok facts ∧
      ¬ Sound doc := by
  obtain ⟨decodes, accepted, breaks⟩ : (unmarshal linkedBreakBody).isSome = true ∧
      checkArticleBody linkedBreakBody = .ok ⟨"", 1, 0⟩ ∧
      ¬ ∀ p ∈ visited (bodyOf linkedBreakBody) 0, ∀ m ∈ p.1.marks, SoundMark m := by
    decide +kernel
  refine ⟨linkedBreakBody, bodyOf linkedBreakBody, ⟨"", 1, 0⟩, unmarshal_bodyOf decodes,
    accepted, ?_⟩
  intro sound
  exact breaks fun p member => (sound.node p member).marks

end Ascii

end ScoutPulse.Articles
