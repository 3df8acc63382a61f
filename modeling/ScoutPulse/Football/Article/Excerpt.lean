import ScoutPulse.Football.Article.Soundness
import ScoutPulse.Lib.Places
import ScoutPulse.Lib.Words

/-!
# The excerpt of an article

The walk keeps the first four paragraphs with text for the excerpt, each when it leaves the
paragraph. A paragraph inside of another one is therefore kept before the other and once
more as a part of it. Where the paragraphs the excerpt reads hold no others, it is the
opening of the article.
-/

namespace ScoutPulse.Articles

open Strings Outcome Places
open Unicode (isSpace isPunct)

/-! ## Paragraphs in a document -/

/-- The text of a paragraph as the walk keeps it. -/
def keptText (n : ArticleNode) : String := trimSpace (plainText n)

/-- A paragraph with text. -/
def opens (n : ArticleNode) : Bool := n.type = "paragraph" && keptText n ≠ ""

/-- A node `plainText` does not look into. -/
def leaf (n : ArticleNode) : Bool := n.type = "text" || n.type = "hardBreak"

section Nodes

variable (stop : ArticleNode → Bool)

mutual

/-- The outermost nodes of a kind, in reading order, each with its place. -/
def outermost (path : Place) : ArticleNode → List (Place × ArticleNode)
  | ⟨type, attrs, content, marks, text⟩ =>
      if stop ⟨type, attrs, content, marks, text⟩ then [(path, ⟨type, attrs, content, marks, text⟩)]
      else outermostAll path 0 content

/-- The same of the children of a node, from some child on. -/
def outermostAll (path : Place) (i : ℕ) : List ArticleNode → List (Place × ArticleNode)
  | [] => []
  | n :: ns => outermost (path ++ [i]) n ++ outermostAll path (i + 1) ns

end

end Nodes

mutual

/-- The paragraphs with text, in the order in which the walk leaves them. -/
def ended (path : Place) : ArticleNode → List (Place × ArticleNode)
  | ⟨type, attrs, content, marks, text⟩ =>
      endedAll path 0 content ++
        if opens ⟨type, attrs, content, marks, text⟩ then
          [(path, ⟨type, attrs, content, marks, text⟩)]
        else []

def endedAll (path : Place) (i : ℕ) : List ArticleNode → List (Place × ArticleNode)
  | [] => []
  | n :: ns => ended (path ++ [i]) n ++ endedAll path (i + 1) ns

end

/-- The paragraphs the walk keeps. -/
def collected (doc : ArticleNode) : List (Place × ArticleNode) := (ended [] doc).take 4

/-- The opening paragraphs of a document: the first four with text. -/
def openingParagraphs (doc : ArticleNode) : List (Place × ArticleNode) :=
  (outermost opens [] doc).take 4

/-- The paragraphs with text inside of a paragraph. -/
def inner (p : Place × ArticleNode) : List (Place × ArticleNode) := endedAll p.1 0 p.2.content

/-- The places of the text nodes a paragraph's text is made of. -/
def textNodes (p : Place × ArticleNode) : List Place :=
  ((outermost leaf p.1 p.2).filter fun q => q.2.type = "text").map Prod.fst

def texts (paragraphs : List (Place × ArticleNode)) : List String :=
  paragraphs.map fun p => keptText p.2

@[simp]
theorem texts_append (first second : List (Place × ArticleNode)) :
    texts (first ++ second) = texts first ++ texts second := List.map_append

@[simp]
theorem texts_take (paragraphs : List (Place × ArticleNode)) (n : ℕ) :
    texts (paragraphs.take n) = (texts paragraphs).take n := List.map_take

/-- What a leaf adds to the text. -/
def leafText (n : ArticleNode) : String := if n.type = "text" then n.text else " "

/-- How many of some paragraphs, and at most four, are in front of where the excerpt is full. -/
def untilFull (texts : List String) : ℕ :=
  (List.range 4).findIdx fun i =>
    articleExcerptAt < runeCount (collapse (join (texts.take i) " "))

/-- How many of the opening paragraphs the excerpt of a document reads. -/
def reach (doc : ArticleNode) : ℕ := untilFull (texts (openingParagraphs doc))

/-! ## The nodes of a kind -/

section Nodes

variable {stop : ArticleNode → Bool}

mutual

/-- What is outermost is inside. -/
theorem inside_of_mem_outermost : ∀ (n : ArticleNode) {path : Place} {p : Place × ArticleNode},
    p ∈ outermost stop path n → path <+: p.1
  | ⟨type, attrs, content, marks, text⟩, path, p, member => by
      rw [outermost] at member
      split_ifs at member with here
      · rw [List.mem_singleton.mp member]
      · exact (underFrom_of_mem_outermostAll content member).inside

/-- What is outermost of several nodes is under them. -/
theorem underFrom_of_mem_outermostAll : ∀ (ns : List ArticleNode) {path : Place} {i : ℕ}
    {p : Place × ArticleNode}, p ∈ outermostAll stop path i ns → UnderFrom path i p.1
  | [], path, i, p, member => by
      rw [outermostAll] at member
      cases member
  | n :: ns, path, i, p, member => by
      rw [outermostAll, List.mem_append] at member
      rcases member with first | later
      · exact underFrom_self (inside_of_mem_outermost n first)
      · exact (underFrom_of_mem_outermostAll ns later).later

end

mutual

/-- The outermost nodes of a kind come in reading order, and none is inside of another. -/
theorem outermost_ordered : ∀ (n : ArticleNode) (path : Place),
    (outermost stop path n).Pairwise fun p q => Precedes p.1 q.1
  | ⟨type, attrs, content, marks, text⟩, path => by
      rw [outermost]
      split_ifs
      · exact List.pairwise_singleton _ _
      · exact outermostAll_ordered content path 0

/-- What is outermost comes in the order of the document. -/
theorem outermostAll_ordered : ∀ (ns : List ArticleNode) (path : Place) (i : ℕ),
    (outermostAll stop path i ns).Pairwise fun p q => Precedes p.1 q.1
  | [], path, i => by
      rw [outermostAll]
      exact List.Pairwise.nil
  | n :: ns, path, i => by
      rw [outermostAll, List.pairwise_append]
      refine ⟨outermost_ordered n _, outermostAll_ordered ns path (i + 1), ?_⟩
      intro p first q later
      exact precedes_of_underFrom (inside_of_mem_outermost n first)
        (underFrom_of_mem_outermostAll ns later)

end

end Nodes

mutual

/-- A paragraph that has ended is inside. -/
theorem inside_of_mem_ended : ∀ (n : ArticleNode) {path : Place} {p : Place × ArticleNode},
    p ∈ ended path n → path <+: p.1
  | ⟨type, attrs, content, marks, text⟩, path, p, member => by
      rw [ended, List.mem_append] at member
      rcases member with below | here
      · exact (underFrom_of_mem_endedAll content below).inside
      · split_ifs at here
        · rw [List.mem_singleton.mp here]
        · cases here

/-- A paragraph that has ended in several nodes is under them. -/
theorem underFrom_of_mem_endedAll : ∀ (ns : List ArticleNode) {path : Place} {i : ℕ}
    {p : Place × ArticleNode}, p ∈ endedAll path i ns → UnderFrom path i p.1
  | [], path, i, p, member => by
      rw [endedAll] at member
      cases member
  | n :: ns, path, i, p, member => by
      rw [endedAll, List.mem_append] at member
      rcases member with first | later
      · exact underFrom_self (inside_of_mem_ended n first)
      · exact (underFrom_of_mem_endedAll ns later).later

end

theorem ne_of_mem_inner {p q : Place × ArticleNode} (member : q ∈ inner p) : q ≠ p :=
  fun same => (underFrom_of_mem_endedAll p.2.content member).ne (congrArg Prod.fst same)

mutual

/-- A paragraph is left after the paragraphs inside of it: those with text are left with what
is inside of them, one outermost paragraph after the other. -/
theorem ended_eq : ∀ (n : ArticleNode) (path : Place),
    ended path n = (outermost opens path n).flatMap fun p => inner p ++ [p]
  | ⟨type, attrs, content, marks, text⟩, path => by
      rw [ended, outermost]
      split_ifs
      · rw [List.flatMap_singleton, inner]
      · rw [List.append_nil]
        exact endedAll_eq content path 0

/-- The paragraphs that have ended are the outermost ones, each after those inside it. -/
theorem endedAll_eq : ∀ (ns : List ArticleNode) (path : Place) (i : ℕ),
    endedAll path i ns = (outermostAll opens path i ns).flatMap fun p => inner p ++ [p]
  | [], path, i => by
      rw [endedAll, outermostAll]
      rfl
  | n :: ns, path, i => by
      rw [endedAll, outermostAll, List.flatMap_append, ended_eq n, endedAll_eq ns]

end

mutual

/-- The text of a node is that of its leaves, in reading order. -/
theorem toList_plainText : ∀ (n : ArticleNode) (path : Place),
    (plainText n).toList = (outermost leaf path n).flatMap fun p => (leafText p.2).toList
  | ⟨type, attrs, content, marks, text⟩, path => by
      by_cases isText : type = "text"
      · simp [plainText, outermost, leaf, leafText, isText]
      · by_cases isBreak : type = "hardBreak"
        · simp [plainText, outermost, leaf, leafText, isBreak]
        · rw [plainText, if_neg isText, if_neg isBreak, outermost, if_neg (by simp [leaf, *])]
          exact toList_plainTextAll content path 0

/-- The plain text of nodes is that of their leaves. -/
theorem toList_plainTextAll : ∀ (ns : List ArticleNode) (path : Place) (i : ℕ),
    (plainTextAll ns).toList =
      (outermostAll leaf path i ns).flatMap fun p => (leafText p.2).toList
  | [], path, i => by
      rw [plainTextAll, outermostAll]
      rfl
  | n :: ns, path, i => by
      rw [plainTextAll, outermostAll, List.flatMap_append, String.toList_append,
        toList_plainText n, toList_plainTextAll ns]

end

/-- Things that are each preceded by other things come at the beginning exactly when nothing
precedes them. -/
theorem take_flatMap_iff {α : Type*} {before : α → List α} {items : List α}
    (other : ∀ a, ∀ b ∈ before a, b ≠ a) (n : ℕ) :
    (items.flatMap fun a => before a ++ [a]).take n = items.take n ↔
      ∀ a ∈ items.take n, before a = [] := by
  induction items generalizing n with
  | nil => simp
  | cons a items ih =>
      cases n with
      | zero => simp
      | succ n =>
          rw [List.flatMap_cons, List.take_succ_cons, List.forall_mem_cons, ← ih n]
          cases first : before a with
          | nil => simp
          | cons b rest =>
              have different := other a b (first ▸ List.mem_cons_self)
              simp [different]

section Tables

variable [Unicode]

/-- A text, or a beginning of it with an ellipsis that ends at white space or punctuation
where the first 280 runes of the text have a space. -/
def IsOpening (text excerpt : String) : Prop :=
  excerpt = text ∨ ∃ front back, text.toList = front ++ back ∧ excerpt.toList = front ++ ['…'] ∧
    ((∃ c ∈ text.toList.take articleExcerptAt, isSpace c = true) →
      ∃ c ∈ back.head?, isSpace c = true ∨ isPunct c = true)

/-- The excerpt of a document is a faithful opening: it is short, it is the text of the
opening paragraphs or a beginning of it, and the paragraphs it reads of those the walk has
kept are the opening ones, so that their text nodes come in reading order and none twice. -/
structure FaithfulOpening (doc : ArticleNode) (excerpt : String) : Prop where
  short : runeCount excerpt ≤ articleExcerptAt + 1
  opening : IsOpening (collapse (join (texts (openingParagraphs doc)) " ")) excerpt
  reads : (collected doc).take (reach doc) = (openingParagraphs doc).take (reach doc)
  once : (((collected doc).take (reach doc)).flatMap textNodes).Pairwise Precedes

/-! ## One text -/

omit [Unicode] in
/-- The last white space of some runes: what follows it, and what it ends. -/
theorem span_space (runes : List Char) : ∃ after rest,
    runes.reverse.span (fun c => !isSpace c) = (after, rest) ∧
      runes = rest.reverse ++ after.reverse ∧ (∀ c ∈ after, isSpace c = false) ∧
      ∀ c ∈ rest.head?, isSpace c = true := by
  refine ⟨_, _, List.span_eq_takeWhile_dropWhile _ _, ?_, fun c member => ?_, fun c first => ?_⟩
  · rw [← List.reverse_append, List.takeWhile_append_dropWhile, List.reverse_reverse]
  · simpa using List.mem_takeWhile_imp member
  · have stopped := List.head?_dropWhile_not (fun c => !isSpace c) runes.reverse
    rw [first] at stopped
    simpa using stopped

/-- What `excerptOf` makes of paragraphs: their text, or a beginning of its first 280 runes. -/
theorem excerptOf_cases (paragraphs : List String) :
    (runeCount (collapse (join paragraphs " ")) ≤ articleExcerptAt ∧
        excerptOf paragraphs = collapse (join paragraphs " ")) ∨
      articleExcerptAt < runeCount (collapse (join paragraphs " ")) ∧ ∃ front back,
        (collapse (join paragraphs " ")).toList.take articleExcerptAt = front ++ back ∧
        (excerptOf paragraphs).toList = front ++ ['…'] ∧
        ((∃ c ∈ front ++ back, isSpace c = true) →
          ∃ c ∈ back.head?, isSpace c = true ∨ isPunct c = true) := by
  have head := (trimmed_collapse (join paragraphs " ")).head
  generalize whole : collapse (join paragraphs " ") = text at head ⊢
  rw [collapse] at whole
  simp only [excerptOf, whole]
  by_cases fits : runeCount text ≤ articleExcerptAt
  · rw [if_pos fits]
    exact .inl ⟨fits, rfl⟩
  refine .inr ⟨Nat.lt_of_not_le fits, ?_⟩
  have first : ∀ c ∈ (text.toList.take articleExcerptAt).head?, isSpace c = false := by
    rw [List.head?_take, if_neg (by decide)]
    exact head
  generalize text.toList.take articleExcerptAt = runes at first ⊢
  obtain ⟨after, rest, split, shape, solid, spaces⟩ := span_space runes
  rw [if_neg fits, split]
  cases rest with
  | nil =>
      -- One word fills the excerpt.
      rw [List.reverse_nil, List.nil_append] at shape
      dsimp only
      refine ⟨runes, [], (List.append_nil runes).symm, ?_, ?_⟩
      · rw [String.toList_append, String.toList_ofList]
        rfl
      · rintro ⟨c, member, space⟩
        rw [List.append_nil, shape, List.mem_reverse] at member
        rw [solid c member] at space
        cases space
  | cons s before =>
      have space : isSpace s = true := spaces s rfl
      rw [List.reverse_cons, List.append_assoc, List.singleton_append] at shape
      have some_ : before ≠ [] := by
        rintro rfl
        rw [shape] at first
        rw [first s rfl] at space
        cases space
      dsimp only
      rw [if_neg some_]
      obtain ⟨trimmed, cut, passes⟩ :=
        exists_trimmed (fun c => isSpace c || isPunct c) before.reverse
      refine ⟨trimRightFunc (fun c => isSpace c || isPunct c) before.reverse,
        trimmed ++ s :: after.reverse, ?_, ?_, fun _ => ?_⟩
      · rw [shape, ← List.append_assoc, ← cut]
      · rw [String.toList_append, String.toList_ofList]
        rfl
      · cases trimmed with
        | nil => exact ⟨s, rfl, .inl space⟩
        | cons c trimmed =>
            have stops := passes c List.mem_cons_self
            rw [Bool.or_eq_true] at stops
            exact ⟨c, rfl, stops⟩

/-- An excerpt is no longer than its bound and the sign of omission. -/
theorem runeCount_excerptOf_le (paragraphs : List String) :
    runeCount (excerptOf paragraphs) ≤ articleExcerptAt + 1 := by
  rcases excerptOf_cases paragraphs with ⟨fits, same⟩ | ⟨-, front, back, cut, excerpt, -⟩
  · rw [same]
    exact Nat.le_succ_of_le fits
  · have length := congrArg List.length cut
    rw [List.length_take, List.length_append] at length
    rw [runeCount, ← String.length_toList, excerpt, List.length_append, List.length_singleton]
    omega

/-- An excerpt opens the text, or is it. -/
theorem isOpening_excerptOf (paragraphs : List String) :
    IsOpening (collapse (join paragraphs " ")) (excerptOf paragraphs) := by
  rcases excerptOf_cases paragraphs with ⟨-, same⟩ | ⟨-, front, back, cut, excerpt, ends⟩
  · exact .inl same
  · refine .inr ⟨front, back ++ (collapse (join paragraphs " ")).toList.drop articleExcerptAt,
      ?_, excerpt, fun spaced => ?_⟩
    · rw [← List.append_assoc, ← cut, List.take_append_drop]
    · rw [cut] at spaced
      obtain ⟨c, first, stops⟩ := ends spaced
      refine ⟨c, ?_, stops⟩
      rw [List.head?_append, Option.mem_def.mp first]
      rfl

/-- Paragraphs that fill the excerpt decide it, whatever comes after them. -/
theorem excerptOf_append {paragraphs : List String}
    (full : articleExcerptAt < runeCount (collapse (join paragraphs " "))) (more : List String) :
    excerptOf (paragraphs ++ more) = excerptOf paragraphs := by
  obtain ⟨rest, whole⟩ := collapse_join_prefix paragraphs more
  have length := congrArg List.length whole
  have full_ : articleExcerptAt < (collapse (join paragraphs " ")).toList.length := full
  rw [List.length_append] at length
  have cut : (collapse (join (paragraphs ++ more) " ")).toList.take articleExcerptAt =
      (collapse (join paragraphs " ")).toList.take articleExcerptAt := by
    rw [← whole, List.take_append_of_le_length full_.le]
  have over_ : articleExcerptAt < runeCount (collapse (join (paragraphs ++ more) " ")) := by
    rw [runeCount, ← String.length_toList]
    omega
  rw [collapse] at full over_
  rw [collapse, collapse] at cut
  simp only [excerptOf]
  rw [if_neg (Nat.not_le_of_lt full), if_neg (Nat.not_le_of_lt over_), cut]

/-! ## What the walk keeps -/

omit [Unicode] in
theorem take_take_append {α : Type*} (n : ℕ) (first second : List α) :
    (first.take n ++ second).take n = (first ++ second).take n := by
  rw [List.take_append, List.take_append, List.take_take, Nat.min_self, List.length_take]
  congr 2
  omega

theorem enter_paragraphs {w w' : BodyWalker} {n : ArticleNode} {depth : ℕ}
    (entered : w.enter n depth = .ok w') : w'.paragraphs = w.paragraphs := by
  rw [enter_eq entered]

omit [Unicode] in
/-- Leaving a node adds its text when it is a paragraph and there are fewer than four. -/
theorem leave_paragraphs {w : BodyWalker} (few : w.paragraphs.length ≤ 4) (n : ArticleNode) :
    (w.leave n).paragraphs =
      (w.paragraphs ++ if opens n then [keptText n] else []).take 4 := by
  have same : opens n = true ↔ n.type = "paragraph" ∧ keptText n ≠ "" := by
    simp [opens]
  have shape : w.leave n =
      if n.type = "paragraph" ∧ w.paragraphs.length < 4 then
        if keptText n ≠ "" then { w with paragraphs := w.paragraphs ++ [keptText n] } else w
      else w := rfl
  rw [shape]
  by_cases here : opens n = true
  · obtain ⟨paragraph, some_⟩ := same.mp here
    rw [if_pos here]
    by_cases room : w.paragraphs.length < 4
    · rw [if_pos ⟨paragraph, room⟩, if_pos some_, List.take_of_length_le]
      rw [List.length_append, List.length_singleton]
      exact room
    · rw [if_neg fun both => room both.2, List.take_left']
      omega
  · rw [if_neg here, List.append_nil, List.take_of_length_le few]
    split_ifs with paragraph some_
    · exact absurd (same.mpr ⟨paragraph.1, some_⟩) here
    · rfl
    · rfl

mutual

/-- The walk keeps the first four paragraphs with text that it leaves. -/
theorem walk_paragraphs : ∀ (n : ArticleNode) (path : Place) {depth : ℕ} {w w' : BodyWalker},
    w.paragraphs.length ≤ 4 → walk n depth w = .ok w' →
    w'.paragraphs = (w.paragraphs ++ texts (ended path n)).take 4
  | ⟨type, attrs, content, marks, text⟩, path, depth, w, w', few, walked => by
      simp only [walk, bind_ok_iff, pure_ok_iff] at walked
      obtain ⟨entered, enters, inner, below, rfl⟩ := walked
      have own := enter_paragraphs enters
      have children := walkAll_paragraphs content path 0 (own ▸ few) below
      have still : inner.paragraphs.length ≤ 4 := children ▸ List.length_take_le _ _
      rw [leave_paragraphs still, children, own, take_take_append, ended, texts_append,
        List.append_assoc]
      split_ifs <;> rfl

/-- The walk keeps the first four paragraphs that have ended. -/
theorem walkAll_paragraphs : ∀ (ns : List ArticleNode) (path : Place) (i : ℕ) {depth : ℕ}
    {w w' : BodyWalker}, w.paragraphs.length ≤ 4 → walkAll ns depth w = .ok w' →
    w'.paragraphs = (w.paragraphs ++ texts (endedAll path i ns)).take 4
  | [], path, i, depth, w, w', few, walked => by
      simp only [walkAll, pure_ok_iff] at walked
      rw [← walked, endedAll, texts, List.map_nil, List.append_nil, List.take_of_length_le few]
  | n :: ns, path, i, depth, w, w', few, walked => by
      simp only [walkAll, bind_ok_iff] at walked
      obtain ⟨middle, first, rest⟩ := walked
      have head := walk_paragraphs n (path ++ [i]) few first
      have still : middle.paragraphs.length ≤ 4 := head ▸ List.length_take_le _ _
      have tail := walkAll_paragraphs ns path (i + 1) still rest
      rw [tail, head, take_take_append, endedAll, texts_append, List.append_assoc]

end

/-- The excerpt of an accepted document is made of the paragraphs the walk has kept. -/
theorem excerpt_eq {doc : ArticleNode} {facts : ArticleBodyFacts}
    (checked : checkDocument doc = .ok facts) :
    facts.excerpt = excerptOf (texts (collected doc)) := by
  simp only [checkDocument, guard_ok_iff, bind_ok_iff, pure_ok_iff] at checked
  obtain ⟨-, w, walked, rfl⟩ := checked
  have few : BodyWalker.start.paragraphs.length ≤ 4 := Nat.zero_le 4
  have kept := walk_paragraphs doc [] few walked
  rw [BodyWalker.start, List.nil_append] at kept
  rw [kept, collected, texts_take]

/-! ## The opening of an article -/

omit [Unicode] in
theorem untilFull_le (texts : List String) : untilFull texts ≤ 4 := List.findIdx_le_length

omit [Unicode] in
/-- What is in front of where the excerpt is full fills it. -/
theorem full_of_untilFull_lt {texts : List String} (less : untilFull texts < 4) :
    articleExcerptAt < runeCount (collapse (join (texts.take (untilFull texts)) " ")) := by
  have inRange : untilFull texts < (List.range 4).length := less
  rw [untilFull] at inRange
  have found := List.findIdx_getElem (w := inRange)
  rw [List.getElem_range] at found
  exact of_decide_eq_true found

/-- Paragraphs that agree in front of where the excerpt is full have the same excerpt. -/
theorem excerptOf_congr {kept texts : List String} (few : kept.length ≤ 4)
    (few' : texts.length ≤ 4)
    (agree : kept.take (untilFull texts) = texts.take (untilFull texts)) :
    excerptOf kept = excerptOf texts := by
  rcases (untilFull_le texts).lt_or_eq with less | all
  · have full := full_of_untilFull_lt less
    calc excerptOf kept
        = excerptOf (texts.take (untilFull texts) ++ kept.drop (untilFull texts)) := by
          rw [← agree, List.take_append_drop]
      _ = excerptOf (texts.take (untilFull texts)) := excerptOf_append full _
      _ = excerptOf (texts.take (untilFull texts) ++ texts.drop (untilFull texts)) :=
          (excerptOf_append full _).symm
      _ = excerptOf texts := by rw [List.take_append_drop]
  · rw [all, List.take_of_length_le few, List.take_of_length_le few'] at agree
    rw [agree]

omit [Unicode] in
/-- The excerpt reads the opening paragraphs exactly when none of them holds others. -/
theorem reads_iff (doc : ArticleNode) :
    (collected doc).take (reach doc) = (openingParagraphs doc).take (reach doc) ↔
      ∀ p ∈ (openingParagraphs doc).take (reach doc), inner p = [] := by
  have within : reach doc ≤ 4 := untilFull_le _
  generalize reach doc = n at within ⊢
  rw [collected, openingParagraphs, List.take_take, List.take_take, min_eq_left within, ended_eq]
  exact take_flatMap_iff (fun p q member => ne_of_mem_inner member) n

omit [Unicode] in
/-- The text nodes of the opening paragraphs come in reading order, and none comes twice. -/
theorem textNodes_ordered (doc : ArticleNode) (n : ℕ) :
    (((openingParagraphs doc).take n).flatMap textNodes).Pairwise Precedes := by
  rw [List.pairwise_flatMap]
  constructor
  · intro p _
    rw [textNodes, List.pairwise_map]
    exact (outermost_ordered p.2 p.1).filter _
  · have ordered : (outermost opens [] doc).Pairwise fun p q => Precedes p.1 q.1 :=
      outermost_ordered doc []
    refine (ordered.sublist ((List.take_sublist n _).trans (List.take_sublist 4 _))).imp ?_
    intro p q precedes x left y right
    obtain ⟨first, inFirst, rfl⟩ := List.mem_map.mp left
    obtain ⟨second, inSecond, rfl⟩ := List.mem_map.mp right
    exact precedes.inside (inside_of_mem_outermost p.2 (List.mem_of_mem_filter inFirst))
      (inside_of_mem_outermost q.2 (List.mem_of_mem_filter inSecond))

/-- The excerpt of an accepted body is what `excerptOf` makes of the paragraphs the walk has
kept, and a faithful opening exactly when none of the opening paragraphs it reads holds
another paragraph with text. -/
theorem faithfulOpening_iff {raw : String} {doc : ArticleNode} {facts : ArticleBodyFacts}
    (decoded : unmarshal raw = some doc) (accepted : checkArticleBody raw = .ok facts) :
    facts.excerpt = excerptOf (texts (collected doc)) ∧
      (FaithfulOpening doc facts.excerpt ↔
        ∀ p ∈ (openingParagraphs doc).take (reach doc), inner p = []) := by
  rw [checkArticleBody_eq decoded] at accepted
  have made := excerpt_eq accepted
  refine ⟨made, ?_⟩
  rw [← reads_iff, made]
  refine ⟨FaithfulOpening.reads, fun reads => ?_⟩
  have same : excerptOf (texts (collected doc)) = excerptOf (texts (openingParagraphs doc)) := by
    refine excerptOf_congr ?_ ?_ ?_
    · rw [collected, texts_take]
      exact List.length_take_le _ _
    · rw [openingParagraphs, texts_take]
      exact List.length_take_le _ _
    · have agree := congrArg texts reads
      rw [texts_take, texts_take] at agree
      exact agree
  constructor
  case short => exact runeCount_excerptOf_le _
  case opening =>
    rw [same]
    exact isOpening_excerptOf _
  case reads => exact reads
  case once =>
    rw [reads]
    exact textNodes_ordered doc (reach doc)

end Tables

/-! ## Two bodies -/

/-- A paragraph inside of a paragraph. -/
def nestedBody : String :=
  "\x7b\"type\":\"doc\",\"content\":[\x7b\"type\":\"paragraph\",\"content\":[" ++
    "\x7b\"type\":\"paragraph\",\"content\":[\x7b\"type\":\"text\",\"text\":\"a\"\x7d]\x7d]\x7d]\x7d"

/-- The text of a paragraph inside another is in the excerpt twice. -/
theorem nestedBody_twice : let _ := Unicode.ascii
    checkArticleBody nestedBody = .ok ⟨"a a", 1, 1⟩ ∧
      collapse (join (texts (openingParagraphs (bodyOf nestedBody))) " ") = "a" ∧
      ¬ FaithfulOpening (bodyOf nestedBody) "a a" := by
  let _ := Unicode.ascii
  obtain ⟨accepted, text⟩ : checkArticleBody nestedBody = .ok ⟨"a a", 1, 1⟩ ∧
      collapse (join (texts (openingParagraphs (bodyOf nestedBody))) " ") = "a" := by
    decide +kernel
  refine ⟨accepted, text, fun faithful => ?_⟩
  rcases text ▸ faithful.opening with same | ⟨front, back, -, cut, -⟩
  · exact absurd same (by decide)
  · have last := congrArg List.getLast? cut
    rw [List.getLast?_concat] at last
    exact absurd last (by decide)

/-- The excerpt of a paragraph in bold opens it. -/
theorem faithfulOpening_boldBody : let _ := Unicode.ascii
    ∃ facts : ArticleBodyFacts, checkArticleBody boldBody = .ok facts ∧
      facts.excerpt = excerptOf (texts (collected (bodyOf boldBody))) ∧
      (FaithfulOpening (bodyOf boldBody) facts.excerpt ↔
        ∀ p ∈ (openingParagraphs (bodyOf boldBody)).take (reach (bodyOf boldBody)),
          inner p = []) := by
  let _ := Unicode.ascii
  obtain ⟨decodes, accepted⟩ : (unmarshal boldBody).isSome = true ∧
      checkArticleBody boldBody = .ok ⟨"Goal", 1, 1⟩ := by decide +kernel
  exact ⟨_, accepted, faithfulOpening_iff (unmarshal_bodyOf decodes) accepted⟩

end ScoutPulse.Articles
