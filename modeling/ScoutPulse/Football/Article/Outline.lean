import ScoutPulse.Football.Article.Rendering
import ScoutPulse.Lib.JavaScript
import ScoutPulse.Lib.Numbering
import ScoutPulse.Lib.Properties

/-!
# The outline of an article

The reader makes an anchor of each heading of a document: a slug of the heading's text, and
where other headings in front of it have the same slug, the slug with a number.
-/

namespace ScoutPulse.Articles

open Strings Numbering

/-! ## Texts of a browser -/

/-- A JavaScript string: its UTF-16 units, of which a cut may leave half a pair. -/
abbrev Units := List ℕ

/-- The units of a rune. -/
def runeUnits (c : Char) : Units :=
  if c.toNat < 0x10000 then [c.toNat]
  else [0xD800 + (c.toNat - 0x10000) / 0x400, 0xDC00 + (c.toNat - 0x10000) % 0x400]

def unitsOf (cs : List Char) : Units := cs.flatMap runeUnits

/-- What a browser knows of the letters of all languages. -/
class BrowserText where
  toLowerCase : String → String
  /-- `normalize('NFKD')`. -/
  nfkd : String → String
  /-- `\p{L}`. -/
  isLetter : Char → Bool
  /-- `\p{N}`. -/
  isNumber : Char → Bool

/-- `s.trim()`. -/
def jsTrim (s : String) : String :=
  String.ofList (trimRightFunc jsSpace (s.toList.dropWhile jsSpace))

/-! ## Headings -/

namespace ArticleBody

section Reader

variable [BrowserText]

/-- `replace(/[^\p{L}\p{N}]+/gu, '-')`, after a rune that was in such a run or was not. -/
def dashRuns (run : Bool) : List Char → List Char
  | [] => []
  | c :: cs =>
      if BrowserText.isLetter c || BrowserText.isNumber c then c :: dashRuns false cs
      else if run then dashRuns true cs
      else '-' :: dashRuns true cs

/-- The slug of a heading's text. -/
def headingBase (text : String) : Units :=
  let plain := (BrowserText.nfkd (BrowserText.toLowerCase text)).toList.filter fun c =>
    !(0x300 ≤ c.toNat && c.toNat ≤ 0x36F)
  let words := trimRightFunc (· = '-') ((dashRuns false plain).dropWhile (· = '-'))
  let cut := (unitsOf words).take 60
  if cut = [] then unitsOf "section".toList else cut

/-- A slug with the number of a repeat. -/
def numberedBase (base : Units) (n : ℕ) : Units := base ++ unitsOf ('-' :: Nat.toDigits 10 n)

/-- `OutlineEntry`. -/
structure OutlineEntry where
  id : Units
  text : String
  level : Js.Number
  deriving DecidableEq

/-- What `outline` makes of a document. A node of the map is known by its place in the
document. -/
structure Outline where
  entries : List OutlineEntry
  ids : Properties ℕ Units

/-- `outline` under way: how often each slug was used. -/
structure Outlining extends Outline where
  used : Properties Units ℕ

variable [Js.Implementation]

/-- `Number(node.attrs?.['level'] ?? 2)`. -/
def headingLevel (node : ArticleNode) : Except Js.Thrown Js.Number :=
  match attr node.attrs "level" with
  | .null => .ok (.finite 2)
  | level => Js.toNumber (some level)

/-- `outline`, at one node of the document. -/
def outlineNode (s : Outlining) (place : ℕ) (node : ArticleNode) :
    Except Js.Thrown Outlining := do
  if node.type ≠ "heading" then return s
  let text := jsTrim (plainText node)
  if text = "" then return s
  let base := headingBase text
  let n := (s.used.get? base).getD 0 + 1
  let used := s.used.put base n
  let id := if n = 1 then base else numberedBase base n
  let ids := s.ids.put place id
  let level ← headingLevel node
  return ⟨⟨s.entries ++ [⟨id, text, level⟩], ids⟩, used⟩

def outlineFrom (s : Outlining) (place : ℕ) : List ArticleNode → Except Js.Thrown Outlining
  | [] => .ok s
  | node :: nodes => do
      let s ← outlineNode s place node
      outlineFrom s (place + 1) nodes

/-- `outline`. -/
def outline (doc : ArticleNode) : Except Js.Thrown Outline := do
  let s ← outlineFrom ⟨⟨[], ∅⟩, ∅⟩ 0 doc.content
  return s.toOutline

end Reader

/-! ## Slugs and numbers -/

/-- Characters of one unit are their code points. -/
theorem unitsOf_ascii {cs : List Char} (ascii : ∀ c ∈ cs, c.toNat < 0x10000) :
    unitsOf cs = cs.map Char.toNat := by
  induction cs with
  | nil => rfl
  | cons c cs ih =>
      rw [List.forall_mem_cons] at ascii
      rw [unitsOf, List.flatMap_cons, runeUnits, if_pos ascii.1, List.map_cons, ← ih ascii.2]
      rfl

/-- The two sides of the last occurrence of something. -/
theorem append_cons_inj {α : Type*} {x : α} {front back front' back' : List α}
    (absent : x ∉ back) (absent' : x ∉ back')
    (same : front ++ x :: back = front' ++ x :: back') : front = front' ∧ back = back' := by
  rcases List.append_eq_append_iff.mp same with ⟨mid, rfl, rest⟩ | ⟨mid, rfl, rest⟩
  · cases mid with
    | nil => exact ⟨(List.append_nil _).symm, (List.cons.inj rest).2⟩
    | cons y mid =>
        obtain ⟨-, rfl⟩ := List.cons.inj rest
        exact absurd (List.mem_append_right mid List.mem_cons_self) absent
  · cases mid with
    | nil => exact ⟨List.append_nil _, (List.cons.inj rest).2.symm⟩
    | cons y mid =>
        obtain ⟨-, rfl⟩ := List.cons.inj rest
        exact absurd (List.mem_append_right mid List.mem_cons_self) absent'

theorem digit_bounds {n : ℕ} {c : Char} (member : c ∈ Nat.toDigits 10 n) :
    48 ≤ c.toNat ∧ c.toNat ≤ 57 := by
  have digit := Nat.isDigit_of_mem_toDigits (by decide) (by decide) member
  simpa [Char.isDigit, UInt32.le_iff_toNat_le] using digit

/-- The units of a number after a hyphen are those of its digits. -/
theorem digits_units (n : ℕ) :
    unitsOf ('-' :: Nat.toDigits 10 n) = 45 :: (Nat.toDigits 10 n).map Char.toNat := by
  rw [unitsOf_ascii]
  · rfl
  · rw [List.forall_mem_cons]
    refine ⟨by decide, fun c member => ?_⟩
    have bounds := digit_bounds member
    omega

/-- The slug and the number can be read off a numbered slug: the number has no dash. -/
theorem numberedBase_injective : Function.Injective2 numberedBase := by
  intro base base' n n' same
  rw [numberedBase, numberedBase, digits_units, digits_units] at same
  have dashless : ∀ n, 45 ∉ (Nat.toDigits 10 n).map Char.toNat := by
    intro n member
    obtain ⟨c, digit, dash⟩ := List.mem_map.mp member
    have bounds := digit_bounds digit
    omega
  obtain ⟨bases, digits⟩ := append_cons_inj (dashless n) (dashless n') same
  refine ⟨bases, ?_⟩
  have read := congrArg (fun cs => Nat.ofDigitChars 10 cs 0)
    (List.map_injective_iff.mpr (fun _ _ => Char.toNat_inj.mp) digits)
  simpa using read

/-- Where the second parts of some pairs are distinct, a pair is found by its second part. -/
theorem find?_snd {α β : Type*} [DecidableEq β] {pairs : List (α × β)}
    (distinct : (pairs.map Prod.snd).Nodup) {pair : α × β} (member : pair ∈ pairs) :
    pairs.find? (fun p => p.2 = pair.2) = some pair := by
  induction pairs with
  | nil => cases member
  | cons first pairs ih =>
      rw [List.map_cons, List.nodup_cons] at distinct
      rw [List.find?_cons]
      rcases List.mem_cons.mp member with rfl | later
      · rw [decide_eq_true rfl]
      · have other : first.2 ≠ pair.2 := by
          intro same
          exact distinct.1 (same ▸ List.mem_map_of_mem later)
        rw [decide_eq_false other]
        exact ih distinct.2 later

/-- A node of several is visited. -/
theorem mem_visitedAll {node : ArticleNode} {nodes : List ArticleNode} {depth : ℕ}
    (member : node ∈ nodes) : (node, depth) ∈ visitedAll nodes depth := by
  induction nodes with
  | nil => cases member
  | cons first nodes ih =>
      rw [visitedAll, List.mem_append]
      rcases List.mem_cons.mp member with rfl | later
      · rw [visited_eq]
        exact .inl List.mem_cons_self
      · exact .inr (ih later)

/-! ## The headings of a document -/

section Headings

variable [BrowserText]

/-- The heading a node makes, if it has text: its place and its slug. -/
def headingAt (place : ℕ) (node : ArticleNode) : List (ℕ × Units) :=
  if node.type = "heading" ∧ jsTrim (plainText node) ≠ "" then
    [(place, headingBase (jsTrim (plainText node)))]
  else []

def headingsFrom (place : ℕ) : List ArticleNode → List (ℕ × Units)
  | [] => []
  | node :: nodes => headingAt place node ++ headingsFrom (place + 1) nodes

/-- The slugs of the headings of a document, in order. -/
def slugs (doc : ArticleNode) : List Units := (headingsFrom 0 doc.content).map Prod.snd

variable [Js.Implementation] {s s' : Outlining} {place : ℕ} {node : ArticleNode}
  {nodes : List ArticleNode} {headings : List (ℕ × Units)} {doc : ArticleNode} {o : Outline}

/-- What `outline` has done once it has read some headings. -/
structure Outlining.Sound (s : Outlining) (headings : List (ℕ × Units)) (place : ℕ) : Prop where
  used : ∀ base, (s.used.get? base).getD 0 = (headings.map Prod.snd).count base
  ids : s.entries.map OutlineEntry.id =
    (counted [] (headings.map Prod.snd)).map (numbered numberedBase)
  anchors : s.ids.entries.map Prod.snd = s.entries.map OutlineEntry.id
  places : s.ids.entries.map Prod.fst = headings.map Prod.fst
  before : ∀ heading ∈ headings, heading.1 < place

/-- A node adds its heading to the outline, if it is one, under a slug that no heading has had.
-/
theorem outlineNode_sound (sound : s.Sound headings place)
    (ok : outlineNode s place node = .ok s') :
    s'.Sound (headings ++ headingAt place node) (place + 1) := by
  have passed : s = s' → headingAt place node = [] →
      s'.Sound (headings ++ headingAt place node) (place + 1) := by
    rintro rfl none_
    rw [none_, List.append_nil]
    exact { sound with before := fun heading member => Nat.lt_succ_of_lt (sound.before _ member) }
  rw [outlineNode] at ok
  by_cases other : node.type ≠ "heading"
  · rw [if_pos other] at ok
    exact passed (Except.ok.inj ok) (if_neg fun here => other here.1)
  rw [if_neg other] at ok
  by_cases blank : jsTrim (plainText node) = ""
  · rw [if_pos blank] at ok
    exact passed (Except.ok.inj ok) (if_neg fun here => here.2 blank)
  rw [if_neg blank] at ok
  obtain ⟨level, -, same⟩ := Outcome.bind_ok_iff.mp ok
  obtain rfl := Except.ok.inj same
  have here : headingAt place node = [(place, headingBase (jsTrim (plainText node)))] :=
    if_pos ⟨not_not.mp other, blank⟩
  rw [here]
  generalize headingBase (jsTrim (plainText node)) = base
  have count := sound.used base
  have absent : place ∉ s.ids.keys := by
    rw [Properties.keys, sound.places]
    intro member
    obtain ⟨heading, read, same⟩ := List.mem_map.mp member
    have earlier := sound.before heading read
    omega
  constructor
  · intro k
    rw [Properties.get?_put, List.map_append, List.count_append, ← sound.used k, List.map_singleton]
    split_ifs with again
    · rw [again, List.count_singleton_self]
      rfl
    · rw [List.count_singleton, beq_false_of_ne (Ne.symm again)]
      rfl
  · rw [List.map_append, List.map_append, sound.ids, List.map_singleton, List.map_singleton,
      counted_concat, List.map_append, List.map_singleton, List.count_nil, Nat.zero_add, ← count]
    rfl
  · rw [Properties.entries_put absent, List.map_append, List.map_append, sound.anchors]
    rfl
  · rw [Properties.entries_put absent, List.map_append, List.map_append, sound.places]
    rfl
  · intro heading member
    rcases List.mem_append.mp member with earlier | now
    · exact Nat.lt_succ_of_lt (sound.before heading earlier)
    · rw [List.mem_singleton.mp now]
      exact Nat.lt_succ_self place

/-- Several nodes add their headings. -/
theorem outlineFrom_sound (sound : s.Sound headings place)
    (ok : outlineFrom s place nodes = .ok s') :
    s'.Sound (headings ++ headingsFrom place nodes) (place + nodes.length) := by
  induction nodes generalizing s headings place with
  | nil =>
      obtain rfl : s = s' := Except.ok.inj ok
      rw [headingsFrom, List.append_nil]
      exact sound
  | cons node nodes ih =>
      obtain ⟨next, step, rest⟩ := Outcome.bind_ok_iff.mp ok
      have whole := ih (outlineNode_sound sound step) rest
      rw [headingsFrom, ← List.append_assoc, List.length_cons, ← Nat.add_assoc,
        Nat.add_right_comm]
      exact whole

/-- An outline that is made has the headings of the document. -/
theorem outline_sound (made : outline doc = .ok o) :
    ∃ s : Outlining, s.toOutline = o ∧
      s.Sound (headingsFrom 0 doc.content) (0 + doc.content.length) := by
  obtain ⟨s, run, same⟩ := Outcome.bind_ok_iff.mp made
  have start : Outlining.Sound ⟨⟨[], ∅⟩, ∅⟩ [] 0 :=
    ⟨fun _ => rfl, rfl, rfl, rfl, List.forall_mem_nil _⟩
  exact ⟨s, Except.ok.inj same, outlineFrom_sound start run⟩

/-! ### Documents that pass -/

omit [BrowserText] in
/-- A whole level is read. -/
theorem exists_headingLevel {level : ℤ} (whole : number (attr node.attrs "level") = some level) :
    ∃ level, headingLevel node = .ok level := by
  rw [headingLevel]
  cases read : attr node.attrs "level" with
  | num n => exact ⟨.finite n.value, rfl⟩
  | null => exact ⟨.finite 2, rfl⟩
  | bool b => rw [read] at whole; cases whole
  | str s => rw [read] at whole; cases whole
  | arr items => rw [read] at whole; cases whole
  | obj members => rw [read] at whole; cases whole

/-- Where every heading has a level, the outline is made. -/
theorem exists_outlineFrom
    (levels : ∀ node ∈ nodes, node.type = "heading" → ∃ level, headingLevel node = .ok level) :
    ∃ s', outlineFrom s place nodes = .ok s' := by
  induction nodes generalizing s place with
  | nil => exact ⟨s, rfl⟩
  | cons node nodes ih =>
      rw [List.forall_mem_cons] at levels
      obtain ⟨next, step⟩ : ∃ next, outlineNode s place node = .ok next := by
        rw [outlineNode]
        by_cases other : node.type ≠ "heading"
        · exact ⟨s, if_pos other⟩
        rw [if_neg other]
        by_cases blank : jsTrim (plainText node) = ""
        · exact ⟨s, if_pos blank⟩
        obtain ⟨level, read⟩ := levels.1 (not_not.mp other)
        rw [if_neg blank, read]
        exact ⟨_, rfl⟩
      rw [outlineFrom, step]
      exact ih levels.2

/-- A document the service accepts has an outline. -/
theorem exists_outline (passes : Passes doc) : ∃ o, outline doc = .ok o := by
  have levels : ∀ node ∈ doc.content, node.type = "heading" →
      ∃ level, headingLevel node = .ok level := by
    intro node member heading
    have here : (node, 1) ∈ visited doc 0 := by
      rw [visited_eq]
      exact List.mem_cons_of_mem _ (mem_visitedAll member)
    obtain ⟨level, whole, -⟩ := (passes.node _ here).attrs.heading heading
    exact exists_headingLevel whole
  obtain ⟨s, run⟩ := exists_outlineFrom levels
  exact ⟨s.toOutline, by rw [outline, run]; rfl⟩

/-! ## Where an entry leads -/

/-- The first heading that has an id, by its place. -/
def Outline.lands (o : Outline) (id : Units) : Option ℕ :=
  (o.ids.entries.find? fun anchor => anchor.2 = id).map Prod.fst

/-- The ids of an outline are distinct, and each entry leads to the heading it was made of. -/
structure LeadsHome (doc : ArticleNode) (o : Outline) : Prop where
  distinct : (o.entries.map OutlineEntry.id).Nodup
  own : o.entries.map (fun entry => o.lands entry.id) =
    (headingsFrom 0 doc.content).map fun heading => some heading.1

/-- The ids of an outline are distinct, and its entries lead to their headings, exactly when
no heading has the slug that another slug becomes with the number of one of its repeats. -/
theorem leadsHome_iff (made : outline doc = .ok o) : LeadsHome doc o ↔
    ∀ slug ∈ slugs doc, ∀ base n, 2 ≤ n → n ≤ (slugs doc).count base →
      slug ≠ numberedBase base n := by
  obtain ⟨s, rfl, sound⟩ := outline_sound made
  rw [slugs, ← nodup_numbered_iff numberedBase_injective, ← sound.ids]
  refine ⟨LeadsHome.distinct, fun distinct => ⟨distinct, ?_⟩⟩
  have second : (s.ids.entries.map Prod.snd).Nodup := sound.anchors ▸ distinct
  calc s.entries.map (fun entry => s.lands entry.id)
      = (s.entries.map OutlineEntry.id).map s.lands := by
        rw [List.map_map]
        rfl
    _ = (s.ids.entries.map Prod.snd).map s.lands := by rw [sound.anchors]
    _ = s.ids.entries.map fun anchor => some anchor.1 := by
      rw [List.map_map]
      refine List.map_congr_left fun anchor member => ?_
      rw [Function.comp_apply, Outline.lands, find?_snd second member, Option.map_some]
    _ = (s.ids.entries.map Prod.fst).map some := by
      rw [List.map_map]
      rfl
    _ = (headingsFrom 0 doc.content).map fun heading => some heading.1 := by
      rw [sound.places, List.map_map]
      rfl

end Headings

/-! ## Two documents -/

/-- The tables of a browser restricted to ASCII. -/
@[reducible]
def asciiText : BrowserText where
  toLowerCase s := String.ofList (s.toList.map Char.toLower)
  nfkd s := s
  isLetter := Unicode.asciiLetter
  isNumber := Char.isDigit

/-- The functions of the language at the numbers of the headings, which use none of them. -/
@[reducible]
def noMath : Js.Implementation where
  cos _ := 0
  hypot _ _ := 0
  atan2 _ _ := .nan
  numberText _ := ""

/-- A section heading. -/
def section_ (text : String) : ArticleNode :=
  ⟨"heading", [("level", .num ⟨false, 2, 0⟩)], [⟨"text", [], [], [], text⟩], [], ""⟩

/-- A document of section headings. -/
def sections (texts : List String) : ArticleNode := ⟨"doc", [], texts.map section_, [], ""⟩

/-- Headings of one text have different ids. -/
theorem outline_repeats : let _ := asciiText; let _ := noMath
    ∃ o, outline (sections ["A", "A", "A 2"]) = .ok o ∧
      o.entries.map OutlineEntry.id = ["a", "a-2", "a-2"].map (unitsOf ·.toList) ∧
      ¬ LeadsHome (sections ["A", "A", "A 2"]) o := by
  let _ := asciiText
  let _ := noMath
  have ids : (outline (sections ["A", "A", "A 2"])).map
      (fun o => o.entries.map OutlineEntry.id) =
        .ok (["a", "a-2", "a-2"].map (unitsOf ·.toList)) := by decide +kernel
  cases made : outline (sections ["A", "A", "A 2"]) with
  | error e =>
      rw [made] at ids
      cases ids
  | ok o =>
      rw [made] at ids
      have ids : o.entries.map OutlineEntry.id = ["a", "a-2", "a-2"].map (unitsOf ·.toList) :=
        Except.ok.inj ids
      refine ⟨o, made, ids, fun home => ?_⟩
      have distinct := home.distinct
      rw [ids] at distinct
      exact absurd distinct (by decide)

/-- The headings of the sections lead to themselves. -/
theorem leadsHome_sections : let _ := asciiText; let _ := noMath
    ∃ o, outline (sections ["The press", "A block", "The press"]) = .ok o ∧
      (LeadsHome (sections ["The press", "A block", "The press"]) o ↔
        ∀ slug ∈ slugs (sections ["The press", "A block", "The press"]), ∀ base n, 2 ≤ n →
          n ≤ (slugs (sections ["The press", "A block", "The press"])).count base →
            slug ≠ numberedBase base n) := by
  let _ := asciiText
  let _ := noMath
  have made : (outline (sections ["The press", "A block", "The press"])).isOk = true := by
    decide +kernel
  cases outlined : outline (sections ["The press", "A block", "The press"]) with
  | error e =>
      rw [outlined] at made
      cases made
  | ok o => exact ⟨o, outlined, leadsHome_iff outlined⟩

end ArticleBody

end ScoutPulse.Articles
