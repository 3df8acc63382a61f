import Mathlib.Data.List.TakeDrop
import Mathlib.Data.List.TakeWhile

/-!
# Text as the Go standard library reads it

Strings are sequences of Unicode scalar values; their length in bytes is that of
their UTF-8 form. The functions here are those of the packages `strings`,
`unicode` and `unicode/utf8`, under their own names. White space is fixed by the
language; the larger character tables (case mapping, letters, digits, marks,
punctuation, the normal forms) are a parameter, `Unicode`.
-/

/-- The character tables a program reads from its Unicode library. -/
class Unicode where
  /-- `unicode.ToLower`, the simple lower-case mapping. -/
  toLower : Char → Char
  isLetter : Char → Bool
  isDigit : Char → Bool
  isPunct : Char → Bool
  /-- `unicode.Is(unicode.Mn, r)`: a nonspacing mark. -/
  isMn : Char → Bool
  isPrint : Char → Bool
  nfd : String → String
  nfkd : String → String

namespace Unicode

/-- `unicode.IsSpace`: the white space of Latin-1, then the `White_Space` property. -/
def isSpace (c : Char) : Bool :=
  let n := c.toNat
  (9 ≤ n && n ≤ 13) || n == 0x20 || n == 0x85 || n == 0xA0 || n == 0x1680 ||
    (0x2000 ≤ n && n ≤ 0x200A) || n == 0x2028 || n == 0x2029 || n == 0x202F ||
    n == 0x205F || n == 0x3000

def asciiLetter (c : Char) : Bool := c.isUpper || c.isLower

/-- The tables restricted to ASCII. They agree with Unicode's on ASCII text, where
both normal forms are the identity. -/
@[reducible]
def ascii : Unicode where
  toLower := Char.toLower
  isLetter := asciiLetter
  isDigit := Char.isDigit
  isPunct c := 0x21 ≤ c.toNat && c.toNat ≤ 0x7E && !asciiLetter c && !c.isDigit &&
    !"$+<=>^`|~".toList.contains c
  isMn _ := false
  isPrint c := 0x20 ≤ c.toNat && c.toNat ≤ 0x7E
  nfd s := s
  nfkd s := s

/-- The tables of ASCII with the letters of Latin-1 added. -/
@[reducible]
def latin : Unicode :=
  { ascii with
    isLetter := fun c => asciiLetter c || c = 'ª' || c = 'µ' || c = 'º' ||
      (0xC0 ≤ c.toNat && c.toNat ≤ 0xFF && c ≠ '×' && c ≠ '÷') }

/-- On ASCII text the tables know ASCII's letters, digits and lower case, as Unicode's do. -/
structure OnAscii [Unicode] : Prop where
  letter : ∀ c : Char, c.toNat < 128 → isLetter c = asciiLetter c
  digit : ∀ c : Char, c.toNat < 128 → isDigit c = c.isDigit
  lower : ∀ c : Char, c.toNat < 128 → toLower c = c.toLower

theorem ascii_onAscii : @OnAscii ascii :=
  let _ := ascii
  ⟨fun _ _ => rfl, fun _ _ => rfl, fun _ _ => rfl⟩

theorem latin_onAscii : @OnAscii latin := by
  let _ := latin
  refine ⟨fun c below => ?_, fun _ _ => rfl, fun _ _ => rfl⟩
  have other : ∀ d : Char, 128 ≤ d.toNat → (c = d) = False := by
    intro d above
    refine eq_false ?_
    rintro rfl
    omega
  have high : ¬ 0xC0 ≤ c.toNat := by omega
  have read : isLetter c = (asciiLetter c || c = 'ª' || c = 'µ' || c = 'º' ||
      (0xC0 ≤ c.toNat && c.toNat ≤ 0xFF && c ≠ '×' && c ≠ '÷')) := rfl
  rw [read]
  simp [other 'ª' (by decide), other 'µ' (by decide), other 'º' (by decide), high]

end Unicode

namespace Strings

/-- Whether every character of a list has a property: only those of the list are asked. -/
@[reducible]
def decidableMem (p : Char → Prop) [DecidablePred p] (cs : List Char) : Decidable (∀ c ∈ cs, p c) :=
  List.decidableBAll p cs

open Unicode

/-- `len(s)`: the length in bytes. -/
def byteLen (s : String) : Nat := s.utf8ByteSize

/-- `utf8.RuneCountInString`. -/
def runeCount (s : String) : Nat := s.length

/-- `strings.TrimRightFunc`, on runes. -/
def trimRightFunc (p : Char → Bool) (cs : List Char) : List Char :=
  (cs.reverse.dropWhile p).reverse

/-- `strings.TrimSpace`. -/
def trimSpace (s : String) : String :=
  String.ofList (trimRightFunc isSpace (s.toList.dropWhile isSpace))

/-- The maximal runs of non-space runes; `word` is the run being read, reversed. -/
def fieldsFrom (word : List Char) : List Char → List String
  | [] => if word = [] then [] else [String.ofList word.reverse]
  | c :: cs =>
      if isSpace c then
        if word = [] then fieldsFrom [] cs
        else String.ofList word.reverse :: fieldsFrom [] cs
      else fieldsFrom (c :: word) cs

/-- `strings.Fields`. -/
def fields (s : String) : List String := fieldsFrom [] s.toList

/-- `strings.FieldsFunc`: the maximal runs of runes that `p` does not split at. -/
def fieldsFunc (p : Char → Bool) (s : String) : List String :=
  ((s.toList.splitOnP p).filter (· ≠ [])).map String.ofList

/-- `strings.Join`. -/
def join (words : List String) (separator : String) : String := separator.intercalate words

/-- `strings.ToLower`. -/
def toLower [Unicode] (s : String) : String := String.ofList (s.toList.map Unicode.toLower)

/-- The tables of simple case folding. -/
class CaseFolding where
  /-- One character for all that `unicode.SimpleFold` leads to from a character. -/
  folded : Char → Char

/-- Case folding restricted to ASCII, where it agrees with Unicode's. -/
@[reducible]
def CaseFolding.ascii : CaseFolding where
  folded := Char.toLower

/-- `strings.EqualFold`. -/
def equalFold [CaseFolding] (s t : String) : Bool :=
  s.toList.map CaseFolding.folded = t.toList.map CaseFolding.folded

/-- `strings.HasPrefix`. -/
def hasPrefix (s head : String) : Bool := head.toList.isPrefixOf s.toList

/-- `strings.TrimPrefix`. -/
def trimPrefix (s head : String) : String :=
  if hasPrefix s head then String.ofList (s.toList.drop head.toList.length) else s

/-- `strings.ContainsAny`. -/
def containsAny (s chars : String) : Bool := s.toList.any chars.toList.contains

/-- Split at the last occurrence of `c`: what stands before it and after it. -/
def splitLast (c : Char) (cs : List Char) : Option (List Char × List Char) :=
  match cs.reverse.span (· ≠ c) with
  | (_, []) => none
  | (after, _ :: before) => some (before.reverse, after.reverse)

/-- Split at the first occurrence of `c`, which is dropped; the second part is empty
when there is none (`strings.Cut`). -/
def cut (c : Char) (cs : List Char) : List Char × List Char :=
  match cs.span (· ≠ c) with
  | (before, []) => (before, [])
  | (before, _ :: after) => (before, after)

/-- The lower-case hexadecimal digit of a number below sixteen. -/
def hexDigit (n : Nat) : Char :=
  if n < 10 then Char.ofNat (0x30 + n) else Char.ofNat (0x57 + n)

/-- The last `width` hexadecimal digits of `n`. -/
def hex (width n : Nat) : List Char :=
  match width with
  | 0 => []
  | width + 1 => hex width (n / 16) ++ [hexDigit (n % 16)]

/-- One rune as `strconv.Quote` writes it between double quotes. -/
def quoteRune [Unicode] (c : Char) : List Char :=
  if c = '"' ∨ c = '\\' then ['\\', c]
  else if isPrint c then [c]
  else match c.toNat with
    | 7 => ['\\', 'a']
    | 8 => ['\\', 'b']
    | 12 => ['\\', 'f']
    | 10 => ['\\', 'n']
    | 13 => ['\\', 'r']
    | 9 => ['\\', 't']
    | 11 => ['\\', 'v']
    | n =>
        if n < 0x20 ∨ n = 0x7F then '\\' :: 'x' :: hex 2 n
        else if n < 0x10000 then '\\' :: 'u' :: hex 4 n
        else '\\' :: 'U' :: hex 8 n

/-- The `%q` verb: the text quoted and escaped. -/
def quote [Unicode] (s : String) : String :=
  String.ofList ('"' :: s.toList.flatMap quoteRune ++ ['"'])

/-! ### Blank text -/

/-- Text of white space only. -/
def blank (s : String) : Bool := s.toList.all isSpace

theorem blank_eq_true_iff {s : String} : blank s = true ↔ ∀ c ∈ s.toList, isSpace c = true :=
  List.all_eq_true

theorem blank_eq_false_iff {s : String} :
    blank s = false ↔ ∃ c ∈ s.toList, isSpace c = false := by
  rw [← Bool.not_eq_true, blank_eq_true_iff]
  simp

/-- What is left after characters have been dropped all satisfies it exactly when everything
does. -/
theorem forall_dropWhile_iff {p : Char → Bool} {cs : List Char} :
    (∀ c ∈ cs.dropWhile p, p c = true) ↔ ∀ c ∈ cs, p c = true := by
  induction cs with
  | nil => simp
  | cons c cs ih =>
      rw [List.dropWhile_cons]
      by_cases passes : p c = true
      · rw [if_pos passes, ih, List.forall_mem_cons]
        exact (and_iff_right passes).symm
      · rw [if_neg passes]

/-- Trimmed text is empty exactly when it was blank. -/
theorem trimSpace_eq_empty_iff {s : String} : trimSpace s = "" ↔ blank s = true := by
  rw [blank_eq_true_iff, trimSpace, trimRightFunc, ← forall_dropWhile_iff]
  rw [String.ofList_eq_empty_iff, List.reverse_eq_nil_iff, List.dropWhile_eq_nil_iff]
  simp only [List.mem_reverse]

/-- What is trimmed off the right leaves a beginning of the text. -/
theorem trimRightFunc_prefix (p : Char → Bool) (cs : List Char) : trimRightFunc p cs <+: cs := by
  rw [trimRightFunc, ← List.reverse_suffix, List.reverse_reverse]
  exact List.dropWhile_suffix p

/-- Text trimmed at both ends begins with a rune that is kept. -/
theorem head?_trim {p : Char → Bool} {cs : List Char} {c : Char}
    (first : (trimRightFunc p (cs.dropWhile p)).head? = some c) : p c = false := by
  have head := List.head?_dropWhile_not p cs
  obtain ⟨rest, same⟩ := trimRightFunc_prefix p (cs.dropWhile p)
  have begins : (cs.dropWhile p).head? = some c := by
    rw [← same, List.head?_append, first]
    rfl
  rw [begins] at head
  exact head

/-- Neither end of a text is white space. -/
structure Trimmed (cs : List Char) : Prop where
  head : ∀ c ∈ cs.head?, isSpace c = false
  last : ∀ c ∈ cs.getLast?, isSpace c = false

theorem dropWhile_of_head {cs : List Char} (first : ∀ c ∈ cs.head?, isSpace c = false) :
    cs.dropWhile isSpace = cs := by
  cases cs with
  | nil => rfl
  | cons c cs => rw [List.dropWhile_cons_of_neg (by simp [first c rfl])]

/-- A text that is trimmed stays as it is. -/
theorem trimSpace_of_trimmed {s : String} (trimmed : Trimmed s.toList) : trimSpace s = s := by
  have turned : ∀ c ∈ s.toList.reverse.head?, isSpace c = false := by
    rw [List.head?_reverse]
    exact trimmed.last
  rw [trimSpace, dropWhile_of_head trimmed.head, trimRightFunc, dropWhile_of_head turned,
    List.reverse_reverse, String.ofList_toList]

/-- A text is trimmed once it has been trimmed. -/
theorem trimmed_trimSpace (s : String) : Trimmed (trimSpace s).toList := by
  rw [trimSpace, String.toList_ofList]
  refine ⟨fun c first => head?_trim first, fun c last => ?_⟩
  rw [trimRightFunc, List.getLast?_reverse] at last
  have head := List.head?_dropWhile_not isSpace (s.toList.dropWhile isSpace).reverse
  rw [Option.mem_def.mp last] at head
  exact head

/-- Trimming once is enough. -/
theorem trimSpace_trimSpace (s : String) : trimSpace (trimSpace s) = trimSpace s :=
  trimSpace_of_trimmed (trimmed_trimSpace s)

/-- Text without white space has none at its ends. -/
theorem trimSpace_eq_self {s : String} (solid : ∀ c ∈ s.toList, isSpace c = false) :
    trimSpace s = s :=
  trimSpace_of_trimmed
    ⟨fun c first => solid c (List.mem_of_mem_head? first),
      fun c last => solid c (List.mem_of_mem_getLast? last)⟩

/-- A word that was begun, or a rune that is no space, ends up in a field. -/
theorem exists_mem_fieldsFrom {word cs : List Char} {c : Char} (solid : isSpace c = false)
    (member : c ∈ word ∨ c ∈ cs) : ∃ w ∈ fieldsFrom word cs, c ∈ w.toList := by
  induction cs generalizing word with
  | nil =>
      rcases member with inside | nothing
      · rw [fieldsFrom, if_neg (List.ne_nil_of_mem inside)]
        exact ⟨_, List.mem_singleton_self _, by simpa using inside⟩
      · cases nothing
  | cons d cs ih =>
      rw [fieldsFrom]
      by_cases space : isSpace d = true
      · rw [if_pos space]
        have later : c ∈ word ∨ c ∈ cs := by
          rcases member with inside | outside
          · exact .inl inside
          · rcases List.mem_cons.mp outside with rfl | rest
            · rw [solid] at space
              cases space
            · exact .inr rest
        split
        case isTrue none =>
          rw [none] at later
          exact ih later
        case isFalse some_ =>
          rcases later with inside | rest
          · exact ⟨_, List.mem_cons_self, by simpa using inside⟩
          · obtain ⟨w, field, there⟩ : ∃ w ∈ fieldsFrom [] cs, c ∈ w.toList := ih (.inr rest)
            exact ⟨w, List.mem_cons_of_mem _ field, there⟩
      · rw [if_neg space]
        apply ih
        rcases member with inside | outside
        · exact .inl (List.mem_cons_of_mem d inside)
        · rcases List.mem_cons.mp outside with rfl | rest
          · exact .inl List.mem_cons_self
          · exact .inr rest

/-- No run has a rune it would be split at. -/
theorem mem_splitOnP {p : Char → Bool} {cs run : List Char} (member : run ∈ cs.splitOnP p) :
    ∀ c ∈ run, p c = false := by
  induction cs generalizing run with
  | nil =>
      rw [List.splitOnP_nil, List.mem_singleton] at member
      rw [member]
      simp
  | cons d cs ih =>
      rw [List.splitOnP_cons_eq_if_modifyHead] at member
      split at member
      case isTrue splits =>
        rcases List.mem_cons.mp member with rfl | later
        · simp
        · exact ih later
      case isFalse keeps =>
        cases split_cs : cs.splitOnP p with
        | nil => exact absurd split_cs (List.splitOnP_ne_nil p cs)
        | cons first rest =>
            rw [split_cs] at member ih
            rcases List.mem_cons.mp member with rfl | later
            · rw [List.forall_mem_cons]
              exact ⟨by simpa using keeps, ih List.mem_cons_self⟩
            · exact ih (List.mem_cons_of_mem _ later)

/-- A field has a rune, and none that splits. -/
theorem mem_fieldsFunc {p : Char → Bool} {s f : String} (field : f ∈ fieldsFunc p s) :
    f ≠ "" ∧ ∀ c ∈ f.toList, p c = false := by
  obtain ⟨run, member, rfl⟩ := List.mem_map.mp field
  obtain ⟨run_mem, nonempty⟩ := List.mem_filter.mp member
  rw [String.toList_ofList]
  refine ⟨?_, mem_splitOnP run_mem⟩
  rw [ne_eq, String.ofList_eq_empty_iff]
  exact of_decide_eq_true nonempty

/-- The two sides of the last occurrence of a rune. -/
theorem splitLast_eq_some_iff {c : Char} {cs before after : List Char} :
    splitLast c cs = some (before, after) ↔ cs = before ++ c :: after ∧ c ∉ after := by
  rw [splitLast, List.span_eq_takeWhile_dropWhile]
  have whole := List.takeWhile_append_dropWhile (p := fun d => decide (d ≠ c)) (l := cs.reverse)
  have passed := fun d => List.mem_takeWhile_imp (p := fun d => decide (d ≠ c)) (l := cs.reverse)
    (x := d)
  have stopped := List.head?_dropWhile_not (fun d => decide (d ≠ c)) cs.reverse
  constructor
  · intro split
    generalize cs.reverse.takeWhile (fun d => decide (d ≠ c)) = skipped at *
    generalize cs.reverse.dropWhile (fun d => decide (d ≠ c)) = found at *
    cases found with
    | nil => cases split
    | cons d rest =>
        obtain ⟨rfl, rfl⟩ := Prod.mk.inj (Option.some.inj split)
        obtain rfl : d = c := by simpa using stopped
        refine ⟨?_, fun member => ?_⟩
        · rw [← List.reverse_inj, ← whole]
          simp
        · have passes := passed d (List.mem_reverse.mp member)
          simp at passes
  · rintro ⟨rfl, absent⟩
    have before_c : ∀ d ∈ after.reverse, decide (d ≠ c) = true := by
      intro d member
      rw [decide_eq_true_eq]
      rintro rfl
      exact absent (List.mem_reverse.mp member)
    have turned : (before ++ c :: after).reverse = after.reverse ++ c :: before.reverse := by simp
    rw [turned, List.takeWhile_append_of_pos before_c, List.dropWhile_append_of_pos before_c]
    simp

/-- Joined text has every rune of what it joins. -/
theorem mem_join {words : List String} {separator w : String} {c : Char} (member : w ∈ words)
    (inside : c ∈ w.toList) : c ∈ (join words separator).toList := by
  induction words with
  | nil => cases member
  | cons first rest ih =>
      cases rest with
      | nil =>
          rw [List.mem_singleton.mp member] at inside
          rw [join, String.intercalate_singleton]
          exact inside
      | cons second rest =>
          rw [join, String.intercalate_cons_cons, String.toList_append, String.toList_append]
          rcases List.mem_cons.mp member with rfl | later
          · exact List.mem_append_left _ (List.mem_append_left _ inside)
          · exact List.mem_append_right _ (ih later)

/-- Text that is not blank is not blank once its words are joined. -/
theorem blank_join_fields {s : String} (solid : blank s = false) :
    blank (join (fields s) " ") = false := by
  obtain ⟨c, inside, solid⟩ := blank_eq_false_iff.mp solid
  obtain ⟨w, field, there⟩ : ∃ w ∈ fields s, c ∈ w.toList :=
    exists_mem_fieldsFrom solid (.inr inside)
  exact blank_eq_false_iff.mpr ⟨c, mem_join field there, solid⟩

/-- Text of one byte a rune is as long in runes as in bytes. -/
theorem byteLen_eq_length {s : String} (single : ∀ c ∈ s.toList, c.utf8Size = 1) :
    byteLen s = s.toList.length := by
  have ofList : ∀ cs : List Char, (∀ c ∈ cs, c.utf8Size = 1) →
      (String.ofList cs).utf8ByteSize = cs.length := by
    intro cs single
    induction cs with
    | nil => rfl
    | cons c cs ih =>
        rw [List.forall_mem_cons] at single
        have parts : String.ofList (c :: cs) = String.singleton c ++ String.ofList cs := by
          apply String.ext
          simp
        rw [parts, String.utf8ByteSize_append, ih single.2, List.length_cons]
        simp [single.1, Nat.add_comm]
  rw [byteLen, ← ofList s.toList single, String.ofList_toList]

example : fields " Premier  League\n" = ["Premier", "League"] := by decide

end Strings
