import ScoutPulse.Football.Article.Desk
import ScoutPulse.Lib.Words

/-!
# Article addresses

An address is the words of the title with a random suffix. What is shown: it is made of
letters, digits and single hyphens, its suffix is read back from it, and when the length
that readers are allowed to ask for is enough for it.
-/

namespace ScoutPulse.Articles

open Strings Unicode

attribute [local instance] Strings.decidableMem

def suffixAlphabet : String := "23456789abcdefghijkmnpqrstuvwxyz"

/-- What `randomSuffix` can give. -/
structure IsSuffix (suffix : String) : Prop where
  length : suffix.toList.length = suffixLength
  drawn : ∀ c ∈ suffix.toList, c ∈ suffixAlphabet.toList

/-- `ForReaders`: an article without what only the desk should see. -/
def Article.forReaders (a : Article) : Article :=
  { a with
    reviewerID := none, reviewerName := "", reviewedAt := none, reviewNote := ""
    submittedAt := none }

/-- An address no row is looked up for. -/
def refusesAddress (slug : String) : Bool := slug = "" || 200 < byteLen slug

/-- `GetLive` of the service. -/
def Desk.serveLive (s : Desk) (slug : String) (now : Time) : Except AppErr Article :=
  if refusesAddress slug then .error (.notFound "article not found")
  else
    match s.getLive slug now with
    | none => .error (.notFound "article not found")
    | some a => .ok a.forReaders

/-- A live article is served at its address unless the address is refused. -/
theorem serveLive_of_getLive {s : Desk} {slug : String} {now : Time} {a : Article}
    (live : s.getLive slug now = some a) :
    s.serveLive slug now = .ok a.forReaders ↔ refusesAddress slug = false := by
  rw [Desk.serveLive, live]
  cases refusesAddress slug <;> simp

section Tables

variable [Unicode]

/-! ## Words -/

/-- A rune that is written in an address. -/
def written (r : Char) : Bool := isLetter r || isDigit r

/-- Letters and digits with single hyphens between them. -/
inductive Words : List Char → Prop
  | nil : Words []
  | rune {cs : List Char} {c : Char} : Words cs → written c = true → Words (cs ++ [c])
  | hyphen {cs : List Char} {c : Char} : Words cs → cs ≠ [] → written c = true →
      Words (cs ++ ['-', c])

/-- An address as readers see it. -/
structure WellFormed (slug : String) : Prop where
  nonempty : slug ≠ ""
  plain : ∀ c ∈ slug.toList, c = '-' ∨ isLetter c = true ∨ isDigit c = true
  first : slug.toList.head? ≠ some '-'
  last : slug.toList.getLast? ≠ some '-'
  single : ¬ ['-', '-'] <:+: slug.toList

/-- A rune that an address drops without ending a word. -/
def dropped (r : Char) : Bool := isMn r || r = '\'' || r = '’'

/-- The runes written, with one hyphen wherever others stood between two of them.
`started` once a rune has been written, `dash` when one has been left out since. -/
def hyphenate (started dash : Bool) : List Char → List Char
  | [] => []
  | r :: rs =>
      if written r then
        (if dash && started then ['-', r] else [r]) ++ hyphenate true false rs
      else hyphenate started true rs

/-- All the words of a title, joined by hyphens. -/
def hyphenated (title : String) : List Char :=
  hyphenate false false ((nfkd (toLower title)).toList.filter fun r => !dropped r)

omit [Unicode] in
/-- Joined words cut to sixty runes, or to one more where the last would be a hyphen. A
cut inside a word falls back to the end of the word before it, unless too little is left. -/
def shortened (whole : List Char) : List Char :=
  let room := if whole[59]? = some '-' then 61 else 60
  let kept := whole.take room
  if whole.length ≤ room ∨ whole[room]? = some '-' then kept
  else
    match splitLast '-' kept with
    | some (words, _) => if 20 < byteLen (String.ofList words) then words else kept
    | none => kept

/-! ## Letters, digits and single hyphens -/

theorem written_hyphen (tables : OnAscii) : written '-' = false := by
  rw [written, tables.letter '-' (by decide), tables.digit '-' (by decide)]
  decide

theorem written_of_ascii (tables : OnAscii) {c : Char} (below : c.toNat < 128)
    (plain : (asciiLetter c || c.isDigit) = true) : written c = true := by
  rw [written, tables.letter c below, tables.digit c below]
  exact plain

theorem written_of_drawn (tables : OnAscii) {c : Char} (drawn : c ∈ suffixAlphabet.toList) :
    written c = true := by
  have plain : ∀ d ∈ suffixAlphabet.toList,
      d.toNat < 128 ∧ (asciiLetter d || d.isDigit) = true := by decide
  exact written_of_ascii tables (plain c drawn).1 (plain c drawn).2

namespace Words

/-- Words go on with characters that are written. -/
theorem runes {cs more : List Char} (words : Words cs) (plain : ∀ c ∈ more, written c = true) :
    Words (cs ++ more) := by
  induction more generalizing cs with
  | nil => rwa [List.append_nil]
  | cons c more ih =>
      rw [List.forall_mem_cons] at plain
      rw [List.append_cons]
      exact ih (words.rune plain.1) plain.2

/-- Words go on with a hyphen and more characters that are written. -/
theorem append {cs more : List Char} (words : Words cs) (begun : cs ≠ []) (some_ : more ≠ [])
    (plain : ∀ c ∈ more, written c = true) : Words (cs ++ '-' :: more) := by
  cases more with
  | nil => exact absurd rfl some_
  | cons c more =>
      rw [List.forall_mem_cons] at plain
      have joined := (words.hyphen begun plain.1).runes plain.2
      rwa [List.append_assoc] at joined

/-- Words end in no hyphen. -/
theorem getLast?_ne (tables : OnAscii) {cs : List Char} (words : Words cs) :
    cs.getLast? ≠ some '-' := by
  have other : ∀ c, written c = true → c ≠ '-' := by
    rintro c is_written rfl
    rw [written_hyphen tables] at is_written
    cases is_written
  cases words with
  | nil => simp
  | rune _ is_written => simpa using other _ is_written
  | hyphen _ _ is_written => simpa using other _ is_written

/-- Words up to one of their hyphens are words. -/
theorem before (tables : OnAscii) {cs front after : List Char} (words : Words cs)
    (split : cs = front ++ '-' :: after) : Words front := by
  have other : ∀ c, written c = true → c ≠ '-' := by
    rintro c is_written rfl
    rw [written_hyphen tables] at is_written
    cases is_written
  induction words generalizing after with
  | nil => simp at split
  | @rune cs c words is_written ih =>
      rcases List.eq_nil_or_concat' after with rfl | ⟨after, d, rfl⟩
      · exact absurd (List.append_inj_right' split rfl |> List.head_eq_of_cons_eq)
          (other c is_written)
      · rw [← List.cons_append, ← List.append_assoc] at split
        exact ih (List.append_inj_left' split rfl)
  | @hyphen cs c words _ is_written ih =>
      rw [List.append_cons] at split
      rcases List.eq_nil_or_concat' after with rfl | ⟨after, d, rfl⟩
      · exact absurd (List.append_inj_right' split rfl |> List.head_eq_of_cons_eq)
          (other c is_written)
      · rw [← List.cons_append, ← List.append_assoc] at split
        have split := List.append_inj_left' split rfl
        rcases List.eq_nil_or_concat' after with rfl | ⟨after, d, rfl⟩
        · rw [← List.append_inj_left' split rfl]
          exact words
        · rw [← List.cons_append, ← List.append_assoc] at split
          exact ih (List.append_inj_left' split rfl)

/-- Words are made of letters, digits and hyphens. -/
theorem plain {cs : List Char} (words : Words cs) :
    ∀ c ∈ cs, c = '-' ∨ isLetter c = true ∨ isDigit c = true := by
  have read : ∀ c, written c = true → isLetter c = true ∨ isDigit c = true := by
    intro c is_written
    rwa [written, Bool.or_eq_true] at is_written
  induction words with
  | nil => simp
  | rune _ is_written ih =>
      rw [List.forall_mem_append, List.forall_mem_singleton]
      exact ⟨ih, .inr (read _ is_written)⟩
  | hyphen _ _ is_written ih =>
      rw [List.forall_mem_append, List.forall_mem_cons, List.forall_mem_singleton]
      exact ⟨ih, .inl rfl, .inr (read _ is_written)⟩

/-- Words begin with no hyphen. -/
theorem head?_ne (tables : OnAscii) {cs : List Char} (words : Words cs) :
    cs.head? ≠ some '-' := by
  induction words with
  | nil => simp
  | @rune cs c _ is_written ih =>
      cases cs with
      | nil =>
          rw [List.nil_append, List.head?_cons]
          intro first
          rw [Option.some.inj first, written_hyphen tables] at is_written
          cases is_written
      | cons d cs => exact ih
  | @hyphen cs c _ begun _ ih =>
      cases cs with
      | nil => exact absurd rfl begun
      | cons d cs => exact ih

/-- Words have no two hyphens together: a hyphen stands between two that are written. -/
theorem single (tables : OnAscii) {cs : List Char} (words : Words cs) :
    ¬ ['-', '-'] <:+: cs := by
  -- A pair of hyphens at the end would leave one there.
  have ends : ∀ {ds : List Char}, ['-', '-'] <:+ ds → ds.getLast? = some '-' := by
    rintro _ ⟨front, rfl⟩
    simp
  induction words with
  | nil => simp
  | @rune cs c words is_written ih =>
      rw [List.infix_concat_iff]
      rintro (last | inside)
      · exact (words.rune is_written).getLast?_ne tables (ends last)
      · exact ih inside
  | @hyphen cs c words begun is_written ih =>
      rw [List.append_cons, List.infix_concat_iff, List.infix_concat_iff]
      rintro (last | last | inside)
      · have last_c := (words.hyphen begun is_written).getLast?_ne tables
        rw [List.append_cons] at last_c
        exact last_c (ends last)
      · obtain ⟨front, same⟩ := last
        have two : front ++ ['-'] ++ ['-'] = cs ++ ['-'] := by
          rw [← same, List.append_assoc]
          rfl
        have last_cs : cs.getLast? = some '-' := by
          rw [← List.append_inj_left' two rfl]
          simp
        exact words.getLast?_ne tables last_cs
      · exact ih inside

theorem wellFormed (tables : OnAscii) {slug : String} (words : Words slug.toList)
    (nonempty : slug ≠ "") : WellFormed slug :=
  ⟨nonempty, words.plain, words.head?_ne tables, words.getLast?_ne tables, words.single tables⟩

end Words

/-- What the loop does with one rune. -/
theorem slugWordsFrom_cons (cs rs : List Char) (n : ℕ) (dash : Bool) (r : Char) :
    slugWordsFrom cs n dash (r :: rs) =
      if dropped r then slugWordsFrom cs n dash rs
      else if written r then
        if 60 ≤ n then
          match splitLast '-' cs with
          | some (words, _) =>
              if 20 < byteLen (String.ofList words) && !dash then words else cs
          | none => cs
        else if dash && cs ≠ [] then slugWordsFrom (cs ++ ['-', r]) (n + 2) false rs
        else slugWordsFrom (cs ++ [r]) (n + 1) false rs
      else slugWordsFrom cs n true rs := by
  rw [slugWordsFrom, dropped, written]
  by_cases accent : isMn r = true
  · simp [accent]
  · by_cases apostrophe : r = '\'' ∨ r = '’'
    · rcases apostrophe with rfl | rfl <;> simp
    · have stays : ¬ (isMn r || r = '\'' || r = '’') = true := by
        simp [accent, not_or.mp apostrophe]
      exact (if_neg accent).trans ((if_neg apostrophe).trans (if_neg stays).symm)

/-- The words of a slug are words. -/
theorem words_slugWordsFrom (tables : OnAscii) {cs rs : List Char} {n : ℕ} {dash : Bool}
    (words : Words cs) : Words (slugWordsFrom cs n dash rs) := by
  induction rs generalizing cs n dash with
  | nil => exact words
  | cons r rs ih =>
      rw [slugWordsFrom_cons]
      split_ifs with drop is_written full begun
      · exact ih words
      · split
        case h_1 front after split =>
          split_ifs
          · exact words.before tables (splitLast_eq_some_iff.mp split).1
          · exact words
        case h_2 => exact words
      · exact ih (words.hyphen (by simpa using (Bool.and_eq_true_iff.mp begun).2) is_written)
      · exact ih (words.rune is_written)
      · exact ih words

/-! ## Where the words are cut -/

/-- What the loop has written is short enough to go on, or full: it ends at its sixtieth
rune, or with a word of one rune begun just before. -/
structure Fits (cs : List Char) : Prop where
  words : Words cs
  room : cs.length ≤ 60 ∨ cs.length = 61 ∧ cs[59]? = some '-'

theorem fits_nil : Fits [] := ⟨.nil, .inl (Nat.zero_le 60)⟩

theorem Fits.rune {cs : List Char} {c : Char} (fits : Fits cs) (short : cs.length < 60)
    (is_written : written c = true) : Fits (cs ++ [c]) := by
  refine ⟨fits.words.rune is_written, .inl ?_⟩
  rw [List.length_append, List.length_singleton]
  exact short

/-- A hyphen and one more character fit. -/
theorem Fits.hyphen {cs : List Char} {c : Char} (fits : Fits cs) (short : cs.length < 60)
    (begun : cs ≠ []) (is_written : written c = true) : Fits (cs ++ ['-', c]) := by
  refine ⟨fits.words.hyphen begun is_written, ?_⟩
  have length : (cs ++ ['-', c]).length = cs.length + 2 := List.length_append
  rw [length]
  rcases Nat.lt_or_ge cs.length 59 with shorter | last
  · exact .inl (by omega)
  · obtain last : cs.length = 59 := by omega
    refine .inr ⟨by omega, ?_⟩
    rw [List.getElem?_append_right (Nat.le_of_eq last), last]
    rfl

/-- The room that whole text leaves for what was written of it. -/
theorem Fits.room_eq (tables : OnAscii) {cs more : List Char} (fits : Fits cs)
    (full : 60 ≤ cs.length) :
    (if (cs ++ more)[59]? = some '-' then 61 else 60) = cs.length := by
  have inside : (cs ++ more)[59]? = cs[59]? := List.getElem?_append_left (by omega)
  rw [inside]
  rcases fits.room with short | ⟨length, hyphen⟩
  · obtain exact_ : cs.length = 60 := by omega
    have last : cs.getLast? = cs[59]? := by
      rw [List.getLast?_eq_getElem?, exact_]
    rw [← last, if_neg (fits.words.getLast?_ne tables), exact_]
  · rw [if_pos hyphen, length]

/-- Words that were written whole are not shortened. -/
theorem shortened_of_fits (tables : OnAscii) {cs : List Char} (fits : Fits cs) :
    shortened cs = cs := by
  have room : cs.length ≤ if cs[59]? = some '-' then 61 else 60 := by
    by_cases full : 60 ≤ cs.length
    · have whole := @Fits.room_eq _ tables cs [] fits full
      rw [List.append_nil] at whole
      exact Nat.le_of_eq whole.symm
    · split_ifs <;> omega
  rw [shortened, if_pos (.inl room), List.take_of_length_le room]

/-- Where there is no room for what follows, full words are cut back unless they end here. -/
theorem shortened_of_full (tables : OnAscii) {cs more : List Char} (fits : Fits cs)
    (full : 60 ≤ cs.length) (beyond : more ≠ []) :
    shortened (cs ++ more) =
      if more.head? = some '-' then cs
      else
        match splitLast '-' cs with
        | some (words, _) => if 20 < byteLen (String.ofList words) then words else cs
        | none => cs := by
  have longer : ¬ (cs ++ more).length ≤ cs.length := by
    have positive := List.length_pos_of_ne_nil beyond
    rw [List.length_append]
    omega
  have next : (cs ++ more)[cs.length]? = more.head? := by
    rw [List.getElem?_append_right (Nat.le_refl _), Nat.sub_self, List.head?_eq_getElem?]
  simp only [shortened, fits.room_eq tables full, List.take_left, next, longer, false_or]

/-- The loop writes the hyphenated words, shortened. -/
theorem slugWordsFrom_eq (tables : OnAscii) {cs rs : List Char} {dash : Bool} (fits : Fits cs) :
    slugWordsFrom cs cs.length dash rs =
      shortened (cs ++ hyphenate (cs ≠ []) dash (rs.filter fun r => !dropped r)) := by
  induction rs generalizing cs dash with
  | nil =>
      rw [List.filter_nil, hyphenate, List.append_nil, shortened_of_fits tables fits]
      rfl
  | cons r rs ih =>
      rw [slugWordsFrom_cons]
      by_cases drop : dropped r = true
      · rw [if_pos drop, List.filter_cons_of_neg (by simpa using drop)]
        exact ih fits
      · rw [if_neg drop, List.filter_cons_of_pos (by simpa using drop), hyphenate]
        by_cases is_written : written r = true
        · rw [if_pos is_written, if_pos is_written]
          have other : r ≠ '-' := by
            rintro rfl
            rw [written_hyphen tables] at is_written
            cases is_written
          by_cases full : 60 ≤ cs.length
          · have begun : cs ≠ [] := List.ne_nil_of_length_pos (by omega)
            rw [if_pos full, shortened_of_full tables fits full (by split_ifs <;> simp)]
            cases dash with
            | true =>
                -- The word before is whole, so nothing is taken back.
                cases splitLast '-' cs <;> simp [begun]
            | false => simp [other]
          · rw [if_neg full]
            have short := Nat.lt_of_not_le full
            by_cases begun : (dash && cs ≠ []) = true
            · have some_ : cs ≠ [] := by simpa using (Bool.and_eq_true_iff.mp begun).2
              have next := @ih _ false (fits.hyphen short some_ is_written)
              rw [if_pos begun, if_pos begun, ← List.append_assoc]
              simpa using next
            · have next := @ih _ false (fits.rune short is_written)
              rw [if_neg begun, if_neg begun, ← List.append_assoc]
              simpa using next
        · rw [if_neg is_written, if_neg is_written]
          exact ih fits

/-- The words of an address are those of its title, hyphenated and shortened. -/
theorem slugWords_eq (tables : OnAscii) (title : String) :
    slugWords title = String.ofList (shortened (hyphenated title)) := by
  rw [slugWords, hyphenated]
  exact congrArg String.ofList (slugWordsFrom_eq tables fits_nil)

/-! ## The whole address -/

/-- A slug is the words of its title, or the word for an article, with a hyphen and the suffix.
-/
theorem articleSlug_toList (title suffix : String) :
    (articleSlug title suffix).toList =
      (if slugWords title ≠ "" then slugWords title else "article").toList ++
        '-' :: suffix.toList := by
  rw [articleSlug]
  split_ifs
  · rw [String.toList_append, String.toList_append, List.append_assoc]
    rfl
  · rw [String.toList_append]
    rfl

/-- The slug of any title is well formed. -/
theorem articleSlug_wellFormed (tables : OnAscii) {title suffix : String}
    (random : IsSuffix suffix) : WellFormed (articleSlug title suffix) := by
  have plain : ∀ c ∈ suffix.toList, written c = true :=
    fun c member => written_of_drawn tables (random.drawn c member)
  have some_ : suffix.toList ≠ [] := by
    apply List.ne_nil_of_length_pos
    rw [random.length]
    decide
  have words : Words (if slugWords title ≠ "" then slugWords title else "article").toList := by
    split_ifs
    · rw [slugWords, String.toList_ofList]
      exact words_slugWordsFrom tables .nil
    · have letters : ∀ c ∈ "article".toList,
          c.toNat < 128 ∧ (asciiLetter c || c.isDigit) = true := by decide
      exact Words.nil.runes fun c member =>
        written_of_ascii tables (letters c member).1 (letters c member).2
  have begun : (if slugWords title ≠ "" then slugWords title else "article").toList ≠ [] := by
    rw [ne_eq, String.toList_eq_nil_iff]
    split_ifs with nonempty
    · exact nonempty
    · decide
  have whole := words.append begun some_ plain
  rw [← articleSlug_toList] at whole
  apply whole.wellFormed tables
  intro empty
  rw [← String.toList_eq_nil_iff, articleSlug_toList] at empty
  simp at empty

omit [Unicode] in
theorem IsSuffix.byteLen_eq {suffix : String} (random : IsSuffix suffix) :
    byteLen suffix = suffixLength := by
  have single : ∀ c ∈ suffixAlphabet.toList, c.utf8Size = 1 := by decide
  rw [byteLen_eq_length fun c member => single c (random.drawn c member), random.length]

/-- The suffix is read back from a slug. -/
theorem slugSuffix_articleSlug {title suffix : String} (random : IsSuffix suffix) :
    slugSuffix (articleSlug title suffix) = suffix := by
  have absent : '-' ∉ suffix.toList := by
    intro member
    exact absurd (random.drawn '-' member) (by decide)
  rw [slugSuffix, splitLast_eq_some_iff.mpr ⟨articleSlug_toList title suffix, absent⟩]
  dsimp only
  rw [String.ofList_toList, if_pos random.byteLen_eq]

/-- A slug is refused exactly when what is kept of its title is too long in bytes. -/
theorem articleSlug_refused_iff (tables : OnAscii) {title suffix : String}
    (random : IsSuffix suffix) :
    refusesAddress (articleSlug title suffix) = false ↔
      byteLen (String.ofList (shortened (hyphenated title))) ≤ 193 := by
  have nonempty : articleSlug title suffix ≠ "" :=
    (articleSlug_wellFormed tables random).nonempty
  have six := random.byteLen_eq
  rw [refusesAddress, Bool.or_eq_false_iff, decide_eq_false_iff_not, decide_eq_false_iff_not,
    and_iff_right nonempty, ← slugWords_eq tables, articleSlug]
  rw [byteLen, suffixLength] at six
  split_ifs with some_
  · have length : byteLen (slugWords title ++ "-" ++ suffix) = byteLen (slugWords title) + 7 := by
      rw [byteLen, String.utf8ByteSize_append, String.utf8ByteSize_append, six]
      rfl
    rw [length]
    omega
  · have length : byteLen ("article-" ++ suffix) = 14 := by
      rw [byteLen, String.utf8ByteSize_append, six]
      rfl
    rw [length, of_not_not some_]
    decide

/-- An address is well formed and gives its suffix back for every title; readers are let
through with it exactly when the title's words, hyphenated and shortened to sixty runes,
take at most 193 bytes. -/
theorem articleSlug_iff (tables : OnAscii) (title : String) {suffix : String}
    (random : IsSuffix suffix) :
    (WellFormed (articleSlug title suffix) ∧ slugSuffix (articleSlug title suffix) = suffix ∧
        refusesAddress (articleSlug title suffix) = false) ↔
      byteLen (String.ofList (shortened (hyphenated title))) ≤ 193 := by
  rw [← articleSlug_refused_iff tables random]
  constructor
  · exact fun all => all.2.2
  · exact fun served =>
      ⟨articleSlug_wellFormed tables random, slugSuffix_articleSlug random, served⟩

end Tables

/-- The slug of a title in ASCII is well formed and served. -/
theorem articleSlug_iff_lowBlock :
    let _ := ascii
    WellFormed (articleSlug "The low block, explained" "abc234") ∧
      slugSuffix (articleSlug "The low block, explained" "abc234") = "abc234" ∧
      refusesAddress (articleSlug "The low block, explained" "abc234") = false :=
  let _ := ascii
  have random : IsSuffix "abc234" := ⟨by decide, by decide⟩
  (articleSlug_iff ascii_onAscii "The low block, explained" random).mpr (by decide +kernel)

/-- Fifty Gothic letters, of four bytes each, make an address nobody is served at. -/
theorem articleSlug_refused :
    let _ : Unicode :=
      { ascii with isLetter := fun c => asciiLetter c || (0x10330 ≤ c.toNat && c.toNat ≤ 0x10340) }
    let title := String.ofList (List.replicate 50 '𐌰')
    OnAscii ∧ join (fields title) " " = title ∧ runeCount title ≤ maxArticleTitleLength ∧
      IsSuffix "abc234" ∧ refusesAddress (articleSlug title "abc234") = true := by
  intro _ title
  have runes : title.toList = List.replicate 50 '𐌰' := String.toList_ofList
  have word : IsWord title := by
    refine ⟨fun none_ => ?_, fun c member => ?_⟩
    · rw [none_] at runes
      cases runes
    · rw [runes] at member
      rw [(List.mem_replicate.mp member).2]
      decide
  have collapsed : join (fields title) " " = title := by
    have read : fields (join [title] " ") = [title] :=
      fields_join (List.forall_mem_singleton.mpr word)
    rw [join, String.intercalate_singleton] at read
    rw [read, join, String.intercalate_singleton]
  have short : runeCount title ≤ maxArticleTitleLength := by
    rw [runeCount, ← String.length_toList, runes]
    decide
  refine ⟨⟨fun c below => ?_, fun _ _ => rfl, fun _ _ => rfl⟩, collapsed, short,
    ⟨by decide, by decide⟩, by decide +kernel⟩
  have low : ¬ 0x10330 ≤ c.toNat := by omega
  have read : (asciiLetter c || (0x10330 ≤ c.toNat && c.toNat ≤ 0x10340)) = asciiLetter c := by
    simp [low]
  exact read

end ScoutPulse.Articles
