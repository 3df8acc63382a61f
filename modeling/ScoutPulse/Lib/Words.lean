import ScoutPulse.Lib.Strings

/-!
# The words of a text

`fields` takes a text apart at its white space, and joining the words puts single spaces
between them. What is joined has the same words, no white space at its ends, and begins with
what the text begins with.
-/

namespace Strings

open Unicode

/-- A text whose runs of white space are single spaces, with none at its ends. -/
def collapse (s : String) : String := join (fields s) " "

/-- A word: some runes, none of them white space. -/
structure IsWord (w : String) : Prop where
  nonempty : w ≠ ""
  solid : ∀ c ∈ w.toList, isSpace c = false

section Words

variable {s w : String} {word cs : List Char} {words : List String}

/-- Characters that are no space make a word. -/
theorem isWord_ofList (nonempty : word ≠ []) (solid : ∀ c ∈ word, isSpace c = false) :
    IsWord (String.ofList word.reverse) := by
  constructor
  · rw [ne_eq, String.ofList_eq_empty_iff, List.reverse_eq_nil_iff]
    exact nonempty
  · intro c member
    rw [String.toList_ofList, List.mem_reverse] at member
    exact solid c member

/-- The fields are words. -/
theorem isWord_of_mem_fieldsFrom (solid : ∀ c ∈ word, isSpace c = false)
    (member : w ∈ fieldsFrom word cs) : IsWord w := by
  induction cs generalizing word with
  | nil =>
      rw [fieldsFrom] at member
      split_ifs at member with none_
      · cases member
      · rw [List.mem_singleton.mp member]
        exact isWord_ofList none_ solid
  | cons c cs ih =>
      have start : ∀ c ∈ ([] : List Char), isSpace c = false := List.forall_mem_nil _
      rw [fieldsFrom] at member
      split_ifs at member with space none_
      · exact ih start member
      · rcases List.mem_cons.mp member with rfl | later
        · exact isWord_ofList none_ solid
        · exact ih start later
      · refine ih ?_ member
        rw [List.forall_mem_cons]
        exact ⟨Bool.not_eq_true _ |>.mp space, solid⟩

theorem isWord_of_mem_fields (member : w ∈ fields s) : IsWord w :=
  isWord_of_mem_fieldsFrom (List.forall_mem_nil _) member

/-- The runes of joined words. -/
theorem toList_join_cons (w : String) (words : List String) :
    (join (w :: words) " ").toList = w.toList ++ words.flatMap fun v => ' ' :: v.toList := by
  induction words generalizing w with
  | nil => simp [join]
  | cons v words ih =>
      have rest := ih v
      rw [join] at rest
      rw [join, String.intercalate_cons_cons, String.toList_append, String.toList_append, rest,
        List.flatMap_cons, List.append_assoc]
      rfl

/-- Characters that are no space go on with the word. -/
theorem fieldsFrom_append (solid : ∀ c ∈ cs, isSpace c = false) (rest : List Char) :
    fieldsFrom word (cs ++ rest) = fieldsFrom (cs.reverse ++ word) rest := by
  induction cs generalizing word with
  | nil => rfl
  | cons c cs ih =>
      rw [List.forall_mem_cons] at solid
      rw [List.cons_append, fieldsFrom, if_neg (by simp [solid.1]), ih solid.2, List.reverse_cons,
        List.append_assoc]
      rfl

/-- A word that is read, and the words after it. -/
theorem fieldsFrom_flatMap (nonempty : word ≠ []) (all : ∀ v ∈ words, IsWord v) :
    fieldsFrom word (words.flatMap fun v => ' ' :: v.toList) =
      String.ofList word.reverse :: words := by
  induction words generalizing word with
  | nil => rw [List.flatMap_nil, fieldsFrom, if_neg nonempty]
  | cons v words ih =>
      rw [List.forall_mem_cons] at all
      have some_ : v.toList.reverse ≠ [] := by
        rw [ne_eq, List.reverse_eq_nil_iff, String.toList_eq_nil_iff]
        exact all.1.nonempty
      rw [List.flatMap_cons, List.cons_append, fieldsFrom, if_pos (by decide), if_neg nonempty,
        fieldsFrom_append all.1.solid, List.append_nil, ih some_ all.2, List.reverse_reverse,
        String.ofList_toList]

/-- Joined words are taken apart again. -/
theorem fields_join (all : ∀ v ∈ words, IsWord v) : fields (join words " ") = words := by
  cases words with
  | nil => rfl
  | cons w words =>
      rw [List.forall_mem_cons] at all
      have some_ : w.toList.reverse ≠ [] := by
        rw [ne_eq, List.reverse_eq_nil_iff, String.toList_eq_nil_iff]
        exact all.1.nonempty
      rw [fields, toList_join_cons, fieldsFrom_append all.1.solid, List.append_nil,
        fieldsFrom_flatMap some_ all.2, List.reverse_reverse, String.ofList_toList]

/-- A text has the words it is collapsed to. -/
@[simp]
theorem fields_collapse (s : String) : fields (collapse s) = fields s :=
  fields_join fun _ => isWord_of_mem_fields

/-- Collapsing leaves nothing to collapse. -/
@[simp]
theorem collapse_collapse (s : String) : collapse (collapse s) = collapse s := by
  rw [collapse, fields_collapse, collapse]

/-! ### Ends -/

theorem IsWord.toList_ne_nil (word : IsWord w) : w.toList ≠ [] := by
  rw [ne_eq, String.toList_eq_nil_iff]
  exact word.nonempty

/-- The words joined end in the last of them. -/
theorem exists_join_append (front : List String) (w : String) :
    ∃ before, (join (front ++ [w]) " ").toList = before ++ w.toList := by
  cases front with
  | nil => exact ⟨[], by rw [List.nil_append, toList_join_cons, List.flatMap_nil, List.append_nil,
      List.nil_append]⟩
  | cons v front =>
      refine ⟨v.toList ++ (front.flatMap fun u => ' ' :: u.toList) ++ [' '], ?_⟩
      rw [List.cons_append, toList_join_cons, List.flatMap_append, List.flatMap_singleton]
      simp only [List.append_assoc, List.singleton_append]

/-- Words that are joined are trimmed. -/
theorem trimmed_join (all : ∀ v ∈ words, IsWord v) : Trimmed (join words " ").toList := by
  constructor
  · intro c first
    cases words with
    | nil => cases first
    | cons w words =>
        have word := all w List.mem_cons_self
        obtain ⟨d, rest, shape⟩ := List.exists_cons_of_ne_nil word.toList_ne_nil
        rw [toList_join_cons, shape] at first
        obtain rfl : d = c := Option.some.inj first
        exact word.solid d (shape ▸ List.mem_cons_self)
  · intro c last
    rcases List.eq_nil_or_concat words with rfl | ⟨front, w, rfl⟩
    · cases last
    · rw [List.concat_eq_append] at all last
      have word := all w (List.mem_append_right _ (List.mem_singleton_self w))
      obtain ⟨before, ends⟩ := exists_join_append front w
      rw [ends, List.getLast?_append, List.getLast?_eq_some_getLast word.toList_ne_nil,
        Option.some_or] at last
      exact word.solid c (Option.some.inj last ▸ List.getLast_mem word.toList_ne_nil)

theorem trimmed_collapse (s : String) : Trimmed (collapse s).toList :=
  trimmed_join fun _ => isWord_of_mem_fields

/-- What is trimmed off the right. -/
theorem exists_trimmed (p : Char → Bool) (cs : List Char) :
    ∃ tail, cs = trimRightFunc p cs ++ tail ∧ ∀ c ∈ tail, p c = true := by
  refine ⟨(cs.reverse.takeWhile p).reverse, ?_, fun c member => ?_⟩
  · rw [trimRightFunc, ← List.reverse_append, List.takeWhile_append_dropWhile,
      List.reverse_reverse]
  · exact List.mem_takeWhile_imp (List.mem_reverse.mp member)

/-- Trimming on the right goes no further than a rune that is kept. -/
theorem trimRightFunc_append {p : Char → Bool} {c : Char} (kept : p c = false)
    (front rest : List Char) :
    trimRightFunc p (front ++ c :: rest) = front ++ c :: trimRightFunc p rest := by
  have turned : (front ++ c :: rest).reverse = rest.reverse ++ c :: front.reverse := by
    rw [List.reverse_append, List.reverse_cons, List.append_assoc, List.singleton_append]
  rw [trimRightFunc, trimRightFunc, turned, List.dropWhile_append]
  split_ifs with all
  · rw [List.isEmpty_iff.mp all, List.dropWhile_cons_of_neg (by simp [kept]), List.reverse_cons,
      List.reverse_reverse, List.reverse_nil]
  · rw [List.reverse_append, List.reverse_cons, List.reverse_reverse, List.append_assoc,
      List.singleton_append]

/-- A word that is read is the beginning of the first field. -/
theorem exists_fieldsFrom (nonempty : word ≠ []) :
    ∃ more rest, fieldsFrom word cs = String.ofList (word.reverse ++ more) :: rest := by
  induction cs generalizing word with
  | nil => exact ⟨[], [], by rw [fieldsFrom, if_neg nonempty, List.append_nil]⟩
  | cons c cs ih =>
      rw [fieldsFrom]
      split_ifs with space
      · exact ⟨[], fieldsFrom [] cs, by rw [List.append_nil]⟩
      · obtain ⟨more, rest, read⟩ := ih (List.cons_ne_nil c word)
        refine ⟨c :: more, rest, ?_⟩
        rw [read, List.reverse_cons, List.append_assoc, List.singleton_append]

/-- Collapsed text begins with the first rune that is no white space. -/
theorem head?_collapse (s : String) :
    (collapse s).toList.head? = (s.toList.dropWhile isSpace).head? := by
  have from_ : ∀ cs, (join (fieldsFrom [] cs) " ").toList.head? = (cs.dropWhile isSpace).head? := by
    intro cs
    induction cs with
    | nil => rfl
    | cons c cs ih =>
        rw [fieldsFrom]
        by_cases space : isSpace c = true
        · rw [if_pos space, if_pos rfl, ih, List.dropWhile_cons_of_pos space]
        · obtain ⟨more, rest, read⟩ : ∃ more rest,
              fieldsFrom [c] cs = String.ofList ([c].reverse ++ more) :: rest :=
            exists_fieldsFrom (List.cons_ne_nil c [])
          rw [if_neg space, read, toList_join_cons, String.toList_ofList,
            List.dropWhile_cons_of_neg space]
          rfl
  exact from_ s.toList

/-! ### Texts put together -/

/-- A space divides the fields before it from those after. -/
theorem fieldsFrom_space_append (word front rest : List Char) :
    fieldsFrom word (front ++ ' ' :: rest) = fieldsFrom word front ++ fieldsFrom [] rest := by
  have space : isSpace ' ' = true := by decide
  induction front generalizing word with
  | nil =>
      rw [List.nil_append, fieldsFrom, fieldsFrom, if_pos space]
      split_ifs <;> rfl
  | cons c front ih =>
      rw [List.cons_append, fieldsFrom, fieldsFrom, ih, ih]
      split_ifs <;> rfl

/-- The words of texts with a space between them are the words of each. -/
theorem fields_join_texts (texts : List String) :
    fields (join texts " ") = texts.flatMap fields := by
  induction texts with
  | nil => rfl
  | cons s texts ih =>
      cases texts with
      | nil => rw [join, String.intercalate_singleton, List.flatMap_singleton]
      | cons t texts =>
          rw [join, String.intercalate_cons_cons, fields, String.toList_append,
            String.toList_append, List.append_assoc, List.flatMap_cons, ← ih]
          exact fieldsFrom_space_append [] s.toList _

/-- Words joined are a prefix of more of them joined. -/
theorem join_prefix (words more : List String) :
    (join words " ").toList <+: (join (words ++ more) " ").toList := by
  cases words with
  | nil => exact List.nil_prefix
  | cons w words =>
      rw [List.cons_append, toList_join_cons, toList_join_cons, List.flatMap_append,
        ← List.append_assoc]
      exact List.prefix_append _ _

/-- Collapsed texts are what more texts begin with. -/
theorem collapse_join_prefix (texts more : List String) :
    (collapse (join texts " ")).toList <+: (collapse (join (texts ++ more) " ")).toList := by
  rw [collapse, collapse, fields_join_texts, fields_join_texts, List.flatMap_append]
  exact join_prefix _ _

/-- Joining the fields of a text makes it no longer. -/
theorem length_join_fieldsFrom_le (word cs : List Char) :
    (join (fieldsFrom word cs) " ").toList.length ≤ word.length + cs.length := by
  induction cs generalizing word with
  | nil =>
      rw [fieldsFrom]
      split_ifs with none_
      · exact Nat.zero_le _
      · rw [toList_join_cons, List.flatMap_nil, List.append_nil, String.toList_ofList,
          List.length_reverse]
        exact Nat.le_add_right _ _
  | cons c cs ih =>
      rw [fieldsFrom, List.length_cons]
      split_ifs with space none_
      · have rest := ih []
        rw [List.length_nil] at rest
        omega
      · have rest := ih []
        cases words : fieldsFrom [] cs with
        | nil =>
            rw [toList_join_cons, List.flatMap_nil, List.append_nil, String.toList_ofList,
              List.length_reverse]
            omega
        | cons w words =>
            rw [words, toList_join_cons, List.length_append, List.length_nil] at rest
            rw [toList_join_cons, List.flatMap_cons, List.length_append, List.cons_append,
              List.length_cons, List.length_append, String.toList_ofList, List.length_reverse]
            omega
      · have rest := ih (c :: word)
        rw [List.length_cons] at rest
        omega

/-- Collapsing makes no text longer. -/
theorem length_collapse_le (s : String) : (collapse s).toList.length ≤ s.toList.length := by
  refine (length_join_fieldsFrom_le [] s.toList).trans ?_
  rw [List.length_nil, Nat.zero_add]

/-- The first rune that is no white space. -/
theorem head?_dropWhile_eq_some_iff {c : Char} : (cs.dropWhile isSpace).head? = some c ↔
    isSpace c = false ∧
      ∃ before after, cs = before ++ c :: after ∧ ∀ d ∈ before, isSpace d = true := by
  constructor
  · intro first
    have solid := List.head?_dropWhile_not isSpace cs
    rw [first] at solid
    obtain ⟨after, rest⟩ := List.head?_eq_some_iff.mp first
    refine ⟨solid, cs.takeWhile isSpace, after, ?_, fun d member => List.mem_takeWhile_imp member⟩
    rw [← rest, List.takeWhile_append_dropWhile]
  · rintro ⟨solid, before, after, rfl, spaces⟩
    rw [List.dropWhile_append_of_pos spaces, List.dropWhile_cons_of_neg (by simp [solid])]
    rfl

end Words

/-! ### Lower case -/

/-- What lower case leaves alone: a rune that is lower case, white space, and the mark `#`. -/
structure LowerCase [Unicode] : Prop where
  again : ∀ c, Unicode.toLower (Unicode.toLower c) = Unicode.toLower c
  space : ∀ c, isSpace (Unicode.toLower c) = isSpace c
  mark : ∀ c, Unicode.toLower c = '#' ↔ c = '#'

section LowerCase

variable [Unicode]

theorem LowerCase.toLower_toLower (lower : LowerCase) (s : String) :
    toLower (toLower s) = toLower s := by
  rw [toLower, toLower, String.toList_ofList, List.map_map]
  congr 1
  exact List.map_congr_left fun c _ => lower.again c

/-- The fields in lower case are the fields of the text in lower case. -/
theorem LowerCase.fieldsFrom (lower : LowerCase) (word cs : List Char) :
    fieldsFrom (word.map Unicode.toLower) (cs.map Unicode.toLower) =
      (fieldsFrom word cs).map toLower := by
  have read : ∀ cs, toLower (String.ofList (List.reverse cs)) =
      String.ofList (cs.map Unicode.toLower).reverse := by
    intro cs
    rw [toLower, String.toList_ofList, List.map_reverse]
  induction cs generalizing word with
  | nil =>
      simp only [List.map_nil, Strings.fieldsFrom, List.map_eq_nil_iff]
      split_ifs
      · rfl
      · rw [List.map_singleton, read]
  | cons c cs ih =>
      simp only [List.map_cons, Strings.fieldsFrom, lower.space, List.map_eq_nil_iff]
      split_ifs
      · exact ih []
      · rw [List.map_cons, read, ← ih []]
        rfl
      · exact ih (c :: word)

/-- A text in lower case has its words in lower case. -/
theorem LowerCase.fields (lower : LowerCase) (s : String) :
    fields (toLower s) = (fields s).map toLower := by
  rw [Strings.fields, toLower, String.toList_ofList]
  exact lower.fieldsFrom [] s.toList

/-- Words joined in lower case are the words in lower case, joined. -/
theorem toLower_join (blank : Unicode.toLower ' ' = ' ') (words : List String) :
    join (words.map toLower) " " = toLower (join words " ") := by
  cases words with
  | nil => rfl
  | cons w words =>
      have each : ∀ v, (toLower v).toList = v.toList.map Unicode.toLower :=
        fun v => String.toList_ofList
      apply String.toList_inj.mp
      rw [each, List.map_cons, toList_join_cons, toList_join_cons, List.map_append, each,
        List.flatMap_map, List.map_flatMap]
      simp only [List.map_cons, each, blank]

/-- Lower case and collapsing do not disturb each other. -/
theorem LowerCase.collapse (lower : LowerCase) (ascii : OnAscii) (s : String) :
    collapse (toLower s) = toLower (collapse s) := by
  rw [Strings.collapse, lower.fields, toLower_join (ascii.lower ' ' (by decide)), Strings.collapse]

end LowerCase

theorem toNat_toLower (c : Char) :
    c.toLower.toNat = if 65 ≤ c.toNat ∧ c.toNat ≤ 90 then c.toNat + 32 else c.toNat := by
  have upper : (c.val ≥ 'A'.val ∧ c.val ≤ 'Z'.val) ↔ 65 ≤ c.toNat ∧ c.toNat ≤ 90 := by
    rw [ge_iff_le, UInt32.le_iff_toNat_le, UInt32.le_iff_toNat_le]
    rfl
  by_cases inside : 65 ≤ c.toNat ∧ c.toNat ≤ 90
  · have below : c.toNat + 32 < 2 ^ 32 := by omega
    delta Char.toLower
    rw [dif_pos (upper.mpr inside), if_pos inside]
    change (c.val + 32).toNat = c.toNat + 32
    rw [UInt32.toNat_add]
    exact Nat.mod_eq_of_lt below
  · delta Char.toLower
    rw [dif_neg (upper.not.mpr inside), if_neg inside]

theorem ascii_lowerCase : @LowerCase ascii := by
  let _ := ascii
  refine ⟨fun c => ?_, fun c => ?_, fun c => ?_⟩
  · change c.toLower.toLower = c.toLower
    apply Char.toNat_inj.mp
    rw [toNat_toLower, toNat_toLower]
    split_ifs <;> omega
  · change isSpace c.toLower = isSpace c
    simp only [isSpace, toNat_toLower]
    split_ifs <;> grind
  · change c.toLower = '#' ↔ c = '#'
    rw [← Char.toNat_inj, toNat_toLower, ← Char.toNat_inj]
    split_ifs <;> grind

end Strings
