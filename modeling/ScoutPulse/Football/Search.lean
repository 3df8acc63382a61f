import ScoutPulse.Lib.Strings
import ScoutPulse.Lib.Utf8

/-!
# The search box

What a visitor types becomes an expression of the database's text search: its words,
each matched as the beginning of a lexeme, all of them required. The result is the
bytes the database is sent.
-/

namespace ScoutPulse.Search

open Strings Unicode Utf8

attribute [local instance] Strings.decidableMem

section Query

variable [Unicode]

/-- What a search text is split at. -/
def separator (r : Char) : Bool := !isLetter r && !isDigit r

/-- The bytes of a field that are searched for. -/
def kept (f : String) : List UInt8 :=
  if 64 < byteLen f then (bytes f.toList).take 64 else bytes f.toList

/-- `ToTSQuery`. -/
def toTSQuery (input : String) : List UInt8 :=
  let fields := fieldsFunc separator input
  let terms := fields.map fun f => kept f ++ bytes ":*".toList
  (bytes " & ".toList).intercalate terms

/-- The characters that mean something in a tsquery expression. -/
def operators : List Char := "&|!<->:*()'\\ ".toList

/-- What may stand before `:*` in a query. -/
structure Term (t : String) : Prop where
  nonempty : t ≠ ""
  plain : ∀ c ∈ t.toList, isLetter c || isDigit c
  literal : ∀ c ∈ t.toList, c ∉ operators

/-- The database can read the query: it is the UTF-8 form of terms, each followed by
`:*`, joined by ` & `, or empty. -/
def WellFormed (query : List UInt8) : Prop :=
  query = [] ∨ ∃ terms : List String, terms ≠ [] ∧ (∀ t ∈ terms, Term t) ∧
    query = bytes (join (terms.map (· ++ ":*")) " & ").toList

/-! ## What is kept of a field -/

omit [Unicode] in
theorem byteLen_eq_length_bytes (s : String) : byteLen s = (bytes s.toList).length := by
  have size : ∀ cs : List Char, (String.ofList cs).utf8ByteSize = (bytes cs).length := by
    intro cs
    rw [← String.size_toByteArray, String.toByteArray_ofList]
    simp [List.utf8Encode, bytes]
  rw [byteLen, ← size, String.ofList_toList]

omit [Unicode] in
/-- A field whose cut falls between two characters is kept as whole characters. -/
theorem kept_eq {f : String} (nonempty : f ≠ "")
    (between : 64 < byteLen f → Boundary 64 f.toList) :
    ∃ t : String, t ≠ "" ∧ t.toList ⊆ f.toList ∧ kept f = bytes t.toList := by
  by_cases long : 64 < byteLen f
  · obtain ⟨k, cut⟩ := take_bytes_of_boundary (between long)
    refine ⟨String.ofList (f.toList.take k), ?_, ?_, ?_⟩
    · intro empty
      rw [String.ofList_eq_empty_iff] at empty
      have none_kept : ((bytes f.toList).take 64).length = 0 := by
        rw [cut, empty]
        rfl
      rw [List.length_take, ← byteLen_eq_length_bytes] at none_kept
      omega
    · rw [String.toList_ofList]
      exact List.take_subset k _
    · rw [kept, if_pos long, cut, String.toList_ofList]
  · exact ⟨f, nonempty, List.Subset.refl _, if_neg long⟩

/-- A field of the search text gives a term when its cut falls between characters. -/
theorem exists_term (tables : OnAscii) {input f : String}
    (field : f ∈ fieldsFunc separator input)
    (between : 64 < byteLen f → Boundary 64 f.toList) :
    ∃ t : String, Term t ∧ kept f ++ bytes ":*".toList = bytes (t ++ ":*").toList := by
  obtain ⟨nonempty, solid⟩ := mem_fieldsFunc field
  obtain ⟨t, some_rune, part, same⟩ := kept_eq nonempty between
  have plain : ∀ c ∈ t.toList, isLetter c || isDigit c := by
    intro c member
    have kept_rune : separator c = false := solid c (part member)
    simpa [separator, ← Bool.not_or] using kept_rune
  refine ⟨t, ⟨some_rune, plain, fun c member operator => ?_⟩, ?_⟩
  · have strange : ∀ d ∈ operators,
        d.toNat < 128 ∧ asciiLetter d = false ∧ d.isDigit = false := by decide
    obtain ⟨below, no_letter, no_digit⟩ := strange c operator
    have letter_or_digit := plain c member
    rw [tables.letter c below, tables.digit c below, no_letter, no_digit] at letter_or_digit
    cases letter_or_digit
  · rw [same, String.toList_append, bytes_append]

/-! ## When a query is well formed -/

omit [Unicode] in
/-- Joining a text for each of some fields is joining the texts. -/
theorem bytes_join (texts : List String) (separator : String) :
    bytes (join texts separator).toList =
      (bytes separator.toList).intercalate (texts.map fun t => bytes t.toList) := by
  rw [join, String.toList_intercalate, bytes_intercalate, List.map_map]
  rfl

/-- A query whose fields are cut between characters is well formed. -/
theorem toTSQuery_wellFormed (tables : OnAscii) {input : String}
    (between : ∀ f ∈ fieldsFunc separator input, 64 < byteLen f → Boundary 64 f.toList) :
    WellFormed (toTSQuery input) := by
  have terms : ∀ f ∈ fieldsFunc separator input, ∃ t : String,
      Term t ∧ kept f ++ bytes ":*".toList = bytes (t ++ ":*").toList :=
    fun f field => exists_term tables field (between f field)
  choose! term is_term same using terms
  rw [toTSQuery]
  by_cases none_ : fieldsFunc separator input = []
  · left
    rw [none_]
    rfl
  · right
    refine ⟨(fieldsFunc separator input).map term, ?_, ?_, ?_⟩
    · exact fun empty => none_ (List.map_eq_nil_iff.mp empty)
    · intro t member
      obtain ⟨f, field, rfl⟩ := List.mem_map.mp member
      exact is_term f field
    · rw [bytes_join, List.map_map, List.map_map]
      exact congrArg _ (List.map_congr_left same)

omit [Unicode] in
/-- What is valid UTF-8 after a kept field and its `:*` begins at a character. -/
theorem between_of_bytes {f : String} {ds : List Char} {rest : List UInt8}
    (same : bytes ds = (kept f ++ bytes ":*".toList) ++ rest) :
    (64 < byteLen f → Boundary 64 f.toList) ∧ ∃ more, bytes more = rest := by
  have between : 64 < byteLen f → Boundary 64 f.toList := by
    intro long
    have colon : Ascii 0x3A := rfl
    rw [kept, if_pos long, List.append_assoc] at same
    rw [byteLen_eq_length_bytes] at long
    exact boundary_of_bytes_take colon (Nat.le_of_lt long) same
  refine ⟨between, ?_⟩
  by_cases empty : f = ""
  · subst empty
    have head : bytes ds = bytes ":*".toList ++ rest := same
    obtain ⟨more, -, tail⟩ := exists_append_of_bytes head
    exact ⟨more, tail⟩
  · obtain ⟨t, -, -, whole⟩ := kept_eq (f := f) empty between
    rw [whole, ← bytes_append] at same
    obtain ⟨more, -, tail⟩ := exists_append_of_bytes same
    exact ⟨more, tail⟩

omit [Unicode] in
/-- Terms that are joined to valid UTF-8 are cut between characters. -/
theorem between_of_joined {fields : List String} {ds : List Char}
    (same : bytes ds = (bytes " & ".toList).intercalate
      (fields.map fun f => kept f ++ bytes ":*".toList)) :
    ∀ f ∈ fields, 64 < byteLen f → Boundary 64 f.toList := by
  induction fields generalizing ds with
  | nil => simp
  | cons f rest ih =>
      rw [List.forall_mem_cons]
      cases rest with
      | nil =>
          rw [List.map_singleton, List.intercalate_singleton] at same
          rw [← List.append_nil (_ ++ _)] at same
          exact ⟨(between_of_bytes same).1, by simp⟩
      | cons next rest =>
          rw [List.map_cons, List.map_cons, List.intercalate_cons_cons,
            List.append_assoc (_ ++ _)] at same
          obtain ⟨between, more, tail⟩ := between_of_bytes same
          obtain ⟨others, -, others_eq⟩ := exists_append_of_bytes tail
          exact ⟨between, ih others_eq⟩

theorem between_of_wellFormed {input : String} (readable : WellFormed (toTSQuery input)) :
    ∀ f ∈ fieldsFunc separator input, 64 < byteLen f → Boundary 64 f.toList := by
  rcases readable with empty | ⟨terms, -, -, same⟩
  · have nothing : bytes [] = toTSQuery input := empty.symm
    exact between_of_joined nothing
  · exact between_of_joined same.symm

/-- The query is well formed exactly when no field longer than 64 bytes has a character
across its 64th byte. -/
theorem toTSQuery_wellFormed_iff (tables : OnAscii) (input : String) :
    WellFormed (toTSQuery input) ↔
      ∀ f ∈ fieldsFunc separator input, 64 < byteLen f → Boundary 64 f.toList :=
  ⟨between_of_wellFormed, toTSQuery_wellFormed tables⟩

end Query

/-- The query of a name is well formed. -/
theorem toTSQuery_wellFormed_iff_messi :
    let _ := latin
    WellFormed (toTSQuery "messi & argentína!") :=
  let _ := latin
  (toTSQuery_wellFormed_iff latin_onAscii "messi & argentína!").mpr (by
    have short : ∀ f ∈ fieldsFunc separator "messi & argentína!", byteLen f ≤ 64 := by
      decide +kernel
    intro f field long
    have := short f field
    omega)

/-- One letter of a byte and thirty-two of two are cut inside the last one. -/
theorem toTSQuery_cut :
    let _ := latin
    ¬ WellFormed (toTSQuery (String.ofList ('a' :: List.replicate 32 'é'))) := by
  intro _ readable
  let long := String.ofList ('a' :: List.replicate 32 'é')
  have field : long ∈ @fieldsFunc (@separator latin) long := by decide +kernel
  obtain ⟨k, cut⟩ := between_of_wellFormed readable long field (by decide +kernel)
  have apart : ∀ k ≤ 33, (bytes (long.toList.take k)).length ≠ 64 := by decide +kernel
  by_cases within : k ≤ 33
  · exact apart k within cut
  · have whole : long.toList.take k = long.toList.take 33 := by
      rw [List.take_of_length_le, List.take_of_length_le]
      · decide +kernel
      · have : long.toList.length = 33 := by decide +kernel
        omega
    rw [whole] at cut
    exact apart 33 (Nat.le_refl 33) cut

end ScoutPulse.Search
