import Mathlib.Data.List.Basic

/-!
# Text as its UTF-8 bytes

Texts are lists of characters. What is shown of their bytes: that they determine the
text, and where the bytes of a text may be cut when an ASCII byte follows.
-/

namespace Utf8

/-- The bytes of a text. -/
def bytes (cs : List Char) : List UInt8 := cs.flatMap String.utf8EncodeChar

/-- A byte that is a character of its own. -/
def Ascii (b : UInt8) : Prop := b &&& 0x80 = 0

/-- A text may be cut at its `n`-th byte: no character has bytes on both sides. -/
def Boundary (n : ℕ) (cs : List Char) : Prop := ∃ k, (bytes (cs.take k)).length = n

@[simp] theorem bytes_nil : bytes [] = [] := rfl

@[simp] theorem bytes_cons (c : Char) (cs : List Char) :
    bytes (c :: cs) = String.utf8EncodeChar c ++ bytes cs :=
  List.flatMap_cons

@[simp] theorem bytes_append (cs ds : List Char) : bytes (cs ++ ds) = bytes cs ++ bytes ds :=
  List.flatMap_append

/-- The bytes of joined texts are joined bytes. -/
theorem bytes_intercalate (separator : List Char) (texts : List (List Char)) :
    bytes (separator.intercalate texts) =
      (bytes separator).intercalate (texts.map bytes) := by
  induction texts with
  | nil => rfl
  | cons text rest ih =>
      cases rest with
      | nil => simp
      | cons next rest =>
          rw [List.map_cons] at ih
          rw [List.intercalate_cons_cons, bytes_append, bytes_append, ih, List.map_cons,
            List.map_cons, List.intercalate_cons_cons]

/-- Bytes that begin with a character begin with no other. -/
theorem encode_unique {c d : Char} {x y : List UInt8}
    (same : String.utf8EncodeChar c ++ x = String.utf8EncodeChar d ++ y) : c = d := by
  have decode : ∀ (a : Char) (z : List UInt8),
      (String.utf8EncodeChar a ++ z).toByteArray.utf8DecodeChar? 0 = some a := by
    intro a z
    rw [List.toByteArray_append]
    exact ByteArray.utf8DecodeChar?_utf8EncodeChar_append
  have both : some c = some d := by
    rw [← decode c x, same, decode d y]
  exact Option.some.inj both

/-- Bytes that begin with those of a text are the bytes of a text only where the text
goes on. -/
theorem exists_append_of_bytes {cs ds : List Char} {rest : List UInt8}
    (same : bytes ds = bytes cs ++ rest) : ∃ more, ds = cs ++ more ∧ bytes more = rest := by
  induction cs generalizing ds with
  | nil => exact ⟨ds, rfl, same⟩
  | cons c cs ih =>
      rw [bytes_cons, List.append_assoc] at same
      cases ds with
      | nil =>
          have empty : String.utf8EncodeChar c = [] :=
            (List.append_eq_nil_iff.mp same.symm).1
          exact absurd empty String.utf8EncodeChar_ne_nil
      | cons d ds =>
          rw [bytes_cons] at same
          obtain rfl : d = c := encode_unique same
          obtain ⟨more, rfl, rest_eq⟩ := ih (List.append_cancel_left same)
          exact ⟨more, rfl, rest_eq⟩

/-- Only the first byte of a character can be an ASCII byte. -/
theorem eq_zero_of_ascii {c : Char} {i : ℕ} {b : UInt8} (ascii : Ascii b)
    (byte : (String.utf8EncodeChar c)[i]? = some b) : i = 0 := by
  obtain ⟨inside, is_b⟩ := List.getElem?_eq_some_iff.mp byte
  have first : (String.utf8EncodeChar c)[i].IsUTF8FirstByte := by
    rw [is_b]
    exact .inl ascii
  exact UInt8.isUTF8FirstByte_getElem_utf8EncodeChar.mp first

/-- A character that is cut in two is none, whatever ASCII byte follows. -/
theorem not_bytes_of_cut {c : Char} {n : ℕ} {b : UInt8} {ds : List Char} {rest : List UInt8}
    (ascii : Ascii b) (positive : 0 < n) (inside : n < (String.utf8EncodeChar c).length) :
    bytes ds ≠ (String.utf8EncodeChar c).take n ++ b :: rest := by
  intro same
  have length_cut : ((String.utf8EncodeChar c).take n).length = n := by
    rw [List.length_take]
    exact Nat.min_eq_left (Nat.le_of_lt inside)
  cases ds with
  | nil => simp at same
  | cons d ds =>
      rw [bytes_cons] at same
      -- The byte that follows is none of the bytes of the character read.
      have short : (String.utf8EncodeChar d).length ≤ n := by
        by_contra long
        have byte : (String.utf8EncodeChar d)[n]? = some b := by
          rw [← List.getElem?_append_left (Nat.lt_of_not_le long), same,
            List.getElem?_append_right (Nat.le_of_eq length_cut), length_cut, Nat.sub_self]
          rfl
        have : n = 0 := eq_zero_of_ascii ascii byte
        omega
      have head : String.utf8EncodeChar d =
          (String.utf8EncodeChar c).take (String.utf8EncodeChar d).length := by
        have cut := congrArg (List.take (String.utf8EncodeChar d).length) same
        rw [List.take_left, List.take_append_of_le_length (by omega), List.take_take,
          Nat.min_eq_left short] at cut
        exact cut
      obtain rfl : d = c := by
        refine encode_unique (x := (String.utf8EncodeChar c).drop
          (String.utf8EncodeChar d).length) (y := []) ?_
        conv_lhs => rw [head]
        rw [List.length_take, Nat.min_eq_left (by omega), List.take_append_drop, List.append_nil]
      omega

/-- Cut bytes followed by an ASCII byte are a text only where no character is cut. -/
theorem boundary_of_bytes_take {cs ds : List Char} {n : ℕ} {b : UInt8} {rest : List UInt8}
    (ascii : Ascii b) (within : n ≤ (bytes cs).length)
    (same : bytes ds = (bytes cs).take n ++ b :: rest) : Boundary n cs := by
  induction cs generalizing n ds with
  | nil => exact ⟨0, (Nat.le_zero.mp within).symm⟩
  | cons c cs ih =>
      rcases Nat.eq_zero_or_pos n with rfl | positive
      · exact ⟨0, rfl⟩
      · rw [bytes_cons] at same within
        by_cases inside : n < (String.utf8EncodeChar c).length
        · rw [List.take_append_of_le_length (Nat.le_of_lt inside)] at same
          exact absurd same (not_bytes_of_cut ascii positive inside)
        · have past := Nat.le_of_not_lt inside
          rw [List.length_append, String.length_utf8EncodeChar] at within
          rw [List.take_append, List.take_of_length_le past, List.append_assoc] at same
          have head : bytes ds = bytes [c] ++
              ((bytes cs).take (n - (String.utf8EncodeChar c).length) ++ b :: rest) := by
            rw [same, bytes_cons, bytes_nil, List.append_nil]
          rw [String.length_utf8EncodeChar] at head
          obtain ⟨more, -, tail⟩ := exists_append_of_bytes head
          obtain ⟨k, length_k⟩ := ih (by omega) tail
          refine ⟨k + 1, ?_⟩
          rw [List.take_succ_cons, bytes_cons, List.length_append, length_k,
            String.length_utf8EncodeChar]
          rw [String.length_utf8EncodeChar] at past
          omega

/-- At a boundary a cut keeps whole characters. -/
theorem take_bytes_of_boundary {n : ℕ} {cs : List Char} (boundary : Boundary n cs) :
    ∃ k, (bytes cs).take n = bytes (cs.take k) := by
  obtain ⟨k, rfl⟩ := boundary
  refine ⟨k, ?_⟩
  have whole : bytes cs = bytes (cs.take k) ++ bytes (cs.drop k) := by
    rw [← bytes_append, List.take_append_drop]
  rw [whole, List.take_left]

end Utf8
