import ScoutPulse.Lib.Strings

/-!
# Canonical decomposition

The normal form D of a text takes every character apart and puts the marks that follow a
starter in the order of their combining classes. Two texts are canonically equivalent when
they have one normal form.
-/

namespace Unicode

section Order

variable {ccc : Char → ℕ}

/-- A mark goes behind the marks of lower class that follow it. -/
def place (ccc : Char → ℕ) (c : Char) : List Char → List Char
  | [] => [c]
  | d :: rest => if 0 < ccc d ∧ ccc d < ccc c then d :: place ccc c rest else c :: d :: rest

/-- The canonical ordering of a text, by combining class. -/
def canonicalOrder (ccc : Char → ℕ) (cs : List Char) : List Char := cs.foldr (place ccc) []

/-- Two texts with the same characters, of which only marks have changed places with marks. -/
inductive Reordered (ccc : Char → ℕ) : List Char → List Char → Prop
  | nil : Reordered ccc [] []
  | cons (c : Char) {cs ds : List Char} (rest : Reordered ccc cs ds) :
      Reordered ccc (c :: cs) (c :: ds)
  | swap {c d : Char} (cs : List Char) (first : ccc c ≠ 0) (second : ccc d ≠ 0) :
      Reordered ccc (c :: d :: cs) (d :: c :: cs)
  | trans {cs ds es : List Char} (left : Reordered ccc cs ds) (right : Reordered ccc ds es) :
      Reordered ccc cs es

theorem Reordered.refl (cs : List Char) : Reordered ccc cs cs := by
  induction cs with
  | nil => exact .nil
  | cons c cs ih => exact .cons c ih

/-- Placing a character reorders only marks of different classes. -/
theorem place_reordered (c : Char) (cs : List Char) :
    Reordered ccc (place ccc c cs) (c :: cs) := by
  induction cs with
  | nil => exact .refl _
  | cons d cs ih =>
      rw [place]
      split_ifs with behind
      · exact .trans (.cons d ih) (.swap cs (by omega) (by omega))
      · exact .refl _

theorem canonicalOrder_reordered (ccc : Char → ℕ) (cs : List Char) :
    Reordered ccc (canonicalOrder ccc cs) cs := by
  induction cs with
  | nil => exact .nil
  | cons c cs ih => exact .trans (place_reordered c _) (.cons c ih)

end Order

/-- The tables agree with the decompositions and combining classes of Unicode, as far as the
letters of a text depend on them. -/
structure Canonical [Unicode] (decompose : Char → List Char) (ccc : Char → ℕ) : Prop where
  nfd_eq : ∀ s : String,
    nfd s = String.ofList (canonicalOrder ccc (s.toList.flatMap decompose))
  /-- What has a combining class is a mark. -/
  mark : ∀ c, ccc c ≠ 0 → isLetter c = false ∧ isDigit c = false ∧ toLower c = c
  /-- A mark is taken apart into marks. -/
  mark_decompose : ∀ c, ccc c ≠ 0 → ∀ d ∈ decompose c, ccc d ≠ 0
  /-- Taking apart and lower-casing may be exchanged, but for nonspacing marks. -/
  lower_decompose : ∀ c, (decompose (toLower c)).filter (!isMn ·) =
    ((decompose c).flatMap fun d => decompose (toLower d)).filter (!isMn ·)

end Unicode
