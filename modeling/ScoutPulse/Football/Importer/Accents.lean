import ScoutPulse.Lib.Decomposition
import ScoutPulse.Football.Importer.Names
import Mathlib.Data.List.Basic

/-!
# Names and the encoding of their accents

A folded name is the sequence of its letters and digits, each with whether a gap precedes
it. A letter the table replaces is only replaced where it stands on its own: inside a
precomposed letter it stays. Two canonically equivalent names fold alike exactly when the
same ones of these letters stand on their own in both.
-/

namespace ScoutPulse.Importer

open Strings

attribute [local instance] Strings.decidableMem

/-! ## The letters of a text -/

section Letters

variable [Unicode] {α β : Type} {char : α → Char} {gap : Bool} {xs ys zs : List α}

/-- The letters and digits of a text, each with whether a gap precedes it. -/
def letters (char : α → Char) (gap : Bool) : List α → List (Bool × α)
  | [] => []
  | x :: xs =>
      if Unicode.isMn (char x) then letters char gap xs
      else if Unicode.isLetter (char x) || Unicode.isDigit (char x) then
        (gap, x) :: letters char false xs
      else letters char true xs

theorem letters_cons_of_letter {x : α} (letter : Unicode.isLetter (char x) = true)
    (notMark : Unicode.isMn (char x) = false) :
    letters char gap (x :: xs) = (gap, x) :: letters char false xs := by
  rw [letters, if_neg (by simp [notMark]), if_pos (by simp [letter])]

/-- The letters of a text that is mapped are those of the text. -/
theorem letters_map (f : β → α) (xs : List β) :
    letters char gap (xs.map f) =
      (letters (fun x => char (f x)) gap xs).map (Prod.map id f) := by
  induction xs generalizing gap with
  | nil => rfl
  | cons x xs ih =>
      rw [List.map_cons, letters, letters, ih, ih, ih]
      split_ifs <;> rfl

theorem letters_append_congr (same : ∀ gap, letters char gap xs = letters char gap ys) :
    letters char gap (zs ++ xs) = letters char gap (zs ++ ys) := by
  induction zs generalizing gap with
  | nil => exact same gap
  | cons z zs ih => rw [List.cons_append, List.cons_append, letters, letters, ih, ih, ih]

theorem mem_of_mem_letters {x : Bool × α} (member : x ∈ letters char gap xs) : x.2 ∈ xs := by
  induction xs generalizing gap with
  | nil => cases member
  | cons y xs ih =>
      rw [letters] at member
      split_ifs at member
      · exact List.mem_cons_of_mem _ (ih member)
      · obtain rfl | later := List.mem_cons.mp member
        · exact List.mem_cons_self
        · exact List.mem_cons_of_mem _ (ih later)
      · exact List.mem_cons_of_mem _ (ih member)

/-- Nonspacing marks do not count. -/
theorem letters_filter (xs : List α) :
    letters char gap (xs.filter fun x => !Unicode.isMn (char x)) = letters char gap xs := by
  induction xs generalizing gap with
  | nil => rfl
  | cons x xs ih =>
      by_cases mark : Unicode.isMn (char x) = true
      · rw [List.filter_cons_of_neg (by simp [mark]), letters, if_pos mark, ih]
      · rw [List.filter_cons_of_pos (by simp [mark]), letters, letters, ih, ih, ih]

/-- What is neither a letter nor a digit leaves a gap at most. -/
theorem letters_append_silent
    (silent : ∀ x ∈ xs, Unicode.isLetter (char x) = false ∧ Unicode.isDigit (char x) = false) :
    letters char gap (xs ++ ys) =
      letters char (gap || xs.any fun x => !Unicode.isMn (char x)) ys := by
  induction xs generalizing gap with
  | nil => rw [List.nil_append, List.any_nil, Bool.or_false]
  | cons x xs ih =>
      obtain ⟨⟨notLetter, notDigit⟩, rest⟩ := List.forall_mem_cons.mp silent
      rw [List.cons_append, letters, List.any_cons, notLetter, notDigit]
      by_cases mark : Unicode.isMn (char x) = true
      · rw [if_pos mark, ih rest, mark, Bool.not_true, Bool.false_or]
      · rw [if_neg mark, if_neg (by simp), ih rest]
        simp [mark]

end Letters

section Reordering

variable [Unicode] {decompose : Char → List Char} {ccc : Char → ℕ} {gap : Bool}

/-- Marks that change places do not change the letters of a text, however they are taken
apart. -/
theorem letters_reordered {f : Char → List Char}
    (silent : ∀ c, ccc c ≠ 0 → ∀ d ∈ f c,
      Unicode.isLetter (id d) = false ∧ Unicode.isDigit (id d) = false)
    {cs ds : List Char} (reordered : Unicode.Reordered ccc cs ds) :
    letters id gap (cs.flatMap f) = letters id gap (ds.flatMap f) := by
  induction reordered generalizing gap with
  | nil => rfl
  | cons c rest ih =>
      rw [List.flatMap_cons, List.flatMap_cons]
      exact letters_append_congr fun gap => ih
  | @swap c d cs first second =>
      simp only [List.flatMap_cons]
      rw [letters_append_silent (silent c first), letters_append_silent (silent d second),
        letters_append_silent (silent d second), letters_append_silent (silent c first),
        Bool.or_right_comm]
  | trans left right ihLeft ihRight => exact ihLeft.trans ihRight

/-- The letters of a text taken apart, in lower case. -/
def bases (decompose : Char → List Char) (cs : List Char) : List (Bool × Char) :=
  letters id false (cs.flatMap fun c => decompose (Unicode.toLower c))

/-- A text and its normal form have the same letters. -/
theorem bases_nfd (canonical : Unicode.Canonical decompose ccc) (s : String) :
    bases decompose (Unicode.nfd s).toList = bases decompose s.toList := by
  have lowered : ∀ c, ccc c ≠ 0 → ∀ d ∈ decompose (Unicode.toLower c),
      Unicode.isLetter d = false ∧ Unicode.isDigit d = false := by
    intro c mark d part
    rw [(canonical.mark c mark).2.2] at part
    have silent := canonical.mark d (canonical.mark_decompose c mark d part)
    exact ⟨silent.1, silent.2.1⟩
  have reordered := Unicode.canonicalOrder_reordered ccc (s.toList.flatMap decompose)
  rw [bases, canonical.nfd_eq, String.toList_ofList, letters_reordered lowered reordered, bases,
    ← letters_filter, ← letters_filter (s.toList.flatMap _), List.flatMap_assoc,
    List.filter_flatMap, List.filter_flatMap]
  refine congrArg (letters id false) (List.flatMap_congr fun c _ => ?_)
  exact (canonical.lower_decompose c).symm

/-- Canonically equivalent texts have the same letters. -/
theorem bases_of_equivalent (canonical : Unicode.Canonical decompose ccc) {s t : String}
    (equivalent : Unicode.nfd s = Unicode.nfd t) :
    bases decompose s.toList = bases decompose t.toList := by
  rw [← bases_nfd canonical s, ← bases_nfd canonical t, equivalent]

end Reordering

/-! ## Folding -/

/-- The letters `foldLetters` replaces. -/
def replaced : List Char := "øæßıłđœþð".toList

/-- A letter, and whether it stood on its own where the table replaces it. -/
def spelled (x : Char × Bool) : List Char := if x.2 then foldLetter x.1 else [x.1]

/-- The text a sequence of letters is folded to; `written` is whether one came before. -/
def render (written : Bool) : List (Bool × Char × Bool) → List Char
  | [] => []
  | (gap, x) :: rest => (if gap && written then [' '] else []) ++ spelled x ++ render true rest

/-- The letters the table replaces and those it replaces them by are letters that are not
taken apart. -/
def PlainLetters [Unicode] (decompose : Char → List Char) : Prop :=
  ∀ c ∈ replaced ++ "aedhilost".toList,
    decompose c = [c] ∧ Unicode.isLetter c = true ∧ Unicode.isMn c = false

theorem foldLetter_of_notMem {c : Char} (other : c ∉ replaced) : foldLetter c = [c] := by
  unfold foldLetter
  split <;> first | rfl | exact absurd (by decide) other

theorem mem_of_mem_foldLetter : ∀ c ∈ replaced, foldLetter c ≠ [] ∧ (foldLetter c).head? ≠ some c ∧
    ∀ d ∈ foldLetter c, d ∈ replaced ++ "aedhilost".toList := by decide

/-- A letter that is replaced is not written as itself. -/
theorem foldLetter_append_ne {c : Char} (special : c ∈ replaced) {xs ys : List Char} :
    foldLetter c ++ xs ≠ [c] ++ ys := by
  obtain ⟨nonempty, other, -⟩ := mem_of_mem_foldLetter c special
  intro same
  have heads := congrArg List.head? same
  rw [List.head?_append_of_ne_nil _ nonempty] at heads
  exact other heads

section Folding

variable [Unicode] {decompose : Char → List Char} {written gap : Bool}

/-- A word in front is written, and the rest after it. -/
theorem foldFrom_append {word rest : List Char} (nonempty : word ≠ [])
    (plain : ∀ c ∈ word, Unicode.isLetter c = true ∧ Unicode.isMn c = false) :
    foldFrom written gap (word ++ rest) =
      (if gap && written then [' '] else []) ++ word ++ foldFrom true false rest := by
  induction word generalizing written gap with
  | nil => exact absurd rfl nonempty
  | cons c word ih =>
      obtain ⟨⟨letter, notMark⟩, plain⟩ := List.forall_mem_cons.mp plain
      have step : foldFrom written gap (c :: (word ++ rest)) =
          (if gap && written then [' '] else []) ++ c :: foldFrom true false (word ++ rest) := by
        rw [foldFrom, if_neg (by simp [notMark]), if_pos (by simp [letter])]
        split_ifs <;> rfl
      rw [List.cons_append, step]
      by_cases last : word = []
      · subst last
        simp
      · rw [ih last plain]
        simp

/-- Folding a text writes its letters. -/
theorem foldFrom_spelled (plain : PlainLetters decompose) {xs : List (Char × Bool)}
    (own : ∀ x ∈ xs, x.2 = true → x.1 ∈ replaced) :
    foldFrom written gap (xs.flatMap spelled) = render written (letters Prod.fst gap xs) := by
  induction xs generalizing written gap with
  | nil => rfl
  | cons x xs ih =>
      obtain ⟨here, rest⟩ := List.forall_mem_cons.mp own
      obtain ⟨c, alone⟩ := x
      rw [List.flatMap_cons]
      cases alone with
      | true =>
          have special := here rfl
          obtain ⟨nonempty, -, among⟩ := mem_of_mem_foldLetter c special
          have letter := (plain c (List.mem_append_left _ special)).2
          rw [show spelled (c, true) = foldLetter c from rfl,
            foldFrom_append nonempty fun d part => (plain d (among d part)).2, ih rest,
            letters_cons_of_letter letter.1 letter.2]
          rfl
      | false =>
          rw [show spelled (c, false) = [c] from rfl, List.singleton_append, foldFrom, letters,
            ih rest, ih rest, ih rest]
          split_ifs with mark letter wide
          · rfl
          · rw [render, if_pos wide]
            rfl
          · rw [render, if_neg wide]
            rfl
          · rfl

end Folding

/-! ## Two encodings of a name -/

section Encodings

variable [Unicode] {decompose : Char → List Char} {ccc : Char → ℕ}

/-- What a lower-case letter is taken apart into before and after the replacement. -/
def tagRune (decompose : Char → List Char) (r : Char) : List (Char × Bool) :=
  if r ∈ replaced then [(r, true)] else (decompose r).map fun d => (d, false)

def tagged (decompose : Char → List Char) (s : String) : List (Char × Bool) :=
  (toLower s).toList.flatMap (tagRune decompose)

/-- For each letter the table replaces, in order, whether it stands on its own or inside a
precomposed letter. -/
def standing (decompose : Char → List Char) (s : String) : List Bool :=
  (toLower s).toList.flatMap fun r =>
    ((decompose r).filter (· ∈ replaced)).map fun _ => decide (r ∈ replaced)

omit [Unicode] in
/-- What is tagged as standing on its own is a letter that is replaced. -/
theorem tagRune_own {r : Char} : ∀ x ∈ tagRune decompose r, x.2 = true → x.1 ∈ replaced := by
  intro x member own
  unfold tagRune at member
  split_ifs at member with special
  · rw [List.mem_singleton.mp member]
    exact special
  · obtain ⟨d, -, rfl⟩ := List.mem_map.mp member
    cases own

/-- The letters that are tagged are those of the decomposition. -/
theorem map_fst_tagRune (plain : PlainLetters decompose) (r : Char) :
    (tagRune decompose r).map Prod.fst = decompose r := by
  unfold tagRune
  split_ifs with special
  · exact (plain r (List.mem_append_left _ special)).1.symm
  · rw [List.map_map]
    exact List.map_id _

/-- What is spelled of a letter is the decomposition of what it is replaced by. -/
theorem flatMap_spelled_tagRune (plain : PlainLetters decompose) (r : Char) :
    (tagRune decompose r).flatMap spelled = (foldLetter r).flatMap decompose := by
  unfold tagRune
  split_ifs with special
  · have among := (mem_of_mem_foldLetter r special).2.2
    calc [(r, true)].flatMap spelled = (foldLetter r).flatMap fun d => [d] := by
          rw [List.flatMap_singleton, List.flatMap_singleton']
          rfl
      _ = (foldLetter r).flatMap decompose :=
          List.flatMap_congr fun d part => (plain d (among d part)).1.symm
  · rw [foldLetter_of_notMem special, List.flatMap_singleton, List.flatMap_map]
    exact List.flatMap_singleton' _

/-- A folded text is written from its letters. -/
theorem fold_eq (canonical : Unicode.Canonical decompose ccc) (plain : PlainLetters decompose)
    (s : String) :
    fold s = String.ofList (render false (letters Prod.fst false (tagged decompose s))) := by
  have unmarked (cs : List Char) : foldFrom false false cs =
      render false ((letters id false cs).map (Prod.map id fun d => (d, false))) := by
    calc foldFrom false false cs
        = foldFrom false false ((cs.map fun d => (d, false)).flatMap spelled) := by
          rw [List.flatMap_map]
          exact congrArg _ (List.flatMap_singleton' cs).symm
      _ = render false (letters Prod.fst false (cs.map fun d => (d, false))) := by
          refine foldFrom_spelled plain fun x member own => ?_
          obtain ⟨d, -, rfl⟩ := List.mem_map.mp member
          cases own
      _ = _ := by
          rw [letters_map]
          rfl
  have silent : ∀ c, ccc c ≠ 0 → ∀ d ∈ [c],
      Unicode.isLetter (id d) = false ∧ Unicode.isDigit (id d) = false := by
    intro c mark d same
    rw [List.mem_singleton.mp same]
    exact ⟨(canonical.mark c mark).1, (canonical.mark c mark).2.1⟩
  have ordered (cs : List Char) : foldFrom false false (Unicode.canonicalOrder ccc cs) =
      foldFrom false false cs := by
    have same : letters id false _ = _ :=
      letters_reordered silent (Unicode.canonicalOrder_reordered ccc cs)
    rw [List.flatMap_singleton', List.flatMap_singleton'] at same
    rw [unmarked, unmarked, same]
  rw [fold, canonical.nfd_eq, String.toList_ofList, ordered, String.toList_ofList,
    List.flatMap_assoc]
  congr 1
  calc foldFrom false false ((toLower s).toList.flatMap fun r => (foldLetter r).flatMap decompose)
      = foldFrom false false ((tagged decompose s).flatMap spelled) := by
        rw [tagged, List.flatMap_assoc]
        exact congrArg _ (List.flatMap_congr fun r _ => (flatMap_spelled_tagRune plain r).symm)
    _ = _ := by
        refine foldFrom_spelled plain fun x member own => ?_
        obtain ⟨r, -, member⟩ := List.mem_flatMap.mp member
        exact tagRune_own x member own

/-- Without what became of them, the letters of a text are its letters in lower case. -/
theorem map_letters_tagged (plain : PlainLetters decompose) (s : String) :
    (letters Prod.fst false (tagged decompose s)).map (Prod.map id Prod.fst) =
      bases decompose s.toList := by
  have forgotten : letters id false ((tagged decompose s).map Prod.fst) = _ :=
    letters_map Prod.fst _
  rw [bases, ← show (tagged decompose s).map Prod.fst =
    s.toList.flatMap fun c => decompose (Unicode.toLower c) from ?_]
  · exact forgotten.symm
  · rw [tagged, toLower, String.toList_ofList, List.flatMap_map, List.map_flatMap]
    exact List.flatMap_congr fun c _ => map_fst_tagRune plain _

/-- What became of the letters the table replaces. -/
def fates (xs : List (Bool × Char × Bool)) : List Bool :=
  (xs.filter fun x => x.2.1 ∈ replaced).map (·.2.2)

omit [Unicode] in
theorem fates_cons (gap : Bool) (x : Char × Bool) (xs : List (Bool × Char × Bool)) :
    fates ((gap, x) :: xs) = if x.1 ∈ replaced then x.2 :: fates xs else fates xs := by
  unfold fates
  split_ifs with special
  · rw [List.filter_cons_of_pos (by simpa), List.map_cons]
  · rw [List.filter_cons_of_neg (by simpa)]

/-- Only the letters that are replaced have a fate. -/
theorem fates_letters (plain : PlainLetters decompose) {gap : Bool} (xs : List (Char × Bool)) :
    fates (letters Prod.fst gap xs) = (xs.filter fun x => x.1 ∈ replaced).map Prod.snd := by
  induction xs generalizing gap with
  | nil => rfl
  | cons x xs ih =>
      by_cases special : x.1 ∈ replaced
      · have letter := (plain x.1 (List.mem_append_left _ special)).2
        rw [letters_cons_of_letter letter.1 letter.2, List.filter_cons_of_pos (by simpa),
          List.map_cons, fates_cons, if_pos special, ih]
      · rw [List.filter_cons_of_neg (by simpa), letters]
        split_ifs
        · exact ih
        · rw [fates_cons, if_neg special]
          exact ih
        · exact ih

/-- The fates of a text are which of its letters stand on their own. -/
theorem fates_tagged (plain : PlainLetters decompose) (s : String) :
    fates (letters Prod.fst false (tagged decompose s)) = standing decompose s := by
  rw [fates_letters plain, tagged, List.filter_flatMap, List.map_flatMap, standing]
  refine List.flatMap_congr fun r _ => ?_
  unfold tagRune
  split_ifs with special
  · rw [(plain r (List.mem_append_left _ special)).1]
    simp [special]
  · rw [List.filter_map, List.map_map]
    simp [special, Function.comp_def]

end Encodings

/-- Texts with the same letters are alike only if the same of them were replaced. -/
theorem render_eq_iff {written : Bool} {xs ys : List (Bool × Char × Bool)}
    (ownXs : ∀ x ∈ xs, x.2.2 = true → x.2.1 ∈ replaced)
    (ownYs : ∀ y ∈ ys, y.2.2 = true → y.2.1 ∈ replaced)
    (same : xs.map (Prod.map id Prod.fst) = ys.map (Prod.map id Prod.fst)) :
    render written xs = render written ys ↔ fates xs = fates ys := by
  induction xs generalizing ys written with
  | nil =>
      obtain rfl : ys = [] := List.map_eq_nil_iff.mp same.symm
      exact iff_of_true rfl rfl
  | cons x xs ih =>
      obtain ⟨y, ys, rfl⟩ := List.exists_cons_of_ne_nil (l := ys) (by rintro rfl; cases same)
      obtain ⟨gap, c, own⟩ := x
      obtain ⟨gap', c', own'⟩ := y
      obtain ⟨hereX, restX⟩ := List.forall_mem_cons.mp ownXs
      obtain ⟨hereY, restY⟩ := List.forall_mem_cons.mp ownYs
      obtain ⟨head, tail⟩ := List.cons.inj same
      obtain ⟨rfl, rfl⟩ := Prod.mk.inj head
      have later : render true xs = render true ys ↔ fates xs = fates ys := ih restX restY tail
      simp only [render, List.append_assoc, List.append_cancel_left_eq, id_eq, fates_cons]
      by_cases alike : own = own'
      · subst alike
        rw [List.append_cancel_left_eq, later]
        split_ifs
        · exact (List.cons_eq_cons.trans (and_iff_right rfl)).symm
        · exact Iff.rfl
      · -- One of the two was replaced: their first letters differ.
        have special : c ∈ replaced := by
          cases own with
          | true => exact hereX rfl
          | false =>
              cases own' with
              | true => exact hereY rfl
              | false => exact absurd rfl alike
        rw [if_pos special, if_pos special]
        refine iff_of_false (fun together => ?_) fun together => alike (List.cons.inj together).1
        cases own with
        | true =>
            cases own' with
            | true => exact alike rfl
            | false => exact foldLetter_append_ne special together
        | false =>
            cases own' with
            | true => exact foldLetter_append_ne special together.symm
            | false => exact alike rfl

/-- **Accents.** Two canonically equivalent names fold alike exactly when the same letters of
those the table replaces stand on their own in both. -/
theorem fold_eq_iff [Unicode] {decompose : Char → List Char} {ccc : Char → ℕ}
    (canonical : Unicode.Canonical decompose ccc) (plain : PlainLetters decompose) {s t : String}
    (equivalent : Unicode.nfd s = Unicode.nfd t) :
    fold s = fold t ↔ standing decompose s = standing decompose t := by
  have own (s : String) : ∀ x ∈ letters Prod.fst false (tagged decompose s),
      x.2.2 = true → x.2.1 ∈ replaced := by
    intro x member
    obtain ⟨r, -, part⟩ := List.mem_flatMap.mp (mem_of_mem_letters member)
    exact tagRune_own x.2 part
  have same : (letters Prod.fst false (tagged decompose s)).map (Prod.map id Prod.fst) =
      (letters Prod.fst false (tagged decompose t)).map (Prod.map id Prod.fst) := by
    rw [map_letters_tagged plain, map_letters_tagged plain,
      bases_of_equivalent canonical equivalent]
  rw [fold_eq canonical plain, fold_eq canonical plain, String.ofList_inj,
    render_eq_iff (own s) (own t) same, fates_tagged plain, fates_tagged plain]

/-! ## An accent on a letter the table replaces -/

/-- Latin letters, and four of them with an acute accent taken apart. -/
def acute : Char → List Char
  | 'é' => ['e', '\u0301']
  | 'É' => ['E', '\u0301']
  | 'ǿ' => ['ø', '\u0301']
  | 'Ǿ' => ['Ø', '\u0301']
  | c => [c]

def acuteClass (c : Char) : ℕ := if c = '\u0301' then 230 else 0

@[reducible]
def acuteTables : Unicode :=
  { Unicode.ascii with
    toLower := fun
      | 'É' => 'é'
      | 'Ø' => 'ø'
      | 'Ǿ' => 'ǿ'
      | c => c.toLower
    isLetter := fun c => Unicode.asciiLetter c || c ∈ replaced || c ∈ "ØéÉǿǾ".toList
    isMn := fun c => c = '\u0301'
    nfd := fun s => String.ofList (Unicode.canonicalOrder acuteClass (s.toList.flatMap acute)) }

theorem acuteTables_canonical :
    let _ := acuteTables
    Unicode.Canonical acute acuteClass ∧ PlainLetters acute := by
  intro _
  have mark {c : Char} (class_ : acuteClass c ≠ 0) : c = '\u0301' := by
    by_contra other
    exact class_ (if_neg other)
  refine ⟨⟨fun _ => rfl, fun c class_ => ?_, fun c class_ => ?_, fun c => ?_⟩,
    by unfold PlainLetters; decide⟩
  · obtain rfl := mark class_
    decide
  · obtain rfl := mark class_
    decide
  · by_cases whole : acute c = [c]
    · rw [whole, List.flatMap_singleton]
    · unfold acute at whole
      split at whole
      · decide
      · decide
      · decide
      · decide
      · exact absurd rfl whole

/-- A text with an acute accent is folded the same either way. -/
theorem fold_eq_iff_acute :
    let _ := acuteTables
    fold "Atlético" = fold "Atle\u0301tico" := by
  intro _
  exact (fold_eq_iff acuteTables_canonical.1 acuteTables_canonical.2 (by decide)).mpr (by decide)

/-- An accent on a letter that the table replaces keeps it when it is part of the letter. -/
theorem fold_precomposed :
    let _ := acuteTables
    (Unicode.Canonical acute acuteClass ∧ PlainLetters acute) ∧
      (¬ ∀ s t, Unicode.nfd s = Unicode.nfd t → fold s = fold t) ∧
      fold "ǿ" = "ø" ∧ fold "ø\u0301" = "o" := by
  intro _
  refine ⟨acuteTables_canonical, fun alike => ?_, by decide, by decide⟩
  exact absurd (alike "ǿ" "ø\u0301" (by decide)) (by decide)

end ScoutPulse.Importer
