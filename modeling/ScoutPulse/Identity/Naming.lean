import ScoutPulse.Identity.Accounts

/-!
# The user name of a provider's account

`availableUsername` makes a name of what a provider says of a person and tries it, then
the same name with random letters at its end. What is shown is which name it returns, and
when the rules for user names accept that name.
-/

open Outcome

namespace ScoutPulse.Identity.Accounts

open Strings Unicode

attribute [local instance] Strings.decidableMem

/-- The letters of base64 for addresses. -/
def tokenAlphabet : String := "ABCDEFGHIJKLMNOPQRSTUVWXYZabcdefghijklmnopqrstuvwxyz0123456789-_"

/-- What `NewRefreshToken` can give: thirty-two random bytes, written in base64. -/
structure RandomToken where
  text : String
  length : text.toList.length = 43
  drawn : ∀ c ∈ text.toList, c ∈ tokenAlphabet.toList

/-- What `GetByIdentifier` answers. -/
inductive Lookup
  | found
  | notFound
  | failed (reason : AppErr)

section Names

variable [Unicode]

/-- The attempts that are left, the next of them the `attempt`-th, at a candidate. -/
def allocate (lookup : String → Lookup) (draws : ℕ → Option RandomToken) (base : String) :
    ℕ → ℕ → String → Except AppErr String
  | 0, _, _ => .error ⟨.internal, "could not allocate a username"⟩
  | left + 1, attempt, candidate =>
      match lookup candidate with
      | .notFound => .ok candidate
      | .failed reason => .error reason
      | .found =>
          match draws attempt with
          | none => .error .internal
          | some token =>
              allocate lookup draws base left (attempt + 1) (suffixed base token.text)

/-- `availableUsername`, where `draws` are the answers of `NewRefreshToken`. -/
def availableUsername (lookup : String → Lookup) (draws : ℕ → Option RandomToken)
    (profile : Profile) : Except AppErr String :=
  allocate lookup draws (baseUsername profile) 5 0 (baseUsername profile)

/-! ## Which name is returned -/

/-- The `k`-th name tried, when its letters could be drawn. -/
def candidate (draws : ℕ → Option RandomToken) (base : String) : ℕ → Option String
  | 0 => some base
  | k + 1 => (draws k).map fun token => suffixed base token.text

/-- All names before the `k`-th are taken. -/
def Reached (lookup : String → Lookup) (draws : ℕ → Option RandomToken) (base : String)
    (k : ℕ) : Prop :=
  ∀ j < k, ∃ name, candidate draws base j = some name ∧ lookup name = .found

/-- The name allocated is the first candidate that is free, and all before it were taken. -/
theorem allocate_eq_ok_iff {lookup : String → Lookup} {draws : ℕ → Option RandomToken}
    {base name first : String} {left attempt : ℕ}
    (current : candidate draws base attempt = some first) :
    allocate lookup draws base left attempt first = .ok name ↔
      ∃ k, attempt ≤ k ∧ k < attempt + left ∧
        (∀ j, attempt ≤ j → j < k →
          ∃ other, candidate draws base j = some other ∧ lookup other = .found) ∧
        candidate draws base k = some name ∧ lookup name = .notFound := by
  induction left generalizing attempt first with
  | zero =>
      constructor
      · intro returned
        cases returned
      · rintro ⟨k, above, below, -⟩
        omega
  | succ left ih =>
      -- The first name decides, or the search goes on behind it.
      have behind : ∀ {k}, attempt ≤ k → candidate draws base k = some name →
          lookup name = .notFound → lookup first ≠ .notFound → attempt + 1 ≤ k := by
        intro k above this free other
        rcases Nat.eq_or_lt_of_le above with rfl | later
        · rw [current] at this
          rw [Option.some.inj this] at other
          exact absurd free other
        · exact later
      rw [allocate]
      cases answer : lookup first with
      | notFound =>
          constructor
          · intro returned
            obtain rfl := Except.ok.inj returned
            exact ⟨attempt, le_rfl, by omega, fun j _ _ => by omega, current, answer⟩
          · rintro ⟨k, above, below, taken, this, free⟩
            rcases Nat.eq_or_lt_of_le above with rfl | later
            · rw [current] at this
              rw [Option.some.inj this]
            · obtain ⟨other, is_first, found⟩ := taken attempt le_rfl later
              rw [current] at is_first
              rw [← Option.some.inj is_first, answer] at found
              cases found
      | failed reason =>
          constructor
          · intro returned
            cases returned
          · rintro ⟨k, above, below, taken, this, free⟩
            have later := behind above this free (by simp [answer])
            obtain ⟨other, is_first, found⟩ := taken attempt le_rfl later
            rw [current] at is_first
            rw [← Option.some.inj is_first, answer] at found
            cases found
      | found =>
          cases drawn : draws attempt with
          | none =>
              constructor
              · intro returned
                cases returned
              · rintro ⟨k, above, below, taken, this, free⟩
                have later := behind above this free (by simp [answer])
                have next : candidate draws base (attempt + 1) = none := by
                  rw [candidate, drawn]
                  rfl
                rcases Nat.eq_or_lt_of_le later with rfl | beyond
                · rw [next] at this
                  cases this
                · obtain ⟨other, is_next, -⟩ := taken (attempt + 1) (by omega) beyond
                  rw [next] at is_next
                  cases is_next
          | some token =>
              have next : candidate draws base (attempt + 1) =
                  some (suffixed base token.text) := by
                rw [candidate, drawn]
                rfl
              rw [ih next]
              constructor
              · rintro ⟨k, above, below, taken, this, free⟩
                refine ⟨k, by omega, by omega, fun j above before => ?_, this, free⟩
                rcases Nat.eq_or_lt_of_le above with rfl | later
                · exact ⟨first, current, answer⟩
                · exact taken j later before
              · rintro ⟨k, above, below, taken, this, free⟩
                have later := behind above this free (by simp [answer])
                exact ⟨k, later, by omega, fun j above before => taken j (by omega) before, this,
                  free⟩

/-- The name returned is the first of five that is not taken. -/
theorem availableUsername_eq_ok_iff {lookup : String → Lookup} {draws : ℕ → Option RandomToken}
    {profile : Profile} {name : String} :
    availableUsername lookup draws profile = .ok name ↔
      ∃ k < 5, Reached lookup draws (baseUsername profile) k ∧
        candidate draws (baseUsername profile) k = some name ∧ lookup name = .notFound := by
  rw [availableUsername, allocate_eq_ok_iff rfl]
  constructor
  · rintro ⟨k, -, below, taken, this, free⟩
    exact ⟨k, by omega, fun j before => taken j (Nat.zero_le j) before, this, free⟩
  · rintro ⟨k, below, taken, this, free⟩
    exact ⟨k, Nat.zero_le k, by omega, fun j _ before => taken j before, this, free⟩

/-! ## What the rules for user names say of it -/

/-- The runes of the names tried. -/
def NameRune (c : Char) : Prop :=
  ('a' ≤ c ∧ c ≤ 'z') ∨ ('0' ≤ c ∧ c ≤ '9') ∨ c = '-' ∨ c = '_'

instance (c : Char) : Decidable (NameRune c) :=
  inferInstanceAs (Decidable (_ ∨ _ ∨ _ ∨ _))

omit [Unicode] in
/-- What is true of the first 128 runes is true of each rune of a name. -/
theorem NameRune.of_ascii {c : Char} (rune : NameRune c) (holds : Char → Prop)
    (all : ∀ n < 128, NameRune (Char.ofNat n) → holds (Char.ofNat n)) : holds c := by
  have below : c.toNat < 128 := by
    rcases rune with ⟨-, high⟩ | ⟨-, high⟩ | rfl | rfl
    · exact Nat.lt_of_le_of_lt (Char.le_def.mp high) (by decide)
    · exact Nat.lt_of_le_of_lt (Char.le_def.mp high) (by decide)
    · decide
    · decide
  have at_c := all c.toNat below
  rw [Char.ofNat_toNat] at at_c
  exact at_c rune

omit [Unicode] in
theorem NameRune.ascii {c : Char} (rune : NameRune c) :
    c.toNat < 128 ∧ isSpace c = false ∧
      (asciiLetter c || c.isDigit || c = '-' || c = '_') = true :=
  rune.of_ascii (fun c => c.toNat < 128 ∧ isSpace c = false ∧
    (asciiLetter c || c.isDigit || c = '-' || c = '_') = true) (by decide)

theorem NameRune.isUsernameRune (tables : OnAscii) {c : Char} (rune : NameRune c) :
    Validate.isUsernameRune c = true := by
  obtain ⟨below, -, plain⟩ := rune.ascii
  rw [Validate.isUsernameRune, tables.letter c below, tables.digit c below]
  simp only [Bool.or_eq_true] at plain ⊢
  tauto

/-- A name of such runes is accepted by its length and its ends. -/
theorem username_eq_ok_iff (tables : OnAscii) {name : String}
    (runes : ∀ c ∈ name.toList, NameRune c) :
    Validate.username name = .ok name ↔
      3 ≤ runeCount name ∧ runeCount name ≤ 32 ∧
        name.toList.head?.any Validate.separator = false ∧
        name.toList.getLast?.any Validate.separator = false := by
  have solid : trimSpace name = name :=
    trimSpace_eq_self fun c member => (runes c member).ascii.2.1
  have allowed : name.toList.all Validate.isUsernameRune = true :=
    List.all_eq_true.mpr fun c member => (runes c member).isUsernameRune tables
  rw [Validate.username, solid]
  simp only [guard_ok_iff, pure_ok_iff, allowed, Validate.minUsernameLength,
    Validate.maxUsernameLength, not_or, Nat.not_lt, Bool.not_eq_true, and_true]
  constructor
  · rintro ⟨-, ⟨long, short⟩, -, first, last⟩
    exact ⟨long, short, first, last⟩
  · rintro ⟨long, short, first, last⟩
    refine ⟨?_, ⟨long, short⟩, by simp, first, last⟩
    rintro rfl
    exact absurd long (by decide)

/-! ## The names that are tried -/

/-- What is known of the name tried first. -/
structure Base (base : String) : Prop where
  nonempty : base ≠ ""
  runes : ∀ c ∈ base.toList, NameRune c ∧ c ≠ '_'
  first : base.toList.head? ≠ some '-'
  short : runeCount base ≤ 32

omit [Unicode] in
/-- A character that is kept becomes one that may stand in a name, and no underscore. -/
theorem usernameRune_spec {c d : Char} (kept : usernameRune c = some d) :
    NameRune d ∧ d ≠ '_' := by
  rw [usernameRune] at kept
  split_ifs at kept with plain separator
  · obtain rfl := Option.some.inj kept
    refine ⟨plain.elim .inl (fun digit => .inr (.inl digit)), ?_⟩
    rintro rfl
    exact absurd plain (by decide)
  · obtain rfl := Option.some.inj kept
    exact ⟨by decide, by decide⟩

/-- A sanitised name is a first name to try unless nothing is left of it. -/
theorem sanitiseUsername_base {s : String} (some_ : sanitiseUsername s ≠ "") :
    Base (sanitiseUsername s) := by
  let runes := (toLower (trimSpace s)).toList.filterMap usernameRune
  let trimmed := trimRightFunc (· = '-') (runes.dropWhile (· = '-'))
  have whole : (sanitiseUsername s).toList = trimmed.take 32 := by
    rw [sanitiseUsername, String.toList_ofList]
  have front : trimmed <+: runes.dropWhile (· = '-') := trimRightFunc_prefix _ _
  refine ⟨some_, ?_, ?_, ?_⟩
  · intro c member
    rw [whole] at member
    have kept : c ∈ runes :=
      (List.dropWhile_sublist _).mem (front.mem (List.mem_of_mem_take member))
    obtain ⟨r, -, kept⟩ := List.mem_filterMap.mp kept
    exact usernameRune_spec kept
  · rw [whole, List.head?_take, if_neg (by decide)]
    intro first
    have kept := head?_trim first
    cases kept
  · rw [runeCount, ← String.length_toList, whole]
    exact List.length_take_le _ _

/-- The name made of a profile is a base. -/
theorem baseUsername_base (profile : Profile) : Base (baseUsername profile) := by
  rw [baseUsername]
  split_ifs with unnamed unknown
  · exact ⟨by decide, by decide, by decide, by decide⟩
  · exact sanitiseUsername_base unknown
  · exact ⟨by decide, by decide, by decide, by decide⟩
  · rename_i some_
    exact sanitiseUsername_base some_

/-- A letter of a token, in lower case. -/
theorem lower_of_drawn (tables : OnAscii) {c : Char} (drawn : c ∈ tokenAlphabet.toList) :
    NameRune (Unicode.toLower c) ∧
      (Validate.separator (Unicode.toLower c) = true ↔ c = '-' ∨ c = '_') := by
  have all : ∀ d ∈ tokenAlphabet.toList, d.toNat < 128 ∧ NameRune d.toLower ∧
      (Validate.separator d.toLower = true ↔ d = '-' ∨ d = '_') := by decide
  obtain ⟨below, rune⟩ := all c drawn
  rw [tables.lower c below]
  exact rune

theorem suffixed_toList (base token : String) :
    (suffixed base token).toList =
      base.toList ++ '-' :: (token.toList.take 6).map Unicode.toLower := by
  rw [suffixed, String.toList_append, String.toList_append, List.append_assoc, Strings.toLower,
    String.toList_ofList, String.toList_ofList, String.toList_ofList, List.singleton_append]

/-- A suffix adds seven characters. -/
theorem length_suffixed (base : String) (token : RandomToken) :
    runeCount (suffixed base token.text) = runeCount base + 7 := by
  have six : (token.text.toList.take 6).length = 6 := by
    rw [List.length_take, token.length]
    decide
  rw [runeCount, ← String.length_toList, suffixed_toList, List.length_append, List.length_cons,
    List.length_map, six, String.length_toList]
  rfl

theorem runes_suffixed (tables : OnAscii) {base : String} (known : Base base)
    (token : RandomToken) : ∀ c ∈ (suffixed base token.text).toList, NameRune c := by
  rw [suffixed_toList, List.forall_mem_append, List.forall_mem_cons]
  refine ⟨fun c member => (known.runes c member).1, by decide, fun c member => ?_⟩
  obtain ⟨d, taken, rfl⟩ := List.mem_map.mp member
  exact (lower_of_drawn tables (token.drawn d (List.mem_of_mem_take taken))).1

/-- The last letter of a name with random letters is the sixth of them. -/
theorem getLast?_suffixed (base : String) (token : RandomToken) :
    (suffixed base token.text).toList.getLast? =
      token.text.toList[5]?.map Unicode.toLower := by
  have six : ((token.text.toList.take 6).map Unicode.toLower).length = 6 := by
    rw [List.length_map, List.length_take, token.length]
    decide
  rw [suffixed_toList, List.getLast?_append, List.getLast?_cons, List.getLast?_eq_getElem?, six,
    List.getElem?_map, List.getElem?_take, if_pos (by decide)]
  have inside : 5 < token.text.toList.length := by
    rw [token.length]
    decide
  rw [List.getElem?_eq_getElem inside]
  rfl

omit [Unicode] in
/-- The only separator of a name tried first is the hyphen. -/
theorem Base.separator_eq {base : String} (known : Base base) {c : Char}
    (member : c ∈ base.toList) : Validate.separator c = decide (c = '-') := by
  obtain ⟨rune, other⟩ := known.runes c member
  have only : Validate.separator c = true → c ≠ '_' → c = '-' :=
    rune.of_ascii (fun c => Validate.separator c = true → c ≠ '_' → c = '-') (by decide)
  by_cases hyphen : c = '-'
  · subst hyphen
    rfl
  · rw [decide_eq_false hyphen, ← Bool.not_eq_true]
    exact fun separates => hyphen (only separates other)

omit [Unicode] in
/-- A base begins and ends with no separator where it does so with no dash. -/
theorem Base.any_separator {base : String} (known : Base base) {end_ : Option Char}
    (member : ∀ c, end_ = some c → c ∈ base.toList) :
    end_.any Validate.separator = false ↔ end_ ≠ some '-' := by
  cases end_ with
  | none => simp
  | some c =>
      rw [Option.any_some, known.separator_eq (member c rfl), decide_eq_false_iff_not, ne_eq,
        Option.some_inj]

/-- The rules accept the first name exactly when it is long enough and was not cut behind
a hyphen. -/
theorem username_base_iff (tables : OnAscii) {base : String} (known : Base base) :
    Validate.username base = .ok base ↔
      3 ≤ runeCount base ∧ base.toList.getLast? ≠ some '-' := by
  have first := (known.any_separator fun c => List.mem_of_mem_head?).mpr known.first
  rw [username_eq_ok_iff tables fun c member => (known.runes c member).1,
    known.any_separator fun c => List.mem_of_getLast?]
  have short := known.short
  tauto

/-- The rules accept a name with random letters exactly when there is room for these and
the last of them is no separator. -/
theorem username_suffixed_iff (tables : OnAscii) {base : String} (known : Base base)
    (token : RandomToken) :
    Validate.username (suffixed base token.text) = .ok (suffixed base token.text) ↔
      runeCount base ≤ 25 ∧ token.text.toList[5]? ≠ some '-' ∧
        token.text.toList[5]? ≠ some '_' := by
  have first : (suffixed base token.text).toList.head?.any Validate.separator = false := by
    have begins : base.toList.head? ≠ none := by
      rw [ne_eq, List.head?_eq_none_iff, String.toList_eq_nil_iff]
      exact known.nonempty
    obtain ⟨c, head⟩ := Option.ne_none_iff_exists'.mp begins
    have same : (suffixed base token.text).toList.head? = base.toList.head? := by
      rw [suffixed_toList, List.head?_append, head]
      rfl
    rw [same]
    exact (known.any_separator fun c => List.mem_of_mem_head?).mpr known.first
  have last : (suffixed base token.text).toList.getLast?.any Validate.separator = false ↔
      token.text.toList[5]? ≠ some '-' ∧ token.text.toList[5]? ≠ some '_' := by
    have inside : 5 < token.text.toList.length := by
      rw [token.length]
      decide
    have drawn := token.drawn _ (List.getElem_mem inside)
    rw [getLast?_suffixed, List.getElem?_eq_getElem inside, Option.map_some, Option.any_some,
      ← Bool.not_eq_true, (lower_of_drawn tables drawn).2, not_or, ne_eq, ne_eq, Option.some_inj,
      Option.some_inj]
  rw [username_eq_ok_iff tables (runes_suffixed tables known token), last, length_suffixed]
  constructor
  · rintro ⟨-, room, -, letter⟩
    exact ⟨by omega, letter⟩
  · rintro ⟨room, letter⟩
    have some_ : runeCount base ≠ 0 := by
      rw [runeCount, ← String.length_toList, ne_eq, List.length_eq_zero_iff,
        String.toList_eq_nil_iff]
      exact known.nonempty
    exact ⟨by omega, by omega, first, letter⟩

/-- When the name returned is one the rules accept: the first name tried is, if nobody
has it, or there is room for random letters after it and the last of these is a letter or
a digit. -/
structure Proper (lookup : String → Lookup) (draws : ℕ → Option RandomToken)
    (base : String) : Prop where
  plain : lookup base = .notFound → 3 ≤ runeCount base ∧ base.toList.getLast? ≠ some '-'
  random : ∀ k < 4, ∀ token, draws k = some token → Reached lookup draws base (k + 1) →
    lookup (suffixed base token.text) = .notFound →
      runeCount base ≤ 25 ∧ token.text.toList[5]? ≠ some '-' ∧ token.text.toList[5]? ≠ some '_'

/-- Whatever name is returned is free and keeps the rules for user names, exactly when the
name found for the profile is proper. -/
theorem availableUsername_valid_iff (tables : OnAscii) (lookup : String → Lookup)
    (draws : ℕ → Option RandomToken) (profile : Profile) :
    (∀ name, availableUsername lookup draws profile = .ok name →
        Validate.username name = .ok name ∧ lookup name = .notFound) ↔
      Proper lookup draws (baseUsername profile) := by
  have known := baseUsername_base profile
  constructor
  · intro valid
    refine ⟨fun free => ?_, fun k below token drawn reached free => ?_⟩
    · have returned : availableUsername lookup draws profile = .ok (baseUsername profile) :=
        availableUsername_eq_ok_iff.mpr ⟨0, by decide, fun j before => by omega, rfl, free⟩
      exact (username_base_iff tables known).mp (valid _ returned).1
    · have tried : candidate draws (baseUsername profile) (k + 1) =
          some (suffixed (baseUsername profile) token.text) := by
        rw [candidate, drawn]
        rfl
      have returned := availableUsername_eq_ok_iff.mpr ⟨k + 1, by omega, reached, tried, free⟩
      exact (username_suffixed_iff tables known token).mp (valid _ returned).1
  · intro proper name returned
    obtain ⟨k, below, reached, tried, free⟩ := availableUsername_eq_ok_iff.mp returned
    refine ⟨?_, free⟩
    cases k with
    | zero =>
        obtain rfl := Option.some.inj tried
        exact (username_base_iff tables known).mpr (proper.plain free)
    | succ k =>
        obtain ⟨token, drawn, rfl⟩ := Option.map_eq_some_iff.mp tried
        exact (username_suffixed_iff tables known token).mpr
          (proper.random k (by omega) token drawn reached free)

end Names

/-- A name of three letters that nobody has. -/
theorem availableUsername_valid_iff_ali :
    let _ := ascii
    ∀ name, availableUsername (fun _ => .notFound) (fun _ => none) ⟨"1", "", false, "Ali"⟩ =
      .ok name → Validate.username name = .ok name ∧ Lookup.notFound = .notFound :=
  let _ := ascii
  (availableUsername_valid_iff ascii_onAscii (fun _ => .notFound) (fun _ => none)
    ⟨"1", "", false, "Ali"⟩).mpr
    ⟨fun _ => by decide +kernel, fun _ _ _ drawn => by cases drawn⟩

/-- A person of two letters gets a name of two letters, which the rules refuse. -/
theorem availableUsername_short :
    let _ := ascii
    availableUsername (fun _ => .notFound) (fun _ => none) ⟨"1", "", false, "Al"⟩ = .ok "al" ∧
      Validate.username "al" =
        .error (.invalid "username must be between 3 and 32 characters") := by
  decide +kernel

end ScoutPulse.Identity.Accounts
