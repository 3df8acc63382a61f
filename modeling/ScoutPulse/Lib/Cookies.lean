import ScoutPulse.Lib.Strings
import Mathlib.Data.List.MinMax

/-!
# A browser's cookies

A jar holds at most one cookie of a name for each path it was set for. A request carries,
for each name, the cookies whose path its own matches and that have not expired, the one
with the longest path first, which is the one a server reads. Two cookies that are always
set and cleared together are therefore always read together.
-/

namespace Cookies

open Strings

structure Cookie (τ : Type*) where
  name : String
  value : String
  path : String
  expiresAt : τ

/-- Whether a cookie for a path goes along with a request. -/
def pathMatches (path request : String) : Bool :=
  path = request || (hasPrefix request path &&
    (path.toList.getLast? = some '/' || (request.toList.drop path.toList.length).head? = some '/'))

section Jar

variable {τ : Type*}

/-- The cookies but the one of a name and a path. -/
def clear (name path : String) (jar : List (Cookie τ)) : List (Cookie τ) :=
  jar.filter fun c => ¬ (c.name = name ∧ c.path = path)

/-- `Set-Cookie`. -/
def set (c : Cookie τ) (jar : List (Cookie τ)) : List (Cookie τ) :=
  c :: clear c.name c.path jar

/-- The cookies of a name that go along with a request. -/
def carried [LT τ] [DecidableLT τ] (name request : String) (now : τ) (jar : List (Cookie τ)) :
    List (Cookie τ) :=
  jar.filter fun c => c.name = name ∧ pathMatches c.path request = true ∧ now < c.expiresAt

/-- The cookie of a name that a server reads from a request. -/
def sent [LT τ] [DecidableLT τ] (name request : String) (now : τ) (jar : List (Cookie τ)) :
    Option (Cookie τ) :=
  (carried name request now jar).argmax fun c => c.path.toList.length

theorem mem_clear {name path : String} {jar : List (Cookie τ)} {c : Cookie τ} :
    c ∈ clear name path jar ↔ c ∈ jar ∧ ¬ (c.name = name ∧ c.path = path) := by
  rw [clear, List.mem_filter, decide_eq_true_eq]

theorem mem_set {jar : List (Cookie τ)} {c d : Cookie τ} :
    d ∈ set c jar ↔ d = c ∨ (d ∈ jar ∧ ¬ (d.name = c.name ∧ d.path = c.path)) := by
  rw [set, List.mem_cons, mem_clear]

end Jar

section Path

variable {path path' request : String}

/-- A path that matches is a prefix of the request's. -/
theorem prefix_of_pathMatches (fits : pathMatches path request = true) :
    path.toList <+: request.toList := by
  rw [pathMatches, Bool.or_eq_true, decide_eq_true_eq, Bool.and_eq_true, hasPrefix,
    List.isPrefixOf_iff_prefix] at fits
  rcases fits with rfl | ⟨head, -⟩
  · exact List.prefix_rfl
  · exact head

/-- Of the paths a request matches, one is as long as another only if it is the same. -/
theorem path_eq (fits : pathMatches path request = true) (fits' : pathMatches path' request = true)
    (long : path.toList.length = path'.toList.length) : path = path' :=
  String.toList_inj.mp <|
    (List.prefix_of_prefix_length_le (prefix_of_pathMatches fits) (prefix_of_pathMatches fits')
      long.le).eq_of_length long

/-- A request for something below a path matches it. -/
theorem pathMatches_below {rest : String} : pathMatches path (path ++ "/" ++ rest) = true := by
  simp [pathMatches, hasPrefix, String.toList_append, List.append_assoc]

end Path

section Sent

variable {τ : Type*} [LT τ] [DecidableLT τ] {jar : List (Cookie τ)} {c d : Cookie τ}
  {name request : String} {now : τ}

theorem mem_carried : c ∈ carried name request now jar ↔
    c ∈ jar ∧ c.name = name ∧ pathMatches c.path request = true ∧ now < c.expiresAt := by
  rw [carried, List.mem_filter, decide_eq_true_eq]

theorem mem_of_sent (read : sent name request now jar = some c) :
    c ∈ jar ∧ c.name = name ∧ pathMatches c.path request = true ∧ now < c.expiresAt :=
  mem_carried.mp (List.argmax_mem read)

/-- What else goes along has no longer path. -/
theorem length_le_of_sent (read : sent name request now jar = some c) (member : d ∈ jar)
    (named : d.name = name) (fits : pathMatches d.path request = true) (fresh : now < d.expiresAt) :
    d.path.toList.length ≤ c.path.toList.length :=
  List.le_of_mem_argmax (f := fun c : Cookie τ => c.path.toList.length)
    (mem_carried.mpr ⟨member, named, fits, fresh⟩) read

/-- The only cookie of its name is read until it expires. -/
theorem sent_eq_ite (member : c ∈ jar) (named : c.name = name)
    (fits : pathMatches c.path request = true) (only : ∀ d ∈ jar, d.name = name → d = c) :
    sent name request now jar = if now < c.expiresAt then some c else none := by
  cases read : sent name request now jar with
  | none =>
      have stale : ¬ now < c.expiresAt := by
        intro fresh
        have carries := mem_carried.mpr ⟨member, named, fits, fresh⟩
        rw [List.argmax_eq_none.mp read] at carries
        cases carries
      rw [if_neg stale]
  | some d =>
      obtain ⟨there, named, -, fresh⟩ := mem_of_sent read
      obtain rfl := only d there named
      rw [if_pos fresh]

end Sent

section Together

variable {τ : Type*} {a b : String} {R : String → String → τ → Prop} {jar : List (Cookie τ)}

/-- Every cookie of either of two names has one of the other beside it, whose value goes
with its own. -/
structure Together (a b : String) (R : String → String → τ → Prop) (jar : List (Cookie τ)) :
    Prop where
  unique : ∀ c ∈ jar, ∀ d ∈ jar, c.name = d.name → c.path = d.path → c = d
  left : ∀ c ∈ jar, c.name = a → ∃ d ∈ jar, d.name = b ∧ d.path = c.path ∧
    d.expiresAt = c.expiresAt ∧ R c.value d.value c.expiresAt
  right : ∀ d ∈ jar, d.name = b → ∃ c ∈ jar, c.name = a ∧ c.path = d.path ∧
    c.expiresAt = d.expiresAt

theorem together_nil : Together a b R [] :=
  ⟨by simp, by simp, by simp⟩

theorem Together.imp {R' : String → String → τ → Prop} (together : Together a b R jar)
    (weakens : ∀ {v w e}, R v w e → R' v w e) : Together a b R' jar := by
  refine ⟨together.unique, fun c member named => ?_, together.right⟩
  obtain ⟨d, beside, named', path, fits, goes⟩ := together.left c member named
  exact ⟨d, beside, named', path, fits, weakens goes⟩

/-- They are cleared together. -/
theorem Together.clear (together : Together a b R jar) (path : String) :
    Together a b R (clear b path (clear a path jar)) := by
  have kept : ∀ {c}, c ∈ Cookies.clear b path (Cookies.clear a path jar) ↔
      c ∈ jar ∧ ¬ (c.name = a ∧ c.path = path) ∧ ¬ (c.name = b ∧ c.path = path) := by
    intro c
    rw [mem_clear, mem_clear, and_assoc]
  refine ⟨?_, ?_, ?_⟩
  · intro c member d member'
    exact together.unique c (kept.mp member).1 d (kept.mp member').1
  · intro c member named
    obtain ⟨there, notLeft, -⟩ := kept.mp member
    obtain ⟨d, beside, named', same, fits, goes⟩ := together.left c there named
    have elsewhere : d.path ≠ path := fun at_ => notLeft ⟨named, same.symm.trans at_⟩
    exact ⟨d, kept.mpr ⟨beside, fun h => elsewhere h.2, fun h => elsewhere h.2⟩, named', same,
      fits, goes⟩
  · intro d member named
    obtain ⟨there, -, notRight⟩ := kept.mp member
    obtain ⟨c, beside, named', same, fits⟩ := together.right d there named
    have elsewhere : c.path ≠ path := fun at_ => notRight ⟨named, same.symm.trans at_⟩
    exact ⟨c, kept.mpr ⟨beside, fun h => elsewhere h.2, fun h => elsewhere h.2⟩, named', same,
      fits⟩

/-- They are set together. -/
theorem Together.set (together : Together a b R jar) (differ : a ≠ b) {v w path : String}
    {expiresAt : τ} (goes : R v w expiresAt) :
    Together a b R (set ⟨b, w, path, expiresAt⟩ (set ⟨a, v, path, expiresAt⟩ jar)) := by
  have cleared := together.clear path
  have parts : ∀ {c}, c ∈ Cookies.set ⟨b, w, path, expiresAt⟩
        (Cookies.set ⟨a, v, path, expiresAt⟩ jar) ↔
      c = ⟨b, w, path, expiresAt⟩ ∨ c = ⟨a, v, path, expiresAt⟩ ∨
        c ∈ Cookies.clear b path (Cookies.clear a path jar) := by
    intro c
    rw [mem_set, mem_set, mem_clear, mem_clear]
    constructor
    · rintro (new | ⟨new | old, other⟩)
      · exact .inl new
      · exact .inr (.inl new)
      · exact .inr (.inr ⟨old, other⟩)
    · rintro (new | new | ⟨old, other⟩)
      · exact .inl new
      · exact .inr ⟨.inl new, fun h => differ ((congrArg Cookie.name new).symm.trans h.1)⟩
      · exact .inr ⟨.inr old, other⟩
  have away : ∀ {c}, c ∈ Cookies.clear b path (Cookies.clear a path jar) → c.path = path →
      c.name ≠ a ∧ c.name ≠ b := by
    intro c member at_
    obtain ⟨inner, notRight⟩ := mem_clear.mp member
    exact ⟨fun named => (mem_clear.mp inner).2 ⟨named, at_⟩, fun named => notRight ⟨named, at_⟩⟩
  refine ⟨?_, ?_, ?_⟩
  · intro c member d member' named same
    rcases parts.mp member with rfl | rfl | old <;> rcases parts.mp member' with rfl | rfl | old'
    · rfl
    · exact absurd named.symm differ
    · exact absurd named.symm (away old' same.symm).2
    · exact absurd named differ
    · rfl
    · exact absurd named.symm (away old' same.symm).1
    · exact absurd named (away old same).2
    · exact absurd named (away old same).1
    · exact cleared.unique c old d old' named same
  · intro c member named
    rcases parts.mp member with rfl | rfl | old
    · exact absurd named.symm differ
    · exact ⟨_, parts.mpr (.inl rfl), rfl, rfl, rfl, goes⟩
    · obtain ⟨d, beside, rest⟩ := cleared.left c old named
      exact ⟨d, parts.mpr (.inr (.inr beside)), rest⟩
  · intro d member named
    rcases parts.mp member with rfl | rfl | old
    · exact ⟨_, parts.mpr (.inr (.inl rfl)), rfl, rfl, rfl⟩
    · exact absurd named differ
    · obtain ⟨c, beside, rest⟩ := cleared.right d old named
      exact ⟨c, parts.mpr (.inr (.inr beside)), rest⟩

/-- They are read together. -/
theorem Together.sent [LT τ] [DecidableLT τ] (together : Together a b R jar) {request : String}
    {now : τ} {c d : Cookie τ} (left : sent a request now jar = some c)
    (right : sent b request now jar = some d) :
    R c.value d.value c.expiresAt ∧ now < c.expiresAt := by
  obtain ⟨there, named, fits, fresh⟩ := mem_of_sent left
  obtain ⟨there', named', fits', fresh'⟩ := mem_of_sent right
  obtain ⟨e, beside, namedE, samePath, sameTime, goes⟩ := together.left c there named
  obtain ⟨f, beside', namedF, samePath', sameTime'⟩ := together.right d there' named'
  -- The partner of each goes along too, so neither path is the longer one.
  have shorter : c.path.toList.length ≤ d.path.toList.length := by
    rw [← samePath]
    exact length_le_of_sent right beside namedE (samePath ▸ fits) (sameTime ▸ fresh)
  have longer : d.path.toList.length ≤ c.path.toList.length := by
    rw [← samePath']
    exact length_le_of_sent left beside' namedF (samePath' ▸ fits') (sameTime' ▸ fresh')
  have path := path_eq fits fits' (Nat.le_antisymm shorter longer)
  have same : e = d :=
    together.unique e beside d there' (namedE.trans named'.symm) (samePath.trans path)
  exact ⟨same ▸ goes, fresh⟩

end Together

end Cookies
