import ScoutPulse.Football.Article.Desk
import ScoutPulse.Football.Paging
import ScoutPulse.Lib.Words

/-!
# Tags

The service normalises the tags of an article when it is written, and the tag a reader asks
for when live articles are listed. A stored tag is found when normalising leaves it alone.
-/

namespace ScoutPulse.Articles

open Strings Loops Paging
open Unicode (isSpace OnAscii)

/-! ## Lists of live articles -/

/-- `domain.ArticleSummary`: an article without its body, for lists. -/
structure ArticleSummary where
  id : String
  slug : String
  authorID : String
  authorName : String
  title : String
  subtitle : String
  coverURL : String
  excerpt : String
  readingMinutes : ℕ
  tags : List String
  status : ArticleStatus
  publishAt : Option Time
  submittedAt : Option Time
  reviewNote : String
  deriving DecidableEq

def Article.summary (a : Article) : ArticleSummary where
  id := a.id
  slug := a.slug
  authorID := a.authorID
  authorName := a.authorName
  title := a.title
  subtitle := a.subtitle
  coverURL := a.coverURL
  excerpt := a.excerpt
  readingMinutes := a.readingMinutes
  tags := a.tags
  status := a.status
  publishAt := a.publishAt
  submittedAt := a.submittedAt
  reviewNote := a.reviewNote

/-- What a reader sees of an article in a list. -/
def Article.listed (a : Article) : ArticleSummary :=
  { a.summary with reviewNote := "", submittedAt := none }

/-- `ORDER BY publish_at DESC, id`, of rows that have a date. -/
def newestFirst (a b : Article) : Bool :=
  if a.publishAt = b.publishAt then a.id ≤ b.id
  else decide (b.publishAt.getD 0 < a.publishAt.getD 0)

/-! ## Marks -/

variable {raw : String}

theorem trimPrefix_of_mark {s : String} {rest : List Char} (marked : s.toList = '#' :: rest) :
    (trimPrefix s "#").toList = rest := by
  have has : hasPrefix s "#" = true := by
    rw [hasPrefix, marked]
    rfl
  rw [trimPrefix, if_pos has, String.toList_ofList, marked]
  rfl

theorem trimPrefix_of_unmarked {s : String} (unmarked : s.toList.head? ≠ some '#') :
    trimPrefix s "#" = s := by
  have hasNot : ¬ hasPrefix s "#" = true := by
    rw [hasPrefix, List.isPrefixOf_iff_prefix]
    rintro ⟨rest, whole⟩
    rw [← whole] at unmarked
    exact unmarked rfl
  rw [trimPrefix, if_neg hasNot]

/-- A tag with two marks in front: only one is taken off. -/
def Doubled (raw : String) : Prop :=
  ∃ before between after, raw.toList = before ++ '#' :: between ++ '#' :: after ∧
    (∀ c ∈ before, isSpace c = true) ∧ ∀ c ∈ between, isSpace c = true

/-- The text a tag is made of begins with a mark exactly when the tag had two. -/
theorem head?_body_iff :
    ((trimPrefix (trimSpace raw) "#").toList.dropWhile isSpace).head? = some '#' ↔
      Doubled raw := by
  have solid : isSpace '#' = false := by decide
  have trimmed : (trimSpace raw).toList = trimRightFunc isSpace (raw.toList.dropWhile isSpace) :=
    String.toList_ofList
  constructor
  · intro second
    by_cases first : (trimSpace raw).toList.head? = some '#'
    · obtain ⟨text, shape⟩ := List.head?_eq_some_iff.mp first
      rw [trimPrefix_of_mark shape] at second
      obtain ⟨-, between, after, rfl, spaces⟩ := head?_dropWhile_eq_some_iff.mp second
      obtain ⟨cut, whole⟩ := trimRightFunc_prefix isSpace (raw.toList.dropWhile isSpace)
      rw [← trimmed, shape] at whole
      refine ⟨raw.toList.takeWhile isSpace, between, after ++ cut, ?_,
        fun c member => List.mem_takeWhile_imp member, spaces⟩
      conv_lhs => rw [← List.takeWhile_append_dropWhile (p := isSpace) (l := raw.toList), ← whole]
      simp only [List.append_assoc, List.cons_append]
    · have begins : ∀ c ∈ (trimSpace raw).toList.head?, isSpace c = false := by
        rw [trimmed]
        exact fun c => head?_trim
      rw [trimPrefix_of_unmarked first, dropWhile_of_head begins] at second
      exact absurd second first
  · rintro ⟨before, between, after, shape, blank, spaces⟩
    have shown : raw.toList.dropWhile isSpace = '#' :: between ++ '#' :: after := by
      rw [shape, List.append_assoc, List.dropWhile_append_of_pos blank, List.cons_append,
        List.dropWhile_cons_of_neg (by simp [solid])]
    rw [shown, trimRightFunc_append solid] at trimmed
    rw [trimPrefix_of_mark trimmed]
    exact head?_dropWhile_eq_some_iff.mpr ⟨solid, between, _, rfl, spaces⟩

section Tables

variable [Unicode]

/-- `ListLive` of the service, without its paging. -/
def Desk.summaries (s : Desk) (tag : Option String) (now : Time) : List ArticleSummary :=
  ((s.listLive (tag.map normaliseTag) now).mergeSort newestFirst).map Article.listed

/-- `ListArticles`: a page of the live articles with a tag, or of all when it is empty. -/
def Desk.listArticles (s : Desk) (tag : String) (now : Time) (query : PageQuery) :
    ListResult ArticleSummary :=
  Paging.serve (s.summaries (if tag = "" then none else some tag) now) query

/-- The pages of a tag's list, one after the other. -/
def Desk.readList (s : Desk) (tag : String) (now : Time) (limit : Option ℤ) :
    Rounds AppErr (List ArticleSummary) :=
  Paging.walk (fun query => .ok (s.listArticles tag now query)) limit 0

/-! ## Normalising -/

variable {t : String} {raws out tags : List String}

theorem normaliseTag_eq (raw : String) :
    normaliseTag raw = toLower (collapse (trimPrefix (trimSpace raw) "#")) := rfl

/-- A normalised tag begins with a mark exactly when the tag had two. -/
theorem head?_normaliseTag_iff (lower : LowerCase) :
    (normaliseTag raw).toList.head? = some '#' ↔ Doubled raw := by
  rw [← head?_body_iff, normaliseTag_eq, Strings.toLower, String.toList_ofList, List.head?_map,
    head?_collapse, Option.map_eq_some_iff]
  constructor
  · rintro ⟨c, first, mark⟩
    obtain rfl : c = '#' := (lower.mark c).mp mark
    exact first
  · exact fun first => ⟨'#', first, (lower.mark '#').mpr rfl⟩

/-- A normalised tag is a text that was collapsed. -/
theorem exists_collapse (ascii : OnAscii) (lower : LowerCase) (raw : String) :
    ∃ s, normaliseTag raw = collapse s ∧ toLower (normaliseTag raw) = normaliseTag raw :=
  ⟨toLower (trimPrefix (trimSpace raw) "#"), (lower.collapse ascii _).symm,
    lower.toLower_toLower _⟩

/-- Normalising leaves a normalised tag alone, unless it begins with a mark. -/
theorem normaliseTag_normaliseTag (ascii : OnAscii) (lower : LowerCase)
    (unmarked : (normaliseTag raw).toList.head? ≠ some '#') :
    normaliseTag (normaliseTag raw) = normaliseTag raw := by
  obtain ⟨s, collapsed, small⟩ := exists_collapse ascii lower raw
  have trimmed : Trimmed (normaliseTag raw).toList := collapsed ▸ trimmed_collapse s
  have settled : collapse (normaliseTag raw) = normaliseTag raw := by
    rw [collapsed, collapse_collapse]
  rw [normaliseTag_eq (normaliseTag raw), trimSpace_of_trimmed trimmed,
    trimPrefix_of_unmarked unmarked, settled, small]

/-- A text that begins with a mark is shorter once it is normalised. -/
theorem normaliseTag_ne (trimmed : Trimmed t.toList) (marked : t.toList.head? = some '#') :
    normaliseTag t ≠ t := by
  obtain ⟨rest, shape⟩ := List.head?_eq_some_iff.mp marked
  have body := trimPrefix_of_mark shape
  have short : (normaliseTag t).toList.length ≤ rest.length := by
    rw [normaliseTag_eq, trimSpace_of_trimmed trimmed, Strings.toLower, String.toList_ofList,
      List.length_map, ← body]
    exact length_collapse_le _
  intro same
  rw [same, shape, List.length_cons] at short
  omega

/-- Normalising leaves a normalised tag alone exactly when the tag had no two marks. -/
theorem normaliseTag_again_iff (ascii : OnAscii) (lower : LowerCase) :
    normaliseTag (normaliseTag raw) = normaliseTag raw ↔ ¬ Doubled raw := by
  obtain ⟨s, collapsed, -⟩ := exists_collapse ascii lower raw
  rw [← head?_normaliseTag_iff lower]
  constructor
  · intro again marked
    exact normaliseTag_ne (collapsed ▸ trimmed_collapse s) marked again
  · exact normaliseTag_normaliseTag ascii lower

/-! ## The tags of an article -/

/-- The tags that are kept are those that were kept before and the tags of the rest that are
not blank, each of them once. -/
theorem normaliseTagsFrom_ok {kept : List String} (distinct : kept.Nodup)
    (accepted : normaliseTagsFrom kept raws = .ok out) :
    out.Nodup ∧ ∀ t, t ∈ out ↔ t ∈ kept ∨ t ≠ "" ∧ t ∈ raws.map normaliseTag := by
  induction raws generalizing kept with
  | nil =>
      obtain rfl : kept = out := Except.ok.inj accepted
      exact ⟨distinct, fun t => by simp⟩
  | cons raw raws ih =>
      rw [normaliseTagsFrom] at accepted
      by_cases skipped : normaliseTag raw = "" ∨ normaliseTag raw ∈ kept
      · rw [if_pos skipped] at accepted
        obtain ⟨nodup, members⟩ := ih distinct accepted
        refine ⟨nodup, fun t => ?_⟩
        rw [members, List.map_cons, List.mem_cons]
        constructor
        · rintro (inside | ⟨some_, later⟩)
          · exact .inl inside
          · exact .inr ⟨some_, .inr later⟩
        · rintro (inside | ⟨some_, rfl | later⟩)
          · exact .inl inside
          · exact .inl (skipped.resolve_left some_)
          · exact .inr ⟨some_, later⟩
      · rw [if_neg skipped] at accepted
        split_ifs at accepted with long
        obtain ⟨some_, fresh⟩ := not_or.mp skipped
        obtain ⟨nodup, members⟩ :=
          ih (List.nodup_append_comm.mp (List.nodup_cons.mpr ⟨fresh, distinct⟩)) accepted
        refine ⟨nodup, fun t => ?_⟩
        rw [members, List.map_cons, List.mem_cons, List.mem_append, List.mem_singleton]
        constructor
        · rintro ((inside | rfl) | ⟨some_, later⟩)
          · exact .inl inside
          · exact .inr ⟨some_, .inl rfl⟩
          · exact .inr ⟨some_, .inr later⟩
        · rintro (inside | ⟨some_, rfl | later⟩)
          · exact .inl (.inl inside)
          · exact .inl (.inr rfl)
          · exact .inr ⟨some_, later⟩

/-- The tags accepted are those of the input, each once and none empty. -/
theorem normaliseTags_ok (accepted : normaliseTags raws = .ok out) :
    out.Nodup ∧ ∀ t, t ∈ out ↔ t ≠ "" ∧ t ∈ raws.map normaliseTag := by
  obtain ⟨kept, read, checked⟩ := Outcome.bind_ok_iff.mp accepted
  obtain ⟨few, same⟩ := Outcome.guard_ok_iff.mp checked
  obtain rfl : kept = out := Except.ok.inj same
  obtain ⟨nodup, members⟩ := normaliseTagsFrom_ok List.nodup_nil read
  refine ⟨nodup, fun t => ?_⟩
  rw [members, or_iff_right (List.not_mem_nil)]

/-! ## Looking tags up -/

/-- The live articles that carry a tag are all in the pages of its list. -/
def Finds (t : String) : Prop :=
  ∀ (s : Desk) (now : Time) (limit : Option ℤ) (id : String) (a : Article),
    id ∈ s.issued → s.rows id = some a → a.live now = true → t ∈ a.tags →
    ∃ seen, Ends (s.readList t now limit) seen ∧ a.listed ∈ seen

/-- Tags that can be looked up: normalising leaves each alone, no two are the same, and the
list of each has every live article that carries it. -/
structure LooksUp (tags : List String) : Prop where
  again : ∀ t ∈ tags, normaliseTag t = t
  distinct : tags.Nodup
  found : ∀ t ∈ tags, Finds t

/-- The list that is read ends with the summaries of the tag. -/
theorem ends_readList (s : Desk) (nonempty : t ≠ "") (now : Time) (limit : Option ℤ) :
    Ends (s.readList t now limit) (s.summaries (some t) now) := by
  have pages : s.listArticles t now = Paging.serve (s.summaries (some t) now) := by
    funext query
    rw [Desk.listArticles, if_neg nonempty]
  rw [Desk.readList, pages]
  exact ends_walk (s.summaries (some t) now) limit 0

/-- A tag that is normalised to itself finds what is tagged with it. -/
theorem finds_of_again (nonempty : t ≠ "") (again : normaliseTag t = t) : Finds t := by
  intro s now limit id a issued row live carries
  have inList : a ∈ s.listLive (some t) now := by
    rw [Desk.listLive, List.mem_filter, Bool.and_eq_true]
    refine ⟨List.mem_filterMap.mpr ⟨id, issued, row⟩, live, ?_⟩
    simpa using carries
  refine ⟨_, ends_readList s nonempty now limit, ?_⟩
  rw [Desk.summaries, Option.map_some, again]
  exact List.mem_map_of_mem (List.mem_mergeSort.mpr inList)

/-- A live article with one tag. -/
def taggedArticle (t : String) : Article :=
  { id := "", slug := "", authorID := "", authorName := "", title := "", subtitle := ""
    coverURL := "", coverCaption := "", body := .null, excerpt := "", readingMinutes := 1
    tags := [t], status := .published, publishAt := some 0, firstPublishedAt := some 0
    submittedAt := none, reviewerID := none, reviewerName := "", reviewedAt := none
    reviewNote := "" }

/-- The list of a tag is of use exactly when normalising leaves the tag alone. -/
theorem finds_iff (nonempty : t ≠ "") : Finds t ↔ normaliseTag t = t := by
  refine ⟨fun finds => ?_, finds_of_again nonempty⟩
  by_contra changed
  let s : Desk := ⟨fun _ => some (taggedArticle t), [""], [], []⟩
  obtain ⟨seen, ends, inside⟩ :=
    finds s 0 none "" (taggedArticle t) (List.mem_singleton_self "") rfl rfl
      (List.mem_singleton_self t)
  have nothing : s.summaries (some t) 0 = [] := by
    simp [Desk.summaries, Desk.listLive, s, taggedArticle, changed]
  rw [ends.unique (ends_readList s nonempty 0 none), nothing] at inside
  cases inside

/-- The tags of an article can be looked up exactly when none was written with two marks in
front. -/
theorem looksUp_iff (ascii : OnAscii) (lower : LowerCase)
    (accepted : normaliseTags raws = .ok out) :
    LooksUp out ↔ ∀ raw ∈ raws, ¬ Doubled raw := by
  obtain ⟨distinct, members⟩ := normaliseTags_ok accepted
  constructor
  · intro looksUp raw member doubled
    have marked := (head?_normaliseTag_iff lower).mpr doubled
    have some_ : normaliseTag raw ≠ "" := by
      intro none_
      rw [none_] at marked
      cases marked
    have again := looksUp.again (normaliseTag raw)
      ((members _).mpr ⟨some_, List.mem_map_of_mem member⟩)
    exact (normaliseTag_again_iff ascii lower).mp again doubled
  · intro single
    have again : ∀ t ∈ out, normaliseTag t = t := by
      intro t member
      obtain ⟨raw, given, rfl⟩ := List.mem_map.mp ((members t).mp member).2
      exact (normaliseTag_again_iff ascii lower).mpr (single raw given)
    refine ⟨again, distinct, fun t member => ?_⟩
    exact finds_of_again ((members t).mp member).1 (again t member)

end Tables

/-- Of two marks one is stored, and taken off when the tag is asked for. -/
theorem looksUp_fails : let _ := Unicode.ascii
    normaliseTags ["##press"] = .ok ["#press"] ∧ ¬ Finds "#press" ∧ ¬ LooksUp ["#press"] := by
  let _ := Unicode.ascii
  have changed : normaliseTag "#press" ≠ "#press" := by decide +kernel
  refine ⟨by decide +kernel, (finds_iff (by decide)).not.mpr changed, fun looksUp => ?_⟩
  exact changed (looksUp.again "#press" (List.mem_singleton_self _))

/-- A tag in lower case looks up what is tagged with it. -/
theorem looksUp_press : let _ := Unicode.ascii
    normaliseTags [" Pressing ", "#pressing", "Premier  League", ""] =
        .ok ["pressing", "premier league"] ∧
      (LooksUp ["pressing", "premier league"] ↔
        ∀ raw ∈ [" Pressing ", "#pressing", "Premier  League", ""], ¬ Doubled raw) := by
  let _ := Unicode.ascii
  have accepted : normaliseTags [" Pressing ", "#pressing", "Premier  League", ""] =
      .ok ["pressing", "premier league"] := by decide +kernel
  exact ⟨accepted, looksUp_iff Unicode.ascii_onAscii ascii_lowerCase accepted⟩

end ScoutPulse.Articles
