import Mathlib.Data.List.TakeDrop
import Mathlib.Tactic.Linarith
import ScoutPulse.Lib.Loop
import ScoutPulse.Lib.Properties

/-!
# Pages of a list

Every list endpoint answers with one page. It clamps the limit and the offset of the request,
fetches one row more than the page and tells by it whether another page exists. A client
walks the list by the limits that are returned, and `LookupStore` stops a walk that goes too
far.
-/

namespace ScoutPulse.Paging

open Loops

/-! ## The server -/

def defaultPageSize : ℤ := 25
def maxPageSize : ℤ := 100

/-- `Page`: a window over a list query. -/
structure Page where
  limit : ℤ
  offset : ℤ
  positive : 0 < limit
  bounded : limit ≤ maxPageSize
  nonneg : 0 ≤ offset

/-- `NewPage`. -/
def newPage (limit offset : ℤ) : Page :=
  let wanted := if limit ≤ 0 then defaultPageSize else limit
  { limit := if maxPageSize < wanted then maxPageSize else wanted
    offset := if offset < 0 then 0 else offset
    positive := by
      unfold wanted defaultPageSize maxPageSize
      split_ifs <;> omega
    bounded := by split_ifs <;> omega
    nonneg := by split_ifs <;> omega }

/-- `FetchLimit`. -/
def Page.fetchLimit (p : Page) : ℤ := p.limit + 1

/-- `ListResult`, and `Page` of the client. -/
structure ListResult (α : Type) where
  items : List α
  limit : ℤ
  offset : ℤ
  hasMore : Bool
  deriving DecidableEq

variable {α : Type}

/-- `NewListResult`. -/
def newListResult (items : List α) (p : Page) : ListResult α :=
  let hasMore := decide (p.limit < items.length)
  ⟨if hasMore then items.take p.limit.toNat else items, p.limit, p.offset, hasMore⟩

/-- The rows of an ordered list between `OFFSET` and `LIMIT`. -/
def rows (xs : List α) (limit offset : ℤ) : List α := (xs.drop offset.toNat).take limit.toNat

/-- `PageQuery`: the parameters of a list request. -/
structure PageQuery where
  limit : Option ℤ
  offset : Option ℤ

/-- `pageFrom`. -/
def pageFrom (query : PageQuery) : Page :=
  newPage (query.limit.getD defaultPageSize) (query.offset.getD 0)

/-- What a list endpoint answers. -/
def serve (xs : List α) (query : PageQuery) : ListResult α :=
  let page := pageFrom query
  newListResult (rows xs page.fetchLimit page.offset) page

/-! ## The client -/

section Client

variable {ε : Type} (fetch : PageQuery → Except ε (ListResult α))

/-- A walk through a list: where it asks next, and what it has seen. -/
structure Walk (α : Type) where
  offset : ℤ
  seen : List α

/-- One page of a walk. -/
def walkOn (limit : Option ℤ) (w : Walk α) : Except ε (Round (Walk α) (List α)) := do
  let page ← fetch ⟨limit, some w.offset⟩
  let seen := w.seen ++ page.items
  if page.hasMore then return .again ⟨w.offset + page.limit, seen⟩
  return .done seen

/-- The items a client sees that asks for one page after the other from some offset on. -/
def walk (limit : Option ℤ) (offset : ℤ) : Rounds ε (List α) :=
  loop (walkOn fetch limit) ⟨offset, []⟩

variable (id : α → String)

/-- `Map.set` for each item of a list. -/
def putAll (collected : Properties String α) (items : List α) : Properties String α :=
  collected.assign (items.map fun item => (id item, item))

/-- `LookupStore.collect` under way. -/
structure Collecting (α : Type) where
  collected : Properties String α
  offset : ℤ

/-- One page of `LookupStore.collect`. -/
def collectOn (s : Collecting α) : Except ε (Round (Collecting α) (Properties String α)) := do
  let page ← fetch ⟨some maxPageSize, some s.offset⟩
  let collected := putAll id s.collected page.items
  if !page.hasMore then return .done collected
  let offset := s.offset + page.limit
  if 5000 < offset then return .done collected
  return .again ⟨collected, offset⟩

/-- `LookupStore.collect`. -/
def collect : Rounds ε (Properties String α) := loop (collectOn fetch id) ⟨∅, 0⟩

end Client

/-! ## One page -/

theorem limit_newPage (limit offset : ℤ) :
    (newPage limit offset).limit =
      if limit ≤ 0 then defaultPageSize else min limit maxPageSize := by
  simp only [newPage, defaultPageSize, maxPageSize]
  split_ifs <;> omega

theorem offset_newPage (limit offset : ℤ) : (newPage limit offset).offset = max offset 0 := by
  simp only [newPage]
  split_ifs <;> omega

theorem limit_serve (xs : List α) (query : PageQuery) :
    (serve xs query).limit = (pageFrom query).limit := rfl

theorem offset_serve (xs : List α) (query : PageQuery) :
    (serve xs query).offset = (pageFrom query).offset := rfl

/-- The row after the page is fetched exactly when there is one. -/
theorem hasMore_serve (xs : List α) (query : PageQuery) : (serve xs query).hasMore = true ↔
    (pageFrom query).offset + (pageFrom query).limit < xs.length := by
  have positive := (pageFrom query).positive
  have nonneg := (pageFrom query).nonneg
  simp only [serve, newListResult, rows, Page.fetchLimit, decide_eq_true_eq, List.length_take,
    List.length_drop]
  omega

/-- The page is the slice the window names. -/
theorem items_serve (xs : List α) (query : PageQuery) : (serve xs query).items =
    (xs.drop (pageFrom query).offset.toNat).take (pageFrom query).limit.toNat := by
  have positive := (pageFrom query).positive
  by_cases more : (serve xs query).hasMore = true
  · have cut : (serve xs query).items =
        (rows xs (pageFrom query).fetchLimit (pageFrom query).offset).take
          (pageFrom query).limit.toNat := if_pos more
    rw [cut, rows, Page.fetchLimit, List.take_take]
    congr 1
    omega
  · have whole : (serve xs query).items =
        rows xs (pageFrom query).fetchLimit (pageFrom query).offset := if_neg more
    rw [hasMore_serve, not_lt] at more
    rw [whole, rows, List.take_of_length_le, List.take_of_length_le]
    · rw [List.length_drop]
      omega
    · rw [List.length_drop, Page.fetchLimit]
      omega

/-! ## A walk -/

section Walks

variable {ε : Type} {xs : List α}

/-- The server's answer, when it gives one. -/
def served (ε : Type) (xs : List α) (query : PageQuery) : Except ε (ListResult α) :=
  .ok (serve xs query)

/-- What a walk from some offset on has seen, and what is in front of it, is the rest of the
list. -/
structure Walk.Sound (xs : List α) (start : ℕ) (w : Walk α) : Prop where
  nonneg : 0 ≤ w.offset
  split : w.seen ++ xs.drop w.offset.toNat = xs.drop start

/-- How much of the list is in front of a walk. -/
def Walk.ahead (xs : List α) (w : Walk α) : ℕ := xs.length - w.offset.toNat

/-- A round of the walk puts a page behind it, or has reached the end. -/
theorem walkOn_meets {start : ℕ} {limit : Option ℤ} {w : Walk α} (sound : w.Sound xs start) :
    Round.Meets (fun w' => w'.Sound xs start ∧ w'.ahead xs < w.ahead xs) (· = xs.drop start)
      (walkOn (served ε xs) limit w) := by
  obtain ⟨offset, seen⟩ := w
  have nonneg : 0 ≤ offset := sound.nonneg
  generalize asked : (⟨limit, some offset⟩ : PageQuery) = query
  have here : (pageFrom query).offset = offset := by
    rw [← asked]
    exact (offset_newPage _ _).trans (max_eq_left nonneg)
  have positive := (pageFrom query).positive
  have page := items_serve xs query
  have more := hasMore_serve xs query
  rw [here] at page more
  simp only [walkOn, asked, served, Outcome.ok_bind]
  rw [limit_serve, page]
  by_cases goes : (serve xs query).hasMore = true
  · rw [if_pos goes]
    have further := more.mp goes
    refine .again ⟨⟨Int.add_nonneg nonneg positive.le, ?_⟩, ?_⟩
    · change _ ++ xs.drop (offset + (pageFrom query).limit).toNat = _
      rw [Int.toNat_add nonneg positive.le, ← List.drop_drop, List.append_assoc,
        List.take_append_drop]
      exact sound.split
    · change xs.length - (offset + (pageFrom query).limit).toNat < xs.length - offset.toNat
      omega
  · rw [if_neg goes]
    rw [more, not_lt] at goes
    refine .done ?_
    rw [List.take_of_length_le]
    · exact sound.split
    · rw [List.length_drop]
      omega

/-- A walk ends, and has seen every item from where it began, one after the other. -/
theorem ends_walk (xs : List α) (limit : Option ℤ) (start : ℕ) :
    Ends (walk (served ε xs) limit start) (xs.drop start) := by
  have begins : Walk.Sound xs start ⟨start, []⟩ := ⟨Int.natCast_nonneg start, rfl⟩
  have round : ∀ w : Walk α, w.Sound xs start →
      Round.Meets (fun w' => w'.Sound xs start ∧ w'.ahead xs < w.ahead xs) (· = xs.drop start)
        (walkOn (served ε xs) limit w) := fun _ sound => walkOn_meets sound
  obtain ⟨seen, ends, rfl⟩ := exists_ends (Walk.ahead xs) round begins
  exact ends

/-! ## `LookupStore` -/

variable {id : α → String}

/-- What `collect` has after some pages, and how many it was. -/
structure Collecting.Sound (id : α → String) (xs : List α) (pages : ℕ) (s : Collecting α) :
    Prop where
  offset : s.offset = 100 * pages
  early : pages ≤ 50
  collected : s.collected = putAll id ∅ (xs.take (100 * pages))

/-- A round of the collection puts a page, or has what there is up to its bound. -/
theorem collectOn_meets {pages : ℕ} {s : Collecting α} (sound : s.Sound id xs pages) :
    Round.Meets (fun s' => s'.Sound id xs (pages + 1))
      (fun collected => xs.length ≤ 5100 → collected = putAll id ∅ xs)
      (collectOn (served ε xs) id s) := by
  obtain ⟨offset, early, collected⟩ := sound
  generalize asked : (⟨some maxPageSize, some s.offset⟩ : PageQuery) = query
  have limit : (pageFrom query).limit = 100 := by
    rw [← asked]
    exact limit_newPage _ _
  have start : (pageFrom query).offset = 100 * pages := by
    rw [← asked, pageFrom, offset_newPage, Option.getD_some, offset]
    omega
  have page := items_serve xs query
  have more := hasMore_serve xs query
  rw [limit, start] at page more
  have next : putAll id s.collected (serve xs query).items =
      putAll id ∅ (xs.take (100 * pages + 100)) := by
    rw [collected, page, putAll, putAll, putAll, List.take_add, List.map_append,
      Properties.assign, Properties.assign, Properties.assign, List.foldl_append]
    rfl
  simp only [collectOn, asked, served, Outcome.ok_bind]
  rw [next, limit_serve, limit, offset]
  cases goes : (serve xs query).hasMore with
  | true =>
      have further := more.mp goes
      rw [Bool.not_true, if_neg Bool.false_ne_true]
      split_ifs with late
      · exact .done fun short => by omega
      · exact .again ⟨by push_cast; omega, by omega, rfl⟩
  | false =>
      have whole : xs.length ≤ 100 * pages + 100 := by
        by_contra further
        rw [more.mpr (by omega)] at goes
        cases goes
      rw [Bool.not_false, if_pos rfl, List.take_of_length_le whole]
      exact .done fun _ => rfl

/-- `collect` ends, and has every item of a list that is not too long for it. -/
theorem ends_collect (id : α → String) (xs : List α) :
    ∃ collected, Ends (collect (served ε xs) id) collected ∧
      (xs.length ≤ 5100 → collected = putAll id ∅ xs) := by
  have round : ∀ s : Collecting α, (∃ pages, s.Sound id xs pages) →
      Round.Meets (fun s' => (∃ pages, s'.Sound id xs pages) ∧
          5100 - s'.offset.toNat < 5100 - s.offset.toNat)
        (fun collected => xs.length ≤ 5100 → collected = putAll id ∅ xs)
        (collectOn (served ε xs) id s) := by
    rintro s ⟨pages, sound⟩
    refine (collectOn_meets sound).mono (fun s' next => ⟨⟨_, next⟩, ?_⟩) fun _ all => all
    have now := sound.offset
    have then_ := next.offset
    have early := next.early
    omega
  exact exists_ends _ round ⟨0, rfl, Nat.zero_le 50, rfl⟩

/-- Every item of a list is in the map, at its id. -/
structure Gathers (id : α → String) (xs : List α) (collected : Properties String α) : Prop where
  found : ∀ item ∈ xs, ∃ other ∈ xs, id other = id item ∧
    collected.get? (id item) = some other
  exact_ : (xs.map id).Nodup → collected.entries = xs.map fun item => (id item, item)

/-- What is put under its ids is gathered. -/
theorem gathers_putAll (id : α → String) (xs : List α) : Gathers id xs (putAll id ∅ xs) := by
  have keys : (xs.map fun item => (id item, item)).map Prod.fst = xs.map id := by
    rw [List.map_map]
    rfl
  have own : (putAll id ∅ xs).All fun key item => item ∈ xs ∧ id item = key := by
    refine Properties.All.assign (fun _ member => nomatch member) fun entry member => ?_
    obtain ⟨item, inside, rfl⟩ := List.mem_map.mp member
    exact ⟨inside, rfl⟩
  constructor
  · intro item member
    obtain ⟨other, last⟩ : ∃ other,
        (xs.map fun item => (id item, item)).reverse.lookup (id item) = some other := by
      rw [← Option.isSome_iff_exists, List.lookup_isSome_iff]
      exact ⟨_, List.mem_reverse.mpr (List.mem_map_of_mem member), beq_self_eq_true _⟩
    have there : (putAll id ∅ xs).get? (id item) = some other := by
      rw [putAll, Properties.get?_assign, last, Option.some_or]
    exact ⟨other, (own.get? there).1, (own.get? there).2, there⟩
  · intro distinct
    let all : Properties String α := ⟨xs.map fun item => (id item, item), keys ▸ distinct⟩
    have whole : (∅ : Properties String α).assign all.entries = all :=
      Properties.assign_of_prefix List.nil_prefix
    rw [putAll]
    exact congrArg Properties.entries whole

/-! ## The list in pages -/

/-- The page a request gets of a list: the slice named by its limit and offset, once they are
clamped, and whether an item follows it. -/
structure IsPage (xs : List α) (query : PageQuery) (page : ListResult α) : Prop where
  limit : page.limit =
    if query.limit.getD defaultPageSize ≤ 0 then defaultPageSize
    else min (query.limit.getD defaultPageSize) maxPageSize
  offset : page.offset = max (query.offset.getD 0) 0
  items : page.items = (xs.drop page.offset.toNat).take page.limit.toNat
  hasMore : page.hasMore = true ↔ ∃ item, xs[(page.offset + page.limit).toNat]? = some item

/-- What is served is the page of the query. -/
theorem isPage_serve (xs : List α) (query : PageQuery) : IsPage xs query (serve xs query) := by
  refine ⟨(limit_serve xs query).trans (limit_newPage _ _),
    (offset_serve xs query).trans (offset_newPage _ _), items_serve xs query, ?_⟩
  have positive := (pageFrom query).positive
  have nonneg := (pageFrom query).nonneg
  rw [hasMore_serve, limit_serve, offset_serve]
  constructor
  · intro further
    exact ⟨_, List.getElem?_eq_getElem (by omega)⟩
  · rintro ⟨item, there⟩
    obtain ⟨inside, -⟩ := List.getElem?_eq_some_iff.mp there
    omega

/-- A list is tiled by its pages: each is the slice that was asked for, a walk by the limits
that are returned sees every item from where it begins once and in order, and `collect` ends,
with every item of a list of at most 5100. -/
theorem pages_tile (xs : List α) (query : PageQuery) (id : α → String) :
    IsPage xs query (serve xs query) ∧
      (∀ start : ℕ, Ends (walk (served ε xs) query.limit start) (xs.drop start)) ∧
      ∃ collected, Ends (collect (served ε xs) id) collected ∧
        (xs.length ≤ 5100 → Gathers id xs collected) := by
  obtain ⟨collected, ends, all⟩ : ∃ collected, Ends (collect (served ε xs) id) collected ∧
      (xs.length ≤ 5100 → collected = putAll id ∅ xs) := ends_collect id xs
  refine ⟨isPage_serve xs query, ends_walk xs query.limit, collected, ends, fun short => ?_⟩
  rw [all short]
  exact gathers_putAll id xs

end Walks

end ScoutPulse.Paging
