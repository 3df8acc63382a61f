import Mathlib.Tactic.TypeStar

/-!
# Fallible computations

How a computation that may fail comes to succeed: each of its parts did, and the
guards on the way let it through.
-/

namespace Outcome

universe u

variable {ε : Type*} {α β : Type u}

/-- A sequence succeeds when its first part does and the rest succeeds on its value. -/
theorem bind_ok_iff {x : Except ε α} {f : α → Except ε β} {b : β} :
    x >>= f = .ok b ↔ ∃ a, x = .ok a ∧ f a = .ok b := by
  cases x with
  | error e => simp [bind, Except.bind]
  | ok a => simp [bind, Except.bind]

theorem ok_bind {a : α} {f : α → Except ε β} : (Except.ok a >>= f) = f a := rfl

/-- A guard in front of the rest of a sequence lets through what does not meet its
condition. -/
theorem guard_ok_iff {p : Prop} [Decidable p] {e : ε} {rest : α → Except ε β}
    {x : Except ε β} {b : β} :
    (if p then throw e >>= rest else x) = .ok b ↔ ¬ p ∧ x = .ok b := by
  by_cases met : p
  · simp [met, throw, throwThe, MonadExceptOf.throw, bind, Except.bind]
  · simp [met]

/-- What succeeds is what it returns. -/
theorem pure_ok_iff {a b : β} : (pure a : Except ε β) = .ok b ↔ a = b := by
  simp [pure, Except.pure]

theorem toOption_eq_some_iff {x : Except ε α} {a : α} : x.toOption = some a ↔ x = .ok a := by
  cases x <;> simp [Except.toOption]

/-! ## Lists of fallible steps -/

section Lists

variable {σ : Type u} {f : α → Option β} {g : σ → β → Option σ} {items : List α} {read : List β}
  {s s' : σ}

/-- A list that begins with an item is read when the item is and the rest. -/
theorem mapM_cons_eq_some {a : α} : (a :: items).mapM f = some read ↔
    ∃ b rest, f a = some b ∧ items.mapM f = some rest ∧ read = b :: rest := by
  rw [List.mapM_cons, Option.bind_eq_bind, Option.bind_eq_some_iff]
  constructor
  · rintro ⟨b, made, all⟩
    obtain ⟨rest, all, same⟩ := Option.bind_eq_some_iff.mp all
    exact ⟨b, rest, made, all, (Option.some.inj same).symm⟩
  · rintro ⟨b, rest, made, all, rfl⟩
    exact ⟨b, made, Option.bind_eq_some_iff.mpr ⟨rest, all, rfl⟩⟩

/-- What is read and used item by item can be read all at once. -/
theorem exists_mapM_of_foldlM (run : items.foldlM (fun s a => (f a).bind (g s)) s = some s') :
    ∃ read, items.mapM f = some read ∧ read.foldlM g s = some s' := by
  induction items generalizing s with
  | nil => exact ⟨[], rfl, run⟩
  | cons a items ih =>
      rw [List.foldlM_cons, Option.bind_eq_bind, Option.bind_eq_some_iff] at run
      obtain ⟨middle, first, rest⟩ := run
      obtain ⟨b, made, stored⟩ := Option.bind_eq_some_iff.mp first
      obtain ⟨read, all, later⟩ := ih rest
      refine ⟨b :: read, mapM_cons_eq_some.mpr ⟨b, read, made, all, rfl⟩, ?_⟩
      rw [List.foldlM_cons, stored]
      exact later

/-- Reading the items first and going through them then is the same. -/
theorem foldlM_of_mapM (all : items.mapM f = some read) :
    items.foldlM (fun s a => (f a).bind (g s)) s = read.foldlM g s := by
  induction items generalizing read s with
  | nil =>
      cases all
      rfl
  | cons a items ih =>
      obtain ⟨b, rest, made, others, rfl⟩ := mapM_cons_eq_some.mp all
      rw [List.foldlM_cons, List.foldlM_cons, made, Option.bind_some]
      exact congrArg (g s b >>= ·) (funext fun _ => ih others)

/-- What is picked of the items read is what is picked of the items. -/
theorem filterMap_of_mapM {γ : Type*} {pick : β → Option γ} {pickItem : α → Option γ}
    (all : items.mapM f = some read) (same : ∀ {a b}, f a = some b → pick b = pickItem a) :
    read.filterMap pick = items.filterMap pickItem := by
  induction items generalizing read with
  | nil =>
      cases all
      rfl
  | cons a items ih =>
      obtain ⟨b, rest, made, others, rfl⟩ := mapM_cons_eq_some.mp all
      rw [List.filterMap_cons, List.filterMap_cons, same made, ih others]

end Lists

/-! ## Lists of steps that may throw -/

section Throwing

variable {σ : Type u} {f : α → Except ε β} {g : α → β} {put : σ → α → β → σ}
  {items : List α} {s s' : σ}

theorem mapM_cons_ok_iff {f : α → Except ε β} {a : α} {read : List β} :
    (a :: items).mapM f = .ok read ↔
      ∃ b rest, f a = .ok b ∧ items.mapM f = .ok rest ∧ read = b :: rest := by
  rw [List.mapM_cons, bind_ok_iff]
  constructor
  · rintro ⟨b, made, all⟩
    obtain ⟨rest, all, same⟩ := bind_ok_iff.mp all
    exact ⟨b, rest, made, all, (pure_ok_iff.mp same).symm⟩
  · rintro ⟨b, rest, made, all, rfl⟩
    exact ⟨b, made, bind_ok_iff.mpr ⟨rest, all, rfl⟩⟩

theorem length_of_mapM {f : α → Except ε β} {read : List β} (all : items.mapM f = .ok read) :
    read.length = items.length := by
  induction items generalizing read with
  | nil =>
      cases all
      rfl
  | cons a items ih =>
      obtain ⟨b, rest, -, others, rfl⟩ := mapM_cons_ok_iff.mp all
      rw [List.length_cons, List.length_cons, ih others]

/-- What is made of a list is made item by item. -/
theorem exists_of_mem_mapM {f : α → Except ε β} {read : List β} (all : items.mapM f = .ok read)
    {b : β} (member : b ∈ read) : ∃ a ∈ items, f a = .ok b := by
  induction items generalizing read with
  | nil =>
      cases all
      cases member
  | cons a items ih =>
      obtain ⟨first, rest, made, others, rfl⟩ := mapM_cons_ok_iff.mp all
      rcases List.mem_cons.mp member with rfl | later
      · exact ⟨a, List.mem_cons_self, made⟩
      · obtain ⟨source, inside, made⟩ := ih others later
        exact ⟨source, List.mem_cons_of_mem a inside, made⟩

/-- Where every item is read, going through them never fails. -/
theorem foldlM_of_ok (all : ∀ a ∈ items, f a = .ok (g a)) :
    items.foldlM (fun s a => f a >>= fun b => .ok (put s a b)) s =
      .ok (items.foldl (fun s a => put s a (g a)) s) := by
  induction items generalizing s with
  | nil => rfl
  | cons a items ih =>
      rw [List.foldlM_cons, all a List.mem_cons_self]
      exact ih fun b later => all b (List.mem_cons_of_mem a later)

/-- A pass without a result succeeds at every item. -/
theorem forM_ok_iff {f : α → Except ε PUnit} :
    items.forM f = .ok ⟨⟩ ↔ ∀ a ∈ items, f a = .ok ⟨⟩ := by
  induction items with
  | nil => simp [pure, Except.pure]
  | cons a items ih =>
      change (f a >>= fun _ => items.forM f) = .ok ⟨⟩ ↔ _
      rw [bind_ok_iff, List.forall_mem_cons, ← ih]
      constructor
      · rintro ⟨_, first, rest⟩
        exact ⟨first, rest⟩
      · rintro ⟨first, rest⟩
        exact ⟨⟨⟩, first, rest⟩

/-- A pass that succeeds did so at every item. -/
theorem ok_of_foldlM
    (run : items.foldlM (fun s a => f a >>= fun b => .ok (put s a b)) s = .ok s') :
    ∀ a ∈ items, ∃ b, f a = .ok b := by
  induction items generalizing s with
  | nil => simp
  | cons a items ih =>
      rw [List.foldlM_cons, bind_ok_iff] at run
      obtain ⟨middle, first, rest⟩ := run
      obtain ⟨b, made, -⟩ := bind_ok_iff.mp first
      rw [List.forall_mem_cons]
      exact ⟨⟨b, made⟩, ih rest⟩

end Throwing

end Outcome
