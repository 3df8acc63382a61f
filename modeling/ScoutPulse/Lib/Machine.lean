import Mathlib.Data.Nat.Notation
import Mathlib.Logic.Relation
import Mathlib.Tactic.SplitIfs
import Mathlib.Tactic.TypeStar

/-!
# Labelled machines

A machine starts in one of its start states and takes one labelled step at a time; a
step that cannot be taken has no next state. A run may be restricted by a condition
on the state before each step and the step's label, so that a property can be stated
of the runs every step of which meets it.
-/

/-- A deterministic labelled transition system. -/
structure Machine (σ ℓ : Type*) where
  start : σ → Prop
  next : σ → ℓ → Option σ

namespace Machine

variable {σ ℓ : Type*} (m : Machine σ ℓ) (ok : σ → ℓ → Prop)

/-- One step whose state and label meet the condition. -/
def Step (s s' : σ) : Prop := ∃ label, ok s label ∧ m.next s label = some s'

/-- Any number of steps that meet the condition. -/
def Leads : σ → σ → Prop := Relation.ReflTransGen (m.Step ok)

/-- A state some run that meets the condition arrives at. -/
def Reach (s : σ) : Prop := ∃ s₀, m.start s₀ ∧ m.Leads ok s₀ s

/-- The condition every step meets. -/
def always : σ → ℓ → Prop := fun _ _ => True

variable {m ok}

theorem Leads.refl (s : σ) : m.Leads ok s s := Relation.ReflTransGen.refl

theorem Leads.head {s s' s'' : σ} (first : m.Step ok s s') (rest : m.Leads ok s' s'') :
    m.Leads ok s s'' := Relation.ReflTransGen.head first rest

/-- What holds where a run begins and survives each of its steps holds where it ends. -/
theorem Leads.invariant {P : σ → Prop} {s s' : σ} (leads : m.Leads ok s s') (first : P s)
    (step : ∀ {t t' : σ} {label : ℓ}, P t → ok t label → m.next t label = some t' → P t') :
    P s' := by
  induction leads with
  | refl => exact first
  | tail _ last ih =>
      obtain ⟨label, met, next⟩ := last
      exact step ih met next

/-- A relation that is reflexive and transitive and holds across each step from a
state with the invariant holds across a run. -/
theorem Leads.relation {P : σ → Prop} {R : σ → σ → Prop} {s s' : σ} (leads : m.Leads ok s s')
    (first : P s) (refl : ∀ t, R t t) (trans : ∀ {t t' t'' : σ}, R t t' → R t' t'' → R t t'')
    (keeps : ∀ {t t' : σ} {label : ℓ}, P t → ok t label → m.next t label = some t' → P t')
    (step : ∀ {t t' : σ} {label : ℓ}, P t → ok t label → m.next t label = some t' → R t t') :
    R s s' := by
  have both : P s' ∧ R s s' := by
    induction leads with
    | refl => exact ⟨first, refl s⟩
    | tail _ last ih =>
        obtain ⟨label, met, next⟩ := last
        exact ⟨keeps ih.1 met next, trans ih.2 (step ih.1 met next)⟩
  exact both.2

/-- A run that meets a condition meets every weaker one. -/
theorem Reach.mono {weaker : σ → ℓ → Prop} {s : σ} (reach : m.Reach ok s)
    (weakens : ∀ {t label}, ok t label → weaker t label) : m.Reach weaker s := by
  obtain ⟨s₀, start, leads⟩ := reach
  refine ⟨s₀, start, Relation.ReflTransGen.mono ?_ s₀ s leads⟩
  intro t t' step
  obtain ⟨label, met, next⟩ := step
  exact ⟨label, weakens met, next⟩

/-- The invariant rule. -/
theorem Reach.invariant {P : σ → Prop} {s : σ} (reach : m.Reach ok s)
    (start : ∀ {t : σ}, m.start t → P t)
    (step : ∀ {t t' : σ} {label : ℓ}, P t → ok t label → m.next t label = some t' → P t') :
    P s := by
  obtain ⟨s₀, starts, leads⟩ := reach
  exact leads.invariant (start starts) step

/-- A relation that holds across each step from a state with the invariant holds across a run
that goes on from a reached state, whose steps may meet a further condition. -/
theorem Reach.relation {further : σ → ℓ → Prop} {P : σ → Prop} {R : σ → σ → Prop} {s s' : σ}
    (reach : m.Reach ok s) (leads : m.Leads (fun t label => ok t label ∧ further t label) s s')
    (start : ∀ {t : σ}, m.start t → P t) (refl : ∀ t, R t t)
    (trans : ∀ {t t' t'' : σ}, R t t' → R t' t'' → R t t'')
    (keeps : ∀ {t t' : σ} {label : ℓ}, P t → ok t label → m.next t label = some t' → P t')
    (step : ∀ {t t' : σ} {label : ℓ}, P t → further t label → m.next t label = some t' → R t t') :
    R s s' :=
  leads.relation (reach.invariant start keeps) refl trans (fun holds met => keeps holds met.1)
    fun holds met => step holds met.2

section Run

variable (m ok) [∀ s label, Decidable (ok s label)]

/-- Take the labelled steps in turn, as long as each meets the condition. -/
def run : σ → List ℓ → Option σ
  | s, [] => some s
  | s, label :: labels =>
      if ok s label then (m.next s label).bind fun s' => run s' labels else none

variable {m ok}

/-- A run leads from where it began to where it ended. -/
theorem leads_of_run {labels : List ℓ} {s s' : σ} (ran : m.run ok s labels = some s') :
    m.Leads ok s s' := by
  induction labels generalizing s with
  | nil =>
      rw [run, Option.some.injEq] at ran
      subst ran
      exact .refl s
  | cons label labels ih =>
      rw [run] at ran
      split_ifs at ran with met
      obtain ⟨middle, next, rest⟩ := Option.bind_eq_some_iff.mp ran
      exact .head ⟨label, met, next⟩ (ih rest)

/-- A measure that only the counted labels raise, by one each, ends a run at most that much
higher. -/
theorem le_of_run {μ : σ → ℕ} {counted : ℓ → Bool}
    (step : ∀ {t t' : σ} {label : ℓ}, m.next t label = some t' →
      μ t' ≤ μ t + if counted label then 1 else 0)
    {labels : List ℓ} {s s' : σ} (ran : m.run ok s labels = some s') :
    μ s' ≤ μ s + labels.countP counted := by
  induction labels generalizing s with
  | nil =>
      rw [run, Option.some.injEq] at ran
      subst ran
      exact Nat.le_add_right _ _
  | cons label labels ih =>
      rw [run] at ran
      split_ifs at ran with met
      obtain ⟨middle, next, rest⟩ := Option.bind_eq_some_iff.mp ran
      have first := step next
      have others := ih rest
      rw [List.countP_cons]
      omega

variable (m ok)

/-- Where a run of labelled steps ends, its beginning when it cannot be taken. -/
def after (s : σ) (labels : List ℓ) : σ := (m.run ok s labels).getD s

variable {m ok}

theorem leads_after {labels : List ℓ} {s : σ} (taken : (m.run ok s labels).isSome = true) :
    m.Leads ok s (m.after ok s labels) := by
  obtain ⟨s', ran⟩ := Option.isSome_iff_exists.mp taken
  rw [after, ran, Option.getD_some]
  exact leads_of_run ran

theorem reach_after {labels : List ℓ} {s : σ} (start : m.start s)
    (taken : (m.run ok s labels).isSome = true) : m.Reach ok (m.after ok s labels) :=
  ⟨s, start, leads_after taken⟩

end Run

instance (s : σ) (label : ℓ) : Decidable (always s label) := .isTrue trivial

end Machine
