import Mathlib.Data.List.Induction
import Mathlib.Logic.Function.Basic
import Mathlib.Tactic.TypeStar
import ScoutPulse.Lib.Rows

/-!
# One pass of record matching

A pass goes through incoming records and finds each a target: the one a stored
reference names, when it still exists; otherwise one found by description among those
not taken; otherwise a new one. Every choice is stored as the record's reference and
takes its target.

`run_injective_iff` says when two keys never share a target. A description never picks
a taken target, but the pass takes a referenced target only when it reaches the record
the reference belongs to, so a record that comes earlier can be given it.
-/

namespace Matching

variable {ρ κ τ : Type*}

/-- What a pass looks records up in. -/
structure Matcher (ρ κ τ : Type*) where
  key : ρ → κ
  /-- The targets that exist before the pass. -/
  known : τ → Bool
  /-- The target a record's description picks, given those taken. -/
  find : List τ → ρ → Option τ
  /-- The supply of new targets. -/
  fresh : ℕ → τ
  find_free : ∀ taken record target, find taken record = some target → target ∉ taken
  find_known : ∀ taken record target, find taken record = some target → known target

/-- Where a pass stands. -/
structure State (κ τ : Type*) where
  refs : κ → Option τ
  assigned : κ → Option τ
  taken : List τ
  /-- How many new targets have been drawn. -/
  drawn : ℕ

/-- A pass starts with the stored references and nothing taken. -/
def start (refs : κ → Option τ) (drawn : ℕ) : State κ τ where
  refs := refs
  assigned := fun _ => none
  taken := []
  drawn := drawn

namespace Matcher

variable (M : Matcher ρ κ τ) {s : State κ τ} {record : ρ} {k : κ} {t : τ}

/-- The referenced target of a key, when it still exists. -/
def referenced (s : State κ τ) (k : κ) : Option τ := (s.refs k).filter M.known

/-- The target a record has without a new one being made. -/
def found (s : State κ τ) (record : ρ) : Option τ :=
  (M.referenced s (M.key record)).or (M.find s.taken record)

/-- The target a record is given. -/
def target (s : State κ τ) (record : ρ) : τ := (M.found s record).getD (M.fresh s.drawn)

variable [DecidableEq κ]

def step (s : State κ τ) (record : ρ) : State κ τ where
  refs := Function.update s.refs (M.key record) (some (M.target s record))
  assigned := Function.update s.assigned (M.key record) (some (M.target s record))
  taken := M.target s record :: s.taken
  drawn := if (M.found s record).isSome then s.drawn else s.drawn + 1

@[simp] theorem step_refs :
    (M.step s record).refs =
      Function.update s.refs (M.key record) (some (M.target s record)) := rfl

@[simp] theorem step_assigned :
    (M.step s record).assigned =
      Function.update s.assigned (M.key record) (some (M.target s record)) := rfl

@[simp] theorem step_taken : (M.step s record).taken = M.target s record :: s.taken := rfl

def run (s : State κ τ) (records : List ρ) : State κ τ := records.foldl M.step s

@[simp] theorem run_nil : M.run s [] = s := rfl

@[simp] theorem run_cons {records : List ρ} :
    M.run s (record :: records) = M.run (M.step s record) records := rfl

theorem run_append {before after : List ρ} :
    M.run s (before ++ after) = M.run (M.run s before) after := List.foldl_append

omit [DecidableEq κ] in
variable {M} in
/-- The three ways a record comes by its target. -/
theorem target_cases (s : State κ τ) (record : ρ) :
    (s.refs (M.key record) = some (M.target s record) ∧ M.known (M.target s record)) ∨
    (M.referenced s (M.key record) = none ∧
      M.find s.taken record = some (M.target s record)) ∨
    (M.found s record = none ∧ M.target s record = M.fresh s.drawn) := by
  unfold target found
  cases reference : M.referenced s (M.key record) with
  | some t =>
      obtain ⟨stored, known⟩ := Option.filter_eq_some_iff.mp reference
      exact .inl ⟨stored, known⟩
  | none =>
      cases described : M.find s.taken record with
      | some t => exact .inr (.inl ⟨rfl, rfl⟩)
      | none => exact .inr (.inr ⟨rfl, rfl⟩)

/-! ## A target once given is kept -/

/-- A key whose reference names an existing target. -/
def Settled (s : State κ τ) (k : κ) (t : τ) : Prop := s.refs k = some t ∧ M.known t

omit [DecidableEq κ] in
variable {M} in
theorem Settled.target (settled : M.Settled s (M.key record) t) : M.target s record = t := by
  have reference : M.referenced s (M.key record) = some t := by
    rw [referenced, settled.1]
    simp [settled.2]
  simp [Matcher.target, found, reference]

variable {M} in
/-- A settled key keeps its target for the rest of the pass. -/
theorem Settled.step (settled : M.Settled s k t) : M.Settled (M.step s record) k t := by
  refine ⟨?_, settled.2⟩
  rw [step_refs]
  by_cases same : k = M.key record
  · subst same
    simp [settled.target]
  · simp [same, settled.1]

variable {M} in
theorem Settled.run {records : List ρ} (settled : M.Settled s k t) :
    M.Settled (M.run s records) k t := by
  induction records generalizing s with
  | nil => exact settled
  | cons record records ih => exact ih settled.step

/-- The keys a pass has reached are those of its records. -/
theorem assigned_run_eq_none {records : List ρ} :
    (M.run s records).assigned k = none ↔
      s.assigned k = none ∧ ∀ record ∈ records, M.key record ≠ k := by
  induction records generalizing s with
  | nil => simp
  | cons record records ih =>
      rw [run_cons, ih, List.forall_mem_cons]
      by_cases same : k = M.key record
      · subst same
        simp
      · simp [same, Ne.symm same]

end Matcher

/-! ## What every state of a pass satisfies -/

section Invariant

variable [DecidableEq κ] (M : Matcher ρ κ τ) (stored : κ → Option τ)

/-- A key's reference is its target once it has one, and the stored one before. -/
structure Coherent (s : State κ τ) : Prop where
  taken : ∀ k t, s.assigned k = some t → t ∈ s.taken
  reached : ∀ k t, s.assigned k = some t → s.refs k = some t
  untouched : ∀ k, s.assigned k = none → s.refs k = stored k

variable {M stored} {s : State κ τ} {record : ρ}

omit [DecidableEq κ] in
theorem coherent_start {drawn : ℕ} : Coherent stored (start stored drawn : State κ τ) where
  taken := by simp [start]
  reached := by simp [start]
  untouched := by simp [start]

/-- A record keeps the targets coherent. -/
theorem Coherent.step (coherent : Coherent stored s) :
    Coherent stored (M.step s record) := by
  constructor
  · intro k t assigned
    rw [M.step_assigned, Rows.put_eq_some] at assigned
    obtain ⟨-, rfl⟩ | ⟨-, assigned⟩ := assigned
    · exact List.mem_cons_self
    · exact List.mem_cons_of_mem _ (coherent.taken k t assigned)
  · intro k t assigned
    rw [M.step_assigned, Rows.put_eq_some] at assigned
    rw [M.step_refs, Rows.put_eq_some]
    exact assigned.imp_right fun old => ⟨old.1, coherent.reached k t old.2⟩
  · intro k unassigned
    by_cases same : k = M.key record
    · subst same
      simp at unassigned
    · rw [M.step_assigned, Function.update_of_ne same] at unassigned
      rw [M.step_refs, Function.update_of_ne same]
      exact coherent.untouched k unassigned

theorem Coherent.run {records : List ρ} (coherent : Coherent stored s) :
    Coherent stored (M.run s records) := by
  induction records generalizing s with
  | nil => exact coherent
  | cons record records ih => exact ih coherent.step

omit [DecidableEq κ] in
/-- A reference the pass can use at a record is the stored one, or the record's key
already has that target. -/
theorem Coherent.origin (coherent : Coherent stored s) {k : κ} {t : τ}
    (reference : s.refs k = some t) : s.assigned k = some t ∨ stored k = some t := by
  cases assigned : s.assigned k with
  | none => exact .inr (by rw [← coherent.untouched k assigned, reference])
  | some t' =>
      have same := coherent.reached k t' assigned
      rw [reference] at same
      exact .inl same.symm

end Invariant

/-! ## When no two keys share a target -/

section Injective

variable [DecidableEq κ]

/-- No two keys share a target. -/
def InjectiveOn (assigned : κ → Option τ) : Prop :=
  ∀ k₁ k₂ t, assigned k₁ = some t → assigned k₂ = some t → k₁ = k₂

/-- At each record without a usable reference, the description picks no target that is
the stored reference of a record of the pass. -/
def Spares (M : Matcher ρ κ τ) (stored : κ → Option τ) (drawn : ℕ) (records : List ρ) :
    Prop :=
  ∀ before record after t, records = before ++ record :: after →
    M.referenced (M.run (start stored drawn) before) (M.key record) = none →
    M.find (M.run (start stored drawn) before).taken record = some t →
    ∀ other ∈ records, stored (M.key other) ≠ some t

variable {M : Matcher ρ κ τ} {stored : κ → Option τ} {drawn : ℕ} {s : State κ τ}
  {record : ρ} {records : List ρ}

/-- Where a target given to a key came from. -/
def Origin (M : Matcher ρ κ τ) (stored : κ → Option τ) (records : List ρ) (drawn : ℕ)
    (k : κ) (t : τ) : Prop :=
  (M.known t ∧ stored k = some t) ∨
  (M.known t ∧ ∀ other ∈ records, stored (M.key other) ≠ some t) ∨
  (∃ n < drawn, t = M.fresh n)

omit [DecidableEq κ] in
/-- An origin among the targets drawn is one among more of them. -/
theorem Origin.mono {drawn' : ℕ} {k : κ} {t : τ} (le : drawn ≤ drawn')
    (origin : Origin M stored records drawn k t) : Origin M stored records drawn' k t := by
  obtain stored | described | ⟨n, earlier, fresh⟩ := origin
  · exact .inl stored
  · exact .inr (.inl described)
  · exact .inr (.inr ⟨n, by omega, fresh⟩)

/-- Every target given is accounted for, and no two keys share one. -/
structure Separate (M : Matcher ρ κ τ) (stored : κ → Option τ) (records : List ρ)
    (s : State κ τ) : Prop where
  coherent : Coherent stored s
  origin : ∀ k t, s.assigned k = some t → Origin M stored records s.drawn k t
  injective : InjectiveOn s.assigned

omit [DecidableEq κ] in
theorem separate_start : Separate M stored records (start stored drawn) where
  coherent := coherent_start
  origin := by simp [start]
  injective := by simp [start, InjectiveOn]

omit [DecidableEq κ] in
/-- A target taken from a stored reference belongs to no other key. -/
theorem Separate.of_stored (separate : Separate M stored records s)
    (storedInjective : InjectiveOn stored)
    (freshUnknown : ∀ n, M.known (M.fresh n) = false) (member : record ∈ records)
    {k : κ} {t : τ} (reference : stored (M.key record) = some t) (known : M.known t)
    (assigned : s.assigned k = some t) : k = M.key record := by
  obtain ⟨-, own⟩ | ⟨-, spared⟩ | ⟨n, -, rfl⟩ := separate.origin k t assigned
  · exact storedInjective k (M.key record) t own reference
  · exact absurd reference (spared record member)
  · rw [freshUnknown n] at known
    exact absurd known Bool.false_ne_true

omit [DecidableEq κ] in
/-- A new target belongs to no key yet. -/
theorem Separate.fresh_unassigned (separate : Separate M stored records s)
    (freshInjective : Function.Injective M.fresh)
    (freshUnknown : ∀ n, M.known (M.fresh n) = false) (k : κ) :
    s.assigned k ≠ some (M.fresh s.drawn) := by
  intro assigned
  obtain ⟨known, -⟩ | ⟨known, -⟩ | ⟨n, earlier, same⟩ :=
    separate.origin k _ assigned
  · rw [freshUnknown] at known
    exact absurd known Bool.false_ne_true
  · rw [freshUnknown] at known
    exact absurd known Bool.false_ne_true
  · have := freshInjective same
    omega

theorem drawn_step_le : s.drawn ≤ (M.step s record).drawn := by
  unfold Matcher.step
  dsimp only
  split <;> omega

/-- One record keeps the targets apart when its description picks no target that is
somebody's stored reference. -/
theorem Separate.step (separate : Separate M stored records s)
    (storedInjective : InjectiveOn stored)
    (freshInjective : Function.Injective M.fresh)
    (freshUnknown : ∀ n, M.known (M.fresh n) = false) (member : record ∈ records)
    (spares : ∀ t, M.referenced s (M.key record) = none →
      M.find s.taken record = some t → ∀ other ∈ records, stored (M.key other) ≠ some t) :
    Separate M stored records (M.step s record) := by
  -- what the record is given comes from one of the three places, and nobody else has it
  have given : Origin M stored records (M.step s record).drawn (M.key record)
        (M.target s record) ∧
      ∀ k, s.assigned k = some (M.target s record) → k = M.key record := by
    obtain ⟨reference, known⟩ | ⟨unreferenced, described⟩ | ⟨nothing, fresh⟩ :=
      M.target_cases s record
    · obtain assigned | own := separate.coherent.origin reference
      · exact ⟨(separate.origin _ _ assigned).mono drawn_step_le,
          fun k same => separate.injective k _ _ same assigned⟩
      · exact ⟨.inl ⟨known, own⟩,
          fun k => separate.of_stored storedInjective freshUnknown member own known⟩
    · refine ⟨.inr (.inl ⟨M.find_known _ _ _ described,
        spares _ unreferenced described⟩), fun k assigned => ?_⟩
      exact absurd (separate.coherent.taken k _ assigned) (M.find_free _ _ _ described)
    · refine ⟨.inr (.inr ⟨s.drawn, ?_, fresh⟩), fun k assigned => ?_⟩
      · simp [Matcher.step, nothing]
      · rw [fresh] at assigned
        exact absurd assigned (separate.fresh_unassigned freshInjective freshUnknown k)
  have unchanged : ∀ k, k ≠ M.key record →
      (M.step s record).assigned k = s.assigned k := fun k other => by
    simp [Matcher.step, other]
  have own : (M.step s record).assigned (M.key record) = some (M.target s record) := by
    simp [Matcher.step]
  refine ⟨separate.coherent.step, ?_, ?_⟩
  · intro k t assigned
    by_cases same : k = M.key record
    · subst same
      rw [own, Option.some.injEq] at assigned
      exact assigned ▸ given.1
    · rw [unchanged k same] at assigned
      exact (separate.origin k t assigned).mono drawn_step_le
  · intro k₁ k₂ t first second
    by_cases same₁ : k₁ = M.key record
    · by_cases same₂ : k₂ = M.key record
      · exact same₁.trans same₂.symm
      · subst same₁
        rw [own, Option.some.injEq] at first
        rw [unchanged k₂ same₂, ← first] at second
        exact (given.2 k₂ second).symm
    · rw [unchanged k₁ same₁] at first
      by_cases same₂ : k₂ = M.key record
      · subst same₂
        rw [own, Option.some.injEq] at second
        exact given.2 k₁ (second ▸ first)
      · rw [unchanged k₂ same₂] at second
        exact separate.injective k₁ k₂ t first second

/-- A pass whose descriptions spare the stored references keeps the targets apart. -/
theorem separate_run (storedInjective : InjectiveOn stored)
    (freshInjective : Function.Injective M.fresh)
    (freshUnknown : ∀ n, M.known (M.fresh n) = false)
    (spares : Spares M stored drawn records) :
    Separate M stored records (M.run (start stored drawn) records) := by
  -- induction on the part of the pass already done
  suffices done : ∀ before after, records = before ++ after →
      Separate M stored records (M.run (start stored drawn) before) from
    done records [] (List.append_nil records).symm
  intro before
  induction before using List.reverseRecOn with
  | nil => exact fun _ _ => separate_start
  | append_singleton before record ih =>
      intro after split
      rw [List.append_assoc, List.singleton_append] at split
      rw [Matcher.run_append]
      refine (ih (record :: after) split).step storedInjective freshInjective freshUnknown ?_ ?_
      · rw [split]
        exact List.mem_append_right _ List.mem_cons_self
      · exact fun t => spares before record after t split

/-- A description that picks somebody's stored reference gives two keys one target. -/
theorem shared_of_described {before after : List ρ} {other : ρ} {t : τ}
    (split : records = before ++ record :: after) (member : other ∈ records)
    (unreferenced : M.referenced (M.run (start stored drawn) before) (M.key record) = none)
    (described : M.find (M.run (start stored drawn) before).taken record = some t)
    (reference : stored (M.key other) = some t) :
    ¬ InjectiveOn (M.run (start stored drawn) records).assigned := by
  intro injective
  have known := M.find_known _ _ _ described
  have coherent : Coherent stored (M.run (start stored drawn) before) := coherent_start.run
  have final : Coherent stored (M.run (start stored drawn) records) := coherent_start.run
  have assigned : ∀ r ∈ records, ∀ t,
      M.Settled (M.run (start stored drawn) records) (M.key r) t →
      (M.run (start stored drawn) records).assigned (M.key r) = some t := by
    intro r present t settled
    cases reached : (M.run (start stored drawn) records).assigned (M.key r) with
    | none =>
        have := (M.assigned_run_eq_none.mp reached).2 r present
        exact absurd rfl this
    | some t' =>
        have same := final.reached _ _ reached
        rw [settled.1] at same
        exact same.symm
  -- the other key's reference is usable from the start
  have otherSettled : M.Settled (M.run (start stored drawn) records) (M.key other) t :=
    Matcher.Settled.run ⟨reference, known⟩
  -- the record's key is settled on the same target at its turn
  have recordSettled : M.Settled (M.run (start stored drawn) records) (M.key record) t := by
    rw [split, Matcher.run_append, Matcher.run_cons]
    refine Matcher.Settled.run ⟨?_, known⟩
    have target : M.target (M.run (start stored drawn) before) record = t := by
      simp [Matcher.target, Matcher.found, unreferenced, described]
    simp [Matcher.step, target]
  have recordMember : record ∈ records := by
    rw [split]
    exact List.mem_append_right _ List.mem_cons_self
  have same : M.key record = M.key other :=
    injective _ _ t (assigned record recordMember t recordSettled)
      (assigned other member t otherSettled)
  -- then the record had a usable reference at its turn
  have usable : M.Settled (M.run (start stored drawn) before) (M.key record) t := by
    rw [same]
    exact Matcher.Settled.run ⟨reference, known⟩
  simp [Matcher.referenced, usable.1, known] at unreferenced

/-- **No two keys share a target** exactly when no description picks a target that is
the stored reference of a record of the pass. -/
theorem run_injective_iff (storedInjective : InjectiveOn stored)
    (freshInjective : Function.Injective M.fresh)
    (freshUnknown : ∀ n, M.known (M.fresh n) = false) :
    InjectiveOn (M.run (start stored drawn) records).assigned ↔
      Spares M stored drawn records := by
  constructor
  · intro injective before record after t split unreferenced described other member reference
    exact shared_of_described split member unreferenced described reference injective
  · intro spares
    exact (separate_run storedInjective freshInjective freshUnknown spares).injective

end Injective

end Matching
