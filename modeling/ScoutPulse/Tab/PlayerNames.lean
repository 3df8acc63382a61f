import ScoutPulse.Lib.Machine
import ScoutPulse.Lib.OrderedSet
import Mathlib.Data.List.AList
import Mathlib.Data.List.Basic
import Mathlib.Data.Nat.Basic

/-!
# Names of players

Ids of players are looked up a page at a time, and each id by one look-up at a time. A call
waits for the look-ups it starts itself, not for those another call has started.

The code that runs between two waits is one step; the end of a look-up is two, as the ids
leave the map of those in flight after its answer has been stored.
-/

namespace ScoutPulse.PlayerNames

/-- A `Map` from ids. -/
abbrev IdMap (α : Type) := AList fun _ : String => α

/-- How far a look-up is. -/
inductive Phase
  | asked
  /-- Answered or failed, and `load` is through. -/
  | ended
  /-- Its ids are out of `inFlight`. -/
  | over
  deriving DecidableEq

/-- A `load` of a batch of ids. -/
structure LookUp where
  batch : List String
  phase : Phase
  deriving DecidableEq

/-- A call of `resolve`. -/
structure Call where
  /-- The ids it was given, without those that are none. -/
  ids : List String
  /-- The look-ups it started and waits for. -/
  requests : List ℕ
  settled : Bool
  /-- `inFlight` as it was once the call had been made. -/
  inFlight : IdMap ℕ

/-- The store, the look-ups started and the calls made so far. -/
structure State where
  namesById : IdMap String
  inFlight : IdMap ℕ
  /-- What was published for the page to start from. -/
  namesTransfer : IdMap String
  lookUps : List LookUp
  calls : List Call

/-- `MAX_PAGE_SIZE`. -/
def maxPageSize : ℕ := 100

/-- The ids of a call that are neither null nor empty. -/
def given (ids : List (Option String)) : List String := ids.filterMap fun id => id.filter (· ≠ "")

/-- The ids a call has to look up. -/
def State.wanted (s : State) (ids : List (Option String)) : List String :=
  OrderedSet.ofList ((given ids).filter fun id => id ∉ s.namesById ∧ id ∉ s.inFlight)

/-- The slices of a list, of `n` elements each but the last. -/
def slices (n : ℕ) (xs : List String) : List (List String) :=
  (List.range ((xs.length + n - 1) / n)).map fun i => (xs.drop (i * n)).take n

/-- `fetch`, and `load` up to the answer. -/
def State.fetch (s : State) (batch : List String) : State :=
  { s with
    lookUps := s.lookUps ++ [⟨batch, .asked⟩]
    inFlight := batch.foldl (fun inFlight id => inFlight.insert id s.lookUps.length) s.inFlight }

/-- `resolve` up to its wait; with nothing wanted it returns. -/
def State.resolve (s : State) (ids : List (Option String)) : State :=
  let wanted := s.wanted ids
  if wanted = [] then { s with calls := s.calls ++ [⟨given ids, [], true, s.inFlight⟩] }
  else
    let batches := slices maxPageSize wanted
    let fetched := batches.foldl State.fetch s
    { fetched with
      calls := s.calls ++
        [⟨given ids, List.range' s.lookUps.length batches.length, false, fetched.inFlight⟩] }

def State.setPhase (s : State) (l : ℕ) (phase : Phase) : State :=
  { s with lookUps := s.lookUps.modify l fun u => { u with phase := phase } }

/-- The phase of a look-up. -/
def State.phase (s : State) (l : ℕ) : Option Phase := (s.lookUps[l]?).map (·.phase)

inductive Event
  /-- A call of `resolve`. -/
  | resolve (ids : List (Option String))
  /-- A look-up is answered with some players. -/
  | answer (l : ℕ) (items : List (String × String))
  | fail (l : ℕ)
  /-- What `fetch` does when a look-up has ended. -/
  | finally_ (l : ℕ)
  /-- A call whose look-ups are over goes on to its end. -/
  | settle (c : ℕ)

def State.next (s : State) : Event → Option State
  | .resolve ids => some (s.resolve ids)
  | .answer l items =>
      if s.phase l = some .asked then
        some { s.setPhase l .ended with
          namesById := items.foldl (fun names p => names.insert p.1 p.2) s.namesById }
      else none
  | .fail l => if s.phase l = some .asked then some (s.setPhase l .ended) else none
  | .finally_ l =>
      match s.lookUps[l]? with
      | some ⟨batch, .ended⟩ =>
          some { s.setPhase l .over with
            inFlight := batch.foldl (fun inFlight id => inFlight.erase id) s.inFlight }
      | _ => none
  | .settle c =>
      match s.calls[c]? with
      | some call =>
          if call.settled = false ∧ ∀ l ∈ call.requests, s.phase l = some .over then
            some { s with
              namesTransfer := s.namesById
              calls := s.calls.modify c fun call => { call with settled := true } }
          else none
      | none => none

/-- The store of a page, with the names it starts from. -/
def machine : Machine State Event where
  start s := ∃ names, s = ⟨names, ∅, names, [], []⟩
  next := State.next

/-! ## What is promised -/

/-- Each id of a call has been answered, or the look-up it was in once the call had been
made has ended. -/
def Served (s : State) (c : Call) : Prop :=
  ∀ id ∈ c.ids, id ∈ s.namesById ∨
    ∃ l phase, c.inFlight.lookup id = some l ∧ s.phase l = some phase ∧ phase ≠ .asked

/-- No id is asked for by two look-ups at the same time, nor twice by one. -/
def AskedOnce (s : State) : Prop :=
  (∀ (l l' : ℕ) (u u' : LookUp) (id : String), s.lookUps[l]? = some u → s.lookUps[l']? = some u' →
    u.phase = .asked → u'.phase = .asked → id ∈ u.batch → id ∈ u'.batch → l = l') ∧
  ∀ u ∈ s.lookUps, u.batch.Nodup

/-- No id of a call is being looked up when the call is made, but those known. -/
def Clear (s : State) : Event → Prop
  | .resolve ids => ∀ id ∈ given ids, id ∉ s.namesById →
      (s.inFlight.lookup id).bind s.phase ≠ some .asked
  | _ => True

instance (s : State) : (e : Event) → Decidable (Clear s e)
  | .resolve ids => inferInstanceAs (Decidable (∀ id ∈ given ids, id ∉ s.namesById →
      (s.inFlight.lookup id).bind s.phase ≠ some .asked))
  | .answer _ _ | .fail _ | .finally_ _ | .settle _ => .isTrue trivial

/-! ## Slices -/

/-- The slices of a list are the list. -/
theorem flatten_slices {n : ℕ} (some_ : 0 < n) (xs : List String) : (slices n xs).flatten = xs := by
  have upTo (k : ℕ) :
      ((List.range k).map fun i => (xs.drop (i * n)).take n).flatten = xs.take (k * n) := by
    induction k with
    | zero => simp
    | succ k ih =>
        rw [List.range_succ, List.map_append, List.flatten_append, ih, Nat.succ_mul, List.take_add]
        simp
  rw [slices, upTo]
  refine List.take_of_length_le ?_
  have whole := Nat.div_add_mod (xs.length + n - 1) n
  have small := Nat.mod_lt (xs.length + n - 1) some_
  rw [Nat.mul_comm]
  omega

/-! ## Maps filled and emptied by loops -/

section Maps

variable {α : Type} {map : IdMap α} {batch : List String} {id : String}

/-- Names put in are found, and the others are as before. -/
theorem lookup_foldl_insert (value : α) :
    (batch.foldl (fun map id => map.insert id value) map).lookup id =
      if id ∈ batch then some value else map.lookup id := by
  induction batch generalizing map with
  | nil => rfl
  | cons head batch ih =>
      rw [List.foldl_cons, ih]
      by_cases later : id ∈ batch
      · rw [if_pos later, if_pos (List.mem_cons_of_mem _ later)]
      · rw [if_neg later]
        by_cases here : id = head
        · subst here
          rw [AList.lookup_insert, if_pos List.mem_cons_self]
        · rw [AList.lookup_insert_ne here, if_neg (by simp [here, later])]

/-- Ids taken out are gone, and the others are as before. -/
theorem lookup_foldl_erase :
    (batch.foldl (fun map id => map.erase id) map).lookup id =
      if id ∈ batch then none else map.lookup id := by
  induction batch generalizing map with
  | nil => rfl
  | cons head batch ih =>
      rw [List.foldl_cons, ih]
      by_cases later : id ∈ batch
      · rw [if_pos later, if_pos (List.mem_cons_of_mem _ later)]
      · rw [if_neg later]
        by_cases here : id = head
        · subst here
          rw [AList.lookup_erase, if_pos List.mem_cons_self]
        · rw [AList.lookup_erase_ne here, if_neg (by simp [here, later])]

theorem mem_foldl_insert {items : List (String × α)} (member : id ∈ map) :
    id ∈ items.foldl (fun map p => map.insert p.1 p.2) map := by
  induction items generalizing map with
  | nil => exact member
  | cons p items ih => exact ih ((AList.mem_insert _).mpr (.inr member))

end Maps

/-! ## Look-ups in flight -/

/-- A look-up that is not over is the one its ids are in flight with. -/
structure Inv (s : State) : Prop where
  live : ∀ (l : ℕ) (u : LookUp) (id : String), s.lookUps[l]? = some u → u.phase ≠ .over →
    id ∈ u.batch → s.inFlight.lookup id = some l
  flight : ∀ (id : String) (l : ℕ), s.inFlight.lookup id = some l → l < s.lookUps.length
  nodup : ∀ u ∈ s.lookUps, u.batch.Nodup

theorem Inv.askedOnce {s : State} (inv : Inv s) : AskedOnce s := by
  refine ⟨fun l l' u u' id first second asked asked' member member' => ?_, inv.nodup⟩
  have here := inv.live l u id first (by rw [asked]; decide) member
  have there := inv.live l' u' id second (by rw [asked']; decide) member'
  exact Option.some.inj (here.symm.trans there)

section Fetch

variable {s : State} {batch : List String} {batches : List (List String)} {id : String}

theorem lookup_fetch : (s.fetch batch).inFlight.lookup id =
    if id ∈ batch then some s.lookUps.length else s.inFlight.lookup id := lookup_foldl_insert _

/-- A batch of ids none of which is in flight may be asked for. -/
theorem Inv.fetch (inv : Inv s) (nodup : batch.Nodup) (free : ∀ id ∈ batch, id ∉ s.inFlight) :
    Inv (s.fetch batch) := by
  have length : (s.fetch batch).lookUps.length = s.lookUps.length + 1 := List.length_append
  refine ⟨fun l u id found live member => ?_, fun id l found => ?_, fun u member => ?_⟩
  · rw [lookup_fetch]
    rw [State.fetch, List.getElem?_append] at found
    split_ifs at found with old
    · have flying := inv.live l u id found live member
      have other : id ∉ batch := fun among =>
        free id among (AList.lookup_isSome.mp (by rw [flying]; rfl))
      rw [if_neg other, flying]
    · rw [List.getElem?_singleton] at found
      split_ifs at found with first
      cases found
      rw [if_pos member, Option.some.injEq]
      omega
  · rw [length]
    rw [lookup_fetch] at found
    split_ifs at found
    · exact Option.some.inj found ▸ Nat.lt_succ_self _
    · exact Nat.lt_succ_of_lt (inv.flight id l found)
  · obtain old | new := List.mem_append.mp member
    · exact inv.nodup u old
    · rw [List.mem_singleton.mp new]
      exact nodup

/-- What fetching some batches makes of a store. -/
structure Fetched (s s' : State) (batches : List (List String)) : Prop where
  names : s'.namesById = s.namesById
  lookUps : s'.lookUps = s.lookUps ++ batches.map fun batch => ⟨batch, .asked⟩
  kept : ∀ id ∉ batches.flatten, s'.inFlight.lookup id = s.inFlight.lookup id
  own : ∀ id ∈ batches.flatten, ∃ l ∈ List.range' s.lookUps.length batches.length,
    s'.inFlight.lookup id = some l

/-- Batches are asked for one after the other. -/
theorem fetched (s : State) (batches : List (List String)) :
    Fetched s (batches.foldl State.fetch s) batches := by
  induction batches generalizing s with
  | nil => exact ⟨rfl, (List.append_nil _).symm, fun _ _ => rfl, fun id member => by cases member⟩
  | cons batch batches ih =>
      have rest := ih (s.fetch batch)
      have length : (s.fetch batch).lookUps.length = s.lookUps.length + 1 := List.length_append
      rw [List.foldl_cons]
      refine ⟨rest.names, ?_, fun id other => ?_, fun id member => ?_⟩
      · rw [rest.lookUps, List.map_cons]
        exact List.append_assoc _ _ _
      · rw [List.flatten_cons, List.mem_append, not_or] at other
        rw [rest.kept id other.2, lookup_fetch, if_neg other.1]
      · rw [List.length_cons, List.range'_succ]
        by_cases later : id ∈ batches.flatten
        · obtain ⟨l, among, found⟩ := rest.own id later
          rw [length] at among
          exact ⟨l, List.mem_cons_of_mem _ among, found⟩
        · rw [List.flatten_cons, List.mem_append] at member
          refine ⟨_, List.mem_cons_self, ?_⟩
          rw [rest.kept id later, lookup_fetch, if_pos (member.resolve_right later)]

/-- So may several batches. -/
theorem Inv.fetchAll (inv : Inv s) (nodup : batches.flatten.Nodup)
    (free : ∀ id ∈ batches.flatten, id ∉ s.inFlight) : Inv (batches.foldl State.fetch s) := by
  induction batches generalizing s with
  | nil => exact inv
  | cons batch batches ih =>
      rw [List.flatten_cons, List.nodup_append'] at nodup
      rw [List.flatten_cons] at free
      refine ih (inv.fetch nodup.1 fun id member => free id (List.mem_append_left _ member))
        nodup.2.1 fun id member flying => ?_
      have apart : id ∉ batch := fun here => nodup.2.2 here member
      refine free id (List.mem_append_right _ member) ?_
      rw [← AList.lookup_isSome] at flying ⊢
      rwa [lookup_fetch, if_neg apart] at flying

end Fetch

/-! ## One step -/

/-- What only grows: the names known, and how far the look-ups are. -/
structure Grows (s s' : State) : Prop where
  names : ∀ id ∈ s.namesById, id ∈ s'.namesById
  phase : ∀ l p, s.phase l = some p →
    ∃ p', s'.phase l = some p' ∧ (p ≠ .asked → p' ≠ .asked) ∧ (p = .over → p' = .over)

/-- A call that started with none of its ids being looked up: the look-ups of its ids are
those it waits for or have ended. -/
structure Call.Waits (s : State) (c : Call) : Prop where
  settled : c.settled = true → ∀ l ∈ c.requests, s.phase l = some .over
  own : ∀ id ∈ c.ids, id ∈ s.namesById ∨ ∃ l p, c.inFlight.lookup id = some l ∧
    s.phase l = some p ∧ (l ∈ c.requests ∨ p ≠ .asked)

section Step

variable {s s' : State} {c : Call} {e : Event} {l : ℕ}

/-- A call that has settled is served. -/
theorem Call.Waits.served (waits : c.Waits s) (settled : c.settled = true) : Served s c := by
  intro id member
  refine (waits.own id member).imp_right fun ⟨l, p, found, phase, either⟩ =>
    ⟨l, p, found, phase, ?_⟩
  obtain requested | ended := either
  · rw [waits.settled settled l requested, Option.some.injEq] at phase
    rw [← phase]
    decide
  · exact ended

/-- A call goes on waiting while the look-ups grow. -/
theorem Call.Waits.grows (waits : c.Waits s) (grows : Grows s s') : c.Waits s' := by
  refine ⟨fun settled l requested => ?_, fun id member => ?_⟩
  · obtain ⟨p', phase, -, closed⟩ := grows.phase l _ (waits.settled settled l requested)
    rw [phase, closed rfl]
  · obtain known | ⟨l, p, found, phase, either⟩ := waits.own id member
    · exact .inl (grows.names id known)
    · obtain ⟨p', phase', ended, -⟩ := grows.phase l p phase
      exact .inr ⟨l, p', found, phase', either.imp_right ended⟩

/-- A look-up goes to a phase, and the others stay in theirs. -/
theorem phase_setPhase {l' : ℕ} {p : Phase} : (s.setPhase l p).phase l' =
    if l = l' then (s.phase l').map fun _ => p else s.phase l' := by
  rw [State.phase, State.setPhase, List.getElem?_modify, State.phase]
  split_ifs
  · cases s.lookUps[l']? <;> rfl
  · cases s.lookUps[l']? <;> rfl

/-- A look-up that goes ahead grows. -/
theorem grows_setPhase {p q : Phase} (now : s.phase l = some p) (ahead : p ≠ .over)
    (ended : q ≠ .asked) : Grows s (s.setPhase l q) := by
  refine ⟨fun _ => id, fun l' p' found => ?_⟩
  rw [phase_setPhase]
  split_ifs with same
  · subst same
    obtain rfl := Option.some.inj (now.symm.trans found)
    rw [found]
    exact ⟨q, rfl, fun _ => ended, fun closed => absurd closed ahead⟩
  · exact ⟨p', found, id, id⟩

/-- A look-up as it was before one of them came to another phase. -/
theorem lookUp_setPhase {l' : ℕ} {p : Phase} {u : LookUp}
    (found : (s.setPhase l p).lookUps[l']? = some u) :
    ∃ u', s.lookUps[l']? = some u' ∧ u = if l = l' then { u' with phase := p } else u' := by
  rw [State.setPhase, List.getElem?_modify] at found
  obtain ⟨u', there, same⟩ := Option.map_eq_some_iff.mp found
  exact ⟨u', there, same.symm⟩

/-- The batch of a look-up has each id once. -/
theorem Inv.nodup_setPhase (inv : Inv s) {p : Phase} {u : LookUp}
    (member : u ∈ (s.setPhase l p).lookUps) : u.batch.Nodup := by
  obtain ⟨l', found⟩ := List.getElem?_of_mem member
  obtain ⟨u', there, rfl⟩ := lookUp_setPhase found
  have nodup := inv.nodup u' (List.mem_of_getElem? there)
  split_ifs
  · exact nodup
  · exact nodup

theorem length_setPhase (s : State) (l : ℕ) (p : Phase) :
    (s.setPhase l p).lookUps.length = s.lookUps.length := List.length_modify _ _ _

/-- A look-up that ends keeps its ids in flight. -/
theorem Inv.setPhase_ended (inv : Inv s) (now : s.phase l = some .asked) :
    Inv (s.setPhase l .ended) := by
  refine ⟨fun l' u id found live member => ?_, fun id l' found => ?_,
    fun u member => inv.nodup_setPhase member⟩
  · obtain ⟨u', there, rfl⟩ := lookUp_setPhase found
    split_ifs at live member with here
    · subst here
      refine inv.live l u' id there (fun closed => ?_) member
      rw [State.phase, there, Option.map_some, Option.some.injEq, closed] at now
      cases now
    · exact inv.live l' u' id there live member
  · rw [length_setPhase]
    exact inv.flight id l' found

/-- When its ids leave the map of those in flight a look-up is over. -/
theorem Inv.finally_ (inv : Inv s) {batch : List String}
    (now : s.lookUps[l]? = some ⟨batch, .ended⟩) :
    Inv { s.setPhase l .over with
      inFlight := batch.foldl (fun inFlight id => inFlight.erase id) s.inFlight } := by
  refine ⟨fun l' u id found live member => ?_, fun id l' found => ?_,
    fun u member => inv.nodup_setPhase member⟩
  · obtain ⟨u', there, rfl⟩ := lookUp_setPhase found
    split_ifs at live member with here
    · exact absurd rfl live
    · have flying := inv.live l' u' id there live member
      have other : id ∉ batch := by
        intro among
        have own := inv.live l _ id now (fun closed => Phase.noConfusion closed) among
        exact here (Option.some.inj (own.symm.trans flying))
      exact (lookup_foldl_erase.trans (if_neg other)).trans flying
  · have before := lookup_foldl_erase.symm.trans found
    split_ifs at before
    exact (length_setPhase s l .over).symm ▸ inv.flight id l' before

theorem free_of_wanted {ids : List (Option String)} {id : String} (member : id ∈ s.wanted ids) :
    id ∈ given ids ∧ id ∉ s.namesById ∧ id ∉ s.inFlight := by
  obtain ⟨among, free⟩ := List.mem_filter.mp (OrderedSet.mem_ofList.mp member)
  obtain ⟨unknown, free⟩ := of_decide_eq_true free
  exact ⟨among, unknown, free⟩

theorem flatten_batches (ids : List (Option String)) :
    (slices maxPageSize (s.wanted ids)).flatten = s.wanted ids :=
  flatten_slices (by decide) _

/-- What a call leaves of the store and the look-ups. -/
theorem resolve_eq (s : State) (ids : List (Option String)) :
    ∃ fetched c, s.resolve ids = { fetched with calls := s.calls ++ [c] } ∧
      Fetched s fetched (slices maxPageSize (s.wanted ids)) ∧ (Inv s → Inv fetched) ∧
      c.ids = given ids ∧ c.inFlight = fetched.inFlight ∧
      c.requests = List.range' s.lookUps.length (slices maxPageSize (s.wanted ids)).length ∧
      (c.settled = true → c.requests = []) := by
  have all : (slices maxPageSize (s.wanted ids)).flatten = s.wanted ids := flatten_batches ids
  unfold State.resolve
  dsimp only
  split_ifs with none_
  · refine ⟨s, _, rfl, ?_, id, rfl, rfl, ?_, fun _ => rfl⟩
    · rw [none_]
      exact fetched s []
    · rw [none_]
      rfl
  · refine ⟨_, _, rfl, fetched s _, fun inv => inv.fetchAll ?_ fun id member => ?_, rfl, rfl, rfl,
      fun settled => Bool.noConfusion settled⟩
    · rw [all]
      exact OrderedSet.nodup_ofList _
    · rw [all] at member
      exact (free_of_wanted member).2.2

/-- Whatever happens next, each id is asked for once. -/
theorem Inv.next (inv : Inv s) (next : s.next e = some s') : Inv s' := by
  cases e with
  | resolve ids =>
      obtain ⟨fetched, c, same, -, kept, -⟩ := resolve_eq s ids
      cases next
      rw [same]
      obtain ⟨live, flight, nodup⟩ := kept inv
      exact ⟨live, flight, nodup⟩
  | answer l items =>
      rw [State.next] at next
      split_ifs at next with now
      cases next
      obtain ⟨live, flight, nodup⟩ := inv.setPhase_ended now
      exact ⟨live, flight, nodup⟩
  | fail l =>
      rw [State.next] at next
      split_ifs at next with now
      cases next
      exact inv.setPhase_ended now
  | finally_ l =>
      rw [State.next] at next
      split at next
      · next batch now =>
          cases next
          exact inv.finally_ now
      · cases next
  | settle i =>
      rw [State.next] at next
      split at next
      · split_ifs at next
        cases next
        obtain ⟨live, flight, nodup⟩ := inv
        exact ⟨live, flight, nodup⟩
      · cases next

/-- The look-ups grow by those that are asked for. -/
theorem Fetched.grows {fetched : State} {batches : List (List String)}
    (made : Fetched s fetched batches) : Grows s fetched := by
  refine ⟨fun id known => made.names ▸ known, fun l p found => ⟨p, ?_, id, id⟩⟩
  obtain ⟨u, there, rfl⟩ := Option.map_eq_some_iff.mp found
  rw [State.phase, made.lookUps, List.getElem?_append_left (List.getElem?_eq_some_iff.mp there).1,
    there, Option.map_some]

/-- A step takes away no name and turns no look-up back. -/
theorem grows_next (next : s.next e = some s') : Grows s s' := by
  cases e with
  | resolve ids =>
      obtain ⟨fetched, c, same, made, -⟩ := resolve_eq s ids
      cases next
      rw [same]
      exact ⟨made.grows.names, made.grows.phase⟩
  | answer l items =>
      rw [State.next] at next
      split_ifs at next with now
      cases next
      exact ⟨fun id known => mem_foldl_insert known,
        (grows_setPhase now (by decide) (by decide)).phase⟩
  | fail l =>
      rw [State.next] at next
      split_ifs at next with now
      cases next
      exact grows_setPhase now (by decide) (by decide)
  | finally_ l =>
      rw [State.next] at next
      split at next
      · next batch now =>
          cases next
          have phase : s.phase l = some .ended := congrArg (Option.map LookUp.phase) now
          exact ⟨fun _ => id, (grows_setPhase phase (by decide) (by decide)).phase⟩
      · cases next
  | settle i =>
      rw [State.next] at next
      split at next
      · split_ifs at next
        cases next
        exact ⟨fun _ => id, fun l p found => ⟨p, found, id, id⟩⟩
      · cases next

/-- A call waits for its ids when it is made with none of them being looked up. -/
theorem waits_resolve (inv : Inv s) {ids : List (Option String)} (clear : Clear s (.resolve ids))
    (others : ∀ c ∈ s.calls, c.Waits s) : ∀ c ∈ (s.resolve ids).calls, c.Waits (s.resolve ids) := by
  have grows : Grows s (s.resolve ids) := grows_next (e := .resolve ids) rfl
  obtain ⟨fetched, c, same, made, -, sameIds, inFlight, requests, settled⟩ := resolve_eq s ids
  intro c' member
  have phase (l : ℕ) : (s.resolve ids).phase l = fetched.phase l := by rw [same]; rfl
  rw [same] at member
  obtain old | new := List.mem_append.mp member
  · exact (others c' old).grows grows
  · obtain rfl := List.mem_singleton.mp new
    refine ⟨fun closed l requested => ?_, fun id among => ?_⟩
    · rw [settled closed] at requested
      cases requested
    · by_cases known : id ∈ s.namesById
      · exact .inl (grows.names id known)
      · right
        rw [sameIds] at among
        rw [inFlight]
        by_cases flying : id ∈ s.inFlight
        · -- The look-up it is in flight with has ended.
          obtain ⟨l, found⟩ := Option.isSome_iff_exists.mp (AList.lookup_isSome.mpr flying)
          have below := inv.flight id l found
          have ended := clear id among known
          rw [found, Option.bind_some] at ended
          have now : s.phase l = some (s.lookUps[l]).phase := by
            rw [State.phase, List.getElem?_eq_getElem below, Option.map_some]
          obtain ⟨p', now', keeps, -⟩ := grows.phase l _ now
          refine ⟨l, p', ?_, now', .inr (keeps fun asked => ended (asked ▸ now))⟩
          rw [made.kept id fun wanted => ?_, found]
          rw [flatten_batches] at wanted
          exact (free_of_wanted wanted).2.2 flying
        · have wanted : id ∈ s.wanted ids :=
            OrderedSet.mem_ofList.mpr (List.mem_filter.mpr ⟨among, decide_eq_true ⟨known, flying⟩⟩)
          rw [← flatten_batches] at wanted
          obtain ⟨l, requested, found⟩ := made.own id wanted
          have there : fetched.phase l = some .asked := by
            obtain ⟨first, below⟩ := List.mem_range'_1.mp requested
            rw [State.phase, made.lookUps, List.getElem?_append_right first, List.getElem?_map,
              List.getElem?_eq_getElem (by omega)]
            rfl
          exact ⟨l, .asked, found, (phase l).trans there, .inl (requests ▸ requested)⟩

/-- Whatever happens next, each call waits for a look-up or is served. -/
theorem waits_next (inv : Inv s) (clear : Clear s e) (others : ∀ c ∈ s.calls, c.Waits s)
    (next : s.next e = some s') : ∀ c ∈ s'.calls, c.Waits s' := by
  have grows := grows_next next
  cases e with
  | resolve ids =>
      cases next
      exact waits_resolve inv clear others
  | answer l items =>
      rw [State.next] at next
      split_ifs at next
      cases next
      exact fun c member => (others c member).grows grows
  | fail l =>
      rw [State.next] at next
      split_ifs at next
      cases next
      exact fun c member => (others c member).grows grows
  | finally_ l =>
      rw [State.next] at next
      split at next
      · cases next
        exact fun c member => (others c member).grows grows
      · cases next
  | settle i =>
      rw [State.next] at next
      split at next
      · next call there =>
          split_ifs at next with ready
          cases next
          intro c member
          obtain ⟨j, found⟩ := List.getElem?_of_mem member
          change (s.calls.modify i _)[j]? = some c at found
          rw [List.getElem?_modify] at found
          obtain ⟨old, before, same⟩ := Option.map_eq_some_iff.mp found
          have waits := (others old (List.mem_of_getElem? before)).grows grows
          split_ifs at same with here
          · subst here
            obtain rfl := Option.some.inj (there.symm.trans before)
            rw [← same]
            exact ⟨fun _ l requested => ready.2 l requested, waits.own⟩
          · rw [← same]
            exact waits
      · cases next

end Step

/-! ## Runs -/

/-- So it is at first. -/
theorem inv_start {s : State} (start : machine.start s) : Inv s ∧ ∀ c ∈ s.calls, c.Waits s := by
  obtain ⟨names, rfl⟩ := start
  refine ⟨⟨fun l u id found => ?_, fun id l found => ?_, fun u member => ?_⟩, fun c member => ?_⟩
  · cases found
  · cases found
  · cases member
  · cases member

/-- **Waiting for names.** No id is asked for by two look-ups at the same time; and where no
call is made with an id that is being looked up, each call that settles has been served. -/
theorem resolve_waits (s : State) :
    (machine.Reach Machine.always s → AskedOnce s) ∧
      (machine.Reach Clear s → ∀ c ∈ s.calls, c.settled = true → Served s c) := by
  constructor
  · intro reach
    have inv : Inv s := reach.invariant (fun start => (inv_start start).1)
      fun inv _ next => inv.next next
    exact inv.askedOnce
  · intro reach c member settled
    have both : Inv s ∧ ∀ c ∈ s.calls, c.Waits s := reach.invariant inv_start
      fun both clear next => ⟨both.1.next next, waits_next both.1 clear both.2 next⟩
    exact (both.2 c member).served settled

/-- A page that knows no name. -/
def blank : State := ⟨∅, ∅, ∅, [], []⟩

/-- Two calls for one id, one after the other. -/
def twice : List Event := [.resolve [some "p1"], .resolve [some "p1"]]

/-- The second of two calls for one id settles while the id is being looked up. -/
theorem resolve_unserved :
    ¬ ((∀ s, machine.Reach Machine.always s → AskedOnce s) ∧
      ∀ s, machine.Reach Machine.always s → ∀ c ∈ s.calls, c.settled = true → Served s c) := by
  rintro ⟨-, served⟩
  have reach : machine.Reach Machine.always (machine.after Machine.always blank twice) :=
    Machine.reach_after ⟨∅, rfl⟩ (by decide)
  have call := served _ reach _ (List.mem_of_getElem? (i := 1) rfl) rfl "p1" List.mem_cons_self
  obtain known | ⟨l, p, found, phase, ended⟩ := call
  · exact absurd known (by decide)
  · cases found
    cases phase
    exact ended rfl

/-- A call, its look-up answered and over, and the call's end. -/
def once : List Event :=
  [.resolve [some "p1", none], .answer 0 [("p1", "A")], .finally_ 0, .settle 0]

/-- A call for one name is served. -/
theorem resolve_waits_once :
    ∃ c ∈ (machine.after Clear blank once).calls, c.ids = ["p1"] ∧ c.settled = true ∧
      Served (machine.after Clear blank once) c := by
  have reach : machine.Reach Clear (machine.after Clear blank once) :=
    Machine.reach_after ⟨∅, rfl⟩ (by decide)
  exact ⟨_, List.mem_of_getElem? (i := 0) rfl, rfl, rfl,
    (resolve_waits _).2 reach _ (List.mem_of_getElem? (i := 0) rfl) rfl⟩

end ScoutPulse.PlayerNames
