import ScoutPulse.Football.Grants

/-!
# Revocation

Which answers the cache can hold after a change of the grants has returned, and when no
decision that begins then is made on the grants from before it.
-/

namespace ScoutPulse.Grants

open Strings

/-! ## What a step does -/

/-- A stage that rests on no reading of the grants. -/
def Stage.plain : Stage → Bool
  | .filling _ _ _ | .decided _ (some _) | .changed _ => false
  | _ => true

/-- A user and a club are named by texts of UUIDs. -/
def Named (userID teamID : String) : Prop :=
  (∃ user, Uuid.parse userID = some user) ∧ ∃ team, Uuid.parse teamID = some team

/-- One step of a request. -/
inductive Advance (s : State) (i : ℕ) (r : Request) : State → Prop
  | passes (stage : Stage) (plain : stage.plain = true) : Advance s i r (s.move i r stage)
  | hits (userID teamID : String) (entry : CachedGrant) (kind : r.kind = .managesTeam userID teamID)
      (cached : (key userID teamID, entry) ∈ s.cache) :
      Advance s i r (s.move i r (.decided entry.manages (some entry.version)))
  | queries (userID teamID : String) (now : Time) (manages : Bool)
      (kind : r.kind = .managesTeam userID teamID) (named : Named userID teamID) :
      Advance s i r (s.move i r (.filling now manages s.version))
  | fills (userID teamID : String) (expiresAt now started : Time) (manages : Bool) (version : ℕ)
      (kind : r.kind = .managesTeam userID teamID)
      (filling : r.stage = .filling started manages version) :
      Advance s i r ((s.fill (key userID teamID)
        ⟨manages, expiresAt, userID, teamID, version⟩ now).move i r
        (.decided manages (some version)))
  | stores (teams : Uuid → Bool) (grants : Uuid → Uuid → Bool) (same : Bool) :
      Advance s i r ({ s.store grants same with teams := teams }.move i r
        (.changed (s.store grants same).version))
  | drops (cache : List (String × CachedGrant)) (kept : ∀ x ∈ cache, x ∈ s.cache) :
      Advance s i r ({ s with cache := cache }.move i r (.ended none))
  | returns (c : Change) (changed : r.stage = .changed c.version)
      (returning : r.returning = some c) :
      Advance s i r ((s.invalidateUser c.userID).finish i r c)

section Inversion

variable {validUUID : String → Bool} {s s' : State} {i : ℕ} {r : Request} {now : Time}

/-- An entry that is found is in the cache. -/
theorem cached_mem {k : String} {entry : CachedGrant} (cached : s.cached k = some entry) :
    (k, entry) ∈ s.cache := by
  obtain ⟨x, found, rfl⟩ := Option.map_eq_some_iff.mp cached
  have same := List.find?_some found
  rw [decide_eq_true_eq] at same
  rw [← same]
  exact List.mem_of_find?_eq_some found

theorem store_le (grants : Uuid → Uuid → Bool) (same : Bool) :
    s.version ≤ (s.store grants same).version := by
  unfold State.store
  dsimp only
  split_ifs
  · exact le_rfl
  · omega

/-- What a look-up does is one of the steps. -/
theorem lookUp_advance {userID teamID : String} (kind : r.kind = .managesTeam userID teamID)
    (stepped : lookUp s i r now userID teamID r.stage = some s') : Advance s i r s' := by
  cases at_ : r.stage with
  | begun =>
      simp only [at_, lookUp] at stepped
      split_ifs at stepped with blank
      · obtain rfl := Option.some.inj stepped
        exact .passes _ rfl
      · cases found : s.cached (key userID teamID) with
        | none =>
            simp only [found, Option.some.injEq] at stepped
            subst stepped
            exact .passes _ rfl
        | some entry =>
            simp only [found] at stepped
            split_ifs at stepped with live
            · obtain rfl := Option.some.inj stepped
              exact .hits userID teamID entry kind (cached_mem found)
            · obtain rfl := Option.some.inj stepped
              exact .passes _ rfl
  | querying started =>
      simp only [at_, lookUp] at stepped
      split at stepped
      next user team isUser isTeam =>
        obtain rfl := Option.some.inj stepped
        exact .queries userID teamID started _ kind ⟨⟨user, isUser⟩, team, isTeam⟩
      next =>
        obtain rfl := Option.some.inj stepped
        exact .passes _ rfl
  | filling started manages version =>
      simp only [at_, lookUp, Option.some.injEq] at stepped
      subst stepped
      exact .fills userID teamID _ _ _ _ version kind at_
  | _ => simp only [at_, lookUp, reduceCtorEq] at stepped

/-- What a grant does is one of the steps. -/
theorem grant_advance {caller : Caller} {userID teamID : String}
    (kind : r.kind = .grant caller userID teamID)
    (stepped : grant validUUID s i r caller userID teamID r.stage = some s') :
    Advance s i r s' := by
  cases at_ : r.stage with
  | begun =>
      simp only [at_, grant] at stepped
      cases admitted : admitGrant validUUID s caller userID teamID with
      | error reason =>
          simp only [admitted, Option.some.injEq] at stepped
          subst stepped
          exact .passes _ rfl
      | ok u =>
          simp only [admitted, Option.some.injEq] at stepped
          subst stepped
          exact .passes _ rfl
  | admitted =>
      simp only [at_, grant] at stepped
      split at stepped
      next user team isUser isTeam =>
        split_ifs at stepped with gone
        · obtain rfl := Option.some.inj stepped
          exact .passes _ rfl
        · obtain rfl := Option.some.inj stepped
          exact .stores s.teams _ _
      next =>
        obtain rfl := Option.some.inj stepped
        exact .passes _ rfl
  | changed version =>
      simp only [at_, grant, Option.some.injEq] at stepped
      subst stepped
      exact .returns ⟨userID, teamID, version⟩ at_ (by rw [Request.returning, kind, at_])
  | _ => simp only [at_, grant, reduceCtorEq] at stepped

/-- What a revocation does is one of the steps. -/
theorem revoke_advance {caller : Caller} {userID teamID : String}
    (kind : r.kind = .revoke caller userID teamID)
    (stepped : revoke s i r caller userID teamID r.stage = some s') : Advance s i r s' := by
  cases at_ : r.stage with
  | begun =>
      simp only [at_, revoke] at stepped
      cases admin : caller.requireAdmin with
      | error reason =>
          simp only [admin, Option.some.injEq] at stepped
          subst stepped
          exact .passes _ rfl
      | ok u =>
          simp only [admin] at stepped
          split at stepped
          next user team isUser isTeam =>
            split_ifs at stepped with missing
            · obtain rfl := Option.some.inj stepped
              exact .passes _ rfl
            · obtain rfl := Option.some.inj stepped
              exact .stores s.teams (fun u t => ¬ (u = user ∧ t = team) ∧ s.grants u t) false
          next =>
            obtain rfl := Option.some.inj stepped
            exact .passes _ rfl
  | changed version =>
      simp only [at_, revoke, Option.some.injEq] at stepped
      subst stepped
      exact .returns ⟨userID, teamID, version⟩ at_ (by rw [Request.returning, kind, at_])
  | _ => simp only [at_, revoke, reduceCtorEq] at stepped

/-- What the deletion of a club does is one of the steps. -/
theorem deleteTeam_advance {caller : Caller} {teamID : String}
    (stepped : deleteTeam s i r caller teamID r.stage = some s') : Advance s i r s' := by
  cases at_ : r.stage with
  | begun =>
      simp only [at_, deleteTeam] at stepped
      cases admin : caller.requireAdmin with
      | error reason =>
          simp only [admin, Option.some.injEq] at stepped
          subst stepped
          exact .passes _ rfl
      | ok u =>
          simp only [admin] at stepped
          split at stepped
          next =>
            obtain rfl := Option.some.inj stepped
            exact .passes _ rfl
          next team isTeam =>
            split_ifs at stepped with missing
            · obtain rfl := Option.some.inj stepped
              exact .passes _ rfl
            · obtain rfl := Option.some.inj stepped
              exact .stores _ _ _
  | changed version =>
      simp only [at_, deleteTeam, Option.some.injEq] at stepped
      subst stepped
      exact .drops _ fun x member => (List.mem_filter.mp member).1
  | _ => simp only [at_, deleteTeam, reduceCtorEq] at stepped

/-- What the deletion of a user does is one of the steps. -/
theorem userDeleted_advance {userID : String}
    (stepped : userDeleted s i r userID r.stage = some s') : Advance s i r s' := by
  cases at_ : r.stage with
  | begun =>
      simp only [at_, userDeleted] at stepped
      split_ifs at stepped with blank
      · obtain rfl := Option.some.inj stepped
        exact .passes _ rfl
      · split at stepped
        next =>
          obtain rfl := Option.some.inj stepped
          exact .passes _ rfl
        next user isUser =>
          obtain rfl := Option.some.inj stepped
          exact .stores s.teams (fun u t => u ≠ user ∧ s.grants u t) false
  | changed version =>
      simp only [at_, userDeleted, Option.some.injEq] at stepped
      subst stepped
      exact .drops _ fun x member => (List.mem_filter.mp member).1
  | _ => simp only [at_, userDeleted, reduceCtorEq] at stepped

/-- What a change of a role does is one of the steps. -/
theorem roleChanged_advance {userID : String}
    (stepped : roleChanged s i r userID r.stage = some s') : Advance s i r s' := by
  cases at_ : r.stage with
  | begun =>
      simp only [at_, roleChanged] at stepped
      split_ifs at stepped with blank
      · obtain rfl := Option.some.inj stepped
        exact .passes _ rfl
      · obtain rfl := Option.some.inj stepped
        exact .drops _ fun x member => (List.mem_filter.mp member).1
  | _ => simp only [at_, roleChanged, reduceCtorEq] at stepped

/-- Whatever a request does next is one of the steps. -/
theorem advanceRequest_advance (advanced : advanceRequest validUUID s i r now = some s') :
    Advance s i r s' := by
  cases kind : r.kind with
  | managesTeam userID teamID =>
      simp only [advanceRequest, kind] at advanced
      exact lookUp_advance kind advanced
  | grant caller userID teamID =>
      simp only [advanceRequest, kind] at advanced
      exact grant_advance kind advanced
  | revoke caller userID teamID =>
      simp only [advanceRequest, kind] at advanced
      exact revoke_advance kind advanced
  | deleteTeam caller teamID =>
      simp only [advanceRequest, kind] at advanced
      exact deleteTeam_advance advanced
  | userDeleted userID =>
      simp only [advanceRequest, kind] at advanced
      exact userDeleted_advance advanced
  | roleChanged userID =>
      simp only [advanceRequest, kind] at advanced
      exact roleChanged_advance advanced

/-- Everything a step of the machine can do. -/
theorem authorizer_next {label : Label} (next : (authorizer validUUID).next s label = some s') :
    (∃ kind, label = .arrive kind ∧
      s' = { s with requests := s.requests ++ [⟨kind, .begun, s.returned⟩] }) ∨
    (∃ i now r, label = .advance i now ∧ s.requests[i]? = some r ∧ Advance s i r s') ∨
    (∃ i r, s.requests[i]? = some r ∧ s' = s.move i r (.ended (some .internal))) := by
  cases label with
  | arrive kind => exact Or.inl ⟨kind, rfl, (Option.some.inj next).symm⟩
  | advance i now =>
      obtain ⟨r, present, advanced⟩ := Option.bind_eq_some_iff.mp next
      exact Or.inr (Or.inl ⟨i, now, r, rfl, present, advanceRequest_advance advanced⟩)
  | fail i =>
      obtain ⟨r, present, failed⟩ := Option.bind_eq_some_iff.mp next
      refine Or.inr (Or.inr ⟨i, r, present, ?_⟩)
      cases at_ : r.stage <;> simp_all

end Inversion

/-! ## What the cache holds -/

/-- What a request relies on: the answer it has is after the changes it has to see, and a
change it has made is among those counted. -/
def Ready (s : State) (r : Request) : Prop :=
  match r.stage with
  | .filling _ _ version => r.After version ∧
      ∀ userID teamID, r.kind = .managesTeam userID teamID → Named userID teamID
  | .decided _ (some version) => r.After version
  | .changed version => version ≤ s.version
  | _ => True

/-- An answer is cached under the texts it was queried for, and those are of UUIDs. -/
structure Keyed (x : String × CachedGrant) : Prop where
  key : x.1 = key x.2.userID x.2.teamID
  named : Named x.2.userID x.2.teamID

structure Sound (s : State) : Prop where
  keyed : ∀ x ∈ s.cache, Keyed x
  entries : ∀ x ∈ s.cache, ∀ c ∈ s.returned, c.Names x.2.userID x.2.teamID →
    c.version ≤ x.2.version
  counted : ∀ c ∈ s.returned, c.version ≤ s.version
  before : ∀ r ∈ s.requests, ∀ c ∈ r.before, c ∈ s.returned
  ready : ∀ r ∈ s.requests, Ready s r

section Steps

variable {s s' : State} {i : ℕ} {r : Request} {stage : Stage}

/-- A stage that rests on no reading of the grants is ready. -/
theorem ready_of_plain (plain : stage.plain = true) : Ready s { r with stage := stage } := by
  cases stage with
  | filling | changed => cases plain
  | decided manages version =>
      cases version with
      | none => trivial
      | some version => cases plain
  | _ => trivial

/-- What is ready stays so when there is a later version. -/
theorem Ready.mono {t : State} (ready : Ready s r) (later : s.version ≤ t.version) :
    Ready t r := by
  unfold Ready at ready ⊢
  cases at_ : r.stage with
  | changed version =>
      simp only [at_] at ready ⊢
      exact ready.trans later
  | filling now manages version =>
      simp only [at_] at ready ⊢
      exact ready
  | decided manages version =>
      cases version with
      | none => trivial
      | some version =>
          simp only [at_] at ready ⊢
          exact ready
  | _ => trivial

/-- What has to be shown of a step of one request. -/
theorem Sound.step {t : State} (sound : Sound s) (present : s.requests[i]? = some r)
    (requests : t.requests = s.requests) (keyed : ∀ x ∈ t.cache, Keyed x)
    (entries : ∀ x ∈ t.cache, ∀ c ∈ t.returned, c.Names x.2.userID x.2.teamID →
      c.version ≤ x.2.version)
    (counted : ∀ c ∈ t.returned, c.version ≤ t.version)
    (returned : ∀ c ∈ s.returned, c ∈ t.returned) (later : s.version ≤ t.version)
    (ready : Ready t { r with stage := stage }) : Sound (t.move i r stage) := by
  have member : r ∈ s.requests := List.mem_of_getElem? present
  refine ⟨keyed, entries, counted, ?_, ?_⟩
  · intro q found c earlier
    rw [State.move, requests] at found
    obtain old | rfl := List.mem_or_eq_of_mem_set found
    · exact returned c (sound.before q old c earlier)
    · exact returned c (sound.before r member c earlier)
  · intro q found
    rw [State.move, requests] at found
    obtain old | rfl := List.mem_or_eq_of_mem_set found
    · exact (sound.ready q old).mono later
    · exact ready

/-- A key is split at its zero character, which no text of a UUID has. -/
theorem key_injective {userID teamID userID' teamID' : String} (named : Named userID teamID)
    (same : key userID' teamID' = key userID teamID) : userID' = userID ∧ teamID' = teamID := by
  obtain ⟨⟨user, isUser⟩, team, isTeam⟩ := named
  have lists : userID'.toList ++ '\x00' :: teamID'.toList =
      userID.toList ++ '\x00' :: teamID.toList := by
    have chars := congrArg String.toList same
    simpa [key] using chars
  obtain ⟨gap, first, second⟩ | ⟨gap, first, second⟩ := List.append_eq_append_iff.mp lists
  · cases gap with
    | nil =>
        rw [List.append_nil] at first
        rw [List.nil_append, List.cons.injEq] at second
        exact ⟨String.toList_inj.mp first.symm, String.toList_inj.mp second.2⟩
    | cons c gap =>
        rw [List.cons_append, List.cons.injEq] at second
        refine absurd ?_ (Uuid.nul_notMem isUser)
        rw [first, second.1]
        exact List.mem_append_right _ List.mem_cons_self
  · cases gap with
    | nil =>
        rw [List.append_nil] at first
        rw [List.nil_append, List.cons.injEq] at second
        exact ⟨String.toList_inj.mp first, String.toList_inj.mp second.2.symm⟩
    | cons c gap =>
        rw [List.cons_append, List.cons.injEq] at second
        refine absurd ?_ (Uuid.nul_notMem isTeam)
        rw [second.2]
        exact List.mem_append_right _ List.mem_cons_self

/-- What is left after an invalidation is not under the user's text. -/
theorem mem_invalidateUser {userID : String} {x : String × CachedGrant}
    (member : x ∈ (s.invalidateUser userID).cache) :
    x ∈ s.cache ∧ hasPrefix x.1 (userID ++ "\x00") ≠ true := by
  obtain ⟨old, kept⟩ := List.mem_filter.mp member
  exact ⟨old, of_decide_eq_true kept⟩

/-- What is in the cache after it is filled is what it was filled with, or was there. -/
theorem mem_fill {k : String} {entry : CachedGrant} {now : Time} {x : String × CachedGrant}
    (member : x ∈ (s.fill k entry now).cache) : x = (k, entry) ∨ x ∈ s.cache := by
  have placed : x ∈ (k, entry) :: s.cache.filter (·.1 ≠ k) := by
    unfold State.fill at member
    dsimp only at member
    split_ifs at member with many
    · exact (List.mem_filter.mp member).1
    · exact member
  exact (List.mem_cons.mp placed).imp_right fun old => (List.mem_filter.mp old).1

/-- A step leaves the cache sound, when what it fills in is no older than what has returned. -/
theorem Sound.advance (sound : Sound s) (present : s.requests[i]? = some r)
    (fresh : ∀ x ∈ r.filling, ∀ c ∈ s.returned, c.Names x.1 x.2.1 → c.version ≤ x.2.2)
    (dropped : ∀ c ∈ r.returning, ∀ x ∈ s.cache, c.Names x.2.userID x.2.teamID →
      hasPrefix x.1 (c.userID ++ "\x00") = true ∨ c.version ≤ x.2.version)
    (advance : Advance s i r s') : Sound s' := by
  have member : r ∈ s.requests := List.mem_of_getElem? present
  cases advance with
  | passes stage plain =>
      exact sound.step present rfl sound.keyed sound.entries sound.counted (fun _ => id) le_rfl
        (ready_of_plain plain)
  | hits userID teamID entry kind cached =>
      refine sound.step present rfl sound.keyed sound.entries sound.counted (fun _ => id) le_rfl ?_
      intro u t is_ c earlier names
      rw [kind, Kind.managesTeam.injEq] at is_
      obtain ⟨rfl, rfl⟩ := is_
      have keyed := sound.keyed _ cached
      have own : userID = entry.userID ∧ teamID = entry.teamID :=
        key_injective keyed.named keyed.key
      rw [own.1, own.2] at names
      exact sound.entries _ cached c (sound.before r member c earlier) names
  | queries userID teamID now manages kind named =>
      refine sound.step present rfl sound.keyed sound.entries sound.counted (fun _ => id) le_rfl
        ⟨?_, ?_⟩
      · exact fun _ _ _ c earlier _ => sound.counted c (sound.before r member c earlier)
      · intro u t is_
        rw [kind, Kind.managesTeam.injEq] at is_
        obtain ⟨rfl, rfl⟩ := is_
        exact named
  | fills userID teamID expiresAt now started manages version kind filling =>
      have ready := sound.ready r member
      simp only [Ready, filling] at ready
      have fills : (userID, teamID, version) ∈ r.filling := by
        simp [Request.filling, kind, filling]
      refine sound.step present rfl ?_ ?_ sound.counted (fun _ => id) le_rfl ready.1
      · intro x found
        obtain rfl | old := mem_fill found
        · exact ⟨rfl, ready.2 userID teamID kind⟩
        · exact sound.keyed x old
      · intro x found c returned names
        obtain rfl | old := mem_fill found
        · exact fresh _ fills c returned names
        · exact sound.entries x old c returned names
  | stores teams grants same =>
      have later := store_le (s := s) grants same
      refine sound.step present rfl sound.keyed sound.entries ?_ (fun _ => id) later ?_
      · exact fun c returned => (sound.counted c returned).trans later
      · exact le_rfl
  | drops cache kept =>
      refine sound.step present rfl ?_ ?_ sound.counted (fun _ => id) le_rfl ?_
      · exact fun x found => sound.keyed x (kept x found)
      · exact fun x found => sound.entries x (kept x found)
      · trivial
  | returns change changed returning =>
      have ready := sound.ready r member
      simp only [Ready, changed] at ready
      refine sound.step present rfl ?_ ?_ ?_ (fun _ => List.mem_cons_of_mem _) le_rfl ?_
      · exact fun x found => sound.keyed x (mem_invalidateUser found).1
      · intro x found c returned names
        obtain ⟨old, other⟩ := mem_invalidateUser found
        obtain rfl | earlier := List.mem_cons.mp returned
        · exact (dropped _ returning x old names).resolve_left other
        · exact sound.entries x old c earlier names
      · intro c returned
        obtain rfl | earlier := List.mem_cons.mp returned
        · exact ready
        · exact sound.counted c earlier
      · trivial

/-- One step keeps it all, provided no answer is cached that a change has overtaken, and none
from before a change is left that returns. -/
theorem Sound.next {validUUID : String → Bool} {label : Label} (sound : Sound s)
    (unraced : Unraced s label) (next : (authorizer validUUID).next s label = some s') :
    Sound s' := by
  obtain ⟨kind, rfl, rfl⟩ | ⟨i, now, r, rfl, present, advance⟩ | ⟨i, r, present, rfl⟩ :=
    authorizer_next next
  · refine ⟨sound.keyed, sound.entries, sound.counted, ?_, ?_⟩
    · intro r found c earlier
      obtain old | new := List.mem_append.mp found
      · exact sound.before r old c earlier
      · obtain rfl := List.mem_singleton.mp new
        exact earlier
    · intro r found
      obtain old | new := List.mem_append.mp found
      · exact (sound.ready r old).mono le_rfl
      · obtain rfl := List.mem_singleton.mp new
        trivial
  · obtain ⟨fresh, dropped⟩ := unraced r present
    exact sound.advance present fresh dropped advance
  · exact sound.step present rfl sound.keyed sound.entries sound.counted (fun _ => id) le_rfl
      (ready_of_plain rfl)

/-- **A revocation takes effect at once**, in every state of every run in which no answer
is cached after a change of the same user's and club's that was made since it was read has
returned, and no answer from before a change is left, under another text of the user's id, when
the change returns. -/
theorem revocation_immediate {validUUID : String → Bool}
    (reach : (authorizer validUUID).Reach Unraced s) : Immediate s := by
  have sound : Sound s := by
    apply reach.invariant
    · rintro t ⟨cache, requests, returned⟩
      refine ⟨?_, ?_, ?_, ?_, ?_⟩
      · simp [cache]
      · simp [cache]
      · simp [returned]
      · simp [requests]
      · simp [requests]
    · exact fun kept unraced next => kept.next unraced next
  intro r member manages version decided
  have ready := sound.ready r member
  simp only [Ready, decided] at ready
  exact ready

end Steps

section Runs

def byAdmin : Caller := ⟨some ⟨"root", .admin, "root"⟩, fun _ _ => .ok false⟩

/-- A user and a club. -/
def sam : String := "5a000000-0000-4000-8000-00000000005a"

def home : String := "c0000000-0000-4000-8000-00000000000c"

/-- The same user's id, as an address may have it. -/
def samUpper : String := "5A000000-0000-4000-8000-00000000005A"

/-- An editor with a grant for a club. -/
def granted : State where
  teams t := some t = Uuid.parse home
  grants u t := some u = Uuid.parse sam ∧ some t = Uuid.parse home
  version := 0
  cache := []
  requests := []
  returned := []

def asks : Label := .arrive (.managesTeam sam home)

def revokes (userID : String) : Label := .arrive (.revoke byAdmin userID home)

/-- An answer is cached, the grant is revoked, and the editor is asked about again. -/
def revoked : List Label :=
  [asks, .advance 0 0, .advance 0 0, .advance 0 0, asks, .advance 1 1, revokes sam, .advance 2 2,
    .advance 2 2, asks, .advance 3 3, .advance 3 3, .advance 3 3]

/-- A grant that was revoked is revoked at once. -/
theorem revocation_immediate_revoked :
    let s := (authorizer fun _ => true).after Unraced granted revoked
    Immediate s ∧ s.requests.map Request.stage =
      [.decided true (some 0), .decided true (some 0), .ended none, .decided false (some 1)] :=
  ⟨revocation_immediate (Machine.reach_after ⟨rfl, rfl, rfl⟩ (by decide +kernel)),
    by decide +kernel⟩

/-- The grant is revoked between the reading of an answer and its caching. -/
def overtaken : List Label :=
  [asks, .advance 0 0, .advance 0 0, revokes sam, .advance 1 1, .advance 1 1, .advance 0 2, asks,
    .advance 2 3]

/-- A decision was made on the grants from before a change that had returned. -/
def Request.stale (r : Request) : Bool :=
  match r.kind, r.stage with
  | .managesTeam userID teamID, .decided _ (some version) =>
      r.before.any fun c => c.Names userID teamID && version < c.version
  | _, _ => false

/-- Where an answer is stale, not all is immediate. -/
theorem not_immediate {s : State} (stale : s.requests.any Request.stale = true) :
    ¬ Immediate s := by
  intro immediate
  obtain ⟨r, member, stale⟩ := List.any_eq_true.mp stale
  unfold Request.stale at stale
  split at stale
  · rename_i userID teamID manages version kind stage
    obtain ⟨c, earlier, late⟩ := List.any_eq_true.mp stale
    simp only [Bool.and_eq_true, decide_eq_true_eq] at late
    obtain ⟨names, late⟩ := late
    have after := immediate r member manages version stage userID teamID kind c earlier
    exact absurd (after names) (not_le.mpr late)
  · cases stale

/-- A look-up that was overtaken fills in a grant that was revoked. -/
theorem revocation_overtaken :
    let s := (authorizer fun _ => true).after Machine.always granted overtaken
    (authorizer fun _ => true).Reach Machine.always s ∧
      (∀ user ∈ Uuid.parse sam, ∀ team ∈ Uuid.parse home, s.grants user team = false) ∧
      ¬ Immediate s :=
  ⟨Machine.reach_after ⟨rfl, rfl, rfl⟩ (by decide +kernel), by decide +kernel,
    not_immediate (by decide +kernel)⟩

/-- The grant is revoked under another text of the user's id than its answer is cached under. -/
def misspelled : List Label :=
  [asks, .advance 0 0, .advance 0 0, .advance 0 0, revokes samUpper, .advance 1 1, .advance 1 1,
    asks, .advance 2 2]

example : ((authorizer fun _ => true).after Machine.always granted misspelled).requests.any
    Request.stale = true := by
  decide +kernel

end Runs

end ScoutPulse.Grants
